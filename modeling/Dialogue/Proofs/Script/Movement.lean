import Dialogue.Proofs.Check.Labels
namespace Dialogue

namespace Cursor

inductive Move where
  | advance
  | jump (label : String)

def move (c : Cursor) : Move → Cursor
  | .advance => c.advance.2
  | .jump label => (c.jump? label).getD c

def follow (c : Cursor) (moves : List Move) : Cursor :=
  moves.foldl move c

/-- The cursor is before the first action of its program, or on one of its actions. -/
def Within (c : Cursor) : Prop :=
  ∀ i, c.position = some i → i < c.program.size

variable {c d : Cursor} {label : String}

theorem advance_of_hasNext (h : c.hasNext = true) :
    c.advance = (c.peek?, { c with position := some c.next }) :=
  if_pos h

theorem advance_of_end (h : c.hasNext = false) : c.advance = (none, c) :=
  if_neg (Bool.not_eq_true _ ▸ h)

theorem hasNext_iff_isSome_peek? (c : Cursor) : c.hasNext = true ↔ c.peek?.isSome = true := by
  rw [hasNext_iff, peek?, Program.action?, Program.size, isSome_getElem?]

theorem fst_advance (c : Cursor) : c.advance.1 = c.peek? := by
  cases h : c.hasNext with
  | true => rw [advance_of_hasNext h]
  | false =>
    have hn : c.peek? = none := by
      by_contra hs
      rw [← ne_eq, ← Option.isSome_iff_ne_none, ← hasNext_iff_isSome_peek?, h] at hs
      cases hs
    rw [advance_of_end h, hn]

theorem current?_advance {a : Action} (h : c.advance.1 = some a) :
    c.advance.2.position = some c.next ∧ c.advance.2.current? = some a := by
  rw [fst_advance] at h
  have hn : c.hasNext = true := by rw [hasNext_iff_isSome_peek?, h, Option.isSome_some]
  rw [advance_of_hasNext hn]
  exact ⟨rfl, h⟩

theorem jump?_eq_some_iff (h : c.program.Indexed) :
    c.jump? label = some d ↔
      ∃ i, c.program.Declares label i ∧ d = { c with position := some i } := by
  rw [jump?, Option.map_eq_some_iff]
  constructor
  · intro hj
    obtain ⟨k, hk, hd⟩ := hj
    obtain ⟨i, rfl, hi⟩ := h.label?_eq_some_iff.mp hk
    exact ⟨i, hi, hd.symm⟩
  · intro hj
    obtain ⟨i, hi, hd⟩ := hj
    exact ⟨i + 1, h.label?_eq_some_iff.mpr ⟨i, rfl, hi⟩, hd.symm⟩

theorem jump?_eq_none_iff (h : c.program.Indexed) :
    c.jump? label = none ↔ ∀ i, c.program.action? i ≠ some (.label label) := by
  rw [jump?, Option.map_eq_none_iff, h.label?_eq_none_iff, Program.mem_definedLabels_iff,
    List.mem_iff_getElem?, not_exists]
  rfl

theorem Within.advance (h : c.Within) : c.advance.2.Within := by
  cases hn : c.hasNext with
  | true =>
    rw [advance_of_hasNext hn]
    intro i hi
    cases hi
    exact c.hasNext_iff.mp hn
  | false =>
    rw [advance_of_end hn]
    exact h

theorem within_of_jump (h : c.program.Indexed) (hj : c.jump? label = some d) : d.Within := by
  obtain ⟨i, hi, rfl⟩ := (jump?_eq_some_iff h).mp hj
  intro k hk
  cases hk
  exact (List.getElem?_eq_some_iff.mp hi.1).1

theorem program_move (c : Cursor) (m : Move) : (c.move m).program = c.program := by
  cases m with
  | advance => exact c.program_advance
  | jump label =>
    rw [move]
    cases hj : c.jump? label with
    | none => rfl
    | some d => exact program_jump hj

theorem Within.move (h : c.Within) (hp : c.program.Indexed) (m : Move) : (c.move m).Within := by
  cases m with
  | advance => exact h.advance
  | jump label =>
    rw [Cursor.move]
    cases hj : c.jump? label with
    | none => exact h
    | some d => exact within_of_jump hp hj

theorem program_follow (c : Cursor) (moves : List Move) : (c.follow moves).program = c.program := by
  induction moves generalizing c with
  | nil => rfl
  | cons m moves ih => exact (ih (c.move m)).trans (c.program_move m)

theorem Within.follow (h : c.Within) (hp : c.program.Indexed) (moves : List Move) :
    (c.follow moves).Within := by
  induction moves generalizing c with
  | nil => exact h
  | cons m moves ih =>
    apply ih (h.move hp m)
    rw [program_move]
    exact hp

/-- Behind the first declaration of a label the script goes on, unless it ends there. -/
theorem fst_advance_of_jump (h : c.program.Indexed) (hj : c.jump? label = some d) :
    ∃ i, d.position = some i ∧ c.program.Declares label i ∧
      d.advance.1 = c.program.action? (i + 1) ∧
      (d.advance.1 = none ↔ i + 1 = c.program.size) := by
  obtain ⟨i, hi, rfl⟩ := (jump?_eq_some_iff h).mp hj
  have ha := fst_advance { c with position := some i }
  have hlt : i < c.program.size := (List.getElem?_eq_some_iff.mp hi.1).1
  refine ⟨i, rfl, hi, ha, ?_⟩
  rw [ha, peek?, Program.action?, List.getElem?_eq_none_iff]
  exact ⟨fun hle => Nat.le_antisymm hlt hle, fun he => Nat.le_of_eq he.symm⟩

/-- However a new cursor is moved, it is before the first action or on one, and sees the action that
comes next. -/
theorem moves_within {p : Program} (h : p.Indexed) (moves : List Move) :
    let c := (start p).follow moves
    c.program = p ∧ (∀ i, c.position = some i → i < p.size) ∧
      ((c.hasNext = true ↔ c.peek?.isSome = true) ∧
        (c.hasNext = true ↔ c.advance.1.isSome = true) ∧ c.advance.1 = c.peek?) ∧
      (∀ a, c.advance.1 = some a →
        c.advance.2.position = some c.next ∧ c.advance.2.current? = some a) ∧
      (c.hasNext = false → c.advance = (none, c)) ∧
      ∀ label,
        (∀ d, c.jump? label = some d → c.move (.jump label) = d ∧
          ∃ i, d.position = some i ∧ p.Declares label i ∧ d.advance.1 = p.action? (i + 1) ∧
            (d.advance.1 = none ↔ i + 1 = p.size)) ∧
        (c.jump? label = none → c.move (.jump label) = c) ∧
        (c.jump? label = none ↔ ∀ i, p.action? i ≠ some (.label label)) := by
  intro c
  have hp : c.program = p := (start p).program_follow moves
  have hw : c.Within := Within.follow (c := start p) nofun h moves
  rw [← hp] at h ⊢
  refine ⟨rfl, hw, ⟨c.hasNext_iff_isSome_peek?, ?_, c.fst_advance⟩, fun a => current?_advance,
    advance_of_end, fun label => ⟨fun d hj => ⟨?_, fst_advance_of_jump h hj⟩, fun hj => ?_,
      jump?_eq_none_iff h⟩⟩
  · rw [fst_advance]
    exact c.hasNext_iff_isSome_peek?
  · rw [move, hj, Option.getD_some]
  · rw [move, hj, Option.getD_none]

def ring : Program :=
  .ofActions "ring" [.label "top", .message "Once more.", .label "top", .label "end"] []

theorem moves_within_ring :
    ring.Indexed ∧
      let c := (start ring).follow [.jump "end", .advance, .jump "nowhere"]
      c.position = some 3 ∧ c.advance = (none, c) ∧
        ∃ d, c.jump? "top" = some d ∧ d.position = some 0 ∧
          d.advance.1 = some (.message "Once more.") := by
  obtain ⟨_, _, _, _, hend, hjump⟩ :=
    moves_within (p := ring) rfl [.jump "end", .advance, .jump "nowhere"]
  refine ⟨rfl, by decide, hend (by decide), ?_⟩
  obtain ⟨hlands, _, hfails⟩ := hjump "top"
  obtain ⟨d, hd⟩ := Option.ne_none_iff_exists'.mp fun hn => hfails.mp hn 0 rfl
  obtain ⟨_, i, hi, hdec, hadv, _⟩ := hlands d hd
  obtain rfl : i = 0 := by
    by_contra hne
    exact hdec.2 0 (Nat.pos_of_ne_zero hne) rfl
  exact ⟨d, hd, hi, hadv⟩

end Cursor

end Dialogue
