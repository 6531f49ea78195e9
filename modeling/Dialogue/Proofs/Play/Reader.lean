import Dialogue.Proofs.Play.Coherence
import Dialogue.Proofs.Variable.Edits
namespace Dialogue

namespace Program

def behind? (p : Program) (label : String) : Option Nat :=
  (p.actions.idxOf? (.label label)).map (· + 1)

theorem get?_labelsFrom (start : Nat) (table : Table Nat) (actions : List Action) (label : String) :
    (labelsFrom start table actions).get? label =
      (table.get? label).or ((actions.idxOf? (.label label)).map (start + 1 + ·)) := by
  induction actions generalizing start table with
  | nil => simp [labelsFrom]
  | cons a r ih =>
    have hs : (r.idxOf? (.label label)).map (start + 1 + 1 + ·) =
        ((r.idxOf? (.label label)).map (· + 1)).map (start + 1 + ·) := by
      rw [Option.map_map]
      congr 1
      funext i
      exact Nat.add_right_comm (start + 1) 1 i
    rw [labelsFrom, List.idxOf?_cons]
    cases a with
    | label name =>
      simp only [Action.label?, ih, Table.get?_insertNew, beq_iff_eq, Action.label.injEq]
      by_cases hn : name = label
      · subst hn
        cases table.get? name <;> simp
      · rw [if_neg (fun h => hn h.1.symm), if_neg hn, hs]
    | _ => simp only [Action.label?, ih, hs, beq_iff_eq, reduceCtorEq, if_false]

theorem Indexed.label?_eq {p : Program} (h : p.Indexed) (label : String) :
    p.label? label = p.behind? label := by
  rw [label?, h, labelTable, get?_labelsFrom, behind?]
  simp only [Table.get?_empty, Option.none_or]
  congr 1
  funext i
  exact Nat.add_comm _ _

end Program

/-- Someone who takes one action of a program after the other, and has been told the answers to
the choices ahead. -/
structure Reader where
  visits : List Nat
  answers : List Nat
  cues : List Cue
  store : Store

namespace Reader

def start (s : Store) (answers : List Nat) : Reader :=
  ⟨[], answers, [], s⟩

/-- Where a reader goes on, with the answers that are left. -/
def place? (p : Program) (r : Reader) : Option (Nat × List Nat) :=
  match r.visits.getLast? with
  | none => some (0, r.answers)
  | some i =>
    match p.action? i with
    | none => none
    | some (.goto target) => (p.behind? target).map (·, r.answers)
    | some (.choices (o :: options)) =>
      match r.answers with
      | [] => none
      | index :: rest =>
        (o :: options)[index]?.bind fun o => (p.behind? o.target).map (·, rest)
    | some (.scene ..) => none
    | some _ => some (i + 1, r.answers)

/-- A reader who has taken one more action, and has made the changes that it asks for. -/
def visited (r : Reader) (i : Nat) (a : Action) (answers : List Nat) : Reader :=
  ⟨r.visits ++ [i], answers, r.cues ++ a.cues r.store, a.edits.foldl Store.edit r.store⟩

def visit? (p : Program) (r : Reader) : Option Reader :=
  (r.place? p).bind fun (i, answers) => (p.action? i).map (r.visited i · answers)

def read (p : Program) : Nat → Reader → Option Reader
  | 0, r => some r
  | k + 1, r => (r.visit? p).bind (read p k)

def told (r : Reader) (answers : List Nat) : Reader :=
  { r with answers := r.answers ++ answers }

theorem told_told (r : Reader) (answers later : List Nat) :
    (r.told answers).told later = r.told (answers ++ later) := by
  simp only [told, List.append_assoc]

variable {p : Program} {r q : Reader} {i : Nat} {a : Action}

theorem read_add (j k : Nat) (r : Reader) : r.read p (j + k) = (r.read p j).bind (read p k) := by
  induction j generalizing r with
  | zero => rw [Nat.zero_add]; rfl
  | succ j ih =>
    rw [Nat.succ_add, read, read]
    cases r.visit? p with
    | none => rfl
    | some q => exact ih q

theorem last_visited (r : Reader) (i : Nat) (a : Action) (answers : List Nat) :
    (r.visited i a answers).visits.getLast? = some i :=
  List.getLast?_concat

theorem store_visited (r : Reader) (i : Nat) (a : Action) (answers : List Nat) :
    (r.visited i a answers).store = a.update r.store :=
  (a.update_eq_foldl_edit r.store).symm

theorem read_one (h : r.visit? p = some q) : r.read p 1 = some q := by
  rw [read, h]
  rfl

theorem place?_start (h : r.visits = []) : r.place? p = some (0, r.answers) := by
  rw [place?, h]
  rfl

theorem place?_proceed (hv : r.visits.getLast? = some i) (ha : p.action? i = some a)
    (hn : a.next = .proceed) : r.place? p = some (i + 1, r.answers) := by
  simp only [place?, hv, ha]
  cases a with
  | choices options =>
    cases options with
    | nil => rfl
    | cons o options => simp [Action.next] at hn
  | goto | scene => cases hn
  | _ => rfl

theorem place?_message {content : String} (hv : r.visits.getLast? = some i)
    (ha : p.action? i = some (.message content)) : r.place? p = some (i + 1, r.answers) := by
  simp only [place?, hv, ha]

theorem place?_goto {target : String} (hv : r.visits.getLast? = some i)
    (ha : p.action? i = some (.goto target)) :
    r.place? p = (p.behind? target).map (·, r.answers) := by
  simp only [place?, hv, ha]

theorem place?_leave {change : SceneChange} (hv : r.visits.getLast? = some i)
    (ha : p.action? i = some a) (hn : a.next = .leave change) : r.place? p = none := by
  simp only [place?, hv, ha]
  cases a with
  | scene => rfl
  | choices options =>
    rw [Action.next] at hn
    split at hn <;> cases hn
  | _ => cases hn

theorem place?_choices {options : List ChoiceOption} {index : Nat} {o : ChoiceOption}
    {rest : List Nat} (hv : r.visits.getLast? = some i)
    (ha : p.action? i = some (.choices options)) (ho : options[index]? = some o)
    (hr : r.answers = index :: rest) : r.place? p = (p.behind? o.target).map (·, rest) := by
  cases options with
  | nil => cases ho
  | cons o' options => simp only [place?, hv, ha, hr, ho, Option.bind_some]

theorem visit?_eq {answers : List Nat} (hr : r.place? p = some (i, answers))
    (ha : p.action? i = some a) : r.visit? p = some (r.visited i a answers) := by
  simp only [visit?, hr, Option.bind_some, ha, Option.map_some]

theorem place?_told {rest : List Nat} (h : r.place? p = some (i, rest)) (answers : List Nat) :
    (r.told answers).place? p = some (i, rest ++ answers) := by
  rw [place?] at h ⊢
  rw [told]
  cases hv : r.visits.getLast? with
  | none =>
    simp only [hv, Option.some.injEq, Prod.mk.injEq] at h
    simp only [h.1, h.2]
  | some j =>
    simp only [hv] at h ⊢
    split at h
    · cases h
    · next target ha =>
      obtain ⟨k, hk, he⟩ := Option.map_eq_some_iff.mp h
      cases he
      simp only [hk, Option.map_some]
    · next o options ha =>
      cases hr : r.answers with
      | nil => simp [hr] at h
      | cons index later =>
        simp only [hr] at h
        obtain ⟨o', ho, hb⟩ := Option.bind_eq_some_iff.mp h
        obtain ⟨k, hk, he⟩ := Option.map_eq_some_iff.mp hb
        cases he
        simp only [List.cons_append, ho, Option.bind_some, hk, Option.map_some]
    · cases h
    · cases h
      rfl

theorem visit?_told (h : r.visit? p = some q) (answers : List Nat) :
    (r.told answers).visit? p = some (q.told answers) := by
  obtain ⟨⟨j, rest⟩, hr, hq⟩ := Option.bind_eq_some_iff.mp h
  obtain ⟨a, ha, rfl⟩ := Option.map_eq_some_iff.mp hq
  exact visit?_eq (place?_told hr answers) ha

theorem read_told {k : Nat} (h : r.read p k = some q) (answers : List Nat) :
    (r.told answers).read p k = some (q.told answers) := by
  induction k generalizing r with
  | zero =>
    cases h
    rfl
  | succ k ih =>
    obtain ⟨r', hr, hq⟩ := Option.bind_eq_some_iff.mp h
    rw [read, visit?_told hr]
    exact ih hq

def edits (p : Program) (r : Reader) : List Edit :=
  (r.visits.filterMap p.action?).flatMap Action.edits

theorem edits_visited (r : Reader) (ha : p.action? i = some a) (answers : List Nat) :
    (r.visited i a answers).edits p = r.edits p ++ a.edits := by
  rw [edits, visited, List.filterMap_append, List.flatMap_append, List.filterMap_cons_some ha,
    List.filterMap_nil, List.flatMap_singleton]
  rfl

theorem store_visit? (h : r.visit? p = some q) {s : Store}
    (hs : r.store = (r.edits p).foldl Store.edit s) :
    q.store = (q.edits p).foldl Store.edit s := by
  obtain ⟨⟨j, rest⟩, _, hq⟩ := Option.bind_eq_some_iff.mp h
  obtain ⟨a, ha, rfl⟩ := Option.map_eq_some_iff.mp hq
  rw [edits_visited r ha, List.foldl_append, ← hs]
  rfl

/-- The variables after some visits: each change that was asked for has been made once, in order. -/
theorem store_read {k : Nat} {s : Store} (h : r.read p k = some q)
    (hs : r.store = (r.edits p).foldl Store.edit s) :
    q.store = (q.edits p).foldl Store.edit s := by
  induction k generalizing r with
  | zero =>
    cases h
    exact hs
  | succ k ih =>
    obtain ⟨r', hr, hq⟩ := Option.bind_eq_some_iff.mp h
    exact ih hq (store_visit? hr hs)

end Reader

/-- A reader who follows a stretch has the same cues and variables, and comes to its wait or no
further. -/
structure Stretch.ReadTo (p : Program) (cues : List Cue) (s : Stretch) (r : Reader) : Prop where
  cues : r.cues = cues ++ s.cues
  store : r.store = s.store
  place : ∀ phase, s.stop = .waits phase →
    r.answers = [] ∧ r.visits.getLast? = s.cursor.position
  finished : (∀ phase, s.stop ≠ .waits phase) → r.visit? p = none

theorem Stretch.ReadTo.after {p : Program} {cues earlier : List Cue} {s : Stretch} {r : Reader}
    (h : s.ReadTo p (cues ++ earlier) r) : (s.after earlier).ReadTo p cues r :=
  ⟨h.cues.trans (List.append_assoc _ _ _), h.store, h.place, h.finished⟩

namespace Cursor

open Reader

variable {fresh : List Nat} {c : Cursor} {s : Store} {st : Stretch}

theorem Plays.read (h : Plays fresh c s st) (hi : c.program.Indexed)
    (hf : ∀ fault, st.stop ≠ .fails fault) {q : Reader}
    (hq : q.place? c.program = some (c.next, [])) (hs : q.store = s) :
    ∃ k r, q.read c.program k = some r ∧ st.ReadTo c.program q.cues r := by
  induction h generalizing q with
  | @ends fresh c s hp =>
    have hn : q.visit? c.program = none := by
      have ha : c.program.action? c.next = none := hp
      simp only [visit?, hq, Option.bind_some, ha, Option.map_none]
    exact ⟨0, q, rfl, (List.append_nil _).symm, hs, nofun, fun _ => hn⟩
  | @waits fresh c s a phase hp hn =>
    have hv := read_one (visit?_eq hq hp)
    subst hs
    refine ⟨1, _, hv, rfl, store_visited .., ?_, ?_⟩
    · intro _ _
      exact ⟨rfl, last_visited q c.next a []⟩
    · intro hw
      exact (hw phase rfl).elim
  | @leaves fresh c s a change hp hn =>
    have hv := read_one (visit?_eq hq hp)
    subst hs
    refine ⟨1, _, hv, rfl, store_visited .., nofun, ?_⟩
    intro _
    rw [visit?, place?_leave (last_visited q c.next a []) hp hn]
    rfl
  | missing => exact (hf _ rfl).elim
  | again => exact (hf _ rfl).elim
  | @proceeds fresh c s a st hp hn _ ih =>
    have hv := visit?_eq hq hp
    subst hs
    have hr : (q.visited c.next a []).place? c.program = some (c.next + 1, []) :=
      place?_proceed (last_visited ..) hp hn
    obtain ⟨k, r, hk, hr⟩ := ih hi hf hr (store_visited ..)
    refine ⟨k + 1, r, ?_, hr.after⟩
    rw [Reader.read, hv]
    exact hk
  | @jumps fresh c s a target d st hp hn _ hj _ ih =>
    have hv := visit?_eq hq hp
    subst hs
    have hd : d.program = c.program := program_jump hj
    have hl : c.program.behind? target = some d.next := by
      rw [← hi.label?_eq]
      exact next_jump hj
    rw [Action.next_eq_jump_iff] at hn
    subst hn
    have hr : (q.visited c.next (.goto target) []).place? c.program = some (d.next, []) := by
      rw [place?_goto (last_visited ..) hp, hl]
      rfl
    rw [hd] at ih
    obtain ⟨k, r, hk, hr⟩ := ih hi hf hr (store_visited ..)
    refine ⟨k + 1, r, ?_, hr.after⟩
    rw [Reader.read, hv]
    exact hk

end Cursor

end Dialogue
