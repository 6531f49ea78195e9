import Dialogue.Proofs.Play.Coherence
namespace Dialogue

/-- A script in the course of being played, with the cues so far and the places of the jumps taken.
-/
structure Course where
  cues : List Cue
  cursor : Cursor
  store : Store
  taken : List Nat

@[simp] theorem Stretch.after_after (r : Stretch) (later earlier : List Cue) :
    (r.after later).after earlier = r.after (earlier ++ later) := by
  simp only [after, List.append_assoc]

namespace Course

/-- Takes one action; with a guard it is a failure to take a jump for a second time. -/
def step (guarded : Bool) (x : Course) : Stretch ⊕ Course :=
  match x.cursor.peek? with
  | none => .inl ⟨x.cues, x.cursor, x.store, .ends⟩
  | some a =>
    let here := x.cursor.reached
    let cues := x.cues ++ a.cues x.store
    let t := a.update x.store
    match a.next with
    | .proceed => .inr ⟨cues, here, t, x.taken⟩
    | .wait phase => .inl ⟨cues, here, t, .waits phase⟩
    | .leave change => .inl ⟨cues, here, t, .leaves change⟩
    | .jump target =>
      if guarded && x.taken.contains x.cursor.next then
        .inl ⟨cues, here, t, .fails (.noProgress target)⟩
      else match here.jump? target with
        | some there => .inr ⟨cues, there, t, x.cursor.next :: x.taken⟩
        | none => .inl ⟨cues, here, t, .fails (.labelNotFound target)⟩

/-- Takes at most so many actions; there is no result if they do not come to a stop. -/
def run (guarded : Bool) : Nat → Course → Option Stretch
  | 0, _ => none
  | k + 1, x =>
    match x.step guarded with
    | .inl s => some s
    | .inr y => run guarded k y

theorem run_stop {guarded : Bool} {k : Nat} {x : Course} {s : Stretch}
    (h : x.step guarded = .inl s) : x.run guarded (k + 1) = some s := by
  rw [run, h]

theorem run_step {guarded : Bool} {k : Nat} {x y : Course} (h : x.step guarded = .inr y) :
    x.run guarded (k + 1) = y.run guarded k := by
  rw [run, h]

/-- The jumps that may still be taken are those that have not been taken. -/
structure Untaken (fresh : List Nat) (x : Course) : Prop where
  nodup : fresh.Nodup
  mem_iff : ∀ i, i ∈ fresh ↔ i < x.cursor.program.size ∧ i ∉ x.taken

theorem Untaken.taken_of_next {fresh : List Nat} {x : Course} (h : Untaken fresh x) {a : Action}
    (hp : x.cursor.peek? = some a) :
    x.taken.contains x.cursor.next = decide (x.cursor.next ∉ fresh) := by
  have hlt := Cursor.next_lt_of_peek? hp
  have hm := h.mem_iff x.cursor.next
  by_cases ht : x.cursor.next ∈ x.taken
  · simp [ht, hm]
  · simp [ht, hm, hlt]

theorem Untaken.erase {fresh : List Nat} {x y : Course} {i : Nat} (h : Untaken fresh x)
    (hp : y.cursor.program = x.cursor.program) (ht : y.taken = i :: x.taken) :
    Untaken (fresh.erase i) y := by
  refine ⟨h.nodup.erase i, ?_⟩
  intro j
  rw [h.nodup.mem_erase_iff, h.mem_iff, hp, ht, List.mem_cons, not_or]
  exact and_left_comm

/-- The number of actions that can be taken before all jumps have been taken and the script is at
its end. -/
def bound (fresh : List Nat) (c : Cursor) : Nat :=
  fresh.length * (c.program.size + 1) + (c.program.size - c.next)

theorem bound_reached {fresh : List Nat} {c : Cursor} {a : Action} (hp : c.peek? = some a) :
    bound fresh c.reached < bound fresh c := by
  have hlt := Cursor.next_lt_of_peek? hp
  simp only [bound, Cursor.program_reached, Cursor.next_reached]
  omega

theorem bound_jump {fresh : List Nat} {c d : Cursor} (hm : c.next ∈ fresh)
    (hp : d.program = c.program) : bound (fresh.erase c.next) d < bound fresh c := by
  have hl := List.length_pos_of_mem hm
  rw [bound, bound, hp, List.length_erase_of_mem hm]
  have hs : fresh.length * (c.program.size + 1) =
      (fresh.length - 1) * (c.program.size + 1) + (c.program.size + 1) := by
    rw [← Nat.succ_mul]
    congr 1
    omega
  omega

theorem bound_range_lt (c : Cursor) (d : Nat) :
    bound (List.range c.program.size) c < (c.program.size + 1) * (c.program.size + 1) + d := by
  rw [bound, List.length_range, Nat.succ_mul]
  omega

theorem exists_succ_of_lt {m k : Nat} (h : m < k) : ∃ l, k = l + 1 ∧ m ≤ l :=
  ⟨k - 1, by omega, by omega⟩

theorem run_guarded {fresh : List Nat} {c : Cursor} {s : Store} {r : Stretch}
    (h : Cursor.Plays fresh c s r) {k : Nat} (hk : bound fresh c ≤ k) {cues : List Cue}
    {taken : List Nat} (hu : Untaken fresh ⟨cues, c, s, taken⟩) :
    (Course.mk cues c s taken).run true (k + 1) = some (r.after cues) := by
  induction h generalizing k cues taken with
  | ends hp =>
    apply run_stop
    simp only [step, hp, Stretch.after, List.append_nil]
  | waits hp hn =>
    apply run_stop
    simp only [step, hp, hn, Stretch.after]
  | leaves hp hn =>
    apply run_stop
    simp only [step, hp, hn, Stretch.after]
  | missing hp hn hf hj =>
    apply run_stop
    have ht := hu.taken_of_next hp
    simp only [step, hp, hn, ht, hf, hj, Stretch.after, not_true_eq_false, decide_false,
      Bool.and_false, Bool.false_eq_true, if_false]
  | again hp hn hf =>
    apply run_stop
    have ht := hu.taken_of_next hp
    simp only [step, hp, hn, ht, hf, Stretch.after, not_false_eq_true, decide_true,
      Bool.and_self, if_true]
  | @proceeds fresh c s a r hp hn hr ih =>
    obtain ⟨l, rfl, hl⟩ := exists_succ_of_lt (Nat.lt_of_lt_of_le (bound_reached hp) hk)
    have hs : (Course.mk cues c s taken).step true =
        .inr ⟨cues ++ a.cues s, c.reached, a.update s, taken⟩ := by
      simp only [step, hp, hn]
    rw [run_step hs, ih hl ⟨hu.nodup, hu.mem_iff⟩, Stretch.after_after]
  | @jumps fresh c s a target d r hp hn hf hj hr ih =>
    have hd := Cursor.program_jump hj
    obtain ⟨l, rfl, hl⟩ := exists_succ_of_lt (Nat.lt_of_lt_of_le (bound_jump hf hd) hk)
    have ht := hu.taken_of_next hp
    -- The jump is not among those taken, so the guard lets it pass, this once.
    have hs : (Course.mk cues c s taken).step true =
        .inr ⟨cues ++ a.cues s, d, a.update s, c.next :: taken⟩ := by
      simp only [step, hp, hn, ht, hf, hj, not_true_eq_false, decide_false, Bool.and_false,
        Bool.false_eq_true, if_false]
    rw [run_step hs, ih hl (hu.erase hd rfl), Stretch.after_after]

theorem step_unguarded (x : Course) : x.step false = x.step true ∨
    ∃ s label, x.step true = .inl s ∧ s.stop = .fails (.noProgress label) := by
  rw [step, step]
  cases hp : x.cursor.peek? with
  | none => exact .inl rfl
  | some a =>
    cases hn : a.next with
    | proceed => exact .inl (by simp only [hn])
    | wait phase => exact .inl (by simp only [hn])
    | leave change => exact .inl (by simp only [hn])
    | jump target =>
      simp only [hn]
      by_cases ht : x.taken.contains x.cursor.next = true
      · simp only [ht, Bool.and_self, if_true]
        exact .inr ⟨_, target, rfl, rfl⟩
      · left
        simp only [ht, Bool.and_false, Bool.false_eq_true, if_false]

theorem run_unguarded {k : Nat} {x : Course} {s : Stretch} (h : x.run true k = some s)
    (hs : ∀ label, s.stop ≠ .fails (.noProgress label)) : x.run false k = some s := by
  induction k generalizing x with
  | zero => cases h
  | succ k ih =>
    rcases step_unguarded x with he | ⟨t, label, ht, hl⟩
    · cases hx : x.step true with
      | inl t =>
        rw [run_stop hx] at h
        rw [run_stop (he.trans hx), h]
      | inr y =>
        rw [run_step hx] at h
        rw [run_step (he.trans hx), ih h]
    · rw [run_stop ht] at h
      cases h
      exact (hs label hl).elim

theorem step_of_leads {x : Course} {j : Nat} (h : x.cursor.program.Leads x.cursor.next j) :
    ∃ y, x.step false = .inr y ∧ y.cursor.program = x.cursor.program ∧ y.cursor.next = j := by
  obtain ⟨a, ha, hn⟩ := h.cases
  have hp : x.cursor.peek? = some a := ha
  rcases hn with ⟨hn, rfl⟩ | ⟨target, hn, hj⟩
  · simp only [step, hp, hn]
    exact ⟨_, rfl, rfl, rfl⟩
  · obtain ⟨d, hd⟩ := Cursor.exists_jump (c := x.cursor.reached) hj
    have hl := (Cursor.next_jump hd).symm.trans hj
    simp only [step, hp, hn, hd, Bool.false_and, Bool.false_eq_true, if_false]
    exact ⟨_, rfl, Cursor.program_jump hd, Option.some.inj hl⟩

theorem run_of_endless {k : Nat} {x : Course}
    (h : x.cursor.program.Endless x.cursor.next) : x.run false k = none := by
  induction k generalizing x with
  | zero => rfl
  | succ k ih =>
    obtain ⟨j, hj, he⟩ := h.step
    obtain ⟨y, hy, hp, hn⟩ := step_of_leads hj
    rw [run_step hy]
    apply ih
    rw [hp, hn]
    exact he

end Course

namespace Narrator

/-- A tick whose actions are taken one by one, as long as they come to a stop within the given
number. -/
def tickWithin (n : Narrator) (guarded : Bool) (k : Nat) (input : Option Input) :
    Option (Narrator × Except Fault Tick) :=
  match n.opening input with
  | .inl answer => some answer
  | .inr (m, due) => ((Course.mk [] m.cursor m.store []).run guarded k).map (m.settle due)

/-- The number of actions within which a guarded tick comes to a stop. -/
def reach (n : Narrator) : Nat :=
  (n.cursor.program.size + 1) * (n.cursor.program.size + 1)

theorem run_guarded_stretch (n : Narrator) (d : Nat) :
    (Course.mk [] n.cursor n.store []).run true (n.reach + d) = some n.stretch := by
  obtain ⟨l, he, hl⟩ := Course.exists_succ_of_lt (Course.bound_range_lt n.cursor d)
  rw [reach, he]
  apply Course.run_guarded n.plays_stretch hl
  refine ⟨List.nodup_range, ?_⟩
  intro i
  rw [List.mem_range]
  exact (and_iff_left List.not_mem_nil).symm

theorem endless_of_noProgress {n : Narrator} {label : String}
    (h : n.stretch.stop = .fails (.noProgress label)) :
    n.cursor.program.Endless n.cursor.next := by
  obtain ⟨i, _, _, hr, hl⟩ := n.plays_stretch.loop_of_noProgress (Cursor.tracked_range _) h
  exact ⟨i, hr, hl⟩

/-- A tick fails to make progress just when its actions never come to a stop without the guard,
which else makes no difference. -/
theorem tick_noProgress_exact (n : Narrator) (input : Option Input) :
    (∀ d, n.tickWithin true (n.reach + d) input = some (n.tick input)) ∧
      ((∃ label, (n.tick input).2 = .error (.noProgress label)) ↔
        ∀ k, n.tickWithin false k input = none) ∧
      ((∃ label, (n.tick input).2 = .error (.noProgress label)) ∨
        ∀ d, n.tickWithin false (n.reach + d) input = some (n.tick input)) := by
  have h := n.opens input
  cases ha : n.opening input with
  | inl answer =>
    rw [ha] at h
    have hs := h.ne_noProgress
    simp only [tickWithin, ha, tick_of_answer ha, hs, exists_const, reduceCtorEq, forall_const,
      or_true, and_self]
  | inr p =>
    obtain ⟨m, due⟩ := p
    have hr : n.reach = m.reach := by
      rw [ha] at h
      rw [reach, reach, h.program_eq]
    simp only [tickWithin, ha, tick_of_play ha, hr, settle_fails, run_guarded_stretch,
      Option.map_some, implies_true, true_and, Option.map_eq_none_iff]
    by_cases hs : ∃ label, m.stretch.stop = .fails (.noProgress label)
    · have he : m.cursor.program.Endless m.cursor.next := by
        obtain ⟨label, hl⟩ := hs
        exact endless_of_noProgress hl
      refine ⟨⟨?_, ?_⟩, .inl hs⟩
      · intro _ k
        exact Course.run_of_endless he
      · intro _
        exact hs
    · have hu (d : Nat) := Course.run_unguarded (m.run_guarded_stretch d) (not_exists.mp hs)
      refine ⟨⟨?_, ?_⟩, .inr ?_⟩
      · intro hl
        exact absurd hl hs
      · intro hk
        cases (hu 0).symm.trans (hk _)
      · intro d
        rw [hu d]
        rfl

end Narrator

end Dialogue
