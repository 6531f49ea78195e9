import Dialogue.Play.Narrator
import Mathlib.Logic.Relation
namespace Dialogue

open Relation

namespace Action

theorem next_eq_jump_iff {a : Action} {target : String} :
    a.next = .jump target ↔ a = .goto target := by
  cases a with
  | goto t => simp [next]
  | choices options =>
    rw [next]
    split <;> simp
  | _ => simp [next]

theorem eq_of_next_wait {a : Action} {phase : Phase} (h : a.next = .wait phase) :
    ((∃ content, a = .message content) ∧ phase = .awaitingAdvance true) ∨
      ∃ options, a = .choices options ∧ options ≠ [] ∧ phase = .awaitingChoice options.length := by
  cases a with
  | message content => exact .inl ⟨⟨content, rfl⟩, (Next.wait.inj h).symm⟩
  | choices options =>
    rw [next] at h
    split at h
    · cases h
    · next ho => exact .inr ⟨options, rfl, ho, (Next.wait.inj h).symm⟩
  | _ => cases h

end Action

namespace Program

/-- The index at which a script goes on behind an action without a wait; there is none where it
waits, leaves, ends or fails. -/
def follow? (p : Program) (i : Nat) : Option Nat :=
  match (p.action? i).map Action.next with
  | some .proceed => some (i + 1)
  | some (.jump target) => p.label? target
  | _ => none

def Leads (p : Program) (i j : Nat) : Prop :=
  p.follow? i = some j

/-- An action that playing on comes back to without a wait. -/
def OnLoop (p : Program) (i : Nat) : Prop :=
  TransGen p.Leads i i

/-- Playing on from here comes into a loop without a wait. -/
def Endless (p : Program) (i : Nat) : Prop :=
  ∃ j, ReflTransGen p.Leads i j ∧ p.OnLoop j

variable {p : Program} {i j k : Nat}

theorem Leads.unique (hj : p.Leads i j) (hk : p.Leads i k) : j = k :=
  Option.some.inj (hj.symm.trans hk)

theorem leads_of_proceed {a : Action} (ha : p.action? i = some a) (hn : a.next = .proceed) :
    p.Leads i (i + 1) := by
  simp only [Leads, follow?, ha, Option.map_some, hn]

theorem leads_of_jump {a : Action} {target : String} (ha : p.action? i = some a)
    (hn : a.next = .jump target) (hj : p.label? target = some j) : p.Leads i j := by
  simp only [Leads, follow?, ha, Option.map_some, hn, hj]

theorem Leads.cases (h : p.Leads i j) : ∃ a, p.action? i = some a ∧
    ((a.next = .proceed ∧ j = i + 1) ∨
      ∃ target, a.next = .jump target ∧ p.label? target = some j) := by
  rw [Leads, follow?] at h
  cases ha : p.action? i with
  | none => simp [ha] at h
  | some a =>
    refine ⟨a, rfl, ?_⟩
    simp only [ha, Option.map_some] at h
    cases hn : a.next with
    | proceed => simp only [hn, Option.some.injEq] at h; exact .inl ⟨rfl, h.symm⟩
    | jump target => simp only [hn] at h; exact .inr ⟨target, rfl, h⟩
    | wait phase => simp [hn] at h
    | leave change => simp [hn] at h

theorem OnLoop.step (h : p.OnLoop i) (hj : p.Leads i j) : p.OnLoop j := by
  obtain ⟨k, hk, hr⟩ := TransGen.head'_iff.mp h
  obtain rfl := hj.unique hk
  exact TransGen.tail' hr hj

theorem OnLoop.endless (h : p.OnLoop i) : p.Endless i :=
  ⟨i, .refl, h⟩

theorem Endless.step (h : p.Endless i) : ∃ j, p.Leads i j ∧ p.Endless j := by
  obtain ⟨k, hr, hk⟩ := h
  rcases hr.cases_head with rfl | ⟨j, hj, hr⟩
  · obtain ⟨j, hj, _⟩ := TransGen.head'_iff.mp hk
    exact ⟨j, hj, (hk.step hj).endless⟩
  · exact ⟨j, hj, k, hr, hk⟩

end Program

namespace Cursor

def reached (c : Cursor) : Cursor :=
  { c with position := some c.next }

@[simp] theorem program_reached (c : Cursor) : c.reached.program = c.program := rfl

@[simp] theorem next_reached (c : Cursor) : c.reached.next = c.next + 1 := rfl

theorem exists_jump {c : Cursor} {label : String} {i : Nat}
    (h : c.program.label? label = some i) : ∃ d, c.jump? label = some d := by
  rw [jump?, h]
  exact ⟨_, rfl⟩

/-- What playing on can come to, one rule for each way in which it stops or takes an action. -/
inductive Plays : List Nat → Cursor → Store → Stretch → Prop
  | ends {fresh c s} (hp : c.peek? = none) : Plays fresh c s ⟨[], c, s, .ends⟩
  | waits {fresh c s a phase} (hp : c.peek? = some a) (hn : a.next = .wait phase) :
      Plays fresh c s ⟨a.cues s, c.reached, a.update s, .waits phase⟩
  | leaves {fresh c s a change} (hp : c.peek? = some a) (hn : a.next = .leave change) :
      Plays fresh c s ⟨a.cues s, c.reached, a.update s, .leaves change⟩
  | missing {fresh c s a target} (hp : c.peek? = some a) (hn : a.next = .jump target)
      (hf : c.next ∈ fresh) (hj : c.reached.jump? target = none) :
      Plays fresh c s ⟨a.cues s, c.reached, a.update s, .fails (.labelNotFound target)⟩
  | again {fresh c s a target} (hp : c.peek? = some a) (hn : a.next = .jump target)
      (hf : c.next ∉ fresh) :
      Plays fresh c s ⟨a.cues s, c.reached, a.update s, .fails (.noProgress target)⟩
  | proceeds {fresh c s a r} (hp : c.peek? = some a) (hn : a.next = .proceed)
      (hr : Plays fresh c.reached (a.update s) r) : Plays fresh c s (r.after (a.cues s))
  | jumps {fresh c s a target d r} (hp : c.peek? = some a) (hn : a.next = .jump target)
      (hf : c.next ∈ fresh) (hj : c.reached.jump? target = some d)
      (hr : Plays (fresh.erase c.next) d (a.update s) r) : Plays fresh c s (r.after (a.cues s))

theorem play_end {fresh : List Nat} {c : Cursor} {s : Store} (hp : c.peek? = none) :
    c.play fresh s = ⟨[], c, s, .ends⟩ := by
  rw [play]
  split
  · rfl
  · next ha => cases hp.symm.trans ha

theorem play_some {fresh : List Nat} {c : Cursor} {s : Store} {a : Action}
    (hp : c.peek? = some a) : c.play fresh s =
      match a.next with
      | .proceed => (c.reached.play fresh (a.update s)).after (a.cues s)
      | .wait phase => ⟨a.cues s, c.reached, a.update s, .waits phase⟩
      | .leave change => ⟨a.cues s, c.reached, a.update s, .leaves change⟩
      | .jump target =>
        if c.next ∈ fresh then
          match c.reached.jump? target with
          | some d => (d.play (fresh.erase c.next) (a.update s)).after (a.cues s)
          | none => ⟨a.cues s, c.reached, a.update s, .fails (.labelNotFound target)⟩
        else ⟨a.cues s, c.reached, a.update s, .fails (.noProgress target)⟩ := by
  rw [play]
  split
  · next hn => cases hp.symm.trans hn
  · next b hb =>
    cases hp.symm.trans hb
    rfl

theorem plays (fresh : List Nat) (c : Cursor) (s : Store) :
    Plays fresh c s (c.play fresh s) := by
  induction fresh, c, s using play.induct with
  | case1 fresh c s hp =>
    rw [play_end hp]
    exact .ends hp
  | case2 fresh c s a hp here t hn ih =>
    simp only [play_some hp, hn]
    exact .proceeds hp hn ih
  | case3 fresh c s a hp phase hn =>
    simp only [play_some hp, hn]
    exact .waits hp hn
  | case4 fresh c s a hp change hn =>
    simp only [play_some hp, hn]
    exact .leaves hp hn
  | case5 fresh c s a hp here t target hn hf there hj ih =>
    have hj' : c.reached.jump? target = some there := hj
    simp only [play_some hp, hn, if_pos hf, hj']
    exact .jumps hp hn hf hj' ih
  | case6 fresh c s a hp here target hn hf hj =>
    have hj' : c.reached.jump? target = none := hj
    simp only [play_some hp, hn, if_pos hf, hj']
    exact .missing hp hn hf hj'
  | case7 fresh c s a hp target hn hf =>
    simp only [play_some hp, hn, if_neg hf]
    exact .again hp hn hf

variable {fresh : List Nat} {c d : Cursor} {s : Store} {a : Action} {r : Stretch}

theorem Plays.play_eq (h : Plays fresh c s r) : c.play fresh s = r := by
  induction h with
  | ends hp => exact play_end hp
  | waits hp hn | leaves hp hn => simp only [play_some hp, hn]
  | missing hp hn hf hj => simp only [play_some hp, hn, if_pos hf, hj]
  | again hp hn hf => simp only [play_some hp, hn, if_neg hf]
  | proceeds hp hn _ ih => simp only [play_some hp, hn, ih]
  | jumps hp hn hf hj _ ih => simp only [play_some hp, hn, if_pos hf, hj, ih]

theorem leads_reached (hp : c.peek? = some a) (hn : a.next = .proceed) :
    c.program.Leads c.next c.reached.next :=
  Program.leads_of_proceed hp hn

theorem leads_jump {target : String} (hp : c.peek? = some a) (hn : a.next = .jump target)
    (hj : c.reached.jump? target = some d) : c.program.Leads c.next d.next :=
  Program.leads_of_jump hp hn (next_jump hj)

theorem Plays.program_eq (h : Plays fresh c s r) : r.cursor.program = c.program := by
  induction h with
  | ends => rfl
  | waits => rfl
  | leaves => rfl
  | missing => rfl
  | again => rfl
  | proceeds _ _ _ ih => exact ih
  | jumps _ _ _ hj _ ih => exact ih.trans (program_jump hj)

theorem Plays.fault_cases {fault : Fault} (h : Plays fresh c s r) (hs : r.stop = .fails fault) :
    (∃ label, fault = .labelNotFound label) ∨ ∃ label, fault = .noProgress label := by
  induction h with
  | missing =>
    cases hs
    exact .inl ⟨_, rfl⟩
  | again =>
    cases hs
    exact .inr ⟨_, rfl⟩
  | ends | waits | leaves => cases hs
  | proceeds _ _ _ ih => exact ih hs
  | jumps _ _ _ _ _ ih => exact ih hs

theorem Plays.current_of_waits {phase : Phase} (h : Plays fresh c s r)
    (hs : r.stop = .waits phase) : ∃ a, r.cursor.current? = some a ∧ a.next = .wait phase := by
  induction h with
  | waits hp hn =>
    cases hs
    exact ⟨_, hp, hn⟩
  | ends | leaves | missing | again => cases hs
  | proceeds _ _ _ ih => exact ih hs
  | jumps _ _ _ _ _ ih => exact ih hs

theorem Plays.current_of_labelNotFound {label : String} (h : Plays fresh c s r)
    (hs : r.stop = .fails (.labelNotFound label)) :
    r.cursor.current? = some (.goto label) ∧ r.cursor.program.label? label = none := by
  induction h with
  | missing hp hn hf hj =>
    cases hs
    rw [Action.next_eq_jump_iff] at hn
    subst hn
    exact ⟨hp, Option.map_eq_none_iff.mp hj⟩
  | ends | waits | leaves | again => cases hs
  | proceeds _ _ _ ih => exact ih hs
  | jumps _ _ _ _ _ ih => exact ih hs

/-- The jumps that are not fresh are those that have led to the place of the cursor. -/
def Tracked (fresh : List Nat) (c : Cursor) : Prop :=
  ∀ i, i ∉ fresh → i < c.program.size → TransGen c.program.Leads i c.next

theorem tracked_range (c : Cursor) : Tracked (List.range c.program.size) c := by
  intro i hi hlt
  exact absurd (List.mem_range.mpr hlt) hi

theorem Tracked.reached (h : Tracked fresh c) (hp : c.peek? = some a) (hn : a.next = .proceed) :
    Tracked fresh c.reached := by
  intro i hi hlt
  exact (h i hi hlt).tail (leads_reached hp hn)

theorem Tracked.jump {target : String} (h : Tracked fresh c) (hp : c.peek? = some a)
    (hn : a.next = .jump target) (hj : c.reached.jump? target = some d) :
    Tracked (fresh.erase c.next) d := by
  have hl := leads_jump hp hn hj
  have hd : d.program = c.program := program_jump hj
  intro i hi hlt
  rw [hd] at hlt ⊢
  by_cases he : i = c.next
  · rw [he]
    exact .single hl
  · have hf : i ∉ fresh := by
      intro hm
      exact hi ((List.mem_erase_of_ne he).mpr hm)
    exact (h i hf hlt).tail hl

theorem Plays.loop_of_noProgress {label : String} (h : Plays fresh c s r) (ht : Tracked fresh c)
    (hs : r.stop = .fails (.noProgress label)) :
    ∃ i, r.cursor.position = some i ∧ c.program.action? i = some (.goto label) ∧
      ReflTransGen c.program.Leads c.next i ∧ c.program.OnLoop i := by
  induction h with
  | again hp hn hf =>
    cases hs
    rw [Action.next_eq_jump_iff] at hn
    subst hn
    exact ⟨_, rfl, hp, .refl, ht _ hf (next_lt_of_peek? hp)⟩
  | ends | waits | leaves | missing => cases hs
  | proceeds hp hn _ ih =>
    obtain ⟨i, hi, ha, hr, hl⟩ := ih (ht.reached hp hn) hs
    exact ⟨i, hi, ha, .head (leads_reached hp hn) hr, hl⟩
  | jumps hp hn _ hj _ ih =>
    obtain ⟨i, hi, ha, hr, hl⟩ := ih (ht.jump hp hn hj) hs
    have hd := program_jump hj
    rw [hd] at ha hr hl
    exact ⟨i, hi, ha, .head (leads_jump hp hn hj) hr, hl⟩

end Cursor

end Dialogue
