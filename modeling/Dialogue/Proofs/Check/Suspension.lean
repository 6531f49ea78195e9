import Dialogue.Proofs.Check.Walk
namespace Dialogue

/-- What a walk in search of silent loops does at an action. -/
inductive Passage where
  | halt
  | turn (target : String)
  | goOn
deriving DecidableEq, Repr

def Action.passage : Action → Passage
  | .message _ => .halt
  | .scene .. => .halt
  | .choices (_ :: _) => .halt
  | .goto target => .turn target
  | _ => .goOn

namespace Execution

def stops (x : Execution) : Bool :=
  x.wait.isSome || x.change.isSome

/-- How many of the three ways in which an action can direct the script it takes. -/
def directions (x : Execution) : Nat :=
  [x.wait.isSome, x.jump.isSome, x.change.isSome].count true

end Execution

namespace Action

/-- What comes of an action is what the narrator acts on, piece by piece. -/
theorem execute_eq (a : Action) (s : Store) :
    a.execute s =
      match a.next with
      | .proceed => { cues := a.cues s, store := a.update s }
      | .wait phase => { cues := a.cues s, store := a.update s, wait := some phase }
      | .jump target => { cues := a.cues s, store := a.update s, jump := some target }
      | .leave change => { cues := a.cues s, store := a.update s, change := some change } := by
  cases a with
  | choices options => cases options <;> rfl
  | _ => rfl

theorem passage_eq (a : Action) :
    a.passage =
      match a.next with
      | .proceed => .goOn
      | .jump target => .turn target
      | _ => .halt := by
  cases a with
  | choices options => cases options <;> rfl
  | _ => rfl

theorem directions_execute_le (a : Action) (s : Store) : (a.execute s).directions ≤ 1 := by
  rw [execute_eq]
  cases a.next <;> simp [Execution.directions]

theorem passage_eq_halt_iff (a : Action) (s : Store) :
    a.passage = .halt ↔ (a.execute s).stops = true := by
  rw [execute_eq, passage_eq]
  cases a.next <;> simp [Execution.stops]

theorem passage_eq_turn_iff (a : Action) (s : Store) (target : String) :
    a.passage = .turn target ↔ (a.execute s).jump = some target := by
  rw [execute_eq, passage_eq]
  cases a.next <;> simp

theorem waits_iff (a : Action) (s : Store) :
    a.waits = true ↔ (a.execute s).wait.isSome = true ∨ a = .choices [] := by
  cases a with
  | choices options => cases options <;> simp [waits, execute]
  | _ => simp [waits, execute]

end Action

namespace Program.Walk

def pass (p : Program) (home : Nat) (met : List Nat) (i : Nat) : Passage → Bool ⊕ Walk
  | .halt => .inl false
  | .turn target =>
    if i = home then .inl true
    else if i ∈ met then .inl false
    else .inr ⟨i :: met, p.label? target⟩
  | .goOn => .inr ⟨met, some (i + 1)⟩

theorem step_eq_pass {p : Program} {i : Nat} {a : Action} (ha : p.action? i = some a) (home : Nat)
    (met : List Nat) : step p home ⟨met, some i⟩ = pass p home met i a.passage := by
  rw [step_of_action rfl ha, Action.passage_eq]
  cases a.next <;> rfl

end Program.Walk

namespace Action

/-- Where a script stops is said alike three times, but for choices without options, which are said
to wait. -/
theorem suspensions_agree (a : Action) (s : Store) :
    (a.waits = true ↔ (a.execute s).wait.isSome = true ∨ a = .choices []) ∧
      (∀ (p : Program) (i : Nat),
        (∀ target d, p.action? i = some (.goto target) →
          (Program.Walk.start p i target).run p i ((p.size + 1) * (p.size + 1) + d) =
            some (decide ((i, target) ∈ p.silentLoops))) ∧
        (p.action? i = some a → ∀ home met,
          Program.Walk.step p home ⟨met, some i⟩ = Program.Walk.pass p home met i a.passage)) ∧
      (a.passage = .halt ↔ (a.execute s).stops = true) ∧
      (∀ target, a.passage = .turn target ↔ (a.execute s).jump = some target) ∧
      (a.passage = .goOn ↔ (a.execute s).directions = 0) ∧
      (a.execute s).directions ≤ 1 := by
  refine ⟨a.waits_iff s, fun p i => ⟨?_, ?_⟩, a.passage_eq_halt_iff s, a.passage_eq_turn_iff s, ?_,
    a.directions_execute_le s⟩
  · intro target d hi
    exact Program.run_walk hi d
  · intro ha home met
    exact Program.Walk.step_eq_pass ha home met
  · rw [execute_eq, passage_eq]
    cases a.next <;> simp [Execution.directions]

/-- Choices without an option are said to wait, and yet they are passed over. -/
theorem suspensions_differ :
    ¬ ((choices []).waits = true ↔ ((choices []).execute .empty).wait.isSome = true) := by
  decide

end Action

end Dialogue
