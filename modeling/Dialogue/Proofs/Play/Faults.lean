import Dialogue.Proofs.Play.Calls
namespace Dialogue

/-- The inputs, or the lack of one, that do nothing in a phase. -/
def Phase.ignores : Phase → Option Input → Bool
  | .awaitingAdvance _, none => true
  | .awaitingAdvance false, some .revealFinished => true
  | .awaitingChoice _, none => true
  | .awaitingChoice _, some .advance => true
  | .awaitingChoice _, some .revealFinished => true
  | .finished, none => true
  | _, _ => false

namespace Fault

/-- Whether only the input was at fault, and not the script. -/
def isRefusal : Fault → Bool
  | .labelNotFound _ => false
  | .noProgress _ => false
  | .invalidChoice .. => true
  | .notChoosing _ => true
  | .notAtChoice _ => true
  | .scriptEnded => true

/-- A fault of the script ends it on the jump or the choice that names the label; any other changes
nothing. -/
def Explains (n : Narrator) (input : Option Input) (m : Narrator) : Fault → Prop
  | .labelNotFound label => m.phase = .finished ∧ (m.cursor.current? = some (.goto label) ∨
      ∃ index options o, input = some (.choose index) ∧
        m.cursor.current? = some (.choices options) ∧ options[index]? = some o ∧ o.target = label)
  | .noProgress label => m.phase = .finished ∧ m.cursor.current? = some (.goto label)
  | _ => m = n

end Fault

/-- A call with the narrator as it stood before, and the result if the call was a tick. -/
structure Event where
  before : Narrator
  call : Call
  result : Option (Except Fault Tick)

def Event.idle (e : Event) : Bool :=
  match e.call, e.result with
  | .tick _, some (.error fault) => fault.isRefusal
  | .tick input, some (.ok _) => e.before.phase.ignores input
  | _, _ => false

namespace Narrator

variable {n m : Narrator} {input : Option Input} {fault : Fault}

theorem option_of_target {index : Nat} {label : String} (h : n.target index = .ok label) :
    ∃ options o, n.cursor.current? = some (.choices options) ∧ options[index]? = some o ∧
      o.target = label := by
  rw [target] at h
  split at h
  · next options hc =>
    split at h
    · next o ho => exact ⟨options, o, hc, ho, Except.ok.inj h⟩
    · cases h
  · cases h

theorem current_of_noProgress {label : String} (h : n.stretch.stop = .fails (.noProgress label)) :
    n.stretch.cursor.current? = some (.goto label) := by
  obtain ⟨i, hi, ha, _⟩ := n.plays_stretch.loop_of_noProgress (Cursor.tracked_range _) h
  rw [Cursor.current?, hi, n.plays_stretch.program_eq]
  exact ha

theorem settle_of_fails {due : List Cue} {s : Stretch} (h : s.stop = .fails fault) :
    n.settle due s =
      ({ n with cursor := s.cursor, store := s.store, phase := .finished }, .error fault) := by
  rw [settle, h]

theorem Answers.explains {answer : Narrator × Except Fault Tick} (h : Answers n input answer)
    (hf : answer.2 = .error fault) : fault.Explains n input answer.1 := by
  cases h with
  | @lost count index label _ _ ht =>
    cases hf
    obtain ⟨options, o, hc, ho, hl⟩ := option_of_target ht
    exact ⟨rfl, .inr ⟨index, options, o, rfl, hc, ho, hl⟩⟩
  | astray _ _ ht =>
    obtain ⟨kind, rfl⟩ := notAtChoice_of_target ht
    cases hf
    rfl
  | ended | badIndex | notChoosing =>
    cases hf
    rfl
  | stopped | waits | repeated | ignored | clicked | shown => cases hf

theorem explains_of_fault (h : (n.tick input).2 = .error fault) :
    fault.Explains n input (n.tick input).1 := by
  rcases n.tick_cases input with ha | ⟨m, due, _, he⟩
  · exact ha.explains h
  · rw [he, settle_fails] at h
    rw [he, settle_of_fails h]
    rcases m.plays_stretch.fault_cases h with ⟨label, rfl⟩ | ⟨label, rfl⟩
    · exact ⟨rfl, .inl (m.plays_stretch.current_of_labelNotFound h).1⟩
    · exact ⟨rfl, current_of_noProgress h⟩

theorem tick_of_fault (h : (n.tick input).2 = .error fault) :
    (n.tick input).1 = n ∨ (n.tick input).1.phase = .finished := by
  have he := explains_of_fault h
  cases fault with
  | labelNotFound | noProgress => exact .inr he.1
  | _ => exact .inl he

theorem tick_of_refused (h : (n.tick input).2 = .error fault) (hf : fault.isRefusal = true) :
    (n.tick input).1 = n := by
  have he := explains_of_fault h
  cases fault with
  | labelNotFound | noProgress => cases hf
  | _ => exact he

theorem tick_of_ignores (h : n.phase.ignores input = true) :
    n.tick input = (n, .ok ⟨[], n.phase, none⟩) := by
  obtain ⟨c, s, phase, auto⟩ := n
  cases phase with
  | idle | running => cases h
  | awaitingAdvance revealing =>
    rcases input with _ | _ | _ | _
    · rfl
    · cases h
    · cases revealing with
      | true => cases h
      | false => rfl
    · cases h
  | awaitingChoice count =>
    rcases input with _ | _ | _ | _
    · rfl
    · rfl
    · rfl
    · cases h
  | finished =>
    cases input with
    | none => rfl
    | some i => cases h

def answer? (n : Narrator) : Call → Option (Except Fault Tick)
  | .tick input => some (n.tick input).2
  | .reset _ => none

def events (n : Narrator) : List Call → List Event
  | [] => []
  | call :: calls => ⟨n, call, n.answer? call⟩ :: (n.obey call).events calls

theorem obey_of_idle {call : Call} (h : (Event.mk n call (n.answer? call)).idle = true) :
    n.obey call = n := by
  cases call with
  | reset p => cases h
  | tick input =>
    rw [obey]
    cases ht : (n.tick input).2 with
    | error fault =>
      simp only [Event.idle, answer?, ht] at h
      exact tick_of_refused ht h
    | ok t =>
      simp only [Event.idle, answer?, ht] at h
      rw [tick_of_ignores h]

theorem events_of_effective (n : Narrator) (calls : List Call) :
    let effective := (n.events calls).filter fun e => !e.idle
    n.events (effective.map Event.call) = effective ∧
      n.follow (effective.map Event.call) = n.follow calls := by
  induction calls generalizing n with
  | nil => exact ⟨rfl, rfl⟩
  | cons call calls ih =>
    obtain ⟨he, hf⟩ := ih (n.obey call)
    rw [events, List.filter_cons]
    cases hi : (Event.mk n call (n.answer? call)).idle with
    | true =>
      rw [obey_of_idle hi] at he hf ⊢
      refine ⟨he, hf.trans ?_⟩
      rw [follow, follow, List.foldl_cons, obey_of_idle hi]
    | false =>
      simp only [Bool.not_false, if_true, List.map_cons, events, he, true_and]
      exact hf

/-- Ticks that are refused or ignored can be left out of a run, and all else stays as it was. -/
theorem idle_ticks_erased (n : Narrator) :
    (∀ input fault, (n.tick input).2 = .error fault →
        fault.Explains n input (n.tick input).1) ∧
      (∀ input, n.phase.ignores input = true → n.tick input = (n, .ok ⟨[], n.phase, none⟩)) ∧
      ∀ calls, let effective := (n.events calls).filter fun e => !e.idle
        n.events (effective.map Event.call) = effective ∧
          n.follow (effective.map Event.call) = n.follow calls := by
  refine ⟨?_, ?_, n.events_of_effective⟩
  · intro input fault h
    exact explains_of_fault h
  · intro input h
    exact tick_of_ignores h

end Narrator

end Dialogue
