import Dialogue.Proofs.Stage.Agreement
namespace Dialogue

namespace Stage

variable {σ : Type} [Screen σ]

/-- What an instruction does to the stage before the narrator is let go on. -/
def prepare (s : Stage σ) : Instruction → Stage σ
  | .update dt =>
    { s with screen := Screen.update s.screen dt, director := s.director.update dt }
  | .skip => s.shownInFull
  | .takeChange => { s with change := none }
  | .reload p =>
    { narrator := s.narrator.reset p
      director := s.director.clear
      screen := Screen.perform s.screen .clearChoices
      change := none }
  | .start | .advance | .choose _ => s

/-- The narrator is told when the text it waits for is shown in full. -/
def notice (s : Stage σ) : Option Input :=
  if s.narrator.phase = .awaitingAdvance true ∧ Screen.isRevealed s.screen then
    some .revealFinished
  else none

/-- With what input an instruction lets the narrator go on, if it does so. -/
def prompt (s : Stage σ) : Instruction → Option (Option Input)
  | .start | .reload _ => some none
  | .advance => some (some .advance)
  | .choose index => some (some (.choose index))
  | .update _ | .skip => s.notice.map some
  | .takeChange => none

def unprompted (s : Stage σ) : Instruction → Reply
  | .takeChange => .change s.change
  | _ => .phase (.ok s.narrator.phase)

theorem sync_eq (s : Stage σ) :
    s.sync = match s.notice with
      | some input => s.tick (some input)
      | none => (s, .ok s.narrator.phase) := by
  rw [sync, notice]
  split <;> rfl

/-- To carry out an instruction is to prepare the stage, and to let the narrator go on at most
once. -/
theorem carryOut_eq (s : Stage σ) (i : Instruction) :
    s.carryOut i = match (s.prepare i).prompt i with
      | some input => ((s.prepare i).tick input).map id .phase
      | none => (s.prepare i, s.unprompted i) := by
  cases i with
  | start | advance | choose | takeChange | reload => rfl
  | update dt =>
    have hc : s.carryOut (.update dt) = (s.prepare (.update dt)).sync.map id .phase := rfl
    rw [hc, sync_eq, prompt]
    cases (s.prepare (.update dt)).notice <;> rfl
  | skip =>
    have hc : s.carryOut .skip = (s.prepare .skip).sync.map id .phase := rfl
    rw [hc, sync_eq, prompt]
    cases (s.prepare .skip).notice <;> rfl

def hear (screen : σ) (c : Cue) : σ :=
  match c.receiver with
  | .inl x => Screen.perform screen x
  | .inr _ => screen

theorem screen_performAll (s : Stage σ) (cues : List Cue) :
    (cues.foldl perform s).screen = cues.foldl hear s.screen := by
  induction cues generalizing s with
  | nil => rfl
  | cons c cues ih =>
    have hc : (s.perform c).screen = hear s.screen c := by
      rw [perform_eq, hear]
      cases c.receiver <;> rfl
    rw [List.foldl_cons, List.foldl_cons, ih, hc]

theorem screen_react (s : Stage σ) (n : Narrator) (t : Tick) :
    (s.react (n, .ok t)).1.screen = t.cues.foldl hear s.screen :=
  screen_performAll { s with narrator := n } t.cues

theorem narrator_react (s : Stage σ) (x : Narrator × Except Fault Tick) :
    (s.react x).1.narrator = x.1 := by
  rcases x with ⟨n, fault | t⟩
  · rfl
  · exact narrator_perform { s with narrator := n } t.cues

def heard (s : Stage σ) (i : Instruction) : List Cue :=
  match (s.prepare i).prompt i with
  | some input =>
    match ((s.prepare i).narrator.tick input).2 with
    | .ok t => t.cues
    | .error _ => []
  | none => []

end Stage

end Dialogue
