import Dialogue.Proofs.Play.Calls
import Dialogue.Proofs.Stage.Shift
import Dialogue.Stage.Console
import Dialogue.Stage.Stage
namespace Dialogue

inductive Instruction where
  | start
  | update (dt : Float32)
  | advance
  | choose (index : Nat)
  | skip
  | takeChange
  | reload (program : Program)

/-- What a stage answers: how far the script has come, or a scene change that is handed over. -/
inductive Reply where
  | phase (result : Except Fault Phase)
  | change (change : Option SceneChange)

/-- What there is to see of a stage after an instruction, with the answer to it and with what the
screen was told meanwhile. -/
structure View where
  reply : Reply
  told : List ScreenCue
  store : Store
  roster : List String
  figures : List Figure

def Cue.receiver : Cue → ScreenCue ⊕ Order
  | .showText content => .inl (.revealText content)
  | .completeReveal => .inl .completeReveal
  | .showSpeaker name => .inl (.showSpeaker name)
  | .presentChoices choices => .inl (.presentChoices (choices.map Choice.text))
  | .clearChoices => .inl .clearChoices
  | .showBackground file => .inl (.showBackground file)
  | .spawnActor actor image entrance => .inr (.spawn actor image entrance)
  | .despawnActor actor exit => .inr (.despawn actor exit)
  | .playGesture actor gesture => .inr (.gesture actor gesture)
  | .changeExpression actor image => .inr (.expression actor image)

namespace Stage

section

variable {σ : Type} [Screen σ]

def carryOut (s : Stage σ) : Instruction → Stage σ × Reply
  | .start => s.start.map id .phase
  | .update dt => (s.update dt).map id .phase
  | .advance => s.advance.map id .phase
  | .choose index => (s.choose index).map id .phase
  | .skip => s.skip.map id .phase
  | .takeChange => (s.takeChange.2, .change s.takeChange.1)
  | .reload p => (s.reload p).map id .phase

def follow (s : Stage σ) (instructions : List Instruction) : Stage σ :=
  instructions.foldl (fun s i => (s.carryOut i).1) s

theorem perform_eq (s : Stage σ) (c : Cue) : s.perform c = match c.receiver with
    | .inl x => { s with screen := Screen.perform s.screen x }
    | .inr o => { s with director := (s.director.obey o).1 } := by
  cases c <;> rfl

theorem narrator_perform (s : Stage σ) (cues : List Cue) :
    (cues.foldl perform s).narrator = s.narrator := by
  induction cues generalizing s with
  | nil => rfl
  | cons c cues ih =>
    rw [List.foldl_cons, ih, perform_eq]
    cases c.receiver <;> rfl

def unheard (s : Stage (Recorded σ)) : Stage (Recorded σ) :=
  { s with screen := { s.screen with cues := [] } }

def views (s : Stage (Recorded σ)) : List Instruction → List View
  | [] => []
  | i :: r =>
    let (s, reply) := s.unheard.carryOut i
    ⟨reply, s.screen.cues, s.narrator.store, s.director.roster, s.director.figures⟩ :: s.views r

end

theorem speed_perform (c : Console) (x : ScreenCue) :
    (c.perform x).typewriter.charsPerSecond = c.typewriter.charsPerSecond := by
  cases x with
  | revealText content =>
    simp only [Console.perform, Typewriter.start]
    split <;> rfl
  | _ => rfl

theorem speed_update (c : Console) (dt : Float32) :
    (c.update dt).typewriter.charsPerSecond = c.typewriter.charsPerSecond := by
  simp only [Console.update, Typewriter.update]
  split <;> rfl

/-- The stage goes by the given pictures and settings. -/
structure Configured (catalog : Catalog) (settings : StageSettings)
    (s : Stage (Recorded Console)) : Prop where
  director : s.director.Equipped catalog settings
  autoAdvance : s.narrator.autoAdvance = settings.autoAdvance
  speed : s.screen.screen.typewriter.charsPerSecond = settings.charsPerSecond

namespace Configured

variable {catalog : Catalog} {settings : StageSettings} {s : Stage (Recorded Console)}

theorem build (p : Program) (store : Store) (catalog : Catalog) (settings : StageSettings) :
    Configured catalog settings
      (.build p store ⟨.start settings.charsPerSecond, []⟩ catalog settings) :=
  ⟨.start catalog settings, rfl, rfl⟩

theorem perform (h : Configured catalog settings s) (c : Cue) :
    Configured catalog settings (s.perform c) := by
  rw [perform_eq]
  cases c.receiver with
  | inl x => exact ⟨h.director, h.autoAdvance, (speed_perform s.screen.screen x).trans h.speed⟩
  | inr o => exact ⟨h.director.obey o, h.autoAdvance, h.speed⟩

theorem performAll (h : Configured catalog settings s) (cues : List Cue) :
    Configured catalog settings (cues.foldl Stage.perform s) := by
  induction cues generalizing s with
  | nil => exact h
  | cons c cues ih => exact ih (h.perform c)

theorem tick (h : Configured catalog settings s) (input : Option Input) :
    Configured catalog settings (s.tick input).1 := by
  have ha := (s.narrator.autoAdvance_obey (.tick input)).trans h.autoAdvance
  rw [Narrator.obey] at ha
  rw [Stage.tick]
  rcases hn : s.narrator.tick input with ⟨narrator, fault | t⟩ <;> rw [hn] at ha
  · exact ⟨h.director, ha, h.speed⟩
  · have ht := performAll (s := { s with narrator := narrator }) ⟨h.director, ha, h.speed⟩ t.cues
    exact ⟨ht.director, ht.autoAdvance, ht.speed⟩

theorem sync (h : Configured catalog settings s) : Configured catalog settings s.sync.1 := by
  rw [Stage.sync]
  split
  · exact h.tick _
  · exact h

theorem carryOut (h : Configured catalog settings s) (i : Instruction) :
    Configured catalog settings (s.carryOut i).1 := by
  cases i with
  | start => exact h.tick none
  | update dt =>
    apply sync
    exact ⟨h.director.update dt, h.autoAdvance, (speed_update s.screen.screen dt).trans h.speed⟩
  | advance => exact h.tick _
  | choose index => exact h.tick _
  | skip =>
    apply sync
    exact ⟨h.director.completeAll, h.autoAdvance,
      (speed_perform s.screen.screen .completeReveal).trans h.speed⟩
  | takeChange => exact ⟨h.director, h.autoAdvance, h.speed⟩
  | reload p =>
    apply tick
    exact ⟨h.director.clear, h.autoAdvance,
      (speed_perform s.screen.screen .clearChoices).trans h.speed⟩

theorem follow (h : Configured catalog settings s) (instructions : List Instruction) :
    Configured catalog settings (s.follow instructions) := by
  induction instructions generalizing s with
  | nil => exact h
  | cons i rest ih => exact ih (h.carryOut i)

end Configured

end Stage

end Dialogue
