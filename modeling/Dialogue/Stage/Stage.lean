import Dialogue.Play.Narrator
import Dialogue.Stage.Director
import Dialogue.Stage.Screen
namespace Dialogue

structure Stage (σ : Type) where
  narrator : Narrator
  director : Director
  screen : σ
  /-- A scene change that has not been taken up. -/
  change : Option SceneChange

namespace Stage

variable {σ : Type} [Screen σ]

omit [Screen σ] in
def build (p : Program) (s : Store) (screen : σ) (catalog : Catalog) (settings : StageSettings) :
    Stage σ :=
  ⟨.start p s settings.autoAdvance, .start catalog settings, screen, none⟩

def perform (s : Stage σ) : Cue → Stage σ
  | .showText content => { s with screen := Screen.perform s.screen (.revealText content) }
  | .completeReveal => { s with screen := Screen.perform s.screen .completeReveal }
  | .showSpeaker name => { s with screen := Screen.perform s.screen (.showSpeaker name) }
  | .presentChoices choices =>
    { s with screen := Screen.perform s.screen (.presentChoices (choices.map Choice.text)) }
  | .clearChoices => { s with screen := Screen.perform s.screen .clearChoices }
  | .showBackground file => { s with screen := Screen.perform s.screen (.showBackground file) }
  | .spawnActor actor image entrance =>
    { s with director := (s.director.spawn actor image entrance).1 }
  | .despawnActor actor exit => { s with director := (s.director.despawn actor exit).1 }
  | .playGesture actor gesture => { s with director := (s.director.gesture actor gesture).1 }
  | .changeExpression actor image => { s with director := (s.director.expression actor image).1 }

def tick (s : Stage σ) (input : Option Input) : Stage σ × Except Fault Phase :=
  match s.narrator.tick input with
  | (narrator, .error fault) => ({ s with narrator := narrator }, .error fault)
  | (narrator, .ok tick) =>
    let s := tick.cues.foldl perform { s with narrator := narrator }
    ({ s with change := tick.change.or s.change }, .ok tick.phase)

def start (s : Stage σ) : Stage σ × Except Fault Phase :=
  s.tick none

/-- Tells the narrator when the text it waits for is shown in full. -/
def sync (s : Stage σ) : Stage σ × Except Fault Phase :=
  if s.narrator.phase = .awaitingAdvance true ∧ Screen.isRevealed s.screen then
    s.tick (some .revealFinished)
  else (s, .ok s.narrator.phase)

def update (s : Stage σ) (dt : Float32) : Stage σ × Except Fault Phase :=
  { s with screen := Screen.update s.screen dt, director := s.director.update dt }.sync

def advance (s : Stage σ) : Stage σ × Except Fault Phase :=
  s.tick (some .advance)

def choose (s : Stage σ) (index : Nat) : Stage σ × Except Fault Phase :=
  s.tick (some (.choose index))

def skip (s : Stage σ) : Stage σ × Except Fault Phase :=
  { s with screen := Screen.perform s.screen .completeReveal,
           director := s.director.completeAll }.sync

def reload (s : Stage σ) (p : Program) : Stage σ × Except Fault Phase :=
  { narrator := s.narrator.reset p
    director := s.director.clear
    screen := Screen.perform s.screen .clearChoices
    change := none : Stage σ }.start

omit [Screen σ] in
def takeChange (s : Stage σ) : Option SceneChange × Stage σ :=
  (s.change, { s with change := none })

end Stage

end Dialogue
