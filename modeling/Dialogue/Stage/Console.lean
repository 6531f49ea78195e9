import Dialogue.Stage.Screen
import Dialogue.Stage.Typewriter
namespace Dialogue

/-- A screen of plain lines: a text is one line, and its time is kept by a typewriter. -/
structure Console where
  /-- The lines that have not been printed. -/
  pending : List String
  speaker : Option String
  choices : List String
  typewriter : Typewriter

namespace Console

def start (charsPerSecond : Float32) : Console :=
  ⟨[], none, [], .idle charsPerSecond⟩

def choiceLines (n : Nat) : List String → List String
  | [] => []
  | text :: r => ("  " ++ toString n ++ ". " ++ text) :: choiceLines (n + 1) r

def print (c : Console) (lines : List String) : Console :=
  { c with pending := c.pending ++ lines }

def spoken (speaker : Option String) (content : String) : String :=
  match speaker with
  | some name => "【" ++ name ++ "】" ++ content
  | none => content

def perform (c : Console) : ScreenCue → Console
  | .revealText content =>
    { c.print [spoken c.speaker content] with typewriter := c.typewriter.start content }
  | .completeReveal => { c with typewriter := c.typewriter.complete }
  | .showSpeaker name => { c with speaker := name }
  | .presentChoices texts => { c.print (choiceLines 1 texts) with choices := texts }
  | .clearChoices => { c with choices := [] }
  | .showBackground file => c.print ["〔背景：" ++ file ++ "〕"]

def update (c : Console) (dt : Float32) : Console :=
  { c with typewriter := c.typewriter.update dt }

instance : Screen Console where
  perform := perform
  isRevealed c := c.typewriter.isFinished
  update := update

def drain (c : Console) : List String × Console :=
  (c.pending, { c with pending := [] })

end Console

end Dialogue
