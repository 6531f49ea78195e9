import Dialogue.Encoding.Script
import Dialogue.Play.Cue
import Dialogue.Play.Phase
namespace Dialogue

def Choice.encode (c : Choice) : Json :=
  .record [("text", .text c.text), ("target_label", .text c.target)]

def SceneChange.encode (c : SceneChange) : Json :=
  .record [("scene", .text c.scene), ("script", .ofOption .text c.script)]

def Cue.encode : Cue → Json
  | .showText content => .record [("ShowText", .record [("content", .text content)])]
  | .completeReveal => .text "CompleteReveal"
  | .showSpeaker name => .record [("ShowSpeaker", .record [("name", .ofOption .text name)])]
  | .presentChoices choices =>
    .record [("PresentChoices", .record [("choices", .ofList Choice.encode choices)])]
  | .clearChoices => .text "ClearChoices"
  | .showBackground file => .record [("ShowBackground", .record [("file", .text file)])]
  | .spawnActor actor image entrance =>
    .record [("SpawnActor", .record
      [("actor", .text actor), ("image", .text image), ("entrance", entrance.encode)])]
  | .despawnActor actor exit =>
    .record [("DespawnActor", .record [("actor", .text actor), ("exit", exit.encode)])]
  | .playGesture actor gesture =>
    .record [("PlayGesture", .record [("actor", .text actor), ("gesture", gesture.encode)])]
  | .changeExpression actor image =>
    .record [("ChangeExpression", .record [("actor", .text actor), ("image", .text image)])]

def Phase.encode : Phase → Json
  | .idle => .text "Idle"
  | .running => .text "Running"
  | .awaitingAdvance revealing =>
    .record [("AwaitingAdvance", .record [("revealing", .bool revealing)])]
  | .awaitingChoice count =>
    .record [("AwaitingChoice", .record [("choice_count", .nat count)])]
  | .finished => .text "Finished"

def Phase.decode? (j : Json) : Option Phase :=
  match j.case? with
  | some ("AwaitingAdvance", some contents) =>
    match contents.members? ["revealing"] with
    | some [revealing] => (Json.required Json.bool? revealing).map .awaitingAdvance
    | _ => none
  | some ("AwaitingChoice", some contents) =>
    match contents.members? ["choice_count"] with
    | some [count] => (Json.required Json.nat? count).map .awaitingChoice
    | _ => none
  | _ =>
    match j.bareCase? with
    | some "Idle" => some .idle
    | some "Running" => some .running
    | some "Finished" => some .finished
    | _ => none

def Input.decode? (j : Json) : Option Input :=
  match j.case? with
  | some ("ChoiceSelected", some contents) =>
    match contents.members? ["index"] with
    | some [index] => (Json.required Json.nat? index).map .choose
    | _ => none
  | _ =>
    match j.bareCase? with
    | some "Advance" => some .advance
    | some "RevealFinished" => some .revealFinished
    | _ => none

end Dialogue
