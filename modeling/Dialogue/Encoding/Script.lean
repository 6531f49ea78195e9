import Dialogue.Json.Value
import Dialogue.Script.Program
namespace Dialogue

def Entrance.caseName : Entrance → String
  | .left => "Left"
  | .right => "Right"
  | .bottomLeft => "BottomLeft"
  | .bottomRight => "BottomRight"
  | .center => "Center"
  | .top => "Top"

def Entrance.encode (e : Entrance) : Json :=
  .text e.caseName

def Json.bareCase? (j : Json) : Option String :=
  match j.case? with
  | some (name, none) => some name
  | some (name, some .null) => some name
  | _ => none

def Entrance.decode? (j : Json) : Option Entrance :=
  match j.bareCase? with
  | some "Left" => some .left
  | some "Right" => some .right
  | some "BottomLeft" => some .bottomLeft
  | some "BottomRight" => some .bottomRight
  | some "Center" => some .center
  | some "Top" => some .top
  | _ => none

def Gesture.caseName : Gesture → String
  | .jump => "Jump"
  | .shake => "Shake"
  | .shakeHorizontal => "ShakeHorizontal"
  | .nod => "Nod"
  | .punch => "Punch"

def Gesture.encode (g : Gesture) : Json :=
  .text g.caseName

def Gesture.decode? (j : Json) : Option Gesture :=
  match j.bareCase? with
  | some "Jump" => some .jump
  | some "Shake" => some .shake
  | some "ShakeHorizontal" => some .shakeHorizontal
  | some "Nod" => some .nod
  | some "Punch" => some .punch
  | _ => none

def ChoiceOption.encode (o : ChoiceOption) : Json :=
  .record [("text", .text o.text), ("target", .text o.target)]

def ChoiceOption.decode? (j : Json) : Option ChoiceOption :=
  match j.fields? ["text", "target"] with
  | some [text, target] => do
    some ⟨← Json.required Json.text? text, ← Json.required Json.text? target⟩
  | _ => none

def Assignment.encode (a : Assignment) : Json :=
  .record [("name", .text a.name), ("raw", .text a.raw)]

def Assignment.decode? (j : Json) : Option Assignment :=
  match j.fields? ["name", "raw"] with
  | some [name, raw] => do
    some ⟨← Json.required Json.text? name, ← Json.required Json.text? raw⟩
  | _ => none

def SortedTable.encode (t : SortedTable String) : Json :=
  .record (t.entries.map fun e => (e.1, .text e.2))

def SortedTable.decode? (j : Json) : Option (SortedTable String) :=
  (j.object?.bind fun members => members.mapM fun m => m.2.text?.map (m.1, ·)).map ofList

namespace Action

def caseName : Action → String
  | .label _ => "Label"
  | .goto _ => "Goto"
  | .message _ => "Message"
  | .speaker _ => "Speaker"
  | .background _ => "Background"
  | .showCharacter .. => "ShowCharacter"
  | .removeCharacter .. => "RemoveCharacter"
  | .gesture .. => "Gesture"
  | .expression .. => "Expression"
  | .setVariables _ => "SetVariables"
  | .addVariables _ => "AddVariables"
  | .choices _ => "Choices"
  | .scene .. => "Scene"
  | .unknown .. => "Unknown"

def contents : Action → List (String × Json)
  | .label name => [("name", .text name)]
  | .goto target => [("target", .text target)]
  | .message content => [("content", .text content)]
  | .speaker name => [("name", .text name)]
  | .background file => [("file", .text file)]
  | .showCharacter image actor entrance =>
    [("image", .text image), ("actor", .text actor), ("entrance", entrance.encode)]
  | .removeCharacter actor exit => [("actor", .text actor), ("exit", exit.encode)]
  | .gesture actor g => [("actor", .text actor), ("gesture", .ofOption Gesture.encode g)]
  | .expression actor image => [("actor", .text actor), ("image", .text image)]
  | .setVariables assignments => [("assignments", .ofList Assignment.encode assignments)]
  | .addVariables assignments => [("assignments", .ofList Assignment.encode assignments)]
  | .choices options => [("options", .ofList ChoiceOption.encode options)]
  | .scene name script => [("scene", .text name), ("script", .ofOption .text script)]
  | .unknown tag params => [("tag", .text tag), ("params", params.encode)]

/-- An action is an object whose only key is the name of its case. -/
def encode (a : Action) : Json :=
  .record [(a.caseName, .record a.contents)]

def decodeText? (make : String → Action) (field : String) (j : Json) : Option Action :=
  match j.members? [field] with
  | some [text] => (Json.required Json.text? text).map make
  | _ => none

def decodeContents? (case : String) (j : Json) : Option Action :=
  match case with
  | "Label" => decodeText? .label "name" j
  | "Goto" => decodeText? .goto "target" j
  | "Message" => decodeText? .message "content" j
  | "Speaker" => decodeText? .speaker "name" j
  | "Background" => decodeText? .background "file" j
  | "ShowCharacter" =>
    match j.members? ["image", "actor", "entrance"] with
    | some [image, actor, entrance] => do
      some (.showCharacter (← Json.required Json.text? image) (← Json.required Json.text? actor)
        (← Json.required Entrance.decode? entrance))
    | _ => none
  | "RemoveCharacter" =>
    match j.members? ["actor", "exit"] with
    | some [actor, exit] => do
      some (.removeCharacter (← Json.required Json.text? actor)
        (← Json.required Entrance.decode? exit))
    | _ => none
  | "Gesture" =>
    match j.members? ["actor", "gesture"] with
    | some [actor, g] => do
      some (.gesture (← Json.required Json.text? actor) (← Json.optional Gesture.decode? g))
    | _ => none
  | "Expression" =>
    match j.members? ["actor", "image"] with
    | some [actor, image] => do
      some (.expression (← Json.required Json.text? actor) (← Json.required Json.text? image))
    | _ => none
  | "SetVariables" =>
    match j.members? ["assignments"] with
    | some [assignments] =>
      (Json.required (Json.list? Assignment.decode?) assignments).map .setVariables
    | _ => none
  | "AddVariables" =>
    match j.members? ["assignments"] with
    | some [assignments] =>
      (Json.required (Json.list? Assignment.decode?) assignments).map .addVariables
    | _ => none
  | "Choices" =>
    match j.members? ["options"] with
    | some [options] => (Json.required (Json.list? ChoiceOption.decode?) options).map .choices
    | _ => none
  | "Scene" =>
    match j.members? ["scene", "script"] with
    | some [name, script] => do
      some (.scene (← Json.required Json.text? name) (← Json.optional Json.text? script))
    | _ => none
  | "Unknown" =>
    match j.members? ["tag", "params"] with
    | some [tag, params] => do
      some (.unknown (← Json.required Json.text? tag) (← Json.required SortedTable.decode? params))
    | _ => none
  | _ => none

def decode? (j : Json) : Option Action :=
  match j.case? with
  | some (case, some contents) => decodeContents? case contents
  | _ => none

end Action

namespace Program

/-- The label table is not written; it follows from the actions. -/
def encode (p : Program) : Json :=
  .record [("id", .text p.id), ("actions", .ofList Action.encode p.actions),
    ("source_map", .ofList .nat p.lines)]

def decode? (j : Json) : Option Program :=
  match j.fields? ["id", "actions", "source_map"] with
  | some [id, actions, lines] => do
    some ⟨← Json.required Json.text? id, ← Json.required (Json.list? Action.decode?) actions,
      ← Json.withDefault (Json.list? Json.nat?) [] lines, .empty⟩
  | _ => none

end Program

end Dialogue
