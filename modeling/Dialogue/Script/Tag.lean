import Dialogue.Script.Action
import Dialogue.Script.Attribute
import Dialogue.Table
namespace Dialogue.Script

/-- A tag as it is written: its name in lower case and its parameters. -/
structure Tag where
  name : String
  params : Table String
deriving DecidableEq, Repr

inductive Defect where
  | unknownTag
  | missing (parameter : String)
  | unknownDirection (name : String)
  | unknownGesture (name : String)
deriving DecidableEq, Repr

namespace Tag

/-- A body that holds an equals sign is a list of attributes; any other body is the content. -/
def ofLine (name : String) (body : Option String) : Tag where
  name := Text.lowerAscii name
  params := match body with
    | none => .empty
    | some body =>
      if '=' ∈ body.toList then .ofList (attributes body.toList)
      else if body = "" then .empty
      else Table.empty.insert "content" body

def get? (t : Tag) (parameter : String) : Option String :=
  t.params.get? parameter

/-- A parameter in whose place the content may stand. -/
def main? (t : Tag) (parameter : String) : Option String :=
  (t.get? parameter).or (t.get? "content")

def toUnknown (t : Tag) : Action :=
  .unknown t.name (.ofList t.params.entries)

/-- A tag without a parameter that it needs does nothing. -/
def without (t : Tag) (parameter : String) : Action × List Defect :=
  (t.toUnknown, [.missing parameter])

def direction (name : Option String) : Entrance × List Defect :=
  match name with
  | none => (.center, [])
  | some name =>
    match Entrance.ofName? name with
    | some entrance => (entrance, [])
    | none => (.center, [.unknownDirection name])

def assignments (t : Tag) : List Assignment :=
  t.params.entries.map fun e => ⟨e.1, e.2⟩

def interpret (t : Tag) : Action × List Defect :=
  match t.name with
  | "label" =>
    match t.main? "name" with
    | some name => (.label name, [])
    | none => t.without "content"
  | "goto" =>
    match t.main? "label" with
    | some target => (.goto target, [])
    | none => t.without "label"
  | "msg" => (.message ((t.get? "content").getD ""), [])
  | "spk" => (.speaker ((t.main? "name").getD ""), [])
  | "bg" =>
    match t.main? "file" with
    | some file => (.background file, [])
    | none => t.without "file"
  | "char" =>
    match t.main? "img" with
    | some image =>
      let (entrance, defects) := direction (t.get? "enter")
      (.showCharacter image ((t.get? "id").getD image) entrance, defects)
    | none => t.without "img"
  | "remove" =>
    match t.main? "target" with
    | some actor =>
      let (exit, defects) := direction (t.get? "exit")
      (.removeCharacter actor exit, defects)
    | none => t.without "target"
  | "action" =>
    match t.get? "target", t.get? "anim" with
    | some actor, some name =>
      match Gesture.ofName? name with
      | some gesture => (.gesture actor (some gesture), [])
      | none => (.gesture actor none, [.unknownGesture name])
    | none, _ => t.without "target"
    | _, none => t.without "anim"
  | "expr" =>
    match t.get? "target", t.get? "expr" with
    | some actor, some image => (.expression actor image, [])
    | none, _ => t.without "target"
    | _, none => t.without "expr"
  | "var" => (.setVariables t.assignments, [])
  | "add" => (.addVariables t.assignments, [])
  | "choices" => (.choices [], [])
  | "scene" =>
    match t.main? "file" with
    | some scene => (.scene scene (t.get? "script"), [])
    | none => t.without "file"
  | _ => (t.toUnknown, [.unknownTag])

def action (t : Tag) : Action :=
  t.interpret.1

def defects (t : Tag) : List Defect :=
  t.interpret.2

end Tag

end Dialogue.Script
