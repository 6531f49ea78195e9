import Dialogue.SortedTable
import Dialogue.Text.Case
namespace Dialogue

inductive Entrance where
  | left
  | right
  | bottomLeft
  | bottomRight
  | center
  | top
deriving DecidableEq, Repr, Inhabited

/-- Reads a direction; case does not count. -/
def Entrance.ofName? (name : String) : Option Entrance :=
  match Text.lower name with
  | "left" => some .left
  | "right" => some .right
  | "bottomleft" => some .bottomLeft
  | "bottomright" => some .bottomRight
  | "center" => some .center
  | "top" => some .top
  | _ => none

inductive Gesture where
  | jump
  | shake
  | shakeHorizontal
  | nod
  | punch
deriving DecidableEq, Repr, Inhabited

def Gesture.ofName? (name : String) : Option Gesture :=
  match Text.lower name with
  | "jump" => some .jump
  | "shake" => some .shake
  | "shakehorizontal" => some .shakeHorizontal
  | "nod" => some .nod
  | "punch" => some .punch
  | _ => none

structure ChoiceOption where
  text : String
  target : String
deriving DecidableEq, Repr

/-- A variable and the text that is given or added to it. -/
structure Assignment where
  name : String
  raw : String
deriving DecidableEq, Repr

inductive Action where
  | label (name : String)
  | goto (target : String)
  | message (content : String)
  | speaker (name : String)
  | background (file : String)
  | showCharacter (image actor : String) (entrance : Entrance)
  | removeCharacter (actor : String) (exit : Entrance)
  | gesture (actor : String) (gesture : Option Gesture)
  | expression (actor image : String)
  | setVariables (assignments : List Assignment)
  | addVariables (assignments : List Assignment)
  | choices (options : List ChoiceOption)
  | scene (scene : String) (script : Option String)
  | unknown (tag : String) (params : SortedTable String)
deriving DecidableEq, Repr

namespace Action

/-- The name of the tag that stands for the action. -/
def kind : Action → String
  | .label _ => "label"
  | .goto _ => "goto"
  | .message _ => "msg"
  | .speaker _ => "spk"
  | .background _ => "bg"
  | .showCharacter .. => "char"
  | .removeCharacter .. => "remove"
  | .gesture .. => "action"
  | .expression .. => "expr"
  | .setVariables _ => "var"
  | .addVariables _ => "add"
  | .choices _ => "choices"
  | .scene .. => "scene"
  | .unknown tag _ => tag

def waits : Action → Bool
  | .message _ => true
  | .choices _ => true
  | _ => false

def label? : Action → Option String
  | .label name => some name
  | _ => none

end Action

end Dialogue
