import Dialogue.Script.Action
namespace Dialogue

structure Choice where
  text : String
  target : String
deriving DecidableEq, Repr

/-- A request to go on with another scene, and the script for it if it is named. -/
structure SceneChange where
  scene : String
  script : Option String
deriving DecidableEq, Repr

inductive Cue where
  | showText (content : String)
  | completeReveal
  | showSpeaker (name : Option String)
  | presentChoices (choices : List Choice)
  | clearChoices
  | showBackground (file : String)
  | spawnActor (actor image : String) (entrance : Entrance)
  | despawnActor (actor : String) (exit : Entrance)
  | playGesture (actor : String) (gesture : Gesture)
  | changeExpression (actor image : String)
deriving DecidableEq, Repr

def Cue.actor? : Cue → Option String
  | .spawnActor actor .. => some actor
  | .despawnActor actor _ => some actor
  | .playGesture actor _ => some actor
  | .changeExpression actor _ => some actor
  | _ => none

end Dialogue
