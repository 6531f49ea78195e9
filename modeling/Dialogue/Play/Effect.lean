import Dialogue.Play.Cue
import Dialogue.Play.Phase
import Dialogue.Variable.Substitution
namespace Dialogue

inductive Next where
  | proceed
  | wait (phase : Phase)
  | jump (target : String)
  | leave (change : SceneChange)
deriving DecidableEq, Repr

namespace Action

/-- Whether an action makes the script wait, jump or leave does not depend on variables; a choice
without options is passed over. -/
def next : Action → Next
  | .goto target => .jump target
  | .message _ => .wait (.awaitingAdvance true)
  | .choices options =>
    if options = [] then .proceed else .wait (.awaitingChoice options.length)
  | .scene name script => .leave ⟨name, script⟩
  | _ => .proceed

/-- What an action asks of the stage; texts, speakers and answers show the variables. -/
def cues (s : Store) : Action → List Cue
  | .message content => [.showText (s.substitute content)]
  | .speaker name =>
    let name := s.substitute name
    [.showSpeaker (if name = "" then none else some name)]
  | .background file => [.showBackground file]
  | .showCharacter image actor entrance => [.spawnActor actor image entrance]
  | .removeCharacter actor exit => [.despawnActor actor exit]
  | .gesture actor (some g) => [.playGesture actor g]
  | .expression actor image => [.changeExpression actor image]
  | .choices options =>
    if options = [] then []
    else [.presentChoices (options.map fun o => ⟨s.substitute o.text, o.target⟩)]
  | _ => []

/-- What an action does to the variables; an addition that is refused changes nothing. -/
def update (s : Store) : Action → Store
  | .setVariables assignments => assignments.foldl (fun s a => s.set a.name a.raw) s
  | .addVariables assignments => assignments.foldl (fun s a => s.accumulate a.name a.raw) s
  | _ => s

end Action

structure Execution where
  cues : List Cue
  store : Store
  wait : Option Phase := none
  jump : Option String := none
  change : Option SceneChange := none

def Action.execute (s : Store) (a : Action) : Execution :=
  let done : Execution := { cues := a.cues s, store := a.update s }
  match a with
  | .goto target => { done with jump := some target }
  | .message _ => { done with wait := some (.awaitingAdvance true) }
  | .choices options =>
    if options = [] then done
    else { done with wait := some (.awaitingChoice options.length) }
  | .scene name script => { done with change := some ⟨name, script⟩ }
  | _ => done

end Dialogue
