import Dialogue.Check.Analysis
import Dialogue.Stage.Act
namespace Dialogue

/-- Requests are judged by the roster: an actor who is still coming is present, and one who is
leaving is not. -/
structure Director where
  queues : Queues Act
  board : Board
  roster : List String
  catalog : Catalog

namespace Director

def start (catalog : Catalog) (settings : StageSettings) : Director :=
  ⟨.empty, .empty settings, [], catalog⟩

def isPresent (d : Director) (actor : String) : Bool :=
  actor ∈ d.roster

def isBusy (d : Director) (actor : String) : Bool :=
  d.queues.isBusy actor

def isIdle (d : Director) : Bool :=
  d.queues.isIdle

def figures (d : Director) : List Figure :=
  d.board.figures

def enqueue (d : Director) (act : Act) : Director :=
  let (queues, board) := d.queues.enqueue act.actor act d.board
  { d with queues := queues, board := board }

/-- Refused if the actor is present or the picture does not exist. -/
def spawn (d : Director) (actor image : String) (entrance : Entrance) : Director × Bool :=
  if d.isPresent actor || !d.catalog image then (d, false)
  else ({ d with roster := actor :: d.roster }.enqueue (.toSpawn actor image entrance), true)

def despawn (d : Director) (actor : String) (exit : Entrance) : Director × Bool :=
  if d.isPresent actor then
    ({ d with roster := d.roster.filter (· != actor) }.enqueue (.toDespawn actor exit), true)
  else (d, false)

def gesture (d : Director) (actor : String) (g : Gesture) : Director × Bool :=
  if d.isPresent actor then (d.enqueue (.toGesture actor g), true) else (d, false)

def expression (d : Director) (actor image : String) : Director × Bool :=
  if !d.isPresent actor || !d.catalog image then (d, false)
  else (d.enqueue (.toExpression actor image), true)

def update (d : Director) (dt : Float32) : Director :=
  let (queues, board) := d.queues.tick (d.board.update dt)
  { d with queues := queues, board := board }

def completeAll (d : Director) : Director :=
  let (queues, board) := d.queues.completeAll d.board
  { d with queues := queues, board := board.finishTweens }

def clear (d : Director) : Director :=
  let d := d.completeAll
  { d with board := d.board.clear, roster := [] }

end Director

end Dialogue
