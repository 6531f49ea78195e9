namespace Dialogue

inductive Status where
  | pending
  | done
deriving DecidableEq, Repr

/-- Tasks `τ` that work on a common state `κ`. -/
class Task (τ : Type) (κ : outParam Type) where
  start : τ → κ → τ × κ
  poll : τ → κ → Status × τ × κ
  /-- Brings a task that has started to its end at once. -/
  finish : τ → κ → τ × κ

/-- The tasks of one actor: one that has started and those that wait for it, in order. -/
structure Lane (τ : Type) where
  active : τ
  waiting : List τ

/-- The lanes of the actors that have tasks, in the order of their names. -/
structure Queues (τ : Type) where
  lanes : List (String × Lane τ)

variable {τ κ : Type} [Task τ κ]

/-- Polls the active task; behind one that is done the next one starts and is polled in turn. -/
def Lane.tick (active : τ) (waiting : List τ) (ctx : κ) : Option (Lane τ) × κ :=
  match Task.poll active ctx, waiting with
  | (.pending, active, ctx), waiting => (some ⟨active, waiting⟩, ctx)
  | (.done, _, ctx), [] => (none, ctx)
  | (.done, _, ctx), next :: waiting =>
    let (next, ctx) := Task.start next ctx
    tick next waiting ctx
termination_by structural waiting

def Lane.drain : List τ → κ → κ
  | [], ctx => ctx
  | task :: waiting, ctx =>
    let (task, ctx) := Task.start task ctx
    drain waiting (Task.finish task ctx).2

namespace Queues

def empty : Queues τ := ⟨[]⟩

/-- Adds a task to the lane of an actor; in a new lane it starts at once. -/
def insert (actor : String) (task : τ) (ctx : κ) :
    List (String × Lane τ) → List (String × Lane τ) × κ
  | [] =>
    let (task, ctx) := Task.start task ctx
    ([(actor, ⟨task, []⟩)], ctx)
  | (name, lane) :: r =>
    if name = actor then ((name, { lane with waiting := lane.waiting ++ [task] }) :: r, ctx)
    else if actor < name then
      let (task, ctx) := Task.start task ctx
      ((actor, ⟨task, []⟩) :: (name, lane) :: r, ctx)
    else
      let (r, ctx) := insert actor task ctx r
      ((name, lane) :: r, ctx)

def enqueue (q : Queues τ) (actor : String) (task : τ) (ctx : κ) : Queues τ × κ :=
  let (lanes, ctx) := insert actor task ctx q.lanes
  (⟨lanes⟩, ctx)

def tickLanes : List (String × Lane τ) → κ → List (String × Lane τ) × κ
  | [], ctx => ([], ctx)
  | (name, lane) :: r, ctx =>
    let (lane, ctx) := Lane.tick lane.active lane.waiting ctx
    let (r, ctx) := tickLanes r ctx
    match lane with
    | some lane => ((name, lane) :: r, ctx)
    | none => (r, ctx)

/-- Lets every lane go on; lanes that come to their end are dropped. -/
def tick (q : Queues τ) (ctx : κ) : Queues τ × κ :=
  let (lanes, ctx) := tickLanes q.lanes ctx
  (⟨lanes⟩, ctx)

def completeAll (q : Queues τ) (ctx : κ) : Queues τ × κ :=
  (⟨[]⟩, q.lanes.foldl
    (fun ctx e => Lane.drain e.2.waiting (Task.finish e.2.active ctx).2) ctx)

omit [Task τ κ]

def lane? (q : Queues τ) (actor : String) : Option (Lane τ) :=
  q.lanes.lookup actor

def isIdle (q : Queues τ) : Bool :=
  q.lanes.isEmpty

def isBusy (q : Queues τ) (actor : String) : Bool :=
  (q.lane? actor).isSome

/-- The tasks of an actor that have not started. -/
def pending (q : Queues τ) (actor : String) : Nat :=
  match q.lane? actor with
  | some lane => lane.waiting.length
  | none => 0

def size (q : Queues τ) : Nat :=
  (q.lanes.flatMap fun e => e.2.active :: e.2.waiting).length

end Queues

end Dialogue
