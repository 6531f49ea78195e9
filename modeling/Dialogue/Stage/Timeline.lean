namespace Dialogue

/-- A value that moves evenly from one number to another within a time. -/
structure Tween where
  initial : Float32
  final : Float32
  duration : Float32
  elapsed : Float32

namespace Tween

/-- A time that is negative or no number counts as none. -/
def start (initial final duration : Float32) : Tween :=
  ⟨initial, final, if 0 < duration then duration else 0, 0⟩

/-- The part of the time that has passed, one at most; what is no number counts as one. -/
def progress (t : Tween) : Float32 :=
  if t.duration ≤ 0 then 1
  else
    let part := t.elapsed / t.duration
    if part < 1 then part else 1

def value (t : Tween) : Float32 :=
  t.initial + (t.final - t.initial) * t.progress

def isComplete (t : Tween) : Bool :=
  1 ≤ t.progress

def advance (t : Tween) (dt : Float32) : Tween :=
  { t with elapsed := t.elapsed + dt }

end Tween

/-- The tweens in progress under their numbers, and the last number given. -/
structure Timeline where
  tweens : List (Nat × Tween)
  last : Nat

namespace Timeline

def empty : Timeline := ⟨[], 0⟩

/-- Starts a tween under a new number; one that is complete at once is not kept. -/
def animate (t : Timeline) (initial final duration : Float32) : Nat × Timeline :=
  let tween := Tween.start initial final duration
  let id := t.last + 1
  (id, ⟨if tween.isComplete then t.tweens else t.tweens ++ [(id, tween)], id⟩)

def find? (t : Timeline) (id : Nat) : Option Tween :=
  t.tweens.lookup id

def value? (t : Timeline) (id : Nat) : Option Float32 :=
  (t.find? id).map Tween.value

/-- A tween that is not there counts as finished. -/
def isFinished (t : Timeline) (id : Nat) : Bool :=
  match t.find? id with
  | some tween => tween.isComplete
  | none => true

def finish (t : Timeline) (id : Nat) : Timeline :=
  { t with tweens := t.tweens.filter (·.1 != id) }

def finishAll (t : Timeline) : Timeline :=
  { t with tweens := [] }

def update (t : Timeline) (dt : Float32) : Timeline :=
  { t with
    tweens := (t.tweens.map fun e => (e.1, e.2.advance dt)).filter fun e => !e.2.isComplete }

def active (t : Timeline) : Nat :=
  t.tweens.length

def hasActive (t : Timeline) : Bool :=
  !t.tweens.isEmpty

def progress (t : Timeline) (id : Nat) : Float32 :=
  if t.isFinished id then 1 else (t.value? id).getD 1

end Timeline

end Dialogue
