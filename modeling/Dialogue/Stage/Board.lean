import Dialogue.Script.Action
import Dialogue.Stage.Settings
import Dialogue.Stage.Timeline
namespace Dialogue

structure Point where
  x : Float32
  y : Float32

def Point.zero : Point := ⟨0, 0⟩

structure Overlay where
  image : String
  reveal : Float32

structure Figure where
  id : String
  image : String
  width : Float32
  /-- How far coming and leaving move the figure. -/
  offset : Point
  /-- How far a gesture moves the figure. -/
  motion : Point
  scale : Float32
  alpha : Float32
  overlay : Option Overlay

def Figure.entering (id image : String) (offset : Point) : Figure :=
  ⟨id, image, 0, offset, .zero, 1, 0, none⟩

/-- The figures on stage from left to right, and what moves them. -/
structure Board where
  figures : List Figure
  timeline : Timeline
  settings : StageSettings

namespace Board

def empty (settings : StageSettings) : Board :=
  ⟨[], .empty, settings⟩

def get? (b : Board) (id : String) : Option Figure :=
  b.figures.find? (·.id = id)

def modifyFirst (id : String) (f : Figure → Figure) : List Figure → List Figure
  | [] => []
  | a :: r => if a.id = id then f a :: r else a :: modifyFirst id f r

def modify (b : Board) (id : String) (f : Figure → Figure) : Board :=
  { b with figures := modifyFirst id f b.figures }

/-- The place among so many figures at which a new one comes in. -/
def slot (count : Nat) : Entrance → Nat
  | .left | .bottomLeft => 0
  | .right | .bottomRight => count
  | .center | .top => count / 2

def insert (b : Board) (figure : Figure) (entrance : Entrance) : Board :=
  { b with figures := b.figures.insertIdx (slot b.figures.length entrance) figure }

def remove (b : Board) (id : String) : Board :=
  { b with figures := b.figures.filter (·.id != id) }

/-- Where a figure is before it has come and after it has left. -/
def direction (b : Board) : Entrance → Point
  | .left => ⟨-b.settings.moveDistance, 0⟩
  | .right => ⟨b.settings.moveDistance, 0⟩
  | .center | .bottomLeft | .bottomRight => ⟨0, -b.settings.moveDistance⟩
  | .top => ⟨0, b.settings.moveDistance⟩

/-- Starts a tween from zero to one. -/
def tween (b : Board) (duration : Float32) : Nat × Board :=
  let (id, timeline) := b.timeline.animate 0 1 duration
  (id, { b with timeline := timeline })

def progress (b : Board) (id : Nat) : Float32 :=
  b.timeline.progress id

def finishTween (b : Board) (id : Nat) : Board :=
  { b with timeline := b.timeline.finish id }

def update (b : Board) (dt : Float32) : Board :=
  { b with timeline := b.timeline.update dt }

def finishTweens (b : Board) : Board :=
  { b with timeline := b.timeline.finishAll }

def clear (b : Board) : Board :=
  { b with figures := [], timeline := b.timeline.finishAll }

theorem slot_le (count : Nat) (entrance : Entrance) : slot count entrance ≤ count := by
  cases entrance <;> simp only [slot, Nat.le_refl, Nat.zero_le] <;> omega

end Board

end Dialogue
