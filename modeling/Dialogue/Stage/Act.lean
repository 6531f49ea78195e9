import Dialogue.Stage.Board
import Dialogue.Stage.Queues
namespace Dialogue

def lerp (a b t : Float32) : Float32 :=
  a + (b - a) * t

/-- A swing that dies out at one. -/
def dampedWave (amplitude frequency t : Float32) : Float32 :=
  if 1 ≤ t then 0
  else amplitude * (1 - t) * Float32.sin (3.14159265358979 * frequency * t)

/-- The shape of a gesture: its time, how far it moves and how much it grows the figure, and how
often it swings. -/
structure GestureShape where
  duration : Float32
  motion : Point
  growth : Float32
  frequency : Float32

/-- A nod goes down and up again, each in the given time. -/
def Gesture.shape : Gesture → GestureShape
  | .jump => ⟨0.5, ⟨0, 100⟩, 0, 2⟩
  | .shake => ⟨0.5, ⟨50, 0⟩, 0, 10⟩
  | .shakeHorizontal => ⟨0.5, ⟨0, 50⟩, 0, 10⟩
  | .punch => ⟨0.4, ⟨0, 0⟩, 0.2, 1⟩
  | .nod => ⟨0.15, ⟨0, -30⟩, 0, 1⟩

def expressionDuration : Float32 := 0.5

/-- The part of the time of leaving in which the figure fades. -/
def fadeRatio : Float32 := 0.8

/-- Something that one actor does on stage, with the tweens that it goes by once it has started. -/
inductive Act where
  | spawn (actor image : String) (entrance : Entrance) (tween : Option Nat)
  | despawn (actor : String) (exit : Entrance) (tweens : Option (Nat × Nat)) (width : Float32)
  | gesture (actor : String) (gesture : Gesture) (tween : Option Nat) (secondHalf : Bool)
  | expression (actor image : String) (tween : Option Nat)

namespace Act

def toSpawn (actor image : String) (entrance : Entrance) : Act :=
  .spawn actor image entrance none

def toDespawn (actor : String) (exit : Entrance) : Act :=
  .despawn actor exit none 0

def toGesture (actor : String) (g : Gesture) : Act :=
  .gesture actor g none false

def toExpression (actor image : String) : Act :=
  .expression actor image none

def actor : Act → String
  | .spawn actor .. => actor
  | .despawn actor .. => actor
  | .gesture actor .. => actor
  | .expression actor .. => actor

def tween? : Act → Option Nat
  | .spawn _ _ _ tween => tween
  | .despawn _ _ tweens _ => tweens.map Prod.fst
  | .gesture _ _ tween _ => tween
  | .expression _ _ tween => tween

def pose (g : Gesture) (secondHalf : Bool) (t : Float32) (f : Figure) : Figure :=
  let shape := g.shape
  match g with
  | .nod => { f with motion := ⟨0, shape.motion.y * (if secondHalf then 1 - t else t)⟩ }
  | _ =>
    { f with
      motion := ⟨dampedWave shape.motion.x shape.frequency t,
        dampedWave shape.motion.y shape.frequency t⟩
      scale := 1 + (dampedWave shape.growth shape.frequency t).abs }

def apply (act : Act) (b : Board) (t : Float32) : Board :=
  match act with
  | .spawn actor _ entrance _ =>
    let d := b.direction entrance
    b.modify actor fun f =>
      { f with width := lerp 0 b.settings.actorWidth t, offset := ⟨lerp d.x 0 t, lerp d.y 0 t⟩,
               alpha := t }
  | .despawn actor exit tweens width =>
    let d := b.direction exit
    let fade := match tweens with
      | some (_, alpha) => b.progress alpha
      | none => t
    b.modify actor fun f =>
      { f with width := lerp width 0 t, offset := ⟨lerp 0 d.x t, lerp 0 d.y t⟩,
               alpha := 1 - fade }
  | .gesture actor g _ secondHalf => b.modify actor (pose g secondHalf t)
  | .expression actor image _ =>
    b.modify actor fun f =>
      if 1 ≤ t then { f with image := image, overlay := none }
      else { f with overlay := some ⟨image, t⟩ }

def prepare (act : Act) (b : Board) : Act × Board :=
  match act with
  | .spawn actor image entrance _ =>
    let (id, b) := (b.insert (.entering actor image (b.direction entrance)) entrance).tween
      b.settings.actorDuration
    (.spawn actor image entrance (some id), b)
  | .despawn actor exit _ _ =>
    let width := match b.get? actor with
      | some f => f.width
      | none => 0
    let (id, b) := b.tween b.settings.actorDuration
    let (alpha, b) := b.tween (b.settings.actorDuration * fadeRatio)
    (.despawn actor exit (some (id, alpha)) width, b)
  | .gesture actor g _ secondHalf =>
    let (id, b) := (b.modify actor fun f => { f with motion := .zero, scale := 1 }).tween
      g.shape.duration
    (.gesture actor g (some id) secondHalf, b)
  | .expression actor image _ =>
    let (id, b) := b.tween expressionDuration
    (.expression actor image (some id), b)

def start (act : Act) (b : Board) : Act × Board :=
  let (act, b) := act.prepare b
  (act, act.apply b 0)

/-- What follows when the tween of an act is over: a nod goes up again, and who leaves is gone. -/
def conclude (act : Act) (b : Board) : Status × Act × Board :=
  match act with
  | .gesture actor .nod _ false =>
    let (id, b) := b.tween Gesture.nod.shape.duration
    (.pending, .gesture actor .nod (some id) true, b)
  | .despawn actor .. => (.done, act, b.remove actor)
  | _ => (.done, act, b)

/-- Shows how far the act has come; an act that has not started is done. -/
def poll (act : Act) (b : Board) : Status × Act × Board :=
  match act.tween? with
  | none => (.done, act, b)
  | some id =>
    let t := b.progress id
    let b := act.apply b t
    if t < 1 then (.pending, act, b) else act.conclude b

/-- Ends the tweens of an act, and the first half of a nod. -/
def hasten (act : Act) (b : Board) : Act × Board :=
  let b := match act.tween? with
    | some id => b.finishTween id
    | none => b
  match act with
  | .despawn _ _ (some (_, alpha)) _ => (act, b.finishTween alpha)
  | .gesture actor g tween _ => (.gesture actor g tween true, b)
  | _ => (act, b)

def finish (act : Act) (b : Board) : Act × Board :=
  let (act, b) := act.hasten b
  let b := act.apply b 1
  match act with
  | .despawn actor .. => (act, b.remove actor)
  | _ => (act, b)

instance : Task Act Board where
  start := start
  poll := poll
  finish := finish

@[simp] theorem actor_prepare (act : Act) (b : Board) : (act.prepare b).1.actor = act.actor := by
  cases act <;> rfl

@[simp] theorem actor_start (act : Act) (b : Board) : (act.start b).1.actor = act.actor :=
  actor_prepare act b

end Act

end Dialogue
