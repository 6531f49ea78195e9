namespace Dialogue

structure Typewriter where
  content : String
  total : Nat
  visible : Nat
  /-- The part of a character that is due. -/
  timer : Float32
  charsPerSecond : Float32

namespace Typewriter

def idle (charsPerSecond : Float32) : Typewriter :=
  ⟨"", 0, 0, 0, charsPerSecond⟩

def isFinished (t : Typewriter) : Bool :=
  t.total ≤ t.visible

def complete (t : Typewriter) : Typewriter :=
  { t with visible := t.total, timer := 0 }

/-- Begins a text; without a positive speed it is shown at once. -/
def start (t : Typewriter) (content : String) : Typewriter :=
  let t := { t with content := content, total := content.length, visible := 0, timer := 0 }
  if t.charsPerSecond ≤ 0 then t.complete else t

/-- Takes whole characters from the timer, as long as some are hidden. -/
def reveal (visible : Nat) (timer : Float32) : (hidden : Nat) → Nat × Float32
  | 0 => (visible, timer)
  | hidden + 1 => if 1 ≤ timer then reveal (visible + 1) (timer - 1) hidden else (visible, timer)

def update (t : Typewriter) (dt : Float32) : Typewriter :=
  if t.isFinished then t
  else
    let (visible, timer) := reveal t.visible (t.timer + dt * t.charsPerSecond) (t.total - t.visible)
    { t with visible := visible, timer := timer }

/-- Lets time pass, and says whether the whole text is then shown. -/
def advance (t : Typewriter) (dt : Float32) : Bool × Typewriter :=
  if t.isFinished then (true, t) else ((t.update dt).isFinished, t.update dt)

def visibleText (t : Typewriter) : String :=
  String.ofList (t.content.toList.take t.visible)

end Typewriter

end Dialogue
