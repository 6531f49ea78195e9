import Dialogue.Script.Program
namespace Dialogue

/-- A place in a program: on an action, or before the first one. -/
structure Cursor where
  program : Program
  position : Option Nat
deriving DecidableEq, Repr

namespace Cursor

def start (p : Program) : Cursor :=
  ⟨p, none⟩

def next (c : Cursor) : Nat :=
  match c.position with
  | none => 0
  | some i => i + 1

def hasNext (c : Cursor) : Bool :=
  c.next < c.program.size

def current? (c : Cursor) : Option Action :=
  c.position.bind c.program.action?

def peek? (c : Cursor) : Option Action :=
  c.program.action? c.next

def line? (c : Cursor) : Option Nat :=
  c.position.bind c.program.line?

def advance (c : Cursor) : Option Action × Cursor :=
  if c.hasNext then (c.peek?, { c with position := some c.next }) else (none, c)

/-- Moves to a label, so that the action behind it comes next. -/
def jump? (c : Cursor) (label : String) : Option Cursor :=
  (c.program.label? label).map fun i =>
    { c with position := if i = 0 then none else some (i - 1) }

theorem next_lt_of_peek? {c : Cursor} {a : Action} (h : c.peek? = some a) :
    c.next < c.program.size :=
  (List.getElem?_eq_some_iff.mp h).1

theorem hasNext_iff (c : Cursor) : c.hasNext = true ↔ c.next < c.program.size := by
  simp [hasNext]

theorem next_jump {c d : Cursor} {label : String} (h : c.jump? label = some d) :
    c.program.label? label = some d.next := by
  obtain ⟨i, hi, rfl⟩ := Option.map_eq_some_iff.mp h
  rw [hi]
  cases i with
  | zero => rfl
  | succ i => simp [next]

theorem program_jump {c d : Cursor} {label : String} (h : c.jump? label = some d) :
    d.program = c.program := by
  obtain ⟨i, _, rfl⟩ := Option.map_eq_some_iff.mp h
  rfl

@[simp] theorem program_advance (c : Cursor) : c.advance.2.program = c.program := by
  rw [advance]
  split <;> rfl

end Cursor

end Dialogue
