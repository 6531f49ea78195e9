import Dialogue.Script.Action
import Dialogue.Table
namespace Dialogue

/-- The place behind each label, counted from `start`; the first of several labels of one name
counts. -/
def labelsFrom (start : Nat) (table : Table Nat) : List Action → Table Nat
  | [] => table
  | a :: r =>
    match a.label? with
    | some name => labelsFrom (start + 1) (table.insertNew name (start + 1)) r
    | none => labelsFrom (start + 1) table r

def labelTable (actions : List Action) : Table Nat :=
  labelsFrom 0 .empty actions

structure Program where
  id : String
  actions : List Action
  /-- The line of each action in its text, as far as it is known. -/
  lines : List Nat
  /-- For each label the index of the action behind it. -/
  labels : Table Nat
deriving DecidableEq, Repr

namespace Program

def ofActions (id : String) (actions : List Action) (lines : List Nat) : Program :=
  ⟨id, actions, lines, labelTable actions⟩

def index (p : Program) : Program :=
  ofActions p.id p.actions p.lines

def size (p : Program) : Nat :=
  p.actions.length

def action? (p : Program) (i : Nat) : Option Action :=
  p.actions[i]?

def line? (p : Program) (i : Nat) : Option Nat :=
  p.lines[i]?

/-- The index at which the script goes on after a jump to the label. -/
def label? (p : Program) (name : String) : Option Nat :=
  p.labels.get? name

/-- The label table is the one of the actions. -/
def Indexed (p : Program) : Prop :=
  p.labels = labelTable p.actions

@[simp] theorem indexed_ofActions (id : String) (actions : List Action) (lines : List Nat) :
    (ofActions id actions lines).Indexed := rfl

theorem index_eq_self {p : Program} (h : p.Indexed) : p.index = p := by
  cases p
  rw [Indexed] at h
  simp only at h
  subst h
  rfl

end Program

end Dialogue
