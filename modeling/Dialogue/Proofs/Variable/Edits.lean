import Dialogue.Play.Effect
namespace Dialogue

inductive Edit where
  | set (name raw : String)
  | add (name raw : String)

def Edit.name : Edit → String
  | .set name _ => name
  | .add name _ => name

namespace Store

/-- Makes a change; an addition that is refused changes nothing. -/
def edit (s : Store) : Edit → Store
  | .set name raw => s.set name raw
  | .add name raw => s.accumulate name raw

end Store

namespace Action

/-- The changes that an action asks for, in the order in which it names them. -/
def edits : Action → List Edit
  | .setVariables assignments => assignments.map fun a => .set a.name a.raw
  | .addVariables assignments => assignments.map fun a => .add a.name a.raw
  | _ => []

theorem update_eq_foldl_edit (a : Action) (s : Store) :
    a.update s = a.edits.foldl Store.edit s := by
  cases a with
  | setVariables | addVariables =>
    rw [edits, List.foldl_map]
    rfl
  | _ => rfl

end Action

end Dialogue
