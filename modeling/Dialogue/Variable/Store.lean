import Dialogue.Table
import Dialogue.Variable.Value
namespace Dialogue

abbrev Store := Table Value

inductive AddFault where
  | typeMismatch (name raw : String) (current : Value)
  | overflow (name raw : String)

def AddFault.message : AddFault → String
  | .typeMismatch name raw current =>
    "无法将 '" ++ raw ++ "' 累加到变量 '" ++ name ++ "'（类型 " ++ current.typeName ++ "）"
  | .overflow name raw => "变量 '" ++ name ++ "' 累加 '" ++ raw ++ "' 时溢出"

namespace Store

def set (s : Store) (name raw : String) : Store :=
  Table.insert s name (Value.infer raw)

/-- Adds a text to a variable; a new variable is set to it. -/
def add (s : Store) (name raw : String) : Except AddFault Store :=
  match s.get? name with
  | none => .ok (s.set name raw)
  | some current =>
    match current.add raw with
    | .ok value => .ok (s.insert name value)
    | .error .typeMismatch => .error (.typeMismatch name raw current)
    | .error .overflow => .error (.overflow name raw)

/-- Adds a text to a variable unless that is refused. -/
def accumulate (s : Store) (name raw : String) : Store :=
  match s.add name raw with
  | .ok t => t
  | .error _ => s

theorem get?_set (s : Store) (name raw k : String) :
    (s.set name raw).get? k = if k = name then some (Value.infer raw) else s.get? k :=
  Table.get?_insert s name k _

theorem add_of_get?_none {s : Store} {name raw : String} (h : s.get? name = none) :
    s.add name raw = .ok (s.set name raw) := by
  rw [add, h]

theorem get?_of_add {s t : Store} {name raw k : String} (h : s.add name raw = .ok t)
    (hk : k ≠ name) : t.get? k = s.get? k := by
  rw [add] at h
  split at h
  · cases h
    rw [get?_set, if_neg hk]
  · split at h <;> cases h
    exact Table.get?_insert_of_ne hk

end Store

end Dialogue
