import Dialogue.Json.Number
namespace Dialogue

/-- A value of JSON; a string or a key without a text names half of a surrogate pair. -/
inductive Json where
  | null
  | bool (b : Bool)
  | number (n : JsonNumber)
  | string (s : Option String)
  | array (items : List Json)
  | object (members : List (Option String × Json))

namespace Json

def text (s : String) : Json :=
  .string (some s)

def nat (n : Nat) : Json :=
  .number (.ofNat n)

def record (members : List (String × Json)) : Json :=
  .object (members.map fun m => (some m.1, m.2))

def ofOption {α : Type} (f : α → Json) : Option α → Json
  | some a => f a
  | none => .null

def ofList {α : Type} (f : α → Json) (xs : List α) : Json :=
  .array (xs.map f)

def text? : Json → Option String
  | .string s => s
  | _ => none

def bool? : Json → Option Bool
  | .bool b => some b
  | _ => none

def nat? : Json → Option Nat
  | .number n => n.nat?
  | _ => none

def float32? : Json → Option Float32
  | .number n => n.float32?
  | _ => none

def array? : Json → Option (List Json)
  | .array items => some items
  | _ => none

def list? {α : Type} (f : Json → Option α) (j : Json) : Option (List α) :=
  j.array?.bind (·.mapM f)

def option? {α : Type} (f : Json → Option α) : Json → Option (Option α)
  | .null => some none
  | j => (f j).map some

def object? : Json → Option (List (String × Json))
  | .object members => members.mapM fun m => m.1.map (·, m.2)
  | _ => none

/-- The value of a key that occurs once, or nothing for a key that does not occur. -/
def member? (members : List (String × Json)) (key : String) : Option (Option Json) :=
  match members.filter (·.1 = key) with
  | [] => some none
  | [m] => some (some m.2)
  | _ => none

/-- The values of the keys of an object, in the order of the names; other keys do not count. -/
def members? (names : List String) (j : Json) : Option (List (Option Json)) :=
  j.object?.bind fun members => names.mapM (member? members)

/-- The fields of a record: an object, or an array that gives the fields in order and may leave out
the last ones. -/
def fields? (names : List String) : Json → Option (List (Option Json))
  | .array items =>
    if items.length ≤ names.length then
      some (items.map some ++ List.replicate (names.length - items.length) none)
    else none
  | j => j.members? names

def required {α : Type} (f : Json → Option α) (field : Option Json) : Option α :=
  field.bind f

def optional {α : Type} (f : Json → Option α) : Option Json → Option (Option α)
  | none => some none
  | some j => option? f j

def withDefault {α : Type} (f : Json → Option α) (value : α) : Option Json → Option α
  | none => some value
  | some j => f j

/-- A case of a union: the name of the case with its contents, or the name alone. -/
def case? : Json → Option (String × Option Json)
  | .string s => s.map (·, none)
  | j =>
    match j.object? with
    | some [(name, contents)] => some (name, some contents)
    | _ => none

end Json

end Dialogue
