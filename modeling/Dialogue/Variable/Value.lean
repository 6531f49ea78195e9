import Dialogue.Decimal.Numeral
import Dialogue.Decimal.Shortest
import Dialogue.Text.Blank
namespace Dialogue

inductive Value where
  | int (n : Int64)
  | float (x : Float)
  | string (s : String)

namespace Value

/-- Reads a text as an integer, else as a finite number, else keeps it; white space around a number
does not count. -/
def infer (raw : String) : Value :=
  let text := Text.trim raw.toList
  match Decimal.int64? text with
  | some n => .int n
  | none =>
    match Decimal.finite? text with
    | some x => .float x
    | none => .string raw

def typeName : Value → String
  | .int _ => "Int"
  | .float _ => "Float"
  | .string _ => "String"

def text : Value → String
  | .int n => toString n.toInt
  | .float x => Decimal.shortest x
  | .string s => s

inductive Refusal where
  | typeMismatch
  | overflow
deriving DecidableEq, Repr

def addInt (m n : Int64) : Except Refusal Int64 :=
  match Decimal.toInt64? (m.toInt + n.toInt) with
  | some k => .ok k
  | none => .error .overflow

/-- Adds in the type of the value: an integer, a finite number, or any text as it stands. -/
def add (v : Value) (raw : String) : Except Refusal Value :=
  match v with
  | .int m =>
    match Decimal.int64? (Text.trim raw.toList) with
    | some n => (addInt m n).map .int
    | none => .error .typeMismatch
  | .float x =>
    match Decimal.finite? (Text.trim raw.toList) with
    | some y => .ok (.float (x + y))
    | none => .error .typeMismatch
  | .string s => .ok (.string (s ++ raw))

theorem typeName_of_add {v w : Value} {raw : String} (h : v.add raw = .ok w) :
    w.typeName = v.typeName := by
  cases v with
  | int m =>
    rw [add] at h
    split at h
    · next n _ =>
      cases ha : addInt m n with
      | error e => simp [ha, Except.map] at h
      | ok k => simp only [ha, Except.map, Except.ok.injEq] at h; subst h; rfl
    · cases h
  | float x =>
    rw [add] at h
    split at h
    · cases h; rfl
    · cases h
  | string s => cases h; rfl

end Value

end Dialogue
