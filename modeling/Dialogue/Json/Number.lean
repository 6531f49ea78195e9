import Dialogue.Decimal.Numeral
namespace Dialogue

/-- A number as it is written; a point and the mark of an exponent stand only before digits. -/
structure JsonNumber where
  negative : Bool
  whole : List Char
  fraction : List Char
  exponent : Option Int
deriving DecidableEq, Repr

namespace JsonNumber

def ofNat (n : Nat) : JsonNumber :=
  ⟨false, Nat.toDigits 10 n, [], none⟩

def isInteger (x : JsonNumber) : Bool :=
  x.fraction.isEmpty && x.exponent.isNone

def nat? (x : JsonNumber) : Option Nat :=
  let n := Decimal.digitsValue x.whole
  if x.isInteger ∧ !x.negative ∧ n < UInt64.size then some n else none

theorem nat?_ofNat {n : Nat} (h : n < UInt64.size) : (ofNat n).nat? = some n := by
  simp [nat?, ofNat, isInteger, Decimal.digitsValue_toDigits, h]

/-- Puts digits behind a number up to the first that no longer fits in 64 bits, and counts them. -/
def appendDigits (n : Nat) : List Char → Nat × Nat
  | [] => (n, 0)
  | c :: r =>
    let m := 10 * n + Decimal.digitValue c
    if m < UInt64.size then
      let (total, count) := appendDigits m r
      (total, count + 1)
    else (n, 0)

/-- The digits in 64 bits: those of the whole part that do not fit count as zeros, those of the
fraction are left out. -/
def scientific (x : JsonNumber) : Decimal.Scientific :=
  let (n, count) := appendDigits 0 x.whole
  let (n, places) := appendDigits n x.fraction
  ⟨n, x.whole.length - count - places + x.exponent.getD 0⟩

def powerOfTen (n : Nat) : Float :=
  Float.ofScientific 1 false n

/-- A double times a power of ten, by factors that are doubles themselves, unless the product is
infinite. -/
def scale? (x : Float) (exponent : Int) : Option Float :=
  if -308 ≤ exponent ∧ exponent < 0 then some (x / powerOfTen (-exponent).toNat)
  else if 0 ≤ exponent ∧ exponent ≤ 308 then
    (some (x * powerOfTen exponent.toNat)).filter Float.isFinite
  else if x == 0 then some x
  else if 0 ≤ exponent then none
  else scale? (x / powerOfTen 308) (exponent + 308)
termination_by (-exponent).toNat
decreasing_by omega

/-- A double near the number, one or two steps away from it at times: the digits are rounded first
and scaled then. -/
def float? (x : JsonNumber) : Option Float :=
  let n := x.scientific
  let value := scale? (UInt64.ofNat n.digits).toFloat n.exponent
  if x.negative then value.map fun y => -y else value

/-- A number of single precision; integers of 64 bits are rounded once, all else by way of a double.
-/
def float32? (x : JsonNumber) : Option Float32 :=
  let n := Decimal.digitsValue x.whole
  if x.isInteger ∧ !x.negative ∧ n < UInt64.size then some (UInt64.ofNat n).toFloat32
  else if x.isInteger ∧ x.negative ∧ 0 < n ∧ n ≤ UInt64.size / 2 then
    some (-(UInt64.ofNat n).toFloat32)
  else x.float?.map Float.toFloat32

end JsonNumber

end Dialogue
