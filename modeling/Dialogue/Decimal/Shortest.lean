import Dialogue.Decimal.Dyadic
namespace Dialogue.Decimal

/-- The `k` with `10 ^ (k - 1) ≤ num / den < 10 ^ k`, for a positive ratio. -/
def leadingPlace (num den : Nat) : Int :=
  if den ≤ num then (Nat.toDigits 10 (num / den)).length
  else 1 - ((Nat.toDigits 10 ((den + num - 1) / num - 1)).length : Int)

/-- The numbers that round to a binary number, all over one denominator. -/
structure Neighbourhood where
  low : Nat
  value : Nat
  high : Nat
  den : Nat
  /-- Whether the two ends belong to it. -/
  closed : Bool

/-- Half a step to either side; below a power of two the steps are half as wide. -/
def Dyadic.neighbourhood (d : Dyadic) (fractionBits : Nat) (least : Int) : Neighbourhood :=
  let unit : Dyadic := ⟨false, 1, d.exponent - 2⟩
  let (u, den) := unit.ratio
  let below := if d.mantissa = 1 <<< fractionBits ∧ least < d.exponent then 1 else 2
  { low := (4 * d.mantissa - below) * u
    value := 4 * d.mantissa * u
    high := (4 * d.mantissa + 2) * u
    den := den
    closed := d.mantissa % 2 == 0 }

/-- The point of the decimal grid of step `10 ^ e` nearest to the value that lies in the
neighbourhood; a tie goes up. -/
def Neighbourhood.gridPoint? (n : Neighbourhood) (e : Int) : Option Nat :=
  let scale := Nat.pow 10 (-e).toNat
  let den := n.den * Nat.pow 10 e.toNat
  let below := n.value * scale / den
  let above := below + 1
  let lowIn := if n.closed then n.low * scale ≤ below * den else n.low * scale < below * den
  let highIn := if n.closed then above * den ≤ n.high * scale else above * den < n.high * scale
  if lowIn ∧ highIn then
    some (if 2 * (n.value * scale) < (2 * below + 1) * den then below else above)
  else if lowIn then some below
  else if highIn then some above
  else none

/-- Tries one digit more at a time; seventeen digits always suffice for a double. -/
def Neighbourhood.search (n : Neighbourhood) (place : Int) : Nat → Nat → Nat × Int
  | 0, digits => (n.value * Nat.pow 10 (digits - place).toNat / n.den, place - digits)
  | fuel + 1, digits =>
    match n.gridPoint? (place - digits) with
    | some point => (point, place - digits)
    | none => n.search place fuel (digits + 1)

def dropZeros : Nat → Nat × Int → Nat × Int
  | 0, p => p
  | fuel + 1, (n, e) => if e < 0 ∧ n % 10 = 0 then dropZeros fuel (n / 10, e + 1) else (n, e)

def positional (n : Nat) (e : Int) : List Char :=
  let digits := Nat.toDigits 10 n
  let places := (-e).toNat
  if 0 ≤ e then digits ++ List.replicate e.toNat '0'
  else if places < digits.length then
    digits.take (digits.length - places) ++ '.' :: digits.drop (digits.length - places)
  else '0' :: '.' :: List.replicate (places - digits.length) '0' ++ digits

/-- The fewest decimal digits that read back as the number, without an exponent. -/
def shortest (x : Float) : String :=
  match Dyadic.ofFloat? x with
  | none => if x.isNaN then "NaN" else if x < 0 then "-inf" else "inf"
  | some d =>
    let sign := if d.negative then ['-'] else []
    if d.mantissa = 0 then String.ofList (sign ++ ['0'])
    else
      let n := d.neighbourhood 52 (-1074)
      let (point, e) := dropZeros 17 (n.search (leadingPlace n.value n.den) 17 1)
      String.ofList (sign ++ positional point e)

end Dialogue.Decimal
