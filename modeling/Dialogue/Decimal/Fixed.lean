import Dialogue.Decimal.Dyadic
namespace Dialogue.Decimal

/-- The whole number nearest to a ratio; a tie goes to the even one. -/
def roundRatio (num den : Nat) : Nat :=
  let q := num / den
  let r := num % den
  if 2 * r < den then q
  else if den < 2 * r then q + 1
  else if q % 2 = 0 then q else q + 1

def fixedDigits (places n : Nat) : List Char :=
  let fraction := Nat.toDigits 10 (n % Nat.pow 10 places)
  Nat.toDigits 10 (n / Nat.pow 10 places) ++
    '.' :: (List.replicate (places - fraction.length) '0' ++ fraction)

/-- The number rounded to a fixed count of places; what rounds to zero has no sign. -/
def fixed (places : Nat) (x : Float32) : String :=
  match Dyadic.ofFloat32? x with
  | none => if x.isNaN then "NaN" else if x < 0 then "-inf" else "inf"
  | some d =>
    let (num, den) := d.ratio
    let n := roundRatio (num * Nat.pow 10 places) den
    String.ofList ((if d.negative ∧ n ≠ 0 then ['-'] else []) ++ fixedDigits places n)

end Dialogue.Decimal
