namespace Dialogue.Decimal

def digitValue (c : Char) : Nat :=
  c.toNat - '0'.toNat

def digitsValue (s : List Char) : Nat :=
  s.foldl (fun n c => 10 * n + digitValue c) 0

theorem digitsValue_toDigits (n : Nat) : digitsValue (Nat.toDigits 10 n) = n :=
  Nat.ofDigitChars_ten_toDigits

def natural? (s : List Char) : Option Nat :=
  if s ≠ [] ∧ s.all Char.isDigit then some (digitsValue s) else none

/-- Digits after an optional plus sign; the number fits in 64 bits. -/
def index? (s : List Char) : Option Nat :=
  let digits := match s with
    | '+' :: r => r
    | _ => s
  (natural? digits).filter (· < UInt64.size)

def integer? : List Char → Option Int
  | '-' :: r => (natural? r).map fun n => -(n : Int)
  | '+' :: r => (natural? r).map fun n => (n : Int)
  | s => (natural? s).map fun n => (n : Int)

def toInt64? (n : Int) : Option Int64 :=
  if Int64.minValue.toInt ≤ n ∧ n ≤ Int64.maxValue.toInt then some (Int64.ofInt n) else none

theorem toInt_of_toInt64? {n : Int} {x : Int64} (h : toInt64? n = some x) : x.toInt = n := by
  rw [toInt64?] at h
  split at h
  · next hn =>
    cases h
    exact Int64.toInt_ofInt_of_le hn.1 (Int.lt_add_one_of_le hn.2)
  · cases h

def int64? (s : List Char) : Option Int64 :=
  (integer? s).bind toInt64?

/-- A number in decimal notation: `digits` times ten to the `exponent`. -/
structure Scientific where
  digits : Nat
  exponent : Int
deriving DecidableEq, Repr

def Scientific.toFloat (x : Scientific) : Float :=
  if x.digits = 0 then 0
  else
    let place := (Nat.toDigits 10 x.digits).length + x.exponent
    if 400 < place then Float.ofScientific 1 false 400
    else if place < -400 then 0
    else if x.exponent < 0 then Float.ofScientific x.digits true (-x.exponent).toNat
    else Float.ofScientific x.digits false x.exponent.toNat

def exponent? : List Char → Option Int
  | [] => some 0
  | c :: r => if c = 'e' ∨ c = 'E' then integer? r else none

/-- Digits with an optional fraction and an optional exponent; one digit at least on either side of
the point. -/
def scientific? (s : List Char) : Option Scientific :=
  let whole := s.takeWhile Char.isDigit
  let (fraction, rest) := match s.dropWhile Char.isDigit with
    | '.' :: r => (r.takeWhile Char.isDigit, r.dropWhile Char.isDigit)
    | r => ([], r)
  if whole = [] ∧ fraction = [] then none
  else (exponent? rest).map fun e => ⟨digitsValue (whole ++ fraction), e - fraction.length⟩

/-- A finite number in decimal notation, read as the nearest double. -/
def finite? (s : List Char) : Option Float :=
  let value := match s with
    | '-' :: r => (scientific? r).map fun x : Scientific => -x.toFloat
    | '+' :: r => (scientific? r).map Scientific.toFloat
    | _ => (scientific? s).map Scientific.toFloat
  value.filter Float.isFinite

theorem finite?_isFinite {s : List Char} {x : Float} (h : finite? s = some x) :
    x.isFinite = true :=
  (Option.filter_eq_some_iff.mp h).2

end Dialogue.Decimal
