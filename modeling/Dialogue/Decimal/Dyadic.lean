namespace Dialogue.Decimal

/-- The exact value of a finite binary number: `mantissa` times two to the `exponent`. -/
structure Dyadic where
  negative : Bool
  mantissa : Nat
  exponent : Int
deriving DecidableEq, Repr

def Dyadic.ratio (d : Dyadic) : Nat × Nat :=
  (d.mantissa <<< d.exponent.toNat, 1 <<< (-d.exponent).toNat)

/-- Reads the fields of a binary interchange format with the given widths; a full exponent field
stands for no number. -/
def Dyadic.ofBits? (fractionBits exponentBits bits : Nat) : Option Dyadic :=
  let fraction := bits % (1 <<< fractionBits)
  let field := (bits >>> fractionBits) % (1 <<< exponentBits)
  let negative := (bits >>> (fractionBits + exponentBits)) % 2 == 1
  let bias := 1 <<< (exponentBits - 1)
  let least : Int := 2 - (bias : Int) - fractionBits
  if field + 1 = 1 <<< exponentBits then none
  else if field = 0 then some ⟨negative, fraction, least⟩
  else some ⟨negative, (1 <<< fractionBits) + fraction, least + field - 1⟩

def Dyadic.ofFloat? (x : Float) : Option Dyadic :=
  ofBits? 52 11 x.toBits.toNat

def Dyadic.ofFloat32? (x : Float32) : Option Dyadic :=
  ofBits? 23 8 x.toBits.toNat

end Dialogue.Decimal
