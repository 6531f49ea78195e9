import Dialogue.Decimal.Numeral
import Dialogue.Proofs.Decimal.Rounding
namespace Dialogue.Decimal

open Float.Model (Format UnpackedFloat totalExponent)
open Float.Model.UnpackedFloat

namespace Double

/-- A finite number, in units of the smallest positive one: 2 to the -1074. -/
def unpackedUnits : UnpackedFloat → Int
  | .finite s m e _ => s.apply (m * 2 ^ (e + 1074).toNat : Nat)
  | _ => 0

theorem unpackedUnits_finite (s : Sign) (m : Nat) (e : Int) (hp : 0 < m) :
    unpackedUnits (.finite s m e hp) = s.apply (m * 2 ^ (e + 1074).toNat : Nat) :=
  rfl

theorem unpackedUnits_zero (s : Sign) : unpackedUnits (.zero s) = 0 :=
  rfl

/-- Halfway from the largest number to 2 to the 1024, in the same units: numbers from here on become
infinite. -/
def limit : Nat :=
  (2 ^ 54 - 1) * 2 ^ 2044

section Bits

variable {b : BitVec Format.binary64.numBits} {s : Sign} {m : Nat} {e : Int} {hp : 0 < m}

theorem isFinite_unpack_iff :
    (unpack Format.binary64 b).isFinite = true ↔ @unpackExponent Format.binary64 b ≠ -1#11 := by
  delta unpack
  by_cases htop : @unpackExponent Format.binary64 b = -1#11
  · rw [if_pos htop]
    apply iff_of_false _ (not_not_intro htop)
    by_cases hm : @unpackMantissa Format.binary64 b = 0#52
    · rw [if_pos hm]
      exact Bool.false_ne_true
    · rw [if_neg hm]
      exact Bool.false_ne_true
  · rw [if_neg htop]
    apply iff_of_true _ htop
    by_cases hzero : @unpackExponent Format.binary64 b = 0#11
    · rw [if_pos hzero]
      by_cases hm : @unpackMantissa Format.binary64 b = 0#52
      · rw [dif_pos hm]
        rfl
      · rw [dif_neg hm]
        rfl
    · rw [if_neg hzero]
      rfl

theorem bounds_of_unpack (h : unpack Format.binary64 b = .finite s m e hp) :
    m < 2 ^ 53 ∧ -1074 ≤ e ∧ e ≤ 971 := by
  have hm : (@unpackMantissa Format.binary64 b).toNat < 2 ^ 52 := BitVec.isLt _
  have hn : (1#1 ++ @unpackMantissa Format.binary64 b).toNat < 2 ^ 53 := BitVec.isLt _
  have he : (@unpackExponent Format.binary64 b).toNat < 2 ^ 11 := BitVec.isLt _
  have hb : (Format.binary64.exponentBias : Int) +
      Format.binary64.mantissaBitsWithoutImplicit = 1075 := by decide
  delta unpack at h
  by_cases htop : @unpackExponent Format.binary64 b = -1#11
  · rw [if_pos htop] at h
    by_cases hzm : @unpackMantissa Format.binary64 b = 0#52
    · rw [if_pos hzm] at h
      cases h
    · rw [if_neg hzm] at h
      cases h
  rw [if_neg htop] at h
  by_cases hzero : @unpackExponent Format.binary64 b = 0#11
  · rw [if_pos hzero] at h
    by_cases hzm : @unpackMantissa Format.binary64 b = 0#52
    · rw [dif_pos hzm] at h
      cases h
    · rw [dif_neg hzm] at h
      cases h
      rw [hzero, hb]
      exact ⟨by omega, by decide, by decide⟩
  · rw [if_neg hzero] at h
    cases h
    have h0 : (@unpackExponent Format.binary64 b).toNat ≠ 0 := by
      intro h
      exact hzero (BitVec.eq_of_toNat_eq h)
    have h1 : (@unpackExponent Format.binary64 b).toNat ≠ 2047 := by
      intro h
      exact htop (BitVec.eq_of_toNat_eq h)
    rw [hb]
    exact ⟨hn, by omega, by omega⟩

theorem isFinite_packComponents {ex : BitVec 11} (s : Sign) (m : BitVec 52) (h : ex ≠ -1#11) :
    (unpack Format.binary64 (packComponents Format.binary64 s ex m)).isFinite = true := by
  rw [isFinite_unpack_iff, unpackExponent_packComponents]
  exact h

theorem pack_cases (s : Sign) (m : Nat) (e : Int) (hp : 0 < m) :
    e ≤ 971 ∧
      (unpack Format.binary64 (pack Format.binary64 (.finite s m e hp))).isFinite = true ∨
    971 < e ∧ unpack Format.binary64 (pack Format.binary64 (.finite s m e hp)) = .infinity s := by
  have hpack : pack Format.binary64 (.finite s m e hp) =
      if 2048 ≤ (e + 1023 + 52).toNat + 1 then packedInfinity Format.binary64 s
      else if m.log2 + 1 = 53 then
        packComponents Format.binary64 s (BitVec.ofNat 11 (e + 1023 + 52).toNat)
          (BitVec.ofNat 52 m)
      else packComponents Format.binary64 s 0#11 (BitVec.ofNat 52 m) := rfl
  rw [hpack]
  by_cases htop : 2048 ≤ (e + 1023 + 52).toNat + 1
  · rw [if_pos htop]
    refine .inr ⟨by omega, ?_⟩
    cases s <;> rfl
  · rw [if_neg htop]
    refine .inl ⟨by omega, ?_⟩
    split
    · apply isFinite_packComponents
      intro h
      have hn := congrArg BitVec.toNat h
      rw [BitVec.toNat_ofNat] at hn
      change _ = 2047 at hn
      omega
    · exact isFinite_packComponents _ _ (by decide)

theorem isFinite_unpack_pack :
    (unpack Format.binary64 (pack Format.binary64 (.finite s m e hp))).isFinite = true ↔
      e ≤ 971 := by
  rcases pack_cases s m e hp with ⟨he, hf⟩ | ⟨he, hi⟩
  · exact iff_of_true hf he
  · rw [hi]
    exact iff_of_false Bool.false_ne_true (by omega)

theorem isNaN_of_isFinite {f : UnpackedFloat} (h : f.isFinite = true) : f.isNaN = false := by
  cases f with
  | notANumber => cases h
  | _ => rfl

theorem isNaN_unpack_pack {f : UnpackedFloat} (h : f.isNaN = false) :
    (unpack Format.binary64 (pack Format.binary64 f)).isNaN = false := by
  cases f with
  | notANumber => cases h
  | infinity s => cases s <;> rfl
  | zero s => cases s <;> rfl
  | finite s m e hp =>
    rcases pack_cases s m e hp with ⟨-, hf⟩ | ⟨-, hi⟩
    · exact isNaN_of_isFinite hf
    · rw [hi]
      rfl

end Bits

section Round

variable {n : Nat} {e : Int}

def place (n : Nat) (e : Int) : Int :=
  Format.binary64.targetExponent (totalExponent n e)

theorem place_eq (n : Nat) (e : Int) : place n e = max (n.log2 + e - 52) (-1074) := by
  change max ((n.log2 : Int) + 1 + e - 53) (-1074) = _
  omega

def rounded (n : Nat) (e : Int) : Nat :=
  ((⟨n, false, false⟩ : ExtendedMantissa) >>> (place n e - e).toNat).roundedMantissa

theorem rounded_mem (hn : 0 < n) (he : -1074 ≤ e) : 0 < rounded n e ∧ rounded n e ≤ 2 ^ 53 := by
  have hr := roundedMantissa_mem ((⟨n, false, false⟩ : ExtendedMantissa) >>> (place n e - e).toNat)
  rw [mantissa_shiftRight] at hr
  dsimp only at hr
  have hlow := Nat.log2_self_le (Nat.ne_of_gt hn)
  have hhigh := Nat.lt_log2_self (n := n)
  rw [rounded]
  have hp := place_eq n e
  generalize hk : (place n e - e).toNat = k at hr ⊢
  have hpos : 0 < n / 2 ^ k := by
    refine Nat.div_pos (Nat.le_trans (Nat.pow_le_pow_right Nat.two_pos ?_) hlow) (Nat.two_pow_pos k)
    omega
  have hlt : n / 2 ^ k < 2 ^ 53 := by
    rw [Nat.div_lt_iff_lt_mul (Nat.two_pow_pos k), ← Nat.pow_add]
    refine Nat.lt_of_lt_of_le hhigh (Nat.pow_le_pow_right Nat.two_pos ?_)
    omega
  omega

theorem carry_eq {r : Nat} (hr : 0 < r) (hr' : r ≤ 2 ^ 53) (he : -1074 ≤ e) :
    (place r e - e).toNat = if r < 2 ^ 53 then 0 else 1 := by
  rw [place_eq]
  split
  · next h =>
    have hl := (Nat.log2_lt (Nat.ne_of_gt hr)).mpr h
    omega
  · next h =>
    obtain rfl : r = 2 ^ 53 := by omega
    rw [Nat.log2_two_pow]
    omega

theorem exists_roundWithAccuracy (s : Sign) (hn : 0 < n) (he : -1074 ≤ e) (hp : e ≤ place n e) :
    ∃ m hm, roundWithAccuracy Format.binary64 s n e .exact =
      .finite s m (place n e + (if rounded n e < 2 ^ 53 then 0 else 1 : Nat)) hm := by
  obtain ⟨hpos, hle⟩ := rounded_mem hn he
  have hcarry := carry_eq hpos hle (Int.le_trans he hp)
  have hshift (n : Nat) (e : Int) : shiftToTargetExponent Format.binary64 n e .exact =
      ((⟨n, false, false⟩ : ExtendedMantissa) >>> (place n e - e).toNat,
        e + (place n e - e).toNat) := rfl
  have hplace : e + ((place n e - e).toNat : Int) = place n e := by omega
  have hm : ((⟨rounded n e, false, false⟩ : ExtendedMantissa) >>>
      (if rounded n e < 2 ^ 53 then 0 else 1)).mantissa ≠ 0 := by
    rw [mantissa_shiftRight]
    dsimp only
    split <;> omega
  refine ⟨_, Nat.pos_of_ne_zero hm, ?_⟩
  rw [roundWithAccuracy, hshift n e, hplace]
  dsimp only
  rw [← rounded, hshift, hcarry]
  exact dif_neg hm

section Scale

-- For any `d` in place of 2044: the powers in `limit` are too large to be evaluated.
variable {d k : Nat}

theorem two_pow_le_scaled (h : k ≤ 53 + d) : 2 ^ k ≤ (2 ^ 54 - 1) * 2 ^ d := by
  refine Nat.le_trans (Nat.pow_le_pow_right Nat.two_pos h) ?_
  rw [Nat.pow_add]
  exact Nat.mul_le_mul_right _ (by decide)

theorem scaled_le_two_pow (h : 54 + d ≤ k) : (2 ^ 54 - 1) * 2 ^ d ≤ 2 ^ k := by
  refine Nat.le_trans ?_ (Nat.pow_le_pow_right Nat.two_pos h)
  rw [Nat.pow_add]
  exact Nat.mul_le_mul_right _ (by decide)

theorem mul_two_pow_lt_scaled (h : n < 2 ^ 53) (hk : k ≤ d + 1) :
    n * 2 ^ k < (2 ^ 54 - 1) * 2 ^ d := by
  refine Nat.lt_of_le_of_lt (Nat.mul_le_mul_left n (Nat.pow_le_pow_right Nat.two_pos hk)) ?_
  rw [Nat.pow_succ, Nat.mul_comm (2 ^ d), ← Nat.mul_assoc]
  exact Nat.mul_lt_mul_of_pos_right (by omega) (Nat.two_pow_pos d)

theorem mul_two_pow_lt_scaled_iff {j : Nat} (h : j + k = d) :
    n * 2 ^ j < (2 ^ 54 - 1) * 2 ^ d ↔ n < (2 ^ 54 - 1) * 2 ^ k := by
  rw [← h, Nat.pow_add, Nat.mul_comm (2 ^ j), ← Nat.mul_assoc]
  exact Nat.mul_lt_mul_right (Nat.two_pow_pos j)

end Scale

/-- A number is rounded to infinity just from the limit on. -/
theorem place_le_iff (hn : 0 < n) (he : -1074 ≤ e) (hp : e ≤ place n e) :
    place n e + (if rounded n e < 2 ^ 53 then 0 else 1 : Nat) ≤ 971 ↔
      n * 2 ^ (e + 1074).toNat < limit := by
  have hlow := Nat.log2_self_le (Nat.ne_of_gt hn)
  have hhigh := Nat.lt_log2_self (n := n)
  have hpe := place_eq n e
  rcases Int.lt_trichotomy (place n e) 971 with ht | ht | ht
  · have hl : n.log2 + 1 + (e + 1074).toNat ≤ 53 + 2044 := by omega
    refine iff_of_true (by split <;> omega) (Nat.lt_of_lt_of_le ?_ (two_pow_le_scaled hl))
    rw [Nat.pow_add]
    exact Nat.mul_lt_mul_of_pos_right hhigh (Nat.two_pow_pos _)
  · -- The last exponent below infinity: all depends on the carry.
    have hcarry : place n e + (if rounded n e < 2 ^ 53 then 0 else 1 : Nat) ≤ 971 ↔
        rounded n e < 2 ^ 53 := by
      rw [ht]
      split <;> omega
    rw [hcarry, rounded]
    cases hk : (place n e - e).toNat with
    | zero =>
      have hl : n < 2 ^ 53 := Nat.lt_of_lt_of_le hhigh
        (Nat.pow_le_pow_right Nat.two_pos (by omega))
      exact iff_of_true hl (mul_two_pow_lt_scaled hl (by omega))
    | succ k =>
      have hl : n / 2 ^ k < 2 ^ 54 := by
        rw [Nat.div_lt_iff_lt_mul (Nat.two_pow_pos k), ← Nat.pow_add]
        exact Nat.lt_of_lt_of_le hhigh (Nat.pow_le_pow_right Nat.two_pos (by omega))
      have hj : (e + 1074).toNat + k = 2044 := by omega
      rw [roundedMantissa_lt_iff hl, limit, mul_two_pow_lt_scaled_iff hj]
  · have hl : 54 + 2044 ≤ n.log2 + (e + 1074).toNat := by omega
    refine iff_of_false (by split <;> omega)
      (Nat.not_lt_of_le (Nat.le_trans (scaled_le_two_pow hl) ?_))
    rw [Nat.pow_add]
    exact Nat.mul_le_mul_right _ hlow

theorem exists_round (s : Sign) (hn : 0 < n) (he : -1074 ≤ e) :
    ∃ m e' hm, round Format.binary64 s n e = .finite s m e' hm ∧
      (e' ≤ 971 ↔ n * 2 ^ (e + 1074).toNat < limit) := by
  have hround : round Format.binary64 s n e =
      roundWithAccuracy Format.binary64 s (n <<< (e - place n e).toNat)
        (e - (e - place n e).toNat) .exact := rfl
  have hpe := place_eq n e
  rw [hround, Nat.shiftLeft_eq]
  generalize hk : (e - place n e).toNat = k
  have hn' : 0 < n * 2 ^ k := Nat.mul_pos hn (Nat.two_pow_pos k)
  have hplace : place (n * 2 ^ k) (e - k) = place n e := by
    rw [place_eq, place_eq, log2_mul_two_pow hn]
    omega
  have he' : -1074 ≤ e - k := by omega
  have hle : e - k ≤ place (n * 2 ^ k) (e - k) := by omega
  have hunits : n * 2 ^ k * 2 ^ (e - k + 1074).toNat = n * 2 ^ (e + 1074).toNat := by
    rw [Nat.mul_assoc, ← Nat.pow_add]
    congr
    omega
  obtain ⟨m, hm, hr⟩ := exists_roundWithAccuracy s hn' he' hle
  refine ⟨m, _, hm, hr, ?_⟩
  rw [place_le_iff hn' he' hle, hunits]

end Round

end Double

end Dialogue.Decimal
