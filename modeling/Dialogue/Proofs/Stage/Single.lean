import Dialogue.Proofs.Decimal.Rounding
import Dialogue.Stage.Act
namespace Dialogue

open Float.Model (Format UnpackedFloat totalExponent)
open Float.Model.UnpackedFloat

namespace Single

theorem ofBitVec_toBitVec (s : Sign) : Sign.ofBitVec s.toBitVec = s := by
  cases s <;> rfl

theorem finite_congr {s : Sign} {m m' : Nat} {e e' : Int} (hm : m = m') (he : e = e')
    (hp : 0 < m) (hp' : 0 < m') : finite s m e hp = finite s m' e' hp' := by
  subst hm he
  rfl

/-- The number that a sign, an exponent and a mantissa stand for. -/
def decode (s : Sign) (e : BitVec 8) (m : BitVec 23) : UnpackedFloat :=
  if e = -1#8 then if m = 0#23 then .infinity s else .notANumber
  else if e = 0#8 then
    if h : m = 0#23 then .zero s
    else .finite s m.toNat (-149) (by simpa [BitVec.toNat_pos, BitVec.pos_iff_ne_zero])
  else .finite s (2 ^ 23 + m.toNat) (e.toNat - 150) (by omega)

theorem unpack_eq_decode (b : BitVec Format.binary32.numBits) :
    unpack Format.binary32 b =
      decode (Sign.ofBitVec (@unpackSign Format.binary32 b)) (@unpackExponent Format.binary32 b)
        (@unpackMantissa Format.binary32 b) := by
  have hn : (1#1 ++ @unpackMantissa Format.binary32 b).toNat =
      2 ^ 23 + (@unpackMantissa Format.binary32 b).toNat := by
    rw [BitVec.toNat_append, ← Nat.shiftLeft_add_eq_or_of_lt (BitVec.isLt _)]
    rfl
  delta unpack decode
  by_cases htop : @unpackExponent Format.binary32 b = -1#8
  · rw [if_pos htop, if_pos htop]
  · rw [if_neg htop, if_neg htop]
    by_cases he : @unpackExponent Format.binary32 b = 0#8
    · rw [if_pos he, if_pos he]
      by_cases hm : @unpackMantissa Format.binary32 b = 0#23
      · rw [dif_pos hm, dif_pos hm]
      · rw [dif_neg hm, dif_neg hm]
        apply finite_congr rfl
        rw [he]
        rfl
    · rw [if_neg he, if_neg he]
      exact finite_congr hn rfl _ _

theorem unpackSign_packComponents {spec : Format} (s : Sign) (e : BitVec spec.exponentBits)
    (m : BitVec spec.mantissaBitsWithoutImplicit) :
    unpackSign (packComponents spec s e m) = s.toBitVec := by
  ext i hi
  have he : spec.mantissaBitsWithoutImplicit + spec.exponentBits + i -
      spec.mantissaBitsWithoutImplicit - spec.exponentBits = i := by omega
  change (BitVec.cast _ (BitVec.extractLsb _ _ (s.toBitVec ++ e ++ m)))[i] = _
  simp only [BitVec.getElem_cast, BitVec.getElem_extract, BitVec.getLsbD_append]
  rw [if_neg (by omega), if_neg (by omega), he, BitVec.getLsbD_eq_getElem]

theorem unpack_packComponents (s : Sign) (e : BitVec 8) (m : BitVec 23) :
    unpack Format.binary32 (packComponents Format.binary32 s e m) = decode s e m := by
  rw [unpack_eq_decode, unpackSign_packComponents, unpackExponent_packComponents,
    unpackMantissa_packComponents, ofBitVec_toBitVec]

def Storable : UnpackedFloat → Prop
  | .finite _ m e _ => m < 2 ^ 24 ∧ -149 ≤ e ∧ e ≤ 104 ∧ (2 ^ 23 ≤ m ∨ e = -149)
  | _ => True

theorem storable_decode (s : Sign) (e : BitVec 8) (m : BitVec 23) : Storable (decode s e m) := by
  have hm : m.toNat < 2 ^ 23 := m.isLt
  rw [decode]
  by_cases htop : e = -1#8
  · rw [if_pos htop]
    by_cases hz : m = 0#23
    · rw [if_pos hz]
      trivial
    · rw [if_neg hz]
      trivial
  · rw [if_neg htop]
    by_cases hzero : e = 0#8
    · rw [if_pos hzero]
      by_cases hz : m = 0#23
      · rw [dif_pos hz]
        trivial
      · rw [dif_neg hz]
        exact ⟨by omega, by decide, by decide, .inr rfl⟩
    · rw [if_neg hzero]
      have h0 : e.toNat ≠ 0 := by
        intro h
        exact hzero (BitVec.eq_of_toNat_eq h)
      have h255 : e.toNat ≠ 255 := by
        intro h
        exact htop (BitVec.eq_of_toNat_eq h)
      exact ⟨by omega, by omega, by omega, .inl (by omega)⟩

theorem decode_normal (s : Sign) {m : Nat} {e : Int} (hm : m < 2 ^ 24) (hn : 2 ^ 23 ≤ m)
    (hlow : -149 ≤ e) (hhigh : e ≤ 104) :
    decode s (BitVec.ofNat 8 (e + 150).toNat) (BitVec.ofNat 23 m) =
      .finite s m e (Nat.lt_of_lt_of_le (by decide) hn) := by
  have he : (BitVec.ofNat 8 (e + 150).toNat).toNat = (e + 150).toNat := by
    rw [BitVec.toNat_ofNat]
    omega
  have htop : BitVec.ofNat 8 (e + 150).toNat ≠ -1#8 := by
    intro h
    have h' := congrArg BitVec.toNat h
    rw [he] at h'
    change _ = 255 at h'
    omega
  have hzero : BitVec.ofNat 8 (e + 150).toNat ≠ 0#8 := by
    intro h
    have h' := congrArg BitVec.toNat h
    rw [he] at h'
    change _ = 0 at h'
    omega
  rw [decode, if_neg htop, if_neg hzero]
  apply finite_congr
  · rw [BitVec.toNat_ofNat]
    omega
  · rw [he]
    omega

theorem decode_subnormal (s : Sign) {m : Nat} (hp : 0 < m) (hm : m < 2 ^ 23) :
    decode s 0#8 (BitVec.ofNat 23 m) = .finite s m (-149) hp := by
  have hn : (BitVec.ofNat 23 m).toNat = m := by
    rw [BitVec.toNat_ofNat, Nat.mod_eq_of_lt hm]
  have hz : BitVec.ofNat 23 m ≠ 0#23 := by
    intro h
    have h' := congrArg BitVec.toNat h
    rw [hn] at h'
    change m = 0 at h'
    omega
  rw [decode, if_neg (by decide), if_pos rfl, dif_neg hz]
  exact finite_congr hn rfl _ _

theorem unpack_pack {f : UnpackedFloat} (h : Storable f) :
    unpack Format.binary32 (pack Format.binary32 f) = f := by
  cases f with
  | notANumber => rfl
  | infinity s => cases s <;> rfl
  | zero s => cases s <;> rfl
  | finite s m e hp =>
    obtain ⟨hm, hlow, hhigh, hc⟩ := h
    have hb : (e + 127 + 23).toNat = (e + 150).toNat := by omega
    have hpack : pack Format.binary32 (.finite s m e hp) =
        if 256 ≤ (e + 127 + 23).toNat + 1 then packedInfinity Format.binary32 s
        else if m.log2 + 1 = 24 then
          packComponents Format.binary32 s (BitVec.ofNat 8 (e + 127 + 23).toNat)
            (BitVec.ofNat 23 m)
        else packComponents Format.binary32 s 0#8 (BitVec.ofNat 23 m) := rfl
    rw [hpack, hb, if_neg (by omega)]
    by_cases hn : 2 ^ 23 ≤ m
    · have hl : m.log2 = 23 := (Nat.log2_eq_iff (Nat.ne_of_gt hp)).mpr ⟨hn, hm⟩
      rw [hl, if_pos rfl, unpack_packComponents]
      exact decode_normal s hm hn hlow hhigh
    · have hm' : m < 2 ^ 23 := Nat.lt_of_not_le hn
      have hl : m.log2 < 23 := (Nat.log2_lt (Nat.ne_of_gt hp)).mpr hm'
      obtain rfl := hc.resolve_left hn
      rw [if_neg (by omega), unpack_packComponents]
      exact decode_subnormal s hp hm'

theorem shiftRight_mul_two_pow (m j k : Nat) :
    (⟨m * 2 ^ (j + k), false, false⟩ : ExtendedMantissa) >>> k = ⟨m * 2 ^ j, false, false⟩ := by
  induction k generalizing j with
  | zero => rfl
  | succ k ih =>
    have hs : (⟨m * 2 ^ (j + (k + 1)), false, false⟩ : ExtendedMantissa) >>> (k + 1) =
        ((⟨m * 2 ^ (j + (k + 1)), false, false⟩ : ExtendedMantissa) >>> k).shiftRightOne := rfl
    rw [hs, Nat.add_comm k 1, ← Nat.add_assoc, ih (j + 1), Nat.pow_succ, ← Nat.mul_assoc]
    simp only [ExtendedMantissa.shiftRightOne, Nat.mul_mod_left, Nat.mul_div_cancel _ Nat.two_pos,
      bne_self_eq_false, Bool.or_false]

theorem shiftToTargetExponent_mul {s : Sign} {m : Nat} {e : Int} {hp : 0 < m}
    (h : Storable (.finite s m e hp)) (k : Nat) :
    shiftToTargetExponent Format.binary32 (m * 2 ^ k) (e - k) .exact =
      (⟨m, false, false⟩, e) := by
  obtain ⟨hm, hlow, -, hc⟩ := h
  have hl := Decimal.log2_mul_two_pow hp k
  have ht : Format.binary32.targetExponent (totalExponent (m * 2 ^ k) (e - k)) = e := by
    have hlt : m.log2 < 24 := (Nat.log2_lt (Nat.ne_of_gt hp)).mpr hm
    have hle : 2 ^ 23 ≤ m → 23 ≤ m.log2 := (Nat.le_log2 (Nat.ne_of_gt hp)).mpr
    rw [totalExponent, hl]
    change max (((m.log2 + k : Nat) : Int) + 1 + (e - k) - 24) (-149) = e
    omega
  have hk : (e - (e - k)).toNat = k := by omega
  have hs := shiftRight_mul_two_pow m 0 k
  rw [Nat.zero_add, Nat.pow_zero, Nat.mul_one] at hs
  rw [shiftToTargetExponent, ht, shiftToExponent]
  simp only [hk, ExtendedMantissa.ofMantissaAndAccuracy, hs, Int.sub_add_cancel]

theorem roundWithAccuracy_mul {s : Sign} {m : Nat} {e : Int} {hp : 0 < m}
    (h : Storable (.finite s m e hp)) (k : Nat) :
    roundWithAccuracy Format.binary32 s (m * 2 ^ k) (e - k) .exact = .finite s m e hp := by
  have h0 := shiftToTargetExponent_mul h 0
  rw [Nat.pow_zero, Nat.mul_one, Int.natCast_zero, Int.sub_zero] at h0
  have hm := congrArg (fun r => r.1.mantissa) h0
  rw [roundWithAccuracy, shiftToTargetExponent_mul h k]
  refine (dif_neg ?_).trans (finite_congr hm (congrArg Prod.snd h0) _ hp)
  intro hz
  exact Nat.ne_of_gt hp (hm.symm.trans hz)

def one : UnpackedFloat :=
  .finite .positive (2 ^ 23) (-23) (by decide)

theorem mul_one {f : UnpackedFloat} (h : Storable f) : mul Format.binary32 f one = f := by
  cases f with
  | notANumber => rfl
  | infinity s => cases s <;> rfl
  | zero s => cases s <;> rfl
  | finite s m e hp =>
    have hs : s * .positive = s := by cases s <;> rfl
    have hm : mul Format.binary32 (.finite s m e hp) one =
        roundWithAccuracy Format.binary32 (s * .positive) (m * 2 ^ 23) (e - 23) .exact := rfl
    rw [hm, hs]
    exact roundWithAccuracy_mul h 23

theorem one_mul {f : UnpackedFloat} (h : Storable f) : mul Format.binary32 one f = f := by
  cases f with
  | notANumber => rfl
  | infinity s => cases s <;> rfl
  | zero s => cases s <;> rfl
  | finite s m e hp =>
    have hs : .positive * s = s := by cases s <;> rfl
    have hm : mul Format.binary32 one (.finite s m e hp) =
        roundWithAccuracy Format.binary32 (.positive * s) (2 ^ 23 * m) (-23 + e) .exact := rfl
    rw [hm, hs, Nat.mul_comm, Int.add_comm]
    exact roundWithAccuracy_mul h 23

theorem normalize_zero (e : Int) (zero : Sign) :
    normalize Format.binary32 0 e zero = .zero zero :=
  rfl

/-- The same number, but for the sign of a zero. -/
def Same (f g : UnpackedFloat) : Prop :=
  f = g ∨ (∃ s, f = .zero s) ∧ ∃ s, g = .zero s

theorem Same.trans {f g h : UnpackedFloat} (hf : Same f g) (hg : Same g h) : Same f h := by
  rcases hf with rfl | ⟨hf, s, rfl⟩
  · exact hg
  · rcases hg with rfl | ⟨-, hh⟩
    · exact .inr ⟨hf, s, rfl⟩
    · exact .inr ⟨hf, hh⟩

theorem Same.lt_iff {f g : UnpackedFloat} (h : Same f g) (y : UnpackedFloat) :
    f.lt y = g.lt y := by
  rcases h with rfl | ⟨⟨s, rfl⟩, t, rfl⟩
  · rfl
  · cases y with
    | notANumber => rfl
    | infinity u => cases u <;> rfl
    | zero u => rfl
    | finite u m e hp => cases u <;> rfl

theorem Same.beq {f g : UnpackedFloat} (h : Same f g) (hg : g.isFinite = true) :
    f.beq g = true := by
  rcases h with rfl | ⟨⟨s, rfl⟩, t, rfl⟩
  · cases f with
    | notANumber => cases hg
    | infinity s => cases hg
    | zero s => rfl
    | finite s m e hp =>
      cases s with
      | negative =>
        change (some ((compare e e).then (compare m m)).swap == some .eq) = true
        simp only [Std.ReflCmp.compare_self]
        rfl
      | positive =>
        change (some ((compare e e).then (compare m m)) == some .eq) = true
        simp only [Std.ReflCmp.compare_self]
        rfl
  · rfl

theorem add_neg {f g : UnpackedFloat} (hf : f.isFinite = true) (h : Same g f.neg) :
    ∃ s, add Format.binary32 f g = .zero s := by
  cases f with
  | notANumber => cases hf
  | infinity s => cases hf
  | zero s =>
    obtain ⟨t, rfl⟩ : ∃ t, g = .zero t := by
      rcases h with rfl | ⟨ht, -⟩
      · exact ⟨-s, rfl⟩
      · exact ht
    cases s with
    | negative => cases t <;> exact ⟨_, rfl⟩
    | positive => cases t <;> exact ⟨_, rfl⟩
  | finite s m e hp =>
    obtain rfl : g = .finite (-s) m e hp := by
      rcases h with rfl | ⟨-, t, ht⟩
      · rfl
      · cases ht
    have hz (n : Nat) : s.apply (n : Int) + (-s).apply (n : Int) = 0 := by
      cases s with
      | negative => exact Int.add_left_neg _
      | positive => exact Int.add_right_neg _
    have ha : add Format.binary32 (.finite s m e hp) (.finite (-s) m e hp) =
        normalize Format.binary32
          (s.apply ((decreaseExponent m e (min e e)).1 : Int) +
            (-s).apply ((decreaseExponent m e (min e e)).1 : Int))
          (min e e) .positive := rfl
    refine ⟨.positive, ?_⟩
    rw [ha, hz, normalize_zero]

def meaning (x : Float32) : UnpackedFloat :=
  x.toModel.unpack

theorem storable_meaning (x : Float32) : Storable (meaning x) := by
  rw [meaning, Float32.Model.unpack, unpack_eq_decode]
  exact storable_decode _ _ _

theorem lt_iff {x y : Float32} : x < y ↔ (meaning x).lt (meaning y) = true :=
  decide_eq_true_iff

theorem not_le_zero_of_pos {x : Float32} (h : 0 < x) : ¬ x ≤ 0 := by
  have hl : (UnpackedFloat.zero .positive).lt (meaning x) = true := lt_iff.mp h
  intro hle
  have hx : (meaning x).le (.zero .positive) = true := decide_eq_true_iff.mp hle
  cases hm : meaning x with
  | notANumber => rw [hm] at hl; cases hl
  | zero s => rw [hm] at hl; cases hl
  | infinity s =>
    rw [hm] at hl hx
    cases s with
    | negative => cases hl
    | positive => cases hx
  | finite s m e hp =>
    rw [hm] at hl hx
    cases s with
    | negative => cases hl
    | positive => cases hx

theorem meaning_mul_one (x : Float32) : meaning (x * 1) = meaning x := by
  have h : meaning (x * 1) =
      unpack Format.binary32 (pack Format.binary32 (mul Format.binary32 (meaning x) one)) := rfl
  rw [h, mul_one (storable_meaning x), unpack_pack (storable_meaning x)]

theorem meaning_one_mul (x : Float32) : meaning (1 * x) = meaning x := by
  have h : meaning (1 * x) =
      unpack Format.binary32 (pack Format.binary32 (mul Format.binary32 one (meaning x))) := rfl
  rw [h, one_mul (storable_meaning x), unpack_pack (storable_meaning x)]

theorem meaning_neg (x : Float32) : meaning (-x) = (meaning x).neg := by
  have h : meaning (-x) = unpack Format.binary32 (pack Format.binary32 (meaning x).neg) := rfl
  have hs := storable_meaning x
  rw [h]
  cases hx : meaning x with
  | notANumber => rfl
  | infinity s => cases s <;> rfl
  | zero s => cases s <;> rfl
  | finite s m e hp =>
    rw [hx] at hs
    exact unpack_pack (f := .finite (-s) m e hp) hs

theorem same_zero_add (x : Float32) : Same (meaning (0 + x)) (meaning x) := by
  have h : meaning (0 + x) = unpack Format.binary32
      (pack Format.binary32 (add Format.binary32 (.zero .positive) (meaning x))) := rfl
  have hs := storable_meaning x
  rw [h]
  cases hx : meaning x with
  | notANumber => exact .inl rfl
  | infinity s => exact .inl (by cases s <;> rfl)
  | zero s => exact .inr ⟨⟨.positive, by cases s <;> rfl⟩, s, rfl⟩
  | finite s m e hp =>
    rw [hx] at hs
    exact .inl (unpack_pack hs)

theorem same_sub_zero (x : Float32) : Same (meaning (x - 0)) (meaning x) := by
  have h : meaning (x - 0) = unpack Format.binary32
      (pack Format.binary32 (sub Format.binary32 (meaning x) (.zero .positive))) := rfl
  have hs := storable_meaning x
  rw [h]
  cases hx : meaning x with
  | notANumber => exact .inl rfl
  | infinity s => exact .inl (by cases s <;> rfl)
  | zero s => exact .inr ⟨by cases s <;> exact ⟨_, rfl⟩, s, rfl⟩
  | finite s m e hp =>
    rw [hx] at hs
    exact .inl (unpack_pack hs)

theorem same_zero_sub (x : Float32) : Same (meaning (0 - x)) (meaning x).neg := by
  have h : meaning (0 - x) = unpack Format.binary32
      (pack Format.binary32 (sub Format.binary32 (.zero .positive) (meaning x))) := rfl
  have hs := storable_meaning x
  rw [h]
  cases hx : meaning x with
  | notANumber => exact .inl rfl
  | infinity s => exact .inl (by cases s <;> rfl)
  | zero s => exact .inr ⟨by cases s <;> exact ⟨_, rfl⟩, -s, rfl⟩
  | finite s m e hp =>
    rw [hx] at hs
    exact .inl (unpack_pack (f := .finite (-s) m e hp) hs)

end Single

open Single

theorem isFinite_neg {x : Float32} (h : x.isFinite = true) : (-x).isFinite = true := by
  change (meaning (-x)).isFinite = true
  rw [meaning_neg]
  change (meaning x).isFinite = true at h
  cases hx : meaning x with
  | notANumber => rw [hx] at h; exact h
  | infinity s => rw [hx] at h; exact h
  | zero s => rfl
  | finite s m e hp => rfl

theorem lerp_zero_one_lt {t : Float32} (h : t < 1) : lerp 0 1 t < 1 := by
  have hone : (1 - 0 : Float32) = 1 := by decide +kernel
  have hs : Same (meaning (lerp 0 1 t)) (meaning t) := by
    rw [lerp, hone, ← meaning_one_mul t]
    exact same_zero_add _
  rw [lt_iff, hs.lt_iff]
  exact lt_iff.mp h

/-- The whole way from zero leads to the end of it. -/
theorem lerp_zero_one_beq {x : Float32} (h : x.isFinite = true) : (lerp 0 x 1 == x) = true := by
  have hs : Same (meaning (lerp 0 x 1)) (meaning x) := by
    have h1 := same_zero_add ((x - 0) * 1)
    rw [meaning_mul_one] at h1
    exact h1.trans (same_sub_zero x)
  exact hs.beq h

theorem lerp_to_zero_beq {x : Float32} (h : x.isFinite = true) : (lerp x 0 1 == 0) = true := by
  have hm : Same (meaning ((0 - x) * 1)) (meaning x).neg := by
    rw [meaning_mul_one]
    exact same_zero_sub x
  obtain ⟨s, hs⟩ := add_neg (show (meaning x).isFinite = true from h) hm
  have hl : meaning (lerp x 0 1) = unpack Format.binary32 (pack Format.binary32
      (add Format.binary32 (meaning x) (meaning ((0 - x) * 1)))) := rfl
  change (meaning (lerp x 0 1)).beq (meaning 0) = true
  rw [hl, hs]
  cases s <;> rfl

end Dialogue
