import Dialogue.Proofs.Decimal.Overflow
namespace Dialogue.Decimal

open Float.Model (Format UnpackedFloat)
open Float.Model.UnpackedFloat

namespace Double

section Sum

def stored (f : UnpackedFloat) : UnpackedFloat :=
  unpack Format.binary64 (pack Format.binary64 f)

theorem stored_notANumber : stored .notANumber = .notANumber :=
  rfl

theorem stored_infinity (s : Sign) : stored (.infinity s) = .infinity s := by
  cases s <;> rfl

theorem isFinite_stored_zero (s : Sign) : (stored (.zero s)).isFinite = true := by
  cases s <;> rfl

theorem isFinite_stored_round (s : Sign) {n : Nat} {e : Int} (hn : 0 < n) (he : -1074 ≤ e) :
    (stored (round Format.binary64 s n e)).isFinite = true ↔
      n * 2 ^ (e + 1074).toNat < limit := by
  obtain ⟨m, e', hm, hr, hlimit⟩ := exists_round s hn he
  rw [hr, stored, isFinite_unpack_pack]
  exact hlimit

theorem limit_pos : 0 < limit :=
  Nat.lt_of_lt_of_le (Nat.two_pow_pos 0) (two_pow_le_scaled (Nat.zero_le _))

theorem isFinite_stored_normalize {M e : Int} (he : -1074 ≤ e) :
    (stored (UnpackedFloat.normalize Format.binary64 M e .positive)).isFinite = true ↔
      M.natAbs * 2 ^ (e + 1074).toNat < limit := by
  rw [UnpackedFloat.normalize]
  rcases Int.lt_trichotomy M 0 with hM | hM | hM
  · have hn : M.natAbs = (-M).toNat := by omega
    rw [Std.compare_eq_lt.mpr hM, hn]
    exact isFinite_stored_round .negative (by omega) he
  · rw [hM, Std.compare_self, Int.natAbs_zero, Nat.zero_mul]
    exact iff_of_true (isFinite_stored_zero .positive) limit_pos
  · have hn : M.natAbs = M.toNat := by omega
    rw [Std.compare_eq_gt.mpr hM, hn]
    exact isFinite_stored_round .positive (by omega) he

theorem isNaN_normalize {M e : Int} (he : -1074 ≤ e) :
    (UnpackedFloat.normalize Format.binary64 M e .positive).isNaN = false := by
  have hround (s : Sign) {n : Nat} (hn : 0 < n) : (round Format.binary64 s n e).isNaN = false := by
    obtain ⟨m, e', hm, hr, -⟩ := exists_round s hn he
    rw [hr]
    rfl
  rw [UnpackedFloat.normalize]
  rcases Int.lt_trichotomy M 0 with hM | hM | hM
  · rw [Std.compare_eq_lt.mpr hM]
    exact hround .negative (by omega)
  · rw [hM, Std.compare_self]
    rfl
  · rw [Std.compare_eq_gt.mpr hM]
    exact hround .positive (by omega)

def Bounded : UnpackedFloat → Prop
  | .finite _ m e _ => m < 2 ^ 53 ∧ -1074 ≤ e ∧ e ≤ 971
  | _ => True

theorem bounded_unpack (b : BitVec Format.binary64.numBits) :
    Bounded (unpack Format.binary64 b) := by
  cases h : unpack Format.binary64 b with
  | finite s m e hp => exact bounds_of_unpack h
  | _ => trivial

theorem natAbs_apply (s : Sign) (i : Int) : (s.apply i).natAbs = i.natAbs := by
  cases s with
  | negative => exact Int.natAbs_neg i
  | positive => rfl

theorem apply_mul (s : Sign) (i j : Int) : s.apply i * j = s.apply (i * j) := by
  cases s with
  | negative => exact Int.neg_mul i j
  | positive => rfl

theorem Bounded.natAbs_unpackedUnits_lt {f : UnpackedFloat} (h : Bounded f) :
    (unpackedUnits f).natAbs < limit := by
  cases f with
  | finite s m e hp =>
    obtain ⟨hm, hlow, hhigh⟩ := h
    rw [unpackedUnits_finite, natAbs_apply, Int.natAbs_natCast]
    exact mul_two_pow_lt_scaled hm (by omega)
  | _ => exact limit_pos

theorem Bounded.isFinite_stored {f : UnpackedFloat} (h : Bounded f) (hf : f.isFinite = true) :
    (stored f).isFinite = true := by
  cases f with
  | finite s m e hp =>
    rw [stored, isFinite_unpack_pack]
    exact h.2.2
  | zero s => exact isFinite_stored_zero s
  | _ => cases hf

theorem apply_mul_two_pow (s : Sign) {m : Nat} {e E : Int} (hp : 0 < m) (hE : -1074 ≤ E)
    (he : E ≤ e) :
    s.apply (m <<< (e - E).toNat : Nat) * (2 ^ (E + 1074).toNat : Nat) =
      unpackedUnits (.finite s m e hp) := by
  have hk : (e - E).toNat + (E + 1074).toNat = (e + 1074).toNat := by omega
  rw [unpackedUnits_finite, apply_mul, Nat.shiftLeft_eq, ← Int.natCast_mul, Nat.mul_assoc,
    ← Nat.pow_add, hk]

theorem isFinite_stored_add_finite {f g : UnpackedFloat} (hf : Bounded f) (hg : Bounded g)
    (hfin : f.isFinite = true) (hgin : g.isFinite = true) :
    (stored (add Format.binary64 f g)).isFinite = true ↔ (unpackedUnits f + unpackedUnits g).natAbs < limit := by
  cases f with
  | notANumber => cases hfin
  | infinity s => cases hfin
  | zero s =>
    rw [unpackedUnits_zero, Int.zero_add]
    refine iff_of_true ?_ hg.natAbs_unpackedUnits_lt
    cases g with
    | notANumber => cases hgin
    | infinity s' => cases hgin
    | zero s' => cases s <;> cases s' <;> rfl
    | finite s' m' e' hp' => exact hg.isFinite_stored hgin
  | finite s m e hp =>
    cases g with
    | notANumber => cases hgin
    | infinity s' => cases hgin
    | zero s' =>
      rw [unpackedUnits_zero, Int.add_zero]
      exact iff_of_true (hf.isFinite_stored hfin) hf.natAbs_unpackedUnits_lt
    | finite s' m' e' hp' =>
      have hE : -1074 ≤ min e e' := by
        have := hf.2.1
        have := hg.2.1
        omega
      have hadd : add Format.binary64 (.finite s m e hp) (.finite s' m' e' hp') =
          UnpackedFloat.normalize Format.binary64 (s.apply (m <<< (e - min e e').toNat : Nat) +
            s'.apply (m' <<< (e' - min e e').toNat : Nat)) (min e e') .positive := rfl
      rw [hadd, ← apply_mul_two_pow s hp hE (Int.min_le_left e e'),
        ← apply_mul_two_pow s' hp' hE (Int.min_le_right e e'), ← Int.add_mul, Int.natAbs_mul,
        Int.natAbs_natCast]
      exact isFinite_stored_normalize hE

theorem isFinite_stored_add {f g : UnpackedFloat} (hf : Bounded f) (hg : Bounded g)
    (hgin : g.isFinite = true) :
    (stored (add Format.binary64 f g)).isFinite = true ↔
      f.isFinite = true ∧ (unpackedUnits f + unpackedUnits g).natAbs < limit := by
  cases hfin : f.isFinite with
  | true =>
    rw [isFinite_stored_add_finite hf hg hfin hgin]
    exact (and_iff_right rfl).symm
  | false =>
    refine iff_of_false (Bool.eq_false_iff.mp ?_) (fun h => Bool.false_ne_true h.1)
    cases f with
    | notANumber =>
      have hadd : add Format.binary64 .notANumber g = .notANumber := rfl
      rw [hadd, stored_notANumber]
      rfl
    | infinity s =>
      have hadd : add Format.binary64 (.infinity s) g = .infinity s := by
        cases g with
        | notANumber => cases hgin
        | infinity s' => cases hgin
        | _ => rfl
      rw [hadd, stored_infinity]
      rfl
    | _ => cases hfin

theorem isNaN_stored_add {f g : UnpackedFloat} (hf : Bounded f) (hg : Bounded g)
    (hfn : f.isNaN = false) (hgin : g.isFinite = true) :
    (stored (add Format.binary64 f g)).isNaN = false := by
  refine isNaN_unpack_pack ?_
  cases g with
  | notANumber => cases hgin
  | infinity s => cases hgin
  | zero s' =>
    cases f with
    | notANumber => cases hfn
    | zero s => cases s <;> cases s' <;> rfl
    | _ => rfl
  | finite s' m' e' hp' =>
    cases f with
    | notANumber => cases hfn
    | finite s m e hp =>
      refine isNaN_normalize ?_
      have := hf.2.1
      have := hg.2.1
      omega
    | _ => rfl

end Sum

section Float

variable {x y : Float}

def units (x : Float) : Int :=
  unpackedUnits x.toModel.unpack

/-- A sum is finite if the numbers are and their exact sum is below the limit. -/
theorem isFinite_add_iff (hy : y.isFinite = true) :
    (x + y).isFinite = true ↔ x.isFinite = true ∧ (units x + units y).natAbs < limit :=
  isFinite_stored_add (bounded_unpack _) (bounded_unpack _) hy

theorem isNaN_add (hx : x.isNaN = false) (hy : y.isFinite = true) : (x + y).isNaN = false :=
  isNaN_stored_add (bounded_unpack _) (bounded_unpack _) hx hy

end Float

end Double

end Dialogue.Decimal
