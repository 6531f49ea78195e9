import Mathlib.Algebra.Ring.Nat
namespace Dialogue.Decimal

open Float.Model.UnpackedFloat

theorem log2_mul_two_pow {m : Nat} (hp : 0 < m) (k : Nat) : (m * 2 ^ k).log2 = m.log2 + k := by
  induction k with
  | zero => rw [Nat.pow_zero, Nat.mul_one, Nat.add_zero]
  | succ k ih =>
    have hne : m * 2 ^ k ≠ 0 := Nat.ne_of_gt (Nat.mul_pos hp (Nat.two_pow_pos k))
    rw [Nat.pow_succ, ← Nat.mul_assoc, Nat.mul_comm _ 2, Nat.log2_two_mul hne, ih, Nat.add_assoc]

theorem mantissa_shiftRight (em : ExtendedMantissa) (k : Nat) :
    (em >>> k).mantissa = em.mantissa / 2 ^ k := by
  induction k with
  | zero => exact (Nat.div_one _).symm
  | succ k ih =>
    have hs : em >>> (k + 1) = (em >>> k).shiftRightOne := rfl
    rw [hs, ExtendedMantissa.shiftRightOne, ih, Nat.div_div_eq_div_mul, Nat.pow_succ]

theorem roundBit_shiftRight (em : ExtendedMantissa) (k : Nat) :
    (em >>> (k + 1)).roundBit = (em.mantissa / 2 ^ k % 2 != 0) := by
  have hs : em >>> (k + 1) = (em >>> k).shiftRightOne := rfl
  rw [hs, ExtendedMantissa.shiftRightOne, mantissa_shiftRight]

theorem roundedMantissa_of_roundBit {em : ExtendedMantissa} (h : em.roundBit = false) :
    em.roundedMantissa = em.mantissa := by
  obtain ⟨m, r, s⟩ := em
  cases h
  cases s <;> rfl

theorem roundedMantissa_of_odd {em : ExtendedMantissa} (h : em.roundBit = true)
    (ho : em.mantissa % 2 = 1) : em.roundedMantissa = em.mantissa + 1 := by
  obtain ⟨m, r, s⟩ := em
  cases h
  cases s with
  | false => exact congrArg (m + ·) ho
  | true => rfl

theorem roundedMantissa_mem (em : ExtendedMantissa) :
    em.mantissa ≤ em.roundedMantissa ∧ em.roundedMantissa ≤ em.mantissa + 1 := by
  cases h : em.roundBit with
  | false =>
    rw [roundedMantissa_of_roundBit h]
    exact ⟨Nat.le_refl _, Nat.le_succ _⟩
  | true =>
    obtain ⟨m, r, s⟩ := em
    cases h
    cases s with
    | false =>
      change m ≤ m + m % 2 ∧ m + m % 2 ≤ m + 1
      omega
    | true => exact ⟨Nat.le_succ m, Nat.le_refl _⟩

/-- When the last of 54 bits is dropped, only the largest mantissa is rounded up to 53 bits. -/
theorem roundedMantissa_lt_iff {em : ExtendedMantissa} {k : Nat}
    (h : em.mantissa / 2 ^ k < 2 ^ 54) :
    (em >>> (k + 1)).roundedMantissa < 2 ^ 53 ↔ em.mantissa < (2 ^ 54 - 1) * 2 ^ k := by
  have hm : (em >>> (k + 1)).mantissa = em.mantissa / 2 ^ k / 2 := by
    rw [mantissa_shiftRight, Nat.pow_succ, Nat.div_div_eq_div_mul]
  have hb := roundBit_shiftRight em k
  have hr := roundedMantissa_mem (em >>> (k + 1))
  rw [← Nat.div_lt_iff_lt_mul (Nat.two_pow_pos k)]
  generalize em.mantissa / 2 ^ k = a at h hm hb ⊢
  by_cases ho : a % 2 = 0
  · rw [ho] at hb
    rw [roundedMantissa_of_roundBit hb]
    omega
  by_cases htop : a = 2 ^ 54 - 1
  · have hodd : (em >>> (k + 1)).mantissa % 2 = 1 := by omega
    rw [htop] at hb
    rw [roundedMantissa_of_odd hb hodd]
    omega
  · omega

end Dialogue.Decimal
