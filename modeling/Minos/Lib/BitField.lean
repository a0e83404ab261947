import Mathlib

/-!
# Bit fields of natural numbers

Machine words are natural numbers, and the shifts and masks of system code are `>>>`, `<<<`,
`&&&` and `|||` on them. The lemmas below turn each idiom (a field, a rounding, a mask) into
division and remainder by powers of two.
-/

namespace BitField

/-- Extracting a field with a shifted mask is a division followed by a remainder. -/
lemma and_mask_shiftRight (x k w : ℕ) :
    (x &&& ((2 ^ w - 1) <<< k)) >>> k = x / 2 ^ k % 2 ^ w := by
  rw [Nat.shiftRight_and_distrib, Nat.shiftLeft_shiftRight, Nat.and_two_pow_sub_one_eq_mod,
    Nat.shiftRight_eq_div_pow]

/-- Shifting down and up again clears the low bits. -/
lemma shiftRight_shiftLeft (x k : ℕ) : x >>> k <<< k = x / 2 ^ k * 2 ^ k := by
  rw [Nat.shiftRight_eq_div_pow, Nat.shiftLeft_eq]

/-- The complement mask of the low `k` bits of an `n`-bit word clears those bits. -/
lemma and_compl_mask {x k n : ℕ} (hx : x < 2 ^ n) (hk : k ≤ n) :
    x &&& (2 ^ n - 2 ^ k) = x / 2 ^ k * 2 ^ k := by
  apply Nat.eq_of_testBit_eq
  intro i
  have hm : 2 ^ n - 2 ^ k = (2 ^ (n - k) - 1) <<< k := by
    rw [Nat.shiftLeft_eq, Nat.sub_mul, ← pow_add, Nat.sub_add_cancel hk, one_mul]
  rw [Nat.testBit_and, hm, Nat.testBit_shiftLeft, ← Nat.shiftLeft_eq, Nat.testBit_shiftLeft,
    Nat.testBit_two_pow_sub_one, ← Nat.shiftRight_eq_div_pow, Nat.testBit_shiftRight]
  by_cases hki : k ≤ i
  · rw [Nat.add_sub_cancel' hki]
    by_cases hin : i < n
    · have : i - k < n - k := by omega
      simp [hki, this]
    · have hx0 : x.testBit i = false := Nat.testBit_lt_two_pow
        (lt_of_lt_of_le hx (Nat.pow_le_pow_right (by norm_num) (by omega)))
      simp [hx0]
  · simp [hki]

end BitField
