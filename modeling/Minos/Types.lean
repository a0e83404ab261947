import Mathlib
import Minos.Lib.BitField

/-!
# Machine words

`unsigned long` values are natural numbers below `2 ^ 64`, and the arithmetic that can leave that
range wraps explicitly. The rounding macros of `minos/types.h` are here too.
-/

namespace Minos

def SIZE_4K : ℕ := 0x1000
def SIZE_2M : ℕ := 0x200000
def SIZE_1G : ℕ := 0x40000000
def PAGE_SIZE : ℕ := SIZE_4K

def EPERM : ℤ := 1
def ENOENT : ℤ := 2
def EAGAIN : ℤ := 11
def ENOMEM : ℤ := 12
def EINVAL : ℤ := 22

/-- `~x` -/
@[irreducible] def lnot (x : ℕ) : ℕ := 2 ^ 64 - 1 - x

/-- `x + y` -/
@[irreducible] def add64 (x y : ℕ) : ℕ := (x + y) % 2 ^ 64

/-- `x - y` -/
@[irreducible] def sub64 (x y : ℕ) : ℕ := (x + 2 ^ 64 - y) % 2 ^ 64

/-- `x - y` of 32-bit values -/
@[irreducible] def sub32 (x y : ℕ) : ℕ := (((x : ℤ) - y) % 2 ^ 32).toNat

/-- `ALIGN(x, y)` -/
@[irreducible] def align (x y : ℕ) : ℕ := x &&& lnot (y - 1)

/-- `BALIGN(x, y)` -/
@[irreducible] def balign (x y : ℕ) : ℕ := (x + y - 1) % 2 ^ 64 &&& lnot (y - 1)

/-- An `int` of these 32 bits, as an `unsigned long` -/
def intBits (v : ℕ) : ℕ := if v < 2 ^ 31 then v else v + (2 ^ 64 - 2 ^ 32)

lemma intBits_eq_iff {v n : ℕ} (hn : n < 2 ^ 31) : intBits v = n ↔ v = n := by
  rw [intBits]
  split_ifs
  · rfl
  · constructor <;> intro h <;> omega

lemma add64_lt (x y : ℕ) : add64 x y < 2 ^ 64 := by
  rw [add64]
  exact Nat.mod_lt _ (by norm_num)

lemma add64_of_lt {x y : ℕ} (h : x + y < 2 ^ 64) : add64 x y = x + y := by
  rw [add64, Nat.mod_eq_of_lt h]

lemma sub64_of_le {x y : ℕ} (h : y ≤ x) (hx : x < 2 ^ 64) : sub64 x y = x - y := by
  rw [sub64, show x + 2 ^ 64 - y = x - y + 2 ^ 64 by omega, Nat.add_mod_right]
  exact Nat.mod_eq_of_lt (by omega)

lemma and_lnot_pow {x k : ℕ} (hx : x < 2 ^ 64) (hk : k ≤ 64) :
    x &&& lnot (2 ^ k - 1) = x / 2 ^ k * 2 ^ k := by
  have hm : lnot (2 ^ k - 1) = 2 ^ 64 - 2 ^ k := by
    have := Nat.pow_le_pow_right (show 0 < 2 by norm_num) hk
    have := Nat.pos_of_ne_zero (pow_ne_zero k (show (2 : ℕ) ≠ 0 by norm_num))
    rw [lnot]
    omega
  rw [hm, BitField.and_compl_mask hx hk]

lemma align_pow {x k : ℕ} (hx : x < 2 ^ 64) (hk : k ≤ 64) :
    align x (2 ^ k) = x / 2 ^ k * 2 ^ k := by
  rw [align, and_lnot_pow hx hk]

lemma balign_pow {x k : ℕ} (hx : x + 2 ^ k ≤ 2 ^ 64) (hk : k ≤ 64) :
    balign x (2 ^ k) = (x + 2 ^ k - 1) / 2 ^ k * 2 ^ k := by
  have := Nat.pos_of_ne_zero (pow_ne_zero k (show (2 : ℕ) ≠ 0 by norm_num))
  have hlt : x + 2 ^ k - 1 < 2 ^ 64 := by omega
  rw [balign, Nat.mod_eq_of_lt hlt, and_lnot_pow hlt hk]

/-- What is left from `x` to the next multiple of `2 ^ k`, as the mapping loops compute it. -/
lemma balign_sub {x k : ℕ} (hx : x + 2 ^ k ≤ 2 ^ 64) (hk : k ≤ 64) :
    (if sub64 (balign x (2 ^ k)) x = 0 then 2 ^ k else sub64 (balign x (2 ^ k)) x) =
      2 ^ k - x % 2 ^ k := by
  have hpos := Nat.pos_of_ne_zero (pow_ne_zero k (show (2 : ℕ) ≠ 0 by norm_num))
  have hdiv := Nat.div_add_mod x (2 ^ k)
  have hmod := Nat.mod_lt x hpos
  have hle : balign x (2 ^ k) < 2 ^ 64 := by
    rw [balign]
    exact lt_of_le_of_lt Nat.and_le_left (Nat.mod_lt _ (by norm_num))
  by_cases h : x % 2 ^ k = 0
  · have hb : balign x (2 ^ k) = x := by
      rw [balign_pow hx hk]
      have : (x + 2 ^ k - 1) / 2 ^ k = x / 2 ^ k := by
        rw [Nat.div_eq_iff hpos]
        constructor
        · rw [mul_comm]
          omega
        · rw [mul_comm]
          omega
      rw [this, mul_comm]
      omega
    rw [hb] at hle ⊢
    rw [sub64_of_le le_rfl hle, h]
    simp
  · have hb : balign x (2 ^ k) = x + (2 ^ k - x % 2 ^ k) := by
      rw [balign_pow hx hk]
      have : (x + 2 ^ k - 1) / 2 ^ k = x / 2 ^ k + 1 := by
        rw [Nat.div_eq_iff hpos]
        constructor
        · rw [add_mul, mul_comm]
          omega
        · rw [add_mul, mul_comm]
          omega
      rw [this, add_mul, mul_comm]
      omega
    rw [hb] at hle ⊢
    rw [sub64_of_le (by omega) hle, if_neg (by omega)]
    omega

end Minos
