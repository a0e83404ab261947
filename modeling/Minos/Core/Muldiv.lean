import Mathlib
import Minos.Virt.MmioRead

/-!
# Multiplication and division with a 96-bit product

`muldiv64` computes `a * b / c` in 64-bit words: two partial products of 32 bits by 32 bits, and a
division in base `2 ^ 32` that brings the remainder of the high digit into the low one. Ticks are
converted to nanoseconds with it and back.
-/

namespace Minos.Core

/-! ### Division of two digits -/

section Digits

variable {base c x y : ℕ}

/-- The quotient of a number of two digits, one digit at a time. -/
lemma div_two_digits (hc : 0 < c) :
    x / c * base + (x % c * base + y) / c = (x * base + y) / c := by
  have hsplit : x * base + y = x % c * base + y + c * (x / c * base) := by
    calc x * base + y = (c * (x / c) + x % c) * base + y := by rw [Nat.div_add_mod]
      _ = x % c * base + y + c * (x / c * base) := by ring
  rw [hsplit, Nat.add_mul_div_left _ _ hc, add_comm]

/-- The remainder is below the divisor, so the second quotient is a digit. -/
lemma low_digit_lt (hc : 0 < c) (hy : y < base) : (x % c * base + y) / c < base := by
  apply Nat.div_lt_of_lt_mul
  calc x % c * base + y < x % c * base + base := Nat.add_lt_add_left hy _
    _ = (x % c + 1) * base := by ring
    _ ≤ c * base := Nat.mul_le_mul_right _ (Nat.mod_lt x hc)

/-- The first quotient is a digit if the whole quotient has two. -/
lemma high_digit_lt (hc : 0 < c) (h : (x * base + y) / c < base * base) : x / c < base := by
  by_contra hge
  rw [← div_two_digits hc] at h
  have hle := Nat.mul_le_mul_right base (not_lt.1 hge)
  exact absurd (hle.trans (Nat.le_add_right _ _)) (not_le.2 h)

end Digits

/-! ### The words -/

/-- `div64_u64` -/
def div64U64 (dividend divisor : BitVec 64) : BitVec 64 := dividend / divisor

/-- `mod_64` -/
def mod64 (x y : BitVec 64) : BitVec 64 := x - y * div64U64 x y

/-- The union of `muldiv64`, by its two halves -/
structure LowHigh where
  low : BitVec 32
  high : BitVec 32
deriving DecidableEq

namespace LowHigh

/-- A store to `ll` -/
def ofLl (ll : BitVec 64) : LowHigh := ⟨ll.setWidth 32, (ll >>> 32).setWidth 32⟩

/-- A load of `ll` -/
def ll (u : LowHigh) : BitVec 64 := u.high ++ u.low

lemma toNat_low (a : BitVec 64) : (ofLl a).low.toNat = a.toNat % 2 ^ 32 := by
  simp [ofLl]

lemma toNat_high (a : BitVec 64) : (ofLl a).high.toNat = a.toNat / 2 ^ 32 := by
  have := a.isLt
  simp only [ofLl, BitVec.toNat_setWidth, BitVec.toNat_ushiftRight, Nat.shiftRight_eq_div_pow]
  exact Nat.mod_eq_of_lt (by omega)

lemma toNat_ll (u : LowHigh) : u.ll.toNat = u.high.toNat * 2 ^ 32 + u.low.toNat := by
  rw [ll, BitVec.toNat_append, Nat.shiftLeft_eq, mul_comm, ← Nat.two_pow_add_eq_or_of_lt u.low.isLt]

end LowHigh

namespace Muldiv

variable (a : BitVec 64) (b c : BitVec 32)

/-- `rl` -/
def rl : BitVec 64 := (LowHigh.ofLl a).low.setWidth 64 * b.setWidth 64

/-- `rh` before the carry is added -/
def rhBare : BitVec 64 := (LowHigh.ofLl a).high.setWidth 64 * b.setWidth 64

/-- `rh` -/
def rh : BitVec 64 := rhBare a b + rl a b >>> 32

/-- The remainder of the high digit, where the low digit is added to it -/
def carried : BitVec 64 := mod64 (rh a b) (c.setWidth 64) <<< 32

/-- The dividend of the second division -/
def rest : BitVec 64 := carried a b c + (rl a b &&& 0xffffffff)

/-- `res` -/
def res : LowHigh where
  high := (div64U64 (rh a b) (c.setWidth 64)).setWidth 32
  low := (div64U64 (rest a b c) (c.setWidth 64)).setWidth 32

end Muldiv

/-- `muldiv64` -/
def muldiv64 (a : BitVec 64) (b c : BitVec 32) : BitVec 64 := (Muldiv.res a b c).ll

/-- No operation of `muldiv64` leaves the range of its type: the operations on 64 bits, those of
`mod_64` among them, and the stores of the quotients to 32 bits. -/
structure Muldiv.NoOverflow (a : BitVec 64) (b c : BitVec 32) : Prop where
  rl : BitVec.umulOverflow ((LowHigh.ofLl a).low.setWidth 64) (b.setWidth 64) = false
  rhBare : BitVec.umulOverflow ((LowHigh.ofLl a).high.setWidth 64) (b.setWidth 64) = false
  rh : BitVec.uaddOverflow (Muldiv.rhBare a b) (Muldiv.rl a b >>> 32) = false
  high : (div64U64 (Muldiv.rh a b) (c.setWidth 64)).toNat < 2 ^ 32
  modMul : BitVec.umulOverflow (c.setWidth 64)
    (div64U64 (Muldiv.rh a b) (c.setWidth 64)) = false
  modSub : BitVec.usubOverflow (Muldiv.rh a b)
    (c.setWidth 64 * div64U64 (Muldiv.rh a b) (c.setWidth 64)) = false
  carried : (mod64 (Muldiv.rh a b) (c.setWidth 64)).toNat * 2 ^ 32 < 2 ^ 64
  rest : BitVec.uaddOverflow (Muldiv.carried a b c) (Muldiv.rl a b &&& 0xffffffff) = false
  low : (div64U64 (Muldiv.rest a b c) (c.setWidth 64)).toNat < 2 ^ 32

/-! ### What the words are -/

lemma toNat_div64U64 (x y : BitVec 64) : (div64U64 x y).toNat = x.toNat / y.toNat := by
  rw [div64U64, BitVec.toNat_udiv]

lemma toNat_mod64 (x y : BitVec 64) : (mod64 x y).toNat = x.toNat % y.toNat := by
  have hmul : (y * div64U64 x y).toNat = y.toNat * (x.toNat / y.toNat) := by
    rw [BitVec.toNat_mul, toNat_div64U64]
    exact Nat.mod_eq_of_lt ((Nat.mul_div_le _ _).trans_lt x.isLt)
  have hle : (y * div64U64 x y).toNat ≤ x.toNat := hmul ▸ Nat.mul_div_le _ _
  rw [mod64, BitVec.toNat_sub_of_le hle, hmul, Nat.mod_eq_sub]

lemma toNat_wide (v : BitVec 32) : (v.setWidth 64).toNat = v.toNat := by
  rw [BitVec.toNat_setWidth]
  exact Nat.mod_eq_of_lt (v.isLt.trans (by norm_num))

section Overflow

variable {x y : BitVec 64}

lemma umulOverflow_eq_false (h : x.toNat * y.toNat < 2 ^ 64) : BitVec.umulOverflow x y = false :=
  decide_eq_false (not_le.2 h)

lemma uaddOverflow_eq_false (h : x.toNat + y.toNat < 2 ^ 64) : BitVec.uaddOverflow x y = false :=
  decide_eq_false (not_le.2 h)

lemma usubOverflow_eq_false (h : y.toNat ≤ x.toNat) : BitVec.usubOverflow x y = false :=
  decide_eq_false (not_lt.2 h)

end Overflow

namespace Muldiv

variable {a : BitVec 64} {b c : BitVec 32}

/-- Factors of 32 bits have a product that leaves room for a carry. -/
lemma mul_lt {x y : ℕ} (hx : x < 2 ^ 32) (hy : y < 2 ^ 32) : x * y < 2 ^ 64 - 2 ^ 32 := by
  have := Nat.mul_le_mul (Nat.le_sub_one_of_lt hx) (Nat.le_sub_one_of_lt hy)
  omega

lemma low_lt : a.toNat % 2 ^ 32 * b.toNat < 2 ^ 64 - 2 ^ 32 :=
  mul_lt (Nat.mod_lt _ (by norm_num)) b.isLt

lemma high_lt : a.toNat / 2 ^ 32 * b.toNat < 2 ^ 64 - 2 ^ 32 := by
  have := a.isLt
  exact mul_lt (by omega) b.isLt

lemma toNat_rl : (rl a b).toNat = a.toNat % 2 ^ 32 * b.toNat := by
  have := low_lt (a := a) (b := b)
  rw [rl, BitVec.toNat_mul, toNat_wide, toNat_wide, LowHigh.toNat_low]
  exact Nat.mod_eq_of_lt (by omega)

lemma toNat_rhBare : (rhBare a b).toNat = a.toNat / 2 ^ 32 * b.toNat := by
  have := high_lt (a := a) (b := b)
  rw [rhBare, BitVec.toNat_mul, toNat_wide, toNat_wide, LowHigh.toNat_high]
  exact Nat.mod_eq_of_lt (by omega)

lemma toNat_carry : (rl a b >>> 32).toNat = a.toNat % 2 ^ 32 * b.toNat / 2 ^ 32 := by
  rw [BitVec.toNat_ushiftRight, Nat.shiftRight_eq_div_pow, toNat_rl]

lemma toNat_rh : (rh a b).toNat =
    a.toNat / 2 ^ 32 * b.toNat + a.toNat % 2 ^ 32 * b.toNat / 2 ^ 32 := by
  have := high_lt (a := a) (b := b)
  have := low_lt (a := a) (b := b)
  rw [rh, BitVec.toNat_add, toNat_rhBare, toNat_carry]
  exact Nat.mod_eq_of_lt (by omega)

lemma toNat_mask : (rl a b &&& 0xffffffff).toNat = a.toNat % 2 ^ 32 * b.toNat % 2 ^ 32 := by
  rw [BitVec.toNat_and, toNat_rl]
  exact Nat.and_two_pow_sub_one_eq_mod _ 32

/-- The digits `rh` and the low half of `rl` are the product. -/
lemma toNat_product : (rh a b).toNat * 2 ^ 32 + (rl a b &&& 0xffffffff).toNat =
    a.toNat * b.toNat := by
  have hdiv := Nat.div_add_mod (a.toNat % 2 ^ 32 * b.toNat) (2 ^ 32)
  rw [toNat_rh, toNat_mask]
  calc _ = a.toNat / 2 ^ 32 * b.toNat * 2 ^ 32 + (2 ^ 32 * (a.toNat % 2 ^ 32 * b.toNat / 2 ^ 32) +
        a.toNat % 2 ^ 32 * b.toNat % 2 ^ 32) := by ring
    _ = (2 ^ 32 * (a.toNat / 2 ^ 32) + a.toNat % 2 ^ 32) * b.toNat := by rw [hdiv]; ring
    _ = a.toNat * b.toNat := by rw [Nat.div_add_mod]

lemma toNat_mask_lt : (rl a b &&& 0xffffffff).toNat < 2 ^ 32 := by
  rw [toNat_mask]
  exact Nat.mod_lt _ (by norm_num)

lemma toNat_rem : (mod64 (rh a b) (c.setWidth 64)).toNat = (rh a b).toNat % c.toNat := by
  rw [toNat_mod64, toNat_wide]

/-- The remainder is shifted within the word. -/
lemma toNat_rem_lt (hc : 0 < c.toNat) :
    (mod64 (rh a b) (c.setWidth 64)).toNat * 2 ^ 32 + 2 ^ 32 ≤ 2 ^ 64 := by
  have hlt := Nat.mod_lt (rh a b).toNat hc
  have := c.isLt
  rw [toNat_rem]
  omega

lemma toNat_carried (hc : 0 < c.toNat) :
    (carried a b c).toNat = (rh a b).toNat % c.toNat * 2 ^ 32 := by
  have hlt := toNat_rem_lt (a := a) (b := b) hc
  rw [carried, BitVec.toNat_shiftLeft, Nat.shiftLeft_eq, toNat_rem]
  rw [toNat_rem] at hlt
  exact Nat.mod_eq_of_lt (by omega)

lemma toNat_rest (hc : 0 < c.toNat) : (rest a b c).toNat =
    (rh a b).toNat % c.toNat * 2 ^ 32 + (rl a b &&& 0xffffffff).toNat := by
  have hlt := toNat_rem_lt (a := a) (b := b) hc
  have hmask := toNat_mask_lt (a := a) (b := b)
  rw [toNat_rem] at hlt
  rw [rest, BitVec.toNat_add, toNat_carried hc]
  exact Nat.mod_eq_of_lt (by omega)

lemma toNat_low_quot : (div64U64 (rest a b c) (c.setWidth 64)).toNat =
    (rest a b c).toNat / c.toNat := by
  rw [toNat_div64U64, toNat_wide]

lemma toNat_high_quot : (div64U64 (rh a b) (c.setWidth 64)).toNat =
    (rh a b).toNat / c.toNat := by
  rw [toNat_div64U64, toNat_wide]

/-- The two stores to `res` keep their quotients when the result has 64 bits. -/
lemma quots_lt (hc : 0 < c.toNat) (h : a.toNat * b.toNat / c.toNat < 2 ^ 64) :
    (rh a b).toNat / c.toNat < 2 ^ 32 ∧ (rest a b c).toNat / c.toNat < 2 ^ 32 := by
  rw [← toNat_product] at h
  refine ⟨high_digit_lt hc h, ?_⟩
  rw [toNat_rest hc]
  exact low_digit_lt hc toNat_mask_lt

/-- Nothing overflows: the products of the halves leave room for the carry, the remainder of the
high digit is below a divisor of 32 bits, and the quotients are digits. -/
lemma noOverflow (hc : 0 < c.toNat) (h : a.toNat * b.toNat / c.toNat < 2 ^ 64) :
    NoOverflow a b c := by
  have hlow := low_lt (a := a) (b := b)
  have hhigh := high_lt (a := a) (b := b)
  have hmod := toNat_rem_lt (a := a) (b := b) hc
  have hmask := toNat_mask_lt (a := a) (b := b)
  have hmul : c.toNat * ((rh a b).toNat / c.toNat) ≤ (rh a b).toNat := Nat.mul_div_le _ _
  obtain ⟨hq₁, hq₂⟩ := quots_lt hc h
  constructor
  case rl =>
    apply umulOverflow_eq_false
    rw [toNat_wide, toNat_wide, LowHigh.toNat_low]
    exact hlow.trans_le (Nat.sub_le _ _)
  case rhBare =>
    apply umulOverflow_eq_false
    rw [toNat_wide, toNat_wide, LowHigh.toNat_high]
    exact hhigh.trans_le (Nat.sub_le _ _)
  case rh =>
    apply uaddOverflow_eq_false
    rw [toNat_rhBare, toNat_carry]
    omega
  case high => exact toNat_high_quot.trans_lt hq₁
  case modMul =>
    apply umulOverflow_eq_false
    rw [toNat_high_quot, toNat_wide]
    exact hmul.trans_lt (rh a b).isLt
  case modSub =>
    apply usubOverflow_eq_false
    rw [BitVec.toNat_mul, toNat_high_quot, toNat_wide,
      Nat.mod_eq_of_lt (hmul.trans_lt (rh a b).isLt)]
    exact hmul
  case carried => exact Nat.lt_of_add_one_le (le_trans (by norm_num) hmod)
  case rest =>
    apply uaddOverflow_eq_false
    rw [toNat_carried hc, ← toNat_rem]
    omega
  case low => exact toNat_low_quot.trans_lt hq₂

end Muldiv

section Exact

variable {a : BitVec 64} {b c : BitVec 32}

lemma toNat_muldiv64 : (muldiv64 a b c).toNat =
    (Muldiv.rh a b).toNat / c.toNat % 2 ^ 32 * 2 ^ 32 +
      (Muldiv.rest a b c).toNat / c.toNat % 2 ^ 32 := by
  rw [muldiv64, LowHigh.toNat_ll, Muldiv.res, BitVec.toNat_setWidth, BitVec.toNat_setWidth,
    Muldiv.toNat_high_quot, Muldiv.toNat_low_quot]

lemma toNat_muldiv64_of_lt (hc : 0 < c.toNat) (h : a.toNat * b.toNat / c.toNat < 2 ^ 64) :
    (muldiv64 a b c).toNat = a.toNat * b.toNat / c.toNat := by
  obtain ⟨hq₁, hq₂⟩ := Muldiv.quots_lt hc h
  rw [toNat_muldiv64, Nat.mod_eq_of_lt hq₁, Nat.mod_eq_of_lt hq₂, Muldiv.toNat_rest hc,
    div_two_digits hc, Muldiv.toNat_product]

/-- The result is the exact quotient if it has 64 bits, and no step overflows on the way. -/
theorem muldiv64_exact (hc : 0 < c.toNat) (h : a.toNat * b.toNat / c.toNat < 2 ^ 64) :
    (muldiv64 a b c).toNat = a.toNat * b.toNat / c.toNat ∧ Muldiv.NoOverflow a b c :=
  ⟨toNat_muldiv64_of_lt hc h, Muldiv.noOverflow hc h⟩

/-- The largest factors, with a product of 96 bits -/
theorem muldiv64_exact_top :
    (0 < (0xffffffff : BitVec 32).toNat ∧ (0xffffffffffffffff : BitVec 64).toNat *
      (0xffffffff : BitVec 32).toNat / (0xffffffff : BitVec 32).toNat < 2 ^ 64) ∧
    (muldiv64 0xffffffffffffffff 0xffffffff 0xffffffff).toNat = 2 ^ 64 - 1 ∧
    Muldiv.NoOverflow 0xffffffffffffffff 0xffffffff 0xffffffff := by
  have hquot : (0xffffffffffffffff : BitVec 64).toNat * (0xffffffff : BitVec 32).toNat /
      (0xffffffff : BitVec 32).toNat = 2 ^ 64 - 1 := by decide
  have h := muldiv64_exact (a := 0xffffffffffffffff) (b := 0xffffffff) (c := 0xffffffff)
    (by decide) (by decide)
  exact ⟨⟨by decide, by decide⟩, h.1.trans hquot, h.2⟩

/-- The words compute what the numbers of the emulated clocks do, for a zero divisor too. -/
lemma toNat_muldiv64_eq : (muldiv64 a b c).toNat = Virt.muldiv64 a.toNat b.toNat c.toNat := by
  rw [toNat_muldiv64, Virt.muldiv64]
  rcases Nat.eq_zero_or_pos c.toNat with hc | hc
  · simp only [hc, Nat.div_zero]
  · rw [Muldiv.toNat_rest hc, Muldiv.toNat_mask, Muldiv.toNat_rh]

end Exact

/-- The same for numbers -/
lemma muldiv64_eq {a b c : ℕ} (ha : a < 2 ^ 64) (hb : b < 2 ^ 32) (hc : 0 < c) (hlt : c < 2 ^ 32)
    (h : a * b / c < 2 ^ 64) : Virt.muldiv64 a b c = a * b / c := by
  have hexact := toNat_muldiv64_of_lt (a := BitVec.ofNatLT a ha) (b := BitVec.ofNatLT b hb)
    (c := BitVec.ofNatLT c hlt) hc h
  rwa [toNat_muldiv64_eq] at hexact

end Minos.Core
