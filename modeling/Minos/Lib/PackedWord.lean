import Mathlib

/-!
# Words of packed fields

A word holds several fields of the same width side by side. It is built with shifts and ors, and
each field comes out of it again if none is wider than its place.
-/

namespace PackedWord

variable {W : ℕ}

/-- The fields from the lowest place on. -/
def gather (W width count : ℕ) (field : ℕ → BitVec W) : BitVec W :=
  (List.range count).foldl (fun value i => value ||| field i <<< (width * i)) 0#W

lemma gather_succ (width count : ℕ) (field : ℕ → BitVec W) :
    gather W width (count + 1) field =
      gather W width count field ||| field count <<< (width * count) := by
  rw [gather, List.range_succ, List.foldl_append]
  rfl

/-- A bit of the word is the bit of the field at its place. -/
lemma getLsbD_gather {width count k : ℕ} {field : ℕ → BitVec W} (hk : k < W) (hw : 0 < width)
    (hfield : ∀ i < count, (field i).toNat < 2 ^ width) :
    (gather W width count field).getLsbD k =
      (decide (k / width < count) && (field (k / width)).getLsbD (k % width)) := by
  induction count with
  | zero => simp [gather]
  | succ count ih =>
    rw [gather_succ, BitVec.getLsbD_or, ih fun i hi => hfield i (by omega),
      BitVec.getLsbD_shiftLeft]
    have hdiv := Nat.div_add_mod k width
    have hmod := Nat.mod_lt k hw
    rcases lt_trichotomy (k / width) count with hlt | heq | hgt
    · have hbelow : k < width * count := by
        have := Nat.mul_le_mul_left width (show k / width + 1 ≤ count from hlt)
        rw [Nat.mul_succ] at this
        omega
      simp [hlt, hbelow, show k / width < count + 1 by omega]
    · subst heq
      have hsub : k - width * (k / width) = k % width := by omega
      simp [hk, hsub, show ¬ k < width * (k / width) by omega]
    · have hover : width ≤ k - width * count := by
        have := Nat.mul_le_mul_left width (show count + 1 ≤ k / width from hgt)
        rw [Nat.mul_succ] at this
        omega
      have hzero : (field count).getLsbD (k - width * count) = false :=
        Nat.testBit_lt_two_pow ((hfield count (by omega)).trans_le
          (Nat.pow_le_pow_right (by norm_num) hover))
      simp [hzero, show ¬ k / width < count by omega, show ¬ k / width < count + 1 by omega]

/-- Each field comes out of the word again. -/
lemma extractLsb'_gather {width count i : ℕ} {field : ℕ → BitVec W} (hroom : width * count ≤ W)
    (hfield : ∀ i < count, (field i).toNat < 2 ^ width) (hi : i < count) :
    (gather W width count field).extractLsb' (width * i) width = (field i).setWidth width := by
  refine BitVec.eq_of_getLsbD_eq fun k hk => ?_
  have hle : width * i + width ≤ W := by
    have := Nat.mul_le_mul_left width (show i + 1 ≤ count from hi)
    rw [Nat.mul_succ] at this
    omega
  have hdiv : (width * i + k) / width = i := by
    rw [Nat.mul_add_div (by omega), Nat.div_eq_of_lt hk, Nat.add_zero]
  have hmod : (width * i + k) % width = k := by
    rw [Nat.mul_add_mod, Nat.mod_eq_of_lt hk]
  rw [BitVec.getLsbD_extractLsb', getLsbD_gather (by omega) (by omega) hfield, hdiv, hmod,
    BitVec.getLsbD_setWidth]
  simp [hk, hi]

/-! ### Fields by mask and shift -/

lemma shiftRight_and_mask (value : BitVec W) (start len : ℕ) :
    value >>> start &&& (BitVec.allOnes len).setWidth W =
      (value.extractLsb' start len).setWidth W := by
  refine BitVec.eq_of_getLsbD_eq fun i hi => ?_
  simp only [BitVec.getLsbD_ushiftRight, BitVec.getLsbD_and, BitVec.getLsbD_setWidth,
    BitVec.getLsbD_extractLsb', BitVec.getLsbD_allOnes, hi]
  by_cases hlen : i < len <;> simp [hlen]

lemma and_mask_shiftRight (value : BitVec W) (start len : ℕ) (h : start + len ≤ W) :
    (value &&& (BitVec.allOnes len).setWidth W <<< start) >>> start =
      (value.extractLsb' start len).setWidth W := by
  refine BitVec.eq_of_getLsbD_eq fun i hi => ?_
  simp only [BitVec.getLsbD_ushiftRight, BitVec.getLsbD_and, BitVec.getLsbD_shiftLeft,
    Nat.add_sub_cancel_left, BitVec.getLsbD_setWidth, BitVec.getLsbD_extractLsb',
    BitVec.getLsbD_allOnes, hi]
  by_cases hlen : i < len
  · simp [hlen, show start + i < W by omega]
  · simp [hlen]

lemma toNat_extractLsb'_setWidth (value : BitVec W) (start len : ℕ) (h : len ≤ W) :
    ((value.extractLsb' start len).setWidth W).toNat = (value.extractLsb' start len).toNat := by
  rw [BitVec.toNat_setWidth, Nat.mod_eq_of_lt]
  exact lt_of_lt_of_le (BitVec.isLt _) (Nat.pow_le_pow_right (by norm_num) h)

end PackedWord
