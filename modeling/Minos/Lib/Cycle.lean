import Mathlib

/-!
# Cyclic windows

A cursor that goes round in a range of integers gives out a window of the cycle. No value comes
twice as long as the window is not longer than the range.
-/

namespace Cycle

/-- The first `n` values from place `q` on, in the range of the `m` integers from `lo` on. -/
def window (lo m q : ℤ) (n : ℕ) : List ℤ :=
  (List.range n).map fun i : ℕ => lo + (q + i) % m

variable {lo m q x : ℤ} {n : ℕ}

@[simp]
lemma window_zero : window lo m q 0 = [] := rfl

@[simp]
lemma length_window : (window lo m q n).length = n := by simp [window]

/-- The cursor gives out its place and goes on to the next one. -/
lemma window_succ (hq : 0 ≤ q) (hm : q < m) :
    window lo m q (n + 1) = (lo + q) :: window lo m ((q + 1) % m) n := by
  rw [window, List.range_succ_eq_map, List.map_cons, List.map_map]
  congr 1
  · simp [Int.emod_eq_of_lt hq hm]
  · refine List.map_congr_left fun i _ => ?_
    simp only [Function.comp_apply, Int.emod_add_emod, Nat.succ_eq_add_one, Nat.cast_add,
      Nat.cast_one]
    ring_nf

lemma mem_window (hm : 0 < m) (hx : x ∈ window lo m q n) : lo ≤ x ∧ x < lo + m := by
  obtain ⟨i, -, rfl⟩ := List.mem_map.1 hx
  have := Int.emod_nonneg (q + i) hm.ne'
  have := Int.emod_lt_of_pos (q + i) hm
  omega

lemma nodup_window (hn : (n : ℤ) ≤ m) : (window lo m q n).Nodup := by
  refine List.Nodup.map_on (fun i hi j hj heq => ?_) List.nodup_range
  rw [List.mem_range] at hi hj
  have hmod : (q + i) % m = (q + j) % m := by omega
  rw [Int.emod_eq_emod_iff_emod_sub_eq_zero] at hmod
  have hzero := Int.eq_zero_of_abs_lt_dvd (Int.dvd_of_emod_eq_zero hmod)
    (abs_lt.2 ⟨by omega, by omega⟩)
  omega

/-- The next place of a cursor. -/
lemma succ_emod (hq : 0 ≤ q) (hm : q < m) : (q + 1) % m = if q + 1 = m then 0 else q + 1 := by
  split_ifs with h
  · rw [h, Int.emod_self]
  · exact Int.emod_eq_of_lt (by omega) (by omega)

end Cycle
