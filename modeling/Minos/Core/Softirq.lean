import Mathlib
import Minos.Types

/-!
# Softirqs

`core/softirq.c`: a mask of pending softirqs for each processor, a table of actions, and the loop
that calls them. The loop moves on in the mask and in the table only when it has found a bit, so a
clear bit below a set one is never passed (`doSoftirq_dispatches_iff`).
-/

namespace Minos.Core

/-- `NR_SOFTIRQS`: `TIMER_SOFTIRQ`, `VCPULET_SOFTIRQ` and `SCHED_SOFTIRQ` -/
def NR_SOFTIRQS : ℕ := 3

/-- The mask of the processor, what the actions work on, and which of them were called. -/
structure Softirqs (σ : Type) where
  softirqPending : BitVec 32
  rest : σ
  called : List ℕ

/-- An action may raise softirqs, and do anything to the rest of the system. -/
abbrev SoftirqAction (σ : Type) := BitVec 32 × σ → BitVec 32 × σ

variable {σ : Type}

/-- `raise_softirq_irqoff`; a bit above the mask is lost. -/
def raiseSoftirqIrqoff (nr : ℕ) (s : Softirqs σ) : Softirqs σ :=
  { s with softirqPending := s.softirqPending ||| BitVec.ofNat 32 (1 <<< nr) }

/-- `open_softirq` -/
def openSoftirq (nr : Fin NR_SOFTIRQS) (action : SoftirqAction σ)
    (softirqVec : Fin NR_SOFTIRQS → SoftirqAction σ) : Fin NR_SOFTIRQS → SoftirqAction σ :=
  Function.update softirqVec nr action

/-- `h->action(h)` -/
def callAction (softirqVec : Fin NR_SOFTIRQS → SoftirqAction σ) (h : Fin NR_SOFTIRQS)
    (s : Softirqs σ) : Softirqs σ :=
  let r := softirqVec h (s.softirqPending, s.rest)
  ⟨r.1, r.2, s.called ++ [h.val]⟩

/-- The loop of `__do_softirq`, for a number of rounds at most. It has no result when the rounds
are used up, or when it reads behind the table. -/
def softirqLoop (softirqVec : Fin NR_SOFTIRQS → SoftirqAction σ) :
    ℕ → ℕ → BitVec 32 → Softirqs σ → Option (Softirqs σ)
  | 0, _, _, _ => none
  | fuel + 1, h, pending, s =>
    if pending &&& 1#32 ≠ 0#32 then
      if hlt : h < NR_SOFTIRQS then
        let s := callAction softirqVec ⟨h, hlt⟩ s
        let pending := pending >>> 1
        if pending ≠ 0#32 then softirqLoop softirqVec fuel (h + 1) pending s else some s
      else none
    else if pending ≠ 0#32 then softirqLoop softirqVec fuel h pending s
    else some s

/-- `__do_softirq` -/
def doSoftirqInner (softirqVec : Fin NR_SOFTIRQS → SoftirqAction σ) (fuel : ℕ) (s : Softirqs σ) :
    Option (Softirqs σ) :=
  softirqLoop softirqVec fuel 0 s.softirqPending { s with softirqPending := 0#32 }

/-- `do_softirq` -/
def doSoftirq (softirqVec : Fin NR_SOFTIRQS → SoftirqAction σ) (fuel : ℕ) (s : Softirqs σ) :
    Option (Softirqs σ) :=
  if s.softirqPending ≠ 0#32 then doSoftirqInner softirqVec fuel s else some s

/-! ### The bits of a mask -/

/-- The numbers of the bits that are set, from the lowest on. -/
def setBits (p : BitVec 32) : List ℕ := (List.range 32).filter fun i => p.getLsbD i

/-- The mask is a run of ones from bit 0 on. -/
def LowOnes (p : BitVec 32) : Prop := ∃ k, p.toNat + 1 = 2 ^ k

lemma and_one_ne_zero_iff (p : BitVec 32) : p &&& 1#32 ≠ 0#32 ↔ p.toNat % 2 = 1 := by
  have hbit : (p &&& 1#32).toNat = p.toNat % 2 := by
    rw [BitVec.toNat_and, show (1#32).toNat = 1 from rfl, Nat.and_one_is_mod]
  rw [ne_eq, ← BitVec.toNat_inj, hbit, show (0#32).toNat = 0 from rfl]
  omega

lemma toNat_shiftRight_one (p : BitVec 32) : (p >>> 1).toNat = p.toNat / 2 := by
  rw [BitVec.toNat_ushiftRight, Nat.shiftRight_eq_div_pow, pow_one]

lemma ne_zero_iff_toNat (p : BitVec 32) : p ≠ 0#32 ↔ p.toNat ≠ 0 := by
  rw [ne_eq, ← BitVec.toNat_inj, show (0#32).toNat = 0 from rfl]

/-- Half of an odd mask is a run of ones when the mask is one. -/
lemma lowOnes_half {p : BitVec 32} (hodd : p.toNat % 2 = 1) : LowOnes p ↔ LowOnes (p >>> 1) := by
  constructor
  · rintro ⟨k, hk⟩
    obtain ⟨j, rfl⟩ : ∃ j, k = j + 1 := by
      refine Nat.exists_eq_succ_of_ne_zero ?_
      rintro rfl
      omega
    refine ⟨j, ?_⟩
    rw [pow_succ] at hk
    rw [toNat_shiftRight_one]
    omega
  · rintro ⟨k, hk⟩
    refine ⟨k + 1, ?_⟩
    rw [toNat_shiftRight_one] at hk
    rw [pow_succ]
    omega

lemma filter_lt_range (n k : ℕ) :
    (List.range n).filter (fun i => decide (i < k)) = List.range (min n k) := by
  induction n with
  | zero => simp
  | succ n ih =>
    rw [List.range_succ, List.filter_append, ih]
    by_cases h : n < k
    · rw [min_eq_left h.le, min_eq_left h, List.range_succ]
      simp [h]
    · rw [min_eq_right (by omega), min_eq_right (by omega)]
      simp [h]

lemma setBits_of_ones {p : BitVec 32} {k : ℕ} (hk : p.toNat + 1 = 2 ^ k) :
    setBits p = List.range k := by
  have hle : k ≤ 32 := by
    have hlt : 2 ^ k < 2 ^ 33 := by
      have := p.isLt
      omega
    have := (Nat.pow_lt_pow_iff_right (show 1 < 2 by norm_num)).mp hlt
    omega
  have hbits : ∀ i, p.getLsbD i = decide (i < k) := by
    intro i
    rw [BitVec.getLsbD, show p.toNat = 2 ^ k - 1 by omega, Nat.testBit_two_pow_sub_one]
  simp only [setBits, hbits]
  rw [filter_lt_range, min_eq_right hle]

/-! ### The loop -/

variable {softirqVec : Fin NR_SOFTIRQS → SoftirqAction σ}

/-- With a clear bit below a set one the loop does not move on. -/
lemma softirqLoop_even {p : BitVec 32} (heven : p.toNat % 2 = 0) (hne : p.toNat ≠ 0)
    (fuel h : ℕ) (s : Softirqs σ) : softirqLoop softirqVec fuel h p s = none := by
  induction fuel with
  | zero => rfl
  | succ fuel ih =>
    have hbit : ¬ (p &&& 1#32 ≠ 0#32) := by
      rw [and_one_ne_zero_iff]
      omega
    rw [softirqLoop, if_neg hbit, if_pos ((ne_zero_iff_toNat p).2 hne)]
    exact ih

/-- A loop that ends had a run of ones. -/
lemma lowOnes_of_softirqLoop {p : BitVec 32} {fuel h : ℕ} {s s' : Softirqs σ}
    (hrun : softirqLoop softirqVec fuel h p s = some s') : LowOnes p := by
  induction fuel generalizing h p s with
  | zero => simp [softirqLoop] at hrun
  | succ fuel ih =>
    by_cases hzero : p.toNat = 0
    · exact ⟨0, by omega⟩
    by_cases hodd : p.toNat % 2 = 1
    · rw [lowOnes_half hodd]
      rw [softirqLoop, if_pos ((and_one_ne_zero_iff p).2 hodd)] at hrun
      by_cases hnext : p >>> 1 = 0#32
      · exact ⟨0, by rw [hnext]; rfl⟩
      · split_ifs at hrun with hlt
        · dsimp only at hrun
          rw [if_pos hnext] at hrun
          exact ih hrun
    · rw [softirqLoop_even (by omega) hzero] at hrun
      simp at hrun

/-- The loop calls the actions of a run of ones, one after the other. -/
lemma softirqLoop_ones {p : BitVec 32} {k fuel h : ℕ} (hk : p.toNat + 1 = 2 ^ k)
    (hfuel : k < fuel) (hvec : h + k ≤ NR_SOFTIRQS) (s : Softirqs σ) :
    ∃ s', softirqLoop softirqVec fuel h p s = some s' ∧
      s'.called = s.called ++ List.range' h k := by
  induction k generalizing fuel h p s with
  | zero =>
    obtain ⟨fuel, rfl⟩ := Nat.exists_eq_succ_of_ne_zero (Nat.ne_of_gt hfuel)
    have hzero : p = 0#32 := BitVec.eq_of_toNat_eq (by simpa using hk)
    subst hzero
    exact ⟨s, by simp [softirqLoop], by simp⟩
  | succ k ih =>
    obtain ⟨fuel, rfl⟩ := Nat.exists_eq_succ_of_ne_zero (by omega : fuel ≠ 0)
    have hodd : p.toNat % 2 = 1 := by
      rw [pow_succ] at hk
      omega
    have hhalf : (p >>> 1).toNat + 1 = 2 ^ k := by
      rw [pow_succ] at hk
      rw [toNat_shiftRight_one]
      omega
    have hlt : h < NR_SOFTIRQS := by omega
    rw [softirqLoop, if_pos ((and_one_ne_zero_iff p).2 hodd), dif_pos hlt]
    dsimp only
    obtain ⟨s', hrun, hcalled⟩ := ih (h := h + 1) hhalf (by omega : k < fuel) (by omega)
      (callAction softirqVec ⟨h, hlt⟩ s)
    have hlist : s'.called = s.called ++ List.range' h (k + 1) := by
      rw [hcalled, callAction, List.append_assoc, List.range'_succ]
      rfl
    by_cases hnext : p >>> 1 = 0#32
    · have hk0 : k = 0 := by
        rw [hnext] at hhalf
        cases k with
        | zero => rfl
        | succ j =>
          have hpos : 0 < 2 ^ j := by positivity
          rw [pow_succ, show (0#32).toNat = 0 from rfl] at hhalf
          omega
      subst hk0
      exact ⟨_, if_neg (not_not.mpr hnext), by rw [callAction]; rfl⟩
    · exact ⟨s', by rw [if_pos hnext]; exact hrun, hlist⟩

/-! ### Dispatch -/

/-- `__do_softirq` ends, and has called the action of each softirq that was pending once, in
increasing order, and no other one. -/
def Dispatches (softirqVec : Fin NR_SOFTIRQS → SoftirqAction σ) (s : Softirqs σ) : Prop :=
  ∃ fuel s', doSoftirqInner softirqVec fuel s = some s' ∧
    s'.called = s.called ++ setBits s.softirqPending

/-- `__do_softirq` dispatches the pending softirqs exactly when their mask is a run of ones from
bit 0 on. -/
theorem doSoftirq_dispatches_iff (softirqVec : Fin NR_SOFTIRQS → SoftirqAction σ) (s : Softirqs σ)
    (hbits : s.softirqPending.toNat < 2 ^ NR_SOFTIRQS) :
    Dispatches softirqVec s ↔ LowOnes s.softirqPending := by
  constructor
  · rintro ⟨fuel, s', hrun, -⟩
    exact lowOnes_of_softirqLoop hrun
  · rintro ⟨k, hk⟩
    have hvec : k ≤ NR_SOFTIRQS :=
      (Nat.pow_le_pow_iff_right (show 1 < 2 by norm_num)).mp (by omega)
    obtain ⟨s', hrun, hcalled⟩ := softirqLoop_ones hk (Nat.lt_succ_self k)
      (by omega : 0 + k ≤ NR_SOFTIRQS) { s with softirqPending := 0#32 }
    refine ⟨k + 1, s', hrun, ?_⟩
    rw [hcalled, setBits_of_ones hk, List.range_eq_range']

/-- The processor after `raise_softirq` of the softirqs of a list, with actions that do nothing. -/
def raised (l : List ℕ) : Softirqs Unit :=
  l.foldl (fun s nr => raiseSoftirqIrqoff nr s) ⟨0#32, (), []⟩

/-- All three softirqs are dispatched. -/
theorem doSoftirq_dispatches_all :
    ∃ fuel s', doSoftirqInner (fun _ => id) fuel (raised [2, 0, 1]) = some s' ∧
      s'.called = [0, 1, 2] :=
  (doSoftirq_dispatches_iff (fun _ => id) (raised [2, 0, 1]) (by decide)).2 ⟨3, by decide⟩

/-- With `SCHED_SOFTIRQ` alone `__do_softirq` does not end. -/
theorem doSoftirq_sched_diverges :
    (raised [2]).softirqPending.toNat < 2 ^ NR_SOFTIRQS ∧
      (∀ fuel, doSoftirq (fun _ => id) fuel (raised [2]) = none) ∧
      ¬ Dispatches (fun _ => id) (raised [2]) := by
  have hnone : ∀ fuel, doSoftirqInner (fun _ => id) fuel (raised [2]) = none := fun fuel =>
    softirqLoop_even (by decide) (by decide) fuel 0 _
  refine ⟨by decide, fun fuel => ?_, ?_⟩
  · rw [doSoftirq, if_pos (by decide)]
    exact hnone fuel
  · rintro ⟨fuel, s', hrun, -⟩
    rw [hnone fuel] at hrun
    simp at hrun

end Minos.Core
