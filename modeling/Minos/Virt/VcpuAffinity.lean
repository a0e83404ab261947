import Mathlib
import Minos.Lib.Cycle
import Minos.Lib.Run
import Minos.Virt.GuestVm

/-!
# Placing the vcpus of a guest

`get_vcpu_affinity` gives the vcpus of a guest to the cpus that VM 0 does not use, and what is left
to those of VM 0. Two cursors go round in the two ranges and are kept from call to call.
-/

namespace Minos.Virt

open Run Cycle Hv

/-- `vcpu_affinity_init` -/
def vcpuAffinityInit (nrCpus vm0VcpuNr : ℤ) : AffinityPool where
  eBase := vm0VcpuNr
  eBaseCurrent := vm0VcpuNr
  eNr := nrCpus - vm0VcpuNr
  fBase := 0
  fBaseCurrent := 0
  fNr := vm0VcpuNr

/-- The pool after a call. -/
def affinityStep (nrCpus : ℤ) (p : AffinityPool) (nr : ℤ) : AffinityPool :=
  (getVcpuAffinity nrCpus nr p).2

/-- Different cpus, which `vm_check_vcpu_affinity` accepts, with cpu 0 among them only if the other
cpus are not enough. -/
structure ValidPlacement (nrCpus : ℕ) (nr : ℤ) (aff : ℕ → ℕ) : Prop where
  lt : ∀ i < nr.toNat, aff i < nrCpus
  distinct : ∀ i < nr.toNat, ∀ j < nr.toNat, aff i = aff j → i = j
  accepted : vmCheckVcpuAffinity nrCpus aff nr = true
  zero : (∃ i < nr.toNat, aff i = 0) → (nrCpus : ℤ) - 1 < nr

/-- The cursors are in their ranges. -/
structure PoolOk (nrCpus : ℤ) (p : AffinityPool) : Prop where
  base : 0 < p.eBase ∧ p.eBase ≤ nrCpus
  fBase : p.fBase = 0
  eNr : p.eNr = nrCpus - p.eBase
  fNr : p.fNr = p.eBase
  eCurrent : p.eBase ≤ p.eBaseCurrent ∧ (p.eBase < nrCpus → p.eBaseCurrent < nrCpus)
  fCurrent : 0 ≤ p.fBaseCurrent ∧ p.fBaseCurrent < p.eBase

variable {nrCpus nr : ℤ} {p : AffinityPool}

/-! ### The two loops -/

/-- The first loop gives out a window of the cpus from `e_base` on. -/
lemma takeE_eq (h : PoolOk nrCpus p) (hlt : p.eBase < nrCpus) (n : ℕ) :
    (takeE nrCpus n p).1 = window p.eBase (nrCpus - p.eBase) (p.eBaseCurrent - p.eBase) n ∧
      ∃ cur, (takeE nrCpus n p).2 = { p with eBaseCurrent := cur } ∧
        p.eBase ≤ cur ∧ cur < nrCpus := by
  induction n generalizing p with
  | zero => exact ⟨rfl, p.eBaseCurrent, rfl, h.eCurrent.1, h.eCurrent.2 hlt⟩
  | succ n ih =>
    obtain ⟨hlo, hhi⟩ := h.eCurrent
    have hhi := hhi hlt
    have hnext : (if p.eBaseCurrent + 1 = nrCpus then p.eBase else p.eBaseCurrent + 1) =
        p.eBase + (p.eBaseCurrent - p.eBase + 1) % (nrCpus - p.eBase) := by
      rw [succ_emod (by omega) (by omega)]
      split_ifs <;> omega
    rw [takeE, window_succ (by omega) (by omega)]
    dsimp only
    rw [hnext]
    have hmod := Int.emod_nonneg (p.eBaseCurrent - p.eBase + 1)
      (show nrCpus - p.eBase ≠ 0 by omega)
    have hmod' := Int.emod_lt_of_pos (p.eBaseCurrent - p.eBase + 1)
      (show 0 < nrCpus - p.eBase by omega)
    generalize (p.eBaseCurrent - p.eBase + 1) % (nrCpus - p.eBase) = q at *
    obtain ⟨hlist, cur, hpool, hcur⟩ := ih (p := { p with eBaseCurrent := p.eBase + q })
      ⟨h.base, h.fBase, h.eNr, h.fNr, ⟨by dsimp only; omega, fun _ => by dsimp only; omega⟩,
        h.fCurrent⟩ hlt
    refine ⟨?_, cur, hpool, hcur⟩
    rw [hlist]
    dsimp only
    congr 1
    · omega
    · congr 1
      omega

lemma nextF_eq (h : PoolOk nrCpus p) (cur : ℤ) (hlo : 0 ≤ cur) (hhi : cur < p.eBase) :
    nextF p cur = (cur + 1) % p.eBase := by
  rw [nextF, h.fBase, succ_emod hlo hhi]

lemma PoolOk.setF (h : PoolOk nrCpus p) {cur : ℤ} (hcur : 0 ≤ cur ∧ cur < p.eBase) :
    PoolOk nrCpus { p with fBaseCurrent := cur } :=
  ⟨h.base, h.fBase, h.eNr, h.fNr, h.eCurrent, hcur⟩

/-- With fewer vcpus than cpus of VM 0, the second loop leaves out cpu 0. -/
lemma takeF_skip (h : PoolOk nrCpus p) (hone : 1 < p.eBase) {f : ℤ} (hf : f < p.fNr) (n i : ℕ) :
    (takeF f n i p).1 = window 1 (p.eBase - 1) (max p.fBaseCurrent 1 - 1) n ∧
      ∃ cur, (takeF f n i p).2 = { p with fBaseCurrent := cur } ∧ 0 ≤ cur ∧ cur < p.eBase := by
  induction n generalizing p i with
  | zero => exact ⟨rfl, p.fBaseCurrent, rfl, h.fCurrent⟩
  | succ n ih =>
    obtain ⟨hlo, hhi⟩ := h.fCurrent
    have hcur : (if p.fBaseCurrent = 0 ∧ (f < p.fNr ∨ i = 0) then nextF p p.fBaseCurrent
        else p.fBaseCurrent) = max p.fBaseCurrent 1 := by
      split_ifs with h0
      · rw [h0.1, nextF_eq h 0 le_rfl (by omega), Int.emod_eq_of_lt (by omega) (by omega)]
        rfl
      · have : p.fBaseCurrent ≠ 0 := fun h0' => h0 ⟨h0', .inl hf⟩
        omega
    have hnext := nextF_eq h (max p.fBaseCurrent 1) (by omega) (by omega)
    rw [succ_emod (by omega) (by omega)] at hnext
    rw [takeF, window_succ (by omega) (by omega), succ_emod (by omega) (by omega)]
    dsimp only
    rw [hcur]
    generalize nextF p (max p.fBaseCurrent 1) = next at *
    have hrange : 0 ≤ next ∧ next < p.eBase := by
      split_ifs at hnext <;> omega
    obtain ⟨hlist, cur, hpool, hcur'⟩ := ih (h.setF hrange) hone hf (i + 1)
    refine ⟨?_, cur, hpool, hcur'⟩
    rw [hlist]
    dsimp only
    congr 1
    · omega
    · congr 1
      split_ifs at hnext ⊢ <;> omega

/-- After the first round the second loop goes round all cpus of VM 0 when it needs them all. -/
lemma takeF_round (h : PoolOk nrCpus p) {f : ℤ} (hf : p.fNr ≤ f) (n i : ℕ) :
    (takeF f n (i + 1) p).1 = window 0 p.eBase p.fBaseCurrent n ∧
      ∃ cur, (takeF f n (i + 1) p).2 = { p with fBaseCurrent := cur } ∧
        0 ≤ cur ∧ cur < p.eBase := by
  induction n generalizing p i with
  | zero => exact ⟨rfl, p.fBaseCurrent, rfl, h.fCurrent⟩
  | succ n ih =>
    obtain ⟨hlo, hhi⟩ := h.fCurrent
    have hcur : ¬(p.fBaseCurrent = 0 ∧ (f < p.fNr ∨ i + 1 = 0)) := by omega
    have hrange : 0 ≤ (p.fBaseCurrent + 1) % p.eBase ∧
        (p.fBaseCurrent + 1) % p.eBase < p.eBase :=
      ⟨Int.emod_nonneg _ (by omega), Int.emod_lt_of_pos _ (by omega)⟩
    rw [takeF, window_succ hlo hhi]
    dsimp only
    rw [if_neg hcur, nextF_eq h _ hlo hhi]
    obtain ⟨hlist, cur, hpool, hcur'⟩ := ih (h.setF hrange) hf (i + 1)
    refine ⟨?_, cur, hpool, hcur'⟩
    rw [hlist, zero_add]

/-- All cpus of VM 0, from the cursor on or from the one after it. -/
lemma takeF_all (h : PoolOk nrCpus p) {f : ℤ} (hf : p.fNr ≤ f) (n : ℕ) :
    (∃ q, (takeF f n 0 p).1 = window 0 p.eBase q n) ∧
      ∃ cur, (takeF f n 0 p).2 = { p with fBaseCurrent := cur } ∧ 0 ≤ cur ∧ cur < p.eBase := by
  cases n with
  | zero => exact ⟨⟨0, rfl⟩, p.fBaseCurrent, rfl, h.fCurrent⟩
  | succ n =>
    obtain ⟨hlo, hhi⟩ := h.fCurrent
    have hrange : ∀ cur, 0 ≤ (cur + 1) % p.eBase ∧ (cur + 1) % p.eBase < p.eBase :=
      fun _ => ⟨Int.emod_nonneg _ (by omega), Int.emod_lt_of_pos _ (by omega)⟩
    obtain ⟨c, hc, hclo, hchi⟩ : ∃ c, (if p.fBaseCurrent = 0 ∧ (f < p.fNr ∨ (0 : ℕ) = 0) then
        nextF p p.fBaseCurrent else p.fBaseCurrent) = c ∧ 0 ≤ c ∧ c < p.eBase := by
      refine ⟨_, rfl, ?_⟩
      split_ifs
      · rw [nextF_eq h _ hlo hhi]
        exact hrange _
      · exact h.fCurrent
    rw [takeF]
    dsimp only
    rw [hc, nextF_eq h _ hclo hchi]
    obtain ⟨hlist, cur, hpool, hcur⟩ := takeF_round (h.setF (hrange c)) hf n 0
    refine ⟨⟨c, ?_⟩, cur, hpool, hcur⟩
    rw [hlist, window_succ hclo hchi, zero_add]

/-! ### One call -/

/-- The cpus that `get_vcpu_affinity` writes, before they are stored as `uint32_t`. -/
def affinityList (nrCpus nr : ℤ) (p : AffinityPool) : List ℤ :=
  (takeE nrCpus (min nr p.eNr).toNat p).1 ++
    (takeF (nr - min nr p.eNr) (nr - min nr p.eNr).toNat 0
      (takeE nrCpus (min nr p.eNr).toNat p).2).1

/-- What the first loop gives out for at most `e_nr` vcpus. -/
lemma takeE_spec (h : PoolOk nrCpus p) {n : ℕ} (hn : (n : ℤ) ≤ p.eNr) :
    PoolOk nrCpus (takeE nrCpus n p).2 ∧ (takeE nrCpus n p).2.eBase = p.eBase ∧
      (takeE nrCpus n p).1.length = n ∧ (takeE nrCpus n p).1.Nodup ∧
      ∀ x ∈ (takeE nrCpus n p).1, p.eBase ≤ x ∧ x < nrCpus := by
  have heNr := h.eNr
  rcases h.base.2.lt_or_eq with hlt | heq
  · obtain ⟨hlist, cur, hpool, hlo, hhi⟩ := takeE_eq h hlt n
    rw [hlist, hpool]
    refine ⟨⟨h.base, h.fBase, h.eNr, h.fNr, ⟨hlo, fun _ => hhi⟩, h.fCurrent⟩, rfl,
      length_window, nodup_window (by omega), fun x hx => ?_⟩
    have := mem_window (by omega) hx
    omega
  · obtain rfl : n = 0 := by omega
    exact ⟨h, rfl, rfl, List.nodup_nil, fun x hx => by simp [takeE] at hx⟩

/-- What the second loop gives out for at most `f_nr` vcpus. -/
lemma takeF_spec (h : PoolOk nrCpus p) {f : ℤ} (hf : 0 ≤ f) (hle : f ≤ p.fNr) :
    PoolOk nrCpus (takeF f f.toNat 0 p).2 ∧ (takeF f f.toNat 0 p).1.length = f.toNat ∧
      (takeF f f.toNat 0 p).1.Nodup ∧
      (∀ x ∈ (takeF f f.toNat 0 p).1, 0 ≤ x ∧ x < p.eBase) ∧
      (0 ∈ (takeF f f.toNat 0 p).1 → f = p.fNr) := by
  have hfNr := h.fNr
  rcases hf.lt_or_eq with hpos | rfl
  · rcases hle.lt_or_eq with hlt | rfl
    · obtain ⟨hlist, cur, hpool, hcur⟩ := takeF_skip h (by omega) hlt f.toNat 0
      have hmem : ∀ x ∈ (takeF f f.toNat 0 p).1, 1 ≤ x ∧ x < p.eBase := by
        intro x hx
        rw [hlist] at hx
        have := mem_window (by omega) hx
        omega
      refine ⟨hpool ▸ h.setF hcur, ?_, ?_, fun x hx => ?_, fun hx => ?_⟩
      · rw [hlist, length_window]
      · rw [hlist]
        exact nodup_window (by omega)
      · have := hmem x hx
        omega
      · have := hmem 0 hx
        omega
    · obtain ⟨⟨q, hlist⟩, cur, hpool, hcur⟩ := takeF_all h le_rfl p.fNr.toNat
      refine ⟨hpool ▸ h.setF hcur, ?_, ?_, fun x hx => ?_, fun _ => rfl⟩
      · rw [hlist, length_window]
      · rw [hlist]
        exact nodup_window (by omega)
      · rw [hlist] at hx
        have := mem_window (by omega) hx
        omega
  · exact ⟨h, rfl, List.nodup_nil, fun x hx => by simp [takeF] at hx,
      fun hx => by simp [takeF] at hx⟩

/-- A call keeps the cursors in their ranges and gives out different cpus. -/
lemma affinityStep_spec (h : PoolOk nrCpus p) (hpos : 0 < nr) (hle : nr ≤ nrCpus) :
    PoolOk nrCpus (affinityStep nrCpus p nr) ∧
      (affinityList nrCpus nr p).length = nr.toNat ∧ (affinityList nrCpus nr p).Nodup ∧
      (∀ x ∈ affinityList nrCpus nr p, 0 ≤ x ∧ x < nrCpus) ∧
      (0 ∈ affinityList nrCpus nr p → nrCpus - 1 < nr) := by
  obtain ⟨hbase, hbase'⟩ := h.base
  have heNr := h.eNr
  have hfNr := h.fNr
  obtain ⟨hokE, hbaseE, hlenE, hnodupE, hmemE⟩ :=
    takeE_spec h (n := (min nr p.eNr).toNat) (by omega)
  have hfNrE := hokE.fNr
  rw [hbaseE] at hfNrE
  obtain ⟨hokF, hlenF, hnodupF, hmemF, hzeroF⟩ :=
    takeF_spec hokE (f := nr - min nr p.eNr) (by omega) (by omega)
  rw [hbaseE] at hmemF
  unfold affinityList
  refine ⟨hokF, ?_, ?_, fun x hx => ?_, fun hx => ?_⟩
  · rw [List.length_append, hlenE, hlenF]
    omega
  · refine List.nodup_append.2 ⟨hnodupE, hnodupF, fun x hx y hy hxy => ?_⟩
    have := hmemE x hx
    have := hmemF y hy
    omega
  · rcases List.mem_append.1 hx with hx | hx
    · have := hmemE x hx
      omega
    · have := hmemF x hx
      omega
  · rcases List.mem_append.1 hx with hx | hx
    · have := hmemE 0 hx
      omega
    · have := hzeroF hx
      omega

/-! ### `vm_check_vcpu_affinity` -/

/-- Different cpus below the limit are accepted. -/
lemma checkAffinityFrom_of_distinct {maxVcpu n i mask : ℕ} {aff : ℕ → ℕ}
    (hlt : ∀ j < i + n, aff j < maxVcpu)
    (hdistinct : ∀ j < i + n, ∀ k < i + n, aff j = aff k → j = k)
    (hmask : ∀ b, mask.testBit b = true → ∃ j < i, aff j = b) :
    checkAffinityFrom maxVcpu aff n i mask = true := by
  induction n generalizing i mask with
  | zero => rfl
  | succ n ih =>
    have hfree : mask &&& 1 <<< aff i = 0 := by
      refine Nat.eq_of_testBit_eq fun b => ?_
      rw [Nat.zero_testBit, Nat.testBit_and, Nat.one_shiftLeft, Nat.testBit_two_pow,
        Bool.and_eq_false_imp]
      intro hb
      obtain ⟨j, hj, rfl⟩ := hmask b hb
      rw [decide_eq_false_iff_not]
      intro heq
      have := hdistinct i (by omega) j (by omega) heq
      omega
    have hlt' := hlt i (by omega)
    rw [checkAffinityFrom, if_neg (by omega), if_neg (by rw [hfree]; simp)]
    refine ih (fun j hj => hlt j (by omega))
      (fun j hj k hk => hdistinct j (by omega) k (by omega)) fun b hb => ?_
    rw [Nat.testBit_or, Nat.one_shiftLeft, Nat.testBit_two_pow, Bool.or_eq_true,
      decide_eq_true_eq] at hb
    rcases hb with hb | rfl
    · obtain ⟨j, hj, rfl⟩ := hmask b hb
      exact ⟨j, by omega, rfl⟩
    · exact ⟨i, by omega, rfl⟩

/-! ### Every call -/

lemma getVcpuAffinity_eq {n : ℕ} (hn : (n : ℤ) < 2 ^ 31) {i : ℕ}
    (hmem : ∀ x ∈ affinityList n nr p, 0 ≤ x ∧ x < n)
    (hi : i < (affinityList n nr p).length) :
    (((getVcpuAffinity n nr p).1 i : ℕ) : ℤ) = (affinityList n nr p)[i] := by
  have hx := hmem _ (List.getElem_mem hi)
  have hget : (getVcpuAffinity n nr p).1 i =
      (((affinityList n nr p)[i]?.getD 0) % 2 ^ 32).toNat := rfl
  rw [hget, List.getElem?_eq_getElem hi, Option.getD_some,
    Int.emod_eq_of_lt hx.1 (by omega), Int.toNat_of_nonneg hx.1]

lemma validPlacement {n : ℕ} (hn : (n : ℤ) < 2 ^ 31) (h : PoolOk n p) (hpos : 0 < nr)
    (hle : nr ≤ n) : ValidPlacement n nr (getVcpuAffinity n nr p).1 := by
  obtain ⟨-, hlen, hnodup, hmem, hzero⟩ := affinityStep_spec h hpos hle
  have hval : ∀ i (hi : i < nr.toNat), (((getVcpuAffinity n nr p).1 i : ℕ) : ℤ) =
      (affinityList n nr p)[i] := fun i hi => getVcpuAffinity_eq hn hmem (hlen ▸ hi)
  have hlt : ∀ i < nr.toNat, (getVcpuAffinity n nr p).1 i < n := by
    intro i hi
    have := hval i hi
    have := hmem _ (List.getElem_mem (hlen ▸ hi))
    omega
  have hdistinct : ∀ i < nr.toNat, ∀ j < nr.toNat,
      (getVcpuAffinity n nr p).1 i = (getVcpuAffinity n nr p).1 j → i = j := by
    intro i hi j hj heq
    have hsame : (affinityList n nr p)[i] = (affinityList n nr p)[j] := by
      rw [← hval i hi, ← hval j hj, heq]
    exact hnodup.getElem_inj_iff.1 hsame
  refine ⟨hlt, hdistinct, ?_, ?_⟩
  · refine checkAffinityFrom_of_distinct (i := 0) ?_ ?_ ?_
    · simpa using hlt
    · simpa using hdistinct
    · simp
  · rintro ⟨i, hi, h0⟩
    refine hzero ?_
    have hfirst := hval i hi
    rw [h0, Nat.cast_zero] at hfirst
    rw [hfirst]
    exact List.getElem_mem _

/-- **Placement of vcpus.** In every history of calls, each one gives out different cpus, and cpu 0
only if the others are not enough. -/
theorem getVcpuAffinity_valid (nrCpus vm0VcpuNr : ℕ) (hcpus : nrCpus < 2 ^ 31)
    (hvm0 : 1 ≤ vm0VcpuNr ∧ vm0VcpuNr ≤ nrCpus) (calls : List ℤ)
    (hcalls : ∀ nr ∈ calls, 0 < nr ∧ nr ≤ nrCpus) :
    Along (affinityStep nrCpus)
      (fun p nr => ValidPlacement nrCpus nr (getVcpuAffinity nrCpus nr p).1)
      (vcpuAffinityInit nrCpus vm0VcpuNr) calls := by
  have hinit : PoolOk nrCpus (vcpuAffinityInit nrCpus vm0VcpuNr) := by
    constructor <;> simp only [vcpuAffinityInit] <;> omega
  exact along_induction (I := PoolOk nrCpus) (Q := fun _ (nr : ℤ) => 0 < nr ∧ nr ≤ nrCpus)
    (fun p nr h hnr => (affinityStep_spec h hnr.1 hnr.2).1)
    (fun p nr h hnr => validPlacement (by exact_mod_cast hcpus) h hnr.1 hnr.2) hinit
    (along_const.2 hcalls)

/-- Four cpus, of which VM 0 uses two, and guests with three, one and four vcpus. -/
theorem getVcpuAffinity_valid_four :
    Along (affinityStep (4 : ℕ))
      (fun p nr => ValidPlacement 4 nr (getVcpuAffinity (4 : ℕ) nr p).1)
      (vcpuAffinityInit (4 : ℕ) (2 : ℕ)) [3, 1, 4] :=
  getVcpuAffinity_valid 4 2 (by decide) (by decide) [3, 1, 4] (by decide)

end Minos.Virt
