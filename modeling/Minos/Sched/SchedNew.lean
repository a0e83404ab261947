import Mathlib

/-!
# The choice of realtime tasks

Realtime tasks are known by their priority, and the ready ones are bits of a table: a byte for each
group of eight priorities, and a byte that says which groups are not empty. `sched_new` takes the
lowest ready priorities out of a copy of the table and spreads them over the cpus, so that a cpu
keeps the task it runs if this task is among them.
-/

namespace Minos.Sched

def OS_LOWEST_PRIO : ℕ := 63
def OS_PRIO_PCPU : ℕ := 64
def OS_PRIO_IDLE : ℕ := 65

/-- `SCHED_CLASS_LOCAL` and `SCHED_CLASS_GLOBAL` -/
inductive SchedClass where
  | loc
  | global
deriving DecidableEq, Repr

/-! ### The ready table -/

/-- `os_rdy_grp` and `os_rdy_table` -/
structure ReadyTable where
  grp : BitVec 8
  table : ℕ → BitVec 8

/-- `ffs_table`: the place of the lowest bit that is set -/
def ffsTable (v : BitVec 8) : ℕ := ((List.range 8).find? fun i => v.getLsbD i).getD 0

namespace ReadyTable

/-- The task with the priority `p` is ready. -/
def Ready (t : ReadyTable) (p : ℕ) : Prop := p ≤ OS_LOWEST_PRIO ∧ (t.table (p / 8)).getLsbD (p % 8)

instance (t : ReadyTable) : DecidablePred t.Ready :=
  fun _ => inferInstanceAs (Decidable (_ ∧ _))

/-- The group byte knows which groups are empty. -/
def Consistent (t : ReadyTable) : Prop := ∀ y < 8, t.grp.getLsbD y = true ↔ t.table y ≠ 0

instance (t : ReadyTable) : Decidable t.Consistent :=
  inferInstanceAs (Decidable (∀ y < 8, t.grp.getLsbD y = true ↔ t.table y ≠ 0))

/-- `__rdy_table == 0` -/
def isZero (t : ReadyTable) : Bool := (List.range 8).all fun y => t.table y = 0

/-- `(y << 3) + x` for the lowest group `y` that is not empty and its lowest bit `x` -/
def highest (t : ReadyTable) : ℕ := ffsTable t.grp * 8 + ffsTable (t.table (ffsTable t.grp))

/-- Clearing the bit of a priority, and the bit of its group when nothing is left of it. -/
def clear (t : ReadyTable) (p : ℕ) : ReadyTable :=
  let byte := t.table (p / 8) &&& ~~~(1#8 <<< (p % 8))
  { grp := if byte = 0 then t.grp &&& ~~~(1#8 <<< (p / 8)) else t.grp
    table := Function.update t.table (p / 8) byte }

/-- `set_task_ready` for a realtime task -/
def set (t : ReadyTable) (p : ℕ) : ReadyTable where
  grp := t.grp ||| 1#8 <<< (p / 8)
  table := Function.update t.table (p / 8) (t.table (p / 8) ||| 1#8 <<< (p % 8))

end ReadyTable

/-! ### `sched_new` -/

/-- The local variables of `sched_new`. -/
structure Pick where
  rdy : ReadyTable
  ncpuHighest : ℕ → ℕ
  highMap : ℕ → Bool
  currentMap : ℕ → Bool

/-- The highest ready priority goes from the copy of the table to `ncpu_highest`. -/
def pickOne (s : Pick) (i : ℕ) : Pick :=
  { s with
    ncpuHighest := Function.update s.ncpuHighest i s.rdy.highest
    rdy := s.rdy.clear s.rdy.highest }

/-- The first loop, over the cpus that are left. -/
def pickLoop (cls : ℕ → SchedClass) : List ℕ → Pick → Pick
  | [], s => s
  | i :: rest, s =>
    match cls i with
    | .loc => pickLoop cls rest { s with
        currentMap := Function.update s.currentMap i true
        highMap := Function.update s.highMap i true }
    | .global =>
      if (pickOne s i).rdy.isZero then pickOne s i else pickLoop cls rest (pickOne s i)

/-- `has_high_prio` -/
def hasHighPrio (n prio : ℕ) (array : ℕ → ℕ) (map : ℕ → Bool) : Bool :=
  (List.range n).any fun i => !map i && prio == array i

/-- `has_current_prio`: one more than the place of the priority, or zero -/
def hasCurrentPrio (n prio : ℕ) (array : ℕ → ℕ) (map : ℕ → Bool) : ℕ :=
  match (List.range n).find? fun i => prio == array i && !map i with
  | some i => i + 1
  | none => 0

/-- `os_highest_rdy` with the two maps. -/
structure Place where
  highestRdy : ℕ → ℕ
  highMap : ℕ → Bool
  currentMap : ℕ → Bool

/-- The body of the second loop of `sched_new`, for the cpu `i`. -/
def placeCpu (n : ℕ) (ncpuHighest prioCur : ℕ → ℕ) (s : Place) (i : ℕ) : Place :=
  let k := hasCurrentPrio n (prioCur i) ncpuHighest s.highMap
  if 0 < k then
    { highestRdy := Function.update s.highestRdy i (prioCur i)
      highMap := Function.update s.highMap (k - 1) true
      currentMap := Function.update s.currentMap i true }
  else
    match (List.range n).find? fun j =>
        !s.highMap j && !hasHighPrio n (ncpuHighest j) prioCur s.currentMap with
    | none => s
    | some j =>
      { s with
        highestRdy := Function.update s.highestRdy i (ncpuHighest j)
        highMap := Function.update s.highMap j true }

/-- `sched_new` on `n` cpus: the new `os_highest_rdy` -/
def schedNew (n : ℕ) (cls : ℕ → SchedClass) (rdy : ReadyTable) (prioCur : ℕ → ℕ) : ℕ → ℕ :=
  if rdy.isZero then fun _ => OS_PRIO_PCPU
  else
    let s := pickLoop cls (List.range n)
      ⟨rdy, fun _ => OS_PRIO_IDLE + 1, fun _ => false, fun _ => false⟩
    let t := (List.range n).foldl (placeCpu n s.ncpuHighest prioCur)
      ⟨fun _ => OS_PRIO_PCPU, s.highMap, s.currentMap⟩
    fun i => if OS_PRIO_PCPU < t.highestRdy i then OS_PRIO_PCPU else t.highestRdy i

/-! ### The lowest ready priority -/

namespace ReadyTable

variable {t : ReadyTable} {p q : ℕ}

lemma ffsTable_spec {v : BitVec 8} (h : v ≠ 0) :
    ffsTable v < 8 ∧ v.getLsbD (ffsTable v) = true ∧ ∀ i < ffsTable v, v.getLsbD i = false := by
  rw [ffsTable]
  cases hf : (List.range 8).find? fun i => v.getLsbD i with
  | none =>
    refine absurd (BitVec.eq_of_getLsbD_eq fun i hi => ?_) h
    have := List.find?_eq_none.1 hf i (List.mem_range.2 hi)
    simpa using this
  | some i =>
    obtain ⟨hp, hmem, hmin⟩ := List.find?_range_eq_some.1 hf
    refine ⟨List.mem_range.1 hmem, hp, fun j hj => ?_⟩
    simpa using hmin j hj

lemma isZero_iff : t.isZero = true ↔ ∀ p, ¬ t.Ready p := by
  simp only [isZero, List.all_eq_true, List.mem_range, decide_eq_true_eq]
  constructor
  · rintro h p ⟨hp, hbit⟩
    rw [h (p / 8) (by simp only [ OS_LOWEST_PRIO] at hp; omega)] at hbit
    simp at hbit
  · intro h y hy
    refine BitVec.eq_of_getLsbD_eq fun x hx => ?_
    have := h (y * 8 + x)
    rw [Ready, show (y * 8 + x) / 8 = y by omega, show (y * 8 + x) % 8 = x by omega] at this
    simp only [ OS_LOWEST_PRIO] at this
    simpa [show y * 8 + x ≤ 63 by omega] using this

/-- `sched_new` finds the lowest ready priority. -/
lemma highest_spec (hc : t.Consistent) (hz : t.isZero = false) :
    t.Ready t.highest ∧ ∀ p < t.highest, ¬ t.Ready p := by
  have hgrp : t.grp ≠ 0 := by
    intro h0
    rw [← Bool.not_eq_true, isZero_iff] at hz
    push Not at hz
    obtain ⟨p, hp, hbit⟩ := hz
    have hne : t.table (p / 8) ≠ 0 := by
      intro hzero
      rw [hzero] at hbit
      simp at hbit
    have := (hc (p / 8) (by simp only [ OS_LOWEST_PRIO] at hp; omega)).2 hne
    rw [h0] at this
    simp at this
  obtain ⟨hy, hyset, hymin⟩ := ffsTable_spec hgrp
  obtain ⟨hx, hxset, hxmin⟩ := ffsTable_spec ((hc _ hy).1 hyset)
  have hdiv : t.highest / 8 = ffsTable t.grp := by
    rw [highest]
    omega
  have hmod : t.highest % 8 = ffsTable (t.table (ffsTable t.grp)) := by
    rw [highest]
    omega
  refine ⟨⟨?_, ?_⟩, ?_⟩
  · simp only [ OS_LOWEST_PRIO, highest]
    omega
  · rw [hdiv, hmod]
    exact hxset
  · rintro p hlt ⟨hp, hbit⟩
    simp only [ OS_LOWEST_PRIO] at hp
    rcases Nat.lt_or_ge (p / 8) (ffsTable t.grp) with hdivlt | hdivge
    · -- an earlier group is empty
      have hempty : t.table (p / 8) = 0 := by
        by_contra hne
        have := (hc (p / 8) (by omega)).2 hne
        rw [hymin _ hdivlt] at this
        cases this
      rw [hempty] at hbit
      simp at hbit
    · have hsame : p / 8 = ffsTable t.grp := by
        simp only [highest] at hlt
        omega
      rw [hsame] at hbit
      have := hxmin (p % 8) (by simp only [highest] at hlt; omega)
      rw [this] at hbit
      cases hbit

lemma getLsbD_clear_byte {v : BitVec 8} {x i : ℕ} (hi : i < 8) :
    (v &&& ~~~(1#8 <<< x)).getLsbD i = (v.getLsbD i && decide (i ≠ x)) := by
  simp only [BitVec.getLsbD_and, BitVec.getLsbD_not, BitVec.getLsbD_shiftLeft, BitVec.getLsbD_one]
  rcases lt_trichotomy i x with h | h | h
  · simp [hi, h, h.ne]
  · simp [h]
  · simp [hi, h.ne', show ¬ i < x by omega, show i - x ≠ 0 by omega]

lemma ready_clear (hp : p ≤ OS_LOWEST_PRIO) : (t.clear p).Ready q ↔ t.Ready q ∧ q ≠ p := by
  simp only [Ready, clear, OS_LOWEST_PRIO] at hp ⊢
  by_cases hdiv : q / 8 = p / 8
  · rw [hdiv, Function.update_self, getLsbD_clear_byte (by omega)]
    have : q % 8 ≠ p % 8 ↔ q ≠ p := by omega
    simp only [Bool.and_eq_true, decide_eq_true_eq, this]
    tauto
  · rw [Function.update_of_ne hdiv]
    have : q ≠ p := by
      rintro rfl
      exact hdiv rfl
    tauto

lemma clear_consistent (hc : t.Consistent) (hp : p ≤ OS_LOWEST_PRIO) :
    (t.clear p).Consistent := by
  intro y hy
  have hp8 : p / 8 < 8 := by
    simp only [ OS_LOWEST_PRIO] at hp
    omega
  simp only [clear]
  by_cases hyp : y = p / 8
  · subst hyp
    rw [Function.update_self]
    split_ifs with hbyte
    · rw [getLsbD_clear_byte hp8]
      simp [hbyte]
    · have hne : t.table (p / 8) ≠ 0 := by
        intro h0
        rw [h0] at hbyte
        simp at hbyte
      exact iff_of_true ((hc _ hp8).2 hne) hbyte
  · rw [Function.update_of_ne hyp, ← hc y hy]
    split_ifs
    · rw [getLsbD_clear_byte hy]
      simp [hyp]
    · rfl

end ReadyTable

/-! ### The first loop -/

/-- What the first loop leaves in `ncpu_highest`: the lowest ready priorities in order, and after
them a value that is no priority. -/
structure Picked (Ready : ℕ → Prop) (n : ℕ) (H : ℕ → ℕ) (m : ℕ) : Prop where
  le : m ≤ n
  ready : ∀ j < m, Ready (H j)
  mono : ∀ i j, i < j → j < m → H i < H j
  rest : ∀ j, m ≤ j → H j = OS_PRIO_IDLE + 1
  lowest : ∀ q, Ready q → (∀ j < m, H j ≠ q) → m = n ∧ ∀ j < m, H j < q

/-- The loop after `k` rounds, in which it has not run out of priorities. -/
structure Picking (Ready : ℕ → Prop) (k : ℕ) (s : Pick) : Prop where
  consistent : s.rdy.Consistent
  more : s.rdy.isZero = false
  left : ∀ q, s.rdy.Ready q ↔ Ready q ∧ ∀ j < k, s.ncpuHighest j ≠ q
  ready : ∀ j < k, Ready (s.ncpuHighest j)
  mono : ∀ i j, i < j → j < k → s.ncpuHighest i < s.ncpuHighest j
  below : ∀ q, s.rdy.Ready q → ∀ j < k, s.ncpuHighest j < q
  rest : ∀ j, k ≤ j → s.ncpuHighest j = OS_PRIO_IDLE + 1
  maps : s.highMap = (fun _ => false) ∧ s.currentMap = fun _ => false

section Pick

variable {Ready : ℕ → Prop} {k : ℕ} {s : Pick}

lemma pickOne_ncpuHighest_of_lt {j : ℕ} (h : j < k) :
    (pickOne s k).ncpuHighest j = s.ncpuHighest j :=
  Function.update_of_ne h.ne _ _

lemma pickOne_ncpuHighest_self : (pickOne s k).ncpuHighest k = s.rdy.highest :=
  Function.update_self _ _ _

/-- The round takes the lowest of what is left. -/
lemma pickOne_spec (h : Picking Ready k s) :
    (pickOne s k).rdy.Consistent ∧
    (∀ q, (pickOne s k).rdy.Ready q ↔ Ready q ∧ ∀ j < k + 1, (pickOne s k).ncpuHighest j ≠ q) ∧
    (∀ j < k + 1, Ready ((pickOne s k).ncpuHighest j)) ∧
    (∀ i j, i < j → j < k + 1 → (pickOne s k).ncpuHighest i < (pickOne s k).ncpuHighest j) ∧
    (∀ q, (pickOne s k).rdy.Ready q → ∀ j < k + 1, (pickOne s k).ncpuHighest j < q) ∧
    ∀ j, k + 1 ≤ j → (pickOne s k).ncpuHighest j = OS_PRIO_IDLE + 1 := by
  obtain ⟨hready, hmin⟩ := ReadyTable.highest_spec h.consistent h.more
  have hclear : ∀ q, (pickOne s k).rdy.Ready q ↔ s.rdy.Ready q ∧ q ≠ s.rdy.highest :=
    fun q => ReadyTable.ready_clear hready.1
  have hcases : ∀ {P : ℕ → Prop}, (∀ j < k, P (s.ncpuHighest j)) → P s.rdy.highest →
      ∀ j < k + 1, P ((pickOne s k).ncpuHighest j) := by
    intro P hlt hself j hj
    rcases (Nat.lt_succ_iff.1 hj).eq_or_lt with rfl | hjk
    · rwa [pickOne_ncpuHighest_self]
    · rw [pickOne_ncpuHighest_of_lt hjk]
      exact hlt j hjk
  refine ⟨ReadyTable.clear_consistent h.consistent hready.1, fun q => ?_, ?_, ?_, fun q hq => ?_,
    ?_⟩
  · rw [hclear, h.left]
    constructor
    · rintro ⟨⟨hq, hne⟩, hp⟩
      exact ⟨hq, hcases (P := fun p => p ≠ q) hne hp.symm⟩
    · rintro ⟨hq, hne⟩
      refine ⟨⟨hq, fun j hj => ?_⟩, ?_⟩
      · rw [← pickOne_ncpuHighest_of_lt hj]
        exact hne j (by omega)
      · rw [← pickOne_ncpuHighest_self (s := s)]
        exact (hne k (by omega)).symm
  · exact hcases h.ready ((h.left _).1 hready).1
  · intro i j hij hj
    rw [pickOne_ncpuHighest_of_lt (show i < k by omega)]
    rcases (Nat.lt_succ_iff.1 hj).eq_or_lt with rfl | hjk
    · rw [pickOne_ncpuHighest_self]
      exact h.below _ hready i hij
    · rw [pickOne_ncpuHighest_of_lt hjk]
      exact h.mono i j hij hjk
  · obtain ⟨hq, hne⟩ := (hclear q).1 hq
    refine hcases (P := fun p => p < q) (fun j hj => h.below q hq j hj) ?_
    exact lt_of_le_of_ne (not_lt.1 fun hlt => hmin q hlt hq) hne.symm
  · intro j hj
    have hne : j ≠ k := by omega
    exact (Function.update_of_ne hne _ _).trans (h.rest j (by omega))

lemma pickLoop_spec {n l : ℕ} (h : Picking Ready k s) (hn : k + l = n) :
    ∃ m, Picked Ready n
        (pickLoop (fun _ => .global) (List.range' k l) s).ncpuHighest m ∧
      (pickLoop (fun _ => .global) (List.range' k l) s).highMap = (fun _ => false) ∧
      (pickLoop (fun _ => .global) (List.range' k l) s).currentMap = fun _ => false := by
  induction l generalizing k s with
  | zero =>
    refine ⟨k, ⟨by omega, h.ready, h.mono, h.rest, fun q hq hne => ⟨by omega, ?_⟩⟩, h.maps⟩
    exact h.below q ((h.left q).2 ⟨hq, hne⟩)
  | succ l ih =>
    obtain ⟨hc, hleft, hready, hmono, hbelow, hrest⟩ := pickOne_spec h
    simp only [List.range'_succ, pickLoop]
    split_ifs with hz
    · refine ⟨k + 1, ⟨by omega, hready, hmono, hrest, fun q hq hne => ?_⟩, h.maps⟩
      exact absurd ((hleft q).2 ⟨hq, hne⟩) (ReadyTable.isZero_iff.1 hz q)
    · exact ih ⟨hc, by simpa using hz, hleft, hready, hmono, hbelow, hrest, h.maps⟩ (by omega)

end Pick

/-! ### The second loop -/

lemma hasHighPrio_iff {n prio : ℕ} {array : ℕ → ℕ} {map : ℕ → Bool} :
    hasHighPrio n prio array map = true ↔ ∃ c < n, map c = false ∧ prio = array c := by
  simp [hasHighPrio]

lemma hasCurrentPrio_cases (n prio : ℕ) (array : ℕ → ℕ) (map : ℕ → Bool) :
    (∃ j < n, hasCurrentPrio n prio array map = j + 1 ∧ prio = array j ∧ map j = false) ∨
    (hasCurrentPrio n prio array map = 0 ∧ ∀ j < n, prio = array j → map j = true) := by
  rw [hasCurrentPrio]
  cases hf : (List.range n).find? fun i => prio == array i && !map i with
  | none =>
    refine Or.inr ⟨rfl, fun j hj hp => ?_⟩
    have := List.find?_eq_none.1 hf j (List.mem_range.2 hj)
    simpa [hp] using this
  | some j =>
    obtain ⟨hp, hmem, -⟩ := List.find?_range_eq_some.1 hf
    exact Or.inl ⟨j, List.mem_range.1 hmem, rfl, by simpa using hp⟩

/-- The three ways in which a cpu gets its priority: it keeps its own, it takes the first one that
no cpu still holds, or nothing is left for it. -/
lemma placeCpu_cases (n : ℕ) (H cur : ℕ → ℕ) (s : Place) (i : ℕ) :
    (∃ j < n, cur i = H j ∧ s.highMap j = false ∧ placeCpu n H cur s i =
      ⟨Function.update s.highestRdy i (cur i), Function.update s.highMap j true,
        Function.update s.currentMap i true⟩) ∨
    (∀ j < n, cur i = H j → s.highMap j = true) ∧
      ((∃ j < n, s.highMap j = false ∧ (∀ c < n, s.currentMap c = false → H j ≠ cur c) ∧
          (∀ a < j, s.highMap a = true ∨ ∃ c < n, s.currentMap c = false ∧ H a = cur c) ∧
          placeCpu n H cur s i = { s with
            highestRdy := Function.update s.highestRdy i (H j)
            highMap := Function.update s.highMap j true }) ∨
        (∀ j < n, s.highMap j = true ∨ ∃ c < n, s.currentMap c = false ∧ H j = cur c) ∧
          placeCpu n H cur s i = s) := by
  rcases hasCurrentPrio_cases n (cur i) H s.highMap with ⟨j, hj, hk, hp, hm⟩ | ⟨hk, hnone⟩
  · refine Or.inl ⟨j, hj, hp, hm, ?_⟩
    simp [placeCpu, hk]
  · refine Or.inr ⟨hnone, ?_⟩
    simp only [placeCpu, hk, lt_irrefl, if_false]
    have hnot : ∀ a, (!s.highMap a && !hasHighPrio n (H a) cur s.currentMap) = false →
        s.highMap a = true ∨ ∃ c < n, s.currentMap c = false ∧ H a = cur c := by
      intro a ha
      rw [← hasHighPrio_iff]
      cases hm : s.highMap a with
      | true => exact Or.inl rfl
      | false => exact Or.inr (by simpa [hm] using ha)
    cases hf : (List.range n).find? fun j =>
        !s.highMap j && !hasHighPrio n (H j) cur s.currentMap with
    | none =>
      refine Or.inr ⟨fun j hj => hnot j ?_, rfl⟩
      simpa using List.find?_eq_none.1 hf j (List.mem_range.2 hj)
    | some j =>
      obtain ⟨hp, hmem, hfirst⟩ := List.find?_range_eq_some.1 hf
      simp only [Bool.and_eq_true, Bool.not_eq_true'] at hp
      refine Or.inl ⟨j, List.mem_range.1 hmem, hp.1, fun c hc hm heq => ?_,
        fun a ha => hnot a (Bool.not_eq_true' _ ▸ hfirst a ha), rfl⟩
      rw [hasHighPrio_iff.2 ⟨c, hc, hm, heq⟩] at hp
      cases hp.2

/-- The second loop after the cpus below `i`. The cpus from `i` on still find the priority that
they run, and no priority is lost: each round takes one unless all are taken or held. -/
structure Placed (n : ℕ) (H cur : ℕ → ℕ) (i : ℕ) (s : Place) : Prop where
  kept : ∀ c < i, ∀ j < n, H j ≤ OS_LOWEST_PRIO → cur c = H j →
    s.highestRdy c = cur c ∧ s.currentMap c = true
  taken : ∀ j < n, s.highMap j = true → H j ≤ OS_LOWEST_PRIO → ∃ c < i, s.highestRdy c = H j
  source : ∀ c < i, s.highestRdy c ≤ OS_LOWEST_PRIO →
    ∃ j < n, s.highMap j = true ∧ H j = s.highestRdy c
  distinct : ∀ c < i, ∀ d < i, s.highestRdy c ≤ OS_LOWEST_PRIO →
    s.highestRdy c = s.highestRdy d → c = d
  reserved : ∀ c, i ≤ c → c < n → ∀ j < n, H j ≤ OS_LOWEST_PRIO → cur c = H j →
    s.highMap j = false
  current : ∀ c, i ≤ c → s.currentMap c = false
  rest : ∀ c, i ≤ c → s.highestRdy c = OS_PRIO_PCPU
  full : (∀ j < n, H j ≤ OS_LOWEST_PRIO → s.highMap j = true ∨ ∃ c, i ≤ c ∧ c < n ∧ cur c = H j) ∨
    ((Finset.range n).filter fun j => s.highMap j = true).card = i

section Place

variable {n i : ℕ} {H cur : ℕ → ℕ} {s : Place}

lemma card_update_true {map : ℕ → Bool} {j : ℕ} (hj : j < n) (hm : map j = false) :
    ((Finset.range n).filter fun a => Function.update map j true a = true).card =
      ((Finset.range n).filter fun a => map a = true).card + 1 := by
  have : ((Finset.range n).filter fun a => Function.update map j true a = true) =
      insert j ((Finset.range n).filter fun a => map a = true) := by
    ext a
    by_cases ha : a = j
    · subst ha
      simp [hj]
    · simp [ha]
  rw [this, Finset.card_insert_of_notMem (by simp [hm])]

/-- The cpu `i` gets the priority in place `j`, which nobody took. -/
lemma Placed.take {j p : ℕ} {currentMap : ℕ → Bool} (h : Placed n H cur i s)
    (hH : ∀ a < n, ∀ b < n, H a ≤ OS_LOWEST_PRIO → H a = H b → a = b)
    (hj : j < n) (hm : s.highMap j = false) (hp : p = H j)
    (hcur : ∀ c, c ≠ i → currentMap c = s.currentMap c)
    (hkept : ∀ b < n, H b ≤ OS_LOWEST_PRIO → cur i = H b → p = cur i ∧ currentMap i = true)
    (hheld : ∀ c, i + 1 ≤ c → c < n → H j ≤ OS_LOWEST_PRIO → cur c ≠ H j)
    (hown : ∀ b < n, H b ≤ OS_LOWEST_PRIO → cur i = H b → s.highMap b = true ∨ b = j) :
    Placed n H cur (i + 1) ⟨Function.update s.highestRdy i p, Function.update s.highMap j true,
      currentMap⟩ := by
  have hfresh : ∀ c < i, s.highestRdy c ≤ OS_LOWEST_PRIO → s.highestRdy c ≠ p := by
    intro c hc hle heq
    obtain ⟨b, hb, hbm, hbH⟩ := h.source c hc hle
    have : b = j := hH b hb j hj (by omega) (by omega)
    rw [this, hm] at hbm
    cases hbm
  constructor
  case kept =>
    intro c hc b hb hle heq
    dsimp only
    rcases (Nat.lt_succ_iff.1 hc).eq_or_lt with rfl | hci
    · rw [Function.update_self]
      exact hkept b hb hle heq
    · rw [Function.update_of_ne hci.ne, hcur c hci.ne]
      exact h.kept c hci b hb hle heq
  case taken =>
    intro b hb hbm hle
    by_cases hbj : b = j
    · exact ⟨i, by omega, by simp [hp, hbj]⟩
    · obtain ⟨c, hc, heq⟩ := h.taken b hb (by simpa [hbj] using hbm) hle
      exact ⟨c, by omega, by simpa [hc.ne] using heq⟩
  case source =>
    intro c hc hle
    dsimp only at hle ⊢
    rcases (Nat.lt_succ_iff.1 hc).eq_or_lt with rfl | hci
    · exact ⟨j, hj, by simp, by simp [hp]⟩
    · rw [Function.update_of_ne hci.ne] at hle ⊢
      obtain ⟨b, hb, hbm, heq⟩ := h.source c hci hle
      refine ⟨b, hb, ?_, heq⟩
      by_cases hbj : b = j
      · simp [hbj]
      · simpa [hbj] using hbm
  case distinct =>
    intro c hc d hd hle heq
    dsimp only at hle heq
    rcases (Nat.lt_succ_iff.1 hc).eq_or_lt with rfl | hci
    · rcases (Nat.lt_succ_iff.1 hd).eq_or_lt with rfl | hdi
      · rfl
      · rw [Function.update_self] at hle heq
        rw [Function.update_of_ne hdi.ne] at heq
        exact absurd heq.symm (hfresh d hdi (heq ▸ hle))
    · rw [Function.update_of_ne hci.ne] at hle heq
      rcases (Nat.lt_succ_iff.1 hd).eq_or_lt with rfl | hdi
      · rw [Function.update_self] at heq
        exact absurd heq (hfresh c hci hle)
      · rw [Function.update_of_ne hdi.ne] at heq
        exact h.distinct c hci d hdi hle heq
  case reserved =>
    intro c hc hcn b hb hle heq
    have hbj : b ≠ j := by
      rintro rfl
      exact hheld c hc hcn hle heq
    simpa [hbj] using h.reserved c (by omega) hcn b hb hle heq
  case current =>
    intro c hc
    dsimp only
    rw [hcur c (by omega)]
    exact h.current c (by omega)
  case rest =>
    intro c hc
    dsimp only
    rw [Function.update_of_ne (by omega)]
    exact h.rest c (by omega)
  case full =>
    dsimp only
    rcases h.full with hall | hcard
    · refine Or.inl fun b hb hle => ?_
      by_cases hbj : b = j
      · simp [hbj]
      · rw [Function.update_of_ne hbj]
        rcases hall b hb hle with hbm | ⟨c, hc, hcn, heq⟩
        · exact Or.inl hbm
        · rcases hc.eq_or_lt with rfl | hlt
          · exact Or.inl ((hown b hb hle heq).resolve_right hbj)
          · exact Or.inr ⟨c, hlt, hcn, heq⟩
    · rw [card_update_true hj hm, hcard]
      exact Or.inr rfl

lemma placeCpu_placed (h : Placed n H cur i s) (hi : i < n)
    (hH : ∀ a < n, ∀ b < n, H a ≤ OS_LOWEST_PRIO → H a = H b → a = b)
    (hcur : ∀ c < n, ∀ d < n, cur c ≤ OS_LOWEST_PRIO → cur c = cur d → c = d) :
    Placed n H cur (i + 1) (placeCpu n H cur s i) := by
  rcases placeCpu_cases n H cur s i with ⟨j, hj, hp, hm, heq⟩ | ⟨hnone, hrest⟩
  · rw [heq]
    refine h.take hH hj hm hp (fun c hc => Function.update_of_ne hc _ _) ?_ ?_ ?_
    · exact fun _ _ _ _ => ⟨rfl, Function.update_self _ _ _⟩
    · intro c hc hcn hle hcj
      have := hcur c hcn i hi (by omega) (by omega)
      omega
    · intro b hb hle hb'
      exact Or.inr (hH b hb j hj hle (by omega))
  · -- the cpu runs none of the lowest priorities
    have hnot : ∀ j < n, H j ≤ OS_LOWEST_PRIO → cur i ≠ H j := by
      intro j hj hle hp
      have := h.reserved i le_rfl hi j hj hle hp
      rw [hnone j hj hp] at this
      cases this
    rcases hrest with ⟨j, hj, hm, hfree, -, heq⟩ | ⟨hall, heq⟩
    · rw [heq]
      refine h.take hH hj hm rfl (fun _ _ => rfl) ?_ ?_ ?_
      · exact fun b hb hle hp => absurd hp (hnot b hb hle)
      · intro c hc hcn _ hcj
        exact hfree c hcn (h.current c (by omega)) hcj.symm
      · exact fun b hb hle hp => absurd hp (hnot b hb hle)
    · rw [heq]
      have hi64 : ¬ s.highestRdy i ≤ OS_LOWEST_PRIO := by
        rw [h.rest i le_rfl]
        decide
      constructor
      case kept =>
        intro c hc b hb hle hp
        rcases (Nat.lt_succ_iff.1 hc).eq_or_lt with rfl | hci
        · exact absurd hp (hnot b hb hle)
        · exact h.kept c hci b hb hle hp
      case taken =>
        intro b hb hbm hle
        obtain ⟨c, hc, hc'⟩ := h.taken b hb hbm hle
        exact ⟨c, by omega, hc'⟩
      case source =>
        intro c hc hle
        rcases (Nat.lt_succ_iff.1 hc).eq_or_lt with rfl | hci
        · exact absurd hle hi64
        · exact h.source c hci hle
      case distinct =>
        intro c hc d hd hle hcd
        have hci : c ≠ i := fun hc' => hi64 (hc' ▸ hle)
        have hdi : d ≠ i := fun hd' => hi64 (hd' ▸ hcd ▸ hle)
        exact h.distinct c (by omega) d (by omega) hle hcd
      case reserved => exact fun c hc => h.reserved c (by omega)
      case current => exact fun c hc => h.current c (by omega)
      case rest => exact fun c hc => h.rest c (by omega)
      case full =>
        refine Or.inl fun b hb hle => ?_
        rcases hall b hb with hbm | ⟨c, hcn, hcm, hp⟩
        · exact Or.inl hbm
        · refine Or.inr ⟨c, ?_, hcn, hp.symm⟩
          rcases Nat.lt_or_ge c i with hci | hci
          · rw [(h.kept c hci b hb hle hp.symm).2] at hcm
            cases hcm
          · refine lt_of_le_of_ne hci ?_
            rintro rfl
            exact hnot b hb hle hp.symm

/-- The second loop as a whole. -/
lemma placeLoop_placed (hH : ∀ a < n, ∀ b < n, H a ≤ OS_LOWEST_PRIO → H a = H b → a = b)
    (hcur : ∀ c < n, ∀ d < n, cur c ≤ OS_LOWEST_PRIO → cur c = cur d → c = d) (k : ℕ) (hk : k ≤ n) :
    Placed n H cur k ((List.range k).foldl (placeCpu n H cur)
      ⟨fun _ => OS_PRIO_PCPU, fun _ => false, fun _ => false⟩) := by
  induction k with
  | zero =>
    constructor
    case full => exact Or.inr (by simp)
    case rest => exact fun _ _ => rfl
    case current => exact fun _ _ => rfl
    case reserved => exact fun _ _ _ _ _ _ _ => rfl
    case taken => exact fun _ _ h => by cases h
    all_goals exact fun c hc => absurd hc (Nat.not_lt_zero c)
  | succ k ih =>
    rw [List.range_succ, List.foldl_append, List.foldl_cons, List.foldl_nil]
    exact placeCpu_placed (ih (by omega)) (by omega) hH hcur

/-- In the end every priority is taken. -/
lemma Placed.all_taken (h : Placed n H cur n s) {j : ℕ} (hj : j < n) (hle : H j ≤ OS_LOWEST_PRIO) :
    s.highMap j = true := by
  rcases h.full with hall | hcard
  · rcases hall j hj hle with hm | ⟨c, hc, hcn, -⟩
    · exact hm
    · omega
  · have hfull := Finset.eq_of_subset_of_card_le (Finset.filter_subset _ (Finset.range n))
      (by rw [hcard, Finset.card_range])
    have := hfull ▸ Finset.mem_range.2 hj
    exact (Finset.mem_filter.1 this).2

end Place

/-! ### What `sched_new` chooses -/

/-- The priority is one of the `n` lowest that are ready. -/
def ReadyTable.Lowest (t : ReadyTable) (n p : ℕ) : Prop :=
  t.Ready p ∧ ((Finset.range p).filter t.Ready).card < n

section Choice

variable {n m : ℕ} {H : ℕ → ℕ} {rdy : ReadyTable} {cur : ℕ → ℕ}

lemma Picked.le_iff (h : Picked rdy.Ready n H m) (j : ℕ) : H j ≤ OS_LOWEST_PRIO ↔ j < m := by
  constructor
  · intro hle
    by_contra hj
    rw [h.rest j (not_lt.1 hj)] at hle
    exact absurd hle (by decide)
  · exact fun hj => (h.ready j hj).1

lemma Picked.inj (h : Picked rdy.Ready n H m) {a b : ℕ} (ha : a < m) (hab : H a = H b) : a = b := by
  have hb : b < m := (h.le_iff b).1 (hab ▸ (h.le_iff a).2 ha)
  rcases lt_trichotomy a b with hlt | rfl | hlt
  · have := h.mono a b hlt hb
    omega
  · rfl
  · have := h.mono b a hlt ha
    omega

/-- The first loop picks the lowest priorities. -/
lemma Picked.lowest_iff (h : Picked rdy.Ready n H m) (p : ℕ) :
    rdy.Lowest n p ↔ ∃ j < m, H j = p := by
  have hcard : ∀ k ≤ m, ((Finset.range k).image H).card = k := by
    intro k hk
    rw [Finset.card_image_of_injOn, Finset.card_range]
    intro a ha b _ hab
    exact h.inj (lt_of_lt_of_le (by simpa using ha) hk) hab
  constructor
  · rintro ⟨hp, hlt⟩
    by_contra hno
    push Not at hno
    obtain ⟨rfl, hbelow⟩ := h.lowest p hp hno
    have hsub : (Finset.range m).image H ⊆ (Finset.range p).filter rdy.Ready := by
      intro q hq
      obtain ⟨j, hj, rfl⟩ := Finset.mem_image.1 hq
      rw [Finset.mem_range] at hj
      exact Finset.mem_filter.2 ⟨Finset.mem_range.2 (hbelow j hj), h.ready j hj⟩
    have := Finset.card_le_card hsub
    rw [hcard m le_rfl] at this
    omega
  · rintro ⟨j, hj, rfl⟩
    refine ⟨h.ready j hj, ?_⟩
    have hsub : (Finset.range (H j)).filter rdy.Ready ⊆ (Finset.range j).image H := by
      intro q hq
      obtain ⟨hqj, hq⟩ := Finset.mem_filter.1 hq
      rw [Finset.mem_range] at hqj
      by_cases hno : ∀ a < m, H a ≠ q
      · have := (h.lowest q hq hno).2 j hj
        omega
      · push Not at hno
        obtain ⟨a, ha, rfl⟩ := hno
        refine Finset.mem_image.2 ⟨a, Finset.mem_range.2 ?_, rfl⟩
        by_contra hja
        rcases (not_lt.1 hja).eq_or_lt with rfl | hlt
        · exact lt_irrefl _ hqj
        · exact absurd (h.mono j a hlt ha) (by omega)
    have := Finset.card_le_card hsub
    rw [hcard j hj.le] at this
    have := h.le
    omega

lemma schedNew_placed (hrdy : rdy.Consistent) (hz : rdy.isZero = false)
    (hcur : ∀ c < n, ∀ d < n, cur c ≤ OS_LOWEST_PRIO → cur c = cur d → c = d) :
    ∃ H m s, Picked rdy.Ready n H m ∧ Placed n H cur n s ∧
      ∀ c, schedNew n (fun _ => .global) rdy cur c =
        if OS_PRIO_PCPU < s.highestRdy c then OS_PRIO_PCPU else s.highestRdy c := by
  have hstart : Picking rdy.Ready 0
      ⟨rdy, fun _ => OS_PRIO_IDLE + 1, fun _ => false, fun _ => false⟩ := by
    constructor
    case consistent => exact hrdy
    case more => exact hz
    case left => simp
    case rest => exact fun _ _ => rfl
    case maps => exact ⟨rfl, rfl⟩
    all_goals simp
  obtain ⟨m, hpick, hhigh, hcurrent⟩ := pickLoop_spec hstart (Nat.zero_add n)
  rw [← List.range_eq_range'] at hpick hhigh hcurrent
  refine ⟨_, m, _, hpick, placeLoop_placed (fun a ha b _ hle hab => ?_) hcur n le_rfl, fun c => ?_⟩
  · exact hpick.inj ((hpick.le_iff a).1 hle) hab
  · simp only [schedNew, hz, Bool.false_eq_true, if_false, hhigh, hcurrent]

/-- What the cpus are offered: the lowest ready priorities, each to one cpu, and a cpu that runs one
of them keeps it. -/
structure Chosen (n : ℕ) (rdy : ReadyTable) (cur hi : ℕ → ℕ) : Prop where
  distinct : ∀ c < n, ∀ d < n, hi c ≤ OS_LOWEST_PRIO → hi c = hi d → c = d
  lowest : ∀ p ≤ OS_LOWEST_PRIO, (∃ c < n, hi c = p) ↔ rdy.Lowest n p
  kept : ∀ c < n, rdy.Lowest n (cur c) → hi c = cur c
  other : ∀ c < n, hi c ≤ OS_LOWEST_PRIO ∨ hi c = OS_PRIO_PCPU

lemma schedNew_chosen (hrdy : rdy.Consistent)
    (hcur : ∀ c < n, ∀ d < n, cur c ≤ OS_LOWEST_PRIO → cur c = cur d → c = d) :
    Chosen n rdy cur (schedNew n (fun _ => .global) rdy cur) := by
  generalize hhi : schedNew n (fun _ => .global) rdy cur = hi
  by_cases hz : rdy.isZero = true
  · have hi64 : ∀ c, hi c = OS_PRIO_PCPU := fun c => by simp [← hhi, schedNew, hz]
    have hnone : ∀ p, ¬ rdy.Lowest n p := fun p hp => ReadyTable.isZero_iff.1 hz p hp.1
    refine ⟨fun c _ d _ hle => ?_, fun p hp => ?_, fun c _ h => absurd h (hnone _), fun c _ =>
      Or.inr (hi64 c)⟩
    · rw [hi64 c] at hle
      exact absurd hle (by decide)
    · refine iff_of_false ?_ (hnone p)
      rintro ⟨c, -, rfl⟩
      rw [hi64 c] at hp
      exact absurd hp (by decide)
  · obtain ⟨H, m, s, hpick, hplaced, heq⟩ := schedNew_placed hrdy (by simpa using hz) hcur
    have hmin : ∀ c, hi c = min OS_PRIO_PCPU (s.highestRdy c) := by
      intro c
      rw [← hhi, heq c]
      split_ifs <;> omega
    have hclip : ∀ c, hi c ≤ OS_LOWEST_PRIO → s.highestRdy c = hi c := by
      intro c hle
      have := hmin c
      simp only [OS_PRIO_PCPU, OS_LOWEST_PRIO] at hle this
      omega
    have hclip' : ∀ c, s.highestRdy c ≤ OS_LOWEST_PRIO → hi c = s.highestRdy c := by
      intro c hle
      have := hmin c
      simp only [OS_PRIO_PCPU, OS_LOWEST_PRIO] at hle this
      omega
    refine ⟨fun c hc d hd hle hcd => ?_, fun p hp => ?_, fun c hc hlow => ?_, fun c _ => ?_⟩
    · rw [← hclip c hle] at hle
      refine hplaced.distinct c hc d hd hle ?_
      rw [hclip c (hclip' c hle ▸ hle), hcd, hclip d (hcd ▸ hclip' c hle ▸ hle)]
    · rw [hpick.lowest_iff]
      constructor
      · rintro ⟨c, hc, rfl⟩
        obtain ⟨j, hj, -, hjH⟩ := hplaced.source c hc (hclip c hp ▸ hp)
        rw [hclip c hp] at hjH
        exact ⟨j, (hpick.le_iff j).1 (hjH ▸ hp), hjH⟩
      · rintro ⟨j, hj, rfl⟩
        have hjn : j < n := lt_of_lt_of_le hj hpick.le
        obtain ⟨c, hc, hcj⟩ := hplaced.taken j hjn (hplaced.all_taken hjn hp) hp
        exact ⟨c, hc, (hclip' c (hcj ▸ hp)).trans hcj⟩
    · obtain ⟨j, hj, hjc⟩ := (hpick.lowest_iff _).1 hlow
      have hkept := (hplaced.kept c hc j (lt_of_lt_of_le hj hpick.le) ((hpick.le_iff j).2 hj)
        hjc.symm).1
      rw [hclip' c (hkept ▸ hlow.1.1), hkept]
    · have := hmin c
      simp only [OS_PRIO_PCPU, OS_LOWEST_PRIO] at this ⊢
      omega

/-- `sched_new` gives the lowest ready priorities to the cpus, each to one cpu, and a cpu that runs
one of them keeps it. -/
theorem schedNew_picks_lowest (n : ℕ) (rdy : ReadyTable) (hrdy : rdy.Consistent) (cur : ℕ → ℕ)
    (hcur : ∀ c < n, ∀ d < n, cur c ≤ OS_LOWEST_PRIO → cur c = cur d → c = d) :
    let hi := schedNew n (fun _ => .global) rdy cur
    (∀ c < n, ∀ d < n, hi c ≤ OS_LOWEST_PRIO → hi c = hi d → c = d) ∧
    (∀ p ≤ OS_LOWEST_PRIO, (∃ c < n, hi c = p) ↔ rdy.Lowest n p) ∧
    (∀ c < n, rdy.Lowest n (cur c) → hi c = cur c) ∧
    (∀ c < n, hi c ≤ OS_LOWEST_PRIO ∨ hi c = OS_PRIO_PCPU) :=
  have h := schedNew_chosen hrdy hcur
  ⟨h.distinct, h.lowest, h.kept, h.other⟩

/-- Three cpus, of which the first runs the task 40 and the second the task 9; ready are 3, 9, 17
and 40. -/
theorem schedNew_picks_lowest_three_cpus :
    let rdy : ReadyTable := ⟨0b100111#8, fun y =>
      if y = 0 then 0b1000#8 else if y = 1 then 0b10#8 else if y = 2 then 0b10#8
      else if y = 5 then 1#8 else 0#8⟩
    let cur := fun c => if c = 0 then 40 else if c = 1 then 9 else OS_PRIO_PCPU
    ((List.range 3).map fun c => schedNew 3 (fun _ => .global) rdy cur c) = [3, 9, 17] ∧
      ∀ c < 3, rdy.Lowest 3 (cur c) → schedNew 3 (fun _ => .global) rdy cur c = cur c := by
  refine ⟨by decide +kernel, ?_⟩
  exact (schedNew_picks_lowest 3 _ (by decide) _ (by decide)).2.2.1

end Choice

end Minos.Sched
