import Mathlib
import Minos.Sched.SchedNew

/-!
# Cpus that run no realtime tasks

A LOCAL cpu takes its next task from its own ready list, whatever `sched_new` offers to it. The
first loop of `sched_new` picks priorities for the GLOBAL cpus and marks the LOCAL ones as done, but
it ends with the last ready task, and the second loop goes over all cpus. So a LOCAL cpu takes a
priority that nobody runs, unless the GLOBAL cpus before it have taken all of these.
-/

namespace Minos.Sched

open Finset

/-! ### The condition -/

section

variable (n : ℕ) (cls : ℕ → SchedClass) (rdy : ReadyTable) (cur : ℕ → ℕ)

/-- The number of GLOBAL cpus -/
def globals : ℕ := #{c ∈ range n | cls c = .global}

instance (m : ℕ) : DecidablePred (rdy.Lowest m) :=
  fun p => inferInstanceAs (Decidable (rdy.Ready p ∧ #{q ∈ range p | rdy.Ready q} < m))

/-- The cpu runs one of the tasks that are picked, and no cpu before it claims to run it. -/
def Stays (g : ℕ) : Prop := rdy.Lowest (globals n cls) (cur g) ∧ ∀ c < g, cur c ≠ cur g

instance : DecidablePred (Stays n cls rdy cur) := fun _ => inferInstanceAs (Decidable (_ ∧ _))

/-- The priority is picked and no cpu runs it. -/
def Unheld (p : ℕ) : Prop := rdy.Lowest (globals n cls) p ∧ ∀ c < n, cur c ≠ p

instance : DecidablePred (Unheld n cls rdy cur) := fun _ => inferInstanceAs (Decidable (_ ∧ _))

/-- The GLOBAL cpus before `i` that need another task than the one they run. -/
def movers (i : ℕ) : Finset ℕ := {g ∈ range i | cls g = .global ∧ ¬ Stays n cls rdy cur g}

/-- The GLOBAL cpus before the cpu `i` take all the priorities that nobody runs. -/
def NothingLeftAt (i : ℕ) : Prop :=
  #{p ∈ range ( OS_LOWEST_PRIO + 1) | Unheld n cls rdy cur p} ≤ #(movers n cls rdy cur i)

instance : DecidablePred (NothingLeftAt n cls rdy cur) :=
  fun _ => inferInstanceAs (Decidable (_ ≤ _))

end

/-! ### The first loop -/

/-- What the first loop leaves behind: the picked priorities are in the places of GLOBAL cpus, and
any other place that is not marked comes after them. -/
structure PickedBy (n : ℕ) (cls : ℕ → SchedClass) (rdy : ReadyTable) (s : Pick) : Prop where
  ready : ∀ j < n, s.ncpuHighest j ≤ OS_LOWEST_PRIO → rdy.Ready (s.ncpuHighest j)
  global : ∀ j < n, s.ncpuHighest j ≤ OS_LOWEST_PRIO → cls j = .global
  filler : ∀ j, s.ncpuHighest j ≤ OS_LOWEST_PRIO ∨ s.ncpuHighest j = OS_PRIO_IDLE + 1
  inj : ∀ a < n, ∀ b < n, s.ncpuHighest a ≤ OS_LOWEST_PRIO →
    s.ncpuHighest a = s.ncpuHighest b → a = b
  after : ∀ a < n, ∀ j < n, s.ncpuHighest a ≤ OS_LOWEST_PRIO → s.highMap j = false →
    ¬ s.ncpuHighest j ≤ OS_LOWEST_PRIO → a < j
  lowest : ∀ q, rdy.Ready q → (∀ j < n, s.ncpuHighest j ≠ q) →
    ∀ j < n, cls j = .global → s.ncpuHighest j < q
  free : ∀ j, cls j = .global → s.highMap j = false
  current : ∀ c, cls c = .global → s.currentMap c = false

/-- The first loop before the cpu `k`. -/
structure PickingBy (cls : ℕ → SchedClass) (rdy : ReadyTable) (k : ℕ) (s : Pick) : Prop where
  consistent : s.rdy.Consistent
  left : ∀ q, s.rdy.Ready q ↔ rdy.Ready q ∧ ∀ j < k, s.ncpuHighest j ≠ q
  ready : ∀ j < k, cls j = .global → rdy.Ready (s.ncpuHighest j)
  inj : ∀ a < k, ∀ b < k, cls a = .global → s.ncpuHighest a = s.ncpuHighest b → a = b
  below : ∀ q, s.rdy.Ready q → ∀ j < k, cls j = .global → s.ncpuHighest j < q
  loc : ∀ j < k, cls j = .loc → s.ncpuHighest j = OS_PRIO_IDLE + 1 ∧ s.highMap j = true
  rest : ∀ j, k ≤ j → s.ncpuHighest j = OS_PRIO_IDLE + 1
  free : ∀ j, cls j = .global → s.highMap j = false
  current : ∀ c, cls c = .global → s.currentMap c = false

section Pick

variable {n k : ℕ} {cls : ℕ → SchedClass} {rdy : ReadyTable} {s : Pick}

lemma PickingBy.start (hrdy : rdy.Consistent) : PickingBy cls rdy 0
    ⟨rdy, fun _ => OS_PRIO_IDLE + 1, fun _ => false, fun _ => false⟩ := by
  constructor
  case consistent => exact hrdy
  case rest => exact fun _ _ => rfl
  all_goals simp

lemma PickingBy.global_iff (h : PickingBy cls rdy k s) {j : ℕ} (hj : j < k) :
    s.ncpuHighest j ≤ OS_LOWEST_PRIO ↔ cls j = .global := by
  cases hcls : cls j with
  | loc =>
    rw [(h.loc j hj hcls).1]
    decide
  | global => exact iff_of_true (h.ready j hj hcls).1 rfl

/-- A LOCAL cpu is passed over. -/
lemma PickingBy.stepLoc (h : PickingBy cls rdy k s) (hk : cls k = .loc) :
    PickingBy cls rdy (k + 1) { s with
      currentMap := Function.update s.currentMap k true
      highMap := Function.update s.highMap k true } := by
  have hcases : ∀ {j}, j < k + 1 → cls j = .global → j < k := by
    intro j hj hcls
    refine lt_of_le_of_ne (Nat.lt_succ_iff.1 hj) ?_
    rintro rfl
    rw [hk] at hcls
    cases hcls
  have hne : ∀ {j}, cls j = .global → j ≠ k := by
    rintro j hcls rfl
    rw [hk] at hcls
    cases hcls
  constructor
  case consistent => exact h.consistent
  case left =>
    intro q
    rw [h.left]
    refine and_congr_right fun hq => ⟨fun hall j hj => ?_, fun hall j hj => hall j (by omega)⟩
    rcases (Nat.lt_succ_iff.1 hj).eq_or_lt with rfl | hlt
    · dsimp only
      rw [h.rest j le_rfl]
      have := hq.1
      simp only [ OS_LOWEST_PRIO, OS_PRIO_IDLE] at this ⊢
      omega
    · exact hall j hlt
  case ready => exact fun j hj hcls => h.ready j (hcases hj hcls) hcls
  case inj =>
    intro a ha b hb hcls hab
    rcases (Nat.lt_succ_iff.1 hb).eq_or_lt with rfl | hlt
    · have := (h.ready a (hcases ha hcls) hcls).1
      dsimp only at hab
      rw [hab, h.rest b le_rfl] at this
      exact absurd this (by decide)
    · exact h.inj a (hcases ha hcls) b hlt hcls hab
  case below => exact fun q hq j hj hcls => h.below q hq j (hcases hj hcls) hcls
  case loc =>
    intro j hj hcls
    dsimp only
    rcases (Nat.lt_succ_iff.1 hj).eq_or_lt with rfl | hlt
    · exact ⟨h.rest j le_rfl, Function.update_self _ _ _⟩
    · rw [Function.update_of_ne hlt.ne]
      exact h.loc j hlt hcls
  case rest => exact fun j hj => h.rest j (by omega)
  case free => exact fun j hcls => (Function.update_of_ne (hne hcls) _ _).trans (h.free j hcls)
  case current =>
    exact fun j hcls => (Function.update_of_ne (hne hcls) _ _).trans (h.current j hcls)

/-- A GLOBAL cpu gets the lowest priority that is left. -/
lemma PickingBy.stepGlobal (h : PickingBy cls rdy k s) (hk : cls k = .global)
    (hz : s.rdy.isZero = false) : PickingBy cls rdy (k + 1) (pickOne s k) := by
  obtain ⟨hready, hmin⟩ := ReadyTable.highest_spec h.consistent hz
  obtain ⟨hreadyAll, hnew⟩ := (h.left _).1 hready
  have hclear : ∀ q, (pickOne s k).rdy.Ready q ↔ s.rdy.Ready q ∧ q ≠ s.rdy.highest :=
    fun q => ReadyTable.ready_clear hready.1
  constructor
  case consistent => exact ReadyTable.clear_consistent h.consistent hready.1
  case left =>
    intro q
    rw [hclear, h.left, Nat.forall_lt_succ_right, pickOne_ncpuHighest_self, and_assoc]
    refine and_congr_right fun _ => and_congr (forall₂_congr fun j hj => ?_) ne_comm
    rw [pickOne_ncpuHighest_of_lt hj]
  case ready =>
    refine Nat.forall_lt_succ_right.2 ⟨fun j hj => ?_, fun _ => ?_⟩
    · rw [pickOne_ncpuHighest_of_lt hj]
      exact h.ready j hj
    · rwa [pickOne_ncpuHighest_self]
  case inj =>
    intro a ha b hb hcls hab
    rcases (Nat.lt_succ_iff.1 ha).eq_or_lt with rfl | hak <;>
      rcases (Nat.lt_succ_iff.1 hb).eq_or_lt with rfl | hbk
    · rfl
    · rw [pickOne_ncpuHighest_self, pickOne_ncpuHighest_of_lt hbk] at hab
      exact absurd hab.symm (hnew b hbk)
    · rw [pickOne_ncpuHighest_self, pickOne_ncpuHighest_of_lt hak] at hab
      exact absurd hab (hnew a hak)
    · rw [pickOne_ncpuHighest_of_lt hak, pickOne_ncpuHighest_of_lt hbk] at hab
      exact h.inj a hak b hbk hcls hab
  case below =>
    intro q hq
    obtain ⟨hq, hne⟩ := (hclear q).1 hq
    refine Nat.forall_lt_succ_right.2 ⟨fun j hj => ?_, fun _ => ?_⟩
    · rw [pickOne_ncpuHighest_of_lt hj]
      exact h.below q hq j hj
    · rw [pickOne_ncpuHighest_self]
      exact lt_of_le_of_ne (not_lt.1 fun hlt => hmin q hlt hq) hne.symm
  case loc =>
    refine Nat.forall_lt_succ_right.2 ⟨fun j hj => ?_, fun hcls => ?_⟩
    · rw [pickOne_ncpuHighest_of_lt hj]
      exact h.loc j hj
    · rw [hk] at hcls
      cases hcls
  case rest =>
    intro j hj
    exact (Function.update_of_ne (show j ≠ k by omega) _ _).trans (h.rest j (by omega))
  case free => exact h.free
  case current => exact h.current

/-- The loop ends behind the last cpu, or when nothing is ready any more. -/
lemma PickingBy.finish (h : PickingBy cls rdy k s) (hk : k ≤ n)
    (hend : k = n ∨ s.rdy.isZero = true) : PickedBy n cls rdy s := by
  have hlt : ∀ {j}, s.ncpuHighest j ≤ OS_LOWEST_PRIO → j < k := by
    intro j hj
    by_contra hjk
    rw [h.rest j (not_lt.1 hjk)] at hj
    exact absurd hj (by decide)
  constructor
  case ready => exact fun j _ hj => h.ready j (hlt hj) ((h.global_iff (hlt hj)).1 hj)
  case global => exact fun j _ hj => (h.global_iff (hlt hj)).1 hj
  case filler =>
    intro j
    by_cases hj : j < k
    · cases hcls : cls j with
      | loc => exact Or.inr (h.loc j hj hcls).1
      | global => exact Or.inl (h.ready j hj hcls).1
    · exact Or.inr (h.rest j (not_lt.1 hj))
  case inj =>
    intro a _ b _ hle hab
    exact h.inj a (hlt hle) b (hlt (hab ▸ hle)) ((h.global_iff (hlt hle)).1 hle) hab
  case after =>
    intro a _ j hj hle hfree hnot
    refine lt_of_lt_of_le (hlt hle) (not_lt.1 fun hjk => ?_)
    cases hcls : cls j with
    | loc =>
      rw [(h.loc j hjk hcls).2] at hfree
      cases hfree
    | global => exact hnot (h.ready j hjk hcls).1
  case lowest =>
    intro q hq hne j hj hcls
    have hleft := (h.left q).2 ⟨hq, fun i hi => hne i (by omega)⟩
    rcases hend with rfl | hz
    · exact h.below q hleft j hj hcls
    · exact absurd hleft (ReadyTable.isZero_iff.1 hz q)
  case free => exact h.free
  case current => exact h.current

lemma pickLoop_pickedBy {l : ℕ} (h : PickingBy cls rdy k s) (hz : s.rdy.isZero = false)
    (hn : k + l = n) : PickedBy n cls rdy (pickLoop cls (List.range' k l) s) := by
  induction l generalizing k s with
  | zero => exact h.finish (by omega) (Or.inl (by omega))
  | succ l ih =>
    simp only [List.range'_succ, pickLoop]
    cases hcls : cls k with
    | loc => exact ih (h.stepLoc hcls) hz (by omega)
    | global =>
      have hstep := h.stepGlobal hcls hz
      dsimp only
      split_ifs with hz'
      · exact hstep.finish (by omega) (Or.inr hz')
      · exact ih hstep (by simpa using hz') (by omega)

/-- The places of the picked priorities -/
def pickSlots (n : ℕ) (H : ℕ → ℕ) : Finset ℕ := {j ∈ range n | H j ≤ OS_LOWEST_PRIO}

lemma PickedBy.card_pickSlots_le (h : PickedBy n cls rdy s) :
    #(pickSlots n s.ncpuHighest) ≤ globals n cls := by
  refine card_le_card fun j hj => ?_
  obtain ⟨hjn, hle⟩ := mem_filter.1 hj
  exact mem_filter.2 ⟨hjn, h.global j (mem_range.1 hjn) hle⟩

lemma PickedBy.card_image (h : PickedBy n cls rdy s) {S : Finset ℕ}
    (hS : S ⊆ pickSlots n s.ncpuHighest) : #(S.image s.ncpuHighest) = #S := by
  refine card_image_of_injOn fun a ha b hb hab => ?_
  obtain ⟨han, hle⟩ := mem_filter.1 (hS ha)
  obtain ⟨hbn, -⟩ := mem_filter.1 (hS hb)
  exact h.inj a (mem_range.1 han) b (mem_range.1 hbn) hle hab

/-- What is picked are the lowest ready priorities, as many as there are GLOBAL cpus. -/
lemma PickedBy.lowest_iff (h : PickedBy n cls rdy s) (p : ℕ) :
    rdy.Lowest (globals n cls) p ↔ ∃ j ∈ pickSlots n s.ncpuHighest, s.ncpuHighest j = p := by
  constructor
  · rintro ⟨hp, hlt⟩
    by_contra hno
    have hbelow : ∀ j < n, cls j = .global → s.ncpuHighest j < p := by
      refine h.lowest p hp fun j hj heq => hno ⟨j, ?_, heq⟩
      exact mem_filter.2 ⟨mem_range.2 hj, heq ▸ hp.1⟩
    -- all GLOBAL cpus have a lower one, which is ready
    have hall : {c ∈ range n | cls c = .global} ⊆ pickSlots n s.ncpuHighest := by
      intro c hc
      obtain ⟨hcn, hcls⟩ := mem_filter.1 hc
      have := hbelow c (mem_range.1 hcn) hcls
      exact mem_filter.2 ⟨hcn, by have := hp.1; omega⟩
    have hsub : ({c ∈ range n | cls c = .global} : Finset ℕ).image s.ncpuHighest ⊆
        {q ∈ range p | rdy.Ready q} := by
      intro q hq
      obtain ⟨c, hc, rfl⟩ := mem_image.1 hq
      obtain ⟨hcn, hcls⟩ := mem_filter.1 hc
      refine mem_filter.2 ⟨mem_range.2 (hbelow c (mem_range.1 hcn) hcls), ?_⟩
      exact h.ready c (mem_range.1 hcn) (mem_filter.1 (hall hc)).2
    have := card_le_card hsub
    rw [h.card_image hall] at this
    exact absurd hlt (not_lt.2 this)
  · rintro ⟨j, hj, rfl⟩
    obtain ⟨hjn, hle⟩ := mem_filter.1 hj
    refine ⟨h.ready j (mem_range.1 hjn) hle, ?_⟩
    have hsub : {q ∈ range (s.ncpuHighest j) | rdy.Ready q} ⊆
        ((pickSlots n s.ncpuHighest).erase j).image s.ncpuHighest := by
      intro q hq
      obtain ⟨hqj, hq⟩ := mem_filter.1 hq
      rw [mem_range] at hqj
      by_cases hno : ∀ a < n, s.ncpuHighest a ≠ q
      · have := h.lowest q hq hno j (mem_range.1 hjn) (h.global j (mem_range.1 hjn) hle)
        omega
      · push Not at hno
        obtain ⟨a, ha, rfl⟩ := hno
        refine mem_image.2 ⟨a, mem_erase.2 ⟨?_, mem_filter.2 ⟨mem_range.2 ha, hq.1⟩⟩, rfl⟩
        rintro rfl
        exact lt_irrefl _ hqj
    calc #{q ∈ range (s.ncpuHighest j) | rdy.Ready q}
        ≤ #(((pickSlots n s.ncpuHighest).erase j).image s.ncpuHighest) := card_le_card hsub
      _ = #((pickSlots n s.ncpuHighest).erase j) := h.card_image (erase_subset _ _)
      _ < #(pickSlots n s.ncpuHighest) := card_erase_lt_of_mem hj
      _ ≤ globals n cls := h.card_pickSlots_le

end Pick

/-! ### The second loop -/

/-- The places of the picked priorities that no cpu runs -/
def unheldSlots (n : ℕ) (H cur : ℕ → ℕ) : Finset ℕ :=
  {j ∈ pickSlots n H | ∀ c < n, cur c ≠ H j}

section Place

variable {n i k : ℕ} {cls : ℕ → SchedClass} {rdy : ReadyTable} {cur : ℕ → ℕ} {s : Pick} {t : Place}

lemma mem_pickSlots {H : ℕ → ℕ} {j : ℕ} : j ∈ pickSlots n H ↔ j < n ∧ H j ≤ OS_LOWEST_PRIO := by
  simp [pickSlots]

lemma mem_unheldSlots {H : ℕ → ℕ} {j : ℕ} :
    j ∈ unheldSlots n H cur ↔ j ∈ pickSlots n H ∧ ∀ c < n, cur c ≠ H j := by
  simp [unheldSlots]

lemma unheldSlots_subset {H : ℕ → ℕ} : unheldSlots n H cur ⊆ pickSlots n H := filter_subset _ _

lemma PickedBy.card_unheldSlots (h : PickedBy n cls rdy s) :
    #(unheldSlots n s.ncpuHighest cur) =
      #{p ∈ range ( OS_LOWEST_PRIO + 1) | Unheld n cls rdy cur p} := by
  rw [← h.card_image unheldSlots_subset]
  congr 1
  ext p
  simp only [mem_image, mem_unheldSlots, mem_filter, mem_range, Unheld, h.lowest_iff]
  constructor
  · rintro ⟨j, ⟨hj, hc⟩, rfl⟩
    exact ⟨Nat.lt_succ_of_le (mem_pickSlots.1 hj).2, ⟨j, hj, rfl⟩, hc⟩
  · rintro ⟨-, ⟨j, hj, rfl⟩, hc⟩
    exact ⟨j, ⟨hj, hc⟩, rfl⟩

lemma card_movers_succ : #(movers n cls rdy cur (i + 1)) = #(movers n cls rdy cur i) +
    if cls i = .global ∧ ¬ Stays n cls rdy cur i then 1 else 0 := by
  rw [movers, range_add_one, filter_insert]
  split_ifs
  · rw [card_insert_of_notMem (by simp), movers]
  · rw [movers, add_zero]

lemma card_movers_mono (hik : i ≤ k) :
    #(movers n cls rdy cur i) ≤ #(movers n cls rdy cur k) := by
  refine card_le_card fun g hg => ?_
  obtain ⟨hgi, h⟩ := mem_filter.1 hg
  exact mem_filter.2 ⟨mem_range.2 ((mem_range.1 hgi).trans_le hik), h⟩

/-- There are enough GLOBAL cpus that need another task for all priorities that nobody runs. -/
lemma PickedBy.card_unheldSlots_le (h : PickedBy n cls rdy s) :
    #(unheldSlots n s.ncpuHighest cur) ≤ #(movers n cls rdy cur n) := by
  have hstays : #{g ∈ range n | cls g = .global ∧ Stays n cls rdy cur g} ≤
      #(pickSlots n s.ncpuHighest \ unheldSlots n s.ncpuHighest cur) := by
    rw [← h.card_image sdiff_subset, ← card_image_of_injOn (f := cur)]
    · refine card_le_card fun p hp => ?_
      obtain ⟨g, hg, rfl⟩ := mem_image.1 hp
      obtain ⟨hgn, -, hlow, -⟩ := mem_filter.1 hg
      obtain ⟨j, hj, hjg⟩ := (h.lowest_iff _).1 hlow
      refine mem_image.2 ⟨j, mem_sdiff.2 ⟨hj, fun hun => ?_⟩, hjg⟩
      exact (mem_unheldSlots.1 hun).2 g (mem_range.1 hgn) hjg.symm
    · intro a ha b hb hab
      obtain ⟨-, -, -, hafirst⟩ := mem_filter.1 ha
      obtain ⟨-, -, -, hbfirst⟩ := mem_filter.1 hb
      rcases lt_trichotomy a b with hlt | rfl | hlt
      · exact absurd hab (hbfirst a hlt)
      · rfl
      · exact absurd hab.symm (hafirst b hlt)
  have hsplit : #{g ∈ range n | cls g = .global ∧ Stays n cls rdy cur g} +
      #(movers n cls rdy cur n) = globals n cls := by
    rw [movers, globals, ← card_filter_add_card_filter_not (s := {c ∈ range n | cls c = .global})
      (fun g => Stays n cls rdy cur g), filter_filter, filter_filter]
  have hsdiff := card_sdiff_add_card_eq_card
    (unheldSlots_subset : unheldSlots n s.ncpuHighest cur ⊆ pickSlots n s.ncpuHighest)
  have := h.card_pickSlots_le
  omega

/-- The second loop before the cpu `i`, if no LOCAL cpu has taken a picked priority. Of the
priorities that nobody runs, the cpus that need another task have taken one each. -/
structure Spread (n : ℕ) (cls : ℕ → SchedClass) (rdy : ReadyTable) (cur : ℕ → ℕ) (s : Pick) (i : ℕ)
    (t : Place) : Prop where
  source : ∀ c < i, t.highestRdy c ≤ OS_LOWEST_PRIO →
    ∃ j < n, t.highMap j = true ∧ s.ncpuHighest j = t.highestRdy c
  taken : ∀ j < n, t.highMap j = true → s.ncpuHighest j ≤ OS_LOWEST_PRIO →
    ∃ c < i, t.highestRdy c = s.ncpuHighest j
  distinct : ∀ c < i, ∀ d < i, t.highestRdy c ≤ OS_LOWEST_PRIO →
    t.highestRdy c = t.highestRdy d → c = d
  loc : ∀ c < i, cls c = .loc → ¬ t.highestRdy c ≤ OS_LOWEST_PRIO
  passed : ∀ c < i, ∀ j ∈ pickSlots n s.ncpuHighest, cur c = s.ncpuHighest j → t.highMap j = true
  reserved : ∀ c, i ≤ c → ∀ j ∈ pickSlots n s.ncpuHighest, cur c = s.ncpuHighest j → c < n →
    (∀ d < i, cur d ≠ cur c) → t.highMap j = false
  grows : ∀ j, s.highMap j = true → t.highMap j = true
  current : ∀ c, i ≤ c → t.currentMap c = s.currentMap c
  rest : ∀ c, i ≤ c → t.highestRdy c = OS_PRIO_PCPU
  count : #{j ∈ unheldSlots n s.ncpuHighest cur | t.highMap j = true} =
    min #(unheldSlots n s.ncpuHighest cur) #(movers n cls rdy cur i)

lemma Spread.start (h : PickedBy n cls rdy s) :
    Spread n cls rdy cur s 0 ⟨fun _ => OS_PRIO_PCPU, s.highMap, s.currentMap⟩ := by
  have hfree : ∀ j ∈ pickSlots n s.ncpuHighest, s.highMap j = false := by
    intro j hj
    obtain ⟨hjn, hle⟩ := mem_pickSlots.1 hj
    exact h.free j (h.global j hjn hle)
  constructor
  case taken =>
    intro j hj hm hle
    dsimp only at hm
    rw [hfree j (mem_pickSlots.2 ⟨hj, hle⟩)] at hm
    cases hm
  case reserved => exact fun c _ j hj _ _ _ => hfree j hj
  case grows => exact fun _ hj => hj
  case current => exact fun _ _ => rfl
  case rest => exact fun _ _ => rfl
  case count =>
    rw [filter_false_of_mem]
    · simp [movers]
    · intro j hj
      simp [hfree j (unheldSlots_subset hj)]
  all_goals exact fun c hc => absurd hc (Nat.not_lt_zero c)

/-- All priorities that nobody runs are taken once there was a cpu for each of them. -/
lemma Spread.full_iff (ht : Spread n cls rdy cur s i t) :
    (∀ j ∈ unheldSlots n s.ncpuHighest cur, t.highMap j = true) ↔
      #(unheldSlots n s.ncpuHighest cur) ≤ #(movers n cls rdy cur i) := by
  rw [← card_filter_eq_iff, ht.count, inf_eq_left]

/-- A place that the second loop finds for a cpu is one that nobody runs, or all of these are
taken. -/
lemma Spread.found (ht : Spread n cls rdy cur s i t) (h : PickedBy n cls rdy s)
    (hloc : ∀ c < n, cls c = .loc → cur c = OS_PRIO_PCPU) {j : ℕ} (hj : j < n)
    (hm : t.highMap j = false) (hfree : ∀ c < n, t.currentMap c = false → s.ncpuHighest j ≠ cur c)
    (hfirst : ∀ a < j, t.highMap a = true ∨
      ∃ c < n, t.currentMap c = false ∧ s.ncpuHighest a = cur c) :
    j ∈ unheldSlots n s.ncpuHighest cur ∨ ¬ s.ncpuHighest j ≤ OS_LOWEST_PRIO ∧
      ∀ a ∈ unheldSlots n s.ncpuHighest cur, t.highMap a = true := by
  by_cases hle : s.ncpuHighest j ≤ OS_LOWEST_PRIO
  · refine Or.inl (mem_unheldSlots.2 ⟨mem_pickSlots.2 ⟨hj, hle⟩, fun c hc heq => ?_⟩)
    rcases Nat.lt_or_ge c i with hci | hci
    · rw [ht.passed c hci j (mem_pickSlots.2 ⟨hj, hle⟩) heq] at hm
      cases hm
    · refine hfree c hc ?_ heq.symm
      rw [ht.current c hci]
      cases hcls : cls c with
      | global => exact h.current c hcls
      | loc =>
        rw [← heq, hloc c hc hcls] at hle
        exact absurd hle (by decide)
  · refine Or.inr ⟨hle, fun a ha => ?_⟩
    obtain ⟨hpick, hun⟩ := mem_unheldSlots.1 ha
    obtain ⟨han, hale⟩ := mem_pickSlots.1 hpick
    have hsm : s.highMap j = false := by
      by_contra hcon
      rw [ht.grows j (by simpa using hcon)] at hm
      cases hm
    rcases hfirst a (h.after a han j hj hale hsm hle) with hmap | ⟨c, hc, -, heq⟩
    · exact hmap
    · exact absurd heq.symm (hun c hc)

/-- Nothing is left for the cpu `i`. -/
lemma Spread.skip (ht : Spread n cls rdy cur s i t)
    (hpassed : ∀ j ∈ pickSlots n s.ncpuHighest, cur i = s.ncpuHighest j → t.highMap j = true)
    (hfull : ∀ j ∈ unheldSlots n s.ncpuHighest cur, t.highMap j = true) :
    Spread n cls rdy cur s (i + 1) t := by
  have hi : ¬ t.highestRdy i ≤ OS_LOWEST_PRIO := by
    rw [ht.rest i le_rfl]
    decide
  constructor
  case source =>
    exact Nat.forall_lt_succ_right.2 ⟨ht.source, fun hle => absurd hle hi⟩
  case taken =>
    intro j hj hm hle
    obtain ⟨c, hc, heq⟩ := ht.taken j hj hm hle
    exact ⟨c, by omega, heq⟩
  case distinct =>
    intro c hc d hd hle hcd
    have hci : c ≠ i := fun hci => hi (hci ▸ hle)
    have hdi : d ≠ i := fun hdi => hi (hdi ▸ hcd ▸ hle)
    exact ht.distinct c (by omega) d (by omega) hle hcd
  case loc => exact Nat.forall_lt_succ_right.2 ⟨ht.loc, fun _ => hi⟩
  case passed => exact Nat.forall_lt_succ_right.2 ⟨ht.passed, hpassed⟩
  case reserved =>
    exact fun c hc j hj heq hcn hfirst =>
      ht.reserved c (by omega) j hj heq hcn fun d hd => hfirst d (by omega)
  case grows => exact ht.grows
  case current => exact fun c hc => ht.current c (by omega)
  case rest => exact fun c hc => ht.rest c (by omega)
  case count =>
    rw [filter_true_of_mem hfull, min_eq_left]
    exact (ht.full_iff.1 hfull).trans (card_movers_mono (Nat.le_succ i))

/-- The cpu `i` gets the priority in place `j`, which nobody took. -/
lemma Spread.take (ht : Spread n cls rdy cur s i t) (h : PickedBy n cls rdy s) {j : ℕ} (hj : j < n)
    (hm : t.highMap j = false) {currentMap : ℕ → Bool}
    (hcur : ∀ c, c ≠ i → currentMap c = t.currentMap c)
    (hloc : cls i = .loc → ¬ s.ncpuHighest j ≤ OS_LOWEST_PRIO)
    (hpassed : ∀ a ∈ pickSlots n s.ncpuHighest, cur i = s.ncpuHighest a →
      t.highMap a = true ∨ a = j)
    (hheld : s.ncpuHighest j ≤ OS_LOWEST_PRIO → ∀ c < n, i + 1 ≤ c → cur c = s.ncpuHighest j →
      cur i = cur c)
    (hcount : #{a ∈ unheldSlots n s.ncpuHighest cur | Function.update t.highMap j true a = true} =
      min #(unheldSlots n s.ncpuHighest cur) #(movers n cls rdy cur (i + 1))) :
    Spread n cls rdy cur s (i + 1) ⟨Function.update t.highestRdy i (s.ncpuHighest j),
      Function.update t.highMap j true, currentMap⟩ := by
  have hgrows : ∀ a, t.highMap a = true → Function.update t.highMap j true a = true := by
    intro a ha
    by_cases haj : a = j
    · simp [haj]
    · rwa [Function.update_of_ne haj]
  have hfresh : ∀ c < i, t.highestRdy c ≤ OS_LOWEST_PRIO → t.highestRdy c ≠ s.ncpuHighest j := by
    intro c hc hle heq
    obtain ⟨b, hb, hbm, hbH⟩ := ht.source c hc hle
    rw [h.inj b hb j hj (hbH ▸ hle) (hbH.trans heq), hm] at hbm
    cases hbm
  constructor
  case source =>
    refine Nat.forall_lt_succ_right.2 ⟨fun c hc hle => ?_, fun _ => ?_⟩
    · dsimp only at hle ⊢
      rw [Function.update_of_ne hc.ne] at hle ⊢
      obtain ⟨b, hb, hbm, heq⟩ := ht.source c hc hle
      exact ⟨b, hb, hgrows b hbm, heq⟩
    · refine ⟨j, hj, Function.update_self _ _ _, ?_⟩
      dsimp only
      rw [Function.update_self]
  case taken =>
    intro b hb hbm hle
    by_cases hbj : b = j
    · exact ⟨i, Nat.lt_succ_self i, by simp [hbj]⟩
    · obtain ⟨c, hc, heq⟩ := ht.taken b hb (by simpa [hbj] using hbm) hle
      exact ⟨c, by omega, by simpa [hc.ne] using heq⟩
  case distinct =>
    intro c hc d hd hle hcd
    dsimp only at hle hcd
    rcases (Nat.lt_succ_iff.1 hc).eq_or_lt with rfl | hci <;>
      rcases (Nat.lt_succ_iff.1 hd).eq_or_lt with rfl | hdi
    · rfl
    · rw [Function.update_self] at hle hcd
      rw [Function.update_of_ne hdi.ne] at hcd
      exact absurd hcd.symm (hfresh d hdi (hcd ▸ hle))
    · rw [Function.update_of_ne hci.ne] at hle hcd
      rw [Function.update_self] at hcd
      exact absurd hcd (hfresh c hci hle)
    · rw [Function.update_of_ne hci.ne] at hle hcd
      rw [Function.update_of_ne hdi.ne] at hcd
      exact ht.distinct c hci d hdi hle hcd
  case loc =>
    refine Nat.forall_lt_succ_right.2 ⟨fun c hc hcls => ?_, fun hcls => ?_⟩
    · dsimp only
      rw [Function.update_of_ne hc.ne]
      exact ht.loc c hc hcls
    · dsimp only
      rw [Function.update_self]
      exact hloc hcls
  case passed =>
    refine Nat.forall_lt_succ_right.2
      ⟨fun c hc a ha heq => hgrows a (ht.passed c hc a ha heq), fun a ha heq => ?_⟩
    rcases hpassed a ha heq with ham | rfl
    · exact hgrows a ham
    · exact Function.update_self _ _ _
  case reserved =>
    intro c hc a ha heq hcn hfirst
    have haj : a ≠ j := by
      rintro rfl
      exact hfirst i (Nat.lt_succ_self i) (hheld (mem_pickSlots.1 ha).2 c hcn hc heq)
    dsimp only
    rw [Function.update_of_ne haj]
    exact ht.reserved c (by omega) a ha heq hcn fun d hd => hfirst d (by omega)
  case grows => exact fun a ha => hgrows a (ht.grows a ha)
  case current => exact fun c hc => (hcur c (by omega)).trans (ht.current c (by omega))
  case rest =>
    exact fun c hc => (Function.update_of_ne (show c ≠ i by omega) _ _).trans (ht.rest c (by omega))
  case count => exact hcount

/-- The count after a place that nobody runs was taken. -/
lemma card_filter_update {S : Finset ℕ} {map : ℕ → Bool} {j : ℕ} (hm : map j = false) :
    #{a ∈ S | Function.update map j true a = true} =
      #{a ∈ S | map a = true} + if j ∈ S then 1 else 0 := by
  split_ifs with hj
  · have : {a ∈ S | Function.update map j true a = true} = insert j {a ∈ S | map a = true} := by
      ext a
      by_cases ha : a = j
      · subst ha
        simp [hj]
      · simp [ha]
    rw [this, card_insert_of_notMem (by simp [hm])]
  · congr 1
    refine filter_congr fun a ha => ?_
    rw [Function.update_of_ne (ne_of_mem_of_not_mem ha hj)]

/-- A round of the second loop. A LOCAL cpu finds a picked priority only if the GLOBAL cpus before
it left one that nobody runs. -/
lemma Spread.step (ht : Spread n cls rdy cur s i t) (h : PickedBy n cls rdy s)
    (hloc : ∀ c < n, cls c = .loc → cur c = OS_PRIO_PCPU) (hcur : ∀ c < n, cur c ≤ OS_PRIO_IDLE)
    (hi : i < n) (hfit : cls i = .loc →
      #(unheldSlots n s.ncpuHighest cur) ≤ #(movers n cls rdy cur i)) :
    Spread n cls rdy cur s (i + 1) (placeCpu n s.ncpuHighest cur t i) := by
  rcases placeCpu_cases n s.ncpuHighest cur t i with ⟨j, hj, hp, hm, heq⟩ | ⟨hnone, hrest⟩
  · -- the cpu keeps its task, which it is the first one to claim
    have hle : s.ncpuHighest j ≤ OS_LOWEST_PRIO := by
      refine (h.filler j).resolve_right fun hfill => ?_
      have := hcur i hi
      rw [hp, hfill] at this
      exact absurd this (by decide)
    have hpick := mem_pickSlots.2 ⟨hj, hle⟩
    have hstays : Stays n cls rdy cur i := by
      refine ⟨(h.lowest_iff _).2 ⟨j, hpick, hp.symm⟩, fun c hc hci => ?_⟩
      rw [ht.passed c hc j hpick (hci.trans hp)] at hm
      cases hm
    rw [heq, hp]
    refine ht.take h hj hm (fun c hc => Function.update_of_ne hc _ _) (fun hcls => ?_)
      (fun a ha hia => ?_) (fun _ c _ _ hcj => hp.trans hcj.symm) ?_
    · rw [← hp, hloc i hi hcls]
      decide
    · obtain ⟨han, hale⟩ := mem_pickSlots.1 ha
      exact Or.inr (h.inj a han j hj hale (hia.symm.trans hp))
    · have hnot : j ∉ unheldSlots n s.ncpuHighest cur :=
        fun hun => (mem_unheldSlots.1 hun).2 i hi hp
      rw [card_filter_update hm, if_neg hnot, card_movers_succ, if_neg fun hmove => hmove.2 hstays]
      exact ht.count
  · have hmover : cls i = .global → ¬ Stays n cls rdy cur i := by
      rintro - ⟨hlow, hfirst⟩
      obtain ⟨j, hj, hji⟩ := (h.lowest_iff _).1 hlow
      have hmapped := hnone j (mem_pickSlots.1 hj).1 hji.symm
      rw [ht.reserved i le_rfl j hj hji.symm hi hfirst] at hmapped
      cases hmapped
    have hpassed : ∀ a ∈ pickSlots n s.ncpuHighest, cur i = s.ncpuHighest a → t.highMap a = true :=
      fun a ha => hnone a (mem_pickSlots.1 ha).1
    rcases hrest with ⟨j, hj, hm, hfree, hfirst, heq⟩ | ⟨hall, heq⟩
    · rw [heq]
      rcases ht.found h hloc hj hm hfree hfirst with hun | ⟨hfill, hfull⟩
      · have hnotfull : ¬ #(unheldSlots n s.ncpuHighest cur) ≤ #(movers n cls rdy cur i) := by
          rw [← ht.full_iff]
          intro hfull
          rw [hfull j hun] at hm
          cases hm
        have hcls : cls i = .global := by
          cases hcls : cls i with
          | loc => exact absurd (hfit hcls) hnotfull
          | global => rfl
        refine ht.take h hj hm (fun _ _ => rfl) (fun hcls' => ?_)
          (fun a ha hia => Or.inl (hpassed a ha hia))
          (fun _ c hc _ hcj => absurd hcj ((mem_unheldSlots.1 hun).2 c hc)) ?_
        · rw [hcls] at hcls'
          cases hcls'
        · rw [card_filter_update hm, if_pos hun, card_movers_succ, if_pos ⟨hcls, hmover hcls⟩,
            ht.count]
          omega
      · refine ht.take h hj hm (fun _ _ => rfl) (fun _ => hfill)
          (fun a ha hia => Or.inl (hpassed a ha hia)) (fun hle => absurd hle hfill) ?_
        have hnot : j ∉ unheldSlots n s.ncpuHighest cur :=
          fun hun => hfill (mem_pickSlots.1 (unheldSlots_subset hun)).2
        rw [card_filter_update hm, if_neg hnot, add_zero, filter_true_of_mem hfull, min_eq_left]
        exact (ht.full_iff.1 hfull).trans (card_movers_mono (Nat.le_succ i))
    · rw [heq]
      refine ht.skip hpassed fun a ha => ?_
      obtain ⟨hpick, hun⟩ := mem_unheldSlots.1 ha
      refine (hall a (mem_pickSlots.1 hpick).1).resolve_right ?_
      rintro ⟨c, hc, -, hac⟩
      exact hun c hc hac.symm

/-- The second loop up to the cpu `k`. -/
lemma Spread.fold (h : PickedBy n cls rdy s)
    (hloc : ∀ c < n, cls c = .loc → cur c = OS_PRIO_PCPU) (hcur : ∀ c < n, cur c ≤ OS_PRIO_IDLE)
    (hk : k ≤ n) (hfit : ∀ c < k, cls c = .loc →
      #(unheldSlots n s.ncpuHighest cur) ≤ #(movers n cls rdy cur c)) :
    Spread n cls rdy cur s k ((List.range k).foldl (placeCpu n s.ncpuHighest cur)
      ⟨fun _ => OS_PRIO_PCPU, s.highMap, s.currentMap⟩) := by
  induction k with
  | zero => exact Spread.start h
  | succ k ih =>
    rw [List.range_succ, List.foldl_append, List.foldl_cons, List.foldl_nil]
    exact (ih (by omega) fun c hc => hfit c (by omega)).step h hloc hcur (by omega)
      (hfit k (Nat.lt_succ_self k))

lemma placeCpu_highestRdy_of_ne {H : ℕ → ℕ} {c : ℕ} (hc : c ≠ i) :
    (placeCpu n H cur t i).highestRdy c = t.highestRdy c := by
  rcases placeCpu_cases n H cur t i with
    ⟨j, -, -, -, heq⟩ | ⟨-, ⟨j, -, -, -, -, heq⟩ | ⟨-, heq⟩⟩ <;> rw [heq]
  all_goals exact Function.update_of_ne hc _ _

lemma foldl_highestRdy_of_notMem {H : ℕ → ℕ} {l : List ℕ} {c : ℕ} (hc : c ∉ l) :
    (l.foldl (placeCpu n H cur) t).highestRdy c = t.highestRdy c := by
  induction l generalizing t with
  | nil => rfl
  | cons i l ih =>
    rw [List.mem_cons, not_or] at hc
    rw [List.foldl_cons, ih hc.2, placeCpu_highestRdy_of_ne hc.1]

/-- Only its own round decides about a cpu. -/
lemma foldl_range_highestRdy {H : ℕ → ℕ} (hi : i < n) :
    ((List.range n).foldl (placeCpu n H cur) t).highestRdy i =
      (placeCpu n H cur ((List.range i).foldl (placeCpu n H cur) t) i).highestRdy i := by
  obtain ⟨m, hm⟩ := Nat.exists_eq_add_of_le (Nat.succ_le_of_lt hi)
  have hrange : List.range n = List.range i ++ i :: (List.range m).map (i + 1 + ·) := by
    rw [hm, Nat.succ_eq_add_one, List.range_add, List.range_succ, List.append_assoc,
      List.singleton_append]
  rw [hrange, List.foldl_append, List.foldl_cons, foldl_highestRdy_of_notMem]
  intro hmem
  obtain ⟨a, -, ha⟩ := List.mem_map.1 hmem
  omega

/-- If something is left, the LOCAL cpu takes it. -/
lemma Spread.swallows (ht : Spread n cls rdy cur s i t) (h : PickedBy n cls rdy s)
    (hloc : ∀ c < n, cls c = .loc → cur c = OS_PRIO_PCPU) (hi : i < n) (hcls : cls i = .loc)
    (hleft : ¬ #(unheldSlots n s.ncpuHighest cur) ≤ #(movers n cls rdy cur i)) :
    (placeCpu n s.ncpuHighest cur t i).highestRdy i ≤ OS_LOWEST_PRIO := by
  rw [← ht.full_iff] at hleft
  rcases placeCpu_cases n s.ncpuHighest cur t i with
    ⟨j, hj, hp, -, -⟩ | ⟨-, ⟨j, hj, hm, hfree, hfirst, heq⟩ | ⟨hall, -⟩⟩
  · rw [hloc i hi hcls] at hp
    rcases h.filler j with hle | hfill
    · rw [← hp] at hle
      exact absurd hle (by decide)
    · rw [← hp] at hfill
      exact absurd hfill (by decide)
  · rcases ht.found h hloc hj hm hfree hfirst with hun | ⟨-, hfull⟩
    · rw [heq]
      dsimp only
      rw [Function.update_self]
      exact (mem_pickSlots.1 (unheldSlots_subset hun)).2
    · exact absurd hfull hleft
  · refine absurd (fun a ha => ?_) hleft
    obtain ⟨hpick, hun⟩ := mem_unheldSlots.1 ha
    refine (hall a (mem_pickSlots.1 hpick).1).resolve_right ?_
    rintro ⟨c, hc, -, hac⟩
    exact hun c hc hac.symm

end Place

/-! ### What the cpus are offered -/

/-- A LOCAL cpu is offered nothing, and the lowest ready priorities, as many as there are GLOBAL
cpus, are offered to the GLOBAL cpus, each to one. -/
structure GlobalOnly (n : ℕ) (cls : ℕ → SchedClass) (rdy : ReadyTable) (hi : ℕ → ℕ) : Prop where
  loc : ∀ c < n, cls c = .loc → hi c = OS_PRIO_PCPU
  lowest : ∀ p ≤ OS_LOWEST_PRIO,
    (∃ c < n, cls c = .global ∧ hi c = p) ↔ rdy.Lowest (globals n cls) p
  distinct : ∀ c < n, ∀ d < n, cls c = .global → cls d = .global → hi c ≤ OS_LOWEST_PRIO →
    hi c = hi d → c = d

section Choice

variable {n : ℕ} {cls : ℕ → SchedClass} {rdy : ReadyTable} {cur : ℕ → ℕ} {s : Pick} {t : Place}

lemma Spread.globalOnly (ht : Spread n cls rdy cur s n t) (h : PickedBy n cls rdy s) :
    GlobalOnly n cls rdy fun c =>
      if OS_PRIO_PCPU < t.highestRdy c then OS_PRIO_PCPU else t.highestRdy c := by
  have hclip : ∀ c, (if OS_PRIO_PCPU < t.highestRdy c then OS_PRIO_PCPU else t.highestRdy c) =
      min OS_PRIO_PCPU (t.highestRdy c) := fun c => by split_ifs <;> omega
  have hlow : ∀ c p, p ≤ OS_LOWEST_PRIO → (min OS_PRIO_PCPU (t.highestRdy c) = p ↔
      t.highestRdy c = p) := by
    intro c p hp
    simp only [ OS_LOWEST_PRIO, OS_PRIO_PCPU] at hp ⊢
    omega
  simp only [hclip]
  have hmapped : ∀ j ∈ pickSlots n s.ncpuHighest, t.highMap j = true := by
    intro j hj
    by_cases hun : ∀ c < n, cur c ≠ s.ncpuHighest j
    · exact ht.full_iff.2 h.card_unheldSlots_le j (mem_unheldSlots.2 ⟨hj, hun⟩)
    · push Not at hun
      obtain ⟨c, hc, heq⟩ := hun
      exact ht.passed c hc j hj heq
  constructor
  case loc =>
    intro c hc hcls
    have := ht.loc c hc hcls
    simp only [ OS_LOWEST_PRIO, OS_PRIO_PCPU] at this ⊢
    omega
  case lowest =>
    intro p hp
    rw [h.lowest_iff]
    constructor
    · rintro ⟨c, hc, -, hcp⟩
      rw [hlow c p hp] at hcp
      obtain ⟨j, hj, -, hjc⟩ := ht.source c hc (hcp ▸ hp)
      exact ⟨j, mem_pickSlots.2 ⟨hj, by omega⟩, hjc.trans hcp⟩
    · rintro ⟨j, hj, rfl⟩
      obtain ⟨c, hc, hcj⟩ := ht.taken j (mem_pickSlots.1 hj).1 (hmapped j hj) hp
      refine ⟨c, hc, ?_, (hlow c _ hp).2 hcj⟩
      cases hcls : cls c with
      | loc => exact absurd (hcj ▸ hp) (ht.loc c hc hcls)
      | global => rfl
  case distinct =>
    intro c hc d hd _ _ hle hcd
    have hc' := (hlow c _ hle).1 rfl
    rw [hcd] at hle
    have hd' := (hlow d _ hle).1 rfl
    exact ht.distinct c hc d hd (by omega) (by omega)

/-- A LOCAL cpu is offered nothing and no realtime task is lost, exactly if for every LOCAL cpu the
GLOBAL cpus before it take all the picked priorities that no cpu runs. -/
theorem schedNew_globalOnly_iff (n : ℕ) (cls : ℕ → SchedClass) (rdy : ReadyTable) (cur : ℕ → ℕ)
    (hrdy : rdy.Consistent) (hloc : ∀ c < n, cls c = .loc → cur c = OS_PRIO_PCPU)
    (hcur : ∀ c < n, cur c ≤ OS_PRIO_IDLE) :
    GlobalOnly n cls rdy (schedNew n cls rdy cur) ↔
      ∀ c < n, cls c = .loc → NothingLeftAt n cls rdy cur c := by
  by_cases hz : rdy.isZero = true
  · have hnone : ∀ p, ¬ rdy.Lowest (globals n cls) p :=
      fun p hp => ReadyTable.isZero_iff.1 hz p hp.1
    have hi : ∀ c, schedNew n cls rdy cur c = OS_PRIO_PCPU := fun c => by simp [schedNew, hz]
    refine iff_of_true ⟨fun c _ _ => hi c, fun p hp => iff_of_false ?_ (hnone p), ?_⟩ ?_
    · rintro ⟨c, -, -, rfl⟩
      rw [hi c] at hp
      exact absurd hp (by decide)
    · intro c _ d _ _ _ hle
      rw [hi c] at hle
      exact absurd hle (by decide)
    · intro c _ _
      rw [NothingLeftAt, filter_false_of_mem fun p _ hp => hnone p hp.1]
      exact Nat.zero_le _
  · rw [Bool.not_eq_true] at hz
    have hpick : PickedBy n cls rdy (pickLoop cls (List.range' 0 n) _) :=
      pickLoop_pickedBy (PickingBy.start hrdy) hz (Nat.zero_add n)
    rw [← List.range_eq_range'] at hpick
    generalize hs : pickLoop cls (List.range n)
      ⟨rdy, fun _ => OS_PRIO_IDLE + 1, fun _ => false, fun _ => false⟩ = s at hpick
    have hleft : ∀ c, NothingLeftAt n cls rdy cur c ↔
        #(unheldSlots n s.ncpuHighest cur) ≤ #(movers n cls rdy cur c) := fun c => by
      rw [NothingLeftAt, hpick.card_unheldSlots]
    simp only [hleft]
    constructor
    · -- the first LOCAL cpu for which something is left takes it
      intro honly c hc hcls
      by_contra hnot
      have hex : ∃ i, i < n ∧ cls i = .loc ∧
          ¬ #(unheldSlots n s.ncpuHighest cur) ≤ #(movers n cls rdy cur i) := ⟨c, hc, hcls, hnot⟩
      obtain ⟨hin, hicls, hinot⟩ := Nat.find_spec hex
      have hmin := fun d => Nat.find_min (m := d) hex
      generalize Nat.find hex = i at hin hicls hinot hmin
      have ht := Spread.fold hpick hloc hcur hin.le fun d hd hdcls => by
        by_contra hcon
        exact hmin d hd ⟨by omega, hdcls, hcon⟩
      have htake := ht.swallows hpick hloc hin hicls hinot
      have heq := honly.loc i hin hicls
      simp only [schedNew, hz, Bool.false_eq_true, if_false, hs, foldl_range_highestRdy hin] at heq
      rw [if_neg (by simp only [ OS_LOWEST_PRIO, OS_PRIO_PCPU] at htake ⊢; omega)] at heq
      rw [heq] at htake
      exact absurd htake (by decide)
    · intro hfit
      have ht := Spread.fold hpick hloc hcur le_rfl hfit
      have honly := ht.globalOnly hpick
      simpa only [schedNew, hz, Bool.false_eq_true, if_false, hs] using honly

/-- The cpu 0 is LOCAL and takes the only realtime task, so that the cpu 1 gets none. -/
theorem schedNew_local_swallows :
    let cls := fun c => if c = 0 then SchedClass.loc else .global
    let rdy : ReadyTable := ⟨1#8, fun y => if y = 0 then 0b100000#8 else 0#8⟩
    schedNew 2 cls rdy (fun _ => OS_PRIO_PCPU) 0 = 5 ∧
    schedNew 2 cls rdy (fun _ => OS_PRIO_PCPU) 1 = OS_PRIO_PCPU ∧
    ¬ GlobalOnly 2 cls rdy (schedNew 2 cls rdy fun _ => OS_PRIO_PCPU) := by
  intro cls rdy
  have h0 : schedNew 2 cls rdy (fun _ => OS_PRIO_PCPU) 0 = 5 := by decide +kernel
  refine ⟨h0, by decide +kernel, fun h => ?_⟩
  have := h.loc 0 (by decide) rfl
  rw [h0] at this
  exact absurd this (by decide)

/-- With the LOCAL cpu last, the GLOBAL cpus get the two lowest tasks. -/
theorem schedNew_globalOnly_three_cpus :
    let cls := fun c => if c = 2 then SchedClass.loc else .global
    let rdy : ReadyTable := ⟨1#8, fun y => if y = 0 then 0b100100#8 else 0#8⟩
    let cur := fun c => if c = 1 then 2 else OS_PRIO_PCPU
    GlobalOnly 3 cls rdy (schedNew 3 cls rdy cur) ∧
      (List.range 3).map (schedNew 3 cls rdy cur) = [5, 2, OS_PRIO_PCPU] :=
  ⟨(schedNew_globalOnly_iff 3 _ _ _ (by decide) (by decide) (by decide)).2 (by decide +kernel),
    by decide +kernel⟩

end Choice

end Minos.Sched
