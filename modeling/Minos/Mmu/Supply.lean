import Mathlib
import Minos.Mmu.Mapping

/-!
# Pages for tables

What the mapping code assumes of `alloc_page`: the pages it is going to hand out, `avail`, are
aligned, distinct, and below the 48 bits an entry has for an address. `Maps` is an update of a
table together with what happened to the supply of pages.
-/

namespace Minos.Mmu

open Radix WordMem

variable {σ : Type} (A : PageOps σ)

/-- The page that the `i`-th call of `alloc_page` from now on returns. -/
def nthPage : ℕ → σ → Option ℕ
  | 0, a => (A.allocPage a).map Prod.fst
  | i + 1, a => (A.allocPage a).bind fun r => nthPage i r.2

/-- The pages that `alloc_page` can still return. -/
def avail (a : σ) : Set ℕ := {p | ∃ i, nthPage A i a = some p}

/-- `alloc_page` returns distinct aligned pages with a 48-bit address that is not zero. -/
structure Supply (a : σ) : Prop where
  aligned : ∀ p ∈ avail A a, 4096 ∣ p
  ne_zero : ∀ p ∈ avail A a, p ≠ 0
  lt : ∀ p ∈ avail A a, p < 2 ^ 48
  inj : ∀ i j p, nthPage A i a = some p → nthPage A j a = some p → i = j

variable {A} {a a' : σ} {p : ℕ}

lemma nthPage_succ (h : A.allocPage a = some (p, a')) (i : ℕ) :
    nthPage A (i + 1) a = nthPage A i a' := by
  simp [nthPage, h]

lemma mem_avail_of_alloc (h : A.allocPage a = some (p, a')) : p ∈ avail A a :=
  ⟨0, by simp [nthPage, h]⟩

lemma avail_subset_of_alloc (h : A.allocPage a = some (p, a')) : avail A a' ⊆ avail A a := by
  rintro q ⟨i, hi⟩
  exact ⟨i + 1, by rw [nthPage_succ h, hi]⟩

lemma Supply.notMem_of_alloc (hs : Supply A a) (h : A.allocPage a = some (p, a')) :
    p ∉ avail A a' := by
  rintro ⟨i, hi⟩
  have h₀ : nthPage A 0 a = some p := by simp [nthPage, h]
  have h₁ : nthPage A (i + 1) a = some p := by rw [nthPage_succ h, hi]
  exact absurd (hs.inj _ _ _ h₀ h₁) (Nat.succ_ne_zero i).symm

lemma Supply.of_alloc (hs : Supply A a) (h : A.allocPage a = some (p, a')) : Supply A a' where
  aligned := fun q hq => hs.aligned q (avail_subset_of_alloc h hq)
  ne_zero := fun q hq => hs.ne_zero q (avail_subset_of_alloc h hq)
  lt := fun q hq => hs.lt q (avail_subset_of_alloc h hq)
  inj := by
    intro i j q hi hj
    rw [← nthPage_succ h] at hi hj
    exact Nat.succ.inj (hs.inj _ _ _ hi hj)

/-- When every page that is handed out is good and new, and is used from then on, the pages to come
are a supply, and none of them is in use. -/
lemma supply_of_invariant {I : σ → Prop} {used : σ → Set ℕ}
    (hstep : ∀ a p a', I a → A.allocPage a = some (p, a') →
      I a' ∧ (4096 ∣ p ∧ p ≠ 0 ∧ p < 2 ^ 48) ∧ p ∉ used a ∧ insert p (used a) ⊆ used a')
    (h : I a) : Supply A a ∧ Disjoint (avail A a) (used a) := by
  have hgood : ∀ i (a : σ), I a → ∀ p, nthPage A i a = some p →
      (4096 ∣ p ∧ p ≠ 0 ∧ p < 2 ^ 48) ∧ p ∉ used a := by
    intro i
    induction i with
    | zero =>
      intro a ha p hp
      obtain ⟨⟨q, a'⟩, halloc, rfl⟩ := Option.map_eq_some_iff.1 hp
      obtain ⟨-, hq, hnew, -⟩ := hstep a q a' ha halloc
      exact ⟨hq, hnew⟩
    | succ i ih =>
      intro a ha p hp
      obtain ⟨⟨q, a'⟩, halloc, hp⟩ := Option.bind_eq_some_iff.1 hp
      obtain ⟨ha', -, -, hsub⟩ := hstep a q a' ha halloc
      obtain ⟨hq, hnew⟩ := ih a' ha' p hp
      exact ⟨hq, fun hmem => hnew (hsub (Set.mem_insert_of_mem q hmem))⟩
  have hlt : ∀ i j (a : σ), I a → ∀ p, nthPage A i a = some p → nthPage A j a = some p →
      ¬ i < j := by
    intro i
    induction i with
    | zero =>
      intro j a ha p hi hj hlt
      obtain ⟨k, rfl⟩ := Nat.exists_eq_succ_of_ne_zero (Nat.ne_of_gt hlt)
      obtain ⟨⟨q, a'⟩, halloc, rfl⟩ := Option.map_eq_some_iff.1 hi
      obtain ⟨ha', -, -, hsub⟩ := hstep a q a' ha halloc
      rw [nthPage_succ halloc] at hj
      exact (hgood k a' ha' q hj).2 (hsub (Set.mem_insert q _))
    | succ i ih =>
      intro j a ha p hi hj hlt
      obtain ⟨k, rfl⟩ := Nat.exists_eq_succ_of_ne_zero (by omega : j ≠ 0)
      obtain ⟨⟨q, a'⟩, halloc, -⟩ := Option.bind_eq_some_iff.1 hi
      rw [nthPage_succ halloc] at hi hj
      exact ih k a' (hstep a q a' ha halloc).1 p hi hj (Nat.lt_of_succ_lt_succ hlt)
  refine ⟨⟨?_, ?_, ?_, fun i j p hi hj => ?_⟩, ?_⟩
  · rintro p ⟨i, hp⟩
    exact (hgood i a h p hp).1.1
  · rintro p ⟨i, hp⟩
    exact (hgood i a h p hp).1.2.1
  · rintro p ⟨i, hp⟩
    exact (hgood i a h p hp).1.2.2
  · exact le_antisymm (not_lt.1 (hlt j i a h p hj hi)) (not_lt.1 (hlt i j a h p hi hj))
  · rw [Set.disjoint_left]
    rintro p ⟨i, hp⟩
    exact (hgood i a h p hp).2

/-- An allocator that hands out the pages of a list. -/
def listPages : PageOps (List ℕ) where
  allocPage := fun l => l.head?.map fun p => (p, l.tail)
  free := fun l p => p :: l

lemma nthPage_listPages (i : ℕ) (l : List ℕ) : nthPage listPages i l = l[i]? := by
  induction i generalizing l with
  | zero => cases l <;> simp [nthPage, listPages]
  | succ i ih => cases l <;> simp_all [nthPage, listPages]

lemma avail_listPages (l : List ℕ) : avail listPages l = {p | p ∈ l} := by
  ext p
  simp [avail, nthPage_listPages, List.mem_iff_getElem?]

lemma supply_listPages {l : List ℕ} (hnd : l.Nodup)
    (h : ∀ p ∈ l, 4096 ∣ p ∧ p ≠ 0 ∧ p < 2 ^ 48) : Supply listPages l where
  aligned := fun p hp => (h p (by simpa [avail_listPages] using hp)).1
  ne_zero := fun p hp => (h p (by simpa [avail_listPages] using hp)).2.1
  lt := fun p hp => (h p (by simpa [avail_listPages] using hp)).2.2
  inj := by
    intro i j p hi hj
    rw [nthPage_listPages] at hi hj
    exact (List.getElem?_inj (List.getElem?_eq_some_iff.mp hi).1 hnd).mp (hi.trans hj.symm)

/-! ### Updates with a supply of pages -/

/-- An update of the table at `t` whose new pages come from the supply. -/
def Maps (A : PageOps σ) (F : Format) (n t W : ℕ) (R : Set ℕ) (g : ℕ → Option Leaf)
    (s s' : MmState σ) : Prop :=
  ∃ N ⊆ avail A s.alloc, Remap F n t W R g N s.mem s'.mem ∧ Supply A s'.alloc ∧
    avail A s'.alloc ⊆ avail A s.alloc ∧ Disjoint N (avail A s'.alloc)

namespace Maps

variable {F : Format} {n t W : ℕ} {R R' : Set ℕ} {g g' : ℕ → Option Leaf} {s s₁ s₂ : MmState σ}

lemma of_remap (h : Remap F n t W R g ∅ s.mem s₁.mem) (hs : Supply A s.alloc)
    (ha : s₁.alloc = s.alloc) : Maps A F n t W R g s s₁ :=
  ⟨∅, Set.empty_subset _, h, ha ▸ hs, ha ▸ subset_rfl, Set.empty_disjoint _⟩

lemma congr (h : Maps A F n t W R g s s₁) (hR : ∀ va, slot (n + 1) va = W → (va ∈ R ↔ va ∈ R'))
    (hg : ∀ va ∈ R', slot (n + 1) va = W → g va = g' va) : Maps A F n t W R' g' s s₁ := by
  obtain ⟨N, hN, hr, hrest⟩ := h
  exact ⟨N, hN, hr.congr hR hg, hrest⟩

lemma trans (h₁ : Maps A F n t W R g s s₁) (h₂ : Maps A F n t W R' g s₁ s₂) :
    Maps A F n t W (R ∪ R') g s s₂ := by
  obtain ⟨N₁, hN₁, hr₁, -, hav₁, hd₁⟩ := h₁
  obtain ⟨N₂, hN₂, hr₂, hs₂, hav₂, hd₂⟩ := h₂
  refine ⟨N₁ ∪ N₂, Set.union_subset hN₁ (hN₂.trans hav₁), hr₁.trans hr₂, hs₂,
    hav₂.trans hav₁, Disjoint.union_left (hd₁.mono_right hav₂) hd₂⟩

lemma wf (h : Maps A F n t W R g s s₁) : WF F s₁.mem n t := by
  obtain ⟨_, -, hr, -⟩ := h
  exact hr.wf

lemma supply (h : Maps A F n t W R g s s₁) : Supply A s₁.alloc := by
  obtain ⟨_, -, -, hs, -⟩ := h
  exact hs

/-- The pages still to come are new for the updated table too. -/
lemma fresh (h : Maps A F n t W R g s s₁)
    (hd : Disjoint (avail A s.alloc) (pages F s.mem n t)) :
    Disjoint (avail A s₁.alloc) (pages F s₁.mem n t) := by
  obtain ⟨N, -, hr, -, hav, hdN⟩ := h
  refine Disjoint.mono_right hr.pages_sub ?_
  exact Disjoint.union_right (hd.mono_left hav) hdN.symm

lemma walk_in (h : Maps A F n t W R g s s₁) :
    ∀ va, slot (n + 1) va = W → va ∈ R → walk F s₁.mem n t va = g va := by
  obtain ⟨_, -, hr, -⟩ := h
  exact hr.walk_in

lemma walk_out (h : Maps A F n t W R g s s₁) :
    ∀ va, slot (n + 1) va = W → va ∉ R → walk F s₁.mem n t va = walk F s.mem n t va := by
  obtain ⟨_, -, hr, -⟩ := h
  exact hr.walk_out

/-- Everything the update stored lies in pages of the table or in new pages. -/
lemma confined (h : Maps A F n t W R g s s₁) :
    Confined (pages F s.mem n t ∪ avail A s.alloc) s.mem s₁.mem := by
  obtain ⟨N, hN, hr, -⟩ := h
  exact hr.confined.mono (Set.union_subset_union_right _ hN)

lemma lift {t' : ℕ} (h : Maps A F n t' W R g s s₁) (hwf : WF F s.mem (n + 1) t)
    (hs : Supply A s.alloc) (hd : Disjoint (avail A s.alloc) (pages F s.mem (n + 1) t))
    (he : F.decode (n + 1) (s.mem.word (entryAddr t W)) = .table t')
    (hR : ∀ va ∈ R, slot (n + 1) va = W) : Maps A F (n + 1) t (W / 512) R g s s₁ := by
  obtain ⟨N, hN, hr, hrest⟩ := h
  exact ⟨N, hN, hr.lift hwf he (fun p hp => hs.aligned p (hN hp)) (hd.mono_left hN) hR, hrest⟩

end Maps

end Minos.Mmu
