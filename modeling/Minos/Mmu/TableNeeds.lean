import Mathlib
import Minos.Mmu.BlockOverlap

/-!
# The tables a mapping has to make

A mapping takes a page for every table that is missing, in the order of the addresses, and stops at
the first one for which `alloc_page` returns NULL. `tableNeeds` lists these tables for a range, from
the table as it is before the call; `createTableEntry_pud_run` says how far a call comes and what
it has done to the table then, whatever it returns.
-/

namespace Minos.Mmu

open Radix WordMem

variable {σ : Type} {A : PageOps σ} {F : Format} {n t W : ℕ}

/-! ### Taking pages -/

/-- `alloc_page` is called a number of times and returns a page each time. -/
inductive Takes (A : PageOps σ) : ℕ → σ → σ → Prop
  | refl (a : σ) : Takes A 0 a a
  | step {n p : ℕ} {a a' a'' : σ} (halloc : A.allocPage a = some (p, a')) (h : Takes A n a' a'') :
      Takes A (n + 1) a a''

/-- `alloc_page` returns that many more pages, and then NULL. -/
def PagesLeft (A : PageOps σ) (a : σ) (n : ℕ) : Prop :=
  ∃ a', Takes A n a a' ∧ A.allocPage a' = none

namespace Takes

variable {i j : ℕ} {a a' a'' : σ}

lemma one {p : ℕ} (h : A.allocPage a = some (p, a')) : Takes A 1 a a' := step h (refl a')

lemma trans (h₁ : Takes A i a a') (h₂ : Takes A j a' a'') : Takes A (i + j) a a'' := by
  induction h₁ with
  | refl a => simpa using h₂
  | step halloc _ ih =>
    rw [Nat.succ_add]
    exact step halloc (ih h₂)

/-- What `alloc_page` keeps is kept. -/
lemma keeps {P : σ → Prop} (hP : ∀ a p a', P a → A.allocPage a = some (p, a') → P a')
    (h : Takes A i a a') (ha : P a) : P a' := by
  induction h with
  | refl a => exact ha
  | step halloc _ ih => exact ih (hP _ _ _ ha halloc)

lemma le_pagesLeft (h : Takes A i a a') (hleft : PagesLeft A a j) : i ≤ j := by
  induction h generalizing j with
  | refl a => exact Nat.zero_le j
  | step halloc _ ih =>
    obtain ⟨b, htake, hnone⟩ := hleft
    cases htake with
    | refl => simp [hnone] at halloc
    | step halloc' htake' =>
      obtain ⟨-, rfl⟩ := Prod.mk.inj (Option.some.inj (halloc.symm.trans halloc'))
      exact Nat.succ_le_succ (ih ⟨b, htake', hnone⟩)

end Takes

lemma PagesLeft.unique {a : σ} {i j : ℕ} (hi : PagesLeft A a i) (hj : PagesLeft A a j) : i = j := by
  obtain ⟨b, hb, -⟩ := id hi
  obtain ⟨c, hc, -⟩ := id hj
  exact le_antisymm (hb.le_pagesLeft hj) (hc.le_pagesLeft hi)

/-! ### Missing tables -/

/-- Where the pieces of the range from `lo` to `hi` start that is cut at the multiples of `ms`. -/
def cuts (ms lo hi : ℕ) : List ℕ :=
  if _h : lo < hi ∧ 0 < ms then lo :: cuts ms (lo + min (ms - lo % ms) (hi - lo)) hi else []
termination_by hi - lo
decreasing_by
  have := Nat.mod_lt lo _h.2
  omega

lemma cuts_cons {ms lo hi : ℕ} (h : lo < hi) (hms : 0 < ms) :
    cuts ms lo hi = lo :: cuts ms (lo + min (ms - lo % ms) (hi - lo)) hi := by
  rw [cuts, dif_pos ⟨h, hms⟩]

@[simp] lemma cuts_self (ms lo : ℕ) : cuts ms lo lo = [] := by
  rw [cuts, dif_neg (by omega)]

lemma mem_cuts {ms lo hi v : ℕ} (h : v ∈ cuts ms lo hi) : lo ≤ v ∧ v < hi := by
  induction hk : hi - lo using Nat.strong_induction_on generalizing lo with
  | _ k ih =>
    rw [cuts] at h
    split_ifs at h with hlt
    · rcases List.mem_cons.mp h with rfl | h'
      · exact ⟨le_rfl, hlt.1⟩
      · have := Nat.mod_lt lo hlt.2
        have := ih _ (by omega) h' rfl
        omega
    · simp at h

/-- A table that a mapping has to make: a `PMD` table, or a `PTE` table below a `PMD` table that
the mapping has just made or below one that was there. -/
inductive TableNeed where
  | pmd (va : ℕ)
  | pte (newPmd : Bool) (va : ℕ)
deriving DecidableEq, Repr

/-- The address at which the mapping finds the table missing. -/
def TableNeed.va : TableNeed → ℕ
  | pmd va => va
  | pte _ va => va

/-- The table is missing in a table that the mapping has just made. -/
def TableNeed.inNew : TableNeed → Bool
  | pmd _ => false
  | pte newPmd _ => newPmd

/-- The `PTE` tables that are missing below the `PMD` table at `t`. -/
def pteNeeds (m : Mem) (t lo hi : ℕ) : List ℕ :=
  (cuts SIZE_2M lo hi).filter fun v => m.word (entryAddr t (slot 1 v)) = 0

lemma pteNeeds_cons {m : Mem} {lo hi : ℕ} (h : lo < hi) :
    pteNeeds m t lo hi = (if m.word (entryAddr t (slot 1 lo)) = 0 then [lo] else []) ++
      pteNeeds m t (lo + min (SIZE_2M - lo % SIZE_2M) (hi - lo)) hi := by
  rw [pteNeeds, cuts_cons h (by decide), List.filter_cons]
  split_ifs <;> simp_all [pteNeeds]

lemma pteNeeds_congr {m m' : Mem} {lo hi : ℕ}
    (h : ∀ v, lo ≤ v → v < hi →
      m'.word (entryAddr t (slot 1 v)) = m.word (entryAddr t (slot 1 v))) :
    pteNeeds m' t lo hi = pteNeeds m t lo hi := by
  refine List.filter_congr fun v hv => ?_
  obtain ⟨hlo, hhi⟩ := mem_cuts hv
  rw [h v hlo hhi]

/-- The tables that are missing for one piece of 1GiB or less. -/
def pieceNeeds (m : Mem) (root v e : ℕ) : List TableNeed :=
  let w := m.word (entryAddr root (slot 2 v))
  let blocks := SIZE_2M ∣ v ∧ SIZE_2M ∣ e - v
  if w = 0 then .pmd v :: if blocks then [] else (cuts SIZE_2M v e).map (.pte true)
  else if blocks then [] else (pteNeeds m (entryBase w) v e).map (.pte false)

/-- The tables that are missing for the range from `lo` to `hi`, in the order in which the mapping
comes to them. -/
def tableNeeds (m : Mem) (root lo hi : ℕ) : List TableNeed :=
  (cuts SIZE_1G lo hi).flatMap fun v =>
    pieceNeeds m root v (v + min (SIZE_1G - v % SIZE_1G) (hi - v))

lemma pieceNeeds_congr {m m' : Mem} {root v e : ℕ}
    (hroot : m'.word (entryAddr root (slot 2 v)) = m.word (entryAddr root (slot 2 v)))
    (hchild : m.word (entryAddr root (slot 2 v)) ≠ 0 → ∀ va,
      m'.word (entryAddr (entryBase (m.word (entryAddr root (slot 2 v)))) (slot 1 va)) =
        m.word (entryAddr (entryBase (m.word (entryAddr root (slot 2 v)))) (slot 1 va))) :
    pieceNeeds m' root v e = pieceNeeds m root v e := by
  rw [pieceNeeds, pieceNeeds, hroot]
  by_cases hval : m.word (entryAddr root (slot 2 v)) = 0
  · simp only [hval, if_true]
  · simp only [hval, if_false, pteNeeds_congr fun va _ _ => hchild hval va]

lemma tableNeeds_cons {m : Mem} {root lo hi : ℕ} (h : lo < hi) :
    tableNeeds m root lo hi =
      pieceNeeds m root lo (lo + min (SIZE_1G - lo % SIZE_1G) (hi - lo)) ++
        tableNeeds m root (lo + min (SIZE_1G - lo % SIZE_1G) (hi - lo)) hi := by
  rw [tableNeeds, cuts_cons h (by decide), List.flatMap_cons]
  rfl

lemma tableNeeds_congr {m m' : Mem} {root lo hi : ℕ}
    (h : ∀ v e, lo ≤ v → v < hi → pieceNeeds m' root v e = pieceNeeds m root v e) :
    tableNeeds m' root lo hi = tableNeeds m root lo hi := by
  refine List.flatMap_congr fun v hv => ?_
  obtain ⟨hlo, hhi⟩ := mem_cuts hv
  exact h v _ hlo hhi

/-! ### Updates next to other memory -/

/-- An update of the table at `t` with pages from the supply, that may also store to the pages of
`B`. -/
def MapsOver (A : PageOps σ) (B : Set ℕ) (F : Format) (n t W : ℕ) (R : Set ℕ)
    (g : ℕ → Option Leaf) (s s' : MmState σ) : Prop :=
  ∃ N ⊆ avail A s.alloc, Remap F n t W R g (N ∪ B) s.mem s'.mem ∧
    pages F s'.mem n t ⊆ pages F s.mem n t ∪ N ∧ Supply A s'.alloc ∧
    avail A s'.alloc ⊆ avail A s.alloc ∧ Disjoint N (avail A s'.alloc)

namespace MapsOver

variable {B R R' : Set ℕ} {g g' : ℕ → Option Leaf} {s s₁ s₂ : MmState σ}

lemma of_maps (h : Maps A F n t W R g s s₁) : MapsOver A B F n t W R g s s₁ := by
  obtain ⟨N, hN, hr, hrest⟩ := h
  exact ⟨N, hN, hr.mono Set.subset_union_left, hr.pages_sub, hrest⟩

/-- Stores that miss the table. -/
lemma of_confined (g : ℕ → Option Leaf) (hc : Confined B s.mem s₁.mem)
    (hag : AgreeOn (pages F s.mem n t) s.mem s₁.mem) (hwf : WF F s.mem n t)
    (hs : Supply A s.alloc) (ha : s₁.alloc = s.alloc) : MapsOver A B F n t W ∅ g s s₁ := by
  obtain ⟨hwalk, hpages, hwf'⟩ := congr_of_agreeOn hag
  refine ⟨∅, Set.empty_subset _, ⟨hwf' hwf, fun _ _ hva => absurd hva (Set.notMem_empty _),
    fun va _ _ => hwalk va, ?_, hc.mono ?_⟩, ?_, ha ▸ hs, ha ▸ subset_rfl, Set.empty_disjoint _⟩
  · rw [hpages]
    exact Set.subset_union_left
  · rw [Set.empty_union]
    exact Set.subset_union_right
  · rw [hpages]
    exact Set.subset_union_left

lemma congr (h : MapsOver A B F n t W R g s s₁)
    (hR : ∀ va, slot (n + 1) va = W → (va ∈ R ↔ va ∈ R'))
    (hg : ∀ va ∈ R', slot (n + 1) va = W → g va = g' va) : MapsOver A B F n t W R' g' s s₁ := by
  obtain ⟨N, hN, hr, hrest⟩ := h
  exact ⟨N, hN, hr.congr hR hg, hrest⟩

lemma trans (h₁ : MapsOver A B F n t W R g s s₁) (h₂ : MapsOver A B F n t W R' g s₁ s₂) :
    MapsOver A B F n t W (R ∪ R') g s s₂ := by
  obtain ⟨N₁, hN₁, hr₁, hp₁, -, hav₁, hd₁⟩ := h₁
  obtain ⟨N₂, hN₂, hr₂, hp₂, hs₂, hav₂, hd₂⟩ := h₂
  refine ⟨N₁ ∪ N₂, Set.union_subset hN₁ (hN₂.trans hav₁), (hr₁.trans hr₂).mono ?_, ?_, hs₂,
    hav₂.trans hav₁, Disjoint.union_left (hd₁.mono_right hav₂) hd₂⟩
  · exact (Set.union_union_distrib_right _ _ _).symm.subset
  · rw [← Set.union_assoc]
    exact hp₂.trans (Set.union_subset_union_left _ hp₁)

lemma wf (h : MapsOver A B F n t W R g s s₁) : WF F s₁.mem n t := by
  obtain ⟨_, -, hr, -⟩ := h
  exact hr.wf

lemma supply (h : MapsOver A B F n t W R g s s₁) : Supply A s₁.alloc := by
  obtain ⟨_, -, -, -, hs, -⟩ := h
  exact hs

lemma avail_subset (h : MapsOver A B F n t W R g s s₁) :
    avail A s₁.alloc ⊆ avail A s.alloc := by
  obtain ⟨_, -, -, -, -, hav, -⟩ := h
  exact hav

lemma fresh (h : MapsOver A B F n t W R g s s₁)
    (hd : Disjoint (avail A s.alloc) (pages F s.mem n t)) :
    Disjoint (avail A s₁.alloc) (pages F s₁.mem n t) := by
  obtain ⟨N, -, -, hp, -, hav, hdN⟩ := h
  exact Disjoint.mono_right hp (Disjoint.union_right (hd.mono_left hav) hdN.symm)

/-- The pages of `B` belong to no table afterwards either. -/
lemma apart (h : MapsOver A B F n t W R g s s₁)
    (hB : Disjoint B (pages F s.mem n t ∪ avail A s.alloc)) :
    Disjoint B (pages F s₁.mem n t ∪ avail A s₁.alloc) := by
  obtain ⟨N, hN, -, hp, -, hav, -⟩ := h
  refine hB.mono_right (Set.union_subset (hp.trans ?_) (hav.trans Set.subset_union_right))
  exact Set.union_subset_union_right _ hN

lemma walk_in (h : MapsOver A B F n t W R g s s₁) :
    ∀ va, slot (n + 1) va = W → va ∈ R → walk F s₁.mem n t va = g va := by
  obtain ⟨_, -, hr, -⟩ := h
  exact hr.walk_in

lemma walk_out (h : MapsOver A B F n t W R g s s₁) :
    ∀ va, slot (n + 1) va = W → va ∉ R → walk F s₁.mem n t va = walk F s.mem n t va := by
  obtain ⟨_, -, hr, -⟩ := h
  exact hr.walk_out

lemma confined (h : MapsOver A B F n t W R g s s₁) :
    Confined (pages F s.mem n t ∪ (avail A s.alloc ∪ B)) s.mem s₁.mem := by
  obtain ⟨N, hN, hr, -⟩ := h
  exact hr.confined.mono (Set.union_subset_union_right _ (Set.union_subset_union_left _ hN))

lemma lift {t' : ℕ} (h : MapsOver A B F n t' W R g s s₁) (hwf : WF F s.mem (n + 1) t)
    (hs : Supply A s.alloc) (hd : Disjoint (avail A s.alloc) (pages F s.mem (n + 1) t))
    (hal : ∀ p ∈ B, 4096 ∣ p) (hB : Disjoint B (pages F s.mem (n + 1) t))
    (he : F.decode (n + 1) (s.mem.word (entryAddr t W)) = .table t')
    (hR : ∀ va ∈ R, slot (n + 1) va = W) : MapsOver A B F (n + 1) t (W / 512) R g s s₁ := by
  obtain ⟨N, hN, hr, hp, hrest⟩ := h
  have halN : ∀ p ∈ N ∪ B, 4096 ∣ p := fun p hp => hp.elim (fun h => hs.aligned p (hN h)) (hal p)
  have hdN : Disjoint (N ∪ B) (pages F s.mem (n + 1) t) :=
    Disjoint.union_left (hd.mono_left hN) hB
  exact ⟨N, hN, hr.lift hwf he halN hdN hR, Remap.pages_of_child hwf he halN hdN hr.confined hp,
    hrest⟩

end MapsOver

/-! ### One round, whatever it returns -/

/-- A call for a range that is not empty fails at once when the table is missing and there is no
page; otherwise its first round is made, and decides whether there is another one. -/
lemma createTableEntry_cases {l next : Level} (hnext : l.next = some next) {flags lo hi phy v : ℕ}
    (hhi : hi + l.mapSize ≤ 2 ^ 64) {s s' : MmState σ} {ret : ℤ} (hlo : lo ≤ v) (hlt : v < hi)
    (hstart : v = lo ∨ l.mapSize ∣ v) (hs : Supply A s.alloc)
    (h : createTableEntry A (restInfo t lo hi phy l flags v) s = (ret, s')) :
    s.mem.word (restInfo t lo hi phy l flags v).entry = 0 ∧ A.allocPage s.alloc = none ∧
        ret = -ENOMEM ∧ s' = s ∨
      ∃ sz value s₁ s₂ ret₂, sz = min (l.mapSize - v % l.mapSize) (hi - v) ∧
        Piece lo hi l.mapSize v sz ∧
        EnterTable A (restInfo t lo hi phy l flags v) s value s₁ ∧
        createEntry A ⟨value, v, phyAt lo phy v, sz, next, flags⟩ s₁ = (ret₂, s₂) ∧
        (ret₂ = 0 ∧ createTableEntry A (restInfo t lo hi phy l flags (v + sz)) s₂ = (ret, s') ∨
          ret₂ ≠ 0 ∧ ret = ret₂ ∧
            s' = if s.mem.word (restInfo t lo hi phy l flags v).entry = 0 then
              { s₂ with alloc := A.free s₂.alloc value } else s₂) := by
  set info := restInfo t lo hi phy l flags v with hinfo
  have hsize : info.size ≠ 0 := Nat.sub_ne_zero_of_lt hlt
  have hround : roundSize info = min (l.mapSize - v % l.mapSize) (hi - v) :=
    roundSize_eq (show v + l.mapSize ≤ 2 ^ 64 by omega)
  have hpiece := piece_of_round l.mapSize_pos hlo hlt hstart
  have hadv : info.advance = restInfo t lo hi phy l flags
      (v + min (l.mapSize - v % l.mapSize) (hi - v)) := by
    have hle := hpiece.le_hi
    rw [MappingStruct.advance, hround, hinfo, restInfo, restInfo]
    simp only
    rw [add64_of_lt (by have := l.mapSize_pos; omega), add64_phyAt hlo, Nat.sub_sub]
  rw [createTableEntry, dif_neg hsize] at h
  split at h
  · rename_i hn
    exact absurd (hnext.symm.trans hn) (by simp)
  rename_i next' hn
  obtain rfl : next = next' := Option.some.inj (hnext.symm.trans hn)
  dsimp only at h
  rw [← createEntry] at h
  by_cases hnone : s.mem.word info.entry = 0 ∧ (enterTable A info s).1 = 0
  · left
    rw [if_pos hnone] at h
    obtain ⟨rfl, rfl⟩ := Prod.mk.inj h
    obtain ⟨hval, hzero⟩ := hnone
    cases halloc : A.allocPage s.alloc with
    | none => simp [enterTable, allocMappingPage, hval, halloc]
    | some r =>
      have hne := hs.ne_zero r.1 (mem_avail_of_alloc halloc)
      simp [enterTable, allocMappingPage, hval, halloc, hne] at hzero
  · right
    rw [if_neg hnone] at h
    rcases hchild : createEntry A ⟨(enterTable A info s).1, info.virBase, info.phyBase,
      roundSize info, next, info.flags⟩ (enterTable A info s).2 with ⟨ret₂, s₂⟩
    rw [hchild] at h
    dsimp only at h
    rw [hround] at hchild
    rw [hadv] at h
    refine ⟨_, _, _, s₂, ret₂, rfl, hpiece, enterTable_spec hnone, hchild, ?_⟩
    by_cases hret : ret₂ = 0
    · rw [if_neg (not_not.mpr hret)] at h
      exact Or.inl ⟨hret, h⟩
    · rw [if_pos hret] at h
      obtain ⟨rfl, rfl⟩ := Prod.mk.inj h
      exact Or.inr ⟨hret, rfl, rfl⟩

/-- Entering a table leaves the other entries alone, with the tables below them. -/
lemma EnterTable.frame {info : MappingStruct} {s s₁ : MmState σ} {value : ℕ}
    (h : EnterTable A info s value s₁) (hn : info.lvl.below = n + 1)
    (hwf : WF F s.mem (n + 1) info.tableBase) (hs : Supply A s.alloc)
    (hd : Disjoint (avail A s.alloc) (pages F s.mem (n + 1) info.tableBase)) :
    ∀ i < 512, i ≠ slot (n + 1) info.virBase % 512 →
      s₁.mem.word (info.tableBase + 8 * i) = s.mem.word (info.tableBase + 8 * i) ∧
      ∀ t', F.decode (n + 1) (s.mem.word (info.tableBase + 8 * i)) = .table t' →
        AgreeOn (pages F s.mem n t') s.mem s₁.mem := by
  intro i hi hne
  cases h with
  | old => exact ⟨rfl, fun t' _ p _ a _ _ => rfl⟩
  | new hval halloc hpage =>
    have hmem := mem_avail_of_alloc halloc
    have hentry := info.entry_eq
    rw [hn] at hentry
    have hc : Confined {value} s.mem ((s.mem.zeroPage value).zeroPage value) :=
      (Confined.zeroPage _ (Set.mem_singleton _)).trans (Confined.zeroPage _ (Set.mem_singleton _))
    have hzero : AgreeOn (pages F s.mem (n + 1) info.tableBase) s.mem
        ((s.mem.zeroPage value).zeroPage value) := by
      refine hc.agreeOn ?_ hwf.pages_aligned ?_
      · rintro p rfl
        exact hs.aligned p hmem
      · rw [Set.disjoint_singleton_left]
        exact Set.disjoint_left.mp hd hmem
    simp only
    rw [hentry]
    refine ⟨?_, fun t' ht' p hp a h₁ h₂ => ?_⟩
    · rw [store_entry_ne hne]
      exact hzero _ (self_mem_pages _ _ _) _ (by omega) (by omega)
    · have hbounds := entryAddr_bounds info.tableBase (slot (n + 1) info.virBase)
      have hout : a ≠ entryAddr info.tableBase (slot (n + 1) info.virBase) := by
        rintro rfl
        have hroot := page_eq_of_inPage hwf.aligned
          ((hwf.child hi ht').pages_aligned p hp) hbounds ⟨h₁, h₂⟩
        exact hwf.root_notMem hi ht' (hroot ▸ hp)
      rw [Mem.store_word_ne _ _ hout]
      exact hzero p (pages_child_subset hi ht' hp) a h₁ h₂

/-- How far a loop came: to the end of the range, with a page for each table that was missing, or
to the first missing table for which there was no page. -/
def Reached (A : PageOps σ) (needs : List ℕ) (hi f : ℕ) (ret : ℤ) (s s' : MmState σ) : Prop :=
  ret = 0 ∧ f = hi ∧ Takes A needs.length s.alloc s'.alloc ∨
    ret = -ENOMEM ∧ ∃ i, needs[i]? = some f ∧ Takes A i s.alloc s'.alloc ∧
      A.allocPage s'.alloc = none

lemma Reached.after {pre rest : List ℕ} {hi f : ℕ} {ret : ℤ} {s s₁ s' : MmState σ}
    (h₁ : Takes A pre.length s.alloc s₁.alloc) (h₂ : Reached A rest hi f ret s₁ s') :
    Reached A (pre ++ rest) hi f ret s s' := by
  rcases h₂ with ⟨hret, hf, htake⟩ | ⟨hret, i, hi, htake, hnone⟩
  · refine Or.inl ⟨hret, hf, ?_⟩
    rw [List.length_append]
    exact h₁.trans htake
  · refine Or.inr ⟨hret, pre.length + i, ?_, h₁.trans htake, hnone⟩
    rw [List.getElem?_append_right (by omega), Nat.add_sub_cancel_left]
    exact hi

lemma EnterTable.takes {info : MappingStruct} {s s₁ : MmState σ} {value : ℕ}
    (h : EnterTable A info s value s₁) :
    Takes A (if s.mem.word info.entry = 0 then 1 else 0) s.alloc s₁.alloc ∧
      s.head <:+ s₁.head := by
  cases h with
  | new hval halloc =>
    rw [if_pos hval]
    exact ⟨Takes.one halloc, List.suffix_cons _ _⟩
  | old hval =>
    rw [if_neg hval]
    exact ⟨Takes.refl _, List.suffix_rfl⟩

lemma EnterTable.mem_head {info : MappingStruct} {s s₁ : MmState σ} {value : ℕ}
    (h : EnterTable A info s value s₁) (hval : s.mem.word info.entry = 0) : value ∈ s₁.head := by
  cases h with
  | new => exact List.mem_cons_self
  | old hne => exact absurd hval hne

/-! ### The loop of a `PMD` table -/

variable {B : Set ℕ}

/-- `va` is not translated by a block of the table at `t`. -/
def NoBlockAt (m : Mem) (t va : ℕ) : Prop :=
  ∀ x, walk guestFormat m 1 t va = some x → x.lvl ≠ 1

/-- The blocks of the table at `t` map pages of `B`. -/
def BlocksOver (B : Set ℕ) (m : Mem) (t W : ℕ) : Prop :=
  ∀ va, slot 2 va = W → ∀ x, walk guestFormat m 1 t va = some x → x.lvl = 1 →
    x.out / 4096 * 4096 ∈ B

/-- The address in a block entry is that of a page of the block. -/
lemma BlocksOver.entryBase_mem {m : Mem} {v b : ℕ} (h : BlocksOver B m t (slot 2 v))
    (hdec : guestFormat.decode 1 (m.word (entryAddr t (slot 1 v))) = .leaf b) :
    entryBase (m.word (entryAddr t (slot 1 v))) ∈ B := by
  set w := m.word (entryAddr t (slot 1 v)) with hw
  -- the address in `w`, up to the page, is the output of this address of the slot
  have hslot : slot 1 (slot 1 v * 2 ^ 21 + w % 2 ^ 21) = slot 1 v := by
    simp only [slot]
    omega
  have hwalk : walk guestFormat m 1 t (slot 1 v * 2 ^ 21 + w % 2 ^ 21) =
      some ⟨1, b + w % 2 ^ 21⟩ := by
    rw [walk_eq_out (by rw [hslot]; simp [← hw, hdec]), hslot, ← hw, hdec]
    simp [Entry.out]
  have hb : b = outField 1 w := by
    simp only [desFormat, desDecode] at hdec
    split_ifs at hdec <;> simp_all
  have hmem := h _ (by rw [slot_succ, hslot, ← slot_succ]) _ hwalk rfl
  rw [entryBase_eq]
  convert hmem using 1
  rw [hb]
  unfold outField
  dsimp only
  omega

lemma createPageEntry_zero (info : MappingStruct) (s : MmState σ) :
    createPageEntry info s = (0, (createPageEntry info s).2) := rfl

/-- The page entries for a piece of 2MiB or less are stored to one page. -/
lemma createPageEntry_pte_confined {flags lo hi v phy sz : ℕ} {s s' : MmState σ}
    (hdes : flags &&& VM_DES_MASK = 0) (hpiece : Piece lo hi (2 ^ 21) v sz) (hv : 4096 ∣ v)
    (hsz : 4096 ∣ sz) (hphy : phy < 2 ^ 64) (ht : 4096 ∣ t)
    (h : createPageEntry ⟨t, v, phy, sz, .pte, flags⟩ s = (0, s')) :
    Confined {t} s.mem s'.mem ∧ s'.alloc = s.alloc ∧ s'.head = s.head := by
  have hwf : WF guestFormat s.mem 0 t := ⟨ht, fun i _ => Or.inr (Or.inr (Or.inr ⟨rfl, rfl⟩))⟩
  obtain ⟨hremap, hrest⟩ := createPageEntry_remap (l := .pte) (W := slot 1 v)
    (isDes_desFormat _ _) (Or.inl rfl) hdes hphy hv hsz hpiece.pos hpiece.same hwf h
  refine ⟨hremap.confined.mono ?_, hrest⟩
  rw [Set.union_empty]
  exact subset_rfl

/-- One round of the loop of a `PMD` table: its piece is mapped by pages, unless there is a block,
whose memory is stored to. -/
lemma pmd_round_over {flags lo hi phy v sz value : ℕ} {ret : ℤ} {s s₁ s₂ : MmState σ}
    (hdes : flags &&& VM_DES_MASK = 0) (hg : flags &&& VM_HOST = 0) (hlo : 4096 ∣ lo)
    (hhi : 4096 ∣ hi) (hphy : 4096 ∣ phy) (hal : ∀ p ∈ B, 4096 ∣ p)
    (hpiece : Piece lo hi (2 ^ 21) v sz) (hW : ∀ va ∈ Set.Ico v (v + sz), slot 2 va = W)
    (hwf : WF guestFormat s.mem 1 t) (hs : Supply A s.alloc)
    (hd : Disjoint (avail A s.alloc) (pages guestFormat s.mem 1 t))
    (hB : Disjoint B (pages guestFormat s.mem 1 t)) (hram : BlocksOver B s.mem t W)
    (hent : EnterTable A (restInfo t lo hi phy .pmd flags v) s value s₁)
    (hcall : createEntry A ⟨value, v, phyAt lo phy v, sz, .pte, flags⟩ s₁ = (ret, s₂)) :
    ret = 0 ∧
      MapsOver A B guestFormat 1 t W {va | va ∈ Set.Ico v (v + sz) ∧ NoBlockAt s.mem t va}
        (fun va => some ⟨0, (phy + (va - lo)) % 2 ^ 48⟩) s s₂ ∧
      (∀ i < 512, i ≠ slot 1 v % 512 → s₂.mem.word (t + 8 * i) = s.mem.word (t + 8 * i)) ∧
      s₂.alloc = s₁.alloc ∧ s₂.head = s₁.head := by
  have hF := isDes_desFormat false false
  have hv : v ∈ Set.Ico v (v + sz) := Set.mem_Ico.mpr ⟨le_rfl, by have := hpiece.pos; omega⟩
  have hentry := MappingStruct.entry_eq (restInfo t lo hi phy .pmd flags v)
  simp only [restInfo, Level.below] at hentry
  have hcall' : createEntry A ⟨value, v, phyAt lo phy v, sz, .pte, flags⟩ s₁ = (0, s₂) := by
    rw [createEntry, getMapType_pte hg, if_neg (by decide), createPageEntry_zero] at hcall ⊢
    rw [(Prod.mk.inj hcall).2]
  obtain rfl : ret = 0 := by rw [hcall'] at hcall; exact (Prod.mk.inj hcall).1.symm
  obtain ⟨hvdvd, hend⟩ := hpiece.page_bounds (by decide) hlo hhi
  have hpage : 4096 ∣ value →
      Confined {value} s₁.mem s₂.mem ∧ s₂.alloc = s₁.alloc ∧ s₂.head = s₁.head := by
    intro ht
    have hc := hcall'
    rw [createEntry, getMapType_pte hg, if_neg (by decide)] at hc
    exact createPageEntry_pte_confined hdes hpiece hvdvd ((Nat.dvd_add_right hvdvd).mp hend)
      (phyAt_lt _ _ _) ht hc
  refine ⟨rfl, ?_⟩
  by_cases hleaf : ∃ b, guestFormat.decode 1 (s.mem.word (entryAddr t (slot 1 v))) = .leaf b
  · -- the block entry is taken for a table
    obtain ⟨b, hdec⟩ := hleaf
    have hblock : ∀ va ∈ Set.Ico v (v + sz), ¬ NoBlockAt s.mem t va := by
      intro va hva hno
      have hsame : slot 1 va = slot 1 v := hpiece.same va hva
      obtain ⟨x, hx, hl⟩ := walk_lvl_eq_iff.2 ⟨b, by rw [hsame]; exact hdec⟩
      exact hno x hx hl
    cases hent with
    | new hval =>
      rw [restInfo, hentry] at hval
      rw [hval, guestFormat.decode_zero] at hdec
      simp at hdec
    | old hval =>
      rw [restInfo, hentry] at hpage
      have hmem := BlocksOver.entryBase_mem (by rw [hW v hv]; exact hram) hdec
      obtain ⟨hconf, halloc, hhead⟩ := hpage (hal _ hmem)
      have hc : Confined B s.mem s₂.mem := hconf.mono (Set.singleton_subset_iff.2 hmem)
      have hag := hc.agreeOn hal hwf.pages_aligned hB
      refine ⟨(MapsOver.of_confined _ hc hag hwf hs halloc).congr (fun va _ => ?_)
        (fun _ _ _ => rfl), fun i hi _ => hag t (self_mem_pages _ _ _) _ (by omega) (by omega),
        halloc, hhead⟩
      simp only [Set.mem_empty_iff_false, false_iff]
      exact fun h => hblock va h.1 h.2
  · have hno : ∀ va ∈ Set.Ico v (v + sz), NoBlockAt s.mem t va := by
      intro va hva x hx hl
      have hsame : slot 1 va = slot 1 v := hpiece.same va hva
      rw [← hsame] at hleaf
      exact hleaf (walk_lvl_eq_iff.1 ⟨x, hx, hl⟩)
    have hm := round_maps hF (l := .pmd) rfl hdes (createEntry_pte_maps hF hdes hg hlo hhi hphy)
      hpiece hW hwf hs hd (fun va hva => ⟨trivial, hno va hva⟩) hent hcall'
    have hnext : (restInfo t lo hi phy .pmd flags v).lvl.next = some .pte := rfl
    obtain ⟨hm₁, hdec⟩ := hent.maps hF hnext hdes (fun _ => none) W hwf hs hd (hno v hv)
    rw [restInfo, hentry] at hdec
    have hlt : slot 1 v % 512 < 512 := Nat.mod_lt _ (by norm_num)
    have halt := (hm₁.wf.child hlt hdec).aligned
    obtain ⟨hconf, halloc, hhead⟩ := hpage halt
    have hag : AgreeOn {t} s₁.mem s₂.mem := by
      refine hconf.agreeOn ?_ ?_ ?_
      · rintro p rfl
        exact halt
      · rintro p rfl
        exact hwf.aligned
      · rw [Set.disjoint_singleton_right]
        exact hm₁.wf.root_notMem hlt hdec
    refine ⟨(MapsOver.of_maps hm).congr (fun va _ => ⟨fun h => ⟨h, hno va h⟩, And.left⟩)
      (fun _ _ _ => rfl), fun i hi hne => ?_, halloc, hhead⟩
    rw [hag t rfl _ (by omega) (by omega)]
    exact (hent.frame (n := 0) rfl hwf hs hd i hi hne).1

/-- The loop of a `PMD` table, whatever it returns: it maps its range by pages up to the first
2MiB for which there is no page for a table, except where there are blocks. -/
lemma createTableEntry_pmd_run {flags lo hi phy : ℕ} (hdes : flags &&& VM_DES_MASK = 0)
    (hg : flags &&& VM_HOST = 0) (hlo : 4096 ∣ lo) (hhi : 4096 ∣ hi) (hphy : 4096 ∣ phy)
    (hal : ∀ p ∈ B, 4096 ∣ p) (hbound : hi + 2 ^ 21 ≤ 2 ^ 64) (k v : ℕ) (s s' : MmState σ)
    (ret : ℤ) (hk : hi - v = k) (hle : lo ≤ v) (hvhi : v ≤ hi)
    (hstart : v < hi → v = lo ∨ 2 ^ 21 ∣ v) (hW : ∀ va ∈ Set.Ico v hi, slot 2 va = W)
    (hwf : WF guestFormat s.mem 1 t) (hs : Supply A s.alloc)
    (hd : Disjoint (avail A s.alloc) (pages guestFormat s.mem 1 t))
    (hB : Disjoint B (pages guestFormat s.mem 1 t ∪ avail A s.alloc))
    (hram : BlocksOver B s.mem t W)
    (h : createTableEntry A (restInfo t lo hi phy .pmd flags v) s = (ret, s')) :
    ∃ f, v ≤ f ∧ f ≤ hi ∧
      MapsOver A B guestFormat 1 t W {va | va ∈ Set.Ico v f ∧ NoBlockAt s.mem t va}
        (fun va => some ⟨0, (phy + (va - lo)) % 2 ^ 48⟩) s s' ∧
      Reached A (pteNeeds s.mem t v hi) hi f ret s s' ∧ s.head <:+ s'.head := by
  induction k using Nat.strong_induction_on generalizing v s with
  | _ k ih =>
    have hnil : MapsOver A B guestFormat 1 t W {va | va ∈ Set.Ico v v ∧ NoBlockAt s.mem t va}
        (fun va => some ⟨0, (phy + (va - lo)) % 2 ^ 48⟩) s s :=
      (MapsOver.of_maps (Maps.of_remap (Remap.refl _ hwf) hs rfl)).congr (fun va _ => by simp)
        (fun _ _ _ => rfl)
    rcases Nat.eq_or_lt_of_le hvhi with rfl | hlt
    · rw [createTableEntry_done (Nat.sub_self v)] at h
      obtain ⟨rfl, rfl⟩ := Prod.mk.inj h
      refine ⟨v, le_rfl, le_rfl, hnil, Or.inl ⟨rfl, rfl, ?_⟩, List.suffix_rfl⟩
      rw [pteNeeds, cuts_self]
      exact Takes.refl _
    have hentry := MappingStruct.entry_eq (restInfo t lo hi phy .pmd flags v)
    simp only [restInfo, Level.below] at hentry
    rcases createTableEntry_cases (l := .pmd) rfl hbound hle hlt (hstart hlt) hs h with
      ⟨hval, hnone, rfl, rfl⟩ | ⟨sz, value, s₁, s₂, ret₂, hsz, hpiece, hent, hcall, hrest⟩
    · -- there is no page for the table of this piece
      rw [restInfo, hentry] at hval
      refine ⟨v, le_rfl, hvhi, hnil, Or.inr ⟨rfl, 0, ?_, Takes.refl _, hnone⟩, List.suffix_rfl⟩
      rw [pteNeeds_cons hlt, if_pos hval]
      rfl
    · have hpos := hpiece.pos
      have hend := hpiece.le_hi
      have hsub : ∀ va ∈ Set.Ico v (v + sz), va ∈ Set.Ico v hi := fun va hva => by
        simp only [Set.mem_Ico] at hva ⊢
        omega
      obtain ⟨rfl, hm, hwords, halloc, hhead⟩ := pmd_round_over hdes hg hlo hhi hphy hal hpiece
        (fun va hva => hW va (hsub va hva)) hwf hs hd (hB.mono_right Set.subset_union_left) hram
        hent hcall
      replace hrest := (hrest.resolve_right fun h => h.1 rfl).2
      -- the pieces behind this one are as they were
      have hbehind : ∀ va, v + sz ≤ va → va < hi → slot 1 va % 512 ≠ slot 1 v % 512 ∧
          slot 2 va = W := by
        intro va hva hva'
        have h₁ := hW va (Set.mem_Ico.mpr ⟨by omega, hva'⟩)
        have h₂ := hW v (Set.mem_Ico.mpr ⟨le_rfl, hlt⟩)
        have hdvd : 2 ^ 21 ∣ v + sz := hpiece.stop.resolve_left (by omega)
        refine ⟨?_, h₁⟩
        simp only [slot] at h₁ h₂ ⊢
        omega
      have hwalk : ∀ va, v + sz ≤ va → va < hi →
          walk guestFormat s₂.mem 1 t va = walk guestFormat s.mem 1 t va := by
        intro va hva hva'
        refine hm.walk_out va (hbehind va hva hva').2 fun hin => ?_
        have := Set.mem_Ico.mp hin.1
        omega
      have hneeds : pteNeeds s₂.mem t (v + sz) hi = pteNeeds s.mem t (v + sz) hi :=
        pteNeeds_congr fun va hva hva' =>
          hwords _ (Nat.mod_lt _ (by norm_num)) (hbehind va hva hva').1
      have hram₂ : BlocksOver B s₂.mem t W := by
        intro va hwin x hx hl
        by_cases hva : va ∈ {va | va ∈ Set.Ico v (v + sz) ∧ NoBlockAt s.mem t va}
        · rw [hm.walk_in va hwin hva] at hx
          obtain rfl := Option.some.inj hx
          exact absurd hl (by simp)
        · rw [hm.walk_out va hwin hva] at hx
          exact hram va hwin x hx hl
      obtain ⟨f, hvf, hfhi, hm', hreach, hhead'⟩ := ih (hi - (v + sz)) (by omega) (v + sz) s₂ rfl
        (by omega) hend (fun hlt' => Or.inr (hpiece.stop.resolve_left hlt'.ne))
        (fun va hva => hW va (by simp only [Set.mem_Ico] at hva ⊢; omega)) hm.wf hm.supply
        (hm.fresh hd) (hm.apart hB) hram₂ hrest
      refine ⟨f, by omega, hfhi, (hm.trans hm').congr (fun va _ => ?_) (fun _ _ _ => rfl), ?_, ?_⟩
      · have hno : v + sz ≤ va → va < f → (NoBlockAt s₂.mem t va ↔ NoBlockAt s.mem t va) :=
          fun hva hva' => by rw [NoBlockAt, NoBlockAt, hwalk va hva (by omega)]
        simp only [Set.mem_union, Set.mem_ofPred_eq, Set.mem_Ico]
        by_cases hva : va < v + sz
        · have h₁ : ¬ v + sz ≤ va := by omega
          have h₂ : va < f := by omega
          simp only [h₁, h₂, hva, false_and, or_false, and_true]
        · have h₁ : v + sz ≤ va := by omega
          have h₂ : v ≤ va := by omega
          by_cases hvf' : va < f
          · rw [hno h₁ hvf']
            simp only [hva, hvf', h₁, h₂, and_false, false_and, false_or, true_and]
          · simp only [hva, hvf', and_false, false_and, or_self]
      · have htake : Takes A (if s.mem.word (entryAddr t (slot 1 v)) = 0 then [v]
            else []).length s.alloc s₂.alloc := by
          have := hent.takes.1
          rw [restInfo, hentry] at this
          rw [halloc]
          split_ifs at this ⊢ <;> exact this
        rw [pteNeeds_cons hlt]
        rw [hneeds] at hreach
        rw [hsz] at hreach
        exact hreach.after htake
      · exact (hhead ▸ hent.takes.2).trans hhead'

/-! ### The loop of the root -/

/-- What `NoBlockUnder` asks of the table of the piece -/
lemma noBlockUnder_iff {m : Mem} {lo hi v sz va : ℕ} (hpiece : Piece lo hi (2 ^ 30) v sz)
    (hva : va ∈ Set.Ico v (v + sz)) :
    NoBlockUnder lo hi va (walk guestFormat m 1 t va) ↔
      (SIZE_2M ∣ v ∧ SIZE_2M ∣ sz) ∨ NoBlockAt m t va := by
  obtain ⟨h₁, h₂⟩ := hpiece.bounds hva
  rw [NoBlockUnder, BlockPiece, h₁, h₂, Nat.add_sub_cancel_left, ← or_iff_not_imp_left]
  rfl

/-- The call for a piece of 1GiB or less, whatever it returns. -/
lemma createEntry_pmd_run {flags lo hi phy v sz : ℕ} {ret : ℤ} {s s' : MmState σ}
    (hdes : flags &&& VM_DES_MASK = 0) (hg : flags &&& VM_HOST = 0) (hlo : 4096 ∣ lo)
    (hhi : 4096 ∣ hi) (hphy : 4096 ∣ phy) (hal : ∀ p ∈ B, 4096 ∣ p) (hbound : hi + 2 ^ 30 ≤ 2 ^ 64)
    (hpiece : Piece lo hi (2 ^ 30) v sz) (hwf : WF guestFormat s.mem 1 t) (hs : Supply A s.alloc)
    (hd : Disjoint (avail A s.alloc) (pages guestFormat s.mem 1 t))
    (hB : Disjoint B (pages guestFormat s.mem 1 t ∪ avail A s.alloc))
    (hram : BlocksOver B s.mem t (slot 2 v))
    (h : createEntry A ⟨t, v, phyAt lo phy v, sz, .pmd, flags⟩ s = (ret, s')) :
    ∃ f, v ≤ f ∧ f ≤ v + sz ∧
      MapsOver A B guestFormat 1 t (slot 2 v)
        {va | va ∈ Set.Ico v f ∧ NoBlockUnder lo hi va (walk guestFormat s.mem 1 t va)}
        (guestTarget lo hi phy) s s' ∧
      Reached A (if SIZE_2M ∣ v ∧ SIZE_2M ∣ sz then [] else pteNeeds s.mem t v (v + sz)) (v + sz) f
        ret s s' ∧ s.head <:+ s'.head := by
  obtain ⟨hv, hend⟩ := hpiece.page_bounds (by decide) hlo hhi
  have hle := hpiece.lo_le
  by_cases hb : SIZE_2M ∣ v ∧ SIZE_2M ∣ sz
  · have h' := h
    rw [createEntry, getMapType_pmd hg, if_pos hb, if_neg (by decide), createPageEntry_zero] at h'
    obtain ⟨rfl, hs'⟩ := Prod.mk.inj h'
    have hno : ∀ va ∈ Set.Ico v (v + sz),
        NoBlockUnder lo hi va (walk guestFormat s.mem 1 t va) :=
      fun va hva => (noBlockUnder_iff hpiece hva).2 (Or.inl hb)
    have hm := createEntry_pmd_maps (isDes_desFormat _ _) hdes hg hlo hhi hphy hbound v sz t s s'
      hpiece hwf hs hd hno h
    refine ⟨v + sz, Nat.le_add_right _ _, le_rfl, (MapsOver.of_maps hm).congr
      (fun va _ => ⟨fun hva => ⟨hva, hno va hva⟩, And.left⟩) (fun _ _ _ => rfl), ?_, ?_⟩
    · rw [if_pos hb]
      refine Or.inl ⟨rfl, rfl, ?_⟩
      rw [← hs', createPageEntry_alloc]
      exact Takes.refl _
    · rw [← hs']
      exact List.suffix_rfl
  · rw [createEntry, getMapType_pmd hg, if_neg hb, if_pos rfl] at h
    have hphyv : 4096 ∣ phyAt lo phy v := by
      unfold phyAt
      omega
    have h' : createTableEntry A (restInfo t v (v + sz) (phyAt lo phy v) .pmd flags v) s =
        (ret, s') := by
      rw [restInfo, phyAt_self (phyAt_lt _ _ _), Nat.add_sub_cancel_left]
      exact h
    obtain ⟨f, hvf, hf, hm, hreach, hhead⟩ := createTableEntry_pmd_run hdes hg hv hend hphyv hal
      (by have := hpiece.le_hi; omega) _ v s s' ret rfl le_rfl (Nat.le_add_right _ _)
      (fun _ => Or.inl rfl) hpiece.same hwf hs hd hB hram h'
    refine ⟨f, hvf, hf, hm.congr (fun va _ => ?_) (fun va hva _ => ?_), ?_, hhead⟩
    · refine and_congr_right fun hva => ?_
      have hva' : va ∈ Set.Ico v (v + sz) := by
        simp only [Set.mem_Ico] at hva ⊢
        omega
      rw [noBlockUnder_iff hpiece hva']
      exact (or_iff_right hb).symm
    · have hva' : va ∈ Set.Ico v (v + sz) := by
        have := Set.mem_Ico.mp hva.1
        exact Set.mem_Ico.mpr ⟨this.1, by omega⟩
      have hnb : ¬ BlockPiece lo hi va := by
        obtain ⟨h₁, h₂⟩ := hpiece.bounds hva'
        rwa [BlockPiece, h₁, h₂, Nat.add_sub_cancel_left]
      have := (Set.mem_Ico.mp hva').1
      rw [guestTarget, if_neg hnb]
      simp only [Option.some.injEq, Leaf.mk.injEq, true_and]
      unfold phyAt
      omega
    · rw [if_neg hb]
      exact hreach

/-- The missing tables of a piece, when the table below the root entry has been entered. -/
lemma EnterTable.pieceNeeds {root flags lo hi phy v e value : ℕ} {s s₁ : MmState σ}
    (h : EnterTable A (restInfo root lo hi phy .pud flags v) s value s₁)
    (hwf : WF F s.mem (n + 1) root) (hs : Supply A s.alloc)
    (hd : Disjoint (avail A s.alloc) (pages F s.mem (n + 1) root)) :
    pieceNeeds s.mem root v e =
      (if s.mem.word (entryAddr root (slot 2 v)) = 0 then [.pmd v] else []) ++
        (if SIZE_2M ∣ v ∧ SIZE_2M ∣ e - v then [] else pteNeeds s₁.mem value v e).map
          (.pte (s.mem.word (entryAddr root (slot 2 v)) = 0)) := by
  have hentry := MappingStruct.entry_eq (restInfo root lo hi phy .pud flags v)
  simp only [restInfo, Level.below] at hentry
  cases h with
  | new hval halloc =>
    rw [restInfo, hentry] at hval
    have hmem := mem_avail_of_alloc halloc
    have hzero : ∀ va, (((s.mem.zeroPage value).zeroPage value).store
        (restInfo root lo hi phy .pud flags v).entry
        (desWord (pageTableDescription (flags ||| VM_DES_TABLE)) value)).word
          (entryAddr value (slot 1 va)) = 0 := by
      intro va
      have hin := entryAddr_bounds value (slot 1 va)
      rw [Mem.store_word_ne _ _ ?_, Mem.zeroPage_word_in _ hin.1 hin.2]
      rw [restInfo, hentry]
      intro heq
      have hout := entryAddr_bounds root (slot 2 v)
      rw [← heq] at hout
      obtain rfl := page_eq_of_inPage (hs.aligned value hmem) hwf.aligned hin hout
      exact Set.disjoint_left.mp hd hmem (self_mem_pages _ _ _)
    have hall : pteNeeds (((s.mem.zeroPage value).zeroPage value).store
        (restInfo root lo hi phy .pud flags v).entry
        (desWord (pageTableDescription (flags ||| VM_DES_TABLE)) value)) value v e =
          cuts SIZE_2M v e := by
      rw [pteNeeds, List.filter_eq_self]
      intro va _
      rw [hzero va]
      decide
    rw [Mmu.pieceNeeds]
    simp only [hval, if_true, List.cons_append, List.nil_append, decide_true]
    congr 1
    rw [apply_ite (List.map (TableNeed.pte true)), List.map_nil]
    congr 2
    exact hall.symm
  | old hval =>
    rw [restInfo, hentry] at hval ⊢
    rw [Mmu.pieceNeeds]
    simp only [hval, if_false, List.nil_append, decide_false]
    rw [apply_ite (List.map (TableNeed.pte false)), List.map_nil]

/-- One round of the loop of the root, whatever the call for its piece returns. -/
lemma pud_round_over {root flags lo hi phy v sz value : ℕ} {ret : ℤ} {s s₁ s₂ : MmState σ}
    (hdes : flags &&& VM_DES_MASK = 0) (hg : flags &&& VM_HOST = 0) (hlo : 4096 ∣ lo)
    (hhi : 4096 ∣ hi) (hphy : 4096 ∣ phy) (hal : ∀ p ∈ B, 4096 ∣ p) (hbound : hi ≤ GUEST_SPACE)
    (hpiece : Piece lo hi (2 ^ 30) v sz) (hwf : WF guestFormat s.mem 2 root)
    (hs : Supply A s.alloc) (hd : Disjoint (avail A s.alloc) (pages guestFormat s.mem 2 root))
    (hB : Disjoint B (pages guestFormat s.mem 2 root ∪ avail A s.alloc))
    (hram : ∀ va, slot 2 va = slot 2 v → ∀ x, walk guestFormat s.mem 2 root va = some x →
      x.lvl = 1 → x.out / 4096 * 4096 ∈ B)
    (hent : EnterTable A (restInfo root lo hi phy .pud flags v) s value s₁)
    (hcall : createEntry A ⟨value, v, phyAt lo phy v, sz, .pmd, flags⟩ s₁ = (ret, s₂)) :
    ∃ f, v ≤ f ∧ f ≤ v + sz ∧
      MapsOver A B guestFormat 2 root 0
        {va | va ∈ Set.Ico v f ∧ NoBlockUnder lo hi va (walk guestFormat s.mem 2 root va)}
        (guestTarget lo hi phy) s s₂ ∧
      (∀ i < 512, i ≠ slot 2 v % 512 →
        s₂.mem.word (root + 8 * i) = s.mem.word (root + 8 * i) ∧
        ∀ t', guestFormat.decode 2 (s.mem.word (root + 8 * i)) = .table t' →
          AgreeOn (pages guestFormat s.mem 1 t') s.mem s₂.mem) ∧
      Reached A (if SIZE_2M ∣ v ∧ SIZE_2M ∣ sz then [] else pteNeeds s₁.mem value v (v + sz))
        (v + sz) f ret s₁ s₂ ∧ s₁.head <:+ s₂.head := by
  unfold GUEST_SPACE at hbound
  have hend := hpiece.le_hi
  have hpos := hpiece.pos
  have hentry := MappingStruct.entry_eq (restInfo root lo hi phy .pud flags v)
  simp only [restInfo, Level.below] at hentry
  have hnext : (restInfo root lo hi phy .pud flags v).lvl.next = some .pmd := rfl
  obtain ⟨hm₁, hdec⟩ := hent.maps (isDes_desFormat _ _) hnext hdes (guestTarget lo hi phy) 0 hwf hs
    hd (fun x hx => walk_guest_lvl_ne_two hwf hx)
  rw [restInfo, hentry] at hdec
  have hlt : slot 2 v % 512 < 512 := Nat.mod_lt _ (by norm_num)
  have hwin : ∀ va, slot 2 va = slot 2 v → slot 3 va = 0 := by
    intro va hva
    rw [slot_succ, hva, ← slot_succ]
    exact Nat.div_eq_of_lt (show v < 2 ^ 39 by omega)
  -- entering the table changes no translation
  have hwalk : ∀ va, slot 2 va = slot 2 v →
      walk guestFormat s₁.mem 1 value va = walk guestFormat s.mem 2 root va := by
    intro va hva
    rw [← walk_table (t := root) (by rw [hva]; exact hdec)]
    exact hm₁.walk_out va (hwin va hva) (Set.notMem_empty va)
  have hm₁B : MapsOver A B guestFormat 2 root 0 ∅ (guestTarget lo hi phy) s s₁ :=
    MapsOver.of_maps hm₁
  have hB₁ := hm₁B.apart hB
  have hchild := pages_child_subset hlt hdec
  obtain ⟨f, hvf, hf, hm₂, hreach, hhead⟩ := createEntry_pmd_run hdes hg hlo hhi hphy hal (by omega)
    hpiece (hm₁.wf.child hlt hdec) hm₁.supply ((hm₁.fresh hd).mono_right hchild)
    (hB₁.mono_right (Set.union_subset_union_left _ hchild))
    (fun va hva x hx hl => hram va hva x (by rw [← hwalk va hva]; exact hx) hl) hcall
  have hsame : ∀ va ∈ Set.Ico v f, slot 2 va = slot 2 v := fun va hva =>
    hpiece.same va (by simp only [Set.mem_Ico] at hva ⊢; omega)
  refine ⟨f, hvf, hf, ?_, ?_, hreach, hhead⟩
  · have hm₂' := hm₂.lift hm₁.wf hm₁.supply (hm₁.fresh hd) hal
      (hB₁.mono_right Set.subset_union_left) hdec (fun va hva => hsame va hva.1)
    rw [← slot_succ, hwin v rfl] at hm₂'
    refine (hm₁B.trans hm₂').congr (fun va _ => ?_) (fun _ _ _ => rfl)
    simp only [Set.empty_union, Set.mem_ofPred_eq]
    refine and_congr_right fun hva => ?_
    rw [hwalk va (hsame va hva)]
  · intro i hi hne
    have hchild_al : ∀ p ∈ avail A s₁.alloc ∪ B, 4096 ∣ p :=
      fun p hp => hp.elim (hm₁.supply.aligned p) (hal p)
    obtain ⟨hword, hag⟩ := Remap.frame_of_child hm₁.wf hdec hchild_al
      (Disjoint.union_left (hm₁.fresh hd) (hB₁.mono_right Set.subset_union_left)) hm₂.confined
    obtain ⟨hword₁, hag₁⟩ := hent.frame (n := 1) rfl hwf hs hd i hi hne
    refine ⟨(hword i hi).trans hword₁, fun t' ht' p hp a h₁ h₂ => ?_⟩
    have hag₂ : AgreeOn (pages guestFormat s₁.mem 1 t') s₁.mem s₂.mem :=
      (hag i hi hne t' (by rw [hword₁]; exact ht')).1
    rw [(congr_of_agreeOn (hag₁ t' ht')).2.1] at hag₂
    exact (hag₂ p hp a h₁ h₂).trans (hag₁ t' ht' p hp a h₁ h₂)

/-- The unwinding when there is no page for a table: only a `PMD` table that was made in the same
round is given back. It stays in the root entry and on `mm->head`. -/
def Unwound (A : PageOps σ) (need : TableNeed) (s s' : MmState σ) : Prop :=
  if need.inNew then ∃ p ∈ s.head, s' = { s with alloc := A.free s.alloc p } else s' = s

/-- How far a mapping came: to the end of the range, or to the first missing table for which there
was no page. -/
def Stopped (A : PageOps σ) (needs : List TableNeed) (hi f : ℕ) (ret : ℤ)
    (s s₂ s' : MmState σ) : Prop :=
  ret = 0 ∧ f = hi ∧ s' = s₂ ∧ Takes A needs.length s.alloc s₂.alloc ∨
    ret = -ENOMEM ∧ ∃ i need, needs[i]? = some need ∧ need.va = f ∧
      Takes A i s.alloc s₂.alloc ∧ A.allocPage s₂.alloc = none ∧ Unwound A need s₂ s'

lemma Stopped.after {pre rest : List TableNeed} {hi f : ℕ} {ret : ℤ} {s s₁ s₂ s' : MmState σ}
    (h₁ : Takes A pre.length s.alloc s₁.alloc) (h₂ : Stopped A rest hi f ret s₁ s₂ s') :
    Stopped A (pre ++ rest) hi f ret s s₂ s' := by
  rcases h₂ with ⟨hret, hf, hs', htake⟩ | ⟨hret, i, need, hi, hva, htake, hrest⟩
  · refine Or.inl ⟨hret, hf, hs', ?_⟩
    rw [List.length_append]
    exact h₁.trans htake
  · refine Or.inr ⟨hret, pre.length + i, need, ?_, hva, h₁.trans htake, hrest⟩
    rw [List.getElem?_append_right (by omega), Nat.add_sub_cancel_left]
    exact hi

/-- The tables behind the place where a loop stopped are not asked for. -/
lemma Stopped.append {pre rest : List TableNeed} {hi hi' f : ℕ} {ret : ℤ} {s s₂ s' : MmState σ}
    (h : Stopped A pre hi f ret s s₂ s') (hret : ret ≠ 0) :
    Stopped A (pre ++ rest) hi' f ret s s₂ s' := by
  rcases h with ⟨h0, -⟩ | ⟨hret', i, need, hi, hva, hrest⟩
  · exact absurd h0 hret
  · have hlt := (List.getElem?_eq_some_iff.mp hi).1
    exact Or.inr ⟨hret', i, need, by rwa [List.getElem?_append_left hlt], hva, hrest⟩

/-- A mapping, whatever it returns: it maps the range up to the first table for which there is no
page, except where it takes blocks for tables. -/
lemma createTableEntry_pud_run {root flags lo hi phy : ℕ} (hdes : flags &&& VM_DES_MASK = 0)
    (hg : flags &&& VM_HOST = 0) (hlo : 4096 ∣ lo) (hhi : 4096 ∣ hi) (hphy : 4096 ∣ phy)
    (hal : ∀ p ∈ B, 4096 ∣ p) (hbound : hi ≤ GUEST_SPACE) (k v : ℕ) (s s' : MmState σ)
    (ret : ℤ) (hk : hi - v = k) (hle : lo ≤ v) (hvhi : v ≤ hi)
    (hstart : v < hi → v = lo ∨ 2 ^ 30 ∣ v) (hwf : WF guestFormat s.mem 2 root)
    (hs : Supply A s.alloc) (hd : Disjoint (avail A s.alloc) (pages guestFormat s.mem 2 root))
    (hB : Disjoint B (pages guestFormat s.mem 2 root ∪ avail A s.alloc))
    (hram : v < hi → ∀ va < GUEST_SPACE, slot 2 v ≤ slot 2 va →
      ∀ x, walk guestFormat s.mem 2 root va = some x → x.lvl = 1 → x.out / 4096 * 4096 ∈ B)
    (h : createTableEntry A (restInfo root lo hi phy .pud flags v) s = (ret, s')) :
    ∃ f s₂, v ≤ f ∧ f ≤ hi ∧
      MapsOver A B guestFormat 2 root 0
        {va | va ∈ Set.Ico v f ∧ NoBlockUnder lo hi va (walk guestFormat s.mem 2 root va)}
        (guestTarget lo hi phy) s s₂ ∧
      Stopped A (tableNeeds s.mem root v hi) hi f ret s s₂ s' := by
  have hspace : GUEST_SPACE = 2 ^ 39 := by decide
  induction k using Nat.strong_induction_on generalizing v s with
  | _ k ih =>
    have hnil : MapsOver A B guestFormat 2 root 0
        {va | va ∈ Set.Ico v v ∧ NoBlockUnder lo hi va (walk guestFormat s.mem 2 root va)}
        (guestTarget lo hi phy) s s :=
      (MapsOver.of_maps (Maps.of_remap (Remap.refl _ hwf) hs rfl)).congr (fun va _ => by simp)
        (fun _ _ _ => rfl)
    rcases Nat.eq_or_lt_of_le hvhi with rfl | hlt
    · rw [createTableEntry_done (Nat.sub_self v)] at h
      obtain ⟨rfl, rfl⟩ := Prod.mk.inj h
      refine ⟨v, s, le_rfl, le_rfl, hnil, Or.inl ⟨rfl, rfl, rfl, ?_⟩⟩
      rw [tableNeeds, cuts_self]
      exact Takes.refl _
    have hentry := MappingStruct.entry_eq (restInfo root lo hi phy .pud flags v)
    simp only [restInfo, Level.below] at hentry
    rcases createTableEntry_cases (l := .pud) rfl (show hi + 2 ^ 30 ≤ 2 ^ 64 by omega) hle hlt
      (hstart hlt) hs h with
      ⟨hval, hnone, rfl, rfl⟩ | ⟨sz, value, s₁, s₂, ret₂, hsz, hpiece, hent, hcall, hrest⟩
    · -- there is no page for the `PMD` table of this piece
      rw [restInfo, hentry] at hval
      refine ⟨v, s', le_rfl, hvhi, hnil, Or.inr ⟨rfl, 0, .pmd v, ?_, rfl, Takes.refl _, hnone, rfl⟩⟩
      rw [tableNeeds_cons hlt, pieceNeeds, if_pos hval]
      rfl
    · have hpos := hpiece.pos
      have hend := hpiece.le_hi
      obtain ⟨f, hvf, hf, hm, hframe, hreach, hhead⟩ := pud_round_over hdes hg hlo hhi hphy hal
        hbound hpiece hwf hs hd hB (fun va hva x hx hl => hram hlt va (by
          have : va / 2 ^ 30 = v / 2 ^ 30 := hva
          omega) (le_of_eq hva.symm) x hx hl) hent hcall
      have hfirst := hent.pieceNeeds (n := 1) (e := v + sz) hwf hs hd
      rw [Nat.add_sub_cancel_left] at hfirst
      have htake₁ : Takes A (if s.mem.word (entryAddr root (slot 2 v)) = 0 then [TableNeed.pmd v]
          else []).length s.alloc s₁.alloc := by
        have := hent.takes.1
        rw [restInfo, hentry] at this
        split_ifs at this ⊢ <;> exact this
      have hcons : tableNeeds s.mem root v hi = pieceNeeds s.mem root v (v + sz) ++
          tableNeeds s.mem root (v + sz) hi := by
        rw [tableNeeds_cons hlt, show min (SIZE_1G - v % SIZE_1G) (hi - v) = sz from hsz.symm]
      rcases hrest with ⟨rfl, hrest⟩ | ⟨hret, rfl, hs'⟩
      · -- the pieces behind this one are as they were
        obtain ⟨rfl, htake₂⟩ : f = v + sz ∧ Takes A (if SIZE_2M ∣ v ∧ SIZE_2M ∣ sz then []
            else pteNeeds s₁.mem value v (v + sz)).length s₁.alloc s₂.alloc := by
          rcases hreach with ⟨-, hf', htake⟩ | ⟨hret, -⟩
          · exact ⟨hf', htake⟩
          · simp [ENOMEM] at hret
        have htake : Takes A (pieceNeeds s.mem root v (v + sz)).length s.alloc s₂.alloc := by
          rw [hfirst, List.length_append, List.length_map]
          exact htake₁.trans htake₂
        have hbehind : ∀ va < GUEST_SPACE, v + sz < hi → slot 2 (v + sz) ≤ slot 2 va →
            slot 2 va % 512 ≠ slot 2 v % 512 ∧ v + sz ≤ va := by
          intro va hva hlt' hslot
          have hdvd : 2 ^ 30 ∣ v + sz := hpiece.stop.resolve_left hlt'.ne
          simp only [slot] at hslot ⊢
          omega
        have hwalk : ∀ va < GUEST_SPACE, v + sz ≤ va →
            walk guestFormat s₂.mem 2 root va = walk guestFormat s.mem 2 root va := by
          intro va hva hva'
          refine hm.walk_out va (Nat.div_eq_of_lt (by rw [← hspace]; exact hva)) fun hin => ?_
          have := Set.mem_Ico.mp hin.1
          omega
        have hneeds : tableNeeds s₂.mem root (v + sz) hi = tableNeeds s.mem root (v + sz) hi := by
          refine tableNeeds_congr fun va e hva hva' => ?_
          obtain ⟨hne, -⟩ := hbehind va (by omega) (by omega) (Nat.div_le_div_right hva)
          have hlt512 : slot 2 va % 512 < 512 := Nat.mod_lt _ (by norm_num)
          obtain ⟨hword, hag⟩ := hframe _ hlt512 hne
          refine pieceNeeds_congr hword fun hval vb => ?_
          have hleg := hwf.legal _ hlt512
          have hdec : guestFormat.decode 2 (s.mem.word (root + 8 * (slot 2 va % 512))) =
              .table (entryBase (s.mem.word (entryAddr root (slot 2 va)))) := by
            have h3 : s.mem.word (root + 8 * (slot 2 va % 512)) % 4 = 3 := by
              rw [entryAddr] at hval
              simp only [desFormat, Bool.false_eq_true, and_false, or_false] at hleg
              omega
            simp [desFormat, desDecode, h3, entryBase_eq, entryAddr]
          have hb := entryAddr_bounds (entryBase (s.mem.word (entryAddr root (slot 2 va))))
            (slot 1 vb)
          exact hag _ hdec _ (self_mem_pages _ _ _) _ hb.1 hb.2
        obtain ⟨f', s₃, hvf', hf', hm', hstop⟩ := ih (hi - (v + sz)) (by omega) (v + sz) s₂ rfl
          (by omega) hend (fun hlt' => Or.inr (hpiece.stop.resolve_left hlt'.ne)) hm.wf hm.supply
          (hm.fresh hd) (hm.apart hB) (fun hlt' va hva hslot x hx hl => by
            obtain ⟨-, hle'⟩ := hbehind va hva hlt' hslot
            rw [hwalk va hva hle'] at hx
            refine hram hlt va hva (le_trans (Nat.div_le_div_right (by omega)) hslot) x hx hl) hrest
        refine ⟨f', s₃, by omega, hf', (hm.trans hm').congr (fun va hwin => ?_)
          (fun _ _ _ => rfl), ?_⟩
        · have hva' : va < GUEST_SPACE := by
            rw [hspace]
            exact (Nat.div_eq_zero_iff_lt (by decide)).mp hwin
          simp only [Set.mem_union, Set.mem_ofPred_eq, Set.mem_Ico]
          by_cases hva : va < v + sz
          · have h₁ : ¬ v + sz ≤ va := by omega
            have h₂ : va < f' := by omega
            simp only [h₁, h₂, hva, false_and, or_false, and_true]
          · have h₁ : v + sz ≤ va := by omega
            have h₂ : v ≤ va := by omega
            rw [hwalk va hva' h₁]
            simp only [hva, h₁, h₂, and_false, false_and, false_or, true_and]
        · rw [hcons]
          rw [hneeds] at hstop
          exact hstop.after htake
      · obtain ⟨hret', i, hget, htake₂, hnone⟩ := hreach.resolve_left fun h => hret h.1
        rw [restInfo, hentry] at hs'
        have hround : Stopped A
            (List.map (TableNeed.pte (s.mem.word (entryAddr root (slot 2 v)) = 0))
              (if SIZE_2M ∣ v ∧ SIZE_2M ∣ sz then [] else pteNeeds s₁.mem value v (v + sz)))
            (v + sz) f ret s₁ s₂ s' := by
          refine Or.inr ⟨hret', i, .pte _ f, by rw [List.getElem?_map, hget]; rfl, rfl, htake₂,
            hnone, ?_⟩
          simp only [Unwound, TableNeed.inNew, decide_eq_true_eq]
          split_ifs at hs' ⊢ with hval
          · refine ⟨value, hhead.subset ?_, hs'⟩
            exact hent.mem_head (by rw [restInfo, hentry]; exact hval)
          · exact hs'
        refine ⟨f, s₂, hvf, by omega, hm, ?_⟩
        rw [hcons, hfirst]
        exact (hround.after htake₁).append hret

/-- The same for a whole guest mapping. -/
lemma createMemMapping_guest_run {root vir phy size flags : ℕ} {s s' : MmState σ} {ret : ℤ}
    (hwf : WF guestFormat s.mem 2 root) (hs : Supply A s.alloc)
    (hfresh : Disjoint (avail A s.alloc) (pages guestFormat s.mem 2 root))
    (hal : ∀ p ∈ B, 4096 ∣ p) (hB : Disjoint B (pages guestFormat s.mem 2 root ∪ avail A s.alloc))
    (hram : ∀ va < GUEST_SPACE, ∀ x, walk guestFormat s.mem 2 root va = some x →
      x.out / 4096 * 4096 ∈ B)
    (hguest : flags &&& VM_HOST = 0) (hdes : flags &&& VM_DES_MASK = 0)
    (hvir : 4096 ∣ vir) (hphy : 4096 ∣ phy) (hsize : 4096 ∣ size) (hphy64 : phy < 2 ^ 64)
    (hend : vir + size ≤ GUEST_SPACE)
    (h : createMemMapping A root vir phy size flags s = (ret, s')) :
    ∃ f s₂, vir ≤ f ∧ f ≤ vir + size ∧
      MapsOver A B guestFormat 2 root 0
        {va | va ∈ Set.Ico vir f ∧
          NoBlockUnder vir (vir + size) va (walk guestFormat s.mem 2 root va)}
        (guestTarget vir (vir + size) phy) s s₂ ∧
      Stopped A (tableNeeds s.mem root vir (vir + size)) (vir + size) f ret s s₂ s' := by
  have hrun : createTableEntry A (restInfo root vir (vir + size) phy .pud flags vir) s =
      (ret, s') := by
    rw [createMemMapping, startLevel, hguest, if_neg (by simp)] at h
    rw [restInfo, phyAt_self hphy64, Nat.add_sub_cancel_left]
    exact h
  exact createTableEntry_pud_run hdes hguest hvir ((Nat.dvd_add_right hvir).mpr hsize) hphy hal
    hend _ vir s s' ret rfl le_rfl (Nat.le_add_right _ _) (fun _ => Or.inl rfl) hwf hs hfresh hB
    (fun _ va hva _ x hx _ => hram va hva x hx) hrun

end Minos.Mmu
