import Mathlib
import Minos.Lib.Pieces
import Minos.Mm.PageRuns
import Minos.Mm.Slab

/-!
# Allocations that fail

Both allocators take a new block of 2MiB first and see only then whether the request fits it, and
whether there is a place for its metadata. A block that was taken for nothing is not given back.
-/

namespace Minos.Mm

open Bitmap

/-! ### Requests -/

inductive AllocRequest where
  | malloc (size : ℕ)
  | zalloc (size : ℕ)
  /-- `__alloc_pages` -/
  | allocPages (pages : ℤ) (align : ℕ)
  /-- `__get_io_pages`, where the mapping of a new block takes `tables` pages -/
  | getIoPages (pages align tables : ℕ)
deriving DecidableEq, Repr

/-- What a caller gets -/
inductive Handle where
  | addr (a : ℕ)
  | page (p : PageRef)
deriving DecidableEq, Repr

/-- The mask `align - 1` has all its bits set if `align` is 0. -/
def ioAlign (align : ℕ) : ℕ := if align = 0 then 2 ^ 64 else align

/-- A request, with `none` for `NULL`. There is no result where `malloc` goes wrong. -/
def Heap.call (s : Heap) : AllocRequest → Option (Option Handle × Heap)
  | .malloc size => (s.malloc size).map fun r => (r.1.map .addr, r.2)
  | .zalloc size => (s.zalloc size).map fun r => (r.1.map .addr, r.2)
  | .allocPages pages align =>
    if pages ≤ 0 ∨ align = 0 then some (none, s)
    else
      let r := Mm.allocPages s.pages pages.toNat align
      some (r.1.map .page, { s with pages := r.2 })
  | .getIoPages pages align tables =>
    let r := allocPagesFromPool (tablePages tables) .io pages (ioAlign align) (GFB_PAGE ||| GFB_IO)
      s.pages
    some (r.1.map fun page => .addr (pageAddr (r.2.phyBase page)), { s with pages := r.2 })

/-! ### What a request may cost -/

/-- The free blocks of a block section, or the free pages of a page section -/
def Mem.sectionFree (mm : Mem) (i : ℕ) : ℕ := (mm.memSections[i]?.map MemSection.freeBlocks).getD 0

/-- The bytes of the free slabs and of the rest of the block that is cut -/
def Slab.bytes (slab : Slab) : ℕ :=
  slab.freeSize + ∑ id ∈ Finset.range POOL_NR,
    ((slab.pool id).map fun header => SLAB_HEADER_SIZE + header.size).sum

/-- No counter of free blocks, free pages or free bytes has changed. -/
structure CostsNothing (s s' : Heap) : Prop where
  freeBlocks : s'.pages.mm.freeBlocks = s.pages.mm.freeBlocks
  sections : ∀ i, s'.pages.mm.sectionFree i = s.pages.mm.sectionFree i
  slab : s'.slab.bytes = s.slab.bytes
  pages : ∀ b, s.pages.metaOf b ≠ none →
    (s'.pages.mm.block? b).map MemBlock.freePages = (s.pages.mm.block? b).map MemBlock.freePages

/-- The meta blocks of the pools are taken, and the block that the slab cuts has no pages. -/
structure Heap.Sound (s : Heap) : Prop where
  metas : ∀ p, ∀ mb ∈ (s.pages.pools p).metaList, Taken s.pages.mm mb
  rest : SLAB_MIN_SIZE ≤ s.slab.freeSize →
    ∀ b, addrToMemBlock s.pages.mm s.slab.slabFree = some b → s.pages.metaOf b = none

/-- A page section has room for the pages. -/
def SectionServes (s : PageMem) (count align : ℕ) : Prop :=
  ∃ ms ∈ s.mm.memSections, ms.kind = .page ∧ count ≤ ms.freeBlocks ∧
    findSectionPages ms count align < ms.nrBlocks

/-- The block has room for the pages. -/
def BlockServes (s : PageMem) (b : BlockRef) (count align : ℕ) : Prop :=
  ∃ block m, s.mm.block? b = some block ∧ s.metaOf b = some m ∧ count ≤ block.freePages ∧
    findPages (s.bitmaps m) block.bmCurrent count align < PAGES_IN_BLOCK

/-- A meta block of the pool has a free place, or there is a block for a new one. -/
def MetaLeft (s : PageMem) (p : PoolKind) : Prop :=
  (∃ mb ∈ (s.pools p).metaList, ∃ bit < PAGE_METAS_IN_BLOCK, s.metaBitmaps mb bit = false) ∨
    (allocMemBlock s.mm GPF_PAGE_META).isSome

/-- A block of the pool has room for the pages, or no block is free, or the pages fit a new block
and there is a place for its metadata once the block is taken and mapped. -/
def PoolAffords (mapped : PageMem → PageMem) (s : PageMem) (p : PoolKind)
    (count align flags : ℕ) : Prop :=
  (∃ b ∈ (s.pools p).blockList, BlockServes s b count align) ∨
    ∀ b s', allocBlock s flags = some (b, s') → count ≤ PAGES_IN_BLOCK ∧ MetaLeft (mapped s') p

/-- A pool from that of the size on up to the pool of freed slabs has a slab, or gets the rest of
the block that is cut. -/
def PoolServes (slab : Slab) (size : ℕ) : Prop :=
  ∃ id : ℕ, slabPoolId size ≤ id ∧ id ≤ FREE_POOL ∧
    (slab.pool id ≠ [] ∨ SLAB_MIN_SIZE ≤ slab.freeSize ∧ Heap.restPool slab.freeSize = some id)

/-- The request fits a block, or the pools have a slab for it, or no new block is taken. -/
def SlabAffords (s : Heap) (size : ℕ) : Prop :=
  slabSize size ≤ MEM_BLOCK_SIZE ∨ slabSize size ≤ s.slab.freeSize ∨
    (∃ header ∈ s.slab.pool CACHE_POOL, size ≤ header.size) ∨ PoolServes s.slab size ∨
    CONFIG_MAX_SLAB_BLOCKS < s.slab.allocBlocks ∨ allocMemBlock s.pages.mm GFB_SLAB = none

/-- When a request that fails costs nothing, or does not fail -/
def Heap.Affords (s : Heap) : AllocRequest → Prop
  | .malloc size | .zalloc size => size = 0 ∨ SlabAffords s (balign size SLAB_MIN_DATA_SIZE)
  | .allocPages pages align => pages ≤ 0 ∨ align = 0 ∨
      align ≤ 1 ∧ SectionServes s.pages pages.toNat align ∨
      PoolAffords id s.pages .page pages.toNat align GFB_PAGE
  | .getIoPages pages align tables =>
      PoolAffords (tablePages tables) s.pages .io pages (ioAlign align) (GFB_PAGE ||| GFB_IO)

/-! ### The strategies of `malloc` -/

section Strategies

variable {s s' : Heap} {size : ℕ} {ret : Option ℕ}

lemma slabPoolId_le (size : ℕ) : slabPoolId size ≤ FREE_POOL := by
  unfold slabPoolId
  generalize (sub64 (size >>> 4) 1 : ℤ).bmod (2 ^ 32) = id
  dsimp only
  split_ifs <;> omega

lemma getSlabFromPool_cases (h : s.getSlabFromPool size = some (ret, s')) :
    ret = none ∧ s' = s ∨ ret ≠ none ∧ PoolServes s.slab size := by
  rw [Heap.getSlabFromPool] at h
  split_ifs at h with hbig hneg
  · obtain ⟨rfl, rfl⟩ := Prod.mk.inj (Option.some.inj h)
    exact .inl ⟨rfl, rfl⟩
  · split at h
    · obtain ⟨rfl, rfl⟩ := Prod.mk.inj (Option.some.inj h)
      exact .inl ⟨rfl, rfl⟩
    · rename_i header rest hpool
      obtain ⟨rfl, -⟩ := Prod.mk.inj (Option.some.inj h)
      refine .inr ⟨Option.some_ne_none _, (slabPoolId size).toNat, ?_, ?_, .inl (by simp [hpool])⟩
      all_goals omega

lemma getSlabFromBigPool_cases (h : s.getSlabFromBigPool size = some (ret, s')) :
    ret = none ∧ s' = s ∨ ret ≠ none ∧ PoolServes s.slab size := by
  rw [Heap.getSlabFromBigPool] at h
  split_ifs at h with hsmall
  · obtain ⟨rfl, rfl⟩ := Prod.mk.inj (Option.some.inj h)
    exact .inl ⟨rfl, rfl⟩
  · split at h
    · obtain ⟨rfl, rfl⟩ := Prod.mk.inj (Option.some.inj h)
      exact .inl ⟨rfl, rfl⟩
    · rename_i header hfind
      obtain ⟨rfl, -⟩ := Prod.mk.inj (Option.some.inj h)
      refine .inr ⟨Option.some_ne_none _, FREE_POOL, slabPoolId_le size, le_rfl, .inl ?_⟩
      exact List.ne_nil_of_mem (List.mem_of_find?_eq_some hfind)

lemma cutCache_eq_none_iff {l : List SlabHeader} :
    Heap.cutCache size l = none ↔ ∀ header ∈ l, header.size < size := by
  induction l with
  | nil => simp [Heap.cutCache]
  | cons header rest ih =>
    rw [Heap.cutCache, List.forall_mem_cons]
    by_cases hlt : header.size < size
    · rw [if_pos hlt, Option.map_eq_none_iff, ih, and_iff_right hlt]
    · rw [if_neg hlt]
      dsimp only
      split_ifs <;> simp [hlt]

lemma getSlabFromCache_cases (h : s.getSlabFromCache size = some (ret, s')) :
    ret = none ∧ s' = s ∧ (∀ header ∈ s.slab.pool CACHE_POOL, header.size < size) ∨
      ret ≠ none ∧ ∃ header ∈ s.slab.pool CACHE_POOL, size ≤ header.size := by
  rw [Heap.getSlabFromCache] at h
  split at h
  · rename_i hcut
    obtain ⟨rfl, rfl⟩ := Prod.mk.inj (Option.some.inj h)
    exact .inl ⟨rfl, rfl, cutCache_eq_none_iff.1 hcut⟩
  · rename_i r hcut
    obtain ⟨rfl, -⟩ := Prod.mk.inj (Option.some.inj h)
    refine .inr ⟨Option.some_ne_none _, ?_⟩
    by_contra hnone
    push Not at hnone
    rw [cutCache_eq_none_iff.2 hnone] at hcut
    cases hcut

lemma getSlabFromSlabFree_cases (h : s.getSlabFromSlabFree size = some (ret, s')) :
    ret = none ∧ s' = s ∧ s.slab.freeSize < slabSize size ∨
      ret ≠ none ∧ slabSize size ≤ s.slab.freeSize := by
  rw [Heap.getSlabFromSlabFree] at h
  dsimp only at h
  by_cases hlt : s.slab.freeSize < slabSize size
  · rw [if_pos hlt] at h
    obtain ⟨rfl, rfl⟩ := Prod.mk.inj (Option.some.inj h)
    exact .inl ⟨rfl, rfl, hlt⟩
  · rw [if_neg hlt] at h
    obtain ⟨block, -, heq⟩ := Option.bind_eq_some_iff.1 h
    obtain ⟨rfl, -⟩ := Prod.mk.inj (Option.some.inj heq)
    exact .inr ⟨Option.some_ne_none _, not_lt.1 hlt⟩

lemma findPool_eq_none_iff {pool : ℕ → List SlabHeader} {n id : ℕ} :
    Heap.findPool pool n id = none ↔ ∀ i, id ≤ i → i < id + n → pool i = [] := by
  induction n generalizing id with
  | zero =>
    refine iff_of_true rfl fun i hlo hhi => ?_
    omega
  | succ n ih =>
    rw [Heap.findPool]
    cases hpool : pool id with
    | nil =>
      dsimp only
      rw [ih]
      refine ⟨fun h i hlo hhi => ?_, fun h i hlo hhi => h i (by omega) (by omega)⟩
      rcases Nat.eq_or_lt_of_le hlo with rfl | hlt
      · exact hpool
      · exact h i hlt (by omega)
    | cons header rest =>
      refine iff_of_false (by simp) fun h => ?_
      rw [h id le_rfl (by omega)] at hpool
      cases hpool

lemma getBigSlab_cases (h : s.getBigSlab size = some (ret, s')) :
    ret = none ∧ s' = s ∧ (∀ id : ℕ, slabPoolId size ≤ id → id ≤ FREE_POOL →
        s.slab.pool id = []) ∨
      ret ≠ none ∧ ∃ id : ℕ, slabPoolId size ≤ id ∧ id ≤ FREE_POOL ∧ s.slab.pool id ≠ [] := by
  have hle := slabPoolId_le size
  have hlast : CACHE_POOL = FREE_POOL + 1 := rfl
  rw [Heap.getBigSlab] at h
  split_ifs at h with hneg
  split at h
  · rename_i hfind
    obtain ⟨rfl, rfl⟩ := Prod.mk.inj (Option.some.inj h)
    exact .inl ⟨rfl, rfl, fun id hlo hhi => findPool_eq_none_iff.1 hfind id (by omega) (by omega)⟩
  · rename_i hfind
    obtain ⟨rfl, -⟩ := Prod.mk.inj (Option.some.inj h)
    refine .inr ⟨Option.some_ne_none _, ?_⟩
    by_contra hnone
    push Not at hnone
    rw [findPool_eq_none_iff.2 fun i hlo hhi => hnone i (by omega) (by omega)] at hfind
    cases hfind

end Strategies

/-! ### Blocks for the slab -/

section NewSlab

variable {s s' : Heap} {mm mm' : Mem} {size flags : ℕ} {ret : Option ℕ} {b : BlockRef}

/-- What an allocation of a block reads of a section -/
def MemSection.supply (ms : MemSection) : SectionKind × ℕ × ℕ × Bitmap × ℕ :=
  (ms.kind, ms.freeBlocks, ms.nrBlocks, ms.bitmap, ms.bmCurrent)

lemma allocMemBlockIn_congr {ms ms' : MemSection} (h : ms.supply = ms'.supply) :
    allocMemBlockIn ms flags = none ↔ allocMemBlockIn ms' flags = none := by
  simp only [MemSection.supply, Prod.mk.injEq] at h
  obtain ⟨-, hfree, hnr, hbitmap, hcur⟩ := h
  rw [allocMemBlockIn, allocMemBlockIn, hfree, hnr, hbitmap, hcur]
  dsimp only
  split_ifs <;> simp

lemma allocMemBlockFrom_eq_none_iff {i : ℕ} {l : List MemSection} :
    allocMemBlockFrom flags i l = none ↔
      ∀ ms ∈ l, ms.kind = .block → allocMemBlockIn ms flags = none := by
  induction l generalizing i with
  | nil => simp [allocMemBlockFrom]
  | cons ms rest ih =>
    rw [allocMemBlockFrom, List.forall_mem_cons, ← ih (i := i + 1)]
    by_cases hkind : ms.kind = .block
    · rw [if_pos hkind]
      cases halloc : allocMemBlockIn ms flags with
      | none => simp [hkind]
      | some r => simp [hkind]
    · simp [hkind]

lemma allocMemBlock_congr
    (h : mm'.memSections.map MemSection.supply = mm.memSections.map MemSection.supply) :
    allocMemBlock mm' flags = none ↔ allocMemBlock mm flags = none := by
  simp only [allocMemBlock, Option.map_eq_none_iff, allocMemBlockFrom_eq_none_iff]
  have hmem : ∀ mm mm' : Mem,
      mm'.memSections.map MemSection.supply = mm.memSections.map MemSection.supply →
      ∀ ms' ∈ mm'.memSections, ∃ ms ∈ mm.memSections, ms.supply = ms'.supply := by
    intro mm mm' h ms' hms'
    have := List.mem_map_of_mem (f := MemSection.supply) hms'
    rw [h] at this
    exact List.mem_map.1 this
  constructor
  · intro hall ms hms hkind
    obtain ⟨ms', hms', heq⟩ := hmem mm' mm h.symm ms hms
    refine (allocMemBlockIn_congr heq).1 (hall ms' hms' ?_)
    exact (congrArg Prod.fst heq).trans hkind
  · intro hall ms hms hkind
    obtain ⟨ms', hms', heq⟩ := hmem mm mm' h ms hms
    refine (allocMemBlockIn_congr heq).1 (hall ms' hms' ?_)
    exact (congrArg Prod.fst heq).trans hkind

lemma Mem.setBlock_supply (mm : Mem) (b : BlockRef) (f : MemBlock → MemBlock) :
    (mm.setBlock b f).memSections.map MemSection.supply =
      mm.memSections.map MemSection.supply := by
  refine List.ext_getElem? fun j => ?_
  rw [List.getElem?_map, List.getElem?_map, Mem.setBlock, Mem.setSection_get]
  split_ifs
  · rw [Option.map_map]
    rfl
  · rfl

lemma Mem.setBlock_sectionFree (mm : Mem) (b : BlockRef) (f : MemBlock → MemBlock) (i : ℕ) :
    (mm.setBlock b f).sectionFree i = mm.sectionFree i := by
  rw [Mem.sectionFree, Mem.sectionFree, Mem.setBlock, Mem.setSection_get]
  split_ifs
  · rw [Option.map_map]
    rfl
  · rfl

/-- A section has a free block less, and no section has more than before. -/
lemma allocMemBlock_sectionFree (h : allocMemBlock mm flags = some (b, mm')) :
    mm'.sectionFree b.sec < mm.sectionFree b.sec ∧ ∀ i, mm'.sectionFree i ≤ mm.sectionFree i := by
  simp only [allocMemBlock, Option.map_eq_some_iff, Prod.mk.injEq] at h
  obtain ⟨⟨b', l'⟩, hfrom, rfl, rfl⟩ := h
  obtain ⟨pre, ms, ms', post, hl, hl', -, hsec, hin⟩ := allocMemBlockFrom_cases hfrom
  obtain ⟨hfree, -, -, rfl⟩ := allocMemBlockIn_cases hin
  rw [Nat.zero_add] at hsec
  dsimp only at hl' hsec ⊢
  have hother : ∀ i, i ≠ pre.length → l'[i]? = mm.memSections[i]? := by
    intro i hi
    rw [hl', hl]
    rcases Nat.lt_or_ge i pre.length with hlt | hge
    · rw [List.getElem?_append_left hlt, List.getElem?_append_left hlt]
    · obtain ⟨k, hk⟩ : ∃ k, i - pre.length = k + 1 := ⟨i - pre.length - 1, by omega⟩
      rw [List.getElem?_append_right hge, List.getElem?_append_right hge, hk,
        List.getElem?_cons_succ, List.getElem?_cons_succ]
  have hlt : Mem.sectionFree { mm with memSections := l', freeBlocks := mm.freeBlocks - 1 }
      pre.length < mm.sectionFree pre.length := by
    simp only [Mem.sectionFree, hl', hl, List.getElem?_append_right le_rfl, Nat.sub_self,
      List.getElem?_cons_zero, Option.map_some, Option.getD_some, takeBlock]
    omega
  refine ⟨hsec ▸ hlt, fun i => ?_⟩
  by_cases hi : i = pre.length
  · rw [hi]
    exact hlt.le
  · rw [Mem.sectionFree, Mem.sectionFree, hother i hi]

lemma Slab.add_bytes (slab : Slab) {id : ℕ} (header : SlabHeader) (hid : id < POOL_NR) :
    (slab.add id header).bytes = slab.bytes + (SLAB_HEADER_SIZE + header.size) := by
  have h := Pieces.sum_update (Finset.mem_range.2 hid) slab.pool
    (fun l => (l.map fun header => SLAB_HEADER_SIZE + header.size).sum) (header :: slab.pool id)
  simp only [List.map_cons, List.sum_cons] at h
  simp only [Slab.bytes, Slab.add]
  omega

lemma restPool_lt {freeSize id : ℕ} (h : Heap.restPool freeSize = some id) : id < POOL_NR := by
  have hfree : FREE_POOL < POOL_NR := by decide
  rw [Heap.restPool] at h
  split_ifs at h
  · obtain rfl := Option.some.inj h
    decide
  · obtain rfl := Option.some.inj h
    omega

/-- The rest of the block goes to a pool, and its bytes are those of the new slab. -/
lemma giveRest_spec (h : s.giveRest = some s') :
    (∃ (b : Option BlockRef), (∀ b', b = some b' → SLAB_MIN_SIZE ≤ s.slab.freeSize ∧
        addrToMemBlock s.pages.mm s.slab.slabFree = some b') ∧
      s'.pages = b.elim s.pages fun b' => (s.countSlab b').pages) ∧
    s'.slab.bytes = s.slab.bytes ∧ s'.slab.allocBlocks = s.slab.allocBlocks ∧
    ∀ id, s'.slab.pool id ≠ [] ↔ s.slab.pool id ≠ [] ∨
      SLAB_MIN_SIZE ≤ s.slab.freeSize ∧ Heap.restPool s.slab.freeSize = some id := by
  have hmin : slabSize SLAB_MIN_DATA_SIZE = SLAB_MIN_SIZE := by decide +kernel
  rw [Heap.giveRest, hmin] at h
  by_cases hrest : SLAB_MIN_SIZE ≤ s.slab.freeSize
  · rw [if_pos hrest] at h
    obtain ⟨id, hid, h⟩ := Option.bind_eq_some_iff.1 h
    obtain ⟨block, hblock, h⟩ := Option.bind_eq_some_iff.1 h
    obtain rfl := Option.some.inj h
    refine ⟨⟨some block, fun b' hb' => ?_, rfl⟩, ?_, rfl, fun i => ?_⟩
    · obtain rfl := Option.some.inj hb'
      exact ⟨hrest, hblock⟩
    · have hheader : SLAB_HEADER_SIZE ≤ SLAB_MIN_SIZE := by decide
      have hadd := s.slab.add_bytes
        ⟨s.slab.slabFree, s.slab.freeSize - SLAB_HEADER_SIZE⟩ (restPool_lt hid)
      simp only [Slab.bytes, Slab.add, Heap.countSlab, Heap.setBlock] at hadd ⊢
      omega
    · simp only [Slab.add, Heap.countSlab, Heap.setBlock]
      by_cases hi : i = id
      · subst hi
        simp [hrest, hid]
      · rw [Function.update_of_ne hi, hid, Option.some.injEq]
        exact ⟨.inl, fun h => h.resolve_right fun hr => hi hr.2.symm⟩
  · rw [if_neg hrest] at h
    obtain rfl := Option.some.inj h
    exact ⟨⟨none, nofun, rfl⟩, rfl, rfl, fun id => by simp [hrest]⟩

lemma CostsNothing.refl (s : Heap) : CostsNothing s s := ⟨rfl, fun _ => rfl, rfl, fun _ _ => rfl⟩

lemma giveRest_costsNothing (hs : s.Sound) (h : s.giveRest = some s') : CostsNothing s s' := by
  obtain ⟨⟨b, hb, hpages⟩, hbytes, -, -⟩ := giveRest_spec h
  cases b with
  | none =>
    rw [Option.elim_none] at hpages
    refine ⟨by rw [hpages], fun _ => by rw [hpages], hbytes, fun _ _ => by rw [hpages]⟩
  | some b =>
    rw [Option.elim_some] at hpages
    obtain ⟨hrest, hblock⟩ := hb b rfl
    refine ⟨by rw [hpages]; rfl, fun i => ?_, hbytes, fun d hd => ?_⟩
    · rw [hpages]
      exact Mem.setBlock_sectionFree ..
    · have hne : b ≠ d := fun hbd => hd (hbd ▸ hs.rest hrest b hblock)
      rw [hpages]
      simp only [Heap.countSlab, Heap.setBlock]
      rw [Mem.setBlock_block?, if_neg hne]

/-- A block is taken, and the request does not fit it. -/
def TakesForNothing (s : Heap) (size : ℕ) (s' : Heap) : Prop :=
  MEM_BLOCK_SIZE < slabSize size ∧ s.slab.allocBlocks ≤ CONFIG_MAX_SLAB_BLOCKS ∧
    allocMemBlock s.pages.mm GFB_SLAB ≠ none ∧
    ∃ i, s'.pages.mm.sectionFree i < s.pages.mm.sectionFree i

lemma allocNewSlabBlock_cases (s : Heap) :
    s.allocNewSlabBlock = none ∧ allocMemBlock s.pages.mm GFB_SLAB = none ∨
      ∃ s', s.allocNewSlabBlock = some s' ∧ allocMemBlock s.pages.mm GFB_SLAB ≠ none ∧
        s'.slab.freeSize = MEM_BLOCK_SIZE ∧ s'.slab.pool = s.slab.pool ∧
        ∃ i, s'.pages.mm.sectionFree i < s.pages.mm.sectionFree i := by
  rw [Heap.allocNewSlabBlock, allocBlock, Option.map_map]
  cases halloc : allocMemBlock s.pages.mm GFB_SLAB with
  | none => exact .inl ⟨rfl, rfl⟩
  | some r =>
    refine .inr ⟨_, rfl, Option.some_ne_none _, rfl, rfl, r.1.sec, ?_⟩
    have hlt := (allocMemBlock_sectionFree halloc).1
    exact (Mem.setBlock_sectionFree ..).trans_lt hlt

lemma getNewSlab_cases (hs : s.Sound) (h : s.getNewSlab size = some (ret, s')) :
    ret = none ∧ CostsNothing s s' ∧ (CONFIG_MAX_SLAB_BLOCKS < s.slab.allocBlocks ∨
        allocMemBlock s.pages.mm GFB_SLAB = none) ∨
      ret = none ∧ TakesForNothing s size s' ∧ (∀ id, s'.slab.pool id ≠ [] ↔
        s.slab.pool id ≠ [] ∨
          SLAB_MIN_SIZE ≤ s.slab.freeSize ∧ Heap.restPool s.slab.freeSize = some id) ∨
      ret ≠ none ∧ slabSize size ≤ MEM_BLOCK_SIZE := by
  rw [Heap.getNewSlab] at h
  split_ifs at h with hmax
  · obtain ⟨rfl, rfl⟩ := Prod.mk.inj (Option.some.inj h)
    exact .inl ⟨rfl, .refl _, .inl hmax⟩
  obtain ⟨s₁, hgive, h⟩ := Option.bind_eq_some_iff.1 h
  have hcosts := giveRest_costsNothing hs hgive
  obtain ⟨⟨b, hb, hpages⟩, -, -, hpool⟩ := giveRest_spec hgive
  have hsupply : allocMemBlock s₁.pages.mm GFB_SLAB = none ↔
      allocMemBlock s.pages.mm GFB_SLAB = none := by
    rw [hpages]
    cases b with
    | none => rfl
    | some b => exact allocMemBlock_congr (Mem.setBlock_supply ..)
  rcases allocNewSlabBlock_cases s₁ with ⟨hnone, hno⟩ | ⟨s₂, hsome, hyes, hsize, hpools, i, hlt⟩
  · rw [hnone] at h
    obtain ⟨rfl, rfl⟩ := Prod.mk.inj (Option.some.inj h)
    exact .inl ⟨rfl, hcosts, .inr (hsupply.1 hno)⟩
  · rw [hsome] at h
    rcases getSlabFromSlabFree_cases h with ⟨rfl, rfl, hfew⟩ | ⟨hret, hfits⟩
    · rw [hsize] at hfew
      refine .inr (.inl ⟨rfl, ⟨hfew, not_lt.1 hmax, fun hno => hyes (hsupply.2 hno), i, ?_⟩, ?_⟩)
      · rwa [hcosts.sections] at hlt
      · rw [hpools]
        exact hpool
    · rw [hsize] at hfits
      exact .inr (.inr ⟨hret, hfits⟩)

lemma firstSlab_cons {func : ℕ → Heap → Option (Option ℕ × Heap)}
    {rest : List (ℕ → Heap → Option (Option ℕ × Heap))}
    (h : Heap.firstSlab size (func :: rest) s = some (ret, s')) :
    ∃ ret₁ s₁, func size s = some (ret₁, s₁) ∧
      (ret₁ ≠ none → ret = ret₁ ∧ s' = s₁) ∧
      (ret₁ = none → Heap.firstSlab size rest s₁ = some (ret, s')) := by
  rw [Heap.firstSlab] at h
  obtain ⟨⟨ret₁, s₁⟩, hfunc, h⟩ := Option.bind_eq_some_iff.1 h
  refine ⟨ret₁, s₁, hfunc, fun hret => ?_, fun hret => ?_⟩
  · obtain ⟨addr, rfl⟩ := Option.ne_none_iff_exists'.1 hret
    obtain ⟨rfl, rfl⟩ := Prod.mk.inj (Option.some.inj h)
    exact ⟨rfl, rfl⟩
  · rw [hret] at h
    exact h

/-- The strategies one after the other: a request that fails costs nothing, or takes a block. -/
lemma firstSlab_cases (hs : s.Sound)
    (h : Heap.firstSlab size Heap.allocFunc s = some (ret, s')) :
    SlabAffords s size ∧ (ret = none → CostsNothing s s') ∨
      ¬ SlabAffords s size ∧ ret = none ∧
        ∃ i, s'.pages.mm.sectionFree i < s.pages.mm.sectionFree i := by
  have hserved : ∀ {r : Option ℕ} {t : Heap}, r ≠ none → (r ≠ none → ret = r ∧ s' = t) →
      SlabAffords s size →
      SlabAffords s size ∧ (ret = none → CostsNothing s s') := fun hr hout hok =>
    ⟨hok, fun hnone => absurd ((hout hr).1.symm.trans hnone) hr⟩
  obtain ⟨r₁, s₁, hf, hout, h₁⟩ := firstSlab_cons h
  rcases getSlabFromPool_cases hf with ⟨hnone, rfl⟩ | ⟨hr, hpool⟩
  swap
  · exact .inl (hserved hr hout (.inr (.inr (.inr (.inl hpool)))))
  obtain ⟨r₂, s₂, hf, hout, h₂⟩ := firstSlab_cons (h₁ hnone)
  rcases getSlabFromBigPool_cases hf with ⟨hnone, rfl⟩ | ⟨hr, hpool⟩
  swap
  · exact .inl (hserved hr hout (.inr (.inr (.inr (.inl hpool)))))
  obtain ⟨r₃, s₃, hf, hout, h₃⟩ := firstSlab_cons (h₂ hnone)
  rcases getSlabFromCache_cases hf with ⟨hnone, rfl, hcache⟩ | ⟨hr, hcache⟩
  swap
  · exact .inl (hserved hr hout (.inr (.inr (.inl hcache))))
  obtain ⟨r₄, s₄, hf, hout, h₄⟩ := firstSlab_cons (h₃ hnone)
  rcases getSlabFromSlabFree_cases hf with ⟨hnone, rfl, hfew⟩ | ⟨hr, hfits⟩
  swap
  · exact .inl (hserved hr hout (.inr (.inl hfits)))
  obtain ⟨r₅, s₅, hf, hout, h₅⟩ := firstSlab_cons (h₄ hnone)
  rcases getNewSlab_cases hs hf with ⟨hnone, hcosts, hno⟩ | ⟨hnone, htakes, hpools⟩ | ⟨hr, hfits⟩
  · -- no block is taken
    have hok : SlabAffords s₄ size := .inr (.inr (.inr (.inr hno)))
    obtain ⟨r₆, s₆, hf, hout, h₆⟩ := firstSlab_cons (h₅ hnone)
    rcases getBigSlab_cases hf with ⟨hnone, rfl, -⟩ | ⟨hr, -⟩
    · obtain ⟨-, rfl⟩ := Prod.mk.inj (Option.some.inj (h₆ hnone))
      exact .inl ⟨hok, fun _ => hcosts⟩
    · exact .inl (hserved hr hout hok)
  · -- a block is taken, and the pools are asked once more
    obtain ⟨hlarge, hmax, hblock, i, hlt⟩ := htakes
    obtain ⟨r₆, s₆, hf, hout, h₆⟩ := firstSlab_cons (h₅ hnone)
    rcases getBigSlab_cases hf with ⟨hnone, rfl, hempty⟩ | ⟨hr, id, hlo, hhi, hid⟩
    · obtain ⟨rfl, rfl⟩ := Prod.mk.inj (Option.some.inj (h₆ hnone))
      refine .inr ⟨?_, rfl, i, hlt⟩
      rintro (hfits | hfits | ⟨header, hmem, hle⟩ | ⟨id, hlo, hhi, hid⟩ | hover | hno)
      · omega
      · omega
      · exact absurd (hcache header hmem) (by omega)
      · exact (hpools id).2 hid (hempty id hlo hhi)
      · omega
      · exact hblock hno
    · exact .inl (hserved hr hout (.inr (.inr (.inr (.inl ⟨id, hlo, hhi, (hpools id).1 hid⟩)))))
  · exact .inl (hserved hr hout (.inl hfits))

lemma malloc_iff (hs : s.Sound) (h : s.malloc size = some (ret, s')) :
    (ret = none → CostsNothing s s') ↔
      size = 0 ∨ SlabAffords s (balign size SLAB_MIN_DATA_SIZE) := by
  rw [Heap.malloc] at h
  split_ifs at h with hzero
  · obtain ⟨rfl, rfl⟩ := Prod.mk.inj (Option.some.inj h)
    exact iff_of_true (fun _ => .refl _) (.inl hzero)
  · rw [or_iff_right hzero]
    rcases firstSlab_cases hs h with ⟨hok, hcosts⟩ | ⟨hno, hnone, i, hlt⟩
    · exact iff_of_true hcosts hok
    · exact iff_of_false (fun hcosts => hlt.ne ((hcosts hnone).sections i)) hno

end NewSlab

/-! ### Blocks that the page allocator leaves alone -/

/-- The meta blocks of the pools are taken. -/
def MetasTaken (s : PageMem) : Prop := ∀ p, ∀ mb ∈ (s.pools p).metaList, Taken s.mm mb

/-- The block is taken, and no pool has it. -/
structure Aside (s : PageMem) (b : BlockRef) : Prop where
  taken : Taken s.mm b
  metaOf : s.metaOf b = none
  metas : ∀ p, b ∉ (s.pools p).metaList

/-- The block is as before, blocks are only taken, and no section has more than before. -/
structure Spares (b : BlockRef) (s s' : PageMem) : Prop where
  taken : ∀ d, Taken s.mm d → Taken s'.mm d
  block : s'.mm.block? b = s.mm.block? b
  metaOf : s'.metaOf b = s.metaOf b
  metas : ∀ p, ∀ mb ∈ (s'.pools p).metaList,
    mb ∈ (s.pools p).metaList ∨ mb ≠ b ∧ Taken s'.mm mb
  free : ∀ i, s'.mm.sectionFree i ≤ s.mm.sectionFree i

section Spares

variable {s s' s'' : PageMem} {b d mb : BlockRef} {m : MetaRef} {p q : PoolKind}
  {count align flags : ℕ} {page : PageRef}

lemma Spares.refl (b : BlockRef) (s : PageMem) : Spares b s s :=
  ⟨fun _ h => h, rfl, rfl, fun _ _ h => .inl h, fun _ => le_rfl⟩

lemma Spares.trans (h : Spares b s s') (h' : Spares b s' s'') : Spares b s s'' where
  taken d hd := h'.taken d (h.taken d hd)
  block := h'.block.trans h.block
  metaOf := h'.metaOf.trans h.metaOf
  metas q mb hmb := by
    rcases h'.metas q mb hmb with hmb | hmb
    · exact (h.metas q mb hmb).imp_right fun ⟨hne, ht⟩ => ⟨hne, h'.taken mb ht⟩
    · exact .inr hmb
  free i := (h'.free i).trans (h.free i)

lemma Spares.metasTaken (h : Spares b s s') (hs : MetasTaken s) : MetasTaken s' := fun q mb hmb =>
  (h.metas q mb hmb).elim (fun hmb => h.taken mb (hs q mb hmb)) And.right

lemma Aside.spares (hb : Aside s b) (h : Spares b s s') : Aside s' b where
  taken := h.taken b hb.taken
  metaOf := h.metaOf.trans hb.metaOf
  metas q hmb := (h.metas q b hmb).elim (hb.metas q) fun hne => hne.1 rfl

lemma Taken.setBlock {mm : Mem} (h : Taken mm d) (b : BlockRef) (f : MemBlock → MemBlock) :
    Taken (mm.setBlock b f) d := by
  obtain ⟨ms, hms, hkind, hbit, hset⟩ := h
  rw [Taken, Mem.setBlock, Mem.setSection_get, hms]
  split_ifs
  · exact ⟨_, rfl, hkind, hbit, hset⟩
  · exact ⟨_, rfl, hkind, hbit, hset⟩

lemma spares_of_setBlock {f : MemBlock → MemBlock} (hne : d ≠ b)
    (hmm : s'.mm = s.mm.setBlock d f) (hmetaOf : s'.metaOf = s.metaOf)
    (hmetas : ∀ p, (s'.pools p).metaList = (s.pools p).metaList) : Spares b s s' where
  taken d' hd' := by
    rw [hmm]
    exact hd'.setBlock d f
  block := by rw [hmm, Mem.setBlock_block?, if_neg hne]
  metaOf := by rw [hmetaOf]
  metas q mb hmb := .inl (hmetas q ▸ hmb)
  free i := by rw [hmm, Mem.setBlock_sectionFree]

lemma spares_setPool {f : PagePool → PagePool}
    (hf : ∀ mb ∈ (f (s.pools p)).metaList,
      mb ∈ (s.pools p).metaList ∨ mb ≠ b ∧ Taken s.mm mb) : Spares b s (s.setPool p f) where
  taken _ h := h
  block := rfl
  metaOf := rfl
  metas q mb hmb := by
    simp only [PageMem.setPool] at hmb ⊢
    by_cases hq : q = p
    · subst hq
      rw [Function.update_self] at hmb
      exact hf mb hmb
    · rw [Function.update_of_ne hq] at hmb
      exact .inl hmb
  free _ := le_rfl

lemma allocBlock_block? (h : allocBlock s flags = some (d, s')) (hd : b ≠ d) :
    s'.mm.block? b = s.mm.block? b := by
  simp only [allocBlock, Option.map_eq_some_iff, Prod.mk.injEq] at h
  obtain ⟨⟨d', mm⟩, halloc, rfl, rfl⟩ := h
  obtain ⟨ms, hms, -, -, -, hget⟩ := allocMemBlock_cases halloc
  simp only [Mem.block?, hget]
  by_cases hk : d'.sec = b.sec
  · have hbit : b.bit ≠ d'.bit := by
      intro hbit
      cases b
      cases d'
      simp_all
    rw [if_pos hk, ← hk, hms]
    simp [takeBlock, hbit]
  · rw [if_neg hk]

lemma allocBlock_new (h : allocBlock s flags = some (d, s')) :
    s'.metaOf d = none ∧ s'.pools = s.pools ∧
      ∃ block, s'.mm.block? d = some block ∧ block.freePages = PAGES_IN_BLOCK ∧
        block.bmCurrent = 0 := by
  simp only [allocBlock, Option.map_eq_some_iff, Prod.mk.injEq] at h
  obtain ⟨⟨d', mm⟩, halloc, rfl, rfl⟩ := h
  obtain ⟨ms, hms, -, -, -, hget⟩ := allocMemBlock_cases halloc
  refine ⟨Function.update_self .., rfl, newBlock ms d'.bit flags, ?_, rfl, rfl⟩
  simp [Mem.block?, hget, takeBlock]

lemma allocBlock_spares (h : allocBlock s flags = some (d, s')) (hb : Taken s.mm b) :
    Spares b s s' := by
  obtain ⟨hg, hnot, -, -, mm, heq⟩ := allocBlock_spec h
  have hne : b ≠ d := fun hbd => hnot (hbd ▸ hb)
  refine ⟨fun _ => hg.taken, allocBlock_block? h hne, ?_, fun q mb hmb => .inl ?_, ?_⟩
  · rw [heq]
    exact Function.update_of_ne hne ..
  · rwa [heq] at hmb
  · simp only [allocBlock, Option.map_eq_some_iff, Prod.mk.injEq] at h
    obtain ⟨⟨d', mm'⟩, halloc, rfl, rfl⟩ := h
    exact (allocMemBlock_sectionFree halloc).2

lemma takeMeta_spares (hne : mb ≠ b) (bit : ℕ) (f : MemBlock → MemBlock) :
    Spares b s (takeMeta s mb bit f) :=
  spares_of_setBlock hne rfl rfl fun _ => rfl

lemma newMetaBlock_cases (s : PageMem) (p : PoolKind) :
    ((newMetaBlock s p).1 ≠ none ↔ (allocMemBlock s.mm GPF_PAGE_META).isSome) ∧
      ∀ b, Taken s.mm b → Spares b s (newMetaBlock s p).2 := by
  rw [newMetaBlock]
  cases halloc : allocBlock s GPF_PAGE_META with
  | none =>
    have hnone := Option.map_eq_none_iff.1 halloc
    exact ⟨by simp [hnone], fun b _ => .refl b s⟩
  | some r =>
    obtain ⟨mb, s₁⟩ := r
    obtain ⟨r', hr', -⟩ := Option.map_eq_some_iff.1 halloc
    refine ⟨by simp [hr'], fun b hb => ?_⟩
    obtain ⟨-, hnot, htaken, -⟩ := allocBlock_spec halloc
    have hne : mb ≠ b := fun h => hnot (h ▸ hb)
    have hbitmap : Spares b s₁
        { s₁ with metaBitmaps := Function.update s₁.metaBitmaps mb fun _ => false } :=
      ⟨fun _ h => h, rfl, rfl, fun _ _ h => .inl h, fun _ => le_rfl⟩
    dsimp only
    refine (allocBlock_spares halloc hb).trans
      ((hbitmap.trans (takeMeta_spares hne 0 _)).trans (spares_setPool fun mb' hmb' => ?_))
    rcases List.mem_cons.1 hmb' with rfl | hmb'
    · exact .inr ⟨hne, htaken.setBlock ..⟩
    · exact .inl hmb'

lemma dropMeta_spares (b mb : BlockRef) : Spares b s
    (s.setPool p fun pool => { pool with metaList := pool.metaList.erase mb }) :=
  spares_setPool fun _ h => .inl (List.mem_of_mem_erase h)

/-- Whether there is a place for metadata, and what the search leaves alone -/
lemma getPageMetaFrom_cases (l : List BlockRef) (hl : ∀ mb ∈ l, Taken s.mm mb) :
    ((getPageMetaFrom p l s).1 ≠ none ↔
        (∃ mb ∈ l, ∃ bit < PAGE_METAS_IN_BLOCK, s.metaBitmaps mb bit = false) ∨
          (allocMemBlock s.mm GPF_PAGE_META).isSome) ∧
      ∀ b, Taken s.mm b → b ∉ l → Spares b s (getPageMetaFrom p l s).2 := by
  induction l generalizing s with
  | nil =>
    rw [getPageMetaFrom]
    refine ⟨(newMetaBlock_cases s p).1.trans ?_, fun b hb _ => (newMetaBlock_cases s p).2 b hb⟩
    simp
  | cons mb rest ih =>
    obtain ⟨htaken, hrest⟩ := List.forall_mem_cons.1 hl
    obtain ⟨ms, hms, -⟩ := htaken
    have hblock : s.mm.block? mb = some (ms.blocks mb.bit) := by rw [Mem.block?, hms]; rfl
    rw [getPageMetaFrom, hblock]
    dsimp only
    by_cases hfull : PAGE_METAS_IN_BLOCK ≤ findNextZeroBitLoop (s.metaBitmaps mb)
        PAGE_METAS_IN_BLOCK (ms.blocks mb.bit).bmCurrent
    · -- the meta block is full, and leaves the list
      rw [if_pos hfull]
      obtain ⟨hiff, hspares⟩ := ih (s := s.setPool p fun pool =>
        { pool with metaList := pool.metaList.erase mb }) hrest
      refine ⟨hiff.trans ?_, fun b hb hmem => (dropMeta_spares b mb).trans (hspares b hb
        fun h => hmem (List.mem_cons_of_mem _ h))⟩
      refine or_congr_left (Iff.intro ?_ ?_)
      · rintro ⟨mb', hmb', h⟩
        exact ⟨mb', List.mem_cons_of_mem _ hmb', h⟩
      · rintro ⟨mb', hmb', bit, hbit, hzero⟩
        rcases List.mem_cons.1 hmb' with rfl | hmb'
        · have hone := findNextZeroBitLoop_none hfull hbit
          rw [hzero] at hone
          cases hone
        · exact ⟨mb', hmb', bit, hbit, hzero⟩
    · rw [if_neg hfull]
      refine ⟨iff_of_true (Option.some_ne_none _) (.inl ⟨mb, List.mem_cons_self, _,
        not_le.1 hfull, findNextZeroBitLoop_prop (not_le.1 hfull)⟩), fun b hb hmem => ?_⟩
      have hne : mb ≠ b := fun h => hmem (h ▸ List.mem_cons_self)
      by_cases hlast : (ms.blocks mb.bit).freePages - 1 = 0
      · rw [if_pos hlast]
        exact (takeMeta_spares hne _ _).trans (dropMeta_spares b mb)
      · rw [if_neg hlast]
        exact takeMeta_spares hne _ _

lemma joinPool_spares (hne : d ≠ b) (m : MetaRef) : Spares b s (joinPool s p d m) where
  taken _ h := h
  block := rfl
  metaOf := Function.update_of_ne hne.symm ..
  metas q mb hmb := by
    simp only [joinPool, PageMem.setPool] at hmb
    by_cases hq : q = p
    · subst hq
      rw [Function.update_self] at hmb
      exact .inl hmb
    · rw [Function.update_of_ne hq] at hmb
      exact .inl hmb
  free _ := le_rfl

/-! ### Requests for pages -/

lemma takePages_spares {addr bit : ℕ} (hne : d ≠ b) :
    Spares b s (takePages s d m addr bit count align) :=
  spares_of_setBlock (f := fun block => { block with
    freePages := block.freePages - count
    bmCurrent :=
      if count = 1 ∨ align = 1 then (if bit + count = PAGES_IN_BLOCK then 0 else bit + count)
      else block.bmCurrent }) hne rfl rfl fun _ => rfl

lemma allocPagesFromBlock_cases (s : PageMem) (b : BlockRef) (count align : ℕ) :
    allocPagesFromBlock s b count align = none ∧ ¬ BlockServes s b count align ∨
      ∃ page s', allocPagesFromBlock s b count align = some (page, s') ∧
        BlockServes s b count align ∧ (∀ i, s'.mm.sectionFree i ≤ s.mm.sectionFree i) ∧
        ∀ d, s.metaOf d = none → Spares d s s' := by
  rw [allocPagesFromBlock]
  cases hblock : s.mm.block? b with
  | none =>
    refine .inl ⟨rfl, ?_⟩
    rintro ⟨_, _, h, -⟩
    rw [hblock] at h
    cases h
  | some block =>
    cases hm : s.metaOf b with
    | none =>
      refine .inl ⟨rfl, ?_⟩
      rintro ⟨_, _, -, h, -⟩
      rw [hm] at h
      cases h
    | some m =>
      dsimp only
      have hserves : BlockServes s b count align ↔ count ≤ block.freePages ∧
          findPages (s.bitmaps m) block.bmCurrent count align < PAGES_IN_BLOCK := by
        rw [BlockServes, hblock, hm]
        simp
      by_cases hfew : block.freePages < count
      · rw [if_pos hfew]
        exact .inl ⟨rfl, fun h => absurd (hserves.1 h).1 (by omega)⟩
      rw [if_neg hfew]
      by_cases hbit : PAGES_IN_BLOCK ≤ findPages (s.bitmaps m) block.bmCurrent count align
      · rw [if_pos hbit]
        exact .inl ⟨rfl, fun h => absurd (hserves.1 h).2 (by omega)⟩
      · rw [if_neg hbit]
        refine .inr ⟨_, _, rfl, hserves.2 ⟨by omega, by omega⟩,
          fun i => (Mem.setBlock_sectionFree ..).le, fun d hd => ?_⟩
        have hne : b ≠ d := fun h => by rw [h, hd] at hm; cases hm
        exact takePages_spares hne

lemma allocPagesFromBlocks_cases (s : PageMem) (p : PoolKind) (count align : ℕ)
    (l : List BlockRef) :
    allocPagesFromBlocks count align p l s = none ∧ (∀ b ∈ l, ¬ BlockServes s b count align) ∨
      ∃ page s', allocPagesFromBlocks count align p l s = some (page, s') ∧
        (∃ b ∈ l, BlockServes s b count align) ∧ ∀ d, s.metaOf d = none → Spares d s s' := by
  induction l with
  | nil => exact .inl ⟨rfl, nofun⟩
  | cons b rest ih =>
    rw [allocPagesFromBlocks]
    rcases allocPagesFromBlock_cases s b count align with ⟨hnone, hno⟩ | ⟨page, s', hs', hb, -, hd⟩
    · rw [hnone]
      rcases ih with ⟨hnone, hrest⟩ | ⟨page, s', hs', ⟨b', hb', hserves⟩, hd⟩
      · exact .inl ⟨hnone, List.forall_mem_cons.2 ⟨hno, hrest⟩⟩
      · exact .inr ⟨page, s', hs', ⟨b', List.mem_cons_of_mem _ hb', hserves⟩, hd⟩
    · rw [hs']
      refine .inr ⟨page, _, rfl, ⟨b, List.mem_cons_self, hb⟩, fun d hd' => (hd d hd').trans ?_⟩
      split_ifs
      · exact spares_setPool fun _ h => .inl h
      · exact .refl d s'

/-- A request for pages that fails leaves the memory as it is if it is afforded. If not, it fails,
and a section has less than before. -/
def Outcome (ok : Prop) (s : PageMem) (r : Option PageRef × PageMem) : Prop :=
  ok ∧ (r.1 = none → r.2 = s) ∨
    ¬ ok ∧ r.1 = none ∧ ∃ i, r.2.mm.sectionFree i < s.mm.sectionFree i

lemma findPages_empty (align : ℕ) (h : count ≤ PAGES_IN_BLOCK) :
    findPages (fun _ => false) 0 count align < PAGES_IN_BLOCK := by
  have hpos : 0 < PAGES_IN_BLOCK := by decide
  rw [findPages]
  split_ifs
  · exact findNextZeroBit_lt_iff.2 ⟨0, le_rfl, hpos, rfl⟩
  · rwa [findNextZeroAreaAlign_empty align hpos h]

section Pool

variable {between : PageMem → PageMem}
  (hbetween : ∀ b t, MetasTaken t → Aside t b → Spares b t (between t))

include hbetween

variable (p count align) in
/-- A new block for the pool -/
lemma allocPagesFromNewBlock_cases (hs : MetasTaken s)
    (halloc : allocBlock s flags = some (b, s')) :
    ((allocPagesFromNewBlock between p count align flags s).1 ≠ none ↔
        count ≤ PAGES_IN_BLOCK ∧ MetaLeft (between s') p) ∧
      (∃ i, (allocPagesFromNewBlock between p count align flags s).2.mm.sectionFree i <
        s.mm.sectionFree i) ∧
      ∀ d, Aside s d → Spares d s (allocPagesFromNewBlock between p count align flags s).2 := by
  obtain ⟨hg, hnot, htaken, -⟩ := allocBlock_spec halloc
  obtain ⟨hmetaOf, hpools, block, hblock, hfree, hcur⟩ := allocBlock_new halloc
  have hlt : s'.mm.sectionFree b.sec < s.mm.sectionFree b.sec := by
    simp only [allocBlock, Option.map_eq_some_iff, Prod.mk.injEq] at halloc
    obtain ⟨⟨b', mm⟩, hmem, rfl, rfl⟩ := halloc
    exact (allocMemBlock_sectionFree hmem).1
  -- the block is no block of a pool until it joins this one
  have hs' : MetasTaken s' := fun q mb hmb => hg.taken (hs q mb (by rwa [hpools] at hmb))
  have hb : Aside s' b := ⟨htaken, hmetaOf, fun q hmb => hnot (hs q b (by rwa [hpools] at hmb))⟩
  have hmapped := hbetween b s' hs' hb
  have hb₂ := hb.spares hmapped
  have hs₂ := hmapped.metasTaken hs'
  obtain ⟨hplace, hspares⟩ := getPageMetaFrom_cases (p := p) ((between s').pools p).metaList
    (hs₂ p)
  have hmeta := hspares b hb₂.taken (hb₂.metas p)
  have hother : ∀ d, Aside s d → d ≠ b ∧ Aside s' d ∧
      Spares d s (getPageMetaFrom p ((between s').pools p).metaList (between s')).2 := by
    intro d hd
    have hne : d ≠ b := fun h => hnot (h ▸ hd.taken)
    have hspares₁ := allocBlock_spares halloc hd.taken
    have hd' := hd.spares hspares₁
    have hspares₂ := hbetween d s' hs' hd'
    have hd₂ := hd'.spares hspares₂
    exact ⟨hne, hd', (hspares₁.trans hspares₂).trans (hspares d hd₂.taken (hd₂.metas p))⟩
  rw [allocPagesFromNewBlock, halloc]
  dsimp only
  rw [getPageMeta, MetaLeft, ← hplace]
  cases hget : getPageMetaFrom p ((between s').pools p).metaList (between s') with
  | mk place s₃ =>
    rw [hget] at hmeta hother
    dsimp only at hmeta hother
    have hfree₃ : s₃.mm.sectionFree b.sec < s.mm.sectionFree b.sec :=
      ((hmapped.trans hmeta).free b.sec).trans_lt hlt
    cases place with
    | none => exact ⟨by simp, ⟨b.sec, hfree₃⟩, fun d hd => (hother d hd).2.2⟩
    | some m =>
      have hblock₃ : (joinPool s₃ p b m).mm.block? b = some block :=
        (hmapped.trans hmeta).block.trans hblock
      have hserves : BlockServes (joinPool s₃ p b m) b count align ↔ count ≤ PAGES_IN_BLOCK := by
        have hm : (joinPool s₃ p b m).metaOf b = some m := Function.update_self ..
        have hbits : (joinPool s₃ p b m).bitmaps m = fun _ => false := Function.update_self ..
        rw [BlockServes, hblock₃, hm]
        simp only [Option.some.injEq, exists_and_left, exists_eq_left', hbits, hfree, hcur]
        exact and_iff_left_of_imp fun h => findPages_empty align h
      dsimp only
      have hjoin : ∀ i, (joinPool s₃ p b m).mm.sectionFree i ≤ s₃.mm.sectionFree i :=
        fun _ => le_rfl
      rcases allocPagesFromBlock_cases (joinPool s₃ p b m) b count align with
        ⟨hnone, hno⟩ | ⟨page, s₄, hsome, hyes, hmono, hd₄⟩
      · rw [hnone]
        rw [hserves] at hno
        refine ⟨by simp [hno], ⟨b.sec, hfree₃⟩, fun d hd => ?_⟩
        obtain ⟨hne, -, hspares₃⟩ := hother d hd
        exact hspares₃.trans (joinPool_spares hne.symm m)
      · rw [hsome]
        rw [hserves] at hyes
        refine ⟨by simp [hyes], ⟨b.sec, (hmono b.sec).trans_lt hfree₃⟩, fun d hd => ?_⟩
        obtain ⟨hne, -, hspares₃⟩ := hother d hd
        have hjoined := hspares₃.trans (joinPool_spares (p := p) hne.symm m)
        exact hjoined.trans (hd₄ d (hd.spares hjoined).metaOf)

variable (p count align flags) in
lemma allocPagesFromPool_cases (hs : MetasTaken s) :
    Outcome (PoolAffords between s p count align flags) s
        (allocPagesFromPool between p count align flags s) ∧
      ∀ d, Aside s d → Spares d s (allocPagesFromPool between p count align flags s).2 := by
  rw [allocPagesFromPool]
  rcases allocPagesFromBlocks_cases s p count align (s.pools p).blockList with
    ⟨hnone, hno⟩ | ⟨page, s', hsome, hserves, hd⟩
  swap
  · rw [hsome]
    exact ⟨.inl ⟨.inl hserves, fun h => absurd h (Option.some_ne_none _)⟩,
      fun d hd' => hd d hd'.metaOf⟩
  rw [hnone]
  dsimp only
  cases halloc : allocBlock s flags with
  | none =>
    have hresult : allocPagesFromNewBlock between p count align flags s = (none, s) := by
      rw [allocPagesFromNewBlock, halloc]
    rw [hresult]
    refine ⟨.inl ⟨.inr fun b s' h => ?_, fun _ => rfl⟩, fun d _ => .refl d s⟩
    rw [halloc] at h
    cases h
  | some r =>
    obtain ⟨b, s'⟩ := r
    obtain ⟨hiff, hless, hd⟩ := allocPagesFromNewBlock_cases p count align hbetween hs halloc
    refine ⟨?_, hd⟩
    by_cases hok : count ≤ PAGES_IN_BLOCK ∧ MetaLeft (between s') p
    · refine .inl ⟨.inr fun b₁ s₁ h => ?_, fun h => absurd h (hiff.2 hok)⟩
      rw [halloc] at h
      obtain ⟨rfl, rfl⟩ := Prod.mk.inj (Option.some.inj h)
      exact hok
    · refine .inr ⟨?_, not_not.1 (mt hiff.1 hok), hless⟩
      rintro (⟨b', hb', hserves⟩ | hnew)
      · exact hno b' hb' hserves
      · exact hok (hnew b s' halloc)

end Pool

lemma allocPagesFromSections_eq_none_iff {i : ℕ} (l : List MemSection) :
    allocPagesFromSections count align i l = none ↔
      ∀ ms ∈ l, ¬ (ms.kind = .page ∧ count ≤ ms.freeBlocks ∧
        findSectionPages ms count align < ms.nrBlocks) := by
  induction l generalizing i with
  | nil => simp [allocPagesFromSections]
  | cons ms rest ih =>
    rw [allocPagesFromSections, List.forall_mem_cons]
    by_cases hroom : ms.kind = .page ∧ count ≤ ms.freeBlocks ∧
        findSectionPages ms count align < ms.nrBlocks
    · rw [if_pos hroom]
      simp [hroom]
    · rw [if_neg hroom, ih, and_iff_right hroom]

lemma takeSectionPages_spares (d : BlockRef) (k bit : ℕ) :
    Spares d s { s with mm := s.mm.setSection k (takeSectionPages bit count) } where
  taken d' hd' := by
    obtain ⟨ms, hms, hkind, hbit, hset⟩ := hd'
    rw [Taken, Mem.setSection_get, hms]
    split_ifs
    · exact ⟨_, rfl, hkind, hbit, by simp [takeSectionPages, setRange, hset]⟩
    · exact ⟨_, rfl, hkind, hbit, hset⟩
  block := by
    rw [Mem.block?, Mem.block?, Mem.setSection_get]
    split_ifs
    · rw [Option.map_map]
      rfl
    · rfl
  metaOf := rfl
  metas _ _ h := .inl h
  free i := by
    rw [Mem.sectionFree, Mem.sectionFree, Mem.setSection_get]
    cases s.mm.memSections[i]? with
    | none => simp
    | some ms => split_ifs <;> simp [takeSectionPages]

lemma allocPagesFromSection_cases (s : PageMem) (count align : ℕ) :
    allocPagesFromSection s count align = none ∧ ¬ SectionServes s count align ∨
      ∃ page s', allocPagesFromSection s count align = some (page, s') ∧
        SectionServes s count align ∧ ∀ d, Spares d s s' := by
  rw [allocPagesFromSection]
  cases hfind : allocPagesFromSections count align 0 s.mm.memSections with
  | none =>
    refine .inl ⟨rfl, ?_⟩
    rintro ⟨ms, hms, hroom⟩
    exact (allocPagesFromSections_eq_none_iff _).1 hfind ms hms hroom
  | some r =>
    refine .inr ⟨_, _, rfl, ?_, fun d => takeSectionPages_spares d r.1 r.2⟩
    by_contra hno
    rw [(allocPagesFromSections_eq_none_iff _).2 fun ms hms hroom => hno ⟨ms, hms, hroom⟩] at hfind
    cases hfind

variable (count align) in
lemma allocPages_cases (hs : MetasTaken s) :
    Outcome (align ≤ 1 ∧ SectionServes s count align ∨ PoolAffords id s .page count align GFB_PAGE)
        s (allocPages s count align) ∧
      ∀ d, Aside s d → Spares d s (allocPages s count align).2 := by
  obtain ⟨hpool, hd⟩ := allocPagesFromPool_cases .page count align GFB_PAGE
    (fun b t _ _ => Spares.refl b (id t)) hs
  rw [allocPages]
  by_cases hlt : 1 < align
  · rw [if_pos hlt]
    dsimp only
    refine ⟨?_, hd⟩
    rwa [or_iff_right fun h => absurd h.1 (by omega)]
  rw [if_neg hlt]
  rcases allocPagesFromSection_cases s count align with
    ⟨hnone, hno⟩ | ⟨page, s', hsome, hserves, hspares⟩
  · rw [hnone]
    dsimp only
    refine ⟨?_, hd⟩
    rwa [or_iff_right fun h => hno h.2]
  · rw [hsome]
    exact ⟨.inl ⟨.inl ⟨by omega, hserves⟩, fun h => absurd h (Option.some_ne_none _)⟩,
      fun d _ => hspares d⟩

lemma tablePages_spares (n : ℕ) (b : BlockRef) (t : PageMem) (ht : MetasTaken t)
    (hb : Aside t b) : Spares b t (tablePages n t) := by
  induction n generalizing t with
  | zero => exact .refl b t
  | succ n ih =>
    have hpages : Spares b t (getFreePages t 1 1) := by
      have hspares := (allocPages_cases 1 1 ht).2 b hb
      rw [getFreePages, keep]
      split
      · exact hspares
      · exact ⟨hspares.taken, hspares.block, hspares.metaOf, hspares.metas, hspares.free⟩
    exact hpages.trans (ih _ (hpages.metasTaken ht) (hb.spares hpages))

end Spares

/-! ### Requests that fail -/

lemma Outcome.iff {ok : Prop} {s s' : Heap} {r : Option PageRef} {handle : Option Handle}
    (h : Outcome ok s.pages (r, s'.pages)) (hslab : s'.slab = s.slab)
    (hr : handle = none ↔ r = none) : (handle = none → CostsNothing s s') ↔ ok := by
  rcases h with ⟨hok, hsame⟩ | ⟨hno, hnone, i, hlt⟩
  · refine iff_of_true (fun hnull => ?_) hok
    have heq : s' = s := by
      cases s
      cases s'
      simp_all
    exact heq ▸ .refl s
  · exact iff_of_false (fun hcosts => hlt.ne ((hcosts (hr.2 hnone)).sections i)) hno

/-- A request that fails costs nothing if and only if it is afforded: a new block is never taken for
nothing. -/
theorem failed_alloc_costs_nothing_iff {s s' : Heap} {req : AllocRequest} {ret : Option Handle}
    (hs : s.Sound) (h : s.call req = some (ret, s')) :
    (ret = none → CostsNothing s s') ↔ s.Affords req := by
  cases req with
  | malloc size =>
    obtain ⟨⟨r, t⟩, hcall, heq⟩ := Option.map_eq_some_iff.1 h
    obtain ⟨rfl, rfl⟩ := Prod.mk.inj heq
    rw [Option.map_eq_none_iff]
    exact malloc_iff hs hcall
  | zalloc size =>
    obtain ⟨⟨r, t⟩, hcall, heq⟩ := Option.map_eq_some_iff.1 h
    obtain ⟨rfl, rfl⟩ := Prod.mk.inj heq
    rw [Option.map_eq_none_iff]
    exact malloc_iff hs hcall
  | allocPages pages align =>
    rw [Heap.call] at h
    rw [Heap.Affords]
    by_cases hrefused : pages ≤ 0 ∨ align = 0
    · rw [if_pos hrefused] at h
      obtain ⟨rfl, rfl⟩ := Prod.mk.inj (Option.some.inj h)
      exact iff_of_true (fun _ => .refl _) (by tauto)
    · rw [if_neg hrefused] at h
      obtain ⟨rfl, rfl⟩ := Prod.mk.inj (Option.some.inj h)
      rw [not_or] at hrefused
      rw [or_iff_right hrefused.1, or_iff_right hrefused.2]
      exact Outcome.iff (allocPages_cases _ _ hs.metas).1 rfl Option.map_eq_none_iff
  | getIoPages pages align tables =>
    obtain ⟨rfl, rfl⟩ := Prod.mk.inj (Option.some.inj h)
    exact Outcome.iff (allocPagesFromPool_cases _ _ _ _ (tablePages_spares tables) hs.metas).1 rfl
      Option.map_eq_none_iff

/-- A section of `n` free blocks, and empty pools -/
def emptyHeap (n : ℕ) : Heap where
  pages :=
    { mm := ⟨[newSection .block 0x40000000 (n * MEM_BLOCK_SIZE) n], n, fun _ _ => false⟩
      pools := fun _ => ⟨[], []⟩
      metaOf := fun _ => none
      bitmaps := fun _ _ => false
      metas := fun _ _ => 0
      metaBitmaps := fun _ _ => false
      live := [] }
  slab := ⟨0, 0, fun _ => [], 0⟩

lemma emptyHeap_sound (n : ℕ) : (emptyHeap n).Sound := ⟨nofun, fun _ _ _ => rfl⟩

/-- Without a free block a request for 2MiB fails and costs nothing. -/
theorem failed_alloc_costs_nothing_empty :
    ∃ s', (emptyHeap 0).call (.malloc 0x200000) = some (none, s') ∧
      CostsNothing (emptyHeap 0) s' := by
  have hcall : ((emptyHeap 0).call (.malloc 0x200000)).map Prod.fst = some none := by
    decide +kernel
  obtain ⟨⟨ret, s'⟩, h, hret⟩ := Option.map_eq_some_iff.1 hcall
  dsimp only at hret
  subst hret
  have hfree : allocMemBlock (emptyHeap 0).pages.mm GFB_SLAB = none := rfl
  exact ⟨s', h, (failed_alloc_costs_nothing_iff (emptyHeap_sound 0) h).2
    (.inr (.inr (.inr (.inr (.inr (.inr hfree)))))) rfl⟩

/-- With its header a request for 2MiB does not fit a block. It fails, and the only free block is
gone. -/
theorem failed_alloc_costs_nothing_block :
    ∃ s', (emptyHeap 1).call (.malloc 0x200000) = some (none, s') ∧
      (emptyHeap 1).pages.mm.freeBlocks = 1 ∧ s'.pages.mm.freeBlocks = 0 ∧
      ¬ CostsNothing (emptyHeap 1) s' := by
  have hcall : ((emptyHeap 1).call (.malloc 0x200000)).map
      (fun r => (r.1, r.2.pages.mm.freeBlocks)) = some (none, 0) := by
    decide +kernel
  obtain ⟨⟨ret, s'⟩, h, hret⟩ := Option.map_eq_some_iff.1 hcall
  obtain ⟨rfl, hfree⟩ := Prod.mk.inj hret
  refine ⟨s', h, rfl, hfree, fun hcosts => ?_⟩
  have hsame := hcosts.freeBlocks
  rw [show s'.pages.mm.freeBlocks = 0 from hfree] at hsame
  exact Nat.zero_ne_one hsame

end Minos.Mm
