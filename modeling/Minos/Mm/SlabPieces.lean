import Mathlib
import Minos.Lib.Pieces
import Minos.Mm.BootSections
import Minos.Mm.FailedAlloc

/-!
# The pieces that the slab allocator cuts

A request takes a slab from a pool, or cuts it from a slab of the cache or from the rest of a block.
Whatever the strategy, no byte is in more pieces than before, unless it is in a block that is taken
for the request.
-/

namespace Minos.Mm

/-- Up to this size the number of a pool is an `int`. -/
def SLAB_SIZE_LIMIT : ℕ := 2 ^ 35

/-- A slab with its header -/
def SlabHeader.piece (header : SlabHeader) : ℕ × ℕ := (header.addr, SLAB_HEADER_SIZE + header.size)

/-- What the free slabs weigh -/
def Slab.weight (slab : Slab) (w : SlabHeader → ℕ) : ℕ :=
  ∑ id ∈ Finset.range POOL_NR, ((slab.pool id).map w).sum

/-- How many free slabs hit an address, with the rest of the block that is cut -/
def Slab.hits (slab : Slab) (x : ℕ) : ℕ :=
  Pieces.hits x (slab.slabFree, slab.freeSize) +
    slab.weight fun header => Pieces.hits x header.piece

/-- The bytes of a block -/
def Mem.blockBytes (mm : Mem) (b : BlockRef) : Set ℕ :=
  {x | ∃ ms, mm.memSections[b.sec]? = some ms ∧ ms.kind = .block ∧ b.bit < ms.nrBlocks ∧
    x ∈ Set.Ico (ms.phyBase + b.bit * MEM_BLOCK_SIZE)
      (ms.phyBase + b.bit * MEM_BLOCK_SIZE + MEM_BLOCK_SIZE)}

/-- A block that was taken for slabs -/
def SlabBlock (mm : Mem) (b : BlockRef) : Prop :=
  Taken mm b ∧ (mm.block? b).map MemBlock.flags = some GFB_SLAB

/-- The bytes of the blocks that were taken for slabs from one memory to the other -/
def opened (mm mm' : Mem) : Set ℕ :=
  {x | ∃ b, ¬ Taken mm b ∧ SlabBlock mm' b ∧ x ∈ mm'.blockBytes b}

/-- A slab of a pool has at least the size of the pool, and all of them are in the address space. -/
structure SlabHeader.Fits (header : SlabHeader) (id : ℕ) : Prop where
  size : id ≤ FREE_POOL → 16 * (id + 1) ≤ header.size ∧ header.size ≤ SLAB_SIZE_LIMIT
  bound : header.addr + (SLAB_HEADER_SIZE + header.size) ≤ 2 ^ 64

def Slab.Sorted (slab : Slab) : Prop := ∀ id < POOL_NR, ∀ header ∈ slab.pool id, header.Fits id

/-- Slabs are in their pools, and the rest of a block is in one that was taken. -/
structure Heap.Ordered (s : Heap) : Prop where
  layout : Layout s.pages.mm
  sorted : s.slab.Sorted
  rest : s.slab.freeSize ≠ 0 → ∃ b, SlabBlock s.pages.mm b ∧
    pieceSet (s.slab.slabFree, s.slab.freeSize) ⊆ s.pages.mm.blockBytes b

/-- Sections stay where they are, and blocks that are taken stay what they are. -/
structure Mem.Keeps (mm mm' : Mem) : Prop where
  geometry : SameGeometry mm mm'
  taken : ∀ b, Taken mm b → Taken mm' b
  flags : ∀ b, Taken mm b →
    (mm'.block? b).map MemBlock.flags = (mm.block? b).map MemBlock.flags

/-- A request for `n` bytes gets the slab `ret`, or none. -/
structure Heap.Gives (n : ℕ) (s : Heap) (ret : Option SlabHeader) (s' : Heap) : Prop where
  ordered : s'.Ordered
  keeps : s.pages.mm.Keeps s'.pages.mm
  slab : ∀ header ∈ ret, n ≤ header.size ∧ header.Fits 0
  hits : ∀ x, (ret.elim 0 fun header => Pieces.hits x header.piece) + s'.slab.hits x ≤
      s.slab.hits x ∨
    x ∈ opened s.pages.mm s'.pages.mm ∧
      (ret.elim 0 fun header => Pieces.hits x header.piece) + s'.slab.hits x ≤ s.slab.hits x + 1

/-! ### Blocks -/

section Blocks

variable {mm mm' mm'' : Mem} {b b' : BlockRef} {x : ℕ}

lemma Mem.Keeps.refl (mm : Mem) : mm.Keeps mm := ⟨.refl _, fun _ h => h, fun _ _ => rfl⟩

lemma Mem.Keeps.trans (h : mm.Keeps mm') (h' : mm'.Keeps mm'') : mm.Keeps mm'' where
  geometry := h.geometry.trans h'.geometry
  taken b hb := h'.taken b (h.taken b hb)
  flags b hb := (h'.flags b (h.taken b hb)).trans (h.flags b hb)

lemma Mem.Keeps.of_grows {E : Set BlockRef} {s s' : PageMem} (h : Grows E s s') :
    s.mm.Keeps s'.mm where
  geometry := h.geometry
  taken _ := h.taken
  flags b hb := by
    have heq := congrArg (Option.map Prod.snd) (h.block b hb)
    rwa [Option.map_map, Option.map_map] at heq

lemma Mem.setBlock_keeps (mm : Mem) (b : BlockRef) {f : MemBlock → MemBlock}
    (hf : ∀ block, (f block).flags = block.flags) : mm.Keeps (mm.setBlock b f) where
  geometry := Mem.setBlock_sameGeometry ..
  taken d hd := by
    obtain ⟨ms, hms, hkind, hbit, hset⟩ := hd
    rw [Taken, Mem.setBlock, Mem.setSection_get, hms]
    split_ifs
    · exact ⟨_, rfl, hkind, hbit, hset⟩
    · exact ⟨_, rfl, hkind, hbit, hset⟩
  flags d _ := by
    rw [Mem.setBlock_block?]
    split_ifs
    · rw [Option.map_map]
      exact congrArg (Option.map · _) (funext hf)
    · rfl

lemma Mem.Keeps.slabBlock (h : mm.Keeps mm') (hb : SlabBlock mm b) : SlabBlock mm' b :=
  ⟨h.taken b hb.1, (h.flags b hb.1).trans hb.2⟩

lemma SameGeometry.blockBytes (h : SameGeometry mm mm') (b : BlockRef) :
    mm.blockBytes b ⊆ mm'.blockBytes b := by
  rintro x ⟨ms, hms, hkind, hbit, hx⟩
  obtain ⟨ms', hms', hkind', hbase, -, hnr⟩ := h.forward hms
  exact ⟨ms', hms', hkind'.trans hkind, hnr ▸ hbit, hbase ▸ hx⟩

/-- The bytes of a block lie in its section. -/
lemma Layout.blockBytes (hmm : Layout mm) (hx : x ∈ mm.blockBytes b) :
    ∃ ms, mm.memSections[b.sec]? = some ms ∧ ms.kind = .block ∧
      b.bit = (x - ms.phyBase) / MEM_BLOCK_SIZE ∧ ms.phyBase ≤ x ∧ x < ms.phyBase + ms.size := by
  obtain ⟨ms, hms, hkind, hbit, hlo, hhi⟩ := hx
  have hsize := hmm.size ms (List.mem_of_getElem? hms)
  rw [hkind, SectionKind.unit] at hsize
  have hle : b.bit * MEM_BLOCK_SIZE + MEM_BLOCK_SIZE ≤ ms.nrBlocks * MEM_BLOCK_SIZE := by
    rw [← Nat.succ_mul]
    exact Nat.mul_le_mul_right _ hbit
  refine ⟨ms, hms, hkind, ?_, by omega, by omega⟩
  symm
  rw [Nat.div_eq_iff (by decide)]
  omega

/-- A byte is in one block. -/
lemma Layout.block_unique (hmm : Layout mm) (hx : x ∈ mm.blockBytes b)
    (hx' : x ∈ mm.blockBytes b') : b = b' := by
  obtain ⟨ms, hms, -, hbit, hlo, hhi⟩ := hmm.blockBytes hx
  obtain ⟨ms', hms', -, hbit', hlo', hhi'⟩ := hmm.blockBytes hx'
  have hsec : b.sec = b'.sec := by
    by_contra hne
    have := hmm.apart b.sec b'.sec ms ms' hms hms' hne
    omega
  rw [hsec, hms', Option.some.injEq] at hms
  subst hms
  cases b
  cases b'
  simp_all

/-- The address of a byte leads to its block. -/
lemma Layout.addrToMemBlock (hmm : Layout mm) (hx : x ∈ mm.blockBytes b) :
    Mm.addrToMemBlock mm x = some b := by
  obtain ⟨ms, hms, hkind, hbit, hlo, hhi⟩ := hmm.blockBytes hx
  rw [Mm.addrToMemBlock, hmm.addrToMemSection hms hlo hhi]
  simp only [hms, hkind, if_true]
  rw [Nat.shiftRight_eq_div_pow, show 2 ^ MEM_BLOCK_SHIFT = MEM_BLOCK_SIZE from rfl, ← hbit]

lemma Layout.byte_lt (hmm : Layout mm) (hx : x ∈ mm.blockBytes b) : x < 2 ^ 64 := by
  obtain ⟨ms, hms, -, -, -, hhi⟩ := hmm.blockBytes hx
  exact hhi.trans (hmm.bound ms (List.mem_of_getElem? hms))

end Blocks

/-! ### Pools -/

section Pools

variable {slab : Slab} {s s' s'' : Heap} {header : SlabHeader} {l : List SlabHeader}
  {id n size : ℕ} {ret : Option SlabHeader}

lemma Slab.setPool_weight (slab : Slab) (hid : id < POOL_NR) (l : List SlabHeader)
    (w : SlabHeader → ℕ) :
    (slab.setPool id l).weight w + ((slab.pool id).map w).sum = slab.weight w + (l.map w).sum :=
  Pieces.sum_update (Finset.mem_range.2 hid) slab.pool (fun l => (l.map w).sum) l

lemma Slab.setPool_hits (slab : Slab) (hid : id < POOL_NR) (l : List SlabHeader) (x : ℕ) :
    (slab.setPool id l).hits x + Pieces.listHits x ((slab.pool id).map SlabHeader.piece) =
      slab.hits x + Pieces.listHits x (l.map SlabHeader.piece) := by
  have h := slab.setPool_weight hid l fun header => Pieces.hits x header.piece
  simp only [Slab.hits, Slab.setPool, Pieces.listHits, List.map_map, Function.comp_def] at h ⊢
  omega

lemma Slab.add_hits (slab : Slab) (hid : id < POOL_NR) (header : SlabHeader) (x : ℕ) :
    (slab.add id header).hits x = slab.hits x + Pieces.hits x header.piece := by
  have h := slab.setPool_hits hid (header :: slab.pool id) x
  rw [List.map_cons, Pieces.listHits_cons] at h
  exact Nat.add_right_cancel (h.trans (by omega))

lemma Slab.Sorted.setPool (hs : slab.Sorted) (hl : ∀ header ∈ l, header.Fits id) :
    (slab.setPool id l).Sorted := by
  intro i hi header hmem
  change header ∈ Function.update slab.pool id l i at hmem
  by_cases hid : i = id
  · subst hid
    rw [Function.update_self] at hmem
    exact hl header hmem
  · rw [Function.update_of_ne hid] at hmem
    exact hs i hi header hmem

lemma Slab.Sorted.add (hs : slab.Sorted) (hid : id < POOL_NR) (hfits : header.Fits id) :
    (slab.add id header).Sorted :=
  hs.setPool (List.forall_mem_cons.2 ⟨hfits, hs id hid⟩)

lemma SlabHeader.Fits.zero (h : header.Fits id) (hid : id ≤ FREE_POOL) : header.Fits 0 where
  size _ := by
    have := h.size hid
    omega
  bound := h.bound

/-- Up to the limit, the pool of a size is the last one that is not too large for it. -/
lemma slabPoolId_eq (hlo : 16 ≤ size) (hhi : size ≤ SLAB_SIZE_LIMIT) :
    ∃ id : ℕ, slabPoolId size = id ∧ id ≤ FREE_POOL ∧ 16 * (id + 1) ≤ size ∧
      (id < FREE_POOL → size < 16 * (id + 2)) := by
  have hlimit : SLAB_SIZE_LIMIT = 2 ^ 35 := rfl
  have hfree : FREE_POOL = 32 := rfl
  have hshift : size >>> 4 = size / 16 := Nat.shiftRight_eq_div_pow size 4
  have hsub : sub64 (size / 16) 1 = size / 16 - 1 := sub64_of_le (by omega) (by omega)
  have hint : ((size / 16 - 1 : ℕ) : ℤ).bmod (2 ^ 32) = (size / 16 - 1 : ℕ) :=
    Int.bmod_eq_of_le (by omega) (by omega)
  have hid : slabPoolId size =
      if (FREE_POOL : ℤ) ≤ (size / 16 - 1 : ℕ) then (FREE_POOL : ℤ) else (size / 16 - 1 : ℕ) := by
    unfold slabPoolId
    simp only [hshift, hsub, hint]
  rw [hid]
  split_ifs with hbig
  · exact ⟨FREE_POOL, rfl, le_rfl, by omega, fun h => absurd h (lt_irrefl _)⟩
  · exact ⟨size / 16 - 1, rfl, by omega, by omega, fun _ => by omega⟩

lemma Heap.Gives.refl (hs : s.Ordered) (n : ℕ) : s.Gives n none s where
  ordered := hs
  keeps := .refl _
  slab := by simp
  hits x := .inl (by simp)

/-- A strategy that finds nothing may change the heap before the next one. -/
lemma Heap.Gives.trans (h : s.Gives n none s') (h' : s'.Gives n ret s'') : s.Gives n ret s'' where
  ordered := h'.ordered
  keeps := h.keeps.trans h'.keeps
  slab := h'.slab
  hits x := by
    have hfirst := h.hits x
    simp only [Option.elim_none, Nat.zero_add] at hfirst
    have hopened : x ∈ opened s.pages.mm s'.pages.mm → x ∈ opened s.pages.mm s''.pages.mm :=
      fun ⟨b, hb, hslab, hx⟩ =>
        ⟨b, hb, h'.keeps.slabBlock hslab, h'.keeps.geometry.blockBytes b hx⟩
    have hopened' : x ∈ opened s'.pages.mm s''.pages.mm → x ∈ opened s.pages.mm s''.pages.mm :=
      fun ⟨b, hb, hslab, hx⟩ => ⟨b, fun ht => hb (h.keeps.taken b ht), hslab, hx⟩
    rcases hfirst with hle | ⟨hx, hle⟩
    · exact (h'.hits x).imp (fun h => h.trans hle) fun ⟨hx', hle'⟩ => ⟨hopened' hx', by omega⟩
    · refine .inr ⟨hopened hx, ?_⟩
      rcases h'.hits x with hle' | ⟨⟨b', hnot, hslab', hx'⟩, -⟩
      · omega
      · -- the block of the byte is taken once
        obtain ⟨b, -, hslab, hx⟩ := hx
        have hb := h'.ordered.layout.block_unique (h'.keeps.geometry.blockBytes b hx) hx'
        exact absurd hslab.1 (hb ▸ hnot)

/-- A slab is taken out of a pool. -/
lemma Heap.Ordered.takeSlab (hs : s.Ordered) (hid : id ≤ FREE_POOL)
    (hl : (s.slab.pool id).Perm (header :: l)) (hn : n ≤ header.size) :
    s.Gives n (some header) { s with slab := s.slab.setPool id l } := by
  have hnr : FREE_POOL < POOL_NR := by decide
  have hfits : ∀ h ∈ header :: l, h.Fits id := fun h hh =>
    hs.sorted id (by omega) h (hl.mem_iff.2 hh)
  refine ⟨⟨hs.layout, hs.sorted.setPool fun h hh => hfits h (List.mem_cons_of_mem _ hh), hs.rest⟩,
    .refl _, fun h hh => ?_, fun x => .inl ?_⟩
  · obtain rfl := Option.some.inj hh
    exact ⟨hn, (hfits header List.mem_cons_self).zero hid⟩
  · have hset := s.slab.setPool_hits (show id < POOL_NR by omega) l x
    have hperm : Pieces.listHits x ((s.slab.pool id).map SlabHeader.piece) =
        Pieces.listHits x ((header :: l).map SlabHeader.piece) :=
      ((hl.map _).map _).sum_eq
    rw [List.map_cons, Pieces.listHits_cons] at hperm
    rw [Option.elim_some]
    dsimp only
    omega

end Pools

/-! ### What the header says

A strategy leaves `header->size` of the slab that it returns as it is in the pool, or writes it. -/

namespace Heap

/-- The size in the header of a slab that `get_slab_from_pool` returns -/
def poolSize (size : ℕ) (s : Heap) : ℕ :=
  ((s.slab.pool (slabPoolId size).toNat).head?.map SlabHeader.size).getD 0

/-- The slab at the start of a rest of `freeSize` bytes has the end of it if that is too small. -/
def restSize (freeSize size : ℕ) : ℕ :=
  let left := freeSize - slabSize size
  if left < slabSize SLAB_MIN_DATA_SIZE then size + left else size

/-- The size in the header of a slab that `get_big_slab` returns -/
def bigSize (size : ℕ) (s : Heap) : ℕ :=
  let id := (slabPoolId size).toNat
  (findPool s.slab.pool (CACHE_POOL - id) id).elim 0 fun (_, header, _) => header.size

/-- The size in the header for each of `alloc_func` -/
def headerSizes : List (ℕ → Heap → ℕ) :=
  [poolSize, fun size _ => size, fun size _ => size, fun size s => restSize s.slab.freeSize size,
    fun size _ => restSize MEM_BLOCK_SIZE size, bigSize]

/-- The size that the first strategy with a slab leaves in the header -/
def firstSize (size : ℕ) : List ((ℕ → Heap → Option (Option ℕ × Heap)) × (ℕ → Heap → ℕ)) → Heap → ℕ
  | [], _ => 0
  | (func, headerSize) :: rest, s =>
    match func size s with
    | some (none, s) => firstSize size rest s
    | _ => headerSize size s

/-- The size in the header of the slab that `malloc` returns -/
def mallocSize (size : ℕ) (s : Heap) : ℕ :=
  firstSize (balign size SLAB_MIN_DATA_SIZE) (allocFunc.zip headerSizes) s

/-- A strategy returns, and its slab has the size that its header says. -/
def Answers (n : ℕ) (s : Heap) (out : Option (Option ℕ × Heap)) (headerSize : ℕ) : Prop :=
  ∃ ret s', out = some (ret.map SlabHeader.toAddr, s') ∧ s.Gives n ret s' ∧
    ∀ header ∈ ret, header.size = headerSize

end Heap

/-- A size that `malloc` asks its strategies for -/
structure Asks (n size : ℕ) : Prop where
  le : n ≤ size
  pos : 16 ≤ size
  dvd : 16 ∣ size
  limit : size ≤ SLAB_SIZE_LIMIT

/-! ### The strategies that take a slab of a pool -/

section Strategies

variable {s s' : Heap} {n size headerSize : ℕ}

lemma Heap.Ordered.answers_none (hs : s.Ordered) (n headerSize : ℕ) :
    s.Answers n (some (none, s)) headerSize :=
  ⟨none, s, rfl, .refl hs n, by simp⟩

lemma getSlabFromPool_answers (hs : s.Ordered) (hsize : Asks n size) :
    s.Answers n (s.getSlabFromPool size) (s.poolSize size) := by
  obtain ⟨id, hid, hle, hlo, hhi⟩ := slabPoolId_eq hsize.pos hsize.limit
  have hnr : FREE_POOL < POOL_NR := by decide
  rw [Heap.getSlabFromPool, Heap.poolSize, hid]
  simp only [Int.toNat_natCast]
  rw [if_neg (show ¬ (id : ℤ) < 0 by omega)]
  split_ifs with hbig
  · exact hs.answers_none n _
  · cases hpool : s.slab.pool id with
    | nil => exact hs.answers_none n _
    | cons header rest =>
      have hfits := (hs.sorted id (by omega) header (by simp [hpool])).size hle
      have hlt := hhi (by omega)
      have hdvd := hsize.dvd
      have hn := hsize.le
      exact ⟨some header, _, rfl, hs.takeSlab hle (.of_eq hpool) (by omega), by simp⟩

lemma getSlabFromBigPool_answers (hs : s.Ordered) (hsize : Asks n size) :
    s.Answers n (s.getSlabFromBigPool size) size := by
  rw [Heap.getSlabFromBigPool]
  split_ifs with hsmall
  · exact hs.answers_none n _
  · cases hfind : (s.slab.pool FREE_POOL).find? fun header => header.size = size with
    | none => exact hs.answers_none n _
    | some header =>
      have heq : header.size = size := by simpa using List.find?_some hfind
      have hperm := List.perm_cons_erase (List.mem_of_find?_eq_some hfind)
      have hn := hsize.le
      exact ⟨some header, _, rfl, hs.takeSlab le_rfl hperm (by omega), by simpa using heq⟩

/-! ### The strategies that cut a slab -/

/-- In the cache only the address space is asked of a slab. -/
lemma fits_cache_iff {header : SlabHeader} :
    header.Fits CACHE_POOL ↔ header.addr + (SLAB_HEADER_SIZE + header.size) ≤ 2 ^ 64 :=
  ⟨SlabHeader.Fits.bound, fun h => ⟨fun hle => absurd hle (by decide), h⟩⟩

lemma Asks.slabSize (hsize : Asks n size) : slabSize size = size + SLAB_HEADER_SIZE := by
  have hlimit := hsize.limit
  have hpow : SLAB_SIZE_LIMIT = 2 ^ 35 := rfl
  have hheader : SLAB_HEADER_SIZE = 16 := rfl
  exact add64_of_lt (by omega)

lemma hits_piece_le (x : ℕ) {base size len : ℕ} (h : SLAB_HEADER_SIZE + size ≤ len) :
    Pieces.hits x (SlabHeader.piece ⟨base, size⟩) ≤ Pieces.hits x (base, len) :=
  Pieces.hits_mono le_rfl (Nat.add_le_add_left h base)

/-- Memory that is given to the slab goes to one pool, or is dropped. -/
lemma addSlabMem_spec {slab : Slab} (hs : slab.Sorted) {base len : ℕ}
    (hend : base + len ≤ 2 ^ 64) :
    (addSlabMem slab base len).Sorted ∧
      (∀ x, (addSlabMem slab base len).hits x ≤ slab.hits x + Pieces.hits x (base, len)) ∧
      (addSlabMem slab base len).slabFree = slab.slabFree ∧
      (addSlabMem slab base len).freeSize = slab.freeSize := by
  have hheader : SLAB_HEADER_SIZE = 16 := rfl
  have hlimit : SLAB_SIZE_LIMIT = 2 ^ 35 := rfl
  have hmin : SLAB_MIN_SIZE = 32 := rfl
  have hdata : SLAB_MIN_DATA_SIZE = 16 := rfl
  have hlast : slabSize SLAB_MAX_DATA_SIZE = 528 := by decide +kernel
  have hnr : FREE_POOL < POOL_NR := by decide
  rw [addSlabMem, hlast]
  dsimp only
  split_ifs with hsmall hpool hless
  · exact ⟨hs, fun x => Nat.le_add_right .., rfl, rfl⟩
  · exact ⟨hs, fun x => Nat.le_add_right .., rfl, rfl⟩
  · have hround : align (len - SLAB_HEADER_SIZE) SLAB_MIN_DATA_SIZE =
        (len - SLAB_HEADER_SIZE) / 16 * 16 := align_pow (k := 4) (by omega) (by norm_num)
    rw [hround] at hless ⊢
    obtain ⟨id, hid, hle, hlo, -⟩ :=
      slabPoolId_eq (show 16 ≤ (len - SLAB_HEADER_SIZE) / 16 * 16 by omega) (by omega)
    rw [hid, Int.toNat_natCast]
    refine ⟨hs.add (by omega) ⟨fun _ => ⟨hlo, by dsimp only; omega⟩, by dsimp only; omega⟩,
      fun x => ?_, rfl, rfl⟩
    rw [slab.add_hits (by omega)]
    exact Nat.add_le_add_left (hits_piece_le x (by omega)) _
  · refine ⟨hs.add (by decide) (fits_cache_iff.2 (by dsimp only; omega)), fun x => ?_, rfl, rfl⟩
    rw [slab.add_hits (by decide)]
    exact Nat.add_le_add_left (hits_piece_le x (by omega)) _

/-- The bytes behind the slab that is cut from another one. They are lost from 4GiB on. -/
lemma left_of_cut (hsize : Asks n size) {header : SlabHeader} (hfits : header.Fits CACHE_POOL)
    (hle : size ≤ header.size) {base left : ℕ} (hbase : base = add64 header.addr (slabSize size))
    (hleft : left = (header.size - size) % 2 ^ 32) :
    base + left ≤ 2 ^ 64 ∧ ∀ x, Pieces.hits x (header.addr, SLAB_HEADER_SIZE + size) +
      Pieces.hits x (base, left) ≤ Pieces.hits x header.piece := by
  have hbound := hfits.bound
  have hmod : (header.size - size) % 2 ^ 32 ≤ header.size - size := Nat.mod_le ..
  have hpiece : ∀ x, Pieces.hits x header.piece =
      Pieces.hits x (header.addr, SLAB_HEADER_SIZE + size) +
        Pieces.hits x (header.addr + (SLAB_HEADER_SIZE + size), header.size - size) := by
    intro x
    rw [← Pieces.hits_add, SlabHeader.piece, Nat.add_assoc, Nat.add_sub_cancel' hle]
  rw [hsize.slabSize, Nat.add_comm size] at hbase
  by_cases hall : header.size = size
  · rw [hall, Nat.sub_self, Nat.zero_mod] at hleft
    subst hleft
    refine ⟨hbase ▸ (add64_lt _ _).le, fun x => ?_⟩
    rw [Pieces.hits_zero, hpiece]
    exact Nat.add_le_add_left (Nat.zero_le _) _
  · rw [add64_of_lt (by omega)] at hbase
    refine ⟨by omega, fun x => ?_⟩
    rw [hpiece]
    exact Nat.add_le_add_left
      (Pieces.hits_mono (by dsimp only; omega) (by dsimp only; omega)) _

/-- A slab of the cache is cut, and what is left stays in the cache or is small. -/
lemma cutCache_spec (hsize : Asks n size) {l pool : List SlabHeader} {ret : SlabHeader}
    {left : Option (ℕ × ℕ)} (h : Heap.cutCache size l = some (ret, pool, left))
    (hl : ∀ header ∈ l, header.Fits CACHE_POOL) :
    ret.addr + (SLAB_HEADER_SIZE + size) ≤ 2 ^ 64 ∧
      (∀ header ∈ pool, header.Fits CACHE_POOL) ∧ (∀ p ∈ left, p.1 + p.2 ≤ 2 ^ 64) ∧
      ∀ x, Pieces.hits x (ret.addr, SLAB_HEADER_SIZE + size) +
        Pieces.listHits x (pool.map SlabHeader.piece) + left.elim 0 (Pieces.hits x) ≤
          Pieces.listHits x (l.map SlabHeader.piece) := by
  induction l generalizing pool with
  | nil => cases h
  | cons header rest ih =>
    obtain ⟨hfits, hrest⟩ := List.forall_mem_cons.1 hl
    have hbound := hfits.bound
    rw [Heap.cutCache] at h
    by_cases hlt : header.size < size
    · rw [if_pos hlt, Option.map_eq_some_iff] at h
      obtain ⟨⟨ret', pool', left'⟩, hcut, heq⟩ := h
      simp only [Prod.mk.injEq] at heq
      obtain ⟨rfl, rfl, rfl⟩ := heq
      obtain ⟨hend, hpool, hleft, hhits⟩ := ih hcut hrest
      refine ⟨hend, List.forall_mem_cons.2 ⟨hfits, hpool⟩, hleft, fun x => ?_⟩
      have := hhits x
      rw [List.map_cons, List.map_cons, Pieces.listHits_cons, Pieces.listHits_cons]
      omega
    · rw [if_neg hlt] at h
      obtain ⟨hend, hcut⟩ := left_of_cut hsize hfits (not_lt.1 hlt) rfl rfl
      have hheader : SLAB_HEADER_SIZE ≤ slabSize 80 := by decide +kernel
      dsimp only at h
      generalize add64 header.addr (slabSize size) = base at h hend hcut
      generalize (header.size - size) % 2 ^ 32 = leftSize at h hend hcut
      split_ifs at h with hfew
      · obtain ⟨rfl, rfl, rfl⟩ : header = ret ∧ rest = pool ∧ some (base, leftSize) = left := by
          simpa using h
        refine ⟨by omega, hrest, by simpa using hend, fun x => ?_⟩
        have := hcut x
        rw [List.map_cons, Pieces.listHits_cons, Option.elim_some]
        omega
      · obtain ⟨rfl, rfl, rfl⟩ :
            header = ret ∧ ⟨base, leftSize - SLAB_HEADER_SIZE⟩ :: rest = pool ∧ none = left := by
          simpa using h
        refine ⟨by omega, List.forall_mem_cons.2 ⟨fits_cache_iff.2 (by dsimp only; omega), hrest⟩,
          by simp, fun x => ?_⟩
        have hcutx := hcut x
        have hpiece : Pieces.hits x (SlabHeader.piece ⟨base, leftSize - SLAB_HEADER_SIZE⟩) ≤
            Pieces.hits x (base, leftSize) := hits_piece_le x (by omega)
        rw [List.map_cons, List.map_cons, Pieces.listHits_cons, Pieces.listHits_cons,
          Option.elim_none]
        omega

lemma getSlabFromCache_answers (hs : s.Ordered) (hsize : Asks n size) :
    s.Answers n (s.getSlabFromCache size) size := by
  have hnr : CACHE_POOL < POOL_NR := by decide
  rw [Heap.getSlabFromCache]
  cases hcut : Heap.cutCache size (s.slab.pool CACHE_POOL) with
  | none => exact hs.answers_none n _
  | some r =>
    obtain ⟨ret, pool, left⟩ := r
    obtain ⟨hend, hpool, hleft, hhits⟩ := cutCache_spec hsize hcut (hs.sorted CACHE_POOL hnr)
    have hset := s.slab.setPool_hits hnr pool
    have hsorted := hs.sorted.setPool (l := pool) hpool
    have hfits : SlabHeader.Fits ⟨ret.addr, size⟩ 0 :=
      ⟨fun _ => ⟨hsize.pos, hsize.limit⟩, hend⟩
    refine ⟨some ⟨ret.addr, size⟩, _, rfl, ?_, by simp⟩
    cases left with
    | none =>
      refine ⟨⟨hs.layout, hsorted, hs.rest⟩, .refl _, by simpa using ⟨hsize.le, hfits⟩,
        fun x => .inl ?_⟩
      have hcutx := hhits x
      have hsetx := hset x
      rw [Option.elim_none] at hcutx
      rw [Option.elim_some]
      dsimp only [SlabHeader.piece, Option.elim_none]
      omega
    | some p =>
      obtain ⟨base, len⟩ := p
      have hbound : base + len ≤ 2 ^ 64 := hleft (base, len) rfl
      obtain ⟨hadd, hle, hfree, hsize'⟩ := addSlabMem_spec hsorted hbound
      refine ⟨⟨hs.layout, hadd, ?_⟩, .refl _, by simpa using ⟨hsize.le, hfits⟩, fun x => .inl ?_⟩
      · dsimp only [Option.elim_some]
        rw [hfree, hsize']
        exact hs.rest
      · have hcutx := hhits x
        have hsetx := hset x
        have haddx := hle x
        rw [Option.elim_some] at hcutx
        rw [Option.elim_some]
        dsimp only [SlabHeader.piece, Option.elim_some]
        omega

/-! ### The rest of a block -/

/-- The address of the rest of a block leads to its block, and the rest is in the address space. -/
lemma Heap.Ordered.restBlock (hs : s.Ordered) (hfree : 0 < s.slab.freeSize) :
    ∃ b, SlabBlock s.pages.mm b ∧ addrToMemBlock s.pages.mm s.slab.slabFree = some b ∧
      pieceSet (s.slab.slabFree, s.slab.freeSize) ⊆ s.pages.mm.blockBytes b ∧
      s.slab.freeSize ≤ MEM_BLOCK_SIZE ∧ s.slab.slabFree + s.slab.freeSize ≤ 2 ^ 64 := by
  obtain ⟨b, hb, hsub⟩ := hs.rest hfree.ne'
  have hfirst := hsub (show s.slab.slabFree ∈ pieceSet (s.slab.slabFree, s.slab.freeSize) from
    Set.mem_Ico.2 (by dsimp only; omega))
  have hlast := hsub (show s.slab.slabFree + (s.slab.freeSize - 1) ∈
    pieceSet (s.slab.slabFree, s.slab.freeSize) from Set.mem_Ico.2 (by dsimp only; omega))
  have hlt := hs.layout.byte_lt hlast
  obtain ⟨ms, hms, -, -, hlo, -⟩ := hfirst
  obtain ⟨ms', hms', -, -, -, hhi⟩ := hlast
  rw [hms, Option.some.injEq] at hms'
  subst hms'
  exact ⟨b, hb, hs.layout.addrToMemBlock (hsub (Set.mem_Ico.2 (by dsimp only; omega))), hsub,
    by omega, by omega⟩

/-- The pools and the rest of the block change, and the slabs of the block are counted. -/
lemma Heap.Ordered.change (hs : s.Ordered) {slab : Slab} {ret : Option SlabHeader} (b : BlockRef)
    (hsorted : slab.Sorted)
    (hrest : slab.freeSize ≠ 0 → s.slab.freeSize ≠ 0 ∧
      pieceSet (slab.slabFree, slab.freeSize) ⊆ pieceSet (s.slab.slabFree, s.slab.freeSize))
    (hslab : ∀ header ∈ ret, n ≤ header.size ∧ header.Fits 0)
    (hhits : ∀ x, (ret.elim 0 fun header => Pieces.hits x header.piece) + slab.hits x ≤
      s.slab.hits x) :
    s.Gives n ret (Heap.countSlab { s with slab := slab } b) := by
  have hkeeps : s.pages.mm.Keeps (Heap.countSlab { s with slab := slab } b).pages.mm :=
    s.pages.mm.setBlock_keeps b (f := fun block => { block with freePages := block.freePages + 1 })
      fun _ => rfl
  refine ⟨⟨hs.layout.sameGeometry hkeeps.geometry, hsorted, fun hne => ?_⟩, hkeeps, hslab,
    fun x => .inl (hhits x)⟩
  obtain ⟨hne', hsub⟩ := hrest hne
  obtain ⟨d, hd, hin⟩ := hs.rest hne'
  exact ⟨d, hkeeps.slabBlock hd, (hsub.trans hin).trans (hkeeps.geometry.blockBytes d)⟩

/-- A slab is cut from the rest of a block, with the end of it if that is too small. -/
lemma getSlabFromSlabFree_answers (hs : s.Ordered) (hsize : Asks n size) :
    s.Answers n (s.getSlabFromSlabFree size) (Heap.restSize s.slab.freeSize size) := by
  have hmin : slabSize SLAB_MIN_DATA_SIZE = 32 := by decide +kernel
  have hheader : SLAB_HEADER_SIZE = 16 := rfl
  have hlimit : SLAB_SIZE_LIMIT = 2 ^ 35 := rfl
  have hblock : MEM_BLOCK_SIZE = 2 ^ 21 := rfl
  have hpos := hsize.pos
  have hn := hsize.le
  rw [Heap.getSlabFromSlabFree]
  dsimp only
  by_cases hlt : s.slab.freeSize < slabSize size
  · rw [if_pos hlt]
    exact hs.answers_none n _
  rw [if_neg hlt]
  obtain ⟨b, hb, haddr, hsub, hle, hend⟩ := hs.restBlock (by rw [hsize.slabSize] at hlt; omega)
  rw [haddr, Heap.restSize, hmin, hsize.slabSize]
  rw [hsize.slabSize] at hlt
  have hcut : ∀ x m, Pieces.hits x (s.slab.slabFree, m + (s.slab.freeSize - m)) =
      Pieces.hits x (s.slab.slabFree, m) +
        Pieces.hits x (s.slab.slabFree + m, s.slab.freeSize - m) := fun x m =>
    Pieces.hits_add x _ m _
  by_cases hsmall : s.slab.freeSize - (size + SLAB_HEADER_SIZE) < 32
  · rw [if_pos hsmall, if_pos hsmall]
    refine ⟨some ⟨s.slab.slabFree, size + (s.slab.freeSize - (size + SLAB_HEADER_SIZE))⟩, _, rfl,
      hs.change b hs.sorted (fun h => absurd rfl h) ?_ fun x => ?_, by simp⟩
    · intro header hheader'
      obtain rfl := Option.some.inj hheader'
      exact ⟨by dsimp only; omega, fun _ => ⟨by dsimp only; omega, by dsimp only; omega⟩,
        by dsimp only; omega⟩
    · rw [Option.elim_some, SlabHeader.piece]
      have hall : SLAB_HEADER_SIZE + (size + (s.slab.freeSize - (size + SLAB_HEADER_SIZE))) =
        s.slab.freeSize := by omega
      rw [hall, Slab.hits, Slab.hits, Pieces.hits_zero, Nat.zero_add]
      exact le_rfl
  · have hnext : add64 s.slab.slabFree (size + SLAB_HEADER_SIZE) =
        s.slab.slabFree + (size + SLAB_HEADER_SIZE) := add64_of_lt (by omega)
    rw [if_neg hsmall, if_neg hsmall, hnext]
    refine ⟨some ⟨s.slab.slabFree, size⟩, _, rfl,
      hs.change b hs.sorted (fun _ => ⟨by omega, ?_⟩) ?_ fun x => ?_, by simp⟩
    · exact Set.Ico_subset_Ico (by dsimp only; omega) (by dsimp only; omega)
    · intro header hheader'
      obtain rfl := Option.some.inj hheader'
      exact ⟨hn, fun _ => ⟨hpos, hsize.limit⟩, by dsimp only; omega⟩
    · rw [Option.elim_some, SlabHeader.piece, Slab.hits, Slab.hits, Nat.add_comm SLAB_HEADER_SIZE]
      have hx := hcut x (size + SLAB_HEADER_SIZE)
      rw [Nat.add_sub_cancel' (by omega)] at hx
      dsimp only
      rw [hx, Nat.add_assoc]
      exact le_rfl

/-- The pool for the rest of a block is not the one of the slabs that were freed. -/
lemma restPool_eq {base len : ℕ} (hlo : 32 ≤ len) (hhi : len ≤ MEM_BLOCK_SIZE)
    (hend : base + len ≤ 2 ^ 64) :
    ∃ id, Heap.restPool len = some id ∧ id < POOL_NR ∧ id ≠ FREE_POOL ∧
      SlabHeader.Fits ⟨base, len - SLAB_HEADER_SIZE⟩ id := by
  have hheader : SLAB_HEADER_SIZE = 16 := rfl
  have hlimit : SLAB_SIZE_LIMIT = 2 ^ 35 := rfl
  have hblock : MEM_BLOCK_SIZE = 2 ^ 21 := rfl
  have hnr : FREE_POOL < POOL_NR := by decide
  obtain ⟨id, hid, hle, hsize, -⟩ :=
    slabPoolId_eq (show 16 ≤ len - SLAB_HEADER_SIZE by omega) (by omega)
  have hbound : base + (SLAB_HEADER_SIZE + (len - SLAB_HEADER_SIZE)) ≤ 2 ^ 64 := by omega
  simp only [Heap.restPool, hid]
  by_cases hbig : (FREE_POOL : ℤ) ≤ id
  · rw [if_pos hbig]
    exact ⟨CACHE_POOL, rfl, by decide, by decide, fits_cache_iff.2 hbound⟩
  · rw [if_neg hbig, if_neg (by omega), Int.toNat_natCast]
    exact ⟨id, rfl, by omega, by omega, fun _ => ⟨hsize, by dsimp only; omega⟩, hbound⟩

/-- The rest of a block becomes a slab of a pool. -/
lemma giveRest_gives (hs : s.Ordered) (n : ℕ) :
    ∃ s', s.giveRest = some s' ∧ s.Gives n none s' ∧
      s'.slab.pool FREE_POOL = s.slab.pool FREE_POOL ∧
      (allocMemBlock s'.pages.mm GFB_SLAB = none ↔ allocMemBlock s.pages.mm GFB_SLAB = none) := by
  have hheader : SLAB_HEADER_SIZE = 16 := rfl
  have hmin : slabSize SLAB_MIN_DATA_SIZE = 32 := by decide +kernel
  rw [Heap.giveRest, hmin]
  by_cases hrest : 32 ≤ s.slab.freeSize
  · rw [if_pos hrest]
    obtain ⟨b, -, haddr, -, hle, hend⟩ := hs.restBlock (by omega)
    obtain ⟨id, hid, hlt, hne, hfits⟩ := restPool_eq hrest hle hend
    rw [hid, haddr]
    refine ⟨_, rfl, hs.change b (hs.sorted.add hlt hfits) (fun h => absurd rfl h) (by simp)
      fun x => ?_, Function.update_of_ne hne.symm .., allocMemBlock_congr (Mem.setBlock_supply ..)⟩
    have hadd := s.slab.add_hits hlt ⟨s.slab.slabFree, s.slab.freeSize - SLAB_HEADER_SIZE⟩ x
    have hpiece : SLAB_HEADER_SIZE + (s.slab.freeSize - SLAB_HEADER_SIZE) = s.slab.freeSize := by
      omega
    rw [SlabHeader.piece, hpiece] at hadd
    have hweight := Nat.add_left_cancel (hadd.trans (Nat.add_comm _ _))
    rw [Option.elim_none, Nat.zero_add, Slab.hits, Pieces.hits_zero, Nat.zero_add]
    exact hweight.le
  · rw [if_neg hrest]
    exact ⟨s, rfl, .refl hs n, rfl, Iff.rfl⟩

/-- What the table says of a block that was handed out -/
lemma allocBlock_place {s s' : PageMem} {b : BlockRef} {flags : ℕ}
    (h : allocBlock s flags = some (b, s')) :
    ∃ ms block, s'.mm.memSections[b.sec]? = some ms ∧ ms.kind = .block ∧ b.bit < ms.nrBlocks ∧
      s'.mm.block? b = some block ∧ block.phyBase = ms.phyBase + b.bit * MEM_BLOCK_SIZE ∧
      block.flags = flags &&& GFB_MASK := by
  simp only [allocBlock, Option.map_eq_some_iff, Prod.mk.injEq] at h
  obtain ⟨⟨d, mm⟩, halloc, rfl, rfl⟩ := h
  obtain ⟨ms, hms, hkind, hbit, -, hget⟩ := allocMemBlock_cases halloc
  have hself : mm.memSections[d.sec]? = some (takeBlock ms d.bit flags) := by
    rw [hget, if_pos rfl]
  exact ⟨_, newBlock ms d.bit flags, hself, hkind, hbit, by simp [Mem.block?, hself, takeBlock],
    rfl, rfl⟩

/-- A block is taken, and all of it is to be cut. -/
lemma allocNewSlabBlock_gives (hs : s.Ordered) (n : ℕ) :
    s.allocNewSlabBlock = none ∧ allocMemBlock s.pages.mm GFB_SLAB = none ∨
      ∃ s', s.allocNewSlabBlock = some s' ∧ s.Gives n none s' ∧
        s'.slab.freeSize = MEM_BLOCK_SIZE ∧ s'.slab.pool = s.slab.pool := by
  rw [Heap.allocNewSlabBlock]
  cases halloc : allocBlock s.pages GFB_SLAB with
  | none =>
    rw [allocBlock, Option.map_eq_none_iff] at halloc
    exact .inl ⟨rfl, halloc⟩
  | some r =>
    obtain ⟨b, pages⟩ := r
    obtain ⟨hgrows, hnot, htaken, -, -⟩ := allocBlock_spec halloc
    obtain ⟨ms, block, hms, hkind, hbit, hblock, hbase, hflags⟩ := allocBlock_place halloc
    have hset : pages.mm.Keeps (pages.mm.setBlock b fun block => { block with freePages := 1 }) :=
      Mem.setBlock_keeps _ b fun _ => rfl
    have hkeeps := (Mem.Keeps.of_grows hgrows).trans hset
    have hslab : SlabBlock pages.mm b :=
      ⟨htaken, by rw [hblock, Option.map_some, hflags]; rfl⟩
    have hbytes : pieceSet (block.phyBase, MEM_BLOCK_SIZE) ⊆ pages.mm.blockBytes b := fun x hx =>
      ⟨ms, hms, hkind, hbit, hbase ▸ hx⟩
    have hin := hbytes.trans (hset.geometry.blockBytes b)
    refine .inr ⟨_, rfl, ?_, rfl, rfl⟩
    dsimp only
    rw [hblock, Option.map_some, Option.getD_some]
    refine ⟨⟨hs.layout.sameGeometry hkeeps.geometry, hs.sorted, fun _ =>
      ⟨b, hset.slabBlock hslab, hin⟩⟩, hkeeps, by simp, fun x => ?_⟩
    have hpools : (s.slab.weight fun header => Pieces.hits x header.piece) ≤ s.slab.hits x :=
      Nat.le_add_left ..
    rw [Option.elim_none, Nat.zero_add]
    change Pieces.hits x (block.phyBase, MEM_BLOCK_SIZE) +
      (s.slab.weight fun header => Pieces.hits x header.piece) ≤ _ ∨ _ ∧
      Pieces.hits x (block.phyBase, MEM_BLOCK_SIZE) +
        (s.slab.weight fun header => Pieces.hits x header.piece) ≤ _
    by_cases hx : x ∈ pieceSet (block.phyBase, MEM_BLOCK_SIZE)
    · refine .inr ⟨⟨b, hnot, hset.slabBlock hslab, hin hx⟩, ?_⟩
      have hone := Pieces.hits_le_one x (block.phyBase, MEM_BLOCK_SIZE)
      omega
    · have hzero : Pieces.hits x (block.phyBase, MEM_BLOCK_SIZE) = 0 :=
        not_not.1 fun hne => hx (Pieces.hits_ne_zero_iff.1 hne)
      left
      omega

/-- A new block may be taken, and the request fits it. -/
def Heap.NewBlockServes (s : Heap) (size : ℕ) : Prop :=
  s.slab.allocBlocks ≤ CONFIG_MAX_SLAB_BLOCKS ∧ slabSize size ≤ MEM_BLOCK_SIZE ∧
    allocMemBlock s.pages.mm GFB_SLAB ≠ none

instance (s : Heap) (size : ℕ) : Decidable (s.NewBlockServes size) :=
  inferInstanceAs (Decidable (_ ∧ _ ∧ _))

lemma getNewSlab_answers (hs : s.Ordered) (hsize : Asks n size) :
    s.Answers n (s.getNewSlab size) (Heap.restSize MEM_BLOCK_SIZE size) ∧
      ∀ s', s.getNewSlab size = some (none, s') →
        ¬ s.NewBlockServes size ∧ s'.slab.pool FREE_POOL = s.slab.pool FREE_POOL := by
  rw [Heap.getNewSlab]
  by_cases hmax : CONFIG_MAX_SLAB_BLOCKS < s.slab.allocBlocks
  · rw [if_pos hmax]
    refine ⟨hs.answers_none n _, fun s' h => ?_⟩
    obtain ⟨-, rfl⟩ := Prod.mk.inj (Option.some.inj h)
    exact ⟨fun h => absurd h.1 (by omega), rfl⟩
  rw [if_neg hmax]
  obtain ⟨s₁, hgive, hgives₁, hfreed, hsupply⟩ := giveRest_gives hs n
  rw [hgive, Option.bind_eq_bind, Option.bind_some]
  rcases allocNewSlabBlock_gives hgives₁.ordered n with
    ⟨hnone, hno⟩ | ⟨s₂, hsome, hgives₂, hfree, hpool⟩
  · rw [hnone]
    refine ⟨⟨none, s₁, rfl, hgives₁, by simp⟩, fun s' h => ?_⟩
    obtain ⟨-, rfl⟩ := Prod.mk.inj (Option.some.inj h)
    exact ⟨fun h => h.2.2 (hsupply.1 hno), hfreed⟩
  · rw [hsome]
    dsimp only
    obtain ⟨ret, s₃, hout, hgives₃, hret⟩ := getSlabFromSlabFree_answers hgives₂.ordered hsize
    rw [hfree] at hret
    refine ⟨⟨ret, s₃, hout, (hgives₁.trans hgives₂).trans hgives₃, hret⟩, fun s' h => ?_⟩
    rcases getSlabFromSlabFree_cases h with ⟨-, rfl, hlt⟩ | ⟨hne, -⟩
    · rw [hfree] at hlt
      exact ⟨fun h => absurd h.2.1 (by omega), by rw [hpool, hfreed]⟩
    · exact absurd rfl hne

/-! ### The first slab of the pools -/

lemma findPool_eq_some {pool : ℕ → List SlabHeader} {k id i : ℕ} {header : SlabHeader}
    {rest : List SlabHeader} (h : Heap.findPool pool k id = some (i, header, rest)) :
    id ≤ i ∧ i < id + k ∧ pool i = header :: rest := by
  induction k generalizing id with
  | zero => cases h
  | succ k ih =>
    rw [Heap.findPool] at h
    cases hpool : pool id with
    | nil =>
      rw [hpool] at h
      obtain ⟨hle, hlt, hi⟩ := ih h
      exact ⟨by omega, by omega, hi⟩
    | cons header' rest' =>
      rw [hpool] at h
      simp only [Option.some.injEq, Prod.mk.injEq] at h
      obtain ⟨rfl, rfl, rfl⟩ := h
      exact ⟨le_rfl, by omega, hpool⟩

/-- The pools up to the one of the slabs that were freed have slabs of their size. What the last one
has first is as large as it happens to be. -/
lemma getBigSlab_answers (hs : s.Ordered) (hsize : Asks n size)
    (hfirst : size ≤ SLAB_MAX_DATA_SIZE ∨
      ∀ header ∈ (s.slab.pool FREE_POOL).head?, n ≤ header.size) :
    s.Answers n (s.getBigSlab size) (s.bigSize size) := by
  have hfree : FREE_POOL = 32 := rfl
  have hcache : CACHE_POOL = 33 := rfl
  have hmax : SLAB_MAX_DATA_SIZE = 512 := rfl
  have hnr : POOL_NR = 34 := rfl
  obtain ⟨id, hid, hle, hlo, hhi⟩ := slabPoolId_eq hsize.pos hsize.limit
  have hn := hsize.le
  have hdvd := hsize.dvd
  rw [Heap.getBigSlab, Heap.bigSize, hid]
  simp only [Int.toNat_natCast]
  rw [if_neg (by omega)]
  cases hfind : Heap.findPool s.slab.pool (CACHE_POOL - id) id with
  | none => exact hs.answers_none n _
  | some r =>
    obtain ⟨i, header, rest⟩ := r
    obtain ⟨hge, hlt, hpool⟩ := findPool_eq_some hfind
    have hfits := (hs.sorted i (by omega) header (by simp [hpool])).size (by omega)
    refine ⟨some header, _, rfl, hs.takeSlab (by omega) (.of_eq hpool) ?_, by simp⟩
    rcases hfirst with hsmall | hfirst
    · omega
    · by_cases hi : i = FREE_POOL
      · exact hfirst header (by rw [← hi, hpool]; rfl)
      · omega

/-! ### `malloc` -/

/-- When every strategy that returns a slab returns one that is large enough: for a request of more
than the last pool of one size has, another strategy must have a slab before the pool of the slabs
that were freed is asked for any, or the first one there must do. -/
def Heap.Serves (s : Heap) (n : ℕ) : Prop :=
  let size := balign n SLAB_MIN_DATA_SIZE
  n ≤ SLAB_SIZE_LIMIT ∧
    (n ≤ SLAB_MAX_DATA_SIZE ∨ (∃ header ∈ s.slab.pool FREE_POOL, header.size = size) ∨
      (∃ header ∈ s.slab.pool CACHE_POOL, size ≤ header.size) ∨
      slabSize size ≤ s.slab.freeSize ∨ s.NewBlockServes size ∨
      ∀ header ∈ (s.slab.pool FREE_POOL).head?, n ≤ header.size)

instance (s : Heap) (n : ℕ) : Decidable (s.Serves n) := inferInstanceAs (Decidable (_ ∧ (_ ∨ _)))

lemma asks_balign (hn : n ≠ 0) (hlimit : n ≤ SLAB_SIZE_LIMIT) :
    Asks n (balign n SLAB_MIN_DATA_SIZE) ∧
      (n ≤ SLAB_MAX_DATA_SIZE → balign n SLAB_MIN_DATA_SIZE ≤ SLAB_MAX_DATA_SIZE) := by
  have hpow : SLAB_SIZE_LIMIT = 2 ^ 35 := rfl
  have hmax : SLAB_MAX_DATA_SIZE = 512 := rfl
  have hround : balign n SLAB_MIN_DATA_SIZE = (n + 16 - 1) / 16 * 16 :=
    balign_pow (k := 4) (by omega) (by norm_num)
  rw [hround]
  exact ⟨⟨by omega, by omega, Nat.dvd_mul_left .., by omega⟩, fun h => by omega⟩

/-- A strategy, and the ones after it if it finds nothing -/
lemma Heap.Answers.cons {func : ℕ → Heap → Option (Option ℕ × Heap)} {headerSize : ℕ → Heap → ℕ}
    {funcs : List (ℕ → Heap → Option (Option ℕ × Heap))}
    {rest : List ((ℕ → Heap → Option (Option ℕ × Heap)) × (ℕ → Heap → ℕ))}
    (h : s.Answers n (func size s) (headerSize size s))
    (hrest : ∀ s₁, func size s = some (none, s₁) → s₁.Ordered →
      s₁.Answers n (firstSlab size funcs s₁) (firstSize size rest s₁)) :
    s.Answers n (firstSlab size (func :: funcs) s)
      (firstSize size ((func, headerSize) :: rest) s) := by
  obtain ⟨ret, s₁, hout, hgives, hret⟩ := h
  rw [firstSlab, firstSize, hout]
  cases ret with
  | none =>
    obtain ⟨ret, s₂, hout₂, hgives₂, hret₂⟩ := hrest s₁ hout hgives.ordered
    exact ⟨ret, s₂, hout₂, hgives.trans hgives₂, hret₂⟩
  | some header => exact ⟨some header, s₁, rfl, hgives, hret⟩

/-- If the pool of the slabs that were freed is asked for a size, it has none of that size. -/
lemma getSlabFromBigPool_none (hsize : Asks n size) (hlarge : SLAB_MAX_DATA_SIZE < size)
    (h : s.getSlabFromBigPool size = some (none, s')) :
    s' = s ∧ ∀ header ∈ s.slab.pool FREE_POOL, header.size ≠ size := by
  have hfree : FREE_POOL = 32 := rfl
  have hmax : SLAB_MAX_DATA_SIZE = 512 := rfl
  obtain ⟨id, hid, hle, -, hhi⟩ := slabPoolId_eq hsize.pos hsize.limit
  have hdvd := hsize.dvd
  rw [Heap.getSlabFromBigPool, hid, if_neg (by omega)] at h
  cases hfind : (s.slab.pool FREE_POOL).find? fun header => header.size = size with
  | none =>
    rw [hfind] at h
    obtain ⟨-, rfl⟩ := Prod.mk.inj (Option.some.inj h)
    exact ⟨rfl, by simpa using List.find?_eq_none.1 hfind⟩
  | some header =>
    rw [hfind] at h
    cases (Prod.mk.inj (Option.some.inj h)).1

/-- The strategies one after the other: the last one is asked if no other one has a slab. -/
lemma malloc_answers (hs : s.Ordered) (hn : n ≠ 0) (hserves : s.Serves n) :
    s.Answers n (s.malloc n) (s.mallocSize n) := by
  obtain ⟨hlimit, hwhen⟩ := hserves
  obtain ⟨hsize, hsmall⟩ := asks_balign hn hlimit
  rw [Heap.malloc, if_neg hn, Heap.mallocSize]
  generalize balign n SLAB_MIN_DATA_SIZE = size at hwhen hsize hsmall ⊢
  refine .cons (getSlabFromPool_answers hs hsize) fun s₁ h₁ _ => ?_
  obtain rfl : s₁ = s := by
    rcases getSlabFromPool_cases h₁ with ⟨-, h⟩ | ⟨h, -⟩
    · exact h
    · exact absurd rfl h
  refine .cons (getSlabFromBigPool_answers hs hsize) fun s₂ h₂ _ => ?_
  obtain rfl : s₂ = s₁ := by
    rcases getSlabFromBigPool_cases h₂ with ⟨-, h⟩ | ⟨h, -⟩
    · exact h
    · exact absurd rfl h
  refine .cons (getSlabFromCache_answers hs hsize) fun s₃ h₃ _ => ?_
  obtain ⟨-, rfl, hcache⟩ := (getSlabFromCache_cases h₃).resolve_right fun h => h.1 rfl
  refine .cons (getSlabFromSlabFree_answers hs hsize) fun s₄ h₄ _ => ?_
  obtain ⟨-, rfl, hrest⟩ := (getSlabFromSlabFree_cases h₄).resolve_right fun h => h.1 rfl
  obtain ⟨hnew, hnone⟩ := getNewSlab_answers hs hsize
  refine .cons hnew fun s₅ h₅ hs₅ => ?_
  obtain ⟨hblock, hfreed⟩ := hnone s₅ h₅
  refine .cons (getBigSlab_answers hs₅ hsize ?_) fun s₆ _ hs₆ => hs₆.answers_none n _
  rw [hfreed]
  rcases hwhen with hwhen | ⟨header, hmem, heq⟩ | ⟨header, hmem, hle⟩ | hwhen | hwhen | hwhen
  · exact .inl (hsmall hwhen)
  · rcases Nat.lt_or_ge SLAB_MAX_DATA_SIZE size with hlarge | hle
    · exact absurd heq ((getSlabFromBigPool_none hsize hlarge h₂).2 header hmem)
    · exact .inl hle
  · exact absurd (hcache header hmem) (by omega)
  · omega
  · exact absurd hwhen hblock
  · exact .inr hwhen

end Strategies

end Minos.Mm
