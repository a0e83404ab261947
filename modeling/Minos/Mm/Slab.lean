import Mathlib
import Minos.Mm.Pages

/-!
# The slab allocator

`malloc` takes its memory from pools of free slabs, or cuts it from the rest of a block of 2MiB,
with one strategy after the other. A slab starts with a header, which holds its size.
-/

namespace Minos.Mm

def SLAB_HEADER_SIZE : ℕ := 16
def SLAB_MIN_DATA_SIZE : ℕ := 16

/-- A header and the smallest piece -/
def SLAB_MIN_SIZE : ℕ := 32

/-- `pool_nr`: a pool for each size up to 512, one for what is freed, and one to cut from -/
def POOL_NR : ℕ := 34
def FREE_POOL : ℕ := POOL_NR - 2
def CACHE_POOL : ℕ := POOL_NR - 1

/-- The size of the slabs in the last pool of one size -/
def SLAB_MAX_DATA_SIZE : ℕ := 512

def CONFIG_MAX_SLAB_BLOCKS : ℕ := 10

/-- `struct slab_header`, with its address -/
structure SlabHeader where
  addr : ℕ
  size : ℕ
deriving DecidableEq, Repr

/-- `struct slab`: the rest of the block that is cut, the heads of the pools as lists -/
structure Slab where
  freeSize : ℕ
  slabFree : ℕ
  pool : ℕ → List SlabHeader
  allocBlocks : ℕ

/-- The memory of the page allocator and of the slab allocator -/
structure Heap where
  pages : PageMem
  slab : Slab

/-- `SLAB_SIZE` -/
def slabSize (size : ℕ) : ℕ := add64 size SLAB_HEADER_SIZE

/-- `SLAB_HEADER_TO_ADDR` -/
def SlabHeader.toAddr (header : SlabHeader) : ℕ := add64 header.addr SLAB_HEADER_SIZE

/-- `slab_pool_id`, an `int` -/
def slabPoolId (size : ℕ) : ℤ :=
  let id := (sub64 (size >>> 4) 1 : ℤ).bmod (2 ^ 32)
  if FREE_POOL ≤ id then FREE_POOL else id

/-- `add_slab_to_slab_pool` -/
def Slab.add (slab : Slab) (id : ℕ) (header : SlabHeader) : Slab :=
  { slab with pool := Function.update slab.pool id (header :: slab.pool id) }

def Slab.setPool (slab : Slab) (id : ℕ) (l : List SlabHeader) : Slab :=
  { slab with pool := Function.update slab.pool id l }

/-- `add_slab_mem` -/
def addSlabMem (slab : Slab) (base size : ℕ) : Slab :=
  if size < SLAB_MIN_SIZE then slab
  else if size ≤ slabSize SLAB_MAX_DATA_SIZE then
    let size := align (size - SLAB_HEADER_SIZE) SLAB_MIN_DATA_SIZE
    if size < SLAB_MIN_DATA_SIZE then slab
    else slab.add (slabPoolId size).toNat ⟨base, size⟩
  else slab.add CACHE_POOL ⟨base, size - SLAB_HEADER_SIZE⟩

namespace Heap

/-- A change to the `struct mem_block` behind a pointer -/
def setBlock (s : Heap) (b : BlockRef) (f : MemBlock → MemBlock) : Heap :=
  { s with pages := { s.pages with mm := s.pages.mm.setBlock b f } }

/-- In a block of the slab `free_pages` counts the slabs. -/
def countSlab (s : Heap) (b : BlockRef) : Heap :=
  s.setBlock b fun block => { block with freePages := block.freePages + 1 }

/-- `alloc_new_slab_block` -/
def allocNewSlabBlock (s : Heap) : Option Heap :=
  (allocBlock s.pages GFB_SLAB).map fun (b, pages) =>
    Heap.setBlock ⟨pages, { s.slab with
      freeSize := MEM_BLOCK_SIZE
      slabFree := ((pages.mm.block? b).map MemBlock.phyBase).getD 0
      allocBlocks := s.slab.allocBlocks + 1 }⟩ b fun block => { block with freePages := 1 }

/-! ### The strategies

Each one has a result, which is `none` for `NULL`, and the memory after it. Nothing comes back if it
reads a pool that does not exist, or the block of an address that is in none. -/

/-- `get_slab_from_pool` -/
def getSlabFromPool (size : ℕ) (s : Heap) : Option (Option ℕ × Heap) :=
  let id := slabPoolId size
  if FREE_POOL ≤ id then some (none, s)
  else if id < 0 then none
  else
    match s.slab.pool id.toNat with
    | [] => some (none, s)
    | header :: rest => some (some header.toAddr, { s with slab := s.slab.setPool id.toNat rest })

/-- `get_slab_from_big_pool` -/
def getSlabFromBigPool (size : ℕ) (s : Heap) : Option (Option ℕ × Heap) :=
  if slabPoolId size < FREE_POOL then some (none, s)
  else
    match (s.slab.pool FREE_POOL).find? fun header => header.size = size with
    | none => some (none, s)
    | some header => some (some header.toAddr,
        { s with slab := s.slab.setPool FREE_POOL ((s.slab.pool FREE_POOL).erase header) })

/-- The loop of `get_slab_from_cache`: the slab, the pool after it, and what is left when it is too
small to stay there -/
def cutCache (size : ℕ) : List SlabHeader → Option (SlabHeader × List SlabHeader × Option (ℕ × ℕ))
  | [] => none
  | header :: rest =>
    if header.size < size then
      (cutCache size rest).map fun (ret, pool, left) => (ret, header :: pool, left)
    else
      let base := add64 header.addr (slabSize size)
      let leftSize := (header.size - size) % 2 ^ 32
      if leftSize ≤ slabSize 80 then some (header, rest, some (base, leftSize))
      else some (header, ⟨base, leftSize - SLAB_HEADER_SIZE⟩ :: rest, none)

/-- `get_slab_from_cache` -/
def getSlabFromCache (size : ℕ) (s : Heap) : Option (Option ℕ × Heap) :=
  match cutCache size (s.slab.pool CACHE_POOL) with
  | none => some (none, s)
  | some (ret, pool, left) =>
    let slab := s.slab.setPool CACHE_POOL pool
    some (some ret.toAddr, { s with
      slab := left.elim slab fun (base, leftSize) => addSlabMem slab base leftSize })

/-- `get_slab_from_slab_free` -/
def getSlabFromSlabFree (size : ℕ) (s : Heap) : Option (Option ℕ × Heap) :=
  let requestSize := slabSize size
  if s.slab.freeSize < requestSize then some (none, s)
  else do
    let block ← addrToMemBlock s.pages.mm s.slab.slabFree
    let left := s.slab.freeSize - requestSize
    let slab :=
      if left < slabSize SLAB_MIN_DATA_SIZE then { s.slab with slabFree := 0, freeSize := 0 }
      else { s.slab with slabFree := add64 s.slab.slabFree requestSize, freeSize := left }
    some (some (add64 s.slab.slabFree SLAB_HEADER_SIZE), countSlab { s with slab := slab } block)

/-- The pool for the rest of a block -/
def restPool (freeSize : ℕ) : Option ℕ :=
  let id := slabPoolId (freeSize - SLAB_HEADER_SIZE)
  if FREE_POOL ≤ id then some CACHE_POOL else if id < 0 then none else some id.toNat

/-- The part of `get_new_slab` that gives the rest of the block to a pool -/
def giveRest (s : Heap) : Option Heap :=
  if slabSize SLAB_MIN_DATA_SIZE ≤ s.slab.freeSize then do
    let id ← restPool s.slab.freeSize
    let block ← addrToMemBlock s.pages.mm s.slab.slabFree
    let slab := s.slab.add id ⟨s.slab.slabFree, s.slab.freeSize - SLAB_HEADER_SIZE⟩
    some (countSlab { s with slab := { slab with slabFree := 0, freeSize := 0 } } block)
  else some s

/-- `get_new_slab` -/
def getNewSlab (size : ℕ) (s : Heap) : Option (Option ℕ × Heap) :=
  if CONFIG_MAX_SLAB_BLOCKS < s.slab.allocBlocks then some (none, s)
  else do
    let s ← s.giveRest
    match s.allocNewSlabBlock with
    | none => some (none, s)
    | some s => getSlabFromSlabFree size s

/-- The loop of `get_big_slab` over `n` pools from `id` on -/
def findPool (pool : ℕ → List SlabHeader) : ℕ → ℕ → Option (ℕ × SlabHeader × List SlabHeader)
  | 0, _ => none
  | n + 1, id =>
    match pool id with
    | [] => findPool pool n (id + 1)
    | header :: rest => some (id, header, rest)

/-- `get_big_slab` -/
def getBigSlab (size : ℕ) (s : Heap) : Option (Option ℕ × Heap) :=
  let id := slabPoolId size
  if id < 0 then none
  else
    match findPool s.slab.pool (CACHE_POOL - id.toNat) id.toNat with
    | none => some (none, s)
    | some (i, header, rest) =>
      some (some header.toAddr, { s with slab := s.slab.setPool i rest })

/-- `alloc_func` -/
def allocFunc : List (ℕ → Heap → Option (Option ℕ × Heap)) :=
  [getSlabFromPool, getSlabFromBigPool, getSlabFromCache, getSlabFromSlabFree, getNewSlab,
    getBigSlab]

/-- The loop of `malloc` over the strategies -/
def firstSlab (size : ℕ) :
    List (ℕ → Heap → Option (Option ℕ × Heap)) → Heap → Option (Option ℕ × Heap)
  | [], s => some (none, s)
  | func :: rest, s => do
    let (ret, s) ← func size s
    match ret with
    | some addr => some (some addr, s)
    | none => firstSlab size rest s

/-- `malloc` -/
def malloc (size : ℕ) (s : Heap) : Option (Option ℕ × Heap) :=
  if size = 0 then some (none, s) else firstSlab (balign size SLAB_MIN_DATA_SIZE) allocFunc s

/-- `zalloc`, which clears the memory that it gets -/
def zalloc (size : ℕ) (s : Heap) : Option (Option ℕ × Heap) := s.malloc size

end Heap

end Minos.Mm
