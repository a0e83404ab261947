import Mathlib
import Minos.Lib.Bitmap
import Minos.Lib.Run
import Minos.Mm.Blocks

/-!
# The page allocator

Pages come from page sections or from the 2MiB blocks of a pool. A block of a pool has a page bitmap
and an array of `struct page`, both in a place that `get_page_meta` finds in a meta block of the
pool. The first `struct page` of an allocation has the number of its pages in the low bits of
`phy_base`.
-/

namespace Minos.Mm

open Bitmap Run

def PAGE_METAS_IN_BLOCK : ℕ := 254

/-- `__page_pool` and `__io_pool` -/
inductive PoolKind where
  | page
  | io
deriving DecidableEq, Repr

/-- `struct page_pool` -/
structure PagePool where
  metaList : List BlockRef
  blockList : List BlockRef

/-- The place of the bitmap and the `struct page`s of a block: a meta block, and the number of the
place in it. -/
structure MetaRef where
  block : BlockRef
  bit : ℕ
deriving DecidableEq, Repr

/-- A pointer to a `struct page`, of a block or of a page section. -/
inductive PageRef where
  | block (m : MetaRef) (i : ℕ)
  | sec (sec i : ℕ)
deriving DecidableEq, Repr

/-- An allocation that was not freed: the result, and what was asked for. -/
structure PageAlloc where
  page : PageRef
  addr : ℕ
  count : ℕ
  align : ℕ
deriving DecidableEq, Repr

/-- The memory, the pools, and the allocations that are live. -/
structure PageMem where
  mm : Mem
  pools : PoolKind → PagePool
  /-- `pages_bitmap` of a block of a pool -/
  metaOf : BlockRef → Option MetaRef
  /-- the bits of `pages_bitmap` of a block of a pool -/
  bitmaps : MetaRef → Bitmap
  /-- `phy_base` of the `struct page`s of a block of a pool -/
  metas : MetaRef → ℕ → ℕ
  /-- the bits of `pages_bitmap` of a meta block -/
  metaBitmaps : BlockRef → Bitmap
  live : List PageAlloc

/-! ### `struct page` -/

/-- `addr | (count & 0xfff)` -/
def pageWord (addr count : ℕ) : ℕ := addr ||| (count &&& 0xfff)

/-- `phy_base & 0xfff` -/
def pageCount (word : ℕ) : ℕ := word &&& 0xfff

/-- `phy_base & __PAGE_MASK` -/
def pageAddr (word : ℕ) : ℕ := align word PAGE_SIZE

/-- The words of an allocation of `count` pages at `bit`, whose address is `addr`. -/
def writeMeta (words : ℕ → ℕ) (addr bit count : ℕ) : ℕ → ℕ :=
  fun i =>
    if i = bit then pageWord addr count
    else if bit < i ∧ i < bit + count then (addr + PAGE_SIZE * (i - bit)) ||| 0xfff
    else words i

/-! ### Places -/

def Mem.setSection (mm : Mem) (i : ℕ) (f : MemSection → MemSection) : Mem :=
  { mm with memSections := mm.memSections.modify i f }

/-- The `struct mem_block` behind a pointer is changed. -/
def Mem.setBlock (mm : Mem) (b : BlockRef) (f : MemBlock → MemBlock) : Mem :=
  mm.setSection b.sec fun s => { s with
    blocks := Function.update s.blocks b.bit (f (s.blocks b.bit)) }

def PageMem.setPool (s : PageMem) (p : PoolKind) (f : PagePool → PagePool) : PageMem :=
  { s with pools := Function.update s.pools p (f (s.pools p)) }

/-- `alloc_mem_block`, which clears `pages_bitmap` of the block -/
def allocBlock (s : PageMem) (flags : ℕ) : Option (BlockRef × PageMem) :=
  (allocMemBlock s.mm flags).map fun r =>
    (r.1, { s with mm := r.2, metaOf := Function.update s.metaOf r.1 none })

/-- A place of a meta block is taken. -/
def takeMeta (s : PageMem) (mb : BlockRef) (bit : ℕ) (f : MemBlock → MemBlock) : PageMem :=
  { s with
    mm := s.mm.setBlock mb f
    metaBitmaps := Function.update s.metaBitmaps mb (setBit (s.metaBitmaps mb) bit) }

/-- The end of `get_page_meta`, with a new meta block. -/
def newMetaBlock (s : PageMem) (p : PoolKind) : Option MetaRef × PageMem :=
  match allocBlock s GPF_PAGE_META with
  | none => (none, s)
  | some (mb, s) =>
    let s := { s with metaBitmaps := Function.update s.metaBitmaps mb fun _ => false }
    let s := takeMeta s mb 0 fun block =>
      { block with freePages := PAGE_METAS_IN_BLOCK - 1, bmCurrent := 1 }
    (some ⟨mb, 0⟩, s.setPool p fun pool => { pool with metaList := mb :: pool.metaList })

/-- The loop of `get_page_meta` over the rest of the meta blocks of the pool. -/
def getPageMetaFrom (p : PoolKind) : List BlockRef → PageMem → Option MetaRef × PageMem
  | [], s => newMetaBlock s p
  | mb :: rest, s =>
    match s.mm.block? mb with
    | none => (none, s)
    | some block =>
      let bit := findNextZeroBitLoop (s.metaBitmaps mb) PAGE_METAS_IN_BLOCK block.bmCurrent
      let drop (s : PageMem) := s.setPool p fun pool => { pool with
        metaList := pool.metaList.erase mb }
      if PAGE_METAS_IN_BLOCK ≤ bit then getPageMetaFrom p rest (drop s)
      else
        let s := takeMeta s mb bit fun block => { block with
          freePages := block.freePages - 1
          bmCurrent := if bit + 1 = PAGE_METAS_IN_BLOCK then 0 else bit + 1 }
        (some ⟨mb, bit⟩, if block.freePages - 1 = 0 then drop s else s)

/-- `get_page_meta` -/
def getPageMeta (s : PageMem) (p : PoolKind) : Option MetaRef × PageMem :=
  getPageMetaFrom p (s.pools p).metaList s

/-! ### Allocation -/

/-- The search of `alloc_pages_from_block`. -/
def findPages (m : Bitmap) (bmCurrent count align : ℕ) : ℕ :=
  if count = 1 then findNextZeroBit m PAGES_IN_BLOCK bmCurrent
  else findNextZeroAreaAlign m PAGES_IN_BLOCK 0 count align

/-- The pages `bit` to `bit + count` of the block are taken. -/
def takePages (s : PageMem) (b : BlockRef) (m : MetaRef) (addr bit count align : ℕ) : PageMem :=
  { s with
    mm := s.mm.setBlock b fun block => { block with
      freePages := block.freePages - count
      bmCurrent :=
        if count = 1 ∨ align = 1 then (if bit + count = PAGES_IN_BLOCK then 0 else bit + count)
        else block.bmCurrent }
    bitmaps := Function.update s.bitmaps m (setRange (s.bitmaps m) bit count)
    metas := Function.update s.metas m (writeMeta (s.metas m) addr bit count) }

/-- `alloc_pages_from_block` -/
def allocPagesFromBlock (s : PageMem) (b : BlockRef) (count align : ℕ) :
    Option (PageRef × PageMem) :=
  match s.mm.block? b, s.metaOf b with
  | some block, some m =>
    if block.freePages < count then none
    else
      let bit := findPages (s.bitmaps m) block.bmCurrent count align
      if PAGES_IN_BLOCK ≤ bit then none
      else some (.block m bit,
        takePages s b m (block.phyBase + bit <<< 12) bit count align)
  | _, _ => none

/-- The loop of `alloc_pages_from_pool` over the rest of the blocks of the pool. -/
def allocPagesFromBlocks (count align : ℕ) (p : PoolKind) :
    List BlockRef → PageMem → Option (PageRef × PageMem)
  | [], _ => none
  | b :: rest, s =>
    match allocPagesFromBlock s b count align with
    | none => allocPagesFromBlocks count align p rest s
    | some (page, s) =>
      some (page, if (s.mm.block? b).any fun block => block.freePages = 0 then
        s.setPool p fun pool => { pool with blockList := pool.blockList.erase b }
      else s)

/-- The block gets its bitmap and joins the pool. -/
def joinPool (s : PageMem) (p : PoolKind) (b : BlockRef) (m : MetaRef) : PageMem :=
  PageMem.setPool { s with
    metaOf := Function.update s.metaOf b (some m)
    bitmaps := Function.update s.bitmaps m fun _ => false
    metas := Function.update s.metas m fun _ => 0 } p fun pool => { pool with
      blockList := b :: pool.blockList }

/-- The search of `__alloc_pages_from_section`. -/
def findSectionPages (ms : MemSection) (count align : ℕ) : ℕ :=
  if count = 1 then findNextZeroBit ms.bitmap ms.nrBlocks ms.bmCurrent
  else findNextZeroAreaAlign ms.bitmap ms.nrBlocks 0 count align

/-- The pages `bit` to `bit + count` of the section are taken. Since `count = 1` is an assignment,
one page is written down and subtracted. -/
def takeSectionPages (bit count : ℕ) (ms : MemSection) : MemSection :=
  { ms with
    bitmap := setRange ms.bitmap bit count
    bmCurrent := if ms.nrBlocks ≤ bit + 1 then 0 else bit + 1
    pages := writeMeta ms.pages (ms.phyBase + bit <<< 12) bit 1
    freeBlocks := ms.freeBlocks - 1 }

/-- The loop of `alloc_pages_from_section` over the sections from `i` on. -/
def allocPagesFromSections (pages align i : ℕ) : List MemSection → Option (ℕ × ℕ)
  | [] => none
  | ms :: rest =>
    if ms.kind = .page ∧ pages ≤ ms.freeBlocks ∧ findSectionPages ms pages align < ms.nrBlocks then
      some (i, findSectionPages ms pages align)
    else allocPagesFromSections pages align (i + 1) rest

/-- `alloc_pages_from_section` -/
def allocPagesFromSection (s : PageMem) (pages align : ℕ) : Option (PageRef × PageMem) :=
  (allocPagesFromSections pages align 0 s.mm.memSections).map fun r =>
    (.sec r.1 r.2, { s with mm := s.mm.setSection r.1 (takeSectionPages r.2 pages) })

/-- `page->phy_base` -/
def PageMem.phyBase (s : PageMem) : PageRef → ℕ
  | .block m i => s.metas m i
  | .sec sec i => (s.mm.memSections[sec]?.map fun ms => ms.pages i).getD 0

/-- A new allocation of the caller. -/
def noteAlloc (count align : ℕ) (r : PageRef × PageMem) : PageMem :=
  { r.2 with live := r.2.live ++ [⟨r.1, pageAddr (r.2.phyBase r.1), count, align⟩] }

/-- The end of `alloc_pages_from_pool`: a new block for the pool. For a block with `GFB_IO`,
`between` is the work of `create_host_mapping`. -/
def allocPagesFromNewBlock (between : PageMem → PageMem) (p : PoolKind) (count align flags : ℕ)
    (s : PageMem) : Option PageRef × PageMem :=
  match allocBlock s flags with
  | none => (none, s)
  | some (b, s) =>
    match getPageMeta (between s) p with
    | (none, s) => (none, s)
    | (some m, s) =>
      match allocPagesFromBlock (joinPool s p b m) b count align with
      | none => (none, joinPool s p b m)
      | some (page, s) => (some page, s)

/-- `alloc_pages_from_pool` -/
def allocPagesFromPool (between : PageMem → PageMem) (p : PoolKind) (count align flags : ℕ)
    (s : PageMem) : Option PageRef × PageMem :=
  match allocPagesFromBlocks count align p (s.pools p).blockList s with
  | some (page, s) => (some page, s)
  | none => allocPagesFromNewBlock between p count align flags s

/-- `__alloc_pages`, for requests that are not refused at once -/
def allocPages (s : PageMem) (pages align : ℕ) : Option PageRef × PageMem :=
  match (if 1 < align then none else allocPagesFromSection s pages align) with
  | some (page, s) => (some page, s)
  | none => allocPagesFromPool id .page pages align GFB_PAGE s

/-- The caller of an allocation function keeps what it gets. -/
def keep (count align : ℕ) (r : Option PageRef × PageMem) : PageMem :=
  match r.1 with
  | none => r.2
  | some page => noteAlloc count align (page, r.2)

/-- `__alloc_pages` and `__get_free_pages` with the caller -/
def getFreePages (s : PageMem) (pages align : ℕ) : PageMem :=
  keep pages align (allocPages s pages align)

/-- `create_host_mapping` takes pages for its tables. -/
def tablePages : ℕ → PageMem → PageMem
  | 0, s => s
  | n + 1, s => tablePages n (getFreePages s 1 1)

/-- `__get_io_pages` with the caller, where the mapping of a new block takes `tables` pages -/
def getIoPages (s : PageMem) (pages align tables : ℕ) : PageMem :=
  keep pages align (allocPagesFromPool (tablePages tables) .io pages align (GFB_PAGE ||| GFB_IO) s)

/-! ### Freeing -/

/-- The words of the array from its start on are cleared. -/
def clearMeta (words : ℕ → ℕ) (count : ℕ) : ℕ → ℕ := fun i => if i < count then 0 else words i

/-- `free_pages_in_block`. The number of pages is read from the first `struct page` of the block. A
block that was full goes to the end of the list of its pool. -/
def freePagesInBlock (s : PageMem) (addr : ℕ) (b : BlockRef) : PageMem :=
  match s.mm.block? b, s.metaOf b with
  | some block, some m =>
    let p := if block.flags &&& GFB_IO ≠ 0 then PoolKind.io else PoolKind.page
    let start := (addr - block.phyBase) >>> 12
    let count := pageCount (s.metas m 0)
    let s := { s with
      mm := s.mm.setBlock b fun block => { block with freePages := block.freePages + count }
      bitmaps := Function.update s.bitmaps m (clearRange (s.bitmaps m) start count)
      metas := Function.update s.metas m (clearMeta (s.metas m) count) }
    if block.freePages = 0 then
      s.setPool p fun pool => { pool with blockList := pool.blockList ++ [b] }
    else s
  | _, _ => s

/-- `free_pages_in_section`, where `&&` makes the number of pages 0 or 1 -/
def freePagesInSection (addr : ℕ) (ms : MemSection) : MemSection :=
  let start := (addr - ms.phyBase) >>> 12
  let count := if ms.pages start ≠ 0 then 1 else 0
  { ms with
    bitmap := clearRange ms.bitmap start count
    freeBlocks := ms.freeBlocks + count }

/-- `free_pages`, and what `free` does for an address that is not in the slab -/
def freePages (s : PageMem) (addr : ℕ) : PageMem :=
  match addrToMemSection s.mm addr with
  | none => s
  | some i =>
    if s.mm.memSections[i]?.any fun ms => ms.kind = .page then
      { s with mm := s.mm.setSection i (freePagesInSection addr) }
    else
      match addrToMemBlock s.mm addr with
      | none => s
      | some b =>
        if (s.mm.block? b).any fun block => block.flags &&& GFB_PAGE ≠ 0 then
          freePagesInBlock s addr b
        else s

/-- `release_pages` -/
def releasePages (s : PageMem) (page : PageRef) : PageMem := freePages s (pageAddr (s.phyBase page))

/-! ### Runs -/

inductive PageEvent where
  | alloc (pages align : ℕ)
  | allocIo (pages align tables : ℕ)
  /-- `free_pages` or `free` -/
  | free (a : PageAlloc)
  | release (a : PageAlloc)
deriving DecidableEq

/-- The caller forgets an allocation that it frees. -/
def forget (a : PageAlloc) (s : PageMem) : PageMem := { s with live := s.live.erase a }

def pageStep (s : PageMem) : PageEvent → PageMem
  | .alloc pages align => getFreePages s pages align
  | .allocIo pages align tables => getIoPages s pages align tables
  | .free a => forget a (freePages s a.addr)
  | .release a => forget a (releasePages s a.page)

end Minos.Mm
