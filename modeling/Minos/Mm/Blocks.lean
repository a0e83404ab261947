import Mathlib
import Minos.Lib.Bitmap
import Minos.Types

/-!
# Memory sections and 2MiB blocks

`mm_default.c` keeps the memory of the machine in sections. A block section hands out blocks of
2MiB and remembers them in a bitmap, with a counter of its own and a counter for all sections.
-/

namespace Minos.Mm

open Bitmap

def MEM_BLOCK_SIZE : ℕ := 0x200000
def MEM_BLOCK_SHIFT : ℕ := 21
def PAGES_IN_BLOCK : ℕ := 512
def MAX_MEM_SECTIONS : ℕ := 32

def GFB_SLAB : ℕ := 0x1
def GFB_PAGE : ℕ := 0x2
def GPF_PAGE_META : ℕ := 0x4
def GFB_VM : ℕ := 0x8
def GFB_IO : ℕ := 0x10
def GFB_MASK : ℕ := 0xffff

/-- `BLOCK_BITMAP_SIZE`: the bytes of the page bitmap of a block -/
def BLOCK_BITMAP_SIZE : ℕ := 64

/-- The page bitmap of a block and the `struct page` of each page. -/
def PAGE_META_SIZE : ℕ := BLOCK_BITMAP_SIZE + PAGES_IN_BLOCK * 16

/-- `MEM_SECTION_F_PAGE` and `MEM_SECTION_F_BLOCK` -/
inductive SectionKind where
  | page
  | block
deriving DecidableEq, Repr

/-- `struct mem_block`, with the address of its page bitmap -/
structure MemBlock where
  phyBase : ℕ
  flags : ℕ
  freePages : ℕ
  bmCurrent : ℕ
  pagesBitmap : ℕ
deriving DecidableEq, Repr

/-- `struct mem_section`. In a page section `nrBlocks` and `freeBlocks` count pages, and `pages`
is used in place of `blocks`. -/
structure MemSection where
  kind : SectionKind
  phyBase : ℕ
  size : ℕ
  nrBlocks : ℕ
  freeBlocks : ℕ
  bitmap : Bitmap
  bmCurrent : ℕ
  blocks : ℕ → MemBlock
  pages : ℕ → ℕ

/-- A pointer to a `struct mem_block`: the section and the place in its table. -/
structure BlockRef where
  sec : ℕ
  bit : ℕ
deriving DecidableEq, Repr

/-- The sections, the global `free_blocks`, and the page bitmaps by address. -/
structure Mem where
  memSections : List MemSection
  freeBlocks : ℕ
  pagesBitmaps : ℕ → Bitmap

/-! ### Lookups -/

/-- `addr_to_mem_section` -/
def addrToMemSection (mm : Mem) (addr : ℕ) : Option ℕ :=
  mm.memSections.findIdx? fun s => s.phyBase ≤ addr ∧ addr < add64 s.phyBase s.size

/-- The `struct mem_block` behind a pointer. -/
def Mem.block? (mm : Mem) (b : BlockRef) : Option MemBlock :=
  mm.memSections[b.sec]?.map fun s => s.blocks b.bit

/-- `addr_to_mem_block` -/
def addrToMemBlock (mm : Mem) (addr : ℕ) : Option BlockRef :=
  match addrToMemSection mm addr with
  | none => none
  | some i =>
    match mm.memSections[i]? with
    | none => none
    | some s =>
      if s.kind = .block then some ⟨i, (addr - s.phyBase) >>> MEM_BLOCK_SHIFT⟩ else none

/-! ### Allocation and release of blocks -/

/-- The `struct mem_block` of a block that was just taken from its section. -/
def newBlock (s : MemSection) (bit f : ℕ) : MemBlock where
  phyBase := s.phyBase + bit * MEM_BLOCK_SIZE
  flags := f &&& GFB_MASK
  freePages := PAGES_IN_BLOCK
  bmCurrent := 0
  pagesBitmap := 0

/-- The section after `bit` was taken. The search position moves by one, wherever the bit was. -/
def takeBlock (s : MemSection) (bit f : ℕ) : MemSection :=
  { s with
    freeBlocks := s.freeBlocks - 1
    bmCurrent := if s.nrBlocks ≤ s.bmCurrent + 1 then 0 else s.bmCurrent + 1
    bitmap := setBit s.bitmap bit
    blocks := Function.update s.blocks bit (newBlock s bit f) }

/-- `__alloc_mem_block`: the bit that was taken, and the section after it -/
def allocMemBlockIn (s : MemSection) (f : ℕ) : Option (ℕ × MemSection) :=
  if s.freeBlocks = 0 then none
  else
    let bit := findNextZeroBitLoop s.bitmap s.nrBlocks s.bmCurrent
    if s.nrBlocks ≤ bit then none
    else some (bit, takeBlock s bit f)

/-- The loop of `alloc_mem_block` over the sections, the first of which has index `i`. -/
def allocMemBlockFrom (flags i : ℕ) : List MemSection → Option (BlockRef × List MemSection)
  | [] => none
  | s :: rest =>
    match (if s.kind = .block then allocMemBlockIn s flags else none) with
    | some (bit, s') => some (⟨i, bit⟩, s' :: rest)
    | none => (allocMemBlockFrom flags (i + 1) rest).map fun r => (r.1, s :: r.2)

/-- `alloc_mem_block`. For a block with `GFB_IO` the function goes on to map the block in the host
table; the blocks that the tables of this mapping need are taken by further calls. -/
def allocMemBlock (mm : Mem) (flags : ℕ) : Option (BlockRef × Mem) :=
  (allocMemBlockFrom flags 0 mm.memSections).map fun r =>
    (r.1, { mm with memSections := r.2, freeBlocks := mm.freeBlocks - 1 })

/-- The section after the bit of the block at `addr` was cleared. -/
def clearBlock (addr : ℕ) (s : MemSection) : MemSection :=
  { s with bitmap := clearRange s.bitmap ((addr - s.phyBase) >>> MEM_BLOCK_SHIFT) 1 }

/-- `release_mem_block`. There is no result where the function uses a section that is `NULL`. -/
def releaseMemBlock (mm : Mem) (b : BlockRef) : Option Mem :=
  match mm.block? b with
  | none => none
  | some block =>
    if block.freePages < PAGES_IN_BLOCK then none
    else
      match addrToMemSection mm block.phyBase with
      | none => none
      | some i =>
        let mm := { mm with
          memSections := mm.memSections.modify i (clearBlock block.phyBase)
          freeBlocks := mm.freeBlocks + 1 }
        if block.flags &&& GFB_PAGE = 0 then some mm
        else
          -- the place of the metadata is computed from the block and not from its meta block
          match (addrToMemBlock mm block.pagesBitmap).bind mm.block? with
          | none => some mm
          | some metaBlock =>
            let start := sub64 block.pagesBitmap block.phyBase / PAGE_META_SIZE % 2 ^ 32
            some { mm with
              pagesBitmaps := Function.update mm.pagesBitmaps metaBlock.pagesBitmap
                (clearBit (mm.pagesBitmaps metaBlock.pagesBitmap) start) }

/-- `has_enough_memory` -/
def hasEnoughMemory (mm : Mem) (size : ℕ) : Bool := size >>> MEM_BLOCK_SHIFT ≤ mm.freeBlocks

/-! ### The sections at boot -/

/-- `MEMORY_REGION_TYPE_*` -/
inductive RegionType where
  | normal
  | dma
  | rsv
  | vm
  | dtb
  | kernel
deriving DecidableEq, Repr

/-- A `struct memory_region` of `mem_list` -/
structure MemoryRegion where
  type : RegionType
  virBase : ℕ
  size : ℕ

/-- What `parse_system_regions` builds: sections, the global counter, and the calls of
`add_slab_mem` it makes on the way. -/
structure Boot where
  sections : List MemSection
  freeBlocks : ℕ
  slabMem : List (ℕ × ℕ)

/-- A section of which everything is free. -/
def newSection (kind : SectionKind) (base size nr : ℕ) : MemSection where
  kind := kind
  phyBase := base
  size := size
  nrBlocks := nr
  freeBlocks := nr
  bitmap := fun _ => false
  bmCurrent := 0
  blocks := fun _ => ⟨0, 0, 0, 0, 0⟩
  pages := fun _ => 0

/-- `add_page_section` -/
def addPageSection (base size : ℕ) (b : Boot) : Boot :=
  if size = 0 ∨ MAX_MEM_SECTIONS ≤ b.sections.length then b
  else
    let memEnd := align (add64 base size) PAGE_SIZE
    let memBase := balign base PAGE_SIZE
    let realSize := sub64 memEnd memBase
    if realSize = 0 then { b with slabMem := b.slabMem ++ [(base, size)] }
    else
      { b with
        sections := b.sections ++ [newSection .page memBase realSize (realSize >>> 12)]
        slabMem := b.slabMem ++ [(base, sub64 memBase base),
          (base, sub64 (add64 base size) memEnd)] }

/-- A head or a tail of a region that is no whole block. -/
def addLeft (base left : ℕ) (b : Boot) : Boot :=
  if 0 < left then addPageSection base left b else b

/-- `add_block_section` -/
def addBlockSection (base size : ℕ) (b : Boot) : Boot :=
  if size = 0 ∨ MAX_MEM_SECTIONS ≤ b.sections.length then b
  else
    let memEnd := align (add64 base size) MEM_BLOCK_SIZE
    let memBase := balign base MEM_BLOCK_SIZE
    let realSize := sub64 memEnd memBase
    if realSize = 0 then addPageSection base size b
    else
      let nr := realSize >>> MEM_BLOCK_SHIFT
      let b := { b with
        sections := b.sections ++ [newSection .block memBase realSize nr]
        freeBlocks := b.freeBlocks + nr }
      let b := addLeft base (sub64 memBase base) b
      addLeft (add64 memBase realSize) (sub64 (add64 base size) memEnd) b

/-- `parse_system_regions` -/
def parseSystemRegions (memList : List MemoryRegion) : Boot :=
  memList.foldl (fun b region =>
    if region.type = .rsv ∨ region.type = .vm ∨ region.type = .dtb then b
    else addBlockSection region.virBase region.size b) ⟨[], 0, []⟩

/-- `blocks_table_init`: the tables of `struct mem_block`, 40 bytes each, from `base` on -/
def blocksTableInit (base : ℕ) (sections : List MemSection) : ℕ :=
  sections.foldl (fun tmp s => if s.kind = .block then balign (tmp + s.nrBlocks * 40) 8 else tmp)
    base

/-- `blocks_bitmap_init`: the bitmaps, in words of 64 bits, from `base` on -/
def blocksBitmapInit (base : ℕ) (sections : List MemSection) : ℕ :=
  sections.foldl
    (fun tmp s => if s.kind = .block then tmp + (s.nrBlocks + 63) / 64 * 8 else tmp) base

/-- The end of the tables that `mem_sections_init` puts after the boot memory. -/
def memStart (bootmemEnd : ℕ) (sections : List MemSection) : ℕ :=
  blocksBitmapInit (balign (blocksTableInit (balign bootmemEnd 8) sections) 8) sections

/-- The end of the image of the hypervisor, in whole blocks. -/
def memEnd (bootmemEnd : ℕ) (sections : List MemSection) : ℕ :=
  balign (memStart bootmemEnd sections) MEM_BLOCK_SIZE

/-- Swapping the first entry of the table with the boot section. -/
def bootFirst (i : ℕ) (sections : List MemSection) : List MemSection :=
  match sections[0]?, sections[i]? with
  | some first, some boot => (sections.set 0 boot).set i first
  | _, _ => sections

/-- The first `n` blocks of the boot section hold the image. -/
def takeBootBlocks (codeBase n : ℕ) (s : MemSection) : MemSection :=
  { s with
    freeBlocks := s.freeBlocks - n
    bitmap := setRange s.bitmap 0 n
    blocks := fun i => if i < n then ⟨codeBase + i * MEM_BLOCK_SIZE, 0, 0, 0, 0⟩ else s.blocks i
    bmCurrent := n }

/-- The section that holds the start of the image. -/
def bootSection (codeBase : ℕ) (sections : List MemSection) : Option ℕ :=
  sections.findIdx? fun s => s.phyBase ≤ codeBase ∧ codeBase < add64 s.phyBase s.size

/-- `boot_block_size`: the blocks from the start of the image to its end -/
@[irreducible] def bootBlockSize (codeBase bootmemEnd : ℕ) (sections : List MemSection) : ℕ :=
  (memEnd bootmemEnd sections - codeBase) >>> MEM_BLOCK_SHIFT

/-- The memory with `n` blocks for the image at the start of the boot section `i`. -/
def bootMem (codeBase n i : ℕ) (b : Boot) : Mem where
  memSections := (bootFirst i b.sections).modify 0 (takeBootBlocks codeBase n)
  freeBlocks := b.freeBlocks - n
  pagesBitmaps := fun _ _ => false

/-- `mem_sections_init`. It panics, and has no result, if no section holds the image. -/
def memSectionsInit (codeBase bootmemEnd : ℕ) (b : Boot) : Option Mem :=
  (bootSection codeBase b.sections).map fun i =>
    bootMem codeBase (bootBlockSize codeBase bootmemEnd b.sections) i b

end Minos.Mm
