import Mathlib
import Minos.Mmu.Pagetable

/-!
# Mapping and unmapping

The functions of `core/mmu.c`. Memory is a word memory with a trace, so that what a mapping call
stored can be told from what it changed; the page allocator is a parameter `PageOps`, and
`mm->head` is the list of the pages that were taken from it for tables.
-/

namespace Minos.Mmu

open Radix WordMem

/-- The page allocator as the mapping code uses it: `alloc_page` and `free`. -/
structure PageOps (σ : Type) where
  allocPage : σ → Option (ℕ × σ)
  free : σ → ℕ → σ

/-- Memory, the state of the page allocator, and `mm->head`. -/
structure MmState (σ : Type) where
  mem : Mem
  alloc : σ
  head : List ℕ

/-- `struct mapping_struct`; `config` is always the attribute record of `lvl`. -/
structure MappingStruct where
  tableBase : ℕ
  virBase : ℕ
  phyBase : ℕ
  size : ℕ
  lvl : Level
  flags : ℕ

variable {σ : Type} (A : PageOps σ)

def getMapType (info : MappingStruct) : ℕ :=
  if info.flags &&& VM_HOST ≠ 0 then
    if info.lvl = .pmd then VM_DES_BLOCK else VM_DES_TABLE
  else if info.lvl = .pte then VM_DES_PAGE
  else
    let a := info.size &&& (info.lvl.mapSize - 1)
    let b := info.virBase &&& (info.lvl.mapSize - 1)
    if a ≠ 0 ∨ b ≠ 0 then VM_DES_TABLE else VM_DES_BLOCK

/-- Returns 0 when there is no page. -/
def allocMappingPage (s : MmState σ) : ℕ × MmState σ :=
  match A.allocPage s.alloc with
  | none => (0, s)
  | some (page, a) => (page, ⟨s.mem.zeroPage page, a, page :: s.head⟩)

/-- The loop of `create_page_entry`, with the number of entries left. -/
def pageEntryLoop (tbase attr mapSize : ℕ) : ℕ → ℕ → ℕ → Mem → Mem
  | 0, _, _, m => m
  | k + 1, index, phy, m =>
    pageEntryLoop tbase attr mapSize k ((index + 1) % 2 ^ 32) (add64 phy mapSize)
      (m.store (tbase + 8 * index) (desWord attr phy))

def createPageEntry (info : MappingStruct) (s : MmState σ) : ℤ × MmState σ :=
  let mapType := if info.lvl.lvl ≠ 3 then VM_DES_BLOCK else VM_DES_PAGE
  let attr := pageTableDescription (info.flags ||| mapType)
  let m := pageEntryLoop info.tableBase attr info.lvl.mapSize (info.size >>> info.lvl.rangeOffset)
    (info.lvl.index info.virBase) info.phyBase s.mem
  (0, { s with mem := m })

/-- How much one round of `create_table_entry` maps: up to the end of the entry that covers
`virBase`, and no more than `size`. -/
@[irreducible] def roundSize (info : MappingStruct) : ℕ :=
  let left := sub64 (balign info.virBase info.lvl.mapSize) info.virBase
  min (if left = 0 then info.lvl.mapSize else left) info.size

lemma roundSize_le (info : MappingStruct) : roundSize info ≤ info.size := by
  rw [roundSize]
  exact Nat.min_le_right _ _

lemma roundSize_pos {info : MappingStruct} (h : info.size ≠ 0) : 0 < roundSize info := by
  have := info.lvl.mapSize_pos
  unfold roundSize
  dsimp only
  split_ifs <;> omega

/-- The entry that covers `virBase`. -/
def MappingStruct.entry (info : MappingStruct) : ℕ :=
  info.tableBase + 8 * info.lvl.index info.virBase

/-- What is left of a request after one round. -/
def MappingStruct.advance (info : MappingStruct) : MappingStruct :=
  ⟨info.tableBase, add64 info.virBase (roundSize info), add64 info.phyBase (roundSize info),
    info.size - roundSize info, info.lvl, info.flags⟩

@[simp] lemma MappingStruct.advance_size (info : MappingStruct) :
    info.advance.size = info.size - roundSize info := rfl

@[simp] lemma MappingStruct.advance_lvl (info : MappingStruct) :
    info.advance.lvl = info.lvl := by
  cases info
  rfl

/-- The table below the entry that covers `virBase`: the address in the entry, or a new page
when the entry is zero. Returns 0 when there is no page. -/
def enterTable (info : MappingStruct) (s : MmState σ) : ℕ × MmState σ :=
  let value := s.mem.word info.entry
  if value = 0 then
    let attr := pageTableDescription (info.flags ||| VM_DES_TABLE)
    let (page, s) := allocMappingPage A s
    if page = 0 then (0, s)
    else (page, { s with mem := (s.mem.zeroPage page).store info.entry (desWord attr page) })
  else (entryBase value, s)

def createTableEntry (info : MappingStruct) (s : MmState σ) : ℤ × MmState σ :=
  if _hsize : info.size = 0 then (0, s)
  else
    match _hnext : info.lvl.next with
    -- the last level has no tables below it, and no caller passes it
    | none => (-EINVAL, s)
    | some next =>
      let newPage := s.mem.word info.entry = 0
      let r := enterTable A info s
      if newPage ∧ r.1 = 0 then (-ENOMEM, r.2)
      else
        let mapInfo : MappingStruct :=
          ⟨r.1, info.virBase, info.phyBase, roundSize info, next, info.flags⟩
        let r' :=
          if getMapType mapInfo = VM_DES_TABLE then createTableEntry mapInfo r.2
          else createPageEntry mapInfo r.2
        if r'.1 ≠ 0 then
          (r'.1, if newPage then { r'.2 with alloc := A.free r'.2.alloc r.1 } else r'.2)
        else createTableEntry info.advance r'.2
termination_by 4 * info.size + info.lvl.below
decreasing_by
  · have := Level.below_of_next _hnext
    have := roundSize_le info
    omega
  · have := roundSize_pos _hsize
    have := roundSize_le info
    rw [MappingStruct.advance_size, MappingStruct.advance_lvl]
    omega

/-- Host tables start at the `PGD`, guest tables at the `PUD`. -/
def startLevel (flags : ℕ) : Level := if flags &&& VM_HOST ≠ 0 then .pgd else .pud

def createMemMapping (pgdBase addr phy size flags : ℕ) (s : MmState σ) : ℤ × MmState σ :=
  createTableEntry A ⟨pgdBase, addr, phy, size, startLevel flags, flags⟩ s

def createGuestMapping (pgdBase vir phy size flags : ℕ) (s : MmState σ) : ℤ × MmState σ :=
  let tmp := balign (add64 vir size) PAGE_SIZE
  let vir := align vir PAGE_SIZE
  let phy := align phy PAGE_SIZE
  createMemMapping A pgdBase vir phy (sub64 tmp vir) flags s

def MEM_BLOCK_SIZE : ℕ := 0x200000

def createHostMapping (pgdBase vir phy size flags : ℕ) (s : MmState σ) : ℤ × MmState σ :=
  let tmp := balign (add64 vir size) MEM_BLOCK_SIZE
  let virBase := align vir MEM_BLOCK_SIZE
  let phyBase := align phy MEM_BLOCK_SIZE
  createMemMapping A pgdBase virBase phyBase (sub64 tmp virBase) (flags ||| VM_HOST) s

/-! ### Unmapping -/

/-- The inner loop of `__destroy_mem_mapping`: the entry that is set to zero, with its attribute
record and the value of `lvl` there, or `none` for the error returns. -/
def findDestroyEntry (m : Mem) (vir size : ℕ) (attr : Level) (lvl table : ℕ) :
    Option (ℕ × Level × ℕ) :=
  let entry := table + 8 * attr.index vir
  let des := m.word entry
  if des = 0 then none
  else
    let type := getMappingType lvl des
    if type = VM_DES_FAULT then none
    else if type = VM_DES_TABLE then
      match _hnext : attr.next with
      | none => none
      | some next =>
        if lvl + 1 > Level.pte.lvl then none
        else findDestroyEntry m vir size next (lvl + 1) (des &&& lnot 0xfff)
    else if size < attr.mapSize then none
    else some (entry, attr, lvl)
termination_by attr.below
decreasing_by
  have := Level.below_of_next _hnext
  omega

lemma findDestroyEntry_size {m : Mem} {vir size lvl table : ℕ} {attr : Level}
    {r : ℕ × Level × ℕ} (h : findDestroyEntry m vir size attr lvl table = some r) :
    r.2.1.mapSize ≤ size := by
  fun_induction findDestroyEntry m vir size attr lvl table with
  | case1 | case2 | case3 | case4 | case6 => simp at h
  | case5 => rename_i ih; exact ih h
  | case7 =>
    obtain rfl := Option.some.inj h
    simp only
    omega

/-- The outer loop of `__destroy_mem_mapping`. Every round starts over at the root, with the `lvl`
that the last round left. -/
def destroyLoop (tableBase : ℕ) (config : Level) (vir size lvl : ℕ) (m : Mem) : ℤ × Mem :=
  if _hsize : size > PAGE_SIZE then
    match _hd : findDestroyEntry m vir size config lvl tableBase with
    | none => (-EINVAL, m)
    | some (entry, attr, lvl') =>
      destroyLoop tableBase config (add64 vir attr.mapSize) (size - attr.mapSize) lvl'
        (m.store entry 0)
  else (0, m)
termination_by size
decreasing_by
  have := findDestroyEntry_size _hd
  have := attr.mapSize_pos
  simp only at *
  omega

/-- A `size` that is negative as a `long` ends the loop at once. -/
def destroyMemMapping (pgdBase vir size : ℕ) (s : MmState σ) : ℤ × MmState σ :=
  let size := if size < 2 ^ 63 then size else 0
  let (_, m) := destroyLoop pgdBase .pgd vir size Level.pgd.lvl s.mem
  (0, { s with mem := m })

def destroyGuestMapping (pgdBase vir size : ℕ) (s : MmState σ) : ℤ × MmState σ :=
  let endAddr := balign (add64 vir size) PAGE_SIZE
  let vir := align vir PAGE_SIZE
  destroyMemMapping pgdBase vir (sub64 endAddr vir) s

def destroyHostMapping (pgdBase vir size : ℕ) (s : MmState σ) : ℤ × MmState σ :=
  let endAddr := balign (add64 vir size) MEM_BLOCK_SIZE
  let vir := align vir MEM_BLOCK_SIZE
  destroyMemMapping pgdBase vir (sub64 endAddr vir) s

/-! ### Single entries -/

/-- Returns 0 when a table above level `last` is missing. -/
def getMappingEntry (m : Mem) (vir : ℕ) (last : ℕ) (attr : Level) (table : ℕ) : ℕ :=
  let value := m.word (table + 8 * attr.index vir)
  if value = 0 ∧ attr.lvl < last then 0
  else
    let table := value &&& 0xfffffffffffff000
    match _hnext : attr.next with
    | none => table
    | some next => if next.lvl < last then getMappingEntry m vir last next table else table
termination_by attr.below
decreasing_by
  have := Level.below_of_next _hnext
  omega

/-- `get_mapping_pmd` -/
def getMappingPmd (m : Mem) (pgd vir flags : ℕ) : ℕ :=
  getMappingEntry m vir Level.pmd.lvl (startLevel flags) pgd

def createLevelMapping (l : Level) (tt vir addr flags : ℕ) (m : Mem) : Mem :=
  m.store (tt + 8 * (vir >>> l.rangeOffset))
    ((addr &&& 0xfffffffffffff000) ||| pageTableDescription flags)

def createPudMapping (pud vir value flags : ℕ) (m : Mem) : Mem :=
  createLevelMapping .pud pud vir value flags m

def allocGuestPmd (pgdBase phy : ℕ) (s : MmState σ) : ℕ × MmState σ :=
  if pgdBase = 0 then (0, s)
  else
    let pmd := getMappingEntry s.mem phy Level.pmd.lvl .pud pgdBase
    if pmd ≠ 0 then (pmd, s)
    else
      let (pmd, s) := allocMappingPage A s
      if pmd ≠ 0 then
        (pmd, { s with mem := createPudMapping pgdBase phy pmd VM_DES_TABLE s.mem })
      else (pmd, s)

end Minos.Mmu
