import Mathlib
import Minos.Mm.PageRuns
import Minos.Mmu.GuestMapping
import Minos.Virt.VmTable

/-!
# Creation and destruction of a guest VM

`create_guest_vm` checks the tag, takes an id, makes the VM, its root table, its vcpus and its virq
descriptors, a part of the mmap window of VM0, and the blocks of its memory, which it maps.
`destroy_vm` is the way back, for a VM that is no longer wanted and for one that could not be
completed. A function has no result where the code panics or follows a pointer that is `NULL` or was
never set.
-/

namespace Minos.Virt

open Bitmap Mm
open Mmu hiding MEM_BLOCK_SIZE

def GVM_NORMAL_MEM_START : ℕ := 0x80000000
def GVM_NORMAL_MEM_END : ℕ := GVM_NORMAL_MEM_START + 126 * 1024 * 1024 * 1024

def VM_FLAGS_DYNAMIC_AFF : ℕ := 1 <<< 2

def OS_NR_TASKS : ℕ := 512
def OS_REALTIME_TASK : ℕ := 64
def PCPU_AFF_NONE : ℕ := 0xffff

def GVM_PGD_PAGE_NR : ℕ := 2
def GVM_PGD_PAGE_ALIGN : ℕ := 2

/-- `PAGE_NR(TASK_STACK_SIZE)` -/
def TASK_STACK_PAGES : ℕ := 2

def VM_LOCAL_VIRQ_NR : ℕ := 32
def HVM_SPI_VIRQ_NR : ℕ := 384
def GVM_SPI_VIRQ_NR : ℕ := 64

/-- The fields of `struct vmtag` that `create_guest_vm` reads or writes. -/
structure GuestTag extends VmTag where
  memBase : BitVec 64
  memSize : BitVec 64
  flags : ℕ

/-- `e_base`, `f_base` and the other variables of `get_vcpu_affinity` -/
structure AffinityPool where
  eBase : ℤ
  fBase : ℤ
  eBaseCurrent : ℤ
  fBaseCurrent : ℤ
  eNr : ℤ
  fNr : ℤ

/-- What an allocator hands out and takes back. -/
inductive Resource where
  | slab (addr : ℕ)
  | pages (addr : ℕ)
  | block (b : BlockRef)
deriving DecidableEq

/-- `struct vcpu`, with the pid of its task -/
structure GuestVcpu where
  pid : ℕ
  addr : ℕ
  virqStruct : ℕ
  vmcsIrq : ℤ
deriving DecidableEq

/-- The `deinit` of a vdev, with what else it frees -/
inductive VdevKind where
  | default
  | gicv3 (gicr : List ℕ)
  | bcm2836 (iomem : ℕ)
deriving DecidableEq

/-- `struct vdev`, with the object that it is in -/
structure GuestVdev where
  kind : VdevKind
  obj : ℕ
  iomem : ℕ
  hvmPaddr : ℕ
  gvmPaddr : ℕ
  memSize : ℕ
deriving DecidableEq

/-- `struct mm_struct`, with the first of its regions -/
structure GuestMm where
  pgdBase : ℕ
  head : List ℕ
  blockList : List BlockRef
  virBase : ℕ
  size : ℕ
  freeSize : ℕ
  hvmMmapBase : ℕ
  gvmIomemBase : ℕ
  gvmIomemSize : ℕ
  virtioMmioGbase : ℕ
  virtioMmioIomem : ℕ
  virtioMmioSize : ℕ

/-- `struct vm`. The `mm` is missing after `release_vm_memory`, which sets all of it to zero. -/
structure GuestVm where
  ref : VmRef
  vcpusAddr : ℕ
  vcpuNr : ℕ
  vcpus : List GuestVcpu
  native : Bool
  virqChip : Bool
  vspiDesc : ℕ
  vspiMap : ℕ
  virqSamePage : Bool
  vdevList : List GuestVdev
  vmcs : ℕ
  hvmVmcs : ℕ
  mm : Option GuestMm

/-- The hypervisor, as far as a guest VM takes something from it: the tables of ids, `pid_map`, the
memory, the root table, the table pages and the `vspi_map` of VM0, and the two windows of VM0. All
that was allocated and freed so far is on two lists. -/
structure Hv where
  table : VmTable
  pidMap : Bitmap
  pages : PageMem
  mem : WordMem.Mem
  vm0Pgd : ℕ
  vm0Head : List ℕ
  vm0SpiMap : Bitmap
  hvmNormalMmapBase : ℕ
  hvmNormalMmapSize : ℕ
  hvmIomemMmapBase : ℕ
  hvmIomemMmapSize : ℕ
  affinity : AffinityPool
  allocated : List Resource
  freed : List Resource

/-- What `malloc` does: it fails, it has an object, or it takes a block first. -/
inductive SlabReply where
  | fail
  | object (addr : ℕ)
  | newBlock (addr : ℕ)
deriving DecidableEq

/-- What the slab has for a vcpu: its task, itself, and its `virq_struct`. -/
structure VcpuEnv where
  task : SlabReply
  vcpu : SlabReply
  virqStruct : SlabReply

/-- What a call of `create_guest_vm` meets: whether the tag can be mapped, what the slab has for it,
and whether the memory for `vcpus` happens to be zero. -/
structure GuestEnv where
  tagMapped : Bool
  vm : SlabReply
  vcpus : SlabReply
  vcpusClear : Bool
  vcpu : ℕ → VcpuEnv
  vspiMap : SlabReply

/-! ### Pages and objects -/

/-- The page allocator under the mapping code: `alloc_page`, and `free` of a page. -/
def pageOps : PageOps PageMem where
  allocPage s :=
    match allocPages s 1 1 with
    | (none, _) => none
    | (some page, s) => some (pageAddr (s.phyBase page), noteAlloc 1 1 (page, s))
  free := Mm.freePages

/-- The sections and the pools after a `malloc` -/
def slabPages (r : SlabReply) (s : PageMem) : Option ℕ × PageMem :=
  match r with
  | .fail => (none, s)
  | .object addr => (some addr, s)
  | .newBlock addr =>
    match allocBlock s GFB_SLAB with
    | none => (none, s)
    | some (b, s) =>
      (some addr, { s with mm := s.mm.setBlock b fun block => { block with freePages := 1 } })

/-- The caller forgets the allocation at `addr`. -/
def forgetAt (addr : ℕ) (s : PageMem) : PageMem :=
  { s with live := s.live.eraseP fun a => a.addr = addr }

/-- An address for which `free` does not look in the slab -/
def isPages (s : PageMem) (addr : ℕ) : Bool :=
  (addrToMemSection s.mm addr).any fun i =>
    (s.mm.memSections[i]?.any fun ms => ms.kind = .page) ||
      (addrToMemBlock s.mm addr).any fun b =>
        (s.mm.block? b).any fun block => block.flags &&& GFB_PAGE ≠ 0

namespace Hv

/-- `malloc` and `zalloc` -/
def malloc (s : Hv) (r : SlabReply) : Option ℕ × Hv :=
  match slabPages r s.pages with
  | (none, p) => (none, { s with pages := p })
  | (some addr, p) =>
    (some addr, { s with pages := p, allocated := s.allocated ++ [.slab addr] })

/-- `free` of an object of the slab -/
def freeSlab (s : Hv) (addr : ℕ) : Hv := { s with freed := s.freed ++ [.slab addr] }

/-- `__get_free_pages`; the address is 0 when there are no pages. -/
def getFreePages (s : Hv) (count align : ℕ) : ℕ × Hv :=
  match allocPages s.pages count align with
  | (none, p) => (0, { s with pages := p })
  | (some page, p) =>
    let addr := pageAddr (p.phyBase page)
    (addr, { s with
      pages := noteAlloc count align (page, p)
      allocated := s.allocated ++ [.pages addr] })

/-- `free_pages` -/
def freePages (s : Hv) (addr : ℕ) : Hv :=
  { s with
    pages := forgetAt addr (Mm.freePages s.pages addr)
    freed := s.freed ++ [.pages addr] }

/-- `free` of an address that may be a page, or `NULL` -/
def free (s : Hv) (addr : ℕ) : Hv :=
  if addr = 0 then s
  else if isPages s.pages addr then s.freePages addr
  else s.freeSlab addr

/-- `release_pages` of a page that was taken for a table -/
def releasePage (s : Hv) (addr : ℕ) : Hv :=
  match s.pages.live.find? fun a => a.addr = addr with
  | none => s
  | some a => s.freePages (pageAddr (s.pages.phyBase a.page))

/-! ### The tag -/

/-- The first loop of `get_vcpu_affinity`, for `n` vcpus -/
def takeE (nrCpus : ℤ) : ℕ → AffinityPool → List ℤ × AffinityPool
  | 0, p => ([], p)
  | n + 1, p =>
    let cur := p.eBaseCurrent + 1
    let r := takeE nrCpus n { p with eBaseCurrent := if cur = nrCpus then p.eBase else cur }
    (p.eBaseCurrent :: r.1, r.2)

/-- `f_base_current` after it was increased -/
def nextF (p : AffinityPool) (cur : ℤ) : ℤ := if cur + 1 = p.eBase then p.fBase else cur + 1

/-- The second loop of `get_vcpu_affinity`, for `n` vcpus from the `i`-th of `f` on -/
def takeF (f : ℤ) : ℕ → ℕ → AffinityPool → List ℤ × AffinityPool
  | 0, _, p => ([], p)
  | n + 1, i, p =>
    let cur := if p.fBaseCurrent = 0 ∧ (f < p.fNr ∨ i = 0) then nextF p p.fBaseCurrent
      else p.fBaseCurrent
    let r := takeF f n (i + 1) { p with fBaseCurrent := nextF p cur }
    (cur :: r.1, r.2)

/-- `get_vcpu_affinity` -/
def getVcpuAffinity (nrCpus : ℤ) (nr : ℤ) (p : AffinityPool) : (ℕ → ℕ) × AffinityPool :=
  let e := min nr p.eNr
  let r := takeE nrCpus e.toNat p
  let r' := takeF (nr - e) (nr - e).toNat 0 r.2
  (fun i => ((((r.1 ++ r'.1)[i]?).getD 0) % 2 ^ 32).toNat, r'.2)

/-- `vmtag_check_and_config`, for a machine with `nrCpus` processors. The result is the tag as the
function leaves it. -/
def vmtagCheckAndConfig (nrCpus : ℕ) (tag : GuestTag) (s : Hv) : Option (GuestTag × Hv) :=
  let size := tag.memSize
  let tag := { tag with
    memBase := if tag.memBase = 0 then BitVec.ofNat 64 GVM_NORMAL_MEM_START else tag.memBase }
  if tag.memBase.toNat < GVM_NORMAL_MEM_START then none
  else if GVM_NORMAL_MEM_END ≤ (tag.memBase + size).toNat then none
  else if hasEnoughMemory s.pages.mm size.toNat = false then none
  else if (nrCpus : ℤ) < tag.nrVcpu then none
  else if tag.flags &&& VM_FLAGS_DYNAMIC_AFF ≠ 0 then
    let r := getVcpuAffinity nrCpus tag.nrVcpu s.affinity
    some ({ tag with vcpuAffinity := r.1 }, { s with affinity := r.2 })
  else some (tag, s)

/-! ### The VM and its vcpus -/

/-- `create_vcpu_task`: the pid of the task. Without memory for a task `create_task` goes on with a
task that is `NULL`. -/
def createVcpuTask (nrCpus aff : ℕ) (env : VcpuEnv) (s : Hv) : Option (Option ℕ × Hv) :=
  let aff := aff % 2 ^ 16
  let pid := findNextZeroBit s.pidMap OS_NR_TASKS OS_REALTIME_TASK
  if nrCpus ≤ aff ∧ aff ≠ PCPU_AFF_NONE then some (none, s)
  else if OS_NR_TASKS ≤ pid then some (none, s)
  else
    match { s with pidMap := setBit s.pidMap pid }.malloc env.task with
    | (none, _) => none
    | (some _, s) =>
      match s.getFreePages TASK_STACK_PAGES TASK_STACK_PAGES with
      | (stack, s) => if stack = 0 then none else some (some pid, s)

/-- `alloc_vcpu` for the task `pid` -/
def allocVcpu (pid : ℕ) (env : VcpuEnv) (s : Hv) : Option GuestVcpu × Hv :=
  match s.malloc env.vcpu with
  | (none, s) => (none, s)
  | (some addr, s) =>
    match s.malloc env.virqStruct with
    | (none, s) => (none, s.freeSlab addr)
    | (some virqStruct, s) => (some ⟨pid, addr, virqStruct, -1⟩, s)

/-- `create_vcpu`. When there is no memory for the vcpu, `release_task` does nothing. -/
def createVcpu (nrCpus aff : ℕ) (env : VcpuEnv) (s : Hv) : Option (Option GuestVcpu × Hv) :=
  match createVcpuTask nrCpus aff env s with
  | none => none
  | some (none, s) => some (none, s)
  | some (some pid, s) => some (allocVcpu pid env s)

/-- `release_hvm_virq` -/
def releaseHvmVirq (s : Hv) (virq : ℕ) : Hv :=
  let off := virq - VM_LOCAL_VIRQ_NR
  if HVM_SPI_VIRQ_NR ≤ off then s else { s with vm0SpiMap := clearBit s.vm0SpiMap off }

/-- `release_vcpu` -/
def releaseVcpu (s : Hv) (vcpu : GuestVcpu) : Hv :=
  let s := if 0 ≤ vcpu.vmcsIrq then s.releaseHvmVirq vcpu.vmcsIrq.toNat else s
  (s.freeSlab vcpu.virqStruct).freeSlab vcpu.addr

/-- `create_vcpus` from the vcpu `i` on, with `n` vcpus to go: whether it succeeds, and the vcpus
that it made. When it fails it releases these, and the pointers of `vcpus` that were not set. -/
def createVcpusFrom (nrCpus : ℕ) (aff : ℕ → ℕ) (env : GuestEnv) :
    ℕ → ℕ → List GuestVcpu → Hv → Option (Bool × List GuestVcpu × Hv)
  | 0, _, vcpus, s => some (true, vcpus, s)
  | n + 1, i, vcpus, s =>
    match createVcpu nrCpus (aff i) (env.vcpu i) s with
    | none => none
    | some (some vcpu, s) => createVcpusFrom nrCpus aff env n (i + 1) (vcpus ++ [vcpu]) s
    | some (none, s) =>
      if env.vcpusClear then some (false, vcpus, vcpus.foldl releaseVcpu s) else none

/-- `alloc_pgd`, which panics if there are no pages -/
def allocPgd (s : Hv) : Option (ℕ × Hv) :=
  let r := s.getFreePages GVM_PGD_PAGE_NR GVM_PGD_PAGE_ALIGN
  if r.1 = 0 then none
  else some (r.1, { r.2 with mem := (r.2.mem.zeroPage r.1).zeroPage (r.1 + PAGE_SIZE) })

/-- `vm_mm_struct_init`, for a `struct vm` of zeros -/
def vmMmStructInit (native : Bool) (s : Hv) : Option (GuestMm × Hv) :=
  s.allocPgd.map fun r => ({
    pgdBase := r.1
    head := []
    blockList := []
    virBase := 0
    size := 0
    freeSize := 0
    hvmMmapBase := 0
    gvmIomemBase := if native then 0 else SIZE_1G
    gvmIomemSize := if native then 0 else 0x80000000 - SIZE_1G
    virtioMmioGbase := 0
    virtioMmioIomem := 0
    virtioMmioSize := 0 }, r.2)

/-- `vspi_nr` of a new VM -/
def vspiNr (vmid : ℕ) : ℕ := if vmid = 0 then HVM_SPI_VIRQ_NR else GVM_SPI_VIRQ_NR

/-- `virq_create_vm`, the hook for a new VM: whether it succeeds. A `struct virq_desc` has 32
bytes. -/
def virqCreateVm (env : GuestEnv) (vm : GuestVm) (s : Hv) : Bool × GuestVm × Hv :=
  let nr := vspiNr vm.ref.vmid
  let tmp := 32 * nr
  let size := balign tmp PAGE_SIZE
  let r := s.getFreePages (size / PAGE_SIZE) 1
  let vm := { vm with vspiDesc := r.1, virqSamePage := false }
  if r.1 = 0 then (false, vm, r.2)
  else if (nr + 63) / 64 * 8 ≤ size - tmp then
    (true, { vm with vspiMap := r.1 + tmp, virqSamePage := true }, r.2)
  else
    match r.2.malloc env.vspiMap with
    | (none, s) => (false, vm, s)
    | (some addr, s) => (true, { vm with vspiMap := addr }, s)

/-! ### Destruction -/

/-- `destroy_hvm_iomem_map` -/
def destroyHvmIomemMap (s : Hv) (vir size : ℕ) : Hv :=
  let r := destroyGuestMapping s.vm0Pgd vir (balign size PAGE_SIZE) ⟨s.mem, s.pages, s.vm0Head⟩
  { s with mem := r.2.mem }

/-- `vdev_release` -/
def vdevRelease (s : Hv) (vdev : GuestVdev) : Hv :=
  let s := s.free vdev.iomem
  if vdev.hvmPaddr = 0 then s else s.destroyHvmIomemMap vdev.hvmPaddr vdev.memSize

/-- `vdev->deinit`, which also frees the object that the vdev is in -/
def vdevDeinit (s : Hv) (vdev : GuestVdev) : Hv :=
  match vdev.kind with
  | .default => (s.vdevRelease vdev).freeSlab vdev.obj
  | .gicv3 gicr => (gicr.foldl freeSlab (s.vdevRelease vdev)).freeSlab vdev.obj
  | .bcm2836 iomem => ((s.free iomem).vdevRelease vdev).freeSlab vdev.obj

/-- `virq_destroy_vm` -/
def virqDestroyVm (s : Hv) (vm : GuestVm) : Hv :=
  let s := s.free vm.vspiDesc
  if vm.virqSamePage then s else s.free vm.vspiMap

/-- `release_mem_block` -/
def releaseBlock (s : Hv) (b : BlockRef) : Option Hv :=
  (releaseMemBlock s.pages.mm b).map fun mm =>
    { s with pages := { s.pages with mm := mm }, freed := s.freed ++ [.block b] }

/-- `release_vm_memory`. The list of blocks of an `mm` that was set to zero starts at `NULL`. -/
def releaseVmMemory (s : Hv) (mm : Option GuestMm) : Option Hv :=
  match mm with
  | none => none
  | some mm => (mm.blockList.foldlM releaseBlock s).map fun s =>
      (mm.head.foldl releasePage s).freePages mm.pgdBase

/-- `VMCS_SIZE` -/
def vmcsSize (nr : ℕ) : ℕ := balign (nr * 1024) PAGE_SIZE

/-- `destroy_vm` -/
def destroyVm (s : Hv) (vm : GuestVm) : Option Hv :=
  let s := vm.vdevList.foldl vdevDeinit s
  let s := s.virqDestroyVm vm
  let s := (vm.vcpus.foldl releaseVcpu s).freeSlab vm.vcpusAddr
  let s := if vm.hvmVmcs = 0 then s else s.destroyHvmIomemMap vm.hvmVmcs (vmcsSize vm.vcpuNr)
  let s := s.free vm.vmcs
  (s.releaseVmMemory vm.mm).map fun s =>
    { s with table := s.table.destroyVm vm.ref }.freeSlab vm.ref.addr

/-! ### Creation -/

/-- The VM that `__create_vm` makes. -/
def newGuestVm (nrCpus : ℕ) (tag : GuestTag) (ref : VmRef) (vcpus : ℕ) (native : Bool) :
    GuestVm where
  ref := ref
  vcpusAddr := vcpus
  vcpuNr := (min tag.nrVcpu nrCpus).toNat
  vcpus := []
  native := native
  virqChip := false
  vspiDesc := 0
  vspiMap := 0
  virqSamePage := false
  vdevList := []
  vmcs := 0
  hvmVmcs := 0
  mm := none

/-- `__create_vm` with the id `vmid`. For no vcpus `malloc` returns `NULL`, and for less than none
it looks for a pool in front of the first. -/
def createVmStruct (nrCpus : ℕ) (tag : GuestTag) (env : GuestEnv) (vmid : ℕ) (native : Bool)
    (s : Hv) : Option (Option GuestVm × Hv) :=
  if vmCheckVcpuAffinity nrCpus tag.vcpuAffinity tag.nrVcpu = false then some (none, s)
  else
    match s.malloc env.vm with
    | (none, s) => some (none, s)
    | (some addr, s) =>
      if tag.nrVcpu < 0 then none
      else
        match s.malloc (if tag.nrVcpu = 0 then .fail else env.vcpus) with
        | (none, s) => some (none, s.freeSlab addr)
        | (some vcpus, s) =>
          some (some (newGuestVm nrCpus tag ⟨addr, vmid⟩ vcpus native),
            { s with table := s.table.addVm ⟨addr, vmid⟩ })

/-- The end of `create_vm`, for a VM that is in the tables -/
def completeVm (nrCpus : ℕ) (tag : GuestTag) (env : GuestEnv) (vm : GuestVm) (s : Hv) :
    Option (Option GuestVm × Hv) :=
  match s.vmMmStructInit vm.native with
  | none => none
  | some (mm, s) =>
    match createVcpusFrom nrCpus tag.vcpuAffinity env vm.vcpuNr 0 [] s with
    | none => none
    | some (false, vcpus, s) =>
      (s.destroyVm { vm with mm := some mm, vcpus := vcpus }).map fun s => (none, s)
    | some (true, vcpus, s) =>
      match s.virqCreateVm env { vm with mm := some mm, vcpus := vcpus } with
      | (false, vm, s) => (s.destroyVm vm).map fun s => (none, s)
      | (true, vm, s) => some (some vm, s)

/-- `create_vm` after the id was found -/
def createVmWithId (nrCpus : ℕ) (tag : GuestTag) (env : GuestEnv) (vmid : ℕ) (native : Bool)
    (s : Hv) : Option (Option GuestVm × Hv) :=
  match s.createVmStruct nrCpus tag env vmid native with
  | none => none
  | some (none, s) => some (none, s)
  | some (some vm, s) => s.completeVm nrCpus tag env vm

/-- `create_vm`, where `VM_MAX_VCPU` is the number of processors -/
def createVm (nrCpus : ℕ) (tag : GuestTag) (env : GuestEnv) (s : Hv) :
    Option (Option GuestVm × Hv) :=
  if CONFIG_MAX_VM ≤ tag.vmid then
    match s.table.allocNewVmid with
    | (vmid, table) =>
      if vmid = VMID_INVALID then some (none, { s with table := table })
      else createVmWithId nrCpus tag env vmid false { s with table := table }
  else if s.table.vmidBitmap tag.vmid then some (none, s)
  else createVmWithId nrCpus tag env tag.vmid true
    { s with table := { s.table with vmidBitmap := setBit s.table.vmidBitmap tag.vmid } }

/-! ### The memory of a guest -/

/-- `vm_mmap_init`: the part of the window that the VM gets -/
def vmMmapInit (memsize : ℕ) (s : Hv) : Option (ℕ × Hv) :=
  if s.hvmNormalMmapSize < memsize then none
  else some (s.hvmNormalMmapBase, { s with
    hvmNormalMmapSize := sub64 s.hvmNormalMmapSize memsize
    hvmNormalMmapBase := add64 s.hvmNormalMmapBase memsize })

/-- The first loop of `alloc_vm_memory`: whether it gets all `n` blocks, and the list of blocks. -/
def takeBlocks : ℕ → GuestMm → Hv → Bool × GuestMm × Hv
  | 0, mm, s => (true, mm, s)
  | n + 1, mm, s =>
    match allocBlock s.pages GFB_VM with
    | none => (false, mm, s)
    | some (b, p) =>
      takeBlocks n { mm with
        blockList := mm.blockList ++ [b]
        freeSize := sub64 mm.freeSize Mm.MEM_BLOCK_SIZE } { s with
          pages := p
          allocated := s.allocated ++ [.block b] }

/-- `block->phy_base` -/
def blockPhyBase (s : PageMem) (b : BlockRef) : ℕ := (s.mm.block? b).elim 0 MemBlock.phyBase

/-- The second loop of `alloc_vm_memory` -/
def mapBlocks (pgd : ℕ) : List BlockRef → ℕ → MmState PageMem → ℤ × MmState PageMem
  | [], _, s => (0, s)
  | b :: rest, base, s =>
    let r := createGuestMapping pageOps pgd base (blockPhyBase s.alloc b) Mm.MEM_BLOCK_SIZE
      VM_NORMAL s
    if r.1 ≠ 0 then r else mapBlocks pgd rest (add64 base Mm.MEM_BLOCK_SIZE) r.2

/-- The pages that were taken since the memory was `p`, on the list of what was allocated -/
def newPages (p p' : PageMem) : List Resource :=
  (p'.live.drop p.live.length).map fun a => .pages a.addr

/-- `alloc_vm_memory`: whether it succeeds, and the `mm` after it, which is set to zero when it
fails. The number of blocks is an `int`. -/
def allocVmMemory (mm : GuestMm) (s : Hv) : Option (Bool × Option GuestMm × Hv) :=
  let base := align mm.virBase Mm.MEM_BLOCK_SIZE
  let count := (BitVec.ofNat 32 (mm.size >>> MEM_BLOCK_SHIFT)).toInt
  match takeBlocks count.toNat mm s with
  | (false, mm, s) => (s.releaseVmMemory (some mm)).map fun s => (false, none, s)
  | (true, mm, s) =>
    let r := mapBlocks mm.pgdBase mm.blockList base ⟨s.mem, s.pages, mm.head⟩
    let s := { s with
      mem := r.2.mem
      pages := r.2.alloc
      allocated := s.allocated ++ newPages s.pages r.2.alloc }
    let mm := { mm with head := r.2.head }
    if r.1 ≠ 0 then (s.releaseVmMemory (some mm)).map fun s => (false, none, s)
    else some (true, some mm, s)

/-- `guest_vm_memory_init` and what follows it in `create_guest_vm` -/
def initGuestMemory (tag : GuestTag) (vm : GuestVm) (s : Hv) : Option (Option GuestVm × Hv) :=
  match vm.mm with
  | none => none
  | some mm =>
    let size := tag.memSize.toNat
    let mm := { mm with virBase := tag.memBase.toNat, size := size, freeSize := size }
    match s.vmMmapInit size with
    | none => (s.destroyVm { vm with mm := some mm }).map fun s => (none, s)
    | some (mmapBase, s) =>
      match s.allocVmMemory { mm with hvmMmapBase := mmapBase } with
      | none => none
      | some (false, mm, s) => (s.destroyVm { vm with mm := mm }).map fun s => (none, s)
      | some (true, mm, s) => some (some { vm with mm := mm }, s)

/-- `create_guest_vm`. There is a VM in the result if the function returns a vmid. -/
def createGuestVm (nrCpus : ℕ) (tag : GuestTag) (env : GuestEnv) (s : Hv) :
    Option (Option GuestVm × Hv) :=
  if env.tagMapped = false then some (none, s)
  else
    match vmtagCheckAndConfig nrCpus tag s with
    | none => some (none, s)
    | some (tag, s) =>
      match s.createVm nrCpus tag env with
      | none => none
      | some (none, s) => some (none, s)
      | some (some vm, s) => s.initGuestMemory tag vm

end Hv

end Minos.Virt
