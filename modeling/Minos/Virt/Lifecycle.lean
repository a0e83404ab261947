import Mathlib
import Minos.Virt.CreateFail

/-!
# The life of a guest

Between its creation and its destruction a guest gets a VMCS area, irqs for it, an area for virtio
devices and the devices of its device tree, and it is started and powered off. `destroy_vm` gives
back a part of what all this takes: the pid and the task of a vcpu stay taken, whatever the guest
was.
-/

namespace Minos.Virt

open Bitmap Mm
open Mmu hiding MEM_BLOCK_SIZE

def VM_RW : ℕ := VM_RO ||| VM_WO

def VIRTIO_DEVICE_IOMEM_SIZE : ℕ := 0x400

def BCM2836_INC_BASE : ℕ := 0x40000000

namespace Hv

/-- `__get_io_pages`, where the mapping of a new block takes `tables` pages; the address is 0 when
there are no pages. -/
def getIoPages (s : Hv) (count tables : ℕ) : ℕ × Hv :=
  match allocPagesFromPool (tablePages tables) .io count 1 (GFB_PAGE ||| GFB_IO) s.pages with
  | (none, p) => (0, { s with pages := p })
  | (some page, p) =>
    let addr := pageAddr (p.phyBase page)
    (addr, { s with
      pages := noteAlloc count 1 (page, p)
      allocated := s.allocated ++ [.pages addr] })

/-- The page allocator under the mapping code, with what it hands out and takes back on the lists -/
def tableOps : PageOps Hv where
  allocPage s :=
    let r := s.getFreePages 1 1
    if r.1 = 0 then none else some r
  free s addr := { s with
    pages := Mm.freePages s.pages addr
    freed := s.freed ++ [.pages addr] }

/-- `create_guest_mapping` in the tables below `pgd`: the result, and the table pages of the VM -/
def mapGuest (pgd vir phy size flags : ℕ) (head : List ℕ) (s : Hv) : ℤ × List ℕ × Hv :=
  let r := createGuestMapping tableOps pgd vir phy size flags ⟨s.mem, s, head⟩
  (r.1, r.2.head, { r.2.alloc with mem := r.2.mem })

/-- `create_hvm_iomem_map`; the address is 0 when the window is too small, or VM0 cannot map it. -/
def createHvmIomemMap (phy size : ℕ) (s : Hv) : ℕ × Hv :=
  let size := balign (size % 2 ^ 32) PAGE_SIZE % 2 ^ 32
  if s.hvmIomemMmapSize < size then (0, s)
  else
    let base := s.hvmIomemMmapBase
    let r := mapGuest s.vm0Pgd base phy size VM_RW s.vm0Head { s with
      hvmIomemMmapSize := sub64 s.hvmIomemMmapSize size
      hvmIomemMmapBase := add64 base size }
    (if r.1 ≠ 0 then 0 else base, { r.2.2 with vm0Head := r.2.1 })

/-- `alloc_hvm_virq` -/
def allocHvmVirq (s : Hv) : ℤ × Hv :=
  let virq := findNextZeroBitLoop s.vm0SpiMap HVM_SPI_VIRQ_NR 0
  if HVM_SPI_VIRQ_NR ≤ virq then (-1, s)
  else (virq + VM_LOCAL_VIRQ_NR, { s with vm0SpiMap := setBit s.vm0SpiMap virq })

end Hv

/-- A guest between its creation and its destruction, with the hypervisor -/
structure Guest where
  vm : GuestVm
  mm : GuestMm
  hv : Hv

/-- The interrupt controller of a device tree, with what the slab has for its driver -/
inductive ChipNode where
  | gicv2 (gicdBase gicdSize giccBase giccSize gicvBase : ℕ) (dev vgicc chip : SlabReply)
  | gicv3 (gicdBase gicrBase gicrSize : ℕ) (dev : SlabReply) (gicr : ℕ → SlabReply)
      (chip : SlabReply)
  | bcm2836 (dev : SlabReply) (tables : ℕ) (chip : SlabReply)

/-- A device of a device tree: the regions of a physical device that are mapped, a virtio device, or
the watchdog or the clock -/
inductive DeviceNode where
  | pdev (regions : List (ℕ × ℕ))
  | virtio (base : ℕ) (dev : SlabReply)
  | vdev (base size : ℕ) (dev : SlabReply)

namespace Guest

/-! ### VMCS and virtio area -/

def malloc (g : Guest) (r : SlabReply) : Option ℕ × Guest :=
  ((g.hv.malloc r).1, { g with hv := (g.hv.malloc r).2 })

/-- `create_guest_mapping` -/
def map (vir phy size flags : ℕ) (g : Guest) : ℤ × Guest :=
  let r := Hv.mapGuest g.mm.pgdBase vir phy size flags g.mm.head g.hv
  (r.1, { g with mm := { g.mm with head := r.2.1 }, hv := r.2.2 })

/-- `vm_create_vmcs`. The vcpus have a `vmcs` from then on if `hvm_vmcs` is set. -/
def vmCreateVmcs (tables : ℕ) (g : Guest) : Guest :=
  if g.vm.vmcs ≠ 0 ∨ g.vm.hvmVmcs ≠ 0 then g
  else
    let size := Hv.vmcsSize g.vm.vcpuNr
    let r := g.hv.getIoPages (size / PAGE_SIZE) tables
    if r.1 = 0 then { g with hv := r.2 }
    else
      let r' := r.2.createHvmIomemMap r.1 size
      if r'.1 = 0 then { g with vm := { g.vm with vmcs := r.1 }, hv := r'.2.free r.1 }
      else { g with vm := { g.vm with vmcs := r.1, hvmVmcs := r'.1 }, hv := r'.2 }

/-- `vm_create_vmcs_irq` -/
def vmCreateVmcsIrq (vcpuId : ℕ) (g : Guest) : Guest :=
  match g.vm.vcpus[vcpuId]? with
  | none => g
  | some vcpu =>
    let r := g.hv.allocHvmVirq
    { g with
      vm := { g.vm with vcpus := g.vm.vcpus.set vcpuId { vcpu with vmcsIrq := r.1 } }
      hv := r.2 }

/-- `create_guest_vdev`; the address is 0 when there is no room. -/
def createGuestVdev (size : ℕ) (g : Guest) : ℕ × Guest :=
  let size := balign (size % 2 ^ 32) PAGE_SIZE % 2 ^ 32
  if g.mm.gvmIomemSize < size then (0, g)
  else (g.mm.gvmIomemBase, { g with mm := { g.mm with
    gvmIomemBase := add64 g.mm.gvmIomemBase size
    gvmIomemSize := sub64 g.mm.gvmIomemSize size } })

/-- `virtio_mmio_init`. The number of pages is an `int`; for a negative one there is no result
here. -/
def virtioMmioInit (size tables : ℕ) (g : Guest) : Option Guest :=
  if g.mm.virtioMmioIomem ≠ 0 then some g
  else if size = 0 then some g
  else
    let size := balign size PAGE_SIZE
    let r := g.createGuestVdev size
    if r.1 = 0 then some r.2
    else
      let count := (BitVec.ofNat 32 (size / PAGE_SIZE)).toInt
      if count < 0 then none
      else
        let r' := r.2.hv.getIoPages count.toNat tables
        if r'.1 = 0 then some { r.2 with hv := r'.2 }
        else
          let h := r'.2.createHvmIomemMap r'.1 size
          if h.1 = 0 then some { r.2 with hv := h.2.freePages r'.1 }
          else
            let m := map r.1 r'.1 size (VM_RO ||| VM_IO) { r.2 with hv := h.2 }
            if m.1 ≠ 0 then some { m.2 with hv := m.2.hv.freePages r'.1 }
            else some { m.2 with mm := { m.2.mm with
              virtioMmioGbase := r.1
              virtioMmioIomem := r'.1
              virtioMmioSize := size } }

/-- `virtio_mmio_deinit` -/
def virtioMmioDeinit (g : Guest) : Guest :=
  { g with
    mm := { g.mm with virtioMmioGbase := 0, virtioMmioIomem := 0, virtioMmioSize := 0 }
    hv := if g.mm.virtioMmioIomem = 0 then g.hv else g.hv.freePages g.mm.virtioMmioIomem }

/-! ### The devices of a device tree -/

/-- `host_vdev_init`, with the `deinit` and the `iomem` that its caller sets -/
def hostVdevInit (kind : VdevKind) (obj iomem base size : ℕ) (g : Guest) : Guest :=
  { g with vm := { g.vm with
    vdevList := g.vm.vdevList ++ [⟨kind, obj, iomem, 0, base, size % 2 ^ 32⟩] } }

/-- `alloc_virq_chip`: whether the driver has a chip. -/
def allocVirqChip (r : SlabReply) (g : Guest) : Bool × Guest :=
  ((g.malloc r).1.isSome, (g.malloc r).2)

/-- The loop of `vgicv3_virqchip_init` from the vcpu `i` on, with `n` vcpus to go: whether there is
memory for all of them, and the objects -/
def allocGicrs (gicr : ℕ → SlabReply) : ℕ → ℕ → List ℕ → Guest → Bool × List ℕ × Guest
  | 0, _, l, g => (true, l, g)
  | n + 1, i, l, g =>
    match g.malloc (gicr i) with
    | (none, g) => (false, l, g)
    | (some addr, g) => allocGicrs gicr n (i + 1) (l ++ [addr]) g

/-- `vgicv3_virqchip_init`. `vm_release_gic` leaves the vdev on the list of the VM. -/
def vgicv3VirqchipInit (gicdBase gicrBase gicrSize : ℕ) (dev : SlabReply) (gicr : ℕ → SlabReply)
    (chip : SlabReply) (g : Guest) : Bool × Guest :=
  match g.malloc dev with
  | (none, g) => (false, g)
  | (some obj, g) =>
    let size := sub64 (add64 gicrBase gicrSize) gicdBase
    match allocGicrs gicr g.vm.vcpuNr 0 [] g with
    | (false, l, g) =>
      let g := g.hostVdevInit .default obj 0 gicdBase size
      (false, { g with hv := (l.foldl Hv.freeSlab g.hv).freeSlab obj })
    | (true, l, g) => (g.hostVdevInit (.gicv3 l) obj 0 gicdBase size).allocVirqChip chip

/-- `vgicv2_create_vgicc` -/
def vgicv2CreateVgicc (base size : ℕ) (vgicc : SlabReply) (g : Guest) : Guest :=
  match g.malloc vgicc with
  | (none, g) => g
  | (some obj, g) => g.hostVdevInit .default obj 0 base size

/-- `vgicv2_virqchip_init` -/
def vgicv2VirqchipInit (gicdBase gicdSize giccBase giccSize gicvBase : ℕ)
    (dev vgicc chip : SlabReply) (g : Guest) : Bool × Guest :=
  match g.malloc dev with
  | (none, g) => (false, g)
  | (some obj, g) =>
    let g := g.hostVdevInit .default obj 0 gicdBase gicdSize
    let g := if gicvBase ≠ 0 then (g.map giccBase gicvBase giccSize VM_IO).2
      else g.vgicv2CreateVgicc giccBase giccSize vgicc
    g.allocVirqChip chip

/-- `bcm2836_virqchip_init` -/
def bcm2836VirqchipInit (dev : SlabReply) (tables : ℕ) (chip : SlabReply) (g : Guest) :
    Bool × Guest :=
  match g.malloc dev with
  | (none, g) => (false, g)
  | (some obj, g) =>
    let r := g.hv.getIoPages 1 tables
    if r.1 = 0 then (false, { g with hv := r.2.freeSlab obj })
    else
      let g := { g with hv := r.2 }.hostVdevInit (.bcm2836 r.1) obj 0 BCM2836_INC_BASE PAGE_SIZE
      (g.map BCM2836_INC_BASE r.1 PAGE_SIZE (VM_RO ||| VM_IO)).2.allocVirqChip chip

/-- The driver of an interrupt controller -/
def initChip (g : Guest) : ChipNode → Bool × Guest
  | .gicv2 gicdBase gicdSize giccBase giccSize gicvBase dev vgicc chip =>
    g.vgicv2VirqchipInit gicdBase gicdSize giccBase giccSize gicvBase dev vgicc chip
  | .gicv3 gicdBase gicrBase gicrSize dev gicr chip =>
    g.vgicv3VirqchipInit gicdBase gicrBase gicrSize dev gicr chip
  | .bcm2836 dev tables chip => g.bcm2836VirqchipInit dev tables chip

/-- `create_vm_irqchip_of` for the nodes of the tree, up to the first that has a chip -/
def createVmIrqchip : List ChipNode → Guest → Guest
  | [], g => g
  | c :: rest, g =>
    if g.vm.virqChip then g
    else
      match g.initChip c with
      | (true, g) => { g with vm := { g.vm with virqChip := true } }
      | (false, g) => createVmIrqchip rest g

/-- `virtio_create_device` -/
def virtioCreateDevice (base : ℕ) (dev : SlabReply) (g : Guest) : Guest :=
  if g.mm.virtioMmioIomem = 0 then g
  else if add64 g.mm.virtioMmioGbase g.mm.virtioMmioSize ≤ base then g
  else
    match g.malloc dev with
    | (none, g) => g
    | (some obj, g) =>
      let iomem := add64 g.mm.virtioMmioIomem (sub64 base g.mm.virtioMmioGbase)
      g.hostVdevInit .default obj iomem base VIRTIO_DEVICE_IOMEM_SIZE

/-- `vwdt_init` and `vrtc_init` -/
def vdevInit (base size : ℕ) (dev : SlabReply) (g : Guest) : Guest :=
  match g.malloc dev with
  | (none, g) => g
  | (some obj, g) => g.hostVdevInit .default obj 0 base size

/-- `__create_vm_resource_of` -/
def createVmResource (g : Guest) : DeviceNode → Guest
  | .pdev regions => regions.foldl (fun g r => (g.map r.1 r.1 r.2 VM_IO).2) g
  | .virtio base dev => g.virtioCreateDevice base dev
  | .vdev base size dev => g.vdevInit base size dev

/-- `vm_create_host_vdev` for a tree with these nodes. It panics if there is no chip. -/
def vmCreateHostVdev (chips : List ChipNode) (nodes : List DeviceNode) (g : Guest) :
    Option Guest :=
  let g := createVmIrqchip chips g
  if g.vm.virqChip then some (nodes.foldl createVmResource g) else none

/-! ### Start -/

/-- `task_vmodules_init`: the table of the contexts, and each context. There is no result when there
is no memory for one of them. -/
def taskVmodulesInit (contexts : List SlabReply) (g : Guest) : Option Guest :=
  contexts.foldlM (fun g r =>
    match g.malloc r with
    | (none, _) => none
    | (some _, g) => some g) g

/-- One round of the loop of `vm_vcpus_init`. A vcpu that has no `vmcs` is no vcpu of a guest. -/
def vcpuInit (contexts : ℕ → List SlabReply) (g : Guest) (i : ℕ) : Option Guest :=
  (taskVmodulesInit (contexts i) g).bind fun g =>
    if g.vm.native = false ∧ g.vm.hvmVmcs = 0 then none else some g

/-- `vm_power_up` -/
def vmPowerUp (contexts : ℕ → List SlabReply) (g : Guest) : Option Guest :=
  (List.range g.vm.vcpus.length).foldlM (vcpuInit contexts) g

end Guest

/-! ### Runs -/

/-- What can happen to a guest. -/
inductive LifeEvent where
  | vmcs (tables : ℕ)
  | vmcsIrq (vcpuId : ℕ)
  | virtioMmio (size tables : ℕ)
  | virtioMmioDeinit
  | hostVdev (chips : List ChipNode) (nodes : List DeviceNode)
  | powerUp (contexts : ℕ → List SlabReply)
  /-- `vm_power_off`, which changes the states of the tasks -/
  | powerOff

def lifeStep (g : Guest) : LifeEvent → Option Guest
  | .vmcs tables => some (g.vmCreateVmcs tables)
  | .vmcsIrq vcpuId => some (g.vmCreateVmcsIrq vcpuId)
  | .virtioMmio size tables => g.virtioMmioInit size tables
  | .virtioMmioDeinit => some g.virtioMmioDeinit
  | .hostVdev chips nodes => g.vmCreateHostVdev chips nodes
  | .powerUp contexts => g.vmPowerUp contexts
  | .powerOff => some g

/-- The end of a run: `destroy_vm` -/
def Guest.destroy (g : Guest) : Option Hv := g.hv.destroyVm { g.vm with mm := some g.mm }

/-- The whole life of a guest, from `create_guest_vm` to `destroy_vm` -/
def Hv.lifecycle (nrCpus : ℕ) (tag : GuestTag) (env : GuestEnv) (events : List LifeEvent)
    (s : Hv) : Option Hv :=
  (s.createGuestVm nrCpus tag env).bind fun r => r.1.bind fun vm => vm.mm.bind fun mm =>
    (events.foldlM lifeStep ⟨vm, mm, r.2⟩).bind Guest.destroy

/-! ### The claim -/

/-- All that was allocated was freed once, and nothing else was freed, and all is as it was. -/
structure Conserves (s s' : Hv) : Prop where
  once : ∃ l l', s'.allocated = s.allocated ++ l ∧ s'.freed = s.freed ++ l' ∧ l'.Perm l
  pages : SamePages s.pages s'.pages
  pids : s'.pidMap = s.pidMap
  virqs : s'.vm0SpiMap = s.vm0SpiMap
  normalBase : s'.hvmNormalMmapBase = s.hvmNormalMmapBase
  normalSize : s'.hvmNormalMmapSize = s.hvmNormalMmapSize
  iomemBase : s'.hvmIomemMmapBase = s.hvmIomemMmapBase
  iomemSize : s'.hvmIomemMmapSize = s.hvmIomemMmapSize

/-! ### No step gives a pid back -/

namespace Hv

variable {s s' : Hv}

lemma getIoPages_pidMap (s : Hv) (count tables : ℕ) :
    (s.getIoPages count tables).2.pidMap = s.pidMap := by
  rw [getIoPages]
  split
  · rfl
  · rfl

lemma mapGuest_pidMap (pgd vir phy size flags : ℕ) (head : List ℕ) (s : Hv) :
    (mapGuest pgd vir phy size flags head s).2.2.pidMap = s.pidMap := by
  have halloc : ∀ (a : Hv) p a', a.pidMap = s.pidMap → tableOps.allocPage a = some (p, a') →
      a'.pidMap = s.pidMap := by
    intro a p a' ha h
    rw [tableOps] at h
    dsimp only at h
    split_ifs at h
    have hpage := a.getFreePages_pidMap 1 1
    rw [Option.some.inj h] at hpage
    exact hpage.trans ha
  have hfree : ∀ (a : Hv) (p : ℕ), a.pidMap = s.pidMap →
      (tableOps.free a p).pidMap = s.pidMap := by
    intro a p ha
    rw [tableOps]
    exact ha
  have hkeep : ∀ info, (createTableEntry tableOps info ⟨s.mem, s, head⟩).2.alloc.pidMap =
      s.pidMap := fun info =>
    createTableEntry_keeps (P := fun a : Hv => a.pidMap = s.pidMap) halloc hfree _
      (Nat.lt_succ_self _) rfl
  have hmap : (createGuestMapping tableOps pgd vir phy size flags ⟨s.mem, s, head⟩).2.alloc.pidMap =
      s.pidMap := by
    rw [createGuestMapping, createMemMapping]
    exact hkeep _
  unfold mapGuest
  generalize createGuestMapping tableOps pgd vir phy size flags ⟨s.mem, s, head⟩ = r at hmap ⊢
  obtain ⟨ret, mem, a, head⟩ := r
  exact hmap

lemma createHvmIomemMap_pidMap (phy size : ℕ) (s : Hv) :
    (s.createHvmIomemMap phy size).2.pidMap = s.pidMap := by
  rw [createHvmIomemMap]
  dsimp only
  generalize balign (size % 2 ^ 32) PAGE_SIZE % 2 ^ 32 = size
  by_cases hfull : s.hvmIomemMmapSize < size
  · rw [if_pos hfull]
  · rw [if_neg hfull]
    have hmap := mapGuest_pidMap s.vm0Pgd s.hvmIomemMmapBase phy size VM_RW s.vm0Head { s with
      hvmIomemMmapSize := sub64 s.hvmIomemMmapSize size
      hvmIomemMmapBase := add64 s.hvmIomemMmapBase size }
    generalize mapGuest _ _ _ _ _ _ _ = r at hmap ⊢
    obtain ⟨ret, head, t⟩ := r
    exact hmap

lemma allocHvmVirq_pidMap (s : Hv) : s.allocHvmVirq.2.pidMap = s.pidMap := by
  rw [allocHvmVirq]
  split_ifs
  · rfl
  · rfl

end Hv

namespace Guest

variable {g g' : Guest}

lemma malloc_pidMap (g : Guest) (r : SlabReply) : (g.malloc r).2.hv.pidMap = g.hv.pidMap :=
  g.hv.malloc_pidMap r

lemma map_pidMap (vir phy size flags : ℕ) (g : Guest) :
    (g.map vir phy size flags).2.hv.pidMap = g.hv.pidMap := by
  have hmap := Hv.mapGuest_pidMap g.mm.pgdBase vir phy size flags g.mm.head g.hv
  rw [map]
  generalize Hv.mapGuest _ _ _ _ _ _ _ = r at hmap ⊢
  exact hmap

lemma hostVdevInit_pidMap (kind : VdevKind) (obj iomem base size : ℕ) (g : Guest) :
    (g.hostVdevInit kind obj iomem base size).hv.pidMap = g.hv.pidMap := by
  rw [hostVdevInit]

lemma allocVirqChip_pidMap (r : SlabReply) (g : Guest) :
    (g.allocVirqChip r).2.hv.pidMap = g.hv.pidMap := g.malloc_pidMap r

lemma vmCreateVmcs_pidMap (tables : ℕ) (g : Guest) :
    (g.vmCreateVmcs tables).hv.pidMap = g.hv.pidMap := by
  have hpages := g.hv.getIoPages_pidMap (Hv.vmcsSize g.vm.vcpuNr / PAGE_SIZE) tables
  rw [vmCreateVmcs]
  by_cases hdone : g.vm.vmcs ≠ 0 ∨ g.vm.hvmVmcs ≠ 0
  · rw [if_pos hdone]
  rw [if_neg hdone]
  dsimp only
  generalize g.hv.getIoPages _ tables = r at hpages ⊢
  have hmap := Hv.createHvmIomemMap_pidMap r.1 (Hv.vmcsSize g.vm.vcpuNr) r.2
  generalize Hv.createHvmIomemMap r.1 _ r.2 = r' at hmap ⊢
  split_ifs
  · exact hpages
  · exact (Hv.free_pidMap ..).trans (hmap.trans hpages)
  · exact hmap.trans hpages

lemma vmCreateVmcsIrq_pidMap (vcpuId : ℕ) (g : Guest) :
    (g.vmCreateVmcsIrq vcpuId).hv.pidMap = g.hv.pidMap := by
  rw [vmCreateVmcsIrq]
  split
  · rfl
  · dsimp only
    rw [Hv.allocHvmVirq_pidMap]

lemma createGuestVdev_hv (size : ℕ) (g : Guest) : (g.createGuestVdev size).2.hv = g.hv := by
  rw [createGuestVdev]
  dsimp only
  split_ifs
  · rfl
  · rfl

lemma virtioMmioInit_pidMap {size tables : ℕ} (h : g.virtioMmioInit size tables = some g') :
    g'.hv.pidMap = g.hv.pidMap := by
  rw [virtioMmioInit] at h
  by_cases hinit : g.mm.virtioMmioIomem ≠ 0
  · rw [if_pos hinit] at h
    rw [← Option.some.inj h]
  by_cases hsize : size = 0
  · rw [if_neg hinit, if_pos hsize] at h
    rw [← Option.some.inj h]
  rw [if_neg hinit, if_neg hsize] at h
  dsimp only at h
  generalize balign size PAGE_SIZE = size at h
  have hvdev := createGuestVdev_hv size g
  generalize g.createGuestVdev size = r at h hvdev
  have hpages := r.2.hv.getIoPages_pidMap (BitVec.ofNat 32 (size / PAGE_SIZE)).toInt.toNat tables
  generalize r.2.hv.getIoPages _ tables = r' at h hpages
  rw [hvdev] at hpages
  have hhvm := Hv.createHvmIomemMap_pidMap r'.1 size r'.2
  rw [hpages] at hhvm
  generalize Hv.createHvmIomemMap r'.1 size r'.2 = r'' at h hhvm
  have hmap := map_pidMap r.1 r'.1 size (VM_RO ||| VM_IO) { r.2 with hv := r''.2 }
  generalize map r.1 r'.1 size (VM_RO ||| VM_IO) { r.2 with hv := r''.2 } = m at h hmap
  split_ifs at h
  · rw [← Option.some.inj h, hvdev]
  · rw [← Option.some.inj h]
    exact hpages
  · rw [← Option.some.inj h]
    exact (Hv.freePages_pidMap ..).trans hhvm
  · rw [← Option.some.inj h]
    exact (Hv.freePages_pidMap ..).trans (hmap.trans hhvm)
  · rw [← Option.some.inj h]
    exact hmap.trans hhvm

lemma virtioMmioDeinit_pidMap (g : Guest) : g.virtioMmioDeinit.hv.pidMap = g.hv.pidMap := by
  rw [virtioMmioDeinit]
  split_ifs
  · rfl
  · rw [Hv.freePages_pidMap]

lemma allocGicrs_pidMap (gicr : ℕ → SlabReply) (n i : ℕ) (l : List ℕ) (g : Guest) :
    (allocGicrs gicr n i l g).2.2.hv.pidMap = g.hv.pidMap := by
  induction n generalizing i l g with
  | zero => rfl
  | succ n ih =>
    have hm := g.malloc_pidMap (gicr i)
    rw [allocGicrs]
    split
    · rename_i heq
      rw [heq] at hm
      exact hm
    · rename_i heq
      rw [heq] at hm
      rw [ih]
      exact hm

lemma vgicv3VirqchipInit_pidMap (gicdBase gicrBase gicrSize : ℕ) (dev : SlabReply)
    (gicr : ℕ → SlabReply) (chip : SlabReply) (g : Guest) :
    (g.vgicv3VirqchipInit gicdBase gicrBase gicrSize dev gicr chip).2.hv.pidMap =
      g.hv.pidMap := by
  have hm := g.malloc_pidMap dev
  rw [vgicv3VirqchipInit]
  split
  · rename_i heq
    rw [heq] at hm
    exact hm
  · rename_i obj t heq
    rw [heq] at hm
    have hgicrs := allocGicrs_pidMap gicr t.vm.vcpuNr 0 [] t
    dsimp only
    split
    · rename_i hl
      rw [hl] at hgicrs
      dsimp only
      rw [Hv.freeSlab_pidMap, Hv.foldl_pidMap Hv.freeSlab_pidMap, hostVdevInit_pidMap, hgicrs]
      exact hm
    · rename_i hl
      rw [hl] at hgicrs
      rw [allocVirqChip_pidMap, hostVdevInit_pidMap, hgicrs]
      exact hm

lemma vgicv2CreateVgicc_pidMap (base size : ℕ) (vgicc : SlabReply) (g : Guest) :
    (g.vgicv2CreateVgicc base size vgicc).hv.pidMap = g.hv.pidMap := by
  have hm := g.malloc_pidMap vgicc
  rw [vgicv2CreateVgicc]
  split
  · rename_i heq
    rw [heq] at hm
    exact hm
  · rename_i heq
    rw [heq] at hm
    rw [hostVdevInit_pidMap, hm]

lemma vgicv2VirqchipInit_pidMap (gicdBase gicdSize giccBase giccSize gicvBase : ℕ)
    (dev vgicc chip : SlabReply) (g : Guest) :
    (g.vgicv2VirqchipInit gicdBase gicdSize giccBase giccSize gicvBase dev vgicc
      chip).2.hv.pidMap = g.hv.pidMap := by
  have hm := g.malloc_pidMap dev
  rw [vgicv2VirqchipInit]
  split
  · rename_i heq
    rw [heq] at hm
    exact hm
  · rename_i heq
    rw [heq] at hm
    rw [allocVirqChip_pidMap]
    split_ifs
    · rw [map_pidMap, hostVdevInit_pidMap, hm]
    · rw [vgicv2CreateVgicc_pidMap, hostVdevInit_pidMap, hm]

lemma bcm2836VirqchipInit_pidMap (dev : SlabReply) (tables : ℕ) (chip : SlabReply) (g : Guest) :
    (g.bcm2836VirqchipInit dev tables chip).2.hv.pidMap = g.hv.pidMap := by
  have hm := g.malloc_pidMap dev
  rw [bcm2836VirqchipInit]
  split
  · rename_i heq
    rw [heq] at hm
    exact hm
  · rename_i obj t heq
    rw [heq] at hm
    have hpage := t.hv.getIoPages_pidMap 1 tables
    dsimp only
    generalize t.hv.getIoPages 1 tables = r at hpage ⊢
    split_ifs
    · exact (Hv.freeSlab_pidMap ..).trans (hpage.trans hm)
    · rw [allocVirqChip_pidMap, map_pidMap, hostVdevInit_pidMap]
      exact hpage.trans hm

lemma initChip_pidMap (g : Guest) (c : ChipNode) : (g.initChip c).2.hv.pidMap = g.hv.pidMap := by
  cases c with
  | gicv2 => exact vgicv2VirqchipInit_pidMap ..
  | gicv3 => exact vgicv3VirqchipInit_pidMap ..
  | bcm2836 => exact bcm2836VirqchipInit_pidMap ..

lemma createVmIrqchip_pidMap (chips : List ChipNode) (g : Guest) :
    (createVmIrqchip chips g).hv.pidMap = g.hv.pidMap := by
  induction chips generalizing g with
  | nil => rfl
  | cons c rest ih =>
    have hchip := g.initChip_pidMap c
    rw [createVmIrqchip]
    split_ifs
    · rfl
    · split
      · rename_i heq
        rw [heq] at hchip
        exact hchip
      · rename_i heq
        rw [heq] at hchip
        rw [ih, hchip]

lemma foldl_pidMap {α : Type} {f : Guest → α → Guest}
    (hf : ∀ g x, (f g x).hv.pidMap = g.hv.pidMap) (l : List α) (g : Guest) :
    (l.foldl f g).hv.pidMap = g.hv.pidMap := by
  induction l generalizing g with
  | nil => rfl
  | cons x rest ih => rw [List.foldl_cons, ih, hf]

lemma foldlM_pidMap {α : Type} {f : Guest → α → Option Guest}
    (hf : ∀ g g' x, f g x = some g' → g'.hv.pidMap = g.hv.pidMap) {l : List α}
    (h : l.foldlM f g = some g') : g'.hv.pidMap = g.hv.pidMap := by
  induction l generalizing g with
  | nil =>
    obtain rfl := Option.some.inj h
    rfl
  | cons x rest ih =>
    rw [List.foldlM_cons] at h
    obtain ⟨t, ht, h⟩ := Option.bind_eq_some_iff.1 h
    rw [ih h, hf _ _ _ ht]

lemma createVmResource_pidMap (g : Guest) (d : DeviceNode) :
    (g.createVmResource d).hv.pidMap = g.hv.pidMap := by
  cases d with
  | pdev regions => exact foldl_pidMap (fun g r => g.map_pidMap ..) regions g
  | virtio base dev =>
    have hm := g.malloc_pidMap dev
    rw [createVmResource, virtioCreateDevice]
    split_ifs
    · rfl
    · rfl
    · split
      · rename_i heq
        rw [heq] at hm
        exact hm
      · rename_i heq
        rw [heq] at hm
        rw [hostVdevInit_pidMap, hm]
  | vdev base size dev =>
    have hm := g.malloc_pidMap dev
    rw [createVmResource, vdevInit]
    split
    · rename_i heq
      rw [heq] at hm
      exact hm
    · rename_i heq
      rw [heq] at hm
      rw [hostVdevInit_pidMap, hm]

lemma vcpuInit_pidMap {contexts : ℕ → List SlabReply} {i : ℕ}
    (h : g.vcpuInit contexts i = some g') : g'.hv.pidMap = g.hv.pidMap := by
  obtain ⟨t, ht, h⟩ := Option.bind_eq_some_iff.1 h
  split_ifs at h
  obtain rfl := Option.some.inj h
  refine foldlM_pidMap (fun g g' r hr => ?_) ht
  have hm := g.malloc_pidMap r
  split at hr
  · cases hr
  · rename_i heq
    obtain rfl := Option.some.inj hr
    rw [heq] at hm
    exact hm

end Guest

/-- No step of the life of a guest changes which pids are taken. -/
lemma lifeStep_pidMap (g g' : Guest) (e : LifeEvent) (h : lifeStep g e = some g') :
    g'.hv.pidMap = g.hv.pidMap := by
  cases e with
  | vmcs tables =>
    obtain rfl := Option.some.inj h
    exact g.vmCreateVmcs_pidMap tables
  | vmcsIrq vcpuId =>
    obtain rfl := Option.some.inj h
    exact g.vmCreateVmcsIrq_pidMap vcpuId
  | virtioMmio size tables => exact Guest.virtioMmioInit_pidMap h
  | virtioMmioDeinit =>
    obtain rfl := Option.some.inj h
    exact g.virtioMmioDeinit_pidMap
  | hostVdev chips nodes =>
    rw [lifeStep, Guest.vmCreateHostVdev] at h
    split_ifs at h
    obtain rfl := Option.some.inj h
    rw [Guest.foldl_pidMap Guest.createVmResource_pidMap, Guest.createVmIrqchip_pidMap]
  | powerUp contexts => exact Guest.foldlM_pidMap (fun _ _ _ => Guest.vcpuInit_pidMap) h
  | powerOff =>
    obtain rfl := Option.some.inj h
    rfl

/-! ### A guest has a vcpu -/

namespace Hv

variable {s t : Hv} {nrCpus vmid : ℕ} {tag : GuestTag} {env : GuestEnv} {native : Bool}
  {vm : GuestVm}

/-- A VM that was made has vcpus. -/
lemma createVmStruct_vcpus (h : s.createVmStruct nrCpus tag env vmid native = some (some vm, t)) :
    vmCheckVcpuAffinity nrCpus tag.vcpuAffinity tag.nrVcpu = true ∧ 0 < tag.nrVcpu ∧
      (∃ ref vcpus, vm = newGuestVm nrCpus tag ref vcpus native) ∧ t.pidMap = s.pidMap := by
  by_cases hrefused : vmCheckVcpuAffinity nrCpus tag.vcpuAffinity tag.nrVcpu = false ∨
      (slabPages env.vm s.pages).1 = none
  · rw [createVmStruct_refused hrefused] at h
    simp at h
  rw [not_or, Bool.not_eq_false] at hrefused
  obtain ⟨haff, hvm⟩ := hrefused
  obtain ⟨addr, haddr⟩ := Option.ne_none_iff_exists'.1 hvm
  by_cases hnr : tag.nrVcpu < 0
  · rw [createVmStruct_negative haff hvm hnr] at h
    cases h
  rw [not_lt] at hnr
  cases hvcpus : (structPages tag env s.pages).1 with
  | none =>
    obtain ⟨allocated, hr⟩ := createVmStruct_noVcpus haff haddr hnr hvcpus
    rw [hr] at h
    simp at h
  | some vcpus =>
    have hne : tag.nrVcpu ≠ 0 := by
      intro hz
      rw [structPages, vcpusReply, if_pos hz] at hvcpus
      cases hvcpus
    obtain ⟨allocated, hr⟩ := createVmStruct_made haff haddr hnr hvcpus
    rw [hr] at h
    obtain ⟨hvm, rfl⟩ := Prod.mk.inj (Option.some.inj h)
    exact ⟨haff, lt_of_le_of_ne hnr (Ne.symm hne), ⟨_, _, (Option.some.inj hvm).symm⟩, rfl⟩

/-- A VM that is complete has a new pid. -/
lemma createVmWithId_pids (h : s.createVmWithId nrCpus tag env vmid native = some (some vm, t)) :
    s.pidMap < t.pidMap := by
  rw [createVmWithId] at h
  split at h
  · cases h
  · simp at h
  · rename_i vm' u hstruct
    obtain ⟨haff, hnr, ⟨ref, vcpus, rfl⟩, hpids⟩ := createVmStruct_vcpus hstruct
    have hfirst := vmCheckVcpuAffinity_first hnr haff
    have hpos : 0 < (min tag.nrVcpu nrCpus).toNat := by omega
    rw [← hpids]
    refine (completeVm_pids hfirst hpos h).resolve_right fun hno => ?_
    rw [completeVm_noPid env hno hpos] at h
    obtain ⟨r, -, h⟩ := Option.bind_eq_some_iff.1 h
    split_ifs at h
    simp at h

lemma createVm_pids (h : s.createVm nrCpus tag env = some (some vm, t)) :
    s.pidMap < t.pidMap := by
  rw [createVm] at h
  split_ifs at h with hauto hused
  · dsimp only at h
    split_ifs at h
    · simp at h
    · have hlt := createVmWithId_pids h
      exact hlt
  · simp at h
  · have hlt := createVmWithId_pids h
    exact hlt

lemma createGuestVm_pids (h : s.createGuestVm nrCpus tag env = some (some vm, t)) :
    s.pidMap < t.pidMap := by
  rw [createGuestVm_eq] at h
  split_ifs at h
  · simp at h
  cases htag : vmtagCheckAndConfig nrCpus tag s with
  | none => simp [htag] at h
  | some r =>
    obtain ⟨tag', s'⟩ := r
    obtain ⟨-, affinity, rfl⟩ := vmtagCheckAndConfig_eq htag
    rw [htag, Option.elim_some] at h
    cases hvm : createVm nrCpus tag' env { s with affinity := affinity } with
    | none => simp [hvm, afterCreateVm] at h
    | some q =>
      obtain ⟨vm', u⟩ := q
      cases vm' with
      | none => simp [hvm, afterCreateVm] at h
      | some vm' =>
        simp only [hvm, afterCreateVm] at h
        rw [initGuestMemory_pidMap h]
        have hlt := createVm_pids hvm
        exact hlt

end Hv

/-- Whatever the guest and whatever happened to it, its creation and its destruction do not leave
everything as it was. -/
theorem create_destroy_never_conserves {nrCpus : ℕ} {tag : GuestTag} {env : GuestEnv}
    {events : List LifeEvent} {s s' : Hv} (h : s.lifecycle nrCpus tag env events = some s') :
    ¬ Conserves s s' := by
  obtain ⟨⟨vm, t⟩, hcreate, h⟩ := Option.bind_eq_some_iff.1 h
  obtain ⟨vm, rfl, h⟩ := Option.bind_eq_some_iff.1 h
  obtain ⟨mm, -, h⟩ := Option.bind_eq_some_iff.1 h
  obtain ⟨g, hevents, hdestroy⟩ := Option.bind_eq_some_iff.1 h
  have hlt := Hv.createGuestVm_pids hcreate
  rw [← Guest.foldlM_pidMap lifeStep_pidMap hevents, ← Hv.destroyVm_pidMap hdestroy] at hlt
  intro hcons
  rw [hcons.pids] at hlt
  exact lt_irrefl _ hlt

/-- The machine with VM0 -/
def vm0Hv : Hv := { freshHv with table := ⟨fun i => i = 0,
  fun i => if i = 0 then some ⟨0x80, 0⟩ else none, 1, [⟨0x80, 0⟩]⟩ }

/-- A tag for a guest with any id -/
def guestTag : GuestTag := { oneVcpuTag 0 0x200000 with vmid := 64 }

/-- The guest gets a controller and two virtio devices, and is started and powered off. -/
def guestEvents : List LifeEvent :=
  [.vmcs 0, .vmcsIrq 0, .virtioMmio 0x1000 0,
    .hostVdev [.gicv3 0x2f000000 0x2f100000 0x20000 (.object 0x600) (fun _ => .object 0x700)
      (.object 0x800)] [.virtio 0x40000000 (.object 0x900), .virtio 0x40000400 (.object 0xa00)],
    .powerUp fun _ => [.object 0xb00, .object 0xc00], .powerOff]

theorem create_destroy_never_conserves_virtio :
    ∃ s', vm0Hv.lifecycle 4 guestTag oneVcpuEnv guestEvents = some s' ∧ ¬ Conserves vm0Hv s' := by
  have hsome : (vm0Hv.lifecycle 4 guestTag oneVcpuEnv guestEvents).isSome := by decide +kernel
  obtain ⟨s', hs'⟩ := Option.isSome_iff_exists.1 hsome
  exact ⟨s', hs', create_destroy_never_conserves hs'⟩

/-- The shortest life: the guest is created and destroyed. The pid of its vcpu and its part of the
window stay taken. -/
theorem create_destroy_leaks : ∃ s', vm0Hv.lifecycle 4 guestTag oneVcpuEnv [] = some s' ∧
    vm0Hv.pidMap 64 = false ∧ s'.pidMap 64 = true ∧
    s'.hvmNormalMmapSize + 0x200000 = vm0Hv.hvmNormalMmapSize ∧ ¬ Conserves vm0Hv s' := by
  have hrun : (vm0Hv.lifecycle 4 guestTag oneVcpuEnv []).map
      (fun s' => (s'.pidMap 64, s'.hvmNormalMmapSize)) = some (true, 0xdf7fe00000) := by
    decide +kernel
  obtain ⟨s', hs', h⟩ := Option.map_eq_some_iff.1 hrun
  obtain ⟨hpid, hsize⟩ := Prod.mk.inj h
  refine ⟨s', hs', rfl, hpid, ?_, fun hcons => ?_⟩
  · rw [hsize]
    rfl
  · rw [hcons.pids] at hpid
    cases hpid

end Minos.Virt
