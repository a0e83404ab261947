import Mathlib
import Minos.Virt.GuestMemory

/-!
# Creations that fail

When `create_guest_vm` fails it leaves nothing behind only if it comes to nothing that it takes for
good: the pid of a vcpu is never given back, an id is lost when `__create_vm` fails, and the window
of VM0 does not grow again. A failure after the blocks were asked for does not even come back, since
`release_vm_memory` runs a second time.
-/

namespace Minos.Virt

open Bitmap Mm
open Mmu hiding MEM_BLOCK_SIZE

/-! ### The claim -/

/-- The same blocks and pages are taken, and the counters of the sections agree. -/
structure SamePages (p p' : PageMem) : Prop where
  bits : p'.bit = p.bit
  counts : p'.mm.memSections.map MemSection.freeBlocks = p.mm.memSections.map MemSection.freeBlocks
  total : p'.mm.freeBlocks = p.mm.freeBlocks

/-- What a call took it gave back, and it gave back nothing twice. -/
structure NoTrace (s s' : Hv) : Prop where
  pages : SamePages s.pages s'.pages
  table : s'.table = s.table
  pids : s'.pidMap = s.pidMap
  windowBase : s'.hvmNormalMmapBase = s.hvmNormalMmapBase
  windowSize : s'.hvmNormalMmapSize = s.hvmNormalMmapSize
  once : ∃ l, s'.freed = s.freed ++ l ∧ l.Nodup

/-- The call returns an error, and leaves no trace. -/
def FailsCleanly (s : Hv) (r : Option (Option GuestVm × Hv)) : Prop :=
  ∃ s', r = some (none, s') ∧ NoTrace s s'

/-- What `malloc` says when it is asked for `vcpus`. -/
def vcpusReply (tag : GuestTag) (env : GuestEnv) : SlabReply :=
  if tag.nrVcpu = 0 then .fail else env.vcpus

/-- The sections and the pools after the two `malloc`s of `__create_vm` -/
def structPages (tag : GuestTag) (env : GuestEnv) (p : PageMem) : Option ℕ × PageMem :=
  slabPages (vcpusReply tag env) (slabPages env.vm p).2

/-- The sections and the pools after the pages of a root table were taken and freed again -/
def rootRoundTrip (p : PageMem) : Option PageMem :=
  match allocPages p GVM_PGD_PAGE_NR GVM_PGD_PAGE_ALIGN with
  | (none, _) => none
  | (some page, q) =>
    let addr := pageAddr (q.phyBase page)
    if addr = 0 then none
    else some (Mm.freePages (noteAlloc GVM_PGD_PAGE_NR GVM_PGD_PAGE_ALIGN (page, q)) addr)

/-- `__create_vm` makes no VM, and the slab takes no block for it. -/
def NoVmStruct (nrCpus : ℕ) (tag : GuestTag) (env : GuestEnv) (p : PageMem) : Prop :=
  vmCheckVcpuAffinity nrCpus tag.vcpuAffinity tag.nrVcpu = false ∨ (slabPages env.vm p).1 = none ∨
    0 ≤ tag.nrVcpu ∧ (structPages tag env p).1 = none ∧ SamePages p (structPages tag env p).2

/-- All pids that a vcpu can have are taken. -/
def NoPid (m : Bitmap) : Prop :=
  ∀ pid, OS_REALTIME_TASK ≤ pid → pid < OS_NR_TASKS → m pid = true

/-- `__create_vm` makes a VM, but there is no pid for its first vcpu, and `vcpus` happens to be
clear. What was taken until then can be given back. -/
structure NoPidLeft (nrCpus : ℕ) (tag : GuestTag) (env : GuestEnv) (s : Hv) : Prop where
  affinity : vmCheckVcpuAffinity nrCpus tag.vcpuAffinity tag.nrVcpu = true
  vm : (slabPages env.vm s.pages).1 ≠ none
  nrVcpu : 0 ≤ tag.nrVcpu
  vcpus : (structPages tag env s.pages).1 ≠ none
  noPid : NoPid s.pidMap
  clear : env.vcpusClear = true
  root : ∃ q, rootRoundTrip (structPages tag env s.pages).2 = some q ∧ SamePages s.pages q

/-- A tag that was accepted is refused before something is taken for good: the id is in use, or
there is no id left and no memory for the VM, or there is no pid for the first vcpu. -/
def RefusedInTime (nrCpus : ℕ) (tag : GuestTag) (env : GuestEnv) (s : Hv) : Prop :=
  if CONFIG_MAX_VM ≤ tag.vmid then
    ¬ HasFreeId s.table ∧ NoVmStruct nrCpus tag env s.pages ∨ NoPidLeft nrCpus tag env s
  else s.table.vmidBitmap tag.vmid = true ∨ NoPidLeft nrCpus tag env s

/-- The tag cannot be mapped, or is not accepted, or is refused in time. -/
def Harmless (nrCpus : ℕ) (tag : GuestTag) (env : GuestEnv) (s : Hv) : Prop :=
  env.tagMapped = false ∨ ∀ tag' s', Hv.vmtagCheckAndConfig nrCpus tag s = some (tag', s') →
    RefusedInTime nrCpus tag' env s'

/-- There is no VM under an id that is free, nor behind the last id. -/
structure TablesFit (t : VmTable) : Prop where
  free : ∀ i, t.vmidBitmap i = false → t.vms i = none
  last : t.vmidBitmap CONFIG_MAX_VM = false

/-- `malloc` returns objects that nobody has. -/
structure GuestEnv.Fresh (env : GuestEnv) (s : Hv) : Prop where
  vm : ∀ p addr, (slabPages env.vm p).1 = some addr → ∀ vm ∈ s.table.vmList, vm.addr ≠ addr
  distinct : ∀ p q addr addr', (slabPages env.vm p).1 = some addr →
    (slabPages env.vcpus q).1 = some addr' → addr ≠ addr'

/-! ### The pids -/

namespace Hv

variable {s s' : Hv}

lemma malloc_eq (s : Hv) (r : SlabReply) : ∃ allocated, s.malloc r =
    ((slabPages r s.pages).1, { s with
      pages := (slabPages r s.pages).2
      allocated := allocated }) := by
  rw [malloc]
  cases slabPages r s.pages with
  | mk addr p =>
    cases addr with
    | none => exact ⟨_, rfl⟩
    | some addr => exact ⟨_, rfl⟩

lemma malloc_pidMap (s : Hv) (r : SlabReply) : (s.malloc r).2.pidMap = s.pidMap := by
  obtain ⟨_, h⟩ := s.malloc_eq r
  rw [h]

lemma getFreePages_pidMap (s : Hv) (count align : ℕ) :
    (s.getFreePages count align).2.pidMap = s.pidMap := by
  rw [getFreePages]
  split
  · rfl
  · rfl

lemma free_pidMap (s : Hv) (addr : ℕ) : (s.free addr).pidMap = s.pidMap := by
  rw [free]
  split_ifs
  · rfl
  · rfl
  · rfl

lemma freePages_pidMap (s : Hv) (addr : ℕ) : (s.freePages addr).pidMap = s.pidMap := rfl

lemma freeSlab_pidMap (s : Hv) (addr : ℕ) : (s.freeSlab addr).pidMap = s.pidMap := rfl

lemma releasePage_pidMap (s : Hv) (addr : ℕ) : (s.releasePage addr).pidMap = s.pidMap := by
  rw [releasePage]
  split
  · rfl
  · rfl

lemma foldl_pidMap {α : Type} {f : Hv → α → Hv} (hf : ∀ s x, (f s x).pidMap = s.pidMap)
    (l : List α) (s : Hv) : (l.foldl f s).pidMap = s.pidMap := by
  induction l generalizing s with
  | nil => rfl
  | cons x rest ih =>
    rw [List.foldl_cons, ih, hf]

lemma releaseVcpu_pidMap (s : Hv) (vcpu : GuestVcpu) : (s.releaseVcpu vcpu).pidMap = s.pidMap := by
  rw [releaseVcpu, releaseHvmVirq]
  split_ifs
  · rfl
  · rfl
  · rfl

lemma destroyHvmIomemMap_pidMap (s : Hv) (vir size : ℕ) :
    (s.destroyHvmIomemMap vir size).pidMap = s.pidMap := by
  rw [destroyHvmIomemMap]

lemma vdevRelease_pidMap (s : Hv) (vdev : GuestVdev) :
    (s.vdevRelease vdev).pidMap = s.pidMap := by
  rw [vdevRelease]
  split_ifs
  · rw [free_pidMap]
  · rw [destroyHvmIomemMap_pidMap, free_pidMap]

lemma vdevDeinit_pidMap (s : Hv) (vdev : GuestVdev) : (s.vdevDeinit vdev).pidMap = s.pidMap := by
  rw [vdevDeinit]
  cases vdev.kind with
  | default => rw [freeSlab_pidMap, vdevRelease_pidMap]
  | gicv3 gicr => rw [freeSlab_pidMap, foldl_pidMap freeSlab_pidMap, vdevRelease_pidMap]
  | bcm2836 iomem => rw [freeSlab_pidMap, vdevRelease_pidMap, free_pidMap]

lemma virqDestroyVm_pidMap (s : Hv) (vm : GuestVm) : (s.virqDestroyVm vm).pidMap = s.pidMap := by
  rw [virqDestroyVm]
  split_ifs
  · rw [free_pidMap]
  · rw [free_pidMap, free_pidMap]

lemma releaseVmMemory_pidMap {mm : Option GuestMm} (h : s.releaseVmMemory mm = some s') :
    s'.pidMap = s.pidMap := by
  cases mm with
  | none => cases h
  | some mm =>
    obtain ⟨t, ht, rfl⟩ := Option.map_eq_some_iff.1 h
    have hblocks : ∀ (l : List BlockRef) (s : Hv), l.foldlM releaseBlock s = some t →
        t.pidMap = s.pidMap := by
      intro l
      induction l with
      | nil =>
        intro s h
        obtain rfl := Option.some.inj h
        rfl
      | cons b rest ih =>
        intro s h
        rw [List.foldlM_cons] at h
        obtain ⟨t', ht', h⟩ := Option.bind_eq_some_iff.1 h
        obtain ⟨mm, -, rfl⟩ := Option.map_eq_some_iff.1 ht'
        have hrest := ih _ h
        exact hrest
    rw [freePages_pidMap, foldl_pidMap releasePage_pidMap, hblocks _ _ ht]

lemma destroyVm_pidMap {vm : GuestVm} (h : s.destroyVm vm = some s') : s'.pidMap = s.pidMap := by
  have hvmcs : ∀ t : Hv, (if vm.hvmVmcs = 0 then t
      else t.destroyHvmIomemMap vm.hvmVmcs (vmcsSize vm.vcpuNr)).pidMap = t.pidMap := by
    intro t
    split_ifs
    · rfl
    · rw [destroyHvmIomemMap_pidMap]
  obtain ⟨t, ht, rfl⟩ := Option.map_eq_some_iff.1 h
  have hmem := releaseVmMemory_pidMap ht
  rw [free_pidMap, hvmcs, freeSlab_pidMap, foldl_pidMap releaseVcpu_pidMap, virqDestroyVm_pidMap,
    foldl_pidMap vdevDeinit_pidMap] at hmem
  exact hmem

lemma allocVcpu_pidMap (pid : ℕ) (env : VcpuEnv) (s : Hv) :
    (s.allocVcpu pid env).2.pidMap = s.pidMap := by
  have hvcpu := s.malloc_pidMap env.vcpu
  rw [allocVcpu]
  cases hm : s.malloc env.vcpu with
  | mk addr t =>
    rw [hm] at hvcpu
    cases addr with
    | none => exact hvcpu
    | some addr =>
      have hstruct := t.malloc_pidMap env.virqStruct
      dsimp only
      cases hm' : t.malloc env.virqStruct with
      | mk virqStruct t' =>
        rw [hm'] at hstruct
        cases virqStruct with
        | none => exact hstruct.trans hvcpu
        | some virqStruct => exact hstruct.trans hvcpu

lemma virqCreateVm_pidMap (env : GuestEnv) (vm : GuestVm) (s : Hv) :
    (s.virqCreateVm env vm).2.2.pidMap = s.pidMap := by
  have hpages := s.getFreePages_pidMap (balign (32 * vspiNr vm.ref.vmid) PAGE_SIZE / PAGE_SIZE) 1
  rw [virqCreateVm]
  dsimp only
  generalize s.getFreePages (balign (32 * vspiNr vm.ref.vmid) PAGE_SIZE / PAGE_SIZE) 1 = r at *
  have hmap := r.2.malloc_pidMap env.vspiMap
  split_ifs
  · exact hpages
  · exact hpages
  · cases hm : r.2.malloc env.vspiMap with
    | mk addr t =>
      rw [hm] at hmap
      cases addr with
      | none => exact hmap.trans hpages
      | some addr => exact hmap.trans hpages

lemma takeBlocks_pidMap (n : ℕ) (mm : GuestMm) (s : Hv) :
    (takeBlocks n mm s).2.2.pidMap = s.pidMap := by
  induction n generalizing mm s with
  | zero => rfl
  | succ n ih =>
    rw [takeBlocks]
    split
    · rfl
    · exact ih ..

lemma allocVmMemory_pidMap {mm : GuestMm} {ok : Bool} {mm' : Option GuestMm}
    (h : s.allocVmMemory mm = some (ok, mm', s')) : s'.pidMap = s.pidMap := by
  rw [allocVmMemory] at h
  have htake := takeBlocks_pidMap
    (BitVec.ofNat 32 (mm.size >>> MEM_BLOCK_SHIFT)).toInt.toNat mm s
  dsimp only at h
  split at h
  · rename_i heq
    rw [heq] at htake
    obtain ⟨t, ht, h⟩ := Option.map_eq_some_iff.1 h
    obtain rfl := (Prod.mk.inj (Prod.mk.inj h).2).2
    exact (releaseVmMemory_pidMap ht).trans htake
  · rename_i heq
    rw [heq] at htake
    split_ifs at h
    · obtain ⟨t, ht, h⟩ := Option.map_eq_some_iff.1 h
      obtain rfl := (Prod.mk.inj (Prod.mk.inj h).2).2
      exact (releaseVmMemory_pidMap ht).trans htake
    · obtain rfl := (Prod.mk.inj (Prod.mk.inj (Option.some.inj h)).2).2
      exact htake

lemma initGuestMemory_pidMap {tag : GuestTag} {vm : GuestVm} {r : Option GuestVm}
    (h : s.initGuestMemory tag vm = some (r, s')) : s'.pidMap = s.pidMap := by
  rw [initGuestMemory] at h
  cases hmm : vm.mm with
  | none => simp [hmm] at h
  | some mm =>
    simp only [hmm] at h
    split at h
    · obtain ⟨t, ht, h⟩ := Option.map_eq_some_iff.1 h
      obtain rfl := (Prod.mk.inj h).2
      exact destroyVm_pidMap ht
    · rename_i hwindow
      rw [vmMmapInit] at hwindow
      split_ifs at hwindow
      obtain ⟨-, rfl⟩ := Prod.mk.inj (Option.some.inj hwindow)
      split at h
      · cases h
      · rename_i halloc
        obtain ⟨t, ht, h⟩ := Option.map_eq_some_iff.1 h
        obtain rfl := (Prod.mk.inj h).2
        have hmem := allocVmMemory_pidMap halloc
        exact (destroyVm_pidMap ht).trans hmem
      · rename_i halloc
        obtain rfl := (Prod.mk.inj (Option.some.inj h)).2
        have hmem := allocVmMemory_pidMap halloc
        exact hmem

lemma noPid_iff (m : Bitmap) :
    NoPid m ↔ OS_NR_TASKS ≤ findNextZeroBit m OS_NR_TASKS OS_REALTIME_TASK := by
  refine ⟨fun h => ?_, fun h pid hlo hhi => ?_⟩
  · by_contra hlt
    have hlo : OS_REALTIME_TASK ≤ findNextZeroBit m OS_NR_TASKS OS_REALTIME_TASK :=
      le_findNext _ (by decide)
    have hbit := findNextZeroBit_prop (not_le.1 hlt)
    rw [h _ hlo (not_le.1 hlt)] at hbit
    cases hbit
  · have hbit := findNext_none h hlo hhi
    simpa using hbit

/-- A task that is made has a new pid. -/
lemma createVcpuTask_pids {nrCpus aff : ℕ} {env : VcpuEnv} {r : Option ℕ}
    (h : s.createVcpuTask nrCpus aff env = some (r, s')) :
    s.pidMap < s'.pidMap ∨ r = none ∧ s' = s ∧ (aff < nrCpus → NoPid s.pidMap) := by
  rw [createVcpuTask] at h
  dsimp only at h
  split_ifs at h with haff hpid
  · obtain ⟨rfl, rfl⟩ := Prod.mk.inj (Option.some.inj h)
    refine .inr ⟨rfl, rfl, fun hlt => ?_⟩
    have hle := Nat.mod_le aff (2 ^ 16)
    omega
  · obtain ⟨rfl, rfl⟩ := Prod.mk.inj (Option.some.inj h)
    exact .inr ⟨rfl, rfl, fun _ => (noPid_iff _).2 hpid⟩
  · have hbit := findNextZeroBit_prop (not_le.1 hpid)
    generalize findNextZeroBit s.pidMap OS_NR_TASKS OS_REALTIME_TASK = pid at h hbit
    have hset : s.pidMap < setBit s.pidMap pid := by
      rw [setBit, lt_update_self_iff, hbit]
      decide
    have hmalloc := malloc_pidMap { s with pidMap := setBit s.pidMap pid } env.task
    left
    split at h
    · cases h
    · rename_i t htask
      split_ifs at h
      obtain ⟨-, rfl⟩ := Prod.mk.inj (Option.some.inj h)
      rw [htask] at hmalloc
      rw [getFreePages_pidMap, hmalloc]
      exact hset

lemma createVcpu_pids {nrCpus aff : ℕ} {env : VcpuEnv} {r : Option GuestVcpu}
    (h : s.createVcpu nrCpus aff env = some (r, s')) :
    s.pidMap < s'.pidMap ∨ r = none ∧ s' = s ∧ (aff < nrCpus → NoPid s.pidMap) := by
  rw [createVcpu] at h
  split at h
  · cases h
  · rename_i htask
    obtain ⟨rfl, rfl⟩ := Prod.mk.inj (Option.some.inj h)
    rcases createVcpuTask_pids htask with hlt | ⟨-, hs, hno⟩
    · exact .inl hlt
    · exact .inr ⟨rfl, hs, hno⟩
  · rename_i pid t htask
    have hmap := allocVcpu_pidMap pid env t
    rw [Option.some.inj h] at hmap
    rcases createVcpuTask_pids htask with hlt | ⟨hnone, -, -⟩
    · exact .inl (hmap.symm ▸ hlt)
    · cases hnone

lemma createVcpusFrom_pids {nrCpus : ℕ} {aff : ℕ → ℕ} {env : GuestEnv} {ok : Bool}
    (n i : ℕ) {vcpus vcpus' : List GuestVcpu}
    (h : s.createVcpusFrom nrCpus aff env n i vcpus = some (ok, vcpus', s')) :
    s.pidMap ≤ s'.pidMap := by
  induction n generalizing i vcpus s with
  | zero =>
    obtain rfl := (Prod.mk.inj (Prod.mk.inj (Option.some.inj h)).2).2
    exact le_rfl
  | succ n ih =>
    rw [createVcpusFrom] at h
    split at h
    · cases h
    · rename_i hvcpu
      have hle := ih (i + 1) h
      rcases createVcpu_pids hvcpu with hlt | ⟨hnone, -, -⟩
      · exact hlt.le.trans hle
      · cases hnone
    · rename_i hvcpu
      split_ifs at h
      obtain rfl := (Prod.mk.inj (Prod.mk.inj (Option.some.inj h)).2).2
      rw [foldl_pidMap releaseVcpu_pidMap]
      rcases createVcpu_pids hvcpu with hlt | ⟨-, rfl, -⟩
      · exact hlt.le
      · exact le_rfl

/-- The first vcpu takes a pid, or there is none. -/
lemma createVcpus_pids {nrCpus n : ℕ} {aff : ℕ → ℕ} {env : GuestEnv} {ok : Bool}
    {vcpus : List GuestVcpu} (haff : aff 0 < nrCpus)
    (h : s.createVcpusFrom nrCpus aff env (n + 1) 0 [] = some (ok, vcpus, s')) :
    s.pidMap < s'.pidMap ∨ NoPid s.pidMap := by
  rw [createVcpusFrom] at h
  split at h
  · cases h
  · rename_i hvcpu
    have hle := createVcpusFrom_pids n 1 h
    rcases createVcpu_pids hvcpu with hlt | ⟨hnone, -, -⟩
    · exact .inl (lt_of_lt_of_le hlt hle)
    · cases hnone
  · rename_i hvcpu
    split_ifs at h
    obtain rfl := (Prod.mk.inj (Prod.mk.inj (Option.some.inj h)).2).2
    rcases createVcpu_pids hvcpu with hlt | ⟨-, -, hno⟩
    · exact .inl hlt
    · exact .inr (hno haff)

/-- Without a pid there is no vcpu. -/
lemma createVcpus_noPid (nrCpus n : ℕ) (aff : ℕ → ℕ) (env : GuestEnv) (hno : NoPid s.pidMap) :
    s.createVcpusFrom nrCpus aff env (n + 1) 0 [] =
      if env.vcpusClear then some (false, [], s) else none := by
  have htask : s.createVcpuTask nrCpus (aff 0) (env.vcpu 0) = some (none, s) := by
    rw [createVcpuTask]
    dsimp only
    rw [if_pos ((noPid_iff _).1 hno), ite_self]
  rw [createVcpusFrom, createVcpu, htask]
  rfl


/-! ### What is taken before the first vcpu -/

lemma slabPages_none {r : SlabReply} {p : PageMem} (h : (slabPages r p).1 = none) :
    slabPages r p = (none, p) := by
  cases r with
  | fail => rfl
  | object addr => cases h
  | newBlock addr =>
    rw [slabPages] at h ⊢
    cases halloc : allocBlock p GFB_SLAB with
    | none => rfl
    | some b => simp [halloc] at h

/-- The hypervisor after `destroy_vm` of a VM that has nothing but its root table -/
def undoVm (s : Hv) (vm : GuestVm) (pgd : ℕ) : Hv :=
  { s with
    table := s.table.destroyVm vm.ref
    pages := forgetAt pgd (Mm.freePages s.pages pgd)
    freed := s.freed ++ [.slab vm.vcpusAddr, .pages pgd, .slab vm.ref.addr] }

lemma destroyVm_bare {vm : GuestVm} {mm : GuestMm} (hmm : vm.mm = some mm)
    (hblocks : mm.blockList = []) (hhead : mm.head = []) (hvcpus : vm.vcpus = [])
    (hvdevs : vm.vdevList = []) (hdesc : vm.vspiDesc = 0) (hmap : vm.vspiMap = 0)
    (hvmcs : vm.vmcs = 0) (hhvm : vm.hvmVmcs = 0) (s : Hv) :
    s.destroyVm vm = some (s.undoVm vm mm.pgdBase) := by
  simp [destroyVm, virqDestroyVm, free, releaseVmMemory, hmm, hblocks, hhead, hvcpus, hvdevs, hdesc,
    hmap, hvmcs, hhvm, undoVm, freeSlab, freePages]

lemma allocPgd_none (h : rootRoundTrip s.pages = none) : s.allocPgd = none := by
  rw [allocPgd, getFreePages]
  rw [rootRoundTrip] at h
  cases halloc : allocPages s.pages GVM_PGD_PAGE_NR GVM_PGD_PAGE_ALIGN with
  | mk page q =>
    cases page with
    | none => rfl
    | some page =>
      simp only [halloc] at h ⊢
      split_ifs at h ⊢ with hz
      rfl

lemma allocPgd_some {q : PageMem} (h : rootRoundTrip s.pages = some q) : ∃ pgd p mem allocated,
    s.allocPgd = some (pgd, { s with pages := p, mem := mem, allocated := allocated }) ∧
      Mm.freePages p pgd = q := by
  rw [allocPgd, getFreePages]
  rw [rootRoundTrip] at h
  cases halloc : allocPages s.pages GVM_PGD_PAGE_NR GVM_PGD_PAGE_ALIGN with
  | mk page q =>
    cases page with
    | none => simp [halloc] at h
    | some page =>
      simp only [halloc] at h ⊢
      split_ifs at h ⊢ with hz
      exact ⟨_, _, _, _, rfl, Option.some.inj h⟩

/-- Without a pid the new VM is destroyed again. -/
lemma completeVm_noPid {nrCpus : ℕ} {tag : GuestTag} (env : GuestEnv) {ref : VmRef} {vcpus : ℕ}
    {native : Bool} (hno : NoPid s.pidMap) (hpos : 0 < (min tag.nrVcpu nrCpus).toNat) :
    s.completeVm nrCpus tag env (newGuestVm nrCpus tag ref vcpus native) = s.allocPgd.bind fun r =>
      if env.vcpusClear then some (none, r.2.undoVm (newGuestVm nrCpus tag ref vcpus native) r.1)
      else none := by
  rw [completeVm, vmMmStructInit]
  cases hpgd : s.allocPgd with
  | none => rfl
  | some r =>
    obtain ⟨n, hn⟩ := Nat.exists_eq_succ_of_ne_zero hpos.ne'
    have hnr : (newGuestVm nrCpus tag ref vcpus native).vcpuNr = n + 1 := hn
    have hpid : r.2.pidMap = s.pidMap := by
      rw [allocPgd] at hpgd
      dsimp only at hpgd
      split_ifs at hpgd
      obtain rfl := Option.some.inj hpgd
      exact s.getFreePages_pidMap ..
    have hvcpus := createVcpus_noPid nrCpus n tag.vcpuAffinity env (hpid ▸ hno)
    simp only [Option.map_some, Option.bind_some, hnr, hvcpus]
    by_cases hclear : env.vcpusClear
    · simp only [hclear, if_true]
      rw [destroyVm_bare rfl rfl rfl rfl rfl rfl rfl rfl rfl]
      rfl
    · simp only [hclear]
      rfl

section

variable {nrCpus vmid : ℕ} {tag : GuestTag} {env : GuestEnv} {native : Bool}

lemma createVmStruct_refused (h : vmCheckVcpuAffinity nrCpus tag.vcpuAffinity tag.nrVcpu = false ∨
    (slabPages env.vm s.pages).1 = none) :
    s.createVmStruct nrCpus tag env vmid native = some (none, s) := by
  rw [createVmStruct]
  by_cases haff : vmCheckVcpuAffinity nrCpus tag.vcpuAffinity tag.nrVcpu = false
  · rw [if_pos haff]
  · rw [if_neg haff, malloc, slabPages_none (h.resolve_left haff)]

lemma createVmStruct_negative (haff : vmCheckVcpuAffinity nrCpus tag.vcpuAffinity tag.nrVcpu = true)
    (hvm : (slabPages env.vm s.pages).1 ≠ none) (hnr : tag.nrVcpu < 0) :
    s.createVmStruct nrCpus tag env vmid native = none := by
  obtain ⟨addr, haddr⟩ := Option.ne_none_iff_exists'.1 hvm
  obtain ⟨allocated, hm⟩ := s.malloc_eq env.vm
  rw [haddr] at hm
  rw [createVmStruct, if_neg (by simp [haff]), hm]
  dsimp only
  rw [if_pos hnr]

lemma createVmStruct_noVcpus (haff : vmCheckVcpuAffinity nrCpus tag.vcpuAffinity tag.nrVcpu = true)
    {addr : ℕ} (haddr : (slabPages env.vm s.pages).1 = some addr) (hnr : 0 ≤ tag.nrVcpu)
    (hvcpus : (structPages tag env s.pages).1 = none) : ∃ allocated,
    s.createVmStruct nrCpus tag env vmid native = some (none, { s with
      pages := (structPages tag env s.pages).2
      allocated := allocated
      freed := s.freed ++ [.slab addr] }) := by
  obtain ⟨allocated, hm⟩ := s.malloc_eq env.vm
  rw [haddr] at hm
  rw [createVmStruct, if_neg (by simp [haff]), hm]
  dsimp only
  rw [if_neg (not_lt.2 hnr)]
  obtain ⟨allocated', hm'⟩ := malloc_eq { s with
    pages := (slabPages env.vm s.pages).2
    allocated := allocated } (vcpusReply tag env)
  rw [← structPages, hvcpus, vcpusReply] at hm'
  rw [hm']
  exact ⟨_, rfl⟩

lemma createVmStruct_made (haff : vmCheckVcpuAffinity nrCpus tag.vcpuAffinity tag.nrVcpu = true)
    {addr vcpus : ℕ} (haddr : (slabPages env.vm s.pages).1 = some addr) (hnr : 0 ≤ tag.nrVcpu)
    (hvcpus : (structPages tag env s.pages).1 = some vcpus) : ∃ allocated,
    s.createVmStruct nrCpus tag env vmid native =
      some (some (newGuestVm nrCpus tag ⟨addr, vmid⟩ vcpus native), { s with
        pages := (structPages tag env s.pages).2
        table := s.table.addVm ⟨addr, vmid⟩
        allocated := allocated }) := by
  obtain ⟨allocated, hm⟩ := s.malloc_eq env.vm
  rw [haddr] at hm
  rw [createVmStruct, if_neg (by simp [haff]), hm]
  dsimp only
  rw [if_neg (not_lt.2 hnr)]
  obtain ⟨allocated', hm'⟩ := malloc_eq { s with
    pages := (slabPages env.vm s.pages).2
    allocated := allocated } (vcpusReply tag env)
  rw [← structPages, hvcpus, vcpusReply] at hm'
  rw [hm']
  exact ⟨_, rfl⟩

end

/-! ### The end of a creation -/

lemma allocPgd_pidMap {pgd : ℕ} (h : s.allocPgd = some (pgd, s')) : s'.pidMap = s.pidMap := by
  rw [allocPgd] at h
  dsimp only at h
  split_ifs at h
  obtain ⟨-, rfl⟩ := Prod.mk.inj (Option.some.inj h)
  exact s.getFreePages_pidMap ..

lemma completeVm_pids {nrCpus : ℕ} {tag : GuestTag} {env : GuestEnv} {vm : GuestVm}
    {r : Option GuestVm} (haff : tag.vcpuAffinity 0 < nrCpus) (hpos : 0 < vm.vcpuNr)
    (h : s.completeVm nrCpus tag env vm = some (r, s')) :
    s.pidMap < s'.pidMap ∨ NoPid s.pidMap := by
  obtain ⟨n, hn⟩ := Nat.exists_eq_succ_of_ne_zero hpos.ne'
  rw [completeVm, vmMmStructInit] at h
  cases hpgd : s.allocPgd with
  | none => simp [hpgd] at h
  | some q =>
    obtain ⟨pgd, t⟩ := q
    rw [← allocPgd_pidMap hpgd]
    simp only [hpgd, Option.map_some, hn] at h
    cases hvcpus : t.createVcpusFrom nrCpus tag.vcpuAffinity env (n + 1) 0 [] with
    | none => simp [hvcpus] at h
    | some q =>
      obtain ⟨ok, vcpus, t'⟩ := q
      have hpids := createVcpus_pids haff hvcpus
      suffices hmap : s'.pidMap = t'.pidMap by rwa [hmap]
      cases ok with
      | false =>
        simp only [hvcpus] at h
        obtain ⟨t'', hdestroy, h⟩ := Option.map_eq_some_iff.1 h
        obtain rfl := (Prod.mk.inj h).2
        exact destroyVm_pidMap hdestroy
      | true =>
        simp only [hvcpus] at h
        split at h
        · rename_i hvirq
          obtain ⟨t'', hdestroy, h⟩ := Option.map_eq_some_iff.1 h
          obtain rfl := (Prod.mk.inj h).2
          rw [destroyVm_pidMap hdestroy, ← virqCreateVm_pidMap env _ t', hvirq]
        · rename_i hvirq
          obtain rfl := (Prod.mk.inj (Option.some.inj h)).2
          rw [← virqCreateVm_pidMap env _ t', hvirq]

/-- What `create_guest_vm` does after `create_vm` -/
def afterCreateVm (tag : GuestTag) :
    Option (Option GuestVm × Hv) → Option (Option GuestVm × Hv)
  | none => none
  | some (none, s) => some (none, s)
  | some (some vm, s) => s.initGuestMemory tag vm

lemma createGuestVm_eq (nrCpus : ℕ) (tag : GuestTag) (env : GuestEnv) (s : Hv) :
    s.createGuestVm nrCpus tag env =
      if env.tagMapped = false then some (none, s)
      else (vmtagCheckAndConfig nrCpus tag s).elim (some (none, s)) fun r =>
        afterCreateVm r.1 (r.2.createVm nrCpus r.1 env) := by
  rw [createGuestVm]
  split_ifs
  · rfl
  · cases vmtagCheckAndConfig nrCpus tag s with
    | none => rfl
    | some r =>
      dsimp only [Option.elim_some]
      cases r.2.createVm nrCpus r.1 env with
      | none => rfl
      | some q =>
        obtain ⟨vm, t⟩ := q
        cases vm with
        | none => rfl
        | some vm => rfl

end Hv

lemma vmCheckVcpuAffinity_first {maxVcpu : ℕ} {aff : ℕ → ℕ} {nr : ℤ} (hpos : 0 < nr)
    (h : vmCheckVcpuAffinity maxVcpu aff nr = true) : aff 0 < maxVcpu := by
  obtain ⟨n, hn⟩ := Nat.exists_eq_succ_of_ne_zero (Int.pos_iff_toNat_pos.1 hpos).ne'
  rw [vmCheckVcpuAffinity, hn, checkAffinityFrom] at h
  split_ifs at h with hle
  exact not_le.1 hle

/-! ### Which failures leave no trace -/

lemma SamePages.refl (p : PageMem) : SamePages p p := ⟨rfl, rfl, rfl⟩

lemma samePages_forgetAt {p q : PageMem} {addr : ℕ} :
    SamePages p (forgetAt addr q) ↔ SamePages p q :=
  ⟨fun h => ⟨h.bits, h.counts, h.total⟩, fun h => ⟨h.bits, h.counts, h.total⟩⟩

/-- The tables after an id was found, and nothing else -/
structure IdTaken (t t' : VmTable) (vmid : ℕ) : Prop where
  bits : clearBit t'.vmidBitmap vmid = t.vmidBitmap
  vms : t'.vms = t.vms
  total : t'.totalVms = t.totalVms
  list : t'.vmList = t.vmList
  free : t.vms vmid = none

/-- A VM that enters the tables and leaves them again gives its id back. -/
lemma IdTaken.undo {t t' : VmTable} {vm : VmRef} (h : IdTaken t t' vm.vmid) (hvm : vm ∉ t.vmList) :
    (t'.addVm vm).destroyVm vm = t := by
  have hvms : Function.update (Function.update t.vms vm.vmid (some vm)) vm.vmid none = t.vms := by
    rw [Function.update_idem, ← h.free, Function.update_eq_self]
  have hlist : (t.vmList ++ [vm]).erase vm = t.vmList := by
    rw [List.erase_append_right _ hvm, List.erase_cons_head, List.append_nil]
  rw [VmTable.destroyVm, VmTable.addVm]
  dsimp only
  rw [h.bits, h.vms, h.total, h.list, hvms, hlist, Nat.add_sub_cancel]

section

open Hv

variable {s : Hv} {t : VmTable} {nrCpus vmid : ℕ} {tag : GuestTag} {env : GuestEnv} {native : Bool}

lemma NoTrace.of_pids_lt {s' : Hv} (h : NoTrace s s') (hlt : s.pidMap < s'.pidMap) : False := by
  rw [h.pids] at hlt
  exact lt_irrefl _ hlt

/-- With a pid for the first vcpu, the VM keeps it for ever. -/
lemma not_failsCleanly_of_pid {ref : VmRef} {vcpus : ℕ} {u : Hv} (hu : u.pidMap = s.pidMap)
    (haff : vmCheckVcpuAffinity nrCpus tag.vcpuAffinity tag.nrVcpu = true) (hnr : 0 < tag.nrVcpu)
    (hpid : ¬ NoPid s.pidMap) : ¬ FailsCleanly s (afterCreateVm tag
      (u.completeVm nrCpus tag env (newGuestVm nrCpus tag ref vcpus native))) := by
  have hfirst := vmCheckVcpuAffinity_first hnr haff
  have hpos : 0 < (newGuestVm nrCpus tag ref vcpus native).vcpuNr := by
    change 0 < (min tag.nrVcpu nrCpus).toNat
    omega
  rintro ⟨s', hr, htrace⟩
  cases hc : u.completeVm nrCpus tag env (newGuestVm nrCpus tag ref vcpus native) with
  | none => simp [hc, afterCreateVm] at hr
  | some q =>
    obtain ⟨vm, u'⟩ := q
    have hlt := (completeVm_pids hfirst hpos hc).resolve_right (hu ▸ hpid)
    rw [hu] at hlt
    rw [hc] at hr
    cases vm with
    | none =>
      obtain rfl := (Prod.mk.inj (Option.some.inj hr)).2
      exact htrace.of_pids_lt hlt
    | some vm =>
      rw [← initGuestMemory_pidMap hr] at hlt
      exact htrace.of_pids_lt hlt

lemma failsCleanly_none : ¬ FailsCleanly s none := by
  rintro ⟨s', hr, -⟩
  cases hr

lemma failsCleanly_error {s' : Hv} : FailsCleanly s (some (none, s')) ↔ NoTrace s s' := by
  refine ⟨?_, fun h => ⟨s', rfl, h⟩⟩
  rintro ⟨u, hr, h⟩
  obtain rfl := (Prod.mk.inj (Option.some.inj hr)).2
  exact h

/-- Without a pid for the first vcpu, the VM is destroyed again. -/
lemma failsCleanly_of_noPid {ref : VmRef} {vcpus : ℕ} {u : Hv} (hnr : 0 < tag.nrVcpu)
    (hcpus : 0 < nrCpus) (hpid : NoPid s.pidMap) (hne : ref.addr ≠ vcpus)
    (hu : u.pidMap = s.pidMap ∧ u.freed = s.freed ∧ u.hvmNormalMmapBase = s.hvmNormalMmapBase ∧
      u.hvmNormalMmapSize = s.hvmNormalMmapSize) (htable : u.table.destroyVm ref = s.table) :
    FailsCleanly s (afterCreateVm tag
        (u.completeVm nrCpus tag env (newGuestVm nrCpus tag ref vcpus native))) ↔
      env.vcpusClear = true ∧ ∃ q, rootRoundTrip u.pages = some q ∧ SamePages s.pages q := by
  obtain ⟨hpids, hfreed, hbase, hsize⟩ := hu
  have hpos : 0 < (min tag.nrVcpu nrCpus).toNat := by omega
  rw [completeVm_noPid env (hpids ▸ hpid) hpos]
  cases hroot : rootRoundTrip u.pages with
  | none =>
    rw [allocPgd_none hroot]
    refine iff_of_false failsCleanly_none ?_
    rintro ⟨-, q, hq, -⟩
    cases hq
  | some q =>
    obtain ⟨pgd, p, mem, allocated, hpgd, rfl⟩ := allocPgd_some hroot
    rw [hpgd, Option.bind_some]
    by_cases hclear : env.vcpusClear = true
    · rw [if_pos hclear]
      refine failsCleanly_error.trans ⟨fun h => ⟨hclear, _, rfl, ?_⟩, ?_⟩
      · exact samePages_forgetAt.1 h.pages
      · rintro ⟨-, q, hq, hsame⟩
        obtain rfl := Option.some.inj hq
        refine ⟨samePages_forgetAt.2 hsame, htable, hpids, hbase, hsize, _,
          congrArg (· ++ _) hfreed, ?_⟩
        simp [newGuestVm, Ne.symm hne]
    · rw [if_neg hclear]
      exact iff_of_false failsCleanly_none fun h => hclear h.1

/-- After the id was found: either the tables did not change and there is no VM, or there is no pid
for the VM. -/
lemma failsCleanly_withId (hid : IdTaken s.table t vmid) (henv : env.Fresh s) :
    FailsCleanly s (afterCreateVm tag
        ({ s with table := t }.createVmWithId nrCpus tag env vmid native)) ↔
      t = s.table ∧ NoVmStruct nrCpus tag env s.pages ∨ NoPidLeft nrCpus tag env s := by
  rw [createVmWithId]
  by_cases hrefused : vmCheckVcpuAffinity nrCpus tag.vcpuAffinity tag.nrVcpu = false ∨
      (slabPages env.vm s.pages).1 = none
  · have hleft : ¬ NoPidLeft nrCpus tag env s := fun h =>
      hrefused.elim (fun haff => by simp [h.affinity] at haff) h.vm
    rw [createVmStruct_refused (s := { s with table := t }) hrefused, or_iff_left hleft]
    refine failsCleanly_error.trans ⟨fun h => ⟨h.table, ?_⟩, fun h => ?_⟩
    · exact hrefused.imp_right .inl
    · exact ⟨.refl _, h.1, rfl, rfl, rfl, [], (List.append_nil _).symm, List.nodup_nil⟩
  · rw [not_or, Bool.not_eq_false] at hrefused
    obtain ⟨haff, hvm⟩ := hrefused
    obtain ⟨addr, haddr⟩ := Option.ne_none_iff_exists'.1 hvm
    have hstruct : NoVmStruct nrCpus tag env s.pages ↔ 0 ≤ tag.nrVcpu ∧
        (structPages tag env s.pages).1 = none ∧
          SamePages s.pages (structPages tag env s.pages).2 := by
      simp [NoVmStruct, haff, hvm]
    by_cases hnr : tag.nrVcpu < 0
    · rw [createVmStruct_negative (s := { s with table := t }) haff hvm hnr]
      refine iff_of_false failsCleanly_none ?_
      rintro (⟨-, h⟩ | h)
      · exact absurd (hstruct.1 h).1 (not_le.2 hnr)
      · exact absurd h.nrVcpu (not_le.2 hnr)
    rw [not_lt] at hnr
    cases hvcpus : (structPages tag env s.pages).1 with
    | none =>
      have hleft : ¬ NoPidLeft nrCpus tag env s := fun h => h.vcpus hvcpus
      obtain ⟨allocated, hr⟩ := createVmStruct_noVcpus (s := { s with table := t }) haff
        haddr hnr hvcpus
      rw [hr, or_iff_left hleft, hstruct]
      refine failsCleanly_error.trans ⟨fun h => ⟨h.table, hnr, hvcpus, h.pages⟩, fun h => ?_⟩
      exact ⟨h.2.2.2, h.1, rfl, rfl, rfl, [.slab addr], rfl, List.nodup_singleton _⟩
    | some vcpus =>
      have hno : ¬ (t = s.table ∧ NoVmStruct nrCpus tag env s.pages) := by
        rintro ⟨-, h⟩
        have hnone := (hstruct.1 h).2.1
        rw [hvcpus] at hnone
        cases hnone
      have hpos : 0 < tag.nrVcpu := by
        refine lt_of_le_of_ne hnr fun hz => ?_
        rw [structPages, vcpusReply, if_pos hz.symm] at hvcpus
        cases hvcpus
      obtain ⟨allocated, hr⟩ := createVmStruct_made (s := { s with table := t }) haff haddr hnr
        hvcpus
      rw [hr, or_iff_right hno]
      dsimp only
      by_cases hpid : NoPid s.pidMap
      · have hne : addr ≠ vcpus := by
          rw [structPages, vcpusReply, if_neg hpos.ne'] at hvcpus
          exact henv.distinct _ _ _ _ haddr hvcpus
        have hlist : (⟨addr, vmid⟩ : VmRef) ∉ s.table.vmList := fun hmem =>
          henv.vm _ _ haddr _ hmem rfl
        have hcpus : 0 < nrCpus := (Nat.zero_le _).trans_lt (vmCheckVcpuAffinity_first hpos haff)
        refine (failsCleanly_of_noPid hpos hcpus hpid ?_ ?_ ?_).trans ?_
        · exact hne
        · exact ⟨rfl, rfl, rfl, rfl⟩
        · exact hid.undo hlist
        exact ⟨fun h => ⟨haff, hvm, hnr, by simp [hvcpus], hpid, h.1, h.2⟩,
          fun h => ⟨h.clear, h.root⟩⟩
      · refine iff_of_false (not_failsCleanly_of_pid rfl haff hpos hpid) fun h => hpid h.noPid

/-- The tables as `create_vm` leaves them after it looked for an id that is free. -/
lemma idTaken_new {t : VmTable} {vmid : ℕ} (ht : TablesFit t) (hfree : t.vmidBitmap vmid = false) :
    IdTaken t { t with vmidBitmap := setBit t.vmidBitmap vmid } vmid where
  bits := by
    rw [clearBit, setBit, Function.update_idem, ← hfree, Function.update_eq_self]
  vms := rfl
  total := rfl
  list := rfl
  free := ht.free vmid hfree

lemma setBit_ne {m : Bitmap} {i : ℕ} (h : m i = false) : setBit m i ≠ m := by
  intro heq
  have hself := congrFun heq i
  rw [setBit, Function.update_self, h] at hself
  cases hself

lemma allocNewVmid_of_full {t : VmTable} (h : ¬ HasFreeId t) :
    t.allocNewVmid = (CONFIG_MAX_VM, t) := by
  have hle := t.allocNewVmid_le
  rw [VmTable.allocNewVmid] at hle ⊢
  split_ifs at hle ⊢ with hfull
  · exact congrArg (·, t) (le_antisymm hle hfull)
  · exact absurd ⟨_, not_le.1 hfull, findNextZeroBitLoop_prop (not_le.1 hfull)⟩ h

/-- A tag that was accepted leaves no trace if it is refused in time. -/
lemma failsCleanly_createVm (nrCpus : ℕ) (tag : GuestTag) (ht : TablesFit s.table)
    (henv : env.Fresh s) :
    FailsCleanly s (afterCreateVm tag (s.createVm nrCpus tag env)) ↔
      RefusedInTime nrCpus tag env s := by
  rw [createVm, RefusedInTime]
  by_cases hauto : CONFIG_MAX_VM ≤ tag.vmid
  · rw [if_pos hauto, if_pos hauto]
    have hgets := s.table.getsId
    dsimp only [GetsId] at hgets ⊢
    rw [if_neg hgets]
    by_cases hhas : HasFreeId s.table
    · obtain ⟨-, hbit, hset⟩ := VmTable.allocNewVmid_of_free hhas
      rw [hset, failsCleanly_withId (idTaken_new ht hbit) henv]
      have hne : { s.table with vmidBitmap := setBit s.table.vmidBitmap s.table.allocNewVmid.1 } ≠
          s.table := fun heq => setBit_ne hbit (congrArg VmTable.vmidBitmap heq)
      simp [hne, hhas]
    · rw [allocNewVmid_of_full hhas]
      have hid : IdTaken s.table s.table CONFIG_MAX_VM :=
        ⟨by rw [clearBit, ← ht.last, Function.update_eq_self], rfl, rfl, rfl, ht.free _ ht.last⟩
      rw [failsCleanly_withId hid henv]
      simp [hhas]
  · rw [if_neg hauto, if_neg hauto]
    by_cases hused : s.table.vmidBitmap tag.vmid = true
    · rw [if_pos hused]
      refine iff_of_true (failsCleanly_error.2 ?_) (.inl hused)
      exact ⟨.refl _, rfl, rfl, rfl, rfl, [], (List.append_nil _).symm, List.nodup_nil⟩
    · rw [if_neg hused]
      rw [Bool.not_eq_true] at hused
      rw [failsCleanly_withId (idTaken_new ht hused) henv]
      have hne : { s.table with vmidBitmap := setBit s.table.vmidBitmap tag.vmid } ≠ s.table :=
        fun heq => setBit_ne hused (congrArg VmTable.vmidBitmap heq)
      simp [hne, hused]

lemma NoTrace.refl (s : Hv) : NoTrace s s :=
  ⟨.refl _, rfl, rfl, rfl, rfl, [], (List.append_nil _).symm, List.nodup_nil⟩

lemma vmtagCheckAndConfig_eq {tag' : GuestTag} {s' : Hv}
    (h : vmtagCheckAndConfig nrCpus tag s = some (tag', s')) :
    tag'.vmid = tag.vmid ∧ ∃ affinity, s' = { s with affinity := affinity } := by
  rw [vmtagCheckAndConfig] at h
  dsimp only at h
  generalize (if tag.memBase = 0 then BitVec.ofNat 64 GVM_NORMAL_MEM_START
    else tag.memBase) = base at h
  split_ifs at h
  · obtain ⟨rfl, rfl⟩ := Prod.mk.inj (Option.some.inj h)
    exact ⟨rfl, _, rfl⟩
  · obtain ⟨rfl, rfl⟩ := Prod.mk.inj (Option.some.inj h)
    exact ⟨rfl, s.affinity, rfl⟩

/-- A call of `create_guest_vm` fails and leaves no trace exactly if it fails before anything was
taken for good. -/
theorem create_guest_vm_fails_cleanly_iff (ht : TablesFit s.table) (henv : env.Fresh s) :
    FailsCleanly s (s.createGuestVm nrCpus tag env) ↔ Harmless nrCpus tag env s := by
  rw [createGuestVm_eq, Harmless]
  by_cases hmapped : env.tagMapped = false
  · rw [if_pos hmapped]
    exact iff_of_true (failsCleanly_error.2 (.refl s)) (.inl hmapped)
  rw [if_neg hmapped, or_iff_right hmapped]
  cases htag : vmtagCheckAndConfig nrCpus tag s with
  | none => exact iff_of_true (failsCleanly_error.2 (.refl s)) fun _ _ h => by cases h
  | some r =>
    obtain ⟨tag', s'⟩ := r
    obtain ⟨-, affinity, rfl⟩ := vmtagCheckAndConfig_eq htag
    have hiff := failsCleanly_createVm (s := { s with affinity := affinity }) nrCpus tag' ht
      ⟨henv.vm, henv.distinct⟩
    rw [Option.elim_some]
    refine Iff.trans ?_ (hiff.trans ⟨fun h t u heq => ?_, fun h => h _ _ rfl⟩)
    · exact ⟨fun h => h.imp fun u hu => ⟨hu.1, ⟨hu.2.1, hu.2.2, hu.2.3, hu.2.4, hu.2.5, hu.2.6⟩⟩,
        fun h => h.imp fun u hu => ⟨hu.1, ⟨hu.2.1, hu.2.2, hu.2.3, hu.2.4, hu.2.5, hu.2.6⟩⟩⟩
    · obtain ⟨rfl, rfl⟩ := Prod.mk.inj (Option.some.inj heq)
      exact h

end

/-- The id 1 is in use. -/
def idInUseHv : Hv := { freshHv with table := { VmTable.init with vmidBitmap := fun i => i = 1 } }

/-- There is no room in the window of VM0. -/
def noWindowHv : Hv := { freshHv with hvmNormalMmapSize := 0 }

/-- A tag for a vcpu on a cpu that is not there -/
def noCpuTag : GuestTag := { oneVcpuTag 0 0x200000 with vcpuAffinity := fun _ => 7 }

theorem create_guest_vm_fails_cleanly_in_use :
    FailsCleanly idInUseHv
      (idInUseHv.createGuestVm 4 (oneVcpuTag 0 0x200000) oneVcpuEnv) := by
  have ht : TablesFit idInUseHv.table := ⟨fun _ _ => rfl, rfl⟩
  have henv : oneVcpuEnv.Fresh idInUseHv := by
    refine ⟨fun _ _ _ _ hvm => (by cases hvm), fun p q addr addr' h h' => ?_⟩
    obtain rfl := Option.some.inj h
    obtain rfl := Option.some.inj h'
    decide
  refine (create_guest_vm_fails_cleanly_iff ht henv).2 (.inr fun tag s h => ?_)
  obtain ⟨hvmid, affinity, rfl⟩ := vmtagCheckAndConfig_eq h
  rw [RefusedInTime, hvmid, if_neg (by decide)]
  exact .inl rfl

/-- Three failures: a vcpu on a cpu that is not there leaves an id behind, a window that is too
small a pid, and after a request for too many blocks the call does not come back. -/
theorem create_guest_vm_fails_dirty :
    (∃ s', freshHv.createGuestVm 4 noCpuTag oneVcpuEnv = some (none, s') ∧ ¬ NoTrace freshHv s') ∧
    (∃ s', noWindowHv.createGuestVm 4 (oneVcpuTag 0 0x200000) oneVcpuEnv = some (none, s') ∧
      ¬ NoTrace noWindowHv s') ∧
    freshHv.createGuestVm 4 (oneVcpuTag 0 0x2000000) oneVcpuEnv = none := by
  have hid : (freshHv.createGuestVm 4 noCpuTag oneVcpuEnv).map
      (fun r => (r.1.isNone, r.2.table.vmidBitmap 1)) = some (true, true) := by decide +kernel
  have hpid : (noWindowHv.createGuestVm 4 (oneVcpuTag 0 0x200000) oneVcpuEnv).map
      (fun r => (r.1.isNone, r.2.pidMap 64)) = some (true, true) := by decide +kernel
  refine ⟨?_, ?_, Option.isNone_iff_eq_none.1 (by decide +kernel)⟩
  · obtain ⟨⟨vm, s'⟩, hr, h⟩ := Option.map_eq_some_iff.1 hid
    obtain ⟨hvm, hbit⟩ := Prod.mk.inj h
    obtain rfl := Option.isNone_iff_eq_none.1 hvm
    refine ⟨s', hr, fun htrace => ?_⟩
    rw [htrace.table] at hbit
    cases hbit
  · obtain ⟨⟨vm, s'⟩, hr, h⟩ := Option.map_eq_some_iff.1 hpid
    obtain ⟨hvm, hbit⟩ := Prod.mk.inj h
    obtain rfl := Option.isNone_iff_eq_none.1 hvm
    refine ⟨s', hr, fun htrace => ?_⟩
    rw [htrace.pids] at hbit
    cases hbit

end Minos.Virt
