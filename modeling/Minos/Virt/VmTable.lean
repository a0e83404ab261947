import Mathlib
import Minos.Lib.Bitmap
import Minos.Lib.Run

/-!
# The ids of the VMs

A VM takes its id in `vmid_bitmap` before it is allocated, and enters `vms` and `total_vms` when it
is. `destroy_vm` takes all of it back, and `create_vm` calls it when a later step fails; but when
`__create_vm` fails there is no VM to destroy, and the id stays taken. When no id is left,
`alloc_new_vmid` returns `CONFIG_MAX_VM`, which `create_vm` takes for an id.
-/

namespace Minos.Virt

open Bitmap Run

def CONFIG_MAX_VM : ℕ := 64

/-- `VMID_INVALID` as the `uint32_t` of `struct vmtag` -/
def VMID_INVALID : ℕ := 0xffffffff

/-- `struct vm`: where it is, and its id -/
structure VmRef where
  addr : ℕ
  vmid : ℕ
deriving DecidableEq, Repr

structure VmTable where
  vmidBitmap : Bitmap
  vms : ℕ → Option VmRef
  totalVms : ℕ
  vmList : List VmRef

/-- The fields of `struct vmtag` that decide whether a VM is made. -/
structure VmTag where
  vmid : ℕ
  nrVcpu : ℤ
  vcpuAffinity : ℕ → ℕ

/-- What the rest of the system does in a call of `create_vm`: the result of `malloc` for the VM,
whether there is memory for `vcpus`, and whether `create_vcpus` and the hooks succeed. -/
structure CreateEnv where
  vm : Option ℕ
  vcpus : Bool
  createVcpus : Bool
  hooks : Bool

/-- The loop of `vm_check_vcpu_affinity` over the vcpus from `i` on. -/
def checkAffinityFrom (maxVcpu : ℕ) (aff : ℕ → ℕ) : ℕ → ℕ → ℕ → Bool
  | 0, _, _ => true
  | n + 1, i, mask =>
    if maxVcpu ≤ aff i then false
    else if mask &&& 1 <<< aff i ≠ 0 then false
    else checkAffinityFrom maxVcpu aff n (i + 1) (mask ||| 1 <<< aff i)

/-- `vm_check_vcpu_affinity` -/
def vmCheckVcpuAffinity (maxVcpu : ℕ) (aff : ℕ → ℕ) (nr : ℤ) : Bool :=
  checkAffinityFrom maxVcpu aff nr.toNat 0 0

namespace VmTable

/-- Nothing was created. -/
def init : VmTable := ⟨fun _ => false, fun _ => none, 0, []⟩

/-- `alloc_new_vmid` -/
def allocNewVmid (s : VmTable) : ℕ × VmTable :=
  let vmid := findNextZeroBitLoop s.vmidBitmap CONFIG_MAX_VM s.totalVms
  if CONFIG_MAX_VM ≤ vmid then (vmid, s)
  else (vmid, { s with vmidBitmap := setBit s.vmidBitmap vmid })

/-- The VM that `__create_vm` makes. -/
def newVm (maxVcpu : ℕ) (tag : VmTag) (env : CreateEnv) (vmid : ℕ) : Option VmRef :=
  if vmCheckVcpuAffinity maxVcpu tag.vcpuAffinity tag.nrVcpu = false then none
  else
    match env.vm with
    | none => none
    | some addr => if env.vcpus then some ⟨addr, vmid⟩ else none

/-- The rest of `__create_vm` -/
def addVm (s : VmTable) (vm : VmRef) : VmTable :=
  { s with
    vms := Function.update s.vms vm.vmid (some vm)
    totalVms := s.totalVms + 1
    vmList := s.vmList ++ [vm] }

/-- `destroy_vm` -/
def destroyVm (s : VmTable) (vm : VmRef) : VmTable where
  vmidBitmap := clearBit s.vmidBitmap vm.vmid
  vms := Function.update s.vms vm.vmid none
  totalVms := s.totalVms - 1
  vmList := s.vmList.erase vm

/-- `create_vm` after the id was found -/
def createWithId (maxVcpu : ℕ) (tag : VmTag) (env : CreateEnv) (vmid : ℕ) (s : VmTable) : VmTable :=
  match newVm maxVcpu tag env vmid with
  | none => s
  | some vm =>
    let s := s.addVm vm
    if env.createVcpus = false then s.destroyVm vm
    else if env.hooks = false then s.destroyVm vm
    else s

/-- `create_vm` -/
def createVm (maxVcpu : ℕ) (tag : VmTag) (env : CreateEnv) (s : VmTable) : VmTable :=
  if CONFIG_MAX_VM ≤ tag.vmid then
    if s.allocNewVmid.1 = VMID_INVALID then s.allocNewVmid.2
    else createWithId maxVcpu tag env s.allocNewVmid.1 s.allocNewVmid.2
  else if s.vmidBitmap tag.vmid then s
  else createWithId maxVcpu tag env tag.vmid { s with
    vmidBitmap := setBit s.vmidBitmap tag.vmid }

end VmTable

/-! ### The claim -/

inductive VmTableEvent where
  | create (tag : VmTag) (env : CreateEnv)
  | destroy (vm : VmRef)

def vmTableStep (maxVcpu : ℕ) (s : VmTable) : VmTableEvent → VmTable
  | .create tag env => s.createVm maxVcpu tag env
  | .destroy vm => s.destroyVm vm

/-- The three tables agree. -/
structure TableOk (s : VmTable) : Prop where
  bits : ∀ i < CONFIG_MAX_VM, s.vmidBitmap i = true ↔ s.vms i ≠ none
  total : s.totalVms = ((Finset.range CONFIG_MAX_VM).filter fun i => s.vms i ≠ none).card
  live : ∀ vm ∈ s.vmList, vm.vmid < CONFIG_MAX_VM ∧ s.vms vm.vmid = some vm

/-- There is an id that nobody has. -/
def HasFreeId (s : VmTable) : Prop := ∃ i < CONFIG_MAX_VM, s.vmidBitmap i = false

/-- `create_vm` goes on with the id of `alloc_new_vmid`. -/
def GetsId (s : VmTable) : Prop := s.allocNewVmid.1 ≠ VMID_INVALID

/-- The tables agree after the step, and a call without an id gets one iff there is one. -/
def TableStepOk (maxVcpu : ℕ) (s : VmTable) (e : VmTableEvent) : Prop :=
  TableOk (vmTableStep maxVcpu s e) ∧
    ∀ tag env, e = .create tag env → CONFIG_MAX_VM ≤ tag.vmid → (GetsId s ↔ HasFreeId s)

/-- A VM is destroyed once, and `malloc` returns what no VM has. -/
def VmTableEvent.Legit (s : VmTable) : VmTableEvent → Prop
  | .create _ env => ∀ vm ∈ s.vmList, env.vm ≠ some vm.addr
  | .destroy vm => vm ∈ s.vmList

/-- A call without an id comes when there is one, and `__create_vm` does not fail once the id is
taken. -/
def VmTableEvent.Succeeds (maxVcpu : ℕ) (s : VmTable) : VmTableEvent → Prop
  | .create tag env =>
    if CONFIG_MAX_VM ≤ tag.vmid then
      HasFreeId s ∧ VmTable.newVm maxVcpu tag env s.allocNewVmid.1 ≠ none
    else s.vmidBitmap tag.vmid = false → VmTable.newVm maxVcpu tag env tag.vmid ≠ none
  | .destroy _ => True

/-! ### The operations -/

namespace VmTable

variable {maxVcpu : ℕ} {s : VmTable} {vm : VmRef} {tag : VmTag} {env : CreateEnv}

/-- The tables agree, and no VM is twice on the list. -/
structure Inv (s : VmTable) : Prop where
  ok : TableOk s
  nodup : s.vmList.Nodup

/-- The ids that are used. -/
def used (s : VmTable) : Finset ℕ := (Finset.range CONFIG_MAX_VM).filter fun i => s.vms i ≠ none

lemma mem_used {i : ℕ} : i ∈ s.used ↔ i < CONFIG_MAX_VM ∧ s.vms i ≠ none := by
  rw [used, Finset.mem_filter, Finset.mem_range]

lemma allocNewVmid_le (s : VmTable) : s.allocNewVmid.1 ≤ CONFIG_MAX_VM := by
  have hle : findNextZeroBitLoop s.vmidBitmap CONFIG_MAX_VM s.totalVms ≤ CONFIG_MAX_VM := by
    rw [findNextZeroBitLoop]
    split_ifs
    · exact findNext_le ..
    · exact findNext_le ..
  rw [allocNewVmid]
  split_ifs
  · exact hle
  · exact hle

/-- `alloc_new_vmid` never says that it failed. -/
lemma getsId (s : VmTable) : GetsId s := by
  have h := s.allocNewVmid_le
  rw [GetsId]
  intro heq
  rw [heq] at h
  exact absurd h (by decide)

lemma allocNewVmid_of_free (h : HasFreeId s) :
    s.allocNewVmid.1 < CONFIG_MAX_VM ∧ s.vmidBitmap s.allocNewVmid.1 = false ∧
      s.allocNewVmid.2 = { s with vmidBitmap := setBit s.vmidBitmap s.allocNewVmid.1 } := by
  obtain ⟨i, hi, hbit⟩ := h
  have hlt : findNextZeroBitLoop s.vmidBitmap CONFIG_MAX_VM s.totalVms < CONFIG_MAX_VM := by
    by_contra hge
    rw [findNextZeroBitLoop_none (not_lt.1 hge) hi] at hbit
    cases hbit
  rw [allocNewVmid, if_neg (not_le.2 hlt)]
  exact ⟨hlt, findNextZeroBitLoop_prop hlt, rfl⟩

lemma newVm_vmid {vmid : ℕ} (h : newVm maxVcpu tag env vmid = some vm) :
    vm.vmid = vmid ∧ env.vm = some vm.addr := by
  rw [newVm] at h
  by_cases haff : vmCheckVcpuAffinity maxVcpu tag.vcpuAffinity tag.nrVcpu = false
  · rw [if_pos haff] at h
    cases h
  · rw [if_neg haff] at h
    cases haddr : env.vm with
    | none => simp [haddr] at h
    | some addr =>
      simp only [haddr] at h
      split_ifs at h
      obtain rfl := Option.some.inj h
      exact ⟨rfl, rfl⟩

lemma Inv.destroyVm (h : s.Inv) (hvm : vm ∈ s.vmList) : (s.destroyVm vm).Inv := by
  obtain ⟨hlt, hself⟩ := h.ok.live vm hvm
  refine ⟨⟨fun i hi => ?_, ?_, fun v hv => ?_⟩, h.nodup.erase vm⟩
  · simp only [VmTable.destroyVm, clearBit]
    by_cases hiv : i = vm.vmid
    · simp [hiv]
    · rw [Function.update_of_ne hiv, Function.update_of_ne hiv]
      exact h.ok.bits i hi
  · have hused : (s.destroyVm vm).used = s.used.erase vm.vmid := by
      ext i
      rw [Finset.mem_erase, mem_used, mem_used, VmTable.destroyVm]
      by_cases hiv : i = vm.vmid
      · simp [hiv]
      · simp [hiv]
    have hmem : vm.vmid ∈ s.used := mem_used.2 ⟨hlt, by simp [hself]⟩
    change s.totalVms - 1 = (s.destroyVm vm).used.card
    rw [hused, Finset.card_erase_of_mem hmem, h.ok.total]
    rfl
  · obtain ⟨hne, hmem⟩ := (h.nodup.mem_erase_iff).1 hv
    obtain ⟨hlt', hself'⟩ := h.ok.live v hmem
    have hid : v.vmid ≠ vm.vmid := by
      intro hid
      rw [hid, hself, Option.some.injEq] at hself'
      exact hne hself'.symm
    exact ⟨hlt', (Function.update_of_ne hid ..).trans hself'⟩

/-- The new VM enters the tables under an id that was free. -/
lemma Inv.addVm (h : s.Inv) (hlt : vm.vmid < CONFIG_MAX_VM) (hfree : s.vmidBitmap vm.vmid = false)
    (hnew : vm ∉ s.vmList) :
    ({ s with vmidBitmap := setBit s.vmidBitmap vm.vmid }.addVm vm).Inv := by
  have hnone : s.vms vm.vmid = none := by
    by_contra hsome
    rw [(h.ok.bits _ hlt).2 hsome] at hfree
    cases hfree
  refine ⟨⟨fun i hi => ?_, ?_, fun v hv => ?_⟩, ?_⟩
  · simp only [VmTable.addVm, setBit]
    by_cases hiv : i = vm.vmid
    · simp [hiv]
    · rw [Function.update_of_ne hiv, Function.update_of_ne hiv]
      exact h.ok.bits i hi
  · have hused : ({ s with vmidBitmap := setBit s.vmidBitmap vm.vmid }.addVm vm).used =
        insert vm.vmid s.used := by
      ext i
      rw [Finset.mem_insert, mem_used, mem_used, VmTable.addVm]
      by_cases hiv : i = vm.vmid
      · simp [hiv, hlt]
      · simp [hiv]
    have hmem : vm.vmid ∉ s.used := fun hmem => (mem_used.1 hmem).2 hnone
    change s.totalVms + 1 =
      ({ s with vmidBitmap := setBit s.vmidBitmap vm.vmid }.addVm vm).used.card
    rw [hused, Finset.card_insert_of_notMem hmem, h.ok.total]
    rfl
  · rcases List.mem_append.1 hv with hv | hv
    · obtain ⟨hlt', hself'⟩ := h.ok.live v hv
      have hid : v.vmid ≠ vm.vmid := by
        intro hid
        rw [hid, hnone] at hself'
        cases hself'
      exact ⟨hlt', (Function.update_of_ne hid ..).trans hself'⟩
    · rw [List.mem_singleton.1 hv]
      exact ⟨hlt, Function.update_self ..⟩
  · refine List.nodup_append.2 ⟨h.nodup, List.nodup_singleton vm, fun v hv w hw heq => ?_⟩
    rw [List.mem_singleton.1 hw] at heq
    exact hnew (heq ▸ hv)

/-- With a free id the call is good exactly if `__create_vm` makes a VM. -/
lemma Inv.createWithId {vmid : ℕ} (h : s.Inv) (hlt : vmid < CONFIG_MAX_VM)
    (hfree : s.vmidBitmap vmid = false) (hmalloc : ∀ vm ∈ s.vmList, env.vm ≠ some vm.addr)
    (t : VmTable) (ht : t = VmTable.createWithId maxVcpu tag env vmid
      { s with vmidBitmap := setBit s.vmidBitmap vmid }) :
    (newVm maxVcpu tag env vmid ≠ none → t.Inv) ∧
      (TableOk t → newVm maxVcpu tag env vmid ≠ none) := by
  subst ht
  cases hvm : newVm maxVcpu tag env vmid with
  | none =>
    refine ⟨fun hne => absurd rfl hne, fun hok => ?_⟩
    have hnone : s.vms vmid = none := by
      by_contra hsome
      rw [(h.ok.bits _ hlt).2 hsome] at hfree
      cases hfree
    have := (hok.bits vmid hlt).1 (by simp [VmTable.createWithId, hvm, setBit])
    simp [VmTable.createWithId, hvm, hnone] at this
  | some vm =>
    refine ⟨fun _ => ?_, fun _ => by simp⟩
    obtain ⟨rfl, haddr⟩ := newVm_vmid hvm
    have hadd := h.addVm hlt hfree fun hmem => hmalloc vm hmem haddr
    have hmem : vm ∈ ({ s with vmidBitmap := setBit s.vmidBitmap vm.vmid }.addVm vm).vmList :=
      List.mem_append_right _ (List.mem_singleton_self vm)
    simp only [VmTable.createWithId, hvm]
    split_ifs
    · exact hadd.destroyVm hmem
    · exact hadd.destroyVm hmem
    · exact hadd

lemma init_inv : init.Inv where
  ok := ⟨fun i _ => by simp [init], by simp [init], fun vm hvm => by cases hvm⟩
  nodup := .nil

/-- One step from tables that agree. -/
lemma Inv.step {e : VmTableEvent} (h : s.Inv) (hlegit : e.Legit s) :
    (e.Succeeds maxVcpu s → (vmTableStep maxVcpu s e).Inv) ∧
      (TableStepOk maxVcpu s e ↔ e.Succeeds maxVcpu s) := by
  cases e with
  | destroy vm =>
    have hinv := h.destroyVm hlegit
    exact ⟨fun _ => hinv, iff_of_true ⟨hinv.ok, fun _ _ he => by cases he⟩ trivial⟩
  | create tag env =>
    by_cases hauto : CONFIG_MAX_VM ≤ tag.vmid
    · by_cases hhas : HasFreeId s
      · obtain ⟨hlt, hbit, hset⟩ := allocNewVmid_of_free hhas
        have hstep : vmTableStep maxVcpu s (.create tag env) = VmTable.createWithId maxVcpu tag env
            s.allocNewVmid.1 { s with vmidBitmap := setBit s.vmidBitmap s.allocNewVmid.1 } := by
          rw [vmTableStep, createVm, if_pos hauto, if_neg s.getsId, hset]
        obtain ⟨hinv, hok⟩ := h.createWithId hlt hbit hlegit _ hstep
        rw [VmTableEvent.Succeeds, if_pos hauto]
        refine ⟨fun hs => hinv hs.2, fun hs => ⟨hhas, hok hs.1⟩, fun hs => ⟨(hinv hs.2).ok, ?_⟩⟩
        exact fun _ _ _ _ => iff_of_true s.getsId hhas
      · rw [VmTableEvent.Succeeds, if_pos hauto]
        refine ⟨fun hs => absurd hs.1 hhas, iff_of_false (fun hs => ?_) fun hs => hhas hs.1⟩
        exact hhas ((hs.2 tag env rfl hauto).1 s.getsId)
    · by_cases hbit : s.vmidBitmap tag.vmid = true
      · have hstep : vmTableStep maxVcpu s (.create tag env) = s := by
          rw [vmTableStep, createVm, if_neg hauto, if_pos hbit]
        rw [VmTableEvent.Succeeds, if_neg hauto]
        refine ⟨fun _ => hstep.symm ▸ h, iff_of_true ⟨hstep.symm ▸ h.ok, ?_⟩ fun hs => ?_⟩
        · intro _ _ he hle
          cases he
          exact absurd hle hauto
        · rw [hbit] at hs
          cases hs
      · rw [Bool.not_eq_true] at hbit
        have hstep : vmTableStep maxVcpu s (.create tag env) = VmTable.createWithId maxVcpu tag env
            tag.vmid { s with vmidBitmap := setBit s.vmidBitmap tag.vmid } := by
          rw [vmTableStep, createVm, if_neg hauto, if_neg (by rw [hbit]; decide)]
        obtain ⟨hinv, hok⟩ := h.createWithId (not_le.1 hauto) hbit hlegit _ hstep
        rw [VmTableEvent.Succeeds, if_neg hauto]
        refine ⟨fun hs => hinv (hs hbit), fun hs _ => hok hs.1, fun hs => ⟨(hinv (hs hbit)).ok, ?_⟩⟩
        intro _ _ he hle
        cases he
        exact absurd hle hauto

end VmTable

/-- The tables of ids agree all along a run, and automatic ids are found when there is one, exactly
if every call that needs an id gets one and no call fails between its id and its VM. -/
theorem vm_table_ok_iff (maxVcpu : ℕ) (es : List VmTableEvent)
    (hlegit : Along (vmTableStep maxVcpu) VmTableEvent.Legit VmTable.init es) :
    Along (vmTableStep maxVcpu) (TableStepOk maxVcpu) VmTable.init es ↔
      Along (vmTableStep maxVcpu) (VmTableEvent.Succeeds maxVcpu) VmTable.init es :=
  along_iff (fun _ _ h hl => (VmTable.Inv.step h hl).2) (fun _ _ h hl hs => (h.step hl).1 hs)
    VmTable.init_inv hlegit

/-- One vcpu on the first cpu, and any id. -/
def anyIdTag : VmTag := ⟨CONFIG_MAX_VM, 1, fun _ => 0⟩

theorem vm_table_ok_iff_create_destroy :
    let es : List VmTableEvent :=
      [.create anyIdTag ⟨some 0x1000, true, true, true⟩, .destroy ⟨0x1000, 0⟩]
    Along (vmTableStep 4) (TableStepOk 4) VmTable.init es := by
  intro es
  refine (vm_table_ok_iff 4 es ?_).2 ?_
  · refine ⟨fun vm hvm => (List.not_mem_nil hvm).elim, ?_, trivial⟩
    change (⟨0x1000, 0⟩ : VmRef) ∈ VmTable.vmList _
    decide +kernel
  · refine ⟨?_, trivial, trivial⟩
    rw [VmTableEvent.Succeeds, if_pos (by decide)]
    exact ⟨⟨0, by decide, rfl⟩, by decide +kernel⟩

/-- A VM whose vcpu is to run on a cpu that does not exist: its id is taken for ever. -/
theorem vm_table_keeps_id :
    let es : List VmTableEvent := [.create ⟨1, 1, fun _ => 4⟩ ⟨some 0x1000, true, true, true⟩]
    Along (vmTableStep 4) VmTableEvent.Legit VmTable.init es ∧
      ¬ Along (vmTableStep 4) (TableStepOk 4) VmTable.init es := by
  intro es
  constructor
  · exact ⟨fun vm hvm => (List.not_mem_nil hvm).elim, trivial⟩
  · rintro ⟨⟨hok, -⟩, -⟩
    have hbits := hok.bits 1 (by decide)
    revert hbits
    decide +kernel

end Minos.Virt
