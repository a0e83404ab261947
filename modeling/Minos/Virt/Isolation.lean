import Mathlib
import Minos.Lib.Run
import Minos.Virt.Vmodules

/-!
# A vcpu is resumed with its own registers

A switch saves the registers of one task and restores those of another. The tasks that are not
vcpus have no context for the registers of the guest, so a vcpu that is resumed after them finds its
registers in its context alone.
-/

namespace Minos.Virt

open ContextSwitch Run

/-- The vmodules that are declared or registered -/
inductive VmoduleId where
  | aarch64System | vmsa | vfp | vtimer | gicv2 | gicv3
deriving DecidableEq

namespace VmoduleId

/-- `valid_for_task` -/
def validForTask (task : SwitchTask) : VmoduleId → Bool
  | aarch64System | vmsa | vtimer => task.isVcpu
  | vfp | gicv2 | gicv3 => true

def Context : VmoduleId → Type
  | aarch64System => Aarch64SystemContext
  | vmsa => VmsaContext
  | vfp => VfpContext
  | vtimer => VtimerContext
  | gicv2 => Gicv2Context
  | gicv3 => Gicv3Context

/-- `state_init` -/
def stateInit (task : SwitchTask) : (id : VmoduleId) → id.Context
  | aarch64System => aarch64SystemStateInit task
  | vmsa => vmsaStateInit task
  | vfp => vfpStateInit
  | vtimer => vtimerStateInit task
  | gicv2 => gicv2StateInit
  | gicv3 => gicv3StateInit

/-- `state_save` -/
def stateSave (P : GicNumbers) :
    (id : VmoduleId) → SwitchTask → RegFile → id.Context → id.Context
  | aarch64System, task, f, c => aarch64SystemStateSave task f c
  | vmsa, _, f, _ => vmsaStateSave f
  | vfp, task, f, c => vfpStateSave task f c
  | vtimer, _, f, c => vtimerStateSave f c
  | gicv2, _, f, c => gicv2StateSave P f c
  | gicv3, _, f, c => gicv3StateSave P f c

/-- What `state_save` writes -/
def stateSaveWrites : VmoduleId → SwitchTask → RegFile → List (SysReg × BitVec 64)
  | vtimer, _, f => vtimerStateSaveWrites f
  | gicv2, _, _ => gicv2StateSaveWrites
  | _, _, _ => []

/-- `state_restore` -/
def stateRestore (P : GicNumbers) :
    (id : VmoduleId) → SwitchTask → id.Context → List (SysReg × BitVec 64)
  | aarch64System, task, c => aarch64SystemStateRestore task c
  | vmsa, _, c => vmsaStateRestore c
  | vfp, task, c => vfpStateRestore task c
  | vtimer, _, c => vtimerStateRestore c
  | gicv2, _, c => gicv2StateRestore P c
  | gicv3, _, c => gicv3StateRestore P c

end VmoduleId

/-- The vmodule that a register belongs to -/
def SysReg.owner : SysReg → VmoduleId
  | VTCR_EL2 | VTTBR_EL2 | TTBR0_EL1 | TTBR1_EL1 | MAIR_EL1 | AMAIR_EL1 | TCR_EL1 | PAR_EL1 => .vmsa
  | FPEXC32_EL2 | FPSR | FPCR | Q _ => .vfp
  | CNTVOFF_EL2 | CNTV_CVAL_EL0 | CNTV_CTL_EL0 => .vtimer
  | GICH_LR _ | GICH_APR | GICH_VMCR | GICH_HCR => .gicv2
  | ICH_LR _ | ICH_AP0R _ | ICH_AP1R _ | ICC_SRE_EL1 | ICH_VMCR_EL2 | ICH_HCR_EL2 => .gicv3
  | _ => .aarch64System

lemma owner_of_mem_stateSaveWrites (id : VmoduleId) (task : SwitchTask) (f : RegFile) :
    ∀ w ∈ id.stateSaveWrites task f, w.1.owner = id := by
  cases id with
  | vtimer => simp [VmoduleId.stateSaveWrites, vtimerStateSaveWrites, SysReg.owner]
  | gicv2 => simp [VmoduleId.stateSaveWrites, gicv2StateSaveWrites, SysReg.owner]
  | aarch64System | vmsa | vfp | gicv3 => simp [VmoduleId.stateSaveWrites]

lemma owner_of_mem_stateRestore (P : GicNumbers) (id : VmoduleId) (task : SwitchTask)
    (c : id.Context) : ∀ w ∈ id.stateRestore P task c, w.1.owner = id := by
  cases id with
  | aarch64System =>
    simp only [VmoduleId.stateRestore, aarch64SystemStateRestore]
    split_ifs
    · simp [SysReg.owner]
    · simp [SysReg.owner]
  | vmsa => simp [VmoduleId.stateRestore, vmsaStateRestore, SysReg.owner]
  | vfp =>
    simp only [VmoduleId.stateRestore, vfpStateRestore]
    split_ifs
    · simp +contextual [or_imp, SysReg.owner]
    · simp +contextual [or_imp, SysReg.owner]
  | vtimer => simp [VmoduleId.stateRestore, vtimerStateRestore, SysReg.owner]
  | gicv2 =>
    simp only [VmoduleId.stateRestore, gicv2StateRestore, List.mem_append, List.mem_map]
    rintro w (⟨i, -, rfl⟩ | hw)
    · rfl
    · revert w
      simp [SysReg.owner]
  | gicv3 =>
    simp only [VmoduleId.stateRestore, gicv3StateRestore, List.mem_append, List.mem_map,
      List.mem_flatMap]
    rintro w ((⟨i, -, rfl⟩ | ⟨i, -, hw⟩) | hw)
    · rfl
    · revert w
      simp [SysReg.owner]
    · revert w
      simp [SysReg.owner]

def vmodules (P : GicNumbers) : Modules SysReg (BitVec 64) SwitchTask VmoduleId where
  Context := VmoduleId.Context
  save := VmoduleId.stateSave P
  saveWrites := VmoduleId.stateSaveWrites
  restoreWrites := VmoduleId.stateRestore P
  owner := SysReg.owner
  saveWrites_owner := owner_of_mem_stateSaveWrites
  restoreWrites_owner := owner_of_mem_stateRestore P

/-! ### Switching -/

/-- `vmodule_list`, with the vmodules of `MINOS_MODULE_DECLARE` and some of the registered ones, in
the order of the linker and of the drivers -/
structure VmoduleList where
  toList : List VmoduleId
  nodup : toList.Nodup
  system_mem : .aarch64System ∈ toList
  vmsa_mem : .vmsa ∈ toList

/-- What does not change while the tasks run -/
structure SwitchEnv where
  gic : GicNumbers
  vmoduleList : VmoduleList
  tasks : ℕ → SwitchTask

namespace SwitchEnv

variable (E : SwitchEnv)

abbrev TaskContexts := (vmodules E.gic).Contexts

/-- `task_vmodules_init` -/
def taskVmodulesInit (task : SwitchTask) : E.TaskContexts := fun id =>
  if id ∈ E.vmoduleList.toList ∧ id.validForTask task = true then some (id.stateInit task) else none

/-- `save_task_vmodule_state` -/
def saveTaskVmoduleState (task : SwitchTask) (s : E.TaskContexts × RegFile) :
    E.TaskContexts × RegFile :=
  (vmodules E.gic).saveAll E.vmoduleList.toList task s

/-- `restore_task_vmodule_state` -/
def restoreTaskVmoduleState (task : SwitchTask) (ctx : E.TaskContexts) (f : RegFile) : RegFile :=
  (vmodules E.gic).restoreAll E.vmoduleList.toList task ctx f

end SwitchEnv

/-- The registers of the cpu, the contexts of all tasks and the task that runs. With every task goes
what the registers were when it was last switched out. -/
structure SwitchState (E : SwitchEnv) where
  regs : RegFile
  context : ℕ → E.TaskContexts
  current : ℕ
  out : ℕ → Option RegFile

/-- A switch, or the running task changes registers in some way. -/
inductive SwitchEvent where
  | switchTo (next : ℕ)
  | change (g : RegFile → RegFile)

namespace SwitchState

variable {E : SwitchEnv}

/-- Every task has new contexts. -/
def init (E : SwitchEnv) (regs : RegFile) (current : ℕ) : SwitchState E :=
  ⟨regs, fun t => E.taskVmodulesInit (E.tasks t), current, fun _ => none⟩

/-- `switch_to_task` -/
def switchToTask (s : SwitchState E) (next : ℕ) : SwitchState E :=
  let saved := E.saveTaskVmoduleState (E.tasks s.current) (s.context s.current, s.regs)
  let context := Function.update s.context s.current saved.1
  { regs := E.restoreTaskVmoduleState (E.tasks next) (context next) saved.2
    context
    current := next
    out := Function.update s.out s.current (some s.regs) }

def step (s : SwitchState E) : SwitchEvent → SwitchState E
  | .switchTo next => s.switchToTask next
  | .change g => { s with regs := g s.regs }

end SwitchState

/-- The registers that `aarch64-system` and `armv8-mmu` handle for a task of 64 bits. -/
def SysReg.Handled (r : SysReg) : Prop :=
  (r.owner = .aarch64System ∧ r ≠ DACR32_EL2 ∧ r ≠ IFSR32_EL2) ∨ r.owner = .vmsa

/-- What the registers of a new vcpu are. -/
def initRegs (task : SwitchTask) : RegFile
  | .VMPIDR_EL2 => BitVec.ofNat 64 task.vcpuId
  | .VPIDR_EL2 => 0x410fc050
  | .HCR_EL2 => initHcrEl2 task
  | .VTCR_EL2 => generateVtcrEl2
  | .VTTBR_EL2 => generateVttbrEl2 task.vmid task.pgdBase
  | _ => 0

/-- What a task is to find in the registers when it runs again. -/
def SwitchState.kept {E : SwitchEnv} (s : SwitchState E) (t : ℕ) : RegFile :=
  (s.out t).getD (initRegs (E.tasks t))

/-- A vcpu of 64 bits -/
def SwitchTask.Vcpu64 (task : SwitchTask) : Prop := task.isVcpu = true ∧ task.is32bit = false

/-! ### The lists of the two modules agree -/

/-- The registers of `aarch64_system_state_restore` for a task of 64 bits -/
def systemRegs : List SysReg :=
  [.VBAR_EL1, .ESR_EL1, .ELR_EL1, .VMPIDR_EL2, .VPIDR_EL2, .SCTLR_EL1, .HCR_EL2, .SP_EL1, .SP_EL0,
    .SPSR_EL1, .FAR_EL1, .ACTLR_EL1, .TPIDR_EL1, .CSSELR_EL1, .CPACR_EL1, .CONTEXTIDR_EL1,
    .TPIDR_EL0, .TPIDRRO_EL0, .CNTKCTL_EL1, .AFSR0_EL1, .AFSR1_EL1]

/-- The registers of `vmsa_state_restore` -/
def vmsaRegs : List SysReg :=
  [.VTCR_EL2, .VTTBR_EL2, .TTBR0_EL1, .TTBR1_EL1, .MAIR_EL1, .AMAIR_EL1, .TCR_EL1, .PAR_EL1]

lemma handled_iff {r : SysReg} : r.Handled ↔ r ∈ systemRegs ∨ r ∈ vmsaRegs := by
  cases r
  all_goals simp [SysReg.Handled, SysReg.owner, systemRegs, vmsaRegs]

lemma owner_of_mem_systemRegs {r : SysReg} (h : r ∈ systemRegs) : r.owner = .aarch64System := by
  have : ∀ r ∈ systemRegs, r.owner = .aarch64System := by decide
  exact this r h

lemma owner_of_mem_vmsaRegs {r : SysReg} (h : r ∈ vmsaRegs) : r.owner = .vmsa := by
  have : ∀ r ∈ vmsaRegs, r.owner = .vmsa := by decide
  exact this r h

section Lists

variable {task : SwitchTask} (P : GicNumbers)

lemma systemRestore_save (h : task.is32bit = false) (f : RegFile) (c : Aarch64SystemContext) :
    aarch64SystemStateRestore task (aarch64SystemStateSave task f c) =
      systemRegs.map fun r => (r, f r) := by
  rw [aarch64SystemStateRestore, if_neg (by simp [h])]
  rfl

lemma systemRestore_init (h : task.is32bit = false) :
    aarch64SystemStateRestore task (aarch64SystemStateInit task) =
      systemRegs.map fun r => (r, initRegs task r) := by
  rw [aarch64SystemStateRestore, if_neg (by simp [h])]
  rfl

lemma vmsaRestore_save (f : RegFile) :
    vmsaStateRestore (vmsaStateSave f) = vmsaRegs.map fun r => (r, f r) := rfl

lemma vmsaRestore_init :
    vmsaStateRestore (vmsaStateInit task) = vmsaRegs.map fun r => (r, initRegs task r) := rfl

/-- A list that has a register once has its value. -/
lemma map_holds {regs : List SysReg} {f : RegFile} {r : SysReg} (hr : r ∈ regs) :
    (∃ w ∈ regs.map fun r => (r, f r), w.1 = r) ∧
      ∀ w ∈ regs.map fun r => (r, f r), w.1 = r → w.2 = f r := by
  refine ⟨⟨_, List.mem_map_of_mem hr, rfl⟩, fun w hw hwr => ?_⟩
  obtain ⟨r', -, rfl⟩ := List.mem_map.1 hw
  exact congrArg f hwr

/-- What is restored of a handled register is what was saved. -/
lemma keeps_of_handled (h : task.is32bit = false) {r : SysReg} (hr : r.Handled) :
    (vmodules P).Keeps task r := by
  intro f
  change ∀ c : r.owner.Context, (∃ w ∈ r.owner.stateRestore P task (r.owner.stateSave P task f c),
    w.1 = r) ∧ ∀ w ∈ r.owner.stateRestore P task (r.owner.stateSave P task f c), w.1 = r → w.2 = f r
  rcases handled_iff.1 hr with hmem | hmem
  · rw [owner_of_mem_systemRegs hmem]
    intro c
    rw [VmoduleId.stateRestore, VmoduleId.stateSave, systemRestore_save h f c]
    exact map_holds hmem
  · rw [owner_of_mem_vmsaRegs hmem]
    intro c
    rw [VmoduleId.stateRestore, VmoduleId.stateSave, vmsaRestore_save f]
    exact map_holds hmem

end Lists

namespace SwitchEnv

variable {E : SwitchEnv} {task : SwitchTask} {r : SysReg}

lemma owner_mem (hr : r.Handled) : r.owner ∈ E.vmoduleList.toList := by
  rcases hr with ⟨h, -⟩ | h
  · exact h ▸ E.vmoduleList.system_mem
  · exact h ▸ E.vmoduleList.vmsa_mem

lemma taskVmodulesInit_owner (h : task.isVcpu = true) (hr : r.Handled) :
    E.taskVmodulesInit task r.owner = some (r.owner.stateInit task) := by
  have hvalid : r.owner.validForTask task = true := by
    rcases hr with ⟨hr, -⟩ | hr
    · rw [hr]
      exact h
    · rw [hr]
      exact h
  exact if_pos ⟨owner_mem hr, hvalid⟩

/-- New contexts hold the registers of a new vcpu. -/
lemma holds_init (h : task.Vcpu64) (hr : r.Handled) :
    (vmodules E.gic).Holds task (E.taskVmodulesInit task) r (initRegs task r) := by
  refine ⟨_, taskVmodulesInit_owner h.1 hr, ?_⟩
  change (∃ w ∈ r.owner.stateRestore E.gic task (r.owner.stateInit task), w.1 = r) ∧
    ∀ w ∈ r.owner.stateRestore E.gic task (r.owner.stateInit task), w.1 = r → w.2 = initRegs task r
  rcases handled_iff.1 hr with hmem | hmem
  · rw [owner_of_mem_systemRegs hmem, VmoduleId.stateRestore, VmoduleId.stateInit,
      systemRestore_init h.2]
    exact map_holds hmem
  · rw [owner_of_mem_vmsaRegs hmem, VmoduleId.stateRestore, VmoduleId.stateInit, vmsaRestore_init]
    exact map_holds hmem

end SwitchEnv

/-! ### One switch -/

namespace SwitchState

variable {E : SwitchEnv} {s : SwitchState E} {t : ℕ} {r : SysReg}

/-- The contexts of the vcpus that do not run hold what they are to find, and every vcpu has its
contexts. -/
structure Inv (s : SwitchState E) : Prop where
  holds : ∀ t, t ≠ s.current → (E.tasks t).Vcpu64 → ∀ r : SysReg, r.Handled →
    (vmodules E.gic).Holds (E.tasks t) (s.context t) r (s.kept t r)
  valid : ∀ t, (E.tasks t).Vcpu64 → ∀ r : SysReg, r.Handled → (s.context t r.owner).isSome = true

lemma init_inv (regs : RegFile) (current : ℕ) : (init E regs current).Inv where
  holds _ _ ht _ hr := SwitchEnv.holds_init ht hr
  valid _ ht _ hr := by
    change (E.taskVmodulesInit _ _).isSome = true
    rw [SwitchEnv.taskVmodulesInit_owner ht.1 hr]
    rfl

lemma switchToTask_context (next : ℕ) : (s.switchToTask next).context =
    Function.update s.context s.current
      (E.saveTaskVmoduleState (E.tasks s.current) (s.context s.current, s.regs)).1 := rfl

lemma switchToTask_out (next : ℕ) :
    (s.switchToTask next).out = Function.update s.out s.current (some s.regs) := rfl

lemma kept_switchToTask_self (next : ℕ) : (s.switchToTask next).kept s.current = s.regs := by
  rw [kept, switchToTask_out, Function.update_self]
  rfl

lemma kept_switchToTask_of_ne {next : ℕ} (h : t ≠ s.current) :
    (s.switchToTask next).kept t = s.kept t := by
  rw [kept, switchToTask_out, Function.update_of_ne h]
  rfl

/-- After a switch the contexts of all vcpus hold what they are to find. -/
lemma Inv.holds_switchToTask (h : s.Inv) (next : ℕ) (ht : (E.tasks t).Vcpu64) (hr : r.Handled) :
    (vmodules E.gic).Holds (E.tasks t) ((s.switchToTask next).context t) r
      ((s.switchToTask next).kept t r) := by
  by_cases hcur : t = s.current
  · subst hcur
    rw [kept_switchToTask_self, switchToTask_context, Function.update_self]
    refine Modules.holds_saveAll (keeps_of_handled E.gic ht.2 hr) E.vmoduleList.nodup
      (SwitchEnv.owner_mem hr) ?_
    exact Option.isSome_iff_ne_none.1 (h.valid _ ht r hr)
  · rw [kept_switchToTask_of_ne hcur, switchToTask_context, Function.update_of_ne hcur]
    exact h.holds t hcur ht r hr

/-- A vcpu finds what it is to find. -/
lemma Inv.regs_switchToTask (h : s.Inv) (ht : (E.tasks t).Vcpu64) (hr : r.Handled) :
    (s.switchToTask t).regs r = (s.switchToTask t).kept t r :=
  Modules.restoreAll_of_holds (h.holds_switchToTask t ht hr) (SwitchEnv.owner_mem hr)

lemma Inv.step (h : s.Inv) (e : SwitchEvent) : (s.step e).Inv := by
  cases e with
  | change g => exact ⟨h.holds, h.valid⟩
  | switchTo next =>
    refine ⟨fun t _ ht r hr => h.holds_switchToTask next ht hr, fun t ht r hr => ?_⟩
    by_cases hcur : t = s.current
    · subst hcur
      rw [SwitchState.step, switchToTask_context, Function.update_self]
      exact Modules.isSome_saveAll.trans (h.valid _ ht r hr)
    · rw [SwitchState.step, switchToTask_context, Function.update_of_ne hcur]
      exact h.valid t ht r hr

end SwitchState

/-! ### Two runs -/

/-- What `g` does to the handled registers depends on the handled registers. -/
def SeesOwn (g : RegFile → RegFile) : Prop :=
  ∀ f₁ f₂ : RegFile, (∀ r : SysReg, r.Handled → f₁ r = f₂ r) →
    ∀ r : SysReg, r.Handled → g f₁ r = g f₂ r

/-- Two runs with the same switches in which the task `t` does the same, and the others do what they
like. -/
inductive Twin (t : ℕ) : ℕ → List SwitchEvent → List SwitchEvent → Prop
  | nil (current : ℕ) : Twin t current [] []
  | switchTo {current : ℕ} {es₁ es₂ : List SwitchEvent} (next : ℕ) (h : Twin t next es₁ es₂) :
      Twin t current (.switchTo next :: es₁) (.switchTo next :: es₂)
  | own {es₁ es₂ : List SwitchEvent} {g : RegFile → RegFile} (hg : SeesOwn g)
      (h : Twin t t es₁ es₂) : Twin t t (.change g :: es₁) (.change g :: es₂)
  | other {current : ℕ} {es₁ es₂ : List SwitchEvent} (hne : current ≠ t)
      (g₁ g₂ : RegFile → RegFile) (h : Twin t current es₁ es₂) :
      Twin t current (.change g₁ :: es₁) (.change g₂ :: es₂)

/-- Two states with the same handled registers of the task `t`, wherever they are. -/
structure SameFor {E : SwitchEnv} (t : ℕ) (s₁ s₂ : SwitchState E) : Prop where
  inv₁ : s₁.Inv
  inv₂ : s₂.Inv
  current : s₁.current = s₂.current
  regs : s₁.current = t → ∀ r : SysReg, r.Handled → s₁.regs r = s₂.regs r
  kept : s₁.current ≠ t → ∀ r : SysReg, r.Handled → s₁.kept t r = s₂.kept t r

namespace SameFor

variable {E : SwitchEnv} {s₁ s₂ : SwitchState E} {t : ℕ}

lemma kept_switchToTask (h : SameFor t s₁ s₂) (next : ℕ) {r : SysReg} (hr : r.Handled) :
    (s₁.switchToTask next).kept t r = (s₂.switchToTask next).kept t r := by
  by_cases hcur : s₁.current = t
  · have hcur₂ := h.current.symm.trans hcur
    have hregs := h.regs hcur r hr
    subst hcur
    rw [SwitchState.kept_switchToTask_self, ← hcur₂, SwitchState.kept_switchToTask_self, hregs]
  · have hcur₂ : s₂.current ≠ t := h.current ▸ hcur
    rw [SwitchState.kept_switchToTask_of_ne (Ne.symm hcur),
      SwitchState.kept_switchToTask_of_ne (Ne.symm hcur₂), h.kept hcur r hr]

lemma switchToTask (h : SameFor t s₁ s₂) (ht : (E.tasks t).Vcpu64) (next : ℕ) :
    SameFor t (s₁.switchToTask next) (s₂.switchToTask next) where
  inv₁ := h.inv₁.step (.switchTo next)
  inv₂ := h.inv₂.step (.switchTo next)
  current := rfl
  regs hnext r hr := by
    obtain rfl : next = t := hnext
    rw [h.inv₁.regs_switchToTask ht hr, h.inv₂.regs_switchToTask ht hr]
    exact h.kept_switchToTask next hr
  kept _ _ hr := h.kept_switchToTask next hr

lemma exec {es₁ es₂ : List SwitchEvent} (ht : (E.tasks t).Vcpu64) {current : ℕ}
    (htwin : Twin t current es₁ es₂) (h : SameFor t s₁ s₂) (hcur : s₁.current = current) :
    SameFor t (Run.exec SwitchState.step s₁ es₁) (Run.exec SwitchState.step s₂ es₂) := by
  induction htwin generalizing s₁ s₂ with
  | nil => exact h
  | switchTo next _ ih => exact ih (h.switchToTask ht next) rfl
  | @own _ _ g hg _ ih =>
    refine ih ⟨h.inv₁.step (.change g), h.inv₂.step (.change g), h.current, ?_, ?_⟩ hcur
    · exact fun hc => hg _ _ (h.regs hc)
    · exact h.kept
  | other hne g₁ g₂ _ ih =>
    refine ih ⟨h.inv₁.step (.change g₁), h.inv₂.step (.change g₂), h.current, ?_, h.kept⟩ hcur
    exact fun hc => absurd (hcur.symm.trans hc) hne

end SameFor

/-- A vcpu of 64 bits is resumed with the registers it was switched out with, the first time with
those of a new vcpu, and what other tasks do to registers makes no difference for it. -/
theorem vcpu_registers_isolated (E : SwitchEnv) (current : ℕ) :
    (∀ (regs : RegFile) (es : List SwitchEvent),
      Along SwitchState.step (fun s e => ∀ t, e = .switchTo t → (E.tasks t).Vcpu64 →
        ∀ r : SysReg, r.Handled → (s.step e).regs r = (s.step e).kept t r)
        (SwitchState.init E regs current) es) ∧
    ∀ (t : ℕ) (regs₁ regs₂ : RegFile) (es₁ es₂ : List SwitchEvent), (E.tasks t).Vcpu64 →
      (current = t → ∀ r : SysReg, r.Handled → regs₁ r = regs₂ r) → Twin t current es₁ es₂ →
        let s₁ := exec SwitchState.step (SwitchState.init E regs₁ current) es₁
        let s₂ := exec SwitchState.step (SwitchState.init E regs₂ current) es₂
        s₁.current = t → ∀ r : SysReg, r.Handled → s₁.regs r = s₂.regs r := by
  constructor
  · intro regs es
    refine along_induction (I := SwitchState.Inv) (fun _ e h _ => h.step e) ?_
      (SwitchState.init_inv regs current) (along_const.2 fun _ _ => trivial)
    rintro s e h - t rfl ht r hr
    exact h.regs_switchToTask ht hr
  · intro t regs₁ regs₂ es₁ es₂ ht hregs htwin s₁ s₂ hcur
    have hsame : SameFor t (SwitchState.init E regs₁ current) (SwitchState.init E regs₂ current) :=
      ⟨SwitchState.init_inv _ _, SwitchState.init_inv _ _, rfl, hregs, fun _ _ _ => rfl⟩
    exact (hsame.exec ht htwin rfl).regs hcur

end Minos.Virt
