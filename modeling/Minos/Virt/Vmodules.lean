import Mathlib
import Minos.Lib.ContextSwitch
import Minos.Virt.Vtimer

/-!
# The vmodules of a task

Each vmodule has a context for the tasks it is valid for. `save_task_vmodule_state` and
`restore_task_vmodule_state` go through the list of the vmodules, whose save and restore functions
name their registers one by one.
-/

namespace Minos.Virt

open ContextSwitch

/-- The registers that some vmodule reads or writes. The vector registers are in halves of 64 bits,
and those of the GICv2 are in memory. -/
inductive SysReg where
  | VBAR_EL1 | ESR_EL1 | ELR_EL1 | VMPIDR_EL2 | VPIDR_EL2 | SCTLR_EL1 | HCR_EL2 | SP_EL1 | SP_EL0
  | SPSR_EL1 | FAR_EL1 | ACTLR_EL1 | TPIDR_EL1 | CSSELR_EL1 | CPACR_EL1 | CONTEXTIDR_EL1 | TPIDR_EL0
  | TPIDRRO_EL0 | CNTKCTL_EL1 | AFSR0_EL1 | AFSR1_EL1 | DACR32_EL2 | IFSR32_EL2
  | VTCR_EL2 | VTTBR_EL2 | TTBR0_EL1 | TTBR1_EL1 | MAIR_EL1 | AMAIR_EL1 | TCR_EL1 | PAR_EL1
  | FPEXC32_EL2 | FPSR | FPCR | Q (half : Fin 64)
  | CNTVOFF_EL2 | CNTV_CVAL_EL0 | CNTV_CTL_EL0
  | GICH_LR (i : ℕ) | GICH_APR | GICH_VMCR | GICH_HCR
  | ICH_LR (i : ℕ) | ICH_AP0R (i : ℕ) | ICH_AP1R (i : ℕ) | ICC_SRE_EL1 | ICH_VMCR_EL2 | ICH_HCR_EL2
deriving DecidableEq

abbrev RegFile := SysReg → BitVec 64

/-- `read_sysreg32` -/
def RegFile.read32 (f : RegFile) (r : SysReg) : BitVec 32 := (f r).setWidth 32

/-- The parts of a task, and of the VM of a vcpu, that its contexts are built from. -/
structure SwitchTask where
  isVcpu : Bool
  is32bit : Bool
  vcpuId : ℕ
  vmid : BitVec 32
  pgdBase : BitVec 64
  timeOffset : BitVec 64

/-- The numbers of list registers and of priority bits that the interrupt controller reports. With
other numbers the functions of the GICv3 panic. -/
structure GicNumbers where
  gicv2NrLrs : ℕ
  gicv3NrLr : ℕ
  gicv3NrPr : ℕ
  nrLr_le : gicv3NrLr ≤ 16
  nrPr_mem : gicv3NrPr ∈ Finset.Icc 5 7

/-! ### Contexts -/

structure Aarch64SystemContext where
  vbarEl1 : BitVec 64
  esrEl1 : BitVec 64
  spEl1 : BitVec 64
  spEl0 : BitVec 64
  elrEl1 : BitVec 64
  vmpidr : BitVec 64
  vpidr : BitVec 64
  sctlrEl1 : BitVec 64
  hcrEl2 : BitVec 64
  spsrEl1 : BitVec 64
  farEl1 : BitVec 64
  actlrEl1 : BitVec 64
  tpidrEl1 : BitVec 64
  csselr : BitVec 64
  cpacr : BitVec 64
  contextidr : BitVec 64
  tpidrEl0 : BitVec 64
  tpidrroEl0 : BitVec 64
  cntkctl : BitVec 64
  afsr0 : BitVec 64
  afsr1 : BitVec 64
  dacr32El2 : BitVec 32
  ifsr32El2 : BitVec 32

structure VmsaContext where
  vtcrEl2 : BitVec 64
  ttbr0El1 : BitVec 64
  ttbr1El1 : BitVec 64
  vttbrEl2 : BitVec 64
  mairEl1 : BitVec 64
  amairEl1 : BitVec 64
  tcrEl1 : BitVec 64
  parEl1 : BitVec 64

structure VfpContext where
  regs : Fin 64 → BitVec 64
  fpexc32El2 : BitVec 32
  fpsr : BitVec 32
  fpcr : BitVec 32

/-- The registers of `virt_timer` and the offset in a `struct vtimer_context` -/
structure VtimerContext where
  cntCtl : BitVec 32
  cntCval : BitVec 32
  offset : BitVec 64

structure Gicv2Context where
  lr : ℕ → BitVec 32
  apr : BitVec 32
  vmcr : BitVec 32
  hcr : BitVec 32

structure Gicv3Context where
  ichLr : ℕ → BitVec 64
  ichAp0r : ℕ → BitVec 32
  ichAp1r : ℕ → BitVec 32
  iccSreEl1 : BitVec 32
  ichVmcrEl2 : BitVec 32
  ichHcrEl2 : BitVec 32

/-! ### The system registers -/

def HCR_EL2_VM : BitVec 64 := 1 <<< 0
def HCR_EL2_PTW : BitVec 64 := 1 <<< 2
def HCR_EL2_FMO : BitVec 64 := 1 <<< 3
def HCR_EL2_IMO : BitVec 64 := 1 <<< 4
def HCR_EL2_AMO : BitVec 64 := 1 <<< 5
def HCR_EL2_FB : BitVec 64 := 1 <<< 9
def HCR_EL2_BSU_IS : BitVec 64 := 1 <<< 10
def HCR_EL2_TWI : BitVec 64 := 1 <<< 13
def HCR_EL2_TSC : BitVec 64 := 1 <<< 19
def HCR_EL2_TIDCP : BitVec 64 := 1 <<< 20
def HCR_EL2_TACR : BitVec 64 := 1 <<< 21
def HCR_EL2_HVC : BitVec 64 := 1 <<< 29
def HCR_EL2_RW : BitVec 64 := 1 <<< 31

/-- The `hcr_el2` of a new vcpu -/
def initHcrEl2 (task : SwitchTask) : BitVec 64 :=
  let hcr := HCR_EL2_HVC ||| HCR_EL2_TWI ||| HCR_EL2_TIDCP ||| HCR_EL2_IMO ||| HCR_EL2_FMO |||
    HCR_EL2_BSU_IS ||| HCR_EL2_FB ||| HCR_EL2_PTW ||| HCR_EL2_TSC ||| HCR_EL2_TACR |||
    HCR_EL2_AMO ||| HCR_EL2_VM
  if task.is32bit then hcr else hcr ||| HCR_EL2_RW

def aarch64SystemStateInit (task : SwitchTask) : Aarch64SystemContext where
  vbarEl1 := 0
  esrEl1 := 0
  spEl1 := 0
  spEl0 := 0
  elrEl1 := 0
  vmpidr := BitVec.ofNat 64 task.vcpuId
  vpidr := 0x410fc050
  sctlrEl1 := 0
  hcrEl2 := initHcrEl2 task
  spsrEl1 := 0
  farEl1 := 0
  actlrEl1 := 0
  tpidrEl1 := 0
  csselr := 0
  cpacr := 0
  contextidr := 0
  tpidrEl0 := 0
  tpidrroEl0 := 0
  cntkctl := 0
  afsr0 := 0
  afsr1 := 0
  dacr32El2 := 0
  ifsr32El2 := 0

def aarch64SystemStateSave (task : SwitchTask) (f : RegFile) (c : Aarch64SystemContext) :
    Aarch64SystemContext where
  vbarEl1 := f .VBAR_EL1
  esrEl1 := f .ESR_EL1
  elrEl1 := f .ELR_EL1
  vmpidr := f .VMPIDR_EL2
  vpidr := f .VPIDR_EL2
  sctlrEl1 := f .SCTLR_EL1
  hcrEl2 := f .HCR_EL2
  spEl1 := f .SP_EL1
  spEl0 := f .SP_EL0
  spsrEl1 := f .SPSR_EL1
  farEl1 := f .FAR_EL1
  actlrEl1 := f .ACTLR_EL1
  tpidrEl1 := f .TPIDR_EL1
  csselr := f .CSSELR_EL1
  cpacr := f .CPACR_EL1
  contextidr := f .CONTEXTIDR_EL1
  tpidrEl0 := f .TPIDR_EL0
  tpidrroEl0 := f .TPIDRRO_EL0
  cntkctl := f .CNTKCTL_EL1
  afsr0 := f .AFSR0_EL1
  afsr1 := f .AFSR1_EL1
  dacr32El2 := if task.is32bit then f.read32 .DACR32_EL2 else c.dacr32El2
  ifsr32El2 := if task.is32bit then f.read32 .IFSR32_EL2 else c.ifsr32El2

def aarch64SystemStateRestore (task : SwitchTask) (c : Aarch64SystemContext) :
    List (SysReg × BitVec 64) :=
  [(.VBAR_EL1, c.vbarEl1), (.ESR_EL1, c.esrEl1), (.ELR_EL1, c.elrEl1), (.VMPIDR_EL2, c.vmpidr),
    (.VPIDR_EL2, c.vpidr), (.SCTLR_EL1, c.sctlrEl1), (.HCR_EL2, c.hcrEl2), (.SP_EL1, c.spEl1),
    (.SP_EL0, c.spEl0), (.SPSR_EL1, c.spsrEl1), (.FAR_EL1, c.farEl1), (.ACTLR_EL1, c.actlrEl1),
    (.TPIDR_EL1, c.tpidrEl1), (.CSSELR_EL1, c.csselr), (.CPACR_EL1, c.cpacr),
    (.CONTEXTIDR_EL1, c.contextidr), (.TPIDR_EL0, c.tpidrEl0), (.TPIDRRO_EL0, c.tpidrroEl0),
    (.CNTKCTL_EL1, c.cntkctl), (.AFSR0_EL1, c.afsr0), (.AFSR1_EL1, c.afsr1)] ++
  if task.is32bit then
    [(.DACR32_EL2, c.dacr32El2.setWidth 64), (.IFSR32_EL2, c.ifsr32El2.setWidth 64)]
  else []

/-! ### The MMU of the guest -/

/-- `generate_vtcr_el2` -/
def generateVtcrEl2 : BitVec 64 :=
  24 <<< 0 ||| 0x01 <<< 6 ||| 0x1 <<< 8 ||| 0x1 <<< 10 ||| 0x3 <<< 12 ||| 0x0 <<< 14 |||
    2 <<< 16 ||| 0x0 <<< 19

/-- `generate_vttbr_el2` -/
def generateVttbrEl2 (vmid : BitVec 32) (base : BitVec 64) : BitVec 64 :=
  base ||| vmid.setWidth 64 <<< 48

def vmsaStateInit (task : SwitchTask) : VmsaContext where
  vtcrEl2 := generateVtcrEl2
  vttbrEl2 := generateVttbrEl2 task.vmid task.pgdBase
  ttbr0El1 := 0
  ttbr1El1 := 0
  mairEl1 := 0
  tcrEl1 := 0
  parEl1 := 0
  amairEl1 := 0

def vmsaStateSave (f : RegFile) : VmsaContext where
  vtcrEl2 := f .VTCR_EL2
  vttbrEl2 := f .VTTBR_EL2
  ttbr0El1 := f .TTBR0_EL1
  ttbr1El1 := f .TTBR1_EL1
  mairEl1 := f .MAIR_EL1
  tcrEl1 := f .TCR_EL1
  parEl1 := f .PAR_EL1
  amairEl1 := f .AMAIR_EL1

def vmsaStateRestore (c : VmsaContext) : List (SysReg × BitVec 64) :=
  [(.VTCR_EL2, c.vtcrEl2), (.VTTBR_EL2, c.vttbrEl2), (.TTBR0_EL1, c.ttbr0El1),
    (.TTBR1_EL1, c.ttbr1El1), (.MAIR_EL1, c.mairEl1), (.AMAIR_EL1, c.amairEl1),
    (.TCR_EL1, c.tcrEl1), (.PAR_EL1, c.parEl1)]

/-! ### The other vmodules -/

def vfpStateInit : VfpContext := ⟨fun _ => 0, 0, 0, 0⟩

def vfpStateSave (task : SwitchTask) (f : RegFile) (c : VfpContext) : VfpContext where
  regs := fun i => f (.Q i)
  fpexc32El2 := if task.is32bit then f.read32 .FPEXC32_EL2 else c.fpexc32El2
  fpsr := f.read32 .FPSR
  fpcr := f.read32 .FPCR

def vfpStateRestore (task : SwitchTask) (c : VfpContext) : List (SysReg × BitVec 64) :=
  (if task.is32bit then [(.FPEXC32_EL2, c.fpexc32El2.setWidth 64)] else []) ++
  [(.FPSR, c.fpsr.setWidth 64), (.FPCR, c.fpcr.setWidth 64)] ++
  (List.finRange 64).map fun i => (.Q i, c.regs i)

def vtimerStateInit (task : SwitchTask) : VtimerContext := ⟨0, 0, task.timeOffset⟩

def vtimerStateSave (f : RegFile) (c : VtimerContext) : VtimerContext where
  cntCtl := f.read32 .CNTV_CTL_EL0
  cntCval := f.read32 .CNTV_CVAL_EL0
  offset := c.offset

/-- The timer of the guest is stopped by `vtimer_state_save`. -/
def vtimerStateSaveWrites (f : RegFile) : List (SysReg × BitVec 64) :=
  [(.CNTV_CTL_EL0, (f.read32 .CNTV_CTL_EL0 &&& ~~~CNT_CTL_ENABLE).setWidth 64)]

def vtimerStateRestore (c : VtimerContext) : List (SysReg × BitVec 64) :=
  [(.CNTVOFF_EL2, c.offset), (.CNTV_CVAL_EL0, c.cntCval.setWidth 64),
    (.CNTV_CTL_EL0, c.cntCtl.setWidth 64)]

def gicv2StateInit : Gicv2Context := ⟨fun _ => 0, 0, 0, 1⟩

def gicv2StateSave (P : GicNumbers) (f : RegFile) (c : Gicv2Context) : Gicv2Context where
  lr := fun i => if i < P.gicv2NrLrs then f.read32 (.GICH_LR i) else c.lr i
  vmcr := f.read32 .GICH_VMCR
  apr := f.read32 .GICH_APR
  hcr := f.read32 .GICH_HCR

/-- The interface is switched off by `gicv2_state_save`. -/
def gicv2StateSaveWrites : List (SysReg × BitVec 64) := [(.GICH_HCR, 0)]

def gicv2StateRestore (P : GicNumbers) (c : Gicv2Context) : List (SysReg × BitVec 64) :=
  ((List.range P.gicv2NrLrs).map fun i => (.GICH_LR i, (c.lr i).setWidth 64)) ++
  [(.GICH_APR, c.apr.setWidth 64), (.GICH_VMCR, c.vmcr.setWidth 64),
    (.GICH_HCR, c.hcr.setWidth 64)]

def GICH_VMCR_VENG1 : BitVec 32 := 1 <<< 1
def GICH_HCR_EN : BitVec 32 := 1 <<< 0

def gicv3StateInit : Gicv3Context :=
  ⟨fun _ => 0, fun _ => 0, fun _ => 0, 0x7, GICH_VMCR_VENG1 ||| 0xff <<< 24, GICH_HCR_EN⟩

/-- The active priority registers: one for 5 priority bits, two for 6 and three for 7. -/
def GicNumbers.nrAprn (P : GicNumbers) : ℕ := P.gicv3NrPr - 4

def gicv3StateSave (P : GicNumbers) (f : RegFile) (c : Gicv3Context) : Gicv3Context where
  ichLr := fun i => if i < P.gicv3NrLr then f (.ICH_LR i) else c.ichLr i
  ichAp0r := fun i => if i < P.nrAprn then f.read32 (.ICH_AP0R i) else c.ichAp0r i
  ichAp1r := fun i => if i < P.nrAprn then f.read32 (.ICH_AP1R i) else c.ichAp1r i
  iccSreEl1 := f.read32 .ICC_SRE_EL1
  ichVmcrEl2 := f.read32 .ICH_VMCR_EL2
  ichHcrEl2 := f.read32 .ICH_HCR_EL2

def gicv3StateRestore (P : GicNumbers) (c : Gicv3Context) : List (SysReg × BitVec 64) :=
  ((List.range P.gicv3NrLr).reverse.map fun i => (.ICH_LR i, c.ichLr i)) ++
  ((List.range P.nrAprn).reverse.flatMap fun i =>
    [(.ICH_AP0R i, (c.ichAp0r i).setWidth 64), (.ICH_AP1R i, (c.ichAp1r i).setWidth 64)]) ++
  [(.ICC_SRE_EL1, c.iccSreEl1.setWidth 64), (.ICH_VMCR_EL2, c.ichVmcrEl2.setWidth 64),
    (.ICH_HCR_EL2, c.ichHcrEl2.setWidth 64)]

end Minos.Virt
