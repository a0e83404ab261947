import Mathlib
import Minos.Lib.Bitmap

/-!
# Virtual interrupts and the list registers

Every vcpu keeps its virtual interrupts on a pending list and an active list. `__send_virq` raises
an interrupt, the entry to the guest moves pending interrupts into list registers, and the exit
looks at what the hardware made of them. Private interrupts belong to one vcpu, the descriptors of
shared ones (SPIs) to the VM.
-/

namespace Minos.Virq

open Bitmap

def VIRQ_INVALID_ID : ℕ := 0xff
def VM_SGI_VIRQ_NR : ℕ := 16
def VM_LOCAL_VIRQ_NR : ℕ := 32
def VIRQ_AFFINITY_VM_ANY : ℕ := 0xffff
def VIRQ_AFFINITY_VCPU_ANY : ℕ := 0xff
def MAX_NR_LRS : ℕ := 64

/-- `VIRQ_STATE_*`, which is also the state field of a list register -/
inductive VirqState where
  | inactive
  | pending
  | active
  | activeAndPending
deriving DecidableEq, Repr

/-- `struct virq_desc`. The flags are fields of their own, and `linked` says that `list.next` is
not `NULL`. -/
structure VirqDesc where
  id : ℕ
  state : VirqState
  pr : ℕ
  src : ℕ
  vcpuId : ℕ
  vmid : ℕ
  vno : ℕ
  hno : ℕ
  pending : Bool
  enabled : Bool
  hw : Bool
  canWakeup : Bool
  linked : Bool
deriving DecidableEq, Repr

/-- A descriptor filled with zeros. -/
def VirqDesc.zero : VirqDesc := ⟨0, .inactive, 0, 0, 0, 0, 0, 0, false, false, false, false, false⟩

/-- A pointer to a descriptor: an entry of `local_desc` of a vcpu, or of `vspi_desc` of the VM. -/
inductive VirqRef (ι : Type) where
  | priv (v : ι) (virq : ℕ)
  | spi (n : ℕ)
deriving DecidableEq, Repr

/-- A list register. -/
structure Lr where
  vid : ℕ
  pid : ℕ
  pr : ℕ
  hw : Bool
  state : VirqState
deriving DecidableEq, Repr

def Lr.zero : Lr := ⟨0, 0, 0, false, .inactive⟩

/-- `struct virq_struct`, with the list registers of the vcpu -/
structure VirqStruct (ι : Type) where
  activeCount : ℕ
  pendingList : List (VirqRef ι)
  activeList : List (VirqRef ι)
  irqBitmap : Bitmap
  lrs : ℕ → Lr

/-- What the code does to the flag of an interrupt and to its list register. -/
inductive Act (ι : Type) where
  /-- `__send_virq`, which found the flag set already if `merged` -/
  | raise (d : VirqRef ι) (merged : Bool)
  /-- `send_virq` of the chip: the interrupt is written to the list register -/
  | write (v : ι) (d : VirqRef ι) (id : ℕ)
  /-- `virq_clear_pending` -/
  | clear (d : VirqRef ι)
  /-- `get_virq_state` of the chip -/
  | report (v : ι) (d : VirqRef ι) (status : VirqState)
  /-- `VIRQ_ACTION_CLEAR`: zero is written to the list register -/
  | reset (v : ι) (d : VirqRef ι) (id : ℕ)
deriving DecidableEq, Repr

/-- The interrupts of a VM, with a log of what happened to them. -/
structure Vgic (ι : Type) where
  descs : VirqRef ι → VirqDesc
  structs : ι → VirqStruct ι
  log : List (Act ι)

inductive GicVersion where
  | v2
  | v3
deriving DecidableEq, Repr

/-- `struct virq_chip`, and the number of SPIs of the VM -/
structure Chip where
  version : GicVersion
  nrLrs : ℕ
  vspiNr : ℕ
  nrLrs_pos : 0 < nrLrs
  nrLrs_le : nrLrs ≤ MAX_NR_LRS

namespace Vgic

variable {ι : Type} [DecidableEq ι]

def setDesc (s : Vgic ι) (d : VirqRef ι) (f : VirqDesc → VirqDesc) : Vgic ι :=
  { s with descs := Function.update s.descs d (f (s.descs d)) }

def setStruct (s : Vgic ι) (v : ι) (f : VirqStruct ι → VirqStruct ι) : Vgic ι :=
  { s with structs := Function.update s.structs v (f (s.structs v)) }

omit [DecidableEq ι] in
def note (s : Vgic ι) (a : Act ι) : Vgic ι := { s with log := s.log ++ [a] }

end Vgic

section Model

variable {ι : Type} [DecidableEq ι] (C : Chip)

/-- `get_virq_desc` -/
def getVirqDesc (v : ι) (virq : ℕ) : Option (VirqRef ι) :=
  if virq < VM_LOCAL_VIRQ_NR then some (.priv v virq)
  else if C.vspiNr + VM_LOCAL_VIRQ_NR ≤ virq then none
  else some (.spi (virq - VM_LOCAL_VIRQ_NR))

/-! ### The chip -/

/-- What `gicv2_send_virq` and `gicv3_send_virq` write. -/
def lrOf (desc : VirqDesc) : Lr where
  vid := desc.vno
  pid :=
    match C.version with
    | .v2 => if desc.hw then desc.hno else if desc.vno < 16 then desc.src else 0
    | .v3 => desc.hno
  pr := desc.pr
  hw := desc.hw
  state := .pending

/-- `virqchip_send_virq` -/
def virqchipSendVirq (v : ι) (d : VirqRef ι) (s : Vgic ι) : Vgic ι :=
  let id := (s.descs d).id
  if C.nrLrs ≤ id then s
  else (s.setStruct v fun vs => { vs with
    lrs := Function.update vs.lrs id (lrOf C (s.descs d)) }).note (.write v d id)

/-- `virqchip_update_virq` with `VIRQ_ACTION_CLEAR` -/
def virqchipClearVirq (v : ι) (d : VirqRef ι) (s : Vgic ι) : Vgic ι :=
  let id := (s.descs d).id
  if C.nrLrs ≤ id then s
  else (s.setStruct v fun vs => { vs with
    lrs := Function.update vs.lrs id Lr.zero }).note (.reset v d id)

/-- `virqchip_get_virq_state` -/
def virqchipGetVirqState (v : ι) (d : VirqRef ι) (s : Vgic ι) : VirqState :=
  if C.nrLrs ≤ (s.descs d).id then .inactive else ((s.structs v).lrs (s.descs d).id).state

/-! ### Raising an interrupt -/

/-- `list_add_tail` to the pending list -/
def enqueue (v : ι) (d : VirqRef ι) (s : Vgic ι) : Vgic ι :=
  (s.setDesc d fun desc => { desc with linked := true }).setStruct v fun vs => { vs with
    pendingList := vs.pendingList ++ [d]
    activeCount := vs.activeCount + 1 }

/-- `__send_virq`, called while vcpu `src` is current -/
def sendVirq (v : ι) (d : VirqRef ι) (src : ℕ) (s : Vgic ι) : Vgic ι :=
  if (s.descs d).pending then s.note (.raise d true)
  else
    let s := (s.setDesc d fun desc => { desc with pending := true }).note (.raise d false)
    let s := if (s.descs d).linked then s else enqueue v d s
    s.setDesc d fun desc => if desc.vno < VM_SGI_VIRQ_NR then { desc with src := src } else desc

/-! ### Entry to the guest -/

/-- A descriptor on the pending list that is not pending is taken off. -/
def dropVirq (v : ι) (d : VirqRef ι) (s : Vgic ι) : Vgic ι :=
  let s := s.setDesc d fun desc => { desc with state := .inactive }
  let id := (s.descs d).id
  let s :=
    if id = VIRQ_INVALID_ID then s
    else ((virqchipClearVirq C v d s).setStruct v fun vs => { vs with
      irqBitmap := clearBit vs.irqBitmap id }).setDesc d fun desc => { desc with
        id := VIRQ_INVALID_ID }
  (s.setStruct v fun vs => { vs with pendingList := vs.pendingList.erase d }).setDesc d fun desc =>
    { desc with linked := false }

/-- A free list register is given to the descriptor. -/
def takeId (v : ι) (d : VirqRef ι) (id : ℕ) (s : Vgic ι) : Vgic ι :=
  (s.setDesc d fun desc => { desc with id := id }).setStruct v fun vs => { vs with
    irqBitmap := setBit vs.irqBitmap id }

/-- `__do_send_virq` of `vgic_irq_enter_to_guest` -/
def deliver (v : ι) (d : VirqRef ι) (s : Vgic ι) : Vgic ι :=
  (((virqchipSendVirq C v d s).setDesc d fun desc => { desc with
    state := .pending
    pending := false }).note (.clear d)).setStruct v fun vs => { vs with
      pendingList := vs.pendingList.erase d
      activeList := vs.activeList ++ [d] }

/-- The loop of `vgic_irq_enter_to_guest` over the rest of the pending list. It stops at the first
descriptor for which there is no list register. -/
def enterLoop (v : ι) : List (VirqRef ι) → Vgic ι → Vgic ι
  | [], s => s
  | d :: rest, s =>
    if (s.descs d).pending = false then enterLoop v rest (dropVirq C v d s)
    else if (s.descs d).id ≠ VIRQ_INVALID_ID then enterLoop v rest (deliver C v d s)
    else
      let id := findNextZeroBit (s.structs v).irqBitmap C.nrLrs 0
      if id = C.nrLrs then s else enterLoop v rest (deliver C v d (takeId v d id s))

/-- `vgic_irq_enter_to_guest` -/
def vgicIrqEnterToGuest (v : ι) (s : Vgic ι) : Vgic ι :=
  enterLoop C v (s.structs v).pendingList s

/-! ### Exit from the guest -/

/-- The guest is done with the interrupt. -/
def retire (v : ι) (d : VirqRef ι) (s : Vgic ι) : Vgic ι :=
  ((virqchipClearVirq C v d s).setStruct v fun vs => { vs with
    irqBitmap := clearBit vs.irqBitmap (s.descs d).id
    activeList := vs.activeList.erase d
    activeCount := vs.activeCount - 1 }).setDesc d fun desc => { desc with
      state := .inactive
      id := VIRQ_INVALID_ID
      linked := false }

/-- The guest is done with the interrupt, which was raised again meanwhile. -/
def requeue (v : ι) (d : VirqRef ι) (s : Vgic ι) : Vgic ι :=
  (virqchipClearVirq C v d s).setStruct v fun vs => { vs with
    activeList := vs.activeList.erase d
    pendingList := vs.pendingList ++ [d] }

/-- The body of the loop of `vgic_irq_exit_from_guest`. -/
def exitVirq (v : ι) (s : Vgic ι) (d : VirqRef ι) : Vgic ι :=
  let status := virqchipGetVirqState C v d s
  let s := s.note (.report v d status)
  if status = .inactive then
    if (s.descs d).pending then requeue C v d s else retire C v d s
  else s.setDesc d fun desc => { desc with state := status }

/-- `vgic_irq_exit_from_guest` -/
def vgicIrqExitFromGuest (v : ι) (s : Vgic ι) : Vgic ι :=
  (s.structs v).activeList.foldl (exitVirq C v) s

/-! ### The start -/

/-- What `vcpu_virq_struct_init` makes of `local_desc[virq]`. -/
def localDescInit (virq : ℕ) : VirqDesc :=
  { VirqDesc.zero with
    enabled := true
    vcpuId := VIRQ_AFFINITY_VCPU_ANY
    vmid := VIRQ_AFFINITY_VM_ANY
    vno := virq
    id := VIRQ_INVALID_ID }

/-- What `__request_virq` makes of a descriptor. -/
def requestVirq (vcpuId vmid virq hwirq : ℕ) (wakeup enable : Bool) (desc : VirqDesc) : VirqDesc :=
  { desc with
    vno := virq
    hno := hwirq
    vcpuId := vcpuId
    pr := 0xa0
    vmid := vmid
    id := VIRQ_INVALID_ID
    linked := false
    state := .inactive
    hw := hwirq ≠ 0
    canWakeup := desc.canWakeup || wakeup
    enabled := enable }

/-- An SPI that the VM asked for before the run. -/
structure Request where
  vcpuId : ℕ
  vmid : ℕ
  hwirq : ℕ
  wakeup : Bool
  enable : Bool

/-- What a VM may raise: every private interrupt, and the SPIs that were requested. -/
def VirqRef.Requested {ι : Type} (requests : ℕ → Option Request) : VirqRef ι → Prop
  | .priv _ _ => True
  | .spi n => (requests n).isSome

/-- `vcpu_virq_struct_init` of every vcpu, whose structure comes from `zalloc`, and the SPIs that
were requested; the others are zero. -/
def Vgic.init (ι : Type) (requests : ℕ → Option Request) : Vgic ι where
  descs
    | .priv _ virq => localDescInit virq
    | .spi n =>
      match requests n with
      | none => VirqDesc.zero
      | some r => requestVirq r.vcpuId r.vmid (n + VM_LOCAL_VIRQ_NR) r.hwirq r.wakeup r.enable
          VirqDesc.zero
  structs _ := ⟨0, [], [], fun _ => false, fun _ => Lr.zero⟩
  log := []

/-! ### Runs -/

inductive Event (ι : Type) where
  /-- `__send_virq` of the descriptor that `get_virq_desc` finds -/
  | send (v : ι) (virq src : ℕ)
  | enter (v : ι)
  | exit (v : ι)
  /-- the hardware changes the states of the list registers -/
  | hardware (v : ι) (states : ℕ → VirqState)

def step (s : Vgic ι) : Event ι → Vgic ι
  | .send v virq src =>
    match getVirqDesc C v virq with
    | none => s
    | some d => sendVirq v d src s
  | .enter v => vgicIrqEnterToGuest C v s
  | .exit v => vgicIrqExitFromGuest C v s
  | .hardware v states => s.setStruct v fun vs => { vs with
      lrs := fun i => { vs.lrs i with state := states i } }

end Model

end Minos.Virq
