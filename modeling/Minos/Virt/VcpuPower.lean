import Mathlib
import Minos.Types
import Minos.Lib.Run
import Minos.Sched.WakeUp
import Minos.Virq.Vgic

/-!
# Powering vcpus on and off

A vcpu that its guest turned off has the state `TASK_STAT_STOPPED`, and `vcpu_power_on` brings it
back. Every virtual interrupt ends in `kick_vcpu`, which makes the task of the vcpu ready if it is
not ready, whether it is suspended or stopped.
-/

namespace Minos.Virt

open Sched Virq Run

/-- `VM_STAT_*` -/
inductive VmStat where
  | offline
  | online
  | suspend
  | reboot
deriving DecidableEq, Repr

/-- A VM on a machine: its number, the pid of the task of each vcpu, and the hardware. -/
structure VmConfig where
  sched : Config
  chip : Chip
  vmid : ℕ
  vcpuNr : ℕ
  pid : ℕ → ℕ
  pid_inj : ∀ v < vcpuNr, ∀ w < vcpuNr, pid v = pid w → v = w

/-- The cpus with the interrupts and the state of the VM. -/
structure VmMachine where
  cpus : Cpus
  vgic : Vgic ℕ
  state : VmStat

section Model

variable (V : VmConfig)

/-- `vcpu->task` -/
def VmConfig.task (v : ℕ) : Task := .pcpu (V.pid v)

/-- `get_vcpu_in_vm` -/
def getVcpuInVm (v : ℕ) : Option ℕ := if V.vcpuNr ≤ v then none else some v

/-- `get_current_vcpu` on the cpu `c`, if this is a vcpu of the VM -/
def getCurrentVcpu (s : VmMachine) (c : ℕ) : Option ℕ :=
  (List.range V.vcpuNr).find? fun v => s.cpus.current c = V.task v

/-! ### The state of a vcpu -/

/-- `set_vcpu_ready` -/
def setVcpuReady (s : VmMachine) (c v : ℕ) : VmMachine :=
  { s with cpus := setTaskReady V.sched (s.cpus.setStat (V.task v) TASK_STAT_RDY) c (V.task v) }

/-- `set_vcpu_stop` -/
def setVcpuStop (s : VmMachine) (c v : ℕ) : VmMachine :=
  { s with cpus := setTaskSleep V.sched (s.cpus.setStat (V.task v) TASK_STAT_STOPPED) c (V.task v) }

/-- `vcpu_online` -/
def vcpuOnline (s : VmMachine) (c v : ℕ) : VmMachine := setVcpuReady V s c v

/-- `kick_vcpu` -/
def kickVcpu (s : VmMachine) (c v : ℕ) : VmMachine :=
  { s with cpus := wakeTask V.sched s.cpus c (V.task v) }

/-- `vcpu_power_on` -/
def vcpuPowerOn (s : VmMachine) (c cpuid : ℕ) : ℤ × VmMachine :=
  match getVcpuInVm V cpuid with
  | none => (-ENOENT, s)
  | some v =>
    if s.cpus.stat (V.task v) = TASK_STAT_STOPPED then (0, vcpuOnline V s c v) else (-EINVAL, s)

/-- `vcpu_has_irq` -/
def vcpuHasIrq (s : VmMachine) (v : ℕ) : Bool :=
  !((s.vgic.structs v).pendingList.isEmpty && (s.vgic.structs v).activeList.isEmpty)

/-- `vcpu_can_idle` -/
def vcpuCanIdle (s : VmMachine) (v : ℕ) : Bool :=
  !vcpuHasIrq s v && s.cpus.stat (V.task v) = TASK_STAT_RUNNING

/-- `vcpu_idle` of the vcpu, up to the call of `sched` -/
def vcpuIdle (s : VmMachine) (c v : ℕ) : VmMachine :=
  if vcpuCanIdle V s v then
    { s with
      cpus := setTaskSleep V.sched (s.cpus.setStat (V.task v) TASK_STAT_SUSPEND) c (V.task v) }
  else s

/-! ### Sending interrupts -/

/-- `send_virq` on the cpu `c`, while the vcpu `src` is current -/
def sendVirq (s : VmMachine) (c v : ℕ) (d : VirqRef ℕ) (src : ℕ) : ℤ × VmMachine :=
  if s.state = .offline ∨ s.state = .reboot then (-EINVAL, s)
  else if s.state = .suspend ∧ !(s.vgic.descs d).canWakeup then (-EAGAIN, s)
  else (0, kickVcpu V { s with vgic := Virq.sendVirq v d src s.vgic } c v)

/-- `send_virq_to_vcpu`, whose callers pass interrupts that have a descriptor -/
def sendVirqToVcpu (s : VmMachine) (c v virq src : ℕ) : ℤ × VmMachine :=
  match getVirqDesc V.chip v virq with
  | none => (-ENOENT, s)
  | some d => sendVirq V s c v d src

/-- `send_virq_to_vm` -/
def sendVirqToVm (s : VmMachine) (c virq src : ℕ) : ℤ × VmMachine :=
  if virq < VM_LOCAL_VIRQ_NR then (-EINVAL, s)
  else
    match getVirqDesc V.chip 0 virq with
    | none => (-ENOENT, s)
    | some d =>
      if (s.vgic.descs d).hw then (-EPERM, s)
      else
        match getVcpuInVm V (s.vgic.descs d).vcpuId with
        | none => (-ENOENT, s)
        | some v => sendVirq V s c v d src

/-- The vcpu for which `guest_irq_handler` takes a hardware interrupt, as far as it is one of this
VM. -/
def guestIrqVcpu (s : VmMachine) (c : ℕ) (d : VirqRef ℕ) : Option ℕ :=
  let desc := s.vgic.descs d
  if desc.vmid = VIRQ_AFFINITY_VM_ANY ∧ desc.vcpuId = VIRQ_AFFINITY_VCPU_ANY then
    getCurrentVcpu V s c
  else if desc.vmid = V.vmid then getVcpuInVm V desc.vcpuId
  else none

/-- `guest_irq_handler` -/
def guestIrqHandler (s : VmMachine) (c : ℕ) (d : VirqRef ℕ) (src : ℕ) : ℤ × VmMachine :=
  if !(s.vgic.descs d).hw then (-EINVAL, s)
  else
    match guestIrqVcpu V s c d with
    | none => (-ENOENT, s)
    | some v => sendVirq V s c v d src

/-- The body of the loop of `send_vsgi`, for the bit `cpu` of the mask -/
def sendVsgi (s : VmMachine) (c sgi cpu src : ℕ) : ℤ × VmMachine :=
  match getVcpuInVm V cpu with
  | none => (0, s)
  | some v => sendVirqToVcpu V s c v sgi src

/-! ### Runs -/

/-- What a guest and the machine do while the VM is online. The first number is the cpu on which it
happens, the last one of a send the vcpu that is current there. -/
inductive VmEvent where
  /-- the guest writes to the SGI register, one step for each vcpu of the mask -/
  | sgi (c sgi cpu src : ℕ)
  /-- a timer of the vcpu -/
  | timer (c v virq src : ℕ)
  /-- a mailbox, the backend of a device, or VM0 -/
  | inject (c virq src : ℕ)
  /-- an interrupt of the hardware -/
  | hwIrq (c : ℕ) (d : VirqRef ℕ) (src : ℕ)
  /-- `PSCI_0_2_FN_CPU_ON` -/
  | cpuOn (c cpuid : ℕ)
  /-- `PSCI_0_2_FN_CPU_OFF`, up to the call of `sched` -/
  | cpuOff (c : ℕ)
  /-- `wfi`, or `PSCI_0_2_FN64_CPU_SUSPEND` -/
  | idle (c : ℕ)
  /-- `vcpu_init` of the os of the VM -/
  | vcpuInit (c v : ℕ)
  | enter (v : ℕ)
  | exit (v : ℕ)
  | hardware (v : ℕ) (states : ℕ → VirqState)
  /-- the scheduler, and tasks that are not vcpus of the VM -/
  | host (e : CpuEvent)

/-- The task is the task of a vcpu. -/
def VmConfig.isVcpu (t : Task) : Bool := (List.range V.vcpuNr).any fun v => t = V.task v

/-- The cpu that executes the event, if it is one. -/
def VmEvent.cpu : VmEvent → Option ℕ
  | .sgi c _ _ _ => some c
  | .timer c _ _ _ => some c
  | .inject c _ _ => some c
  | .hwIrq c _ _ => some c
  | .cpuOn c _ => some c
  | .cpuOff c => some c
  | .idle c => some c
  | .vcpuInit c _ => some c
  | _ => none

/-- The cpu is in `smp_function_call` and waits. -/
def Blocked (s : VmMachine) (e : VmEvent) : Prop :=
  ∃ c ∈ e.cpu, (s.cpus.sending c).isSome

instance (s : VmMachine) (e : VmEvent) : Decidable (Blocked s e) :=
  inferInstanceAs (Decidable (∃ c ∈ e.cpu, (s.cpus.sending c).isSome))

/-- The vcpu puts itself to sleep, and it is woken by an interrupt, so that other tasks do neither.
-/
def hostStep (s : VmMachine) : CpuEvent → VmMachine
  | .sleep c stat =>
    if V.isVcpu (s.cpus.current c) then s
    else { s with cpus := cpuStep V.sched s.cpus (.sleep c stat) }
  | .wake c t =>
    if V.isVcpu t then s else { s with cpus := cpuStep V.sched s.cpus (.wake c t) }
  | e => { s with cpus := cpuStep V.sched s.cpus e }

/-- An event of a cpu that does not wait. -/
def vmAct (s : VmMachine) : VmEvent → VmMachine
  | .sgi c sgi cpu src => (sendVsgi V s c sgi cpu src).2
  | .timer c v virq src =>
    match getVcpuInVm V v with
    | none => s
    | some v => (sendVirqToVcpu V s c v virq src).2
  | .inject c virq src => (sendVirqToVm V s c virq src).2
  | .hwIrq c d src => (guestIrqHandler V s c d src).2
  | .cpuOn c cpuid => (vcpuPowerOn V s c cpuid).2
  | .cpuOff c =>
    match getCurrentVcpu V s c with
    | none => s
    | some v => setVcpuStop V s c v
  | .idle c =>
    match getCurrentVcpu V s c with
    | none => s
    | some v => vcpuIdle V s c v
  | .vcpuInit c v =>
    match getVcpuInVm V v with
    | none => s
    | some v => vcpuOnline V s c v
  | .enter v => { s with vgic := vgicIrqEnterToGuest V.chip v s.vgic }
  | .exit v => { s with vgic := vgicIrqExitFromGuest V.chip v s.vgic }
  | .hardware v states => { s with vgic := Virq.step V.chip s.vgic (.hardware v states) }
  | .host e => hostStep V s e

def vmStep (s : VmMachine) (e : VmEvent) : VmMachine := if Blocked s e then s else vmAct V s e

/-- The vcpu that an event looks up to send an interrupt to it. -/
def lookupTarget (s : VmMachine) : VmEvent → Option ℕ
  | .sgi _ sgi cpu _ => (getVcpuInVm V cpu).filter fun v => (getVirqDesc V.chip v sgi).isSome
  | .timer _ v virq _ => (getVcpuInVm V v).filter fun v => (getVirqDesc V.chip v virq).isSome
  | .inject _ virq _ =>
    if virq < VM_LOCAL_VIRQ_NR then none
    else (getVirqDesc V.chip 0 virq).bind fun d =>
      if (s.vgic.descs d).hw then none else getVcpuInVm V (s.vgic.descs d).vcpuId
  | .hwIrq c d _ => if (s.vgic.descs d).hw then guestIrqVcpu V s c d else none
  | _ => none

/-- The vcpu to which the event sends an interrupt. -/
def sendTarget (s : VmMachine) (e : VmEvent) : Option ℕ :=
  if Blocked s e then none else lookupTarget V s e

/-- The vcpu is turned off. -/
def PoweredOff (s : VmMachine) (v : ℕ) : Prop := s.cpus.stat (V.task v) = TASK_STAT_STOPPED

instance (s : VmMachine) (v : ℕ) : Decidable (PoweredOff V s v) :=
  inferInstanceAs (Decidable (_ = _))

/-- The event turns the vcpu on: `vcpu_power_on` or `vcpu_init`. -/
def VmEvent.PowersOn (e : VmEvent) (v : ℕ) : Prop :=
  (∃ c, e = .cpuOn c v) ∨ ∃ c, e = .vcpuInit c v

/-- A vcpu that is off stays off, unless the event turns it on. -/
def StaysOff (s : VmMachine) (e : VmEvent) : Prop :=
  ∀ v < V.vcpuNr, PoweredOff V s v → PoweredOff V (vmStep V s e) v ∨ e.PowersOn v

end Model

variable {V : VmConfig} {s : VmMachine} {e : VmEvent}

/-! ### What an event does to the cpus -/

lemma getVcpuInVm_eq_some {v w : ℕ} : getVcpuInVm V v = some w ↔ v < V.vcpuNr ∧ v = w := by
  rw [getVcpuInVm]
  split_ifs with h
  · simp [h]
  · simp [not_le.1 h]

lemma getCurrentVcpu_eq_some {c v : ℕ} (h : getCurrentVcpu V s c = some v) :
    v < V.vcpuNr ∧ s.cpus.current c = V.task v := by
  rw [getCurrentVcpu] at h
  have hp := List.find?_some h
  have hmem := List.mem_of_find?_eq_some h
  exact ⟨List.mem_range.1 hmem, by simpa using hp⟩

lemma sendVirq_online (hs : s.state = .online) (c v : ℕ) (d : VirqRef ℕ) (src : ℕ) :
    (sendVirq V s c v d src).2.cpus = wakeTask V.sched s.cpus c (V.task v) ∧
    (sendVirq V s c v d src).2.state = .online := by
  rw [sendVirq, if_neg (by simp [hs]), if_neg (by simp [hs])]
  exact ⟨rfl, hs⟩

/-- The cpus after an event. -/
inductive CpusAfter (V : VmConfig) (s : VmMachine) (e : VmEvent) : Cpus → Prop where
  | same (hsend : sendTarget V s e = none) : CpusAfter V s e s.cpus
  | send (c v : ℕ) (hv : v < V.vcpuNr) (hsend : sendTarget V s e = some v) (hon : ¬ e.PowersOn v) :
    CpusAfter V s e (wakeTask V.sched s.cpus c (V.task v))
  | online (c v : ℕ) (hv : v < V.vcpuNr) (hsend : sendTarget V s e = none) (hon : e.PowersOn v) :
    CpusAfter V s e (setTaskReady V.sched (s.cpus.setStat (V.task v) TASK_STAT_RDY) c (V.task v))
  | sleep (c v stat : ℕ) (hv : v < V.vcpuNr) (hsend : sendTarget V s e = none)
    (hcur : s.cpus.current c = V.task v)
    (hstat : stat = TASK_STAT_STOPPED ∨ s.cpus.stat (V.task v) = TASK_STAT_RUNNING) :
    CpusAfter V s e (setTaskSleep V.sched (s.cpus.setStat (V.task v) stat) c (V.task v))
  | host (ce : CpuEvent) (hsend : sendTarget V s e = none)
    (hsleep : ∀ c stat, ce = .sleep c stat → ¬ V.isVcpu (s.cpus.current c))
    (hwake : ∀ c t, ce = .wake c t → ¬ V.isVcpu t) :
    CpusAfter V s e (cpuStep V.sched s.cpus ce)

/-- The vcpu has the interrupt, and the interrupt is sent to it. -/
lemma sendVirqToVcpu_after (hs : s.state = .online) {c v virq src : ℕ} (hv : v < V.vcpuNr)
    (hsend : sendTarget V s e = (some v).filter fun v => (getVirqDesc V.chip v virq).isSome)
    (hon : ¬ e.PowersOn v) : CpusAfter V s e (sendVirqToVcpu V s c v virq src).2.cpus ∧
    (sendVirqToVcpu V s c v virq src).2.state = .online := by
  rw [sendVirqToVcpu]
  cases hd : getVirqDesc V.chip v virq with
  | none => exact ⟨.same (by simp [hsend, hd]), hs⟩
  | some d =>
    obtain ⟨hcpus, hstate⟩ := sendVirq_online (V := V) hs c v d src
    refine ⟨?_, hstate⟩
    dsimp only
    rw [hcpus]
    exact .send c v hv (by simp [hsend, hd]) hon

lemma hostStep_after (hs : s.state = .online) (ce : CpuEvent)
    (hsend : sendTarget V s (.host ce) = none) :
    CpusAfter V s (.host ce) (hostStep V s ce).cpus ∧ (hostStep V s ce).state = .online := by
  cases ce with
  | sleep c stat =>
    rw [hostStep]
    split_ifs with hv
    · exact ⟨.same hsend, hs⟩
    · refine ⟨.host (.sleep c stat) hsend ?_ (by simp), hs⟩
      rintro c' stat' heq
      cases heq
      exact hv
  | wake c t =>
    rw [hostStep]
    split_ifs with hv
    · exact ⟨.same hsend, hs⟩
    · refine ⟨.host (.wake c t) hsend (by simp) ?_, hs⟩
      rintro c' t' heq
      cases heq
      exact hv
  | post c => exact ⟨.host (.post c) hsend (by simp) (by simp), hs⟩
  | callIpi c a => exact ⟨.host (.callIpi c a) hsend (by simp) (by simp), hs⟩
  | reschedIpi c => exact ⟨.host (.reschedIpi c) hsend (by simp) (by simp), hs⟩
  | tick c => exact ⟨.host (.tick c) hsend (by simp) (by simp), hs⟩
  | irqReturn c p => exact ⟨.host (.irqReturn c p) hsend (by simp) (by simp), hs⟩
  | sched c => exact ⟨.host (.sched c) hsend (by simp) (by simp), hs⟩

/-- What an event can do while the VM is online. -/
lemma vmStep_after (hs : s.state = .online) (e : VmEvent) :
    CpusAfter V s e (vmStep V s e).cpus ∧ (vmStep V s e).state = .online := by
  rw [vmStep]
  split_ifs with hb
  · exact ⟨.same (by simp [sendTarget, hb]), hs⟩
  · cases e with
    | sgi c sgi cpu src =>
      have hsend : sendTarget V s (.sgi c sgi cpu src) = lookupTarget V s _ := if_neg hb
      rw [lookupTarget] at hsend
      simp only [vmAct, sendVsgi]
      cases hv : getVcpuInVm V cpu with
      | none => exact ⟨.same (by simp [hsend, hv]), hs⟩
      | some v =>
        rw [hv] at hsend
        obtain ⟨hlt, rfl⟩ := getVcpuInVm_eq_some.1 hv
        exact sendVirqToVcpu_after hs hlt hsend (by simp [VmEvent.PowersOn])
    | timer c v virq src =>
      have hsend : sendTarget V s (.timer c v virq src) = lookupTarget V s _ := if_neg hb
      rw [lookupTarget] at hsend
      simp only [vmAct]
      cases hv : getVcpuInVm V v with
      | none => exact ⟨.same (by simp [hsend, hv]), hs⟩
      | some w =>
        rw [hv] at hsend
        obtain ⟨hlt, rfl⟩ := getVcpuInVm_eq_some.1 hv
        exact sendVirqToVcpu_after hs hlt hsend (by simp [VmEvent.PowersOn])
    | inject c virq src =>
      have hsend : sendTarget V s (.inject c virq src) = lookupTarget V s _ := if_neg hb
      rw [lookupTarget] at hsend
      simp only [vmAct, sendVirqToVm]
      split_ifs with hlocal
      · exact ⟨.same (by simp [hsend, hlocal]), hs⟩
      · cases hd : getVirqDesc V.chip 0 virq with
        | none => exact ⟨.same (by simp [hsend, hd]), hs⟩
        | some d =>
          simp only [hlocal, hd, if_false, Option.bind_some] at hsend ⊢
          split_ifs at hsend ⊢ with hhw
          · exact ⟨.same hsend, hs⟩
          · cases hv : getVcpuInVm V (s.vgic.descs d).vcpuId with
            | none => exact ⟨.same (hsend.trans hv), hs⟩
            | some v =>
              obtain ⟨hcpus, hstate⟩ := sendVirq_online (V := V) hs c v d src
              obtain ⟨hlt, hvv⟩ := getVcpuInVm_eq_some.1 hv
              refine ⟨?_, hstate⟩
              dsimp only
              rw [hcpus]
              exact .send c v (hvv ▸ hlt) (hsend.trans hv) (by simp [VmEvent.PowersOn])
    | hwIrq c d src =>
      have hsend : sendTarget V s (.hwIrq c d src) = lookupTarget V s _ := if_neg hb
      rw [lookupTarget] at hsend
      simp only [vmAct, guestIrqHandler]
      split_ifs with hhw
      · exact ⟨.same (by simp_all), hs⟩
      · cases hv : guestIrqVcpu V s c d with
        | none => exact ⟨.same (by simp [hsend, hv]), hs⟩
        | some v =>
          have hlt : v < V.vcpuNr := by
            rw [guestIrqVcpu] at hv
            split_ifs at hv
            · exact (getCurrentVcpu_eq_some hv).1
            · obtain ⟨hlt, hvv⟩ := getVcpuInVm_eq_some.1 hv
              exact hvv ▸ hlt
          obtain ⟨hcpus, hstate⟩ := sendVirq_online (V := V) hs c v d src
          refine ⟨?_, hstate⟩
          dsimp only
          rw [hcpus]
          exact .send c v hlt (by simp_all) (by simp [VmEvent.PowersOn])
    | cpuOn c cpuid =>
      have hsend : sendTarget V s (.cpuOn c cpuid) = none := if_neg hb
      simp only [vmAct, vcpuPowerOn]
      cases hv : getVcpuInVm V cpuid with
      | none => exact ⟨.same hsend, hs⟩
      | some v =>
        obtain ⟨hlt, rfl⟩ := getVcpuInVm_eq_some.1 hv
        dsimp only
        split_ifs
        · exact ⟨.online c cpuid hlt hsend (.inl ⟨c, rfl⟩), hs⟩
        · exact ⟨.same hsend, hs⟩
    | cpuOff c =>
      have hsend : sendTarget V s (.cpuOff c) = none := if_neg hb
      simp only [vmAct]
      cases hv : getCurrentVcpu V s c with
      | none => exact ⟨.same hsend, hs⟩
      | some v =>
        obtain ⟨hlt, hcur⟩ := getCurrentVcpu_eq_some hv
        exact ⟨.sleep c v TASK_STAT_STOPPED hlt hsend hcur (.inl rfl), hs⟩
    | idle c =>
      have hsend : sendTarget V s (.idle c) = none := if_neg hb
      simp only [vmAct]
      cases hv : getCurrentVcpu V s c with
      | none => exact ⟨.same hsend, hs⟩
      | some v =>
        obtain ⟨hlt, hcur⟩ := getCurrentVcpu_eq_some hv
        simp only [vcpuIdle]
        split_ifs with hidle
        · refine ⟨.sleep c v TASK_STAT_SUSPEND hlt hsend hcur (.inr ?_), hs⟩
          simp only [vcpuCanIdle, Bool.and_eq_true, decide_eq_true_eq] at hidle
          exact hidle.2
        · exact ⟨.same hsend, hs⟩
    | vcpuInit c v =>
      have hsend : sendTarget V s (.vcpuInit c v) = none := if_neg hb
      simp only [vmAct]
      cases hv : getVcpuInVm V v with
      | none => exact ⟨.same hsend, hs⟩
      | some w =>
        obtain ⟨hlt, rfl⟩ := getVcpuInVm_eq_some.1 hv
        exact ⟨.online c v hlt hsend (.inr ⟨c, rfl⟩), hs⟩
    | enter v => exact ⟨.same (if_neg hb), hs⟩
    | exit v => exact ⟨.same (if_neg hb), hs⟩
    | hardware v states => exact ⟨.same (if_neg hb), hs⟩
    | host ce => exact hostStep_after hs ce (if_neg hb)

/-! ### Runs -/

lemma CpusAfter.onLists {cs : Cpus} (ha : CpusAfter V s e cs) (h : OnLists V.sched s.cpus) :
    OnLists V.sched cs := by
  cases ha with
  | same => exact h
  | send c v => exact wakeTask_onLists h _
  | online c v => exact setTaskReady_onLists h c _
  | sleep c v stat _ _ hcur => exact setTaskSleep_onLists h (h.affine c _ hcur) stat
  | host ce => exact cpuStep_onLists h ce

lemma VmConfig.task_ne {v w : ℕ} (hv : v < V.vcpuNr) (hw : w < V.vcpuNr) (hne : v ≠ w) :
    V.task v ≠ V.task w :=
  fun heq => hne (V.pid_inj v hv w hw (Task.pcpu.inj heq))

lemma VmConfig.isVcpu_task {v : ℕ} (hv : v < V.vcpuNr) : V.isVcpu (V.task v) = true := by
  simp only [VmConfig.isVcpu, List.any_eq_true, List.mem_range, decide_eq_true_eq]
  exact ⟨v, hv, rfl⟩

lemma PoweredOff.not_ready {v : ℕ} (h : PoweredOff V s v) : ¬ s.cpus.taskIsReady (V.task v) := by
  rw [PoweredOff] at h
  simp [Cpus.taskIsReady, h, TASK_STAT_STOPPED, TASK_STAT_RDY, TASK_STAT_RUNNING]

/-- One event: vcpus that are off stay off exactly if no interrupt is sent to one of them. -/
lemma staysOff_iff (hs : s.state = .online) (h : OnLists V.sched s.cpus) :
    StaysOff V s e ↔ ∀ v ∈ sendTarget V s e, ¬ PoweredOff V s v := by
  have ha := (vmStep_after (V := V) hs e).1
  simp only [StaysOff, PoweredOff]
  generalize (vmStep V s e).cpus = cs at ha
  cases ha with
  | same hsend => exact iff_of_true (fun v _ hoff => .inl hoff) (by simp [hsend])
  | send c w hw hsend hon =>
    have hstat := wakeTask_stat (C := V.sched) s.cpus c (V.task w)
    constructor
    · intro hstay v hv hoff
      obtain rfl : w = v := Option.some.inj (hsend.symm.trans hv)
      rw [if_neg (PoweredOff.not_ready hoff)] at hstat
      rcases hstay w hw hoff with hoff' | hpow
      · rw [hstat, Function.update_self] at hoff'
        cases hoff'
      · exact hon hpow
    · intro hnot v hv hoff
      have hne : V.task v ≠ V.task w := VmConfig.task_ne hv hw fun heq =>
        hnot w hsend (heq ▸ hoff)
      left
      rw [hstat]
      split_ifs
      · exact hoff
      · rwa [Function.update_of_ne hne]
  | online c w hw hsend hon =>
    refine iff_of_true (fun v hv hoff => ?_) (by simp [hsend])
    by_cases hvw : v = w
    · exact .inr (hvw ▸ hon)
    · left
      rwa [setTaskReady_stat, Cpus.setStat_of_ne (VmConfig.task_ne hv hw hvw)]
  | sleep c w stat hw hsend hcur hstat =>
    refine iff_of_true (fun v hv hoff => .inl ?_) (by simp [hsend])
    rw [setTaskSleep_stat]
    by_cases hvw : v = w
    · subst hvw
      rcases hstat with rfl | hrun
      · exact Function.update_self _ _ _
      · exact absurd (.inr hrun) (PoweredOff.not_ready hoff)
    · rwa [Cpus.setStat_of_ne (VmConfig.task_ne hv hw hvw)]
  | host ce hsend hsleep hwake =>
    refine iff_of_true (fun v hv hoff => .inl ?_) (by simp [hsend])
    rw [← hoff]
    refine cpuStep_stat h (PoweredOff.not_ready hoff) (fun c stat heq hcur => ?_)
      (fun c t heq ht => ?_)
    · exact hsleep c stat heq (by rw [show s.cpus.current c = V.task v from hcur, V.isVcpu_task hv])
    · exact hwake c t heq (by rw [show t = V.task v from ht, V.isVcpu_task hv])

/-- In a run of a VM that is online, vcpus that are off stay off until they are turned on, exactly
if no interrupt is sent to a vcpu that is off. -/
theorem powered_off_stays_off_iff (V : VmConfig) (s : VmMachine) (hboot : Booted V.sched s.cpus)
    (hs : s.state = .online) (es : List VmEvent) :
    Along (vmStep V) (StaysOff V) s es ↔
      Along (vmStep V) (fun s e => ∀ v ∈ sendTarget V s e, ¬ PoweredOff V s v) s es := by
  refine along_congr_inv (I := fun s => s.state = .online ∧ OnLists V.sched s.cpus)
    (fun s e h => ?_) (fun s e h => staysOff_iff h.1 h.2) ⟨hs, hboot.awake.onLists⟩
  obtain ⟨hafter, hstate⟩ := vmStep_after (V := V) h.1 e
  exact ⟨hstate, hafter.onLists h.2⟩

lemma four_lrs_pos : 0 < 4 := by decide

lemma four_lrs_le : 4 ≤ MAX_NR_LRS := by decide

/-- A VM with two vcpus, each on a cpu of its own. -/
def twoVcpus : VmConfig where
  sched := ⟨2, fun _ => .global, id⟩
  chip := ⟨.v2, 4, 32, four_lrs_pos, four_lrs_le⟩
  vmid := 1
  vcpuNr := 2
  pid := id
  pid_inj _ _ _ _ h := h

/-- The first vcpu is ready, the second was not turned on yet. -/
def bootedVm : VmMachine where
  cpus :=
    { State.init with
      readyList := fun c => if c = 0 then [0] else []
      stat := fun t => if t = .pcpu 0 then TASK_STAT_RDY
        else if t = .pcpu 1 then TASK_STAT_STOPPED else TASK_STAT_RUNNING
      needResched := fun _ => false
      sleepList := fun c => if c = 1 then [1] else []
      newList := fun _ => []
      calls := fun _ _ => none
      sending := fun _ => none
      resched := fun _ => true }
  vgic := Vgic.init ℕ fun _ => none
  state := .online

lemma bootedVm_booted : Booted twoVcpus.sched bootedVm.cpus where
  idle _ := rfl
  resched _ := rfl
  calls _ _ := rfl
  readyAffine c pid hpid := by
    by_cases hc : c = 0
    · simpa [bootedVm, hc, twoVcpus] using hpid
    · simp [bootedVm, hc] at hpid
  newAffine c pid hpid := by simp [bootedVm] at hpid
  apart c d pid hpid := by simp [bootedVm] at hpid
  ready c pid hpid := by
    by_cases hc : c = 0
    · have hp : pid = 0 := by simpa [bootedVm, hc] using hpid
      rw [hp]
      rfl
    · simp [bootedVm, hc] at hpid

/-- The first vcpu runs, turns the second on, and sends an interrupt to it. -/
theorem powered_off_stays_off_iff_power_on :
    let es : List VmEvent := [.host (.reschedIpi 0), .host (.irqReturn 0 0), .cpuOn 0 1,
      .host (.post 0), .host (.callIpi 1 0), .sgi 0 1 1 0]
    Along (vmStep twoVcpus) (StaysOff twoVcpus) bootedVm es := by
  intro es
  refine (powered_off_stays_off_iff twoVcpus bootedVm bootedVm_booted rfl es).2 ?_
  decide +kernel

/-- The first vcpu runs and sends an SGI to the second, which it did not turn on: the task of the
second vcpu becomes ready. -/
theorem powered_off_made_ready_by_sgi :
    let es : List VmEvent := [.host (.reschedIpi 0), .host (.irqReturn 0 0), .sgi 0 1 1 0]
    bootedVm.state = .online ∧ Booted twoVcpus.sched bootedVm.cpus ∧
    PoweredOff twoVcpus bootedVm 1 ∧
    (exec (vmStep twoVcpus) bootedVm es).cpus.stat (twoVcpus.task 1) = TASK_STAT_RDY ∧
    ¬ Along (vmStep twoVcpus) (StaysOff twoVcpus) bootedVm es := by
  refine ⟨rfl, bootedVm_booted, rfl, by decide +kernel, fun h => ?_⟩
  obtain ⟨-, -, hsgi, -⟩ := h
  rcases hsgi 1 (by decide) (by decide +kernel) with hoff | ⟨c, hc⟩ | ⟨c, hc⟩
  · exact absurd hoff (by decide +kernel)
  · cases hc
  · cases hc

end Minos.Virt
