import Mathlib
import Minos.Lib.Run
import Minos.Types

/-!
# Traps to the process behind a virtual machine

A vcpu asks its process in VM0 for something through a mailbox, its `struct vmcs`: it writes the
request, counts `host_index` up and sends an interrupt to VM0, which wakes up the event thread of
the vcpu. The thread handles the request, writes the answer and counts `guest_index` up. There is no
lock: the vcpu writes while the indices are equal, the thread while they are not.

`vm_vcpus_init` sets both indices to zero whatever the two are doing, and the interrupts of the
hypervisor are enabled during a trap, so that an interrupt handler can make another one for the same
vcpu.
-/

namespace Minos.Virt

open Run

def VMTRAP_TYPE_UNKNOWN : ℕ := 2
def VMTRAP_REASON_UNKNOWN : ℕ := 9

/-- The arguments of `__vcpu_trap`, with zero for the value of a `result` that is `NULL`. -/
structure TrapReq where
  type : ℕ
  reason : ℕ
  data : ℕ
  result : ℕ
deriving DecidableEq, Repr

/-- `struct vmcs`. The last field is not in the source: the number of the request in the mailbox. -/
structure Vmcs where
  req : TrapReq
  trapRet : ℤ
  trapResult : ℕ
  hostIndex : BitVec 64
  guestIndex : BitVec 64
  id : ℕ
deriving DecidableEq, Repr

/-- The places of `__vcpu_trap`: it waits for the last request, writes its own, counts up, sends the
interrupt and waits for the answer. -/
inductive TrapPc where
  | enter
  | write
  | post
  | send
  | wait
deriving DecidableEq, Repr

/-- A call of `__vcpu_trap`. -/
structure TrapCall where
  req : TrapReq
  nonblock : Bool
  pc : TrapPc
  id : ℕ
deriving DecidableEq, Repr

/-- The places of `vm_vcpu_thread`, with what it has in its variables. -/
inductive EventPc where
  | idle
  | fetch
  | handle (id : ℕ) (req : TrapReq)
  | store (id : ℕ) (ret : ℤ) (result : ℕ)
  | ack
deriving DecidableEq, Repr

/-- What happened to the requests. It is not in the source. -/
inductive TrapAct where
  | posted (id : ℕ)
  /-- the interrupt could not be sent -/
  | cancelled (id : ℕ)
  | handled (id : ℕ) (ret : ℤ) (result : ℕ)
  | acked (id : ℕ)
  /-- a blocking `__vcpu_trap` returned -/
  | returned (id : ℕ) (ret : ℤ) (result : ℕ)
deriving DecidableEq, Repr

/-- One vcpu with its mailbox, its interrupt and its event thread. -/
structure VmcsSystem where
  vmcs : Vmcs
  /-- The calls in progress, the innermost first. -/
  calls : List TrapCall
  /-- The interrupt is on its way to VM0. -/
  virq : Bool
  eventfd : ℕ
  thread : EventPc
  /-- `vm_vcpus_init` is between its two stores. -/
  resetting : Bool
  next : ℕ
  log : List TrapAct
deriving DecidableEq, Repr

inductive VmcsEvent where
  | trap (req : TrapReq) (nonblock : Bool)
  /-- the innermost call goes on; `sent` says whether `send_virq_to_vm` succeeds -/
  | vcpu (sent : Bool)
  /-- VM0 takes the interrupt and signals the event -/
  | deliver
  /-- the event thread goes on; the values are what the handler computes -/
  | thread (ret : ℤ) (result : ℕ)
  /-- `vcpu_power_off` and `vcpu_reset`: the calls are gone -/
  | powerOff
  /-- the two stores of `vm_vcpus_init` -/
  | resetHost
  | resetGuest
deriving DecidableEq, Repr

namespace VmcsSystem

/-- `vm_create_vmcs` -/
def init : VmcsSystem :=
  ⟨⟨⟨0, 0, 0, 0⟩, 0, 0, 0, 0, 0⟩, [], false, 0, .idle, false, 1, []⟩

/-- The step of `__vcpu_trap` in the call `f`, with the calls around it. `samePcpu` says that the
vcpu has the pcpu of the first vcpu of VM0, which makes every trap a blocking one. -/
def vcpuTrap (samePcpu sent : Bool) (s : VmcsSystem) (f : TrapCall) (rest : List TrapCall) :
    VmcsSystem :=
  match f.pc with
  | .enter =>
    if s.vmcs.guestIndex ≠ s.vmcs.hostIndex then s
    else { s with calls := { f with pc := .write } :: rest }
  | .write => { s with
      vmcs := { s.vmcs with req := f.req, trapRet := 0, trapResult := f.req.result, id := s.next }
      calls := { f with pc := .post, id := s.next } :: rest
      next := s.next + 1 }
  | .post => { s with
      vmcs := { s.vmcs with hostIndex := s.vmcs.hostIndex + 1 }
      calls := { f with pc := .send } :: rest
      log := .posted f.id :: s.log }
  | .send =>
    if sent then { s with
      virq := true
      calls := if f.nonblock && !samePcpu then rest else { f with pc := .wait } :: rest }
    else { s with
      vmcs := { s.vmcs with
        hostIndex := s.vmcs.hostIndex - 1
        trapRet := -EPERM
        trapResult := 0 }
      calls := rest
      log := .cancelled f.id :: s.log }
  | .wait =>
    if s.vmcs.guestIndex ≠ s.vmcs.hostIndex then s
    else { s with
      calls := rest
      log := .returned f.id s.vmcs.trapRet s.vmcs.trapResult :: s.log }

/-- `vmcs_ack` -/
def vmcsAck (s : VmcsSystem) : VmcsSystem :=
  if s.vmcs.guestIndex = s.vmcs.hostIndex then s
  else { s with
    vmcs := { s.vmcs with guestIndex := s.vmcs.guestIndex + 1 }
    log := .acked s.vmcs.id :: s.log }

/-- A step of `vm_vcpu_thread` and `handle_vcpu_event`. -/
def vmVcpuThread (ret : ℤ) (result : ℕ) (s : VmcsSystem) : VmcsSystem :=
  match s.thread with
  | .idle => if s.eventfd = 0 then s else { s with eventfd := 0, thread := .fetch }
  | .fetch => { s with thread := .handle s.vmcs.id s.vmcs.req }
  | .handle id _ => { s with
      thread := .store id ret result
      log := .handled id ret result :: s.log }
  | .store _ ret result => { s with
      vmcs := { s.vmcs with trapRet := ret, trapResult := result }
      thread := .ack }
  | .ack => { s.vmcsAck with thread := .idle }

def step (samePcpu : Bool) (s : VmcsSystem) : VmcsEvent → VmcsSystem
  | .trap req nonblock =>
    if VMTRAP_TYPE_UNKNOWN ≤ req.type ∨ VMTRAP_REASON_UNKNOWN ≤ req.reason then s
    else { s with calls := ⟨req, nonblock, .enter, 0⟩ :: s.calls }
  | .vcpu sent =>
    match s.calls with
    | [] => s
    | f :: rest => s.vcpuTrap samePcpu sent f rest
  | .deliver => if s.virq then { s with virq := false, eventfd := s.eventfd + 1 } else s
  | .thread ret result => s.vmVcpuThread ret result
  | .powerOff => { s with calls := [] }
  | .resetHost => { s with vmcs := { s.vmcs with hostIndex := 0 }, resetting := true }
  | .resetGuest =>
    if s.resetting then
      { s with vmcs := { s.vmcs with guestIndex := 0 }, resetting := false }
    else s

/-! ### What is asked of the handshake -/

/-- How often the request was handled. -/
def handledCount (log : List TrapAct) (id : ℕ) : ℕ :=
  log.countP fun a => match a with
    | .handled i _ _ => i = id
    | _ => false

/-- The indices are equal or one apart, except between the two stores of a reset; a request that was
acknowledged was handled once, and a blocking trap returns what was computed for it. -/
structure Sound (s : VmcsSystem) : Prop where
  window : s.resetting = false →
    s.vmcs.hostIndex - s.vmcs.guestIndex = 0 ∨ s.vmcs.hostIndex - s.vmcs.guestIndex = 1
  once : ∀ id, .acked id ∈ s.log → handledCount s.log id = 1
  delivered : ∀ id ret result, .returned id ret result ∈ s.log → .handled id ret result ∈ s.log

/-- A step writes a request only if all earlier ones are settled. -/
def NotOverwritten (s : VmcsSystem) : VmcsEvent → Prop
  | .vcpu _ => ∀ f ∈ s.calls.head?, f.pc = .write →
      ∀ id, .posted id ∈ s.log → .acked id ∈ s.log ∨ .cancelled id ∈ s.log
  | _ => True

/-- No interrupt and no event is on its way, and the thread is idle. -/
def Silent (s : VmcsSystem) : Prop := s.virq = false ∧ s.eventfd = 0 ∧ s.thread = .idle

instance (s : VmcsSystem) : Decidable s.Silent := inferInstanceAs (Decidable (_ ∧ _))

/-- The calls in progress still wait for an earlier request. -/
def AllEnter (calls : List TrapCall) : Prop := ∀ f ∈ calls, f.pc = .enter

instance (calls : List TrapCall) : Decidable (AllEnter calls) :=
  inferInstanceAs (Decidable (∀ f ∈ calls, f.pc = .enter))

/-- A trap starts when no other call has got to the mailbox, and a reset when no request is in it or
on its way; the vcpu does not run while the indices are reset. -/
def Orderly (s : VmcsSystem) : VmcsEvent → Prop
  | .trap _ _ => AllEnter s.calls
  | .vcpu _ => s.resetting = false
  | .resetHost => AllEnter s.calls ∧ s.vmcs.hostIndex = s.vmcs.guestIndex ∧ s.Silent ∧
      s.resetting = false
  | _ => True

instance (s : VmcsSystem) : (e : VmcsEvent) → Decidable (s.Orderly e)
  | .trap _ _ => inferInstanceAs (Decidable (AllEnter _))
  | .vcpu _ => inferInstanceAs (Decidable (_ = _))
  | .resetHost => inferInstanceAs (Decidable (_ ∧ _))
  | .deliver => inferInstanceAs (Decidable True)
  | .thread _ _ => inferInstanceAs (Decidable True)
  | .powerOff => inferInstanceAs (Decidable True)
  | .resetGuest => inferInstanceAs (Decidable True)

/-! ### The invariant -/

/-- A request is posted and not acknowledged. -/
def Open (s : VmcsSystem) : Prop :=
  s.resetting = false ∧ s.vmcs.hostIndex = s.vmcs.guestIndex + 1

/-- What the innermost call knows about the mailbox. -/
def CallOk (s : VmcsSystem) (f : TrapCall) : Prop :=
  match f.pc with
  | .enter => True
  | .write => s.vmcs.hostIndex = s.vmcs.guestIndex
  | .post => s.vmcs.hostIndex = s.vmcs.guestIndex ∧ f.id = s.vmcs.id ∧
      handledCount s.log s.vmcs.id = 0
  | .send => s.Open ∧ s.Silent ∧ f.id = s.vmcs.id
  | .wait => f.id = s.vmcs.id ∧ (s.vmcs.hostIndex = s.vmcs.guestIndex →
      .handled f.id s.vmcs.trapRet s.vmcs.trapResult ∈ s.log)

/-- What the thread knows about the mailbox. -/
def ThreadOk (s : VmcsSystem) : Prop :=
  match s.thread with
  | .idle => s.Open → handledCount s.log s.vmcs.id = 0
  | .fetch => handledCount s.log s.vmcs.id = 0
  | .handle id _ => id = s.vmcs.id ∧ handledCount s.log s.vmcs.id = 0
  | .store id ret result => id = s.vmcs.id ∧ handledCount s.log s.vmcs.id = 1 ∧
      .handled s.vmcs.id ret result ∈ s.log
  | .ack => handledCount s.log s.vmcs.id = 1 ∧
      .handled s.vmcs.id s.vmcs.trapRet s.vmcs.trapResult ∈ s.log

/-- The indices, the calls and the signals. At most one signal is on its way, and only for a request
that is open. -/
structure Control (s : VmcsSystem) : Prop where
  inner : AllEnter s.calls.tail
  reset : s.resetting = true → s.Silent ∧ AllEnter s.calls ∧ s.vmcs.hostIndex = 0
  window : s.resetting = false → s.vmcs.hostIndex = s.vmcs.guestIndex ∨ s.Open
  signals : s.virq.toNat + s.eventfd + (if s.thread = .idle then 0 else 1) ≤ 1
  busy : ¬ s.Silent → s.Open

/-- What the log says about the requests. -/
structure Settled (s : VmcsSystem) : Prop where
  fresh : ∀ id, s.next ≤ id → handledCount s.log id = 0
  lt : s.vmcs.id < s.next
  posted : ∀ id, .posted id ∈ s.log →
    .acked id ∈ s.log ∨ .cancelled id ∈ s.log ∨ s.Open ∧ id = s.vmcs.id
  once : ∀ id, .acked id ∈ s.log → handledCount s.log id = 1
  delivered : ∀ id ret result, .returned id ret result ∈ s.log → .handled id ret result ∈ s.log

structure Inv (s : VmcsSystem) : Prop where
  control : s.Control
  call : ∀ f ∈ s.calls.head?, s.CallOk f
  thread : s.ThreadOk
  settled : s.Settled

variable {s : VmcsSystem} {f : TrapCall} {rest : List TrapCall}

lemma not_open_of_eq (h : s.vmcs.hostIndex = s.vmcs.guestIndex) : ¬ s.Open := by
  rintro ⟨-, hopen⟩
  rw [h] at hopen
  bv_omega

lemma Control.silent (h : s.Control) (heq : s.vmcs.hostIndex = s.vmcs.guestIndex) : s.Silent := by
  by_contra hbusy
  exact not_open_of_eq heq (h.busy hbusy)

lemma Inv.sound (h : s.Inv) : s.Sound := by
  refine ⟨fun hr => ?_, h.settled.once, h.settled.delivered⟩
  rcases h.control.window hr with heq | hopen
  · refine Or.inl ?_
    rw [heq]
    exact BitVec.sub_self _
  · refine Or.inr ?_
    rw [hopen.2]
    bv_omega

lemma init_inv : init.Inv where
  control := ⟨by simp [init, AllEnter], by simp [init], fun _ => Or.inl rfl, by decide,
    fun h => absurd (by decide) h⟩
  call f hf := by simp [init] at hf
  thread h := absurd h (not_open_of_eq rfl)
  settled := ⟨fun _ _ => rfl, by decide, by simp [init], by simp [init], by simp [init]⟩

@[simp] lemma handledCount_cons_handled (l : List TrapAct) (i id : ℕ) (ret : ℤ) (result : ℕ) :
    handledCount (.handled i ret result :: l) id = handledCount l id + if i = id then 1 else 0 := by
  simp [handledCount, List.countP_cons]

@[simp] lemma handledCount_cons_posted (l : List TrapAct) (i id : ℕ) :
    handledCount (.posted i :: l) id = handledCount l id := by
  simp [handledCount]

@[simp] lemma handledCount_cons_cancelled (l : List TrapAct) (i id : ℕ) :
    handledCount (.cancelled i :: l) id = handledCount l id := by
  simp [handledCount]

@[simp] lemma handledCount_cons_acked (l : List TrapAct) (i id : ℕ) :
    handledCount (.acked i :: l) id = handledCount l id := by
  simp [handledCount]

@[simp] lemma handledCount_cons_returned (l : List TrapAct) (i id : ℕ) (ret : ℤ) (result : ℕ) :
    handledCount (.returned i ret result :: l) id = handledCount l id := by
  simp [handledCount]

/-- A request that was settled stays settled when the log grows, and so does one that was open as
long as it is open, or if the new entry settles it. -/
lemma Settled.cons {t : VmcsSystem} (h : s.Settled) (a : TrapAct) (hlog : t.log = a :: s.log)
    (hnext : t.next = s.next) (hid : t.vmcs.id = s.vmcs.id)
    (hcount : ∀ id, handledCount (a :: s.log) id = handledCount s.log id)
    (hposted : ∀ id, a = .posted id → t.Open ∧ id = t.vmcs.id)
    (hopen : s.Open → t.Open ∨ a = .acked s.vmcs.id ∨ a = .cancelled s.vmcs.id)
    (hacked : ∀ id, a = .acked id → handledCount s.log id = 1)
    (hret : ∀ id ret result, a = .returned id ret result → .handled id ret result ∈ s.log) :
    t.Settled := by
  refine ⟨fun id hle => ?_, by rw [hid, hnext]; exact h.lt, fun id hmem => ?_, fun id hmem => ?_,
    fun id ret result hmem => ?_⟩
  · rw [hlog, hcount]
    exact h.fresh id (hnext ▸ hle)
  · rw [hlog] at hmem ⊢
    rcases List.mem_cons.1 hmem with heq | hmem
    · exact Or.inr (Or.inr (hposted id heq.symm))
    · rcases h.posted id hmem with hack | hcan | ⟨ho, rfl⟩
      · exact Or.inl (List.mem_cons_of_mem _ hack)
      · exact Or.inr (Or.inl (List.mem_cons_of_mem _ hcan))
      · rcases hopen ho with ht | rfl | rfl
        · exact Or.inr (Or.inr ⟨ht, hid.symm⟩)
        · exact Or.inl List.mem_cons_self
        · exact Or.inr (Or.inl List.mem_cons_self)
  · rw [hlog] at hmem
    rw [hlog, hcount]
    rcases List.mem_cons.1 hmem with heq | hmem
    · exact hacked id heq.symm
    · exact h.once id hmem
  · rw [hlog] at hmem ⊢
    rcases List.mem_cons.1 hmem with heq | hmem
    · exact List.mem_cons_of_mem _ (hret id ret result heq.symm)
    · exact List.mem_cons_of_mem _ (h.delivered id ret result hmem)

/-! ### The steps of the event thread -/

lemma Inv.deliver (h : s.Inv) (b : Bool) : (s.step b .deliver).Inv := by
  obtain ⟨hc, hcall, hthread, hs⟩ := h
  simp only [step]
  split_ifs with hv
  · have hbusy : ¬ s.Silent := fun hsil => by simp [hsil.1] at hv
    have hopen := hc.busy hbusy
    refine ⟨⟨hc.inner, fun hr => ?_, hc.window, ?_, fun _ => hopen⟩, fun f hf => ?_, hthread,
      ⟨hs.fresh, hs.lt, hs.posted, hs.once, hs.delivered⟩⟩
    · exact absurd (hc.reset hr).1 hbusy
    · have := hc.signals
      simp only [hv, Bool.toNat_true, Bool.toNat_false] at this ⊢
      omega
    · have hf := hcall f hf
      revert hf
      simp only [CallOk]
      cases f.pc with
      | send => exact fun hf => absurd hf.2.1 hbusy
      | enter | write | post | wait => exact id
  · exact ⟨hc, hcall, hthread, hs⟩

/-- A call that is in the mailbox while a signal is on its way waits for the answer. -/
lemma CallOk.of_busy {t : VmcsSystem} (h : s.CallOk f) (hc : s.Control) (hbusy : ¬ s.Silent)
    (hid : t.vmcs.id = s.vmcs.id) (hret : t.vmcs.hostIndex = t.vmcs.guestIndex →
      .handled t.vmcs.id t.vmcs.trapRet t.vmcs.trapResult ∈ t.log) : t.CallOk f := by
  have hopen := hc.busy hbusy
  revert h
  simp only [CallOk]
  cases f.pc with
  | enter => exact id
  | write => exact fun h => absurd hopen (not_open_of_eq h)
  | post => exact fun h => absurd hopen (not_open_of_eq h.1)
  | send => exact fun h => absurd h.2.1 hbusy
  | wait =>
    intro h
    have hf : f.id = t.vmcs.id := h.1.trans hid.symm
    exact ⟨hf, fun heq => hf ▸ hret heq⟩

/-- The thread goes on with the request it has. -/
lemma Control.goOn {t : VmcsSystem} (h : s.Control) (hs : s.thread ≠ .idle) (ht : t.thread ≠ .idle)
    (hcalls : t.calls = s.calls) (hhost : t.vmcs.hostIndex = s.vmcs.hostIndex)
    (hguest : t.vmcs.guestIndex = s.vmcs.guestIndex) (hvirq : t.virq = s.virq)
    (hfd : t.eventfd = s.eventfd) (hreset : t.resetting = s.resetting) : t.Control := by
  have hbusy : ¬ s.Silent := fun hsil => hs hsil.2.2
  have hopen : t.Open ↔ s.Open := by rw [Open, Open, hreset, hhost, hguest]
  refine ⟨by rw [hcalls]; exact h.inner, fun hr => absurd (h.reset (hreset ▸ hr)).1 hbusy,
    fun hr => ?_, ?_, fun _ => hopen.2 (h.busy hbusy)⟩
  · rw [hopen, hhost, hguest]
    exact h.window (hreset ▸ hr)
  · have := h.signals
    rw [if_neg hs] at this
    rw [if_neg ht, hvirq, hfd]
    exact this

lemma Inv.vmVcpuThread (h : s.Inv) (ret : ℤ) (result : ℕ) : (s.vmVcpuThread ret result).Inv := by
  obtain ⟨hc, hcall, hthread, hs⟩ := h
  have hne : s.vmcs.hostIndex = s.vmcs.guestIndex → ¬ s.Open := not_open_of_eq
  cases hpc : s.thread with
  | idle =>
    simp only [VmcsSystem.vmVcpuThread, hpc]
    split_ifs with hfd
    · exact ⟨hc, hcall, hthread, hs⟩
    · have hbusy : ¬ s.Silent := fun hsil => hfd hsil.2.1
      have hopen := hc.busy hbusy
      refine ⟨⟨hc.inner, fun hr => absurd (hc.reset hr).1 hbusy, hc.window, ?_, fun _ => hopen⟩,
        fun f hf => (hcall f hf).of_busy hc hbusy rfl fun heq => absurd hopen (hne heq), ?_,
        ⟨hs.fresh, hs.lt, hs.posted, hs.once, hs.delivered⟩⟩
      · have := hc.signals
        simp only [hpc, if_true, reduceCtorEq, if_false] at this ⊢
        omega
      · simp only [ThreadOk, hpc] at hthread ⊢
        exact hthread hopen
  | fetch =>
    have hbusy : ¬ s.Silent := fun hsil => by simp [hsil.2.2] at hpc
    have hopen := hc.busy hbusy
    simp only [VmcsSystem.vmVcpuThread, hpc]
    refine ⟨hc.goOn (by simp [hpc]) (by simp) rfl rfl rfl rfl rfl rfl,
      fun f hf => (hcall f hf).of_busy hc hbusy rfl fun heq => absurd hopen (hne heq), ?_,
      ⟨hs.fresh, hs.lt, hs.posted, hs.once, hs.delivered⟩⟩
    simp only [ThreadOk, hpc] at hthread
    exact ⟨rfl, hthread⟩
  | handle id req =>
    have hbusy : ¬ s.Silent := fun hsil => by simp [hsil.2.2] at hpc
    have hopen := hc.busy hbusy
    simp only [ThreadOk, hpc] at hthread
    obtain ⟨rfl, hnone⟩ := hthread
    simp only [VmcsSystem.vmVcpuThread, hpc]
    refine ⟨hc.goOn (by simp [hpc]) (by simp) rfl rfl rfl rfl rfl rfl,
      fun f hf => (hcall f hf).of_busy hc hbusy rfl fun heq => absurd hopen (hne heq), ?_, ?_⟩
    · simp [ThreadOk, hnone]
    · refine ⟨fun id hid => ?_, hs.lt, fun id hid => ?_, fun id hid => ?_, fun id r x hid => ?_⟩
      · have hlt := hs.lt
        dsimp only at hid
        rw [handledCount_cons_handled, hs.fresh id hid, if_neg (by omega)]
      · rcases hs.posted id (by simpa using hid) with h | h | h
        · exact Or.inl (List.mem_cons_of_mem _ h)
        · exact Or.inr (Or.inl (List.mem_cons_of_mem _ h))
        · exact Or.inr (Or.inr h)
      · -- the request that is handled now was not acknowledged
        have hacked : .acked id ∈ s.log := by simpa using hid
        have hne : s.vmcs.id ≠ id := by
          rintro rfl
          have := hs.once _ hacked
          omega
        rw [handledCount_cons_handled, hs.once id hacked, if_neg hne]
      · exact List.mem_cons_of_mem _ (hs.delivered id r x (by simpa using hid))
  | store id ret' result' =>
    have hbusy : ¬ s.Silent := fun hsil => by simp [hsil.2.2] at hpc
    have hopen := hc.busy hbusy
    simp only [ThreadOk, hpc] at hthread
    simp only [VmcsSystem.vmVcpuThread, hpc]
    refine ⟨hc.goOn (by simp [hpc]) (by simp) rfl rfl rfl rfl rfl rfl,
      fun f hf => (hcall f hf).of_busy hc hbusy rfl fun heq => absurd hopen (hne heq), ?_,
      ⟨hs.fresh, hs.lt, hs.posted, hs.once, hs.delivered⟩⟩
    exact hthread.2
  | ack =>
    have hbusy : ¬ s.Silent := fun hsil => by simp [hsil.2.2] at hpc
    have hopen := hc.busy hbusy
    simp only [ThreadOk, hpc] at hthread
    have hidx : s.vmcs.guestIndex ≠ s.vmcs.hostIndex := fun heq => hne heq.symm hopen
    have hsignals := hc.signals
    simp only [hpc, reduceCtorEq, if_false] at hsignals
    have hvirq : s.virq = false := by
      cases hv : s.virq with
      | false => rfl
      | true =>
        rw [hv, Bool.toNat_true] at hsignals
        omega
    simp only [VmcsSystem.vmVcpuThread, hpc, vmcsAck, if_neg hidx]
    refine ⟨⟨hc.inner, fun hr => absurd (hc.reset hr).1 hbusy, fun _ => Or.inl hopen.2, ?_, ?_⟩,
      fun f hf => (hcall f hf).of_busy hc hbusy rfl fun _ => List.mem_cons_of_mem _ hthread.2,
      fun hopen' => absurd hopen' (not_open_of_eq hopen.2),
      hs.cons (.acked s.vmcs.id) rfl rfl rfl (by simp) nofun (fun _ => Or.inr (Or.inl rfl)) ?_
        nofun⟩
    · simp only [if_true]
      omega
    · exact fun hsil => absurd ⟨hvirq, by dsimp only; omega, rfl⟩ hsil
    · intro id heq
      obtain rfl := TrapAct.acked.inj heq
      exact hthread.1

/-! ### The steps of the vcpu -/

lemma CallOk.of_enter (h : f.pc = .enter) : s.CallOk f := by
  simp only [CallOk, h]

/-- The call around the innermost one still waits for an earlier request. -/
lemma callOk_rest (h : AllEnter rest) : ∀ f ∈ rest.head?, s.CallOk f :=
  fun f hf => CallOk.of_enter (h f (List.mem_of_mem_head? hf))

lemma allEnter_tail (h : AllEnter rest) : AllEnter rest.tail :=
  fun f hf => h f (List.mem_of_mem_tail hf)

/-- While the indices are equal, the thread is idle. -/
lemma ThreadOk.of_silent (h : s.Silent) (hopen : s.Open → handledCount s.log s.vmcs.id = 0) :
    s.ThreadOk := by
  rw [ThreadOk, h.2.2]
  exact hopen

lemma Control.running (hreset : s.resetting = false) (hinner : AllEnter s.calls.tail)
    (hwindow : s.vmcs.hostIndex = s.vmcs.guestIndex ∨ s.Open)
    (hsignals : s.virq.toNat + s.eventfd + (if s.thread = .idle then 0 else 1) ≤ 1)
    (hbusy : ¬ s.Silent → s.Open) : s.Control :=
  ⟨hinner, fun hr => absurd (hreset.symm.trans hr) Bool.false_ne_true, fun _ => hwindow, hsignals,
    hbusy⟩

lemma Inv.vcpuTrap (h : s.Inv) (b sent : Bool) (hcalls : s.calls = f :: rest)
    (hreset : s.resetting = false) : (s.vcpuTrap b sent f rest).Inv := by
  have ⟨hc, hcall, hthread, hs⟩ := h
  have hinner : AllEnter rest := by simpa [hcalls] using hc.inner
  have hf : s.CallOk f := hcall f (by simp [hcalls])
  cases hpc : f.pc with
  | enter =>
    simp only [VmcsSystem.vcpuTrap, hpc]
    split_ifs with heq
    · exact h
    · rw [not_not] at heq
      refine ⟨.running hreset hinner (hc.window hreset) hc.signals hc.busy, fun g hg => ?_, hthread,
        ⟨hs.fresh, hs.lt, hs.posted, hs.once, hs.delivered⟩⟩
      obtain rfl := Option.some.inj hg
      exact heq.symm
  | write =>
    simp only [CallOk, hpc] at hf
    simp only [VmcsSystem.vcpuTrap, hpc]
    have hsil := hc.silent hf
    have hnot : ∀ {t : VmcsSystem}, t.vmcs.hostIndex = s.vmcs.hostIndex →
        t.vmcs.guestIndex = s.vmcs.guestIndex → ¬ t.Open :=
      fun h1 h2 => not_open_of_eq (by rw [h1, h2, hf])
    refine ⟨.running hreset hinner (Or.inl hf) hc.signals fun hb => absurd hsil hb,
      fun g hg => ?_, ThreadOk.of_silent hsil fun ho => absurd ho (hnot rfl rfl), ?_⟩
    · obtain rfl := Option.some.inj hg
      exact ⟨hf, rfl, hs.fresh s.next le_rfl⟩
    · refine ⟨fun id hid => hs.fresh id ?_, Nat.lt_succ_self _, fun id hid => ?_, hs.once,
        hs.delivered⟩
      · dsimp only at hid
        omega
      · rcases hs.posted id hid with h | h | h
        · exact Or.inl h
        · exact Or.inr (Or.inl h)
        · exact absurd h.1 (not_open_of_eq hf)
  | post =>
    simp only [CallOk, hpc] at hf
    obtain ⟨hidx, hid, hnone⟩ := hf
    simp only [VmcsSystem.vcpuTrap, hpc]
    have hsil := hc.silent hidx
    have hopen : s.vmcs.hostIndex + 1 = s.vmcs.guestIndex + 1 := by rw [hidx]
    refine ⟨.running hreset hinner (Or.inr ⟨hreset, hopen⟩) hc.signals fun hb => absurd hsil hb,
      fun g hg => ?_, ThreadOk.of_silent hsil fun _ => by simpa using hnone,
      hs.cons (.posted f.id) rfl rfl rfl (by simp) (fun id heq => ?_)
        (fun ho => absurd ho (not_open_of_eq hidx)) nofun nofun⟩
    · obtain rfl := Option.some.inj hg
      exact ⟨⟨hreset, hopen⟩, hsil, hid⟩
    · exact ⟨⟨hreset, hopen⟩, (TrapAct.posted.inj heq).symm.trans hid⟩
  | send =>
    simp only [CallOk, hpc] at hf
    obtain ⟨hopen, hsil, hid⟩ := hf
    simp only [VmcsSystem.vcpuTrap, hpc]
    have hthread' : s.Open → handledCount s.log s.vmcs.id = 0 := by
      simpa only [ThreadOk, hsil.2.2] using hthread
    by_cases hsent : sent = true
    · rw [if_pos hsent]
      refine ⟨.running hreset ?_ (Or.inr hopen) ?_ fun _ => hopen, ?_, ?_,
        ⟨hs.fresh, hs.lt, hs.posted, hs.once, hs.delivered⟩⟩
      · dsimp only
        split_ifs
        · exact allEnter_tail hinner
        · exact hinner
      · simp [hsil.2.1, hsil.2.2]
      · dsimp only
        split_ifs
        · exact callOk_rest hinner
        · intro g hg
          obtain rfl := Option.some.inj hg
          exact ⟨hid, fun heq => absurd hopen (not_open_of_eq heq)⟩
      · simp only [ThreadOk, hsil.2.2]
        exact hthread'
    · -- without an interrupt the request is taken back
      rw [if_neg hsent]
      have heq : s.vmcs.hostIndex - 1 = s.vmcs.guestIndex := by
        rw [hopen.2]
        bv_omega
      exact ⟨.running hreset (allEnter_tail hinner) (Or.inl heq) hc.signals
        fun hb => absurd hsil hb, callOk_rest hinner,
        ThreadOk.of_silent hsil fun ho => absurd ho (not_open_of_eq heq),
        hs.cons (.cancelled f.id) rfl rfl rfl (by simp) nofun (fun _ => by simp [hid]) nofun nofun⟩
  | wait =>
    simp only [CallOk, hpc] at hf
    simp only [VmcsSystem.vcpuTrap, hpc]
    split_ifs with heq
    · exact h
    · rw [not_not] at heq
      have hsil := hc.silent heq.symm
      refine ⟨.running hreset (allEnter_tail hinner) (hc.window hreset) hc.signals hc.busy,
        callOk_rest hinner, ThreadOk.of_silent hsil fun ho => absurd ho (not_open_of_eq heq.symm),
        hs.cons (.returned f.id _ _) rfl rfl rfl (by simp) nofun
          (fun ho => absurd ho (not_open_of_eq heq.symm)) nofun fun id ret result heq' => ?_⟩
      obtain ⟨rfl, rfl, rfl⟩ := TrapAct.returned.inj heq'
      exact hf.2 heq.symm

/-! ### Whole runs -/

lemma Inv.step (h : s.Inv) (b : Bool) (e : VmcsEvent) (he : s.Orderly e) : (s.step b e).Inv := by
  have ⟨hc, hcall, hthread, hs⟩ := h
  have hs' : ∀ {t : VmcsSystem}, t.log = s.log → t.next = s.next → t.vmcs.id = s.vmcs.id →
      ¬ s.Open → t.Settled := by
    intro t hlog hnext hid hopen
    refine ⟨by rw [hlog, hnext]; exact hs.fresh, by rw [hid, hnext]; exact hs.lt, ?_,
      by rw [hlog]; exact hs.once, by rw [hlog]; exact hs.delivered⟩
    rw [hlog]
    intro id hposted
    rcases hs.posted id hposted with h | h | h
    · exact Or.inl h
    · exact Or.inr (Or.inl h)
    · exact absurd h.1 hopen
  cases e with
  | trap req nonblock =>
    simp only [VmcsSystem.step]
    split_ifs
    · exact h
    · refine ⟨⟨he, fun hr => ?_, hc.window, hc.signals, hc.busy⟩, fun g hg => ?_, hthread,
        ⟨hs.fresh, hs.lt, hs.posted, hs.once, hs.delivered⟩⟩
      · obtain ⟨hsil, hall, hhost⟩ := hc.reset hr
        exact ⟨hsil, List.forall_mem_cons.2 ⟨rfl, hall⟩, hhost⟩
      · obtain rfl := Option.some.inj hg
        exact CallOk.of_enter rfl
  | vcpu sent =>
    simp only [VmcsSystem.step]
    split
    · exact h
    · exact h.vcpuTrap b sent ‹_› he
  | deliver => exact h.deliver b
  | thread ret result => exact h.vmVcpuThread ret result
  | powerOff =>
    refine ⟨⟨by simp [VmcsSystem.step, AllEnter], fun hr => ?_, hc.window, hc.signals, hc.busy⟩,
      by simp [VmcsSystem.step], hthread, ⟨hs.fresh, hs.lt, hs.posted, hs.once, hs.delivered⟩⟩
    obtain ⟨hsil, -, hhost⟩ := hc.reset hr
    exact ⟨hsil, by simp [VmcsSystem.step, AllEnter], hhost⟩
  | resetHost =>
    obtain ⟨hall, hidx, hsil, -⟩ := he
    refine ⟨⟨hc.inner, fun _ => ⟨hsil, hall, rfl⟩, fun hr => ?_, hc.signals,
      fun hb => absurd hsil hb⟩,
      fun g hg => CallOk.of_enter (hall g (List.mem_of_mem_head? hg)), ?_,
      hs' rfl rfl rfl (not_open_of_eq hidx)⟩
    · cases hr
    · refine ThreadOk.of_silent hsil fun ho => ?_
      cases ho.1
  | resetGuest =>
    simp only [VmcsSystem.step]
    split_ifs with hr
    · obtain ⟨hsil, hall, hhost⟩ := hc.reset hr
      have hclosed : ¬ s.Open := fun ho => by simp [ho.1] at hr
      refine ⟨.running rfl hc.inner (Or.inl hhost) hc.signals fun hb => absurd hsil hb,
        fun g hg => CallOk.of_enter (hall g (List.mem_of_mem_head? hg)), ?_,
        hs' rfl rfl rfl hclosed⟩
      exact ThreadOk.of_silent hsil fun ho => absurd ho (not_open_of_eq hhost)
    · exact h

lemma Inv.notOverwritten (h : s.Inv) (e : VmcsEvent) : s.NotOverwritten e := by
  cases e with
  | vcpu sent =>
    intro f hf hpc id hposted
    have hok := h.call f hf
    simp only [CallOk, hpc] at hok
    rcases h.settled.posted id hposted with hacked | hcancelled | ⟨hopen, -⟩
    · exact Or.inl hacked
    · exact Or.inr hcancelled
    · exact absurd hopen (not_open_of_eq hok)
  | trap | deliver | thread | powerOff | resetHost | resetGuest => trivial

end VmcsSystem

/-- In a run in which traps and resets do not get in each other's way, the handshake is sound after
every step, and no step overwrites a request that is not settled. -/
theorem vmcs_handshake (samePcpu : Bool) (es : List VmcsEvent)
    (hes : Along (VmcsSystem.step samePcpu) VmcsSystem.Orderly VmcsSystem.init es) :
    Along (VmcsSystem.step samePcpu)
      (fun s e => s.NotOverwritten e ∧ (s.step samePcpu e).Sound) VmcsSystem.init es :=
  along_induction (fun _ e h he => h.step samePcpu e he)
    (fun _ e h he => ⟨h.notOverwritten e, (h.step samePcpu e he).sound⟩) VmcsSystem.init_inv hes

/-- The guest asks for a reboot, and VM0 powers it up again before the thread has acknowledged the
request. The acknowledgement goes to the next request, which nobody has handled. -/
def staleAck : List VmcsEvent :=
  [.trap ⟨1, 3, 0, 0⟩ true, .vcpu true, .vcpu true, .vcpu true, .vcpu true, .deliver, .thread 0 0,
    .thread 0 0, .thread 0 0, .powerOff, .resetHost, .resetGuest, .trap ⟨0, 0, 0x1000, 0⟩ false,
    .vcpu true, .vcpu true, .vcpu true, .vcpu true, .thread 0 0, .thread 0 0, .vcpu true]

theorem vmcs_stale_ack :
    let s := exec (VmcsSystem.step false) VmcsSystem.init staleAck
    .returned 2 0 0 ∈ s.log ∧ VmcsSystem.handledCount s.log 2 = 0 ∧ ¬ s.Sound := by
  intro s
  have hacked : .acked 2 ∈ s.log := by decide +kernel
  have hcount : VmcsSystem.handledCount s.log 2 = 0 := by decide +kernel
  refine ⟨by decide +kernel, hcount, fun h => ?_⟩
  have := h.once 2 hacked
  omega

/-- The same with the reset after the acknowledgement. -/
theorem vmcs_handshake_reboot :
    let es : List VmcsEvent :=
      [.trap ⟨1, 3, 0, 0⟩ true, .vcpu true, .vcpu true, .vcpu true, .vcpu true, .deliver,
        .thread 0 0, .thread 0 0, .thread 0 0, .thread 0 0, .thread 0 0, .powerOff, .resetHost,
        .resetGuest, .trap ⟨0, 0, 0x1000, 0⟩ false, .vcpu true, .vcpu true, .vcpu true, .vcpu true,
        .deliver, .thread 0 0, .thread 0 0, .thread 0 7, .thread 0 0, .thread 0 0, .vcpu true]
    .returned 2 0 7 ∈ (exec (VmcsSystem.step false) VmcsSystem.init es).log ∧
      Along (VmcsSystem.step false) (fun s e => s.NotOverwritten e ∧ (s.step false e).Sound)
        VmcsSystem.init es :=
  ⟨by decide +kernel, vmcs_handshake false _ (by decide +kernel)⟩

end Minos.Virt
