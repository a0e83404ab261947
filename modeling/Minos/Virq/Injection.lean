import Mathlib
import Minos.Types
import Minos.Lib.Run
import Minos.Virq.ListRegisters
import Minos.Virt.VcpuPower

/-!
# Which interrupts are injected

Any number can be sent to a VM, and interrupts are requested and released while it runs. A number
is looked up without asking whether its interrupt is requested.
-/

namespace Minos.Virq

open Bitmap DList Run
open Virt (VmStat)

/-- What does not change about a VM, whose vcpus are numbered from zero. -/
structure VirqVm where
  chip : Chip
  vmid : ℕ
  vcpuNr : ℕ
  vcpuNr_pos : 0 < vcpuNr

namespace VirqVm

variable (V : VirqVm)

def conf : VmConf ℕ := ⟨V.chip, V.vmid, 0⟩

/-- `get_vcpu_in_vm` -/
def getVcpuInVm (vcpuId : ℕ) : Option ℕ := if V.vcpuNr ≤ vcpuId then none else some vcpuId

/-! ### Sending -/

/-- `send_virq` up to the call of `kick_vcpu`, while the VM is in the state `stat` and vcpu `src` is
current -/
def sendVirq (stat : VmStat) (v : ℕ) (d : VirqRef ℕ) (src : ℕ) (s : VmVirqs ℕ) : ℤ × VmVirqs ℕ :=
  if stat = .offline ∨ stat = .reboot then (- EINVAL, s)
  else if stat = .suspend ∧ !(s.descs d).canWakeup then (-EAGAIN, s)
  else (0, VmVirqs.sendVirq v d src s)

/-- `send_virq_to_vcpu`, whose callers pass interrupts that have a descriptor -/
def sendVirqToVcpu (stat : VmStat) (v virq src : ℕ) (s : VmVirqs ℕ) : ℤ × VmVirqs ℕ :=
  match getVirqDesc V.chip v virq with
  | none => (- ENOENT, s)
  | some d => sendVirq stat v d src s

/-- `send_virq_to_vm` -/
def sendVirqToVm (stat : VmStat) (virq src : ℕ) (s : VmVirqs ℕ) : ℤ × VmVirqs ℕ :=
  if virq < VM_LOCAL_VIRQ_NR then (- EINVAL, s)
  else
    match getVirqDesc V.chip 0 virq with
    | none => (- ENOENT, s)
    | some d =>
      if (s.descs d).hw then (- EPERM, s)
      else
        match V.getVcpuInVm (s.descs d).vcpuId with
        | none => (- ENOENT, s)
        | some v => sendVirq stat v d src s

/-! ### Requesting -/

/-- `__request_virq` -/
def requestDesc (v virq hwirq : ℕ) (wakeup enable : Bool) (d : VirqRef ℕ) (s : VmVirqs ℕ) :
    VmVirqs ℕ :=
  { (s.setDesc d (requestVirq v V.vmid virq hwirq wakeup enable)).setLinks fun h =>
      setNext h (.node (.inr d)) .null with
    vspiMap := if VM_LOCAL_VIRQ_NR ≤ virq then setBit s.vspiMap (virq - VM_LOCAL_VIRQ_NR)
      else s.vspiMap }

/-- `request_virq_affinity` -/
def requestVirqAffinity (virq hwirq affinity : ℕ) (wakeup enable : Bool) (s : VmVirqs ℕ) :
    ℤ × VmVirqs ℕ :=
  match V.getVcpuInVm affinity with
  | none => (- EINVAL, s)
  | some v =>
    match getVirqDesc V.chip v virq with
    | none => (- ENOENT, s)
    | some d => (0, V.requestDesc v virq hwirq wakeup enable d s)

/-- What `request_virq_pervcpu` does for one vcpu. -/
def requestPrivate (virq : ℕ) (wakeup enable : Bool) (s : VmVirqs ℕ) (v : ℕ) : VmVirqs ℕ :=
  (V.requestDesc v virq 0 wakeup enable (.priv v virq) s).setDesc (.priv v virq) fun desc =>
    { desc with
      vcpuId := VIRQ_AFFINITY_VCPU_ANY
      vmid := VIRQ_AFFINITY_VM_ANY }

/-- `request_virq_pervcpu` -/
def requestVirqPervcpu (virq : ℕ) (wakeup enable : Bool) (s : VmVirqs ℕ) : ℤ × VmVirqs ℕ :=
  if VM_LOCAL_VIRQ_NR ≤ virq then (- EINVAL, s)
  else (0, (List.range V.vcpuNr).foldl (V.requestPrivate virq wakeup enable) s)

end VirqVm

/-! ### Runs -/

inductive InjectEvent where
  | sendVm (stat : VmStat) (virq src : ℕ)
  | sendVcpu (stat : VmStat) (v virq src : ℕ)
  | request (virq hwirq affinity : ℕ) (wakeup enable : Bool)
  | requestPervcpu (virq : ℕ) (wakeup enable : Bool)
  | requestVm (base nr : ℕ)
  | alloc
  | release (virq : ℕ)
  | enter (v fuel : ℕ)
  | exit (v fuel : ℕ)
  /-- the hardware changes the states of the list registers -/
  | hardware (v : ℕ) (states : ℕ → VirqState)

/-- The interrupts, with the number by which each of them was last sent. -/
structure Injected where
  virqs : VmVirqs ℕ
  sent : VirqRef ℕ → Option ℕ

namespace Injected

def init : Injected := ⟨VmVirqs.init ℕ, fun _ => none⟩

variable (V : VirqVm)

/-- What a send returned, with a note of the number if it succeeded. -/
def note (s : Injected) (v virq : ℕ) (r : ℤ × VmVirqs ℕ) : Injected where
  virqs := r.2
  sent :=
    match getVirqDesc V.chip v virq with
    | none => s.sent
    | some d => if r.1 = 0 then Function.update s.sent d (some virq) else s.sent

def step (s : Injected) : InjectEvent → Injected
  | .sendVm stat virq src => s.note V 0 virq (V.sendVirqToVm stat virq src s.virqs)
  | .sendVcpu stat v virq src => s.note V v virq (V.sendVirqToVcpu stat v virq src s.virqs)
  | .request virq hwirq affinity wakeup enable =>
    { s with virqs := (V.requestVirqAffinity virq hwirq affinity wakeup enable s.virqs).2 }
  | .requestPervcpu virq wakeup enable =>
    { s with virqs := (V.requestVirqPervcpu virq wakeup enable s.virqs).2 }
  | .requestVm base nr => { s with virqs := VmVirqs.requestVmVirqs V.conf base nr s.virqs }
  | .alloc => { s with virqs := VmVirqs.allocVmVirq V.conf s.virqs }
  | .release virq => { s with virqs := VmVirqs.releaseVmVirq V.conf virq s.virqs }
  | .enter v fuel => { s with
      virqs := VmVirqs.enterLoop V.chip v fuel (s.virqs.links.next (.inl (.pending, v))) s.virqs }
  | .exit v fuel => { s with
      virqs := VmVirqs.exitLoop V.chip v fuel (s.virqs.links.next (.inl (.active, v))) s.virqs }
  | .hardware v states => { s with
      virqs := s.virqs.setVcpu v fun vs => { vs with
        lrs := fun i => { vs.lrs i with state := states i } } }

/-- The accesses to the list registers of vcpu `w`. -/
def accesses (s : Injected) (w : ℕ) : InjectEvent → List (LrAccess ℕ)
  | .enter v fuel =>
    if w = v then
      VmVirqs.enterAccesses V.chip v fuel (s.virqs.links.next (.inl (.pending, v))) s.virqs
    else []
  | .exit v fuel =>
    if w = v then
      VmVirqs.exitAccesses V.chip v fuel (s.virqs.links.next (.inl (.active, v))) s.virqs
    else []
  | _ => []

/-- An error was returned, and nothing changed. -/
def Refused (r : ℤ × VmVirqs ℕ) (s : VmVirqs ℕ) : Prop := r.1 < 0 ∧ r.2 = s

/-- A number that is not requested is refused. -/
def Refuses (s : Injected) : InjectEvent → Prop
  | .sendVm stat virq src => (∀ d ∈ getVirqDesc V.chip 0 virq, ¬ s.virqs.Requested d) →
      Refused (V.sendVirqToVm stat virq src s.virqs) s.virqs
  | .sendVcpu stat v virq src => (∀ d ∈ getVirqDesc V.chip v virq, ¬ s.virqs.Requested d) →
      Refused (V.sendVirqToVcpu stat v virq src s.virqs) s.virqs
  | _ => True

/-- Only requested interrupts are injected. -/
def Injects (s : Injected) (e : InjectEvent) : Prop :=
  (∀ w, ∀ a ∈ accesses V s w e, VmVirqs.AccessOk V.chip w s.sent a) ∧ Refuses V s e

/-- What is sent while the VM is online is requested. -/
def SendsRequested (s : Injected) : InjectEvent → Prop
  | .sendVm stat virq _ => stat = .online → VM_LOCAL_VIRQ_NR ≤ virq →
      ∀ d ∈ getVirqDesc V.chip 0 virq, s.virqs.Requested d
  | .sendVcpu stat v virq _ => stat = .online →
      ∀ d ∈ getVirqDesc V.chip v virq, s.virqs.Requested d
  | _ => True

/-- What is requested or released is on no list. -/
def Undisturbed (s : Injected) : InjectEvent → Prop
  | .request virq _ affinity _ _ => ∀ v ∈ V.getVcpuInVm affinity,
      ∀ d ∈ getVirqDesc V.chip v virq, s.virqs.links.next (.inr d) = .null
  | .requestPervcpu virq _ _ => virq < VM_LOCAL_VIRQ_NR →
      ∀ v < V.vcpuNr, s.virqs.links.next (.inr (.priv v virq)) = .null
  | .requestVm base nr => ¬ (base < GVM_IRQ_BASE ∨ nr = 0 ∨ GVM_IRQ_END ≤ base + nr) →
      ∀ virq ∈ List.range' base nr, VmVirqs.Unlinked V.conf s.virqs virq
  | .release virq => VM_LOCAL_VIRQ_NR ≤ virq → VmVirqs.Unlinked V.conf s.virqs virq
  | _ => True

instance (s : Injected) : (e : InjectEvent) → Decidable (SendsRequested V s e)
  | .sendVm _ _ _ => inferInstanceAs (Decidable (_ → _ → ∀ d ∈ getVirqDesc _ _ _, _))
  | .sendVcpu _ _ _ _ => inferInstanceAs (Decidable (_ → ∀ d ∈ getVirqDesc _ _ _, _))
  | .request _ _ _ _ _ => inferInstanceAs (Decidable True)
  | .requestPervcpu _ _ _ => inferInstanceAs (Decidable True)
  | .requestVm _ _ => inferInstanceAs (Decidable True)
  | .alloc => inferInstanceAs (Decidable True)
  | .release _ => inferInstanceAs (Decidable True)
  | .enter _ _ => inferInstanceAs (Decidable True)
  | .exit _ _ => inferInstanceAs (Decidable True)
  | .hardware _ _ => inferInstanceAs (Decidable True)

instance (s : Injected) : (e : InjectEvent) → Decidable (Undisturbed V s e)
  | .request _ _ affinity _ _ =>
    inferInstanceAs (Decidable (∀ v ∈ V.getVcpuInVm affinity, ∀ d ∈ getVirqDesc _ v _, _))
  | .requestPervcpu _ _ _ => inferInstanceAs (Decidable (_ → ∀ v < V.vcpuNr, _))
  | .requestVm base nr => inferInstanceAs (Decidable (_ → ∀ virq ∈ List.range' base nr, _))
  | .release _ => inferInstanceAs (Decidable (_ → _))
  | .sendVm _ _ _ => inferInstanceAs (Decidable True)
  | .sendVcpu _ _ _ _ => inferInstanceAs (Decidable True)
  | .alloc => inferInstanceAs (Decidable True)
  | .enter _ _ => inferInstanceAs (Decidable True)
  | .exit _ _ => inferInstanceAs (Decidable True)
  | .hardware _ _ => inferInstanceAs (Decidable True)

/-! ### The invariant -/

/-- The invariant of the interrupts holds for some lists. -/
def Ok (s : Injected) : Prop := ∃ L W, s.virqs.Good V.chip s.sent L W

variable {V} {s : Injected} {v virq : ℕ} {d e : VirqRef ℕ}

lemma init_ok : init.Ok V := by
  have hreq : init.virqs.Requested = VirqRef.Requested (ι := ℕ) fun _ => none := by
    funext d
    cases d with
    | priv v virq => rfl
    | spi n => exact propext ⟨fun h => (by cases h), fun h => (by cases h)⟩
  refine ⟨fun _ => [], (Vgic.init ℕ fun _ => none).view, VmVirqs.init_lists,
    ⟨fun _ => rfl, fun _ => rfl, fun _ => rfl, fun d => ?_, fun d => ?_⟩, ?_, ?_⟩
  · cases d <;> rfl
  · cases d <;> rfl
  · rw [hreq]
    exact init_inv _ _
  · refine ⟨fun d hd => ?_, fun d hd => ?_, fun d hd => ?_⟩
    all_goals rcases d with ⟨v, virq⟩ | n
    · rfl
    · cases hd
    · exact absurd trivial hd
    · rfl
    · cases hd
    · cases hd

lemma number_of_getVirqDesc {C : Chip} (hd : getVirqDesc C v virq = some d) : d.number = virq := by
  rw [getVirqDesc] at hd
  split_ifs at hd with hlow
  · cases hd
    rfl
  · cases hd
    exact Nat.sub_add_cancel (not_lt.1 hlow)

lemma requested_update {s s' : VmVirqs ℕ} {n : ℕ} {b : Bool}
    (h : s'.vspiMap = Function.update s.vspiMap n b) (he : e ≠ .spi n) :
    s'.Requested e ↔ s.Requested e := by
  cases e with
  | priv v virq => rfl
  | spi m =>
    have hm : m ≠ n := by
      rintro rfl
      exact he rfl
    simp only [VmVirqs.Requested, h, Function.update_of_ne hm]

section Requests

variable {C : Chip} {sent : VirqRef ℕ → Option ℕ} {s : VmVirqs ℕ}
  {L : VirqList × ℕ → List (VirqRef ℕ)} {W : View ℕ} {hwirq : ℕ} {wakeup enable : Bool}

lemma good_requestDesc (hwirq : ℕ) (wakeup enable : Bool) (h : s.Good V.chip sent L W)
    (hd : getVirqDesc V.chip v virq = some d)
    (hnull : s.links.next (.inr d) = .null) :
    ∃ W', (V.requestDesc v virq hwirq wakeup enable d s).Good V.chip sent L W' := by
  have hreq : ∀ e, e ≠ d → ((V.requestDesc v virq hwirq wakeup enable d s).Requested e ↔
      s.Requested e) := by
    intro e hed
    by_cases hlow : VM_LOCAL_VIRQ_NR ≤ virq
    · rw [getVirqDesc, if_neg (not_lt.2 hlow)] at hd
      split_ifs at hd
      cases hd
      refine requested_update (b := true) ?_ hed
      rw [VirqVm.requestDesc, if_pos hlow]
      rfl
    · refine iff_of_eq (congrFun (VmVirqs.requested_congr ?_) e)
      rw [VirqVm.requestDesc, if_neg hlow]
  have hself : (V.requestDesc v virq hwirq wakeup enable d s).Requested d := by
    rw [getVirqDesc] at hd
    split_ifs at hd with hlow hhigh
    · cases hd
      trivial
    · cases hd
      simp only [VirqVm.requestDesc, VmVirqs.Requested]
      rw [if_pos (not_lt.1 hlow)]
      exact Function.update_self _ _ _
  have hdesc : (V.requestDesc v virq hwirq wakeup enable d s).descs d =
      requestVirq v V.vmid virq hwirq wakeup enable (s.descs d) := Function.update_self _ _ _
  refine ⟨_, h.renew hnull ?_ (fun _ => rfl) (fun e hed => Function.update_of_ne hed _ _) hreq ?_
    (fun _ => ?_) fun hnot => absurd hself hnot⟩
  · exact h.lists.renew hnull (fun x hx => Function.update_of_ne hx _ _) (fun _ _ => rfl)
      (Function.update_self _ _ _) fun e hed he => (hreq e hed).2 he
  · rw [hdesc]
    exact h.not_pending hnull
  · rw [hdesc]
    exact ⟨rfl, (number_of_getVirqDesc hd).symm⟩

lemma getVcpuInVm_zero (V : VirqVm) : V.getVcpuInVm 0 = some 0 :=
  if_neg (not_le.2 V.vcpuNr_pos)

/-- `request_virq` asks for no hardware interrupt, on the first vcpu. -/
lemma requestVirq_eq (virq : ℕ) (enable : Bool) (s : VmVirqs ℕ) :
    VmVirqs.requestVirq V.conf virq enable s =
      (V.requestVirqAffinity virq 0 0 false enable s).2 := by
  simp only [VmVirqs.requestVirq, VirqVm.requestVirqAffinity, getVcpuInVm_zero, VirqVm.conf]
  cases getVirqDesc V.chip 0 virq with
  | none => rfl
  | some d => rfl

lemma good_requestVirqAffinity {affinity : ℕ} (h : s.Good V.chip sent L W)
    (hnull : ∀ v ∈ V.getVcpuInVm affinity, ∀ d ∈ getVirqDesc V.chip v virq,
      s.links.next (.inr d) = .null) :
    ∃ W', (V.requestVirqAffinity virq hwirq affinity wakeup enable s).2.Good V.chip sent L W' := by
  rw [VirqVm.requestVirqAffinity]
  cases hv : V.getVcpuInVm affinity with
  | none => exact ⟨W, h⟩
  | some v =>
    dsimp only
    cases hd : getVirqDesc V.chip v virq with
    | none => exact ⟨W, h⟩
    | some d => exact good_requestDesc _ _ _ h hd (hnull v hv d hd)

lemma good_requestVirq (enable : Bool) (h : s.Good V.chip sent L W)
    (hu : VmVirqs.Unlinked V.conf s virq) :
    ∃ W', (VmVirqs.requestVirq V.conf virq enable s).Good V.chip sent L W' := by
  rw [requestVirq_eq]
  refine good_requestVirqAffinity h fun v hv d hd => hu d ?_
  rw [getVcpuInVm_zero] at hv
  cases hv
  exact hd

lemma good_requestAll {virqs : List ℕ} (h : s.Good V.chip sent L W)
    (hu : ∀ virq ∈ virqs, VmVirqs.Unlinked V.conf s virq) :
    ∃ W', (virqs.foldl (fun s virq => VmVirqs.requestVirq V.conf virq false s) s).Good V.chip sent
      L W' := by
  induction virqs generalizing s W with
  | nil => exact ⟨W, h⟩
  | cons virq virqs ih =>
    obtain ⟨W', h'⟩ := good_requestVirq false h (hu virq (by simp))
    exact ih h' fun virq' hv => (hu virq' (List.mem_cons_of_mem _ hv)).requestVirq virq false

lemma good_requestPervcpu (vcpus : List ℕ) (h : s.Good V.chip sent L W)
    (hlow : virq < VM_LOCAL_VIRQ_NR)
    (hu : ∀ v ∈ vcpus, s.links.next (.inr (.priv v virq)) = .null) :
    ∃ W', (vcpus.foldl (V.requestPrivate virq wakeup enable) s).Good V.chip sent L W' := by
  induction vcpus generalizing s W with
  | nil => exact ⟨W, h⟩
  | cons v vcpus ih =>
    have hd : getVirqDesc V.chip v virq = some (.priv v virq) := if_pos hlow
    obtain ⟨W', h'⟩ := good_requestDesc 0 wakeup enable h hd (hu v (by simp))
    refine ih (h'.keep (d := .priv v virq) trivial rfl rfl rfl) fun w hw => ?_
    show Function.update s.links.next (.inr (.priv v virq)) .null (.inr (.priv w virq)) = .null
    by_cases hwv : w = v
    · rw [hwv, Function.update_self]
    · rw [Function.update_of_ne (by simpa using hwv)]
      exact hu w (List.mem_cons_of_mem _ hw)

lemma good_allocVmVirq (h : s.Good V.chip sent L W) :
    ∃ W', (VmVirqs.allocVmVirq V.conf s).Good V.chip sent L W' := by
  simp only [VmVirqs.allocVmVirq]
  split_ifs with hle
  · exact ⟨W, h⟩
  · have hlt := not_le.1 hle
    exact good_requestVirq true h (h.lists.unlinked_of_zero hlt (findNextZeroBitLoop_prop hlt))

lemma good_releaseVmVirq (h : s.Good V.chip sent L W)
    (hu : VM_LOCAL_VIRQ_NR ≤ virq → VmVirqs.Unlinked V.conf s virq) :
    ∃ W', (VmVirqs.releaseVmVirq V.conf virq s).Good V.chip sent L W' := by
  have hlists := h.lists.releaseVmVirq hu
  simp only [VmVirqs.releaseVmVirq] at hlists ⊢
  by_cases hout : virq < VM_LOCAL_VIRQ_NR ∨ V.conf.chip.vspiNr ≤ virq - VM_LOCAL_VIRQ_NR
  · rw [if_pos hout]
    exact ⟨W, h⟩
  · rw [if_neg hout] at hlists ⊢
    rw [not_or, not_lt, not_le] at hout
    have hnull := hu hout.1 _ (VmVirqs.getVirqDesc_spi 0 hout.1 hout.2)
    have hdesc : Function.update s.descs (.spi (virq - VM_LOCAL_VIRQ_NR)) VirqDesc.zero
        (.spi (virq - VM_LOCAL_VIRQ_NR)) = VirqDesc.zero := Function.update_self _ _ _
    refine ⟨_, h.renew hnull hlists (fun _ => rfl) (fun e hed => Function.update_of_ne hed _ _)
      (fun e hed => requested_update rfl hed) ?_ (fun hreq => ?_) fun _ => hdesc⟩
    · exact congrArg VirqDesc.pending hdesc
    · simp only [VmVirqs.Requested, clearBit, Function.update_self] at hreq
      cases hreq

end Requests

/-! ### Sends -/

section Sends

variable {stat : VmStat} {src : ℕ} {sent : VirqRef ℕ → Option ℕ} {s : VmVirqs ℕ}
  {L : VirqList × ℕ → List (VirqRef ℕ)} {W : View ℕ}

lemma refused_neg {n : ℤ} (hn : 0 < n) : Refused (-n, s) s := ⟨neg_lt_zero.2 hn, rfl⟩

/-- Nothing refuses a descriptor that is not requested but the state of the VM. -/
lemma refused_iff (v src : ℕ) (hzero : s.descs d = VirqDesc.zero) :
    Refused (VirqVm.sendVirq stat v d src s) s ↔ stat ≠ .online := by
  cases stat with
  | offline => exact iff_of_true (refused_neg (n := EINVAL) (by decide)) nofun
  | online => exact iff_of_false (fun h => absurd h.1 (by simp [VirqVm.sendVirq])) (by simp)
  | suspend =>
    rw [VirqVm.sendVirq, hzero]
    exact iff_of_true (refused_neg (n := EAGAIN) (by decide)) nofun
  | reboot => exact iff_of_true (refused_neg (n := EINVAL) (by decide)) nofun

/-- A descriptor filled with zeros is sent to the first vcpu. -/
lemma sendVirqToVm_zero (hlow : VM_LOCAL_VIRQ_NR ≤ virq)
    (hd : getVirqDesc V.chip 0 virq = some d) (hzero : s.descs d = VirqDesc.zero) :
    V.sendVirqToVm stat virq src s = VirqVm.sendVirq stat 0 d src s := by
  rw [VirqVm.sendVirqToVm, if_neg (not_lt.2 hlow), hd]
  simp only [hzero, VirqDesc.zero, Bool.false_eq_true, if_false, getVcpuInVm_zero]

lemma good_sendVirq (h : s.Good V.chip sent L W) (hd : stat = .online → s.Requested d) :
    ∃ L' W', (VirqVm.sendVirq stat v d src s).2.Good V.chip
      (if (VirqVm.sendVirq stat v d src s).1 = 0 then Function.update sent d (some d.number)
        else sent) L' W' := by
  by_cases hreq : s.Requested d
  · rw [VirqVm.sendVirq]
    by_cases hoff : stat = .offline ∨ stat = .reboot
    · rw [if_pos hoff, if_neg (refused_neg (n := EINVAL) (s := s) (by decide)).1.ne]
      exact ⟨L, W, h⟩
    · rw [if_neg hoff]
      by_cases hsleep : stat = .suspend ∧ !(s.descs d).canWakeup
      · rw [if_pos hsleep, if_neg (refused_neg (n := EAGAIN) (s := s) (by decide)).1.ne]
        exact ⟨L, W, h⟩
      · rw [if_neg hsleep, if_pos rfl]
        exact h.sendVirq hreq src
  · have hrefused := (refused_iff v src (h.known.zero d hreq)).2 (mt hd hreq)
    rw [if_neg hrefused.1.ne, hrefused.2]
    exact ⟨L, W, h⟩

end Sends

/-- The note of a send that found the descriptor `d`. -/
lemma note_ok {w : ℕ} {r : ℤ × VmVirqs ℕ} (hd : getVirqDesc V.chip w virq = some d)
    (h : ∃ L' W', r.2.Good V.chip
      (if r.1 = 0 then Function.update s.sent d (some d.number) else s.sent) L' W') :
    (s.note V w virq r).Ok V := by
  obtain ⟨L', W', h⟩ := h
  refine ⟨L', W', ?_⟩
  simp only [note, hd]
  rwa [number_of_getVirqDesc hd] at h

/-- A send that changes nothing and returns an error. -/
lemma Ok.note_refused (h : s.Ok V) {w : ℕ} {r : ℤ × VmVirqs ℕ} (hr : Refused r s.virqs) :
    (s.note V w virq r).Ok V := by
  obtain ⟨L, W, h⟩ := h
  refine ⟨L, W, ?_⟩
  simp only [note, if_neg hr.1.ne, hr.2]
  cases getVirqDesc V.chip w virq <;> exact h

lemma Ok.step (h : s.Ok V) (e : InjectEvent) (hu : s.Undisturbed V e)
    (hr : s.SendsRequested V e) : (s.step V e).Ok V := by
  have hok := h
  obtain ⟨L, W, h⟩ := h
  cases e with
  | sendVm stat virq src =>
    simp only [Injected.step, VirqVm.sendVirqToVm]
    split_ifs with hlow
    · exact hok.note_refused (refused_neg (by decide))
    · cases hd : getVirqDesc V.chip 0 virq with
      | none => exact hok.note_refused (refused_neg (by decide))
      | some d =>
        dsimp only
        split_ifs
        · exact hok.note_refused (refused_neg (by decide))
        · cases V.getVcpuInVm (s.virqs.descs d).vcpuId with
          | none => exact hok.note_refused (refused_neg (by decide))
          | some v => exact note_ok hd (good_sendVirq h fun hon => hr hon (not_lt.1 hlow) d hd)
  | sendVcpu stat v virq src =>
    simp only [Injected.step, VirqVm.sendVirqToVcpu]
    cases hd : getVirqDesc V.chip v virq with
    | none => exact hok.note_refused (refused_neg (by decide))
    | some d => exact note_ok hd (good_sendVirq h fun hon => hr hon d hd)
  | request virq hwirq affinity wakeup enable =>
    obtain ⟨W', h'⟩ := good_requestVirqAffinity h hu
    exact ⟨L, W', h'⟩
  | requestPervcpu virq wakeup enable =>
    simp only [Injected.step, VirqVm.requestVirqPervcpu]
    split_ifs with hlow
    · exact hok
    · obtain ⟨W', h'⟩ := good_requestPervcpu (List.range V.vcpuNr) h (not_le.1 hlow)
        fun v hv => hu (not_le.1 hlow) v (List.mem_range.1 hv)
      exact ⟨L, W', h'⟩
  | requestVm base nr =>
    simp only [Injected.step, VmVirqs.requestVmVirqs]
    split_ifs with hbad
    · exact hok
    · obtain ⟨W', h'⟩ := good_requestAll h (hu hbad)
      exact ⟨L, W', h'⟩
  | alloc =>
    obtain ⟨W', h'⟩ := good_allocVmVirq h
    exact ⟨L, W', h'⟩
  | release virq =>
    obtain ⟨W', h'⟩ := good_releaseVmVirq h hu
    exact ⟨L, W', h'⟩
  | enter v fuel => exact (h.enterLoop (h.lists.at_first _)).2
  | exit v fuel => exact (h.exitLoop (h.lists.at_first _)).2
  | hardware v states =>
    refine ⟨L, W, h.of_eq (h.lists.of_eq rfl rfl) rfl (fun w => ?_) rfl⟩
    by_cases hw : w = v
    · subst hw
      simp [Injected.step, VmVirqs.setVcpu]
    · simp [Injected.step, VmVirqs.setVcpu, hw]

/-! ### What is injected -/

/-- The accesses are as they should be in every state that the invariant holds of. -/
lemma Ok.accesses (h : s.Ok V) (e : InjectEvent) (w : ℕ) :
    ∀ a ∈ s.accesses V w e, VmVirqs.AccessOk V.chip w s.sent a := by
  obtain ⟨L, W, h⟩ := h
  cases e with
  | enter v fuel =>
    simp only [Injected.accesses]
    split_ifs with hw
    · exact hw ▸ (h.enterLoop (h.lists.at_first _)).1
    · exact List.forall_mem_nil _
  | exit v fuel =>
    simp only [Injected.accesses]
    split_ifs with hw
    · exact hw ▸ (h.exitLoop (h.lists.at_first _)).1
    · exact List.forall_mem_nil _
  | _ => exact List.forall_mem_nil _

/-- Numbers that are not requested are refused exactly if none of them is sent while the VM is
online. -/
lemma Ok.refuses_iff (h : s.Ok V) (e : InjectEvent) : s.Refuses V e ↔ s.SendsRequested V e := by
  obtain ⟨L, W, h⟩ := h
  cases e with
  | sendVm stat virq src =>
    simp only [Refuses, SendsRequested]
    by_cases hlow : virq < VM_LOCAL_VIRQ_NR
    · rw [VirqVm.sendVirqToVm, if_pos hlow]
      exact iff_of_true (fun _ => refused_neg (by decide)) fun _ hle => absurd hlow (not_lt.2 hle)
    · cases hd : getVirqDesc V.chip 0 virq with
      | none =>
        rw [VirqVm.sendVirqToVm, if_neg hlow, hd]
        exact iff_of_true (fun _ => refused_neg (by decide)) (by simp)
      | some d =>
        by_cases hreq : s.virqs.Requested d
        · simp [hreq]
        · have hzero := h.known.zero d hreq
          rw [sendVirqToVm_zero (not_lt.1 hlow) hd hzero, refused_iff _ _ hzero]
          simp [hreq, not_lt.1 hlow]
  | sendVcpu stat v virq src =>
    simp only [Refuses, SendsRequested, VirqVm.sendVirqToVcpu]
    cases hd : getVirqDesc V.chip v virq with
    | none => exact iff_of_true (fun _ => refused_neg (by decide)) (by simp)
    | some d =>
      by_cases hreq : s.virqs.Requested d
      · simp [hreq]
      · rw [refused_iff _ _ (h.known.zero d hreq)]
        simp [hreq]
  | _ => exact Iff.rfl

/-! ### Nothing else writes to a list register -/

lemma sendVirq_lrs {stat : VmStat} (src : ℕ) (s : VmVirqs ℕ) (w : ℕ) :
    ((VirqVm.sendVirq stat v d src s).2.vcpus w).lrs = (s.vcpus w).lrs := by
  simp only [VirqVm.sendVirq, VmVirqs.sendVirq]
  split_ifs
  · rfl
  · rfl
  · rfl
  · by_cases hw : w = v
    · subst hw
      simp [VmVirqs.enqueue, VmVirqs.setDesc, VmVirqs.setLinks, VmVirqs.setVcpu]
    · simp [VmVirqs.enqueue, VmVirqs.setDesc, VmVirqs.setLinks, VmVirqs.setVcpu, hw]
  · rfl

lemma vcpus_requestVirqAffinity {hwirq affinity : ℕ} {wakeup enable : Bool} (s : VmVirqs ℕ) :
    (V.requestVirqAffinity virq hwirq affinity wakeup enable s).2.vcpus = s.vcpus := by
  rw [VirqVm.requestVirqAffinity]
  cases V.getVcpuInVm affinity with
  | none => rfl
  | some v =>
    dsimp only
    cases getVirqDesc V.chip v virq <;> rfl

lemma vcpus_requestVirq (virq : ℕ) (enable : Bool) (s : VmVirqs ℕ) :
    (VmVirqs.requestVirq V.conf virq enable s).vcpus = s.vcpus := by
  rw [requestVirq_eq, vcpus_requestVirqAffinity]

lemma vcpus_foldl {α : Type} {f : VmVirqs ℕ → α → VmVirqs ℕ}
    (hf : ∀ s x, (f s x).vcpus = s.vcpus) (l : List α) (s : VmVirqs ℕ) :
    (l.foldl f s).vcpus = s.vcpus := by
  induction l generalizing s with
  | nil => rfl
  | cons x l ih => rw [List.foldl_cons, ih, hf]

/-- The list registers change through the accesses, and through the hardware. -/
theorem step_lrs (s : Injected) (e : InjectEvent) (w : ℕ)
    (he : ∀ v states, e ≠ .hardware v states) :
    ((s.step V e).virqs.vcpus w).lrs =
      (s.accesses V w e).foldl (LrAccess.apply V.chip) (s.virqs.vcpus w).lrs := by
  cases e with
  | sendVm stat virq src =>
    simp only [Injected.step, note, VirqVm.sendVirqToVm]
    split_ifs
    · rfl
    · cases getVirqDesc V.chip 0 virq with
      | none => rfl
      | some d =>
        dsimp only
        split_ifs
        · rfl
        · cases V.getVcpuInVm (s.virqs.descs d).vcpuId with
          | none => rfl
          | some v => exact sendVirq_lrs src s.virqs w
  | sendVcpu stat v virq src =>
    simp only [Injected.step, note, VirqVm.sendVirqToVcpu]
    cases getVirqDesc V.chip v virq with
    | none => rfl
    | some d => exact sendVirq_lrs src s.virqs w
  | request virq hwirq affinity wakeup enable =>
    exact congrArg (fun vcpus => (vcpus w).lrs) (vcpus_requestVirqAffinity s.virqs)
  | requestPervcpu virq wakeup enable =>
    simp only [Injected.step, VirqVm.requestVirqPervcpu]
    split_ifs
    · rfl
    · exact congrArg (fun vcpus => (vcpus w).lrs) 
        (vcpus_foldl (f := V.requestPrivate virq wakeup enable) (fun _ _ => rfl) _ s.virqs)
  | requestVm base nr =>
    simp only [Injected.step, VmVirqs.requestVmVirqs]
    split_ifs
    · rfl
    · exact congrArg (fun vcpus => (vcpus w).lrs)
        (vcpus_foldl (fun s virq => vcpus_requestVirq virq false s) _ s.virqs)
  | alloc =>
    simp only [Injected.step, VmVirqs.allocVmVirq]
    split_ifs
    · rfl
    · exact congrArg (fun vcpus => (vcpus w).lrs) (vcpus_requestVirq _ true s.virqs)
  | release virq =>
    simp only [Injected.step, VmVirqs.releaseVmVirq]
    split_ifs <;> rfl
  | enter v fuel =>
    simp only [Injected.accesses]
    split_ifs with hw
    · exact hw ▸ VmVirqs.enterLoop_lrs _ _ _
    · exact congrArg VcpuVirqs.lrs (VmVirqs.vcpus_enterLoop hw _ _ _)
  | exit v fuel =>
    simp only [Injected.accesses]
    split_ifs with hw
    · exact hw ▸ VmVirqs.exitLoop_lrs _ _ _
    · exact congrArg VcpuVirqs.lrs (VmVirqs.vcpus_exitLoop hw _ _ _)
  | hardware v states => exact absurd rfl (he v states)

lemma Injects.all_requested {e : InjectEvent} (h : s.Injects V e) (w : ℕ) :
    (s.accesses V w e).all fun a => decide (a.state.Requested a.desc) :=
  List.all_eq_true.2 fun a ha => decide_eq_true (h.1 w a ha).requested

end Injected

/-- As long as what is requested or released is on no list, only requested interrupts are injected
exactly if what is sent while the VM is online is requested. -/
theorem injects_requested (V : VirqVm) (es : List InjectEvent)
    (hes : Along (Injected.step V) (Injected.Undisturbed V) .init es) :
    Along (Injected.step V) (Injected.Injects V) .init es ↔
      Along (Injected.step V) (Injected.SendsRequested V) .init es :=
  along_iff (I := Injected.Ok V)
    (fun _ e h _ => (and_iff_right fun w => h.accesses e w).trans (h.refuses_iff e))
    (fun _ e h hu hr => h.step e hu hr) Injected.init_ok hes

/-- A guest VM with one vcpu and four list registers. -/
def oneVcpu : VirqVm := ⟨smallVm.chip, 1, 1, Nat.one_pos⟩

/-- Interrupts are allocated, sent and handled, and released after it. -/
def carefulRun : List InjectEvent :=
  [.alloc, .requestVm 64 2, .sendVm .online 65 0, .sendVm .online 32 0, .enter 0 4,
    .hardware 0 fun _ => .inactive, .exit 0 4, .release 32, .sendVm .suspend 32 0]

theorem injects_requested_careful :
    Along (Injected.step oneVcpu) (Injected.Undisturbed oneVcpu) .init carefulRun ∧
      Along (Injected.step oneVcpu) (Injected.Injects oneVcpu) .init carefulRun := by
  have hes : Along (Injected.step oneVcpu) (Injected.Undisturbed oneVcpu) .init carefulRun := by
    decide +kernel
  exact ⟨hes, (injects_requested oneVcpu carefulRun hes).2 (by decide +kernel)⟩

/-- The SPI 65 is in the first list register when 40 is sent, which nobody requested. -/
def carelessRun : List InjectEvent :=
  [.requestVm 64 2, .sendVm .online 65 0, .enter 0 4, .sendVm .online 40 0]

/-- The number that is not requested is accepted, and goes to the list register of another interrupt
with the number zero. An interrupt that is released while it is pending is still on the list at the
next entry. -/
theorem injects_unrequested :
    ¬ Along (Injected.step oneVcpu) (Injected.Injects oneVcpu) .init carelessRun ∧
    (((exec (Injected.step oneVcpu) .init carelessRun).virqs.vcpus 0).lrs 0).vid = 65 ∧
    (((exec (Injected.step oneVcpu) .init (carelessRun ++ [.enter 0 4])).virqs.vcpus 0).lrs 0).vid =
      0 ∧
    ¬ Along (Injected.step oneVcpu) (Injected.Injects oneVcpu) .init
      [.alloc, .sendVm .online 32 0, .release 32, .enter 0 4] := by
  refine ⟨fun h => ?_, by decide +kernel, by decide +kernel, fun h => ?_⟩
  · have hrefused := (h.2.2.2.1.2 (by decide +kernel)).1
    exact absurd hrefused (by decide +kernel)
  · have hall := h.2.2.2.1.all_requested 0
    exact absurd hall (by decide +kernel)

end Minos.Virq
