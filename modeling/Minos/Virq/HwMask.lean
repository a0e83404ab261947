import Mathlib
import Minos.Virq.Injection

/-!
# Hardware masks

A shared virq can be bound to a hardware irq, which `virt/virq.c` masks and unmasks together with
the enabled flag of the virq. The functions that do this have range tests of their own: enabling
and disabling leave out virq 32, and `virq_destroy_vm` takes the number of SPIs for a virq number.
-/

namespace Minos.Virq

open Run

def HVM_SPI_VIRQ_NR : ℕ := 384
def GVM_SPI_VIRQ_NR : ℕ := 64
def MAX_HVM_VIRQ : ℕ := HVM_SPI_VIRQ_NR + VM_LOCAL_VIRQ_NR
def MAX_GVM_VIRQ : ℕ := GVM_SPI_VIRQ_NR + VM_LOCAL_VIRQ_NR

/-- `VIRQ_SPI_NR(count)` -/
def virqSpiNr (count : ℕ) : ℕ := if VM_LOCAL_VIRQ_NR < count then count - VM_LOCAL_VIRQ_NR else 0

/-- The descriptors of a VM, and the mask bits of the hardware irqs. -/
structure HwIrqs where
  descs : VirqRef ℕ → VirqDesc
  masked : ℕ → Bool

namespace HwIrqs

def setDesc (s : HwIrqs) (d : VirqRef ℕ) (f : VirqDesc → VirqDesc) : HwIrqs :=
  { s with descs := Function.update s.descs d (f (s.descs d)) }

/-- `__irq_enable`; `irqExists` says for which irqs `get_irq_desc` finds a descriptor. -/
def setMask (irqExists : ℕ → Bool) (irq : ℕ) (mask : Bool) (s : HwIrqs) : HwIrqs :=
  if irqExists irq then { s with masked := Function.update s.masked irq mask } else s

end HwIrqs

/-- `irq_mask` -/
def irqMask (irqExists : ℕ → Bool) (irq : ℕ) (s : HwIrqs) : HwIrqs := s.setMask irqExists irq true

/-- `irq_unmask`, and what `request_irq` does to the mask -/
def irqUnmask (irqExists : ℕ → Bool) (irq : ℕ) (s : HwIrqs) : HwIrqs :=
  s.setMask irqExists irq false

section Model

variable (V : VirqVm) (irqExists : ℕ → Bool)

/-- `virq_enable` -/
def virqEnableHw (v virq : ℕ) (s : HwIrqs) : ℤ × HwIrqs :=
  match getVirqDesc V.chip v virq with
  | none => (- ENOENT, s)
  | some d =>
    let s := s.setDesc d fun desc => { desc with enabled := true }
    (0, if virq > VM_LOCAL_VIRQ_NR ∧ (s.descs d).hw then irqUnmask irqExists (s.descs d).hno s
      else s)

/-- `virq_disable` -/
def virqDisableHw (v virq : ℕ) (s : HwIrqs) : ℤ × HwIrqs :=
  match getVirqDesc V.chip v virq with
  | none => (- ENOENT, s)
  | some d =>
    let s := s.setDesc d fun desc => { desc with enabled := false }
    (0, if virq > VM_LOCAL_VIRQ_NR ∧ (s.descs d).hw then irqMask irqExists (s.descs d).hno s
      else s)

/-- `update_virq_cap` -/
def updateVirqCap (d : VirqRef ℕ) (wakeup enable : Bool) (s : HwIrqs) : HwIrqs :=
  let s := if wakeup then s.setDesc d fun desc => { desc with canWakeup := true } else s
  if enable then
    let s := s.setDesc d fun desc => { desc with enabled := true }
    if (s.descs d).hw then irqUnmask irqExists (s.descs d).hno s else s
  else s

/-- `__request_virq`; the numbers in the descriptor have 16 bits. -/
def requestDescHw (v virq hwirq : ℕ) (wakeup enable : Bool) (d : VirqRef ℕ) (s : HwIrqs) : HwIrqs :=
  let s := s.setDesc d fun desc => { desc with
    vno := virq % 2 ^ 16
    hno := hwirq % 2 ^ 16
    vcpuId := v
    pr := 0xa0
    vmid := V.vmid
    id := VIRQ_INVALID_ID
    linked := false
    state := .inactive
    enabled := false }
  let s :=
    if hwirq ≠ 0 then
      let s := irqUnmask irqExists hwirq (s.setDesc d fun desc => { desc with hw := true })
      irqMask irqExists (s.descs d).hno s
    else s.setDesc d fun desc => { desc with hw := false }
  updateVirqCap irqExists d wakeup enable s

/-- `request_virq_affinity` -/
def requestVirqAffinityHw (virq hwirq affinity : ℕ) (wakeup enable : Bool) (s : HwIrqs) :
    ℤ × HwIrqs :=
  match V.getVcpuInVm affinity with
  | none => (- EINVAL, s)
  | some v =>
    match getVirqDesc V.chip v virq with
    | none => (- ENOENT, s)
    | some d => (0, requestDescHw V irqExists v virq hwirq wakeup enable d s)

/-- `request_hw_virq`, and `request_virq` when `hwirq` is 0 -/
def requestHwVirq (virq hwirq : ℕ) (wakeup enable : Bool) (s : HwIrqs) : ℤ × HwIrqs :=
  let max := if V.vmid = 0 then MAX_HVM_VIRQ else MAX_GVM_VIRQ
  if max ≤ virq then (- EINVAL, s)
  else requestVirqAffinityHw V irqExists virq hwirq 0 wakeup enable s

/-- What `vm_virq_reset` does for one SPI. -/
def resetSpi (s : HwIrqs) (i : ℕ) : HwIrqs :=
  let s := s.setDesc (.spi i) fun desc => { desc with
    enabled := false
    pending := false
    pr := 0xa0
    id := VIRQ_INVALID_ID
    state := .inactive
    linked := false }
  if (s.descs (.spi i)).hw then irqMask irqExists (s.descs (.spi i)).hno s else s

/-- `vm_virq_reset` -/
def vmVirqReset (s : HwIrqs) : HwIrqs := (List.range V.chip.vspiNr).foldl (resetSpi irqExists) s

/-- What `virq_destroy_vm` does for one SPI. -/
def destroySpi (s : HwIrqs) (i : ℕ) : HwIrqs :=
  let desc := s.descs (.spi i)
  if desc.enabled ∧ desc.hw ∧ desc.hno > VM_LOCAL_VIRQ_NR then irqMask irqExists desc.hno s else s

/-- `virq_destroy_vm`, up to the release of the descriptors -/
def virqDestroyVm (s : HwIrqs) : HwIrqs :=
  (List.range (virqSpiNr V.chip.vspiNr)).foldl (destroySpi irqExists) s

/-! ### Runs -/

inductive HwIrqEvent where
  | enable (v virq : ℕ)
  | disable (v virq : ℕ)
  | request (virq hwirq affinity : ℕ) (wakeup enable : Bool)
  | requestHw (virq hwirq : ℕ) (wakeup enable : Bool)
  | reset

def hwIrqStep (s : HwIrqs) : HwIrqEvent → HwIrqs
  | .enable v virq => (virqEnableHw V irqExists v virq s).2
  | .disable v virq => (virqDisableHw V irqExists v virq s).2
  | .request virq hwirq affinity wakeup enable =>
    (requestVirqAffinityHw V irqExists virq hwirq affinity wakeup enable s).2
  | .requestHw virq hwirq wakeup enable =>
    (requestHwVirq V irqExists virq hwirq wakeup enable s).2
  | .reset => vmVirqReset V irqExists s

/-- A new VM: the SPIs are zero, and the masks of the hardware as they are. -/
def newIrqs (masked : ℕ → Bool) (s : VirqRef ℕ → VirqDesc) : HwIrqs :=
  ⟨fun d => match d with
    | .priv v i => s (.priv v i)
    | .spi _ => VirqDesc.zero, masked⟩

/-- SPI `n` is bound to the hardware irq `hno`. -/
def Bound (s : HwIrqs) (n hno : ℕ) : Prop :=
  n < V.chip.vspiNr ∧ (s.descs (.spi n)).hw = true ∧ (s.descs (.spi n)).hno = hno ∧
    irqExists hno = true

instance (s : HwIrqs) (n hno : ℕ) : Decidable (Bound V irqExists s n hno) :=
  inferInstanceAs (Decidable (_ ∧ _ ∧ _ ∧ _))

/-- The hardware irq of every SPI is unmasked just when the SPI is enabled. -/
def MaskFollows (s : HwIrqs) : Prop :=
  ∀ n hno, Bound V irqExists s n hno →
    (s.masked hno = false ↔ (s.descs (.spi n)).enabled = true)

/-- Every hardware irq of an SPI is masked. -/
def AllMasked (s : HwIrqs) : Prop :=
  ∀ n hno, Bound V irqExists s n hno → s.masked hno = true

/-! ### When the mask follows -/

/-- The other SPIs that are bound to `hno` have the flag `b`. -/
def OthersHave (s : HwIrqs) (d : VirqRef ℕ) (hno : ℕ) (b : Bool) : Prop :=
  ∀ m, d ≠ .spi m → Bound V irqExists s m hno → (s.descs (.spi m)).enabled = b

/-- Setting the flag of a virq to `b` sets the mask of its irq: virq 32 is left out, so its flag has
to be `b` already, and the irq is not shared with an SPI whose flag is not `b`. -/
def FlagSeen (s : HwIrqs) (v virq : ℕ) (b : Bool) : Prop :=
  ∀ n hno, getVirqDesc V.chip v virq = some (.spi n) → Bound V irqExists s n hno →
    if virq = VM_LOCAL_VIRQ_NR then (s.descs (.spi n)).enabled = b
    else OthersHave V irqExists s (.spi n) hno b

/-- A request binds an irq that is not shared with an SPI whose flag is another one. -/
def RequestSeen (s : HwIrqs) (v virq hwirq : ℕ) (enable : Bool) : Prop :=
  ∀ d, getVirqDesc V.chip v virq = some d → hwirq ≠ 0 →
    OthersHave V irqExists s d (hwirq % 2 ^ 16) enable

/-- After the event the mask of every irq is as the flag of its SPIs says. -/
def HwIrqEvent.Seen (s : HwIrqs) : HwIrqEvent → Prop
  | .enable v virq => FlagSeen V irqExists s v virq true
  | .disable v virq => FlagSeen V irqExists s v virq false
  | .request virq hwirq affinity _ on =>
    affinity < V.vcpuNr → RequestSeen V irqExists s affinity virq hwirq on
  | .requestHw virq hwirq _ on =>
    virq < (if V.vmid = 0 then MAX_HVM_VIRQ else MAX_GVM_VIRQ) →
      RequestSeen V irqExists s 0 virq hwirq on
  | .reset => True

/-- Every SPI that is enabled is one of those that `virq_destroy_vm` looks at, or shares its irq
with one, and the irq is above 32. -/
def DestroySees (s : HwIrqs) : Prop :=
  ∀ n hno, Bound V irqExists s n hno → (s.descs (.spi n)).enabled = true →
    VM_LOCAL_VIRQ_NR < hno ∧ ∃ i < virqSpiNr V.chip.vspiNr, (s.descs (.spi i)).enabled = true ∧
      (s.descs (.spi i)).hw = true ∧ (s.descs (.spi i)).hno = hno

/-- The number of an irq in a descriptor has 16 bits. -/
def HnoFits (s : HwIrqs) : Prop := ∀ n, (s.descs (.spi n)).hno < 2 ^ 16

/-! ### Setting the flag -/

/-- What `virq_enable` and `virq_disable` do. -/
def setFlag (virq : ℕ) (b : Bool) (d : VirqRef ℕ) (s : HwIrqs) : HwIrqs :=
  let s := s.setDesc d fun desc => { desc with enabled := b }
  if virq > VM_LOCAL_VIRQ_NR ∧ (s.descs d).hw then s.setMask irqExists (s.descs d).hno (!b) else s

variable {V irqExists} {s : HwIrqs}

lemma virqEnableHw_eq {v virq : ℕ} {d : VirqRef ℕ} (h : getVirqDesc V.chip v virq = some d) :
    (virqEnableHw V irqExists v virq s).2 = setFlag irqExists virq true d s := by
  simp only [virqEnableHw, h]
  rfl

lemma virqDisableHw_eq {v virq : ℕ} {d : VirqRef ℕ} (h : getVirqDesc V.chip v virq = some d) :
    (virqDisableHw V irqExists v virq s).2 = setFlag irqExists virq false d s := by
  simp only [virqDisableHw, h]
  rfl

lemma getVirqDesc_spi {v virq n : ℕ} (h : getVirqDesc V.chip v virq = some (.spi n)) :
    virq = n + VM_LOCAL_VIRQ_NR ∧ n < V.chip.vspiNr := by
  unfold getVirqDesc at h
  split_ifs at h with h₁ h₂
  · simp at h
  · simp only [Option.some.injEq, VirqRef.spi.injEq] at h
    unfold VM_LOCAL_VIRQ_NR at *
    omega

lemma getVirqDesc_priv {v virq w i : ℕ} (h : getVirqDesc V.chip v virq = some (.priv w i)) :
    virq < VM_LOCAL_VIRQ_NR := by
  unfold getVirqDesc at h
  split_ifs at h with h₁ h₂
  · exact h₁
  · simp at h

lemma setFlag_descs (virq : ℕ) (b : Bool) (d : VirqRef ℕ) :
    (setFlag irqExists virq b d s).descs =
      Function.update s.descs d { s.descs d with enabled := b } := by
  unfold setFlag HwIrqs.setMask
  dsimp only
  split_ifs <;> rfl

lemma setFlag_masked (virq : ℕ) (b : Bool) (d : VirqRef ℕ) (k : ℕ) :
    (setFlag irqExists virq b d s).masked k =
      if virq > VM_LOCAL_VIRQ_NR ∧ (s.descs d).hw = true ∧ irqExists k = true ∧
        k = (s.descs d).hno then !b else s.masked k := by
  have hhw : ((s.setDesc d fun desc => { desc with enabled := b }).descs d).hw =
      (s.descs d).hw := by
    simp [HwIrqs.setDesc]
  have hhno : ((s.setDesc d fun desc => { desc with enabled := b }).descs d).hno =
      (s.descs d).hno := by
    simp [HwIrqs.setDesc]
  unfold setFlag HwIrqs.setMask
  dsimp only
  rw [hhw, hhno]
  by_cases hk : k = (s.descs d).hno
  · subst hk
    split_ifs <;> simp_all [HwIrqs.setDesc]
  · split_ifs <;> simp_all [HwIrqs.setDesc]

lemma bound_setFlag (virq : ℕ) (b : Bool) (d : VirqRef ℕ) (n hno : ℕ) :
    Bound V irqExists (setFlag irqExists virq b d s) n hno ↔ Bound V irqExists s n hno := by
  unfold Bound
  rw [setFlag_descs]
  by_cases h : VirqRef.spi n = d
  · subst h
    simp
  · rw [Function.update_of_ne h]

/-- Setting the flag of an SPI keeps the mask in step when the irq is seen, and only then. -/
lemma maskFollows_setFlag_iff (h : MaskFollows V irqExists s) {v virq : ℕ} {b : Bool}
    {d : VirqRef ℕ} (hd : getVirqDesc V.chip v virq = some d) :
    MaskFollows V irqExists (setFlag irqExists virq b d s) ↔ FlagSeen V irqExists s v virq b := by
  cases d with
  | priv w i =>
    have hlt := getVirqDesc_priv hd
    have hmasked : ∀ k, (setFlag irqExists virq b (.priv w i) s).masked k = s.masked k := by
      intro k
      rw [setFlag_masked, if_neg (by omega)]
    refine iff_of_true (fun n hno hbound => ?_) (fun n hno hspi _ => ?_)
    · rw [bound_setFlag] at hbound
      rw [hmasked, setFlag_descs, Function.update_of_ne (by simp)]
      exact h n hno hbound
    · simp [hd] at hspi
  | spi n =>
    obtain ⟨hvirq, hn⟩ := getVirqDesc_spi hd
    have hself : ((setFlag irqExists virq b (.spi n) s).descs (.spi n)).enabled = b := by
      rw [setFlag_descs, Function.update_self]
    have hother : ∀ m, (VirqRef.spi n : VirqRef ℕ) ≠ .spi m →
        ((setFlag irqExists virq b (.spi n) s).descs (.spi m)).enabled =
          (s.descs (.spi m)).enabled := by
      intro m hne
      rw [setFlag_descs, Function.update_of_ne (Ne.symm hne)]
    constructor
    · intro h' n' hno hspi hbound
      obtain rfl : n = n' := by simpa [hd] using hspi
      have hmask : (setFlag irqExists virq b (.spi n) s).masked hno = _ :=
        setFlag_masked virq b (.spi n) hno
      split_ifs with h32
      · rw [if_neg (by omega)] at hmask
        have h₁ := h' n hno (by rw [bound_setFlag]; exact hbound)
        have h₂ := h n hno hbound
        rw [hself, hmask, h₂] at h₁
        exact Bool.eq_iff_iff.2 h₁
      · intro m hne hbound'
        rw [if_pos ⟨by omega, hbound.2.1, hbound.2.2.2, hbound.2.2.1.symm⟩] at hmask
        have h₁ := h' m hno (by rw [bound_setFlag]; exact hbound')
        rw [hother m hne, hmask, Bool.not_eq_false'] at h₁
        exact (Bool.eq_iff_iff.2 h₁).symm
    · intro hseen m hno hbound
      rw [bound_setFlag] at hbound
      rw [setFlag_masked]
      by_cases hm : (VirqRef.spi n : VirqRef ℕ) = .spi m
      · obtain rfl : n = m := by simpa using hm
        have hs := hseen n hno hd hbound
        rw [hself]
        by_cases h32 : virq = VM_LOCAL_VIRQ_NR
        · rw [if_pos h32] at hs
          rw [if_neg (by omega), h n hno hbound, hs]
        · rw [if_pos ⟨by omega, hbound.2.1, hbound.2.2.2, hbound.2.2.1.symm⟩, Bool.not_eq_false']
      · rw [hother m hm]
        split_ifs with hop
        · obtain ⟨hgt, hhw, hex, hk⟩ := hop
          have hs := hseen n hno hd ⟨hn, hhw, hk.symm, hex⟩
          rw [if_neg (by omega)] at hs
          rw [hs m hm hbound, Bool.not_eq_false']
        · exact h m hno hbound

/-! ### Requests -/

lemma setDesc_descs_self (d : VirqRef ℕ) (f : VirqDesc → VirqDesc) :
    (s.setDesc d f).descs d = f (s.descs d) := by
  simp [HwIrqs.setDesc]

lemma setDesc_descs_of_ne {d d' : VirqRef ℕ} (h : d' ≠ d) (f : VirqDesc → VirqDesc) :
    (s.setDesc d f).descs d' = s.descs d' := by
  simp [HwIrqs.setDesc, h]

@[simp]
lemma setDesc_masked (d : VirqRef ℕ) (f : VirqDesc → VirqDesc) :
    (s.setDesc d f).masked = s.masked := rfl

@[simp]
lemma setMask_descs (irq : ℕ) (mask : Bool) : (s.setMask irqExists irq mask).descs = s.descs := by
  unfold HwIrqs.setMask
  split_ifs <;> rfl

lemma setMask_masked (irq : ℕ) (mask : Bool) (k : ℕ) :
    (s.setMask irqExists irq mask).masked k =
      if irqExists k = true ∧ k = irq then mask else s.masked k := by
  unfold HwIrqs.setMask
  by_cases hk : k = irq
  · subst hk
    cases irqExists k <;> simp
  · have hne : ¬(irqExists k = true ∧ k = irq) := fun h => hk h.2
    rw [if_neg hne]
    split_ifs
    · exact Function.update_of_ne hk mask s.masked
    · rfl

section Cap

variable (wakeup b : Bool) (d : VirqRef ℕ)

variable (irqExists) in
/-- What `update_virq_cap` changes of the descriptor that matters to the masks: the flag. -/
lemma updateVirqCap_descs :
    ((updateVirqCap irqExists d wakeup b s).descs d).hw = (s.descs d).hw ∧
      ((updateVirqCap irqExists d wakeup b s).descs d).hno = (s.descs d).hno ∧
      ((updateVirqCap irqExists d wakeup b s).descs d).enabled = ((s.descs d).enabled || b) ∧
      ∀ d', d' ≠ d → (updateVirqCap irqExists d wakeup b s).descs d' = s.descs d' := by
  unfold updateVirqCap irqUnmask
  cases wakeup <;> cases b <;> dsimp only
  · simp
  · rw [if_pos rfl]
    split_ifs <;> simp +contextual [setDesc_descs_self, setDesc_descs_of_ne]
  · simp +contextual [setDesc_descs_self, setDesc_descs_of_ne]
  · rw [if_pos rfl, if_pos rfl]
    split_ifs <;> simp +contextual [setDesc_descs_self, setDesc_descs_of_ne]

lemma updateVirqCap_masked (k : ℕ) :
    (updateVirqCap irqExists d wakeup b s).masked k =
      if b = true ∧ (s.descs d).hw = true ∧ irqExists k = true ∧ k = (s.descs d).hno then false
      else s.masked k := by
  unfold updateVirqCap irqUnmask
  by_cases hhw : (s.descs d).hw = true
  · cases wakeup <;> cases b <;> simp [setDesc_descs_self, setMask_masked, hhw]
  · cases wakeup <;> cases b <;> simp [setDesc_descs_self, hhw]

end Cap

variable (V irqExists s) in
/-- The descriptors after a request. -/
lemma requestDescHw_descs (v virq hwirq : ℕ) (wakeup b : Bool) (d : VirqRef ℕ) :
    ((requestDescHw V irqExists v virq hwirq wakeup b d s).descs d).hw = decide (hwirq ≠ 0) ∧
      ((requestDescHw V irqExists v virq hwirq wakeup b d s).descs d).hno = hwirq % 2 ^ 16 ∧
      ((requestDescHw V irqExists v virq hwirq wakeup b d s).descs d).enabled = b ∧
      ∀ d', d' ≠ d → (requestDescHw V irqExists v virq hwirq wakeup b d s).descs d' =
        s.descs d' := by
  unfold requestDescHw
  dsimp only
  obtain ⟨hhw, hhno, hen, hother⟩ := updateVirqCap_descs irqExists wakeup b d
  refine ⟨hhw.trans ?_, hhno.trans ?_, hen.trans ?_, fun d' hne => (hother d' hne).trans ?_⟩
  all_goals split_ifs with h0
  all_goals simp [h0, setDesc_descs_self, irqMask, irqUnmask]
  all_goals rw [setDesc_descs_of_ne hne, setDesc_descs_of_ne hne]

lemma requestDescHw_masked (v virq hwirq : ℕ) (wakeup b : Bool) (d : VirqRef ℕ) {k : ℕ}
    (hk : k < 2 ^ 16) :
    (requestDescHw V irqExists v virq hwirq wakeup b d s).masked k =
      if hwirq ≠ 0 ∧ irqExists k = true ∧ k = hwirq % 2 ^ 16 then !b else s.masked k := by
  unfold requestDescHw
  dsimp only
  rw [updateVirqCap_masked]
  by_cases h0 : hwirq = 0
  · simp [h0, setDesc_descs_self]
  · simp only [h0, irqMask, irqUnmask, ne_eq, not_false_eq_true, if_true, setMask_descs,
      setDesc_descs_self, setMask_masked, setDesc_masked, true_and]
    by_cases hop : irqExists k = true ∧ k = hwirq % 2 ^ 16
    · rw [if_pos hop, if_pos hop]
      cases b
      · rw [if_neg (by simp)]
        rfl
      · rw [if_pos ⟨rfl, hop⟩]
        rfl
    · -- the irq that is unmasked first is the one of the descriptor, or has more than 16 bits
      have hraw : ¬(irqExists k = true ∧ k = hwirq) := by
        rintro ⟨hex, rfl⟩
        exact hop ⟨hex, (Nat.mod_eq_of_lt hk).symm⟩
      rw [if_neg fun h => hop h.2, if_neg hop, if_neg hraw, if_neg hop]

/-- A request keeps the mask in step when no other SPI has the irq with another flag, and only
then. -/
lemma maskFollows_request_iff (h : MaskFollows V irqExists s) (hfits : HnoFits s)
    {v virq hwirq : ℕ} {wakeup b : Bool} {d : VirqRef ℕ}
    (hd : getVirqDesc V.chip v virq = some d) :
    MaskFollows V irqExists (requestDescHw V irqExists v virq hwirq wakeup b d s) ↔
      RequestSeen V irqExists s v virq hwirq b := by
  obtain ⟨hhw, hhno, hen, hother⟩ :=
    requestDescHw_descs V irqExists s v virq hwirq wakeup b d
  have hbound : ∀ m hno, d ≠ .spi m →
      (Bound V irqExists (requestDescHw V irqExists v virq hwirq wakeup b d s) m hno ↔
        Bound V irqExists s m hno) := by
    intro m hno hne
    unfold Bound
    rw [hother _ (Ne.symm hne)]
  constructor
  · intro h' d' hd' h0 m hne hm
    obtain rfl : d = d' := by simpa [hd] using hd'
    have h₁ := h' m _ ((hbound m _ hne).2 hm)
    rw [requestDescHw_masked _ _ _ _ _ _ (Nat.mod_lt _ (by norm_num)),
      if_pos ⟨h0, hm.2.2.2, rfl⟩, hother _ (Ne.symm hne), Bool.not_eq_false'] at h₁
    exact (Bool.eq_iff_iff.2 h₁).symm
  · intro hseen m hno hm
    by_cases hne : d = .spi m
    · subst hne
      obtain ⟨-, hmhw, hmhno, hmex⟩ := hm
      rw [hhw, decide_eq_true_eq] at hmhw
      rw [hhno] at hmhno
      rw [hen, ← hmhno, requestDescHw_masked _ _ _ _ _ _ (Nat.mod_lt _ (by norm_num)),
        if_pos ⟨hmhw, hmhno ▸ hmex, rfl⟩, Bool.not_eq_false']
    · rw [hbound m hno hne] at hm
      have hk : hno < 2 ^ 16 := hm.2.2.1 ▸ hfits m
      rw [requestDescHw_masked _ _ _ _ _ _ hk, hother _ (Ne.symm hne)]
      split_ifs with hop
      · obtain ⟨h0, -, rfl⟩ := hop
        rw [hseen d hd h0 m hne hm, Bool.not_eq_false']
      · exact h m hno hm

/-! ### Resets and the end of a VM -/

variable (irqExists s) in
/-- What the loop of `vm_virq_reset` has done after `c` SPIs. -/
lemma resetSpi_foldl (c m : ℕ) :
    let s' := (List.range c).foldl (resetSpi irqExists) s
    (s'.descs (.spi m)).hw = (s.descs (.spi m)).hw ∧
      (s'.descs (.spi m)).hno = (s.descs (.spi m)).hno ∧
      (m < c → (s'.descs (.spi m)).enabled = false ∧
        ((s.descs (.spi m)).hw = true → irqExists (s.descs (.spi m)).hno = true →
          s'.masked (s.descs (.spi m)).hno = true)) := by
  induction c with
  | zero => simp
  | succ c ih =>
    obtain ⟨hhw, hhno, hdone⟩ := ih
    rw [List.range_succ, List.foldl_append]
    generalize (List.range c).foldl (resetSpi irqExists) s = t at hhw hhno hdone ⊢
    have hmask : ∀ k, t.masked k = true → (resetSpi irqExists t c).masked k = true := by
      intro k hk
      unfold resetSpi irqMask
      dsimp only
      split_ifs
      · rw [setMask_masked, setDesc_masked, hk, ite_self]
      · exact hk
    by_cases hm : m = c
    · subst hm
      simp only [List.foldl_cons, List.foldl_nil]
      unfold resetSpi irqMask
      dsimp only
      split_ifs with h
      all_goals simp_all [setDesc_descs_self, setMask_masked]
    · have hne : (VirqRef.spi m : VirqRef ℕ) ≠ .spi c := by simpa using hm
      have hdesc : (resetSpi irqExists t c).descs (.spi m) = t.descs (.spi m) := by
        unfold resetSpi irqMask
        dsimp only
        split_ifs
        · rw [setMask_descs, setDesc_descs_of_ne hne]
        · rw [setDesc_descs_of_ne hne]
      simp only [List.foldl_cons, List.foldl_nil]
      rw [hdesc]
      exact ⟨hhw, hhno, fun hlt =>
        ⟨(hdone (by omega)).1, fun h₁ h₂ => hmask _ ((hdone (by omega)).2 h₁ h₂)⟩⟩

/-- A reset disables and masks every SPI. -/
lemma maskFollows_reset : MaskFollows V irqExists (vmVirqReset V irqExists s) := by
  rintro n hno ⟨hn, hhw, rfl, hex⟩
  obtain ⟨hhw', hhno', hdone⟩ := resetSpi_foldl irqExists s V.chip.vspiNr n
  unfold vmVirqReset at *
  rw [hhw'] at hhw
  rw [hhno'] at hex ⊢
  rw [(hdone hn).1, (hdone hn).2 hhw hex]
  simp

variable (irqExists s) in
/-- The loop of `virq_destroy_vm` masks what it looks at. -/
lemma destroySpi_foldl (c : ℕ) :
    ((List.range c).foldl (destroySpi irqExists) s).descs = s.descs ∧
      ∀ k, ((List.range c).foldl (destroySpi irqExists) s).masked k = true ↔
        s.masked k = true ∨ (irqExists k = true ∧ VM_LOCAL_VIRQ_NR < k ∧
          ∃ i < c, (s.descs (.spi i)).enabled = true ∧ (s.descs (.spi i)).hw = true ∧
            (s.descs (.spi i)).hno = k) := by
  induction c with
  | zero => simp
  | succ c ih =>
    obtain ⟨hdescs, hmasked⟩ := ih
    rw [List.range_succ, List.foldl_append]
    generalize (List.range c).foldl (destroySpi irqExists) s = t at hdescs hmasked ⊢
    simp only [List.foldl_cons, List.foldl_nil, destroySpi, hdescs, irqMask]
    constructor
    · split_ifs
      · rw [setMask_descs, hdescs]
      · exact hdescs
    · intro k
      rw [Nat.exists_lt_succ_right]
      split_ifs with h
      · rw [setMask_masked]
        split_ifs with hk
        · obtain ⟨hex, rfl⟩ := hk
          exact iff_of_true rfl (.inr ⟨hex, h.2.2, .inr ⟨h.1, h.2.1, rfl⟩⟩)
        · rw [hmasked]
          refine or_congr_right (and_congr_right fun hex => and_congr_right fun _ => ?_)
          rw [or_iff_left]
          rintro ⟨-, -, heq⟩
          exact hk ⟨hex, heq.symm⟩
      · rw [hmasked]
        refine or_congr_right (and_congr_right fun _ => and_congr_right fun hlt => ?_)
        rw [or_iff_left]
        rintro ⟨hen, hhw, heq⟩
        exact h ⟨hen, hhw, heq ▸ hlt⟩

/-- What is left unmasked at the end of a VM whose masks are in step. -/
lemma allMasked_virqDestroyVm_iff (h : MaskFollows V irqExists s) :
    AllMasked V irqExists (virqDestroyVm V irqExists s) ↔ DestroySees V irqExists s := by
  obtain ⟨hdescs, hmasked⟩ :=
    destroySpi_foldl irqExists s (virqSpiNr V.chip.vspiNr)
  unfold virqDestroyVm AllMasked DestroySees Bound
  refine forall₂_congr fun n hno => ?_
  rw [hdescs, hmasked]
  refine forall_congr' fun hbound => ?_
  have hiff := h n hno hbound
  constructor
  · rintro (hm | ⟨-, hlt, hseen⟩) hen
    · rw [hiff.2 hen] at hm
      cases hm
    · exact ⟨hlt, hseen⟩
  · intro hseen
    by_cases hm : s.masked hno = true
    · exact .inl hm
    · exact .inr ⟨hbound.2.2.2, hseen (hiff.1 (Bool.not_eq_true _ ▸ hm))⟩

/-! ### Every run -/

lemma hnoFits_hwIrqStep (h : HnoFits s) (e : HwIrqEvent) : HnoFits (hwIrqStep V irqExists s e) := by
  have hflag : ∀ virq b d, HnoFits (setFlag irqExists virq b d s) := by
    intro virq b d n
    rw [setFlag_descs]
    by_cases hn : VirqRef.spi n = d
    · rw [hn, Function.update_self, ← hn]
      exact h n
    · rw [Function.update_of_ne hn]
      exact h n
  have hreq : ∀ v virq hwirq wakeup b d,
      HnoFits (requestDescHw V irqExists v virq hwirq wakeup b d s) := by
    intro v virq hwirq wakeup b d n
    obtain ⟨-, hhno, -, hother⟩ := requestDescHw_descs V irqExists s v virq hwirq wakeup b d
    by_cases hn : VirqRef.spi n = d
    · rw [hn, hhno]
      exact Nat.mod_lt _ (by norm_num)
    · rw [hother _ hn]
      exact h n
  have haff : ∀ virq hwirq affinity wakeup b,
      HnoFits (requestVirqAffinityHw V irqExists virq hwirq affinity wakeup b s).2 := by
    intro virq hwirq affinity wakeup b
    unfold requestVirqAffinityHw
    split
    · exact h
    · split
      · exact h
      · exact hreq _ _ _ _ _ _
  cases e with
  | enable v virq =>
    rcases hd : getVirqDesc V.chip v virq with _ | d
    · simpa [hwIrqStep, virqEnableHw, hd] using h
    · simpa only [hwIrqStep, virqEnableHw_eq hd] using hflag virq true d
  | disable v virq =>
    rcases hd : getVirqDesc V.chip v virq with _ | d
    · simpa [hwIrqStep, virqDisableHw, hd] using h
    · simpa only [hwIrqStep, virqDisableHw_eq hd] using hflag virq false d
  | request virq hwirq affinity wakeup on => exact haff virq hwirq affinity wakeup on
  | requestHw virq hwirq wakeup on =>
    simp only [hwIrqStep, requestHwVirq]
    split_ifs
    all_goals first | exact h | exact haff virq hwirq 0 wakeup on
  | reset =>
    intro n
    simp only [hwIrqStep, vmVirqReset]
    rw [(resetSpi_foldl irqExists s V.chip.vspiNr n).2.1]
    exact h n

lemma maskFollows_requestVirqAffinityHw_iff (h : MaskFollows V irqExists s) (hfits : HnoFits s)
    {virq hwirq affinity : ℕ} {wakeup b : Bool} :
    MaskFollows V irqExists
        (requestVirqAffinityHw V irqExists virq hwirq affinity wakeup b s).2 ↔
      (affinity < V.vcpuNr → RequestSeen V irqExists s affinity virq hwirq b) := by
  unfold requestVirqAffinityHw VirqVm.getVcpuInVm
  by_cases hv : V.vcpuNr ≤ affinity
  · rw [if_pos hv]
    exact iff_of_true h fun hlt => absurd hlt (by omega)
  · rw [if_neg hv]
    dsimp only
    rcases hd : getVirqDesc V.chip affinity virq with _ | d
    · exact iff_of_true h fun _ d hd' => by simp [hd] at hd'
    · rw [maskFollows_request_iff h hfits hd]
      exact ⟨fun hseen _ => hseen, fun hseen => hseen (by omega)⟩

/-- After an event the masks are in step just when the event saw what it had to. -/
lemma maskFollows_hwIrqStep_iff (h : MaskFollows V irqExists s) (hfits : HnoFits s)
    (e : HwIrqEvent) :
    MaskFollows V irqExists (hwIrqStep V irqExists s e) ↔ e.Seen V irqExists s := by
  cases e with
  | enable v virq =>
    rcases hd : getVirqDesc V.chip v virq with _ | d
    · refine iff_of_true (by simpa [hwIrqStep, virqEnableHw, hd] using h) ?_
      simp [HwIrqEvent.Seen, FlagSeen, hd]
    · simp only [hwIrqStep, virqEnableHw_eq hd]
      exact maskFollows_setFlag_iff h hd
  | disable v virq =>
    rcases hd : getVirqDesc V.chip v virq with _ | d
    · refine iff_of_true (by simpa [hwIrqStep, virqDisableHw, hd] using h) ?_
      simp [HwIrqEvent.Seen, FlagSeen, hd]
    · simp only [hwIrqStep, virqDisableHw_eq hd]
      exact maskFollows_setFlag_iff h hd
  | request virq hwirq affinity wakeup on => exact maskFollows_requestVirqAffinityHw_iff h hfits
  | requestHw virq hwirq wakeup on =>
    simp only [hwIrqStep, requestHwVirq, HwIrqEvent.Seen]
    by_cases hmax : (if V.vmid = 0 then MAX_HVM_VIRQ else MAX_GVM_VIRQ) ≤ virq
    · rw [if_pos hmax]
      exact iff_of_true h fun hlt => absurd hlt (by omega)
    · rw [if_neg hmax, maskFollows_requestVirqAffinityHw_iff h hfits]
      exact ⟨fun hseen _ => hseen V.vcpuNr_pos, fun hseen _ => hseen (by omega)⟩
  | reset => exact iff_of_true maskFollows_reset trivial

/-- In every run of a new VM the mask of a hardware irq follows the enabled flag of its SPI, and the
end of the VM masks every irq, just when each event saw what it had to and the end of the VM looks
at every SPI that is enabled. -/
theorem hwMask_follows_iff (V : VirqVm) (irqExists : ℕ → Bool) (masked : ℕ → Bool)
    (descs : VirqRef ℕ → VirqDesc) (es : List HwIrqEvent) :
    ((∀ pre, pre <+: es →
        MaskFollows V irqExists (exec (hwIrqStep V irqExists) (newIrqs masked descs) pre)) ∧
      AllMasked V irqExists
        (virqDestroyVm V irqExists (exec (hwIrqStep V irqExists) (newIrqs masked descs) es))) ↔
    Along (hwIrqStep V irqExists) (fun s e => e.Seen V irqExists s) (newIrqs masked descs) es ∧
      DestroySees V irqExists (exec (hwIrqStep V irqExists) (newIrqs masked descs) es) := by
  have hnew : MaskFollows V irqExists (newIrqs masked descs) ∧ HnoFits (newIrqs masked descs) := by
    constructor
    · rintro n hno ⟨-, hhw, -⟩
      cases hhw
    · intro n
      show VirqDesc.zero.hno < 2 ^ 16
      decide
  have hrun : (∀ pre, pre <+: es →
        MaskFollows V irqExists (exec (hwIrqStep V irqExists) (newIrqs masked descs) pre)) ↔
      Along (hwIrqStep V irqExists) (fun s e => e.Seen V irqExists s)
        (newIrqs masked descs) es := by
    rw [forall_prefix_iff, and_iff_right hnew.1]
    refine along_iff (I := fun s => MaskFollows V irqExists s ∧ HnoFits s) (L := fun _ _ => True)
      (fun s e h _ => maskFollows_hwIrqStep_iff h.1 h.2 e) (fun s e h _ hseen => ?_) hnew
      (along_const.2 fun _ _ => trivial)
    exact ⟨(maskFollows_hwIrqStep_iff h.1 h.2 e).2 hseen, hnoFits_hwIrqStep h.2 e⟩
  constructor
  · rintro ⟨hpre, hall⟩
    exact ⟨hrun.1 hpre, (allMasked_virqDestroyVm_iff (hpre es List.prefix_rfl)).1 hall⟩
  · rintro ⟨hseen, hsees⟩
    exact ⟨hrun.2 hseen,
      (allMasked_virqDestroyVm_iff (hrun.2 hseen es List.prefix_rfl)).2 hsees⟩

lemma four_pos : 0 < 4 := by decide

lemma four_le_lrs : 4 ≤ MAX_NR_LRS := by decide

/-- A guest VM with one vcpu. -/
def guestVm : VirqVm := ⟨⟨.v3, 4, GVM_SPI_VIRQ_NR, four_pos, four_le_lrs⟩, 1, 1, Nat.one_pos⟩

def guestIrqs (es : List HwIrqEvent) : HwIrqs :=
  exec (hwIrqStep guestVm fun _ => true) (newIrqs (fun _ => true) fun _ => VirqDesc.zero) es

/-- Virq 32 that is bound to irq 40 and enabled stays masked, and the irq 50 of virq 64, which is
enabled, is not masked at the end of the VM. -/
theorem hwMask_diverges :
    ¬MaskFollows guestVm (fun _ => true)
        (guestIrqs [.requestHw 32 40 false false, .enable 0 32]) ∧
      ¬AllMasked guestVm (fun _ => true)
        (virqDestroyVm guestVm (fun _ => true) (guestIrqs [.requestHw 64 50 false true])) := by
  constructor
  · intro h
    exact absurd ((h 0 40 (by decide)).2 (by decide)) (by decide)
  · intro h
    exact absurd (h 32 50 (by decide +kernel)) (by decide +kernel)

end Model

end Minos.Virq
