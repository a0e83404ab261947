import Mathlib
import Minos.Lib.DList
import Minos.Lib.Run
import Minos.Virq.Vgic

/-!
# Requesting and releasing interrupts while the VM runs

The lists of a vcpu go through the descriptors themselves. `__request_virq` resets the next pointer
of a descriptor and `release_vm_virq` fills all of it with zeros, and neither asks whether it is on
a list. Here the lists are the pointers in memory, and the loops of the entry to the guest and of
the exit from it follow them.
-/

namespace Minos.Virq

open Bitmap DList Run

def GVM_IRQ_BASE : ℕ := 64
def GVM_IRQ_COUNT : ℕ := 32
def GVM_IRQ_END : ℕ := GVM_IRQ_BASE + GVM_IRQ_COUNT

/-- `pending_list` and `active_list` -/
inductive VirqList where
  | pending
  | active
deriving DecidableEq, Repr

/-- The list heads of the vcpus, and the list nodes of the descriptors. -/
abbrev VirqNode (ι : Type) : Type := (VirqList × ι) ⊕ VirqRef ι

/-- `struct virq_struct` without the list heads and with the list registers -/
structure VcpuVirqs where
  activeCount : ℕ
  irqBitmap : Bitmap
  lrs : ℕ → Lr

/-- The interrupts of a VM with the pointers between them, which take the place of the field
`linked` of the descriptors. -/
structure VmVirqs (ι : Type) where
  descs : VirqRef ι → VirqDesc
  links : Links (VirqNode ι)
  vcpus : ι → VcpuVirqs
  vspiMap : Bitmap

/-- What does not change about a VM. -/
structure VmConf (ι : Type) where
  chip : Chip
  vmid : ℕ
  vcpu0 : ι

namespace VmVirqs

variable {ι : Type} [DecidableEq ι]

def setDesc (s : VmVirqs ι) (d : VirqRef ι) (f : VirqDesc → VirqDesc) : VmVirqs ι :=
  { s with descs := Function.update s.descs d (f (s.descs d)) }

def setVcpu (s : VmVirqs ι) (v : ι) (f : VcpuVirqs → VcpuVirqs) : VmVirqs ι :=
  { s with vcpus := Function.update s.vcpus v (f (s.vcpus v)) }

omit [DecidableEq ι] in
def setLinks (s : VmVirqs ι) (f : Links (VirqNode ι) → Links (VirqNode ι)) : VmVirqs ι :=
  { s with links := f s.links }

/-- `vcpu_virq_struct_init` of every vcpu and `virq_create_vm` -/
def init (ι : Type) : VmVirqs ι where
  descs
    | .priv _ virq => localDescInit virq
    | .spi _ => VirqDesc.zero
  links :=
    { next := fun x => match x with
        | .inl k => .node (.inl k)
        | .inr _ => .null
      pre := fun x => match x with
        | .inl k => .node (.inl k)
        | .inr _ => .null }
  vcpus _ := ⟨0, fun _ => false, fun _ => Lr.zero⟩
  vspiMap _ := false

/-- The node leaves its list, and its next pointer becomes null. -/
def unlink (d : VirqRef ι) (s : VmVirqs ι) : VmVirqs ι :=
  s.setLinks fun h => setNext (listDel h (.inr d)) (.node (.inr d)) .null

/-- The node leaves its list and goes to the end of another one. -/
def relink (d : VirqRef ι) (k : VirqList) (v : ι) (s : VmVirqs ι) : VmVirqs ι :=
  s.setLinks fun h => listAddTail (listDel h (.inr d)) (.inl (k, v)) (.inr d)

/-! ### The chip and the interrupts that are raised -/

/-- `virqchip_send_virq` -/
def virqchipSendVirq (C : Chip) (v : ι) (d : VirqRef ι) (s : VmVirqs ι) : VmVirqs ι :=
  let id := (s.descs d).id
  if C.nrLrs ≤ id then s
  else s.setVcpu v fun vs => { vs with lrs := Function.update vs.lrs id (lrOf C (s.descs d)) }

/-- `virqchip_update_virq` with `VIRQ_ACTION_CLEAR` -/
def virqchipClearVirq (C : Chip) (v : ι) (d : VirqRef ι) (s : VmVirqs ι) : VmVirqs ι :=
  let id := (s.descs d).id
  if C.nrLrs ≤ id then s
  else s.setVcpu v fun vs => { vs with lrs := Function.update vs.lrs id Lr.zero }

omit [DecidableEq ι] in
/-- `virqchip_get_virq_state` -/
def virqchipGetVirqState (C : Chip) (v : ι) (d : VirqRef ι) (s : VmVirqs ι) : VirqState :=
  if C.nrLrs ≤ (s.descs d).id then .inactive else ((s.vcpus v).lrs (s.descs d).id).state

/-- `list_add_tail` to the pending list -/
def enqueue (v : ι) (d : VirqRef ι) (s : VmVirqs ι) : VmVirqs ι :=
  (s.setLinks fun h => listAddTail h (.inl (.pending, v)) (.inr d)).setVcpu v fun vs =>
    { vs with activeCount := vs.activeCount + 1 }

/-- `__send_virq`, called while vcpu `src` is current -/
def sendVirq (v : ι) (d : VirqRef ι) (src : ℕ) (s : VmVirqs ι) : VmVirqs ι :=
  if (s.descs d).pending then s
  else
    let s := s.setDesc d fun desc => { desc with pending := true }
    let s := if s.links.next (.inr d) = .null then enqueue v d s else s
    s.setDesc d fun desc => if desc.vno < VM_SGI_VIRQ_NR then { desc with src := src } else desc

/-! ### Entry to the guest and exit from it -/

/-- A descriptor on the pending list that is not pending is taken off. -/
def dropVirq (C : Chip) (v : ι) (d : VirqRef ι) (s : VmVirqs ι) : VmVirqs ι :=
  let s := s.setDesc d fun desc => { desc with state := .inactive }
  let id := (s.descs d).id
  let s :=
    if id = VIRQ_INVALID_ID then s
    else ((virqchipClearVirq C v d s).setVcpu v fun vs => { vs with
      irqBitmap := clearBit vs.irqBitmap id }).setDesc d fun desc => { desc with
        id := VIRQ_INVALID_ID }
  unlink d s

/-- A free list register is given to the descriptor. -/
def takeId (v : ι) (d : VirqRef ι) (id : ℕ) (s : VmVirqs ι) : VmVirqs ι :=
  (s.setDesc d fun desc => { desc with id := id }).setVcpu v fun vs => { vs with
    irqBitmap := setBit vs.irqBitmap id }

/-- `__do_send_virq` of `vgic_irq_enter_to_guest` -/
def deliver (C : Chip) (v : ι) (d : VirqRef ι) (s : VmVirqs ι) : VmVirqs ι :=
  relink d .active v ((virqchipSendVirq C v d s).setDesc d fun desc => { desc with
    state := .pending
    pending := false })

/-- At most `fuel` rounds of the loop of `vgic_irq_enter_to_guest`. The loop ends at the head of the
list; what it does with a pointer to no descriptor is not defined. -/
def enterLoop (C : Chip) (v : ι) : ℕ → Ptr (VirqNode ι) → VmVirqs ι → VmVirqs ι
  | fuel + 1, .node (.inr d), s =>
    let n := s.links.next (.inr d)
    if (s.descs d).pending = false then enterLoop C v fuel n (dropVirq C v d s)
    else if (s.descs d).id ≠ VIRQ_INVALID_ID then enterLoop C v fuel n (deliver C v d s)
    else
      let id := findNextZeroBit (s.vcpus v).irqBitmap C.nrLrs 0
      if id = C.nrLrs then s else enterLoop C v fuel n (deliver C v d (takeId v d id s))
  | _, _, s => s

/-- The guest is done with the interrupt. -/
def retire (C : Chip) (v : ι) (d : VirqRef ι) (s : VmVirqs ι) : VmVirqs ι :=
  unlink d (((virqchipClearVirq C v d s).setVcpu v fun vs => { vs with
    irqBitmap := clearBit vs.irqBitmap (s.descs d).id
    activeCount := vs.activeCount - 1 }).setDesc d fun desc => { desc with
      state := .inactive
      id := VIRQ_INVALID_ID })

/-- The body of the loop of `vgic_irq_exit_from_guest`. -/
def exitVirq (C : Chip) (v : ι) (d : VirqRef ι) (s : VmVirqs ι) : VmVirqs ι :=
  let status := virqchipGetVirqState C v d s
  if status = .inactive then
    if (s.descs d).pending then relink d .pending v (virqchipClearVirq C v d s)
    else retire C v d s
  else s.setDesc d fun desc => { desc with state := status }

/-- At most `fuel` rounds of the loop of `vgic_irq_exit_from_guest`. -/
def exitLoop (C : Chip) (v : ι) : ℕ → Ptr (VirqNode ι) → VmVirqs ι → VmVirqs ι
  | fuel + 1, .node (.inr d), s => exitLoop C v fuel (s.links.next (.inr d)) (exitVirq C v d s)
  | _, _, s => s

/-! ### Requesting and releasing -/

/-- `request_virq` of a VM, with `__request_virq` for its first vcpu -/
def requestVirq (V : VmConf ι) (virq : ℕ) (enable : Bool) (s : VmVirqs ι) : VmVirqs ι :=
  match getVirqDesc V.chip V.vcpu0 virq with
  | none => s
  | some d =>
    { (s.setDesc d (Virq.requestVirq 0 V.vmid virq 0 false enable)).setLinks fun h =>
        setNext h (.node (.inr d)) .null with
      vspiMap := if VM_LOCAL_VIRQ_NR ≤ virq then setBit s.vspiMap (virq - VM_LOCAL_VIRQ_NR)
        else s.vspiMap }

/-- `alloc_vm_virq` -/
def allocVmVirq (V : VmConf ι) (s : VmVirqs ι) : VmVirqs ι :=
  let virq := findNextZeroBitLoop s.vspiMap V.chip.vspiNr 0
  if V.chip.vspiNr ≤ virq then s else requestVirq V (virq + VM_LOCAL_VIRQ_NR) true s

/-- `request_vm_virqs` -/
def requestVmVirqs (V : VmConf ι) (base nr : ℕ) (s : VmVirqs ι) : VmVirqs ι :=
  if base < GVM_IRQ_BASE ∨ nr = 0 ∨ GVM_IRQ_END ≤ base + nr then s
  else (List.range' base nr).foldl (fun s virq => requestVirq V virq false s) s

/-- `release_vm_virq` -/
def releaseVmVirq (V : VmConf ι) (virq : ℕ) (s : VmVirqs ι) : VmVirqs ι :=
  let n := virq - VM_LOCAL_VIRQ_NR
  if virq < VM_LOCAL_VIRQ_NR ∨ V.chip.vspiNr ≤ n then s
  else
    { (s.setDesc (.spi n) fun _ => VirqDesc.zero).setLinks fun h =>
        setPre (setNext h (.node (.inr (.spi n))) .null) (.node (.inr (.spi n))) .null with
      vspiMap := clearBit s.vspiMap n }

end VmVirqs

/-! ### Runs -/

inductive VirqEvent (ι : Type) where
  /-- `__send_virq` of the descriptor that `get_virq_desc` finds -/
  | send (v : ι) (virq src : ℕ)
  | enter (v : ι) (fuel : ℕ)
  | exit (v : ι) (fuel : ℕ)
  /-- the hardware changes the states of the list registers -/
  | hardware (v : ι) (states : ℕ → VirqState)
  | alloc
  | request (base nr : ℕ)
  | release (virq : ℕ)

namespace VmVirqs

variable {ι : Type} [DecidableEq ι]

def step (V : VmConf ι) (s : VmVirqs ι) : VirqEvent ι → VmVirqs ι
  | .send v virq src =>
    match getVirqDesc V.chip v virq with
    | none => s
    | some d => sendVirq v d src s
  | .enter v fuel => enterLoop V.chip v fuel (s.links.next (.inl (.pending, v))) s
  | .exit v fuel => exitLoop V.chip v fuel (s.links.next (.inl (.active, v))) s
  | .hardware v states => s.setVcpu v fun vs => { vs with
      lrs := fun i => { vs.lrs i with state := states i } }
  | .alloc => allocVmVirq V s
  | .request base nr => requestVmVirqs V base nr s
  | .release virq => releaseVmVirq V virq s

/-- The descriptor is one of a vcpu, or an SPI that was requested and not released. -/
def Requested (s : VmVirqs ι) : VirqRef ι → Prop
  | .priv _ _ => True
  | .spi n => s.vspiMap n = true

instance (s : VmVirqs ι) : (d : VirqRef ι) → Decidable (s.Requested d)
  | .priv _ _ => inferInstanceAs (Decidable True)
  | .spi n => inferInstanceAs (Decidable (s.vspiMap n = true))

/-- Both lists of every vcpu are well-formed, and all their nodes are different descriptors that are
requested. -/
def Sound (s : VmVirqs ι) : Prop :=
  ∀ v, ∃ pend act : List (VirqRef ι),
    IsList s.links (.inl (.pending, v)) (pend.map .inr) ∧
    IsList s.links (.inl (.active, v)) (act.map .inr) ∧ (pend ++ act).Nodup ∧
    ∀ d ∈ pend ++ act, s.Requested d

/-- The descriptor that `get_virq_desc` finds is on no list. -/
def Unlinked (V : VmConf ι) (s : VmVirqs ι) (virq : ℕ) : Prop :=
  ∀ d ∈ getVirqDesc V.chip V.vcpu0 virq, s.links.next (.inr d) = .null

/-- Interrupts are raised while they are requested, and requested and released while they are on no
list. -/
def Proper (V : VmConf ι) (s : VmVirqs ι) : VirqEvent ι → Prop
  | .send v virq _ => ∀ d ∈ getVirqDesc V.chip v virq, s.Requested d
  | .request base nr => ∀ virq ∈ List.range' base nr, Unlinked V s virq
  | .release virq => VM_LOCAL_VIRQ_NR ≤ virq → Unlinked V s virq
  | _ => True

instance (V : VmConf ι) (s : VmVirqs ι) (virq : ℕ) : Decidable (Unlinked V s virq) :=
  inferInstanceAs (Decidable (∀ d ∈ getVirqDesc V.chip V.vcpu0 virq, _))

instance (V : VmConf ι) (s : VmVirqs ι) : (e : VirqEvent ι) → Decidable (Proper V s e)
  | .send v virq _ => inferInstanceAs (Decidable (∀ d ∈ getVirqDesc V.chip v virq, _))
  | .request base nr => inferInstanceAs (Decidable (∀ virq ∈ List.range' base nr, _))
  | .release _ => inferInstanceAs (Decidable (_ → _))
  | .enter _ _ => inferInstanceAs (Decidable True)
  | .exit _ _ => inferInstanceAs (Decidable True)
  | .hardware _ _ => inferInstanceAs (Decidable True)
  | .alloc => inferInstanceAs (Decidable True)

/-! ### The invariant -/

/-- The pointers are those of the lists `L`, whose nodes are requested. -/
structure Lists (s : VmVirqs ι) (L : VirqList × ι → List (VirqRef ι)) : Prop where
  family : Family s.links L
  requested : ∀ k, ∀ d ∈ L k, s.Requested d

variable {s s' : VmVirqs ι} {L : VirqList × ι → List (VirqRef ι)} {v : ι} {d : VirqRef ι}
  {k k' : VirqList × ι} {C : Chip} {V : VmConf ι}

omit [DecidableEq ι] in
lemma Lists.sound (h : s.Lists L) : s.Sound := by
  intro v
  refine ⟨L (.pending, v), L (.active, v), h.family.isList _, h.family.isList _, ?_, fun d hd => ?_⟩
  · refine List.nodup_append.2 ⟨h.family.nodup _, h.family.nodup _, ?_⟩
    rintro d hd e he rfl
    cases h.family.disjoint _ _ _ hd he
  · rcases List.mem_append.1 hd with hd | hd
    · exact h.requested _ d hd
    · exact h.requested _ d hd

omit [DecidableEq ι] in
lemma init_lists : (init ι).Lists fun _ => [] where
  family := ⟨fun _ => ⟨⟨rfl, rfl⟩, by simp⟩, fun _ _ _ h => absurd h List.not_mem_nil,
    fun _ _ => rfl⟩
  requested _ _ h := by cases h

omit [DecidableEq ι] in
/-- Only the pointers and the map matter. -/
lemma Lists.of_eq (h : s.Lists L) (hlinks : s'.links = s.links) (hmap : s'.vspiMap = s.vspiMap) :
    s'.Lists L := by
  refine ⟨hlinks ▸ h.family, fun k d hd => ?_⟩
  have := h.requested k d hd
  cases d with
  | priv v virq => trivial
  | spi n =>
    simp only [Requested] at this ⊢
    rw [hmap]
    exact this

lemma Lists.virqchipSendVirq (h : s.Lists L) : (virqchipSendVirq C v d s).Lists L := by
  simp only [VmVirqs.virqchipSendVirq]
  split_ifs
  · exact h
  · exact h.of_eq rfl rfl

lemma Lists.virqchipClearVirq (h : s.Lists L) : (virqchipClearVirq C v d s).Lists L := by
  simp only [VmVirqs.virqchipClearVirq]
  split_ifs
  · exact h
  · exact h.of_eq rfl rfl

lemma Lists.unlink (h : s.Lists L) (hd : d ∈ L k) :
    (unlink d s).Lists (Function.update L k ((L k).erase d)) := by
  refine ⟨h.family.del hd, fun j e he => ?_⟩
  by_cases hj : j = k
  · subst hj
    rw [Function.update_self] at he
    exact h.requested j e (List.mem_of_mem_erase he)
  · rw [Function.update_of_ne hj] at he
    exact h.requested j e he

lemma Lists.relink (h : s.Lists L) (hd : d ∈ L k) {kind : VirqList} (hk : (kind, v) ≠ k) :
    (relink d kind v s).Lists (Function.update (Function.update L k ((L k).erase d)) (kind, v)
      (L (kind, v) ++ [d])) := by
  refine ⟨h.family.move hd hk, fun j e he => ?_⟩
  by_cases hj : j = (kind, v)
  · subst hj
    rw [Function.update_self] at he
    rcases List.mem_append.1 he with he | he
    · exact h.requested _ e he
    · rw [List.mem_singleton.1 he]
      exact h.requested k d hd
  · rw [Function.update_of_ne hj] at he
    by_cases hjk : j = k
    · subst hjk
      rw [Function.update_self] at he
      exact h.requested j e (List.mem_of_mem_erase he)
    · rw [Function.update_of_ne hjk] at he
      exact h.requested j e he

/-! ### The loops -/

lemma enterLoop_zero (p : Ptr (VirqNode ι)) : enterLoop C v 0 p s = s := by
  rw [enterLoop]
  exact fun fuel _ hf => absurd hf (Nat.succ_ne_zero fuel).symm

/-- The loop of the entry ends at a pointer to no descriptor. -/
lemma enterLoop_end {p : Ptr (VirqNode ι)} (hp : ∀ d, p ≠ .node (.inr d)) (fuel : ℕ) :
    enterLoop C v fuel p s = s := by
  rw [enterLoop]
  exact fun _ d _ hd => hp d hd

lemma exitLoop_zero (p : Ptr (VirqNode ι)) : exitLoop C v 0 p s = s := by
  rw [exitLoop]
  exact fun fuel _ hf => absurd hf (Nat.succ_ne_zero fuel).symm

lemma exitLoop_end {p : Ptr (VirqNode ι)} (hp : ∀ d, p ≠ .node (.inr d)) (fuel : ℕ) :
    exitLoop C v fuel p s = s := by
  rw [exitLoop]
  exact fun _ d _ hd => hp d hd

omit [DecidableEq ι] in
lemma active_ne_pending (v w : ι) : (VirqList.active, v) ≠ (VirqList.pending, w) := by simp

/-- A pointer to a node of the list, or to its head. -/
def At (L : VirqList × ι → List (VirqRef ι)) (k : VirqList × ι) (p : Ptr (VirqNode ι)) : Prop :=
  p = .node (.inl k) ∨ ∃ d ∈ L k, p = .node (.inr d)

omit [DecidableEq ι] in
/-- The node after the one that the loop is at is still there when this one has gone. -/
lemma Lists.at_next (h : s.Lists L) (hd : d ∈ L k) {L' : VirqList × ι → List (VirqRef ι)}
    (hL : ∀ e ∈ L k, e ≠ d → e ∈ L' k) : At L' k (s.links.next (.inr d)) := by
  rcases h.family.next_cases hd with hn | ⟨e, he, hed, hn⟩
  · exact Or.inl hn
  · exact Or.inr ⟨e, hL e he hed, hn⟩

omit [DecidableEq ι] in
lemma Lists.at_first (h : s.Lists L) (k : VirqList × ι) : At L k (s.links.next (.inl k)) := by
  have hn := (h.family.isList k).seg.next_eq
  cases hl : L k with
  | nil =>
    rw [hl] at hn
    exact Or.inl hn
  | cons d l =>
    rw [hl] at hn
    exact Or.inr ⟨d, by simp [hl], hn⟩

lemma Lists.dropVirq (h : s.Lists L) (hd : d ∈ L k) :
    (dropVirq C v d s).Lists (Function.update L k ((L k).erase d)) := by
  have hstate : (s.setDesc d fun desc => { desc with state := .inactive }).Lists L :=
    h.of_eq rfl rfl
  simp only [VmVirqs.dropVirq]
  refine Lists.unlink ?_ hd
  split_ifs
  · exact hstate
  · exact hstate.virqchipClearVirq.of_eq rfl rfl

lemma Lists.deliver (h : s.Lists L) (hd : d ∈ L (.pending, v)) :
    (deliver C v d s).Lists (Function.update
      (Function.update L (.pending, v) ((L (.pending, v)).erase d)) (.active, v)
      (L (.active, v) ++ [d])) := by
  have hsent : ((VmVirqs.virqchipSendVirq C v d s).setDesc d fun desc => { desc with
      state := .pending, pending := false }).Lists L := h.virqchipSendVirq.of_eq rfl rfl
  exact hsent.relink hd (active_ne_pending v v)

lemma mem_erase_update {e : VirqRef ι} (he : e ∈ L k) (hed : e ≠ d) :
    e ∈ Function.update L k ((L k).erase d) k := by
  rw [Function.update_self]
  exact (List.mem_erase_of_ne hed).2 he

lemma Lists.enterLoop (h : s.Lists L) {fuel : ℕ} {p : Ptr (VirqNode ι)}
    (hp : At L (.pending, v) p) : ∃ L', (enterLoop C v fuel p s).Lists L' := by
  induction fuel generalizing s L p with
  | zero => exact ⟨L, by rwa [enterLoop_zero]⟩
  | succ fuel ih =>
    rcases hp with rfl | ⟨d, hd, rfl⟩
    · exact ⟨L, by rwa [enterLoop_end (by simp)]⟩
    · have hdrop := h.at_next hd fun e => mem_erase_update (d := d)
      have hmove : ∀ l, At (Function.update (Function.update L (.pending, v)
          ((L (.pending, v)).erase d)) (.active, v) l) (.pending, v) (s.links.next (.inr d)) :=
        fun l => h.at_next hd fun e he hed => by
          rw [Function.update_of_ne (active_ne_pending v v).symm]
          exact mem_erase_update he hed
      simp only [VmVirqs.enterLoop]
      by_cases hpend : (s.descs d).pending = false
      · rw [if_pos hpend]
        exact ih (h.dropVirq hd) hdrop
      · rw [if_neg hpend]
        by_cases hid : (s.descs d).id ≠ VIRQ_INVALID_ID
        · rw [if_pos hid]
          exact ih (h.deliver hd) (hmove _)
        · rw [if_neg hid]
          by_cases hfull : findNextZeroBit (s.vcpus v).irqBitmap C.nrLrs 0 = C.nrLrs
          · rw [if_pos hfull]
            exact ⟨L, h⟩
          · rw [if_neg hfull]
            have htake : (takeId v d (findNextZeroBit (s.vcpus v).irqBitmap C.nrLrs 0) s).Lists L :=
              h.of_eq rfl rfl
            exact ih (htake.deliver hd) (hmove _)

/-- A round of the exit loop keeps the lists, and what comes after its descriptor. -/
lemma Lists.exitVirq (h : s.Lists L) (hd : d ∈ L (.active, v)) :
    ∃ L', (exitVirq C v d s).Lists L' ∧ ∀ e ∈ L (.active, v), e ≠ d → e ∈ L' (.active, v) := by
  simp only [VmVirqs.exitVirq]
  split_ifs
  · refine ⟨_, h.virqchipClearVirq.relink hd (active_ne_pending v v).symm, fun e he hed => ?_⟩
    rw [Function.update_of_ne (active_ne_pending v v)]
    exact mem_erase_update he hed
  · refine ⟨Function.update L (.active, v) ((L (.active, v)).erase d), ?_,
      fun e he hed => mem_erase_update he hed⟩
    refine Lists.unlink ?_ hd
    exact Lists.of_eq (h.virqchipClearVirq (C := C) (v := v) (d := d)) rfl rfl
  · exact ⟨L, h.of_eq rfl rfl, fun e he _ => he⟩

lemma Lists.exitLoop (h : s.Lists L) {fuel : ℕ} {p : Ptr (VirqNode ι)}
    (hp : At L (.active, v) p) : ∃ L', (exitLoop C v fuel p s).Lists L' := by
  induction fuel generalizing s L p with
  | zero => exact ⟨L, by rwa [exitLoop_zero]⟩
  | succ fuel ih =>
    rcases hp with rfl | ⟨d, hd, rfl⟩
    · exact ⟨L, by rwa [exitLoop_end (by simp)]⟩
    · obtain ⟨L', hL', hmem⟩ := h.exitVirq (C := C) hd
      exact ih hL' (h.at_next hd hmem)

/-! ### The other steps -/

omit [DecidableEq ι] in
lemma Lists.not_mem_of_null (h : s.Lists L) (hd : s.links.next (.inr d) = .null)
    (k : VirqList × ι) : d ∉ L k := by
  intro hk
  exact h.family.next_ne_null_iff.2 ⟨k, hk⟩ hd

/-- A descriptor that is on no list goes to the end of the pending list. -/
lemma Lists.enqueue (h : s.Lists L) (hd : s.Requested d) (hnull : s.links.next (.inr d) = .null) :
    (enqueue v d s).Lists (Function.update L (.pending, v) (L (.pending, v) ++ [d])) := by
  refine ⟨h.family.addTail (h.not_mem_of_null hnull) (.pending, v), fun k e he => ?_⟩
  by_cases hk : k = (.pending, v)
  · subst hk
    rw [Function.update_self] at he
    rcases List.mem_append.1 he with he | he
    · exact h.requested _ e he
    · rw [List.mem_singleton.1 he]
      exact hd
  · rw [Function.update_of_ne hk] at he
    exact h.requested k e he

lemma Lists.sendVirq (h : s.Lists L) (hd : s.Requested d) (src : ℕ) :
    ∃ L', (sendVirq v d src s).Lists L' := by
  rw [VmVirqs.sendVirq]
  by_cases hpend : (s.descs d).pending = true
  · rw [if_pos hpend]
    exact ⟨L, h⟩
  · rw [if_neg hpend]
    have hraised : (s.setDesc d fun desc => { desc with pending := true }).Lists L :=
      h.of_eq rfl rfl
    dsimp only
    split_ifs with hnull
    · exact ⟨_, (hraised.enqueue (v := v) hd hnull).of_eq rfl rfl⟩
    · exact ⟨L, hraised.of_eq rfl rfl⟩

omit [DecidableEq ι] in
/-- A descriptor that is on no list is written anew. -/
lemma Lists.renew (h : s.Lists L) (hd : s.links.next (.inr d) = .null)
    (hnext : ∀ x, x ≠ .inr d → s'.links.next x = s.links.next x)
    (hpre : ∀ x, x ≠ .inr d → s'.links.pre x = s.links.pre x)
    (hnull : s'.links.next (.inr d) = .null)
    (hreq : ∀ e, e ≠ d → s.Requested e → s'.Requested e) : s'.Lists L := by
  have hnot := h.not_mem_of_null hd
  refine ⟨h.family.congr hnot hnext hpre hnull, fun k e he => hreq e ?_ (h.requested k e he)⟩
  rintro rfl
  exact hnot k he

/-- A descriptor that is on no list is requested. -/
lemma Lists.requestVirq (h : s.Lists L) {virq : ℕ} (hu : Unlinked V s virq) (enable : Bool) :
    (requestVirq V virq enable s).Lists L := by
  rw [VmVirqs.requestVirq]
  cases hd : getVirqDesc V.chip V.vcpu0 virq with
  | none => exact h
  | some d =>
    refine h.renew (d := d) (hu d hd) (fun x hx => Function.update_of_ne hx _ _)
      (fun _ _ => rfl) (Function.update_self _ _ _) fun e _ he => ?_
    cases e with
    | priv w n => trivial
    | spi n =>
      simp only [Requested] at he ⊢
      split_ifs
      · by_cases hn : n = virq - VM_LOCAL_VIRQ_NR
        · rw [hn, setBit, Function.update_self]
        · rw [setBit, Function.update_of_ne hn]
          exact he
      · exact he

lemma Unlinked.requestVirq {virq : ℕ} (h : Unlinked V s virq) (virq' : ℕ) (enable : Bool) :
    Unlinked V (requestVirq V virq' enable s) virq := by
  intro d hd
  rw [VmVirqs.requestVirq]
  cases hd' : getVirqDesc V.chip V.vcpu0 virq' with
  | none => exact h d hd
  | some d' =>
    show Function.update s.links.next (.inr d') .null (.inr d) = .null
    by_cases hdd : (.inr d : VirqNode ι) = .inr d'
    · rw [hdd, Function.update_self]
    · rw [Function.update_of_ne hdd]
      exact h d hd

lemma Lists.requestAll (h : s.Lists L) {virqs : List ℕ} (hu : ∀ virq ∈ virqs, Unlinked V s virq) :
    (virqs.foldl (fun s virq => VmVirqs.requestVirq V virq false s) s).Lists L := by
  induction virqs generalizing s with
  | nil => exact h
  | cons virq virqs ih =>
    refine ih (h.requestVirq (hu virq (by simp)) false) fun virq' hv => ?_
    exact (hu virq' (List.mem_cons_of_mem _ hv)).requestVirq virq false

omit [DecidableEq ι] in
lemma getVirqDesc_spi {virq : ℕ} (v : ι) (hlow : VM_LOCAL_VIRQ_NR ≤ virq)
    (hhigh : virq - VM_LOCAL_VIRQ_NR < C.vspiNr) :
    getVirqDesc C v virq = some (.spi (virq - VM_LOCAL_VIRQ_NR)) := by
  rw [getVirqDesc, if_neg (by omega), if_neg (by omega)]

omit [DecidableEq ι] in
/-- An SPI that is not requested is on no list. -/
lemma Lists.unlinked_of_zero (h : s.Lists L) {n : ℕ} (hn : n < V.chip.vspiNr)
    (hzero : s.vspiMap n = false) : Unlinked V s (n + VM_LOCAL_VIRQ_NR) := by
  intro d hd
  rw [getVirqDesc_spi V.vcpu0 (Nat.le_add_left _ _) (by rwa [Nat.add_sub_cancel]),
    Nat.add_sub_cancel] at hd
  obtain rfl := Option.some.inj hd
  by_contra hne
  obtain ⟨k, hk⟩ := h.family.next_ne_null_iff.1 hne
  have := h.requested k _ hk
  simp only [Requested] at this
  rw [hzero] at this
  cases this

lemma Lists.allocVmVirq (h : s.Lists L) : (allocVmVirq V s).Lists L := by
  simp only [VmVirqs.allocVmVirq]
  split_ifs with hle
  · exact h
  · have hlt := not_le.1 hle
    exact h.requestVirq (h.unlinked_of_zero hlt (findNextZeroBitLoop_prop hlt)) true

lemma Lists.releaseVmVirq (h : s.Lists L) {virq : ℕ}
    (hu : VM_LOCAL_VIRQ_NR ≤ virq → Unlinked V s virq) : (releaseVmVirq V virq s).Lists L := by
  simp only [VmVirqs.releaseVmVirq]
  split_ifs with hout
  · exact h
  · rw [not_or, not_lt, not_le] at hout
    refine h.renew (hu hout.1 _ (getVirqDesc_spi V.vcpu0 hout.1 hout.2))
      (fun x hx => Function.update_of_ne hx _ _) (fun x hx => Function.update_of_ne hx _ _)
      (Function.update_self _ _ _) fun e hne he => ?_
    cases e with
    | priv w n => trivial
    | spi n =>
      have hn : n ≠ virq - VM_LOCAL_VIRQ_NR := by
        rintro rfl
        exact hne rfl
      simp only [Requested] at he ⊢
      rw [clearBit, Function.update_of_ne hn]
      exact he

lemma Lists.step (h : s.Lists L) (e : VirqEvent ι) (he : s.Proper V e) :
    ∃ L', (s.step V e).Lists L' := by
  cases e with
  | send v virq src =>
    simp only [VmVirqs.step]
    cases hd : getVirqDesc V.chip v virq with
    | none => exact ⟨L, h⟩
    | some d => exact h.sendVirq (he d hd) src
  | enter v fuel => exact h.enterLoop (h.at_first _)
  | exit v fuel => exact h.exitLoop (h.at_first _)
  | hardware v states => exact ⟨L, h.of_eq rfl rfl⟩
  | alloc => exact ⟨L, h.allocVmVirq⟩
  | request base nr =>
    simp only [VmVirqs.step, requestVmVirqs]
    split_ifs
    · exact ⟨L, h⟩
    · exact ⟨L, h.requestAll he⟩
  | release virq => exact ⟨L, h.releaseVmVirq he⟩

end VmVirqs

/-- In a run in which interrupts are raised while they are requested, and requested and released
while they are on no list, the lists of all vcpus are sound after every step. -/
theorem virq_lists_sound {ι : Type} [DecidableEq ι] (V : VmConf ι) (es : List (VirqEvent ι))
    (hes : Along (VmVirqs.step V) (VmVirqs.Proper V) (VmVirqs.init ι) es) :
    Along (VmVirqs.step V) (fun s e => (s.step V e).Sound) (VmVirqs.init ι) es :=
  along_induction (I := fun s => ∃ L, s.Lists L) (fun _ e ⟨_, h⟩ he => h.step e he)
    (fun _ e ⟨_, h⟩ he => (h.step e he).elim fun _ h' => h'.sound) ⟨_, VmVirqs.init_lists⟩ hes

/-- A VM with one vcpu. -/
def smallVm : VmConf Unit := ⟨⟨.v2, 4, 64, by decide, by decide⟩, 0, ()⟩

/-- The interrupt is handled before it is released, and others are requested after it. -/
def handledRun : List (VirqEvent Unit) :=
  [.alloc, .send () 32 0, .enter () 4, .hardware () fun _ => .inactive, .exit () 4, .release 32,
    .request 64 2, .send () 65 0]

theorem virq_lists_sound_handled :
    Along (VmVirqs.step smallVm) (VmVirqs.Proper smallVm) (VmVirqs.init Unit) handledRun ∧
      Along (VmVirqs.step smallVm) (fun s e => (s.step smallVm e).Sound) (VmVirqs.init Unit)
        handledRun := by
  have hes : Along (VmVirqs.step smallVm) (VmVirqs.Proper smallVm) (VmVirqs.init Unit)
      handledRun := by decide +kernel
  exact ⟨hes, virq_lists_sound smallVm handledRun hes⟩

/-- A pending list that leads to a null pointer. -/
lemma VmVirqs.not_sound_of_null {s : VmVirqs Unit} {d : VirqRef Unit}
    (hfirst : s.links.next (.inl (.pending, ())) = .node (.inr d))
    (hnull : s.links.next (.inr d) = .null) : ¬ s.Sound := by
  intro h
  obtain ⟨pend, -, hlist, -⟩ := h ()
  have hnext := hlist.seg.next_eq
  rw [hfirst] at hnext
  cases pend with
  | nil => cases hnext
  | cons e l =>
    obtain rfl : d = e := Sum.inr.inj (Ptr.node.inj hnext)
    exact hlist.next_ne_null (by simp) hnull

/-- An interrupt is released, or requested again, while it is pending. -/
theorem virq_released_while_pending :
    ¬ (exec (VmVirqs.step smallVm) (VmVirqs.init Unit)
      [.alloc, .send () 32 0, .release 32]).Sound ∧
    ¬ (exec (VmVirqs.step smallVm) (VmVirqs.init Unit)
      [.request 64 2, .send () 65 0, .request 64 2]).Sound :=
  ⟨VmVirqs.not_sound_of_null (d := .spi 0) (by decide +kernel) (by decide +kernel),
    VmVirqs.not_sound_of_null (d := .spi 33) (by decide +kernel) (by decide +kernel)⟩

end Minos.Virq
