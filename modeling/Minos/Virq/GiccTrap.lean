import Mathlib
import Minos.Lib.Run
import Minos.Virq.Vgic

/-!
# The trapped cpu interface

Without hardware support the guest acknowledges an interrupt with a read of `GICC_IAR` and ends it
with a write to `GICC_EOIR`, and both are traps. The read moves the first pending descriptor to the
active list, the write takes the descriptor that it names off its list. No list register is used.
-/

namespace Minos.Virq

open Run

def BAD_IRQ : ℕ := 1023

def GICC_CTLR : ℕ := 0x0000
def GICC_PMR : ℕ := 0x0004
def GICC_BPR : ℕ := 0x0008
def GICC_IAR : ℕ := 0x000C
def GICC_EOIR : ℕ := 0x0010
def GICC_RPR : ℕ := 0x0014
def GICC_HPPIR : ℕ := 0x0018
def GICC_IIDR : ℕ := 0x00FC

section Model

variable {ι : Type} [DecidableEq ι] (C : Chip)

/-! ### Acknowledge and end of interrupt -/

/-- The first pending descriptor goes to the active list. -/
def takePending (v : ι) (d : VirqRef ι) (s : Vgic ι) : Vgic ι :=
  (s.setStruct v fun vs => { vs with
    pendingList := vs.pendingList.erase d
    activeList := vs.activeList ++ [d] }).setDesc d fun desc => { desc with
      state := .active
      pending := false }

/-- `get_pending_virq`, with the number that it returns -/
def getPendingVirq (v : ι) (s : Vgic ι) : ℕ × Vgic ι :=
  match (s.structs v).pendingList with
  | [] => (BAD_IRQ, s)
  | d :: _ => ((s.descs d).vno, takePending v d s)

/-- `list_del`, from whichever list the descriptor is on -/
def unlink (d : VirqRef ι) (s : Vgic ι) : Vgic ι :=
  { s with structs := fun v => { s.structs v with
      pendingList := (s.structs v).pendingList.erase d
      activeList := (s.structs v).activeList.erase d } }.setDesc d fun desc => { desc with
    linked := false }

/-- The descriptor, which was raised again, goes to the end of the pending list. -/
def requeuePending (v : ι) (d : VirqRef ι) (s : Vgic ι) : Vgic ι :=
  (s.setStruct v fun vs => { vs with pendingList := vs.pendingList ++ [d] }).setDesc d fun desc =>
    { desc with
      linked := true
      state := .pending }

/-- `clear_pending_virq`. The chip has no `update_virq` here. -/
def clearPendingVirq (v : ι) (irq : ℕ) (s : Vgic ι) : Vgic ι :=
  match getVirqDesc C v irq with
  | none => s
  | some d =>
    if (s.descs d).state ≠ .active then s
    else
      let s := if (s.descs d).linked then unlink d s else s
      if (s.descs d).pending then requeuePending v d s
      else s.setDesc d fun desc => { desc with state := .inactive }

/-! ### The registers -/

/-- `struct vgicc`, with the interrupts of the VM -/
structure Gicc (ι : Type) where
  giccCtlr : BitVec 32
  giccPmr : BitVec 32
  giccBpr : BitVec 32
  vgic : Vgic ι

/-- `vgicc_read`: the value, which stays as it is for the other registers -/
def vgiccRead (v : ι) (offset : ℕ) (value : BitVec 64) (s : Gicc ι) : BitVec 64 × Gicc ι :=
  if offset = GICC_CTLR then (s.giccCtlr.setWidth 64, s)
  else if offset = GICC_PMR then (s.giccPmr.setWidth 64, s)
  else if offset = GICC_BPR then (s.giccBpr.setWidth 64, s)
  else if offset = GICC_IAR then
    let r := getPendingVirq v s.vgic
    (BitVec.ofNat 64 r.1, { s with vgic := r.2 })
  else if offset = GICC_RPR then (0xa0, s)
  else if offset = GICC_HPPIR then (0xa0, s)
  else if offset = GICC_IIDR then (0x43b#64 ||| 0x2#64 <<< 16, s)
  else (value, s)

/-- `vgicc_write` -/
def vgiccWrite (v : ι) (offset : ℕ) (value : BitVec 64) (s : Gicc ι) : Gicc ι :=
  if offset = GICC_CTLR then { s with giccCtlr := value.setWidth 32 }
  else if offset = GICC_PMR then { s with giccPmr := value.setWidth 32 }
  else if offset = GICC_BPR then { s with giccBpr := value.setWidth 32 }
  else if offset = GICC_EOIR then
    { s with vgic := clearPendingVirq C v (value.setWidth 32).toNat s.vgic }
  else s

inductive GiccEvent (ι : Type) where
  /-- `__send_virq` of the descriptor that `get_virq_desc` finds -/
  | send (v : ι) (virq src : ℕ)
  | read (v : ι) (offset : ℕ) (value : BitVec 64)
  | write (v : ι) (offset : ℕ) (value : BitVec 64)

def giccStep (s : Gicc ι) : GiccEvent ι → Gicc ι
  | .send v virq src =>
    match getVirqDesc C v virq with
    | none => s
    | some d => { s with vgic := sendVirq v d src s.vgic }
  | .read v offset value => (vgiccRead v offset value s).2
  | .write v offset value => vgiccWrite C v offset value s

/-- Fresh descriptors, and a cpu interface with zeros. -/
def Gicc.init (ι : Type) (requests : ℕ → Option Request) : Gicc ι := ⟨0, 0, 0, Vgic.init ι requests⟩

end Model

/-! ### The lists -/

namespace Vgic

variable {ι : Type}

/-- The descriptor is on one of the lists of the vcpu. -/
def On (s : Vgic ι) (v : ι) (d : VirqRef ι) : Prop :=
  d ∈ (s.structs v).pendingList ∨ d ∈ (s.structs v).activeList

/-- Lists, flags and states are in step. -/
structure InStep (s : Vgic ι) : Prop where
  /-- a descriptor is on at most one list of a vcpu, and only once -/
  nodup : ∀ v, ((s.structs v).pendingList ++ (s.structs v).activeList).Nodup
  apart : ∀ v w d, s.On v d → s.On w d → v = w
  /-- `list.next` is `NULL` exactly for the descriptors on no list -/
  linked : ∀ d, (s.descs d).linked = true ↔ ∃ v, s.On v d
  raised : ∀ v, ∀ d ∈ (s.structs v).pendingList, (s.descs d).pending = true
  flagged : ∀ d, (s.descs d).pending = true → ∃ v, s.On v d
  active : ∀ d, (s.descs d).state = .active ↔ ∃ v, d ∈ (s.structs v).activeList

/-- Which of the two lists. -/
inductive Which where
  | pending
  | active
deriving DecidableEq

/-- Each descriptor is where `place` says. -/
structure Placed (s : Vgic ι) (place : VirqRef ι → Option (ι × Which)) : Prop where
  pending : ∀ v d, d ∈ (s.structs v).pendingList ↔ place d = some (v, .pending)
  active : ∀ v d, d ∈ (s.structs v).activeList ↔ place d = some (v, .active)
  pendingNodup : ∀ v, (s.structs v).pendingList.Nodup
  activeNodup : ∀ v, (s.structs v).activeList.Nodup

/-- A descriptor says of itself where it is. -/
structure DescOk (desc : VirqDesc) (place : Option (ι × Which)) : Prop where
  linked : desc.linked = place.isSome
  raised : ∀ v, place = some (v, .pending) → desc.pending = true
  flagged : desc.pending = true → place.isSome
  active : desc.state = .active ↔ ∃ v, place = some (v, .active)

/-- The invariant of the trapped interface. -/
def Ok (s : Vgic ι) : Prop := ∃ place, s.Placed place ∧ ∀ d, DescOk (s.descs d) (place d)

variable {s : Vgic ι} {place : VirqRef ι → Option (ι × Which)} {v w : ι} {d e : VirqRef ι}

lemma Placed.on (h : s.Placed place) : s.On v d ↔ ∃ which, place d = some (v, which) := by
  rw [On, h.pending, h.active]
  constructor
  · rintro (h | h)
    · exact ⟨_, h⟩
    · exact ⟨_, h⟩
  · rintro ⟨which, h⟩
    cases which
    · exact Or.inl h
    · exact Or.inr h

lemma Ok.inStep (h : s.Ok) : s.InStep := by
  obtain ⟨place, hplace, hdesc⟩ := h
  constructor
  case nodup =>
    refine fun v => List.nodup_append.2 ⟨hplace.pendingNodup v, hplace.activeNodup v, ?_⟩
    rintro d hp e ha rfl
    rw [hplace.pending] at hp
    rw [hplace.active, hp] at ha
    cases ha
  case apart =>
    intro v w d hv hw
    obtain ⟨a, ha⟩ := hplace.on.1 hv
    obtain ⟨b, hb⟩ := hplace.on.1 hw
    rw [ha] at hb
    exact (Prod.mk.inj (Option.some.inj hb)).1
  case linked =>
    intro d
    simp only [hplace.on, (hdesc d).linked, Option.isSome_iff_exists, Prod.exists]
  case raised => exact fun v d hd => (hdesc d).raised v ((hplace.pending v d).1 hd)
  case flagged =>
    intro d hd
    obtain ⟨⟨v, which⟩, hv⟩ := Option.isSome_iff_exists.1 ((hdesc d).flagged hd)
    exact ⟨v, hplace.on.2 ⟨which, hv⟩⟩
  case active =>
    intro d
    simp only [(hdesc d).active, hplace.active]

lemma init_ok (requests : ℕ → Option Request) : (Vgic.init ι requests).Ok := by
  refine ⟨fun _ => none, ⟨by simp [init], by simp [init], by simp [init], by simp [init]⟩, ?_⟩
  intro d
  have hfresh : ((Vgic.init ι requests).descs d).linked = false ∧
      ((Vgic.init ι requests).descs d).pending = false ∧
      ((Vgic.init ι requests).descs d).state = .inactive := by
    cases d with
    | priv v virq => exact ⟨rfl, rfl, rfl⟩
    | spi n =>
      simp only [init]
      split <;> exact ⟨rfl, rfl, rfl⟩
  obtain ⟨hlinked, hpending, hstate⟩ := hfresh
  exact ⟨by simp [hlinked], by simp, by simp [hpending], by simp [hstate]⟩

lemma Ok.note (h : s.Ok) (a : Act ι) : (s.note a).Ok := by
  obtain ⟨place, ⟨hp, ha, hpn, han⟩, hdesc⟩ := h
  exact ⟨place, ⟨hp, ha, hpn, han⟩, hdesc⟩

/-! ### The moves -/

variable [DecidableEq ι]

/-- A move of one descriptor keeps the invariant if it leaves the other descriptors alone. -/
lemma Ok.move {s' : Vgic ι} {p : Option (ι × Which)}
    (hplace : s'.Placed (Function.update place d p))
    (hdesc : ∀ d, DescOk (s.descs d) (place d)) (hd : DescOk (s'.descs d) p)
    (hother : ∀ e, e ≠ d → s'.descs e = s.descs e) : s'.Ok := by
  refine ⟨_, hplace, fun e => ?_⟩
  by_cases he : e = d
  · subst he
    rwa [Function.update_self]
  · rw [Function.update_of_ne he, hother e he]
    exact hdesc e

lemma Placed.append (h : s.Placed place) (hd : place d = none) {s' : Vgic ι}
    (hs' : ∀ w, (s'.structs w).activeList = (s.structs w).activeList ∧
      (s'.structs w).pendingList =
        if w = v then (s.structs w).pendingList ++ [d] else (s.structs w).pendingList) :
    s'.Placed (Function.update place d (some (v, .pending))) := by
  have hne : ∀ {w which e}, place e = some (w, which) → e ≠ d := by
    rintro w which e he rfl
    rw [hd] at he
    cases he
  constructor
  case pending =>
    intro w e
    rw [(hs' w).2]
    by_cases he : e = d
    · subst he
      rw [Function.update_self, Option.some.injEq, Prod.mk.injEq]
      split_ifs with hw
      · simp [hw]
      · rw [h.pending, hd]
        simp [Ne.symm hw]
    · rw [Function.update_of_ne he, ← h.pending]
      split_ifs
      · simp [he]
      · rfl
  case active =>
    intro w e
    rw [(hs' w).1, h.active]
    by_cases he : e = d
    · subst he
      simp [hd]
    · rw [Function.update_of_ne he]
  case pendingNodup =>
    intro w
    rw [(hs' w).2]
    split_ifs
    · refine List.nodup_append.2 ⟨h.pendingNodup w, List.nodup_singleton d, ?_⟩
      rintro e he f hf rfl
      exact hne ((h.pending w e).1 he) (List.mem_singleton.1 hf)
    · exact h.pendingNodup w
  case activeNodup =>
    intro w
    rw [(hs' w).1]
    exact h.activeNodup w

lemma Placed.unlink (h : s.Placed place) :
    (unlink d s).Placed (Function.update place d none) := by
  have hmem : ∀ {l : List (VirqRef ι)} {e}, l.Nodup → (e ∈ l.erase d ↔ e ≠ d ∧ e ∈ l) :=
    fun hl => hl.mem_erase_iff
  constructor
  case pending =>
    intro w e
    refine (hmem (h.pendingNodup w)).trans ?_
    by_cases he : e = d
    · simp [he]
    · simp [he, h.pending]
  case active =>
    intro w e
    refine (hmem (h.activeNodup w)).trans ?_
    by_cases he : e = d
    · simp [he]
    · simp [he, h.active]
  case pendingNodup => exact fun w => (h.pendingNodup w).erase d
  case activeNodup => exact fun w => (h.activeNodup w).erase d

lemma Placed.takePending (h : s.Placed place) (hd : place d = some (v, .pending)) :
    (takePending v d s).Placed (Function.update place d (some (v, .active))) := by
  have hp : ∀ w, ((Virq.takePending v d s).structs w).pendingList =
      if w = v then (s.structs w).pendingList.erase d else (s.structs w).pendingList := by
    intro w
    by_cases hw : w = v
    · subst hw
      simp [Virq.takePending, setStruct, setDesc]
    · simp [Virq.takePending, setStruct, setDesc, hw]
  have ha : ∀ w, ((Virq.takePending v d s).structs w).activeList =
      if w = v then (s.structs w).activeList ++ [d] else (s.structs w).activeList := by
    intro w
    by_cases hw : w = v
    · subst hw
      simp [Virq.takePending, setStruct, setDesc]
    · simp [Virq.takePending, setStruct, setDesc, hw]
  constructor
  case pending =>
    intro w e
    rw [hp]
    by_cases he : e = d
    · subst he
      rw [Function.update_self]
      split_ifs with hw
      · simp [(h.pendingNodup w).mem_erase_iff]
      · rw [h.pending, hd]
        simp [Ne.symm hw]
    · rw [Function.update_of_ne he, ← h.pending]
      split_ifs
      · rw [List.mem_erase_of_ne he]
      · rfl
  case active =>
    intro w e
    rw [ha]
    by_cases he : e = d
    · subst he
      rw [Function.update_self, Option.some.injEq, Prod.mk.injEq]
      split_ifs with hw
      · simp [hw]
      · rw [h.active, hd]
        simp [Ne.symm hw]
    · rw [Function.update_of_ne he, ← h.active]
      split_ifs
      · simp [he]
      · rfl
  case pendingNodup =>
    intro w
    rw [hp]
    split_ifs
    · exact (h.pendingNodup w).erase d
    · exact h.pendingNodup w
  case activeNodup =>
    intro w
    rw [ha]
    split_ifs
    · refine List.nodup_append.2 ⟨h.activeNodup w, List.nodup_singleton d, ?_⟩
      rintro e he f hf rfl
      rw [h.active, List.mem_singleton.1 hf, hd] at he
      cases he
    · exact h.activeNodup w

/-! ### The operations keep the invariant -/

/-- What `__send_virq` makes of a descriptor that is not pending. -/
lemma sendVirq_descs {src : ℕ} (hd : (s.descs d).pending = false) (e : VirqRef ι) :
    (sendVirq v d src s).descs e =
      if e = d then { s.descs d with
        pending := true
        linked := true
        src := if (s.descs d).vno < VM_SGI_VIRQ_NR then src else (s.descs d).src }
      else s.descs e := by
  by_cases he : e = d
  · subst he
    cases hl : (s.descs e).linked <;>
      simp only [sendVirq, hd, Bool.false_eq_true, if_false, if_true, setDesc, Vgic.note, enqueue,
        setStruct, Function.update_self, hl] <;> split_ifs <;> simp
  · cases hl : (s.descs d).linked <;>
      simp [sendVirq, hd, setDesc, Vgic.note, enqueue, setStruct, hl, he]

lemma sendVirq_structs {src : ℕ} (hd : (s.descs d).pending = false) (w : ι) :
    ((sendVirq v d src s).structs w).activeList = (s.structs w).activeList ∧
    ((sendVirq v d src s).structs w).pendingList =
      if (s.descs d).linked = false ∧ w = v then (s.structs w).pendingList ++ [d]
      else (s.structs w).pendingList := by
  by_cases hw : w = v
  · subst hw
    cases hl : (s.descs d).linked <;>
      simp [sendVirq, hd, setDesc, Vgic.note, enqueue, setStruct, hl]
  · cases hl : (s.descs d).linked <;>
      simp [sendVirq, hd, setDesc, Vgic.note, enqueue, setStruct, hl, hw]

lemma Ok.sendVirq (h : s.Ok) (v : ι) (d : VirqRef ι) (src : ℕ) : (sendVirq v d src s).Ok := by
  by_cases hpend : (s.descs d).pending = true
  · rw [Virq.sendVirq, if_pos hpend]
    exact h.note _
  · rw [Bool.not_eq_true] at hpend
    obtain ⟨place, hplace, hdesc⟩ := h
    have hself : (Virq.sendVirq v d src s).descs d = _ := sendVirq_descs hpend d
    have hother : ∀ e, e ≠ d → (Virq.sendVirq v d src s).descs e = s.descs e := fun e he => by
      rw [sendVirq_descs hpend, if_neg he]
    have hstructs : ∀ w, ((Virq.sendVirq v d src s).structs w).activeList = _ ∧ _ :=
      sendVirq_structs hpend
    rw [if_pos rfl] at hself
    cases hp : place d with
    | none =>
      have hlinked : (s.descs d).linked = false := by rw [(hdesc d).linked, hp]; rfl
      refine Ok.move (hplace.append (v := v) hp fun w => ?_) hdesc ?_ hother
      · simpa [hlinked] using hstructs w
      · rw [hself]
        refine ⟨rfl, fun _ _ => rfl, fun _ => rfl, ?_⟩
        have := (hdesc d).active
        rw [hp] at this
        simpa using this
    | some p =>
      have hlinked : (s.descs d).linked = true := by rw [(hdesc d).linked, hp]; rfl
      have hlists : ∀ w, ((Virq.sendVirq v d src s).structs w).activeList =
            (s.structs w).activeList ∧
          ((Virq.sendVirq v d src s).structs w).pendingList = (s.structs w).pendingList :=
        fun w => by simpa [hlinked] using hstructs w
      have hsame : (Virq.sendVirq v d src s).Placed (Function.update place d (some p)) := by
        rw [← hp, Function.update_eq_self]
        obtain ⟨h1, h2, h3, h4⟩ := hplace
        exact ⟨fun w => by rw [(hlists w).2]; exact h1 w, fun w => by rw [(hlists w).1]; exact h2 w,
          fun w => by rw [(hlists w).2]; exact h3 w, fun w => by rw [(hlists w).1]; exact h4 w⟩
      refine Ok.move hsame hdesc ?_ hother
      rw [hself]
      have := (hdesc d).active
      rw [hp] at this
      exact ⟨rfl, fun _ _ => rfl, fun _ => rfl, this⟩

lemma getPendingVirq_cons {rest : List (VirqRef ι)}
    (hl : (s.structs v).pendingList = d :: rest) :
    getPendingVirq v s = ((s.descs d).vno, Virq.takePending v d s) := by
  simp only [getPendingVirq, hl]

lemma takePending_descs (e : VirqRef ι) :
    (Virq.takePending v d s).descs e =
      if e = d then { s.descs d with
        state := .active
        pending := false }
      else s.descs e := by
  by_cases he : e = d
  · subst he
    simp [Virq.takePending, setStruct, setDesc]
  · simp [Virq.takePending, setStruct, setDesc, he]

lemma Ok.getPendingVirq (h : s.Ok) (v : ι) : (getPendingVirq v s).2.Ok := by
  rcases hl : (s.structs v).pendingList with _ | ⟨d, rest⟩
  · simpa [Virq.getPendingVirq, hl] using h
  · rw [getPendingVirq_cons hl]
    obtain ⟨place, hplace, hdesc⟩ := h
    have hp : place d = some (v, .pending) := (hplace.pending v d).1 (by simp [hl])
    refine Ok.move (hplace.takePending hp) hdesc ?_ fun e he => ?_
    · rw [takePending_descs, if_pos rfl]
      have hlinked := (hdesc d).linked
      rw [hp] at hlinked
      exact ⟨hlinked, by simp, by simp, by simp⟩
    · rw [takePending_descs, if_neg he]

/-- What the end of an interrupt does to a descriptor that is active. -/
lemma clearPendingVirq_descs {C : Chip} {irq : ℕ} (h : s.Ok) (hd : getVirqDesc C v irq = some d)
    (hactive : (s.descs d).state = .active) (e : VirqRef ι) :
    (clearPendingVirq C v irq s).descs e =
      if e = d then { s.descs d with
        state := if (s.descs d).pending then .pending else .inactive
        linked := (s.descs d).pending }
      else s.descs e := by
  have hlinked : (s.descs d).linked = true := by
    obtain ⟨w, hw⟩ := (h.inStep.active d).1 hactive
    exact (h.inStep.linked d).2 ⟨w, Or.inr hw⟩
  by_cases he : e = d
  · subst he
    cases hp : (s.descs e).pending <;>
      simp [clearPendingVirq, hd, hactive, hlinked, Virq.unlink, setDesc, requeuePending, setStruct,
        hp]
  · cases hp : (s.descs d).pending <;>
      simp [clearPendingVirq, hd, hactive, hlinked, Virq.unlink, setDesc, requeuePending, setStruct,
        hp, he]

lemma clearPendingVirq_placed {C : Chip} {irq : ℕ} (h : s.Ok) (hplace : s.Placed place)
    (hd : getVirqDesc C v irq = some d) (hactive : (s.descs d).state = .active) :
    (clearPendingVirq C v irq s).Placed (Function.update place d
      (if (s.descs d).pending then some (v, .pending) else none)) := by
  have hlinked : (s.descs d).linked = true := by
    obtain ⟨w, hw⟩ := (h.inStep.active d).1 hactive
    exact (h.inStep.linked d).2 ⟨w, Or.inr hw⟩
  have hunlink := hplace.unlink (d := d)
  have hpend : ((Virq.unlink d s).descs d).pending = (s.descs d).pending := by
    simp [Virq.unlink, setDesc]
  rw [clearPendingVirq]
  simp only [hd, hactive, ne_eq, not_true_eq_false, if_false, hlinked, if_true, hpend]
  cases hp : (s.descs d).pending with
  | false =>
    simp only [Bool.false_eq_true, if_false]
    obtain ⟨h1, h2, h3, h4⟩ := hunlink
    exact ⟨h1, h2, h3, h4⟩
  | true =>
    simp only [if_true]
    have happend : (requeuePending v d (Virq.unlink d s)).Placed _ :=
      hunlink.append (v := v) (Function.update_self ..) fun w => by
        by_cases hw : w = v
        · subst hw
          simp [requeuePending, setStruct, setDesc]
        · simp [requeuePending, setStruct, setDesc, hw]
    rwa [Function.update_idem] at happend

lemma Ok.clearPendingVirq {C : Chip} (h : s.Ok) (v : ι) (irq : ℕ) :
    (clearPendingVirq C v irq s).Ok := by
  cases hd : getVirqDesc C v irq with
  | none => simpa [Virq.clearPendingVirq, hd] using h
  | some d =>
    by_cases hactive : (s.descs d).state = .active
    · have hdescs := clearPendingVirq_descs h hd hactive
      obtain ⟨place, hplace, hdesc⟩ := id h
      refine Ok.move (clearPendingVirq_placed h hplace hd hactive) hdesc ?_ fun e he => ?_
      · rw [hdescs, if_pos rfl]
        cases hp : (s.descs d).pending with
        | false => exact ⟨by simp, by simp, by simp [hp], by simp⟩
        | true => exact ⟨by simp, by simp [hp], by simp, by simp⟩
      · rw [hdescs, if_neg he]
    · simpa [Virq.clearPendingVirq, hd, hactive] using h

/-! ### Where an operation can put a descriptor -/

lemma on_sendVirq {src : ℕ} (h : (sendVirq v d src s).On w e) : s.On w e ∨ w = v ∧ e = d := by
  by_cases hpend : (s.descs d).pending = true
  · rw [Virq.sendVirq, if_pos hpend] at h
    exact Or.inl h
  · have hd : (s.descs d).pending = false := by simpa using hpend
    rw [On, (sendVirq_structs hd w).1, (sendVirq_structs hd w).2] at h
    split_ifs at h with hw
    · simp only [List.mem_append, List.mem_singleton] at h
      rcases h with (h | h) | h
      · exact Or.inl (Or.inl h)
      · exact Or.inr ⟨hw.2, h⟩
      · exact Or.inl (Or.inr h)
    · exact Or.inl h

lemma on_getPendingVirq (hs : s.Ok) (h : (getPendingVirq v s).2.On w e) : s.On w e := by
  rcases hl : (s.structs v).pendingList with _ | ⟨d, rest⟩
  · simpa [Virq.getPendingVirq, hl] using h
  · rw [getPendingVirq_cons hl] at h
    obtain ⟨place, hplace, -⟩ := hs
    have hp : place d = some (v, .pending) := (hplace.pending v d).1 (by simp [hl])
    obtain ⟨which, he⟩ := (hplace.takePending hp).on.1 h
    by_cases hed : e = d
    · subst hed
      rw [Function.update_self] at he
      obtain rfl := (Prod.mk.inj (Option.some.inj he)).1
      exact hplace.on.2 ⟨_, hp⟩
    · rw [Function.update_of_ne hed] at he
      exact hplace.on.2 ⟨which, he⟩

lemma on_clearPendingVirq {C : Chip} {irq : ℕ} (hs : s.Ok)
    (h : (clearPendingVirq C v irq s).On w e) :
    s.On w e ∨ w = v ∧ getVirqDesc C v irq = some e ∧ ∃ u, s.On u e := by
  cases hd : getVirqDesc C v irq with
  | none => exact Or.inl (by simpa [Virq.clearPendingVirq, hd] using h)
  | some d =>
    by_cases hactive : (s.descs d).state = .active
    · obtain ⟨place, hplace, -⟩ := id hs
      obtain ⟨which, he⟩ := (clearPendingVirq_placed hs hplace hd hactive).on.1 h
      by_cases hed : e = d
      · subst hed
        rw [Function.update_self] at he
        split_ifs at he
        obtain rfl := (Prod.mk.inj (Option.some.inj he)).1
        obtain ⟨u, hu⟩ := (hs.inStep.active e).1 hactive
        exact Or.inr ⟨rfl, rfl, u, Or.inr hu⟩
      · rw [Function.update_of_ne hed] at he
        exact Or.inl (hplace.on.2 ⟨which, he⟩)
    · exact Or.inl (by simpa [Virq.clearPendingVirq, hd, hactive] using h)

/-! ### The pending flag -/

lemma sendVirq_pending {src : ℕ} (e : VirqRef ι) :
    ((sendVirq v d src s).descs e).pending = (decide (e = d) || (s.descs e).pending) := by
  by_cases hpend : (s.descs d).pending = true
  · rw [Virq.sendVirq, if_pos hpend]
    by_cases he : e = d
    · subst he
      simp [Vgic.note, hpend]
    · simp [Vgic.note, he]
  · rw [sendVirq_descs (by simpa using hpend)]
    split_ifs with he <;> simp [he]

lemma clearPendingVirq_pending {C : Chip} {irq : ℕ} (hs : s.Ok) (e : VirqRef ι) :
    ((clearPendingVirq C v irq s).descs e).pending = (s.descs e).pending := by
  cases hd : getVirqDesc C v irq with
  | none => simp [Virq.clearPendingVirq, hd]
  | some d =>
    by_cases hactive : (s.descs d).state = .active
    · rw [clearPendingVirq_descs hs hd hactive]
      by_cases he : e = d
      · rw [if_pos he, he]
      · rw [if_neg he]
    · simp [Virq.clearPendingVirq, hd, hactive]

lemma clearPendingVirq_vno {C : Chip} {irq : ℕ} (hs : s.Ok) (e : VirqRef ι) :
    ((clearPendingVirq C v irq s).descs e).vno = (s.descs e).vno := by
  cases hd : getVirqDesc C v irq with
  | none => simp [Virq.clearPendingVirq, hd]
  | some d =>
    by_cases hactive : (s.descs d).state = .active
    · rw [clearPendingVirq_descs hs hd hactive]
      by_cases he : e = d
      · rw [if_pos he, he]
      · rw [if_neg he]
    · simp [Virq.clearPendingVirq, hd, hactive]

end Vgic

/-! ### Runs -/

section Runs

variable {ι : Type} [DecidableEq ι] {C : Chip} {s : Gicc ι} {e : GiccEvent ι} {d : VirqRef ι}

/-- The event is a read of `GICC_IAR` that acknowledges the descriptor. -/
def Takes (s : Gicc ι) (e : GiccEvent ι) (d : VirqRef ι) : Prop :=
  ∃ v value, e = .read v GICC_IAR value ∧ (s.vgic.structs v).pendingList.head? = some d

/-- The event is a read of `GICC_IAR` that returns the number by which the vcpu knows the
descriptor. -/
def Returns (C : Chip) (s : Gicc ι) (e : GiccEvent ι) (d : VirqRef ι) : Prop :=
  ∃ v value virq, e = .read v GICC_IAR value ∧ getVirqDesc C v virq = some d ∧
    (vgiccRead v GICC_IAR value s).1 = BitVec.ofNat 64 virq

lemma vgiccRead_iar (v : ι) (value : BitVec 64) :
    vgiccRead v GICC_IAR value s = (BitVec.ofNat 64 (getPendingVirq v s.vgic).1,
      { s with vgic := (getPendingVirq v s.vgic).2 }) := rfl

lemma vgiccRead_of_ne {v : ι} {offset : ℕ} {value : BitVec 64} (h : offset ≠ GICC_IAR) :
    (vgiccRead v offset value s).2 = s := by
  simp only [vgiccRead, h, if_false, apply_ite Prod.snd, ite_self]

lemma vgiccWrite_eoir (v : ι) (value : BitVec 64) :
    vgiccWrite C v GICC_EOIR value s =
      { s with vgic := clearPendingVirq C v (value.setWidth 32).toNat s.vgic } := rfl

lemma vgiccWrite_of_ne {v : ι} {offset : ℕ} {value : BitVec 64} (h : offset ≠ GICC_EOIR) :
    (vgiccWrite C v offset value s).vgic = s.vgic := by
  simp only [vgiccWrite, h, if_false, apply_ite Gicc.vgic, ite_self]

lemma giccStep_ok (h : s.vgic.Ok) : (giccStep C s e).vgic.Ok := by
  cases e with
  | send v virq src =>
    rw [giccStep]
    cases getVirqDesc C v virq with
    | none => exact h
    | some d => exact h.sendVirq v d src
  | read v offset value =>
    by_cases hoff : offset = GICC_IAR
    · subst hoff
      exact h.getPendingVirq v
    · rw [giccStep, vgiccRead_of_ne hoff]
      exact h
  | write v offset value =>
    by_cases hoff : offset = GICC_EOIR
    · subst hoff
      exact h.clearPendingVirq v _
    · rw [giccStep, vgiccWrite_of_ne hoff]
      exact h

/-- Only the acknowledgement of a descriptor clears its flag. -/
lemma giccStep_clears_iff (h : s.vgic.Ok) :
    (s.vgic.descs d).pending = true ∧ ((giccStep C s e).vgic.descs d).pending = false ↔
      Takes s e d := by
  constructor
  · rintro ⟨hbefore, hafter⟩
    cases e with
    | send v virq src =>
      rw [giccStep] at hafter
      cases hd : getVirqDesc C v virq with
      | none =>
        rw [hd] at hafter
        exact absurd hbefore (by simp [hafter])
      | some d' =>
        rw [hd] at hafter
        simp [Vgic.sendVirq_pending, hbefore] at hafter
    | read v offset value =>
      by_cases hoff : offset = GICC_IAR
      · subst hoff
        refine ⟨v, value, rfl, ?_⟩
        rw [giccStep, vgiccRead_iar] at hafter
        rcases hl : (s.vgic.structs v).pendingList with _ | ⟨d', rest⟩
        · simp [getPendingVirq, hl, hbefore] at hafter
        · rw [Vgic.getPendingVirq_cons hl] at hafter
          dsimp only at hafter
          rw [Vgic.takePending_descs] at hafter
          split_ifs at hafter with he
          · rw [he]
            rfl
          · exact absurd hbefore (by simp [hafter])
      · rw [giccStep, vgiccRead_of_ne hoff] at hafter
        exact absurd hbefore (by simp [hafter])
    | write v offset value =>
      refine absurd hbefore ?_
      by_cases hoff : offset = GICC_EOIR
      · subst hoff
        rw [giccStep, vgiccWrite_eoir] at hafter
        dsimp only at hafter
        rw [Vgic.clearPendingVirq_pending h] at hafter
        simp [hafter]
      · rw [giccStep, vgiccWrite_of_ne hoff] at hafter
        simp [hafter]
  · rintro ⟨v, value, rfl, hhead⟩
    rcases hl : (s.vgic.structs v).pendingList with _ | ⟨d', rest⟩
    · simp [hl] at hhead
    · obtain rfl : d' = d := by simpa [hl] using hhead
      refine ⟨h.inStep.raised v d' (by simp [hl]), ?_⟩
      rw [giccStep, vgiccRead_iar, Vgic.getPendingVirq_cons hl]
      dsimp only
      rw [Vgic.takePending_descs, if_pos rfl]

/-- From the raise of a descriptor that was not pending to the moment its flag is cleared, one read
of `GICC_IAR` acknowledges it: the last event. -/
def AcknowledgedOnce (C : Chip) (s₀ : Gicc ι) (es : List (GiccEvent ι)) : Prop :=
  ∀ pre v virq src d mid f post, es = pre ++ .send v virq src :: (mid ++ f :: post) →
    getVirqDesc C v virq = some d →
    ((exec (giccStep C) s₀ pre).vgic.descs d).pending = false →
    let raised := giccStep C (exec (giccStep C) s₀ pre) (.send v virq src)
    (∀ n ≤ mid.length, ((exec (giccStep C) raised (mid.take n)).vgic.descs d).pending = true) →
    ((giccStep C (exec (giccStep C) raised mid) f).vgic.descs d).pending = false →
    Takes (exec (giccStep C) raised mid) f d ∧
      ∀ a g b, mid = a ++ g :: b → ¬ Takes (exec (giccStep C) raised a) g d

/-- A descriptor that is raised while it is active stays active, and its end of interrupt brings it
to the pending list of the vcpu. -/
def ReturnsToPending (C : Chip) (s : Vgic ι) : Prop :=
  ∀ v virq d, getVirqDesc C v virq = some d → (s.descs d).state = .active →
    (∀ u src, ((sendVirq u d src s).descs d).state = .active ∧
      ((sendVirq u d src s).descs d).pending = true ∧
      ∀ w, ((sendVirq u d src s).structs w).activeList = (s.structs w).activeList) ∧
    ((s.descs d).pending = true →
      d ∈ ((clearPendingVirq C v virq s).structs v).pendingList ∧
      ((clearPendingVirq C v virq s).descs d).state = .pending ∧
      ∀ w, d ∉ ((clearPendingVirq C v virq s).structs w).activeList)

/-- The descriptors that the VM may raise carry their numbers, and a list of a vcpu has only such as
the vcpu can name. -/
structure Named (C : Chip) (requests : ℕ → Option Request) (s : Vgic ι) : Prop where
  number : ∀ v virq d, getVirqDesc C v virq = some d → d.Requested requests →
    (s.descs d).vno = virq
  seen : ∀ v d, s.On v d → d.Requested requests ∧ ∃ virq, getVirqDesc C v virq = some d

/-- Every SPI that is sent was requested. -/
def GiccEvent.Legit (requests : ℕ → Option Request) : GiccEvent ι → Prop
  | .send _ virq _ => virq < VM_LOCAL_VIRQ_NR ∨ (requests (virq - VM_LOCAL_VIRQ_NR)).isSome
  | _ => True

variable {requests : ℕ → Option Request}

omit [DecidableEq ι] in
lemma init_named (C : Chip) (requests : ℕ → Option Request) :
    Named C requests (Vgic.init ι requests) where
  number v virq d hd hreq := by
    rw [getVirqDesc] at hd
    split_ifs at hd with hlocal hrange
    · cases hd
      rfl
    · cases hd
      obtain ⟨r, hr⟩ := Option.isSome_iff_exists.1 hreq
      simp only [Vgic.init, hr, requestVirq]
      omega
  seen v d hd := by
    rcases hd with hd | hd <;> cases hd

omit [DecidableEq ι] in
lemma requested_of_legit {v : ι} {virq src : ℕ}
    (h : (GiccEvent.send v virq src).Legit requests) (hd : getVirqDesc C v virq = some d) :
    d.Requested requests := by
  rw [getVirqDesc] at hd
  split_ifs at hd with hlocal hrange
  · cases hd
    trivial
  · cases hd
    exact h.resolve_left hlocal

lemma giccStep_vno (h : s.vgic.Ok) (d : VirqRef ι) :
    ((giccStep C s e).vgic.descs d).vno = (s.vgic.descs d).vno := by
  cases e with
  | send v virq src =>
    rw [giccStep]
    cases hd : getVirqDesc C v virq with
    | none => rfl
    | some d' =>
      dsimp only
      by_cases hpend : (s.vgic.descs d').pending = true
      · rw [sendVirq, if_pos hpend]
        rfl
      · rw [Vgic.sendVirq_descs (by simpa using hpend)]
        by_cases he : d = d'
        · rw [if_pos he, he]
        · rw [if_neg he]
  | read v offset value =>
    by_cases hoff : offset = GICC_IAR
    · subst hoff
      rw [giccStep, vgiccRead_iar]
      rcases hl : (s.vgic.structs v).pendingList with _ | ⟨d', rest⟩
      · simp [getPendingVirq, hl]
      · rw [Vgic.getPendingVirq_cons hl]
        dsimp only
        rw [Vgic.takePending_descs]
        by_cases he : d = d'
        · rw [if_pos he, he]
        · rw [if_neg he]
    · rw [giccStep, vgiccRead_of_ne hoff]
  | write v offset value =>
    by_cases hoff : offset = GICC_EOIR
    · subst hoff
      rw [giccStep, vgiccWrite_eoir]
      exact Vgic.clearPendingVirq_vno h d
    · rw [giccStep, vgiccWrite_of_ne hoff]

lemma giccStep_named (h : s.vgic.Ok) (hn : Named C requests s.vgic) (he : e.Legit requests) :
    Named C requests (giccStep C s e).vgic where
  number v virq d hd hreq := by
    rw [giccStep_vno h]
    exact hn.number v virq d hd hreq
  seen w d hw := by
    cases e with
    | send v virq src =>
      rw [giccStep] at hw
      cases hd : getVirqDesc C v virq with
      | none =>
        rw [hd] at hw
        exact hn.seen w d hw
      | some d' =>
        rw [hd] at hw
        rcases Vgic.on_sendVirq hw with hw | ⟨rfl, rfl⟩
        · exact hn.seen w d hw
        · exact ⟨requested_of_legit he hd, virq, hd⟩
    | read v offset value =>
      by_cases hoff : offset = GICC_IAR
      · subst hoff
        exact hn.seen w d (Vgic.on_getPendingVirq h hw)
      · rw [giccStep, vgiccRead_of_ne hoff] at hw
        exact hn.seen w d hw
    | write v offset value =>
      by_cases hoff : offset = GICC_EOIR
      · subst hoff
        rcases Vgic.on_clearPendingVirq h hw with hw | ⟨rfl, hd, u, hu⟩
        · exact hn.seen w d hw
        · exact ⟨(hn.seen u d hu).1, _, hd⟩
      · rw [giccStep, vgiccWrite_of_ne hoff] at hw
        exact hn.seen w d hw

/-- A read that returns the number of a descriptor acknowledges it, and the other way round. -/
lemma returns_iff_takes (hn : Named C requests s.vgic)
    (hbad : C.vspiNr + VM_LOCAL_VIRQ_NR ≤ BAD_IRQ) :
    Returns C s e d ↔ Takes s e d := by
  have hlt : ∀ (v : ι) (virq : ℕ) (d : VirqRef ι), getVirqDesc C v virq = some d →
      virq < BAD_IRQ := by
    intro v virq d hd
    rw [getVirqDesc] at hd
    split_ifs at hd <;> simp only [VM_LOCAL_VIRQ_NR] at * <;> omega
  have hinj : ∀ m n : ℕ, m ≤ BAD_IRQ → n ≤ BAD_IRQ → BitVec.ofNat 64 m = BitVec.ofNat 64 n →
      m = n := by
    intro m n hm hn heq
    simp only [BAD_IRQ] at hm hn
    have := congrArg BitVec.toNat heq
    rwa [BitVec.toNat_ofNat, BitVec.toNat_ofNat, Nat.mod_eq_of_lt (by omega),
      Nat.mod_eq_of_lt (by omega)] at this
  have hvno : ∀ v d rest, (s.vgic.structs v).pendingList = d :: rest →
      getVirqDesc C v (s.vgic.descs d).vno = some d := by
    intro v d rest hl
    obtain ⟨hreq, virq, hd⟩ := hn.seen v d (Or.inl (by simp [hl]))
    rwa [hn.number v virq d hd hreq]
  constructor
  · rintro ⟨v, value, virq, rfl, hd, hval⟩
    refine ⟨v, value, rfl, ?_⟩
    rw [vgiccRead_iar] at hval
    have hvirq := hlt v virq d hd
    rcases hl : (s.vgic.structs v).pendingList with _ | ⟨d', rest⟩
    · simp only [getPendingVirq, hl] at hval
      have := hinj _ _ le_rfl hvirq.le hval
      omega
    · rw [Vgic.getPendingVirq_cons hl] at hval
      have hd' := hvno v d' rest hl
      have := hinj _ _ (hlt _ _ _ hd').le hvirq.le hval
      rw [this, hd] at hd'
      exact congrArg some (Option.some.inj hd').symm
  · rintro ⟨v, value, rfl, hhead⟩
    rcases hl : (s.vgic.structs v).pendingList with _ | ⟨d', rest⟩
    · simp [hl] at hhead
    · obtain rfl : d' = d := by simpa [hl] using hhead
      refine ⟨v, value, _, rfl, hvno v d' rest hl, ?_⟩
      rw [vgiccRead_iar, Vgic.getPendingVirq_cons hl]

/-! ### Every run -/

lemma exec_ok (h : s.vgic.Ok) (es : List (GiccEvent ι)) : (exec (giccStep C) s es).vgic.Ok := by
  induction es generalizing s with
  | nil => exact h
  | cons e es ih => exact ih (giccStep_ok h)

lemma acknowledgedOnce (h : s.vgic.Ok) (es : List (GiccEvent ι)) : AcknowledgedOnce C s es := by
  intro pre v virq src d mid f post _ hd hpend raised hmid hf
  have hraised : raised.vgic.Ok := giccStep_ok (exec_ok h pre)
  refine ⟨(giccStep_clears_iff (exec_ok hraised mid)).1 ⟨?_, hf⟩, fun a g b hmid' htakes => ?_⟩
  · simpa using hmid mid.length le_rfl
  · have hcleared := ((giccStep_clears_iff (C := C) (exec_ok hraised a)).2 htakes).2
    have hstill := hmid (a.length + 1) (by simp [hmid'])
    rw [hmid', List.take_append, List.take_of_length_le (by omega), Nat.add_sub_cancel_left,
      exec_append] at hstill
    simp only [List.take_succ_cons, List.take_zero, exec_cons, exec_nil] at hstill
    rw [hcleared] at hstill
    cases hstill

lemma returnsToPending {s : Vgic ι} (h : s.Ok) : ReturnsToPending C s := by
  intro v virq d hd hactive
  have hlinked : (s.descs d).linked = true := by
    obtain ⟨w, hw⟩ := (h.inStep.active d).1 hactive
    exact (h.inStep.linked d).2 ⟨w, Or.inr hw⟩
  refine ⟨fun u src => ⟨?_, ?_, fun w => ?_⟩, fun hpend => ?_⟩
  · by_cases hpend : (s.descs d).pending = true
    · rw [sendVirq, if_pos hpend]
      exact hactive
    · rw [Vgic.sendVirq_descs (by simpa using hpend), if_pos rfl]
      exact hactive
  · simp [Vgic.sendVirq_pending]
  · by_cases hpend : (s.descs d).pending = true
    · rw [sendVirq, if_pos hpend]
      rfl
    · exact (Vgic.sendVirq_structs (by simpa using hpend) w).1
  · obtain ⟨place, hplace, -⟩ := id h
    have hnew := Vgic.clearPendingVirq_placed h hplace hd hactive
    rw [if_pos hpend] at hnew
    refine ⟨(hnew.pending v d).2 (Function.update_self ..), ?_, fun w hw => ?_⟩
    · rw [Vgic.clearPendingVirq_descs h hd hactive, if_pos rfl]
      simp [hpend]
    · have := (hnew.active w d).1 hw
      rw [Function.update_self] at this
      cases this

/-- In every run of raises, acknowledgements and ends of interrupts the lists, flags and states are
in step, a raise is acknowledged once, a raise of an active interrupt returns to the pending list,
and the end of an interrupt that is not active changes nothing. If every SPI that is sent was
requested, the acknowledgement of a descriptor is the read that returns its number. -/
theorem trapped_interface (C : Chip) (requests : ℕ → Option Request) (es : List (GiccEvent ι)) :
    let s := exec (giccStep C) (Gicc.init ι requests) es
    s.vgic.InStep ∧
    AcknowledgedOnce C (Gicc.init ι requests) es ∧
    ReturnsToPending C s.vgic ∧
    (∀ v value, (∀ d, getVirqDesc C v (BitVec.setWidth 32 value).toNat = some d →
        (s.vgic.descs d).state ≠ .active) →
      giccStep C s (.write v GICC_EOIR value) = s) ∧
    ((∀ e ∈ es, e.Legit requests) → C.vspiNr + VM_LOCAL_VIRQ_NR ≤ BAD_IRQ →
      Along (giccStep C) (fun s e => ∀ d, Returns C s e d ↔ Takes s e d) (Gicc.init ι requests)
        es) := by
  intro s
  have hinit : (Gicc.init ι requests).vgic.Ok := Vgic.init_ok requests
  have hs : s.vgic.Ok := exec_ok hinit es
  refine ⟨hs.inStep, acknowledgedOnce hinit es, returnsToPending hs, fun v value hstate => ?_,
    fun hlegit hbad => ?_⟩
  · have hsame : clearPendingVirq C v (BitVec.setWidth 32 value).toNat s.vgic = s.vgic := by
      rw [clearPendingVirq]
      split
      · rfl
      · rename_i d hd
        rw [if_pos (hstate d hd)]
    rw [giccStep, vgiccWrite_eoir, hsame]
  · exact along_induction (I := fun s : Gicc ι => s.vgic.Ok ∧ Named C requests s.vgic)
      (fun s e h he => ⟨giccStep_ok h.1, giccStep_named h.1 h.2 he⟩)
      (fun s e h _ d => returns_iff_takes h.2 hbad) ⟨hinit, init_named C requests⟩
      (along_const.2 hlegit)

/-- An SPI is raised, acknowledged, raised again while it is active, ended by another vcpu and
acknowledged there. -/
theorem trapped_interface_two_vcpus :
    let C : Chip := ⟨.v2, 1, 8, by decide, by decide⟩
    let requests := fun n => if n = 0 then some ⟨0, 1, 0, false, true⟩ else none
    let es : List (GiccEvent Bool) := [.send true 32 0, .read true GICC_IAR 0, .send true 32 0,
      .write false GICC_EOIR 32, .read false GICC_IAR 0]
    (exec (giccStep C) (Gicc.init Bool requests) es).vgic.InStep ∧
    Along (giccStep C) (fun s e => ∀ d, Returns C s e d ↔ Takes s e d) (Gicc.init Bool requests)
      es ∧
    ((exec (giccStep C) (Gicc.init Bool requests) es).vgic.structs false).activeList =
      [.spi 0] := by
  intro C requests es
  have h := trapped_interface C requests es
  refine ⟨h.1, h.2.2.2.2 ?_ (by decide), by decide⟩
  simp [es, GiccEvent.Legit, requests, VM_LOCAL_VIRQ_NR]

end Runs

end Minos.Virq
