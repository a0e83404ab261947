import Mathlib
import Minos.Virq.ListInvariant
import Minos.Virq.Release

/-!
# The list registers of interrupts that come and go

The loops of the entry to the guest and of the exit from it read and write list registers. Here the
descriptors on the lists are those that the pointers lead to, and the list invariant holds of them
as long as nothing happens to the pointers from outside.
-/

namespace Minos.Virq

open Bitmap DList

/-- The number of the interrupt. -/
def VirqRef.number {ι : Type} : VirqRef ι → ℕ
  | .priv _ virq => virq
  | .spi n => n + VM_LOCAL_VIRQ_NR

namespace View

variable {ι : Type} [DecidableEq ι] {R R' : VirqRef ι → Prop} {nr : ℕ} {W : View ι} {d : VirqRef ι}

/-- The descriptor is written anew, with this id. -/
def renew (W : View ι) (d : VirqRef ι) (id : ℕ) : View ι :=
  { W with
    id := Function.update W.id d id
    flag := Function.update W.flag d false
    linked := Function.update W.linked d false }

lemma on_renew {id : ℕ} {v : ι} {e : VirqRef ι} : (W.renew d id).On v e ↔ W.On v e := Iff.rfl

/-- A descriptor that is on no list may be written anew, whether it is requested afterwards or not.
-/
lemma renew_inv {id : ℕ} (h : W.Inv R nr) (hd : ∀ v, ¬ W.On v d)
    (hR : ∀ e, e ≠ d → (R' e ↔ R e)) (hid : R' d → id = VIRQ_INVALID_ID) :
    (W.renew d id).Inv R' nr := by
  have hne : ∀ {v e}, W.On v e → e ≠ d := by
    rintro v e he rfl
    exact hd v he
  constructor
  case nodup => exact h.nodup
  case apart => exact h.apart
  case requested => exact fun v e he => (hR e (hne he)).2 (h.requested v e he)
  case linked =>
    intro e he
    simp only [on_renew]
    by_cases hed : e = d
    · subst hed
      simpa [renew] using hd
    · simpa [renew, hed] using h.linked e ((hR e hed).1 he)
  case raised =>
    intro v e he
    simpa [renew, hne (Or.inl he)] using h.raised v e he
  case flagged =>
    intro e he hf
    by_cases hed : e = d
    · simp [renew, hed] at hf
    · exact h.flagged e ((hR e hed).1 he) (by simpa [renew, hed] using hf)
  case active =>
    intro v e he
    simpa [renew, hne (Or.inr he)] using h.active v e he
  case bound =>
    intro v e he
    simpa [renew, hne he] using h.bound v e he
  case inj =>
    intro v e f he hf
    simpa [renew, hne he, hne hf] using h.inj v e f he hf
  case unused =>
    intro e he hnot
    by_cases hed : e = d
    · subst hed
      simpa [renew] using hid he
    · simpa [renew, hed] using h.unused e ((hR e hed).1 he) hnot
  case bits =>
    intro v i
    refine (h.bits v i).trans (and_congr_right fun _ => exists_congr fun e => ?_)
    refine and_congr_right fun he => ?_
    simp [renew, hne he]

end View

/-! ### Accesses to the list registers -/

/-- A call of the chip for a descriptor, with the state in which it is called. -/
inductive LrAccess (ι : Type) where
  /-- `virqchip_send_virq` -/
  | write (d : VirqRef ι) (s : VmVirqs ι)
  /-- `virqchip_update_virq` with `VIRQ_ACTION_CLEAR` -/
  | clear (d : VirqRef ι) (s : VmVirqs ι)

namespace LrAccess

variable {ι : Type}

def desc : LrAccess ι → VirqRef ι
  | write d _ => d
  | clear d _ => d

def state : LrAccess ι → VmVirqs ι
  | write _ s => s
  | clear _ s => s

/-- The number of the list register. -/
def index (a : LrAccess ι) : ℕ := (a.state.descs a.desc).id

/-- What is written to it. -/
def value (C : Chip) : LrAccess ι → Lr
  | write d s => lrOf C (s.descs d)
  | clear _ _ => Lr.zero

/-- The access, which is none if there is no such list register. -/
def apply (C : Chip) (lrs : ℕ → Lr) (a : LrAccess ι) : ℕ → Lr :=
  if C.nrLrs ≤ a.index then lrs else Function.update lrs a.index (a.value C)

variable {C : Chip} {a : LrAccess ι} {lrs : ℕ → Lr}

lemma apply_of_le (h : C.nrLrs ≤ a.index) : apply C lrs a = lrs := if_pos h

lemma apply_of_not_le (h : ¬ C.nrLrs ≤ a.index) :
    apply C lrs a = Function.update lrs a.index (a.value C) := if_neg h

end LrAccess

namespace VmVirqs

variable {ι : Type} [DecidableEq ι] (C : Chip) (v : ι)

def dropAccesses (d : VirqRef ι) (s : VmVirqs ι) : List (LrAccess ι) :=
  let s := s.setDesc d fun desc => { desc with state := .inactive }
  if (s.descs d).id = VIRQ_INVALID_ID then [] else [.clear d s]

/-- The accesses of `enterLoop`. -/
def enterAccesses : ℕ → Ptr (VirqNode ι) → VmVirqs ι → List (LrAccess ι)
  | fuel + 1, .node (.inr d), s =>
    let n := s.links.next (.inr d)
    if (s.descs d).pending = false then
      dropAccesses d s ++ enterAccesses fuel n (dropVirq C v d s)
    else if (s.descs d).id ≠ VIRQ_INVALID_ID then
      .write d s :: enterAccesses fuel n (deliver C v d s)
    else
      let id := findNextZeroBit (s.vcpus v).irqBitmap C.nrLrs 0
      if id = C.nrLrs then []
      else .write d (takeId v d id s) :: enterAccesses fuel n (deliver C v d (takeId v d id s))
  | _, _, _ => []

def exitVirqAccesses (d : VirqRef ι) (s : VmVirqs ι) : List (LrAccess ι) :=
  if virqchipGetVirqState C v d s = .inactive then [.clear d s] else []

/-- The accesses of `exitLoop`. -/
def exitAccesses : ℕ → Ptr (VirqNode ι) → VmVirqs ι → List (LrAccess ι)
  | fuel + 1, .node (.inr d), s =>
    exitVirqAccesses C v d s ++ exitAccesses fuel (s.links.next (.inr d)) (exitVirq C v d s)
  | _, _, _ => []

/-- The descriptor is reached from the head of the list through the next pointers. -/
inductive Reached {ι : Type} (s : VmVirqs ι) (k : VirqList × ι) : VirqRef ι → Prop
  | first {d : VirqRef ι} (h : s.links.next (.inl k) = .node (.inr d)) : Reached s k d
  | next {d e : VirqRef ι} (hd : Reached s k d) (h : s.links.next (.inr d) = .node (.inr e)) :
    Reached s k e

/-- The descriptor is on one of the lists of the vcpu. -/
def Queued {ι : Type} (s : VmVirqs ι) (v : ι) (d : VirqRef ι) : Prop :=
  ∃ kind, s.Reached (kind, v) d

/-- A list register is accessed for an interrupt that is requested, no other interrupt on the lists
of the vcpu holds this list register, and what is sent has the number that was sent. -/
structure AccessOk {ι : Type} (C : Chip) (v : ι) (sent : VirqRef ι → Option ℕ)
    (a : LrAccess ι) : Prop where
  requested : a.state.Requested a.desc
  alone : ∀ e, a.state.Queued v e → e ≠ a.desc → (a.state.descs e).id ≠ a.index
  vid : ∀ d s, a = .write d s → sent d = some (a.value C).vid

/-! ### What the chip leaves alone -/

variable {C} {v} {s s' : VmVirqs ι} {d e : VirqRef ι}

@[simp] lemma descs_virqchipSendVirq : (virqchipSendVirq C v d s).descs = s.descs := by
  simp only [virqchipSendVirq]
  split_ifs <;> rfl

@[simp] lemma vspiMap_virqchipSendVirq : (virqchipSendVirq C v d s).vspiMap = s.vspiMap := by
  simp only [virqchipSendVirq]
  split_ifs <;> rfl

@[simp] lemma irqBitmap_virqchipSendVirq (w : ι) :
    ((virqchipSendVirq C v d s).vcpus w).irqBitmap = (s.vcpus w).irqBitmap := by
  simp only [virqchipSendVirq]
  split_ifs
  · rfl
  · by_cases hw : w = v
    · subst hw
      simp [setVcpu]
    · simp [setVcpu, hw]

lemma lrs_virqchipSendVirq : ((virqchipSendVirq C v d s).vcpus v).lrs =
    LrAccess.apply C (s.vcpus v).lrs (.write d s) := by
  simp only [virqchipSendVirq]
  by_cases hle : C.nrLrs ≤ (s.descs d).id
  · rw [if_pos hle, LrAccess.apply_of_le hle]
  · rw [if_neg hle, LrAccess.apply_of_not_le hle]
    simp only [setVcpu, Function.update_self]
    rfl

@[simp] lemma descs_virqchipClearVirq : (virqchipClearVirq C v d s).descs = s.descs := by
  simp only [virqchipClearVirq]
  split_ifs <;> rfl

@[simp] lemma vspiMap_virqchipClearVirq : (virqchipClearVirq C v d s).vspiMap = s.vspiMap := by
  simp only [virqchipClearVirq]
  split_ifs <;> rfl

@[simp] lemma irqBitmap_virqchipClearVirq (w : ι) :
    ((virqchipClearVirq C v d s).vcpus w).irqBitmap = (s.vcpus w).irqBitmap := by
  simp only [virqchipClearVirq]
  split_ifs
  · rfl
  · by_cases hw : w = v
    · subst hw
      simp [setVcpu]
    · simp [setVcpu, hw]

lemma lrs_virqchipClearVirq : ((virqchipClearVirq C v d s).vcpus v).lrs =
    LrAccess.apply C (s.vcpus v).lrs (.clear d s) := by
  simp only [virqchipClearVirq]
  by_cases hle : C.nrLrs ≤ (s.descs d).id
  · rw [if_pos hle, LrAccess.apply_of_le hle]
  · rw [if_neg hle, LrAccess.apply_of_not_le hle]
    simp only [setVcpu, Function.update_self]
    rfl

/-! ### The accesses are all there is -/

lemma enterAccesses_zero (p : Ptr (VirqNode ι)) : enterAccesses C v 0 p s = [] := by
  rw [enterAccesses]
  exact fun fuel _ hf => absurd hf (Nat.succ_ne_zero fuel).symm

lemma enterAccesses_end {p : Ptr (VirqNode ι)} (hp : ∀ d, p ≠ .node (.inr d)) (fuel : ℕ) :
    enterAccesses C v fuel p s = [] := by
  rw [enterAccesses]
  exact fun _ d _ hd => hp d hd

lemma exitAccesses_zero (p : Ptr (VirqNode ι)) : exitAccesses C v 0 p s = [] := by
  rw [exitAccesses]
  exact fun fuel _ hf => absurd hf (Nat.succ_ne_zero fuel).symm

lemma exitAccesses_end {p : Ptr (VirqNode ι)} (hp : ∀ d, p ≠ .node (.inr d)) (fuel : ℕ) :
    exitAccesses C v fuel p s = [] := by
  rw [exitAccesses]
  exact fun _ d _ hd => hp d hd

lemma dropVirq_lrs : ((dropVirq C v d s).vcpus v).lrs =
    (dropAccesses d s).foldl (LrAccess.apply C) (s.vcpus v).lrs := by
  simp only [dropVirq, dropAccesses]
  by_cases hid : ((s.setDesc d fun desc => { desc with state := .inactive }).descs d).id =
      VIRQ_INVALID_ID
  · rw [if_pos hid, if_pos hid]
    rfl
  · rw [if_neg hid, if_neg hid, List.foldl_cons, List.foldl_nil]
    simp only [unlink, setLinks, setDesc, setVcpu, Function.update_self]
    exact lrs_virqchipClearVirq

lemma deliver_lrs : ((deliver C v d s).vcpus v).lrs =
    LrAccess.apply C (s.vcpus v).lrs (.write d s) := lrs_virqchipSendVirq

lemma takeId_lrs (id : ℕ) : ((takeId v d id s).vcpus v).lrs = (s.vcpus v).lrs := by
  simp [takeId, setDesc, setVcpu]

/-- After the entry the list registers are what the accesses made of them. -/
theorem enterLoop_lrs (fuel : ℕ) (p : Ptr (VirqNode ι)) (s : VmVirqs ι) :
    ((enterLoop C v fuel p s).vcpus v).lrs =
      (enterAccesses C v fuel p s).foldl (LrAccess.apply C) (s.vcpus v).lrs := by
  induction fuel generalizing s p with
  | zero => rw [enterLoop_zero, enterAccesses_zero, List.foldl_nil]
  | succ fuel ih =>
    rcases p with _ | addr | k | d
    · rw [enterLoop_end (by simp), enterAccesses_end (by simp), List.foldl_nil]
    · rw [enterLoop_end (by simp), enterAccesses_end (by simp), List.foldl_nil]
    · rw [enterLoop_end (by simp), enterAccesses_end (by simp), List.foldl_nil]
    · simp only [enterLoop, enterAccesses]
      split_ifs
      · rw [ih, dropVirq_lrs, List.foldl_append]
      · rw [ih, deliver_lrs, List.foldl_cons]
      · rfl
      · rw [ih, deliver_lrs, takeId_lrs, List.foldl_cons]

lemma exitVirq_lrs : ((exitVirq C v d s).vcpus v).lrs =
    (exitVirqAccesses C v d s).foldl (LrAccess.apply C) (s.vcpus v).lrs := by
  simp only [exitVirq, exitVirqAccesses]
  by_cases hi : virqchipGetVirqState C v d s = .inactive
  · rw [if_pos hi, if_pos hi, List.foldl_cons, List.foldl_nil, ← lrs_virqchipClearVirq]
    split_ifs
    · rfl
    · simp [retire, unlink, setLinks, setDesc, setVcpu]
  · rw [if_neg hi, if_neg hi]
    rfl

/-- After the exit the list registers are what the accesses made of them. -/
theorem exitLoop_lrs (fuel : ℕ) (p : Ptr (VirqNode ι)) (s : VmVirqs ι) :
    ((exitLoop C v fuel p s).vcpus v).lrs =
      (exitAccesses C v fuel p s).foldl (LrAccess.apply C) (s.vcpus v).lrs := by
  induction fuel generalizing s p with
  | zero => rw [exitLoop_zero, exitAccesses_zero, List.foldl_nil]
  | succ fuel ih =>
    rcases p with _ | addr | k | d
    · rw [exitLoop_end (by simp), exitAccesses_end (by simp), List.foldl_nil]
    · rw [exitLoop_end (by simp), exitAccesses_end (by simp), List.foldl_nil]
    · rw [exitLoop_end (by simp), exitAccesses_end (by simp), List.foldl_nil]
    · rw [exitLoop, exitAccesses, ih, exitVirq_lrs, List.foldl_append]

/-! ### The other vcpus -/

lemma setVcpu_of_ne {w : ι} (f : VcpuVirqs → VcpuVirqs) (hw : w ≠ v) :
    (s.setVcpu v f).vcpus w = s.vcpus w := Function.update_of_ne hw _ _

lemma vcpus_virqchipSendVirq {w : ι} (hw : w ≠ v) :
    (virqchipSendVirq C v d s).vcpus w = s.vcpus w := by
  simp only [virqchipSendVirq]
  split_ifs
  · rfl
  · exact setVcpu_of_ne _ hw

lemma vcpus_virqchipClearVirq {w : ι} (hw : w ≠ v) :
    (virqchipClearVirq C v d s).vcpus w = s.vcpus w := by
  simp only [virqchipClearVirq]
  split_ifs
  · rfl
  · exact setVcpu_of_ne _ hw

lemma vcpus_dropVirq {w : ι} (hw : w ≠ v) : (dropVirq C v d s).vcpus w = s.vcpus w := by
  simp only [dropVirq]
  split_ifs
  · rfl
  · simp [unlink, setLinks, setDesc, setVcpu, vcpus_virqchipClearVirq hw, hw]

lemma vcpus_exitVirq {w : ι} (hw : w ≠ v) : (exitVirq C v d s).vcpus w = s.vcpus w := by
  simp only [exitVirq]
  split_ifs
  · exact vcpus_virqchipClearVirq hw
  · simp [retire, unlink, setLinks, setDesc, setVcpu, vcpus_virqchipClearVirq hw, hw]
  · rfl

lemma vcpus_enterLoop {w : ι} (hw : w ≠ v) (fuel : ℕ) (p : Ptr (VirqNode ι)) (s : VmVirqs ι) :
    (enterLoop C v fuel p s).vcpus w = s.vcpus w := by
  induction fuel generalizing s p with
  | zero => rw [enterLoop_zero]
  | succ fuel ih =>
    rcases p with _ | addr | k | d
    · rw [enterLoop_end (by simp)]
    · rw [enterLoop_end (by simp)]
    · rw [enterLoop_end (by simp)]
    · simp only [enterLoop]
      split_ifs
      · rw [ih, vcpus_dropVirq hw]
      · rw [ih]
        exact vcpus_virqchipSendVirq hw
      · rfl
      · rw [ih]
        exact (vcpus_virqchipSendVirq hw).trans (setVcpu_of_ne _ hw)

lemma vcpus_exitLoop {w : ι} (hw : w ≠ v) (fuel : ℕ) (p : Ptr (VirqNode ι)) (s : VmVirqs ι) :
    (exitLoop C v fuel p s).vcpus w = s.vcpus w := by
  induction fuel generalizing s p with
  | zero => rw [exitLoop_zero]
  | succ fuel ih =>
    rcases p with _ | addr | k | d
    · rw [exitLoop_end (by simp)]
    · rw [exitLoop_end (by simp)]
    · rw [exitLoop_end (by simp)]
    · rw [exitLoop, ih, vcpus_exitVirq hw]

/-! ### The invariant over the pointers -/

/-- The view has the lists `L` and what the descriptors and the bitmaps say. -/
structure Sees (s : VmVirqs ι) (L : VirqList × ι → List (VirqRef ι)) (W : View ι) : Prop where
  pend : ∀ v, W.pend v = L (.pending, v)
  act : ∀ v, W.act v = L (.active, v)
  bits : ∀ v, W.bits v = (s.vcpus v).irqBitmap
  id : ∀ d, W.id d = (s.descs d).id
  flag : ∀ d, W.flag d = (s.descs d).pending

/-- What is known of the descriptors: those that are requested have their number, and the others are
filled with zeros. Those that are pending were sent with their number. -/
structure Known (sent : VirqRef ι → Option ℕ) (s : VmVirqs ι) : Prop where
  vno : ∀ d, s.Requested d → (s.descs d).vno = d.number
  zero : ∀ d, ¬ s.Requested d → s.descs d = VirqDesc.zero
  sent : ∀ d, (s.descs d).pending = true → sent d = some d.number

/-- The lists, the list invariant, and what is known of the descriptors. -/
structure Good (C : Chip) (sent : VirqRef ι → Option ℕ) (s : VmVirqs ι)
    (L : VirqList × ι → List (VirqRef ι)) (W : View ι) : Prop where
  lists : s.Lists L
  sees : s.Sees L W
  inv : W.Inv s.Requested C.nrLrs
  known : s.Known sent

variable {L : VirqList × ι → List (VirqRef ι)} {W : View ι} {sent sent' : VirqRef ι → Option ℕ}

omit [DecidableEq ι] in
/-- What is requested depends on the map only. -/
lemma requested_congr (h : s'.vspiMap = s.vspiMap) : s'.Requested = s.Requested := by
  funext d
  cases d with
  | priv v virq => rfl
  | spi n => simp only [Requested, h]

omit [DecidableEq ι] in
/-- A requested descriptor changes, and keeps its number. -/
lemma Known.change (h : s.Known sent) (hd : s.Requested d) (hmap : s'.vspiMap = s.vspiMap)
    (hother : ∀ e, e ≠ d → s'.descs e = s.descs e ∧ sent' e = sent e)
    (hvno : (s'.descs d).vno = (s.descs d).vno)
    (hsent : (s'.descs d).pending = true → sent' d = some d.number) : s'.Known sent' := by
  have hreq := requested_congr hmap
  refine ⟨fun e he => ?_, fun e he => ?_, fun e he => ?_⟩
  · by_cases hed : e = d
    · rw [hed, hvno]
      exact h.vno d hd
    · rw [(hother e hed).1]
      exact h.vno e (hreq ▸ he)
  · have hed : e ≠ d := by
      rintro rfl
      exact he (hreq ▸ hd)
    rw [(hother e hed).1]
    exact h.zero e (hreq ▸ he)
  · by_cases hed : e = d
    · exact hed ▸ hsent (hed ▸ he)
    · rw [(hother e hed).1] at he
      rw [(hother e hed).2]
      exact h.sent e he

omit [DecidableEq ι] in
/-- Only the map, the bitmaps and the descriptors matter besides the lists. -/
lemma Good.of_eq (h : s.Good C sent L W) (hlists : s'.Lists L) (hmap : s'.vspiMap = s.vspiMap)
    (hbits : ∀ v, (s'.vcpus v).irqBitmap = (s.vcpus v).irqBitmap) (hdescs : s'.descs = s.descs) :
    s'.Good C sent L W := by
  refine ⟨hlists, ⟨h.sees.pend, h.sees.act, fun v => ?_, fun d => ?_, fun d => ?_⟩, ?_, ?_⟩
  · rw [hbits]
    exact h.sees.bits v
  · rw [hdescs]
    exact h.sees.id d
  · rw [hdescs]
    exact h.sees.flag d
  · rw [requested_congr hmap]
    exact h.inv
  · have hreq := requested_congr hmap
    exact ⟨fun d hd => hdescs ▸ h.known.vno d (hreq ▸ hd),
      fun d hd => hdescs ▸ h.known.zero d (hreq ▸ hd), fun d hd => h.known.sent d (hdescs ▸ hd)⟩

/-- A requested descriptor changes and keeps its number. The lists and the bitmaps change as the view
says. -/
lemma Good.update (h : s.Good C sent L W) (hd : s.Requested d)
    {L' : VirqList × ι → List (VirqRef ι)} {W' : View ι} {desc : VirqDesc} (hlists : s'.Lists L')
    (hmap : s'.vspiMap = s.vspiMap) (hdescs : s'.descs = Function.update s.descs d desc)
    (hpend : ∀ v, W'.pend v = L' (.pending, v)) (hact : ∀ v, W'.act v = L' (.active, v))
    (hbits : ∀ v, W'.bits v = (s'.vcpus v).irqBitmap)
    (hid : W'.id = Function.update W.id d desc.id)
    (hflag : W'.flag = Function.update W.flag d desc.pending) (hvno : desc.vno = (s.descs d).vno)
    (hother : ∀ e, e ≠ d → sent' e = sent e) (hsent : desc.pending = true → sent' d = some d.number)
    (hinv : W'.Inv s.Requested C.nrLrs) : s'.Good C sent' L' W' where
  lists := hlists
  sees := by
    refine ⟨hpend, hact, hbits, fun e => ?_, fun e => ?_⟩
    all_goals by_cases hed : e = d
    · rw [hid, hdescs, hed, Function.update_self, Function.update_self]
    · rw [hid, hdescs, Function.update_of_ne hed, Function.update_of_ne hed, h.sees.id]
    · rw [hflag, hdescs, hed, Function.update_self, Function.update_self]
    · rw [hflag, hdescs, Function.update_of_ne hed, Function.update_of_ne hed, h.sees.flag]
  inv := by rwa [requested_congr hmap]
  known := by
    refine h.known.change hd hmap (fun e hed => ⟨?_, hother e hed⟩) ?_ fun hp => hsent ?_
    · rw [hdescs, Function.update_of_ne hed]
    · rw [hdescs, Function.update_self, hvno]
    · rwa [hdescs, Function.update_self] at hp

/-- The view says of a descriptor that does not change what it said. -/
lemma Sees.id_same (h : s.Sees L W) (d : VirqRef ι) :
    W.id = Function.update W.id d (s.descs d).id := by
  rw [← h.id, Function.update_eq_self]

lemma Sees.flag_same (h : s.Sees L W) (d : VirqRef ι) :
    W.flag = Function.update W.flag d (s.descs d).pending := by
  rw [← h.flag, Function.update_eq_self]

/-- A change of a requested descriptor that keeps its list register, its flag and its number. -/
lemma Good.keep (h : s.Good C sent L W) (hd : s.Requested d) {f : VirqDesc → VirqDesc}
    (hid : (f (s.descs d)).id = (s.descs d).id)
    (hflag : (f (s.descs d)).pending = (s.descs d).pending)
    (hvno : (f (s.descs d)).vno = (s.descs d).vno) : (s.setDesc d f).Good C sent L W :=
  h.update hd (h.lists.of_eq rfl rfl) rfl rfl h.sees.pend h.sees.act h.sees.bits
    (hid ▸ h.sees.id_same d) (hflag ▸ h.sees.flag_same d) hvno (fun _ _ => rfl)
    (fun hp => h.known.sent d (hflag ▸ hp)) h.inv

/-! ### The entry -/

omit [DecidableEq ι] in
lemma Good.raised (h : s.Good C sent L W) (hd : d ∈ L (.pending, v)) :
    (s.descs d).pending = true := by
  rw [← h.sees.flag]
  exact h.inv.raised v d (h.sees.pend v ▸ hd)

lemma Good.takeId {i : ℕ} (h : s.Good C sent L W) (hd : d ∈ L (.pending, v))
    (hid : (s.descs d).id = VIRQ_INVALID_ID) (hi : i < C.nrLrs)
    (hfree : (s.vcpus v).irqBitmap i = false) :
    (takeId v d i s).Good C sent L (W.takeId v d i) := by
  have hinv := View.takeId_inv h.inv (Or.inl (h.sees.pend v ▸ hd)) ((h.sees.id d).trans hid) hi
    C.nrLrs_le (by rw [h.sees.bits, hfree])
  refine h.update (h.lists.requested _ d hd) (h.lists.of_eq rfl rfl) rfl rfl h.sees.pend h.sees.act
    (fun w => ?_) rfl (h.sees.flag_same d) rfl (fun _ _ => rfl) (h.known.sent d) hinv
  by_cases hw : w = v
  · subst hw
    simp [View.takeId, VmVirqs.takeId, setVcpu, setDesc, h.sees.bits]
  · simp [View.takeId, VmVirqs.takeId, setVcpu, setDesc, h.sees.bits, hw]

lemma Good.deliver (h : s.Good C sent L W) (hd : d ∈ L (.pending, v))
    (hid : (s.descs d).id ≠ VIRQ_INVALID_ID) :
    (deliver C v d s).Good C sent (Function.update
      (Function.update L (.pending, v) ((L (.pending, v)).erase d)) (.active, v)
      (L (.active, v) ++ [d])) (W.deliver v d) := by
  have hinv := View.deliver_inv h.inv (v := v) (d := d) (h.sees.pend v ▸ hd)
    (by rwa [h.sees.id])
  have hdescs : (VmVirqs.deliver C v d s).descs = Function.update s.descs d { s.descs d with
      state := .pending, pending := false } := by
    simp [VmVirqs.deliver, VmVirqs.relink, setLinks, setDesc]
  refine h.update (h.lists.requested _ d hd) (h.lists.deliver hd) vspiMap_virqchipSendVirq hdescs
    (fun w => ?_) (fun w => ?_) (fun w => ?_) (h.sees.id_same d) rfl rfl (fun _ _ => rfl) nofun hinv
  · by_cases hw : w = v
    · subst hw
      simp [View.deliver, h.sees.pend]
    · simp [View.deliver, h.sees.pend, hw]
  · by_cases hw : w = v
    · subst hw
      simp [View.deliver, h.sees.act]
    · simp [View.deliver, h.sees.act, hw]
  · exact (h.sees.bits w).trans (irqBitmap_virqchipSendVirq w).symm

omit [DecidableEq ι] in
lemma Good.on (h : s.Good C sent L W) (kind : VirqList) (hd : d ∈ L (kind, v)) : W.On v d := by
  cases kind with
  | pending => exact Or.inl (h.sees.pend v ▸ hd)
  | active => exact Or.inr (h.sees.act v ▸ hd)

omit [DecidableEq ι] in
lemma Lists.mem_of_reached (h : s.Lists L) {k : VirqList × ι} (hd : s.Reached k d) : d ∈ L k := by
  induction hd with
  | first hn =>
    rcases h.at_first k with hk | ⟨e, he, hk⟩
    · rw [hk] at hn
      cases hn
    · rw [hk] at hn
      cases hn
      exact he
  | next _ hn ih =>
    rcases h.family.next_cases ih with hk | ⟨e, he, -, hk⟩
    · rw [hk] at hn
      cases hn
    · rw [hk] at hn
      cases hn
      exact he

omit [DecidableEq ι] in
/-- A descriptor on a list that has a list register has it for itself. -/
lemma Good.alone (h : s.Good C sent L W) {kind : VirqList} (hd : d ∈ L (kind, v))
    (hid : (s.descs d).id ≠ VIRQ_INVALID_ID) (he : s.Queued v e) (hed : e ≠ d) :
    (s.descs e).id ≠ (s.descs d).id := by
  obtain ⟨kind', he⟩ := he
  intro heq
  refine hed (h.inv.inj v d e (h.on _ hd) (h.on _ (h.lists.mem_of_reached he)) ?_ ?_).symm
  · rwa [h.sees.id]
  · rw [h.sees.id, h.sees.id, heq]

omit [DecidableEq ι] in
lemma Good.not_on (h : s.Good C sent L W) (hnull : s.links.next (.inr d) = .null) (v : ι) :
    ¬ W.On v d := by
  have hnot := h.lists.not_mem_of_null hnull
  rintro (hd | hd)
  · exact hnot _ (h.sees.pend v ▸ hd)
  · exact hnot _ (h.sees.act v ▸ hd)

omit [DecidableEq ι] in
lemma Good.write_ok (h : s.Good C sent L W) (hd : d ∈ L (.pending, v))
    (hid : (s.descs d).id ≠ VIRQ_INVALID_ID) : AccessOk C v sent (.write d s) where
  requested := h.lists.requested _ d hd
  alone e he hed := h.alone hd hid he hed
  vid d' s' heq := by
    cases heq
    rw [h.known.sent d (h.raised hd), ← h.known.vno d (h.lists.requested _ d hd)]
    rfl

omit [DecidableEq ι] in
lemma Good.clear_ok (h : s.Good C sent L W) (hd : d ∈ L (.active, v)) :
    AccessOk C v sent (.clear d s) where
  requested := h.lists.requested _ d hd
  alone e he hed := by
    refine h.alone hd ?_ he hed
    rw [← h.sees.id]
    exact h.inv.active v d (h.sees.act v ▸ hd)
  vid d' s' heq := by cases heq

/-- The entry keeps the invariant, and its accesses are as they should be. -/
lemma Good.enterLoop (h : s.Good C sent L W) {fuel : ℕ} {p : Ptr (VirqNode ι)}
    (hp : At L (.pending, v) p) :
    (∀ a ∈ enterAccesses C v fuel p s, AccessOk C v sent a) ∧
      ∃ L' W', (enterLoop C v fuel p s).Good C sent L' W' := by
  induction fuel generalizing s L W p with
  | zero =>
    rw [enterLoop_zero, enterAccesses_zero]
    exact ⟨List.forall_mem_nil _, L, W, h⟩
  | succ fuel ih =>
    rcases hp with rfl | ⟨d, hd, rfl⟩
    · rw [enterLoop_end (by simp), enterAccesses_end (by simp)]
      exact ⟨List.forall_mem_nil _, L, W, h⟩
    · have hmove : ∀ l, At (Function.update (Function.update L (.pending, v)
          ((L (.pending, v)).erase d)) (.active, v) l) (.pending, v) (s.links.next (.inr d)) :=
        fun l => h.lists.at_next hd fun e he hed => by
          rw [Function.update_of_ne (active_ne_pending v v).symm]
          exact mem_erase_update he hed
      have hpend : ¬ (s.descs d).pending = false := by simp [h.raised hd]
      simp only [VmVirqs.enterLoop, enterAccesses]
      rw [if_neg hpend, if_neg hpend]
      by_cases hid : (s.descs d).id ≠ VIRQ_INVALID_ID
      · rw [if_pos hid, if_pos hid]
        obtain ⟨hrest, hgood⟩ := ih (h.deliver hd hid) (hmove _)
        exact ⟨List.forall_mem_cons.2 ⟨h.write_ok hd hid, hrest⟩, hgood⟩
      · rw [if_neg hid, if_neg hid]
        by_cases hfull : findNextZeroBit (s.vcpus v).irqBitmap C.nrLrs 0 = C.nrLrs
        · rw [if_pos hfull, if_pos hfull]
          exact ⟨fun a ha => absurd ha List.not_mem_nil, L, W, h⟩
        · rw [if_neg hfull, if_neg hfull]
          have hlt : findNextZeroBit (s.vcpus v).irqBitmap C.nrLrs 0 < C.nrLrs :=
            lt_of_le_of_ne (findNext_le _ _ _) hfull
          have htake := h.takeId hd (not_not.1 hid) hlt (findNextZeroBit_prop hlt)
          have htaken : ((VmVirqs.takeId v d (findNextZeroBit (s.vcpus v).irqBitmap C.nrLrs 0)
              s).descs d).id ≠ VIRQ_INVALID_ID := by
            have := C.nrLrs_le
            simp only [VmVirqs.takeId, setVcpu, setDesc, Function.update_self, MAX_NR_LRS,
              VIRQ_INVALID_ID] at this ⊢
            omega
          obtain ⟨hrest, hgood⟩ := ih (htake.deliver hd htaken) (hmove _)
          exact ⟨List.forall_mem_cons.2 ⟨htake.write_ok hd htaken, hrest⟩, hgood⟩

/-! ### The exit -/

lemma Good.retire (h : s.Good C sent L W) (hd : d ∈ L (.active, v))
    (hp : (s.descs d).pending = false) :
    (retire C v d s).Good C sent (Function.update L (.active, v) ((L (.active, v)).erase d))
      (W.retire v d) := by
  have hinv := View.retire_inv h.inv (v := v) (d := d) (h.sees.act v ▸ hd) (by rwa [h.sees.flag])
  have hlists : (virqchipClearVirq C v d s).Lists L := h.lists.virqchipClearVirq
  have hdescs : (VmVirqs.retire C v d s).descs = Function.update s.descs d { s.descs d with
      state := .inactive, id := VIRQ_INVALID_ID } := by
    simp [VmVirqs.retire, VmVirqs.unlink, setLinks, setDesc, setVcpu]
  refine h.update (h.lists.requested _ d hd) (Lists.unlink (hlists.of_eq rfl rfl) hd)
    vspiMap_virqchipClearVirq hdescs (fun w => ?_) (fun w => ?_) (fun w => ?_) rfl
    (h.sees.flag_same d) rfl (fun _ _ => rfl) (h.known.sent d) hinv
  · simp [View.retire, h.sees.pend]
  · by_cases hw : w = v
    · subst hw
      simp [View.retire, h.sees.act]
    · simp [View.retire, h.sees.act, hw]
  · by_cases hw : w = v
    · subst hw
      simp [View.retire, VmVirqs.retire, VmVirqs.unlink, setLinks, setDesc, setVcpu,
        h.sees.bits, h.sees.id]
    · simp [View.retire, VmVirqs.retire, VmVirqs.unlink, setLinks, setDesc, setVcpu,
        h.sees.bits, hw]

/-- The descriptor goes back to the pending list. -/
lemma Good.requeue (h : s.Good C sent L W) (hd : d ∈ L (.active, v))
    (hp : (s.descs d).pending = true) :
    (relink d .pending v (virqchipClearVirq C v d s)).Good C sent (Function.update
      (Function.update L (.active, v) ((L (.active, v)).erase d)) (.pending, v)
      (L (.pending, v) ++ [d])) (W.requeue v d) := by
  have hinv := View.requeue_inv h.inv (v := v) (d := d) (h.sees.act v ▸ hd) (by rwa [h.sees.flag])
  have hdescs : (relink d .pending v (virqchipClearVirq C v d s)).descs =
      Function.update s.descs d (s.descs d) := by
    rw [Function.update_eq_self]
    exact descs_virqchipClearVirq
  refine h.update (h.lists.requested _ d hd)
    (h.lists.virqchipClearVirq.relink hd (active_ne_pending v v).symm) vspiMap_virqchipClearVirq
    hdescs (fun w => ?_) (fun w => ?_) (fun w => ?_) (h.sees.id_same d) (h.sees.flag_same d) rfl
    (fun _ _ => rfl) (h.known.sent d) hinv
  · by_cases hw : w = v
    · subst hw
      simp [View.requeue, h.sees.pend]
    · simp [View.requeue, h.sees.pend, hw]
  · by_cases hw : w = v
    · subst hw
      simp [View.requeue, h.sees.act]
    · simp [View.requeue, h.sees.act, hw]
  · exact (h.sees.bits w).trans (irqBitmap_virqchipClearVirq w).symm

/-- A round of the exit loop keeps the invariant, and what comes after its descriptor. -/
lemma Good.exitVirq (h : s.Good C sent L W) (hd : d ∈ L (.active, v)) :
    (∀ a ∈ exitVirqAccesses C v d s, AccessOk C v sent a) ∧
      ∃ L' W', (exitVirq C v d s).Good C sent L' W' ∧
        ∀ e ∈ L (.active, v), e ≠ d → e ∈ L' (.active, v) := by
  simp only [VmVirqs.exitVirq, exitVirqAccesses]
  by_cases hi : virqchipGetVirqState C v d s = .inactive
  · rw [if_pos hi, if_pos hi]
    refine ⟨List.forall_mem_singleton.2 (h.clear_ok hd), ?_⟩
    by_cases hp : (s.descs d).pending = true
    · rw [if_pos hp]
      refine ⟨_, _, h.requeue hd hp, fun e he hed => ?_⟩
      rw [Function.update_of_ne (active_ne_pending v v)]
      exact mem_erase_update he hed
    · rw [if_neg hp]
      exact ⟨_, _, h.retire hd (by simpa using hp), fun e he hed => mem_erase_update he hed⟩
  · rw [if_neg hi, if_neg hi]
    exact ⟨fun a ha => absurd ha List.not_mem_nil, L, W,
      h.keep (h.lists.requested _ d hd) rfl rfl rfl, fun e he _ => he⟩

lemma Good.exitLoop (h : s.Good C sent L W) {fuel : ℕ} {p : Ptr (VirqNode ι)}
    (hp : At L (.active, v) p) :
    (∀ a ∈ exitAccesses C v fuel p s, AccessOk C v sent a) ∧
      ∃ L' W', (exitLoop C v fuel p s).Good C sent L' W' := by
  induction fuel generalizing s L W p with
  | zero =>
    rw [exitLoop_zero, exitAccesses_zero]
    exact ⟨List.forall_mem_nil _, L, W, h⟩
  | succ fuel ih =>
    rcases hp with rfl | ⟨d, hd, rfl⟩
    · rw [exitLoop_end (by simp), exitAccesses_end (by simp)]
      exact ⟨List.forall_mem_nil _, L, W, h⟩
    · obtain ⟨hround, L', W', hgood, hmem⟩ := h.exitVirq hd
      obtain ⟨hrest, hgood'⟩ := ih hgood (h.lists.at_next hd hmem)
      rw [VmVirqs.exitLoop, exitAccesses]
      exact ⟨List.forall_mem_append.2 ⟨hround, hrest⟩, hgood'⟩

/-! ### Sending -/

/-- A descriptor that is on a list is raised. -/
lemma Good.raise (h : s.Good C sent L W) (hd : s.Requested d)
    (hlinked : s.links.next (.inr d) ≠ .null) :
    (s.setDesc d fun desc => { desc with pending := true }).Good C
      (Function.update sent d (some d.number)) L (W.raise d) := by
  obtain ⟨k, hk⟩ := h.lists.family.next_ne_null_iff.1 hlinked
  exact h.update hd (h.lists.of_eq rfl rfl) rfl rfl h.sees.pend h.sees.act h.sees.bits
    (h.sees.id_same d) rfl rfl (fun _ hed => Function.update_of_ne hed _ _)
    (fun _ => Function.update_self _ _ _) (View.raise_inv h.inv ⟨k.2, h.on k.1 hk⟩)

/-- A descriptor that is on no list is raised and put on the pending list. -/
lemma Good.enqueue (h : s.Good C sent L W) (hd : s.Requested d)
    (hnull : s.links.next (.inr d) = .null) :
    (enqueue v d (s.setDesc d fun desc => { desc with pending := true })).Good C
      (Function.update sent d (some d.number))
      (Function.update L (.pending, v) (L (.pending, v) ++ [d]))
      ((W.raise d).enqueue v d) := by
  have hraised : (s.setDesc d fun desc => { desc with pending := true }).Lists L :=
    h.lists.of_eq rfl rfl
  have hunlinked : W.linked d = false := by
    by_contra hlinked
    obtain ⟨w, hw⟩ := (h.inv.linked d hd).1 (by simpa using hlinked)
    exact h.not_on hnull w hw
  refine h.update hd (hraised.enqueue hd hnull) rfl rfl (fun w => ?_) (fun w => ?_) (fun w => ?_)
    (h.sees.id_same d) rfl rfl (fun _ hed => Function.update_of_ne hed _ _)
    (fun _ => Function.update_self _ _ _) (View.enqueue_inv h.inv hd hunlinked)
  · by_cases hw : w = v
    · subst hw
      simp [View.enqueue, View.raise, h.sees.pend]
    · simp [View.enqueue, View.raise, h.sees.pend, hw]
  · simp [View.enqueue, View.raise, h.sees.act]
  · by_cases hw : w = v
    · subst hw
      simp [View.enqueue, View.raise, VmVirqs.enqueue, VmVirqs.setDesc, setLinks, setVcpu,
        h.sees.bits]
    · simp [View.enqueue, View.raise, VmVirqs.enqueue, VmVirqs.setDesc, setLinks, setVcpu,
        h.sees.bits, hw]

/-- A requested descriptor is sent. -/
lemma Good.sendVirq (h : s.Good C sent L W) (hd : s.Requested d) (src : ℕ) :
    ∃ L' W', (sendVirq v d src s).Good C (Function.update sent d (some d.number)) L' W' := by
  rw [VmVirqs.sendVirq]
  by_cases hpend : (s.descs d).pending = true
  · rw [if_pos hpend]
    refine ⟨L, W, h.lists, h.sees, h.inv, h.known.change hd rfl (fun e hed => ⟨rfl, ?_⟩) rfl ?_⟩
    · exact Function.update_of_ne hed _ _
    · exact fun _ => Function.update_self _ _ _
  · rw [if_neg hpend]
    dsimp only
    by_cases hnull : s.links.next (.inr d) = .null
    · rw [if_pos (by exact hnull)]
      refine ⟨_, _, (h.enqueue hd hnull).keep hd ?_ ?_ ?_⟩
      all_goals split_ifs <;> rfl
    · rw [if_neg (by exact hnull)]
      refine ⟨_, _, (h.raise hd hnull).keep hd ?_ ?_ ?_⟩
      all_goals split_ifs <;> rfl

/-! ### Requesting and releasing -/

omit [DecidableEq ι] in
/-- A descriptor that is on no list is not pending. -/
lemma Good.not_pending (h : s.Good C sent L W) (hnull : s.links.next (.inr d) = .null) :
    (s.descs d).pending = false := by
  by_cases hd : s.Requested d
  · by_contra hp
    obtain ⟨w, hw⟩ := h.inv.flagged d hd (by rw [h.sees.flag]; simpa using hp)
    exact h.not_on hnull w hw
  · rw [h.known.zero d hd]
    rfl

/-- A descriptor that is on no list is written anew. -/
lemma Good.renew (h : s.Good C sent L W) (hd : s.links.next (.inr d) = .null)
    (hlists : s'.Lists L) (hbits : ∀ v, (s'.vcpus v).irqBitmap = (s.vcpus v).irqBitmap)
    (hother : ∀ e, e ≠ d → s'.descs e = s.descs e)
    (hreq : ∀ e, e ≠ d → (s'.Requested e ↔ s.Requested e))
    (hflag : (s'.descs d).pending = false)
    (hfull : s'.Requested d → (s'.descs d).id = VIRQ_INVALID_ID ∧ (s'.descs d).vno = d.number)
    (hzero : ¬ s'.Requested d → s'.descs d = VirqDesc.zero) :
    s'.Good C sent L (W.renew d (s'.descs d).id) where
  lists := hlists
  sees :=
    { pend := h.sees.pend
      act := h.sees.act
      bits w := (h.sees.bits w).trans (hbits w).symm
      id e := by
        by_cases hed : e = d
        · simp [View.renew, hed]
        · simp [View.renew, hed, h.sees.id, hother e hed]
      flag e := by
        by_cases hed : e = d
        · simp [View.renew, hed, hflag]
        · simp [View.renew, hed, h.sees.flag, hother e hed] }
  inv := View.renew_inv h.inv (h.not_on hd) hreq fun he => (hfull he).1
  known := by
    refine ⟨fun e he => ?_, fun e he => ?_, fun e he => ?_⟩
    all_goals by_cases hed : e = d
    · exact hed ▸ (hfull (hed ▸ he)).2
    · rw [hother e hed]
      exact h.known.vno e ((hreq e hed).1 he)
    · exact hed ▸ hzero (hed ▸ he)
    · rw [hother e hed]
      exact h.known.zero e fun hs => he ((hreq e hed).2 hs)
    · rw [hed, hflag] at he
      cases he
    · rw [hother e hed] at he
      exact h.known.sent e he

end VmVirqs

end Minos.Virq
