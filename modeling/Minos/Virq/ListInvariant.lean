import Mathlib
import Minos.Lib.Run
import Minos.Virq.Vgic

/-!
# The lists of virtual interrupts

Which descriptor is on which list, and which list registers are in use? The invariant is stated
over a view of the state that leaves out the list registers themselves, and the operations of the
code are moves of this view.
-/

namespace Minos.Virq

open Bitmap Run

/-- The lists and the bitmap of each vcpu, and what each descriptor says of itself. -/
structure View (ι : Type) where
  pend : ι → List (VirqRef ι)
  act : ι → List (VirqRef ι)
  bits : ι → Bitmap
  id : VirqRef ι → ℕ
  flag : VirqRef ι → Bool
  linked : VirqRef ι → Bool

namespace View

variable {ι : Type}

/-- The descriptor is on one of the lists of the vcpu. -/
def On (V : View ι) (v : ι) (d : VirqRef ι) : Prop := d ∈ V.pend v ∨ d ∈ V.act v

/-- The list invariant, for the descriptors in `R` and with `nr` list registers. -/
structure Inv (R : VirqRef ι → Prop) (nr : ℕ) (V : View ι) : Prop where
  /-- a descriptor is on at most one list, at most once -/
  nodup : ∀ v, (V.pend v ++ V.act v).Nodup
  apart : ∀ v w d, V.On v d → V.On w d → v = w
  requested : ∀ v d, V.On v d → R d
  /-- `list.next` is `NULL` exactly for the descriptors on no list -/
  linked : ∀ d, R d → (V.linked d = true ↔ ∃ v, V.On v d)
  raised : ∀ v, ∀ d ∈ V.pend v, V.flag d = true
  flagged : ∀ d, R d → V.flag d = true → ∃ v, V.On v d
  active : ∀ v, ∀ d ∈ V.act v, V.id d ≠ VIRQ_INVALID_ID
  bound : ∀ v d, V.On v d → V.id d ≠ VIRQ_INVALID_ID → V.id d < nr
  inj : ∀ v d e, V.On v d → V.On v e → V.id d ≠ VIRQ_INVALID_ID → V.id d = V.id e → d = e
  unused : ∀ d, R d → (∀ v, ¬ V.On v d) → V.id d = VIRQ_INVALID_ID
  /-- the bitmap has the bits of the list registers in use -/
  bits : ∀ v i, V.bits v i = true ↔ i ≠ VIRQ_INVALID_ID ∧ ∃ d, V.On v d ∧ V.id d = i

variable [DecidableEq ι]

def raise (V : View ι) (d : VirqRef ι) : View ι := { V with flag := Function.update V.flag d true }

def enqueue (V : View ι) (v : ι) (d : VirqRef ι) : View ι :=
  { V with
    pend := Function.update V.pend v (V.pend v ++ [d])
    linked := Function.update V.linked d true }

def takeId (V : View ι) (v : ι) (d : VirqRef ι) (id : ℕ) : View ι :=
  { V with
    id := Function.update V.id d id
    bits := Function.update V.bits v (setBit (V.bits v) id) }

def deliver (V : View ι) (v : ι) (d : VirqRef ι) : View ι :=
  { V with
    flag := Function.update V.flag d false
    pend := Function.update V.pend v ((V.pend v).erase d)
    act := Function.update V.act v (V.act v ++ [d]) }

def retire (V : View ι) (v : ι) (d : VirqRef ι) : View ι :=
  { V with
    bits := Function.update V.bits v (clearBit (V.bits v) (V.id d))
    act := Function.update V.act v ((V.act v).erase d)
    id := Function.update V.id d VIRQ_INVALID_ID
    linked := Function.update V.linked d false }

def requeue (V : View ι) (v : ι) (d : VirqRef ι) : View ι :=
  { V with
    act := Function.update V.act v ((V.act v).erase d)
    pend := Function.update V.pend v (V.pend v ++ [d]) }

/-! ### Where the moves put a descriptor -/

variable {R : VirqRef ι → Prop} {nr : ℕ} {V : View ι} {v w : ι} {d e : VirqRef ι}

lemma Inv.pend_nodup {ι : Type} {R : VirqRef ι → Prop} {V : View ι} (h : V.Inv R nr) (v : ι) :
    (V.pend v).Nodup :=
  (List.nodup_append.1 (h.nodup v)).1

lemma Inv.act_nodup {ι : Type} {R : VirqRef ι → Prop} {V : View ι} (h : V.Inv R nr) (v : ι) :
    (V.act v).Nodup :=
  (List.nodup_append.1 (h.nodup v)).2.1

lemma Inv.not_both {ι : Type} {R : VirqRef ι → Prop} {V : View ι} {v : ι} {d : VirqRef ι}
    (h : V.Inv R nr) (hp : d ∈ V.pend v) : d ∉ V.act v :=
  fun ha => (List.nodup_append.1 (h.nodup v)).2.2 d hp d ha rfl

lemma on_enqueue : (V.enqueue v d).On w e ↔ V.On w e ∨ (w = v ∧ e = d) := by
  simp only [On, enqueue]
  by_cases hw : w = v
  · subst hw
    simp
    tauto
  · simp [hw]

lemma on_deliver (hd : d ∈ V.pend v) : (V.deliver v d).On w e ↔ V.On w e := by
  simp only [On, deliver]
  by_cases hw : w = v
  · subst hw
    by_cases he : e = d
    · subst he
      simp [hd]
    · simp [he, List.mem_erase_of_ne he]
  · simp [hw]

lemma on_requeue (hd : d ∈ V.act v) : (V.requeue v d).On w e ↔ V.On w e := by
  simp only [On, requeue]
  by_cases hw : w = v
  · subst hw
    by_cases he : e = d
    · subst he
      simp [hd]
    · simp [he, List.mem_erase_of_ne he]
  · simp [hw]

lemma on_retire (h : V.Inv R nr) (hd : d ∈ V.act v) :
    (V.retire v d).On w e ↔ V.On w e ∧ e ≠ d := by
  have hp : d ∉ V.pend v := fun hp => h.not_both hp hd
  simp only [On, retire]
  by_cases hw : w = v
  · subst hw
    by_cases he : e = d
    · subst he
      simp [hp, (h.act_nodup w).not_mem_erase]
    · simp [he, List.mem_erase_of_ne he]
  · have : e = d → ¬ (e ∈ V.pend w ∨ e ∈ V.act w) := by
      rintro rfl hon
      exact hw (h.apart w v e hon (Or.inr hd))
    simp only [Function.update_of_ne hw]
    tauto

/-! ### The moves keep the invariant -/

lemma raise_inv (h : V.Inv R nr) (hd : ∃ v, V.On v d) : (V.raise d).Inv R nr where
  nodup := h.nodup
  apart := h.apart
  requested := h.requested
  linked := h.linked
  raised w e he := by
    by_cases hed : e = d
    · simp [raise, hed]
    · simpa [raise, hed] using h.raised w e he
  flagged e hR he := by
    by_cases hed : e = d
    · exact hed ▸ hd
    · exact h.flagged e hR (by simpa [raise, hed] using he)
  active := h.active
  bound := h.bound
  inj := h.inj
  unused := h.unused
  bits := h.bits

/-- A descriptor on no list is raised and put on the pending list. -/
lemma enqueue_inv (h : V.Inv R nr) (hR : R d) (hd : V.linked d = false) :
    ((V.raise d).enqueue v d).Inv R nr := by
  have hoff : ∀ w, ¬ V.On w d := by
    intro w hw
    rw [(h.linked d hR).2 ⟨w, hw⟩] at hd
    cases hd
  have hid : V.id d = VIRQ_INVALID_ID := h.unused d hR hoff
  have hon : ∀ {w e}, ((V.raise d).enqueue v d).On w e ↔ V.On w e ∨ (w = v ∧ e = d) :=
    on_enqueue
  constructor
  case nodup =>
    intro w
    simp only [enqueue, raise]
    by_cases hw : w = v
    · subst hw
      have hp : d ∉ V.pend w := fun hp => hoff w (Or.inl hp)
      have ha : d ∉ V.act w := fun ha => hoff w (Or.inr ha)
      simpa [List.nodup_middle, hp, ha] using h.nodup w
    · simpa [hw] using h.nodup w
  case apart =>
    intro w u e hw hu
    rw [hon] at hw hu
    rcases hw with hw | ⟨hwv, rfl⟩
    · rcases hu with hu | ⟨-, rfl⟩
      · exact h.apart w u e hw hu
      · exact absurd hw (hoff w)
    · rcases hu with hu | ⟨huv, -⟩
      · exact absurd hu (hoff u)
      · rw [hwv, huv]
  case requested =>
    intro w e he
    rcases hon.1 he with he | ⟨rfl, rfl⟩
    · exact h.requested w e he
    · exact hR
  case linked =>
    intro e he
    simp only [hon]
    by_cases hed : e = d
    · subst hed
      simp [enqueue]
    · simpa [enqueue, raise, hed] using h.linked e he
  case raised =>
    intro w e he
    by_cases hed : e = d
    · simp [enqueue, raise, hed]
    · have : e ∈ V.pend w := by
        by_cases hw : w = v
        · subst hw
          simpa [enqueue, raise, hed] using he
        · simpa [enqueue, raise, hw] using he
      simpa [enqueue, raise, hed] using h.raised w e this
  case flagged =>
    intro e he hf
    by_cases hed : e = d
    · exact ⟨v, hon.2 (Or.inr ⟨rfl, hed⟩)⟩
    · obtain ⟨w, hw⟩ := h.flagged e he (by simpa [enqueue, raise, hed] using hf)
      exact ⟨w, hon.2 (Or.inl hw)⟩
  case active => exact h.active
  case bound =>
    intro w e he hne
    rcases hon.1 he with he | ⟨rfl, rfl⟩
    · exact h.bound w e he hne
    · exact absurd hid hne
  case inj =>
    intro w e f he hf hne heq
    rcases hon.1 he with he | ⟨rfl, rfl⟩
    · rcases hon.1 hf with hf | ⟨rfl, rfl⟩
      · exact h.inj w e f he hf hne heq
      · exact absurd (heq.trans hid) hne
    · exact absurd hid hne
  case unused =>
    intro e he hnot
    exact h.unused e he fun w hw => hnot w (hon.2 (Or.inl hw))
  case bits =>
    intro w i
    refine (h.bits w i).trans (and_congr_right fun hi => exists_congr fun e => ?_)
    rw [hon]
    constructor
    · rintro ⟨he, rfl⟩
      exact ⟨Or.inl he, rfl⟩
    · rintro ⟨he | ⟨rfl, rfl⟩, rfl⟩
      · exact ⟨he, rfl⟩
      · exact absurd hid hi

/-- A descriptor on a list gets a list register that is not in use. -/
lemma takeId_inv {i : ℕ} (h : V.Inv R nr) (hd : V.On v d) (hid : V.id d = VIRQ_INVALID_ID)
    (hi : i < nr) (hnr : nr ≤ MAX_NR_LRS) (hfree : V.bits v i = false) :
    (V.takeId v d i).Inv R nr := by
  have hne : i ≠ VIRQ_INVALID_ID := by
    simp only [MAX_NR_LRS, VIRQ_INVALID_ID] at hnr ⊢
    omega
  have hother : ∀ e, V.On v e → V.id e ≠ i := by
    intro e he heq
    rw [(h.bits v i).2 ⟨hne, e, he, heq⟩] at hfree
    cases hfree
  constructor
  case nodup => exact h.nodup
  case apart => exact h.apart
  case requested => exact h.requested
  case linked => exact h.linked
  case raised => exact h.raised
  case flagged => exact h.flagged
  case active =>
    intro w e he
    by_cases hed : e = d
    · simpa [takeId, hed] using hne
    · simpa [takeId, hed] using h.active w e he
  case bound =>
    intro w e he
    by_cases hed : e = d
    · simpa [takeId, hed] using fun _ => hi
    · simpa [takeId, hed] using h.bound w e he
  case inj =>
    intro w e f he hf
    by_cases hed : e = d <;> by_cases hfd : f = d
    · intro _ _
      rw [hed, hfd]
    · subst hed
      have := h.apart w v e he hd
      subst this
      simp only [takeId, Function.update_self, Function.update_of_ne hfd]
      exact fun _ heq => absurd heq.symm (hother f hf)
    · subst hfd
      have := h.apart w v f hf hd
      subst this
      simp only [takeId, Function.update_self, Function.update_of_ne hed]
      exact fun _ heq => absurd heq (hother e he)
    · simpa [takeId, hed, hfd] using h.inj w e f he hf
  case unused =>
    intro e he hnot
    have hed : e ≠ d := fun hed => hnot v (hed ▸ hd)
    simpa [takeId, hed] using h.unused e he hnot
  case bits =>
    intro w j
    by_cases hw : w = v
    · subst hw
      by_cases hj : j = i
      · subst hj
        simp only [takeId, setBit, Function.update_self, true_iff]
        exact ⟨hne, d, hd, by simp⟩
      · simp only [takeId, setBit, Function.update_self, Function.update_of_ne hj, h.bits w j]
        refine and_congr_right fun hj' => exists_congr fun e => and_congr_right fun _ => ?_
        by_cases hed : e = d
        · subst hed
          simp only [Function.update_self, hid]
          exact ⟨fun heq => absurd heq.symm hj', fun heq => absurd heq.symm hj⟩
        · rw [Function.update_of_ne hed]
    · simp only [takeId, Function.update_of_ne hw, h.bits w j]
      refine and_congr_right fun _ => exists_congr fun e => and_congr_right fun he => ?_
      have hed : e ≠ d := by
        rintro rfl
        exact hw (h.apart w v e he hd)
      rw [Function.update_of_ne hed]

/-- A pending descriptor with a list register goes to the active list. -/
lemma deliver_inv (h : V.Inv R nr) (hd : d ∈ V.pend v) (hid : V.id d ≠ VIRQ_INVALID_ID) :
    (V.deliver v d).Inv R nr := by
  have hon : ∀ {w e}, (V.deliver v d).On w e ↔ V.On w e := on_deliver hd
  have ha : d ∉ V.act v := h.not_both hd
  constructor
  case nodup =>
    intro w
    by_cases hw : w = v
    · subst hw
      have hperm : ((V.pend w).erase d ++ (V.act w ++ [d])).Perm (V.pend w ++ V.act w) := by
        rw [← List.append_assoc]
        refine (List.perm_append_singleton d _).trans ?_
        exact ((List.perm_cons_erase hd).append_right (V.act w)).symm
      simpa [deliver] using hperm.nodup_iff.2 (h.nodup w)
    · simpa [deliver, hw] using h.nodup w
  case apart =>
    intro w u e
    rw [hon, hon]
    exact h.apart w u e
  case requested =>
    intro w e
    rw [hon]
    exact h.requested w e
  case linked =>
    intro e he
    simp only [hon]
    exact h.linked e he
  case raised =>
    intro w e he
    have hmem : e ∈ V.pend w ∧ e ≠ d := by
      by_cases hw : w = v
      · subst hw
        simp only [deliver, Function.update_self] at he
        refine ⟨List.mem_of_mem_erase he, ?_⟩
        rintro rfl
        exact (h.pend_nodup w).not_mem_erase he
      · simp only [deliver, Function.update_of_ne hw] at he
        refine ⟨he, ?_⟩
        rintro rfl
        exact hw (h.apart w v e (Or.inl he) (Or.inl hd))
    simpa [deliver, hmem.2] using h.raised w e hmem.1
  case flagged =>
    intro e he hf
    simp only [hon]
    by_cases hed : e = d
    · exact ⟨v, hed ▸ Or.inl hd⟩
    · exact h.flagged e he (by simpa [deliver, hed] using hf)
  case active =>
    intro w e he
    by_cases hed : e = d
    · exact hed ▸ hid
    · have : e ∈ V.act w := by
        by_cases hw : w = v
        · subst hw
          simpa [deliver, hed] using he
        · simpa [deliver, hw] using he
      exact h.active w e this
  case bound =>
    intro w e
    rw [hon]
    exact h.bound w e
  case inj =>
    intro w e f
    rw [hon, hon]
    exact h.inj w e f
  case unused =>
    intro e he
    simp only [hon]
    exact h.unused e he
  case bits =>
    intro w i
    simp only [hon]
    exact h.bits w i

/-- The interrupt of an active descriptor is over. -/
lemma retire_inv (h : V.Inv R nr) (hd : d ∈ V.act v) (hf : V.flag d = false) :
    (V.retire v d).Inv R nr := by
  have hon : ∀ {w e}, (V.retire v d).On w e ↔ V.On w e ∧ e ≠ d := on_retire h hd
  have hp : d ∉ V.pend v := fun hp => h.not_both hp hd
  have hid : V.id d ≠ VIRQ_INVALID_ID := h.active v d hd
  constructor
  case nodup =>
    intro w
    by_cases hw : w = v
    · subst hw
      have hsub : (V.pend w ++ (V.act w).erase d).Sublist (V.pend w ++ V.act w) :=
        List.Sublist.append_left List.erase_sublist _
      simpa [retire] using hsub.nodup (h.nodup w)
    · simpa [retire, hw] using h.nodup w
  case apart =>
    intro w u e hw hu
    exact h.apart w u e (hon.1 hw).1 (hon.1 hu).1
  case requested =>
    intro w e he
    exact h.requested w e (hon.1 he).1
  case linked =>
    intro e he
    simp only [hon]
    by_cases hed : e = d
    · simp [retire, hed]
    · simpa [retire, hed] using h.linked e he
  case raised => exact h.raised
  case flagged =>
    intro e he hfe
    have hed : e ≠ d := by
      rintro rfl
      rw [show (V.retire v e).flag e = V.flag e from rfl, hf] at hfe
      cases hfe
    obtain ⟨w, hw⟩ := h.flagged e he hfe
    exact ⟨w, hon.2 ⟨hw, hed⟩⟩
  case active =>
    intro w e he
    have hmem := (hon.1 (Or.inr he : (V.retire v d).On w e)).2
    have : e ∈ V.act w := by
      by_cases hw : w = v
      · subst hw
        simp only [retire, Function.update_self] at he
        exact List.mem_of_mem_erase he
      · simpa [retire, hw] using he
    simpa [retire, hmem] using h.active w e this
  case bound =>
    intro w e he
    obtain ⟨he, hed⟩ := hon.1 he
    simpa [retire, hed] using h.bound w e he
  case inj =>
    intro w e f he hf'
    obtain ⟨he, hed⟩ := hon.1 he
    obtain ⟨hf', hfd⟩ := hon.1 hf'
    simpa [retire, hed, hfd] using h.inj w e f he hf'
  case unused =>
    intro e he hnot
    by_cases hed : e = d
    · simp [retire, hed]
    · simpa [retire, hed] using h.unused e he fun w hw => hnot w (hon.2 ⟨hw, hed⟩)
  case bits =>
    intro w j
    simp only [hon]
    by_cases hw : w = v
    · subst hw
      by_cases hj : j = V.id d
      · subst hj
        simp only [retire, clearBit, Function.update_self, Bool.false_eq_true, false_iff]
        rintro ⟨-, e, ⟨he, hed⟩, heq⟩
        rw [Function.update_of_ne hed] at heq
        exact hed (h.inj w e d he (Or.inr hd) (heq ▸ hid) heq)
      · simp only [retire, clearBit, Function.update_self, Function.update_of_ne hj, h.bits w j]
        refine and_congr_right fun _ => exists_congr fun e => ?_
        by_cases hed : e = d
        · subst hed
          simpa using fun _ => Ne.symm hj
        · simp [hed]
    · simp only [retire, Function.update_of_ne hw, h.bits w j]
      refine and_congr_right fun _ => exists_congr fun e => ?_
      by_cases hed : e = d
      · subst hed
        have hoff : ¬ V.On w e := fun he => hw (h.apart w v e he (Or.inr hd))
        simp [hoff]
      · simp [hed]

/-- An active descriptor that was raised again waits for the next entry. -/
lemma requeue_inv (h : V.Inv R nr) (hd : d ∈ V.act v) (hf : V.flag d = true) :
    (V.requeue v d).Inv R nr := by
  have hon : ∀ {w e}, (V.requeue v d).On w e ↔ V.On w e := on_requeue hd
  constructor
  case nodup =>
    intro w
    by_cases hw : w = v
    · subst hw
      have hperm : (V.pend w ++ [d] ++ (V.act w).erase d).Perm (V.pend w ++ V.act w) := by
        rw [List.append_assoc, List.singleton_append]
        exact (List.perm_cons_erase hd).symm.append_left (V.pend w)
      simpa [requeue] using hperm.nodup_iff.2 (h.nodup w)
    · simpa [requeue, hw] using h.nodup w
  case apart =>
    intro w u e
    rw [hon, hon]
    exact h.apart w u e
  case requested =>
    intro w e
    rw [hon]
    exact h.requested w e
  case linked =>
    intro e he
    simp only [hon]
    exact h.linked e he
  case raised =>
    intro w e he
    by_cases hed : e = d
    · exact hed ▸ hf
    · have : e ∈ V.pend w := by
        by_cases hw : w = v
        · subst hw
          simpa [requeue, hed] using he
        · simpa [requeue, hw] using he
      exact h.raised w e this
  case flagged =>
    intro e he hfe
    simp only [hon]
    exact h.flagged e he hfe
  case active =>
    intro w e he
    have : e ∈ V.act w := by
      by_cases hw : w = v
      · subst hw
        simp only [requeue, Function.update_self] at he
        exact List.mem_of_mem_erase he
      · simpa [requeue, hw] using he
    exact h.active w e this
  case bound =>
    intro w e
    rw [hon]
    exact h.bound w e
  case inj =>
    intro w e f
    rw [hon, hon]
    exact h.inj w e f
  case unused =>
    intro e he
    simp only [hon]
    exact h.unused e he
  case bits =>
    intro w i
    simp only [hon]
    exact h.bits w i

end View

/-! ### The operations are moves of the view -/

def Vgic.view {ι : Type} (s : Vgic ι) : View ι where
  pend v := (s.structs v).pendingList
  act v := (s.structs v).activeList
  bits v := (s.structs v).irqBitmap
  id d := (s.descs d).id
  flag d := (s.descs d).pending
  linked d := (s.descs d).linked

section Moves

variable {ι : Type} [DecidableEq ι] {C : Chip} {s : Vgic ι} {v : ι} {d : VirqRef ι}

omit [DecidableEq ι] in
@[simp] lemma view_note (a : Act ι) : (s.note a).view = s.view := rfl

lemma view_setDesc (f : VirqDesc → VirqDesc) : (s.setDesc d f).view = { s.view with
    id := Function.update s.view.id d (f (s.descs d)).id
    flag := Function.update s.view.flag d (f (s.descs d)).pending
    linked := Function.update s.view.linked d (f (s.descs d)).linked } := by
  have hcomp : ∀ {α : Type} (p : VirqDesc → α), (fun e => p ((s.setDesc d f).descs e)) =
      Function.update (fun e => p (s.descs e)) d (p (f (s.descs d))) := by
    intro α p
    exact Function.comp_update p s.descs d _
  simp only [Vgic.view, hcomp]
  rfl

lemma view_setStruct (f : VirqStruct ι → VirqStruct ι) : (s.setStruct v f).view = { s.view with
    pend := Function.update s.view.pend v (f (s.structs v)).pendingList
    act := Function.update s.view.act v (f (s.structs v)).activeList
    bits := Function.update s.view.bits v (f (s.structs v)).irqBitmap } := by
  have hcomp : ∀ {α : Type} (p : VirqStruct ι → α), (fun w => p ((s.setStruct v f).structs w)) =
      Function.update (fun w => p (s.structs w)) v (p (f (s.structs v))) := by
    intro α p
    exact Function.comp_update p s.structs v _
  simp only [Vgic.view, hcomp]
  rfl

/-- A change that leaves the id, the flag and the link of the descriptor. -/
lemma view_setDesc_same {f : VirqDesc → VirqDesc} (hid : (f (s.descs d)).id = (s.descs d).id)
    (hflag : (f (s.descs d)).pending = (s.descs d).pending)
    (hlinked : (f (s.descs d)).linked = (s.descs d).linked) : (s.setDesc d f).view = s.view := by
  rw [view_setDesc, hid, hflag, hlinked]
  simp [Vgic.view]

/-- A change of the list registers only. -/
lemma view_setStruct_same {f : VirqStruct ι → VirqStruct ι}
    (hpend : (f (s.structs v)).pendingList = (s.structs v).pendingList)
    (hact : (f (s.structs v)).activeList = (s.structs v).activeList)
    (hbits : (f (s.structs v)).irqBitmap = (s.structs v).irqBitmap) :
    (s.setStruct v f).view = s.view := by
  rw [view_setStruct, hpend, hact, hbits]
  simp [Vgic.view]

@[simp] lemma view_virqchipSendVirq : (virqchipSendVirq C v d s).view = s.view := by
  simp only [virqchipSendVirq]
  split_ifs
  · rfl
  · rw [view_note]
    exact view_setStruct_same rfl rfl rfl

@[simp] lemma view_virqchipClearVirq : (virqchipClearVirq C v d s).view = s.view := by
  simp only [virqchipClearVirq]
  split_ifs
  · rfl
  · rw [view_note]
    exact view_setStruct_same rfl rfl rfl

@[simp] lemma descs_virqchipSendVirq : (virqchipSendVirq C v d s).descs = s.descs := by
  simp only [virqchipSendVirq]
  split_ifs <;> rfl

@[simp] lemma descs_virqchipClearVirq : (virqchipClearVirq C v d s).descs = s.descs := by
  simp only [virqchipClearVirq]
  split_ifs <;> rfl

lemma view_enqueue : (enqueue v d s).view = s.view.enqueue v d := by
  rw [enqueue, view_setStruct, view_setDesc]
  simp [View.enqueue, Vgic.view, Vgic.setDesc]

lemma view_takeId (id : ℕ) : (takeId v d id s).view = s.view.takeId v d id := by
  rw [takeId, view_setStruct, view_setDesc]
  simp [View.takeId, Vgic.view, Vgic.setDesc]

lemma view_sendVirq (src : ℕ) : (sendVirq v d src s).view =
    if s.view.flag d then s.view
    else if s.view.linked d then s.view.raise d else (s.view.raise d).enqueue v d := by
  have hraise : ((s.setDesc d fun desc => { desc with pending := true }).note
      (.raise d false)).view = s.view.raise d := by
    rw [view_note, view_setDesc]
    simp [View.raise, Vgic.view]
  have hlinked : (((s.setDesc d fun desc => { desc with pending := true }).note
      (.raise d false)).descs d).linked = (s.descs d).linked := by
    simp [Vgic.note, Vgic.setDesc]
  simp only [sendVirq]
  by_cases hf : (s.descs d).pending = true
  · rw [if_pos hf, if_pos (show s.view.flag d = true from hf), view_note]
  · rw [if_neg hf, if_neg (show ¬ s.view.flag d = true from hf), view_setDesc_same]
    · rw [hlinked]
      by_cases hl : (s.descs d).linked = true
      · rw [if_pos hl, if_pos (show s.view.linked d = true from hl), hraise]
      · rw [if_neg hl, if_neg (show ¬ s.view.linked d = true from hl), view_enqueue, hraise]
    all_goals split_ifs <;> rfl

omit [DecidableEq ι] in
lemma structs_of_view {s' : Vgic ι} (h : s'.view = s.view) (v : ι) :
    (s'.structs v).pendingList = (s.structs v).pendingList ∧
    (s'.structs v).activeList = (s.structs v).activeList ∧
    (s'.structs v).irqBitmap = (s.structs v).irqBitmap :=
  ⟨congrFun (congrArg View.pend h) v, congrFun (congrArg View.act h) v,
    congrFun (congrArg View.bits h) v⟩

lemma view_deliver : (deliver C v d s).view = s.view.deliver v d := by
  obtain ⟨hp, ha, hb⟩ :=
    structs_of_view (view_virqchipSendVirq (C := C) (v := v) (d := d) (s := s)) v
  rw [deliver, view_setStruct, view_note, view_setDesc, view_virqchipSendVirq]
  simp only [Vgic.note, Vgic.setDesc, hp, ha, hb, descs_virqchipSendVirq]
  simp [View.deliver, Vgic.view]

lemma view_retire : (retire C v d s).view = s.view.retire v d := by
  obtain ⟨hp, ha, hb⟩ :=
    structs_of_view (view_virqchipClearVirq (C := C) (v := v) (d := d) (s := s)) v
  rw [retire, view_setDesc, view_setStruct, view_virqchipClearVirq]
  simp only [Vgic.setStruct, hp, ha, hb, descs_virqchipClearVirq]
  simp [View.retire, Vgic.view]

lemma view_requeue : (requeue C v d s).view = s.view.requeue v d := by
  obtain ⟨hp, ha, hb⟩ :=
    structs_of_view (view_virqchipClearVirq (C := C) (v := v) (d := d) (s := s)) v
  rw [requeue, view_setStruct, view_virqchipClearVirq]
  simp only [hp, ha, hb]
  simp [View.requeue, Vgic.view]

/-- The exit leaves a descriptor alone, retires it or puts it back on the pending list. -/
lemma view_exitVirq : (exitVirq C v s d).view =
    if virqchipGetVirqState C v d s = .inactive then
      if s.view.flag d then s.view.requeue v d else s.view.retire v d
    else s.view := by
  simp only [exitVirq]
  by_cases hi : virqchipGetVirqState C v d s = .inactive
  · rw [if_pos hi, if_pos hi]
    by_cases hf : (s.descs d).pending = true
    · rw [if_pos (show ((s.note _).descs d).pending = true from hf),
        if_pos (show s.view.flag d = true from hf), view_requeue, view_note]
    · rw [if_neg (show ¬ ((s.note _).descs d).pending = true from hf),
        if_neg (show ¬ s.view.flag d = true from hf), view_retire, view_note]
  · rw [if_neg hi, if_neg hi, view_setDesc_same rfl rfl rfl, view_note]

/-! ### The loops keep the invariant -/

variable {R : VirqRef ι → Prop}

lemma sendVirq_inv {src : ℕ} (h : s.view.Inv R C.nrLrs) (hd : R d) :
    (sendVirq v d src s).view.Inv R C.nrLrs := by
  rw [view_sendVirq]
  split_ifs with hf hl
  · exact h
  · exact View.raise_inv h ((h.linked d hd).1 hl)
  · exact View.enqueue_inv h hd (by simpa using hl)

/-- One round of the entry: the head of the pending list is delivered, or there is no list
register left for it. -/
lemma enterLoop_cons {rest : List (VirqRef ι)} (h : s.view.Inv R C.nrLrs)
    (hl : s.view.pend v = d :: rest) :
    (s.view.id d = VIRQ_INVALID_ID ∧ (∀ i < C.nrLrs, s.view.bits v i = true) ∧
      enterLoop C v (d :: rest) s = s) ∨
    ∃ s', enterLoop C v (d :: rest) s = enterLoop C v rest (deliver C v d s') ∧
      s'.view.Inv R C.nrLrs ∧ s'.view.pend v = d :: rest ∧
      s'.view.id d ≠ VIRQ_INVALID_ID ∧
      (s' = s ∨ s.view.id d = VIRQ_INVALID_ID ∧ ∃ i < C.nrLrs, s.view.bits v i = false ∧
        s' = takeId v d i s) := by
  have hmem : d ∈ s.view.pend v := by
    rw [hl]
    exact List.mem_cons_self
  have hf : ¬ (s.descs d).pending = false := by
    rw [show (s.descs d).pending = true from h.raised v d hmem]
    exact Bool.noConfusion
  rw [enterLoop, if_neg hf]
  by_cases hid : (s.descs d).id = VIRQ_INVALID_ID
  · rw [if_neg (not_not.2 hid)]
    dsimp only
    by_cases hfull : findNextZeroBit (s.structs v).irqBitmap C.nrLrs 0 = C.nrLrs
    · refine Or.inl ⟨hid, fun i hi => ?_, by rw [if_pos hfull]⟩
      simpa [Vgic.view] using findNext_none hfull.ge (Nat.zero_le i) hi
    · have hlt : findNextZeroBit (s.structs v).irqBitmap C.nrLrs 0 < C.nrLrs :=
        lt_of_le_of_ne (findNext_le _ _ _) hfull
      have hzero := findNextZeroBit_prop hlt
      refine Or.inr ⟨_, by rw [if_neg hfull], ?_, ?_, ?_, Or.inr ⟨hid, _, hlt, hzero, rfl⟩⟩
      · rw [view_takeId]
        exact View.takeId_inv h (Or.inl hmem) hid hlt C.nrLrs_le hzero
      · rw [view_takeId]
        exact hl
      · rw [view_takeId]
        simp only [View.takeId, Function.update_self]
        have := C.nrLrs_le
        simp only [MAX_NR_LRS, VIRQ_INVALID_ID] at this ⊢
        omega
  · exact Or.inr ⟨s, by rw [if_pos hid], h, hl, hid, Or.inl rfl⟩

lemma pend_deliver {rest : List (VirqRef ι)} (hl : s.view.pend v = d :: rest) :
    (deliver C v d s).view.pend v = rest := by
  rw [view_deliver]
  simp [View.deliver, hl]

lemma enterLoop_inv {l : List (VirqRef ι)} (h : s.view.Inv R C.nrLrs) (hl : s.view.pend v = l) :
    (enterLoop C v l s).view.Inv R C.nrLrs := by
  induction l generalizing s with
  | nil => exact h
  | cons d rest ih =>
    rcases enterLoop_cons h hl with ⟨-, -, hstop⟩ | ⟨s', hnext, h', hl', hid, -⟩
    · rw [hstop]
      exact h
    · rw [hnext]
      refine ih ?_ (pend_deliver hl')
      rw [view_deliver]
      exact View.deliver_inv h' (by rw [hl']; exact List.mem_cons_self) hid

lemma exitVirq_inv (h : s.view.Inv R C.nrLrs) (hd : d ∈ s.view.act v) :
    (exitVirq C v s d).view.Inv R C.nrLrs := by
  rw [view_exitVirq]
  split_ifs with hi hf
  · exact View.requeue_inv h hd hf
  · exact View.retire_inv h hd (by simpa using hf)
  · exact h

/-- The other active descriptors stay where they are. -/
lemma mem_act_exitVirq {e : VirqRef ι} (he : e ∈ s.view.act v) (hed : e ≠ d) :
    e ∈ (exitVirq C v s d).view.act v := by
  rw [view_exitVirq]
  split_ifs
  · simpa [View.requeue, List.mem_erase_of_ne hed] using he
  · simpa [View.retire, List.mem_erase_of_ne hed] using he
  · exact he

lemma exitLoop_inv {l : List (VirqRef ι)} (h : s.view.Inv R C.nrLrs) (hl : l.Nodup)
    (hmem : ∀ d ∈ l, d ∈ s.view.act v) : (l.foldl (exitVirq C v) s).view.Inv R C.nrLrs := by
  induction l generalizing s with
  | nil => exact h
  | cons d rest ih =>
    obtain ⟨hd, hrest⟩ := List.nodup_cons.1 hl
    refine ih (exitVirq_inv h (hmem d List.mem_cons_self)) hrest fun e he => ?_
    exact mem_act_exitVirq (hmem e (List.mem_cons_of_mem _ he)) fun hed => hd (hed ▸ he)

/-! ### Runs -/

omit [DecidableEq ι] in
/-- The start has no interrupt anywhere. -/
lemma init_inv (requests : ℕ → Option Request) (nr : ℕ) :
    (Vgic.init ι requests).view.Inv (VirqRef.Requested requests) nr := by
  have hon : ∀ v d, ¬ (Vgic.init ι requests).view.On v d := by
    intro v d
    simp [View.On, Vgic.view, Vgic.init]
  have hdesc : ∀ d, VirqRef.Requested requests d →
      ((Vgic.init ι requests).descs d).id = VIRQ_INVALID_ID ∧
      ((Vgic.init ι requests).descs d).pending = false ∧
      ((Vgic.init ι requests).descs d).linked = false := by
    intro d hd
    cases d with
    | priv v virq => exact ⟨rfl, rfl, rfl⟩
    | spi n =>
      obtain ⟨r, hr⟩ := Option.isSome_iff_exists.1 hd
      simp only [Vgic.init, hr]
      exact ⟨rfl, rfl, rfl⟩
  constructor
  case nodup => exact fun _ => List.nodup_nil
  case apart => exact fun v w d hv => absurd hv (hon v d)
  case requested => exact fun v d hv => absurd hv (hon v d)
  case linked =>
    intro d hd
    rw [show (Vgic.init ι requests).view.linked d = false from (hdesc d hd).2.2]
    simp [hon]
  case raised => exact fun v d hd => absurd (Or.inl hd) (hon v d)
  case flagged =>
    intro d hd hf
    rw [show (Vgic.init ι requests).view.flag d = false from (hdesc d hd).2.1] at hf
    cases hf
  case active => exact fun v d hd => absurd (Or.inr hd) (hon v d)
  case bound => exact fun v d hv => absurd hv (hon v d)
  case inj => exact fun v d e hv => absurd hv (hon v d)
  case unused => exact fun d hd _ => (hdesc d hd).1
  case bits =>
    intro v i
    simp only [hon, false_and, exists_false, and_false, iff_false]
    exact Bool.noConfusion

/-- Interrupts are raised only if they are private or were requested. -/
def Event.Legit {ι : Type} (requests : ℕ → Option Request) : Event ι → Prop
  | .send _ virq _ => virq < VM_LOCAL_VIRQ_NR ∨ (requests (virq - VM_LOCAL_VIRQ_NR)).isSome
  | _ => True

lemma step_inv {requests : ℕ → Option Request} {e : Event ι}
    (h : s.view.Inv (VirqRef.Requested requests) C.nrLrs) (he : e.Legit requests) :
    (step C s e).view.Inv (VirqRef.Requested requests) C.nrLrs := by
  cases e with
  | send v virq src =>
    rw [step]
    cases hd : getVirqDesc C v virq with
    | none => exact h
    | some d =>
      refine sendVirq_inv h ?_
      rw [getVirqDesc] at hd
      split_ifs at hd with hpriv
      · cases hd
        trivial
      · cases hd
        exact he.resolve_left hpriv
  | enter v => exact enterLoop_inv h rfl
  | exit v => exact exitLoop_inv h (h.act_nodup v) fun d hd => hd
  | hardware v states =>
    rw [step, view_setStruct_same rfl rfl rfl]
    exact h

/-- The list invariant holds in every state that sends, entries, exits and the hardware reach, for
any number of vcpus and of list registers. -/
theorem vgic_list_invariant (C : Chip) (requests : ℕ → Option Request) (es : List (Event ι))
    (hes : ∀ e ∈ es, e.Legit requests) :
    (exec (step C) (Vgic.init ι requests) es).view.Inv (VirqRef.Requested requests) C.nrLrs := by
  have hrun : Along (step C) (fun _ e => Event.Legit requests e) (Vgic.init ι requests) es :=
    along_const.2 hes
  exact exec_induction (I := fun s : Vgic ι => s.view.Inv (VirqRef.Requested requests) C.nrLrs)
    (fun s e h he => step_inv h he) (init_inv requests C.nrLrs) hrun

/-- One list register and one SPI: an SGI and the SPI are raised on one vcpu, the SPI again while
it is active, and another vcpu gets a private interrupt. -/
theorem vgic_list_invariant_two_vcpus :
    (exec (step ⟨.v2, 1, 8, by decide, by decide⟩)
      (Vgic.init Bool fun n => if n = 0 then some ⟨0, 1, 0, false, true⟩ else none)
      [.send true 32 0, .enter true, .send true 3 1, .send true 32 0, .enter true,
        .hardware true fun _ => .inactive, .exit true, .send false 27 0, .enter true]).view.Inv
      (VirqRef.Requested fun n => if n = 0 then some ⟨0, 1, 0, false, true⟩ else none) 1 :=
  vgic_list_invariant ⟨.v2, 1, 8, by decide, by decide⟩ _ _ (by simp [Event.Legit,
    VM_LOCAL_VIRQ_NR])

end Moves

end Minos.Virq
