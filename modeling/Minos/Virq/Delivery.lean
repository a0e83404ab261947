import Mathlib
import Minos.Virq.ListInvariant

/-!
# No virtual interrupt is lost or injected twice

The log of the vgic says when an interrupt was raised, when it was written to a list register, when
its flag was cleared and what the hardware reported. What the log says of one descriptor follows a
fixed pattern: a raise, further raises that are merged, one write, and the flag is cleared.
-/

namespace Minos.Virq

open Bitmap Run

variable {ι : Type}

/-- The interrupt was raised and its flag is not cleared since. -/
def OpenRaise (d : VirqRef ι) (log : List (Act ι)) : Prop :=
  ∃ pre mid, log = pre ++ .raise d false :: mid ∧ .clear d ∉ mid

/-- The pattern of a log. -/
structure Delivered (log : List (Act ι)) : Prop where
  /-- from a raise to the moment the flag is cleared there is one write, directly before -/
  once : ∀ d pre mid post, log = pre ++ .raise d false :: (mid ++ .clear d :: post) →
    .clear d ∉ mid → ∃ mid' v id, mid = mid' ++ [.write v d id] ∧ ∀ w i, .write w d i ∉ mid'
  /-- a write belongs to a raise and clears its flag -/
  raised : ∀ d v id pre post, log = pre ++ .write v d id :: post →
    OpenRaise d pre ∧ ∃ post', post = .clear d :: post'
  /-- a merged raise falls between a raise and the write for it -/
  merged : ∀ d pre post, log = pre ++ .raise d true :: post → OpenRaise d pre
  /-- between two writes the hardware reported the interrupt inactive -/
  again : ∀ d v w i j pre mid post,
    log = pre ++ .write v d i :: (mid ++ .write w d j :: post) → .report v d .inactive ∈ mid

/-- The pattern, with what the flags and the active lists say of the end of the log. -/
structure LogOk (flag : VirqRef ι → Bool) (busy : ι → VirqRef ι → Prop) (log : List (Act ι)) :
    Prop extends Delivered log where
  isOpen : ∀ d, flag d = true → OpenRaise d log
  isBusy : ∀ d v i pre mid, log = pre ++ .write v d i :: mid → .report v d .inactive ∉ mid →
    busy v d

/-- A place in a list that got one more entry. -/
lemma append_singleton_eq_split {α : Type*} {l pre post : List α} {a x : α} :
    l ++ [a] = pre ++ x :: post ↔
      (pre = l ∧ x = a ∧ post = []) ∨ ∃ post', post = post' ++ [a] ∧ l = pre ++ x :: post' := by
  constructor
  · intro h
    rcases List.eq_nil_or_concat post with rfl | ⟨post', b, rfl⟩
    · obtain ⟨h1, h2⟩ := List.append_inj' h rfl
      exact Or.inl ⟨h1.symm, by simpa using h2.symm, rfl⟩
    · rw [List.concat_eq_append, ← List.cons_append, ← List.append_assoc] at h
      obtain ⟨h1, h2⟩ := List.append_inj' h rfl
      simp only [List.cons.injEq, and_true] at h2
      exact Or.inr ⟨post', by rw [List.concat_eq_append, h2], h1⟩
  · rintro (⟨rfl, rfl, rfl⟩ | ⟨post', rfl, rfl⟩)
    · rfl
    · simp

section Log

variable {flag : VirqRef ι → Bool} {busy busy' : ι → VirqRef ι → Prop} {log : List (Act ι)}
  {d : VirqRef ι} {v : ι}

lemma OpenRaise.append {a : Act ι} (h : OpenRaise d log) (ha : a ≠ .clear d) :
    OpenRaise d (log ++ [a]) := by
  obtain ⟨pre, mid, rfl, hmid⟩ := h
  exact ⟨pre, mid ++ [a], by simp, by simp [hmid, ha.symm]⟩

lemma LogOk.nil : LogOk (fun _ : VirqRef ι => false) (fun _ _ => False) [] where
  once _ _ _ _ h := by simp at h
  raised _ _ _ _ _ h := by simp at h
  merged _ _ _ h := by simp at h
  again _ _ _ _ _ _ _ _ h := by simp at h
  isOpen _ h := by cases h
  isBusy _ _ _ _ _ h := by simp at h

/-- An entry that neither writes a list register nor clears a flag. -/
lemma LogOk.append {flag' : VirqRef ι → Bool} {a : Act ι} (h : LogOk flag busy log)
    (hw : ∀ v d i, a ≠ .write v d i) (hc : ∀ d, a ≠ .clear d)
    (hm : ∀ d, a = .raise d true → flag d = true)
    (hf : ∀ d, flag' d = true → flag d = true ∨ a = .raise d false)
    (hb : ∀ v d, busy v d → busy' v d ∨ a = .report v d .inactive) :
    LogOk flag' busy' (log ++ [a]) := by
  constructor
  case toDelivered =>
    constructor
    case once =>
      intro d pre mid post hlog hmid
      rcases append_singleton_eq_split.1 hlog with ⟨-, -, hnil⟩ | ⟨rest, hrest, hlog⟩
      · simp at hnil
      · rcases append_singleton_eq_split.1 hrest.symm with ⟨-, hclear, -⟩ | ⟨post', -, hrest⟩
        · exact absurd hclear.symm (hc d)
        · rw [hrest] at hlog
          exact h.once d pre mid post' hlog hmid
    case raised =>
      intro d v i pre post hlog
      rcases append_singleton_eq_split.1 hlog with ⟨-, hwrite, -⟩ | ⟨post', rfl, hl⟩
      · exact absurd hwrite.symm (hw v d i)
      · obtain ⟨hopen, post'', rfl⟩ := h.raised d v i pre post' hl
        exact ⟨hopen, post'' ++ [a], rfl⟩
    case merged =>
      intro d pre post hlog
      rcases append_singleton_eq_split.1 hlog with ⟨rfl, ha, -⟩ | ⟨post', rfl, hl⟩
      · exact h.isOpen d (hm d ha.symm)
      · exact h.merged d pre post' hl
    case again =>
      intro d v w i j pre mid post hlog
      rcases append_singleton_eq_split.1 hlog with ⟨-, -, hnil⟩ | ⟨rest, hrest, hlog⟩
      · simp at hnil
      · rcases append_singleton_eq_split.1 hrest.symm with ⟨-, hwrite, -⟩ | ⟨post', -, hrest⟩
        · exact absurd hwrite.symm (hw w d j)
        · rw [hrest] at hlog
          exact h.again d v w i j pre mid post' hlog
  case isOpen =>
    intro d hd
    rcases hf d hd with hd | rfl
    · exact (h.isOpen d hd).append (hc d)
    · exact ⟨log, [], rfl, by simp⟩
  case isBusy =>
    intro d v i pre mid hlog hmid
    rcases append_singleton_eq_split.1 hlog with ⟨-, hwrite, -⟩ | ⟨mid', rfl, hl⟩
    · exact absurd hwrite.symm (hw v d i)
    · rw [List.mem_append, not_or, List.mem_singleton] at hmid
      rcases hb v d (h.isBusy d v i pre mid' hl hmid.1) with hb | ha
      · exact hb
      · exact absurd ha.symm hmid.2

lemma LogOk.append_resets {l : List (Act ι)} {i : ℕ} (h : LogOk flag busy log)
    (hl : ∀ a ∈ l, a = .reset v d i) : LogOk flag busy (log ++ l) := by
  induction l generalizing log with
  | nil => simpa using h
  | cons a l ih =>
    obtain ⟨rfl, hrest⟩ := List.forall_mem_cons.1 hl
    rw [← List.singleton_append, ← List.append_assoc]
    exact ih (h.append (by simp) (by simp) (by simp) (fun e he => Or.inl he)
      fun w e hb => Or.inl hb) hrest

/-- No write is the last entry of a log, and none comes without its flag being cleared. -/
lemma Delivered.write_mem {pre mid : List (Act ι)} {w : ι} {j : ℕ} (h : Delivered log)
    (hlog : log = pre ++ mid) (hw : .write w d j ∈ mid) : .clear d ∈ mid := by
  obtain ⟨mid1, mid2, rfl⟩ := List.append_of_mem hw
  obtain ⟨-, post, hpost⟩ := h.raised d w j (pre ++ mid1) mid2 (by rw [hlog, List.append_assoc])
  simp [hpost]

/-- The two entries of a delivery: the write, and the flag is cleared. -/
lemma append_pair_eq_split {α : Type*} {l pre post : List α} {a b x : α} :
    l ++ [a, b] = pre ++ x :: post ↔
      (pre = l ++ [a] ∧ x = b ∧ post = []) ∨ (pre = l ∧ x = a ∧ post = [b]) ∨
        ∃ post', post = post' ++ [a, b] ∧ l = pre ++ x :: post' := by
  rw [show l ++ [a, b] = l ++ [a] ++ [b] by simp, append_singleton_eq_split]
  refine or_congr Iff.rfl ⟨?_, ?_⟩
  · rintro ⟨post', rfl, hpost⟩
    rcases append_singleton_eq_split.1 hpost with ⟨rfl, rfl, rfl⟩ | ⟨post'', rfl, hl⟩
    · exact Or.inl ⟨rfl, rfl, rfl⟩
    · exact Or.inr ⟨post'', by simp, hl⟩
  · rintro (⟨rfl, rfl, rfl⟩ | ⟨post', rfl, rfl⟩)
    · exact ⟨[], rfl, rfl⟩
    · exact ⟨post' ++ [a], by simp, by simp⟩

lemma LogOk.deliver [DecidableEq ι] {id : ℕ} (h : LogOk flag busy log) (hd : flag d = true)
    (hidle : ∀ w, ¬ busy w d) (hb : ∀ w e, busy w e ∨ (w = v ∧ e = d) → busy' w e) :
    LogOk (Function.update flag d false) busy' (log ++ [.write v d id, .clear d]) := by
  constructor
  case toDelivered =>
    constructor
    case once =>
      intro e pre mid post hlog hmid
      rcases append_pair_eq_split.1 hlog with ⟨-, hx, -⟩ | ⟨-, hx, -⟩ | ⟨rest, hrest, hlog⟩
      · cases hx
      · cases hx
      · rcases append_pair_eq_split.1 hrest.symm with
          ⟨hmid', he, -⟩ | ⟨-, hx, -⟩ | ⟨post', -, hrest⟩
        · cases he
          refine ⟨rest, v, id, hmid', fun w j hw => hmid ?_⟩
          rw [hmid']
          refine List.mem_append_left _ ?_
          rw [← List.singleton_append, ← List.append_assoc] at hlog
          exact h.write_mem hlog hw
        · cases hx
        · rw [hrest] at hlog
          exact h.once e pre mid post' hlog hmid
    case raised =>
      intro e w i pre post hlog
      rcases append_pair_eq_split.1 hlog with ⟨-, hx, -⟩ | ⟨rfl, hx, rfl⟩ | ⟨post', rfl, hl⟩
      · cases hx
      · cases hx
        exact ⟨h.isOpen d hd, [], rfl⟩
      · obtain ⟨hopen, post'', rfl⟩ := h.raised e w i pre post' hl
        exact ⟨hopen, _, rfl⟩
    case merged =>
      intro e pre post hlog
      rcases append_pair_eq_split.1 hlog with ⟨-, hx, -⟩ | ⟨-, hx, -⟩ | ⟨post', -, hlog⟩
      · cases hx
      · cases hx
      · exact h.merged e pre post' hlog
    case again =>
      intro e w u i j pre mid post hlog
      rcases append_pair_eq_split.1 hlog with ⟨-, hx, -⟩ | ⟨-, hx, hnil⟩ | ⟨rest, hrest, hl⟩
      · cases hx
      · rcases mid with - | ⟨b, mid⟩ <;> simp at hnil
      · rcases append_pair_eq_split.1 hrest.symm with
          ⟨-, hx, -⟩ | ⟨hmid, hx, -⟩ | ⟨post', -, hrest⟩
        · cases hx
        · cases hx
          rw [← hmid] at hl
          by_contra hrep
          exact hidle w (h.isBusy d w i pre mid hl hrep)
        · rw [hrest] at hl
          exact h.again e w u i j pre mid post' hl
  case isOpen =>
    intro e he
    by_cases hed : e = d
    · subst hed
      simp at he
    · rw [Function.update_of_ne hed] at he
      rw [show log ++ [.write v d id, .clear d] = log ++ [.write v d id] ++ [.clear d] by simp]
      exact ((h.isOpen e he).append (by simp)).append (by simpa using Ne.symm hed)
  case isBusy =>
    intro e w i pre mid hlog hmid
    rcases append_pair_eq_split.1 hlog with ⟨-, hx, -⟩ | ⟨-, hx, -⟩ | ⟨mid', rfl, hl⟩
    · cases hx
    · cases hx
      exact hb v d (Or.inr ⟨rfl, rfl⟩)
    · refine hb w e (Or.inl (h.isBusy e w i pre mid' hl fun hrep => hmid ?_))
      exact List.mem_append_left _ hrep

end Log

/-! ### The log of the model -/

section Model

variable [DecidableEq ι] {C : Chip} {s : Vgic ι} {d : VirqRef ι} {v : ι} {R : VirqRef ι → Prop}

/-- The log of a state fits its flags and its active lists. -/
def Vgic.LogOk {ι : Type} (s : Vgic ι) : Prop :=
  Virq.LogOk s.view.flag (fun v d => d ∈ s.view.act v) s.log

@[simp] lemma log_setDesc (f : VirqDesc → VirqDesc) : (s.setDesc d f).log = s.log := rfl

@[simp] lemma log_setStruct (f : VirqStruct ι → VirqStruct ι) : (s.setStruct v f).log = s.log := rfl

omit [DecidableEq ι] in
@[simp] lemma log_note (a : Act ι) : (s.note a).log = s.log ++ [a] := rfl

@[simp] lemma log_enqueue : (enqueue v d s).log = s.log := rfl

lemma log_sendVirq (src : ℕ) : (sendVirq v d src s).log = s.log ++ [.raise d (s.view.flag d)] := by
  simp only [sendVirq]
  by_cases hf : (s.descs d).pending = true
  · rw [if_pos hf, show s.view.flag d = true from hf]
    rfl
  · rw [if_neg hf, show s.view.flag d = false by simpa [Vgic.view] using hf]
    rw [log_setDesc, apply_ite Vgic.log, log_enqueue, ite_self, log_note, log_setDesc]

/-- A delivery writes the list register and clears the flag. -/
lemma log_deliver (hid : s.view.id d < C.nrLrs) :
    (deliver C v d s).log = s.log ++ [.write v d (s.view.id d), .clear d] := by
  have hw : (virqchipSendVirq C v d s).log = s.log ++ [.write v d (s.view.id d)] := by
    simp only [virqchipSendVirq]
    rw [if_neg (not_le.2 (show (s.descs d).id < C.nrLrs from hid))]
    rfl
  have hlog : (deliver C v d s).log = (virqchipSendVirq C v d s).log ++ [.clear d] := rfl
  rw [hlog, hw]
  simp

lemma log_virqchipClearVirq : ∃ l, (virqchipClearVirq C v d s).log = s.log ++ l ∧
    ∀ a ∈ l, a = .reset v d (s.view.id d) := by
  simp only [virqchipClearVirq]
  split_ifs
  · exact ⟨[], by simp, by simp⟩
  · exact ⟨[.reset v d (s.view.id d)], rfl, by simp⟩

/-- The exit asks for the state of the interrupt and may reset its list register. -/
lemma log_exitVirq : ∃ l, (exitVirq C v s d).log =
    s.log ++ ([.report v d (virqchipGetVirqState C v d s)] ++ l) ∧
    ∀ a ∈ l, a = .reset v d (s.view.id d) := by
  obtain ⟨l, hl, hreset⟩ := log_virqchipClearVirq (C := C) (v := v) (d := d)
    (s := s.note (.report v d (virqchipGetVirqState C v d s)))
  rw [log_note, List.append_assoc] at hl
  simp only [exitVirq]
  split_ifs
  · exact ⟨l, hl, hreset⟩
  · exact ⟨l, hl, hreset⟩
  · exact ⟨[], rfl, by simp⟩

lemma sendVirq_logOk {src : ℕ} (h : s.LogOk) : (sendVirq v d src s).LogOk := by
  have hact : (sendVirq v d src s).view.act = s.view.act := by
    rw [view_sendVirq]
    split_ifs <;> rfl
  have hflag : (sendVirq v d src s).view.flag = Function.update s.view.flag d true := by
    rw [view_sendVirq]
    split_ifs with hf
    · rw [← hf, Function.update_eq_self]
    · rfl
    · rfl
  rw [Vgic.LogOk, hact, hflag, log_sendVirq]
  refine h.append (by simp) (by simp) ?_ ?_ fun v d hb => Or.inl hb
  · intro e he
    simp only [Act.raise.injEq] at he
    exact he.1 ▸ he.2
  · intro e he
    by_cases hed : e = d
    · subst hed
      cases hf : s.view.flag e <;> simp
    · exact Or.inl (by simpa [hed] using he)

lemma deliver_logOk (hinv : s.view.Inv R C.nrLrs) (h : s.LogOk) (hd : d ∈ s.view.pend v)
    (hid : s.view.id d ≠ VIRQ_INVALID_ID) : (deliver C v d s).LogOk := by
  rw [Vgic.LogOk, log_deliver (hinv.bound v d (Or.inl hd) hid), view_deliver]
  refine LogOk.deliver h (hinv.raised v d hd) ?_ ?_
  · intro w hw
    have := hinv.apart w v d (Or.inr hw) (Or.inl hd)
    subst this
    exact hinv.not_both hd hw
  · intro w e hw
    by_cases hwv : w = v
    · subst hwv
      simpa [View.deliver] using hw.imp_right And.right
    · simpa [View.deliver, hwv] using hw

lemma exitVirq_logOk (hinv : s.view.Inv R C.nrLrs) (h : s.LogOk) (hd : d ∈ s.view.act v) :
    (exitVirq C v s d).LogOk := by
  have hreport : LogOk s.view.flag (fun w e => e ∈ (exitVirq C v s d).view.act w)
      (s.log ++ [.report v d (virqchipGetVirqState C v d s)]) := by
    refine h.append (by simp) (by simp) (by simp) (fun e he => Or.inl he) fun w e he => ?_
    by_cases hed : e = d
    · subst hed
      by_cases hi : virqchipGetVirqState C v e s = .inactive
      · rw [hinv.apart w v e (Or.inr he) (Or.inr hd), hi]
        exact Or.inr rfl
      · rw [view_exitVirq, if_neg hi]
        exact Or.inl he
    · by_cases hw : w = v
      · exact Or.inl (hw ▸ mem_act_exitVirq (hw ▸ he) hed)
      · left
        rw [view_exitVirq]
        split_ifs <;> simpa [View.requeue, View.retire, hw] using he
  have hflag : (exitVirq C v s d).view.flag = s.view.flag := by
    rw [view_exitVirq]
    split_ifs <;> rfl
  obtain ⟨l, hlog, hl⟩ := log_exitVirq (C := C) (v := v) (s := s) (d := d)
  rw [Vgic.LogOk, hflag, hlog, ← List.append_assoc]
  exact hreport.append_resets hl

lemma takeId_logOk {i : ℕ} (h : s.LogOk) : (takeId v d i s).LogOk := by
  rw [Vgic.LogOk, view_takeId]
  exact h

lemma enterLoop_logOk {l : List (VirqRef ι)} (hinv : s.view.Inv R C.nrLrs) (h : s.LogOk)
    (hl : s.view.pend v = l) : (enterLoop C v l s).LogOk := by
  induction l generalizing s with
  | nil => exact h
  | cons d rest ih =>
    rcases enterLoop_cons hinv hl with ⟨-, -, hstop⟩ | ⟨s', hnext, hinv', hl', hid, hs'⟩
    · rw [hstop]
      exact h
    · have hd : d ∈ s'.view.pend v := by
        rw [hl']
        exact List.mem_cons_self
      have h' : s'.LogOk := by
        rcases hs' with rfl | ⟨-, i, -, -, rfl⟩
        · exact h
        · exact takeId_logOk h
      rw [hnext]
      refine ih ?_ (deliver_logOk hinv' h' hd hid) (pend_deliver hl')
      rw [view_deliver]
      exact View.deliver_inv hinv' hd hid

lemma exitLoop_logOk {l : List (VirqRef ι)} (hinv : s.view.Inv R C.nrLrs) (h : s.LogOk)
    (hl : l.Nodup) (hmem : ∀ d ∈ l, d ∈ s.view.act v) : (l.foldl (exitVirq C v) s).LogOk := by
  induction l generalizing s with
  | nil => exact h
  | cons d rest ih =>
    obtain ⟨hd, hrest⟩ := List.nodup_cons.1 hl
    have hact := hmem d List.mem_cons_self
    refine ih (exitVirq_inv hinv hact) (exitVirq_logOk hinv h hact) hrest fun e he => ?_
    exact mem_act_exitVirq (hmem e (List.mem_cons_of_mem _ he)) fun hed => hd (hed ▸ he)

lemma step_logOk {requests : ℕ → Option Request} {e : Event ι}
    (hinv : s.view.Inv (VirqRef.Requested requests) C.nrLrs) (h : s.LogOk) :
    (step C s e).LogOk := by
  cases e with
  | send v virq src =>
    rw [step]
    cases getVirqDesc C v virq with
    | none => exact h
    | some d => exact sendVirq_logOk h
  | enter v => exact enterLoop_logOk hinv h rfl
  | exit v => exact exitLoop_logOk hinv h (hinv.act_nodup v) fun d hd => hd
  | hardware v states =>
    rw [step, Vgic.LogOk, view_setStruct_same rfl rfl rfl]
    exact h

omit [DecidableEq ι] in
lemma init_logOk (requests : ℕ → Option Request) : (Vgic.init ι requests).LogOk := by
  have hflag : (Vgic.init ι requests).view.flag = fun _ => false := by
    funext d
    cases d with
    | priv v virq => rfl
    | spi n =>
      simp only [Vgic.view, Vgic.init]
      split <;> rfl
  have hact : (fun v d => d ∈ (Vgic.init ι requests).view.act v) = fun _ _ => False := by
    funext v d
    simp [Vgic.view, Vgic.init]
  rw [Vgic.LogOk, hflag, hact]
  exact LogOk.nil

/-! ### Progress -/

lemma log_enterLoop (l : List (VirqRef ι)) (hinv : s.view.Inv R C.nrLrs)
    (hl : s.view.pend v = l) : ∃ new, (enterLoop C v l s).log = s.log ++ new := by
  induction l generalizing s with
  | nil => exact ⟨[], by simp [enterLoop]⟩
  | cons d rest ih =>
    rcases enterLoop_cons hinv hl with ⟨-, -, hstop⟩ | ⟨s', hnext, hinv', hl', hid, hs'⟩
    · exact ⟨[], by simp [hstop]⟩
    · have hd : d ∈ s'.view.pend v := by
        rw [hl']
        exact List.mem_cons_self
      obtain ⟨new, hnew⟩ := ih (s := deliver C v d s')
        (view_deliver (C := C) (s := s') ▸ View.deliver_inv hinv' hd hid) (pend_deliver hl')
      have hlog : s'.log = s.log := by
        rcases hs' with rfl | ⟨-, i, -, -, rfl⟩ <;> rfl
      rw [log_deliver (hinv'.bound v d (Or.inl hd) hid), hlog, List.append_assoc] at hnew
      exact ⟨_, hnext ▸ hnew⟩

/-- The descriptors that need a list register. -/
def View.needs {ι : Type} (V : View ι) (l : List (VirqRef ι)) : ℕ :=
  l.countP fun e => V.id e = VIRQ_INVALID_ID

/-- With enough list registers the round delivers the head of the list, and there are enough for
the others. -/
lemma enterLoop_cons_free {rest tail : List (VirqRef ι)} (hinv : s.view.Inv R C.nrLrs)
    (hl : s.view.pend v = d :: rest)
    (hfree : s.view.needs (d :: tail) ≤ zeros (s.view.bits v) C.nrLrs) :
    ∃ t id, enterLoop C v (d :: rest) s = enterLoop C v rest t ∧ t.view.Inv R C.nrLrs ∧
      t.view.pend v = rest ∧ t.log = s.log ++ [.write v d id, .clear d] ∧
      t.view.needs tail ≤ zeros (t.view.bits v) C.nrLrs := by
  rcases enterLoop_cons hinv hl with ⟨hid, hfull, -⟩ | ⟨s', hnext, hinv', hl', hid, hs'⟩
  · rw [zeros_eq_zero_iff.2 hfull, View.needs,
      List.countP_cons_of_pos (by simpa using hid)] at hfree
    omega
  · have hd : d ∈ s'.view.pend v := by
      rw [hl']
      exact List.mem_cons_self
    have hlog : s'.log = s.log := by
      rcases hs' with rfl | ⟨-, i, -, -, rfl⟩ <;> rfl
    refine ⟨deliver C v d s', s'.view.id d, hnext, ?_, pend_deliver hl', ?_, ?_⟩
    · rw [view_deliver]
      exact View.deliver_inv hinv' hd hid
    · rw [log_deliver (hinv'.bound v d (Or.inl hd) hid), hlog]
    · rw [view_deliver]
      simp only [View.needs] at hfree ⊢
      rcases hs' with rfl | ⟨hinvalid, i, hi, hzero, rfl⟩
      · rw [List.countP_cons_of_neg (by simpa using hid)] at hfree
        exact hfree
      · rw [List.countP_cons_of_pos (by simpa using hinvalid), zeros_setBit hi hzero] at hfree
        have hmono : tail.countP (fun e => (takeId v d i s).view.id e = VIRQ_INVALID_ID) ≤
            tail.countP fun e => s.view.id e = VIRQ_INVALID_ID := by
          refine List.countP_mono_left fun e _ he => ?_
          have hed : e ≠ d := by
            rintro rfl
            exact hid (by simpa using he)
          rw [view_takeId] at he
          simpa [View.takeId, hed] using he
        have hbits : ((takeId v d i s).view.deliver v d).bits v = setBit (s.view.bits v) i := by
          rw [view_takeId]
          simp [View.takeId, View.deliver]
        rw [hbits]
        exact hmono.trans (Nat.le_of_succ_le_succ hfree)

/-- An entry writes a pending interrupt if there are list registers for all that are before it. -/
lemma enterLoop_writes {pre post : List (VirqRef ι)} (hinv : s.view.Inv R C.nrLrs)
    (hl : s.view.pend v = pre ++ d :: post)
    (hfree : s.view.needs (pre ++ [d]) ≤ zeros (s.view.bits v) C.nrLrs) :
    ∃ new id, (enterLoop C v (pre ++ d :: post) s).log = s.log ++ new ∧ .write v d id ∈ new := by
  induction pre generalizing s with
  | nil =>
    obtain ⟨t, id, hnext, hinv', hl', hlog, -⟩ := enterLoop_cons_free hinv hl hfree
    obtain ⟨new, hnew⟩ := log_enterLoop (C := C) post hinv' hl'
    rw [hlog, List.append_assoc] at hnew
    exact ⟨_, id, hnext ▸ hnew, by simp⟩
  | cons x pre ih =>
    obtain ⟨t, id, hnext, hinv', hl', hlog, hfree'⟩ := enterLoop_cons_free hinv hl hfree
    obtain ⟨new, i, hnew, hmem⟩ := ih hinv' hl' hfree'
    rw [hlog, List.append_assoc] at hnew
    exact ⟨_, i, hnext ▸ hnew, List.mem_append_right _ hmem⟩

lemma log_exitLoop (l : List (VirqRef ι)) :
    ∃ new, (l.foldl (exitVirq C v) s).log = s.log ++ new := by
  induction l generalizing s with
  | nil => exact ⟨[], by simp⟩
  | cons d rest ih =>
    obtain ⟨new, hnew⟩ := ih (s := exitVirq C v s d)
    obtain ⟨l, hl, -⟩ := log_exitVirq (C := C) (v := v) (s := s) (d := d)
    rw [hl, List.append_assoc] at hnew
    exact ⟨_, hnew⟩

lemma exitLoop_stays {l : List (VirqRef ι)} (hd : d ∉ l) :
    (l.foldl (exitVirq C v) s).view.flag = s.view.flag ∧
    (d ∈ s.view.pend v → d ∈ (l.foldl (exitVirq C v) s).view.pend v) ∧
    (d ∈ s.view.act v → d ∈ (l.foldl (exitVirq C v) s).view.act v) := by
  induction l generalizing s with
  | nil => exact ⟨rfl, fun h => h, fun h => h⟩
  | cons e rest ih =>
    rw [List.mem_cons, not_or] at hd
    obtain ⟨hflag, hpend, hact⟩ := ih (s := exitVirq C v s e) hd.2
    refine ⟨hflag.trans ?_, fun h => hpend ?_, fun h => hact (mem_act_exitVirq h hd.1)⟩
    · rw [view_exitVirq]
      split_ifs <;> rfl
    · rw [view_exitVirq]
      split_ifs
      · simp [View.requeue, h]
      · exact h
      · exact h

/-- An interrupt that was raised again while it is active goes to the pending list at the exit that
finds it inactive, and stays active and raised at every other exit. -/
lemma exitLoop_reraised {pre post : List (VirqRef ι)} (hinv : s.view.Inv R C.nrLrs)
    (hl : s.view.act v = pre ++ d :: post) (hf : s.view.flag d = true) :
    ∃ new status, ((pre ++ d :: post).foldl (exitVirq C v) s).log = s.log ++ new ∧
      .report v d status ∈ new ∧
      ((pre ++ d :: post).foldl (exitVirq C v) s).view.flag d = true ∧
      if status = .inactive then d ∈ ((pre ++ d :: post).foldl (exitVirq C v) s).view.pend v
      else d ∈ ((pre ++ d :: post).foldl (exitVirq C v) s).view.act v := by
  have hnodup := hinv.act_nodup v
  rw [hl] at hnodup
  obtain ⟨-, hdpost, hdpre⟩ := List.nodup_append.1 hnodup
  have hpre : d ∉ pre := fun h => hdpre d h d List.mem_cons_self rfl
  have hpost : d ∉ post := (List.nodup_cons.1 hdpost).1
  obtain ⟨hflag, -, hact⟩ := exitLoop_stays (C := C) (v := v) (s := s) hpre
  rw [List.foldl_append, List.foldl_cons]
  obtain ⟨new1, hnew1⟩ := log_exitLoop (C := C) (v := v) (s := s) pre
  generalize pre.foldl (exitVirq C v) s = t at hflag hact hnew1
  have hdact : d ∈ t.view.act v := hact (by rw [hl]; simp)
  have hdflag : t.view.flag d = true := by rw [hflag, hf]
  obtain ⟨l, hlog, -⟩ := log_exitVirq (C := C) (v := v) (s := t) (d := d)
  obtain ⟨new2, hnew2⟩ := log_exitLoop (C := C) (v := v) (s := exitVirq C v t d) post
  obtain ⟨hflag2, hpend2, hact2⟩ := exitLoop_stays (C := C) (v := v) (s := exitVirq C v t d) hpost
  refine ⟨new1 ++ ([.report v d (virqchipGetVirqState C v d t)] ++ l) ++ new2,
    virqchipGetVirqState C v d t, ?_, by simp, ?_, ?_⟩
  · rw [hnew2, hlog, hnew1]
    simp only [List.append_assoc]
  · rw [hflag2, view_exitVirq]
    split_ifs <;> exact hdflag
  · split_ifs with hi
    · refine hpend2 ?_
      rw [view_exitVirq, if_pos hi, if_pos hdflag]
      simp [View.requeue]
    · refine hact2 ?_
      rw [view_exitVirq, if_neg hi]
      exact hdact

/-! ### Runs -/

end Model

end Minos.Virq
