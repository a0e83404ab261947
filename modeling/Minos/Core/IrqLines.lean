import Minos.Core.IrqTables
import Minos.Lib.History

/-!
# The lines of interrupts

Runs of the interface and of the loop of `do_irq_handler` from the boot: what the descriptor of a
line holds is what the calls of the run have written last, and what the loop does with a pending irq
follows from it.
-/

namespace Minos.Core

open Function Run

/-- What happens to the interrupts: a call of the interface, or an irq that is pending on a cpu -/
inductive IrqEvent where
  | call (e : IrqCall)
  | pending (cpu : ℕ) (p : PendingIrq)

namespace IrqSys

variable (nrCpus : ℕ) (ic : IrqChip)

def step (s : IrqSys) : IrqEvent → IrqSys
  | .call e => call nrCpus ic s e
  | .pending cpu p => (handleIrq nrCpus ic cpu p s).2

/-- The handler of the irq is called. -/
def Handles (s : IrqSys) (cpu irq : ℕ) : Prop :=
  ∃ r ∈ s.getIrqDesc cpu irq, ∃ d ∈ s.descs r, cpu = d.affinity ∧ d.handler ≠ 0

instance (s : IrqSys) (cpu irq : ℕ) : Decidable (s.Handles cpu irq) :=
  inferInstanceAs (Decidable (∃ r ∈ s.getIrqDesc cpu irq, ∃ d ∈ s.descs r, _))

/-- The calls of the interface that an event makes -/
def ran (s : IrqSys) : IrqEvent → List IrqCall
  | .call e => [e]
  | .pending cpu p => if s.Handles cpu p.irq then p.calls else []

/-- The calls of the interface in a run -/
def history : IrqSys → List IrqEvent → List IrqCall
  | _, [] => []
  | s, e :: es => s.ran e ++ history (step nrCpus ic s e) es

end IrqSys

/-! ### What a run changes -/

namespace IrqSys

variable {s : IrqSys} {nrCpus cpu irq : ℕ} {r : IrqRef} {ic : IrqChip} {d : IrqDesc}

variable (nrCpus ic) in
lemma calls_same (es : List IrqCall) : SameTables s (exec (call nrCpus ic) s es) := by
  induction es generalizing s with
  | nil => exact .refl s
  | cons e es ih => exact (call_same nrCpus ic e).trans ih

lemma calls_descs (h : s.Ready nrCpus) (hr : s.getIrqDesc cpu irq = some r) (es : List IrqCall) :
    (exec (call nrCpus ic) s es).descs r =
      (s.descs r).map fun d => exec (IrqCall.change nrCpus r irq) d es := by
  induction es generalizing s with
  | nil => simp
  | cons e es ih =>
    have hsame := call_same (s := s) nrCpus ic e
    rw [exec_cons, ih (hsame.ready h) (by rw [hsame.getIrqDesc, hr]), call_descs h hr,
      Option.map_map]
    rfl

lemma handles_iff (hr : s.getIrqDesc cpu irq = some r) (hd : s.descs r = some d) :
    s.Handles cpu irq ↔ cpu = d.affinity ∧ d.handler ≠ 0 := by
  simp [Handles, hr, hd]

variable (nrCpus ic) in
/-- The descriptor in a place after calls is still the one with its number. -/
lemma calls_hno (es : List IrqCall) (hd : s.descs r = some d) :
    ∃ d', (exec (call nrCpus ic) s es).descs r = some d' ∧ d'.hno = d.hno := by
  have h := (calls_same (s := s) nrCpus ic es).hno r
  rw [hd, Option.map_some] at h
  exact Option.map_eq_some_iff.1 h

lemma doHandleHostIrq_eq (p : PendingIrq) (hd : s.descs r = some d) :
    (doHandleHostIrq nrCpus ic cpu r p s).2 =
      if cpu = d.affinity ∧ d.handler ≠ 0 then
        let s' := exec (call nrCpus ic) (s.chip (.handler d.hno d.handler d.pdata)) p.calls
        if p.ret = 0 ∧ ∀ d' ∈ s'.descs r, d'.Vcpu then s' else s'.chip (.dir d.hno)
      else s.chip (.dir d.hno) := by
  have hinval : (-EINVAL : ℤ) ≠ 0 := by decide
  rw [doHandleHostIrq, hd]
  dsimp only
  by_cases hcpu : cpu = d.affinity
  · by_cases hhandler : d.handler = 0
    · rw [if_neg (not_not.2 hcpu), if_pos hhandler, if_neg (fun h => h.2 hhandler)]
      dsimp only
      rw [hd]
      dsimp only
      exact if_pos (Or.inl hinval)
    · rw [if_neg (not_not.2 hcpu), if_neg hhandler, if_pos ⟨hcpu, hhandler⟩]
      obtain ⟨d', hd', hno⟩ := calls_hno nrCpus ic
        (s := s.chip (.handler d.hno d.handler d.pdata)) p.calls hd
      dsimp only
      rw [hd']
      dsimp only
      by_cases hdir : p.ret ≠ 0 ∨ ¬ d'.Vcpu
      · rw [if_pos hdir, hno, if_neg]
        rintro ⟨hret, hvcpu⟩
        exact hdir.elim (fun h => h hret) (fun h => h (hvcpu d' rfl))
      · rw [if_neg hdir, if_pos]
        refine ⟨by_contra fun h => hdir (.inl h), fun d'' hd'' => ?_⟩
        obtain rfl := Option.some.inj hd''
        exact by_contra fun h => hdir (.inr h)
  · rw [if_pos hcpu, if_neg (fun h => hcpu h.1)]
    dsimp only
    rw [hd]
    dsimp only
    exact if_pos (Or.inl hinval)

/-- A round of the loop for an irq that has no descriptor -/
lemma handleIrq_missing (p : PendingIrq) {D : IrqDomainType × IrqDomain}
    (hdom : s.getIrqDomain p.irq = some D) (hr : s.getIrqDesc cpu p.irq = none) :
    handleIrq nrCpus ic cpu p s =
      (some (-EINVAL), (s.chip (.eoi p.irq)).chip (.dir p.irq)) := by
  obtain ⟨d, dom⟩ := D
  have hdesc : (s.chip (.eoi p.irq)).domainGetIrqDesc cpu d dom p.irq = none := by
    rw [(SameTables.of_chip s _).domainGetIrqDesc]
    rwa [getIrqDesc, hdom] at hr
  rw [handleIrq, hdom]
  dsimp only
  rw [hdesc]

/-- A round of the loop for an irq that has a descriptor -/
lemma handleIrq_found (p : PendingIrq) (hr : s.getIrqDesc cpu p.irq = some r)
    (hd : s.descs r = some d) : handleIrq nrCpus ic cpu p s = (none,
      if s.Handles cpu p.irq then
        let s' := exec (call nrCpus ic)
          ((s.chip (.eoi p.irq)).chip (.handler d.hno d.handler d.pdata)) p.calls
        if p.ret = 0 ∧ ∀ d' ∈ s'.descs r, d'.Vcpu then s' else s'.chip (.dir d.hno)
      else (s.chip (.eoi p.irq)).chip (.dir d.hno)) := by
  obtain ⟨-, D, dom, hget, -⟩ := getIrqDesc_some hr
  have hdesc : (s.chip (.eoi p.irq)).domainGetIrqDesc cpu D dom p.irq = some r := by
    rw [(SameTables.of_chip s _).domainGetIrqDesc]
    rwa [getIrqDesc, hget] at hr
  rw [handleIrq, hget]
  dsimp only
  rw [hdesc]
  dsimp only
  rw [doHandleHostIrq_eq p (by exact hd)]
  simp only [handles_iff hr hd]

variable (nrCpus ic) in
/-- An event writes what the calls write that are made in it. -/
lemma step_run (s : IrqSys) (e : IrqEvent) : ∃ ops ops' : List ChipOp,
    step nrCpus ic s e =
      ops'.foldl IrqSys.chip (exec (call nrCpus ic) (ops.foldl IrqSys.chip s) (s.ran e)) := by
  cases e with
  | call e => exact ⟨[], [], rfl⟩
  | pending cpu p =>
    cases hr : s.getIrqDesc cpu p.irq with
    | none =>
      have hran : s.ran (.pending cpu p) = [] := by simp [ran, Handles, hr]
      rw [hran, step]
      cases hdom : s.getIrqDomain p.irq with
      | none =>
        rw [handleIrq, hdom]
        exact ⟨[.dir p.irq], [], rfl⟩
      | some D =>
        rw [handleIrq_missing p hdom hr]
        exact ⟨[.eoi p.irq, .dir p.irq], [], rfl⟩
    | some r =>
      obtain ⟨d, hd⟩ := Option.isSome_iff_exists.1 (getIrqDesc_some hr).1
      rw [step, handleIrq_found p hr hd, ran]
      by_cases hh : s.Handles cpu p.irq
      · rw [if_pos hh, if_pos hh]
        dsimp only
        split_ifs
        · exact ⟨[.eoi p.irq, .handler d.hno d.handler d.pdata], [], rfl⟩
        · exact ⟨[.eoi p.irq, .handler d.hno d.handler d.pdata], [.dir d.hno], rfl⟩
      · rw [if_neg hh, if_neg hh]
        exact ⟨[.eoi p.irq, .dir d.hno], [], rfl⟩

lemma chips_same (ops : List ChipOp) : SameTables s (ops.foldl IrqSys.chip s) ∧
    (ops.foldl IrqSys.chip s).descs = s.descs := by
  induction ops generalizing s with
  | nil => exact ⟨.refl s, rfl⟩
  | cons op ops ih => exact ⟨(SameTables.of_chip s op).trans ih.1, ih.2⟩

variable (nrCpus ic) in
lemma step_same (s : IrqSys) (e : IrqEvent) : SameTables s (step nrCpus ic s e) := by
  obtain ⟨ops, ops', h⟩ := step_run nrCpus ic s e
  rw [h]
  exact (chips_same ops).1.trans ((calls_same nrCpus ic _).trans (chips_same ops').1)

lemma step_descs (h : s.Ready nrCpus) (hr : s.getIrqDesc cpu irq = some r) (e : IrqEvent) :
    (step nrCpus ic s e).descs r =
      (s.descs r).map fun d => exec (IrqCall.change nrCpus r irq) d (s.ran e) := by
  obtain ⟨ops, ops', hstep⟩ := step_run nrCpus ic s e
  have hsame := (chips_same (s := s) ops).1
  rw [hstep, (chips_same ops').2, calls_descs (hsame.ready h) (by rw [hsame.getIrqDesc, hr]),
    (chips_same ops).2]

variable (nrCpus ic) in
lemma exec_same (es : List IrqEvent) : SameTables s (exec (step nrCpus ic) s es) := by
  induction es generalizing s with
  | nil => exact .refl s
  | cons e es ih => exact (step_same nrCpus ic s e).trans ih

variable (ic) in
/-- A descriptor after a run has the changes of the calls that were made in it. -/
lemma exec_descs (h : s.Ready nrCpus) (hr : s.getIrqDesc cpu irq = some r) (es : List IrqEvent) :
    (exec (step nrCpus ic) s es).descs r = (s.descs r).map fun d =>
      exec (IrqCall.change nrCpus r irq) d (history nrCpus ic s es) := by
  induction es generalizing s with
  | nil => simp [history]
  | cons e es ih =>
    have hsame := step_same nrCpus ic s e
    rw [exec_cons, ih (hsame.ready h) (by rw [hsame.getIrqDesc, hr]), step_descs h hr,
      Option.map_map, history]
    simp only [comp_def, exec_append]

end IrqSys

/-! ### The last writes -/

namespace IrqCall

/-- The handler and the data that a call leaves in the descriptor `r` of the line `irq` -/
def requests (r : IrqRef) (irq : ℕ) : IrqCall → Option (ℕ × ℕ)
  | .request cpu irq' handler _ data =>
    if (irq' = irq ∧ r.OwnedBy cpu) ∧ handler ≠ 0 then some (handler, data) else none
  | .requestPercpu irq' handler _ data =>
    if irq' = irq ∧ r.Percpu then some (handler, data) else none
  | .enable _ _ _ | .setAffinity _ _ _ | .setType _ _ _ => none

def moves (nrCpus : ℕ) (r : IrqRef) (irq : ℕ) : IrqCall → Option ℕ
  | .setAffinity cpu irq' target =>
    if (irq' = irq ∧ r.OwnedBy cpu) ∧ target < nrCpus then some (target % 2 ^ 16).toNat else none
  | .request _ _ _ _ _ | .requestPercpu _ _ _ _ | .enable _ _ _ | .setType _ _ _ => none

/-- Whether a call leaves the line masked, where a type can have the bit too -/
def masks (r : IrqRef) (irq : ℕ) : IrqCall → Option Bool
  | .request cpu irq' handler _ _ =>
    if (irq' = irq ∧ r.OwnedBy cpu) ∧ handler ≠ 0 then some false else none
  | .requestPercpu irq' _ _ _ => if irq' = irq ∧ r.Percpu then some false else none
  | .enable cpu irq' b => if irq' = irq ∧ r.OwnedBy cpu then some !b else none
  | .setType cpu irq' type =>
    if (irq' = irq ∧ r.OwnedBy cpu) ∧ type.getLsbD IRQ_FLAGS_MASKED_BIT then some true else none
  | .setAffinity _ _ _ => none

/-- A call that gives the line to a vcpu -/
def GivesVcpu (r : IrqRef) (irq : ℕ) : IrqCall → Prop
  | .request cpu irq' handler flags _ =>
    ((irq' = irq ∧ r.OwnedBy cpu) ∧ handler ≠ 0) ∧ flags.getLsbD IRQ_FLAGS_VCPU_BIT = true
  | .requestPercpu irq' _ flags _ =>
    (irq' = irq ∧ r.Percpu) ∧ flags.getLsbD IRQ_FLAGS_VCPU_BIT = true
  | .setType cpu irq' type =>
    (irq' = irq ∧ r.OwnedBy cpu) ∧ type.getLsbD IRQ_FLAGS_VCPU_BIT = true
  | .enable _ _ _ | .setAffinity _ _ _ => False

instance (r : IrqRef) (irq : ℕ) : (e : IrqCall) → Decidable (e.GivesVcpu r irq)
  | .request _ _ _ _ _ => inferInstanceAs (Decidable (_ ∧ _))
  | .requestPercpu _ _ _ _ => inferInstanceAs (Decidable (_ ∧ _))
  | .enable _ _ _ => inferInstanceAs (Decidable False)
  | .setAffinity _ _ _ => inferInstanceAs (Decidable False)
  | .setType _ _ _ => inferInstanceAs (Decidable (_ ∧ _))

variable {nrCpus irq : ℕ} {r : IrqRef}

/-! The change of each of the fields -/

lemma changeType_bit {k : ℕ} (hk : IRQ_FLAGS_TYPE_MASK.getLsbD k = false) (type : BitVec 64)
    (d : IrqDesc) :
    (d.changeType type).flags.getLsbD k = (d.flags.getLsbD k || type.getLsbD k) := by
  rw [IrqDesc.changeType]
  split_ifs with htype
  · rw [htype, BitVec.getLsbD_and, hk, Bool.and_false, Bool.or_false]
  · by_cases hlt : k < 64
    · rw [IrqDesc.setType, BitVec.getLsbD_or, BitVec.getLsbD_and, BitVec.getLsbD_not, hk]
      simp [hlt]
    · simp [BitVec.getLsbD_of_ge _ _ (not_lt.1 hlt)]

lemma changeType_fields (type : BitVec 64) (d : IrqDesc) :
    (d.changeType type).handler = d.handler ∧ (d.changeType type).pdata = d.pdata ∧
      (d.changeType type).affinity = d.affinity := by
  rw [IrqDesc.changeType]
  split_ifs
  · exact ⟨rfl, rfl, rfl⟩
  · exact ⟨rfl, rfl, rfl⟩

lemma changeRequest_fields (handler : ℕ) (flags : BitVec 64) (data : ℕ) (d : IrqDesc) :
    (d.changeRequest handler flags data).handler = handler ∧
      (d.changeRequest handler flags data).pdata = data ∧
      (d.changeRequest handler flags data).affinity = d.affinity := by
  rw [IrqDesc.changeRequest]
  split_ifs
  · exact changeType_fields _ _
  · exact ⟨rfl, rfl, rfl⟩

lemma changeRequest_bit {k : ℕ} (hk : IRQ_FLAGS_TYPE_MASK.getLsbD k = false) (handler : ℕ)
    (flags : BitVec 64) (data : ℕ) (d : IrqDesc) :
    (d.changeRequest handler flags data).flags.getLsbD k =
      (d.request handler flags data).flags.getLsbD k := by
  have hrequest : (d.request handler (flags &&& ~~~IRQ_FLAGS_TYPE_MASK) data).flags.getLsbD k =
      (d.request handler flags data).flags.getLsbD k := by
    by_cases hlt : k < 64
    · simp only [IrqDesc.request, BitVec.getLsbD_and, BitVec.getLsbD_or, BitVec.getLsbD_not, hk,
        hlt, decide_true, Bool.true_and, Bool.not_false, Bool.and_true]
    · simp [BitVec.getLsbD_of_ge _ _ (not_lt.1 hlt)]
  rw [IrqDesc.changeRequest]
  split_ifs
  · rw [changeType_bit hk, hrequest, BitVec.getLsbD_and, hk, Bool.and_false, Bool.or_false]
  · exact hrequest

lemma request_masked (handler : ℕ) (flags : BitVec 64) (data : ℕ) (d : IrqDesc) :
    (d.request handler flags data).flags.getLsbD IRQ_FLAGS_MASKED_BIT = false := by
  rw [IrqDesc.request, BitVec.getLsbD_and, BitVec.getLsbD_not]
  simp [show IRQ_FLAGS_MASKED.getLsbD IRQ_FLAGS_MASKED_BIT = true by decide]

lemma request_vcpu (handler : ℕ) (flags : BitVec 64) (data : ℕ) (d : IrqDesc) :
    (d.request handler flags data).Vcpu ↔
      d.Vcpu ∨ flags.getLsbD IRQ_FLAGS_VCPU_BIT = true := by
  rw [IrqDesc.Vcpu, IrqDesc.request, BitVec.getLsbD_and, BitVec.getLsbD_not,
    show IRQ_FLAGS_MASKED.getLsbD IRQ_FLAGS_VCPU_BIT = false by decide]
  simp [IrqDesc.Vcpu, IRQ_FLAGS_VCPU_BIT]

lemma change_request (d : IrqDesc) (e : IrqCall) :
    ((change nrCpus r irq d e).handler, (change nrCpus r irq d e).pdata) =
      (e.requests r irq).getD (d.handler, d.pdata) := by
  cases e with
  | request cpu irq' handler flags data =>
    rw [change, requests]
    split_ifs
    · obtain ⟨hhandler, hdata, -⟩ := changeRequest_fields handler flags data d
      rw [hhandler, hdata, Option.getD_some]
    · rfl
  | requestPercpu irq' handler flags data =>
    rw [change, requests]
    split_ifs
    · rfl
    · rfl
  | enable cpu irq' b =>
    rw [change, requests]
    split_ifs
    · rfl
    · rfl
    · rfl
  | setAffinity cpu irq' target =>
    rw [change, requests]
    split_ifs
    · rfl
    · rfl
  | setType cpu irq' type =>
    rw [change, requests]
    split_ifs
    · obtain ⟨hhandler, hdata, -⟩ := changeType_fields type d
      rw [hhandler, hdata, Option.getD_none]
    · rfl

lemma change_affinity (d : IrqDesc) (e : IrqCall) :
    (change nrCpus r irq d e).affinity = (e.moves nrCpus r irq).getD d.affinity := by
  cases e with
  | request cpu irq' handler flags data =>
    rw [change, moves, Option.getD_none]
    split_ifs
    · exact (changeRequest_fields handler flags data d).2.2
    · rfl
  | requestPercpu irq' handler flags data =>
    rw [change, moves]
    split_ifs
    · rfl
    · rfl
  | enable cpu irq' b =>
    rw [change, moves]
    split_ifs
    · rfl
    · rfl
    · rfl
  | setAffinity cpu irq' target =>
    rw [change, moves]
    split_ifs
    · rfl
    · rfl
  | setType cpu irq' type =>
    rw [change, moves, Option.getD_none]
    split_ifs
    · exact (changeType_fields type d).2.2
    · rfl

lemma change_masked (d : IrqDesc) (e : IrqCall) :
    (change nrCpus r irq d e).flags.getLsbD IRQ_FLAGS_MASKED_BIT =
      (e.masks r irq).getD (d.flags.getLsbD IRQ_FLAGS_MASKED_BIT) := by
  cases e with
  | request cpu irq' handler flags data =>
    rw [change, masks]
    split_ifs
    · rw [changeRequest_bit (by decide), request_masked, Option.getD_some]
    · rfl
  | requestPercpu irq' handler flags data =>
    rw [change, masks]
    split_ifs
    · rw [request_masked, Option.getD_some]
    · rfl
  | enable cpu irq' b =>
    rw [change, masks]
    by_cases hline : irq' = irq ∧ r.OwnedBy cpu
    · rw [if_pos hline, if_pos hline, Option.getD_some]
      cases b with
      | true =>
        rw [if_pos rfl, IrqDesc.unmask, BitVec.getLsbD_and, BitVec.getLsbD_not]
        simp [show IRQ_FLAGS_MASKED.getLsbD IRQ_FLAGS_MASKED_BIT = true by decide]
      | false =>
        rw [if_neg (by simp), IrqDesc.mask, BitVec.getLsbD_or,
          show IRQ_FLAGS_MASKED.getLsbD IRQ_FLAGS_MASKED_BIT = true by decide, Bool.or_true]
        rfl
    · rw [if_neg hline, if_neg hline, Option.getD_none]
  | setAffinity cpu irq' target =>
    rw [change, masks]
    split_ifs
    · rfl
    · rfl
  | setType cpu irq' type =>
    rw [change, masks]
    by_cases hline : irq' = irq ∧ r.OwnedBy cpu
    · rw [if_pos hline, changeType_bit (by decide)]
      cases hbit : type.getLsbD IRQ_FLAGS_MASKED_BIT with
      | true => simp [hline]
      | false => simp
    · rw [if_neg hline, if_neg (fun h => hline h.1), Option.getD_none]

/-- No call takes a line from the vcpus. -/
lemma change_vcpu (d : IrqDesc) (e : IrqCall) :
    (change nrCpus r irq d e).Vcpu ↔ d.Vcpu ∨ e.GivesVcpu r irq := by
  have hvcpu : IRQ_FLAGS_MASKED.getLsbD IRQ_FLAGS_VCPU_BIT = false := by decide
  cases e with
  | request cpu irq' handler flags data =>
    rw [change, GivesVcpu]
    split_ifs with hline
    · rw [IrqDesc.Vcpu, changeRequest_bit (by decide)]
      exact (request_vcpu handler flags data d).trans
        (or_congr_right (and_iff_right hline).symm)
    · simp only [hline, false_and, or_false]
  | requestPercpu irq' handler flags data =>
    rw [change, GivesVcpu]
    split_ifs with hline
    · rw [request_vcpu]
      simp only [hline, true_and]
    · simp only [hline, false_and, or_false]
  | enable cpu irq' b =>
    rw [change, GivesVcpu, or_false]
    split_ifs
    · rw [IrqDesc.Vcpu, IrqDesc.unmask, BitVec.getLsbD_and, BitVec.getLsbD_not, hvcpu]
      simp [IrqDesc.Vcpu, IRQ_FLAGS_VCPU_BIT]
    · rw [IrqDesc.Vcpu, IrqDesc.mask, BitVec.getLsbD_or, hvcpu, Bool.or_false]
      rfl
    · rfl
  | setAffinity cpu irq' target =>
    rw [change, GivesVcpu, or_false]
    split_ifs
    · rfl
    · rfl
  | setType cpu irq' type =>
    rw [change, GivesVcpu]
    split_ifs with hline
    · rw [IrqDesc.Vcpu, changeType_bit (by decide), Bool.or_eq_true]
      simp only [hline, true_and, and_self, IrqDesc.Vcpu]
    · simp only [hline, false_and, or_false]

end IrqCall

/-! ### The lines -/

/-- The handler and the data of the last request for a line -/
def requested (r : IrqRef) (irq : ℕ) (es : List IrqCall) : ℕ × ℕ :=
  ((es.filterMap (IrqCall.requests r irq)).getLast?).getD (0, 0)

/-- The cpu that a line was last moved to -/
def movedTo (nrCpus : ℕ) (r : IrqRef) (irq : ℕ) (es : List IrqCall) : ℕ :=
  ((es.filterMap (IrqCall.moves nrCpus r irq)).getLast?).getD r.home

def maskedBy (r : IrqRef) (irq : ℕ) (es : List IrqCall) : Bool :=
  ((es.filterMap (IrqCall.masks r irq)).getLast?).getD false

def GivenToVcpu (r : IrqRef) (irq : ℕ) (es : List IrqCall) : Prop := ∃ e ∈ es, e.GivesVcpu r irq

instance (r : IrqRef) (irq : ℕ) (es : List IrqCall) : Decidable (GivenToVcpu r irq es) :=
  inferInstanceAs (Decidable (∃ e ∈ es, _))

lemma GivenToVcpu.append_iff {r : IrqRef} {irq : ℕ} {es es' : List IrqCall} :
    GivenToVcpu r irq (es ++ es') ↔ GivenToVcpu r irq es ∨ GivenToVcpu r irq es' := by
  simp only [GivenToVcpu, List.mem_append, or_and_right, exists_or]

namespace IrqSys

variable {s : IrqSys} {nrCpus cpu irq : ℕ} {r : IrqRef} {ic : IrqChip} {d : IrqDesc}

lemma Ready.hno_eq (h : s.Ready nrCpus) (hr : s.getIrqDesc cpu irq = some r)
    (hd : s.descs r = some d) : d.hno = irq := by
  obtain ⟨-, D, dom, -, hdom, hhas, hplace⟩ := getIrqDesc_some hr
  have hle := hhas.1
  rw [h.hno r d hd]
  split_ifs at hplace
  · rw [hplace, IrqRef.domain, IrqRef.index, hdom, Option.elim_some]
    omega
  · rw [hplace, IrqRef.domain, IrqRef.index, hdom, Option.elim_some]
    omega

variable (ic) in
/-- The descriptor of a line after a run from the boot -/
lemma line (h : s.Ready nrCpus) (hinit : s.Initial) (hr : s.getIrqDesc cpu irq = some r)
    (es : List IrqEvent) :
    ∃ d, (exec (step nrCpus ic) s es).descs r = some d ∧ d.hno = irq ∧
      (d.handler, d.pdata) = requested r irq (history nrCpus ic s es) ∧
      d.affinity = movedTo nrCpus r irq (history nrCpus ic s es) ∧
      d.flags.getLsbD IRQ_FLAGS_MASKED_BIT = maskedBy r irq (history nrCpus ic s es) ∧
      (d.Vcpu ↔ GivenToVcpu r irq (history nrCpus ic s es)) := by
  obtain ⟨d, hd⟩ := Option.isSome_iff_exists.1 (getIrqDesc_some hr).1
  obtain ⟨haffinity, hflags, hhandler, hpdata⟩ := hinit r d hd
  have hsame := exec_same (s := s) nrCpus ic es
  have hdescs := exec_descs ic h hr es
  rw [hd, Option.map_some] at hdescs
  refine ⟨_, hdescs, ?_, ?_, ?_, ?_, ?_⟩
  · exact (hsame.ready h).hno_eq (by rwa [hsame.getIrqDesc]) hdescs
  · refine (exec_last (fun d : IrqDesc => (d.handler, d.pdata)) IrqCall.change_request).trans ?_
    rw [requested, hhandler, hpdata]
  · refine (exec_last IrqDesc.affinity IrqCall.change_affinity).trans ?_
    rw [movedTo, haffinity]
  · refine (exec_last (fun d : IrqDesc => d.flags.getLsbD IRQ_FLAGS_MASKED_BIT)
      IrqCall.change_masked).trans ?_
    rw [maskedBy, hflags, BitVec.ofNat_eq_ofNat, BitVec.getLsbD_zero]
  · refine (exec_flag IrqDesc.Vcpu IrqCall.change_vcpu).trans ?_
    rw [GivenToVcpu, IrqDesc.Vcpu, hflags]
    simp

/-- In every run from the boot, a lookup finds the descriptor that it found at first. It has the
number of the line and the handler and the data of the last request for the line, belongs to the
cpu that the line was last moved to and is masked if that was the last to be asked for, and it is
marked for the vcpus from the first time that this is asked for. -/
theorem irq_line_history (nrCpus nrLines : ℕ) (ic : IrqChip) (zalloc : IrqDomainType → Bool)
    (nr : IrqDomainType → ℕ) (es : List IrqEvent) {cpu irq : ℕ} {r : IrqRef}
    (hr : (boot nrCpus nrLines zalloc nr).getIrqDesc cpu irq = some r) :
    let s := exec (step nrCpus ic) (boot nrCpus nrLines zalloc nr) es
    let calls := history nrCpus ic (boot nrCpus nrLines zalloc nr) es
    s.getIrqDesc cpu irq = some r ∧ ∃ d ∈ s.descs r, d.hno = irq ∧
      (d.handler, d.pdata) = requested r irq calls ∧
      d.affinity = movedTo nrCpus r irq calls ∧
      d.flags.getLsbD IRQ_FLAGS_MASKED_BIT = maskedBy r irq calls ∧
      (d.Vcpu ↔ GivenToVcpu r irq calls) := by
  obtain ⟨hready, hinit⟩ := boot_ready nrCpus nrLines zalloc nr
  refine ⟨?_, line ic hready hinit hr es⟩
  rw [(exec_same nrCpus ic es).getIrqDesc, hr]

theorem irq_line_history_spi :
    ∃ d ∈ (exec (step 4 ⟨true, true⟩) (boot 4 96 (fun _ => true) fun _ => 96)
        [.call (.request 0 42 0x1000 IRQ_FLAGS_VCPU 7), .call (.setAffinity 1 42 2)]).descs
          (.shared .spi 10),
      d.hno = 42 ∧ (d.handler, d.pdata) = (0x1000, 7) ∧ d.affinity = 2 ∧ d.Vcpu := by
  have hr : (boot 4 96 (fun _ => true) fun _ => 96).getIrqDesc 0 42 = some (.shared .spi 10) := by
    decide
  obtain ⟨-, d, hd, hno, hrequest, haffinity, -, hvcpu⟩ := irq_line_history 4 96 ⟨true, true⟩
    (fun _ => true) (fun _ => 96)
    [.call (.request 0 42 0x1000 IRQ_FLAGS_VCPU 7), .call (.setAffinity 1 42 2)] hr
  exact ⟨d, hd, hno, hrequest.trans (by decide), haffinity.trans (by decide), hvcpu.2 (by decide)⟩

/-- A round of the loop in any state that a run from the boot reaches. An irq that is in no domain
is only deactivated, and one without a descriptor is ended and deactivated; both end the loop. Any
other irq is ended, and its handler is called if this is the cpu that the line was last moved to
and the line was requested: the handler of the last request, with its data. The irq is then
deactivated, unless the handler succeeds and the line was given to a vcpu at some time, be it by
the handler. -/
theorem irq_dispatch (nrCpus nrLines : ℕ) (ic : IrqChip) (zalloc : IrqDomainType → Bool)
    (nr : IrqDomainType → ℕ) (es : List IrqEvent) (cpu : ℕ) (p : PendingIrq) :
    let s₀ := boot nrCpus nrLines zalloc nr
    let s := exec (step nrCpus ic) s₀ es
    let calls := history nrCpus ic s₀ es
    handleIrq nrCpus ic cpu p s =
      match s₀.getIrqDomain p.irq, s₀.getIrqDesc cpu p.irq with
      | none, _ => (some (-ENOENT), s.chip (.dir p.irq))
      | some _, none => (some (-EINVAL), (s.chip (.eoi p.irq)).chip (.dir p.irq))
      | some _, some r =>
        (none,
          if cpu = movedTo nrCpus r p.irq calls ∧ (requested r p.irq calls).1 ≠ 0 then
            let s' := exec (call nrCpus ic) ((s.chip (.eoi p.irq)).chip
              (.handler p.irq (requested r p.irq calls).1 (requested r p.irq calls).2)) p.calls
            if p.ret = 0 ∧ GivenToVcpu r p.irq (calls ++ p.calls) then s'
            else s'.chip (.dir p.irq)
          else (s.chip (.eoi p.irq)).chip (.dir p.irq)) := by
  intro s₀ s calls
  obtain ⟨hready, hinit⟩ := boot_ready nrCpus nrLines zalloc nr
  have hsame : SameTables s₀ s := exec_same nrCpus ic es
  cases hdom : s₀.getIrqDomain p.irq with
  | none => rw [handleIrq, hsame.getIrqDomain, hdom]
  | some D =>
    cases hr : s₀.getIrqDesc cpu p.irq with
    | none =>
      exact handleIrq_missing p (by rw [hsame.getIrqDomain, hdom]) (by rw [hsame.getIrqDesc, hr])
    | some r =>
      have hrs : s.getIrqDesc cpu p.irq = some r := by rw [hsame.getIrqDesc, hr]
      obtain ⟨d, hd, hno, hrequest, haffinity, -, hvcpu⟩ := line ic hready hinit hr es
      obtain ⟨hhandler, hdata⟩ := Prod.ext_iff.1 hrequest
      dsimp only at hhandler hdata
      rw [handleIrq_found p hrs hd, hno, hhandler, hdata]
      set s' := (s.chip (.eoi p.irq)).chip (.handler p.irq (requested r p.irq calls).1
        (requested r p.irq calls).2) with hs'
      have hsame' : SameTables s s' := (SameTables.of_chip _ _).trans (.of_chip _ _)
      have hvcpu' : (∀ d' ∈ (exec (call nrCpus ic) s' p.calls).descs r, d'.Vcpu) ↔
          GivenToVcpu r p.irq (calls ++ p.calls) := by
        rw [calls_descs ((hsame.trans hsame').ready hready) (by rw [hsame'.getIrqDesc, hrs]),
          show s'.descs r = some d from hd, GivenToVcpu.append_iff, ← hvcpu, GivenToVcpu,
          ← exec_flag IrqDesc.Vcpu (@IrqCall.change_vcpu nrCpus p.irq r)]
        simp
      simp only [handles_iff hrs hd, haffinity, hhandler, hvcpu']
      rfl

/-- The loop is a run of its rounds, up to the first of them that ends it. -/
theorem doIrqHandler_run (nrCpus : ℕ) (ic : IrqChip) (cpu : ℕ) (ps : List PendingIrq) (s : IrqSys) :
    ∃ ps', ps' <+: ps ∧ (doIrqHandler nrCpus ic cpu ps s).2 =
      exec (step nrCpus ic) s (ps'.map (.pending cpu)) := by
  induction ps generalizing s with
  | nil => exact ⟨[], List.nil_prefix, rfl⟩
  | cons p ps ih =>
    rw [doIrqHandler]
    split_ifs
    · exact ⟨[], List.nil_prefix, rfl⟩
    · cases hround : handleIrq nrCpus ic cpu p s with
      | mk ret s' =>
        have hstep : step nrCpus ic s (.pending cpu p) = s' := by rw [step, hround]
        cases ret with
        | some ret => exact ⟨[p], (List.prefix_cons_inj p).2 List.nil_prefix, hstep.symm⟩
        | none =>
          obtain ⟨ps', hpre, hrun⟩ := ih s'
          refine ⟨p :: ps', (List.prefix_cons_inj p).2 hpre, ?_⟩
          rw [List.map_cons, exec_cons, hstep]
          exact hrun

end IrqSys

end Minos.Core
