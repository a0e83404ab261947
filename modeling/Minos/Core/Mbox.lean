import Mathlib
import Minos.Core.Event
import Minos.Lib.Run

/-!
# Message boxes

A box holds one message. `mbox_pend` takes it out, but `mbox_accept` only reads it. A post gives its
message to the first waiter that is still pending, and stores it only if there is no waiter at all;
when all waiters have timed out, the message is lost, and `mbox_post` returns with the lock. As
`queue_pend`, `mbox_pend` leaves its task in the ready set, and it leaves the message in
`task->msg` too.

The steps are those of the message queues.
-/

namespace Minos.Core

open Run

/-- Where a task is. -/
inductive MboxPc where
  /-- in none of the functions -/
  | idle
  /-- in `mbox_pend`, with the lock, before `event_task_wait` -/
  | marked
  /-- in the `sched()` of `mbox_pend` -/
  | waiting
deriving DecidableEq, Repr

/-- Who has the lock of the box. -/
inductive MboxLock (M : Type) where
  | free
  /-- `mbox_pend` of a task -/
  | pend (t : TaskId)
  /-- `mbox_post`, or `mbox_post_opt` if `opt` is set, in `event_highest_task_ready` -/
  | post (msg : M) (opt : Bool)
  /-- nobody: a call has returned with it -/
  | kept
deriving DecidableEq, Repr

def MboxLock.isFree {M : Type} : MboxLock M → Bool
  | .free => true
  | .pend _ | .post _ _ | .kept => false

def MboxLock.isPost {M : Type} : MboxLock M → Bool
  | .post _ _ => true
  | .free | .pend _ | .kept => false

/-- A call that has returned. -/
inductive MboxAct (M : Type) where
  | accepted (r : Option M)
  | pended (t : TaskId) (r : Option M)
  | posted (msg : Option M) (ret : ℤ)
deriving DecidableEq, Repr

/-- A box with all tasks. The last two fields are not in the source: the message that the box was
created with, and the calls that have returned. -/
structure MboxSystem (M : Type) where
  data : Option M
  waiters : Waiters
  lock : MboxLock M
  tcb : TaskId → Tcb M
  pc : TaskId → MboxPc
  created : Option M
  log : List (MboxAct M)

inductive MboxEvent (M : Type) where
  | accept
  | pend (t : TaskId) (timeout : ℕ)
  | wait (t : TaskId)
  | resume (t : TaskId)
  | post (msg : Option M)
  /-- without `OS_POST_OPT_BROADCAST` -/
  | postOpt (msg : Option M)
  /-- a round of `event_highest_task_ready`; `remote` says that the waiter has another cpu -/
  | ready (remote : Bool)
  | timeout (t : TaskId)
  | switchOut (t : TaskId)
  | switchTo (t : TaskId)
deriving DecidableEq, Repr

namespace MboxSystem

variable {M : Type}

/-- `mbox_create` -/
def init (pmsg : Option M) : MboxSystem M where
  data := pmsg
  waiters := .empty
  lock := .free
  tcb _ := .init
  pc _ := .idle
  created := pmsg
  log := []

def setTcb (s : MboxSystem M) (t : TaskId) (tcb : Tcb M) : MboxSystem M :=
  { s with tcb := Function.update s.tcb t tcb }

def setPc (s : MboxSystem M) (t : TaskId) (pc : MboxPc) : MboxSystem M :=
  { s with pc := Function.update s.pc t pc }

/-- `mbox_accept` -/
def mboxAccept (s : MboxSystem M) : MboxSystem M := { s with log := .accepted s.data :: s.log }

/-- `mbox_pend` up to `event_task_wait` -/
def mboxPend (s : MboxSystem M) (t : TaskId) (timeout : ℕ) : MboxSystem M :=
  match s.data with
  | some msg => { s with data := none, log := .pended t (some msg) :: s.log }
  | none => { (s.setTcb t ((s.tcb t).pend TASK_STAT_MBOX timeout)).setPc t .marked with
      lock := .pend t }

/-- `event_task_wait` of `mbox_pend` and the end of the critical section -/
def pendWait (s : MboxSystem M) (t : TaskId) : MboxSystem M :=
  { s.setPc t .waiting with waiters := s.waiters.eventTaskWait t, lock := .free }

/-- `mbox_pend` after `sched()` -/
def pendResume (s : MboxSystem M) (t : TaskId) : MboxSystem M :=
  let s' := (s.setTcb t { s.tcb t with pendStat := .ok }).setPc t .idle
  match (s.tcb t).pendStat with
  | .ok => { s' with log := .pended t (s.tcb t).msg :: s.log }
  | .abort => { s' with log := .pended t none :: s.log }
  | .to => { s' with
      waiters := (s.waiters.eventTaskRemove (s.tcb t).stat t).1
      log := .pended t none :: s.log }

/-- `mbox_post` and `mbox_post_opt` up to `event_highest_task_ready`, or all of it if there is no
waiter -/
def mboxPostImpl (s : MboxSystem M) (msg : Option M) (opt : Bool) : MboxSystem M :=
  match msg with
  | none => { s with log := .posted none (-EINVAL) :: s.log }
  | some m =>
    if s.waiters.eventHasWaiter then { s with lock := .post m opt }
    else
      match s.data with
      | some _ => { s with log := .posted msg (-ENOSPC) :: s.log }
      | none => { s with data := msg, log := .posted msg 0 :: s.log }

def mboxPost (s : MboxSystem M) (msg : Option M) : MboxSystem M := s.mboxPostImpl msg false

def mboxPostOpt (s : MboxSystem M) (msg : Option M) : MboxSystem M := s.mboxPostImpl msg true

/-- The waiter goes off the wait set and is readied with the message. -/
def readyWaiter (s : MboxSystem M) (msg : M) (w : TaskId) (remote : Bool) : MboxSystem M :=
  { s.setTcb w ((s.tcb w).eventTaskReady remote (some msg) TASK_STAT_MBOX .ok) with
    waiters := (s.waiters.eventTaskRemove (s.tcb w).stat w).1
    lock := .free
    log := .posted (some msg) 0 :: s.log }

/-- A round of `event_highest_task_ready` for a post, which returns 0 in any case; `mbox_post` has
no unlock when there is no task. -/
def eventHighestTaskReady (s : MboxSystem M) (msg : M) (opt remote : Bool) : MboxSystem M :=
  match s.waiters.eventGetWaiter with
  | none => { s with
      lock := if opt then .free else .kept
      log := .posted (some msg) 0 :: s.log }
  | some w =>
    let r := s.waiters.eventTaskRemove (s.tcb w).stat w
    if r.2 = 0 then s.readyWaiter msg w remote else { s with waiters := r.1 }

def step (s : MboxSystem M) : MboxEvent M → MboxSystem M
  | .accept => if s.lock.isFree then s.mboxAccept else s
  | .pend t timeout => if s.pc t = .idle ∧ s.lock.isFree then s.mboxPend t timeout else s
  | .wait t => if s.pc t = .marked then s.pendWait t else s
  | .resume t =>
    if s.pc t = .waiting ∧ s.lock.isFree ∧ (s.tcb t).rdy = true then s.pendResume t else s
  | .post msg => if s.lock.isFree then s.mboxPost msg else s
  | .postOpt msg => if s.lock.isFree then s.mboxPostOpt msg else s
  | .ready remote =>
    match s.lock with
    | .post msg opt => s.eventHighestTaskReady msg opt remote
    | _ => s
  | .timeout t => s.setTcb t (s.tcb t).taskTimeoutHandler
  | .switchOut t => s.setTcb t (s.tcb t).switchOut
  | .switchTo t => if (s.tcb t).rdy = true then s.setTcb t (s.tcb t).switchTo else s

/-! ### What is asked of the box -/

/-- The messages of the posts that have returned 0. -/
def posted (log : List (MboxAct M)) : Multiset M :=
  log.filterMap fun a => match a with
    | .posted msg ret => if ret = 0 then msg else none
    | _ => none

/-- The messages that `mbox_accept` and `mbox_pend` have returned. -/
def returned (log : List (MboxAct M)) : Multiset M :=
  log.filterMap fun a => match a with
    | .accepted r => r
    | .pended _ r => r
    | .posted _ _ => none

/-- The message that a task in `mbox_pend` was readied with and has not returned yet. -/
def holding (pc : MboxPc) (tcb : Tcb M) : Multiset M :=
  if pc = .waiting ∧ taskIsPending tcb.stat = false ∧ tcb.pendStat = .ok then
    (tcb.msg.toList : Multiset M)
  else 0

def held (s : MboxSystem M) (t : TaskId) : Multiset M := holding (s.pc t) (s.tcb t)

/-- Every message, with that of `mbox_create`, is returned once, or is stored or with a waiter. -/
def Delivered (s : MboxSystem M) : Prop :=
  (s.created.toList : Multiset M) + posted s.log =
    returned s.log + (s.data.toList : Multiset M) + ∑ t, s.held t

/-- What every step of a run keeps to. -/
structure Safe (s : MboxSystem M) (e : MboxEvent M) : Prop where
  delivered : (s.step e).Delivered
  released : (s.step e).lock ≠ .kept

/-- `mbox_accept` finds no message, a task does not run on while it is pending, and a post finds
somebody on the wait set as long as it looks for a waiter. -/
def Kept (s : MboxSystem M) : MboxEvent M → Prop
  | .accept => s.lock.isFree = true → s.data = none
  | .resume t => s.pc t = .waiting → taskIsPending (s.tcb t).stat = false
  | .switchTo t => taskIsPending (s.tcb t).stat = false
  | .ready _ => s.lock.isPost = true → s.waiters.eventHasWaiter = true
  | _ => True

instance [DecidableEq M] (s : MboxSystem M) : (e : MboxEvent M) → Decidable (s.Kept e)
  | .accept => inferInstanceAs (Decidable (_ → _))
  | .resume _ => inferInstanceAs (Decidable (_ → _))
  | .switchTo _ => inferInstanceAs (Decidable (_ = _))
  | .ready _ => inferInstanceAs (Decidable (_ → _))
  | .pend _ _ => inferInstanceAs (Decidable True)
  | .wait _ => inferInstanceAs (Decidable True)
  | .post _ => inferInstanceAs (Decidable True)
  | .postOpt _ => inferInstanceAs (Decidable True)
  | .timeout _ => inferInstanceAs (Decidable True)
  | .switchOut _ => inferInstanceAs (Decidable True)

/-! ### The invariant -/

/-- What is known about a task from where it is. -/
def TaskOk (pc : MboxPc) (tcb : Tcb M) (waits : Prop) : Prop :=
  match pc with
  | .idle => tcb.Calm ∧ ¬ waits
  | .marked => ¬ waits ∧ (tcb.Pending TASK_STAT_MBOX ∨ tcb.Calm ∧ tcb.pendStat = .to)
  | .waiting => tcb.Pending TASK_STAT_MBOX ∧ waits ∨ tcb.Calm ∧ tcb.pendStat = .to ∨
      tcb.Calm ∧ tcb.pendStat = .ok ∧ ¬ waits

structure Inv (s : MboxSystem M) : Prop where
  task : ∀ t, TaskOk (s.pc t) (s.tcb t) (s.waiters.Waits t)
  lock : ∀ t, s.lock = .pend t ↔ s.pc t = .marked
  released : s.lock ≠ .kept
  wait : s.waiters.WellFormed
  delivered : s.Delivered

variable {s s' : MboxSystem M} {t u w : TaskId} {e : MboxEvent M} {pc : MboxPc} {tcb tcb' : Tcb M}
  {waits waits' : Prop}

lemma mbox_isFree_iff : s.lock.isFree = true ↔ s.lock = .free := by
  cases s.lock with
  | free => simp [MboxLock.isFree]
  | pend t => simp [MboxLock.isFree]
  | post msg opt => simp [MboxLock.isFree]
  | kept => simp [MboxLock.isFree]

/-! What a task holds -/

lemma holding_of_ne (h : pc ≠ .waiting) : holding pc tcb = 0 := if_neg fun h' => h h'.1

lemma holding_of_pending (h : tcb.Pending TASK_STAT_MBOX) : holding pc tcb = 0 := by
  refine if_neg fun h' => ?_
  rw [h.taskIsPending Tcb.waitBit_mbox] at h'
  cases h'.2.1

lemma holding_of_to (h : tcb.pendStat = .to) : holding pc tcb = 0 := by
  refine if_neg fun h' => ?_
  rw [h] at h'
  cases h'.2.2

lemma holding_of_ok (hc : tcb.Calm) (h : tcb.pendStat = .ok) :
    holding .waiting tcb = (tcb.msg.toList : Multiset M) :=
  if_pos ⟨rfl, hc.not_pending, h⟩

/-- The messages of the tasks when one of them changes. -/
lemma sum_held_of (hpc : ∀ u, u ≠ t → s'.pc u = s.pc u) (htcb : ∀ u, u ≠ t → s'.tcb u = s.tcb u) :
    ∑ u, s'.held u + s.held t = ∑ u, s.held u + s'.held t := by
  have hrest : ∑ u ∈ Finset.univ.erase t, s'.held u = ∑ u ∈ Finset.univ.erase t, s.held u := by
    refine Finset.sum_congr rfl fun u hu => ?_
    have hu := Finset.ne_of_mem_erase hu
    rw [held, held, hpc u hu, htcb u hu]
  rw [← Finset.add_sum_erase _ s'.held (Finset.mem_univ t),
    ← Finset.add_sum_erase _ s.held (Finset.mem_univ t), hrest]
  abel

lemma sum_held_eq (hpc : ∀ u, u ≠ t → s'.pc u = s.pc u) (htcb : ∀ u, u ≠ t → s'.tcb u = s.tcb u)
    (h : s'.held t = s.held t) : ∑ u, s'.held u = ∑ u, s.held u := by
  have := sum_held_of hpc htcb
  rw [h] at this
  exact add_right_cancel this

/-- A task leaves `mbox_pend` with what it held. -/
lemma sum_held_leave (hpc : ∀ u, u ≠ t → s'.pc u = s.pc u)
    (htcb : ∀ u, u ≠ t → s'.tcb u = s.tcb u) (h : s'.pc t ≠ .waiting) :
    ∑ u, s'.held u + s.held t = ∑ u, s.held u := by
  have hzero : s'.held t = 0 := holding_of_ne h
  rw [sum_held_of hpc htcb, hzero, add_zero]

/-! Tasks -/

lemma mbox_init_inv (pmsg : Option M) : (init pmsg).Inv where
  task _ := ⟨⟨show taskIsReady TASK_STAT_RDY = true by decide, rfl⟩, Waiters.not_waits_empty⟩
  lock _ := iff_of_false nofun nofun
  released := nofun
  wait := Waiters.empty_wellFormed
  delivered := by
    have hsum : ∑ t, (init pmsg).held t = 0 :=
      Finset.sum_eq_zero fun t _ => holding_of_ne nofun
    rw [Delivered, hsum]
    simp [init, posted, returned]

/-- Nothing but `t` differs in the two states. -/
lemma Inv.task_of (h : s.Inv) (hpc : ∀ u, u ≠ t → s'.pc u = s.pc u)
    (htcb : ∀ u, u ≠ t → s'.tcb u = s.tcb u)
    (hwaits : ∀ u, u ≠ t → (s'.waiters.Waits u ↔ s.waiters.Waits u))
    (ht : TaskOk (s'.pc t) (s'.tcb t) (s'.waiters.Waits t)) (u : TaskId) :
    TaskOk (s'.pc u) (s'.tcb u) (s'.waiters.Waits u) := by
  by_cases hut : u = t
  · exact hut ▸ ht
  · rw [hpc u hut, htcb u hut, hwaits u hut]
    exact h.task u

lemma not_pending_of_calm (hc : tcb.Calm) : ¬ tcb.Pending TASK_STAT_MBOX := by
  intro hpend
  have := hpend.taskIsPending Tcb.waitBit_mbox
  rw [hc.not_pending] at this
  cases this

lemma TaskOk.cases (h : TaskOk pc tcb waits) : tcb.Calm ∨ tcb.Pending TASK_STAT_MBOX := by
  cases pc with
  | idle => exact .inl h.1
  | marked =>
    rcases h.2 with hp | ⟨hc, -⟩
    · exact .inr hp
    · exact .inl hc
  | waiting =>
    rcases h with ⟨hp, -⟩ | ⟨hc, -⟩ | ⟨hc, -⟩
    · exact .inr hp
    · exact .inl hc
    · exact .inl hc

lemma TaskOk.of_calm (h : TaskOk pc tcb waits) (hc : tcb.Calm) (hc' : tcb'.Calm)
    (hp : tcb'.pendStat = tcb.pendStat) : TaskOk pc tcb' waits := by
  have hnot := not_pending_of_calm hc
  cases pc with
  | idle => exact ⟨hc', h.2⟩
  | marked =>
    rcases h with ⟨hw, hpend | ⟨-, hto⟩⟩
    · exact absurd hpend hnot
    · exact ⟨hw, .inr ⟨hc', hp.trans hto⟩⟩
  | waiting =>
    rcases h with ⟨hpend, -⟩ | ⟨-, hto⟩ | ⟨-, hok, hw⟩
    · exact absurd hpend hnot
    · exact .inr (.inl ⟨hc', hp.trans hto⟩)
    · exact .inr (.inr ⟨hc', hp.trans hok, hw⟩)

/-- The timer of a task that waits. -/
lemma TaskOk.timeout (h : TaskOk pc tcb waits) (hpend : tcb.Pending TASK_STAT_MBOX) :
    TaskOk pc tcb.taskTimeoutHandler waits := by
  obtain ⟨hcalm, hto, -⟩ := hpend.taskTimeoutHandler Tcb.waitBit_mbox
  cases pc with
  | idle => exact absurd hpend (not_pending_of_calm h.1)
  | marked => exact ⟨h.1, .inr ⟨hcalm, hto⟩⟩
  | waiting => exact .inr (.inl ⟨hcalm, hto⟩)

/-- A task on the wait set that is not pending any more may as well not be there. -/
lemma TaskOk.of_not_pending (h : TaskOk pc tcb waits) (hw : waits)
    (hp : taskIsPending tcb.stat = false) : TaskOk pc tcb waits' := by
  cases pc with
  | idle => exact absurd hw h.2
  | marked => exact absurd hw h.1
  | waiting =>
    rcases h with ⟨hpend, -⟩ | hto | ⟨-, -, hnot⟩
    · rw [hpend.taskIsPending Tcb.waitBit_mbox] at hp
      cases hp
    · exact .inr (.inl hto)
    · exact absurd hw hnot

/-! The log -/

@[simp] lemma posted_cons_accepted (r : Option M) (l : List (MboxAct M)) :
    posted (.accepted r :: l) = posted l := rfl

@[simp] lemma posted_cons_pended (t : TaskId) (r : Option M) (l : List (MboxAct M)) :
    posted (.pended t r :: l) = posted l := rfl

@[simp] lemma posted_cons_ok (msg : M) (l : List (MboxAct M)) :
    posted (.posted (some msg) 0 :: l) = msg ::ₘ posted l := rfl

lemma posted_cons_error (msg : Option M) {ret : ℤ} (h : ret ≠ 0) (l : List (MboxAct M)) :
    posted (.posted msg ret :: l) = posted l := by
  simp [posted, h]

@[simp] lemma returned_cons_none (l : List (MboxAct M)) :
    returned (.accepted none :: l) = returned l := rfl

@[simp] lemma returned_cons_pended (t : TaskId) (r : Option M) (l : List (MboxAct M)) :
    returned (.pended t r :: l) = (r.toList : Multiset M) + returned l := by
  cases r with
  | none => simp [returned]
  | some m => simp [returned]

@[simp] lemma returned_cons_posted (msg : Option M) (ret : ℤ) (l : List (MboxAct M)) :
    returned (.posted msg ret :: l) = returned l := rfl

/-! ### The steps of a task -/

lemma Delivered.congr (h : s.Delivered) (hcreated : s'.created = s.created)
    (hlog : s'.log = s.log) (hdata : s'.data = s.data)
    (hsum : ∑ u, s'.held u = ∑ u, s.held u) : s'.Delivered := by
  rw [Delivered, hcreated, hlog, hdata, hsum]
  exact h

/-- A task returns the message that it held. -/
lemma Delivered.pended {r : Option M} (h : s.Delivered) (hcreated : s'.created = s.created)
    (hlog : s'.log = .pended t r :: s.log) (hdata : s'.data = s.data)
    (hsum : ∑ u, s'.held u + (r.toList : Multiset M) = ∑ u, s.held u) : s'.Delivered := by
  rw [Delivered, ← hsum] at h
  rw [Delivered, hcreated, hlog, hdata, posted_cons_pended, returned_cons_pended, h]
  abel

/-- A post fails. -/
lemma Delivered.failed (h : s.Delivered) (msg : Option M) {ret : ℤ} (hret : ret ≠ 0) :
    { s with log := .posted msg ret :: s.log }.Delivered := by
  show (s.created.toList : Multiset M) + posted (.posted msg ret :: s.log) =
    returned s.log + (s.data.toList : Multiset M) + ∑ u, s.held u
  rw [posted_cons_error msg hret, h]

/-- A change of one task that neither gives nor takes a message. -/
lemma Inv.setTcb (h : s.Inv) (htask : TaskOk (s.pc t) tcb (s.waiters.Waits t))
    (hheld : holding (s.pc t) tcb = s.held t) : (s.setTcb t tcb).Inv := by
  have hself : (s.setTcb t tcb).tcb t = tcb := Function.update_self ..
  have hne : ∀ u, u ≠ t → (s.setTcb t tcb).tcb u = s.tcb u := fun u hu =>
    Function.update_of_ne hu _ _
  refine ⟨h.task_of (t := t) (fun _ _ => rfl) hne (fun _ _ => Iff.rfl) ?_, h.lock, h.released,
    h.wait, ?_⟩
  · rw [hself]
    exact htask
  · refine h.delivered.congr rfl rfl rfl (sum_held_eq (t := t) (fun _ _ => rfl) hne ?_)
    rw [held, hself]
    exact hheld

lemma Inv.mboxPend (h : s.Inv) (hpc : s.pc t = .idle) (hfree : s.lock = .free) (timeout : ℕ) :
    (s.mboxPend t timeout).Inv := by
  rw [MboxSystem.mboxPend]
  cases hdata : s.data with
  | some msg =>
    refine ⟨h.task, h.lock, h.released, h.wait, ?_⟩
    have hdel := h.delivered
    rw [Delivered, hdata] at hdel
    show (s.created.toList : Multiset M) + posted s.log =
      returned (.pended t (some msg) :: s.log) + _ + ∑ u, s.held u
    rw [hdel, returned_cons_pended]
    simp [add_comm]
  | none =>
    dsimp only
    obtain ⟨hcalm, hwaits⟩ : (s.tcb t).Calm ∧ ¬ s.waiters.Waits t := by
      have htask := h.task t
      rwa [hpc] at htask
    have hne : ∀ {α : Type} (f : TaskId → α) (x : α) u, u ≠ t → Function.update f t x u = f u :=
      fun f x u hu => Function.update_of_ne hu _ _
    refine ⟨h.task_of (t := t) (hne _ _) (hne _ _) (fun _ _ => Iff.rfl) ?_, fun u => ?_, nofun,
      h.wait, ?_⟩
    · simp only [MboxSystem.setTcb, setPc, Function.update_self]
      exact ⟨hwaits, .inl (hcalm.pend TASK_STAT_MBOX timeout)⟩
    · by_cases hu : u = t
      · subst hu
        exact iff_of_true rfl (Function.update_self ..)
      · have hnot : s.pc u ≠ .marked := by
          rw [Ne, ← h.lock u, hfree]
          nofun
        refine iff_of_false (fun heq => hu (MboxLock.pend.inj heq).symm) ?_
        show Function.update s.pc t .marked u ≠ .marked
        rwa [Function.update_of_ne hu]
    · refine h.delivered.congr rfl rfl rfl (sum_held_eq (t := t) (hne _ _) (hne _ _) ?_)
      have hpc' : Function.update s.pc t .marked t ≠ .waiting := by
        rw [Function.update_self]
        nofun
      exact (holding_of_ne hpc').trans (holding_of_ne (by rw [hpc]; nofun)).symm

lemma Inv.pendWait (h : s.Inv) (hpc : s.pc t = .marked) : (s.pendWait t).Inv := by
  have hlock : s.lock = .pend t := (h.lock t).2 hpc
  have htask := h.task t
  rw [hpc] at htask
  obtain ⟨hwaits, hcase⟩ := htask
  have hne : ∀ u, u ≠ t → (s.pendWait t).pc u = s.pc u := fun u hu => Function.update_of_ne hu _ _
  have hself : (s.pendWait t).pc t = .waiting := Function.update_self ..
  refine ⟨h.task_of (t := t) hne (fun _ _ => rfl) (fun u hu => ?_) ?_, fun u => ?_, nofun,
    h.wait.eventTaskWait hwaits, ?_⟩
  · exact Waiters.waits_eventTaskWait.trans (by simp [hu])
  · rw [hself]
    rcases hcase with hpend | hto
    · exact .inl ⟨hpend, Waiters.waits_eventTaskWait.2 (.inr rfl)⟩
    · exact .inr (.inl hto)
  · refine iff_of_false nofun ?_
    by_cases hu : u = t
    · rw [hu, hself]
      nofun
    · rw [hne u hu, ← h.lock u, hlock]
      exact fun heq => hu (MboxLock.pend.inj heq).symm
  · refine h.delivered.congr rfl rfl rfl (sum_held_eq (t := t) hne (fun _ _ => rfl) ?_)
    have hmarked : s.held t = 0 := holding_of_ne (by rw [hpc]; nofun)
    rw [hmarked]
    rcases hcase with hpend | ⟨-, hto⟩
    · exact holding_of_pending hpend
    · exact holding_of_to hto

/-- A task that is not pending any more was readied by its timer or with a message. -/
lemma Inv.resume_cases (h : s.Inv) (hpc : s.pc t = .waiting)
    (hp : taskIsPending (s.tcb t).stat = false) :
    (s.tcb t).Calm ∧ ((s.tcb t).pendStat = .to ∨
      (s.tcb t).pendStat = .ok ∧ ¬ s.waiters.Waits t) := by
  have htask := h.task t
  rw [hpc] at htask
  rcases htask with ⟨hpend, -⟩ | ⟨hcalm, hto⟩ | ⟨hcalm, hok⟩
  · rw [hpend.taskIsPending Tcb.waitBit_mbox] at hp
    cases hp
  · exact ⟨hcalm, .inl hto⟩
  · exact ⟨hcalm, .inr hok⟩

lemma Inv.pendResume (h : s.Inv) (hpc : s.pc t = .waiting)
    (hp : taskIsPending (s.tcb t).stat = false) : (s.pendResume t).Inv := by
  obtain ⟨hcalm, hcase⟩ := h.resume_cases hpc hp
  have hne : ∀ {α : Type} (f : TaskId → α) (x : α) u, u ≠ t → Function.update f t x u = f u :=
    fun f x u hu => Function.update_of_ne hu _ _
  have hlock : ∀ u, s.lock = .pend u ↔ Function.update s.pc t .idle u = .marked := by
    intro u
    rw [h.lock u]
    by_cases hu : u = t
    · rw [hu, Function.update_self, hpc]
      exact iff_of_false nofun nofun
    · rw [Function.update_of_ne hu]
  have hidle : Function.update s.pc t .idle t ≠ .waiting := by
    rw [Function.update_self]
    nofun
  rcases hcase with hto | ⟨hok, hwaits⟩
  · have hw : ∀ u, (s.waiters.eventTaskRemove (s.tcb t).stat t).1.Waits u ↔
        s.waiters.Waits u ∧ u ≠ t := fun u => Waiters.waits_eventTaskRemove h.wait _
    simp only [MboxSystem.pendResume, hto]
    refine ⟨h.task_of (t := t) (hne _ _) (hne _ _) (fun u hu => ?_) ?_, hlock, h.released,
      h.wait.eventTaskRemove _, ?_⟩
    · exact (hw u).trans (by simp [hu])
    · have hnot : ¬ (s.waiters.eventTaskRemove (s.tcb t).stat t).1.Waits t := by simp [hw]
      simp only [setPc, MboxSystem.setTcb, Function.update_self]
      exact ⟨⟨hcalm.stat, hcalm.rdy⟩, hnot⟩
    · refine h.delivered.pended (t := t) (r := none) rfl rfl rfl ?_
      have hheld : s.held t = ((none : Option M).toList : Multiset M) := holding_of_to hto
      rw [← hheld]
      exact sum_held_leave (t := t) (hne _ _) (hne _ _) hidle
  · simp only [MboxSystem.pendResume, hok]
    refine ⟨h.task_of (t := t) (hne _ _) (hne _ _) (fun _ _ => Iff.rfl) ?_, hlock, h.released,
      h.wait, ?_⟩
    · simp only [setPc, MboxSystem.setTcb, Function.update_self]
      exact ⟨⟨hcalm.stat, hcalm.rdy⟩, hwaits⟩
    · refine h.delivered.pended (t := t) (r := (s.tcb t).msg) rfl rfl rfl ?_
      have hheld : s.held t = ((s.tcb t).msg.toList : Multiset M) := by
        rw [held, hpc]
        exact holding_of_ok hcalm hok
      rw [← hheld]
      exact sum_held_leave (t := t) (hne _ _) (hne _ _) hidle

/-! ### The posts -/

lemma Inv.mboxPostImpl (h : s.Inv) (hfree : s.lock = .free) (msg : Option M) (opt : Bool) :
    (s.mboxPostImpl msg opt).Inv := by
  cases msg with
  | none => exact ⟨h.task, h.lock, h.released, h.wait, h.delivered.failed none (by decide)⟩
  | some m =>
    simp only [MboxSystem.mboxPostImpl]
    by_cases hw : s.waiters.eventHasWaiter = true
    · rw [if_pos hw]
      refine ⟨h.task, fun t => ?_, nofun, h.wait, h.delivered.congr rfl rfl rfl rfl⟩
      rw [← h.lock t, hfree]
      exact iff_of_false nofun nofun
    · rw [if_neg hw]
      split
      · exact ⟨h.task, h.lock, h.released, h.wait, h.delivered.failed (some m) (by decide)⟩
      · next hdata =>
        refine ⟨h.task, h.lock, h.released, h.wait, ?_⟩
        have hdel := h.delivered
        rw [Delivered, hdata] at hdel
        show (s.created.toList : Multiset M) + (m ::ₘ posted s.log) =
          returned s.log + (((some m).toList : List M) : Multiset M) + ∑ u, s.held u
        rw [Multiset.add_cons, hdel, ← Multiset.singleton_add]
        simp only [Option.toList, Multiset.coe_nil, Multiset.coe_singleton, add_zero]
        abel

/-- A task on the wait set that is still pending sleeps in `mbox_pend`. -/
lemma Inv.pendingWaiter (h : s.Inv) (hw : s.waiters.Waits w)
    (hp : taskIsPending (s.tcb w).stat = true) :
    s.pc w = .waiting ∧ (s.tcb w).Pending TASK_STAT_MBOX := by
  have htask := h.task w
  have hcalm : ¬ (s.tcb w).Calm := fun hc => by
    rw [hc.not_pending] at hp
    cases hp
  cases hpc : s.pc w with
  | idle =>
    rw [hpc] at htask
    exact absurd htask.1 hcalm
  | marked =>
    rw [hpc] at htask
    exact absurd hw htask.1
  | waiting =>
    rw [hpc] at htask
    rcases htask with ⟨hpend, -⟩ | ⟨hc, -⟩ | ⟨hc, -⟩
    · exact ⟨rfl, hpend⟩
    · exact absurd hc hcalm
    · exact absurd hc hcalm

lemma Inv.skip (h : s.Inv) (hw : s.waiters.Waits w) (hp : taskIsPending (s.tcb w).stat = false)
    (stat : BitVec 16) : { s with waiters := (s.waiters.eventTaskRemove stat w).1 }.Inv := by
  refine ⟨h.task_of (t := w) (fun _ _ => rfl) (fun _ _ => rfl) (fun u hu => ?_)
    ((h.task w).of_not_pending hw hp), h.lock, h.released, h.wait.eventTaskRemove stat,
    h.delivered.congr rfl rfl rfl rfl⟩
  exact (Waiters.waits_eventTaskRemove h.wait stat).trans (by simp [hu])

lemma Inv.readyWaiter (h : s.Inv) {msg : M} {opt : Bool} (hlock : s.lock = .post msg opt)
    (hw : s.waiters.Waits w) (hp : taskIsPending (s.tcb w).stat = true) (remote : Bool) :
    (s.readyWaiter msg w remote).Inv := by
  obtain ⟨hpc, hpend⟩ := h.pendingWaiter hw hp
  have hne : ∀ u, u ≠ w → (s.readyWaiter msg w remote).tcb u = s.tcb u := fun u hu =>
    Function.update_of_ne hu _ _
  have hself : (s.readyWaiter msg w remote).tcb w =
      (s.tcb w).eventTaskReady remote (some msg) TASK_STAT_MBOX .ok := Function.update_self ..
  have hcalm := hpend.eventTaskReady Tcb.waitBit_mbox remote (some msg) .ok
  have hwaits : ∀ u, (s.readyWaiter msg w remote).waiters.Waits u ↔ s.waiters.Waits u ∧ u ≠ w :=
    fun u => Waiters.waits_eventTaskRemove h.wait _
  refine ⟨h.task_of (t := w) (fun _ _ => rfl) hne (fun u hu => ?_) ?_, fun u => ?_, nofun,
    h.wait.eventTaskRemove _, ?_⟩
  · exact (hwaits u).trans (by simp [hu])
  · have hnot : ¬ (s.readyWaiter msg w remote).waiters.Waits w := by simp [hwaits]
    rw [hself, show (s.readyWaiter msg w remote).pc w = s.pc w from rfl, hpc]
    exact .inr (.inr ⟨hcalm, rfl, hnot⟩)
  · rw [show (s.readyWaiter msg w remote).pc u = s.pc u from rfl, ← h.lock u, hlock]
    exact iff_of_false nofun nofun
  · have hsum : ∑ u, (s.readyWaiter msg w remote).held u + s.held w =
        ∑ u, s.held u + (s.readyWaiter msg w remote).held w := sum_held_of (fun _ _ => rfl) hne
    have hzero : s.held w = 0 := holding_of_pending hpend
    have hmsg : (s.readyWaiter msg w remote).held w = {msg} := by
      rw [held, hself, show (s.readyWaiter msg w remote).pc w = s.pc w from rfl, hpc]
      exact holding_of_ok hcalm rfl
    rw [hzero, hmsg, add_zero] at hsum
    rw [Delivered, hsum]
    show (s.created.toList : Multiset M) + (msg ::ₘ posted s.log) =
      returned s.log + (s.data.toList : Multiset M) + (∑ u, s.held u + {msg})
    rw [Multiset.add_cons, h.delivered, ← add_assoc, ← Multiset.singleton_add, add_comm]

lemma Inv.eventHighestTaskReady (h : s.Inv) {msg : M} {opt : Bool} (hlock : s.lock = .post msg opt)
    (hhas : s.waiters.eventHasWaiter = true) (remote : Bool) :
    (s.eventHighestTaskReady msg opt remote).Inv := by
  rw [MboxSystem.eventHighestTaskReady]
  cases hget : s.waiters.eventGetWaiter with
  | none =>
    obtain ⟨w, hw⟩ := (Waiters.eventHasWaiter_iff h.wait).1 hhas
    exact absurd hw ((Waiters.eventGetWaiter_eq_none h.wait).1 hget w)
  | some w =>
    have hw := Waiters.waits_of_eventGetWaiter h.wait hget
    have hret := Waiters.eventTaskRemove_eq_zero hw (s.tcb w).stat
    dsimp only
    split_ifs with hzero
    · exact h.readyWaiter hlock hw (hret.1 hzero) remote
    · exact h.skip hw (by simpa using mt hret.2 hzero) _

/-! ### Timers and switches -/

lemma setTcb_self (s : MboxSystem M) (t : TaskId) : s.setTcb t (s.tcb t) = s := by
  rw [MboxSystem.setTcb, Function.update_eq_self]

/-- A calm task that stays calm. -/
lemma Inv.setCalm (h : s.Inv) (hcalm : (s.tcb t).Calm) (hcalm' : tcb.Calm)
    (hp : tcb.pendStat = (s.tcb t).pendStat) (hm : tcb.msg = (s.tcb t).msg) :
    (s.setTcb t tcb).Inv := by
  refine h.setTcb ((h.task t).of_calm hcalm hcalm' hp) ?_
  rw [held, holding, holding, hcalm.not_pending, hcalm'.not_pending, hp, hm]

lemma Inv.timeout (h : s.Inv) (t : TaskId) : (s.setTcb t (s.tcb t).taskTimeoutHandler).Inv := by
  rcases (h.task t).cases with hcalm | hpend
  · rw [hcalm.taskTimeoutHandler, setTcb_self]
    exact h
  · refine h.setTcb ((h.task t).timeout hpend) ?_
    rw [held, holding_of_pending hpend]
    exact holding_of_to (hpend.taskTimeoutHandler Tcb.waitBit_mbox).2.1

lemma Inv.switchOut (h : s.Inv) (t : TaskId) : (s.setTcb t (s.tcb t).switchOut).Inv := by
  rcases (h.task t).cases with hcalm | hpend
  · exact h.setCalm hcalm hcalm.switchOut Tcb.switchOut_pendStat Tcb.switchOut_msg
  · rw [hpend.switchOut Tcb.waitBit_mbox, setTcb_self]
    exact h

lemma Inv.switchTo (h : s.Inv) (hrdy : (s.tcb t).rdy = true)
    (hp : taskIsPending (s.tcb t).stat = false) : (s.setTcb t (s.tcb t).switchTo).Inv := by
  rcases (h.task t).cases with hcalm | hpend
  · exact h.setCalm hcalm ⟨show taskIsReady TASK_STAT_RUNNING = true by decide, hrdy⟩ rfl rfl
  · rw [hpend.taskIsPending Tcb.waitBit_mbox] at hp
    cases hp

lemma Inv.mboxAccept (h : s.Inv) (hdata : s.data = none) : s.mboxAccept.Inv := by
  refine ⟨h.task, h.lock, h.released, h.wait, ?_⟩
  show (s.created.toList : Multiset M) + posted s.log =
    returned (.accepted s.data :: s.log) + (s.data.toList : Multiset M) + ∑ u, s.held u
  rw [h.delivered, hdata, returned_cons_none]

/-! ### Whole runs -/

lemma Inv.step (h : s.Inv) (e : MboxEvent M) (he : s.Kept e) : (s.step e).Inv := by
  cases e with
  | accept =>
    rw [MboxSystem.step]
    split_ifs with hg
    · exact h.mboxAccept (he hg)
    · exact h
  | pend t timeout =>
    rw [MboxSystem.step]
    split_ifs with hg
    · exact h.mboxPend hg.1 (mbox_isFree_iff.1 hg.2) timeout
    · exact h
  | wait t =>
    rw [MboxSystem.step]
    split_ifs with hg
    · exact h.pendWait hg
    · exact h
  | resume t =>
    rw [MboxSystem.step]
    split_ifs with hg
    · exact h.pendResume hg.1 (he hg.1)
    · exact h
  | post msg =>
    rw [MboxSystem.step]
    split_ifs with hg
    · exact h.mboxPostImpl (mbox_isFree_iff.1 hg) msg false
    · exact h
  | postOpt msg =>
    rw [MboxSystem.step]
    split_ifs with hg
    · exact h.mboxPostImpl (mbox_isFree_iff.1 hg) msg true
    · exact h
  | ready remote =>
    cases hlock : s.lock with
    | post msg opt =>
      simp only [MboxSystem.step, hlock]
      exact h.eventHighestTaskReady hlock (he (by rw [hlock]; rfl)) remote
    | free | pend _ | kept =>
      simp only [MboxSystem.step, hlock]
      exact h
  | timeout t => exact h.timeout t
  | switchOut t => exact h.switchOut t
  | switchTo t =>
    rw [MboxSystem.step]
    split_ifs with hg
    · exact h.switchTo hg he
    · exact h

end MboxSystem

/-- In a run in which `mbox_accept` finds no message, no pending task runs on and no post runs out
of waiters, every message whose post returned 0 is returned once, or is stored or with a waiter, and
no call returns with the lock. -/
theorem mbox_delivers {M : Type} (pmsg : Option M) (es : List (MboxEvent M))
    (hes : Along MboxSystem.step MboxSystem.Kept (MboxSystem.init pmsg) es) :
    Along MboxSystem.step MboxSystem.Safe (MboxSystem.init pmsg) es :=
  along_induction (fun _ e h he => h.step e he)
    (fun _ e h he => ⟨(h.step e he).delivered, (h.step e he).released⟩)
    (MboxSystem.mbox_init_inv pmsg) hes

/-- A task waits for a message and gets one, and another message is stored. -/
def mboxWaitAndPost (t : TaskId) : List (MboxEvent ℕ) :=
  [.accept, .pend t 10, .wait t, .switchOut t, .post (some 7), .ready false, .switchTo t, .resume t,
    .postOpt (some 8)]

theorem mbox_delivers_waitAndPost :
    let t : TaskId := .pcpu ⟨3, by decide⟩
    (exec MboxSystem.step (MboxSystem.init none) (mboxWaitAndPost t)).log =
      [.posted (some 8) 0, .pended t (some 7), .posted (some 7) 0, .accepted none] ∧
    Along MboxSystem.step MboxSystem.Safe (MboxSystem.init none) (mboxWaitAndPost t) :=
  ⟨by decide +kernel, mbox_delivers none _ (by decide +kernel)⟩

/-- The timer of the only waiter fires before a post. -/
def mboxPostAfterTimeout (t : TaskId) : List (MboxEvent ℕ) :=
  [.pend t 10, .wait t, .switchOut t, .timeout t, .post (some 7), .ready false, .ready false]

/-- `mbox_accept` returns the message 7 two times; and when the only waiter has timed out, a post
of 7 returns 0, with the message nowhere and the lock not free. -/
theorem mbox_message_twice_or_lost :
    let t : TaskId := .pcpu ⟨3, by decide⟩
    let s := exec MboxSystem.step (MboxSystem.init none) [.post (some 7), .accept, .accept]
    let s' := exec MboxSystem.step (MboxSystem.init none) (mboxPostAfterTimeout t)
    (s.log = [.accepted (some 7), .accepted (some 7), .posted (some 7) 0] ∧ ¬ s.Delivered) ∧
      (s'.log = [.posted (some 7) 0] ∧ s'.data = none ∧ s'.lock = .kept) := by
  intro t s s'
  have hheld : ∑ u, s.held u = 0 :=
    Finset.sum_eq_zero fun u _ => MboxSystem.holding_of_ne (show s.pc u ≠ .waiting from nofun)
  refine ⟨⟨by decide +kernel, fun hdel => ?_⟩, by decide +kernel, by decide +kernel,
    by decide +kernel⟩
  have hposted : (s.created.toList : Multiset ℕ) + MboxSystem.posted s.log = {7} := by
    decide +kernel
  have hreturned : MboxSystem.returned s.log + (s.data.toList : Multiset ℕ) = {7, 7, 7} := by
    decide +kernel
  rw [MboxSystem.Delivered, hposted, hreturned, hheld] at hdel
  exact absurd hdel (by decide)

end Minos.Core
