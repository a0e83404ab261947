import Mathlib
import Minos.Core.Event
import Minos.Lib.RingBuffer
import Minos.Lib.Run

/-!
# Message queues

A post gives its message to the first waiter that is still pending, and puts it into the ring only
if there is no waiter at all. `queue_pend` on an empty queue marks its task as pending and goes to
the wait set, as `mutex_pend` does, but it leaves the task in the ready set.

A step is what is done in one go under the lock of the queue or of a task. Posts can come from
interrupt handlers too, so that it does not matter who makes them.
-/

namespace Minos.Core

open Run

def OS_POST_OPT_BROADCAST : BitVec 32 := 0x01
def OS_POST_OPT_FRONT : BitVec 32 := 0x02

/-- Where a task is. -/
inductive QueuePc where
  /-- in none of the functions -/
  | idle
  /-- in `queue_pend`, with the lock, before `event_task_wait` -/
  | marked
  /-- in the `sched()` of `queue_pend` -/
  | waiting
deriving DecidableEq, Repr

/-- Who has the lock of the queue. -/
inductive QueueLock (M : Type) where
  | free
  /-- `queue_pend` of a task -/
  | pend (t : TaskId)
  /-- a post, in `event_highest_task_ready` -/
  | post (msg : M)
deriving DecidableEq, Repr

def QueueLock.isFree {M : Type} : QueueLock M → Bool
  | .free => true
  | .pend _ | .post _ => false

def QueueLock.isPost {M : Type} : QueueLock M → Bool
  | .post _ => true
  | .free | .pend _ => false

/-- What has ended the wait of a task. -/
inductive Cause (M : Type) where
  | post (msg : M)
  | timer
deriving DecidableEq, Repr

/-- A call that has returned. -/
inductive QueueAct (M : Type) where
  | accepted (r : Option M)
  | pended (t : TaskId) (r : Option M)
  | posted (msg : Option M) (ret : ℤ)
deriving DecidableEq, Repr

/-- A queue with all tasks. The last two fields are not in the source: what has ended the wait of a
task since it began, and the calls that have returned. -/
structure QueueSystem (M : Type) where
  ring : RingBuffer (Option M)
  waiters : Waiters
  lock : QueueLock M
  tcb : TaskId → Tcb M
  pc : TaskId → QueuePc
  cause : TaskId → Option (Cause M)
  log : List (QueueAct M)

inductive QueueEvent (M : Type) where
  | accept
  | pend (t : TaskId) (timeout : ℕ)
  | wait (t : TaskId)
  | resume (t : TaskId)
  | post (msg : Option M)
  | postFront (msg : Option M)
  | postOpt (opt : BitVec 32) (msg : Option M)
  /-- a round of `event_highest_task_ready`; `remote` says that the waiter has another cpu -/
  | ready (remote : Bool)
  | timeout (t : TaskId)
  | switchOut (t : TaskId)
  | switchTo (t : TaskId)
deriving DecidableEq, Repr

namespace QueueSystem

variable {M : Type}

/-- `queue_create` -/
def init (size : ℕ) : QueueSystem M where
  ring := .empty none size
  waiters := .empty
  lock := .free
  tcb _ := .init
  pc _ := .idle
  cause _ := none
  log := []

def setTcb (s : QueueSystem M) (t : TaskId) (tcb : Tcb M) : QueueSystem M :=
  { s with tcb := Function.update s.tcb t tcb }

def setPc (s : QueueSystem M) (t : TaskId) (pc : QueuePc) : QueueSystem M :=
  { s with pc := Function.update s.pc t pc }

def setCause (s : QueueSystem M) (t : TaskId) (cause : Option (Cause M)) : QueueSystem M :=
  { s with cause := Function.update s.cause t cause }

/-- `queue_accept` -/
def queueAccept (s : QueueSystem M) : QueueSystem M :=
  if 0 < s.ring.cnt then { s with ring := s.ring.pop.2, log := .accepted s.ring.pop.1 :: s.log }
  else { s with log := .accepted none :: s.log }

/-- `queue_pend` up to `event_task_wait` -/
def queuePend (s : QueueSystem M) (t : TaskId) (timeout : ℕ) : QueueSystem M :=
  if 0 < s.ring.cnt then { s with ring := s.ring.pop.2, log := .pended t s.ring.pop.1 :: s.log }
  else
    { ((s.setTcb t ((s.tcb t).pend TASK_STAT_Q timeout)).setPc t .marked).setCause t none with
      lock := .pend t }

/-- `event_task_wait` of `queue_pend` and the end of the critical section -/
def pendWait (s : QueueSystem M) (t : TaskId) : QueueSystem M :=
  { s.setPc t .waiting with waiters := s.waiters.eventTaskWait t, lock := .free }

/-- `queue_pend` after `sched()` -/
def pendResume (s : QueueSystem M) (t : TaskId) : QueueSystem M :=
  let s' := (s.setTcb t { s.tcb t with pendStat := .ok, msg := none }).setPc t .idle
  match (s.tcb t).pendStat with
  | .ok => { s' with log := .pended t (s.tcb t).msg :: s.log }
  | .abort => { s' with log := .pended t none :: s.log }
  | .to => { s' with
      waiters := (s.waiters.eventTaskRemove (s.tcb t).stat t).1
      log := .pended t none :: s.log }

/-- `__queue_post` up to `event_highest_task_ready`, or all of it if there is no waiter -/
def queuePostImpl (s : QueueSystem M) (msg : Option M) (front : Bool) : QueueSystem M :=
  match msg with
  | none => { s with log := .posted none (-EINVAL) :: s.log }
  | some m =>
    if s.waiters.eventHasWaiter then { s with lock := .post m }
    else if s.ring.size ≤ s.ring.cnt then { s with log := .posted msg (-ENOSPC) :: s.log }
    else
      { s with
        ring := if front then s.ring.pushFront msg else s.ring.push msg
        log := .posted msg 0 :: s.log }

def queuePost (s : QueueSystem M) (msg : Option M) : QueueSystem M := s.queuePostImpl msg false

def queuePostFront (s : QueueSystem M) (msg : Option M) : QueueSystem M := s.queuePostImpl msg true

/-- `queue_post_opt` without `OS_POST_OPT_BROADCAST`. It counts the waiter as readied whatever
`event_highest_task_ready` returns, so that it does the same as `__queue_post`. -/
def queuePostOpt (s : QueueSystem M) (opt : BitVec 32) (msg : Option M) : QueueSystem M :=
  s.queuePostImpl msg (opt &&& OS_POST_OPT_FRONT != 0)

/-- The waiter goes off the wait set and is readied with the message. -/
def readyWaiter (s : QueueSystem M) (msg : M) (w : TaskId) (remote : Bool) : QueueSystem M :=
  { (s.setTcb w ((s.tcb w).eventTaskReady remote (some msg) TASK_STAT_Q .ok)).setCause w
      (some (.post msg)) with
    waiters := (s.waiters.eventTaskRemove (s.tcb w).stat w).1
    lock := .free
    log := .posted (some msg) 0 :: s.log }

/-- A round of `event_highest_task_ready` for a post, which returns 0 in any case. -/
def eventHighestTaskReady (s : QueueSystem M) (msg : M) (remote : Bool) : QueueSystem M :=
  match s.waiters.eventGetWaiter with
  | none => { s with lock := .free, log := .posted (some msg) 0 :: s.log }
  | some w =>
    let r := s.waiters.eventTaskRemove (s.tcb w).stat w
    if r.2 = 0 then s.readyWaiter msg w remote else { s with waiters := r.1 }

/-- `task_timeout_handler` -/
def taskTimeout (s : QueueSystem M) (t : TaskId) : QueueSystem M :=
  let s' := s.setTcb t (s.tcb t).taskTimeoutHandler
  if taskIsPending (s.tcb t).stat then s'.setCause t (some .timer) else s'

def step (s : QueueSystem M) : QueueEvent M → QueueSystem M
  | .accept => if s.lock.isFree then s.queueAccept else s
  | .pend t timeout => if s.pc t = .idle ∧ s.lock.isFree then s.queuePend t timeout else s
  | .wait t => if s.pc t = .marked then s.pendWait t else s
  | .resume t =>
    if s.pc t = .waiting ∧ s.lock.isFree ∧ (s.tcb t).rdy = true then s.pendResume t else s
  | .post msg => if s.lock.isFree then s.queuePost msg else s
  | .postFront msg => if s.lock.isFree then s.queuePostFront msg else s
  | .postOpt opt msg =>
    if s.lock.isFree ∧ opt &&& OS_POST_OPT_BROADCAST = 0 then s.queuePostOpt opt msg else s
  | .ready remote =>
    match s.lock with
    | .post msg => s.eventHighestTaskReady msg remote
    | _ => s
  | .timeout t => s.taskTimeout t
  | .switchOut t => s.setTcb t (s.tcb t).switchOut
  | .switchTo t => if (s.tcb t).rdy = true then s.setTcb t (s.tcb t).switchTo else s

/-! ### What is asked of the queue -/

/-- The messages of the posts that have returned 0. -/
def posted (log : List (QueueAct M)) : Multiset M :=
  log.filterMap fun a => match a with
    | .posted msg ret => if ret = 0 then msg else none
    | _ => none

/-- The messages that `queue_accept` and `queue_pend` have returned. -/
def returned (log : List (QueueAct M)) : Multiset M :=
  log.filterMap fun a => match a with
    | .accepted r => r
    | .pended _ r => r
    | .posted _ _ => none

/-- The messages in the ring. -/
def ringed (s : QueueSystem M) : Multiset M := s.ring.contents.filterMap id

/-- A post has readied the task, and it is still in `sched()`. -/
def Granted (s : QueueSystem M) (t : TaskId) : Prop :=
  s.pc t = .waiting ∧ taskIsPending (s.tcb t).stat = false ∧ (s.tcb t).pendStat = .ok

instance (s : QueueSystem M) (t : TaskId) : Decidable (s.Granted t) :=
  inferInstanceAs (Decidable (_ ∧ _))

/-- The message that the task was readied with and has not returned yet. -/
def held (s : QueueSystem M) (t : TaskId) : Multiset M :=
  if s.Granted t then ((s.tcb t).msg.toList : Multiset M) else 0

/-- Every message is returned once, or is in the ring or with a waiter. -/
def Delivered (s : QueueSystem M) : Prop :=
  posted s.log = returned s.log + s.ringed + ∑ t, s.held t

/-- What every step of a run keeps to. -/
structure Safe (s : QueueSystem M) (e : QueueEvent M) : Prop where
  delivered : (s.step e).Delivered
  /-- a `queue_pend` that had to wait returns after a post, with its message, or after a timeout -/
  cause : ∀ t r, s.pc t = .waiting → (s.step e).log = .pended t r :: s.log →
    (∃ msg, s.cause t = some (.post msg) ∧ r = some msg) ∨ s.cause t = some .timer ∧ r = none

/-- A task does not run on while it is pending, and a post finds somebody on the wait set as long as
it looks for a waiter. -/
def Waited (s : QueueSystem M) : QueueEvent M → Prop
  | .resume t => s.pc t = .waiting → taskIsPending (s.tcb t).stat = false
  | .switchTo t => taskIsPending (s.tcb t).stat = false
  | .ready _ => s.lock.isPost = true → s.waiters.eventHasWaiter = true
  | _ => True

instance (s : QueueSystem M) : (e : QueueEvent M) → Decidable (s.Waited e)
  | .resume _ => inferInstanceAs (Decidable (_ → _))
  | .switchTo _ => inferInstanceAs (Decidable (_ = _))
  | .ready _ => inferInstanceAs (Decidable (_ → _))
  | .accept => inferInstanceAs (Decidable True)
  | .pend _ _ => inferInstanceAs (Decidable True)
  | .wait _ => inferInstanceAs (Decidable True)
  | .post _ => inferInstanceAs (Decidable True)
  | .postFront _ => inferInstanceAs (Decidable True)
  | .postOpt _ _ => inferInstanceAs (Decidable True)
  | .timeout _ => inferInstanceAs (Decidable True)
  | .switchOut _ => inferInstanceAs (Decidable True)

/-! ### The invariant -/

/-- What is known about a task from where it is. -/
def TaskOk (pc : QueuePc) (tcb : Tcb M) (waits : Prop) (cause : Option (Cause M)) : Prop :=
  match pc with
  | .idle => tcb.Calm ∧ tcb.pendStat = .ok ∧ tcb.msg = none ∧ ¬ waits
  | .marked => ¬ waits ∧ tcb.msg = none ∧ (tcb.Pending TASK_STAT_Q ∧ cause = none ∨
      tcb.Calm ∧ tcb.pendStat = .to ∧ cause = some .timer)
  | .waiting => tcb.Pending TASK_STAT_Q ∧ tcb.msg = none ∧ waits ∧ cause = none ∨
      tcb.Calm ∧ tcb.pendStat = .to ∧ tcb.msg = none ∧ cause = some .timer ∨
      tcb.Calm ∧ tcb.pendStat = .ok ∧ ¬ waits ∧ ∃ msg, tcb.msg = some msg ∧ cause = some (.post msg)

structure Inv (s : QueueSystem M) : Prop where
  task : ∀ t, TaskOk (s.pc t) (s.tcb t) (s.waiters.Waits t) (s.cause t)
  lock : ∀ t, s.lock = .pend t ↔ s.pc t = .marked
  wait : s.waiters.WellFormed
  ring : s.ring.WellFormed
  sum : posted s.log = returned s.log + s.ringed + ∑ t, ((s.tcb t).msg.toList : Multiset M)

variable {s s' : QueueSystem M} {t u w : TaskId} {e : QueueEvent M}

lemma waitBit_q : Tcb.WaitBit TASK_STAT_Q := Tcb.IsPendBit.waitBit (Or.inr rfl)

lemma isFree_iff : s.lock.isFree = true ↔ s.lock = .free := by
  cases s.lock with
  | free => simp [QueueLock.isFree]
  | pend t => simp [QueueLock.isFree]
  | post msg => simp [QueueLock.isFree]

lemma init_inv (size : ℕ) : (init size : QueueSystem M).Inv where
  task _ := ⟨⟨show taskIsReady TASK_STAT_RDY = true by decide, rfl⟩, rfl, rfl,
    Waiters.not_waits_empty⟩
  lock _ := iff_of_false nofun nofun
  wait := Waiters.empty_wellFormed
  ring := RingBuffer.empty_wellFormed none size
  sum := by simp [init, posted, returned, ringed, Tcb.init]

/-- Only a waiter that was readied has a message. -/
lemma TaskOk.held_eq (h : TaskOk (s.pc t) (s.tcb t) (s.waiters.Waits t) (s.cause t)) :
    s.held t = ((s.tcb t).msg.toList : Multiset M) := by
  rw [held]
  split_ifs with hg
  · rfl
  · have hnone : (s.tcb t).msg = none := by
      cases hpc : s.pc t with
      | idle =>
        rw [hpc] at h
        exact h.2.2.1
      | marked =>
        rw [hpc] at h
        exact h.2.1
      | waiting =>
        rw [hpc] at h
        rcases h with ⟨-, hmsg, -⟩ | ⟨-, -, hmsg, -⟩ | ⟨hcalm, hok, -⟩
        · exact hmsg
        · exact hmsg
        · exact absurd ⟨hpc, hcalm.not_pending, hok⟩ hg
    rw [hnone]
    rfl

lemma Inv.delivered (h : s.Inv) : s.Delivered := by
  have hsum : ∑ t, s.held t = ∑ t, ((s.tcb t).msg.toList : Multiset M) :=
    Finset.sum_congr rfl fun t _ => (h.task t).held_eq
  rw [Delivered, h.sum, hsum]

/-- The messages of the tasks when one of them changes. -/
lemma sum_msg_update (tcb : TaskId → Tcb M) (t : TaskId) (x : Tcb M) :
    ∑ u, ((Function.update tcb t x u).msg.toList : Multiset M) + ((tcb t).msg.toList : Multiset M) =
      ∑ u, ((tcb u).msg.toList : Multiset M) + (x.msg.toList : Multiset M) := by
  have hrest : ∑ u ∈ Finset.univ.erase t, ((Function.update tcb t x u).msg.toList : Multiset M) =
      ∑ u ∈ Finset.univ.erase t, ((tcb u).msg.toList : Multiset M) := by
    refine Finset.sum_congr rfl fun u hu => ?_
    rw [Function.update_of_ne (Finset.ne_of_mem_erase hu)]
  rw [← Finset.add_sum_erase _ _ (Finset.mem_univ t), Function.update_self, hrest,
    ← Finset.add_sum_erase Finset.univ (fun u => ((tcb u).msg.toList : Multiset M))
      (Finset.mem_univ t)]
  abel

lemma sum_msg_of_eq {x : Tcb M} {tcb : TaskId → Tcb M} (h : x.msg = (tcb t).msg) :
    ∑ u, ((Function.update tcb t x u).msg.toList : Multiset M) =
      ∑ u, ((tcb u).msg.toList : Multiset M) := by
  have := sum_msg_update tcb t x
  rw [h] at this
  exact add_right_cancel this

/-- Nothing but `t` differs in the two states. -/
lemma Inv.task_of (h : s.Inv) (hpc : ∀ u, u ≠ t → s'.pc u = s.pc u)
    (htcb : ∀ u, u ≠ t → s'.tcb u = s.tcb u) (hcause : ∀ u, u ≠ t → s'.cause u = s.cause u)
    (hwaits : ∀ u, u ≠ t → (s'.waiters.Waits u ↔ s.waiters.Waits u))
    (ht : TaskOk (s'.pc t) (s'.tcb t) (s'.waiters.Waits t) (s'.cause t)) (u : TaskId) :
    TaskOk (s'.pc u) (s'.tcb u) (s'.waiters.Waits u) (s'.cause u) := by
  by_cases hut : u = t
  · exact hut ▸ ht
  · rw [hpc u hut, htcb u hut, hcause u hut, hwaits u hut]
    exact h.task u

/-! ### The log -/

@[simp] lemma posted_cons_accepted (r : Option M) (l : List (QueueAct M)) :
    posted (.accepted r :: l) = posted l := rfl

@[simp] lemma posted_cons_pended (t : TaskId) (r : Option M) (l : List (QueueAct M)) :
    posted (.pended t r :: l) = posted l := rfl

@[simp] lemma posted_cons_ok (msg : M) (l : List (QueueAct M)) :
    posted (.posted (some msg) 0 :: l) = msg ::ₘ posted l := rfl

lemma posted_cons_error (msg : Option M) {ret : ℤ} (h : ret ≠ 0) (l : List (QueueAct M)) :
    posted (.posted msg ret :: l) = posted l := by
  simp [posted, h]

@[simp] lemma returned_cons_accepted (r : Option M) (l : List (QueueAct M)) :
    returned (.accepted r :: l) = r.toList + returned l := by
  cases r with
  | none => simp [returned]
  | some m => simp [returned]

@[simp] lemma returned_cons_pended (t : TaskId) (r : Option M) (l : List (QueueAct M)) :
    returned (.pended t r :: l) = r.toList + returned l := by
  cases r with
  | none => simp [returned]
  | some m => simp [returned]

@[simp] lemma returned_cons_posted (msg : Option M) (ret : ℤ) (l : List (QueueAct M)) :
    returned (.posted msg ret :: l) = returned l := rfl

/-! ### The steps on the ring -/

lemma ringed_pop (h : s.ring.WellFormed) (hcnt : 0 < s.ring.cnt) :
    s.ringed = s.ring.pop.1.toList + ({ s with ring := s.ring.pop.2 } : QueueSystem M).ringed := by
  rw [ringed, RingBuffer.contents_pop h hcnt]
  cases hx : s.ring.pop.1 with
  | none => simp [ringed]
  | some m => simp [ringed]

lemma ringed_push (h : s.ring.WellFormed) (hlt : s.ring.cnt < s.ring.size) (m : M) (front : Bool) :
    (if front then s.ring.pushFront (some m) else s.ring.push (some m)).WellFormed ∧
    ({ s with ring := if front then s.ring.pushFront (some m) else s.ring.push (some m) } :
      QueueSystem M).ringed = m ::ₘ s.ringed := by
  cases front with
  | true =>
    refine ⟨h.pushFront hlt, ?_⟩
    simp only [ringed, if_true]
    rw [RingBuffer.contents_pushFront h hlt]
    simp
  | false =>
    refine ⟨h.push hlt, ?_⟩
    simp only [ringed, Bool.false_eq_true, if_false]
    rw [RingBuffer.contents_push h hlt, List.filterMap_append]
    simp [← Multiset.coe_add, add_comm]

/-- A call that takes the first message of the ring and returns it. -/
lemma Inv.pop (h : s.Inv) (hcnt : 0 < s.ring.cnt) {a : QueueAct M}
    (hp : posted (a :: s.log) = posted s.log)
    (hr : returned (a :: s.log) = s.ring.pop.1.toList + returned s.log) :
    { s with ring := s.ring.pop.2, log := a :: s.log }.Inv := by
  refine ⟨h.task, h.lock, h.wait, h.ring.pop hcnt, ?_⟩
  have hring := ringed_pop h.ring hcnt
  show posted (a :: s.log) = returned (a :: s.log) + _ + ∑ t, ((s.tcb t).msg.toList : Multiset M)
  rw [hp, hr, h.sum, hring]
  congr 1
  rw [← add_assoc, add_comm (returned s.log)]
  rfl

lemma Inv.queueAccept (h : s.Inv) : s.queueAccept.Inv := by
  rw [QueueSystem.queueAccept]
  split_ifs with hcnt
  · exact h.pop hcnt rfl (returned_cons_accepted _ _)
  · refine ⟨h.task, h.lock, h.wait, h.ring, ?_⟩
    show posted (.accepted none :: s.log) = returned (.accepted none :: s.log) + s.ringed + _
    rw [posted_cons_accepted, returned_cons_accepted, h.sum]
    simp

lemma Inv.queuePostImpl (h : s.Inv) (hfree : s.lock = .free) (msg : Option M) (front : Bool) :
    (s.queuePostImpl msg front).Inv := by
  cases msg with
  | none =>
    refine ⟨h.task, h.lock, h.wait, h.ring, ?_⟩
    show posted (.posted none (-EINVAL) :: s.log) = _
    rw [posted_cons_error none (by decide), h.sum]
    rfl
  | some m =>
    simp only [QueueSystem.queuePostImpl]
    by_cases hw : s.waiters.eventHasWaiter = true
    · rw [if_pos hw]
      refine ⟨h.task, fun t => ?_, h.wait, h.ring, h.sum⟩
      rw [← h.lock t, hfree]
      exact iff_of_false nofun nofun
    · rw [if_neg hw]
      by_cases hfull : s.ring.size ≤ s.ring.cnt
      · rw [if_pos hfull]
        refine ⟨h.task, h.lock, h.wait, h.ring, ?_⟩
        show posted (.posted (some m) (-ENOSPC) :: s.log) = _
        rw [posted_cons_error (some m) (by decide), h.sum]
        rfl
      · rw [if_neg hfull]
        obtain ⟨hwf, hring⟩ := ringed_push h.ring (not_le.1 hfull) m front
        refine ⟨h.task, h.lock, h.wait, hwf, ?_⟩
        show m ::ₘ posted s.log = returned s.log + _ + ∑ t, ((s.tcb t).msg.toList : Multiset M)
        rw [h.sum, ← Multiset.cons_add, ← Multiset.add_cons]
        congr 2
        exact hring.symm

/-! ### The steps of a task -/

lemma Inv.queuePend (h : s.Inv) (hpc : s.pc t = .idle) (hfree : s.lock = .free) (timeout : ℕ) :
    (s.queuePend t timeout).Inv := by
  rw [QueueSystem.queuePend]
  split_ifs with hcnt
  · exact h.pop hcnt rfl (returned_cons_pended _ _ _)
  · have htask := h.task t
    rw [hpc] at htask
    obtain ⟨hcalm, -, hmsg, hwaits⟩ := htask
    refine ⟨h.task_of (t := t) (fun u hu => Function.update_of_ne hu _ _)
      (fun u hu => Function.update_of_ne hu _ _) (fun u hu => Function.update_of_ne hu _ _)
      (fun _ _ => Iff.rfl) ?_, fun u => ?_, h.wait, h.ring, ?_⟩
    · simp only [setTcb, setPc, setCause, Function.update_self]
      exact ⟨hwaits, hmsg, Or.inl ⟨hcalm.pend TASK_STAT_Q timeout, rfl⟩⟩
    · by_cases hu : u = t
      · subst hu
        exact iff_of_true rfl (Function.update_self ..)
      · have hne : s.pc u ≠ .marked := by
          rw [Ne, ← h.lock u, hfree]
          nofun
        refine iff_of_false (fun heq => hu (QueueLock.pend.inj heq).symm) ?_
        show Function.update s.pc t .marked u ≠ .marked
        rwa [Function.update_of_ne hu]
    · show posted s.log = returned s.log + s.ringed + _
      rw [h.sum, ← sum_msg_of_eq (t := t) (x := (s.tcb t).pend TASK_STAT_Q timeout) rfl]
      rfl

lemma Inv.pendWait (h : s.Inv) (hpc : s.pc t = .marked) : (s.pendWait t).Inv := by
  have hlock : s.lock = .pend t := (h.lock t).2 hpc
  have htask := h.task t
  rw [hpc] at htask
  obtain ⟨hwaits, hmsg, hcase⟩ := htask
  refine ⟨h.task_of (t := t) (fun u hu => Function.update_of_ne hu _ _) (fun _ _ => rfl)
    (fun _ _ => rfl) (fun u hu => ?_) ?_, fun u => ?_, h.wait.eventTaskWait hwaits, h.ring, h.sum⟩
  · exact Waiters.waits_eventTaskWait.trans (by simp [hu])
  · have hw : (s.pendWait t).waiters.Waits t := Waiters.waits_eventTaskWait.2 (Or.inr rfl)
    show TaskOk (Function.update s.pc t .waiting t) (s.tcb t) _ (s.cause t)
    rw [Function.update_self]
    rcases hcase with ⟨hpend, hcause⟩ | ⟨hcalm, hto, hcause⟩
    · exact Or.inl ⟨hpend, hmsg, hw, hcause⟩
    · exact Or.inr (Or.inl ⟨hcalm, hto, hmsg, hcause⟩)
  · refine iff_of_false nofun ?_
    show Function.update s.pc t .waiting u ≠ .marked
    by_cases hu : u = t
    · rw [hu, Function.update_self]
      nofun
    · rw [Function.update_of_ne hu, Ne, ← h.lock u, hlock]
      exact fun heq => hu (QueueLock.pend.inj heq).symm

/-- A task that is not pending any more was readied by its timer or with a message. -/
lemma Inv.resume_cases (h : s.Inv) (hpc : s.pc t = .waiting)
    (hp : taskIsPending (s.tcb t).stat = false) :
    (s.tcb t).Calm ∧
      ((s.tcb t).pendStat = .to ∧ (s.tcb t).msg = none ∧ s.cause t = some .timer ∨
        (s.tcb t).pendStat = .ok ∧ ¬ s.waiters.Waits t ∧
          ∃ msg, (s.tcb t).msg = some msg ∧ s.cause t = some (.post msg)) := by
  have htask := h.task t
  rw [hpc] at htask
  rcases htask with ⟨hpend, -⟩ | ⟨hcalm, hto⟩ | ⟨hcalm, hok⟩
  · rw [hpend.taskIsPending waitBit_q] at hp
    cases hp
  · exact ⟨hcalm, Or.inl hto⟩
  · exact ⟨hcalm, Or.inr hok⟩

lemma Inv.pendResume (h : s.Inv) (hpc : s.pc t = .waiting)
    (hp : taskIsPending (s.tcb t).stat = false) : (s.pendResume t).Inv := by
  obtain ⟨hcalm, hcase⟩ := h.resume_cases hpc hp
  have hlock : ∀ u, s.lock = .pend u ↔ Function.update s.pc t .idle u = .marked := by
    intro u
    rw [h.lock u]
    by_cases hu : u = t
    · rw [hu, Function.update_self, hpc]
      exact iff_of_false nofun nofun
    · rw [Function.update_of_ne hu]
  have hsum := sum_msg_update s.tcb t { s.tcb t with pendStat := .ok, msg := none }
  rcases hcase with ⟨hto, hmsg, -⟩ | ⟨hok, hwaits, msg, hmsg, -⟩
  · have hw : ∀ u, (s.waiters.eventTaskRemove (s.tcb t).stat t).1.Waits u ↔
        s.waiters.Waits u ∧ u ≠ t := fun u => Waiters.waits_eventTaskRemove h.wait _
    simp only [QueueSystem.pendResume, hto]
    refine ⟨h.task_of (t := t) (fun u hu => Function.update_of_ne hu _ _)
      (fun u hu => Function.update_of_ne hu _ _) (fun _ _ => rfl) (fun u hu => ?_) ?_, hlock,
      h.wait.eventTaskRemove _, h.ring, ?_⟩
    · exact (hw u).trans (by simp [hu])
    · have hnot : ¬ (s.waiters.eventTaskRemove (s.tcb t).stat t).1.Waits t := by simp [hw]
      simp only [setPc, setTcb, Function.update_self]
      exact ⟨⟨hcalm.stat, hcalm.rdy⟩, rfl, rfl, hnot⟩
    · show posted (.pended t none :: s.log) = returned (.pended t none :: s.log) + s.ringed + _
      rw [hmsg] at hsum
      have hsum' := add_right_cancel hsum
      rw [posted_cons_pended, returned_cons_pended, h.sum, ← hsum']
      simp [setPc, setTcb]
  · simp only [QueueSystem.pendResume, hok]
    refine ⟨h.task_of (t := t) (fun u hu => Function.update_of_ne hu _ _)
      (fun u hu => Function.update_of_ne hu _ _) (fun _ _ => rfl) (fun _ _ => Iff.rfl) ?_, hlock,
      h.wait, h.ring, ?_⟩
    · simp only [setPc, setTcb, Function.update_self]
      exact ⟨⟨hcalm.stat, hcalm.rdy⟩, rfl, rfl, hwaits⟩
    · show posted (.pended t (s.tcb t).msg :: s.log) =
        returned (.pended t (s.tcb t).msg :: s.log) + s.ringed +
          ∑ u, ((Function.update s.tcb t _ u).msg.toList : Multiset M)
      have hsum' : ∑ u, ((s.tcb u).msg.toList : Multiset M) =
          ∑ u, ((Function.update s.tcb t
            { s.tcb t with pendStat := .ok, msg := none } u).msg.toList : Multiset M) +
          ((s.tcb t).msg.toList : Multiset M) := by
        rw [hsum]
        simp
      rw [posted_cons_pended, returned_cons_pended, h.sum, hsum']
      abel

/-! ### The rounds of a post -/

/-- A task on the wait set that is still pending sleeps in `queue_pend`. -/
lemma Inv.pendingWaiter (h : s.Inv) (hw : s.waiters.Waits w)
    (hp : taskIsPending (s.tcb w).stat = true) :
    s.pc w = .waiting ∧ (s.tcb w).Pending TASK_STAT_Q ∧ (s.tcb w).msg = none := by
  have htask := h.task w
  have hcalm : ¬ (s.tcb w).Calm := fun hc => by
    rw [hc.not_pending] at hp
    cases hp
  cases hpc : s.pc w with
  | idle =>
    rw [hpc] at htask
    exact absurd htask.1 hcalm
  | marked =>
    rw [hpc] at htask
    exact absurd hw htask.1
  | waiting =>
    rw [hpc] at htask
    rcases htask with ⟨hpend, hmsg, -⟩ | ⟨hc, -⟩ | ⟨hc, -⟩
    · exact ⟨rfl, hpend, hmsg⟩
    · exact absurd hc hcalm
    · exact absurd hc hcalm

/-- A task on the wait set that is not pending any more may as well not be there. -/
lemma TaskOk.of_not_pending {pc : QueuePc} {tcb : Tcb M} {waits : Prop} {cause : Option (Cause M)}
    (h : TaskOk pc tcb waits cause) (hw : waits) (hp : taskIsPending tcb.stat = false)
    {waits' : Prop} : TaskOk pc tcb waits' cause := by
  cases pc with
  | idle => exact absurd hw h.2.2.2
  | marked => exact absurd hw h.1
  | waiting =>
    rcases h with ⟨hpend, -⟩ | hto | ⟨-, -, hnot, -⟩
    · rw [hpend.taskIsPending waitBit_q] at hp
      cases hp
    · exact Or.inr (Or.inl hto)
    · exact absurd hw hnot

lemma Inv.skip (h : s.Inv) (hw : s.waiters.Waits w) (hp : taskIsPending (s.tcb w).stat = false)
    (stat : BitVec 16) : { s with waiters := (s.waiters.eventTaskRemove stat w).1 }.Inv := by
  refine ⟨h.task_of (t := w) (fun _ _ => rfl) (fun _ _ => rfl) (fun _ _ => rfl) (fun u hu => ?_)
    ((h.task w).of_not_pending hw hp), h.lock, h.wait.eventTaskRemove stat, h.ring, h.sum⟩
  exact (Waiters.waits_eventTaskRemove h.wait stat).trans (by simp [hu])

lemma Inv.readyWaiter (h : s.Inv) {msg : M} (hlock : s.lock = .post msg) (hw : s.waiters.Waits w)
    (hp : taskIsPending (s.tcb w).stat = true) (remote : Bool) :
    (s.readyWaiter msg w remote).Inv := by
  obtain ⟨hpc, hpend, hmsg⟩ := h.pendingWaiter hw hp
  have hwaits : ∀ u, (s.readyWaiter msg w remote).waiters.Waits u ↔ s.waiters.Waits u ∧ u ≠ w :=
    fun u => Waiters.waits_eventTaskRemove h.wait _
  refine ⟨h.task_of (t := w) (fun _ _ => rfl) (fun u hu => Function.update_of_ne hu _ _)
    (fun u hu => Function.update_of_ne hu _ _) (fun u hu => ?_) ?_, fun u => ?_,
    h.wait.eventTaskRemove _, h.ring, ?_⟩
  · exact (hwaits u).trans (by simp [hu])
  · have hnot : ¬ (s.readyWaiter msg w remote).waiters.Waits w := by simp [hwaits]
    show TaskOk (s.pc w) (Function.update s.tcb w _ w) _ (Function.update s.cause w _ w)
    rw [Function.update_self, Function.update_self, hpc]
    exact Or.inr (Or.inr ⟨hpend.eventTaskReady waitBit_q remote (some msg) .ok, rfl, hnot, msg,
      rfl, rfl⟩)
  · rw [show (s.readyWaiter msg w remote).pc u = s.pc u from rfl, ← h.lock u, hlock]
    exact iff_of_false nofun nofun
  · show posted (.posted (some msg) 0 :: s.log) = returned s.log + s.ringed +
      ∑ u, ((Function.update s.tcb w _ u).msg.toList : Multiset M)
    have hsum := sum_msg_update s.tcb w
      ((s.tcb w).eventTaskReady remote (some msg) TASK_STAT_Q .ok)
    rw [hmsg] at hsum
    have hsum' : ∑ u, ((Function.update s.tcb w
        ((s.tcb w).eventTaskReady remote (some msg) TASK_STAT_Q .ok) u).msg.toList : Multiset M) =
        ∑ u, ((s.tcb u).msg.toList : Multiset M) + {msg} := by
      simpa [Tcb.eventTaskReady, Tcb.setTaskReady] using hsum
    rw [posted_cons_ok, h.sum, hsum', ← Multiset.singleton_add]
    abel

lemma Inv.eventHighestTaskReady (h : s.Inv) {msg : M} (hlock : s.lock = .post msg)
    (hhas : s.waiters.eventHasWaiter = true) (remote : Bool) :
    (s.eventHighestTaskReady msg remote).Inv := by
  rw [QueueSystem.eventHighestTaskReady]
  cases hget : s.waiters.eventGetWaiter with
  | none =>
    obtain ⟨w, hw⟩ := (Waiters.eventHasWaiter_iff h.wait).1 hhas
    exact absurd hw ((Waiters.eventGetWaiter_eq_none h.wait).1 hget w)
  | some w =>
    have hw := Waiters.waits_of_eventGetWaiter h.wait hget
    have hret := Waiters.eventTaskRemove_eq_zero hw (s.tcb w).stat
    dsimp only
    split_ifs with hzero
    · exact h.readyWaiter hlock hw (hret.1 hzero) remote
    · exact h.skip hw (by simpa using mt hret.2 hzero) _

/-! ### Timers and switches -/

lemma TaskOk.cases {pc : QueuePc} {tcb : Tcb M} {waits : Prop} {cause : Option (Cause M)}
    (h : TaskOk pc tcb waits cause) : tcb.Calm ∨ tcb.Pending TASK_STAT_Q := by
  cases pc with
  | idle => exact Or.inl h.1
  | marked =>
    rcases h.2.2 with ⟨hp, -⟩ | ⟨hc, -⟩
    · exact Or.inr hp
    · exact Or.inl hc
  | waiting =>
    rcases h with ⟨hp, -⟩ | ⟨hc, -⟩ | ⟨hc, -⟩
    · exact Or.inr hp
    · exact Or.inl hc
    · exact Or.inl hc

lemma not_pending_of_calm {tcb : Tcb M} (hc : tcb.Calm) : ¬ tcb.Pending TASK_STAT_Q := by
  intro hpend
  have := hpend.taskIsPending waitBit_q
  rw [hc.not_pending] at this
  cases this

lemma TaskOk.of_calm {pc : QueuePc} {tcb tcb' : Tcb M} {waits : Prop} {cause : Option (Cause M)}
    (h : TaskOk pc tcb waits cause) (hc : tcb.Calm) (hc' : tcb'.Calm)
    (hp : tcb'.pendStat = tcb.pendStat) (hm : tcb'.msg = tcb.msg) : TaskOk pc tcb' waits cause := by
  have hnot := not_pending_of_calm hc
  cases pc with
  | idle => exact ⟨hc', hp.trans h.2.1, hm.trans h.2.2.1, h.2.2.2⟩
  | marked =>
    rcases h with ⟨hw, hmsg, ⟨hpend, -⟩ | ⟨-, hto, hcause⟩⟩
    · exact absurd hpend hnot
    · exact ⟨hw, hm.trans hmsg, Or.inr ⟨hc', hp.trans hto, hcause⟩⟩
  | waiting =>
    rcases h with ⟨hpend, -⟩ | ⟨-, hto, hmsg, hcause⟩ | ⟨-, hok, hw, msg, hmsg, hcause⟩
    · exact absurd hpend hnot
    · exact Or.inr (Or.inl ⟨hc', hp.trans hto, hm.trans hmsg, hcause⟩)
    · exact Or.inr (Or.inr ⟨hc', hp.trans hok, hw, msg, hm.trans hmsg, hcause⟩)

/-- The timer of a task that waits. -/
lemma TaskOk.timeout {pc : QueuePc} {tcb : Tcb M} {waits : Prop} {cause : Option (Cause M)}
    (h : TaskOk pc tcb waits cause) (hpend : tcb.Pending TASK_STAT_Q) :
    TaskOk pc tcb.taskTimeoutHandler waits (some .timer) := by
  obtain ⟨hcalm, hto, hm⟩ := hpend.taskTimeoutHandler waitBit_q
  cases pc with
  | idle => exact absurd hpend (not_pending_of_calm h.1)
  | marked => exact ⟨h.1, hm.trans h.2.1, Or.inr ⟨hcalm, hto, rfl⟩⟩
  | waiting =>
    rcases h with ⟨-, hmsg, -⟩ | ⟨hc, -⟩ | ⟨hc, -⟩
    · exact Or.inr (Or.inl ⟨hcalm, hto, hm.trans hmsg, rfl⟩)
    · exact absurd hpend (not_pending_of_calm hc)
    · exact absurd hpend (not_pending_of_calm hc)

lemma setTcb_self (s : QueueSystem M) (t : TaskId) : s.setTcb t (s.tcb t) = s := by
  rw [setTcb, Function.update_eq_self]

lemma Inv.setTcb {tcb : Tcb M} (h : s.Inv)
    (htask : TaskOk (s.pc t) tcb (s.waiters.Waits t) (s.cause t)) (hm : tcb.msg = (s.tcb t).msg) :
    (s.setTcb t tcb).Inv := by
  refine ⟨h.task_of (t := t) (fun _ _ => rfl) (fun u hu => Function.update_of_ne hu _ _)
    (fun _ _ => rfl) (fun _ _ => Iff.rfl) ?_, h.lock, h.wait, h.ring, ?_⟩
  · show TaskOk (s.pc t) (Function.update s.tcb t tcb t) (s.waiters.Waits t) (s.cause t)
    rw [Function.update_self]
    exact htask
  · show posted s.log = returned s.log + s.ringed +
      ∑ u, ((Function.update s.tcb t tcb u).msg.toList : Multiset M)
    rw [h.sum, sum_msg_of_eq hm]

lemma Inv.taskTimeout (h : s.Inv) (t : TaskId) : (s.taskTimeout t).Inv := by
  rw [QueueSystem.taskTimeout]
  rcases (h.task t).cases with hcalm | hpend
  · simp only [hcalm.not_pending, Bool.false_eq_true, if_false, hcalm.taskTimeoutHandler,
      setTcb_self]
    exact h
  · have hm := (hpend.taskTimeoutHandler waitBit_q).2.2
    simp only [hpend.taskIsPending waitBit_q, if_true]
    refine ⟨h.task_of (t := t) (fun _ _ => rfl) (fun u hu => Function.update_of_ne hu _ _)
      (fun u hu => Function.update_of_ne hu _ _) (fun _ _ => Iff.rfl) ?_, h.lock, h.wait, h.ring,
      ?_⟩
    · simp only [QueueSystem.setTcb, setCause, Function.update_self]
      exact (h.task t).timeout hpend
    · show posted s.log = returned s.log + s.ringed +
        ∑ u, ((Function.update s.tcb t (s.tcb t).taskTimeoutHandler u).msg.toList : Multiset M)
      rw [h.sum, sum_msg_of_eq hm]

lemma Inv.switchOut (h : s.Inv) (t : TaskId) : (s.setTcb t (s.tcb t).switchOut).Inv := by
  rcases (h.task t).cases with hcalm | hpend
  · exact h.setTcb ((h.task t).of_calm hcalm hcalm.switchOut Tcb.switchOut_pendStat
      Tcb.switchOut_msg) Tcb.switchOut_msg
  · rw [hpend.switchOut waitBit_q, setTcb_self]
    exact h

lemma Inv.switchTo (h : s.Inv) (hrdy : (s.tcb t).rdy = true)
    (hp : taskIsPending (s.tcb t).stat = false) : (s.setTcb t (s.tcb t).switchTo).Inv := by
  rcases (h.task t).cases with hcalm | hpend
  · have hcalm' : (s.tcb t).switchTo.Calm :=
      ⟨show taskIsReady TASK_STAT_RUNNING = true by decide, hrdy⟩
    exact h.setTcb ((h.task t).of_calm hcalm hcalm' rfl rfl) rfl
  · rw [hpend.taskIsPending waitBit_q] at hp
    cases hp

/-! ### Whole runs -/

lemma Inv.step (h : s.Inv) (e : QueueEvent M) (he : s.Waited e) : (s.step e).Inv := by
  cases e with
  | accept =>
    rw [QueueSystem.step]
    split_ifs
    · exact h.queueAccept
    · exact h
  | pend t timeout =>
    rw [QueueSystem.step]
    split_ifs with hg
    · exact h.queuePend hg.1 (isFree_iff.1 hg.2) timeout
    · exact h
  | wait t =>
    rw [QueueSystem.step]
    split_ifs with hg
    · exact h.pendWait hg
    · exact h
  | resume t =>
    rw [QueueSystem.step]
    split_ifs with hg
    · exact h.pendResume hg.1 (he hg.1)
    · exact h
  | post msg =>
    rw [QueueSystem.step]
    split_ifs with hg
    · exact h.queuePostImpl (isFree_iff.1 hg) msg false
    · exact h
  | postFront msg =>
    rw [QueueSystem.step]
    split_ifs with hg
    · exact h.queuePostImpl (isFree_iff.1 hg) msg true
    · exact h
  | postOpt opt msg =>
    rw [QueueSystem.step]
    split_ifs with hg
    · exact h.queuePostImpl (isFree_iff.1 hg.1) msg _
    · exact h
  | ready remote =>
    cases hlock : s.lock with
    | post msg =>
      simp only [QueueSystem.step, hlock]
      exact h.eventHighestTaskReady hlock (he (by rw [hlock]; rfl)) remote
    | free | pend _ =>
      simp only [QueueSystem.step, hlock]
      exact h
  | timeout t => exact h.taskTimeout t
  | switchOut t => exact h.switchOut t
  | switchTo t =>
    rw [QueueSystem.step]
    split_ifs with hg
    · exact h.switchTo hg he
    · exact h

lemma pendResume_log (s : QueueSystem M) (t : TaskId) :
    ∃ r, (s.pendResume t).log = .pended t r :: s.log := by
  simp only [pendResume]
  split
  · exact ⟨_, rfl⟩
  · exact ⟨_, rfl⟩
  · exact ⟨_, rfl⟩

/-- Only `queue_pend` itself says that it has returned. -/
lemma step_pended {r : Option M} (hlog : (s.step e).log = .pended t r :: s.log) :
    s.pc t = .idle ∨ e = .resume t ∧ (s.pendResume t).log = .pended t r :: s.log := by
  have hself : ∀ {l : List (QueueAct M)} {a}, l ≠ a :: l := fun h => by simp at h
  have hpost : ∀ {msg : Option M} {front : Bool},
      (s.queuePostImpl msg front).log ≠ .pended t r :: s.log := by
    intro msg front
    cases msg with
    | none => simp [queuePostImpl]
    | some m =>
      simp only [queuePostImpl]
      split_ifs
      · exact hself
      · simp
      · simp
      · simp
  cases e with
  | accept =>
    rw [step] at hlog
    split_ifs at hlog
    · rw [queueAccept] at hlog
      split_ifs at hlog
      · simp at hlog
      · simp at hlog
    · exact absurd hlog hself
  | pend u timeout =>
    rw [step] at hlog
    split_ifs at hlog with hg
    · rw [queuePend] at hlog
      split_ifs at hlog
      · obtain ⟨rfl, -⟩ : u = t ∧ s.ring.pop.1 = r := by simpa using hlog
        exact Or.inl hg.1
      · exact absurd hlog hself
    · exact absurd hlog hself
  | wait u =>
    rw [step] at hlog
    split_ifs at hlog
    · exact absurd hlog hself
    · exact absurd hlog hself
  | resume u =>
    rw [step] at hlog
    split_ifs at hlog
    · obtain ⟨r', hr'⟩ := s.pendResume_log u
      obtain ⟨rfl, -⟩ : u = t ∧ r' = r := by simpa [hr'] using hlog
      exact Or.inr ⟨rfl, hlog⟩
    · exact absurd hlog hself
  | post msg =>
    rw [step] at hlog
    split_ifs at hlog
    · exact absurd hlog hpost
    · exact absurd hlog hself
  | postFront msg =>
    rw [step] at hlog
    split_ifs at hlog
    · exact absurd hlog hpost
    · exact absurd hlog hself
  | postOpt opt msg =>
    rw [step] at hlog
    split_ifs at hlog
    · exact absurd hlog hpost
    · exact absurd hlog hself
  | ready remote =>
    cases hlock : s.lock with
    | post msg =>
      simp only [step, hlock, eventHighestTaskReady] at hlog
      cases hget : s.waiters.eventGetWaiter with
      | none => simp [hget] at hlog
      | some w =>
        simp only [hget] at hlog
        split_ifs at hlog
        · simp [readyWaiter] at hlog
        · exact absurd hlog hself
    | free | pend _ =>
      simp only [step, hlock] at hlog
      exact absurd hlog hself
  | timeout u =>
    simp only [step, taskTimeout] at hlog
    split_ifs at hlog
    · exact absurd hlog hself
    · exact absurd hlog hself
  | switchOut u => exact absurd hlog hself
  | switchTo u =>
    rw [step] at hlog
    split_ifs at hlog
    · exact absurd hlog hself
    · exact absurd hlog hself

lemma Inv.safe (h : s.Inv) (e : QueueEvent M) (he : s.Waited e) : s.Safe e where
  delivered := (h.step e he).delivered
  cause t r hpc hlog := by
    rcases step_pended hlog with hidle | ⟨rfl, hres⟩
    · rw [hpc] at hidle
      cases hidle
    · obtain ⟨-, ⟨hto, -, hcause⟩ | ⟨hok, -, msg, hmsg, hcause⟩⟩ := h.resume_cases hpc (he hpc)
      · refine Or.inr ⟨hcause, ?_⟩
        simp only [QueueSystem.pendResume, hto] at hres
        exact (QueueAct.pended.inj (List.cons.inj hres).1).2.symm
      · refine Or.inl ⟨msg, hcause, ?_⟩
        simp only [QueueSystem.pendResume, hok, hmsg] at hres
        exact (QueueAct.pended.inj (List.cons.inj hres).1).2.symm

end QueueSystem

/-- In a run in which no pending task runs on and no post runs out of waiters, every message whose
post returned 0 is returned once, or in the ring or with a waiter, and a wait ends after a post or
a timeout. -/
theorem queue_delivers {M : Type} (size : ℕ) (es : List (QueueEvent M))
    (hes : Along QueueSystem.step QueueSystem.Waited (QueueSystem.init size) es) :
    Along QueueSystem.step QueueSystem.Safe (QueueSystem.init size) es :=
  along_induction (fun _ e h he => h.step e he) (fun _ e h he => h.safe e he)
    (QueueSystem.init_inv size) hes

/-- A task waits for a message and gets one, and another message goes to the ring. -/
def waitAndPost (t : TaskId) : List (QueueEvent ℕ) :=
  [.pend t 10, .wait t, .switchOut t, .post (some 7), .ready false, .switchTo t, .resume t,
    .postOpt OS_POST_OPT_FRONT (some 8)]

theorem queue_delivers_waitAndPost :
    let t : TaskId := .pcpu ⟨3, by decide⟩
    (exec QueueSystem.step (QueueSystem.init 2) (waitAndPost t)).log =
      [.posted (some 8) 0, .pended t (some 7), .posted (some 7) 0] ∧
    Along QueueSystem.step QueueSystem.Safe (QueueSystem.init 2) (waitAndPost t) :=
  ⟨by decide +kernel, queue_delivers 2 _ (by decide +kernel)⟩

/-- The timer of the only waiter fires, and the message is given to nobody. -/
def postAfterTimeout (t : TaskId) : List (QueueEvent ℕ) :=
  [.pend t 10, .wait t, .switchOut t, .timeout t, .post (some 7), .ready false, .ready false,
    .switchTo t, .resume t]

/-- The post of 7 returns 0, and the message is nowhere; and a task that waits in an empty queue
goes on at once. -/
theorem queue_message_lost :
    let t : TaskId := .pcpu ⟨3, by decide⟩
    let s := exec QueueSystem.step (QueueSystem.init 2) (postAfterTimeout t)
    let s' : QueueSystem ℕ := exec QueueSystem.step (QueueSystem.init 2) [.pend t 10, .wait t]
    (.posted (some 7) 0 ∈ s.log ∧ ¬ s.Delivered) ∧
      (s'.cause t = none ∧ (s'.step (.resume t)).log = [.pended t none]) := by
  intro t s s'
  have hpc : ∀ u, s.pc u = .idle := by decide +kernel
  have hheld : ∑ u, s.held u = 0 := by
    refine Finset.sum_eq_zero fun u _ => if_neg fun hg => ?_
    have := hg.1
    rw [hpc u] at this
    cases this
  refine ⟨⟨by decide +kernel, fun hdel => ?_⟩, by decide +kernel⟩
  have hposted : QueueSystem.posted s.log = {7} := by decide +kernel
  have hreturned : QueueSystem.returned s.log = 0 := by decide +kernel
  have hringed : s.ringed = 0 := by decide +kernel
  rw [QueueSystem.Delivered, hposted, hreturned, hringed, hheld] at hdel
  exact absurd hdel (by decide)

end Minos.Core
