import Mathlib
import Minos.Core.Event
import Minos.Lib.Run

/-!
# Semaphores

A post gives its unit to the first waiter that is still pending, or puts it into the counter. But
`invalid_sem` compares the type of the event with that of a message box, so that no function takes
a semaphore of `sem_create`; and `sem_accept`, whose result is the counter before the call, returns
`-EINVAL` as a large counter.

The steps are those of the message queues.
-/

namespace Minos.Core

open Run

/-- `OS_EVENT_TYPE_*` -/
inductive EventType where
  | unused
  | mbox
  | q
  | sem
  | mutex
  | flag
deriving DecidableEq, Repr

/-- Where a task is. -/
inductive SemPc where
  /-- in none of the functions -/
  | idle
  /-- in `sem_pend`, with the lock, before `event_task_wait` -/
  | marked
  /-- in the `sched()` of `sem_pend` -/
  | waiting
deriving DecidableEq, Repr

/-- Who has the lock of the semaphore. -/
inductive SemLock where
  | free
  /-- `sem_pend` of a task -/
  | pend (t : TaskId)
  /-- `sem_post`, in `event_highest_task_ready` -/
  | post
  /-- `sem_pend_abort`, in `event_highest_task_ready`, after so many tasks -/
  | abort (broadcast : Bool) (nbrTasks : ℕ)
deriving DecidableEq, Repr

def SemLock.isFree : SemLock → Bool
  | .free => true
  | .pend _ | .post | .abort _ _ => false

/-- What has ended the wait of a task. -/
inductive SemCause where
  | post
  | timer
  | abort
deriving DecidableEq, Repr

/-- A call that has returned. -/
inductive SemAct where
  /-- `sem_accept` with its result, a `uint32_t` -/
  | accepted (r : ℕ)
  | pended (t : TaskId) (ret : ℤ)
  /-- `sem_post`; `capped` says that the counter was full -/
  | posted (ret : ℤ) (capped : Bool)
  | aborted (ret : ℤ)
deriving DecidableEq, Repr

/-- A semaphore with all tasks. The last three fields are not in the source: the counter that it was
created with, what has ended the wait of a task, and the calls that have returned. -/
structure SemSystem where
  type : EventType
  cnt : ℕ
  waiters : Waiters
  lock : SemLock
  tcb : TaskId → Tcb Unit
  pc : TaskId → SemPc
  created : ℕ
  cause : TaskId → Option SemCause
  log : List SemAct

inductive SemEvent where
  | accept
  | pend (t : TaskId) (timeout : ℕ)
  | wait (t : TaskId)
  | resume (t : TaskId)
  | post
  /-- with `OS_PEND_OPT_BROADCAST` or without -/
  | pendAbort (broadcast : Bool)
  /-- a round of `event_highest_task_ready`; `remote` says that the waiter has another cpu -/
  | ready (remote : Bool)
  | timeout (t : TaskId)
  | switchOut (t : TaskId)
  | switchTo (t : TaskId)
deriving DecidableEq, Repr

namespace SemSystem

/-- `sem_create` -/
def init (cnt : ℕ) : SemSystem where
  type := .sem
  cnt := cnt
  waiters := .empty
  lock := .free
  tcb _ := .init
  pc _ := .idle
  created := cnt
  cause _ := none
  log := []

/-- `invalid_sem` -/
def invalidSem (s : SemSystem) : Bool := s.type ≠ .mbox

def setTcb (s : SemSystem) (t : TaskId) (tcb : Tcb Unit) : SemSystem :=
  { s with tcb := Function.update s.tcb t tcb }

def setPc (s : SemSystem) (t : TaskId) (pc : SemPc) : SemSystem :=
  { s with pc := Function.update s.pc t pc }

def setCause (s : SemSystem) (t : TaskId) (cause : Option SemCause) : SemSystem :=
  { s with cause := Function.update s.cause t cause }

/-- `(uint32_t)-EINVAL` -/
def EINVAL_U32 : ℕ := 2 ^ 32 - 22

/-- `sem_accept` -/
def semAccept (s : SemSystem) : SemSystem :=
  if s.invalidSem then { s with log := .accepted EINVAL_U32 :: s.log }
  else { s with cnt := s.cnt - 1, log := .accepted s.cnt :: s.log }

/-- `sem_pend` up to `event_task_wait` -/
def semPend (s : SemSystem) (t : TaskId) (timeout : ℕ) : SemSystem :=
  if s.invalidSem then { s with log := .pended t (-EINVAL) :: s.log }
  else if 0 < s.cnt then { s with cnt := s.cnt - 1, log := .pended t 0 :: s.log }
  else
    { ((s.setTcb t ((s.tcb t).pend TASK_STAT_SEM timeout)).setPc t .marked).setCause t none with
      lock := .pend t }

/-- `event_task_wait` of `sem_pend` and the end of the critical section -/
def pendWait (s : SemSystem) (t : TaskId) : SemSystem :=
  { s.setPc t .waiting with waiters := s.waiters.eventTaskWait t, lock := .free }

/-- `sem_pend` after `sched()` -/
def pendResume (s : SemSystem) (t : TaskId) : SemSystem :=
  let s' := (s.setTcb t { s.tcb t with pendStat := .ok }).setPc t .idle
  match (s.tcb t).pendStat with
  | .ok => { s' with log := .pended t 0 :: s.log }
  | .abort => { s' with log := .pended t (-EABORT) :: s.log }
  | .to => { s' with
      waiters := (s.waiters.eventTaskRemove (s.tcb t).stat t).1
      log := .pended t (-ETIMEDOUT) :: s.log }

/-- The end of `sem_post` when no task was readied. -/
def countUp (s : SemSystem) : SemSystem :=
  { s with
    cnt := if s.cnt < 65535 then s.cnt + 1 else s.cnt
    lock := .free
    log := .posted 0 (65535 ≤ s.cnt) :: s.log }

/-- `sem_post` up to `event_highest_task_ready`, or all of it if there is no waiter -/
def semPost (s : SemSystem) : SemSystem :=
  if s.invalidSem then { s with log := .posted (-EINVAL) false :: s.log }
  else if s.waiters.eventHasWaiter then { s with lock := .post }
  else s.countUp

/-- `sem_pend_abort` up to `event_highest_task_ready`, or all of it if there is no waiter -/
def semPendAbort (s : SemSystem) (broadcast : Bool) : SemSystem :=
  if s.invalidSem then { s with log := .aborted (-EINVAL) :: s.log }
  else if s.waiters.eventHasWaiter then { s with lock := .abort broadcast 0 }
  else { s with log := .aborted 0 :: s.log }

/-- The waiter goes off the wait set and is readied. -/
def readyWaiter (s : SemSystem) (w : TaskId) (remote : Bool) (pendStat : PendStat)
    (cause : SemCause) : SemSystem :=
  { (s.setTcb w ((s.tcb w).eventTaskReady remote none TASK_STAT_SEM pendStat)).setCause w
      (some cause) with
    waiters := (s.waiters.eventTaskRemove (s.tcb w).stat w).1 }

/-- A round of `event_highest_task_ready`: `found` is what its caller does with a task, and `noTask`
what it does without one. A waiter that is not pending any more only goes off the wait set. -/
def eventHighestTaskReady (s : SemSystem) (found : TaskId → SemSystem) (noTask : SemSystem) :
    SemSystem :=
  match s.waiters.eventGetWaiter with
  | none => noTask
  | some w =>
    let r := s.waiters.eventTaskRemove (s.tcb w).stat w
    if r.2 = 0 then found w else { s with waiters := r.1 }

/-- `event_highest_task_ready` in `sem_post` -/
def postRound (s : SemSystem) (remote : Bool) : SemSystem :=
  s.eventHighestTaskReady
    (fun w => { s.readyWaiter w remote .ok .post with
      lock := .free, log := .posted 0 false :: s.log })
    s.countUp

/-- `event_highest_task_ready` in `sem_pend_abort`, which readies one waiter with `PEND_OK`, and all
of them with `PEND_ABORT`. -/
def abortRound (s : SemSystem) (remote broadcast : Bool) (nbrTasks : ℕ) : SemSystem :=
  s.eventHighestTaskReady
    (fun w =>
      if broadcast then { s.readyWaiter w remote .abort .abort with
        lock := .abort broadcast (nbrTasks + 1) }
      else { s.readyWaiter w remote .ok .abort with
        lock := .free, log := .aborted (nbrTasks + 1) :: s.log })
    { s with lock := .free, log := .aborted nbrTasks :: s.log }

/-- `task_timeout_handler` -/
def taskTimeout (s : SemSystem) (t : TaskId) : SemSystem :=
  let s' := s.setTcb t (s.tcb t).taskTimeoutHandler
  if taskIsPending (s.tcb t).stat then s'.setCause t (some .timer) else s'

def step (s : SemSystem) : SemEvent → SemSystem
  | .accept => if s.lock.isFree then s.semAccept else s
  | .pend t timeout => if s.pc t = .idle ∧ s.lock.isFree then s.semPend t timeout else s
  | .wait t => if s.pc t = .marked then s.pendWait t else s
  | .resume t =>
    if s.pc t = .waiting ∧ s.lock.isFree ∧ (s.tcb t).rdy = true then s.pendResume t else s
  | .post => if s.lock.isFree then s.semPost else s
  | .pendAbort broadcast => if s.lock.isFree then s.semPendAbort broadcast else s
  | .ready remote =>
    match s.lock with
    | .post => s.postRound remote
    | .abort broadcast nbrTasks => s.abortRound remote broadcast nbrTasks
    | _ => s
  | .timeout t => s.taskTimeout t
  | .switchOut t => s.setTcb t (s.tcb t).switchOut
  | .switchTo t => if (s.tcb t).rdy = true then s.setTcb t (s.tcb t).switchTo else s

/-! ### What is asked of the semaphore -/

/-- The posts that have returned 0 and did not find the counter full. -/
def posts (log : List SemAct) : ℕ :=
  log.countP fun a => match a with
    | .posted ret capped => ret = 0 ∧ capped = false
    | _ => false

/-- The calls of `sem_accept` that say that they took a unit. -/
def accepts (log : List SemAct) : ℕ :=
  log.countP fun a => match a with
    | .accepted r => r ≠ 0
    | _ => false

/-- The calls of `sem_pend` that have returned 0. -/
def pends (log : List SemAct) : ℕ :=
  log.countP fun a => match a with
    | .pended _ ret => ret = 0
    | _ => false

/-- The task is in `sem_pend` and was readied with `PEND_OK`. -/
def Granted (s : SemSystem) (t : TaskId) : Prop :=
  s.pc t = .waiting ∧ taskIsPending (s.tcb t).stat = false ∧ (s.tcb t).pendStat = .ok

instance (s : SemSystem) (t : TaskId) : Decidable (s.Granted t) :=
  inferInstanceAs (Decidable (_ ∧ _))

/-- Every unit is in the counter or was taken. -/
def Counted (s : SemSystem) : Prop :=
  s.created + posts s.log =
    s.cnt + accepts s.log + pends s.log + (Finset.univ.filter s.Granted).card

/-- What every step of a run keeps to. -/
structure Safe (s : SemSystem) (e : SemEvent) : Prop where
  counted : (s.step e).Counted
  /-- a `sem_pend` that had to wait returns 0 after a post -/
  cause : ∀ t, s.pc t = .waiting → (s.step e).log = .pended t 0 :: s.log → s.cause t = some .post
  aborted : ∀ t ret, s.pc t = .waiting → (s.step e).log = .pended t ret :: s.log →
    s.cause t = some .abort → ret = -EABORT

/-! ### The invariant -/

/-- Nothing has happened but calls that failed, none of them of `sem_accept`. -/
structure Inv (s : SemSystem) : Prop where
  type : s.type = .sem
  cnt : s.cnt = s.created
  lock : s.lock = .free
  pc : ∀ t, s.pc t = .idle
  posts : posts s.log = 0
  accepts : accepts s.log = 0
  pends : pends s.log = 0

variable {s s' : SemSystem} {e : SemEvent} {es : List SemEvent}

lemma init_inv (cnt : ℕ) : (init cnt).Inv := ⟨rfl, rfl, rfl, fun _ => rfl, rfl, rfl, rfl⟩

lemma Inv.invalid (h : s.Inv) : s.invalidSem = true := by
  rw [invalidSem, h.type]
  decide

lemma card_granted (h : ∀ t, s.pc t = .idle) : (Finset.univ.filter s.Granted).card = 0 := by
  rw [Finset.card_eq_zero, Finset.filter_eq_empty_iff]
  intro t _ hg
  have := hg.1
  rw [h t] at this
  cases this

lemma Inv.counted (h : s.Inv) : s.Counted := by
  rw [Counted, h.posts, h.accepts, h.pends, h.cnt, card_granted h.pc]

/-- A step that is no call of `sem_accept` only makes calls fail. -/
lemma Inv.step (h : s.Inv) (he : e ≠ .accept) : (s.step e).Inv := by
  have hfree : s.lock.isFree = true := by
    rw [h.lock]
    rfl
  cases e with
  | accept => exact absurd rfl he
  | pend t timeout =>
    rw [SemSystem.step, if_pos ⟨h.pc t, hfree⟩, semPend, if_pos h.invalid]
    exact ⟨h.type, h.cnt, h.lock, h.pc, h.posts, h.accepts, h.pends⟩
  | wait t =>
    rw [SemSystem.step, if_neg (by rw [h.pc t]; nofun)]
    exact h
  | resume t =>
    rw [SemSystem.step, if_neg (by rw [h.pc t]; nofun)]
    exact h
  | post =>
    rw [SemSystem.step, if_pos hfree, semPost, if_pos h.invalid]
    exact ⟨h.type, h.cnt, h.lock, h.pc, h.posts, h.accepts, h.pends⟩
  | pendAbort broadcast =>
    rw [SemSystem.step, if_pos hfree, semPendAbort, if_pos h.invalid]
    exact ⟨h.type, h.cnt, h.lock, h.pc, h.posts, h.accepts, h.pends⟩
  | ready remote =>
    simp only [SemSystem.step, h.lock]
    exact h
  | timeout t =>
    simp only [SemSystem.step, taskTimeout]
    split_ifs
    · exact ⟨h.type, h.cnt, h.lock, h.pc, h.posts, h.accepts, h.pends⟩
    · exact ⟨h.type, h.cnt, h.lock, h.pc, h.posts, h.accepts, h.pends⟩
  | switchOut t => exact ⟨h.type, h.cnt, h.lock, h.pc, h.posts, h.accepts, h.pends⟩
  | switchTo t =>
    rw [SemSystem.step]
    split_ifs
    · exact ⟨h.type, h.cnt, h.lock, h.pc, h.posts, h.accepts, h.pends⟩
    · exact h

lemma Inv.not_counted_accept (h : s.Inv) : ¬ (s.step .accept).Counted := by
  rw [SemSystem.step, if_pos (by rw [h.lock]; rfl), semAccept, if_pos h.invalid]
  intro hcount
  have hcard : (Finset.univ.filter
      ({ s with log := .accepted EINVAL_U32 :: s.log } : SemSystem).Granted).card = 0 :=
    card_granted h.pc
  have haccepts : SemSystem.accepts (.accepted EINVAL_U32 :: s.log) = 1 := by
    have := h.accepts
    rw [SemSystem.accepts] at this ⊢
    rw [List.countP_cons_of_pos (by decide), this]
  have hposts : SemSystem.posts (.accepted EINVAL_U32 :: s.log) = 0 := h.posts
  have hpends : SemSystem.pends (.accepted EINVAL_U32 :: s.log) = 0 := h.pends
  rw [Counted, hcard] at hcount
  dsimp only at hcount
  rw [hposts, haccepts, hpends, h.cnt] at hcount
  omega

lemma Inv.safe_iff (h : s.Inv) : s.Safe e ↔ e ≠ .accept := by
  constructor
  · rintro hsafe rfl
    exact h.not_counted_accept hsafe.counted
  · intro he
    refine ⟨(h.step he).counted, fun t hpc => ?_, fun t ret hpc => ?_⟩
    · rw [h.pc t] at hpc
      cases hpc
    · rw [h.pc t] at hpc
      cases hpc

end SemSystem

/-- **Counting of semaphores.** The units of a semaphore of `sem_create` add up along a run if and
only if nobody calls `sem_accept`. -/
theorem sem_counted_iff (cnt : ℕ) (es : List SemEvent) :
    Along SemSystem.step SemSystem.Safe (SemSystem.init cnt) es ↔ .accept ∉ es := by
  have h : Along SemSystem.step SemSystem.Safe (SemSystem.init cnt) es ↔
      Along SemSystem.step (fun _ e => e ≠ .accept) (SemSystem.init cnt) es :=
    along_iff (I := SemSystem.Inv) (L := fun _ _ => True) (fun _ _ h _ => h.safe_iff)
      (fun _ _ h _ he => h.step he) (SemSystem.init_inv cnt) (along_const.2 fun _ _ => trivial)
  rw [h, along_const]
  exact ⟨fun h hmem => h _ hmem rfl, fun h e he heq => h (heq ▸ he)⟩

/-- A semaphore with no unit: `sem_post` fails, and `sem_accept` says that there were 4294967274
units. -/
theorem sem_accept_takes_nothing :
    let s := exec SemSystem.step (SemSystem.init 0) [.post, .accept]
    s.log = [.accepted 4294967274, .posted (-22) false] ∧ s.cnt = 0 ∧
      ¬ Along SemSystem.step SemSystem.Safe (SemSystem.init 0) [.post, .accept] := by
  refine ⟨by decide +kernel, by decide +kernel, fun h => ?_⟩
  have hinv := (SemSystem.init_inv 0).step (e := .post) nofun
  exact hinv.not_counted_accept h.2.1.counted

end Minos.Core
