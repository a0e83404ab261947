import Mathlib
import Minos.Core.Event
import Minos.Lib.Run

/-!
# Mutexes

`mutex_accept`, `mutex_pend` and `mutex_post` work on the mutex under its lock, and a step is what a
task does in one go under this lock or under the lock of a task. A task that has to wait leaves the
lock before it sleeps, so that its timer, a post and its own way out of `mutex_pend` can come in any
order: the timer leaves the task on the wait set, a post skips waiters that are not pending, and a
waiter that is readied can return before the post has stored the new owner.
-/

namespace Minos.Core

open Run

def OS_MUTEX_AVAILABLE : ℕ := 0xffff

/-- The fields of `mutex_t` -/
structure Mutex where
  cnt : ℕ
  owner : ℕ
  data : Option TaskId
  waiters : Waiters

/-- `mutex_create` -/
def Mutex.create : Mutex := ⟨OS_MUTEX_AVAILABLE, 0, none, .empty⟩

/-- Where a task is. -/
inductive MutexPc where
  /-- in none of the functions -/
  | idle
  /-- in `mutex_pend`, with the lock, before `event_task_wait` -/
  | marked
  /-- in the `sched()` of `mutex_pend` -/
  | waiting
  /-- in `mutex_pend` after a timeout, before it takes the lock again -/
  | timedOut
  /-- in `event_highest_task_ready`, with the lock -/
  | posting
  /-- in `mutex_post`, with the lock, when `event_highest_task_ready` has returned `w` -/
  | handing (w : TaskId)
deriving DecidableEq, Repr

/-- The task holds the lock of the mutex. -/
def MutexPc.locked : MutexPc → Bool
  | .marked | .posting | .handing _ => true
  | .idle | .waiting | .timedOut => false

/-- The task is in `mutex_pend`. -/
def MutexPc.pends : MutexPc → Bool
  | .marked | .waiting | .timedOut => true
  | .idle | .posting | .handing _ => false

/-- A call that has returned. -/
inductive MutexAct where
  | accepted (t : TaskId) (ret : ℤ)
  | pended (t : TaskId) (ret : ℤ)
  | posted (t : TaskId) (ret : ℤ)
deriving DecidableEq, Repr

/-- A mutex with all tasks. The last three fields are not in the source: the tasks to which
`mutex_accept` or `mutex_pend` has returned 0 and which have not posted since, whether a task was
the owner when it called `mutex_pend`, and the calls that have returned. -/
structure MutexSystem where
  m : Mutex
  lock : Option TaskId
  tcb : TaskId → Tcb Unit
  pc : TaskId → MutexPc
  holders : Finset TaskId
  called : TaskId → Bool
  log : List MutexAct

inductive MutexEvent where
  | accept (t : TaskId)
  | pend (t : TaskId) (timeout : ℕ)
  | wait (t : TaskId)
  | resume (t : TaskId)
  | remove (t : TaskId)
  | post (t : TaskId)
  /-- a round of `event_highest_task_ready`; `remote` says that the waiter has another cpu -/
  | ready (t : TaskId) (remote : Bool)
  | hand (t : TaskId)
  | timeout (t : TaskId)
  | switchOut (t : TaskId)
  | switchTo (t : TaskId)
deriving DecidableEq, Repr

namespace MutexSystem

def init : MutexSystem where
  m := .create
  lock := none
  tcb _ := .init
  pc _ := .idle
  holders := ∅
  called _ := false
  log := []

def setTcb (s : MutexSystem) (t : TaskId) (tcb : Tcb Unit) : MutexSystem :=
  { s with tcb := Function.update s.tcb t tcb }

def setPc (s : MutexSystem) (t : TaskId) (pc : MutexPc) : MutexSystem :=
  { s with pc := Function.update s.pc t pc }

/-- The mutex is free and `t` takes it. -/
def take (s : MutexSystem) (t : TaskId) (cnt : ℕ) : MutexSystem :=
  { s with
    m := { s.m with owner := t.pid, data := some t, cnt := cnt }
    holders := insert t s.holders }

/-- `mutex_accept` -/
def mutexAccept (s : MutexSystem) (t : TaskId) : MutexSystem :=
  if s.m.cnt = OS_MUTEX_AVAILABLE then
    { s.take t t.prio with log := .accepted t 0 :: s.log }
  else { s with log := .accepted t (-EBUSY) :: s.log }

/-- `mutex_pend` up to `event_task_wait` -/
def mutexPend (s : MutexSystem) (t : TaskId) (timeout : ℕ) : MutexSystem :=
  if s.m.cnt = OS_MUTEX_AVAILABLE then
    { s.take t t.pid with log := .pended t 0 :: s.log }
  else
    { (s.setTcb t ((s.tcb t).pend TASK_STAT_MUTEX timeout).setTaskSleep).setPc t .marked with
      lock := some t
      called := Function.update s.called t (s.m.data = some t) }

/-- `event_task_wait` of `mutex_pend` and the end of the critical section -/
def pendWait (s : MutexSystem) (t : TaskId) : MutexSystem :=
  { s.setPc t .waiting with
    m := { s.m with waiters := s.m.waiters.eventTaskWait t }
    lock := none }

/-- `mutex_pend` after `sched()` -/
def pendResume (s : MutexSystem) (t : TaskId) : MutexSystem :=
  match (s.tcb t).pendStat with
  | .ok => { s.setPc t .idle with
      holders := insert t s.holders
      log := .pended t 0 :: s.log }
  | .abort => { (s.setTcb t { s.tcb t with pendStat := .ok }).setPc t .idle with
      log := .pended t (-EABORT) :: s.log }
  | .to => s.setPc t .timedOut

/-- The end of `mutex_pend` after a timeout -/
def pendRemove (s : MutexSystem) (t : TaskId) : MutexSystem :=
  { (s.setTcb t { s.tcb t with pendStat := .ok }).setPc t .idle with
    m := { s.m with waiters := (s.m.waiters.eventTaskRemove (s.tcb t).stat t).1 }
    log := .pended t (-ETIMEDOUT) :: s.log }

/-- `mutex_post` up to `event_highest_task_ready` -/
def mutexPost (s : MutexSystem) (t : TaskId) : MutexSystem :=
  if s.m.data ≠ some t then { s with log := .posted t (-EINVAL) :: s.log }
  else { s.setPc t .posting with lock := some t, holders := s.holders.erase t }

/-- The waiter goes off the wait set and is readied. -/
def readyWaiter (s : MutexSystem) (t w : TaskId) (remote : Bool) : MutexSystem :=
  { (s.setTcb w ((s.tcb w).eventTaskReady remote none TASK_STAT_MUTEX .ok)).setPc t
      (.handing w) with
    m := { s.m with waiters := (s.m.waiters.eventTaskRemove (s.tcb w).stat w).1 } }

/-- A round of `event_highest_task_ready` for `mutex_post`, with what `mutex_post` does when there
is no waiter. -/
def eventHighestTaskReady (s : MutexSystem) (t : TaskId) (remote : Bool) : MutexSystem :=
  match s.m.waiters.eventGetWaiter with
  | none =>
    { s.setPc t .idle with
      m := { s.m with cnt := OS_MUTEX_AVAILABLE, data := none, owner := 0 }
      lock := none
      log := .posted t 0 :: s.log }
  | some w =>
    let r := s.m.waiters.eventTaskRemove (s.tcb w).stat w
    if r.2 = 0 then s.readyWaiter t w remote
    else { s with m := { s.m with waiters := r.1 } }

/-- The end of `mutex_post` with a waiter -/
def handOver (s : MutexSystem) (t w : TaskId) : MutexSystem :=
  { s.setPc t .idle with
    m := { s.m with cnt := w.pid, data := some w, owner := w.pid }
    lock := none
    log := .posted t 0 :: s.log }

def step (s : MutexSystem) : MutexEvent → MutexSystem
  | .accept t => if s.pc t = .idle ∧ s.lock = none then s.mutexAccept t else s
  | .pend t timeout => if s.pc t = .idle ∧ s.lock = none then s.mutexPend t timeout else s
  | .wait t => if s.pc t = .marked then s.pendWait t else s
  | .resume t => if s.pc t = .waiting ∧ (s.tcb t).rdy = true then s.pendResume t else s
  | .remove t => if s.pc t = .timedOut ∧ s.lock = none then s.pendRemove t else s
  | .post t => if s.pc t = .idle ∧ s.lock = none then s.mutexPost t else s
  | .ready t remote => if s.pc t = .posting then s.eventHighestTaskReady t remote else s
  | .hand t =>
    match s.pc t with
    | .handing w => s.handOver t w
    | _ => s
  | .timeout t => s.setTcb t (s.tcb t).taskTimeoutHandler
  | .switchOut t => s.setTcb t (s.tcb t).switchOut
  | .switchTo t => if (s.tcb t).rdy = true then s.setTcb t (s.tcb t).switchTo else s

/-! ### What is asked of the mutex -/

/-- The task is on the wait set. -/
def Waits (s : MutexSystem) (t : TaskId) : Prop := s.m.waiters.Waits t

/-- The task waits and neither its timer nor a post has made it ready. -/
def PendingWaiter (s : MutexSystem) (t : TaskId) : Prop :=
  s.pc t = .waiting ∧ s.Waits t ∧ taskIsPending (s.tcb t).stat = true

/-- A post has readied the task, and it is still in `sched()`. -/
def Granted (s : MutexSystem) (t : TaskId) : Prop :=
  s.pc t = .waiting ∧ taskIsPending (s.tcb t).stat = false ∧ (s.tcb t).pendStat = .ok

/-- What every step of a run keeps to. -/
structure Safe (s : MutexSystem) (e : MutexEvent) : Prop where
  /-- at most one task owns the mutex -/
  one : ∀ t ∈ (s.step e).holders, ∀ u ∈ (s.step e).holders, t = u
  avail : (s.step e).m.cnt = OS_MUTEX_AVAILABLE ↔ (s.step e).m.data = none
  /-- a post that has found a waiter has found one that had not timed out, and readies only this
  one -/
  found : ∀ t w, (s.step e).pc t = .handing w → s.pc t ≠ .handing w →
    s.PendingWaiter w ∧ ∀ u, (s.step e).Granted u ↔ u = w
  /-- a post that returns 0 has made this waiter the owner, or all waiters have timed out -/
  posted : ∀ t, (s.step e).log = .posted t 0 :: s.log →
    (∃ w, s.pc t = .handing w ∧ (s.step e).m.data = some w ∧
      ((s.step e).Granted w ∨ w ∈ (s.step e).holders)) ∨
    ((s.step e).m.data = none ∧ ∀ u, ¬ s.PendingWaiter u)
  /-- the waiter stays ready until it runs, and then its `mutex_pend` returns 0 -/
  granted : ∀ t, s.Granted t → (s.tcb t).rdy = true ∧
    ((s.step e).Granted t ∨ (s.step e).log = .pended t 0 :: s.log) ∧
    (s.step (.resume t)).log = .pended t 0 :: s.log
  /-- after a timeout the task is not on the wait set, and it is the owner only if it was before -/
  timedOut : ∀ t, (s.step e).log = .pended t (-ETIMEDOUT) :: s.log →
    ¬ (s.step e).Waits t ∧ (s.called t = false → (s.step e).m.data ≠ some t)
  /-- a post of a task that is not the owner does nothing -/
  foreign : ∀ t, e = .post t → s.m.data ≠ some t →
    s.step e = s ∨ s.step e = { s with log := .posted t (-EINVAL) :: s.log }

/-! ### The invariant -/

/-- What is known about a task from where it is. -/
def TaskOk (pc : MutexPc) (tcb : Tcb Unit) (waits : Prop) : Prop :=
  match pc with
  | .idle | .posting | .handing _ => tcb.Calm ∧ tcb.pendStat = .ok ∧ ¬ waits
  | .marked => ¬ waits ∧
      (tcb.Pending TASK_STAT_MUTEX ∧ tcb.rdy = false ∨ tcb.Calm ∧ tcb.pendStat = .to)
  | .waiting => tcb.Pending TASK_STAT_MUTEX ∧ tcb.rdy = false ∧ waits ∨
      tcb.Calm ∧ tcb.pendStat = .to ∨ tcb.Calm ∧ tcb.pendStat = .ok ∧ ¬ waits
  | .timedOut => tcb.Calm ∧ tcb.pendStat = .to

/-- The owner, where the transfer counts from the moment in which the waiter is readied. -/
def ownerNow (s : MutexSystem) : Option TaskId :=
  match s.lock with
  | none => s.m.data
  | some t =>
    match s.pc t with
    | .posting => none
    | .handing w => some w
    | _ => s.m.data

structure Inv (s : MutexSystem) : Prop where
  task : ∀ t, TaskOk (s.pc t) (s.tcb t) (s.Waits t)
  lock : ∀ t, s.lock = some t ↔ (s.pc t).locked = true
  wait : s.m.waiters.WellFormed
  avail : s.m.cnt = OS_MUTEX_AVAILABLE ↔ s.m.data = none
  posting : ∀ t, s.pc t = .posting → s.m.data = some t
  handing : ∀ t w, s.pc t = .handing w → s.m.data = some t
  owner : ∀ t, s.ownerNow = some t ↔ t ∈ s.holders ∨ s.Granted t
  called : ∀ t, (s.pc t).pends = true → (s.called t = true ↔ t ∈ s.holders)

variable {s s' : MutexSystem} {t u w : TaskId} {e : MutexEvent}

lemma init_inv : init.Inv where
  task _ := ⟨⟨show taskIsReady TASK_STAT_RDY = true by decide, rfl⟩, rfl, Waiters.not_waits_empty⟩
  lock _ := iff_of_false nofun (by simp [init, MutexPc.locked])
  wait := Waiters.empty_wellFormed
  avail := by simp [init, Mutex.create]
  posting _ h := by cases h
  handing _ _ h := by cases h
  owner _ := iff_of_false nofun (by simp [init, Granted])
  called _ h := by cases h

/-- Nothing but `t` differs in the two states. -/
structure Frame (s s' : MutexSystem) (t : TaskId) : Prop where
  pc : ∀ u, u ≠ t → s'.pc u = s.pc u
  tcb : ∀ u, u ≠ t → s'.tcb u = s.tcb u
  waits : ∀ u, u ≠ t → (s'.Waits u ↔ s.Waits u)
  holders : ∀ u, u ≠ t → (u ∈ s'.holders ↔ u ∈ s.holders)
  called : ∀ u, u ≠ t → s'.called u = s.called u
  lock : ∀ u, u ≠ t → (s'.lock = some u ↔ s.lock = some u)

lemma Frame.granted (h : Frame s s' t) (hu : u ≠ t) : s'.Granted u ↔ s.Granted u := by
  rw [Granted, Granted, h.pc u hu, h.tcb u hu]

/-- The lock and the data stay, and the lock is not with `t`. -/
lemma Frame.ownerNow (h : Frame s s' t) (hlock : s'.lock = s.lock) (hdata : s'.m.data = s.m.data)
    (ht : s.lock ≠ some t) : s'.ownerNow = s.ownerNow := by
  rw [MutexSystem.ownerNow, MutexSystem.ownerNow, hlock, hdata]
  cases hl : s.lock with
  | none => rfl
  | some p =>
    have hp : p ≠ t := by
      rintro rfl
      exact ht hl
    simp only [h.pc p hp]

lemma ownerNow_of_free (h : s.lock = none) : s.ownerNow = s.m.data := by
  rw [ownerNow, h]

lemma ownerNow_of_posting (h : s.lock = some t) (hpc : s.pc t = .posting) : s.ownerNow = none := by
  simp only [ownerNow, h, hpc]

lemma ownerNow_of_handing (h : s.lock = some t) (hpc : s.pc t = .handing w) :
    s.ownerNow = some w := by
  simp only [ownerNow, h, hpc]

lemma ownerNow_of_marked (h : s.lock = some t) (hpc : s.pc t = .marked) :
    s.ownerNow = s.m.data := by
  simp only [ownerNow, h, hpc]

/-- A step of `t` keeps the invariant if it does so for `t`, and if it does not take the mutex from
a post of another task. -/
lemma Inv.of_frame (h : s.Inv) (hf : Frame s s' t)
    (htask : TaskOk (s'.pc t) (s'.tcb t) (s'.Waits t))
    (hlock : s'.lock = some t ↔ (s'.pc t).locked = true) (hwait : s'.m.waiters.WellFormed)
    (havail : s'.m.cnt = OS_MUTEX_AVAILABLE ↔ s'.m.data = none)
    (hdata : s'.m.data = s.m.data ∨ ∀ u, u ≠ t → s.lock ≠ some u)
    (hposting : s'.pc t = .posting → s'.m.data = some t)
    (hhanding : ∀ w, s'.pc t = .handing w → s'.m.data = some t)
    (howner : ∀ u, u ≠ t → (s'.ownerNow = some u ↔ s.ownerNow = some u))
    (hself : s'.ownerNow = some t ↔ t ∈ s'.holders ∨ s'.Granted t)
    (hcalled : (s'.pc t).pends = true → (s'.called t = true ↔ t ∈ s'.holders)) : s'.Inv := by
  have hkeep : ∀ u, u ≠ t → (s.pc u).locked = true → s'.m.data = s.m.data := by
    intro u hu hl
    rcases hdata with hd | hfree
    · exact hd
    · exact absurd ((h.lock u).2 hl) (hfree u hu)
  refine ⟨fun u => ?_, fun u => ?_, hwait, havail, fun u hu => ?_, fun u w hu => ?_, fun u => ?_,
    fun u hu => ?_⟩
  · by_cases hut : u = t
    · exact hut ▸ htask
    · rw [hf.pc u hut, hf.tcb u hut, hf.waits u hut]
      exact h.task u
  · by_cases hut : u = t
    · exact hut ▸ hlock
    · rw [hf.pc u hut, hf.lock u hut]
      exact h.lock u
  · by_cases hut : u = t
    · subst hut
      exact hposting hu
    · rw [hf.pc u hut] at hu
      rw [hkeep u hut (by rw [hu]; rfl)]
      exact h.posting u hu
  · by_cases hut : u = t
    · subst hut
      exact hhanding w hu
    · rw [hf.pc u hut] at hu
      rw [hkeep u hut (by rw [hu]; rfl)]
      exact h.handing u w hu
  · by_cases hut : u = t
    · exact hut ▸ hself
    · rw [howner u hut, hf.holders u hut, hf.granted hut]
      exact h.owner u
  · by_cases hut : u = t
    · subst hut
      exact hcalled hu
    · rw [hf.pc u hut] at hu
      rw [hf.called u hut, hf.holders u hut]
      exact h.called u hu

/-! ### The steps -/

lemma waitBit_mutex : Tcb.WaitBit TASK_STAT_MUTEX := Tcb.IsPendBit.waitBit (Or.inl rfl)

lemma Inv.setLog (h : s.Inv) (log : List MutexAct) : { s with log := log }.Inv :=
  ⟨h.task, h.lock, h.wait, h.avail, h.posting, h.handing, h.owner, h.called⟩

/-- While the lock is free and the mutex has no owner, nobody holds it. -/
lemma Inv.not_mem_of_free (h : s.Inv) (hlock : s.lock = none) (hdata : s.m.data = none)
    (u : TaskId) : u ∉ s.holders ∧ ¬ s.Granted u := by
  have := h.owner u
  rw [ownerNow_of_free hlock, hdata] at this
  simpa using this

lemma not_granted_of_pc (h : s.pc t ≠ .waiting) : ¬ s.Granted t := fun hg => h hg.1

lemma Inv.take (h : s.Inv) (hpc : s.pc t = .idle) (hlock : s.lock = none)
    (hcnt : s.m.cnt = OS_MUTEX_AVAILABLE) {cnt : ℕ} (hne : cnt ≠ OS_MUTEX_AVAILABLE) :
    (s.take t cnt).Inv := by
  have hfree := h.not_mem_of_free hlock (h.avail.1 hcnt)
  have hown : (s.take t cnt).ownerNow = some t := ownerNow_of_free hlock
  refine h.of_frame (t := t) ⟨fun _ _ => rfl, fun _ _ => rfl, fun _ _ => Iff.rfl, fun u hu => ?_,
    fun _ _ => rfl, fun _ _ => Iff.rfl⟩ (h.task t) (h.lock t) h.wait ?_ (Or.inr ?_) ?_ ?_
    (fun u hu => ?_) ?_ ?_
  · simp [MutexSystem.take, hu]
  · exact iff_of_false hne nofun
  · simp [hlock]
  · exact fun _ => rfl
  · exact fun _ _ => rfl
  · rw [hown, ownerNow_of_free hlock, h.avail.1 hcnt]
    exact iff_of_false (fun heq => hu (Option.some.inj heq).symm) nofun
  · exact iff_of_true hown (Or.inl (Finset.mem_insert_self t _))
  · intro hp
    simp [MutexSystem.take, hpc, MutexPc.pends] at hp

lemma pid_ne_available (t : TaskId) : t.pid ≠ OS_MUTEX_AVAILABLE := by
  have := t.pid_lt
  simp only [OS_NR_TASKS, OS_MUTEX_AVAILABLE] at this ⊢
  omega

lemma prio_ne_available (t : TaskId) : t.prio ≠ OS_MUTEX_AVAILABLE := by
  have := t.prio_le
  simp only [Sched.OS_PRIO_PCPU, OS_MUTEX_AVAILABLE] at this ⊢
  omega

lemma Inv.mutexAccept (h : s.Inv) (hpc : s.pc t = .idle) (hlock : s.lock = none) :
    (s.mutexAccept t).Inv := by
  rw [MutexSystem.mutexAccept]
  split_ifs with hcnt
  · exact (h.take hpc hlock hcnt (prio_ne_available t)).setLog _
  · exact h.setLog _

lemma Inv.mutexPend (h : s.Inv) (hpc : s.pc t = .idle) (hlock : s.lock = none) (timeout : ℕ) :
    (s.mutexPend t timeout).Inv := by
  rw [MutexSystem.mutexPend]
  split_ifs with hcnt
  · exact (h.take hpc hlock hcnt (pid_ne_available t)).setLog _
  · have htask := h.task t
    simp only [TaskOk, hpc] at htask
    obtain ⟨hcalm, -, hwaits⟩ := htask
    have hown : s.m.data = some t ↔ t ∈ s.holders := by
      have := h.owner t
      rwa [ownerNow_of_free hlock, or_iff_left (not_granted_of_pc (by simp [hpc]))] at this
    refine h.of_frame (t := t) ⟨fun u hu => Function.update_of_ne hu _ _,
      fun u hu => Function.update_of_ne hu _ _, fun _ _ => Iff.rfl, fun _ _ => Iff.rfl,
      fun u hu => Function.update_of_ne hu _ _, fun u hu => ?_⟩ ?_ ?_ h.wait h.avail (Or.inl rfl)
      ?_ ?_ (fun u hu => ?_) ?_ ?_
    · exact iff_of_false (fun heq => hu (Option.some.inj heq).symm) (by simp [hlock])
    · simp only [setPc, setTcb, Function.update_self]
      exact ⟨hwaits, Or.inl ⟨(hcalm.pend TASK_STAT_MUTEX timeout).setTaskSleep, rfl⟩⟩
    · simp [setPc, MutexPc.locked]
    · simp [setPc]
    · simp [setPc]
    · rw [ownerNow_of_marked (t := t) rfl (Function.update_self ..), ownerNow_of_free hlock]
      rfl
    · rw [ownerNow_of_marked (t := t) rfl (Function.update_self ..)]
      rw [or_iff_left (not_granted_of_pc (by simp [setPc]))]
      exact hown
    · intro _
      simpa [setPc, setTcb] using hown

lemma Inv.pendWait (h : s.Inv) (hpc : s.pc t = .marked) : (s.pendWait t).Inv := by
  have hlock : s.lock = some t := (h.lock t).2 (by rw [hpc]; rfl)
  have htask := h.task t
  simp only [TaskOk, hpc] at htask
  obtain ⟨hwaits, hcase⟩ := htask
  have hown : ¬ (s.pendWait t).Granted t := by
    rintro ⟨-, hnot, hok⟩
    rcases hcase with ⟨hpend, -⟩ | ⟨-, hto⟩
    · rw [show (s.pendWait t).tcb t = s.tcb t from rfl, hpend.taskIsPending waitBit_mutex] at hnot
      cases hnot
    · rw [show (s.pendWait t).tcb t = s.tcb t from rfl, hto] at hok
      cases hok
  have heq : (s.pendWait t).ownerNow = s.ownerNow := by
    rw [ownerNow_of_marked hlock hpc]
    exact ownerNow_of_free rfl
  refine h.of_frame (t := t) ⟨fun u hu => Function.update_of_ne hu _ _, fun _ _ => rfl,
    fun u hu => ?_, fun _ _ => Iff.rfl, fun _ _ => rfl, fun u hu => ?_⟩ ?_ ?_
    (h.wait.eventTaskWait hwaits) h.avail (Or.inl rfl) ?_ ?_ (fun u hu => by rw [heq]) ?_ ?_
  · exact Waiters.waits_eventTaskWait.trans (by simp [hu, Waits])
  · exact iff_of_false nofun (by simpa [hlock] using hu.symm)
  · have hw : (s.pendWait t).Waits t := Waiters.waits_eventTaskWait.2 (Or.inr rfl)
    simp only [MutexSystem.pendWait, setPc, Function.update_self]
    rcases hcase with ⟨hpend, hrdy⟩ | hto
    · exact Or.inl ⟨hpend, hrdy, hw⟩
    · exact Or.inr (Or.inl hto)
  · simp [MutexSystem.pendWait, setPc, MutexPc.locked]
  · simp [MutexSystem.pendWait, setPc]
  · simp [MutexSystem.pendWait, setPc]
  · rw [heq, h.owner t, or_iff_left hown, or_iff_left (not_granted_of_pc (by simp [hpc]))]
    rfl
  · exact fun _ => h.called t (by rw [hpc]; rfl)

/-- A task that sleeps and is ready again was readied by a post or by its timer. -/
lemma Inv.resume_cases (h : s.Inv) (hpc : s.pc t = .waiting) (hrdy : (s.tcb t).rdy = true) :
    (s.tcb t).Calm ∧ ((s.tcb t).pendStat = .to ∨ (s.tcb t).pendStat = .ok ∧ ¬ s.Waits t) := by
  have htask := h.task t
  simp only [TaskOk, hpc] at htask
  rcases htask with ⟨-, hsleep, -⟩ | ⟨hcalm, hto⟩ | ⟨hcalm, hok⟩
  · rw [hrdy] at hsleep
    cases hsleep
  · exact ⟨hcalm, Or.inl hto⟩
  · exact ⟨hcalm, Or.inr hok⟩

lemma Inv.lock_ne (h : s.Inv) (hpc : (s.pc t).locked = false) : s.lock ≠ some t := by
  rw [Ne, h.lock t, hpc]
  exact Bool.false_ne_true

lemma Inv.pendResume (h : s.Inv) (hpc : s.pc t = .waiting) (hrdy : (s.tcb t).rdy = true) :
    (s.pendResume t).Inv := by
  obtain ⟨hcalm, hcase⟩ := h.resume_cases hpc hrdy
  have hlock : s.lock ≠ some t := h.lock_ne (by rw [hpc]; rfl)
  rcases hcase with hto | ⟨hok, hwaits⟩
  · have hf : Frame s (s.setPc t .timedOut) t := ⟨fun u hu => Function.update_of_ne hu _ _,
      fun _ _ => rfl, fun _ _ => Iff.rfl, fun _ _ => Iff.rfl, fun _ _ => rfl, fun _ _ => Iff.rfl⟩
    have heq : (s.setPc t .timedOut).ownerNow = s.ownerNow := hf.ownerNow rfl rfl hlock
    simp only [MutexSystem.pendResume, hto]
    refine h.of_frame hf ?_ ?_ h.wait h.avail (Or.inl rfl) ?_ ?_ (fun u hu => by rw [heq]) ?_ ?_
    · simpa [setPc, TaskOk] using And.intro hcalm hto
    · simpa [setPc, MutexPc.locked] using hlock
    · simp [setPc]
    · simp [setPc]
    · have hng : ¬ s.Granted t := by
        rintro ⟨-, -, hok⟩
        rw [hto] at hok
        cases hok
      rw [heq, h.owner t, or_iff_left hng, or_iff_left (not_granted_of_pc (by simp [setPc]))]
      rfl
    · exact fun _ => h.called t (by rw [hpc]; rfl)
  · have hg : s.Granted t := ⟨hpc, hcalm.not_pending, hok⟩
    have hown : s.ownerNow = some t := (h.owner t).2 (Or.inr hg)
    simp only [MutexSystem.pendResume, hok]
    have hf : Frame s { s.setPc t .idle with
        holders := insert t s.holders, log := .pended t 0 :: s.log } t :=
      ⟨fun u hu => Function.update_of_ne hu _ _, fun _ _ => rfl, fun _ _ => Iff.rfl,
        fun u hu => by simp [hu], fun _ _ => rfl, fun _ _ => Iff.rfl⟩
    have heq := hf.ownerNow rfl rfl hlock
    refine h.of_frame hf ?_ ?_ h.wait h.avail (Or.inl rfl) ?_ ?_ (fun u hu => by rw [heq]) ?_ ?_
    · show TaskOk (Function.update s.pc t .idle t) (s.tcb t) (s.Waits t)
      rw [Function.update_self]
      exact ⟨hcalm, hok, hwaits⟩
    · simpa [setPc, MutexPc.locked] using hlock
    · simp [setPc]
    · simp [setPc]
    · rw [heq]
      exact iff_of_true hown (Or.inl (Finset.mem_insert_self t _))
    · simp [setPc, MutexPc.pends]

lemma Inv.pendRemove (h : s.Inv) (hpc : s.pc t = .timedOut) (hlock : s.lock = none) :
    (s.pendRemove t).Inv := by
  have htask := h.task t
  simp only [TaskOk, hpc] at htask
  have hfree : (s.pendRemove t).lock = none := hlock
  have heq : (s.pendRemove t).ownerNow = s.ownerNow := by
    rw [ownerNow_of_free hfree, ownerNow_of_free hlock]
    rfl
  have hwaits : ∀ u, (s.pendRemove t).Waits u ↔ s.Waits u ∧ u ≠ t :=
    fun u => Waiters.waits_eventTaskRemove h.wait _
  refine h.of_frame (t := t) ⟨fun u hu => Function.update_of_ne hu _ _,
    fun u hu => Function.update_of_ne hu _ _, fun u hu => ?_, fun _ _ => Iff.rfl, fun _ _ => rfl,
    fun _ _ => Iff.rfl⟩ ?_ ?_ (h.wait.eventTaskRemove _) h.avail (Or.inl rfl) ?_ ?_
    (fun u hu => by rw [heq]) ?_ ?_
  · rw [hwaits]
    simp [hu]
  · have hnot : ¬ (s.pendRemove t).Waits t := by simp [hwaits]
    simp only [MutexSystem.pendRemove, setPc, setTcb, Function.update_self]
    exact ⟨⟨htask.1.stat, htask.1.rdy⟩, rfl, hnot⟩
  · rw [hfree]
    simp [MutexSystem.pendRemove, setPc, MutexPc.locked]
  · simp [MutexSystem.pendRemove, setPc]
  · simp [MutexSystem.pendRemove, setPc]
  · rw [heq, h.owner t, or_iff_left (not_granted_of_pc (by simp [hpc])),
      or_iff_left (not_granted_of_pc (by simp [MutexSystem.pendRemove, setPc]))]
    rfl
  · simp [MutexSystem.pendRemove, setPc, MutexPc.pends]

lemma Inv.mutexPost (h : s.Inv) (hpc : s.pc t = .idle) (hlock : s.lock = none) :
    (s.mutexPost t).Inv := by
  rw [MutexSystem.mutexPost]
  split_ifs with hdata
  · exact h.setLog _
  · rw [not_not] at hdata
    have htask := h.task t
    simp only [TaskOk, hpc] at htask
    have hnone : ({ s.setPc t .posting with
        lock := some t, holders := s.holders.erase t } : MutexSystem).ownerNow = none :=
      ownerNow_of_posting rfl (Function.update_self ..)
    refine h.of_frame (t := t) ⟨fun u hu => Function.update_of_ne hu _ _, fun _ _ => rfl,
      fun _ _ => Iff.rfl, fun u hu => by simp [hu], fun _ _ => rfl, fun u hu => ?_⟩ ?_ ?_ h.wait
      h.avail (Or.inl rfl) ?_ ?_ (fun u hu => ?_) ?_ ?_
    · exact iff_of_false (fun heq => hu (Option.some.inj heq).symm) (by simp [hlock])
    · show TaskOk (Function.update s.pc t .posting t) (s.tcb t) (s.Waits t)
      rw [Function.update_self]
      exact htask
    · simp [setPc, MutexPc.locked]
    · exact fun _ => hdata
    · exact fun _ _ => hdata
    · rw [hnone, ownerNow_of_free hlock, hdata]
      exact iff_of_false nofun fun heq => hu (Option.some.inj heq).symm
    · rw [hnone]
      refine iff_of_false nofun ?_
      simp [Granted, setPc]
    · simp [setPc, MutexPc.pends]

lemma Inv.handOver (h : s.Inv) (hpc : s.pc t = .handing w) : (s.handOver t w).Inv := by
  have hlock : s.lock = some t := (h.lock t).2 (by rw [hpc]; rfl)
  have htask := h.task t
  simp only [TaskOk, hpc] at htask
  have heq : (s.handOver t w).ownerNow = s.ownerNow := by
    rw [ownerNow_of_handing hlock hpc]
    exact ownerNow_of_free rfl
  refine h.of_frame (t := t) ⟨fun u hu => Function.update_of_ne hu _ _, fun _ _ => rfl,
    fun _ _ => Iff.rfl, fun _ _ => Iff.rfl, fun _ _ => rfl, fun u hu => ?_⟩ ?_ ?_ h.wait ?_
    (Or.inr ?_) ?_ ?_ (fun u hu => by rw [heq]) ?_ ?_
  · exact iff_of_false nofun (by simpa [hlock] using hu.symm)
  · show TaskOk (Function.update s.pc t .idle t) (s.tcb t) (s.Waits t)
    rw [Function.update_self]
    exact htask
  · simp [MutexSystem.handOver, setPc, MutexPc.locked]
  · exact iff_of_false (pid_ne_available w) nofun
  · intro u hu heq
    exact hu (Option.some.inj (hlock.symm.trans heq)).symm
  · simp [MutexSystem.handOver, setPc]
  · simp [MutexSystem.handOver, setPc]
  · rw [heq, h.owner t, or_iff_left (not_granted_of_pc (by simp [hpc])),
      or_iff_left (not_granted_of_pc (by simp [MutexSystem.handOver, setPc]))]
    rfl
  · simp [MutexSystem.handOver, setPc, MutexPc.pends]

/-- A task on the wait set that is still pending sleeps in `mutex_pend`. -/
lemma Inv.pendingWaiter (h : s.Inv) (hw : s.Waits w) (hp : taskIsPending (s.tcb w).stat = true) :
    s.pc w = .waiting ∧ (s.tcb w).Pending TASK_STAT_MUTEX := by
  have htask := h.task w
  have hcalm : ¬ (s.tcb w).Calm := fun hc => by
    rw [hc.not_pending] at hp
    cases hp
  cases hpc : s.pc w with
  | idle | posting | handing _ =>
    simp only [TaskOk, hpc] at htask
    exact absurd hw htask.2.2
  | marked =>
    simp only [TaskOk, hpc] at htask
    exact absurd hw htask.1
  | waiting =>
    simp only [TaskOk, hpc] at htask
    rcases htask with ⟨hpend, -⟩ | ⟨hc, -⟩ | ⟨hc, -⟩
    · exact ⟨rfl, hpend⟩
    · exact absurd hc hcalm
    · exact absurd hc hcalm
  | timedOut =>
    simp only [TaskOk, hpc] at htask
    exact absurd htask.1 hcalm

/-- A task on the wait set that is not pending any more may as well not be there. -/
lemma TaskOk.of_not_pending {pc : MutexPc} {tcb : Tcb Unit} {waits : Prop}
    (h : TaskOk pc tcb waits) (hw : waits) (hp : taskIsPending tcb.stat = false) {waits' : Prop} :
    TaskOk pc tcb waits' := by
  cases pc with
  | idle | posting | handing _ => exact absurd hw h.2.2
  | marked => exact absurd hw h.1
  | waiting =>
    rcases h with ⟨hpend, -⟩ | hto | ⟨-, -, hnot⟩
    · rw [hpend.taskIsPending waitBit_mutex] at hp
      cases hp
    · exact Or.inr (Or.inl hto)
    · exact absurd hw hnot
  | timedOut => exact h

/-- A waiter that has timed out goes off the wait set, and nothing else changes. -/
lemma Inv.skip (h : s.Inv) (hw : s.Waits w) (hp : taskIsPending (s.tcb w).stat = false)
    (stat : BitVec 16) :
    { s with m := { s.m with waiters := (s.m.waiters.eventTaskRemove stat w).1 } }.Inv := by
  have hwaits : ∀ u, (s.m.waiters.eventTaskRemove stat w).1.Waits u ↔ s.Waits u ∧ u ≠ w :=
    fun u => Waiters.waits_eventTaskRemove h.wait stat
  refine ⟨fun u => ?_, h.lock, h.wait.eventTaskRemove stat, h.avail, h.posting, h.handing, h.owner,
    h.called⟩
  by_cases hu : u = w
  · subst hu
    exact (h.task u).of_not_pending hw hp
  · have heq : (s.m.waiters.eventTaskRemove stat w).1.Waits u ↔ s.Waits u := by
      rw [hwaits]
      simp [hu]
    show TaskOk (s.pc u) (s.tcb u) ((s.m.waiters.eventTaskRemove stat w).1.Waits u)
    rw [heq]
    exact h.task u

lemma Inv.none_of_posting (h : s.Inv) (hpc : s.pc t = .posting) (u : TaskId) :
    u ∉ s.holders ∧ ¬ s.Granted u := by
  have := h.owner u
  rw [ownerNow_of_posting ((h.lock t).2 (by rw [hpc]; rfl)) hpc] at this
  simpa using this

lemma Inv.granted_readyWaiter (h : s.Inv) (hpc : s.pc t = .posting) (hw : s.Waits w)
    (hp : taskIsPending (s.tcb w).stat = true) (remote : Bool) :
    (s.readyWaiter t w remote).Granted u ↔ u = w := by
  obtain ⟨hpw, hpend⟩ := h.pendingWaiter hw hp
  have hwt : w ≠ t := by
    rintro rfl
    rw [hpc] at hpw
    cases hpw
  by_cases huw : u = w
  · subst huw
    refine iff_of_true ⟨?_, ?_, ?_⟩ rfl
    · simpa [readyWaiter, setPc, setTcb, hwt] using hpw
    · simpa [readyWaiter, setPc, setTcb] using
        (hpend.eventTaskReady waitBit_mutex remote none .ok).not_pending
    · simp [readyWaiter, setPc, setTcb, Tcb.eventTaskReady, Tcb.setTaskReady]
  · refine iff_of_false (fun hg => ?_) huw
    by_cases hut : u = t
    · subst hut
      exact absurd hg.1 (by simp [readyWaiter, setPc])
    · refine (h.none_of_posting hpc u).2 ?_
      simpa [Granted, readyWaiter, setPc, setTcb, huw, hut] using hg

lemma Inv.readyWaiter (h : s.Inv) (hpc : s.pc t = .posting) (hw : s.Waits w)
    (hp : taskIsPending (s.tcb w).stat = true) (remote : Bool) :
    (s.readyWaiter t w remote).Inv := by
  obtain ⟨hpw, hpend⟩ := h.pendingWaiter hw hp
  have hlock : s.lock = some t := (h.lock t).2 (by rw [hpc]; rfl)
  have hwaits : ∀ u, (s.readyWaiter t w remote).Waits u ↔ s.Waits u ∧ u ≠ w :=
    fun u => Waiters.waits_eventTaskRemove h.wait _
  have hpcne : ∀ u, u ≠ t → (s.readyWaiter t w remote).pc u = s.pc u :=
    fun u hu => Function.update_of_ne hu _ _
  have hpct : (s.readyWaiter t w remote).pc t = .handing w := Function.update_self ..
  have htcb : ∀ u, u ≠ w → (s.readyWaiter t w remote).tcb u = s.tcb u :=
    fun u hu => Function.update_of_ne hu _ _
  have hwt : w ≠ t := by
    rintro rfl
    rw [hpc] at hpw
    cases hpw
  refine ⟨fun u => ?_, fun u => ?_, h.wait.eventTaskRemove _, h.avail, fun u hu => ?_,
    fun u v hu => ?_, fun u => ?_, fun u hu => ?_⟩
  · by_cases huw : u = w
    · subst huw
      have hnot : ¬ (s.readyWaiter t u remote).Waits u := by simp [hwaits]
      rw [hpcne u hwt, hpw]
      refine Or.inr (Or.inr ⟨?_, ?_, hnot⟩)
      · simpa [MutexSystem.readyWaiter, setPc, setTcb] using
          hpend.eventTaskReady waitBit_mutex remote none .ok
      · simp [MutexSystem.readyWaiter, setPc, setTcb, Tcb.eventTaskReady, Tcb.setTaskReady]
    · have heq : (s.readyWaiter t w remote).Waits u ↔ s.Waits u := by simp [hwaits, huw]
      rw [heq, htcb u huw]
      by_cases hut : u = t
      · subst hut
        have := h.task u
        rw [hpc] at this
        rw [hpct]
        exact this
      · rw [hpcne u hut]
        exact h.task u
  · by_cases hut : u = t
    · subst hut
      rw [hpct]
      exact iff_of_true hlock rfl
    · rw [hpcne u hut]
      exact h.lock u
  · by_cases hut : u = t
    · exact hut ▸ h.posting t hpc
    · exact h.posting u (by rwa [hpcne u hut] at hu)
  · by_cases hut : u = t
    · exact hut ▸ h.posting t hpc
    · exact h.handing u v (by rwa [hpcne u hut] at hu)
  · have hlock' : (s.readyWaiter t w remote).lock = some t := hlock
    have hnot : u ∉ (s.readyWaiter t w remote).holders := (h.none_of_posting hpc u).1
    rw [ownerNow_of_handing hlock' hpct, h.granted_readyWaiter hpc hw hp, or_iff_right hnot,
      Option.some.injEq, eq_comm]
  · by_cases hut : u = t
    · rw [hut, hpct] at hu
      cases hu
    · exact h.called u (by rwa [hpcne u hut] at hu)

lemma Inv.eventHighestTaskReady (h : s.Inv) (hpc : s.pc t = .posting) (remote : Bool) :
    (s.eventHighestTaskReady t remote).Inv := by
  rw [MutexSystem.eventHighestTaskReady]
  cases hget : s.m.waiters.eventGetWaiter with
  | none =>
    have hlock : s.lock = some t := (h.lock t).2 (by rw [hpc]; rfl)
    have hnone := h.none_of_posting hpc
    refine h.of_frame (t := t) ⟨fun u hu => Function.update_of_ne hu _ _, fun _ _ => rfl,
      fun _ _ => Iff.rfl, fun _ _ => Iff.rfl, fun _ _ => rfl, fun u hu => ?_⟩ ?_ ?_ h.wait
      (iff_of_true rfl rfl) (Or.inr ?_) ?_ ?_ (fun u hu => ?_) ?_ ?_
    · exact iff_of_false nofun (by simpa [hlock] using hu.symm)
    · have := h.task t
      rw [hpc] at this
      show TaskOk (Function.update s.pc t .idle t) (s.tcb t) (s.Waits t)
      rw [Function.update_self]
      exact this
    · simp [setPc, MutexPc.locked]
    · intro u hu heq
      exact hu (Option.some.inj (hlock.symm.trans heq)).symm
    · simp [setPc]
    · simp [setPc]
    · rw [ownerNow_of_free rfl, ownerNow_of_posting hlock hpc]
    · rw [ownerNow_of_free rfl]
      refine iff_of_false nofun (not_or.2 ⟨(hnone t).1, not_granted_of_pc ?_⟩)
      simp [setPc]
    · simp [setPc, MutexPc.pends]
  | some w =>
    have hw : s.Waits w := Waiters.waits_of_eventGetWaiter h.wait hget
    have hret := Waiters.eventTaskRemove_eq_zero hw (s.tcb w).stat
    dsimp only
    split_ifs with hzero
    · exact h.readyWaiter hpc hw (hret.1 hzero) remote
    · exact h.skip hw (by simpa using mt hret.2 hzero) _

lemma granted_setTcb {tcb : Tcb Unit} (hp : taskIsPending tcb.stat = taskIsPending (s.tcb t).stat)
    (hok : tcb.pendStat = (s.tcb t).pendStat) : (s.setTcb t tcb).Granted u ↔ s.Granted u := by
  by_cases hu : u = t
  · subst hu
    simp [Granted, setTcb, hp, hok]
  · simp [Granted, setTcb, hu]

lemma Inv.setTcb {tcb : Tcb Unit} (h : s.Inv) (htask : TaskOk (s.pc t) tcb (s.Waits t))
    (hg : (s.setTcb t tcb).Granted t ↔ s.Granted t) : (s.setTcb t tcb).Inv := by
  have hne : ∀ u, u ≠ t → (s.setTcb t tcb).tcb u = s.tcb u :=
    fun u hu => Function.update_of_ne hu _ _
  refine ⟨fun u => ?_, h.lock, h.wait, h.avail, h.posting, h.handing, fun u => ?_, h.called⟩
  · show TaskOk (s.pc u) (Function.update s.tcb t tcb u) (s.Waits u)
    by_cases hu : u = t
    · subst hu
      rw [Function.update_self]
      exact htask
    · rw [Function.update_of_ne hu]
      exact h.task u
  · by_cases hu : u = t
    · subst hu
      rw [hg]
      exact h.owner u
    · have : (s.setTcb t tcb).Granted u ↔ s.Granted u := by
        rw [Granted, Granted, hne u hu]
        rfl
      rw [this]
      exact h.owner u

/-- In all places but those where a task sleeps, it is not pending. -/
lemma TaskOk.cases {pc : MutexPc} {tcb : Tcb Unit} {waits : Prop} (h : TaskOk pc tcb waits) :
    tcb.Calm ∨ tcb.Pending TASK_STAT_MUTEX ∧ tcb.rdy = false := by
  cases pc with
  | idle | posting | handing _ => exact Or.inl h.1
  | marked =>
    rcases h.2 with hp | hc
    · exact Or.inr hp
    · exact Or.inl hc.1
  | waiting =>
    rcases h with ⟨hp, hr, -⟩ | ⟨hc, -⟩ | ⟨hc, -⟩
    · exact Or.inr ⟨hp, hr⟩
    · exact Or.inl hc
    · exact Or.inl hc
  | timedOut => exact Or.inl h.1

lemma TaskOk.of_calm {pc : MutexPc} {tcb tcb' : Tcb Unit} {waits : Prop} (h : TaskOk pc tcb waits)
    (hc : tcb.Calm) (hc' : tcb'.Calm) (hp : tcb'.pendStat = tcb.pendStat) :
    TaskOk pc tcb' waits := by
  have hnot : ¬ tcb.Pending TASK_STAT_MUTEX := by
    intro hpend
    have := hpend.taskIsPending waitBit_mutex
    rw [hc.not_pending] at this
    cases this
  cases pc with
  | idle | posting | handing _ => exact ⟨hc', hp.trans h.2.1, h.2.2⟩
  | marked =>
    rcases h with ⟨hw, ⟨hpend, -⟩ | ⟨-, hto⟩⟩
    · exact absurd hpend hnot
    · exact ⟨hw, Or.inr ⟨hc', hp.trans hto⟩⟩
  | waiting =>
    rcases h with ⟨hpend, -⟩ | ⟨-, hto⟩ | ⟨-, hok, hw⟩
    · exact absurd hpend hnot
    · exact Or.inr (Or.inl ⟨hc', hp.trans hto⟩)
    · exact Or.inr (Or.inr ⟨hc', hp.trans hok, hw⟩)
  | timedOut => exact ⟨hc', hp.trans h.2⟩

/-- The timer of a task that sleeps. -/
lemma TaskOk.timeout {pc : MutexPc} {tcb : Tcb Unit} {waits : Prop} (h : TaskOk pc tcb waits)
    (hpend : tcb.Pending TASK_STAT_MUTEX) : TaskOk pc tcb.taskTimeoutHandler waits := by
  obtain ⟨hcalm, hto, -⟩ := hpend.taskTimeoutHandler waitBit_mutex
  have hnot : ¬ tcb.Calm := by
    intro hc
    have := hpend.taskIsPending waitBit_mutex
    rw [hc.not_pending] at this
    cases this
  cases pc with
  | idle | posting | handing _ => exact absurd h.1 hnot
  | marked => exact ⟨h.1, Or.inr ⟨hcalm, hto⟩⟩
  | waiting => exact Or.inr (Or.inl ⟨hcalm, hto⟩)
  | timedOut => exact absurd h.1 hnot

lemma setTcb_self (s : MutexSystem) (t : TaskId) : s.setTcb t (s.tcb t) = s := by
  rw [setTcb, Function.update_eq_self]

lemma Inv.timeout (h : s.Inv) (t : TaskId) : (s.setTcb t (s.tcb t).taskTimeoutHandler).Inv := by
  rcases (h.task t).cases with hcalm | ⟨hpend, -⟩
  · rw [hcalm.taskTimeoutHandler, setTcb_self]
    exact h
  · refine h.setTcb ((h.task t).timeout hpend) (iff_of_false ?_ ?_)
    · rintro ⟨-, -, hok⟩
      simp only [MutexSystem.setTcb, Function.update_self] at hok
      rw [(hpend.taskTimeoutHandler waitBit_mutex).2.1] at hok
      cases hok
    · rintro ⟨-, hnot, -⟩
      rw [hpend.taskIsPending waitBit_mutex] at hnot
      cases hnot

lemma Inv.switchOut (h : s.Inv) (t : TaskId) : (s.setTcb t (s.tcb t).switchOut).Inv := by
  rcases (h.task t).cases with hcalm | ⟨hpend, -⟩
  · refine h.setTcb ((h.task t).of_calm hcalm hcalm.switchOut Tcb.switchOut_pendStat)
      (granted_setTcb ?_ Tcb.switchOut_pendStat)
    rw [hcalm.not_pending, hcalm.switchOut.not_pending]
  · rw [hpend.switchOut waitBit_mutex, setTcb_self]
    exact h

lemma Inv.switchTo (h : s.Inv) (hrdy : (s.tcb t).rdy = true) :
    (s.setTcb t (s.tcb t).switchTo).Inv := by
  rcases (h.task t).cases with hcalm | ⟨-, hsleep⟩
  · have hcalm' : (s.tcb t).switchTo.Calm :=
      ⟨show taskIsReady TASK_STAT_RUNNING = true by decide, hrdy⟩
    refine h.setTcb ((h.task t).of_calm hcalm hcalm' rfl) (granted_setTcb ?_ rfl)
    rw [hcalm.not_pending, hcalm'.not_pending]
  · rw [hrdy] at hsleep
    cases hsleep

lemma Inv.step (h : s.Inv) (e : MutexEvent) : (s.step e).Inv := by
  cases e with
  | accept t =>
    rw [MutexSystem.step]
    split_ifs with hg
    · exact h.mutexAccept hg.1 hg.2
    · exact h
  | pend t timeout =>
    rw [MutexSystem.step]
    split_ifs with hg
    · exact h.mutexPend hg.1 hg.2 timeout
    · exact h
  | wait t =>
    rw [MutexSystem.step]
    split_ifs with hg
    · exact h.pendWait hg
    · exact h
  | resume t =>
    rw [MutexSystem.step]
    split_ifs with hg
    · exact h.pendResume hg.1 hg.2
    · exact h
  | remove t =>
    rw [MutexSystem.step]
    split_ifs with hg
    · exact h.pendRemove hg.1 hg.2
    · exact h
  | post t =>
    rw [MutexSystem.step]
    split_ifs with hg
    · exact h.mutexPost hg.1 hg.2
    · exact h
  | ready t remote =>
    rw [MutexSystem.step]
    split_ifs with hg
    · exact h.eventHighestTaskReady hg remote
    · exact h
  | hand t =>
    cases hpc : s.pc t with
    | handing w =>
      simp only [MutexSystem.step, hpc]
      exact h.handOver hpc
    | idle | marked | waiting | timedOut | posting =>
      simp only [MutexSystem.step, hpc]
      exact h
  | timeout t => exact h.timeout t
  | switchOut t => exact h.switchOut t
  | switchTo t =>
    rw [MutexSystem.step]
    split_ifs with hg
    · exact h.switchTo hg
    · exact h

/-! ### What the steps return -/

lemma mutexAccept_log (s : MutexSystem) (t : TaskId) :
    ∃ ret, (s.mutexAccept t).log = .accepted t ret :: s.log := by
  rw [mutexAccept]
  split_ifs
  · exact ⟨_, rfl⟩
  · exact ⟨_, rfl⟩

lemma mutexPend_log (s : MutexSystem) (t : TaskId) (timeout : ℕ) :
    (s.mutexPend t timeout).log = s.log ∨ (s.mutexPend t timeout).log = .pended t 0 :: s.log := by
  rw [mutexPend]
  split_ifs
  · exact Or.inr rfl
  · exact Or.inl rfl

lemma pendResume_log (s : MutexSystem) (t : TaskId) :
    (s.pendResume t).log = s.log ∨ (s.pendResume t).log = .pended t 0 :: s.log ∨
      (s.pendResume t).log = .pended t (-EABORT) :: s.log := by
  rw [pendResume]
  split
  · exact Or.inr (Or.inl rfl)
  · exact Or.inr (Or.inr rfl)
  · exact Or.inl rfl

lemma mutexPost_log (s : MutexSystem) (t : TaskId) :
    (s.mutexPost t).log = s.log ∨ (s.mutexPost t).log = .posted t (-EINVAL) :: s.log := by
  rw [mutexPost]
  split_ifs
  · exact Or.inr rfl
  · exact Or.inl rfl

lemma eventHighestTaskReady_log (s : MutexSystem) (t : TaskId) (remote : Bool) :
    (s.eventHighestTaskReady t remote).log = s.log ∨
      s.m.waiters.eventGetWaiter = none ∧
        (s.eventHighestTaskReady t remote).log = .posted t 0 :: s.log := by
  rw [eventHighestTaskReady]
  cases s.m.waiters.eventGetWaiter with
  | none => exact Or.inr ⟨rfl, rfl⟩
  | some w =>
    dsimp only
    split_ifs
    · exact Or.inl rfl
    · exact Or.inl rfl

/-- What a step can add to the log. -/
lemma step_log (s : MutexSystem) (e : MutexEvent) : (s.step e).log = s.log ∨
    (∃ t ret, (s.step e).log = .accepted t ret :: s.log) ∨
    (∃ t, (s.step e).log = .pended t 0 :: s.log ∨ (s.step e).log = .pended t (-EABORT) :: s.log) ∨
    (∃ t, (s.step e).log = .posted t (-EINVAL) :: s.log) ∨
    (∃ t, s.pc t = .timedOut ∧ s.step e = s.pendRemove t) ∨
    (∃ t remote, s.pc t = .posting ∧ s.m.waiters.eventGetWaiter = none ∧
      s.step e = s.eventHighestTaskReady t remote) ∨
    ∃ t w, s.pc t = .handing w ∧ s.step e = s.handOver t w := by
  cases e with
  | accept t =>
    rw [step]
    split_ifs with hg
    · obtain ⟨ret, hlog⟩ := s.mutexAccept_log t
      exact Or.inr (Or.inl ⟨t, ret, hlog⟩)
    · exact Or.inl rfl
  | pend t timeout =>
    rw [step]
    split_ifs with hg
    · rcases s.mutexPend_log t timeout with hlog | hlog
      · exact Or.inl hlog
      · exact Or.inr (Or.inr (Or.inl ⟨t, Or.inl hlog⟩))
    · exact Or.inl rfl
  | wait t =>
    rw [step]
    split_ifs
    · exact Or.inl rfl
    · exact Or.inl rfl
  | resume t =>
    rw [step]
    split_ifs with hg
    · rcases s.pendResume_log t with hlog | hlog
      · exact Or.inl hlog
      · exact Or.inr (Or.inr (Or.inl ⟨t, hlog⟩))
    · exact Or.inl rfl
  | remove t =>
    rw [step]
    split_ifs with hg
    · exact Or.inr (Or.inr (Or.inr (Or.inr (Or.inl ⟨t, hg.1, rfl⟩))))
    · exact Or.inl rfl
  | post t =>
    rw [step]
    split_ifs with hg
    · rcases s.mutexPost_log t with hlog | hlog
      · exact Or.inl hlog
      · exact Or.inr (Or.inr (Or.inr (Or.inl ⟨t, hlog⟩)))
    · exact Or.inl rfl
  | ready t remote =>
    rw [step]
    split_ifs with hg
    · rcases s.eventHighestTaskReady_log t remote with hlog | ⟨hget, -⟩
      · exact Or.inl hlog
      · exact Or.inr (Or.inr (Or.inr (Or.inr (Or.inr (Or.inl ⟨t, remote, hg, hget, rfl⟩)))))
    · exact Or.inl rfl
  | hand t =>
    cases hpc : s.pc t with
    | handing w =>
      simp only [step, hpc]
      exact Or.inr (Or.inr (Or.inr (Or.inr (Or.inr (Or.inr ⟨t, w, hpc, rfl⟩)))))
    | idle | marked | waiting | timedOut | posting =>
      refine Or.inl ?_
      simp only [step, hpc]
  | timeout t => exact Or.inl rfl
  | switchOut t => exact Or.inl rfl
  | switchTo t =>
    rw [step]
    split_ifs
    · exact Or.inl rfl
    · exact Or.inl rfl

/-- A post that returns 0 has found a waiter or no waiter. -/
lemma step_posted (hlog : (s.step e).log = .posted t 0 :: s.log) :
    (∃ w, s.pc t = .handing w ∧ s.step e = s.handOver t w) ∨
    ∃ remote, s.pc t = .posting ∧ s.m.waiters.eventGetWaiter = none ∧
      s.step e = s.eventHighestTaskReady t remote := by
  rcases s.step_log e with h | ⟨u, ret, h⟩ | ⟨u, h | h⟩ | ⟨u, h⟩ | ⟨u, -, h⟩ |
    ⟨u, remote, hpc, hget, h⟩ | ⟨u, w, hpc, h⟩
  · simp [h] at hlog
  · simp [h] at hlog
  · simp [h] at hlog
  · simp [h] at hlog
  · simp [h, EINVAL] at hlog
  · simp [h, pendRemove] at hlog
  · have hu : (s.step e).log = .posted u 0 :: s.log := by
      rw [h, eventHighestTaskReady, hget]
    obtain rfl : u = t := by simpa [hu] using hlog
    exact Or.inr ⟨remote, hpc, hget, h⟩
  · obtain rfl : u = t := by simpa [h, handOver] using hlog
    exact Or.inl ⟨w, hpc, h⟩

lemma step_timedOut (hlog : (s.step e).log = .pended t (-ETIMEDOUT) :: s.log) :
    s.pc t = .timedOut ∧ s.step e = s.pendRemove t := by
  rcases s.step_log e with h | ⟨u, ret, h⟩ | ⟨u, h | h⟩ | ⟨u, h⟩ | ⟨u, hpc, h⟩ |
    ⟨u, remote, hpc, hget, h⟩ | ⟨u, w, hpc, h⟩
  · simp [h] at hlog
  · simp [h] at hlog
  · simp [h, ETIMEDOUT] at hlog
  · simp [h, ETIMEDOUT, EABORT] at hlog
  · simp [h] at hlog
  · obtain rfl : u = t := by simpa [h, pendRemove] using hlog
    exact ⟨hpc, h⟩
  · simp [h, eventHighestTaskReady, hget] at hlog
  · simp [h, handOver] at hlog

/-- A post finds a waiter only in a round of `event_highest_task_ready`. -/
lemma step_handing (hnew : (s.step e).pc t = .handing w) (hold : s.pc t ≠ .handing w) :
    ∃ remote, s.pc t = .posting ∧ s.m.waiters.eventGetWaiter = some w ∧
      (s.m.waiters.eventTaskRemove (s.tcb w).stat w).2 = 0 ∧
      s.step e = s.readyWaiter t w remote := by
  have hset : ∀ {s'' : MutexSystem} {u : TaskId} {pc : MutexPc},
      s''.pc = Function.update s.pc u pc → s''.pc t = .handing w → u = t ∧ pc = .handing w := by
    intro s'' u pc hpc hh
    rw [hpc] at hh
    by_cases hu : t = u
    · subst hu
      rw [Function.update_self] at hh
      exact ⟨rfl, hh⟩
    · rw [Function.update_of_ne hu] at hh
      exact absurd hh hold
  cases e with
  | accept u =>
    rw [step] at hnew
    split_ifs at hnew
    · rw [mutexAccept] at hnew
      split_ifs at hnew
      · exact absurd hnew hold
      · exact absurd hnew hold
    · exact absurd hnew hold
  | pend u timeout =>
    rw [step] at hnew
    split_ifs at hnew
    · rw [mutexPend] at hnew
      split_ifs at hnew
      · exact absurd hnew hold
      · cases (hset rfl hnew).2
    · exact absurd hnew hold
  | wait u =>
    rw [step] at hnew
    split_ifs at hnew
    · cases (hset rfl hnew).2
    · exact absurd hnew hold
  | resume u =>
    rw [step] at hnew
    split_ifs at hnew
    · rw [pendResume] at hnew
      split at hnew
      · cases (hset rfl hnew).2
      · cases (hset rfl hnew).2
      · cases (hset rfl hnew).2
    · exact absurd hnew hold
  | remove u =>
    rw [step] at hnew
    split_ifs at hnew
    · cases (hset rfl hnew).2
    · exact absurd hnew hold
  | post u =>
    rw [step] at hnew
    split_ifs at hnew
    · rw [mutexPost] at hnew
      split_ifs at hnew
      · exact absurd hnew hold
      · cases (hset rfl hnew).2
    · exact absurd hnew hold
  | ready u remote =>
    rw [step] at hnew ⊢
    split_ifs at hnew ⊢ with hg
    · rw [eventHighestTaskReady] at hnew ⊢
      cases hget : s.m.waiters.eventGetWaiter with
      | none =>
        simp only [hget] at hnew
        cases (hset rfl hnew).2
      | some v =>
        simp only [hget] at hnew ⊢
        split_ifs at hnew ⊢ with hzero
        · obtain ⟨rfl, hv⟩ := hset rfl hnew
          obtain rfl := MutexPc.handing.inj hv
          exact ⟨remote, hg, rfl, hzero, rfl⟩
        · exact absurd hnew hold
    · exact absurd hnew hold
  | hand u =>
    cases hpc : s.pc u with
    | handing v =>
      simp only [step, hpc] at hnew
      cases (hset rfl hnew).2
    | idle | marked | waiting | timedOut | posting =>
      simp only [step, hpc] at hnew
      exact absurd hnew hold
  | timeout u => exact absurd hnew hold
  | switchOut u => exact absurd hnew hold
  | switchTo u =>
    rw [step] at hnew
    split_ifs at hnew
    · exact absurd hnew hold
    · exact absurd hnew hold

/-! ### The waiter that was readied -/

lemma Granted.of_eq (h : s.Granted t) (hpc : s'.pc t = s.pc t) (htcb : s'.tcb t = s.tcb t) :
    s'.Granted t := by
  rw [Granted, hpc, htcb]
  exact h

lemma Inv.granted_calm (h : s.Inv) (hg : s.Granted t) : (s.tcb t).Calm := by
  rcases (h.task t).cases with hcalm | ⟨hpend, -⟩
  · exact hcalm
  · have := hg.2.1
    rw [hpend.taskIsPending waitBit_mutex] at this
    cases this

lemma Inv.resume_granted (h : s.Inv) (hg : s.Granted t) :
    (s.step (.resume t)).log = .pended t 0 :: s.log := by
  rw [MutexSystem.step, if_pos ⟨hg.1, (h.granted_calm hg).rdy⟩]
  simp only [MutexSystem.pendResume, hg.2.2]

/-- The waiter stays ready whatever the others and its timer do. -/
lemma Inv.granted_step (h : s.Inv) (hg : s.Granted t) (e : MutexEvent) :
    (s.step e).Granted t ∨ (s.step e).log = .pended t 0 :: s.log := by
  have hcalm := h.granted_calm hg
  have hne : ∀ {u pc}, s.pc u = pc → pc ≠ .waiting → t ≠ u := by
    rintro u pc hpc hpc' rfl
    exact hpc' (hpc.symm.trans hg.1)
  have hset : ∀ {s'' : MutexSystem} {u : TaskId} {pc : MutexPc}, t ≠ u →
      s''.pc = Function.update s.pc u pc → s''.tcb t = s.tcb t → s''.Granted t :=
    fun hu hpc htcb => hg.of_eq (by rw [hpc, Function.update_of_ne hu]) htcb
  cases e with
  | accept u =>
    rw [MutexSystem.step]
    split_ifs
    · rw [MutexSystem.mutexAccept]
      split_ifs
      · exact Or.inl (hg.of_eq rfl rfl)
      · exact Or.inl (hg.of_eq rfl rfl)
    · exact Or.inl hg
  | pend u timeout =>
    rw [MutexSystem.step]
    split_ifs with hu
    · have htu := hne hu.1 nofun
      rw [MutexSystem.mutexPend]
      split_ifs
      · exact Or.inl (hg.of_eq rfl rfl)
      · exact Or.inl (hset htu rfl (Function.update_of_ne htu _ _))
    · exact Or.inl hg
  | wait u =>
    rw [MutexSystem.step]
    split_ifs with hu
    · exact Or.inl (hset (hne hu nofun) rfl rfl)
    · exact Or.inl hg
  | resume u =>
    by_cases htu : t = u
    · subst htu
      exact Or.inr (h.resume_granted hg)
    · rw [MutexSystem.step]
      split_ifs with hu
      · rw [MutexSystem.pendResume]
        split
        · exact Or.inl (hset htu rfl rfl)
        · exact Or.inl (hset htu rfl (Function.update_of_ne htu _ _))
        · exact Or.inl (hset htu rfl rfl)
      · exact Or.inl hg
  | remove u =>
    rw [MutexSystem.step]
    split_ifs with hu
    · have htu := hne hu.1 nofun
      exact Or.inl (hset htu rfl (Function.update_of_ne htu _ _))
    · exact Or.inl hg
  | post u =>
    rw [MutexSystem.step]
    split_ifs with hu
    · rw [MutexSystem.mutexPost]
      split_ifs
      · exact Or.inl (hg.of_eq rfl rfl)
      · exact Or.inl (hset (hne hu.1 nofun) rfl rfl)
    · exact Or.inl hg
  | ready u remote =>
    rw [MutexSystem.step]
    split_ifs with hu
    · -- nobody is readied while a post looks for a waiter
      exact absurd hg (h.none_of_posting hu t).2
    · exact Or.inl hg
  | hand u =>
    cases hpc : s.pc u with
    | handing w =>
      simp only [MutexSystem.step, hpc]
      exact Or.inl (hset (hne hpc nofun) rfl rfl)
    | idle | marked | waiting | timedOut | posting =>
      simp only [MutexSystem.step, hpc]
      exact Or.inl hg
  | timeout u =>
    refine Or.inl ?_
    by_cases htu : t = u
    · subst htu
      rw [MutexSystem.step, hcalm.taskTimeoutHandler, setTcb_self]
      exact hg
    · exact hg.of_eq rfl (Function.update_of_ne htu _ _)
  | switchOut u =>
    refine Or.inl ?_
    by_cases htu : t = u
    · subst htu
      refine (granted_setTcb ?_ Tcb.switchOut_pendStat).2 hg
      rw [hcalm.not_pending, hcalm.switchOut.not_pending]
    · exact hg.of_eq rfl (Function.update_of_ne htu _ _)
  | switchTo u =>
    rw [MutexSystem.step]
    split_ifs with hrdy
    · refine Or.inl ?_
      by_cases htu : t = u
      · subst htu
        have hok : (s.tcb t).switchTo.pendStat = (s.tcb t).pendStat := rfl
        refine (granted_setTcb ?_ hok).2 hg
        rw [hcalm.not_pending]
        exact show taskIsPending TASK_STAT_RUNNING = false by decide
      · exact hg.of_eq rfl (Function.update_of_ne htu _ _)
    · exact Or.inl hg

lemma Inv.safe (h : s.Inv) (e : MutexEvent) : s.Safe e where
  one t ht u hu := by
    have h1 := ((h.step e).owner t).2 (Or.inl ht)
    have h2 := ((h.step e).owner u).2 (Or.inl hu)
    exact Option.some.inj (h1.symm.trans h2)
  avail := (h.step e).avail
  found t w hnew hold := by
    obtain ⟨remote, hpc, hget, hzero, heq⟩ := step_handing hnew hold
    have hw : s.Waits w := Waiters.waits_of_eventGetWaiter h.wait hget
    have hp := (Waiters.eventTaskRemove_eq_zero hw _).1 hzero
    rw [heq]
    exact ⟨⟨(h.pendingWaiter hw hp).1, hw, hp⟩, fun u => h.granted_readyWaiter hpc hw hp remote⟩
  posted t hlog := by
    rcases step_posted hlog with ⟨w, hpc, heq⟩ | ⟨remote, hpc, hget, heq⟩
    · refine Or.inl ⟨w, hpc, by rw [heq]; rfl, ?_⟩
      have hown : (s.step e).ownerNow = some w := by
        rw [heq]
        exact ownerNow_of_free rfl
      exact (((h.step e).owner w).1 hown).symm
    · refine Or.inr ⟨by rw [heq, MutexSystem.eventHighestTaskReady, hget], fun u hu => ?_⟩
      exact (Waiters.eventGetWaiter_eq_none h.wait).1 hget u hu.2.1
  granted t hg := ⟨(h.granted_calm hg).rdy, h.granted_step hg e, h.resume_granted hg⟩
  timedOut t hlog := by
    obtain ⟨hpc, heq⟩ := step_timedOut hlog
    rw [heq]
    refine ⟨fun hw => ?_, fun hcalled hdata => ?_⟩
    · exact ((Waiters.waits_eventTaskRemove h.wait _).1 hw).2 rfl
    -- the data is right about the owner, unless another task posts
    have hnot : t ∉ s.holders := by
      rw [← h.called t (by rw [hpc]; rfl), hcalled]
      exact Bool.false_ne_true
    have hown : s.ownerNow ≠ some t := fun hown =>
      ((h.owner t).1 hown).elim hnot (not_granted_of_pc (by simp [hpc]))
    have hdata' : s.m.data = some t := hdata
    cases hl : s.lock with
    | none => exact hown ((ownerNow_of_free hl).trans hdata')
    | some p =>
      have hp : ∀ {pc}, s.pc p = pc → pc ≠ .timedOut → s.m.data ≠ some p := by
        rintro pc hpp hne hd
        obtain rfl := Option.some.inj (hd.symm.trans hdata')
        exact hne (hpp.symm.trans hpc)
      cases hpp : s.pc p with
      | posting => exact hp hpp nofun (h.posting p hpp)
      | handing w => exact hp hpp nofun (h.handing p w hpp)
      | idle | marked | waiting | timedOut =>
        refine hown ?_
        simp only [ownerNow, hl, hpp]
        exact hdata'
  foreign t he hdata := by
    subst he
    rw [MutexSystem.step]
    split_ifs
    · rw [MutexSystem.mutexPost, if_pos hdata]
      exact Or.inr rfl
    · exact Or.inl rfl

end MutexSystem

/-- Every step of every run keeps to the mutex: at most one task owns it, a post hands it to one
waiter that has not timed out, if there is one, and a wait that times out leaves nothing behind. -/
theorem mutex_safe (es : List MutexEvent) :
    Along MutexSystem.step MutexSystem.Safe MutexSystem.init es := by
  have hrun : Along MutexSystem.step (fun _ _ => True) MutexSystem.init es :=
    along_const.2 fun _ _ => trivial
  exact along_induction (fun _ e h _ => h.step e) (fun _ e h _ => h.safe e)
    MutexSystem.init_inv hrun

/-- A task that waits for a mutex of its own, until its timer fires. -/
def pendTwice (t : TaskId) : List MutexEvent :=
  [.pend t 0, .pend t 10, .wait t, .timeout t, .resume t, .remove t]

theorem mutex_timeout_of_owner :
    let t : TaskId := .rt ⟨3, by decide⟩
    let s := exec MutexSystem.step MutexSystem.init (pendTwice t)
    s.log.head? = some (.pended t (-ETIMEDOUT)) ∧ s.m.data = some t ∧ t ∈ s.holders := by
  decide +kernel

end Minos.Core
