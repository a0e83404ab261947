import Mathlib
import Minos.Sched.GlobalRun
import Minos.Types

/-!
# Tasks that wait for an event

A task that has to wait for a mutex or a message marks itself as pending and goes to the wait set of
the event. Realtime tasks are bits of a table there, as in the ready set, and the tasks of a cpu are
on a list. Who makes the event happen takes the first waiter off the set and makes it ready, while
the timer of a task makes it ready and leaves it on the set.
-/

namespace Minos.Core

open Sched (ReadyTable OS_LOWEST_PRIO OS_PRIO_PCPU)

def OS_NR_TASKS : ℕ := 512
def OS_REALTIME_TASK : ℕ := 64

def EBUSY : ℤ := 16
def ENOSPC : ℤ := 28
def ETIMEDOUT : ℤ := 110
def EABORT : ℤ := 135

/-! ### Tasks -/

/-- A task that is not idle. A realtime task has its priority as its pid, and the pids of the other
tasks come after these. -/
inductive TaskId where
  | rt (prio : Fin OS_REALTIME_TASK)
  | pcpu (n : Fin (OS_NR_TASKS - OS_REALTIME_TASK))
deriving DecidableEq, Repr, Fintype

namespace TaskId

def pid : TaskId → ℕ
  | rt p => p
  | pcpu n => OS_REALTIME_TASK + n

def prio : TaskId → ℕ
  | rt p => p
  | pcpu _ => OS_PRIO_PCPU

lemma pid_lt (t : TaskId) : t.pid < OS_NR_TASKS := by
  cases t with
  | rt p => exact p.2.trans (by decide)
  | pcpu n =>
    have := n.2
    simp only [OS_NR_TASKS, OS_REALTIME_TASK, pid] at this ⊢
    omega

lemma prio_le (t : TaskId) : t.prio ≤ OS_PRIO_PCPU := by
  cases t with
  | rt p => exact p.2.le
  | pcpu n => exact le_rfl

end TaskId

def TASK_STAT_RDY : BitVec 16 := 0x00
def TASK_STAT_SEM : BitVec 16 := 0x01
def TASK_STAT_MBOX : BitVec 16 := 0x02
def TASK_STAT_Q : BitVec 16 := 0x04
def TASK_STAT_SUSPEND : BitVec 16 := 0x08
def TASK_STAT_MUTEX : BitVec 16 := 0x10
def TASK_STAT_FLAG : BitVec 16 := 0x20
def TASK_STAT_RUNNING : BitVec 16 := 0x100

def TASK_STAT_PEND_ANY : BitVec 16 :=
  TASK_STAT_SEM ||| TASK_STAT_MBOX ||| TASK_STAT_Q ||| TASK_STAT_MUTEX ||| TASK_STAT_FLAG

/-- `task_is_pending` -/
def taskIsPending (stat : BitVec 16) : Bool := stat &&& TASK_STAT_PEND_ANY != TASK_STAT_RDY

/-- `task_is_ready` -/
def taskIsReady (stat : BitVec 16) : Bool := stat == TASK_STAT_RDY || stat == TASK_STAT_RUNNING

/-- `TASK_STAT_PEND_OK`, `TASK_STAT_PEND_TO` and `TASK_STAT_PEND_ABORT` -/
inductive PendStat where
  | ok
  | to
  | abort
deriving DecidableEq, Repr

/-- The fields of `struct task` that waiting is about. `rdy` says that the task is in the ready set,
or on the ready list of its cpu or on its way there. -/
structure Tcb (M : Type) where
  stat : BitVec 16
  pendStat : PendStat
  delay : ℕ
  msg : Option M
  rdy : Bool
deriving DecidableEq, Repr

namespace Tcb

variable {M : Type}

/-- `task_init` and the `set_task_ready` after it -/
def init : Tcb M := ⟨TASK_STAT_RDY, .ok, 0, none, true⟩

/-- `set_task_ready`. For a task of another cpu this is a call to that cpu, and the delay is not
reset before it is served. -/
def setTaskReady (remote : Bool) (t : Tcb M) : Tcb M :=
  { t with rdy := true, delay := if remote then t.delay else 0 }

/-- `set_task_sleep` of the current task -/
def setTaskSleep (t : Tcb M) : Tcb M := { t with rdy := false }

/-- The beginning of a wait for at most `timeout`, under the lock of the task. -/
def pend (stat : BitVec 16) (timeout : ℕ) (t : Tcb M) : Tcb M :=
  { t with stat := t.stat ||| stat, pendStat := .ok, delay := timeout }

/-- `event_task_ready` -/
def eventTaskReady (remote : Bool) (msg : Option M) (msk : BitVec 16) (pendStat : PendStat)
    (t : Tcb M) : Tcb M :=
  setTaskReady remote { t with pendStat := pendStat, msg := msg, stat := t.stat &&& ~~~msk }

/-- `task_timeout_handler` -/
def taskTimeoutHandler (t : Tcb M) : Tcb M :=
  if taskIsPending t.stat then
    setTaskReady false { t with
      delay := 0
      stat := t.stat &&& ~~~TASK_STAT_SUSPEND &&& ~~~TASK_STAT_PEND_ANY
      pendStat := .to }
  else if t.delay ≠ 0 ∧ taskIsReady t.stat = false then
    setTaskReady false { t with delay := 0, stat := t.stat &&& ~~~TASK_STAT_SUSPEND }
  else t

/-- What `switch_to_task` does to the task that it switches out. -/
def switchOut (t : Tcb M) : Tcb M :=
  if taskIsReady t.stat then { t with stat := TASK_STAT_RDY } else t

/-- What `switch_to_task` does to the task that it switches to. -/
def switchTo (t : Tcb M) : Tcb M := { t with stat := TASK_STAT_RUNNING }

/-- The task runs or could run. -/
structure Calm (t : Tcb M) : Prop where
  stat : taskIsReady t.stat = true
  rdy : t.rdy = true

/-- The task waits for an event with the bit `bit`, and nothing has happened to it since it began
to. -/
structure Pending (bit : BitVec 16) (t : Tcb M) : Prop where
  stat : t.stat = bit ∨ t.stat = TASK_STAT_RUNNING ||| bit
  pendStat : t.pendStat = .ok

/-- The bits of the two events that are modelled. -/
def IsPendBit (bit : BitVec 16) : Prop := bit = TASK_STAT_MUTEX ∨ bit = TASK_STAT_Q

/-- A bit to wait with: a task that has it is pending and not ready, and is ready again when the
bit or all bits of waiting are taken away. -/
def WaitBit (bit : BitVec 16) : Prop :=
  ∀ stat, stat = bit ∨ stat = TASK_STAT_RUNNING ||| bit →
    taskIsPending stat = true ∧ taskIsReady stat = false ∧
      taskIsReady (stat &&& ~~~TASK_STAT_SUSPEND &&& ~~~TASK_STAT_PEND_ANY) = true ∧
      taskIsReady (stat &&& ~~~bit) = true

lemma IsPendBit.waitBit {bit : BitVec 16} (h : IsPendBit bit) : WaitBit bit := by
  rcases h with rfl | rfl
  · rintro stat (rfl | rfl)
    · decide
    · decide
  · rintro stat (rfl | rfl)
    · decide
    · decide

lemma waitBit_mbox : WaitBit TASK_STAT_MBOX := by
  rintro stat (rfl | rfl)
  · decide
  · decide

variable {t : Tcb M} {bit : BitVec 16}

lemma Calm.cases (h : t.Calm) : t.stat = TASK_STAT_RDY ∨ t.stat = TASK_STAT_RUNNING := by
  simpa [taskIsReady] using h.stat

lemma Calm.not_pending (h : t.Calm) : taskIsPending t.stat = false := by
  rcases h.cases with h | h
  · rw [h]
    decide
  · rw [h]
    decide

lemma Calm.pend (h : t.Calm) (bit : BitVec 16) (timeout : ℕ) :
    (t.pend bit timeout).Pending bit := by
  refine ⟨?_, rfl⟩
  simp only [Tcb.pend]
  rcases h.cases with h | h
  · rw [h]
    exact Or.inl (BitVec.zero_or ..)
  · rw [h]
    exact Or.inr rfl

/-- The timer of a task that does not wait does nothing. -/
lemma Calm.taskTimeoutHandler (h : t.Calm) : t.taskTimeoutHandler = t := by
  simp [Tcb.taskTimeoutHandler, h.not_pending, h.stat]

lemma Calm.switchOut (h : t.Calm) : t.switchOut.Calm := by
  rw [Tcb.switchOut, if_pos h.stat]
  exact ⟨show taskIsReady TASK_STAT_RDY = true by decide, h.rdy⟩

lemma switchOut_pendStat : t.switchOut.pendStat = t.pendStat := by
  rw [switchOut]
  split_ifs
  · rfl
  · rfl

lemma switchOut_msg : t.switchOut.msg = t.msg := by
  rw [switchOut]
  split_ifs
  · rfl
  · rfl

lemma Pending.setTaskSleep (h : t.Pending bit) : t.setTaskSleep.Pending bit := ⟨h.stat, h.pendStat⟩

lemma Pending.taskIsPending (h : t.Pending bit) (hb : WaitBit bit) :
    taskIsPending t.stat = true :=
  (hb _ h.stat).1

lemma Pending.switchOut (h : t.Pending bit) (hb : WaitBit bit) : t.switchOut = t := by
  simp [Tcb.switchOut, (hb _ h.stat).2.1]

lemma Pending.taskTimeoutHandler (h : t.Pending bit) (hb : WaitBit bit) :
    t.taskTimeoutHandler.Calm ∧ t.taskTimeoutHandler.pendStat = .to ∧
      t.taskTimeoutHandler.msg = t.msg := by
  rw [Tcb.taskTimeoutHandler, if_pos (h.taskIsPending hb)]
  exact ⟨⟨(hb _ h.stat).2.2.1, rfl⟩, rfl, rfl⟩

/-- The event that a task waits for happens. -/
lemma Pending.eventTaskReady (h : t.Pending bit) (hb : WaitBit bit) (remote : Bool)
    (msg : Option M) (pendStat : PendStat) : (t.eventTaskReady remote msg bit pendStat).Calm :=
  ⟨(hb _ h.stat).2.2.2, rfl⟩

end Tcb

/-! ### The wait set -/

/-- `wait_grp`, `wait_tbl` and `wait_list` of `struct event` -/
structure Waiters where
  tbl : ReadyTable
  list : List (Fin (OS_NR_TASKS - OS_REALTIME_TASK))

lemma highest_lt (t : ReadyTable) : t.highest < OS_REALTIME_TASK := by
  have hffs : ∀ v, Sched.ffsTable v < 8 := by
    intro v
    by_cases hv : v = 0
    · rw [hv]
      decide
    · exact (ReadyTable.ffsTable_spec hv).1
  have h1 := hffs t.grp
  have h2 := hffs (t.table (Sched.ffsTable t.grp))
  simp only [ReadyTable.highest, OS_REALTIME_TASK]
  omega

namespace Waiters

def empty : Waiters := ⟨⟨0, fun _ => 0⟩, []⟩

/-- `event_task_wait` -/
def eventTaskWait (w : Waiters) : TaskId → Waiters
  | .rt p => { w with tbl := w.tbl.set p }
  | .pcpu n => { w with list := w.list ++ [n] }

/-- `event_task_remove` for a task with the state `stat`. A task is on the list if its
`event_list.next` is not `NULL`. -/
def eventTaskRemove (w : Waiters) (stat : BitVec 16) : TaskId → Waiters × ℤ
  | .pcpu n =>
    if n ∈ w.list then
      ({ w with list := w.list.erase n }, if taskIsPending stat then 0 else -EPERM)
    else (w, -EPERM)
  | .rt p => ({ w with tbl := w.tbl.clear p }, if taskIsPending stat then 0 else -EPERM)

/-- `event_get_waiter` -/
def eventGetWaiter (w : Waiters) : Option TaskId :=
  if w.tbl.grp ≠ 0 then some (.rt ⟨w.tbl.highest, highest_lt w.tbl⟩)
  else w.list.head?.map .pcpu

/-- `event_has_waiter` -/
def eventHasWaiter (w : Waiters) : Bool := w.tbl.grp ≠ 0 || !w.list.isEmpty

/-- The task is on the wait set. -/
def Waits (w : Waiters) : TaskId → Prop
  | .rt p => w.tbl.Ready p
  | .pcpu n => n ∈ w.list

instance (w : Waiters) : (t : TaskId) → Decidable (w.Waits t)
  | .rt p => inferInstanceAs (Decidable (w.tbl.Ready p))
  | .pcpu n => inferInstanceAs (Decidable (n ∈ w.list))

/-- The group byte is right about the table, and no task is twice on the list. -/
structure WellFormed (w : Waiters) : Prop where
  consistent : w.tbl.Consistent
  nodup : w.list.Nodup

variable {w : Waiters} {t u : TaskId}

lemma rt_le (p : Fin OS_REALTIME_TASK) : (p : ℕ) ≤ OS_LOWEST_PRIO := Nat.lt_succ_iff.1 p.2

lemma ready_set {r : ReadyTable} {p q : ℕ} (hp : p ≤ OS_LOWEST_PRIO) :
    (r.set p).Ready q ↔ r.Ready q ∨ q = p := by
  simp only [ReadyTable.Ready, ReadyTable.set, OS_LOWEST_PRIO] at hp ⊢
  by_cases hdiv : q / 8 = p / 8
  · rw [hdiv, Function.update_self, BitVec.getLsbD_or, Bool.or_eq_true]
    have hbit : (1#8 <<< (p % 8)).getLsbD (q % 8) = true ↔ q = p := by
      simp only [BitVec.getLsbD_shiftLeft, BitVec.getLsbD_one, Bool.and_eq_true, decide_eq_true_eq,
        Bool.not_eq_true', decide_eq_false_iff_not]
      omega
    rw [hbit]
    constructor
    · rintro ⟨hle, h | h⟩
      · exact Or.inl ⟨hle, h⟩
      · exact Or.inr h
    · rintro (⟨hle, h⟩ | rfl)
      · exact ⟨hle, Or.inl h⟩
      · exact ⟨hp, Or.inr rfl⟩
  · rw [Function.update_of_ne hdiv]
    have hne : q ≠ p := by
      rintro rfl
      exact hdiv rfl
    simp [hne]

lemma empty_wellFormed : empty.WellFormed := ⟨by decide, List.nodup_nil⟩

lemma not_waits_empty : ¬ empty.Waits t := by
  cases t with
  | rt p => simp [Waits, empty, ReadyTable.Ready]
  | pcpu n => simp [Waits, empty]

lemma waits_eventTaskWait : (w.eventTaskWait t).Waits u ↔ w.Waits u ∨ u = t := by
  cases t with
  | rt p =>
    cases u with
    | rt q => simp [Waits, eventTaskWait, ready_set (rt_le p), Fin.ext_iff]
    | pcpu n => simp [Waits, eventTaskWait]
  | pcpu m =>
    cases u with
    | rt q => simp [Waits, eventTaskWait]
    | pcpu n => simp [Waits, eventTaskWait]

lemma WellFormed.eventTaskWait (h : w.WellFormed) (ht : ¬ w.Waits t) :
    (w.eventTaskWait t).WellFormed := by
  cases t with
  | rt p => exact ⟨ReadyTable.set_consistent h.consistent (rt_le p), h.nodup⟩
  | pcpu n =>
    refine ⟨h.consistent, List.nodup_append.2 ⟨h.nodup, List.nodup_singleton n, ?_⟩⟩
    rintro a ha b hb rfl
    rw [List.mem_singleton.1 hb] at ha
    exact ht ha

/-- After `event_task_remove` the task is not on the wait set, whatever it returns. -/
lemma waits_eventTaskRemove (h : w.WellFormed) (stat : BitVec 16) :
    (w.eventTaskRemove stat t).1.Waits u ↔ w.Waits u ∧ u ≠ t := by
  cases t with
  | rt p =>
    cases u with
    | rt q => simp [Waits, eventTaskRemove, ReadyTable.ready_clear (rt_le p), Fin.ext_iff]
    | pcpu n => simp [Waits, eventTaskRemove]
  | pcpu m =>
    by_cases hm : m ∈ w.list
    · cases u with
      | rt q => simp [Waits, eventTaskRemove, hm]
      | pcpu n => simp [Waits, eventTaskRemove, hm, h.nodup.mem_erase_iff, and_comm]
    · cases u with
      | rt q => simp [Waits, eventTaskRemove, hm]
      | pcpu n =>
        have : n ∈ w.list → n ≠ m := by
          rintro hn rfl
          exact hm hn
        simpa [Waits, eventTaskRemove, hm] using this

lemma WellFormed.eventTaskRemove (h : w.WellFormed) (stat : BitVec 16) :
    (w.eventTaskRemove stat t).1.WellFormed := by
  cases t with
  | rt p => exact ⟨ReadyTable.clear_consistent h.consistent (rt_le p), h.nodup⟩
  | pcpu n =>
    simp only [Waiters.eventTaskRemove]
    by_cases hn : n ∈ w.list
    · rw [if_pos hn]
      exact ⟨h.consistent, h.nodup.erase n⟩
    · rw [if_neg hn]
      exact h

/-- `event_task_remove` succeeds for a task on the wait set that is pending. -/
lemma eventTaskRemove_eq_zero (ht : w.Waits t) (stat : BitVec 16) :
    (w.eventTaskRemove stat t).2 = 0 ↔ taskIsPending stat = true := by
  cases t with
  | rt p =>
    simp only [eventTaskRemove, EPERM]
    split_ifs with hpend
    · simp [hpend]
    · simp [hpend]
  | pcpu n =>
    have hn : n ∈ w.list := ht
    simp only [eventTaskRemove, if_pos hn, EPERM]
    split_ifs with hpend
    · simp [hpend]
    · simp [hpend]

lemma grp_eq_zero_iff {r : ReadyTable} (h : r.Consistent) : r.grp = 0 ↔ ∀ p, ¬ r.Ready p := by
  rw [← ReadyTable.isZero_iff]
  simp only [ReadyTable.isZero, List.all_eq_true, List.mem_range, decide_eq_true_eq]
  constructor
  · intro h0 y hy
    by_contra hne
    have := (h y hy).2 hne
    rw [h0] at this
    simp at this
  · intro hall
    refine BitVec.eq_of_getLsbD_eq fun y hy => ?_
    have := h y hy
    rw [hall y hy] at this
    simpa using this

lemma eventGetWaiter_eq_none (h : w.WellFormed) :
    w.eventGetWaiter = none ↔ ∀ t, ¬ w.Waits t := by
  simp only [eventGetWaiter]
  split_ifs with hgrp
  · refine iff_of_false nofun fun hall => hgrp ((grp_eq_zero_iff h.consistent).2 fun p hp => ?_)
    exact hall (.rt ⟨p, Nat.lt_succ_iff.2 hp.1⟩) hp
  · rw [not_not] at hgrp
    have hrt := (grp_eq_zero_iff h.consistent).1 hgrp
    rw [Option.map_eq_none_iff, List.head?_eq_none_iff]
    constructor
    · rintro hl (p | n)
      · exact hrt p
      · simp [Waits, hl]
    · intro hall
      exact List.eq_nil_iff_forall_not_mem.2 fun n => hall (.pcpu n)

lemma waits_of_eventGetWaiter (h : w.WellFormed) (ht : w.eventGetWaiter = some t) : w.Waits t := by
  simp only [eventGetWaiter] at ht
  split_ifs at ht with hgrp
  · obtain rfl := Option.some.inj ht
    refine (ReadyTable.highest_spec h.consistent ?_).1
    rw [← Bool.not_eq_true, ReadyTable.isZero_iff]
    exact fun hall => hgrp ((grp_eq_zero_iff h.consistent).2 hall)
  · obtain ⟨n, hn, rfl⟩ := Option.map_eq_some_iff.1 ht
    exact List.mem_of_mem_head? hn

lemma eventHasWaiter_iff (h : w.WellFormed) : w.eventHasWaiter = true ↔ ∃ t, w.Waits t := by
  rw [← not_iff_not, not_exists, ← eventGetWaiter_eq_none h]
  simp only [eventHasWaiter, eventGetWaiter]
  by_cases hgrp : w.tbl.grp = 0
  · rw [if_neg (not_not.2 hgrp)]
    cases hl : w.list with
    | nil => simp [hgrp]
    | cons n l => simp
  · rw [if_pos hgrp]
    have : (w.tbl.grp = 0#8) = False := eq_false hgrp
    simp [this]

end Waiters

end Minos.Core
