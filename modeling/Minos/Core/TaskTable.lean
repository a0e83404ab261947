import Mathlib
import Minos.Core.Event
import Minos.Lib.Run

/-!
# Tables of tasks by priority

The ready realtime tasks, and those that wait for an event, are bits of a table of eight bytes with
a group byte over it. The highest of them is read through `ffs_table`, first in the group and then
in the byte, and its task is found in `os_task_table`.
-/

namespace Minos.Core

open Run
open Sched (ReadyTable OS_LOWEST_PRIO ffsTable)

/-! ### `ffs_table` -/

/-- The entries of `ffs_table` -/
def ffsTableEntries : List ℕ :=
   [0, 0, 1, 0, 2, 0, 1, 0, 3, 0, 1, 0, 2, 0, 1, 0,
    4, 0, 1, 0, 2, 0, 1, 0, 3, 0, 1, 0, 2, 0, 1, 0,
    5, 0, 1, 0, 2, 0, 1, 0, 3, 0, 1, 0, 2, 0, 1, 0,
    4, 0, 1, 0, 2, 0, 1, 0, 3, 0, 1, 0, 2, 0, 1, 0,
    6, 0, 1, 0, 2, 0, 1, 0, 3, 0, 1, 0, 2, 0, 1, 0,
    4, 0, 1, 0, 2, 0, 1, 0, 3, 0, 1, 0, 2, 0, 1, 0,
    5, 0, 1, 0, 2, 0, 1, 0, 3, 0, 1, 0, 2, 0, 1, 0,
    4, 0, 1, 0, 2, 0, 1, 0, 3, 0, 1, 0, 2, 0, 1, 0,
    7, 0, 1, 0, 2, 0, 1, 0, 3, 0, 1, 0, 2, 0, 1, 0,
    4, 0, 1, 0, 2, 0, 1, 0, 3, 0, 1, 0, 2, 0, 1, 0,
    5, 0, 1, 0, 2, 0, 1, 0, 3, 0, 1, 0, 2, 0, 1, 0,
    4, 0, 1, 0, 2, 0, 1, 0, 3, 0, 1, 0, 2, 0, 1, 0,
    6, 0, 1, 0, 2, 0, 1, 0, 3, 0, 1, 0, 2, 0, 1, 0,
    4, 0, 1, 0, 2, 0, 1, 0, 3, 0, 1, 0, 2, 0, 1, 0,
    5, 0, 1, 0, 2, 0, 1, 0, 3, 0, 1, 0, 2, 0, 1, 0,
    4, 0, 1, 0, 2, 0, 1, 0, 3, 0, 1, 0, 2, 0, 1, 0]

/-- `ffs_table[v]` -/
def ffs (v : BitVec 8) : ℕ := ffsTableEntries[v.toNat]?.getD 0

lemma ffs_eq : ∀ v, ffs v = ffsTable v := by
  decide +kernel

/-! ### Tasks and tables -/

/-- A realtime task, of which `task_init` computes the place in the tables. -/
structure RtTask where
  prio : ℕ
  realtime : prio ≤ OS_LOWEST_PRIO
deriving DecidableEq

namespace RtTask

/-- `by` -/
def byteNr (t : RtTask) : ℕ := t.prio >>> 3

/-- `bx` -/
def bitNr (t : RtTask) : ℕ := t.prio &&& 0x07

def bity (t : RtTask) : BitVec 8 := 1#8 <<< t.byteNr

def bitx (t : RtTask) : BitVec 8 := 1#8 <<< t.bitNr

/-- `set_task_ready` -/
def setTaskReady (t : RtTask) (r : ReadyTable) : ReadyTable where
  grp := r.grp ||| t.bity
  table := Function.update r.table t.byteNr (r.table t.byteNr ||| t.bitx)

/-- `set_task_sleep` -/
def setTaskSleep (t : RtTask) (r : ReadyTable) : ReadyTable :=
  let byte := r.table t.byteNr &&& ~~~t.bitx
  { grp := if byte = 0 then r.grp &&& ~~~t.bity else r.grp
    table := Function.update r.table t.byteNr byte }

lemma byteNr_eq (t : RtTask) : t.byteNr = t.prio / 8 := Nat.shiftRight_eq_div_pow ..

lemma bitNr_eq (t : RtTask) : t.bitNr = t.prio % 8 := Nat.and_two_pow_sub_one_eq_mod t.prio 3

lemma setTaskReady_eq (t : RtTask) (r : ReadyTable) : t.setTaskReady r = r.set t.prio := by
  simp only [setTaskReady, ReadyTable.set, bity, bitx, byteNr_eq, bitNr_eq]

lemma setTaskSleep_eq (t : RtTask) (r : ReadyTable) : t.setTaskSleep r = r.clear t.prio := by
  simp only [setTaskSleep, ReadyTable.clear, bity, bitx, byteNr_eq, bitNr_eq]

end RtTask

/-- The realtime part of `os_task_table`. The pid of a realtime task is its priority. -/
structure TaskTable where
  get : ℕ → Option RtTask
  prio_eq : ∀ p t, get p = some t → t.prio = p

/-- `get_highest_task` -/
def getHighestTask (T : TaskTable) (group : BitVec 8) (ready : ℕ → BitVec 8) : Option RtTask :=
  let y := ffs group
  let x := ffs (ready y)
  T.get (y <<< 3 + x)

/-! ### Runs -/

inductive ReadyCall where
  | setTaskReady (t : RtTask)
  | setTaskSleep (t : RtTask)
deriving DecidableEq

def readyStep (r : ReadyTable) : ReadyCall → ReadyTable
  | .setTaskReady t => t.setTaskReady r
  | .setTaskSleep t => t.setTaskSleep r

inductive WaitCall where
  | eventTaskWait (t : TaskId)
  | eventTaskRemove (stat : BitVec 16) (t : TaskId)
deriving DecidableEq

def waitStep (w : Waiters) : WaitCall → Waiters
  | .eventTaskWait t => w.eventTaskWait t
  | .eventTaskRemove stat t => (w.eventTaskRemove stat t).1

/-- The priority that a call is about, and whether it sets the bit. -/
def ReadyCall.mark : ReadyCall → Option (ℕ × Bool)
  | .setTaskReady t => some (t.prio, true)
  | .setTaskSleep t => some (t.prio, false)

def WaitCall.mark : WaitCall → Option (ℕ × Bool)
  | .eventTaskWait (.rt p) => some (p, true)
  | .eventTaskRemove _ (.rt p) => some (p, false)
  | _ => none

/-- What the last call for the priority `p` did. -/
def lastMark (p : ℕ) (marks : List (ℕ × Bool)) : Option Bool :=
  ((marks.filter fun m => m.1 = p).getLast?).map Prod.snd

/-- The table knows the last call for every priority, and `get_highest_task` finds the task with
the lowest priority of those whose bit is set. -/
structure Tracks (T : TaskTable) (r : ReadyTable) (marks : List (ℕ × Bool)) : Prop where
  group : ∀ y < 8, r.grp.getLsbD y = true ↔ r.table y ≠ 0
  bits : ∀ p ≤ OS_LOWEST_PRIO,
    (r.table (p / 8)).getLsbD (p % 8) = true ↔ lastMark p marks = some true
  highest : r.grp ≠ 0 → ∃ t, getHighestTask T r.grp r.table = some t ∧
    lastMark t.prio marks = some true ∧ ∀ p, lastMark p marks = some true → t.prio ≤ p

/-- What a call does to the table. -/
def markStep (r : ReadyTable) (m : ℕ × Bool) : ReadyTable := if m.2 then r.set m.1 else r.clear m.1

def ReadyTable.zero : ReadyTable := ⟨0, fun _ => 0⟩

lemma exec_readyStep (es : List ReadyCall) (r : ReadyTable) :
    exec readyStep r es = (es.filterMap ReadyCall.mark).foldl markStep r := by
  induction es generalizing r with
  | nil => rfl
  | cons e es ih =>
    rw [exec_cons, ih]
    cases e with
    | setTaskReady t => simp [readyStep, ReadyCall.mark, markStep, RtTask.setTaskReady_eq]
    | setTaskSleep t => simp [readyStep, ReadyCall.mark, markStep, RtTask.setTaskSleep_eq]

lemma exec_waitStep (ws : List WaitCall) (w : Waiters) :
    (exec waitStep w ws).tbl = (ws.filterMap WaitCall.mark).foldl markStep w.tbl := by
  induction ws generalizing w with
  | nil => rfl
  | cons e ws ih =>
    rw [exec_cons, ih]
    cases e with
    | eventTaskWait t =>
      cases t with
      | rt p => simp [waitStep, WaitCall.mark, markStep, Waiters.eventTaskWait]
      | pcpu n =>
        rw [List.filterMap_cons_none
          (show WaitCall.mark (.eventTaskWait (.pcpu n)) = none from rfl)]
        rfl
    | eventTaskRemove stat t =>
      cases t with
      | rt p => simp [waitStep, WaitCall.mark, markStep, Waiters.eventTaskRemove]
      | pcpu n =>
        rw [List.filterMap_cons_none
          (show WaitCall.mark (.eventTaskRemove stat (.pcpu n)) = none from rfl)]
        by_cases hn : n ∈ w.list
        · simp [waitStep, Waiters.eventTaskRemove, hn]
        · simp [waitStep, Waiters.eventTaskRemove, hn]

lemma lastMark_concat (p : ℕ) (marks : List (ℕ × Bool)) (m : ℕ × Bool) :
    lastMark p (marks ++ [m]) = if m.1 = p then some m.2 else lastMark p marks := by
  rw [lastMark, List.filter_append]
  split_ifs with h
  · simp [h]
  · simp [lastMark, h]

lemma mem_of_lastMark {p : ℕ} {marks : List (ℕ × Bool)} {b : Bool}
    (h : lastMark p marks = some b) : (p, b) ∈ marks := by
  obtain ⟨⟨q, c⟩, hlast, rfl⟩ := Option.map_eq_some_iff.1 h
  obtain ⟨hmem, hq⟩ := List.mem_filter.1 (List.mem_of_getLast? hlast)
  rwa [← of_decide_eq_true hq]

/-- After every call the bits that are set are those whose last call set them. -/
lemma foldl_markStep (marks : List (ℕ × Bool)) (hle : ∀ m ∈ marks, m.1 ≤ OS_LOWEST_PRIO) :
    (marks.foldl markStep ReadyTable.zero).Consistent ∧
      ∀ p, (marks.foldl markStep ReadyTable.zero).Ready p ↔ lastMark p marks = some true := by
  induction marks using List.reverseRecOn with
  | nil => exact ⟨by decide, fun p => by simp [ReadyTable.zero, ReadyTable.Ready, lastMark]⟩
  | append_singleton marks m ih =>
    obtain ⟨hc, hready⟩ := ih fun m hm => hle m (List.mem_append_left _ hm)
    have hm := hle m (List.mem_append_right _ (List.mem_singleton_self m))
    rw [List.foldl_append, List.foldl_cons, List.foldl_nil]
    obtain ⟨q, on⟩ := m
    cases on with
    | true =>
      refine ⟨ReadyTable.set_consistent hc hm, fun p => ?_⟩
      rw [markStep, if_pos rfl, Waiters.ready_set hm, hready, lastMark_concat]
      split_ifs with hq
      · simp [hq.symm]
      · simp [Ne.symm hq]
    | false =>
      refine ⟨ReadyTable.clear_consistent hc hm, fun p => ?_⟩
      rw [markStep, if_neg Bool.false_ne_true, ReadyTable.ready_clear hm, hready, lastMark_concat]
      split_ifs with hq
      · simp [hq.symm]
      · simp [Ne.symm hq]

lemma tracks_foldl (T : TaskTable) (marks : List (ℕ × Bool))
    (hle : ∀ m ∈ marks, m.1 ≤ OS_LOWEST_PRIO) (hT : ∀ p, (p, true) ∈ marks → (T.get p).isSome) :
    Tracks T (marks.foldl markStep ReadyTable.zero) marks := by
  obtain ⟨hc, hready⟩ := foldl_markStep marks hle
  set r := marks.foldl markStep ReadyTable.zero
  refine ⟨hc, fun p hp => ?_, fun hgrp => ?_⟩
  · rw [← hready]
    exact ⟨fun h => ⟨hp, h⟩, fun h => h.2⟩
  · have hz : r.isZero = false := by
      rw [← Bool.not_eq_true, ReadyTable.isZero_iff]
      exact fun hall => hgrp ((Waiters.grp_eq_zero_iff hc).2 hall)
    obtain ⟨hhigh, hmin⟩ := ReadyTable.highest_spec hc hz
    have hlast := (hready _).1 hhigh
    obtain ⟨t, ht⟩ := Option.isSome_iff_exists.1 (hT _ (mem_of_lastMark hlast))
    have hprio := T.prio_eq _ t ht
    refine ⟨t, ?_, hprio ▸ hlast, fun p hp => ?_⟩
    · rw [← ht, getHighestTask, ffs_eq, ffs_eq, Nat.shiftLeft_eq]
      rfl
    · rw [hprio]
      by_contra hlt
      exact hmin p (not_le.1 hlt) ((hready p).2 hp)

/-- The ready table after any calls of `set_task_ready` and `set_task_sleep`, and the wait table of
an event after any calls of `event_task_wait` and `event_task_remove`. -/
theorem task_tables_track (T : TaskTable) (es : List ReadyCall) (ws : List WaitCall)
    (hes : ∀ t, .setTaskReady t ∈ es → T.get t.prio = some t)
    (hws : ∀ p : Fin OS_REALTIME_TASK, .eventTaskWait (.rt p) ∈ ws → (T.get p).isSome) :
    Tracks T (exec readyStep ReadyTable.zero es) (es.filterMap ReadyCall.mark) ∧
      Tracks T (exec waitStep Waiters.empty ws).tbl (ws.filterMap WaitCall.mark) := by
  rw [exec_readyStep, exec_waitStep]
  refine ⟨tracks_foldl T _ ?_ ?_, tracks_foldl T _ ?_ ?_⟩
  · intro m hm
    obtain ⟨e, -, he⟩ := List.mem_filterMap.1 hm
    cases e with
    | setTaskReady t => exact Option.some.inj he ▸ t.realtime
    | setTaskSleep t => exact Option.some.inj he ▸ t.realtime
  · intro p hm
    obtain ⟨e, hmem, he⟩ := List.mem_filterMap.1 hm
    cases e with
    | setTaskReady t =>
      obtain rfl := (Prod.mk.inj (Option.some.inj he)).1
      rw [hes t hmem]
      rfl
    | setTaskSleep t => cases (Prod.mk.inj (Option.some.inj he)).2
  · intro m hm
    obtain ⟨e, -, he⟩ := List.mem_filterMap.1 hm
    rcases e with (p | n) | ⟨stat, p | n⟩
    · exact Option.some.inj he ▸ Waiters.rt_le p
    · cases he
    · exact Option.some.inj he ▸ Waiters.rt_le p
    · cases he
  · intro p hm
    obtain ⟨e, hmem, he⟩ := List.mem_filterMap.1 hm
    rcases e with (q | n) | ⟨stat, q | n⟩
    · obtain rfl := (Prod.mk.inj (Option.some.inj he)).1
      exact hws q hmem
    · cases he
    · cases (Prod.mk.inj (Option.some.inj he)).2
    · cases he

/-- The table with a task for every priority. -/
def fullTaskTable : TaskTable where
  get p := if h : p ≤ OS_LOWEST_PRIO then some ⟨p, h⟩ else none
  prio_eq p t h := by
    split_ifs at h
    exact Option.some.inj h ▸ rfl

theorem task_tables_track_two_tasks :
    let t : RtTask := ⟨9, by decide⟩
    let u : RtTask := ⟨12, by decide⟩
    let p : Fin OS_REALTIME_TASK := ⟨60, by decide⟩
    Tracks fullTaskTable
        (exec readyStep ReadyTable.zero [.setTaskReady t, .setTaskReady u, .setTaskSleep t])
        [(9, true), (12, true), (9, false)] ∧
      Tracks fullTaskTable (exec waitStep Waiters.empty [.eventTaskWait (.rt p)]).tbl
        [(60, true)] := by
  refine task_tables_track fullTaskTable _ _ (fun t ht => ?_) fun p _ => ?_
  · exact dif_pos t.realtime
  · exact Option.isSome_iff_exists.2 ⟨_, dif_pos (Waiters.rt_le p)⟩

end Minos.Core
