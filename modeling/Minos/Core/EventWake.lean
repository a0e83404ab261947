import Mathlib
import Minos.Core.Event

/-!
# Waking the waiters of an event

A post wakes one waiter and a deletion wakes them all. The waiters have an order, the realtime tasks
by their priorities and the others behind them as they came, and both routines take them from the
front. A waiter whose time is over is still on the wait set until it runs, so a post has to pass
over it.
-/

namespace Minos.Core

open Sched (ReadyTable)

/-- An event with the tasks of the system -/
structure EventState (M : Type) where
  waiters : Waiters
  tcb : TaskId → Tcb M

namespace EventState

variable {M : Type}

/-- `event_task_ready`. The tasks of other cpus are those in `remote`. -/
def eventTaskReady (remote : TaskId → Bool) (s : EventState M) (t : TaskId) (msg : Option M)
    (msk : BitVec 16) (pendStat : PendStat) : EventState M :=
  { s with tcb := Function.update s.tcb t ((s.tcb t).eventTaskReady (remote t) msg msk pendStat) }

/-- `event_task_remove`, with its result -/
def eventTaskRemove (s : EventState M) (t : TaskId) : EventState M × ℤ :=
  let r := s.waiters.eventTaskRemove (s.tcb t).stat t
  ({ s with waiters := r.1 }, r.2)

/-- `event_highest_task_ready` with at most `fuel` rounds. It has no result if these are not
enough. -/
def eventHighestTaskReady (remote : TaskId → Bool) (msg : Option M) (msk : BitVec 16)
    (pendStat : PendStat) : ℕ → EventState M → Option (Option TaskId × EventState M)
  | 0, _ => none
  | fuel + 1, s =>
    match s.waiters.eventGetWaiter with
    | none => some (none, s)
    | some t =>
      let r := s.eventTaskRemove t
      if r.2 = 0 then some (some t, r.1.eventTaskReady remote t msg msk pendStat)
      else eventHighestTaskReady remote msg msk pendStat fuel r.1

/-- The loop of `event_del_always` over the tasks that were on the list -/
def delAlwaysList (remote : TaskId → Bool) (s : EventState M)
    (l : List (Fin (OS_NR_TASKS - OS_REALTIME_TASK))) : EventState M :=
  l.foldl (fun s n => (s.eventTaskRemove (.pcpu n)).1.eventTaskReady remote (.pcpu n) none
    TASK_STAT_MUTEX .abort) s

/-- The loop of `event_del_always` over the realtime tasks, with at most `fuel` rounds. A task is
ready before it is removed. -/
def delAlwaysRealtime (remote : TaskId → Bool) : ℕ → EventState M → Option (EventState M)
  | 0, _ => none
  | fuel + 1, s =>
    if s.waiters.tbl.grp = 0 then some s
    else
      let t : TaskId := .rt ⟨s.waiters.tbl.highest, highest_lt s.waiters.tbl⟩
      delAlwaysRealtime remote fuel
        ((s.eventTaskReady remote t none TASK_STAT_MUTEX .abort).eventTaskRemove t).1

/-- `event_del_always` -/
def eventDelAlways (remote : TaskId → Bool) (fuel : ℕ) (s : EventState M) :
    Option (EventState M) :=
  delAlwaysRealtime remote fuel (s.delAlwaysList remote s.waiters.list)

end EventState

/-! ### The order of the waiters -/

namespace Waiters

/-- The realtime tasks on the wait set, the most urgent first. -/
def realtime (w : Waiters) : List (Fin OS_REALTIME_TASK) :=
  (List.finRange OS_REALTIME_TASK).filter fun p => w.tbl.Ready p

/-- The tasks on the wait set: the realtime tasks by priority, and the others as they came. -/
def order (w : Waiters) : List TaskId := w.realtime.map .rt ++ w.list.map .pcpu

variable {w : Waiters} {t : TaskId} {p : Fin OS_REALTIME_TASK}
  {n : Fin (OS_NR_TASKS - OS_REALTIME_TASK)} {ps : List (Fin OS_REALTIME_TASK)}
  {rest : List TaskId}

lemma mem_realtime : p ∈ w.realtime ↔ w.tbl.Ready p := by
  simp [realtime]

lemma mem_order : t ∈ w.order ↔ w.Waits t := by
  cases t with
  | rt p => simp [order, Waits, mem_realtime]
  | pcpu n => simp [order, Waits]

lemma realtime_sorted : w.realtime.Pairwise (· < ·) :=
  (List.pairwise_lt_finRange OS_REALTIME_TASK).filter _

lemma grp_ne_zero (h : w.tbl.Consistent) : w.tbl.grp ≠ 0 ↔ w.realtime ≠ [] := by
  rw [Ne, grp_eq_zero_iff h, ← not_iff_not, not_not, not_not, List.eq_nil_iff_forall_not_mem]
  simp only [mem_realtime]
  exact ⟨fun h p => h p, fun h p hp => h ⟨p, Nat.lt_succ_iff.2 hp.1⟩ hp⟩

/-- `get_highest_task` finds the first realtime task. -/
lemma highest_eq (h : w.tbl.Consistent) (hr : w.realtime = p :: ps) :
    (⟨w.tbl.highest, highest_lt w.tbl⟩ : Fin OS_REALTIME_TASK) = p := by
  have hp : w.tbl.Ready p := mem_realtime.1 (hr ▸ List.mem_cons_self)
  have hz : w.tbl.isZero = false := by
    rw [← Bool.not_eq_true, ReadyTable.isZero_iff]
    exact fun hall => hall p hp
  obtain ⟨hready, hmin⟩ := ReadyTable.highest_spec h hz
  refine le_antisymm (not_lt.1 fun hlt => hmin p hlt hp) ?_
  have hmem : (⟨w.tbl.highest, highest_lt w.tbl⟩ : Fin OS_REALTIME_TASK) ∈ p :: ps :=
    hr ▸ mem_realtime.2 hready
  have hsorted := hr ▸ realtime_sorted (w := w)
  rcases List.mem_cons.1 hmem with heq | hmem
  · exact heq.ge
  · exact ((List.pairwise_cons.1 hsorted).1 _ hmem).le

lemma eventGetWaiter_eq_head (h : w.WellFormed) : w.eventGetWaiter = w.order.head? := by
  rw [eventGetWaiter]
  by_cases hgrp : w.tbl.grp = 0
  · have hr : w.realtime = [] := by
      by_contra hr
      exact (grp_ne_zero h.consistent).2 hr hgrp
    rw [if_neg (not_not.2 hgrp), order, hr, List.map_nil, List.nil_append, List.head?_map]
  · obtain ⟨p, ps, hr⟩ := List.exists_cons_of_ne_nil ((grp_ne_zero h.consistent).1 hgrp)
    rw [if_pos hgrp, highest_eq h.consistent hr, order, hr]
    rfl

/-- The first waiter is removed, and the others keep their order. -/
lemma order_eventTaskRemove (ho : w.order = t :: rest) (stat : BitVec 16) :
    (w.eventTaskRemove stat t).1.order = rest := by
  cases hr : w.realtime with
  | nil =>
    rw [order, hr, List.map_nil, List.nil_append, List.map_eq_cons_iff] at ho
    obtain ⟨n, l, hl, rfl, rfl⟩ := ho
    have hmem : n ∈ w.list := hl ▸ List.mem_cons_self
    have hrt : (w.eventTaskRemove stat (.pcpu n)).1.realtime = w.realtime := by
      simp [eventTaskRemove, hmem, realtime]
    rw [order, hrt, hr]
    simp [eventTaskRemove, hl]
  | cons p ps =>
    rw [order, hr, List.map_cons, List.cons_append, List.cons.injEq] at ho
    obtain ⟨rfl, rfl⟩ := ho
    have hne : ∀ q ∈ ps, q ≠ p := by
      have hsorted := hr ▸ realtime_sorted (w := w)
      exact fun q hq => ((List.pairwise_cons.1 hsorted).1 q hq).ne'
    have hrt : (w.eventTaskRemove stat (.rt p)).1.realtime = ps := by
      calc (w.eventTaskRemove stat (.rt p)).1.realtime
          = w.realtime.filter fun q => q ≠ p := by
            rw [realtime, realtime, List.filter_filter]
            refine List.filter_congr fun q _ => ?_
            simp [eventTaskRemove, ReadyTable.ready_clear (rt_le p), Fin.ext_iff, and_comm]
        _ = ps := by
            rw [hr, List.filter_cons_of_neg (by simp), List.filter_eq_self]
            simpa using hne
    rw [order, hrt]
    rfl

end Waiters

/-! ### One waiter -/

namespace EventState

variable {M : Type} {s s' : EventState M} {remote : TaskId → Bool} {msg : Option M}
  {msk : BitVec 16} {pendStat : PendStat} {t u : TaskId} {fuel : ℕ} {rest : List TaskId}

/-- The task still waits, or its time is over. -/
def pending (s : EventState M) (t : TaskId) : Bool := taskIsPending (s.tcb t).stat

/-- What is asked of a wake-up that returns `t`. -/
structure Woken (remote : TaskId → Bool) (msg : Option M) (msk : BitVec 16) (pendStat : PendStat)
    (s : EventState M) (t : Option TaskId) (s' : EventState M) : Prop where
  /-- the pending realtime waiter with the lowest number, if there is one -/
  realtime : ∀ p, s.waiters.Waits (.rt p) → s.pending (.rt p) = true →
    (∀ q < p, s.waiters.Waits (.rt q) → s.pending (.rt q) = false) → t = some (.rt p)
  /-- else the first pending waiter on the list, or `NULL` -/
  ordinary : (∀ p, s.waiters.Waits (.rt p) → s.pending (.rt p) = false) →
    t = (s.waiters.list.map .pcpu).find? s.pending
  /-- It is gone with those before it, whose time is over, and the others keep their order. -/
  order : s'.waiters.order = (s.waiters.order.dropWhile fun u => ! s.pending u).tail
  tcb : ∀ u, s'.tcb u =
    if t = some u then (s.tcb u).eventTaskReady (remote u) msg msk pendStat else s.tcb u

lemma eventTaskRemove_result (ho : s.waiters.order = t :: rest) :
    (s.eventTaskRemove t).2 = 0 ↔ s.pending t = true :=
  Waiters.eventTaskRemove_eq_zero (Waiters.mem_order.1 (ho ▸ List.mem_cons_self)) _

lemma order_eventTaskRemove (ho : s.waiters.order = t :: rest) :
    (s.eventTaskRemove t).1.waiters.order = rest :=
  Waiters.order_eventTaskRemove ho _

/-- The loop takes the waiters from the front until one is pending. -/
lemma eventHighestTaskReady_order (remote : TaskId → Bool) (msg : Option M) (msk : BitVec 16)
    (pendStat : PendStat) {l : List TaskId} (hs : s.waiters.WellFormed)
    (ho : s.waiters.order = l) (hfuel : l.length < fuel) :
    ∃ s', s.eventHighestTaskReady remote msg msk pendStat fuel = some (l.find? s.pending, s') ∧
      s'.waiters.WellFormed ∧ s'.waiters.order = (l.dropWhile fun u => ! s.pending u).tail ∧
      ∀ u, s'.tcb u = if l.find? s.pending = some u then
        (s.tcb u).eventTaskReady (remote u) msg msk pendStat else s.tcb u := by
  induction l generalizing s fuel with
  | nil =>
    obtain ⟨k, rfl⟩ := Nat.exists_eq_succ_of_ne_zero hfuel.ne'
    refine ⟨s, ?_, hs, ho, by simp⟩
    rw [eventHighestTaskReady, Waiters.eventGetWaiter_eq_head hs, ho]
    rfl
  | cons t rest ih =>
    obtain ⟨k, rfl⟩ := Nat.exists_eq_succ_of_ne_zero (Nat.ne_zero_of_lt hfuel)
    have hrest : (s.eventTaskRemove t).1.waiters.order = rest := order_eventTaskRemove ho
    have hwf : (s.eventTaskRemove t).1.waiters.WellFormed := hs.eventTaskRemove _
    rw [eventHighestTaskReady, Waiters.eventGetWaiter_eq_head hs, ho, List.head?_cons]
    dsimp only
    cases hp : s.pending t with
    | true =>
      -- the waiter is woken
      rw [if_pos ((eventTaskRemove_result ho).2 hp)]
      have hfind : (t :: rest).find? s.pending = some t := by rw [List.find?_cons_of_pos hp]
      have hdrop : ((t :: rest).dropWhile fun u => ! s.pending u).tail = rest := by
        rw [List.dropWhile_cons_of_neg (by simp [hp]), List.tail_cons]
      rw [hfind, hdrop]
      refine ⟨_, rfl, hwf, hrest, fun u => ?_⟩
      by_cases hu : u = t
      · subst hu
        rw [if_pos rfl]
        simp [eventTaskReady, eventTaskRemove]
      · rw [if_neg fun h => hu (Option.some.inj h).symm]
        simp [eventTaskReady, eventTaskRemove, hu]
    | false =>
      -- its time is over
      have hne : ¬ (s.eventTaskRemove t).2 = 0 := by
        rw [eventTaskRemove_result ho, hp]
        exact Bool.false_ne_true
      have hfind : (t :: rest).find? s.pending = rest.find? s.pending := by
        rw [List.find?_cons_of_neg (by simp [hp])]
      have hdrop : (t :: rest).dropWhile (fun u => ! s.pending u) =
          rest.dropWhile fun u => ! s.pending u := by
        rw [List.dropWhile_cons_of_pos (by simp [hp])]
      rw [if_neg hne, hfind, hdrop]
      exact ih hwf hrest (Nat.lt_of_succ_lt_succ hfuel)

/-- Realtime waiters come first in the order. -/
lemma find_order (s : EventState M) : s.waiters.order.find? s.pending =
    ((s.waiters.realtime.find? fun p => s.pending (.rt p)).map .rt).or
      ((s.waiters.list.map .pcpu).find? s.pending) := by
  rw [Waiters.order, List.find?_append, List.find?_map]
  rfl

lemma find_realtime {p : Fin OS_REALTIME_TASK} (hp : s.waiters.Waits (.rt p))
    (hpend : s.pending (.rt p) = true)
    (hmin : ∀ q < p, s.waiters.Waits (.rt q) → s.pending (.rt q) = false) :
    (s.waiters.realtime.find? fun p => s.pending (.rt p)) = some p := by
  cases hf : s.waiters.realtime.find? fun p => s.pending (.rt p) with
  | none => exact absurd hpend (List.find?_eq_none.1 hf p (Waiters.mem_realtime.2 hp))
  | some q =>
    obtain ⟨hq, as, bs, hl, has⟩ := List.find?_eq_some_iff_append.1 hf
    have hmem : q ∈ s.waiters.realtime := hl ▸ by simp
    have hle : ¬ q < p := by
      intro hlt
      rw [hmin q hlt (Waiters.mem_realtime.1 hmem)] at hq
      exact Bool.false_ne_true hq
    rcases (not_lt.1 hle).eq_or_lt with heq | hlt
    · rw [heq]
    · -- a smaller number is before `q`, where nobody is pending
      have hmem : p ∈ as ++ q :: bs := hl ▸ Waiters.mem_realtime.2 hp
      have hsorted := hl ▸ Waiters.realtime_sorted (w := s.waiters)
      rw [List.pairwise_append, List.pairwise_cons] at hsorted
      rcases List.mem_append.1 hmem with hmem | hmem
      · simpa [hpend] using has p hmem
      · rcases List.mem_cons.1 hmem with rfl | hmem
        · rfl
        · exact absurd (hsorted.2.1.1 p hmem) hlt.not_gt

/-- **Choosing whom to wake.** The loop ends, and wakes the most urgent waiter that is pending. -/
theorem event_highest_task_ready_woken (remote : TaskId → Bool) (msg : Option M) (msk : BitVec 16)
    (pendStat : PendStat) {s : EventState M} (hs : s.waiters.WellFormed) {fuel : ℕ}
    (hfuel : s.waiters.order.length < fuel) :
    ∃ t s', s.eventHighestTaskReady remote msg msk pendStat fuel = some (t, s') ∧
      s'.waiters.WellFormed ∧ s.Woken remote msg msk pendStat t s' := by
  obtain ⟨s', hrun, hwf, horder, htcb⟩ :=
    eventHighestTaskReady_order remote msg msk pendStat hs rfl hfuel
  refine ⟨_, s', hrun, hwf, ?_, ?_, horder, htcb⟩
  · intro p hp hpend hmin
    rw [find_order, find_realtime hp hpend hmin]
    rfl
  · intro hall
    have hnone : (s.waiters.realtime.find? fun p => s.pending (.rt p)) = none := by
      rw [List.find?_eq_none]
      intro p hp
      rw [hall p (Waiters.mem_realtime.1 hp)]
      exact Bool.false_ne_true
    rw [find_order, hnone]
    rfl

instance : NeZero OS_REALTIME_TASK := ⟨by decide⟩

instance : NeZero (OS_NR_TASKS - OS_REALTIME_TASK) := ⟨by decide⟩

/-- The time of task 3 is over, and a post passes over it to task 5. -/
def lateWaiter : EventState ℕ where
  waiters := ((Waiters.empty.eventTaskWait (.rt 5)).eventTaskWait (.pcpu 7)).eventTaskWait (.rt 3)
  tcb t := if t = .rt 3 then ⟨TASK_STAT_RDY, .to, 0, none, true⟩
    else ⟨TASK_STAT_Q, .ok, 10, none, false⟩

lemma lateWaiter_wellFormed : lateWaiter.waiters.WellFormed :=
  ⟨by decide +kernel, by decide +kernel⟩

theorem event_highest_task_ready_woken_late :
    ∃ s', lateWaiter.eventHighestTaskReady (fun _ => false) (some 9) TASK_STAT_Q .ok 4 =
        some (some (.rt 5), s') ∧
      lateWaiter.Woken (fun _ => false) (some 9) TASK_STAT_Q .ok (some (.rt 5)) s' ∧
      s'.waiters.order = [.pcpu 7] ∧ s'.tcb (.rt 5) = ⟨TASK_STAT_RDY, .ok, 0, some 9, true⟩ := by
  obtain ⟨t, s', hrun, -, h⟩ := event_highest_task_ready_woken (fun _ => false) (some 9)
    TASK_STAT_Q .ok lateWaiter_wellFormed (show lateWaiter.waiters.order.length < 4 by
      decide +kernel)
  obtain rfl : t = some (.rt 5) :=
    h.realtime 5 (by decide +kernel) (by decide +kernel) (by decide +kernel)
  refine ⟨s', hrun, h, ?_, ?_⟩
  · rw [h.order]
    decide +kernel
  · rw [h.tcb]
    decide +kernel

/-! ### All waiters -/

/-- The events with a wait set that `event_del_always` is called for -/
inductive EventType where
  | mbox
  | queue
  | sem
  | mutex
deriving DecidableEq, Repr

/-- The bit in the state of a task that waits for such an event -/
def EventType.pendBit : EventType → BitVec 16
  | mbox => TASK_STAT_MBOX
  | queue => TASK_STAT_Q
  | sem => TASK_STAT_SEM
  | mutex => TASK_STAT_MUTEX

/-- Every waiter is pending for this event, or its time is over. -/
def WaitersOf (type : EventType) (s : EventState M) : Prop :=
  ∀ t, s.waiters.Waits t →
    ((s.tcb t).stat = type.pendBit ∨ (s.tcb t).stat = TASK_STAT_RUNNING ||| type.pendBit) ∨
      s.pending t = false ∧ (s.tcb t).pendStat = .to

/-- What is asked of a deletion. -/
structure Released (type : EventType) (s s' : EventState M) : Prop where
  empty : ∀ t, ¬ s'.waiters.Waits t
  pending : ∀ t, s.waiters.Waits t → s.pending t = true →
    taskIsReady (s'.tcb t).stat = true ∧ (s'.tcb t).rdy = true ∧
      (s'.tcb t).stat &&& type.pendBit = 0 ∧ (s'.tcb t).pendStat = .abort
  late : ∀ t, s.waiters.Waits t → s.pending t = false →
    (s'.tcb t).stat = (s.tcb t).stat ∧ (s'.tcb t).pendStat = (s.tcb t).pendStat

/-- All waiters are gone, and all of them were readied as if they had waited for a mutex. -/
structure ReadiedAll (remote : TaskId → Bool) (s s' : EventState M) : Prop where
  empty : ∀ t, ¬ s'.waiters.Waits t
  tcb : ∀ t, s'.tcb t =
    if s.waiters.Waits t then (s.tcb t).eventTaskReady (remote t) none TASK_STAT_MUTEX .abort
    else s.tcb t

lemma delAlwaysList_tcb (remote : TaskId → Bool)
    {l : List (Fin (OS_NR_TASKS - OS_REALTIME_TASK))} (hl : s.waiters.list = l) (hnodup : l.Nodup) :
    (s.delAlwaysList remote l).waiters = ⟨s.waiters.tbl, []⟩ ∧
      ∀ u, (s.delAlwaysList remote l).tcb u = if u ∈ l.map .pcpu then
        (s.tcb u).eventTaskReady (remote u) none TASK_STAT_MUTEX .abort else s.tcb u := by
  induction l generalizing s with
  | nil =>
    refine ⟨?_, by simp [delAlwaysList]⟩
    calc s.waiters = ⟨s.waiters.tbl, s.waiters.list⟩ := rfl
      _ = ⟨s.waiters.tbl, []⟩ := by rw [hl]
  | cons n l ih =>
    obtain ⟨hn, hnodup⟩ := List.nodup_cons.1 hnodup
    let s₁ := (s.eventTaskRemove (.pcpu n)).1.eventTaskReady remote (.pcpu n) none
      TASK_STAT_MUTEX .abort
    have hw : s₁.waiters = ⟨s.waiters.tbl, l⟩ := by
      simp [s₁, eventTaskRemove, eventTaskReady, Waiters.eventTaskRemove, hl]
    obtain ⟨hwaiters, htcb⟩ := ih (show s₁.waiters.list = l by rw [hw]) hnodup
    refine ⟨hwaiters.trans (by rw [hw]), fun u => (htcb u).trans ?_⟩
    have hn' : TaskId.pcpu n ∉ l.map .pcpu := by simpa using hn
    by_cases hu : u = .pcpu n
    · rw [hu, if_neg hn', if_pos (by simp)]
      simp [s₁, eventTaskReady, eventTaskRemove]
    · have hs₁ : s₁.tcb u = s.tcb u := Function.update_of_ne hu ..
      simp only [hs₁, List.map_cons, List.mem_cons, hu, false_or]

lemma delAlwaysRealtime_tcb (remote : TaskId → Bool) {ps : List (Fin OS_REALTIME_TASK)}
    (hs : s.waiters.WellFormed)
    (hps : s.waiters.realtime = ps) (hlist : s.waiters.list = []) (hfuel : ps.length < fuel) :
    ∃ s', s.delAlwaysRealtime remote fuel = some s' ∧ s'.waiters.order = [] ∧
      ∀ u, s'.tcb u = if u ∈ ps.map .rt then
        (s.tcb u).eventTaskReady (remote u) none TASK_STAT_MUTEX .abort else s.tcb u := by
  induction ps generalizing s fuel with
  | nil =>
    obtain ⟨k, rfl⟩ := Nat.exists_eq_succ_of_ne_zero hfuel.ne'
    have hgrp : s.waiters.tbl.grp = 0 := by
      by_contra hgrp
      exact (Waiters.grp_ne_zero hs.consistent).1 hgrp hps
    refine ⟨s, ?_, by rw [Waiters.order, hps, hlist]; rfl, by simp⟩
    rw [delAlwaysRealtime, if_pos hgrp]
  | cons p ps ih =>
    obtain ⟨k, rfl⟩ := Nat.exists_eq_succ_of_ne_zero (Nat.ne_zero_of_lt hfuel)
    have hgrp : s.waiters.tbl.grp ≠ 0 :=
      (Waiters.grp_ne_zero hs.consistent).2 (by rw [hps]; exact List.cons_ne_nil _ _)
    rw [delAlwaysRealtime, if_neg hgrp, Waiters.highest_eq hs.consistent hps]
    dsimp only
    let s₁ := ((s.eventTaskReady remote (.rt p) none TASK_STAT_MUTEX .abort).eventTaskRemove
      (.rt p)).1
    have hwf : s₁.waiters.WellFormed := hs.eventTaskRemove _
    have ho : s.waiters.order = .rt p :: ps.map .rt := by
      rw [Waiters.order, hps, hlist]
      simp
    have hlist₁ : s₁.waiters.list = [] := hlist
    have ho₁ : s₁.waiters.order = ps.map .rt := order_eventTaskRemove ho
    have hps₁ : s₁.waiters.realtime = ps := by
      rw [Waiters.order, hlist₁, List.map_nil, List.append_nil] at ho₁
      exact (List.map_injective_iff.2 fun a b hab => TaskId.rt.inj hab) ho₁
    obtain ⟨s', hrun, horder, htcb⟩ := ih hwf hps₁ hlist₁ (Nat.lt_of_succ_lt_succ hfuel)
    refine ⟨s', hrun, horder, fun u => (htcb u).trans ?_⟩
    have hp : TaskId.rt p ∉ ps.map .rt := by
      have hsorted := hps ▸ Waiters.realtime_sorted (w := s.waiters)
      have hlt := (List.pairwise_cons.1 hsorted).1
      simpa using fun hmem => absurd (hlt p hmem) (lt_irrefl p)
    by_cases hu : u = .rt p
    · rw [hu, if_neg hp, if_pos (by simp)]
      simp [s₁, eventTaskReady, eventTaskRemove]
    · have hs₁ : s₁.tcb u = s.tcb u := Function.update_of_ne hu ..
      simp only [hs₁, List.map_cons, List.mem_cons, hu, false_or]

/-- Both loops end, and every waiter is treated alike. -/
lemma eventDelAlways_readied (remote : TaskId → Bool) (hs : s.waiters.WellFormed)
    (hfuel : s.waiters.realtime.length < fuel) :
    ∃ s', s.eventDelAlways remote fuel = some s' ∧ s.ReadiedAll remote s' := by
  obtain ⟨hw, hlist⟩ := delAlwaysList_tcb remote rfl hs.nodup
  have hwf : (s.delAlwaysList remote s.waiters.list).waiters.WellFormed := by
    rw [hw]
    exact ⟨hs.consistent, List.nodup_nil⟩
  have hps : (s.delAlwaysList remote s.waiters.list).waiters.realtime = s.waiters.realtime := by
    rw [hw]
    rfl
  obtain ⟨s', hrun, horder, htcb⟩ :=
    delAlwaysRealtime_tcb remote hwf hps (by rw [hw]) hfuel
  refine ⟨s', hrun, fun t ht => ?_, fun t => ?_⟩
  · rw [← Waiters.mem_order, horder] at ht
    exact List.not_mem_nil ht
  · rw [htcb, hlist]
    cases t with
    | rt p =>
      have hp : TaskId.rt p ∉ s.waiters.list.map .pcpu := by simp
      rw [if_neg hp]
      exact if_congr (by simp [Waiters.Waits, Waiters.mem_realtime]) rfl rfl
    | pcpu n =>
      have hn : TaskId.pcpu n ∉ s.waiters.realtime.map .rt := by simp
      rw [if_neg hn]
      exact if_congr (by simp [Waiters.Waits]) rfl rfl

/-- A task that waits for a mutex is the only one that the deletion makes ready. -/
lemma ready_sub_mutex {type : EventType} {stat : BitVec 16}
    (h : stat = type.pendBit ∨ stat = TASK_STAT_RUNNING ||| type.pendBit) :
    taskIsPending stat = true ∧
      (taskIsReady (stat &&& ~~~TASK_STAT_MUTEX) = true ∧
        stat &&& ~~~TASK_STAT_MUTEX &&& type.pendBit = 0 ↔ type = .mutex) := by
  rcases h with rfl | rfl
  · cases type <;> decide
  · cases type <;> decide

/-- **Deletion.** The waiters are released as they should be if no waiter is late, and the event is
a mutex unless nobody waits. -/
theorem event_del_always_releases_iff (remote : TaskId → Bool) {type : EventType}
    {s : EventState M} (hs : s.waiters.WellFormed) (hw : s.WaitersOf type) {fuel : ℕ}
    (hfuel : s.waiters.realtime.length < fuel) :
    (∃ s', s.eventDelAlways remote fuel = some s' ∧ Released type s s') ↔
      ∀ t, s.waiters.Waits t → s.pending t = true ∧ type = .mutex := by
  obtain ⟨s', hrun, hempty, htcb⟩ := eventDelAlways_readied remote hs hfuel
  have hready : ∀ t, s.waiters.Waits t → s'.tcb t =
      (s.tcb t).eventTaskReady (remote t) none TASK_STAT_MUTEX .abort := by
    intro t ht
    rw [htcb, if_pos ht]
  constructor
  · rintro ⟨s'', hrun', h⟩ t ht
    obtain rfl : s' = s'' := Option.some.inj (hrun.symm.trans hrun')
    rcases hw t ht with hstat | ⟨hlate, hto⟩
    · obtain ⟨hpend, hmutex⟩ := ready_sub_mutex hstat
      obtain ⟨hrdy, -, hbit, -⟩ := h.pending t ht hpend
      rw [hready t ht] at hrdy hbit
      exact ⟨hpend, hmutex.1 ⟨hrdy, hbit⟩⟩
    · have := (h.late t ht hlate).2
      rw [hready t ht, hto] at this
      exact PendStat.noConfusion this
  · intro h
    refine ⟨s', hrun, hempty, fun t ht hpend => ?_, fun t ht hlate => ?_⟩
    · obtain ⟨-, rfl⟩ := h t ht
      rcases hw t ht with hstat | ⟨hlate, -⟩
      · obtain ⟨hrdy, hbit⟩ := (ready_sub_mutex hstat).2.2 rfl
        rw [hready t ht]
        exact ⟨hrdy, rfl, hbit, rfl⟩
      · exact absurd (hpend.symm.trans hlate) (by decide)
    · exact absurd ((h t ht).1.symm.trans hlate) (by decide)

/-- A mutex with two waiters -/
def mutexWaiters : EventState ℕ where
  waiters := (Waiters.empty.eventTaskWait (.rt 5)).eventTaskWait (.pcpu 7)
  tcb _ := ⟨TASK_STAT_MUTEX, .ok, 10, none, false⟩

theorem event_del_always_releases_mutex :
    ∃ s', mutexWaiters.eventDelAlways (fun _ => false) 2 = some s' ∧
      Released .mutex mutexWaiters s' :=
  (event_del_always_releases_iff (fun _ => false)
    (show mutexWaiters.waiters.WellFormed from ⟨by decide +kernel, by decide +kernel⟩)
    (show mutexWaiters.WaitersOf .mutex from fun _ _ => .inl (.inl rfl)) (by decide +kernel)).2
      fun _ _ => ⟨show taskIsPending TASK_STAT_MUTEX = true by decide, rfl⟩

/-- A task that waits for a semaphore and one that is late are both left wrong. -/
theorem event_del_always_releases_sem :
    let s : EventState ℕ := ⟨Waiters.empty.eventTaskWait (.rt 5),
      fun _ => ⟨TASK_STAT_SEM, .ok, 0, none, false⟩⟩
    let late : EventState ℕ := ⟨Waiters.empty.eventTaskWait (.pcpu 7),
      fun _ => ⟨TASK_STAT_RDY, .to, 0, none, true⟩⟩
    (∃ s', s.eventDelAlways (fun _ => false) 2 = some s' ∧
      s'.tcb (.rt 5) = ⟨TASK_STAT_SEM, .abort, 0, none, true⟩ ∧ ¬ Released .sem s s') ∧
    ∃ s', late.eventDelAlways (fun _ => false) 2 = some s' ∧
      s'.tcb (.pcpu 7) = ⟨TASK_STAT_RDY, .abort, 0, none, true⟩ ∧ ¬ Released .sem late s' := by
  refine ⟨⟨_, rfl, by decide +kernel, fun h => ?_⟩, ⟨_, rfl, by decide +kernel, fun h => ?_⟩⟩
  · exact absurd (h.pending (.rt 5) (by decide +kernel) (by decide +kernel)).1 (by decide +kernel)
  · exact absurd (h.late (.pcpu 7) (by decide +kernel) (by decide +kernel)).2 (by decide +kernel)

end EventState

end Minos.Core
