import Mathlib
import Minos.Lib.ListCursor

/-!
# Timers

Every cpu has a list of armed timers, and `run_timer_softirq` walks over the list of its cpu. The
lock of the list is free while the function of a timer runs, and the walk then holds on to the entry
it comes to next. A timer that is on no list has a null `entry.next`.
-/

namespace Minos.Core

open Function ListCursor

def DEFAULT_TIMER_MARGIN : BitVec 64 := 10

/-- What `next` of `run_timer_softirq` points to: the head of the list of some cpu, the entry of a
timer, or null. -/
inductive TimerEntry where
  | head (cpu : ℕ)
  | timer (t : ℕ)
  | null
deriving DecidableEq

/-- Where a pass is: it comes to the next entry, has looked at the `del_request` of a timer, or
waits for the function of a timer. The lock is free in the last case alone. -/
inductive TimerPhase where
  | scan
  | checked (t : ℕ)
  | handler (t : ℕ)
deriving DecidableEq

/-- The variables of `run_timer_softirq` -/
structure TimerPass where
  now : BitVec 64
  next : TimerEntry
  expires : BitVec 64
  phase : TimerPhase
deriving DecidableEq

/-- The timers, with the list that each is on, and the `struct timers` of each cpu. `enabled` is
what `enable_timer` was last given on a cpu. -/
structure Timers where
  expires : ℕ → BitVec 64
  cpu : ℕ → ℕ
  delRequest : ℕ → Bool
  listOf : ℕ → Option ℕ
  active : ℕ → List ℕ
  runningExpires : ℕ → BitVec 64
  enabled : ℕ → Option (BitVec 64)
  pass : ℕ → Option TimerPass

namespace Timers

variable (s : Timers)

/-- `timer_pending` -/
def timerPending (t : ℕ) : Bool := (s.listOf t).isSome

/-- `list_del`, and `entry.next` set to null. For a timer that is on no list the writes are through
null, and no list changes. -/
def listDel (t : ℕ) : Timers :=
  match s.listOf t with
  | none => s
  | some k => { s with
      active := update s.active k ((s.active k).erase t)
      listOf := update s.listOf t none }

/-- `detach_timer` -/
def detachTimer (t : ℕ) : Timers :=
  if s.timerPending t then
    { s.listDel t with delRequest := update s.delRequest t false }
  else s

def setExpires (t : ℕ) (expires : BitVec 64) : Timers :=
  { s with expires := update s.expires t expires }

/-- The part of `mod_timer` for a timer of another cpu -/
def migrate (cpu t : ℕ) : Timers :=
  { s.detachTimer t with cpu := update s.cpu t cpu }

/-- `list_add_tail` -/
def listAddTail (k t : ℕ) : Timers :=
  { s with
    active := update s.active k (s.active k ++ [t])
    listOf := update s.listOf t (some k)
    delRequest := update s.delRequest t false }

/-- The end of `__mod_timer` -/
def reprogram (cpu k t : ℕ) : Timers :=
  if s.expires t < s.runningExpires k ∨ s.runningExpires k = 0 then
    { s with
      runningExpires := update s.runningExpires k (s.expires t)
      enabled := update s.enabled cpu (some (s.expires t)) }
  else s

/-- `__mod_timer` on a cpu, for the `struct timers` of `k` -/
def modTimerOn (cpu k t : ℕ) : Timers :=
  ((s.detachTimer t).listAddTail k t).reprogram cpu k t

/-- `mod_timer` on a cpu -/
def modTimer (cpu t : ℕ) (expires : BitVec 64) : Timers :=
  let s := s.setExpires t expires
  let s := if s.cpu t ≠ cpu then s.migrate cpu t else s
  s.modTimerOn cpu (s.cpu t) t

def setDelRequest (t : ℕ) : Timers := { s with delRequest := update s.delRequest t true }

/-- `del_timer` on a cpu -/
def delTimer (cpu t : ℕ) : Timers :=
  if s.timerPending t then
    if s.cpu t = cpu then s.detachTimer t else s.setDelRequest t
  else s

/-- `init_timer_on_cpu` of a timer whose memory was set to zero -/
def initTimerOnCpu (t cpu : ℕ) : Timers := { s with
  expires := update s.expires t 0
  cpu := update s.cpu t cpu
  delRequest := update s.delRequest t false
  listOf := update s.listOf t none }

/-! ### A pass -/

/-- What `entry.next` of a timer is. -/
def entryNext (t : ℕ) : TimerEntry :=
  match s.listOf t with
  | none => .null
  | some k => (next (s.active k) t).elim (.head k) .timer

def setPass (cpu : ℕ) (p : TimerPass) : Timers := { s with pass := update s.pass cpu (some p) }

/-- A pass begins. -/
def passBegin (cpu : ℕ) (now : BitVec 64) : Timers :=
  s.setPass cpu ⟨now, (s.active cpu).head?.elim (.head cpu) .timer, ~~~0, .scan⟩

/-- The end of a pass -/
def passEnd (cpu : ℕ) (expires : BitVec 64) : Timers :=
  let s := { s with pass := update s.pass cpu none }
  if expires ≠ ~~~0 then
    { s with
      runningExpires := update s.runningExpires cpu expires
      enabled := update s.enabled cpu (some expires) }
  else { s with runningExpires := update s.runningExpires cpu 0 }

/-- The condition of the loop, and its body up to the look at `del_request`. The walk never comes to
the head of another list unless a timer changed its list under it; what it would find there is no
timer. -/
def passLook (cpu : ℕ) (p : TimerPass) : Timers :=
  match p.next with
  | .head k => if k = cpu then s.passEnd cpu p.expires else s
  | .null => s.passEnd cpu p.expires
  | .timer t =>
    let next := s.entryNext t
    if s.delRequest t then
      ((s.listDel t).setExpires t (~~~0)).setPass cpu { p with next }
    else s.setPass cpu { p with next, phase := .checked t }

/-- A timer is due in a pass. -/
def Due (now : BitVec 64) (t : ℕ) : Prop := s.expires t ≤ now + DEFAULT_TIMER_MARGIN

instance (now : BitVec 64) (t : ℕ) : Decidable (s.Due now t) :=
  inferInstanceAs (Decidable (_ ≤ _))

/-- The end of the body of the loop -/
def passCount (cpu : ℕ) (p : TimerPass) (t : ℕ) : Timers :=
  let expires :=
    if s.timerPending t ∧ s.expires t < p.expires then s.expires t else p.expires
  s.setPass cpu { p with expires, phase := .scan }

/-- A due timer leaves the list and its function is called, another one is counted. -/
def passAct (cpu : ℕ) (p : TimerPass) (t : ℕ) : Timers :=
  if s.Due p.now t then (s.listDel t).setPass cpu { p with phase := .handler t }
  else s.passCount cpu p t

/-- A pass goes on by a step. For a pass that waits for a function this is the return of the
function. -/
def passStep (cpu : ℕ) : Timers :=
  match s.pass cpu with
  | none => s
  | some p =>
    match p.phase with
    | .scan => s.passLook cpu p
    | .checked t => s.passAct cpu p t
    | .handler t => s.passCount cpu p t

/-- A pass holds the lock of the list of `k`. -/
def Locked (k : ℕ) : Prop := ∃ p ∈ s.pass k, ∀ t, p.phase ≠ .handler t

instance (k : ℕ) : Decidable (s.Locked k) := by
  unfold Locked
  cases h : s.pass k with
  | none => exact isFalse (by simp)
  | some p =>
    cases hp : p.phase with
    | handler t => exact isFalse (by simp [hp])
    | scan => exact isTrue ⟨p, rfl, by simp [hp]⟩
    | checked t => exact isTrue ⟨p, rfl, by simp [hp]⟩

/-- `init_timers`, with timers that are on no list -/
def init (expires : ℕ → BitVec 64) (cpu : ℕ → ℕ) (delRequest : ℕ → Bool) : Timers where
  expires
  cpu
  delRequest
  listOf := fun _ => none
  active := fun _ => []
  runningExpires := fun _ => 0
  enabled := fun _ => none
  pass := fun _ => none

/-! ### Lists and the timers on them -/

/-- A timer is on the list of `k` at most once, and knows of it. -/
structure WfAt (k : ℕ) : Prop where
  nodup : (s.active k).Nodup
  listOf : ∀ t, t ∈ s.active k ↔ s.listOf t = some k

variable {s} {k t u : ℕ}

lemma timerPending_iff : s.timerPending t = true ↔ ∃ k, s.listOf t = some k :=
  Option.isSome_iff_exists

@[simp] lemma pass_setPass (cpu : ℕ) (p : TimerPass) : (s.setPass cpu p).pass cpu = some p :=
  update_self ..

lemma listDel_eq (t : ℕ) : s.listDel t =
    { s with active := (s.listDel t).active, listOf := (s.listDel t).listOf } := by
  rw [listDel]
  split
  · rfl
  · rfl

lemma detachTimer_eq (t : ℕ) : s.detachTimer t =
    { s.listDel t with delRequest := (s.detachTimer t).delRequest } := by
  rw [detachTimer]
  split_ifs with h
  · rfl
  · rw [timerPending, Bool.not_eq_true, Option.isSome_eq_false_iff, Option.isNone_iff_eq_none] at h
    rw [listDel, h]

lemma detachTimer_delRequest_of_ne (h : u ≠ t) :
    (s.detachTimer t).delRequest u = s.delRequest u := by
  rw [detachTimer]
  split_ifs
  · exact update_of_ne h ..
  · rfl

lemma listOf_listDel (t : ℕ) : (s.listDel t).listOf = update s.listOf t none := by
  rw [listDel]
  split
  · next h => rw [← h, update_eq_self]
  · rfl

namespace WfAt

lemma pending (h : s.WfAt k) (ht : t ∈ s.active k) : s.timerPending t = true := by
  rw [timerPending, (h.listOf t).1 ht]
  rfl

lemma active_listDel (h : s.WfAt k) (t : ℕ) : (s.listDel t).active k = (s.active k).erase t := by
  rw [listDel]
  split
  · next hnone =>
    refine (List.erase_of_not_mem fun ht => ?_).symm
    rw [(h.listOf t).1 ht] at hnone
    cases hnone
  · next j hj =>
    by_cases hk : k = j
    · subst hk
      exact update_self ..
    · refine (update_of_ne hk ..).trans (List.erase_of_not_mem fun ht => hk ?_).symm
      exact Option.some.inj (((h.listOf t).1 ht).symm.trans hj)

lemma listDel (h : s.WfAt k) (t : ℕ) : (s.listDel t).WfAt k where
  nodup := by
    rw [h.active_listDel]
    exact h.nodup.erase t
  listOf u := by
    rw [h.active_listDel, h.nodup.mem_erase_iff, listOf_listDel]
    by_cases hu : u = t
    · subst hu
      rw [update_self]
      simp
    · rw [update_of_ne hu, h.listOf]
      exact and_iff_right hu

lemma detachTimer (h : s.WfAt k) (t : ℕ) : (s.detachTimer t).WfAt k := by
  rw [detachTimer_eq]
  exact ⟨(h.listDel t).nodup, (h.listDel t).listOf⟩

lemma active_detachTimer (h : s.WfAt k) (t : ℕ) :
    (s.detachTimer t).active k = (s.active k).erase t := by
  rw [detachTimer_eq]
  exact h.active_listDel t

end WfAt

lemma active_listAddTail (j : ℕ) :
    (s.listAddTail j t).active k = s.active k ++ if k = j then [t] else [] := by
  rw [listAddTail]
  split_ifs with hk
  · subst hk
    exact update_self ..
  · exact (update_of_ne hk ..).trans (List.append_nil _).symm

/-- A timer that is on no list is put on one. -/
lemma WfAt.listAddTail (h : s.WfAt k) (j : ℕ) (ht : s.listOf t = none) :
    (s.listAddTail j t).WfAt k := by
  have hnot : t ∉ s.active k := fun hmem => by
    rw [(h.listOf t).1 hmem] at ht
    cases ht
  constructor
  · rw [active_listAddTail]
    split_ifs
    · exact List.nodup_append.2 ⟨h.nodup, List.nodup_singleton t, fun a ha b hb hab =>
        hnot (by rwa [← List.mem_singleton.1 hb, ← hab])⟩
    · rw [List.append_nil]
      exact h.nodup
  · intro u
    rw [active_listAddTail, List.mem_append]
    change _ ↔ update s.listOf t (some j) u = some k
    by_cases hu : u = t
    · subst hu
      rw [update_self, Option.some.injEq]
      split_ifs with hk
      · simp [hk]
      · simp [hnot, Ne.symm hk]
    · rw [update_of_ne hu, ← h.listOf]
      split_ifs
      · simp [hu]
      · simp

lemma reprogram_eq (cpu j t : ℕ) : s.reprogram cpu j t =
    { s with
      runningExpires := (s.reprogram cpu j t).runningExpires
      enabled := (s.reprogram cpu j t).enabled } := by
  rw [reprogram]
  split_ifs
  · rfl
  · rfl

lemma listOf_detachTimer (t : ℕ) : (s.detachTimer t).listOf = update s.listOf t none := by
  rw [detachTimer_eq]
  exact listOf_listDel t

lemma WfAt.modTimerOn (h : s.WfAt k) (cpu j t : ℕ) : (s.modTimerOn cpu j t).WfAt k := by
  have hnone : (s.detachTimer t).listOf t = none := by
    rw [listOf_detachTimer, update_self]
  have hadd := (h.detachTimer t).listAddTail j hnone
  rw [Timers.modTimerOn, reprogram_eq]
  exact ⟨hadd.nodup, hadd.listOf⟩

lemma WfAt.active_modTimerOn (h : s.WfAt k) (cpu j t : ℕ) :
    (s.modTimerOn cpu j t).active k = (s.active k).erase t ++ if k = j then [t] else [] := by
  rw [Timers.modTimerOn, reprogram_eq]
  exact (active_listAddTail j).trans (by rw [h.active_detachTimer])

lemma WfAt.migrate (h : s.WfAt k) (cpu t : ℕ) : (s.migrate cpu t).WfAt k :=
  ⟨(h.detachTimer t).nodup, (h.detachTimer t).listOf⟩

/-- What is next to an entry of a list is an entry of the list or its head. -/
lemma WfAt.entryNext (h : s.WfAt k) (ht : t ∈ s.active k) :
    s.entryNext t = (next (s.active k) t).elim (.head k) .timer := by
  rw [Timers.entryNext, (h.listOf t).1 ht]

/-! ### What comes on a list -/

lemma mem_of_listDel (h : u ∈ (s.listDel t).active k) : u ∈ s.active k := by
  rw [listDel] at h
  split at h
  · exact h
  · next j _ =>
    dsimp only at h
    by_cases hk : k = j
    · subst hk
      rw [update_self] at h
      exact List.mem_of_mem_erase h
    · rwa [update_of_ne hk] at h

lemma mem_of_detachTimer (h : u ∈ (s.detachTimer t).active k) : u ∈ s.active k := by
  rw [detachTimer_eq] at h
  exact mem_of_listDel h

lemma mem_of_delTimer {cpu : ℕ} (h : u ∈ (s.delTimer cpu t).active k) : u ∈ s.active k := by
  rw [delTimer] at h
  split_ifs at h
  · exact mem_of_detachTimer h
  · exact h
  · exact h

lemma mem_of_modTimerOn {cpu j : ℕ} (h : u ∈ (s.modTimerOn cpu j t).active k) :
    u ∈ s.active k ∨ u = t := by
  rw [modTimerOn, reprogram_eq] at h
  rw [active_listAddTail] at h
  rcases List.mem_append.1 h with h | h
  · exact Or.inl (mem_of_detachTimer h)
  · split_ifs at h
    · exact Or.inr (List.mem_singleton.1 h)
    · cases h

/-- `mod_timer` puts no other timer on a list. -/
lemma mem_of_modTimer {cpu : ℕ} {expires : BitVec 64}
    (h : u ∈ (s.modTimer cpu t expires).active k) : u ∈ s.active k ∨ u = t := by
  refine (mem_of_modTimerOn h).imp_left fun h => ?_
  split_ifs at h
  · exact mem_of_detachTimer (s := s.setExpires t expires) h
  · exact h

/-- A pass puts no timer on a list. -/
lemma mem_of_passStep {cpu : ℕ} (h : u ∈ (s.passStep cpu).active k) : u ∈ s.active k := by
  have hcount (p : TimerPass) (v : ℕ) (h : u ∈ (s.passCount cpu p v).active k) : u ∈ s.active k := h
  rw [passStep] at h
  split at h
  · exact h
  · next p _ =>
    split at h
    · rw [passLook] at h
      have hend (h : u ∈ (s.passEnd cpu p.expires).active k) : u ∈ s.active k := by
        rw [passEnd] at h
        split_ifs at h
        · exact h
        · exact h
      split at h
      · split_ifs at h
        · exact hend h
        · exact h
      · exact hend h
      · dsimp only at h
        split_ifs at h
        · exact mem_of_listDel h
        · exact h
    · next v _ =>
      rw [passAct] at h
      split_ifs at h
      · exact mem_of_listDel h
      · exact hcount p v h
    · next v _ => exact hcount p v h

end Timers

end Minos.Core
