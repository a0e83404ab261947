import Mathlib
import Minos.Core.Event

/-!
# Flag groups

A task waits until some or all flags of a mask are set or clear. A post changes the flags of the
group and goes over the tasks that wait.
-/

namespace Minos.Core

def OS_EVENT_TYPE_FLAG : ℕ := 5

def FLAG_WAIT_CLR_ALL : BitVec 32 := 0
def FLAG_WAIT_CLR_ANY : BitVec 32 := 1
def FLAG_WAIT_SET_ALL : BitVec 32 := 2
def FLAG_WAIT_SET_ANY : BitVec 32 := 3
def FLAG_CONSUME : BitVec 32 := 0x80

def FLAG_CLR : ℤ := 0
def FLAG_SET : ℤ := 1

structure FlagNode where
  task : TaskId
  flags : BitVec 32
  waitType : BitVec 32
deriving DecidableEq, Repr

structure FlagGrp where
  type : ℕ
  waitList : List FlagNode
  flags : BitVec 32
deriving DecidableEq, Repr

/-- A flag group with the tasks of the system. `flagsRdy` is a field of `struct task`. -/
structure FlagState (M : Type) where
  grp : FlagGrp
  tcb : TaskId → Tcb M
  flagsRdy : TaskId → BitVec 32

/-- `flag_create` with the result of `zalloc`. It writes through `NULL`, and has no result, when
there is no memory; otherwise it returns `NULL`. -/
def flagCreate (fg : Option FlagGrp) (_flags : BitVec 32) : Option (Option FlagGrp) :=
  match fg with
  | some _ => some none
  | none => none

namespace FlagGrp

/-- `invalid_flag` -/
def invalid (grp : FlagGrp) : Bool := grp.type != OS_EVENT_TYPE_FLAG

/-- `flag_wait_set_all` -/
def waitSetAll (grp : FlagGrp) (flags : BitVec 32) (consume : Bool) : BitVec 32 × FlagGrp :=
  let rdy := grp.flags &&& flags
  if rdy = flags then
    (rdy, if consume then { grp with flags := grp.flags &&& ~~~rdy } else grp)
  else (0, grp)

/-- `flag_wait_set_any` -/
def waitSetAny (grp : FlagGrp) (flags : BitVec 32) (consume : Bool) : BitVec 32 × FlagGrp :=
  let rdy := grp.flags &&& flags
  if rdy ≠ 0 then
    (rdy, if consume then { grp with flags := grp.flags &&& ~~~rdy } else grp)
  else (0, grp)

/-- `flag_wait_clr_all` -/
def waitClrAll (grp : FlagGrp) (flags : BitVec 32) (consume : Bool) : BitVec 32 × FlagGrp :=
  let rdy := ~~~grp.flags &&& flags
  if rdy = flags then
    (rdy, if consume then { grp with flags := grp.flags ||| rdy } else grp)
  else (0, grp)

/-- `flag_wait_clr_any` -/
def waitClrAny (grp : FlagGrp) (flags : BitVec 32) (consume : Bool) : BitVec 32 × FlagGrp :=
  let rdy := ~~~grp.flags &&& flags
  if rdy ≠ 0 then
    (rdy, if consume then { grp with flags := grp.flags ||| rdy } else grp)
  else (0, grp)

/-- The `switch` of `flag_accept` and `flag_pend` -/
def wait (grp : FlagGrp) (flags waitType : BitVec 32) (consume : Bool) : BitVec 32 × FlagGrp :=
  if waitType = FLAG_WAIT_SET_ALL then grp.waitSetAll flags consume
  else if waitType = FLAG_WAIT_SET_ANY then grp.waitSetAny flags consume
  else if waitType = FLAG_WAIT_CLR_ALL then grp.waitClrAll flags consume
  else if waitType = FLAG_WAIT_CLR_ANY then grp.waitClrAny flags consume
  else (0, grp)

end FlagGrp

namespace FlagState

variable {M : Type}

/-- `flag_block` of the task `t` -/
def flagBlock (s : FlagState M) (t : TaskId) (flags waitType : BitVec 32) (timeout : ℕ) :
    FlagState M :=
  { s with
    grp := { s.grp with waitList := s.grp.waitList ++ [⟨t, flags, waitType⟩] }
    tcb := Function.update s.tcb t ((s.tcb t).pend TASK_STAT_FLAG timeout).setTaskSleep }

/-- `flag_pend` of the task `t` up to `sched`. The result is `none` if the task has to sleep. -/
def flagPend (s : FlagState M) (t : TaskId) (flags waitType : BitVec 32) (timeout : ℕ) :
    Option (BitVec 32) × FlagState M :=
  if s.grp.invalid then (some 0, s)
  else
    let type := waitType &&& ~~~FLAG_CONSUME
    let r := s.grp.wait flags type (waitType &&& FLAG_CONSUME != 0)
    if r.1 ≠ 0 then (some r.1, { s with grp := r.2 })
    else (none, { s with grp := r.2 }.flagBlock t flags type timeout)

/-- `flag_task_ready`, whose body is compiled only in part -/
def flagTaskReady (s : FlagState M) (_node : FlagNode) (_flags : BitVec 32) : ℤ × FlagState M :=
  (0, s)

/-- The loop of `flag_post`, with `need_sched`. The case of `FLAG_WAIT_CLR_ANY` goes on to the
default, which returns from `flag_post`; `none` is this return. -/
def flagPostLoop : FlagState M → ℤ → List FlagNode → Option ℤ × FlagState M
  | s, needSched, [] => (some needSched, s)
  | s, needSched, node :: rest =>
    if node.waitType = FLAG_WAIT_SET_ALL then
      let rdy := s.grp.flags &&& node.flags
      if rdy = node.flags then
        flagPostLoop (s.flagTaskReady node rdy).2 (s.flagTaskReady node rdy).1 rest
      else flagPostLoop s needSched rest
    else if node.waitType = FLAG_WAIT_SET_ANY then
      let rdy := s.grp.flags &&& node.flags
      if rdy ≠ 0 then
        flagPostLoop (s.flagTaskReady node rdy).2 (s.flagTaskReady node rdy).1 rest
      else flagPostLoop s needSched rest
    else if node.waitType = FLAG_WAIT_CLR_ALL then
      let rdy := ~~~s.grp.flags &&& node.flags
      if rdy = node.flags then
        flagPostLoop (s.flagTaskReady node rdy).2 (s.flagTaskReady node rdy).1 rest
      else flagPostLoop s needSched rest
    else if node.waitType = FLAG_WAIT_CLR_ANY then
      let rdy := ~~~s.grp.flags &&& node.flags
      if rdy ≠ 0 then (none, (s.flagTaskReady node rdy).2) else (none, s)
    else (none, s)

/-- The `switch` of `flag_post` over `opt` -/
def postFlags (old flags : BitVec 32) (opt : ℤ) : BitVec 32 :=
  if opt = FLAG_CLR then old &&& ~~~flags
  else if opt = FLAG_SET then old ||| flags
  else old

/-- `flag_post`. `sched` is not called, because `flag_task_ready` never asks for it. -/
def flagPost (s : FlagState M) (flags : BitVec 32) (opt : ℤ) : BitVec 32 × FlagState M :=
  if s.grp.invalid ∨ FLAG_SET < opt then (BitVec.ofInt 32 (- EINVAL), s)
  else
    let s := { s with grp := { s.grp with flags := postFlags s.grp.flags flags opt } }
    let r := flagPostLoop s 0 s.grp.waitList
    match r.1 with
    | none => (0, r.2)
    | some _ => (r.2.grp.flags, r.2)

/-- Every task on the list is waiting for flags. -/
def Waiting (s : FlagState M) : Prop :=
  ∀ node ∈ s.grp.waitList, (s.tcb node.task).Pending TASK_STAT_FLAG

end FlagState

/-! ### What a waiter waits for -/

namespace FlagNode

variable {node : FlagNode} {flags : BitVec 32}

/-- The waiter has what it waits for. -/
def Satisfied (node : FlagNode) (flags : BitVec 32) : Prop :=
  (node.waitType = FLAG_WAIT_SET_ALL ∧ flags &&& node.flags = node.flags) ∨
  (node.waitType = FLAG_WAIT_SET_ANY ∧ flags &&& node.flags ≠ 0) ∨
  (node.waitType = FLAG_WAIT_CLR_ALL ∧ ~~~flags &&& node.flags = node.flags) ∨
  (node.waitType = FLAG_WAIT_CLR_ANY ∧ ~~~flags &&& node.flags ≠ 0)

instance : Decidable (node.Satisfied flags) := inferInstanceAs (Decidable (_ ∨ _))

/-- The flags that a waiter is woken with -/
def matching (node : FlagNode) (flags : BitVec 32) : BitVec 32 :=
  if node.waitType = FLAG_WAIT_SET_ALL ∨ node.waitType = FLAG_WAIT_SET_ANY then
    flags &&& node.flags
  else ~~~flags &&& node.flags

/-- `flag_post` returns when it comes to the waiter. -/
def Stops (node : FlagNode) : Prop :=
  node.waitType ≠ FLAG_WAIT_SET_ALL ∧ node.waitType ≠ FLAG_WAIT_SET_ANY ∧
    node.waitType ≠ FLAG_WAIT_CLR_ALL

instance : Decidable node.Stops := inferInstanceAs (Decidable (_ ∧ _))

end FlagNode

namespace FlagState

variable {M : Type} {s : FlagState M} {l : List FlagNode} {n : ℤ} {flags waitType : BitVec 32}
  {opt : ℤ} {t : TaskId} {timeout : ℕ}

/-- What is asked of a post, which returns `r.1`. -/
structure PostWakes (s : FlagState M) (flags : BitVec 32) (opt : ℤ)
    (r : BitVec 32 × FlagState M) : Prop where
  flags : r.2.grp.flags = postFlags s.grp.flags flags opt
  result : r.1 = r.2.grp.flags
  ready : ∀ node ∈ s.grp.waitList, node.Satisfied r.2.grp.flags →
    taskIsReady (r.2.tcb node.task).stat = true ∧ (r.2.tcb node.task).rdy = true ∧
      r.2.flagsRdy node.task = node.matching r.2.grp.flags
  waiting : ∀ node ∈ s.grp.waitList, ¬ node.Satisfied r.2.grp.flags →
    node ∈ r.2.grp.waitList ∧ r.2.tcb node.task = s.tcb node.task

/-- What is asked of the groups with the flags `flags` at first. -/
structure GroupsWork (M : Type) (flags : BitVec 32) : Prop where
  /-- If there is memory, a group is made. -/
  created : ∀ fg, flagCreate (some fg) flags = some (some ⟨OS_EVENT_TYPE_FLAG, [], flags⟩)
  posted : ∀ s : FlagState M, s.grp.type = OS_EVENT_TYPE_FLAG → s.Waiting → ∀ flags opt,
    opt = FLAG_CLR ∨ opt = FLAG_SET → s.PostWakes flags opt (s.flagPost flags opt)

lemma waitBit_flag : Tcb.WaitBit TASK_STAT_FLAG := by
  rintro stat (rfl | rfl)
  · decide
  · decide

lemma waiting_nil (h : s.grp.waitList = []) : s.Waiting := by
  rw [Waiting, h]
  exact nofun

lemma wait_waitList (grp : FlagGrp) (flags waitType : BitVec 32) (consume : Bool) :
    (grp.wait flags waitType consume).2.waitList = grp.waitList := by
  simp only [FlagGrp.wait, FlagGrp.waitSetAll, FlagGrp.waitSetAny, FlagGrp.waitClrAll,
    FlagGrp.waitClrAny]
  split_ifs <;> rfl

/-- A running task that begins to wait joins the others. -/
lemma Waiting.flagPend (h : s.Waiting) (ht : (s.tcb t).Calm) :
    (s.flagPend t flags waitType timeout).2.Waiting := by
  have hne : ∀ node ∈ s.grp.waitList, node.task ≠ t := by
    rintro node hnode rfl
    have hpend := (h node hnode).taskIsPending waitBit_flag
    exact absurd (ht.not_pending.symm.trans hpend) Bool.false_ne_true
  rw [FlagState.flagPend]
  dsimp only
  split_ifs
  · exact h
  · intro node hnode
    exact h node (wait_waitList s.grp _ _ _ ▸ hnode)
  · intro node hnode
    rcases List.mem_append.1 hnode with hnode | hnode
    · have hmem : node ∈ s.grp.waitList := wait_waitList s.grp _ _ _ ▸ hnode
      simpa [flagBlock, Function.update_of_ne (hne node hmem)] using h node hmem
    · obtain rfl := List.mem_singleton.1 hnode
      simpa [flagBlock] using (ht.pend TASK_STAT_FLAG timeout).setTaskSleep

/-- A waiter that does not stop the loop has no effect but on `need_sched`. -/
lemma flagPostLoop_cons (s : FlagState M) (n : ℤ) (node : FlagNode) (rest : List FlagNode) :
    (node.Stops → flagPostLoop s n (node :: rest) = (none, s)) ∧
      (¬ node.Stops → ∃ k, flagPostLoop s n (node :: rest) = flagPostLoop s k rest) := by
  rw [flagPostLoop, FlagNode.Stops]
  dsimp only [flagTaskReady]
  constructor
  · rintro ⟨hsetAll, hsetAny, hclrAll⟩
    rw [if_neg hsetAll, if_neg hsetAny, if_neg hclrAll]
    split_ifs <;> rfl
  · intro hstop
    split_ifs with hsetAll hrdy hsetAny hrdy hclrAll hrdy hclrAny
    case pos => exact ⟨0, rfl⟩
    case neg => exact ⟨n, rfl⟩
    case pos => exact ⟨0, rfl⟩
    case neg => exact ⟨n, rfl⟩
    case pos => exact ⟨0, rfl⟩
    case neg => exact ⟨n, rfl⟩
    all_goals exact absurd ⟨hsetAll, hsetAny, hclrAll⟩ hstop

/-- Nobody is woken, and the loop goes to the end unless a waiter stops it. -/
lemma flagPostLoop_eq (s : FlagState M) (n : ℤ) (l : List FlagNode) :
    (flagPostLoop s n l).2 = s ∧
      ((flagPostLoop s n l).1 = none ↔ ∃ node ∈ l, node.Stops) := by
  induction l generalizing n with
  | nil => simp [flagPostLoop]
  | cons node rest ih =>
    obtain ⟨hstops, hgoes⟩ := flagPostLoop_cons s n node rest
    by_cases hstop : node.Stops
    · rw [hstops hstop]
      exact ⟨rfl, iff_of_true rfl ⟨node, List.mem_cons_self, hstop⟩⟩
    · obtain ⟨k, hk⟩ := hgoes hstop
      rw [hk]
      simpa [hstop] using ih k

/-- A post changes the flags and nothing else. -/
lemma flagPost_eq (hgrp : s.grp.type = OS_EVENT_TYPE_FLAG) (hopt : opt ≤ FLAG_SET)
    (flags : BitVec 32) :
    (s.flagPost flags opt).2 =
        { s with grp := { s.grp with flags := postFlags s.grp.flags flags opt } } ∧
      (s.flagPost flags opt).1 = if ∃ node ∈ s.grp.waitList, node.Stops then 0
        else postFlags s.grp.flags flags opt := by
  have hvalid : ¬ (s.grp.invalid = true ∨ FLAG_SET < opt) := by
    simp [FlagGrp.invalid, hgrp, hopt]
  obtain ⟨hsnd, hfst⟩ := flagPostLoop_eq
    { s with grp := { s.grp with flags := postFlags s.grp.flags flags opt } } 0 s.grp.waitList
  rw [flagPost, if_neg hvalid]
  dsimp only
  cases hr : (flagPostLoop { s with
      grp := { s.grp with flags := postFlags s.grp.flags flags opt } } 0 s.grp.waitList).1 with
  | none => exact ⟨hsnd, (if_pos (hfst.1 hr)).symm⟩
  | some k =>
    have hno : ¬ ∃ node ∈ s.grp.waitList, node.Stops := by
      rw [← hfst, hr]
      exact Option.some_ne_none k
    exact ⟨hsnd, by rw [if_neg hno]; dsimp only; rw [hsnd]⟩

/-- **Flag groups.** None is ever made. A post to a group that was made in another way does what it
should if it satisfies nobody, and no waiter for some clear flags makes it return too early. -/
theorem flag_post_wakes_iff {s : FlagState M} (hgrp : s.grp.type = OS_EVENT_TYPE_FLAG)
    (hw : s.Waiting) {opt : ℤ} (hopt : opt = FLAG_CLR ∨ opt = FLAG_SET) (flags : BitVec 32) :
    (∀ f, ¬ GroupsWork M f) ∧ (s.PostWakes flags opt (s.flagPost flags opt) ↔
      (∀ node ∈ s.grp.waitList, ¬ node.Satisfied (postFlags s.grp.flags flags opt)) ∧
      ((∃ node ∈ s.grp.waitList, node.Stops) → postFlags s.grp.flags flags opt = 0)) := by
  have hle : opt ≤ FLAG_SET := by
    rcases hopt with rfl | rfl
    · decide
    · exact le_rfl
  obtain ⟨hstate, hresult⟩ := flagPost_eq hgrp hle flags
  constructor
  · intro f hf
    have := hf.created s.grp
    simp [flagCreate] at this
  constructor
  · intro h
    refine ⟨fun node hnode hsat => ?_, fun hstop => ?_⟩
    · have hrdy := (h.ready node hnode (h.flags ▸ hsat)).1
      rw [hstate] at hrdy
      have hnot := (waitBit_flag _ (hw node hnode).stat).2.1
      exact absurd (hnot.symm.trans hrdy) Bool.false_ne_true
    · have hres := h.result
      rw [hresult, if_pos hstop, h.flags] at hres
      exact hres.symm
  · rintro ⟨hunsat, hstop⟩
    refine ⟨by rw [hstate], ?_, fun node hnode hsat => ?_, fun node hnode _ => ?_⟩
    · rw [hresult, hstate]
      split_ifs with h
      · exact (hstop h).symm
      · rfl
    · rw [hstate] at hsat
      exact absurd hsat (hunsat node hnode)
    · rw [hstate]
      exact ⟨hnode, rfl⟩

/-- A group with no flags, and one task that waits -/
def oneWaiter (node : FlagNode) (flags : BitVec 32) : FlagState ℕ where
  grp := ⟨OS_EVENT_TYPE_FLAG, [node], flags⟩
  tcb _ := ⟨TASK_STAT_FLAG, .ok, 0, none, false⟩
  flagsRdy _ := 0

lemma oneWaiter_waiting (node : FlagNode) (flags : BitVec 32) : (oneWaiter node flags).Waiting :=
  fun _ _ => ⟨.inl rfl, rfl⟩

/-- The second flag is still missing. -/
theorem flag_post_wakes_none :
    let s := oneWaiter ⟨.rt ⟨5, by decide⟩, 0x3, FLAG_WAIT_SET_ALL⟩ 0
    s.PostWakes 0x1 FLAG_SET (s.flagPost 0x1 FLAG_SET) :=
  ((flag_post_wakes_iff rfl (oneWaiter_waiting _ _) (.inr rfl) 0x1).2).2
    ⟨by decide, by decide⟩

/-- No group is made though there is memory, a waiter whose flags are all set is not woken, and a
waiter for a clear flag changes the result. -/
theorem flag_post_wakes_set :
    let s := oneWaiter ⟨.rt ⟨5, by decide⟩, 0x3, FLAG_WAIT_SET_ALL⟩ 0x2
    let s' := oneWaiter ⟨.rt ⟨5, by decide⟩, 0x4, FLAG_WAIT_CLR_ANY⟩ 0x6
    flagCreate (some ⟨0, [], 0⟩) 0x1 = some none ∧ ¬ GroupsWork ℕ 0x1 ∧
      (s.flagPost 0x1 FLAG_SET).2.grp.flags = 0x3 ∧
      ((s.flagPost 0x1 FLAG_SET).2.tcb (.rt ⟨5, by decide⟩)).stat = TASK_STAT_FLAG ∧
      ¬ s.PostWakes 0x1 FLAG_SET (s.flagPost 0x1 FLAG_SET) ∧
      (s'.flagPost 0x1 FLAG_SET).1 = 0 ∧ (s'.flagPost 0x1 FLAG_SET).2.grp.flags = 0x7 ∧
      ¬ s'.PostWakes 0x1 FLAG_SET (s'.flagPost 0x1 FLAG_SET) := by
  intro s s'
  refine ⟨rfl, fun h => ?_, by decide, by decide, fun h => ?_, by decide, by decide, fun h => ?_⟩
  · have := h.created ⟨0, [], 0⟩
    simp [flagCreate] at this
  · have hrdy := (h.ready _ List.mem_cons_self (by decide)).1
    exact absurd hrdy (by decide)
  · exact absurd h.result (by decide)

end FlagState

end Minos.Core
