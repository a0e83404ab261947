import Mathlib
import Minos.Sched.PerCpu

/-!
# The lists of a cpu

What an operation of the scheduler does to the lists is one of a few moves: a task goes to the ready
list of its cpu, a task leaves the ready list, a cpu switches to another task. Whatever the cpus do,
a task is only on lists of its own cpu, and every task on a ready list is ready.
-/

namespace Minos.Sched

open Run

namespace Cpus

variable {s : Cpus} {c d x pid stat : ℕ} {t u : Task}

lemma mem_readyList_moveToReadyTail : x ∈ (s.moveToReadyTail c pid).readyList d ↔
    d = c ∧ x = pid ∨ x ∈ s.readyList d ∧ x ≠ pid := by
  by_cases h : d = c
  · subst h
    simp [moveToReadyTail, setReadyList, listDel, or_comm]
  · simp [moveToReadyTail, setReadyList, listDel, h]

lemma mem_readyList_moveToReadyHead : x ∈ (s.moveToReadyHead c pid).readyList d ↔
    d = c ∧ x = pid ∨ x ∈ s.readyList d ∧ x ≠ pid := by
  by_cases h : d = c
  · subst h
    simp [moveToReadyHead, setReadyList, listDel]
  · simp [moveToReadyHead, setReadyList, listDel, h]

lemma mem_readyList_listDel : x ∈ (s.listDel pid).readyList d ↔ x ∈ s.readyList d ∧ x ≠ pid := by
  simp [listDel]

lemma mem_newList_listDel : x ∈ (s.listDel pid).newList d ↔ x ∈ s.newList d ∧ x ≠ pid := by
  simp [listDel]

lemma setStat_of_ne (h : u ≠ t) : (s.setStat t stat).stat u = s.stat u :=
  Function.update_of_ne h _ _

lemma taskIsReady_setStat_rdy : (s.setStat t TASK_STAT_RDY).taskIsReady t :=
  .inl (Function.update_self _ _ _)

end Cpus

/-! ### The moves -/

/-- A ready task goes to the ready list of the cpu `c`. -/
structure MadeReady (c pid : ℕ) (s s' : Cpus) : Prop where
  current : s'.current = s.current
  stat : ∀ x ≠ pid, s'.stat (.pcpu x) = s.stat (.pcpu x)
  ready : s'.taskIsReady (.pcpu pid)
  mem_readyList : ∀ d x, x ∈ s'.readyList d ↔ d = c ∧ x = pid ∨ x ∈ s.readyList d ∧ x ≠ pid
  mem_newList : ∀ d x, x ∈ s'.newList d ↔ x ∈ s.newList d ∧ x ≠ pid
  calls : s'.calls = s.calls
  sending : s'.sending = s.sending

/-- A task leaves the ready list. -/
structure PutToSleep (pid : ℕ) (s s' : Cpus) : Prop where
  current : s'.current = s.current
  stat : ∀ x ≠ pid, s'.stat (.pcpu x) = s.stat (.pcpu x)
  mem_readyList : ∀ d x, x ∈ s'.readyList d ↔ x ∈ s.readyList d ∧ x ≠ pid
  mem_newList : ∀ d x, x ∈ s'.newList d ↔ x ∈ s.newList d ∧ x ≠ pid
  calls : s'.calls = s.calls
  sending : s'.sending = s.sending

/-- The lists and the calls stay, and no percpu task becomes less ready. -/
structure Unmoved (s s' : Cpus) : Prop where
  current : s'.current = s.current
  ready : ∀ pid, s.taskIsReady (.pcpu pid) → s'.taskIsReady (.pcpu pid)
  readyList : s'.readyList = s.readyList
  newList : s'.newList = s.newList
  calls : s'.calls = s.calls

/-- The cpu `c` has `next` as its current task, which comes from its ready list unless it is not a
percpu task. -/
structure Switched (c : ℕ) (next : Task) (s s' : Cpus) : Prop where
  current : s'.current = Function.update s.current c next
  stat : ∀ t ≠ next, s'.stat t = s.stat t
  running : s'.stat next = TASK_STAT_RUNNING
  readyList : s'.readyList = s.readyList
  newList : s'.newList = s.newList
  calls : s'.calls = s.calls
  sending : s'.sending = s.sending
  next : (∃ p, next = .rt p) ∨ (∃ pid ∈ s.readyList c, next = .pcpu pid) ∨ next = .idle c

/-! ### The invariant -/

structure OnLists (C : Config) (s : Cpus) : Prop where
  idle : ∀ c k, s.current c = .idle k → k = c
  affine : ∀ c pid, s.current c = .pcpu pid → C.affinity pid = c
  readyAffine : ∀ c, ∀ pid ∈ s.readyList c, C.affinity pid = c
  newAffine : ∀ c, ∀ pid ∈ s.newList c, C.affinity pid = c
  fresh : ∀ d, ∀ pid ∈ s.newList d, ∀ c, pid ∉ s.readyList c ∧ s.current c ≠ .pcpu pid
  callsAffine : ∀ c a call, s.calls c a = some call → C.affinity call.pid = c
  ready : ∀ c, ∀ pid ∈ s.readyList c, s.taskIsReady (.pcpu pid)

variable {C : Config} {s s' : Cpus} {c d pid : ℕ} {next : Task}

lemma OnLists.unmoved (h : OnLists C s) (hm : Unmoved s s') : OnLists C s' where
  idle := hm.current ▸ h.idle
  affine := hm.current ▸ h.affine
  readyAffine := hm.readyList ▸ h.readyAffine
  newAffine := hm.newList ▸ h.newAffine
  fresh := hm.newList ▸ hm.readyList ▸ hm.current ▸ h.fresh
  callsAffine := hm.calls ▸ h.callsAffine
  ready c pid hpid := hm.ready pid (h.ready c pid (hm.readyList ▸ hpid))

lemma OnLists.madeReady (h : OnLists C s) (hm : MadeReady c pid s s') (haff : C.affinity pid = c) :
    OnLists C s' where
  idle := hm.current ▸ h.idle
  affine := hm.current ▸ h.affine
  readyAffine d x hx := by
    rcases (hm.mem_readyList d x).1 hx with ⟨rfl, rfl⟩ | ⟨hx, -⟩
    · exact haff
    · exact h.readyAffine d x hx
  newAffine d x hx := h.newAffine d x ((hm.mem_newList d x).1 hx).1
  fresh d x hx e := by
    obtain ⟨hx, hne⟩ := (hm.mem_newList d x).1 hx
    obtain ⟨hmem, hc⟩ := h.fresh d x hx e
    refine ⟨fun h' => ?_, hm.current ▸ hc⟩
    rcases (hm.mem_readyList e x).1 h' with ⟨-, hxp⟩ | ⟨h', -⟩
    · exact hne hxp
    · exact hmem h'
  callsAffine := hm.calls ▸ h.callsAffine
  ready d x hx := by
    rcases (hm.mem_readyList d x).1 hx with ⟨rfl, rfl⟩ | ⟨hx, hne⟩
    · exact hm.ready
    · rw [Cpus.taskIsReady, hm.stat x hne]
      exact h.ready d x hx

lemma OnLists.putToSleep (h : OnLists C s) (hm : PutToSleep pid s s') : OnLists C s' where
  idle := hm.current ▸ h.idle
  affine := hm.current ▸ h.affine
  readyAffine d x hx := h.readyAffine d x ((hm.mem_readyList d x).1 hx).1
  newAffine d x hx := h.newAffine d x ((hm.mem_newList d x).1 hx).1
  fresh d x hx e := by
    obtain ⟨hmem, hc⟩ := h.fresh d x ((hm.mem_newList d x).1 hx).1 e
    exact ⟨fun h' => hmem ((hm.mem_readyList e x).1 h').1, hm.current ▸ hc⟩
  callsAffine := hm.calls ▸ h.callsAffine
  ready d x hx := by
    obtain ⟨hx, hne⟩ := (hm.mem_readyList d x).1 hx
    rw [Cpus.taskIsReady, hm.stat x hne]
    exact h.ready d x hx

lemma Switched.mem (hm : Switched c next s s') (hpid : next = .pcpu pid) : pid ∈ s.readyList c := by
  subst hpid
  rcases hm.next with ⟨p, hp⟩ | ⟨x, hx, heq⟩ | hidle
  · cases hp
  · cases heq
    exact hx
  · cases hidle

lemma Switched.cases (hm : Switched c next s s') {t : Task} (hd : s'.current d = t) :
    d = c ∧ next = t ∨ d ≠ c ∧ s.current d = t := by
  rw [hm.current, Function.update_apply] at hd
  split_ifs at hd with hdc
  · exact .inl ⟨hdc, hd⟩
  · exact .inr ⟨hdc, hd⟩

lemma OnLists.switched (h : OnLists C s) (hm : Switched c next s s') : OnLists C s' where
  idle d k hd := by
    rcases hm.cases hd with ⟨rfl, rfl⟩ | ⟨-, hd⟩
    · rcases hm.next with ⟨p, hp⟩ | ⟨x, -, heq⟩ | hidle
      · cases hp
      · cases heq
      · cases hidle
        rfl
    · exact h.idle d k hd
  affine d x hd := by
    rcases hm.cases hd with ⟨rfl, hx⟩ | ⟨-, hd⟩
    · exact h.readyAffine d x (hm.mem hx)
    · exact h.affine d x hd
  readyAffine := hm.readyList ▸ h.readyAffine
  newAffine := hm.newList ▸ h.newAffine
  fresh d x hx e := by
    rw [hm.newList] at hx
    refine ⟨hm.readyList ▸ (h.fresh d x hx e).1, fun he => ?_⟩
    rcases hm.cases he with ⟨rfl, hxn⟩ | ⟨-, he⟩
    · exact (h.fresh d x hx e).1 (hm.mem hxn)
    · exact (h.fresh d x hx e).2 he
  callsAffine := hm.calls ▸ h.callsAffine
  ready d x hx := by
    by_cases hxn : Task.pcpu x = next
    · exact .inr (hxn ▸ hm.running)
    · rw [Cpus.taskIsReady, hm.stat _ hxn]
      exact h.ready d x (hm.readyList ▸ hx)

/-! ### What the operations do -/

lemma setTaskReady_local (s : Cpus) (c pid : ℕ) : MadeReady c pid s
    ((s.setStat (.pcpu pid) TASK_STAT_RDY).moveToReadyHead c pid) where
  current := rfl
  stat x hx := Cpus.setStat_of_ne (by simpa using hx)
  ready := Cpus.taskIsReady_setStat_rdy
  mem_readyList _ _ := Cpus.mem_readyList_moveToReadyHead
  mem_newList _ _ := Cpus.mem_newList_listDel
  calls := rfl
  sending := rfl

lemma moveToReadyTail_madeReady (hready : s.taskIsReady (.pcpu pid)) :
    MadeReady c pid s (s.moveToReadyTail c pid) where
  current := rfl
  stat _ _ := rfl
  ready := hready
  mem_readyList _ _ := Cpus.mem_readyList_moveToReadyTail
  mem_newList _ _ := Cpus.mem_newList_listDel
  calls := rfl
  sending := rfl

lemma moveToSleepHead_putToSleep (s : Cpus) (c pid stat : ℕ) :
    PutToSleep pid s ((s.setStat (.pcpu pid) stat).moveToSleepHead c pid) where
  current := rfl
  stat x hx := Cpus.setStat_of_ne (by simpa using hx)
  mem_readyList _ _ := Cpus.mem_readyList_listDel
  mem_newList _ _ := Cpus.mem_newList_listDel
  calls := rfl
  sending := rfl

lemma moveToSleepTail_putToSleep (s : Cpus) (c pid : ℕ) :
    PutToSleep pid s (s.moveToSleepTail c pid) where
  current := rfl
  stat _ _ := rfl
  mem_readyList _ _ := Cpus.mem_readyList_listDel
  mem_newList _ _ := Cpus.mem_newList_listDel
  calls := rfl
  sending := rfl

lemma Unmoved.setStat {t : Task} (ht : ∀ pid, t ≠ .pcpu pid) (stat : ℕ) :
    Unmoved s (s.setStat t stat) where
  current := rfl
  ready pid hr := by rwa [Cpus.taskIsReady, Cpus.setStat_of_ne (ht pid).symm]
  readyList := rfl
  newList := rfl
  calls := rfl

/-- Another cpu marks the task ready and is going to call. -/
lemma Unmoved.mark (s : Cpus) (pid : ℕ) (sending : ℕ → Option SmpCall) :
    Unmoved s { s.setStat (.pcpu pid) TASK_STAT_RDY with sending := sending } where
  current := rfl
  ready x hx := by
    by_cases hxp : x = pid
    · subst hxp
      exact Cpus.taskIsReady_setStat_rdy
    · rw [Cpus.taskIsReady]
      dsimp only
      rwa [Cpus.setStat_of_ne (by simpa using hxp)]
  readyList := rfl
  newList := rfl
  calls := rfl

lemma smpSetTaskReady_cases (s : Cpus) (c pid : ℕ) :
    (s.current c = .pcpu pid ∨ ¬ s.taskIsReady (.pcpu pid)) ∧ smpSetTaskReady s c pid = s ∨
    s.current c ≠ .pcpu pid ∧ MadeReady c pid s (s.moveToReadyTail c pid) ∧
      smpSetTaskReady s c pid = (s.moveToReadyTail c pid).setNeedResched c := by
  rw [smpSetTaskReady]
  split_ifs with hdecl
  · exact .inl ⟨hdecl, rfl⟩
  · rw [not_or, not_not] at hdecl
    exact .inr ⟨hdecl.1, moveToReadyTail_madeReady hdecl.2, rfl⟩

lemma smpSetTaskSuspend_cases (s : Cpus) (c pid : ℕ) :
    smpSetTaskSuspend s c pid = s ∨
    s.current c ≠ .pcpu pid ∧ smpSetTaskSuspend s c pid = s.moveToSleepTail c pid := by
  rw [smpSetTaskSuspend]
  split_ifs with hdecl
  · exact .inl rfl
  · exact .inr ⟨(not_or.1 hdecl).1, rfl⟩

lemma addNewTask_cases (s : Cpus) (c pid : ℕ) :
    MadeReady c pid s (addNewTask c s pid) ∨ PutToSleep pid s (addNewTask c s pid) := by
  rw [addNewTask]
  split_ifs with hstat
  · exact .inl (moveToReadyTail_madeReady (.inl hstat))
  · exact .inr (moveToSleepTail_putToSleep s c pid)

/-- The choice looks at the ready list, and it can only add resched interrupts. -/
lemma pickNext_spec (C : Config) (s : Cpus) (c : ℕ) :
    (∃ highestRdy resched, (pickNext C s c).1 = { s with
      highestRdy := highestRdy, resched := resched } ∧
        ∀ d, resched d = false → s.resched d = false) ∧
    ((∃ p, (pickNext C s c).2 = .rt p) ∨
      (∃ pid ∈ s.readyList c, (pickNext C s c).2 = .pcpu pid) ∨
      (pickNext C s c).2 = .idle c ∧ s.readyList c = []) := by
  rw [pickNext]
  cases C.cls c with
  | loc =>
    refine ⟨⟨_, _, rfl, fun d hd => hd⟩, .inr ?_⟩
    cases hlist : s.readyList c with
    | nil => exact .inr ⟨by simp [getNextLocalRunTask, hlist], rfl⟩
    | cons pid l => exact .inl ⟨pid, by simp, by simp [getNextLocalRunTask, hlist]⟩
  | global =>
    refine ⟨⟨_, _, rfl, fun d hd => ?_⟩, ?_⟩
    · rw [Bool.or_eq_false_iff] at hd
      exact hd.1
    · simp only [globalPick, getNextGlobalRunTask]
      split_ifs
      · exact .inl ⟨_, rfl⟩
      · right
        cases hlist : s.readyList c with
        | nil => exact .inr ⟨rfl, rfl⟩
        | cons pid l => exact .inl ⟨pid, by simp, rfl⟩

/-- The task that is switched out stays where it is, or it is ready and goes to the ready list. -/
lemma switchOut_cases (s : Cpus) (c : ℕ) :
    (¬ (∃ pid, s.current c = .pcpu pid ∧ s.taskIsReady (.pcpu pid)) ∧
      Unmoved s (switchOut s c (s.current c)) ∧
      (∀ x, (switchOut s c (s.current c)).stat (.pcpu x) = s.stat (.pcpu x)) ∧
      (switchOut s c (s.current c)).sending = s.sending) ∨
    ∃ pid, s.current c = .pcpu pid ∧ s.taskIsReady (.pcpu pid) ∧
      MadeReady c pid s (switchOut s c (s.current c)) := by
  unfold switchOut
  cases hcur : s.current c with
  | idle k =>
    refine .inl ⟨by simp, ?_⟩
    split_ifs
    · exact ⟨.setStat (by simp) _, fun x => Cpus.setStat_of_ne (by simp), rfl⟩
    · exact ⟨⟨rfl, fun _ hx => hx, rfl, rfl, rfl⟩, fun _ => rfl, rfl⟩
  | rt p =>
    refine .inl ⟨by simp, ?_⟩
    split_ifs
    · exact ⟨.setStat (by simp) _, fun x => Cpus.setStat_of_ne (by simp), rfl⟩
    · exact ⟨⟨rfl, fun _ hx => hx, rfl, rfl, rfl⟩, fun _ => rfl, rfl⟩
  | pcpu pid =>
    split_ifs with hready
    · refine .inr ⟨pid, rfl, hready, ?_⟩
      have hm : MadeReady c pid s (s.moveToReadyTail c pid) := moveToReadyTail_madeReady hready
      exact ⟨hm.current, fun x hx => (Cpus.setStat_of_ne (by simpa using hx)).trans (hm.stat x hx),
        Cpus.taskIsReady_setStat_rdy, hm.mem_readyList, hm.mem_newList, hm.calls, hm.sending⟩
    · exact .inl ⟨fun ⟨x, hx, hr⟩ => hready (by rwa [Task.pcpu.inj hx]),
        ⟨rfl, fun _ hx => hx, rfl, rfl, rfl⟩, fun _ => rfl, rfl⟩

lemma switchOut_flags (s : Cpus) (c : ℕ) (cur : Task) :
    (switchOut s c cur).needResched = s.needResched ∧ (switchOut s c cur).resched = s.resched := by
  unfold switchOut
  split_ifs
  · cases cur <;> exact ⟨rfl, rfl⟩
  · exact ⟨rfl, rfl⟩

lemma switchOut_mem {x : ℕ} (hx : x ∈ s.readyList c) :
    x ∈ (switchOut s c (s.current c)).readyList c := by
  rcases switchOut_cases s c with ⟨-, hm, -, -⟩ | ⟨pid, -, -, hm⟩
  · rwa [hm.readyList]
  · by_cases hxp : x = pid
    · exact (hm.mem_readyList c x).2 (.inl ⟨rfl, hxp⟩)
    · exact (hm.mem_readyList c x).2 (.inr ⟨hx, hxp⟩)

/-- Whatever its class, the cpu has the next task as its current task. -/
lemma switchTo_switched (C : Config)
    (hnext : (∃ p, next = .rt p) ∨ (∃ pid ∈ s.readyList c, next = .pcpu pid) ∨ next = .idle c) :
    Switched c next (switchOut s c (s.current c)) (switchTo C s c (s.current c) next) := by
  have hnext' : (∃ p, next = .rt p) ∨
      (∃ pid ∈ (switchOut s c (s.current c)).readyList c, next = .pcpu pid) ∨ next = .idle c :=
    hnext.imp_right (Or.imp_left fun ⟨x, hx, heq⟩ => ⟨x, switchOut_mem hx, heq⟩)
  rw [switchTo]
  cases C.cls c
  all_goals
    exact ⟨rfl, fun t ht => Function.update_of_ne ht _ _, Function.update_self _ _ _, rfl, rfl, rfl,
      rfl, hnext'⟩

lemma switchTo_flags (C : Config) (s : Cpus) (c : ℕ) (cur next : Task) :
    (switchTo C s c cur next).needResched = s.needResched ∧
    (switchTo C s c cur next).resched = s.resched := by
  obtain ⟨hneed, hresched⟩ := switchOut_flags s c cur
  rw [switchTo, ← hneed, ← hresched]
  cases C.cls c <;> exact ⟨rfl, rfl⟩

/-! ### Runs -/

lemma OnLists.setNeedResched (h : OnLists C s) : OnLists C (s.setNeedResched c) :=
  h.unmoved ⟨rfl, fun _ hx => hx, rfl, rfl, rfl⟩

lemma OnLists.clearNeedResched (h : OnLists C s) (t : Task) : OnLists C (s.clearNeedResched t) :=
  h.unmoved ⟨rfl, fun _ hx => hx, rfl, rfl, rfl⟩

lemma setTaskReady_onLists (h : OnLists C s) (c pid : ℕ) :
    OnLists C (setTaskReady C (s.setStat (.pcpu pid) TASK_STAT_RDY) c (.pcpu pid)) := by
  rw [setTaskReady]
  split_ifs with haff
  · exact h.unmoved (.mark s pid _)
  · exact (h.madeReady (setTaskReady_local s c pid) (not_not.1 haff).symm).setNeedResched

lemma wakeTask_onLists (h : OnLists C s) (t : Task) : OnLists C (wakeTask C s c t) := by
  rw [wakeTask]
  split_ifs with hready
  · exact h
  · cases t with
    | idle k => exact h.unmoved (.setStat (by simp) _)
    | rt p =>
      exact OnLists.setNeedResched ((h.unmoved (.setStat (t := .rt p) (by simp) _)).unmoved
        ⟨rfl, fun _ hx => hx, rfl, rfl, rfl⟩)
    | pcpu pid => exact setTaskReady_onLists h c pid

/-- A task of this cpu goes to its sleep list with another `stat`. -/
lemma setTaskSleep_onLists (h : OnLists C s) (haff : C.affinity pid = c) (stat : ℕ) :
    OnLists C (setTaskSleep C (s.setStat (.pcpu pid) stat) c (.pcpu pid)) := by
  rw [setTaskSleep, if_neg (by simp [haff])]
  exact h.putToSleep (moveToSleepHead_putToSleep s c pid stat)

lemma sleepTask_onLists (h : OnLists C s) (stat : ℕ) : OnLists C (sleepTask C s c stat) := by
  rw [sleepTask]
  split_ifs
  · exact h
  · cases hcur : s.current c with
    | idle k => exact h.unmoved (.setStat (by simp) _)
    | rt p =>
      exact (h.unmoved (.setStat (t := .rt p) (by simp) stat)).unmoved
        ⟨rfl, fun _ hx => hx, rfl, rfl, rfl⟩
    | pcpu pid => exact setTaskSleep_onLists h (h.affine c pid hcur) stat

/-- Only the calls change, and each call is at the cpu of its task. -/
lemma OnLists.setCalls (h : OnLists C s) (sending : ℕ → Option SmpCall)
    {calls : ℕ → ℕ → Option SmpCall}
    (hcalls : ∀ d a call, calls d a = some call → C.affinity call.pid = d) :
    OnLists C { s with calls := calls, sending := sending } :=
  ⟨h.idle, h.affine, h.readyAffine, h.newAffine, h.fresh, hcalls, h.ready⟩

lemma clearCall_calls {a b : ℕ} {call : SmpCall} (h : (clearCall s c a).calls d b = some call) :
    s.calls d b = some call := by
  simp only [clearCall] at h
  by_cases hd : d = c
  · subst hd
    rw [Function.update_self, Function.update_apply] at h
    split_ifs at h
    exact h
  · rwa [Function.update_of_ne hd] at h

lemma OnLists.clearCall (h : OnLists C s) (c a : ℕ) : OnLists C (clearCall s c a) :=
  h.setCalls s.sending fun d b call hb => h.callsAffine d b call (clearCall_calls hb)

lemma smpFunctionCall_onLists (h : OnLists C s) (a : ℕ) : OnLists C (smpFunctionCall C s a) := by
  rw [smpFunctionCall]
  cases hsend : s.sending a with
  | none => exact h
  | some call =>
    dsimp only
    split_ifs
    · exact h
    · refine h.setCalls _ fun d b call' hb => ?_
      by_cases hd : d = C.affinity call.pid
      · subst hd
        rw [Function.update_self, Function.update_apply] at hb
        split_ifs at hb with hba
        · rw [Option.some.injEq] at hb
          rw [hb]
        · exact h.callsAffine _ b call' hb
      · rw [Function.update_of_ne hd] at hb
        exact h.callsAffine d b call' hb

lemma smpSetTaskReady_onLists (h : OnLists C s) (haff : C.affinity pid = c) :
    OnLists C (smpSetTaskReady s c pid) := by
  rcases smpSetTaskReady_cases s c pid with ⟨-, heq⟩ | ⟨-, hm, heq⟩
  · rwa [heq]
  · rw [heq]
    exact (h.madeReady hm haff).setNeedResched

lemma smpFunctionCallHandler_onLists (h : OnLists C s) (c a : ℕ) :
    OnLists C (smpFunctionCallHandler s c a) := by
  rw [smpFunctionCallHandler]
  cases hcall : s.calls c a with
  | none => exact h
  | some call =>
    cases call with
    | setTaskReady pid =>
      exact (smpSetTaskReady_onLists h (h.callsAffine c a _ hcall)).clearCall c a
    | setTaskSuspend pid =>
      refine OnLists.clearCall ?_ c a
      rcases smpSetTaskSuspend_cases s c pid with heq | ⟨-, heq⟩
      · rwa [heq]
      · rw [heq]
        exact h.putToSleep (moveToSleepTail_putToSleep s c pid)

lemma addNewTask_onLists (h : OnLists C s) (haff : C.affinity pid = c) :
    OnLists C (addNewTask c s pid) := by
  rcases addNewTask_cases s c pid with hm | hm
  · exact h.madeReady hm haff
  · exact h.putToSleep hm

lemma addNewTasks_onLists {l : List ℕ} (h : OnLists C s) (hl : ∀ pid ∈ l, C.affinity pid = c) :
    OnLists C (l.foldl (addNewTask c) s) := by
  induction l generalizing s with
  | nil => exact h
  | cons pid l ih =>
    exact ih (addNewTask_onLists h (hl pid (by simp))) fun x hx => hl x (by simp [hx])

lemma reschedHandler_onLists (h : OnLists C s) (c : ℕ) : OnLists C (reschedHandler s c) := by
  rw [reschedHandler]
  split_ifs
  · have h0 : OnLists C { s with resched := Function.update s.resched c false } :=
      h.unmoved ⟨rfl, fun _ hx => hx, rfl, rfl, rfl⟩
    exact (addNewTasks_onLists h0 (h.newAffine c)).setNeedResched
  · exact h

lemma schedTickHandler_onLists (h : OnLists C s) (c : ℕ) : OnLists C (schedTickHandler s c) := by
  rw [schedTickHandler]
  split
  case h_1 pid hcur =>
    split_ifs with hready
    · exact (h.madeReady (moveToReadyTail_madeReady hready) (h.affine c pid hcur)).setNeedResched
    · exact h.setNeedResched
  case h_2 => exact h

lemma switchOut_onLists (h : OnLists C s) (c : ℕ) :
    OnLists C (switchOut s c (s.current c)) := by
  rcases switchOut_cases s c with ⟨-, hm, -, -⟩ | ⟨pid, hcur, -, hm⟩
  · exact h.unmoved hm
  · exact h.madeReady hm (h.affine c pid hcur)

lemma reschedCpu_onLists (h : OnLists C s) (c : ℕ) : OnLists C (reschedCpu C s c) := by
  obtain ⟨⟨highestRdy, resched, hpick, -⟩, hnext⟩ := pickNext_spec C s c
  have h1 : OnLists C (pickNext C s c).1 := by
    rw [hpick]
    exact h.unmoved ⟨rfl, fun _ hx => hx, rfl, rfl, rfl⟩
  have hlist : (pickNext C s c).1.readyList = s.readyList := by rw [hpick]
  simp only [reschedCpu]
  split_ifs
  · exact h1
  · refine (switchOut_onLists h1 c).switched (switchTo_switched C ?_)
    rw [hlist]
    exact hnext.imp_right (Or.imp_right And.left)

lemma cpuStep_onLists (h : OnLists C s) (e : CpuEvent) : OnLists C (cpuStep C s e) := by
  cases e with
  | sleep c stat =>
    rw [cpuStep]
    split_ifs
    · exact h
    · exact sleepTask_onLists h stat
  | wake c t =>
    rw [cpuStep]
    split_ifs
    · exact h
    · exact wakeTask_onLists h t
  | post c => exact smpFunctionCall_onLists h c
  | callIpi c a => exact smpFunctionCallHandler_onLists h c a
  | reschedIpi c => exact reschedHandler_onLists h c
  | tick c => exact schedTickHandler_onLists h c
  | irqReturn c p =>
    rw [cpuStep, irqReturnHandler]
    split_ifs
    · exact h
    · exact (reschedCpu_onLists h c).clearNeedResched _
  | sched c => exact reschedCpu_onLists (h.clearNeedResched _) c

/-! ### Who changes `stat` -/

lemma setTaskReady_stat (s : Cpus) (c : ℕ) (t : Task) : (setTaskReady C s c t).stat = s.stat := by
  cases t with
  | idle k => rfl
  | rt p => rfl
  | pcpu pid =>
    rw [setTaskReady]
    split_ifs <;> rfl

lemma setTaskSleep_stat (s : Cpus) (c : ℕ) (t : Task) : (setTaskSleep C s c t).stat = s.stat := by
  cases t with
  | idle k => rfl
  | rt p => rfl
  | pcpu pid =>
    rw [setTaskSleep]
    split_ifs <;> rfl

lemma wakeTask_stat (s : Cpus) (c : ℕ) (t : Task) : (wakeTask C s c t).stat =
    if s.taskIsReady t then s.stat else Function.update s.stat t TASK_STAT_RDY := by
  rw [wakeTask]
  split_ifs
  · rfl
  · rw [setTaskReady_stat, Cpus.setStat]

lemma sleepTask_stat_of_ne {t : Task} {stat : ℕ} (h : t ≠ s.current c) :
    (sleepTask C s c stat).stat t = s.stat t := by
  rw [sleepTask]
  split_ifs
  · rfl
  · rw [setTaskSleep_stat, Cpus.setStat_of_ne h]

lemma smpFunctionCallHandler_stat (s : Cpus) (c a : ℕ) :
    (smpFunctionCallHandler s c a).stat = s.stat := by
  rw [smpFunctionCallHandler]
  split
  case h_1 => rfl
  case h_2 pid _ =>
    rw [clearCall, smpSetTaskReady]
    split_ifs <;> rfl
  case h_3 pid _ =>
    rw [clearCall, smpSetTaskSuspend]
    split_ifs <;> rfl

lemma reschedHandler_stat (s : Cpus) (c : ℕ) : (reschedHandler s c).stat = s.stat := by
  have hfold : ∀ (l : List ℕ) (s : Cpus), (l.foldl (addNewTask c) s).stat = s.stat := by
    intro l
    induction l with
    | nil => exact fun _ => rfl
    | cons pid l ih =>
      intro s
      rw [List.foldl_cons, ih, addNewTask]
      split_ifs <;> rfl
  rw [reschedHandler]
  split_ifs
  · exact hfold _ _
  · rfl

lemma schedTickHandler_stat (s : Cpus) (c : ℕ) : (schedTickHandler s c).stat = s.stat := by
  rw [schedTickHandler]
  split
  · split_ifs <;> rfl
  · rfl

/-- A switch changes only tasks that are ready. -/
lemma reschedCpu_stat (h : OnLists C s) (hn : ¬ s.taskIsReady (.pcpu pid)) :
    (reschedCpu C s c).stat (.pcpu pid) = s.stat (.pcpu pid) := by
  obtain ⟨⟨highestRdy, resched, hpick, -⟩, hnext⟩ := pickNext_spec C s c
  have h1 : OnLists C (pickNext C s c).1 := by
    rw [hpick]
    exact h.unmoved ⟨rfl, fun _ hx => hx, rfl, rfl, rfl⟩
  have hstat1 : (pickNext C s c).1.stat = s.stat := by rw [hpick]
  have hlist1 : (pickNext C s c).1.readyList = s.readyList := by rw [hpick]
  simp only [reschedCpu]
  split_ifs
  · rw [hstat1]
  · generalize (pickNext C s c).1 = s1 at *
    have hstat2 : (switchOut s1 c (s1.current c)).stat (.pcpu pid) = s.stat (.pcpu pid) := by
      rw [← hstat1]
      rcases switchOut_cases s1 c with ⟨-, -, hstat, -⟩ | ⟨x, -, hready, hm⟩
      · exact hstat pid
      · refine hm.stat pid fun heq => hn ?_
        rwa [heq, Cpus.taskIsReady, ← hstat1]
    have hm := switchTo_switched C (s := s1) (c := c) (by
      rw [hlist1]
      exact hnext.imp_right (Or.imp_right And.left))
    rw [hm.stat, hstat2]
    intro heq
    have hready := (switchOut_onLists h1 c).ready c pid (hm.mem heq.symm)
    rw [Cpus.taskIsReady, hstat2] at hready
    exact hn hready

/-- A percpu task that is not ready keeps its `stat`, unless it puts itself to sleep or is woken. -/
lemma cpuStep_stat {e : CpuEvent} (h : OnLists C s) (hn : ¬ s.taskIsReady (.pcpu pid))
    (hsleep : ∀ c stat, e = .sleep c stat → s.current c ≠ .pcpu pid)
    (hwake : ∀ c t, e = .wake c t → t ≠ .pcpu pid) :
    (cpuStep C s e).stat (.pcpu pid) = s.stat (.pcpu pid) := by
  cases e with
  | sleep c stat =>
    rw [cpuStep]
    split_ifs
    · rfl
    · exact sleepTask_stat_of_ne (hsleep c stat rfl).symm
  | wake c t =>
    rw [cpuStep]
    split_ifs
    · rfl
    · rw [wakeTask_stat]
      split_ifs
      · rfl
      · rw [Function.update_of_ne (hwake c t rfl).symm]
  | post c =>
    rw [cpuStep, smpFunctionCall]
    split
    · rfl
    · dsimp only
      split_ifs <;> rfl
  | callIpi c a => rw [cpuStep, smpFunctionCallHandler_stat]
  | reschedIpi c => rw [cpuStep, reschedHandler_stat]
  | tick c => rw [cpuStep, schedTickHandler_stat]
  | irqReturn c p =>
    rw [cpuStep, irqReturnHandler]
    split_ifs
    · rfl
    · exact reschedCpu_stat h hn
  | sched c => exact reschedCpu_stat (h.clearNeedResched _) hn

end Minos.Sched
