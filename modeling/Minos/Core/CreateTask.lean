import Mathlib
import Minos.Core.TaskTable
import Minos.Lib.Bitmap
import Minos.Lib.Run

/-!
# Creating tasks

`create_task` takes a pid, allocates the task and its stack, and puts the task into the tables. When
there is no memory it gives the pid back, but then it goes on with the task that it does not have.
For `PCPU_AFF_NONE`, `alloc_pid` reads a per-cpu pointer of a cpu that does not exist.

The build is one with `CONFIG_VIRT`, in which every task has a stack.
-/

namespace Minos.Core

open Bitmap Run
open Sched (ReadyTable OS_LOWEST_PRIO OS_PRIO_PCPU OS_PRIO_IDLE)

def PCPU_AFF_NONE : ℕ := 0xffff
def ENOPID : ℤ := 134
def TASK_STAT_STOPPED : BitVec 16 := 0x200

/-- What `task_init` sets of `struct task`. -/
structure Task where
  pid : ℕ
  prio : ℕ
  affinity : ℕ
  stat : BitVec 16
  vcpu : Bool
deriving DecidableEq, Repr

/-- An entry of `os_task_table`. -/
inductive TableEntry where
  | null
  /-- `OS_TASK_RESERVED` -/
  | reserved
  | task (t : Task)
deriving DecidableEq, Repr

/-- The tasks of a `struct pcpu`. -/
structure PcpuTasks where
  taskList : List Task
  readyList : List Task
  sleepList : List Task
  newList : List Task
  nrPcpuTask : ℕ
  /-- `idle_task` is set -/
  idleTask : Bool
deriving DecidableEq, Repr

structure TaskState where
  pidMap : Bitmap
  osTaskTable : ℕ → TableEntry
  osTaskNr : ℕ
  pcpu : ℕ → PcpuTasks
  rdy : ReadyTable
  /-- the tasks that were created -/
  live : List Task

/-- A call of `create_task` by a task on the cpu `cpu`. -/
structure CreateCall where
  prio : ℕ
  aff : ℕ
  /-- `TASK_FLAGS_VCPU` -/
  vcpu : Bool
  cpu : ℕ
  /-- the answers of `zalloc` and `__get_free_pages` -/
  zalloc : Bool
  freePages : Bool
  /-- what is behind the end of `percpu_offset`: nothing that can be read, or a pointer, with
  whether `idle_task` there can be read and is set -/
  stray : Option (Option Bool)
deriving DecidableEq, Repr

/-- The affinity is a cpu, or none. -/
def CreateCall.ValidAff (nrCpus : ℕ) (c : CreateCall) : Prop :=
  c.aff < nrCpus ∨ c.aff = PCPU_AFF_NONE

instance (nrCpus : ℕ) (c : CreateCall) : Decidable (c.ValidAff nrCpus) :=
  inferInstanceAs (Decidable (_ ∨ _))

/-- How a call ends. -/
inductive CreateEnd where
  | returned (ret : ℤ) (s : TaskState)
  | crashed (s : TaskState)

namespace TaskState

/-- `get_per_cpu(pcpu, cpuid)`, as far as `alloc_pid` looks at it: `idle_task`. -/
def percpuIdle (nrCpus : ℕ) (s : TaskState) (cpuid : ℕ) (stray : Option (Option Bool)) :
    Option (Option Bool) :=
  if cpuid < nrCpus then some (some (s.pcpu cpuid).idleTask) else stray

/-- The check of `alloc_pid` that its cpu has no idle task yet: whether there is one. -/
def idleBusy (prio : ℕ) (idleTask : Option Bool) : Option Bool :=
  if prio = OS_PRIO_IDLE then idleTask else some false

/-- `alloc_pid`, with -1 when there is no pid. A read that fails has no result. -/
def allocPid (nrCpus : ℕ) (s : TaskState) (prio cpuid : ℕ) (stray : Option (Option Bool)) :
    Option (ℤ × TaskState) := do
  let idleTask ← s.percpuIdle nrCpus cpuid stray
  if OS_LOWEST_PRIO < prio then
    let busy ← idleBusy prio idleTask
    if busy then some (-1, s)
    else
      let pid := findNextZeroBit s.pidMap OS_NR_TASKS OS_REALTIME_TASK
      if OS_NR_TASKS ≤ pid then some (-1, s)
      else some (pid, { s with pidMap := setBit s.pidMap pid })
  else if s.pidMap prio then some (-1, s)
  else
    some (prio, { s with
      pidMap := setBit s.pidMap prio
      osTaskTable := Function.update s.osTaskTable prio .reserved })

/-- `release_pid` -/
def releasePid (s : TaskState) (pid : ℕ) : TaskState :=
  if OS_NR_TASKS < pid then s
  else
    { s with
      pidMap := clearBit s.pidMap pid
      osTaskTable := Function.update s.osTaskTable pid .null }

/-- `task_init` -/
def taskInit (prio pid aff : ℕ) (vcpu : Bool) : Task where
  pid := pid
  prio := prio
  affinity := aff
  stat := if vcpu then TASK_STAT_STOPPED else TASK_STAT_RDY
  vcpu := vcpu

/-- The new task enters `os_task_table`. -/
def enter (s : TaskState) (t : Task) : TaskState :=
  { s with
    osTaskTable := Function.update s.osTaskTable t.pid (.task t)
    osTaskNr := s.osTaskNr + 1
    live := t :: s.live }

/-- `__create_task` -/
def createTaskImpl (s : TaskState) (c : CreateCall) (pid : ℕ) : Option (Task × TaskState) :=
  if c.zalloc ∧ c.freePages then
    let aff := if c.aff = PCPU_AFF_NONE then 0 else c.aff
    let t := taskInit c.prio pid aff c.vcpu
    some (t, s.enter t)
  else none

/-- The lists of the cpu that a task of `OS_PRIO_PCPU` is for. -/
def addPcpuTask (s : TaskState) (t : Task) (cpu : ℕ) : TaskState :=
  let p := s.pcpu t.affinity
  let p := { p with taskList := p.taskList ++ [t], nrPcpuTask := p.nrPcpuTask + 1 }
  let p :=
    if t.affinity = cpu then
      if t.stat = TASK_STAT_RDY then { p with readyList := p.readyList ++ [t] }
      else { p with sleepList := p.sleepList ++ [t] }
    else { p with newList := p.newList ++ [t] }
  { s with pcpu := Function.update s.pcpu t.affinity p }

/-- What `create_task` does with the new task. -/
def addTask (nrCpus : ℕ) (s : TaskState) (t : Task) (cpu : ℕ) : TaskState :=
  let s := if t.affinity < nrCpus ∧ t.prio = OS_PRIO_PCPU then s.addPcpuTask t cpu else s
  if t.vcpu = false ∧ t.prio ≤ OS_LOWEST_PRIO then { s with rdy := s.rdy.set t.prio } else s

/-- `create_task` -/
def createTask (nrCpus : ℕ) (s : TaskState) (c : CreateCall) : CreateEnd :=
  if nrCpus ≤ c.aff ∧ c.aff ≠ PCPU_AFF_NONE then .returned (-EINVAL) s
  else
    match s.allocPid nrCpus c.prio c.aff c.stray with
    | none => .crashed s
    | some (pid, s') =>
      if pid < 0 then .returned (-ENOPID) s'
      else
        match s'.createTaskImpl c pid.toNat with
        | some (t, s') => .returned pid (s'.addTask nrCpus t c.cpu)
        | none =>
          -- there is no `return`: the hooks and `task->udata` come next, with no task
          .crashed (s'.releasePid pid.toNat)

def step (nrCpus : ℕ) (s : TaskState) (c : CreateCall) : TaskState :=
  match s.createTask nrCpus c with
  | .returned _ s' => s'
  | .crashed s' => s'

/-- `create_idle_task` on the cpu `cpu`. It lets a pid of -1 pass, and then has no result. -/
def createIdleTask (nrCpus : ℕ) (s : TaskState) (cpu : ℕ) : Option TaskState := do
  let (pid, s) ← s.allocPid nrCpus OS_PRIO_IDLE cpu none
  if pid < 0 then none
  else
    let t := { taskInit OS_PRIO_IDLE pid.toNat cpu false with stat := TASK_STAT_RUNNING }
    some { s.enter t with
      pcpu := Function.update s.pcpu cpu { s.pcpu cpu with idleTask := true } }

/-- No task yet. -/
def init : TaskState where
  pidMap _ := false
  osTaskTable _ := .null
  osTaskNr := 0
  pcpu _ := ⟨[], [], [], [], 0, false⟩
  rdy := ReadyTable.zero
  live := []

/-! ### What is asked of the tables -/

/-- The pids of the tasks are different and in range, that of a realtime task is its priority, and
`pid_map` and `os_task_table` have the tasks and nothing else. -/
structure Ok (s : TaskState) : Prop where
  distinct : s.live.Pairwise fun t u => t.pid ≠ u.pid
  pid_lt : ∀ t ∈ s.live, t.pid < OS_NR_TASKS
  realtime : ∀ t ∈ s.live, t.prio ≤ OS_LOWEST_PRIO → t.pid = t.prio
  table : ∀ pid t, s.osTaskTable pid = .task t ↔ t ∈ s.live ∧ t.pid = pid
  map : ∀ pid, s.pidMap pid = true ↔ ∃ t, s.osTaskTable pid = .task t
  nr : s.osTaskNr = s.live.length

/-- There is a pid for the call: the priority itself, or one of the others. -/
def HasPid (nrCpus : ℕ) (s : TaskState) (c : CreateCall) : Prop :=
  if c.prio ≤ OS_LOWEST_PRIO then s.pidMap c.prio = false
  else (c.prio = OS_PRIO_IDLE → s.percpuIdle nrCpus c.aff c.stray ≠ some (some true)) ∧
    ∃ pid, OS_REALTIME_TASK ≤ pid ∧ pid < OS_NR_TASKS ∧ s.pidMap pid = false

/-- The call returns, with the tables as they must be; a call that gets no pid or no memory returns
a negative value, and then nothing has changed. -/
def AllOrNothing (nrCpus : ℕ) (s : TaskState) (c : CreateCall) : Prop :=
  ∃ ret s', s.createTask nrCpus c = .returned ret s' ∧ s'.Ok ∧ (ret < 0 → s' = s) ∧
    (¬ s.HasPid nrCpus c ∨ c.zalloc = false ∨ c.freePages = false → ret < 0)

/-- The call can read the pointer of its cpu, and there is memory if there is a pid. -/
structure Served (nrCpus : ℕ) (s : TaskState) (c : CreateCall) : Prop where
  read : s.percpuIdle nrCpus c.aff c.stray ≠ none
  idle : c.prio = OS_PRIO_IDLE → s.percpuIdle nrCpus c.aff c.stray ≠ some none
  memory : s.HasPid nrCpus c → c.zalloc = true ∧ c.freePages = true

variable {nrCpus prio cpuid pid : ℕ} {stray : Option (Option Bool)} {s s' : TaskState}
  {c : CreateCall} {t : Task} {ret : ℤ}

lemma init_ok : init.Ok where
  distinct := .nil
  pid_lt _ h := nomatch h
  realtime _ h := nomatch h
  table _ _ := ⟨nofun, fun h => nomatch h.1⟩
  map _ := ⟨nofun, fun ⟨_, h⟩ => nomatch h⟩
  nr := rfl

/-- The state after `alloc_pid` has taken `pid`. -/
structure PidTaken (s s' : TaskState) (prio pid : ℕ) : Prop where
  free : s.pidMap pid = false
  lt : pid < OS_NR_TASKS
  realtime : prio ≤ OS_LOWEST_PRIO → pid = prio
  map : s'.pidMap = setBit s.pidMap pid
  table : s'.osTaskTable = s.osTaskTable ∨
    s'.osTaskTable = Function.update s.osTaskTable pid .reserved
  nr : s'.osTaskNr = s.osTaskNr
  live : s'.live = s.live

/-- `alloc_pid` takes a pid if there is one. -/
lemma allocPid_cases (hread : s.percpuIdle nrCpus c.aff c.stray ≠ none)
    (hidle : c.prio = OS_PRIO_IDLE → s.percpuIdle nrCpus c.aff c.stray ≠ some none) :
    (¬ s.HasPid nrCpus c ∧ s.allocPid nrCpus c.prio c.aff c.stray = some (-1, s)) ∨
      (s.HasPid nrCpus c ∧ ∃ (pid : ℕ) (s' : TaskState),
        s.allocPid nrCpus c.prio c.aff c.stray = some ((pid : ℤ), s') ∧
          s.PidTaken s' c.prio pid) := by
  obtain ⟨p, hp⟩ := Option.ne_none_iff_exists'.1 hread
  rw [hp] at hidle
  simp only [allocPid, HasPid, hp, Option.bind_eq_bind, Option.bind_some]
  by_cases hrt : c.prio ≤ OS_LOWEST_PRIO
  · rw [if_neg (not_lt.2 hrt), if_pos hrt]
    by_cases hbit : s.pidMap c.prio = true
    · exact .inl ⟨by simp [hbit], if_pos hbit⟩
    · rw [Bool.not_eq_true] at hbit
      have hlt : c.prio < OS_NR_TASKS := lt_of_le_of_lt hrt (by decide)
      refine .inr ⟨hbit, c.prio, { s with
        pidMap := setBit s.pidMap c.prio
        osTaskTable := Function.update s.osTaskTable c.prio .reserved }, ?_,
        ⟨hbit, hlt, fun _ => rfl, rfl, .inr rfl, rfl, rfl⟩⟩
      rw [hbit]
      rfl
  · rw [if_pos (not_le.1 hrt), if_neg hrt]
    -- what the search looks at is whether the cpu has an idle task already
    obtain ⟨b, hb, hbusy⟩ : ∃ b, idleBusy c.prio p = some b ∧
        (b = true ↔ c.prio = OS_PRIO_IDLE ∧ p = some true) := by
      by_cases hprio : c.prio = OS_PRIO_IDLE
      · obtain ⟨b, rfl⟩ := Option.ne_none_iff_exists'.1 fun h => hidle hprio (congrArg some h)
        exact ⟨b, if_pos hprio, by simp [hprio]⟩
      · exact ⟨false, if_neg hprio, by simp [hprio]⟩
    rw [hb, Option.bind_some]
    cases b with
    | true =>
      obtain ⟨hprio, rfl⟩ := hbusy.1 rfl
      exact .inl ⟨fun h => h.1 hprio rfl, rfl⟩
    | false =>
      have hnot : c.prio = OS_PRIO_IDLE → some p ≠ some (some true) := by
        rintro hprio ⟨⟩
        exact absurd (hbusy.2 ⟨hprio, rfl⟩) (by decide)
      rw [if_neg (by decide)]
      by_cases hfull : OS_NR_TASKS ≤ findNextZeroBit s.pidMap OS_NR_TASKS OS_REALTIME_TASK
      · refine .inl ⟨?_, if_pos hfull⟩
        rintro ⟨-, pid, hle, hlt, hbit⟩
        have hset := findNext_none hfull hle hlt
        rw [hbit] at hset
        cases hset
      · have hlt := not_le.1 hfull
        have hle := le_findNext (fun i => !s.pidMap i)
          (show OS_REALTIME_TASK < OS_NR_TASKS by decide)
        have hbit := findNextZeroBit_prop hlt
        exact .inr ⟨⟨hnot, _, hle, hlt, hbit⟩, _, _, if_neg hfull,
          ⟨hbit, hlt, fun h => absurd h hrt, rfl, .inl rfl, rfl, rfl⟩⟩

/-- What `alloc_pid` has read when it returns. -/
lemma reads_of_allocPid (h : s.allocPid nrCpus c.prio c.aff c.stray ≠ none) :
    s.percpuIdle nrCpus c.aff c.stray ≠ none ∧
      (c.prio = OS_PRIO_IDLE → s.percpuIdle nrCpus c.aff c.stray ≠ some none) := by
  refine ⟨fun hread => h ?_, fun hprio hread => h ?_⟩
  · simp [allocPid, hread]
  · simp [allocPid, hread, hprio, idleBusy, OS_PRIO_IDLE, OS_LOWEST_PRIO]

/-- The task that enters the tables in the place of its pid. -/
lemma Ok.enter (hs : s.Ok) (hfree : s.pidMap t.pid = false) (hlt : t.pid < OS_NR_TASKS)
    (hrt : t.prio ≤ OS_LOWEST_PRIO → t.pid = t.prio) (hmap : s'.pidMap = setBit s.pidMap t.pid)
    (htable : s'.osTaskTable = Function.update s.osTaskTable t.pid (.task t))
    (hnr : s'.osTaskNr = s.osTaskNr + 1) (hlive : s'.live = t :: s.live) : s'.Ok := by
  have hnew : ∀ u ∈ s.live, u.pid ≠ t.pid := by
    intro u hu heq
    have hbit := (hs.map t.pid).2 ⟨u, (hs.table t.pid u).2 ⟨hu, heq⟩⟩
    rw [hfree] at hbit
    cases hbit
  refine ⟨?_, ?_, ?_, ?_, ?_, ?_⟩
  · rw [hlive]
    exact List.pairwise_cons.2 ⟨fun u hu => (hnew u hu).symm, hs.distinct⟩
  · rw [hlive]
    exact List.forall_mem_cons.2 ⟨hlt, hs.pid_lt⟩
  · rw [hlive]
    exact List.forall_mem_cons.2 ⟨hrt, hs.realtime⟩
  · intro pid u
    rw [htable, hlive, List.mem_cons]
    by_cases hpid : pid = t.pid
    · subst hpid
      rw [Function.update_self]
      constructor
      · rintro ⟨⟩
        exact ⟨.inl rfl, rfl⟩
      · rintro ⟨rfl | hu, heq⟩
        · rfl
        · exact absurd heq (hnew u hu)
    · rw [Function.update_of_ne hpid, hs.table]
      constructor
      · exact fun h => ⟨.inr h.1, h.2⟩
      · rintro ⟨rfl | hu, heq⟩
        · exact absurd heq.symm hpid
        · exact ⟨hu, heq⟩
  · intro pid
    rw [hmap, htable]
    by_cases hpid : pid = t.pid
    · subst hpid
      simp [setBit]
    · rw [Function.update_of_ne hpid, ← hs.map]
      simp [setBit, hpid]
  · rw [hnr, hlive, hs.nr]
    rfl

/-- The tables are right if they are those of a state in which they are. -/
lemma Ok.congr (hs : s.Ok) (hmap : s'.pidMap = s.pidMap) (htable : s'.osTaskTable = s.osTaskTable)
    (hnr : s'.osTaskNr = s.osTaskNr) (hlive : s'.live = s.live) : s'.Ok where
  distinct := hlive ▸ hs.distinct
  pid_lt := hlive ▸ hs.pid_lt
  realtime := hlive ▸ hs.realtime
  table := by
    rw [htable, hlive]
    exact hs.table
  map := by
    rw [hmap, htable]
    exact hs.map
  nr := by
    rw [hnr, hlive]
    exact hs.nr

/-- The task that a pid was taken for. -/
lemma PidTaken.enter (hs : s.Ok) (h : s.PidTaken s' prio pid) (hpid : t.pid = pid)
    (hprio : t.prio = prio) : (s'.enter t).Ok := by
  subst hpid hprio
  refine hs.enter h.free h.lt h.realtime h.map ?_ (congrArg (· + 1) h.nr)
    (congrArg (List.cons t) h.live)
  show Function.update s'.osTaskTable t.pid _ = _
  rcases h.table with h | h
  · rw [h]
  · rw [h, Function.update_idem]

lemma Ok.addTask (hs : s.Ok) {cpu : ℕ} : (s.addTask nrCpus t cpu).Ok := by
  rw [TaskState.addTask, addPcpuTask]
  dsimp only
  split_ifs
  all_goals exact hs.congr rfl rfl rfl rfl

/-- A call that is served. -/
lemma Served.allOrNothing (hs : s.Ok) (haff : c.ValidAff nrCpus) (h : s.Served nrCpus c) :
    s.AllOrNothing nrCpus c := by
  have hvalid : ¬ (nrCpus ≤ c.aff ∧ c.aff ≠ PCPU_AFF_NONE) := by
    rintro ⟨hle, hne⟩
    exact haff.elim (fun h => absurd h (not_lt.2 hle)) hne
  rcases allocPid_cases h.read h.idle with ⟨hno, halloc⟩ | ⟨hpid, pid, s', halloc, htaken⟩
  · refine ⟨-ENOPID, s, ?_, hs, fun _ => rfl, fun _ => by decide⟩
    rw [createTask, if_neg hvalid, halloc]
    rfl
  · obtain ⟨hzalloc, hpages⟩ := h.memory hpid
    let t := taskInit c.prio pid (if c.aff = PCPU_AFF_NONE then 0 else c.aff) c.vcpu
    have hcreate :
        s.createTask nrCpus c = .returned pid ((s'.enter t).addTask nrCpus t c.cpu) := by
      rw [createTask, if_neg hvalid, halloc]
      simp only [createTaskImpl, hzalloc, hpages, Int.toNat_natCast]
      rw [if_neg (by omega)]
      rfl
    refine ⟨pid, _, hcreate, (htaken.enter hs rfl rfl).addTask, ?_, ?_⟩
    · intro hneg
      omega
    · rintro (h | h | h)
      · exact absurd hpid h
      · rw [h] at hzalloc
        cases hzalloc
      · rw [h] at hpages
        cases hpages

/-- A call that is not served does not return. -/
lemma AllOrNothing.served (haff : c.ValidAff nrCpus) (h : s.AllOrNothing nrCpus c) :
    s.Served nrCpus c := by
  have hvalid : ¬ (nrCpus ≤ c.aff ∧ c.aff ≠ PCPU_AFF_NONE) := by
    rintro ⟨hle, hne⟩
    exact haff.elim (fun h => absurd h (not_lt.2 hle)) hne
  obtain ⟨ret, s', hret, -⟩ := h
  rw [createTask, if_neg hvalid] at hret
  obtain ⟨hread, hidle⟩ : s.percpuIdle nrCpus c.aff c.stray ≠ none ∧ _ :=
    reads_of_allocPid fun hnone => by simp [hnone] at hret
  refine ⟨hread, hidle, fun hpid => ?_⟩
  rcases allocPid_cases hread hidle with ⟨hno, -⟩ | ⟨-, pid, s'', halloc, -⟩
  · exact absurd hpid hno
  · by_contra hmem
    rw [halloc] at hret
    simp only [createTaskImpl, if_neg hmem] at hret
    rw [if_neg (by omega)] at hret
    cases hret

/-- **Creating tasks.** From tables that are right, a run of calls keeps them right, and each call
that fails changes nothing, if and only if the memory lasts for every task that gets a pid and a
call without an affinity can read behind the table of the cpus. -/
theorem create_task_all_or_nothing_iff (hs : s.Ok) {cs : List CreateCall}
    (haff : ∀ c ∈ cs, c.ValidAff nrCpus) :
    Along (step nrCpus) (AllOrNothing nrCpus) s cs ↔ Along (step nrCpus) (Served nrCpus) s cs := by
  refine along_iff (I := Ok) (L := fun _ c => c.ValidAff nrCpus) ?_ ?_ hs (along_const.2 haff)
  · exact fun s c hs haff => ⟨fun h => h.served haff, fun h => h.allOrNothing hs haff⟩
  · intro s c hs haff h
    obtain ⟨ret, s', hret, hok, -⟩ := h.allOrNothing hs haff
    rw [step, hret]
    exact hok

/-- The tables after `create_idle_task`. -/
lemma createIdleTask_ok (hs : s.Ok) (h : s.createIdleTask nrCpus cpuid = some s') : s'.Ok := by
  let c : CreateCall := ⟨OS_PRIO_IDLE, cpuid, false, cpuid, true, true, none⟩
  rw [createIdleTask] at h
  obtain ⟨hread, hidle⟩ : s.percpuIdle nrCpus c.aff c.stray ≠ none ∧ _ :=
    reads_of_allocPid (c := c) fun hnone => by
      have hnone : s.allocPid nrCpus OS_PRIO_IDLE cpuid none = none := hnone
      simp [hnone] at h
  rcases allocPid_cases hread hidle with ⟨-, halloc⟩ | ⟨-, pid, s₁, halloc, htaken⟩
  · have halloc : s.allocPid nrCpus OS_PRIO_IDLE cpuid none = some (-1, s) := halloc
    simp [halloc] at h
  · have halloc : s.allocPid nrCpus OS_PRIO_IDLE cpuid none = some ((pid : ℤ), s₁) := halloc
    rw [halloc] at h
    simp only [Option.bind_eq_bind, Option.bind_some, if_neg (show ¬ (pid : ℤ) < 0 by omega),
      Int.toNat_natCast, Option.some.injEq] at h
    subst h
    exact (htaken.enter hs rfl rfl).congr rfl rfl rfl rfl

/-- Two cpus with their idle tasks. -/
def booted : TaskState :=
  ((init.createIdleTask 2 0).bind fun s => s.createIdleTask 2 1).getD init

lemma booted_ok : booted.Ok := by
  rw [booted]
  cases h0 : init.createIdleTask 2 0 with
  | none => exact init_ok
  | some s =>
    rw [Option.bind_some]
    cases h1 : s.createIdleTask 2 1 with
    | none => exact init_ok
    | some s' => exact createIdleTask_ok (createIdleTask_ok init_ok h0) h1

/-- A realtime task, a task of cpu 1, and once more the realtime priority, without memory. -/
theorem create_task_all_or_nothing_three :
    Along (step 2) (AllOrNothing 2) booted
      [⟨10, PCPU_AFF_NONE, false, 0, true, true, some none⟩, ⟨64, 1, false, 0, true, true, none⟩,
        ⟨10, 0, false, 0, false, false, none⟩] := by
  refine (create_task_all_or_nothing_iff booted_ok (by decide)).2 ⟨?_, ?_, ?_, trivial⟩
  · exact ⟨by decide, by decide, fun _ => ⟨rfl, rfl⟩⟩
  · exact ⟨by decide +kernel, by decide, fun _ => ⟨rfl, rfl⟩⟩
  · refine ⟨by decide +kernel, by decide, fun h => ?_⟩
    rw [HasPid, if_pos (by decide)] at h
    exact absurd h (by decide +kernel)

/-- Whether a call returns. -/
def CreateEnd.returns : CreateEnd → Bool
  | .returned _ _ => true
  | .crashed _ => false

/-- There is no memory for the second task. -/
theorem create_task_no_memory :
    ¬ Along (step 2) (AllOrNothing 2) booted
      [⟨10, 0, false, 0, true, true, none⟩, ⟨11, 0, false, 0, false, true, none⟩] := by
  rintro ⟨-, ⟨ret, s', hret, -⟩, -⟩
  have hcrash : CreateEnd.returns ((step 2 booted ⟨10, 0, false, 0, true, true, none⟩).createTask 2
      ⟨11, 0, false, 0, false, true, none⟩) = false := by decide +kernel
  rw [hret] at hcrash
  cases hcrash

end TaskState

end Minos.Core
