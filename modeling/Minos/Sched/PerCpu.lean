import Mathlib
import Minos.Lib.Run
import Minos.Sched.GlobalRun

/-!
# Tasks that belong to one cpu

A percpu task, such as the task of a vcpu, runs on the cpu of its affinity only, and it is on one
of the lists of this cpu. Another cpu that makes it ready changes its `stat` and asks its cpu with a
function call interrupt to move it to the ready list. `need_resched` is a flag of the task that is
current when it is set.
-/

namespace Minos.Sched

open Run

def TASK_STAT_RDY : ℕ := 0x00
def TASK_STAT_SUSPEND : ℕ := 0x08
def TASK_STAT_RUNNING : ℕ := 0x100
def TASK_STAT_STOPPED : ℕ := 0x200

/-- The number of cpus, their classes, and the cpu of each percpu task. -/
structure Config where
  nrCpus : ℕ
  cls : ℕ → SchedClass
  affinity : ℕ → ℕ

/-- `struct smp_call`: a function with the task that is its argument -/
inductive SmpCall where
  | setTaskReady (pid : ℕ)
  | setTaskSuspend (pid : ℕ)
deriving DecidableEq, Repr

/-- The task a function call is about. -/
def SmpCall.pid : SmpCall → ℕ
  | .setTaskReady pid => pid
  | .setTaskSuspend pid => pid

/-- The scheduler of the whole machine. -/
structure Cpus extends State where
  stat : Task → ℕ
  needResched : Task → Bool
  sleepList : ℕ → List ℕ
  newList : ℕ → List ℕ
  /-- `smp_calls` of a cpu, with a place for each sender -/
  calls : ℕ → ℕ → Option SmpCall
  /-- the call for which a cpu is in `smp_function_call`, until it is in its place -/
  sending : ℕ → Option SmpCall
  /-- a resched interrupt is pending -/
  resched : ℕ → Bool

namespace Cpus

/-- `task_is_ready` -/
def taskIsReady (s : Cpus) (t : Task) : Prop :=
  s.stat t = TASK_STAT_RDY ∨ s.stat t = TASK_STAT_RUNNING

instance (s : Cpus) (t : Task) : Decidable (s.taskIsReady t) :=
  inferInstanceAs (Decidable (_ ∨ _))

def setStat (s : Cpus) (t : Task) (stat : ℕ) : Cpus :=
  { s with stat := Function.update s.stat t stat }

/-- `set_need_resched` on the cpu `c` -/
def setNeedResched (s : Cpus) (c : ℕ) : Cpus :=
  { s with needResched := Function.update s.needResched (s.current c) true }

/-- The flag of the task is cleared. -/
def clearNeedResched (s : Cpus) (t : Task) : Cpus :=
  { s with needResched := Function.update s.needResched t false }

/-- `list_del` of `stat_list`, from the list the task is on -/
def listDel (s : Cpus) (pid : ℕ) : Cpus :=
  { s with
    readyList := fun c => (s.readyList c).filter (· ≠ pid)
    sleepList := fun c => (s.sleepList c).filter (· ≠ pid)
    newList := fun c => (s.newList c).filter (· ≠ pid) }

def setReadyList (s : Cpus) (c : ℕ) (l : List ℕ) : Cpus :=
  { s with readyList := Function.update s.readyList c l }

def setSleepList (s : Cpus) (c : ℕ) (l : List ℕ) : Cpus :=
  { s with sleepList := Function.update s.sleepList c l }

/-- `list_del`, and `list_add_tail` to the ready list of the cpu `c` -/
def moveToReadyTail (s : Cpus) (c pid : ℕ) : Cpus :=
  (s.listDel pid).setReadyList c ((s.listDel pid).readyList c ++ [pid])

/-- `list_del`, and `list_add` to the ready list of the cpu `c` -/
def moveToReadyHead (s : Cpus) (c pid : ℕ) : Cpus :=
  (s.listDel pid).setReadyList c (pid :: (s.listDel pid).readyList c)

def moveToSleepHead (s : Cpus) (c pid : ℕ) : Cpus :=
  (s.listDel pid).setSleepList c (pid :: (s.listDel pid).sleepList c)

def moveToSleepTail (s : Cpus) (c pid : ℕ) : Cpus :=
  (s.listDel pid).setSleepList c ((s.listDel pid).sleepList c ++ [pid])

end Cpus

section Model

variable (C : Config)

/-! ### Making tasks ready and putting them to sleep -/

/-- `smp_set_task_ready` on the cpu `c` -/
def smpSetTaskReady (s : Cpus) (c pid : ℕ) : Cpus :=
  if s.current c = .pcpu pid ∨ ¬ s.taskIsReady (.pcpu pid) then s
  else (s.moveToReadyTail c pid).setNeedResched c

/-- `smp_set_task_suspend` on the cpu `c` -/
def smpSetTaskSuspend (s : Cpus) (c pid : ℕ) : Cpus :=
  if s.current c = .pcpu pid ∨ s.taskIsReady (.pcpu pid) then s else s.moveToSleepTail c pid

/-- `set_task_ready` on the cpu `c`. For a task of another cpu this is only the start of
`smp_function_call`. -/
def setTaskReady (s : Cpus) (c : ℕ) : Task → Cpus
  | .idle _ => s
  | .rt p => { s with rdy := s.rdy.set p : Cpus }.setNeedResched c
  | .pcpu pid =>
    if c ≠ C.affinity pid then
      { s with sending := Function.update s.sending c (some (.setTaskReady pid)) }
    else (s.moveToReadyHead c pid).setNeedResched c

/-- `set_task_sleep` on the cpu `c` -/
def setTaskSleep (s : Cpus) (c : ℕ) : Task → Cpus
  | .idle _ => s
  | .rt p => { s with rdy := s.rdy.clear p }
  | .pcpu pid =>
    if c ≠ C.affinity pid then
      { s with sending := Function.update s.sending c (some (.setTaskSuspend pid)) }
    else s.moveToSleepHead c pid

/-- A task that waits is made ready by the cpu `c`, as `kick_vcpu` does. -/
def wakeTask (s : Cpus) (c : ℕ) (t : Task) : Cpus :=
  if s.taskIsReady t then s else setTaskReady C (s.setStat t TASK_STAT_RDY) c t

/-- The current task of the cpu `c` puts itself to sleep with a `stat` that is not ready. -/
def sleepTask (s : Cpus) (c stat : ℕ) : Cpus :=
  if stat = TASK_STAT_RDY ∨ stat = TASK_STAT_RUNNING then s
  else setTaskSleep C (s.setStat (s.current c) stat) c (s.current c)

/-! ### Function calls -/

/-- The end of `smp_function_call` on the cpu `a`: it waits until its place at the other cpu is
free, and fills it. -/
def smpFunctionCall (s : Cpus) (a : ℕ) : Cpus :=
  match s.sending a with
  | none => s
  | some call =>
    let c := C.affinity call.pid
    if (s.calls c a).isSome then s
    else { s with
      calls := Function.update s.calls c (Function.update (s.calls c) a (some call))
      sending := Function.update s.sending a none }

def clearCall (s : Cpus) (c a : ℕ) : Cpus :=
  { s with calls := Function.update s.calls c (Function.update (s.calls c) a none) }

/-- `smp_function_call_handler` on the cpu `c` for the call of the cpu `a` -/
def smpFunctionCallHandler (s : Cpus) (c a : ℕ) : Cpus :=
  match s.calls c a with
  | none => s
  | some (.setTaskReady pid) => clearCall (smpSetTaskReady s c pid) c a
  | some (.setTaskSuspend pid) => clearCall (smpSetTaskSuspend s c pid) c a

/-- The body of the loop of `resched_handler`. -/
def addNewTask (c : ℕ) (s : Cpus) (pid : ℕ) : Cpus :=
  if s.stat (.pcpu pid) = TASK_STAT_RDY then s.moveToReadyTail c pid else s.moveToSleepTail c pid

/-- `resched_handler` -/
def reschedHandler (s : Cpus) (c : ℕ) : Cpus :=
  if s.resched c then
    ((s.newList c).foldl (addNewTask c)
      { s with resched := Function.update s.resched c false }).setNeedResched c
  else s

/-! ### Switching -/

/-- `get_next_local_run_task` -/
def getNextLocalRunTask (s : State) (c : ℕ) : Task :=
  match s.readyList c with
  | pid :: _ => .pcpu pid
  | [] => .idle c

/-- What `switch_to_task` does to the task that was current: `recal_task_run_time` puts a percpu
task that is ready to the end of the ready list. -/
def switchOut (s : Cpus) (c : ℕ) (cur : Task) : Cpus :=
  if s.taskIsReady cur then
    match cur with
    | .pcpu pid => (s.moveToReadyTail c pid).setStat cur TASK_STAT_RDY
    | _ => s.setStat cur TASK_STAT_RDY
  else s

/-- `switch_to_task` of the cpu `c`, with `switch_out` of its class -/
def switchTo (s : Cpus) (c : ℕ) (cur next : Task) : Cpus :=
  let s := switchOut s c cur
  let s :=
    match C.cls c with
    | .loc => { s with current := Function.update s.current c next }
    | .global => { s with toState := switchToTask s.toState c next }
  s.setStat next TASK_STAT_RUNNING

/-- `sched_new`, the resched interrupts for the cpus that have to change their task, and
`get_next_global_run_task` -/
def globalPick (s : Cpus) (c : ℕ) : Cpus × Task :=
  let s := { s with highestRdy := schedNew C.nrCpus C.cls s.rdy s.prioCur }
  let s := { s with
    resched := fun i => s.resched i ||
      (i < C.nrCpus ∧ i ≠ c ∧ s.prioCur i ≠ s.highestRdy i : Bool) }
  (s, getNextGlobalRunTask s.toState c)

/-- The choice of the class of the cpu. -/
def pickNext (s : Cpus) (c : ℕ) : Cpus × Task :=
  match C.cls c with
  | .loc => (s, getNextLocalRunTask s.toState c)
  | .global => globalPick C s c

/-- `local_sched` and `global_sched`, `local_irq_handler` and `global_irq_handler` -/
def reschedCpu (s : Cpus) (c : ℕ) : Cpus :=
  let r := pickNext C s c
  if r.2 = r.1.current c then r.1 else switchTo C r.1 c (r.1.current c) r.2

/-- `sched` -/
def sched (s : Cpus) (c : ℕ) : Cpus := reschedCpu C (s.clearNeedResched (s.current c)) c

/-- `irq_return_handler`, with the `preempt_count` of the current task -/
def irqReturnHandler (s : Cpus) (c preemptCount : ℕ) : Cpus :=
  if preemptCount ≠ 0 ∨ ¬ s.needResched (s.current c) then s
  else (reschedCpu C s c).clearNeedResched (s.current c)

/-- `sched_tick_handler` -/
def schedTickHandler (s : Cpus) (c : ℕ) : Cpus :=
  match s.current c with
  | .pcpu pid =>
    (if s.taskIsReady (.pcpu pid) then s.moveToReadyTail c pid else s).setNeedResched c
  | _ => s

/-! ### Runs -/

/-- A step of the machine. What a cpu does between two interrupts is cut where another cpu can see
the difference: a task that sleeps calls `sched` later, and a call is posted after the task was
marked ready. -/
inductive CpuEvent where
  | sleep (c stat : ℕ)
  | wake (c : ℕ) (t : Task)
  | post (c : ℕ)
  | callIpi (c sender : ℕ)
  | reschedIpi (c : ℕ)
  | tick (c : ℕ)
  | irqReturn (c preemptCount : ℕ)
  | sched (c : ℕ)
deriving DecidableEq, Repr

/-- A cpu that waits for its place in `smp_function_call` does nothing else. -/
def cpuStep (s : Cpus) : CpuEvent → Cpus
  | .sleep c stat => if (s.sending c).isSome then s else sleepTask C s c stat
  | .wake c t => if (s.sending c).isSome then s else wakeTask C s c t
  | .post c => smpFunctionCall C s c
  | .callIpi c sender => smpFunctionCallHandler s c sender
  | .reschedIpi c => reschedHandler s c
  | .tick c => schedTickHandler s c
  | .irqReturn c preemptCount => irqReturnHandler C s c preemptCount
  | .sched c => sched C s c

end Model

end Minos.Sched
