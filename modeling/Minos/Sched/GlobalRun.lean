import Mathlib
import Minos.Lib.Run
import Minos.Sched.SchedNew

/-!
# Realtime tasks on several cpus

`sched_new` writes `os_highest_rdy` for all cpus, but a cpu switches only when it schedules itself;
until then `os_prio_cur` says what it runs. A cpu takes what `sched_new` offers to it, and this is
never a priority that another cpu still runs.
-/

namespace Minos.Sched

open Run

/-- A task. A realtime task has its priority as its pid, so that `os_task_table[prio]` is the task
with this priority. -/
inductive Task where
  | rt (prio : ℕ)
  | pcpu (pid : ℕ)
  | idle (cpu : ℕ)
deriving DecidableEq, Repr

def Task.prio : Task → ℕ
  | .rt p => p
  | .pcpu _ => OS_PRIO_PCPU
  | .idle _ => OS_PRIO_IDLE

/-- What the cpus share, with the current task and the ready list of each cpu. -/
structure State where
  rdy : ReadyTable
  highestRdy : ℕ → ℕ
  prioCur : ℕ → ℕ
  current : ℕ → Task
  readyList : ℕ → List ℕ

/-- Every cpu ran `create_idle_task`, and no realtime task was made ready yet. -/
def State.init : State where
  rdy := ⟨0, fun _ => 0⟩
  highestRdy _ := OS_PRIO_PCPU
  prioCur _ := OS_PRIO_PCPU
  current c := .idle c
  readyList _ := []

/-- `get_next_global_run_task` -/
def getNextGlobalRunTask (s : State) (c : ℕ) : Task :=
  if s.highestRdy c ≤ OS_LOWEST_PRIO then .rt (s.highestRdy c)
  else
    match s.readyList c with
    | pid :: _ => .pcpu pid
    | [] => .idle c

/-- The switch, with `global_switch_out` -/
def switchToTask (s : State) (c : ℕ) (next : Task) : State :=
  { s with
    prioCur := Function.update s.prioCur c
      (if next.prio = OS_PRIO_IDLE then OS_PRIO_PCPU else next.prio)
    current := Function.update s.current c next }

/-- What `global_sched` and `global_irq_handler` do under the kernel lock on the cpu `c`. The
resched interrupts to the other cpus make them do the same later. -/
def reschedule (n : ℕ) (s : State) (c : ℕ) : State :=
  let s := { s with highestRdy := schedNew n (fun _ => .global) s.rdy s.prioCur }
  let next := getNextGlobalRunTask s c
  if s.current c = next then s else switchToTask s c next

/-- `global_sched` -/
def globalSched (n : ℕ) (s : State) (c : ℕ) : State := reschedule n s c

/-- `global_irq_handler` -/
def globalIrqHandler (n : ℕ) (s : State) (c : ℕ) : State := reschedule n s c

inductive SchedEvent where
  /-- `set_task_ready` of a realtime task -/
  | ready (p : Fin 64)
  /-- `set_task_sleep` of a realtime task -/
  | sleep (p : Fin 64)
  | sched (c : ℕ)
  | irq (c : ℕ)
  /-- the tasks of one cpu come and go -/
  | percpu (c : ℕ) (readyList : List ℕ)

def schedStep (n : ℕ) (s : State) : SchedEvent → State
  | .ready p => { s with rdy := s.rdy.set p }
  | .sleep p => { s with rdy := s.rdy.clear p }
  | .sched c => globalSched n s c
  | .irq c => globalIrqHandler n s c
  | .percpu c readyList => { s with readyList := Function.update s.readyList c readyList }

lemma ReadyTable.set_consistent {t : ReadyTable} {p : ℕ} (hc : t.Consistent)
    (hp : p ≤ OS_LOWEST_PRIO) : (t.set p).Consistent := by
  intro y hy
  have hp8 : p / 8 < 8 := by
    simp only [ OS_LOWEST_PRIO] at hp
    omega
  simp only [set]
  by_cases hyp : y = p / 8
  · subst hyp
    rw [Function.update_self]
    refine iff_of_true ?_ ?_
    · simp [hp8]
    · intro h0
      have hbit : (t.table (p / 8) ||| 1#8 <<< (p % 8)).getLsbD (p % 8) = true := by
        simp [show p % 8 < 8 by omega]
      rw [h0] at hbit
      simp at hbit
  · rw [Function.update_of_ne hyp, ← hc y hy]
    have : (1#8 <<< (p / 8)).getLsbD y = false := by
      rcases lt_or_gt_of_ne hyp with h | h
      · simp [BitVec.getLsbD_shiftLeft, h]
      · simp [hy, show y - p / 8 ≠ 0 by omega]
    simp [BitVec.getLsbD_or, this]

/-- No priority is current on two cpus, and `os_prio_cur` is right about realtime tasks. -/
structure Exclusive (n : ℕ) (s : State) : Prop where
  consistent : s.rdy.Consistent
  distinct : ∀ c < n, ∀ d < n, s.prioCur c ≤ OS_LOWEST_PRIO → s.prioCur c = s.prioCur d → c = d
  current : ∀ c < n, ∀ p, s.current c = .rt p → s.prioCur c = p

variable {n : ℕ} {s : State}

/-- A cpu that switches to a realtime task is the only one to run it. -/
lemma switchToTask_exclusive {c : ℕ} {next : Task} (h : Exclusive n s)
    (hnext : ∀ p, next = .rt p → p ≤ OS_LOWEST_PRIO ∧ ∀ d < n, d ≠ c → s.prioCur d ≠ p) :
    Exclusive n (switchToTask s c next) := by
  have hprio : ∀ p, p ≤ OS_LOWEST_PRIO →
      (if next.prio = OS_PRIO_IDLE then OS_PRIO_PCPU else next.prio) = p → next = .rt p := by
    intro p hp heq
    cases next with
    | rt q =>
      have := (hnext q rfl).1
      rw [Task.prio, if_neg (by simp only [ OS_LOWEST_PRIO, OS_PRIO_IDLE] at this ⊢; omega)] at heq
      rw [heq]
    | pcpu q =>
      rw [Task.prio, if_neg (by decide)] at heq
      exact absurd (heq ▸ hp) (by decide)
    | idle q =>
      rw [Task.prio, if_pos rfl] at heq
      exact absurd (heq ▸ hp) (by decide)
  refine ⟨h.consistent, fun a ha b hb hle hab => ?_, fun a ha p hp => ?_⟩
  · simp only [switchToTask] at hle hab
    by_cases hac : a = c <;> by_cases hbc : b = c
    · rw [hac, hbc]
    · subst hac
      rw [Function.update_self] at hle hab
      rw [Function.update_of_ne hbc] at hab
      have hrt := hprio _ hle rfl
      exact absurd hab.symm ((hnext _ hrt).2 b hb hbc)
    · subst hbc
      rw [Function.update_self, Function.update_of_ne hac] at hab
      rw [Function.update_of_ne hac] at hle
      have hrt := hprio _ hle hab.symm
      exact absurd rfl ((hnext _ hrt).2 a ha hac)
    · rw [Function.update_of_ne hac] at hle hab
      rw [Function.update_of_ne hbc] at hab
      exact h.distinct a ha b hb hle hab
  · simp only [switchToTask] at hp ⊢
    by_cases hac : a = c
    · subst hac
      rw [Function.update_self] at hp ⊢
      subst hp
      have := (hnext p rfl).1
      rw [Task.prio, if_neg (by simp only [ OS_LOWEST_PRIO, OS_PRIO_IDLE] at this ⊢; omega)]
    · rw [Function.update_of_ne hac] at hp ⊢
      exact h.current a ha p hp

lemma reschedule_exclusive (h : Exclusive n s) {c : ℕ} (hc : c < n) :
    Exclusive n (reschedule n s c) := by
  have hchosen := schedNew_chosen h.consistent h.distinct
  simp only [reschedule]
  split_ifs
  · exact ⟨h.consistent, h.distinct, h.current⟩
  · refine switchToTask_exclusive ⟨h.consistent, h.distinct, h.current⟩ fun p hp => ?_
    simp only [getNextGlobalRunTask] at hp
    split_ifs at hp with hle
    · rw [Task.rt.injEq] at hp
      subst hp
      refine ⟨hle, fun d hd hdc heq => ?_⟩
      -- the other cpu would keep the priority, and no two cpus are offered the same
      have hlow := (hchosen.lowest _ hle).1 ⟨c, hc, rfl⟩
      have hkept := hchosen.kept d hd (heq ▸ hlow)
      exact hdc (hchosen.distinct c hc d hd hle (by rw [hkept, heq])).symm
    · split at hp <;> cases hp

/-- The cpu of a step is one of the machine. -/
def SchedEvent.Legit (n : ℕ) : SchedEvent → Prop
  | .sched c => c < n
  | .irq c => c < n
  | _ => True

lemma schedStep_exclusive {e : SchedEvent} (h : Exclusive n s) (he : e.Legit n) :
    Exclusive n (schedStep n s e) := by
  cases e with
  | ready p =>
    exact ⟨ReadyTable.set_consistent h.consistent (Nat.lt_succ_iff.1 p.2), h.distinct, h.current⟩
  | sleep p =>
    exact ⟨ReadyTable.clear_consistent h.consistent (Nat.lt_succ_iff.1 p.2), h.distinct, h.current⟩
  | sched c => exact reschedule_exclusive h he
  | irq c => exact reschedule_exclusive h he
  | percpu c readyList => exact ⟨h.consistent, h.distinct, h.current⟩

lemma init_exclusive (n : ℕ) : Exclusive n State.init where
  consistent := by decide
  distinct c _ d _ hle := absurd hle (show ¬ OS_PRIO_PCPU ≤ OS_LOWEST_PRIO by decide)
  current c _ p hp := by cases hp

/-- In every run the realtime entries of `os_prio_cur` are distinct and `os_prio_cur` is right about
realtime tasks, so that no realtime task is current on two cpus. -/
theorem realtime_task_on_one_cpu (n : ℕ) (es : List SchedEvent) (hes : ∀ e ∈ es, e.Legit n) :
    let s := exec (schedStep n) State.init es
    (∀ c < n, ∀ d < n, s.prioCur c ≤ OS_LOWEST_PRIO → s.prioCur c = s.prioCur d → c = d) ∧
    (∀ c < n, ∀ p, s.current c = .rt p → s.prioCur c = p) ∧
    (∀ c < n, ∀ d < n, ∀ p ≤ OS_LOWEST_PRIO, s.current c = .rt p → s.current d = .rt p →
      c = d) := by
  have hrun : Along (schedStep n) (fun _ e => SchedEvent.Legit n e) State.init es :=
    along_const.2 hes
  have h := exec_induction (fun s e h he => schedStep_exclusive h he) (init_exclusive n) hrun
  intro s
  refine ⟨h.distinct, h.current, fun c hc d hd p hp hcp hdp => ?_⟩
  have hc' := h.current c hc p hcp
  have hd' := h.current d hd p hdp
  exact h.distinct c hc d hd (hc'.le.trans hp) (hc'.trans hd'.symm)

/-- On two cpus the task 5 sleeps and is ready again before its cpu gives it up. -/
theorem realtime_task_on_one_cpu_two_cpus :
    let es : List SchedEvent := [.ready 5, .sched 0, .sleep 5, .ready 5, .sched 1, .ready 2, .irq 1]
    let s := exec (schedStep 2) State.init es
    s.current 0 = .rt 5 ∧ s.current 1 = .rt 2 ∧
      ∀ c < 2, ∀ p, s.current c = .rt p → s.prioCur c = p :=
  ⟨by decide +kernel, by decide +kernel,
    (realtime_task_on_one_cpu 2 [.ready 5, .sched 0, .sleep 5, .ready 5, .sched 1, .ready 2, .irq 1]
      (by simp [SchedEvent.Legit])).2.1⟩

end Minos.Sched
