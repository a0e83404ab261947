import Minos.Lib.Run

/-!
# First come, first served

The specification of a lock that goes to those who ask for it in the order in which they ask.
-/

namespace FifoLock

open Run

/-- Who has the lock, and who waits for it, in the order in which they asked -/
structure State (α : Type*) where
  holder : Option α
  waiting : List α

inductive Event (α : Type*) where
  | ask (a : α)
  | enter (a : α)
  | leave (a : α)
deriving DecidableEq

variable {α : Type*}

/-- The lock, with nobody waiting for it -/
def free : State α := ⟨none, []⟩

def step (l : State α) : Event α → State α
  | .ask a => { l with waiting := l.waiting ++ [a] }
  | .enter a => ⟨some a, l.waiting.tail⟩
  | .leave _ => { l with holder := none }

/-- The event may come next. -/
def Legal (l : State α) : Event α → Prop
  | .ask a => l.holder ≠ some a ∧ a ∉ l.waiting
  | .enter a => l.holder = none ∧ l.waiting.head? = some a
  | .leave a => l.holder = some a

/-- The holder and those who wait -/
def State.queue (l : State α) : List α := l.holder.toList ++ l.waiting

/-- Those who asked, in order -/
def asked (es : List (Event α)) : List α :=
  es.filterMap fun
    | .ask a => some a
    | _ => none

/-- Those who entered, in order -/
def entered (es : List (Event α)) : List α :=
  es.filterMap fun
    | .enter a => some a
    | _ => none

variable {l : State α} {a : α} {e : Event α} {es : List (Event α)}

lemma waiting_eq_cons (h : Legal l (.enter a)) : l.waiting = a :: l.waiting.tail :=
  (List.cons_head?_tail h.2).symm

/-- The queue in a legal step -/
lemma queue_enter (h : Legal l (.enter a)) : (step l (.enter a)).queue = l.queue := by
  rw [State.queue, State.queue, h.1, waiting_eq_cons h]
  rfl

lemma queue_leave (h : Legal l (.leave a)) : l.queue = a :: (step l (.leave a)).queue := by
  rw [State.queue, State.queue, h]
  rfl

lemma queue_ask : (step l (.ask a)).queue = l.queue ++ [a] := by
  rw [State.queue, State.queue, List.append_assoc]
  rfl

/-- Those who have entered and those who wait are those who asked, in the same order. -/
lemma entered_append_waiting (h : Along step Legal l es) :
    entered es ++ (exec step l es).waiting = l.waiting ++ asked es := by
  induction es generalizing l with
  | nil => simp [entered, asked]
  | cons e es ih =>
    have hrest := ih h.2
    rw [exec_cons]
    cases e with
    | ask a => exact hrest.trans (List.append_assoc ..)
    | enter a =>
      rw [waiting_eq_cons h.1, List.cons_append]
      exact congrArg (a :: ·) hrest
    | leave a => exact hrest

/-- Nobody enters before somebody who asked earlier. -/
lemma entered_prefix_asked (h : Along step Legal free es) : entered es <+: asked es :=
  ⟨_, entered_append_waiting h⟩

end FifoLock
