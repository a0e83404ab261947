import Minos.Lib.Run

/-!
# Atomic objects

The specification of an object that several callers use at once: a call takes effect in one step,
once, at some moment between the call and its return, and it returns what it would return if the
calls were made one after the other in the order of their effects.
-/

namespace AtomicObject

open Function Run

/-- Where a caller is with its call. -/
inductive Phase (Op Res : Type*) where
  | idle
  | called (op : Op)
  | done (op : Op) (r : Res)
deriving DecidableEq

/-- What is seen of the calls. -/
inductive Mark (Caller Op Res : Type*) where
  | call (c : Caller) (op : Op)
  | effect (c : Caller) (op : Op) (r : Res)
  | ret (c : Caller) (op : Op) (r : Res)
deriving DecidableEq

structure State (Caller Val Op Res : Type*) where
  value : Val
  phase : Caller → Phase Op Res

variable {Caller Val Op Res : Type*}

/-- The object before any call -/
def init (v : Val) : State Caller Val Op Res := ⟨v, fun _ => .idle⟩

variable [DecidableEq Caller] (apply : Op → Val → Val × Res)

def step (s : State Caller Val Op Res) : Mark Caller Op Res → State Caller Val Op Res
  | .call c op => { s with phase := update s.phase c (.called op) }
  | .effect c op r => ⟨(apply op s.value).1, update s.phase c (.done op r)⟩
  | .ret c _ _ => { s with phase := update s.phase c .idle }

/-- The mark may come next. -/
def Legal (s : State Caller Val Op Res) : Mark Caller Op Res → Prop
  | .call c _ => s.phase c = .idle
  | .effect c op r => s.phase c = .called op ∧ r = (apply op s.value).2
  | .ret c op r => s.phase c = .done op r

/-- The calls in the order of their effects, with their results -/
def effects (ms : List (Mark Caller Op Res)) : List (Op × Res) :=
  ms.filterMap fun
    | .effect _ op r => some (op, r)
    | _ => none

/-- The calls made one after the other from a value -/
def Sequential (v : Val) (l : List (Op × Res)) : Prop :=
  Along (fun v p => (apply p.1 v).1) (fun v p => p.2 = (apply p.1 v).2) v l

variable {apply} {s : State Caller Val Op Res} {ms : List (Mark Caller Op Res)}

/-- In a legal run the results are those of the calls made one after the other, and the value is
the one they leave. -/
lemma sequential (h : Along (step apply) (Legal apply) s ms) :
    Sequential apply s.value (effects ms) ∧
      (exec (step apply) s ms).value =
        exec (fun v (p : Op × Res) => (apply p.1 v).1) s.value (effects ms) := by
  induction ms generalizing s with
  | nil => exact ⟨trivial, rfl⟩
  | cons m ms ih =>
    obtain ⟨hm, hms⟩ := h
    obtain ⟨hseq, hval⟩ := ih hms
    cases m with
    | call c op => exact ⟨hseq, hval⟩
    | effect c op r => exact ⟨⟨hm.2, hseq⟩, hval⟩
    | ret c op r => exact ⟨hseq, hval⟩

end AtomicObject
