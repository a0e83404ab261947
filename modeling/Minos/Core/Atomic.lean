import Minos.Lib.AtomicObject
import Minos.Lib.ExclusiveWord

/-!
# Atomic operations

The functions of `lib/atomic.S` on one word, on any number of cpus. All but `__atomic_set` and
`__atomic_get` load the word exclusively, compute in `w2` and store exclusively, and start again
when the store fails.
-/

namespace Minos.Core

open Function Run

/-- The functions of `atomic.S`, with their first argument -/
inductive AtomicOp where
  | set (i : BitVec 32)
  | get
  | add (i : BitVec 32)
  | sub (i : BitVec 32)
  | addReturn (i : BitVec 32)
  | subReturn (i : BitVec 32)
  | addReturnOld (i : BitVec 32)
  | subReturnOld (i : BitVec 32)
deriving DecidableEq

namespace AtomicOp

/-- What a function adds to `w2` or takes from it, or has to store or return -/
def compute : AtomicOp → BitVec 32 → BitVec 32
  | set i, _ => i
  | get, w2 => w2
  | add i, w2 | addReturn i, w2 | addReturnOld i, w2 => w2 + i
  | sub i, w2 | subReturn i, w2 | subReturnOld i, w2 => w2 - i

/-- `w0` at the end of a function that returns a value -/
def result : AtomicOp → BitVec 32 → Option (BitVec 32)
  | set _, _ | add _, _ | sub _, _ => none
  | get, w2 | addReturn _, w2 | subReturn _, w2 => some w2
  | addReturnOld i, w2 => some (w2 - i)
  | subReturnOld i, w2 => some (w2 + i)

/-- What a function is for: the new value of the word, and what it returns -/
def apply : AtomicOp → BitVec 32 → BitVec 32 × Option (BitVec 32)
  | set i, _ => (i, none)
  | get, v => (v, some v)
  | add i, v => (v + i, none)
  | sub i, v => (v - i, none)
  | addReturn i, v => (v + i, some (v + i))
  | subReturn i, v => (v - i, some (v - i))
  | addReturnOld i, v => (v + i, some v)
  | subReturnOld i, v => (v - i, some v)

/-- A function that loads and stores exclusively does in its last store what it is for. -/
lemma apply_eq (op : AtomicOp) (v : BitVec 32) :
    op.apply v = (op.compute v, op.result (op.compute v)) := by
  cases op with
  | addReturnOld i => simp [apply, compute, result]
  | subReturnOld i => simp [apply, compute, result]
  | _ => rfl

end AtomicOp

/-- Where a cpu is in a function. -/
inductive AtomicPc where
  | out
  /-- before the first access of the word -/
  | entry (op : AtomicOp)
  /-- before `stxr` -/
  | stxr (op : AtomicOp) (w2 : BitVec 32)
  /-- before `ret` -/
  | ret (op : AtomicOp) (w0 : Option (BitVec 32))
deriving DecidableEq

/-- A call, the next access of the word, where a `stxr` fails unless `ok`, or a return -/
inductive AtomicEvent (Cpu : Type*) where
  | call (c : Cpu) (op : AtomicOp)
  | access (c : Cpu) (ok : Bool)
  | ret (c : Cpu)

/-- An `atomic_t`, and the cpus -/
structure AtomicWord (Cpu : Type*) where
  word : ExclusiveWord Cpu (BitVec 32)
  pc : Cpu → AtomicPc

namespace AtomicWord

variable {Cpu : Type*}

/-- `ATOMIC_INIT(v)` -/
def init (v : BitVec 32) : AtomicWord Cpu := ⟨.stored v, fun _ => .out⟩

variable [DecidableEq Cpu] (s : AtomicWord Cpu)

def goto (c : Cpu) (pc : AtomicPc) : AtomicWord Cpu := { s with pc := update s.pc c pc }

/-- The next access of the word by a cpu -/
def access (c : Cpu) (ok : Bool) : AtomicWord Cpu :=
  match s.pc c with
  | .out | .ret _ _ => s
  | .entry (.set i) => { s with word := .stored i }.goto c (.ret (.set i) none)
  | .entry .get => s.goto c (.ret .get (some s.word.value))
  | .entry op =>
    { s with word := s.word.loadExclusive c }.goto c (.stxr op (op.compute s.word.value))
  | .stxr op w2 =>
    if s.word.CanStore c ok then { s with word := .stored w2 }.goto c (.ret op (op.result w2))
    else { s with word := s.word.clear c }.goto c (.entry op)

def step (s : AtomicWord Cpu) : AtomicEvent Cpu → AtomicWord Cpu
  | .call c op => if s.pc c = .out then s.goto c (.entry op) else s
  | .access c ok => s.access c ok
  | .ret c =>
    match s.pc c with
    | .ret _ _ => s.goto c .out
    | _ => s

/-- What is seen of an event: a function takes effect when it stores, and `__atomic_get` when it
loads. -/
def marks (s : AtomicWord Cpu) :
    AtomicEvent Cpu → List (AtomicObject.Mark Cpu AtomicOp (Option (BitVec 32)))
  | .call c op => if s.pc c = .out then [.call c op] else []
  | .access c ok =>
    match s.pc c with
    | .entry (.set i) => [.effect c (.set i) none]
    | .entry .get => [.effect c .get (some s.word.value)]
    | .stxr op w2 => if s.word.CanStore c ok then [.effect c op (op.result w2)] else []
    | _ => []
  | .ret c =>
    match s.pc c with
    | .ret op w0 => [.ret c op w0]
    | _ => []

end AtomicWord

/-- Where a cpu at this place is with its call. -/
def AtomicPc.phase : AtomicPc → AtomicObject.Phase AtomicOp (Option (BitVec 32))
  | .out => .idle
  | .entry op | .stxr op _ => .called op
  | .ret op w0 => .done op w0

/-- What `w2` is at `stxr`, when nobody has stored since `ldaxr` -/
def AtomicPc.Computed (pc : AtomicPc) (v : BitVec 32) : Prop :=
  ∀ op w2, pc = .stxr op w2 → w2 = op.compute v

namespace AtomicWord

variable {Cpu : Type*}

/-- The word is in the state of the atomic object. -/
structure Refines (s : AtomicWord Cpu)
    (o : AtomicObject.State Cpu (BitVec 32) AtomicOp (Option (BitVec 32))) : Prop where
  value : o.value = s.word.value
  phase : o.phase = fun c => (s.pc c).phase
  fresh : s.word.Fresh fun c v => (s.pc c).Computed v

lemma init_refines (v : BitVec 32) :
    (init v : AtomicWord Cpu).Refines (AtomicObject.init v) where
  value := rfl
  phase := rfl
  fresh := ExclusiveWord.fresh_stored

variable [DecidableEq Cpu]

/-- Marks that may come after each other, and the state they end in -/
def Follows (o : AtomicObject.State Cpu (BitVec 32) AtomicOp (Option (BitVec 32)))
    (ms : List (AtomicObject.Mark Cpu AtomicOp (Option (BitVec 32)))) (s : AtomicWord Cpu) : Prop :=
  Along (AtomicObject.step AtomicOp.apply) (AtomicObject.Legal AtomicOp.apply) o ms ∧
    s.Refines (exec (AtomicObject.step AtomicOp.apply) o ms)

variable {s : AtomicWord Cpu} {c : Cpu} {pc : AtomicPc}
  {o : AtomicObject.State Cpu (BitVec 32) AtomicOp (Option (BitVec 32))}

@[simp] lemma word_goto : (s.goto c pc).word = s.word := rfl

lemma pc_goto : (s.goto c pc).pc = update s.pc c pc := rfl

lemma phase_goto : (fun d => ((s.goto c pc).pc d).phase) =
    update (fun d => (s.pc d).phase) c pc.phase := by
  funext d
  by_cases h : d = c
  · rw [h, pc_goto, update_self, update_self]
  · rw [pc_goto, update_of_ne h, update_of_ne h]

/-- A step that does not touch the word and does not go to `stxr` -/
lemma Refines.goto (h : s.Refines o) (hpc : ∀ op w2, pc ≠ .stxr op w2) :
    (s.goto c pc).Refines { o with phase := update o.phase c pc.phase } where
  value := h.value
  phase := by rw [phase_goto, ← h.phase]
  fresh := by
    refine h.fresh.mono fun d _ hd => ?_
    by_cases hdc : d = c
    · rw [pc_goto, hdc, update_self]
      exact fun op w2 heq => absurd heq (hpc op w2)
    · rw [pc_goto, update_of_ne hdc]
      exact hd

/-- A store, with which the function takes effect -/
lemma Refines.store (h : s.Refines o) (c : Cpu) (pc : AtomicPc) (v : BitVec 32) :
    ({ s with word := .stored v }.goto c pc).Refines ⟨v, update o.phase c pc.phase⟩ where
  value := rfl
  phase := by rw [phase_goto, h.phase]
  fresh := ExclusiveWord.fresh_stored

/-- `ldaxr` -/
lemma Refines.load (h : s.Refines o) {op : AtomicOp} (hphase : (s.pc c).phase = .called op) :
    ({ s with word := s.word.loadExclusive c }.goto c
      (.stxr op (op.compute s.word.value))).Refines o where
  value := h.value
  phase := by
    have hc : AtomicPc.phase (.stxr op (op.compute s.word.value)) = (s.pc c).phase := hphase.symm
    rw [phase_goto, hc, h.phase]
    exact (update_eq_self c (fun d => (s.pc d).phase)).symm
  fresh := by
    refine h.fresh.loadExclusive (fun d hdc hd => ?_) ?_
    · rw [pc_goto, update_of_ne hdc]
      exact hd
    · rw [pc_goto, update_self]
      rintro op' w2 heq
      cases heq
      rfl

/-- `stxr` fails. -/
lemma Refines.retry (h : s.Refines o) {op : AtomicOp} (hphase : (s.pc c).phase = .called op) :
    ({ s with word := s.word.clear c }.goto c (.entry op)).Refines o where
  value := h.value
  phase := by
    have hc : AtomicPc.phase (.entry op) = (s.pc c).phase := hphase.symm
    rw [phase_goto, hc, h.phase]
    exact (update_eq_self c (fun d => (s.pc d).phase)).symm
  fresh := by
    refine h.fresh.clear fun d hdc hd => ?_
    rw [pc_goto, update_of_ne hdc]
    exact hd

lemma Refines.access (h : s.Refines o) (c : Cpu) (ok : Bool) :
    Follows o (s.marks (.access c ok)) (s.access c ok) := by
  have hphase : o.phase c = (s.pc c).phase := congrFun h.phase c
  cases hpc : s.pc c with
  | out | ret =>
    simp only [AtomicWord.access, marks, hpc]
    exact ⟨trivial, h⟩
  | entry op =>
    rw [hpc] at hphase
    have hload : (s.pc c).phase = .called op := by rw [hpc]; rfl
    cases op with
    | set i =>
      simp only [AtomicWord.access, marks, hpc]
      exact ⟨⟨⟨hphase, rfl⟩, trivial⟩, h.store c _ i⟩
    | get =>
      simp only [AtomicWord.access, marks, hpc]
      refine ⟨⟨⟨hphase, by rw [h.value]; rfl⟩, trivial⟩, ?_⟩
      exact h.goto fun op w2 => AtomicPc.noConfusion
    | _ =>
      simp only [AtomicWord.access, marks, hpc]
      exact ⟨trivial, h.load hload⟩
  | stxr op w2 =>
    rw [hpc] at hphase
    simp only [AtomicWord.access, marks, hpc]
    by_cases hok : s.word.CanStore c ok
    · -- nobody has stored since `ldaxr`, so `w2` is computed from the value of now
      have hw2 : w2 = op.compute s.word.value := h.fresh c hok.1 op w2 hpc
      have happly := op.apply_eq s.word.value
      rw [← hw2, ← h.value] at happly
      rw [if_pos hok, if_pos hok]
      refine ⟨⟨⟨hphase, by rw [happly]⟩, trivial⟩, ?_⟩
      have hnext := h.store c (.ret op (op.result w2)) w2
      rwa [show w2 = (op.apply o.value).1 by rw [happly]] at hnext ⊢
    · rw [if_neg hok, if_neg hok]
      exact ⟨trivial, h.retry (by rw [hpc]; rfl)⟩

/-- Each event is seen as what the atomic object may do next. -/
lemma Refines.step (h : s.Refines o) (e : AtomicEvent Cpu) : Follows o (s.marks e) (s.step e) := by
  cases e with
  | access c ok => exact h.access c ok
  | call c op =>
    have hphase : o.phase c = (s.pc c).phase := congrFun h.phase c
    rw [AtomicWord.step, marks]
    split_ifs with hpc
    · rw [hpc] at hphase
      exact ⟨⟨hphase, trivial⟩, h.goto fun op w2 => AtomicPc.noConfusion⟩
    · exact ⟨trivial, h⟩
  | ret c =>
    have hphase : o.phase c = (s.pc c).phase := congrFun h.phase c
    rw [AtomicWord.step, marks]
    cases hpc : s.pc c with
    | ret op w0 =>
      rw [hpc] at hphase
      exact ⟨⟨hphase, trivial⟩, h.goto fun op w2 => AtomicPc.noConfusion⟩
    | out | entry | stxr => exact ⟨trivial, h⟩

/-- However the cpus take turns and whichever `stxr` fail, each call takes effect once, between its
call and its return, and returns what it would if the calls were made one after the other in the
order of their effects. -/
theorem atomic_operations (v : BitVec 32) (es : List (AtomicEvent Cpu)) :
    let ms := trace step marks (init v) es
    Along (AtomicObject.step AtomicOp.apply) (AtomicObject.Legal AtomicOp.apply)
        (AtomicObject.init v) ms ∧
      AtomicObject.Sequential AtomicOp.apply v (AtomicObject.effects ms) ∧
      (exec step (init v) es).word.value =
        exec (fun v (p : AtomicOp × Option (BitVec 32)) => (p.1.apply v).1) v
          (AtomicObject.effects ms) := by
  intro ms
  have hrun : Follows (AtomicObject.init v) ms (exec step (init v) es) :=
    trace_simulation (fun _ _ e h => h.step e) (init_refines v)
  obtain ⟨hseq, hvalue⟩ := AtomicObject.sequential hrun.1
  exact ⟨hrun.1, hseq, hrun.2.value.symm.trans hvalue⟩

end AtomicWord

end Minos.Core
