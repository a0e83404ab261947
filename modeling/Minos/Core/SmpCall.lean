import Mathlib
import Minos.Lib.Run

/-!
# Calls of other cpus

For each pair of a target and a source cpu there is one slot. A call waits until its slot is free,
stores its function and data, locks the slot and sends the interrupt. An interrupt handler that
comes between the wait and the lock finds the slot free too.

Interrupts are masked in an interrupt handler and in `fn(data)` of a call of the own cpu, so at most
one handler nests over the calls of the task on a cpu.
-/

namespace Minos.Core

open Function Run

/-- `struct smp_call` -/
structure SmpCall where
  fn : ℕ
  data : ℕ
  locked : Bool
deriving DecidableEq

/-- Where a call of `smp_function_call` is. -/
inductive SmpPc where
  /-- before `preempt_disable` -/
  | start
  /-- in `fn(data)` on its own cpu -/
  | self
  | wait
  | storeFn
  | storeData
  | lock
  | send
  /-- in the second `smp_call_wait` -/
  | waitDone
  /-- before `preempt_enable` -/
  | enable
deriving DecidableEq

/-- A call of `smp_function_call`, with the `preempt_count` on entry. -/
structure SmpFrame where
  target : ℕ
  fn : ℕ
  data : ℕ
  wait : Bool
  entry : ℕ
  pc : SmpPc
deriving DecidableEq

/-- Where `smp_function_call_handler` is with the slot of a source. -/
inductive SmpPhase where
  | check
  | run
  /-- in `call->fn(call->data)` -/
  | running
  | clearFn
  | clearData
  | unlock
deriving DecidableEq

/-- `smp_function_call_handler` at the slot of the source `i` -/
structure SmpHandler where
  i : ℕ
  phase : SmpPhase
deriving DecidableEq

/-- The handler has called the function of the slot that it is at. -/
def SmpHandler.Ran (h : SmpHandler) : Prop := h.phase ≠ .check ∧ h.phase ≠ .run

instance (h : SmpHandler) : Decidable h.Ran := inferInstanceAs (Decidable (_ ∧ _))

/-- The handler still comes to the slot of `c`. -/
def SmpHandler.ComesTo (h : SmpHandler) (c : ℕ) : Prop := h.i < c ∨ h.i = c ∧ ¬ h.Ran

/-- An interrupt handler, which may be `smp_function_call_handler`, with its calls. A call can be
made in `fn(data)` of another call. -/
structure SmpIrq where
  handler : Option SmpHandler
  frames : List SmpFrame
deriving DecidableEq

structure SmpCpu where
  task : List SmpFrame
  irq : Option SmpIrq
  ipi : Bool
  preemptCount : ℕ
deriving DecidableEq

/-- A call that locked its slot, or an execution by the handler of the target. -/
structure SmpExec where
  target : ℕ
  source : ℕ
  fn : ℕ
  data : ℕ
deriving DecidableEq

namespace SmpCpu

variable (k : SmpCpu)

/-- The calls of the handler, or of the task if there is none. -/
def frames : List SmpFrame :=
  match k.irq with
  | none => k.task
  | some q => q.frames

def setFrames (l : List SmpFrame) : SmpCpu :=
  match k.irq with
  | none => { k with task := l }
  | some q => { k with irq := some { q with frames := l } }

/-- The calls that a handler interrupted -/
def below : List SmpFrame :=
  match k.irq with
  | none => []
  | some _ => k.task

/-- All calls on the cpu, the running one first -/
def allFrames : List SmpFrame := k.frames ++ k.below

/-- Where `smp_function_call_handler` is on the cpu. -/
def handler : Option SmpHandler := k.irq.bind SmpIrq.handler

/-- The running code can call `smp_function_call`. -/
def MayCall : Prop :=
  match k.frames with
  | f :: _ => f.pc = .self
  | [] => ∀ h ∈ k.handler, h.phase = .running

instance : Decidable k.MayCall := by
  unfold MayCall
  split <;> infer_instance

/-- Interrupts are not masked. -/
def MayInterrupt : Prop := k.irq = none ∧ ∀ f ∈ k.task.head?, f.pc ≠ .self

instance : Decidable k.MayInterrupt := inferInstanceAs (Decidable (_ ∧ _))

end SmpCpu

variable {n : ℕ}

/-- The slots of the targets for the sources, and the cpus. `called` and `done` are what was called
and what was executed so far. -/
structure Smp (n : ℕ) where
  slot : ℕ → ℕ → SmpCall
  cpu : Fin n → SmpCpu
  called : List SmpExec
  done : List SmpExec

inductive SmpEvent (n : ℕ) where
  | call (c : Fin n) (target fn data : ℕ) (wait : Bool)
  | callStep (c : Fin n)
  | irqEnter (c : Fin n)
  | irqExit (c : Fin n)
  | ipiEnter (c : Fin n)
  | handlerStep (c : Fin n)
deriving DecidableEq

namespace Smp

variable (s : Smp n)

def setCpu (c : Fin n) (k : SmpCpu) : Smp n := { s with cpu := update s.cpu c k }

def setSlot (t c : ℕ) (call : SmpCall) : Smp n :=
  { s with slot := update s.slot t (update (s.slot t) c call) }

/-- `send_sgi` -/
def sendSgi (t : ℕ) : Smp n :=
  if h : t < n then s.setCpu ⟨t, h⟩ { s.cpu ⟨t, h⟩ with ipi := true } else s

/-- The running call goes on. -/
def goto (c : Fin n) (pc : SmpPc) : Smp n :=
  match (s.cpu c).frames with
  | [] => s
  | f :: fs => s.setCpu c ((s.cpu c).setFrames ({ f with pc } :: fs))

/-- The running call returns. -/
def ret (c : Fin n) : Smp n := s.setCpu c ((s.cpu c).setFrames (s.cpu c).frames.tail)

def setPreemptCount (c : Fin n) (count : ℕ) : Smp n :=
  s.setCpu c { s.cpu c with preemptCount := count }

/-- A step of `smp_function_call` for a call `f` on a cpu -/
def frameStep (c : Fin n) (f : SmpFrame) : Smp n :=
  let call := s.slot f.target c
  match f.pc with
  | .start =>
    let s := s.setPreemptCount c ((s.cpu c).preemptCount + 1)
    if n ≤ f.target then s.ret c
    else if f.target = c then s.goto c .self
    else s.goto c .wait
  | .self => s.goto c .enable
  | .wait => if call.locked then s else s.goto c .storeFn
  | .storeFn => (s.setSlot f.target c { call with fn := f.fn }).goto c .storeData
  | .storeData => (s.setSlot f.target c { call with data := f.data }).goto c .lock
  | .lock =>
    { (s.setSlot f.target c { call with locked := true }).goto c .send with
      called := ⟨f.target, c, f.fn, f.data⟩ :: s.called }
  | .send => (s.sendSgi f.target).goto c (if f.wait then .waitDone else .enable)
  | .waitDone => if call.locked then s else s.goto c .enable
  | .enable => (s.setPreemptCount c ((s.cpu c).preemptCount - 1)).ret c

def setHandler (c : Fin n) (handler : Option SmpHandler) : Smp n :=
  s.setCpu c { s.cpu c with irq := handler.map fun h => ⟨some h, []⟩ }

/-- A step of `smp_function_call_handler` -/
def handlerStep (c : Fin n) (h : SmpHandler) : Smp n :=
  let call := s.slot c h.i
  match h.phase with
  | .check =>
    if n ≤ h.i then s.setHandler c none
    else if call.locked then s.setHandler c (some { h with phase := .run })
    else s.setHandler c (some ⟨h.i + 1, .check⟩)
  | .run =>
    { s.setHandler c (some { h with phase := .running }) with
      done := ⟨c, h.i, call.fn, call.data⟩ :: s.done }
  | .running => s.setHandler c (some { h with phase := .clearFn })
  | .clearFn =>
    (s.setSlot c h.i { call with fn := 0 }).setHandler c (some { h with phase := .clearData })
  | .clearData =>
    (s.setSlot c h.i { call with data := 0 }).setHandler c (some { h with phase := .unlock })
  | .unlock =>
    (s.setSlot c h.i { call with locked := false }).setHandler c (some ⟨h.i + 1, .check⟩)

def step (s : Smp n) : SmpEvent n → Smp n
  | .call c target fn data wait =>
    let k := s.cpu c
    if k.MayCall then
      s.setCpu c (k.setFrames (⟨target, fn, data, wait, k.preemptCount, .start⟩ :: k.frames))
    else s
  | .callStep c =>
    match (s.cpu c).frames with
    | [] => s
    | f :: _ => s.frameStep c f
  | .irqEnter c =>
    if (s.cpu c).MayInterrupt then s.setCpu c { s.cpu c with irq := some ⟨none, []⟩ } else s
  | .irqExit c =>
    if (s.cpu c).irq = some ⟨none, []⟩ then s.setCpu c { s.cpu c with irq := none } else s
  | .ipiEnter c =>
    if (s.cpu c).ipi = true ∧ (s.cpu c).MayInterrupt then
      s.setCpu c { s.cpu c with ipi := false, irq := some ⟨some ⟨0, .check⟩, []⟩ }
    else s
  | .handlerStep c =>
    match (s.cpu c).irq with
    | some ⟨some h, []⟩ => s.handlerStep c h
    | _ => s

/-- No slot is in use, and nothing runs. -/
def init (preemptCount : Fin n → ℕ) : Smp n where
  slot := fun _ _ => ⟨0, 0, false⟩
  cpu := fun c => ⟨[], none, false, preemptCount c⟩
  called := []
  done := []

/-! ### What is to hold -/

/-- The handler of a target has called the function of the slot of `c`, and not yet unlocked it. -/
def Executed (t c : Fin n) : Prop :=
  ∃ h ∈ (s.cpu t).handler, h.i = c ∧ h.Ran

instance (t c : Fin n) : Decidable (s.Executed t c) :=
  inferInstanceAs (Decidable (∃ h ∈ _, _))

/-- The slot of `t` for `c` has a call that was not executed. -/
def Pending (t c : Fin n) : Prop := (s.slot t c).locked = true ∧ ¬ s.Executed t c

instance (t c : Fin n) : Decidable (s.Pending t c) := inferInstanceAs (Decidable (_ ∧ _))

/-- The interrupt of `t` is pending, its handler still comes to the slot of `c`, or the caller is
about to send the interrupt. -/
def OnTheWay (t c : Fin n) : Prop :=
  (s.cpu t).ipi = true ∨
  (∃ h ∈ (s.cpu t).handler, h.ComesTo c) ∨
  ∃ f ∈ (s.cpu c).allFrames, f.target = t ∧ f.pc = .send

/-- The number of executions that are still to come of a call -/
def due (t c : Fin n) (fn data : ℕ) : ℕ :=
  if s.Pending t c ∧ (s.slot t c).fn = fn ∧ (s.slot t c).data = data then 1 else 0

/-- Each call that locked its slot was executed once on its target or will be, and the handler will
come to it. -/
structure Delivered : Prop where
  once : ∀ (t c : Fin n) (fn data : ℕ), s.called.count ⟨t, c, fn, data⟩ =
    s.done.count ⟨t, c, fn, data⟩ + s.due t c fn data
  onTheWay : ∀ t c : Fin n, s.Pending t c → s.OnTheWay t c

/-- The call that a step of a cpu returns from -/
def returning (c : Fin n) : Option SmpFrame :=
  (s.cpu c).frames.head?.filter fun f => f.pc = .enable ∨ f.pc = .start ∧ n ≤ f.target

/-- All calls are delivered after a step, and one that returns leaves `preempt_count` as it was. -/
structure StepOk (s : Smp n) (e : SmpEvent n) : Prop where
  delivered : (s.step e).Delivered
  preempt : ∀ c f, e = .callStep c → s.returning c = some f →
    ((s.step e).cpu c).preemptCount = f.entry

/-- The target of a call is a cpu. From the wait of a call to its lock the slot is free, and what
the call stored in it is still there. -/
def FrameUndisturbed (n : ℕ) (f : SmpFrame) (call : SmpCall) : Prop :=
  match f.pc with
  | .start => f.target < n
  | .storeFn => call.locked = false
  | .storeData => call.locked = false ∧ call.fn = f.fn
  | .lock => call.locked = false ∧ call.fn = f.fn ∧ call.data = f.data
  | .self | .wait | .send | .waitDone | .enable => True

instance (n : ℕ) (f : SmpFrame) (call : SmpCall) : Decidable (FrameUndisturbed n f call) := by
  unfold FrameUndisturbed
  split <;> infer_instance

/-- The condition for a step of a call -/
def Undisturbed (s : Smp n) : SmpEvent n → Prop
  | .callStep c => ∀ f ∈ (s.cpu c).frames.head?, FrameUndisturbed n f (s.slot f.target c)
  | _ => True

instance (s : Smp n) : (e : SmpEvent n) → Decidable (s.Undisturbed e)
  | .callStep c => inferInstanceAs (Decidable (∀ f ∈ (s.cpu c).frames.head?,
      FrameUndisturbed n f (s.slot f.target c)))
  | .call .. | .irqEnter _ | .irqExit _ | .ipiEnter _ | .handlerStep _ =>
    inferInstanceAs (Decidable True)

end Smp

/-! ### Frames -/

namespace SmpCpu

variable {k : SmpCpu} {l : List SmpFrame}

@[simp] lemma frames_setFrames : (k.setFrames l).frames = l := by
  rw [setFrames]
  split
  · next h => simp only [frames, h]
  · rfl

@[simp] lemma below_setFrames : (k.setFrames l).below = k.below := by
  rw [setFrames]
  split
  · next h => simp only [below, h]
  · next h => simp only [below, h]

lemma allFrames_setFrames : (k.setFrames l).allFrames = l ++ k.below := by
  rw [allFrames, frames_setFrames, below_setFrames]

@[simp] lemma handler_setFrames : (k.setFrames l).handler = k.handler := by
  rw [setFrames, handler, handler]
  split
  · rfl
  · next h => simp only [h]; rfl

@[simp] lemma ipi_setFrames : (k.setFrames l).ipi = k.ipi := by
  rw [setFrames]
  split
  · rfl
  · rfl

@[simp] lemma preemptCount_setFrames : (k.setFrames l).preemptCount = k.preemptCount := by
  rw [setFrames]
  split
  · rfl
  · rfl

end SmpCpu

/-- Each call found what the calls below it left in `preempt_count`, and counted once. -/
def Accounted (base : ℕ) : List SmpFrame → ℕ → Prop
  | [], count => count = base
  | f :: fs, count => Accounted base fs f.entry ∧ count = f.entry + if f.pc = .start then 0 else 1

namespace Smp

/-- The handler has a slot locked while it is at it, and the counts of all cpus are accounted for.
-/
structure Inv (base : Fin n → ℕ) (s : Smp n) : Prop where
  delivered : s.Delivered
  handler : ∀ t : Fin n, ∀ h ∈ (s.cpu t).handler, h.phase ≠ .check →
    h.i < n ∧ (s.slot t h.i).locked = true
  accounted : ∀ c, Accounted (base c) (s.cpu c).allFrames (s.cpu c).preemptCount

variable {base : Fin n → ℕ} {s s' : Smp n} {c t : Fin n} {k : SmpCpu} {f : SmpFrame}
  {fs : List SmpFrame}

lemma init_inv (preemptCount : Fin n → ℕ) : (init preemptCount).Inv preemptCount where
  delivered := by
    have hno : ∀ t c : Fin n, ¬ (init preemptCount).Pending t c := fun t c h => by cases h.1
    refine ⟨fun t c fn data => ?_, fun t c h => absurd h (hno t c)⟩
    rw [due, if_neg fun h => hno t c h.1]
    rfl
  handler t h hh := by cases hh
  accounted c := rfl

/-! ### Steps that no slot with a call notices -/

/-- The slots with a call that was not executed are the same, and the handlers still come to them.
-/
lemma Delivered.congr (h : s.Delivered) (hcalled : s'.called = s.called) (hdone : s'.done = s.done)
    (hpending : ∀ t c : Fin n, s'.Pending t c ↔ s.Pending t c)
    (hslot : ∀ t c : Fin n, s.Pending t c → s'.slot t c = s.slot t c)
    (hway : ∀ t c : Fin n, s.Pending t c → s.OnTheWay t c → s'.OnTheWay t c) : s'.Delivered where
  once t c fn data := by
    have hdue : s'.due t c fn data = s.due t c fn data := by
      rw [due, due]
      by_cases hp : s.Pending t c
      · simp only [hpending t c, hslot t c hp]
      · rw [if_neg fun hd => hp ((hpending t c).1 hd.1), if_neg fun hd => hp hd.1]
    rw [hcalled, hdone, hdue]
    exact h.once t c fn data
  onTheWay t c hp :=
    hway t c ((hpending t c).1 hp) (h.onTheWay t c ((hpending t c).1 hp))

lemma executed_congr (h : ∀ t, (s'.cpu t).handler = (s.cpu t).handler) :
    s'.Executed t c ↔ s.Executed t c := by
  rw [Executed, Executed, h t]

@[simp] lemma cpu_setCpu_self : (s.setCpu c k).cpu c = k := update_self ..

lemma cpu_setCpu_of_ne {d : Fin n} (h : d ≠ c) : (s.setCpu c k).cpu d = s.cpu d :=
  update_of_ne h ..

/-- A cpu changes, but for its handler. -/
lemma Inv.setCpu (h : s.Inv base) (hhandler : k.handler = (s.cpu c).handler)
    (hipi : (s.cpu c).ipi = true → k.ipi = true)
    (hsend : ∀ f ∈ (s.cpu c).allFrames, f.pc = .send → f ∈ k.allFrames ∨
      ∀ t : Fin n, f.target = t → (s.cpu t).ipi = true)
    (hacc : Accounted (base c) k.allFrames k.preemptCount) : (s.setCpu c k).Inv base := by
  have hh : ∀ t, ((s.setCpu c k).cpu t).handler = (s.cpu t).handler := by
    intro t
    by_cases ht : t = c
    · subst ht
      rw [cpu_setCpu_self, hhandler]
    · rw [cpu_setCpu_of_ne ht]
  have hi : ∀ t, (s.cpu t).ipi = true → ((s.setCpu c k).cpu t).ipi = true := by
    intro t hit
    by_cases ht : t = c
    · subst ht
      rw [cpu_setCpu_self]
      exact hipi hit
    · rwa [cpu_setCpu_of_ne ht]
  refine ⟨h.delivered.congr rfl rfl (fun t d => and_congr_right fun _ => not_congr
    (executed_congr hh)) (fun _ _ _ => rfl) ?_, fun t q hq => ?_, fun d => ?_⟩
  · rintro t d - (hway | hway | ⟨f, hf, hft, hpc⟩)
    · exact .inl (hi t hway)
    · exact .inr (.inl (by rw [hh t]; exact hway))
    · by_cases hd : d = c
      · subst hd
        rcases hsend f hf hpc with hmem | hmem
        · refine .inr (.inr ⟨f, ?_, hft, hpc⟩)
          rwa [cpu_setCpu_self]
        · exact .inl (hi t (hmem t hft))
      · refine .inr (.inr ⟨f, ?_, hft, hpc⟩)
        rwa [cpu_setCpu_of_ne hd]
  · rw [hh t] at hq
    exact h.handler t q hq
  · by_cases hd : d = c
    · subst hd
      rw [cpu_setCpu_self]
      exact hacc
    · rw [cpu_setCpu_of_ne hd]
      exact h.accounted d

lemma slot_setSlot_self (t c : ℕ) (call : SmpCall) : (s.setSlot t c call).slot t c = call := by
  simp [Smp.setSlot]

lemma slot_setSlot_of_ne {t c t' c' : ℕ} (call : SmpCall) (h : t' = t → c' ≠ c) :
    (s.setSlot t c call).slot t' c' = s.slot t' c' := by
  by_cases ht : t' = t
  · subst ht
    simp [Smp.setSlot, h rfl]
  · simp [Smp.setSlot, ht]

/-- A slot without a call that was not executed is written. -/
lemma Inv.setSlot (h : s.Inv base) {t : ℕ} {call : SmpCall}
    (hbefore : ∀ t' : Fin n, t' = t → ¬ s.Pending t' c)
    (hafter : call.locked = true → ∀ t' : Fin n, t' = t → s.Executed t' c)
    (hhandler : ∀ t' : Fin n, t' = t → ∀ q ∈ (s.cpu t').handler, q.i = c → q.phase ≠ .check →
      call.locked = true) : (s.setSlot t c call).Inv base := by
  have hself := slot_setSlot_self (s := s) t c call
  have hne : ∀ t' c' : Fin n, ¬ ((t' : ℕ) = t ∧ c' = c) →
      (s.setSlot t c call).slot t' c' = s.slot t' c' := fun t' c' hne =>
    slot_setSlot_of_ne call fun ht hc => hne ⟨ht, Fin.ext hc⟩
  refine ⟨h.delivered.congr rfl rfl (fun t' c' => ?_) (fun t' c' hp => hne t' c' ?_)
    (fun _ _ _ hway => hway), fun t' q hq hphase => ?_, h.accounted⟩
  · by_cases heq : (t' : ℕ) = t ∧ c' = c
    · obtain ⟨rfl, rfl⟩ := heq
      refine iff_of_false (fun hp => hp.2 (hafter ?_ t' rfl)) (hbefore t' rfl)
      rw [← hself]
      exact hp.1
    · rw [Pending, Pending, hne t' c' heq]
      rfl
  · rintro ⟨rfl, rfl⟩
    exact hbefore t' rfl hp
  · obtain ⟨hlt, hlocked⟩ := h.handler t' q hq hphase
    refine ⟨hlt, ?_⟩
    by_cases heq : (t' : ℕ) = t ∧ (⟨q.i, hlt⟩ : Fin n) = c
    · obtain ⟨rfl, rfl⟩ := heq
      exact (congrArg SmpCall.locked hself).trans (hhandler t' rfl q hq rfl hphase)
    · exact (congrArg SmpCall.locked (hne t' ⟨q.i, hlt⟩ heq)).trans hlocked

/-- A free slot is written. -/
lemma Inv.setSlot_free (h : s.Inv base) {t : ℕ} {call : SmpCall}
    (hfree : (s.slot t c).locked = false) (hcall : call.locked = false) :
    (s.setSlot t c call).Inv base := by
  refine h.setSlot ?_ (fun hl => ?_) ?_
  · rintro t' rfl hp
    rw [hp.1] at hfree
    cases hfree
  · rw [hcall] at hl
    cases hl
  · rintro t' rfl q hq hi hphase
    have hlocked := (h.handler t' q hq hphase).2
    rw [hi, hfree] at hlocked
    cases hlocked

/-- A call locks its slot. -/
lemma Inv.lockSlot (h : s.Inv base) {t : ℕ} {call : SmpCall} (hcall : s.slot t c = call)
    (hfree : call.locked = false) (hf : f ∈ (s.cpu c).allFrames) (hft : f.target = t)
    (hpc : f.pc = .send) :
    { s.setSlot t c { call with locked := true } with
      called := ⟨t, c, call.fn, call.data⟩ :: s.called }.Inv base := by
  have hself := slot_setSlot_self (s := s) t c { call with locked := true }
  have hne : ∀ t' c' : Fin n, ¬ ((t' : ℕ) = t ∧ c' = c) →
      (s.setSlot t c { call with locked := true }).slot t' c' = s.slot t' c' := fun t' c' hne =>
    slot_setSlot_of_ne _ fun ht hc => hne ⟨ht, Fin.ext hc⟩
  have hunlocked : (s.slot t c).locked = false := by rw [hcall, hfree]
  refine ⟨⟨fun t' c' fn data => ?_, fun t' c' hp => ?_⟩, fun t' q hq hphase => ?_, h.accounted⟩
  · have honce := h.delivered.once t' c' fn data
    change List.count _ (_ :: s.called) = _
    by_cases heq : (t' : ℕ) = t ∧ c' = c
    · obtain ⟨rfl, rfl⟩ := heq
      have hbefore : s.due t' c' fn data = 0 := by
        refine if_neg fun hd => ?_
        rw [hd.1.1] at hunlocked
        cases hunlocked
      have hpending : ¬ s.Executed t' c' := by
        rintro ⟨q, hq, hi, hphase, -⟩
        have hl := (h.handler t' q hq hphase).2
        rw [hi, hunlocked] at hl
        cases hl
      rw [List.count_cons, honce, hbefore, Nat.add_zero, due]
      congr 1
      refine if_congr ?_ rfl rfl
      rw [beq_iff_eq, SmpExec.mk.injEq]
      constructor
      · rintro ⟨-, -, hfn, hdata⟩
        exact ⟨⟨congrArg SmpCall.locked hself, hpending⟩, (congrArg SmpCall.fn hself).trans hfn,
          (congrArg SmpCall.data hself).trans hdata⟩
      · rintro ⟨-, hfn, hdata⟩
        exact ⟨rfl, rfl, (congrArg SmpCall.fn hself).symm.trans hfn,
          (congrArg SmpCall.data hself).symm.trans hdata⟩
    · have hslot := hne t' c' heq
      rw [List.count_cons_of_ne, honce, due, due]
      · congr 1
        refine if_congr (and_congr (and_congr ?_ Iff.rfl) ?_) rfl rfl
        · exact iff_of_eq (congrArg (SmpCall.locked · = true) hslot.symm)
        · exact iff_of_eq (congrArg (fun x => x.fn = fn ∧ x.data = data) hslot.symm)
      · intro hexec
        rw [SmpExec.mk.injEq] at hexec
        exact heq ⟨hexec.1.symm, Fin.ext hexec.2.1.symm⟩
  · by_cases heq : (t' : ℕ) = t ∧ c' = c
    · obtain ⟨rfl, rfl⟩ := heq
      exact .inr (.inr ⟨f, hf, hft, hpc⟩)
    · refine h.delivered.onTheWay t' c' ⟨?_, hp.2⟩
      rw [← hne t' c' heq]
      exact hp.1
  · obtain ⟨hlt, hlocked⟩ := h.handler t' q hq hphase
    refine ⟨hlt, ?_⟩
    by_cases heq : (t' : ℕ) = t ∧ (⟨q.i, hlt⟩ : Fin n) = c
    · obtain ⟨rfl, rfl⟩ := heq
      exact congrArg SmpCall.locked hself
    · exact (congrArg SmpCall.locked (hne t' ⟨q.i, hlt⟩ heq)).trans hlocked

/-! ### Steps of a call -/

lemma goto_eq (hf : (s.cpu c).frames = f :: fs) (pc : SmpPc) :
    s.goto c pc = s.setCpu c ((s.cpu c).setFrames ({ f with pc } :: fs)) := by
  rw [goto, hf]

lemma accounted_pc {b count : ℕ} {l : List SmpFrame} {pc : SmpPc} (hf : f.pc ≠ .start)
    (hpc : pc ≠ .start) (h : Accounted b (f :: l) count) :
    Accounted b ({ f with pc } :: l) count := by
  rw [Accounted, if_neg hf] at h
  rw [Accounted, if_neg hpc]
  exact h

lemma Inv.goto (h : s.Inv base) (hf : (s.cpu c).frames = f :: fs) {pc : SmpPc}
    (hstart : f.pc ≠ .start) (hpc : pc ≠ .start)
    (hsend : f.pc = .send → ∀ t : Fin n, f.target = t → (s.cpu t).ipi = true) :
    (s.goto c pc).Inv base := by
  have hall : (s.cpu c).allFrames = f :: (fs ++ (s.cpu c).below) := by
    rw [SmpCpu.allFrames, hf, List.cons_append]
  rw [goto_eq hf]
  refine h.setCpu SmpCpu.handler_setFrames (fun hi => by rwa [SmpCpu.ipi_setFrames])
    (fun g hg hgpc => ?_) ?_
  · rw [SmpCpu.allFrames_setFrames, List.cons_append]
    rw [hall, List.mem_cons] at hg
    rcases hg with rfl | hg
    · exact .inr (hsend hgpc)
    · exact .inl (List.mem_cons_of_mem _ hg)
  · rw [SmpCpu.allFrames_setFrames, SmpCpu.preemptCount_setFrames, List.cons_append]
    exact accounted_pc hstart hpc (hall ▸ h.accounted c)

/-- A call that is not about to send the interrupt goes on. -/
lemma Inv.goto_plain (h : s.Inv base) (hf : (s.cpu c).frames = f :: fs) {pc : SmpPc}
    (hfpc : f.pc ≠ .start ∧ f.pc ≠ .send) (hpc : pc ≠ .start) : (s.goto c pc).Inv base :=
  h.goto hf hfpc.1 hpc fun hsend => absurd hsend hfpc.2

lemma Inv.sendSgi (h : s.Inv base) (t : ℕ) : (s.sendSgi t).Inv base := by
  rw [Smp.sendSgi]
  split_ifs with ht
  · exact h.setCpu rfl (fun _ => rfl) (fun f hf _ => .inl hf) (h.accounted ⟨t, ht⟩)
  · exact h

lemma frames_sendSgi (t : ℕ) : ((s.sendSgi t).cpu c).frames = (s.cpu c).frames := by
  rw [Smp.sendSgi]
  split_ifs with ht
  · by_cases hc : c = ⟨t, ht⟩
    · rw [hc, cpu_setCpu_self]
      rfl
    · rw [cpu_setCpu_of_ne hc]
  · rfl

lemma ipi_sendSgi : ((s.sendSgi t).cpu t).ipi = true := by
  rw [Smp.sendSgi, dif_pos t.isLt, cpu_setCpu_self]

/-- The first step of a call to a cpu -/
lemma Inv.frameStart (h : s.Inv base) (hf : (s.cpu c).frames = f :: fs) (hstart : f.pc = .start)
    {pc : SmpPc} (hpc : pc ≠ .start) :
    ((s.setPreemptCount c ((s.cpu c).preemptCount + 1)).goto c pc).Inv base := by
  have hacc := h.accounted c
  have hall : (s.cpu c).allFrames = f :: (fs ++ (s.cpu c).below) := by
    rw [SmpCpu.allFrames, hf, List.cons_append]
  rw [hall, Accounted, if_pos hstart, Nat.add_zero] at hacc
  have hframes : ((s.setPreemptCount c ((s.cpu c).preemptCount + 1)).cpu c).frames = f :: fs := by
    rw [setPreemptCount, cpu_setCpu_self]
    exact hf
  rw [goto_eq hframes, setPreemptCount, cpu_setCpu_self, Smp.setCpu, Smp.setCpu]
  simp only [update_idem]
  refine h.setCpu SmpCpu.handler_setFrames (fun hi => by rwa [SmpCpu.ipi_setFrames])
    (fun g hg hgpc => .inl ?_) ?_
  · rw [SmpCpu.allFrames_setFrames, List.cons_append]
    rw [hall, List.mem_cons] at hg
    rcases hg with rfl | hg
    · rw [hstart] at hgpc
      cases hgpc
    · exact List.mem_cons_of_mem _ hg
  · rw [SmpCpu.allFrames_setFrames, SmpCpu.preemptCount_setFrames, List.cons_append, Accounted,
      if_neg hpc]
    exact ⟨hacc.1, congrArg (· + 1) hacc.2⟩

/-- The last step of a call -/
lemma Inv.frameEnd (h : s.Inv base) (hf : (s.cpu c).frames = f :: fs) (hend : f.pc = .enable) :
    ((s.setPreemptCount c ((s.cpu c).preemptCount - 1)).ret c).Inv base := by
  have hacc := h.accounted c
  have hall : (s.cpu c).allFrames = f :: (fs ++ (s.cpu c).below) := by
    rw [SmpCpu.allFrames, hf, List.cons_append]
  rw [hall, Accounted, hend, if_neg nofun] at hacc
  have hframes : ((s.setPreemptCount c ((s.cpu c).preemptCount - 1)).cpu c).frames = f :: fs := by
    rw [setPreemptCount, cpu_setCpu_self]
    exact hf
  rw [ret, hframes, setPreemptCount, cpu_setCpu_self, Smp.setCpu, Smp.setCpu]
  simp only [update_idem, List.tail_cons]
  refine h.setCpu SmpCpu.handler_setFrames (fun hi => by rwa [SmpCpu.ipi_setFrames])
    (fun g hg hgpc => .inl ?_) ?_
  · rw [SmpCpu.allFrames_setFrames]
    rw [hall, List.mem_cons] at hg
    rcases hg with rfl | hg
    · rw [hend] at hgpc
      cases hgpc
    · exact hg
  · rw [SmpCpu.allFrames_setFrames, SmpCpu.preemptCount_setFrames]
    change Accounted _ _ ((s.cpu c).preemptCount - 1)
    rw [hacc.2, Nat.add_sub_cancel]
    exact hacc.1

/-- What a call does at its lock keeps the invariant in either order. -/
lemma Inv.frameLock (h : s.Inv base) (hf : (s.cpu c).frames = f :: fs) (hpc : f.pc = .lock)
    (hfree : (s.slot f.target c).locked = false) (hfn : (s.slot f.target c).fn = f.fn)
    (hdata : (s.slot f.target c).data = f.data) : (s.frameStep c f).Inv base := by
  have hgoto : (s.goto c .send).Inv base :=
    h.goto_plain hf (by rw [hpc]; exact ⟨nofun, nofun⟩) nofun
  have hslot : (s.goto c .send).slot f.target c = s.slot f.target c := by
    rw [goto_eq hf]
    rfl
  have hmem : { f with pc := .send } ∈ ((s.goto c .send).cpu c).allFrames := by
    rw [goto_eq hf, cpu_setCpu_self, SmpCpu.allFrames_setFrames]
    exact List.mem_append_left _ List.mem_cons_self
  have hlock := hgoto.lockSlot hslot hfree hmem rfl rfl
  have heq : s.frameStep c f = { (s.goto c .send).setSlot f.target c
      { s.slot f.target c with locked := true } with
      called := ⟨f.target, c, f.fn, f.data⟩ :: (s.goto c .send).called } := by
    have hf' : ((s.setSlot f.target c { s.slot f.target c with locked := true }).cpu c).frames =
        f :: fs := hf
    simp only [frameStep, hpc, goto_eq hf, goto_eq hf']
    rfl
  rw [heq, ← hfn, ← hdata]
  exact hlock

lemma Inv.frameStep (h : s.Inv base) (hf : (s.cpu c).frames = f :: fs)
    (hs : s.Undisturbed (.callStep c)) : (s.frameStep c f).Inv base := by
  have hcond := hs f (by rw [hf]; rfl)
  rw [FrameUndisturbed] at hcond
  cases hpc : f.pc with
  | start =>
    rw [hpc] at hcond
    simp only [Smp.frameStep, hpc, if_neg (not_le.2 hcond)]
    split_ifs
    · exact h.frameStart hf hpc nofun
    · exact h.frameStart hf hpc nofun
  | self =>
    simp only [Smp.frameStep, hpc]
    exact h.goto_plain hf (by rw [hpc]; exact ⟨nofun, nofun⟩) nofun
  | wait =>
    simp only [Smp.frameStep, hpc]
    split_ifs
    · exact h
    · exact h.goto_plain hf (by rw [hpc]; exact ⟨nofun, nofun⟩) nofun
  | storeFn =>
    rw [hpc] at hcond
    simp only [Smp.frameStep, hpc]
    refine Inv.goto_plain (h.setSlot_free ?_ ?_) hf (by rw [hpc]; exact ⟨nofun, nofun⟩) nofun
    · exact hcond
    · exact hcond
  | storeData =>
    rw [hpc] at hcond
    simp only [Smp.frameStep, hpc]
    refine Inv.goto_plain (h.setSlot_free ?_ ?_) hf (by rw [hpc]; exact ⟨nofun, nofun⟩) nofun
    · exact hcond.1
    · exact hcond.1
  | lock =>
    rw [hpc] at hcond
    exact h.frameLock hf hpc hcond.1 hcond.2.1 hcond.2.2
  | send =>
    simp only [Smp.frameStep, hpc]
    have hframes := (frames_sendSgi (s := s) (c := c) f.target).trans hf
    refine (h.sendSgi f.target).goto hframes (by rw [hpc]; nofun) ?_ fun _ t ht => ?_
    · split_ifs
      · nofun
      · nofun
    · rw [ht]
      exact ipi_sendSgi
  | waitDone =>
    simp only [Smp.frameStep, hpc]
    split_ifs
    · exact h
    · exact h.goto_plain hf (by rw [hpc]; exact ⟨nofun, nofun⟩) nofun
  | enable =>
    simp only [Smp.frameStep, hpc]
    exact h.frameEnd hf hpc

/-! ### Steps of the handler -/

lemma setSlot_self (t c : ℕ) : s.setSlot t c (s.slot t c) = s := by
  simp [Smp.setSlot]

lemma handler_of_irq {h : SmpHandler} (hirq : (s.cpu c).irq = some ⟨some h, []⟩) :
    (s.cpu c).handler = some h := by
  rw [SmpCpu.handler, hirq]
  rfl

lemma handler_setHandler (h' : Option SmpHandler) :
    ((s.setHandler c h').cpu c).handler = h' := by
  rw [setHandler, cpu_setCpu_self]
  cases h' with
  | none => rfl
  | some q => rfl

lemma allFrames_setHandler {h : SmpHandler} (hirq : (s.cpu c).irq = some ⟨some h, []⟩)
    (h' : Option SmpHandler) (d : Fin n) :
    ((s.setHandler c h').cpu d).allFrames = (s.cpu d).allFrames := by
  by_cases hd : d = c
  · subst hd
    rw [setHandler, cpu_setCpu_self]
    cases h' with
    | none => simp [SmpCpu.allFrames, SmpCpu.frames, SmpCpu.below, hirq]
    | some q => simp [SmpCpu.allFrames, SmpCpu.frames, SmpCpu.below, hirq]
  · rw [setHandler, cpu_setCpu_of_ne hd]

/-- The handler goes on, and writes the slot that it is at, without a difference to pending calls.
-/
lemma Inv.handler_goes (hinv : s.Inv base) {h : SmpHandler}
    (hirq : (s.cpu c).irq = some ⟨some h, []⟩) {call : SmpCall} {h' : Option SmpHandler}
    (hat : ∀ q ∈ h', q.phase ≠ .check → q.i = h.i ∧ h.i < n ∧ call.locked = true)
    (hself : (call.locked = true ∧ ¬ ∃ q ∈ h', q.Ran) ↔ ((s.slot c h.i).locked = true ∧ ¬ h.Ran))
    (hsame : (s.slot c h.i).locked = true ∧ ¬ h.Ran → call = s.slot c h.i)
    (hway : ∀ d : Fin n, s.Pending c d → h.ComesTo d → ∃ q ∈ h', q.ComesTo d) :
    ((s.setSlot c h.i call).setHandler c h').Inv base := by
  have hhandler := handler_of_irq hirq
  have hirq' : ((s.setSlot c h.i call).cpu c).irq = some ⟨some h, []⟩ := hirq
  have hcpu : ∀ t, t ≠ c → ((s.setSlot c h.i call).setHandler c h').cpu t = s.cpu t :=
    fun t ht => cpu_setCpu_of_ne ht
  have hexec : ∀ t d, t ≠ c → (((s.setSlot c h.i call).setHandler c h').Executed t d ↔
      s.Executed t d) := fun t d ht => by rw [Executed, Executed, hcpu t ht]
  have hslot : ∀ t d : Fin n, ¬ (t = c ∧ (d : ℕ) = h.i) →
      ((s.setSlot c h.i call).setHandler c h').slot t d = s.slot t d := fun t d hne =>
    slot_setSlot_of_ne call fun ht hd => hne ⟨Fin.ext ht, hd⟩
  have hslot' : ((s.setSlot c h.i call).setHandler c h').slot c h.i = call :=
    slot_setSlot_self c h.i call
  -- the handler is at the slot of `d`, or at another one both before and after
  have hpending : ∀ t d : Fin n, ((s.setSlot c h.i call).setHandler c h').Pending t d ↔
      s.Pending t d := by
    intro t d
    by_cases ht : t = c
    · subst ht
      by_cases hd : (d : ℕ) = h.i
      · rw [Pending, Pending, Executed, Executed, handler_setHandler, hhandler, hd, hslot']
        refine Iff.trans (and_congr_right fun _ => not_congr ?_) (hself.trans
          (and_congr_right fun _ => not_congr ?_))
        · refine exists_congr fun q => and_congr_right fun hq => ?_
          exact and_iff_right_of_imp fun hran => (hat q hq hran.1).1
        · simp
      · have hbefore : ¬ s.Executed t d := by
          rintro ⟨q, hq, hi, -⟩
          rw [hhandler] at hq
          obtain rfl := Option.some.inj hq
          exact hd hi.symm
        have hafter : ¬ ((s.setSlot t h.i call).setHandler t h').Executed t d := by
          rintro ⟨q, hq, hi, hran⟩
          rw [handler_setHandler] at hq
          exact hd (hi.symm.trans (hat q hq hran.1).1)
        rw [Pending, Pending, hslot t d fun hc => hd hc.2, and_iff_left hbefore,
          and_iff_left hafter]
    · rw [Pending, Pending, hslot t d fun hc => ht hc.1, hexec t d ht]
  refine ⟨hinv.delivered.congr rfl rfl hpending (fun t d hp => ?_) (fun t d hp hw => ?_),
    fun t q hq hphase => ?_, fun d => ?_⟩
  · by_cases heq : t = c ∧ (d : ℕ) = h.i
    · obtain ⟨rfl, hd⟩ := heq
      rw [hd, hslot']
      refine hsame ⟨?_, fun hran => hp.2 ⟨h, hhandler, hd.symm, hran⟩⟩
      rw [← hd]
      exact hp.1
    · exact hslot t d heq
  · rcases hw with hipi | ⟨q, hq, hcomes⟩ | ⟨f, hf, hft, hpc⟩
    · refine .inl ?_
      by_cases ht : t = c
      · subst ht
        rw [setHandler, cpu_setCpu_self]
        exact hipi
      · rwa [hcpu t ht]
    · refine .inr (.inl ?_)
      by_cases ht : t = c
      · subst ht
        rw [hhandler] at hq
        obtain rfl := Option.some.inj hq
        rw [handler_setHandler]
        exact hway d hp hcomes
      · rw [hcpu t ht]
        exact ⟨q, hq, hcomes⟩
    · refine .inr (.inr ⟨f, ?_, hft, hpc⟩)
      rw [allFrames_setHandler hirq']
      exact hf
  · by_cases ht : t = c
    · subst ht
      rw [handler_setHandler] at hq
      obtain ⟨hi, hlt, hl⟩ := hat q hq hphase
      rw [hi, hslot']
      exact ⟨hlt, hl⟩
    · rw [hcpu t ht] at hq
      obtain ⟨hlt, hl⟩ := hinv.handler t q hq hphase
      refine ⟨hlt, ?_⟩
      rw [← hl]
      exact congrArg SmpCall.locked (hslot t ⟨q.i, hlt⟩ fun hc => ht hc.1)
  · rw [allFrames_setHandler hirq']
    have hcount : (((s.setSlot c h.i call).setHandler c h').cpu d).preemptCount =
        (s.cpu d).preemptCount := by
      by_cases hd : d = c
      · subst hd
        rw [setHandler, cpu_setCpu_self]
        rfl
      · rw [hcpu d hd]
    rw [hcount]
    exact hinv.accounted d

/-- The handler calls the function of a slot. -/
lemma Inv.handlerRun (hinv : s.Inv base) {h : SmpHandler}
    (hirq : (s.cpu c).irq = some ⟨some h, []⟩) (hphase : h.phase = .run) :
    (s.handlerStep c h).Inv base := by
  have hhandler := handler_of_irq hirq
  obtain ⟨hlt, hlocked⟩ := hinv.handler c h hhandler (by rw [hphase]; nofun)
  have hexec : ∀ t d : Fin n, ¬ (t = c ∧ (d : ℕ) = h.i) →
      ((s.setHandler c (some { h with phase := .running })).Executed t d ↔ s.Executed t d) := by
    intro t d hne
    by_cases ht : t = c
    · subst ht
      rw [Executed, Executed, handler_setHandler, hhandler]
      refine iff_of_false ?_ ?_
      · rintro ⟨q, hq, hi, -⟩
        obtain rfl := Option.some.inj hq
        exact hne ⟨rfl, hi.symm⟩
      · rintro ⟨q, hq, hi, -⟩
        obtain rfl := Option.some.inj hq
        exact hne ⟨rfl, hi.symm⟩
    · rw [Executed, Executed, setHandler, cpu_setCpu_of_ne ht]
  have hran : ¬ s.Executed c ⟨h.i, hlt⟩ := by
    rintro ⟨q, hq, -, hran⟩
    rw [hhandler] at hq
    obtain rfl := Option.some.inj hq
    exact hran.2 hphase
  have hran' : (s.setHandler c (some { h with phase := .running })).Executed c ⟨h.i, hlt⟩ :=
    ⟨_, handler_setHandler _, rfl, nofun, nofun⟩
  simp only [handlerStep, hphase]
  refine ⟨⟨fun t d fn data => ?_, fun t d hp => ?_⟩, fun t q hq hq' => ?_, fun d => ?_⟩
  · refine (hinv.delivered.once t d fn data).trans ?_
    change _ = List.count _ (_ :: s.done) +
      (s.setHandler c (some { h with phase := .running })).due t d fn data
    by_cases heq : t = c ∧ (d : ℕ) = h.i
    · obtain ⟨rfl, hd⟩ := heq
      obtain rfl : d = ⟨h.i, hlt⟩ := Fin.ext hd
      have hafter : (s.setHandler t (some { h with phase := .running })).due t ⟨h.i, hlt⟩ fn data =
          0 := if_neg fun hdue => hdue.1.2 hran'
      rw [hafter, Nat.add_zero, due, List.count_cons]
      congr 1
      refine if_congr ?_ rfl rfl
      rw [beq_iff_eq, SmpExec.mk.injEq]
      constructor
      · rintro ⟨-, hfn, hdata⟩
        exact ⟨rfl, rfl, hfn, hdata⟩
      · rintro ⟨-, -, hfn, hdata⟩
        exact ⟨⟨hlocked, hran⟩, hfn, hdata⟩
    · rw [List.count_cons_of_ne, due, due]
      · congr 1
        refine if_congr (and_congr_left' (and_congr_right fun _ => not_congr ?_)) rfl rfl
        exact (hexec t d heq).symm
      · intro hcall
        rw [SmpExec.mk.injEq] at hcall
        exact heq ⟨(Fin.ext hcall.1).symm, hcall.2.1.symm⟩
  · have heq : ¬ (t = c ∧ (d : ℕ) = h.i) := by
      rintro ⟨rfl, hd⟩
      obtain rfl : d = ⟨h.i, hlt⟩ := Fin.ext hd
      exact hp.2 hran'
    rcases hinv.delivered.onTheWay t d ⟨hp.1, fun he => hp.2 ((hexec t d heq).2 he)⟩ with
      hipi | ⟨q, hq, hcomes⟩ | ⟨f, hf, hft, hpc⟩
    · refine .inl ?_
      by_cases ht : t = c
      · subst ht
        rw [setHandler, cpu_setCpu_self]
        exact hipi
      · rwa [setHandler, cpu_setCpu_of_ne ht]
    · refine .inr (.inl ?_)
      by_cases ht : t = c
      · subst ht
        rw [hhandler] at hq
        obtain rfl := Option.some.inj hq
        refine ⟨_, handler_setHandler _, .inl ?_⟩
        exact hcomes.resolve_right fun hi => heq ⟨rfl, hi.1.symm⟩
      · rw [setHandler, cpu_setCpu_of_ne ht]
        exact ⟨q, hq, hcomes⟩
    · refine .inr (.inr ⟨f, ?_, hft, hpc⟩)
      change f ∈ ((s.setHandler c _).cpu d).allFrames
      rw [allFrames_setHandler hirq]
      exact hf
  · change q ∈ ((s.setHandler c _).cpu t).handler at hq
    by_cases ht : t = c
    · subst ht
      rw [handler_setHandler] at hq
      obtain rfl := Option.some.inj hq
      exact ⟨hlt, hlocked⟩
    · rw [setHandler, cpu_setCpu_of_ne ht] at hq
      exact hinv.handler t q hq hq'
  · change Accounted _ ((s.setHandler c _).cpu d).allFrames ((s.setHandler c _).cpu d).preemptCount
    have hcount : ((s.setHandler c (some { h with phase := .running })).cpu d).preemptCount =
        (s.cpu d).preemptCount := by
      by_cases hd : d = c
      · subst hd
        rw [setHandler, cpu_setCpu_self]
      · rw [setHandler, cpu_setCpu_of_ne hd]
    rw [allFrames_setHandler hirq, hcount]
    exact hinv.accounted d

lemma Inv.handlerStep (hinv : s.Inv base) {h : SmpHandler}
    (hirq : (s.cpu c).irq = some ⟨some h, []⟩) : (s.handlerStep c h).Inv base := by
  have hlocked : h.phase ≠ .check → h.i < n ∧ (s.slot c h.i).locked = true :=
    hinv.handler c h (handler_of_irq hirq)
  -- a phase in which the handler stays at a slot whose function it has called
  have hstay : ∀ {call : SmpCall} {phase : SmpPhase}, h.Ran → phase ≠ .check → phase ≠ .run →
      call.locked = true →
      ((s.setSlot c h.i call).setHandler c (some { h with phase })).Inv base := by
    intro call phase hran hcheck hrun hcall
    refine hinv.handler_goes hirq (fun q hq _ => ?_) (iff_of_false (fun hp => hp.2 ?_)
      fun hp => hp.2 hran) (fun hp => absurd hran hp.2) fun d hp hcomes => ?_
    · obtain rfl := Option.some.inj hq
      exact ⟨rfl, (hlocked hran.1).1, hcall⟩
    · exact ⟨_, rfl, hcheck, hrun⟩
    · exact ⟨_, rfl, .inl (hcomes.resolve_right fun hi => hi.2 hran)⟩
  -- the handler is done with a slot without a call
  have hnext : ∀ {call : SmpCall}, call.locked = false → (h.Ran ∨ (s.slot c h.i).locked = false) →
      ((s.setSlot c h.i call).setHandler c (some ⟨h.i + 1, .check⟩)).Inv base := by
    intro call hcall hdone
    have hno : ¬ ((s.slot c h.i).locked = true ∧ ¬ h.Ran) := by
      rintro ⟨hl, hran⟩
      rcases hdone with hdone | hdone
      · exact hran hdone
      · rw [hl] at hdone
        cases hdone
    refine hinv.handler_goes hirq (fun q hq hq' => ?_) (iff_of_false (fun hp => ?_) hno)
      (fun hp => absurd hp hno) fun d hp hcomes => ?_
    · obtain rfl := Option.some.inj hq
      exact absurd rfl hq'
    · rw [hcall] at hp
      cases hp.1
    · have hlt : h.i < d := by
        rcases hcomes with hlt | ⟨hi, hran⟩
        · exact hlt
        · exact absurd ⟨hi ▸ hp.1, hran⟩ hno
      refine ⟨_, rfl, ?_⟩
      rcases Nat.lt_or_ge (h.i + 1) d with hlt' | hge
      · exact .inl hlt'
      · exact .inr ⟨le_antisymm hlt hge, fun hran => hran.1 rfl⟩
  have hself := setSlot_self (s := s) c h.i
  cases hphase : h.phase with
  | check =>
    have hran : ¬ h.Ran := fun hran => hran.1 hphase
    simp only [Smp.handlerStep, hphase]
    split_ifs with hi hl
    · rw [← hself]
      refine hinv.handler_goes hirq (fun q hq => nomatch hq) ?_ (fun _ => rfl)
        fun d hp hcomes => ?_
      · refine and_congr_right fun _ => iff_of_true ?_ hran
        rintro ⟨q, hq, -⟩
        cases hq
      · rcases hcomes with hlt | ⟨hd, -⟩
        · exact absurd (hi.trans_lt (hlt.trans d.isLt)) (lt_irrefl n)
        · exact absurd (hi.trans_lt (hd ▸ d.isLt)) (lt_irrefl n)
    · rw [← hself]
      refine hinv.handler_goes hirq (fun q hq _ => ?_) ?_ (fun _ => rfl) fun d hp hcomes => ?_
      · obtain rfl := Option.some.inj hq
        exact ⟨rfl, not_le.1 hi, hl⟩
      · refine and_congr_right fun _ => iff_of_true ?_ hran
        rintro ⟨q, hq, hq'⟩
        obtain rfl := Option.some.inj hq
        exact hq'.2 rfl
      · exact ⟨_, rfl, hcomes.imp_right fun hi => ⟨hi.1, fun hran => hran.2 rfl⟩⟩
    · rw [Bool.not_eq_true] at hl
      have h := hnext hl (.inr hl)
      rwa [hself] at h
  | run => exact hinv.handlerRun hirq hphase
  | running =>
    have hran : h.Ran := by rw [SmpHandler.Ran, hphase]; exact ⟨nofun, nofun⟩
    have h := @hstay _ .clearFn hran nofun nofun (hlocked hran.1).2
    rw [hself] at h
    simp only [Smp.handlerStep, hphase]
    exact h
  | clearFn =>
    have hran : h.Ran := by rw [SmpHandler.Ran, hphase]; exact ⟨nofun, nofun⟩
    simp only [Smp.handlerStep, hphase]
    exact hstay hran nofun nofun (hlocked hran.1).2
  | clearData =>
    have hran : h.Ran := by rw [SmpHandler.Ran, hphase]; exact ⟨nofun, nofun⟩
    simp only [Smp.handlerStep, hphase]
    exact hstay hran nofun nofun (hlocked hran.1).2
  | unlock =>
    have hran : h.Ran := by rw [SmpHandler.Ran, hphase]; exact ⟨nofun, nofun⟩
    simp only [Smp.handlerStep, hphase]
    exact hnext rfl (.inl hran)

/-! ### Runs -/

lemma Inv.call (h : s.Inv base) (target fn data : ℕ) (wait : Bool) :
    (s.step (.call c target fn data wait)).Inv base := by
  rw [step]
  split_ifs
  · refine h.setCpu SmpCpu.handler_setFrames (fun hi => by rwa [SmpCpu.ipi_setFrames])
      (fun f hf _ => .inl ?_) ?_
    · rw [SmpCpu.allFrames_setFrames, List.cons_append]
      exact List.mem_cons_of_mem _ hf
    · rw [SmpCpu.allFrames_setFrames, SmpCpu.preemptCount_setFrames, List.cons_append, Accounted]
      exact ⟨h.accounted c, rfl⟩
  · exact h

/-- An interrupt handler comes or goes that has no calls. -/
lemma allFrames_irq {q : SmpIrq} (hq : q.frames = []) (hk : k.irq = none) :
    ({ k with irq := some q } : SmpCpu).allFrames = k.allFrames := by
  simp [SmpCpu.allFrames, SmpCpu.frames, SmpCpu.below, hq, hk]

lemma Inv.irqEnter (h : s.Inv base) : (s.step (.irqEnter c)).Inv base := by
  rw [step]
  split_ifs with hmay
  · have hall := allFrames_irq (q := ⟨none, []⟩) rfl hmay.1
    refine h.setCpu ?_ (fun hi => hi) (fun f hf _ => .inl (by rwa [hall])) ?_
    · rw [SmpCpu.handler, SmpCpu.handler, hmay.1]
      rfl
    · rw [hall]
      exact h.accounted c
  · exact h

lemma Inv.irqExit (h : s.Inv base) : (s.step (.irqExit c)).Inv base := by
  rw [step]
  split_ifs with hirq
  · have hall : ({ s.cpu c with irq := none } : SmpCpu).allFrames = (s.cpu c).allFrames := by
      simp [SmpCpu.allFrames, SmpCpu.frames, SmpCpu.below, hirq]
    refine h.setCpu ?_ (fun hi => hi) (fun f hf _ => .inl (by rwa [hall])) ?_
    · rw [SmpCpu.handler, SmpCpu.handler, hirq]
      rfl
    · rw [hall]
      exact h.accounted c
  · exact h

/-- The handler of the interrupt comes to all slots. -/
lemma Inv.ipiEnter (h : s.Inv base) : (s.step (.ipiEnter c)).Inv base := by
  rw [step]
  split_ifs with hmay
  · obtain ⟨-, hnone, -⟩ := hmay
    have hall := allFrames_irq (q := ⟨some ⟨0, .check⟩, []⟩) rfl hnone
    have hbefore : (s.cpu c).handler = none := by
      rw [SmpCpu.handler, hnone]
      rfl
    have hexec : ∀ t d : Fin n, (s.setCpu c { s.cpu c with
        ipi := false, irq := some ⟨some ⟨0, .check⟩, []⟩ }).Executed t d ↔ s.Executed t d := by
      intro t d
      by_cases ht : t = c
      · subst ht
        rw [Executed, Executed, cpu_setCpu_self, hbefore]
        refine iff_of_false ?_ ?_
        · rintro ⟨q, hq, -, hran⟩
          obtain rfl := Option.some.inj hq
          exact hran.1 rfl
        · rintro ⟨q, hq, -⟩
          cases hq
      · rw [Executed, Executed, cpu_setCpu_of_ne ht]
    refine ⟨h.delivered.congr rfl rfl (fun t d => and_congr_right fun _ => not_congr (hexec t d))
      (fun _ _ _ => rfl) (fun t d _ hw => ?_), fun t q hq hphase => ?_, fun d => ?_⟩
    · by_cases ht : t = c
      · subst ht
        refine .inr (.inl ⟨⟨0, .check⟩, ?_, ?_⟩)
        · rw [cpu_setCpu_self]
          rfl
        · rcases Nat.eq_zero_or_pos d with h0 | hpos
          · exact .inr ⟨h0.symm, fun hran => hran.1 rfl⟩
          · exact .inl hpos
      · rcases hw with hipi | hcomes | ⟨f, hf, hft, hpc⟩
        · refine .inl ?_
          rwa [cpu_setCpu_of_ne ht]
        · refine .inr (.inl ?_)
          rwa [cpu_setCpu_of_ne ht]
        · refine .inr (.inr ⟨f, ?_, hft, hpc⟩)
          by_cases hd : d = c
          · subst hd
            rw [cpu_setCpu_self]
            exact hall.symm ▸ hf
          · rwa [cpu_setCpu_of_ne hd]
    · by_cases ht : t = c
      · subst ht
        rw [cpu_setCpu_self] at hq
        obtain rfl := Option.some.inj hq
        exact absurd rfl hphase
      · rw [cpu_setCpu_of_ne ht] at hq
        exact h.handler t q hq hphase
    · by_cases hd : d = c
      · subst hd
        rw [cpu_setCpu_self]
        exact hall.symm ▸ h.accounted d
      · rw [cpu_setCpu_of_ne hd]
        exact h.accounted d
  · exact h

lemma Inv.step (h : s.Inv base) (e : SmpEvent n) (hs : s.Undisturbed e) : (s.step e).Inv base := by
  cases e with
  | call c target fn data wait => exact h.call target fn data wait
  | callStep c =>
    rw [Smp.step]
    split
    · exact h
    · next f fs hf => exact h.frameStep hf hs
  | irqEnter c => exact h.irqEnter
  | irqExit c => exact h.irqExit
  | ipiEnter c => exact h.ipiEnter
  | handlerStep c =>
    rw [Smp.step]
    split
    · next q hirq => exact h.handlerStep hirq
    · exact h

/-- A call of a cpu returns with the count that it found. -/
lemma Inv.stepOk (h : s.Inv base) (e : SmpEvent n) (hs : s.Undisturbed e) : s.StepOk e where
  delivered := (h.step e hs).delivered
  preempt c f he hret := by
    subst he
    obtain ⟨hhead, hpc⟩ := Option.filter_eq_some_iff.1 hret
    rw [decide_eq_true_eq] at hpc
    obtain ⟨fs, hf⟩ := List.head?_eq_some_iff.1 hhead
    have hcond := hs f hhead
    rw [FrameUndisturbed] at hcond
    have hend : f.pc = .enable := by
      refine hpc.resolve_right fun ⟨hstart, hle⟩ => ?_
      rw [hstart] at hcond
      exact absurd hle (not_le.2 hcond)
    have hacc := h.accounted c
    rw [SmpCpu.allFrames, hf, List.cons_append, Accounted, hend, if_neg nofun] at hacc
    simp only [Smp.step, hf, Smp.frameStep, hend, ret, setPreemptCount, cpu_setCpu_self,
      SmpCpu.preemptCount_setFrames, hacc.2]
    rfl

end Smp

/-- Every call that locks its slot is executed once on its target, or is still to be, and every call
returns with the `preempt_count` of its entry, as long as no call of an interrupt handler uses a
slot between the wait and the lock of another call. -/
theorem smp_calls_delivered (preemptCount : Fin n → ℕ) (es : List (SmpEvent n))
    (hes : Along Smp.step Smp.Undisturbed (Smp.init preemptCount) es) :
    Along Smp.step Smp.StepOk (Smp.init preemptCount) es :=
  along_induction (I := Smp.Inv preemptCount) (fun _ e h hs => h.step e hs)
    (fun _ e h hs => h.stepOk e hs) (Smp.init_inv preemptCount) hes

/-- A call of the second cpu, up to its execution -/
theorem smp_calls_delivered_once :
    let es : List (SmpEvent 2) := [.call 0 1 1 7 true, .callStep 0, .callStep 0, .callStep 0,
      .callStep 0, .callStep 0, .callStep 0, .ipiEnter 1, .handlerStep 1, .handlerStep 1]
    (exec Smp.step (Smp.init fun _ => 0) es).done = [⟨1, 0, 1, 7⟩] ∧
      Along Smp.step Smp.StepOk (Smp.init fun _ => 0) es := by
  intro es
  exact ⟨by decide +kernel, smp_calls_delivered (fun _ => 0) es (by decide +kernel)⟩

/-- An interrupt comes after the wait of a call, and its handler makes a call of the same cpu. The
first call stores its function over that of the second one, which is never executed. -/
theorem smp_call_lost :
    let es : List (SmpEvent 2) := [.call 0 1 1 0 false, .callStep 0, .callStep 0, .irqEnter 0,
      .call 0 1 2 0 false, .callStep 0, .callStep 0, .callStep 0, .callStep 0, .callStep 0,
      .callStep 0, .callStep 0, .irqExit 0]
    let s := exec Smp.step (Smp.init fun _ => 0) (es ++ [.callStep 0])
    s.called = [⟨1, 0, 2, 0⟩] ∧ s.done = [] ∧ s.slot 1 0 = ⟨1, 0, true⟩ ∧
      ¬ Along Smp.step Smp.StepOk (Smp.init fun _ => 0) (es ++ [.callStep 0]) := by
  intro es s
  have hcalled : s.called = [⟨1, 0, 2, 0⟩] := by decide +kernel
  have hdone : s.done = [] := by decide +kernel
  have hslot : s.slot 1 0 = ⟨1, 0, true⟩ := by decide +kernel
  refine ⟨hcalled, hdone, hslot, fun h => ?_⟩
  have hdelivered : s.Delivered := (along_append.1 h).2.1.delivered
  have honce := hdelivered.once 1 0 2 0
  have hdue : s.due 1 0 2 0 = 0 := by
    refine if_neg fun hd => ?_
    have hfn : (s.slot 1 0).fn = 2 := hd.2.1
    rw [hslot] at hfn
    cases hfn
  rw [hcalled, hdone, hdue] at honce
  revert honce
  decide

end Minos.Core
