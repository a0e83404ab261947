import Mathlib
import Minos.Lib.Deque
import Minos.Lib.Run
import Minos.Lib.WordMem

/-!
# The ring of a message queue

`struct queue` keeps four pointers into an array of message pointers. The functions here work on
the pointers, with the memory of the array and the trace of its stores, and each of them does what
the ring buffer does that the pointers stand for.
-/

namespace Minos.Core

open Run WordMem

/-- `struct queue` -/
structure PtrQueue where
  qStart : ℕ
  qEnd : ℕ
  qIn : ℕ
  qOut : ℕ
  qSize : ℤ
  qCnt : ℤ
deriving DecidableEq, Repr

/-- The answers of `zalloc`: to `struct queue`, to the array and to the event. -/
structure QueueAlloc where
  q : Option ℕ
  array : Option ℕ
  event : Option ℕ
deriving DecidableEq, Repr

/-- A queue with memory. -/
structure QueueMem where
  q : PtrQueue
  mem : Mem

namespace QueueMem

/-- `sizeof(void *)` -/
def SLOT : ℕ := 8

/-- `zalloc` clears what it gives. -/
def cleared (m : Mem) (base bytes : ℕ) : Mem :=
  { m with word := fun a => if base ≤ a ∧ a < base + bytes then 0 else m.word a }

/-- `queue_create`, with what it has freed when it fails -/
def queueCreate (size : ℕ) (a : QueueAlloc) (m : Mem) : Option QueueMem × List ℕ :=
  match a.q with
  | none => (none, [])
  | some q =>
    match a.array with
    | none => (none, [q])
    | some start =>
      match a.event with
      | none => (none, [start, q])
      | some _ => (some ⟨⟨start, start + SLOT * size, start, start, size, 0⟩,
          cleared m start (SLOT * size)⟩, [])

def queuePop (s : QueueMem) : ℕ × QueueMem :=
  let pmsg := s.mem.word s.q.qOut
  let qOut := s.q.qOut + SLOT
  (pmsg, { s with q :=
    { s.q with qOut := if qOut = s.q.qEnd then s.q.qStart else qOut, qCnt := s.q.qCnt - 1 } })

def queuePush (s : QueueMem) (pmsg : ℕ) : QueueMem :=
  let qIn := s.q.qIn + SLOT
  { q := { s.q with qIn := if qIn = s.q.qEnd then s.q.qStart else qIn, qCnt := s.q.qCnt + 1 }
    mem := s.mem.store s.q.qIn pmsg }

def queuePushFront (s : QueueMem) (pmsg : ℕ) : QueueMem :=
  let qOut := (if s.q.qOut = s.q.qStart then s.q.qEnd else s.q.qOut) - SLOT
  { q := { s.q with qOut := qOut, qCnt := s.q.qCnt + 1 }
    mem := s.mem.store qOut pmsg }

def queueFlush (s : QueueMem) : QueueMem :=
  { s with q := { s.q with qIn := s.q.qStart, qOut := s.q.qStart, qCnt := 0 } }

end QueueMem

inductive QueueOp where
  | push (pmsg : ℕ)
  | pushFront (pmsg : ℕ)
  | pop
  | flush
deriving DecidableEq, Repr

/-- A queue and the messages that `queue_pop` has returned, the last one first. -/
structure QueueRun where
  s : QueueMem
  popped : List ℕ

namespace QueueRun

/-- A queue that is new. -/
def start (s : QueueMem) : QueueRun := ⟨s, []⟩

def step (r : QueueRun) : QueueOp → QueueRun
  | .push pmsg => { r with s := r.s.queuePush pmsg }
  | .pushFront pmsg => { r with s := r.s.queuePushFront pmsg }
  | .pop => ⟨r.s.queuePop.2, r.s.queuePop.1 :: r.popped⟩
  | .flush => { r with s := r.s.queueFlush }

/-- What `queue_accept`, `queue_pend` and the posters check. -/
def Checked (r : QueueRun) : QueueOp → Prop
  | .push _ => r.s.q.qCnt < r.s.q.qSize
  | .pushFront _ => r.s.q.qCnt < r.s.q.qSize
  | .pop => 0 < r.s.q.qCnt
  | .flush => True

instance (r : QueueRun) : (op : QueueOp) → Decidable (r.Checked op)
  | .push _ => inferInstanceAs (Decidable (_ < _))
  | .pushFront _ => inferInstanceAs (Decidable (_ < _))
  | .pop => inferInstanceAs (Decidable (_ < _))
  | .flush => inferInstanceAs (Decidable True)

end QueueRun

/-- What a queue is for: a deque of at most `n` messages, with those that were taken out. -/
structure DequeRun (n : ℕ) where
  deque : Deque ℕ n
  popped : List ℕ

namespace DequeRun

variable {n : ℕ}

def start : DequeRun n := ⟨.empty, []⟩

def step (d : DequeRun n) : QueueOp → DequeRun n
  | .push pmsg => { d with deque := d.deque.pushBack pmsg }
  | .pushFront pmsg => { d with deque := d.deque.pushFront pmsg }
  | .pop => ⟨d.deque.popFront.2, d.deque.popFront.1.toList ++ d.popped⟩
  | .flush => { d with deque := .empty }

end DequeRun

/-! ### The ring buffer of the pointers -/

namespace QueueMem

/-- The pointers and the memory are those of the ring buffer `r`. -/
structure Points (s : QueueMem) (r : RingBuffer ℕ) : Prop where
  qEnd : s.q.qEnd = s.q.qStart + SLOT * r.size
  qIn : s.q.qIn = s.q.qStart + SLOT * r.inp
  qOut : s.q.qOut = s.q.qStart + SLOT * r.out
  qSize : s.q.qSize = r.size
  qCnt : s.q.qCnt = r.cnt
  slot : ∀ i < r.size, s.mem.word (s.q.qStart + SLOT * i) = r.buf i

/-- The messages from `q_out` on. -/
def messages (s : QueueMem) : List ℕ :=
  (List.range s.q.qCnt.toNat).map fun i =>
    s.mem.word (s.q.qStart + SLOT * (((s.q.qOut - s.q.qStart) / SLOT + i) % s.q.qSize.toNat))

/-- A store of one message into the array. -/
def InArray (q : PtrQueue) (st : Store) : Prop :=
  ∃ a v, st = .word a v ∧ q.qStart ≤ a ∧ a + SLOT ≤ q.qEnd

variable {s : QueueMem} {r : RingBuffer ℕ} {pmsg : ℕ}

/-- A pointer one slot on, wrapped at the end. -/
lemma wrap_next {start size i : ℕ} :
    (if start + SLOT * i + SLOT = start + SLOT * size then start else start + SLOT * i + SLOT) =
      start + SLOT * RingBuffer.next size i := by
  have hiff : start + SLOT * i + SLOT = start + SLOT * size ↔ i + 1 = size := by
    simp only [SLOT]
    omega
  rw [RingBuffer.next]
  by_cases h : i + 1 = size
  · rw [if_pos (hiff.2 h), if_pos h, Nat.mul_zero, Nat.add_zero]
  · rw [if_neg fun h' => h (hiff.1 h'), if_neg h, Nat.mul_succ, Nat.add_assoc]

/-- A pointer one slot back, wrapped at the start. -/
lemma wrap_prev {start size i : ℕ} :
    (if start + SLOT * i = start then start + SLOT * size else start + SLOT * i) - SLOT =
      start + SLOT * (if i = 0 then size else i) - SLOT := by
  have hiff : start + SLOT * i = start ↔ i = 0 := by
    simp only [SLOT]
    omega
  by_cases h : i = 0
  · rw [if_pos (hiff.2 h), if_pos h]
  · rw [if_neg fun h' => h (hiff.1 h'), if_neg h]

lemma wrap_prev_eq {start size i : ℕ} (hi : i < size) :
    (if start + SLOT * i = start then start + SLOT * size else start + SLOT * i) - SLOT =
      start + SLOT * RingBuffer.prev size i := by
  rw [wrap_prev, RingBuffer.prev]
  split_ifs with h
  · simp only [SLOT]
    omega
  · simp only [SLOT]
    omega

/-- A store into one slot is an update of the ring buffer there. -/
lemma slot_store {m : Mem} {start i size : ℕ} {buf : ℕ → ℕ}
    (h : ∀ j < size, m.word (start + SLOT * j) = buf j) :
    ∀ j < size, (m.store (start + SLOT * i) pmsg).word (start + SLOT * j) =
      Function.update buf i pmsg j := by
  intro j hj
  by_cases hji : j = i
  · rw [hji, Mem.store_word_self, Function.update_self]
  · have hne : start + SLOT * j ≠ start + SLOT * i := by
      simp only [SLOT]
      omega
    rw [Mem.store_word_ne _ _ hne, Function.update_of_ne hji, h j hj]

lemma Points.push (h : s.Points r) : (s.queuePush pmsg).Points (r.push pmsg) where
  qEnd := h.qEnd
  qIn := by
    show (if s.q.qIn + SLOT = s.q.qEnd then s.q.qStart else s.q.qIn + SLOT) = _
    rw [h.qIn, h.qEnd, wrap_next]
    rfl
  qOut := h.qOut
  qSize := h.qSize
  qCnt := by
    show s.q.qCnt + 1 = ((r.cnt + 1 : ℕ) : ℤ)
    rw [h.qCnt, Nat.cast_succ]
  slot := by
    show ∀ i < r.size, (s.mem.store s.q.qIn pmsg).word _ = _
    rw [h.qIn]
    exact slot_store h.slot

lemma Points.pushFront (h : s.Points r) (hr : r.out < r.size) :
    (s.queuePushFront pmsg).Points (r.pushFront pmsg) where
  qEnd := h.qEnd
  qIn := h.qIn
  qOut := by
    show (if s.q.qOut = s.q.qStart then s.q.qEnd else s.q.qOut) - SLOT = _
    rw [h.qOut, h.qEnd, wrap_prev_eq hr]
    rfl
  qSize := h.qSize
  qCnt := by
    show s.q.qCnt + 1 = ((r.cnt + 1 : ℕ) : ℤ)
    rw [h.qCnt, Nat.cast_succ]
  slot := by
    show ∀ i < r.size, (s.mem.store
      ((if s.q.qOut = s.q.qStart then s.q.qEnd else s.q.qOut) - SLOT) pmsg).word _ = _
    rw [h.qOut, h.qEnd, wrap_prev_eq hr]
    exact slot_store h.slot

lemma Points.pop (h : s.Points r) (hr : r.out < r.size) (hcnt : 0 < r.cnt) :
    s.queuePop.1 = r.pop.1 ∧ s.queuePop.2.Points r.pop.2 := by
  refine ⟨?_, h.qEnd, h.qIn, ?_, h.qSize, ?_, h.slot⟩
  · show s.mem.word s.q.qOut = r.buf r.out
    rw [h.qOut, h.slot _ hr]
  · show (if s.q.qOut + SLOT = s.q.qEnd then s.q.qStart else s.q.qOut + SLOT) = _
    rw [h.qOut, h.qEnd, wrap_next]
    rfl
  · show s.q.qCnt - 1 = ((r.cnt - 1 : ℕ) : ℤ)
    rw [h.qCnt]
    omega

lemma Points.flush (h : s.Points r) : s.queueFlush.Points r.flush :=
  ⟨h.qEnd, rfl, rfl, h.qSize, rfl, h.slot⟩

lemma Points.messages (h : s.Points r) (hpos : 0 < r.size) : s.messages = r.contents := by
  have hout : (s.q.qOut - s.q.qStart) / SLOT = r.out := by
    rw [h.qOut, Nat.add_sub_cancel_left, Nat.mul_div_cancel_left _ (by decide)]
  rw [QueueMem.messages, hout, h.qCnt, h.qSize, Int.toNat_natCast, Int.toNat_natCast]
  exact List.map_congr_left fun i _ => h.slot _ (Nat.mod_lt _ hpos)

/-- The slots of a ring buffer are in the array. -/
lemma Points.inArray (h : s.Points r) {i : ℕ} (hi : i < r.size) (v : ℕ) :
    InArray s.q (.word (s.q.qStart + SLOT * i) v) := by
  refine ⟨_, _, rfl, Nat.le_add_right _ _, ?_⟩
  rw [h.qEnd]
  simp only [SLOT]
  omega

/-- A pointer into the array. -/
lemma Points.in_range (h : s.Points r) {i : ℕ} (hi : i < r.size) :
    s.q.qStart ≤ s.q.qStart + SLOT * i ∧ s.q.qStart + SLOT * i < s.q.qEnd := by
  rw [h.qEnd]
  simp only [SLOT]
  omega

/-- All stores since `m` are stores of messages into the array. -/
def StoresInArray (m : Mem) (s : QueueMem) : Prop :=
  ∃ l, s.mem.trace = l ++ m.trace ∧ ∀ st ∈ l, InArray s.q st

lemma StoresInArray.store {m mem : Mem} {q q' : PtrQueue} {a v : ℕ}
    (h : StoresInArray m ⟨q, mem⟩) (hstart : q'.qStart = q.qStart) (hend : q'.qEnd = q.qEnd)
    (ha : InArray q (.word a v)) : StoresInArray m ⟨q', mem.store a v⟩ := by
  obtain ⟨l, hl, hin⟩ := h
  have hq : ∀ st, InArray q st → InArray q' st := by
    intro st
    simp only [InArray, hstart, hend]
    exact id
  refine ⟨.word a v :: l, congrArg (List.cons _) hl, ?_⟩
  intro st hst
  rcases List.mem_cons.1 hst with rfl | hst
  · exact hq _ ha
  · exact hq st (hin st hst)

end QueueMem

/-! ### Runs -/

namespace QueueRun

open QueueMem

variable {n : ℕ} {m : Mem} {r : QueueRun} {d : DequeRun n} {op : QueueOp}

/-- The queue holds the deque, and has stored only into its array since `m`. -/
structure Refines (m : Mem) (r : QueueRun) (d : DequeRun n) : Prop where
  ring : ∃ b, r.s.Points b ∧ b.Represents d.deque
  popped : r.popped = d.popped
  stores : r.s.StoresInArray m

lemma Refines.qCnt (h : r.Refines m d) : r.s.q.qCnt = d.deque.items.length := by
  obtain ⟨b, hb, hd⟩ := h.ring
  rw [hb.qCnt, hd.cnt]

/-- One operation keeps the refinement. -/
lemma Refines.step (hn : 0 < n) (h : r.Refines m d) (hc : r.Checked op) :
    (r.step op).Refines m (d.step op) := by
  obtain ⟨b, hb, hd⟩ := h.ring
  have hpos : 0 < b.size := by
    rw [hd.size]
    exact hn
  have hout := hd.wellFormed.out_lt hpos
  have hroom : r.s.q.qCnt < r.s.q.qSize → b.cnt < b.size := by
    rw [hb.qCnt, hb.qSize]
    exact Nat.cast_lt.1
  cases op with
  | push pmsg =>
    refine ⟨⟨_, hb.push, hd.push (hroom hc)⟩, h.popped, h.stores.store rfl rfl ?_⟩
    rw [hb.qIn]
    exact hb.inArray (hd.wellFormed.inp_lt hpos) pmsg
  | pushFront pmsg =>
    refine ⟨⟨_, hb.pushFront hout, hd.pushFront (hroom hc)⟩, h.popped, h.stores.store rfl rfl ?_⟩
    rw [hb.qOut, hb.qEnd, wrap_prev_eq hout]
    exact hb.inArray (RingBuffer.prev_lt hout) pmsg
  | pop =>
    have hcnt : 0 < b.cnt := by
      have hc : 0 < r.s.q.qCnt := hc
      rw [hb.qCnt] at hc
      exact Nat.cast_pos.1 hc
    obtain ⟨hmsg, hpts⟩ := hb.pop hout hcnt
    obtain ⟨hfront, hrep⟩ := hd.pop hcnt
    refine ⟨⟨_, hpts, hrep⟩, ?_, h.stores⟩
    show r.s.queuePop.1 :: r.popped = d.deque.popFront.1.toList ++ d.popped
    rw [hmsg, hfront, h.popped]
    rfl
  | flush => exact ⟨⟨_, hb.flush, hd.flush⟩, h.popped, h.stores⟩

/-- A queue from `queue_create` is an empty deque. -/
lemma refines_create {a : QueueAlloc} {s : QueueMem} (h : (queueCreate n a m).1 = some s) :
    (start s).Refines m (DequeRun.start : DequeRun n) := by
  unfold queueCreate at h
  cases hq : a.q with
  | none => simp [hq] at h
  | some q =>
    cases harray : a.array with
    | none => simp [hq, harray] at h
    | some base =>
      cases hevent : a.event with
      | none => simp [hq, harray, hevent] at h
      | some event =>
        simp only [hq, harray, hevent, Option.some.injEq] at h
        subst h
        refine ⟨⟨.empty 0 n, ⟨rfl, rfl, rfl, rfl, rfl, ?_⟩, .empty 0⟩, rfl, [], rfl, by simp⟩
        intro i hi
        have hi : i < n := hi
        refine if_pos (show base ≤ base + SLOT * i ∧ base + SLOT * i < base + SLOT * n from ?_)
        simp only [SLOT]
        omega

/-- **The ring of a message queue is a bounded deque.** After any sequence of operations that keep
to the checks of their callers, the counter is the number of messages of the deque, the messages in
the array and those that came out are those of the deque in its order, both pointers are in the
array, and nothing was stored outside it. -/
theorem queue_refines_deque {size : ℕ} (hsize : 0 < size) {a : QueueAlloc} {m : Mem} {s₀ : QueueMem}
    (hcreate : (queueCreate size a m).1 = some s₀) {ops : List QueueOp}
    (hops : Along step Checked (start s₀) ops) :
    let r := exec step (start s₀) ops
    let d := exec DequeRun.step (DequeRun.start : DequeRun size) ops
    r.s.q.qCnt = d.deque.items.length ∧ d.deque.items.length ≤ size ∧
      r.s.messages = d.deque.items ∧ r.popped = d.popped ∧
      (r.s.q.qStart ≤ r.s.q.qIn ∧ r.s.q.qIn < r.s.q.qEnd) ∧
      (r.s.q.qStart ≤ r.s.q.qOut ∧ r.s.q.qOut < r.s.q.qEnd) ∧ r.s.StoresInArray m := by
  have hstep : ∀ (r : QueueRun) (d : DequeRun size) op, r.Refines m d → r.Checked op →
      (r.step op).Refines m (d.step op) := fun _ _ _ h hc => h.step hsize hc
  have href := exec_simulation hstep (refines_create hcreate) hops
  intro r d
  obtain ⟨b, hb, hd⟩ := href.ring
  have hpos : 0 < b.size := by
    rw [hd.size]
    exact hsize
  refine ⟨href.qCnt, d.deque.length_le, ?_, href.popped, ?_, ?_, href.stores⟩
  · rw [hb.messages hpos, hd.contents]
  · have := hb.in_range (hd.wellFormed.inp_lt hpos)
    rwa [← hb.qIn] at this
  · have := hb.in_range (hd.wellFormed.out_lt hpos)
    rwa [← hb.qOut] at this

/-- Two slots: the message that goes in at the front comes out first. -/
theorem queue_refines_deque_two :
    let m : Mem := ⟨fun _ => 0, []⟩
    let ops := [QueueOp.push 5, .pushFront 7, .pop, .push 9, .pop]
    ∃ s₀, (queueCreate 2 ⟨some 0x1000, some 0x2000, some 0x3000⟩ m).1 = some s₀ ∧
      (exec step (start s₀) ops).popped = [5, 7] ∧
      (exec step (start s₀) ops).s.messages = [9] ∧
      (exec step (start s₀) ops).s.StoresInArray m := by
  intro m ops
  refine ⟨⟨⟨0x2000, 0x2010, 0x2000, 0x2000, 2, 0⟩, cleared m 0x2000 16⟩, rfl, ?_⟩
  obtain ⟨-, -, hitems, hpopped, -, -, hstores⟩ :=
    @queue_refines_deque 2 (by decide) ⟨some 0x1000, some 0x2000, some 0x3000⟩ m _ rfl ops
      (by decide)
  exact ⟨hpopped.trans (by decide), hitems.trans (by decide), hstores⟩

end QueueRun

end Minos.Core
