import Mathlib
import Minos.Lib.RingBuffer

/-!
# Bounded deques

A deque of at most `n` values is a list that carries its bound. A ring buffer represents a deque
when its contents are the values of the deque, and its operations are those of the deque.
-/

/-- A list of at most `n` values that is used from both ends. -/
structure Deque (α : Type*) (n : ℕ) where
  items : List α
  length_le : items.length ≤ n

namespace Deque

variable {α : Type*} {n : ℕ}

def empty : Deque α n := ⟨[], Nat.zero_le n⟩

/-- `x` goes in at the back, if there is room. -/
def pushBack (d : Deque α n) (x : α) : Deque α n :=
  if h : d.items.length < n then ⟨d.items ++ [x], by simpa using h⟩ else d

/-- `x` goes in at the front, if there is room. -/
def pushFront (d : Deque α n) (x : α) : Deque α n :=
  if h : d.items.length < n then ⟨x :: d.items, by simpa using h⟩ else d

/-- The value at the front comes out. -/
def popFront (d : Deque α n) : Option α × Deque α n :=
  (d.items.head?, ⟨d.items.tail, d.items.tail_sublist.length_le.trans d.length_le⟩)

lemma items_pushBack {d : Deque α n} (h : d.items.length < n) (x : α) :
    (d.pushBack x).items = d.items ++ [x] := by
  rw [pushBack, dif_pos h]

lemma items_pushFront {d : Deque α n} (h : d.items.length < n) (x : α) :
    (d.pushFront x).items = x :: d.items := by
  rw [pushFront, dif_pos h]

end Deque

namespace RingBuffer

variable {α : Type*} {n : ℕ} {r : RingBuffer α} {d : Deque α n} {x : α}

/-- The ring buffer holds the values of the deque. -/
structure Represents (r : RingBuffer α) (d : Deque α n) : Prop where
  wellFormed : r.WellFormed
  size : r.size = n
  contents : r.contents = d.items

namespace Represents

lemma cnt (h : r.Represents d) : r.cnt = d.items.length := by
  rw [← h.contents, length_contents]

lemma empty (a : α) : (RingBuffer.empty a n).Represents (Deque.empty : Deque α n) :=
  ⟨empty_wellFormed a n, rfl, rfl⟩

lemma flush (h : r.Represents d) : r.flush.Represents (Deque.empty : Deque α n) :=
  ⟨flush_wellFormed, h.size, rfl⟩

lemma push (h : r.Represents d) (hlt : r.cnt < r.size) : (r.push x).Represents (d.pushBack x) := by
  refine ⟨h.wellFormed.push hlt, h.size, ?_⟩
  rw [contents_push h.wellFormed hlt, h.contents, Deque.items_pushBack]
  rwa [← h.cnt, ← h.size]

lemma pushFront (h : r.Represents d) (hlt : r.cnt < r.size) :
    (r.pushFront x).Represents (d.pushFront x) := by
  refine ⟨h.wellFormed.pushFront hlt, h.size, ?_⟩
  rw [contents_pushFront h.wellFormed hlt, h.contents, Deque.items_pushFront]
  rwa [← h.cnt, ← h.size]

/-- The same value comes out, and what is left is the same. -/
lemma pop (h : r.Represents d) (hcnt : 0 < r.cnt) :
    d.popFront.1 = some r.pop.1 ∧ r.pop.2.Represents d.popFront.2 := by
  have hitems : d.items = r.pop.1 :: r.pop.2.contents := by
    rw [← h.contents, contents_pop h.wellFormed hcnt]
  refine ⟨?_, h.wellFormed.pop hcnt, h.size, ?_⟩
  · show d.items.head? = _
    rw [hitems, List.head?_cons]
  · show _ = d.items.tail
    rw [hitems, List.tail_cons]

end Represents

end RingBuffer
