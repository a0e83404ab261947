import Mathlib

/-!
# Ring buffers

A ring buffer is an array with the place where the next value goes in, the place where the next one
comes out, and the number of values between them. Its contents are a list, and the operations are
those of a queue with two ends.
-/

/-- A ring buffer of `size` places. -/
structure RingBuffer (α : Type*) where
  buf : ℕ → α
  size : ℕ
  inp : ℕ
  out : ℕ
  cnt : ℕ

namespace RingBuffer

variable {α : Type*}

/-- The place after `i`. -/
def next (size i : ℕ) : ℕ := if i + 1 = size then 0 else i + 1

/-- The place before `i`. -/
def prev (size i : ℕ) : ℕ := (if i = 0 then size else i) - 1

def empty (a : α) (size : ℕ) : RingBuffer α := ⟨fun _ => a, size, 0, 0, 0⟩

def push (r : RingBuffer α) (x : α) : RingBuffer α :=
  { r with buf := Function.update r.buf r.inp x, inp := next r.size r.inp, cnt := r.cnt + 1 }

def pushFront (r : RingBuffer α) (x : α) : RingBuffer α :=
  { r with
    buf := Function.update r.buf (prev r.size r.out) x
    out := prev r.size r.out
    cnt := r.cnt + 1 }

def pop (r : RingBuffer α) : α × RingBuffer α :=
  (r.buf r.out, { r with out := next r.size r.out, cnt := r.cnt - 1 })

/-- Forget the values. -/
def flush (r : RingBuffer α) : RingBuffer α := { r with inp := 0, out := 0, cnt := 0 }

/-- The values from the first to come out to the last that went in. -/
def contents (r : RingBuffer α) : List α :=
  (List.range r.cnt).map fun i => r.buf ((r.out + i) % r.size)

/-- The two places are as far apart as there are values. -/
structure WellFormed (r : RingBuffer α) : Prop where
  cnt_le : r.cnt ≤ r.size
  out_lt : 0 < r.size → r.out < r.size
  inp_eq : 0 < r.size → r.inp = (r.out + r.cnt) % r.size

variable {r : RingBuffer α} {x : α}

lemma next_eq {size i : ℕ} (h : i < size) : next size i = (i + 1) % size := by
  rw [next]
  split_ifs with hi
  · rw [hi, Nat.mod_self]
  · rw [Nat.mod_eq_of_lt (by omega)]

lemma prev_eq {size i : ℕ} (h : i < size) : prev size i = (i + (size - 1)) % size := by
  rw [prev]
  split_ifs with hi
  · rw [hi, Nat.zero_add, Nat.mod_eq_of_lt (by omega)]
  · rw [show i + (size - 1) = i - 1 + size by omega, Nat.add_mod_right,
      Nat.mod_eq_of_lt (by omega)]

lemma prev_lt {size i : ℕ} (h : i < size) : prev size i < size := by
  rw [prev_eq h]
  exact Nat.mod_lt _ (by omega)

/-- The place before `i`, and then on. -/
lemma prev_add {size i j : ℕ} (h : i < size) : (prev size i + (j + 1)) % size = (i + j) % size := by
  rw [prev_eq h, Nat.mod_add_mod, show i + (size - 1) + (j + 1) = i + j + size by omega,
    Nat.add_mod_right]

lemma next_add {size i j : ℕ} (h : i < size) : (next size i + j) % size = (i + (j + 1)) % size := by
  rw [next_eq h, Nat.mod_add_mod, show i + 1 + j = i + (j + 1) by omega]

/-- Two different values are in different places. -/
lemma add_mod_ne {size i j k : ℕ} (hj : j < size) (hk : k < size) (hjk : j ≠ k) :
    (i + j) % size ≠ (i + k) % size := by
  intro h
  have hmod : j % size = k % size := Nat.ModEq.add_left_cancel' i h
  rw [Nat.mod_eq_of_lt hj, Nat.mod_eq_of_lt hk] at hmod
  exact hjk hmod

lemma empty_wellFormed (a : α) (size : ℕ) : (empty a size).WellFormed :=
  ⟨Nat.zero_le _, fun h => h, fun h => (Nat.mod_eq_of_lt h).symm⟩

@[simp] lemma contents_empty (a : α) (size : ℕ) : (empty a size).contents = [] := rfl

lemma flush_wellFormed : r.flush.WellFormed :=
  ⟨Nat.zero_le _, fun h => h, fun h => (Nat.mod_eq_of_lt h).symm⟩

@[simp] lemma contents_flush : r.flush.contents = [] := rfl

@[simp] lemma length_contents : r.contents.length = r.cnt := by simp [contents]

lemma WellFormed.inp_lt (h : r.WellFormed) (hpos : 0 < r.size) : r.inp < r.size := by
  rw [h.inp_eq hpos]
  exact Nat.mod_lt _ hpos

lemma WellFormed.push (h : r.WellFormed) (hlt : r.cnt < r.size) : (r.push x).WellFormed := by
  have hpos : 0 < r.size := by omega
  refine ⟨hlt, h.out_lt, fun _ => ?_⟩
  have hinp := h.inp_lt hpos
  show next r.size r.inp = (r.out + (r.cnt + 1)) % r.size
  rw [next_eq hinp, h.inp_eq hpos, Nat.mod_add_mod, Nat.add_assoc]

lemma contents_push (h : r.WellFormed) (hlt : r.cnt < r.size) :
    (r.push x).contents = r.contents ++ [x] := by
  have hpos : 0 < r.size := by omega
  show (List.range (r.cnt + 1)).map _ = _
  rw [List.range_succ, List.map_append, List.map_singleton]
  congr 1
  · refine List.map_congr_left fun i hi => ?_
    have hi := List.mem_range.1 hi
    refine Function.update_of_ne ?_ _ _
    rw [h.inp_eq hpos]
    exact add_mod_ne (show i < r.size by omega) hlt (by omega)
  · show [Function.update r.buf r.inp x ((r.out + r.cnt) % r.size)] = [x]
    rw [h.inp_eq hpos, Function.update_self]

lemma WellFormed.pushFront (h : r.WellFormed) (hlt : r.cnt < r.size) :
    (r.pushFront x).WellFormed := by
  have hpos : 0 < r.size := by omega
  have hout := h.out_lt hpos
  refine ⟨hlt, fun _ => prev_lt hout, fun _ => ?_⟩
  show r.inp = (prev r.size r.out + (r.cnt + 1)) % r.size
  rw [prev_add hout, h.inp_eq hpos]

lemma contents_pushFront (h : r.WellFormed) (hlt : r.cnt < r.size) :
    (r.pushFront x).contents = x :: r.contents := by
  have hpos : 0 < r.size := by omega
  have hout := h.out_lt hpos
  have hmod : prev r.size r.out % r.size = prev r.size r.out := Nat.mod_eq_of_lt (prev_lt hout)
  show (List.range (r.cnt + 1)).map _ = _
  rw [List.range_succ_eq_map, List.map_cons, List.map_map]
  congr 1
  · show Function.update r.buf (prev r.size r.out) x ((prev r.size r.out + 0) % r.size) = x
    rw [Nat.add_zero, hmod, Function.update_self]
  · refine List.map_congr_left fun i hi => ?_
    have hi := List.mem_range.1 hi
    show Function.update r.buf (prev r.size r.out) x ((prev r.size r.out + (i + 1)) % r.size) = _
    have hne : (prev r.size r.out + (i + 1)) % r.size ≠ prev r.size r.out := by
      nth_rewrite 2 [← hmod]
      exact add_mod_ne (k := 0) (show i + 1 < r.size by omega) hpos (by omega)
    rw [Function.update_of_ne hne, prev_add hout]

lemma WellFormed.pop (h : r.WellFormed) (hcnt : 0 < r.cnt) : r.pop.2.WellFormed := by
  have hle := h.cnt_le
  have hout := h.out_lt (by omega)
  refine ⟨?_, fun hpos => ?_, fun hpos => ?_⟩
  · show r.cnt - 1 ≤ r.size
    omega
  · show next r.size r.out < r.size
    rw [next_eq hout]
    exact Nat.mod_lt _ hpos
  · show r.inp = (next r.size r.out + (r.cnt - 1)) % r.size
    rw [next_add hout, Nat.sub_add_cancel hcnt]
    exact h.inp_eq hpos

lemma contents_pop (h : r.WellFormed) (hcnt : 0 < r.cnt) :
    r.contents = r.pop.1 :: r.pop.2.contents := by
  have hle := h.cnt_le
  have hout := h.out_lt (by omega)
  obtain ⟨n, hn⟩ := Nat.exists_eq_add_one.2 hcnt
  have hpop : r.pop.2.contents =
      (List.range n).map fun i => r.buf ((next r.size r.out + i) % r.size) := by
    show (List.range (r.cnt - 1)).map _ = _
    rw [hn, Nat.add_sub_cancel]
    rfl
  rw [hpop, contents, hn, List.range_succ_eq_map, List.map_cons, List.map_map]
  congr 1
  · rw [Nat.add_zero, Nat.mod_eq_of_lt hout]
    rfl
  · refine List.map_congr_left fun i _ => ?_
    rw [next_add hout]
    rfl

end RingBuffer
