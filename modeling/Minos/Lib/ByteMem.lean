import Mathlib

/-!
# Byte memory

A memory of bytes with little-endian words of any width, and a memory that keeps a log of the
accesses made to it. `Stays W io io'` says that a computation from `io` to `io'` accessed only
bytes of `W`.
-/

namespace ByteMem

abbrev Bytes := ℕ → UInt8

/-- The components of a pair, without a look into the other one. -/
lemma fst_mk {α β : Type*} (a : α) (b : β) : (a, b).1 = a := rfl

lemma snd_mk {α β : Type*} (a : α) (b : β) : (a, b).2 = b := rfl

/-- The word of `n` bytes at `a`. -/
def read (m : Bytes) : ℕ → ℕ → ℕ
  | 0, _ => 0
  | n + 1, a => (m a).toNat + 256 * read m n (a + 1)

/-- Store the low `n` bytes of `v` at `a`. -/
@[irreducible] def write (m : Bytes) (n a v : ℕ) : Bytes :=
  fun x => if a ≤ x ∧ x < a + n then UInt8.ofNat (v / 256 ^ (x - a)) else m x

@[simp] lemma read_zero (m : Bytes) (a : ℕ) : read m 0 a = 0 := rfl

lemma read_succ (m : Bytes) (n a : ℕ) :
    read m (n + 1) a = (m a).toNat + 256 * read m n (a + 1) := rfl

lemma read_lt (m : Bytes) (n a : ℕ) : read m n a < 256 ^ n := by
  induction n generalizing a with
  | zero => simp
  | succ n ih =>
    have hb : (m a).toNat < 256 := (m a).toNat_lt
    have := ih (a + 1)
    rw [read_succ, pow_succ]
    omega

lemma write_apply_of_notMem (m : Bytes) {n a x : ℕ} (v : ℕ) (h : x ∉ Set.Ico a (a + n)) :
    write m n a v x = m x := by
  rw [write]
  exact if_neg h

lemma read_congr {m m' : Bytes} {n a : ℕ} (h : ∀ x ∈ Set.Ico a (a + n), m x = m' x) :
    read m n a = read m' n a := by
  induction n generalizing a with
  | zero => rfl
  | succ n ih =>
    rw [read_succ, read_succ, h a ⟨le_rfl, by omega⟩, ih fun x hx => h x ⟨?_, ?_⟩]
    · exact (Nat.le_succ a).trans hx.1
    · have := hx.2
      omega

lemma read_write_of_disjoint (m : Bytes) {n a k b : ℕ} (v : ℕ) (h : a + n ≤ b ∨ b + k ≤ a) :
    read (write m k b v) n a = read m n a := by
  refine read_congr fun x hx => write_apply_of_notMem m v ?_
  simp only [Set.mem_Ico] at hx ⊢
  omega

lemma read_write_self (m : Bytes) {n a v : ℕ} (hv : v < 256 ^ n) :
    read (write m n a v) n a = v := by
  induction n generalizing a v with
  | zero =>
    rw [pow_zero] at hv
    rw [read_zero]
    omega
  | succ n ih =>
    have hhead : (write m (n + 1) a v a).toNat = v % 256 := by
      rw [write, if_pos ⟨le_rfl, by omega⟩, Nat.sub_self, pow_zero, Nat.div_one]
      rfl
    -- the rest of the word is the word of the rest
    have htail : read (write m (n + 1) a v) n (a + 1) =
        read (write m n (a + 1) (v / 256)) n (a + 1) := by
      refine read_congr fun x hx => ?_
      have hx' : a + 1 ≤ x ∧ x < a + 1 + n := hx
      rw [write, write, if_pos ⟨by omega, by omega⟩, if_pos hx', Nat.div_div_eq_div_mul,
        ← pow_succ', show x - (a + 1) + 1 = x - a by omega]
    rw [read_succ, hhead, htail, ih (by rw [pow_succ] at hv; omega)]
    omega

/-! ### Memory with a log -/

inductive Access where
  | load (addr width : ℕ)
  | store (addr width val : ℕ)
deriving DecidableEq, Repr

/-- The bytes that the access touches. -/
def Access.bytes : Access → Set ℕ
  | .load a n => Set.Ico a (a + n)
  | .store a n _ => Set.Ico a (a + n)

structure Io where
  bytes : Bytes
  /-- The accesses made so far, newest first. -/
  log : List Access

namespace Io

/-- Read a word and note the access. -/
def load (io : Io) (n a : ℕ) : ℕ × Io := (read io.bytes n a, { io with log := .load a n :: io.log })

def store (io : Io) (n a v : ℕ) : Io := ⟨write io.bytes n a v, .store a n v :: io.log⟩

@[simp] lemma load_fst (io : Io) (n a : ℕ) : (io.load n a).1 = read io.bytes n a := rfl

@[simp] lemma load_bytes (io : Io) (n a : ℕ) : (io.load n a).2.bytes = io.bytes := rfl

@[simp] lemma store_bytes (io : Io) (n a v : ℕ) :
    (io.store n a v).bytes = write io.bytes n a v := rfl

/-- The access `x` was made on the way from `io` to `io'`. -/
def Made (io io' : Io) (x : Access) : Prop := ∃ l, io'.log = l ++ io.log ∧ x ∈ l

lemma made_store {io io₁ : Io} (h : io.log <:+ io₁.log) (n a v : ℕ) :
    Made io (io₁.store n a v) (.store a n v) := by
  obtain ⟨l, hl⟩ := h
  exact ⟨.store a n v :: l, by simp [store, hl], by simp⟩

/-- All accesses on the way from `io` to `io'` are to bytes of `W`. -/
structure Stays (W : Set ℕ) (io io' : Io) : Prop where
  same : ∀ x ∉ W, io'.bytes x = io.bytes x
  logged : ∃ l, io'.log = l ++ io.log ∧ ∀ x ∈ l, Access.bytes x ⊆ W

namespace Stays

variable {W : Set ℕ} {io io₁ io₂ : Io} {n a : ℕ}

lemma refl (W : Set ℕ) (io : Io) : Stays W io io := ⟨fun _ _ => rfl, [], rfl, by simp⟩

lemma load (h : Stays W io io₁) (ha : Set.Ico a (a + n) ⊆ W) : Stays W io (io₁.load n a).2 := by
  obtain ⟨hs, l, hl, hin⟩ := h
  refine ⟨hs, .load a n :: l, by simp [Io.load, hl], ?_⟩
  intro x hx
  rcases List.mem_cons.mp hx with rfl | hx
  · exact ha
  · exact hin x hx

lemma store (h : Stays W io io₁) (ha : Set.Ico a (a + n) ⊆ W) (v : ℕ) :
    Stays W io (io₁.store n a v) := by
  obtain ⟨hs, l, hl, hin⟩ := h
  refine ⟨fun x hx => ?_, .store a n v :: l, by simp [Io.store, hl], ?_⟩
  · rw [store_bytes, write_apply_of_notMem _ _ fun hmem => hx (ha hmem), hs x hx]
  · intro x hx
    rcases List.mem_cons.mp hx with rfl | hx
    · exact ha
    · exact hin x hx

lemma of_made (h : Stays W io io₁) {x : Access} (hx : Made io io₁ x) : x.bytes ⊆ W := by
  obtain ⟨l, hl, hin⟩ := h.logged
  obtain ⟨l', hl', hmem⟩ := hx
  obtain rfl := List.append_cancel_right (hl.symm.trans hl')
  exact hin x hmem

end Stays

end Io

end ByteMem
