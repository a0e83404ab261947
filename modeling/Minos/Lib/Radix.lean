import Mathlib
import Minos.Lib.WordMem

/-!
# Radix page tables in word memory

A table is a page of 512 words. How a word is read (as nothing, as an output address, or as the
address of a table one level down) is the business of a `Format`, which also says which words
may stand in a table; the theory below only needs that the zero word may, and is read as nothing.

`walk` translates an address, `pages` is the footprint of a table with everything below it, and
`WF` says that the tables reachable from the root form a tree of legal words.
-/

namespace Radix

open WordMem

/-- What a table entry means. -/
inductive Entry where
  | fault
  | leaf (base : ℕ)
  | table (addr : ℕ)
deriving DecidableEq, Repr

/-- A translation: how many levels are below the entry that gave it, and the output address. -/
structure Leaf where
  lvl : ℕ
  out : ℕ
deriving DecidableEq, Repr

/-- A descriptor format: how a word is read in a table that has `n` levels below it. -/
structure Format where
  decode : ℕ → ℕ → Entry
  /-- The words that may stand in such a table. -/
  Legal : ℕ → ℕ → Prop
  decode_zero : ∀ n, decode n 0 = .fault
  legal_zero : ∀ n, Legal n 0

/-- The number of the entry that covers `va`, counted over the whole address space. -/
def slot (n va : ℕ) : ℕ := va / 2 ^ (12 + 9 * n)

/-- The word of table `t` that holds entry number `e`. -/
def entryAddr (t e : ℕ) : ℕ := t + 8 * (e % 512)

variable (F : Format)

/-- The translation of `va` by the table at `t`, which has `n` levels below it. -/
def walk (m : Mem) : ℕ → ℕ → ℕ → Option Leaf
  | 0, t, va =>
    match F.decode 0 (m.word (entryAddr t (slot 0 va))) with
    | .leaf b => some ⟨0, b + va % 2 ^ 12⟩
    | _ => none
  | n + 1, t, va =>
    match F.decode (n + 1) (m.word (entryAddr t (slot (n + 1) va))) with
    | .fault => none
    | .leaf b => some ⟨n + 1, b + va % 2 ^ (12 + 9 * (n + 1))⟩
    | .table t' => walk m n t' va

/-- The pages of the table at `t` and of every table below it. -/
def pages (m : Mem) : ℕ → ℕ → Set ℕ
  | 0, t => {t}
  | n + 1, t => {p | p = t ∨ ∃ i < 512, ∃ t',
      F.decode (n + 1) (m.word (t + 8 * i)) = .table t' ∧ p ∈ pages m n t'}

/-- The tables below `t` are aligned pages of legal words and form a tree: no table is reached
twice. -/
def WF (m : Mem) : ℕ → ℕ → Prop
  | 0, t => 4096 ∣ t ∧ ∀ i < 512, F.Legal 0 (m.word (t + 8 * i))
  | n + 1, t => (4096 ∣ t ∧ ∀ i < 512, F.Legal (n + 1) (m.word (t + 8 * i))) ∧
      (∀ i < 512, ∀ t', F.decode (n + 1) (m.word (t + 8 * i)) = .table t' →
        WF m n t' ∧ t ∉ pages F m n t') ∧
      ∀ i < 512, ∀ j < 512, i ≠ j → ∀ t' t'',
        F.decode (n + 1) (m.word (t + 8 * i)) = .table t' →
        F.decode (n + 1) (m.word (t + 8 * j)) = .table t'' →
        Disjoint (pages F m n t') (pages F m n t'')

variable {F}

/-! ### Slots and entries -/

lemma slot_succ (n va : ℕ) : slot (n + 1) va = slot n va / 512 := by
  rw [slot, slot, Nat.div_div_eq_div_mul, show (512 : ℕ) = 2 ^ 9 from rfl, ← pow_add]
  ring_nf

lemma entryAddr_bounds (t e : ℕ) : t ≤ entryAddr t e ∧ entryAddr t e < t + 4096 := by
  unfold entryAddr
  have := Nat.mod_lt e (show 0 < 512 by norm_num)
  omega

lemma entryAddr_inj {t e e' : ℕ} : entryAddr t e = entryAddr t e' ↔ e % 512 = e' % 512 := by
  unfold entryAddr
  omega

/-- Addresses in one slot are in one slot of every level above. -/
lemma slot_mono_eq {k n va vb : ℕ} (hk : k ≤ n) (h : slot k va = slot k vb) :
    slot n va = slot n vb := by
  induction n, hk using Nat.le_induction with
  | base => exact h
  | succ n _ ih => rw [slot_succ, slot_succ, ih]

/-! ### The footprint -/

lemma self_mem_pages (m : Mem) (n t : ℕ) : t ∈ pages F m n t := by
  cases n with
  | zero => rfl
  | succ n => exact Or.inl rfl

lemma pages_child_subset {m : Mem} {n t t' i : ℕ} (hi : i < 512)
    (h : F.decode (n + 1) (m.word (t + 8 * i)) = .table t') :
    pages F m n t' ⊆ pages F m (n + 1) t :=
  fun _ hp => Or.inr ⟨i, hi, t', h, hp⟩

namespace WF

variable {m : Mem} {n t : ℕ}

lemma aligned (h : WF F m n t) : 4096 ∣ t := by
  cases n with
  | zero => exact h.1
  | succ n => exact h.1.1

lemma legal (h : WF F m n t) : ∀ i < 512, F.Legal n (m.word (t + 8 * i)) := by
  cases n with
  | zero => exact h.2
  | succ n => exact h.1.2

lemma child (h : WF F m (n + 1) t) {i t' : ℕ} (hi : i < 512)
    (ht' : F.decode (n + 1) (m.word (t + 8 * i)) = .table t') : WF F m n t' :=
  (h.2.1 i hi t' ht').1

lemma root_notMem (h : WF F m (n + 1) t) {i t' : ℕ} (hi : i < 512)
    (ht' : F.decode (n + 1) (m.word (t + 8 * i)) = .table t') : t ∉ pages F m n t' :=
  (h.2.1 i hi t' ht').2

lemma disjoint (h : WF F m (n + 1) t) {i j t' t'' : ℕ} (hi : i < 512) (hj : j < 512) (hij : i ≠ j)
    (ht' : F.decode (n + 1) (m.word (t + 8 * i)) = .table t')
    (ht'' : F.decode (n + 1) (m.word (t + 8 * j)) = .table t'') :
    Disjoint (pages F m n t') (pages F m n t'') :=
  h.2.2 i hi j hj hij t' t'' ht' ht''

lemma pages_aligned (h : WF F m n t) : ∀ p ∈ pages F m n t, 4096 ∣ p := by
  induction n generalizing t with
  | zero =>
    rintro p rfl
    exact h.aligned
  | succ n ih =>
    rintro p (rfl | ⟨i, hi, t', ht', hp⟩)
    · exact h.aligned
    · exact ih (h.child hi ht') p hp

end WF

/-! ### The path of a translation -/

lemma walk_table {m : Mem} {n t va t' : ℕ}
    (h : F.decode (n + 1) (m.word (entryAddr t (slot (n + 1) va))) = .table t') :
    walk F m (n + 1) t va = walk F m n t' va := by
  simp only [walk, h]

/-- A translation comes from an entry of the table or from a table below. -/
lemma walk_cases {m : Mem} {n t va : ℕ} {x : Leaf} (h : walk F m (n + 1) t va = some x) :
    (∃ b, F.decode (n + 1) (m.word (entryAddr t (slot (n + 1) va))) = .leaf b ∧ x.lvl = n + 1) ∨
      ∃ t', F.decode (n + 1) (m.word (entryAddr t (slot (n + 1) va))) = .table t' ∧
        walk F m n t' va = some x := by
  cases hd : F.decode (n + 1) (m.word (entryAddr t (slot (n + 1) va))) with
  | fault => simp [walk, hd] at h
  | leaf b =>
    simp only [walk, hd, Option.some.injEq] at h
    exact Or.inl ⟨b, rfl, by rw [← h]⟩
  | table t' => exact Or.inr ⟨t', rfl, by rw [← h, walk_table hd]⟩

lemma walk_lvl_le {m : Mem} {n t va : ℕ} {x : Leaf} (h : walk F m n t va = some x) :
    x.lvl ≤ n := by
  induction n generalizing t with
  | zero =>
    simp only [walk] at h
    split at h
    · simp only [Option.some.injEq] at h
      simp [← h]
    · simp at h
  | succ n ih =>
    rcases walk_cases h with ⟨_, -, hl⟩ | ⟨t', -, h'⟩
    · exact hl.le
    · exact (ih h').trans (Nat.le_succ n)

/-- A translation comes from the table itself when its entry is a leaf. -/
lemma walk_lvl_eq_iff {m : Mem} {n t va : ℕ} :
    (∃ x, walk F m (n + 1) t va = some x ∧ x.lvl = n + 1) ↔
      ∃ b, F.decode (n + 1) (m.word (entryAddr t (slot (n + 1) va))) = .leaf b := by
  constructor
  · rintro ⟨x, hx, hlvl⟩
    rcases walk_cases hx with ⟨b, hb, -⟩ | ⟨t', -, h'⟩
    · exact ⟨b, hb⟩
    · have := walk_lvl_le h'
      omega
  · rintro ⟨b, hb⟩
    exact ⟨⟨n + 1, b + va % 2 ^ (12 + 9 * (n + 1))⟩, by simp only [walk, hb], rfl⟩

/-- The translation, the footprint and the shape of a table only depend on its pages. -/
lemma congr_of_agreeOn {m m' : Mem} {n t : ℕ} (h : AgreeOn (pages F m n t) m m') :
    (∀ va, walk F m' n t va = walk F m n t va) ∧ pages F m' n t = pages F m n t ∧
      (WF F m n t → WF F m' n t) := by
  have hroot : ∀ e, m'.word (entryAddr t e) = m.word (entryAddr t e) := fun e =>
    h t (self_mem_pages m n t) _ (entryAddr_bounds t e).1 (entryAddr_bounds t e).2
  have hroot' : ∀ i < 512, m'.word (t + 8 * i) = m.word (t + 8 * i) := fun i hi =>
    h t (self_mem_pages m n t) _ (by omega) (by omega)
  induction n generalizing t with
  | zero =>
    refine ⟨fun va => by simp only [walk, hroot], rfl, fun hwf => ⟨hwf.aligned, fun i hi => ?_⟩⟩
    rw [hroot' i hi]
    exact hwf.legal i hi
  | succ n ih =>
    have hchild : ∀ i < 512, ∀ t', F.decode (n + 1) (m.word (t + 8 * i)) = .table t' →
        (∀ va, walk F m' n t' va = walk F m n t' va) ∧ pages F m' n t' = pages F m n t' ∧
          (WF F m n t' → WF F m' n t') := by
      intro i hi t' ht'
      have hsub := h.mono (pages_child_subset hi ht')
      refine ih hsub (fun e => ?_) (fun j hj => ?_)
      · exact hsub t' (self_mem_pages m n t') _ (entryAddr_bounds t' e).1 (entryAddr_bounds t' e).2
      · exact hsub t' (self_mem_pages m n t') _ (by omega) (by omega)
    refine ⟨fun va => ?_, ?_, ?_⟩
    · simp only [walk, hroot]
      split
      · rfl
      · rfl
      · rename_i t' ht'
        exact (hchild _ (Nat.mod_lt _ (by norm_num)) t' ht').1 va
    · ext p
      constructor
      · rintro (rfl | ⟨i, hi, t', ht', hp⟩)
        · exact Or.inl rfl
        · rw [hroot' i hi] at ht'
          rw [(hchild i hi t' ht').2.1] at hp
          exact Or.inr ⟨i, hi, t', ht', hp⟩
      · rintro (rfl | ⟨i, hi, t', ht', hp⟩)
        · exact Or.inl rfl
        · rw [← (hchild i hi t' ht').2.1] at hp
          exact Or.inr ⟨i, hi, t', by rw [hroot' i hi]; exact ht', hp⟩
    · intro hwf
      refine ⟨⟨hwf.aligned, fun i hi => ?_⟩, fun i hi t' ht' => ?_,
        fun i hi j hj hij t' t'' ht' ht'' => ?_⟩
      · rw [hroot' i hi]
        exact hwf.legal i hi
      · rw [hroot' i hi] at ht'
        obtain ⟨-, hp, hw⟩ := hchild i hi t' ht'
        rw [hp]
        exact ⟨hw (hwf.child hi ht'), hwf.root_notMem hi ht'⟩
      · rw [hroot' i hi] at ht'
        rw [hroot' j hj] at ht''
        rw [(hchild i hi t' ht').2.1, (hchild j hj t'' ht'').2.1]
        exact hwf.disjoint hi hj hij ht' ht''

end Radix
