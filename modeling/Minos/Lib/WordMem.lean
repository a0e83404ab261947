import Mathlib

/-!
# Word memory with a trace of its stores

Memory is a map from byte addresses to the 64-bit words stored there, together with the list of
the stores that were made. The trace lets a specification speak about what a function wrote, and
not only about what it changed.

Frame conditions are stated by pages of 4096 bytes: `Confined P m m'` says that a computation
from `m` to `m'` stored only into pages of `P`.
-/

namespace WordMem

/-- A store: one word, or a whole page set to zero. -/
inductive Store where
  | word (addr val : ℕ)
  | page (base : ℕ)
deriving DecidableEq, Repr

structure Mem where
  word : ℕ → ℕ
  /-- The stores made so far, newest first. -/
  trace : List Store

namespace Mem

def store (m : Mem) (a v : ℕ) : Mem :=
  ⟨Function.update m.word a v, .word a v :: m.trace⟩

/-- Set the page at `p` to zero. -/
def zeroPage (m : Mem) (p : ℕ) : Mem :=
  ⟨fun a => if p ≤ a ∧ a < p + 4096 then 0 else m.word a, .page p :: m.trace⟩

@[simp] lemma store_word_self (m : Mem) (a v : ℕ) : (m.store a v).word a = v := by
  simp [store]

lemma store_word_ne (m : Mem) {a b : ℕ} (v : ℕ) (h : b ≠ a) :
    (m.store a v).word b = m.word b := by
  simp [store, h]

lemma zeroPage_word_in (m : Mem) {p a : ℕ} (h₁ : p ≤ a) (h₂ : a < p + 4096) :
    (m.zeroPage p).word a = 0 := by
  simp [zeroPage, h₁, h₂]

lemma zeroPage_word_out (m : Mem) {p a : ℕ} (h : ¬ (p ≤ a ∧ a < p + 4096)) :
    (m.zeroPage p).word a = m.word a := by
  simp only [zeroPage, if_neg h]

end Mem

/-- `a` is an address inside a page of `P`. -/
def InPages (P : Set ℕ) (a : ℕ) : Prop := ∃ p ∈ P, p ≤ a ∧ a < p + 4096

lemma InPages.mono {P Q : Set ℕ} (h : P ⊆ Q) {a : ℕ} : InPages P a → InPages Q a := by
  rintro ⟨p, hp, ha⟩
  exact ⟨p, h hp, ha⟩

/-- The store lands in a page of `P`. -/
def Store.Within (P : Set ℕ) : Store → Prop
  | .word a _ => InPages P a
  | .page b => b ∈ P

@[simp] lemma Store.within_word (P : Set ℕ) (a v : ℕ) :
    (Store.word a v).Within P ↔ InPages P a := Iff.rfl

@[simp] lemma Store.within_page (P : Set ℕ) (b : ℕ) : (Store.page b).Within P ↔ b ∈ P := Iff.rfl

lemma Store.Within.mono {P Q : Set ℕ} (h : P ⊆ Q) {st : Store} : st.Within P → st.Within Q := by
  cases st with
  | word a v => exact InPages.mono h
  | page b => exact fun hb => h hb

/-- Everything stored on the way from `m` to `m'` lies in pages of `P`. -/
structure Confined (P : Set ℕ) (m m' : Mem) : Prop where
  same : ∀ a, ¬ InPages P a → m'.word a = m.word a
  traced : ∃ l, m'.trace = l ++ m.trace ∧ ∀ st ∈ l, st.Within P

namespace Confined

variable {P Q : Set ℕ} {m m₁ m₂ : Mem}

lemma refl (P : Set ℕ) (m : Mem) : Confined P m m :=
  ⟨fun _ _ => rfl, [], rfl, by simp⟩

lemma mono (h : Confined P m m₁) (hPQ : P ⊆ Q) : Confined Q m m₁ := by
  obtain ⟨l, hl, hin⟩ := h.traced
  refine ⟨fun a ha => h.same a fun hP => ha (hP.mono hPQ), l, hl, ?_⟩
  exact fun st hst => (hin st hst).mono hPQ

lemma trans (h₁ : Confined P m m₁) (h₂ : Confined P m₁ m₂) : Confined P m m₂ := by
  obtain ⟨l₁, hl₁, hin₁⟩ := h₁.traced
  obtain ⟨l₂, hl₂, hin₂⟩ := h₂.traced
  refine ⟨fun a ha => (h₂.same a ha).trans (h₁.same a ha), l₂ ++ l₁, ?_, ?_⟩
  · rw [hl₂, hl₁, List.append_assoc]
  · intro st hst
    rcases List.mem_append.mp hst with h | h
    · exact hin₂ st h
    · exact hin₁ st h

lemma store (m : Mem) {a : ℕ} (v : ℕ) (ha : InPages P a) : Confined P m (m.store a v) := by
  refine ⟨fun b hb => m.store_word_ne v ?_, [.word a v], rfl, ?_⟩
  · rintro rfl
    exact hb ha
  · simpa using ha

lemma zeroPage (m : Mem) {p : ℕ} (hp : p ∈ P) : Confined P m (m.zeroPage p) := by
  refine ⟨fun b hb => m.zeroPage_word_out fun h => hb ⟨p, hp, h⟩, [.page p], rfl, ?_⟩
  simpa using hp

end Confined

/-! ### Single stores -/

/-- The store `st` was made on the way from `m` to `m'`. -/
def StoredBetween (m m' : Mem) (st : Store) : Prop := ∃ l, m'.trace = l ++ m.trace ∧ st ∈ l

namespace StoredBetween

variable {m m₁ m₂ : Mem} {st : Store}

lemma trans_right (h : StoredBetween m m₁ st) (h' : m₁.trace <:+ m₂.trace) :
    StoredBetween m m₂ st := by
  obtain ⟨l, hl, hst⟩ := h
  obtain ⟨l', hl'⟩ := h'
  exact ⟨l' ++ l, by rw [← hl', hl, List.append_assoc], List.mem_append_right _ hst⟩

lemma trans_left (h' : m.trace <:+ m₁.trace) (h : StoredBetween m₁ m₂ st) :
    StoredBetween m m₂ st := by
  obtain ⟨l, hl, hst⟩ := h
  obtain ⟨l', hl'⟩ := h'
  exact ⟨l ++ l', by rw [hl, ← hl', List.append_assoc], List.mem_append_left _ hst⟩

end StoredBetween

lemma Confined.within {P : Set ℕ} {m m' : Mem} {st : Store} (h : Confined P m m')
    (hst : StoredBetween m m' st) : st.Within P := by
  obtain ⟨l, hl, hin⟩ := h.traced
  obtain ⟨l', hl', hmem⟩ := hst
  obtain rfl := List.append_cancel_right (hl.symm.trans hl')
  exact hin st hmem

lemma Confined.suffix {P : Set ℕ} {m m' : Mem} (h : Confined P m m') : m.trace <:+ m'.trace := by
  obtain ⟨l, hl, -⟩ := h.traced
  exact ⟨l, hl.symm⟩

/-- All stores on the way from `m` to `m'` have the property `P`. -/
def Traced (P : Store → Prop) (m m' : Mem) : Prop :=
  ∃ l, m'.trace = l ++ m.trace ∧ ∀ st ∈ l, P st

namespace Traced

variable {P : Store → Prop} {m m₁ m₂ : Mem} {st : Store}

lemma refl (m : Mem) : Traced P m m := ⟨[], rfl, by simp⟩

lemma trans (h₁ : Traced P m m₁) (h₂ : Traced P m₁ m₂) : Traced P m m₂ := by
  obtain ⟨l₁, hl₁, hall₁⟩ := h₁
  obtain ⟨l₂, hl₂, hall₂⟩ := h₂
  exact ⟨l₂ ++ l₁, by rw [hl₂, hl₁, List.append_assoc], List.forall_mem_append.2 ⟨hall₂, hall₁⟩⟩

lemma store (m : Mem) {a v : ℕ} (h : P (.word a v)) : Traced P m (m.store a v) :=
  ⟨[_], rfl, by simpa using h⟩

lemma zeroPage (m : Mem) {p : ℕ} (h : P (.page p)) : Traced P m (m.zeroPage p) :=
  ⟨[_], rfl, by simpa using h⟩

lemma of_storedBetween (h : Traced P m m₁) (hst : StoredBetween m m₁ st) : P st := by
  obtain ⟨l, hl, hall⟩ := h
  obtain ⟨l', hl', hmem⟩ := hst
  obtain rfl := List.append_cancel_right (hl.symm.trans hl')
  exact hall st hmem

end Traced

/-- Two aligned pages that share an address are the same page. -/
lemma page_eq_of_inPage {p q a : ℕ} (hp : 4096 ∣ p) (hq : 4096 ∣ q)
    (hpa : p ≤ a ∧ a < p + 4096) (hqa : q ≤ a ∧ a < q + 4096) : p = q := by
  obtain ⟨i, rfl⟩ := hp
  obtain ⟨j, rfl⟩ := hq
  omega

/-- The words of the pages of `P` are the same in `m` and `m'`. -/
def AgreeOn (P : Set ℕ) (m m' : Mem) : Prop :=
  ∀ p ∈ P, ∀ a, p ≤ a → a < p + 4096 → m'.word a = m.word a

lemma AgreeOn.mono {P Q : Set ℕ} {m m' : Mem} (h : AgreeOn Q m m') (hPQ : P ⊆ Q) :
    AgreeOn P m m' :=
  fun p hp => h p (hPQ hp)

lemma agreeOn_store {P : Set ℕ} (m : Mem) {a : ℕ} (v : ℕ) (h : ¬ InPages P a) :
    AgreeOn P m (m.store a v) := by
  intro p hp b h₁ h₂
  apply m.store_word_ne
  rintro rfl
  exact h ⟨p, hp, h₁, h₂⟩

/-- A computation confined to `P` leaves every other aligned page alone. -/
lemma Confined.agreeOn {P Q : Set ℕ} {m m' : Mem} (h : Confined P m m')
    (hP : ∀ p ∈ P, 4096 ∣ p) (hQ : ∀ q ∈ Q, 4096 ∣ q) (hd : Disjoint P Q) : AgreeOn Q m m' := by
  intro q hq a h₁ h₂
  apply h.same
  rintro ⟨p, hp, hpa⟩
  obtain rfl := page_eq_of_inPage (hP p hp) (hQ q hq) hpa ⟨h₁, h₂⟩
  exact Set.disjoint_left.mp hd hp hq

end WordMem
