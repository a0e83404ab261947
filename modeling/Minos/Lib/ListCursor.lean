import Mathlib

/-!
# A cursor in a list that changes

A walk over a list of distinct elements remembers the element it comes to next, and the list changes
under it. What the walk still has to see is the part of the list from the cursor on: elements that
go, other than the one under the cursor, and elements that are appended leave the rest in it.
-/

namespace ListCursor

variable {α : Type*} [DecidableEq α]

/-- The part of a list from the cursor on. -/
def rest (l : List α) : Option α → List α
  | none => []
  | some a => l.dropWhile (· ≠ a)

/-- The element after `a` -/
def next (l : List α) (a : α) : Option α := (rest l (some a)).tail.head?

variable {l m : List α} {a b u : α} {c : Option α}

@[simp] lemma rest_none : rest l none = [] := rfl

@[simp] lemma rest_head? : rest l l.head? = l := by
  cases l with
  | nil => rfl
  | cons a l => simp [rest]

@[simp] lemma rest_cons_self : rest (a :: l) (some a) = a :: l := by simp [rest]

lemma rest_cons_of_ne (h : b ≠ a) : rest (b :: l) (some a) = rest l (some a) := by
  simp [rest, h]

lemma rest_append_cons {l₁ l₂ : List α} (h : a ∉ l₁) :
    rest (l₁ ++ a :: l₂) (some a) = a :: l₂ := by
  induction l₁ with
  | nil => exact rest_cons_self
  | cons d l₁ ih =>
    rw [List.mem_cons, not_or] at h
    rw [List.cons_append, rest_cons_of_ne (Ne.symm h.1), ih h.2]

/-- The cursor splits a list without duplicates. -/
lemma split_of_mem (hl : l.Nodup) (ha : a ∈ l) :
    ∃ l₁ l₂, l = l₁ ++ a :: l₂ ∧ a ∉ l₁ ∧ rest l (some a) = a :: l₂ := by
  obtain ⟨l₁, l₂, rfl⟩ := List.append_of_mem ha
  have hnot : a ∉ l₁ := fun h => List.disjoint_of_nodup_append hl h List.mem_cons_self
  exact ⟨l₁, l₂, rfl, hnot, rest_append_cons hnot⟩

lemma rest_next (hl : l.Nodup) (ha : a ∈ l) : rest l (some a) = a :: rest l (next l a) := by
  obtain ⟨l₁, l₂, heq, -, hrest⟩ := split_of_mem hl ha
  rw [next, hrest, List.tail_cons]
  cases l₂ with
  | nil => rfl
  | cons b l₂ =>
    have hsplit : l = (l₁ ++ [a]) ++ b :: l₂ := by
      rw [heq, List.append_assoc, List.singleton_append]
    have hb : b ∉ l₁ ++ [a] := fun h =>
      List.disjoint_of_nodup_append (hsplit ▸ hl) h List.mem_cons_self
    rw [List.head?_cons, hsplit, rest_append_cons hb]

/-- What comes after an element is another element of the list. -/
lemma mem_of_next (hl : l.Nodup) (ha : a ∈ l) (h : next l a = some b) : b ∈ l ∧ b ≠ a := by
  obtain ⟨l₁, l₂, heq, -, hrest⟩ := split_of_mem hl ha
  rw [next, hrest, List.tail_cons] at h
  have hb : b ∈ l₂ := List.mem_of_mem_head? h
  refine ⟨heq ▸ List.mem_append_right _ (List.mem_cons_of_mem _ hb), ?_⟩
  rintro rfl
  rw [heq, List.nodup_append] at hl
  exact (List.nodup_cons.1 hl.2.1).1 hb

lemma mem_rest_erase (hc : c ≠ some b) (h : u ∈ rest l c) (hu : u ≠ b) :
    u ∈ rest (l.erase b) c := by
  cases c with
  | none => simp at h
  | some a =>
    have hab : a ≠ b := fun hab => hc (congrArg some hab)
    induction l with
    | nil => exact h
    | cons d l ih =>
      by_cases hd : d = a
      · subst hd
        rw [List.erase_cons_tail (by simpa using hab)]
        simp only [rest_cons_self, List.mem_cons] at h ⊢
        exact h.imp_right fun h => (List.mem_erase_of_ne hu).2 h
      · rw [rest_cons_of_ne hd] at h
        by_cases hdb : d = b
        · subst hdb
          rwa [List.erase_cons_head]
        · rw [List.erase_cons_tail (by simpa using hdb), rest_cons_of_ne hd]
          exact ih h

lemma mem_rest_append_left (h : u ∈ rest l c) : u ∈ rest (l ++ m) c := by
  cases c with
  | none => simp at h
  | some a =>
    rw [rest, List.dropWhile_append]
    rw [rest] at h
    split_ifs with hempty
    · rw [List.isEmpty_iff] at hempty
      rw [hempty] at h
      simp at h
    · exact List.mem_append_left _ h

lemma mem_rest_append_right (ha : a ∈ l) (h : u ∈ m) : u ∈ rest (l ++ m) (some a) := by
  induction l with
  | nil => simp at ha
  | cons d l ih =>
    rw [List.cons_append]
    by_cases hd : d = a
    · subst hd
      simp [h]
    · rw [rest_cons_of_ne hd]
      exact ih ((List.mem_cons.1 ha).resolve_left (Ne.symm hd))

/-- An element at the end that is taken away and appended again -/
lemma erase_append_of_getLast (hl : l.Nodup) (h : l.getLast? = some b) : l.erase b ++ [b] = l := by
  obtain ⟨l', rfl⟩ := List.getLast?_eq_some_iff.1 h
  have hnot : b ∉ l' := fun hb => List.disjoint_of_nodup_append hl hb List.mem_cons_self
  rw [List.erase_append_right _ hnot, List.erase_cons_head, List.append_nil]

end ListCursor
