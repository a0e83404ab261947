import Mathlib

/-!
# Counting the pieces that hit a point

A piece is given by its start and its length. Pieces lie apart from each other if and only if no
point is hit twice, and the number of hits is additive: it adds up over lists and families of lists,
and when a piece is cut.
-/

namespace Pieces

/-- How often a piece hits the point `x` -/
def hits (x : ℕ) (p : ℕ × ℕ) : ℕ := if p.1 ≤ x ∧ x < p.1 + p.2 then 1 else 0

/-- How many pieces of a list hit the point `x` -/
def listHits (x : ℕ) (l : List (ℕ × ℕ)) : ℕ := (l.map (hits x)).sum

variable {x base m n : ℕ} {p q : ℕ × ℕ} {l l' : List (ℕ × ℕ)}

lemma hits_le_one (x : ℕ) (p : ℕ × ℕ) : hits x p ≤ 1 := by
  unfold hits
  split_ifs <;> omega

lemma hits_ne_zero_iff : hits x p ≠ 0 ↔ x ∈ Set.Ico p.1 (p.1 + p.2) := by
  rw [hits, Set.mem_Ico]
  split_ifs with h
  · simp [h]
  · simp [h]

@[simp] lemma hits_zero (x base : ℕ) : hits x (base, 0) = 0 := by
  rw [hits, if_neg (by dsimp only; omega)]

/-- A piece that is cut in two -/
lemma hits_add (x base m n : ℕ) :
    hits x (base, m + n) = hits x (base, m) + hits x (base + m, n) := by
  unfold hits
  dsimp only
  split_ifs <;> omega

/-- A piece in another one -/
lemma hits_mono (hlo : q.1 ≤ p.1) (hhi : p.1 + p.2 ≤ q.1 + q.2) : hits x p ≤ hits x q := by
  unfold hits
  split_ifs <;> omega

@[simp] lemma listHits_nil (x : ℕ) : listHits x [] = 0 := rfl

@[simp] lemma listHits_cons (x : ℕ) (p : ℕ × ℕ) (l : List (ℕ × ℕ)) :
    listHits x (p :: l) = hits x p + listHits x l := by
  simp [listHits]

@[simp] lemma listHits_append (x : ℕ) (l l' : List (ℕ × ℕ)) :
    listHits x (l ++ l') = listHits x l + listHits x l' := by
  simp [listHits]

lemma listHits_flatMap (x n : ℕ) (f : ℕ → List (ℕ × ℕ)) :
    listHits x ((List.range n).flatMap f) = ∑ i ∈ Finset.range n, listHits x (f i) := by
  induction n with
  | zero => rfl
  | succ n ih => rw [List.range_succ, List.flatMap_append, listHits_append, ih,
      Finset.sum_range_succ, List.flatMap_singleton]

lemma listHits_ne_zero_iff : listHits x l ≠ 0 ↔ ∃ p ∈ l, x ∈ Set.Ico p.1 (p.1 + p.2) := by
  induction l with
  | nil => simp
  | cons p l ih =>
    rw [listHits_cons, List.exists_mem_cons_iff, ← hits_ne_zero_iff, ← ih]
    omega

/-- Pieces lie apart from each other if and only if no point is hit twice. -/
lemma pairwise_disjoint_iff :
    (l.Pairwise fun p q => Disjoint (Set.Ico p.1 (p.1 + p.2)) (Set.Ico q.1 (q.1 + q.2))) ↔
      ∀ x, listHits x l ≤ 1 := by
  induction l with
  | nil => simp
  | cons p l ih =>
    rw [List.pairwise_cons, ih]
    constructor
    · rintro ⟨hp, hl⟩ x
      have hle := hits_le_one x p
      rw [listHits_cons]
      by_cases hx : hits x p = 0
      · have := hl x
        omega
      · have hnone : listHits x l = 0 := by
          by_contra hne
          obtain ⟨q, hq, hxq⟩ := listHits_ne_zero_iff.1 hne
          exact Set.disjoint_left.1 (hp q hq) (hits_ne_zero_iff.1 hx) hxq
        omega
    · intro h
      refine ⟨fun q hq => Set.disjoint_left.2 fun x hx hxq => ?_, fun x => ?_⟩
      · have htwo := h x
        have hp := hits_ne_zero_iff.2 hx
        have hl := listHits_ne_zero_iff.2 ⟨q, hq, hxq⟩
        rw [listHits_cons] at htwo
        omega
      · have htwo := h x
        rw [listHits_cons] at htwo
        omega

/-- A family of lists in which one list is another one -/
lemma sum_update {ι α M : Type*} [DecidableEq ι] [AddCommMonoid M] {s : Finset ι} {i : ι}
    (hi : i ∈ s) (f : ι → List α) (w : List α → M) (l : List α) :
    ∑ j ∈ s, w (Function.update f i l j) + w (f i) = ∑ j ∈ s, w (f j) + w l := by
  have hother : ∑ j ∈ s.erase i, w (Function.update f i l j) = ∑ j ∈ s.erase i, w (f j) :=
    Finset.sum_congr rfl fun j hj => by rw [Function.update_of_ne (Finset.ne_of_mem_erase hj)]
  rw [← Finset.sum_erase_add s _ hi, ← Finset.sum_erase_add s (fun j => w (f j)) hi, hother,
    Function.update_self, add_right_comm]

end Pieces
