import Mathlib

/-!
# Queues with entries that wait for earlier ones

An entry of a queue may wait for a value that an entry before it gives, or that was given before the
queue began.
-/

namespace WaitQueue

variable {ι β : Type*}

/-- Each entry that waits for a value finds it in `E` or with an entry before it. -/
def Served (waits : ι → β → Prop) (gives : ι → β) (E : Set β) : List ι → Prop
  | [] => True
  | j :: l => (∀ b, waits j b → b ∈ E) ∧ Served waits gives (insert (gives j) E) l

variable {waits waits' : ι → β → Prop} {gives gives' : ι → β} {E E' : Set β} {l : List ι} {i j : ι}

lemma head (h : Served waits gives E (j :: l)) {b : β} (hb : waits j b) : b ∈ E := h.1 b hb

/-- Entries may leave the queue when nobody waits for what they give, or when it is given before the
queue begins. `G` are the values that somebody still waits for. -/
lemma filter {G : Set β} {p : ι → Bool} (h : Served waits gives E l)
    (hE : ∀ b ∈ G, b ∈ E → b ∈ E')
    (hwaits : ∀ j ∈ l, p j = true → ∀ b, waits' j b → waits j b ∧ b ∈ G)
    (hgives : ∀ j ∈ l, p j = true → gives' j = gives j)
    (hleave : ∀ j ∈ l, p j = false → gives j ∈ G → gives j ∈ E') :
    Served waits' gives' E' (l.filter p) := by
  induction l generalizing E E' with
  | nil => trivial
  | cons j l ih =>
    have hl {P : ι → Prop} (hP : ∀ i ∈ j :: l, P i) : ∀ i ∈ l, P i :=
      fun i hi => hP i (List.mem_cons_of_mem j hi)
    cases hp : p j with
    | true =>
      rw [List.filter_cons_of_pos hp]
      refine ⟨fun b hb => ?_, ?_⟩
      · obtain ⟨hw, hG⟩ := hwaits j List.mem_cons_self hp b hb
        exact hE b hG (h.1 b hw)
      · rw [hgives j List.mem_cons_self hp]
        refine ih h.2 (fun b hG hb => ?_) (hl hwaits) (hl hgives)
          fun i hi hpi hG => .inr (hl hleave i hi hpi hG)
        exact hb.imp id (hE b hG)
    | false =>
      rw [List.filter_cons_of_neg (by simp [hp])]
      refine ih h.2 (fun b hG hb => ?_) (hl hwaits) (hl hgives) (hl hleave)
      rcases hb with rfl | hb
      · exact hleave j List.mem_cons_self hp hG
      · exact hE b hG hb

/-- A new last entry waits for what the others give, or for what was given before. -/
lemma concat (h : Served waits gives E l)
    (hnew : ∀ b, waits i b → b ∈ E ∨ ∃ j ∈ l, gives j = b) :
    Served waits gives E (l ++ [i]) := by
  induction l generalizing E with
  | nil =>
    refine ⟨fun b hb => ?_, trivial⟩
    obtain hE | ⟨j, hj, -⟩ := hnew b hb
    · exact hE
    · cases hj
  | cons j l ih =>
    refine ⟨h.1, ih h.2 fun b hb => ?_⟩
    rcases hnew b hb with hE | ⟨k, hk, rfl⟩
    · exact .inl (.inr hE)
    · rcases List.mem_cons.1 hk with rfl | hk
      · exact .inl (.inl rfl)
      · exact .inr ⟨k, hk, rfl⟩

/-- The entries stay where they are. -/
lemma congr (h : Served waits gives E l) (hE : E ⊆ E')
    (hwaits : ∀ j ∈ l, ∀ b, waits' j b → waits j b) (hgives : ∀ j ∈ l, gives' j = gives j) :
    Served waits' gives' E' l := by
  have := filter (p := fun _ => true) (G := Set.univ) h (fun b _ hb => hE hb)
    (fun j hj _ b hb => ⟨hwaits j hj b hb, trivial⟩) (fun j hj _ => hgives j hj)
    (fun j _ hp => nomatch hp)
  rwa [List.filter_true] at this

end WaitQueue
