import Mathlib

/-!
# Lists of tagged intervals

A list of half-open intervals, each with a tag, is a map from points to tags when the intervals are
pairwise disjoint. The order of the list does not matter, and an interval can be replaced by pieces
that cover it.
-/

/-- The points from `lo` up to `hi`, with a tag. -/
structure TaggedInterval (α τ : Type*) where
  lo : α
  hi : α
  tag : τ

namespace TaggedInterval

variable {α τ : Type*} [LinearOrder α]

def set (i : TaggedInterval α τ) : Set α := Set.Ico i.lo i.hi

/-- The point `a` is in an interval of `l` with the tag `t`. -/
def Tagged (l : List (TaggedInterval α τ)) (a : α) (t : τ) : Prop :=
  ∃ i ∈ l, a ∈ i.set ∧ i.tag = t

/-- The points of all intervals. -/
def cover (l : List (TaggedInterval α τ)) : Set α := {a | ∃ i ∈ l, a ∈ i.set}

/-- The intervals are not empty, and no two of them have a point in common. -/
structure Valid (l : List (TaggedInterval α τ)) : Prop where
  lo_lt : ∀ i ∈ l, i.lo < i.hi
  disjoint : l.Pairwise fun i j => Disjoint i.set j.set

variable {l l' parts rest : List (TaggedInterval α τ)} {i j : TaggedInterval α τ} {a : α} {t t' : τ}

@[simp] lemma tagged_nil : ¬ Tagged ([] : List (TaggedInterval α τ)) a t := nofun

@[simp] lemma tagged_cons : Tagged (i :: l) a t ↔ (a ∈ i.set ∧ i.tag = t) ∨ Tagged l a t := by
  simp [Tagged]

lemma tagged_append : Tagged (l ++ l') a t ↔ Tagged l a t ∨ Tagged l' a t := by
  simp only [Tagged, List.mem_append, or_and_right, exists_or]

lemma tagged_perm (h : l.Perm l') : Tagged l a t ↔ Tagged l' a t := by
  simp only [Tagged, h.mem_iff]

@[simp] lemma cover_nil : cover ([] : List (TaggedInterval α τ)) = ∅ := by
  simp [cover]

@[simp] lemma cover_cons : cover (i :: l) = i.set ∪ cover l := by
  ext a
  simp [cover]

lemma cover_append : cover (l ++ l') = cover l ∪ cover l' := by
  ext a
  simp only [cover, List.mem_append, Set.mem_ofPred_eq, Set.mem_union, or_and_right, exists_or]

lemma cover_perm (h : l.Perm l') : cover l = cover l' := by
  ext a
  simp only [cover, Set.mem_ofPred_eq, h.mem_iff]

lemma mem_cover : a ∈ cover l ↔ ∃ t, Tagged l a t :=
  ⟨fun ⟨i, hi, ha⟩ => ⟨i.tag, i, hi, ha, rfl⟩, fun ⟨_, i, hi, ha, _⟩ => ⟨i, hi, ha⟩⟩

lemma valid_nil : Valid ([] : List (TaggedInterval α τ)) := ⟨nofun, .nil⟩

lemma Valid.perm (h : Valid l) (hp : l.Perm l') : Valid l' :=
  ⟨fun i hi => h.lo_lt i (hp.mem_iff.2 hi),
    hp.pairwise h.disjoint fun hij => hij.symm⟩

lemma disjoint_cover : Disjoint i.set (cover l) ↔ ∀ j ∈ l, Disjoint i.set j.set := by
  simp only [Set.disjoint_left, cover, Set.mem_ofPred_eq]
  exact ⟨fun h j hj a ha hja => h ha ⟨j, hj, hja⟩, fun h a ha ⟨j, hj, hja⟩ => h j hj ha hja⟩

lemma valid_cons : Valid (i :: l) ↔ i.lo < i.hi ∧ Disjoint i.set (cover l) ∧ Valid l := by
  rw [disjoint_cover]
  constructor
  · intro h
    obtain ⟨hi, hl⟩ := List.pairwise_cons.1 h.disjoint
    exact ⟨h.lo_lt i List.mem_cons_self, hi, fun j hj => h.lo_lt j (List.mem_cons_of_mem i hj), hl⟩
  · rintro ⟨hi, hdisj, hl⟩
    exact ⟨List.forall_mem_cons.2 ⟨hi, hl.lo_lt⟩, List.pairwise_cons.2 ⟨hdisj, hl.disjoint⟩⟩

/-- Two valid lists without a common point. -/
lemma Valid.append (h : Valid l) (h' : Valid l') (hd : Disjoint (cover l) (cover l')) :
    Valid (l ++ l') := by
  induction l with
  | nil => exact h'
  | cons i l ih =>
    obtain ⟨hi, hil, hl⟩ := valid_cons.1 h
    rw [cover_cons, Set.disjoint_union_left] at hd
    refine valid_cons.2 ⟨hi, ?_, ih hl hd.2⟩
    show Disjoint i.set (cover (l ++ l'))
    rw [cover_append]
    exact Set.disjoint_union_right.2 ⟨hil, hd.1⟩

/-- A point has one tag. -/
lemma Valid.tag_unique (h : Valid l) (ht : Tagged l a t) (ht' : Tagged l a t') : t = t' := by
  induction l with
  | nil => exact absurd ht tagged_nil
  | cons i l ih =>
    obtain ⟨-, hdisj, hl⟩ := valid_cons.1 h
    have hnot : a ∈ i.set → ∀ u, ¬ Tagged l a u := fun ha u hu =>
      Set.disjoint_left.1 hdisj ha (mem_cover.2 ⟨u, hu⟩)
    rcases tagged_cons.1 ht with ⟨ha, rfl⟩ | ht
    · rcases tagged_cons.1 ht' with ⟨-, rfl⟩ | ht'
      · rfl
      · exact absurd ht' (hnot ha t')
    · rcases tagged_cons.1 ht' with ⟨ha, -⟩ | ht'
      · exact absurd ht (hnot ha t)
      · exact ih hl ht ht'

/-- An interval is replaced by pieces that cover it. -/
lemma Valid.replace (h : Valid (i :: rest)) (hparts : Valid parts) (hcover : cover parts = i.set) :
    Valid (parts ++ rest) := by
  obtain ⟨-, hdisj, hrest⟩ := valid_cons.1 h
  exact hparts.append hrest (hcover ▸ hdisj)

lemma cover_replace (hcover : cover parts = i.set) : cover (parts ++ rest) = cover (i :: rest) := by
  rw [cover_append, cover_cons, hcover]

/-- Outside `S` the pieces have the tag of the interval. -/
lemma tagged_replace {S : Set α}
    (htag : ∀ a ∉ S, ∀ t, Tagged parts a t ↔ a ∈ i.set ∧ i.tag = t) (ha : a ∉ S) :
    Tagged (parts ++ rest) a t ↔ Tagged (i :: rest) a t := by
  rw [tagged_append, tagged_cons, htag a ha]

/-! ### Cutting an interval -/

variable {b c : α}

/-- The interval from `b` to `c`, if there is one. -/
def piece (b c : α) (t : τ) : List (TaggedInterval α τ) := if b < c then [⟨b, c, t⟩] else []

lemma piece_of_lt (h : b < c) : piece b c t = [⟨b, c, t⟩] := if_pos h

lemma piece_of_le (h : c ≤ b) : piece b c t = [] := if_neg h.not_gt

lemma tagged_piece : Tagged (piece b c t) a t' ↔ a ∈ Set.Ico b c ∧ t = t' := by
  rw [piece]
  split_ifs with h
  · simp [set]
  · simp [Set.Ico_eq_empty h]

lemma cover_piece : cover (piece b c t) = Set.Ico b c := by
  rw [piece]
  split_ifs with h
  · simp [set]
  · simp [Set.Ico_eq_empty h]

lemma valid_piece : Valid (piece b c t) := by
  rw [piece]
  split_ifs with h
  · exact valid_cons.2 ⟨h, by simp, valid_nil⟩
  · exact valid_nil

/-- The pieces of an interval that is cut at `b` and `c`; the piece between gets a new tag. -/
def cut (i : TaggedInterval α τ) (b c : α) (t : τ) : List (TaggedInterval α τ) :=
  piece i.lo b i.tag ++ (piece c i.hi i.tag ++ piece b c t)

lemma tagged_cut (hlo : i.lo ≤ b) (hbc : b ≤ c) (hhi : c ≤ i.hi) :
    Tagged (i.cut b c t) a t' ↔
      (a ∈ Set.Ico b c ∧ t = t') ∨ (a ∈ i.set ∧ a ∉ Set.Ico b c ∧ i.tag = t') := by
  simp only [cut, tagged_append, tagged_piece, set, Set.mem_Ico, not_and, not_lt]
  constructor
  · rintro (⟨⟨h₁, h₂⟩, ht⟩ | ⟨⟨h₁, h₂⟩, ht⟩ | h)
    · exact .inr ⟨⟨h₁, h₂.trans_le (hbc.trans hhi)⟩, fun hb => absurd h₂ hb.not_gt, ht⟩
    · exact .inr ⟨⟨hlo.trans (hbc.trans h₁), h₂⟩, fun _ => h₁, ht⟩
    · exact .inl h
  · rintro (h | ⟨⟨h₁, h₂⟩, hout, ht⟩)
    · exact .inr (.inr h)
    · rcases lt_or_ge a b with hab | hab
      · exact .inl ⟨⟨h₁, hab⟩, ht⟩
      · exact .inr (.inl ⟨⟨hout hab, h₂⟩, ht⟩)

lemma cover_cut (hlo : i.lo ≤ b) (hbc : b ≤ c) (hhi : c ≤ i.hi) : cover (i.cut b c t) = i.set := by
  simp only [cut, cover_append, cover_piece]
  rw [Set.union_comm (Set.Ico c i.hi), Set.Ico_union_Ico_eq_Ico hbc hhi,
    Set.Ico_union_Ico_eq_Ico hlo (hbc.trans hhi)]
  rfl

lemma disjoint_Ico (h : a ≤ b) {x y : α} : Disjoint (Set.Ico x a) (Set.Ico b y) :=
  Set.disjoint_left.2 fun _ hp hp' => absurd (hp.2.trans_le h) hp'.1.not_gt

lemma valid_cut (hbc : b ≤ c) : Valid (i.cut b c t) := by
  refine valid_piece.append (valid_piece.append valid_piece ?_) ?_
  · rw [cover_piece, cover_piece]
    exact (disjoint_Ico le_rfl).symm
  · rw [cover_append, cover_piece, cover_piece, cover_piece]
    exact Set.disjoint_union_right.2 ⟨disjoint_Ico hbc, disjoint_Ico le_rfl⟩

end TaggedInterval
