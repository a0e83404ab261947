import Mathlib

/-!
# Circular doubly linked lists

A list is a head and the nodes that are reached from it through the next pointers, and the previous
pointers lead back. The pointers are in the nodes themselves, so that a node is on at most one list,
and whether a pointer is null can be used as a mark.
-/

namespace DList

/-- A pointer to a node, the null pointer, or a value that marks a node as deleted. -/
inductive Ptr (α : Type*) where
  | null
  | poison (addr : ℕ)
  | node (a : α)
deriving DecidableEq

/-- The two pointers of every node. -/
structure Links (α : Type*) where
  next : α → Ptr α
  pre : α → Ptr α

variable {α : Type*} [DecidableEq α]

/-! ### The operations -/

/-- A write through the pointer `p`, which is not defined if it does not point to a node. -/
def setNext (h : Links α) (p v : Ptr α) : Links α :=
  match p with
  | .node a => { h with next := Function.update h.next a v }
  | .null | .poison _ => h

def setPre (h : Links α) (p v : Ptr α) : Links α :=
  match p with
  | .node a => { h with pre := Function.update h.pre a v }
  | .null | .poison _ => h

def initList (h : Links α) (head : α) : Links α :=
  setPre (setNext h (.node head) (.node head)) (.node head) (.node head)

def listAddTail (h : Links α) (head new : α) : Links α :=
  let h := setNext h (h.pre head) (.node new)
  let h := setNext h (.node new) (.node head)
  let h := setPre h (.node new) (h.pre head)
  setPre h (.node head) (.node new)

def listDel (h : Links α) (a : α) : Links α :=
  let h := setPre h (h.next a) (h.pre a)
  let h := setNext h (h.pre a) (h.next a)
  let h := setNext h (.node a) (.poison 0x10)
  setPre h (.node a) (.poison 0x20)

/-! ### Well-formed lists -/

/-- The pointers lead from `x` to `y` and back. -/
def Link (h : Links α) (x y : α) : Prop := h.next x = .node y ∧ h.pre y = .node x

/-- The pointers lead from `x` through the nodes of the list to `y`, and back. -/
def Seg (h : Links α) : α → List α → α → Prop
  | x, [], y => Link h x y
  | x, a :: l, y => Link h x a ∧ Seg h a l y

/-- The nodes of the list with the head `head` are those of `l`. -/
structure IsList (h : Links α) (head : α) (l : List α) : Prop where
  seg : Seg h head l head
  nodup : (head :: l).Nodup

variable {h h' : Links α} {x y a b head : α} {l l₁ l₂ : List α}

omit [DecidableEq α] in
lemma seg_append : Seg h x (l₁ ++ a :: l₂) y ↔ Seg h x l₁ a ∧ Seg h a l₂ y := by
  induction l₁ generalizing x with
  | nil => rfl
  | cons b l ih => simp only [List.cons_append, Seg, ih, and_assoc]

omit [DecidableEq α] in
lemma Seg.congr (hs : Seg h x l y) (hnext : ∀ a ∈ x :: l, h'.next a = h.next a)
    (hpre : ∀ a ∈ l ++ [y], h'.pre a = h.pre a) : Seg h' x l y := by
  induction l generalizing x with
  | nil => exact ⟨(hnext x (by simp)).trans hs.1, (hpre y (by simp)).trans hs.2⟩
  | cons b l ih =>
    refine ⟨⟨(hnext x (by simp)).trans hs.1.1, (hpre b (by simp)).trans hs.1.2⟩, ih hs.2 ?_ ?_⟩
    · exact fun c hc => hnext c (List.mem_cons_of_mem _ hc)
    · exact fun c hc => hpre c (List.mem_cons_of_mem _ hc)

omit [DecidableEq α] in
lemma Seg.next_eq (hs : Seg h x l y) : h.next x = .node (l.headD y) := by
  cases l with
  | nil => exact hs.1
  | cons b l => exact hs.1.1

omit [DecidableEq α] in
/-- The last pointer of a path can be bent to another end. -/
lemma Seg.exists_last (hs : Seg h x l y) (hn : (x :: l).Nodup) :
    ∃ z ∈ x :: l, Link h z y ∧ ∀ (h' : Links α) (y' : α),
      (∀ a ∈ x :: l, a ≠ z → h'.next a = h.next a) → (∀ a ∈ l, h'.pre a = h.pre a) →
      Link h' z y' → Seg h' x l y' := by
  induction l generalizing x with
  | nil => exact ⟨x, by simp, hs, fun _ _ _ _ hl => hl⟩
  | cons b l ih =>
    obtain ⟨hx, hn⟩ := List.nodup_cons.1 hn
    obtain ⟨z, hz, hlink, hbend⟩ := ih hs.2 hn
    refine ⟨z, List.mem_cons_of_mem _ hz, hlink, fun h' y' hnext hpre hl => ⟨⟨?_, ?_⟩, ?_⟩⟩
    · have hxz : x ≠ z := fun he => hx (he ▸ hz)
      exact (hnext x (by simp) hxz).trans hs.1.1
    · exact (hpre b (by simp)).trans hs.1.2
    · exact hbend h' y' (fun c hc => hnext c (List.mem_cons_of_mem _ hc))
        (fun c hc => hpre c (List.mem_cons_of_mem _ hc)) hl

omit [DecidableEq α] in
lemma IsList.congr (hl : IsList h head l) (hnext : ∀ a ∈ head :: l, h'.next a = h.next a)
    (hpre : ∀ a ∈ head :: l, h'.pre a = h.pre a) : IsList h' head l :=
  ⟨hl.seg.congr hnext fun a ha => hpre a (by simpa [or_comm] using ha), hl.nodup⟩

omit [DecidableEq α] in
/-- The next pointer of a node is the node after it, or the head. -/
lemma IsList.next_eq (hl : IsList h head (l₁ ++ a :: l₂)) :
    h.next a = .node (l₂.headD head) :=
  (seg_append.1 hl.seg).2.next_eq

omit [DecidableEq α] in
lemma IsList.next_ne_null (hl : IsList h head l) (ha : a ∈ l) : h.next a ≠ .null := by
  obtain ⟨l₁, l₂, rfl⟩ := List.append_of_mem ha
  rw [hl.next_eq]
  nofun

/-! ### `list_add_tail` -/

section AddTail

variable {new z : α}

lemma listAddTail_eq (hz : h.pre head = .node z) :
    listAddTail h head new =
      { next := Function.update (Function.update h.next z (.node new)) new (.node head)
        pre := Function.update (Function.update h.pre new (.node z)) head (.node new) } := by
  simp [listAddTail, setNext, setPre, hz]

lemma IsList.addTail (hl : IsList h head l) (hnew : new ∉ head :: l) :
    IsList (listAddTail h head new) head (l ++ [new]) := by
  obtain ⟨z, hz, hlink, hbend⟩ := hl.seg.exists_last hl.nodup
  have hmem : ∀ a ∈ head :: l, a ≠ new := fun a ha he => hnew (he ▸ ha)
  have hhead : ∀ a ∈ l, a ≠ head := fun a ha he => (List.nodup_cons.1 hl.nodup).1 (he ▸ ha)
  have hhn := hmem head (by simp)
  rw [listAddTail_eq hlink.2]
  refine ⟨seg_append.2 ⟨hbend _ new (fun a ha haz => ?_) (fun a ha => ?_) ⟨?_, ?_⟩, ?_, ?_⟩, ?_⟩
  · simp [hmem a ha, haz]
  · simp [hmem a (List.mem_cons_of_mem _ ha), hhead a ha]
  · simp [hmem z hz]
  · simp [hhn.symm]
  · simp
  · simp
  · obtain ⟨hh, hn⟩ := List.nodup_cons.1 hl.nodup
    refine List.nodup_cons.2 ⟨by simpa [hh] using hhn, List.nodup_append.2 ⟨hn, by simp, ?_⟩⟩
    rintro a ha b hb rfl
    exact hmem a (List.mem_cons_of_mem _ ha) (List.mem_singleton.1 hb)

/-- `list_add_tail` writes to the list and to the new node only. -/
lemma IsList.addTail_frame (hl : IsList h head l) (ha : a ∉ head :: l) (hne : a ≠ new) :
    (listAddTail h head new).next a = h.next a ∧ (listAddTail h head new).pre a = h.pre a := by
  obtain ⟨z, hz, hlink, -⟩ := hl.seg.exists_last hl.nodup
  have haz : a ≠ z := fun he => ha (he ▸ hz)
  have hah : a ≠ head := fun he => ha (he ▸ by simp)
  rw [listAddTail_eq hlink.2]
  constructor
  · simp [hne, haz]
  · simp [hne, hah]

/-- `list_add_tail` overwrites the pointers of the node. -/
lemma listAddTail_setNext (h : Links α) (head new : α) (v : Ptr α) :
    listAddTail (setNext h (.node new) v) head new = listAddTail h head new := by
  have hnext : ∀ (f : α → Ptr α) (z : α) (w w' : Ptr α),
      Function.update (Function.update (Function.update f new v) z w) new w' =
        Function.update (Function.update f z w) new w' := by
    intro f z w w'
    funext x
    by_cases hx : x = new
    · simp [hx]
    · by_cases hz : x = z
      · subst hz
        simp [hx]
      · simp [hx, hz]
  cases hp : h.pre head with
  | null => simp [listAddTail, setNext, setPre, hp]
  | poison n => simp [listAddTail, setNext, setPre, hp]
  | node z => simp [listAddTail, setNext, setPre, hp, hnext]

end AddTail

/-! ### `list_del` -/

lemma listDel_eq {p q : α} (hp : h.pre a = .node p) (hq : h.next a = .node q) (hqa : q ≠ a) :
    listDel h a =
      { next := Function.update (Function.update h.next p (.node q)) a (.poison 0x10)
        pre := Function.update (Function.update h.pre q (.node p)) a (.poison 0x20) } := by
  simp [listDel, setNext, setPre, hp, hq, hqa.symm]

omit [DecidableEq α] in
/-- The nodes around one in the middle of a list. -/
lemma IsList.around (hl : IsList h head (l₁ ++ a :: l₂)) :
    ∃ p ∈ head :: l₁, Link h p a ∧ h.next a = .node (l₂.headD head) ∧ l₂.headD head ≠ a ∧
      ∀ (h' : Links α) (y : α), (∀ b ∈ head :: l₁, b ≠ p → h'.next b = h.next b) →
        (∀ b ∈ l₁, h'.pre b = h.pre b) → Link h' p y → Seg h' head l₁ y := by
  obtain ⟨hseg₁, hseg₂⟩ := seg_append.1 hl.seg
  have hn : (head :: l₁ ++ a :: l₂).Nodup := hl.nodup
  obtain ⟨hn₁, hn₂, hdisj⟩ := List.nodup_append.1 hn
  obtain ⟨p, hp, hlink, hbend⟩ := hseg₁.exists_last hn₁
  refine ⟨p, hp, hlink, hseg₂.next_eq, ?_, hbend⟩
  cases l₂ with
  | nil => exact hdisj head (by simp) a (by simp)
  | cons q l =>
    rintro rfl
    exact (List.nodup_cons.1 hn₂).1 (by simp)

/-- `list_del` takes the node out of the list. -/
lemma IsList.del (hl : IsList h head (l₁ ++ a :: l₂)) : IsList (listDel h a) head (l₁ ++ l₂) := by
  obtain ⟨p, hp, hlink, hnext, hqa, hbend⟩ := hl.around
  obtain ⟨hn₁, hn₂, hdisj⟩ :=
    List.nodup_append.1 (show (head :: l₁ ++ a :: l₂).Nodup from hl.nodup)
  have ha₁ : ∀ b ∈ head :: l₁, b ≠ a := fun b hb => hdisj b hb a (by simp)
  have ha₂ : ∀ b ∈ l₂, b ≠ a := fun b hb he => (List.nodup_cons.1 hn₂).1 (he ▸ hb)
  have hh₁ : ∀ b ∈ l₁, b ≠ head := fun b hb he => (List.nodup_cons.1 hn₁).1 (he ▸ hb)
  rw [listDel_eq hlink.2 hnext hqa]
  refine ⟨?_, ?_⟩
  · cases l₂ with
    | nil =>
      rw [List.append_nil]
      refine hbend _ head (fun b hb hbp => ?_) (fun b hb => ?_) ⟨?_, ?_⟩
      · simp [ha₁ b hb, hbp]
      · simp [ha₁ b (List.mem_cons_of_mem _ hb), hh₁ b hb]
      · simp [ha₁ p hp]
      · simp [ha₁ head (by simp)]
    | cons q l₂ =>
      have h12 : ∀ b ∈ head :: l₁, ∀ c ∈ q :: l₂, b ≠ c :=
        fun b hb c hc => hdisj b hb c (List.mem_cons_of_mem _ hc)
      obtain ⟨hq₂, -⟩ := List.nodup_cons.1 (List.nodup_cons.1 hn₂).2
      refine seg_append.2 ⟨hbend _ q (fun b hb hbp => ?_) (fun b hb => ?_) ⟨?_, ?_⟩,
        (seg_append.1 hl.seg).2.2.congr (fun b hb => ?_) fun b hb => ?_⟩
      · simp [ha₁ b hb, hbp]
      · simp [ha₁ b (List.mem_cons_of_mem _ hb), h12 b (List.mem_cons_of_mem _ hb) q (by simp)]
      · simp [ha₁ p hp]
      · simp [ha₂ q (by simp)]
      · simp [ha₂ b hb, (h12 p hp b hb).symm]
      · rcases List.mem_append.1 hb with hb | hb
        · have hbq : b ≠ q := fun he => hq₂ (he ▸ hb)
          simp [ha₂ b (List.mem_cons_of_mem _ hb), hbq]
        · obtain rfl := List.mem_singleton.1 hb
          simp [ha₁ b (by simp), h12 b (by simp) q (by simp)]
  · have hsub : (head :: (l₁ ++ l₂)).Sublist (head :: (l₁ ++ a :: l₂)) :=
      (List.Sublist.append_left (List.sublist_cons_self a l₂) l₁).cons_cons head
    exact hl.nodup.sublist hsub

/-- `list_del` writes to the list only. -/
lemma IsList.del_frame (hl : IsList h head l) (ha : a ∈ l) (hb : b ∉ head :: l) :
    (listDel h a).next b = h.next b ∧ (listDel h a).pre b = h.pre b := by
  obtain ⟨l₁, l₂, rfl⟩ := List.append_of_mem ha
  obtain ⟨p, hp, hlink, hnext, hqa, -⟩ := hl.around
  have hne : ∀ c ∈ head :: (l₁ ++ a :: l₂), b ≠ c := fun c hc he => hb (he ▸ hc)
  have hba := hne a (by simp)
  have hbp : b ≠ p := hne p (List.mem_append_left (a :: l₂) hp)
  have hbq : b ≠ l₂.headD head := by
    refine hne _ ?_
    cases l₂ with
    | nil => simp
    | cons q l => simp
  rw [listDel_eq hlink.2 hnext hqa]
  constructor
  · exact (Function.update_of_ne hba _ _).trans (Function.update_of_ne hbp _ _)
  · exact (Function.update_of_ne hba _ _).trans (Function.update_of_ne hbq _ _)

/-! ### Several lists -/

section Family

variable {κ δ : Type*} [DecidableEq κ] [DecidableEq δ]

/-- The lists with the heads `κ`, over nodes that are on no other list and have a null pointer while
they are on none. -/
structure Family (h : Links (κ ⊕ δ)) (L : κ → List δ) : Prop where
  isList : ∀ k, IsList h (.inl k) ((L k).map .inr)
  disjoint : ∀ k k' d, d ∈ L k → d ∈ L k' → k = k'
  null : ∀ d, (∀ k, d ∉ L k) → h.next (.inr d) = .null

variable {h h' : Links (κ ⊕ δ)} {L : κ → List δ} {k k' : κ} {d e : δ}

omit [DecidableEq κ] [DecidableEq δ] in
lemma Family.next_ne_null_iff (hf : Family h L) : h.next (.inr d) ≠ .null ↔ ∃ k, d ∈ L k := by
  constructor
  · intro hne
    by_contra hnot
    push Not at hnot
    exact hne (hf.null d hnot)
  · rintro ⟨k, hk⟩
    exact (hf.isList k).next_ne_null (List.mem_map_of_mem hk)

omit [DecidableEq κ] [DecidableEq δ] in
lemma Family.nodup (hf : Family h L) (k : κ) : (L k).Nodup :=
  (List.nodup_cons.1 (hf.isList k).nodup).2.of_map _

omit [DecidableEq κ] [DecidableEq δ] in
/-- After a node comes another one of its list, or the head. -/
lemma Family.next_cases (hf : Family h L) (hd : d ∈ L k) :
    h.next (.inr d) = .node (.inl k) ∨ ∃ e ∈ L k, e ≠ d ∧ h.next (.inr d) = .node (.inr e) := by
  obtain ⟨l₁, l₂, hl⟩ := List.append_of_mem hd
  have hlist := hf.isList k
  have hn := hf.nodup k
  rw [hl, List.map_append, List.map_cons] at hlist
  rw [hl] at hn
  have hnext := hlist.next_eq
  cases l₂ with
  | nil => exact Or.inl hnext
  | cons e l =>
    refine Or.inr ⟨e, by simp [hl], ?_, hnext⟩
    rintro rfl
    exact (List.nodup_cons.1 (List.nodup_append.1 hn).2.1).1 (by simp)

omit [DecidableEq κ] [DecidableEq δ] in
/-- What happens to a node that is on no list does not matter. -/
lemma Family.congr (hf : Family h L) (hd : ∀ k, d ∉ L k)
    (hnext : ∀ x, x ≠ .inr d → h'.next x = h.next x) (hpre : ∀ x, x ≠ .inr d → h'.pre x = h.pre x)
    (hnull : h'.next (.inr d) = .null) : Family h' L := by
  refine ⟨fun k => (hf.isList k).congr (fun x hx => hnext x ?_) (fun x hx => hpre x ?_),
    hf.disjoint, fun e he => ?_⟩
  · rintro rfl
    exact hd k (by simpa using hx)
  · rintro rfl
    exact hd k (by simpa using hx)
  · by_cases hed : e = d
    · rw [hed, hnull]
    · rw [hnext _ (by simpa using hed)]
      exact hf.null e he

/-- A node that is on no list goes to the end of a list. -/
lemma Family.addTail (hf : Family h L) (hd : ∀ k, d ∉ L k) (k : κ) :
    Family (listAddTail h (.inl k) (.inr d)) (Function.update L k (L k ++ [d])) := by
  have hnew : .inr d ∉ .inl k :: (L k).map (Sum.inr : δ → κ ⊕ δ) := by simpa using hd k
  have hframe : ∀ x, x ∉ .inl k :: (L k).map (Sum.inr : δ → κ ⊕ δ) → x ≠ .inr d → _ :=
    fun x hx hne => (hf.isList k).addTail_frame hx hne
  refine ⟨fun j => ?_, fun i j e hi hj => ?_, fun e he => ?_⟩
  · by_cases hj : j = k
    · subst hj
      rw [Function.update_self, List.map_append]
      exact (hf.isList j).addTail hnew
    · rw [Function.update_of_ne hj]
      have hother : ∀ x ∈ .inl j :: (L j).map (Sum.inr : δ → κ ⊕ δ),
          x ∉ .inl k :: (L k).map (Sum.inr : δ → κ ⊕ δ) ∧ x ≠ .inr d := by
        intro x hx
        rcases List.mem_cons.1 hx with rfl | hx
        · simpa using hj
        · obtain ⟨e, he, rfl⟩ := List.mem_map.1 hx
          refine ⟨?_, ?_⟩
          · simpa using fun hek => hj (hf.disjoint j k e he hek)
          · rintro heq
            exact hd j (Sum.inr.inj heq ▸ he)
      exact (hf.isList j).congr (fun x hx => (hframe x (hother x hx).1 (hother x hx).2).1)
        fun x hx => (hframe x (hother x hx).1 (hother x hx).2).2
  · have hmem : ∀ {i}, e ∈ Function.update L k (L k ++ [d]) i → e ∈ L i ∨ i = k ∧ e = d := by
      intro i hi
      by_cases hik : i = k
      · subst hik
        rw [Function.update_self] at hi
        simpa using hi
      · rw [Function.update_of_ne hik] at hi
        exact Or.inl hi
    rcases hmem hi with hi' | ⟨hi', rfl⟩
    · rcases hmem hj with hj' | ⟨-, rfl⟩
      · exact hf.disjoint i j e hi' hj'
      · exact absurd hi' (hd i)
    · rcases hmem hj with hj' | ⟨hj', -⟩
      · exact absurd hj' (hd j)
      · rw [hi', hj']
  · have hk := he k
    rw [Function.update_self] at hk
    have hed : e ≠ d := fun heq => hk (by simp [heq])
    have hnot : ∀ j, e ∉ L j := by
      intro j hj
      refine he j ?_
      by_cases hjk : j = k
      · subst hjk
        rw [Function.update_self]
        exact List.mem_append_left _ hj
      · rwa [Function.update_of_ne hjk]
    rw [(hframe (.inr e) (by simpa using hnot k) (by simpa using hed)).1]
    exact hf.null e hnot

/-- A node goes off its list, and its next pointer becomes null. -/
lemma Family.del (hf : Family h L) (hd : d ∈ L k) :
    Family (setNext (listDel h (.inr d)) (.node (.inr d)) .null)
      (Function.update L k ((L k).erase d)) := by
  obtain ⟨l₁, l₂, hd₁, hl, herase⟩ := List.exists_erase_eq hd
  have hn := hf.nodup k
  have hd₂ : d ∉ l₂ := by
    rw [hl] at hn
    exact (List.nodup_cons.1 (List.nodup_append.1 hn).2.1).1
  have hself : d ∉ (L k).erase d := by
    rw [herase]
    simp [hd₁, hd₂]
  have hframe : ∀ x, x ∉ .inl k :: (L k).map (Sum.inr : δ → κ ⊕ δ) → _ :=
    fun x hx => (hf.isList k).del_frame (List.mem_map_of_mem hd) hx
  have hnext : ∀ x, x ≠ .inr d →
      (setNext (listDel h (.inr d)) (.node (.inr d)) .null).next x = (listDel h (.inr d)).next x :=
    fun x hx => Function.update_of_ne hx _ _
  have hpre : ∀ x, (setNext (listDel h (.inr d)) (.node (.inr d)) .null).pre x =
      (listDel h (.inr d)).pre x := fun x => rfl
  have hsub : ∀ {i e}, e ∈ Function.update L k ((L k).erase d) i → e ∈ L i := by
    intro i e hi
    by_cases hik : i = k
    · subst hik
      rw [Function.update_self] at hi
      exact List.mem_of_mem_erase hi
    · rwa [Function.update_of_ne hik] at hi
  refine ⟨fun j => ?_, fun i j e hi hj => hf.disjoint i j e (hsub hi) (hsub hj), fun e he => ?_⟩
  · by_cases hj : j = k
    · subst hj
      rw [Function.update_self, herase]
      have hlist := hf.isList j
      rw [hl, List.map_append, List.map_cons] at hlist
      have hdel := hlist.del
      rw [← List.map_append] at hdel
      refine hdel.congr (fun x hx => hnext x ?_) fun x _ => hpre x
      rintro rfl
      have : d ∈ l₁ ++ l₂ := by simpa using hx
      exact hself (herase ▸ this)
    · rw [Function.update_of_ne hj]
      have hother : ∀ x ∈ .inl j :: (L j).map (Sum.inr : δ → κ ⊕ δ),
          x ∉ .inl k :: (L k).map (Sum.inr : δ → κ ⊕ δ) ∧ x ≠ .inr d := by
        intro x hx
        rcases List.mem_cons.1 hx with rfl | hx
        · simpa using hj
        · obtain ⟨e, he, rfl⟩ := List.mem_map.1 hx
          refine ⟨?_, ?_⟩
          · simpa using fun hek => hj (hf.disjoint j k e he hek)
          · rintro heq
            exact hj (hf.disjoint j k d (Sum.inr.inj heq ▸ he) hd)
      refine (hf.isList j).congr (fun x hx => ?_) fun x hx => ?_
      · rw [hnext x (hother x hx).2]
        exact (hframe x (hother x hx).1).1
      · rw [hpre x]
        exact (hframe x (hother x hx).1).2
  · by_cases hed : e = d
    · rw [hed]
      exact Function.update_self _ _ _
    · have hnot : ∀ j, e ∉ L j := by
        intro j hj
        refine he j ?_
        by_cases hjk : j = k
        · subst hjk
          rw [Function.update_self]
          exact (List.mem_erase_of_ne hed).2 hj
        · rwa [Function.update_of_ne hjk]
      rw [hnext _ (by simpa using hed), (hframe (.inr e) (by simpa using hnot k)).1]
      exact hf.null e hnot

/-- A node goes from its list to the end of another one. -/
lemma Family.move (hf : Family h L) (hd : d ∈ L k) (hk : k' ≠ k) :
    Family (listAddTail (listDel h (.inr d)) (.inl k') (.inr d))
      (Function.update (Function.update L k ((L k).erase d)) k' (L k' ++ [d])) := by
  have hnot : ∀ j, d ∉ Function.update L k ((L k).erase d) j := by
    intro j hj
    by_cases hjk : j = k
    · subst hjk
      rw [Function.update_self] at hj
      exact (hf.nodup j).not_mem_erase hj
    · rw [Function.update_of_ne hjk] at hj
      exact hjk (hf.disjoint j k d hj hd)
  have := (hf.del hd).addTail hnot k'
  rwa [listAddTail_setNext, Function.update_of_ne hk] at this

end Family

end DList
