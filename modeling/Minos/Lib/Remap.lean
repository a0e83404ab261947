import Mathlib
import Minos.Lib.Radix

/-!
# Updates of a radix page table

`Remap F n t W R g N m m'` describes an update of the table at `t` (with `n` levels below it,
and covering the addresses `va` with `slot (n + 1) va = W`): the addresses of `R` are now
translated by `g`, all others as before, the table is still a tree, and everything that was
stored lies in the pages the table had or in the new pages `N`.

Updates compose (`Remap.trans`), lift from a table to the one above it (`Remap.lift`), and are made
of two primitive ones: a word that is no table descriptor is stored (`Remap.setEntry`), or a new
table is put under an empty entry (`Remap.grow`).
-/

namespace Radix

open WordMem

structure Remap (F : Format) (n t W : ℕ) (R : Set ℕ) (g : ℕ → Option Leaf) (N : Set ℕ)
    (m m' : Mem) : Prop where
  wf : WF F m' n t
  walk_in : ∀ va, slot (n + 1) va = W → va ∈ R → walk F m' n t va = g va
  walk_out : ∀ va, slot (n + 1) va = W → va ∉ R → walk F m' n t va = walk F m n t va
  pages_sub : pages F m' n t ⊆ pages F m n t ∪ N
  confined : Confined (pages F m n t ∪ N) m m'

variable {F : Format} {n t W : ℕ} {R R' : Set ℕ} {g g' : ℕ → Option Leaf} {N N' : Set ℕ}
  {m m₁ m₂ : Mem}

namespace Remap

lemma refl (g : ℕ → Option Leaf) (h : WF F m n t) : Remap F n t W ∅ g ∅ m m where
  wf := h
  walk_in := fun _ _ hva => absurd hva (Set.notMem_empty _)
  walk_out := fun _ _ _ => rfl
  pages_sub := by simp
  confined := Confined.refl _ _

/-- Only the new translations of the addresses in `R` and in the window of the table count. -/
lemma congr {S : Set ℕ} {f : ℕ → Option Leaf} (h : Remap F n t W R g N m m₁)
    (hR : ∀ va, slot (n + 1) va = W → (va ∈ R ↔ va ∈ S))
    (hg : ∀ va ∈ S, slot (n + 1) va = W → g va = f va) : Remap F n t W S f N m m₁ where
  wf := h.wf
  walk_in := fun va hW hva => by rw [h.walk_in va hW ((hR va hW).mpr hva), hg va hva hW]
  walk_out := fun va hW hva => h.walk_out va hW fun h' => hva ((hR va hW).mp h')
  pages_sub := h.pages_sub
  confined := h.confined

lemma mono (h : Remap F n t W R g N m m₁) (hN : N ⊆ N') : Remap F n t W R g N' m m₁ where
  wf := h.wf
  walk_in := h.walk_in
  walk_out := h.walk_out
  pages_sub := h.pages_sub.trans (Set.union_subset_union_right _ hN)
  confined := h.confined.mono (Set.union_subset_union_right _ hN)

/-- Two updates in a row that agree on the new translations. -/
lemma trans (h₁ : Remap F n t W R g N m m₁) (h₂ : Remap F n t W R' g N' m₁ m₂) :
    Remap F n t W (R ∪ R') g (N ∪ N') m m₂ where
  wf := h₂.wf
  walk_in := by
    intro va hW hva
    by_cases h : va ∈ R'
    · exact h₂.walk_in va hW h
    · rw [h₂.walk_out va hW h]
      exact h₁.walk_in va hW (hva.resolve_right h)
  walk_out := by
    intro va hW hva
    rw [Set.mem_union, not_or] at hva
    rw [h₂.walk_out va hW hva.2, h₁.walk_out va hW hva.1]
  pages_sub := by
    rw [← Set.union_assoc]
    exact h₂.pages_sub.trans (Set.union_subset_union_left _ h₁.pages_sub)
  confined := by
    refine (h₁.confined.mono ?_).trans (h₂.confined.mono ?_)
    · exact Set.union_subset_union_right _ Set.subset_union_left
    · rw [← Set.union_assoc]
      exact Set.union_subset_union_left _ h₁.pages_sub

/-- The part of a table outside the footprint of one of its children, after an update of that
child: the entries of the table and all the other children are as before. -/
lemma frame_of_child {t' : ℕ} (hwf : WF F m (n + 1) t)
    (he : F.decode (n + 1) (m.word (entryAddr t W)) = .table t')
    (hN : ∀ p ∈ N, 4096 ∣ p) (hd : Disjoint N (pages F m (n + 1) t))
    (hc : Confined (pages F m n t' ∪ N) m m₁) :
    (∀ i < 512, m₁.word (t + 8 * i) = m.word (t + 8 * i)) ∧
      ∀ i < 512, i ≠ W % 512 → ∀ t'', F.decode (n + 1) (m.word (t + 8 * i)) = .table t'' →
        AgreeOn (pages F m n t'') m m₁ ∧ Disjoint (pages F m n t' ∪ N) (pages F m n t'') := by
  have hW : W % 512 < 512 := Nat.mod_lt _ (by norm_num)
  have hwf' := hwf.child hW he
  have hal : ∀ p ∈ pages F m n t' ∪ N, 4096 ∣ p := by
    rintro p (hp | hp)
    · exact hwf'.pages_aligned p hp
    · exact hN p hp
  constructor
  · intro i hi
    have hag : AgreeOn {t} m m₁ := by
      refine hc.agreeOn hal (by rintro q rfl; exact hwf.aligned) ?_
      rw [Set.disjoint_singleton_right]
      rintro (hp | hp)
      · exact hwf.root_notMem hW he hp
      · exact Set.disjoint_left.mp hd hp (self_mem_pages m (n + 1) t)
    exact hag t rfl _ (by omega) (by omega)
  · intro i hi hne t'' ht''
    have hdisj : Disjoint (pages F m n t' ∪ N) (pages F m n t'') := by
      refine Disjoint.union_left ?_ (hd.mono_right (pages_child_subset hi ht''))
      exact hwf.disjoint hW hi (Ne.symm hne) he ht''
    exact ⟨hc.agreeOn hal (hwf.child hi ht'').pages_aligned hdisj, hdisj⟩

/-- The pages of a table after an update of one of its children. -/
lemma pages_of_child {t' : ℕ} {N₀ : Set ℕ} (hwf : WF F m (n + 1) t)
    (he : F.decode (n + 1) (m.word (entryAddr t W)) = .table t')
    (hN : ∀ p ∈ N, 4096 ∣ p) (hd : Disjoint N (pages F m (n + 1) t))
    (hc : Confined (pages F m n t' ∪ N) m m₁) (hsub : pages F m₁ n t' ⊆ pages F m n t' ∪ N₀) :
    pages F m₁ (n + 1) t ⊆ pages F m (n + 1) t ∪ N₀ := by
  obtain ⟨hent, hoth⟩ := frame_of_child hwf he hN hd hc
  rintro p (rfl | ⟨i, hi, t'', ht'', hp⟩)
  · exact Or.inl (self_mem_pages m (n + 1) p)
  · rw [hent i hi] at ht''
    by_cases hiW : i = W % 512
    · subst hiW
      rw [entryAddr, ht''] at he
      obtain rfl : t'' = t' := by simpa using he
      exact (hsub hp).imp (fun h => pages_child_subset hi ht'' h) id
    · rw [(congr_of_agreeOn (hoth i hi hiW t'' ht'').1).2.1] at hp
      exact Or.inl (pages_child_subset hi ht'' hp)

/-- An update of a child table is an update of the table above it. -/
lemma lift {t' : ℕ} (h : Remap F n t' W R g N m m₁) (hwf : WF F m (n + 1) t)
    (he : F.decode (n + 1) (m.word (entryAddr t W)) = .table t')
    (hN : ∀ p ∈ N, 4096 ∣ p) (hd : Disjoint N (pages F m (n + 1) t))
    (hR : ∀ va ∈ R, slot (n + 1) va = W) : Remap F (n + 1) t (W / 512) R g N m m₁ := by
  have hW : W % 512 < 512 := Nat.mod_lt _ (by norm_num)
  obtain ⟨hent, hoth⟩ := frame_of_child hwf he hN hd h.confined
  have he₁ : F.decode (n + 1) (m₁.word (t + 8 * (W % 512))) = .table t' := by
    rw [hent _ hW]; exact he
  -- an address of the window of `t` is either below entry `W` or below another entry
  have hslot : ∀ va, slot (n + 1 + 1) va = W / 512 → slot (n + 1) va ≠ W →
      slot (n + 1) va % 512 ≠ W % 512 := by
    intro va hva hne heq
    rw [slot_succ] at hva
    omega
  have hother : ∀ va, slot (n + 1) va % 512 ≠ W % 512 →
      walk F m₁ (n + 1) t va = walk F m (n + 1) t va := by
    intro va hne
    have hlt : slot (n + 1) va % 512 < 512 := Nat.mod_lt _ (by norm_num)
    simp only [walk, entryAddr, hent _ hlt]
    split
    · rfl
    · rfl
    · rename_i t'' ht''
      exact (congr_of_agreeOn (hoth _ hlt hne t'' ht'').1).1 va
  have hthis : ∀ va, slot (n + 1) va = W →
      walk F m₁ (n + 1) t va = walk F m₁ n t' va ∧ walk F m (n + 1) t va = walk F m n t' va := by
    rintro va rfl
    rw [entryAddr] at he
    constructor
    · simp only [walk, entryAddr, he₁]
    · simp only [walk, entryAddr, he]
  have hsub₁ : pages F m₁ n t' ⊆ pages F m (n + 1) t ∪ N :=
    h.pages_sub.trans (Set.union_subset_union_left _ (pages_child_subset hW he))
  have htN : t ∉ N := fun ht => Set.disjoint_left.mp hd ht (self_mem_pages m (n + 1) t)
  have hleg : ∀ i < 512, F.Legal (n + 1) (m₁.word (t + 8 * i)) := fun i hi => by
    rw [hent i hi]
    exact hwf.legal i hi
  refine ⟨⟨⟨hwf.aligned, hleg⟩, fun i hi t'' ht'' => ?_, fun i hi j hj hij a b ha hb => ?_⟩,
    ?_, ?_, ?_, ?_⟩
  · by_cases hiW : i = W % 512
    · subst hiW
      obtain rfl : t' = t'' := by simpa [he₁] using ht''
      refine ⟨h.wf, fun ht => ?_⟩
      exact (h.pages_sub ht).elim (hwf.root_notMem hW he) htN
    · rw [hent i hi] at ht''
      obtain ⟨-, hp, hw⟩ := congr_of_agreeOn (hoth i hi hiW t'' ht'').1
      rw [hp]
      exact ⟨hw (hwf.child hi ht''), hwf.root_notMem hi ht''⟩
  · -- the updated child stays disjoint from every other child
    have key : ∀ j < 512, j ≠ W % 512 → ∀ b,
        F.decode (n + 1) (m₁.word (t + 8 * j)) = .table b →
        Disjoint (pages F m₁ n t') (pages F m₁ n b) := by
      intro j hj hjW b hb
      rw [hent j hj] at hb
      obtain ⟨hag, hdj⟩ := hoth j hj hjW b hb
      rw [(congr_of_agreeOn hag).2.1]
      exact hdj.mono_left h.pages_sub
    by_cases hiW : i = W % 512
    · subst hiW
      obtain rfl : t' = a := by simpa [he₁] using ha
      exact key j hj (Ne.symm hij) b hb
    · by_cases hjW : j = W % 512
      · subst hjW
        obtain rfl : t' = b := by simpa [he₁] using hb
        exact (key i hi hiW a ha).symm
      · rw [hent i hi] at ha
        rw [hent j hj] at hb
        rw [(congr_of_agreeOn (hoth i hi hiW a ha).1).2.1,
          (congr_of_agreeOn (hoth j hj hjW b hb).1).2.1]
        exact hwf.disjoint hi hj hij ha hb
  · intro va _ hva
    rw [(hthis va (hR va hva)).1, h.walk_in va (hR va hva) hva]
  · intro va hwin hva
    by_cases hvaW : slot (n + 1) va = W
    · rw [(hthis va hvaW).1, (hthis va hvaW).2, h.walk_out va hvaW hva]
    · exact hother va (hslot va hwin hvaW)
  · rintro p (rfl | ⟨i, hi, t'', ht'', hp⟩)
    · exact Or.inl (self_mem_pages m (n + 1) p)
    · by_cases hiW : i = W % 512
      · subst hiW
        obtain rfl : t' = t'' := by simpa [he₁] using ht''
        exact hsub₁ hp
      · rw [hent i hi] at ht''
        rw [(congr_of_agreeOn (hoth i hi hiW t'' ht'').1).2.1] at hp
        exact Or.inl (pages_child_subset hi ht'' hp)
  · exact h.confined.mono (Set.union_subset_union_left _ (pages_child_subset hW he))

end Remap

/-! ### Primitive updates -/

/-- The translation an entry gives by itself. -/
def Entry.out (n va : ℕ) : Entry → Option Leaf
  | .leaf b => some ⟨n, b + va % 2 ^ (12 + 9 * n)⟩
  | _ => none

lemma walk_eq_out {va : ℕ} (h : ∀ a, F.decode n (m.word (entryAddr t (slot n va))) ≠ .table a) :
    walk F m n t va = (F.decode n (m.word (entryAddr t (slot n va)))).out n va := by
  cases n with
  | zero => cases hd : F.decode 0 (m.word (entryAddr t (slot 0 va))) <;> simp [walk, hd, Entry.out]
  | succ n =>
    cases hd : F.decode (n + 1) (m.word (entryAddr t (slot (n + 1) va))) with
    | fault => simp [walk, hd, Entry.out]
    | leaf b => simp [walk, hd, Entry.out]
    | table a => exact absurd hd (h a)

/-- A table whose words are all zero translates nothing and has nothing below it. -/
lemma zero_table (hz : ∀ a, t ≤ a → a < t + 4096 → m.word a = 0) (ht : 4096 ∣ t) :
    WF F m n t ∧ pages F m n t = {t} ∧ ∀ va, walk F m n t va = none := by
  have hw : ∀ i < 512, F.decode n (m.word (t + 8 * i)) = .fault := fun i hi => by
    rw [hz _ (by omega) (by omega), F.decode_zero]
  have hleg : ∀ i < 512, F.Legal n (m.word (t + 8 * i)) := fun i hi => by
    rw [hz _ (by omega) (by omega)]
    exact F.legal_zero n
  have hwalk : ∀ va, walk F m n t va = none := fun va => by
    have hent := hw _ (Nat.mod_lt (slot n va) (show 0 < 512 by norm_num))
    rw [walk_eq_out] <;> simp [entryAddr, hent, Entry.out]
  cases n with
  | zero => exact ⟨⟨ht, hleg⟩, rfl, hwalk⟩
  | succ n =>
    refine ⟨⟨⟨ht, hleg⟩, fun i hi t' h' => ?_, fun i hi j _ _ t' _ h' => ?_⟩, ?_, hwalk⟩
    · simp [hw i hi] at h'
    · simp [hw i hi] at h'
    · ext p
      constructor
      · rintro (rfl | ⟨i, hi, t', h', -⟩)
        · rfl
        · simp [hw i hi] at h'
      · rintro rfl
        exact Or.inl rfl

/-- Storing an entry touches no table below. -/
lemma agreeOn_child_store {d e i t' : ℕ} (hwf : WF F m (n + 1) t) (hi : i < 512)
    (ht' : F.decode (n + 1) (m.word (t + 8 * i)) = .table t') :
    AgreeOn (pages F m n t') m (m.store (entryAddr t e) d) := by
  have hb := entryAddr_bounds t e
  refine Confined.agreeOn (P := {t}) (Confined.store m d ⟨t, rfl, hb⟩) ?_ ?_ ?_
  · rintro p rfl
    exact hwf.aligned
  · exact (hwf.child hi ht').pages_aligned
  · rw [Set.disjoint_singleton_left]
    exact hwf.root_notMem hi ht'

lemma store_entry_ne {d e i : ℕ} (hne : i ≠ e % 512) :
    (m.store (entryAddr t e) d).word (t + 8 * i) = m.word (t + 8 * i) := by
  apply m.store_word_ne
  unfold entryAddr
  omega

lemma store_entry_legal {d e : ℕ} (hwf : WF F m n t) (hleg : F.Legal n d) :
    ∀ i < 512, F.Legal n ((m.store (entryAddr t e) d).word (t + 8 * i)) := by
  intro i hi
  by_cases hie : i = e % 512
  · subst hie
    rw [show t + 8 * (e % 512) = entryAddr t e from rfl, m.store_word_self]
    exact hleg
  · rw [store_entry_ne hie]
    exact hwf.legal i hi

/-- Storing a word that is no table descriptor gives one slot a new translation. -/
lemma Remap.setEntry (hwf : WF F m n t) {d e : ℕ} (hleg : F.Legal n d)
    (hd : ∀ a, F.decode n d ≠ .table a) (he : e / 512 = W) :
    Remap F n t W {va | slot n va = e} (fun va => (F.decode n d).out n va) ∅ m
      (m.store (entryAddr t e) d) := by
  have hb := entryAddr_bounds t e
  have hself : (m.store (entryAddr t e) d).word (t + 8 * (e % 512)) = d := m.store_word_self _ _
  have hin : ∀ va, slot n va = e →
      walk F (m.store (entryAddr t e) d) n t va = (F.decode n d).out n va := by
    rintro va rfl
    rw [walk_eq_out] <;> simp [hd]
  have hmod : ∀ va, slot (n + 1) va = W → slot n va ≠ e → slot n va % 512 ≠ e % 512 := by
    intro va hva hne heq
    rw [slot_succ] at hva
    omega
  have hconf : Confined (pages F m n t ∪ ∅) m (m.store (entryAddr t e) d) :=
    Confined.store m d ⟨t, Or.inl (self_mem_pages m n t), hb⟩
  cases n with
  | zero =>
    refine ⟨⟨hwf.aligned, store_entry_legal hwf hleg⟩, fun va _ hva => hin va hva,
      fun va hwin hva => ?_, by simp [pages], hconf⟩
    have hne := hmod va hwin hva
    have hlt : slot 0 va % 512 < 512 := Nat.mod_lt _ (by norm_num)
    simp only [walk]
    rw [show entryAddr t (slot 0 va) = t + 8 * (slot 0 va % 512) from rfl,
      store_entry_ne hne]
  | succ n =>
    have hchild := fun {i t'} (hi : i < 512)
        (ht' : F.decode (n + 1) (m.word (t + 8 * i)) = .table t') =>
      congr_of_agreeOn (agreeOn_child_store (d := d) (e := e) hwf hi ht')
    -- a table entry of the new table is one of the old table, and not the stored one
    have hold : ∀ i < 512, ∀ t', F.decode (n + 1)
        ((m.store (entryAddr t e) d).word (t + 8 * i)) = .table t' →
        F.decode (n + 1) (m.word (t + 8 * i)) = .table t' := by
      intro i hi t' ht'
      by_cases hie : i = e % 512
      · subst hie
        rw [hself] at ht'
        exact absurd ht' (hd t')
      · rwa [store_entry_ne hie] at ht'
    refine ⟨⟨⟨hwf.aligned, store_entry_legal hwf hleg⟩, fun i hi t' ht' => ?_,
      fun i hi j hj hij a b ha hb' => ?_⟩, fun va _ hva => hin va hva,
      fun va hwin hva => ?_, ?_, hconf⟩
    · have ht := hold i hi t' ht'
      rw [(hchild hi ht).2.1]
      exact ⟨(hchild hi ht).2.2 (hwf.child hi ht), hwf.root_notMem hi ht⟩
    · have ha' := hold i hi a ha
      have hb'' := hold j hj b hb'
      rw [(hchild hi ha').2.1, (hchild hj hb'').2.1]
      exact hwf.disjoint hi hj hij ha' hb''
    · have hne := hmod va hwin hva
      have hlt : slot (n + 1) va % 512 < 512 := Nat.mod_lt _ (by norm_num)
      simp only [walk, entryAddr]
      rw [show t + 8 * (e % 512) = entryAddr t e from rfl, store_entry_ne hne]
      split
      · rfl
      · rfl
      · rename_i t' ht'
        exact (hchild hlt ht').1 va
    · rintro p (rfl | ⟨i, hi, t', ht', hp⟩)
      · exact Or.inl (self_mem_pages m (n + 1) p)
      · have ht := hold i hi t' ht'
        rw [(hchild hi ht).2.1] at hp
        exact Or.inl (pages_child_subset hi ht hp)

/-- Putting an empty table under an empty entry changes no translation. -/
lemma Remap.grow (g : ℕ → Option Leaf) (hwf : WF F m (n + 1) t) {p d e : ℕ} (hc : Confined {p} m m₁)
    (hz : ∀ a, p ≤ a → a < p + 4096 → m₁.word a = 0) (hp : 4096 ∣ p)
    (hfresh : p ∉ pages F m (n + 1) t) (hleg : F.Legal (n + 1) d)
    (hd : F.decode (n + 1) d = .table p)
    (hold : F.decode (n + 1) (m.word (entryAddr t e)) = .fault) :
    Remap F (n + 1) t W ∅ g {p} m (m₁.store (entryAddr t e) d) := by
  have hb := entryAddr_bounds t e
  have hpt : p ≠ t := by
    rintro rfl
    exact hfresh (self_mem_pages m (n + 1) p)
  set m₂ := m₁.store (entryAddr t e) d with hm₂
  have hself : m₂.word (t + 8 * (e % 512)) = d := m₁.store_word_self _ _
  have hconf : Confined ({p} ∪ {t}) m m₂ :=
    (hc.mono Set.subset_union_left).trans (Confined.store m₁ d ⟨t, Or.inr rfl, hb⟩)
  have hal : ∀ q ∈ ({p} ∪ {t} : Set ℕ), 4096 ∣ q := by
    rintro q (rfl | rfl)
    · exact hp
    · exact hwf.aligned
  have hnew := zero_table (F := F) (n := n) (m := m₂) (t := p) (fun a h₁ h₂ => by
    rw [← hz a h₁ h₂]
    apply m₁.store_word_ne
    rintro rfl
    exact hpt (page_eq_of_inPage hp hwf.aligned ⟨h₁, h₂⟩ hb)) hp
  have hent : ∀ i < 512, i ≠ e % 512 → m₂.word (t + 8 * i) = m.word (t + 8 * i) := by
    intro i hi hne
    rw [hm₂, store_entry_ne hne]
    refine hc.agreeOn (Q := {t}) (by rintro q rfl; exact hp) (by rintro q rfl; exact hwf.aligned)
      ?_ t rfl
      _ (by omega) (by omega)
    simpa using hpt
  have hchild : ∀ i < 512, ∀ t', F.decode (n + 1) (m.word (t + 8 * i)) = .table t' →
      AgreeOn (pages F m n t') m m₂ := by
    intro i hi t' ht'
    refine hconf.agreeOn hal (hwf.child hi ht').pages_aligned ?_
    refine Disjoint.union_left ?_ ?_
    · rw [Set.disjoint_singleton_left]
      exact fun h => hfresh (pages_child_subset hi ht' h)
    · rw [Set.disjoint_singleton_left]
      exact hwf.root_notMem hi ht'
  -- the table entries after the update: the new one, and the old ones
  have hcases : ∀ i < 512, ∀ t', F.decode (n + 1) (m₂.word (t + 8 * i)) = .table t' →
      (i = e % 512 ∧ t' = p) ∨
        (i ≠ e % 512 ∧ F.decode (n + 1) (m.word (t + 8 * i)) = .table t') := by
    intro i hi t' ht'
    by_cases hie : i = e % 512
    · subst hie
      rw [hself, hd] at ht'
      exact Or.inl ⟨rfl, by simpa using ht'.symm⟩
    · rw [hent i hi hie] at ht'
      exact Or.inr ⟨hie, ht'⟩
  have hpn : ∀ i < 512, ∀ t', F.decode (n + 1) (m.word (t + 8 * i)) = .table t' →
      p ∉ pages F m n t' := fun i hi t' ht' h => hfresh (pages_child_subset hi ht' h)
  have hleg' : ∀ i < 512, F.Legal (n + 1) (m₂.word (t + 8 * i)) := by
    intro i hi
    by_cases hie : i = e % 512
    · subst hie
      rw [hself]
      exact hleg
    · rw [hent i hi hie]
      exact hwf.legal i hi
  refine ⟨⟨⟨hwf.aligned, hleg'⟩, fun i hi t' ht' => ?_, fun i hi j hj hij a b ha hb' => ?_⟩,
    fun _ _ h => absurd h (Set.notMem_empty _), fun va _ _ => ?_, ?_, ?_⟩
  · rcases hcases i hi t' ht' with ⟨-, rfl⟩ | ⟨-, ht⟩
    · rw [hnew.2.1]
      exact ⟨hnew.1, fun h => hpt h.symm⟩
    · obtain ⟨-, hpg, hw⟩ := congr_of_agreeOn (hchild i hi t' ht)
      rw [hpg]
      exact ⟨hw (hwf.child hi ht), hwf.root_notMem hi ht⟩
  · rcases hcases i hi a ha with ⟨hie, rfl⟩ | ⟨-, ha'⟩ <;>
      rcases hcases j hj b hb' with ⟨hje, rfl⟩ | ⟨-, hb''⟩
    · exact absurd (hie.trans hje.symm) hij
    · rw [hnew.2.1, (congr_of_agreeOn (hchild j hj b hb'')).2.1, Set.disjoint_singleton_left]
      exact hpn j hj b hb''
    · rw [hnew.2.1, (congr_of_agreeOn (hchild i hi a ha')).2.1, Set.disjoint_singleton_right]
      exact hpn i hi a ha'
    · rw [(congr_of_agreeOn (hchild i hi a ha')).2.1, (congr_of_agreeOn (hchild j hj b hb'')).2.1]
      exact hwf.disjoint hi hj hij ha' hb''
  · have hlt : slot (n + 1) va % 512 < 512 := Nat.mod_lt _ (by norm_num)
    by_cases hva : slot (n + 1) va % 512 = e % 512
    · have h₁ : walk F m (n + 1) t va = none := by
        rw [entryAddr] at hold
        simp only [walk, entryAddr, hva, hold]
      have h₂ : walk F m₂ (n + 1) t va = walk F m₂ n p va := by
        simp only [walk, entryAddr, hva, hself, hd]
      rw [h₁, h₂, hnew.2.2]
    · simp only [walk, entryAddr, hent _ hlt hva]
      split
      · rfl
      · rfl
      · rename_i t' ht'
        exact (congr_of_agreeOn (hchild _ hlt t' ht')).1 va
  · rintro q (rfl | ⟨i, hi, t', ht', hq⟩)
    · exact Or.inl (self_mem_pages m (n + 1) q)
    · rcases hcases i hi t' ht' with ⟨-, rfl⟩ | ⟨-, ht⟩
      · rw [hnew.2.1] at hq
        exact Or.inr hq
      · rw [(congr_of_agreeOn (hchild i hi t' ht)).2.1] at hq
        exact Or.inl (pages_child_subset hi ht hq)
  · refine hconf.mono ?_
    rintro q (rfl | rfl)
    · exact Or.inr rfl
    · exact Or.inl (self_mem_pages m (n + 1) q)

/-! ### Clearing an entry -/

/-- The table with `k` levels below it that the translation of `va` goes through. -/
def tableAt (F : Format) (m : Mem) (va k : ℕ) : ℕ → ℕ → Option ℕ
  | 0, t => if k = 0 then some t else none
  | n + 1, t =>
    if k = n + 1 then some t
    else match F.decode (n + 1) (m.word (entryAddr t (slot (n + 1) va))) with
      | .table t' => tableAt F m va k n t'
      | _ => none

lemma tableAt_self {va : ℕ} : tableAt F m va n n t = some t := by
  cases n <;> simp [tableAt]

lemma tableAt_succ {va k t' : ℕ} (hk : k ≤ n)
    (h : F.decode (n + 1) (m.word (entryAddr t (slot (n + 1) va))) = .table t') :
    tableAt F m va k (n + 1) t = tableAt F m va k n t' := by
  have hne : k ≠ n + 1 := by omega
  simp only [tableAt, if_neg hne, h]

lemma tableAt_le {va k t' : ℕ} (h : tableAt F m va k n t = some t') : k ≤ n := by
  induction n generalizing t with
  | zero =>
    simp only [tableAt] at h
    split_ifs at h with hk
    exact hk.le
  | succ n ih =>
    simp only [tableAt] at h
    split_ifs at h with hk
    · exact hk.le
    · split at h
      · exact (ih h).trans (Nat.le_succ n)
      · simp at h

/-- Setting an entry to zero takes away the translations of its slot, and nothing else. -/
lemma Remap.clear {va k t' : ℕ} (hwf : WF F m n t) (h : tableAt F m va k n t = some t') :
    Remap F n t (slot (n + 1) va) {va' | slot k va' = slot k va} (fun _ => none) ∅ m
      (m.store (entryAddr t' (slot k va)) 0) := by
  induction n generalizing t with
  | zero =>
    simp only [tableAt] at h
    split_ifs at h with hk
    obtain rfl := Option.some.inj h
    subst hk
    have hset := Remap.setEntry (W := slot 1 va) hwf (d := 0) (e := slot 0 va) (F.legal_zero 0)
      (by simp [F.decode_zero]) (slot_succ 0 va).symm
    simpa [F.decode_zero, Entry.out] using hset
  | succ n ih =>
    by_cases hk : k = n + 1
    · subst hk
      obtain rfl : t = t' := by simpa [tableAt] using h
      have hset := Remap.setEntry (W := slot (n + 1 + 1) va) hwf (d := 0) (e := slot (n + 1) va)
        (F.legal_zero _) (by simp [F.decode_zero]) (slot_succ (n + 1) va).symm
      simpa [F.decode_zero, Entry.out] using hset
    · simp only [tableAt, if_neg hk] at h
      split at h
      · rename_i t₁ hd
        have hlt : slot (n + 1) va % 512 < 512 := Nat.mod_lt _ (by norm_num)
        have hr := ih (hwf.child hlt hd) h
        -- the slot lies below one entry of the table above
        have hlift := hr.lift hwf hd (by simp) (by simp)
          (fun va' hva' => slot_mono_eq ((tableAt_le h).trans (Nat.le_succ n)) hva')
        rwa [← slot_succ] at hlift
      · simp at h

end Radix
