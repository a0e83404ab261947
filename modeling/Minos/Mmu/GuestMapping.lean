import Mathlib
import Minos.Mmu.CreateSpec

/-!
# Guest mappings

A guest table is one `PUD` table and what is below it. `create_mem_mapping` cuts the range at the
multiples of 1GiB; a piece whose start and size are multiples of 2MiB is mapped by blocks, any
other piece by pages (`guestTarget`).
-/

namespace Minos.Mmu

open Radix WordMem

variable {σ : Type} {A : PageOps σ} {F : Format} {t W : ℕ}

/-- The guest address space below one root page, 512GiB. -/
def GUEST_SPACE : ℕ := 0x8000000000

/-- The stage 2 translation of a guest address. -/
def guestTranslate (m : Mem) (root va : ℕ) : Option ℕ :=
  (walk guestFormat m 2 root va).map Leaf.out

/-! ### Pieces of a range -/

/-- Where the piece of the range from `lo` on that has `va` in it starts. -/
def pieceStart (lo va : ℕ) : ℕ := max lo (va / SIZE_1G * SIZE_1G)

/-- Where the piece of the range up to `hi` that has `va` in it ends. -/
def pieceEnd (hi va : ℕ) : ℕ := min hi (va / SIZE_1G * SIZE_1G + SIZE_1G)

/-- The piece of the range with `va` in it is mapped by blocks. -/
def BlockPiece (lo hi va : ℕ) : Prop :=
  SIZE_2M ∣ pieceStart lo va ∧ SIZE_2M ∣ pieceEnd hi va - pieceStart lo va

instance (lo hi va : ℕ) : Decidable (BlockPiece lo hi va) :=
  inferInstanceAs (Decidable (_ ∧ _))

/-- The translation of `va` after the range from `lo` to `hi` was mapped to `phy`. -/
def guestTarget (lo hi phy va : ℕ) : Option Leaf :=
  some (if BlockPiece lo hi va then ⟨1, leafOut 1 lo phy va⟩ else ⟨0, (phy + (va - lo)) % 2 ^ 48⟩)

lemma Piece.bounds {lo hi v sz va : ℕ} (h : Piece lo hi (2 ^ 30) v sz)
    (hva : va ∈ Set.Ico v (v + sz)) : pieceStart lo va = v ∧ pieceEnd hi va = v + sz := by
  obtain ⟨h₁, h₂⟩ := Set.mem_Ico.mp hva
  have hsame := h.same va hva
  have hlast := h.same (v + sz - 1)
    (Set.mem_Ico.mpr ⟨by have := h.pos; omega, by have := h.pos; omega⟩)
  have hlo := h.lo_le
  have hpos := h.pos
  have hhi := h.le_hi
  have hstart := h.start
  have hstop := h.stop
  unfold pieceStart pieceEnd SIZE_1G
  omega

/-- The pieces of a range of whole pages are ranges of whole pages. -/
lemma Piece.page_bounds {lo hi ms v sz : ℕ} (h : Piece lo hi ms v sz) (hms : 4096 ∣ ms)
    (hlo : 4096 ∣ lo) (hhi : 4096 ∣ hi) : 4096 ∣ v ∧ 4096 ∣ v + sz := by
  constructor
  · rcases h.start with rfl | h
    · exact hlo
    · exact dvd_trans hms h
  · rcases h.stop with h | h
    · exact h ▸ hhi
    · exact dvd_trans hms h

/-! ### The levels -/

lemma getMapType_pte {t v p sz flags : ℕ} (hg : flags &&& VM_HOST = 0) :
    getMapType ⟨t, v, p, sz, .pte, flags⟩ = VM_DES_PAGE := by
  simp [getMapType, hg]

lemma getMapType_pmd {t v p sz flags : ℕ} (hg : flags &&& VM_HOST = 0) :
    getMapType ⟨t, v, p, sz, .pmd, flags⟩ =
      if SIZE_2M ∣ v ∧ SIZE_2M ∣ sz then VM_DES_BLOCK else VM_DES_TABLE := by
  have hmask : Level.pmd.mapSize - 1 = 2 ^ 21 - 1 := rfl
  simp only [getMapType, hg, hmask, Nat.and_two_pow_sub_one_eq_mod, ne_eq, not_true_eq_false,
    if_false, reduceCtorEq]
  split_ifs <;> simp_all [Nat.dvd_iff_mod_eq_zero, SIZE_2M]

/-- The call for a piece of 2MiB or less. -/
lemma createEntry_pte_maps (hF : IsDes F) {flags lo hi phy : ℕ}
    (hdes : flags &&& VM_DES_MASK = 0) (hg : flags &&& VM_HOST = 0) (hlo : 4096 ∣ lo)
    (hhi : 4096 ∣ hi) (hphy : 4096 ∣ phy) :
    ChildMaps A F .pte flags lo hi phy (fun _ _ => True)
      (fun va => some ⟨0, (phy + (va - lo)) % 2 ^ 48⟩) := by
  intro v sz t' s₁ s₂ hpiece hwf₁ hs₁ _ _ hcall
  rw [createEntry, getMapType_pte hg, if_neg (by decide)] at hcall
  obtain ⟨hv, hend⟩ := hpiece.page_bounds (by decide) hlo hhi
  refine (createPageEntry_maps hF (Or.inl rfl) hdes (phyAt_lt _ _ _) hv
    ((Nat.dvd_add_right hv).mp hend) hpiece.pos hpiece.same hwf₁ hs₁ hcall).congr
    (fun _ _ => Iff.rfl) (fun va hva _ => ?_)
  simp only [Level.below, leafOut_page hlo hphy hpiece.lo_le hv (Set.mem_Ico.mp hva).1]

lemma phyAt_self {lo phy : ℕ} (hp : phy < 2 ^ 64) : phyAt lo phy lo = phy := by
  rw [phyAt, Nat.sub_self, add_zero, Nat.mod_eq_of_lt hp]

/-- A `PMD` table is filled by pages. -/
lemma createTableEntry_pmd_maps (hF : IsDes F) {flags lo hi phy : ℕ}
    (hdes : flags &&& VM_DES_MASK = 0) (hg : flags &&& VM_HOST = 0) (hlo : 4096 ∣ lo)
    (hhi : 4096 ∣ hi) (hphy : 4096 ∣ phy) (hp : phy < 2 ^ 64) (hle : lo ≤ hi)
    (hbound : hi + 2 ^ 21 ≤ 2 ^ 64) {s s' : MmState σ} (hW : ∀ va ∈ Set.Ico lo hi, slot 2 va = W)
    (hwf : WF F s.mem 1 t) (hs : Supply A s.alloc)
    (hd : Disjoint (avail A s.alloc) (pages F s.mem 1 t))
    (hleaf : ∀ va ∈ Set.Ico lo hi, ∀ x, walk F s.mem 1 t va = some x → x.lvl ≠ 1)
    (h : createTableEntry A ⟨t, lo, phy, hi - lo, .pmd, flags⟩ s = (0, s')) :
    Maps A F 1 t W (Set.Ico lo hi) (fun va => some ⟨0, (phy + (va - lo)) % 2 ^ 48⟩) s s' := by
  rw [← phyAt_self hp] at h
  exact createTableEntry_maps hF (l := .pmd) rfl hdes
    (createEntry_pte_maps hF hdes hg hlo hhi hphy) hbound _ lo s s' rfl le_rfl hle
    (fun _ => Or.inl rfl) hW hwf hs hd (fun va hva => ⟨trivial, hleaf va hva⟩) h

/-- What a guest mapping needs of the entries that are there: no block where it fills a table. -/
def NoBlockUnder (lo hi va : ℕ) (x : Option Leaf) : Prop :=
  ¬ BlockPiece lo hi va → ∀ y, x = some y → y.lvl ≠ 1

/-- The call for a piece of 1GiB or less. -/
lemma createEntry_pmd_maps (hF : IsDes F) {flags lo hi phy : ℕ}
    (hdes : flags &&& VM_DES_MASK = 0) (hg : flags &&& VM_HOST = 0) (hlo : 4096 ∣ lo)
    (hhi : 4096 ∣ hi) (hphy : 4096 ∣ phy) (hbound : hi + 2 ^ 30 ≤ 2 ^ 64) :
    ChildMaps A F .pmd flags lo hi phy (NoBlockUnder lo hi) (guestTarget lo hi phy) := by
  intro v sz t' s₁ s₂ hpiece hwf hs hd hQ hcall
  obtain ⟨hv, hend⟩ := hpiece.page_bounds (by decide) hlo hhi
  have hblock : ∀ va ∈ Set.Ico v (v + sz),
      (BlockPiece lo hi va ↔ SIZE_2M ∣ v ∧ SIZE_2M ∣ sz) := by
    intro va hva
    obtain ⟨h₁, h₂⟩ := hpiece.bounds hva
    rw [BlockPiece, h₁, h₂, Nat.add_sub_cancel_left]
  have hle := hpiece.lo_le
  rw [createEntry, getMapType_pmd hg] at hcall
  by_cases hb : SIZE_2M ∣ v ∧ SIZE_2M ∣ sz
  · rw [if_pos hb, if_neg (by decide)] at hcall
    refine (createPageEntry_maps hF (Or.inr rfl) hdes (phyAt_lt _ _ _) hb.1 hb.2 hpiece.pos
      hpiece.same hwf hs hcall).congr (fun _ _ => Iff.rfl) (fun va hva _ => ?_)
    have hva' := (Set.mem_Ico.mp hva).1
    rw [guestTarget, if_pos ((hblock va hva).mpr hb)]
    have hv2 := hb.1
    simp only [Level.below, Option.some.injEq, Leaf.mk.injEq, true_and]
    unfold leafOut outField phyAt
    unfold SIZE_2M at hv2
    omega
  · rw [if_neg hb, if_pos rfl] at hcall
    have hleaf : ∀ va ∈ Set.Ico v (v + sz), ∀ x, walk F s₁.mem 1 t' va = some x → x.lvl ≠ 1 :=
      fun va hva => hQ va hva (fun h => hb ((hblock va hva).mp h))
    have hphyv : 4096 ∣ phyAt lo phy v := by
      unfold phyAt
      omega
    have hcall' : createTableEntry A ⟨t', v, phyAt lo phy v, v + sz - v, .pmd, flags⟩ s₁ =
        (0, s₂) := by
      rw [Nat.add_sub_cancel_left]
      exact hcall
    refine (createTableEntry_pmd_maps hF hdes hg hv hend hphyv (phyAt_lt _ _ _)
      (Nat.le_add_right _ _) (by have := hpiece.le_hi; omega) hpiece.same hwf hs hd hleaf
      hcall').congr (fun _ _ => Iff.rfl) (fun va hva _ => ?_)
    have hva' := (Set.mem_Ico.mp hva).1
    rw [guestTarget, if_neg (fun h => hb ((hblock va hva).mp h))]
    simp only [Option.some.injEq, Leaf.mk.injEq, true_and]
    unfold phyAt
    omega

/-- A leaf in the root of a guest table would be a 1GiB block, and there are none. -/
lemma walk_guest_lvl_ne_two {plain : Bool} {m : Mem} {root va : ℕ} {x : Leaf}
    (hwf : WF (desFormat plain false) m 2 root)
    (h : walk (desFormat plain false) m 2 root va = some x) : x.lvl ≠ 2 := by
  have hleg := hwf.legal (slot 2 va % 512) (Nat.mod_lt _ (by norm_num))
  rw [← entryAddr] at hleg
  rcases walk_cases h with ⟨b, hd, -⟩ | ⟨t', -, h'⟩
  · have hne : m.word (entryAddr root (slot 2 va)) % 4 ≠ 1 := by
      simp only [desFormat, Bool.false_eq_true, and_false, or_false] at hleg
      omega
    by_cases h3 : m.word (entryAddr root (slot 2 va)) % 4 = 3
    · simp [desFormat, desDecode, h3] at hd
    · simp [desFormat, desDecode, h3, hne] at hd
  · exact ne_of_lt (Nat.lt_succ_of_le (walk_lvl_le h'))

/-- What a successful guest mapping does to the table. -/
lemma createMemMapping_guest_maps {plain : Bool} {root vir phy size flags : ℕ} {s s' : MmState σ}
    (hdes : flags &&& VM_DES_MASK = 0) (hg : flags &&& VM_HOST = 0) (hvir : 4096 ∣ vir)
    (hsize : 4096 ∣ size) (hphy : 4096 ∣ phy) (hp : phy < 2 ^ 64)
    (hend : vir + size ≤ GUEST_SPACE) (hwf : WF (desFormat plain false) s.mem 2 root)
    (hs : Supply A s.alloc)
    (hd : Disjoint (avail A s.alloc) (pages (desFormat plain false) s.mem 2 root))
    (hQ : ∀ va ∈ Set.Ico vir (vir + size),
      NoBlockUnder vir (vir + size) va (walk (desFormat plain false) s.mem 2 root va))
    (h : createMemMapping A root vir phy size flags s = (0, s')) :
    Maps A (desFormat plain false) 2 root 0 (Set.Ico vir (vir + size))
      (guestTarget vir (vir + size) phy)
      s s' := by
  unfold GUEST_SPACE at hend
  have hbound : vir + size + 2 ^ 30 ≤ 2 ^ 64 := by omega
  have hchild := createEntry_pmd_maps (A := A) (isDes_desFormat plain false) hdes hg hvir
    ((Nat.dvd_add_right hvir).mpr hsize) hphy hbound
  rw [createMemMapping, startLevel, hg, if_neg (by simp), ← phyAt_self hp,
    show size = vir + size - vir by omega] at h
  refine createTableEntry_maps (isDes_desFormat _ _) (l := .pud) rfl hdes hchild hbound _ vir s s'
    rfl
    le_rfl (Nat.le_add_right _ _) (fun _ => Or.inl rfl) (fun va hva => ?_) hwf hs hd
    (fun va hva => ⟨hQ va hva, fun x hx => walk_guest_lvl_ne_two hwf hx⟩) h
  have := (Set.mem_Ico.mp hva).2
  exact Nat.div_eq_of_lt (show va < 2 ^ 39 by omega)

/-! ### Exactness -/

/-- With block aligned addresses a block gives the same output as pages would. -/
lemma leafOut_block {vir phy va : ℕ} (hvir : vir ≤ va / 2 ^ 21 * 2 ^ 21)
    (hcong : vir % SIZE_2M = phy % SIZE_2M) :
    leafOut 1 vir phy va = (phy + (va - vir)) % 2 ^ 48 := by
  unfold leafOut outField
  unfold SIZE_2M at hcong
  omega

/-- A piece that is mapped by blocks holds a whole block from the start of the range on. -/
lemma BlockPiece.bounds {vir size va : ℕ} (h : BlockPiece vir (vir + size) va)
    (hva : va ∈ Set.Ico vir (vir + size)) : SIZE_2M ≤ size ∧ vir ≤ va / 2 ^ 21 * 2 ^ 21 := by
  obtain ⟨h₁, h₂⟩ := Set.mem_Ico.mp hva
  obtain ⟨hs, he⟩ := h
  unfold pieceStart pieceEnd SIZE_1G SIZE_2M at *
  omega

/-- The output of a new translation, when a piece that is mapped by blocks differs from the physical
addresses by whole blocks. -/
lemma guestTarget_out_of_block {lo hi phy va : ℕ}
    (hcong : BlockPiece lo hi va → lo % SIZE_2M = phy % SIZE_2M) (hva : va ∈ Set.Ico lo hi) :
    (guestTarget lo hi phy va).map Leaf.out = some ((phy + (va - lo)) % 2 ^ 48) := by
  obtain ⟨size, rfl⟩ := Nat.exists_eq_add_of_le (show lo ≤ hi by
    have := Set.mem_Ico.mp hva
    omega)
  rw [guestTarget]
  split_ifs with hb
  · rw [Option.map_some, leafOut_block (hb.bounds hva).2 (hcong hb)]
  · rfl

lemma guestTarget_out {vir size phy va : ℕ}
    (hcong : size < SIZE_2M ∨ vir % SIZE_2M = phy % SIZE_2M)
    (hva : va ∈ Set.Ico vir (vir + size)) :
    (guestTarget vir (vir + size) phy va).map Leaf.out = some ((phy + (va - vir)) % 2 ^ 48) := by
  refine guestTarget_out_of_block (fun hb => ?_) hva
  have := (hb.bounds hva).1
  exact hcong.resolve_left (by omega)

/-- A guest mapping is exact: every address of the range is translated to the physical address
that goes with it (an output address has 48 bits), and every other address as before. -/
theorem createMemMapping_guest_exact {root vir phy size flags : ℕ} {s s' : MmState σ}
    (hwf : WF guestFormat s.mem 2 root) (hs : Supply A s.alloc)
    (hfresh : Disjoint (avail A s.alloc) (pages guestFormat s.mem 2 root))
    (hguest : flags &&& VM_HOST = 0) (hdes : flags &&& VM_DES_MASK = 0)
    (hvir : 4096 ∣ vir) (hphy : 4096 ∣ phy) (hsize : 4096 ∣ size) (hphy64 : phy < 2 ^ 64)
    (hend : vir + size ≤ GUEST_SPACE)
    (hcong : size < SIZE_2M ∨ vir % SIZE_2M = phy % SIZE_2M)
    (hfree : ∀ va ∈ Set.Ico vir (vir + size), guestTranslate s.mem root va = none)
    (hret : createMemMapping A root vir phy size flags s = (0, s')) :
    (∀ va ∈ Set.Ico vir (vir + size),
      guestTranslate s'.mem root va = some ((phy + (va - vir)) % 2 ^ 48)) ∧
    (phy + size ≤ 2 ^ 48 → ∀ va ∈ Set.Ico vir (vir + size),
      guestTranslate s'.mem root va = some (phy + (va - vir))) ∧
    ∀ va < GUEST_SPACE, va ∉ Set.Ico vir (vir + size) →
      guestTranslate s'.mem root va = guestTranslate s.mem root va := by
  have hQ : ∀ va ∈ Set.Ico vir (vir + size),
      NoBlockUnder vir (vir + size) va (walk guestFormat s.mem 2 root va) := by
    intro va hva _ x hx
    have := hfree va hva
    simp [guestTranslate, hx] at this
  have hm := createMemMapping_guest_maps hdes hguest hvir hsize hphy hphy64 hend hwf hs hfresh hQ
    hret
  have hslot : ∀ va < GUEST_SPACE, slot 3 va = 0 := fun va hva => Nat.div_eq_of_lt hva
  have hin : ∀ va ∈ Set.Ico vir (vir + size),
      guestTranslate s'.mem root va = some ((phy + (va - vir)) % 2 ^ 48) := by
    intro va hva
    rw [guestTranslate, hm.walk_in va (hslot va (by have := (Set.mem_Ico.mp hva).2; omega)) hva,
      guestTarget_out hcong hva]
  refine ⟨hin, fun hle va hva => ?_, fun va hlt hva => ?_⟩
  · have := Set.mem_Ico.mp hva
    rw [hin va hva, Nat.mod_eq_of_lt (by omega)]
  · rw [guestTranslate, guestTranslate, hm.walk_out va (hslot va hlt) hva]

/-- Memory that is zero everywhere, and a list of pages to hand out. -/
def zeroState (l : List ℕ) : MmState (List ℕ) := ⟨⟨fun _ => 0, []⟩, l, []⟩

lemma zeroState_wf (l : List ℕ) {n : ℕ} (root : ℕ) (hroot : 4096 ∣ root) :
    WF F (zeroState l).mem n root ∧ pages F (zeroState l).mem n root = {root} :=
  have h := zero_table (F := F) (n := n) (m := (zeroState l).mem) (fun _ _ _ => rfl) hroot
  ⟨h.1, h.2.1⟩

lemma zeroState_guestTranslate (l : List ℕ) (root : ℕ) (hroot : 4096 ∣ root) (va : ℕ) :
    guestTranslate (zeroState l).mem root va = none := by
  have h := zero_table (F := guestFormat) (n := 2) (m := (zeroState l).mem) (fun _ _ _ => rfl) hroot
  rw [guestTranslate, h.2.2 va, Option.map_none]

lemma zeroState_supply : Supply listPages (zeroState [0x2000, 0x3000]).alloc :=
  supply_listPages (by decide) (by decide)

theorem createMemMapping_guest_exact_three_pages :
    let r := createMemMapping listPages 0x1000 0x40200000 0x80000000 0x3000 VM_NORMAL
      (zeroState [0x2000, 0x3000])
    r.1 = 0 ∧ guestTranslate r.2.mem 0x1000 0x40202123 = some 0x80002123 := by
  have hret : (createMemMapping listPages 0x1000 0x40200000 0x80000000 0x3000 VM_NORMAL
      (zeroState [0x2000, 0x3000])).1 = 0 := by decide +kernel
  refine ⟨hret, ?_⟩
  have hwf := zeroState_wf (F := guestFormat) [0x2000, 0x3000] (n := 2) 0x1000 (by decide)
  refine (createMemMapping_guest_exact (A := listPages) hwf.1 zeroState_supply ?_ (by decide)
    (by decide) (by decide) (by decide) (by decide) (by decide) (by decide) (by decide)
    (fun va _ => zeroState_guestTranslate _ _ (by decide) va)
    (Prod.ext hret rfl)).2.1 (by decide) 0x40202123 (by decide)
  rw [hwf.2]
  simp [zeroState, avail_listPages]

/-- Memory in which the first two entries of the root at `0x1000` hold the same table. -/
def sharedPmdState : MmState (List ℕ) :=
  ⟨⟨fun a => if a = 0x1000 ∨ a = 0x1008 then 0x2003 else 0, []⟩, [0x3000], []⟩

/-- One page mapped in the table with the root at `0x1000`. -/
def mapOnePage (vir phy flags : ℕ) (s : MmState (List ℕ)) : ℤ × MmState (List ℕ) :=
  createMemMapping listPages 0x1000 vir phy 0x1000 flags s

/-- Three requests that return 0 and are not exact: descriptor type bits in the flags make the
entries that were meant as tables invalid; an output address has no room for bit 48; and when two
entries of the root hold the same table, the mapping shows up below both. -/
theorem createMemMapping_guest_not_exact :
    (WF guestFormat (zeroState [0x2000, 0x3000]).mem 2 0x1000 ∧
      (∀ va, guestTranslate (zeroState [0x2000, 0x3000]).mem 0x1000 va = none)) ∧
    (VM_DES_BLOCK &&& VM_HOST = 0 ∧
      (mapOnePage 0x40000000 0x80000000 VM_DES_BLOCK (zeroState [0x2000, 0x3000])).1 = 0 ∧
      guestTranslate (mapOnePage 0x40000000 0x80000000 VM_DES_BLOCK
        (zeroState [0x2000, 0x3000])).2.mem 0x1000 0x40000000 = none) ∧
    ((mapOnePage 0x40000000 (2 ^ 48) VM_NORMAL (zeroState [0x2000, 0x3000])).1 = 0 ∧
      guestTranslate (mapOnePage 0x40000000 (2 ^ 48) VM_NORMAL
        (zeroState [0x2000, 0x3000])).2.mem 0x1000 0x40000000 = some 0) ∧
    (mapOnePage 0 0x80000000 VM_NORMAL sharedPmdState).1 = 0 ∧
      guestTranslate sharedPmdState.mem 0x1000 0x40000000 = none ∧
      guestTranslate (mapOnePage 0 0x80000000 VM_NORMAL sharedPmdState).2.mem 0x1000 0x40000000 =
        some 0x80000000 := by
  refine ⟨⟨(zeroState_wf _ _ (by decide)).1, zeroState_guestTranslate _ _ (by decide)⟩, ?_, ?_, ?_⟩
  · decide +kernel
  · decide +kernel
  · decide +kernel

end Minos.Mmu
