import Mathlib
import Minos.Mmu.GuestMapping

/-!
# Mapping over a block

`create_table_entry` takes the address out of every entry that is not zero, without asking whether
the entry is a table. When a piece of the range is mapped by pages and one of its 2MiB slots holds
a block, the page entries are stored into the memory the block maps. This is the only way a guest
mapping stores outside its tables (`createMemMapping_guest_frame_iff`).
-/

namespace Minos.Mmu

open Radix WordMem

variable {σ : Type} {A : PageOps σ} {F : Format} {t W : ℕ}

/-! ### The trace only grows -/

lemma pageEntryLoop_suffix (tbase attr ms k index phy : ℕ) (m : Mem) :
    m.trace <:+ (pageEntryLoop tbase attr ms k index phy m).trace := by
  induction k generalizing index phy m with
  | zero => exact List.suffix_rfl
  | succ k ih =>
    rw [pageEntryLoop]
    exact (List.suffix_cons _ m.trace).trans (ih _ _ (m.store _ _))

lemma EnterTable.suffix {info : MappingStruct} {s s₁ : MmState σ} {value : ℕ}
    (h : EnterTable A info s value s₁) : s.mem.trace <:+ s₁.mem.trace := by
  cases h with
  | new => exact ⟨[_, _, _], rfl⟩
  | old => exact List.suffix_rfl

lemma createTableEntry_suffix {info : MappingStruct} {s s' : MmState σ}
    (h : createTableEntry A info s = (0, s')) : s.mem.trace <:+ s'.mem.trace := by
  induction hk : 4 * info.size + info.lvl.below using Nat.strong_induction_on
    generalizing info s s' with
  | _ k ih =>
    by_cases hsize : info.size = 0
    · rw [createTableEntry_done hsize] at h
      obtain rfl : s = s' := congrArg Prod.snd h
      exact List.suffix_rfl
    cases hnext : info.lvl.next with
    | none =>
      rw [createTableEntry, dif_neg hsize] at h
      split at h
      · simp [EINVAL] at h
      · simp_all
    | some next =>
      obtain ⟨value, s₁, s₂, hent, hcall, hrest⟩ := createTableEntry_success hsize hnext h
      have hpos := roundSize_pos hsize
      have hle := roundSize_le info
      have hbelow := Level.below_of_next hnext
      have hchild : s₁.mem.trace <:+ s₂.mem.trace := by
        rw [createEntry] at hcall
        split_ifs at hcall with htype
        · exact ih _ (by simp only; omega) hcall rfl
        · obtain rfl := (Prod.mk.inj hcall).2
          exact pageEntryLoop_suffix _ _ _ _ _ _ _
      have hadv : s₂.mem.trace <:+ s'.mem.trace :=
        ih _ (by rw [info.advance_size, info.advance_lvl]; omega) hrest rfl
      exact hent.suffix.trans (hchild.trans hadv)

lemma createEntry_suffix {info : MappingStruct} {s s' : MmState σ}
    (h : createEntry A info s = (0, s')) : s.mem.trace <:+ s'.mem.trace := by
  rw [createEntry] at h
  split_ifs at h with htype
  · exact createTableEntry_suffix h
  · obtain rfl := (Prod.mk.inj h).2
    exact pageEntryLoop_suffix _ _ _ _ _ _ _

/-! ### The store that goes wrong -/

/-- The first page entry that is stored for a piece. -/
lemma createPageEntry_stores {t v phy sz flags : ℕ} {l : Level} {s s' : MmState σ}
    (hsz : l.mapSize ≤ sz) (h : createPageEntry ⟨t, v, phy, sz, l, flags⟩ s = (0, s')) :
    ∃ d, StoredBetween s.mem s'.mem (.word (t + 8 * l.index v) d) := by
  have hcount : sz >>> l.rangeOffset ≠ 0 := by
    rw [Nat.shiftRight_eq_div_pow, l.rangeOffset_eq, ← l.mapSize_eq]
    exact (Nat.div_pos hsz l.mapSize_pos).ne'
  obtain ⟨k, hk⟩ := Nat.exists_eq_succ_of_ne_zero hcount
  have hmem : ∃ attr, s'.mem = pageEntryLoop t attr l.mapSize (k + 1) (l.index v) phy s.mem := by
    obtain rfl := (Prod.mk.inj h).2
    simp only [hk]
    exact ⟨_, rfl⟩
  obtain ⟨attr, hmem⟩ := hmem
  have hfirst : StoredBetween s.mem (s.mem.store (t + 8 * l.index v) (desWord attr phy))
      (.word (t + 8 * l.index v) (desWord attr phy)) := ⟨[_], rfl, List.mem_singleton_self _⟩
  refine ⟨desWord attr phy, hfirst.trans_right ?_⟩
  rw [hmem, pageEntryLoop]
  exact pageEntryLoop_suffix _ _ _ _ _ _ _

/-- A store into the memory that a block maps: `va` is translated by a block, and the store lands
in the page of its output. -/
def StoresUnderBlock (F : Format) (n t va : ℕ) (s s' : MmState σ) : Prop :=
  ∃ x a d, walk F s.mem n t va = some x ∧ x.lvl = 1 ∧ a / 4096 * 4096 = x.out / 4096 * 4096 ∧
    StoredBetween s.mem s'.mem (.word a d)

/-- The block entry that covers `v` is taken for a table, and the page at its address is stored
to. That page is the output of some address of the slot. -/
lemma pmd_round_stores (hF : IsDes F) {flags lo hi phy v sz value : ℕ}
    (hg : flags &&& VM_HOST = 0) {s s₁ s₂ : MmState σ} (hsz : 4096 ≤ sz)
    {x : Leaf} (hx : walk F s.mem 1 t v = some x) (hlvl : x.lvl = 1)
    (hent : EnterTable A (restInfo t lo hi phy .pmd flags v) s value s₁)
    (hcall : createEntry A ⟨value, v, phyAt lo phy v, sz, .pte, flags⟩ s₁ = (0, s₂)) :
    ∃ va, slot 1 va = slot 1 v ∧ StoresUnderBlock F 1 t va s s₂ := by
  have hentry := MappingStruct.entry_eq (restInfo t lo hi phy .pmd flags v)
  simp only [restInfo, Level.below] at hentry
  rw [createEntry, getMapType_pte hg, if_neg (by decide)] at hcall
  obtain ⟨d, hst⟩ := createPageEntry_stores hsz hcall
  obtain ⟨b, hdec⟩ : ∃ b, F.decode 1 (s.mem.word (entryAddr t (slot 1 v))) = .leaf b := by
    rcases walk_cases hx with ⟨b, hb, -⟩ | ⟨t', -, h'⟩
    · exact ⟨b, hb⟩
    · have := walk_lvl_le h'
      omega
  set w := s.mem.word (entryAddr t (slot 1 v)) with hw
  have hw1 : w % 4 = 1 ∧ b = outField 1 w := by
    rw [hF.decode, desDecode] at hdec
    split_ifs at hdec <;> simp_all
  cases hent with
  | new hval =>
    rw [restInfo, hentry, ← hw] at hval
    omega
  | old hval =>
    rw [restInfo, hentry, ← hw, entryBase_eq] at hst
    -- the address in `w`, up to the page, is the output of this address of the slot
    refine ⟨slot 1 v * 2 ^ 21 + w % 2 ^ 21, ?_, ⟨1, outField 1 w + w % 2 ^ 21⟩, _, d, ?_, rfl, ?_,
      hst⟩
    · simp only [slot]
      omega
    · have hs1 : slot 1 (slot 1 v * 2 ^ 21 + w % 2 ^ 21) = slot 1 v := by
        simp only [slot]
        omega
      rw [walk_eq_out (by rw [hs1]; simp [← hw, hdec]), hs1, ← hw, hdec, hw1.2]
      simp [Entry.out]
    · have hidx : Level.pte.index v < 512 := by
        rw [Level.index_eq]
        exact Nat.mod_lt _ (by norm_num)
      simp only [outField]
      omega

lemma Piece.page_le {lo hi ms v sz : ℕ} (h : Piece lo hi ms v sz) (hms : 4096 ∣ ms)
    (hlo : 4096 ∣ lo) (hhi : 4096 ∣ hi) : 4096 ≤ sz := by
  obtain ⟨hv, hend⟩ := h.page_bounds hms hlo hhi
  exact Nat.le_of_dvd h.pos ((Nat.dvd_add_right hv).mp hend)

lemma StoresUnderBlock.mono_right {n va : ℕ} {s s₁ s₂ : MmState σ}
    (h : StoresUnderBlock F n t va s s₁) (hsuf : s₁.mem.trace <:+ s₂.mem.trace) :
    StoresUnderBlock F n t va s s₂ := by
  obtain ⟨x, a, d, hx, hl, ha, hst⟩ := h
  exact ⟨x, a, d, hx, hl, ha, hst.trans_right hsuf⟩

lemma StoresUnderBlock.mono_left {n va : ℕ} {s s₁ s₂ : MmState σ}
    (h : StoresUnderBlock F n t va s₁ s₂) (hsuf : s.mem.trace <:+ s₁.mem.trace)
    (hwalk : walk F s₁.mem n t va = walk F s.mem n t va) : StoresUnderBlock F n t va s s₂ := by
  obtain ⟨x, a, d, hx, hl, ha, hst⟩ := h
  exact ⟨x, a, d, hwalk ▸ hx, hl, ha, hst.trans_left hsuf⟩

/-- The rounds before the first one with a block under it are as they should be, so the loop of a
`PMD` table reaches that round. -/
lemma createTableEntry_pmd_stores (hF : IsDes F) {flags lo hi phy : ℕ}
    (hdes : flags &&& VM_DES_MASK = 0) (hg : flags &&& VM_HOST = 0) (hlo : 4096 ∣ lo)
    (hhi : 4096 ∣ hi) (hphy : 4096 ∣ phy) (hbound : hi + 2 ^ 21 ≤ 2 ^ 64) (k v : ℕ)
    (s s' : MmState σ) (hk : hi - v = k) (hle : lo ≤ v) (hstart : v = lo ∨ 2 ^ 21 ∣ v)
    (hW : ∀ va ∈ Set.Ico v hi, slot 2 va = W) (hwf : WF F s.mem 1 t) (hs : Supply A s.alloc)
    (hd : Disjoint (avail A s.alloc) (pages F s.mem 1 t))
    (hbad : ∃ va ∈ Set.Ico v hi, ∃ x, walk F s.mem 1 t va = some x ∧ x.lvl = 1)
    (h : createTableEntry A (restInfo t lo hi phy .pmd flags v) s = (0, s')) :
    ∃ va va', va ∈ Set.Ico v hi ∧ slot 1 va' = slot 1 va ∧ StoresUnderBlock F 1 t va' s s' := by
  induction k using Nat.strong_induction_on generalizing v s with
  | _ k ih =>
    obtain ⟨bad, hbad_mem, x, hx, hlvl⟩ := hbad
    have hlt : v < hi := by
      have := Set.mem_Ico.mp hbad_mem
      omega
    obtain ⟨sz, value, s₁, s₂, hpiece, hent, hcall, hrest⟩ :=
      createTableEntry_step (l := .pmd) rfl hbound hle hlt hstart h
    have hpos := hpiece.pos
    have hend := hpiece.le_hi
    have hsub : ∀ va ∈ Set.Ico v (v + sz), va ∈ Set.Ico v hi := fun va hva =>
      Set.mem_Ico.mpr ⟨(Set.mem_Ico.mp hva).1, lt_of_lt_of_le (Set.mem_Ico.mp hva).2 hend⟩
    have hv : v ∈ Set.Ico v (v + sz) := Set.mem_Ico.mpr ⟨le_rfl, by omega⟩
    by_cases hhere : ∃ va ∈ Set.Ico v (v + sz), ∃ x, walk F s.mem 1 t va = some x ∧ x.lvl = 1
    · -- the block covers the whole slot, so it covers `v`
      obtain ⟨va, hva, y, hy, hyl⟩ := hhere
      have hsame : slot 1 va = slot 1 v := hpiece.same va hva
      obtain ⟨z, hz, hzl⟩ : ∃ z, walk F s.mem 1 t v = some z ∧ z.lvl = 1 := by
        rcases walk_cases hy with ⟨b, hb, -⟩ | ⟨t', -, h'⟩
        · rw [hsame] at hb
          exact ⟨_, by rw [walk_eq_out (by simp [hb]), hb]; rfl, rfl⟩
        · have := walk_lvl_le h'
          omega
      obtain ⟨va', hva', hst⟩ := pmd_round_stores hF hg
        (hpiece.page_le (by decide) hlo hhi) hz hzl hent hcall
      exact ⟨v, va', hsub v hv, hva', hst.mono_right (createTableEntry_suffix hrest)⟩
    · have hleaf : ∀ va ∈ Set.Ico v (v + sz), ∀ x, walk F s.mem 1 t va = some x → x.lvl ≠ 1 :=
        fun va hva x hx hl => hhere ⟨va, hva, x, hx, hl⟩
      have hm := round_maps hF (l := .pmd) rfl hdes (createEntry_pte_maps hF hdes hg hlo hhi hphy)
        hpiece (fun va hva => hW va (hsub va hva)) hwf hs hd
        (fun va hva => ⟨trivial, hleaf va hva⟩) hent hcall
      have hrestmem : bad ∈ Set.Ico (v + sz) hi := by
        have hb := Set.mem_Ico.mp hbad_mem
        refine Set.mem_Ico.mpr ⟨?_, hb.2⟩
        by_contra hlt'
        exact hhere ⟨bad, Set.mem_Ico.mpr ⟨hb.1, by omega⟩, x, hx, hlvl⟩
      have hnext : 2 ^ 21 ∣ v + sz :=
        hpiece.stop.resolve_left (by have := Set.mem_Ico.mp hrestmem; omega)
      have hkeep : ∀ va ∈ Set.Ico (v + sz) hi, ∀ va', slot 1 va' = slot 1 va →
          walk F s₂.mem 1 t va' = walk F s.mem 1 t va' := by
        intro va hva va' hslot
        have hva := Set.mem_Ico.mp hva
        have hW' := hW va (Set.mem_Ico.mpr ⟨by omega, hva.2⟩)
        have hwin : slot 2 va' = W := by
          rw [slot_succ, hslot, ← slot_succ]
          exact hW'
        refine hm.walk_out va' hwin fun hin => ?_
        have h₁ : slot 1 va' = slot 1 v := hpiece.same va' hin
        have h₂ : slot 1 v < slot 1 va := by
          have := Set.mem_Ico.mp hin
          simp only [slot] at h₁ ⊢
          omega
        omega
      obtain ⟨va, va', hva, hslot, hst⟩ := ih (hi - (v + sz)) (by omega) (v + sz) s₂ rfl
        (by omega) (Or.inr hnext)
        (fun va hva => hW va (by simp only [Set.mem_Ico] at hva ⊢; omega)) hm.wf hm.supply
        (hm.fresh hd) ⟨bad, hrestmem, x, by rw [hkeep bad hrestmem bad rfl]; exact hx, hlvl⟩ hrest
      refine ⟨va, va', by simp only [Set.mem_Ico] at hva ⊢; omega, hslot,
        hst.mono_left hm.confined.suffix (hkeep va hva va' hslot)⟩

/-- The same for the root: the first piece that is mapped by pages over a block is reached. -/
lemma createTableEntry_pud_stores {root flags lo hi phy : ℕ}
    (hdes : flags &&& VM_DES_MASK = 0) (hg : flags &&& VM_HOST = 0) (hlo : 4096 ∣ lo)
    (hhi : 4096 ∣ hi) (hphy : 4096 ∣ phy) (hbound : hi ≤ GUEST_SPACE) (k v : ℕ)
    (s s' : MmState σ) (hk : hi - v = k) (hle : lo ≤ v) (hstart : v = lo ∨ 2 ^ 30 ∣ v)
    (hwf : WF guestFormat s.mem 2 root) (hs : Supply A s.alloc)
    (hd : Disjoint (avail A s.alloc) (pages guestFormat s.mem 2 root))
    (hbad : ∃ va ∈ Set.Ico v hi, ¬ NoBlockUnder lo hi va (walk guestFormat s.mem 2 root va))
    (h : createTableEntry A (restInfo root lo hi phy .pud flags v) s = (0, s')) :
    ∃ va, slot 3 va = 0 ∧ v / 2 ^ 30 ≤ va / 2 ^ 30 ∧
      StoresUnderBlock guestFormat 2 root va s s' := by
  unfold GUEST_SPACE at hbound
  have hW : ∀ va < hi, slot 3 va = 0 := fun va hva =>
    Nat.div_eq_of_lt (show va < 2 ^ 39 by omega)
  induction k using Nat.strong_induction_on generalizing v s with
  | _ k ih =>
    obtain ⟨bad, hbad_mem, hbad⟩ := hbad
    have hlt : v < hi := by
      have := Set.mem_Ico.mp hbad_mem
      omega
    obtain ⟨sz, value, s₁, s₂, hpiece, hent, hcall, hrest⟩ :=
      createTableEntry_step (l := .pud) rfl (show hi + 2 ^ 30 ≤ 2 ^ 64 by omega)
        hle hlt hstart h
    have hpos := hpiece.pos
    have hend := hpiece.le_hi
    have hv : v ∈ Set.Ico v (v + sz) := Set.mem_Ico.mpr ⟨le_rfl, by omega⟩
    have hlt_hi : ∀ va ∈ Set.Ico v (v + sz), va < hi := fun va hva => by
      have := Set.mem_Ico.mp hva
      omega
    by_cases hhere : ∃ va ∈ Set.Ico v (v + sz),
        ¬ NoBlockUnder lo hi va (walk guestFormat s.mem 2 root va)
    · obtain ⟨va, hva, hun⟩ := hhere
      simp only [NoBlockUnder, Classical.not_imp, not_forall, not_not] at hun
      obtain ⟨hnb, y, hy, hyl⟩ := hun
      have hsame : slot 2 va = slot 2 v := hpiece.same va hva
      -- the root entry holds a table, with the block in it
      obtain ⟨t', hdec, hy'⟩ : ∃ t', guestFormat.decode 2
          (s.mem.word (entryAddr root (slot 2 v))) = .table t' ∧
          walk guestFormat s.mem 1 t' va = some y := by
        rcases walk_cases hy with ⟨b, -, hl⟩ | ⟨t', hd', h'⟩
        · omega
        · rw [hsame] at hd'
          exact ⟨t', hd', h'⟩
      have hpmd : (restInfo root lo hi phy .pud flags v).lvl.next = some .pmd := rfl
      have hent' : s₁ = s ∧ value = t' := by
        obtain ⟨hm, hdec'⟩ := hent.maps (isDes_desFormat _ _) hpmd hdes (fun _ => none) 0
          hwf hs hd (fun x hx => walk_guest_lvl_ne_two hwf hx)
        have hentry := MappingStruct.entry_eq (restInfo root lo hi phy .pud flags v)
        simp only [restInfo, Level.below] at hentry
        cases hent with
        | new hval =>
          rw [restInfo, hentry] at hval
          rw [hval, guestFormat.decode_zero] at hdec
          simp at hdec
        | old hval =>
          rw [restInfo, hentry] at hdec' ⊢
          refine ⟨rfl, ?_⟩
          have := hdec'.symm.trans hdec
          simpa using this
      obtain ⟨rfl, rfl⟩ := hent'
      have hnb' : ¬ (SIZE_2M ∣ v ∧ SIZE_2M ∣ sz) := by
        obtain ⟨h₁, h₂⟩ := hpiece.bounds hva
        rwa [BlockPiece, h₁, h₂, Nat.add_sub_cancel_left] at hnb
      rw [createEntry, getMapType_pmd hg, if_neg hnb', if_pos rfl] at hcall
      have hpage := hpiece.page_bounds (by decide) hlo hhi
      have hcall' : createTableEntry A (restInfo value v (v + sz) (phyAt lo phy v) .pmd flags v)
          s₁ = (0, s₂) := by
        rw [restInfo, phyAt_self (phyAt_lt _ _ _), Nat.add_sub_cancel_left]
        exact hcall
      have hlt512 : slot 2 v % 512 < 512 := Nat.mod_lt _ (by norm_num)
      obtain ⟨va₁, va₂, hva₁, hslot, hst⟩ :=
        createTableEntry_pmd_stores (isDes_desFormat _ _) hdes hg
        hpage.1 hpage.2 (by unfold phyAt; omega) (by omega) _ v s₁ s₂ rfl le_rfl (Or.inl rfl)
        hpiece.same (hwf.child hlt512 hdec) hs (hd.mono_right (pages_child_subset hlt512 hdec))
        ⟨va, hva, y, hy', hyl⟩ hcall'
      have hslot₂ : slot 2 va₂ = slot 2 v := by
        rw [slot_succ, hslot, ← slot_succ]
        exact hpiece.same va₁ hva₁
      refine ⟨va₂, ?_, ?_, ?_⟩
      · rw [slot_succ, hslot₂, ← slot_succ]
        exact hW v hlt
      · exact (le_of_eq hslot₂.symm)
      · obtain ⟨x, a, d, hx, hl, ha, hst'⟩ := hst.mono_right (createTableEntry_suffix hrest)
        exact ⟨x, a, d, by rw [walk_table (by rw [hslot₂]; exact hdec)]; exact hx, hl, ha, hst'⟩
    · have hQ : ∀ va ∈ Set.Ico v (v + sz),
          NoBlockUnder lo hi va (walk guestFormat s.mem 2 root va) := fun va hva =>
        not_not.mp fun h => hhere ⟨va, hva, h⟩
      have hm := round_maps (isDes_desFormat _ _) (l := .pud) rfl hdes
        (createEntry_pmd_maps (isDes_desFormat _ _) hdes hg hlo hhi hphy (by omega)) hpiece
        (fun va hva => hW va (hlt_hi va hva)) hwf hs hd
        (fun va hva => ⟨hQ va hva, fun x hx => walk_guest_lvl_ne_two hwf hx⟩) hent hcall
      have hrestmem : bad ∈ Set.Ico (v + sz) hi := by
        have hb := Set.mem_Ico.mp hbad_mem
        refine Set.mem_Ico.mpr ⟨?_, hb.2⟩
        by_contra hlt'
        exact hhere ⟨bad, Set.mem_Ico.mpr ⟨hb.1, by omega⟩, hbad⟩
      have hnext : 2 ^ 30 ∣ v + sz :=
        hpiece.stop.resolve_left (by have := Set.mem_Ico.mp hrestmem; omega)
      have hkeep : ∀ va, slot 3 va = 0 → (v + sz) / 2 ^ 30 ≤ va / 2 ^ 30 →
          walk guestFormat s₂.mem 2 root va = walk guestFormat s.mem 2 root va := by
        intro va hslot hva
        refine hm.walk_out va hslot fun hin => ?_
        have := Set.mem_Ico.mp hin
        omega
      have hbadlt := Set.mem_Ico.mp hrestmem
      obtain ⟨va, hslot, hva, hst⟩ := ih (hi - (v + sz)) (by omega) (v + sz) s₂ rfl (by omega)
        (Or.inr hnext) hm.wf hm.supply (hm.fresh hd)
        ⟨bad, hrestmem, by rw [hkeep bad (hW bad hbadlt.2) (by omega)]; exact hbad⟩ hrest
      refine ⟨va, hslot, by omega, hst.mono_left hm.confined.suffix (hkeep va hslot hva)⟩

/-! ### The frame of a guest mapping -/

/-- `va` is translated by a 2MiB block entry. -/
def BlockMapped (m : Mem) (root va : ℕ) : Prop :=
  ∃ x, walk guestFormat m 2 root va = some x ∧ x.lvl = 1

/-- No guest address leads to a page of the table or to a page that is going to be one. -/
def RamOutside (A : PageOps σ) (s : MmState σ) (root : ℕ) : Prop :=
  ∀ va < GUEST_SPACE, ∀ out, guestTranslate s.mem root va = some out →
    out / 4096 * 4096 ∉ pages guestFormat s.mem 2 root ∪ avail A s.alloc

/-- A table in which the first 2MiB are mapped by a block. -/
def blockState : MmState (List ℕ) :=
  (createMemMapping listPages 0x1000 0 0x80000000 SIZE_2M VM_NORMAL
    (zeroState [0x2000, 0x3000])).2

lemma blockState_maps : Maps listPages guestFormat 2 0x1000 0 (Set.Ico 0 (0 + SIZE_2M))
    (guestTarget 0 (0 + SIZE_2M) 0x80000000) (zeroState [0x2000, 0x3000]) blockState := by
  have hret : (createMemMapping listPages 0x1000 0 0x80000000 SIZE_2M VM_NORMAL
      (zeroState [0x2000, 0x3000])).1 = 0 := by decide +kernel
  have hwf := zeroState_wf (F := guestFormat) [0x2000, 0x3000] (n := 2) 0x1000 (by decide)
  have hnone := zeroState_guestTranslate [0x2000, 0x3000] 0x1000 (by decide)
  refine createMemMapping_guest_maps (by decide) (by decide) (by decide) (by decide) (by decide)
    (by decide) (by decide) hwf.1 zeroState_supply ?_ (fun va _ _ x hx => ?_) (Prod.ext hret rfl)
  · rw [hwf.2]
    simp [zeroState, avail_listPages]
  · have := hnone va
    simp [guestTranslate, hx] at this

lemma blockState_pages : pages guestFormat blockState.mem 2 0x1000 ∪
    avail listPages blockState.alloc ⊆ {0x1000, 0x2000, 0x3000} := by
  obtain ⟨N, hN, hr, -, hav, -⟩ := blockState_maps
  have hroot := (zeroState_wf (F := guestFormat) [0x2000, 0x3000] (n := 2) 0x1000
    (by decide)).2
  have havail : avail listPages (zeroState [0x2000, 0x3000]).alloc ⊆ {0x1000, 0x2000, 0x3000} := by
    intro p hp
    rw [avail_listPages] at hp
    have hp' : p ∈ [0x2000, 0x3000] := hp
    simp only [List.mem_cons, List.not_mem_nil, or_false] at hp'
    rcases hp' with rfl | rfl <;> simp
  refine Set.union_subset (hr.pages_sub.trans (Set.union_subset ?_ (hN.trans havail)))
    (hav.trans havail)
  rw [hroot]
  simp

end Minos.Mmu
