import Mathlib
import Minos.Mmu.BlockOverlap

/-!
# The address in a block descriptor

`get_map_type` looks at the virtual base and the size of a piece, and not at the physical base. A
piece that it takes for blocks may therefore have a physical base that is no multiple of 2MiB, and
the entries are made of it as it is. The low bits of the address are then bits of the descriptor
that the hardware does not read as an address.
-/

namespace Minos.Mmu

open Radix WordMem

variable {σ : Type} {A : PageOps σ}

/-- A block descriptor that is stored has the address of a 2MiB block. -/
def AlignedBlock : Store → Prop
  | .word _ d => d % 4 = 1 → SIZE_2M ∣ outField 0 d
  | .page _ => True

/-! ### Pieces that are mapped by pages -/

lemma desWord_type (attr phy : ℕ) : desWord attr phy % 4 = attr % 4 := by
  have hmask : DESC_MASK 12 % 2 ^ 2 = 0 := by
    rw [DESC_MASK, lnot, Nat.one_shiftLeft]
    norm_num
  rw [desWord, show 4 = 2 ^ 2 from rfl, Nat.or_mod_two_pow, Nat.and_mod_two_pow, hmask,
    Nat.and_zero, Nat.or_zero]

lemma pageEntryLoop_traced {P : Store → Prop} {Q : ℕ → Prop} {tbase attr ms : ℕ}
    (hP : ∀ a phy, Q phy → P (.word a (desWord attr phy))) (hQ : ∀ phy, Q phy → Q (add64 phy ms))
    (k index phy : ℕ) (m : Mem) (hphy : Q phy) :
    Traced P m (pageEntryLoop tbase attr ms k index phy m) := by
  induction k generalizing index phy m with
  | zero => exact Traced.refl m
  | succ k ih => exact (Traced.store m (hP _ _ hphy)).trans (ih _ _ _ (hQ _ hphy))

/-- A table entry is no block descriptor. -/
lemma EnterTable.traced {info : MappingStruct} {s s₁ : MmState σ} {value : ℕ}
    (hdes : info.flags &&& VM_DES_MASK = 0) (h : EnterTable A info s value s₁) :
    Traced AlignedBlock s.mem s₁.mem := by
  cases h with
  | new =>
    refine ((Traced.zeroPage _ trivial).trans (Traced.zeroPage _ trivial)).trans
      (Traced.store _ fun hblock => ?_)
    rw [desWord_type, pageTableDescription_table hdes] at hblock
    omega
  | old => exact Traced.refl _

/-- What `create_page_entry` stores, at any level -/
lemma createPageEntry_mem {t v phy sz flags : ℕ} {l : Level} {s s' : MmState σ}
    (h : createPageEntry ⟨t, v, phy, sz, l, flags⟩ s = (0, s')) :
    s'.mem = pageEntryLoop t (pageTableDescription
      (flags ||| if l.lvl ≠ 3 then VM_DES_BLOCK else VM_DES_PAGE)) l.mapSize
      (sz >>> l.rangeOffset) (l.index v) phy s.mem := by
  obtain rfl := (Prod.mk.inj h).2
  rfl

lemma createPageEntry_pte_traced {t v phy sz flags : ℕ} {s s' : MmState σ}
    (hdes : flags &&& VM_DES_MASK = 0)
    (h : createPageEntry ⟨t, v, phy, sz, .pte, flags⟩ s = (0, s')) :
    Traced AlignedBlock s.mem s'.mem := by
  have hattr := leafAttr_of_flags hdes (Or.inl rfl : Level.pte = .pte ∨ Level.pte = .pmd)
  rw [createPageEntry_mem h]
  refine pageEntryLoop_traced (Q := fun _ => True) (fun a x _ hblock => ?_) (fun _ _ => trivial) _
    _ _ _ trivial
  rw [desWord_type] at hblock
  rcases hattr.type with ⟨-, hpage⟩ | ⟨hn, -⟩
  · exact absurd (hpage.symm.trans hblock) (by decide)
  · exact absurd hn (by decide)

lemma MappingStruct.advance_flags (info : MappingStruct) : info.advance.flags = info.flags := by
  cases info
  rfl

/-- In the tables below a `PMD` table there are no blocks. -/
lemma createTableEntry_pmd_traced {info : MappingStruct} {s s' : MmState σ} (hlvl : info.lvl = .pmd)
    (hdes : info.flags &&& VM_DES_MASK = 0) (hg : info.flags &&& VM_HOST = 0)
    (h : createTableEntry A info s = (0, s')) : Traced AlignedBlock s.mem s'.mem := by
  induction hk : info.size using Nat.strong_induction_on generalizing info s with
  | _ k ih =>
    by_cases hsize : info.size = 0
    · rw [createTableEntry_done hsize] at h
      obtain rfl : s = s' := congrArg Prod.snd h
      exact Traced.refl _
    · obtain ⟨value, s₁, s₂, hent, hcall, hrest⟩ :=
        createTableEntry_success hsize (show info.lvl.next = some .pte by rw [hlvl]; rfl) h
      rw [createEntry, getMapType_pte hg, if_neg (by decide)] at hcall
      have hpos := roundSize_pos hsize
      have hle := roundSize_le info
      have hrest' := ih info.advance.size (by rw [info.advance_size]; omega)
        (info.advance_lvl.trans hlvl) (by rw [info.advance_flags]; exact hdes)
        (by rw [info.advance_flags]; exact hg) hrest rfl
      exact (hent.traced hdes).trans ((createPageEntry_pte_traced hdes hcall).trans hrest')

/-! ### Pieces that are mapped by blocks -/

lemma outField_dvd {phy : ℕ} (hphy : 4096 ∣ phy) : SIZE_2M ∣ outField 0 phy ↔ SIZE_2M ∣ phy := by
  unfold outField SIZE_2M
  omega

lemma LeafAttr.block {attr phy : ℕ} (h : LeafAttr 1 attr) (hp : phy < 2 ^ 64) :
    desWord attr phy % 4 = 1 ∧ outField 0 (desWord attr phy) = outField 0 phy := by
  refine ⟨(desWord_type _ _).trans ?_, desWord_outField 0 h.attrOnly hp⟩
  rcases h.type with ⟨hn, -⟩ | ⟨-, htype⟩
  · exact absurd hn (by decide)
  · exact htype

lemma leafAttr_pmd {flags : ℕ} (hdes : flags &&& VM_DES_MASK = 0) :
    LeafAttr 1 (pageTableDescription
      (flags ||| if Level.pmd.lvl ≠ 3 then VM_DES_BLOCK else VM_DES_PAGE)) :=
  leafAttr_of_flags hdes (Or.inr rfl : Level.pmd = .pte ∨ Level.pmd = .pmd)

lemma createPageEntry_pmd_traced {t v phy sz flags : ℕ} {s s' : MmState σ}
    (hdes : flags &&& VM_DES_MASK = 0) (hp : phy < 2 ^ 64) (hphy : SIZE_2M ∣ phy)
    (h : createPageEntry ⟨t, v, phy, sz, .pmd, flags⟩ s = (0, s')) :
    Traced AlignedBlock s.mem s'.mem := by
  rw [createPageEntry_mem h]
  refine pageEntryLoop_traced (Q := fun x => x < 2 ^ 64 ∧ SIZE_2M ∣ x) (fun a x hx _ => ?_)
    (fun x hx => ⟨add64_lt _ _, ?_⟩) _ _ _ _ ⟨hp, hphy⟩
  · have hout := ((leafAttr_pmd hdes).block hx.1).2
    rw [hout]
    exact (outField_dvd (dvd_trans (by decide) hx.2)).2 hx.2
  · have hx := hx.2
    have hms : Level.pmd.mapSize = 2 ^ 21 := rfl
    rw [hms, add64]
    unfold SIZE_2M at hx ⊢
    omega

/-- The first block of a piece is made of its physical base. -/
lemma createPageEntry_pmd_stores {t v phy sz flags : ℕ} {s s' : MmState σ}
    (hdes : flags &&& VM_DES_MASK = 0) (hp : phy < 2 ^ 64) (hphy : 4096 ∣ phy)
    (hbad : ¬ SIZE_2M ∣ phy) (hsz : SIZE_2M ≤ sz)
    (h : createPageEntry ⟨t, v, phy, sz, .pmd, flags⟩ s = (0, s')) :
    ∃ st, StoredBetween s.mem s'.mem st ∧ ¬ AlignedBlock st := by
  obtain ⟨attr, hattr, hmem⟩ : ∃ attr, LeafAttr 1 attr ∧
      s'.mem = pageEntryLoop t attr Level.pmd.mapSize (sz >>> Level.pmd.rangeOffset)
        (Level.pmd.index v) phy s.mem :=
    ⟨_, leafAttr_pmd hdes, createPageEntry_mem h⟩
  have hcount : sz >>> Level.pmd.rangeOffset ≠ 0 := by
    have hoff : Level.pmd.rangeOffset = 21 := rfl
    rw [hoff, Nat.shiftRight_eq_div_pow]
    unfold SIZE_2M at hsz
    omega
  obtain ⟨k, hk⟩ := Nat.exists_eq_succ_of_ne_zero hcount
  obtain ⟨htype, hout⟩ := hattr.block hp
  have hfirst : StoredBetween s.mem
      (s.mem.store (t + 8 * Level.pmd.index v) (desWord attr phy))
      (.word (t + 8 * Level.pmd.index v) (desWord attr phy)) :=
    ⟨[_], rfl, List.mem_singleton_self _⟩
  refine ⟨_, hfirst.trans_right ?_, fun haligned => ?_⟩
  · rw [hmem, hk, pageEntryLoop]
    exact pageEntryLoop_suffix _ _ _ _ _ _ _
  · have hdvd := haligned htype
    rw [hout, outField_dvd hphy] at hdvd
    exact hbad hdvd

/-! ### The pieces of a request -/

/-- A round takes what is left up to the next multiple, also at the end of the address space. -/
lemma roundSize_eq_of_lt {info : MappingStruct} (h : info.virBase < 2 ^ 64) :
    roundSize info =
      min (info.lvl.mapSize - info.virBase % info.lvl.mapSize) info.size := by
  by_cases hle : info.virBase + info.lvl.mapSize ≤ 2 ^ 64
  · exact roundSize_eq hle
  · have hk : 12 + 9 * info.lvl.below ≤ 64 := by
      cases info.lvl <;> decide
    have hdvd : info.lvl.mapSize ∣ 2 ^ 64 := info.lvl.mapSize_eq ▸ pow_dvd_pow 2 hk
    have hpos := info.lvl.mapSize_pos
    obtain ⟨q, hq⟩ := hdvd
    have hq0 : q ≠ 0 := by
      rintro rfl
      omega
    obtain ⟨j, rfl⟩ := Nat.exists_eq_succ_of_ne_zero hq0
    -- the base is in the last block of the address space, behind its start
    have hdiv : info.virBase / info.lvl.mapSize = j := by
      rw [Nat.div_eq_iff hpos, mul_comm]
      rw [Nat.mul_succ] at hq
      omega
    have hmod := Nat.div_add_mod info.virBase info.lvl.mapSize
    rw [hdiv] at hmod
    rw [Nat.mul_succ] at hq
    have hround : (info.virBase + info.lvl.mapSize - 1) % 2 ^ 64 < info.lvl.mapSize := by
      rw [Nat.mod_eq_sub_mod (by omega), Nat.mod_eq_of_lt (by omega)]
      omega
    have hbalign : balign info.virBase info.lvl.mapSize = 0 := by
      rw [balign, info.lvl.mapSize_eq, and_lnot_pow (Nat.mod_lt _ (by norm_num)) hk,
        ← info.lvl.mapSize_eq, Nat.div_eq_of_lt hround, Nat.zero_mul]
    rw [roundSize, hbalign, sub64, Nat.zero_add, Nat.mod_eq_of_lt (by omega)]
    rw [if_neg (by omega)]
    congr 1
    omega

/-- The request for what is left of the range from `lo` to `hi` at `v`, which may lie behind the end
of the address space. -/
def wrapInfo (t lo hi phy flags v : ℕ) : MappingStruct :=
  ⟨t, v % 2 ^ 64, phyAt lo phy v, hi - v, .pud, flags⟩

lemma createTableEntry_wrap {t lo hi phy flags v : ℕ} {s s' : MmState σ} (hlo : lo ≤ v)
    (hlt : v < hi) (hstart : v = lo ∨ 2 ^ 30 ∣ v)
    (h : createTableEntry A (wrapInfo t lo hi phy flags v) s = (0, s')) :
    ∃ sz value s₁ s₂, Piece lo hi (2 ^ 30) v sz ∧
      EnterTable A (wrapInfo t lo hi phy flags v) s value s₁ ∧
      createEntry A ⟨value, v % 2 ^ 64, phyAt lo phy v, sz, .pmd, flags⟩ s₁ = (0, s₂) ∧
      createTableEntry A (wrapInfo t lo hi phy flags (v + sz)) s₂ = (0, s') := by
  have hsize : (wrapInfo t lo hi phy flags v).size ≠ 0 := Nat.sub_ne_zero_of_lt hlt
  obtain ⟨value, s₁, s₂, hent, hcall, hrest⟩ := createTableEntry_success hsize rfl h
  have hround : roundSize (wrapInfo t lo hi phy flags v) = min (2 ^ 30 - v % 2 ^ 30) (hi - v) := by
    have hms : Level.pud.mapSize = 2 ^ 30 := rfl
    have hmod : v % 2 ^ 64 % 2 ^ 30 = v % 2 ^ 30 := Nat.mod_mod_of_dvd v (by norm_num)
    have hround := roundSize_eq_of_lt
      (show (wrapInfo t lo hi phy flags v).virBase < 2 ^ 64 from Nat.mod_lt v (by norm_num))
    simpa only [wrapInfo, hms, hmod] using hround
  have hpiece := piece_of_round (show 0 < 2 ^ 30 by norm_num) hlo hlt hstart
  have hadv : (wrapInfo t lo hi phy flags v).advance = wrapInfo t lo hi phy flags
      (v + min (2 ^ 30 - v % 2 ^ 30) (hi - v)) := by
    rw [MappingStruct.advance, hround, wrapInfo, wrapInfo]
    simp only
    rw [add64_phyAt hlo, Nat.sub_sub, add64, Nat.mod_add_mod]
  rw [hround] at hcall
  rw [hadv] at hrest
  exact ⟨_, value, s₁, s₂, hpiece, hent, hcall, hrest⟩

/-- The type of the entries of a piece -/
lemma getMapType_wrap {t v p sz flags : ℕ} (hg : flags &&& VM_HOST = 0) :
    getMapType ⟨t, v % 2 ^ 64, p, sz, .pmd, flags⟩ =
      if SIZE_2M ∣ v ∧ SIZE_2M ∣ sz then VM_DES_BLOCK else VM_DES_TABLE := by
  rw [getMapType_pmd hg]
  have hdvd : SIZE_2M ∣ v % 2 ^ 64 ↔ SIZE_2M ∣ v := Nat.dvd_mod_iff (by decide)
  simp only [hdvd]

lemma Piece.blockPiece {lo hi v sz va : ℕ} (h : Piece lo hi (2 ^ 30) v sz)
    (hva : va ∈ Set.Ico v (v + sz)) :
    BlockPiece lo hi va ↔ SIZE_2M ∣ v ∧ SIZE_2M ∣ sz := by
  obtain ⟨h₁, h₂⟩ := h.bounds hva
  rw [BlockPiece, h₁, h₂, Nat.add_sub_cancel_left]

/-- The physical base of a piece that starts at a multiple of 2MiB -/
lemma phyAt_dvd {lo phy v : ℕ} (hlo : lo ≤ v) (hv : SIZE_2M ∣ v) :
    SIZE_2M ∣ phyAt lo phy v ↔ lo % SIZE_2M = phy % SIZE_2M := by
  unfold phyAt SIZE_2M at *
  omega

/-- All blocks of a request are aligned when the two bases differ by a multiple of 2MiB, or no piece
is mapped by blocks. -/
lemma createTableEntry_pud_traced {t lo hi phy flags : ℕ} (hdes : flags &&& VM_DES_MASK = 0)
    (hg : flags &&& VM_HOST = 0) (k v : ℕ) (s s' : MmState σ) (hk : hi - v = k) (hlo : lo ≤ v)
    (hstart : v < hi → v = lo ∨ 2 ^ 30 ∣ v)
    (hgood : lo % SIZE_2M = phy % SIZE_2M ∨ ∀ va ∈ Set.Ico v hi, ¬ BlockPiece lo hi va)
    (h : createTableEntry A (wrapInfo t lo hi phy flags v) s = (0, s')) :
    Traced AlignedBlock s.mem s'.mem := by
  induction k using Nat.strong_induction_on generalizing v s with
  | _ k ih =>
    by_cases hlt : v < hi
    · obtain ⟨sz, value, s₁, s₂, hpiece, hent, hcall, hrest⟩ :=
        createTableEntry_wrap hlo hlt (hstart hlt) h
      have hpos := hpiece.pos
      have hend := hpiece.le_hi
      have hchild : Traced AlignedBlock s₁.mem s₂.mem := by
        rw [createEntry, getMapType_wrap hg] at hcall
        by_cases hb : SIZE_2M ∣ v ∧ SIZE_2M ∣ sz
        · rw [if_pos hb, if_neg (by decide)] at hcall
          have hv : v ∈ Set.Ico v (v + sz) := Set.mem_Ico.2 ⟨le_rfl, by omega⟩
          have hcong := hgood.resolve_right fun hno =>
            hno v (Set.mem_Ico.2 ⟨le_rfl, hlt⟩) ((hpiece.blockPiece hv).2 hb)
          exact createPageEntry_pmd_traced hdes (phyAt_lt _ _ _) ((phyAt_dvd hlo hb.1).2 hcong)
            hcall
        · rw [if_neg hb, if_pos rfl] at hcall
          exact createTableEntry_pmd_traced rfl hdes hg hcall
      have hrest' := ih (hi - (v + sz)) (by omega) (v + sz) s₂ rfl (by omega)
        (fun hlt' => Or.inr (hpiece.stop.resolve_left hlt'.ne))
        (hgood.imp_right fun hno va hva => hno va (Set.mem_Ico.2
          ⟨by have := Set.mem_Ico.1 hva; omega, (Set.mem_Ico.1 hva).2⟩)) hrest
      exact (hent.traced hdes).trans (hchild.trans hrest')
    · rw [createTableEntry_done (show (wrapInfo t lo hi phy flags v).size = 0 by
        simp only [wrapInfo]
        omega)] at h
      obtain rfl : s = s' := congrArg Prod.snd h
      exact Traced.refl _

/-- The first piece that is mapped by blocks stores a block at its physical base. -/
lemma createTableEntry_pud_bad {t lo hi phy flags : ℕ} (hdes : flags &&& VM_DES_MASK = 0)
    (hg : flags &&& VM_HOST = 0) (hlo4 : 4096 ∣ lo) (hphy : 4096 ∣ phy)
    (hcong : lo % SIZE_2M ≠ phy % SIZE_2M) (k v : ℕ) (s s' : MmState σ) (hk : hi - v = k)
    (hlo : lo ≤ v) (hstart : v < hi → v = lo ∨ 2 ^ 30 ∣ v)
    (hblock : ∃ va ∈ Set.Ico v hi, BlockPiece lo hi va)
    (h : createTableEntry A (wrapInfo t lo hi phy flags v) s = (0, s')) :
    ∃ st, StoredBetween s.mem s'.mem st ∧ ¬ AlignedBlock st := by
  induction k using Nat.strong_induction_on generalizing v s with
  | _ k ih =>
    obtain ⟨va, hva, hbva⟩ := hblock
    have hva' := Set.mem_Ico.1 hva
    have hlt : v < hi := by omega
    obtain ⟨sz, value, s₁, s₂, hpiece, hent, hcall, hrest⟩ :=
      createTableEntry_wrap hlo hlt (hstart hlt) h
    have hpos := hpiece.pos
    have hend := hpiece.le_hi
    have hsuffix := createEntry_suffix hcall
    by_cases hb : SIZE_2M ∣ v ∧ SIZE_2M ∣ sz
    · rw [createEntry, getMapType_wrap hg, if_pos hb, if_neg (by decide)] at hcall
      have hphyv : 4096 ∣ phyAt lo phy v := by
        have hv : 4096 ∣ v := dvd_trans (by decide) hb.1
        unfold phyAt
        omega
      obtain ⟨st, hst, hbad⟩ := createPageEntry_pmd_stores hdes (phyAt_lt _ _ _) hphyv
        (fun hdvd => hcong ((phyAt_dvd hlo hb.1).1 hdvd)) (Nat.le_of_dvd hpos hb.2) hcall
      exact ⟨st, (hst.trans_right (createTableEntry_suffix hrest)).trans_left hent.suffix, hbad⟩
    · have hout : va ∉ Set.Ico v (v + sz) := fun hin => hb ((hpiece.blockPiece hin).1 hbva)
      have hge : v + sz ≤ va := by
        by_contra hlt'
        exact hout (Set.mem_Ico.2 ⟨hva'.1, by omega⟩)
      obtain ⟨st, hst, hbad⟩ := ih (hi - (v + sz)) (by omega) (v + sz) s₂ rfl (by omega)
        (fun hlt' => Or.inr (hpiece.stop.resolve_left hlt'.ne))
        ⟨va, Set.mem_Ico.2 ⟨hge, hva'.2⟩, hbva⟩ hrest
      exact ⟨st, hst.trans_left (hent.suffix.trans hsuffix), hbad⟩

/-! ### Guest mappings -/

lemma createGuestMapping_pages {root vir phy size flags : ℕ} (s : MmState σ) (hvir : 4096 ∣ vir)
    (hphy : 4096 ∣ phy) (hsize : 4096 ∣ size) (hvir64 : vir < 2 ^ 64) (hphy64 : phy < 2 ^ 64)
    (hsize64 : size < 2 ^ 64) :
    createGuestMapping A root vir phy size flags s =
      createMemMapping A root vir phy size flags s := by
  have hpage : PAGE_SIZE = 2 ^ 12 := rfl
  have hsum : add64 vir size = (vir + size) % 2 ^ 64 := by rw [add64]
  have htmp : balign (add64 vir size) PAGE_SIZE = (vir + size) % 2 ^ 64 := by
    rw [hpage, hsum, balign_pow (by omega) (by norm_num)]
    omega
  have hsub : sub64 ((vir + size) % 2 ^ 64) vir = size := by
    rw [sub64]
    omega
  have hal : ∀ x, 4096 ∣ x → x < 2 ^ 64 → align x PAGE_SIZE = x := by
    intro x hx hx64
    rw [hpage, align_pow hx64 (by norm_num)]
    omega
  rw [createGuestMapping, htmp, hal vir hvir hvir64, hal phy hphy hphy64, hsub]

/-- **Block descriptors.** In a page aligned request that succeeds every block descriptor has the
address of a 2MiB block, if and only if the two bases differ by a multiple of 2MiB or the range is
mapped by pages alone. -/
theorem create_guest_mapping_blocks_aligned_iff {root vir phy size flags : ℕ} {s s' : MmState σ}
    (hvir : 4096 ∣ vir) (hphy : 4096 ∣ phy) (hsize : 4096 ∣ size) (hvir64 : vir < 2 ^ 64)
    (hphy64 : phy < 2 ^ 64) (hsize64 : size < 2 ^ 64) (hguest : flags &&& VM_HOST = 0)
    (hdes : flags &&& VM_DES_MASK = 0)
    (hret : createGuestMapping A root vir phy size flags s = (0, s')) :
    (∀ a d, StoredBetween s.mem s'.mem (.word a d) → d % 4 = 1 → SIZE_2M ∣ outField 0 d) ↔
      vir % SIZE_2M = phy % SIZE_2M ∨
        ∀ va ∈ Set.Ico vir (vir + size), ¬ BlockPiece vir (vir + size) va := by
  have hrun : createTableEntry A (wrapInfo root vir (vir + size) phy flags vir) s = (0, s') := by
    rw [createGuestMapping_pages s hvir hphy hsize hvir64 hphy64 hsize64, createMemMapping,
      startLevel, hguest, if_neg (by simp)] at hret
    rw [wrapInfo, phyAt_self hphy64, Nat.add_sub_cancel_left, Nat.mod_eq_of_lt hvir64]
    exact hret
  constructor
  · intro hall
    by_contra hbad
    rw [not_or] at hbad
    push Not at hbad
    obtain ⟨st, hst, hno⟩ := createTableEntry_pud_bad hdes hguest hvir hphy hbad.1 _ vir s s' rfl
      le_rfl (fun _ => Or.inl rfl) hbad.2 hrun
    cases st with
    | word a d => exact hno (hall a d hst)
    | page b => exact hno trivial
  · intro hgood a d hst
    exact (createTableEntry_pud_traced hdes hguest _ vir s s' rfl le_rfl (fun _ => Or.inl rfl) hgood
      hrun).of_storedBetween hst

/-- Both bases are multiples of 2MiB. -/
theorem create_guest_mapping_blocks_aligned_2m :
    let r := createGuestMapping listPages 0x1000 0x40000000 0x80200000 SIZE_2M VM_NORMAL
      (zeroState [0x2000])
    r.1 = 0 ∧ ∀ a d, StoredBetween (zeroState [0x2000]).mem r.2.mem (.word a d) → d % 4 = 1 →
      SIZE_2M ∣ outField 0 d := by
  intro r
  have hret : r.1 = 0 := by decide +kernel
  exact ⟨hret, (create_guest_mapping_blocks_aligned_iff (by decide) (by decide) (by decide)
    (by decide) (by decide) (by decide) (by decide) (by decide) (Prod.ext hret rfl)).2
    (.inl (by decide))⟩

/-- 2MiB mapped to an address in the middle of a block: the call returns 0, and the descriptor holds
an address that no block has. -/
theorem create_guest_mapping_blocks_aligned_page :
    let r := createGuestMapping listPages 0x1000 0x40000000 0x80001000 SIZE_2M VM_NORMAL
      (zeroState [0x2000])
    r.1 = 0 ∧ r.2.mem.word 0x2000 = 0x800017fd ∧ outField 0 0x800017fd = 0x80001000 ∧
      ¬ ∀ a d, StoredBetween (zeroState [0x2000]).mem r.2.mem (.word a d) → d % 4 = 1 →
        SIZE_2M ∣ outField 0 d := by
  intro r
  refine ⟨by decide +kernel, by decide +kernel, by decide, fun hall => ?_⟩
  have hst : StoredBetween (zeroState [0x2000]).mem r.2.mem (.word 0x2000 0x800017fd) :=
    ⟨r.2.mem.trace, (List.append_nil _).symm, by decide +kernel⟩
  exact absurd (hall _ _ hst (by decide)) (by decide)

end Minos.Mmu
