import Mathlib
import Minos.Mm.Layout
import Minos.Mm.Regions
import Minos.Mm.Slab

/-!
# Memory for the allocators

At boot every region of `mem_list` is cut into whole blocks of 2MiB for a block section, the whole
pages at both ends for page sections, and the bytes that are left for the slab allocator.
-/

namespace Minos.Mm

open MemMap

/-- `sizeof(struct page)` -/
def PAGE_STRUCT_SIZE : ℕ := 16

def BITS_TO_LONGS (nr : ℕ) : ℕ := (nr + 64 - 1) / 64

/-- `struct mem_section` at boot. The memory behind `bitmap` and `pages` is given by its size. -/
structure BootSection where
  kind : SectionKind
  phyBase : ℕ
  size : ℕ
  nrBlocks : ℕ
  freeBlocks : ℕ
  bitmapMem : ℕ
  pagesMem : ℕ
deriving DecidableEq, Repr

/-- `mem_sections`, `free_blocks`, what is left of the boot memory, what `add_slab_mem` has taken -/
structure BootMem where
  memSections : List BootSection
  freeBlocks : ℕ
  bootmemSize : ℕ
  slabMem : List (ℕ × ℕ)
deriving DecidableEq, Repr

namespace BootMem

/-- `add_slab_mem`, up to what it does with the piece. Less than a slab is not taken. -/
def addSlabMem (s : BootMem) (base size : ℕ) : BootMem :=
  if size < SLAB_MIN_SIZE then s else { s with slabMem := s.slabMem ++ [(base, size)] }

/-- `add_page_section`. It has no result if the boot memory is used up. -/
def addPageSection (s : BootMem) (base size : ℕ) : Option (ℤ × BootMem) :=
  if size = 0 ∨ MAX_MEM_SECTIONS ≤ s.memSections.length then some (-EINVAL, s)
  else
    let memEnd := align (add64 base size) PAGE_SIZE
    let memBase := balign base PAGE_SIZE
    let realSize := sub64 memEnd memBase
    if realSize = 0 then some (0, s.addSlabMem base size)
    else do
      let nr := realSize >>> 12
      let left ← allocBootMem s.bootmemSize (BITS_TO_LONGS nr)
      let left' ← allocBootMem left (nr * PAGE_STRUCT_SIZE % 2 ^ 64)
      let ms : BootSection :=
        ⟨.page, memBase, realSize, nr, nr, s.bootmemSize - left, left - left'⟩
      let s := { s with memSections := s.memSections ++ [ms], bootmemSize := left' }
      -- the second call has the base of the first one
      some (0, (s.addSlabMem base (sub64 memBase base)).addSlabMem base
        (sub64 (add64 base size) memEnd))

/-- A call of `add_page_section` for what is left at an end of the region -/
def addLeft (s : BootMem) (base left : ℕ) : Option BootMem :=
  if 0 < left then (s.addPageSection base left).map Prod.snd else some s

/-- `add_block_section` -/
def addBlockSection (s : BootMem) (base size : ℕ) : Option (ℤ × BootMem) :=
  if size = 0 ∨ MAX_MEM_SECTIONS ≤ s.memSections.length then some (-EINVAL, s)
  else
    let memEnd := align (add64 base size) MEM_BLOCK_SIZE
    let memBase := balign base MEM_BLOCK_SIZE
    let realSize := sub64 memEnd memBase
    if realSize = 0 then (s.addPageSection base size).map fun r => (0, r.2)
    else do
      let nr := realSize >>> MEM_BLOCK_SHIFT
      let ms : BootSection := ⟨.block, memBase, realSize, nr, nr, 0, 0⟩
      let s := { s with memSections := s.memSections ++ [ms], freeBlocks := s.freeBlocks + nr }
      let s ← s.addLeft base (sub64 memBase base)
      let s ← s.addLeft (add64 memBase realSize) (sub64 (add64 base size) memEnd)
      some (0, s)

end BootMem

/-! ### What is given away -/

/-- The memory of a section, which it hands out in blocks or pages -/
def BootSection.extent (ms : BootSection) : ℕ × ℕ := (ms.phyBase, ms.nrBlocks * ms.kind.unit)

/-- The bytes of a piece -/
def pieceSet (p : ℕ × ℕ) : Set ℕ := Set.Ico p.1 (p.1 + p.2)

/-- The pieces have no byte in common. -/
def Apart (l : List (ℕ × ℕ)) : Prop := l.Pairwise fun p q => Disjoint (pieceSet p) (pieceSet q)

/-- The pieces lie between `lo` and `hi`. -/
def Inside (lo hi : ℕ) (l : List (ℕ × ℕ)) : Prop := ∀ p ∈ l, pieceSet p ⊆ Set.Ico lo hi

/-- New sections, and what `add_slab_mem` has taken -/
structure Parts where
  sections : List BootSection
  slab : List (ℕ × ℕ)

namespace Parts

def pieces (p : Parts) : List (ℕ × ℕ) := p.sections.map BootSection.extent ++ p.slab

/-- The boot memory of a page section is large enough for its bits and for its pages. -/
def Equipped (p : Parts) : Prop := ∀ ms ∈ p.sections, ms.kind = .page →
  ms.nrBlocks ≤ 8 * ms.bitmapMem ∧ ms.nrBlocks * PAGE_STRUCT_SIZE ≤ ms.pagesMem

/-- What is asked of the parts of the memory from `lo` to `hi`. -/
structure GivenOnce (lo hi : ℕ) (p : Parts) : Prop where
  inside : Inside lo hi p.pieces
  apart : Apart p.pieces
  equipped : p.Equipped

end Parts

/-- What was given away from one state to another -/
def BootMem.since (s s' : BootMem) : Parts :=
  ⟨s'.memSections.drop s.memSections.length, s'.slabMem.drop s.slabMem.length⟩

/-- The lists have grown by the parts. -/
structure BootMem.Gives (s s' : BootMem) (p : Parts) : Prop where
  sections : s'.memSections = s.memSections ++ p.sections
  slab : s'.slabMem = s.slabMem ++ p.slab

/-- The next multiple of `unit` -/
def roundUp (unit x : ℕ) : ℕ := (x + unit - 1) / unit * unit

/-- The last multiple of `unit` -/
def roundDown (unit x : ℕ) : ℕ := x / unit * unit

/-- The memory goes to the slab, or less than a slab is left behind its last page and it has no more
whole pages than a word has bits. Nothing is given away if there is no section left for it. -/
def PagesFit (n base size : ℕ) : Prop :=
  size = 0 ∨ MAX_MEM_SECTIONS ≤ n ∨
    roundDown PAGE_SIZE (base + size) = roundUp PAGE_SIZE base ∨
    (base + size < roundDown PAGE_SIZE (base + size) + SLAB_MIN_SIZE ∧
      roundDown PAGE_SIZE (base + size) - roundUp PAGE_SIZE base ≤ 64 * PAGE_SIZE)

instance (n base size : ℕ) : Decidable (PagesFit n base size) :=
  inferInstanceAs (Decidable (_ ∨ _))

/-- The number of page sections for the memory -/
def pageSections (n base size : ℕ) : ℕ :=
  if size = 0 ∨ MAX_MEM_SECTIONS ≤ n ∨
    roundDown PAGE_SIZE (base + size) = roundUp PAGE_SIZE base then 0 else 1

/-- A multiple of 2MiB is in the region or at its end, and what is not in whole blocks fits page
sections. -/
def RegionFits (n base size : ℕ) : Prop :=
  size = 0 ∨ MAX_MEM_SECTIONS ≤ n ∨
    (let lo := roundUp MEM_BLOCK_SIZE base
    let hi := roundDown MEM_BLOCK_SIZE (base + size)
    lo ≤ hi ∧
      if lo = hi then PagesFit n base size
      else PagesFit (n + 1) base (lo - base) ∧
        PagesFit (n + 1 + pageSections (n + 1) base (lo - base)) hi (base + size - hi))

instance (n base size : ℕ) : Decidable (RegionFits n base size) :=
  inferInstanceAs (Decidable (_ ∨ _ ∨ (_ ∧ _)))

/-! ### Pieces -/

section Pieces

variable {l l' : List (ℕ × ℕ)} {lo mid hi : ℕ} {p q : Parts}

lemma Apart.perm (h : Apart l) (hp : l.Perm l') : Apart l' :=
  (hp.pairwise_iff fun h => h.symm).1 h

/-- Two nonempty pieces with one base are not apart. -/
lemma not_disjoint_of_base {base a b : ℕ} (ha : 0 < a) (hb : 0 < b) :
    ¬ Disjoint (pieceSet (base, a)) (pieceSet (base, b)) := by
  rw [Set.not_disjoint_iff]
  exact ⟨base, Set.mem_Ico.2 (by dsimp only; omega), Set.mem_Ico.2 (by dsimp only; omega)⟩

lemma Inside.mono (h : Inside lo mid l) (hle : mid ≤ hi) : Inside lo hi l :=
  fun p hp => (h p hp).trans (Set.Ico_subset_Ico_right hle)

lemma Inside.mono_left (h : Inside mid hi l) (hle : lo ≤ mid) : Inside lo hi l :=
  fun p hp => (h p hp).trans (Set.Ico_subset_Ico_left hle)

lemma Apart.append (h : Apart l) (h' : Apart l') (hl : Inside lo mid l) (hl' : Inside mid hi l') :
    Apart (l ++ l') := by
  refine List.pairwise_append.2 ⟨h, h', fun p hp q hq => ?_⟩
  exact (Set.Ico_disjoint_Ico_same).mono (hl p hp) (hl' q hq)

namespace Parts

/-- The parts of two pieces of memory, side by side -/
def append (p q : Parts) : Parts := ⟨p.sections ++ q.sections, p.slab ++ q.slab⟩

lemma pieces_append : (p.append q).pieces.Perm (p.pieces ++ q.pieces) := by
  simp only [pieces, append, List.map_append, List.append_assoc]
  refine List.Perm.append_left _ ?_
  rw [← List.append_assoc, ← List.append_assoc]
  exact List.Perm.append_right _ List.perm_append_comm

lemma GivenOnce.append (hp : GivenOnce lo mid p) (hq : GivenOnce mid hi q) (hle : lo ≤ mid)
    (hle' : mid ≤ hi) : GivenOnce lo hi (p.append q) where
  inside x hx := by
    rcases List.mem_append.1 (pieces_append.mem_iff.1 hx) with hx | hx
    · exact hp.inside.mono hle' x hx
    · exact hq.inside.mono_left hle x hx
  apart := (hp.apart.append hq.apart hp.inside hq.inside).perm pieces_append.symm
  equipped ms hms := by
    rcases List.mem_append.1 hms with hms | hms
    · exact hp.equipped ms hms
    · exact hq.equipped ms hms

lemma GivenOnce.comm (h : GivenOnce lo hi (p.append q)) : GivenOnce lo hi (q.append p) := by
  have hperm : (p.append q).pieces.Perm (q.append p).pieces :=
    pieces_append.trans (List.perm_append_comm.trans pieces_append.symm)
  refine ⟨fun x hx => h.inside x (hperm.mem_iff.2 hx), h.apart.perm hperm, fun ms hms => ?_⟩
  exact h.equipped ms (List.mem_append.2 (List.mem_append.1 hms).symm)

/-- What is apart in the whole is apart in its parts. -/
lemma apart_append (h : Apart (p.append q).pieces) : Apart p.pieces ∧ Apart q.pieces := by
  have h' := List.pairwise_append.1 (h.perm pieces_append)
  exact ⟨h'.1, h'.2.1⟩

lemma equipped_append (h : (p.append q).Equipped) : p.Equipped ∧ q.Equipped :=
  ⟨fun ms hms => h ms (List.mem_append_left _ hms),
    fun ms hms => h ms (List.mem_append_right _ hms)⟩

end Parts

lemma BootMem.Gives.trans {s s₁ s' : BootMem} (h : s.Gives s₁ p) (h' : s₁.Gives s' q) :
    s.Gives s' (p.append q) where
  sections := by rw [h'.sections, h.sections, Parts.append, List.append_assoc]
  slab := by rw [h'.slab, h.slab, Parts.append, List.append_assoc]

lemma BootMem.Gives.since {s s' : BootMem} (h : s.Gives s' p) : s.since s' = p := by
  rw [BootMem.since, h.sections, h.slab, List.drop_left, List.drop_left]

end Pieces

/-! ### Page sections -/

/-- A whole number of pages as a page section -/
def pageSection (base size : ℕ) : BootSection where
  kind := .page
  phyBase := base
  size := size
  nrBlocks := size / PAGE_SIZE
  freeBlocks := size / PAGE_SIZE
  bitmapMem := balign (BITS_TO_LONGS (size / PAGE_SIZE)) 8
  pagesMem := balign (size / PAGE_SIZE * PAGE_STRUCT_SIZE) 8

/-- What `add_slab_mem` takes -/
def slabTaken (base size : ℕ) : List (ℕ × ℕ) := if size < SLAB_MIN_SIZE then [] else [(base, size)]

/-- What `add_page_section` gives away -/
def pageParts (n base size : ℕ) : Parts :=
  let lo := roundUp PAGE_SIZE base
  let hi := roundDown PAGE_SIZE (base + size)
  if size = 0 ∨ MAX_MEM_SECTIONS ≤ n then ⟨[], []⟩
  else if hi = lo then ⟨[], slabTaken base size⟩
  else ⟨[pageSection lo (hi - lo)],
    slabTaken base (lo - base) ++ slabTaken base (base + size - hi)⟩

section Rounding

lemma roundDown_le (k x : ℕ) : roundDown (2 ^ k) x ≤ x := Nat.div_mul_le_self x (2 ^ k)

lemma le_roundUp (k x : ℕ) : x ≤ roundUp (2 ^ k) x := by
  have hpos : 0 < 2 ^ k := by positivity
  have := Nat.lt_div_mul_add (a := x + 2 ^ k - 1) hpos
  rw [roundUp]
  omega

lemma dvd_roundUp (unit x : ℕ) : unit ∣ roundUp unit x := Dvd.intro_left _ rfl

lemma dvd_roundDown (unit x : ℕ) : unit ∣ roundDown unit x := Dvd.intro_left _ rfl

lemma align_eq_roundDown {x k : ℕ} (hx : x < 2 ^ 64) (hk : k ≤ 64) :
    align x (2 ^ k) = roundDown (2 ^ k) x := align_pow hx hk

lemma balign_eq_roundUp {x k : ℕ} (hx : x + 2 ^ k ≤ 2 ^ 64) (hk : k ≤ 64) :
    balign x (2 ^ k) = roundUp (2 ^ k) x := balign_pow hx hk

/-- The next multiple, if it is an address -/
lemma balign_of_boundary {x y k : ℕ} (hk : k ≤ 64) (hy : y < 2 ^ 64)
    (hle : roundUp (2 ^ k) x ≤ roundDown (2 ^ k) y) :
    balign x (2 ^ k) = roundUp (2 ^ k) x := by
  refine balign_eq_roundUp ?_ hk
  have hup := le_roundUp k x
  have hdown := roundDown_le k y
  -- the multiple is below `2 ^ 64`, so a whole unit fits above it
  have hdvd : 2 ^ k ∣ 2 ^ 64 := pow_dvd_pow 2 hk
  have := Nat.le_of_dvd (by omega) (Nat.dvd_sub hdvd (dvd_roundUp _ x))
  omega

end Rounding

namespace BootMem

variable {s s' : BootMem} {base size left : ℕ} {ret : ℤ}

lemma addSlabMem_slabMem (s : BootMem) (base size : ℕ) :
    (s.addSlabMem base size).slabMem = s.slabMem ++ slabTaken base size := by
  rw [addSlabMem, slabTaken]
  split_ifs <;> simp

lemma addSlabMem_memSections (s : BootMem) (base size : ℕ) :
    (s.addSlabMem base size).memSections = s.memSections := by
  rw [addSlabMem]
  split_ifs <;> rfl

/-- What is taken of the boot memory -/
lemma allocBootMem_some {boot rest n : ℕ} (h : allocBootMem boot n = some rest) :
    boot - rest = balign n 8 := by
  rw [allocBootMem] at h
  split_ifs at h with hlt
  obtain rfl := Option.some.inj h
  omega

lemma addPageSection_parts (hend : base + size < 2 ^ 64)
    (hpage : roundUp PAGE_SIZE base ≤ roundDown PAGE_SIZE (base + size))
    (h : s.addPageSection base size = some (ret, s')) :
    s.Gives s' (pageParts s.memSections.length base size) := by
  have h12 : PAGE_SIZE = 2 ^ 12 := rfl
  have hdown := roundDown_le 12 (base + size)
  have hup := le_roundUp 12 base
  rw [← h12] at hdown hup
  have hhi : align (add64 base size) PAGE_SIZE = roundDown PAGE_SIZE (base + size) := by
    rw [add64_of_lt hend, h12, align_eq_roundDown hend (by norm_num)]
  have hlo : balign base PAGE_SIZE = roundUp PAGE_SIZE base := by
    rw [h12] at hpage ⊢
    exact balign_of_boundary (by norm_num) hend hpage
  rw [addPageSection] at h
  rw [pageParts]
  dsimp only at h ⊢
  rw [hhi, hlo, sub64_of_le hpage (by omega), add64_of_lt hend, sub64_of_le hup (by omega),
    sub64_of_le hdown hend] at h
  by_cases hno : size = 0 ∨ MAX_MEM_SECTIONS ≤ s.memSections.length
  · rw [if_pos hno] at h ⊢
    obtain rfl := (Prod.mk.inj (Option.some.inj h)).2
    exact ⟨(List.append_nil _).symm, (List.append_nil _).symm⟩
  rw [if_neg hno] at h ⊢
  by_cases hreal : roundDown PAGE_SIZE (base + size) = roundUp PAGE_SIZE base
  · rw [if_pos hreal]
    rw [if_pos (by omega)] at h
    obtain rfl := (Prod.mk.inj (Option.some.inj h)).2
    exact ⟨by simp [addSlabMem_memSections], addSlabMem_slabMem s base size⟩
  · rw [if_neg hreal]
    rw [if_neg (by omega)] at h
    have hnr : (roundDown PAGE_SIZE (base + size) - roundUp PAGE_SIZE base) >>> 12 =
        (roundDown PAGE_SIZE (base + size) - roundUp PAGE_SIZE base) / PAGE_SIZE := by
      rw [Nat.shiftRight_eq_div_pow, h12]
    have hbytes : (roundDown PAGE_SIZE (base + size) - roundUp PAGE_SIZE base) / PAGE_SIZE *
        PAGE_STRUCT_SIZE < 2 ^ 64 := by
      rw [h12] at hdown ⊢
      unfold PAGE_STRUCT_SIZE
      omega
    simp only [Option.bind_eq_bind, Option.bind_eq_some_iff, hnr, Nat.mod_eq_of_lt hbytes] at h
    obtain ⟨left, hleft, left', hleft', heq⟩ := h
    obtain rfl := (Prod.mk.inj (Option.some.inj heq)).2
    constructor
    · simp [addSlabMem_memSections, pageSection, allocBootMem_some hleft, allocBootMem_some hleft']
    · simp [addSlabMem_slabMem]

end BootMem

section PageParts

variable {n base size : ℕ}

/-- The bitmap of a page section has as many bytes as it should have words, and is rounded up to one
word. -/
lemma pageSection_equipped (hsize : size < 2 ^ 64) (hdvd : PAGE_SIZE ∣ size) :
    ((pageSection base size).nrBlocks ≤ 8 * (pageSection base size).bitmapMem ∧
        (pageSection base size).nrBlocks * PAGE_STRUCT_SIZE ≤ (pageSection base size).pagesMem) ↔
      size ≤ 64 * PAGE_SIZE := by
  have h12 : PAGE_SIZE = 4096 := rfl
  have h8 : ∀ x, x + 8 ≤ 2 ^ 64 → balign x 8 = (x + 8 - 1) / 8 * 8 := fun x hx =>
    balign_pow (show x + 2 ^ 3 ≤ 2 ^ 64 from hx) (by norm_num)
  simp only [pageSection, BITS_TO_LONGS, PAGE_STRUCT_SIZE, h12] at hdvd ⊢
  rw [h8 _ (by omega), h8 _ (by omega)]
  omega

lemma mem_slabTaken {p : ℕ × ℕ} :
    p ∈ slabTaken base size ↔ SLAB_MIN_SIZE ≤ size ∧ p = (base, size) := by
  rw [slabTaken]
  split_ifs with h
  · simp [Nat.not_le.2 h]
  · simp [Nat.not_lt.1 h]

lemma slabTaken_apart : Apart (slabTaken base size) := by
  rw [slabTaken]
  split_ifs
  exacts [List.Pairwise.nil, List.pairwise_singleton _ _]

/-- The pieces of a page section and its ends -/
lemma pieces_pageParts (hno : ¬ (size = 0 ∨ MAX_MEM_SECTIONS ≤ n))
    (hreal : roundDown PAGE_SIZE (base + size) ≠ roundUp PAGE_SIZE base) :
    (pageParts n base size).pieces =
      (roundUp PAGE_SIZE base, roundDown PAGE_SIZE (base + size) - roundUp PAGE_SIZE base) ::
        (slabTaken base (roundUp PAGE_SIZE base - base) ++
          slabTaken base (base + size - roundDown PAGE_SIZE (base + size))) := by
  have hdvd : PAGE_SIZE ∣ roundDown PAGE_SIZE (base + size) - roundUp PAGE_SIZE base :=
    Nat.dvd_sub (dvd_roundDown _ _) (dvd_roundUp _ _)
  rw [pageParts, if_neg hno, if_neg hreal]
  simp [Parts.pieces, BootSection.extent, pageSection, SectionKind.unit, Nat.div_mul_cancel hdvd]

lemma pageParts_equipped_iff (hend : base + size < 2 ^ 64)
    (hno : ¬ (size = 0 ∨ MAX_MEM_SECTIONS ≤ n))
    (hreal : roundDown PAGE_SIZE (base + size) ≠ roundUp PAGE_SIZE base) :
    (pageParts n base size).Equipped ↔
      roundDown PAGE_SIZE (base + size) - roundUp PAGE_SIZE base ≤ 64 * PAGE_SIZE := by
  have hdown : roundDown PAGE_SIZE (base + size) ≤ base + size := roundDown_le 12 _
  have hsize : roundDown PAGE_SIZE (base + size) - roundUp PAGE_SIZE base < 2 ^ 64 := by omega
  have hdvd : PAGE_SIZE ∣ roundDown PAGE_SIZE (base + size) - roundUp PAGE_SIZE base :=
    Nat.dvd_sub (dvd_roundDown _ _) (dvd_roundUp _ _)
  rw [pageParts, if_neg hno, if_neg hreal, Parts.Equipped, List.forall_mem_singleton,
    pageSection_equipped hsize hdvd]
  exact forall_prop_of_true rfl

/-- Memory that fits is given away once. -/
lemma pageParts_givenOnce (hend : base + size < 2 ^ 64)
    (hpage : roundUp PAGE_SIZE base ≤ roundDown PAGE_SIZE (base + size))
    (hfit : PagesFit n base size) : (pageParts n base size).GivenOnce base (base + size) := by
  have hdown := roundDown_le 12 (base + size)
  have hup := le_roundUp 12 base
  rw [show 2 ^ 12 = PAGE_SIZE from rfl] at hdown hup
  by_cases hno : size = 0 ∨ MAX_MEM_SECTIONS ≤ n
  · have hparts : pageParts n base size = ⟨[], []⟩ := if_pos hno
    rw [hparts]
    exact ⟨nofun, List.Pairwise.nil, nofun⟩
  by_cases hreal : roundDown PAGE_SIZE (base + size) = roundUp PAGE_SIZE base
  · have hparts : pageParts n base size = ⟨[], slabTaken base size⟩ := by
      rw [pageParts, if_neg hno, if_pos hreal]
    rw [hparts]
    refine ⟨?_, slabTaken_apart, nofun⟩
    intro p hp
    obtain ⟨-, rfl⟩ := mem_slabTaken.1 hp
    exact Set.Subset.rfl
  · rw [not_or] at hno
    obtain ⟨hleft, hbits⟩ := ((hfit.resolve_left hno.1).resolve_left hno.2).resolve_left hreal
    have hnone : slabTaken base (base + size - roundDown PAGE_SIZE (base + size)) = [] :=
      if_pos (by omega)
    have hpieces := pieces_pageParts (not_or.2 hno) hreal
    rw [hnone, List.append_nil] at hpieces
    refine ⟨?_, ?_, (pageParts_equipped_iff hend (not_or.2 hno) hreal).2 hbits⟩
    · rw [hpieces]
      intro p hp x hx
      rcases List.mem_cons.1 hp with rfl | hp
      · simp only [pieceSet, Set.mem_Ico] at hx ⊢
        omega
      · obtain ⟨-, rfl⟩ := mem_slabTaken.1 hp
        simp only [pieceSet, Set.mem_Ico] at hx ⊢
        omega
    · rw [hpieces]
      refine List.pairwise_cons.2 ⟨fun q hq => ?_, slabTaken_apart⟩
      obtain ⟨-, rfl⟩ := mem_slabTaken.1 hq
      -- what is before the first page
      refine Set.disjoint_left.2 fun x hx hx' => ?_
      simp only [pieceSet, Set.mem_Ico] at hx hx'
      omega

/-- Pieces that are apart, with enough boot memory, come from memory that fits: the two calls of
`add_slab_mem` have one base, and what the second one takes reaches into the first or into the
pages. -/
lemma pagesFit_of_apart (hend : base + size < 2 ^ 64)
    (hpage : roundUp PAGE_SIZE base ≤ roundDown PAGE_SIZE (base + size))
    (hapart : Apart (pageParts n base size).pieces) (hequip : (pageParts n base size).Equipped) :
    PagesFit n base size := by
  by_cases hno : size = 0 ∨ MAX_MEM_SECTIONS ≤ n
  · exact hno.imp_right .inl
  by_cases hreal : roundDown PAGE_SIZE (base + size) = roundUp PAGE_SIZE base
  · exact .inr (.inr (.inl hreal))
  refine .inr (.inr (.inr ⟨?_, (pageParts_equipped_iff hend hno hreal).1 hequip⟩))
  by_contra hleft
  have hslab : 0 < SLAB_MIN_SIZE := by decide
  have hdown := roundDown_le 12 (base + size)
  have hup := le_roundUp 12 base
  rw [show 2 ^ 12 = PAGE_SIZE from rfl] at hdown hup
  have htail : (base, base + size - roundDown PAGE_SIZE (base + size)) ∈
      slabTaken base (base + size - roundDown PAGE_SIZE (base + size)) :=
    mem_slabTaken.2 ⟨by omega, rfl⟩
  rw [pieces_pageParts hno hreal] at hapart
  obtain ⟨hpages, hslabs⟩ := List.pairwise_cons.1 hapart
  by_cases hhead : roundUp PAGE_SIZE base - base < SLAB_MIN_SIZE
  · -- nothing is taken before the pages, and the tail covers the first of them
    refine Set.not_disjoint_iff.2 ⟨roundUp PAGE_SIZE base, ?_, ?_⟩
      (hpages _ (List.mem_append_right _ htail))
    all_goals
      simp only [pieceSet, Set.mem_Ico]
      omega
  · have hfirst : (base, roundUp PAGE_SIZE base - base) ∈
        slabTaken base (roundUp PAGE_SIZE base - base) :=
      mem_slabTaken.2 ⟨Nat.not_lt.1 hhead, rfl⟩
    exact not_disjoint_of_base (by omega) (by omega)
      ((List.pairwise_append.1 hslabs).2.2 _ hfirst _ htail)

end PageParts

/-! ### Regions -/

section Regions

variable {s s' : BootMem} {n base size left : ℕ} {ret : ℤ}

lemma pageParts_sections_length (n base size : ℕ) :
    (pageParts n base size).sections.length = pageSections n base size := by
  rw [pageParts, pageSections]
  by_cases hno : size = 0 ∨ MAX_MEM_SECTIONS ≤ n
  · rw [if_pos hno, if_pos (hno.imp_right .inl)]
    rfl
  rw [if_neg hno]
  by_cases hreal : roundDown PAGE_SIZE (base + size) = roundUp PAGE_SIZE base
  · rw [if_pos hreal, if_pos (.inr (.inr hreal))]
    rfl
  · rw [if_neg hreal, if_neg (fun h => hno (h.imp_right fun h => h.resolve_right hreal))]
    rfl

/-- Memory with a multiple of the page size in it or at one of its ends -/
lemma page_boundary {x : ℕ} (hx : PAGE_SIZE ∣ x) (hlo : base ≤ x) (hhi : x ≤ base + size) :
    roundUp PAGE_SIZE base ≤ roundDown PAGE_SIZE (base + size) := by
  have h12 : PAGE_SIZE = 4096 := rfl
  simp only [roundUp, roundDown, h12] at hx ⊢
  omega

lemma addLeft_parts (hend : base + left < 2 ^ 64) {x : ℕ} (hx : PAGE_SIZE ∣ x) (hlo : base ≤ x)
    (hhi : x ≤ base + left) (h : s.addLeft base left = some s') :
    s.Gives s' (pageParts s.memSections.length base left) := by
  rw [BootMem.addLeft] at h
  split_ifs at h with hpos
  · obtain ⟨⟨ret, s₁⟩, hcall, rfl⟩ := Option.map_eq_some_iff.1 h
    exact BootMem.addPageSection_parts hend (page_boundary hx hlo hhi) hcall
  · obtain rfl := Option.some.inj h
    have hempty : pageParts s.memSections.length base left = ⟨[], []⟩ := if_pos (.inl (by omega))
    rw [hempty]
    exact ⟨(List.append_nil _).symm, (List.append_nil _).symm⟩

lemma addPageSection_extends (h : s.addPageSection base size = some (ret, s')) :
    s.memSections <+: s'.memSections := by
  rw [BootMem.addPageSection] at h
  dsimp only at h
  split_ifs at h
  · obtain rfl := (Prod.mk.inj (Option.some.inj h)).2
    exact List.prefix_rfl
  · obtain rfl := (Prod.mk.inj (Option.some.inj h)).2
    rw [BootMem.addSlabMem_memSections]
  · simp only [Option.bind_eq_bind, Option.bind_eq_some_iff] at h
    obtain ⟨_, -, _, -, heq⟩ := h
    obtain rfl := (Prod.mk.inj (Option.some.inj heq)).2
    rw [BootMem.addSlabMem_memSections, BootMem.addSlabMem_memSections]
    exact List.prefix_append _ _

lemma addLeft_extends (h : s.addLeft base left = some s') : s.memSections <+: s'.memSections := by
  rw [BootMem.addLeft] at h
  split_ifs at h
  · obtain ⟨⟨ret, s₁⟩, hcall, rfl⟩ := Option.map_eq_some_iff.1 h
    exact addPageSection_extends hcall
  · obtain rfl := Option.some.inj h
    exact List.prefix_rfl

/-- Whole blocks as a block section -/
def blockSection (base size : ℕ) : BootSection :=
  ⟨.block, base, size, size / MEM_BLOCK_SIZE, size / MEM_BLOCK_SIZE, 0, 0⟩

lemma blockSection_givenOnce (base : ℕ) (hdvd : MEM_BLOCK_SIZE ∣ size) :
    Parts.GivenOnce base (base + size) ⟨[blockSection base size], []⟩ := by
  have hpieces : Parts.pieces ⟨[blockSection base size], []⟩ = [(base, size)] := by
    simp [Parts.pieces, BootSection.extent, blockSection, SectionKind.unit,
      Nat.div_mul_cancel hdvd]
  refine ⟨?_, ?_, ?_⟩
  · rw [hpieces]
    intro p hp
    obtain rfl := List.mem_singleton.1 hp
    exact Set.Subset.rfl
  · rw [hpieces]
    exact List.pairwise_singleton _ _
  · intro ms hms hkind
    obtain rfl := List.mem_singleton.1 hms
    exact absurd hkind (by simp [blockSection])

/-- Without a multiple of 2MiB the region gets a block section that starts behind it. -/
lemma addBlockSection_outside (hend : base + size < 2 ^ 64)
    (hno : ¬ (size = 0 ∨ MAX_MEM_SECTIONS ≤ s.memSections.length))
    (hblock : ¬ roundUp MEM_BLOCK_SIZE base ≤ roundDown MEM_BLOCK_SIZE (base + size))
    (h : s.addBlockSection base size = some (ret, s')) :
    ¬ Inside base (base + size) (s.since s').pieces := by
  have h21 : MEM_BLOCK_SIZE = 2 ^ 21 := rfl
  have hmemEnd : align (add64 base size) MEM_BLOCK_SIZE =
      roundDown MEM_BLOCK_SIZE (base + size) := by
    rw [add64_of_lt hend, h21, align_eq_roundDown hend (by norm_num)]
  obtain ⟨memBase, hmemBase, hout, hne, hlt⟩ : ∃ memBase, balign base MEM_BLOCK_SIZE = memBase ∧
      memBase ∉ Set.Ico base (base + size) ∧
      sub64 (roundDown MEM_BLOCK_SIZE (base + size)) memBase ≠ 0 ∧
      MEM_BLOCK_SIZE ≤ sub64 (roundDown MEM_BLOCK_SIZE (base + size)) memBase := by
    refine ⟨_, rfl, ?_⟩
    rw [roundUp, roundDown, h21] at hblock
    rw [h21, balign, and_lnot_pow (Nat.mod_lt _ (by norm_num)) (by norm_num), roundDown, sub64,
      Set.mem_Ico]
    omega
  rw [BootMem.addBlockSection, if_neg hno] at h
  dsimp only at h
  rw [hmemEnd, hmemBase, if_neg hne] at h
  simp only [Option.bind_eq_bind, Option.bind_eq_some_iff] at h
  obtain ⟨s₁, h₁, s₂, h₂, heq⟩ := h
  obtain rfl := (Prod.mk.inj (Option.some.inj heq)).2
  obtain ⟨rest, hrest⟩ := (addLeft_extends h₁).trans (addLeft_extends h₂)
  intro hinside
  have hmem : ∀ ms, s₂.memSections = s.memSections ++ ms :: rest →
      ms.extent ∈ (s.since s₂).pieces := by
    intro ms hms
    rw [BootMem.since, hms, List.drop_left]
    exact List.mem_append_left _ (List.mem_map_of_mem List.mem_cons_self)
  have hpiece := hinside _ (hmem _ (by rw [← hrest, List.append_assoc]; rfl))
  refine hout (hpiece (Set.mem_Ico.2 ⟨le_rfl, ?_⟩))
  simp only [BootSection.extent, SectionKind.unit, Nat.shiftRight_eq_div_pow]
  have hnr : 0 < sub64 (roundDown MEM_BLOCK_SIZE (base + size)) memBase / 2 ^ MEM_BLOCK_SHIFT :=
    Nat.div_pos hlt (by decide)
  have := Nat.mul_pos hnr (show 0 < MEM_BLOCK_SIZE by decide)
  omega

/-- A region with a multiple of 2MiB, but without a whole block -/
lemma addBlockSection_pages (hend : base + size < 2 ^ 64)
    (hno : ¬ (size = 0 ∨ MAX_MEM_SECTIONS ≤ s.memSections.length))
    (hblock : roundUp MEM_BLOCK_SIZE base = roundDown MEM_BLOCK_SIZE (base + size))
    (h : s.addBlockSection base size = some (ret, s')) :
    s.since s' = pageParts s.memSections.length base size := by
  have h21 : MEM_BLOCK_SIZE = 2 ^ 21 := rfl
  have hhi : align (add64 base size) MEM_BLOCK_SIZE = roundDown MEM_BLOCK_SIZE (base + size) := by
    rw [add64_of_lt hend, h21, align_eq_roundDown hend (by norm_num)]
  have hlo : balign base MEM_BLOCK_SIZE = roundUp MEM_BLOCK_SIZE base := by
    rw [h21] at hblock ⊢
    exact balign_of_boundary (by norm_num) hend hblock.le
  have hdown : roundDown MEM_BLOCK_SIZE (base + size) ≤ base + size := roundDown_le 21 _
  have hup : base ≤ roundUp MEM_BLOCK_SIZE base := le_roundUp 21 base
  have hpage : PAGE_SIZE ∣ roundUp MEM_BLOCK_SIZE base :=
    (show PAGE_SIZE ∣ MEM_BLOCK_SIZE by decide).trans (dvd_roundUp _ _)
  rw [BootMem.addBlockSection, if_neg hno] at h
  dsimp only at h
  rw [hhi, hlo, sub64_of_le hblock.le (by omega), if_pos (by omega)] at h
  obtain ⟨⟨ret', s₁⟩, hcall, heq⟩ := Option.map_eq_some_iff.1 h
  obtain rfl := (Prod.mk.inj heq).2
  exact (BootMem.addPageSection_parts hend
    (page_boundary hpage hup (hblock.trans_le hdown)) hcall).since

/-- A region with whole blocks: the block section, and page sections for both ends -/
lemma addBlockSection_blocks (hend : base + size < 2 ^ 64)
    (hno : ¬ (size = 0 ∨ MAX_MEM_SECTIONS ≤ s.memSections.length))
    (hblock : roundUp MEM_BLOCK_SIZE base < roundDown MEM_BLOCK_SIZE (base + size))
    (h : s.addBlockSection base size = some (ret, s')) :
    s.since s' =
      (Parts.append
        (Parts.append
          ⟨[blockSection (roundUp MEM_BLOCK_SIZE base)
            (roundDown MEM_BLOCK_SIZE (base + size) - roundUp MEM_BLOCK_SIZE base)], []⟩
          (pageParts (s.memSections.length + 1) base (roundUp MEM_BLOCK_SIZE base - base)))
        (pageParts (s.memSections.length + 1 + pageSections (s.memSections.length + 1) base
            (roundUp MEM_BLOCK_SIZE base - base))
          (roundDown MEM_BLOCK_SIZE (base + size))
          (base + size - roundDown MEM_BLOCK_SIZE (base + size)))) := by
  have h21 : MEM_BLOCK_SIZE = 2 ^ 21 := rfl
  have hhi : align (add64 base size) MEM_BLOCK_SIZE = roundDown MEM_BLOCK_SIZE (base + size) := by
    rw [add64_of_lt hend, h21, align_eq_roundDown hend (by norm_num)]
  have hlo : balign base MEM_BLOCK_SIZE = roundUp MEM_BLOCK_SIZE base := by
    rw [h21] at hblock ⊢
    exact balign_of_boundary (by norm_num) hend hblock.le
  have hdown : roundDown MEM_BLOCK_SIZE (base + size) ≤ base + size := roundDown_le 21 _
  have hup : base ≤ roundUp MEM_BLOCK_SIZE base := le_roundUp 21 base
  have hunit : PAGE_SIZE ∣ MEM_BLOCK_SIZE := by decide
  have hnr : (roundDown MEM_BLOCK_SIZE (base + size) - roundUp MEM_BLOCK_SIZE base) >>>
      MEM_BLOCK_SHIFT =
        (roundDown MEM_BLOCK_SIZE (base + size) - roundUp MEM_BLOCK_SIZE base) /
          MEM_BLOCK_SIZE := by
    rw [Nat.shiftRight_eq_div_pow, show 2 ^ MEM_BLOCK_SHIFT = MEM_BLOCK_SIZE by decide]
  rw [BootMem.addBlockSection, if_neg hno] at h
  dsimp only at h
  rw [hhi, hlo, sub64_of_le hblock.le (by omega), if_neg (by omega), sub64_of_le hup (by omega),
    add64_of_lt hend, sub64_of_le hdown hend, add64_of_lt (by omega),
    Nat.add_sub_of_le hblock.le, hnr] at h
  simp only [Option.bind_eq_bind, Option.bind_eq_some_iff] at h
  obtain ⟨s₁, h₁, s₂, h₂, heq⟩ := h
  obtain rfl := (Prod.mk.inj (Option.some.inj heq)).2
  have hgives := addLeft_parts (by omega) (hunit.trans (dvd_roundUp _ base)) hup (by omega) h₁
  have hgives' := addLeft_parts (by omega) (hunit.trans (dvd_roundDown _ (base + size))) le_rfl
    (by omega) h₂
  rw [hgives.sections, List.length_append, pageParts_sections_length] at hgives'
  rw [List.length_append, List.length_singleton] at hgives hgives'
  exact ((BootMem.Gives.trans ⟨rfl, (List.append_nil _).symm⟩ hgives).trans hgives').since

/-- Memory that goes to a page section is given away once if and only if it fits. -/
lemma pageParts_iff (hend : base + size < 2 ^ 64) {x : ℕ} (hx : PAGE_SIZE ∣ x) (hlo : base ≤ x)
    (hhi : x ≤ base + size) :
    (pageParts n base size).GivenOnce base (base + size) ↔ PagesFit n base size :=
  have hpage := page_boundary hx hlo hhi
  ⟨fun h => pagesFit_of_apart hend hpage h.apart h.equipped, pageParts_givenOnce hend hpage⟩

lemma regionFits_iff (hno : ¬ (size = 0 ∨ MAX_MEM_SECTIONS ≤ n)) : RegionFits n base size ↔
    roundUp MEM_BLOCK_SIZE base ≤ roundDown MEM_BLOCK_SIZE (base + size) ∧
      if roundUp MEM_BLOCK_SIZE base = roundDown MEM_BLOCK_SIZE (base + size) then
        PagesFit n base size
      else PagesFit (n + 1) base (roundUp MEM_BLOCK_SIZE base - base) ∧
        PagesFit (n + 1 + pageSections (n + 1) base (roundUp MEM_BLOCK_SIZE base - base))
          (roundDown MEM_BLOCK_SIZE (base + size))
          (base + size - roundDown MEM_BLOCK_SIZE (base + size)) := by
  rw [not_or] at hno
  rw [RegionFits, or_iff_right hno.1, or_iff_right hno.2]

end Regions

/-- `add_block_section` gives every byte away at most once, and only bytes of the region, with enough
boot memory for its page sections, if and only if the region fits. -/
theorem add_block_section_once_iff {s s' : BootMem} {base size : ℕ} {ret : ℤ}
    (hend : base + size < 2 ^ 64) (h : s.addBlockSection base size = some (ret, s')) :
    (s.since s').GivenOnce base (base + size) ↔ RegionFits s.memSections.length base size := by
  by_cases hno : size = 0 ∨ MAX_MEM_SECTIONS ≤ s.memSections.length
  · rw [BootMem.addBlockSection, if_pos hno] at h
    obtain rfl := (Prod.mk.inj (Option.some.inj h)).2
    have hnone : s.since s = ⟨[], []⟩ := by simp [BootMem.since]
    rw [hnone]
    exact iff_of_true ⟨nofun, List.Pairwise.nil, nofun⟩ (hno.imp_right .inl)
  rw [regionFits_iff hno]
  have hdown : roundDown MEM_BLOCK_SIZE (base + size) ≤ base + size := roundDown_le 21 _
  have hup : base ≤ roundUp MEM_BLOCK_SIZE base := le_roundUp 21 base
  have hunit : PAGE_SIZE ∣ MEM_BLOCK_SIZE := by decide
  have hpageUp := hunit.trans (dvd_roundUp MEM_BLOCK_SIZE base)
  have hpageDown := hunit.trans (dvd_roundDown MEM_BLOCK_SIZE (base + size))
  rcases lt_trichotomy (roundUp MEM_BLOCK_SIZE base) (roundDown MEM_BLOCK_SIZE (base + size))
    with hlt | heq | hgt
  · rw [addBlockSection_blocks hend hno hlt h, if_neg hlt.ne]
    have hhead := pageParts_iff (n := s.memSections.length + 1)
      (show base + (roundUp MEM_BLOCK_SIZE base - base) < 2 ^ 64 by omega) hpageUp hup (by omega)
    have htail := pageParts_iff
      (n := s.memSections.length + 1 + pageSections (s.memSections.length + 1) base
        (roundUp MEM_BLOCK_SIZE base - base))
      (show roundDown MEM_BLOCK_SIZE (base + size) +
        (base + size - roundDown MEM_BLOCK_SIZE (base + size)) < 2 ^ 64 by omega)
      hpageDown le_rfl (by omega)
    rw [Nat.add_sub_of_le hup] at hhead
    rw [Nat.add_sub_of_le hdown] at htail
    constructor
    · intro hgiven
      obtain ⟨hapart, hapartTail⟩ := Parts.apart_append hgiven.apart
      obtain ⟨hequip, hequipTail⟩ := Parts.equipped_append hgiven.equipped
      refine ⟨hlt.le, ?_, ?_⟩
      · exact pagesFit_of_apart (by omega) (page_boundary hpageUp hup (by omega))
          (Parts.apart_append hapart).2 (Parts.equipped_append hequip).2
      · exact pagesFit_of_apart (by omega) (page_boundary hpageDown le_rfl (by omega))
          hapartTail hequipTail
    · rintro ⟨-, hfitHead, hfitTail⟩
      have hblocks := blockSection_givenOnce (roundUp MEM_BLOCK_SIZE base)
        (Nat.dvd_sub (dvd_roundDown MEM_BLOCK_SIZE (base + size))
          (dvd_roundUp MEM_BLOCK_SIZE base))
      rw [Nat.add_sub_of_le hlt.le] at hblocks
      exact ((hhead.2 hfitHead).append hblocks hup hlt.le).comm.append (htail.2 hfitTail)
        (by omega) hdown
  · rw [addBlockSection_pages hend hno heq h, if_pos heq, and_iff_right heq.le]
    exact pageParts_iff hend hpageUp hup (by omega)
  · refine iff_of_false (fun hgiven => ?_) (fun hfit => absurd hfit.1 (by omega))
    exact addBlockSection_outside hend hno (by omega) h hgiven.inside

/-- Two blocks with one page before them and one behind them -/
theorem add_block_section_once_pages :
    (BootMem.mk [] 0 0x8000 []).addBlockSection 0x401ff000 0x402000 =
        some (0, ⟨[⟨.block, 0x40200000, 0x400000, 2, 2, 0, 0⟩,
          ⟨.page, 0x401ff000, 0x1000, 1, 1, 8, 16⟩,
          ⟨.page, 0x40600000, 0x1000, 1, 1, 8, 16⟩], 2, 0x7fd0, []⟩) ∧
      ∀ s', (BootMem.mk [] 0 0x8000 []).addBlockSection 0x401ff000 0x402000 = some (0, s') →
        ((BootMem.mk [] 0 0x8000 []).since s').GivenOnce 0x401ff000 (0x401ff000 + 0x402000) :=
  ⟨by decide +kernel, fun _ h => (add_block_section_once_iff (by norm_num) h).2 (by decide)⟩

/-- A page and half a page are left behind the block: the half is taken to be where the page is. -/
theorem add_block_section_once_tail :
    ∃ s', (BootMem.mk [] 0 0x8000 []).addBlockSection 0x40000000 0x201800 = some (0, s') ∧
      (0x40200000, 0x800) ∈ s'.slabMem ∧
      ⟨.page, 0x40200000, 0x1000, 1, 1, 8, 16⟩ ∈ s'.memSections ∧
      ¬ ((BootMem.mk [] 0 0x8000 []).since s').GivenOnce 0x40000000 (0x40000000 + 0x201800) := by
  refine ⟨⟨[⟨.block, 0x40000000, 0x200000, 1, 1, 0, 0⟩,
    ⟨.page, 0x40200000, 0x1000, 1, 1, 8, 16⟩], 1, 0x7fe8, [(0x40200000, 0x800)]⟩,
    by decide +kernel, by decide, by decide, fun h => ?_⟩
  have hpages : pieceSet (0x40200000, 0x1000) ∩ pieceSet (0x40200000, 0x800) = ∅ :=
    (List.pairwise_cons.1 (List.pairwise_cons.1 h.apart).2).1 _
      (List.mem_singleton_self _) |>.inter_eq
  have hmem : (0x40200000 : ℕ) ∈ pieceSet (0x40200000, 0x1000) ∩ pieceSet (0x40200000, 0x800) := by
    simp [pieceSet]
  rw [hpages] at hmem
  exact hmem

end Minos.Mm
