import Mathlib
import Minos.Lib.Run
import Minos.Mm.BootSections

/-!
# The boot memory

Before the sections are there, memory comes from an area behind the image of the kernel. Bytes are
taken from its start and pages from its end, and one counter says what is left between the two.

Beside the variables of the allocators stand the regions that were returned, with the size that was
asked for.
-/

namespace Minos.Mm

open Run

def BOOTMEM_MIN_SIZE : ℕ := 32 * 1024

/-- The image, the memory that it has and the configuration. All of it lies in the address space. -/
structure KernelImage where
  codeStart : ℕ
  codeEnd : ℕ
  ramSize : ℕ
  bootmemSize : Option ℕ
  simpleAllocater : Bool
  code : codeStart ≤ codeEnd
  ram : codeEnd + ramSize + PAGE_SIZE ≤ 2 ^ 64
  boot : codeEnd + max BOOTMEM_MIN_SIZE (bootmemSize.getD 0) + PAGE_SIZE ≤ 2 ^ 64

/-- `min_size` of `bootmem_init`, before it is compared with the memory -/
def KernelImage.minSize (C : KernelImage) : ℕ :=
  match C.bootmemSize with
  | some n => if n < BOOTMEM_MIN_SIZE then BOOTMEM_MIN_SIZE else n
  | none => BOOTMEM_MIN_SIZE

/-- The variables of the boot memory -/
structure BootArea where
  bootmemStart : ℕ
  bootmemEnd : ℕ
  bootmemSize : ℕ
  bootmemPageBase : ℕ
deriving DecidableEq, Repr

/-- `bootmem_init`. It panics, and has no result, if the memory is too small. -/
def bootmemInit (C : KernelImage) : Option BootArea :=
  let size := balign (sub64 C.codeEnd C.codeStart) PAGE_SIZE
  if C.ramSize ≤ add64 size C.minSize then none
  else
    let size := sub64 C.ramSize size
    let minSize := if C.simpleAllocater ∨ size < C.minSize then size else C.minSize
    let bootmemStart := balign C.codeEnd 8
    let bootmemEnd := balign (add64 C.codeEnd minSize) PAGE_SIZE
    some ⟨bootmemStart, bootmemEnd, sub64 bootmemEnd bootmemStart, bootmemEnd⟩

namespace BootArea

/-- `alloc_boot_mem`, with no result if it panics -/
def allocBootMem (s : BootArea) (size : ℕ) : Option (ℕ × BootArea) :=
  let requestSize := balign size 8
  if s.bootmemSize < requestSize then none
  else some (s.bootmemStart,
    { s with
      bootmemStart := add64 s.bootmemStart requestSize
      bootmemSize := sub64 s.bootmemSize requestSize })

/-- `pages * PAGE_SIZE`: the product is an `int`, and becomes a `size_t` after that. -/
def pagesSize (pages : BitVec 32) : ℕ := intBits (pages.toNat * PAGE_SIZE % 2 ^ 32)

/-- `alloc_boot_pages`: no result if it panics, and none in the result for a null pointer -/
def allocBootPages (s : BootArea) (pages : BitVec 32) : Option (Option ℕ × BootArea) :=
  let requestSize := pagesSize pages
  if pages.toInt ≤ 0 then some (none, s)
  else if s.bootmemSize < requestSize then none
  else if sub64 s.bootmemPageBase requestSize < s.bootmemStart then none
  else
    let base := sub64 s.bootmemPageBase requestSize
    some (some base,
      { s with bootmemPageBase := base, bootmemSize := sub64 s.bootmemSize requestSize })

end BootArea

/-- A call of one of the allocators -/
inductive BootCall where
  | mem (size : BitVec 64)
  | pages (pages : BitVec 32)
deriving DecidableEq, Repr

/-- The variables, and the regions that `alloc_boot_mem` and `alloc_boot_pages` returned -/
structure BootRun where
  area : BootArea
  mems : List (ℕ × ℕ)
  pages : List (ℕ × ℕ)
deriving DecidableEq, Repr

namespace BootRun

def init (s : BootArea) : BootRun := ⟨s, [], []⟩

/-- A call and the region that it returns, of the size that is asked for -/
def call (r : BootRun) : BootCall → Option BootRun
  | .mem size => (r.area.allocBootMem size.toNat).map fun (base, s) =>
    { r with area := s, mems := (base, size.toNat) :: r.mems }
  | .pages n => (r.area.allocBootPages n).map fun (base, s) =>
    { r with area := s, pages := (base.map fun b => (b, n.toNat * PAGE_SIZE)).toList ++ r.pages }

/-- The call does not panic. -/
def Returns (r : BootRun) (c : BootCall) : Prop := (r.call c).isSome

instance (r : BootRun) (c : BootCall) : Decidable (r.Returns c) :=
  inferInstanceAs (Decidable ((r.call c).isSome = true))

/-- The state after a call -/
def step (r : BootRun) (c : BootCall) : BootRun := (r.call c).getD r

/-- The regions -/
def regions (r : BootRun) : List (ℕ × ℕ) := r.mems ++ r.pages

/-- What the allocators promise, for the area `s` -/
structure Right (s : BootArea) (r : BootRun) : Prop where
  start_le : r.area.bootmemStart ≤ r.area.bootmemPageBase
  pageBase_le : r.area.bootmemPageBase ≤ r.area.bootmemEnd
  size_eq : r.area.bootmemSize = r.area.bootmemPageBase - r.area.bootmemStart
  apart : Apart r.regions
  inside : Inside s.bootmemStart s.bootmemEnd r.regions
  mems : ∀ p ∈ r.mems, 8 ∣ p.1
  pages : ∀ p ∈ r.pages, PAGE_SIZE ∣ p.1

end BootRun

/-- Rounding the size up does not wrap; and the product of the pages, which as an `int` is negative
or exact, is not a smaller one. -/
def BootCall.Fits : BootCall → Prop
  | .mem size => size.toNat ≤ 2 ^ 64 - 8
  | .pages n => 0 < n.toInt → n.toNat < 2 ^ 20 ∨ 2 ^ 19 ≤ n.toNat % 2 ^ 20

instance : DecidablePred BootCall.Fits
  | .mem size => inferInstanceAs (Decidable (size.toNat ≤ _))
  | .pages _ => inferInstanceAs (Decidable (_ → _))

/-! ### The size that is taken -/

lemma toNat_eq_toInt {n : BitVec 32} (h : 0 < n.toInt) : 0 < n.toNat ∧ n.toNat < 2 ^ 31 := by
  have hlt := n.isLt
  rw [BitVec.toInt_eq_toNat_cond] at h
  split_ifs at h <;> omega

lemma balign_eight {size : ℕ} (h : size ≤ 2 ^ 64 - 8) :
    8 ∣ balign size 8 ∧ size ≤ balign size 8 := by
  have hround : balign size (2 ^ 3) = roundUp (2 ^ 3) size :=
    balign_eq_roundUp (by omega) (by norm_num)
  rw [show 8 = 2 ^ 3 from rfl, hround]
  exact ⟨dvd_roundUp _ size, le_roundUp 3 size⟩

/-- A size at the end of the range is rounded up to zero. -/
lemma balign_eight_wrap {size : ℕ} (h : 2 ^ 64 - 8 < size) (hsize : size < 2 ^ 64) :
    balign size 8 = 0 := by
  have hmod : (size + 8 - 1) % 2 ^ 64 = size + 7 - 2 ^ 64 := by omega
  have hand := and_lnot_pow (x := size + 7 - 2 ^ 64) (k := 3) (by omega) (by norm_num)
  rw [show 2 ^ 3 - 1 = 8 - 1 from rfl] at hand
  rw [balign, hmod, hand, Nat.div_eq_of_lt (by omega), zero_mul]

lemma pagesSize_eq (n : BitVec 32) : BootArea.pagesSize n =
    if n.toNat % 2 ^ 20 < 2 ^ 19 then n.toNat % 2 ^ 20 * PAGE_SIZE
    else n.toNat % 2 ^ 20 * PAGE_SIZE + (2 ^ 64 - 2 ^ 32) := by
  have hmod : n.toNat * PAGE_SIZE % 2 ^ 32 = n.toNat % 2 ^ 20 * PAGE_SIZE := by
    simp only [PAGE_SIZE, SIZE_4K]
    omega
  have hhalf : n.toNat % 2 ^ 20 * PAGE_SIZE < 2 ^ 31 ↔ n.toNat % 2 ^ 20 < 2 ^ 19 := by
    simp only [PAGE_SIZE, SIZE_4K]
    omega
  rw [BootArea.pagesSize, hmod, intBits]
  exact if_congr hhalf rfl rfl

lemma dvd_pagesSize (n : BitVec 32) : PAGE_SIZE ∣ BootArea.pagesSize n := by
  rw [pagesSize_eq]
  split_ifs
  · exact Dvd.intro_left _ rfl
  · exact dvd_add (Dvd.intro_left _ rfl) ⟨2 ^ 52 - 2 ^ 20, by norm_num [PAGE_SIZE, SIZE_4K]⟩

/-- The request is at least what is asked for, or else it is less. -/
lemma pages_fits_iff {n : BitVec 32} (h : 0 < n.toInt) :
    (BootCall.pages n).Fits ↔ n.toNat * PAGE_SIZE ≤ BootArea.pagesSize n := by
  obtain ⟨-, hlt⟩ := toNat_eq_toInt h
  rw [BootCall.Fits, pagesSize_eq]
  simp only [PAGE_SIZE, SIZE_4K]
  split_ifs with hhalf
  · constructor
    · intro hfits
      rcases hfits h with hfits | hfits
      · omega
      · omega
    · intro hle _
      left
      omega
  · constructor
    · intro _
      omega
    · intro _ _
      right
      omega

/-! ### The area -/

/-- The area between the two ends: what `bootmem_init` sets up, and the allocators keep. -/
structure BootArea.Sound (s : BootArea) : Prop where
  start_le : s.bootmemStart ≤ s.bootmemPageBase
  pageBase_le : s.bootmemPageBase ≤ s.bootmemEnd
  size_eq : s.bootmemSize = s.bootmemPageBase - s.bootmemStart
  end_le : s.bootmemEnd + PAGE_SIZE ≤ 2 ^ 64
  start : 8 ∣ s.bootmemStart
  pageBase : PAGE_SIZE ∣ s.bootmemPageBase

section Area

variable {C : KernelImage} {s s' : BootArea} {size base : ℕ} {n : BitVec 32}

lemma KernelImage.minSize_bounds (C : KernelImage) :
    BOOTMEM_MIN_SIZE ≤ C.minSize ∧ C.codeEnd + C.minSize + PAGE_SIZE ≤ 2 ^ 64 := by
  have hboot := C.boot
  rw [KernelImage.minSize]
  cases h : C.bootmemSize with
  | none =>
    rw [h] at hboot
    simp only [Option.getD_none, Nat.max_zero] at hboot
    exact ⟨le_rfl, hboot⟩
  | some n =>
    rw [h, Option.getD_some] at hboot
    dsimp only
    split_ifs <;> omega

/-- The area of an address `x` and `m` bytes behind it, from the next multiple of 8 to the end of a
page -/
lemma sound_of_bounds {x m : ℕ} (hm : BOOTMEM_MIN_SIZE ≤ m) (hx : x + m + PAGE_SIZE ≤ 2 ^ 64) :
    BootArea.Sound ⟨balign x 8, balign (add64 x m) PAGE_SIZE,
      sub64 (balign (add64 x m) PAGE_SIZE) (balign x 8), balign (add64 x m) PAGE_SIZE⟩ := by
  have hpage : PAGE_SIZE = 2 ^ 12 := rfl
  have hmin : BOOTMEM_MIN_SIZE = 2 ^ 15 := rfl
  have hstart : balign x 8 = roundUp 8 x := balign_eq_roundUp (k := 3) (by omega) (by norm_num)
  have hend : balign (x + m) PAGE_SIZE = roundUp PAGE_SIZE (x + m) :=
    balign_eq_roundUp (k := 12) (by omega) (by norm_num)
  have hle := le_roundUp 12 (x + m)
  have hlt : roundUp PAGE_SIZE (x + m) ≤ x + m + PAGE_SIZE - 1 := Nat.div_mul_le_self _ _
  have hdvd : 2 ^ 12 ∣ roundUp PAGE_SIZE (x + m) := dvd_roundUp PAGE_SIZE (x + m)
  have hup : roundUp 8 x ≤ x + 8 - 1 := Nat.div_mul_le_self _ _
  rw [← hpage] at hle
  rw [add64_of_lt (by omega), hstart, hend, sub64_of_le (by omega) (by omega)]
  constructor
  case start_le => exact (hup.trans (by omega)).trans hle
  case pageBase_le => exact le_rfl
  case size_eq => rfl
  case end_le =>
    obtain ⟨q, hq⟩ := hdvd
    dsimp only
    omega
  case start => exact dvd_roundUp 8 x
  case pageBase => exact hdvd

/-- The panic leaves the boot memory at least its minimal size. -/
lemma bootmemInit_sound (h : bootmemInit C = some s) : s.Sound := by
  have hcode := C.code
  have hram := C.ram
  obtain ⟨hmin, hroom⟩ := C.minSize_bounds
  have hpage : PAGE_SIZE = 2 ^ 12 := rfl
  have hsub : sub64 C.codeEnd C.codeStart = C.codeEnd - C.codeStart :=
    sub64_of_le hcode (by omega)
  have hround : balign (C.codeEnd - C.codeStart) PAGE_SIZE =
      roundUp PAGE_SIZE (C.codeEnd - C.codeStart) :=
    balign_eq_roundUp (k := 12) (by omega) (by norm_num)
  have hle : roundUp PAGE_SIZE (C.codeEnd - C.codeStart) ≤
      C.codeEnd - C.codeStart + PAGE_SIZE - 1 := Nat.div_mul_le_self _ _
  simp only [bootmemInit, hsub, hround] at h
  rw [add64_of_lt (by omega)] at h
  split_ifs at h with hpanic hall
  all_goals
    have hrest : sub64 C.ramSize (roundUp PAGE_SIZE (C.codeEnd - C.codeStart)) =
        C.ramSize - roundUp PAGE_SIZE (C.codeEnd - C.codeStart) :=
      sub64_of_le (by omega) (by omega)
    rw [← Option.some.inj h]
    exact sound_of_bounds (by omega) (by omega)

/-- What `alloc_boot_mem` does when it returns -/
lemma BootArea.Sound.allocBootMem_eq_some (hs : s.Sound)
    (h : s.allocBootMem size = some (base, s')) :
    base = s.bootmemStart ∧ s.bootmemStart + balign size 8 ≤ s.bootmemPageBase ∧
      s' = { s with
        bootmemStart := s.bootmemStart + balign size 8
        bootmemSize := s.bootmemPageBase - (s.bootmemStart + balign size 8) } := by
  have hle := hs.pageBase_le
  have hend : s.bootmemEnd + 2 ^ 12 ≤ 2 ^ 64 := hs.end_le
  have hbelow := hs.start_le
  have hsize := hs.size_eq
  rw [BootArea.allocBootMem] at h
  split_ifs at h with hpanic
  rw [Option.some.injEq, Prod.mk.injEq] at h
  refine ⟨h.1.symm, by omega, ?_⟩
  rw [← h.2, add64_of_lt (by omega), sub64_of_le (by omega) (by omega), hsize, Nat.sub_sub]

/-- What `alloc_boot_pages` does when it returns an address -/
lemma BootArea.Sound.allocBootPages_eq_some (hs : s.Sound) {b : Option ℕ} (hn : 0 < n.toInt)
    (h : s.allocBootPages n = some (b, s')) :
    b = some (s.bootmemPageBase - pagesSize n) ∧
      s.bootmemStart + pagesSize n ≤ s.bootmemPageBase ∧
      s' = { s with
        bootmemPageBase := s.bootmemPageBase - pagesSize n
        bootmemSize := s.bootmemPageBase - pagesSize n - s.bootmemStart } := by
  have hle := hs.pageBase_le
  have hend : s.bootmemEnd + 2 ^ 12 ≤ 2 ^ 64 := hs.end_le
  have hbelow := hs.start_le
  have hsize := hs.size_eq
  rw [allocBootPages] at h
  dsimp only at h
  rw [if_neg (not_le.2 hn)] at h
  split_ifs at h with hpanic hcross
  have hbase : sub64 s.bootmemPageBase (pagesSize n) = s.bootmemPageBase - pagesSize n :=
    sub64_of_le (by omega) (by omega)
  rw [Option.some.injEq, Prod.mk.injEq, hbase] at h
  refine ⟨h.1.symm, by omega, ?_⟩
  rw [← h.2, sub64_of_le (by omega) (by omega), hsize, Nat.sub_right_comm]

lemma dvd_balign_eight (size : BitVec 64) : 8 ∣ balign size.toNat 8 := by
  rcases Nat.lt_or_ge (2 ^ 64 - 8) size.toNat with hwrap | hfits
  · rw [balign_eight_wrap hwrap size.isLt]
    exact dvd_zero 8
  · exact (balign_eight hfits).1

lemma BootArea.Sound.allocBootMem (hs : s.Sound) {size : BitVec 64}
    (h : s.allocBootMem size.toNat = some (base, s')) : s'.Sound := by
  obtain ⟨-, hroom, rfl⟩ := hs.allocBootMem_eq_some h
  exact ⟨hroom, hs.pageBase_le, rfl, hs.end_le, dvd_add hs.start (dvd_balign_eight size),
    hs.pageBase⟩

lemma BootArea.Sound.allocBootPages (hs : s.Sound) {b : Option ℕ}
    (h : s.allocBootPages n = some (b, s')) : s'.Sound := by
  rcases le_or_gt n.toInt 0 with hn | hn
  · rw [BootArea.allocBootPages, if_pos hn, Option.some.injEq, Prod.mk.injEq] at h
    exact h.2 ▸ hs
  · obtain ⟨-, hroom, rfl⟩ := hs.allocBootPages_eq_some hn h
    have hbase := hs.pageBase_le
    exact ⟨by dsimp only; omega, (Nat.sub_le _ _).trans hbase, rfl, hs.end_le, hs.start,
      Nat.dvd_sub hs.pageBase (dvd_pagesSize n)⟩

lemma bootmemInit_pageBase (h : bootmemInit C = some s) : s.bootmemPageBase = s.bootmemEnd := by
  simp only [bootmemInit] at h
  split_ifs at h
  all_goals rw [← Option.some.inj h]

/-- The counter goes down as in the model of the region list. -/
lemma BootArea.Sound.allocBootMem_size (hs : s.Sound) :
    (s.allocBootMem size).map (fun r => r.2.bootmemSize) =
      Mm.allocBootMem s.bootmemSize size := by
  have hsize := hs.size_eq
  have hend : s.bootmemEnd + 2 ^ 12 ≤ 2 ^ 64 := hs.end_le
  have hbase := hs.pageBase_le
  rw [BootArea.allocBootMem, Mm.allocBootMem]
  split_ifs with hpanic
  · rfl
  · rw [Option.map_some, sub64_of_le (by omega) (by omega)]

end Area

/-! ### The regions -/

namespace BootRun

/-- Between the two ends nothing was returned. What is above the pages that are left begins with a
region, unless no page was returned. -/
structure Inv (s : BootArea) (r : BootRun) : Prop where
  sound : r.area.Sound
  startAbove : s.bootmemStart ≤ r.area.bootmemStart
  sameEnd : r.area.bootmemEnd = s.bootmemEnd
  mems : Inside s.bootmemStart r.area.bootmemStart r.mems
  pages : Inside r.area.bootmemPageBase s.bootmemEnd r.pages
  memsApart : Apart r.mems
  pagesApart : Apart r.pages
  memsAligned : ∀ p ∈ r.mems, 8 ∣ p.1
  pagesAligned : ∀ p ∈ r.pages, PAGE_SIZE ∣ p.1
  top : r.area.bootmemPageBase = s.bootmemEnd ∨
    ∃ n, 0 < n ∧ (r.area.bootmemPageBase, n) ∈ r.pages

variable {s : BootArea} {r : BootRun} {size : BitVec 64} {n : BitVec 32} {c : BootCall}

lemma inv_init (hs : s.Sound) (hbase : s.bootmemPageBase = s.bootmemEnd) : Inv s (init s) where
  sound := hs
  startAbove := le_rfl
  sameEnd := rfl
  mems _ hp := absurd hp List.not_mem_nil
  pages _ hp := absurd hp List.not_mem_nil
  memsApart := List.Pairwise.nil
  pagesApart := List.Pairwise.nil
  memsAligned _ hp := absurd hp List.not_mem_nil
  pagesAligned _ hp := absurd hp List.not_mem_nil
  top := Or.inl hbase

lemma Inv.right (h : Inv s r) : Right s r where
  start_le := h.sound.start_le
  pageBase_le := h.sound.pageBase_le
  size_eq := h.sound.size_eq
  apart := h.memsApart.append h.pagesApart
    (h.mems.mono h.sound.start_le) h.pages
  inside p hp := by
    have hstart := h.startAbove
    have hle := h.sound.start_le
    have hend := h.sound.pageBase_le
    rw [h.sameEnd] at hend
    rcases List.mem_append.1 hp with hp | hp
    · exact h.mems.mono (hle.trans hend) p hp
    · exact h.pages.mono_left (hstart.trans hle) p hp
  mems := h.memsAligned
  pages := h.pagesAligned

/-! ### The calls -/

lemma step_mem (h : Inv s r) (hret : r.Returns (.mem size)) :
    r.area.bootmemStart + balign size.toNat 8 ≤ r.area.bootmemPageBase ∧
    ∃ s', s'.Sound ∧ s' = { r.area with
        bootmemStart := r.area.bootmemStart + balign size.toNat 8
        bootmemSize := r.area.bootmemPageBase -
          (r.area.bootmemStart + balign size.toNat 8) } ∧
      r.step (.mem size) =
        { r with area := s', mems := (r.area.bootmemStart, size.toNat) :: r.mems } := by
  obtain ⟨r', hcall⟩ := Option.isSome_iff_exists.1 hret
  rw [step, hcall, Option.getD_some]
  obtain ⟨⟨base, s'⟩, halloc, rfl⟩ := Option.map_eq_some_iff.1 hcall
  obtain ⟨rfl, hroom, hs'⟩ := h.sound.allocBootMem_eq_some halloc
  exact ⟨hroom, s', h.sound.allocBootMem halloc, hs', rfl⟩

lemma step_pages (h : Inv s r) (hn : 0 < n.toInt) (hret : r.Returns (.pages n)) :
    r.area.bootmemStart + BootArea.pagesSize n ≤ r.area.bootmemPageBase ∧
    ∃ s', s'.Sound ∧ s' = { r.area with
        bootmemPageBase := r.area.bootmemPageBase - BootArea.pagesSize n
        bootmemSize := r.area.bootmemPageBase - BootArea.pagesSize n - r.area.bootmemStart } ∧
      r.step (.pages n) =
        { r with
          area := s'
          pages := (r.area.bootmemPageBase - BootArea.pagesSize n, n.toNat * PAGE_SIZE) ::
            r.pages } := by
  obtain ⟨r', hcall⟩ := Option.isSome_iff_exists.1 hret
  rw [step, hcall, Option.getD_some]
  obtain ⟨⟨base, s'⟩, halloc, rfl⟩ := Option.map_eq_some_iff.1 hcall
  obtain ⟨rfl, hroom, hs'⟩ := h.sound.allocBootPages_eq_some hn halloc
  exact ⟨hroom, s', h.sound.allocBootPages halloc, hs', rfl⟩

/-- No page is asked for, and none is returned. -/
lemma step_null (hn : n.toInt ≤ 0) : r.step (.pages n) = r := by
  rw [step, call, BootArea.allocBootPages, if_pos hn]
  rfl

lemma inv_step_mem (h : Inv s r) (hret : r.Returns (.mem size))
    (hfits : (BootCall.mem size).Fits) : Inv s (r.step (.mem size)) := by
  obtain ⟨hroom, s', hsound, hs', hstep⟩ := step_mem h hret
  have hsize := (balign_eight hfits).2
  have hpiece : pieceSet (r.area.bootmemStart, size.toNat) ⊆
      Set.Ico r.area.bootmemStart s'.bootmemStart := by
    rw [hs']
    exact Set.Ico_subset_Ico_right (Nat.add_le_add_left hsize _)
  have hstart : r.area.bootmemStart ≤ s'.bootmemStart := hs' ▸ Nat.le_add_right _ _
  rw [hstep]
  constructor
  case sound => exact hsound
  case startAbove => exact h.startAbove.trans hstart
  case sameEnd => exact hs' ▸ h.sameEnd
  case mems =>
    intro p hp
    rcases List.mem_cons.1 hp with rfl | hp
    · exact hpiece.trans (Set.Ico_subset_Ico_left h.startAbove)
    · exact h.mems.mono hstart p hp
  case pages => exact hs' ▸ h.pages
  case memsApart =>
    refine List.pairwise_cons.2 ⟨fun p hp => ?_, h.memsApart⟩
    exact (Set.Ico_disjoint_Ico_same.mono (h.mems p hp) hpiece).symm
  case pagesApart => exact h.pagesApart
  case memsAligned =>
    intro p hp
    rcases List.mem_cons.1 hp with rfl | hp
    · exact h.sound.start
    · exact h.memsAligned p hp
  case pagesAligned => exact h.pagesAligned
  case top => exact hs' ▸ h.top

lemma inv_step_pages (h : Inv s r) (hret : r.Returns (.pages n))
    (hfits : (BootCall.pages n).Fits) : Inv s (r.step (.pages n)) := by
  rcases le_or_gt n.toInt 0 with hn | hn
  · rwa [step_null hn]
  obtain ⟨hroom, s', hsound, hs', hstep⟩ := step_pages h hn hret
  have hsize := (pages_fits_iff hn).1 hfits
  have hpos := (toNat_eq_toInt hn).1
  have hbase : s'.bootmemPageBase + BootArea.pagesSize n = r.area.bootmemPageBase := by
    rw [hs']
    exact Nat.sub_add_cancel (by omega)
  have hpiece : pieceSet (s'.bootmemPageBase, n.toNat * PAGE_SIZE) ⊆
      Set.Ico s'.bootmemPageBase r.area.bootmemPageBase := by
    rw [← hbase]
    exact Set.Ico_subset_Ico_right (Nat.add_le_add_left hsize _)
  have hle : s'.bootmemPageBase ≤ r.area.bootmemPageBase := by omega
  have hend : r.area.bootmemPageBase ≤ s.bootmemEnd := h.sameEnd ▸ h.sound.pageBase_le
  have hfirst : r.area.bootmemPageBase - BootArea.pagesSize n = s'.bootmemPageBase := by
    rw [hs']
  rw [hstep, hfirst]
  constructor
  case sound => exact hsound
  case startAbove => exact hs' ▸ h.startAbove
  case sameEnd => exact hs' ▸ h.sameEnd
  case mems => exact hs' ▸ h.mems
  case pages =>
    intro p hp
    rcases List.mem_cons.1 hp with rfl | hp
    · exact hpiece.trans (Set.Ico_subset_Ico_right hend)
    · exact h.pages.mono_left hle p hp
  case memsApart => exact h.memsApart
  case pagesApart =>
    refine List.pairwise_cons.2 ⟨fun p hp => ?_, h.pagesApart⟩
    exact Set.Ico_disjoint_Ico_same.mono hpiece (h.pages p hp)
  case memsAligned => exact h.memsAligned
  case pagesAligned =>
    intro p hp
    rcases List.mem_cons.1 hp with rfl | hp
    · exact hsound.pageBase
    · exact h.pagesAligned p hp
  case top =>
    right
    exact ⟨n.toNat * PAGE_SIZE, Nat.mul_pos hpos (by decide), List.mem_cons_self⟩

lemma inv_step (h : Inv s r) (hret : r.Returns c) (hfits : c.Fits) : Inv s (r.step c) := by
  cases c with
  | mem size => exact inv_step_mem h hret hfits
  | pages n => exact inv_step_pages h hret hfits

/-! ### Calls that are too large -/

/-- The region of a size that was rounded up to zero does not lie in the area. -/
lemma not_right_mem (h : Inv s r) (hret : r.Returns (.mem size))
    (hfits : ¬ (BootCall.mem size).Fits) : ¬ Right s (r.step (.mem size)) := by
  intro hright
  obtain ⟨-, s', -, -, hstep⟩ := step_mem h hret
  have hwrap : 2 ^ 64 - 8 < size.toNat := not_le.1 hfits
  have hend : r.area.bootmemEnd + 2 ^ 12 ≤ 2 ^ 64 := h.sound.end_le
  have hinside := hright.inside (r.area.bootmemStart, size.toNat) (by
    rw [hstep]
    exact List.mem_cons_self)
  have hlast : r.area.bootmemStart + size.toNat - 1 ∈
      pieceSet (r.area.bootmemStart, size.toNat) := by
    rw [pieceSet, Set.mem_Ico]
    omega
  have hlt := (Set.mem_Ico.1 (hinside hlast)).2
  rw [← h.sameEnd] at hlt
  omega

/-- A region of pages that is larger than what was taken reaches over the end of the area, or into
the region of the pages that were returned last. -/
lemma not_right_pages (h : Inv s r) (hret : r.Returns (.pages n))
    (hfits : ¬ (BootCall.pages n).Fits) : ¬ Right s (r.step (.pages n)) := by
  intro hright
  have hn : 0 < n.toInt := by
    by_contra hneg
    exact hfits fun hpos => absurd hpos hneg
  obtain ⟨hroom, s', -, -, hstep⟩ := step_pages h hn hret
  have hless := not_le.1 ((pages_fits_iff hn).not.1 hfits)
  have hcovers : r.area.bootmemPageBase ∈
      pieceSet (r.area.bootmemPageBase - BootArea.pagesSize n, n.toNat * PAGE_SIZE) := by
    rw [pieceSet, Set.mem_Ico]
    omega
  rcases h.top with htop | ⟨m, hm, hmem⟩
  · have hinside := hright.inside _ (by
      rw [hstep]
      exact List.mem_append_right _ List.mem_cons_self) hcovers
    exact absurd (Set.mem_Ico.1 hinside).2 (by omega)
  · have hapart := hright.apart
    rw [hstep] at hapart
    have hpages := (List.pairwise_append.1 hapart).2.1
    have hdisjoint := (List.pairwise_cons.1 hpages).1 _ hmem
    refine Set.disjoint_left.1 hdisjoint hcovers ?_
    rw [pieceSet, Set.mem_Ico]
    omega

lemma right_step_iff (h : Inv s r) (hret : r.Returns c) : Right s (r.step c) ↔ c.Fits := by
  constructor
  · intro hright
    by_contra hfits
    cases c with
    | mem size => exact not_right_mem h hret hfits hright
    | pages n => exact not_right_pages h hret hfits hright
  · intro hfits
    exact (inv_step h hret hfits).right

/-- In a run without a panic the ends do not cross, and the regions are apart, in the area and
aligned, if and only if no size wraps when it is rounded up or multiplied. -/
theorem boot_regions_right_iff {C : KernelImage} {s : BootArea} {calls : List BootCall}
    (h : bootmemInit C = some s) (hrun : Along step Returns (init s) calls) :
    (∀ pre, pre <+: calls → Right s (exec step (init s) pre)) ↔ ∀ c ∈ calls, c.Fits := by
  have hinv := inv_init (bootmemInit_sound h) (bootmemInit_pageBase h)
  have hfits : Along step (fun _ c => c.Fits) (init s) calls ↔ ∀ c ∈ calls, c.Fits := along_const
  rw [forall_prefix_iff, ← hfits, along_iff (I := Inv s) (L := Returns) (fun _ _ => right_step_iff)
    (fun _ _ => inv_step) hinv hrun]
  exact and_iff_right hinv.right

lemma fvp_code : 0xc0008000 ≤ 0xc0100014 := by norm_num

lemma fvp_ram : 0xc0100014 + 0x4000000 + PAGE_SIZE ≤ 2 ^ 64 := by decide

lemma fvp_boot :
    0xc0100014 + max BOOTMEM_MIN_SIZE ((some 0x10000).getD 0) + PAGE_SIZE ≤ 2 ^ 64 := by decide

/-- An image at the entry address of the FVP board, with 64MiB and 64KiB of boot memory -/
def fvpImage : KernelImage :=
  ⟨0xc0008000, 0xc0100014, 0x4000000, some 0x10000, false, fvp_code, fvp_ram, fvp_boot⟩

def fvpArea : BootArea := ⟨0xc0100018, 0xc0111000, 0x10fe8, 0xc0111000⟩

lemma bootmemInit_fvp : bootmemInit fvpImage = some fvpArea := by decide +kernel

/-- Bytes, pages and bytes again -/
theorem boot_regions_right_three :
    (bootmemInit fvpImage = some fvpArea ∧
      Along step Returns (init fvpArea) [.mem 20, .pages 3, .mem 56]) ∧
    ((∀ pre, pre <+: [.mem 20, .pages 3, .mem 56] →
      Right fvpArea (exec step (init fvpArea) pre)) ↔
        ∀ c ∈ ([.mem 20, .pages 3, .mem 56] : List BootCall), c.Fits) := by
  have hrun : Along step Returns (init fvpArea) [.mem 20, .pages 3, .mem 56] := by
    decide +kernel
  exact ⟨⟨bootmemInit_fvp, hrun⟩, boot_regions_right_iff bootmemInit_fvp hrun⟩

/-- A call for `2 ^ 64 - 1` bytes takes none and returns the start of the area. -/
theorem boot_regions_overrun :
    bootmemInit fvpImage = some fvpArea ∧
    Along step Returns (init fvpArea) [.mem 0xffffffffffffffff] ∧
    (exec step (init fvpArea) [.mem 0xffffffffffffffff]).mems = [(0xc0100018, 2 ^ 64 - 1)] ∧
    ¬ Right fvpArea (exec step (init fvpArea) [.mem 0xffffffffffffffff]) := by
  have hrun : (init fvpArea).Returns (.mem 0xffffffffffffffff) := by decide +kernel
  have hinv := inv_init (bootmemInit_sound bootmemInit_fvp) (bootmemInit_pageBase bootmemInit_fvp)
  refine ⟨bootmemInit_fvp, ⟨hrun, trivial⟩, by decide +kernel, ?_⟩
  exact not_right_mem hinv hrun (by decide)

end BootRun

end Minos.Mm
