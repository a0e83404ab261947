import Mathlib
import Minos.Lib.Run
import Minos.Mm.Blocks

/-!
# The accounting of blocks

A section counts its free blocks, and so does `free_blocks` for all sections together. Allocation
keeps both counters in step with the bitmaps. `release_mem_block` clears the bit and counts the
block in `free_blocks` only, so that the section can never hand it out again once its own counter
is at zero.
-/

namespace Minos.Mm

open Bitmap Run

/-! ### What an allocation does -/

lemma allocMemBlockIn_cases {s s' : MemSection} {f bit : ℕ}
    (h : allocMemBlockIn s f = some (bit, s')) :
    s.freeBlocks ≠ 0 ∧ bit < s.nrBlocks ∧ s.bitmap bit = false ∧ s' = takeBlock s bit f := by
  simp only [allocMemBlockIn] at h
  split_ifs at h with hfree hbit
  simp only [Option.some.injEq, Prod.mk.injEq] at h
  obtain ⟨rfl, rfl⟩ := h
  exact ⟨hfree, by omega, findNextZeroBitLoop_prop (by omega), rfl⟩

lemma allocMemBlockIn_none {s : MemSection} {f : ℕ} (h : allocMemBlockIn s f = none) :
    s.freeBlocks = 0 ∨ ∀ i < s.nrBlocks, s.bitmap i = true := by
  simp only [allocMemBlockIn] at h
  split_ifs at h with hfree hbit
  · exact Or.inl hfree
  · exact Or.inr fun i hi => findNextZeroBitLoop_none hbit hi

/-- The block comes from one of the block sections, and the other sections are as before. -/
lemma allocMemBlockFrom_cases {flags i : ℕ} {l l' : List MemSection} {b : BlockRef}
    (h : allocMemBlockFrom flags i l = some (b, l')) :
    ∃ pre s s' post, l = pre ++ s :: post ∧ l' = pre ++ s' :: post ∧ s.kind = .block ∧
      b.sec = i + pre.length ∧ allocMemBlockIn s flags = some (b.bit, s') := by
  induction l generalizing i l' with
  | nil => simp [allocMemBlockFrom] at h
  | cons s rest ih =>
    rw [allocMemBlockFrom] at h
    split at h
    · rename_i bit s' hs
      simp only [Option.some.injEq, Prod.mk.injEq] at h
      obtain ⟨rfl, rfl⟩ := h
      split_ifs at hs with hk
      exact ⟨[], s, s', rest, rfl, rfl, hk, rfl, hs⟩
    · simp only [Option.map_eq_some_iff, Prod.mk.injEq] at h
      obtain ⟨⟨b', l''⟩, hr, rfl, rfl⟩ := h
      obtain ⟨pre, t, t', post, rfl, rfl, hk, hsec, ht⟩ := ih hr
      refine ⟨s :: pre, t, t', post, rfl, rfl, hk, ?_, ht⟩
      rw [hsec, List.length_cons]
      omega

lemma allocMemBlockFrom_none {flags i : ℕ} {l : List MemSection}
    (h : allocMemBlockFrom flags i l = none) :
    ∀ s ∈ l, s.kind = .block → allocMemBlockIn s flags = none := by
  induction l generalizing i with
  | nil => simp
  | cons t rest ih =>
    rw [allocMemBlockFrom] at h
    split at h
    · simp at h
    · rename_i hs
      intro s hmem hk
      rcases List.mem_cons.1 hmem with rfl | hmem
      · rwa [if_pos hk] at hs
      · exact ih (Option.map_eq_none_iff.1 h) s hmem hk

/-! ### The counters -/

/-- The free blocks of all block sections, by their own counters. -/
def totalFree (l : List MemSection) : ℕ :=
  (l.map fun s => if s.kind = .block then s.freeBlocks else 0).sum

/-- The counter of a block section is the number of its zero bits. -/
def MemSection.Counted (s : MemSection) : Prop :=
  s.kind = .block → s.freeBlocks = zeros s.bitmap s.nrBlocks

/-- Both counters agree with the bitmaps. -/
structure Accounted (mm : Mem) : Prop where
  counted : ∀ s ∈ mm.memSections, s.Counted
  total : mm.freeBlocks = totalFree mm.memSections

lemma totalFree_append (l l' : List MemSection) :
    totalFree (l ++ l') = totalFree l + totalFree l' := by
  simp [totalFree]

lemma totalFree_cons (s : MemSection) (l : List MemSection) :
    totalFree (s :: l) = (if s.kind = .block then s.freeBlocks else 0) + totalFree l := by
  simp [totalFree]

lemma takeBlock_counted {s : MemSection} {bit f : ℕ} (h : s.Counted) (hbit : bit < s.nrBlocks)
    (hz : s.bitmap bit = false) : (takeBlock s bit f).Counted := by
  intro hk
  have hs := h hk
  have := zeros_setBit hbit hz
  simp only [takeBlock]
  omega

/-- An allocation keeps the counters in step. -/
lemma allocMemBlock_accounted {mm mm' : Mem} {flags : ℕ} {b : BlockRef} (h : Accounted mm)
    (ha : allocMemBlock mm flags = some (b, mm')) :
    Accounted mm' ∧ mm.freeBlocks = mm'.freeBlocks + 1 := by
  simp only [allocMemBlock, Option.map_eq_some_iff, Prod.mk.injEq] at ha
  obtain ⟨⟨b', l'⟩, hl, rfl, rfl⟩ := ha
  obtain ⟨pre, s, s', post, hpre, rfl, hk, -, hs⟩ := allocMemBlockFrom_cases hl
  obtain ⟨hfree, hbit, hz, rfl⟩ := allocMemBlockIn_cases hs
  have htotal := h.total
  rw [hpre, totalFree_append, totalFree_cons, if_pos hk] at htotal
  refine ⟨⟨?_, ?_⟩, ?_⟩
  · intro t ht
    rcases List.mem_append.1 ht with ht | ht
    · exact h.counted t (by rw [hpre]; exact List.mem_append_left _ ht)
    · rcases List.mem_cons.1 ht with rfl | ht
      · exact takeBlock_counted (h.counted s (by rw [hpre]; simp)) hbit hz
      · exact h.counted t (by rw [hpre]; simp [ht])
  · have hk' : (takeBlock s b'.bit flags).kind = .block := hk
    rw [totalFree_append, totalFree_cons, if_pos hk']
    simp only [takeBlock]
    omega
  · simp only
    omega

/-- While the counters are in step, only an exhausted memory refuses a block. -/
lemma allocMemBlock_none {mm : Mem} {flags : ℕ} (h : Accounted mm)
    (ha : allocMemBlock mm flags = none) :
    ∀ s ∈ mm.memSections, s.kind = .block → ∀ i < s.nrBlocks, s.bitmap i = true := by
  intro s hs hk
  rcases allocMemBlockIn_none (allocMemBlockFrom_none (Option.map_eq_none_iff.1 ha) s hs hk)
    with h0 | hall
  · exact zeros_eq_zero_iff.1 ((h.counted s hs hk).symm.trans h0)
  · exact hall

lemma allocMemBlock_isSome {mm : Mem} (flags : ℕ) (h : Accounted mm) (hpos : 0 < mm.freeBlocks) :
    (allocMemBlock mm flags).isSome := by
  rw [Option.isSome_iff_ne_none]
  intro hnone
  have hzero : totalFree mm.memSections = 0 := by
    apply List.sum_eq_zero
    simp only [List.mem_map]
    rintro n ⟨s, hs, rfl⟩
    split_ifs with hk
    · rw [h.counted s hs hk]
      exact zeros_eq_zero_iff.2 (allocMemBlock_none h hnone s hs hk)
    · rfl
  have := h.total
  omega

/-- Consecutive calls of `alloc_mem_block`, until one fails. -/
def allocMemBlocks (mm : Mem) : List ℕ → Option Mem
  | [] => some mm
  | f :: flags => (allocMemBlock mm f).bind fun r => allocMemBlocks r.2 flags

lemma allocMemBlocks_isSome {mm : Mem} {flags : List ℕ} (h : Accounted mm)
    (hle : flags.length ≤ mm.freeBlocks) : (allocMemBlocks mm flags).isSome := by
  induction flags generalizing mm with
  | nil => rfl
  | cons f flags ih =>
    rw [List.length_cons] at hle
    obtain ⟨⟨b, mm'⟩, hb⟩ := Option.isSome_iff_exists.1 (allocMemBlock_isSome f h (by omega))
    obtain ⟨h', hcount⟩ := allocMemBlock_accounted h hb
    rw [allocMemBlocks, hb, Option.bind_some]
    exact ih h' (by dsimp only; omega)

/-! ### What a release does -/

lemma releaseMemBlock_cases {mm mm' : Mem} {b : BlockRef} (h : releaseMemBlock mm b = some mm') :
    ∃ block i, mm.block? b = some block ∧ PAGES_IN_BLOCK ≤ block.freePages ∧
      addrToMemSection mm block.phyBase = some i ∧ mm'.freeBlocks = mm.freeBlocks + 1 ∧
      mm'.memSections = mm.memSections.modify i (clearBlock block.phyBase) := by
  simp only [releaseMemBlock] at h
  split at h
  · cases h
  rename_i block hblock
  split at h
  · cases h
  rename_i hfree
  split at h
  · cases h
  rename_i i hi
  refine ⟨block, i, hblock, by omega, hi, ?_⟩
  split at h
  · cases h
    exact ⟨rfl, rfl⟩
  split at h
  · cases h
    exact ⟨rfl, rfl⟩
  · cases h
    exact ⟨rfl, rfl⟩

lemma totalFree_modify_clearBlock (addr i : ℕ) (l : List MemSection) :
    totalFree (l.modify i (clearBlock addr)) = totalFree l := by
  induction l generalizing i with
  | nil => simp
  | cons s l ih =>
    cases i with
    | zero => simp [totalFree_cons, clearBlock]
    | succ i => simp [totalFree_cons, ih]

/-- A released block is counted globally and not in its section. -/
lemma releaseMemBlock_not_accounted {mm mm' : Mem} {b : BlockRef} (h : Accounted mm)
    (hr : releaseMemBlock mm b = some mm') : ¬ Accounted mm' := by
  intro h'
  obtain ⟨block, i, -, -, -, hcount, hsections⟩ := releaseMemBlock_cases hr
  have htotal := h'.total
  rw [hsections, totalFree_modify_clearBlock, ← h.total, hcount] at htotal
  omega

/-! ### The counters after boot -/

/-- A section as `parse_system_regions` leaves it. -/
def MemSection.Fresh (s : MemSection) : Prop :=
  s.kind = .block → s.nrBlocks = s.size >>> MEM_BLOCK_SHIFT ∧ s.freeBlocks = s.nrBlocks ∧
    s.bitmap = fun _ => false

structure Boot.Fresh (b : Boot) : Prop where
  fresh : ∀ s ∈ b.sections, s.Fresh
  total : b.freeBlocks = totalFree b.sections

lemma newSection_fresh (kind : SectionKind) (base size : ℕ) :
    (newSection kind base size (size >>> MEM_BLOCK_SHIFT)).Fresh :=
  fun _ => ⟨rfl, rfl, rfl⟩

lemma totalFree_newSection (base size nr : ℕ) :
    totalFree [newSection .block base size nr] = nr := by
  simp [totalFree, newSection]

lemma addPageSection_fresh {b : Boot} (base size : ℕ) (h : b.Fresh) :
    (addPageSection base size b).Fresh := by
  simp only [addPageSection]
  split_ifs
  · exact h
  · exact ⟨h.fresh, h.total⟩
  · refine ⟨fun s hs => ?_, ?_⟩
    · rcases List.mem_append.1 hs with hs | hs
      · exact h.fresh s hs
      · rw [List.mem_singleton.1 hs]
        intro hk
        simp [newSection] at hk
    · simp [totalFree, newSection, h.total]

lemma addLeft_fresh {b : Boot} (base left : ℕ) (h : b.Fresh) : (addLeft base left b).Fresh := by
  rw [addLeft]
  split_ifs
  · exact addPageSection_fresh base left h
  · exact h

lemma addBlockSection_fresh {b : Boot} (base size : ℕ) (h : b.Fresh) :
    (addBlockSection base size b).Fresh := by
  simp only [addBlockSection]
  split_ifs
  · exact h
  · exact addPageSection_fresh base size h
  · refine addLeft_fresh _ _ (addLeft_fresh _ _ ?_)
    refine ⟨fun s hs => ?_, ?_⟩
    · rcases List.mem_append.1 hs with hs | hs
      · exact h.fresh s hs
      · rw [List.mem_singleton.1 hs]
        exact newSection_fresh _ _ _
    · dsimp only
      rw [totalFree_append, totalFree_newSection, h.total]

lemma parseSystemRegions_fresh (memList : List MemoryRegion) :
    (parseSystemRegions memList).Fresh := by
  rw [parseSystemRegions]
  refine List.foldlRecOn memList _ (motive := Boot.Fresh) ⟨by simp, rfl⟩ fun b hb region _ => ?_
  split_ifs
  · exact hb
  · exact addBlockSection_fresh _ _ hb

/-- A machine on which the hypervisor boots: the section that holds the start of the image is a
block section, and the image with its tables ends in this section. -/
structure Machine where
  memList : List MemoryRegion
  codeBase : ℕ
  bootmemEnd : ℕ
  fits : (bootSection codeBase (parseSystemRegions memList).sections).any fun i =>
    (parseSystemRegions memList).sections[i]?.any fun s => s.kind = .block ∧
      memEnd bootmemEnd (parseSystemRegions memList).sections ≤ s.phyBase + s.size

namespace Machine

variable (M : Machine)

def boot : Boot := parseSystemRegions M.memList

lemma exists_boot : ∃ i s, bootSection M.codeBase M.boot.sections = some i ∧
    M.boot.sections[i]? = some s ∧ s.kind = .block ∧
    memEnd M.bootmemEnd M.boot.sections ≤ s.phyBase + s.size := by
  obtain ⟨i, hi, hs⟩ := (Option.any_eq_true _ _).1 M.fits
  obtain ⟨s, hs, hfits⟩ := (Option.any_eq_true _ _).1 hs
  exact ⟨i, s, hi, hs, (decide_eq_true_iff.1 hfits).1, (decide_eq_true_iff.1 hfits).2⟩

lemma init_isSome : (memSectionsInit M.codeBase M.bootmemEnd M.boot).isSome := by
  obtain ⟨i, s, hi, -⟩ := M.exists_boot
  rw [memSectionsInit, Option.isSome_map, hi]
  rfl

/-- The memory after `mem_sections_init`. -/
def init : Mem := (memSectionsInit M.codeBase M.bootmemEnd M.boot).get M.init_isSome

def bootBlocks : ℕ := bootBlockSize M.codeBase M.bootmemEnd M.boot.sections

lemma init_eq {i : ℕ} (hi : bootSection M.codeBase M.boot.sections = some i) :
    M.init = bootMem M.codeBase M.bootBlocks i M.boot := by
  rw [← Option.some_inj, init, Option.some_get, memSectionsInit, hi, Option.map_some, bootBlocks]

end Machine

lemma bootFirst_perm (i : ℕ) (l : List MemSection) : (bootFirst i l).Perm l := by
  rw [bootFirst]
  split
  · rename_i first boot hfirst hboot
    obtain ⟨h0, rfl⟩ := List.getElem?_eq_some_iff.1 hfirst
    obtain ⟨hi, rfl⟩ := List.getElem?_eq_some_iff.1 hboot
    exact List.set_set_perm h0 hi
  · exact List.Perm.refl l

lemma bootFirst_head {i : ℕ} {l : List MemSection} {s : MemSection} (h : l[i]? = some s) :
    ∃ rest, bootFirst i l = s :: rest := by
  obtain ⟨hi, rfl⟩ := List.getElem?_eq_some_iff.1 h
  cases l with
  | nil => simp at hi
  | cons first l =>
    cases i with
    | zero => exact ⟨l, by simp [bootFirst]⟩
    | succ i => exact ⟨l.set i first, by simp [bootFirst, List.getElem?_eq_getElem hi]⟩

lemma totalFree_perm {l l' : List MemSection} (h : l.Perm l') : totalFree l = totalFree l' :=
  (h.map _).sum_eq

/-- The image takes its blocks out of both counters. -/
lemma takeBootBlocks_counted {s : MemSection} {codeBase n : ℕ} (h : s.Fresh)
    (hn : s.kind = .block → n ≤ s.nrBlocks) : (takeBootBlocks codeBase n s).Counted := by
  intro hk
  obtain ⟨-, hfree, hzero⟩ := h hk
  simp only [takeBootBlocks]
  rw [hzero, zeros_setRange (hn hk), hfree]

/-- The image lies between the start of the boot section and its end. -/
lemma bootBlockSize_le {codeBase bootmemEnd i : ℕ} {sections : List MemSection} {s : MemSection}
    (hi : bootSection codeBase sections = some i) (hs : sections[i]? = some s)
    (hend : memEnd bootmemEnd sections ≤ s.phyBase + s.size) :
    bootBlockSize codeBase bootmemEnd sections ≤ s.size >>> MEM_BLOCK_SHIFT := by
  obtain ⟨hlt, hp, -⟩ := List.findIdx?_eq_some_iff_getElem.1 hi
  obtain ⟨_, rfl⟩ := List.getElem?_eq_some_iff.1 hs
  simp only [Bool.decide_and, Bool.and_eq_true, decide_eq_true_eq] at hp
  rw [bootBlockSize, Nat.shiftRight_eq_div_pow, Nat.shiftRight_eq_div_pow]
  exact Nat.div_le_div_right (by omega)

lemma bootMem_accounted {codeBase n i : ℕ} {b : Boot} {s : MemSection} (hb : b.Fresh)
    (hs : b.sections[i]? = some s) (hk : s.kind = .block) (hn : n ≤ s.nrBlocks) :
    Accounted (bootMem codeBase n i b) := by
  obtain ⟨rest, hrest⟩ := bootFirst_head hs
  have hperm := bootFirst_perm i b.sections
  rw [hrest] at hperm
  have hfresh := hb.fresh s (hperm.subset List.mem_cons_self)
  obtain ⟨-, hfree, -⟩ := hfresh hk
  rw [bootMem, hrest, List.modify_zero_cons]
  refine ⟨fun t ht => ?_, ?_⟩
  · rcases List.mem_cons.1 ht with rfl | ht
    · exact takeBootBlocks_counted hfresh fun _ => hn
    · intro hkt
      obtain ⟨-, htf, htz⟩ := hb.fresh t (hperm.subset (List.mem_cons_of_mem _ ht)) hkt
      rw [htz, zeros_const, htf]
  · have htotal := hb.total
    rw [← totalFree_perm hperm, totalFree_cons, if_pos hk] at htotal
    have hk' : (takeBootBlocks codeBase n s).kind = .block := hk
    dsimp only
    rw [totalFree_cons, if_pos hk']
    simp only [takeBootBlocks]
    omega

lemma Machine.init_accounted (M : Machine) : Accounted M.init := by
  obtain ⟨i, s, hi, hs, hk, hend⟩ := M.exists_boot
  have hfresh : M.boot.Fresh := parseSystemRegions_fresh M.memList
  obtain ⟨hnr, -, -⟩ := hfresh.fresh s (List.mem_of_getElem? hs) hk
  rw [M.init_eq hi]
  exact bootMem_accounted hfresh hs hk (hnr ▸ bootBlockSize_le hi hs hend)

/-! ### Runs -/

inductive BlockEvent where
  | alloc (flags : ℕ)
  | release (b : BlockRef)
deriving DecidableEq

def blockStep (mm : Mem) : BlockEvent → Mem
  | .alloc flags => (allocMemBlock mm flags).elim mm Prod.snd
  | .release b => (releaseMemBlock mm b).getD mm

/-- The block was handed out, no page of it is in use, and its section is found. -/
def Mem.Releasable (mm : Mem) (b : BlockRef) : Prop :=
  (mm.memSections[b.sec]?.any fun s => s.kind = .block ∧ b.bit < s.nrBlocks ∧ s.bitmap b.bit) ∧
    (releaseMemBlock mm b).isSome

/-- Only allocated blocks without pages are released. -/
def BlockEvent.Legit (mm : Mem) : BlockEvent → Prop
  | .alloc _ => True
  | .release b => mm.Releasable b

instance (mm : Mem) : (e : BlockEvent) → Decidable (e.Legit mm)
  | .alloc _ => inferInstanceAs (Decidable True)
  | .release _ => inferInstanceAs (Decidable (_ ∧ _))

/-- The accounting in one state, with what `has_enough_memory` and the callers of
`alloc_mem_block` rely on. -/
structure BlockAccounting (mm : Mem) : Prop where
  accounted : Accounted mm
  refuses : ∀ flags, allocMemBlock mm flags = none →
    ∀ s ∈ mm.memSections, s.kind = .block → ∀ i < s.nrBlocks, s.bitmap i = true
  enough : ∀ flags : List ℕ, hasEnoughMemory mm (flags.length * MEM_BLOCK_SIZE) →
    (allocMemBlocks mm flags).isSome

lemma hasEnoughMemory_iff {mm : Mem} {n : ℕ} :
    hasEnoughMemory mm (n * MEM_BLOCK_SIZE) ↔ n ≤ mm.freeBlocks := by
  have : n * MEM_BLOCK_SIZE / 2 ^ MEM_BLOCK_SHIFT = n := Nat.mul_div_cancel n (by decide)
  rw [hasEnoughMemory, Nat.shiftRight_eq_div_pow, this, decide_eq_true_eq]

lemma Accounted.accounting {mm : Mem} (h : Accounted mm) : BlockAccounting mm where
  accounted := h
  refuses _ := allocMemBlock_none h
  enough _ he := allocMemBlocks_isSome h (hasEnoughMemory_iff.1 he)

lemma blockStep_alloc_accounted {mm : Mem} {flags : ℕ} (h : Accounted mm) :
    Accounted (blockStep mm (.alloc flags)) := by
  rw [blockStep]
  cases ha : allocMemBlock mm flags with
  | none => exact h
  | some r => exact (allocMemBlock_accounted h ha).1

lemma exec_alloc_accounted {mm : Mem} {es : List BlockEvent} (h : Accounted mm)
    (hes : ∀ b, .release b ∉ es) : Accounted (exec blockStep mm es) := by
  induction es generalizing mm with
  | nil => exact h
  | cons e es ih =>
    have hrest : ∀ b, .release b ∉ es := fun b hb => hes b (List.mem_cons_of_mem _ hb)
    cases e with
    | alloc flags => exact ih (blockStep_alloc_accounted h) hrest
    | release b => exact absurd List.mem_cons_self (hes b)

/-- The accounting of blocks holds in every state of a run exactly if the run releases nothing. -/
theorem blockAccounting_run_iff (M : Machine) (es : List BlockEvent)
    (hes : Along blockStep BlockEvent.Legit M.init es) :
    (∀ pre, pre <+: es → BlockAccounting (exec blockStep M.init pre)) ↔
      ∀ b, .release b ∉ es := by
  constructor
  · intro h b hb
    obtain ⟨pre, post, rfl⟩ := List.append_of_mem hb
    have hbefore := (h pre (List.prefix_append _ _)).accounted
    have hafter := (h (pre ++ [.release b]) ⟨post, by simp⟩).accounted
    obtain ⟨mm', hmm'⟩ := Option.isSome_iff_exists.1 (along_append.1 hes).2.1.2
    rw [exec_append, exec_cons, exec_nil, blockStep, hmm', Option.getD_some] at hafter
    exact releaseMemBlock_not_accounted hbefore hmm' hafter
  · intro h pre hpre
    exact (exec_alloc_accounted M.init_accounted fun b hb => h b (hpre.subset hb)).accounting

/-- A machine with 8MiB of memory, the first 2MiB of which hold the image. -/
def smallMachine : Machine where
  memList := [⟨.normal, 0x40000000, 0x800000⟩]
  codeBase := 0x40000000
  bootmemEnd := 0x40010000
  fits := by decide +kernel

/-- Two blocks for a guest, and none comes back. -/
theorem blockAccounting_run_iff_two_blocks :
    let es := [BlockEvent.alloc GFB_VM, .alloc GFB_VM]
    (∀ pre, pre <+: es → BlockAccounting (exec blockStep smallMachine.init pre)) ↔
      ∀ b, .release b ∉ es :=
  blockAccounting_run_iff smallMachine _ (by decide +kernel)

/-- All three free blocks are given to a guest and one of them comes back. The section has a zero
bit and `has_enough_memory` promises the block, but `alloc_mem_block` finds none. -/
theorem blockAccounting_lost_after_release :
    let es := [BlockEvent.alloc GFB_VM, .alloc GFB_VM, .alloc GFB_VM, .release ⟨0, 1⟩]
    let mm := exec blockStep smallMachine.init es
    Along blockStep BlockEvent.Legit smallMachine.init es ∧ ¬ BlockAccounting mm ∧
      mm.memSections.any (fun s => s.kind = .block ∧ s.freeBlocks = 0 ∧ s.bitmap 1 = false) ∧
      hasEnoughMemory mm (1 * MEM_BLOCK_SIZE) ∧ (allocMemBlock mm GFB_VM).isNone := by
  refine ⟨by decide +kernel, fun h => ?_, by decide +kernel, by decide +kernel, by decide +kernel⟩
  exact absurd (h.enough [GFB_VM] (by decide +kernel)) (by decide +kernel)

end Minos.Mm
