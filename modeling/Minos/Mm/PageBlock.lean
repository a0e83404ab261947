import Mathlib
import Minos.Mm.PageRuns

/-!
# Free pages of a block

`alloc_pages_from_block` looks for a single page from a cursor on and for several pages from the
start of the block. The cursor moves with every single page, and with requests without an alignment.
Nothing moves it back but the end of the block, so pages that are freed before it may not be found.
-/

namespace Minos.Mm

open Bitmap Run

/-- What `alloc_pages_from_block` reads and writes of a block -/
structure PageBlock where
  bitmap : Bitmap
  bmCurrent : ℕ
  freePages : ℕ

inductive PageOp where
  /-- `alloc_pages_from_block` -/
  | alloc (count align : ℕ)
  /-- the bits of some pages are cleared, and `free_pages` counts them -/
  | free (start count : ℕ)
deriving DecidableEq, Repr

namespace PageBlock

/-- The cursor after the pages `bit` to `bit + count` were taken, without the wrap at the end -/
def cursor (s : PageBlock) (count align bit : ℕ) : ℕ :=
  if count = 1 ∨ align = 1 then bit + count else s.bmCurrent

/-- The pages `bit` to `bit + count` are taken. -/
def take (s : PageBlock) (count align bit : ℕ) : PageBlock where
  bitmap := setRange s.bitmap bit count
  bmCurrent :=
    if count = 1 ∨ align = 1 then (if bit + count = PAGES_IN_BLOCK then 0 else bit + count)
    else s.bmCurrent
  freePages := s.freePages - count

/-- `alloc_pages_from_block`: the first page, and the block after it -/
def alloc (s : PageBlock) (count align : ℕ) : Option (ℕ × PageBlock) :=
  if s.freePages < count then none
  else
    let bit := findPages s.bitmap s.bmCurrent count align
    if PAGES_IN_BLOCK ≤ bit then none else some (bit, s.take count align bit)

def free (s : PageBlock) (start count : ℕ) : PageBlock :=
  { s with bitmap := clearRange s.bitmap start count, freePages := s.freePages + count }

def step (s : PageBlock) : PageOp → PageBlock
  | .alloc count align => ((s.alloc count align).map Prod.snd).getD s
  | .free start count => s.free start count

/-- A block that has joined a pool -/
def init : PageBlock := ⟨fun _ => false, 0, PAGES_IN_BLOCK⟩

/-- Pages are asked for, and pages that are freed were taken. -/
def Legit (s : PageBlock) : PageOp → Prop
  | .alloc count align => 0 < count ∧ 0 < align
  | .free start count => 0 < count ∧ start + count ≤ PAGES_IN_BLOCK ∧
      ∀ i < PAGES_IN_BLOCK, start ≤ i → i < start + count → s.bitmap i = true

instance (s : PageBlock) : (op : PageOp) → Decidable (s.Legit op)
  | .alloc _ _ => inferInstanceAs (Decidable (_ ∧ _))
  | .free start count => inferInstanceAs (Decidable (0 < count ∧ start + count ≤ PAGES_IN_BLOCK ∧
      ∀ i < PAGES_IN_BLOCK, start ≤ i → i < start + count → s.bitmap i = true))

end PageBlock

/-- The block of a pool, with its bitmap at `m` -/
def PageMem.pageBlock (s : PageMem) (block : MemBlock) (m : MetaRef) : PageBlock :=
  ⟨s.bitmaps m, block.bmCurrent, block.freePages⟩

namespace PageBlock

/-- What `alloc_pages_from_block` does to the memory it does to the block. -/
lemma allocPagesFromBlock_alloc {s : PageMem} {b : BlockRef} {block : MemBlock} {m : MetaRef}
    (hb : s.mm.block? b = some block) (hm : s.metaOf b = some m) (count align : ℕ) :
    (allocPagesFromBlock s b count align = none ↔
        (s.pageBlock block m).alloc count align = none) ∧
      ∀ page s', allocPagesFromBlock s b count align = some (page, s') →
        ∃ bit block', page = .block m bit ∧ s'.mm.block? b = some block' ∧
          (s.pageBlock block m).alloc count align = some (bit, s'.pageBlock block' m) := by
  have halloc : (s.pageBlock block m).alloc count align =
      if block.freePages < count then none
      else if PAGES_IN_BLOCK ≤ findPages (s.bitmaps m) block.bmCurrent count align then none
      else some (findPages (s.bitmaps m) block.bmCurrent count align,
        (s.pageBlock block m).take count align
          (findPages (s.bitmaps m) block.bmCurrent count align)) := rfl
  rw [allocPagesFromBlock, hb, hm, halloc]
  dsimp only
  by_cases hfew : block.freePages < count
  · simp [hfew]
  rw [if_neg hfew, if_neg hfew]
  by_cases hbit : PAGES_IN_BLOCK ≤ findPages (s.bitmaps m) block.bmCurrent count align
  · simp [hbit]
  · rw [if_neg hbit, if_neg hbit]
    refine ⟨by simp, fun page s' h => ?_⟩
    obtain ⟨rfl, rfl⟩ := Prod.mk.inj (Option.some.inj h)
    generalize findPages (s.bitmaps m) block.bmCurrent count align = bit
    have hblock := Mem.setBlock_block? s.mm b b fun block : MemBlock => { block with
      freePages := block.freePages - count
      bmCurrent :=
        if count = 1 ∨ align = 1 then (if bit + count = PAGES_IN_BLOCK then 0 else bit + count)
        else block.bmCurrent }
    rw [if_pos rfl, hb, Option.map_some] at hblock
    refine ⟨_, _, rfl, hblock, ?_⟩
    simp [take, takePages, PageMem.pageBlock]

/-! ### What a request finds -/

/-- The first free page from the cursor on, or the first area for several pages -/
def FirstFit (s : PageBlock) (count align bit : ℕ) : Prop :=
  if count = 1 then
    s.bmCurrent ≤ bit ∧ s.bitmap bit = false ∧
      ∀ i, s.bmCurrent ≤ i → i < bit → s.bitmap i = true
  else IsArea s.bitmap PAGES_IN_BLOCK count align bit ∧
    ∀ b < bit, ¬ IsArea s.bitmap PAGES_IN_BLOCK count align b

/-- `free_pages` counts the zero bits. -/
structure Counted (s : PageBlock) : Prop where
  free : s.freePages = zeros s.bitmap PAGES_IN_BLOCK
  cursor : s.bmCurrent < PAGES_IN_BLOCK

/-- A free page is left from the cursor on, unless none is free. -/
def Ahead (s : PageBlock) : Prop :=
  s.freePages = 0 ∨ ∃ i, s.bmCurrent ≤ i ∧ i < PAGES_IN_BLOCK ∧ s.bitmap i = false

/-- What is asked of a block: what is free is found. -/
structure AllocsFind (s : PageBlock) : Prop where
  counted : s.freePages = zeros s.bitmap PAGES_IN_BLOCK
  single : 0 < s.freePages → ∃ r, s.alloc 1 1 = some r
  several : ∀ count k, 1 < count → ((∃ r, s.alloc count (2 ^ k) = some r) ↔
    ∃ b, 2 ^ k ∣ b ∧ b + count ≤ PAGES_IN_BLOCK ∧
      ∀ i, b ≤ i → i < b + count → s.bitmap i = false)

/-- The step leaves a free page from the cursor on, or none at all. A request moves the cursor to
the end of its pages only if it is for one page or has no alignment. -/
def KeepsAhead (s : PageBlock) : PageOp → Prop
  | .alloc count align => ∀ bit < PAGES_IN_BLOCK, s.FirstFit count align bit →
      s.freePages = count ∨ s.cursor count align bit = PAGES_IN_BLOCK ∨
        ∃ i, s.cursor count align bit ≤ i ∧ i < PAGES_IN_BLOCK ∧ s.bitmap i = false ∧
          ¬ (bit ≤ i ∧ i < bit + count)
  | .free start count => s.freePages = 0 → s.bmCurrent < start + count

variable {s : PageBlock} {count align bit start : ℕ} {op : PageOp} {ops : List PageOp}

lemma findPages_eq_iff (hcount : 0 < count) (hbit : bit < PAGES_IN_BLOCK) :
    findPages s.bitmap s.bmCurrent count align = bit ↔ s.FirstFit count align bit := by
  rw [findPages, FirstFit]
  split_ifs
  · exact findNextZeroBit_eq_iff hbit
  · exact findNextZeroAreaAlign_eq_iff hcount hbit

/-- The pages that are found are free. -/
lemma FirstFit.zero (h : s.FirstFit count align bit) (hbit : bit < PAGES_IN_BLOCK) :
    bit + count ≤ PAGES_IN_BLOCK ∧ ∀ i, bit ≤ i → i < bit + count → s.bitmap i = false := by
  rw [FirstFit] at h
  split_ifs at h with hone
  · refine ⟨by omega, fun i hlo hhi => ?_⟩
    obtain rfl : i = bit := by omega
    exact h.2.1
  · exact ⟨h.1.le, h.1.zero⟩

lemma FirstFit.count_le (h : s.FirstFit count align bit) (hbit : bit < PAGES_IN_BLOCK)
    (hs : s.Counted) :
    s.freePages = zeros (setRange s.bitmap bit count) PAGES_IN_BLOCK + count := by
  obtain ⟨hend, hzero⟩ := h.zero hbit
  rw [hs.free, zeros_setRange_zeros hend hzero]

/-- A request is served exactly when its pages are found. -/
lemma alloc_eq_some_iff (hs : s.Counted) (hcount : 0 < count) {r : ℕ × PageBlock} :
    s.alloc count align = some r ↔
      ∃ bit < PAGES_IN_BLOCK, s.FirstFit count align bit ∧ r = (bit, s.take count align bit) := by
  rw [alloc]
  dsimp only
  constructor
  · intro h
    split_ifs at h with hfew hbit
    refine ⟨_, not_le.1 hbit, ?_, (Option.some.inj h).symm⟩
    exact (findPages_eq_iff hcount (not_le.1 hbit)).1 rfl
  · rintro ⟨bit, hbit, hfit, rfl⟩
    have hle := hfit.count_le hbit hs
    rw [(findPages_eq_iff hcount hbit).2 hfit, if_neg (by omega), if_neg (by omega)]

lemma Counted.take (hs : s.Counted) (hbit : bit < PAGES_IN_BLOCK)
    (hfit : s.FirstFit count align bit) : (s.take count align bit).Counted := by
  have hle := hfit.count_le hbit hs
  obtain ⟨hend, -⟩ := hfit.zero hbit
  refine ⟨?_, ?_⟩
  · simp only [PageBlock.take]
    omega
  · dsimp only [PageBlock.take]
    split_ifs with hmoves hwrap
    · decide
    · omega
    · exact hs.cursor

lemma Counted.free_pages (hs : s.Counted) (hend : start + count ≤ PAGES_IN_BLOCK)
    (hset : ∀ i < PAGES_IN_BLOCK, start ≤ i → i < start + count → s.bitmap i = true) :
    (s.free start count).Counted := by
  refine ⟨?_, hs.cursor⟩
  simp only [PageBlock.free]
  rw [zeros_clearRange hend fun i hlo hhi => hset i (by omega) hlo hhi, hs.free]

lemma init_counted : init.Counted := ⟨(zeros_const _).symm, by decide⟩

/-- The step of a request: its pages are taken, or nothing happens. -/
lemma step_alloc (hs : s.Counted) (hcount : 0 < count) (align : ℕ) :
    (∃ bit < PAGES_IN_BLOCK, s.FirstFit count align bit ∧
        s.step (.alloc count align) = s.take count align bit) ∨
      (∀ bit < PAGES_IN_BLOCK, ¬ s.FirstFit count align bit) ∧
        s.step (.alloc count align) = s := by
  cases halloc : s.alloc count align with
  | none =>
    refine .inr ⟨fun bit hbit hfit => ?_, by rw [step, halloc]; rfl⟩
    have := (alloc_eq_some_iff hs hcount).2 ⟨bit, hbit, hfit, rfl⟩
    rw [halloc] at this
    exact Option.some_ne_none _ this.symm
  | some r =>
    obtain ⟨bit, hbit, hfit, rfl⟩ := (alloc_eq_some_iff hs hcount).1 halloc
    exact .inl ⟨bit, hbit, hfit, by rw [step, halloc]; rfl⟩

lemma Counted.step (hs : s.Counted) (hop : s.Legit op) : (s.step op).Counted := by
  cases op with
  | alloc count align =>
    rcases step_alloc hs hop.1 align with ⟨bit, hbit, hfit, hstep⟩ | ⟨-, hstep⟩
    · rw [hstep]
      exact hs.take hbit hfit
    · rw [hstep]
      exact hs
  | free start count => exact hs.free_pages hop.2.1 hop.2.2

/-- The requests for several pages are always right, and those for one page if there is a free page
from the cursor on. -/
lemma allocsFind_iff (hs : s.Counted) : s.AllocsFind ↔ s.Ahead := by
  have hone : (∃ r, s.alloc 1 1 = some r) ↔
      ∃ i, s.bmCurrent ≤ i ∧ i < PAGES_IN_BLOCK ∧ s.bitmap i = false := by
    constructor
    · rintro ⟨r, h⟩
      obtain ⟨bit, hbit, hfit, -⟩ := (alloc_eq_some_iff hs one_pos).1 h
      rw [FirstFit, if_pos rfl] at hfit
      exact ⟨bit, hfit.1, hbit, hfit.2.1⟩
    · intro h
      have hlt := findNextZeroBit_lt_iff.2 h
      have hfit : s.FirstFit 1 1 (findNextZeroBit s.bitmap PAGES_IN_BLOCK s.bmCurrent) :=
        (findPages_eq_iff one_pos hlt).1 (by rw [findPages, if_pos rfl])
      exact ⟨_, (alloc_eq_some_iff hs one_pos).2 ⟨_, hlt, hfit, rfl⟩⟩
  constructor
  · intro h
    rcases Nat.eq_zero_or_pos s.freePages with hzero | hpos
    · exact .inl hzero
    · exact .inr (hone.1 (h.single hpos))
  · intro h
    refine ⟨hs.free, fun hpos => hone.2 (h.resolve_left hpos.ne'), fun count k hcount => ?_⟩
    simp only [← isArea_two_pow]
    constructor
    · rintro ⟨r, halloc⟩
      obtain ⟨bit, -, hfit, -⟩ := (alloc_eq_some_iff hs (by omega)).1 halloc
      rw [FirstFit, if_neg hcount.ne'] at hfit
      exact ⟨bit, hfit.1⟩
    · intro harea
      classical
      have hfit : s.FirstFit count (2 ^ k) (Nat.find harea) := by
        rw [FirstFit, if_neg hcount.ne']
        exact ⟨Nat.find_spec harea, fun b hb => Nat.find_min harea hb⟩
      have hle := (Nat.find_spec harea).le
      exact ⟨_, (alloc_eq_some_iff hs (by omega)).2 ⟨_, by omega, hfit, rfl⟩⟩

/-- What a step has to do so that a free page is left from the cursor on. -/
lemma step_ahead_iff (hs : s.Counted) (hop : s.Legit op) (ha : s.Ahead) :
    (s.step op).Ahead ↔ s.KeepsAhead op := by
  cases op with
  | alloc count align =>
    rcases step_alloc hs hop.1 align with ⟨bit, hbit, hfit, hstep⟩ | ⟨hnone, hstep⟩
    · have hle := hfit.count_le hbit hs
      have hcursor := hs.cursor
      have hbits : ∀ i, setRange s.bitmap bit count i = false ↔
          s.bitmap i = false ∧ ¬ (bit ≤ i ∧ i < bit + count) := by
        intro i
        rw [setRange]
        split_ifs with hin <;> simp [hin]
      have hunique : ∀ b < PAGES_IN_BLOCK, s.FirstFit count align b → b = bit := fun b hb hfit' =>
        ((findPages_eq_iff hop.1 hb).2 hfit').symm.trans ((findPages_eq_iff hop.1 hbit).2 hfit)
      have hkeeps : s.KeepsAhead (.alloc count align) ↔ s.freePages = count ∨
          s.cursor count align bit = PAGES_IN_BLOCK ∨
          ∃ i, s.cursor count align bit ≤ i ∧ i < PAGES_IN_BLOCK ∧ s.bitmap i = false ∧
            ¬ (bit ≤ i ∧ i < bit + count) := by
        refine ⟨fun h => h bit hbit hfit, fun h b hb hfit' => ?_⟩
        obtain rfl := hunique b hb hfit'
        exact h
      rw [hstep, hkeeps, Ahead]
      simp only [take, hbits]
      by_cases hwrap : (count = 1 ∨ align = 1) ∧ bit + count = PAGES_IN_BLOCK
      · -- the cursor is back at the start, where any free page is found
        rw [if_pos hwrap.1, if_pos hwrap.2]
        refine iff_of_true ?_ (.inr (.inl (by rw [cursor, if_pos hwrap.1, hwrap.2])))
        rcases Nat.eq_zero_or_pos (zeros (setRange s.bitmap bit count) PAGES_IN_BLOCK) with hz | hz
        · exact .inl (by omega)
        · have hex := mt zeros_eq_zero_iff.2 hz.ne'
          push Not at hex
          obtain ⟨i, hi, hbit'⟩ := hex
          exact .inr ⟨i, Nat.zero_le i, hi, (hbits i).1 (Bool.eq_false_iff.2 hbit')⟩
      · have hnew : (if count = 1 ∨ align = 1 then
            (if bit + count = PAGES_IN_BLOCK then 0 else bit + count) else s.bmCurrent) =
            s.cursor count align bit := by
          rw [cursor]
          split_ifs with hmoves hend
          · exact absurd ⟨hmoves, hend⟩ hwrap
          · rfl
          · rfl
        have hne : s.cursor count align bit ≠ PAGES_IN_BLOCK := by
          rw [cursor]
          split_ifs with hmoves
          · exact fun hend => hwrap ⟨hmoves, hend⟩
          · exact hcursor.ne
        rw [hnew, or_iff_right hne]
        refine or_congr_left ?_
        omega
    · rw [hstep]
      exact iff_of_true ha fun bit hbit hfit => absurd hfit (hnone bit hbit)
  | free start count =>
    obtain ⟨hcount, hend, hset⟩ := hop
    have hcursor := hs.cursor
    have hbits : ∀ i, clearRange s.bitmap start count i = false ↔
        s.bitmap i = false ∨ (start ≤ i ∧ i < start + count) := by
      intro i
      rw [clearRange]
      split_ifs with hin <;> simp [hin]
    simp only [step, PageBlock.free, Ahead, KeepsAhead, hbits]
    constructor
    · rintro (hzero | ⟨i, hi, hlt, hfree⟩) hfull
      · omega
      · have hall := zeros_eq_zero_iff.1 (hs.free.symm.trans hfull) i hlt
        rcases hfree with hfree | hin
        · exact absurd (hfree.symm.trans hall) Bool.false_ne_true
        · omega
    · intro h
      rcases ha with hfull | ⟨i, hi, hlt, hfree⟩
      · have := h hfull
        exact .inr ⟨max s.bmCurrent start, by omega, by omega, .inr (by omega)⟩
      · exact .inr ⟨i, hi, hlt, .inl hfree⟩

/-- **Free pages are found.** In a state that a block gets into, every request is served that can
be, if and only if no page is free or one is free from the cursor on; and all states of a run are
such states if and only if every step leaves one. -/
theorem page_block_allocs_find_iff {ops : List PageOp} (h : Along step Legit init ops) :
    ((exec step init ops).AllocsFind ↔ (exec step init ops).Ahead) ∧
      ((∀ pre, pre <+: ops → (exec step init pre).AllocsFind) ↔
        Along step KeepsAhead init ops) := by
  have hahead : init.Ahead := .inr ⟨0, by decide, by decide, rfl⟩
  constructor
  · exact allocsFind_iff (exec_induction (fun _ _ hs hop => hs.step hop) init_counted h)
  · rw [forall_prefix_iff, and_iff_right ((allocsFind_iff init_counted).2 hahead)]
    refine along_iff (I := fun s => s.Counted ∧ s.Ahead) (fun s op hs hop => ?_)
      (fun s op hs hop hkeeps => ?_) ⟨init_counted, hahead⟩ h
    · rw [allocsFind_iff (hs.1.step hop), step_ahead_iff hs.1 hop hs.2]
    · exact ⟨hs.1.step hop, (step_ahead_iff hs.1 hop hs.2).2 hkeeps⟩

/-- A page is freed before the cursor, and there are others behind it. -/
theorem page_block_allocs_find_behind :
    let ops : List PageOp := [.alloc 1 1, .alloc 2 2, .alloc 1 1, .free 0 1]
    (exec step init ops).AllocsFind :=
  (page_block_allocs_find_iff (by decide +kernel)).1.2
    (.inr ⟨511, by decide +kernel, by decide, by decide +kernel⟩)

/-- The block was full, page 1 was freed and taken again, and page 0 is freed: it is the only free
page, and is not found. -/
theorem page_block_allocs_find_lost :
    let ops : List PageOp :=
      [.alloc 1 1, .alloc 1 1, .alloc 510 1, .free 1 1, .alloc 1 1, .free 0 1]
    let s := exec step init ops
    Along step Legit init ops ∧ s.freePages = 1 ∧ s.bitmap 0 = false ∧ s.bmCurrent = 2 ∧
      (s.alloc 1 1).isNone = true ∧ ¬ s.AllocsFind := by
  intro ops s
  have hnone : (s.alloc 1 1).isNone = true := by decide +kernel
  refine ⟨by decide +kernel, by decide +kernel, by decide +kernel, by decide +kernel, hnone,
    fun h => ?_⟩
  obtain ⟨r, hr⟩ := h.single (by decide +kernel)
  rw [hr] at hnone
  exact Bool.false_ne_true hnone

end PageBlock

end Minos.Mm
