import Mathlib
import Minos.Lib.Bitmap
import Minos.Lib.Run
import Minos.Mm.Layout
import Minos.Mm.Pages

/-!
# The page runs that are live

What an allocation holds is a run of pages: the bits of the run are set, and no two runs that are
live share a page. Only a free goes wrong: the number of pages that it gives back is read from the
first `struct page` of the block, and not from the one of the allocation, and in a page section it
is 0 or 1.
-/

namespace Minos.Mm

open Bitmap Run

/-! ### The pages of an allocation -/

/-- The page `j` places after a page. -/
def PageRef.shift : PageRef → ℕ → PageRef
  | .block m i, j => .block m (i + j)
  | .sec k i, j => .sec k (i + j)

/-- The bit of a page in the bitmap of its block or of its section. -/
def PageMem.bit (s : PageMem) : PageRef → Bool
  | .block m i => s.bitmaps m i
  | .sec k i => s.mm.memSections[k]?.any fun ms => ms.bitmap i

/-- The pages of an allocation. -/
def PageAlloc.frames (a : PageAlloc) : Set PageRef := {r | ∃ j < a.count, r = a.page.shift j}

/-- The bytes of an allocation. -/
def PageAlloc.bytes (a : PageAlloc) : Set ℕ := Set.Ico a.addr (a.addr + a.count * PAGE_SIZE)

/-- The run of an allocation is where its address says, in a block of a pool or in a page section,
and starts at a multiple of the alignment. -/
def Placed (s : PageMem) (a : PageAlloc) : Prop :=
  match a.page with
  | .block m i => ∃ b ms, s.metaOf b = some m ∧ Taken s.mm b ∧
      s.mm.memSections[b.sec]? = some ms ∧
      a.addr = ms.phyBase + b.bit * MEM_BLOCK_SIZE + i * PAGE_SIZE ∧
      i + a.count ≤ PAGES_IN_BLOCK ∧ a.align ∣ i
  | .sec k i => ∃ ms, s.mm.memSections[k]? = some ms ∧ ms.kind = .page ∧
      a.addr = ms.phyBase + i * PAGE_SIZE ∧ i + a.count ≤ ms.nrBlocks ∧ a.align ∣ i

/-- The live allocations are disjoint runs of pages that are taken. -/
structure PagesOk (s : PageMem) : Prop where
  placed : ∀ a ∈ s.live, Placed s a
  taken : ∀ a ∈ s.live, ∀ r ∈ a.frames, s.bit r = true
  apart : s.live.Pairwise fun a a' => Disjoint a.bytes a'.bytes

/-- The free of `a` makes its pages available and changes no other bit and no other count. -/
def FreesExactly (a : PageAlloc) (s s' : PageMem) : Prop :=
  match a.page with
  | .block m i => ∃ b, s.metaOf b = some m ∧
      s'.bitmaps = Function.update s.bitmaps m (clearRange (s.bitmaps m) i a.count) ∧
      s'.mm = s.mm.setBlock b fun block => { block with freePages := block.freePages + a.count }
  | .sec k i => s'.bitmaps = s.bitmaps ∧
      s'.mm = s.mm.setSection k fun ms => { ms with
        bitmap := clearRange ms.bitmap i a.count
        freeBlocks := ms.freeBlocks + a.count }

/-! ### Changes of one block or section -/

lemma Mem.setBlock_block? (mm : Mem) (b b' : BlockRef) (f : MemBlock → MemBlock) :
    (mm.setBlock b f).block? b' = if b = b' then (mm.block? b').map f else mm.block? b' := by
  rw [Mem.block?, Mem.block?, Mem.setBlock, Mem.setSection_get]
  by_cases hsec : b.sec = b'.sec
  · rw [if_pos hsec, Option.map_map, Option.map_map]
    by_cases hbit : b'.bit = b.bit
    · have hb : b = b' := by
        cases b
        cases b'
        simp_all
      subst hb
      simp [Function.comp_def]
    · have hb : b ≠ b' := fun h => hbit (by rw [h])
      simp [Function.comp_def, hb, hbit]
  · have hb : b ≠ b' := fun h => hsec (by rw [h])
    rw [if_neg hsec, if_neg hb]

lemma Mem.setBlock_bit (mm : Mem) (b : BlockRef) (f : MemBlock → MemBlock) (k i : ℕ) :
    ((mm.setBlock b f).memSections[k]?.any fun ms => ms.bitmap i) =
      mm.memSections[k]?.any fun ms => ms.bitmap i := by
  rw [Mem.setBlock, Mem.setSection_get]
  cases mm.memSections[k]? <;> split_ifs <;> rfl

lemma Mem.setBlock_word (mm : Mem) (b : BlockRef) (f : MemBlock → MemBlock) (k i : ℕ) :
    ((mm.setBlock b f).memSections[k]?.map fun ms => ms.pages i) =
      mm.memSections[k]?.map fun ms => ms.pages i := by
  rw [Mem.setBlock, Mem.setSection_get]
  cases mm.memSections[k]? <;> split_ifs <;> rfl

/-- A section keeps its place when another memory has the same geometry. -/
lemma SameGeometry.forward {mm mm' : Mem} (h : SameGeometry mm mm') {i : ℕ} {ms : MemSection}
    (hi : mm.memSections[i]? = some ms) :
    ∃ ms', mm'.memSections[i]? = some ms' ∧ ms'.kind = ms.kind ∧ ms'.phyBase = ms.phyBase ∧
      ms'.size = ms.size ∧ ms'.nrBlocks = ms.nrBlocks :=
  SameGeometry.get (Eq.symm h) hi |>.imp fun _ h =>
    ⟨h.1, h.2.1.symm, h.2.2.1.symm, h.2.2.2.1.symm, h.2.2.2.2.symm⟩

/-! ### What the allocator knows of its blocks -/

/-- A block that was handed out with `GFB_PAGE`. -/
def PoolBlock (mm : Mem) (b : BlockRef) : Prop :=
  Taken mm b ∧ ∃ ms block, mm.memSections[b.sec]? = some ms ∧ mm.block? b = some block ∧
    block.phyBase = ms.phyBase + b.bit * MEM_BLOCK_SIZE ∧ block.flags &&& GFB_PAGE ≠ 0

lemma PoolBlock.congr {mm mm' : Mem} {b : BlockRef} (hb : PoolBlock mm b)
    (hgeo : SameGeometry mm mm') (htaken : Taken mm b → Taken mm' b)
    (hmap : (mm'.block? b).map (fun block => (block.phyBase, block.flags)) =
      (mm.block? b).map fun block => (block.phyBase, block.flags)) : PoolBlock mm' b := by
  obtain ⟨hb, ms, block, hms, hblock, hbase, hflags⟩ := hb
  obtain ⟨ms', hms', -, hbase', -, -⟩ := hgeo.forward hms
  rw [hblock, Option.map_some, Option.map_eq_some_iff] at hmap
  obtain ⟨block', hblock', heq⟩ := hmap
  obtain ⟨hphy, hfl⟩ := Prod.mk.inj heq
  refine ⟨htaken hb, ms', block', hms', hblock', ?_, ?_⟩
  · rw [hphy, hbase, hbase']
  · rwa [hfl]

lemma Placed.congr {s s' : PageMem} {a : PageAlloc} (ha : Placed s a)
    (hgeo : SameGeometry s.mm s'.mm) (htaken : ∀ b, Taken s.mm b → Taken s'.mm b)
    (hmetaOf : ∀ b m, Taken s.mm b → s.metaOf b = some m → s'.metaOf b = some m) :
    Placed s' a := by
  unfold Placed at ha ⊢
  cases hpage : a.page with
  | block m i =>
    simp only [hpage] at ha ⊢
    obtain ⟨b, ms, hm, hb, hms, haddr, hle, hdvd⟩ := ha
    obtain ⟨ms', hms', -, hbase, -, -⟩ := hgeo.forward hms
    exact ⟨b, ms', hmetaOf b m hb hm, htaken b hb, hms', by rw [hbase, haddr], hle, hdvd⟩
  | sec k i =>
    simp only [hpage] at ha ⊢
    obtain ⟨ms, hms, hkind, haddr, hle, hdvd⟩ := ha
    obtain ⟨ms', hms', hkind', hbase, -, hnr⟩ := hgeo.forward hms
    exact ⟨ms', hms', hkind'.trans hkind, by rw [hbase, haddr], hnr ▸ hle, hdvd⟩

/-- Every block of a pool has a place of its own for its bits, and the live runs are set in the
bitmaps and do not share a page. -/
structure PageMem.Inv (s : PageMem) : Prop where
  layout : Layout s.mm
  block : ∀ b m, s.metaOf b = some m →
    PoolBlock s.mm b ∧ Taken s.mm m.block ∧ s.metaBitmaps m.block m.bit = true
  inj : ∀ b b' m, s.metaOf b = some m → s.metaOf b' = some m → b = b'
  metas : ∀ p, ∀ mb ∈ (s.pools p).metaList, Taken s.mm mb
  pos : ∀ a ∈ s.live, 0 < a.count
  placed : ∀ a ∈ s.live, Placed s a
  taken : ∀ a ∈ s.live, ∀ r ∈ a.frames, s.bit r = true
  word : ∀ a ∈ s.live, ∀ k i, a.page = .sec k i → s.phyBase a.page = pageWord a.addr 1
  apart : s.live.Pairwise fun a a' => Disjoint a.frames a'.frames

/-- Nothing that is taken is lost: the sections stay, bits stay set, a block that is taken stays
what it is, and gets a bitmap only if it is one of `E`. -/
structure Grows (E : Set BlockRef) (s s' : PageMem) : Prop where
  geometry : SameGeometry s.mm s'.mm
  secBit : ∀ k i, s.bit (.sec k i) = true → s'.bit (.sec k i) = true
  word : ∀ k i, s.bit (.sec k i) = true → s'.phyBase (.sec k i) = s.phyBase (.sec k i)
  block : ∀ b, Taken s.mm b → (s'.mm.block? b).map (fun block => (block.phyBase, block.flags)) =
    (s.mm.block? b).map fun block => (block.phyBase, block.flags)
  metaOf : ∀ b, Taken s.mm b → s'.metaOf b = s.metaOf b ∨ s.metaOf b = none ∧ b ∈ E
  metaBit : ∀ mb i, Taken s.mm mb → s.metaBitmaps mb i = true → s'.metaBitmaps mb i = true
  bit : ∀ b m i, Taken s.mm b → s.metaOf b = some m → s.bitmaps m i = true →
    s'.bitmaps m i = true

namespace Grows

variable {E : Set BlockRef} {s s' s'' : PageMem} {b : BlockRef} {m : MetaRef}

lemma refl (E : Set BlockRef) (s : PageMem) : Grows E s s where
  geometry := .refl _
  secBit _ _ h := h
  word _ _ _ := rfl
  block _ _ := rfl
  metaOf _ _ := .inl rfl
  metaBit _ _ _ h := h
  bit _ _ _ _ _ h := h

lemma taken (h : Grows E s s') (hb : Taken s.mm b) : Taken s'.mm b := by
  obtain ⟨ms, hms, hkind, hbit, hset⟩ := hb
  obtain ⟨ms', hms', hkind', -, -, hnr⟩ := h.geometry.forward hms
  have hset' := h.secBit b.sec b.bit (by simp [PageMem.bit, hms, hset])
  refine ⟨ms', hms', hkind'.trans hkind, hnr ▸ hbit, ?_⟩
  simpa [PageMem.bit, hms'] using hset'

lemma metaOf_some (h : Grows E s s') (hb : Taken s.mm b) (hm : s.metaOf b = some m) :
    s'.metaOf b = some m := by
  rcases h.metaOf b hb with heq | ⟨hnone, -⟩
  · rw [heq, hm]
  · rw [hm] at hnone
    cases hnone

lemma trans (h : Grows E s s') (h' : Grows E s' s'') : Grows E s s'' where
  geometry := h.geometry.trans h'.geometry
  secBit k i hi := h'.secBit k i (h.secBit k i hi)
  word k i hi := (h'.word k i (h.secBit k i hi)).trans (h.word k i hi)
  block b hb := (h'.block b (h.taken hb)).trans (h.block b hb)
  metaOf b hb := by
    rcases h.metaOf b hb with heq | hnone
    · rw [← heq]
      exact h'.metaOf b (h.taken hb)
    · exact .inr hnone
  metaBit mb i hmb hi := h'.metaBit mb i (h.taken hmb) (h.metaBit mb i hmb hi)
  bit b m i hb hm hi := h'.bit b m i (h.taken hb) (h.metaOf_some hb hm) (h.bit b m i hb hm hi)

lemma mono {E' : Set BlockRef} (h : Grows E s s')
    (hE : ∀ b ∈ E, Taken s.mm b → s.metaOf b = none → b ∈ E') : Grows E' s s' where
  geometry := h.geometry
  secBit := h.secBit
  word := h.word
  block := h.block
  metaOf b hb := (h.metaOf b hb).imp_right fun hn => ⟨hn.1, hE b hn.2 hb hn.1⟩
  metaBit := h.metaBit
  bit := h.bit

lemma poolBlock (h : Grows E s s') (hb : PoolBlock s.mm b) : PoolBlock s'.mm b :=
  hb.congr h.geometry h.taken (h.block b hb.1)

lemma placed {a : PageAlloc} (h : Grows E s s') (ha : Placed s a) : Placed s' a :=
  ha.congr h.geometry (fun _ => h.taken) fun _ _ => h.metaOf_some

lemma frame_bit {a : PageAlloc} {r : PageRef} (h : Grows E s s') (ha : Placed s a)
    (hr : r ∈ a.frames) (hbit : s.bit r = true) : s'.bit r = true := by
  obtain ⟨j, -, rfl⟩ := hr
  unfold Placed at ha
  cases hpage : a.page with
  | block m i =>
    simp only [hpage] at ha
    obtain ⟨b, -, hm, hb, -⟩ := ha
    rw [hpage] at hbit
    exact h.bit b m (i + j) hb hm hbit
  | sec k i =>
    rw [hpage] at hbit
    exact h.secBit k (i + j) hbit

/-- The blocks and the bits are not touched. -/
lemma of_eq (hmm : s'.mm = s.mm) (hmetaOf : s'.metaOf = s.metaOf)
    (hbitmaps : s'.bitmaps = s.bitmaps) (hmetaBitmaps : s'.metaBitmaps = s.metaBitmaps) :
    Grows E s s' where
  geometry := by rw [hmm]; exact .refl _
  secBit k i hi := by simpa only [PageMem.bit, hmm] using hi
  word k i _ := by simp only [PageMem.phyBase, hmm]
  block b _ := by rw [hmm]
  metaOf b _ := .inl (by rw [hmetaOf])
  metaBit mb i _ hi := by rw [hmetaBitmaps]; exact hi
  bit b m i _ _ hi := by rw [hbitmaps]; exact hi

/-- The counts of one block change, and bits are set. -/
lemma of_setBlock {f : MemBlock → MemBlock} (hmm : s'.mm = s.mm.setBlock b f)
    (hf : ∀ block, ((f block).phyBase, (f block).flags) = (block.phyBase, block.flags))
    (hmetaOf : s'.metaOf = s.metaOf)
    (hmetaBit : ∀ mb i, s.metaBitmaps mb i = true → s'.metaBitmaps mb i = true)
    (hbit : ∀ m i, s.bitmaps m i = true → s'.bitmaps m i = true) : Grows E s s' where
  geometry := by rw [hmm]; exact Mem.setBlock_sameGeometry ..
  secBit k i hi := by
    rw [PageMem.bit, hmm, Mem.setBlock_bit]
    exact hi
  word k i _ := by rw [PageMem.phyBase, hmm, Mem.setBlock_word, PageMem.phyBase]
  block b' _ := by
    rw [hmm, Mem.setBlock_block?]
    split_ifs
    · rw [Option.map_map]
      exact congrArg (Option.map · _) (funext hf)
    · rfl
  metaOf b' _ := .inl (by rw [hmetaOf])
  metaBit mb i _ hi := hmetaBit mb i hi
  bit b' m i _ _ hi := hbit m i hi

end Grows

namespace PageMem.Inv

variable {E : Set BlockRef} {s s' : PageMem}

/-- What only takes more keeps the invariant, if the blocks that join a pool get new places. -/
lemma grow (h : s.Inv) (hg : Grows E s s') (hlive : s'.live = s.live)
    (hnew : ∀ b m, s'.metaOf b = some m → s.metaOf b ≠ some m →
      (PoolBlock s'.mm b ∧ Taken s'.mm m.block ∧ s'.metaBitmaps m.block m.bit = true) ∧
        ∀ b', s'.metaOf b' = some m → b' = b)
    (hmetas : ∀ p, ∀ mb ∈ (s'.pools p).metaList, Taken s'.mm mb) : s'.Inv where
  layout := h.layout.sameGeometry hg.geometry
  block b m hm := by
    by_cases hold : s.metaOf b = some m
    · obtain ⟨hpool, htaken, hbit⟩ := h.block b m hold
      exact ⟨hg.poolBlock hpool, hg.taken htaken, hg.metaBit _ _ htaken hbit⟩
    · exact (hnew b m hm hold).1
  inj b b' m hm hm' := by
    by_cases hold : s.metaOf b = some m
    · by_cases hold' : s.metaOf b' = some m
      · exact h.inj b b' m hold hold'
      · exact (hnew b' m hm' hold').2 b hm
    · exact ((hnew b m hm hold).2 b' hm').symm
  metas := hmetas
  pos a ha := h.pos a (hlive ▸ ha)
  placed a ha := hg.placed (h.placed a (hlive ▸ ha))
  taken a ha r hr := hg.frame_bit (h.placed a (hlive ▸ ha)) hr (h.taken a (hlive ▸ ha) r hr)
  word a ha k i hpage := by
    rw [hlive] at ha
    have hbit : s.bit (.sec k i) = true :=
      h.taken a ha _ ⟨0, h.pos a ha, by rw [hpage]; rfl⟩
    have hword := h.word a ha k i hpage
    rw [hpage] at hword ⊢
    rw [hg.word k i hbit, hword]
  apart := hlive ▸ h.apart

/-- Another allocation, in pages that no live allocation has. -/
lemma noteAlloc {count align : ℕ} {page : PageRef} (h : s.Inv) (hpos : 0 < count)
    (hplaced : Placed s ⟨page, pageAddr (s.phyBase page), count, align⟩)
    (hword : ∀ k i, page = .sec k i →
      s.phyBase page = pageWord (pageAddr (s.phyBase page)) 1)
    (hbit : ∀ j < count, s.bit (page.shift j) = true)
    (hfree : ∀ a ∈ s.live, ∀ j < count, page.shift j ∉ a.frames) :
    (Mm.noteAlloc count align (page, s)).Inv where
  layout := h.layout
  block := h.block
  inj := h.inj
  metas := h.metas
  pos a ha := by
    rcases List.mem_append.1 ha with ha | ha
    · exact h.pos a ha
    · rw [List.mem_singleton.1 ha]
      exact hpos
  placed a ha := by
    rcases List.mem_append.1 ha with ha | ha
    · exact h.placed a ha
    · rw [List.mem_singleton.1 ha]
      exact hplaced
  taken a ha r hr := by
    rcases List.mem_append.1 ha with ha | ha
    · exact h.taken a ha r hr
    · rw [List.mem_singleton.1 ha] at hr
      obtain ⟨j, hj, rfl⟩ := hr
      exact hbit j hj
  word a ha k i hpage := by
    rcases List.mem_append.1 ha with ha | ha
    · exact h.word a ha k i hpage
    · rw [List.mem_singleton.1 ha] at hpage ⊢
      exact hword k i hpage
  apart := by
    refine List.pairwise_append.2 ⟨h.apart, List.pairwise_singleton .., fun a ha a' ha' => ?_⟩
    rw [List.mem_singleton.1 ha', Set.disjoint_right]
    rintro r ⟨j, hj, rfl⟩
    exact hfree a ha j hj

end PageMem.Inv

/-! ### `struct page` and the searches -/

lemma pageAddr_pageWord {addr : ℕ} (count : ℕ) (hdvd : PAGE_SIZE ∣ addr) (hlt : addr < 2 ^ 64) :
    pageAddr (pageWord addr count) = addr := by
  obtain ⟨q, rfl⟩ := hdvd
  have hcount : count &&& 0xfff < 2 ^ 12 := Nat.and_lt_two_pow _ (by norm_num)
  have hword : pageWord (PAGE_SIZE * q) count = 2 ^ 12 * q + (count &&& 0xfff) :=
    (Nat.two_pow_add_eq_or_of_lt hcount q).symm
  have hpage : PAGE_SIZE = 2 ^ 12 := rfl
  rw [hpage] at hlt
  rw [pageAddr, hword, hpage, align_pow (by omega) (by norm_num),
    Nat.mul_add_div (by norm_num), Nat.div_eq_of_lt hcount, Nat.add_zero, mul_comm]

lemma pageWord_ne_zero (addr : ℕ) : pageWord addr 1 ≠ 0 := by
  intro h
  simpa using (Nat.or_eq_zero_iff.1 h).2

/-- The pages that a search finds are free, and start at a multiple of the alignment. -/
lemma find_spec {m : Bitmap} {size bmCurrent count align i : ℕ} (hpos : 0 < count)
    (halign : ∃ k, align = 2 ^ k) (hone : count = 1 → align = 1)
    (hi : (if count = 1 then findNextZeroBit m size bmCurrent
      else findNextZeroAreaAlign m size 0 count align) = i) (hlt : i < size) :
    i + count ≤ size ∧ align ∣ i ∧ ∀ j < count, m (i + j) = false := by
  split_ifs at hi with h
  · subst hi
    rw [hone h]
    refine ⟨by omega, one_dvd _, fun j hj => ?_⟩
    obtain rfl : j = 0 := by omega
    exact findNextZeroBit_prop hlt
  · subst hi
    rw [findNextZeroAreaAlign] at hlt ⊢
    obtain ⟨hle, hand, hfree⟩ := findZeroAreaFrom_prop hpos hlt
    refine ⟨hle, ?_, fun j hj => hfree _ (by omega) (by omega)⟩
    obtain ⟨k, rfl⟩ := halign
    rw [Nat.and_two_pow_sub_one_eq_mod] at hand
    exact Nat.dvd_of_mod_eq_zero hand

/-! ### Blocks and their places -/

variable {s s' : PageMem} {b : BlockRef} {m : MetaRef} {flags : ℕ}

/-- A block that is handed out was not taken, and nothing else changes. -/
lemma allocBlock_spec (h : allocBlock s flags = some (b, s')) :
    Grows ∅ s s' ∧ ¬ Taken s.mm b ∧ Taken s'.mm b ∧
      (flags &&& GFB_MASK &&& GFB_PAGE ≠ 0 → PoolBlock s'.mm b) ∧
      ∃ mm, s' = { s with mm := mm, metaOf := Function.update s.metaOf b none } := by
  simp only [allocBlock, Option.map_eq_some_iff, Prod.mk.injEq] at h
  obtain ⟨⟨b', mm⟩, halloc, rfl, rfl⟩ := h
  obtain ⟨ms, hms, hkind, hbit, hfree, hget⟩ := allocMemBlock_cases halloc
  have hnot : ¬ Taken s.mm b' := by
    rintro ⟨ms', hms', -, -, hset⟩
    rw [hms, Option.some.injEq] at hms'
    subst hms'
    rw [hfree] at hset
    cases hset
  have hself : mm.memSections[b'.sec]? = some (takeBlock ms b'.bit flags) := by
    rw [hget, if_pos rfl]
  have htaken : Taken mm b' :=
    ⟨_, hself, hkind, hbit, by simp [takeBlock, setBit]⟩
  refine ⟨?_, hnot, htaken, fun hflags =>
    ⟨htaken, _, newBlock ms b'.bit flags, hself, ?_, rfl, hflags⟩, mm, rfl⟩
  · refine ⟨allocMemBlock_sameGeometry halloc, fun k i hi => ?_, fun k i _ => ?_,
      fun d hd => ?_, fun d hd => ?_, fun _ _ _ h => h, fun _ _ _ _ _ h => h⟩
    · simp only [PageMem.bit, hget] at hi ⊢
      by_cases hk : b'.sec = k
      · subst hk
        simp only [if_pos, hms, Option.any_some, takeBlock, setBit] at hi ⊢
        by_cases hbi : i = b'.bit
        · rw [hbi, Function.update_self]
        · rwa [Function.update_of_ne hbi]
      · rwa [if_neg hk]
    · simp only [PageMem.phyBase, hget]
      by_cases hk : b'.sec = k
      · subst hk
        simp [hms, takeBlock]
      · rw [if_neg hk]
    · have hne : d ≠ b' := fun hdb => hnot (hdb ▸ hd)
      simp only [Mem.block?, hget]
      by_cases hk : b'.sec = d.sec
      · have hbi : d.bit ≠ b'.bit := by
          intro hbi
          cases d
          cases b'
          simp_all
        rw [if_pos hk, ← hk, hms]
        simp [takeBlock, hbi]
      · rw [if_neg hk]
    · have hne : d ≠ b' := fun hdb => hnot (hdb ▸ hd)
      exact .inl (Function.update_of_ne hne ..)
  · simp [Mem.block?, hself, takeBlock]

lemma PageMem.Inv.allocBlock (hs : s.Inv) (h : Mm.allocBlock s flags = some (b, s')) :
    s'.Inv ∧ Grows ∅ s s' := by
  obtain ⟨hg, -, -, -, mm, rfl⟩ := allocBlock_spec h
  refine ⟨hs.grow hg rfl (fun d m hm hold => ?_) fun p mb hmb => hg.taken (hs.metas p mb hmb), hg⟩
  dsimp only at hm
  by_cases hd : d = b
  · rw [hd, Function.update_self] at hm
    cases hm
  · rw [Function.update_of_ne hd] at hm
    exact absurd hm hold

lemma PageMem.Inv.setPool {p : PoolKind} {f : PagePool → PagePool} (hs : s.Inv)
    (hf : ∀ mb ∈ (f (s.pools p)).metaList, Taken s.mm mb) :
    (s.setPool p f).Inv ∧ Grows ∅ s (s.setPool p f) := by
  have hg : Grows ∅ s (s.setPool p f) := .of_eq rfl rfl rfl rfl
  refine ⟨hs.grow hg rfl (fun d m hm hold => absurd hm hold) fun q mb hmb => hg.taken ?_, hg⟩
  simp only [PageMem.setPool] at hmb
  by_cases hq : q = p
  · subst hq
    rw [Function.update_self] at hmb
    exact hf mb hmb
  · rw [Function.update_of_ne hq] at hmb
    exact hs.metas q mb hmb

/-- The counts of a meta block are not what matters. -/
lemma PageMem.Inv.takeMeta (mb : BlockRef) (bit : ℕ) {f : MemBlock → MemBlock} (hs : s.Inv)
    (hf : ∀ block, ((f block).phyBase, (f block).flags) = (block.phyBase, block.flags)) :
    (Mm.takeMeta s mb bit f).Inv ∧ Grows ∅ s (Mm.takeMeta s mb bit f) ∧
      (Mm.takeMeta s mb bit f).metaBitmaps mb bit = true := by
  have hg : Grows ∅ s (Mm.takeMeta s mb bit f) := by
    refine .of_setBlock rfl hf rfl (fun d i hi => ?_) fun _ _ h => h
    simp only [Mm.takeMeta]
    by_cases hd : d = mb
    · subst hd
      rw [Function.update_self, setBit]
      by_cases hi' : i = bit
      · rw [hi', Function.update_self]
      · rwa [Function.update_of_ne hi']
    · rwa [Function.update_of_ne hd]
  refine ⟨hs.grow hg rfl (fun d m hm hold => absurd hm hold) fun q d hd =>
    hg.taken (hs.metas q d hd), hg, ?_⟩
  simp [Mm.takeMeta, setBit]

/-- A place that is taken and that no block has yet. -/
structure FreePlace (s : PageMem) (m : MetaRef) : Prop where
  unused : ∀ b, s.metaOf b ≠ some m
  taken : Taken s.mm m.block
  bit : s.metaBitmaps m.block m.bit = true

lemma newMetaBlock_spec {p : PoolKind} (hs : s.Inv) :
    (newMetaBlock s p).2.Inv ∧ Grows ∅ s (newMetaBlock s p).2 ∧
      ∀ m, (newMetaBlock s p).1 = some m → FreePlace (newMetaBlock s p).2 m := by
  rw [newMetaBlock]
  cases halloc : allocBlock s GPF_PAGE_META with
  | none => exact ⟨hs, .refl _ _, fun m hm => by cases hm⟩
  | some r =>
    obtain ⟨mb, s₁⟩ := r
    obtain ⟨hg, hnot, htaken, -, mm, rfl⟩ := allocBlock_spec halloc
    dsimp only
    have hunused : ∀ d m, s.metaOf d = some m → m.block ≠ mb :=
      fun d m hm h => hnot (h ▸ (hs.block d m hm).2.1)
    set s₂ : PageMem := { s with
      mm := mm
      metaOf := Function.update s.metaOf mb none
      metaBitmaps := Function.update s.metaBitmaps mb fun _ => false } with hs₂
    have hg₂ : Grows ∅ s s₂ := { hg with
      metaBit := fun d i hd hi => by
        rw [hs₂]
        dsimp only
        rwa [Function.update_of_ne fun h : d = mb => hnot (h ▸ hd)] }
    have hmetaOf : ∀ d m, s₂.metaOf d = some m → s.metaOf d = some m := by
      intro d m hm
      simp only [hs₂] at hm
      by_cases hd : d = mb
      · rw [hd, Function.update_self] at hm
        cases hm
      · rwa [Function.update_of_ne hd] at hm
    have hinv₂ : s₂.Inv := hs.grow hg₂ rfl
      (fun d m hm hold => absurd (hmetaOf d m hm) hold) fun q d hd => hg₂.taken (hs.metas q d hd)
    obtain ⟨hinv₃, hg₃, hbit⟩ := hinv₂.takeMeta mb 0
      (f := fun block => { block with freePages := PAGE_METAS_IN_BLOCK - 1, bmCurrent := 1 })
      fun _ => rfl
    obtain ⟨hinv₄, hg₄⟩ := hinv₃.setPool (p := p)
      (f := fun pool => { pool with metaList := mb :: pool.metaList }) (by
        intro d hd
        rcases List.mem_cons.1 hd with rfl | hd
        · exact hg₃.taken htaken
        · exact hinv₃.metas p d hd)
    refine ⟨hinv₄, (hg₂.trans hg₃).trans hg₄, fun m hm => ?_⟩
    cases hm
    exact ⟨fun d hd => hunused d _ (hmetaOf d _ hd) rfl, hg₃.taken htaken, hbit⟩

lemma getPageMetaFrom_spec {p : PoolKind} (l : List BlockRef) (hs : s.Inv)
    (hl : ∀ mb ∈ l, Taken s.mm mb) :
    (getPageMetaFrom p l s).2.Inv ∧ Grows ∅ s (getPageMetaFrom p l s).2 ∧
      ∀ m, (getPageMetaFrom p l s).1 = some m → FreePlace (getPageMetaFrom p l s).2 m := by
  induction l generalizing s with
  | nil => exact newMetaBlock_spec hs
  | cons mb rest ih =>
    have hdrop : ∀ t : PageMem, t.Inv → (t.setPool p fun pool => { pool with
        metaList := pool.metaList.erase mb }).Inv ∧ Grows ∅ t (t.setPool p fun pool =>
          { pool with metaList := pool.metaList.erase mb }) :=
      fun t ht => ht.setPool fun d hd => ht.metas p d (List.mem_of_mem_erase hd)
    rw [getPageMetaFrom]
    cases hblock : s.mm.block? mb with
    | none => exact ⟨hs, .refl _ _, fun m hm => by cases hm⟩
    | some block =>
      dsimp only
      set bit := findNextZeroBitLoop (s.metaBitmaps mb) PAGE_METAS_IN_BLOCK block.bmCurrent
      by_cases hfull : PAGE_METAS_IN_BLOCK ≤ bit
      · rw [if_pos hfull]
        obtain ⟨hinv, hg⟩ := hdrop s hs
        obtain ⟨hinv', hg', hfree⟩ := ih hinv fun d hd => hl d (List.mem_cons_of_mem _ hd)
        exact ⟨hinv', hg.trans hg', hfree⟩
      · have hzero : s.metaBitmaps mb bit = false := findNextZeroBitLoop_prop (not_le.1 hfull)
        obtain ⟨hinv, hg, hbit⟩ := hs.takeMeta mb bit
          (f := fun block => { block with
            freePages := block.freePages - 1
            bmCurrent := if bit + 1 = PAGE_METAS_IN_BLOCK then 0 else bit + 1 }) fun _ => rfl
        rw [if_neg hfull]
        set t := takeMeta s mb bit fun block => { block with
          freePages := block.freePages - 1
          bmCurrent := if bit + 1 = PAGE_METAS_IN_BLOCK then 0 else bit + 1 }
        have hfree : FreePlace t ⟨mb, bit⟩ := by
          refine ⟨fun d hd => ?_, hg.taken (hl mb List.mem_cons_self), hbit⟩
          have := (hs.block d _ hd).2.2
          rw [hzero] at this
          cases this
        by_cases hempty : block.freePages - 1 = 0
        · rw [if_pos hempty]
          obtain ⟨hinv', hg'⟩ := hdrop t hinv
          refine ⟨hinv', hg.trans hg', fun m hm => ?_⟩
          cases hm
          exact ⟨hfree.unused, hfree.taken, hfree.bit⟩
        · rw [if_neg hempty]
          refine ⟨hinv, hg, fun m hm => ?_⟩
          cases hm
          exact hfree

/-- A block that joins a pool has a place of its own. -/
lemma PageMem.Inv.joinPool {p : PoolKind} (hs : s.Inv) (hb : PoolBlock s.mm b)
    (hnone : s.metaOf b = none) (hm : FreePlace s m) :
    (Mm.joinPool s p b m).Inv ∧ Grows {b} s (Mm.joinPool s p b m) ∧
      (Mm.joinPool s p b m).metaOf b = some m := by
  have hg : Grows {b} s (Mm.joinPool s p b m) := by
    refine ⟨.refl _, fun _ _ h => h, fun _ _ _ => rfl, fun _ _ => rfl, fun d _ => ?_,
      fun _ _ _ h => h, fun d m' i _ hd hi => ?_⟩
    · by_cases hdb : d = b
      · exact .inr ⟨hdb ▸ hnone, hdb⟩
      · exact .inl (Function.update_of_ne hdb ..)
    · have hne : m' ≠ m := fun h => hm.unused d (h ▸ hd)
      simpa [Mm.joinPool, PageMem.setPool, hne] using hi
  have hself : (Mm.joinPool s p b m).metaOf b = some m := Function.update_self ..
  refine ⟨hs.grow hg rfl (fun d m' hd hold => ?_) fun q mb hmb => hs.metas q mb ?_, hg, hself⟩
  · have hdb : d = b := by
      by_contra hdb
      exact hold ((Function.update_of_ne hdb ..).symm.trans hd)
    subst hdb
    rw [hself, Option.some.injEq] at hd
    subst hd
    refine ⟨⟨hb, hm.taken, hm.bit⟩, fun d' hd' => ?_⟩
    by_contra hne
    exact hm.unused d' ((Function.update_of_ne hne ..).symm.trans hd')
  · simp only [Mm.joinPool, PageMem.setPool] at hmb
    by_cases hq : q = p
    · subst hq
      rwa [Function.update_self] at hmb
    · rwa [Function.update_of_ne hq] at hmb

/-! ### Allocation -/

/-- The address of a page of a block lies in its section. -/
lemma Taken.addr_lt {mm : Mem} {ms : MemSection} {i : ℕ} (hmm : Layout mm) (hb : Taken mm b)
    (hms : mm.memSections[b.sec]? = some ms) (hi : i < PAGES_IN_BLOCK) :
    ms.phyBase + b.bit * MEM_BLOCK_SIZE + i * PAGE_SIZE < ms.phyBase + ms.size := by
  obtain ⟨ms', hms', hkind, hbit, -⟩ := hb
  rw [hms, Option.some.injEq] at hms'
  subst hms'
  have hsize := hmm.size ms (List.mem_of_getElem? hms)
  rw [hkind, SectionKind.unit] at hsize
  have hblock : i * PAGE_SIZE < MEM_BLOCK_SIZE :=
    Nat.mul_lt_mul_of_pos_right hi (show 0 < PAGE_SIZE by decide)
  calc ms.phyBase + b.bit * MEM_BLOCK_SIZE + i * PAGE_SIZE
      < ms.phyBase + (b.bit * MEM_BLOCK_SIZE + MEM_BLOCK_SIZE) := by omega
    _ = ms.phyBase + (b.bit + 1) * MEM_BLOCK_SIZE := by rw [Nat.succ_mul]
    _ ≤ ms.phyBase + ms.size := by
      rw [hsize]
      exact Nat.add_le_add_left (Nat.mul_le_mul_right _ hbit) _

lemma page_dvd {mm : Mem} {ms : MemSection} (hmm : Layout mm) (h : ms ∈ mm.memSections)
    (n i : ℕ) : PAGE_SIZE ∣ ms.phyBase + n * MEM_BLOCK_SIZE + i * PAGE_SIZE :=
  Nat.dvd_add (Nat.dvd_add (hmm.aligned ms h) (Nat.dvd_mul_left_of_dvd (by decide) n))
    (Nat.dvd_mul_left ..)

lemma takePages_grows {addr bit count align : ℕ} :
    Grows ∅ s (takePages s b m addr bit count align) := by
  refine .of_setBlock (f := fun block => { block with
    freePages := block.freePages - count
    bmCurrent :=
      if count = 1 ∨ align = 1 then (if bit + count = PAGES_IN_BLOCK then 0 else bit + count)
      else block.bmCurrent }) rfl (fun _ => rfl) rfl (fun _ _ h => h) fun m' i hi => ?_
  simp only [takePages]
  by_cases hm : m' = m
  · subst hm
    rw [Function.update_self, setRange]
    split_ifs
    · rfl
    · exact hi
  · rwa [Function.update_of_ne hm]

/-- The allocation from a block takes pages that were free. -/
lemma PageMem.Inv.allocPagesFromBlock {count align : ℕ} {page : PageRef} (hs : s.Inv)
    (hpos : 0 < count) (halign : ∃ k, align = 2 ^ k) (hone : count = 1 → align = 1)
    (h : Mm.allocPagesFromBlock s b count align = some (page, s')) :
    (Mm.noteAlloc count align (page, s')).Inv ∧ s'.Inv ∧ Grows ∅ s s' := by
  rw [Mm.allocPagesFromBlock] at h
  cases hblock : s.mm.block? b with
  | none => simp [hblock] at h
  | some block =>
    cases hm : s.metaOf b with
    | none => simp [hblock, hm] at h
    | some m =>
      simp only [hblock, hm] at h
      split_ifs at h with hfew hfull
      obtain ⟨rfl, rfl⟩ := Prod.mk.inj (Option.some.inj h)
      set bit := findPages (s.bitmaps m) block.bmCurrent count align with hbit
      obtain ⟨⟨htaken, ms, block', hms, hblock', hbase, -⟩, -, -⟩ := hs.block b m hm
      rw [hblock, Option.some.injEq] at hblock'
      subst hblock'
      obtain ⟨hle, hdvd, hfree⟩ := find_spec hpos halign hone hbit.symm (not_le.1 hfull)
      have haddr : block.phyBase + bit <<< 12 =
          ms.phyBase + b.bit * MEM_BLOCK_SIZE + bit * PAGE_SIZE := by
        rw [hbase, Nat.shiftLeft_eq]
        rfl
      have hg : Grows ∅ s (takePages s b m (block.phyBase + bit <<< 12) bit count align) :=
        takePages_grows
      set s' := takePages s b m (block.phyBase + bit <<< 12) bit count align with hs'
      have hinv : s'.Inv := hs.grow hg rfl (fun d m' hd hold => absurd hd hold)
        fun q mb hmb => hg.taken (hs.metas q mb hmb)
      have hword : s'.phyBase (.block m bit) =
          pageWord (ms.phyBase + b.bit * MEM_BLOCK_SIZE + bit * PAGE_SIZE) count := by
        simp [PageMem.phyBase, hs', takePages, writeMeta, haddr]
      have hpage : pageAddr (s'.phyBase (.block m bit)) =
          ms.phyBase + b.bit * MEM_BLOCK_SIZE + bit * PAGE_SIZE := by
        have hmem := List.mem_of_getElem? hms
        rw [hword]
        refine pageAddr_pageWord _ (page_dvd hs.layout hmem ..) ?_
        exact (htaken.addr_lt hs.layout hms (not_le.1 hfull)).trans (hs.layout.bound ms hmem)
      obtain ⟨ms', hms', -, hbase', -, -⟩ := hg.geometry.forward hms
      refine ⟨hinv.noteAlloc hpos ?_ (fun k i hk => by cases hk) ?_ ?_, hinv, hg⟩
      · refine ⟨b, ms', hg.metaOf_some htaken hm, hg.taken htaken, hms', ?_, hle, hdvd⟩
        dsimp only
        rw [hpage, hbase']
      · intro j hj
        simp [PageMem.bit, PageRef.shift, hs', takePages, setRange, hj]
      · rintro a ha j hj ⟨j', hj', hframe⟩
        have hset := hs.taken a ha _ ⟨j', hj', hframe⟩
        simp only [PageRef.shift, PageMem.bit, hfree j hj] at hset
        cases hset

lemma noteAlloc_setPool {count align : ℕ} {page : PageRef} {p : PoolKind}
    {f : PagePool → PagePool} :
    noteAlloc count align (page, s.setPool p f) =
      (noteAlloc count align (page, s)).setPool p f := by
  cases page <;> rfl

/-- What an allocation function does: it keeps the invariant, also with the caller's new run. -/
structure Allocates (count align : ℕ) (s : PageMem) (r : Option PageRef × PageMem) : Prop where
  inv : r.2.Inv
  grows : Grows ∅ s r.2
  page : ∀ page, r.1 = some page → (noteAlloc count align (page, r.2)).Inv

section

variable {p : PoolKind} {count align : ℕ} (hpos : 0 < count) (halign : ∃ k, align = 2 ^ k)
  (hone : count = 1 → align = 1)

include hpos halign hone

lemma PageMem.Inv.allocPagesFromBlocks {page : PageRef} (l : List BlockRef) (hs : s.Inv)
    (h : Mm.allocPagesFromBlocks count align p l s = some (page, s')) :
    Allocates count align s (some page, s') := by
  induction l with
  | nil => cases h
  | cons b rest ih =>
    rw [Mm.allocPagesFromBlocks] at h
    cases halloc : Mm.allocPagesFromBlock s b count align with
    | none =>
      rw [halloc] at h
      exact ih h
    | some r =>
      obtain ⟨page', t⟩ := r
      rw [halloc] at h
      obtain ⟨hnote, hinv, hg⟩ := hs.allocPagesFromBlock hpos halign hone halloc
      have hdrop : ∀ u : PageMem, u.Inv → (u.setPool p fun pool => { pool with
          blockList := pool.blockList.erase b }).Inv ∧ Grows ∅ u (u.setPool p fun pool =>
            { pool with blockList := pool.blockList.erase b }) :=
        fun u hu => hu.setPool (hu.metas p)
      simp only [Option.some.injEq, Prod.mk.injEq] at h
      obtain ⟨rfl, hs'⟩ := h
      split_ifs at hs'
      · subst hs'
        refine ⟨(hdrop t hinv).1, hg.trans (hdrop t hinv).2, fun page h => ?_⟩
        cases h
        rw [noteAlloc_setPool]
        exact (hdrop _ hnote).1
      · subst hs'
        refine ⟨hinv, hg, fun page h => ?_⟩
        cases h
        exact hnote

/-- A new block joins the pool, whatever `create_host_mapping` allocates in between. -/
lemma PageMem.Inv.allocPagesFromNewBlock {between : PageMem → PageMem} {flags : ℕ}
    (hbetween : ∀ t : PageMem, t.Inv → (between t).Inv ∧ Grows ∅ t (between t))
    (hflags : flags &&& GFB_MASK &&& GFB_PAGE ≠ 0) (hs : s.Inv) :
    Allocates count align s (Mm.allocPagesFromNewBlock between p count align flags s) := by
  rw [Mm.allocPagesFromNewBlock]
  cases halloc : Mm.allocBlock s flags with
  | none => exact ⟨hs, .refl _ _, fun page h => by cases h⟩
  | some r =>
    obtain ⟨b, s₁⟩ := r
    obtain ⟨hinv₁, hg₁⟩ := hs.allocBlock halloc
    obtain ⟨-, hnot, htaken, hpool, mm, hs₁⟩ := allocBlock_spec halloc
    have hnone : s₁.metaOf b = none := by rw [hs₁]; exact Function.update_self ..
    obtain ⟨hinv₂, hg₂⟩ := hbetween s₁ hinv₁
    obtain ⟨hinv₃, hg₃, hfree⟩ := getPageMetaFrom_spec (p := p) _ hinv₂ (hinv₂.metas p)
    have hg := (hg₁.trans hg₂).trans hg₃
    have hnone₃ : (getPageMeta (between s₁) p).2.metaOf b = none := by
      rcases (hg₂.trans hg₃).metaOf b htaken with heq | ⟨-, hmem⟩
      · exact heq.trans hnone
      · cases hmem
    dsimp only
    rw [getPageMeta] at hnone₃ ⊢
    set r := getPageMetaFrom p (PageMem.pools (between s₁) p).metaList (between s₁) with hr
    obtain ⟨place, s₃⟩ := r
    cases place with
    | none => exact ⟨hinv₃, hg, fun page h => by cases h⟩
    | some m =>
      have hb := hg₃.poolBlock (hg₂.poolBlock (hpool hflags))
      obtain ⟨hinv₄, hg₄, -⟩ := hinv₃.joinPool (p := p) hb hnone₃ (hfree m rfl)
      have hjoin : ∀ t, Grows {b} s t → Grows ∅ s t :=
        fun t ht => ht.mono fun d hd hdt _ => absurd (Set.mem_singleton_iff.1 hd ▸ hdt) hnot
      have hgrow : Grows {b} s (Mm.joinPool s₃ p b m) :=
        (hg.mono fun d hd _ _ => absurd hd (Set.notMem_empty d)).trans hg₄
      dsimp only
      cases hblock : Mm.allocPagesFromBlock (Mm.joinPool s₃ p b m) b count align with
      | none => exact ⟨hinv₄, hjoin _ hgrow, fun page h => by cases h⟩
      | some r =>
        obtain ⟨page, s₅⟩ := r
        obtain ⟨hnote, hinv₅, hg₅⟩ := hinv₄.allocPagesFromBlock hpos halign hone hblock
        refine ⟨hinv₅, hjoin _ (hgrow.trans ?_), fun page h => ?_⟩
        · exact hg₅.mono fun d hd _ _ => absurd hd (Set.notMem_empty d)
        · cases h
          exact hnote

lemma PageMem.Inv.allocPagesFromPool {between : PageMem → PageMem} {flags : ℕ}
    (hbetween : ∀ t : PageMem, t.Inv → (between t).Inv ∧ Grows ∅ t (between t))
    (hflags : flags &&& GFB_MASK &&& GFB_PAGE ≠ 0) (hs : s.Inv) :
    Allocates count align s (Mm.allocPagesFromPool between p count align flags s) := by
  rw [Mm.allocPagesFromPool]
  cases hblocks : Mm.allocPagesFromBlocks count align p (s.pools p).blockList s with
  | none => exact hs.allocPagesFromNewBlock hpos halign hone hbetween hflags
  | some r => exact hs.allocPagesFromBlocks hpos halign hone _ hblocks

/-! ### Page sections -/

omit hpos halign hone in
lemma allocPagesFromSections_spec {k bit : ℕ} (l : List MemSection) (i : ℕ)
    (h : allocPagesFromSections count align i l = some (k, bit)) :
    ∃ d ms, k = i + d ∧ l[d]? = some ms ∧ ms.kind = .page ∧
      findSectionPages ms count align = bit ∧ bit < ms.nrBlocks := by
  induction l generalizing i with
  | nil => cases h
  | cons ms rest ih =>
    rw [allocPagesFromSections] at h
    split_ifs at h with hc
    · obtain ⟨rfl, rfl⟩ := Prod.mk.inj (Option.some.inj h)
      exact ⟨0, ms, rfl, rfl, hc.1, rfl, hc.2.2⟩
    · obtain ⟨d, ms', rfl, hget, hrest⟩ := ih (i + 1) h
      exact ⟨d + 1, ms', by omega, hget, hrest⟩

omit hpos halign hone in
/-- Bits of a section are set, and the word of a page that was free is written. -/
lemma takeSectionPages_grows {k bit : ℕ} (hfree : s.bit (.sec k bit) = false) :
    Grows ∅ s { s with mm := s.mm.setSection k (takeSectionPages bit count) } where
  geometry := Mem.setSection_sameGeometry fun _ => rfl
  secBit j i hi := by
    simp only [PageMem.bit, Mem.setSection_get] at hi ⊢
    split_ifs
    · cases hms : s.mm.memSections[j]? with
      | none => simp [hms] at hi
      | some ms =>
        rw [hms, Option.any_some] at hi
        simp [takeSectionPages, setRange, hi]
    · exact hi
  word j i hi := by
    simp only [PageMem.phyBase, Mem.setSection_get]
    split_ifs with hk
    · subst hk
      have hne : i ≠ bit := by
        rintro rfl
        rw [hi] at hfree
        cases hfree
      rw [Option.map_map]
      refine congrArg (Option.getD · 0) (congrArg (Option.map · _) (funext fun ms => ?_))
      simp [takeSectionPages, writeMeta, hne]
    · rfl
  block d _ := by
    simp only [Mem.block?, Mem.setSection_get]
    split_ifs
    · rw [Option.map_map, Option.map_map, Option.map_map]
      rfl
    · rfl
  metaOf _ _ := .inl rfl
  metaBit _ _ _ h := h
  bit _ _ _ _ _ h := h

lemma PageMem.Inv.allocPagesFromSection {page : PageRef} (hs : s.Inv)
    (h : Mm.allocPagesFromSection s count align = some (page, s')) :
    Allocates count align s (some page, s') := by
  simp only [Mm.allocPagesFromSection, Option.map_eq_some_iff, Prod.mk.injEq] at h
  obtain ⟨⟨k, bit⟩, hfind, rfl, rfl⟩ := h
  obtain ⟨d, ms, hk, hms, hkind, hbit, hlt⟩ := allocPagesFromSections_spec _ 0 hfind
  obtain rfl : k = d := by omega
  obtain ⟨hle, hdvd, hfree⟩ := find_spec hpos halign hone hbit hlt
  have hmem := List.mem_of_getElem? hms
  have hg : Grows ∅ s { s with mm := s.mm.setSection k (takeSectionPages bit count) } :=
    takeSectionPages_grows (by simpa [PageMem.bit, hms] using hfree 0 hpos)
  set s' : PageMem := { s with mm := s.mm.setSection k (takeSectionPages bit count) } with hs'
  have hinv : s'.Inv := hs.grow hg rfl (fun d m' hd hold => absurd hd hold)
    fun q mb hmb => hg.taken (hs.metas q mb hmb)
  have hms' : s'.mm.memSections[k]? = some (takeSectionPages bit count ms) := by
    rw [hs', Mem.setSection_get, if_pos rfl, hms, Option.map_some]
  have hword : s'.phyBase (.sec k bit) = pageWord (ms.phyBase + bit * PAGE_SIZE) 1 := by
    simp [PageMem.phyBase, hms', takeSectionPages, writeMeta, Nat.shiftLeft_eq, PAGE_SIZE,
      SIZE_4K]
  have hlt64 : ms.phyBase + bit * PAGE_SIZE < 2 ^ 64 := by
    have hsize := hs.layout.size ms hmem
    rw [hkind, SectionKind.unit] at hsize
    have := Nat.mul_le_mul_right PAGE_SIZE hlt.le
    have := hs.layout.bound ms hmem
    omega
  have hpage : pageAddr (s'.phyBase (.sec k bit)) = ms.phyBase + bit * PAGE_SIZE := by
    rw [hword]
    exact pageAddr_pageWord _ (Nat.dvd_add (hs.layout.aligned ms hmem) (Nat.dvd_mul_left ..))
      hlt64
  refine ⟨hinv, hg, fun page h => ?_⟩
  cases h
  refine hinv.noteAlloc hpos ⟨_, hms', hkind, hpage, hle, hdvd⟩ (fun _ _ _ => ?_)
    (fun j hj => ?_) ?_
  · rw [hpage, hword]
  · simp [PageMem.bit, PageRef.shift, hms', takeSectionPages, setRange, hj]
  · rintro a ha j hj ⟨j', hj', hframe⟩
    have hset := hs.taken a ha _ ⟨j', hj', hframe⟩
    simp only [PageRef.shift, PageMem.bit, hms, Option.any_some, hfree j hj] at hset
    cases hset

/-- `__alloc_pages` -/
lemma PageMem.Inv.allocPages (hs : s.Inv) :
    Allocates count align s (Mm.allocPages s count align) := by
  rw [Mm.allocPages]
  have hpool : Allocates count align s (Mm.allocPagesFromPool id .page count align GFB_PAGE s) :=
    hs.allocPagesFromPool hpos halign hone (fun t ht => ⟨ht, .refl _ _⟩) (by decide)
  by_cases hlt : 1 < align
  · rw [if_pos hlt]
    exact hpool
  · rw [if_neg hlt]
    cases hsec : Mm.allocPagesFromSection s count align with
    | none => exact hpool
    | some r => exact hs.allocPagesFromSection hpos halign hone hsec

omit hpos halign hone in
lemma Allocates.keep {r : Option PageRef × PageMem} (h : Allocates count align s r) :
    (Mm.keep count align r).Inv ∧ Grows ∅ s (Mm.keep count align r) := by
  obtain ⟨page, t⟩ := r
  cases page with
  | none => exact ⟨h.inv, h.grows⟩
  | some page => exact ⟨h.page page rfl, h.grows.trans (.of_eq rfl rfl rfl rfl)⟩

end

lemma PageMem.Inv.tablePages (n : ℕ) {s : PageMem} (hs : s.Inv) :
    (Mm.tablePages n s).Inv ∧ Grows ∅ s (Mm.tablePages n s) := by
  induction n generalizing s with
  | zero => exact ⟨hs, .refl _ _⟩
  | succ n ih =>
    obtain ⟨hinv, hg⟩ := (hs.allocPages one_pos ⟨0, rfl⟩ fun _ => rfl).keep
    obtain ⟨hinv', hg'⟩ := ih hinv
    exact ⟨hinv', hg.trans hg'⟩

/-! ### Freeing -/

lemma PageMem.Inv.frames_disjoint {a a' : PageAlloc} (hs : s.Inv) (ha : a ∈ s.live)
    (ha' : a' ∈ s.live) (hne : a' ≠ a) : Disjoint a'.frames a.frames := by
  have : Std.Symm fun a a' : PageAlloc => Disjoint a.frames a'.frames := ⟨fun _ _ h => h.symm⟩
  exact hs.apart.forall ha' ha hne

lemma PageMem.Inv.nodup (hs : s.Inv) : s.live.Nodup := by
  refine hs.apart.imp_of_mem fun {a a'} ha _ hdisj heq => ?_
  subst heq
  have hmem : a.page.shift 0 ∈ a.frames := ⟨0, hs.pos a ha, rfl⟩
  exact Set.disjoint_left.1 hdisj hmem hmem

/-- When only the pages of `a` are cleared, and `a` is forgotten, the invariant is kept. -/
lemma PageMem.Inv.clear {a : PageAlloc} (hs : s.Inv) (ha : a ∈ s.live)
    (hgeo : SameGeometry s.mm s'.mm) (htaken : ∀ b, Taken s.mm b → Taken s'.mm b)
    (hblock : ∀ b, (s'.mm.block? b).map (fun block => (block.phyBase, block.flags)) =
      (s.mm.block? b).map fun block => (block.phyBase, block.flags))
    (hmetaOf : s'.metaOf = s.metaOf) (hmetaBitmaps : s'.metaBitmaps = s.metaBitmaps)
    (hmetas : ∀ p, (s'.pools p).metaList = (s.pools p).metaList)
    (hlive : s'.live = s.live.erase a) (hbit : ∀ r ∉ a.frames, s'.bit r = s.bit r)
    (hword : ∀ k i, s'.phyBase (.sec k i) = s.phyBase (.sec k i)) : s'.Inv where
  layout := hs.layout.sameGeometry hgeo
  block b m hm := by
    rw [hmetaOf] at hm
    obtain ⟨hb, hmb, hset⟩ := hs.block b m hm
    exact ⟨hb.congr hgeo (htaken b) (hblock b), htaken _ hmb, hmetaBitmaps ▸ hset⟩
  inj b b' m hm hm' := hs.inj b b' m (hmetaOf ▸ hm) (hmetaOf ▸ hm')
  metas p mb hmb := htaken mb (hs.metas p mb (hmetas p ▸ hmb))
  pos a' ha' := hs.pos a' (List.mem_of_mem_erase (hlive ▸ ha'))
  placed a' ha' := (hs.placed a' (List.mem_of_mem_erase (hlive ▸ ha'))).congr hgeo htaken
    fun b m _ hm => hmetaOf ▸ hm
  taken a' ha' r hr := by
    rw [hlive, hs.nodup.mem_erase_iff] at ha'
    rw [hbit r (Set.disjoint_left.1 (hs.frames_disjoint ha ha'.2 ha'.1) hr)]
    exact hs.taken a' ha'.2 r hr
  word a' ha' k i hpage := by
    have hw := hs.word a' (List.mem_of_mem_erase (hlive ▸ ha')) k i hpage
    rw [hpage] at hw ⊢
    rw [hword, hw]
  apart := hlive ▸ hs.apart.sublist List.erase_sublist

/-- The free of `a` gives back what was allocated: the first `struct page` of the block has the
number of pages of `a`, and the block is not both full and still on the list of its pool; in a page
section `a` is one page. -/
def GivesBack (s : PageMem) (a : PageAlloc) : Prop :=
  match a.page with
  | .block m _ => pageCount (s.metas m 0) = a.count ∧
      ((addrToMemBlock s.mm a.addr).all fun b => (s.mm.block? b).all fun block =>
        block.freePages ≠ 0 ∨ b ∉ (s.pools .page).blockList ∧ b ∉ (s.pools .io).blockList) = true
  | .sec _ _ => a.count = 1

instance (s : PageMem) : (a : PageAlloc) → Decidable (GivesBack s a)
  | ⟨.block _ _, _, _, _⟩ => inferInstanceAs (Decidable (_ ∧ _ = true))
  | ⟨.sec _ _, _, count, _⟩ => inferInstanceAs (Decidable (count = 1))

/-- The address of a page leads back to its block. -/
lemma Taken.addrToMemBlock {mm : Mem} {ms : MemSection} {i : ℕ} (hmm : Layout mm)
    (hb : Taken mm b) (hms : mm.memSections[b.sec]? = some ms) (hi : i < PAGES_IN_BLOCK) :
    Mm.addrToMemSection mm (ms.phyBase + b.bit * MEM_BLOCK_SIZE + i * PAGE_SIZE) = some b.sec ∧
      Mm.addrToMemBlock mm (ms.phyBase + b.bit * MEM_BLOCK_SIZE + i * PAGE_SIZE) = some b := by
  have hsec := hmm.addrToMemSection hms (by omega) (hb.addr_lt hmm hms hi)
  obtain ⟨ms', hms', hkind, -, -⟩ := hb
  rw [hms, Option.some.injEq] at hms'
  subst hms'
  have hblock : i * PAGE_SIZE < MEM_BLOCK_SIZE :=
    Nat.mul_lt_mul_of_pos_right hi (show 0 < PAGE_SIZE by decide)
  have hbit : (ms.phyBase + b.bit * MEM_BLOCK_SIZE + i * PAGE_SIZE - ms.phyBase) >>>
      MEM_BLOCK_SHIFT = b.bit := by
    rw [Nat.add_assoc, Nat.add_sub_cancel_left, Nat.shiftRight_eq_div_pow,
      show 2 ^ MEM_BLOCK_SHIFT = MEM_BLOCK_SIZE from rfl, mul_comm,
      Nat.mul_add_div (by decide), Nat.div_eq_of_lt hblock, Nat.add_zero]
  refine ⟨hsec, ?_⟩
  rw [Mm.addrToMemBlock, hsec]
  simp only [hms, hkind, if_true, hbit]

/-- `free_pages` of a run of a block, when the number of pages that it reads is right. -/
lemma freePages_block {a : PageAlloc} {i : ℕ} (hs : s.Inv) (ha : a ∈ s.live)
    (hpage : a.page = .block m i) (hcount : pageCount (s.metas m 0) = a.count) :
    ∃ b pools metas, s.metaOf b = some m ∧
      (∀ p, (pools p).metaList = (s.pools p).metaList) ∧
      freePages s a.addr = { s with
        mm := s.mm.setBlock b fun block => { block with freePages := block.freePages + a.count }
        bitmaps := Function.update s.bitmaps m (clearRange (s.bitmaps m) i a.count)
        pools := pools
        metas := metas } := by
  have hplaced := hs.placed a ha
  unfold Placed at hplaced
  simp only [hpage] at hplaced
  obtain ⟨b, ms, hm, hb, hms, haddr, hle, -⟩ := hplaced
  have hi : i < PAGES_IN_BLOCK := lt_of_lt_of_le (Nat.lt_add_of_pos_right (hs.pos a ha)) hle
  obtain ⟨hsec, hblockOf⟩ := hb.addrToMemBlock hs.layout hms hi
  obtain ⟨⟨-, ms', block, hms', hblock, hbase, hflags⟩, -⟩ := hs.block b m hm
  rw [hms, Option.some.injEq] at hms'
  subst hms'
  have hkind : ms.kind = .block := by
    obtain ⟨t, ht, hkind, -⟩ := hb
    rw [hms, Option.some.injEq] at ht
    exact ht ▸ hkind
  have hstart : (a.addr - block.phyBase) >>> 12 = i := by
    rw [haddr, hbase, Nat.add_sub_cancel_left, Nat.shiftRight_eq_div_pow]
    exact Nat.mul_div_cancel i (by decide)
  have hsteps : freePages s a.addr = freePagesInBlock s a.addr b := by
    rw [freePages, haddr, hsec]
    simp [hms, hkind, hblockOf, hblock, hflags]
  rw [hsteps, freePagesInBlock]
  simp only [hblock, hm, hcount, hstart]
  split_ifs
  · refine ⟨b, _, _, hm, fun p => ?_, rfl⟩
    cases p <;> rfl
  · refine ⟨b, _, _, hm, fun p => ?_, rfl⟩
    cases p <;> rfl
  · exact ⟨b, _, _, hm, fun p => rfl, rfl⟩

/-- `free_pages` of one page of a page section. -/
lemma freePages_sec {a : PageAlloc} {k i : ℕ} (hs : s.Inv) (ha : a ∈ s.live)
    (hpage : a.page = .sec k i) (hcount : a.count = 1) :
    freePages s a.addr = { s with mm := s.mm.setSection k fun ms => { ms with
      bitmap := clearRange ms.bitmap i a.count
      freeBlocks := ms.freeBlocks + a.count } } := by
  have hplaced := hs.placed a ha
  unfold Placed at hplaced
  simp only [hpage] at hplaced
  obtain ⟨ms, hms, hkind, haddr, hle, -⟩ := hplaced
  have hmem := List.mem_of_getElem? hms
  have hsize := hs.layout.size ms hmem
  rw [hkind, SectionKind.unit] at hsize
  have hlt : a.addr < ms.phyBase + ms.size := by
    rw [haddr, hsize]
    exact Nat.add_lt_add_left (Nat.mul_lt_mul_of_pos_right (by omega) (by decide)) _
  have hsec := hs.layout.addrToMemSection hms (by omega) hlt
  have hstart : (a.addr - ms.phyBase) >>> 12 = i := by
    rw [haddr, Nat.add_sub_cancel_left, Nat.shiftRight_eq_div_pow]
    exact Nat.mul_div_cancel i (by decide)
  have hword : ms.pages i ≠ 0 := by
    have h := hs.word a ha k i hpage
    rw [hpage, PageMem.phyBase, hms] at h
    exact fun h0 => pageWord_ne_zero _ (h.symm.trans h0)
  rw [freePages, hsec]
  simp only [hms, Option.any_some, hkind, decide_true, if_true]
  congr 1
  rw [Mem.setSection, Mem.setSection]
  congr 1
  refine List.ext_getElem? fun j => ?_
  rw [List.getElem?_modify, List.getElem?_modify]
  by_cases hj : k = j
  · subst hj
    simp [hms, freePagesInSection, hstart, hword, hcount]
  · simp [hj]

lemma clearRange_of_notMem {bits : Bitmap} {i j n : ℕ} (h : ∀ d < n, j ≠ i + d) :
    clearRange bits i n j = bits j := by
  rw [clearRange, if_neg]
  rintro ⟨hle, hlt⟩
  exact h (j - i) (by omega) (by omega)

/-- A free that gives back what was allocated keeps the invariant, and frees exactly the run. -/
lemma PageMem.Inv.freePages {a : PageAlloc} (hs : s.Inv) (ha : a ∈ s.live)
    (h : GivesBack s a) :
    (forget a (Mm.freePages s a.addr)).Inv ∧
      FreesExactly a s (forget a (Mm.freePages s a.addr)) := by
  unfold GivesBack at h
  unfold FreesExactly
  cases hpage : a.page with
  | block m i =>
    simp only [hpage] at h ⊢
    obtain ⟨b, pools, metas, hm, hpools, hfree⟩ := freePages_block hs ha hpage h.1
    rw [hfree]
    have hg : Grows ∅ s { s with mm := s.mm.setBlock b fun block => { block with
        freePages := block.freePages + a.count } } :=
      .of_setBlock (f := fun block => { block with freePages := block.freePages + a.count }) rfl
        (fun _ => rfl) rfl (fun _ _ h => h) fun _ _ h => h
    refine ⟨hs.clear ha hg.geometry (fun d => hg.taken) (fun d => ?_) rfl rfl hpools rfl
      (fun r hr => ?_) (fun k j => ?_), b, hm, rfl, rfl⟩
    · simp only [forget, Mem.setBlock_block?]
      split_ifs
      · rw [Option.map_map]
        rfl
      · rfl
    · cases r with
      | block m' j =>
        simp only [PageMem.bit, forget]
        by_cases hm' : m' = m
        · subst hm'
          rw [Function.update_self]
          exact clearRange_of_notMem fun d hd hj => hr ⟨d, hd, by rw [hpage, hj]; rfl⟩
        · rw [Function.update_of_ne hm']
      | sec k j => exact Mem.setBlock_bit ..
    · exact congrArg (Option.getD · 0) (Mem.setBlock_word ..)
  | sec k i =>
    simp only [hpage] at h ⊢
    rw [freePages_sec hs ha hpage h]
    have hplaced := hs.placed a ha
    unfold Placed at hplaced
    simp only [hpage] at hplaced
    obtain ⟨ms, hms, hkind, -⟩ := hplaced
    refine ⟨hs.clear ha (Mem.setSection_sameGeometry fun _ => rfl) (fun d hd => ?_) (fun d => ?_)
      rfl rfl (fun _ => rfl) rfl (fun r hr => ?_) (fun k' j => ?_), rfl, rfl⟩
    · obtain ⟨ms', hms', hkind', hrest⟩ := hd
      have hne : k ≠ d.sec := by
        rintro rfl
        rw [hms, Option.some.injEq] at hms'
        subst hms'
        rw [hkind] at hkind'
        cases hkind'
      refine ⟨ms', ?_, hkind', hrest⟩
      simp only [forget, Mem.setSection_get, if_neg hne, hms']
    · simp only [forget, Mem.block?, Mem.setSection_get]
      cases s.mm.memSections[d.sec]? <;> split_ifs <;> rfl
    · cases r with
      | block m j => rfl
      | sec k' j =>
        simp only [PageMem.bit, forget, Mem.setSection_get]
        split_ifs with hk
        · subst hk
          rw [hms, Option.map_some, Option.any_some, Option.any_some]
          exact clearRange_of_notMem fun d hd hj => hr ⟨d, hd, by rw [hpage, hj]; rfl⟩
        · rfl
    · simp only [PageMem.phyBase, forget, Mem.setSection_get]
      cases s.mm.memSections[k']? <;> split_ifs <;> rfl

/-! ### Addresses of pages -/

/-- The page of a section in which the address `x` lies. -/
def PageAt (s : PageMem) (k : ℕ) (ms : MemSection) (x : ℕ) : PageRef → Prop
  | .block m i => ms.kind = .block ∧ ∃ b, s.metaOf b = some m ∧ b.sec = k ∧ i < PAGES_IN_BLOCK ∧
      (x - ms.phyBase) / PAGE_SIZE = PAGES_IN_BLOCK * b.bit + i
  | .sec k' i => ms.kind = .page ∧ k' = k ∧ (x - ms.phyBase) / PAGE_SIZE = i

lemma PageAt.unique {k x : ℕ} {ms : MemSection} {r r' : PageRef} (h : PageAt s k ms x r)
    (h' : PageAt s k ms x r') : r = r' := by
  cases r with
  | block m i =>
    cases r' with
    | block m' i' =>
      obtain ⟨-, b, hm, hsec, hi, hx⟩ := h
      obtain ⟨-, b', hm', hsec', hi', hx'⟩ := h'
      rw [hx] at hx'
      have hbit : b.bit = b'.bit := by
        have := congrArg (· / PAGES_IN_BLOCK) hx'
        simpa [Nat.mul_add_div, Nat.div_eq_of_lt hi, Nat.div_eq_of_lt hi',
          show 0 < PAGES_IN_BLOCK by decide] using this
      have hb : b = b' := by
        cases b
        cases b'
        simp_all
      subst hb
      rw [hm, Option.some.injEq] at hm'
      rw [hm', show i = i' by omega]
    | sec k' i' => exact absurd (h.1.symm.trans h'.1) (by decide)
  | sec j i =>
    cases r' with
    | block m' i' => exact absurd (h.1.symm.trans h'.1) (by decide)
    | sec j' i' =>
      obtain ⟨-, rfl, rfl⟩ := h
      obtain ⟨-, rfl, rfl⟩ := h'
      rfl

/-- A byte of an allocation lies in one of its pages. -/
lemma Placed.pageAt {a : PageAlloc} {x : ℕ} (hmm : Layout s.mm) (ha : Placed s a)
    (hx : x ∈ a.bytes) :
    ∃ k ms, s.mm.memSections[k]? = some ms ∧ ms.phyBase ≤ x ∧ x < ms.phyBase + ms.size ∧
      ∃ r ∈ a.frames, PageAt s k ms x r := by
  obtain ⟨hlo, hhi⟩ := hx
  have hj : (x - a.addr) / PAGE_SIZE < a.count := by
    rw [Nat.div_lt_iff_lt_mul (by decide)]
    omega
  have hdiv := Nat.div_add_mod (x - a.addr) PAGE_SIZE
  have hmod := Nat.mod_lt (x - a.addr) (show 0 < PAGE_SIZE by decide)
  set j := (x - a.addr) / PAGE_SIZE
  unfold Placed at ha
  have hframe : a.page.shift j ∈ a.frames := ⟨j, hj, rfl⟩
  cases hpage : a.page with
  | block m i =>
    simp only [hpage] at ha hframe
    obtain ⟨b, ms, hm, hb, hms, haddr, hle, -⟩ := ha
    have hi : i + j < PAGES_IN_BLOCK := by omega
    have hlt := hb.addr_lt hmm hms hi
    have hmem := List.mem_of_getElem? hms
    obtain ⟨t, ht, hkind, hbit, -⟩ := hb
    rw [hms, Option.some.injEq] at ht
    subst ht
    have hoff : x - ms.phyBase = PAGE_SIZE * (PAGES_IN_BLOCK * b.bit + (i + j)) +
        (x - a.addr) % PAGE_SIZE := by
      have : b.bit * MEM_BLOCK_SIZE = PAGE_SIZE * (PAGES_IN_BLOCK * b.bit) := by
        rw [show MEM_BLOCK_SIZE = PAGE_SIZE * PAGES_IN_BLOCK from rfl]
        ring
      rw [Nat.mul_add, Nat.mul_add, mul_comm PAGE_SIZE i]
      omega
    have hpage : (x - ms.phyBase) / PAGE_SIZE = PAGES_IN_BLOCK * b.bit + (i + j) := by
      rw [hoff, Nat.mul_add_div (by decide), Nat.div_eq_of_lt hmod, Nat.add_zero]
    refine ⟨b.sec, ms, hms, by omega, ?_, _, hframe, hkind, b, hm, rfl, hi, hpage⟩
    have hsize := hmm.size ms hmem
    rw [hkind, SectionKind.unit, show MEM_BLOCK_SIZE = PAGE_SIZE * PAGES_IN_BLOCK from rfl,
      mul_comm, mul_assoc] at hsize
    have hq : PAGES_IN_BLOCK * b.bit + (i + j) + 1 ≤ PAGES_IN_BLOCK * ms.nrBlocks := by
      have := Nat.mul_le_mul_left PAGES_IN_BLOCK hbit
      rw [Nat.mul_succ] at this
      omega
    have := Nat.mul_le_mul_left PAGE_SIZE hq
    rw [Nat.mul_succ] at this
    omega
  | sec k i =>
    simp only [hpage] at ha hframe
    obtain ⟨ms, hms, hkind, haddr, hle, -⟩ := ha
    have hoff : x - ms.phyBase = PAGE_SIZE * (i + j) + (x - a.addr) % PAGE_SIZE := by
      rw [Nat.mul_add, mul_comm PAGE_SIZE i]
      omega
    have hpage : (x - ms.phyBase) / PAGE_SIZE = i + j := by
      rw [hoff, Nat.mul_add_div (by decide), Nat.div_eq_of_lt hmod, Nat.add_zero]
    refine ⟨k, ms, hms, by omega, ?_, _, hframe, hkind, rfl, hpage⟩
    have hsize := hmm.size ms (List.mem_of_getElem? hms)
    rw [hkind, SectionKind.unit, mul_comm] at hsize
    have := Nat.mul_le_mul_left PAGE_SIZE (show i + j + 1 ≤ ms.nrBlocks by omega)
    rw [Nat.mul_succ] at this
    omega

lemma PageMem.Inv.pagesOk (hs : s.Inv) : PagesOk s where
  placed := hs.placed
  taken := hs.taken
  apart := by
    refine hs.apart.imp_of_mem fun {a a'} ha ha' hdisj => ?_
    rw [Set.disjoint_left]
    intro x hx hx'
    obtain ⟨k, ms, hms, hlo, hhi, r, hr, hat⟩ := (hs.placed a ha).pageAt hs.layout hx
    obtain ⟨k', ms', hms', hlo', hhi', r', hr', hat'⟩ := (hs.placed a' ha').pageAt hs.layout hx'
    have hk : k = k' := by
      by_contra hne
      have := hs.layout.apart k k' ms ms' hms hms' hne
      omega
    subst hk
    rw [hms, Option.some.injEq] at hms'
    subst hms'
    exact Set.disjoint_left.1 hdisj hr (hat.unique hat' ▸ hr')

/-! ### Runs -/

/-- The pools are empty and nothing was allocated. -/
def PageMem.init (mm : Mem) : PageMem where
  mm := mm
  pools _ := ⟨[], []⟩
  metaOf _ := none
  bitmaps _ _ := false
  metas _ _ := 0
  metaBitmaps _ _ := false
  live := []

lemma PageMem.init_inv {mm : Mem} (hmm : Layout mm) : (PageMem.init mm).Inv where
  layout := hmm
  block b m hm := by cases hm
  inj b b' m hm := by cases hm
  metas p mb hmb := by cases hmb
  pos a ha := by cases ha
  placed a ha := by cases ha
  taken a ha := by cases ha
  word a ha := by cases ha
  apart := .nil

/-- `add_page_section` allocates one byte for 64 bits of the bitmap, in units of 8 bytes. -/
def BitmapsFit (mm : Mem) : Prop := ∀ ms ∈ mm.memSections, ms.kind = .page → ms.nrBlocks ≤ 64

/-- What the callers promise. -/
def PageEvent.Legit (s : PageMem) : PageEvent → Prop
  | .alloc pages align => 0 < pages ∧ ∃ k, align = 2 ^ k
  | .allocIo pages align _ => 0 < pages ∧ ∃ k, align = 2 ^ k
  | .free a => a ∈ s.live
  | .release a => a ∈ s.live

/-- A single page is not to be aligned, and a free finds what the allocation wrote. -/
def PageEvent.Exact (s : PageMem) : PageEvent → Prop
  | .alloc pages align => pages = 1 → align = 1
  | .allocIo pages align _ => pages = 1 → align = 1
  | .free a => GivesBack s a
  | .release a => pageAddr (s.phyBase a.page) = a.addr ∧ GivesBack s a

/-- The live allocations are sound after the step, and a free frees its run and nothing else. -/
def SoundStep (s : PageMem) (e : PageEvent) : Prop :=
  PagesOk (pageStep s e) ∧
    ∀ a, e = .free a ∨ e = .release a → FreesExactly a s (pageStep s e)

lemma PageMem.Inv.pageStep {e : PageEvent} (hs : s.Inv) (hlegit : e.Legit s) (he : e.Exact s) :
    (Mm.pageStep s e).Inv ∧ SoundStep s e := by
  cases e with
  | alloc pages align =>
    have h := (hs.allocPages hlegit.1 hlegit.2 he).keep.1
    exact ⟨h, h.pagesOk, fun a ha => by simp at ha⟩
  | allocIo pages align tables =>
    have halloc : Allocates pages align s
        (Mm.allocPagesFromPool (Mm.tablePages tables) .io pages align (GFB_PAGE ||| GFB_IO) s) :=
      hs.allocPagesFromPool hlegit.1 hlegit.2 he (fun t ht => ht.tablePages tables) (by decide)
    have h := halloc.keep.1
    exact ⟨h, h.pagesOk, fun a ha => by simp at ha⟩
  | free a =>
    obtain ⟨h, hfree⟩ := hs.freePages hlegit he
    refine ⟨h, h.pagesOk, fun a' ha' => ?_⟩
    rcases ha' with ha' | ha'
    · cases ha'
      exact hfree
    · cases ha'
  | release a =>
    obtain ⟨h, hfree⟩ := hs.freePages hlegit he.2
    have hstep : Mm.pageStep s (.release a) = forget a (Mm.freePages s a.addr) := by
      rw [Mm.pageStep, releasePages, he.1]
    refine ⟨hstep ▸ h, (hstep ▸ h : (Mm.pageStep s (.release a)).Inv).pagesOk, fun a' ha' => ?_⟩
    rcases ha' with ha' | ha'
    · cases ha'
    · cases ha'
      rw [hstep]
      exact hfree

/-- In a run in which no single page is aligned and every free reads the number of pages of its
allocation, the live allocations are disjoint runs and every free is exact. -/
theorem page_runs_sound {mm : Mem} (hmm : Layout mm) (_hfit : BitmapsFit mm)
    (es : List PageEvent) (hlegit : Along pageStep PageEvent.Legit (PageMem.init mm) es)
    (hexact : Along pageStep PageEvent.Exact (PageMem.init mm) es) :
    Along pageStep SoundStep (PageMem.init mm) es := by
  have hboth : Along pageStep (fun s e => e.Legit s ∧ e.Exact s) (PageMem.init mm) es :=
    along_and.2 ⟨hlegit, hexact⟩
  exact along_induction (I := PageMem.Inv) (fun s e hs h => (hs.pageStep h.1 h.2).1)
    (fun s e hs h => (hs.pageStep h.1 h.2).2) (PageMem.init_inv hmm) hboth

/-- Two free blocks at 1GiB. -/
def twoBlocks : Mem where
  memSections := [newSection .block 0x40000000 0x400000 2]
  freeBlocks := 2
  pagesBitmaps _ _ := false

lemma twoBlocks_layout : Layout twoBlocks where
  apart i j ms ms' hi hj hne := by
    obtain ⟨hi, -⟩ := List.getElem?_eq_some_iff.1 hi
    obtain ⟨hj, -⟩ := List.getElem?_eq_some_iff.1 hj
    simp only [twoBlocks, List.length_singleton] at hi hj
    omega
  size ms hms := by
    obtain rfl := List.mem_singleton.1 hms
    decide
  bound ms hms := by
    obtain rfl := List.mem_singleton.1 hms
    decide
  aligned ms hms := by
    obtain rfl := List.mem_singleton.1 hms
    decide

/-- The first page of a block, and two aligned pages of it. -/
def onePage : PageAlloc := ⟨.block ⟨⟨0, 1⟩, 0⟩ 0, 0x40000000, 1, 1⟩

def twoPages : PageAlloc := ⟨.block ⟨⟨0, 1⟩, 0⟩ 2, 0x40002000, 2, 2⟩

theorem page_runs_sound_one_page :
    Along pageStep SoundStep (PageMem.init twoBlocks) [.alloc 1 1, .alloc 2 2, .free onePage] := by
  refine page_runs_sound twoBlocks_layout (fun ms hms hkind => ?_) _
    ⟨⟨one_pos, 0, rfl⟩, ⟨two_pos, 1, rfl⟩, ?_, trivial⟩ ⟨?_, ?_, ?_, trivial⟩
  · obtain rfl := List.mem_singleton.1 hms
    cases hkind
  · change onePage ∈ PageMem.live _
    decide +kernel
  · exact fun _ => rfl
  · exact fun h => absurd h (by decide)
  · change GivesBack _ onePage
    decide +kernel

/-- Of the two pages only one becomes free, since the first `struct page` of the block says 1. -/
theorem page_runs_free_of_two_pages :
    Layout twoBlocks ∧
      Along pageStep PageEvent.Legit (PageMem.init twoBlocks)
        [.alloc 1 1, .alloc 2 2, .free twoPages] ∧
      ¬ Along pageStep SoundStep (PageMem.init twoBlocks)
        [.alloc 1 1, .alloc 2 2, .free twoPages] := by
  refine ⟨twoBlocks_layout, ⟨⟨one_pos, 0, rfl⟩, ⟨two_pos, 1, rfl⟩, ?_, trivial⟩, ?_⟩
  · change twoPages ∈ PageMem.live _
    decide +kernel
  · rintro ⟨-, -, ⟨-, hfree⟩, -⟩
    obtain ⟨b, -, hbits, -⟩ := hfree twoPages (.inl rfl)
    have hbit := congrFun (congrFun hbits ⟨⟨0, 1⟩, 0⟩) 3
    rw [Function.update_self] at hbit
    revert hbit
    decide +kernel

end Minos.Mm
