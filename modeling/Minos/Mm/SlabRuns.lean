import Mathlib
import Minos.Lib.Run
import Minos.Mm.SlabPieces

/-!
# Slabs in use

Beside the memory stand the slabs in use, with the size that was asked for, and the regions that the
slab allocator was given. What is in use, what is free and the rest of a block share no byte, and a
slab has the size that was asked for, unless `get_big_slab` takes the first of the slabs that were
freed: it does not look at its size.
-/

namespace Minos.Mm

open Run

/-- A slab that `malloc` returned, and the size that it was asked for -/
structure LiveSlab where
  header : SlabHeader
  asked : ℕ
deriving DecidableEq, Repr

/-- The memory, the slabs in use, and the regions that `add_slab_mem` was given -/
structure SlabRun where
  heap : Heap
  live : List LiveSlab
  donated : List (ℕ × ℕ)

inductive SlabEvent where
  | addSlabMem (base size : ℕ)
  | malloc (size : ℕ)
  | free (a : LiveSlab)
deriving DecidableEq, Repr

/-- `free` takes an address for one of a page. -/
def Heap.isPage (s : Heap) (addr : ℕ) : Bool :=
  (addrToMemSection s.pages.mm addr).any fun i =>
    (s.pages.mm.memSections[i]?.any fun ms => ms.kind = .page) ||
      ((addrToMemBlock s.pages.mm addr).bind s.pages.mm.block?).any fun block =>
        block.flags &&& GFB_PAGE ≠ 0

/-- `free` of a slab in use, which has `SLAB_MAGIC` in its header. Nothing comes back if the pool
does not exist. -/
def Heap.free (s : Heap) (header : SlabHeader) : Option Heap :=
  if s.isPage header.toAddr then some { s with pages := freePages s.pages header.toAddr }
  else
    let id := slabPoolId header.size
    if id < 0 then none else some { s with slab := s.slab.add id.toNat header }

namespace SlabRun

/-- `slab_init`: the slab allocator has nothing. -/
def init (pages : PageMem) : SlabRun := ⟨⟨pages, ⟨0, 0, fun _ => [], 0⟩⟩, [], []⟩

def call (s : SlabRun) : SlabEvent → Option SlabRun
  | .addSlabMem base size => some { s with
      heap := { s.heap with slab := Mm.addSlabMem s.heap.slab base size }
      donated := (base, size) :: s.donated }
  | .malloc n => (s.heap.malloc n).map fun (ret, heap) => { s with
      heap := heap
      live := (ret.map fun addr =>
        ⟨⟨sub64 addr SLAB_HEADER_SIZE, s.heap.mallocSize n⟩, n⟩).toList ++ s.live }
  | .free a => (s.heap.free a.header).map fun heap => { s with
      heap := heap
      live := s.live.erase a }

/-- The state after a call -/
def step (s : SlabRun) (e : SlabEvent) : SlabRun := (s.call e).getD s

/-- What the slab allocator may cut: the regions that it was given, and its blocks -/
def arena (s : SlabRun) : Set ℕ :=
  {x | ∃ p ∈ s.donated, x ∈ pieceSet p} ∪
    {x | ∃ b, SlabBlock s.heap.pages.mm b ∧ x ∈ s.heap.pages.mm.blockBytes b}

/-- The slabs in use and the free ones, with their headers, and the rest of the block that is cut -/
def pieces (s : SlabRun) : List (ℕ × ℕ) :=
  s.live.map (fun a => a.header.piece) ++
    ((List.range POOL_NR).flatMap fun id => (s.heap.slab.pool id).map SlabHeader.piece) ++
    [(s.heap.slab.slabFree, s.heap.slab.freeSize)]

/-- What the slab allocator promises -/
structure Right (s : SlabRun) : Prop where
  large : ∀ a ∈ s.live, a.asked ≤ a.header.size
  apart : Apart s.pieces
  inside : ∀ p ∈ s.pieces, pieceSet p ⊆ s.arena

/-- The call returns, and the state after it is right. -/
def SoundStep (s : SlabRun) (e : SlabEvent) : Prop := (s.call e).isSome ∧ (s.step e).Right

end SlabRun

/-- The sections of the machine, before a block of them is taken for slabs -/
structure SlabStart (mm : Mem) : Prop where
  layout : Layout mm
  fresh : ∀ b, ¬ SlabBlock mm b

/-- What the callers promise: a region is new to the slab allocator and does not lie in a block that
is free, and only a slab in use is freed. -/
def SlabEvent.Legit (s : SlabRun) : SlabEvent → Prop
  | .addSlabMem base size => base + size ≤ 2 ^ 64 ∧ ∀ x ∈ pieceSet (base, size),
      x ∉ s.arena ∧ ∀ b, x ∈ s.heap.pages.mm.blockBytes b → Taken s.heap.pages.mm b
  | .malloc size => size < 2 ^ 64
  | .free a => a ∈ s.live

/-- No request is left to the first of the slabs that were freed if that is too small. -/
def SlabEvent.Served (s : SlabRun) : SlabEvent → Prop
  | .malloc size => s.heap.Serves size
  | _ => True

instance (s : SlabRun) : (e : SlabEvent) → Decidable (e.Served s)
  | .malloc size => inferInstanceAs (Decidable (s.heap.Serves size))
  | .addSlabMem _ _ | .free _ => inferInstanceAs (Decidable True)

/-! ### The invariant -/

namespace SlabRun

/-- How many pieces hit an address -/
def hits (s : SlabRun) (x : ℕ) : ℕ :=
  Pieces.listHits x (s.live.map fun a => a.header.piece) + s.heap.slab.hits x

structure Inv (s : SlabRun) : Prop where
  heap : s.heap.Ordered
  donated : ∀ p ∈ s.donated, ∀ x ∈ pieceSet p, ∀ b, x ∈ s.heap.pages.mm.blockBytes b →
    Taken s.heap.pages.mm b
  live : ∀ a ∈ s.live, a.asked ≤ a.header.size ∧ a.header.Fits 0
  hits : ∀ x, s.hits x ≤ 1
  inside : ∀ x, s.hits x ≠ 0 → x ∈ s.arena

section Invariant

variable {s : SlabRun} {heap : Heap} {n x : ℕ} {ret : Option SlabHeader}

lemma listHits_pieces (s : SlabRun) (x : ℕ) : Pieces.listHits x s.pieces = s.hits x := by
  rw [pieces, Pieces.listHits_append, Pieces.listHits_append, Pieces.listHits_flatMap, hits,
    Slab.hits, Slab.weight, Pieces.listHits_cons, Pieces.listHits_nil, Nat.add_zero]
  simp only [Pieces.listHits, List.map_map, Function.comp_def]
  omega

lemma Inv.right (hs : s.Inv) : s.Right where
  large a ha := (hs.live a ha).1
  apart := Pieces.pairwise_disjoint_iff.2 fun x => by
    rw [listHits_pieces]
    exact hs.hits x
  inside p hp x hx := by
    refine hs.inside x ?_
    rw [← listHits_pieces]
    exact Pieces.listHits_ne_zero_iff.2 ⟨p, hp, hx⟩

lemma init_inv {pages : PageMem} (h : SlabStart pages.mm) : (init pages).Inv where
  heap := ⟨h.layout, by simp [Slab.Sorted, init], fun hne => absurd rfl hne⟩
  donated := by simp [init]
  live := by simp [init]
  hits x := by simp [SlabRun.hits, init, Slab.hits, Slab.weight]
  inside x hx := absurd (by simp [SlabRun.hits, init, Slab.hits, Slab.weight]) hx

/-- A byte is in no more pieces than before, or in one more if it is new. -/
lemma Inv.of_hits {s' : SlabRun} (hs : s.Inv) (hheap : s'.heap.Ordered)
    (hdonated : ∀ p ∈ s'.donated, ∀ x ∈ pieceSet p, ∀ b, x ∈ s'.heap.pages.mm.blockBytes b →
      Taken s'.heap.pages.mm b)
    (hlive : ∀ a ∈ s'.live, a.asked ≤ a.header.size ∧ a.header.Fits 0)
    (harena : s.arena ⊆ s'.arena)
    (hhits : ∀ x, s'.hits x ≤ s.hits x ∨
      x ∉ s.arena ∧ x ∈ s'.arena ∧ s'.hits x ≤ s.hits x + 1) : s'.Inv where
  heap := hheap
  donated := hdonated
  live := hlive
  hits x := by
    have hone := hs.hits x
    rcases hhits x with hle | ⟨hnot, -, hle⟩
    · omega
    · have hzero : s.hits x = 0 := not_not.1 fun hne => hnot (hs.inside x hne)
      omega
  inside x hx := by
    rcases hhits x with hle | ⟨-, hin, -⟩
    · exact harena (hs.inside x (by omega))
    · exact hin

/-- Nothing that the slab allocator may cut is lost. -/
lemma arena_subset {s' : SlabRun} (hkeeps : s.heap.pages.mm.Keeps s'.heap.pages.mm)
    (hdonated : s.donated ⊆ s'.donated) : s.arena ⊆ s'.arena := by
  rintro x (⟨p, hp, hx⟩ | ⟨b, hb, hx⟩)
  · exact .inl ⟨p, hdonated hp, hx⟩
  · exact .inr ⟨b, hkeeps.slabBlock hb, hkeeps.geometry.blockBytes b hx⟩

lemma Inv.donated_keeps {mm : Mem} (hs : s.Inv) (hkeeps : s.heap.pages.mm.Keeps mm) :
    ∀ p ∈ s.donated, ∀ x ∈ pieceSet p, ∀ b, x ∈ mm.blockBytes b → Taken mm b :=
  fun p hp x hx b hb =>
    hkeeps.taken b (hs.donated p hp x hx b (SameGeometry.blockBytes (Eq.symm hkeeps.geometry) b hb))

/-- A new block is in no region that was given, and no block that was taken before. -/
lemma Inv.not_mem_arena {mm : Mem} (hs : s.Inv) (hkeeps : s.heap.pages.mm.Keeps mm)
    (hx : x ∈ opened s.heap.pages.mm mm) : x ∉ s.arena := by
  obtain ⟨b, hnot, -, hb⟩ := hx
  have hold := SameGeometry.blockBytes (Eq.symm hkeeps.geometry) b hb
  rintro (⟨p, hp, hxp⟩ | ⟨d, hd, hxd⟩)
  · exact hnot (hs.donated p hp x hxp b hold)
  · exact hnot (hs.heap.layout.block_unique hxd hold ▸ hd.1)

/-- A slab that the heap gives is in use from then on. -/
lemma Inv.gives (hs : s.Inv) (h : s.heap.Gives n ret heap) :
    Inv { s with heap := heap, live := (ret.map fun header => ⟨header, n⟩).toList ++ s.live } := by
  refine hs.of_hits h.ordered (hs.donated_keeps h.keeps) (fun a ha => ?_)
    (arena_subset h.keeps (List.Subset.refl _)) fun x => ?_
  · rcases List.mem_append.1 ha with hnew | hold
    · cases ret with
      | none => simp at hnew
      | some header =>
        obtain rfl : a = ⟨header, n⟩ := by simpa using hnew
        exact h.slab header rfl
    · exact hs.live a hold
  · have hnew : Pieces.listHits x
        (((ret.map fun header => LiveSlab.mk header n).toList ++ s.live).map fun a =>
          a.header.piece) =
        (ret.elim 0 fun header => Pieces.hits x header.piece) +
          Pieces.listHits x (s.live.map fun a => a.header.piece) := by
      cases ret <;> simp
    simp only [SlabRun.hits, hnew]
    rcases h.hits x with hle | ⟨hx, hle⟩
    · left
      omega
    · refine .inr ⟨hs.not_mem_arena h.keeps hx, ?_, by omega⟩
      obtain ⟨b, -, hb, hxb⟩ := hx
      exact .inr ⟨b, hb, hxb⟩

/-- The header of a slab stands before the address that `malloc` returns. -/
lemma header_of_addr {header : SlabHeader} (h : header.Fits 0) :
    (⟨sub64 header.toAddr SLAB_HEADER_SIZE, header.size⟩ : SlabHeader) = header := by
  have hheader : SLAB_HEADER_SIZE = 16 := rfl
  have hsize := h.size (Nat.zero_le _)
  have hbound := h.bound
  rw [SlabHeader.toAddr, add64_of_lt (by omega), sub64_of_le (by omega) (by omega),
    Nat.add_sub_cancel]

lemma Inv.malloc (hs : s.Inv) (hserves : s.heap.Serves n) :
    ∃ s', s.call (.malloc n) = some s' ∧ s'.Inv := by
  by_cases hn : n = 0
  · subst hn
    exact ⟨_, rfl, hs.gives (.refl hs.heap 0)⟩
  obtain ⟨ret, heap, hout, hgives, hret⟩ := malloc_answers hs.heap hn hserves
  refine ⟨_, congrArg (Option.map _) hout, ?_⟩
  have hlive : ((ret.map SlabHeader.toAddr).map fun addr =>
      LiveSlab.mk ⟨sub64 addr SLAB_HEADER_SIZE, s.heap.mallocSize n⟩ n) =
      ret.map fun header => ⟨header, n⟩ := by
    cases ret with
    | none => rfl
    | some header =>
      have hheader := header_of_addr (hgives.slab header rfl).2
      rw [hret header rfl] at hheader
      exact congrArg (fun header => some (LiveSlab.mk header n)) hheader
  dsimp only
  rw [hlive]
  exact hs.gives hgives

lemma Inv.addSlabMem {base size : ℕ} (hs : s.Inv)
    (hlegit : SlabEvent.Legit s (.addSlabMem base size)) :
    ∃ s', s.call (.addSlabMem base size) = some s' ∧ s'.Inv := by
  obtain ⟨hend, hnew⟩ := hlegit
  obtain ⟨hsorted, hle, hfree, hsize⟩ := addSlabMem_spec hs.heap.sorted hend
  refine ⟨_, rfl, hs.of_hits ⟨hs.heap.layout, hsorted, ?_⟩ ?_ hs.live
    (arena_subset (.refl _) (List.subset_cons_self _ _)) fun x => ?_⟩
  · dsimp only
    rw [hfree, hsize]
    exact hs.heap.rest
  · exact List.forall_mem_cons.2 ⟨fun x hx => (hnew x hx).2, hs.donated⟩
  · have hx := hle x
    simp only [SlabRun.hits]
    by_cases hmem : x ∈ pieceSet (base, size)
    · have hone := Pieces.hits_le_one x (base, size)
      exact .inr ⟨(hnew x hmem).1, .inl ⟨_, List.mem_cons_self, hmem⟩, by omega⟩
    · have hzero : Pieces.hits x (base, size) = 0 :=
        not_not.1 fun hne => hmem (Pieces.hits_ne_zero_iff.1 hne)
      left
      omega

lemma freePagesInBlock_keeps (pages : PageMem) (addr : ℕ) (b : BlockRef) :
    pages.mm.Keeps (freePagesInBlock pages addr b).mm := by
  have hkeeps : ∀ n, pages.mm.Keeps
      (pages.mm.setBlock b fun block => { block with freePages := block.freePages + n }) :=
    fun _ => Mem.setBlock_keeps _ b fun _ => rfl
  rw [freePagesInBlock]
  split
  · dsimp only
    split_ifs
    all_goals exact hkeeps _
  · exact .refl _

/-- A free of pages moves no section and gives no block back. -/
lemma freePages_keeps (pages : PageMem) (addr : ℕ) : pages.mm.Keeps (freePages pages addr).mm := by
  rw [freePages]
  cases hsec : addrToMemSection pages.mm addr with
  | none => exact .refl _
  | some i =>
    dsimp only
    split_ifs with hpage
    · refine ⟨Mem.setSection_sameGeometry fun _ => rfl, fun b hb => ?_, fun b _ => ?_⟩
      · obtain ⟨ms, hms, hkind, hbit, hset⟩ := hb
        have hne : i ≠ b.sec := by
          rintro rfl
          rw [hms, Option.any_some, hkind] at hpage
          cases hpage
        exact ⟨ms, by rw [Mem.setSection_get, if_neg hne, hms], hkind, hbit, hset⟩
      · rw [Mem.block?, Mem.block?, Mem.setSection_get]
        split_ifs
        · rw [Option.map_map, Option.map_map, Option.map_map]
          rfl
        · rfl
    · cases hblock : addrToMemBlock pages.mm addr with
      | none => exact .refl _
      | some b =>
        dsimp only
        split_ifs
        · exact freePagesInBlock_keeps pages addr b
        · exact .refl _

/-- The bytes of a slab that is freed are those of a slab of a pool. -/
lemma Inv.free {a : LiveSlab} (hs : s.Inv) (ha : a ∈ s.live) :
    ∃ s', s.call (.free a) = some s' ∧ s'.Inv := by
  have hnr : FREE_POOL < POOL_NR := by decide
  have hfits := (hs.live a ha).2
  have hsize := hfits.size (Nat.zero_le _)
  obtain ⟨id, hid, hle, hlo, -⟩ := slabPoolId_eq (show 16 ≤ a.header.size by omega) hsize.2
  have hlive : ∀ d ∈ s.live.erase a, d.asked ≤ d.header.size ∧ d.header.Fits 0 := fun d hd =>
    hs.live d (List.mem_of_mem_erase hd)
  have hperm : ∀ x, Pieces.listHits x (s.live.map fun a => a.header.piece) =
      Pieces.hits x a.header.piece +
        Pieces.listHits x ((s.live.erase a).map fun a => a.header.piece) := by
    intro x
    rw [← Pieces.listHits_cons]
    exact (((List.perm_cons_erase ha).map _).map _).sum_eq
  rw [call, Heap.free]
  by_cases hpage : s.heap.isPage a.header.toAddr = true
  · rw [if_pos hpage]
    have hkeeps := freePages_keeps s.heap.pages a.header.toAddr
    refine ⟨_, rfl, hs.of_hits ⟨hs.heap.layout.sameGeometry hkeeps.geometry, hs.heap.sorted,
      fun hne => ?_⟩ (hs.donated_keeps hkeeps) hlive (arena_subset hkeeps (List.Subset.refl _))
      fun x => .inl ?_⟩
    · obtain ⟨b, hb, hin⟩ := hs.heap.rest hne
      exact ⟨b, hkeeps.slabBlock hb, hin.trans (hkeeps.geometry.blockBytes b)⟩
    · have hx := hperm x
      simp only [SlabRun.hits]
      omega
  · have hin : a.header.Fits id := ⟨fun _ => ⟨hlo, hsize.2⟩, hfits.bound⟩
    rw [if_neg hpage]
    simp only [hid, Int.toNat_natCast]
    rw [if_neg (by omega)]
    refine ⟨_, rfl, hs.of_hits ⟨hs.heap.layout, hs.heap.sorted.add (by omega) hin, hs.heap.rest⟩
      hs.donated hlive (arena_subset (.refl _) (List.Subset.refl _)) fun x => .inl ?_⟩
    have hx := hperm x
    have hadd := s.heap.slab.add_hits (show id < POOL_NR by omega) a.header x
    simp only [SlabRun.hits, hadd]
    omega

end Invariant

/-! ### Runs -/

lemma Inv.step {s : SlabRun} {e : SlabEvent} (hs : s.Inv) (hlegit : e.Legit s)
    (hserved : e.Served s) : (s.step e).Inv ∧ s.SoundStep e := by
  have hcall : ∃ s', s.call e = some s' ∧ s'.Inv := by
    cases e with
    | addSlabMem base size => exact hs.addSlabMem hlegit
    | malloc n => exact hs.malloc hserved
    | free a => exact hs.free hlegit
  obtain ⟨s', hs', hinv⟩ := hcall
  have hstep : s.step e = s' := by rw [SlabRun.step, hs', Option.getD_some]
  exact ⟨hstep ▸ hinv, by rw [hs']; rfl, hstep ▸ hinv.right⟩

/-- In a run in which no request is left to the first of the slabs that were freed if that is too
small, every call returns, every slab is as large as was asked for, and no two pieces share a
byte. -/
theorem slab_runs_sound {pages : PageMem} (hstart : SlabStart pages.mm) (es : List SlabEvent)
    (hlegit : Along step SlabEvent.Legit (init pages) es)
    (hserved : Along step SlabEvent.Served (init pages) es) :
    Along step SoundStep (init pages) es := by
  have hboth : Along step (fun s e => e.Legit s ∧ e.Served s) (init pages) es :=
    along_and.2 ⟨hlegit, hserved⟩
  exact along_induction (I := Inv) (fun s e hs h => (hs.step h.1 h.2).1)
    (fun s e hs h => (hs.step h.1 h.2).2) (init_inv hstart) hboth

/-- A region below the sections is given, and a slab of it is freed before a larger one is asked
for. -/
def freeThenMore : List SlabEvent :=
  [.addSlabMem 0x1000 2000, .malloc 600, .free ⟨⟨0x1000, 608⟩, 600⟩, .malloc 1500]

lemma emptyHeap_start {n : ℕ} (hn : n ≤ 1) : SlabStart (emptyHeap n).pages.mm where
  layout := by
    have hmem : ∀ ms ∈ (emptyHeap n).pages.mm.memSections,
        ms = newSection .block 0x40000000 (n * MEM_BLOCK_SIZE) n := fun ms =>
      List.mem_singleton.1
    refine ⟨fun i j ms ms' hi hj hne => ?_, fun ms hms => ?_, fun ms hms => ?_, fun ms hms => ?_⟩
    · obtain ⟨hi, -⟩ := List.getElem?_eq_some_iff.1 hi
      obtain ⟨hj, -⟩ := List.getElem?_eq_some_iff.1 hj
      simp only [emptyHeap, List.length_singleton] at hi hj
      omega
    · rw [hmem ms hms]
      rfl
    · have hblock : MEM_BLOCK_SIZE = 2 ^ 21 := rfl
      rw [hmem ms hms]
      simp only [newSection, hblock]
      omega
    · rw [hmem ms hms]
      simp only [newSection]
      decide
  fresh b hb := by
    obtain ⟨⟨ms, hms, -, -, hset⟩, -⟩ := hb
    obtain rfl := List.mem_singleton.1 (List.mem_of_getElem? hms)
    cases hset

lemma freeThenMore_legit {n : ℕ} (hn : n ≤ 1) :
    Along step SlabEvent.Legit (init (emptyHeap n).pages) freeThenMore := by
  refine ⟨⟨by norm_num, fun x hx => ⟨?_, ?_⟩⟩, by norm_num [SlabEvent.Legit], ?_,
    by norm_num [SlabEvent.Legit], trivial⟩
  · rintro (⟨p, hp, -⟩ | ⟨b, hb, -⟩)
    · cases hp
    · exact (emptyHeap_start hn).fresh b hb
  · rintro b ⟨ms, hms, -, -, hlo, -⟩
    obtain rfl := List.mem_singleton.1 (List.mem_of_getElem? hms)
    have hlt : x < 0x1000 + 2000 := hx.2
    simp only [newSection] at hlo
    omega
  · interval_cases n
    · change _ ∈ SlabRun.live _
      decide +kernel
    · change _ ∈ SlabRun.live _
      decide +kernel

/-- With a free block the larger request gets a slab of it. -/
theorem slab_runs_sound_block :
    Along step SoundStep (init (emptyHeap 1).pages) freeThenMore :=
  slab_runs_sound (emptyHeap_start le_rfl) _ (freeThenMore_legit le_rfl) (by decide +kernel)

/-- Without one it gets the slab of 608 bytes that was freed. -/
theorem slab_runs_first_of_freed :
    SlabStart (emptyHeap 0).pages.mm ∧
      Along step SlabEvent.Legit (init (emptyHeap 0).pages) freeThenMore ∧
      (exec step (init (emptyHeap 0).pages) freeThenMore).live = [⟨⟨0x1000, 608⟩, 1500⟩] ∧
      ¬ Along step SoundStep (init (emptyHeap 0).pages) freeThenMore := by
  have hlive : (exec step (init (emptyHeap 0).pages) freeThenMore).live =
      [⟨⟨0x1000, 608⟩, 1500⟩] := by decide +kernel
  refine ⟨emptyHeap_start zero_le_one, freeThenMore_legit zero_le_one, hlive, ?_⟩
  rintro ⟨-, -, -, ⟨-, hright⟩, -⟩
  have hmem : ⟨⟨0x1000, 608⟩, 1500⟩ ∈
      (exec step (init (emptyHeap 0).pages) freeThenMore).live := by
    rw [hlive]
    exact List.mem_singleton_self _
  rw [freeThenMore, exec_cons, exec_cons, exec_cons, exec_cons, exec_nil] at hmem
  have hlarge : 1500 ≤ 608 := hright.large _ hmem
  omega

end SlabRun

end Minos.Mm
