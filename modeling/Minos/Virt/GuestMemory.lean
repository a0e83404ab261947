import Mathlib
import Minos.Virt.GuestVm

/-!
# The memory of a new guest

The memory of a guest is a list of blocks of 2MiB, mapped one after the other from the start of its
block of the address space on. So the guest has all of its memory if both ends of it are multiples
of 2MiB; what is left over at an end is not mapped. A `mem_base` and a `mem_size` whose sum wraps
are accepted as well.
-/

namespace Minos.Mm

open Bitmap

variable {s s' : PageMem}

/-! ### The pages that are in use -/

lemma allocBlock_live {flags : ℕ} {b : BlockRef} (h : allocBlock s flags = some (b, s')) :
    s'.live = s.live := by
  simp only [allocBlock, Option.map_eq_some_iff, Prod.mk.injEq] at h
  obtain ⟨r, -, -, rfl⟩ := h
  rfl

lemma newMetaBlock_live (s : PageMem) (p : PoolKind) : (newMetaBlock s p).2.live = s.live := by
  rw [newMetaBlock]
  cases halloc : allocBlock s GPF_PAGE_META with
  | none => rfl
  | some r =>
    obtain ⟨mb, s₁⟩ := r
    have hlive : s₁.live = s.live := allocBlock_live halloc
    exact hlive

lemma getPageMetaFrom_live (p : PoolKind) (l : List BlockRef) (s : PageMem) :
    (getPageMetaFrom p l s).2.live = s.live := by
  induction l generalizing s with
  | nil => exact newMetaBlock_live s p
  | cons mb rest ih =>
    rw [getPageMetaFrom]
    cases hblock : s.mm.block? mb with
    | none => rfl
    | some block =>
      dsimp only
      by_cases hfull : PAGE_METAS_IN_BLOCK ≤
          findNextZeroBitLoop (s.metaBitmaps mb) PAGE_METAS_IN_BLOCK block.bmCurrent
      · rw [if_pos hfull, ih]
        rfl
      · rw [if_neg hfull]
        by_cases hlast : block.freePages - 1 = 0
        · rw [if_pos hlast]
          rfl
        · rw [if_neg hlast]
          rfl

lemma allocPagesFromBlock_live {b : BlockRef} {count align : ℕ} {page : PageRef}
    (h : allocPagesFromBlock s b count align = some (page, s')) : s'.live = s.live := by
  rw [allocPagesFromBlock] at h
  split at h
  · dsimp only at h
    split_ifs at h
    obtain rfl := (Prod.mk.inj (Option.some.inj h)).2
    rfl
  · cases h

lemma allocPagesFromBlocks_live {p : PoolKind} {count align : ℕ} {page : PageRef}
    (l : List BlockRef) (h : allocPagesFromBlocks count align p l s = some (page, s')) :
    s'.live = s.live := by
  induction l with
  | nil => cases h
  | cons b rest ih =>
    rw [allocPagesFromBlocks] at h
    cases halloc : allocPagesFromBlock s b count align with
    | none =>
      rw [halloc] at h
      exact ih h
    | some r =>
      rw [halloc] at h
      obtain rfl := (Prod.mk.inj (Option.some.inj h)).2
      rw [← allocPagesFromBlock_live halloc]
      split_ifs
      · rfl
      · rfl

lemma allocPages_live (s : PageMem) (count align : ℕ) :
    (allocPages s count align).2.live = s.live := by
  have hpool : (allocPagesFromPool id .page count align GFB_PAGE s).2.live = s.live := by
    rw [allocPagesFromPool]
    cases hblocks : allocPagesFromBlocks count align .page (s.pools .page).blockList s with
    | some r => exact allocPagesFromBlocks_live _ hblocks
    | none =>
      dsimp only
      rw [allocPagesFromNewBlock]
      cases halloc : allocBlock s GFB_PAGE with
      | none => rfl
      | some r =>
        obtain ⟨b, s₁⟩ := r
        have hmeta := getPageMetaFrom_live .page (s₁.pools .page).metaList s₁
        rw [← getPageMeta, allocBlock_live halloc] at hmeta
        dsimp only [id]
        generalize getPageMeta s₁ .page = q at hmeta ⊢
        obtain ⟨m, s₂⟩ := q
        cases m with
        | none => exact hmeta
        | some m =>
          dsimp only
          cases hfrom : allocPagesFromBlock (joinPool s₂ .page b m) b count align with
          | none => exact hmeta
          | some r => exact (allocPagesFromBlock_live hfrom).trans hmeta
  rw [allocPages]
  cases hsec : (if 1 < align then none else allocPagesFromSection s count align) with
  | none => exact hpool
  | some r =>
    split_ifs at hsec
    simp only [allocPagesFromSection, Option.map_eq_some_iff] at hsec
    obtain ⟨q, -, rfl⟩ := hsec
    rfl

/-- The bytes of all live allocations -/
def PageMem.used (s : PageMem) : Set ℕ := {x | ∃ a ∈ s.live, x ∈ a.bytes}

/-- The memory of the machine: its addresses have 48 bits, its blocks are aligned, and if there is
memory at the address 0, then a block that holds no pages of a pool. -/
structure MachineOk (s : PageMem) : Prop where
  inv : s.Inv
  bound : ∀ ms ∈ s.mm.memSections, ms.phyBase + ms.size ≤ 2 ^ 48
  aligned : ∀ ms ∈ s.mm.memSections, ms.kind = .block → MEM_BLOCK_SIZE ∣ ms.phyBase
  zero : ∀ i ms, s.mm.memSections[i]? = some ms → ms.phyBase = 0 →
    ms.kind = .block ∧ Taken s.mm ⟨i, 0⟩ ∧ s.metaOf ⟨i, 0⟩ = none

/-- A block that is taken is where its section says. -/
def BlockAt (s : PageMem) (b : BlockRef) (addr : ℕ) : Prop :=
  Taken s.mm b ∧ (s.mm.block? b).map MemBlock.phyBase = some addr ∧
    ∃ ms, s.mm.memSections[b.sec]? = some ms ∧ addr = ms.phyBase + b.bit * MEM_BLOCK_SIZE

namespace MachineOk

variable {a : PageAlloc}

lemma grow (h : MachineOk s) (hinv : s'.Inv) (hg : Grows ∅ s s') : MachineOk s' where
  inv := hinv
  bound ms hms := by
    obtain ⟨t, ht, -, hbase, hsize, -⟩ := hg.geometry.mem hms
    rw [hbase, hsize]
    exact h.bound t ht
  aligned ms hms hkind := by
    obtain ⟨t, ht, hk, hbase, -, -⟩ := hg.geometry.mem hms
    rw [hbase]
    exact h.aligned t ht (hk ▸ hkind)
  zero i ms hms hz := by
    obtain ⟨t, ht, hk, hbase, -, -⟩ := hg.geometry.get hms
    obtain ⟨hkind, htaken, hnone⟩ := h.zero i t ht (hbase ▸ hz)
    refine ⟨hk.trans hkind, hg.taken htaken, ?_⟩
    rcases hg.metaOf _ htaken with heq | ⟨-, hmem⟩
    · rw [heq, hnone]
    · exact absurd hmem (Set.notMem_empty _)

/-- The pages of an allocation have good addresses. -/
lemma addr (h : MachineOk s) (ha : a ∈ s.live) :
    PAGE_SIZE ∣ a.addr ∧ a.addr ≠ 0 ∧ a.addr + a.count * PAGE_SIZE ≤ 2 ^ 48 := by
  have hplaced := h.inv.placed a ha
  have hpos := h.inv.pos a ha
  unfold Placed at hplaced
  cases hpage : a.page with
  | block m i =>
    simp only [hpage] at hplaced
    obtain ⟨b, ms, hm, htaken, hms, haddr, hle, -⟩ := hplaced
    have hmem := List.mem_of_getElem? hms
    obtain ⟨ms', hms', hkind, hbit, -⟩ := htaken
    obtain rfl := Option.some.inj (hms.symm.trans hms')
    refine ⟨haddr ▸ page_dvd h.inv.layout hmem _ _, fun hz => ?_, ?_⟩
    · have hb : ms.phyBase = 0 ∧ b.bit = 0 := by
        unfold MEM_BLOCK_SIZE at haddr
        omega
      obtain ⟨-, -, hnone⟩ := h.zero b.sec ms hms hb.1
      rw [← hb.2, hm] at hnone
      cases hnone
    · have hsize := h.inv.layout.size ms hmem
      have hbound := h.bound ms hmem
      rw [hkind, SectionKind.unit] at hsize
      have hmul : (b.bit + 1) * MEM_BLOCK_SIZE ≤ ms.nrBlocks * MEM_BLOCK_SIZE :=
        Nat.mul_le_mul_right _ hbit
      have hrun : (i + a.count) * PAGE_SIZE ≤ PAGES_IN_BLOCK * PAGE_SIZE :=
        Nat.mul_le_mul_right _ hle
      have hblock : PAGES_IN_BLOCK * PAGE_SIZE = MEM_BLOCK_SIZE := by decide
      rw [add_mul] at hmul hrun
      omega
  | sec k i =>
    simp only [hpage] at hplaced
    obtain ⟨ms, hms, hkind, haddr, hle, -⟩ := hplaced
    have hmem := List.mem_of_getElem? hms
    refine ⟨?_, fun hz => ?_, ?_⟩
    · rw [haddr]
      exact Nat.dvd_add (h.inv.layout.aligned ms hmem) (Nat.dvd_mul_left ..)
    · obtain ⟨hblock, -, -⟩ := h.zero k ms hms (by omega)
      rw [hkind] at hblock
      cases hblock
    · have hsize := h.inv.layout.size ms hmem
      have hbound := h.bound ms hmem
      rw [hkind, SectionKind.unit] at hsize
      have hrun : (i + a.count) * PAGE_SIZE ≤ ms.nrBlocks * PAGE_SIZE := Nat.mul_le_mul_right _ hle
      rw [add_mul] at hrun
      omega

/-- An allocation of the caller: new pages at a good address. -/
lemma noteAlloc {count align : ℕ} {page : PageRef} (h : MachineOk s) (hpos : 0 < count)
    (halign : ∃ k, align = 2 ^ k) (hone : count = 1 → align = 1)
    (halloc : allocPages s count align = (some page, s')) :
    MachineOk (Mm.noteAlloc count align (page, s')) ∧
      Grows ∅ s (Mm.noteAlloc count align (page, s')) ∧
      (Mm.noteAlloc count align (page, s')).live =
        s.live ++ [⟨page, pageAddr (s'.phyBase page), count, align⟩] ∧
      ∀ x ∈ s.used, x ∉ PageAlloc.bytes ⟨page, pageAddr (s'.phyBase page), count, align⟩ := by
  have hall := h.inv.allocPages hpos halign hone
  have hlive := allocPages_live s count align
  rw [halloc] at hall hlive
  have hinv := hall.page page rfl
  have hg : Grows ∅ s (Mm.noteAlloc count align (page, s')) :=
    hall.grows.trans (.of_eq rfl rfl rfl rfl)
  have hlive' : (Mm.noteAlloc count align (page, s')).live =
      s.live ++ [⟨page, pageAddr (s'.phyBase page), count, align⟩] := by
    change s'.live ++ _ = _
    rw [hlive]
  refine ⟨h.grow hinv hg, hg, hlive', ?_⟩
  rintro x ⟨a, ha, hx⟩ hnew
  have hapart := hinv.pagesOk.apart
  rw [hlive', List.pairwise_append] at hapart
  exact Set.disjoint_left.1 (hapart.2.2 a ha _ (List.mem_singleton_self _)) hx hnew

end MachineOk

section

variable {b : BlockRef} {addr : ℕ}

lemma BlockAt.grow (h : BlockAt s b addr) (hg : Grows ∅ s s') : BlockAt s' b addr := by
  obtain ⟨htaken, hblock, ms, hms, haddr⟩ := h
  obtain ⟨ms', hms', -, hbase, -, -⟩ := hg.geometry.forward hms
  refine ⟨hg.taken htaken, ?_, ms', hms', hbase ▸ haddr⟩
  have hmap := congrArg (Option.map Prod.fst) (hg.block b htaken)
  rw [Option.map_map, Option.map_map] at hmap
  exact hmap.trans hblock

/-- A block that was just handed out -/
lemma blockAt_of_alloc {flags : ℕ} (h : allocBlock s flags = some (b, s')) :
    ∃ addr, BlockAt s' b addr := by
  obtain ⟨-, -, htaken, -, -⟩ := allocBlock_spec h
  simp only [allocBlock, Option.map_eq_some_iff, Prod.mk.injEq] at h
  obtain ⟨⟨b', mm⟩, halloc, rfl, rfl⟩ := h
  obtain ⟨ms, -, -, -, -, hget⟩ := allocMemBlock_cases halloc
  have hself : mm.memSections[b'.sec]? = some (takeBlock ms b'.bit flags) := by
    rw [hget, if_pos rfl]
  refine ⟨_, htaken, ?_, _, hself, rfl⟩
  simp [Mem.block?, hself, takeBlock, newBlock]

/-- Two blocks are apart. -/
lemma BlockAt.apart {b' : BlockRef} {addr' : ℕ} (hs : MachineOk s)
    (hb : BlockAt s b addr) (hb' : BlockAt s b' addr') (hne : b ≠ b') :
    addr / MEM_BLOCK_SIZE ≠ addr' / MEM_BLOCK_SIZE := by
  obtain ⟨⟨ms, hms, hkind, hbit, -⟩, -, t, ht, rfl⟩ := hb
  obtain ⟨⟨ms', hms', hkind', hbit', -⟩, -, t', ht', rfl⟩ := hb'
  obtain rfl := Option.some.inj (hms.symm.trans ht)
  obtain rfl := Option.some.inj (hms'.symm.trans ht')
  have hmem := List.mem_of_getElem? hms
  have hmem' := List.mem_of_getElem? hms'
  have hsize := hs.inv.layout.size ms hmem
  have hsize' := hs.inv.layout.size ms' hmem'
  rw [hkind, SectionKind.unit] at hsize
  rw [hkind', SectionKind.unit] at hsize'
  obtain ⟨q, hq⟩ := hs.aligned ms hmem hkind
  obtain ⟨q', hq'⟩ := hs.aligned ms' hmem' hkind'
  have hpos : 0 < MEM_BLOCK_SIZE := by decide
  have hdiv : ∀ x y : ℕ, (MEM_BLOCK_SIZE * x + y * MEM_BLOCK_SIZE) / MEM_BLOCK_SIZE = x + y :=
    fun x y => by rw [mul_comm y, ← mul_add, Nat.mul_div_cancel_left _ hpos]
  rw [hq, hq', hdiv, hdiv]
  by_cases hsec : b.sec = b'.sec
  · rw [hsec] at hms
    obtain rfl := Option.some.inj (hms.symm.trans hms')
    have hqq : q = q' := Nat.eq_of_mul_eq_mul_left hpos (hq.symm.trans hq')
    intro heq
    refine hne ?_
    cases b
    cases b'
    simp only [BlockRef.mk.injEq] at hsec ⊢
    exact ⟨hsec, by dsimp only at heq; omega⟩
  · have hapart := hs.inv.layout.apart b.sec b'.sec ms ms' hms hms' hsec
    have hscale : ∀ x y : ℕ, x + y ≤ q' → MEM_BLOCK_SIZE * x + y * MEM_BLOCK_SIZE ≤
        MEM_BLOCK_SIZE * q' := fun x y h => by
      rw [mul_comm y, ← mul_add]
      exact Nat.mul_le_mul_left _ h
    intro heq
    rcases hapart with hle | hle
    · rw [hsize, hq, hq', mul_comm ms.nrBlocks, ← mul_add] at hle
      have := Nat.le_of_mul_le_mul_left hle hpos
      omega
    · rw [hsize', hq, hq', mul_comm ms'.nrBlocks, ← mul_add] at hle
      have := Nat.le_of_mul_le_mul_left hle hpos
      omega

end

end Minos.Mm

namespace Minos.Virt

open Bitmap Mm
open Mmu hiding MEM_BLOCK_SIZE

/-! ### Calls that only allocate -/

namespace Hv

variable {s s' s'' : Hv}

/-- The memory of the hypervisor after allocations: what was in use still is, and no table was
written. -/
structure Extends (s s' : Hv) : Prop where
  ok : MachineOk s'.pages
  grows : Grows ∅ s.pages s'.pages
  live : s.pages.live ⊆ s'.pages.live
  mem : s'.mem = s.mem

lemma Extends.refl (h : MachineOk s.pages) : Extends s s := ⟨h, .refl _ _, List.Subset.refl _, rfl⟩

lemma Extends.trans (h : Extends s s') (h' : Extends s' s'') : Extends s s'' where
  ok := h'.ok
  grows := h.grows.trans h'.grows
  live := List.Subset.trans h.live h'.live
  mem := h'.mem.trans h.mem

/-- A change that leaves the memory alone -/
lemma Extends.of_eq (h : MachineOk s.pages) (hpages : s'.pages = s.pages) (hmem : s'.mem = s.mem) :
    Extends s s' := by
  refine ⟨hpages ▸ h, ?_, ?_, hmem⟩
  · rw [hpages]
    exact .refl _ _
  · rw [hpages]
    exact List.Subset.refl _

lemma malloc_extends (h : MachineOk s.pages) (r : SlabReply) : Extends s (s.malloc r).2 := by
  rw [malloc]
  cases r with
  | fail => exact .of_eq h rfl rfl
  | object addr => exact .of_eq h rfl rfl
  | newBlock addr =>
    rw [slabPages]
    cases halloc : allocBlock s.pages GFB_SLAB with
    | none => exact .of_eq h rfl rfl
    | some r =>
      obtain ⟨b, p⟩ := r
      obtain ⟨hinv, hg⟩ := h.inv.allocBlock halloc
      have hset : Grows ∅ p { p with
          mm := p.mm.setBlock b fun block => { block with freePages := 1 } } :=
        .of_setBlock (f := fun block => { block with freePages := 1 }) rfl (fun _ => rfl) rfl
          (fun _ _ h => h) fun _ _ h => h
      have hinv' := hinv.grow hset rfl (fun _ _ hm hold => absurd hm hold)
        fun q mb hmb => hset.taken (hinv.metas q mb hmb)
      refine ⟨h.grow hinv' (hg.trans hset), hg.trans hset, ?_, rfl⟩
      rw [← allocBlock_live halloc]
      exact List.Subset.refl _

lemma getFreePages_extends {count align : ℕ} (h : MachineOk s.pages) (hpos : 0 < count)
    (halign : ∃ k, align = 2 ^ k) (hone : count = 1 → align = 1) :
    Extends s (s.getFreePages count align).2 := by
  rw [getFreePages]
  have hall := h.inv.allocPages hpos halign hone
  have hlive := allocPages_live s.pages count align
  cases halloc : allocPages s.pages count align with
  | mk page p =>
    cases page with
    | none =>
      rw [halloc] at hall hlive
      refine ⟨h.grow hall.inv hall.grows, hall.grows, ?_, rfl⟩
      rw [← hlive]
      exact List.Subset.refl _
    | some page =>
      obtain ⟨hok, hg, hlive', -⟩ := h.noteAlloc hpos halign hone halloc
      refine ⟨hok, hg, ?_, rfl⟩
      dsimp only
      rw [hlive']
      exact List.subset_append_left ..

lemma createVcpuTask_extends {nrCpus aff pid : ℕ} {env : VcpuEnv} (h : MachineOk s.pages)
    (hr : s.createVcpuTask nrCpus aff env = some (some pid, s')) : Extends s s' := by
  rw [createVcpuTask] at hr
  dsimp only at hr
  split_ifs at hr with haff hpid
  · simp at hr
  · simp at hr
  · set t : Hv := { s with
      pidMap := setBit s.pidMap (findNextZeroBit s.pidMap OS_NR_TASKS OS_REALTIME_TASK) }
    have ht : Extends s t := .of_eq h rfl rfl
    have hmalloc := malloc_extends ht.ok env.task
    cases htask : t.malloc env.task with
    | mk task t₁ =>
      rw [htask] at hr hmalloc
      cases task with
      | none => simp at hr
      | some task =>
        dsimp only at hr
        have hstack : Extends t₁ (t₁.getFreePages TASK_STACK_PAGES TASK_STACK_PAGES).2 :=
          getFreePages_extends hmalloc.ok (by decide) ⟨1, rfl⟩ (by decide)
        cases hget : t₁.getFreePages TASK_STACK_PAGES TASK_STACK_PAGES with
        | mk stack t₂ =>
          rw [hget] at hr hstack
          dsimp only at hr
          split_ifs at hr
          obtain rfl := (Prod.mk.inj (Option.some.inj hr)).2
          exact ht.trans (hmalloc.trans hstack)

lemma allocVcpu_extends (pid : ℕ) (env : VcpuEnv) (h : MachineOk s.pages) :
    Extends s (s.allocVcpu pid env).2 := by
  rw [allocVcpu]
  have hvcpu := malloc_extends h env.vcpu
  cases hm : s.malloc env.vcpu with
  | mk addr t =>
    rw [hm] at hvcpu
    cases addr with
    | none => exact hvcpu
    | some addr =>
      dsimp only
      have hstruct := malloc_extends hvcpu.ok env.virqStruct
      cases hm' : t.malloc env.virqStruct with
      | mk virqStruct t' =>
        rw [hm'] at hstruct
        cases virqStruct with
        | none => exact (hvcpu.trans hstruct).trans (.of_eq hstruct.ok rfl rfl)
        | some virqStruct => exact hvcpu.trans hstruct

lemma createVcpu_extends {nrCpus aff : ℕ} {env : VcpuEnv} {vcpu : GuestVcpu}
    (h : MachineOk s.pages) (hr : s.createVcpu nrCpus aff env = some (some vcpu, s')) :
    Extends s s' := by
  rw [createVcpu] at hr
  cases htask : s.createVcpuTask nrCpus aff env with
  | none => simp [htask] at hr
  | some r =>
    obtain ⟨pid, t⟩ := r
    cases pid with
    | none => simp [htask] at hr
    | some pid =>
      simp only [htask, Option.some.injEq] at hr
      have ht := createVcpuTask_extends h htask
      have hvcpu := allocVcpu_extends pid env ht.ok
      rw [hr] at hvcpu
      exact ht.trans hvcpu

lemma createVcpusFrom_extends {nrCpus : ℕ} {aff : ℕ → ℕ} {env : GuestEnv} (n i : ℕ)
    {vcpus vcpus' : List GuestVcpu} (h : MachineOk s.pages)
    (hr : s.createVcpusFrom nrCpus aff env n i vcpus = some (true, vcpus', s')) :
    Extends s s' := by
  induction n generalizing i vcpus s with
  | zero =>
    simp only [createVcpusFrom, Option.some.injEq, Prod.mk.injEq, true_and] at hr
    obtain ⟨-, rfl⟩ := hr
    exact .refl h
  | succ n ih =>
    rw [createVcpusFrom] at hr
    cases hvcpu : s.createVcpu nrCpus (aff i) (env.vcpu i) with
    | none => simp [hvcpu] at hr
    | some r =>
      obtain ⟨vcpu, t⟩ := r
      cases vcpu with
      | none =>
        simp only [hvcpu] at hr
        split_ifs at hr
        simp at hr
      | some vcpu =>
        simp only [hvcpu] at hr
        have ht := createVcpu_extends h hvcpu
        exact ht.trans (ih (i + 1) ht.ok hr)

lemma vspiNr_pages (vmid : ℕ) : 0 < balign (32 * vspiNr vmid) PAGE_SIZE / PAGE_SIZE := by
  rw [vspiNr]
  split_ifs
  · decide +kernel
  · decide +kernel

lemma virqCreateVm_extends {env : GuestEnv} {vm : GuestVm} (h : MachineOk s.pages) :
    Extends s (s.virqCreateVm env vm).2.2 := by
  have hpages := getFreePages_extends h (vspiNr_pages vm.ref.vmid) ⟨0, rfl⟩ (fun _ => rfl)
  rw [virqCreateVm]
  dsimp only
  generalize s.getFreePages (balign (32 * vspiNr vm.ref.vmid) PAGE_SIZE / PAGE_SIZE) 1 = r at *
  by_cases hnone : r.1 = 0
  · rw [if_pos hnone]
    exact hpages
  rw [if_neg hnone]
  split_ifs
  · exact hpages
  · have hmap := malloc_extends hpages.ok env.vspiMap
    cases hm : r.2.malloc env.vspiMap with
    | mk addr t =>
      rw [hm] at hmap
      cases addr with
      | none => exact hpages.trans hmap
      | some addr => exact hpages.trans hmap

/-! ### The root table of a new VM -/

/-- The table at `pgd` is empty, and in use. -/
structure EmptyRoot (pgd : ℕ) (s : Hv) : Prop where
  aligned : PAGE_SIZE ∣ pgd
  zero : ∀ a, pgd ≤ a → a < pgd + PAGE_SIZE → s.mem.word a = 0
  used : pgd ∈ s.pages.used

lemma EmptyRoot.extends {pgd : ℕ} (h : EmptyRoot pgd s) (hs : Extends s s') : EmptyRoot pgd s' where
  aligned := h.aligned
  zero a hlo hhi := by
    rw [hs.mem]
    exact h.zero a hlo hhi
  used := by
    obtain ⟨a, ha, hx⟩ := h.used
    exact ⟨a, hs.live ha, hx⟩

lemma allocPgd_spec {pgd : ℕ} (h : MachineOk s.pages) (hr : s.allocPgd = some (pgd, s')) :
    MachineOk s'.pages ∧ EmptyRoot pgd s' := by
  rw [allocPgd, getFreePages] at hr
  cases halloc : allocPages s.pages GVM_PGD_PAGE_NR GVM_PGD_PAGE_ALIGN with
  | mk page p =>
    cases page with
    | none => simp [halloc] at hr
    | some page =>
      have halign : ∃ k, GVM_PGD_PAGE_ALIGN = 2 ^ k := ⟨1, rfl⟩
      obtain ⟨hok, -, hlive, -⟩ := h.noteAlloc (by decide) halign (by decide) halloc
      simp only [halloc] at hr
      split_ifs at hr
      obtain ⟨rfl, rfl⟩ := Prod.mk.inj (Option.some.inj hr)
      have hmem := List.mem_append_right s.pages.live (List.mem_singleton_self
        (⟨page, pageAddr (p.phyBase page), GVM_PGD_PAGE_NR, GVM_PGD_PAGE_ALIGN⟩ : PageAlloc))
      rw [← hlive] at hmem
      obtain ⟨hdvd, -, -⟩ := hok.addr hmem
      refine ⟨hok, hdvd, fun a hlo hhi => ?_, _, hmem, le_rfl, ?_⟩
      · rw [WordMem.Mem.zeroPage_word_out]
        · exact WordMem.Mem.zeroPage_word_in _ hlo hhi
        · exact fun hin => absurd hhi (not_lt.2 hin.1)
      · exact Nat.lt_add_of_pos_right (Nat.mul_pos (by decide : 0 < GVM_PGD_PAGE_NR) (by decide))

/-- A VM that has an empty table, and no block yet -/
def NewVm (vm : GuestVm) (s : Hv) : Prop :=
  ∃ mm, vm.mm = some mm ∧ mm.blockList = [] ∧ MachineOk s.pages ∧ EmptyRoot mm.pgdBase s

lemma virqCreateVm_mm (env : GuestEnv) (vm : GuestVm) (s : Hv) :
    (s.virqCreateVm env vm).2.1.mm = vm.mm := by
  rw [virqCreateVm]
  dsimp only
  split_ifs
  · rfl
  · rfl
  · split
    · rfl
    · rfl

lemma completeVm_spec {nrCpus : ℕ} {tag : GuestTag} {env : GuestEnv} {vm vm' : GuestVm}
    (h : MachineOk s.pages) (hr : s.completeVm nrCpus tag env vm = some (some vm', s')) :
    NewVm vm' s' := by
  rw [completeVm, vmMmStructInit] at hr
  cases hpgd : s.allocPgd with
  | none => simp [hpgd] at hr
  | some r =>
    obtain ⟨pgd, s₁⟩ := r
    obtain ⟨hok, hroot⟩ := allocPgd_spec h hpgd
    simp only [hpgd, Option.map_some] at hr
    cases hvcpus : s₁.createVcpusFrom nrCpus tag.vcpuAffinity env vm.vcpuNr 0 [] with
    | none => simp [hvcpus] at hr
    | some r =>
      obtain ⟨ok, vcpus, s₂⟩ := r
      cases ok with
      | false => simp [hvcpus] at hr
      | true =>
        simp only [hvcpus] at hr
        have hext := createVcpusFrom_extends _ _ hok hvcpus
        split at hr
        · simp at hr
        · rename_i hvirq
          obtain ⟨hvm, rfl⟩ := Prod.mk.inj (Option.some.inj hr)
          obtain rfl := Option.some.inj hvm
          have hmm := congrArg (fun r => r.2.1.mm) hvirq
          have hpages := congrArg (fun r => r.2.2) hvirq
          dsimp only at hmm hpages
          rw [virqCreateVm_mm] at hmm
          have hext' := hext.trans (hpages ▸ virqCreateVm_extends hext.ok)
          exact ⟨_, hmm.symm, rfl, hext'.ok, hroot.extends hext'⟩

lemma createVmStruct_extends {nrCpus vmid : ℕ} {tag : GuestTag} {env : GuestEnv} {native : Bool}
    {vm : Option GuestVm} (h : MachineOk s.pages)
    (hr : s.createVmStruct nrCpus tag env vmid native = some (vm, s')) : Extends s s' := by
  rw [createVmStruct] at hr
  by_cases haff : vmCheckVcpuAffinity nrCpus tag.vcpuAffinity tag.nrVcpu = false
  · rw [if_pos haff] at hr
    obtain ⟨-, rfl⟩ := Prod.mk.inj (Option.some.inj hr)
    exact .refl h
  rw [if_neg haff] at hr
  have hvm := malloc_extends h env.vm
  cases hm : s.malloc env.vm with
  | mk addr t =>
    rw [hm] at hr hvm
    cases addr with
    | none =>
      obtain ⟨-, rfl⟩ := Prod.mk.inj (Option.some.inj hr)
      exact hvm
    | some addr =>
      dsimp only at hr
      by_cases hneg : tag.nrVcpu < 0
      · simp [hneg] at hr
      rw [if_neg hneg] at hr
      generalize (if tag.nrVcpu = 0 then SlabReply.fail else env.vcpus) = reply at hr
      have hvcpus := malloc_extends hvm.ok reply
      cases hm' : t.malloc reply with
      | mk vcpus t' =>
        rw [hm'] at hr hvcpus
        have hext := hvm.trans hvcpus
        cases vcpus with
        | none =>
          obtain ⟨-, rfl⟩ := Prod.mk.inj (Option.some.inj hr)
          exact hext.trans (.of_eq hvcpus.ok rfl rfl)
        | some vcpus =>
          obtain ⟨-, rfl⟩ := Prod.mk.inj (Option.some.inj hr)
          exact hext.trans (.of_eq hvcpus.ok rfl rfl)

/-- A VM comes out of `create_vm` without blocks, and with an empty table. -/
lemma createVm_spec {nrCpus : ℕ} {tag : GuestTag} {env : GuestEnv} {vm : GuestVm}
    (h : MachineOk s.pages) (hr : s.createVm nrCpus tag env = some (some vm, s')) :
    NewVm vm s' := by
  have hwith : ∀ (t : Hv) (vmid : ℕ) (native : Bool),
      t.createVmWithId nrCpus tag env vmid native = some (some vm, s') → t.pages = s.pages →
      NewVm vm s' := by
    intro t vmid native hr ht
    rw [createVmWithId] at hr
    cases hstruct : t.createVmStruct nrCpus tag env vmid native with
    | none => simp [hstruct] at hr
    | some r =>
      obtain ⟨vm₀, t₁⟩ := r
      have hext := createVmStruct_extends (ht ▸ h) hstruct
      cases vm₀ with
      | none => simp [hstruct] at hr
      | some vm₀ =>
        simp only [hstruct] at hr
        exact completeVm_spec hext.ok hr
  rw [createVm] at hr
  split_ifs at hr
  · dsimp only at hr
    split_ifs at hr
    · simp at hr
    · exact hwith _ _ _ hr rfl
  · simp at hr
  · exact hwith _ _ _ hr rfl

end Hv

/-! ### The blocks -/

section

variable {p p' : PageMem} {b : BlockRef} {addr : ℕ}

lemma blockPhyBase_of_blockAt (h : BlockAt p b addr) : Hv.blockPhyBase p b = addr := by
  obtain ⟨block, hblock, rfl⟩ := Option.map_eq_some_iff.1 h.2.1
  rw [Hv.blockPhyBase, hblock]
  rfl

/-- The blocks of a guest: each is taken, and none is on the list twice. -/
structure Owns (p : PageMem) (l : List BlockRef) : Prop where
  nodup : l.Nodup
  placed : ∀ b ∈ l, ∃ addr, BlockAt p b addr

lemma Owns.grow {l : List BlockRef} (h : Owns p l) (hg : Grows ∅ p p') : Owns p' l := by
  refine ⟨h.nodup, fun b hb => ?_⟩
  obtain ⟨addr, hat⟩ := h.placed b hb
  exact ⟨addr, hat.grow hg⟩

end

namespace Hv

variable {s s' : Hv}

/-- The blocks that the first loop of `alloc_vm_memory` takes. -/
lemma takeBlocks_spec (n : ℕ) {mm mm' : GuestMm} (h : MachineOk s.pages)
    (howns : Owns s.pages mm.blockList) (hr : takeBlocks n mm s = (true, mm', s')) :
    Extends s s' ∧ Owns s'.pages mm'.blockList ∧
      mm'.blockList.length = mm.blockList.length + n ∧ mm'.pgdBase = mm.pgdBase := by
  induction n generalizing mm s with
  | zero =>
    simp only [takeBlocks, Prod.mk.injEq, true_and] at hr
    obtain ⟨rfl, rfl⟩ := hr
    exact ⟨.refl h, howns, rfl, rfl⟩
  | succ n ih =>
    rw [takeBlocks] at hr
    cases halloc : allocBlock s.pages GFB_VM with
    | none => simp [halloc] at hr
    | some r =>
      obtain ⟨b, p⟩ := r
      simp only [halloc] at hr
      obtain ⟨hinv, hg⟩ := h.inv.allocBlock halloc
      obtain ⟨-, hnot, -, -, -⟩ := allocBlock_spec halloc
      have hnew : b ∉ mm.blockList := fun hmem => by
        obtain ⟨_, htaken, -⟩ := howns.placed b hmem
        exact hnot htaken
      have hext : Extends s { s with pages := p, allocated := s.allocated ++ [.block b] } := by
        refine ⟨h.grow hinv hg, hg, ?_, rfl⟩
        rw [← allocBlock_live halloc]
        exact List.Subset.refl _
      have hnext : Owns p (mm.blockList ++ [b]) := by
        refine ⟨List.nodup_append.2 ⟨howns.nodup, List.nodup_singleton b, fun x hx y hy hxy => ?_⟩,
          fun b' hb' => ?_⟩
        · rw [List.mem_singleton.1 hy] at hxy
          exact hnew (hxy ▸ hx)
        · rcases List.mem_append.1 hb' with hb' | hb'
          · obtain ⟨addr, hat⟩ := howns.placed b' hb'
            exact ⟨addr, hat.grow hg⟩
          · rw [List.mem_singleton.1 hb']
            exact blockAt_of_alloc halloc
      obtain ⟨hrest, howns', hlen, hpgd⟩ := ih hext.ok hnext hr
      refine ⟨hext.trans hrest, howns', ?_, hpgd⟩
      rw [hlen, List.length_append, List.length_singleton, Nat.add_assoc, Nat.add_comm 1]

end Hv

/-! ### The mapping -/

section

open Radix

variable {p : PageMem} {root : ℕ} {s s' : MmState PageMem}

/-- The page allocator supplies new pages as long as the memory is in order. -/
lemma pageOps_step (p : PageMem) (addr : ℕ) (p' : PageMem) (h : MachineOk p)
    (halloc : pageOps.allocPage p = some (addr, p')) :
    (MachineOk p' ∧ Grows ∅ p p') ∧ (4096 ∣ addr ∧ addr ≠ 0 ∧ addr < 2 ^ 48) ∧ addr ∉ p.used ∧
      insert addr p.used ⊆ p'.used := by
  simp only [pageOps] at halloc
  cases hpages : allocPages p 1 1 with
  | mk page q =>
    cases page with
    | none => simp [hpages] at halloc
    | some page =>
      simp only [hpages, Option.some.injEq, Prod.mk.injEq] at halloc
      obtain ⟨rfl, rfl⟩ := halloc
      have halign : ∃ k, 1 = 2 ^ k := ⟨0, rfl⟩
      obtain ⟨hok, hg, hlive, hnew⟩ := h.noteAlloc one_pos halign (fun _ => rfl) hpages
      have hmem := List.mem_append_right p.live (List.mem_singleton_self
        (⟨page, pageAddr (q.phyBase page), 1, 1⟩ : PageAlloc))
      rw [← hlive] at hmem
      obtain ⟨hdvd, hne, hle⟩ := hok.addr hmem
      have hself : pageAddr (q.phyBase page) ∈
          PageAlloc.bytes ⟨page, pageAddr (q.phyBase page), 1, 1⟩ :=
        ⟨le_rfl, Nat.lt_add_of_pos_right (by decide : 0 < 1 * PAGE_SIZE)⟩
      refine ⟨⟨hok, hg⟩, ⟨hdvd, hne, lt_of_lt_of_le hself.2 hle⟩,
        fun hused => hnew _ hused hself, ?_⟩
      rintro x (rfl | ⟨a, ha, hx⟩)
      · exact ⟨_, hmem, hself⟩
      · refine ⟨a, ?_, hx⟩
        rw [hlive]
        exact List.mem_append_left _ ha

lemma pageOps_supply (h : MachineOk p) :
    Supply pageOps p ∧ Disjoint (avail pageOps p) p.used := by
  refine supply_of_invariant (fun a addr a' ha halloc => ?_) h
  obtain ⟨⟨hok, -⟩, hgood, hnew, hsub⟩ := pageOps_step a addr a' ha halloc
  exact ⟨hok, hgood, hnew, hsub⟩

/-- A block of the address space is one piece, and is mapped by a block. -/
lemma blockPiece_of_block {base va : ℕ} (hbase : SIZE_2M ∣ base)
    (hva : va ∈ Set.Ico base (base + SIZE_2M)) : BlockPiece base (base + SIZE_2M) va := by
  obtain ⟨hlo, hhi⟩ := hva
  have hstart : va / SIZE_1G * SIZE_1G ≤ base := by
    unfold SIZE_1G SIZE_2M at *
    omega
  have hstop : base + SIZE_2M ≤ va / SIZE_1G * SIZE_1G + SIZE_1G := by
    unfold SIZE_1G SIZE_2M at *
    omega
  rw [BlockPiece, pieceStart, pieceEnd, Nat.max_eq_left hstart, Nat.min_eq_left hstop,
    Nat.add_sub_cancel_left]
  exact ⟨hbase, dvd_rfl⟩

/-- The call that maps one block. -/
lemma createGuestMapping_block {base addr : ℕ} (hok : MachineOk s.alloc)
    (hwf : WF guestFormat s.mem 2 root)
    (hd : Disjoint (avail pageOps s.alloc) (pages guestFormat s.mem 2 root))
    (hbase : Mm.MEM_BLOCK_SIZE ∣ base) (hend : base + Mm.MEM_BLOCK_SIZE ≤ GUEST_SPACE)
    (haddr : Mm.MEM_BLOCK_SIZE ∣ addr) (hlt : addr + Mm.MEM_BLOCK_SIZE ≤ 2 ^ 48)
    (hr : createGuestMapping pageOps root base addr Mm.MEM_BLOCK_SIZE VM_NORMAL s = (0, s')) :
    (MachineOk s'.alloc ∧ Grows ∅ s.alloc s'.alloc) ∧ WF guestFormat s'.mem 2 root ∧
      Disjoint (avail pageOps s'.alloc) (pages guestFormat s'.mem 2 root) ∧
      (∀ va ∈ Set.Ico base (base + Mm.MEM_BLOCK_SIZE),
        guestTranslate s'.mem root va = some (addr + (va - base))) ∧
      ∀ va < GUEST_SPACE, va ∉ Set.Ico base (base + Mm.MEM_BLOCK_SIZE) →
        guestTranslate s'.mem root va = guestTranslate s.mem root va := by
  have hblock : Mm.MEM_BLOCK_SIZE = 2 ^ 21 := rfl
  have hspace : GUEST_SPACE = 2 ^ 39 := rfl
  rw [hblock] at hbase hend haddr hlt hr ⊢
  rw [hspace] at hend
  have hpage : PAGE_SIZE = 2 ^ 12 := rfl
  obtain ⟨k, rfl⟩ := hbase
  obtain ⟨j, rfl⟩ := haddr
  have hsum : add64 (2 ^ 21 * k) (2 ^ 21) = 2 ^ 21 * k + 2 ^ 21 := add64_of_lt (by omega)
  have htmp : balign (2 ^ 21 * k + 2 ^ 21) (2 ^ 12) = 2 ^ 21 * k + 2 ^ 21 := by
    rw [balign_pow (by omega) (by norm_num)]
    omega
  rw [createGuestMapping, hpage, hsum, htmp, align_pow (by omega) (by norm_num),
    align_pow (by omega) (by norm_num), show 2 ^ 21 * k / 2 ^ 12 * 2 ^ 12 = 2 ^ 21 * k by omega,
    show 2 ^ 21 * j / 2 ^ 12 * 2 ^ 12 = 2 ^ 21 * j by omega,
    sub64_of_le (by omega) (by omega),
    show 2 ^ 21 * k + 2 ^ 21 - 2 ^ 21 * k = 2 ^ 21 by omega] at hr
  have hvir : 4096 ∣ 2 ^ 21 * k := Dvd.dvd.mul_right (by norm_num) k
  have hphy : 4096 ∣ 2 ^ 21 * j := Dvd.dvd.mul_right (by norm_num) j
  have hpiece : ∀ va ∈ Set.Ico (2 ^ 21 * k) (2 ^ 21 * k + 2 ^ 21),
      BlockPiece (2 ^ 21 * k) (2 ^ 21 * k + 2 ^ 21) va :=
    fun va hva => blockPiece_of_block (Dvd.intro k rfl) hva
  have hmaps := createMemMapping_guest_maps (by decide) (by decide) hvir
    (by norm_num) hphy (by omega) (by rw [hspace]; exact hend) hwf (pageOps_supply hok).1 hd
    (fun va hva hnot => absurd (hpiece va hva) hnot) hr
  have hslot : ∀ va < GUEST_SPACE, slot 3 va = 0 := fun va hva => Nat.div_eq_of_lt hva
  refine ⟨?_, hmaps.wf, hmaps.fresh hd, ?_, ?_⟩
  · rw [createMemMapping] at hr
    refine createTableEntry_alloc (P := fun q => MachineOk q ∧ Grows ∅ s.alloc q)
      (fun a addr a' ha halloc => ?_) _ (Nat.lt_succ_self _) hr ⟨hok, .refl _ _⟩
    obtain ⟨⟨hok', hg⟩, -, -, -⟩ := pageOps_step a addr a' ha.1 halloc
    exact ⟨hok', ha.2.trans hg⟩
  · intro va hva
    have hcong : 2 ^ 21 * k % SIZE_2M = 2 ^ 21 * j % SIZE_2M := by
      unfold SIZE_2M
      omega
    have hhi := hva.2
    rw [guestTranslate, hmaps.walk_in va (hslot va (by rw [hspace]; omega)) hva,
      guestTarget_out (Or.inr hcong) hva, Nat.mod_eq_of_lt (by omega)]
  · intro va hlt' hva
    rw [guestTranslate, guestTranslate, hmaps.walk_out va (hslot va hlt') hva]

lemma blockAt_addr {b : BlockRef} {addr : ℕ} (hp : MachineOk p) (h : BlockAt p b addr) :
    Mm.MEM_BLOCK_SIZE ∣ addr ∧ addr + Mm.MEM_BLOCK_SIZE ≤ 2 ^ 48 := by
  obtain ⟨⟨ms, hms, hkind, hbit, -⟩, -, t, ht, rfl⟩ := h
  obtain rfl := Option.some.inj (hms.symm.trans ht)
  have hmem := List.mem_of_getElem? hms
  have hsize := hp.inv.layout.size ms hmem
  have hbound := hp.bound ms hmem
  rw [hkind, SectionKind.unit] at hsize
  have hmul : (b.bit + 1) * Mm.MEM_BLOCK_SIZE ≤ ms.nrBlocks * Mm.MEM_BLOCK_SIZE :=
    Nat.mul_le_mul_right _ hbit
  rw [add_mul] at hmul
  exact ⟨Nat.dvd_add (hp.aligned ms hmem hkind) (Nat.dvd_mul_left ..), by omega⟩

/-- The second loop of `alloc_vm_memory` maps the blocks one after the other, and nothing else. -/
lemma mapBlocks_spec (l : List BlockRef) {base : ℕ} (hok : MachineOk s.alloc)
    (hwf : WF guestFormat s.mem 2 root)
    (hd : Disjoint (avail pageOps s.alloc) (pages guestFormat s.mem 2 root))
    (hl : ∀ b ∈ l, ∃ addr, BlockAt s.alloc b addr) (hbase : Mm.MEM_BLOCK_SIZE ∣ base)
    (hend : base + l.length * Mm.MEM_BLOCK_SIZE ≤ GUEST_SPACE)
    (hr : Hv.mapBlocks root l base s = (0, s')) :
    (MachineOk s'.alloc ∧ Grows ∅ s.alloc s'.alloc) ∧
      (∀ i b, l[i]? = some b → ∀ va ∈ Set.Ico (base + i * Mm.MEM_BLOCK_SIZE)
        (base + i * Mm.MEM_BLOCK_SIZE + Mm.MEM_BLOCK_SIZE), guestTranslate s'.mem root va =
          some (Hv.blockPhyBase s.alloc b + (va - (base + i * Mm.MEM_BLOCK_SIZE)))) ∧
      ∀ va < GUEST_SPACE, va ∉ Set.Ico base (base + l.length * Mm.MEM_BLOCK_SIZE) →
        guestTranslate s'.mem root va = guestTranslate s.mem root va := by
  induction l generalizing base s with
  | nil =>
    simp only [Hv.mapBlocks, Prod.mk.injEq, true_and] at hr
    subst hr
    exact ⟨⟨hok, .refl _ _⟩, fun i b hb => by simp at hb, fun _ _ _ => rfl⟩
  | cons b rest ih =>
    obtain ⟨addr, hat⟩ := hl b List.mem_cons_self
    obtain ⟨haddr, hle⟩ := blockAt_addr hok hat
    rw [List.length_cons, add_mul, one_mul] at hend
    rw [Hv.mapBlocks, blockPhyBase_of_blockAt hat] at hr
    cases hcall : createGuestMapping pageOps root base addr Mm.MEM_BLOCK_SIZE VM_NORMAL s with
    | mk ret s₁ =>
      simp only [hcall] at hr
      by_cases hret : ret = 0
      · rw [if_neg (not_not.2 hret)] at hr
        rw [hret] at hcall
        obtain ⟨⟨hok₁, hg₁⟩, hwf₁, hd₁, hin, hout⟩ :=
          createGuestMapping_block hok hwf hd hbase (by omega) haddr hle hcall
        have hnext : add64 base Mm.MEM_BLOCK_SIZE = base + Mm.MEM_BLOCK_SIZE := by
          refine add64_of_lt ?_
          unfold GUEST_SPACE at hend
          omega
        rw [hnext] at hr
        have hl₁ : ∀ b ∈ rest, ∃ addr, BlockAt s₁.alloc b addr := fun b' hb' => by
          obtain ⟨addr', hat'⟩ := hl b' (List.mem_cons_of_mem _ hb')
          exact ⟨addr', hat'.grow hg₁⟩
        obtain ⟨⟨hok', hg'⟩, hin', hout'⟩ :=
          ih hok₁ hwf₁ hd₁ hl₁ (Nat.dvd_add hbase dvd_rfl) (by omega) hr
        refine ⟨⟨hok', hg₁.trans hg'⟩, fun i b' hb' va hva => ?_, fun va hlt hva => ?_⟩
        · cases i with
          | zero =>
            obtain rfl : b = b' := by simpa using hb'
            rw [zero_mul, add_zero] at hva ⊢
            have hout₁ := hout' va (lt_of_lt_of_le hva.2 (by omega)) fun h =>
              absurd hva.2 (not_lt.2 h.1)
            rw [hout₁, hin va hva, blockPhyBase_of_blockAt hat]
          | succ i =>
            rw [List.getElem?_cons_succ] at hb'
            have hshift : base + (i + 1) * Mm.MEM_BLOCK_SIZE =
                base + Mm.MEM_BLOCK_SIZE + i * Mm.MEM_BLOCK_SIZE := by
              rw [add_mul, one_mul]
              omega
            rw [hshift] at hva ⊢
            obtain ⟨addr', hat'⟩ := hl b' (List.mem_cons_of_mem _ (List.mem_of_getElem? hb'))
            rw [hin' i b' hb' va hva, blockPhyBase_of_blockAt hat',
              blockPhyBase_of_blockAt (hat'.grow hg₁)]
        · rw [List.length_cons, add_mul, one_mul] at hva
          rw [hout' va hlt fun h => hva
              ⟨le_trans (Nat.le_add_right _ _) h.1, by have := h.2; omega⟩,
            hout va hlt fun h => hva ⟨h.1, by have := h.2; omega⟩]
      · rw [if_pos hret] at hr
        exact absurd (congrArg Prod.fst hr) hret

end

/-! ### The memory of the guest -/

/-- `mem_base` as `vmtag_check_and_config` leaves it -/
def GuestTag.base (tag : GuestTag) : ℕ :=
  if tag.memBase = 0 then GVM_NORMAL_MEM_START else tag.memBase.toNat

/-- The stage 2 translation of a guest address by the table of the VM -/
def GuestMm.translate (mm : GuestMm) (s : Hv) (va : ℕ) : Option ℕ :=
  guestTranslate s.mem mm.pgdBase va

/-- The guest has its whole memory: every address of it is translated, into a block on the list of
the VM, different slots of 2MiB go to different blocks, and the end is in the range for guests. -/
structure OwnsMemory (base size : ℕ) (mm : GuestMm) (s : Hv) : Prop where
  owned : ∀ va ∈ Set.Ico base (base + size), ∃ b ∈ mm.blockList, ∃ addr, BlockAt s.pages b addr ∧
    ∃ off < Mm.MEM_BLOCK_SIZE, mm.translate s va = some (addr + off)
  apart : ∀ va ∈ Set.Ico base (base + size), ∀ va' ∈ Set.Ico base (base + size),
    va / Mm.MEM_BLOCK_SIZE ≠ va' / Mm.MEM_BLOCK_SIZE → ∀ pa pa', mm.translate s va = some pa →
      mm.translate s va' = some pa' → pa / Mm.MEM_BLOCK_SIZE ≠ pa' / Mm.MEM_BLOCK_SIZE
  fits : base + size < GVM_NORMAL_MEM_END

/-- The first `n` slots from `start` on are the blocks of the VM, and nothing else is mapped. -/
structure Mapped (start n : ℕ) (mm : GuestMm) (s : Hv) : Prop where
  ok : MachineOk s.pages
  owns : Owns s.pages mm.blockList
  length : mm.blockList.length = n
  slot : ∀ i b, mm.blockList[i]? = some b → ∀ addr, BlockAt s.pages b addr →
    ∀ va ∈ Set.Ico (start + i * Mm.MEM_BLOCK_SIZE)
      (start + i * Mm.MEM_BLOCK_SIZE + Mm.MEM_BLOCK_SIZE),
      mm.translate s va = some (addr + (va - (start + i * Mm.MEM_BLOCK_SIZE)))
  outside : ∀ va < GUEST_SPACE, va ∉ Set.Ico start (start + n * Mm.MEM_BLOCK_SIZE) →
    mm.translate s va = none

namespace Hv

variable {s s' : Hv}

/-- What `alloc_vm_memory` does when it succeeds. -/
lemma allocVmMemory_spec {mm : GuestMm} {mm' : Option GuestMm} (hok : MachineOk s.pages)
    (hroot : EmptyRoot mm.pgdBase s) (hnil : mm.blockList = [])
    (hfits : mm.virBase + mm.size < GVM_NORMAL_MEM_END)
    (hr : s.allocVmMemory mm = some (true, mm', s')) :
    ∃ mm₁, mm' = some mm₁ ∧ Mapped (mm.virBase / Mm.MEM_BLOCK_SIZE * Mm.MEM_BLOCK_SIZE)
      (mm.size / Mm.MEM_BLOCK_SIZE) mm₁ s' := by
  have hspace : GVM_NORMAL_MEM_END = 2 ^ 37 := rfl
  have hblock : Mm.MEM_BLOCK_SIZE = 2 ^ 21 := rfl
  rw [hspace] at hfits
  have hcount : (BitVec.ofNat 32 (mm.size >>> MEM_BLOCK_SHIFT)).toInt.toNat =
      mm.size / Mm.MEM_BLOCK_SIZE := by
    have hshift : mm.size >>> MEM_BLOCK_SHIFT = mm.size / 2 ^ 21 := Nat.shiftRight_eq_div_pow ..
    rw [hshift, hblock, BitVec.toInt_eq_toNat_cond, BitVec.toNat_ofNat]
    have hlt : mm.size / 2 ^ 21 < 2 ^ 16 := by omega
    rw [Nat.mod_eq_of_lt (by omega), if_pos (by omega), Int.toNat_natCast]
  have hbase : align mm.virBase Mm.MEM_BLOCK_SIZE =
      mm.virBase / Mm.MEM_BLOCK_SIZE * Mm.MEM_BLOCK_SIZE := by
    rw [hblock, align_pow (by omega) (by norm_num)]
  rw [allocVmMemory] at hr
  dsimp only at hr
  rw [hcount, hbase] at hr
  cases htake : takeBlocks (mm.size / Mm.MEM_BLOCK_SIZE) mm s with
  | mk ok r =>
    obtain ⟨mm₁, s₁⟩ := r
    cases ok with
    | false => simp [htake] at hr
    | true =>
      have howns₀ : Owns s.pages mm.blockList := by
        rw [hnil]
        exact ⟨List.nodup_nil, fun b hb => by cases hb⟩
      obtain ⟨hext, howns, hlen, hpgd⟩ := takeBlocks_spec _ hok howns₀ htake
      rw [hnil, List.length_nil, zero_add] at hlen
      have hroot₁ := hroot.extends hext
      rw [← hpgd] at hroot₁
      obtain ⟨hwf, hpages, hnone⟩ :=
        Radix.zero_table (F := guestFormat) (n := 2) hroot₁.zero hroot₁.aligned
      obtain ⟨-, hdisj⟩ := pageOps_supply hext.ok
      simp only [htake] at hr
      generalize hstart : mm.virBase / Mm.MEM_BLOCK_SIZE * Mm.MEM_BLOCK_SIZE = start at hr ⊢
      cases hmap : mapBlocks mm₁.pgdBase mm₁.blockList start ⟨s₁.mem, s₁.pages, mm₁.head⟩ with
      | mk ret t =>
        simp only [hmap] at hr
        by_cases hret : ret = 0
        · rw [if_neg (not_not.2 hret)] at hr
          simp only [Option.some.injEq, Prod.mk.injEq, true_and] at hr
          obtain ⟨rfl, rfl⟩ := hr
          rw [hret] at hmap
          have hdvd : Mm.MEM_BLOCK_SIZE ∣ start := hstart ▸ Nat.dvd_mul_left ..
          have hend : start + mm₁.blockList.length * Mm.MEM_BLOCK_SIZE ≤ GUEST_SPACE := by
            rw [hlen, ← hstart, hblock]
            unfold GUEST_SPACE
            omega
          have hd : Disjoint (avail pageOps s₁.pages)
              (Radix.pages guestFormat s₁.mem 2 mm₁.pgdBase) := by
            rw [hpages, Set.disjoint_singleton_right]
            exact fun hmem => Set.disjoint_left.1 hdisj hmem hroot₁.used
          obtain ⟨⟨hok', hg⟩, hin, hout⟩ := mapBlocks_spec mm₁.blockList (s := ⟨s₁.mem, s₁.pages,
            mm₁.head⟩) hext.ok hwf hd howns.placed hdvd hend hmap
          refine ⟨_, rfl, ⟨hok', howns.grow hg, hlen, ?_, ?_⟩⟩
          · intro i b hb addr hat va hva
            obtain ⟨addr', hat'⟩ := howns.placed b (List.mem_of_getElem? hb)
            have haddr : addr = addr' :=
              (blockPhyBase_of_blockAt hat).symm.trans (blockPhyBase_of_blockAt (hat'.grow hg))
            have htrans := hin i b hb va hva
            rw [blockPhyBase_of_blockAt hat', ← haddr] at htrans
            exact htrans
          · intro va hlt hva
            rw [← hlen] at hva
            have htrans := hout va hlt hva
            rw [guestTranslate, guestTranslate, hnone va, Option.map_none] at htrans
            exact htrans
        · rw [if_pos hret] at hr
          simp at hr

/-- A tag that is accepted: its base is set, and the end that is checked is the wrapped sum. -/
lemma vmtagCheckAndConfig_spec {nrCpus : ℕ} {tag tag' : GuestTag}
    (hr : vmtagCheckAndConfig nrCpus tag s = some (tag', s')) :
    tag'.memBase.toNat = tag.base ∧ tag'.memSize = tag.memSize ∧ s'.pages = s.pages ∧
      (tag.base + tag.memSize.toNat) % 2 ^ 64 < GVM_NORMAL_MEM_END := by
  have hbase : ∀ b : BitVec 64, b = (if tag.memBase = 0 then BitVec.ofNat 64 GVM_NORMAL_MEM_START
      else tag.memBase) → b.toNat = tag.base := by
    rintro b rfl
    rw [GuestTag.base]
    split_ifs
    · rfl
    · rfl
  rw [vmtagCheckAndConfig] at hr
  dsimp only at hr
  generalize hb : (if tag.memBase = 0 then BitVec.ofNat 64 GVM_NORMAL_MEM_START
    else tag.memBase) = b at hr
  specialize hbase b hb.symm
  split_ifs at hr with hlow hend hmem hnr hdyn
  · obtain ⟨rfl, rfl⟩ := Prod.mk.inj (Option.some.inj hr)
    rw [BitVec.toNat_add, hbase] at hend
    exact ⟨hbase, rfl, rfl, not_le.1 hend⟩
  · obtain ⟨rfl, rfl⟩ := Prod.mk.inj (Option.some.inj hr)
    rw [BitVec.toNat_add, hbase] at hend
    exact ⟨hbase, rfl, rfl, not_le.1 hend⟩

lemma initGuestMemory_spec {tag : GuestTag} {vm vm' : GuestVm} (hvm : NewVm vm s)
    (hr : s.initGuestMemory tag vm = some (some vm', s')) :
    ∃ mm, vm'.mm = some mm ∧ (tag.memBase.toNat + tag.memSize.toNat < GVM_NORMAL_MEM_END →
      Mapped (tag.memBase.toNat / Mm.MEM_BLOCK_SIZE * Mm.MEM_BLOCK_SIZE)
        (tag.memSize.toNat / Mm.MEM_BLOCK_SIZE) mm s') := by
  obtain ⟨mm, hmm, hnil, hok, hroot⟩ := hvm
  simp only [initGuestMemory, hmm] at hr
  cases hwindow : s.vmMmapInit tag.memSize.toNat with
  | none => simp [hwindow] at hr
  | some r =>
    obtain ⟨mmapBase, t⟩ := r
    have ht : t.pages = s.pages ∧ t.mem = s.mem := by
      rw [vmMmapInit] at hwindow
      split_ifs at hwindow
      obtain ⟨-, rfl⟩ := Prod.mk.inj (Option.some.inj hwindow)
      exact ⟨rfl, rfl⟩
    have hext : Extends s t := .of_eq hok ht.1 ht.2
    simp only [hwindow] at hr
    generalize hmm₁ : ({ mm with
      virBase := tag.memBase.toNat
      size := tag.memSize.toNat
      freeSize := tag.memSize.toNat
      hvmMmapBase := mmapBase } : GuestMm) = mm₁ at hr
    cases halloc : t.allocVmMemory mm₁ with
    | none => simp [halloc] at hr
    | some r =>
      obtain ⟨ok, mm₂, t₁⟩ := r
      cases ok with
      | false => simp [halloc] at hr
      | true =>
        simp only [halloc, Option.some.injEq, Prod.mk.injEq] at hr
        obtain ⟨rfl, rfl⟩ := hr
        have hroot₁ : EmptyRoot mm₁.pgdBase t := hmm₁ ▸ hroot.extends hext
        have hnil₁ : mm₁.blockList = [] := hmm₁ ▸ hnil
        have hvir : mm₁.virBase = tag.memBase.toNat := hmm₁ ▸ rfl
        have hsize : mm₁.size = tag.memSize.toNat := hmm₁ ▸ rfl
        rw [← hvir, ← hsize]
        by_cases hfits : mm₁.virBase + mm₁.size < GVM_NORMAL_MEM_END
        · obtain ⟨mm₃, rfl, hmapped⟩ := allocVmMemory_spec hext.ok hroot₁ hnil₁ hfits halloc
          exact ⟨mm₃, rfl, fun _ => hmapped⟩
        · cases mm₂ with
          | some mm₃ => exact ⟨mm₃, rfl, fun h => absurd h hfits⟩
          | none =>
            exfalso
            rw [allocVmMemory] at halloc
            dsimp only at halloc
            split at halloc
            · simp at halloc
            · split_ifs at halloc
              · simp at halloc
              · simp at halloc

/-- A VM that is returned has been checked, and its blocks are mapped if its end does not wrap. -/
lemma createGuestVm_spec {nrCpus : ℕ} {tag : GuestTag} {env : GuestEnv} {vm : GuestVm}
    (hok : MachineOk s.pages) (hr : s.createGuestVm nrCpus tag env = some (some vm, s')) :
    (tag.base + tag.memSize.toNat) % 2 ^ 64 < GVM_NORMAL_MEM_END ∧
      ∃ mm, vm.mm = some mm ∧ (tag.base + tag.memSize.toNat < GVM_NORMAL_MEM_END →
        Mapped (tag.base / Mm.MEM_BLOCK_SIZE * Mm.MEM_BLOCK_SIZE)
          (tag.memSize.toNat / Mm.MEM_BLOCK_SIZE) mm s') := by
  rw [createGuestVm] at hr
  split_ifs at hr
  · simp at hr
  · cases htag : vmtagCheckAndConfig nrCpus tag s with
    | none => simp [htag] at hr
    | some r =>
      obtain ⟨tag', t⟩ := r
      obtain ⟨hbase, hsize, hpages, hend⟩ := vmtagCheckAndConfig_spec htag
      refine ⟨hend, ?_⟩
      simp only [htag] at hr
      cases hvm : t.createVm nrCpus tag' env with
      | none => simp [hvm] at hr
      | some r =>
        obtain ⟨vm₀, t₁⟩ := r
        cases vm₀ with
        | none => simp [hvm] at hr
        | some vm₀ =>
          simp only [hvm] at hr
          have hnew := createVm_spec (hpages ▸ hok) hvm
          rw [← hbase, ← hsize]
          exact initGuestMemory_spec hnew hr

end Hv

/-! ### The claim -/

lemma Mapped.ownsMemory {base size : ℕ} {mm : GuestMm} {s : Hv}
    (h : Mapped (base / Mm.MEM_BLOCK_SIZE * Mm.MEM_BLOCK_SIZE) (size / Mm.MEM_BLOCK_SIZE) mm s)
    (hfits : base + size < GVM_NORMAL_MEM_END)
    (halign : size = 0 ∨ Mm.MEM_BLOCK_SIZE ∣ base ∧ Mm.MEM_BLOCK_SIZE ∣ size) :
    OwnsMemory base size mm s := by
  have hpos : 0 < Mm.MEM_BLOCK_SIZE := by decide
  -- the block behind an address
  have hslot : ∀ va ∈ Set.Ico base (base + size), ∃ i b addr, va / Mm.MEM_BLOCK_SIZE =
      base / Mm.MEM_BLOCK_SIZE + i ∧ mm.blockList[i]? = some b ∧ BlockAt s.pages b addr ∧
      mm.translate s va = some (addr + va % Mm.MEM_BLOCK_SIZE) := by
    rintro va ⟨hlo, hhi⟩
    obtain ⟨⟨k, rfl⟩, ⟨n, rfl⟩⟩ := halign.resolve_left (by omega)
    rw [Nat.mul_div_cancel_left _ hpos] at h ⊢
    rw [Nat.mul_div_cancel_left _ hpos] at h
    have hk : k ≤ va / Mm.MEM_BLOCK_SIZE := (Nat.le_div_iff_mul_le hpos).2 (by rwa [mul_comm])
    have hn : va / Mm.MEM_BLOCK_SIZE < k + n :=
      (Nat.div_lt_iff_lt_mul hpos).2 (by rwa [mul_comm, mul_add])
    obtain ⟨i, hi⟩ := Nat.exists_eq_add_of_le hk
    have hlt : i < mm.blockList.length := by
      rw [h.length]
      omega
    obtain ⟨addr, hat⟩ := h.owns.placed _ (List.getElem_mem hlt)
    have hdiv := Nat.div_add_mod va Mm.MEM_BLOCK_SIZE
    have hmod := Nat.mod_lt va hpos
    have hstart : k * Mm.MEM_BLOCK_SIZE + i * Mm.MEM_BLOCK_SIZE =
        Mm.MEM_BLOCK_SIZE * (va / Mm.MEM_BLOCK_SIZE) := by
      rw [hi, mul_add, mul_comm k, mul_comm i]
    refine ⟨i, mm.blockList[i], addr, hi, List.getElem?_eq_getElem hlt, hat, ?_⟩
    rw [h.slot i _ (List.getElem?_eq_getElem hlt) addr hat va ⟨by omega, by omega⟩]
    congr 2
    omega
  refine ⟨fun va hva => ?_, fun va hva va' hva' hne pa pa' hpa hpa' => ?_, hfits⟩
  · obtain ⟨i, b, addr, -, hb, hat, htrans⟩ := hslot va hva
    exact ⟨b, List.mem_of_getElem? hb, addr, hat, _, Nat.mod_lt _ hpos, htrans⟩
  · obtain ⟨i, b, addr, hi, hb, hat, htrans⟩ := hslot va hva
    obtain ⟨i', b', addr', hi', hb', hat', htrans'⟩ := hslot va' hva'
    rw [htrans, Option.some.injEq] at hpa
    rw [htrans', Option.some.injEq] at hpa'
    have hbb : b ≠ b' := by
      rintro rfl
      have hlt := (List.getElem?_eq_some_iff.1 hb).1
      have hii := (List.getElem?_inj hlt h.owns.nodup).1 (hb.trans hb'.symm)
      omega
    have hapart := BlockAt.apart h.ok hat hat' hbb
    have hblock : ∀ addr x, Mm.MEM_BLOCK_SIZE ∣ addr →
        (addr + x % Mm.MEM_BLOCK_SIZE) / Mm.MEM_BLOCK_SIZE = addr / Mm.MEM_BLOCK_SIZE := by
      rintro addr x ⟨q, rfl⟩
      rw [Nat.mul_add_div hpos, Nat.mul_div_cancel_left _ hpos,
        Nat.div_eq_of_lt (Nat.mod_lt x hpos), add_zero]
    rw [← hpa, ← hpa', hblock _ _ (blockAt_addr h.ok hat).1, hblock _ _ (blockAt_addr h.ok hat').1]
    exact hapart

lemma OwnsMemory.aligned {base size : ℕ} {mm : GuestMm} {s : Hv} (h : OwnsMemory base size mm s)
    (hmap : Mapped (base / Mm.MEM_BLOCK_SIZE * Mm.MEM_BLOCK_SIZE) (size / Mm.MEM_BLOCK_SIZE) mm s) :
    size = 0 ∨ Mm.MEM_BLOCK_SIZE ∣ base ∧ Mm.MEM_BLOCK_SIZE ∣ size := by
  by_contra hnot
  rw [not_or, not_and_or] at hnot
  obtain ⟨hsize, hodd⟩ := hnot
  rw [Nat.dvd_iff_mod_eq_zero, Nat.dvd_iff_mod_eq_zero] at hodd
  have hbase := Nat.div_add_mod' base Mm.MEM_BLOCK_SIZE
  have hdiv := Nat.div_add_mod' size Mm.MEM_BLOCK_SIZE
  have hfits := h.fits
  -- the last address is past the last block
  obtain ⟨b, -, addr, -, off, -, htrans⟩ := h.owned (base + size - 1) ⟨by omega, by omega⟩
  rw [hmap.outside (base + size - 1) ?_ ?_] at htrans
  · cases htrans
  · have hspace : GVM_NORMAL_MEM_END ≤ GUEST_SPACE := by decide
    omega
  · rintro ⟨-, hhi⟩
    omega

/-- The guest that `create_guest_vm` returns has its whole memory exactly if the end of the memory
does not wrap and both ends are ends of blocks, or there is no memory. -/
theorem create_guest_vm_owns_memory_iff {nrCpus : ℕ} {tag : GuestTag} {env : GuestEnv} {s s' : Hv}
    {vm : GuestVm} (hok : MachineOk s.pages)
    (hr : s.createGuestVm nrCpus tag env = some (some vm, s')) :
    ∃ mm, vm.mm = some mm ∧ (OwnsMemory tag.base tag.memSize.toNat mm s' ↔
      tag.base + tag.memSize.toNat < 2 ^ 64 ∧
        (tag.memSize.toNat = 0 ∨
          Mm.MEM_BLOCK_SIZE ∣ tag.base ∧ Mm.MEM_BLOCK_SIZE ∣ tag.memSize.toNat)) := by
  obtain ⟨hend, mm, hmm, hmapped⟩ := Hv.createGuestVm_spec hok hr
  refine ⟨mm, hmm, fun h => ?_, ?_⟩
  · have hspace : GVM_NORMAL_MEM_END ≤ 2 ^ 64 := by decide
    exact ⟨lt_of_lt_of_le h.fits hspace, h.aligned (hmapped h.fits)⟩
  · rintro ⟨hlt, halign⟩
    rw [Nat.mod_eq_of_lt hlt] at hend
    exact (hmapped hend).ownsMemory hend halign

/-- A machine with 16 blocks -/
def sixteenBlocks : Mm.Mem where
  memSections := [newSection .block 0x40000000 0x2000000 16]
  freeBlocks := 16
  pagesBitmaps _ _ := false

/-- The hypervisor on this machine, with nothing allocated yet -/
def freshHv : Hv where
  table := .init
  pidMap _ := false
  pages := .init sixteenBlocks
  mem := ⟨fun _ => 0, []⟩
  vm0Pgd := 0x1000
  vm0Head := []
  vm0SpiMap _ := false
  hvmNormalMmapBase := 0x2080000000
  hvmNormalMmapSize := 0xdf80000000
  hvmIomemMmapBase := 0x2000000000
  hvmIomemMmapSize := 0x80000000
  affinity := ⟨0, 0, 0, 0, 0, 0⟩
  allocated := []
  freed := []

def oneVcpuEnv : GuestEnv where
  tagMapped := true
  vm := .object 0x100
  vcpus := .object 0x200
  vcpusClear := true
  vcpu _ := ⟨.object 0x300, .object 0x400, .object 0x500⟩
  vspiMap := .fail

/-- A tag for one vcpu -/
def oneVcpuTag (base size : BitVec 64) : GuestTag where
  vmid := 1
  nrVcpu := 1
  vcpuAffinity _ := 0
  memBase := base
  memSize := size
  flags := 0

/-- What `create_guest_vm` returns for this tag, by what a guest address is translated to. -/
def createdTranslation (base size : BitVec 64) (va : ℕ) : Option (Option ℕ) :=
  (freshHv.createGuestVm 4 (oneVcpuTag base size) oneVcpuEnv).bind fun r =>
    r.1.bind fun vm => vm.mm.map fun mm => mm.translate r.2 va

lemma sixteenBlocks_layout : Layout sixteenBlocks where
  apart i j ms ms' hi hj hne := by
    obtain ⟨hi, -⟩ := List.getElem?_eq_some_iff.1 hi
    obtain ⟨hj, -⟩ := List.getElem?_eq_some_iff.1 hj
    simp only [sixteenBlocks, List.length_singleton] at hi hj
    omega
  size ms hms := by
    obtain rfl := List.mem_singleton.1 hms
    rfl
  bound ms hms := by
    obtain rfl := List.mem_singleton.1 hms
    decide
  aligned ms hms := by
    obtain rfl := List.mem_singleton.1 hms
    decide

lemma freshHv_machineOk : MachineOk freshHv.pages where
  inv := PageMem.init_inv sixteenBlocks_layout
  bound ms hms := by
    obtain rfl := List.mem_singleton.1 hms
    decide
  aligned ms hms _ := by
    obtain rfl := List.mem_singleton.1 hms
    decide
  zero i ms hms hz := by
    obtain rfl := List.mem_singleton.1 (List.mem_of_getElem? hms)
    cases hz

lemma createdTranslation_some {base size : BitVec 64} {va : ℕ} {pa : Option ℕ}
    (h : createdTranslation base size va = some pa) : ∃ vm mm s',
      freshHv.createGuestVm 4 (oneVcpuTag base size) oneVcpuEnv = some (some vm, s') ∧
      vm.mm = some mm ∧ mm.translate s' va = pa := by
  obtain ⟨⟨vm, s'⟩, hr, h⟩ := Option.bind_eq_some_iff.1 h
  obtain ⟨vm, hvm, h⟩ := Option.bind_eq_some_iff.1 h
  obtain ⟨mm, hmm, rfl⟩ := Option.map_eq_some_iff.1 h
  dsimp only at hvm
  subst hvm
  exact ⟨vm, mm, s', hr, hmm, rfl⟩

theorem create_guest_vm_owns_memory_one_block : ∃ vm mm s',
    freshHv.createGuestVm 4 (oneVcpuTag 0 0x200000) oneVcpuEnv = some (some vm, s') ∧
      vm.mm = some mm ∧ OwnsMemory 0x80000000 0x200000 mm s' := by
  have hsome : (createdTranslation 0 0x200000 0x80000000).isSome := by decide +kernel
  obtain ⟨pa, hpa⟩ := Option.isSome_iff_exists.1 hsome
  obtain ⟨vm, mm, s', hr, hmm, -⟩ := createdTranslation_some hpa
  obtain ⟨mm', hmm', hiff⟩ := create_guest_vm_owns_memory_iff freshHv_machineOk hr
  obtain rfl := Option.some.inj (hmm.symm.trans hmm')
  exact ⟨vm, mm, s', hr, hmm, hiff.2 ⟨by decide +kernel, .inr (by decide +kernel)⟩⟩

/-- Three requests that are accepted: half a block too much, a base in the middle of a block, and a
range that wraps. -/
theorem create_guest_vm_memory_cut :
    (∃ vm mm s', freshHv.createGuestVm 4 (oneVcpuTag 0 0x300000) oneVcpuEnv = some (some vm, s') ∧
      vm.mm = some mm ∧ ¬ OwnsMemory 0x80000000 0x300000 mm s') ∧
    (∃ vm mm s', freshHv.createGuestVm 4 (oneVcpuTag 0x80100000 0x200000) oneVcpuEnv =
      some (some vm, s') ∧ vm.mm = some mm ∧ ¬ OwnsMemory 0x80100000 0x200000 mm s') ∧
    ∃ vm mm s', freshHv.createGuestVm 4 (oneVcpuTag 0xffffffffffe00000 0x400000) oneVcpuEnv =
      some (some vm, s') ∧ vm.mm = some mm ∧ ¬ OwnsMemory 0xffffffffffe00000 0x400000 mm s' := by
  have hodd : createdTranslation 0 0x300000 0x80200000 = some none := by decide +kernel
  have hbase : createdTranslation 0x80100000 0x200000 0x80200000 = some none := by decide +kernel
  have hwrap : (createdTranslation 0xffffffffffe00000 0x400000 0).isSome := by decide +kernel
  refine ⟨?_, ?_, ?_⟩
  · obtain ⟨vm, mm, s', hr, hmm, hnone⟩ := createdTranslation_some hodd
    refine ⟨vm, mm, s', hr, hmm, fun h => ?_⟩
    obtain ⟨_, -, _, -, _, -, htrans⟩ := h.owned 0x80200000 (by decide)
    rw [hnone] at htrans
    cases htrans
  · obtain ⟨vm, mm, s', hr, hmm, hnone⟩ := createdTranslation_some hbase
    refine ⟨vm, mm, s', hr, hmm, fun h => ?_⟩
    obtain ⟨_, -, _, -, _, -, htrans⟩ := h.owned 0x80200000 (by decide)
    rw [hnone] at htrans
    cases htrans
  · obtain ⟨pa, hpa⟩ := Option.isSome_iff_exists.1 hwrap
    obtain ⟨vm, mm, s', hr, hmm, -⟩ := createdTranslation_some hpa
    exact ⟨vm, mm, s', hr, hmm, fun h => absurd h.fits (by decide)⟩

end Minos.Virt
