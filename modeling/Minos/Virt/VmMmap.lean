import Mathlib
import Minos.Mmu.GuestUnmap
import Minos.Mmu.RootIndex
import Minos.Mmu.TableNeeds

/-!
# The memory of a guest in VM0

`vm_mmap` copies the blocks of the first memory region of a guest into the table of VM0, from
`hvm_mmap_base` on, and `vm_unmmap` clears them. Both go through the tables of the last but one
level, and a table that VM0 does not have yet is made on the way. A table that is missing where
`vm_unmmap` looks for it is address 0, and the words there are cleared.
-/

namespace Minos.Virt

open Minos.Mmu Radix WordMem

def EIO : ℤ := 5

def PMD_MAP_SIZE : ℕ := SIZE_2M
def PMD_RANGE_OFFSET : ℕ := 21
def PAGE_MAPPING_COUNT : ℕ := 512
def PAGETABLE_ATTR_MASK : ℕ := 0x0000ffffffe00000

/-- `pmd_idx` -/
def pmdIdx (vir : ℕ) : ℕ := vir >>> PMD_RANGE_OFFSET &&& (PAGE_MAPPING_COUNT - 1)

/-- `mapping_error` -/
def MappingError (r : ℕ) : Prop := 0 < r ∧ r ≤ 6

instance (r : ℕ) : Decidable (MappingError r) := inferInstanceAs (Decidable (_ ∧ _))

/-- The part of `struct mm_struct` that the two functions use, with its first memory region -/
structure MmapMm where
  pgdBase : ℕ
  hvmMmapBase : ℕ
  virBase : ℕ
  size : ℕ
  freeSize : ℕ

/-- The variables of the loops of `vm_mmap` -/
structure MmapLoop (σ : Type) where
  vir : ℕ
  phy : ℕ
  virOff : ℕ
  phyOff : ℕ
  vm0Pmd : ℕ
  s : MmState σ

variable {σ : Type} (A : PageOps σ)

/-- A round of the inner loop, which is `false` when there is no page for a table. -/
def mmapEntry (pgd0 attr vmPmd : ℕ) (c : MmapLoop σ) : Bool × MmapLoop σ :=
  let value := c.s.mem.word (vmPmd + 8 * c.virOff) &&& PAGETABLE_ATTR_MASK ||| attr
  let s := { c.s with mem := c.s.mem.store (c.vm0Pmd + 8 * c.phyOff) value }
  let vir := add64 c.vir PMD_MAP_SIZE
  let phy := add64 c.phy PMD_MAP_SIZE
  let virOff := c.virOff + 1
  let phyOff := c.phyOff + 1
  if phyOff &&& (PAGE_MAPPING_COUNT - 1) = 0 then
    let r := allocGuestPmd A pgd0 phy s
    (r.1 ≠ 0, ⟨vir, phy, virOff, 0, r.1, r.2⟩)
  else (true, ⟨vir, phy, virOff, phyOff, c.vm0Pmd, s⟩)

/-- The inner loop, with the number of rounds left -/
def mmapEntries (pgd0 attr vmPmd : ℕ) : ℕ → MmapLoop σ → Bool × MmapLoop σ
  | 0, c => (true, c)
  | k + 1, c =>
    let r := mmapEntry A pgd0 attr vmPmd c
    if r.1 then mmapEntries pgd0 attr vmPmd k r.2 else r

lemma pmdIdx_lt (vir : ℕ) : pmdIdx vir < PAGE_MAPPING_COUNT :=
  lt_of_le_of_lt Nat.and_le_right (by decide)

/-- The outer loop -/
def mmapTables (pgd0 pgdBase attr left : ℕ) (c : MmapLoop σ) : ℤ × MmState σ :=
  if _hleft : left = 0 then (0, c.s)
  else
    let vmPmd := getMappingPmd c.s.mem pgdBase c.vir 0
    if MappingError vmPmd then (- EIO, c.s)
    else
      let virOff := pmdIdx c.vir
      let count := min (PAGE_MAPPING_COUNT - virOff) left
      let r := mmapEntries A pgd0 attr vmPmd count { c with virOff := virOff }
      if r.1 then mmapTables pgd0 pgdBase attr (left - count) r.2 else (-ENOMEM, r.2.s)
termination_by left
decreasing_by
  have := pmdIdx_lt c.vir
  omega

/-- How many entries `vm_mmap` copies. A count that is negative as an `int` ends the loop at
once. -/
def mmapLeft (mm : MmapMm) (offset size : ℕ) : ℕ :=
  let offset := align offset PMD_MAP_SIZE
  let size := balign size PMD_MAP_SIZE
  let size := if mm.freeSize < add64 offset size then sub64 mm.size offset else size
  let left := size >>> PMD_RANGE_OFFSET % 2 ^ 32
  if left < 2 ^ 31 then left else 0

/-- `vm_mmap`, where `pgd0` is the table of VM0 -/
def vmMmap (pgd0 : ℕ) (mm : MmapMm) (offset size : ℕ) (s : MmState σ) : ℤ × MmState σ :=
  if mm.size < size then (-EINVAL, s)
  else
    let vir := add64 mm.virBase (align offset PMD_MAP_SIZE)
    let phy := add64 mm.hvmMmapBase (align offset PMD_MAP_SIZE)
    let r := allocGuestPmd A pgd0 phy s
    if r.1 = 0 then (-ENOMEM, r.2)
    else
      mmapTables A pgd0 mm.pgdBase (pageTableDescription (VM_DES_BLOCK ||| VM_NORMAL))
        (mmapLeft mm offset size) ⟨vir, phy, 0, pmdIdx phy, r.1, r.2⟩

/-- The `memset` of `vm_unmmap`, which sets words to zero. -/
def clearWords (a : ℕ) : ℕ → Mem → Mem
  | 0, m => m
  | k + 1, m => clearWords (a + 8) k (m.store a 0)

/-- The loop of `vm_unmmap` -/
def unmmapTables (pgd0 left phy : ℕ) (m : Mem) : Mem :=
  if _hleft : left = 0 then m
  else
    let vm0Pmd := getMappingPmd m pgd0 phy 0
    if MappingError vm0Pmd then m
    else
      let offset := pmdIdx phy
      let count := min (PAGE_MAPPING_COUNT - offset) left
      unmmapTables pgd0 (left - count) (add64 phy (count <<< PMD_RANGE_OFFSET))
        (clearWords (vm0Pmd + 8 * offset) count m)
termination_by left
decreasing_by
  have := pmdIdx_lt phy
  omega

/-- `vm_unmmap` -/
def vmUnmmap (pgd0 : ℕ) (mm : MmapMm) (s : MmState σ) : MmState σ :=
  let left := mm.size >>> PMD_RANGE_OFFSET % 2 ^ 32
  let left := if left < 2 ^ 31 then left else 0
  { s with mem := unmmapTables pgd0 left mm.hvmMmapBase s.mem }

/-! ### Words -/

lemma pmdIdx_eq (vir : ℕ) : pmdIdx vir = slot 1 vir % 512 := by
  rw [pmdIdx, PMD_RANGE_OFFSET, PAGE_MAPPING_COUNT, show 512 - 1 = 2 ^ 9 - 1 from rfl,
    Nat.and_two_pow_sub_one_eq_mod, Nat.shiftRight_eq_div_pow]
  rfl

lemma attr_leaf : IsLeafDesc 1 (pageTableDescription (VM_DES_BLOCK ||| VM_NORMAL)) := by
  decide

/-- The word that `vm_mmap` makes of a block of the guest is a block with its output address. -/
lemma mmapWord_eq {w attr : ℕ} (ha : IsLeafDesc 1 attr) :
    (w &&& PAGETABLE_ATTR_MASK ||| attr) % 4 = 1 ∧
      outField 1 (w &&& PAGETABLE_ATTR_MASK ||| attr) = outField 1 w := by
  have hmask : w &&& PAGETABLE_ATTR_MASK = w % 2 ^ 48 / 2 ^ 21 * 2 ^ 21 := by
    have hlow : w &&& PAGETABLE_ATTR_MASK = w % 2 ^ 48 &&& (2 ^ 48 - 2 ^ 21) := by
      rw [show 2 ^ 48 - 2 ^ 21 = PAGETABLE_ATTR_MASK % 2 ^ 48 from by decide, ← Nat.and_mod_two_pow]
      exact (Nat.mod_eq_of_lt (lt_of_le_of_lt Nat.and_le_right (by decide))).symm
    rw [hlow, BitField.and_compl_mask (Nat.mod_lt _ (by norm_num)) (by norm_num)]
  rw [hmask]
  generalize hq : w % 2 ^ 48 / 2 ^ 21 = q
  have hlt : q < 2 ^ 27 := by omega
  obtain ⟨htype, hattr⟩ := ha
  constructor
  · rw [show 4 = 2 ^ 2 from rfl, Nat.or_mod_two_pow, show q * 2 ^ 21 % 2 ^ 2 = 0 by omega,
      Nat.zero_or]
    exact htype
  · have hzero : attr % 2 ^ 48 / 2 ^ 21 = 0 := by
      unfold AttrOnly at hattr
      omega
    rw [outField, outField, show 12 + 9 * 1 = 21 from rfl, hq, Nat.or_mod_two_pow,
      Nat.or_div_two_pow, hzero, Nat.or_zero, show q * 2 ^ 21 % 2 ^ 48 / 2 ^ 21 = q by omega]

/-! ### Tables -/

/-- The root leads to this table of the last but one level for `va`. -/
def PmdAt (m : Mem) (root va t : ℕ) : Prop :=
  plainGuestFormat.decode 2 (m.word (entryAddr root (slot 2 va))) = .table t

/-- The tables of VM0 and of the guests share no page, and none of them takes page 0. -/
structure HvmTables (A : PageOps σ) (roots : Set ℕ) (s : MmState σ) : Prop where
  wf : ∀ root ∈ roots, WF plainGuestFormat s.mem 2 root
  zero : ∀ root ∈ roots, 0 ∉ pages plainGuestFormat s.mem 2 root
  supply : Supply A s.alloc
  fresh : ∀ root ∈ roots, Disjoint (avail A s.alloc) (pages plainGuestFormat s.mem 2 root)
  apart : roots.Pairwise fun root root' =>
    Disjoint (pages plainGuestFormat s.mem 2 root) (pages plainGuestFormat s.mem 2 root')

variable {A} {roots : Set ℕ} {m : Mem} {s s' : MmState σ} {root va t : ℕ}

/-- An update of the table of VM0 that may also store to page 0 -/
abbrev Hvm0 (A : PageOps σ) (pgd0 : ℕ) (R : Set ℕ) (g : ℕ → Option Leaf) (s s' : MmState σ) :
    Prop := MapsOver A {0} plainGuestFormat 2 pgd0 0 R g s s'

namespace HvmTables

variable {pgd0 : ℕ} {R : Set ℕ} {g : ℕ → Option Leaf}

/-- An update of the table of VM0 leaves the tables of the others as they are. -/
lemma others (h : HvmTables A roots s) (h0 : pgd0 ∈ roots) (hm : Hvm0 A pgd0 R g s s')
    (hroot : root ∈ roots) (hne : root ≠ pgd0) :
    AgreeOn (pages plainGuestFormat s.mem 2 root) s.mem s'.mem := by
  refine hm.confined.agreeOn (fun p hp => ?_) (h.wf root hroot).pages_aligned ?_
  · rcases hp with hp | hp | rfl
    · exact (h.wf pgd0 h0).pages_aligned p hp
    · exact h.supply.aligned p hp
    · exact dvd_zero 4096
  · exact Disjoint.union_left (h.apart h0 hroot hne.symm)
      (Disjoint.union_left (h.fresh root hroot) (Set.disjoint_singleton_left.2 (h.zero root hroot)))

lemma step (h : HvmTables A roots s) (h0 : pgd0 ∈ roots) (hm : Hvm0 A pgd0 R g s s') :
    HvmTables A roots s' := by
  have hother := fun root (hroot : root ∈ roots) (hne : root ≠ pgd0) =>
    congr_of_agreeOn (h.others h0 hm hroot hne)
  have hpages0 : pages plainGuestFormat s'.mem 2 pgd0 ⊆
      pages plainGuestFormat s.mem 2 pgd0 ∪ avail A s.alloc := by
    obtain ⟨N, hN, -, hsub, -⟩ := hm
    exact hsub.trans (Set.union_subset_union_right _ hN)
  have hnew : ∀ root ∈ roots, root ≠ pgd0 → Disjoint (pages plainGuestFormat s'.mem 2 pgd0)
      (pages plainGuestFormat s'.mem 2 root) := by
    intro root hroot hne
    rw [(hother root hroot hne).2.1]
    exact (Disjoint.union_left (h.apart h0 hroot hne.symm) (h.fresh root hroot)).mono_left hpages0
  constructor
  case wf =>
    intro root hroot
    by_cases hne : root = pgd0
    · exact hne ▸ hm.wf
    · exact (hother root hroot hne).2.2 (h.wf root hroot)
  case zero =>
    intro root hroot hin
    by_cases hne : root = pgd0
    · subst hne
      exact (hpages0 hin).elim (h.zero root hroot) fun hp => h.supply.ne_zero 0 hp rfl
    · rw [(hother root hroot hne).2.1] at hin
      exact h.zero root hroot hin
  case supply => exact hm.supply
  case fresh =>
    intro root hroot
    by_cases hne : root = pgd0
    · exact hne ▸ hm.fresh (h.fresh pgd0 h0)
    · rw [(hother root hroot hne).2.1]
      exact (h.fresh root hroot).mono_left hm.avail_subset
  case apart =>
    intro root₁ h₁ root₂ h₂ hne
    by_cases heq₁ : root₁ = pgd0
    · subst heq₁
      exact hnew root₂ h₂ hne.symm
    · by_cases heq₂ : root₂ = pgd0
      · subst heq₂
        exact (hnew root₁ h₁ hne).symm
      · rw [(hother root₁ h₁ heq₁).2.1, (hother root₂ h₂ heq₂).2.1]
        exact h.apart h₁ h₂ hne

end HvmTables

/-! ### The last table but one -/

/-- Where a table is, `get_mapping_pmd` finds it. -/
lemma getMappingPmd_of_pmdAt (hwf : WF plainGuestFormat m 2 root) (h : PmdAt m root va t) :
    getMappingPmd m root va 0 = t := by
  have hentry : root + 8 * (va / 2 ^ 30 % 512) = entryAddr root (slot 2 va) := rfl
  rw [getMappingPmd_guest, hentry]
  rcases plain_entry_cases hwf (e := slot 2 va) with h0 | ⟨h3, hlt, hd⟩ | ⟨hn, -⟩
  · rw [PmdAt, h0, plainGuestFormat.decode_zero] at h
    cases h
  · obtain rfl := Entry.table.inj (hd.symm.trans h)
    generalize m.word (entryAddr root (slot 2 va)) = w at hlt
    rw [show 0xfffffffffffff000 = lnot (2 ^ 12 - 1) by rw [lnot]; rfl,
      and_lnot_pow (by omega) (by norm_num), outField, Nat.mod_eq_of_lt hlt]
  · omega

/-- Where there is none it finds address 0, and nothing is translated. -/
lemma getMappingPmd_cases (hwf : WF plainGuestFormat m 2 root) (va : ℕ) :
    (∃ t, PmdAt m root va t) ∨ m.word (entryAddr root (slot 2 va)) = 0 := by
  rcases plain_entry_cases hwf (e := slot 2 va) with h0 | ⟨-, -, hd⟩ | ⟨hn, -⟩
  · exact .inr h0
  · exact .inl ⟨_, hd⟩
  · omega

lemma getMappingPmd_of_empty (h : m.word (entryAddr root (slot 2 va)) = 0) :
    getMappingPmd m root va 0 = 0 := by
  rw [getMappingPmd_guest,
    show root + 8 * (va / 2 ^ 30 % 512) = entryAddr root (slot 2 va) from rfl, h, Nat.zero_and]

lemma walk_of_empty {va' : ℕ} (h : m.word (entryAddr root (slot 2 va)) = 0)
    (hva : slot 2 va' = slot 2 va) : walk plainGuestFormat m 2 root va' = none := by
  rw [walk, hva, h, plainGuestFormat.decode_zero]

namespace PmdAt

lemma mem_pages (h : PmdAt m root va t) : t ∈ pages plainGuestFormat m 2 root :=
  pages_child_subset (Nat.mod_lt _ (by norm_num)) h (self_mem_pages m 1 t)

lemma wf (h : PmdAt m root va t) (hwf : WF plainGuestFormat m 2 root) :
    WF plainGuestFormat m 1 t := hwf.child (Nat.mod_lt _ (by norm_num)) h

/-- The words of a table that is there are those the translation reads. -/
lemma block {x : ℕ} (h : PmdAt m root va t)
    (hwalk : walk plainGuestFormat m 2 root va = some ⟨1, x⟩) :
    x = outField 1 (m.word (entryAddr t (slot 1 va))) + va % 2 ^ 21 := by
  rw [walk_table h] at hwalk
  rcases walk_cases hwalk with ⟨b, hb, -⟩ | ⟨t', -, hx⟩
  · simp only [walk, hb] at hwalk
    have hx : b + va % 2 ^ (12 + 9 * (0 + 1)) = x := by simpa using hwalk
    rw [show (desFormat true false).decode = desDecode from rfl, desDecode] at hb
    split_ifs at hb with _ hz
    · exact hz.elim
    · rw [← hx, ← Entry.leaf.inj hb]
  · exact absurd (walk_lvl_le hx) (by simp)

/-- A store to an entry of the table leaves the table where it is. -/
lemma store {e d : ℕ} (h : PmdAt m root va t) (hwf : WF plainGuestFormat m 2 root) :
    PmdAt (m.store (entryAddr t e) d) root va t := by
  have hne : entryAddr root (slot 2 va) ≠ entryAddr t e := by
    intro heq
    have hb := entryAddr_bounds t e
    have hb' := entryAddr_bounds root (slot 2 va)
    have hpage := page_eq_of_inPage hwf.aligned (h.wf hwf).aligned hb' (heq ▸ hb)
    exact hwf.root_notMem (Nat.mod_lt _ (by norm_num)) h (by
      rw [hpage]
      exact self_mem_pages m 1 t)
  rw [PmdAt, m.store_word_ne d hne]
  exact h

end PmdAt

/-! ### Updates of the table of VM0 -/

namespace HvmTables

variable {pgd0 : ℕ}

/-- A store of a block, or of zero, to an entry of a table of VM0 -/
lemma setEntry {d : ℕ} (h : HvmTables A roots s) (h0 : pgd0 ∈ roots) (ht : PmdAt s.mem pgd0 va t)
    (hva : va < GUEST_SPACE) (hd : d = 0 ∨ d % 4 = 1) :
    Hvm0 A pgd0 {va' | slot 1 va' = slot 1 va}
      (fun va' => (plainGuestFormat.decode 1 d).out 1 va') s
      { s with mem := s.mem.store (entryAddr t (slot 1 va)) d } := by
  have hwf := h.wf pgd0 h0
  have hlegal : plainGuestFormat.Legal 1 d := by
    rcases hd with rfl | hd
    · exact plainGuestFormat.legal_zero 1
    · exact .inr (.inr (.inl ⟨hd, .inl rfl⟩))
  have htable : ∀ a, plainGuestFormat.decode 1 d ≠ .table a := by
    rcases hd with rfl | hd
    · simp [plainGuestFormat.decode_zero]
    · simp [desFormat, desDecode, hd]
  have hset := Remap.setEntry (W := slot 2 va) (ht.wf hwf) hlegal htable (slot_succ 1 va).symm
  have hlift := hset.lift hwf ht (by simp) (by simp) fun va' hva' => slot_mono_eq one_le_two hva'
  have hslot : slot 2 va / 512 = 0 := by
    rw [← slot_succ]
    exact Nat.div_eq_of_lt hva
  rw [hslot] at hlift
  exact MapsOver.of_maps (Maps.of_remap hlift h.supply rfl)

/-- The page that `create_pud_mapping` enters as a table -/
lemma setPmd {p : ℕ} {a : σ} (h : HvmTables A roots s) (h0 : pgd0 ∈ roots) (hva : va < GUEST_SPACE)
    (g : ℕ → Option Leaf) (hempty : s.mem.word (entryAddr pgd0 (slot 2 va)) = 0)
    (halloc : A.allocPage s.alloc = some (p, a)) :
    let m := createPudMapping pgd0 va p VM_DES_TABLE (s.mem.zeroPage p)
    PmdAt m pgd0 va p ∧ Hvm0 A pgd0 ∅ g s ⟨m, a, p :: s.head⟩ := by
  intro m
  have hwf := h.wf pgd0 h0
  have hmem := mem_avail_of_alloc halloc
  have hlt := h.supply.lt p hmem
  have hal := h.supply.aligned p hmem
  have hm : m = (s.mem.zeroPage p).store (entryAddr pgd0 (slot 2 va)) (desWord 3 p) := by
    have hindex : pgd0 + 8 * (va >>> Level.pud.rangeOffset) = entryAddr pgd0 (slot 2 va) :=
      (rootEntry_of_lt hva).symm
    have hdes : pageTableDescription VM_DES_TABLE = 3 := by decide
    have hword :
        (p &&& 0xfffffffffffff000) ||| pageTableDescription VM_DES_TABLE = desWord 3 p := by
      rw [Nat.or_comm, desWord, DESC_MASK, hdes,
        show 0xfffffffffffff000 = lnot (1 <<< 12 - 1) by rw [lnot]; rfl]
    rw [← hindex, ← hword]
    rfl
  have hmod : desWord 3 p % 4 = 3 := desWord_mod_four 3 (by omega)
  have hout : outField 0 (desWord 3 p) = p := by
    rw [desWord_outField 0 (show 3 % 2 ^ 48 / 2 ^ 12 = 0 by norm_num) (by omega), outField]
    omega
  have hword : desWord 3 p < 2 ^ 48 :=
    Nat.or_lt_two_pow (by norm_num) (lt_of_le_of_lt Nat.and_le_left hlt)
  have hdec : plainGuestFormat.decode 2 (desWord 3 p) = .table p := by
    simp [desFormat, desDecode, hmod, hout]
  have hgrow := Remap.grow (W := 0) g hwf (e := slot 2 va)
    (Confined.zeroPage s.mem (Set.mem_singleton p))
    (fun a h₁ h₂ => s.mem.zeroPage_word_in h₁ h₂) hal
    (fun hp => Set.disjoint_left.1 (h.fresh pgd0 h0) hmem hp)
    ((isDes_desFormat true false).legal_table 2 _ hmod hword) hdec
    (by rw [hempty, plainGuestFormat.decode_zero])
  rw [← hm] at hgrow
  refine ⟨?_, MapsOver.of_maps ⟨{p}, Set.singleton_subset_iff.2 hmem, hgrow,
    h.supply.of_alloc halloc, avail_subset_of_alloc halloc,
    Set.disjoint_singleton_left.2 (h.supply.notMem_of_alloc halloc)⟩⟩
  rw [PmdAt, hm, Mem.store_word_self]
  exact hdec

/-- `alloc_guest_pmd` finds a table of VM0 or makes one, when there is a page. -/
lemma allocGuestPmd (h : HvmTables A roots s) (h0 : pgd0 ∈ roots) (hva : va < GUEST_SPACE)
    (g : ℕ → Option Leaf) :
    (allocGuestPmd A pgd0 va s).1 = 0 ∧ (allocGuestPmd A pgd0 va s).2 = s ∨
    (allocGuestPmd A pgd0 va s).1 ≠ 0 ∧
      PmdAt (allocGuestPmd A pgd0 va s).2.mem pgd0 va (allocGuestPmd A pgd0 va s).1 ∧
      Hvm0 A pgd0 ∅ g s (allocGuestPmd A pgd0 va s).2 := by
  have hwf := h.wf pgd0 h0
  have hpgd : pgd0 ≠ 0 := fun heq => h.zero pgd0 h0 (heq ▸ self_mem_pages s.mem 2 pgd0)
  have hfind : getMappingEntry s.mem va Level.pmd.lvl .pud pgd0 = getMappingPmd s.mem pgd0 va 0 :=
    rfl
  rw [Mmu.allocGuestPmd, if_neg hpgd, hfind]
  rcases getMappingPmd_cases hwf va with ⟨t, ht⟩ | hempty
  · have hne : t ≠ 0 := fun heq => h.zero pgd0 h0 (heq ▸ ht.mem_pages)
    rw [getMappingPmd_of_pmdAt hwf ht, if_pos hne]
    exact .inr ⟨hne, ht, MapsOver.of_maps (Maps.of_remap (Remap.refl g hwf) h.supply rfl)⟩
  · rw [getMappingPmd_of_empty hempty, if_neg (not_not.2 rfl)]
    cases halloc : A.allocPage s.alloc with
    | none =>
      have hnone : allocMappingPage A s = (0, s) := by rw [allocMappingPage, halloc]
      rw [hnone]
      exact .inl ⟨rfl, rfl⟩
    | some r =>
      obtain ⟨p, a⟩ := r
      have hne := h.supply.ne_zero p (mem_avail_of_alloc halloc)
      have hsome : allocMappingPage A s = (p, ⟨s.mem.zeroPage p, a, p :: s.head⟩) := by
        rw [allocMappingPage, halloc]
      rw [hsome]
      dsimp only
      rw [if_pos hne]
      exact .inr ⟨hne, h.setPmd h0 hva g hempty halloc⟩

end HvmTables

/-! ### Windows -/

namespace MmapMm

/-- The address of the guest that is shown at an address of VM0 -/
def guestVa (mm : MmapMm) (va : ℕ) : ℕ := mm.virBase + (va - mm.hvmMmapBase)

/-- What the guest has there -/
def shown (mm : MmapMm) (m : Mem) (va : ℕ) : Option Leaf :=
  walk plainGuestFormat m 2 mm.pgdBase (mm.guestVa va)

/-- The addresses of VM0 that are kept for the memory of the guest -/
def window (mm : MmapMm) : Set ℕ := Set.Ico mm.hvmMmapBase (mm.hvmMmapBase + mm.size)

end MmapMm

/-- The window and the memory of a guest start at a block and lie in the space of a table. All the
memory is mapped by blocks. -/
structure MmapOk (roots : Set ℕ) (pgd0 : ℕ) (mm : MmapMm) (m : Mem) : Prop where
  root : mm.pgdBase ∈ roots
  ne : mm.pgdBase ≠ pgd0
  hvm_dvd : 2 ^ 21 ∣ mm.hvmMmapBase
  vir_dvd : 2 ^ 21 ∣ mm.virBase
  hvm_lt : mm.hvmMmapBase + mm.size < GUEST_SPACE
  vir_le : mm.virBase + mm.size ≤ GUEST_SPACE
  free_le : mm.freeSize ≤ mm.size
  populated : ∀ va ∈ mm.window, ∃ x, mm.shown m va = some ⟨1, x⟩

/-- `vm_mmap` has copied the blocks from `lo` on to where it is. -/
structure Copied (A : PageOps σ) (pgd0 : ℕ) (mm : MmapMm) (s : MmState σ) (lo : ℕ)
    (c : MmapLoop σ) : Prop where
  maps : Hvm0 A pgd0 (Set.Ico lo c.phy) (mm.shown s.mem) s c.s
  vir : c.vir = mm.guestVa c.phy
  dvd : 2 ^ 21 ∣ c.phy
  lo_le : lo ≤ c.phy
  base_le : mm.hvmMmapBase ≤ lo

/-- The next entry to write is in the table for the address. -/
def MmapLoop.Aims (c : MmapLoop σ) (pgd0 : ℕ) : Prop :=
  PmdAt c.s.mem pgd0 c.phy c.vm0Pmd ∧ c.phyOff = slot 1 c.phy % 512

lemma MmapLoop.aims_mk {pgd0 vir phy virOff phyOff vm0Pmd : ℕ}
    (hpmd : PmdAt s.mem pgd0 phy vm0Pmd) (hoff : phyOff = slot 1 phy % 512) :
    (⟨vir, phy, virOff, phyOff, vm0Pmd, s⟩ : MmapLoop σ).Aims pgd0 :=
  ⟨hpmd, hoff⟩

section

variable {pgd0 vmPmd attr lo W : ℕ} {mm : MmapMm} {c : MmapLoop σ}

/-- The words of the guest are still there. -/
lemma HvmTables.word_guest (h : HvmTables A roots s) (h0 : pgd0 ∈ roots)
    (hmm : MmapOk roots pgd0 mm s.mem) {R : Set ℕ} {g : ℕ → Option Leaf}
    (hm : Hvm0 A pgd0 R g s s') {p : ℕ} (hp : p ∈ pages plainGuestFormat s.mem 2 mm.pgdBase)
    (e : ℕ) : s'.mem.word (entryAddr p e) = s.mem.word (entryAddr p e) :=
  h.others h0 hm hmm.root hmm.ne p hp _ (entryAddr_bounds p e).1 (entryAddr_bounds p e).2

namespace MmapOk

/-- Every address of the window is shown by a table of the guest. -/
lemma pmdAt (hmm : MmapOk roots pgd0 mm m) {va : ℕ} (hva : va ∈ mm.window) :
    ∃ t, PmdAt m mm.pgdBase (mm.guestVa va) t := by
  obtain ⟨x, hx⟩ := hmm.populated va hva
  rcases walk_cases hx with ⟨b, -, hlvl⟩ | ⟨t, ht, -⟩
  · exact absurd hlvl (by simp)
  · exact ⟨t, ht⟩

/-- The block that shows the addresses of a slot of the window -/
lemma shown_eq (hmm : MmapOk roots pgd0 mm m) {va va' t : ℕ} (hva : 2 ^ 21 ∣ va)
    (hbase : mm.hvmMmapBase ≤ va) (hend : va + 2 ^ 21 ≤ mm.hvmMmapBase + mm.size)
    (ht : PmdAt m mm.pgdBase (mm.guestVa va) t) (hslot : slot 1 va' = slot 1 va) :
    mm.shown m va' =
      some ⟨1, outField 1 (m.word (entryAddr t (slot 1 (mm.guestVa va)))) + va' % 2 ^ 21⟩ := by
  have hhvm := hmm.hvm_dvd
  have hvir := hmm.vir_dvd
  have hslot' : slot 1 (mm.guestVa va') = slot 1 (mm.guestVa va) := by
    unfold slot MmapMm.guestVa at *
    omega
  have hmod : mm.guestVa va' % 2 ^ 21 = va' % 2 ^ 21 := by
    unfold slot at hslot
    unfold MmapMm.guestVa
    omega
  obtain ⟨x, hx⟩ := hmm.populated va' (by
    unfold slot at hslot
    exact Set.mem_Ico.2 (by omega))
  have ht' : PmdAt m mm.pgdBase (mm.guestVa va') t := by
    rw [PmdAt, slot_mono_eq one_le_two hslot']
    exact ht
  have hblock := ht'.block hx
  rw [hslot', hmod] at hblock
  rw [hx, hblock]

end MmapOk

lemma slot_two_add {va : ℕ} (h : (slot 1 va % 512 + 1) % 512 ≠ 0) :
    slot 2 (va + 2 ^ 21) = slot 2 va := by
  unfold slot at *
  omega

/-- The store of a round of the inner loop -/
lemma Copied.store (hc : Copied A pgd0 mm s lo c) (h : HvmTables A roots s) (h0 : pgd0 ∈ roots)
    (hmm : MmapOk roots pgd0 mm s.mem) (hattr : IsLeafDesc 1 attr) (ha : c.Aims pgd0)
    (hend : c.phy + 2 ^ 21 ≤ mm.hvmMmapBase + mm.size) (hpmd : PmdAt s.mem mm.pgdBase c.vir vmPmd)
    (hoff : c.virOff = slot 1 c.vir % 512) :
    let value := c.s.mem.word (vmPmd + 8 * c.virOff) &&& PAGETABLE_ATTR_MASK ||| attr
    let s₁ : MmState σ := { c.s with mem := c.s.mem.store (c.vm0Pmd + 8 * c.phyOff) value }
    Hvm0 A pgd0 (Set.Ico lo (c.phy + 2 ^ 21)) (mm.shown s.mem) s s₁ ∧
      PmdAt s₁.mem pgd0 c.phy c.vm0Pmd := by
  intro value s₁
  have hspace := hmm.hvm_lt
  have hnow := h.step h0 hc.maps
  have hlt : c.phy < GUEST_SPACE := by omega
  have hword : c.s.mem.word (vmPmd + 8 * c.virOff) =
      s.mem.word (entryAddr vmPmd (slot 1 c.vir)) := by
    rw [hoff]
    exact h.word_guest h0 hmm hc.maps hpmd.mem_pages _
  have haddr : c.vm0Pmd + 8 * c.phyOff = entryAddr c.vm0Pmd (slot 1 c.phy) := by
    rw [ha.2]
    rfl
  obtain ⟨hmod, hout⟩ := mmapWord_eq (w := c.s.mem.word (vmPmd + 8 * c.virOff)) hattr
  have hset := hnow.setEntry h0 ha.1 hlt (d := value) (.inr hmod)
  rw [← haddr] at hset
  have hdvd := hc.dvd
  have hnew : Hvm0 A pgd0 (Set.Ico c.phy (c.phy + 2 ^ 21)) (mm.shown s.mem) c.s s₁ := by
    refine MapsOver.congr hset (fun va _ => ?_) fun va hva _ => ?_
    · rw [Set.mem_ofPred_eq, Set.mem_Ico]
      unfold slot
      omega
    · have hslot : slot 1 va = slot 1 c.phy := by
        have := Set.mem_Ico.1 hva
        unfold slot
        omega
      have hdec : plainGuestFormat.decode 1 value = .leaf (outField 1 value) := by
        simp [desFormat, desDecode, hmod, value]
      rw [hmm.shown_eq hdvd (hc.base_le.trans hc.lo_le) hend (hc.vir ▸ hpmd) hslot, hdec,
        ← hc.vir, ← hword, ← hout]
      rfl
  refine ⟨?_, ?_⟩
  · have hall := hc.maps.trans (MapsOver.congr hnew (fun _ _ => Iff.rfl) fun _ _ _ => rfl)
    rwa [Set.Ico_union_Ico_eq_Ico hc.lo_le (Nat.le_add_right _ _)] at hall
  · have := ha.1.store (e := slot 1 c.phy) (d := value) (hnow.wf pgd0 h0)
    rwa [← haddr] at this

lemma Copied.entry (hc : Copied A pgd0 mm s lo c) (h : HvmTables A roots s) (h0 : pgd0 ∈ roots)
    (hmm : MmapOk roots pgd0 mm s.mem) (hattr : IsLeafDesc 1 attr) (ha : c.Aims pgd0)
    (hend : c.phy + 2 ^ 21 ≤ mm.hvmMmapBase + mm.size) (hpmd : PmdAt s.mem mm.pgdBase c.vir vmPmd)
    (hoff : c.virOff = slot 1 c.vir % 512) :
    let r := mmapEntry A pgd0 attr vmPmd c
    Copied A pgd0 mm s lo r.2 ∧ r.2.phy = c.phy + 2 ^ 21 ∧ r.2.virOff = c.virOff + 1 ∧
      (r.1 = true → r.2.Aims pgd0) := by
  intro r
  obtain ⟨hmaps, htable⟩ := hc.store h h0 hmm hattr ha hend hpmd hoff
  have hspace := hmm.hvm_lt
  have hvirle := hmm.vir_le
  have hbase := hc.base_le
  have hlo := hc.lo_le
  have hdvd := hc.dvd
  have hgs : GUEST_SPACE = 2 ^ 39 := by decide
  have hphy : add64 c.phy PMD_MAP_SIZE = c.phy + 2 ^ 21 := by
    rw [add64_of_lt (by unfold PMD_MAP_SIZE SIZE_2M; omega)]
    rfl
  have hvir : add64 c.vir PMD_MAP_SIZE = mm.guestVa (c.phy + 2 ^ 21) := by
    have hv := hc.vir
    unfold MmapMm.guestVa at hv ⊢
    rw [add64_of_lt (by unfold PMD_MAP_SIZE SIZE_2M; omega), PMD_MAP_SIZE, SIZE_2M]
    omega
  have hslot : slot 1 (c.phy + 2 ^ 21) = slot 1 c.phy + 1 := by
    unfold slot
    omega
  have hoffset : (c.phyOff + 1) &&& (PAGE_MAPPING_COUNT - 1) = (c.phyOff + 1) % 512 := by
    rw [PAGE_MAPPING_COUNT, show 512 - 1 = 2 ^ 9 - 1 from rfl, Nat.and_two_pow_sub_one_eq_mod]
  have hphyOff := ha.2
  have hdvd' : 2 ^ 21 ∣ c.phy + 2 ^ 21 := by omega
  have hlo' : lo ≤ c.phy + 2 ^ 21 := by omega
  generalize hvalue : c.s.mem.word (vmPmd + 8 * c.virOff) &&& PAGETABLE_ATTR_MASK ||| attr = value
    at hmaps htable
  generalize hs₁ : ({ c.s with mem := c.s.mem.store (c.vm0Pmd + 8 * c.phyOff) value } : MmState σ) =
    s₁ at hmaps htable
  by_cases hcross : (c.phyOff + 1) &&& (PAGE_MAPPING_COUNT - 1) = 0
  · have hr : r = (decide ((allocGuestPmd A pgd0 (c.phy + 2 ^ 21) s₁).1 ≠ 0),
        ⟨mm.guestVa (c.phy + 2 ^ 21), c.phy + 2 ^ 21, c.virOff + 1, 0,
          (allocGuestPmd A pgd0 (c.phy + 2 ^ 21) s₁).1,
          (allocGuestPmd A pgd0 (c.phy + 2 ^ 21) s₁).2⟩) := by
      simp only [r, mmapEntry, if_pos hcross, hvalue, hs₁, hphy, hvir]
    have hend' : c.phy + 2 ^ 21 < GUEST_SPACE := by omega
    rw [hoffset] at hcross
    rw [hr]
    rcases (h.step h0 hmaps).allocGuestPmd h0 hend' (mm.shown s.mem) with
      ⟨hnone, hsame⟩ | ⟨hsome, hpmd', hmaps'⟩
    · rw [hnone, hsame]
      exact ⟨⟨hmaps, rfl, hdvd', hlo', hbase⟩, rfl, rfl, by simp⟩
    · have hall := hmaps.trans hmaps'
      rw [Set.union_empty] at hall
      have hzero : 0 = slot 1 (c.phy + 2 ^ 21) % 512 := by omega
      exact ⟨⟨hall, rfl, hdvd', hlo', hbase⟩, rfl, rfl, fun _ => MmapLoop.aims_mk hpmd' hzero⟩
  · have hr : r = (true, ⟨mm.guestVa (c.phy + 2 ^ 21), c.phy + 2 ^ 21, c.virOff + 1, c.phyOff + 1,
        c.vm0Pmd, s₁⟩) := by
      simp only [r, mmapEntry, if_neg hcross, hvalue, hs₁, hphy, hvir]
    rw [hoffset] at hcross
    have hsame : slot 2 (c.phy + 2 ^ 21) = slot 2 c.phy := slot_two_add (by omega)
    have hphyOff' : c.phyOff + 1 = slot 1 (c.phy + 2 ^ 21) % 512 := by omega
    have htable' : PmdAt s₁.mem pgd0 (c.phy + 2 ^ 21) c.vm0Pmd := by
      rw [PmdAt, hsame]
      exact htable
    rw [hr]
    exact ⟨⟨hmaps, rfl, hdvd', hlo', hbase⟩, rfl, rfl, fun _ => MmapLoop.aims_mk htable' hphyOff'⟩

/-- The inner loop, as long as it stays in one table of the guest -/
lemma Copied.entries (h : HvmTables A roots s) (h0 : pgd0 ∈ roots)
    (hmm : MmapOk roots pgd0 mm s.mem) (hattr : IsLeafDesc 1 attr)
    (hpmd : plainGuestFormat.decode 2 (s.mem.word (entryAddr mm.pgdBase W)) = .table vmPmd) (k : ℕ)
    {c : MmapLoop σ} (hc : Copied A pgd0 mm s lo c) (ha : c.Aims pgd0)
    (hend : c.phy + k * 2 ^ 21 ≤ mm.hvmMmapBase + mm.size)
    (hslot : slot 1 c.vir = 512 * W + c.virOff) (hk : c.virOff + k ≤ 512) :
    let r := mmapEntries A pgd0 attr vmPmd k c
    ∃ j ≤ k, Copied A pgd0 mm s lo r.2 ∧ r.2.phy = c.phy + j * 2 ^ 21 ∧
      (r.1 = true → j = k ∧ r.2.Aims pgd0) := by
  induction k generalizing c with
  | zero => exact ⟨0, le_rfl, hc, by simp [mmapEntries], fun _ => ⟨rfl, ha⟩⟩
  | succ k ih =>
    have hstep : c.phy + 2 ^ 21 ≤ mm.hvmMmapBase + mm.size := by omega
    have hpmd' : PmdAt s.mem mm.pgdBase c.vir vmPmd := by
      rw [PmdAt, slot_succ, hslot, show (512 * W + c.virOff) / 512 = W by omega]
      exact hpmd
    obtain ⟨hc', hphy, hoff, ha'⟩ := hc.entry h h0 hmm hattr ha hstep hpmd' (by omega)
    rw [mmapEntries]
    dsimp only
    split_ifs with hok
    · have hvir : slot 1 (mmapEntry A pgd0 attr vmPmd c).2.vir =
          512 * W + (mmapEntry A pgd0 attr vmPmd c).2.virOff := by
        have hv := hc.vir
        have hlo := hc.base_le.trans hc.lo_le
        rw [hoff, hc'.vir, hphy]
        unfold MmapMm.guestVa slot at *
        omega
      obtain ⟨j, hj, hdone, hphy', hrest⟩ :=
        ih hc' (ha' hok) (by rw [hphy]; omega) hvir (by rw [hoff]; omega)
      refine ⟨j + 1, by omega, hdone, by rw [hphy', hphy]; ring, fun hr => ?_⟩
      exact ⟨by rw [(hrest hr).1], (hrest hr).2⟩
    · exact ⟨1, by omega, hc', by rw [hphy, one_mul], fun hr => absurd hr hok⟩

/-- The outer loop -/
lemma Copied.tables (h : HvmTables A roots s) (h0 : pgd0 ∈ roots)
    (hmm : MmapOk roots pgd0 mm s.mem) (hattr : IsLeafDesc 1 attr) (left : ℕ) {c : MmapLoop σ}
    (hc : Copied A pgd0 mm s lo c) (ha : c.Aims pgd0)
    (hend : c.phy + left * 2 ^ 21 ≤ mm.hvmMmapBase + mm.size) :
    let r := mmapTables A pgd0 mm.pgdBase attr left c
    ∃ j ≤ left, Hvm0 A pgd0 (Set.Ico lo (c.phy + j * 2 ^ 21)) (mm.shown s.mem) s r.2 ∧
      (r.1 = 0 ∧ j = left ∨ r.1 = -ENOMEM) := by
  induction left using Nat.strong_induction_on generalizing c with
  | _ left ih =>
    rw [mmapTables]
    split_ifs with hleft
    · exact ⟨0, by omega, by simpa using hc.maps, .inl ⟨rfl, hleft.symm⟩⟩
    · have hnow := h.step h0 hc.maps
      have hin : c.phy ∈ mm.window := Set.mem_Ico.2 ⟨hc.base_le.trans hc.lo_le, by omega⟩
      obtain ⟨t, ht⟩ := hmm.pmdAt hin
      rw [← hc.vir] at ht
      have ht' : PmdAt c.s.mem mm.pgdBase c.vir t := by
        rw [PmdAt, h.word_guest h0 hmm hc.maps (self_mem_pages s.mem 2 _)]
        exact ht
      have hget := getMappingPmd_of_pmdAt (hnow.wf _ hmm.root) ht'
      have haligned := (h.wf _ hmm.root).pages_aligned t ht.mem_pages
      have hnoerr : ¬ MappingError t := by
        unfold MappingError
        omega
      have hidx := pmdIdx_lt c.vir
      have hslot : slot 1 c.vir = 512 * slot 2 c.vir + pmdIdx c.vir := by
        rw [pmdIdx_eq, slot_succ 1]
        omega
      unfold PAGE_MAPPING_COUNT at hidx ⊢
      dsimp only
      rw [hget, if_neg hnoerr]
      generalize hcount : min (512 - pmdIdx c.vir) left = count
      have hstart : Copied A pgd0 mm s lo { c with virOff := pmdIdx c.vir } :=
        ⟨hc.maps, hc.vir, hc.dvd, hc.lo_le, hc.base_le⟩
      have haims : ({ c with virOff := pmdIdx c.vir } : MmapLoop σ).Aims pgd0 :=
        MmapLoop.aims_mk ha.1 ha.2
      generalize hc₁ : ({ c with virOff := pmdIdx c.vir } : MmapLoop σ) = c₁ at hstart haims
      have hvir₁ : c₁.vir = c.vir := by rw [← hc₁]
      have hphy₁ : c₁.phy = c.phy := by rw [← hc₁]
      have hoff₁ : c₁.virOff = pmdIdx c.vir := by rw [← hc₁]
      obtain ⟨j, hj, hc', hphy, hrest⟩ := Copied.entries h h0 hmm hattr ht count hstart haims
        (by omega) (by simpa only [hvir₁, hoff₁] using hslot) (by omega)
      rw [hphy₁] at hphy
      split_ifs with hok
      · obtain ⟨rfl, ha'⟩ := hrest hok
        obtain ⟨i, hi, hmaps, hret⟩ := ih (left - j) (by omega) hc' ha' (by omega)
        rw [hphy, show c.phy + j * 2 ^ 21 + i * 2 ^ 21 = c.phy + (j + i) * 2 ^ 21 by ring] at hmaps
        refine ⟨j + i, by omega, hmaps, hret.imp (fun h => ⟨h.1, ?_⟩) id⟩
        have := h.2
        omega
      · exact ⟨j, by omega, hphy ▸ hc'.maps, .inr rfl⟩

/-! ### `vm_mmap` -/

lemma align_block {x : ℕ} (h : x < 2 ^ 64) : align x PMD_MAP_SIZE = x / 2 ^ 21 * 2 ^ 21 :=
  align_pow (k := 21) h (by norm_num)

/-- How many entries are copied, by the size after the clipping to the region -/
lemma mmapLeft_eq {offset size o sz : ℕ} (ho : align offset PMD_MAP_SIZE = o)
    (hsz : balign size PMD_MAP_SIZE = sz) (holt : o < 2 ^ 39) (hszlt : sz < 2 ^ 40)
    (hmm : mm.size < 2 ^ 39) :
    mmapLeft mm offset size =
      if mm.freeSize < o + sz then (mm.size - o) / 2 ^ 21 else sz / 2 ^ 21 := by
  have hsum : add64 o sz = o + sz := add64_of_lt (by omega)
  rw [mmapLeft, ho, hsz, hsum, PMD_RANGE_OFFSET]
  by_cases hclip : mm.freeSize < o + sz
  · simp only [if_pos hclip]
    by_cases hle : o ≤ mm.size
    · rw [sub64_of_le hle (by omega), Nat.shiftRight_eq_div_pow, if_pos (by omega)]
      omega
    · have hwrap : sub64 mm.size o = mm.size + 2 ^ 64 - o := by
        rw [sub64, Nat.mod_eq_of_lt (by omega)]
      rw [hwrap, Nat.shiftRight_eq_div_pow, if_neg (by omega)]
      omega
  · simp only [if_neg hclip]
    rw [Nat.shiftRight_eq_div_pow, if_pos (by omega)]
    omega

/-- The entries that are copied lie in the window, and show what is asked for. -/
lemma mmapLeft_bounds {offset size : ℕ} (hoff : offset < 2 ^ 39) (hmm : mm.size < 2 ^ 39)
    (hfree : mm.freeSize ≤ mm.size) (hsize : size ≤ mm.size) :
    (mmapLeft mm offset size = 0 ∨
      offset / 2 ^ 21 * 2 ^ 21 + mmapLeft mm offset size * 2 ^ 21 ≤ mm.size) ∧
    ∀ o < offset / 2 ^ 21 * 2 ^ 21 + size, o < mm.size / 2 ^ 21 * 2 ^ 21 →
      o < offset / 2 ^ 21 * 2 ^ 21 + mmapLeft mm offset size * 2 ^ 21 := by
  have halign := align_block (show offset < 2 ^ 64 by omega)
  have hbalign : balign size PMD_MAP_SIZE = (size + 2 ^ 21 - 1) / 2 ^ 21 * 2 ^ 21 :=
    balign_pow (k := 21) (by omega) (by norm_num)
  have hleft := mmapLeft_eq halign hbalign (by omega) (by omega) hmm
  clear halign hbalign
  generalize mmapLeft mm offset size = n at hleft
  by_cases hclip :
      mm.freeSize < offset / 2 ^ 21 * 2 ^ 21 + (size + 2 ^ 21 - 1) / 2 ^ 21 * 2 ^ 21
  · rw [if_pos hclip, mul_comm, Nat.sub_mul_div] at hleft
    refine ⟨by omega, fun o _ ho => ?_⟩
    rw [hleft, ← add_mul]
    exact lt_of_lt_of_le ho (Nat.mul_le_mul_right _ (by omega))
  · rw [if_neg hclip, Nat.mul_div_cancel _ (by norm_num)] at hleft
    have hround : size ≤ (size + 2 ^ 21 - 1) / 2 ^ 21 * 2 ^ 21 := by omega
    refine ⟨by omega, fun o ho _ => ?_⟩
    rw [hleft]
    exact lt_of_lt_of_le ho (Nat.add_le_add_left hround _)

/-- What `vm_mmap` does to the table of VM0 -/
lemma HvmTables.vmMmap {offset : ℕ} (size : ℕ) (h : HvmTables A roots s) (h0 : pgd0 ∈ roots)
    (hmm : MmapOk roots pgd0 mm s.mem)
    (hoff : mm.hvmMmapBase + offset < GUEST_SPACE) :
    let r := vmMmap A pgd0 mm offset size s
    let base := mm.hvmMmapBase + offset / 2 ^ 21 * 2 ^ 21
    ∃ n, (n = 0 ∨ base + n * 2 ^ 21 ≤ mm.hvmMmapBase + mm.size) ∧
      Hvm0 A pgd0 (Set.Ico base (base + n * 2 ^ 21)) (mm.shown s.mem) s r.2 ∧
      (r.1 = 0 ∧ size ≤ mm.size ∧ n = mmapLeft mm offset size ∨ r = (-EINVAL, s) ∧ n = 0 ∨
        r.1 = -ENOMEM) := by
  intro r base
  have hgs : GUEST_SPACE = 2 ^ 39 := by decide
  have hspace := hmm.hvm_lt
  have hvirle := hmm.vir_le
  have hrefl : Hvm0 A pgd0 (Set.Ico base (base + 0 * 2 ^ 21)) (mm.shown s.mem) s s := by
    rw [zero_mul, add_zero, Set.Ico_self]
    exact MapsOver.of_maps (Maps.of_remap (Remap.refl _ (h.wf pgd0 h0)) h.supply rfl)
  by_cases hsize : mm.size < size
  · have hr : r = (-EINVAL, s) := if_pos hsize
    exact ⟨0, .inl rfl, hr ▸ hrefl, .inr (.inl ⟨hr, rfl⟩)⟩
  · have halign := align_block (show offset < 2 ^ 64 by omega)
    have hphy : add64 mm.hvmMmapBase (align offset PMD_MAP_SIZE) = base := by
      rw [halign, add64_of_lt (by omega)]
    have hvir : add64 mm.virBase (align offset PMD_MAP_SIZE) = mm.guestVa base := by
      rw [halign, add64_of_lt (by omega), MmapMm.guestVa, Nat.add_sub_cancel_left]
    have hr : r = if (Mmu.allocGuestPmd A pgd0 base s).1 = 0 then
        (-ENOMEM, (Mmu.allocGuestPmd A pgd0 base s).2)
      else mmapTables A pgd0 mm.pgdBase (pageTableDescription (VM_DES_BLOCK ||| VM_NORMAL))
        (mmapLeft mm offset size) ⟨mm.guestVa base, base, 0, pmdIdx base,
          (Mmu.allocGuestPmd A pgd0 base s).1, (Mmu.allocGuestPmd A pgd0 base s).2⟩ := by
      simp only [r, Virt.vmMmap, if_neg hsize, hphy, hvir]
    have hbase : base < GUEST_SPACE := by omega
    obtain ⟨hn, -⟩ := mmapLeft_bounds (show offset < 2 ^ 39 by omega) (by omega) hmm.free_le
      (not_lt.1 hsize)
    rcases h.allocGuestPmd h0 hbase (mm.shown s.mem) with ⟨hnone, hsame⟩ | ⟨hsome, hpmd, hmaps⟩
    · rw [if_pos hnone, hsame] at hr
      exact ⟨0, .inl rfl, hr ▸ hrefl, .inr (.inr (by rw [hr]))⟩
    · rw [if_neg hsome] at hr
      have hbase_le : mm.hvmMmapBase ≤ base := Nat.le_add_right _ _
      have hdvd : 2 ^ 21 ∣ base := (Nat.dvd_add_right hmm.hvm_dvd).2 (Nat.dvd_mul_left _ _)
      have hlt : mm.size < 2 ^ 39 := by omega
      rcases hn with hzero | hn
      · rw [hzero, mmapTables, dif_pos rfl] at hr
        refine ⟨0, .inl rfl, ?_, .inl ⟨by rw [hr], not_lt.1 hsize, hzero.symm⟩⟩
        rw [hr, zero_mul, add_zero, Set.Ico_self]
        exact hmaps
      · have hstart : Copied A pgd0 mm s base ⟨mm.guestVa base, base, 0, pmdIdx base,
            (Mmu.allocGuestPmd A pgd0 base s).1, (Mmu.allocGuestPmd A pgd0 base s).2⟩ :=
          ⟨by rw [Set.Ico_self]; exact hmaps, rfl, hdvd, le_rfl, hbase_le⟩
        obtain ⟨j, hj, hmaps', hret⟩ := Copied.tables h h0 hmm attr_leaf _ hstart
          (MmapLoop.aims_mk hpmd (pmdIdx_eq base))
          (by rw [add_assoc]; exact Nat.add_le_add_left hn _)
        rw [← hr] at hmaps' hret
        refine ⟨j, ?_, hmaps', ?_⟩
        · right
          calc base + j * 2 ^ 21
              ≤ base + mmapLeft mm offset size * 2 ^ 21 :=
                Nat.add_le_add_left (Nat.mul_le_mul_right _ hj) _
            _ ≤ mm.hvmMmapBase + mm.size := by
                rw [add_assoc]
                exact Nat.add_le_add_left hn _
        · rcases hret with ⟨hret, rfl⟩ | hret
          · exact .inl ⟨hret, not_lt.1 hsize, rfl⟩
          · exact .inr (.inr hret)

/-! ### `vm_unmmap` -/

lemma clearWords_confined {P : Set ℕ} {a k : ℕ} (m : Mem)
    (h : ∀ i < k, InPages P (a + 8 * i)) : Confined P m (clearWords a k m) := by
  induction k generalizing a m with
  | zero => exact Confined.refl P m
  | succ k ih =>
    refine (Confined.store m 0 (h 0 (Nat.succ_pos k))).trans (ih _ fun i hi => ?_)
    have := h (i + 1) (by omega)
    rwa [show a + 8 * (i + 1) = a + 8 + 8 * i by ring] at this

/-- The `memset` of entries of a table of VM0 -/
lemma HvmTables.clearEntries (k : ℕ) {va : ℕ} {s : MmState σ} (h : HvmTables A roots s)
    (h0 : pgd0 ∈ roots) (ht : PmdAt s.mem pgd0 va t) (hva : va < GUEST_SPACE)
    (hdvd : 2 ^ 21 ∣ va) (hk : slot 1 va % 512 + k ≤ 512) :
    Hvm0 A pgd0 (Set.Ico va (va + k * 2 ^ 21)) (fun _ => none) s
      { s with mem := clearWords (entryAddr t (slot 1 va)) k s.mem } := by
  induction k generalizing va s with
  | zero =>
    rw [zero_mul, add_zero, Set.Ico_self]
    exact MapsOver.of_maps (Maps.of_remap (Remap.refl _ (h.wf pgd0 h0)) h.supply rfl)
  | succ k ih =>
    have hset := h.setEntry h0 ht hva (.inl rfl)
    have hfirst : Hvm0 A pgd0 (Set.Ico va (va + 2 ^ 21)) (fun _ => none) s
        { s with mem := s.mem.store (entryAddr t (slot 1 va)) 0 } := by
      refine MapsOver.congr hset (fun va' _ => ?_) fun va' _ _ => ?_
      · rw [Set.mem_ofPred_eq, Set.mem_Ico]
        unfold slot
        omega
      · rw [plainGuestFormat.decode_zero]
        rfl
    rw [clearWords]
    cases k with
    | zero =>
      rw [zero_add, one_mul]
      exact hfirst
    | succ k =>
      have hslot : slot 1 (va + 2 ^ 21) = slot 1 va + 1 := by
        unfold slot
        omega
      have hsame : slot 2 (va + 2 ^ 21) = slot 2 va := slot_two_add (by omega)
      have hnext : entryAddr t (slot 1 va) + 8 = entryAddr t (slot 1 (va + 2 ^ 21)) := by
        rw [hslot]
        unfold entryAddr
        omega
      have ht' : PmdAt (s.mem.store (entryAddr t (slot 1 va)) 0) pgd0 (va + 2 ^ 21) t := by
        rw [PmdAt, hsame]
        exact ht.store (h.wf pgd0 h0)
      have hva' : va + 2 ^ 21 < GUEST_SPACE := by
        unfold slot at hsame
        unfold GUEST_SPACE at hva ⊢
        omega
      have hrest := ih (h.step h0 hfirst) ht' hva' (Nat.dvd_add hdvd (dvd_refl _))
        (by rw [hslot]; omega)
      have hall := hfirst.trans hrest
      rw [Set.Ico_union_Ico_eq_Ico (Nat.le_add_right _ _) (Nat.le_add_right _ _),
        show va + 2 ^ 21 + (k + 1) * 2 ^ 21 = va + (k + 1 + 1) * 2 ^ 21 by ring] at hall
      rw [hnext]
      exact hall

/-- Where there is no table the words of page 0 are cleared. -/
lemma HvmTables.clearPageZero {va k : ℕ} (h : HvmTables A roots s) (h0 : pgd0 ∈ roots)
    (hempty : s.mem.word (entryAddr pgd0 (slot 2 va)) = 0) (hdvd : 2 ^ 21 ∣ va)
    (hk : slot 1 va % 512 + k ≤ 512) :
    Hvm0 A pgd0 (Set.Ico va (va + k * 2 ^ 21)) (fun _ => none) s
      { s with mem := clearWords (0 + 8 * (slot 1 va % 512)) k s.mem } := by
  have hwf := h.wf pgd0 h0
  have hconf : Confined {0} s.mem (clearWords (0 + 8 * (slot 1 va % 512)) k s.mem) :=
    clearWords_confined s.mem fun i hi => ⟨0, rfl, by omega, by omega⟩
  have hagree : AgreeOn (pages plainGuestFormat s.mem 2 pgd0) s.mem
      (clearWords (0 + 8 * (slot 1 va % 512)) k s.mem) :=
    hconf.agreeOn (fun p hp => hp ▸ dvd_zero 4096) hwf.pages_aligned
      (Set.disjoint_singleton_left.2 (h.zero pgd0 h0))
  have hnone : ∀ va' ∈ Set.Ico va (va + k * 2 ^ 21),
      walk plainGuestFormat s.mem 2 pgd0 va' = none := fun va' hva' =>
    walk_of_empty hempty (by
      have := Set.mem_Ico.1 hva'
      rw [slot_succ 1, slot_succ 1]
      unfold slot at *
      omega)
  obtain ⟨N, hN, hr, hrest⟩ : Hvm0 A pgd0 ∅ (fun _ => none) s
      { s with mem := clearWords (0 + 8 * (slot 1 va % 512)) k s.mem } :=
    MapsOver.of_confined _ hconf hagree hwf h.supply rfl
  refine ⟨N, hN, ⟨hr.wf, fun va' hW hva' => ?_, fun va' hW _ => ?_, hr.pages_sub, hr.confined⟩,
    hrest⟩
  · exact (hr.walk_out va' hW (Set.notMem_empty _)).trans (hnone va' hva')
  · exact hr.walk_out va' hW (Set.notMem_empty _)

/-- A round of the loop -/
lemma HvmTables.clearRound {va k : ℕ} (h : HvmTables A roots s) (h0 : pgd0 ∈ roots)
    (hva : va < GUEST_SPACE) (hdvd : 2 ^ 21 ∣ va) (hk : slot 1 va % 512 + k ≤ 512) :
    ¬ MappingError (getMappingPmd s.mem pgd0 va 0) ∧
      Hvm0 A pgd0 (Set.Ico va (va + k * 2 ^ 21)) (fun _ => none) s
        { s with mem := clearWords (getMappingPmd s.mem pgd0 va 0 + 8 * pmdIdx va) k s.mem } := by
  have hwf := h.wf pgd0 h0
  rw [pmdIdx_eq]
  rcases getMappingPmd_cases hwf va with ⟨t, ht⟩ | hempty
  · rw [getMappingPmd_of_pmdAt hwf ht]
    have haligned := hwf.pages_aligned t ht.mem_pages
    refine ⟨?_, h.clearEntries k h0 ht hva hdvd hk⟩
    unfold MappingError
    omega
  · rw [getMappingPmd_of_empty hempty]
    exact ⟨by decide, h.clearPageZero h0 hempty hdvd hk⟩

lemma HvmTables.unmmapTables (left : ℕ) {phy : ℕ} {s : MmState σ} (h : HvmTables A roots s)
    (h0 : pgd0 ∈ roots) (hdvd : 2 ^ 21 ∣ phy) (hend : phy + left * 2 ^ 21 ≤ GUEST_SPACE) :
    Hvm0 A pgd0 (Set.Ico phy (phy + left * 2 ^ 21)) (fun _ => none) s
      { s with mem := unmmapTables pgd0 left phy s.mem } := by
  induction left using Nat.strong_induction_on generalizing phy s with
  | _ left ih =>
    rw [Virt.unmmapTables]
    split_ifs with hleft
    · rw [hleft, zero_mul, add_zero, Set.Ico_self]
      exact MapsOver.of_maps (Maps.of_remap (Remap.refl _ (h.wf pgd0 h0)) h.supply rfl)
    · have hgs : GUEST_SPACE = 2 ^ 39 := by decide
      have hidx := pmdIdx_lt phy
      rw [pmdIdx_eq] at hidx
      unfold PAGE_MAPPING_COUNT at hidx ⊢
      have hcount : slot 1 phy % 512 + min (512 - pmdIdx phy) left ≤ 512 := by
        rw [pmdIdx_eq]
        omega
      have hpos : 0 < min (512 - pmdIdx phy) left := by
        rw [pmdIdx_eq]
        omega
      generalize hk : min (512 - pmdIdx phy) left = k at hcount hpos
      have hkle : k ≤ left := hk ▸ min_le_right _ _
      obtain ⟨hnoerr, hround⟩ := h.clearRound h0 (by omega) hdvd hcount
      have hphy : add64 phy (k <<< PMD_RANGE_OFFSET) = phy + k * 2 ^ 21 := by
        rw [Nat.shiftLeft_eq, PMD_RANGE_OFFSET, add64_of_lt (by omega)]
      dsimp only
      rw [if_neg hnoerr, hk, hphy]
      have hend' : phy + k * 2 ^ 21 + (left - k) * 2 ^ 21 ≤ GUEST_SPACE := by omega
      have hrest := ih (left - k) (by omega) (h.step h0 hround)
        (Nat.dvd_add hdvd (Nat.dvd_mul_left _ _)) hend'
      have hall := hround.trans hrest
      rw [Set.Ico_union_Ico_eq_Ico (Nat.le_add_right _ _) (Nat.le_add_right _ _), add_assoc,
        ← add_mul, Nat.add_sub_cancel' hkle] at hall
      exact hall

/-- What `vm_unmmap` does to the table of VM0 -/
lemma HvmTables.vmUnmmap (h : HvmTables A roots s) (h0 : pgd0 ∈ roots)
    (hmm : MmapOk roots pgd0 mm s.mem) :
    Hvm0 A pgd0 (Set.Ico mm.hvmMmapBase (mm.hvmMmapBase + mm.size / 2 ^ 21 * 2 ^ 21))
      (fun _ => none) s (vmUnmmap pgd0 mm s) := by
  have hgs : GUEST_SPACE = 2 ^ 39 := by decide
  have hspace := hmm.hvm_lt
  have hleft : mm.size >>> PMD_RANGE_OFFSET % 2 ^ 32 = mm.size / 2 ^ 21 := by
    rw [Nat.shiftRight_eq_div_pow, PMD_RANGE_OFFSET]
    omega
  have h := h.unmmapTables (mm.size / 2 ^ 21) h0 hmm.hvm_dvd (by omega)
  rw [Virt.vmUnmmap, hleft, if_pos (by omega)]
  exact h

end

end Minos.Virt
