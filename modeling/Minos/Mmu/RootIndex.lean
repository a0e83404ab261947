import Mathlib
import Minos.Mmu.BlockOverlap

/-!
# The root of a guest table

`alloc_pgd` takes two pages for the root of a guest table, 1024 entries for 1TiB. Three pieces of
code compute the entry of an address: `create_table_entry` and `get_mapping_entry` mask it with
the mask of one page, `create_level_mapping` does not mask it at all.
-/

namespace Minos.Mmu

open Radix WordMem

variable {σ : Type} {A : PageOps σ}

/-- Entry number `ipa >> 30` of the root. -/
def rootEntry (root ipa : ℕ) : ℕ := root + 8 * (ipa >>> 30)

/-- `get_mapping_pmd` for a guest reads entry `ipa >> 30`. -/
def GetMappingAtRoot (root ipa : ℕ) : Prop :=
  ∀ m : Mem, getMappingPmd m root ipa 0 = m.word (rootEntry root ipa) &&& 0xfffffffffffff000

/-- `create_pud_mapping` writes entry `ipa >> 30` and nothing else. -/
def CreatePudAtRoot (root ipa : ℕ) : Prop :=
  ∀ (m : Mem) (value flags : ℕ), ∃ d, createPudMapping root ipa value flags m =
    m.store (rootEntry root ipa) d

/-- `create_table_entry` gets at the table for `ipa` through entry `ipa >> 30`: it takes the
address in the entry, or stores a new table there. -/
def CreateTableAtRoot (root ipa : ℕ) : Prop :=
  ∀ (σ : Type) (A : PageOps σ) (s : MmState σ) (phy size flags : ℕ),
    (s.mem.word (rootEntry root ipa) ≠ 0 →
      enterTable A ⟨root, ipa, phy, size, .pud, flags⟩ s =
        (entryBase (s.mem.word (rootEntry root ipa)), s)) ∧
    ∀ s', s.mem.word (rootEntry root ipa) = 0 → flags &&& VM_HOST = 0 → size ≠ 0 →
      createMemMapping A root ipa phy size flags s = (0, s') →
        ∃ d, StoredBetween s.mem s'.mem (.word (rootEntry root ipa) d)

lemma getMappingPmd_guest (m : Mem) (root ipa : ℕ) :
    getMappingPmd m root ipa 0 =
      m.word (root + 8 * (ipa / 2 ^ 30 % 512)) &&& 0xfffffffffffff000 := by
  have hstart : startLevel 0 = .pud := by decide
  have hnext : ¬ Level.pmd.lvl < Level.pmd.lvl := lt_irrefl _
  rw [getMappingPmd, hstart, getMappingEntry]
  simp only [Level.index_eq, slot, Level.below, Level.next, if_neg hnext]
  split_ifs with h
  · rw [h.1, Nat.zero_and]
  · rfl

lemma entry_pud (root ipa phy size flags : ℕ) :
    (⟨root, ipa, phy, size, .pud, flags⟩ : MappingStruct).entry =
      root + 8 * (ipa / 2 ^ 30 % 512) := by
  rw [MappingStruct.entry_eq]
  rfl

/-- Below 512GiB the masked index is the index. -/
lemma rootEntry_of_lt {root ipa : ℕ} (h : ipa < GUEST_SPACE) :
    root + 8 * (ipa / 2 ^ 30 % 512) = rootEntry root ipa := by
  unfold GUEST_SPACE at h
  rw [rootEntry, Nat.shiftRight_eq_div_pow]
  omega

lemma createPudAtRoot (root ipa : ℕ) : CreatePudAtRoot root ipa := fun _ _ _ => ⟨_, rfl⟩

lemma EnterTable.stores {info : MappingStruct} {s s₁ : MmState σ} {value : ℕ}
    (h : EnterTable A info s value s₁) (hval : s.mem.word info.entry = 0) :
    ∃ d, StoredBetween s.mem s₁.mem (.word info.entry d) := by
  cases h with
  | new => exact ⟨_, [_, _, _], rfl, List.mem_cons_self⟩
  | old hne => exact absurd hval hne

lemma createTableAtRoot {root ipa : ℕ} (h : ipa < GUEST_SPACE) : CreateTableAtRoot root ipa := by
  intro σ A s phy size flags
  have hentry := entry_pud root ipa phy size flags
  rw [rootEntry_of_lt h] at hentry
  refine ⟨fun hval => ?_, fun s' hval hg hsize hret => ?_⟩
  · simp only [enterTable, hentry, if_neg hval]
  · rw [createMemMapping, startLevel, hg, if_neg (by simp)] at hret
    obtain ⟨value, s₁, s₂, hent, hcall, hrest⟩ :=
      createTableEntry_success hsize rfl hret
    rw [← hentry] at hval ⊢
    obtain ⟨d, hst⟩ := hent.stores hval
    exact ⟨d, hst.trans_right ((createEntry_suffix hcall).trans (createTableEntry_suffix hrest))⟩

/-- The three ways to the root of a guest table agree on entry `ipa >> 30` exactly for the
addresses of the first root page. -/
theorem root_walkers_agree_iff {root ipa : ℕ} (h : ipa < 2 ^ 40) :
    (CreateTableAtRoot root ipa ∧ GetMappingAtRoot root ipa ∧ CreatePudAtRoot root ipa) ↔
      ipa < GUEST_SPACE := by
  constructor
  · rintro ⟨-, hget, -⟩
    by_contra hge
    -- an address of the second page is looked up in the first
    have hne : root + 8 * (ipa / 2 ^ 30 % 512) ≠ rootEntry root ipa := by
      unfold GUEST_SPACE at hge
      rw [rootEntry, Nat.shiftRight_eq_div_pow]
      omega
    have := hget ⟨fun a => if a = rootEntry root ipa then 0x1000 else 0, []⟩
    rw [getMappingPmd_guest] at this
    simp only [if_neg hne, if_true] at this
    exact absurd this (by decide)
  · intro hlt
    refine ⟨createTableAtRoot hlt, fun m => ?_, createPudAtRoot root ipa⟩
    rw [getMappingPmd_guest, rootEntry_of_lt hlt]

theorem root_walkers_agree_iff_one_gib :
    CreateTableAtRoot 0x1000 0x40000000 ∧ GetMappingAtRoot 0x1000 0x40000000 ∧
      CreatePudAtRoot 0x1000 0x40000000 :=
  (root_walkers_agree_iff (by decide)).mpr (by decide)

/-- A root at `0x1000` whose first entry holds a table and whose other entries are empty. -/
def firstEntryState : MmState (List ℕ) :=
  ⟨⟨fun a => if a = 0x1000 then 0x2003 else 0, []⟩, [0x3000], []⟩

/-- At 512GiB `get_mapping_pmd` finds the table of address 0, `create_table_entry` takes entry 0
too, and `create_pud_mapping` writes entry 512. -/
theorem root_walkers_disagree_at_512_gib :
    rootEntry 0x1000 0x8000000000 = 0x2000 ∧ firstEntryState.mem.word 0x2000 = 0 ∧
    getMappingPmd firstEntryState.mem 0x1000 0x8000000000 0 = 0x2000 ∧
    (enterTable listPages ⟨0x1000, 0x8000000000, 0, 0x1000, .pud, 0⟩ firstEntryState).1 = 0x2000 ∧
    (createPudMapping 0x1000 0x8000000000 0x3000 VM_DES_TABLE firstEntryState.mem).word 0x2000 =
      0x3003 := by
  decide +kernel

end Minos.Mmu
