import Mathlib
import Minos.Mmu.HostMapping

/-!
# What unmapping finds

The inner loop of `__destroy_mem_mapping`, one entry at a time. It reads an entry by its level
number `lvl` and its attribute record, which the code moves in step; but `lvl` is not set back
when the walk starts over at the root.
-/

namespace Minos.Mmu

open Radix WordMem

variable {m : Mem} {vir size lvl table : ℕ} {attr : Level}

lemma and_three (w : ℕ) : w &&& 0x03 = w % 4 := Nat.and_two_pow_sub_one_eq_mod w 2

lemma and_lnot_fff {w : ℕ} (h : w < 2 ^ 48) : w &&& lnot 0xfff = outField 0 w := by
  rw [show 0xfff = 2 ^ 12 - 1 from rfl, and_lnot_pow (by omega) (by norm_num), outField]
  omega

lemma findDestroyEntry_zero (h : m.word (table + 8 * attr.index vir) = 0) :
    findDestroyEntry m vir size attr lvl table = none := by
  rw [findDestroyEntry]
  simp [h]

/-- A table descriptor above the last level is followed. -/
lemma findDestroyEntry_table {next : Level} (hnext : attr.next = some next) (hlvl : lvl < 3)
    (h3 : m.word (table + 8 * attr.index vir) % 4 = 3) :
    findDestroyEntry m vir size attr lvl table = findDestroyEntry m vir size next (lvl + 1)
      (m.word (table + 8 * attr.index vir) &&& lnot 0xfff) := by
  rw [findDestroyEntry]
  have hne : m.word (table + 8 * attr.index vir) ≠ 0 := by omega
  have htype : getMappingType lvl (m.word (table + 8 * attr.index vir)) = VM_DES_TABLE := by
    simp only [getMappingType, and_three, h3, Level.lvl, TT_S1_ATTR_FAULT, TT_S1_ATTR_TABLE,
      TT_S1_ATTR_PAGE]
    interval_cases lvl <;> rfl
  simp only [hne, htype, if_false]
  rw [if_neg (by decide), if_pos trivial]
  split
  · rename_i hn
    simp [hn] at hnext
  · rename_i next' hn
    obtain rfl : next' = next := by simpa [hn] using hnext
    rw [if_neg (by simp only [Level.lvl]; omega)]

/-- With `lvl` at the last level the same word is read as a page. -/
lemma findDestroyEntry_page (h3 : m.word (table + 8 * attr.index vir) % 4 = 3) :
    findDestroyEntry m vir size attr 3 table =
      if size < attr.mapSize then none else some (table + 8 * attr.index vir, attr, 3) := by
  rw [findDestroyEntry]
  have hne : m.word (table + 8 * attr.index vir) ≠ 0 := by omega
  have htype : getMappingType 3 (m.word (table + 8 * attr.index vir)) = VM_DES_PAGE := by
    simp only [getMappingType, and_three, h3]
    rfl
  simp only [hne, htype, if_false]
  rw [if_neg (by decide), if_neg (by decide)]

lemma findDestroyEntry_block (hlvl : lvl = 1 ∨ lvl = 2)
    (h1 : m.word (table + 8 * attr.index vir) % 4 = 1) :
    findDestroyEntry m vir size attr lvl table =
      if size < attr.mapSize then none else some (table + 8 * attr.index vir, attr, lvl) := by
  rw [findDestroyEntry]
  have hne : m.word (table + 8 * attr.index vir) ≠ 0 := by omega
  have htype : getMappingType lvl (m.word (table + 8 * attr.index vir)) = VM_DES_BLOCK := by
    simp only [getMappingType, and_three, h1]
    rcases hlvl with rfl | rfl <;> rfl
  simp only [hne, htype, if_false]
  rw [if_neg (by decide), if_neg (by decide)]

lemma findDestroyEntry_fault (h1 : m.word (table + 8 * attr.index vir) % 4 = 1) :
    findDestroyEntry m vir size attr 3 table = none := by
  rw [findDestroyEntry]
  have hne : m.word (table + 8 * attr.index vir) ≠ 0 := by omega
  have htype : getMappingType 3 (m.word (table + 8 * attr.index vir)) = VM_DES_FAULT := by
    simp only [getMappingType, and_three, h1]
    rfl
  simp only [hne, htype, if_false]
  rw [if_pos trivial]

/-! ### The path in a host table -/

/-- The words on the way to a 2MiB block. -/
structure BlockPath (m : Mem) (root va t₂ t₁ : ℕ) : Prop where
  pgd : m.word (entryAddr root (slot 3 va)) % 4 = 3
  pgd_lt : m.word (entryAddr root (slot 3 va)) < 2 ^ 48
  pgd_out : outField 0 (m.word (entryAddr root (slot 3 va))) = t₂
  pud : m.word (entryAddr t₂ (slot 2 va)) % 4 = 3
  pud_lt : m.word (entryAddr t₂ (slot 2 va)) < 2 ^ 48
  pud_out : outField 0 (m.word (entryAddr t₂ (slot 2 va))) = t₁
  pmd : m.word (entryAddr t₁ (slot 1 va)) % 4 = 1

/-- A table entry of a plain table is a bare address with the type bits. -/
lemma plain_table_word {gib : Bool} {n t e t' : ℕ} (hwf : WF (desFormat true gib) m (n + 1) t)
    (hd : (desFormat true gib).decode (n + 1) (m.word (entryAddr t e)) = .table t') :
    m.word (entryAddr t e) % 4 = 3 ∧ m.word (entryAddr t e) < 2 ^ 48 ∧
      outField 0 (m.word (entryAddr t e)) = t' := by
  have hleg := hwf.legal (e % 512) (Nat.mod_lt _ (by norm_num))
  rw [← entryAddr] at hleg
  simp only [desFormat, desDecode] at hleg hd
  by_cases h3 : m.word (entryAddr t e) % 4 = 3
  · rw [if_pos h3, if_neg (Nat.succ_ne_zero n)] at hd
    simp only [Bool.true_eq_false, and_false, or_false] at hleg
    exact ⟨h3, by omega, by simpa using hd⟩
  · rw [if_neg h3] at hd
    split_ifs at hd

lemma blockPath_of_walk {root va : ℕ} {x : Leaf} (hwf : WF hostFormat m 3 root)
    (h : walk hostFormat m 3 root va = some x) (hlvl : x.lvl = 1) :
    ∃ t₂ t₁, BlockPath m root va t₂ t₁ ∧ tableAt hostFormat m va 2 3 root = some t₂ ∧
      tableAt hostFormat m va 1 3 root = some t₁ := by
  obtain ⟨b, -, hl⟩ | ⟨t₂, hd₃, h₂⟩ := walk_cases h
  · omega
  have hwf₂ := hwf.child (Nat.mod_lt (slot 3 va) (by norm_num)) hd₃
  obtain ⟨b, -, hl⟩ | ⟨t₁, hd₂, h₁⟩ := walk_cases h₂
  · omega
  have hwf₁ := hwf₂.child (Nat.mod_lt (slot 2 va) (by norm_num)) hd₂
  obtain ⟨b, hd₁, -⟩ | ⟨t₀, -, h₀⟩ := walk_cases h₁
  swap
  · have := walk_lvl_le h₀
    omega
  obtain ⟨h3, hlt, hout⟩ := plain_table_word hwf hd₃
  obtain ⟨h3', hlt', hout'⟩ := plain_table_word hwf₂ hd₂
  have h1 : m.word (entryAddr t₁ (slot 1 va)) % 4 = 1 := by
    simp only [desFormat, desDecode] at hd₁
    by_cases h3'' : m.word (entryAddr t₁ (slot 1 va)) % 4 = 3
    · simp [h3''] at hd₁
    · by_contra hne
      simp [h3'', hne] at hd₁
  refine ⟨t₂, t₁, ⟨h3, hlt, hout, h3', hlt', hout', h1⟩, ?_, ?_⟩
  · rw [tableAt_succ (by norm_num) hd₃, tableAt_self]
  · rw [tableAt_succ (by norm_num) hd₃, tableAt_succ (by norm_num) hd₂, tableAt_self]

lemma entryAddr_index (t va : ℕ) (l : Level) :
    t + 8 * l.index va = entryAddr t (slot l.below va) := by
  rw [entryAddr, Level.index_eq]

namespace BlockPath

variable {root t₂ t₁ : ℕ}

/-- The first round: `lvl` and the table are in step, and the block is found. -/
lemma find_pmd (h : BlockPath m root vir t₂ t₁) :
    findDestroyEntry m vir size .pgd 0 root =
      if size < 2 ^ 21 then none else some (entryAddr t₁ (slot 1 vir), .pmd, 2) := by
  rw [findDestroyEntry_table rfl (by norm_num) (entryAddr_index _ _ _ ▸ h.pgd)]
  simp only [entryAddr_index, Level.below]
  rw [and_lnot_fff h.pgd_lt, h.pgd_out,
    findDestroyEntry_table rfl (by norm_num) (entryAddr_index _ _ _ ▸ h.pud)]
  simp only [entryAddr_index, Level.below]
  rw [and_lnot_fff h.pud_lt, h.pud_out,
    findDestroyEntry_block (Or.inr rfl) (entryAddr_index _ _ _ ▸ h.pmd)]
  simp only [entryAddr_index, Level.below, Level.mapSize, Level.rangeOffset, Nat.one_shiftLeft]

/-- The second round starts with `lvl = 2`, and takes the `PUD` entry for a page. -/
lemma find_pud (h : BlockPath m root vir t₂ t₁) :
    findDestroyEntry m vir size .pgd 2 root =
      if size < 2 ^ 30 then none else some (entryAddr t₂ (slot 2 vir), .pud, 3) := by
  rw [findDestroyEntry_table rfl (by norm_num) (entryAddr_index _ _ _ ▸ h.pgd)]
  simp only [entryAddr_index, Level.below]
  rw [and_lnot_fff h.pgd_lt, h.pgd_out, findDestroyEntry_page (entryAddr_index _ _ _ ▸ h.pud)]
  simp only [entryAddr_index, Level.below, Level.mapSize, Level.rangeOffset, Nat.one_shiftLeft]

/-- Every later round starts with `lvl = 3`, and takes the `PGD` entry for a page. -/
lemma find_pgd (h : BlockPath m root vir t₂ t₁) :
    findDestroyEntry m vir size .pgd 3 root =
      if size < 2 ^ 39 then none else some (entryAddr root (slot 3 vir), .pgd, 3) := by
  rw [findDestroyEntry_page (entryAddr_index _ _ _ ▸ h.pgd)]
  simp only [entryAddr_index, Level.below, Level.mapSize, Level.rangeOffset, Nat.one_shiftLeft]

end BlockPath

end Minos.Mmu
