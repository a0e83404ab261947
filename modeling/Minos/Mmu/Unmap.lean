import Mathlib
import Minos.Mmu.DestroySpec

/-!
# Unmapping a range

`destroy_mem_mapping` walks from the root once for every entry it clears. The level number is not
set back between the walks, so after the first block of a host range a `PUD` entry is cleared, and
after that `PGD` entries (`clearedPmd`). A guest table starts at the `PUD`, but the walk reads it
as if it started at the `PGD`, and ends before the last page.
-/

namespace Minos.Mmu

open Radix WordMem

variable {σ : Type} {A : PageOps σ} {m : Mem} {root vir size lvl : ℕ}

/-! ### The outer loop -/

lemma destroyLoop_stop (h : size ≤ PAGE_SIZE) :
    destroyLoop root .pgd vir size lvl m = (0, m) := by
  rw [destroyLoop, dif_neg (by omega)]

lemma destroyLoop_none (h : PAGE_SIZE < size)
    (hf : findDestroyEntry m vir size .pgd lvl root = none) :
    destroyLoop root .pgd vir size lvl m = (-EINVAL, m) := by
  rw [destroyLoop, dif_pos h]
  split
  · rfl
  · rename_i hs
    simp [hf] at hs

lemma destroyLoop_some (h : PAGE_SIZE < size) {entry lvl' : ℕ} {attr : Level}
    (hf : findDestroyEntry m vir size .pgd lvl root = some (entry, attr, lvl')) :
    destroyLoop root .pgd vir size lvl m = destroyLoop root .pgd (add64 vir attr.mapSize)
      (size - attr.mapSize) lvl' (m.store entry 0) := by
  rw [destroyLoop, dif_pos h]
  split
  · rename_i hs
    simp [hf] at hs
  · rename_i e a l hs
    rw [hf] at hs
    obtain ⟨rfl, rfl, rfl⟩ : entry = e ∧ attr = a ∧ lvl' = l := by simpa using hs
    rfl

/-! ### Host tables -/

/-- All addresses from `lo` to `hi` are translated by 2MiB blocks. -/
def AllBlocks (m : Mem) (root lo hi : ℕ) : Prop :=
  ∀ va ∈ Set.Ico lo hi, ∃ x, walk hostFormat m 3 root va = some x ∧ x.lvl = 1

/-- What is cleared once `lvl` is 3: whole `PGD` entries. -/
def clearedPgd (vir size : ℕ) : Set ℕ :=
  {va | slot 3 vir ≤ slot 3 va ∧ slot 3 va < slot 3 vir + size / 2 ^ 39}

/-- What is cleared once `lvl` is 2: a `PUD` entry, and then `PGD` entries. -/
def clearedPud (vir size : ℕ) : Set ℕ :=
  if size < 2 ^ 30 then ∅
  else {va | slot 2 va = slot 2 vir} ∪ clearedPgd (vir + 2 ^ 30) (size - 2 ^ 30)

/-- What is cleared from the start: a `PMD` entry, and then as above. -/
def clearedPmd (vir size : ℕ) : Set ℕ :=
  {va | slot 1 va = slot 1 vir} ∪ clearedPud (vir + 2 ^ 21) (size - 2 ^ 21)

lemma slot_four_eq_zero {va : ℕ} (h : va < HOST_SPACE) : slot 4 va = 0 := Nat.div_eq_of_lt h

/-- Clearing the slot of `vir` leaves the blocks after it alone. -/
lemma AllBlocks.clear {k t' : ℕ} (hwf : WF hostFormat m 3 root)
    (hb : AllBlocks m root vir (vir + size)) (hend : vir + size ≤ HOST_SPACE)
    (hk : 2 ^ (12 + 9 * k) ≤ size) (ht : tableAt hostFormat m vir k 3 root = some t') :
    Remap hostFormat 3 root 0 {va | slot k va = slot k vir} (fun _ => none) ∅ m
        (m.store (entryAddr t' (slot k vir)) 0) ∧
      AllBlocks (m.store (entryAddr t' (slot k vir)) 0) root (vir + 2 ^ (12 + 9 * k))
        (vir + 2 ^ (12 + 9 * k) + (size - 2 ^ (12 + 9 * k))) := by
  have hpos : 0 < 2 ^ (12 + 9 * k) := by positivity
  have hr := Remap.clear hwf ht
  rw [slot_four_eq_zero (by omega)] at hr
  refine ⟨hr, fun va hva => ?_⟩
  have hva := Set.mem_Ico.mp hva
  obtain ⟨x, hx, hl⟩ := hb va (Set.mem_Ico.mpr ⟨by omega, by omega⟩)
  refine ⟨x, ?_, hl⟩
  rw [hr.walk_out va (slot_four_eq_zero (by omega)), hx]
  intro hin
  have hin : va / 2 ^ (12 + 9 * k) = vir / 2 ^ (12 + 9 * k) := hin
  have : (vir + 2 ^ (12 + 9 * k)) / 2 ^ (12 + 9 * k) ≤ va / 2 ^ (12 + 9 * k) :=
    Nat.div_le_div_right hva.1
  rw [Nat.add_div_right _ hpos] at this
  omega

lemma add64_host {k : ℕ} (hend : vir + size ≤ HOST_SPACE) (hk : k ≤ size) :
    add64 vir k = vir + k := by
  unfold HOST_SPACE at hend
  exact add64_of_lt (by omega)

lemma destroyLoop_pgd (hwf : WF hostFormat m 3 root) (hb : AllBlocks m root vir (vir + size))
    (hend : vir + size ≤ HOST_SPACE) (hsize : SIZE_2M ∣ size) :
    Remap hostFormat 3 root 0 (clearedPgd vir size) (fun _ => none) ∅ m
      (destroyLoop root .pgd vir size 3 m).2 := by
  induction size using Nat.strong_induction_on generalizing vir m with
  | _ size ih =>
    unfold SIZE_2M at hsize
    rcases Nat.eq_zero_or_pos size with rfl | hpos
    · rw [destroyLoop_stop (by decide)]
      exact (Remap.refl _ hwf).congr (fun va _ => by simp [clearedPgd]) (fun _ _ _ => rfl)
    obtain ⟨x, hx, hl⟩ := hb vir (Set.mem_Ico.mpr ⟨le_rfl, by omega⟩)
    obtain ⟨t₂, t₁, hpath, -, -⟩ := blockPath_of_walk hwf hx hl
    have hgt : PAGE_SIZE < size := by
      unfold PAGE_SIZE SIZE_4K
      omega
    by_cases hlt : size < 2 ^ 39
    · rw [destroyLoop_none hgt (by rw [hpath.find_pgd, if_pos hlt])]
      refine (Remap.refl _ hwf).congr (fun va _ => ?_) (fun _ _ _ => rfl)
      simp only [clearedPgd, Set.mem_empty_iff_false, Set.mem_ofPred_eq, Nat.div_eq_of_lt hlt]
      exact ⟨False.elim, fun h => by omega⟩
    · rw [destroyLoop_some hgt (by rw [hpath.find_pgd, if_neg hlt])]
      obtain ⟨hr, hb'⟩ := hb.clear hwf hend (k := 3) (by omega) tableAt_self
      rw [show Level.pgd.mapSize = 2 ^ 39 from rfl, add64_host hend (by omega)]
      have hrest := ih (size - 2 ^ 39) (by omega) hr.wf hb' (by omega) (by unfold SIZE_2M; omega)
      refine ((hr.trans hrest).mono (by simp)).congr (fun va _ => ?_) (fun _ _ _ => rfl)
      simp only [clearedPgd, slot, Set.mem_union, Set.mem_ofPred_eq]
      omega

lemma destroyLoop_pud (hwf : WF hostFormat m 3 root) (hb : AllBlocks m root vir (vir + size))
    (hend : vir + size ≤ HOST_SPACE) (hsize : SIZE_2M ∣ size) :
    Remap hostFormat 3 root 0 (clearedPud vir size) (fun _ => none) ∅ m
      (destroyLoop root .pgd vir size 2 m).2 := by
  unfold SIZE_2M at hsize
  rcases Nat.eq_zero_or_pos size with rfl | hpos
  · rw [destroyLoop_stop (by decide)]
    exact (Remap.refl _ hwf).congr (fun va _ => by simp [clearedPud]) (fun _ _ _ => rfl)
  obtain ⟨x, hx, hl⟩ := hb vir (Set.mem_Ico.mpr ⟨le_rfl, by omega⟩)
  obtain ⟨t₂, t₁, hpath, ht₂, -⟩ := blockPath_of_walk hwf hx hl
  have hgt : PAGE_SIZE < size := by
    unfold PAGE_SIZE SIZE_4K
    omega
  by_cases hlt : size < 2 ^ 30
  · rw [destroyLoop_none hgt (by rw [hpath.find_pud, if_pos hlt]), clearedPud, if_pos hlt]
    exact Remap.refl _ hwf
  · rw [destroyLoop_some hgt (by rw [hpath.find_pud, if_neg hlt]), clearedPud, if_neg hlt]
    obtain ⟨hr, hb'⟩ := hb.clear hwf hend (k := 2) (by omega) ht₂
    rw [show Level.pud.mapSize = 2 ^ 30 from rfl, add64_host hend (by omega)]
    have hrest := destroyLoop_pgd hr.wf hb' (by omega) (by unfold SIZE_2M; omega)
    exact (hr.trans hrest).mono (by simp)

lemma destroyLoop_pmd (hwf : WF hostFormat m 3 root) (hb : AllBlocks m root vir (vir + size))
    (hend : vir + size ≤ HOST_SPACE) (hsize : SIZE_2M ∣ size) (hpos : 0 < size) :
    Remap hostFormat 3 root 0 (clearedPmd vir size) (fun _ => none) ∅ m
      (destroyLoop root .pgd vir size 0 m).2 := by
  unfold SIZE_2M at hsize
  obtain ⟨x, hx, hl⟩ := hb vir (Set.mem_Ico.mpr ⟨le_rfl, by omega⟩)
  obtain ⟨t₂, t₁, hpath, -, ht₁⟩ := blockPath_of_walk hwf hx hl
  have hgt : PAGE_SIZE < size := by
    unfold PAGE_SIZE SIZE_4K
    omega
  rw [destroyLoop_some hgt (by rw [hpath.find_pmd, if_neg (by omega)])]
  obtain ⟨hr, hb'⟩ := hb.clear hwf hend (k := 1) (by omega) ht₁
  rw [show Level.pmd.mapSize = 2 ^ 21 from rfl, add64_host hend (by omega)]
  have hrest := destroyLoop_pud hr.wf hb' (by omega) (by unfold SIZE_2M; omega)
  exact (hr.trans hrest).mono (by simp)

/-- The sizes and alignments for which the entries that are cleared are those of the range: one
block; or one block and then whole `PUD` and `PGD` entries. -/
def DestroyExact (vir size : ℕ) : Prop :=
  size = SIZE_2M ∨
    (SIZE_2M + SIZE_1G ≤ size ∧ 2 ^ 39 ∣ size - (SIZE_2M + SIZE_1G) ∧ SIZE_1G ∣ vir + SIZE_2M ∧
      (size = SIZE_2M + SIZE_1G ∨ 2 ^ 39 ∣ vir + (SIZE_2M + SIZE_1G)))

instance (vir size : ℕ) : Decidable (DestroyExact vir size) :=
  inferInstanceAs (Decidable (_ ∨ _))

lemma mem_clearedPmd {va : ℕ} : va ∈ clearedPmd vir size ↔
    va / 2 ^ 21 = vir / 2 ^ 21 ∨ (2 ^ 30 ≤ size - 2 ^ 21 ∧
      (va / 2 ^ 30 = (vir + 2 ^ 21) / 2 ^ 30 ∨
        ((vir + 2 ^ 21 + 2 ^ 30) / 2 ^ 39 ≤ va / 2 ^ 39 ∧
          va / 2 ^ 39 < (vir + 2 ^ 21 + 2 ^ 30) / 2 ^ 39 + (size - 2 ^ 21 - 2 ^ 30) / 2 ^ 39))) := by
  unfold clearedPmd clearedPud clearedPgd
  split_ifs with h
  · simp only [Set.union_empty, Set.mem_ofPred_eq, slot]
    omega
  · simp only [Set.mem_union, Set.mem_ofPred_eq, slot]
    omega

lemma clearedPmd_of_exact (hvir : SIZE_2M ∣ vir) (h : DestroyExact vir size) (va : ℕ) :
    va ∈ clearedPmd vir size ↔ va ∈ Set.Ico vir (vir + size) := by
  rw [mem_clearedPmd, Set.mem_Ico]
  unfold DestroyExact SIZE_2M SIZE_1G at h
  unfold SIZE_2M at hvir
  omega

lemma exists_notMem_clearedPmd (hvir : SIZE_2M ∣ vir) (hsize : SIZE_2M ∣ size) (hpos : 0 < size)
    (h : ¬ DestroyExact vir size) : ∃ va ∈ Set.Ico vir (vir + size), va ∉ clearedPmd vir size := by
  simp only [mem_clearedPmd, Set.mem_Ico]
  unfold DestroyExact SIZE_2M SIZE_1G at h
  unfold SIZE_2M at hvir hsize
  by_cases h₁ : size - 2 ^ 21 < 2 ^ 30
  · exact ⟨vir + 2 ^ 21, by omega, by omega⟩
  · by_cases h₂ : (size - 2 ^ 21 - 2 ^ 30) % 2 ^ 39 = 0
    · exact ⟨vir + size - 1, by omega, by omega⟩
    · -- what is left after the last whole `PGD` entry
      exact ⟨vir + 2 ^ 21 + 2 ^ 30 + (size - 2 ^ 21 - 2 ^ 30) / 2 ^ 39 * 2 ^ 39, by omega, by omega⟩

end Minos.Mmu
