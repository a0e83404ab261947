import Mathlib
import Minos.Mmu.Unmap

/-!
# Unmapping in a guest table

`destroy_mem_mapping` reads a guest root as a `PGD`. The entry it comes to for `vir` belongs to
the address `vir / 512` in the first GiB, so the last address of a range keeps its translation,
whatever the size of the range.
-/

namespace Minos.Mmu

open Radix WordMem

variable {σ : Type} {A : PageOps σ} {m : Mem} {root vir size lvl : ℕ}

/-- A guest table with nothing but the descriptors the mapping code makes. -/
abbrev plainGuestFormat : Format := desFormat true false

/-- No page entry of the table leads to a page of the table. -/
def PagesOutside (m : Mem) (root : ℕ) : Prop :=
  ∀ va < GUEST_SPACE, ∀ x, walk plainGuestFormat m 2 root va = some x → x.lvl = 0 →
    x.out / 4096 * 4096 ∉ pages plainGuestFormat m 2 root

lemma and_lnot_fff_mod (w : ℕ) : w &&& lnot 0xfff = w % 2 ^ 64 / 4096 * 4096 := by
  have hlt : lnot 0xfff < 2 ^ 64 := by
    rw [lnot]
    omega
  have hmod : w &&& lnot 0xfff = w % 2 ^ 64 &&& lnot 0xfff := by
    rw [← Nat.mod_eq_of_lt (lt_of_le_of_lt Nat.and_le_right hlt), Nat.and_mod_two_pow,
      Nat.mod_eq_of_lt hlt]
  rw [hmod, show 0xfff = 2 ^ 12 - 1 from rfl,
    and_lnot_pow (Nat.mod_lt _ (by norm_num)) (by norm_num)]
  norm_num

/-- At the last level number nothing is followed any more. -/
lemma findDestroyEntry_last {table entry lvl' : ℕ} {attr attr' : Level}
    (h : findDestroyEntry m vir size attr 3 table = some (entry, attr', lvl')) :
    entry = table + 8 * attr.index vir ∧ attr' = attr ∧ lvl' = 3 ∧ attr.mapSize ≤ size := by
  have hsize := findDestroyEntry_size h
  rw [findDestroyEntry] at h
  have htype : getMappingType 3 (m.word (table + 8 * attr.index vir)) ≠ VM_DES_TABLE := by
    simp only [getMappingType, Level.lvl]
    split_ifs <;> decide
  simp only [htype, if_false] at h
  split_ifs at h
  obtain ⟨rfl, rfl, rfl⟩ : _ = entry ∧ attr = attr' ∧ 3 = lvl' := by simpa using h
  exact ⟨rfl, rfl, rfl, hsize⟩

/-- An entry of a plain guest table above the last level: nothing, a table, or a block. -/
lemma plain_entry_cases {n t e : ℕ} (hwf : WF plainGuestFormat m (n + 1) t) :
    m.word (entryAddr t e) = 0 ∨
      (m.word (entryAddr t e) % 4 = 3 ∧ m.word (entryAddr t e) < 2 ^ 48 ∧
        plainGuestFormat.decode (n + 1) (m.word (entryAddr t e)) =
          .table (outField 0 (m.word (entryAddr t e)))) ∨
      (n = 0 ∧ m.word (entryAddr t e) % 4 = 1) := by
  have hleg := hwf.legal (e % 512) (Nat.mod_lt _ (by norm_num))
  rw [← entryAddr] at hleg
  simp only [desFormat, Bool.true_eq_false, Bool.false_eq_true, and_false, or_false,
    Nat.add_eq_zero_iff, one_ne_zero, false_or] at hleg
  rcases hleg with h0 | ⟨h3, hlt⟩ | ⟨h1, hn⟩
  · exact Or.inl h0
  · exact Or.inr (Or.inl ⟨h3, hlt, by simp [desFormat, desDecode, h3]⟩)
  · exact Or.inr (Or.inr ⟨by omega, h1⟩)

lemma plain_page_cases {t e : ℕ} (hwf : WF plainGuestFormat m 0 t) :
    m.word (entryAddr t e) = 0 ∨ m.word (entryAddr t e) % 4 = 3 := by
  have hleg := hwf.legal (e % 512) (Nat.mod_lt _ (by norm_num))
  rw [← entryAddr] at hleg
  simp only [desFormat, Bool.true_eq_false, Bool.false_eq_true, and_false, or_false] at hleg
  omega

/-- Every table below the root has a 48-bit address. -/
lemma plain_pages_lt {n t p : ℕ} (hp : p ∈ pages plainGuestFormat m n t) :
    p = t ∨ p < 2 ^ 48 := by
  induction n generalizing t with
  | zero => exact Or.inl hp
  | succ n ih =>
    obtain rfl | ⟨i, -, t', ht', hp'⟩ := hp
    · exact Or.inl rfl
    · right
      rcases ih hp' with rfl | h
      · simp only [desFormat, desDecode] at ht'
        split_ifs at ht'
        have : outField 0 (m.word (t + 8 * i)) = p := by simpa using ht'
        rw [← this, outField]
        omega
      · exact h

/-- The store through a page entry that was taken for a table is outside the table. -/
lemma agreeOn_pages_of_page {va w k : ℕ} (hwf : WF plainGuestFormat m 2 root)
    (hout : PagesOutside m root) (hroot : root < 2 ^ 48) (hva : va < GUEST_SPACE) (hk : k < 512)
    (h : walk plainGuestFormat m 2 root va = some ⟨0, outField 0 w + va % 2 ^ 12⟩) :
    AgreeOn (pages plainGuestFormat m 2 root) m (m.store ((w &&& lnot 0xfff) + 8 * k) 0) := by
  apply agreeOn_store
  rintro ⟨p, hp, hpa⟩
  rw [and_lnot_fff_mod] at hpa
  have hal := hwf.pages_aligned p hp
  have hlt : p < 2 ^ 48 := (plain_pages_lt hp).elim (fun h => h ▸ hroot) id
  have hpage := hout va hva _ h rfl
  have heq : p = (outField 0 w + va % 2 ^ 12) / 4096 * 4096 := by
    simp only [outField]
    omega
  exact hpage (heq ▸ hp)

/-- What the walk for `vir` comes to in a guest table: an entry of the first GiB that belongs to
the slot `vir / 512`, or a word of the page that a page entry there leads to. -/
lemma guest_find_cases (hwf : WF plainGuestFormat m 2 root) (hout : PagesOutside m root)
    (hroot : root < 2 ^ 48) (hvir : vir < GUEST_SPACE) (hlvl : lvl ≤ 3)
    (hlast : lvl = 3 → size < 2 ^ 39) {entry lvl' : ℕ} {attr : Level}
    (h : findDestroyEntry m vir size .pgd lvl root = some (entry, attr, lvl')) :
    lvl' ≤ 3 ∧
    ((∃ k va t', entry = entryAddr t' (slot k va) ∧ tableAt plainGuestFormat m va k 2 root =
        some t' ∧ k ≤ 1 ∧ va / 2 ^ 21 = vir / 2 ^ 30 ∧ va < GUEST_SPACE ∧
        (2 ^ 30 ≤ size ∨ lvl = 1)) ∨
      (lvl' = 3 ∧ AgreeOn (pages plainGuestFormat m 2 root) m (m.store entry 0))) := by
  unfold GUEST_SPACE at hvir
  have hslot3 : slot 3 vir = 0 := Nat.div_eq_of_lt (show vir < 2 ^ 39 by omega)
  have hindex := fun t l => entryAddr_index t vir l
  have hslot2 : slot 2 vir = vir / 2 ^ 30 := rfl
  -- the root entry
  rcases plain_entry_cases (e := slot 3 vir) hwf with h0 | ⟨h3, hlt, hdec⟩ | ⟨hn, -⟩
  · rw [findDestroyEntry_zero (by rw [hindex]; exact h0)] at h
    simp at h
  swap
  · omega
  by_cases hl3 : lvl = 3
  · subst hl3
    have hlt39 : size < Level.pgd.mapSize := hlast rfl
    rw [findDestroyEntry_page (by rw [hindex]; exact h3), if_pos hlt39] at h
    simp at h
  rw [findDestroyEntry_table rfl (by omega) (by rw [hindex]; exact h3), hindex] at h
  simp only [Level.below] at h
  rw [and_lnot_fff hlt] at h
  set t₀ := outField 0 (m.word (entryAddr root (slot 3 vir))) with ht₀
  rw [hslot3] at hdec
  have hwf₀ := hwf.child (i := 0) (by norm_num) hdec
  -- its table, read as a `PUD`
  have hva₁ : ∀ y < 2 ^ 30, tableAt plainGuestFormat m y 1 2 root = some t₀ := by
    intro y hy
    have hy2 : slot 2 y = 0 := Nat.div_eq_of_lt hy
    rw [tableAt_succ (by norm_num) (by rw [hy2]; exact hdec), tableAt_self]
  have hpmd : entry = entryAddr t₀ (slot 2 vir) → 2 ^ 30 ≤ size →
      ∃ k va t', entry = entryAddr t' (slot k va) ∧ tableAt plainGuestFormat m va k 2 root =
        some t' ∧ k ≤ 1 ∧ va / 2 ^ 21 = vir / 2 ^ 30 ∧ va < GUEST_SPACE ∧
        (2 ^ 30 ≤ size ∨ lvl = 1) := by
    intro he hsz
    have hs1 : slot 1 (vir / 2 ^ 30 * 2 ^ 21) = slot 2 vir := by
      simp only [slot]
      omega
    refine ⟨1, vir / 2 ^ 30 * 2 ^ 21, t₀, by rw [hs1]; exact he, hva₁ _ (by omega), le_rfl,
      by omega, by unfold GUEST_SPACE; omega, Or.inl hsz⟩
  rcases plain_entry_cases (e := slot 2 vir) hwf₀ with h0 | ⟨h3', hlt', hdec'⟩ | ⟨-, h1⟩
  · rw [findDestroyEntry_zero (by rw [hindex]; exact h0)] at h
    simp at h
  · by_cases hl2 : lvl = 2
    · subst hl2
      rw [findDestroyEntry_page (by rw [hindex]; exact h3')] at h
      split_ifs at h with hsz
      obtain ⟨he, -, rfl⟩ : _ = entry ∧ _ ∧ 3 = lvl' := by simpa using h
      exact ⟨le_rfl, Or.inl (hpmd (by rw [← he, hindex]; rfl) (not_lt.mp hsz))⟩
    rw [findDestroyEntry_table rfl (by omega) (by rw [hindex]; exact h3'),
      hindex] at h
    simp only [Level.below] at h
    rw [and_lnot_fff hlt'] at h
    set t₁ := outField 0 (m.word (entryAddr t₀ (slot 2 vir))) with ht₁
    have hwf₁ := hwf₀.child (Nat.mod_lt (slot 2 vir) (by norm_num)) hdec'
    -- the table below that, read as a `PMD`
    set va := vir / 2 ^ 30 * 2 ^ 21 + slot 1 vir % 512 * 2 ^ 12 with hva
    have hva_lt : va < 2 ^ 30 := by omega
    have hs1 : slot 1 va = slot 2 vir := by
      simp only [slot] at hva ⊢
      omega
    have hs0 : entryAddr t₁ (slot 0 va) = entryAddr t₁ (slot 1 vir) := by
      rw [entryAddr_inj]
      simp only [slot] at hva ⊢
      omega
    have hs2 : slot 2 va = 0 := Nat.div_eq_of_lt hva_lt
    have ht : tableAt plainGuestFormat m va 0 2 root = some t₁ := by
      rw [tableAt_succ (by norm_num) (by rw [hs2]; exact hdec),
        tableAt_succ (by norm_num) (by rw [hs1]; exact hdec'), tableAt_self]
    rcases plain_page_cases (e := slot 1 vir) hwf₁ with h0 | h3''
    · rw [findDestroyEntry_zero (by rw [hindex]; exact h0)] at h
      simp at h
    by_cases hl1 : lvl = 1
    · subst hl1
      rw [findDestroyEntry_page (by rw [hindex]; exact h3'')] at h
      split_ifs at h with hsz
      obtain ⟨he, -, rfl⟩ : _ = entry ∧ _ ∧ 3 = lvl' := by simpa using h
      refine ⟨le_rfl, Or.inl ⟨0, va, t₁, ?_, ht, by norm_num, by omega,
        by unfold GUEST_SPACE; omega, Or.inr rfl⟩⟩
      rw [hs0, ← he, hindex]
      rfl
    · obtain rfl : lvl = 0 := by omega
      rw [findDestroyEntry_table rfl (by omega) (by rw [hindex]; exact h3''),
        hindex] at h
      obtain ⟨rfl, -, rfl, -⟩ := findDestroyEntry_last h
      refine ⟨le_rfl, Or.inr ⟨rfl, ?_⟩⟩
      have hidx : Level.pte.index vir < 512 := by
        rw [Level.index_eq]
        exact Nat.mod_lt _ (by norm_num)
      refine agreeOn_pages_of_page hwf hout hroot
          (show va < GUEST_SPACE by unfold GUEST_SPACE; omega)
        hidx ?_
      rw [walk_table (by rw [hs2]; exact hdec), walk_table (by rw [hs1]; exact hdec'), walk, hs0]
      simp only [desFormat, desDecode, Level.below, h3'', if_true]
  · by_cases hl2 : lvl = 2
    · subst hl2
      rw [findDestroyEntry_fault (by rw [hindex]; exact h1)] at h
      simp at h
    rw [findDestroyEntry_block (by omega) (by rw [hindex]; exact h1)] at h
    split_ifs at h with hsz
    obtain ⟨he, -, rfl⟩ : _ = entry ∧ _ ∧ lvl + 1 = lvl' := by simpa using h
    exact ⟨by omega, Or.inl (hpmd (by rw [← he, hindex]; rfl) (not_lt.mp hsz))⟩

/-- With `lvl = 3` the walk stops at the root. -/
lemma destroyLoop_guest_last (hwf : WF plainGuestFormat m 2 root)
    (hsize : size < 2 ^ 39) : (destroyLoop root .pgd vir size 3 m).2 = m := by
  rcases Nat.lt_or_ge PAGE_SIZE size with hgt | hle
  swap
  · rw [destroyLoop_stop hle]
  have hnone : findDestroyEntry m vir size .pgd 3 root = none := by
    rcases plain_entry_cases (e := slot 3 vir) hwf with h0 | ⟨h3, -, -⟩ | ⟨hn, -⟩
    · exact findDestroyEntry_zero (by rw [entryAddr_index]; exact h0)
    · have hlt : size < Level.pgd.mapSize := hsize
      rw [findDestroyEntry_page (by rw [entryAddr_index]; exact h3), if_pos hlt]
    · omega
  rw [destroyLoop_none hgt hnone]

/-- Taking translations away keeps the pages of the others outside the table. -/
lemma PagesOutside.clear {R : Set ℕ} {m' : Mem} (hout : PagesOutside m root)
    (hr : Remap plainGuestFormat 2 root 0 R (fun _ => none) ∅ m m') : PagesOutside m' root := by
  intro va hva x hx hl hp
  have hwin : slot 3 va = 0 := Nat.div_eq_of_lt hva
  by_cases hin : va ∈ R
  · simp [hr.walk_in va hwin hin] at hx
  · rw [hr.walk_out va hwin hin] at hx
    exact hout va hva x hx hl (by simpa using hr.pages_sub hp)

/-- The last address of the range keeps its translation. -/
lemma destroyLoop_guest_keeps {stop : ℕ} (hwf : WF plainGuestFormat m 2 root)
    (hout : PagesOutside m root) (hroot : root < 2 ^ 48) (hstop : vir + size = stop)
    (hspace : stop ≤ GUEST_SPACE) (hlvl : lvl ≤ 3) (hlast : lvl = 3 → size < 2 ^ 39)
    (hwide : 2 ^ 21 < stop ∨ lvl = 0) :
    walk plainGuestFormat (destroyLoop root .pgd vir size lvl m).2 2 root (stop - 1) =
      walk plainGuestFormat m 2 root (stop - 1) := by
  induction size using Nat.strong_induction_on generalizing vir lvl m with
  | _ size ih =>
    rcases Nat.lt_or_ge PAGE_SIZE size with hgt | hle
    swap
    · rw [destroyLoop_stop hle]
    cases hf : findDestroyEntry m vir size .pgd lvl root with
    | none => rw [destroyLoop_none hgt hf]
    | some r =>
      obtain ⟨entry, attr, lvl'⟩ := r
      have hms : attr.mapSize ≤ size := findDestroyEntry_size hf
      have hpos := attr.mapSize_pos
      have hspace' := hspace
      unfold GUEST_SPACE at hspace'
      rw [destroyLoop_some hgt hf, add64_of_lt (by omega)]
      obtain ⟨hlvl', hcases⟩ := guest_find_cases hwf hout hroot (show vir < GUEST_SPACE by omega)
        hlvl hlast hf
      rcases hcases with ⟨k, va, t', rfl, ht, hk, hslot, hva, hwhy⟩ | ⟨rfl, hag⟩
      · -- the entry belongs to another address than the last of the range
        have hwide' : 2 ^ 21 < stop := by omega
        have hr := Remap.clear hwf ht
        rw [show slot (2 + 1) va = 0 from Nat.div_eq_of_lt hva] at hr
        rw [ih (size - attr.mapSize) (by omega) hr.wf (hout.clear hr) (by omega) hlvl'
          (fun _ => by omega) (Or.inl hwide')]
        refine hr.walk_out _ (Nat.div_eq_of_lt (show stop - 1 < 2 ^ 39 by omega)) fun hin => ?_
        have hin1 : slot 1 (stop - 1) = slot 1 va := slot_mono_eq hk hin
        simp only [slot] at hin1
        omega
      · obtain ⟨hwalk, -, hwf'⟩ := congr_of_agreeOn hag
        rw [destroyLoop_guest_last (hwf' hwf) (by omega), hwalk]

end Minos.Mmu
