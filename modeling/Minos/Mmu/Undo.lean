import Mathlib
import Minos.Mmu.GuestUnmap

/-!
# Unmapping and mapping

Does unmapping a range take back what mapping it did? For host tables only for the sizes and
alignments of `DestroyExact`, for guest tables never.
-/

namespace Minos.Mmu

open Radix WordMem

variable {σ : Type} {A : PageOps σ}

/-- The format of the table that `flags` are for. -/
def tableFormat (flags : ℕ) : Format :=
  if flags &&& VM_HOST ≠ 0 then hostFormat else plainGuestFormat

/-- The addresses that the table covers. -/
def tableSpace (flags : ℕ) : ℕ := if flags &&& VM_HOST ≠ 0 then HOST_SPACE else GUEST_SPACE

/-- The unit of the ranges that are mapped. -/
def tableUnit (flags : ℕ) : ℕ := if flags &&& VM_HOST ≠ 0 then SIZE_2M else PAGE_SIZE

def tableTranslate (flags : ℕ) (m : Mem) (root va : ℕ) : Option ℕ :=
  (walk (tableFormat flags) m (startLevel flags).below root va).map Leaf.out

/-- `destroy_host_mapping` for a host table, `destroy_guest_mapping` for a guest table. -/
def destroyMapping (flags root vir size : ℕ) (s : MmState σ) : ℤ × MmState σ :=
  if flags &&& VM_HOST ≠ 0 then destroyHostMapping root vir size s
  else destroyGuestMapping root vir size s

/-- A successful mapping of a range that the table does not translate. -/
structure MapRequest (A : PageOps σ) (root vir phy size flags : ℕ) (s s' : MmState σ) : Prop where
  wf : WF (tableFormat flags) s.mem (startLevel flags).below root
  root_lt : root < 2 ^ 48
  supply : Supply A s.alloc
  fresh : Disjoint (avail A s.alloc) (pages (tableFormat flags) s.mem (startLevel flags).below root)
  des : flags &&& VM_DES_MASK = 0
  vir_dvd : tableUnit flags ∣ vir
  size_dvd : tableUnit flags ∣ size
  phy_dvd : 4096 ∣ phy
  phy_lt : phy < 2 ^ 64
  size_pos : 0 < size
  inSpace : vir + size ≤ tableSpace flags
  free : ∀ va ∈ Set.Ico vir (vir + size), tableTranslate flags s.mem root va = none
  /-- A guest is not given pages of its own table, before or by this mapping. -/
  outside : flags &&& VM_HOST = 0 →
    (∀ va < GUEST_SPACE, ∀ out, tableTranslate flags s.mem root va = some out →
      out / 4096 * 4096 ∉ pages plainGuestFormat s.mem 2 root ∪ avail A s.alloc) ∧
    ∀ va ∈ Set.Ico vir (vir + size), (phy + (va - vir)) % 2 ^ 48 / 4096 * 4096 ∉
      pages plainGuestFormat s.mem 2 root ∪ avail A s.alloc
  ret : createMemMapping A root vir phy size flags s = (0, s')

/-- Unmapping the range leaves it without translation, and every other address as it was before
the range was mapped. -/
def Undone (flags root vir size : ℕ) (s s' : MmState σ) : Prop :=
  let s'' := (destroyMapping flags root vir size s').2
  (∀ va ∈ Set.Ico vir (vir + size), tableTranslate flags s''.mem root va = none) ∧
    ∀ va < tableSpace flags, va ∉ Set.Ico vir (vir + size) →
      tableTranslate flags s''.mem root va = tableTranslate flags s.mem root va

/-! ### Rounding does nothing to an aligned range -/

lemma align_of_dvd {x k : ℕ} (hk : k ≤ 64) (h : 2 ^ k ∣ x) (hx : x < 2 ^ 64) :
    align x (2 ^ k) = x := by
  rw [align_pow hx hk, Nat.div_mul_cancel h]

lemma balign_of_dvd {x k : ℕ} (hk : k ≤ 64) (h : 2 ^ k ∣ x) (hx : x + 2 ^ k ≤ 2 ^ 64) :
    balign x (2 ^ k) = x := by
  have hpos : 0 < 2 ^ k := by positivity
  obtain ⟨c, rfl⟩ := h
  have hdiv : (2 ^ k * c + 2 ^ k - 1) / 2 ^ k = c := by
    rw [Nat.div_eq_iff hpos, mul_comm c]
    omega
  rw [balign_pow hx hk, hdiv, mul_comm]

/-- Both destroy functions walk the range as it is when it is aligned. -/
lemma destroyMapping_eq {flags vir size : ℕ} (root : ℕ) (s : MmState σ)
    (hvir : tableUnit flags ∣ vir) (hsize : tableUnit flags ∣ size)
    (hend : vir + size ≤ tableSpace flags) :
    (destroyMapping flags root vir size s).2.mem =
      (destroyLoop root .pgd vir size 0 s.mem).2 := by
  have hspace : tableSpace flags ≤ 2 ^ 48 := by
    unfold tableSpace
    split_ifs <;> decide
  have hend64 : add64 vir size = vir + size := add64_of_lt (by omega)
  have key : ∀ k ≤ 21, 2 ^ k ∣ vir → 2 ^ k ∣ vir + size →
      sub64 (balign (add64 vir size) (2 ^ k)) vir = size ∧ align vir (2 ^ k) = vir := by
    intro k hk h₁ h₂
    have hpow : 2 ^ k ≤ 2 ^ 21 := Nat.pow_le_pow_right (by norm_num) hk
    have halign := align_of_dvd (by omega) h₁ (show vir < 2 ^ 64 by omega)
    rw [hend64, balign_of_dvd (by omega) h₂ (by omega), sub64_of_le (by omega) (by omega)]
    exact ⟨by omega, halign⟩
  have hlong : size < 2 ^ 63 := by omega
  have hmem : (destroyMemMapping root vir size s).2.mem =
      (destroyLoop root .pgd vir size 0 s.mem).2 := by
    rw [destroyMemMapping]
    simp only [hlong, if_true, Level.lvl]
  unfold destroyMapping
  by_cases hh : flags &&& VM_HOST ≠ 0
  · rw [tableUnit, if_pos hh] at hvir hsize
    obtain ⟨h₁, h₂⟩ := key 21 le_rfl hvir ((Nat.dvd_add_right hvir).mpr hsize)
    rw [if_pos hh, destroyHostMapping, show MEM_BLOCK_SIZE = 2 ^ 21 from rfl]
    simp only [h₁, h₂, hmem]
  · rw [tableUnit, if_neg hh] at hvir hsize
    obtain ⟨h₁, h₂⟩ := key 12 (by norm_num) hvir ((Nat.dvd_add_right hvir).mpr hsize)
    rw [if_neg hh, destroyGuestMapping, show PAGE_SIZE = 2 ^ 12 from rfl]
    simp only [h₁, h₂, hmem]

/-! ### The two kinds of tables -/

variable {root vir phy size flags : ℕ} {s s' : MmState σ}

/-- In a host table the range is left exactly when all the entries cleared are its own. -/
lemma MapRequest.host_undone_iff (hh : flags &&& VM_HOST ≠ 0)
    (h : MapRequest A root vir phy size flags s s') :
    Undone flags root vir size s s' ↔ DestroyExact vir size := by
  have hmem := destroyMapping_eq root s' h.vir_dvd h.size_dvd h.inSpace
  have hwf := h.wf
  have hfresh := h.fresh
  have hvir := h.vir_dvd
  have hsize := h.size_dvd
  have hend := h.inSpace
  have hfree := h.free
  simp only [tableFormat, tableTranslate, tableUnit, tableSpace, startLevel, if_pos hh,
    Level.below] at hwf hfresh hvir hsize hend hfree
  have hm := createMemMapping_host_maps h.des hh hvir hsize h.phy_lt hend hwf h.supply hfresh
    (fun va hva => by simpa using hfree va hva) h.ret
  have hb : AllBlocks s'.mem root vir (vir + size) := fun va hva =>
    ⟨_, hm.walk_in va (slot_four_eq_zero (by have := Set.mem_Ico.mp hva; omega)) hva, rfl⟩
  have hr := destroyLoop_pmd hm.wf hb hend hsize h.size_pos
  rw [← hmem] at hr
  simp only [Undone, tableTranslate, tableFormat, tableSpace, startLevel, if_pos hh, Level.below]
  constructor
  · rintro ⟨hin, -⟩
    by_contra hno
    obtain ⟨va, hva, hva'⟩ := exists_notMem_clearedPmd hvir hsize h.size_pos hno
    have hslot : slot 4 va = 0 := slot_four_eq_zero (by have := Set.mem_Ico.mp hva; omega)
    have := hin va hva
    rw [hr.walk_out va hslot hva', hm.walk_in va hslot hva] at this
    simp [hostTarget] at this
  · intro hex
    have hset := clearedPmd_of_exact hvir hex
    refine ⟨fun va hva => ?_, fun va hlt hva => ?_⟩
    · rw [hr.walk_in va (slot_four_eq_zero (by have := Set.mem_Ico.mp hva; omega))
        ((hset va).mpr hva), Option.map_none]
    · have hslot := slot_four_eq_zero hlt
      rw [hr.walk_out va hslot (fun h => hva ((hset va).mp h)), hm.walk_out va hslot hva]

/-- In a guest table the last address of the range is still translated. -/
lemma MapRequest.guest_not_undone (hg : flags &&& VM_HOST = 0)
    (h : MapRequest A root vir phy size flags s s') : ¬ Undone flags root vir size s s' := by
  have hmem := destroyMapping_eq root s' h.vir_dvd h.size_dvd h.inSpace
  have hwf := h.wf
  have hfresh := h.fresh
  have hvir := h.vir_dvd
  have hsize := h.size_dvd
  have hend := h.inSpace
  have hfree := h.free
  obtain ⟨hram, hphy⟩ := h.outside hg
  have hn : ¬ flags &&& VM_HOST ≠ 0 := not_not.mpr hg
  simp only [tableFormat, tableTranslate, tableUnit, tableSpace, startLevel, if_neg hn,
    Level.below] at hwf hfresh hvir hsize hend hfree hram
  have hpos := h.size_pos
  have hm := createMemMapping_guest_maps h.des hg hvir hsize h.phy_dvd h.phy_lt hend hwf h.supply
    hfresh (fun va hva _ x hx => by
      have := hfree va hva
      simp [hx] at this) h.ret
  have hwin : ∀ va < GUEST_SPACE, slot 3 va = 0 := fun va hva => Nat.div_eq_of_lt hva
  have hout : PagesOutside s'.mem root := by
    intro va hva x hx hl hp
    obtain ⟨N, hN, hr, -⟩ := hm
    have hp' : x.out / 4096 * 4096 ∈ pages plainGuestFormat s.mem 2 root ∪ avail A s.alloc :=
      Set.union_subset_union_right _ hN (hr.pages_sub hp)
    by_cases hin : va ∈ Set.Ico vir (vir + size)
    · rw [hr.walk_in va (hwin va hva) hin, guestTarget, Option.some.injEq] at hx
      by_cases hb : BlockPiece vir (vir + size) va
      · rw [if_pos hb] at hx
        exact absurd (hl.symm.trans (congrArg Leaf.lvl hx).symm) zero_ne_one
      · rw [if_neg hb] at hx
        rw [← congrArg Leaf.out hx] at hp'
        exact hphy va hin hp'
    · rw [hr.walk_out va (hwin va hva) hin] at hx
      exact hram va hva x.out (by simp [hx]) hp'
  have hkeep := destroyLoop_guest_keeps hm.wf hout h.root_lt rfl hend (Nat.zero_le 3)
    (by norm_num) (Or.inr rfl)
  rw [← hmem] at hkeep
  rintro ⟨hin, -⟩
  have hlast : vir + size - 1 ∈ Set.Ico vir (vir + size) := Set.mem_Ico.mpr ⟨by omega, by omega⟩
  have hnone := hin _ hlast
  simp only [tableTranslate, tableFormat, startLevel, if_neg hn, Level.below] at hnone
  rw [hkeep, hm.walk_in _ (hwin _ (by omega)) hlast] at hnone
  simp [guestTarget] at hnone

/-- Unmapping takes back what mapping did exactly for the host ranges of `DestroyExact`. -/
theorem destroyMapping_undoes_iff (h : MapRequest A root vir phy size flags s s') :
    Undone flags root vir size s s' ↔ flags &&& VM_HOST ≠ 0 ∧ DestroyExact vir size := by
  by_cases hh : flags &&& VM_HOST ≠ 0
  · rw [h.host_undone_iff hh]
    exact ⟨fun hex => ⟨hh, hex⟩, fun hex => hex.2⟩
  · have hnot := h.guest_not_undone (not_not.mp hh)
    exact ⟨fun hun => absurd hun hnot, fun hex => absurd hex.1 hh⟩

/-- A range mapped in the empty table with the root at `0x1000`. -/
def mapZero (vir size flags : ℕ) : ℤ × MmState (List ℕ) :=
  createMemMapping listPages 0x1000 vir 0x80000000 size flags (zeroState [0x2000, 0x3000])

theorem destroyMapping_undoes_iff_one_block :
    Undone (VM_HOST ||| VM_NORMAL) 0x1000 0x40000000 SIZE_2M (zeroState [0x2000, 0x3000])
      (mapZero 0x40000000 SIZE_2M (VM_HOST ||| VM_NORMAL)).2 := by
  have hret : (mapZero 0x40000000 SIZE_2M (VM_HOST ||| VM_NORMAL)).1 = 0 := by decide +kernel
  have hzero := fun F n => zero_table (F := F) (n := n) (m := (zeroState [0x2000, 0x3000]).mem)
    (t := 0x1000) (fun _ _ _ => rfl) (by decide)
  refine (destroyMapping_undoes_iff (A := listPages)
    ⟨(hzero _ _).1, by decide, zeroState_supply, ?_, by decide, by decide, by decide, by decide,
      by decide, by decide, by decide, fun va _ => ?_, fun h => absurd h (by decide),
      Prod.ext hret rfl⟩).mpr ⟨by decide, by decide⟩
  · rw [(hzero _ _).2.1]
    simp [zeroState, avail_listPages]
  · rw [tableTranslate, (hzero _ _).2.2 va, Option.map_none]

/-- Two blocks of the host, and three pages of a guest: both requests succeed on an empty table,
and after unmapping the last address is still translated. -/
theorem destroyMapping_leaves_translations :
    ((mapZero 0x40000000 0x400000 (VM_HOST ||| VM_NORMAL)).1 = 0 ∧
      tableTranslate (VM_HOST ||| VM_NORMAL) (destroyMapping (VM_HOST ||| VM_NORMAL) 0x1000
        0x40000000 0x400000 (mapZero 0x40000000 0x400000 (VM_HOST ||| VM_NORMAL)).2).2.mem 0x1000
        0x40200000 = some 0x80200000) ∧
    (mapZero 0x40200000 0x3000 VM_NORMAL).1 = 0 ∧
      tableTranslate VM_NORMAL (destroyMapping VM_NORMAL 0x1000 0x40200000 0x3000
        (mapZero 0x40200000 0x3000 VM_NORMAL).2).2.mem 0x1000 0x40202000 = some 0x80002000 := by
  refine ⟨?_, ?_⟩
  · decide +kernel
  · decide +kernel

end Minos.Mmu
