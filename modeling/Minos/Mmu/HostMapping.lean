import Mathlib
import Minos.Mmu.GuestMapping

/-!
# Host mappings

The table of the hypervisor itself starts at the `PGD`, and every mapping is made of 2MiB blocks.
-/

namespace Minos.Mmu

open Radix WordMem

variable {σ : Type} {A : PageOps σ} {F : Format} {t W : ℕ}

/-- A host table: 1GiB blocks are allowed. -/
abbrev hostFormat : Format := desFormat true true

/-- The host address space below one root page. -/
def HOST_SPACE : ℕ := 0x1000000000000

lemma getMapType_host {t v p sz flags : ℕ} {l : Level} (hh : flags &&& VM_HOST ≠ 0) :
    getMapType ⟨t, v, p, sz, l, flags⟩ = if l = .pmd then VM_DES_BLOCK else VM_DES_TABLE := by
  rw [getMapType, if_pos hh]

/-- The translation of `va` after a host range from `lo` on was mapped to `phy`. -/
def hostTarget (lo phy va : ℕ) : Option Leaf := some ⟨1, leafOut 1 lo phy va⟩

lemma Piece.block_bounds {lo hi ms v sz : ℕ} (h : Piece lo hi ms v sz) (hms : SIZE_2M ∣ ms)
    (hlo : SIZE_2M ∣ lo) (hhi : SIZE_2M ∣ hi) : SIZE_2M ∣ v ∧ SIZE_2M ∣ v + sz := by
  constructor
  · rcases h.start with rfl | h
    · exact hlo
    · exact dvd_trans hms h
  · rcases h.stop with h | h
    · exact h ▸ hhi
    · exact dvd_trans hms h

/-- The call for a piece of 1GiB or less. -/
lemma createEntry_host_pmd_maps (hF : IsDes F) {flags lo hi phy : ℕ}
    (hdes : flags &&& VM_DES_MASK = 0) (hh : flags &&& VM_HOST ≠ 0) (hlo : SIZE_2M ∣ lo)
    (hhi : SIZE_2M ∣ hi) :
    ChildMaps A F .pmd flags lo hi phy (fun _ _ => True) (hostTarget lo phy) := by
  intro v sz t' s₁ s₂ hpiece hwf hs _ _ hcall
  obtain ⟨hv, hend⟩ := hpiece.block_bounds (by decide) hlo hhi
  rw [createEntry, getMapType_host hh, if_pos rfl, if_neg (by decide)] at hcall
  refine (createPageEntry_maps hF (Or.inr rfl) hdes (phyAt_lt _ _ _) hv
    ((Nat.dvd_add_right hv).mp hend) hpiece.pos hpiece.same hwf hs hcall).congr
    (fun _ _ => Iff.rfl) (fun va hva _ => ?_)
  have hva' := (Set.mem_Ico.mp hva).1
  have hle := hpiece.lo_le
  simp only [hostTarget, Level.below, Option.some.injEq, Leaf.mk.injEq, true_and]
  unfold leafOut outField phyAt
  unfold SIZE_2M at hv
  omega

/-- The call for a piece of 512GiB or less. -/
lemma createEntry_host_pud_maps (hF : IsDes F) {flags lo hi : ℕ} (phy : ℕ)
    (hdes : flags &&& VM_DES_MASK = 0) (hh : flags &&& VM_HOST ≠ 0) (hlo : SIZE_2M ∣ lo)
    (hhi : SIZE_2M ∣ hi) (hbound : hi + 2 ^ 30 ≤ 2 ^ 64) :
    ChildMaps A F .pud flags lo hi phy (fun _ x => x = none) (hostTarget lo phy) := by
  intro v sz t' s₁ s₂ hpiece hwf hs hd hQ hcall
  obtain ⟨hv, hend⟩ := hpiece.block_bounds (by decide) hlo hhi
  have hle := hpiece.le_hi
  rw [createEntry, getMapType_host hh, if_pos (by decide)] at hcall
  have hcall' : createTableEntry A (restInfo t' v (v + sz) (phyAt lo phy v) .pud flags v) s₁ =
      (0, s₂) := by
    rw [restInfo, phyAt_self (phyAt_lt _ _ _), Nat.add_sub_cancel_left]
    exact hcall
  refine (createTableEntry_maps hF (l := .pud) rfl hdes
    (createEntry_host_pmd_maps hF hdes hh hv hend) (show v + sz + 2 ^ 30 ≤ 2 ^ 64 by omega) _ v
    s₁ s₂ rfl le_rfl (Nat.le_add_right _ _) (fun _ => Or.inl rfl) hpiece.same hwf hs hd
    (fun va hva => ⟨trivial, fun x hx => ?_⟩) hcall').congr (fun _ _ => Iff.rfl)
    (fun va hva _ => ?_)
  · have hnone : walk F s₁.mem 2 t' va = none := hQ va hva
    have hsome : walk F s₁.mem 2 t' va = some x := hx
    simp [hnone] at hsome
  · have hva' := (Set.mem_Ico.mp hva).1
    have hle := hpiece.lo_le
    simp only [hostTarget, Option.some.injEq, Leaf.mk.injEq, true_and]
    unfold leafOut outField phyAt
    unfold SIZE_2M at hv
    omega

/-- What a successful host mapping of an empty range does to the table. -/
lemma createMemMapping_host_maps {root vir phy size flags : ℕ} {s s' : MmState σ}
    (hdes : flags &&& VM_DES_MASK = 0) (hh : flags &&& VM_HOST ≠ 0) (hvir : SIZE_2M ∣ vir)
    (hsize : SIZE_2M ∣ size) (hp : phy < 2 ^ 64) (hend : vir + size ≤ HOST_SPACE)
    (hwf : WF hostFormat s.mem 3 root) (hs : Supply A s.alloc)
    (hd : Disjoint (avail A s.alloc) (pages hostFormat s.mem 3 root))
    (hfree : ∀ va ∈ Set.Ico vir (vir + size), walk hostFormat s.mem 3 root va = none)
    (h : createMemMapping A root vir phy size flags s = (0, s')) :
    Maps A hostFormat 3 root 0 (Set.Ico vir (vir + size)) (hostTarget vir phy) s s' := by
  unfold HOST_SPACE at hend
  have hchild := createEntry_host_pud_maps (A := A) (isDes_desFormat true true) phy hdes hh
    hvir ((Nat.dvd_add_right hvir).mpr hsize) (by omega)
  rw [createMemMapping, startLevel, if_pos hh, ← phyAt_self hp,
    show size = vir + size - vir by omega] at h
  refine createTableEntry_maps (isDes_desFormat true true) (l := .pgd) rfl hdes hchild
    (show vir + size + 2 ^ 39 ≤ 2 ^ 64 by omega) _ vir s s' rfl
    le_rfl (Nat.le_add_right _ _) (fun _ => Or.inl rfl) (fun va hva => ?_) hwf hs hd
    (fun va hva => ⟨hfree va hva, fun x hx => ?_⟩) h
  · have := (Set.mem_Ico.mp hva).2
    exact Nat.div_eq_of_lt (show va < 2 ^ 48 by omega)
  · have hsome : walk hostFormat s.mem 3 root va = some x := hx
    simp [hfree va hva] at hsome

end Minos.Mmu
