import Mathlib
import Minos.Mm.Accounting
import Minos.Mm.Pages

/-!
# Where the sections are

The sections of the machine do not overlap, and nothing that the allocators do moves one of them. So
an address leads back to its section, and a block to its place in the table.
-/

namespace Minos.Mm

open Bitmap

/-- The bytes for which a bit of the bitmap of a section stands. -/
def SectionKind.unit : SectionKind → ℕ
  | .page => PAGE_SIZE
  | .block => MEM_BLOCK_SIZE

/-- The sections lie apart from each other, in whole blocks or pages. -/
structure Layout (mm : Mem) : Prop where
  apart : ∀ (i j : ℕ) (ms ms' : MemSection), mm.memSections[i]? = some ms →
    mm.memSections[j]? = some ms' → i ≠ j →
    ms.phyBase + ms.size ≤ ms'.phyBase ∨ ms'.phyBase + ms'.size ≤ ms.phyBase
  size : ∀ ms ∈ mm.memSections, ms.size = ms.nrBlocks * ms.kind.unit
  bound : ∀ ms ∈ mm.memSections, ms.phyBase + ms.size < 2 ^ 64
  aligned : ∀ ms ∈ mm.memSections, PAGE_SIZE ∣ ms.phyBase

/-- What never changes about a section. -/
def MemSection.geometry (ms : MemSection) : SectionKind × ℕ × ℕ × ℕ :=
  (ms.kind, ms.phyBase, ms.size, ms.nrBlocks)

/-- The sections are where they were. -/
def SameGeometry (mm mm' : Mem) : Prop :=
  mm'.memSections.map MemSection.geometry = mm.memSections.map MemSection.geometry

lemma SameGeometry.refl (mm : Mem) : SameGeometry mm mm := rfl

lemma SameGeometry.trans {mm mm' mm'' : Mem} (h : SameGeometry mm mm')
    (h' : SameGeometry mm' mm'') : SameGeometry mm mm'' :=
  Eq.trans h' h

lemma SameGeometry.get {mm mm' : Mem} (h : SameGeometry mm mm') {i : ℕ} {ms' : MemSection}
    (hi : mm'.memSections[i]? = some ms') :
    ∃ ms, mm.memSections[i]? = some ms ∧ ms'.kind = ms.kind ∧ ms'.phyBase = ms.phyBase ∧
      ms'.size = ms.size ∧ ms'.nrBlocks = ms.nrBlocks := by
  have hget : (mm'.memSections.map MemSection.geometry)[i]? =
      (mm.memSections.map MemSection.geometry)[i]? := by rw [h]
  rw [List.getElem?_map, List.getElem?_map, hi] at hget
  cases hms : mm.memSections[i]? with
  | none => simp [hms] at hget
  | some ms =>
    rw [hms] at hget
    simp only [Option.map_some, MemSection.geometry, Option.some.injEq, Prod.mk.injEq] at hget
    exact ⟨ms, rfl, hget⟩

lemma SameGeometry.mem {mm mm' : Mem} (h : SameGeometry mm mm') {ms' : MemSection}
    (hms' : ms' ∈ mm'.memSections) :
    ∃ ms ∈ mm.memSections, ms'.kind = ms.kind ∧ ms'.phyBase = ms.phyBase ∧
      ms'.size = ms.size ∧ ms'.nrBlocks = ms.nrBlocks := by
  obtain ⟨i, hi⟩ := List.getElem?_of_mem hms'
  obtain ⟨ms, hms, hgeo⟩ := h.get hi
  exact ⟨ms, List.mem_of_getElem? hms, hgeo⟩

lemma Layout.sameGeometry {mm mm' : Mem} (h : Layout mm) (hg : SameGeometry mm mm') :
    Layout mm' where
  apart i j ms ms' hi hj hne := by
    obtain ⟨t, ht, -, hb, hs, -⟩ := hg.get hi
    obtain ⟨t', ht', -, hb', hs', -⟩ := hg.get hj
    rw [hb, hs, hb', hs']
    exact h.apart i j t t' ht ht' hne
  size ms hms := by
    obtain ⟨t, ht, hk, -, hs, hn⟩ := hg.mem hms
    rw [hk, hs, hn]
    exact h.size t ht
  bound ms hms := by
    obtain ⟨t, ht, -, hb, hs, -⟩ := hg.mem hms
    rw [hb, hs]
    exact h.bound t ht
  aligned ms hms := by
    obtain ⟨t, ht, -, hb, -, -⟩ := hg.mem hms
    rw [hb]
    exact h.aligned t ht

/-- An address in a section leads to it. -/
lemma Layout.addrToMemSection {mm : Mem} (h : Layout mm) {i addr : ℕ} {ms : MemSection}
    (hi : mm.memSections[i]? = some ms) (hlo : ms.phyBase ≤ addr)
    (hhi : addr < ms.phyBase + ms.size) :
    addrToMemSection mm addr = some i := by
  have hsum : ∀ t ∈ mm.memSections, add64 t.phyBase t.size = t.phyBase + t.size :=
    fun t ht => add64_of_lt (h.bound t ht)
  rw [Mm.addrToMemSection, List.findIdx?_eq_some_iff_getElem]
  obtain ⟨hlt, hget⟩ := List.getElem?_eq_some_iff.1 hi
  refine ⟨hlt, ?_, fun j hj => ?_⟩
  · rw [hget, hsum ms (List.mem_of_getElem? hi)]
    exact decide_eq_true ⟨hlo, hhi⟩
  · have hjlt : j < mm.memSections.length := by omega
    rw [hsum _ (List.getElem_mem hjlt)]
    have hne := h.apart i j ms _ hi (List.getElem?_eq_getElem hjlt) (by omega)
    simp only [decide_eq_true_eq, not_and, not_lt]
    omega

/-! ### Changes to one section -/

lemma Mem.setSection_get (mm : Mem) (i j : ℕ) (f : MemSection → MemSection) :
    (mm.setSection i f).memSections[j]? =
      if i = j then mm.memSections[j]?.map f else mm.memSections[j]? := by
  rw [Mem.setSection, List.getElem?_modify]
  cases mm.memSections[j]? with
  | none => simp
  | some ms => split_ifs <;> simp_all

lemma Mem.setSection_sameGeometry {mm : Mem} {i : ℕ} {f : MemSection → MemSection}
    (hf : ∀ ms, (f ms).geometry = ms.geometry) : SameGeometry mm (mm.setSection i f) := by
  refine List.ext_getElem? fun j => ?_
  rw [List.getElem?_map, List.getElem?_map, Mem.setSection_get]
  split_ifs
  · rw [Option.map_map, show MemSection.geometry ∘ f = MemSection.geometry from funext hf]
  · rfl

lemma Mem.setBlock_sameGeometry (mm : Mem) (b : BlockRef) (f : MemBlock → MemBlock) :
    SameGeometry mm (mm.setBlock b f) :=
  Mem.setSection_sameGeometry fun _ => rfl

/-! ### Blocks that are taken -/

/-- The block is handed out. -/
def Taken (mm : Mem) (b : BlockRef) : Prop :=
  ∃ ms, mm.memSections[b.sec]? = some ms ∧ ms.kind = .block ∧ b.bit < ms.nrBlocks ∧
    ms.bitmap b.bit = true

/-- What an allocation of a block does: a free block of one section is taken. -/
lemma allocMemBlock_cases {mm mm' : Mem} {flags : ℕ} {b : BlockRef}
    (h : allocMemBlock mm flags = some (b, mm')) :
    ∃ ms, mm.memSections[b.sec]? = some ms ∧ ms.kind = .block ∧ b.bit < ms.nrBlocks ∧
      ms.bitmap b.bit = false ∧
      ∀ j, mm'.memSections[j]? =
        if b.sec = j then some (takeBlock ms b.bit flags) else mm.memSections[j]? := by
  simp only [allocMemBlock, Option.map_eq_some_iff, Prod.mk.injEq] at h
  obtain ⟨⟨b', l'⟩, hfrom, rfl, rfl⟩ := h
  obtain ⟨pre, s, s', post, hl, hl', hk, hsec, hin⟩ := allocMemBlockFrom_cases hfrom
  obtain ⟨-, hbit, hfree, rfl⟩ := allocMemBlockIn_cases hin
  rw [Nat.zero_add] at hsec
  dsimp only at hsec hl' ⊢
  refine ⟨s, by rw [hl, hsec]; simp, hk, hbit, hfree, fun j => ?_⟩
  rw [hl', hl, hsec]
  by_cases hj : pre.length = j
  · subst hj
    simp
  · rw [if_neg hj]
    rcases Nat.lt_or_ge j pre.length with hlt | hge
    · rw [List.getElem?_append_left hlt, List.getElem?_append_left hlt]
    · obtain ⟨k, hk⟩ : ∃ k, j - pre.length = k + 1 := ⟨j - pre.length - 1, by omega⟩
      rw [List.getElem?_append_right hge, List.getElem?_append_right hge, hk,
        List.getElem?_cons_succ, List.getElem?_cons_succ]

lemma allocMemBlock_sameGeometry {mm mm' : Mem} {flags : ℕ} {b : BlockRef}
    (h : allocMemBlock mm flags = some (b, mm')) : SameGeometry mm mm' := by
  obtain ⟨ms, hms, -, -, -, hget⟩ := allocMemBlock_cases h
  refine List.ext_getElem? fun j => ?_
  rw [List.getElem?_map, List.getElem?_map, hget]
  split_ifs with hj
  · subst hj
    rw [hms]
    rfl
  · rfl

end Minos.Mm
