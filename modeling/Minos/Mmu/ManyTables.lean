import Mathlib
import Minos.Mmu.FailedMapping

/-!
# The tables of several VMs

Every VM has a table of its own. The tables lie in one memory and take their pages from one
allocator, so a mapping for one VM must leave the tables of the others alone.
-/

namespace Minos.Mmu

open Radix WordMem

variable {σ : Type} {A : PageOps σ} {roots : Set ℕ} {s s' : MmState σ}

/-- The pages of the tables with these roots, and the pages that are free. -/
def tableMemory (A : PageOps σ) (roots : Set ℕ) (s : MmState σ) : Set ℕ :=
  {p | ∃ root ∈ roots, p ∈ pages guestFormat s.mem 2 root} ∪ avail A s.alloc

/-- The tables with these roots are trees that share no page, and no guest address leads to one of
their pages or to a free page. -/
structure Tables (A : PageOps σ) (roots : Set ℕ) (s : MmState σ) : Prop where
  wf : ∀ root ∈ roots, WF guestFormat s.mem 2 root
  supply : Supply A s.alloc
  fresh : ∀ root ∈ roots, Disjoint (avail A s.alloc) (pages guestFormat s.mem 2 root)
  apart : roots.Pairwise fun root root' =>
    Disjoint (pages guestFormat s.mem 2 root) (pages guestFormat s.mem 2 root')
  ram : ∀ root ∈ roots, ∀ va < GUEST_SPACE, ∀ x, walk guestFormat s.mem 2 root va = some x →
    x.out / 4096 * 4096 ∉ tableMemory A roots s

/-- The memory that belongs to no table. -/
def otherMemory (A : PageOps σ) (roots : Set ℕ) (s : MmState σ) : Set ℕ :=
  {p | 4096 ∣ p ∧ p ∉ tableMemory A roots s}

lemma pages_subset_tableMemory {root : ℕ} (hroot : root ∈ roots) :
    pages guestFormat s.mem 2 root ∪ avail A s.alloc ⊆ tableMemory A roots s :=
  Set.union_subset_union_left _ fun _ hp => ⟨root, hroot, hp⟩

lemma otherMemory_disjoint : Disjoint (otherMemory A roots s) (tableMemory A roots s) :=
  Set.disjoint_left.2 fun _ hp => hp.2

namespace Tables

/-- The list of the pages of one table does not matter. -/
lemma with_head (h : Tables A roots s) (head : List ℕ) : Tables A roots { s with head := head } :=
  ⟨h.wf, h.supply, h.fresh, h.apart, h.ram⟩

/-- What an update of one table does to the tables of the others. -/
lemma others (h : Tables A roots s) {root root' : ℕ} (hroot : root ∈ roots) (hroot' : root' ∈ roots)
    (hne : root' ≠ root) {R : Set ℕ} {g : ℕ → Option Leaf}
    (hm : MapsOver A (otherMemory A roots s) guestFormat 2 root 0 R g s s') :
    AgreeOn (pages guestFormat s.mem 2 root') s.mem s'.mem := by
  refine hm.confined.agreeOn (fun p hp => ?_) (h.wf root' hroot').pages_aligned ?_
  · rcases hp with hp | hp | hp
    · exact (h.wf root hroot).pages_aligned p hp
    · exact h.supply.aligned p hp
    · exact hp.1
  · refine Disjoint.union_left (h.apart hroot hroot' hne.symm) (Disjoint.union_left
      (h.fresh root' hroot') ?_)
    exact otherMemory_disjoint.mono_right (Set.subset_union_left.trans
      (pages_subset_tableMemory hroot'))

/-- An update of one table takes its pages from the free ones. -/
lemma tableMemory_subset (h : Tables A roots s) {root : ℕ} (hroot : root ∈ roots) {R : Set ℕ}
    {g : ℕ → Option Leaf}
    (hm : MapsOver A (otherMemory A roots s) guestFormat 2 root 0 R g s s') :
    tableMemory A roots s' ⊆ tableMemory A roots s := by
  rintro p (⟨root', hroot', hp⟩ | hp)
  · by_cases hne : root' = root
    · subst hne
      obtain ⟨N, hN, -, hsub, -⟩ := hm
      exact (hsub hp).elim (fun hp => Or.inl ⟨root', hroot', hp⟩) fun hp => Or.inr (hN hp)
    · rw [(congr_of_agreeOn (h.others hroot hroot' hne hm)).2.1] at hp
      exact Or.inl ⟨root', hroot', hp⟩
  · exact Or.inr (hm.avail_subset hp)

/-- An update of one table keeps all the tables when it maps to other memory. -/
lemma of_mapsOver (h : Tables A roots s) {root : ℕ} (hroot : root ∈ roots) {R : Set ℕ}
    {g : ℕ → Option Leaf}
    (hm : MapsOver A (otherMemory A roots s) guestFormat 2 root 0 R g s s')
    (hg : ∀ va ∈ R, ∀ x, g va = some x → x.out / 4096 * 4096 ∉ tableMemory A roots s) :
    Tables A roots s' where
  wf := by
    intro root' hroot'
    by_cases hne : root' = root
    · exact hne ▸ hm.wf
    · exact (congr_of_agreeOn (h.others hroot hroot' hne hm)).2.2 (h.wf root' hroot')
  supply := hm.supply
  fresh := by
    intro root' hroot'
    by_cases hne : root' = root
    · exact hne ▸ hm.fresh (h.fresh root hroot)
    · rw [(congr_of_agreeOn (h.others hroot hroot' hne hm)).2.1]
      exact (h.fresh root' hroot').mono_left hm.avail_subset
  apart := by
    have hnew : ∀ root' ∈ roots, root' ≠ root → Disjoint (pages guestFormat s'.mem 2 root)
        (pages guestFormat s'.mem 2 root') := by
      intro root' hroot' hne
      rw [(congr_of_agreeOn (h.others hroot hroot' hne hm)).2.1]
      obtain ⟨N, hN, -, hsub, -⟩ := hm
      exact (Disjoint.union_left (h.apart hroot hroot' hne.symm)
        ((h.fresh root' hroot').mono_left hN)).mono_left hsub
    intro root₁ h₁ root₂ h₂ hne
    by_cases heq₁ : root₁ = root
    · subst heq₁
      exact hnew root₂ h₂ hne.symm
    · by_cases heq₂ : root₂ = root
      · subst heq₂
        exact (hnew root₁ h₁ hne).symm
      · rw [(congr_of_agreeOn (h.others hroot h₁ heq₁ hm)).2.1,
          (congr_of_agreeOn (h.others hroot h₂ heq₂ hm)).2.1]
        exact h.apart h₁ h₂ hne
  ram := by
    intro root' hroot' va hva x hx hin
    have hin := h.tableMemory_subset hroot hm hin
    by_cases hne : root' = root
    · subst hne
      have hslot : slot 3 va = 0 := Nat.div_eq_of_lt hva
      by_cases hR : va ∈ R
      · rw [hm.walk_in va hslot hR] at hx
        exact hg va hR x hx hin
      · rw [hm.walk_out va hslot hR] at hx
        exact h.ram root' hroot' va hva x hx hin
    · rw [(congr_of_agreeOn (h.others hroot hroot' hne hm)).1] at hx
      exact h.ram root' hroot' va hva x hx hin

end Tables

/-- The first table for which there is no page, if there is one, is not missing in a table that the
mapping makes itself. -/
def NoneInNew (A : PageOps σ) (s : MmState σ) (root lo hi : ℕ) : Prop :=
  ∀ n need, PagesLeft A s.alloc n → (tableNeeds s.mem root lo hi)[n]? = some need →
    need.inNew = false

/-- What a mapping for one VM has done that came to the address `f`. -/
structure MapsUpTo (A : PageOps σ) (roots : Set ℕ) (root lo hi phy f : ℕ) (s s' : MmState σ) :
    Prop where
  tables : Tables A roots s'
  memory : tableMemory A roots s' ⊆ tableMemory A roots s
  mapped : ∀ va ∈ Set.Ico lo f,
    NoBlockUnder lo hi va (walk guestFormat s.mem 2 root va) →
    walk guestFormat s'.mem 2 root va = guestTarget lo hi phy va
  kept : ∀ va < GUEST_SPACE, (va ∈ Set.Ico lo f →
      ¬ NoBlockUnder lo hi va (walk guestFormat s.mem 2 root va)) →
    walk guestFormat s'.mem 2 root va = walk guestFormat s.mem 2 root va
  others : ∀ root' ∈ roots, root' ≠ root → ∀ va,
    walk guestFormat s'.mem 2 root' va = walk guestFormat s.mem 2 root' va

/-- A mapping for one VM, whatever it returns, when it gives no page back. -/
lemma Tables.createMemMapping (h : Tables A roots s) {root vir phy size flags : ℕ} {ret : ℤ}
    (hroot : root ∈ roots) (hguest : flags &&& VM_HOST = 0) (hdes : flags &&& VM_DES_MASK = 0)
    (hvir : 4096 ∣ vir) (hphy : 4096 ∣ phy) (hsize : 4096 ∣ size) (hphy64 : phy < 2 ^ 64)
    (hend : vir + size ≤ GUEST_SPACE)
    (hbuf : ∀ va ∈ Set.Ico vir (vir + size), ∀ x, guestTarget vir (vir + size) phy va = some x →
      x.out / 4096 * 4096 ∉ tableMemory A roots s)
    (hback : ret = 0 ∨ NoneInNew A s root vir (vir + size))
    (hrun : createMemMapping A root vir phy size flags s = (ret, s')) :
    ∃ f, vir ≤ f ∧ f ≤ vir + size ∧ (ret = 0 → f = vir + size) ∧
      MapsUpTo A roots root vir (vir + size) phy f s s' := by
  obtain ⟨f, s₂, hle, hf, hm, hstop⟩ := createMemMapping_guest_run (h.wf root hroot) h.supply
    (h.fresh root hroot) (fun p hp => hp.1)
    (otherMemory_disjoint.mono_right (pages_subset_tableMemory hroot))
    (fun va hva x hx => ⟨Nat.dvd_mul_left 4096 _, h.ram root hroot va hva x hx⟩) hguest hdes hvir
    hphy hsize hphy64 hend hrun
  obtain ⟨rfl, hzero⟩ : s' = s₂ ∧ (ret = 0 → f = vir + size) := by
    rcases hstop with ⟨hret, rfl, rfl, -⟩ | ⟨hret, n, need, hget, -, htake, hnone, hun⟩
    · exact ⟨rfl, fun _ => rfl⟩
    · have hne : ret ≠ 0 := by
        rw [hret]
        decide
      have hold := hback.resolve_left hne n need ⟨_, htake, hnone⟩ hget
      rw [Unwound, if_neg (by simp [hold])] at hun
      exact ⟨hun, fun h => absurd h hne⟩
  have hspace : ∀ va ∈ Set.Ico vir f, va < GUEST_SPACE := fun va hva => by
    have := (Set.mem_Ico.1 hva).2
    omega
  refine ⟨f, hle, hf, hzero, ?_, h.tableMemory_subset hroot hm, fun va hva hno => ?_,
    fun va hva hout => ?_,
    fun root' hroot' hne va => (congr_of_agreeOn (h.others hroot hroot' hne hm)).1 va⟩
  · refine h.of_mapsOver hroot hm fun va hva => hbuf va (Set.mem_Ico.2 ?_)
    have := Set.mem_Ico.1 hva.1
    omega
  · exact hm.walk_in va (Nat.div_eq_of_lt (hspace va hva)) ⟨hva, hno⟩
  · exact hm.walk_out va (Nat.div_eq_of_lt hva) fun hin => hout hin.1 hin.2

/-! ### Requests that are rounded to pages -/

/-- The page of an address. -/
def pageStart (a : ℕ) : ℕ := a / 4096 * 4096

/-- The first page from an address on. -/
def pageStop (a : ℕ) : ℕ := (a + 4095) / 4096 * 4096

lemma dvd_pageStart (a : ℕ) : 4096 ∣ pageStart a := Nat.dvd_mul_left 4096 _

lemma dvd_pageStop (a : ℕ) : 4096 ∣ pageStop a := Nat.dvd_mul_left 4096 _

lemma pageStart_le (a : ℕ) : pageStart a ≤ a := Nat.div_mul_le_self a 4096

lemma le_pageStop (a : ℕ) : a ≤ pageStop a := by
  unfold pageStop
  omega

lemma pageStop_le_space {a : ℕ} (h : a ≤ GUEST_SPACE) : pageStop a ≤ GUEST_SPACE := by
  unfold pageStop GUEST_SPACE at *
  omega

/-- `create_guest_mapping` maps the pages of the range. -/
lemma createGuestMapping_rounds {root vir phy size flags : ℕ} (s : MmState σ)
    (hend : vir + size ≤ GUEST_SPACE) (hphy : phy < 2 ^ 64) :
    createGuestMapping A root vir phy size flags s =
      createMemMapping A root (pageStart vir) (pageStart phy)
        (pageStop (vir + size) - pageStart vir) flags s := by
  have hspace : GUEST_SPACE = 2 ^ 39 := by decide
  have hpage : PAGE_SIZE = 2 ^ 12 := rfl
  have hsum : add64 vir size = vir + size := add64_of_lt (by omega)
  have htmp : balign (vir + size) PAGE_SIZE = pageStop (vir + size) := by
    rw [hpage, balign_pow (by omega) (by norm_num)]
    rfl
  have hal : ∀ x < 2 ^ 64, align x PAGE_SIZE = pageStart x := by
    intro x hx
    rw [hpage, align_pow hx (by norm_num)]
    rfl
  have hstop := pageStop_le_space hend
  have hsub : sub64 (pageStop (vir + size)) (pageStart vir) =
      pageStop (vir + size) - pageStart vir := by
    have := pageStart_le vir
    have := le_pageStop (vir + size)
    rw [sub64]
    omega
  rw [createGuestMapping, hsum, htmp, hal vir (by omega), hal phy hphy, hsub]

/-- `create_guest_mapping` for one VM, whatever it returns, when it gives no page back. -/
lemma Tables.createGuestMapping (h : Tables A roots s) {root vir phy size flags : ℕ} {ret : ℤ}
    (hroot : root ∈ roots) (hguest : flags &&& VM_HOST = 0) (hdes : flags &&& VM_DES_MASK = 0)
    (hphy : phy < 2 ^ 64) (hend : vir + size ≤ GUEST_SPACE)
    (hbuf : ∀ va ∈ Set.Ico (pageStart vir) (pageStop (vir + size)), ∀ x,
      guestTarget (pageStart vir) (pageStop (vir + size)) (pageStart phy) va = some x →
      x.out / 4096 * 4096 ∉ tableMemory A roots s)
    (hback : ret = 0 ∨ NoneInNew A s root (pageStart vir) (pageStop (vir + size)))
    (hrun : Mmu.createGuestMapping A root vir phy size flags s = (ret, s')) :
    ∃ f, pageStart vir ≤ f ∧ f ≤ pageStop (vir + size) ∧ (ret = 0 → f = pageStop (vir + size)) ∧
      MapsUpTo A roots root (pageStart vir) (pageStop (vir + size)) (pageStart phy) f s s' := by
  have hle : pageStart vir ≤ pageStop (vir + size) := by
    have := pageStart_le vir
    have := le_pageStop (vir + size)
    omega
  have hsum : pageStart vir + (pageStop (vir + size) - pageStart vir) = pageStop (vir + size) := by
    omega
  rw [createGuestMapping_rounds s hend hphy] at hrun
  have hmap := h.createMemMapping hroot hguest hdes (dvd_pageStart vir) (dvd_pageStart phy)
    (Nat.dvd_sub (dvd_pageStop _) (dvd_pageStart _)) (lt_of_le_of_lt (pageStart_le phy) hphy)
    (by rw [hsum]; exact pageStop_le_space hend) (by rw [hsum]; exact hbuf)
    (by rw [hsum]; exact hback) hrun
  rwa [hsum] at hmap

end Minos.Mmu
