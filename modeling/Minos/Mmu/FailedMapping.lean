import Mathlib
import Minos.Mmu.TableNeeds

/-!
# Mappings that fail

When `alloc_page` returns NULL the mapping gives up where it is. A `PMD` table that the same round
of the root loop had made is freed then, but the root entry and `mm->head` still have it; and what
was mapped before stays mapped. `createMemMapping_failed_sound_iff` says for which calls this leaves
a table as good as it was.
-/

namespace Minos.Mmu

open Radix WordMem

variable {σ : Type} {A : PageOps σ}

/-- The page allocator with a list of the pages that were freed. -/
def freeLog (A : PageOps σ) : PageOps (σ × List ℕ) where
  allocPage := fun a => (A.allocPage a.1).map fun r => (r.1, (r.2, a.2))
  free := fun a p => (A.free a.1 p, p :: a.2)

/-- `alloc_page` frees nothing. -/
lemma freeLog_takes {i : ℕ} {a a' : σ × List ℕ} (h : Takes (freeLog A) i a a') : a'.2 = a.2 := by
  refine h.keeps (P := fun b => b.2 = a.2) (fun b p b' hb halloc => ?_) rfl
  obtain ⟨r, -, hr⟩ := Option.map_eq_some_iff.1 halloc
  obtain ⟨-, rfl⟩ := Prod.mk.inj hr
  exact hb

/-- What a call that fails must not do to a table: no page that was freed is a table of it or on
`mm->head`, and every translation that was there is there. -/
structure SoundAfter (root : ℕ) (s s' : MmState (σ × List ℕ)) : Prop where
  unreferenced : ∀ p ∈ s'.alloc.2, p ∉ pages guestFormat s'.mem 2 root
  unlisted : ∀ p ∈ s'.alloc.2, p ∉ s'.head
  kept : ∀ va < GUEST_SPACE, ∀ out, guestTranslate s.mem root va = some out →
    guestTranslate s'.mem root va = some out

/-- Mapping the range from `lo` to `hi` to `phy` by the entries that are below `va` keeps the
translation of `va`: there is none, or it is the new one, or it is a block that pages go over. -/
def MapsToSame (m : Mem) (root lo hi phy va : ℕ) : Prop :=
  ∀ x, walk guestFormat m 2 root va = some x →
    ¬ BlockPiece lo hi va ∧ x.lvl = 1 ∨ (guestTarget lo hi phy va).map Leaf.out = some x.out

/-- The first table for which there is no page is not missing in a table that the call makes, and
the addresses before it keep their translation. -/
def FailsSoundly (A : PageOps σ) (s : MmState σ) (root lo hi phy : ℕ) : Prop :=
  ∃ n need, PagesLeft A s.alloc n ∧ (tableNeeds s.mem root lo hi)[n]? = some need ∧
    need.inNew = false ∧ ∀ va ∈ Set.Ico lo need.va, MapsToSame s.mem root lo hi phy va

/-- What a call that fails has done. -/
lemma createMemMapping_failed {root vir phy size flags : ℕ} {s s' : MmState σ} {ret : ℤ}
    (hwf : WF guestFormat s.mem 2 root) (hs : Supply A s.alloc)
    (hfresh : Disjoint (avail A s.alloc) (pages guestFormat s.mem 2 root))
    (hram : RamOutside A s root)
    (hguest : flags &&& VM_HOST = 0) (hdes : flags &&& VM_DES_MASK = 0)
    (hvir : 4096 ∣ vir) (hphy : 4096 ∣ phy) (hsize : 4096 ∣ size) (hphy64 : phy < 2 ^ 64)
    (hend : vir + size ≤ GUEST_SPACE)
    (h : createMemMapping A root vir phy size flags s = (ret, s')) (hret : ret ≠ 0) :
    ∃ n need s₂, PagesLeft A s.alloc n ∧ Takes A n s.alloc s₂.alloc ∧
      (tableNeeds s.mem root vir (vir + size))[n]? = some need ∧ need.va ≤ vir + size ∧
      (∀ va ∈ Set.Ico vir need.va,
        NoBlockUnder vir (vir + size) va (walk guestFormat s.mem 2 root va) →
        walk guestFormat s₂.mem 2 root va = guestTarget vir (vir + size) phy va) ∧
      (∀ va < GUEST_SPACE, (va ∈ Set.Ico vir need.va →
          ¬ NoBlockUnder vir (vir + size) va (walk guestFormat s.mem 2 root va)) →
        walk guestFormat s₂.mem 2 root va = walk guestFormat s.mem 2 root va) ∧
      Unwound A need s₂ s' := by
  -- the memory that belongs to no table
  set B : Set ℕ := {p | 4096 ∣ p ∧ p ∉ pages guestFormat s.mem 2 root ∪ avail A s.alloc} with hBdef
  have hB : Disjoint B (pages guestFormat s.mem 2 root ∪ avail A s.alloc) :=
    Set.disjoint_left.mpr fun p hp => hp.2
  obtain ⟨f, s₂, -, hf, hm, hstop⟩ := createMemMapping_guest_run hwf hs hfresh (fun p hp => hp.1) hB
    (fun va hva x hx => ⟨Nat.dvd_mul_left 4096 _, hram va hva x.out
      (by simp [guestTranslate, hx])⟩) hguest hdes hvir hphy hsize hphy64 hend h
  obtain ⟨-, n, need, hget, hva, htake, hnone, hun⟩ := hstop.resolve_left fun h => hret h.1
  subst hva
  refine ⟨n, need, s₂, ⟨_, htake, hnone⟩, htake, hget, hf, fun va hva hno => ?_,
    fun va hlt hva => ?_, hun⟩
  · have := (Set.mem_Ico.mp hva).2
    exact hm.walk_in va (Nat.div_eq_of_lt (lt_of_lt_of_le this (hf.trans hend))) ⟨hva, hno⟩
  · exact hm.walk_out va (Nat.div_eq_of_lt hlt) fun hin => hva hin.1 hin.2

/-- A mapping that fails leaves a sound table exactly when the first table for which there is no
page is a `PMD` table, or a `PTE` table below a `PMD` table that was there before, and nothing that
was translated differently is mapped before it. -/
theorem createMemMapping_failed_sound_iff {root vir phy size flags : ℕ}
    {s s' : MmState (σ × List ℕ)} {ret : ℤ}
    (hwf : WF guestFormat s.mem 2 root) (hs : Supply (freeLog A) s.alloc)
    (hfresh : Disjoint (avail (freeLog A) s.alloc) (pages guestFormat s.mem 2 root))
    (hram : RamOutside (freeLog A) s root) (hlog : s.alloc.2 = [])
    (hguest : flags &&& VM_HOST = 0) (hdes : flags &&& VM_DES_MASK = 0)
    (hvir : 4096 ∣ vir) (hphy : 4096 ∣ phy) (hsize : 4096 ∣ size) (hphy64 : phy < 2 ^ 64)
    (hend : vir + size ≤ GUEST_SPACE)
    (hrun : createMemMapping (freeLog A) root vir phy size flags s = (ret, s')) (hret : ret ≠ 0) :
    SoundAfter root s s' ↔ FailsSoundly (freeLog A) s root vir (vir + size) phy := by
  obtain ⟨n, need, s₂, hleft, htake, hget, hva, hin, hout, hun⟩ := createMemMapping_failed hwf hs
    hfresh hram hguest hdes hvir hphy hsize hphy64 hend hrun hret
  have hmem : s'.mem = s₂.mem := by
    rw [Unwound] at hun
    split_ifs at hun
    · obtain ⟨p, -, rfl⟩ := hun
      rfl
    · rw [hun]
  have hspace : ∀ va ∈ Set.Ico vir need.va, va < GUEST_SPACE := fun va hva' => by
    have := (Set.mem_Ico.mp hva').2
    omega
  constructor
  · intro hsound
    refine ⟨n, need, hleft, hget, ?_, fun va hva' x hx => ?_⟩
    · by_contra hnew
      rw [Unwound, if_pos (by simpa using hnew)] at hun
      obtain ⟨p, hp, rfl⟩ := hun
      exact hsound.unlisted p List.mem_cons_self hp
    · by_cases hno : NoBlockUnder vir (vir + size) va (walk guestFormat s.mem 2 root va)
      · right
        have hkept := hsound.kept va (hspace va hva') x.out (by rw [guestTranslate, hx]; rfl)
        rw [guestTranslate, hmem, hin va hva' hno] at hkept
        exact hkept
      · left
        simp only [NoBlockUnder, Classical.not_imp, not_forall, not_not] at hno
        obtain ⟨hnb, y, hy, hyl⟩ := hno
        obtain rfl := Option.some.inj (hx.symm.trans hy)
        exact ⟨hnb, hyl⟩
  · rintro ⟨n', need', hleft', hget', hnew, hsame⟩
    obtain rfl := hleft.unique hleft'
    obtain rfl := Option.some.inj (hget.symm.trans hget')
    rw [Unwound, if_neg (by simp [hnew])] at hun
    subst hun
    have hempty : s'.alloc.2 = [] := (freeLog_takes htake).trans hlog
    refine ⟨fun p hp => ?_, fun p hp => ?_, fun va hlt out hva' => ?_⟩
    · simp [hempty] at hp
    · simp [hempty] at hp
    · by_cases hmapped : va ∈ Set.Ico vir need.va ∧
        NoBlockUnder vir (vir + size) va (walk guestFormat s.mem 2 root va)
      · obtain ⟨hmem', hno⟩ := hmapped
        obtain ⟨x, hx, rfl⟩ := Option.map_eq_some_iff.1 hva'
        rw [guestTranslate, hin va hmem' hno]
        exact (hsame va hmem' x hx).resolve_left fun h => hno h.1 x hx h.2
      · rw [guestTranslate, hout va hlt fun h hno => hmapped ⟨h, hno⟩]
        exact hva'

/-- An empty table at `0x1000`, and a list of pages to hand out. -/
def emptyLogged (l : List ℕ) : MmState (List ℕ × List ℕ) := ⟨⟨fun _ => 0, []⟩, (l, []), []⟩

lemma nthPage_freeLog (i : ℕ) (a : σ × List ℕ) : nthPage (freeLog A) i a = nthPage A i a.1 := by
  induction i generalizing a with
  | zero => simp [nthPage, freeLog, Function.comp_def]
  | succ i ih =>
    cases h : A.allocPage a.1 with
    | none => simp [nthPage, freeLog, h]
    | some r => simp [nthPage, freeLog, h, ← ih (r.2, a.2)]

lemma avail_freeLog (a : σ × List ℕ) : avail (freeLog A) a = avail A a.1 := by
  simp only [avail, nthPage_freeLog]

lemma supply_freeLog {a : σ × List ℕ} (h : Supply A a.1) : Supply (freeLog A) a where
  aligned := by rw [avail_freeLog]; exact h.aligned
  ne_zero := by rw [avail_freeLog]; exact h.ne_zero
  lt := by rw [avail_freeLog]; exact h.lt
  inj := by simpa only [nthPage_freeLog] using h.inj

lemma emptyLogged_wf (l : List ℕ) {root : ℕ} (hroot : 4096 ∣ root) :
    WF guestFormat (emptyLogged l).mem 2 root ∧
      pages guestFormat (emptyLogged l).mem 2 root = {root} ∧
      ∀ va, walk guestFormat (emptyLogged l).mem 2 root va = none :=
  zero_table (fun _ _ _ => rfl) hroot

lemma emptyLogged_ramOutside (l : List ℕ) {root : ℕ} (hroot : 4096 ∣ root) :
    RamOutside (freeLog listPages) (emptyLogged l) root := by
  intro va _ out hout
  simp [guestTranslate, (emptyLogged_wf l hroot).2.2 va] at hout

/-- Without any page the call fails at the `PMD` table, and the table is as it was. -/
theorem createMemMapping_failed_sound_iff_no_page :
    SoundAfter 0x1000 (emptyLogged []) (createMemMapping (freeLog listPages) 0x1000 0x40000000
      0x80000000 0x1000 VM_NORMAL (emptyLogged [])).2 := by
  have hret : (createMemMapping (freeLog listPages) 0x1000 0x40000000 0x80000000 0x1000 VM_NORMAL
      (emptyLogged [])).1 = -12 := by decide +kernel
  have hroot : 4096 ∣ 0x1000 := by decide
  have hwf := emptyLogged_wf [] hroot
  refine (createMemMapping_failed_sound_iff (A := listPages) hwf.1
    (supply_freeLog (supply_listPages List.nodup_nil (by simp [emptyLogged]))) ?_
    (emptyLogged_ramOutside [] (by decide)) rfl (by decide) (by decide) (by decide) (by decide)
    (by decide) (by decide) (by decide) (Prod.ext hret rfl) (by decide)).2 ?_
  · rw [avail_freeLog]
    simp [emptyLogged, avail_listPages]
  · refine ⟨0, .pmd 0x40000000, ⟨_, Takes.refl _, rfl⟩, ?_, rfl, fun va hva => ?_⟩
    · have hval : (emptyLogged []).mem.word (entryAddr 0x1000 (slot 2 0x40000000)) = 0 := rfl
      rw [tableNeeds_cons (by decide), pieceNeeds, if_pos hval]
      rfl
    · simp [TableNeed.va] at hva

/-- One page: it becomes the `PMD` table, there is none for the `PTE` table, and it is freed. It is
still in the root entry and on `mm->head`. -/
theorem createMemMapping_failed_unsound :
    WF guestFormat (emptyLogged [0x2000]).mem 2 0x1000 ∧
    RamOutside (freeLog listPages) (emptyLogged [0x2000]) 0x1000 ∧
    let r := createMemMapping (freeLog listPages) 0x1000 0x40000000 0x80000000 0x1000 VM_NORMAL
      (emptyLogged [0x2000])
    r.1 = -12 ∧ r.2.alloc.2 = [0x2000] ∧ r.2.head = [0x2000] ∧ r.2.mem.word 0x1008 = 0x2003 ∧
      ¬ SoundAfter 0x1000 (emptyLogged [0x2000]) r.2 := by
  refine ⟨(emptyLogged_wf _ (by decide)).1, emptyLogged_ramOutside _ (by decide), ?_⟩
  have hfreed : (createMemMapping (freeLog listPages) 0x1000 0x40000000 0x80000000 0x1000 VM_NORMAL
      (emptyLogged [0x2000])).2.alloc.2 = [0x2000] := by decide +kernel
  have hhead : (createMemMapping (freeLog listPages) 0x1000 0x40000000 0x80000000 0x1000 VM_NORMAL
      (emptyLogged [0x2000])).2.head = [0x2000] := by decide +kernel
  refine ⟨by decide +kernel, hfreed, hhead, by decide +kernel, fun hsound => ?_⟩
  refine hsound.unlisted 0x2000 ?_ ?_
  · rw [hfreed]
    exact List.mem_singleton_self _
  · rw [hhead]
    exact List.mem_singleton_self _

end Minos.Mmu
