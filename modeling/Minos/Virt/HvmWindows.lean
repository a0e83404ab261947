import Minos.Lib.Run
import Minos.Virt.VmMmap

/-!
# The windows of VM0

VM0 asks for the memory of a guest with `HVC_VM_MMAP` and gives it up with `HVC_VM_UNMMAP`, in any
order and for any VMs. What it sees in the window of a guest is the memory of this guest or nothing.
-/

namespace Minos.Virt

open Minos.Mmu Radix WordMem Run

variable {σ : Type} (A : PageOps σ)

/-- The VMs by their numbers, as `get_vm_by_id` finds them, and the table of VM0 -/
structure HvmVms where
  pgd0 : ℕ
  mms : ℕ → Option MmapMm

/-- `HVC_VM_MMAP` and `HVC_VM_UNMMAP` -/
inductive HvmCall where
  | mmap (vmid offset size : ℕ)
  | unmmap (vmid : ℕ)
deriving DecidableEq

namespace HvmCall

def vmid : HvmCall → ℕ
  | mmap vmid _ _ => vmid
  | unmmap vmid => vmid

/-- What the call makes of an address of the window -/
def shows (mm : MmapMm) (m : Mem) (va : ℕ) : HvmCall → Option Leaf
  | mmap .. => mm.shown m va
  | unmmap _ => none

end HvmCall

namespace HvmVms

/-- `create_vm_mmap` -/
def createVmMmap (v : HvmVms) (vmid offset size : ℕ) (s : MmState σ) : ℤ × MmState σ :=
  match v.mms vmid with
  | none => (-ENOENT, s)
  | some mm => vmMmap A v.pgd0 mm offset size s

/-- `destroy_vm_mmap` -/
def destroyVmMmap (v : HvmVms) (vmid : ℕ) (s : MmState σ) : MmState σ :=
  match v.mms vmid with
  | none => s
  | some mm => vmUnmmap v.pgd0 mm s

/-- A hypercall, with what it returns -/
def call (v : HvmVms) (s : MmState σ) : HvmCall → ℤ × MmState σ
  | .mmap vmid offset size => v.createVmMmap A vmid offset size s
  | .unmmap vmid => (0, v.destroyVmMmap vmid s)

def step (v : HvmVms) (s : MmState σ) (e : HvmCall) : MmState σ := (v.call A s e).2

/-- The tables of VM0 and of the guests -/
def roots (v : HvmVms) : Set ℕ := {p | p = v.pgd0 ∨ ∃ i mm, v.mms i = some mm ∧ mm.pgdBase = p}

/-- The offset does not lead out of the space of VM0, which the code does not check. -/
def InSpace (v : HvmVms) : HvmCall → Prop
  | .mmap vmid offset _ => ∀ mm ∈ v.mms vmid, mm.hvmMmapBase + offset < GUEST_SPACE
  | .unmmap _ => True

/-- The guests have windows of their own, and their memory is mapped by blocks. -/
structure Ok (v : HvmVms) (s : MmState σ) : Prop where
  tables : HvmTables A v.roots s
  guest : ∀ i, ∀ mm ∈ v.mms i, MmapOk v.roots v.pgd0 mm s.mem
  apart : ∀ i j, i ≠ j → ∀ mm ∈ v.mms i, ∀ mm' ∈ v.mms j, Disjoint mm.window mm'.window

/-- What VM0 has at an address -/
def sees (v : HvmVms) (m : Mem) (va : ℕ) : Option Leaf := walk plainGuestFormat m 2 v.pgd0 va

end HvmVms

variable {A} {v : HvmVms} {s s' : MmState σ}

namespace HvmVms

lemma pgd0_mem : v.pgd0 ∈ v.roots := .inl rfl

/-- A call changes the table of VM0 in a part of the window of its VM. -/
lemma Ok.call (h : v.Ok A s) (e : HvmCall) (he : v.InSpace e) :
    (∃ mm ∈ v.mms e.vmid, ∃ R, R ⊆ mm.window ∧
      Hvm0 A v.pgd0 R (fun va => e.shows mm s.mem va) s (v.step A s e)) ∨ v.step A s e = s := by
  cases e with
  | mmap vmid offset size =>
    cases hmm : v.mms vmid with
    | none =>
      right
      rw [step, HvmVms.call, createVmMmap, hmm]
    | some mm =>
      left
      have hok := h.guest vmid mm hmm
      obtain ⟨n, hn, hmaps, -⟩ := h.tables.vmMmap size pgd0_mem hok (he mm hmm)
      have hstep : v.step A s (.mmap vmid offset size) = (vmMmap A v.pgd0 mm offset size s).2 := by
        rw [step, HvmVms.call, createVmMmap, hmm]
      rw [hstep]
      refine ⟨mm, hmm, _, fun va hva => ?_, hmaps⟩
      obtain ⟨hlo, hhi⟩ := Set.mem_Ico.1 hva
      refine Set.mem_Ico.2 ⟨(Nat.le_add_right _ _).trans hlo, ?_⟩
      rcases hn with rfl | hn
      · rw [zero_mul, add_zero] at hhi
        exact absurd hlo (not_le.2 hhi)
      · exact lt_of_lt_of_le hhi hn
  | unmmap vmid =>
    cases hmm : v.mms vmid with
    | none =>
      right
      rw [step, HvmVms.call, destroyVmMmap, hmm]
    | some mm =>
      left
      have hstep : v.step A s (.unmmap vmid) = vmUnmmap v.pgd0 mm s := by
        rw [step, HvmVms.call, destroyVmMmap, hmm]
      rw [hstep]
      exact ⟨mm, hmm, _,
        Set.Ico_subset_Ico_right (Nat.add_le_add_left (Nat.div_mul_le_self _ _) _),
        h.tables.vmUnmmap pgd0_mem (h.guest vmid mm hmm)⟩

/-- The guests keep their tables. -/
lemma Ok.walk_guest (h : v.Ok A s) {R : Set ℕ} {g : ℕ → Option Leaf}
    (hm : Hvm0 A v.pgd0 R g s s') {i : ℕ} {mm : MmapMm} (hmm : mm ∈ v.mms i) (va : ℕ) :
    walk plainGuestFormat s'.mem 2 mm.pgdBase va = walk plainGuestFormat s.mem 2 mm.pgdBase va :=
  have hok := h.guest i mm hmm
  (congr_of_agreeOn (h.tables.others pgd0_mem hm hok.root hok.ne)).1 va

lemma Ok.of_hvm0 (h : v.Ok A s) {R : Set ℕ} {g : ℕ → Option Leaf}
    (hm : Hvm0 A v.pgd0 R g s s') : v.Ok A s' where
  tables := h.tables.step pgd0_mem hm
  guest i mm hmm :=
    { h.guest i mm hmm with
      populated := fun va hva => by
        rw [MmapMm.shown, h.walk_guest hm hmm]
        exact (h.guest i mm hmm).populated va hva }
  apart := h.apart

/-- What a call does, as far as addresses are concerned -/
lemma Ok.step (h : v.Ok A s) (e : HvmCall) (he : v.InSpace e) :
    v.Ok A (v.step A s e) ∧
      (∀ i, ∀ mm ∈ v.mms i, ∀ va, walk plainGuestFormat (v.step A s e).mem 2 mm.pgdBase va =
        walk plainGuestFormat s.mem 2 mm.pgdBase va) ∧
      ∀ va < GUEST_SPACE, v.sees (v.step A s e).mem va = v.sees s.mem va ∨
        ∃ mm ∈ v.mms e.vmid, va ∈ mm.window ∧
          v.sees (v.step A s e).mem va = e.shows mm s.mem va := by
  rcases h.call e he with ⟨mm, hmm, R, hR, hm⟩ | hsame
  · refine ⟨h.of_hvm0 hm, fun i mm' hmm' va => h.walk_guest hm hmm' va, fun va hva => ?_⟩
    have hslot : slot 3 va = 0 := Nat.div_eq_of_lt hva
    by_cases hin : va ∈ R
    · exact .inr ⟨mm, hmm, hR hin, hm.walk_in va hslot hin⟩
    · exact .inl (hm.walk_out va hslot hin)
  · rw [hsame]
    exact ⟨h, fun _ _ _ _ => rfl, fun _ _ => .inl rfl⟩

/-! ### Runs -/

/-- The guests have their tables as in `m`. -/
def KeepsGuests (v : HvmVms) (m m' : Mem) : Prop :=
  ∀ i, ∀ mm ∈ v.mms i, ∀ va,
    walk plainGuestFormat m' 2 mm.pgdBase va = walk plainGuestFormat m 2 mm.pgdBase va

lemma Ok.exec (h : v.Ok A s) (es : List HvmCall) (hes : ∀ e ∈ es, v.InSpace e) :
    v.Ok A (exec (v.step A) s es) ∧ v.KeepsGuests s.mem (exec (v.step A) s es).mem := by
  refine exec_induction (I := fun s' => v.Ok A s' ∧ v.KeepsGuests s.mem s'.mem)
    (fun s' e hs he => ?_) ⟨h, fun _ _ _ _ => rfl⟩ (along_const.2 hes)
  obtain ⟨hnew, hguest, -⟩ := hs.1.step e he
  exact ⟨hnew, fun i mm hmm va => (hguest i mm hmm va).trans (hs.2 i mm hmm va)⟩

lemma Ok.lt_space (h : v.Ok A s) {i : ℕ} {mm : MmapMm} (hmm : mm ∈ v.mms i) {va : ℕ}
    (hva : va ∈ mm.window) : va < GUEST_SPACE :=
  (Set.mem_Ico.1 hva).2.trans (h.guest i mm hmm).hvm_lt

/-- Windows of two VMs do not meet. -/
lemma Ok.vmid_eq (h : v.Ok A s) {i j : ℕ} {mm mm' : MmapMm} (hmm : mm ∈ v.mms i)
    (hmm' : mm' ∈ v.mms j) {va : ℕ} (hva : va ∈ mm.window) (hva' : va ∈ mm'.window) :
    i = j ∧ mm = mm' := by
  have hij : i = j := by
    by_contra hne
    exact Set.disjoint_left.1 (h.apart i j hne mm hmm mm' hmm') hva hva'
  subst hij
  exact ⟨rfl, Option.some.inj (hmm.symm.trans hmm')⟩

/-- What VM0 sees in a window stays, as long as the calls for its VM make the same of it. -/
lemma Ok.sees_stays (h : v.Ok A s) {i : ℕ} {mm : MmapMm} (hmm : mm ∈ v.mms i) {va : ℕ}
    (hva : va ∈ mm.window) (es : List HvmCall) (hes : ∀ e ∈ es, v.InSpace e)
    (hsame : ∀ e ∈ es, e.vmid = i → e.shows mm s.mem va = v.sees s.mem va) :
    v.sees (Run.exec (v.step A) s es).mem va = v.sees s.mem va := by
  induction es generalizing s with
  | nil => rfl
  | cons e es ih =>
    have he := List.mem_cons_self (a := e) (l := es)
    obtain ⟨hnew, hguest, hsees⟩ := h.step e (hes e he)
    have hfirst : v.sees (v.step A s e).mem va = v.sees s.mem va := by
      rcases hsees va (h.lt_space hmm hva) with hkeep | ⟨mm', hmm', hva', hshow⟩
      · exact hkeep
      · obtain ⟨rfl, rfl⟩ := h.vmid_eq hmm hmm' hva hva'
        exact hshow.trans (hsame e he rfl)
    refine (ih hnew (fun e' he' => hes e' (List.mem_cons_of_mem e he')) fun e' he' hi => ?_).trans
      hfirst
    have hshow := hsame e' (List.mem_cons_of_mem e he') hi
    rw [hfirst, ← hshow]
    cases e' with
    | mmap _ _ _ => exact hguest i mm hmm _
    | unmmap _ => rfl

lemma createVmMmap_eq {vmid offset size : ℕ} {mm : MmapMm} (hmm : v.mms vmid = some mm) :
    v.createVmMmap A vmid offset size s = vmMmap A v.pgd0 mm offset size s := by
  rw [createVmMmap, hmm]

/-- A successful `vm_mmap` shows what it is asked for. -/
lemma Ok.sees_mmap (h : v.Ok A s) {vmid offset size : ℕ} {mm : MmapMm}
    (hmm : v.mms vmid = some mm) (hoff : v.InSpace (.mmap vmid offset size))
    (hret : (v.createVmMmap A vmid offset size s).1 = 0) {o : ℕ}
    (hlo : offset / 2 ^ 21 * 2 ^ 21 ≤ o) (hhi : o < offset / 2 ^ 21 * 2 ^ 21 + size)
    (hend : o < mm.size / 2 ^ 21 * 2 ^ 21) :
    v.sees (v.step A s (.mmap vmid offset size)).mem (mm.hvmMmapBase + o) =
      walk plainGuestFormat s.mem 2 mm.pgdBase (mm.virBase + o) := by
  have hok := h.guest vmid mm hmm
  have hspace := hok.hvm_lt
  have hgs : GUEST_SPACE = 2 ^ 39 := by decide
  have hoff' := hoff mm hmm
  obtain ⟨n, -, hmaps, hcases⟩ := h.tables.vmMmap size pgd0_mem hok hoff'
  rw [createVmMmap_eq hmm] at hret
  rcases hcases with ⟨-, hsize, hn⟩ | ⟨hinval, -⟩ | hnomem
  · obtain ⟨-, hcover⟩ := mmapLeft_bounds (show offset < 2 ^ 39 by omega)
      (show mm.size < 2 ^ 39 by omega) hok.free_le hsize
    have hin := hcover o hhi hend
    rw [← hn] at hin
    have hstep : v.step A s (.mmap vmid offset size) = (vmMmap A v.pgd0 mm offset size s).2 := by
      rw [HvmVms.step, HvmVms.call, createVmMmap_eq hmm]
    have hlt : mm.hvmMmapBase + o < GUEST_SPACE := by omega
    rw [hstep, sees, hmaps.walk_in _ (Nat.div_eq_of_lt hlt) (Set.mem_Ico.2
      ⟨Nat.add_le_add_left hlo _, by rw [add_assoc]; exact Nat.add_lt_add_left hin _⟩),
      MmapMm.shown, MmapMm.guestVa, Nat.add_sub_cancel_left]
  · rw [hinval] at hret
    exact absurd hret (show ¬ (-EINVAL : ℤ) = 0 by decide)
  · rw [hnomem] at hret
    exact absurd hret (by decide)

/-- However VM0 maps and unmaps, the window of a guest shows the memory of this guest or nothing,
and nothing else changes: not the rest of VM0, and not the table of a guest. -/
theorem hvm_window_shows_guest (h : v.Ok A s)
    (hempty : ∀ i, ∀ mm ∈ v.mms i, ∀ va ∈ mm.window, v.sees s.mem va = none)
    (es : List HvmCall) (hes : ∀ e ∈ es, v.InSpace e) :
    let s' := Run.exec (v.step A) s es
    (∀ i, ∀ mm ∈ v.mms i, ∀ va ∈ mm.window,
      v.sees s'.mem va = none ∨ v.sees s'.mem va = mm.shown s'.mem va) ∧
    (∀ va < GUEST_SPACE, (∀ i, ∀ mm ∈ v.mms i, va ∉ mm.window) →
      v.sees s'.mem va = v.sees s.mem va) ∧
    v.KeepsGuests s.mem s'.mem := by
  intro s'
  refine ⟨?_, ?_, (h.exec es hes).2⟩
  · have hall : v.Ok A s' ∧ ∀ i, ∀ mm ∈ v.mms i, ∀ va ∈ mm.window,
        v.sees s'.mem va = none ∨ v.sees s'.mem va = mm.shown s'.mem va := by
      refine exec_induction (I := fun s' => v.Ok A s' ∧ ∀ i, ∀ mm ∈ v.mms i, ∀ va ∈ mm.window,
          v.sees s'.mem va = none ∨ v.sees s'.mem va = mm.shown s'.mem va)
        (fun s₁ e hs he => ?_) ⟨h, fun i mm hmm va hva => .inl (hempty i mm hmm va hva)⟩
        (along_const.2 hes)
      obtain ⟨hnew, hguest, hsees⟩ := hs.1.step e he
      refine ⟨hnew, fun i mm hmm va hva => ?_⟩
      have hshown : mm.shown (v.step A s₁ e).mem va = mm.shown s₁.mem va := hguest i mm hmm _
      rw [hshown]
      rcases hsees va (hs.1.lt_space hmm hva) with hkeep | ⟨mm', hmm', hva', hshow⟩
      · rw [hkeep]
        exact hs.2 i mm hmm va hva
      · obtain ⟨rfl, rfl⟩ := hs.1.vmid_eq hmm hmm' hva hva'
        rw [hshow]
        cases e with
        | mmap _ _ _ => exact .inr rfl
        | unmmap _ => exact .inl rfl
    exact hall.2
  · intro va hva hout
    have hall : v.Ok A s' ∧ v.sees s'.mem va = v.sees s.mem va := by
      refine exec_induction (I := fun s' => v.Ok A s' ∧ v.sees s'.mem va = v.sees s.mem va)
        (fun s₁ e hs he => ?_) ⟨h, rfl⟩ (along_const.2 hes)
      obtain ⟨hnew, -, hsees⟩ := hs.1.step e he
      refine ⟨hnew, ?_⟩
      rcases hsees va hva with hkeep | ⟨mm, hmm, hin, -⟩
      · exact hkeep.trans hs.2
      · exact absurd hin (hout _ mm hmm)
    exact hall.2

/-- After `HVC_VM_MMAP` has returned 0, what was asked for is shown until the window is unmapped.
After `HVC_VM_UNMMAP` nothing is shown until it is mapped. -/
theorem hvm_window_last_call (h : v.Ok A s) (es es' : List HvmCall) {vmid : ℕ} {mm : MmapMm}
    (hmm : v.mms vmid = some mm) (hes : ∀ e ∈ es ++ es', v.InSpace e) :
    (∀ offset size, v.InSpace (.mmap vmid offset size) →
      (v.createVmMmap A vmid offset size (Run.exec (v.step A) s es)).1 = 0 →
      .unmmap vmid ∉ es' →
      ∀ o, offset / 2 ^ 21 * 2 ^ 21 ≤ o → o < offset / 2 ^ 21 * 2 ^ 21 + size →
        o < mm.size / 2 ^ 21 * 2 ^ 21 →
        v.sees (Run.exec (v.step A) s (es ++ .mmap vmid offset size :: es')).mem
            (mm.hvmMmapBase + o) =
          walk plainGuestFormat s.mem 2 mm.pgdBase (mm.virBase + o)) ∧
    ((∀ offset size, .mmap vmid offset size ∉ es') →
      ∀ o < mm.size / 2 ^ 21 * 2 ^ 21,
        v.sees (Run.exec (v.step A) s (es ++ .unmmap vmid :: es')).mem (mm.hvmMmapBase + o) =
          none) := by
  obtain ⟨hpre, hguest⟩ := h.exec es fun e he => hes e (List.mem_append_left _ he)
  have hes' : ∀ e ∈ es', v.InSpace e := fun e he => hes e (List.mem_append_right _ he)
  have hwindow : ∀ o < mm.size / 2 ^ 21 * 2 ^ 21, mm.hvmMmapBase + o ∈ mm.window := fun o ho =>
    Set.mem_Ico.2 ⟨Nat.le_add_right _ _,
      Nat.add_lt_add_left (lt_of_lt_of_le ho (Nat.div_mul_le_self _ _)) _⟩
  constructor
  · intro offset size hoff hret hno o ho ho' hend
    have hfirst := hpre.sees_mmap hmm hoff hret ho ho' hend
    obtain ⟨hnew, hguest', -⟩ := hpre.step (.mmap vmid offset size) hoff
    have hva : mm.hvmMmapBase + o ∈ mm.window := hwindow o hend
    have hshown : mm.guestVa (mm.hvmMmapBase + o) = mm.virBase + o := by
      rw [MmapMm.guestVa, Nat.add_sub_cancel_left]
    rw [exec_append, exec_cons, hnew.sees_stays hmm hva es' hes' fun e he hi => ?_, hfirst,
      hguest vmid mm hmm]
    cases e with
    | mmap i off sz =>
      rw [hfirst, HvmCall.shows, MmapMm.shown, hshown]
      exact hguest' vmid mm hmm _
    | unmmap i => exact absurd (hi ▸ he) hno
  · intro hno o ho
    have hstep : v.step A (Run.exec (v.step A) s es) (.unmmap vmid) =
        vmUnmmap v.pgd0 mm (Run.exec (v.step A) s es) := by
      rw [step, HvmVms.call, destroyVmMmap, hmm]
    have hmaps := hpre.tables.vmUnmmap pgd0_mem (hpre.guest vmid mm hmm)
    have hva : mm.hvmMmapBase + o ∈ mm.window := hwindow o ho
    have hfirst : v.sees (v.step A (Run.exec (v.step A) s es) (.unmmap vmid)).mem
        (mm.hvmMmapBase + o) = none := by
      rw [hstep]
      exact hmaps.walk_in _ (Nat.div_eq_of_lt (h.lt_space hmm hva))
        (Set.mem_Ico.2 ⟨Nat.le_add_right _ _, Nat.add_lt_add_left ho _⟩)
    obtain ⟨hnew, -, -⟩ := hpre.step (.unmmap vmid) trivial
    rw [exec_append, exec_cons, hnew.sees_stays hmm hva es' hes' fun e he hi => ?_, hfirst]
    cases e with
    | mmap i off sz => exact absurd (hi ▸ he) (hno off sz)
    | unmmap i => exact hfirst.symm

/-! ### A guest with one block -/

/-- The block of the guest at `0x80000000`, with its window at `0x2080000000` -/
def oneBlockMm : MmapMm := ⟨0x2000, 0x2080000000, 0x80000000, 0x200000, 0⟩

def oneBlockVms : HvmVms := ⟨0x1000, fun i => if i = 1 then some oneBlockMm else none⟩

/-- The guest has its block, and VM0 has nothing. -/
def oneBlockState : MmState (List ℕ) :=
  (createMemMapping listPages 0x2000 0x80000000 0x40000000 0x200000 VM_NORMAL
    (zeroState [0x3000, 0x4000, 0x5000])).2

lemma mem_oneBlockVms {i : ℕ} {mm : MmapMm} (h : mm ∈ oneBlockVms.mms i) :
    i = 1 ∧ mm = oneBlockMm := by
  change (if i = 1 then some oneBlockMm else none) = some mm at h
  split_ifs at h with hi
  exact ⟨hi, (Option.some.inj h).symm⟩

lemma oneBlock_roots : oneBlockVms.roots = {0x1000, 0x2000} := by
  ext p
  constructor
  · rintro (rfl | ⟨i, mm, hmm, rfl⟩)
    · exact .inl rfl
    · rw [(mem_oneBlockVms hmm).2]
      exact .inr rfl
  · rintro (rfl | rfl)
    · exact .inl rfl
    · exact .inr ⟨1, oneBlockMm, rfl, rfl⟩

lemma zeroState_walk (l : List ℕ) (root va : ℕ) (hroot : 4096 ∣ root) :
    walk plainGuestFormat (zeroState l).mem 2 root va = none :=
  (zero_table (fun _ _ _ => rfl) hroot).2.2 va

lemma zeroState_tables :
    HvmTables listPages {0x1000, 0x2000} (zeroState [0x3000, 0x4000, 0x5000]) := by
  have hroots : ∀ root ∈ ({0x1000, 0x2000} : Set ℕ), root = 0x1000 ∨ root = 0x2000 :=
    fun root h => h
  have hwf : ∀ root ∈ ({0x1000, 0x2000} : Set ℕ),
      WF plainGuestFormat (zeroState [0x3000, 0x4000, 0x5000]).mem 2 root ∧
        pages plainGuestFormat (zeroState [0x3000, 0x4000, 0x5000]).mem 2 root = {root} := by
    intro root hroot
    exact zeroState_wf _ root (by rcases hroots root hroot with rfl | rfl <;> decide)
  constructor
  case wf => exact fun root hroot => (hwf root hroot).1
  case zero =>
    intro root hroot
    rw [(hwf root hroot).2]
    rcases hroots root hroot with rfl | rfl <;> simp
  case supply => exact supply_listPages (by decide) (by decide)
  case fresh =>
    intro root hroot
    rw [(hwf root hroot).2, Set.disjoint_singleton_right, zeroState, avail_listPages]
    rcases hroots root hroot with rfl | rfl <;> simp
  case apart =>
    intro root hroot root' hroot' hne
    rw [(hwf root hroot).2, (hwf root' hroot').2]
    exact Set.disjoint_singleton.2 hne

lemma oneBlock_maps :
    Hvm0 listPages 0x2000 (Set.Ico 0x80000000 0x80200000)
      (guestTarget 0x80000000 0x80200000 0x40000000)
      (zeroState [0x3000, 0x4000, 0x5000]) oneBlockState := by
  have hret : (createMemMapping listPages 0x2000 0x80000000 0x40000000 0x200000 VM_NORMAL
      (zeroState [0x3000, 0x4000, 0x5000])).1 = 0 := by decide +kernel
  have hzero := zeroState_tables
  exact MapsOver.of_maps (createMemMapping_guest_maps (by decide) (by decide) (by decide)
    (by decide) (by decide) (by norm_num) (by decide) (hzero.wf 0x2000 (.inr rfl)) hzero.supply
    (hzero.fresh 0x2000 (.inr rfl)) (fun va _ _ x hx => by
      rw [zeroState_walk _ _ _ (by decide)] at hx
      cases hx)
    (Prod.ext hret rfl))

lemma oneBlock_ok : oneBlockVms.Ok listPages oneBlockState where
  tables := by
    rw [oneBlock_roots]
    exact zeroState_tables.step (.inr rfl) oneBlock_maps
  guest := by
    intro i mm hmm
    obtain ⟨rfl, rfl⟩ := mem_oneBlockVms hmm
    refine ⟨.inr ⟨1, oneBlockMm, rfl, rfl⟩, by decide, by decide, by decide, by decide, by decide,
      by decide, fun va hva => ?_⟩
    obtain ⟨hlo, hhi⟩ : 0x2080000000 ≤ va ∧ va < 0x2080000000 + 0x200000 := Set.mem_Ico.1 hva
    have hguest : oneBlockMm.guestVa va = 0x80000000 + (va - 0x2080000000) := rfl
    have hpiece : BlockPiece 0x80000000 0x80200000 (0x80000000 + (va - 0x2080000000)) := by
      unfold BlockPiece pieceStart pieceEnd SIZE_1G SIZE_2M
      omega
    have hwalk := oneBlock_maps.walk_in (0x80000000 + (va - 0x2080000000))
      (Nat.div_eq_of_lt (by omega)) (Set.mem_Ico.2 (by omega))
    rw [guestTarget, if_pos hpiece] at hwalk
    exact ⟨_, (hguest ▸ hwalk : walk plainGuestFormat oneBlockState.mem 2 0x2000 _ = _)⟩
  apart := by
    intro i j hij mm hmm mm' hmm'
    exact absurd ((mem_oneBlockVms hmm).1.trans (mem_oneBlockVms hmm').1.symm) hij

lemma oneBlock_empty (va : ℕ) : oneBlockVms.sees oneBlockState.mem va = none := by
  have hagree := zeroState_tables.others (.inr rfl) oneBlock_maps (.inl rfl) (by decide)
  exact ((congr_of_agreeOn hagree).1 va).trans (zeroState_walk _ _ _ (by decide))

lemma oneBlock_inSpace (size : ℕ) : oneBlockVms.InSpace (.mmap 1 0 size) := by
  intro mm hmm
  rw [(mem_oneBlockVms hmm).2]
  decide

theorem hvm_window_shows_guest_one_block :
    let s' := Run.exec (oneBlockVms.step listPages) oneBlockState [.mmap 1 0 0x200000, .unmmap 1]
    oneBlockVms.sees s'.mem 0x2080001234 = none ∨
      oneBlockVms.sees s'.mem 0x2080001234 = oneBlockMm.shown s'.mem 0x2080001234 :=
  (hvm_window_shows_guest oneBlock_ok (fun _ _ _ va _ => oneBlock_empty va)
    [.mmap 1 0 0x200000, .unmmap 1]
    (List.forall_mem_cons.2 ⟨oneBlock_inSpace _, List.forall_mem_singleton.2 trivial⟩)).1 1
    oneBlockMm rfl 0x2080001234 (Set.mem_Ico.2 (by decide))

theorem hvm_window_last_call_one_block :
    oneBlockVms.sees (Run.exec (oneBlockVms.step listPages) oneBlockState
        [.mmap 1 0 0x200000]).mem 0x2080001234 =
      walk plainGuestFormat oneBlockState.mem 2 0x2000 0x80001234 :=
  (hvm_window_last_call oneBlock_ok [] [] (show oneBlockVms.mms 1 = some oneBlockMm from rfl)
    (by simp)).1 0 0x200000 (oneBlock_inSpace _) (by decide +kernel) (by simp) 0x1234 (by decide)
    (by decide) (by decide)

end HvmVms

end Minos.Virt
