import Mathlib
import Minos.Lib.Run
import Minos.Mmu.ManyTables
import Minos.Virt.Mailbox

/-!
# Shared memory of native VMs

`vm_map_shmem` maps a buffer at the start of what is left of the shared-memory area of a VM. The
mapping works in whole pages but the area advances by the bytes of the request, so a window of less
than a page leaves the next one in the same page. `create_mailbox` never sets `shmem_size`, and maps
no byte of the buffer of a mailbox.
-/

namespace Minos.Virt

open Minos.Mmu Radix WordMem Run

variable {σ : Type} (A : PageOps σ)

/-! ### Windows -/

/-- The part of `struct mm_struct` that the shared-memory code uses. -/
structure ShmemMm where
  pgdBase : ℕ
  head : List ℕ
  shmemBase : ℕ
  shmemSize : ℕ

/-- The memory of the tables, the page allocator, and the `mm_struct` of each VM. -/
structure ShmemState (σ : Type) where
  mem : Mem
  alloc : σ
  mms : VmRef → ShmemMm

namespace ShmemState

/-- What the mapping code sees of the state. -/
def mmState (st : ShmemState σ) (vm : VmRef) : MmState σ := ⟨st.mem, st.alloc, (st.mms vm).head⟩

def root (st : ShmemState σ) (vm : VmRef) : ℕ := (st.mms vm).pgdBase

/-- The state after a mapping for `vm`. -/
def afterMapping (st : ShmemState σ) (vm : VmRef) (s : MmState σ) (base size : ℕ) :
    ShmemState σ where
  mem := s.mem
  alloc := s.alloc
  mms := Function.update st.mms vm ⟨st.root vm, s.head, base, size⟩

/-- `vm_map_shmem`, which returns 0 for `NULL`. -/
def vmMapShmem (st : ShmemState σ) (vm : VmRef) (phy size flags : ℕ) : ℕ × ShmemState σ :=
  let mm := st.mms vm
  if mm.shmemSize < size then (0, st)
  else
    let r := createGuestMapping A mm.pgdBase mm.shmemBase phy size flags (st.mmState vm)
    if r.1 ≠ 0 then (0, st.afterMapping vm r.2 mm.shmemBase mm.shmemSize)
    else (mm.shmemBase,
      st.afterMapping vm r.2 (add64 mm.shmemBase size) (mm.shmemSize - size))

end ShmemState

/-- A call of `vm_map_shmem`. -/
structure ShmemCall where
  vm : VmRef
  phy : ℕ
  size : ℕ
  flags : ℕ

/-- What a successful call of `vm_map_shmem` gave. -/
structure ShmemWindow where
  vm : VmRef
  base : ℕ
  phy : ℕ
  size : ℕ
deriving DecidableEq

/-- The pages of a window. -/
def ShmemWindow.pages (w : ShmemWindow) : Set ℕ := {p | ∃ o < w.size, pageStart (w.base + o) = p}

/-- The state, and the windows of the successful calls so far. -/
structure ShmemRun (σ : Type) where
  st : ShmemState σ
  windows : List ShmemWindow

/-- A call, and the window it gives. -/
def ShmemRun.step (r : ShmemRun σ) (c : ShmemCall) : ShmemRun σ :=
  let (base, st) := r.st.vmMapShmem A c.vm c.phy c.size c.flags
  ⟨st, if base = 0 then r.windows else ⟨c.vm, base, c.phy, c.size⟩ :: r.windows⟩

/-- What the windows should be: they lie in the area their VM had in the state `st₀`, those of one
VM share no page, and their bytes are translated to those of the buffer. -/
structure WindowsRight (st₀ : ShmemState σ) (r : ShmemRun σ) : Prop where
  inside : ∀ w ∈ r.windows, (st₀.mms w.vm).shmemBase ≤ w.base ∧
    w.base + w.size ≤ (st₀.mms w.vm).shmemBase + (st₀.mms w.vm).shmemSize
  disjoint : r.windows.Pairwise fun w w' => w.vm = w'.vm → Disjoint w.pages w'.pages
  mapped : ∀ w ∈ r.windows, ∀ o < w.size,
    guestTranslate r.st.mem (r.st.root w.vm) (w.base + o) = some (w.phy + o)

/-! ### Mailboxes -/

/-- The part of `struct mailbox` that has to do with the shared memory. -/
structure MailboxShmem where
  owner : Bool → VmRef
  shmem : ℕ
  shmemSize : ℕ
  iomem : Bool → ℕ

/-- What the rest of the system does in a call of `create_mailbox`: whether `zalloc` succeeds, what
`get_io_pages` returns for a number of pages, the page allocator after both, and the results of
`alloc_vm_virq`. -/
structure ShmemEnv (σ : Type) where
  zalloc : Bool
  getIoPages : ℕ → ℕ
  alloc : σ
  virq : Bool → ℕ → ℤ

/-- The result of `create_mailbox`. -/
inductive MailboxResult (σ : Type) where
  | null
  | panic
  | made (mb : MailboxShmem) (st : ShmemState σ)

/-- A round of `mailbox_vm_init`, or `none` for the panics. The size is passed as a `uint32_t`. -/
def mailboxVmInitOwner (mb : MailboxShmem) (event : ℤ) (virq : Bool → ℕ → ℤ) (i : Bool)
    (st : ShmemState σ) : Option (MailboxShmem × ShmemState σ) :=
  let r := st.vmMapShmem A (mb.owner i) mb.shmem (mb.shmemSize % 2 ^ 32) VM_IO
  if vmInitOk (r.1 ≠ 0) (virq i) event then
    some ({ mb with iomem := Function.update mb.iomem i r.1 }, r.2)
  else none

/-- `mailbox_vm_init` -/
def mailboxVmInit (mb : MailboxShmem) (event : ℤ) (virq : Bool → ℕ → ℤ) (st : ShmemState σ) :
    Option (MailboxShmem × ShmemState σ) :=
  (mailboxVmInitOwner A mb event virq false st).bind fun r =>
    mailboxVmInitOwner A r.1 event virq true r.2

/-- `create_mailbox` from `zalloc` on, which leaves `shmem_size` at 0. -/
def createMailboxFor (owner : Bool → VmRef) (size : ℕ) (event : ℤ) (env : ShmemEnv σ)
    (st : ShmemState σ) : MailboxResult σ :=
  if size = 0 then .made ⟨owner, 0, 0, fun _ => 0⟩ st
  else
    let shmem := env.getIoPages (balign size PAGE_SIZE >>> 12)
    if shmem = 0 then .panic
    else
      match mailboxVmInit A ⟨owner, shmem, 0, fun _ => 0⟩ event env.virq st with
      | some r => .made r.1 r.2
      | none => .panic

/-- `create_mailbox`, without the cookie and the status, which are in `MailboxSystem`. -/
def createMailbox (vms : ℕ → Option VmRef) (index o1 o2 size : ℕ) (event : ℤ) (env : ShmemEnv σ)
    (st : ShmemState σ) : MailboxResult σ :=
  if MAX_MAILBOX_NR ≤ index then .null
  else
    match getVmById vms o1, getVmById vms o2 with
    | some vm1, some vm2 =>
      if env.zalloc then
        createMailboxFor A (fun i => if i then vm2 else vm1) size event env
          { st with alloc := env.alloc }
      else .null
    | _, _ => .null

/-- The owner number `i` has the first `size` bytes of the buffer at its `iomem`. -/
def BufferMapped (mb : MailboxShmem) (st : ShmemState σ) (size : ℕ) (i : Bool) : Prop :=
  ∀ o < size, guestTranslate st.mem (st.root (mb.owner i)) (mb.iomem i + o) = some (mb.shmem + o)

/-! ### The tables of the VMs -/

/-- The roots of the tables of these VMs. -/
def ShmemState.roots (live : Set VmRef) (st : ShmemState σ) : Set ℕ := st.root '' live

/-- Every VM has a table of its own. -/
structure ShmemState.Ok (live : Set VmRef) (st : ShmemState σ) : Prop where
  own : live.InjOn st.root
  tables : ∀ head, Tables A (st.roots live) ⟨st.mem, st.alloc, head⟩

variable {A} {live : Set VmRef} {st st₀ : ShmemState σ} {vm : VmRef} {phy size flags : ℕ}

namespace ShmemState

@[simp] lemma root_afterMapping (s : MmState σ) (base left : ℕ) :
    (st.afterMapping vm s base left).root = st.root := by
  funext vm'
  by_cases h : vm' = vm
  · simp [root, afterMapping, h]
  · simp [root, afterMapping, h]

@[simp] lemma roots_afterMapping (s : MmState σ) (base left : ℕ) :
    (st.afterMapping vm s base left).roots live = st.roots live := by
  simp [roots]

lemma Ok.afterMapping (h : st.Ok A live) {s : MmState σ} (hs : Tables A (st.roots live) s)
    (base left : ℕ) : (st.afterMapping vm s base left).Ok A live := by
  refine ⟨?_, fun head => ?_⟩
  · rw [root_afterMapping]
    exact h.own
  · rw [roots_afterMapping]
    exact hs.with_head head

/-- What `vm_map_shmem` does: nothing, or a mapping for the area, which then advances unless the
mapping failed. -/
lemma vmMapShmem_cases (A : PageOps σ) (st : ShmemState σ) (vm : VmRef) (phy size flags : ℕ) :
    ((st.mms vm).shmemSize < size ∧ st.vmMapShmem A vm phy size flags = (0, st)) ∨
    size ≤ (st.mms vm).shmemSize ∧ ∃ ret s',
      createGuestMapping A (st.root vm) (st.mms vm).shmemBase phy size flags (st.mmState vm) =
        (ret, s') ∧
      ((ret ≠ 0 ∧ st.vmMapShmem A vm phy size flags =
          (0, st.afterMapping vm s' (st.mms vm).shmemBase (st.mms vm).shmemSize)) ∨
        ret = 0 ∧ st.vmMapShmem A vm phy size flags = ((st.mms vm).shmemBase,
          st.afterMapping vm s' (add64 (st.mms vm).shmemBase size)
            ((st.mms vm).shmemSize - size))) := by
  by_cases hlt : (st.mms vm).shmemSize < size
  · exact .inl ⟨hlt, if_pos hlt⟩
  · rcases hr : createGuestMapping A (st.root vm) (st.mms vm).shmemBase phy size flags
      (st.mmState vm) with ⟨ret, s'⟩
    refine .inr ⟨not_lt.1 hlt, ret, s', rfl, ?_⟩
    rw [root] at hr
    simp only [vmMapShmem, if_neg hlt, hr]
    by_cases hret : ret = 0
    · exact .inr ⟨hret, if_neg (not_not_intro hret)⟩
    · exact .inl ⟨hret, if_pos hret⟩

end ShmemState

/-! ### The calls that give a right window -/

/-- The request finds enough of the area, and
* no window of the VM has bytes in the page where the area starts now;
* the buffer has the same offset in its page as the window, and lies in the physical memory;
* what is mapped by blocks differs from the buffer by whole blocks, and what is mapped by pages has
  no block now;
* the buffer is memory that is neither free nor a table, and `alloc_page` does not fail for a table
  below one that the call has just made. -/
structure SoundRequest (A : PageOps σ) (live : Set VmRef) (r : ShmemRun σ) (c : ShmemCall) : Prop
    where
  guest : c.flags &&& VM_HOST = 0
  des : c.flags &&& VM_DES_MASK = 0
  inSpace : (r.st.mms c.vm).shmemBase + c.size ≤ GUEST_SPACE
  newPage : 4096 ∣ (r.st.mms c.vm).shmemBase ∨ ∀ w ∈ r.windows, w.vm = c.vm → w.size = 0
  offset : c.size ≠ 0 → (r.st.mms c.vm).shmemBase % 4096 = c.phy % 4096
  output : c.size ≠ 0 → c.phy + c.size ≤ 2 ^ 48
  blocks : ∀ va ∈ Set.Ico (pageStart (r.st.mms c.vm).shmemBase)
      (pageStop ((r.st.mms c.vm).shmemBase + c.size)),
    BlockPiece (pageStart (r.st.mms c.vm).shmemBase)
      (pageStop ((r.st.mms c.vm).shmemBase + c.size)) va →
    pageStart (r.st.mms c.vm).shmemBase % SIZE_2M = pageStart c.phy % SIZE_2M
  noBlock : ∀ va ∈ Set.Ico (pageStart (r.st.mms c.vm).shmemBase)
      (pageStop ((r.st.mms c.vm).shmemBase + c.size)),
    NoBlockUnder (pageStart (r.st.mms c.vm).shmemBase)
      (pageStop ((r.st.mms c.vm).shmemBase + c.size)) va
      (walk guestFormat r.st.mem 2 (r.st.root c.vm) va)
  buffer : ∀ va ∈ Set.Ico (pageStart (r.st.mms c.vm).shmemBase)
      (pageStop ((r.st.mms c.vm).shmemBase + c.size)),
    pageStart ((pageStart c.phy + (va - pageStart (r.st.mms c.vm).shmemBase)) % 2 ^ 48) ∉
      tableMemory A (r.st.roots live) (r.st.mmState c.vm)
  tables : NoneInNew A (r.st.mmState c.vm) (r.st.root c.vm)
    (pageStart (r.st.mms c.vm).shmemBase) (pageStop ((r.st.mms c.vm).shmemBase + c.size))

/-- The call is refused for its size, or it gives a right window. -/
def SoundCall (A : PageOps σ) (live : Set VmRef) (r : ShmemRun σ) (c : ShmemCall) : Prop :=
  (r.st.mms c.vm).shmemSize < c.size ∨ SoundRequest A live r c

/-! ### Runs -/

/-- What a run of such calls keeps, from the state `st₀` on. -/
structure ShmemRun.Inv (A : PageOps σ) (live : Set VmRef) (st₀ : ShmemState σ) (r : ShmemRun σ) :
    Prop where
  ok : r.st.Ok A live
  start_le : ∀ vm, (st₀.mms vm).shmemBase ≤ (r.st.mms vm).shmemBase
  left : ∀ vm, (r.st.mms vm).shmemBase + (r.st.mms vm).shmemSize =
    (st₀.mms vm).shmemBase + (st₀.mms vm).shmemSize
  alive : ∀ w ∈ r.windows, w.vm ∈ live
  le_base : ∀ w ∈ r.windows, (st₀.mms w.vm).shmemBase ≤ w.base
  below : ∀ w ∈ r.windows, w.base + w.size ≤ (r.st.mms w.vm).shmemBase
  inSpace : ∀ w ∈ r.windows, w.base + w.size ≤ GUEST_SPACE
  disjoint : r.windows.Pairwise fun w w' => w.vm = w'.vm → Disjoint w.pages w'.pages
  mapped : ∀ w ∈ r.windows, ∀ o < w.size,
    guestTranslate r.st.mem (r.st.root w.vm) (w.base + o) = some (w.phy + o)

namespace ShmemRun.Inv

variable {r : ShmemRun σ}

lemma init (h : st.Ok A live) : Inv A live st ⟨st, []⟩ where
  ok := h
  start_le := fun _ => le_rfl
  left := fun _ => rfl
  alive := by simp
  le_base := by simp
  below := by simp
  inSpace := by simp
  disjoint := List.Pairwise.nil
  mapped := by simp

lemma right (h : Inv A live st₀ r) : WindowsRight st₀ r where
  inside := by
    intro w hw
    have := h.below w hw
    have := h.left w.vm
    exact ⟨h.le_base w hw, by omega⟩
  disjoint := h.disjoint
  mapped := h.mapped

/-- A mapping at the start of what is left of an area keeps the windows when none of them has bytes
in its first page. -/
lemma afterMapping (h : Inv A live st₀ r) (hvm : vm ∈ live) {hi p f base left : ℕ} {s : MmState σ}
    (hpage : 4096 ∣ (r.st.mms vm).shmemBase ∨ ∀ w ∈ r.windows, w.vm = vm → w.size = 0)
    (hm : MapsUpTo A (r.st.roots live) (r.st.root vm) (pageStart (r.st.mms vm).shmemBase) hi p f
      (r.st.mmState vm) s)
    (hbase : (r.st.mms vm).shmemBase ≤ base)
    (hleft : base + left = (r.st.mms vm).shmemBase + (r.st.mms vm).shmemSize) :
    Inv A live st₀ ⟨r.st.afterMapping vm s base left, r.windows⟩ := by
  have hself : ((r.st.afterMapping vm s base left).mms vm).shmemBase = base ∧
      ((r.st.afterMapping vm s base left).mms vm).shmemSize = left := by
    simp [ShmemState.afterMapping]
  have hother : ∀ vm' ≠ vm, (r.st.afterMapping vm s base left).mms vm' = r.st.mms vm' :=
    fun vm' hne => Function.update_of_ne hne _ _
  have hle : ∀ vm', (r.st.mms vm').shmemBase ≤
      ((r.st.afterMapping vm s base left).mms vm').shmemBase := by
    intro vm'
    by_cases hne : vm' = vm
    · rw [hne, hself.1]
      exact hbase
    · rw [hother vm' hne]
  refine ⟨h.ok.afterMapping hm.tables base left, fun vm' => (h.start_le vm').trans (hle vm'),
    fun vm' => ?_, h.alive, h.le_base, fun w hw => (h.below w hw).trans (hle w.vm), h.inSpace,
    h.disjoint, fun w hw o ho => ?_⟩
  · by_cases hne : vm' = vm
    · rw [hne, hself.1, hself.2, hleft, h.left]
    · rw [hother vm' hne, h.left]
  · have hkeep : walk guestFormat s.mem 2 (r.st.root w.vm) (w.base + o) =
        walk guestFormat r.st.mem 2 (r.st.root w.vm) (w.base + o) := by
      have hspace := h.inSpace w hw
      by_cases hne : w.vm = vm
      · -- the window ends before the first page of the new one
        rw [hne]
        refine hm.kept _ (by omega) fun hin => ?_
        have hlo := (Set.mem_Ico.1 hin).1
        have hbelow := h.below w hw
        rw [hne] at hbelow
        rcases hpage with hdvd | hnone
        · unfold pageStart at hlo
          omega
        · have := hnone w hw hne
          omega
      · exact hm.others _ ⟨w.vm, h.alive w hw, rfl⟩
          (fun heq => hne (h.ok.own (h.alive w hw) hvm heq)) _
    rw [← h.mapped w hw o ho, ShmemState.root_afterMapping]
    exact congrArg (Option.map Leaf.out) hkeep

/-- A new window at the end of the others. -/
lemma cons (h : Inv A live st₀ r) {w : ShmemWindow} (hvm : w.vm ∈ live)
    (hpage : 4096 ∣ w.base ∨ ∀ w' ∈ r.windows, w'.vm = w.vm → w'.size = 0)
    (hold : ∀ w' ∈ r.windows, w'.vm = w.vm → w'.base + w'.size ≤ w.base)
    (hstart : (st₀.mms w.vm).shmemBase ≤ w.base)
    (hbelow : w.base + w.size ≤ (r.st.mms w.vm).shmemBase) (hspace : w.base + w.size ≤ GUEST_SPACE)
    (hmap : ∀ o < w.size,
      guestTranslate r.st.mem (r.st.root w.vm) (w.base + o) = some (w.phy + o)) :
    Inv A live st₀ ⟨r.st, w :: r.windows⟩ where
  ok := h.ok
  start_le := h.start_le
  left := h.left
  alive := List.forall_mem_cons.2 ⟨hvm, h.alive⟩
  le_base := List.forall_mem_cons.2 ⟨hstart, h.le_base⟩
  below := List.forall_mem_cons.2 ⟨hbelow, h.below⟩
  inSpace := List.forall_mem_cons.2 ⟨hspace, h.inSpace⟩
  disjoint := by
    refine List.pairwise_cons.2 ⟨fun w' hw' heq => Set.disjoint_left.2 ?_, h.disjoint⟩
    rintro p ⟨o, ho, rfl⟩ ⟨o', ho', hp⟩
    have := hold w' hw' heq.symm
    rcases hpage with hdvd | hnone
    · unfold pageStart at hp
      omega
    · have := hnone w' hw' heq.symm
      omega
  mapped := List.forall_mem_cons.2 ⟨hmap, h.mapped⟩

/-- A sound request keeps the windows, and the window it gets is right. -/
lemma step (h : Inv A live st₀ r) {c : ShmemCall} (hvm : c.vm ∈ live) (hphy : c.phy < 2 ^ 64)
    (hc : SoundCall A live r c) : Inv A live st₀ (r.step A c) := by
  rcases r.st.vmMapShmem_cases A c.vm c.phy c.size c.flags with
    ⟨-, hres⟩ | ⟨hle, ret, s, hrun, hres⟩
  · rw [ShmemRun.step, hres]
    exact h
  have hreq := hc.resolve_left (not_lt.2 hle)
  have hbuf : ∀ va ∈ Set.Ico (pageStart (r.st.mms c.vm).shmemBase)
      (pageStop ((r.st.mms c.vm).shmemBase + c.size)), ∀ x,
      guestTarget (pageStart (r.st.mms c.vm).shmemBase)
        (pageStop ((r.st.mms c.vm).shmemBase + c.size)) (pageStart c.phy) va = some x →
      x.out / 4096 * 4096 ∉ tableMemory A (r.st.roots live) (r.st.mmState c.vm) := by
    intro va hva x hx
    have hout := guestTarget_out_of_block (hreq.blocks va hva) hva
    rw [hx, Option.map_some, Option.some.injEq] at hout
    rw [hout]
    exact hreq.buffer va hva
  obtain ⟨f, -, -, hf, hm⟩ := (h.ok.tables _).createGuestMapping ⟨c.vm, hvm, rfl⟩ hreq.guest
    hreq.des hphy hreq.inSpace hbuf (.inr hreq.tables) hrun
  rcases hres with ⟨-, hres⟩ | ⟨hret, hres⟩
  · rw [ShmemRun.step, hres]
    exact h.afterMapping hvm hreq.newPage hm le_rfl rfl
  have hspace := hreq.inSpace
  have hadd : add64 (r.st.mms c.vm).shmemBase c.size = (r.st.mms c.vm).shmemBase + c.size :=
    add64_of_lt (by unfold GUEST_SPACE at hspace; omega)
  have hinv : Inv A live st₀ ⟨r.st.afterMapping c.vm s ((r.st.mms c.vm).shmemBase + c.size)
      ((r.st.mms c.vm).shmemSize - c.size), r.windows⟩ :=
    h.afterMapping hvm hreq.newPage hm (Nat.le_add_right _ _) (by omega)
  rw [hadd] at hres
  rw [ShmemRun.step, hres]
  by_cases hnull : (r.st.mms c.vm).shmemBase = 0
  · simp only [if_pos hnull]
    exact hinv
  simp only [if_neg hnull]
  refine hinv.cons (w := ⟨c.vm, (r.st.mms c.vm).shmemBase, c.phy, c.size⟩) hvm hreq.newPage
    (fun w hw heq => ?_) (h.start_le c.vm) ?_ hspace fun o ho => ?_
  · have hbelow := h.below w hw
    rw [heq] at hbelow
    exact hbelow
  · simp [ShmemState.afterMapping]
  · -- the byte is mapped by the page that goes with the page of the buffer
    have ho : o < c.size := ho
    have hoff := hreq.offset (by omega)
    have hout := hreq.output (by omega)
    have hva : (r.st.mms c.vm).shmemBase + o ∈ Set.Ico (pageStart (r.st.mms c.vm).shmemBase)
        (pageStop ((r.st.mms c.vm).shmemBase + c.size)) := by
      have := pageStart_le (r.st.mms c.vm).shmemBase
      have := le_pageStop ((r.st.mms c.vm).shmemBase + c.size)
      exact Set.mem_Ico.2 (by omega)
    have hwalk := hm.mapped _ (by rw [hf hret]; exact hva) (hreq.noBlock _ hva)
    rw [ShmemState.root_afterMapping]
    calc guestTranslate s.mem (r.st.root c.vm) ((r.st.mms c.vm).shmemBase + o)
        = some ((pageStart c.phy + ((r.st.mms c.vm).shmemBase + o -
            pageStart (r.st.mms c.vm).shmemBase)) % 2 ^ 48) := by
          rw [guestTranslate, hwalk, guestTarget_out_of_block (hreq.blocks _ hva) hva]
      _ = some (c.phy + o) := by
          congr 1
          unfold pageStart
          omega

end ShmemRun.Inv

/-! ### The buffer of a mailbox -/

/-- The buffer that `get_io_pages` has returned is a page of other memory, and no VM has it where
its area starts. -/
structure NewBuffer (A : PageOps σ) (live : Set VmRef) (shmem : ℕ) (st : ShmemState σ) : Prop where
  ok : st.Ok A live
  inSpace : ∀ vm ∈ live, (st.mms vm).shmemBase < GUEST_SPACE
  aligned : 4096 ∣ shmem
  lt : shmem < 2 ^ 48
  outside : ∀ head, shmem ∉ tableMemory A (st.roots live) ⟨st.mem, st.alloc, head⟩
  unmapped : ∀ vm ∈ live, guestTranslate st.mem (st.root vm) (st.mms vm).shmemBase ≠ some shmem

/-- A request for no bytes maps nothing, or the page in which the area starts. -/
lemma guestTarget_noBytes {base p va : ℕ} (hva : va ∈ Set.Ico (pageStart base) (pageStop base)) :
    (guestTarget (pageStart base) (pageStop base) p va).map Leaf.out =
      some ((p + (va - pageStart base)) % 2 ^ 48) := by
  refine guestTarget_out_of_block (fun hb => ?_) hva
  have hle : pageStart base ≤ pageStop base := (pageStart_le base).trans (le_pageStop base)
  have hsum : pageStop base = pageStart base + (pageStop base - pageStart base) := by omega
  rw [hsum] at hb hva
  have := (hb.bounds hva).1
  unfold pageStart pageStop SIZE_2M at *
  omega

namespace NewBuffer

variable {shmem : ℕ}

lemma maps (h : NewBuffer A live shmem st) (hvm : vm ∈ live) {s : MmState σ}
    (hcall : createGuestMapping A (st.root vm) (st.mms vm).shmemBase shmem 0 VM_IO (st.mmState vm) =
      (0, s)) :
    MapsUpTo A (st.roots live) (st.root vm) (pageStart (st.mms vm).shmemBase)
      (pageStop (st.mms vm).shmemBase) shmem (pageStop (st.mms vm).shmemBase) (st.mmState vm)
      s := by
  have haligned := h.aligned
  have hlt := h.lt
  have hpage : pageStart shmem = shmem := by
    unfold pageStart
    omega
  have hbuf : ∀ va ∈ Set.Ico (pageStart (st.mms vm).shmemBase) (pageStop (st.mms vm).shmemBase),
      ∀ x, guestTarget (pageStart (st.mms vm).shmemBase) (pageStop (st.mms vm).shmemBase)
        (pageStart shmem) va = some x →
      x.out / 4096 * 4096 ∉ tableMemory A (st.roots live) (st.mmState vm) := by
    intro va hva x hx
    have hout := guestTarget_noBytes (p := pageStart shmem) hva
    rw [hx, Option.map_some, Option.some.injEq] at hout
    have hsame : x.out / 4096 * 4096 = shmem := by
      have hbounds := Set.mem_Ico.1 hva
      rw [hout, hpage]
      unfold pageStart pageStop at hbounds
      unfold pageStart
      omega
    rw [hsame]
    exact h.outside _
  obtain ⟨f, -, -, hf, hm⟩ := (h.ok.tables _).createGuestMapping ⟨vm, hvm, rfl⟩
    (by decide) (by decide) (by omega) (by exact (h.inSpace vm hvm).le) (by exact hbuf) (.inl rfl)
    hcall
  rw [hf rfl, hpage] at hm
  exact hm

/-- The address where the area starts does not lead to the buffer after a request for no bytes. -/
lemma unmapped_after (h : NewBuffer A live shmem st) (hvm : vm ∈ live) {s : MmState σ}
    (hm : MapsUpTo A (st.roots live) (st.root vm) (pageStart (st.mms vm).shmemBase)
      (pageStop (st.mms vm).shmemBase) shmem (pageStop (st.mms vm).shmemBase) (st.mmState vm) s)
    {vm' : VmRef} (hvm' : vm' ∈ live) :
    guestTranslate s.mem (st.root vm') (st.mms vm').shmemBase ≠ some shmem := by
  have hspace := h.inSpace vm' hvm'
  have hold := h.unmapped vm' hvm'
  by_cases heq : vm' = vm
  · subst heq
    by_cases hin : (st.mms vm').shmemBase ∈
        Set.Ico (pageStart (st.mms vm').shmemBase) (pageStop (st.mms vm').shmemBase) ∧
      NoBlockUnder (pageStart (st.mms vm').shmemBase) (pageStop (st.mms vm').shmemBase)
        (st.mms vm').shmemBase (walk guestFormat st.mem 2 (st.root vm') (st.mms vm').shmemBase)
    · -- the page of the area leads to the buffer, but the area starts behind the first byte
      obtain ⟨hva, hno⟩ := hin
      rw [guestTranslate, hm.mapped _ hva hno, guestTarget_noBytes hva]
      have haligned := h.aligned
      have hlt := h.lt
      have hoff := Set.mem_Ico.1 hva
      intro hsame
      have hsame := Option.some.inj hsame
      unfold pageStart pageStop at hoff
      unfold pageStart at hsame
      omega
    · rw [guestTranslate, hm.kept _ hspace fun hva hno => hin ⟨hva, hno⟩]
      exact hold
  · have hne : st.root vm' ≠ st.root vm := fun hroot => heq (h.ok.own hvm' hvm hroot)
    rw [guestTranslate, hm.others _ ⟨vm', hvm', rfl⟩ hne]
    exact hold

/-- A request for no bytes keeps the areas and does not map the buffer. -/
lemma vmMapShmem (h : NewBuffer A live shmem st) (hvm : vm ∈ live) {base : ℕ}
    {st' : ShmemState σ} (hrun : st.vmMapShmem A vm shmem 0 VM_IO = (base, st')) (hne : base ≠ 0) :
    base = (st.mms vm).shmemBase ∧ NewBuffer A live shmem st' ∧ st'.root = st.root ∧
      ∀ vm', (st'.mms vm').shmemBase = (st.mms vm').shmemBase := by
  have hspace := h.inSpace vm hvm
  rcases st.vmMapShmem_cases A vm shmem 0 VM_IO with ⟨hsize, -⟩ | ⟨-, ret, s, hcall, hres⟩
  · omega
  rw [hrun] at hres
  obtain ⟨rfl, hmade⟩ := hres.resolve_left fun hfail => hne (Prod.mk.inj hfail.2).1
  obtain ⟨rfl, rfl⟩ := Prod.mk.inj hmade
  have hm := h.maps hvm hcall
  have hadd : add64 (st.mms vm).shmemBase 0 = (st.mms vm).shmemBase :=
    add64_of_lt (by unfold GUEST_SPACE at hspace; omega)
  have hbase : ∀ vm', ((st.afterMapping vm s (add64 (st.mms vm).shmemBase 0)
      ((st.mms vm).shmemSize - 0)).mms vm').shmemBase = (st.mms vm').shmemBase := by
    intro vm'
    by_cases heq : vm' = vm
    · simp [ShmemState.afterMapping, heq, hadd]
    · simp [ShmemState.afterMapping, heq]
  refine ⟨rfl, ⟨h.ok.afterMapping hm.tables _ _, fun vm' hvm' => ?_, h.aligned, h.lt,
    fun head => ?_, fun vm' hvm' => ?_⟩, ShmemState.root_afterMapping _ _ _, hbase⟩
  · rw [hbase]
    exact h.inSpace vm' hvm'
  · rw [ShmemState.roots_afterMapping]
    exact fun hin => h.outside (st.mms vm).head (hm.memory hin)
  · rw [hbase, ShmemState.root_afterMapping]
    exact h.unmapped_after hvm hm hvm'

end NewBuffer

/-- A round of `mailbox_vm_init` that does not panic. -/
lemma mailboxVmInitOwner_some {mb mb' : MailboxShmem} {event : ℤ} {virq : Bool → ℕ → ℤ} {i : Bool}
    {st' : ShmemState σ} (h : mailboxVmInitOwner A mb event virq i st = some (mb', st')) :
    ∃ base, st.vmMapShmem A (mb.owner i) mb.shmem (mb.shmemSize % 2 ^ 32) VM_IO = (base, st') ∧
      base ≠ 0 ∧ mb' = { mb with iomem := Function.update mb.iomem i base } := by
  rcases hr : st.vmMapShmem A (mb.owner i) mb.shmem (mb.shmemSize % 2 ^ 32) VM_IO with ⟨base, st₁⟩
  simp only [mailboxVmInitOwner, hr] at h
  split_ifs at h with hok
  · obtain ⟨rfl, rfl⟩ := Prod.mk.inj (Option.some.inj h)
    refine ⟨base, rfl, ?_, rfl⟩
    simp only [vmInitOk, decide_eq_true_eq] at hok
    exact hok.1

/-- The size of the buffer never gets into the mailbox, so no owner has the buffer afterwards. -/
lemma NewBuffer.mailboxVmInit {mb mb' : MailboxShmem} {event : ℤ} {virq : Bool → ℕ → ℤ}
    {st' : ShmemState σ} (h : NewBuffer A live mb.shmem st) (hlive : ∀ i, mb.owner i ∈ live)
    (hsize : mb.shmemSize = 0)
    (hrun : Virt.mailboxVmInit A mb event virq st = some (mb', st')) :
    NewBuffer A live mb.shmem st' ∧ mb'.owner = mb.owner ∧ mb'.shmem = mb.shmem ∧
      ∀ i, mb'.iomem i = (st'.mms (mb'.owner i)).shmemBase := by
  obtain ⟨⟨mb₁, st₁⟩, hfirst, hsecond⟩ := Option.bind_eq_some_iff.1 hrun
  obtain ⟨base₁, hmap₁, hne₁, rfl⟩ := mailboxVmInitOwner_some hfirst
  rw [hsize, Nat.zero_mod] at hmap₁
  obtain ⟨rfl, h₁, -, hbase₁⟩ := h.vmMapShmem (hlive false) hmap₁ hne₁
  obtain ⟨base₂, hmap₂, hne₂, rfl⟩ := mailboxVmInitOwner_some hsecond
  simp only [hsize, Nat.zero_mod] at hmap₂
  obtain ⟨rfl, h₂, -, hbase₂⟩ := h₁.vmMapShmem (hlive true) hmap₂ hne₂
  refine ⟨h₂, rfl, rfl, fun i => ?_⟩
  cases i with
  | false => simp [hbase₂, hbase₁]
  | true => simp [hbase₂]

/-- What `createMailboxFor` gives for a mailbox with a buffer. -/
lemma createMailboxFor_buffer {owner : Bool → VmRef} {event : ℤ} {env : ShmemEnv σ} {shmem : ℕ}
    (hsize : size ≠ 0) (hshmem : env.getIoPages (balign size PAGE_SIZE >>> 12) = shmem) :
    createMailboxFor A owner size event env st =
      if shmem = 0 then .panic
      else
        match mailboxVmInit A ⟨owner, shmem, 0, fun _ => 0⟩ event env.virq st with
        | some r => .made r.1 r.2
        | none => .panic := by
  rw [createMailboxFor, if_neg hsize, hshmem]

/-- A mailbox with a buffer is made by `mailbox_vm_init`, from a `shmem_size` that is zero. -/
lemma createMailboxFor_made {owner : Bool → VmRef} {event : ℤ} {env : ShmemEnv σ}
    {mb : MailboxShmem} {st' : ShmemState σ} (hsize : size ≠ 0)
    (h : createMailboxFor A owner size event env st = .made mb st') :
    mailboxVmInit A ⟨owner, env.getIoPages (balign size PAGE_SIZE >>> 12), 0, fun _ => 0⟩ event
      env.virq st = some (mb, st') := by
  generalize hshmem : env.getIoPages (balign size PAGE_SIZE >>> 12) = shmem at h ⊢
  rw [createMailboxFor_buffer hsize hshmem] at h
  split_ifs at h
  generalize mailboxVmInit A ⟨owner, shmem, 0, fun _ => 0⟩ event env.virq st = r at h ⊢
  cases r with
  | none => simp at h
  | some r =>
    obtain ⟨rfl, rfl⟩ := MailboxResult.made.inj h
    rfl

lemma createMailbox_made {vms : ℕ → Option VmRef} {index o1 o2 : ℕ} {event : ℤ} {env : ShmemEnv σ}
    {mb : MailboxShmem} {st' : ShmemState σ}
    (h : createMailbox A vms index o1 o2 size event env st = .made mb st') :
    ∃ owner : Bool → VmRef, (∀ i, ∃ o, vms o = some (owner i)) ∧
      createMailboxFor A owner size event env { st with alloc := env.alloc } = .made mb st' := by
  have hget : ∀ {o vm}, getVmById vms o = some vm → vms o = some vm := by
    intro o vm ho
    rw [getVmById] at ho
    split_ifs at ho
    exact ho
  rw [createMailbox] at h
  rcases h1 : getVmById vms o1 with _ | vm1
  · rw [h1] at h
    split_ifs at h
  rcases h2 : getVmById vms o2 with _ | vm2
  · rw [h1, h2] at h
    split_ifs at h
  rw [h1, h2] at h
  dsimp only at h
  split_ifs at h
  refine ⟨fun i => if i then vm2 else vm1, fun i => ?_, h⟩
  cases i with
  | false => exact ⟨o1, hget h1⟩
  | true => exact ⟨o2, hget h2⟩

/-- Whether `vm_map_shmem` gives each owner a window for the buffer. -/
def iomemMade (A : PageOps σ) (owner : Bool → VmRef) (shmem : ℕ) (st : ShmemState σ) (i : Bool) :
    Bool :=
  let r := st.vmMapShmem A (owner false) shmem 0 VM_IO
  if i then (r.2.vmMapShmem A (owner true) shmem 0 VM_IO).1 ≠ 0 else r.1 ≠ 0

lemma mailboxVmInit_isSome {owner : Bool → VmRef} {shmem : ℕ} {iomem : Bool → ℕ} {event : ℤ}
    {virq : Bool → ℕ → ℤ} :
    (mailboxVmInit A ⟨owner, shmem, 0, iomem⟩ event virq st).isSome ↔
      ∀ i, vmInitOk (iomemMade A owner shmem st i) (virq i) event := by
  rcases h₁ : st.vmMapShmem A (owner false) shmem 0 VM_IO with ⟨base₁, st₁⟩
  rcases h₂ : st₁.vmMapShmem A (owner true) shmem 0 VM_IO with ⟨base₂, st₂⟩
  simp only [mailboxVmInit, mailboxVmInitOwner, Nat.zero_mod, Bool.forall_bool, iomemMade, h₁, h₂,
    Bool.false_eq_true, if_false, if_true]
  by_cases hfirst : vmInitOk (base₁ ≠ 0) (virq false) event = true
  · rw [if_pos hfirst, Option.bind_some]
    simp only [Nat.zero_mod, h₂]
    by_cases hsecond : vmInitOk (base₂ ≠ 0) (virq true) event = true
    · rw [if_pos hsecond]
      exact ⟨fun _ => ⟨hfirst, hsecond⟩, fun _ => rfl⟩
    · rw [if_neg hsecond]
      exact ⟨fun h => absurd h (by simp), fun h => absurd h.2 hsecond⟩
  · rw [if_neg hfirst, Option.bind_none]
    exact ⟨fun h => absurd h (by simp), fun h => absurd h.1 hfirst⟩

/-- The mailbox system of the hypercalls sees the same result: the index of the mailbox, `NULL`, or
a panic. -/
theorem createMailbox_result (s : MailboxSystem) {vms : ℕ → Option VmRef} {o1 o2 : ℕ} {event : ℤ}
    {env : ShmemEnv σ} {vm1 vm2 : VmRef} {shmem : ℕ} (h1 : getVmById vms o1 = some vm1)
    (h2 : getVmById vms o2 = some vm2)
    (hshmem : env.getIoPages (balign size PAGE_SIZE >>> 12) = shmem) :
    let act := s.createMailbox vms o1 o2 size event ⟨env.zalloc, shmem ≠ 0,
      iomemMade A (fun i => if i then vm2 else vm1) shmem { st with alloc := env.alloc }, env.virq⟩
    match createMailbox A vms s.mailboxIndex o1 o2 size event env st with
    | .null => act = s.returns (-1)
    | .panic => act.ret = none ∧ act.next.dead = true
    | .made _ _ => act.ret = some s.mailboxIndex := by
  intro act
  have hmem : createMailbox A vms s.mailboxIndex o1 o2 size event env st =
      if MAX_MAILBOX_NR ≤ s.mailboxIndex then .null
      else if env.zalloc then
        createMailboxFor A (fun i => if i then vm2 else vm1) size event env
          { st with alloc := env.alloc }
      else .null := by
    rw [createMailbox, h1, h2]
  have hact : act = s.createMailbox vms o1 o2 size event ⟨env.zalloc, shmem ≠ 0,
      iomemMade A (fun i => if i then vm2 else vm1) shmem { st with alloc := env.alloc },
      env.virq⟩ := rfl
  rw [MailboxSystem.createMailbox, h1, h2] at hact
  rw [hmem]
  generalize ({ st with alloc := env.alloc } : ShmemState σ) = st₁ at hact ⊢
  generalize (fun i : Bool => if i then vm2 else vm1) = owner at hact ⊢
  by_cases hfull : MAX_MAILBOX_NR ≤ s.mailboxIndex
  · rw [if_pos hfull] at hact ⊢
    exact hact
  rw [if_neg hfull] at hact ⊢
  dsimp only at hact
  by_cases hzalloc : env.zalloc = true
  · rw [if_pos hzalloc] at hact ⊢
    by_cases hsize : size = 0
    · rw [if_pos hsize] at hact
      rw [createMailboxFor, if_pos hsize]
      exact congrArg MailboxAct.ret hact
    rw [if_neg hsize] at hact
    rw [createMailboxFor_buffer hsize hshmem]
    by_cases hnull : shmem = 0
    · rw [if_pos hnull]
      rw [if_neg fun hok => by simp [hnull] at hok] at hact
      rw [hact]
      exact ⟨rfl, rfl⟩
    · rw [if_neg hnull]
      have hsome : (mailboxVmInit A ⟨owner, shmem, 0, fun _ => 0⟩ event env.virq st₁).isSome ↔
          ∀ i, vmInitOk (iomemMade A owner shmem st₁ i) (env.virq i) event := mailboxVmInit_isSome
      generalize mailboxVmInit A ⟨owner, shmem, 0, fun _ => 0⟩ event env.virq st₁ = r at hsome ⊢
      cases r with
      | none =>
        rw [if_neg fun hok => by simpa using hsome.2 hok.2] at hact
        rw [hact]
        exact ⟨rfl, rfl⟩
      | some r =>
        rw [if_pos ⟨by simpa using hnull, hsome.1 rfl⟩] at hact
        exact congrArg MailboxAct.ret hact
  · rw [if_neg hzalloc] at hact ⊢
    exact hact

/-- **Shared memory.** In every state of a run in which each call of `vm_map_shmem` is refused for
its size or is a sound request, the windows lie in the areas of their VMs, share no page and lead to
the buffers. The buffer of a mailbox is mapped in neither owner. -/
theorem vm_map_shmem_windows (A : PageOps σ) (live : Set VmRef) :
    (∀ (st : ShmemState σ) (calls : List ShmemCall), st.Ok A live →
      (∀ c ∈ calls, c.vm ∈ live ∧ c.phy < 2 ^ 64) →
      Along (ShmemRun.step A) (SoundCall A live) ⟨st, []⟩ calls →
      ∀ pre, pre <+: calls → WindowsRight st (exec (ShmemRun.step A) ⟨st, []⟩ pre)) ∧
    ∀ (vms : ℕ → Option VmRef) (index o1 o2 size : ℕ) (event : ℤ) (env : ShmemEnv σ)
      (st st' : ShmemState σ) (mb : MailboxShmem),
      (∀ i vm, vms i = some vm → vm ∈ live) → size ≠ 0 →
      NewBuffer A live (env.getIoPages (balign size PAGE_SIZE >>> 12))
        { st with alloc := env.alloc } →
      createMailbox A vms index o1 o2 size event env st = .made mb st' →
      ∀ i, ¬ BufferMapped mb st' (pageStop size) i := by
  refine ⟨fun st calls hok hcalls hsound pre hpre => ?_, ?_⟩
  · obtain ⟨rest, rfl⟩ := hpre
    have hpre : Along (ShmemRun.step A)
        (fun r c => SoundCall A live r c ∧ (c.vm ∈ live ∧ c.phy < 2 ^ 64)) ⟨st, []⟩ pre :=
      along_and.2 ⟨(along_append.1 hsound).1,
        along_const.2 fun c hc => hcalls c (List.mem_append_left rest hc)⟩
    exact (exec_induction (I := ShmemRun.Inv A live st)
      (fun r c hr hc => hr.step hc.2.1 hc.2.2 hc.1) (.init hok) hpre).right
  · intro vms index o1 o2 size event env st st' mb hvms hsize hnew hmade i hmap
    obtain ⟨owner, howner, hfor⟩ := createMailbox_made hmade
    have hlive : ∀ i, owner i ∈ live := fun i => (howner i).elim fun o ho => hvms o _ ho
    have hinit := createMailboxFor_made hsize hfor
    obtain ⟨hafter, hown, hshmem, hiomem⟩ := NewBuffer.mailboxVmInit
      (show NewBuffer A live (MailboxShmem.mk owner _ 0 fun _ => 0).shmem _ from hnew) hlive rfl
      hinit
    have hfirst := hmap 0 (lt_of_lt_of_le (Nat.pos_of_ne_zero hsize) (le_pageStop size))
    rw [Nat.add_zero, Nat.add_zero, hiomem, hshmem] at hfirst
    exact hafter.unmapped (mb.owner i) (hown ▸ hlive i) hfirst

def nativeVm1 : VmRef := ⟨0x100, 1⟩
def nativeVm2 : VmRef := ⟨0x200, 2⟩

/-- Two native VMs with empty tables and an area of 4MiB each. -/
def twoNative : ShmemState (List ℕ) where
  mem := ⟨fun _ => 0, []⟩
  alloc := [0x3000, 0x4000]
  mms := fun vm => ⟨if vm.vmid = 1 then 0x1000 else 0x2000, [], 0x40000000, 0x400000⟩

lemma twoNative_root {root : ℕ} (h : root ∈ twoNative.roots {nativeVm1, nativeVm2}) :
    root = 0x1000 ∨ root = 0x2000 := by
  obtain ⟨vm, rfl | rfl, rfl⟩ := h
  · exact .inl rfl
  · exact .inr rfl

lemma twoNative_table {root : ℕ} (h : root ∈ twoNative.roots {nativeVm1, nativeVm2}) :
    WF guestFormat twoNative.mem 2 root ∧ pages guestFormat twoNative.mem 2 root = {root} ∧
      ∀ va, walk guestFormat twoNative.mem 2 root va = none :=
  zero_table (fun _ _ _ => rfl) (by rcases twoNative_root h with rfl | rfl <;> decide)

lemma twoNative_memory (head : List ℕ) {p : ℕ}
    (hp : p ∈ tableMemory listPages (twoNative.roots {nativeVm1, nativeVm2})
      ⟨twoNative.mem, twoNative.alloc, head⟩) :
    p = 0x1000 ∨ p = 0x2000 ∨ p = 0x3000 ∨ p = 0x4000 := by
  rcases hp with ⟨root, hroot, hp⟩ | hp
  · rw [(twoNative_table hroot).2.1, Set.mem_singleton_iff] at hp
    rcases twoNative_root hroot with rfl | rfl
    · exact .inl hp
    · exact .inr (.inl hp)
  · rw [avail_listPages] at hp
    have hp : p ∈ [0x3000, 0x4000] := hp
    simp only [List.mem_cons, List.not_mem_nil, or_false] at hp
    exact .inr (.inr hp)

lemma twoNative_ok : twoNative.Ok listPages {nativeVm1, nativeVm2} where
  own := by
    rintro vm (rfl | rfl) vm' (rfl | rfl) h
    · rfl
    · exact absurd h (by decide)
    · exact absurd h (by decide)
    · rfl
  tables := fun head =>
    { wf := fun root hroot => (twoNative_table hroot).1
      supply := supply_listPages (l := [0x3000, 0x4000]) (by decide) (by decide)
      fresh := by
        intro root hroot
        rw [(twoNative_table hroot).2.1, avail_listPages]
        rcases twoNative_root hroot with rfl | rfl
        · simp [twoNative]
        · simp [twoNative]
      apart := by
        intro root hroot root' hroot' hne
        rw [(twoNative_table hroot).2.1, (twoNative_table hroot').2.1]
        exact Set.disjoint_singleton.2 hne
      ram := by
        intro root hroot va _ x hx
        rw [(twoNative_table hroot).2.2] at hx
        cases hx }

/-- 2MiB for the first VM. -/
def blockCall : ShmemCall := ⟨nativeVm1, 0x80000000, 0x200000, VM_IO⟩

lemma blockCall_sound :
    SoundRequest listPages {nativeVm1, nativeVm2} ⟨twoNative, []⟩ blockCall where
  guest := by decide
  des := by decide
  inSpace := by decide
  newPage := .inl (by decide)
  offset := fun _ => rfl
  output := fun _ => by decide
  blocks := fun _ _ _ => by decide
  noBlock := by
    intro va _ _ x hx
    cases ((twoNative_table ⟨nativeVm1, .inl rfl, rfl⟩).2.2 va).symm.trans hx
  buffer := by
    intro va hva hin
    have hva : 0x40000000 ≤ va ∧ va < 0x40200000 := hva
    have hp := twoNative_memory _ hin
    have hlo : pageStart (twoNative.mms blockCall.vm).shmemBase = 0x40000000 := by decide
    have hphy : pageStart blockCall.phy = 0x80000000 := by decide
    rw [hlo, hphy] at hp
    unfold pageStart at hp
    omega
  tables := by
    intro n need _ hget
    have hlo : pageStart (twoNative.mms blockCall.vm).shmemBase = 0x40000000 := by decide
    have hhi : pageStop ((twoNative.mms blockCall.vm).shmemBase + blockCall.size) = 0x40200000 := by
      decide
    rw [hlo, hhi, tableNeeds_cons (by decide), pieceNeeds, if_pos (by rfl), if_pos (by decide),
      show 0x40000000 + min (SIZE_1G - 0x40000000 % SIZE_1G) (0x40200000 - 0x40000000) = 0x40200000
        by decide, tableNeeds, cuts_self] at hget
    have hmem := List.mem_of_getElem? hget
    simp only [List.flatMap_nil, List.append_nil, List.mem_singleton] at hmem
    rw [hmem]
    rfl

lemma twoNative_newBuffer : NewBuffer listPages {nativeVm1, nativeVm2} 0x80000000 twoNative where
  ok := twoNative_ok
  inSpace := by
    rintro vm (rfl | rfl)
    · decide
    · decide
  aligned := by decide
  lt := by decide
  outside := by
    intro head hin
    have := twoNative_memory head hin
    omega
  unmapped := by
    intro vm hvm
    rw [guestTranslate, (twoNative_table ⟨vm, hvm, rfl⟩).2.2]
    simp

/-- The allocators of `create_mailbox` have what it asks for. -/
def bufferEnv : ShmemEnv (List ℕ) := ⟨true, fun _ => 0x80000000, [0x3000, 0x4000], fun _ _ => 32⟩

def twoVms (i : ℕ) : Option VmRef :=
  if i = 1 then some nativeVm1 else if i = 2 then some nativeVm2 else none

/-- A mailbox of one page for the two VMs. -/
def onePageMailbox : MailboxResult (List ℕ) :=
  createMailbox listPages twoVms 0 1 2 0x1000 2 bufferEnv twoNative

lemma onePageMailbox_made : ∃ mb st, onePageMailbox = .made mb st := by
  have hmade : (match onePageMailbox with
      | .made _ _ => true
      | _ => false) = true := by decide +kernel
  rcases hr : onePageMailbox with _ | _ | ⟨mb, st⟩
  · simp [hr] at hmade
  · simp [hr] at hmade
  · exact ⟨mb, st, rfl⟩

/-- A window of 2MiB, and the mailbox. -/
theorem vm_map_shmem_windows_two_vms :
    WindowsRight twoNative (exec (ShmemRun.step listPages) ⟨twoNative, []⟩ [blockCall]) ∧
    ∃ mb st, onePageMailbox = .made mb st ∧ ∀ i, ¬ BufferMapped mb st 0x1000 i := by
  have h := vm_map_shmem_windows listPages {nativeVm1, nativeVm2}
  refine ⟨h.1 twoNative [blockCall] twoNative_ok ?_ ⟨.inr blockCall_sound, trivial⟩ _
    (List.prefix_refl _), ?_⟩
  · rintro c hc
    obtain rfl := List.mem_singleton.1 hc
    exact ⟨.inl rfl, by decide⟩
  · obtain ⟨mb, st, hmade⟩ := onePageMailbox_made
    refine ⟨mb, st, hmade, h.2 twoVms 0 1 2 0x1000 2 bufferEnv twoNative st mb ?_ (by decide)
      twoNative_newBuffer hmade⟩
    intro i vm hvm
    rw [twoVms] at hvm
    split_ifs at hvm
    · exact .inl (Option.some.inj hvm).symm
    · exact .inr (Option.some.inj hvm).symm

/-- Half a page, and then a page: both calls succeed, and the first page of the area leads to the
second buffer. A mailbox of one page: no owner has its first byte. -/
theorem vm_map_shmem_windows_half_page :
    let r := exec (ShmemRun.step listPages) ⟨twoNative, []⟩
      [⟨nativeVm1, 0x80000000, 0x800, VM_IO⟩, ⟨nativeVm1, 0x90000000, 0x1000, VM_IO⟩]
    r.windows = [⟨nativeVm1, 0x40000800, 0x90000000, 0x1000⟩,
      ⟨nativeVm1, 0x40000000, 0x80000000, 0x800⟩] ∧
    guestTranslate r.st.mem 0x1000 0x40000000 = some 0x90000000 ∧
    ¬ WindowsRight twoNative r ∧
    ∃ mb st, onePageMailbox = .made mb st ∧ ¬ ∀ i, BufferMapped mb st 0x1000 i := by
  intro r
  have hwindows : r.windows = [⟨nativeVm1, 0x40000800, 0x90000000, 0x1000⟩,
      ⟨nativeVm1, 0x40000000, 0x80000000, 0x800⟩] := by decide +kernel
  have hfirst : guestTranslate r.st.mem (r.st.root nativeVm1) 0x40000000 = some 0x90000000 := by
    decide +kernel
  refine ⟨hwindows, by decide +kernel, fun hright => ?_, ?_⟩
  · have hmap := hright.mapped ⟨nativeVm1, 0x40000000, 0x80000000, 0x800⟩ (by simp [hwindows]) 0
      (by decide)
    exact absurd (hfirst.symm.trans hmap) (by decide)
  · have hnone : (match onePageMailbox with
        | .made mb st => guestTranslate st.mem (st.root (mb.owner false)) (mb.iomem false) == none
        | _ => false) = true := by decide +kernel
    obtain ⟨mb, st, hmade⟩ := onePageMailbox_made
    rw [hmade] at hnone
    refine ⟨mb, st, hmade, fun hmap => ?_⟩
    have hbyte := hmap false 0 (by decide)
    simp only [beq_iff_eq] at hnone
    rw [Nat.add_zero, hnone] at hbyte
    cases hbyte

end Minos.Virt
