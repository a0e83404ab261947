import Mathlib
import Minos.Types
import Minos.Lib.ByteMem

/-!
# Virtqueues in the backend

The part of `mvm/devices/virtio/virtio.c` that takes descriptor chains from a ring that the guest
fills. The ring, the buffers and the indirect tables are in the memory of the guest, which the
backend sees through a mapping of its own (`gpa_to_hvm_va`).
-/

namespace Minos.Virtio

open ByteMem

def VRING_DESC_F_NEXT : ℕ := 1
def VRING_DESC_F_WRITE : ℕ := 2
def VRING_DESC_F_INDIRECT : ℕ := 4

/-- `struct vm` of the backend: where the memory of the guest is mapped. Neither the mapping nor the
memory of the guest wraps around. -/
structure MvmVm where
  mmap : ℕ
  memStart : ℕ
  memSize : ℕ
  mmap_lt : mmap + memSize < 2 ^ 64
  memStart_lt : memStart + memSize < 2 ^ 64

/-- `gpa_to_hvm_va` -/
def MvmVm.gpaToHvmVa (vm : MvmVm) (gpa : ℕ) : ℕ := add64 vm.mmap (sub64 gpa vm.memStart)

/-- `struct vring_desc` -/
structure VringDesc where
  addr : ℕ
  len : ℕ
  flags : ℕ
  next : ℕ
deriving DecidableEq, Repr

/-- The descriptor at address `a`. -/
def descAt (m : Bytes) (a : ℕ) : VringDesc :=
  ⟨read m 8 a, read m 4 (a + 8), read m 2 (a + 12), read m 2 (a + 14)⟩

/-- Entry `i` of the table at `base`. -/
def tableDesc (m : Bytes) (base i : ℕ) : VringDesc := descAt m (add64 base (16 * i))

/-- `struct iovec` -/
structure Iovec where
  iovBase : ℕ
  iovLen : ℕ
deriving DecidableEq, Repr

/-- The callbacks that a device can put into a queue. -/
inductive VqCallback where
  | virtioBlkNotify
deriving DecidableEq, Repr

/-- `struct virt_queue` -/
structure VirtQueue where
  ready : Bool
  num : ℕ
  iovecSize : ℕ
  desc : ℕ
  avail : ℕ
  used : ℕ
  lastAvailIdx : ℕ
  availIdx : ℕ
  lastUsedIdx : ℕ
  usedFlags : ℕ
  signalledUsed : ℕ
  signalledUsedValid : ℕ
  vqIndex : ℕ
  iovec : ℕ → Iovec
  callback : Option VqCallback

def VirtQueue.setIovec (vq : VirtQueue) (iovec : ℕ → Iovec) : VirtQueue :=
  { vq with iovec := iovec }

/-- `vq->avail->idx` -/
def VirtQueue.availRingIdx (vq : VirtQueue) (m : Bytes) : ℕ := read m 2 (add64 vq.avail 2)

/-- `vq->avail->ring[i]` -/
def VirtQueue.availRing (vq : VirtQueue) (m : Bytes) (i : ℕ) : ℕ :=
  read m 2 (add64 vq.avail (4 + 2 * i))

/-- `virtq_has_descs` -/
def VirtQueue.hasDescs (vq : VirtQueue) (m : Bytes) : Bool := vq.availRingIdx m != vq.lastAvailIdx

/-- What a call of `virtq_get_descs` fills in. The two lists are not in the source: they note
every entry stored into the iov, and every indirect table that was opened. -/
structure Fetch where
  iov : ℕ → Iovec
  inNum : ℕ
  outNum : ℕ
  stored : List Iovec
  tables : List Iovec

/-- `next_desc`, with `none` for `-1`. -/
def nextDesc (desc : VringDesc) : Option ℕ :=
  if desc.flags &&& VRING_DESC_F_NEXT = 0 then none else some desc.next

/-- `translate_desc` -/
def translateDesc (vm : MvmVm) (desc : VringDesc) (index iovSize : ℕ) (f : Fetch) : Fetch :=
  if iovSize ≤ index then f
  else
    let e : Iovec := ⟨vm.gpaToHvmVa desc.addr, desc.len⟩
    { f with iov := Function.update f.iov index e, stored := e :: f.stored }

/-- Count one buffer as `in` or as `out`, by the flags of `desc`. -/
def Fetch.count (f : Fetch) (desc : VringDesc) : Fetch :=
  if desc.flags &&& VRING_DESC_F_WRITE ≠ 0 then { f with inNum := f.inNum + 1 }
  else { f with outNum := f.outNum + 1 }

/-- The loop of `get_indirect_buf`. The buffers are counted by the flags of the outer descriptor. -/
def getIndirectLoop (vm : MvmVm) (m : Bytes) (desc : VringDesc) (inDesc nrIn iovSize oldIndex : ℕ)
    (index next : ℕ) (f : Fetch) : ℤ × Fetch :=
  let vd := tableDesc m inDesc next
  if vd.flags &&& VRING_DESC_F_INDIRECT ≠ 0 then (-EINVAL, f)
  else
    let f := (translateDesc vm vd index iovSize f).count desc
    if iovSize ≤ index + 1 then (-ENOMEM, f)
    else
      match nextDesc vd with
      | none => (index + 1 - oldIndex, f)
      | some next =>
        if nrIn ≤ next then (-EINVAL, f)
        else getIndirectLoop vm m desc inDesc nrIn iovSize oldIndex (index + 1) next f
termination_by iovSize - index

/-- `get_indirect_buf` -/
def getIndirectBuf (vm : MvmVm) (m : Bytes) (desc : VringDesc) (index iovSize : ℕ) (f : Fetch) :
    ℤ × Fetch :=
  let nrIn := desc.len / 16
  if desc.len &&& 0xf ≠ 0 ∨ nrIn = 0 then (-EINVAL, f)
  else
    let inDesc := vm.gpaToHvmVa desc.addr
    getIndirectLoop vm m desc inDesc nrIn iovSize index index 0
      { f with tables := ⟨inDesc, desc.len⟩ :: f.tables }

/-- The indirect buffers take at least one entry of the iov, unless there is an error. -/
lemma getIndirectLoop_pos (vm : MvmVm) (m : Bytes) (desc : VringDesc)
    (inDesc nrIn iovSize oldIndex index next : ℕ) (f : Fetch) (h : oldIndex ≤ index) :
    (getIndirectLoop vm m desc inDesc nrIn iovSize oldIndex index next f).1 < 0 ∨
      0 < (getIndirectLoop vm m desc inDesc nrIn iovSize oldIndex index next f).1 := by
  fun_induction getIndirectLoop vm m desc inDesc nrIn iovSize oldIndex index next f with
  | case1 => simp [EINVAL]
  | case2 => simp [ENOMEM]
  | case3 index next f => right; simp only; omega
  | case4 => simp [EINVAL]
  | case5 index next f _ _ _ _ _ _ _ ih => exact ih (by omega)

lemma getIndirectBuf_pos (vm : MvmVm) (m : Bytes) (desc : VringDesc) (index iovSize : ℕ)
    (f : Fetch) : (getIndirectBuf vm m desc index iovSize f).1 < 0 ∨
      0 < (getIndirectBuf vm m desc index iovSize f).1 := by
  simp only [getIndirectBuf]
  split_ifs
  · simp [EINVAL]
  · exact getIndirectLoop_pos _ _ _ _ _ _ _ _ _ _ le_rfl

/-- The loop of `virtq_get_descs`, over the descriptors of one chain. -/
def getDescsLoop (vm : MvmVm) (m : Bytes) (vq : VirtQueue) (iovSize : ℕ) (i iovIndex : ℕ)
    (f : Fetch) : ℤ × Fetch :=
  if iovSize ≤ iovIndex then (-ENOMEM, f)
  else if vq.num ≤ i then (-EINVAL, f)
  else
    let desc := tableDesc m vq.desc i
    if desc.flags &&& VRING_DESC_F_INDIRECT ≠ 0 then
      let r := getIndirectBuf vm m desc iovIndex iovSize f
      if r.1 < 0 then r
      else
        match nextDesc desc with
        | none => (0, r.2)
        | some next => getDescsLoop vm m vq iovSize next (iovIndex + r.1.toNat) r.2
    else
      let f := (translateDesc vm desc iovIndex iovSize f).count desc
      match nextDesc desc with
      | none => (0, f)
      | some next => getDescsLoop vm m vq iovSize next (iovIndex + 1) f
termination_by iovSize - iovIndex
decreasing_by
  · have hpos := (getIndirectBuf_pos vm m (tableDesc m vq.desc i) iovIndex iovSize f).resolve_left
      ‹_›
    omega
  · omega

/-- The value of an `unsigned int` as an `int`. -/
def toInt32 (n : ℕ) : ℤ := if n < 2 ^ 31 then n else n - 2 ^ 32

/-- `virtq_get_descs` -/
@[irreducible] def virtqGetDescs (vm : MvmVm) (m : Bytes) (vq : VirtQueue) (iov : ℕ → Iovec)
    (iovSize inNum outNum : ℕ) : ℤ × VirtQueue × Fetch :=
  let lastAvailIdx := vq.lastAvailIdx
  let availIdx := vq.availRingIdx m
  let vq := { vq with availIdx := availIdx }
  let f : Fetch := ⟨iov, inNum, outNum, [], []⟩
  let count := sub32 availIdx lastAvailIdx % 2 ^ 16
  if count = 0 then (toInt32 vq.num, vq, f)
  else if vq.num < count then (-EINVAL, vq, f)
  else
    let head := vq.availRing m (lastAvailIdx &&& (vq.num - 1))
    if vq.num ≤ head then (-EINVAL, vq, f)
    else
      let r := getDescsLoop vm m vq iovSize head 0 { f with inNum := 0, outNum := 0 }
      if r.1 < 0 then (r.1, vq, r.2)
      else (head, { vq with lastAvailIdx := (vq.lastAvailIdx + 1) % 2 ^ 16 }, r.2)

/-! ### Notification -/

def VRING_AVAIL_F_NO_INTERRUPT : ℕ := 1
def VRING_USED_F_NO_NOTIFY : ℕ := 1
def VIRTIO_F_NOTIFY_ON_EMPTY : ℕ := 24
def VIRTIO_RING_F_EVENT_IDX : ℕ := 29

/-- `virtq_update_used_flags` -/
def virtqUpdateUsedFlags (vq : VirtQueue) (m : Bytes) : Bytes := write m 2 vq.used vq.usedFlags

/-- `virtq_update_avail_event`: the event index is behind the used ring. -/
def virtqUpdateAvailEvent (vq : VirtQueue) (event : ℕ) (m : Bytes) : Bytes :=
  write m 2 (add64 vq.used (4 + 8 * vq.num)) event

/-- `virtq_enable_notify`, for a device with the features `acked`. -/
@[irreducible] def virtqEnableNotify (acked : ℕ) (vq : VirtQueue) (m : Bytes) :
    Bool × VirtQueue × Bytes :=
  if vq.usedFlags &&& VRING_USED_F_NO_NOTIFY = 0 then (false, vq, m)
  else
    let vq := { vq with usedFlags := vq.usedFlags &&& (2 ^ 16 - 1 - VRING_USED_F_NO_NOTIFY) }
    let m :=
      if acked.testBit VIRTIO_RING_F_EVENT_IDX then virtqUpdateAvailEvent vq vq.availIdx m
      else virtqUpdateUsedFlags vq m
    (vq.availRingIdx m != vq.availIdx, vq, m)

/-- `virtq_disable_notify` -/
@[irreducible] def virtqDisableNotify (acked : ℕ) (vq : VirtQueue) (m : Bytes) :
    VirtQueue × Bytes :=
  if vq.usedFlags &&& VRING_USED_F_NO_NOTIFY ≠ 0 then (vq, m)
  else
    let vq := { vq with usedFlags := vq.usedFlags ||| VRING_USED_F_NO_NOTIFY }
    (vq, if acked.testBit VIRTIO_RING_F_EVENT_IDX then virtqUpdateUsedFlags vq m else m)

/-- `virtq_need_event` -/
def virtqNeedEvent (event new old : ℕ) : Bool :=
  sub32 (sub32 new event) 1 % 2 ^ 16 < sub32 new old % 2 ^ 16

/-- `virtq_need_notify` -/
@[irreducible] def virtqNeedNotify (acked : ℕ) (vq : VirtQueue) (m : Bytes) : Bool × VirtQueue :=
  if acked.testBit VIRTIO_F_NOTIFY_ON_EMPTY ∧ vq.availIdx = vq.lastAvailIdx then (true, vq)
  else if ¬ acked.testBit VIRTIO_RING_F_EVENT_IDX then
    (read m 2 vq.avail &&& VRING_AVAIL_F_NO_INTERRUPT = 0, vq)
  else
    let old := vq.signalledUsed
    let notify := vq.signalledUsedValid
    let new := vq.lastUsedIdx
    let vq := { vq with signalledUsed := new, signalledUsedValid := 1 }
    if notify = 0 then (true, vq)
    else (virtqNeedEvent (vq.availRing m vq.num) new old, vq)

/-! ### The used ring -/

/-- `struct vring_used_elem` -/
structure VringUsedElem where
  id : ℕ
  len : ℕ
deriving DecidableEq, Repr

/-- `vq->used->idx` -/
def VirtQueue.usedRingIdx (vq : VirtQueue) (m : Bytes) : ℕ := read m 2 (add64 vq.used 2)

/-- `vq->last_used_idx & (vq->num - 1)` -/
def VirtQueue.usedStart (vq : VirtQueue) : ℕ := vq.lastUsedIdx &&& sub32 vq.num 1

/-- Store the elements into the used ring from slot `start` on. -/
def storeUsed (vq : VirtQueue) (start : ℕ) (heads : List VringUsedElem) (m : Bytes) : Bytes :=
  (heads.zipIdx start).foldl (fun m e =>
    let a := add64 vq.used (4 + 8 * e.2)
    write (write m 4 a e.1.id) 4 (a + 4) e.1.len) m

/-- `__virtq_add_used_n` -/
@[irreducible] def virtqAddUsedChunk (vq : VirtQueue) (heads : List VringUsedElem) (m : Bytes) :
    VirtQueue × Bytes :=
  let m := storeUsed vq vq.usedStart heads m
  let old := vq.lastUsedIdx
  let new := (vq.lastUsedIdx + heads.length) % 2 ^ 16
  let vq := { vq with lastUsedIdx := new }
  let passed := sub32 new vq.signalledUsed % 2 ^ 16 < sub32 new old % 2 ^ 16
  (if passed then { vq with signalledUsedValid := 0 } else vq, m)

/-- The elements of `virtq_add_used_n`, in two chunks if the ring ends between them. -/
@[irreducible] def virtqAddUsedChunks (vq : VirtQueue) (heads : List VringUsedElem) (m : Bytes) :
    VirtQueue × Bytes :=
  let n := sub32 vq.num vq.usedStart
  if n < heads.length then
    let r := virtqAddUsedChunk vq (heads.take n) m
    virtqAddUsedChunk r.1 (heads.drop n) r.2
  else virtqAddUsedChunk vq heads m

/-- `virtq_add_used_n` -/
@[irreducible] def virtqAddUsedN (vq : VirtQueue) (heads : List VringUsedElem) (m : Bytes) :
    VirtQueue × Bytes :=
  let r := virtqAddUsedChunks vq heads m
  (r.1, write r.2 2 (add64 vq.used 2) r.1.lastUsedIdx)

/-- `virtq_add_used_and_signal`. The first component says whether an interrupt is sent. -/
@[irreducible] def virtqAddUsedAndSignal (acked : ℕ) (vq : VirtQueue) (head len : ℕ) (m : Bytes) :
    Bool × VirtQueue × Bytes :=
  let r := virtqAddUsedN vq [⟨head, len⟩] m
  let n := virtqNeedNotify acked r.1 r.2
  (n.1, n.2, r.2)

/-! ### The fields of a queue that the functions write -/

section Fields

variable (acked : ℕ) (vq : VirtQueue) (m : Bytes)

lemma virtqGetDescs_vq (vm : MvmVm) (iov : ℕ → Iovec) (iovSize inNum outNum : ℕ) :
    ∃ avail last, (virtqGetDescs vm m vq iov iovSize inNum outNum).2.1 =
      { vq with availIdx := avail, lastAvailIdx := last } := by
  simp only [virtqGetDescs]
  split_ifs
  all_goals exact ⟨_, _, rfl⟩

lemma virtqEnableNotify_vq :
    ∃ flags, (virtqEnableNotify acked vq m).2.1 = { vq with usedFlags := flags } := by
  simp only [virtqEnableNotify]
  split_ifs
  all_goals exact ⟨_, rfl⟩

lemma virtqDisableNotify_vq :
    ∃ flags, (virtqDisableNotify acked vq m).1 = { vq with usedFlags := flags } := by
  simp only [virtqDisableNotify]
  split_ifs
  all_goals exact ⟨_, rfl⟩

lemma virtqNeedNotify_vq :
    ∃ used valid, (virtqNeedNotify acked vq m).2 =
      { vq with signalledUsed := used, signalledUsedValid := valid } := by
  simp only [virtqNeedNotify]
  split_ifs
  all_goals exact ⟨_, _, rfl⟩

lemma virtqAddUsedChunk_vq (heads : List VringUsedElem) :
    ∃ last valid, (virtqAddUsedChunk vq heads m).1 =
      { vq with lastUsedIdx := last, signalledUsedValid := valid } := by
  simp only [virtqAddUsedChunk]
  split_ifs
  all_goals exact ⟨_, _, rfl⟩

end Fields

end Minos.Virtio
