import Mathlib
import Minos.Virtio.Mmio
import Minos.Virtio.Ring

/-!
# The block backend

The events of a virtio device in `mvm/devices/virtio/virtio.c` (`virtio_status_event`,
`virtio_buffer_event`, `virtio_queue_event`) and the block device of `virtio_block.c` behind them.

The guest runs while the backend does: `Env.guest` is what it does to its memory between two looks
of the backend, and a loop of the backend has as much fuel as it went round.
-/

namespace Minos.Virtio

open ByteMem

def VIRTIO_BLK_RINGSZ : ℕ := 64
def VIRTIO_BLK_IOVSZ : ℕ := 64
def BLOCKIF_IOV_MAX : ℕ := 33
def DEV_BSIZE : ℕ := 512
def VIRTIO_DEV_STATUS_FEATURES_OK : ℕ := 8
def VIRTIO_MMIO_DRIVER_FEATURE1 : ℕ := 0x31c

/-- `struct virtio_device`; `vqs` is the memory from the start of the array on, of which only the
first `nrVq` queues belong to the device. -/
structure VirtioDevice where
  nrVq : ℕ
  vqs : ℕ → VirtQueue
  ackedFeatures : ℕ

/-- `struct virtio_blk_ioreq` with the request that is handed to blockif. -/
structure VirtioBlkIoreq where
  iov : List Iovec
  iovcnt : ℕ
  offset : ℕ
  resid : ℕ
  status : ℕ

/-- An access to one of the arrays of the backend. -/
inductive ArrayAccess where
  | vqs (i : ℕ)
  | ios (i : ℕ)
deriving DecidableEq, Repr

/-- The backend of one block device: `struct virtio_blk`, and the memory of the process. -/
structure VirtioBlk where
  vm : MvmVm
  dev : VirtioDevice
  ident : List UInt8
  ios : ℕ → VirtioBlkIoreq
  mem : Bytes
  /-- The slots of the requests that blockif has not completed. -/
  pending : List ℕ
  irqs : ℕ
  /-- An assertion has failed. -/
  aborted : Bool
  /-- The accesses to the arrays so far. It is not in the source. -/
  log : List ArrayAccess

namespace VirtioBlk

def setVq (b : VirtioBlk) (k : ℕ) (vq : VirtQueue) : VirtioBlk :=
  { b with dev := { b.dev with vqs := Function.update b.dev.vqs k vq } }

def setMem (b : VirtioBlk) (m : Bytes) : VirtioBlk := { b with mem := m }

def note (b : VirtioBlk) (x : ArrayAccess) : VirtioBlk := { b with log := x :: b.log }

def setIo (b : VirtioBlk) (idx : ℕ) (io : VirtioBlkIoreq) : VirtioBlk :=
  { b with ios := Function.update b.ios idx io }

/-- Send an interrupt if `cond` holds. -/
def sendIrq (b : VirtioBlk) (cond : Bool) : VirtioBlk :=
  { b with irqs := if cond then b.irqs + 1 else b.irqs }

/-- Hand the request in slot `idx` to blockif; that it takes it is asserted. -/
def submit (b : VirtioBlk) (idx : ℕ) (accept : Bool) : VirtioBlk :=
  if accept then { b with pending := idx :: b.pending } else { b with aborted := true }

def abort (b : VirtioBlk) : VirtioBlk := { b with aborted := true }

end VirtioBlk

/-- What is outside of the backend while it handles an event. -/
structure Env where
  /-- What the guest does to its memory before the `t`-th look of the backend. -/
  guest : ℕ → Bytes → Bytes
  /-- Whether blockif takes the request of the `t`-th look. -/
  accepts : ℕ → Bool

/-! ### Requests -/

@[match_pattern] def VBH_OP_READ : ℕ := 0
@[match_pattern] def VBH_OP_WRITE : ℕ := 1
@[match_pattern] def VBH_OP_FLUSH : ℕ := 4
@[match_pattern] def VBH_OP_FLUSH_OUT : ℕ := 5
@[match_pattern] def VBH_OP_IDENT : ℕ := 8
def VBH_FLAG_BARRIER : ℕ := 0x80000000
def VIRTIO_BLK_S_OK : ℕ := 0
def VIRTIO_BLK_S_IOERR : ℕ := 1
def VIRTIO_BLK_S_UNSUPP : ℕ := 2
def EOPNOTSUPP : ℕ := 95
def ENOSYS : ℕ := 38

/-- `virtio_blk_done` for the request in slot `idx`. -/
@[irreducible] def virtioBlkDone (b : VirtioBlk) (idx err : ℕ) : VirtioBlk :=
  let b := b.note (.vqs 0)
  let code :=
    if err = EOPNOTSUPP ∨ err = ENOSYS then VIRTIO_BLK_S_UNSUPP
    else if err ≠ 0 then VIRTIO_BLK_S_IOERR
    else VIRTIO_BLK_S_OK
  let m := write b.mem 1 (b.ios idx).status code
  let r := virtqAddUsedAndSignal b.dev.ackedFeatures (b.dev.vqs 0) idx 1 m
  ((b.setVq 0 r.2.1).setMem r.2.2).sendIrq r.1

/-- `memset` and `strncpy` of the identification into the buffer `e`. -/
def storeIdent (ident : List UInt8) (e : Iovec) (m : Bytes) : Bytes := fun x =>
  if e.iovBase ≤ x ∧ x < e.iovBase + e.iovLen then
    if x - e.iovBase < 21 then ident.getD (x - e.iovBase) 0 else 0
  else m x

/-- `virtio_blk_proc`; `accept` says whether blockif takes the request. -/
@[irreducible] def virtioBlkProc (b : VirtioBlk) (k idx n : ℕ) (accept : Bool) : VirtioBlk :=
  if n < 2 ∨ BLOCKIF_IOV_MAX + 2 < n then b
  else
    let iov := (b.dev.vqs k).iovec
    let b := b.note (.ios idx)
    if (iov 0).iovLen ≠ 16 then b
    else
      let vbh := (iov 0).iovBase
      let data := (List.range (n - 2)).map fun i => iov (i + 1)
      let io : VirtioBlkIoreq :=
        ⟨data, n - 2, read b.mem 8 (vbh + 8) * DEV_BSIZE % 2 ^ 64, (data.map Iovec.iovLen).sum,
          (iov (n - 1)).iovBase⟩
      let b := b.setIo idx io
      if (iov (n - 1)).iovLen ≠ 1 then b.abort
      else
        match read b.mem 4 vbh &&& (2 ^ 32 - 1 - VBH_FLAG_BARRIER) with
        | VBH_OP_READ | VBH_OP_WRITE | VBH_OP_FLUSH | VBH_OP_FLUSH_OUT => b.submit idx accept
        | VBH_OP_IDENT => virtioBlkDone (b.setMem (storeIdent b.ident (iov 1) b.mem)) idx 0
        | _ => virtioBlkDone b idx EOPNOTSUPP

/-- What `virtq_get_descs` returns in `virtio_blk_notify`, and the backend after it. -/
structure Taken where
  ret : ℤ
  inNum : ℕ
  outNum : ℕ
  blk : VirtioBlk

/-- The call of `virtq_get_descs` for queue `k`. -/
@[irreducible] def VirtioBlk.getDescs (b : VirtioBlk) (k : ℕ) : Taken :=
  let vq := b.dev.vqs k
  let r := virtqGetDescs b.vm b.mem vq vq.iovec vq.iovecSize 0 0
  ⟨r.1, r.2.2.inNum, r.2.2.outNum, b.setVq k (r.2.1.setIovec r.2.2.iov)⟩

/-- The call of `virtq_enable_notify` for queue `k`. -/
@[irreducible] def VirtioBlk.enableNotify (b : VirtioBlk) (k : ℕ) : Bool × VirtioBlk :=
  let e := virtqEnableNotify b.dev.ackedFeatures (b.dev.vqs k) b.mem
  (e.1, (b.setVq k e.2.1).setMem e.2.2)

/-- The call of `virtq_disable_notify` for queue `k`. -/
@[irreducible] def VirtioBlk.disableNotify (b : VirtioBlk) (k : ℕ) : VirtioBlk :=
  let d := virtqDisableNotify b.dev.ackedFeatures (b.dev.vqs k) b.mem
  (b.setVq k d.1).setMem d.2

/-- The loop of `virtio_blk_notify` for queue `k`, from the `t`-th look on. -/
def virtioBlkNotifyLoop (env : Env) (k : ℕ) : ℕ → ℕ → VirtioBlk → VirtioBlk
  | 0, _, b => b
  | fuel + 1, t, b =>
    let b := b.setMem (env.guest t b.mem)
    if ¬ (b.dev.vqs k).hasDescs b.mem then b
    else
      let b := b.setMem (env.guest (t + 1) b.mem)
      let num := (b.dev.vqs k).num
      let r := b.getDescs k
      let b := r.blk
      if r.ret < 0 then b
      else if r.ret = num then
        let e := (b.setMem (env.guest (t + 2) b.mem)).enableNotify k
        if e.1 then virtioBlkNotifyLoop env k fuel (t + 3) (e.2.disableNotify k) else e.2
      else if r.inNum ≠ 0 then b
      else
        let b := virtioBlkProc b k (r.ret.toNat % 2 ^ 16) r.outNum (env.accepts t)
        if b.aborted then b else virtioBlkNotifyLoop env k fuel (t + 3) b

/-- `virtio_blk_notify` -/
@[irreducible] def virtioBlkNotify (env : Env) (fuel k : ℕ) (b : VirtioBlk) : VirtioBlk :=
  virtioBlkNotifyLoop env k fuel 0 (b.disableNotify k)

/-! ### Events -/

/-- `u32_to_u64` -/
def u32ToU64 (high low : ℕ) : ℕ := high <<< 32 ||| low

/-- `virtio_status_event`; `reg` are the registers of the window. -/
def virtioStatusEvent (reg : ℕ → ℕ) (b : VirtioBlk) (arg : ℕ) : VirtioBlk :=
  if arg = VIRTIO_DEV_STATUS_FEATURES_OK then
    let acked := u32ToU64 (reg VIRTIO_MMIO_DRIVER_FEATURE1) (reg VIRTIO_MMIO_DRIVER_FEATURE0)
    { b with dev := { b.dev with ackedFeatures := acked } }
  else b

/-- `virtio_queue_event` -/
def virtioQueueEvent (env : Env) (fuel : ℕ) (b : VirtioBlk) (arg : ℕ) : ℤ × VirtioBlk :=
  if b.dev.nrVq < arg then (-EINVAL, b)
  else
    let b := b.note (.vqs arg)
    match (b.dev.vqs arg).callback with
    | none => (-ENOENT, b)
    | some .virtioBlkNotify =>
      if ¬ (b.dev.vqs arg).ready then (-EPERM, b) else (0, virtioBlkNotify env fuel arg b)

/-- `vblk_init_vq` -/
def vblkInitVq (vq : VirtQueue) : VirtQueue :=
  if vq.vqIndex = 0 then { vq with callback := some .virtioBlkNotify } else vq

@[simp] lemma vblkInitVq_desc (vq : VirtQueue) : (vblkInitVq vq).desc = vq.desc := by
  unfold vblkInitVq
  split_ifs <;> rfl

@[simp] lemma vblkInitVq_avail (vq : VirtQueue) : (vblkInitVq vq).avail = vq.avail := by
  unfold vblkInitVq
  split_ifs <;> rfl

@[simp] lemma vblkInitVq_used (vq : VirtQueue) : (vblkInitVq vq).used = vq.used := by
  unfold vblkInitVq
  split_ifs <;> rfl

@[simp] lemma vblkInitVq_num (vq : VirtQueue) : (vblkInitVq vq).num = vq.num := by
  unfold vblkInitVq
  split_ifs <;> rfl

/-- The queue that `virtio_buffer_event` sets up from the registers. -/
def setupQueue (vm : MvmVm) (reg : ℕ → ℕ) (vq : VirtQueue) (arg : ℕ) : VirtQueue :=
  { vq with
    vqIndex := arg
    num := reg VIRTIO_MMIO_QUEUE_NUM
    desc := vm.gpaToHvmVa
      (u32ToU64 (reg VIRTIO_MMIO_QUEUE_DESC_HIGH) (reg VIRTIO_MMIO_QUEUE_DESC_LOW))
    avail := vm.gpaToHvmVa
      (u32ToU64 (reg VIRTIO_MMIO_QUEUE_AVAIL_HIGH) (reg VIRTIO_MMIO_QUEUE_AVAIL_LOW))
    used := vm.gpaToHvmVa
      (u32ToU64 (reg VIRTIO_MMIO_QUEUE_USED_HIGH) (reg VIRTIO_MMIO_QUEUE_USED_LOW))
    lastAvailIdx := 0
    availIdx := 0
    lastUsedIdx := 0
    signalledUsed := 0
    signalledUsedValid := 0
    ready := true }

/-- `virtio_buffer_event` -/
def virtioBufferEvent (reg : ℕ → ℕ) (b : VirtioBlk) (arg : ℕ) : ℤ × VirtioBlk :=
  if b.dev.nrVq ≤ arg then (-EINVAL, b)
  else
    let b := b.note (.vqs arg)
    (0, b.setVq arg (vblkInitVq (setupQueue b.vm reg (b.dev.vqs arg) arg)))

/-- `virtio_mmio_write` of the backend, for a trap at register `offset`. -/
def mvmMmioWrite (env : Env) (fuel : ℕ) (reg : ℕ → ℕ) (b : VirtioBlk) (offset value : ℕ) :
    VirtioBlk :=
  let arg := value % 2 ^ 32
  match offset with
  | VIRTIO_MMIO_STATUS => virtioStatusEvent reg b arg
  | VIRTIO_MMIO_QUEUE_READY => (virtioBufferEvent reg b arg).2
  | VIRTIO_MMIO_QUEUE_NOTIFY => (virtioQueueEvent env fuel b arg).2
  | _ => b

/-- `virtq_reset` -/
def virtqReset (vq : VirtQueue) : VirtQueue :=
  { vq with
    ready := false
    desc := 0
    avail := 0
    used := 0
    lastAvailIdx := 0
    availIdx := 0
    lastUsedIdx := 0
    usedFlags := 0
    signalledUsed := 0
    signalledUsedValid := 0 }

/-- `virtio_device_reset` -/
def virtioDeviceReset (b : VirtioBlk) : VirtioBlk :=
  (List.range b.dev.nrVq).foldl
    (fun b i => (b.note (.vqs i)).setVq i (virtqReset (b.dev.vqs i))) b

end Minos.Virtio
