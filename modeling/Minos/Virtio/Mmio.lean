import Mathlib
import Minos.Types
import Minos.Lib.ByteMem

/-!
# Emulation of the virtio-mmio registers

The hypervisor's side of a virtio device: `virtio_mmio_write` and `virtio_create_device` of
`virt/virtio_mmio.c`. A device has a window of `VIRTIO_DEVICE_IOMEM_SIZE` bytes that it shares
with the backend in VM0. The guest reads the window directly; its writes are emulated here.
-/

namespace Minos.Virtio

open ByteMem

/-! ### Registers -/

@[match_pattern] def VIRTIO_MMIO_HOST_FEATURES : ℕ := 0x010
@[match_pattern] def VIRTIO_MMIO_HOST_FEATURES_SEL : ℕ := 0x014
@[match_pattern] def VIRTIO_MMIO_GUEST_FEATURES : ℕ := 0x020
@[match_pattern] def VIRTIO_MMIO_GUEST_FEATURES_SEL : ℕ := 0x024
@[match_pattern] def VIRTIO_MMIO_GUEST_PAGE_SIZE : ℕ := 0x028
@[match_pattern] def VIRTIO_MMIO_QUEUE_SEL : ℕ := 0x030
@[match_pattern] def VIRTIO_MMIO_QUEUE_NUM_MAX : ℕ := 0x034
@[match_pattern] def VIRTIO_MMIO_QUEUE_NUM : ℕ := 0x038
@[match_pattern] def VIRTIO_MMIO_QUEUE_ALIGN : ℕ := 0x03c
@[match_pattern] def VIRTIO_MMIO_QUEUE_PFN : ℕ := 0x040
@[match_pattern] def VIRTIO_MMIO_QUEUE_READY : ℕ := 0x044
@[match_pattern] def VIRTIO_MMIO_QUEUE_NOTIFY : ℕ := 0x050
@[match_pattern] def VIRTIO_MMIO_INTERRUPT_STATUS : ℕ := 0x060
@[match_pattern] def VIRTIO_MMIO_INTERRUPT_ACK : ℕ := 0x064
@[match_pattern] def VIRTIO_MMIO_STATUS : ℕ := 0x070
@[match_pattern] def VIRTIO_MMIO_QUEUE_DESC_LOW : ℕ := 0x080
@[match_pattern] def VIRTIO_MMIO_QUEUE_DESC_HIGH : ℕ := 0x084
@[match_pattern] def VIRTIO_MMIO_QUEUE_AVAIL_LOW : ℕ := 0x090
@[match_pattern] def VIRTIO_MMIO_QUEUE_AVAIL_HIGH : ℕ := 0x094
@[match_pattern] def VIRTIO_MMIO_QUEUE_USED_LOW : ℕ := 0x0a0
@[match_pattern] def VIRTIO_MMIO_QUEUE_USED_HIGH : ℕ := 0x0a4
def VIRTIO_MMIO_HOST_FEATURE0 : ℕ := 0x308
def VIRTIO_MMIO_DRIVER_FEATURE0 : ℕ := 0x318
def VIRTIO_DEVICE_IOMEM_SIZE : ℕ := 0x400

/-! ### Devices and their windows -/

/-- `struct vdev`, with the fields that the emulation of virtio devices reads. -/
structure Vdev where
  gvmPaddr : ℕ
  iomem : ℕ
deriving DecidableEq, Repr

/-- The bytes of the device's window. -/
def Vdev.window (d : Vdev) : Set ℕ := Set.Ico d.iomem (d.iomem + VIRTIO_DEVICE_IOMEM_SIZE)

/-- The area of a VM that holds the windows of all its virtio devices, in guest addresses and in
those of the hypervisor. -/
structure VirtioArea where
  gbase : ℕ
  iomem : ℕ
  size : ℕ

/-- `virtio_create_device` for a device tree node at `base`. -/
def virtioCreateDevice (mm : VirtioArea) (base : ℕ) : Option Vdev :=
  if mm.iomem = 0 then none
  else if add64 mm.gbase mm.size ≤ base then none
  else some ⟨base, add64 mm.iomem (sub64 base mm.gbase)⟩

/-- What `trap_mmio_write` puts into the VMCS for the backend. -/
structure Trap where
  addr : ℕ
  value : ℕ
  nonblock : Bool
deriving DecidableEq, Repr

/-- The windows, and the traps that the backend has not handled yet, oldest first. -/
structure MmioState where
  io : Io
  traps : List Trap

namespace MmioState

def iowrite32 (s : MmioState) (v a : ℕ) : MmioState := { s with io := s.io.store 4 a v }

def ioread32 (s : MmioState) (a : ℕ) : ℕ × MmioState :=
  ((s.io.load 4 a).1, { s with io := (s.io.load 4 a).2 })

def trapMmioWrite (s : MmioState) (addr value : ℕ) : MmioState :=
  { s with traps := s.traps ++ [⟨addr, value, false⟩] }

def trapMmioWriteNonblock (s : MmioState) (addr value : ℕ) : MmioState :=
  { s with traps := s.traps ++ [⟨addr, value, true⟩] }

/-- The register at `off` of the device. -/
def reg (s : MmioState) (d : Vdev) (off : ℕ) : ℕ := read s.io.bytes 4 (d.iomem + off)

@[simp] lemma iowrite32_io (s : MmioState) (v a : ℕ) : (s.iowrite32 v a).io = s.io.store 4 a v :=
  rfl

@[simp] lemma ioread32_fst (s : MmioState) (a : ℕ) : (s.ioread32 a).1 = read s.io.bytes 4 a := rfl

@[simp] lemma ioread32_io (s : MmioState) (a : ℕ) : (s.ioread32 a).2.io = (s.io.load 4 a).2 := rfl

@[simp] lemma trapMmioWrite_io (s : MmioState) (a v : ℕ) : (s.trapMmioWrite a v).io = s.io := rfl

@[simp] lemma trapMmioWriteNonblock_io (s : MmioState) (a v : ℕ) :
    (s.trapMmioWriteNonblock a v).io = s.io := rfl

end MmioState

/-- Where a write to `VIRTIO_MMIO_GUEST_FEATURES` goes, as the source computes it in `tmp`. -/
def driverFeatureOffset (sel : ℕ) : ℕ := (sel * 4 + VIRTIO_MMIO_DRIVER_FEATURE0) % 2 ^ 32

/-- `virtio_mmio_write` -/
def virtioMmioWrite (vdev : Vdev) (address writeValue : ℕ) (s : MmioState) : MmioState :=
  let value := writeValue % 2 ^ 32
  let iomem := vdev.iomem
  let offset := sub64 address vdev.gvmPaddr
  match offset with
  | VIRTIO_MMIO_HOST_FEATURES => s
  | VIRTIO_MMIO_HOST_FEATURES_SEL =>
    if 3 < value then s
    else
      let (tmp, s) := s.ioread32 (iomem + (VIRTIO_MMIO_HOST_FEATURE0 + value * 4))
      s.iowrite32 tmp (iomem + VIRTIO_MMIO_HOST_FEATURES)
  | VIRTIO_MMIO_GUEST_FEATURES_SEL => s.iowrite32 value (iomem + VIRTIO_MMIO_GUEST_FEATURES_SEL)
  | VIRTIO_MMIO_GUEST_FEATURES =>
    let (tmp, s) := s.ioread32 (iomem + VIRTIO_MMIO_GUEST_FEATURES_SEL)
    s.iowrite32 value (iomem + driverFeatureOffset tmp)
  | VIRTIO_MMIO_GUEST_PAGE_SIZE => s.iowrite32 value (iomem + VIRTIO_MMIO_GUEST_PAGE_SIZE)
  | VIRTIO_MMIO_QUEUE_SEL =>
    -- a newly selected queue starts with empty registers
    [VIRTIO_MMIO_QUEUE_READY, VIRTIO_MMIO_QUEUE_NUM, VIRTIO_MMIO_QUEUE_DESC_LOW,
      VIRTIO_MMIO_QUEUE_DESC_HIGH, VIRTIO_MMIO_QUEUE_AVAIL_LOW, VIRTIO_MMIO_QUEUE_AVAIL_HIGH,
      VIRTIO_MMIO_QUEUE_USED_LOW, VIRTIO_MMIO_QUEUE_USED_HIGH].foldl
      (fun s r => s.iowrite32 0 (iomem + r)) (s.iowrite32 value (iomem + VIRTIO_MMIO_QUEUE_SEL))
  | VIRTIO_MMIO_QUEUE_NUM =>
    -- a value above the maximum is only warned about
    let (_, s) := s.ioread32 (iomem + VIRTIO_MMIO_QUEUE_NUM_MAX)
    s.iowrite32 value (iomem + VIRTIO_MMIO_QUEUE_NUM)
  | VIRTIO_MMIO_QUEUE_ALIGN => s.iowrite32 value (iomem + VIRTIO_MMIO_QUEUE_ALIGN)
  | VIRTIO_MMIO_QUEUE_PFN => s.iowrite32 value (iomem + VIRTIO_MMIO_QUEUE_PFN)
  | VIRTIO_MMIO_QUEUE_NOTIFY => s.trapMmioWriteNonblock address writeValue
  | VIRTIO_MMIO_STATUS =>
    let (tmp, s) := s.ioread32 (iomem + VIRTIO_MMIO_STATUS)
    let value := sub32 value tmp
    (s.iowrite32 value (iomem + VIRTIO_MMIO_STATUS)).trapMmioWrite address value
  | VIRTIO_MMIO_QUEUE_DESC_LOW => s.iowrite32 value (iomem + VIRTIO_MMIO_QUEUE_DESC_LOW)
  | VIRTIO_MMIO_QUEUE_AVAIL_LOW => s.iowrite32 value (iomem + VIRTIO_MMIO_QUEUE_AVAIL_LOW)
  | VIRTIO_MMIO_QUEUE_USED_LOW => s.iowrite32 value (iomem + VIRTIO_MMIO_QUEUE_USED_LOW)
  | VIRTIO_MMIO_QUEUE_DESC_HIGH => s.iowrite32 value (iomem + VIRTIO_MMIO_QUEUE_DESC_HIGH)
  | VIRTIO_MMIO_QUEUE_USED_HIGH => s.iowrite32 value (iomem + VIRTIO_MMIO_QUEUE_USED_HIGH)
  | VIRTIO_MMIO_QUEUE_AVAIL_HIGH => s.iowrite32 value (iomem + VIRTIO_MMIO_QUEUE_AVAIL_HIGH)
  | VIRTIO_MMIO_QUEUE_READY =>
    let (value, s) := s.ioread32 (iomem + VIRTIO_MMIO_QUEUE_SEL)
    s.trapMmioWrite address value
  | VIRTIO_MMIO_INTERRUPT_ACK =>
    (s.iowrite32 0 (iomem + VIRTIO_MMIO_INTERRUPT_ACK)).iowrite32 0
      (iomem + VIRTIO_MMIO_INTERRUPT_STATUS)
  | _ => s.trapMmioWrite address writeValue

end Minos.Virtio
