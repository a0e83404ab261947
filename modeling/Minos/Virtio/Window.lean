import Mathlib
import Minos.Lib.Run
import Minos.Virtio.Mmio

/-!
# The windows of the virtio devices

Does the emulation of one device stay in the window of the device? All registers but one are at
fixed offsets. A write to `VIRTIO_MMIO_GUEST_FEATURES` goes to the word that the guest selected
before with `VIRTIO_MMIO_GUEST_FEATURES_SEL`, and that value is never checked.
-/

namespace Minos.Virtio

open ByteMem Run

/-- The virtio devices of a VM. Their windows are apart from each other. -/
structure Devices (ι : Type) where
  dev : ι → Vdev
  disjoint : Pairwise fun i j => Disjoint (dev i).window (dev j).window

/-- The place that `hv_create_virtio_device` gives to the `i`-th device of the VM. -/
def VirtioArea.device (mm : VirtioArea) (i : ℕ) : Vdev :=
  ⟨mm.gbase + VIRTIO_DEVICE_IOMEM_SIZE * i, mm.iomem + VIRTIO_DEVICE_IOMEM_SIZE * i⟩

def VirtioArea.devices (mm : VirtioArea) : Devices ℕ where
  dev := mm.device
  disjoint i j hij := by
    refine Set.disjoint_left.mpr fun x hx hx' => ?_
    simp only [Vdev.window, VirtioArea.device, VIRTIO_DEVICE_IOMEM_SIZE, Set.mem_Ico] at hx hx'
    omega

/-- `virtio_create_device` makes these devices. -/
lemma virtioCreateDevice_device {mm : VirtioArea} {i : ℕ} (hio : mm.iomem ≠ 0)
    (hi : VIRTIO_DEVICE_IOMEM_SIZE * (i + 1) ≤ mm.size) (hg : mm.gbase + mm.size < 2 ^ 64)
    (hm : mm.iomem + mm.size < 2 ^ 64) :
    virtioCreateDevice mm (mm.device i).gvmPaddr = some (mm.device i) := by
  simp only [VIRTIO_DEVICE_IOMEM_SIZE] at hi
  rw [virtioCreateDevice, if_neg hio, add64_of_lt hg, if_neg]
  · simp only [VirtioArea.device, VIRTIO_DEVICE_IOMEM_SIZE]
    rw [sub64_of_le (by omega) (by omega), Nat.add_sub_cancel_left, add64_of_lt (by omega)]
  · simp only [VirtioArea.device, VIRTIO_DEVICE_IOMEM_SIZE]
    omega

/-- What can happen to the windows: a guest writes a register of a device, or the backends in VM0
change the windows and handle traps. -/
inductive Event (ι : Type) where
  | write (i : ι) (off : Fin VIRTIO_DEVICE_IOMEM_SIZE) (value : ℕ)
  | backend (bytes : Bytes) (traps : List Trap)

variable {ι : Type} (D : Devices ι)

def Devices.step (s : MmioState) : Event ι → MmioState
  | .write i off value => virtioMmioWrite (D.dev i) ((D.dev i).gvmPaddr + off) value s
  | .backend bytes traps => ⟨{ s.io with bytes := bytes }, traps⟩

/-- The emulation of a write accesses only the window of its device, and the window of every other
device is as before. -/
def Devices.Confined (s : MmioState) : Event ι → Prop
  | .write i off value =>
    (∀ x, Io.Made s.io (D.step s (.write i off value)).io x → x.bytes ⊆ (D.dev i).window) ∧
      ∀ j ≠ i, ∀ a ∈ (D.dev j).window, (D.step s (.write i off value)).io.bytes a = s.io.bytes a
  | .backend _ _ => True

/-- A write to `VIRTIO_MMIO_GUEST_FEATURES` finds a selector of a word inside the window. -/
def Devices.SelInWindow (s : MmioState) : Event ι → Prop
  | .write i off _ => (off : ℕ) = VIRTIO_MMIO_GUEST_FEATURES →
      driverFeatureOffset (s.reg (D.dev i) VIRTIO_MMIO_GUEST_FEATURES_SEL) <
        VIRTIO_DEVICE_IOMEM_SIZE
  | .backend _ _ => True

/-! ### One write -/

lemma sub64_add_self (x : ℕ) {y : ℕ} (hy : y < 2 ^ 64) : sub64 (x + y) x = y := by
  rw [sub64, show x + y + 2 ^ 64 - x = y + 2 ^ 64 by omega, Nat.add_mod_right,
    Nat.mod_eq_of_lt hy]

/-- A word of the window. -/
lemma Vdev.word_subset (d : Vdev) {r : ℕ} (hr : r + 4 ≤ VIRTIO_DEVICE_IOMEM_SIZE) :
    Set.Ico (d.iomem + r) (d.iomem + r + 4) ⊆ d.window := by
  intro x hx
  simp only [Vdev.window, Set.mem_Ico] at hx ⊢
  omega

lemma driverFeatureOffset_dvd (sel : ℕ) : 4 ∣ driverFeatureOffset sel := by
  simp only [driverFeatureOffset, VIRTIO_MMIO_DRIVER_FEATURE0]
  omega

/-- The word that the driver's features go to is in the window or wholly outside of it. -/
lemma driverFeature_subset {d : Vdev} {sel : ℕ} :
    Set.Ico (d.iomem + driverFeatureOffset sel) (d.iomem + driverFeatureOffset sel + 4) ⊆
      d.window ↔ driverFeatureOffset sel < VIRTIO_DEVICE_IOMEM_SIZE := by
  constructor
  · intro h
    have := h (Set.left_mem_Ico.mpr (by omega))
    simp only [Vdev.window, Set.mem_Ico] at this
    omega
  · intro h
    have := driverFeatureOffset_dvd sel
    exact d.word_subset (by simp only [VIRTIO_DEVICE_IOMEM_SIZE] at h ⊢; omega)

variable {s : MmioState} {d : Vdev} {off : ℕ}

/-- All registers but `VIRTIO_MMIO_GUEST_FEATURES` are emulated inside the window. -/
lemma virtioMmioWrite_stays (value : ℕ) (hoff : off < 2 ^ 64)
    (hne : off ≠ VIRTIO_MMIO_GUEST_FEATURES) :
    Io.Stays d.window s.io (virtioMmioWrite d (d.gvmPaddr + off) value s).io := by
  have h := Io.Stays.refl d.window s.io
  have hw : ∀ r ≤ 0x318, Set.Ico (d.iomem + r) (d.iomem + r + 4) ⊆ d.window := fun r hr =>
    d.word_subset (by simp only [VIRTIO_DEVICE_IOMEM_SIZE]; omega)
  simp only [virtioMmioWrite, sub64_add_self _ hoff]
  split
  case h_2 =>
    split
    · exact h
    · have hsel : Set.Ico _ _ ⊆ d.window := hw (VIRTIO_MMIO_HOST_FEATURE0 + value % 2 ^ 32 * 4)
        (by simp only [VIRTIO_MMIO_HOST_FEATURE0]; omega)
      exact (h.load hsel).store (hw _ (by decide)) _
  case h_4 => exact absurd rfl hne
  case h_6 =>
    -- the selector, and then the registers that are cleared
    simp only [List.foldl_cons, List.foldl_nil, MmioState.iowrite32_io]
    iterate 9 refine Io.Stays.store ?_ (hw _ (by decide)) _
    exact h
  case h_7 => exact (h.load (hw _ (by decide))).store (hw _ (by decide)) _
  case h_11 => exact (h.load (hw _ (by decide))).store (hw _ (by decide)) _
  case h_18 => exact h.load (hw _ (by decide))
  case h_19 => exact (h.store (hw _ (by decide)) _).store (hw _ (by decide)) _
  all_goals
    first
    | exact h
    | exact h.store (hw _ (by decide)) _

/-- The driver's features go to the word that was selected. -/
lemma virtioMmioWrite_features (value : ℕ) :
    (virtioMmioWrite d (d.gvmPaddr + VIRTIO_MMIO_GUEST_FEATURES) value s).io =
      (s.io.load 4 (d.iomem + VIRTIO_MMIO_GUEST_FEATURES_SEL)).2.store 4
        (d.iomem + driverFeatureOffset (s.reg d VIRTIO_MMIO_GUEST_FEATURES_SEL))
        (value % 2 ^ 32) := by
  simp only [virtioMmioWrite, sub64_add_self _ (show VIRTIO_MMIO_GUEST_FEATURES < 2 ^ 64 by decide)]
  rfl

/-- A computation in the window of one device leaves the other windows alone. -/
lemma Devices.other_window {i j : ι} (hji : j ≠ i) {io io' : Io}
    (h : Io.Stays (D.dev i).window io io') {a : ℕ} (ha : a ∈ (D.dev j).window) :
    io'.bytes a = io.bytes a :=
  h.same a fun hi => Set.disjoint_left.mp (D.disjoint hji) ha hi

/-- One event is confined exactly when it finds a selector inside the window. -/
lemma Devices.confined_iff (s : MmioState) (e : Event ι) : D.Confined s e ↔ D.SelInWindow s e := by
  cases e with
  | backend bytes traps => exact Iff.rfl
  | write i off value =>
    by_cases hoff : (off : ℕ) = VIRTIO_MMIO_GUEST_FEATURES
    · have hio := virtioMmioWrite_features (d := D.dev i) (s := s) value
      simp only [Devices.Confined, Devices.SelInWindow, Devices.step, hoff, hio, true_imp_iff]
      constructor
      · rintro ⟨hin, -⟩
        exact driverFeature_subset.mp (hin _ (Io.made_store (List.suffix_cons _ _) _ _ _))
      · intro hsel
        have hst : Io.Stays (D.dev i).window s.io _ :=
          ((Io.Stays.refl _ s.io).load ((D.dev i).word_subset
            (r := VIRTIO_MMIO_GUEST_FEATURES_SEL) (by decide))).store
            (driverFeature_subset.mpr hsel) (value % 2 ^ 32)
        exact ⟨fun x hx => hst.of_made hx, fun j hj a ha => D.other_window hj hst ha⟩
    · have hst := virtioMmioWrite_stays (d := D.dev i) (s := s) value
        (off.isLt.trans (by decide)) hoff
      simp only [Devices.SelInWindow, hoff, false_imp_iff, iff_true]
      exact ⟨fun x hx => hst.of_made hx, fun j hj a ha => D.other_window hj hst ha⟩

/-! ### Runs -/

/-- A run of guest writes is confined to the windows of the devices written to, exactly when each
write of driver features finds a selector inside the window. -/
theorem virtioMmioWrite_run_confined_iff (s : MmioState) (es : List (Event ι)) :
    Along D.step D.Confined s es ↔ Along D.step D.SelInWindow s es :=
  along_congr D.confined_iff

/-- Two devices of an area at `0x80000000`, all of whose registers are zero. -/
def twoDevices : VirtioArea := ⟨0x40000000, 0x80000000, 0x1000⟩

/-- The guest selects word 58 of the first device's features, which is the first word of the second
device's window, and writes `0xdeadbeef` there. -/
def selectOutside : List (Event ℕ) :=
  [.write 0 ⟨VIRTIO_MMIO_GUEST_FEATURES_SEL, by decide⟩ 58,
    .write 0 ⟨VIRTIO_MMIO_GUEST_FEATURES, by decide⟩ 0xdeadbeef]

theorem virtioMmioWrite_leaves_window :
    ¬ Along twoDevices.devices.step twoDevices.devices.Confined ⟨⟨fun _ => 0, []⟩, []⟩
      selectOutside ∧
    (exec twoDevices.devices.step ⟨⟨fun _ => 0, []⟩, []⟩ selectOutside).reg
      (twoDevices.device 1) 0 = 0xdeadbeef := by
  constructor
  · rintro ⟨-, h, -⟩
    rw [Devices.confined_iff] at h
    exact absurd (h rfl) (by decide +kernel)
  · decide +kernel

end Minos.Virtio
