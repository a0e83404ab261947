import Mathlib
import Minos.Types

/-!
# Reads of emulated devices

A guest that reads a register of an emulated device faults, and `dataabort_tfl_handler` puts a
value into the register of the guest. The value is a local variable without an initial value, and
the read handler of the device stores into it: all 64 bits of it, the low 32 bits, or nothing.

`ReadDetermined` says that the guest does not see what was on the stack. It holds for the registers
that the RTC and the watchdog know, and for nothing else.
-/

namespace Minos.Virt

/-! ### The distributor -/

/-- What `virq_get_type`, `virq_get_affinity`, `virq_get_pr` and `virq_get_state` return for the
virqs of the vcpu. -/
structure VirqAttrs where
  type : ℕ → ℕ
  affinity : ℕ → ℕ
  pr : ℕ → ℕ
  state : ℕ → ℕ

/-- `struct vgicv2_dev`, with the fields that reads use. -/
structure Vgicv2Dev where
  gicdCtlr : ℕ
  gicdTyper : ℕ
  gicdBase : ℕ
deriving DecidableEq

/-- The fields of `n` virqs from `irq` on, each `width` bits wide, in one 32-bit word. -/
def packVirqs (get : ℕ → ℕ) (irq n width : ℕ) : ℕ :=
  (List.range n).foldl (fun value i => value ||| get (irq + i) <<< (width * i) % 2 ^ 32) 0

def vgicv2GetVirqType (a : VirqAttrs) (offset : ℕ) : ℕ :=
  packVirqs a.type (16 * ((offset - 0xc00) / 4)) 16 2

def vgicv2GetVirqAffinity (a : VirqAttrs) (offset : ℕ) : ℕ :=
  packVirqs (fun irq => 1 <<< a.affinity irq) (4 * ((offset - 0x800) / 4)) 4 8

def vgicv2GetVirqPr (a : VirqAttrs) (offset : ℕ) : ℕ :=
  packVirqs a.pr (4 * ((offset - 0x400) / 4)) 4 8

def vgicv2GetVirqState (a : VirqAttrs) (offset reg : ℕ) : ℕ :=
  packVirqs a.state (32 * ((offset - reg) / 4)) 32 1

/-- The 32-bit value that `vgicv2_read` stores, if it stores one. -/
def vgicv2Value (a : VirqAttrs) (vcpuId : ℕ) (gic : Vgicv2Dev) (offset : ℕ) : Option ℕ :=
  if offset = 0x000 then some (if gic.gicdCtlr = 0 then 0 else 1)
  else if offset = 0x004 then some gic.gicdTyper
  else if 0x080 ≤ offset ∧ offset ≤ 0x0fc then some 0xffffffff
  else if 0x100 ≤ offset ∧ offset ≤ 0x17c then some (vgicv2GetVirqState a offset 0x100)
  else if 0x180 ≤ offset ∧ offset ≤ 0x1fc then some (vgicv2GetVirqState a offset 0x180)
  else if 0x200 ≤ offset ∧ offset ≤ 0x27c then some 0
  else if 0x280 ≤ offset ∧ offset ≤ 0x2fc then some 0
  else if 0x300 ≤ offset ∧ offset ≤ 0x37c then some 0
  else if 0x380 ≤ offset ∧ offset ≤ 0x3fc then some 0
  else if 0x400 ≤ offset ∧ offset ≤ 0x7f8 then some (vgicv2GetVirqPr a offset)
  else if 0x800 ≤ offset ∧ offset ≤ 0x81c then some (packVirqs (fun _ => 1 <<< vcpuId) 0 4 8)
  else if 0x820 ≤ offset ∧ offset ≤ 0xbf8 then some (vgicv2GetVirqAffinity a offset)
  else if 0xc00 ≤ offset ∧ offset ≤ 0xcfc then some (vgicv2GetVirqType a offset)
  else if offset = 0xfe8 then some (0x2 <<< 4)
  else none

/-- Store `x` into the low half of the 64-bit variable `v`. -/
def storeLow (v x : ℕ) : ℕ := v / 2 ^ 32 * 2 ^ 32 + x % 2 ^ 32

/-- `vgicv2_read`: the result goes through a pointer to 32 bits. -/
def vgicv2Read (a : VirqAttrs) (vcpuId : ℕ) (gic : Vgicv2Dev) (offset v : ℕ) : ℕ :=
  match vgicv2Value a vcpuId gic offset with
  | some x => storeLow v x
  | none => v

/-! ### The watchdog -/

def SP805_IOMEM_BASE : ℕ := 0x1c0f0000
def WDT_CLK_RATE : ℕ := 32768

/-- `struct vwdt_dev`, with the fields that reads use. -/
structure VwdtDev where
  intEnable : ℕ
  resetEnable : ℕ
  intTrigger : ℕ
  accessLock : ℕ
  timeoutValue : ℕ
deriving DecidableEq

/-- `wdt_timeleft` at the time `now`. -/
def wdtTimeleft (now : ℕ) (wdt : VwdtDev) : ℕ :=
  sub64 wdt.timeoutValue now / 1000000000 * WDT_CLK_RATE % 2 ^ 32

/-- `vwdt_mmio_read` -/
def vwdtMmioRead (now : ℕ) (wdt : VwdtDev) (address value : ℕ) : ℕ :=
  match sub64 address SP805_IOMEM_BASE with
  | 0x04 => wdtTimeleft now wdt
  | 0x08 => wdt.resetEnable <<< 1 ||| wdt.intEnable
  | 0xc00 => wdt.accessLock
  | 0x10 => wdt.intTrigger
  | 0x14 => wdt.intEnable
  | 0xfe0 => 0x5
  | 0xfe4 => 0x1 <<< 4 ||| 0x8
  | 0xfe8 => 0x1 <<< 4 ||| 0x4
  | 0xfec => 0x0
  | 0xff0 => 0x0d
  | 0xff4 => 0xf0
  | 0xff8 => 0x05
  | 0xffc => 0xb1
  | _ => value

/-- The registers that `vwdt_mmio_read` knows. -/
def vwdtRegs : List ℕ :=
  [0x04, 0x08, 0x10, 0x14, 0xc00, 0xfe0, 0xfe4, 0xfe8, 0xfec, 0xff0, 0xff4, 0xff8, 0xffc]

/-! ### The real time clock -/

def PL031_IOMEM_BASE : ℕ := 0x1c170000

/-- `struct vrtc_dev`, with the fields that reads use. -/
structure VrtcDev where
  rtcEn : ℕ
  rtcIntEn : ℕ
  rtcIntTrigger : ℕ
  timeBase : ℕ
  timeAlarm : ℕ
  timeOffset : ℕ
deriving DecidableEq

/-- `muldiv64` -/
def muldiv64 (a b c : ℕ) : ℕ :=
  let rl := a % 2 ^ 32 * b
  let rh := a / 2 ^ 32 * b + rl / 2 ^ 32
  rh / c % 2 ^ 32 * 2 ^ 32 + (rh % c * 2 ^ 32 + rl % 2 ^ 32) / c % 2 ^ 32

/-- `vrtc_mmio_read` -/
def vrtcMmioRead (now : ℕ) (vrtc : VrtcDev) (address value : ℕ) : ℕ :=
  match sub64 address PL031_IOMEM_BASE with
  | 0x00 =>
    if vrtc.rtcEn = 0 then 0
    else add64 vrtc.timeBase (muldiv64 (sub64 now vrtc.timeOffset) 1 1000000000)
  | 0x04 => vrtc.timeAlarm
  | 0x08 => vrtc.timeBase
  | 0x0c => vrtc.rtcEn
  | 0x10 => vrtc.rtcIntEn
  | 0x14 => vrtc.rtcIntTrigger
  | 0x18 => if vrtc.rtcIntEn = 0 then 1 else 0
  | 0xfe0 => 0x31
  | 0xfe4 => 0x10
  | 0xfe8 => 0x04
  | 0xfec => 0x00
  | 0xff0 => 0x0d
  | 0xff4 => 0xf0
  | 0xff8 => 0x05
  | 0xffc => 0xb1
  | _ => value

/-- The registers that `vrtc_mmio_read` knows. -/
def vrtcRegs : List ℕ :=
  [0x00, 0x04, 0x08, 0x0c, 0x10, 0x14, 0x18, 0xfe0, 0xfe4, 0xfe8, 0xfec, 0xff0, 0xff4, 0xff8, 0xffc]

/-! ### The trap -/

/-- The emulated devices of a VM. -/
inductive EmuDev where
  | vgicv2 (gic : Vgicv2Dev)
  | virtioMmio
  | pl031 (vrtc : VrtcDev)
  | sp805 (wdt : VwdtDev)
deriving DecidableEq

/-- `struct vdev`, with what the dispatch of a read needs. -/
structure EmuVdev where
  gvmPaddr : ℕ
  memSize : ℕ
  dev : EmuDev
deriving DecidableEq

/-- What the read handlers see besides their device: the time, and the current vcpu. -/
structure ReadEnv where
  now : ℕ
  vcpuId : ℕ
  virqs : VirqAttrs

/-- `vdev->read`; every handler returns 0. The result is the content of `value` afterwards. -/
def EmuDev.read (e : ReadEnv) (address value : ℕ) : EmuDev → ℤ × ℕ
  | .vgicv2 gic => (0, vgicv2Read e.virqs e.vcpuId gic (sub64 address gic.gicdBase) value)
  | .virtioMmio => (0, value)
  | .pl031 vrtc => (0, vrtcMmioRead e.now vrtc address value)
  | .sp805 wdt => (0, vwdtMmioRead e.now wdt address value)

/-- The device of the VM that `vdev_mmio_emulation` finds for an address. -/
def findVdev (vdevs : List EmuVdev) (address : ℕ) : Option EmuVdev :=
  vdevs.find? fun d => d.gvmPaddr ≤ address ∧ address < add64 d.gvmPaddr d.memSize

/-- `vdev_mmio_emulation` of a read; `trap` is what VM0 answers when no device is found. -/
def vdevMmioEmulation (e : ReadEnv) (trap : ℕ → ℤ × ℕ) (vdevs : List EmuVdev) (address value : ℕ) :
    ℤ × ℕ :=
  match findVdev vdevs address with
  | some d => d.dev.read e address value
  | none => trap value

def FSC_FLT_TRANS : ℕ := 0x04
def FSC_FLT_ACCESS : ℕ := 0x08
def FSC_FLT_PERM : ℕ := 0x0c

/-- The fault is one that is emulated. -/
def Emulated (dfsc : ℕ) : Prop :=
  dfsc = FSC_FLT_PERM ∨ dfsc = FSC_FLT_ACCESS ∨ dfsc = FSC_FLT_TRANS

instance (dfsc : ℕ) : Decidable (Emulated dfsc) := inferInstanceAs (Decidable (_ ∨ _ ∨ _))

/-- `dataabort_tfl_handler` for a read into register `reg`, with `value` on the stack. The result
are the registers of the guest, and whether an abort is injected. -/
def dataabortTflHandler (e : ReadEnv) (trap : ℕ → ℤ × ℕ) (vdevs : List EmuVdev) (regs : ℕ → ℕ)
    (dfsc reg paddr value : ℕ) : (ℕ → ℕ) × Bool :=
  if Emulated dfsc then
    let r := vdevMmioEmulation e trap vdevs paddr value
    if r.1 ≠ 0 then (regs, true) else (Function.update regs (reg + 3) r.2, false)
  else (regs, true)

/-- What the guest gets does not depend on what was on the stack. -/
def ReadDetermined (e : ReadEnv) (trap : ℕ → ℤ × ℕ) (vdevs : List EmuVdev) (regs : ℕ → ℕ)
    (dfsc reg paddr : ℕ) : Prop :=
  ∀ v < 2 ^ 64, ∀ w < 2 ^ 64, (dataabortTflHandler e trap vdevs regs dfsc reg paddr v).1 =
    (dataabortTflHandler e trap vdevs regs dfsc reg paddr w).1

/-- The read handler of the device stores all 64 bits for this address. -/
def EmuDev.StoresAll (address : ℕ) : EmuDev → Prop
  | .vgicv2 _ => False
  | .virtioMmio => False
  | .pl031 _ => sub64 address PL031_IOMEM_BASE ∈ vrtcRegs
  | .sp805 _ => sub64 address SP805_IOMEM_BASE ∈ vwdtRegs

instance (address : ℕ) : (d : EmuDev) → Decidable (d.StoresAll address)
  | .vgicv2 _ => inferInstanceAs (Decidable False)
  | .virtioMmio => inferInstanceAs (Decidable False)
  | .pl031 _ => inferInstanceAs (Decidable (_ ∈ vrtcRegs))
  | .sp805 _ => inferInstanceAs (Decidable (_ ∈ vwdtRegs))

/-! ### What the handlers leave of the variable -/

/-- A register that the watchdog knows is read without a look at `value`, another one is `value`. -/
lemma vwdtMmioRead_cases (now : ℕ) (wdt : VwdtDev) (address : ℕ) :
    (sub64 address SP805_IOMEM_BASE ∈ vwdtRegs →
      ∀ v w, vwdtMmioRead now wdt address v = vwdtMmioRead now wdt address w) ∧
    (sub64 address SP805_IOMEM_BASE ∉ vwdtRegs → ∀ v, vwdtMmioRead now wdt address v = v) := by
  simp only [vwdtMmioRead]
  generalize sub64 address SP805_IOMEM_BASE = off
  split
  all_goals simp_all [vwdtRegs]

lemma vrtcMmioRead_cases (now : ℕ) (vrtc : VrtcDev) (address : ℕ) :
    (sub64 address PL031_IOMEM_BASE ∈ vrtcRegs →
      ∀ v w, vrtcMmioRead now vrtc address v = vrtcMmioRead now vrtc address w) ∧
    (sub64 address PL031_IOMEM_BASE ∉ vrtcRegs → ∀ v, vrtcMmioRead now vrtc address v = v) := by
  simp only [vrtcMmioRead]
  generalize sub64 address PL031_IOMEM_BASE = off
  split
  all_goals simp_all [vrtcRegs]

/-- The distributor leaves the upper half of the variable as it was. -/
lemma vgicv2Read_upper (a : VirqAttrs) (vcpuId : ℕ) (gic : Vgicv2Dev) (offset v : ℕ) :
    vgicv2Read a vcpuId gic offset v / 2 ^ 32 = v / 2 ^ 32 := by
  rw [vgicv2Read]
  split
  · rw [storeLow]
    omega
  · rfl

/-- A device whose handler does not store all bits gives two values for two stacks. -/
lemma EmuDev.read_ne {e : ReadEnv} {address : ℕ} {d : EmuDev} (h : ¬ d.StoresAll address) :
    (d.read e address 0).2 ≠ (d.read e address (2 ^ 32)).2 := by
  cases d with
  | vgicv2 gic =>
    intro heq
    have h₀ := vgicv2Read_upper e.virqs e.vcpuId gic (sub64 address gic.gicdBase) 0
    have h₁ := vgicv2Read_upper e.virqs e.vcpuId gic (sub64 address gic.gicdBase) (2 ^ 32)
    simp only [EmuDev.read] at heq
    rw [heq, h₁] at h₀
    norm_num at h₀
  | virtioMmio => simp [EmuDev.read]
  | pl031 vrtc =>
    have hv := (vrtcMmioRead_cases e.now vrtc address).2 h
    simp [EmuDev.read, hv]
  | sp805 wdt =>
    have hv := (vwdtMmioRead_cases e.now wdt address).2 h
    simp [EmuDev.read, hv]

lemma EmuDev.read_eq {e : ReadEnv} {address : ℕ} {d : EmuDev} (h : d.StoresAll address) (v w : ℕ) :
    d.read e address v = d.read e address w := by
  cases d with
  | vgicv2 gic => exact absurd h not_false
  | virtioMmio => exact absurd h not_false
  | pl031 vrtc => simp only [EmuDev.read, (vrtcMmioRead_cases e.now vrtc address).1 h v w]
  | sp805 wdt => simp only [EmuDev.read, (vwdtMmioRead_cases e.now wdt address).1 h v w]

lemma EmuDev.read_fst (e : ReadEnv) (address value : ℕ) (d : EmuDev) :
    (d.read e address value).1 = 0 := by
  cases d <;> rfl

/-- The guest does not see the stack exactly when the fault is not emulated at all, or the device
is the RTC or the watchdog and knows the register. -/
theorem mmio_read_determined_iff (e : ReadEnv) (trap : ℕ → ℤ × ℕ) {vdevs : List EmuVdev}
    (regs : ℕ → ℕ) (dfsc reg : ℕ) {paddr : ℕ} {d : EmuVdev} (hd : findVdev vdevs paddr = some d) :
    ReadDetermined e trap vdevs regs dfsc reg paddr ↔ (Emulated dfsc → d.dev.StoresAll paddr) := by
  have hread : Emulated dfsc → ∀ v, (dataabortTflHandler e trap vdevs regs dfsc reg paddr v).1 =
      Function.update regs (reg + 3) (d.dev.read e paddr v).2 := by
    intro hf v
    simp only [dataabortTflHandler, if_pos hf, vdevMmioEmulation, hd, EmuDev.read_fst, ne_eq,
      not_true_eq_false, if_false]
  constructor
  · intro h hf
    by_contra hs
    have hval := h 0 (by norm_num) (2 ^ 32) (by norm_num)
    rw [hread hf, hread hf] at hval
    have := congrFun hval (reg + 3)
    simp only [Function.update_self] at this
    exact EmuDev.read_ne hs this
  · intro h v _ w _
    by_cases hf : Emulated dfsc
    · rw [hread hf, hread hf, EmuDev.read_eq (h hf) v w]
    · simp only [dataabortTflHandler, if_neg hf]

/-- A VM with a distributor, an RTC and a virtio device. -/
def readVdevs : List EmuVdev :=
  [⟨0x2f000000, 0x10000, .vgicv2 ⟨1, 0x20, 0x2f000000⟩⟩,
    ⟨PL031_IOMEM_BASE, 0x1000, .pl031 ⟨0, 0, 0, 0, 5, 0⟩⟩, ⟨0x40000000, 0x400, .virtioMmio⟩]

def readEnv : ReadEnv := ⟨0, 0, ⟨fun _ => 0, fun _ => 0, fun _ => 0, fun _ => 0⟩⟩

/-- The match register of the RTC is read the same whatever is on the stack. -/
theorem mmio_read_determined_iff_match_register :
    ReadDetermined readEnv (fun v => (0, v)) readVdevs (fun _ => 0) FSC_FLT_TRANS 0
      (PL031_IOMEM_BASE + 4) := by
  have hd : findVdev readVdevs (PL031_IOMEM_BASE + 4) =
      some ⟨PL031_IOMEM_BASE, 0x1000, .pl031 ⟨0, 0, 0, 0, 5, 0⟩⟩ := by
    decide +kernel
  exact (mmio_read_determined_iff readEnv _ _ _ _ hd).mpr fun _ => by decide +kernel

/-- The first register of the distributor and of the virtio device are read with the upper half of
the stack variable, and with all of it. -/
theorem mmio_read_shows_stack :
    (dataabortTflHandler readEnv (fun v => (0, v)) readVdevs (fun _ => 0) FSC_FLT_TRANS 0 0x2f000000
      0xdead00000000).1 3 = 0xdead00000001 ∧
    (dataabortTflHandler readEnv (fun v => (0, v)) readVdevs (fun _ => 0) FSC_FLT_TRANS 0 0x40000000
      0xdead00000000).1 3 = 0xdead00000000 ∧
    ¬ ReadDetermined readEnv (fun v => (0, v)) readVdevs (fun _ => 0) FSC_FLT_TRANS 0 0x2f000000 ∧
    ¬ ReadDetermined readEnv (fun v => (0, v)) readVdevs (fun _ => 0) FSC_FLT_TRANS 0
      0x40000000 := by
  refine ⟨by decide +kernel, by decide +kernel, fun h => ?_, fun h => ?_⟩
  · have := congrFun (h 0 (by norm_num) (2 ^ 32) (by norm_num)) 3
    exact absurd this (by decide +kernel)
  · have := congrFun (h 0 (by norm_num) (2 ^ 32) (by norm_num)) 3
    exact absurd this (by decide +kernel)

end Minos.Virt
