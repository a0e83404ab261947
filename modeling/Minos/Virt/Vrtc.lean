import Mathlib
import Minos.Core.Muldiv
import Minos.Lib.Run
import Minos.Virt.MmioRead

/-!
# The emulated real time clock

The PL031 has a counter of seconds, a match register, and an interrupt with a mask. The device keeps
the time as a base and an offset, the mask in `rtc_int_en`, and the alarm only in its timer. Beside
the device stands what the guest wrote: the match values that were accepted, and the masks.
-/

namespace Minos.Virt

open Run

def RTC_DR : ℕ := 0x00
def RTC_MR : ℕ := 0x04
def RTC_LR : ℕ := 0x08
def RTC_CR : ℕ := 0x0c
def RTC_IMSC : ℕ := 0x10
def RTC_RIS : ℕ := 0x14
def RTC_MIS : ℕ := 0x18
def RTC_ICR : ℕ := 0x1c

/-- `struct vrtc_dev`, with what `alarm_timer` is armed for. -/
structure Vrtc extends VrtcDev where
  alarmTimer : Option ℕ
deriving DecidableEq

namespace Vrtc

/-- The device as `vrtc_init` leaves it. -/
def init : Vrtc := ⟨⟨0, 0, 0, 0, 0, 0⟩, none⟩

variable (vrtc : Vrtc)

/-- `vrtc_enable`; `t` is the time that VM0 answers. -/
def vrtcEnable (en t now : ℕ) : Vrtc :=
  if vrtc.rtcEn = en then vrtc
  else
    let vrtc :=
      if en ≠ 0 then { vrtc with timeBase := t % 2 ^ 32, timeOffset := now }
      else
        { vrtc with
          alarmTimer := none
          rtcIntTrigger := 0
          rtcIntEn := 0
          timeAlarm := 0
          timeBase := 0
          timeOffset := 0 }
    { vrtc with rtcEn := en }

/-- `vrtc_int_enable`, and whether an interrupt is sent. -/
def vrtcIntEnable (mask : ℕ) : Vrtc × Bool :=
  if vrtc.rtcIntEn ≠ mask then (vrtc, false)
  else
    ({ vrtc with rtcIntEn := if mask = 0 then 1 else 0 },
      decide (mask = 0 ∧ vrtc.rtcIntTrigger ≠ 0))

/-- `vrtc_set_alarm` -/
def vrtcSetAlarm (alarm : ℕ) : Vrtc × ℤ :=
  if alarm ≤ vrtc.timeBase then (vrtc, - EINVAL)
  else
    let timeout := add64 ((alarm - vrtc.timeBase) * 1000000000) vrtc.timeOffset
    ({ vrtc with alarmTimer := some timeout }, 0)

/-- `vrtc_mmio_write` at this offset from `PL031_IOMEM_BASE`, and whether an interrupt is sent. -/
def vrtcMmioWrite (offset value t now : ℕ) : Vrtc × Bool :=
  let v := value % 2 ^ 32
  if offset = RTC_MR then ((vrtc.vrtcSetAlarm v).1, false)
  else if offset = RTC_LR then ({ vrtc with timeOffset := now, timeBase := v }, false)
  else if offset = RTC_CR then (vrtc.vrtcEnable (intBits v) t now, false)
  else if offset = RTC_IMSC then vrtc.vrtcIntEnable (intBits v)
  else if offset = RTC_ICR then ({ vrtc with rtcIntTrigger := 0 }, false)
  else (vrtc, false)

/-- `vrtc_alarm_function`, after the timer left the list of its cpu -/
def vrtcAlarmFunction : Vrtc × Bool :=
  ({ vrtc with alarmTimer := none, rtcIntTrigger := 1 }, decide (vrtc.rtcIntEn ≠ 0))

end Vrtc

/-! ### The clock over time -/

/-- A write of the guest, with the time that VM0 would answer, or the alarm fires. -/
inductive RtcAct where
  | write (offset value t : ℕ)
  | alarm
deriving DecidableEq

/-- What happens, and `NOW()` at that time. -/
structure RtcEvent where
  now : ℕ
  act : RtcAct
deriving DecidableEq

/-- The device at the time of the last event, and what was written so far, the last first: the match
values that were accepted, and the values of the mask register. -/
structure VrtcSystem where
  vrtc : Vrtc
  now : ℕ
  accepted : List ℕ
  masks : List ℕ
deriving DecidableEq

/-- The clock is turned off. -/
def RtcEvent.Disables (e : RtcEvent) : Prop :=
  match e.act with
  | .write offset value _ => offset = RTC_CR ∧ value % 2 ^ 32 = 0
  | .alarm => False

namespace VrtcSystem

/-- A new device that was just enabled. -/
def start (en t now : ℕ) : VrtcSystem :=
  ⟨Vrtc.init.vrtcEnable (intBits (en % 2 ^ 32)) t now, now, [], []⟩

variable (s : VrtcSystem) (e : RtcEvent)

def step : VrtcSystem :=
  match e.act with
  | .write offset value t =>
    let v := value % 2 ^ 32
    { vrtc := (s.vrtc.vrtcMmioWrite offset value t e.now).1
      now := e.now
      accepted :=
        if offset = RTC_MR ∧ (s.vrtc.vrtcSetAlarm v).2 = 0 then v :: s.accepted else s.accepted
      masks := if offset = RTC_IMSC then v :: s.masks else s.masks }
  | .alarm => { s with vrtc := s.vrtc.vrtcAlarmFunction.1, now := e.now }

/-- An interrupt is sent to the VM. -/
def sent : Bool :=
  match e.act with
  | .write offset value t => (s.vrtc.vrtcMmioWrite offset value t e.now).2
  | .alarm => s.vrtc.vrtcAlarmFunction.2

/-- The clock of the hypervisor, a counter of 64 bits, does not go back. -/
def InTime : Prop := s.now ≤ e.now ∧ e.now < 2 ^ 64

/-- What a read of a register returns at the time `t` -/
def read (offset t : ℕ) : ℕ :=
  vrtcMmioRead t s.vrtc.toVrtcDev (add64 PL031_IOMEM_BASE offset) 0

/-- The match value that was last accepted; there is none yet where this is 0. -/
def matchValue : ℕ := s.accepted.headD 0

/-- The raw status and the mask are both 1. -/
def Unmasked : Prop := s.read RTC_RIS s.now = 1 ∧ s.read RTC_IMSC s.now = 1

/-- An interrupt is sent only with status and mask, and whenever both become 1. -/
def SendsRight : Prop :=
  (s.sent e = true → (s.step e).Unmasked) ∧
    (¬ s.Unmasked → (s.step e).Unmasked → s.sent e = true)

/-- What is promised of the registers after a run from `s₀` that ends in `s`. -/
structure RegistersRight (s₀ : VrtcSystem) (es : List RtcEvent) (s : VrtcSystem) : Prop where
  matchReg : s.read RTC_MR s.now = s.matchValue
  maskReg : s.read RTC_IMSC s.now = 1 ↔ ∃ v l, s.masks = v :: l ∧ v % 2 = 1
  masked : s.read RTC_MIS s.now = s.read RTC_RIS s.now &&& s.read RTC_IMSC s.now
  sends : Along step SendsRight s₀ es
  alarm : ∀ x, s.vrtc.alarmTimer = some x →
    ∀ t, s.now ≤ t → t < 2 ^ 64 → (x ≤ t ↔ s.matchValue ≤ s.read RTC_DR t)

/-- What these writes to the mask register leave in `rtc_int_en`: 0 sets it, 1 clears it. -/
def intEnOf : List ℕ → ℕ
  | [] => 0
  | v :: l => if v = 0 then 1 else if v = 1 then 0 else intEnOf l

/-- What the run has to be for that. -/
structure RegistersFit (s : VrtcSystem) : Prop where
  matchReg : s.accepted = []
  maskReg : ∀ v l, s.masks = v :: l → 2 ≤ v ∧ v % 2 = intEnOf l
  masked : intEnOf s.masks = 1 ∧ s.vrtc.rtcIntTrigger = 0
  alarm : ∀ x, s.vrtc.alarmTimer = some x →
    max x s.now = max (s.vrtc.timeOffset + (s.matchValue - s.vrtc.timeBase) * 10 ^ 9) s.now

end VrtcSystem

/-! ### The registers -/

/-- Nanoseconds to seconds -/
lemma muldiv64_seconds {a : ℕ} (ha : a < 2 ^ 64) : muldiv64 a 1 1000000000 = a / 10 ^ 9 := by
  have hquot : a * 1 / 1000000000 < 2 ^ 64 := by
    rw [mul_one]
    exact (Nat.div_le_self _ _).trans_lt ha
  rw [Core.muldiv64_eq ha (by norm_num) (by norm_num) (by norm_num) hquot, mul_one]
  norm_num

namespace VrtcSystem

variable {s : VrtcSystem}

lemma read_mr (t : ℕ) : s.read RTC_MR t = s.vrtc.timeAlarm := by
  have hoffset : sub64 (add64 PL031_IOMEM_BASE RTC_MR) PL031_IOMEM_BASE = 0x04 := by
    decide +kernel
  simp only [read, vrtcMmioRead, hoffset]

lemma read_imsc (t : ℕ) : s.read RTC_IMSC t = s.vrtc.rtcIntEn := by
  have hoffset : sub64 (add64 PL031_IOMEM_BASE RTC_IMSC) PL031_IOMEM_BASE = 0x10 := by
    decide +kernel
  simp only [read, vrtcMmioRead, hoffset]

lemma read_ris (t : ℕ) : s.read RTC_RIS t = s.vrtc.rtcIntTrigger := by
  have hoffset : sub64 (add64 PL031_IOMEM_BASE RTC_RIS) PL031_IOMEM_BASE = 0x14 := by
    decide +kernel
  simp only [read, vrtcMmioRead, hoffset]

lemma read_mis (t : ℕ) : s.read RTC_MIS t = if s.vrtc.rtcIntEn = 0 then 1 else 0 := by
  have hoffset : sub64 (add64 PL031_IOMEM_BASE RTC_MIS) PL031_IOMEM_BASE = 0x18 := by
    decide +kernel
  simp only [read, vrtcMmioRead, hoffset]

lemma read_dr (t : ℕ) (hen : s.vrtc.rtcEn ≠ 0) (hbase : s.vrtc.timeBase < 2 ^ 32)
    (hle : s.vrtc.timeOffset ≤ t) (ht : t < 2 ^ 64) :
    s.read RTC_DR t = s.vrtc.timeBase + (t - s.vrtc.timeOffset) / 10 ^ 9 := by
  have hoffset : sub64 (add64 PL031_IOMEM_BASE RTC_DR) PL031_IOMEM_BASE = 0x00 := by
    decide +kernel
  simp only [read, vrtcMmioRead, hoffset, if_neg hen]
  rw [sub64_of_le hle ht, muldiv64_seconds (by omega), add64_of_lt (by omega)]

/-! ### The invariant -/

/-- What holds of the device while it is enabled. -/
structure Inv (s : VrtcSystem) : Prop where
  enabled : s.vrtc.rtcEn ≠ 0
  alarmZero : s.vrtc.timeAlarm = 0
  intEn : s.vrtc.rtcIntEn = intEnOf s.masks
  trigger : s.vrtc.rtcIntTrigger ≤ 1
  base : s.vrtc.timeBase < 2 ^ 32
  offset : s.vrtc.timeOffset ≤ s.now
  now : s.now < 2 ^ 64
  accepted : ∀ m ∈ s.accepted, 0 < m
  timer : ∀ x, s.vrtc.alarmTimer = some x → x < 2 ^ 64

lemma intEnOf_le (l : List ℕ) : intEnOf l ≤ 1 := by
  induction l with
  | nil => exact Nat.zero_le 1
  | cons v l ih =>
    rw [intEnOf]
    split_ifs <;> omega

lemma vrtcEnable_of_ne {vrtc : Vrtc} {en : ℕ} (hen : en ≠ 0) (t now : ℕ) :
    vrtc.vrtcEnable en t now = if vrtc.rtcEn = en then vrtc
      else { vrtc with timeBase := t % 2 ^ 32, timeOffset := now, rtcEn := en } := by
  rw [Vrtc.vrtcEnable, if_pos hen]

lemma vrtcEnable_init {en : ℕ} (hen : en ≠ 0) (t now : ℕ) :
    Vrtc.init.vrtcEnable en t now = ⟨⟨en, 0, 0, t % 2 ^ 32, 0, now⟩, none⟩ := by
  have hinit : Vrtc.init.rtcEn ≠ en := hen.symm
  rw [vrtcEnable_of_ne hen, if_neg hinit, Vrtc.init]

/-! ### The writes, one register at a time -/

variable {now value t : ℕ}

lemma step_mr_refused (h : value % 2 ^ 32 ≤ s.vrtc.timeBase) :
    s.step ⟨now, .write RTC_MR value t⟩ = { s with now := now } := by
  have halarm : s.vrtc.vrtcSetAlarm (value % 2 ^ 32) = (s.vrtc, - EINVAL) := if_pos h
  have hmr : RTC_MR ≠ RTC_IMSC := by decide
  simp only [step, Vrtc.vrtcMmioWrite, halarm, hmr, if_true, if_false]
  rfl

lemma step_mr_accepted (h : s.vrtc.timeBase < value % 2 ^ 32) :
    s.step ⟨now, .write RTC_MR value t⟩ =
      { s with
        vrtc := { s.vrtc with
          alarmTimer := some (add64 ((value % 2 ^ 32 - s.vrtc.timeBase) * 1000000000)
            s.vrtc.timeOffset) }
        now := now
        accepted := value % 2 ^ 32 :: s.accepted } := by
  have halarm : s.vrtc.vrtcSetAlarm (value % 2 ^ 32) = ({ s.vrtc with
      alarmTimer := some (add64 ((value % 2 ^ 32 - s.vrtc.timeBase) * 1000000000)
        s.vrtc.timeOffset) }, 0) := if_neg h.not_ge
  have hmr : RTC_MR ≠ RTC_IMSC := by decide
  simp only [step, Vrtc.vrtcMmioWrite, halarm, hmr, and_self, if_true, if_false]

lemma step_lr : s.step ⟨now, .write RTC_LR value t⟩ =
    { s with
      vrtc := { s.vrtc with timeOffset := now, timeBase := value % 2 ^ 32 }
      now := now } := by
  have hmr : RTC_LR ≠ RTC_MR := by decide
  have hmask : RTC_LR ≠ RTC_IMSC := by decide
  simp only [step, Vrtc.vrtcMmioWrite, hmr, hmask, if_true, if_false, false_and]

lemma step_cr : s.step ⟨now, .write RTC_CR value t⟩ =
    { s with vrtc := s.vrtc.vrtcEnable (intBits (value % 2 ^ 32)) t now, now := now } := by
  have hmr : RTC_CR ≠ RTC_MR := by decide
  have hlr : RTC_CR ≠ RTC_LR := by decide
  have hmask : RTC_CR ≠ RTC_IMSC := by decide
  simp only [step, Vrtc.vrtcMmioWrite, hmr, hlr, hmask, if_true, if_false, false_and]

lemma step_imsc : s.step ⟨now, .write RTC_IMSC value t⟩ =
    { s with
      vrtc := (s.vrtc.vrtcIntEnable (intBits (value % 2 ^ 32))).1
      now := now
      masks := value % 2 ^ 32 :: s.masks } := by
  have hmr : RTC_IMSC ≠ RTC_MR := by decide
  have hlr : RTC_IMSC ≠ RTC_LR := by decide
  have hcr : RTC_IMSC ≠ RTC_CR := by decide
  simp only [step, Vrtc.vrtcMmioWrite, hmr, hlr, hcr, if_true, if_false, false_and]

lemma step_icr : s.step ⟨now, .write RTC_ICR value t⟩ =
    { s with vrtc := { s.vrtc with rtcIntTrigger := 0 }, now := now } := by
  have hmr : RTC_ICR ≠ RTC_MR := by decide
  have hlr : RTC_ICR ≠ RTC_LR := by decide
  have hcr : RTC_ICR ≠ RTC_CR := by decide
  have himsc : RTC_ICR ≠ RTC_IMSC := by decide
  simp only [step, Vrtc.vrtcMmioWrite, hmr, hlr, hcr, himsc, if_true, if_false, false_and]

lemma step_other {offset : ℕ} (h : offset ∉ [RTC_MR, RTC_LR, RTC_CR, RTC_IMSC, RTC_ICR]) :
    s.step ⟨now, .write offset value t⟩ = { s with now := now } := by
  simp only [List.mem_cons, List.not_mem_nil, or_false, not_or] at h
  obtain ⟨hmr, hlr, hcr, himsc, hicr⟩ := h
  simp only [step, Vrtc.vrtcMmioWrite, hmr, hlr, hcr, himsc, hicr, if_false, false_and]

lemma inv_start {en t now : ℕ} (hen : en % 2 ^ 32 ≠ 0) (hnow : now < 2 ^ 64) :
    (start en t now).Inv := by
  have hbits : intBits (en % 2 ^ 32) ≠ 0 := mt (intBits_eq_iff (by norm_num)).1 hen
  have hvrtc : (start en t now).vrtc =
      ⟨⟨intBits (en % 2 ^ 32), 0, 0, t % 2 ^ 32, 0, now⟩, none⟩ := vrtcEnable_init hbits t now
  constructor
  case enabled => simpa [hvrtc] using hbits
  case alarmZero => simp [hvrtc]
  case intEn =>
    rw [hvrtc]
    rfl
  case trigger => simp [hvrtc]
  case base =>
    rw [hvrtc]
    exact Nat.mod_lt _ (by norm_num)
  case offset =>
    rw [hvrtc]
    exact le_rfl
  case now => exact hnow
  case accepted => simp [start]
  case timer => simp [hvrtc]

lemma vrtcIntEnable_fst {vrtc : Vrtc} (h : vrtc.rtcIntEn ≤ 1) (v : ℕ) :
    (vrtc.vrtcIntEnable (intBits v)).1 =
      { vrtc with rtcIntEn := if v = 0 then 1 else if v = 1 then 0 else vrtc.rtcIntEn } := by
  have hzero : intBits v = 0 ↔ v = 0 := intBits_eq_iff (by norm_num)
  have hone : intBits v = 1 ↔ v = 1 := intBits_eq_iff (by norm_num)
  have hbits₀ : intBits 0 = 0 := rfl
  have hbits₁ : intBits 1 = 1 := rfl
  rw [Vrtc.vrtcIntEnable]
  obtain hen | hen : vrtc.rtcIntEn = 0 ∨ vrtc.rtcIntEn = 1 := by omega
  · by_cases hv : v = 0
    · simp [hen, hv, hbits₀]
    · have hne : (0 : ℕ) ≠ intBits v := fun h => hv (hzero.1 h.symm)
      rw [hen, if_pos hne, if_neg hv, ite_self, ← hen]
  · by_cases hv : v = 1
    · simp [hen, hv, hbits₁]
    · have hne : (1 : ℕ) ≠ intBits v := fun h => hv (hone.1 h.symm)
      rw [hen, if_pos hne, if_neg hv, ite_self, ← hen]

lemma vrtcIntEnable_snd {vrtc : Vrtc} (v : ℕ) : (vrtc.vrtcIntEnable (intBits v)).2 = true ↔
    v = 0 ∧ vrtc.rtcIntEn = 0 ∧ vrtc.rtcIntTrigger ≠ 0 := by
  have hzero : intBits v = 0 ↔ v = 0 := intBits_eq_iff (by norm_num)
  rw [Vrtc.vrtcIntEnable]
  by_cases h : vrtc.rtcIntEn = intBits v
  · rw [if_neg (not_not.2 h), decide_eq_true_iff, hzero, h]
    constructor
    · rintro ⟨hv, htrig⟩
      exact ⟨hv, hzero.2 hv, htrig⟩
    · rintro ⟨hv, -, htrig⟩
      exact ⟨hv, htrig⟩
  · rw [if_pos h]
    refine iff_of_false Bool.false_ne_true ?_
    rintro ⟨hv, hen, -⟩
    exact h (hen.trans (hzero.2 hv).symm)

lemma Inv.intEn_le (h : s.Inv) : s.vrtc.rtcIntEn ≤ 1 := h.intEn ▸ intEnOf_le s.masks

/-- The invariant is kept as long as the clock stays enabled. -/
lemma Inv.step {e : RtcEvent} (h : s.Inv) (ht : s.InTime e) (hen : ¬ e.Disables) :
    (s.step e).Inv := by
  obtain ⟨now, act⟩ := e
  have hlater : s.vrtc.timeOffset ≤ now := h.offset.trans ht.1
  cases act with
  | alarm =>
    exact ⟨h.enabled, h.alarmZero, h.intEn, le_rfl, h.base, hlater, ht.2, h.accepted, by
      simp [VrtcSystem.step, Vrtc.vrtcAlarmFunction]⟩
  | write offset value t =>
    by_cases hmem : offset ∈ [RTC_MR, RTC_LR, RTC_CR, RTC_IMSC, RTC_ICR]
    · simp only [List.mem_cons, List.not_mem_nil, or_false] at hmem
      rcases hmem with rfl | rfl | rfl | rfl | rfl
      · rcases Nat.lt_or_ge s.vrtc.timeBase (value % 2 ^ 32) with hacc | href
        · rw [step_mr_accepted hacc]
          refine { h with offset := hlater, now := ht.2, accepted := ?_, timer := ?_ }
          · rintro m (_ | ⟨_, hm⟩)
            · exact Nat.zero_lt_of_lt hacc
            · exact h.accepted m hm
          · rintro x ⟨⟩
            exact add64_lt _ _
        · rw [step_mr_refused href]
          exact { h with offset := hlater, now := ht.2 }
      · rw [step_lr]
        exact { h with base := Nat.mod_lt _ (by norm_num), offset := le_rfl, now := ht.2 }
      · have hbits : intBits (value % 2 ^ 32) ≠ 0 :=
          fun hz => hen ⟨rfl, (intBits_eq_iff (by norm_num)).1 hz⟩
        rw [step_cr, vrtcEnable_of_ne hbits]
        split_ifs
        · exact { h with offset := hlater, now := ht.2 }
        · exact { h with
            enabled := hbits
            base := Nat.mod_lt _ (by norm_num)
            offset := le_rfl
            now := ht.2 }
      · rw [step_imsc, vrtcIntEnable_fst h.intEn_le]
        exact { h with offset := hlater, now := ht.2, intEn := by rw [intEnOf, ← h.intEn] }
      · rw [step_icr]
        exact { h with offset := hlater, now := ht.2, trigger := Nat.zero_le 1 }
    · rw [step_other hmem]
      exact { h with offset := hlater, now := ht.2 }

/-! ### What is right, part by part -/

/-- The match register is never stored. -/
lemma matchReg_iff (h : s.Inv) : s.read RTC_MR s.now = s.matchValue ↔ s.accepted = [] := by
  rw [read_mr, h.alarmZero, matchValue]
  cases hacc : s.accepted with
  | nil => simp
  | cons m l =>
    have hm := h.accepted m (by simp [hacc])
    simpa using hm.ne

/-- The mask is stored the other way round. -/
lemma maskReg_iff (h : s.Inv) :
    (s.read RTC_IMSC s.now = 1 ↔ ∃ v l, s.masks = v :: l ∧ v % 2 = 1) ↔
      ∀ v l, s.masks = v :: l → 2 ≤ v ∧ v % 2 = intEnOf l := by
  rw [read_imsc, h.intEn]
  cases s.masks with
  | nil => simp [intEnOf]
  | cons v l =>
    have hle := intEnOf_le l
    simp only [intEnOf, List.cons.injEq]
    constructor
    · rintro hiff v l ⟨rfl, rfl⟩
      split_ifs at hiff with hzero hone
      · obtain ⟨w, l', ⟨rfl, -⟩, hw⟩ := hiff.1 rfl
        omega
      · exact absurd (hiff.2 ⟨v, l, ⟨rfl, rfl⟩, by omega⟩) (by norm_num)
      · refine ⟨by omega, ?_⟩
        by_cases hodd : v % 2 = 1
        · rw [hodd, hiff.2 ⟨v, l, ⟨rfl, rfl⟩, hodd⟩]
        · have : intEnOf l ≠ 1 := by
            intro h1
            obtain ⟨w, l', ⟨rfl, -⟩, hw⟩ := hiff.1 h1
            exact hodd hw
          omega
    · intro hfit
      obtain ⟨htwo, heq⟩ := hfit v l ⟨rfl, rfl⟩
      rw [if_neg (by omega), if_neg (by omega), ← heq]
      constructor
      · exact fun hodd => ⟨v, l, ⟨rfl, rfl⟩, hodd⟩
      · rintro ⟨w, l', ⟨rfl, -⟩, hw⟩
        exact hw

/-- The masked status is the negation of the mask. -/
lemma masked_iff (h : s.Inv) :
    s.read RTC_MIS s.now = s.read RTC_RIS s.now &&& s.read RTC_IMSC s.now ↔
      intEnOf s.masks = 1 ∧ s.vrtc.rtcIntTrigger = 0 := by
  rw [read_mis, read_ris, read_imsc, h.intEn]
  have hle := intEnOf_le s.masks
  have htrig := h.trigger
  interval_cases intEnOf s.masks <;> interval_cases s.vrtc.rtcIntTrigger <;> decide

lemma unmasked_iff : s.Unmasked ↔ s.vrtc.rtcIntTrigger = 1 ∧ s.vrtc.rtcIntEn = 1 := by
  rw [Unmasked, read_ris, read_imsc]

/-- An alarm has the moment at which the clock reaches the match value, or both are past. -/
lemma alarm_iff (h : s.Inv) :
    (∀ x, s.vrtc.alarmTimer = some x → ∀ t, s.now ≤ t → t < 2 ^ 64 →
      (x ≤ t ↔ s.matchValue ≤ s.read RTC_DR t)) ↔
    ∀ x, s.vrtc.alarmTimer = some x →
      max x s.now = max (s.vrtc.timeOffset + (s.matchValue - s.vrtc.timeBase) * 10 ^ 9) s.now := by
  refine forall₂_congr fun x hx => ?_
  have hxlt := h.timer x hx
  have hreach : ∀ t, s.now ≤ t → t < 2 ^ 64 → (s.matchValue ≤ s.read RTC_DR t ↔
      s.vrtc.timeOffset + (s.matchValue - s.vrtc.timeBase) * 10 ^ 9 ≤ t) := by
    intro t hle hlt
    have hoffset := h.offset
    rw [read_dr t h.enabled h.base (by omega) hlt]
    omega
  generalize s.vrtc.timeOffset + (s.matchValue - s.vrtc.timeBase) * 10 ^ 9 = moment at hreach ⊢
  have hnow := h.now
  constructor
  · intro hall
    have h₁ := (hall (max x s.now) (le_max_right _ _) (max_lt hxlt hnow)).1 (le_max_left _ _)
    rw [hreach _ (le_max_right _ _) (max_lt hxlt hnow)] at h₁
    have hmoment : max moment s.now < 2 ^ 64 := by omega
    have h₂ := (hall (max moment s.now) (le_max_right _ _) hmoment).2
      ((hreach _ (le_max_right _ _) hmoment).2 (le_max_left _ _))
    omega
  · intro heq t hle hlt
    rw [hreach t hle hlt]
    omega

/-- Only a write to the mask register sends. -/
lemma vrtcMmioWrite_snd {vrtc : Vrtc} {offset : ℕ} (h : offset ≠ RTC_IMSC) :
    (vrtc.vrtcMmioWrite offset value t now).2 = false := by
  rw [Vrtc.vrtcMmioWrite, if_neg h]
  split_ifs <;> rfl

/-- The other writes raise neither the status nor the mask. -/
lemma unmasked_of_write {offset : ℕ} (hoff : offset ≠ RTC_IMSC)
    (hen : ¬ RtcEvent.Disables ⟨now, .write offset value t⟩)
    (hafter : (s.step ⟨now, .write offset value t⟩).Unmasked) : s.Unmasked := by
  rw [unmasked_iff] at hafter ⊢
  by_cases hmem : offset ∈ [RTC_MR, RTC_LR, RTC_CR, RTC_IMSC, RTC_ICR]
  · simp only [List.mem_cons, List.not_mem_nil, or_false] at hmem
    rcases hmem with rfl | rfl | rfl | rfl | rfl
    · rcases Nat.lt_or_ge s.vrtc.timeBase (value % 2 ^ 32) with hacc | href
      · rwa [step_mr_accepted hacc] at hafter
      · rwa [step_mr_refused href] at hafter
    · rwa [step_lr] at hafter
    · have hbits : intBits (value % 2 ^ 32) ≠ 0 :=
        fun hz => hen ⟨rfl, (intBits_eq_iff (by norm_num)).1 hz⟩
      rw [step_cr, vrtcEnable_of_ne hbits] at hafter
      split_ifs at hafter
      · exact hafter
      · exact hafter
    · exact absurd rfl hoff
    · rw [step_icr] at hafter
      exact absurd hafter.1 (by norm_num)
  · rwa [step_other hmem] at hafter

/-- The interrupts are right in every step. -/
lemma Inv.sendsRight {e : RtcEvent} (h : s.Inv) (hen : ¬ e.Disables) : s.SendsRight e := by
  obtain ⟨now, act⟩ := e
  cases act with
  | alarm =>
    have hafter : (s.step ⟨now, .alarm⟩).Unmasked ↔ s.vrtc.rtcIntEn = 1 := by
      rw [unmasked_iff]
      exact and_iff_right rfl
    have hsent : s.sent ⟨now, .alarm⟩ = true ↔ s.vrtc.rtcIntEn ≠ 0 := decide_eq_true_iff
    have hle := h.intEn_le
    rw [SendsRight, hafter, hsent]
    omega
  | write offset value t =>
    by_cases hoff : offset = RTC_IMSC
    · subst hoff
      have hsent : s.sent ⟨now, .write RTC_IMSC value t⟩ = true ↔ value % 2 ^ 32 = 0 ∧
          s.vrtc.rtcIntEn = 0 ∧ s.vrtc.rtcIntTrigger ≠ 0 := vrtcIntEnable_snd _
      have hle := h.intEn_le
      have htrig := h.trigger
      rw [SendsRight, hsent, unmasked_iff, unmasked_iff, step_imsc, vrtcIntEnable_fst hle]
      constructor
      · rintro ⟨hv, hint, hraised⟩
        have hone : s.vrtc.rtcIntTrigger = 1 := by omega
        exact ⟨hone, if_pos hv⟩
      · rintro hbefore ⟨hraised, hint⟩
        dsimp only at hraised hint
        split_ifs at hint with hv hone
        exacts [⟨hv, by omega, by omega⟩, absurd ⟨hraised, hint⟩ hbefore]
    · have hsent : s.sent ⟨now, .write offset value t⟩ = false := vrtcMmioWrite_snd hoff
      rw [SendsRight, hsent]
      exact ⟨nofun, fun hbefore hafter => absurd (unmasked_of_write hoff hen hafter) hbefore⟩

/-! ### The registers after a run -/

/-- While the clock is enabled, the registers are right after exactly the runs that fit. The
interrupts are right in all runs. -/
theorem vrtc_registers_iff {en t now : ℕ} (hen : en % 2 ^ 32 ≠ 0) (hnow : now < 2 ^ 64)
    (es : List RtcEvent) (hes : ∀ e ∈ es, ¬ e.Disables)
    (ht : Along step InTime (start en t now) es) :
    RegistersRight (start en t now) es (exec step (start en t now) es) ↔
      RegistersFit (exec step (start en t now) es) := by
  have hQ : Along step (fun s e => InTime s e ∧ ¬ e.Disables) (start en t now) es :=
    along_and.2 ⟨ht, along_const.2 hes⟩
  have hinv : (exec step (start en t now) es).Inv :=
    exec_induction (fun _ _ h hQ => h.step hQ.1 hQ.2) (inv_start hen hnow) hQ
  have hsends : Along step SendsRight (start en t now) es :=
    along_induction (fun _ _ h hQ => h.step hQ.1 hQ.2) (fun _ _ h hQ => h.sendsRight hQ.2)
      (inv_start hen hnow) hQ
  constructor
  · intro h
    exact ⟨(matchReg_iff hinv).1 h.matchReg, (maskReg_iff hinv).1 h.maskReg,
      (masked_iff hinv).1 h.masked, (alarm_iff hinv).1 h.alarm⟩
  · intro h
    exact ⟨(matchReg_iff hinv).2 h.matchReg, (maskReg_iff hinv).2 h.maskReg,
      (masked_iff hinv).2 h.masked, hsends, (alarm_iff hinv).2 h.alarm⟩

/-- The mask is set by a write of 0, and shown by a write of 3 that has no effect. -/
theorem vrtc_registers_three :
    let es : List RtcEvent := [⟨10, .write RTC_IMSC 0 0⟩, ⟨20, .write RTC_IMSC 3 0⟩]
    RegistersRight (start 1 5 0) es (exec step (start 1 5 0) es) := by
  intro es
  have hes : ∀ e ∈ es, ¬ e.Disables := by
    simp [es, RtcEvent.Disables, RTC_IMSC, RTC_CR]
  have ht : Along step InTime (start 1 5 0) es := by
    refine ⟨⟨?_, ?_⟩, ⟨?_, ?_⟩, trivial⟩ <;> decide
  refine (vrtc_registers_iff (by decide) (by decide) es hes ht).2 ⟨?_, ?_, ?_, ?_⟩
  · decide
  · rintro v l ⟨⟩
    decide
  · decide
  · rintro x ⟨⟩

/-- A match value is not read back, a mask reads as its negation, the masked status is 1 from the
start, and a load leaves the alarm where it was. -/
theorem vrtc_registers_diverge :
    ¬ (∀ es : List RtcEvent, (∀ e ∈ es, ¬ e.Disables) → Along step InTime (start 1 5 0) es →
      RegistersRight (start 1 5 0) es (exec step (start 1 5 0) es)) ∧
    (exec step (start 1 5 0) [⟨10, .write RTC_MR 9 0⟩]).read RTC_MR 10 = 0 ∧
    (exec step (start 1 5 0) [⟨10, .write RTC_IMSC 0 0⟩]).read RTC_IMSC 10 = 1 ∧
    (start 1 5 0).read RTC_MIS 0 = 1 ∧ (start 1 5 0).read RTC_RIS 0 = 0 ∧
    (exec step (start 1 5 0) [⟨10, .write RTC_MR 9 0⟩, ⟨20, .write RTC_LR 8 0⟩]).vrtc.alarmTimer =
      some 4000000000 ∧
    (exec step (start 1 5 0) [⟨10, .write RTC_MR 9 0⟩, ⟨20, .write RTC_LR 8 0⟩]).read RTC_DR
      1000000020 = 9 := by
  refine ⟨fun h => ?_, ?_, ?_, ?_, ?_, ?_, ?_⟩
  · have hright := h [] (by simp) trivial
    exact absurd hright.masked (by decide +kernel)
  all_goals decide +kernel

end VrtcSystem

end Minos.Virt
