import Mathlib
import Minos.Lib.Run
import Minos.Virt.MmioRead

/-!
# The emulated watchdog

The load register of the SP805 counts ticks of 32768 Hz. `vwdt_config_load` keeps whole seconds in
nanoseconds, and the value register is the whole seconds up to `timeout_value`, as ticks again. The
deadline is set when the watchdog starts, so a read of the value is about the present `load_value`
only as long as no smaller one was loaded, and about the deadline only while that lies ahead.
-/

namespace Minos.Virt

open Run

def SP805_WDT_LOAD : ℕ := 0x00
def SP805_WDT_VALUE : ℕ := 0x04
def SP805_WDT_CTL : ℕ := 0x08
def SP805_WDT_INTCLR : ℕ := 0x0c
def SP805_WDT_LOCK : ℕ := 0xc00

def INT_ENABLE : ℕ := 1 <<< 0
def RESET_ENABLE : ℕ := 1 <<< 1
def WDT_LOCK : ℕ := 0x00000001
def WDT_UNLOCK : ℕ := 0x1acce551

/-- The other fields of `struct vwdt_dev`, with what `wdt_timer` is armed for. -/
structure Vwdt extends VwdtDev where
  loadValue : ℕ
  wdtTimer : Option ℕ
deriving DecidableEq

/-- What the expiry of the timer does besides the device. -/
inductive WdtEffect where
  | panic | trap | virq
deriving DecidableEq

namespace Vwdt

/-- `vwdt_reset`; `vwdt_init` leaves the same. -/
def reset : Vwdt := ⟨⟨0, 0, 0, 1, 0⟩, 0, none⟩

variable (wdt : Vwdt)

/-- `timeout_value = NOW() + load_value` with `mod_timer` -/
def start (now : ℕ) : Vwdt :=
  let timeoutValue := add64 now wdt.loadValue
  { wdt with timeoutValue := timeoutValue, wdtTimer := some timeoutValue }

/-- `vwdt_timer_expire`, after the timer left the list of its cpu -/
def vwdtTimerExpire (native : Bool) (now : ℕ) : Vwdt × Option WdtEffect :=
  let wdt := { wdt with wdtTimer := none }
  if wdt.intTrigger ≠ 0 ∧ wdt.resetEnable ≠ 0 then
    (wdt, some (if native then .panic else .trap))
  else if wdt.intEnable ≠ 0 then
    ({ wdt with intTrigger := 1 }.start now, some .virq)
  else (wdt, none)

/-- `vwdt_config_ctrl` -/
def vwdtConfigCtrl (intEnable resetEnable now : ℕ) : Vwdt :=
  let wdt :=
    if wdt.intEnable ≠ intEnable then
      let wdt := { wdt with intEnable := intEnable }
      if intEnable ≠ 0 then wdt.start now else { wdt with intTrigger := 0, wdtTimer := none }
    else wdt
  if wdt.resetEnable ≠ resetEnable then { wdt with resetEnable := resetEnable } else wdt

/-- `vwdt_config_intclr` -/
def vwdtConfigIntclr (now : ℕ) : Vwdt :=
  let wdt := { wdt with intTrigger := 0 }
  if wdt.intEnable ≠ 0 then wdt.start now else wdt

/-- `vwdt_config_load`; the seconds are computed in 32 bits. -/
def vwdtConfigLoad (v : ℕ) : Vwdt :=
  let timeout := (v + WDT_CLK_RATE - 1) % 2 ^ 32 / WDT_CLK_RATE
  { wdt with loadValue := timeout * 1000000000 % 2 ^ 64 }

/-- `vwdt_mmio_write` at this offset from `SP805_IOMEM_BASE`; a locked register is refused. -/
def vwdtMmioWrite (offset value now : ℕ) : Vwdt × ℤ :=
  let v := value % 2 ^ 32
  if offset ≠ SP805_WDT_LOCK ∧ wdt.accessLock ≠ 0 then (wdt, - EPERM)
  else if offset = SP805_WDT_LOAD then (wdt.vwdtConfigLoad v, 0)
  else if offset = SP805_WDT_CTL then
    (wdt.vwdtConfigCtrl (if v &&& INT_ENABLE ≠ 0 then 1 else 0)
      (if v &&& RESET_ENABLE ≠ 0 then 1 else 0) now, 0)
  else if offset = SP805_WDT_INTCLR then (wdt.vwdtConfigIntclr now, 0)
  else if offset = SP805_WDT_LOCK then
    if v = WDT_UNLOCK then ({ wdt with accessLock := 0 }, 0)
    else if v = WDT_LOCK then ({ wdt with accessLock := 1 }, 0)
    else (wdt, 0)
  else (wdt, 0)

end Vwdt

/-! ### The watchdog over time -/

/-- An access of the guest, the expiry of the timer, or the reset of the VM. -/
inductive WdtAct where
  | write (offset value : ℕ)
  | read (offset : ℕ)
  | expire
  | reset
deriving DecidableEq

/-- What happens, and `NOW()` at that time. -/
structure WdtEvent where
  now : ℕ
  act : WdtAct
deriving DecidableEq

/-- The watchdog, and the time of the last event. -/
structure WdtSystem where
  wdt : Vwdt
  now : ℕ
deriving DecidableEq

namespace WdtSystem

/-- The watchdog of a new VM, before any event -/
def init : WdtSystem := ⟨.reset, 0⟩

variable (native : Bool) (s : WdtSystem) (e : WdtEvent)

/-- One event; a read changes nothing. -/
def step : WdtSystem where
  now := e.now
  wdt :=
    match e.act with
    | .write offset value => (s.wdt.vwdtMmioWrite offset value e.now).1
    | .read _ => s.wdt
    | .expire => (s.wdt.vwdtTimerExpire native e.now).1
    | .reset => .reset

/-- The clock, a counter of 64 bits, does not go back. -/
def InTime : Prop := s.now ≤ e.now ∧ e.now < 2 ^ 64

/-- `v` is written to the load register, which is not locked. -/
def Loads (v : ℕ) : Prop :=
  match e.act with
  | .write offset value => offset = SP805_WDT_LOAD ∧ s.wdt.accessLock = 0 ∧ v = value % 2 ^ 32
  | _ => False

/-- The value register is read. -/
def ReadsValue : Prop :=
  match e.act with
  | .read offset => offset = SP805_WDT_VALUE
  | _ => False

end WdtSystem

namespace Vwdt

variable (wdt : Vwdt) (now : ℕ)

/-- The watchdog is enabled, and its deadline ahead. -/
def Running : Prop := wdt.intEnable ≠ 0 ∧ now < wdt.timeoutValue

/-- The whole seconds of `timeout_value - NOW()` -/
def secondsLeft : ℕ := sub64 wdt.timeoutValue now / 1000000000

/-- `load_value` in ticks of the watchdog -/
def loadTicks : ℕ := wdt.loadValue * 32768 / 10 ^ 9

/-- What a read of the value register returns -/
def value : ℕ := vwdtMmioRead now wdt.toVwdtDev (add64 SP805_IOMEM_BASE SP805_WDT_VALUE) 0

instance : Decidable (wdt.Running now) := inferInstanceAs (Decidable (_ ∧ _))

end Vwdt

namespace WdtSystem

variable (native : Bool) (s : WdtSystem) (e : WdtEvent)

/-- What is promised of the watchdog at an event: the value loaded is rounded up to seconds, the
value register does not exceed it while the watchdog runs, and is read as 0 when it does not. -/
structure TicksRight : Prop where
  load : ∀ v, s.Loads e v → (s.step native e).wdt.loadValue = v ⌈/⌉ 32768 * 10 ^ 9
  running : (s.step native e).wdt.Running e.now →
    (s.step native e).wdt.value e.now ≤ (s.step native e).wdt.loadTicks
  stopped : ReadsValue e → ¬ s.wdt.Running e.now → s.wdt.value e.now = 0

/-- What the writes and reads have to be for that. -/
structure TicksFit : Prop where
  load : ∀ v, s.Loads e v → v ≤ 2 ^ 32 - 32768
  running : ∀ v, s.Loads e v → s.wdt.Running e.now → s.wdt.secondsLeft e.now ≤ v ⌈/⌉ 32768
  stopped : ReadsValue e → ¬ s.wdt.Running e.now → s.wdt.secondsLeft e.now % 131072 = 0

end WdtSystem

/-! ### Seconds and ticks -/

namespace Vwdt

variable {wdt : Vwdt} {now : ℕ}

lemma value_eq : wdt.value now = wdt.secondsLeft now * 32768 % 2 ^ 32 := by
  have hoffset : sub64 (add64 SP805_IOMEM_BASE SP805_WDT_VALUE) SP805_IOMEM_BASE = 0x04 := by
    decide +kernel
  simp only [value, vwdtMmioRead, hoffset, wdtTimeleft, secondsLeft, WDT_CLK_RATE]

/-- The value is 0 for every 2 ^ 17 seconds: these are 2 ^ 32 ticks. -/
lemma value_eq_zero : wdt.value now = 0 ↔ wdt.secondsLeft now % 131072 = 0 := by
  rw [value_eq]
  omega

lemma secondsLeft_eq (h : wdt.timeoutValue < 2 ^ 64) (hrun : wdt.Running now) :
    wdt.secondsLeft now = (wdt.timeoutValue - now) / 1000000000 := by
  rw [secondsLeft, sub64_of_le hrun.2.le h]

/-- The seconds left decrease with the time. -/
lemma secondsLeft_anti (h : wdt.timeoutValue < 2 ^ 64) {now' : ℕ} (hle : now ≤ now')
    (hrun : wdt.Running now') : wdt.Running now ∧ wdt.secondsLeft now' ≤ wdt.secondsLeft now := by
  have hrun' : wdt.Running now := ⟨hrun.1, hle.trans_lt hrun.2⟩
  refine ⟨hrun', ?_⟩
  rw [secondsLeft_eq h hrun, secondsLeft_eq h hrun']
  exact Nat.div_le_div_right (by omega)

/-- A watchdog that just started has the seconds it was loaded with. -/
lemma secondsLeft_of_start {load : ℕ} (h : wdt.timeoutValue = add64 now load)
    (hnow : now < 2 ^ 64) (hload : load < 2 ^ 64) (hrun : wdt.Running now) :
    wdt.secondsLeft now = load / 10 ^ 9 := by
  have hlt := hrun.2
  rw [secondsLeft_eq (h ▸ add64_lt _ _) hrun]
  rw [h, add64] at hlt ⊢
  omega

lemma vwdtConfigLoad_running (v : ℕ) : (wdt.vwdtConfigLoad v).Running now ↔ wdt.Running now := by
  rw [Running, Running, vwdtConfigLoad]

lemma vwdtConfigLoad_secondsLeft (v : ℕ) :
    (wdt.vwdtConfigLoad v).secondsLeft now = wdt.secondsLeft now := by
  rw [secondsLeft, secondsLeft, vwdtConfigLoad]

lemma vwdtConfigLoad_timeoutValue (v : ℕ) :
    (wdt.vwdtConfigLoad v).timeoutValue = wdt.timeoutValue := by
  rw [vwdtConfigLoad]

lemma vwdtConfigLoad_loadValue {v : ℕ} (hv : v < 2 ^ 32) :
    (wdt.vwdtConfigLoad v).loadValue = (v + 32767) % 2 ^ 32 / 32768 * 10 ^ 9 := by
  simp only [vwdtConfigLoad, WDT_CLK_RATE]
  omega

/-- The sum of `vwdt_config_load` does not wrap up to the last whole second. -/
lemma vwdtConfigLoad_eq_iff {v : ℕ} (hv : v < 2 ^ 32) :
    (wdt.vwdtConfigLoad v).loadValue = v ⌈/⌉ 32768 * 10 ^ 9 ↔ v ≤ 2 ^ 32 - 32768 := by
  rw [vwdtConfigLoad_loadValue hv, Nat.ceilDiv_eq_add_pred_div]
  omega

end Vwdt

/-! ### What the operations do with the deadline -/

namespace Vwdt

/-- The load value is kept; the deadline is kept too, or set from it. -/
def KeepsLoad (wdt wdt' : Vwdt) (now : ℕ) : Prop :=
  wdt'.loadValue = wdt.loadValue ∧
    (wdt'.timeoutValue = wdt.timeoutValue ∧ (wdt'.intEnable ≠ 0 → wdt.intEnable ≠ 0) ∨
      wdt'.timeoutValue = add64 now wdt.loadValue)

variable (wdt : Vwdt) (now : ℕ)

lemma KeepsLoad.refl : wdt.KeepsLoad wdt now := ⟨rfl, .inl ⟨rfl, id⟩⟩

lemma vwdtTimerExpire_keepsLoad (native : Bool) :
    wdt.KeepsLoad (wdt.vwdtTimerExpire native now).1 now := by
  rw [vwdtTimerExpire]
  dsimp only
  split_ifs
  · exact ⟨rfl, .inl ⟨rfl, id⟩⟩
  · exact ⟨rfl, .inl ⟨rfl, id⟩⟩
  · exact ⟨rfl, .inr rfl⟩
  · exact ⟨rfl, .inl ⟨rfl, id⟩⟩

lemma vwdtConfigCtrl_keepsLoad (intEnable resetEnable : ℕ) :
    wdt.KeepsLoad (wdt.vwdtConfigCtrl intEnable resetEnable now) now := by
  rw [vwdtConfigCtrl]
  dsimp only
  split_ifs with h₁ h₂ h₃ h₃ h₃
  · exact ⟨rfl, .inr rfl⟩
  · exact ⟨rfl, .inr rfl⟩
  · exact ⟨rfl, .inl ⟨rfl, fun h => absurd h h₂⟩⟩
  · exact ⟨rfl, .inl ⟨rfl, fun h => absurd h h₂⟩⟩
  · exact ⟨rfl, .inl ⟨rfl, id⟩⟩
  · exact ⟨rfl, .inl ⟨rfl, id⟩⟩

lemma vwdtConfigIntclr_keepsLoad : wdt.KeepsLoad (wdt.vwdtConfigIntclr now) now := by
  rw [vwdtConfigIntclr]
  dsimp only
  split_ifs
  · exact ⟨rfl, .inr rfl⟩
  · exact ⟨rfl, .inl ⟨rfl, id⟩⟩

lemma vwdtMmioWrite_keepsLoad (offset value : ℕ)
    (h : offset = SP805_WDT_LOAD → wdt.accessLock ≠ 0) :
    wdt.KeepsLoad (wdt.vwdtMmioWrite offset value now).1 now := by
  rw [vwdtMmioWrite]
  generalize value % 2 ^ 32 = v
  generalize (if v &&& INT_ENABLE ≠ 0 then 1 else 0) = intEnable
  generalize (if v &&& RESET_ENABLE ≠ 0 then 1 else 0) = resetEnable
  split_ifs with hlock hoff
  · exact .refl wdt now
  · exact absurd ⟨by rw [hoff]; decide, h hoff⟩ hlock
  · exact wdt.vwdtConfigCtrl_keepsLoad now _ _
  · exact wdt.vwdtConfigIntclr_keepsLoad now
  · exact ⟨rfl, .inl ⟨rfl, id⟩⟩
  · exact ⟨rfl, .inl ⟨rfl, id⟩⟩
  · exact .refl wdt now
  · exact .refl wdt now

lemma vwdtMmioWrite_load (value : ℕ) (hlock : wdt.accessLock = 0) :
    (wdt.vwdtMmioWrite SP805_WDT_LOAD value now).1 = wdt.vwdtConfigLoad (value % 2 ^ 32) := by
  rw [vwdtMmioWrite, if_neg fun h => h.2 hlock, if_pos rfl]

end Vwdt

namespace WdtSystem

/-- All that an event can do with the deadline and the load value. -/
inductive StepCase (native : Bool) (s : WdtSystem) (e : WdtEvent) : Prop
  | kept (noLoad : ∀ v, ¬ s.Loads e v) (hwdt : s.wdt.KeepsLoad (s.step native e).wdt e.now)
  | loaded (v : ℕ) (hv : v < 2 ^ 32) (hload : ∀ v', s.Loads e v' ↔ v' = v)
      (hwdt : (s.step native e).wdt = s.wdt.vwdtConfigLoad v)
  | reset (noLoad : ∀ v, ¬ s.Loads e v) (hwdt : (s.step native e).wdt = .reset)

lemma step_cases (native : Bool) (s : WdtSystem) (e : WdtEvent) : StepCase native s e := by
  obtain ⟨now, act⟩ := e
  cases act with
  | read offset => exact .kept (fun _ => id) (.refl s.wdt now)
  | reset => exact .reset (fun _ => id) rfl
  | expire => exact .kept (fun _ => id) (s.wdt.vwdtTimerExpire_keepsLoad now native)
  | write offset value =>
    by_cases hload : offset = SP805_WDT_LOAD ∧ s.wdt.accessLock = 0
    · obtain ⟨rfl, hlock⟩ := hload
      refine .loaded (value % 2 ^ 32) (Nat.mod_lt _ (by norm_num)) ?_ ?_
      · simp [Loads, hlock]
      · exact s.wdt.vwdtMmioWrite_load now value hlock
    · refine .kept (fun v h => hload ⟨h.1, h.2.1⟩) ?_
      exact s.wdt.vwdtMmioWrite_keepsLoad now offset value fun h h' => hload ⟨h, h'⟩

end WdtSystem

/-! ### The invariant -/

namespace WdtSystem

/-- The seconds left of a running watchdog are no more than those it was loaded with. -/
structure Inv (s : WdtSystem) : Prop where
  timeout : s.wdt.timeoutValue < 2 ^ 64
  load : ∃ seconds < 131072, s.wdt.loadValue = seconds * 10 ^ 9
  left : s.wdt.Running s.now → s.wdt.secondsLeft s.now ≤ s.wdt.loadValue / 10 ^ 9

variable {native : Bool} {s : WdtSystem} {e : WdtEvent}

lemma Inv.left_at (h : s.Inv) (ht : s.InTime e) (hrun : s.wdt.Running e.now) :
    s.wdt.secondsLeft e.now ≤ s.wdt.loadValue / 10 ^ 9 := by
  obtain ⟨hrun', hle⟩ := Vwdt.secondsLeft_anti h.timeout ht.1 hrun
  exact hle.trans (h.left hrun')

/-- What the value register is while the watchdog runs. -/
lemma Inv.value_eq (h : s.Inv) (hrun : s.wdt.Running s.now) :
    s.wdt.value s.now = s.wdt.secondsLeft s.now * 32768 := by
  obtain ⟨seconds, hlt, hload⟩ := h.load
  have hleft := h.left hrun
  rw [Vwdt.value_eq]
  omega

lemma Inv.value_le (h : s.Inv) (hrun : s.wdt.Running s.now) :
    s.wdt.value s.now ≤ s.wdt.loadTicks := by
  have hleft := h.left hrun
  rw [h.value_eq hrun, Vwdt.loadTicks]
  omega

lemma inv_init : Inv init where
  timeout := by decide
  load := ⟨0, by norm_num, rfl⟩
  left h := absurd rfl h.1

/-- Each event that fits keeps the invariant. -/
lemma Inv.step (h : s.Inv) (ht : s.InTime e) (hfit : s.TicksFit e) : (s.step native e).Inv := by
  obtain ⟨seconds, hlt, hload⟩ := h.load
  rcases step_cases native s e with ⟨-, hl, hkeep⟩ | ⟨v, hv, hloads, hwdt⟩ | ⟨-, hwdt⟩
  · constructor
    case timeout =>
      rcases hkeep with ⟨heq, -⟩ | heq
      · exact heq ▸ h.timeout
      · exact heq ▸ add64_lt _ _
    case load => exact ⟨seconds, hlt, hl.trans hload⟩
    case left =>
      intro hrun
      rw [hl]
      rcases hkeep with ⟨heq, hen⟩ | heq
      · have hrun' : s.wdt.Running e.now := ⟨hen hrun.1, heq ▸ hrun.2⟩
        rw [Vwdt.secondsLeft, heq]
        exact h.left_at ht hrun'
      · exact (Vwdt.secondsLeft_of_start heq ht.2 (by omega) hrun).le
  · constructor
    case timeout =>
      rw [hwdt, Vwdt.vwdtConfigLoad_timeoutValue]
      exact h.timeout
    case load =>
      refine ⟨(v + 32767) % 2 ^ 32 / 32768, by omega, ?_⟩
      rw [hwdt, Vwdt.vwdtConfigLoad_loadValue hv]
    case left =>
      intro hrun
      have hv' := hfit.load v ((hloads v).2 rfl)
      rw [hwdt, Vwdt.vwdtConfigLoad_running] at hrun
      rw [hwdt, Vwdt.vwdtConfigLoad_secondsLeft, (Vwdt.vwdtConfigLoad_eq_iff hv).2 hv',
        Nat.mul_div_cancel _ (by norm_num)]
      exact hfit.running v ((hloads v).2 rfl) hrun
  · constructor
    case timeout => simp [hwdt, Vwdt.reset]
    case load => exact ⟨0, by norm_num, by simp [hwdt, Vwdt.reset]⟩
    case left =>
      intro hrun
      rw [hwdt] at hrun
      exact absurd rfl hrun.1

lemma load_right_iff : (∀ v, s.Loads e v →
      (s.step native e).wdt.loadValue = v ⌈/⌉ 32768 * 10 ^ 9) ↔
    ∀ v, s.Loads e v → v ≤ 2 ^ 32 - 32768 := by
  refine forall₂_congr fun v hv => ?_
  rcases step_cases native s e with ⟨hno, -⟩ | ⟨v', hv', hloads, hwdt⟩ | ⟨hno, -⟩
  · exact absurd hv (hno v)
  · obtain rfl := (hloads v).1 hv
    rw [hwdt, Vwdt.vwdtConfigLoad_eq_iff hv']
  · exact absurd hv (hno v)

/-- A load below the seconds left would show: the value does not wrap before it. -/
lemma TicksRight.running_fit (hr : s.TicksRight native e) (h : s.Inv) (ht : s.InTime e) {v : ℕ}
    (hv : s.Loads e v) (hrun : s.wdt.Running e.now) :
    s.wdt.secondsLeft e.now ≤ v ⌈/⌉ 32768 := by
  obtain ⟨seconds, hlt, hload⟩ := h.load
  have hleft := h.left_at ht hrun
  have hnew := hr.load v hv
  rcases step_cases native s e with ⟨hno, -⟩ | ⟨v', hv', hloads, hwdt⟩ | ⟨hno, -⟩
  · exact absurd hv (hno v)
  · have hvalue := hr.running (by rwa [hwdt, Vwdt.vwdtConfigLoad_running])
    rw [Vwdt.loadTicks, hnew, hwdt, Vwdt.value_eq, Vwdt.vwdtConfigLoad_secondsLeft] at hvalue
    omega
  · exact absurd hv (hno v)

/-- An event does what is promised exactly when it fits. -/
lemma ticksRight_iff (h : s.Inv) (ht : s.InTime e) : s.TicksRight native e ↔ s.TicksFit e := by
  constructor
  · intro hr
    exact ⟨load_right_iff.1 hr.load, fun v hv hrun => hr.running_fit h ht hv hrun,
      fun hread hrun => Vwdt.value_eq_zero.1 (hr.stopped hread hrun)⟩
  · intro hfit
    have hinv : (s.step native e).Inv := h.step ht hfit
    exact ⟨load_right_iff.2 hfit.load, hinv.value_le,
      fun hread hrun => Vwdt.value_eq_zero.2 (hfit.stopped hread hrun)⟩

/-- The registers of the watchdog tell its time right in a run exactly when no load is in the last
second of 32 bits or below the seconds left, and the value of a stopped watchdog is read only at
times when its seconds are a multiple of 131072. -/
theorem vwdt_ticks_iff (native : Bool) (es : List WdtEvent)
    (htime : Along (WdtSystem.step native) InTime init es) :
    Along (WdtSystem.step native) (TicksRight native) init es ↔
      Along (WdtSystem.step native) TicksFit init es :=
  along_iff (fun _ _ h ht => ticksRight_iff h ht) (fun _ _ h ht hfit => h.step ht hfit) inv_init
    htime

/-- Two seconds are loaded, and the value is read a second after the start. -/
theorem vwdt_ticks_two : Along (WdtSystem.step true) (TicksRight true) init
    [⟨1, .write SP805_WDT_LOCK WDT_UNLOCK⟩, ⟨2, .write SP805_WDT_LOAD 0x10000⟩,
      ⟨3, .write SP805_WDT_CTL INT_ENABLE⟩, ⟨1000000003, .read SP805_WDT_VALUE⟩] := by
  refine (vwdt_ticks_iff true _ ?_).2 ⟨?_, ?_, ?_, ?_, trivial⟩
  · refine ⟨?_, ?_, ?_, ?_, trivial⟩ <;> exact ⟨by decide, by decide⟩
  · exact ⟨fun _ h => absurd h.1 (by decide), fun _ h => absurd h.1 (by decide), False.elim⟩
  · refine ⟨?_, fun _ _ hrun => absurd rfl hrun.1, False.elim⟩
    rintro v ⟨-, -, rfl⟩
    decide
  · exact ⟨fun _ h => absurd h.1 (by decide), fun _ h => absurd h.1 (by decide), False.elim⟩
  · exact ⟨fun _ => False.elim, fun _ => False.elim, fun _ h => absurd (by decide +kernel) h⟩

/-- The last value loads 0 seconds, and a watchdog that was never enabled has time left. -/
theorem vwdt_ticks_diverge :
    ¬ (∀ es : List WdtEvent, Along (WdtSystem.step true) InTime init es →
      Along (WdtSystem.step true) (TicksRight true) init es) ∧
    ¬ TicksRight true ⟨(init.step true ⟨1, .write SP805_WDT_LOCK WDT_UNLOCK⟩).wdt, 1⟩
      ⟨2, .write SP805_WDT_LOAD 0xffffffff⟩ ∧
    ¬ TicksRight true init ⟨1, .read SP805_WDT_VALUE⟩ := by
  have hload : ¬ TicksRight true ⟨(init.step true ⟨1, .write SP805_WDT_LOCK WDT_UNLOCK⟩).wdt, 1⟩
      ⟨2, .write SP805_WDT_LOAD 0xffffffff⟩ := by
    intro h
    have := h.load 0xffffffff ⟨rfl, rfl, rfl⟩
    exact absurd this (by decide)
  have hread : ¬ TicksRight true init ⟨1, .read SP805_WDT_VALUE⟩ := by
    intro h
    have := h.stopped rfl fun hrun => absurd rfl hrun.1
    exact absurd this (by decide +kernel)
  refine ⟨fun h => ?_, hload, hread⟩
  have := h [⟨1, .read SP805_WDT_VALUE⟩] ⟨⟨by decide, by decide⟩, trivial⟩
  exact hread this.1

end WdtSystem

end Minos.Virt
