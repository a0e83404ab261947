import Mathlib
import Minos.Lib.Run
import Minos.Virt.MmioRead

/-!
# The emulated physical timer

Three registers of the guest are about one comparator. The guest counts ticks from the offset of its
VM, and the timer of the hypervisor counts nanoseconds from `boot_tick`. `vtimer_state_save`
converts from the one to the other for the virtual timer; of the handlers for the physical timer
each has a conversion of its own.
-/

namespace Minos.Virt

open Run

def CNT_CTL_ENABLE : BitVec 32 := 1
def CNT_CTL_IMASK : BitVec 32 := 2
def CNT_CTL_ISTATUS : BitVec 32 := 4

/-- `cpu_khz`, `boot_tick` and the `offset` of a `struct vtimer_context` -/
structure VtimerClock where
  cpuKhz : ℕ
  bootTick : BitVec 64
  offset : BitVec 64

/-- The fields of `struct vtimer` for the physical timer, and what the timer behind it was last
armed for. -/
structure Vtimer where
  cntCtl : BitVec 32
  cntCval : BitVec 32
  expires : Option (BitVec 64)
  pending : Bool
deriving DecidableEq

namespace VtimerClock

variable (C : VtimerClock)

/-- `ticks_to_ns` -/
def ticksToNs (ticks : BitVec 64) : BitVec 64 :=
  BitVec.ofNat 64 (muldiv64 ticks.toNat 1000000000 (1000 * C.cpuKhz % 2 ^ 32))

/-- `get_sys_ticks() - c->offset` -/
def guestCount (now : BitVec 64) : BitVec 64 := now - C.offset

end VtimerClock

namespace Vtimer

/-- `vtimer_state_init` -/
def init : Vtimer := ⟨0, 0, none, false⟩

/-- The enable bit of `cnt_ctl` is set. -/
def enabled (v : Vtimer) : Bool := v.cntCtl &&& CNT_CTL_ENABLE != 0

/-- `mod_timer` -/
def modTimer (v : Vtimer) (ns : BitVec 64) : Vtimer :=
  { v with expires := some ns, pending := true }

/-- `del_timer` -/
def delTimer (v : Vtimer) : Vtimer := { v with expires := none, pending := false }

/-- `phys_timer_expire_function`, after the timer left the list of its cpu -/
def expire (v : Vtimer) : Vtimer :=
  { v with cntCtl := v.cntCtl ||| CNT_CTL_ISTATUS, cntCval := 0, pending := false }

variable (C : VtimerClock)

/-- `ticks_to_ns(vtimer->cnt_cval + c->offset)` -/
def instant (v : Vtimer) : BitVec 64 := C.ticksToNs (v.cntCval.setWidth 64 + C.offset)

/-- `vtimer_handle_cntp_ctl` for a write -/
def writeCtl (v : Vtimer) (value : BitVec 64) : Vtimer :=
  let ctl := value.setWidth 32 &&& ~~~CNT_CTL_ISTATUS
  let ctl := if ctl &&& CNT_CTL_ENABLE != 0 then ctl ||| (v.cntCtl &&& CNT_CTL_ISTATUS) else ctl
  let v := { v with cntCtl := ctl }
  if v.enabled && v.cntCval != 0 then v.modTimer (v.instant C) else v.delTimer

/-- `vtimer_handle_cntp_tval` for a read -/
def readTval (v : Vtimer) (now : BitVec 64) : BitVec 64 :=
  (v.cntCval.setWidth 64 - C.guestCount now) &&& 0xffffffff

/-- What the writes of `CNTP_TVAL` and `CNTP_CVAL` do with an enabled timer. -/
def rearm (v : Vtimer) : Vtimer :=
  if v.enabled then
    let v := { v with cntCtl := v.cntCtl &&& ~~~CNT_CTL_ISTATUS }
    v.modTimer (v.instant C)
  else v

/-- `vtimer_handle_cntp_tval` for a write -/
def writeTval (v : Vtimer) (value now : BitVec 64) : Vtimer :=
  { v with cntCval := (now + value).setWidth 32 }.rearm C

/-- `vtimer_handle_cntp_cval` for a read -/
def readCval (v : Vtimer) : BitVec 64 := v.cntCval.setWidth 64

/-- `vtimer_handle_cntp_cval` for a write -/
def writeCval (v : Vtimer) (value : BitVec 64) : Vtimer :=
  { v with cntCval := (C.ticksToNs value).setWidth 32 }.rearm C

end Vtimer

/-! ### The comparator of the guest -/

/-- A write of a register at a time, or the timer of the hypervisor expires. -/
inductive VtimerEvent where
  | ctl (value : BitVec 64)
  | cval (value : BitVec 64)
  | tval (value now : BitVec 64)
  | expire
deriving DecidableEq

/-- The timer, and the comparator as the guest wrote it. -/
structure GuestTimer where
  vtimer : Vtimer
  cval : BitVec 64

def GuestTimer.init : GuestTimer := ⟨Vtimer.init, 0⟩

/-- `g(t) + TVAL`, with `TVAL` a signed value of 32 bits -/
def tvalComparator (C : VtimerClock) (value now : BitVec 64) : BitVec 64 :=
  C.guestCount now + (value.setWidth 32).signExtend 64

def vtimerStep (C : VtimerClock) (s : GuestTimer) : VtimerEvent → GuestTimer
  | .ctl value => { s with vtimer := s.vtimer.writeCtl C value }
  | .cval value => ⟨s.vtimer.writeCval C value, value⟩
  | .tval value now => ⟨s.vtimer.writeTval C value now, tvalComparator C value now⟩
  | .expire => if s.vtimer.pending then { s with vtimer := s.vtimer.expire } else s

/-- The registers show the comparator, and an enabled timer was armed for the instant at which the
guest's count reaches it. -/
structure Emulates (C : VtimerClock) (s : GuestTimer) : Prop where
  cval : s.vtimer.readCval = s.cval
  tval : ∀ now, s.vtimer.readTval C now = ((s.cval - C.guestCount now).setWidth 32).setWidth 64
  armed : s.vtimer.enabled = true →
    s.vtimer.expires = some (C.ticksToNs (s.cval + C.offset - C.bootTick))

/-- The two origins make no difference for the comparator `cval`. -/
def SameInstant (C : VtimerClock) (cval : BitVec 64) : Prop :=
  C.ticksToNs (cval + C.offset) = C.ticksToNs (cval + C.offset - C.bootTick)

instance (C : VtimerClock) : DecidablePred (SameInstant C) :=
  fun _ => inferInstanceAs (Decidable (_ = _))

/-- A timer is enabled with a comparator that is not zero, the conversions of the handlers change
nothing, and the timer does not expire with a comparator. -/
def VtimerEvent.Unconverted (C : VtimerClock) (s : GuestTimer) : VtimerEvent → Prop
  | .ctl value => value.setWidth 32 &&& CNT_CTL_ENABLE ≠ 0 → s.cval ≠ 0 ∧ SameInstant C s.cval
  | .cval value => ((C.ticksToNs value).setWidth 32).setWidth 64 = value ∧
      (s.vtimer.enabled = true → SameInstant C value)
  | .tval value now => ((now + value).setWidth 32).setWidth 64 = tvalComparator C value now ∧
      (s.vtimer.enabled = true → SameInstant C (tvalComparator C value now))
  | .expire => s.vtimer.pending = true → s.cval = 0

/-! ### One step -/

variable {C : VtimerClock} {s : GuestTimer} {v : Vtimer}

lemma and_status_enable (x : BitVec 32) :
    x &&& ~~~CNT_CTL_ISTATUS &&& CNT_CTL_ENABLE = x &&& CNT_CTL_ENABLE := by
  rw [BitVec.and_assoc]
  rfl

lemma or_status_enable (x y : BitVec 32) :
    (x ||| y &&& CNT_CTL_ISTATUS) &&& CNT_CTL_ENABLE = x &&& CNT_CTL_ENABLE := by
  have hzero : CNT_CTL_ISTATUS &&& CNT_CTL_ENABLE = 0 := rfl
  rw [BitVec.and_or_distrib_right, BitVec.and_assoc y, hzero]
  simp

lemma rearm_enabled : (v.rearm C).enabled = v.enabled := by
  rw [Vtimer.rearm]
  split_ifs
  · simp only [Vtimer.modTimer, Vtimer.enabled, and_status_enable]
  · rfl

lemma rearm_cntCval : (v.rearm C).cntCval = v.cntCval := by
  rw [Vtimer.rearm]
  split_ifs
  · rfl
  · rfl

lemma rearm_expires (h : v.enabled = true) : (v.rearm C).expires = some (v.instant C) := by
  rw [Vtimer.rearm, if_pos h]
  rfl

lemma writeCtl_enabled (value : BitVec 64) :
    (v.writeCtl C value).enabled = true ↔ value.setWidth 32 &&& CNT_CTL_ENABLE ≠ 0 := by
  have hctl : (v.writeCtl C value).cntCtl &&& CNT_CTL_ENABLE =
      value.setWidth 32 &&& CNT_CTL_ENABLE := by
    simp only [Vtimer.writeCtl]
    split_ifs
    all_goals simp only [Vtimer.modTimer, Vtimer.delTimer, or_status_enable, and_status_enable]
  rw [Vtimer.enabled, hctl, bne_iff_ne]

lemma writeCtl_cntCval (value : BitVec 64) : (v.writeCtl C value).cntCval = v.cntCval := by
  simp only [Vtimer.writeCtl]
  split_ifs
  all_goals rfl

/-- A timer that is enabled without a comparator is not armed. -/
lemma writeCtl_expires {value : BitVec 64} (h : (v.writeCtl C value).enabled = true) :
    (v.writeCtl C value).expires = if v.cntCval = 0 then none else some (v.instant C) := by
  simp only [Vtimer.writeCtl] at h ⊢
  by_cases hzero : v.cntCval = 0
  · simp only [hzero, bne_self_eq_false, Bool.and_false, if_true] at h ⊢
    rfl
  · have hne : (v.cntCval != 0) = true := bne_iff_ne.2 hzero
    simp only [hne, Bool.and_true, hzero, if_false] at h ⊢
    split_ifs at h ⊢
    all_goals first
      | rfl
      | simp_all [Vtimer.delTimer, Vtimer.enabled]

/-- A comparator of the timer that is the guest's is shown in both registers. -/
lemma emulates_iff :
    Emulates C s ↔ s.vtimer.cntCval.setWidth 64 = s.cval ∧ (s.vtimer.enabled = true →
      s.vtimer.expires = some (C.ticksToNs (s.cval + C.offset - C.bootTick))) := by
  refine ⟨fun h => ⟨h.cval, h.armed⟩, fun ⟨hc, ha⟩ => ⟨hc, fun now => ?_, ha⟩⟩
  rw [Vtimer.readTval, hc]
  refine BitVec.eq_of_toNat_eq ?_
  rw [BitVec.toNat_and, BitVec.toNat_setWidth, BitVec.toNat_setWidth]
  have hmask : (0xffffffff : BitVec 64).toNat = 2 ^ 32 - 1 := rfl
  rw [hmask, Nat.and_two_pow_sub_one_eq_mod]
  exact (Nat.mod_eq_of_lt (lt_trans (Nat.mod_lt _ (by norm_num)) (by norm_num))).symm

/-- A write of the comparator by a handler that puts `c` into `cnt_cval`. -/
lemma emulates_rearm {cval : BitVec 64} {c : BitVec 32} :
    Emulates C ⟨{ v with cntCval := c }.rearm C, cval⟩ ↔
      c.setWidth 64 = cval ∧ (v.enabled = true → SameInstant C cval) := by
  rw [emulates_iff, rearm_cntCval, rearm_enabled]
  refine and_congr_right fun hc => forall_congr' fun hv => ?_
  have hen : ({ v with cntCval := c } : Vtimer).enabled = true := hv
  simp only [rearm_expires hen, Vtimer.instant, hc, Option.some.injEq]
  rfl

/-- The emulation is right after a step exactly if no conversion changed anything. -/
lemma emulates_step {e : VtimerEvent} (h : Emulates C s) :
    Emulates C (vtimerStep C s e) ↔ e.Unconverted C s := by
  obtain ⟨hc, ha⟩ := emulates_iff.1 h
  cases e with
  | cval value => exact emulates_rearm
  | tval value now => exact emulates_rearm
  | ctl value =>
    rw [emulates_iff, VtimerEvent.Unconverted]
    simp only [vtimerStep, writeCtl_enabled]
    rw [writeCtl_cntCval, and_iff_right hc]
    refine forall_congr' fun hen => ?_
    have hzero : s.vtimer.cntCval = 0 ↔ s.cval = 0 := by
      rw [← hc]
      refine ⟨fun h0 => by rw [h0]; rfl, fun h0 => ?_⟩
      have := congrArg (BitVec.setWidth 32) h0
      simpa using this
    rw [writeCtl_expires ((writeCtl_enabled value).2 hen)]
    by_cases h0 : s.cval = 0
    · rw [if_pos (hzero.2 h0)]
      exact iff_of_false nofun fun h => h.1 h0
    · rw [if_neg fun h => h0 (hzero.1 h), Vtimer.instant, hc, Option.some.injEq]
      exact (and_iff_right h0).symm
  | expire =>
    rw [VtimerEvent.Unconverted, vtimerStep]
    split_ifs with hp
    · rw [emulates_iff]
      have hen : s.vtimer.expire.enabled = s.vtimer.enabled := by
        have := or_status_enable s.vtimer.cntCtl CNT_CTL_ISTATUS
        rw [BitVec.and_self] at this
        rw [Vtimer.enabled, Vtimer.expire, this, Vtimer.enabled]
      constructor
      · rintro ⟨h0, -⟩ -
        exact h0.symm
      · intro h0
        exact ⟨(h0 hp).symm, fun h => ha (hen ▸ h)⟩
    · exact iff_of_true h fun hp' => absurd hp' hp

lemma emulates_init : Emulates C GuestTimer.init :=
  emulates_iff.2 ⟨rfl, nofun⟩

/-- The three registers show the guest's comparator, and its timer is armed for the comparator, all
along a run exactly if no handler's conversion ever changed a value. -/
theorem vtimer_emulates_iff (C : VtimerClock) (es : List VtimerEvent) :
    Along (vtimerStep C) (fun s e => Emulates C (vtimerStep C s e)) GuestTimer.init es ↔
      Along (vtimerStep C) (VtimerEvent.Unconverted C) GuestTimer.init es :=
  along_iff (fun _ _ h _ => emulates_step h) (fun _ _ h _ hu => (emulates_step h).2 hu)
    emulates_init (along_const.2 fun _ _ => trivial)

/-- At 62.5 MHz a tick is 16 ns, and the guest reads back 16000 where it wrote 1000. -/
theorem vtimer_cval_converted :
    let C : VtimerClock := ⟨62500, 0, 0⟩
    (vtimerStep C GuestTimer.init (.cval 1000)).vtimer.readCval = 16000 ∧
      ¬ Along (vtimerStep C) (fun s e => Emulates C (vtimerStep C s e)) GuestTimer.init
        [.cval 1000] := by
  intro C
  have hread : (vtimerStep C GuestTimer.init (.cval 1000)).vtimer.readCval = 16000 := by
    decide +kernel
  refine ⟨hread, fun h => ?_⟩
  have hcval := h.1.cval
  rw [hread] at hcval
  revert hcval
  decide +kernel

end Minos.Virt
