import Mathlib
import Minos.Lib.Run
import Minos.Virtio.Queues

/-!
# The status register

A guest drives a virtio device through its status: it adds the bits of its progress one after the
other, or writes 0 to start again. The emulation subtracts what the register holds from the value
that is written, and both the register and the backend get the difference. After a number of writes
the register therefore holds their alternating sum.
-/

namespace Minos.Virtio

open ByteMem Run

/-- A device, its backend, and for each write to the status register, the newest first, the value
and what `virtio_status_event` was called with. -/
structure StatusSystem where
  mmio : MmioState
  blk : VirtioBlk
  log : List (ℕ × ℕ)

/-- The guest writes its status, reads the register in the window, or gives a word of the features
that it has taken, for which it selects the word first. -/
inductive StatusEvent where
  | write (value : ℕ)
  | read
  | feature (i : Fin 4) (value : ℕ)
deriving DecidableEq

/-- The backend has handled the last trap. -/
def MmioState.handled (m : MmioState) : MmioState := { m with traps := m.traps.dropLast }

lemma MmioState.reg_handled (m : MmioState) (d : Vdev) (off : ℕ) :
    m.handled.reg d off = m.reg d off := rfl

namespace StatusSystem

variable (d : Vdev) (env : Env) (fuel : ℕ)

/-- The write of a register in the window of the device -/
def emulate (off value : ℕ) (s : MmioState) : MmioState :=
  virtioMmioWrite d (d.gvmPaddr + off) value s

def giveFeature (i : Fin 4) (value : ℕ) (s : MmioState) : MmioState :=
  emulate d VIRTIO_MMIO_GUEST_FEATURES value (emulate d VIRTIO_MMIO_GUEST_FEATURES_SEL i s)

/-- A vcpu that has written its status waits until the backend has handled the trap. -/
def deliver (s : StatusSystem) (value : ℕ) (mmio : MmioState) : StatusSystem :=
  match mmio.traps.getLast? with
  | none => { s with mmio }
  | some t => ⟨mmio.handled, mvmMmioWrite env fuel (mmio.reg d) s.blk (t.offset d) t.value,
      (value % 2 ^ 32, t.value % 2 ^ 32) :: s.log⟩

def step (s : StatusSystem) : StatusEvent → StatusSystem
  | .write value => s.deliver d env fuel value (emulate d VIRTIO_MMIO_STATUS value s.mmio)
  | .read => s
  | .feature i value => { s with mmio := giveFeature d i value s.mmio }

/-- The status values that were written, newest first -/
def written (s : StatusSystem) : List ℕ := s.log.map Prod.fst

end StatusSystem

/-! ### Negotiations -/

/-- The status after some writes -/
def lastStatus (written : List ℕ) : ℕ := written.headD 0

/-- Every write only adds bits to the status or is 0. -/
def OnlyAdds : List ℕ → Prop
  | [] => True
  | v :: vs => (v = 0 ∨ lastStatus vs &&& v = lastStatus vs) ∧ OnlyAdds vs

instance OnlyAdds.decidable : DecidablePred OnlyAdds
  | [] => inferInstanceAs (Decidable True)
  | v :: vs =>
    have := OnlyAdds.decidable vs
    inferInstanceAs
      (Decidable ((v = 0 ∨ lastStatus vs &&& v = lastStatus vs) ∧ OnlyAdds vs))

/-- `VIRTIO_DEV_STATUS_FEATURES_OK` is in a status. -/
def FeaturesOk (status : ℕ) : Prop := status.testBit 3

instance (status : ℕ) : Decidable (FeaturesOk status) := inferInstanceAs (Decidable (_ = true))

/-- How often `virtio_status_event` was called with `VIRTIO_DEV_STATUS_FEATURES_OK` since the last
reset -/
def featuresEvents (log : List (ℕ × ℕ)) : ℕ :=
  ((log.takeWhile fun x => x.1 ≠ 0).filter fun x => x.2 = VIRTIO_DEV_STATUS_FEATURES_OK).length

/-- What the emulation makes of the writes: each one is replaced by its difference to what the ones
before it have left. -/
def alternating : List ℕ → ℕ
  | [] => 0
  | v :: vs => sub32 v (alternating vs)

namespace StatusSystem

variable (d : Vdev) (env : Env) (fuel : ℕ)

/-- After a write of a driver that only adds bits, `virtio_status_event` was called with
`VIRTIO_DEV_STATUS_FEATURES_OK` if and only if the write has added this bit, once in a negotiation
with the bit and never in one without it, and has taken the features of the driver. -/
structure Negotiates (s s' : StatusSystem) (value seen : ℕ) : Prop where
  event : seen = VIRTIO_DEV_STATUS_FEATURES_OK ↔
    ¬ FeaturesOk (lastStatus s.written) ∧ FeaturesOk value
  count : featuresEvents s'.log = if FeaturesOk value then 1 else 0
  features : seen = VIRTIO_DEV_STATUS_FEATURES_OK → s'.blk.dev.ackedFeatures =
    u32ToU64 (s.mmio.reg d VIRTIO_MMIO_DRIVER_FEATURE1) (s.mmio.reg d VIRTIO_MMIO_DRIVER_FEATURE0)

/-- What a driver and its device expect of an event -/
def StatusOk (s : StatusSystem) : StatusEvent → Prop
  | .write value => ∃ seen,
      (step d env fuel s (.write value)).log = (value % 2 ^ 32, seen) :: s.log ∧
      (value % 2 ^ 32 = 0 → seen = 0) ∧
      (OnlyAdds (value % 2 ^ 32 :: s.written) →
        Negotiates d s (step d env fuel s (.write value)) (value % 2 ^ 32) seen)
  | .read => ∀ v ∈ s.written.head?, s.mmio.reg d VIRTIO_MMIO_STATUS = v
  | .feature _ _ => True

/-- The alternating sum of the writes is 0 before a write of 0 and before a write that is read back,
and where a driver only adds bits, the value is this sum and `VIRTIO_DEV_STATUS_FEATURES_OK` if and
only if it adds this bit. -/
def SumAgrees (s : StatusSystem) : StatusEvent → Prop
  | .write value =>
    let v := value % 2 ^ 32
    (v = 0 → alternating s.written = 0) ∧
      (OnlyAdds (v :: s.written) →
        (v = (alternating s.written + VIRTIO_DEV_STATUS_FEATURES_OK) % 2 ^ 32 ↔
          ¬ FeaturesOk (lastStatus s.written) ∧ FeaturesOk v))
  | .read => s.written ≠ [] → alternating s.written.tail = 0
  | .feature _ _ => True

instance (s : StatusSystem) : DecidablePred s.SumAgrees
  | .write _ => inferInstanceAs (Decidable ((_ → _) ∧ (_ → (_ ↔ _))))
  | .read => inferInstanceAs (Decidable (_ → _))
  | .feature _ _ => inferInstanceAs (Decidable True)

/-- A device before the first write -/
structure Fresh (s : StatusSystem) : Prop where
  status : s.mmio.reg d VIRTIO_MMIO_STATUS = 0
  log : s.log = []

end StatusSystem

/-! ### One write -/

lemma sub32_lt (x y : ℕ) : sub32 x y < 2 ^ 32 := by
  unfold sub32
  omega

lemma sub32_eq_self {v r : ℕ} (hv : v < 2 ^ 32) (hr : r < 2 ^ 32) : sub32 v r = v ↔ r = 0 := by
  unfold sub32
  omega

lemma zero_sub32 {r : ℕ} (hr : r < 2 ^ 32) : sub32 0 r = 0 ↔ r = 0 := by
  unfold sub32
  omega

lemma sub32_eq_featuresOk {v r : ℕ} (hv : v < 2 ^ 32) :
    sub32 v r = VIRTIO_DEV_STATUS_FEATURES_OK ↔
      v = (r + VIRTIO_DEV_STATUS_FEATURES_OK) % 2 ^ 32 := by
  unfold sub32 VIRTIO_DEV_STATUS_FEATURES_OK
  omega

lemma alternating_lt (vs : List ℕ) : alternating vs < 2 ^ 32 := by
  cases vs with
  | nil => exact Nat.two_pow_pos 32
  | cons v vs => exact sub32_lt v _

namespace StatusSystem

variable {d : Vdev} {env : Env} {fuel : ℕ} {s : StatusSystem} {value : ℕ}

lemma emulate_status (m : MmioState) : emulate d VIRTIO_MMIO_STATUS value m =
    (((m.ioread32 (d.iomem + VIRTIO_MMIO_STATUS)).2.iowrite32
      (sub32 (value % 2 ^ 32) (m.reg d VIRTIO_MMIO_STATUS))
      (d.iomem + VIRTIO_MMIO_STATUS)).trapMmioWrite (d.gvmPaddr + VIRTIO_MMIO_STATUS)
      (sub32 (value % 2 ^ 32) (m.reg d VIRTIO_MMIO_STATUS))) := by
  rw [emulate, virtioMmioWrite, sub64_add_self _ (by decide)]
  rfl

/-- The register after a write to the status -/
lemma reg_emulate_status (m : MmioState) : (emulate d VIRTIO_MMIO_STATUS value m).reg d
    VIRTIO_MMIO_STATUS = sub32 (value % 2 ^ 32) (m.reg d VIRTIO_MMIO_STATUS) := by
  rw [emulate_status, MmioState.reg, MmioState.trapMmioWrite_io, MmioState.iowrite32_io,
    Io.store_bytes, read_write_self]
  exact (sub32_lt _ _).trans_eq (by norm_num)

lemma reg_emulate_status_of_ne (m : MmioState) {off : ℕ} (hoff : VIRTIO_MMIO_STATUS + 4 ≤ off) :
    (emulate d VIRTIO_MMIO_STATUS value m).reg d off = m.reg d off := by
  rw [emulate_status, MmioState.reg, MmioState.trapMmioWrite_io, MmioState.iowrite32_io,
    Io.store_bytes, read_write_of_disjoint _ _ (Or.inr (by omega))]
  rfl

/-- What `virtio_status_event` is called with -/
def seen (d : Vdev) (s : StatusSystem) (value : ℕ) : ℕ :=
  sub32 (value % 2 ^ 32) (s.mmio.reg d VIRTIO_MMIO_STATUS)

lemma seen_mod : seen d s value % 2 ^ 32 = seen d s value := Nat.mod_eq_of_lt (sub32_lt _ _)

/-- The trap that a write to the status makes -/
def statusTrap (d : Vdev) (s : StatusSystem) (value : ℕ) : Trap :=
  ⟨d.gvmPaddr + VIRTIO_MMIO_STATUS, seen d s value, false⟩

lemma statusTrap_offset : (statusTrap d s value).offset d = VIRTIO_MMIO_STATUS :=
  sub64_add_self _ (by decide)

lemma traps_emulate_status : (emulate d VIRTIO_MMIO_STATUS value s.mmio).traps =
    s.mmio.traps ++ [statusTrap d s value] := by
  rw [emulate_status]
  rfl

lemma mvmMmioWrite_status (reg : ℕ → ℕ) (b : VirtioBlk) (v : ℕ) :
    mvmMmioWrite env fuel reg b VIRTIO_MMIO_STATUS v = virtioStatusEvent reg b (v % 2 ^ 32) := rfl

lemma deliver_of_traps {mmio : MmioState} {traps : List Trap} {t : Trap}
    (h : mmio.traps = traps ++ [t]) : s.deliver d env fuel value mmio =
      ⟨mmio.handled, mvmMmioWrite env fuel (mmio.reg d) s.blk (t.offset d) t.value,
        (value % 2 ^ 32, t.value % 2 ^ 32) :: s.log⟩ := by
  rw [deliver, h, List.getLast?_concat]

/-- What a write to the status does -/
lemma step_write : step d env fuel s (.write value) =
    ⟨(emulate d VIRTIO_MMIO_STATUS value s.mmio).handled,
      virtioStatusEvent ((emulate d VIRTIO_MMIO_STATUS value s.mmio).reg d) s.blk (seen d s value),
      (value % 2 ^ 32, seen d s value) :: s.log⟩ := by
  change s.deliver d env fuel value _ = _
  rw [deliver_of_traps traps_emulate_status, statusTrap_offset, mvmMmioWrite_status]
  have hvalue : (statusTrap d s value).value = seen d s value := rfl
  rw [hvalue, seen_mod]

lemma log_write : (step d env fuel s (.write value)).log =
    (value % 2 ^ 32, seen d s value) :: s.log := by
  rw [step_write]

lemma written_write : (step d env fuel s (.write value)).written =
    value % 2 ^ 32 :: s.written := by
  rw [written, log_write]
  rfl

lemma reg_write : (step d env fuel s (.write value)).mmio.reg d VIRTIO_MMIO_STATUS =
    seen d s value := by
  rw [step_write, MmioState.reg_handled, reg_emulate_status, seen]

/-- The features are those that the driver has given before the write. -/
lemma ackedFeatures_write (h : seen d s value = VIRTIO_DEV_STATUS_FEATURES_OK) :
    (step d env fuel s (.write value)).blk.dev.ackedFeatures = u32ToU64
      (s.mmio.reg d VIRTIO_MMIO_DRIVER_FEATURE1) (s.mmio.reg d VIRTIO_MMIO_DRIVER_FEATURE0) := by
  rw [step_write, virtioStatusEvent, if_pos h, reg_emulate_status_of_ne _ (by decide),
    reg_emulate_status_of_ne _ (by decide)]

lemma step_feature (i : Fin 4) (value : ℕ) : step d env fuel s (.feature i value) =
    ⟨giveFeature d i value s.mmio, s.blk, s.log⟩ := rfl

lemma reg_giveFeature (i : Fin 4) (value : ℕ) (m : MmioState) :
    (giveFeature d i value m).reg d VIRTIO_MMIO_STATUS = m.reg d VIRTIO_MMIO_STATUS := by
  have hsel : emulate d VIRTIO_MMIO_GUEST_FEATURES_SEL i m =
      m.iowrite32 (i % 2 ^ 32) (d.iomem + VIRTIO_MMIO_GUEST_FEATURES_SEL) := by
    rw [emulate, virtioMmioWrite, sub64_add_self _ (by decide)]
    rfl
  have hfeature (m : MmioState) : emulate d VIRTIO_MMIO_GUEST_FEATURES value m =
      (m.ioread32 (d.iomem + VIRTIO_MMIO_GUEST_FEATURES_SEL)).2.iowrite32 (value % 2 ^ 32)
        (d.iomem + driverFeatureOffset (m.reg d VIRTIO_MMIO_GUEST_FEATURES_SEL)) := by
    rw [emulate, virtioMmioWrite, sub64_add_self _ (by decide)]
    rfl
  have hword : (emulate d VIRTIO_MMIO_GUEST_FEATURES_SEL i m).reg d VIRTIO_MMIO_GUEST_FEATURES_SEL
      = i := by
    rw [hsel, MmioState.reg, MmioState.iowrite32_io, Io.store_bytes,
      Nat.mod_eq_of_lt (i.isLt.trans (by norm_num)), read_write_self]
    exact i.isLt.trans (by norm_num)
  have hoffset : VIRTIO_MMIO_STATUS + 4 ≤ driverFeatureOffset i := by
    have hi := i.isLt
    unfold VIRTIO_MMIO_STATUS driverFeatureOffset VIRTIO_MMIO_DRIVER_FEATURE0
    omega
  rw [giveFeature, hfeature, hword, MmioState.reg, MmioState.iowrite32_io, Io.store_bytes,
    read_write_of_disjoint _ _ (Or.inl (by omega)), MmioState.ioread32_io, Io.load_bytes, hsel,
    MmioState.iowrite32_io, Io.store_bytes, read_write_of_disjoint, MmioState.reg]
  exact Or.inr (by unfold VIRTIO_MMIO_STATUS VIRTIO_MMIO_GUEST_FEATURES_SEL; omega)

end StatusSystem

/-! ### Runs -/

lemma featuresEvents_cons (v a : ℕ) (log : List (ℕ × ℕ)) : featuresEvents ((v, a) :: log) =
    if v = 0 then 0
    else (if a = VIRTIO_DEV_STATUS_FEATURES_OK then 1 else 0) + featuresEvents log := by
  by_cases hv : v = 0
  · simp [featuresEvents, hv]
  · by_cases ha : a = VIRTIO_DEV_STATUS_FEATURES_OK
    · simp [featuresEvents, hv, ha, Nat.add_comm]
    · simp [featuresEvents, hv, ha]

lemma FeaturesOk.of_and {w v : ℕ} (hw : FeaturesOk w) (h : w &&& v = w) : FeaturesOk v := by
  rw [FeaturesOk, ← h, Nat.testBit_and, Bool.and_eq_true] at hw
  exact hw.2

/-- A write that is seen for what it adds is counted once. -/
lemma featuresEvents_write {v a : ℕ} {log : List (ℕ × ℕ)} (hv : OnlyAdds (v :: log.map Prod.fst))
    (hlog : featuresEvents log = if FeaturesOk (lastStatus (log.map Prod.fst)) then 1 else 0)
    (ha : a = VIRTIO_DEV_STATUS_FEATURES_OK ↔
      ¬ FeaturesOk (lastStatus (log.map Prod.fst)) ∧ FeaturesOk v) :
    featuresEvents ((v, a) :: log) = if FeaturesOk v then 1 else 0 := by
  rw [featuresEvents_cons, hlog]
  rcases eq_or_ne v 0 with rfl | hne
  · rfl
  · have hadd := hv.1.resolve_left hne
    rw [if_neg hne]
    by_cases hw : FeaturesOk (lastStatus (log.map Prod.fst))
    · rw [if_neg fun h => (ha.1 h).1 hw, if_pos hw, if_pos (hw.of_and hadd)]
    · by_cases hv : FeaturesOk v
      · rw [if_pos (ha.2 ⟨hw, hv⟩), if_neg hw, if_pos hv]
      · rw [if_neg fun h => hv (ha.1 h).2, if_neg hw, if_neg hv]

namespace StatusSystem

variable {d : Vdev} {env : Env} {fuel : ℕ} {s : StatusSystem} {value : ℕ}

/-- The register holds the alternating sum of the writes, and every negotiation has seen
`VIRTIO_DEV_STATUS_FEATURES_OK` as often as it should. -/
structure Inv (d : Vdev) (s : StatusSystem) : Prop where
  lt : ∀ v ∈ s.written, v < 2 ^ 32
  status : s.mmio.reg d VIRTIO_MMIO_STATUS = alternating s.written
  count : OnlyAdds s.written →
    featuresEvents s.log = if FeaturesOk (lastStatus s.written) then 1 else 0

lemma Fresh.inv (h : s.Fresh d) : Inv d s where
  lt v hv := by
    rw [written, h.log] at hv
    cases hv
  status := by
    rw [h.status, written, h.log]
    rfl
  count _ := by
    rw [written, h.log]
    rfl

namespace Inv

lemma seen_eq (h : Inv d s) (value : ℕ) :
    seen d s value = sub32 (value % 2 ^ 32) (alternating s.written) := by
  rw [seen, h.status]

lemma value_lt (value : ℕ) : value % 2 ^ 32 < 2 ^ 32 := Nat.mod_lt _ (Nat.two_pow_pos 32)

lemma seen_featuresOk (h : Inv d s) (value : ℕ) :
    seen d s value = VIRTIO_DEV_STATUS_FEATURES_OK ↔
      value % 2 ^ 32 = (alternating s.written + VIRTIO_DEV_STATUS_FEATURES_OK) % 2 ^ 32 := by
  rw [h.seen_eq]
  exact sub32_eq_featuresOk (value_lt value)

lemma setMmio (h : Inv d s) {m : MmioState}
    (hm : m.reg d VIRTIO_MMIO_STATUS = s.mmio.reg d VIRTIO_MMIO_STATUS) :
    Inv d ⟨m, s.blk, s.log⟩ := ⟨h.lt, hm.trans h.status, h.count⟩

lemma step (h : Inv d s) (e : StatusEvent) (he : s.SumAgrees e) :
    Inv d (StatusSystem.step d env fuel s e) := by
  cases e with
  | read => exact h
  | feature i value =>
    rw [step_feature]
    exact h.setMmio (reg_giveFeature i value s.mmio)
  | write value =>
    refine ⟨?_, ?_, ?_⟩
    · rw [written_write]
      exact List.forall_mem_cons.2 ⟨value_lt value, h.lt⟩
    · rw [reg_write, h.seen_eq, written_write]
      rfl
    · rw [written_write, log_write]
      intro hadds
      refine featuresEvents_write hadds (h.count hadds.2) ?_
      rw [h.seen_featuresOk]
      exact he.2 hadds

lemma statusOk_iff (h : Inv d s) (e : StatusEvent) :
    StatusOk d env fuel s e ↔ s.SumAgrees e := by
  cases e with
  | feature i value => exact Iff.rfl
  | read =>
    change (∀ v ∈ s.written.head?, s.mmio.reg d VIRTIO_MMIO_STATUS = v) ↔
      (s.written ≠ [] → alternating s.written.tail = 0)
    rw [h.status]
    cases hw : s.written with
    | nil => simp
    | cons v vs =>
      have hv : v < 2 ^ 32 := h.lt v (hw ▸ List.mem_cons_self)
      simp only [List.head?_cons, Option.mem_def, Option.some.injEq, forall_eq', ne_eq,
        reduceCtorEq, not_false_eq_true, forall_const, List.tail_cons]
      exact sub32_eq_self hv (alternating_lt vs)
  | write value =>
    constructor
    · rintro ⟨a, hlog, hreset, hneg⟩
      rw [log_write] at hlog
      obtain rfl : seen d s value = a := congrArg Prod.snd (List.cons.inj hlog).1
      refine ⟨fun h0 => ?_, fun hadds => ?_⟩
      · have hseen := hreset h0
        rw [h.seen_eq, h0] at hseen
        exact (zero_sub32 (alternating_lt _)).1 hseen
      · rw [← h.seen_featuresOk]
        exact (hneg hadds).event
    · rintro ⟨hreset, hevent⟩
      refine ⟨seen d s value, log_write, fun h0 => ?_, fun hadds => ?_⟩
      · rw [h.seen_eq, h0, hreset h0]
        exact (zero_sub32 (Nat.two_pow_pos 32)).2 rfl
      · have hseen := hevent hadds
        rw [← h.seen_featuresOk] at hseen
        refine ⟨hseen, ?_, ackedFeatures_write⟩
        rw [log_write]
        exact featuresEvents_write hadds (h.count hadds.2) hseen

end Inv

/-- The status register and the events are what driver and device expect if and only if the writes
and their alternating sums agree. -/
theorem status_register_iff (d : Vdev) (env : Env) (fuel : ℕ) (s : StatusSystem)
    (es : List StatusEvent) (hs : s.Fresh d) :
    Along (step d env fuel) (StatusOk d env fuel) s es ↔
      Along (step d env fuel) SumAgrees s es :=
  along_iff (I := Inv d) (L := fun _ _ => True) (fun _ e h _ => h.statusOk_iff e)
    (fun _ e h _ he => h.step e he) hs.inv (along_const.2 fun _ _ => trivial)

/-- The block device of a fresh VM, before the guest has written its status -/
def freshStatus : StatusSystem := ⟨freshBlk.mmio, freshBlk.blk, []⟩

lemma freshStatus_fresh : freshStatus.Fresh blkVdev := ⟨by decide +kernel, rfl⟩

/-- A guest that does nothing during a call of the backend -/
def idleEnv : Env := ⟨fun _ m => m, fun _ => true⟩

/-- A reset, and the one write that may follow it, read back -/
theorem status_register_features_ok :
    Along (step blkVdev idleEnv 0) (StatusOk blkVdev idleEnv 0) freshStatus
      [.feature 0 5, .write 0, .write 8, .read] :=
  (status_register_iff blkVdev idleEnv 0 freshStatus _ freshStatus_fresh).2 (by decide +kernel)

/-- A driver adds one bit after the other: `FEATURES_OK` in 11 comes as 9, the reset as a negative
number, and after the write of 3 the register reads 2. -/
theorem status_register_differences :
    (exec (step blkVdev idleEnv 0) freshStatus [.write 1, .write 3, .write 11, .write 0]).log =
      [(0, 2 ^ 32 - 9), (11, 9), (3, 2), (1, 1)] ∧
    ¬ ∀ (d : Vdev) (env : Env) (fuel : ℕ) (s : StatusSystem) (es : List StatusEvent),
      s.Fresh d → Along (step d env fuel) (StatusOk d env fuel) s es := by
  refine ⟨by decide +kernel, fun h => ?_⟩
  obtain ⟨-, -, hread, -⟩ :=
    h blkVdev idleEnv 0 freshStatus [.write 1, .write 3, .read] freshStatus_fresh
  have hthree := hread 3 (by decide +kernel)
  exact absurd hthree (by decide +kernel)

end StatusSystem

end Minos.Virtio
