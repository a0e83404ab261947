import Mathlib
import Minos.Lib.Run
import Minos.Virtio.Ring

/-!
# The transmit queue of the network device

The driver publishes entries and kicks the device unless `used->flags` tells it not to. The kick
runs `virtio_net_ping_txq`, which sets that flag and signals a condition variable, on which
`virtio_net_tx_thread` waits when it has drained the ring. The thread clears the flag when it has
drained the ring, but only if it has asked for the flag itself, by its copy `vq->used_flags`.

So a kick that sets the flag behind the back of the thread, when the ring is empty and the copy is
clear, is never undone. And a kick before the thread has come to its first wait is lost.
-/

namespace Minos.Virtio

open ByteMem Run

/-- What the two threads and the driver see of the queue: `avail->idx`, `vq->last_avail_idx`,
`used->flags` and `vq->used_flags`. -/
structure TxQueue where
  availIdx : ℕ
  lastAvailIdx : ℕ
  ringFlags : ℕ
  usedFlags : ℕ
deriving DecidableEq, Repr

namespace TxQueue

/-- `virtq_has_descs` -/
def hasDescs (q : TxQueue) : Bool := q.availIdx != q.lastAvailIdx

/-- The number of entries that are not processed. -/
def entries (q : TxQueue) : ℕ := (q.availIdx + 2 ^ 16 - q.lastAvailIdx) % 2 ^ 16

/-- `virtq_enable_notify` without an event index -/
def enableNotify (q : TxQueue) : TxQueue :=
  if q.usedFlags &&& VRING_USED_F_NO_NOTIFY = 0 then q
  else
    let flags := q.usedFlags &&& (2 ^ 16 - 1 - VRING_USED_F_NO_NOTIFY)
    { q with usedFlags := flags, ringFlags := flags }

/-- `virtq_disable_notify` without an event index: only the copy of the flag is set. -/
def disableNotify (q : TxQueue) : TxQueue :=
  if q.usedFlags &&& VRING_USED_F_NO_NOTIFY ≠ 0 then q
  else { q with usedFlags := q.usedFlags ||| VRING_USED_F_NO_NOTIFY }

/-- `virtio_net_proctx` takes one chain, if there is one. -/
def proctx (q : TxQueue) : TxQueue :=
  if q.hasDescs then { q with lastAvailIdx := (q.lastAvailIdx + 1) % 2 ^ 16 } else q

/-- The driver publishes an entry. -/
def publish (q : TxQueue) : TxQueue := { q with availIdx := (q.availIdx + 1) % 2 ^ 16 }

/-- `vq->used->flags |= VRING_USED_F_NO_NOTIFY` -/
def setNoNotify (q : TxQueue) : TxQueue :=
  { q with ringFlags := q.ringFlags ||| VRING_USED_F_NO_NOTIFY }

/-- What the driver looks at before it kicks. -/
def NoNotify (q : TxQueue) : Prop := q.ringFlags &&& VRING_USED_F_NO_NOTIFY ≠ 0

instance (q : TxQueue) : Decidable q.NoNotify := inferInstanceAs (Decidable (_ ≠ _))

end TxQueue

/-! ### The threads -/

/-- The places of `virtio_net_tx_thread`. -/
inductive TxPc where
  /-- the first `pthread_mutex_lock`, and the `pthread_cond_wait` after it -/
  | start
  | firstWait
  /-- blocked on `tx_cond`, and woken up but without the mutex -/
  | waiting
  | woken
  /-- the condition of the inner loop, and what follows it -/
  | loop
  | enable
  | recheck
  | wait
  | disable
  | unlock
  /-- the ring is processed without the mutex -/
  | proc
  | again
  | enableAfter
  | lock
deriving DecidableEq, Repr

/-- The places of `virtio_net_ping_txq`; `idle` is outside of it. -/
inductive PingPc where
  | idle
  | entered
  | lock
  | flag
  | signal
  | unlock
deriving DecidableEq, Repr

/-- The owner of `tx_mtx` -/
inductive MutexOwner where
  | tx
  | ping
deriving DecidableEq, Repr

structure NetTx where
  q : TxQueue
  txInProgress : Bool
  txMtx : Option MutexOwner
  tx : TxPc
  ping : PingPc
  /-- The driver has published entries and not looked at the flag yet. -/
  checking : Bool
  /-- The kicks that the notify thread has not taken yet. -/
  kicks : ℕ
deriving DecidableEq, Repr

namespace NetTx

/-- `virtio_net_init` has created the thread. -/
def init : NetTx := ⟨⟨0, 0, 0, 0⟩, false, none, .start, .idle, false, 0⟩

/-- A step of `virtio_net_tx_thread`. The device is neither reset nor closed. -/
def txStep (s : NetTx) : NetTx :=
  match s.tx with
  | .start => if s.txMtx = none then { s with txMtx := some .tx, tx := .firstWait } else s
  | .firstWait => { s with txMtx := none, tx := .waiting }
  | .waiting => s
  | .woken => if s.txMtx = none then { s with txMtx := some .tx, tx := .loop } else s
  | .loop => { s with tx := if s.q.hasDescs then .disable else .enable }
  | .enable => { s with q := s.q.enableNotify, tx := .recheck }
  | .recheck => { s with tx := if s.q.hasDescs then .disable else .wait }
  | .wait => { s with txInProgress := false, txMtx := none, tx := .waiting }
  | .disable => { s with q := s.q.disableNotify, tx := .unlock }
  | .unlock => { s with txInProgress := true, txMtx := none, tx := .proc }
  | .proc => { s with q := s.q.proctx, tx := .again }
  | .again => { s with tx := if s.q.hasDescs then .proc else .enableAfter }
  | .enableAfter => { s with q := s.q.enableNotify, tx := .lock }
  | .lock => if s.txMtx = none then { s with txMtx := some .tx, tx := .loop } else s

/-- `pthread_cond_signal`, and a spurious wakeup -/
def wake (s : NetTx) : NetTx := if s.tx = .waiting then { s with tx := .woken } else s

/-- A step of the notify thread. -/
def pingStep (s : NetTx) : NetTx :=
  match s.ping with
  | .idle => if s.kicks = 0 then s else { s with kicks := s.kicks - 1, ping := .entered }
  | .entered => { s with ping := if s.q.hasDescs then .lock else .idle }
  | .lock => if s.txMtx = none then { s with txMtx := some .ping, ping := .flag } else s
  | .flag => { s with q := s.q.setNoNotify, ping := .signal }
  | .signal => { (if s.txInProgress then s else s.wake) with ping := .unlock }
  | .unlock => { s with txMtx := none, ping := .idle }

end NetTx

inductive NetEvent where
  /-- the driver publishes an entry, if the ring has room for it -/
  | publish
  /-- the driver looks at the flag, and kicks if it may -/
  | check
  | ping
  | tx
  | spurious
deriving DecidableEq, Repr

namespace NetTx

def step (num : ℕ) (s : NetTx) : NetEvent → NetTx
  | .publish => if s.q.entries < num then { s with q := s.q.publish, checking := true } else s
  | .check =>
    if s.checking then
      { s with checking := false, kicks := if s.q.NoNotify then s.kicks else s.kicks + 1 }
    else s
  | .ping => s.pingStep
  | .tx => s.txStep
  | .spurious => s.wake

/-- The ring has entries, nobody is going to tell the thread, and the thread waits. -/
def Stalled (s : NetTx) : Prop :=
  s.q.hasDescs ∧ s.tx = .waiting ∧ s.kicks = 0 ∧ s.ping = .idle ∧ s.checking = false

instance (s : NetTx) : Decidable s.Stalled := inferInstanceAs (Decidable (_ ∧ _))

/-- When `virtio_net_ping_txq` sets the flag, there are entries left or the thread has asked for the
flag itself; and the thread has come to its first wait, or another kick will follow. -/
def FlagInTime (s : NetTx) : NetEvent → Prop
  | .ping => s.ping = .flag →
      (s.q.hasDescs ∨ s.q.usedFlags &&& VRING_USED_F_NO_NOTIFY ≠ 0) ∧
        (s.tx ≠ .start ∨ s.kicks ≠ 0)
  | _ => True

instance (s : NetTx) : (e : NetEvent) → Decidable (s.FlagInTime e)
  | .ping => inferInstanceAs (Decidable (_ → _))
  | .publish => inferInstanceAs (Decidable True)
  | .check => inferInstanceAs (Decidable True)
  | .tx => inferInstanceAs (Decidable True)
  | .spurious => inferInstanceAs (Decidable True)

end NetTx

/-! ### The flags -/

namespace TxQueue

variable {q : TxQueue}

lemma hasDescs_iff : q.hasDescs = true ↔ q.availIdx ≠ q.lastAvailIdx := by simp [hasDescs]

lemma enableNotify_of_clear (h : q.usedFlags = 0) : q.enableNotify = q := by
  rw [enableNotify, if_pos (by rw [h]; rfl)]

lemma enableNotify_of_set (h : q.usedFlags = VRING_USED_F_NO_NOTIFY) :
    q.enableNotify = { q with usedFlags := 0, ringFlags := 0 } := by
  simp only [enableNotify, h]
  rfl

lemma disableNotify_of_clear (h : q.usedFlags = 0) :
    q.disableNotify = { q with usedFlags := VRING_USED_F_NO_NOTIFY } := by
  simp only [disableNotify, h]
  rfl

lemma setNoNotify_ringFlags (h : q.ringFlags = 0 ∨ q.ringFlags = VRING_USED_F_NO_NOTIFY) :
    q.setNoNotify.ringFlags = VRING_USED_F_NO_NOTIFY := by
  rcases h with h | h <;> simp only [setNoNotify, h] <;> rfl

/-- A ring that is not full has entries when one more is published. -/
lemma publish_hasDescs {num : ℕ} (hnum : num ≤ 32768) (ha : q.availIdx < 2 ^ 16)
    (h : q.entries < num) : q.publish.hasDescs = true := by
  rw [hasDescs_iff]
  simp only [entries, publish] at h ⊢
  omega

/-- The view of a queue of the backend. -/
def of (vq : VirtQueue) (m : Bytes) : TxQueue :=
  ⟨vq.availRingIdx m, vq.lastAvailIdx, read m 2 vq.used, vq.usedFlags⟩

lemma of_usedFlags (vq : VirtQueue) (m : Bytes) : (of vq m).usedFlags = vq.usedFlags := rfl

lemma of_hasDescs (vq : VirtQueue) (m : Bytes) : (of vq m).hasDescs = vq.hasDescs m := rfl

lemma of_enableNotify {acked : ℕ} {vq : VirtQueue} {m : Bytes}
    (hidx : acked.testBit VIRTIO_RING_F_EVENT_IDX = false) (hflags : vq.usedFlags < 2 ^ 16)
    (hapart : vq.used + 2 ≤ add64 vq.avail 2 ∨ add64 vq.avail 2 + 2 ≤ vq.used) :
    of (virtqEnableNotify acked vq m).2.1 (virtqEnableNotify acked vq m).2.2 =
      (of vq m).enableNotify := by
  rw [virtqEnableNotify, enableNotify, of_usedFlags]
  by_cases hclear : vq.usedFlags &&& VRING_USED_F_NO_NOTIFY = 0
  · rw [if_pos hclear, if_pos hclear]
  · rw [if_neg hclear, if_neg hclear]
    simp only [hidx, Bool.false_eq_true, if_false, virtqUpdateUsedFlags, of, VirtQueue.availRingIdx,
      mk.injEq, true_and, and_true]
    exact ⟨read_write_of_disjoint m _ hapart.symm,
      read_write_self m (lt_of_le_of_lt Nat.and_le_left hflags)⟩

lemma of_disableNotify {acked : ℕ} {vq : VirtQueue} {m : Bytes}
    (hidx : acked.testBit VIRTIO_RING_F_EVENT_IDX = false) :
    of (virtqDisableNotify acked vq m).1 (virtqDisableNotify acked vq m).2 =
      (of vq m).disableNotify := by
  rw [virtqDisableNotify, disableNotify, of_usedFlags]
  by_cases hset : vq.usedFlags &&& VRING_USED_F_NO_NOTIFY ≠ 0
  · rw [if_pos hset, if_pos hset]
  · rw [if_neg hset, if_neg hset]
    simp only [hidx, Bool.false_eq_true, if_false, of, VirtQueue.availRingIdx]

/-- A chain that `virtq_get_descs` does not refuse is taken from the ring. -/
lemma of_getDescs (vm : MvmVm) {vq : VirtQueue} {m : Bytes} (iov : ℕ → Iovec)
    (iovSize inNum outNum : ℕ) (hlast : vq.lastAvailIdx < 2 ^ 16)
    (hret : 0 ≤ (virtqGetDescs vm m vq iov iovSize inNum outNum).1) :
    of (virtqGetDescs vm m vq iov iovSize inNum outNum).2.1 m = (of vq m).proctx := by
  have hnone : sub32 (vq.availRingIdx m) vq.lastAvailIdx % 2 ^ 16 = 0 ↔
      (of vq m).hasDescs = false := by
    have havail : vq.availRingIdx m < 2 ^ 16 := read_lt m 2 _
    rw [of_hasDescs, VirtQueue.hasDescs, bne_eq_false_iff_eq, sub32]
    omega
  simp only [virtqGetDescs] at hret ⊢
  by_cases hcount : sub32 (vq.availRingIdx m) vq.lastAvailIdx % 2 ^ 16 = 0
  · rw [if_pos hcount, proctx, hnone.1 hcount]
    rfl
  · rw [← Bool.not_eq_true] at hnone
    rw [if_neg hcount] at hret ⊢
    rw [proctx, if_pos (not_not.1 (mt hnone.2 hcount))]
    split_ifs at hret ⊢
    · exact absurd hret (show ¬ (0 : ℤ) ≤ -EINVAL by decide)
    · exact absurd hret (show ¬ (0 : ℤ) ≤ -EINVAL by decide)
    · exact absurd hret (not_le.2 ‹_›)
    · rfl

end TxQueue

/-! ### What holds at each place -/

/-- The thread owns the mutex. -/
def TxPc.locked : TxPc → Bool
  | .firstWait | .loop | .enable | .recheck | .wait | .disable | .unlock => true
  | _ => false

/-- The thread has asked for the flag and not cleared it yet. -/
def TxPc.busy : TxPc → Bool
  | .unlock | .proc | .again | .enableAfter => true
  | _ => false

/-- The thread is going to wait without another look at the ring. -/
def TxPc.sleeps : TxPc → Bool
  | .start | .firstWait | .wait | .waiting => true
  | _ => false

/-- `tx_in_progress` is clear. -/
def TxPc.resting : TxPc → Bool
  | .start | .firstWait | .waiting => true
  | _ => false

def PingPc.locked : PingPc → Bool
  | .flag | .signal | .unlock => true
  | _ => false

/-- The ping has not come to its signal. -/
def PingPc.early : PingPc → Bool
  | .entered | .lock | .flag => true
  | _ => false

namespace NetTx

/-- The owner of the mutex, the two copies of the flag and `tx_in_progress` follow from the places
of the threads. -/
structure Places (s : NetTx) : Prop where
  avail : s.q.availIdx < 2 ^ 16
  last : s.q.lastAvailIdx < 2 ^ 16
  tx : s.txMtx = some .tx ↔ s.tx.locked = true
  ping : s.txMtx = some .ping ↔ s.ping.locked = true
  used : s.q.usedFlags = if s.tx.busy then VRING_USED_F_NO_NOTIFY else 0
  ring : s.q.ringFlags = 0 ∨ s.q.ringFlags = VRING_USED_F_NO_NOTIFY
  resting : s.tx.resting = true → s.txInProgress = false

/-- Somebody is going to tell the thread about the entries. -/
def Told (s : NetTx) : Prop :=
  s.kicks ≠ 0 ∨ s.ping.early = true ∨ s.ping = .signal ∧ s.tx = .waiting ∨
    s.checking = true ∧ ¬ s.q.NoNotify

/-- The driver is told not to kick only if the thread is going to find entries. -/
structure Inv (s : NetTx) : Prop where
  places : s.Places
  left : s.q.NoNotify → s.tx.busy = false → s.q.hasDescs = true
  told : s.tx.sleeps = true → s.q.hasDescs = true → s.Told

variable {s : NetTx} {num : ℕ}

lemma init_inv : init.Inv where
  places := by constructor <;> decide
  left h := absurd h (by decide)
  told _ h := absurd h (by decide)

/-- The thread goes on without the mutex changing hands. -/
lemma Places.goto (h : s.Places) {pc : TxPc} (hlock : pc.locked = s.tx.locked)
    (hbusy : pc.busy = s.tx.busy) (hrest : pc.resting = false) : Places { s with tx := pc } where
  avail := h.avail
  last := h.last
  tx := by simpa only [hlock] using h.tx
  ping := h.ping
  used := by simpa only [hbusy] using h.used
  ring := h.ring
  resting hr := by simp only [hrest, Bool.false_eq_true] at hr

lemma Places.acquire (h : s.Places) {pc : TxPc} (hfree : s.txMtx = none) (hlock : pc.locked = true)
    (hbusy : pc.busy = s.tx.busy) (hrest : pc.resting = true → s.tx.resting = true) :
    Places { s with txMtx := some .tx, tx := pc } where
  avail := h.avail
  last := h.last
  tx := by simp [hlock]
  ping := by simpa [hfree] using h.ping
  used := by simpa only [hbusy] using h.used
  ring := h.ring
  resting hr := h.resting (hrest hr)

lemma Places.release (h : s.Places) {pc : TxPc} {b : Bool} (htx : s.tx.locked = true)
    (hlock : pc.locked = false) (hbusy : pc.busy = s.tx.busy)
    (hrest : pc.resting = true → b = false) :
    Places { s with txInProgress := b, txMtx := none, tx := pc } where
  avail := h.avail
  last := h.last
  tx := by simp [hlock]
  ping := by simpa [h.tx.2 htx] using h.ping
  used := by simpa only [hbusy] using h.used
  ring := h.ring
  resting := hrest

lemma Places.txStep (h : s.Places) : s.txStep.Places := by
  cases hpc : s.tx <;> simp only [NetTx.txStep, hpc]
  case start | woken | lock =>
    split_ifs with hfree
    · exact h.acquire hfree rfl (by rw [hpc]; rfl) (by rw [hpc]; decide)
    · exact h
  case firstWait =>
    exact h.release (by rw [hpc]; rfl) rfl (by rw [hpc]; rfl) fun _ => h.resting (by rw [hpc]; rfl)
  case wait => exact h.release (by rw [hpc]; rfl) rfl (by rw [hpc]; rfl) fun _ => rfl
  case unlock => exact h.release (by rw [hpc]; rfl) rfl (by rw [hpc]; rfl) (by decide)
  case waiting => exact h
  case loop | recheck | again =>
    split_ifs <;> exact h.goto (by rw [hpc]; rfl) (by rw [hpc]; rfl) rfl
  case enable =>
    have hused : s.q.usedFlags = 0 := by simpa [hpc, TxPc.busy] using h.used
    rw [TxQueue.enableNotify_of_clear hused]
    exact h.goto (by rw [hpc]; rfl) (by rw [hpc]; rfl) rfl
  case disable =>
    have hused : s.q.usedFlags = 0 := by simpa [hpc, TxPc.busy] using h.used
    have htx := h.tx
    rw [hpc] at htx
    rw [TxQueue.disableNotify_of_clear hused]
    exact ⟨h.avail, h.last, htx, h.ping, rfl, h.ring, fun h => absurd h Bool.false_ne_true⟩
  case proc =>
    have hgoto : Places { s with tx := .again } := h.goto (by rw [hpc]; rfl) (by rw [hpc]; rfl) rfl
    rw [TxQueue.proctx]
    split_ifs
    · exact ⟨h.avail, Nat.mod_lt _ (by decide), hgoto.tx, h.ping, hgoto.used, h.ring, hgoto.resting⟩
    · exact hgoto
  case enableAfter =>
    have hused : s.q.usedFlags = VRING_USED_F_NO_NOTIFY := by simpa [hpc, TxPc.busy] using h.used
    have htx := h.tx
    rw [hpc] at htx
    rw [TxQueue.enableNotify_of_set hused]
    exact ⟨h.avail, h.last, htx, h.ping, rfl, Or.inl rfl, fun h => absurd h Bool.false_ne_true⟩

lemma Places.wake (h : s.Places) : s.wake.Places := by
  rw [NetTx.wake]
  split_ifs with hpc
  · exact h.goto (by rw [hpc]; rfl) (by rw [hpc]; rfl) rfl
  · exact h

lemma Places.pingStep (h : s.Places) : s.pingStep.Places := by
  -- a place of the notify thread with the same right to the mutex
  have hgoto : ∀ {t : NetTx} (pc : PingPc), t.Places → pc.locked = t.ping.locked →
      Places { t with ping := pc } := fun pc h hlock =>
    ⟨h.avail, h.last, h.tx, by simpa only [hlock] using h.ping, h.used, h.ring, h.resting⟩
  cases hpc : s.ping <;> simp only [NetTx.pingStep, hpc]
  case idle =>
    split_ifs
    · exact h
    · have := hgoto .entered h (by rw [hpc]; rfl)
      exact ⟨this.avail, this.last, this.tx, this.ping, this.used, this.ring, this.resting⟩
  case entered => split_ifs <;> exact hgoto _ h (by rw [hpc]; rfl)
  case lock =>
    split_ifs with hfree
    · refine ⟨h.avail, h.last, ?_, by simp [PingPc.locked], h.used, h.ring, h.resting⟩
      simpa [hfree] using h.tx
    · exact h
  case flag =>
    have := hgoto .signal h (by rw [hpc]; rfl)
    exact ⟨this.avail, this.last, this.tx, this.ping, this.used,
      Or.inr (TxQueue.setNoNotify_ringFlags h.ring), this.resting⟩
  case signal =>
    split_ifs
    · exact hgoto .unlock h (by rw [hpc]; rfl)
    · refine hgoto .unlock h.wake ?_
      have : s.wake.ping = s.ping := by
        rw [NetTx.wake]
        split_ifs <;> rfl
      rw [this, hpc]
      rfl
  case unlock =>
    have hping : s.txMtx = some .ping := h.ping.2 (by rw [hpc]; rfl)
    refine ⟨h.avail, h.last, ?_, by simp [PingPc.locked], h.used, h.ring, h.resting⟩
    simpa [hping] using h.tx

/-! ### One step -/

lemma Inv.publish (h : s.Inv) (hnum : num ≤ 32768) : (s.step num .publish).Inv := by
  simp only [step]
  split_ifs with hroom
  · have hp := h.places
    refine ⟨⟨Nat.mod_lt _ (by decide), hp.last, hp.tx, hp.ping, hp.used, hp.ring, hp.resting⟩,
      fun _ _ => TxQueue.publish_hasDescs hnum hp.avail hroom, fun hsleep _ => ?_⟩
    have hbusy : s.tx.busy = false := by
      revert hsleep
      cases s.tx <;> decide
    by_cases hno : s.q.NoNotify
    · -- the flag is set, so that there were entries before
      rcases h.told hsleep (h.left hno hbusy) with hk | he | hs | ⟨-, hc⟩
      · exact Or.inl hk
      · exact Or.inr (Or.inl he)
      · exact Or.inr (Or.inr (Or.inl hs))
      · exact absurd hno hc
    · exact Or.inr (Or.inr (Or.inr ⟨rfl, hno⟩))
  · exact h

lemma Inv.check (h : s.Inv) : (s.step num .check).Inv := by
  simp only [step]
  split_ifs with hc hno
  · have hp := h.places
    refine ⟨⟨hp.avail, hp.last, hp.tx, hp.ping, hp.used, hp.ring, hp.resting⟩, h.left,
      fun hsleep hd => ?_⟩
    rcases h.told hsleep hd with hk | he | hs | ⟨-, hclear⟩
    · exact Or.inl hk
    · exact Or.inr (Or.inl he)
    · exact Or.inr (Or.inr (Or.inl hs))
    · exact absurd hno hclear
  · have hp := h.places
    exact ⟨⟨hp.avail, hp.last, hp.tx, hp.ping, hp.used, hp.ring, hp.resting⟩, h.left,
      fun _ _ => Or.inl (Nat.succ_ne_zero _)⟩
  · exact h

lemma Inv.wake (h : s.Inv) : s.wake.Inv := by
  refine ⟨h.places.wake, ?_, ?_⟩ <;> rw [NetTx.wake] <;> split_ifs with hpc
  · exact fun hno _ => h.left hno (by rw [hpc]; rfl)
  · exact h.left
  · exact fun hsleep => absurd hsleep Bool.false_ne_true
  · exact h.told

/-- The notify thread. Where it sets the flag, the condition makes sure that the thread finds
entries, or that another kick follows. -/
lemma Inv.pingStep (h : s.Inv) (hflag : s.FlagInTime .ping) : s.pingStep.Inv := by
  refine ⟨h.places.pingStep, ?left, ?told⟩ <;> cases hpc : s.ping <;>
    simp only [NetTx.pingStep, hpc]
  case left.idle | left.lock => split_ifs <;> exact h.left
  case left.entered | left.unlock => exact h.left
  case left.flag =>
    intro _ hbusy
    have hused : s.q.usedFlags = 0 := by simpa [hbusy] using h.places.used
    refine (hflag hpc).1.resolve_right fun hne => hne ?_
    rw [hused]
    rfl
  case left.signal =>
    split_ifs
    · exact h.left
    · exact h.wake.left
  case told.idle =>
    intro hsleep hd
    split_ifs with hk
    · exact h.told (by simpa [hk] using hsleep) (by simpa [hk] using hd)
    · exact Or.inr (Or.inl rfl)
  case told.entered =>
    intro hsleep hd
    exact Or.inr (Or.inl (by simp only [if_pos (show s.q.hasDescs = true from hd)]; rfl))
  case told.lock =>
    intro hsleep hd
    split_ifs <;> exact Or.inr (Or.inl (by first | rfl | rw [hpc]; rfl))
  case told.flag =>
    intro hsleep hd
    rcases (hflag hpc).2 with hstart | hk
    · refine Or.inr (Or.inr (Or.inl ⟨rfl, ?_⟩))
      -- the notify thread has the mutex, so that the thread is not on its way to the wait
      have hfree : s.tx.locked = false := by
        rw [← Bool.not_eq_true, ← h.places.tx, h.places.ping.2 (by rw [hpc]; rfl)]
        decide
      revert hsleep hstart hfree
      dsimp only
      cases s.tx <;> simp [TxPc.sleeps, TxPc.locked]
    · exact Or.inl hk
  case told.signal =>
    -- the signal wakes the thread, or it does not wait
    have hawake : s.tx ≠ .waiting → s.tx.sleeps = true → s.q.hasDescs = true →
        Told { s with ping := .unlock } := by
      intro hne hsleep hd
      rcases h.told hsleep hd with hk | he | ⟨-, hw⟩ | hc
      · exact Or.inl hk
      · rw [hpc] at he
        cases he
      · exact absurd hw hne
      · exact Or.inr (Or.inr (Or.inr hc))
    split_ifs with hprog
    · refine hawake fun hw => ?_
      rw [h.places.resting (by rw [hw]; rfl)] at hprog
      cases hprog
    · rw [NetTx.wake]
      split_ifs with hw
      · exact fun hsleep => absurd hsleep Bool.false_ne_true
      · exact hawake hw
  case told.unlock =>
    intro hsleep hd
    rcases h.told hsleep hd with hk | he | ⟨hs, -⟩ | hc
    · exact Or.inl hk
    · rw [hpc] at he
      cases he
    · rw [hpc] at hs
      cases hs
    · exact Or.inr (Or.inr (Or.inr hc))

/-- The thread keeps what it was told on the way to the wait. -/
lemma Told.goto (h : s.Told) (hne : s.tx ≠ .waiting) {t : NetTx} (hq : t.q = s.q)
    (hping : t.ping = s.ping) (hk : t.kicks = s.kicks) (hc : t.checking = s.checking) :
    t.Told := by
  rcases h with h | h | ⟨-, h⟩ | h
  · exact Or.inl (by rwa [hk])
  · exact Or.inr (Or.inl (by rwa [hping]))
  · exact absurd h hne
  · exact Or.inr (Or.inr (Or.inr (by rwa [hc, hq])))

lemma Inv.txStep (h : s.Inv) : s.txStep.Inv := by
  refine ⟨h.places.txStep, ?left, ?told⟩ <;> cases hpc : s.tx <;> simp only [NetTx.txStep, hpc]
  case left.start | left.woken | left.lock =>
    split_ifs <;> exact fun hno _ => h.left hno (by rw [hpc]; rfl)
  case left.firstWait | left.waiting | left.loop | left.recheck | left.wait =>
    exact fun hno _ => h.left hno (by rw [hpc]; rfl)
  case left.enable =>
    have hused : s.q.usedFlags = 0 := by simpa [hpc, TxPc.busy] using h.places.used
    rw [TxQueue.enableNotify_of_clear hused]
    exact fun hno _ => h.left hno (by rw [hpc]; rfl)
  case left.disable | left.unlock | left.proc =>
    exact fun _ hbusy => absurd hbusy Bool.false_ne_true.symm
  case left.again =>
    split_ifs <;> exact fun _ hbusy => absurd hbusy Bool.false_ne_true.symm
  case left.enableAfter =>
    have hused : s.q.usedFlags = VRING_USED_F_NO_NOTIFY := by
      simpa [hpc, TxPc.busy] using h.places.used
    rw [TxQueue.enableNotify_of_set hused]
    exact fun hno => absurd (show 0 &&& VRING_USED_F_NO_NOTIFY = 0 from rfl) hno
  case told.start =>
    intro _ hd
    have htold := h.told (by rw [hpc]; rfl)
    split_ifs at hd ⊢
    · exact (htold hd).goto (by rw [hpc]; decide) rfl rfl rfl rfl
    · exact htold hd
  case told.firstWait | told.wait =>
    intro _ hd
    exact (h.told (by rw [hpc]; rfl) hd).goto (by rw [hpc]; decide) rfl rfl rfl rfl
  case told.waiting => exact fun _ => h.told (by rw [hpc]; rfl)
  case told.recheck =>
    intro hsleep hd
    rw [if_pos hd] at hsleep
    cases hsleep
  case told.loop | told.again =>
    intro hsleep
    split_ifs at hsleep <;> cases hsleep
  case told.woken | told.lock =>
    intro hsleep
    split_ifs at hsleep
    · cases hsleep
    · rw [hpc] at hsleep
      cases hsleep
  case told.enable | told.disable | told.unlock | told.proc | told.enableAfter =>
    exact fun hsleep => absurd hsleep Bool.false_ne_true

lemma Inv.step (h : s.Inv) (hnum : num ≤ 32768) (e : NetEvent) (he : s.FlagInTime e) :
    (s.step num e).Inv := by
  cases e with
  | publish => exact h.publish hnum
  | check => exact h.check
  | ping => exact h.pingStep he
  | tx => exact h.txStep
  | spurious => exact h.wake

lemma Inv.not_stalled (h : s.Inv) : ¬ s.Stalled := by
  rintro ⟨hd, htx, hk, hping, hcheck⟩
  rcases h.told (by rw [htx]; rfl) hd with h' | h' | ⟨h', -⟩ | ⟨h', -⟩
  · exact h' hk
  · rw [hping] at h'
    cases h'
  · rw [hping] at h'
    cases h'
  · rw [hcheck] at h'
    cases h'

end NetTx

/-! ### Whole runs -/

/-- In a run in which `virtio_net_ping_txq` sets the flag only in time, the thread never waits for a
signal that nobody is going to send. -/
theorem net_tx_never_stalls (num : ℕ) (hnum : num ≤ 32768) (es : List NetEvent)
    (hes : Along (NetTx.step num) NetTx.FlagInTime NetTx.init es) :
    ∀ es', es' <+: es → ¬ (exec (NetTx.step num) NetTx.init es').Stalled := by
  rintro es' ⟨rest, rfl⟩
  have hrun := (along_append.1 hes).1
  exact (exec_induction (fun s e h he => h.step hnum e he) NetTx.init_inv hrun).not_stalled

/-- The driver kicks before the thread has come to its first wait; and a kick is examined before,
and acted on after the thread has drained the ring. -/
theorem net_tx_stalls :
    (exec (NetTx.step 64) NetTx.init
      ([NetEvent.publish, .check] ++ List.replicate 6 NetEvent.ping ++
        [NetEvent.tx, .tx])).Stalled ∧
    (exec (NetTx.step 64) NetTx.init
      ([NetEvent.tx, .tx, .publish, .check, .publish, .check] ++ List.replicate 8 NetEvent.ping ++
        List.replicate 9 NetEvent.tx ++ List.replicate 4 NetEvent.ping ++
        List.replicate 5 NetEvent.tx ++ [NetEvent.publish, .check])).Stalled := by
  decide +kernel

/-- Two packets, of which the second is published while the thread processes the first. -/
theorem net_tx_never_stalls_two_packets :
    let es := [NetEvent.tx, .tx, .publish, .check] ++ List.replicate 6 NetEvent.ping ++
      List.replicate 4 NetEvent.tx ++ [NetEvent.publish, .check] ++ List.replicate 9 NetEvent.tx
    Along (NetTx.step 64) NetTx.FlagInTime NetTx.init es ∧
      ¬ (exec (NetTx.step 64) NetTx.init es).Stalled :=
  ⟨by decide +kernel,
    net_tx_never_stalls 64 (by decide) _ (by decide +kernel) _ (List.prefix_refl _)⟩

end Minos.Virtio
