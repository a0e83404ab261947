import Mathlib
import Minos.Lib.Run
import Minos.Virtio.Backend

/-!
# Interrupts with an event index

With `VIRTIO_RING_F_EVENT_IDX` the driver says after which used element it wants an interrupt. The
indices have 16 bits, so the backend also keeps a flag that says whether the index of the last
interrupt still means what it says. Counted without wrapping, no interrupt is missed.
-/

namespace Minos.Virtio

open ByteMem Run

/-- A queue with the memory of the guest. The last two fields are not in the source: the number of
used elements so far, and this number at the last `virtq_need_notify` that set `signalled_used`. -/
structure UsedQueue where
  vq : VirtQueue
  mem : Bytes
  total : ℕ
  signalled : Option ℕ

inductive UsedEvent where
  /-- `virtq_add_used_n` -/
  | addUsed (heads : List VringUsedElem)
  /-- `virtq_notify` -/
  | notify
  /-- `virtq_get_descs` and `virtq_discard_desc` move the indices of the avail ring -/
  | avail (availIdx lastAvailIdx : ℕ)
  /-- the driver writes its memory, with `used_event` in it -/
  | driver (mem : Bytes)

/-- `virtq_need_notify` returns before it looks at the indices. -/
def NotifiesOnEmpty (acked : ℕ) (vq : VirtQueue) : Prop :=
  acked.testBit VIRTIO_F_NOTIFY_ON_EMPTY ∧ vq.availIdx = vq.lastAvailIdx

instance (acked : ℕ) (vq : VirtQueue) : Decidable (NotifiesOnEmpty acked vq) :=
  inferInstanceAs (Decidable (_ ∧ _))

def usedStep (acked : ℕ) (s : UsedQueue) : UsedEvent → UsedQueue
  | .addUsed heads =>
    let r := virtqAddUsedN s.vq heads s.mem
    { s with
      vq := r.1
      mem := r.2
      total := s.total + heads.length }
  | .notify => { s with
      vq := (virtqNeedNotify acked s.vq s.mem).2
      signalled := if NotifiesOnEmpty acked s.vq then s.signalled else some s.total }
  | .avail availIdx lastAvailIdx => { s with vq := { s.vq with
      availIdx := availIdx
      lastAvailIdx := lastAvailIdx } }
  | .driver mem => { s with mem := mem }

/-- `virtq_add_used_n` gets at least one element, and at most as many as the ring has. -/
def UsedEvent.Fits (num : ℕ) : UsedEvent → Prop
  | .addUsed heads => 1 ≤ heads.length ∧ heads.length ≤ num
  | _ => True

instance (num : ℕ) : (e : UsedEvent) → Decidable (e.Fits num)
  | .addUsed _ => inferInstanceAs (Decidable (_ ∧ _))
  | .notify => inferInstanceAs (Decidable True)
  | .avail _ _ => inferInstanceAs (Decidable True)
  | .driver _ => inferInstanceAs (Decidable True)

/-- An interrupt is due: none was considered yet, or the driver waits for an element that was added
since the last one that was. -/
def Due (s : UsedQueue) : Prop :=
  s.signalled = none ∨
    ∃ i, s.signalled.getD 0 ≤ i ∧ i < s.total ∧ i % 2 ^ 16 = s.vq.availRing s.mem s.vq.num

/-- The indices are the counts modulo `2 ^ 16`, and a valid `signalled_used` is not a whole turn
behind. -/
structure Counts (num : ℕ) (s : UsedQueue) : Prop where
  num : s.vq.num = num
  lastUsedIdx : s.vq.lastUsedIdx = s.total % 2 ^ 16
  signalledUsed : s.vq.signalledUsed = s.signalled.getD 0 % 2 ^ 16
  le : s.signalled.getD 0 ≤ s.total
  valid : s.vq.signalledUsedValid ≠ 0 →
    s.signalled.isSome ∧ s.total - s.signalled.getD 0 < 2 ^ 16

/-! ### Differences of indices -/

/-- The difference of two 16-bit indices is the difference of the counts, up to whole turns. -/
lemma sub32_mod_mod {s t : ℕ} (h : s ≤ t) :
    sub32 (t % 2 ^ 16) (s % 2 ^ 16) % 2 ^ 16 = (t - s) % 2 ^ 16 := by
  unfold sub32
  omega

lemma virtqNeedEvent_of_mem {i s t : ℕ} (hs : s ≤ i) (ht : i < t) (hst : t - s < 2 ^ 16) :
    virtqNeedEvent (i % 2 ^ 16) (t % 2 ^ 16) (s % 2 ^ 16) = true := by
  have hevent : sub32 (sub32 (t % 2 ^ 16) (i % 2 ^ 16)) 1 % 2 ^ 16 = t - i - 1 := by
    unfold sub32
    omega
  rw [virtqNeedEvent, hevent, sub32_mod_mod (by omega), Nat.mod_eq_of_lt hst]
  exact decide_eq_true (by omega)

/-! ### The counts along a run -/

section

variable {acked num : ℕ} {s : UsedQueue}

lemma Counts.of_mem {vq : VirtQueue} {m : Bytes} {t : ℕ} {g : Option ℕ}
    (h : Counts num ⟨vq, m, t, g⟩) (m' : Bytes) : Counts num ⟨vq, m', t, g⟩ :=
  ⟨h.num, h.lastUsedIdx, h.signalledUsed, h.le, h.valid⟩

/-- The bookkeeping of one chunk: `signalled_used` stays valid until the counter is a whole turn
ahead of it. -/
lemma Counts.addUsedChunk (h : Counts num s) (heads : List VringUsedElem) (m : Bytes)
    (hpos : 1 ≤ heads.length) (hlt : heads.length < 2 ^ 16) :
    Counts num ⟨(virtqAddUsedChunk s.vq heads m).1, m, s.total + heads.length, s.signalled⟩ := by
  obtain ⟨hnum, hlast, hsig, hle, hvalid⟩ := h
  have hnew : (s.vq.lastUsedIdx + heads.length) % 2 ^ 16 = (s.total + heads.length) % 2 ^ 16 := by
    rw [hlast, Nat.mod_add_mod]
  have hpassed : sub32 ((s.total + heads.length) % 2 ^ 16) s.vq.signalledUsed % 2 ^ 16 =
      (s.total + heads.length - s.signalled.getD 0) % 2 ^ 16 := by
    rw [hsig, sub32_mod_mod (by omega)]
  have hcount : sub32 ((s.total + heads.length) % 2 ^ 16) s.vq.lastUsedIdx % 2 ^ 16 =
      heads.length := by
    rw [hlast, sub32_mod_mod (by omega), Nat.add_sub_cancel_left, Nat.mod_eq_of_lt hlt]
  simp only [virtqAddUsedChunk, hnew, hpassed, hcount]
  by_cases hp : (s.total + heads.length - s.signalled.getD 0) % 2 ^ 16 < heads.length
  · rw [if_pos hp]
    exact ⟨hnum, rfl, hsig, by dsimp only; omega, fun h => absurd rfl h⟩
  · rw [if_neg hp]
    refine ⟨hnum, rfl, hsig, by dsimp only; omega, fun h => ?_⟩
    obtain ⟨hsome, hlt'⟩ := hvalid h
    exact ⟨hsome, by dsimp only; omega⟩

/-- A batch is added in one or two chunks, none of them empty. -/
lemma Counts.addUsed (h : Counts num s) (hn1 : 1 ≤ num) (hn2 : num ≤ 32768)
    (heads : List VringUsedElem) (hpos : 1 ≤ heads.length) (hle : heads.length ≤ num) :
    Counts num (usedStep acked s (.addUsed heads)) := by
  have hchunks (m : Bytes) : Counts num
      ⟨(virtqAddUsedChunks s.vq heads m).1, m, s.total + heads.length, s.signalled⟩ := by
    rw [virtqAddUsedChunks]
    have hstart : s.vq.usedStart ≤ num - 1 := by
      rw [VirtQueue.usedStart, h.num]
      refine Nat.and_le_right.trans ?_
      unfold sub32
      omega
    have hn : sub32 s.vq.num s.vq.usedStart = num - s.vq.usedStart := by
      rw [h.num]
      unfold sub32
      omega
    simp only [hn]
    split_ifs with hsplit
    · have hfst := h.addUsedChunk (heads.take (num - s.vq.usedStart)) m
        (by rw [List.length_take]; omega) (by rw [List.length_take]; omega)
      have hsnd := hfst.addUsedChunk (heads.drop (num - s.vq.usedStart))
        (virtqAddUsedChunk s.vq (heads.take (num - s.vq.usedStart)) m).2
        (by rw [List.length_drop]; omega) (by rw [List.length_drop]; omega)
      have htotal : s.total + (heads.take (num - s.vq.usedStart)).length +
          (heads.drop (num - s.vq.usedStart)).length = s.total + heads.length := by
        rw [add_assoc, ← List.length_append, List.take_append_drop]
      dsimp only at hsnd
      rw [htotal] at hsnd
      exact hsnd.of_mem m
    · exact h.addUsedChunk heads m hpos (by omega)
  simp only [usedStep, virtqAddUsedN]
  exact (hchunks s.mem).of_mem _

lemma Counts.notify (h : Counts num s) (hidx : acked.testBit VIRTIO_RING_F_EVENT_IDX) :
    Counts num (usedStep acked s .notify) := by
  by_cases hempty : NotifiesOnEmpty acked s.vq
  · simp only [usedStep, virtqNeedNotify, if_pos hempty, if_pos (id hempty : _ ∧ _)]
    exact h.of_mem _
  · have hvq : (virtqNeedNotify acked s.vq s.mem).2 =
        { s.vq with signalledUsed := s.vq.lastUsedIdx, signalledUsedValid := 1 } := by
      simp only [virtqNeedNotify, if_neg (id hempty : ¬ (_ ∧ _)), hidx, not_true, if_false]
      split_ifs <;> rfl
    simp only [usedStep, if_neg hempty, hvq]
    exact ⟨h.num, h.lastUsedIdx, h.lastUsedIdx, le_rfl, fun _ => ⟨rfl, by simp⟩⟩

lemma Counts.step (h : Counts num s) (hn1 : 1 ≤ num) (hn2 : num ≤ 32768)
    (hidx : acked.testBit VIRTIO_RING_F_EVENT_IDX) (e : UsedEvent) (he : e.Fits num) :
    Counts num (usedStep acked s e) := by
  cases e with
  | addUsed heads => exact h.addUsed hn1 hn2 heads he.1 he.2
  | notify => exact h.notify hidx
  | avail availIdx lastAvailIdx =>
    exact ⟨h.num, h.lastUsedIdx, h.signalledUsed, h.le, h.valid⟩
  | driver mem => exact h.of_mem mem

/-- Where the counts are right, an interrupt that is due is sent. -/
lemma Counts.needNotify (h : Counts num s) (hidx : acked.testBit VIRTIO_RING_F_EVENT_IDX)
    (hdue : Due s) : (virtqNeedNotify acked s.vq s.mem).1 = true := by
  by_cases hempty : NotifiesOnEmpty acked s.vq
  · simp only [virtqNeedNotify, if_pos (id hempty : _ ∧ _)]
  simp only [virtqNeedNotify, if_neg (id hempty : ¬ (_ ∧ _)), hidx, not_true, if_false]
  by_cases hvalid : s.vq.signalledUsedValid = 0
  · rw [if_pos hvalid]
  obtain ⟨hsome, hlt⟩ := h.valid hvalid
  rcases hdue with hnone | ⟨i, hi, hit, hevent⟩
  · simp [hnone] at hsome
  · rw [if_neg hvalid]
    change virtqNeedEvent (s.vq.availRing s.mem s.vq.num) s.vq.lastUsedIdx s.vq.signalledUsed = true
    rw [← hevent, h.lastUsedIdx, h.signalledUsed]
    exact virtqNeedEvent_of_mem hi hit hlt

end

/-! ### No interrupt is missed -/

/-- The queue as `virtio_buffer_event` leaves it, before any used element. -/
def UsedQueue.init (vm : MvmVm) (reg : ℕ → ℕ) (vq : VirtQueue) (arg : ℕ) (mem : Bytes) :
    UsedQueue :=
  ⟨setupQueue vm reg vq arg, mem, 0, none⟩

/-- A `virtq_need_notify` for which an interrupt is due returns 1. -/
def Signals (acked : ℕ) (s : UsedQueue) : UsedEvent → Prop
  | .notify => Due s → (virtqNeedNotify acked s.vq s.mem).1 = true
  | _ => True

lemma counts_init (vm : MvmVm) (reg : ℕ → ℕ) (vq : VirtQueue) (arg : ℕ) (mem : Bytes) :
    Counts (reg VIRTIO_MMIO_QUEUE_NUM) (UsedQueue.init vm reg vq arg mem) :=
  ⟨rfl, rfl, rfl, le_rfl, fun h => absurd rfl h⟩

/-- In every history of a queue with an event index, whatever the driver writes, each
`virtq_need_notify` for which an interrupt is due returns 1. -/
theorem event_idx_never_misses (vm : MvmVm) (reg : ℕ → ℕ) (vq : VirtQueue) (arg : ℕ) (mem : Bytes)
    (acked : ℕ) (es : List UsedEvent) (hn1 : 1 ≤ reg VIRTIO_MMIO_QUEUE_NUM)
    (hn2 : reg VIRTIO_MMIO_QUEUE_NUM ≤ 32768) (hidx : acked.testBit VIRTIO_RING_F_EVENT_IDX)
    (hfits : ∀ e ∈ es, e.Fits (reg VIRTIO_MMIO_QUEUE_NUM)) :
    Along (usedStep acked) (Signals acked) (UsedQueue.init vm reg vq arg mem) es := by
  refine along_induction (I := Counts (reg VIRTIO_MMIO_QUEUE_NUM))
    (fun s e h he => h.step hn1 hn2 hidx e he) ?_ (counts_init vm reg vq arg mem)
    (along_const.mpr hfits)
  rintro s (_ | _ | _ | _) h -
  case notify => exact fun hdue => h.needNotify hidx hdue
  all_goals trivial

/-- A queue with two entries, and a driver that waits for the element with index 1. -/
def twoEntries (off : ℕ) : ℕ :=
  if off = VIRTIO_MMIO_QUEUE_NUM then 2
  else if off = VIRTIO_MMIO_QUEUE_AVAIL_LOW then 0x1000
  else if off = VIRTIO_MMIO_QUEUE_USED_LOW then 0x2000 else 0

def waitsForOne : Bytes := fun a => if a = 0x1008 then 1 else 0

/-- The queue before the driver has set it up. -/
def unusedQueue : VirtQueue :=
  { ready := false, num := 0, iovecSize := 2, desc := 0, avail := 0, used := 0, lastAvailIdx := 0,
    availIdx := 0, lastUsedIdx := 0, usedFlags := 0, signalledUsed := 0, signalledUsedValid := 0,
    vqIndex := 0, iovec := fun _ => ⟨0, 0⟩, callback := none }

theorem event_idx_never_misses_two_entries :
    let vm : MvmVm := ⟨0, 0, 0x4000, by decide, by decide⟩
    let s := UsedQueue.init vm twoEntries unusedQueue 0 waitsForOne
    let es := [.addUsed [⟨0, 4⟩], .notify, .addUsed [⟨1, 4⟩]]
    Along (usedStep (2 ^ VIRTIO_RING_F_EVENT_IDX)) (Signals (2 ^ VIRTIO_RING_F_EVENT_IDX)) s
      (es ++ [.notify]) ∧ Due (exec (usedStep (2 ^ VIRTIO_RING_F_EVENT_IDX)) s es) :=
  ⟨event_idx_never_misses _ _ _ _ _ _ _ (by decide) (by decide) (by decide) (by decide),
    Or.inr ⟨1, by decide +kernel⟩⟩

end Minos.Virtio
