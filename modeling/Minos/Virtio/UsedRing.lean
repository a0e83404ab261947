import Mathlib
import Minos.Lib.BitField
import Minos.Lib.RingBuffer
import Minos.Lib.Run
import Minos.Virtio.EventIdx

/-!
# The used ring

The device puts finished heads into the used ring, in batches that may wrap around the end of the
ring, and its flags tell the driver whether notifications are wanted. A batch is published by the
index behind it.
-/

namespace Minos.Virtio

open ByteMem Run

/-- `vq->used->ring[i]` -/
def VirtQueue.usedRing (vq : VirtQueue) (m : Bytes) (i : ℕ) : VringUsedElem :=
  ⟨read m 4 (add64 vq.used (4 + 8 * i)), read m 4 (add64 vq.used (4 + 8 * i) + 4)⟩

/-- The fields are 32 bits wide. -/
structure VringUsedElem.Fits (e : VringUsedElem) : Prop where
  id : e.id < 2 ^ 32
  len : e.len < 2 ^ 32

/-- The number of slots is a power of two, and the ring does not wrap around the memory. -/
structure VirtQueue.UsedOk (vq : VirtQueue) : Prop where
  num : ∃ k ≤ 15, vq.num = 2 ^ k
  lastUsedIdx : vq.lastUsedIdx < 2 ^ 16
  used : vq.used + (4 + 8 * vq.num) ≤ 2 ^ 64

/-- From `(vq, m)` to `(vq', m')` the batch `heads` was published. -/
structure Published (vq : VirtQueue) (m : Bytes) (heads : List VringUsedElem) (vq' : VirtQueue)
    (m' : Bytes) : Prop where
  slots : ∀ i e, heads[i]? = some e → vq.usedRing m' ((vq.lastUsedIdx + i) % vq.num) = e
  others : ∀ j < vq.num, (∀ i < heads.length, (vq.lastUsedIdx + i) % vq.num ≠ j) →
    vq.usedRing m' j = vq.usedRing m j
  lastUsedIdx : vq'.lastUsedIdx = (vq.lastUsedIdx + heads.length) % 2 ^ 16
  idx : vq.usedRingIdx m' = (vq.lastUsedIdx + heads.length) % 2 ^ 16

/-- What a driver reads that has seen the ring up to `seen` -/
def VirtQueue.unread (vq : VirtQueue) (m : Bytes) (seen : ℕ) : List VringUsedElem :=
  (List.range (sub32 (vq.usedRingIdx m) seen % 2 ^ 16)).map fun i =>
    vq.usedRing m ((seen + i) % vq.num)

/-- What the driver reads in all while one batch after the other is published -/
def readBatches : VirtQueue → Bytes → List (List VringUsedElem) → List VringUsedElem
  | _, _, [] => []
  | vq, m, heads :: batches =>
    let r := virtqAddUsedN vq heads m
    vq.unread r.2 vq.lastUsedIdx ++ readBatches r.1 r.2 batches

/-! ### One chunk -/

section Chunk

variable {vq : VirtQueue} {m : Bytes} {heads : List VringUsedElem} {start i j : ℕ}
  {e : VringUsedElem}

lemma VirtQueue.UsedOk.num_pos (h : vq.UsedOk) : 0 < vq.num := by
  obtain ⟨k, -, hk⟩ := h.num
  exact hk ▸ Nat.two_pow_pos k

lemma VirtQueue.UsedOk.num_le (h : vq.UsedOk) : vq.num ≤ 32768 := by
  obtain ⟨k, hk, hnum⟩ := h.num
  rw [hnum]
  exact Nat.pow_le_pow_right (by norm_num) hk

lemma VirtQueue.UsedOk.slot (h : vq.UsedOk) (hj : j < vq.num) :
    add64 vq.used (4 + 8 * j) = vq.used + (4 + 8 * j) :=
  add64_of_lt (by have := h.used; omega)

lemma VirtQueue.UsedOk.usedStart (h : vq.UsedOk) : vq.usedStart = vq.lastUsedIdx % vq.num := by
  obtain ⟨k, hk, hnum⟩ := h.num
  have hle := h.num_le
  have hpos := h.num_pos
  rw [VirtQueue.usedStart, show sub32 vq.num 1 = vq.num - 1 by unfold sub32; omega, hnum,
    Nat.and_two_pow_sub_one_eq_mod]

/-- The two words of one slot -/
def storeElem (vq : VirtQueue) (i : ℕ) (e : VringUsedElem) (m : Bytes) : Bytes :=
  let a := add64 vq.used (4 + 8 * i)
  write (write m 4 a e.id) 4 (a + 4) e.len

lemma storeUsed_cons : storeUsed vq start (e :: heads) m =
    storeUsed vq (start + 1) heads (storeElem vq start e m) := rfl

lemma usedRing_storeElem (h : vq.UsedOk) (he : e.Fits) (hj : j < vq.num) :
    vq.usedRing (storeElem vq j e m) j = e := by
  have hid : e.id < 256 ^ 4 := he.id.trans_eq (by norm_num)
  have hlen : e.len < 256 ^ 4 := he.len.trans_eq (by norm_num)
  rw [VirtQueue.usedRing, storeElem, h.slot hj, read_write_of_disjoint _ _ (Or.inl le_rfl),
    read_write_self _ hid, read_write_self _ hlen]

lemma usedRing_storeElem_of_ne (h : vq.UsedOk) (hi : i < vq.num) (hj : j < vq.num) (hij : i ≠ j) :
    vq.usedRing (storeElem vq i e m) j = vq.usedRing m j := by
  rw [VirtQueue.usedRing, VirtQueue.usedRing, storeElem, h.slot hi, h.slot hj]
  rw [read_write_of_disjoint _ _ (by omega), read_write_of_disjoint _ _ (by omega),
    read_write_of_disjoint _ _ (by omega), read_write_of_disjoint _ _ (by omega)]

/-- A chunk that does not reach over the end of the ring changes its own slots only. -/
lemma usedRing_storeUsed_of_ne (h : vq.UsedOk) (hend : start + heads.length ≤ vq.num)
    (hj : j < vq.num) (hout : j < start ∨ start + heads.length ≤ j) :
    vq.usedRing (storeUsed vq start heads m) j = vq.usedRing m j := by
  induction heads generalizing start m with
  | nil => rfl
  | cons e heads ih =>
    rw [List.length_cons] at hend hout
    rw [storeUsed_cons, ih (by omega) (by omega),
      usedRing_storeElem_of_ne h (by omega) hj (by omega)]

lemma usedRing_storeUsed (h : vq.UsedOk) (hfits : ∀ e ∈ heads, e.Fits)
    (hend : start + heads.length ≤ vq.num) (he : heads[i]? = some e) :
    vq.usedRing (storeUsed vq start heads m) (start + i) = e := by
  induction heads generalizing start i m with
  | nil => cases he
  | cons d heads ih =>
    obtain ⟨hd, hfits⟩ := List.forall_mem_cons.1 hfits
    rw [List.length_cons] at hend
    rw [storeUsed_cons]
    cases i with
    | zero =>
      obtain rfl := Option.some.inj he
      rw [add_zero, usedRing_storeUsed_of_ne h (by omega) (by omega) (by omega),
        usedRing_storeElem h hd (by omega)]
    | succ i =>
      rw [show start + (i + 1) = start + 1 + i by ring]
      exact ih hfits (by omega) he

/-- A chunk moves the index on and leaves the place and the size of the ring. -/
lemma virtqAddUsedChunk_spec : ∃ vq', virtqAddUsedChunk vq heads m =
      (vq', storeUsed vq vq.usedStart heads m) ∧
    vq'.lastUsedIdx = (vq.lastUsedIdx + heads.length) % 2 ^ 16 ∧ vq'.num = vq.num ∧
    vq'.used = vq.used := by
  rw [virtqAddUsedChunk]
  dsimp only
  split
  · exact ⟨_, rfl, rfl, rfl, rfl⟩
  · exact ⟨_, rfl, rfl, rfl, rfl⟩

end Chunk

/-! ### A batch -/

section Batch

variable {vq : VirtQueue} {m : Bytes} {heads : List VringUsedElem} {i j n : ℕ}

/-- Slots counted from the start of a batch -/
lemma add_mod_of_start {last num : ℕ} (hi : last % num + i < num) :
    (last + i) % num = last % num + i := by
  rw [Nat.add_mod, Nat.mod_eq_of_lt (show i < num by omega), Nat.mod_eq_of_lt hi]

/-- What the chunks of a batch leave in the ring -/
structure Stored (vq : VirtQueue) (m : Bytes) (heads : List VringUsedElem) (r : VirtQueue × Bytes) :
    Prop where
  slots : ∀ i e, heads[i]? = some e → vq.usedRing r.2 ((vq.lastUsedIdx + i) % vq.num) = e
  others : ∀ j < vq.num, (∀ i < heads.length, (vq.lastUsedIdx + i) % vq.num ≠ j) →
    vq.usedRing r.2 j = vq.usedRing m j
  lastUsedIdx : r.1.lastUsedIdx = (vq.lastUsedIdx + heads.length) % 2 ^ 16
  num : r.1.num = vq.num
  used : r.1.used = vq.used

lemma VirtQueue.usedRing_congr {vq' : VirtQueue} (h : vq'.used = vq.used) :
    vq'.usedRing m j = vq.usedRing m j := by
  rw [VirtQueue.usedRing, VirtQueue.usedRing, h]

/-- A batch that ends before the ring does is one chunk. -/
lemma virtqAddUsedChunk_stored (h : vq.UsedOk) (hfits : ∀ e ∈ heads, e.Fits)
    (hend : vq.lastUsedIdx % vq.num + heads.length ≤ vq.num) :
    Stored vq m heads (virtqAddUsedChunk vq heads m) := by
  obtain ⟨vq', hr, hlast, hnum, hused⟩ := @virtqAddUsedChunk_spec vq m heads
  rw [hr, h.usedStart]
  refine ⟨fun i e he => ?_, fun j hj hout => ?_, hlast, hnum, hused⟩
  · have hi : i < heads.length := (List.getElem?_eq_some_iff.1 he).1
    rw [add_mod_of_start (by omega)]
    exact usedRing_storeUsed h hfits hend he
  · refine usedRing_storeUsed_of_ne h hend hj ?_
    by_contra hin
    refine hout (j - vq.lastUsedIdx % vq.num) (by omega) ?_
    rw [add_mod_of_start (by omega)]
    omega

/-- The size of the ring divides the range of the index. -/
lemma VirtQueue.UsedOk.mod_mod (h : vq.UsedOk) (a i : ℕ) :
    (a % 2 ^ 16 + i) % vq.num = (a + i) % vq.num := by
  obtain ⟨k, hk, hnum⟩ := h.num
  have hdvd : vq.num ∣ 2 ^ 16 := hnum ▸ Nat.pow_dvd_pow 2 (by omega)
  rw [Nat.add_mod, Nat.mod_mod_of_dvd _ hdvd, ← Nat.add_mod]

lemma Stored.usedOk {r : VirtQueue × Bytes} (h : vq.UsedOk) (hr : Stored vq m heads r) :
    r.1.UsedOk := by
  refine ⟨hr.num ▸ h.num, ?_, ?_⟩
  · rw [hr.lastUsedIdx]
    exact Nat.mod_lt _ (Nat.two_pow_pos 16)
  · rw [hr.num, hr.used]
    exact h.used

/-- Two parts of a batch that is not larger than the ring -/
lemma Stored.append {heads' : List VringUsedElem} {r r' : VirtQueue × Bytes} (h : vq.UsedOk)
    (hfst : Stored vq m heads r) (hsnd : Stored r.1 r.2 heads' r')
    (hle : heads.length + heads'.length ≤ vq.num) : Stored vq m (heads ++ heads') r' := by
  have hslot (i : ℕ) : (r.1.lastUsedIdx + i) % vq.num =
      (vq.lastUsedIdx + (heads.length + i)) % vq.num := by
    rw [hfst.lastUsedIdx, h.mod_mod, add_assoc]
  have hring (m' : Bytes) (j : ℕ) : r.1.usedRing m' j = vq.usedRing m' j :=
    VirtQueue.usedRing_congr hfst.used
  have hothers := hsnd.others
  simp only [hring, hfst.num, hslot] at hothers
  refine ⟨fun i e he => ?_, fun j hj hout => ?_, ?_, hsnd.num.trans hfst.num,
    hsnd.used.trans hfst.used⟩
  · by_cases hi : i < heads.length
    · rw [List.getElem?_append_left hi] at he
      rw [hothers _ (Nat.mod_lt _ h.num_pos) fun k hk =>
        RingBuffer.add_mod_ne (by omega) (by omega) (by omega)]
      exact hfst.slots i e he
    · rw [List.getElem?_append_right (Nat.le_of_not_lt hi)] at he
      have hsecond := hsnd.slots _ e he
      rwa [hfst.num, hslot, hring, Nat.add_sub_cancel' (Nat.le_of_not_lt hi)] at hsecond
  · rw [List.length_append] at hout
    rw [hothers j hj fun k hk => hout _ (by omega), hfst.others j hj fun k hk => hout k (by omega)]
  · rw [hsnd.lastUsedIdx, hfst.lastUsedIdx, List.length_append, Nat.mod_add_mod, add_assoc]

/-- Any other batch goes on at the start of the ring with its second chunk. -/
lemma virtqAddUsedChunks_stored (h : vq.UsedOk) (hfits : ∀ e ∈ heads, e.Fits)
    (hle : heads.length ≤ vq.num) : Stored vq m heads (virtqAddUsedChunks vq heads m) := by
  have hstart := Nat.mod_lt vq.lastUsedIdx h.num_pos
  have hn : sub32 vq.num (vq.lastUsedIdx % vq.num) = vq.num - vq.lastUsedIdx % vq.num := by
    have := h.num_le
    unfold sub32
    omega
  rw [virtqAddUsedChunks]
  dsimp only
  rw [h.usedStart, hn]
  generalize hroom : vq.num - vq.lastUsedIdx % vq.num = n
  by_cases hsplit : n < heads.length
  swap
  · rw [if_neg hsplit]
    exact virtqAddUsedChunk_stored h hfits (by omega)
  rw [if_pos hsplit]
  have htake : (heads.take n).length = n := List.length_take_of_le hsplit.le
  have hdrop : (heads.drop n).length = heads.length - n := List.length_drop
  have hfst := @virtqAddUsedChunk_stored vq m (heads.take n) h
    (fun e he => hfits e (List.mem_of_mem_take he)) (by omega)
  generalize virtqAddUsedChunk vq (heads.take n) m = r at hfst
  have hzero : r.1.lastUsedIdx % r.1.num = 0 := by
    have hmod := h.mod_mod (vq.lastUsedIdx + n) 0
    have hfull : vq.lastUsedIdx + n = vq.num * (vq.lastUsedIdx / vq.num + 1) := by
      have := Nat.div_add_mod vq.lastUsedIdx vq.num
      rw [Nat.mul_succ]
      omega
    rw [add_zero, add_zero] at hmod
    rw [hfst.lastUsedIdx, hfst.num, htake, hmod, hfull, Nat.mul_mod_right]
  have hsnd := @virtqAddUsedChunk_stored r.1 r.2 (heads.drop n) (hfst.usedOk h)
    (fun e he => hfits e (List.mem_of_mem_drop he)) (by rw [hzero, hfst.num]; omega)
  have happend := hfst.append h hsnd (by omega)
  rwa [List.take_append_drop] at happend

/-- The index is behind the flags and before the slots. -/
lemma virtqAddUsedN_published (h : vq.UsedOk) (hfits : ∀ e ∈ heads, e.Fits)
    (hle : heads.length ≤ vq.num) :
    Published vq m heads (virtqAddUsedN vq heads m).1 (virtqAddUsedN vq heads m).2 ∧
      (virtqAddUsedN vq heads m).1.UsedOk ∧ (virtqAddUsedN vq heads m).1.num = vq.num := by
  have hstored := @virtqAddUsedChunks_stored vq m heads h hfits hle
  have hidx : add64 vq.used 2 = vq.used + 2 := add64_of_lt (by have := h.used; omega)
  rw [virtqAddUsedN]
  dsimp only
  generalize virtqAddUsedChunks vq heads m = r at hstored
  have hok := hstored.usedOk h
  have hslot {j : ℕ} (hj : j < vq.num) :
      vq.usedRing (write r.2 2 (add64 vq.used 2) r.1.lastUsedIdx) j = vq.usedRing r.2 j := by
    rw [VirtQueue.usedRing, VirtQueue.usedRing, hidx, h.slot hj,
      read_write_of_disjoint _ _ (by omega), read_write_of_disjoint _ _ (by omega)]
  refine ⟨⟨fun i e he => ?_, fun j hj hout => ?_, hstored.lastUsedIdx, ?_⟩, hok, hstored.num⟩
  · rw [hslot (Nat.mod_lt _ h.num_pos)]
    exact hstored.slots i e he
  · rw [hslot hj]
    exact hstored.others j hj hout
  · rw [VirtQueue.usedRingIdx, read_write_self _ (hok.lastUsedIdx.trans_eq (by norm_num)),
      hstored.lastUsedIdx]

/-- The driver finds the batch behind the index that it has seen. -/
lemma Published.unread {vq' : VirtQueue} {m' : Bytes} (h : vq.UsedOk)
    (hp : Published vq m heads vq' m') (hle : heads.length ≤ vq.num) :
    vq.unread m' vq.lastUsedIdx = heads := by
  have hcount : sub32 (vq.usedRingIdx m') vq.lastUsedIdx % 2 ^ 16 = heads.length := by
    have hmod := sub32_mod_mod (Nat.le_add_right vq.lastUsedIdx heads.length)
    rw [Nat.mod_eq_of_lt h.lastUsedIdx, Nat.add_sub_cancel_left] at hmod
    rw [hp.idx, hmod, Nat.mod_eq_of_lt (by have := h.num_le; omega)]
  rw [VirtQueue.unread, hcount]
  refine List.ext_getElem? fun i => ?_
  by_cases hi : i < heads.length
  · rw [List.getElem?_map, List.getElem?_range hi, Option.map_some,
      hp.slots i heads[i] (List.getElem?_eq_getElem hi), List.getElem?_eq_getElem hi]
  · rw [List.getElem?_eq_none (by rw [List.length_map, List.length_range]; omega),
      List.getElem?_eq_none (by omega)]

end Batch

/-- A batch that the driver can take: not empty, and not larger than the ring -/
structure VirtQueue.BatchOk (vq : VirtQueue) (heads : List VringUsedElem) : Prop where
  fits : ∀ e ∈ heads, e.Fits
  pos : 1 ≤ heads.length
  le : heads.length ≤ vq.num

instance (e : VringUsedElem) : Decidable e.Fits :=
  decidable_of_iff (e.id < 2 ^ 32 ∧ e.len < 2 ^ 32) ⟨fun h => ⟨h.1, h.2⟩, fun h => ⟨h.id, h.len⟩⟩

instance (vq : VirtQueue) (heads : List VringUsedElem) : Decidable (vq.BatchOk heads) :=
  decidable_of_iff ((∀ e ∈ heads, e.Fits) ∧ 1 ≤ heads.length ∧ heads.length ≤ vq.num)
    ⟨fun h => ⟨h.1, h.2.1, h.2.2⟩, fun h => ⟨h.fits, h.pos, h.le⟩⟩

/-- Every batch goes into its slots and no others and moves the index on by its length, so that the
driver reads all batches once and in order. -/
theorem used_ring_published (vq : VirtQueue) (m : Bytes) (h : vq.UsedOk) :
    (∀ heads, vq.BatchOk heads →
      Published vq m heads (virtqAddUsedN vq heads m).1 (virtqAddUsedN vq heads m).2) ∧
    ∀ batches, (∀ heads ∈ batches, vq.BatchOk heads) →
      readBatches vq m batches = batches.flatten := by
  refine ⟨fun heads hb => (virtqAddUsedN_published h hb.fits hb.le).1, fun batches hall => ?_⟩
  induction batches generalizing vq m with
  | nil => rfl
  | cons heads batches ih =>
    obtain ⟨hb, hrest⟩ := List.forall_mem_cons.1 hall
    obtain ⟨hp, hok, hnum⟩ := virtqAddUsedN_published (m := m) h hb.fits hb.le
    rw [readBatches, List.flatten_cons, hp.unread h hb.le, ih _ _ hok fun b hmem => ?_]
    exact ⟨(hrest b hmem).fits, (hrest b hmem).pos, hnum.symm ▸ (hrest b hmem).le⟩

/-- A ring of two slots, in front of a wrap of the ring and of the index -/
def wrappingQueue : VirtQueue :=
  { ready := true, num := 2, iovecSize := 2, desc := 0, avail := 0, used := 0x2000,
    lastAvailIdx := 0, availIdx := 0, lastUsedIdx := 65535, usedFlags := 0, signalledUsed := 0,
    signalledUsedValid := 0, vqIndex := 0, iovec := fun _ => ⟨0, 0⟩, callback := none }

lemma wrappingQueue_usedOk : wrappingQueue.UsedOk :=
  ⟨⟨1, by decide, rfl⟩, by decide, by decide⟩

theorem used_ring_published_wrapping :
    Published wrappingQueue (fun _ => 0) [⟨1, 4⟩, ⟨0, 8⟩]
      (virtqAddUsedN wrappingQueue [⟨1, 4⟩, ⟨0, 8⟩] fun _ => 0).1
      (virtqAddUsedN wrappingQueue [⟨1, 4⟩, ⟨0, 8⟩] fun _ => 0).2 ∧
    readBatches wrappingQueue (fun _ => 0) [[⟨1, 4⟩, ⟨0, 8⟩], [⟨1, 2⟩]] =
      [⟨1, 4⟩, ⟨0, 8⟩, ⟨1, 2⟩] :=
  have h := used_ring_published wrappingQueue (fun _ => 0) wrappingQueue_usedOk
  ⟨h.1 _ (by decide), h.2 _ (by decide)⟩

/-! ### Notification -/

/-- `VRING_USED_F_NO_NOTIFY` is set in `flags`. -/
def NoNotify (flags : ℕ) : Prop := flags &&& VRING_USED_F_NO_NOTIFY ≠ 0

instance (flags : ℕ) : Decidable (NoNotify flags) := inferInstanceAs (Decidable (_ ≠ _))

/-- `vq->used->flags` -/
def VirtQueue.usedRingFlags (vq : VirtQueue) (m : Bytes) : ℕ := read m 2 vq.used

inductive NotifyCall where
  /-- `virtq_enable_notify` -/
  | enable
  /-- `virtq_disable_notify` -/
  | disable
deriving DecidableEq

def notifyStep (acked : ℕ) (s : VirtQueue × Bytes) : NotifyCall → VirtQueue × Bytes
  | .enable => (virtqEnableNotify acked s.1 s.2).2
  | .disable => virtqDisableNotify acked s.1 s.2

/-- The used ring with its event index does not wrap around the memory, and at first both copies of
the flags agree. -/
structure NotifyOk (vq : VirtQueue) (m : Bytes) : Prop where
  used : vq.used + (4 + 8 * vq.num) + 2 ≤ 2 ^ 64
  usedFlags : vq.usedFlags < 2 ^ 16
  agree : vq.usedRingFlags m = vq.usedFlags

/-- What the driver sees of the calls that lead from `s` to `s'`: without an event index the copies
agree, with one the flags are as they were. -/
def NotifyVisible (acked : ℕ) (s s' : VirtQueue × Bytes) : Prop :=
  if acked.testBit VIRTIO_RING_F_EVENT_IDX then s'.1.usedRingFlags s'.2 = s.1.usedRingFlags s.2
  else NoNotify (s'.1.usedRingFlags s'.2) ↔ NoNotify s'.1.usedFlags

instance (acked : ℕ) (s s' : VirtQueue × Bytes) : Decidable (NotifyVisible acked s s') :=
  inferInstanceAs (Decidable (ite _ (_ = _) (_ ↔ _)))

/-- With an event index nothing is disabled that is enabled. Without one the last call does not
disable, or the flag was set from the start. -/
def NotifyKept (acked : ℕ) (vq : VirtQueue) (calls : List NotifyCall) : Prop :=
  if acked.testBit VIRTIO_RING_F_EVENT_IDX then NoNotify vq.usedFlags ∨ .disable ∉ calls
  else calls.getLast? ≠ some .disable ∨ NoNotify vq.usedFlags ∧ .enable ∉ calls

/-- `flags` with `VRING_USED_F_NO_NOTIFY` set or cleared -/
def withNoNotify (flags : ℕ) (b : Bool) : ℕ := flags / 2 * 2 + b.toNat

/-- The flag in `vq->used_flags` after `calls` is that of the last one. -/
def cachedFlag (flags : ℕ) (calls : List NotifyCall) : Bool :=
  calls.getLast?.elim (decide (NoNotify flags)) (· = .disable)

/-- The flag in `vq->used->flags` after `calls`: nothing sets it without an event index, and nothing
clears it with one. -/
def sharedFlag (acked flags : ℕ) (calls : List NotifyCall) : Bool :=
  if acked.testBit VIRTIO_RING_F_EVENT_IDX then NoNotify flags ∨ .disable ∈ calls
  else NoNotify flags ∧ .enable ∉ calls

/-- Where the calls `calls` from `(vq, m)` have led. -/
structure Notified (acked : ℕ) (vq : VirtQueue) (calls : List NotifyCall) (s : VirtQueue × Bytes) :
    Prop where
  used : s.1.used = vq.used
  num : s.1.num = vq.num
  usedFlags : s.1.usedFlags = withNoNotify vq.usedFlags (cachedFlag vq.usedFlags calls)
  ringFlags : s.1.usedRingFlags s.2 =
    withNoNotify vq.usedFlags (sharedFlag acked vq.usedFlags calls)

section Notify

variable {acked flags : ℕ} {vq : VirtQueue} {m : Bytes} {s : VirtQueue × Bytes}
  {calls : List NotifyCall} {b c : Bool}

lemma noNotify_iff : NoNotify flags ↔ flags % 2 = 1 := by
  rw [NoNotify, VRING_USED_F_NO_NOTIFY, Nat.and_one_is_mod]
  omega

@[simp] lemma noNotify_with : NoNotify (withNoNotify flags b) ↔ b = true := by
  rw [noNotify_iff, withNoNotify]
  cases b <;> simp

lemma withNoNotify_self : withNoNotify flags (decide (NoNotify flags)) = flags := by
  rw [withNoNotify]
  by_cases h : NoNotify flags
  · rw [decide_eq_true h, Bool.toNat_true]
    rw [noNotify_iff] at h
    omega
  · rw [decide_eq_false h, Bool.toNat_false]
    rw [noNotify_iff] at h
    omega

lemma withNoNotify_eq_self : withNoNotify flags b = flags ↔ (b = true ↔ NoNotify flags) := by
  constructor
  · intro h
    rw [← @noNotify_with flags, h]
  · intro h
    have hb : b = decide (NoNotify flags) := by rw [Bool.eq_iff_iff, h, decide_eq_true_iff]
    rw [hb, withNoNotify_self]

lemma withNoNotify_lt (h : flags < 2 ^ 16) : withNoNotify flags b < 2 ^ 16 := by
  have hb := Bool.toNat_le b
  rw [withNoNotify]
  omega

lemma withNoNotify_clear (h : flags < 2 ^ 16) :
    withNoNotify flags b &&& (2 ^ 16 - 1 - VRING_USED_F_NO_NOTIFY) = withNoNotify flags false := by
  have hb := Bool.toNat_le b
  rw [show 2 ^ 16 - 1 - VRING_USED_F_NO_NOTIFY = 2 ^ 16 - 2 ^ 1 from rfl,
    BitField.and_compl_mask (withNoNotify_lt h) (by omega), withNoNotify, withNoNotify,
    Bool.toNat_false]
  omega

lemma or_one (n : ℕ) : n ||| 1 = n / 2 * 2 + 1 := by
  apply Nat.eq_of_testBit_eq
  intro i
  cases i with
  | zero => simp
  | succ i =>
    rw [Nat.testBit_or, Nat.testBit_succ, Nat.testBit_succ, Nat.testBit_succ]
    simp only [Nat.reduceDiv, Nat.zero_testBit, Bool.or_false]
    congr 1
    omega

lemma withNoNotify_set : withNoNotify flags b ||| VRING_USED_F_NO_NOTIFY =
    withNoNotify flags true := by
  have hb := Bool.toNat_le b
  rw [VRING_USED_F_NO_NOTIFY, or_one, withNoNotify, withNoNotify, Bool.toNat_true]
  omega

lemma cachedFlag_append (e : NotifyCall) :
    cachedFlag flags (calls ++ [e]) = decide (e = .disable) := by
  rw [cachedFlag, List.getLast?_concat]
  rfl

/-- What was never enabled is still disabled. -/
lemma cachedFlag_of_enable_notMem (hset : NoNotify flags) (h : .enable ∉ calls) :
    cachedFlag flags calls = true := by
  cases hlast : calls.getLast? with
  | none =>
    rw [cachedFlag, hlast]
    exact decide_eq_true hset
  | some e =>
    rw [cachedFlag, hlast]
    cases e with
    | enable => exact absurd (List.mem_of_getLast? hlast) h
    | disable => rfl

lemma disable_mem_of_cachedFlag (h : cachedFlag flags calls = true) :
    NoNotify flags ∨ .disable ∈ calls := by
  cases hlast : calls.getLast? with
  | none =>
    rw [cachedFlag, hlast] at h
    exact Or.inl (of_decide_eq_true h)
  | some e =>
    rw [cachedFlag, hlast] at h
    obtain rfl : e = .disable := of_decide_eq_true h
    exact Or.inr (List.mem_of_getLast? hlast)

/-- `virtq_enable_notify` clears the flag in `vq`, and without an event index in the ring. -/
lemma Notified.enable (hok : NotifyOk vq m) (h : Notified acked vq calls s) :
    Notified acked vq (calls ++ [.enable]) (notifyStep acked s .enable) := by
  have hcached : cachedFlag vq.usedFlags (calls ++ [.enable]) = false := cachedFlag_append _
  have hshared (hidx : acked.testBit VIRTIO_RING_F_EVENT_IDX = true) :
      sharedFlag acked vq.usedFlags (calls ++ [.enable]) = sharedFlag acked vq.usedFlags calls := by
    simp [sharedFlag, hidx]
  have hclear (hidx : ¬ acked.testBit VIRTIO_RING_F_EVENT_IDX = true) :
      sharedFlag acked vq.usedFlags (calls ++ [.enable]) = false := by
    simp [sharedFlag, hidx]
  by_cases hset : NoNotify s.1.usedFlags
  swap
  · have hstep : notifyStep acked s .enable = s := by
      rw [notifyStep, virtqEnableNotify, if_pos (not_not.1 hset)]
    rw [hstep]
    rw [h.usedFlags, noNotify_with, Bool.not_eq_true] at hset
    refine ⟨h.used, h.num, by rw [h.usedFlags, hset, hcached], ?_⟩
    rw [h.ringFlags]
    by_cases hidx : acked.testBit VIRTIO_RING_F_EVENT_IDX = true
    · rw [hshared hidx]
    · rw [hclear hidx]
      congr 1
      rw [sharedFlag, if_neg hidx, decide_eq_false_iff_not]
      rintro ⟨hset', hmem⟩
      rw [cachedFlag_of_enable_notMem hset' hmem] at hset
      cases hset
  · have hflags : s.1.usedFlags &&& (2 ^ 16 - 1 - VRING_USED_F_NO_NOTIFY) =
        withNoNotify vq.usedFlags false := by
      rw [h.usedFlags, withNoNotify_clear hok.usedFlags]
    rw [notifyStep, virtqEnableNotify, if_neg hset]
    refine ⟨h.used, h.num, by rw [hcached]; exact hflags, ?_⟩
    dsimp only
    by_cases hidx : acked.testBit VIRTIO_RING_F_EVENT_IDX = true
    · -- the event index is behind the ring
      have hevent : add64 s.1.used (4 + 8 * s.1.num) = s.1.used + (4 + 8 * s.1.num) := by
        rw [h.used, h.num]
        exact add64_of_lt (by have := hok.used; omega)
      rw [if_pos hidx, hshared hidx, ← h.ringFlags, virtqUpdateAvailEvent]
      dsimp only
      rw [hevent]
      exact read_write_of_disjoint _ _ (Or.inl (show s.1.used + 2 ≤ _ by omega))
    · rw [if_neg hidx, hclear hidx, virtqUpdateUsedFlags]
      dsimp only
      rw [hflags]
      exact read_write_self _ ((withNoNotify_lt hok.usedFlags).trans_eq (by norm_num))

/-- `virtq_disable_notify` sets the flag in `vq`, and with an event index in the ring. -/
lemma Notified.disable (hok : NotifyOk vq m) (h : Notified acked vq calls s) :
    Notified acked vq (calls ++ [.disable]) (notifyStep acked s .disable) := by
  have hcached : cachedFlag vq.usedFlags (calls ++ [.disable]) = true := cachedFlag_append _
  have hset' (hidx : acked.testBit VIRTIO_RING_F_EVENT_IDX = true) :
      sharedFlag acked vq.usedFlags (calls ++ [.disable]) = true := by
    simp [sharedFlag, hidx]
  have hshared (hidx : ¬ acked.testBit VIRTIO_RING_F_EVENT_IDX = true) :
      sharedFlag acked vq.usedFlags (calls ++ [.disable]) =
        sharedFlag acked vq.usedFlags calls := by
    simp [sharedFlag, hidx]
  by_cases hset : NoNotify s.1.usedFlags
  · have hstep : notifyStep acked s .disable = s := by
      rw [notifyStep, virtqDisableNotify, if_pos (id hset : _ ≠ _)]
    rw [hstep]
    rw [h.usedFlags, noNotify_with] at hset
    refine ⟨h.used, h.num, by rw [h.usedFlags, hset, hcached], ?_⟩
    rw [h.ringFlags]
    by_cases hidx : acked.testBit VIRTIO_RING_F_EVENT_IDX = true
    · rw [hset' hidx, sharedFlag, if_pos hidx, decide_eq_true (disable_mem_of_cachedFlag hset)]
    · rw [hshared hidx]
  · have hflags : s.1.usedFlags ||| VRING_USED_F_NO_NOTIFY = withNoNotify vq.usedFlags true := by
      rw [h.usedFlags, withNoNotify_set]
    rw [notifyStep, virtqDisableNotify, if_neg (id hset : ¬ _ ≠ _)]
    refine ⟨h.used, h.num, by rw [hcached]; exact hflags, ?_⟩
    dsimp only
    by_cases hidx : acked.testBit VIRTIO_RING_F_EVENT_IDX = true
    · rw [if_pos hidx, hset' hidx, virtqUpdateUsedFlags]
      dsimp only
      rw [hflags]
      exact read_write_self _ ((withNoNotify_lt hok.usedFlags).trans_eq (by norm_num))
    · rw [if_neg hidx, hshared hidx, ← h.ringFlags]
      rfl

lemma notified_exec (hok : NotifyOk vq m) (calls : List NotifyCall) :
    Notified acked vq calls (exec (notifyStep acked) (vq, m) calls) := by
  induction calls using List.reverseRecOn with
  | nil =>
    refine ⟨rfl, rfl, withNoNotify_self.symm, ?_⟩
    have hflag : sharedFlag acked vq.usedFlags [] = decide (NoNotify vq.usedFlags) := by
      simp [sharedFlag]
    rw [exec_nil, hok.agree, hflag, withNoNotify_self]
  | append_singleton calls e ih =>
    rw [exec_append, exec_cons, exec_nil]
    cases e with
    | enable => exact ih.enable hok
    | disable => exact ih.disable hok

end Notify

/-- After every sequence of calls the flag in `vq` is that of the last call, and the driver sees it
exactly when no flag was set that nothing clears again. -/
theorem notification_visible_iff (acked : ℕ) (vq : VirtQueue) (m : Bytes) (hok : NotifyOk vq m)
    (calls : List NotifyCall) :
    let s := exec (notifyStep acked) (vq, m) calls
    (NoNotify s.1.usedFlags ↔ calls.getLast? = some .disable ∨ calls = [] ∧ NoNotify vq.usedFlags) ∧
      (NotifyVisible acked (vq, m) s ↔ NotifyKept acked vq calls) := by
  intro s
  obtain ⟨-, -, hcached, hshared⟩ := @notified_exec acked vq m hok calls
  have hflag : NoNotify s.1.usedFlags ↔ cachedFlag vq.usedFlags calls = true := by
    rw [hcached, noNotify_with]
  have hlast : cachedFlag vq.usedFlags calls = true ↔
      calls.getLast? = some .disable ∨ calls = [] ∧ NoNotify vq.usedFlags := by
    cases h : calls.getLast? with
    | none => simp [cachedFlag, List.getLast?_eq_none_iff.1 h]
    | some e =>
      have hne : calls ≠ [] := by
        rintro rfl
        cases h
      simp [cachedFlag, h, hne]
  refine ⟨hflag.trans hlast, ?_⟩
  rw [NotifyVisible, NotifyKept]
  by_cases hidx : acked.testBit VIRTIO_RING_F_EVENT_IDX = true
  · rw [if_pos hidx, if_pos hidx, hshared, hok.agree, withNoNotify_eq_self, sharedFlag, if_pos hidx,
      decide_eq_true_iff]
    exact or_iff_left_iff_imp.trans imp_iff_or_not
  · rw [if_neg hidx, if_neg hidx, hflag, hshared, noNotify_with, sharedFlag, if_neg hidx,
      decide_eq_true_iff, hlast]
    have hkept : NoNotify vq.usedFlags ∧ .enable ∉ calls →
        calls.getLast? = some .disable ∨ calls = [] ∧ NoNotify vq.usedFlags := fun h =>
      hlast.1 (cachedFlag_of_enable_notMem h.1 h.2)
    constructor
    · intro h
      by_cases hdis : calls.getLast? = some .disable
      · exact Or.inr (h.2 (Or.inl hdis))
      · exact Or.inl hdis
    · refine fun h => ⟨hkept, ?_⟩
      rintro (hdis | ⟨rfl, hset⟩)
      · exact h.resolve_left (not_not.2 hdis)
      · exact ⟨hset, List.not_mem_nil⟩

/-- The driver has set up its ring, and nothing was disabled yet. -/
lemma wrappingQueue_notifyOk : NotifyOk wrappingQueue fun _ => 0 :=
  ⟨by decide, by decide, by decide +kernel⟩

theorem notification_visible_fresh :
    let s := exec (notifyStep 0) (wrappingQueue, fun _ => 0) [.disable, .enable]
    (NoNotify s.1.usedFlags ↔ [NotifyCall.disable, .enable].getLast? = some .disable ∨
      [NotifyCall.disable, .enable] = [] ∧ NoNotify wrappingQueue.usedFlags) ∧
    (NotifyVisible 0 (wrappingQueue, fun _ => 0) s ↔
      NotifyKept 0 wrappingQueue [.disable, .enable]) :=
  notification_visible_iff 0 wrappingQueue _ wrappingQueue_notifyOk _

/-- Without an event index the driver goes on notifying, and with one the flag reaches it. -/
theorem notification_not_visible :
    let m : Bytes := fun _ => 0
    let acked := 2 ^ VIRTIO_RING_F_EVENT_IDX
    NotifyOk wrappingQueue m ∧
    ¬ NotifyVisible 0 (wrappingQueue, m) (exec (notifyStep 0) (wrappingQueue, m) [.disable]) ∧
    ¬ NotifyVisible acked (wrappingQueue, m)
      (exec (notifyStep acked) (wrappingQueue, m) [.disable]) :=
  ⟨wrappingQueue_notifyOk, by decide +kernel, by decide +kernel⟩

end Minos.Virtio
