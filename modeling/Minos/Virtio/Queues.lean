import Mathlib
import Minos.Lib.Run
import Minos.Virtio.Window
import Minos.Virtio.Backend

/-!
# Queue numbers and queue sizes from the guest

The guest names a queue when it notifies the device, and gives a queue its size. Both go from the
emulated register through a trap to the backend, which uses them for its arrays: `vqs` has `nr_vq`
queues, and `ios` has `VIRTIO_BLK_RINGSZ` requests, one for each head of a chain.

`virtio_queue_event` lets the number `nr_vq` pass, and nobody compares the size of a queue with
`VIRTIO_BLK_RINGSZ`. In a run without the one and the other all accesses are inside the arrays.
-/

namespace Minos.Virtio

open ByteMem Run

/-- The window and the traps of one block device, and its backend. -/
structure BlkSystem where
  mmio : MmioState
  blk : VirtioBlk

/-- What happens to a block device: the guest writes a register, the backend handles one of the
traps in flight, blockif completes a request, or the VM is reset. -/
inductive BlkEvent where
  | write (off : Fin VIRTIO_DEVICE_IOMEM_SIZE) (value : ℕ)
  | handle (k : ℕ) (env : Env) (fuel : ℕ)
  | done (idx err : ℕ)
  | reset

/-- The register that a trap is for. -/
def Trap.offset (t : Trap) (d : Vdev) : ℕ := sub64 t.addr d.gvmPaddr

namespace BlkSystem

def step (d : Vdev) (s : BlkSystem) : BlkEvent → BlkSystem
  | .write off value => { s with mmio := virtioMmioWrite d (d.gvmPaddr + off) value s.mmio }
  | .handle k env fuel =>
    match s.mmio.traps[k]? with
    | none => s
    | some t =>
      if s.blk.aborted then s
      else
        { mmio := { s.mmio with traps := s.mmio.traps.eraseIdx k }
          blk := mvmMmioWrite env fuel (s.mmio.reg d) s.blk (t.offset d) t.value }
  | .done idx err =>
    if s.blk.aborted ∨ idx ∉ s.blk.pending then s
    else { s with blk := virtioBlkDone { s.blk with pending := s.blk.pending.erase idx } idx err }
  | .reset => { s with blk := virtioDeviceReset s.blk }

/-- The guest notifies no queue with the number `nr_vq`, and a queue has at most
`VIRTIO_BLK_RINGSZ` entries when it is made ready. -/
def QueuesInRange (d : Vdev) (s : BlkSystem) : BlkEvent → Prop
  | .write off value => (off : ℕ) = VIRTIO_MMIO_QUEUE_NOTIFY → value % 2 ^ 32 ≠ s.blk.dev.nrVq
  | .handle k _ _ => ∀ t ∈ s.mmio.traps[k]?, t.offset d = VIRTIO_MMIO_QUEUE_READY →
      s.mmio.reg d VIRTIO_MMIO_QUEUE_NUM ≤ VIRTIO_BLK_RINGSZ
  | .done _ _ => True
  | .reset => True

instance (d : Vdev) (s : BlkSystem) : (e : BlkEvent) → Decidable (s.QueuesInRange d e)
  | .write _ _ => inferInstanceAs (Decidable (_ → _))
  | .handle _ _ _ => inferInstanceAs (Decidable (∀ _ ∈ _, _))
  | .done _ _ => inferInstanceAs (Decidable True)
  | .reset => inferInstanceAs (Decidable True)

end BlkSystem

/-- An access is inside its array. -/
def ArrayAccess.InBounds (nrVq : ℕ) : ArrayAccess → Prop
  | .vqs i => i < nrVq
  | .ios i => i < VIRTIO_BLK_RINGSZ

instance (nrVq : ℕ) : (x : ArrayAccess) → Decidable (x.InBounds nrVq)
  | .vqs i => inferInstanceAs (Decidable (i < nrVq))
  | .ios i => inferInstanceAs (Decidable (i < VIRTIO_BLK_RINGSZ))

/-! ### What the functions of the backend leave alone -/

/-- The two fields of a queue that bound the accesses. -/
def VirtQueue.Same (vq vq' : VirtQueue) : Prop := vq'.num = vq.num ∧ vq'.ready = vq.ready

lemma virtqGetDescs_same (vm : MvmVm) (m : Bytes) (vq : VirtQueue) (iov : ℕ → Iovec)
    (iovSize inNum outNum : ℕ) :
    vq.Same (virtqGetDescs vm m vq iov iovSize inNum outNum).2.1 := by
  obtain ⟨avail, last, h⟩ := virtqGetDescs_vq vq m vm iov iovSize inNum outNum
  rw [h]
  exact ⟨rfl, rfl⟩

lemma virtqEnableNotify_same (acked : ℕ) (vq : VirtQueue) (m : Bytes) :
    vq.Same (virtqEnableNotify acked vq m).2.1 := by
  obtain ⟨flags, h⟩ := virtqEnableNotify_vq acked vq m
  rw [h]
  exact ⟨rfl, rfl⟩

lemma virtqDisableNotify_same (acked : ℕ) (vq : VirtQueue) (m : Bytes) :
    vq.Same (virtqDisableNotify acked vq m).1 := by
  obtain ⟨flags, h⟩ := virtqDisableNotify_vq acked vq m
  rw [h]
  exact ⟨rfl, rfl⟩

lemma VirtQueue.Same.trans {vq vq₁ vq₂ : VirtQueue} (h₁ : vq.Same vq₁) (h₂ : vq₁.Same vq₂) :
    vq.Same vq₂ := ⟨h₂.1.trans h₁.1, h₂.2.trans h₁.2⟩

lemma VirtQueue.Same.setIovec {vq vq₁ : VirtQueue} (h : vq.Same vq₁) (iovec : ℕ → Iovec) :
    vq.Same (vq₁.setIovec iovec) := h

lemma virtqAddUsedChunk_same (vq : VirtQueue) (heads : List VringUsedElem) (m : Bytes) :
    vq.Same (virtqAddUsedChunk vq heads m).1 := by
  obtain ⟨last, valid, h⟩ := virtqAddUsedChunk_vq vq m heads
  rw [h]
  exact ⟨rfl, rfl⟩

lemma virtqAddUsedChunks_same (vq : VirtQueue) (heads : List VringUsedElem) (m : Bytes) :
    vq.Same (virtqAddUsedChunks vq heads m).1 := by
  rw [virtqAddUsedChunks]
  split_ifs
  · exact (virtqAddUsedChunk_same _ _ _).trans (virtqAddUsedChunk_same _ _ _)
  · exact virtqAddUsedChunk_same _ _ _

lemma virtqAddUsedN_same (vq : VirtQueue) (heads : List VringUsedElem) (m : Bytes) :
    vq.Same (virtqAddUsedN vq heads m).1 := by
  rw [virtqAddUsedN, fst_mk]
  exact virtqAddUsedChunks_same vq heads m

lemma virtqNeedNotify_same (acked : ℕ) (vq : VirtQueue) (m : Bytes) :
    vq.Same (virtqNeedNotify acked vq m).2 := by
  obtain ⟨used, valid, h⟩ := virtqNeedNotify_vq acked vq m
  rw [h]
  exact ⟨rfl, rfl⟩

lemma virtqAddUsedAndSignal_same (acked : ℕ) (vq : VirtQueue) (head len : ℕ) (m : Bytes) :
    vq.Same (virtqAddUsedAndSignal acked vq head len m).2.1 := by
  rw [virtqAddUsedAndSignal, snd_mk, fst_mk]
  exact (virtqAddUsedN_same vq [⟨head, len⟩] m).trans (virtqNeedNotify_same acked _ _)

/-- A head that `virtq_get_descs` returns is below the size of the queue. -/
lemma virtqGetDescs_lt {vm : MvmVm} {m : Bytes} {vq : VirtQueue} {iov : ℕ → Iovec}
    {iovSize inNum outNum : ℕ} {r : ℤ}
    (hr : (virtqGetDescs vm m vq iov iovSize inNum outNum).1 = r) (h₀ : ¬ r < 0)
    (h₁ : r ≠ vq.num) : r.toNat < vq.num := by
  simp only [virtqGetDescs] at hr
  split_ifs at hr with hc hn hh hl
  · simp only [toInt32] at hr
    split_ifs at hr
    · exact absurd hr.symm h₁
    · omega
  · simp only [EINVAL] at hr
    omega
  · simp only [EINVAL] at hr
    omega
  · simp only at hr
    omega
  · simp only at hr
    omega

/-- From `b` to `b'` no queue gets another size or readiness, and all accesses are inside the
arrays. -/
structure Keeps (b b' : VirtioBlk) : Prop where
  nrVq : b'.dev.nrVq = b.dev.nrVq
  same : ∀ i, (b.dev.vqs i).Same (b'.dev.vqs i)
  log : ∀ x ∈ b'.log, x ∈ b.log ∨ x.InBounds b.dev.nrVq

namespace Keeps

variable {b b₁ b₂ : VirtioBlk}

lemma refl (b : VirtioBlk) : Keeps b b := ⟨rfl, fun _ => ⟨rfl, rfl⟩, fun _ hx => Or.inl hx⟩

lemma trans (h₁ : Keeps b b₁) (h₂ : Keeps b₁ b₂) : Keeps b b₂ := by
  refine ⟨h₂.nrVq.trans h₁.nrVq, fun i => (h₁.same i).trans (h₂.same i), fun x hx => ?_⟩
  rcases h₂.log x hx with hx | hx
  · exact h₁.log x hx
  · exact Or.inr (h₁.nrVq ▸ hx)

lemma setVq (h : Keeps b b₁) {k : ℕ} {vq : VirtQueue} (hvq : (b₁.dev.vqs k).Same vq) :
    Keeps b (b₁.setVq k vq) := by
  refine ⟨h.nrVq, fun i => ?_, h.log⟩
  rcases eq_or_ne i k with rfl | hi
  · simpa [VirtioBlk.setVq] using (h.same i).trans hvq
  · simpa [VirtioBlk.setVq, hi] using h.same i

lemma note (h : Keeps b b₁) {x : ArrayAccess} (hx : x.InBounds b.dev.nrVq) :
    Keeps b (b₁.note x) := by
  refine ⟨h.nrVq, h.same, fun y hy => ?_⟩
  rcases List.mem_cons.mp hy with rfl | hy
  · exact Or.inr hx
  · exact h.log y hy

end Keeps

variable {b b₁ : VirtioBlk} {env : Env} {k : ℕ}

lemma Keeps.of_eq (hd : b₁.dev = b.dev) (hl : b₁.log = b.log) : Keeps b b₁ :=
  ⟨by rw [hd], fun i => by rw [hd]; exact ⟨rfl, rfl⟩, fun x hx => Or.inl (hl ▸ hx)⟩

lemma Keeps.setMem (h : Keeps b b₁) (m : Bytes) : Keeps b (b₁.setMem m) := h.trans (.of_eq rfl rfl)

lemma Keeps.setIo (h : Keeps b b₁) (idx : ℕ) (io : VirtioBlkIoreq) : Keeps b (b₁.setIo idx io) :=
  h.trans (.of_eq rfl rfl)

lemma Keeps.sendIrq (h : Keeps b b₁) (cond : Bool) : Keeps b (b₁.sendIrq cond) :=
  h.trans (.of_eq rfl rfl)

lemma Keeps.abort (h : Keeps b b₁) : Keeps b b₁.abort := h.trans (.of_eq rfl rfl)

lemma Keeps.submit (h : Keeps b b₁) (idx : ℕ) (accept : Bool) : Keeps b (b₁.submit idx accept) := by
  unfold VirtioBlk.submit
  split_ifs
  · exact h.trans (.of_eq rfl rfl)
  · exact h.trans (.of_eq rfl rfl)

/-! ### The block device -/

lemma Keeps.blkDone (h : Keeps b b₁) (hn : 0 < b.dev.nrVq) (idx err : ℕ) :
    Keeps b (virtioBlkDone b₁ idx err) := by
  rw [virtioBlkDone]
  exact (((h.note (x := .vqs 0) hn).setVq (virtqAddUsedAndSignal_same _ _ _ _ _)).setMem
    _).sendIrq _

lemma Keeps.blkProc (h : Keeps b b₁) (hn : 0 < b.dev.nrVq) {idx : ℕ}
    (hidx : idx < VIRTIO_BLK_RINGSZ) (n : ℕ) (accept : Bool) :
    Keeps b (virtioBlkProc b₁ k idx n accept) := by
  have h₁ : Keeps b (b₁.note (.ios idx)) := h.note hidx
  simp only [virtioBlkProc]
  split_ifs
  · exact h
  · exact h₁
  · exact (h₁.setIo _ _).abort
  · split
    · exact (h₁.setIo _ _).submit _ _
    · exact (h₁.setIo _ _).submit _ _
    · exact (h₁.setIo _ _).submit _ _
    · exact (h₁.setIo _ _).submit _ _
    · exact ((h₁.setIo _ _).setMem _).blkDone hn _ _
    · exact (h₁.setIo _ _).blkDone hn _ _

lemma Keeps.getDescs (h : Keeps b b₁) (k : ℕ) : Keeps b (b₁.getDescs k).blk := by
  rw [VirtioBlk.getDescs]
  exact h.setVq ((virtqGetDescs_same _ _ _ _ _ _ _).setIovec _)

lemma getDescs_ret_lt (h₀ : ¬ (b.getDescs k).ret < 0)
    (h₁ : (b.getDescs k).ret ≠ (b.dev.vqs k).num) :
    (b.getDescs k).ret.toNat < (b.dev.vqs k).num := by
  have hr : (b.getDescs k).ret = (virtqGetDescs b.vm b.mem (b.dev.vqs k) (b.dev.vqs k).iovec
      (b.dev.vqs k).iovecSize 0 0).1 := by
    rw [VirtioBlk.getDescs]
  exact virtqGetDescs_lt hr.symm h₀ h₁

lemma Keeps.enableNotify (h : Keeps b b₁) (k : ℕ) : Keeps b (b₁.enableNotify k).2 := by
  rw [VirtioBlk.enableNotify, snd_mk]
  exact (h.setVq (virtqEnableNotify_same _ _ _)).setMem _

lemma Keeps.disableNotify (h : Keeps b b₁) (k : ℕ) : Keeps b (b₁.disableNotify k) := by
  rw [VirtioBlk.disableNotify]
  exact (h.setVq (virtqDisableNotify_same _ _ _)).setMem _

/-- The head of a chain is below the size of the queue, so it is the number of a request. -/
lemma Keeps.blkChain (h : Keeps b b₁) (hn : 0 < b.dev.nrVq)
    (hnum : (b.dev.vqs k).num ≤ VIRTIO_BLK_RINGSZ) (hneg : ¬ (b₁.getDescs k).ret < 0)
    (hempty : (b₁.getDescs k).ret ≠ (b₁.dev.vqs k).num) (n : ℕ) (accept : Bool) :
    Keeps b
      (virtioBlkProc (b₁.getDescs k).blk k ((b₁.getDescs k).ret.toNat % 2 ^ 16) n accept) := by
  have hlt := getDescs_ret_lt hneg hempty
  rw [(h.same k).1] at hlt
  exact (h.getDescs k).blkProc hn (lt_of_le_of_lt (Nat.mod_le _ _) (hlt.trans_le hnum)) n accept

/-- The loop keeps within the arrays as long as the size of its queue is at most that of `ios`. -/
lemma virtioBlkNotifyLoop_keeps (hn : 0 < b.dev.nrVq)
    (hnum : (b.dev.vqs k).num ≤ VIRTIO_BLK_RINGSZ) (fuel t : ℕ) {b₁ : VirtioBlk} (h : Keeps b b₁) :
    Keeps b (virtioBlkNotifyLoop env k fuel t b₁) := by
  induction fuel generalizing t b₁ with
  | zero => exact h
  | succ fuel ih =>
    simp only [virtioBlkNotifyLoop]
    have h₂ := (h.setMem (env.guest t b₁.mem)).setMem
      (env.guest (t + 1) (b₁.setMem (env.guest t b₁.mem)).mem)
    split_ifs with hdescs hneg hempty hmore hin habort
    · exact h₂.getDescs k
    · exact ih _ ((((h₂.getDescs k).setMem _).enableNotify k).disableNotify k)
    · exact ((h₂.getDescs k).setMem _).enableNotify k
    · exact h₂.getDescs k
    · exact h₂.blkChain hn hnum hneg hempty _ _
    · exact ih _ (h₂.blkChain hn hnum hneg hempty _ _)
    · exact h.setMem _

lemma virtioBlkNotify_keeps (env : Env) (hn : 0 < b.dev.nrVq)
    (hnum : (b.dev.vqs k).num ≤ VIRTIO_BLK_RINGSZ) (fuel : ℕ) :
    Keeps b (virtioBlkNotify env fuel k b) := by
  rw [virtioBlkNotify]
  exact virtioBlkNotifyLoop_keeps hn hnum fuel 0 ((Keeps.refl b).disableNotify k)

/-! ### Events -/

/-- The device has `n` queues, one of them that is ready has at most `VIRTIO_BLK_RINGSZ` entries,
and all accesses so far were inside the arrays. -/
structure BlkInv (n : ℕ) (b : VirtioBlk) : Prop where
  pos : 0 < n
  nrVq : b.dev.nrVq = n
  num_le : ∀ i < n, (b.dev.vqs i).ready = true → (b.dev.vqs i).num ≤ VIRTIO_BLK_RINGSZ
  log : ∀ x ∈ b.log, x.InBounds n

variable {n : ℕ}

lemma BlkInv.keeps (hb : BlkInv n b) (h : Keeps b b₁) : BlkInv n b₁ := by
  refine ⟨hb.pos, h.nrVq.trans hb.nrVq, fun i hi hr => ?_, fun x hx => ?_⟩
  · rw [(h.same i).1]
    exact hb.num_le i hi ((h.same i).2 ▸ hr)
  · rcases h.log x hx with hx | hx
    · exact hb.log x hx
    · exact hb.nrVq ▸ hx

/-- One queue is changed, and the access to it is noted. -/
lemma BlkInv.setVq (hb : BlkInv n b) {i : ℕ} (hi : i < n) (vq : VirtQueue)
    (hvq : vq.ready = true → vq.num ≤ VIRTIO_BLK_RINGSZ) :
    BlkInv n ((b.note (.vqs i)).setVq i vq) := by
  refine ⟨hb.pos, hb.nrVq, fun j hj hr => ?_, fun x hx => ?_⟩
  · rcases eq_or_ne j i with rfl | hne
    · simp only [VirtioBlk.setVq, VirtioBlk.note, Function.update_self] at hr ⊢
      exact hvq hr
    · simp only [VirtioBlk.setVq, VirtioBlk.note, Function.update_of_ne hne] at hr ⊢
      exact hb.num_le j hj hr
  · rcases List.mem_cons.mp hx with rfl | hx
    · exact hi
    · exact hb.log x hx

/-- A queue number other than `nr_vq` that passes the check is that of a queue. -/
lemma BlkInv.queueEvent (hb : BlkInv n b) {arg : ℕ} (harg : arg ≠ n) (fuel : ℕ) :
    BlkInv n (virtioQueueEvent env fuel b arg).2 := by
  rw [virtioQueueEvent]
  by_cases hlt : b.dev.nrVq < arg
  · rw [if_pos hlt]
    exact hb
  · rw [if_neg hlt]
    rw [hb.nrVq] at hlt
    have hin : arg < n := by omega
    have hnote := (Keeps.refl b).note (x := .vqs arg) (hb.nrVq ▸ hin)
    cases hc : (b.dev.vqs arg).callback with
    | none =>
      simp only [VirtioBlk.note, hc]
      exact hb.keeps hnote
    | some c =>
      simp only [VirtioBlk.note, hc]
      by_cases hready : (b.dev.vqs arg).ready = true
      · have hcall := virtioBlkNotify_keeps (b := b.note (.vqs arg)) (k := arg) env
          (hb.nrVq ▸ hb.pos) (hb.num_le arg hin hready) fuel
        simp only [hready, not_true_eq_false, if_false]
        exact hb.keeps (hnote.trans hcall)
      · simp only [hready]
        exact hb.keeps hnote

/-- A queue is made ready with at most `VIRTIO_BLK_RINGSZ` entries. -/
lemma BlkInv.bufferEvent (hb : BlkInv n b) {reg : ℕ → ℕ}
    (hreg : reg VIRTIO_MMIO_QUEUE_NUM ≤ VIRTIO_BLK_RINGSZ) (arg : ℕ) :
    BlkInv n (virtioBufferEvent reg b arg).2 := by
  rw [virtioBufferEvent]
  by_cases hle : b.dev.nrVq ≤ arg
  · rw [if_pos hle]
    exact hb
  · rw [if_neg hle]
    rw [hb.nrVq] at hle
    exact hb.setVq (not_le.mp hle) _ fun _ => by simpa [setupQueue] using hreg

lemma BlkInv.statusEvent (hb : BlkInv n b) (reg : ℕ → ℕ) (arg : ℕ) :
    BlkInv n (virtioStatusEvent reg b arg) := by
  rw [virtioStatusEvent]
  split_ifs
  · exact ⟨hb.pos, hb.nrVq, hb.num_le, hb.log⟩
  · exact hb

lemma BlkInv.mmioWrite (hb : BlkInv n b) {reg : ℕ → ℕ} {offset value : ℕ} (fuel : ℕ)
    (hready : offset = VIRTIO_MMIO_QUEUE_READY → reg VIRTIO_MMIO_QUEUE_NUM ≤ VIRTIO_BLK_RINGSZ)
    (hnotify : offset = VIRTIO_MMIO_QUEUE_NOTIFY → value % 2 ^ 32 ≠ n) :
    BlkInv n (mvmMmioWrite env fuel reg b offset value) := by
  simp only [mvmMmioWrite]
  split
  · exact hb.statusEvent reg _
  · exact hb.bufferEvent (hready rfl) _
  · exact hb.queueEvent (hnotify rfl) fuel
  · exact hb

lemma BlkInv.reset (hb : BlkInv n b) : BlkInv n (virtioDeviceReset b) := by
  rw [virtioDeviceReset, hb.nrVq]
  have hl : ∀ i ∈ List.range n, i < n := fun i hi => List.mem_range.mp hi
  generalize List.range n = l at hl
  induction l generalizing b with
  | nil => exact hb
  | cons i l ih =>
    have hone := hb.setVq (hl i List.mem_cons_self) (virtqReset (b.dev.vqs i))
      (by simp [virtqReset])
    exact ih hone fun j hj => hl j (List.mem_cons_of_mem i hj)

/-! ### Runs -/

variable {d : Vdev}

/-- The traps that the emulation of a write adds: at most one, for the register written, and for
`VIRTIO_MMIO_QUEUE_NOTIFY` with the value written. -/
lemma virtioMmioWrite_traps (s : MmioState) {off : ℕ} (hoff : off < 2 ^ 64) (value : ℕ) :
    ∀ t ∈ (virtioMmioWrite d (d.gvmPaddr + off) value s).traps, t ∈ s.traps ∨
      t.offset d = off ∧ (off = VIRTIO_MMIO_QUEUE_NOTIFY → t.value = value) := by
  have key : ∀ v, (off = VIRTIO_MMIO_QUEUE_NOTIFY → v = value) → ∀ (l : List Trap) (c : Bool),
      l = s.traps → ∀ t ∈ l ++ [⟨d.gvmPaddr + off, v, c⟩], t ∈ s.traps ∨
        t.offset d = off ∧ (off = VIRTIO_MMIO_QUEUE_NOTIFY → t.value = value) := by
    rintro v hv l c rfl t ht
    rcases List.mem_append.mp ht with ht | ht
    · exact Or.inl ht
    · obtain rfl := List.mem_singleton.mp ht
      exact Or.inr ⟨sub64_add_self _ hoff, hv⟩
  simp only [virtioMmioWrite, sub64_add_self _ hoff]
  split
  case h_2 =>
    split_ifs
    · exact fun t ht => Or.inl ht
    · exact fun t ht => Or.inl ht
  case h_10 => exact key _ (fun _ => rfl) _ _ rfl
  case h_11 => exact key _ (fun h => absurd h (by decide)) _ _ rfl
  case h_18 => exact key _ (fun h => absurd h (by decide)) _ _ rfl
  case h_20 => exact key _ (fun _ => rfl) _ _ rfl
  all_goals exact fun t ht => Or.inl ht

/-- The invariant of the whole device: no notification in flight is for queue number `n`. -/
structure BlkSystem.Inv (d : Vdev) (n : ℕ) (s : BlkSystem) : Prop where
  blk : BlkInv n s.blk
  traps : ∀ t ∈ s.mmio.traps, t.offset d = VIRTIO_MMIO_QUEUE_NOTIFY → t.value % 2 ^ 32 ≠ n

lemma BlkSystem.Inv.step {s : BlkSystem} {e : BlkEvent} (h : s.Inv d n)
    (hc : s.QueuesInRange d e) : (s.step d e).Inv d n := by
  cases e with
  | write off value =>
    rw [BlkSystem.step]
    refine ⟨h.blk, fun t ht hoff => ?_⟩
    rcases virtioMmioWrite_traps s.mmio (off.isLt.trans (by decide)) value t ht with ht | ⟨ho, hv⟩
    · exact h.traps t ht hoff
    · rw [hoff] at ho
      rw [hv ho.symm, ← h.blk.nrVq]
      exact hc ho.symm
  | handle k env fuel =>
    simp only [BlkSystem.step]
    split
    · exact h
    case h_2 t ht =>
      split_ifs
      · exact h
      · refine ⟨h.blk.mmioWrite fuel (hc t ht) (h.traps t (List.mem_of_getElem? ht)), ?_⟩
        exact fun u hu => h.traps u (List.mem_of_mem_eraseIdx hu)
  | done idx err =>
    simp only [BlkSystem.step]
    split_ifs
    · exact h
    · have hpend : Keeps s.blk { s.blk with pending := s.blk.pending.erase idx } := .of_eq rfl rfl
      exact ⟨h.blk.keeps (hpend.blkDone (h.blk.nrVq ▸ h.blk.pos) idx err), h.traps⟩
  | reset => exact ⟨h.blk.reset, h.traps⟩

/-- A device as `virtio_device_init` leaves it: with queues that are not ready, and nothing in
flight. -/
structure BlkSystem.Initial (s : BlkSystem) : Prop where
  nrVq_pos : 0 < s.blk.dev.nrVq
  not_ready : ∀ i, (s.blk.dev.vqs i).ready = false
  traps : s.mmio.traps = []
  log : s.blk.log = []

/-- In every run that notifies no queue `nr_vq` and makes no queue with more than
`VIRTIO_BLK_RINGSZ` entries ready, all accesses are inside the arrays. -/
theorem virtio_run_in_bounds {s : BlkSystem} (hs : s.Initial) (es : List BlkEvent)
    (hc : Along (BlkSystem.step d) (BlkSystem.QueuesInRange d) s es) :
    ∀ x ∈ (exec (BlkSystem.step d) s es).blk.log, x.InBounds s.blk.dev.nrVq := by
  have hinit : s.Inv d s.blk.dev.nrVq := by
    refine ⟨⟨hs.nrVq_pos, rfl, fun i _ hr => ?_, fun x hx => ?_⟩, fun t ht => ?_⟩
    · rw [hs.not_ready i] at hr
      contradiction
    · simp [hs.log] at hx
    · simp [hs.traps] at ht
  exact (exec_induction (fun s e h hc => BlkSystem.Inv.step h hc) hinit hc).blk.log

lemma mmap_64MiB_lt : 0x10000000 + 0x4000000 < 2 ^ 64 := by decide

lemma ram_64MiB_lt : 0x80000000 + 0x4000000 < 2 ^ 64 := by decide

/-- A fresh block device with one queue; the guest has 64MiB at `0x80000000`. -/
def freshBlk : BlkSystem where
  mmio := ⟨⟨fun _ => 0, []⟩, []⟩
  blk :=
    { vm := ⟨0x10000000, 0x80000000, 0x4000000, mmap_64MiB_lt, ram_64MiB_lt⟩
      dev :=
        { nrVq := 1
          vqs := fun _ =>
            { ready := false, num := 0, iovecSize := VIRTIO_BLK_IOVSZ, desc := 0, avail := 0,
              used := 0, lastAvailIdx := 0, availIdx := 0, lastUsedIdx := 0, usedFlags := 0,
              signalledUsed := 0, signalledUsedValid := 0, vqIndex := 0, iovec := fun _ => ⟨0, 0⟩,
              callback := none }
          ackedFeatures := 0 }
      ident := []
      ios := fun _ => ⟨[], 0, 0, 0, 0⟩
      mem := fun _ => 0
      pending := []
      irqs := 0
      aborted := false
      log := [] }

def blkVdev : Vdev := ⟨0x40000000, 0x80000000⟩

def blkWrite (off : ℕ) (value : ℕ) (h : off < VIRTIO_DEVICE_IOMEM_SIZE) : BlkEvent :=
  .write ⟨off, h⟩ value

/-- Descriptors 64 and 65 are a chain, and 64 is the only head in the avail ring. -/
def ringOf64 : Bytes := fun a =>
  if a = 0x1000040c then 1 else if a = 0x1000040e then 65 else if a = 0x10001002 then 1
  else if a = 0x10001004 then 64 else 0

/-- Set up queue 0 with `num` entries and notify queue `q`. -/
def setupAndNotify (num q : ℕ) : List BlkEvent :=
  let env : Env := ⟨fun _ _ => ringOf64, fun _ => true⟩
  [blkWrite VIRTIO_MMIO_QUEUE_SEL 0 (by decide),
    blkWrite VIRTIO_MMIO_QUEUE_NUM num (by decide),
    blkWrite VIRTIO_MMIO_QUEUE_DESC_LOW 0x80000000 (by decide),
    blkWrite VIRTIO_MMIO_QUEUE_AVAIL_LOW 0x80001000 (by decide),
    blkWrite VIRTIO_MMIO_QUEUE_USED_LOW 0x80002000 (by decide),
    blkWrite VIRTIO_MMIO_QUEUE_READY 1 (by decide), .handle 0 env 4,
    blkWrite VIRTIO_MMIO_QUEUE_NOTIFY q (by decide), .handle 0 env 4]

lemma freshBlk_initial : freshBlk.Initial :=
  ⟨by decide, fun _ => rfl, rfl, rfl⟩

theorem virtio_run_in_bounds_64_entries :
    freshBlk.Initial ∧
      ∀ x ∈ (exec (BlkSystem.step blkVdev) freshBlk (setupAndNotify 64 0)).blk.log,
        x.InBounds 1 := by
  refine ⟨freshBlk_initial, ?_⟩
  exact virtio_run_in_bounds freshBlk_initial _ (by decide +kernel)

/-- The notification of queue 1 of 1, and a queue with 128 entries whose head 64 is taken. -/
theorem virtio_run_leaves_arrays :
    ¬ (∀ x ∈ (exec (BlkSystem.step blkVdev) freshBlk (setupAndNotify 64 1)).blk.log,
      x.InBounds 1) ∧
    ArrayAccess.ios 64 ∈
      (exec (BlkSystem.step blkVdev) freshBlk (setupAndNotify 128 0)).blk.log := by
  constructor
  · decide +kernel
  · decide +kernel

end Minos.Virtio
