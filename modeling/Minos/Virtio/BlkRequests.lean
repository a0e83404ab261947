import Mathlib
import Minos.Lib.Run
import Minos.Virtio.Confine
import Minos.Virtio.Queues

/-!
# The requests of a block device

`virtio_blk_notify` takes the requests from the ring one by one. Some are completed at once,
others go to blockif, which completes them later by a call of `virtio_blk_done`. A request is
completed when its head is in the used ring. What was completed is read off the ring here:
`newUsed` are the elements between two values of `last_used_idx`.
-/

namespace Minos.Virtio

open ByteMem Run

/-! ### The loop of `virtio_blk_notify` -/

/-- The three ends of the first part of a round: the loop is left, it goes on, or a request was
fetched. -/
inductive Look where
  | stop (blk : VirtioBlk)
  | again (blk : VirtioBlk)
  | request (r : Taken)

/-- The condition of the loop and the call of `virtq_get_descs` -/
def VirtioBlk.look (env : Env) (k t : ℕ) (b : VirtioBlk) : Look :=
  let b := b.setMem (env.guest t b.mem)
  if ¬ (b.dev.vqs k).hasDescs b.mem then .stop b
  else
    let b := b.setMem (env.guest (t + 1) b.mem)
    let r := b.getDescs k
    if r.ret < 0 then .stop r.blk
    else if r.ret = (b.dev.vqs k).num then
      let e := (r.blk.setMem (env.guest (t + 2) r.blk.mem)).enableNotify k
      if e.1 then .again (e.2.disableNotify k) else .stop e.2
    else .request r

/-- A round: the backend after it, the head that was fetched, and whether the loop goes on -/
structure Round where
  blk : VirtioBlk
  head : Option ℕ
  again : Bool

def VirtioBlk.round (env : Env) (k t : ℕ) (b : VirtioBlk) : Round :=
  match b.look env k t with
  | .stop b => ⟨b, none, false⟩
  | .again b => ⟨b, none, true⟩
  | .request r =>
    if r.inNum ≠ 0 then ⟨r.blk, some r.ret.toNat, false⟩
    else
      let b := virtioBlkProc r.blk k (r.ret.toNat % 2 ^ 16) r.outNum (env.accepts t)
      ⟨b, some r.ret.toNat, !b.aborted⟩

/-- The environment from the `t`-th look on -/
def Env.shift (env : Env) (t : ℕ) : Env :=
  ⟨fun i => env.guest (t + i), fun i => env.accepts (t + i)⟩

/-! ### The used ring -/

/-- The head in a slot of the used ring -/
def VirtQueue.usedElem (vq : VirtQueue) (i : ℕ) (m : Bytes) : ℕ :=
  read m 4 (add64 vq.used (4 + 8 * (i % 2 ^ 16 &&& sub32 vq.num 1)))

/-- The heads that came into the used ring from `b` to `b'` -/
def newUsed (b b' : VirtioBlk) : List ℕ :=
  let vq := b.dev.vqs 0
  (List.range (sub32 (b'.dev.vqs 0).lastUsedIdx vq.lastUsedIdx % 2 ^ 16)).map fun i =>
    vq.usedElem (vq.lastUsedIdx + i) b'.mem

/-! ### Runs -/

/-- A backend, the heads that `virtq_get_descs` has returned to it, and the heads that came into the
used ring. -/
structure BlkRun where
  blk : VirtioBlk
  fetched : List ℕ
  used : List ℕ

/-- A notification begins, its loop goes round once, blockif completes a request, or the guest
changes its memory. -/
inductive RequestEvent where
  | notify
  | round (env : Env)
  | done (idx err : ℕ)
  | guest (mem : Bytes)

namespace BlkRun

def moveTo (s : BlkRun) (b : VirtioBlk) (head : Option ℕ) : BlkRun :=
  ⟨b, head.toList ++ s.fetched, newUsed s.blk b ++ s.used⟩

/-- A process that has aborted does nothing, and blockif calls back once for each request. -/
def step (s : BlkRun) (e : RequestEvent) : BlkRun :=
  if s.blk.aborted then s
  else match e with
    | .notify => s.moveTo (s.blk.disableNotify 0) none
    | .round env => s.moveTo (s.blk.round env 0 0).blk (s.blk.round env 0 0).head
    | .done idx err =>
      if idx ∈ s.blk.pending then
        s.moveTo (virtioBlkDone { s.blk with pending := s.blk.pending.erase idx } idx err) none
      else s
    | .guest mem => s.moveTo (s.blk.setMem mem) none

/-- Every head was completed as often as it was fetched, or blockif still has the rest; the process
runs, and every request was in its own slot. -/
structure Accounted (s : BlkRun) : Prop where
  count : ∀ h, s.fetched.count h = s.used.count h + s.blk.pending.count h
  alive : s.blk.aborted = false
  slots : ∀ i, ArrayAccess.ios i ∈ s.blk.log → i < VIRTIO_BLK_RINGSZ

/-- After an event all heads are accounted for, and the guest can see what came into the ring. -/
structure Completes (s s' : BlkRun) : Prop where
  accounted : s'.Accounted
  published : newUsed s.blk s'.blk ≠ [] →
    (s'.blk.dev.vqs 0).usedRingIdx s'.blk.mem = (s'.blk.dev.vqs 0).lastUsedIdx

end BlkRun

/-- The operation that the header of a request asks for -/
def VirtioBlk.op (b : VirtioBlk) : ℕ :=
  read b.mem 4 ((b.dev.vqs 0).iovec 0).iovBase &&& (2 ^ 32 - 1 - VBH_FLAG_BARRIER)

/-- The operations that blockif does -/
def blockifOps : List ℕ := [VBH_OP_READ, VBH_OP_WRITE, VBH_OP_FLUSH, VBH_OP_FLUSH_OUT]

/-- The `n` descriptors of a request are a header, up to `BLOCKIF_IOV_MAX` buffers and a status, and
blockif takes the request if it is for blockif. -/
structure VirtioBlk.Serves (b : VirtioBlk) (n : ℕ) (accept : Bool) : Prop where
  two_le : 2 ≤ n
  le_max : n ≤ BLOCKIF_IOV_MAX + 2
  header : ((b.dev.vqs 0).iovec 0).iovLen = 16
  status : ((b.dev.vqs 0).iovec (n - 1)).iovLen = 1
  accepted : b.op ∈ blockifOps → accept = true

/-- A request is as the backend expects it: none of its descriptors counts as writable, and its head
has a slot. -/
structure Taken.WellFormed (r : Taken) (accept : Bool) : Prop where
  inNum : r.inNum = 0
  slot : r.ret.toNat < VIRTIO_BLK_RINGSZ
  serves : r.blk.Serves r.outNum accept

instance (b : VirtioBlk) (n : ℕ) (accept : Bool) : Decidable (b.Serves n accept) :=
  decidable_of_iff (2 ≤ n ∧ n ≤ BLOCKIF_IOV_MAX + 2 ∧ ((b.dev.vqs 0).iovec 0).iovLen = 16 ∧
      ((b.dev.vqs 0).iovec (n - 1)).iovLen = 1 ∧ (b.op ∈ blockifOps → accept = true))
    ⟨fun h => ⟨h.1, h.2.1, h.2.2.1, h.2.2.2.1, h.2.2.2.2⟩,
      fun h => ⟨h.two_le, h.le_max, h.header, h.status, h.accepted⟩⟩

instance (r : Taken) (accept : Bool) : Decidable (r.WellFormed accept) :=
  decidable_of_iff (r.inNum = 0 ∧ r.ret.toNat < VIRTIO_BLK_RINGSZ ∧ r.blk.Serves r.outNum accept)
    ⟨fun h => ⟨h.1, h.2.1, h.2.2⟩, fun h => ⟨h.inNum, h.slot, h.serves⟩⟩

/-- `p` holds of the request that a look has found. -/
def Look.Finds (p : Taken → Prop) : Look → Prop
  | .request r => p r
  | .stop _ | .again _ => True

instance (p : Taken → Prop) [DecidablePred p] : DecidablePred (Look.Finds p)
  | .request r => inferInstanceAs (Decidable (p r))
  | .stop _ | .again _ => inferInstanceAs (Decidable True)

/-- A request that is fetched is well formed. -/
def BlkRun.FetchesWellFormed (s : BlkRun) : RequestEvent → Prop
  | .round env => s.blk.aborted = false →
      (s.blk.look env 0 0).Finds fun r => r.WellFormed (env.accepts 0)
  | .notify | .done _ _ | .guest _ => True

instance (s : BlkRun) : DecidablePred s.FetchesWellFormed
  | .round _ => inferInstanceAs (Decidable (_ → _))
  | .notify | .done _ _ | .guest _ => inferInstanceAs (Decidable True)

/-- A backend whose queue was just set up -/
structure BlkRun.Fresh (s : BlkRun) : Prop where
  fetched : s.fetched = []
  used : s.used = []
  pending : s.blk.pending = []
  alive : s.blk.aborted = false
  slots : ∀ i, ArrayAccess.ios i ∈ s.blk.log → i < VIRTIO_BLK_RINGSZ
  lastUsedIdx : (s.blk.dev.vqs 0).lastUsedIdx = 0
  num : (s.blk.dev.vqs 0).num < 2 ^ 32

/-! ### What does not touch the used ring -/

/-- The fields of a queue that place an element in its used ring -/
structure VirtQueue.SameUsed (vq vq' : VirtQueue) : Prop where
  lastUsedIdx : vq'.lastUsedIdx = vq.lastUsedIdx
  num : vq'.num = vq.num
  used : vq'.used = vq.used

lemma VirtQueue.SameUsed.refl (vq : VirtQueue) : vq.SameUsed vq := ⟨rfl, rfl, rfl⟩

lemma VirtQueue.SameUsed.trans {vq vq₁ vq₂ : VirtQueue} (h₁ : vq.SameUsed vq₁)
    (h₂ : vq₁.SameUsed vq₂) : vq.SameUsed vq₂ :=
  ⟨h₂.lastUsedIdx.trans h₁.lastUsedIdx, h₂.num.trans h₁.num, h₂.used.trans h₁.used⟩

lemma virtqGetDescs_sameUsed (vm : MvmVm) (m : Bytes) (vq : VirtQueue) (iov : ℕ → Iovec)
    (iovSize inNum outNum : ℕ) :
    vq.SameUsed (virtqGetDescs vm m vq iov iovSize inNum outNum).2.1 := by
  obtain ⟨avail, last, h⟩ := virtqGetDescs_vq vq m vm iov iovSize inNum outNum
  rw [h]
  exact ⟨rfl, rfl, rfl⟩

lemma virtqEnableNotify_sameUsed (acked : ℕ) (vq : VirtQueue) (m : Bytes) :
    vq.SameUsed (virtqEnableNotify acked vq m).2.1 := by
  obtain ⟨flags, h⟩ := virtqEnableNotify_vq acked vq m
  rw [h]
  exact ⟨rfl, rfl, rfl⟩

lemma virtqDisableNotify_sameUsed (acked : ℕ) (vq : VirtQueue) (m : Bytes) :
    vq.SameUsed (virtqDisableNotify acked vq m).1 := by
  obtain ⟨flags, h⟩ := virtqDisableNotify_vq acked vq m
  rw [h]
  exact ⟨rfl, rfl, rfl⟩

lemma virtqNeedNotify_sameUsed (acked : ℕ) (vq : VirtQueue) (m : Bytes) :
    vq.SameUsed (virtqNeedNotify acked vq m).2 := by
  obtain ⟨used, valid, h⟩ := virtqNeedNotify_vq acked vq m
  rw [h]
  exact ⟨rfl, rfl, rfl⟩

/-- From `b` to `b'` nothing is completed, handed to blockif or put into a slot. -/
structure Unserved (b b' : VirtioBlk) : Prop where
  vq : (b.dev.vqs 0).SameUsed (b'.dev.vqs 0)
  pending : b'.pending = b.pending
  aborted : b'.aborted = b.aborted
  slots : ∀ i, ArrayAccess.ios i ∈ b'.log ↔ ArrayAccess.ios i ∈ b.log

namespace Unserved

variable {b b₁ b₂ : VirtioBlk} {k : ℕ}

lemma refl (b : VirtioBlk) : Unserved b b := ⟨.refl _, rfl, rfl, fun _ => Iff.rfl⟩

lemma trans (h₁ : Unserved b b₁) (h₂ : Unserved b₁ b₂) : Unserved b b₂ :=
  ⟨h₁.vq.trans h₂.vq, h₂.pending.trans h₁.pending, h₂.aborted.trans h₁.aborted,
    fun i => (h₂.slots i).trans (h₁.slots i)⟩

lemma setMem (b : VirtioBlk) (m : Bytes) : Unserved b (b.setMem m) :=
  ⟨.refl _, rfl, rfl, fun _ => Iff.rfl⟩

lemma setVq (b : VirtioBlk) {vq : VirtQueue} (h : (b.dev.vqs k).SameUsed vq) :
    Unserved b (b.setVq k vq) := by
  refine ⟨?_, rfl, rfl, fun _ => Iff.rfl⟩
  rcases eq_or_ne 0 k with rfl | hk
  · exact (Function.update_self 0 vq b.dev.vqs).symm ▸ h
  · exact (Function.update_of_ne hk vq b.dev.vqs).symm ▸ .refl _

lemma noteVqs (b : VirtioBlk) (i : ℕ) : Unserved b (b.note (.vqs i)) :=
  ⟨.refl _, rfl, rfl, fun _ => by simp [VirtioBlk.note]⟩

lemma getDescs (b : VirtioBlk) (k : ℕ) : Unserved b (b.getDescs k).blk := by
  rw [VirtioBlk.getDescs]
  have h := virtqGetDescs_sameUsed b.vm b.mem (b.dev.vqs k) (b.dev.vqs k).iovec
    (b.dev.vqs k).iovecSize 0 0
  exact setVq b ⟨h.lastUsedIdx, h.num, h.used⟩

lemma enableNotify (b : VirtioBlk) (k : ℕ) : Unserved b (b.enableNotify k).2 := by
  rw [VirtioBlk.enableNotify]
  exact (setVq b (virtqEnableNotify_sameUsed _ _ _)).trans (setMem _ _)

lemma disableNotify (b : VirtioBlk) (k : ℕ) : Unserved b (b.disableNotify k) := by
  rw [VirtioBlk.disableNotify]
  exact (setVq b (virtqDisableNotify_sameUsed _ _ _)).trans (setMem _ _)

lemma newUsed_eq_nil (h : Unserved b b₁) : newUsed b b₁ = [] := by
  have h0 : sub32 (b₁.dev.vqs 0).lastUsedIdx (b.dev.vqs 0).lastUsedIdx = 0 := by
    rw [h.vq.lastUsedIdx, sub32]
    simp
  rw [newUsed, h0]
  rfl

end Unserved

/-- The states that a look leaves -/
def Look.blk : Look → VirtioBlk
  | .stop b => b
  | .again b => b
  | .request r => r.blk

lemma VirtioBlk.look_unserved (env : Env) (k t : ℕ) (b : VirtioBlk) :
    Unserved b (b.look env k t).blk := by
  rw [VirtioBlk.look]
  split
  · exact .setMem b _
  have h := ((Unserved.setMem b (env.guest t b.mem)).trans
    (.setMem _ (env.guest (t + 1) (b.setMem (env.guest t b.mem)).mem))).trans (.getDescs _ k)
  dsimp only
  split
  · exact h
  split
  · have hnotify (m : Bytes) := (h.trans (.setMem _ m)).trans (.enableNotify _ k)
    split
    · exact (hnotify _).trans (.disableNotify _ k)
    · exact hnotify _
  · exact h

/-! ### What is put into the used ring -/

/-- From `b` to `b'` the head `idx` comes into the used ring, where the guest can see it. -/
structure Served (b b' : VirtioBlk) (idx : ℕ) : Prop where
  lastUsedIdx : (b'.dev.vqs 0).lastUsedIdx = ((b.dev.vqs 0).lastUsedIdx + 1) % 2 ^ 16
  num : (b'.dev.vqs 0).num = (b.dev.vqs 0).num
  elem : (b.dev.vqs 0).usedElem (b.dev.vqs 0).lastUsedIdx b'.mem = idx
  published : (b'.dev.vqs 0).usedRingIdx b'.mem = (b'.dev.vqs 0).lastUsedIdx
  pending : b'.pending = b.pending
  aborted : b'.aborted = b.aborted
  slots : ∀ i, ArrayAccess.ios i ∈ b'.log ↔ ArrayAccess.ios i ∈ b.log

lemma Served.newUsed_eq {b b' : VirtioBlk} {idx : ℕ} (h : Served b b' idx) :
    newUsed b b' = [idx] := by
  have hone : sub32 (b'.dev.vqs 0).lastUsedIdx (b.dev.vqs 0).lastUsedIdx % 2 ^ 16 = 1 := by
    rw [h.lastUsedIdx, sub32]
    omega
  rw [newUsed, hone]
  exact congrArg (fun x => [x]) h.elem

/-- An empty chunk changes nothing. -/
lemma virtqAddUsedChunk_nil {vq : VirtQueue} (hlast : vq.lastUsedIdx < 2 ^ 16) (m : Bytes) :
    virtqAddUsedChunk vq [] m = (vq, m) := by
  have hnew : (vq.lastUsedIdx + ([] : List VringUsedElem).length) % 2 ^ 16 = vq.lastUsedIdx :=
    Nat.mod_eq_of_lt hlast
  have hself : sub32 vq.lastUsedIdx vq.lastUsedIdx % 2 ^ 16 = 0 := by
    rw [sub32]
    simp
  rw [virtqAddUsedChunk, hnew, hself]
  simp [storeUsed]

/-- The single chunk of one element -/
lemma virtqAddUsedChunks_one {vq : VirtQueue} (hlast : vq.lastUsedIdx < 2 ^ 16)
    (e : VringUsedElem) (m : Bytes) :
    virtqAddUsedChunks vq [e] m = virtqAddUsedChunk vq [e] m := by
  rw [virtqAddUsedChunks]
  split
  · next h =>
    have h0 : sub32 vq.num vq.usedStart = 0 := Nat.lt_one_iff.1 h
    rw [h0, List.take_zero, List.drop_zero, virtqAddUsedChunk_nil hlast]
  · rfl

lemma read_element (m : Bytes) (used s id len new : ℕ) (hid : id < 2 ^ 32) :
    read (write (write (write m 4 (add64 used (4 + 8 * s)) id) 4 (add64 used (4 + 8 * s) + 4) len) 2
      (add64 used 2) new) 4 (add64 used (4 + 8 * s)) = id := by
  have hapart : add64 used (4 + 8 * s) + 4 ≤ add64 used 2 ∨
      add64 used 2 + 2 ≤ add64 used (4 + 8 * s) := by
    unfold add64
    omega
  rw [read_write_of_disjoint _ _ hapart, read_write_of_disjoint _ _ (Or.inl le_rfl),
    read_write_self _ (hid.trans_eq (by norm_num))]

/-- `virtq_add_used_n` of one element -/
lemma virtqAddUsedN_one {vq : VirtQueue} (hlast : vq.lastUsedIdx < 2 ^ 16) (head len : ℕ)
    (m : Bytes) :
    let r := virtqAddUsedN vq [⟨head, len⟩] m
    let a := add64 vq.used (4 + 8 * vq.usedStart)
    r.1.lastUsedIdx = (vq.lastUsedIdx + 1) % 2 ^ 16 ∧ r.1.used = vq.used ∧
      r.2 = write (write (write m 4 a head) 4 (a + 4) len) 2 (add64 vq.used 2)
        ((vq.lastUsedIdx + 1) % 2 ^ 16) := by
  dsimp only
  rw [virtqAddUsedN]
  dsimp only
  rw [virtqAddUsedChunks_one hlast, virtqAddUsedChunk]
  dsimp only
  split
  · exact ⟨rfl, rfl, rfl⟩
  · exact ⟨rfl, rfl, rfl⟩

/-- One element comes into the used ring. -/
lemma virtqAddUsedAndSignal_spec {vq : VirtQueue} (hlast : vq.lastUsedIdx < 2 ^ 16)
    (acked head len : ℕ) (hhead : head < 2 ^ 32) (m : Bytes) :
    let r := virtqAddUsedAndSignal acked vq head len m
    r.2.1.lastUsedIdx = (vq.lastUsedIdx + 1) % 2 ^ 16 ∧
      vq.usedElem vq.lastUsedIdx r.2.2 = head ∧ r.2.1.usedRingIdx r.2.2 = r.2.1.lastUsedIdx := by
  dsimp only
  obtain ⟨hidx, hused, hmem⟩ := virtqAddUsedN_one hlast head len m
  have hstart : vq.lastUsedIdx % 2 ^ 16 &&& sub32 vq.num 1 = vq.usedStart := by
    rw [Nat.mod_eq_of_lt hlast, VirtQueue.usedStart]
  rw [virtqAddUsedAndSignal]
  dsimp only
  obtain ⟨hneed, -, hneedUsed⟩ := virtqNeedNotify_sameUsed acked
    (virtqAddUsedN vq [⟨head, len⟩] m).1 (virtqAddUsedN vq [⟨head, len⟩] m).2
  refine ⟨hneed.trans hidx, ?_, ?_⟩
  · rw [VirtQueue.usedElem, hstart, hmem]
    exact read_element m vq.used vq.usedStart head len _ hhead
  · rw [VirtQueue.usedRingIdx, hneed, hneedUsed, hidx, hused, hmem]
    exact read_write_self _ ((Nat.mod_lt _ (Nat.two_pow_pos 16)).trans_eq (by norm_num))

lemma virtioBlkDone_served {b : VirtioBlk} (hlast : (b.dev.vqs 0).lastUsedIdx < 2 ^ 16)
    {idx : ℕ} (hidx : idx < 2 ^ 32) (err : ℕ) : Served b (virtioBlkDone b idx err) idx := by
  have hspec := virtqAddUsedAndSignal_spec hlast b.dev.ackedFeatures idx 1 hidx
    (write b.mem 1 (b.ios idx).status
      (if err = EOPNOTSUPP ∨ err = ENOSYS then VIRTIO_BLK_S_UNSUPP
      else if err ≠ 0 then VIRTIO_BLK_S_IOERR else VIRTIO_BLK_S_OK))
  obtain ⟨hnext, helem, hpub⟩ := hspec
  have hvq (b : VirtioBlk) (vq : VirtQueue) : (b.setVq 0 vq).dev.vqs 0 = vq := by
    simp [VirtioBlk.setVq]
  rw [virtioBlkDone]
  refine ⟨?_, ?_, helem, ?_, rfl, rfl, (Unserved.noteVqs b 0).slots⟩
  · exact (congrArg VirtQueue.lastUsedIdx (hvq _ _)).trans hnext
  · exact (congrArg VirtQueue.num (hvq _ _)).trans (virtqAddUsedAndSignal_same _ _ _ _ _).1
  · refine Eq.trans ?_ (hpub.trans (congrArg VirtQueue.lastUsedIdx (hvq _ _)).symm)
    exact congrArg (fun vq => VirtQueue.usedRingIdx vq _) (hvq _ _)

/-! ### One request -/

/-- A request gets to its end: it is completed or handed to blockif. -/
structure Proceeds (b b' : VirtioBlk) (idx : ℕ) : Prop where
  aborted : b'.aborted = b.aborted
  slots : ∀ i, ArrayAccess.ios i ∈ b'.log ↔ i = idx ∨ ArrayAccess.ios i ∈ b.log
  lastUsedIdx : (b'.dev.vqs 0).lastUsedIdx < 2 ^ 16
  num : (b'.dev.vqs 0).num = (b.dev.vqs 0).num
  outcome : b'.pending = idx :: b.pending ∧ newUsed b b' = [] ∨
    b'.pending = b.pending ∧ newUsed b b' = [idx] ∧
      (b'.dev.vqs 0).usedRingIdx b'.mem = (b'.dev.vqs 0).lastUsedIdx

/-- The backend with a request in its slot -/
def VirtioBlk.inSlot (b : VirtioBlk) (idx : ℕ) (io : VirtioBlkIoreq) : VirtioBlk :=
  (b.note (.ios idx)).setIo idx io

variable {b : VirtioBlk} {idx : ℕ} {io : VirtioBlkIoreq}

lemma inSlot_slots (io : VirtioBlkIoreq) (i : ℕ) :
    ArrayAccess.ios i ∈ (b.inSlot idx io).log ↔ i = idx ∨ ArrayAccess.ios i ∈ b.log := by
  change ArrayAccess.ios i ∈ ArrayAccess.ios idx :: b.log ↔ _
  rw [List.mem_cons, ArrayAccess.ios.injEq]

lemma inSlot_submit (hlast : (b.dev.vqs 0).lastUsedIdx < 2 ^ 16) :
    Proceeds b ((b.inSlot idx io).submit idx true) idx where
  aborted := rfl
  slots i := inSlot_slots io i
  lastUsedIdx := hlast
  num := rfl
  outcome := Or.inl ⟨rfl, (Unserved.refl b).newUsed_eq_nil⟩

lemma inSlot_done (hlast : (b.dev.vqs 0).lastUsedIdx < 2 ^ 16) (hidx : idx < 2 ^ 32)
    (m : Bytes) (err : ℕ) :
    Proceeds b (virtioBlkDone ((b.inSlot idx io).setMem m) idx err) idx := by
  have hserved := virtioBlkDone_served (b := (b.inSlot idx io).setMem m) hlast hidx err
  refine ⟨hserved.aborted, fun i => (hserved.slots i).trans (inSlot_slots io i), ?_, hserved.num,
    Or.inr ⟨hserved.pending, hserved.newUsed_eq, hserved.published⟩⟩
  rw [hserved.lastUsedIdx]
  exact Nat.mod_lt _ (Nat.two_pow_pos 16)

lemma virtioBlkProc_proceeds (hlast : (b.dev.vqs 0).lastUsedIdx < 2 ^ 16) (hidx : idx < 2 ^ 32)
    {n : ℕ} {accept : Bool} (h : b.Serves n accept) :
    Proceeds b (virtioBlkProc b 0 idx n accept) idx := by
  obtain ⟨htwo, hmax, hheader, hstatus, haccept⟩ := h
  have hsubmit (io : VirtioBlkIoreq) {op : ℕ} (hop : b.op = op) (hmem : op ∈ blockifOps) :
      Proceeds b ((b.inSlot idx io).submit idx accept) idx :=
    haccept (hop ▸ hmem) ▸ inSlot_submit hlast
  rw [virtioBlkProc, if_neg (by omega)]
  dsimp only
  rw [if_neg (not_not.2 hheader), if_neg (not_not.2 hstatus)]
  split
  · next h => exact hsubmit _ h (by decide)
  · next h => exact hsubmit _ h (by decide)
  · next h => exact hsubmit _ h (by decide)
  · next h => exact hsubmit _ h (by decide)
  · exact inSlot_done hlast hidx _ 0
  · exact inSlot_done hlast hidx _ EOPNOTSUPP

/-- A request that is not as it should be is dropped, or the process aborts. -/
lemma virtioBlkProc_drops {n : ℕ} {accept : Bool} (idx : ℕ) (h : ¬ b.Serves n accept) :
    (virtioBlkProc b 0 idx n accept).aborted = true ∨
      (virtioBlkProc b 0 idx n accept).pending = b.pending ∧
        newUsed b (virtioBlkProc b 0 idx n accept) = [] := by
  rw [virtioBlkProc]
  split
  · exact Or.inr ⟨rfl, (Unserved.refl b).newUsed_eq_nil⟩
  next hn =>
  dsimp only
  split
  · exact Or.inr ⟨rfl, (Unserved.refl b).newUsed_eq_nil⟩
  next hheader =>
  split
  · exact Or.inl rfl
  next hstatus =>
  have hfalse : ¬ (b.op ∈ blockifOps → accept = true) := fun haccept =>
    h ⟨by omega, by omega, not_not.1 hheader, not_not.1 hstatus, haccept⟩
  obtain ⟨hop, haccept⟩ := Classical.not_imp.1 hfalse
  rw [Bool.not_eq_true] at haccept
  subst haccept
  have hother {op : ℕ} (heq : b.op = op) (hnot : op ∉ blockifOps) : False := hnot (heq ▸ hop)
  split
  · exact Or.inl rfl
  · exact Or.inl rfl
  · exact Or.inl rfl
  · exact Or.inl rfl
  · next heq => exact (hother heq (by decide)).elim
  · next h0 h1 h4 h5 h8 =>
    simp only [blockifOps, List.mem_cons, List.not_mem_nil, or_false] at hop
    rcases hop with hop | hop | hop | hop
    · exact absurd hop h0
    · exact absurd hop h1
    · exact absurd hop h4
    · exact absurd hop h5

lemma Unserved.newUsed_congr {b₁ b' : VirtioBlk} (h : Unserved b b₁) :
    newUsed b b' = newUsed b₁ b' := by
  obtain ⟨hlast, hnum, hused⟩ := h.vq
  simp only [newUsed, VirtQueue.usedElem, hlast, hnum, hused]

lemma Unserved.proceeds {b₁ b' : VirtioBlk} (h : Unserved b b₁) (hp : Proceeds b₁ b' idx) :
    Proceeds b b' idx := by
  refine ⟨hp.aborted.trans h.aborted, fun i => ?_, hp.lastUsedIdx, hp.num.trans h.vq.num, ?_⟩
  · rw [hp.slots, h.slots]
  · rw [h.newUsed_congr, ← h.pending]
    exact hp.outcome

lemma getDescs_ret_lt_word (hnum : (b.dev.vqs 0).num < 2 ^ 32) (h₀ : ¬ (b.getDescs 0).ret < 0)
    (h₁ : (b.getDescs 0).ret ≠ (b.dev.vqs 0).num) : (b.getDescs 0).ret.toNat < 2 ^ 16 := by
  have hr : (b.getDescs 0).ret = (virtqGetDescs b.vm b.mem (b.dev.vqs 0) (b.dev.vqs 0).iovec
      (b.dev.vqs 0).iovecSize 0 0).1 := by
    rw [VirtioBlk.getDescs]
  rw [hr] at h₀ h₁ ⊢
  simp only [virtqGetDescs] at h₀ h₁ ⊢
  split_ifs at h₀ h₁ ⊢ with hcount
  · simp only [toInt32] at h₀ h₁
    split_ifs at h₀ h₁
    · exact absurd rfl h₁
    · omega
  · exact absurd (show (-EINVAL : ℤ) < 0 by decide) h₀
  · exact absurd (show (-EINVAL : ℤ) < 0 by decide) h₀
  · contradiction
  · exact read_lt _ 2 _

/-! ### One event -/

namespace BlkRun

variable {s : BlkRun} {b' : VirtioBlk} {head : ℕ}

/-- What holds of every state of a run that fetches only well formed requests -/
structure Inv (s : BlkRun) : Prop extends s.Accounted where
  lastUsedIdx : (s.blk.dev.vqs 0).lastUsedIdx < 2 ^ 16
  num : (s.blk.dev.vqs 0).num < 2 ^ 32
  pending : ∀ i ∈ s.blk.pending, i < VIRTIO_BLK_RINGSZ

namespace Inv

lemma unserved (h : s.Inv) (hu : Unserved s.blk b') : (s.moveTo b' none).Inv where
  count i := by
    change s.fetched.count i = (newUsed s.blk b' ++ s.used).count i + b'.pending.count i
    rw [hu.newUsed_eq_nil, List.nil_append, hu.pending]
    exact h.count i
  alive := hu.aborted.trans h.alive
  slots i hi := h.slots i ((hu.slots i).1 hi)
  lastUsedIdx := hu.vq.lastUsedIdx ▸ h.lastUsedIdx
  num := hu.vq.num ▸ h.num
  pending i hi := h.pending i (hu.pending ▸ hi)

lemma proceeds (h : s.Inv) (hp : Proceeds s.blk b' head) (hslot : head < VIRTIO_BLK_RINGSZ) :
    (s.moveTo b' (some head)).Inv where
  count i := by
    change (head :: s.fetched).count i =
      (newUsed s.blk b' ++ s.used).count i + b'.pending.count i
    have hcount := h.count i
    rcases hp.outcome with ⟨hpending, hused⟩ | ⟨hpending, hused, -⟩
    · rw [hpending, hused, List.nil_append, List.count_cons, List.count_cons]
      omega
    · rw [hpending, hused, List.singleton_append, List.count_cons, List.count_cons]
      omega
  alive := hp.aborted.trans h.alive
  slots i hi := by
    rcases (hp.slots i).1 hi with rfl | hi
    · exact hslot
    · exact h.slots i hi
  lastUsedIdx := hp.lastUsedIdx
  num := hp.num ▸ h.num
  pending i hi := by
    rcases hp.outcome with ⟨hpending, -⟩ | ⟨hpending, -⟩
    · rcases List.mem_cons.1 (hpending ▸ hi) with rfl | hi
      · exact hslot
      · exact h.pending i hi
    · exact h.pending i (hpending ▸ hi)

/-- A head that is fetched and dropped is never accounted for. -/
lemma not_accounted (h : s.Inv)
    (hd : b'.aborted = true ∨ b'.pending = s.blk.pending ∧ newUsed s.blk b' = []) :
    ¬ (s.moveTo b' (some head)).Accounted := by
  intro ha
  rcases hd with hd | ⟨hpending, hused⟩
  · exact Bool.false_ne_true (ha.alive.symm.trans hd)
  · have hcount : (head :: s.fetched).count head =
        (newUsed s.blk b' ++ s.used).count head + b'.pending.count head := ha.count head
    rw [hused, hpending, List.nil_append, ← h.count, List.count_cons_self] at hcount
    omega

lemma done (h : s.Inv) (hidx : idx ∈ s.blk.pending) (err : ℕ) :
    let b' := virtioBlkDone { s.blk with pending := s.blk.pending.erase idx } idx err
    (s.moveTo b' none).Inv ∧ (b'.dev.vqs 0).usedRingIdx b'.mem = (b'.dev.vqs 0).lastUsedIdx := by
  have hlt : idx < 2 ^ 32 := (h.pending idx hidx).trans (by decide)
  have hserved := virtioBlkDone_served
    (b := { s.blk with pending := s.blk.pending.erase idx }) h.lastUsedIdx hlt err
  generalize virtioBlkDone { s.blk with pending := s.blk.pending.erase idx } idx err = b'
    at hserved
  have hused : newUsed s.blk b' = [idx] := hserved.newUsed_eq
  refine ⟨⟨⟨fun i => ?_, hserved.aborted.trans h.alive,
    fun i hi => h.slots i ((hserved.slots i).1 hi)⟩, ?_, hserved.num ▸ h.num, fun i hi => ?_⟩,
    hserved.published⟩
  · change s.fetched.count i = (newUsed s.blk b' ++ s.used).count i + b'.pending.count i
    rw [hused, hserved.pending, List.singleton_append, List.count_cons, h.count, List.count_erase]
    have hpos := List.count_pos_iff.2 hidx
    by_cases hi : idx = i
    · subst hi
      simp only [beq_self_eq_true, if_true]
      omega
    · simp only [beq_iff_eq, hi, if_false]
      omega
  · change (b'.dev.vqs 0).lastUsedIdx < 2 ^ 16
    rw [hserved.lastUsedIdx]
    exact Nat.mod_lt _ (Nat.two_pow_pos 16)
  · exact h.pending i (List.mem_of_mem_erase (hserved.pending ▸ hi))

end Inv

/-- What a look that finds a request has done -/
lemma look_request {env : Env} {b : VirtioBlk} {r : Taken} (hnum : (b.dev.vqs 0).num < 2 ^ 32)
    (h : b.look env 0 0 = .request r) : Unserved b r.blk ∧ r.ret.toNat < 2 ^ 16 := by
  refine ⟨by have := b.look_unserved env 0 0; rwa [h] at this, ?_⟩
  rw [VirtioBlk.look] at h
  split at h
  · cases h
  dsimp only at h
  split at h
  · cases h
  next h₀ =>
  split at h
  · split at h
    · cases h
    · cases h
  next h₁ =>
  obtain rfl := Look.request.inj h
  exact getDescs_ret_lt_word hnum h₀ h₁

/-- What a round does: no request is fetched, a well formed one gets to its end, or another one is
never accounted for. -/
lemma Inv.round_cases (h : s.Inv) (env : Env) :
    let r := s.blk.round env 0 0
    s.FetchesWellFormed (.round env) ∧ r.head = none ∧ Unserved s.blk r.blk ∨
      s.FetchesWellFormed (.round env) ∧ (∃ head, r.head = some head ∧
        head < VIRTIO_BLK_RINGSZ ∧ Proceeds s.blk r.blk head) ∨
      ¬ s.FetchesWellFormed (.round env) ∧ ¬ (s.moveTo r.blk r.head).Accounted := by
  have hlook := s.blk.look_unserved env 0 0
  rw [VirtioBlk.round, FetchesWellFormed]
  cases hr : s.blk.look env 0 0 with
  | stop b => exact Or.inl ⟨fun _ => trivial, rfl, by rwa [hr] at hlook⟩
  | again b => exact Or.inl ⟨fun _ => trivial, rfl, by rwa [hr] at hlook⟩
  | request r =>
    obtain ⟨hu, hret⟩ := look_request h.num hr
    have hwf : (s.blk.aborted = false → (Look.request r).Finds fun r =>
        r.WellFormed (env.accepts 0)) ↔ r.WellFormed (env.accepts 0) :=
      ⟨fun hall => hall h.alive, fun hr _ => hr⟩
    rw [hwf]
    dsimp only
    right
    by_cases hin : r.inNum = 0
    swap
    · rw [if_pos hin]
      exact Or.inr ⟨fun hr => hin hr.inNum,
        h.not_accounted (Or.inr ⟨hu.pending, hu.newUsed_eq_nil⟩)⟩
    rw [if_neg (not_not.2 hin), Nat.mod_eq_of_lt hret]
    dsimp only
    by_cases hserves : r.blk.Serves r.outNum (env.accepts 0)
    swap
    · have hdrops := virtioBlkProc_drops r.ret.toNat hserves
      rw [hu.pending, ← hu.newUsed_congr] at hdrops
      exact Or.inr ⟨fun hr => hserves hr.serves, h.not_accounted hdrops⟩
    have hlast : (r.blk.dev.vqs 0).lastUsedIdx < 2 ^ 16 := hu.vq.lastUsedIdx ▸ h.lastUsedIdx
    have hproceeds := hu.proceeds
      (virtioBlkProc_proceeds hlast (hret.trans (by norm_num)) hserves)
    by_cases hslot : r.ret.toNat < VIRTIO_BLK_RINGSZ
    · exact Or.inl ⟨⟨hin, hslot, hserves⟩, _, rfl, hslot, hproceeds⟩
    · refine Or.inr ⟨fun hr => hslot hr.slot, fun ha => hslot ?_⟩
      exact ha.slots _ ((hproceeds.slots _).2 (Or.inl rfl))

/-- A well formed event keeps the invariant, and the others are seen from the accounts. -/
lemma Inv.step (h : s.Inv) (e : RequestEvent) :
    s.FetchesWellFormed e ∧ (s.step e).Inv ∧ Completes s (s.step e) ∨
      ¬ s.FetchesWellFormed e ∧ ¬ (s.step e).Accounted := by
  have hunserved {b' : VirtioBlk} (hu : Unserved s.blk b') :
      (s.moveTo b' none).Inv ∧ Completes s (s.moveTo b' none) :=
    ⟨h.unserved hu, (h.unserved hu).toAccounted, fun hused => absurd hu.newUsed_eq_nil hused⟩
  unfold BlkRun.step
  rw [if_neg (by rw [h.alive]; exact Bool.false_ne_true)]
  cases e with
  | notify => exact Or.inl ⟨trivial, hunserved (.disableNotify _ 0)⟩
  | guest mem => exact Or.inl ⟨trivial, hunserved (.setMem _ mem)⟩
  | done idx err =>
    dsimp only
    split
    · next hidx =>
      obtain ⟨hinv, hpublished⟩ := h.done hidx err
      exact Or.inl ⟨trivial, hinv, hinv.toAccounted, fun _ => hpublished⟩
    · have hnone : newUsed s.blk s.blk = [] := (Unserved.refl s.blk).newUsed_eq_nil
      exact Or.inl ⟨trivial, h, h.toAccounted, fun hused => absurd hnone hused⟩
  | round env =>
    dsimp only
    rcases h.round_cases env with ⟨hwf, hhead, hu⟩ | ⟨hwf, head, hhead, hslot, hp⟩ | hdrop
    · rw [hhead]
      exact Or.inl ⟨hwf, hunserved hu⟩
    · rw [hhead]
      have hinv := h.proceeds hp hslot
      refine Or.inl ⟨hwf, hinv, hinv.toAccounted, fun hused => ?_⟩
      rcases hp.outcome with ⟨-, hnone⟩ | ⟨-, -, hpublished⟩
      · exact absurd hnone hused
      · exact hpublished
    · exact Or.inr hdrop

/-! ### A whole notification -/

lemma round_shift (env : Env) (t : ℕ) (b : VirtioBlk) :
    b.round (env.shift t) 0 0 = b.round env 0 t := rfl

/-- The loop of `virtio_blk_notify` goes round by round. -/
lemma virtioBlkNotifyLoop_succ (env : Env) (fuel t : ℕ) (b : VirtioBlk) :
    virtioBlkNotifyLoop env 0 (fuel + 1) t b =
      if (b.round env 0 t).again then virtioBlkNotifyLoop env 0 fuel (t + 3) (b.round env 0 t).blk
      else (b.round env 0 t).blk := by
  rw [virtioBlkNotifyLoop, VirtioBlk.round, VirtioBlk.look]
  generalize hb₀ : b.setMem (env.guest t b.mem) = b₀
  dsimp only
  by_cases hdescs : ¬ (b₀.dev.vqs 0).hasDescs b₀.mem
  · rw [if_pos hdescs, if_pos hdescs]
    rfl
  rw [if_neg hdescs, if_neg hdescs]
  generalize b₀.setMem (env.guest (t + 1) b₀.mem) = b₁
  generalize hr : b₁.getDescs 0 = r
  by_cases h₀ : r.ret < 0
  · rw [if_pos h₀, if_pos h₀]
    rfl
  rw [if_neg h₀, if_neg h₀]
  by_cases hnum : r.ret = (b₁.dev.vqs 0).num
  · rw [if_pos hnum, if_pos hnum]
    generalize (r.blk.setMem (env.guest (t + 2) r.blk.mem)).enableNotify 0 = e
    by_cases he : e.1
    · rw [if_pos he, if_pos he]
      rfl
    · rw [if_neg he, if_neg he]
      rfl
  rw [if_neg hnum, if_neg hnum]
  dsimp only
  by_cases hin : r.inNum ≠ 0
  · simp only [if_pos hin, Bool.false_eq_true, if_false]
  simp only [if_neg hin]
  generalize virtioBlkProc r.blk 0 (r.ret.toNat % 2 ^ 16) r.outNum (env.accepts t) = b'
  cases b'.aborted
  · rfl
  · rfl

/-- A round after which the loop goes on has not ended the process. -/
lemma round_again {env : Env} {t : ℕ} {b : VirtioBlk} (h : (b.round env 0 t).again = true)
    (halive : b.aborted = false) : (b.round env 0 t).blk.aborted = false := by
  have hlook := (b.look_unserved env 0 t).aborted.trans halive
  rw [VirtioBlk.round] at h ⊢
  cases hr : b.look env 0 t with
  | stop b' => rwa [hr] at hlook
  | again b' => rwa [hr] at hlook
  | request r =>
    rw [hr] at h hlook
    dsimp only at h ⊢
    by_cases hin : r.inNum ≠ 0
    · rw [if_pos hin] at h
      cases h
    · rw [if_neg hin] at h ⊢
      exact (Bool.not_eq_true' _).mp h

lemma step_round (s : BlkRun) (env : Env) (halive : s.blk.aborted = false) :
    (s.step (.round env)).blk = (s.blk.round env 0 0).blk := by
  rw [BlkRun.step, if_neg (by rw [halive]; exact Bool.false_ne_true)]
  rfl

/-- The looks of one notification, from the `t`-th on -/
def rounds (env : Env) (t n : ℕ) : List RequestEvent :=
  (List.range n).map fun i => .round (env.shift (t + 3 * i))

lemma rounds_succ (env : Env) (t n : ℕ) :
    rounds env t (n + 1) = .round (env.shift t) :: rounds env (t + 3) n := by
  rw [rounds, List.range_succ_eq_map, List.map_cons, List.map_map, rounds]
  congr 1
  refine List.map_congr_left fun i _ => ?_
  rw [Function.comp_apply, Nat.succ_eq_add_one, show t + 3 * (i + 1) = t + 3 + 3 * i by ring]

lemma virtioBlkNotifyLoop_rounds (env : Env) (fuel : ℕ) (s : BlkRun) (t : ℕ)
    (halive : s.blk.aborted = false) :
    ∃ n, virtioBlkNotifyLoop env 0 fuel t s.blk = (exec step s (rounds env t n)).blk := by
  induction fuel generalizing s t with
  | zero => exact ⟨0, rfl⟩
  | succ fuel ih =>
    have hblk : (s.step (.round (env.shift t))).blk = (s.blk.round env 0 t).blk :=
      (step_round s (env.shift t) halive).trans (by rw [round_shift])
    rw [virtioBlkNotifyLoop_succ]
    by_cases hagain : (s.blk.round env 0 t).again
    · rw [if_pos hagain, ← hblk]
      obtain ⟨n, hn⟩ := ih (s.step (.round (env.shift t))) (t + 3)
        (hblk ▸ round_again hagain halive)
      exact ⟨n + 1, by rw [hn, rounds_succ, exec_cons]⟩
    · rw [if_neg hagain, ← hblk]
      exact ⟨1, rfl⟩

/-- A call of `virtio_blk_notify` is a notification and some rounds. -/
lemma virtioBlkNotify_rounds (env : Env) (fuel : ℕ) (s : BlkRun)
    (halive : s.blk.aborted = false) :
    ∃ n, virtioBlkNotify env fuel 0 s.blk =
      (exec step s (.notify :: rounds env 0 n)).blk := by
  have hblk : (s.step .notify).blk = s.blk.disableNotify 0 := by
    rw [BlkRun.step, if_neg (by rw [halive]; exact Bool.false_ne_true)]
    rfl
  rw [virtioBlkNotify, ← hblk]
  refine virtioBlkNotifyLoop_rounds env fuel (s.step .notify) 0 ?_
  rw [hblk]
  exact (Unserved.disableNotify s.blk 0).aborted.trans halive

/-- Every head that is fetched is completed once if and only if the requests that are fetched are
well formed. -/
theorem requests_completed_iff (s : BlkRun) (es : List RequestEvent) (hs : s.Fresh) :
    Along step (fun s e => Completes s (s.step e)) s es ↔ Along step FetchesWellFormed s es := by
  refine along_iff (I := Inv) (L := fun _ _ => True) (fun s e h _ => ?_) (fun s e h _ he => ?_) ?_
    (along_const.2 fun _ _ => trivial)
  · rcases h.step e with ⟨hwf, -, hc⟩ | ⟨hwf, hc⟩
    · exact iff_of_true hc hwf
    · exact iff_of_false (fun hp => hc hp.accounted) hwf
  · rcases h.step e with ⟨-, hinv, -⟩ | ⟨hwf, -⟩
    · exact hinv
    · exact absurd he hwf
  · refine ⟨⟨fun i => ?_, hs.alive, hs.slots⟩, ?_, hs.num, fun i hi => ?_⟩
    · rw [hs.fetched, hs.used, hs.pending]
      rfl
    · rw [hs.lastUsedIdx]
      exact Nat.two_pow_pos 16
    · rw [hs.pending] at hi
      cases hi

/-- A backend of 64MiB at `0x80000000`, with its queue in the memory of the guest -/
def readyBlk (mem : Bytes) : BlkRun where
  blk := { freshBlk.blk with
    dev := { freshBlk.blk.dev with vqs := fun _ => ringQueue }
    mem := mem }
  fetched := []
  used := []

lemma readyBlk_fresh (mem : Bytes) : (readyBlk mem).Fresh :=
  ⟨rfl, rfl, rfl, rfl, fun _ hi => absurd hi List.not_mem_nil, rfl,
    show 64 < 2 ^ 32 by decide⟩

/-- A request to read: the descriptor of a header, and that of a status with the given flags and
length -/
def readRequest (flags len : UInt8) : Bytes := fun a =>
  match a - 0x10000000 with
  | 0x0001 => 0x30
  | 0x0003 => 0x80
  | 0x0008 => 16
  | 0x000c => 1
  | 0x000e => 1
  | 0x0010 => 0x10
  | 0x0011 => 0x30
  | 0x0013 => 0x80
  | 0x0018 => len
  | 0x001c => flags
  | 0x1002 => 1
  | _ => 0

/-- The guest does nothing in between, and blockif takes all requests. -/
def quietEnv : Env := ⟨fun _ m => m, fun _ => true⟩

/-- A status that is not marked as writable -/
theorem requests_completed_read :
    Along step (fun s e => Completes s (s.step e)) (readyBlk (readRequest 0 1))
      [.notify, .round quietEnv, .done 0 0] :=
  (requests_completed_iff _ _ (readyBlk_fresh _)).2 (by decide +kernel)

/-- A request whose status is writable, as it has to be, is dropped, and one with a status of two
bytes ends the process. -/
theorem requests_dropped :
    (exec step (readyBlk (readRequest 0 2)) [.round quietEnv]).blk.aborted = true ∧
    ¬ ∀ (s : BlkRun) (es : List RequestEvent), s.Fresh →
      Along step (fun s e => Completes s (s.step e)) s es := by
  refine ⟨by decide +kernel, fun h => ?_⟩
  have hc := (h (readyBlk (readRequest 2 1)) [.round quietEnv] (readyBlk_fresh _)).1
  have hlost : (step (readyBlk (readRequest 2 1)) (.round quietEnv)).fetched.count 0 ≠
      (step (readyBlk (readRequest 2 1)) (.round quietEnv)).used.count 0 +
        (step (readyBlk (readRequest 2 1)) (.round quietEnv)).blk.pending.count 0 := by
    decide +kernel
  exact hlost (hc.accounted.count 0)

end BlkRun

end Minos.Virtio
