import Mathlib
import Minos.Lib.Run
import Minos.Virtio.NetDevice

/-!
# The loops of the devices

`virtio_net_tap_rx`, `virtio_net_netmap_rx`, `virtio_net_proctx` and `virtio_console_notify_tx` take
chains from a queue until it is empty. All of them keep the result of `virtq_get_descs` in a
`uint16_t`, in which an error is a large number, and test whether it is negative.
-/

namespace Minos.Virtio

open ByteMem Run

/-! ### The loops -/

inductive DeviceLoop where
  /-- `virtio_net_tap_rx` -/
  | tapRx
  /-- `virtio_net_netmap_rx` -/
  | netmapRx
  /-- `virtio_net_proctx` -/
  | proctx
  /-- `virtio_console_notify_tx` -/
  | notifyTx
deriving DecidableEq

/-- What a loop does not change: `fn` and `pad` are those of `virtio_net_proctx`. -/
structure LoopEnv where
  vm : MvmVm
  acked : ℕ
  net : VirtioNet
  fn : NetTxFn
  pad : ℕ

/-- One turn of a loop: what `virtq_get_descs` returned, the head that was added to the used ring,
and whether the loop stopped -/
structure Turn where
  ret : ℤ
  added : Option ℕ
  stopped : Bool
deriving DecidableEq, Repr

/-- The queue, the memory and the variables of a loop, with the turns so far, newest first -/
structure LoopState where
  vq : VirtQueue
  m : Bytes
  inNum : ℕ
  outNum : ℕ
  running : Bool
  log : List Turn

/-- What comes from outside in one turn -/
structure LoopInput where
  /-- The driver writes its memory. -/
  guest : Bytes → Bytes
  /-- The result of `readv` or `virtio_net_netmap_readv` -/
  len : ℤ
  wouldBlock : Bool
  /-- The bytes that were read, and the segments after it -/
  data : Bytes → Bytes
  iov : (ℕ → Iovec) → ℕ → Iovec

namespace LoopState

def stop (s : LoopState) : LoopState := { s with running := false }

def setIovec (s : LoopState) (iovec : ℕ → Iovec) : LoopState :=
  { s with vq := s.vq.setIovec iovec }

def setMem (s : LoopState) (m : Bytes) : LoopState := { s with m := m }

def note (s : LoopState) (ret : ℤ) (added : Option ℕ) : LoopState :=
  { s with log := ⟨ret, added, !s.running⟩ :: s.log }

def hasDescs (s : LoopState) : Bool := s.vq.hasDescs s.m

/-- The call of `virtq_get_descs`; `in` and `out` are where the previous one left them. -/
def getDescs (vm : MvmVm) (iovSize : ℕ) (s : LoopState) : ℤ × LoopState :=
  let r := virtqGetDescs vm s.m s.vq s.vq.iovec iovSize s.inNum s.outNum
  (r.1, { s with
    vq := r.2.1.setIovec r.2.2.iov
    inNum := r.2.2.inNum
    outNum := r.2.2.outNum })

def enableNotify (acked : ℕ) (s : LoopState) : Bool × LoopState :=
  let e := virtqEnableNotify acked s.vq s.m
  (e.1, { s with vq := e.2.1, m := e.2.2 })

def disableNotify (acked : ℕ) (s : LoopState) : LoopState :=
  let d := virtqDisableNotify acked s.vq s.m
  { s with vq := d.1, m := d.2 }

/-- `virtq_notify`, without the interrupt -/
def notify (acked : ℕ) (s : LoopState) : LoopState :=
  { s with vq := (virtqNeedNotify acked s.vq s.m).2 }

/-- `virtq_add_used` -/
def addUsed (s : LoopState) (idx len : ℕ) : LoopState :=
  let a := virtqAddUsedN s.vq [⟨idx, len⟩] s.m
  { s with vq := a.1, m := a.2 }

/-- `virtq_discard_desc` -/
def discardDesc (s : LoopState) (n : ℕ) : LoopState :=
  { s with vq := { s.vq with lastAvailIdx := sub32 s.vq.lastAvailIdx n % 2 ^ 16 } }

/-- `while (virtq_has_descs(vq))`, and the interrupt after the loop -/
def whileHasDescs (acked : ℕ) (s : LoopState) : LoopState :=
  if s.hasDescs then s else s.stop.notify acked

end LoopState

/-- `rx_iov_trim`: the segments without the first `tlen` bytes and their number, or `none` where an
assertion fails. -/
def rxIovTrim (iov : ℕ → Iovec) (niov tlen : ℤ) : Option ((ℕ → Iovec) × ℤ) :=
  let tlen := (tlen % 2 ^ 64).toNat
  let e := iov 0
  if e.iovLen < tlen then none
  else if e.iovLen - tlen = 0 then
    if niov ≤ 1 then none else some (Function.update iov 0 ⟨e.iovBase, 0⟩, niov - 1)
  else some (Function.update iov 0 ⟨add64 e.iovBase tlen, e.iovLen - tlen⟩, niov)

/-- `memset` of the header at `vrx`, and the number of buffers in it -/
def storeRxhdr (net : VirtioNet) (vrx : ℕ) (m : Bytes) : Bytes :=
  let m := fun x => if vrx ≤ x ∧ x < vrx + net.rxVhdrlen.toNat then 0 else m x
  if net.rxMerge ≠ 0 then write m 2 (vrx + 10) 1 else m

/-- What a loop does with a head: it leaves, or it adds the head to the used ring. -/
inductive HeadServed where
  | leave (s : LoopState)
  | add (s : LoopState) (len : ℕ)

/-- The header of a received packet, once the packet is there -/
def storePacket (env : LoopEnv) (e : LoopInput) (vrx : ℕ) (s : LoopState) : HeadServed :=
  .add (s.setMem (storeRxhdr env.net vrx (e.data s.m)))
    ((e.len + env.net.rxVhdrlen) % 2 ^ 32).toNat

namespace DeviceLoop

/-- The size of the iov that `virtq_get_descs` gets -/
def iovSize : DeviceLoop → VirtQueue → ℕ
  | notifyTx, vq => vq.iovecSize
  | _, _ => VIRTIO_NET_MAXSEGS

/-- What is done before the loop -/
def enter (env : LoopEnv) (s : LoopState) : DeviceLoop → LoopState
  | tapRx | netmapRx =>
    if env.net.rxReady = false ∨ env.net.resetting then s.stop
    else if s.hasDescs = false then s.stop.notify env.acked
    else s.disableNotify env.acked
  | proctx => s
  | notifyTx => { s with inNum := 0, outNum := 0 }.disableNotify env.acked

/-- What is done when the ring is empty -/
def empty (env : LoopEnv) (s : LoopState) : DeviceLoop → LoopState
  | tapRx =>
    let e := s.enableNotify env.acked
    if e.1 then (e.2.disableNotify env.acked).whileHasDescs env.acked
    else e.2.stop.notify env.acked
  | netmapRx =>
    let e := s.enableNotify env.acked
    if e.1 then e.2.disableNotify env.acked else e.2.stop.notify env.acked
  | proctx => s.stop
  | notifyTx =>
    let e := s.enableNotify env.acked
    if e.1 then e.2.disableNotify env.acked else e.2.stop

/-- What is done with a head -/
def serve (env : LoopEnv) (e : LoopInput) (s : LoopState) : DeviceLoop → HeadServed
  | tapRx =>
    match rxIovTrim s.vq.iovec (toInt32 s.inNum) env.net.rxVhdrlen with
    | none => .leave s
    | some (iov, _) =>
      let t := s.setIovec iov
      if e.len < 0 ∧ e.wouldBlock then
        .leave (((t.discardDesc 1).enableNotify env.acked).2.notify env.acked)
      else storePacket env e (s.vq.iovec 0).iovBase t
  | netmapRx =>
    match rxIovTrim s.vq.iovec (toInt32 s.inNum) env.net.rxVhdrlen with
    | none => .leave s
    | some (iov, _) =>
      let t := s.setIovec (e.iov iov)
      if e.len = 0 then .leave ((t.enableNotify env.acked).2.notify env.acked)
      else storePacket env e (s.vq.iovec 0).iovBase t
  | proctx =>
    let sent := env.net.tx env.fn env.pad s.vq.iovec 1 (toInt32 (sub32 s.outNum 1))
      (packetLen s.vq.iovec s.outNum)
    .add (s.setIovec (sent.elim s.vq.iovec Sent.iovec)) (transferLen s.vq.iovec s.outNum)
  | notifyTx => if s.inNum ≠ 0 then .leave s else .add s 0

/-- What is done when a head is added to the used ring -/
def add (env : LoopEnv) (idx len : ℕ) (s : LoopState) : DeviceLoop → LoopState
  | tapRx => (s.addUsed idx len).whileHasDescs env.acked
  | netmapRx | notifyTx => (s.addUsed idx len).notify env.acked
  | proctx => (s.addUsed idx len).stop

/-- The call of `virtq_get_descs` in a turn from `s` -/
def look (loop : DeviceLoop) (env : LoopEnv) (s : LoopState) (e : LoopInput) : ℤ × LoopState :=
  (s.setMem (e.guest s.m)).getDescs env.vm (loop.iovSize s.vq)

/-- One turn. `idx < 0` is false, whatever was returned. -/
def step (loop : DeviceLoop) (env : LoopEnv) (s : LoopState) (e : LoopInput) : LoopState :=
  if s.running = false then s
  else
    let r := loop.look env s e
    let idx := (r.1 % 2 ^ 16).toNat
    if idx = r.2.vq.num then (loop.empty env r.2).note r.1 none
    else
      match loop.serve env e r.2 with
      | .leave s => s.stop.note r.1 none
      | .add s len => (loop.add env idx len s).note r.1 (some idx)

end DeviceLoop

/-! ### Errors -/

/-- An error stops the loop and adds nothing, and what is added is a head. -/
structure Turn.Ok (num : ℕ) (t : Turn) : Prop where
  error : t.ret < 0 → t.added = none ∧ t.stopped = true
  added : ∀ id ∈ t.added, id < num

/-- All turns so far were as they should be. -/
def LoopState.Handled (s : LoopState) : Prop := ∀ t ∈ s.log, t.Ok s.vq.num

/-- What makes a loop leave with a head that it has not added: an assertion fails, there is no
packet, or there are buffers to write in a queue that is only read. -/
def DeviceLoop.Leaves (env : LoopEnv) (e : LoopInput) (s : LoopState) : DeviceLoop → Prop
  | tapRx => rxIovTrim s.vq.iovec (toInt32 s.inNum) env.net.rxVhdrlen = none ∨
      e.len < 0 ∧ e.wouldBlock = true
  | netmapRx => rxIovTrim s.vq.iovec (toInt32 s.inNum) env.net.rxVhdrlen = none ∨ e.len = 0
  | proctx => False
  | notifyTx => s.inNum ≠ 0

/-- An error is taken for a head, and nothing else makes the loop leave. -/
def DeviceLoop.TakesError (loop : DeviceLoop) (env : LoopEnv) (s : LoopState) (e : LoopInput) :
    Prop :=
  s.running = true ∧ (loop.look env s e).1 < 0 ∧ ¬ loop.Leaves env e (loop.look env s e).2

/-! ### What the parts of a loop keep -/

/-- The fields of a queue that say what is available -/
structure VirtQueue.SameRing (vq vq' : VirtQueue) : Prop where
  num : vq'.num = vq.num
  avail : vq'.avail = vq.avail
  used : vq'.used = vq.used
  lastAvailIdx : vq'.lastAvailIdx = vq.lastAvailIdx

/-- From `s` to `s'` no turn is noted. -/
structure LoopState.Keeps (s s' : LoopState) : Prop where
  num : s'.vq.num = s.vq.num
  log : s'.log = s.log

/-- From `s` to `s'` nothing is taken from the ring. -/
structure LoopState.Same (s s' : LoopState) : Prop where
  ring : s.vq.SameRing s'.vq
  log : s'.log = s.log

section Same

variable {acked idx len : ℕ} {vq vq₁ : VirtQueue} {m : Bytes} {s s₁ s₂ : LoopState}
  {env : LoopEnv} {loop : DeviceLoop} {e : LoopInput}

lemma VirtQueue.SameRing.refl (vq : VirtQueue) : vq.SameRing vq := ⟨rfl, rfl, rfl, rfl⟩

lemma VirtQueue.SameRing.trans {vq₂ : VirtQueue} (h₁ : vq.SameRing vq₁) (h₂ : vq₁.SameRing vq₂) :
    vq.SameRing vq₂ :=
  ⟨h₂.num.trans h₁.num, h₂.avail.trans h₁.avail, h₂.used.trans h₁.used,
    h₂.lastAvailIdx.trans h₁.lastAvailIdx⟩

lemma virtqEnableNotify_sameRing : vq.SameRing (virtqEnableNotify acked vq m).2.1 := by
  obtain ⟨flags, h⟩ := virtqEnableNotify_vq acked vq m
  rw [h]
  exact ⟨rfl, rfl, rfl, rfl⟩

lemma virtqDisableNotify_sameRing : vq.SameRing (virtqDisableNotify acked vq m).1 := by
  obtain ⟨flags, h⟩ := virtqDisableNotify_vq acked vq m
  rw [h]
  exact ⟨rfl, rfl, rfl, rfl⟩

lemma virtqNeedNotify_sameRing : vq.SameRing (virtqNeedNotify acked vq m).2 := by
  obtain ⟨used, valid, h⟩ := virtqNeedNotify_vq acked vq m
  rw [h]
  exact ⟨rfl, rfl, rfl, rfl⟩

lemma virtqAddUsedChunk_sameRing {heads : List VringUsedElem} :
    vq.SameRing (virtqAddUsedChunk vq heads m).1 := by
  obtain ⟨last, valid, h⟩ := virtqAddUsedChunk_vq vq m heads
  rw [h]
  exact ⟨rfl, rfl, rfl, rfl⟩

lemma virtqAddUsedN_sameRing {heads : List VringUsedElem} :
    vq.SameRing (virtqAddUsedN vq heads m).1 := by
  rw [virtqAddUsedN, fst_mk, virtqAddUsedChunks]
  dsimp only
  split_ifs
  · exact virtqAddUsedChunk_sameRing.trans virtqAddUsedChunk_sameRing
  · exact virtqAddUsedChunk_sameRing

namespace LoopState

lemma Same.refl (s : LoopState) : s.Same s := ⟨.refl _, rfl⟩

lemma Same.trans (h₁ : s.Same s₁) (h₂ : s₁.Same s₂) : s.Same s₂ :=
  ⟨h₁.ring.trans h₂.ring, h₂.log.trans h₁.log⟩

lemma Same.keeps (h : s.Same s₁) : s.Keeps s₁ := ⟨h.ring.num, h.log⟩

lemma Keeps.trans (h₁ : s.Keeps s₁) (h₂ : s₁.Keeps s₂) : s.Keeps s₂ :=
  ⟨h₂.num.trans h₁.num, h₂.log.trans h₁.log⟩

lemma same_stop (s : LoopState) : s.Same s.stop := ⟨.refl _, rfl⟩

lemma same_setIovec (s : LoopState) (iovec : ℕ → Iovec) : s.Same (s.setIovec iovec) :=
  ⟨⟨rfl, rfl, rfl, rfl⟩, rfl⟩

lemma same_setMem (s : LoopState) (m : Bytes) : s.Same (s.setMem m) := ⟨.refl _, rfl⟩

lemma keeps_discardDesc (s : LoopState) (n : ℕ) : s.Keeps (s.discardDesc n) := ⟨rfl, rfl⟩

lemma same_enableNotify (s : LoopState) : s.Same (s.enableNotify acked).2 :=
  ⟨virtqEnableNotify_sameRing, rfl⟩

lemma same_disableNotify (s : LoopState) : s.Same (s.disableNotify acked) :=
  ⟨virtqDisableNotify_sameRing, rfl⟩

lemma same_notify (s : LoopState) : s.Same (s.notify acked) := ⟨virtqNeedNotify_sameRing, rfl⟩

lemma same_addUsed (s : LoopState) : s.Same (s.addUsed idx len) := ⟨virtqAddUsedN_sameRing, rfl⟩

lemma same_whileHasDescs (s : LoopState) : s.Same (s.whileHasDescs acked) := by
  rw [whileHasDescs]
  split
  · exact .refl s
  · exact (same_stop s).trans (same_notify _)

end LoopState

lemma DeviceLoop.same_enter (loop : DeviceLoop) (env : LoopEnv) (s : LoopState) :
    s.Same (loop.enter env s) := by
  have hrx : s.Same (if env.net.rxReady = false ∨ env.net.resetting then s.stop
      else if s.hasDescs = false then s.stop.notify env.acked else s.disableNotify env.acked) := by
    split
    · exact s.same_stop
    split
    · exact s.same_stop.trans (LoopState.same_notify _)
    · exact s.same_disableNotify
  cases loop with
  | tapRx => exact hrx
  | netmapRx => exact hrx
  | proctx => exact .refl s
  | notifyTx =>
    have h := @LoopState.same_disableNotify env.acked { s with inNum := 0, outNum := 0 }
    exact ⟨h.ring, h.log⟩

lemma DeviceLoop.same_empty (s : LoopState) : s.Same (loop.empty env s) := by
  have henable := @LoopState.same_enableNotify env.acked s
  cases loop with
  | tapRx =>
    rw [DeviceLoop.empty]
    split
    · exact (henable.trans (LoopState.same_disableNotify _)).trans (LoopState.same_whileHasDescs _)
    · exact (henable.trans (LoopState.same_stop _)).trans (LoopState.same_notify _)
  | netmapRx =>
    rw [DeviceLoop.empty]
    split
    · exact henable.trans (LoopState.same_disableNotify _)
    · exact (henable.trans (LoopState.same_stop _)).trans (LoopState.same_notify _)
  | proctx => exact s.same_stop
  | notifyTx =>
    rw [DeviceLoop.empty]
    split
    · exact henable.trans (LoopState.same_disableNotify _)
    · exact henable.trans (LoopState.same_stop _)

lemma DeviceLoop.same_add (loop : DeviceLoop) (env : LoopEnv) (idx len : ℕ) (s : LoopState) :
    s.Same (loop.add env idx len s) := by
  have hadd := @LoopState.same_addUsed idx len s
  cases loop with
  | tapRx => exact hadd.trans (LoopState.same_whileHasDescs _)
  | netmapRx => exact hadd.trans (LoopState.same_notify _)
  | proctx => exact hadd.trans (LoopState.same_stop _)
  | notifyTx => exact hadd.trans (LoopState.same_notify _)

end Same

/-! ### One turn -/

/-- The loop stores the header of a packet into the first buffer. -/
def DeviceLoop.Receives : DeviceLoop → Prop
  | tapRx | netmapRx => True
  | proctx | notifyTx => False

/-- How a turn serves the head -/
inductive DeviceLoop.ServedAs (loop : DeviceLoop) (env : LoopEnv) (e : LoopInput) (s : LoopState) :
    HeadServed → Prop where
  | leave (s' : LoopState) (h : loop.Leaves env e s) (hs : s.Keeps s') :
    ServedAs loop env e s (.leave s')
  | add (s' : LoopState) (len : ℕ) (h : ¬ loop.Leaves env e s) (hs : s.Same s')
    (hm : s'.m = s.m ∨
      loop.Receives ∧ s'.m = storeRxhdr env.net (s.vq.iovec 0).iovBase (e.data s.m)) :
    ServedAs loop env e s (.add s' len)

/-- How a turn ends -/
inductive DeviceLoop.SteppedTo (loop : DeviceLoop) (env : LoopEnv) (e : LoopInput) (r : ℤ)
    (s : LoopState) : LoopState → Prop where
  | empty (h : (r % 2 ^ 16).toNat = s.vq.num) :
    SteppedTo loop env e r s ((loop.empty env s).note r none)
  | leave (s' : LoopState) (hne : (r % 2 ^ 16).toNat ≠ s.vq.num) (h : loop.Leaves env e s)
    (hs : s.Keeps s') : SteppedTo loop env e r s (s'.stop.note r none)
  | add (s' : LoopState) (len : ℕ) (hne : (r % 2 ^ 16).toNat ≠ s.vq.num)
    (h : ¬ loop.Leaves env e s) (hs : s.Same s')
    (hm : s'.m = s.m ∨
      loop.Receives ∧ s'.m = storeRxhdr env.net (s.vq.iovec 0).iovBase (e.data s.m)) :
    SteppedTo loop env e r s
      ((loop.add env (r % 2 ^ 16).toNat len s').note r (some (r % 2 ^ 16).toNat))

section Step

variable {acked idx len : ℕ} {s s₁ s₂ : LoopState} {env : LoopEnv} {loop : DeviceLoop}
  {e : LoopInput}

/-- The ring is told that the loop waits for chains again. -/
lemma LoopState.same_leave (s : LoopState) : s.Same ((s.enableNotify acked).2.notify acked) :=
  (LoopState.same_enableNotify s).trans (LoopState.same_notify _)

lemma DeviceLoop.serve_servedAs (loop : DeviceLoop) (env : LoopEnv) (e : LoopInput)
    (s : LoopState) : loop.ServedAs env e s (loop.serve env e s) := by
  cases loop with
  | tapRx =>
    rw [DeviceLoop.serve]
    cases htrim : rxIovTrim s.vq.iovec (toInt32 s.inNum) env.net.rxVhdrlen with
    | none => exact .leave s (Or.inl htrim) ⟨rfl, rfl⟩
    | some t =>
      dsimp only
      split
      · rename_i hblock
        have hdiscard :=
          (LoopState.same_setIovec s t.1).keeps.trans (LoopState.keeps_discardDesc _ 1)
        exact .leave _ (Or.inr hblock) (hdiscard.trans (LoopState.same_leave _).keeps)
      · rename_i hblock
        refine .add _ _ ?_ ((LoopState.same_setIovec s t.1).trans (LoopState.same_setMem _ _))
          (Or.inr ⟨trivial, rfl⟩)
        rintro (hnone | hblock')
        · rw [htrim] at hnone
          cases hnone
        · exact hblock hblock'
  | netmapRx =>
    rw [DeviceLoop.serve]
    cases htrim : rxIovTrim s.vq.iovec (toInt32 s.inNum) env.net.rxVhdrlen with
    | none => exact .leave s (Or.inl htrim) ⟨rfl, rfl⟩
    | some t =>
      dsimp only
      split
      · rename_i hlen
        exact .leave _ (Or.inr hlen)
          ((LoopState.same_setIovec s (e.iov t.1)).trans (LoopState.same_leave _)).keeps
      · rename_i hlen
        refine .add _ _ ?_ ((LoopState.same_setIovec s _).trans (LoopState.same_setMem _ _))
          (Or.inr ⟨trivial, rfl⟩)
        rintro (hnone | hlen')
        · rw [htrim] at hnone
          cases hnone
        · exact hlen hlen'
  | proctx => exact .add _ _ (fun h => h) (LoopState.same_setIovec s _) (Or.inl rfl)
  | notifyTx =>
    rw [DeviceLoop.serve]
    split
    · rename_i hin
      exact .leave s hin ⟨rfl, rfl⟩
    · rename_i hin
      exact .add s 0 hin (.refl s) (Or.inl rfl)

lemma DeviceLoop.step_steppedTo (loop : DeviceLoop) (env : LoopEnv) (e : LoopInput)
    (hrun : s.running = true) :
    loop.SteppedTo env e (loop.look env s e).1 (loop.look env s e).2 (loop.step env s e) := by
  rw [DeviceLoop.step, if_neg (by simp [hrun])]
  dsimp only
  generalize loop.look env s e = q
  split
  · exact .empty ‹_›
  · rename_i hidx
    have hserved := loop.serve_servedAs env e q.2
    generalize loop.serve env e q.2 = served at hserved
    cases hserved with
    | leave s' h hs => exact .leave s' hidx h hs
    | add s' len h hs hm => exact .add s' len hidx h hs hm

/-- The turn of `virtio_net_proctx` is the function of the network backend. -/
lemma DeviceLoop.proctx_step (hrun : s.running = true) :
    let p := env.net.proctx env.vm env.fn env.pad (e.guest s.m) s.vq s.inNum s.outNum
    (DeviceLoop.proctx.step env s e).vq = p.vq ∧ (DeviceLoop.proctx.step env s e).m = p.m ∧
      (DeviceLoop.proctx.step env s e).log.head?.bind Turn.added = p.used := by
  rw [DeviceLoop.step, if_neg (by simp [hrun]), VirtioNet.proctx]
  dsimp only [DeviceLoop.look, LoopState.getDescs, LoopState.setMem, DeviceLoop.iovSize]
  generalize virtqGetDescs env.vm (e.guest s.m) s.vq s.vq.iovec VIRTIO_NET_MAXSEGS s.inNum
    s.outNum = r
  by_cases hidx : (r.1 % 2 ^ 16).toNat = r.2.1.num
  · rw [if_pos (id hidx : _ = (r.2.1.setIovec r.2.2.iov).num),
      if_pos (id hidx : _ = (r.2.1.setIovec r.2.2.iov).num)]
    exact ⟨rfl, rfl, rfl⟩
  · rw [if_neg (id hidx : ¬ _ = (r.2.1.setIovec r.2.2.iov).num),
      if_neg (id hidx : ¬ _ = (r.2.1.setIovec r.2.2.iov).num)]
    exact ⟨rfl, rfl, rfl⟩

end Step

/-! ### What a turn notes -/

section Handled

variable {s : LoopState} {env : LoopEnv} {loop : DeviceLoop} {e : LoopInput} {es : List LoopInput}

/-- The look of a turn is a call of `virtq_get_descs` on the memory that the driver has left. -/
lemma DeviceLoop.look_returned (loop : DeviceLoop) (env : LoopEnv) (s : LoopState)
    (e : LoopInput) : ∃ r, Returned s.vq (e.guest s.m) (loop.iovSize s.vq) r ∧
    loop.look env s e = (r.1, { s with
      vq := r.2.1.setIovec r.2.2.iov
      m := e.guest s.m
      inNum := r.2.2.inNum
      outNum := r.2.2.outNum }) :=
  ⟨_, virtqGetDescs_returned env.vm (e.guest s.m) s.vq s.vq.iovec (loop.iovSize s.vq) s.inNum
    s.outNum, rfl⟩

lemma DeviceLoop.look_keeps (loop : DeviceLoop) (env : LoopEnv) (s : LoopState) (e : LoopInput) :
    s.Keeps (loop.look env s e).2 := by
  obtain ⟨r, hr, hlook⟩ := loop.look_returned env s e
  rw [hlook]
  cases hr with
  | empty f h => exact ⟨rfl, rfl⟩
  | error r f h hr => exact ⟨rfl, rfl⟩
  | head i f h hi hword hcount => exact ⟨rfl, rfl⟩

/-- What is not an error and not the size of the queue is a head. -/
lemma DeviceLoop.look_idx_lt (hret : 0 ≤ (loop.look env s e).1)
    (hne : ((loop.look env s e).1 % 2 ^ 16).toNat ≠ s.vq.num) :
    ((loop.look env s e).1 % 2 ^ 16).toNat < s.vq.num := by
  obtain ⟨r, hr, hlook⟩ := loop.look_returned env s e
  rw [hlook] at hret hne ⊢
  cases hr with
  | empty f h =>
    dsimp only at hret hne ⊢
    by_cases hlt : s.vq.num < 2 ^ 16
    · have hnum : toInt32 s.vq.num = s.vq.num := by
        rw [toInt32, if_pos (by omega)]
      omega
    · omega
  | error r f h hr => exact absurd hret (not_le_of_gt hr.neg)
  | head i f h hi hword hcount =>
    dsimp only
    omega

/-- In 16 bits an error is at least 65514. -/
lemma DeviceLoop.look_idx_of_neg (hret : (loop.look env s e).1 < 0) (hnum : s.vq.num < 65514) :
    65514 ≤ ((loop.look env s e).1 % 2 ^ 16).toNat := by
  obtain ⟨r, hr, hlook⟩ := loop.look_returned env s e
  rw [hlook] at hret ⊢
  cases hr with
  | empty f h =>
    have hpos : toInt32 s.vq.num = s.vq.num := by
      rw [toInt32, if_pos (by omega)]
    dsimp only at hret
    omega
  | error r f h hr =>
    dsimp only
    rcases hr with rfl | rfl
    · decide
    · decide
  | head i f h hi hword hcount =>
    dsimp only at hret
    omega

/-- Every turn notes what was returned. -/
lemma LoopState.handled_note {s' : LoopState} {r : ℤ} {added : Option ℕ} (h : s.Keeps s') :
    (s'.note r added).Handled ↔ Turn.Ok s.vq.num ⟨r, added, !s'.running⟩ ∧ s.Handled := by
  have hlog : (s'.note r added).log = ⟨r, added, !s'.running⟩ :: s.log := congrArg _ h.log
  have hnum : (s'.note r added).vq.num = s.vq.num := h.num
  rw [LoopState.Handled, hlog, hnum, List.forall_mem_cons]
  exact Iff.rfl

lemma DeviceLoop.step_of_stopped (hrun : ¬ s.running = true) : loop.step env s e = s := by
  rw [DeviceLoop.step, if_pos (by simpa using hrun)]

lemma DeviceLoop.step_num : (loop.step env s e).vq.num = s.vq.num := by
  by_cases hrun : s.running = true
  swap
  · rw [loop.step_of_stopped hrun]
  have hlook := loop.look_keeps env s e
  have hto := loop.step_steppedTo env e hrun
  generalize loop.step env s e = s₁ at hto
  cases hto with
  | empty hidx => exact (hlook.trans (loop.same_empty _).keeps).num
  | leave s' hne hleaves hs => exact (hlook.trans hs).num
  | add s' len hne hleaves hs hm =>
    exact (hlook.trans (hs.trans (loop.same_add env _ len s')).keeps).num

/-- A turn without an error is as it should be. -/
lemma DeviceLoop.step_handled (hrun : s.running = true) (hret : 0 ≤ (loop.look env s e).1) :
    (loop.step env s e).Handled ↔ s.Handled := by
  have hlook := loop.look_keeps env s e
  have hto := loop.step_steppedTo env e hrun
  have hidx := loop.look_idx_lt hret
  generalize loop.look env s e = q at *
  have hneg : ¬ q.1 < 0 := not_lt_of_ge hret
  generalize loop.step env s e = s₁ at hto
  cases hto with
  | empty hidx =>
    rw [LoopState.handled_note (hlook.trans (loop.same_empty _).keeps)]
    exact and_iff_right ⟨fun h => absurd h hneg, fun _ hid => by cases hid⟩
  | leave s' hne hleaves hs =>
    rw [LoopState.handled_note (hlook.trans (hs.trans (LoopState.same_stop s').keeps))]
    exact and_iff_right ⟨fun h => absurd h hneg, fun _ hid => by cases hid⟩
  | add s' len hne hleaves hs hm =>
    rw [LoopState.handled_note (hlook.trans (hs.trans (loop.same_add env _ len s')).keeps)]
    refine and_iff_right ⟨fun h => absurd h hneg, fun id hid => ?_⟩
    rw [← Option.some.inj hid]
    exact hidx (hlook.num ▸ hne)

/-- Below 65514 an error is as it should be if and only if it is not taken for a head. -/
lemma DeviceLoop.step_handled_iff (hnum : s.vq.num < 65514) :
    (loop.step env s e).Handled ↔ s.Handled ∧ ¬ loop.TakesError env s e := by
  by_cases hrun : s.running = true
  swap
  · rw [loop.step_of_stopped hrun]
    exact (and_iff_left fun htake => hrun htake.1).symm
  by_cases hret : 0 ≤ (loop.look env s e).1
  · rw [loop.step_handled hrun hret]
    exact (and_iff_left fun htake => not_lt_of_ge hret htake.2.1).symm
  have hneg := lt_of_not_ge hret
  have hidx := loop.look_idx_of_neg hneg hnum
  have hlook := loop.look_keeps env s e
  have hto := loop.step_steppedTo env e hrun
  rw [DeviceLoop.TakesError]
  generalize loop.look env s e = q at *
  generalize loop.step env s e = s₁ at hto
  cases hto with
  | empty hnum' =>
    have := hlook.num
    omega
  | leave s' hne hleaves hs =>
    rw [LoopState.handled_note (hlook.trans (hs.trans (LoopState.same_stop s').keeps))]
    have hok : Turn.Ok s.vq.num ⟨q.1, none, !s'.stop.running⟩ :=
      ⟨fun _ => ⟨rfl, rfl⟩, fun _ hid => by cases hid⟩
    exact ⟨fun h => ⟨h.2, fun htake => htake.2.2 hleaves⟩, fun h => ⟨hok, h.1⟩⟩
  | add s' len hne hleaves hs hm =>
    rw [LoopState.handled_note (hlook.trans (hs.trans (loop.same_add env _ len s')).keeps)]
    refine iff_of_false (fun h => ?_) fun h => h.2 ⟨hrun, hneg, hleaves⟩
    cases (h.1.error hneg).1

end Handled

/-! ### Termination -/

/-- `avail->idx` is apart from the used ring with its event index, and neither ring wraps around the
memory. -/
structure VirtQueue.IdxApart (vq : VirtQueue) : Prop where
  num : vq.num < 2 ^ 16
  lastAvailIdx : vq.lastAvailIdx < 2 ^ 16
  avail : vq.avail + 4 ≤ 2 ^ 64
  used : vq.used + (4 + 8 * vq.num) + 2 ≤ 2 ^ 64
  apart : vq.avail + 4 ≤ vq.used ∨ vq.used + (4 + 8 * vq.num) + 2 ≤ vq.avail + 2

/-- In a turn from `s` no call of `virtq_get_descs` returns an error, and nobody writes
`avail->idx`: neither the driver, nor a packet, nor the header of a packet. -/
structure DeviceLoop.Calm (loop : DeviceLoop) (env : LoopEnv) (s : LoopState) (e : LoopInput) :
    Prop where
  ret : 0 ≤ (loop.look env s e).1
  guest : ∀ m, s.vq.availRingIdx (e.guest m) = s.vq.availRingIdx m
  data : ∀ m, s.vq.availRingIdx (e.data m) = s.vq.availRingIdx m
  header : loop.Receives → let vrx := ((loop.look env s e).2.vq.iovec 0).iovBase
    vrx + max env.net.rxVhdrlen.toNat 12 ≤ s.vq.avail + 2 ∨ s.vq.avail + 4 ≤ vrx

section Calm

variable {acked idx len : ℕ} {vq : VirtQueue} {m : Bytes} {s s' : LoopState} {env : LoopEnv}
  {loop : DeviceLoop} {e : LoopInput} {es : List LoopInput}

lemma VirtQueue.IdxApart.of_sameRing {vq' : VirtQueue} (h : vq.IdxApart) (hs : vq.SameRing vq') :
    vq'.IdxApart := by
  refine ⟨hs.num ▸ h.num, hs.lastAvailIdx ▸ h.lastAvailIdx, hs.avail ▸ h.avail, ?_, ?_⟩
  · rw [hs.used, hs.num]
    exact h.used
  · rw [hs.used, hs.num, hs.avail]
    exact h.apart

/-- A store into the used ring leaves `avail->idx`. -/
lemma VirtQueue.IdxApart.write (h : vq.IdxApart) {n a v : ℕ} (hlo : vq.used ≤ a)
    (hhi : a + n ≤ vq.used + (4 + 8 * vq.num) + 2) :
    vq.availRingIdx (write m n a v) = vq.availRingIdx m := by
  have havail : add64 vq.avail 2 = vq.avail + 2 := add64_of_lt (by have := h.avail; omega)
  have happart := h.apart
  rw [VirtQueue.availRingIdx, VirtQueue.availRingIdx, havail]
  exact read_write_of_disjoint _ _ (by omega)

lemma VirtQueue.IdxApart.addUsed (h : vq.IdxApart) (hpos : 0 < vq.num) (x : VringUsedElem) :
    vq.availRingIdx (virtqAddUsedN vq [x] m).2 = vq.availRingIdx m := by
  have hnum := h.num
  have hused := h.used
  have hmask : sub32 vq.num 1 = vq.num - 1 := by
    unfold sub32
    omega
  have hstart : vq.usedStart ≤ vq.num - 1 := by
    rw [VirtQueue.usedStart, hmask]
    exact Nat.and_le_right
  have hroom : sub32 vq.num vq.usedStart = vq.num - vq.usedStart := by
    unfold sub32
    omega
  have hslot : add64 vq.used (4 + 8 * vq.usedStart) = vq.used + (4 + 8 * vq.usedStart) :=
    add64_of_lt (by omega)
  have hidx : add64 vq.used 2 = vq.used + 2 := add64_of_lt (by omega)
  rw [virtqAddUsedN, virtqAddUsedChunks]
  dsimp only
  rw [hroom, if_neg (by rw [List.length_singleton]; omega), virtqAddUsedChunk]
  dsimp only
  rw [hidx, h.write (by omega) (by omega)]
  simp only [storeUsed, List.zipIdx_cons, List.zipIdx_nil, List.foldl_cons, List.foldl_nil]
  rw [hslot, h.write (by omega) (by omega), h.write (by omega) (by omega)]

lemma VirtQueue.IdxApart.enableNotify (h : vq.IdxApart) (acked : ℕ) (m : Bytes) :
    vq.availRingIdx (virtqEnableNotify acked vq m).2.2 = vq.availRingIdx m := by
  have hused := h.used
  have hevent : add64 vq.used (4 + 8 * vq.num) = vq.used + (4 + 8 * vq.num) :=
    add64_of_lt (by omega)
  rw [virtqEnableNotify]
  split
  · rfl
  dsimp only
  split
  · rw [virtqUpdateAvailEvent]
    dsimp only
    rw [hevent, h.write (by omega) (by omega)]
  · rw [virtqUpdateUsedFlags]
    dsimp only
    rw [h.write (by omega) (by omega)]

/-- An empty ring that stays empty ends the loop. -/
lemma VirtQueue.IdxApart.enableNotify_fst (h : vq.IdxApart)
    (hidx : vq.availIdx = vq.availRingIdx m) :
    (virtqEnableNotify acked vq m).1 = false := by
  have hkeep := h.enableNotify acked m
  rw [virtqEnableNotify] at hkeep ⊢
  split at hkeep
  · rw [if_pos ‹_›]
  · rw [if_neg ‹_›]
    dsimp only at hkeep ⊢
    change (vq.availRingIdx _ != vq.availIdx) = false
    rw [hkeep, hidx]
    exact bne_self_eq_false _

lemma DeviceLoop.empty_stops (h : s.vq.IdxApart) (hidx : s.vq.availIdx = s.vq.availRingIdx s.m) :
    (loop.empty env s).running = false := by
  have henable : (s.enableNotify env.acked).1 = false := h.enableNotify_fst hidx
  cases loop with
  | tapRx =>
    rw [DeviceLoop.empty, if_neg (by simp [henable])]
    rfl
  | netmapRx =>
    rw [DeviceLoop.empty, if_neg (by simp [henable])]
    rfl
  | proctx => rfl
  | notifyTx =>
    rw [DeviceLoop.empty, if_neg (by simp [henable])]
    rfl

lemma LoopState.whileHasDescs_mem : (s.whileHasDescs acked).m = s.m := by
  rw [LoopState.whileHasDescs]
  split <;> rfl

lemma DeviceLoop.add_availRingIdx (loop : DeviceLoop) (env : LoopEnv) (idx len : ℕ)
    (h : s.vq.IdxApart) (hpos : 0 < s.vq.num) :
    s.vq.availRingIdx (loop.add env idx len s).m = s.vq.availRingIdx s.m := by
  have hadd : s.vq.availRingIdx (s.addUsed idx len).m = s.vq.availRingIdx s.m := h.addUsed hpos _
  cases loop with
  | tapRx => rwa [DeviceLoop.add, LoopState.whileHasDescs_mem]
  | netmapRx => exact hadd
  | proctx => exact hadd
  | notifyTx => exact hadd

lemma VirtQueue.SameRing.availRingIdx {vq' : VirtQueue} (h : vq.SameRing vq') :
    vq'.availRingIdx m = vq.availRingIdx m := by
  rw [VirtQueue.availRingIdx, VirtQueue.availRingIdx, h.avail]

/-- The header of a packet that does not cover `avail->idx` leaves it. -/
lemma storeRxhdr_availRingIdx {net : VirtioNet} {vrx : ℕ} (h : vq.IdxApart)
    (hvrx : vrx + max net.rxVhdrlen.toNat 12 ≤ vq.avail + 2 ∨ vq.avail + 4 ≤ vrx) :
    vq.availRingIdx (storeRxhdr net vrx m) = vq.availRingIdx m := by
  have havail : add64 vq.avail 2 = vq.avail + 2 := add64_of_lt (by have := h.avail; omega)
  have hzero : read (fun x => if vrx ≤ x ∧ x < vrx + net.rxVhdrlen.toNat then 0 else m x) 2
      (vq.avail + 2) = read m 2 (vq.avail + 2) := by
    refine read_congr fun x hx => if_neg ?_
    rw [Set.mem_Ico] at hx
    omega
  rw [VirtQueue.availRingIdx, VirtQueue.availRingIdx, havail, storeRxhdr]
  split
  · rw [read_write_of_disjoint _ _ (by omega), hzero]
  · exact hzero

/-- One chain less is available. -/
lemma available_succ {vq' : VirtQueue} {m' : Bytes} (hlast : vq.lastAvailIdx < 2 ^ 16)
    (hpos : vq.available m ≠ 0) (hidx : vq'.availRingIdx m' = vq.availRingIdx m)
    (hlast' : vq'.lastAvailIdx = (vq.lastAvailIdx + 1) % 2 ^ 16) :
    vq'.available m' + 1 = vq.available m := by
  have havail : vq.availRingIdx m < 2 ^ 16 := read_lt m 2 _
  rw [VirtQueue.available] at hpos ⊢
  rw [VirtQueue.available, hidx, hlast']
  unfold sub32 at hpos ⊢
  omega

/-- Where a look without an error leads: to an empty ring, or one chain further -/
lemma DeviceLoop.look_apart (loop : DeviceLoop) (env : LoopEnv) (e : LoopInput)
    (h : s.vq.IdxApart) (hret : 0 ≤ (loop.look env s e).1) :
    (loop.look env s e).2.vq.IdxApart ∧ (loop.look env s e).2.m = e.guest s.m ∧
    (loop.look env s e).2.vq.avail = s.vq.avail ∧
    (((loop.look env s e).1 % 2 ^ 16).toNat = s.vq.num ∧
        (loop.look env s e).2.vq.availIdx = s.vq.availRingIdx (e.guest s.m) ∨
      ((loop.look env s e).1 % 2 ^ 16).toNat < s.vq.num ∧ s.vq.available (e.guest s.m) ≠ 0 ∧
        (loop.look env s e).2.vq.lastAvailIdx = (s.vq.lastAvailIdx + 1) % 2 ^ 16) := by
  have hnum := h.num
  obtain ⟨r, hr, hlook⟩ := loop.look_returned env s e
  rw [hlook] at hret ⊢
  cases hr with
  | error r f hpos hr => exact absurd hret (not_le_of_gt hr.neg)
  | empty f hempty =>
    refine ⟨⟨h.num, h.lastAvailIdx, h.avail, h.used, h.apart⟩, rfl, rfl, Or.inl ⟨?_, rfl⟩⟩
    dsimp only
    rw [toInt32, if_pos (by omega)]
    omega
  | head i f hpos hi hword hcount =>
    refine ⟨⟨h.num, Nat.mod_lt _ (Nat.two_pow_pos 16), h.avail, h.used, h.apart⟩, rfl, rfl,
      Or.inr ⟨?_, hpos, rfl⟩⟩
    dsimp only
    omega

/-- A calm turn ends the loop or takes one chain. -/
lemma DeviceLoop.Calm.step (h : s.vq.IdxApart) (hrun : s.running = true)
    (hc : loop.Calm env s e) : (loop.step env s e).running = false ∨
      (loop.step env s e).vq.IdxApart ∧
        (loop.step env s e).vq.available (loop.step env s e).m + 1 = s.vq.available s.m := by
  obtain ⟨hret, hguest, hdata, hheader⟩ := hc
  have hto := loop.step_steppedTo env e hrun
  have hkeeps := loop.look_keeps env s e
  obtain ⟨hapart, hmem, havail, hcases⟩ := loop.look_apart env e h hret
  generalize loop.step env s e = s₁ at hto
  generalize loop.look env s e = q at *
  have hword (m : Bytes) : q.2.vq.availRingIdx m = s.vq.availRingIdx m := by
    rw [VirtQueue.availRingIdx, VirtQueue.availRingIdx, havail]
  cases hto with
  | empty hidx =>
    refine Or.inl (DeviceLoop.empty_stops hapart ?_)
    rw [hword, hmem]
    rcases hcases with ⟨-, hidx'⟩ | ⟨hlt, -⟩
    · exact hidx'
    · exact absurd hidx (hkeeps.num ▸ Nat.ne_of_lt hlt)
  | leave s' _ _ _ => exact Or.inl rfl
  | add s' len hne hleaves hs hm =>
    rcases hcases with ⟨hidx, -⟩ | ⟨hlt, hpos, hlast⟩
    · exact absurd (hidx.trans hkeeps.num.symm) hne
    have hadd := loop.same_add env (q.1 % 2 ^ 16).toNat len s'
    have hs' : s'.vq.IdxApart := hapart.of_sameRing hs.ring
    have hpos' : s.vq.available s.m ≠ 0 := by
      rwa [VirtQueue.available, hguest] at hpos
    have hnum' : 0 < s'.vq.num := by
      rw [hs.ring.num, hkeeps.num]
      exact Nat.zero_lt_of_lt hlt
    have hstored : s.vq.availRingIdx s'.m = s.vq.availRingIdx s.m := by
      rcases hm with hm | ⟨hreceives, hm⟩
      · rw [hm, hmem, hguest]
      · rw [hm, storeRxhdr_availRingIdx h (hheader hreceives), hdata, hmem, hguest]
    refine Or.inr ⟨hs'.of_sameRing hadd.ring, available_succ h.lastAvailIdx hpos' ?_
      (hadd.ring.lastAvailIdx.trans (hs.ring.lastAvailIdx.trans hlast))⟩
    change (loop.add env _ len s').vq.availRingIdx (loop.add env _ len s').m = _
    rw [hadd.ring.availRingIdx, loop.add_availRingIdx env _ len hs' hnum', hs.ring.availRingIdx,
      hword, hstored]

end Calm

/-! ### Whole runs -/

/-- A loop as it starts; `in` and `out` are not initialized. -/
def DeviceLoop.start (loop : DeviceLoop) (env : LoopEnv) (vq : VirtQueue) (m : Bytes)
    (inNum outNum : ℕ) : LoopState :=
  loop.enter env ⟨vq, m, inNum, outNum, true, []⟩

section Runs

variable {s : LoopState} {env : LoopEnv} {loop : DeviceLoop} {e : LoopInput} {es : List LoopInput}

lemma DeviceLoop.exec_handled_iff (hnum : s.vq.num < 65514) :
    (exec (loop.step env) s es).Handled ↔
      s.Handled ∧ Along (loop.step env) (fun s e => ¬ loop.TakesError env s e) s es := by
  induction es generalizing s with
  | nil => simp
  | cons e es ih =>
    have hnum' : (loop.step env s e).vq.num < 65514 := by rwa [loop.step_num]
    rw [exec_cons, along_cons, ih hnum', loop.step_handled_iff hnum, and_assoc]

lemma DeviceLoop.exec_of_stopped (hrun : ¬ s.running = true) : exec (loop.step env) s es = s := by
  induction es with
  | nil => rfl
  | cons e es ih => rw [exec_cons, loop.step_of_stopped hrun, ih]

lemma DeviceLoop.Calm.exec_handled (h : s.Handled)
    (hc : Along (loop.step env) (fun s e => s.running = true → loop.Calm env s e) s es) :
    (exec (loop.step env) s es).Handled := by
  refine exec_induction (fun s e h hc => ?_) h hc
  by_cases hrun : s.running = true
  · exact (loop.step_handled hrun (hc hrun).ret).2 h
  · rwa [loop.step_of_stopped hrun]

/-- Every turn takes one of the chains that are available. -/
lemma DeviceLoop.Calm.exec_stops (h : s.vq.IdxApart)
    (hc : Along (loop.step env) (fun s e => s.running = true → loop.Calm env s e) s es)
    (hlen : s.vq.available s.m < es.length) : (exec (loop.step env) s es).running = false := by
  induction es generalizing s with
  | nil => cases hlen
  | cons e es ih =>
    by_cases hrun : s.running = true
    swap
    · rw [loop.exec_of_stopped hrun]
      simpa using hrun
    rcases (hc.1 hrun).step h hrun with hstop | ⟨hapart, havail⟩
    · rw [exec_cons, loop.exec_of_stopped (by simp [hstop]), hstop]
    · rw [List.length_cons] at hlen
      exact ih hapart hc.2 (by omega)

end Runs

/-- The turns of a loop are as they should be if and only if no error is taken for a head. Where
there are no errors and the index of the ring stays, the loop takes what is available and stops. -/
theorem device_loops_survive (loop : DeviceLoop) (env : LoopEnv) (vq : VirtQueue) (m : Bytes)
    (inNum outNum : ℕ) (es : List LoopInput) :
    let s := loop.start env vq m inNum outNum
    let s' := exec (loop.step env) s es
    (vq.num < 65514 → (s'.Handled ↔
      Along (loop.step env) (fun s e => ¬ loop.TakesError env s e) s es)) ∧
    (vq.IdxApart → Along (loop.step env) (fun s e => s.running = true → loop.Calm env s e) s es →
      s'.Handled ∧ (s.vq.available s.m < es.length → s'.running = false)) := by
  have hsame := loop.same_enter env ⟨vq, m, inNum, outNum, true, []⟩
  have hhandled : (loop.start env vq m inNum outNum).Handled := by
    rw [LoopState.Handled, DeviceLoop.start, hsame.log]
    exact List.forall_mem_nil _
  refine ⟨fun hnum => ?_, fun hapart hc => ?_⟩
  · rw [DeviceLoop.exec_handled_iff (hsame.ring.num ▸ hnum)]
    exact and_iff_right hhandled
  · exact ⟨DeviceLoop.Calm.exec_handled hhandled hc,
      DeviceLoop.Calm.exec_stops (hapart.of_sameRing hsame.ring) hc⟩

/-! ### An index out of range -/

/-- The index of the ring is more than its size ahead, and nobody writes it. -/
structure DeviceLoop.Stuck (s : LoopState) : Prop where
  running : s.running = true
  inNum : s.inNum = 0
  apart : s.vq.IdxApart
  pos : 0 < s.vq.num
  num : s.vq.num < 65514
  ahead : s.vq.num < s.vq.available s.m

section Stuck

variable {s : LoopState} {env : LoopEnv} {e : LoopInput}

lemma DeviceLoop.Stuck.look (env : LoopEnv) (h : Stuck s)
    (hguest : ∀ m, s.vq.availRingIdx (e.guest m) = s.vq.availRingIdx m) :
    (notifyTx.look env s e).1 = -EINVAL ∧ Stuck (notifyTx.look env s e).2 := by
  have havail : s.vq.available (e.guest s.m) = s.vq.available s.m := by
    rw [VirtQueue.available, VirtQueue.available, hguest]
  have hahead := h.ahead
  have hbad := @virtqGetDescs_bad env.vm (e.guest s.m) s.vq s.vq.iovec s.vq.iovecSize s.inNum
    s.outNum (by omega) (Or.inl (by omega))
  rw [DeviceLoop.look, LoopState.getDescs]
  change (virtqGetDescs env.vm (e.guest s.m) s.vq s.vq.iovec s.vq.iovecSize s.inNum
      s.outNum).1 = _ ∧
    Stuck { s with
      m := e.guest s.m
      vq := (virtqGetDescs env.vm (e.guest s.m) s.vq s.vq.iovec s.vq.iovecSize s.inNum
        s.outNum).2.1.setIovec _
      inNum := (virtqGetDescs env.vm (e.guest s.m) s.vq s.vq.iovec s.vq.iovecSize s.inNum
        s.outNum).2.2.inNum
      outNum := _ }
  rw [hbad]
  exact ⟨rfl, h.running, h.inNum, ⟨h.apart.num, h.apart.lastAvailIdx, h.apart.avail, h.apart.used,
    h.apart.apart⟩, h.pos, h.num, hahead.trans_eq havail.symm⟩

/-- `virtio_console_notify_tx` adds an element for the error and asks again. -/
lemma DeviceLoop.Stuck.step (h : Stuck s)
    (hguest : ∀ m, s.vq.availRingIdx (e.guest m) = s.vq.availRingIdx m) :
    Stuck (notifyTx.step env s e) := by
  obtain ⟨hret, hstuck⟩ := h.look env hguest
  rw [DeviceLoop.step, if_neg (by simp [h.running])]
  dsimp only
  generalize notifyTx.look env s e = q at hstuck hret
  have hidx : (q.1 % 2 ^ 16).toNat = 65514 := by
    rw [hret]
    decide
  have hne : (65514 : ℕ) ≠ q.2.vq.num := (Nat.ne_of_lt hstuck.num).symm
  rw [hidx, if_neg hne, DeviceLoop.serve, if_neg (not_not.2 hstuck.inNum)]
  have hadd := notifyTx.same_add env 65514 0 q.2
  have hword := notifyTx.add_availRingIdx env 65514 0 hstuck.apart hstuck.pos
  refine ⟨hstuck.running, hstuck.inNum, hstuck.apart.of_sameRing hadd.ring,
    hstuck.pos.trans_eq hadd.ring.num.symm, hadd.ring.num.trans_lt hstuck.num, ?_⟩
  have hahead := hstuck.ahead
  rw [VirtQueue.available] at hahead
  change (notifyTx.add env 65514 0 q.2).vq.num <
    (notifyTx.add env 65514 0 q.2).vq.available (notifyTx.add env 65514 0 q.2).m
  rwa [VirtQueue.available, hadd.ring.availRingIdx, hword, hadd.ring.num, hadd.ring.lastAvailIdx]

lemma DeviceLoop.Stuck.exec {es : List LoopInput} (h : Stuck s) (hquiet : ∀ e ∈ es, e.guest = id) :
    Stuck (exec (notifyTx.step env) s es) :=
  exec_induction (fun s e h hid => h.step fun m => by rw [hid, id]) h (along_const.2 hquiet)

end Stuck

instance (num : ℕ) (t : Turn) : Decidable (t.Ok num) :=
  decidable_of_iff ((t.ret < 0 → t.added = none ∧ t.stopped = true) ∧ ∀ id ∈ t.added, id < num)
    ⟨fun h => ⟨h.1, h.2⟩, fun h => ⟨h.error, h.added⟩⟩

instance (s : LoopState) : Decidable s.Handled := inferInstanceAs (Decidable (∀ _ ∈ _, _))

/-- A queue that has been used before, with the index of its ring too far ahead -/
def usedQueue : VirtQueue := netQueue.setIovec fun _ => ⟨0x20000000, 2048⟩

def badIndex : Bytes := fun a => if a = 0x10008003 then 8 else 0

def loopEnv : LoopEnv := ⟨mvmVm, 0, { freshNet with rxReady := true }, .tap, 0⟩

/-- The driver does nothing, and a packet of 60 bytes is there. -/
def quietInput : LoopInput := ⟨id, 60, false, id, id⟩

lemma usedQueue_idxApart : usedQueue.IdxApart :=
  ⟨by decide, by decide, by decide, by decide, by decide⟩

lemma badIndex_stuck :
    DeviceLoop.Stuck (DeviceLoop.start .notifyTx loopEnv usedQueue badIndex 0 0) :=
  have hsame := DeviceLoop.same_enter .notifyTx loopEnv ⟨usedQueue, badIndex, 0, 0, true, []⟩
  ⟨rfl, rfl, usedQueue_idxApart.of_sameRing hsame.ring, by decide +kernel, by decide +kernel,
    by decide +kernel⟩

theorem device_loops_survive_one_chain :
    let s := DeviceLoop.start .notifyTx loopEnv usedQueue (emptySegments 3 0) 0 0
    let s' := exec (DeviceLoop.step .notifyTx loopEnv) s [quietInput, quietInput]
    s'.Handled ∧ s'.running = false := by
  have h := (device_loops_survive .notifyTx loopEnv usedQueue (emptySegments 3 0) 0 0
    [quietInput, quietInput]).2 usedQueue_idxApart
    ⟨fun _ => ⟨by decide +kernel, fun _ => rfl, fun _ => rfl, False.elim⟩,
      fun _ => ⟨by decide +kernel, fun _ => rfl, fun _ => rfl, False.elim⟩, trivial⟩
  exact ⟨h.1, h.2 (by decide +kernel)⟩

/-- Every loop adds an element for an error of `virtq_get_descs`, and the console does so without
end. -/
theorem device_loops_take_errors :
    (∀ loop : DeviceLoop, ¬ (exec (loop.step loopEnv) (loop.start loopEnv usedQueue badIndex 0 0)
      [quietInput]).Handled) ∧
    ∀ n, (exec (DeviceLoop.step .notifyTx loopEnv)
      (DeviceLoop.start .notifyTx loopEnv usedQueue badIndex 0 0)
      (List.replicate n quietInput)).running = true := by
  refine ⟨fun loop => ?_, fun n => (badIndex_stuck.exec fun e he => ?_).running⟩
  · cases loop
    all_goals decide +kernel
  · rw [List.eq_of_mem_replicate he]
    rfl

end Minos.Virtio
