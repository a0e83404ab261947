import Mathlib
import Minos.Lib.Run
import Minos.Virtio.Backend
import Minos.Virtio.Descs

/-!
# The network backend

Feature negotiation and the transmit path of `mvm/devices/virtio/virtio_net.c`. A feature is given
by the number of its bit, and the headers of received packets are shorter if the driver does not
merge its buffers.
-/

namespace Minos.Virtio

open ByteMem Run

def VIRTIO_NET_MAXSEGS : ℕ := 256
def VIRTIO_NET_F_MRG_RXBUF : ℕ := 15

/-- `sizeof(struct virtio_net_rxhdr)` -/
def virtioNetRxhdrSize : ℤ := 12

/-- `struct virtio_net` without its threads; `nmd` says whether a netmap port is open. -/
structure VirtioNet where
  dev : VirtioDevice
  tapfd : ℤ
  nmd : Bool
  rxReady : Bool
  resetting : Bool
  closing : Bool
  features : ℕ
  rxMerge : ℕ
  rxVhdrlen : ℤ

/-! ### Negotiation -/

namespace VirtioNet

/-- `virtio_net_init` -/
def init (dev : VirtioDevice) (tapfd : ℤ) (nmd : Bool) : VirtioNet :=
  { dev, tapfd, nmd, rxReady := false, resetting := false, closing := false, features := 0,
    rxMerge := 1, rxVhdrlen := virtioNetRxhdrSize }

/-- `virtio_net_neg_features` -/
def negFeatures (net : VirtioNet) : VirtioNet :=
  let net := { net with features := net.dev.ackedFeatures }
  if net.features &&& VIRTIO_NET_F_MRG_RXBUF = 0 then
    { net with rxMerge := 0, rxVhdrlen := net.rxVhdrlen - 2 }
  else net

/-- `virtio_status_event`, with the registers of the driver's features -/
def statusEvent (net : VirtioNet) (arg feature1 feature0 : ℕ) : VirtioNet :=
  if arg = VIRTIO_DEV_STATUS_FEATURES_OK then
    { net with dev := { net.dev with ackedFeatures := u32ToU64 feature1 feature0 } }.negFeatures
  else net

/-- `virtio_net_reset`, when neither thread is in progress any more -/
def reset (net : VirtioNet) : VirtioNet :=
  let vqs := fun i => if i < net.dev.nrVq then virtqReset (net.dev.vqs i) else net.dev.vqs i
  { net with
    dev := { net.dev with vqs := vqs }
    rxReady := false
    rxMerge := 1
    rxVhdrlen := virtioNetRxhdrSize
    resetting := false
    closing := false }

end VirtioNet

inductive NegotiationEvent where
  /-- `virtio_status_event` -/
  | status (arg feature1 feature0 : ℕ)
  /-- `virtio_net_reset` -/
  | reset
deriving DecidableEq

def negotiationStep (net : VirtioNet) : NegotiationEvent → VirtioNet
  | .status arg feature1 feature0 => net.statusEvent arg feature1 feature0
  | .reset => net.reset

/-- What was acknowledged since the last reset, the latest negotiation first -/
def negotiations (es : List NegotiationEvent) : List ℕ :=
  es.foldl (fun acked e =>
    match e with
    | .status arg feature1 feature0 =>
      if arg = VIRTIO_DEV_STATUS_FEATURES_OK then u32ToU64 feature1 feature0 :: acked else acked
    | .reset => []) []

/-- Buffers are merged unless the last negotiation says otherwise. -/
def merges (acked : List ℕ) : Bool := acked.head?.all (Nat.testBit · VIRTIO_NET_F_MRG_RXBUF)

/-- The header that was negotiated: `rx_vhdrlen` and `rx_merge` -/
def HeaderFollows (net : VirtioNet) (acked : List ℕ) : Prop :=
  net.rxVhdrlen = (if merges acked then 12 else 10) ∧
    net.rxMerge = if merges acked then 1 else 0

instance (net : VirtioNet) (acked : List ℕ) : Decidable (HeaderFollows net acked) :=
  inferInstanceAs (Decidable (_ ∧ _))

/-- The negotiations with none of the bits of the number 15 -/
def withoutLowBits (acked : List ℕ) : ℕ := acked.countP (· &&& VIRTIO_NET_F_MRG_RXBUF = 0)

section Negotiation

variable {net : VirtioNet} {acked : List ℕ} {f : ℕ} {es : List NegotiationEvent}

/-- Each negotiation without the low bits takes two bytes from the header. -/
def HeaderCounts (net : VirtioNet) (acked : List ℕ) : Prop :=
  net.rxVhdrlen = 12 - 2 * withoutLowBits acked ∧
    net.rxMerge = if withoutLowBits acked = 0 then 1 else 0

lemma HeaderCounts.negFeatures (h : HeaderCounts net acked) :
    HeaderCounts net.negFeatures (net.dev.ackedFeatures :: acked) := by
  obtain ⟨hlen, hmerge⟩ := h
  simp only [VirtioNet.negFeatures]
  by_cases hlow : net.dev.ackedFeatures &&& VIRTIO_NET_F_MRG_RXBUF = 0
  · have hcount : withoutLowBits (net.dev.ackedFeatures :: acked) = withoutLowBits acked + 1 :=
      List.countP_cons_of_pos (decide_eq_true hlow)
    rw [if_pos hlow, HeaderCounts, hcount, hlen]
    refine ⟨?_, (if_neg (Nat.succ_ne_zero _)).symm⟩
    push_cast
    ring
  · have hcount : withoutLowBits (net.dev.ackedFeatures :: acked) = withoutLowBits acked :=
      List.countP_cons_of_neg (by simpa using hlow)
    rw [if_neg hlow, HeaderCounts, hcount]
    exact ⟨hlen, hmerge⟩

lemma negotiations_append (e : NegotiationEvent) : negotiations (es ++ [e]) =
    match e with
    | .status arg feature1 feature0 =>
      if arg = VIRTIO_DEV_STATUS_FEATURES_OK then u32ToU64 feature1 feature0 :: negotiations es
      else negotiations es
    | .reset => [] := by
  rw [negotiations, List.foldl_append]
  rfl

lemma headerCounts_exec (dev : VirtioDevice) (tapfd : ℤ) (nmd : Bool)
    (es : List NegotiationEvent) :
    HeaderCounts (exec negotiationStep (.init dev tapfd nmd) es) (negotiations es) := by
  induction es using List.reverseRecOn with
  | nil => exact ⟨rfl, rfl⟩
  | append_singleton es e ih =>
    rw [exec_append, exec_cons, exec_nil, negotiations_append]
    cases e with
    | reset => exact ⟨rfl, rfl⟩
    | status arg feature1 feature0 =>
      simp only [negotiationStep, VirtioNet.statusEvent]
      by_cases harg : arg = VIRTIO_DEV_STATUS_FEATURES_OK
      · rw [if_pos harg, if_pos harg]
        exact @HeaderCounts.negFeatures { exec negotiationStep _ es with dev := _ } _ ih
      · rw [if_neg harg, if_neg harg]
        exact ih

end Negotiation

/-- After every sequence of negotiations and resets the header is the negotiated one exactly when
the negotiations without the low bits are none, or the only one if buffers are not merged. -/
theorem rx_header_follows_iff (dev : VirtioDevice) (tapfd : ℤ) (nmd : Bool)
    (es : List NegotiationEvent) :
    HeaderFollows (exec negotiationStep (.init dev tapfd nmd) es) (negotiations es) ↔
      withoutLowBits (negotiations es) = if merges (negotiations es) then 0 else 1 := by
  obtain ⟨hlen, hmerge⟩ := headerCounts_exec dev tapfd nmd es
  rw [HeaderFollows, hlen, hmerge]
  by_cases h : merges (negotiations es) = true
  · simp only [if_pos h]
    constructor
    · rintro ⟨hlen, -⟩
      omega
    · intro hcount
      rw [hcount]
      exact ⟨rfl, rfl⟩
  · simp only [if_neg h]
    constructor
    · rintro ⟨hlen, -⟩
      omega
    · intro hcount
      rw [hcount]
      exact ⟨rfl, rfl⟩

/-- A network device that was not started yet, with its tap device open -/
def freshNet : VirtioNet :=
  .init ⟨2, fun i => {
    ready := false, num := 0, iovecSize := VIRTIO_NET_MAXSEGS, desc := 0, avail := 0, used := 0,
    lastAvailIdx := 0, availIdx := 0, lastUsedIdx := 0, usedFlags := 0, signalledUsed := 0,
    signalledUsedValid := 0, vqIndex := i, iovec := fun _ => ⟨0, 0⟩, callback := none }, 0⟩ 3 false

/-- The driver asks for merged buffers, and gets the short header. A second negotiation makes it
shorter than any header is. -/
theorem rx_header_not_followed :
    let es := [.status VIRTIO_DEV_STATUS_FEATURES_OK 0 (2 ^ VIRTIO_NET_F_MRG_RXBUF)]
    ¬ HeaderFollows (exec negotiationStep freshNet es) (negotiations es) ∧
      ¬ HeaderFollows (exec negotiationStep freshNet (es ++ es)) (negotiations (es ++ es)) := by
  decide +kernel

/-! ### Transmit -/

/-- What a function of `net->virtio_net_tx` leaves: the iov, the index in it at which the padding
was written, and the number of segments for `writev` -/
structure Sent where
  iovec : ℕ → Iovec
  pad : Option ℤ
  iovcnt : ℤ

/-- Pad the segments from `iovec[first]` on out to 60 bytes; `pad` is the address of the zeros. -/
def padSegments (pad : ℕ) (iovec : ℕ → Iovec) (first iovcnt len : ℤ) : Sent :=
  if len < 60 then
    let i := first + iovcnt
    ⟨Function.update iovec i.toNat ⟨pad, (60 - len).toNat⟩, some i, iovcnt + 1⟩
  else ⟨iovec, none, iovcnt⟩

namespace VirtioNet

/-- `virtio_net_tap_tx` -/
def tapTx (net : VirtioNet) (pad : ℕ) (iovec : ℕ → Iovec) (first iovcnt len : ℤ) : Option Sent :=
  if net.tapfd = -1 then none else some (padSegments pad iovec first iovcnt len)

/-- `virtio_net_netmap_tx` -/
def netmapTx (net : VirtioNet) (pad : ℕ) (iovec : ℕ → Iovec) (first iovcnt len : ℤ) :
    Option Sent :=
  if net.nmd = false then none else some (padSegments pad iovec first iovcnt len)

end VirtioNet

/-- What `net->virtio_net_tx` points to -/
inductive NetTxFn where
  | tap
  | netmap
deriving DecidableEq

/-- `net->virtio_net_tx` -/
def VirtioNet.tx (net : VirtioNet) : NetTxFn → ℕ → (ℕ → Iovec) → ℤ → ℤ → ℤ → Option Sent
  | .tap => net.tapTx
  | .netmap => net.netmapTx

/-- `plen`: the length of the packet, without the header in the first segment -/
def packetLen (iovec : ℕ → Iovec) (out : ℕ) : ℤ :=
  toInt32 (((List.range (out - 1)).map fun i => (iovec (i + 1)).iovLen).sum % 2 ^ 32)

/-- `tlen` -/
def transferLen (iovec : ℕ → Iovec) (out : ℕ) : ℕ :=
  ((iovec 0).iovLen + ((List.range (out - 1)).map fun i => (iovec (i + 1)).iovLen).sum) % 2 ^ 32

/-- The arguments of a call of `net->virtio_net_tx`, and what it leaves if its device is open -/
structure TxCall where
  iovcnt : ℤ
  len : ℤ
  sent : Option Sent

/-- The queue after `virtio_net_proctx`, with the call and the head that went into the used ring -/
structure Proctx where
  vq : VirtQueue
  m : Bytes
  call : Option TxCall
  used : Option ℕ

/-- `virtio_net_proctx`. An error of `virtq_get_descs` is not negative any more in `idx`. -/
@[irreducible] def VirtioNet.proctx (vm : MvmVm) (net : VirtioNet) (fn : NetTxFn) (pad : ℕ)
    (m : Bytes) (vq : VirtQueue) (inNum outNum : ℕ) : Proctx :=
  let r := virtqGetDescs vm m vq vq.iovec VIRTIO_NET_MAXSEGS inNum outNum
  let vq := r.2.1.setIovec r.2.2.iov
  let idx := (r.1 % 2 ^ 16).toNat
  if idx = vq.num then ⟨vq, m, none, none⟩
  else
    let out := r.2.2.outNum
    let iovcnt := toInt32 (sub32 out 1)
    let plen := packetLen vq.iovec out
    let tlen := transferLen vq.iovec out
    let sent := net.tx fn pad vq.iovec 1 iovcnt plen
    let vq := vq.setIovec (sent.elim vq.iovec Sent.iovec)
    let a := virtqAddUsedN vq [⟨idx, tlen⟩] m
    ⟨a.1, a.2, some ⟨iovcnt, plen, sent⟩, some idx⟩

/-- The segments passed on are not a negative number, and the padding is in the iov. -/
def TxCall.Inside (iovecSize : ℕ) (c : TxCall) : Prop :=
  0 ≤ c.iovcnt ∧ ∀ sent ∈ c.sent, 0 ≤ sent.iovcnt ∧ ∀ i ∈ sent.pad, 0 ≤ i ∧ i < iovecSize

/-- The device of `net->virtio_net_tx` is open. -/
def VirtioNet.TxOpen (net : VirtioNet) : NetTxFn → Prop
  | .tap => net.tapfd ≠ -1
  | .netmap => net.nmd ≠ false

section Transmit

variable {net : VirtioNet} {fn : NetTxFn} {vm : MvmVm} {m : Bytes} {vq : VirtQueue}
  {iovec : ℕ → Iovec} {pad iovecSize out inNum outNum : ℕ} {first iovcnt len : ℤ} {sent : Sent}

lemma VirtioNet.mem_tx : sent ∈ net.tx fn pad iovec first iovcnt len ↔
    net.TxOpen fn ∧ padSegments pad iovec first iovcnt len = sent := by
  cases fn with
  | tap =>
    by_cases h : net.tapfd = -1
    · simp [VirtioNet.tx, VirtioNet.tapTx, VirtioNet.TxOpen, h]
    · simp [VirtioNet.tx, VirtioNet.tapTx, VirtioNet.TxOpen, h]
  | netmap =>
    by_cases h : net.nmd = false
    · simp [VirtioNet.tx, VirtioNet.netmapTx, VirtioNet.TxOpen, h]
    · simp [VirtioNet.tx, VirtioNet.netmapTx, VirtioNet.TxOpen, h]

/-- Behind the header and `out - 1` segments the padding is entry `out`. -/
lemma txCall_inside_iff (hout : out ≤ VIRTIO_NET_MAXSEGS) :
    TxCall.Inside iovecSize ⟨toInt32 (sub32 out 1), len,
      net.tx fn pad iovec 1 (toInt32 (sub32 out 1)) len⟩ ↔
    1 ≤ out ∧ (net.TxOpen fn → len < 60 → out < iovecSize) := by
  have hle : out ≤ 256 := hout
  by_cases hpos : 1 ≤ out
  swap
  · obtain rfl : out = 0 := by omega
    refine iff_of_false (fun h => ?_) fun h => hpos h.1
    exact absurd (show (0 : ℤ) ≤ toInt32 (sub32 0 1) from h.1) (by decide +kernel)
  have hcnt : toInt32 (sub32 out 1) = out - 1 := by
    rw [show sub32 out 1 = out - 1 by unfold sub32; omega, toInt32, if_pos (by omega)]
    omega
  rw [hcnt, TxCall.Inside]
  dsimp only
  simp only [VirtioNet.mem_tx]
  constructor
  · rintro ⟨-, h⟩
    refine ⟨hpos, fun hopen hlen => ?_⟩
    have hpad := (h _ ⟨hopen, rfl⟩).2 out
    rw [padSegments, if_pos hlen] at hpad
    have := hpad (by simp)
    omega
  · rintro ⟨-, h⟩
    refine ⟨by omega, ?_⟩
    rintro sent ⟨hopen, rfl⟩
    rw [padSegments]
    by_cases hlen : len < 60
    · have hlt := h hopen hlen
      rw [if_pos hlen]
      refine ⟨by dsimp only; omega, fun i hi => ?_⟩
      obtain rfl : 1 + ((out : ℤ) - 1) = i := Option.some.inj hi
      omega
    · rw [if_neg hlen]
      exact ⟨by dsimp only; omega, fun i hi => by cases hi⟩

/-- What is passed on for a head -/
lemma VirtioNet.proctx_head {vq' : VirtQueue} {f : Fetch} {i : ℕ}
    (hr : virtqGetDescs vm m vq vq.iovec VIRTIO_NET_MAXSEGS inNum outNum = (↑i, vq', f))
    (hword : i < 2 ^ 16) (hne : i ≠ vq'.num) :
    (net.proctx vm fn pad m vq inNum outNum).call = some ⟨toInt32 (sub32 f.outNum 1),
      packetLen f.iov f.outNum, net.tx fn pad f.iov 1 (toInt32 (sub32 f.outNum 1))
        (packetLen f.iov f.outNum)⟩ := by
  have hidx : ((i : ℤ) % 2 ^ 16).toNat = i := by omega
  rw [VirtioNet.proctx, hr]
  dsimp only
  rw [hidx, if_neg (id hne : ¬ i = (vq'.setIovec f.iov).num)]
  rfl

end Transmit

/-- For a chain that was accepted, the padding is in the iov and no count is negative exactly when
the chain has a segment to read, and not as many as the iov if the packet is padded. -/
theorem net_tx_padding_iff (vm : MvmVm) (net : VirtioNet) (fn : NetTxFn) (pad : ℕ) (m : Bytes)
    (vq : VirtQueue) (inNum outNum : ℕ) (hnum : vq.num < 2 ^ 32)
    (haccepted : 0 ≤ (virtqGetDescs vm m vq vq.iovec VIRTIO_NET_MAXSEGS inNum outNum).1 ∧
      (virtqGetDescs vm m vq vq.iovec VIRTIO_NET_MAXSEGS inNum outNum).1 < vq.num) :
    let f := (virtqGetDescs vm m vq vq.iovec VIRTIO_NET_MAXSEGS inNum outNum).2.2
    (∃ c ∈ (net.proctx vm fn pad m vq inNum outNum).call, c.Inside vq.iovecSize) ↔
      1 ≤ f.outNum ∧ (net.TxOpen fn → packetLen f.iov f.outNum < 60 → f.outNum < vq.iovecSize) := by
  have hreturned := virtqGetDescs_returned vm m vq vq.iovec VIRTIO_NET_MAXSEGS inNum outNum
  dsimp only
  generalize hr : virtqGetDescs vm m vq vq.iovec VIRTIO_NET_MAXSEGS inNum outNum = r
    at haccepted hreturned ⊢
  cases hreturned with
  | empty f h =>
    have : toInt32 vq.num = vq.num ∨ toInt32 vq.num < 0 := by
      rw [toInt32]
      split <;> omega
    dsimp only at haccepted
    omega
  | error e f h he =>
    have := he.neg
    dsimp only at haccepted
    omega
  | head i f h hi hword hcount =>
    have hout : f.outNum ≤ VIRTIO_NET_MAXSEGS := by omega
    rw [VirtioNet.proctx_head hr hword (Nat.ne_of_lt hi), ← txCall_inside_iff hout]
    exact ⟨fun ⟨c, hc, h⟩ => Option.some.inj hc ▸ h, fun h => ⟨_, rfl, h⟩⟩

/-- The transmit queue, with its ring where `ringAtZero` has it -/
def netQueue : VirtQueue :=
  { ready := true, num := 1024, iovecSize := VIRTIO_NET_MAXSEGS, desc := 0x10000000,
    avail := 0x10008000, used := 0x10009000, lastAvailIdx := 0, availIdx := 0, lastUsedIdx := 0,
    usedFlags := 0, signalledUsed := 0, signalledUsedValid := 0, vqIndex := 1,
    iovec := fun _ => ⟨0, 0⟩, callback := none }

/-- A chain of `n + 1` empty segments, each with the given flags, is available. -/
def emptySegments (n flags : ℕ) : Bytes := fun a =>
  if a = 0x10008002 then 1
  else if 0x10000000 ≤ a ∧ a < 0x10004000 then
    let i := (a - 0x10000000) / 16
    if a % 16 = 12 then .ofNat (flags + if i < n then VRING_DESC_F_NEXT else 0)
    else if a % 16 = 14 then .ofNat (i + 1) else 0
  else 0

instance (iovecSize : ℕ) (c : TxCall) : Decidable (c.Inside iovecSize) :=
  inferInstanceAs (Decidable (_ ∧ _))

theorem net_tx_padding_short :
    ∃ c ∈ (freshNet.proctx mvmVm .tap 0 (emptySegments 3 0) netQueue 0 0).call,
      c.Inside netQueue.iovecSize :=
  (net_tx_padding_iff mvmVm freshNet .tap 0 (emptySegments 3 0) netQueue 0 0 (by decide)
    (by decide +kernel)).2 ⟨by decide +kernel, fun _ _ => by decide +kernel⟩

/-- With 256 empty segments the padding goes behind the iov, and with one segment to write the
number of segments to send is -1. -/
theorem net_tx_padding_outside :
    (∀ m ∈ [emptySegments 255 0, emptySegments 0 VRING_DESC_F_WRITE],
      (virtqGetDescs mvmVm m netQueue netQueue.iovec VIRTIO_NET_MAXSEGS 0 0).1 = 0 ∧
      ¬ ∃ c ∈ (freshNet.proctx mvmVm .tap 0 m netQueue 0 0).call, c.Inside netQueue.iovecSize) ∧
    ((freshNet.proctx mvmVm .tap 0 (emptySegments 255 0) netQueue 0 0).call.bind TxCall.sent).bind
      Sent.pad = some 256 := by
  decide +kernel

end Minos.Virtio
