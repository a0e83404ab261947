import Mathlib
import Minos.Virtio.Confine

/-!
# Walking a descriptor chain

A chain of descriptors is a linked list that the guest writes, with tables of further descriptors
behind some of its elements. `virtq_get_descs` follows it and fills the iov. The first part looks
at any ring, where the walk may be led around in circles: every access is logged and shown to be
in bounds. The second part looks at chains that come to an end.
-/

namespace Minos.Virtio

open ByteMem

/-! ### The accesses of a walk -/

/-- What `virtq_get_descs` reads and writes: an entry of the avail ring, a descriptor of the queue,
an entry of the indirect table of `len` bytes, or an entry of the iov. -/
inductive DescAccess where
  | avail (i : ℕ)
  | desc (i : ℕ)
  | table (len i : ℕ)
  | iov (i : ℕ)
deriving DecidableEq, Repr

/-- The access is inside the array that it goes to. -/
def DescAccess.InBounds (num iovSize : ℕ) : DescAccess → Prop
  | .avail i => i < num
  | .desc i => i < num
  | .table len i => i < len / 16
  | .iov i => i < iovSize

/-- What a function returns, with the accesses that it has made -/
structure Walk where
  ret : ℤ
  fetch : Fetch
  log : List DescAccess

def Walk.after (w : Walk) (log : List DescAccess) : Walk := { w with log := log ++ w.log }

/-- The store that `translate_desc` makes -/
def translateLog (index iovSize : ℕ) : List DescAccess :=
  if iovSize ≤ index then [] else [.iov index]

/-- The loop of `get_indirect_buf` with its accesses -/
def walkIndirect (vm : MvmVm) (m : Bytes) (desc : VringDesc) (inDesc nrIn iovSize oldIndex : ℕ)
    (index next : ℕ) (f : Fetch) : Walk :=
  let vd := tableDesc m inDesc next
  if vd.flags &&& VRING_DESC_F_INDIRECT ≠ 0 then ⟨-EINVAL, f, [.table desc.len next]⟩
  else
    let f := (translateDesc vm vd index iovSize f).count desc
    let log := .table desc.len next :: translateLog index iovSize
    if iovSize ≤ index + 1 then ⟨-ENOMEM, f, log⟩
    else
      match nextDesc vd with
      | none => ⟨index + 1 - oldIndex, f, log⟩
      | some next =>
        if nrIn ≤ next then ⟨-EINVAL, f, log⟩
        else (walkIndirect vm m desc inDesc nrIn iovSize oldIndex (index + 1) next f).after log
termination_by iovSize - index

/-- `get_indirect_buf` with its accesses -/
def walkIndirectBuf (vm : MvmVm) (m : Bytes) (desc : VringDesc) (index iovSize : ℕ) (f : Fetch) :
    Walk :=
  let nrIn := desc.len / 16
  if desc.len &&& 0xf ≠ 0 ∨ nrIn = 0 then ⟨-EINVAL, f, []⟩
  else
    let inDesc := vm.gpaToHvmVa desc.addr
    walkIndirect vm m desc inDesc nrIn iovSize index index 0
      { f with tables := ⟨inDesc, desc.len⟩ :: f.tables }

section Erase

variable (vm : MvmVm) (m : Bytes) (desc : VringDesc) {inDesc nrIn iovSize oldIndex : ℕ}

lemma walkIndirect_erase (index next : ℕ) (f : Fetch) :
    ((walkIndirect vm m desc inDesc nrIn iovSize oldIndex index next f).ret,
      (walkIndirect vm m desc inDesc nrIn iovSize oldIndex index next f).fetch) =
      getIndirectLoop vm m desc inDesc nrIn iovSize oldIndex index next f := by
  fun_induction walkIndirect vm m desc inDesc nrIn iovSize oldIndex index next f with
  | case1 index next f vd hvd =>
    rw [getIndirectLoop, if_pos hvd]
  | case2 index next f vd hvd g log hfull =>
    rw [getIndirectLoop, if_neg hvd]
    exact (if_pos hfull).symm
  | case3 index next f vd hvd g log hroom hnext =>
    rw [getIndirectLoop, if_neg hvd]
    simp only [hnext, if_neg hroom, vd, g]
  | case4 index next f vd hvd g log hroom next' hnext hout =>
    rw [getIndirectLoop, if_neg hvd]
    simp only [hnext, if_neg hroom, if_pos hout, vd, g]
  | case5 index next f vd hvd g log hroom next' hnext hin ih =>
    rw [getIndirectLoop, if_neg hvd]
    simp only [hnext, if_neg hroom, if_neg hin, vd]
    exact ih

lemma walkIndirectBuf_erase (index : ℕ) (f : Fetch) :
    ((walkIndirectBuf vm m desc index iovSize f).ret,
      (walkIndirectBuf vm m desc index iovSize f).fetch) =
      getIndirectBuf vm m desc index iovSize f := by
  rw [walkIndirectBuf, getIndirectBuf]
  by_cases hlen : desc.len &&& 0xf ≠ 0 ∨ desc.len / 16 = 0
  · rw [if_pos hlen, if_pos hlen]
  · rw [if_neg hlen, if_neg hlen]
    exact walkIndirect_erase _ _ _ _ _ _

lemma walkIndirectBuf_ret (index : ℕ) (f : Fetch) :
    (walkIndirectBuf vm m desc index iovSize f).ret =
      (getIndirectBuf vm m desc index iovSize f).1 :=
  congrArg Prod.fst (walkIndirectBuf_erase vm m desc index f)

end Erase

/-- The loop of `virtq_get_descs` with its accesses -/
def walkDescs (vm : MvmVm) (m : Bytes) (vq : VirtQueue) (iovSize : ℕ) (i iovIndex : ℕ)
    (f : Fetch) : Walk :=
  if iovSize ≤ iovIndex then ⟨-ENOMEM, f, []⟩
  else if vq.num ≤ i then ⟨-EINVAL, f, []⟩
  else
    let desc := tableDesc m vq.desc i
    if desc.flags &&& VRING_DESC_F_INDIRECT ≠ 0 then
      let r := walkIndirectBuf vm m desc iovIndex iovSize f
      let log := .desc i :: r.log
      if r.ret < 0 then ⟨r.ret, r.fetch, log⟩
      else
        match nextDesc desc with
        | none => ⟨0, r.fetch, log⟩
        | some next => (walkDescs vm m vq iovSize next (iovIndex + r.ret.toNat) r.fetch).after log
    else
      let f := (translateDesc vm desc iovIndex iovSize f).count desc
      let log := .desc i :: translateLog iovIndex iovSize
      match nextDesc desc with
      | none => ⟨0, f, log⟩
      | some next => (walkDescs vm m vq iovSize next (iovIndex + 1) f).after log
termination_by iovSize - iovIndex
decreasing_by
  · have hpos := getIndirectBuf_pos vm m (tableDesc m vq.desc i) iovIndex iovSize f
    rw [← walkIndirectBuf_ret] at hpos
    have := hpos.resolve_left ‹_›
    omega
  · omega

/-- `virtq_get_descs` with its accesses -/
def walkGetDescs (vm : MvmVm) (m : Bytes) (vq : VirtQueue) (iov : ℕ → Iovec)
    (iovSize inNum outNum : ℕ) : Walk :=
  let lastAvailIdx := vq.lastAvailIdx
  let availIdx := vq.availRingIdx m
  let vq := { vq with availIdx := availIdx }
  let f : Fetch := ⟨iov, inNum, outNum, [], []⟩
  let count := sub32 availIdx lastAvailIdx % 2 ^ 16
  if count = 0 then ⟨toInt32 vq.num, f, []⟩
  else if vq.num < count then ⟨-EINVAL, f, []⟩
  else
    let log := [.avail (lastAvailIdx &&& (vq.num - 1))]
    let head := vq.availRing m (lastAvailIdx &&& (vq.num - 1))
    if vq.num ≤ head then ⟨-EINVAL, f, log⟩
    else
      let r := walkDescs vm m vq iovSize head 0 { f with inNum := 0, outNum := 0 }
      if r.ret < 0 then ⟨r.ret, r.fetch, log ++ r.log⟩
      else ⟨head, r.fetch, log ++ r.log⟩

section EraseAll

variable (vm : MvmVm) (m : Bytes) (vq : VirtQueue) {iovSize : ℕ}

lemma walkDescs_erase (i iovIndex : ℕ) (f : Fetch) :
    ((walkDescs vm m vq iovSize i iovIndex f).ret,
      (walkDescs vm m vq iovSize i iovIndex f).fetch) =
      getDescsLoop vm m vq iovSize i iovIndex f := by
  fun_induction walkDescs vm m vq iovSize i iovIndex f with
  | case1 i iovIndex f hfull => rw [getDescsLoop, if_pos hfull]
  | case2 i iovIndex f hroom hi => rw [getDescsLoop, if_neg hroom, if_pos hi]
  | case3 i iovIndex f hroom hi desc hind r log hr =>
    rw [getDescsLoop, if_neg hroom, if_neg hi, if_pos hind, ← walkIndirectBuf_erase]
    exact (if_pos hr).symm
  | case4 i iovIndex f hroom hi desc hind r log hr hnext =>
    rw [getDescsLoop, if_neg hroom, if_neg hi, if_pos hind, ← walkIndirectBuf_erase]
    simp only [desc, r] at hnext hr
    simp only [if_neg hr, hnext, r, desc]
  | case5 i iovIndex f hroom hi desc hind r log hr next hnext ih =>
    rw [getDescsLoop, if_neg hroom, if_neg hi, if_pos hind, ← walkIndirectBuf_erase]
    simp only [desc, r] at hnext hr
    simp only [if_neg hr, hnext]
    exact ih
  | case6 i iovIndex f hroom hi desc hind g log hnext =>
    rw [getDescsLoop, if_neg hroom, if_neg hi, if_neg hind]
    simp only [hnext, g, desc]
  | case7 i iovIndex f hroom hi desc hind g log next hnext ih =>
    rw [getDescsLoop, if_neg hroom, if_neg hi, if_neg hind]
    simp only [desc] at hnext
    simp only [hnext]
    exact ih

/-- The accesses aside, the walk is `virtq_get_descs`. -/
lemma walkGetDescs_erase (iov : ℕ → Iovec) (inNum outNum : ℕ) :
    ((walkGetDescs vm m vq iov iovSize inNum outNum).ret,
      (walkGetDescs vm m vq iov iovSize inNum outNum).fetch) =
      ((virtqGetDescs vm m vq iov iovSize inNum outNum).1,
        (virtqGetDescs vm m vq iov iovSize inNum outNum).2.2) := by
  have hloop (i : ℕ) (f : Fetch) :=
    @walkDescs_erase vm m { vq with availIdx := vq.availRingIdx m } iovSize i 0 f
  rw [walkGetDescs, virtqGetDescs]
  dsimp only
  split
  · rfl
  split
  · rfl
  split
  · rfl
  rw [← hloop]
  split
  · rfl
  · rfl

end EraseAll

/-! ### Every access is in bounds -/

section Bounds

variable {num iovSize : ℕ}

/-- The accesses of a log are in bounds, and there are at most `n` of them. -/
structure LogFits (num iovSize n : ℕ) (log : List DescAccess) : Prop where
  inBounds : ∀ a ∈ log, a.InBounds num iovSize
  length_le : log.length ≤ n

lemma LogFits.mono {n n' : ℕ} {log : List DescAccess} (h : LogFits num iovSize n log)
    (hn : n ≤ n') : LogFits num iovSize n' log :=
  ⟨h.inBounds, h.length_le.trans hn⟩

lemma LogFits.append {n n' : ℕ} {log log' : List DescAccess} (h : LogFits num iovSize n log)
    (h' : LogFits num iovSize n' log') : LogFits num iovSize (n + n') (log ++ log') := by
  refine ⟨fun a ha => ?_, ?_⟩
  · rcases List.mem_append.1 ha with ha | ha
    · exact h.inBounds a ha
    · exact h'.inBounds a ha
  · rw [List.length_append]
    exact Nat.add_le_add h.length_le h'.length_le

lemma LogFits.cons {n : ℕ} {a : DescAccess} {log : List DescAccess}
    (ha : a.InBounds num iovSize) (h : LogFits num iovSize n log) :
    LogFits num iovSize (n + 1) (a :: log) :=
  ⟨List.forall_mem_cons.2 ⟨ha, h.inBounds⟩, Nat.succ_le_succ h.length_le⟩

lemma LogFits.nil (n : ℕ) : LogFits num iovSize n [] :=
  ⟨fun _ ha => absurd ha List.not_mem_nil, Nat.zero_le n⟩

lemma translateLog_fits (index : ℕ) : LogFits num iovSize 1 (translateLog index iovSize) := by
  rw [translateLog]
  split
  · exact .nil 1
  · next h => exact (LogFits.nil 0).cons (Nat.lt_of_not_le h)

variable (vm : MvmVm) (m : Bytes) (vq : VirtQueue) (desc : VringDesc) (num)
  {inDesc nrIn oldIndex : ℕ}

/-- Each round of the loop makes two accesses and takes one entry of the iov. -/
lemma walkIndirect_fits {index next : ℕ} (f : Fetch) (hnr : nrIn = desc.len / 16)
    (hnext : next < desc.len / 16) (hindex : index < iovSize) :
    let w := walkIndirect vm m desc inDesc nrIn iovSize oldIndex index next f
    ∃ n, LogFits num iovSize n w.log ∧ n ≤ 2 * (iovSize - index) ∧
      (0 ≤ w.ret → (n : ℤ) ≤ 2 * (oldIndex + w.ret - index)) := by
  fun_induction walkIndirect vm m desc inDesc nrIn iovSize oldIndex index next f with
  | case1 index next f vd hvd =>
    exact ⟨1, (LogFits.nil 0).cons hnext, by omega, by simp [EINVAL]⟩
  | case2 index next f vd hvd g log hfull =>
    exact ⟨2, (translateLog_fits index).cons hnext, by omega, by simp [ENOMEM]⟩
  | case3 index next f vd hvd g log hroom hnext' =>
    exact ⟨2, (translateLog_fits index).cons hnext, by omega, fun _ => by dsimp only; omega⟩
  | case4 index next f vd hvd g log hroom next' hnext' hout =>
    exact ⟨2, (translateLog_fits index).cons hnext, by omega, by simp [EINVAL]⟩
  | case5 index next f vd hvd g log hroom next' hnext' hin ih =>
    obtain ⟨n, hfits, hle, hret⟩ := ih (by omega) (by omega)
    have hhead : LogFits num iovSize 2 log := (translateLog_fits index).cons hnext
    refine ⟨2 + n, hhead.append hfits, by omega, fun h => ?_⟩
    have := hret h
    simp only [Walk.after]
    omega

lemma walkIndirectBuf_fits {index : ℕ} (f : Fetch) (hindex : index < iovSize) :
    let w := walkIndirectBuf vm m desc index iovSize f
    ∃ n, LogFits num iovSize n w.log ∧ n ≤ 2 * (iovSize - index) ∧
      (0 ≤ w.ret → n ≤ 2 * w.ret.toNat) := by
  dsimp only
  rw [walkIndirectBuf]
  split
  · exact ⟨0, .nil 0, Nat.zero_le _, fun _ => Nat.zero_le _⟩
  · next h =>
    push Not at h
    obtain ⟨n, hfits, hle, hret⟩ := @walkIndirect_fits num iovSize vm m desc
      (vm.gpaToHvmVa desc.addr) (desc.len / 16) index index 0
      { f with tables := ⟨vm.gpaToHvmVa desc.addr, desc.len⟩ :: f.tables } rfl
      (Nat.pos_of_ne_zero h.2) hindex
    refine ⟨n, hfits, hle, fun h => ?_⟩
    have hn := hret h
    dsimp only at hn ⊢
    omega

/-- Each round of the loop takes an entry of the iov at least, with at most three accesses for
each. -/
lemma walkDescs_fits (i iovIndex : ℕ) (f : Fetch) :
    LogFits vq.num iovSize (3 * (iovSize - iovIndex))
      (walkDescs vm m vq iovSize i iovIndex f).log := by
  fun_induction walkDescs vm m vq iovSize i iovIndex f with
  | case1 i iovIndex f hfull => exact .nil _
  | case2 i iovIndex f hroom hi => exact .nil _
  | case3 i iovIndex f hroom hi desc hind r log hr =>
    obtain ⟨n, hfits, hle, -⟩ := walkIndirectBuf_fits vq.num vm m desc f
      (Nat.lt_of_not_le hroom)
    have hdesc : (DescAccess.desc i).InBounds vq.num iovSize := Nat.lt_of_not_le hi
    exact (hfits.cons hdesc).mono (by omega)
  | case4 i iovIndex f hroom hi desc hind r log hr hnext =>
    obtain ⟨n, hfits, hle, -⟩ := walkIndirectBuf_fits vq.num vm m desc f
      (Nat.lt_of_not_le hroom)
    have hdesc : (DescAccess.desc i).InBounds vq.num iovSize := Nat.lt_of_not_le hi
    exact (hfits.cons hdesc).mono (by omega)
  | case5 i iovIndex f hroom hi desc hind r log hr next hnext ih =>
    obtain ⟨n, hfits, hle, hret⟩ := walkIndirectBuf_fits vq.num vm m desc f
      (Nat.lt_of_not_le hroom)
    have hdesc : (DescAccess.desc i).InBounds vq.num iovSize := Nat.lt_of_not_le hi
    have hhead : LogFits vq.num iovSize (n + 1) log := hfits.cons hdesc
    have hpos : 0 < r.ret := by
      have := getIndirectBuf_pos vm m desc iovIndex iovSize f
      rw [← walkIndirectBuf_ret] at this
      exact this.resolve_left hr
    have hle' : n ≤ 2 * r.ret.toNat := hret hpos.le
    exact (hhead.append ih).mono (by omega)
  | case6 i iovIndex f hroom hi desc hind g log hnext =>
    have hdesc : (DescAccess.desc i).InBounds vq.num iovSize := Nat.lt_of_not_le hi
    exact ((translateLog_fits iovIndex).cons hdesc).mono (by omega)
  | case7 i iovIndex f hroom hi desc hind g log next hnext ih =>
    have hhead : LogFits vq.num iovSize 2 log :=
      (translateLog_fits iovIndex).cons (show i < vq.num from Nat.lt_of_not_le hi)
    exact (hhead.append ih).mono (by omega)

lemma walkGetDescs_fits (iov : ℕ → Iovec) (inNum outNum : ℕ) (hnum : 0 < vq.num) :
    LogFits vq.num iovSize (3 * iovSize + 1)
      (walkGetDescs vm m vq iov iovSize inNum outNum).log := by
  have havail : LogFits vq.num iovSize 1 [.avail (vq.lastAvailIdx &&& (vq.num - 1))] :=
    (LogFits.nil 0).cons
      (lt_of_le_of_lt Nat.and_le_right (Nat.sub_one_lt (Nat.pos_iff_ne_zero.1 hnum)))
  have hwalk (i : ℕ) (f : Fetch) :=
    @walkDescs_fits iovSize vm m { vq with availIdx := vq.availRingIdx m } i 0 f
  rw [walkGetDescs]
  dsimp only
  split
  · exact .nil _
  split
  · exact .nil _
  split
  · exact havail.mono (by omega)
  split
  · exact (havail.append (hwalk _ _)).mono (by omega)
  · exact (havail.append (hwalk _ _)).mono (by omega)

end Bounds

/-- For any contents of the rings and tables `virtq_get_descs` makes a bounded number of accesses,
all of them inside the arrays, and it moves on in the avail ring exactly if it returns a head. -/
theorem virtq_get_descs_robust (vm : MvmVm) (m : Bytes) (vq : VirtQueue) (iov : ℕ → Iovec)
    (iovSize inNum outNum k : ℕ) (hk : k < 32) (hnum : vq.num = 2 ^ k) :
    let w := walkGetDescs vm m vq iov iovSize inNum outNum
    let r := virtqGetDescs vm m vq iov iovSize inNum outNum
    (w.ret, w.fetch) = (r.1, r.2.2) ∧
    (∀ a ∈ w.log, a.InBounds vq.num iovSize) ∧ w.log.length ≤ 3 * iovSize + 1 ∧
    (r.1 < 0 ∨ r.1 = vq.num → r.2.1.lastAvailIdx = vq.lastAvailIdx) ∧
    (¬ (r.1 < 0 ∨ r.1 = vq.num) →
      r.1 < vq.num ∧ r.2.1.lastAvailIdx = (vq.lastAvailIdx + 1) % 2 ^ 16) := by
  have hpos : 0 < vq.num := hnum ▸ Nat.two_pow_pos k
  have hlt : vq.num < 2 ^ 32 := hnum ▸ Nat.pow_lt_pow_right (by norm_num) hk
  have hfits := @walkGetDescs_fits iovSize vm m vq iov inNum outNum hpos
  refine ⟨walkGetDescs_erase vm m vq iov inNum outNum, hfits.inBounds, hfits.length_le, ?_⟩
  rw [virtqGetDescs]
  dsimp only
  split
  · refine ⟨fun _ => rfl, fun h => absurd ?_ h⟩
    dsimp only [toInt32]
    split
    · exact Or.inr rfl
    · exact Or.inl (by omega)
  split
  · exact ⟨fun _ => rfl, fun h => absurd (Or.inl (by simp [EINVAL])) h⟩
  split
  · exact ⟨fun _ => rfl, fun h => absurd (Or.inl (by simp [EINVAL])) h⟩
  next hhead =>
  split
  · next hneg => exact ⟨fun _ => rfl, fun h => absurd (Or.inl hneg) h⟩
  · refine ⟨fun h => ?_, fun _ => ⟨by dsimp only; omega, rfl⟩⟩
    dsimp only at h
    omega

/-- A descriptor whose next one is itself -/
theorem virtq_get_descs_robust_cycle :
    (virtqGetDescs mvmVm (ringAtZero 1) ringQueue (fun _ => ⟨0, 0⟩) 64 0 0).1 = -ENOMEM ∧
    ∀ a ∈ (walkGetDescs mvmVm (ringAtZero 1) ringQueue (fun _ => ⟨0, 0⟩) 64 0 0).log,
      a.InBounds 64 64 :=
  ⟨by decide +kernel, (virtq_get_descs_robust mvmVm (ringAtZero 1) ringQueue (fun _ => ⟨0, 0⟩)
    64 0 0 6 (by decide) rfl).2.1⟩

/-! ### Chains that come to an end -/

/-- One element of a chain: a buffer, or the buffers of the indirect table behind a descriptor -/
inductive Segment where
  | direct (desc : VringDesc)
  | indirect (desc : VringDesc) (table : List VringDesc)
deriving DecidableEq, Repr

namespace Segment

/-- The data descriptors -/
def data : Segment → List VringDesc
  | .direct desc => [desc]
  | .indirect _ table => table

/-- The descriptor of the queue, whose flags the backend goes by -/
def desc : Segment → VringDesc
  | .direct desc => desc
  | .indirect desc _ => desc

end Segment

/-- The buffers of a chain -/
def chainData (segs : List Segment) : List VringDesc := segs.flatMap Segment.data

/-- The descriptor names a buffer that the device writes. -/
def VringDesc.Writable (desc : VringDesc) : Prop := desc.flags &&& VRING_DESC_F_WRITE ≠ 0

instance : DecidablePred VringDesc.Writable := fun _ => inferInstanceAs (Decidable (_ ≠ _))

/-- From entry `i` on, the table of `nrIn` entries at `base` is the list `ds`. -/
def TableAt (m : Bytes) (base nrIn : ℕ) : ℕ → List VringDesc → Prop
  | _, [] => False
  | i, d :: ds => i < nrIn ∧ tableDesc m base i = d ∧ d.flags &&& VRING_DESC_F_INDIRECT = 0 ∧
      match nextDesc d with
      | none => ds = []
      | some next => TableAt m base nrIn next ds

/-- What one element of a chain looks like in memory -/
def SegmentAt (vm : MvmVm) (m : Bytes) : Segment → Prop
  | .direct desc => desc.flags &&& VRING_DESC_F_INDIRECT = 0
  | .indirect desc table => desc.flags &&& VRING_DESC_F_INDIRECT ≠ 0 ∧ desc.len &&& 0xf = 0 ∧
      TableAt m (vm.gpaToHvmVa desc.addr) (desc.len / 16) 0 table

/-- From descriptor `i` on, the `num` descriptors at `base` hold the chain `segs`. A chain has an
end, so that no descriptor is in it twice. -/
def ChainAt (vm : MvmVm) (m : Bytes) (base num : ℕ) : ℕ → List Segment → Prop
  | _, [] => False
  | i, seg :: segs => i < num ∧ tableDesc m base i = seg.desc ∧ SegmentAt vm m seg ∧
      match nextDesc seg.desc with
      | none => segs = []
      | some next => ChainAt vm m base num next segs

instance TableAt.decidable (m : Bytes) (base nrIn : ℕ) :
    (i : ℕ) → (ds : List VringDesc) → Decidable (TableAt m base nrIn i ds)
  | _, [] => inferInstanceAs (Decidable False)
  | i, d :: ds =>
    have : Decidable (match nextDesc d with
        | none => ds = []
        | some next => TableAt m base nrIn next ds) :=
      match nextDesc d with
      | none => inferInstanceAs (Decidable (ds = []))
      | some next => TableAt.decidable m base nrIn next ds
    inferInstanceAs (Decidable (i < nrIn ∧ tableDesc m base i = d ∧ _ = 0 ∧ _))

instance (vm : MvmVm) (m : Bytes) : (seg : Segment) → Decidable (SegmentAt vm m seg)
  | .direct _ => inferInstanceAs (Decidable (_ = 0))
  | .indirect _ _ => inferInstanceAs (Decidable (_ ≠ 0 ∧ _ = 0 ∧ TableAt _ _ _ _ _))

instance ChainAt.decidable (vm : MvmVm) (m : Bytes) (base num : ℕ) :
    (i : ℕ) → (segs : List Segment) → Decidable (ChainAt vm m base num i segs)
  | _, [] => inferInstanceAs (Decidable False)
  | i, seg :: segs =>
    have : Decidable (match nextDesc seg.desc with
        | none => segs = []
        | some next => ChainAt vm m base num next segs) :=
      match nextDesc seg.desc with
      | none => inferInstanceAs (Decidable (segs = []))
      | some next => ChainAt.decidable vm m base num next segs
    inferInstanceAs (Decidable (i < num ∧ tableDesc m base i = seg.desc ∧ SegmentAt vm m seg ∧ _))

/-- The indirect tables end before the iov is full. -/
def TablesFit (iovSize : ℕ) : ℕ → List Segment → Prop
  | _, [] => True
  | n, .direct _ :: segs => TablesFit iovSize (n + 1) segs
  | n, .indirect _ table :: segs =>
      n + table.length < iovSize ∧ TablesFit iovSize (n + table.length) segs

/-- Writable buffers in tables whose descriptor is not marked as writable -/
def writableBehindReadable (segs : List Segment) : ℕ :=
  (segs.map fun seg => if seg.desc.Writable then 0 else
    seg.data.countP fun d => d.Writable).sum

/-- Buffers that are not writable, in tables whose descriptor is marked as writable -/
def readableBehindWritable (segs : List Segment) : ℕ :=
  (segs.map fun seg => if seg.desc.Writable then
    seg.data.countP fun d => ¬ d.Writable else 0).sum

/-- The entry of the iov for a buffer -/
def VringDesc.iovec (vm : MvmVm) (d : VringDesc) : Iovec := ⟨vm.gpaToHvmVa d.addr, d.len⟩

/-- The call has returned `head` with the buffers of the chain in the iov, counted by their
flags. -/
structure Flattens (vm : MvmVm) (segs : List Segment) (head : ℕ) (r : ℤ × VirtQueue × Fetch) :
    Prop where
  ret : r.1 = head
  iov : ∀ k d, (chainData segs)[k]? = some d → r.2.2.iov k = d.iovec vm
  inNum : r.2.2.inNum = (chainData segs).countP fun d => d.Writable
  outNum : r.2.2.outNum = (chainData segs).countP fun d => ¬ d.Writable

instance TablesFit.decidable (iovSize : ℕ) :
    (n : ℕ) → (segs : List Segment) → Decidable (TablesFit iovSize n segs)
  | _, [] => inferInstanceAs (Decidable True)
  | n, .direct _ :: segs => TablesFit.decidable iovSize (n + 1) segs
  | n, .indirect _ table :: segs =>
    have := TablesFit.decidable iovSize (n + table.length) segs
    inferInstanceAs (Decidable (n + table.length < iovSize ∧ _))

/-- How many heads the avail ring holds for the backend -/
def VirtQueue.available (vq : VirtQueue) (m : Bytes) : ℕ :=
  sub32 (vq.availRingIdx m) vq.lastAvailIdx % 2 ^ 16

/-- The next head in the avail ring -/
def VirtQueue.nextHead (vq : VirtQueue) (m : Bytes) : ℕ :=
  vq.availRing m (vq.lastAvailIdx &&& (vq.num - 1))

/-! ### What the walk does on a chain -/

/-- A buffer goes into the iov and is counted by the flags of `outer`. -/
def Fetch.put (vm : MvmVm) (iovSize : ℕ) (outer : VringDesc) (f : Fetch) (index : ℕ)
    (d : VringDesc) : Fetch := (translateDesc vm d index iovSize f).count outer

/-- Several buffers go into the iov. -/
def Fetch.putAll (vm : MvmVm) (iovSize : ℕ) (outer : VringDesc) :
    Fetch → ℕ → List VringDesc → Fetch
  | f, _, [] => f
  | f, index, d :: ds => putAll vm iovSize outer (f.put vm iovSize outer index d) (index + 1) ds

/-- The table of an indirect descriptor is opened. -/
def Fetch.openTable (vm : MvmVm) (f : Fetch) : Segment → Fetch
  | .direct _ => f
  | .indirect desc _ => { f with tables := ⟨vm.gpaToHvmVa desc.addr, desc.len⟩ :: f.tables }

/-- All buffers of a chain go into the iov. -/
def Fetch.putChain (vm : MvmVm) (iovSize : ℕ) : Fetch → ℕ → List Segment → Fetch
  | f, _, [] => f
  | f, index, seg :: segs =>
    putChain vm iovSize ((f.openTable vm seg).putAll vm iovSize seg.desc index seg.data)
      (index + seg.data.length) segs

section Chain

variable {vm : MvmVm} {m : Bytes} {vq : VirtQueue} {desc : VringDesc}
  {inDesc nrIn iovSize oldIndex index i : ℕ} {f : Fetch} {ds : List VringDesc}

lemma TableAt.lt (h : TableAt m inDesc nrIn i ds) : i < nrIn := by
  cases ds with
  | nil => exact h.elim
  | cons d ds => exact h.1

lemma TableAt.length_pos (h : TableAt m inDesc nrIn i ds) : 0 < ds.length := by
  cases ds with
  | nil => exact h.elim
  | cons d ds => exact Nat.succ_pos _

/-- A table that ends before the iov is full is taken over, and any other one is refused. -/
lemma getIndirectLoop_table (h : TableAt m inDesc nrIn i ds) :
    (index + ds.length < iovSize →
      getIndirectLoop vm m desc inDesc nrIn iovSize oldIndex index i f =
        (((index + ds.length : ℕ) : ℤ) - oldIndex, f.putAll vm iovSize desc index ds)) ∧
    (iovSize ≤ index + ds.length →
      (getIndirectLoop vm m desc inDesc nrIn iovSize oldIndex index i f).1 = -ENOMEM) := by
  induction ds generalizing index i f with
  | nil => exact h.elim
  | cons d ds ih =>
    obtain ⟨hi, hd, hflags, hnext⟩ := h
    rw [getIndirectLoop, hd, if_neg (not_not.2 hflags), List.length_cons]
    dsimp only
    by_cases hfull : iovSize ≤ index + 1
    · rw [if_pos hfull]
      exact ⟨fun hroom => by omega, fun _ => rfl⟩
    rw [if_neg hfull]
    cases hn : nextDesc d with
    | none =>
      rw [hn] at hnext
      subst hnext
      exact ⟨fun _ => by rw [List.length_nil, zero_add, Nat.cast_succ]; rfl,
        fun h => absurd h hfull⟩
    | some next =>
      rw [hn] at hnext
      rw [show index + (ds.length + 1) = index + 1 + ds.length by ring]
      dsimp only
      rw [if_neg (Nat.not_le.2 hnext.lt)]
      exact ih hnext

/-- The buffers behind an indirect descriptor -/
lemma getIndirectBuf_table (hlen : desc.len &&& 0xf = 0)
    (h : TableAt m (vm.gpaToHvmVa desc.addr) (desc.len / 16) 0 ds) (index iovSize : ℕ) :
    (index + ds.length < iovSize →
      getIndirectBuf vm m desc index iovSize f = ((ds.length : ℤ),
        Fetch.putAll vm iovSize desc
          { f with tables := ⟨vm.gpaToHvmVa desc.addr, desc.len⟩ :: f.tables } index ds)) ∧
    (iovSize ≤ index + ds.length → (getIndirectBuf vm m desc index iovSize f).1 = -ENOMEM) := by
  have hne : ¬ (desc.len &&& 0xf ≠ 0 ∨ desc.len / 16 = 0) := by
    have := h.lt
    omega
  rw [getIndirectBuf, if_neg hne]
  refine ⟨fun hroom => ?_, (getIndirectLoop_table h).2⟩
  dsimp only
  rw [(getIndirectLoop_table h).1 hroom, Nat.cast_add, add_sub_cancel_left]

/-- The backend takes a chain if its tables end before the iov is full, and refuses any other one
that is not longer than the iov. -/
lemma getDescsLoop_chain {segs : List Segment} (h : ChainAt vm m vq.desc vq.num i segs)
    (hle : index + (chainData segs).length ≤ iovSize) :
    (TablesFit iovSize index segs →
      getDescsLoop vm m vq iovSize i index f = (0, f.putChain vm iovSize index segs)) ∧
    (¬ TablesFit iovSize index segs →
      (getDescsLoop vm m vq iovSize i index f).1 = -ENOMEM) := by
  induction segs generalizing index i f with
  | nil => exact h.elim
  | cons seg segs ih =>
    obtain ⟨hi, hd, hseg, hnext⟩ := h
    rw [show chainData (seg :: segs) = seg.data ++ chainData segs from rfl,
      List.length_append] at hle
    cases seg with
    | direct desc =>
      dsimp only [Segment.desc, Segment.data, SegmentAt] at hd hseg hnext hle
      rw [List.length_singleton, ← add_assoc] at hle
      rw [getDescsLoop, if_neg (by omega), if_neg (Nat.not_le.2 hi), hd]
      dsimp only
      rw [if_neg (not_not.2 hseg)]
      cases hn : nextDesc desc with
      | none =>
        rw [hn] at hnext
        subst hnext
        exact ⟨fun _ => rfl, fun h => absurd trivial h⟩
      | some next =>
        rw [hn] at hnext
        exact ih hnext hle
    | indirect desc table =>
      dsimp only [Segment.desc, Segment.data, SegmentAt] at hd hseg hnext hle
      rw [← add_assoc] at hle
      obtain ⟨hflags, hlen, htable⟩ := hseg
      have hpos : 0 < table.length := htable.length_pos
      have hbuf := getIndirectBuf_table (f := f) hlen htable index iovSize
      rw [getDescsLoop, if_neg (by omega), if_neg (Nat.not_le.2 hi), hd]
      dsimp only
      rw [if_pos hflags]
      by_cases hroom : index + table.length < iovSize
      swap
      · rw [if_pos (by rw [hbuf.2 (Nat.le_of_not_lt hroom)]; simp [ENOMEM])]
        exact ⟨fun hfit => absurd hfit.1 hroom, fun _ => hbuf.2 (Nat.le_of_not_lt hroom)⟩
      rw [hbuf.1 hroom, if_neg (by simp)]
      dsimp only
      cases hn : nextDesc desc with
      | none =>
        rw [hn] at hnext
        subst hnext
        exact ⟨fun _ => rfl, fun h => absurd ⟨hroom, trivial⟩ h⟩
      | some next =>
        rw [hn] at hnext
        exact ⟨fun hfit => (ih hnext hle).1 hfit.2,
          fun hfit => (ih hnext hle).2 fun hrest => hfit ⟨hroom, hrest⟩⟩

/-! ### What is in the iov -/

variable {outer : VringDesc} {k : ℕ} {d : VringDesc} {segs : List Segment}

lemma put_inNum : (f.put vm iovSize outer index d).inNum =
    f.inNum + if outer.Writable then 1 else 0 := by
  have htranslate : (translateDesc vm d index iovSize f).inNum = f.inNum := by
    rw [translateDesc]
    split <;> rfl
  rw [Fetch.put, Fetch.count]
  by_cases hw : outer.flags &&& VRING_DESC_F_WRITE ≠ 0
  · rw [if_pos hw, if_pos (show outer.Writable from hw), htranslate]
  · rw [if_neg hw, if_neg (show ¬ outer.Writable from hw), htranslate, add_zero]

lemma put_outNum : (f.put vm iovSize outer index d).outNum =
    f.outNum + if outer.Writable then 0 else 1 := by
  have htranslate : (translateDesc vm d index iovSize f).outNum = f.outNum := by
    rw [translateDesc]
    split <;> rfl
  rw [Fetch.put, Fetch.count]
  by_cases hw : outer.flags &&& VRING_DESC_F_WRITE ≠ 0
  · rw [if_pos hw, if_pos (show outer.Writable from hw), htranslate, add_zero]
  · rw [if_neg hw, if_neg (show ¬ outer.Writable from hw), htranslate]

lemma put_iov (h : index < iovSize) : (f.put vm iovSize outer index d).iov =
    Function.update f.iov index (d.iovec vm) := by
  rw [Fetch.put, translateDesc, if_neg (Nat.not_le.2 h), Fetch.count]
  split <;> rfl

lemma putAll_inNum : (f.putAll vm iovSize outer index ds).inNum =
    f.inNum + if outer.Writable then ds.length else 0 := by
  induction ds generalizing f index with
  | nil => simp [Fetch.putAll]
  | cons d ds ih =>
    rw [Fetch.putAll, ih, put_inNum, List.length_cons]
    split <;> omega

lemma putAll_outNum : (f.putAll vm iovSize outer index ds).outNum =
    f.outNum + if outer.Writable then 0 else ds.length := by
  induction ds generalizing f index with
  | nil => simp [Fetch.putAll]
  | cons d ds ih =>
    rw [Fetch.putAll, ih, put_outNum, List.length_cons]
    split <;> omega

lemma putAll_iov_before (h : index + ds.length ≤ iovSize) (hk : k < index) :
    (f.putAll vm iovSize outer index ds).iov k = f.iov k := by
  induction ds generalizing f index with
  | nil => rfl
  | cons d ds ih =>
    rw [List.length_cons] at h
    rw [Fetch.putAll, ih (by omega) (by omega), put_iov (by omega),
      Function.update_of_ne hk.ne]

lemma putAll_iov (h : index + ds.length ≤ iovSize) (hd : ds[k]? = some d) :
    (f.putAll vm iovSize outer index ds).iov (index + k) = d.iovec vm := by
  induction ds generalizing f index k with
  | nil => cases hd
  | cons e ds ih =>
    rw [List.length_cons] at h
    rw [Fetch.putAll]
    cases k with
    | zero =>
      obtain rfl := Option.some.inj hd
      rw [putAll_iov_before (by omega) (by omega), put_iov (by omega), add_zero,
        Function.update_self]
    | succ k =>
      rw [show index + (k + 1) = index + 1 + k by ring]
      exact ih (by omega) hd

lemma putChain_iov_before (h : index + (chainData segs).length ≤ iovSize) (hk : k < index) :
    (f.putChain vm iovSize index segs).iov k = f.iov k := by
  induction segs generalizing f index with
  | nil => rfl
  | cons seg segs ih =>
    rw [show chainData (seg :: segs) = seg.data ++ chainData segs from rfl, List.length_append,
      ← add_assoc] at h
    rw [Fetch.putChain, ih h (by omega), putAll_iov_before (by omega) hk]
    cases seg <;> rfl

lemma putChain_iov (h : index + (chainData segs).length ≤ iovSize)
    (hd : (chainData segs)[k]? = some d) :
    (f.putChain vm iovSize index segs).iov (index + k) = d.iovec vm := by
  induction segs generalizing f index k with
  | nil => cases hd
  | cons seg segs ih =>
    rw [show chainData (seg :: segs) = seg.data ++ chainData segs from rfl] at h hd
    rw [List.length_append, ← add_assoc] at h
    rw [Fetch.putChain]
    by_cases hk : k < seg.data.length
    · rw [List.getElem?_append_left hk] at hd
      rw [putChain_iov_before h (by omega), putAll_iov (by omega) hd]
    · rw [List.getElem?_append_right (Nat.le_of_not_lt hk)] at hd
      rw [show index + k = index + seg.data.length + (k - seg.data.length) by omega]
      exact ih h hd

lemma putChain_counts : (f.putChain vm iovSize index segs).inNum + writableBehindReadable segs =
      f.inNum + ((chainData segs).countP fun d => d.Writable) + readableBehindWritable segs ∧
    (f.putChain vm iovSize index segs).inNum + (f.putChain vm iovSize index segs).outNum =
      f.inNum + f.outNum + (chainData segs).length := by
  induction segs generalizing f index with
  | nil => exact ⟨rfl, rfl⟩
  | cons seg segs ih =>
    obtain ⟨hin, hall⟩ := @ih (index + seg.data.length)
      ((f.openTable vm seg).putAll vm iovSize seg.desc index seg.data)
    have hopen : (f.openTable vm seg).inNum = f.inNum ∧ (f.openTable vm seg).outNum = f.outNum := by
      cases seg <;> exact ⟨rfl, rfl⟩
    have hdata : chainData (seg :: segs) = seg.data ++ chainData segs := rfl
    have hlen := seg.data.length_eq_countP_add_countP fun d => decide d.Writable
    rw [putAll_inNum, hopen.1] at hin
    rw [putAll_inNum, putAll_outNum, hopen.1, hopen.2] at hall
    rw [Fetch.putChain, hdata, List.countP_append, List.length_append]
    simp only [writableBehindReadable, readableBehindWritable, List.map_cons, List.sum_cons]
      at hin ⊢
    by_cases hw : seg.desc.Writable
    · simp only [if_pos hw, decide_not, Bool.decide_eq_true] at hin hall hlen ⊢
      omega
    · simp only [if_neg hw, decide_not] at hin hall hlen ⊢
      omega

end Chain

/-- What `virtq_get_descs` does with the next head of the avail ring -/
lemma virtqGetDescs_head {vm : MvmVm} {m : Bytes} {vq : VirtQueue} (iov : ℕ → Iovec)
    {iovSize : ℕ} (inNum outNum : ℕ) (hpos : vq.available m ≠ 0) (hnum : vq.available m ≤ vq.num)
    (hhead : vq.nextHead m < vq.num) :
    let vq' := { vq with availIdx := vq.availRingIdx m }
    let r := getDescsLoop vm m vq' iovSize (vq.nextHead m) 0 ⟨iov, 0, 0, [], []⟩
    virtqGetDescs vm m vq iov iovSize inNum outNum =
      if r.1 < 0 then (r.1, vq', r.2)
      else (vq.nextHead m, { vq' with lastAvailIdx := (vq.lastAvailIdx + 1) % 2 ^ 16 }, r.2) := by
  rw [virtqGetDescs]
  exact (if_neg hpos).trans ((if_neg (Nat.not_lt.2 hnum)).trans (if_neg (Nat.not_le.2 hhead)))

/-- A chain is flattened faithfully if and only if its indirect tables end before the iov is full,
and the flags of their descriptors give the right number of writable buffers. -/
theorem chain_flattened_iff (vm : MvmVm) (m : Bytes) (vq : VirtQueue) (iov : ℕ → Iovec)
    (iovSize inNum outNum : ℕ) (segs : List Segment) (hpos : vq.available m ≠ 0)
    (hnum : vq.available m ≤ vq.num) (hchain : ChainAt vm m vq.desc vq.num (vq.nextHead m) segs)
    (hlen : (chainData segs).length ≤ iovSize) :
    Flattens vm segs (vq.nextHead m) (virtqGetDescs vm m vq iov iovSize inNum outNum) ↔
      TablesFit iovSize 0 segs ∧ writableBehindReadable segs = readableBehindWritable segs := by
  have hhead : vq.nextHead m < vq.num := by
    cases segs with
    | nil => exact hchain.elim
    | cons seg segs => exact hchain.1
  have hle : 0 + (chainData segs).length ≤ iovSize := by rwa [zero_add]
  obtain ⟨hfits, hfull⟩ := @getDescsLoop_chain vm m { vq with availIdx := vq.availRingIdx m }
    iovSize 0 _ ⟨iov, 0, 0, [], []⟩ segs hchain hle
  obtain ⟨hin, hall⟩ := @putChain_counts vm iovSize 0 ⟨iov, 0, 0, [], []⟩ segs
  have hsplit := (chainData segs).length_eq_countP_add_countP fun d => decide d.Writable
  simp only [decide_not, Bool.decide_eq_true] at hsplit
  rw [virtqGetDescs_head iov inNum outNum hpos hnum hhead]
  dsimp only at hin hall ⊢
  by_cases hfit : TablesFit iovSize 0 segs
  swap
  · rw [if_pos (by rw [hfull hfit]; simp [ENOMEM])]
    refine iff_of_false (fun h => ?_) fun h => hfit h.1
    have hret := h.ret
    rw [hfull hfit] at hret
    simp only [ENOMEM] at hret
    omega
  rw [hfits hfit, if_neg (by simp)]
  refine ⟨fun h => ⟨hfit, ?_⟩, fun h => ⟨rfl, fun k d hd => ?_, ?_, ?_⟩⟩
  · have hwritable := h.inNum
    dsimp only at hwritable
    omega
  · have hiov := @putChain_iov vm iovSize 0 ⟨iov, 0, 0, [], []⟩ k d segs hle hd
    rwa [zero_add] at hiov
  · have := h.2
    dsimp only
    omega
  · have := h.2
    simp only [decide_not]
    omega

/-- A chain of one buffer that fills the iov -/
theorem chain_flattened_direct :
    Flattens mvmVm [.direct ⟨0, 16, 2, 0⟩] (ringQueue.nextHead (ringAtZero 2))
      (virtqGetDescs mvmVm (ringAtZero 2) ringQueue (fun _ => ⟨0, 0⟩) 1 0 0) :=
  (chain_flattened_iff mvmVm (ringAtZero 2) ringQueue (fun _ => ⟨0, 0⟩) 1 0 0
    [.direct ⟨0, 16, 2, 0⟩] (by decide +kernel) (by decide +kernel) (by decide +kernel)
    (by decide +kernel)).2 (by decide +kernel)

/-- A table of one buffer is refused where a direct buffer fits, and with a descriptor marked as
writable its buffer is counted as writable. -/
theorem chain_not_flattened :
    (virtqGetDescs mvmVm (ringAtZero 6) ringQueue (fun _ => ⟨0, 0⟩) 64 0 0).2.2.inNum = 1 ∧
    ChainAt mvmVm (ringAtZero 6) ringQueue.desc ringQueue.num 0
      [.indirect ⟨0, 16, 6, 0⟩ [⟨0, 0, 0, 0⟩]] ∧
    ¬ ∀ (vm : MvmVm) (m : Bytes) (vq : VirtQueue) (iov : ℕ → Iovec) (iovSize inNum outNum : ℕ)
      (segs : List Segment), vq.available m ≠ 0 → vq.available m ≤ vq.num →
      ChainAt vm m vq.desc vq.num (vq.nextHead m) segs → (chainData segs).length ≤ iovSize →
      Flattens vm segs (vq.nextHead m) (virtqGetDescs vm m vq iov iovSize inNum outNum) := by
  refine ⟨by decide +kernel, by decide +kernel, fun h => ?_⟩
  have hret := (h mvmVm (ringAtZero 4) ringQueue (fun _ => ⟨0, 0⟩) 1 0 0
    [.indirect ⟨0, 16, 4, 0⟩ [⟨0, 0, 0, 0⟩]] (by decide +kernel) (by decide +kernel)
    (by decide +kernel) (by decide +kernel)).ret
  revert hret
  decide +kernel

/-! ### What a call returns -/

section Returned

variable {vm : MvmVm} {m : Bytes} {vq : VirtQueue} {iovSize index i : ℕ} {f : Fetch}

lemma put_counts {outer d : VringDesc} : (f.put vm iovSize outer index d).inNum +
    (f.put vm iovSize outer index d).outNum = f.inNum + f.outNum + 1 := by
  rw [put_inNum, put_outNum]
  split <;> omega

/-- The codes of `virtq_get_descs` -/
def IsError (r : ℤ) : Prop := r = -EINVAL ∨ r = -ENOMEM

instance (r : ℤ) : Decidable (IsError r) := inferInstanceAs (Decidable (_ ∨ _))

lemma IsError.neg {r : ℤ} (h : IsError r) : r < 0 := by
  rcases h with rfl | rfl
  · decide
  · decide

lemma getIndirectLoop_counts {desc : VringDesc} {inDesc nrIn oldIndex next : ℕ}
    (h : oldIndex ≤ index) :
    let r := getIndirectLoop vm m desc inDesc nrIn iovSize oldIndex index next f
    IsError r.1 ∨ r.2.inNum + r.2.outNum + (index - oldIndex) = f.inNum + f.outNum + r.1.toNat ∧
      0 < r.1 ∧ oldIndex + r.1.toNat ≤ iovSize := by
  fun_induction getIndirectLoop vm m desc inDesc nrIn iovSize oldIndex index next f with
  | case1 => exact Or.inl (Or.inl rfl)
  | case2 => exact Or.inl (Or.inr rfl)
  | case3 index next f vd _ f' hroom hnext =>
    have hput := @put_counts vm iovSize index f desc vd
    change f'.inNum + f'.outNum = _ at hput
    refine Or.inr ⟨?_, ?_, ?_⟩ <;> dsimp only <;> omega
  | case4 => exact Or.inl (Or.inl rfl)
  | case5 index next f vd _ f' hroom next' hnext hnr ih =>
    have hput := @put_counts vm iovSize index f desc vd
    change f'.inNum + f'.outNum = _ at hput
    rcases ih (by omega) with herr | ⟨hcount, hpos, hle⟩
    · exact Or.inl herr
    · exact Or.inr ⟨by omega, hpos, hle⟩

lemma getIndirectBuf_counts {desc : VringDesc} :
    let r := getIndirectBuf vm m desc index iovSize f
    IsError r.1 ∨ r.2.inNum + r.2.outNum = f.inNum + f.outNum + r.1.toNat ∧ 0 < r.1 ∧
      index + r.1.toNat ≤ iovSize := by
  rw [getIndirectBuf]
  dsimp only
  split
  · exact Or.inl (Or.inl rfl)
  · have h := @getIndirectLoop_counts vm m iovSize index
      { f with tables := ⟨vm.gpaToHvmVa desc.addr, desc.len⟩ :: f.tables } desc
      (vm.gpaToHvmVa desc.addr) (desc.len / 16) index 0 le_rfl
    dsimp only at h
    rwa [Nat.sub_self, add_zero] at h

lemma getDescsLoop_counts :
    let r := getDescsLoop vm m vq iovSize i index f
    IsError r.1 ∨ r.1 = 0 ∧ r.2.inNum + r.2.outNum + index ≤ f.inNum + f.outNum + iovSize := by
  fun_induction getDescsLoop vm m vq iovSize i index f with
  | case1 => exact Or.inl (Or.inr rfl)
  | case2 => exact Or.inl (Or.inl rfl)
  | case3 i index f _ _ desc _ r hneg =>
    rcases @getIndirectBuf_counts vm m iovSize index f desc with herr | ⟨-, hpos, -⟩
    · exact Or.inl herr
    · exact absurd hneg (not_lt_of_gt hpos)
  | case4 i index f _ _ desc _ r hneg hnext =>
    rcases @getIndirectBuf_counts vm m iovSize index f desc with herr | ⟨hcount, -, hle⟩
    · exact absurd herr.neg hneg
    · refine Or.inr ⟨rfl, ?_⟩
      change r.2.inNum + r.2.outNum = _ + r.1.toNat at hcount
      change index + r.1.toNat ≤ _ at hle
      change r.2.inNum + r.2.outNum + index ≤ _
      omega
  | case5 i index f _ _ desc _ r hneg next hnext ih =>
    rcases @getIndirectBuf_counts vm m iovSize index f desc with herr | ⟨hcount, -, hle⟩
    · exact absurd herr.neg hneg
    · change r.2.inNum + r.2.outNum = _ + r.1.toNat at hcount
      change index + r.1.toNat ≤ _ at hle
      rcases ih with herr | ⟨hzero, hsum⟩
      · exact Or.inl herr
      · change _ ≤ r.2.inNum + r.2.outNum + _ at hsum
        exact Or.inr ⟨hzero, by omega⟩
  | case6 i index f hindex _ desc _ f' hnext =>
    have hput := @put_counts vm iovSize index f desc desc
    change f'.inNum + f'.outNum = _ at hput
    exact Or.inr ⟨rfl, by dsimp only; omega⟩
  | case7 i index f hindex _ desc _ f' next hnext ih =>
    have hput := @put_counts vm iovSize index f desc desc
    change f'.inNum + f'.outNum = _ at hput
    rcases ih with herr | ⟨hzero, hsum⟩
    · exact Or.inl herr
    · exact Or.inr ⟨hzero, by omega⟩

end Returned

/-- What `virtq_get_descs` returns: the size of an empty ring, an error, or a head whose buffers fit
into the iov. -/
inductive Returned (vq : VirtQueue) (m : Bytes) (iovSize : ℕ) : ℤ × VirtQueue × Fetch → Prop where
  | empty (f : Fetch) (h : vq.available m = 0) :
    Returned vq m iovSize (toInt32 vq.num, { vq with availIdx := vq.availRingIdx m }, f)
  | error (r : ℤ) (f : Fetch) (h : vq.available m ≠ 0) (hr : IsError r) :
    Returned vq m iovSize (r, { vq with availIdx := vq.availRingIdx m }, f)
  | head (i : ℕ) (f : Fetch) (h : vq.available m ≠ 0) (hi : i < vq.num) (hword : i < 2 ^ 16)
    (hcount : f.inNum + f.outNum ≤ iovSize) :
    Returned vq m iovSize (i, { vq with
      availIdx := vq.availRingIdx m
      lastAvailIdx := (vq.lastAvailIdx + 1) % 2 ^ 16 }, f)

/-- An index or a head that is out of range -/
lemma virtqGetDescs_bad {vm : MvmVm} {m : Bytes} {vq : VirtQueue} {iov : ℕ → Iovec}
    {iovSize inNum outNum : ℕ} (hpos : vq.available m ≠ 0)
    (hbad : vq.num < vq.available m ∨ vq.num ≤ vq.nextHead m) :
    virtqGetDescs vm m vq iov iovSize inNum outNum = (-EINVAL,
      { vq with availIdx := vq.availRingIdx m }, ⟨iov, inNum, outNum, [], []⟩) := by
  rw [virtqGetDescs]
  by_cases hnum : vq.num < vq.available m
  · exact (if_neg hpos).trans (if_pos hnum)
  · exact (if_neg hpos).trans ((if_neg hnum).trans (if_pos (hbad.resolve_left hnum)))

lemma virtqGetDescs_returned (vm : MvmVm) (m : Bytes) (vq : VirtQueue) (iov : ℕ → Iovec)
    (iovSize inNum outNum : ℕ) :
    Returned vq m iovSize (virtqGetDescs vm m vq iov iovSize inNum outNum) := by
  by_cases hpos : vq.available m = 0
  · have hempty : virtqGetDescs vm m vq iov iovSize inNum outNum = (toInt32 vq.num,
        { vq with availIdx := vq.availRingIdx m }, ⟨iov, inNum, outNum, [], []⟩) := by
      rw [virtqGetDescs]
      exact if_pos hpos
    rw [hempty]
    exact .empty _ hpos
  by_cases hbad : vq.num < vq.available m ∨ vq.num ≤ vq.nextHead m
  · rw [virtqGetDescs_bad hpos hbad]
    exact .error _ _ hpos (Or.inl rfl)
  rw [not_or, not_lt, not_le] at hbad
  obtain ⟨hnum, hhead⟩ := hbad
  rw [virtqGetDescs_head iov inNum outNum hpos hnum hhead]
  have hcounts := @getDescsLoop_counts vm m { vq with availIdx := vq.availRingIdx m } iovSize 0
    (vq.nextHead m) ⟨iov, 0, 0, [], []⟩
  dsimp only at hcounts ⊢
  split
  · rcases hcounts with herr | ⟨hzero, -⟩
    · exact .error _ _ hpos herr
    · omega
  · rcases hcounts with herr | ⟨-, hsum⟩
    · exact absurd herr.neg ‹_›
    · exact .head _ _ hpos hhead (read_lt m 2 _) (by omega)

end Minos.Virtio
