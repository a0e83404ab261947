import Minos.Virtio.BlkRequests
import Minos.Virtio.BlockIfRuns

/-!
# A block device and its threads

The backend of `virtio_block.c` on the requests that the guest makes available, with the pool of
threads of `block_if.c` behind it: whether blockif takes a request is what its free queue says, and
a request is completed when its thread calls back. `ios[idx].req` is the request with the address
`idx`.

A head has `VIRTIO_BLK_RINGSZ` slots, and an element is given back after the callback only, so the
elements must be as many as the slots and the threads together. `BLOCKIF_MAXREQ` is just that.
-/

namespace Minos.Virtio

open ByteMem Run

def BLOCKIF_NUMTHR : ℕ := 8
def BLOCKIF_MAXREQ : ℕ := 64 + BLOCKIF_NUMTHR

variable {n m : ℕ}

/-- A block device with `n` threads and `m` elements -/
structure BlkDevice (n m : ℕ) where
  run : BlkRun
  bc : Blockif n m

/-- The vcpu thread of the backend begins a notification or goes round in its loop, where `w` is
the thread that a signal wakes; a thread of blockif makes its next step or wakes up; or the memory
of the guest changes, by the guest or by a thread that reads. -/
inductive DeviceEvent (n : ℕ) where
  | notify
  | round (guest : ℕ → Bytes → Bytes) (w : Fin n)
  | thread (t : Fin n) (err : ℕ)
  | wake (t : Fin n)
  | guest (mem : Bytes)

/-- The request in a slot, as blockif has it -/
def VirtioBlk.blockifReq (b : VirtioBlk) (idx : ℕ) : BlockifReq :=
  ⟨idx, BitVec.ofNat 64 (b.ios idx).offset,
    (b.ios idx).iov.map fun e => BitVec.ofNat 64 e.iovLen⟩

/-- The function of blockif that the header of a request asks for -/
def VirtioBlk.blockOp (b : VirtioBlk) : Option BlockOp :=
  match b.op with
  | VBH_OP_READ => some .read
  | VBH_OP_WRITE => some .write
  | VBH_OP_FLUSH | VBH_OP_FLUSH_OUT => some .flush
  | _ => none

namespace BlkDevice

/-- `blockif_request` takes a request if there is an element for it. -/
def env (s : BlkDevice n m) (guest : ℕ → Bytes → Bytes) : Env :=
  ⟨guest, fun _ => decide (s.bc.freeq ≠ [])⟩

/-- The slot and the operation of the request that a round hands to blockif -/
def submits (s : BlkDevice n m) (guest : ℕ → Bytes → Bytes) : Option (ℕ × BlockOp) :=
  match s.run.blk.look (s.env guest) 0 0 with
  | .stop _ | .again _ => none
  | .request r =>
    if r.inNum = 0 ∧ r.blk.Serves r.outNum true then
      r.blk.blockOp.map fun op => (r.ret.toNat % 2 ^ 16, op)
    else none

def step (s : BlkDevice n m) (e : DeviceEvent n) : BlkDevice n m :=
  if s.run.blk.aborted then s
  else
    match e with
    | .notify => { s with run := s.run.step .notify }
    | .round guest w =>
      let run := s.run.step (.round (s.env guest))
      match s.submits guest with
      | none => { s with run := run }
      | some (idx, op) => ⟨run, s.bc.step (.request (run.blk.blockifReq idx) op w)⟩
    | .thread t err =>
      let bc := s.bc.step (.thread t err)
      match s.bc.thr t with
      | .done _ br => ⟨s.run.step (.done br.addr err), bc⟩
      | .look | .proc _ _ | .called _ | .wait | .exited => { s with bc := bc }
    | .wake t => { s with bc := s.bc.step (.wake t) }
    | .guest mem => { s with run := s.run.step (.guest mem) }

/-- A fetched request is well formed, and its head is not in flight. -/
def Expected (s : BlkDevice n m) : DeviceEvent n → Prop
  | .round guest _ => (s.run.blk.look (s.env guest) 0 0).Finds fun r =>
      r.WellFormed true ∧ r.ret.toNat ∉ s.run.blk.pending
  | .notify | .thread _ _ | .wake _ | .guest _ => True

instance (s : BlkDevice n m) : DecidablePred s.Expected
  | .round _ _ => inferInstanceAs (Decidable (Look.Finds _ _))
  | .notify | .thread _ _ | .wake _ | .guest _ => inferInstanceAs (Decidable True)

end BlkDevice

/-! ### What a request leaves in the slots -/

section Slots

variable {b : VirtioBlk} {idx k : ℕ}

lemma getDescs_ios (b : VirtioBlk) (k : ℕ) : (b.getDescs k).blk.ios = b.ios := by
  rw [VirtioBlk.getDescs]
  rfl

lemma enableNotify_ios (b : VirtioBlk) (k : ℕ) : (b.enableNotify k).2.ios = b.ios := by
  rw [VirtioBlk.enableNotify]
  rfl

lemma disableNotify_ios (b : VirtioBlk) (k : ℕ) : (b.disableNotify k).ios = b.ios := by
  rw [VirtioBlk.disableNotify]
  rfl

lemma virtioBlkDone_ios (b : VirtioBlk) (idx err : ℕ) : (virtioBlkDone b idx err).ios = b.ios := by
  rw [virtioBlkDone]
  rfl

lemma look_ios (env : Env) (k t : ℕ) (b : VirtioBlk) : (b.look env k t).blk.ios = b.ios := by
  rw [VirtioBlk.look]
  split
  · rfl
  dsimp only
  split
  · exact getDescs_ios _ k
  split
  · split
    · exact (disableNotify_ios _ k).trans ((enableNotify_ios _ k).trans (getDescs_ios _ k))
    · exact (enableNotify_ios _ k).trans (getDescs_ios _ k)
  · exact getDescs_ios _ k

/-- From `b` to `b'` only the slot `idx` is written. -/
def OnlySlot (idx : ℕ) (b b' : VirtioBlk) : Prop := ∀ i, i ≠ idx → b'.ios i = b.ios i

lemma onlySlot_setIo (io : VirtioBlkIoreq) : OnlySlot idx b ((b.note (.ios idx)).setIo idx io) :=
  fun _ hi => Function.update_of_ne hi _ _

lemma virtioBlkProc_onlySlot (n : ℕ) (accept : Bool) :
    OnlySlot idx b (virtioBlkProc b k idx n accept) := by
  have hsubmit (b₁ : VirtioBlk) (h : OnlySlot idx b b₁) :
      OnlySlot idx b (b₁.submit idx accept) := by
    rw [VirtioBlk.submit]
    split_ifs
    · exact h
    · exact h
  have hdone (b₁ : VirtioBlk) (h : OnlySlot idx b b₁) (err : ℕ) :
      OnlySlot idx b (virtioBlkDone b₁ idx err) := by
    intro i hi
    rw [virtioBlkDone_ios]
    exact h i hi
  rw [virtioBlkProc]
  split
  · exact fun _ _ => rfl
  dsimp only
  split
  · exact fun _ _ => rfl
  split
  · exact onlySlot_setIo _
  split
  · exact hsubmit _ (onlySlot_setIo _)
  · exact hsubmit _ (onlySlot_setIo _)
  · exact hsubmit _ (onlySlot_setIo _)
  · exact hsubmit _ (onlySlot_setIo _)
  · refine hdone _ (fun i hi => ?_) 0
    exact onlySlot_setIo _ i hi
  · exact hdone _ (onlySlot_setIo _) _

lemma virtioBlkDone_pending (b : VirtioBlk) (idx err : ℕ) :
    (virtioBlkDone b idx err).pending = b.pending := by
  rw [virtioBlkDone]
  rfl

/-- A request that is as it should be is handed to blockif if it is for blockif. -/
lemma virtioBlkProc_pending {n : ℕ} (h : b.Serves n true) :
    (virtioBlkProc b 0 idx n true).pending =
      if b.blockOp.isSome then idx :: b.pending else b.pending := by
  obtain ⟨htwo, hmax, hheader, hstatus, -⟩ := h
  rw [virtioBlkProc, if_neg (by omega)]
  dsimp only
  rw [if_neg (not_not.2 hheader), if_neg (not_not.2 hstatus)]
  split
  · next h =>
    have hread : b.op = VBH_OP_READ := h
    rw [VirtioBlk.blockOp, hread]
    rfl
  · next h =>
    have hwrite : b.op = VBH_OP_WRITE := h
    rw [VirtioBlk.blockOp, hwrite]
    rfl
  · next h =>
    have hflush : b.op = VBH_OP_FLUSH := h
    rw [VirtioBlk.blockOp, hflush]
    rfl
  · next h =>
    have hflush : b.op = VBH_OP_FLUSH_OUT := h
    rw [VirtioBlk.blockOp, hflush]
    rfl
  · next h =>
    have hident : b.op = VBH_OP_IDENT := h
    rw [virtioBlkDone_pending, VirtioBlk.blockOp, hident]
    rfl
  · next h0 h1 h4 h5 h8 =>
    have hother : b.blockOp = none := by
      rw [VirtioBlk.blockOp]
      split
      · next h => exact absurd h h0
      · next h => exact absurd h h1
      · next h => exact absurd h h4
      · next h => exact absurd h h5
      · rfl
    rw [virtioBlkDone_pending, hother]
    rfl

end Slots

/-! ### Elements for all requests -/

namespace Blockif.Inv

variable {s : Blockif n m}

lemma length_queues (h : s.Inv) : s.freeq.length + s.pendq.length + s.busyq.length = m := by
  have hperm : (s.freeq ++ s.pendq ++ s.busyq).Perm (List.finRange m) := by
    refine List.perm_iff_count.2 fun i => ?_
    rw [List.count_append, List.count_append, h.once i,
      List.count_eq_one_of_mem (List.nodup_finRange m) (List.mem_finRange i)]
  have hlength := hperm.length_eq
  rwa [List.length_append, List.length_append, List.length_finRange] at hlength

/-- Each busy element has a thread of its own. -/
lemma length_busyq (h : s.Inv) : s.busyq.length ≤ n := by
  have hnodup : (s.busyq.map some).Nodup := by
    refine List.Nodup.map (Option.some_injective _) (List.nodup_iff_count_le_one.2 fun i => ?_)
    have := h.once i
    omega
  have hsub : s.busyq.map some ⊆ (List.finRange n).map fun t => (s.thr t).elem := by
    intro o ho
    obtain ⟨i, hi, rfl⟩ := List.mem_map.1 ho
    obtain ⟨t, ht⟩ := h.busy i hi
    exact List.mem_map.2 ⟨t, List.mem_finRange t, ht⟩
  have hlength := (hnodup.subperm hsub).length_le
  rwa [List.length_map, List.length_map, List.length_finRange] at hlength

lemma length_pendReqs (h : s.Inv) : s.pendReqs.length = s.pendq.length := by
  rw [Blockif.pendReqs, List.length_filterMap_eq_countP, List.countP_eq_length]
  exact fun i hi => (h.pend i hi).2

/-- If no more requests than these are due, there is an element left for another one. -/
lemma freeq_ne_nil (h : s.Inv) {reqs : List BlockifReq} (hdue : ∀ br, s.due br = reqs.count br)
    (hm : reqs.length + n < m) : s.freeq ≠ [] := by
  have hpend : s.pendReqs.Subperm reqs := by
    refine List.subperm_iff_count.2 fun br => ?_
    rw [← hdue, Blockif.due]
    exact Nat.le_add_right _ _
  have hlength := hpend.length_le
  rw [h.length_pendReqs] at hlength
  have hqueues := h.length_queues
  have hbusy := h.length_busyq
  intro hfree
  rw [hfree, List.length_nil] at hqueues
  omega

end Blockif.Inv

namespace Blockif

variable {s : Blockif n m}

/-- No cancellation has the mutex, and nobody closes the context. -/
def Serving (s : Blockif n m) : Prop := s.cancelling = none ∧ s.closing = false

lemma Serving.signal (h : s.Serving) (w : Fin n) : (s.signal w).Serving := by
  rw [Blockif.signal]
  split_ifs
  · exact h
  · split
    · exact h
    · exact h

lemma Serving.loop (h : s.Serving) (t : Fin n) : (s.loop t).Serving := by
  rw [Blockif.loop]
  split
  · split
    · exact h
    · exact h
  · split_ifs
    · exact h
    · exact h

lemma Serving.complete (h : s.Serving) (be : Fin m) : (s.complete be).Serving := by
  rw [Blockif.complete, Blockif.unlink]
  split_ifs
  · exact h
  · exact h

lemma Serving.request (h : s.Serving) (breq : BlockifReq) (op : BlockOp) (w : Fin n) :
    (s.step (.request breq op w)).Serving := by
  rw [Blockif.step, if_pos h.1]
  split
  · dsimp only
    split_ifs
    · exact Serving.signal (s := s.enqueue _ breq op) h w
    · exact h
  · exact h

lemma Serving.thread (h : s.Serving) (t : Fin n) (err : ℕ) : (s.step (.thread t err)).Serving := by
  rw [Blockif.step, Blockif.thrStep]
  split
  · rw [if_pos h.1]
    exact h.loop t
  · exact h
  · exact h
  · rw [if_pos h.1]
    exact Serving.loop (s := (s.complete _).setThr t .look) (h.complete _) t
  · exact h
  · exact h

lemma Serving.wake (h : s.Serving) (t : Fin n) : (s.step (.wake t)).Serving := by
  rw [Blockif.step]
  split_ifs
  · exact h
  · exact h

end Blockif

/-! ### Work -/

instance (t : BlkThr m) : Decidable t.Awake := inferInstanceAs (Decidable (_ ∧ _))

/-- The steps that a thread makes before it looks at the queue again -/
def BlkThr.left : BlkThr m → ℕ
  | .look => 1
  | .proc _ _ => 4
  | .done _ _ => 3
  | .called _ => 2
  | .wait | .exited => 0

namespace Blockif

/-- The steps that the threads can make before all of them sleep -/
def work (s : Blockif n m) : ℕ := 4 * s.pendq.length + ∑ t, (s.thr t).left

variable {s : Blockif n m} {t : Fin n} {pc : BlkThr m}

lemma sum_left_setThr (s : Blockif n m) (t : Fin n) (pc : BlkThr m) :
    ∑ t', ((s.setThr t pc).thr t').left + (s.thr t).left = ∑ t', (s.thr t').left + pc.left := by
  have hrest : ∑ t' ∈ Finset.univ.erase t, ((s.setThr t pc).thr t').left =
      ∑ t' ∈ Finset.univ.erase t, (s.thr t').left := by
    refine Finset.sum_congr rfl fun t' ht' => ?_
    rw [thr_setThr_of_ne (Finset.ne_of_mem_erase ht')]
  rw [← Finset.add_sum_erase _ _ (Finset.mem_univ t),
    ← Finset.add_sum_erase _ (fun t' => (s.thr t').left) (Finset.mem_univ t), hrest,
    thr_setThr_self]
  omega

lemma work_setThr (s : Blockif n m) (t : Fin n) (pc : BlkThr m) :
    (s.setThr t pc).work + (s.thr t).left = s.work + pc.left := by
  have hsum := sum_left_setThr s t pc
  rw [work, work]
  change 4 * s.pendq.length + _ + _ = _
  omega

namespace Inv

lemma work_complete (h : s.Inv) {be : Fin m} (ht : s.thr t = .called be) :
    (s.complete be).work = s.work := by
  have hstatus : (s.reqs be).status = .done := by
    have hheld := (h.held t be (by rw [ht]; rfl)).2.2
    rwa [ht] at hheld
  have hpendq : (s.complete be).pendq = s.pendq := by
    rw [Blockif.complete, Blockif.unlink, if_pos (Or.inl hstatus)]
    rfl
  rw [work, work, hpendq, h.thr_complete be]

/-- A thread that looks at the queue takes a request, or sleeps. -/
lemma work_loop (h : s.Inv) (ht : s.thr t = .look) : (s.loop t).work < s.work := by
  have hleft : (s.thr t).left = 1 := by rw [ht]; rfl
  rw [Blockif.loop]
  split
  · next be hbe =>
    have hmem := (mem_of_next hbe).1
    obtain ⟨br, hbr⟩ := Option.isSome_iff_exists.1 (h.pend be hmem).2
    rw [hbr]
    dsimp only
    have hset := work_setThr (s.dequeue t be) t (.proc be br)
    have hdequeue : (s.dequeue t be).work + 4 = s.work := by
      have hpos := List.length_pos_of_mem hmem
      change 4 * (s.pendq.erase be).length + _ + 4 = 4 * s.pendq.length + _
      rw [List.length_erase_of_mem hmem]
      change 4 * (s.pendq.length - 1) + (∑ t, (s.thr t).left) + 4 = _
      omega
    have hproc : (BlkThr.proc be br).left = 4 := rfl
    rw [show ((s.dequeue t be).thr t).left = 1 from hleft] at hset
    omega
  · have hsleep (pc : BlkThr m) (hpc : pc.left = 0) : (s.setThr t pc).work < s.work := by
      have hset := work_setThr s t pc
      omega
    split_ifs
    · exact hsleep .exited rfl
    · exact hsleep .wait rfl

/-- A thread that is awake gets nearer to its sleep with every step. -/
lemma work_step (h : s.Inv) (hserving : s.Serving) (ht : (s.thr t).Awake) (err : ℕ) :
    (s.step (.thread t err)).work < s.work := by
  rw [Blockif.step, Blockif.thrStep]
  cases hpc : s.thr t with
  | look =>
    dsimp only
    rw [if_pos hserving.1]
    exact h.work_loop hpc
  | proc be br =>
    let s₁ := s.setElem be { s.reqs be with status := .done }
    have hset := work_setThr s₁ t (.done be br)
    have hleft : (s₁.thr t).left = 4 := by
      rw [show s₁.thr t = s.thr t from rfl, hpc]
      rfl
    have hwork : s₁.work = s.work := rfl
    have hdone : (BlkThr.done be br).left = 3 := rfl
    change (s₁.setThr t (.done be br)).work < s.work
    omega
  | done be br =>
    have hset := work_setThr s t (.called be)
    have hleft : (s.thr t).left = 3 := by rw [hpc]; rfl
    have hcalled : (BlkThr.called be).left = 2 := rfl
    dsimp only
    omega
  | called be =>
    dsimp only
    rw [if_pos hserving.1]
    have hloop := work_loop (h.completeBusy hpc hserving.1) thr_setThr_self
    have hset := work_setThr (s.complete be) t .look
    have hleft : ((s.complete be).thr t).left = 2 := by
      rw [h.thr_complete be, hpc]
      rfl
    have hlook : (BlkThr.look : BlkThr m).left = 1 := rfl
    have hcomplete := h.work_complete hpc
    omega
  | wait => exact absurd hpc ht.1
  | exited => exact absurd hpc ht.2

end Inv

/-- When all threads sleep, nothing is due. -/
lemma Watched.due_eq_zero (hw : s.Watched) (hsleep : ∀ t, ¬ (s.thr t).Awake)
    (br : BlockifReq) : s.due br = 0 := by
  have hpend : s.pendq = [] := by
    by_contra hne
    obtain ⟨t, ht⟩ := hw hne
    exact hsleep t ht
  have hhands : s.hands br = 0 := by
    refine Finset.sum_eq_zero fun t _ => if_neg fun ht => ?_
    cases hpc : s.thr t with
    | proc | done => exact hsleep t ⟨by rw [hpc]; simp, by rw [hpc]; simp⟩
    | look | called | wait | exited =>
      rw [hpc] at ht
      cases ht
  rw [due, hhands, pendReqs, hpend]
  rfl

end Blockif

/-! ### One step -/

lemma BlkRun.Inv.of_wellFormed {s : BlkRun} (h : s.Inv) {e : RequestEvent}
    (hwf : s.FetchesWellFormed e) : (s.step e).Inv := by
  rcases h.step e with ⟨-, hinv, -⟩ | ⟨hnot, -⟩
  · exact hinv
  · exact absurd hwf hnot

namespace BlkDevice

variable {s : BlkDevice n m}

/-- The requests that blockif has are those in the slots of the heads in flight, as they were when
they were made. -/
structure Inv (s : BlkDevice n m) : Prop where
  run : s.run.Inv
  bc : s.bc.Inv
  serving : s.bc.Serving
  watched : s.bc.Watched
  nodup : s.run.blk.pending.Nodup
  due : ∀ br, s.bc.due br = (s.run.blk.pending.map s.run.blk.blockifReq).count br

/-- From `s` to `s'` the slots of the requests in flight stay as they are. -/
def SlotsKept (s s' : BlkDevice n m) : Prop :=
  ∀ i ∈ s.run.blk.pending, s'.run.blk.ios i = s.run.blk.ios i

lemma blockifReq_injective (b : VirtioBlk) : Function.Injective b.blockifReq :=
  fun _ _ h => congrArg BlockifReq.addr h

namespace Inv

/-- Another head may come in flight. -/
lemma freeq_ne_nil (h : s.Inv) (hm : VIRTIO_BLK_RINGSZ + n ≤ m) {idx : ℕ}
    (hidx : idx < VIRTIO_BLK_RINGSZ) (hnew : idx ∉ s.run.blk.pending) : s.bc.freeq ≠ [] := by
  have hsub : idx :: s.run.blk.pending ⊆ List.range VIRTIO_BLK_RINGSZ := by
    intro i hi
    rcases List.mem_cons.1 hi with rfl | hi
    · exact List.mem_range.2 hidx
    · exact List.mem_range.2 (h.run.pending i hi)
  have hlength := ((List.nodup_cons.2 ⟨hnew, h.nodup⟩).subperm hsub).length_le
  rw [List.length_cons, List.length_range] at hlength
  refine h.bc.freeq_ne_nil h.due ?_
  rw [List.length_map]
  omega

/-- The backend changes, and no request that is in flight. -/
lemma of_run (h : s.Inv) {run : BlkRun} (hrun : run.Inv)
    (hpending : run.blk.pending = s.run.blk.pending)
    (hios : ∀ i ∈ s.run.blk.pending, run.blk.ios i = s.run.blk.ios i) :
    Inv { s with run := run } := by
  refine ⟨hrun, h.bc, h.serving, h.watched, hpending ▸ h.nodup, fun br => ?_⟩
  have hreqs : s.run.blk.pending.map run.blk.blockifReq =
      s.run.blk.pending.map s.run.blk.blockifReq := by
    refine List.map_congr_left fun i hi => ?_
    rw [VirtioBlk.blockifReq, hios i hi]
    rfl
  change s.bc.due br = (run.blk.pending.map run.blk.blockifReq).count br
  rw [hpending, hreqs]
  exact h.due br

/-- A thread makes a step that is not the callback. -/
lemma of_bc (h : s.Inv) {e : BlockifEvent n} (hmarks : s.bc.marks e = [])
    (hserving : (s.bc.step e).Serving) : Inv { s with bc := s.bc.step e } := by
  refine ⟨h.run, h.bc.step e, hserving, h.bc.watched_step h.watched e fun _ _ _ _ => h.serving.2,
    h.nodup, fun br => ?_⟩
  have hdue := h.bc.due_step br e
  rw [hmarks] at hdue
  exact hdue.symm.trans (h.due br)

/-- A request is made for a head that is not in flight. -/
lemma request (h : s.Inv) {run : BlkRun} {idx : ℕ} (hrun : run.Inv) (hnew : idx ∉ s.run.blk.pending)
    (hpending : run.blk.pending = idx :: s.run.blk.pending)
    (hios : ∀ i, i ≠ idx → run.blk.ios i = s.run.blk.ios i) (hfree : s.bc.freeq ≠ [])
    (op : BlockOp) (w : Fin n) :
    Inv ⟨run, s.bc.step (.request (run.blk.blockifReq idx) op w)⟩ := by
  let e : BlockifEvent n := .request (run.blk.blockifReq idx) op w
  refine ⟨hrun, h.bc.step e, h.serving.request _ op w,
    h.bc.watched_step h.watched e fun _ _ _ _ => h.serving.2, ?_, fun br => ?_⟩
  · rw [hpending]
    exact List.nodup_cons.2 ⟨hnew, h.nodup⟩
  have hreqs : s.run.blk.pending.map run.blk.blockifReq =
      s.run.blk.pending.map s.run.blk.blockifReq := by
    refine List.map_congr_left fun i hi => ?_
    rw [VirtioBlk.blockifReq, hios i fun hidx => hnew (hidx ▸ hi)]
    rfl
  have hmarks : s.bc.marks e = [.accept (run.blk.blockifReq idx)] := by
    obtain ⟨be, l, hbe⟩ := List.exists_cons_of_ne_nil hfree
    rw [Blockif.marks, if_pos h.serving.1, hbe]
  have hdue := h.bc.due_step br e
  rw [hmarks, h.due] at hdue
  have haccepts : accepts br [.accept (run.blk.blockifReq idx)] =
      if run.blk.blockifReq idx == br then 1 else 0 := by
    simp [accepts, List.count_singleton]
  have hanswers : answers br [.accept (run.blk.blockifReq idx)] = 0 := by simp [answers]
  rw [haccepts, hanswers, add_zero] at hdue
  change (s.bc.step e).due br = (run.blk.pending.map run.blk.blockifReq).count br
  rw [hpending, List.map_cons, hreqs, List.count_cons]
  exact hdue.symm

/-- A thread calls back. -/
lemma callback (h : s.Inv) {t : Fin n} {be : Fin m} {br : BlockifReq}
    (ht : s.bc.thr t = .done be br) (err : ℕ) : br.addr ∈ s.run.blk.pending ∧
      Inv ⟨s.run.step (.done br.addr err), s.bc.step (.thread t err)⟩ := by
  have hmarks : s.bc.marks (.thread t err) = [.callback br err] := by
    rw [Blockif.marks, ht]
  have hanswers (br' : BlockifReq) :
      answers br' [.callback br err] = if br == br' then 1 else 0 := by
    simp [answers, List.countP_cons]
  have hdue (br' : BlockifReq) : (s.run.blk.pending.map s.run.blk.blockifReq).count br' =
      (s.bc.step (.thread t err)).due br' + if br == br' then 1 else 0 := by
    have hstep := h.bc.due_step br' (.thread t err)
    rwa [hmarks, h.due, hanswers] at hstep
  -- the request of the callback is due, so it is in the slot of a head in flight
  have hmem : br ∈ s.run.blk.pending.map s.run.blk.blockifReq := by
    have hpos := hdue br
    rw [beq_self_eq_true, if_pos rfl] at hpos
    exact List.count_pos_iff.1 (by omega)
  obtain ⟨idx, hidx, rfl⟩ := List.mem_map.1 hmem
  have hstep : s.run.step (.done idx err) = s.run.moveTo
      (virtioBlkDone { s.run.blk with pending := s.run.blk.pending.erase idx } idx err) none := by
    rw [BlkRun.step, if_neg (by rw [h.run.alive]; exact Bool.false_ne_true)]
    exact if_pos hidx
  refine ⟨hidx, ?_⟩
  change Inv ⟨s.run.step (.done idx err), _⟩
  rw [hstep]
  refine ⟨(h.run.done hidx err).1, h.bc.step (.thread t err), h.serving.thread t err,
    h.bc.watched_step h.watched _ fun _ _ _ _ => h.serving.2, ?_, fun br' => ?_⟩
  · change (virtioBlkDone _ idx err).pending.Nodup
    rw [virtioBlkDone_pending]
    exact h.nodup.erase idx
  · have hios : (virtioBlkDone { s.run.blk with pending := s.run.blk.pending.erase idx } idx
        err).blockifReq = s.run.blk.blockifReq := by
      funext i
      rw [VirtioBlk.blockifReq, virtioBlkDone_ios]
      rfl
    change (s.bc.step (.thread t err)).due br' =
      ((virtioBlkDone _ idx err).pending.map (virtioBlkDone _ idx err).blockifReq).count br'
    rw [hios, virtioBlkDone_pending]
    dsimp only
    rw [List.map_erase (blockifReq_injective _), List.count_erase, hdue br', Nat.add_sub_cancel]

end Inv

/-- A round hands no request to blockif. -/
lemma step_round_none (halive : s.run.blk.aborted = false) {guest : ℕ → Bytes → Bytes} {w : Fin n}
    (hsubmits : s.submits guest = none) :
    s.step (.round guest w) = { s with run := s.run.step (.round (s.env guest)) } := by
  rw [step, if_neg (by rw [halive]; exact Bool.false_ne_true)]
  dsimp only
  rw [hsubmits]

lemma step_round_some (halive : s.run.blk.aborted = false) {guest : ℕ → Bytes → Bytes} {w : Fin n}
    {idx : ℕ} {op : BlockOp} (hsubmits : s.submits guest = some (idx, op)) :
    let run := s.run.step (.round (s.env guest))
    s.step (.round guest w) = ⟨run, s.bc.step (.request (run.blk.blockifReq idx) op w)⟩ := by
  dsimp only
  rw [step, if_neg (by rw [halive]; exact Bool.false_ne_true)]
  dsimp only
  rw [hsubmits]

namespace Inv

/-- A round, in which the guest makes no head available that is in flight -/
lemma round (h : s.Inv) (hm : VIRTIO_BLK_RINGSZ + n ≤ m) {guest : ℕ → Bytes → Bytes} {w : Fin n}
    (hexp : s.Expected (.round guest w)) :
    (s.step (.round guest w)).Inv ∧ SlotsKept s (s.step (.round guest w)) := by
  have halive := h.run.alive
  have hblk := BlkRun.step_round s.run (s.env guest) halive
  have hlook := s.run.blk.look_unserved (s.env guest) 0 0
  have hlookIos := look_ios (s.env guest) 0 0 s.run.blk
  rw [VirtioBlk.round] at hblk
  rw [Expected] at hexp
  cases hr : s.run.blk.look (s.env guest) 0 0 with
  | stop b | again b =>
    have hsubmits : s.submits guest = none := by rw [submits, hr]
    have hwf : s.run.FetchesWellFormed (.round (s.env guest)) := by
      intro _
      rw [hr]
      trivial
    rw [hr] at hblk hlook hlookIos
    have hkept : SlotsKept s { s with run := s.run.step (.round (s.env guest)) } := by
      intro i _
      rw [hblk]
      exact congrFun hlookIos i
    rw [step_round_none halive hsubmits]
    refine ⟨h.of_run (h.run.of_wellFormed hwf) ?_ hkept, hkept⟩
    rw [hblk]
    exact hlook.pending
  | request r =>
    rw [hr] at hblk hlook hlookIos hexp
    obtain ⟨hin, hslot, hserves⟩ := hexp.1
    have hnew := hexp.2
    have hfree : s.bc.freeq ≠ [] := h.freeq_ne_nil hm hslot hnew
    have haccept : (s.env guest).accepts 0 = true := decide_eq_true hfree
    have hwf : s.run.FetchesWellFormed (.round (s.env guest)) := by
      intro _
      rw [hr, haccept]
      exact hexp.1
    have hword : r.ret.toNat % 2 ^ 16 = r.ret.toNat :=
      Nat.mod_eq_of_lt (BlkRun.look_request h.run.num hr).2
    dsimp only at hblk
    rw [if_neg (not_not.2 hin), haccept, hword] at hblk
    have hpending : (virtioBlkProc r.blk 0 r.ret.toNat r.outNum true).pending = _ :=
      virtioBlkProc_pending hserves
    have hios : OnlySlot r.ret.toNat s.run.blk (s.run.step (.round (s.env guest))).blk := by
      intro i hi
      rw [hblk, virtioBlkProc_onlySlot r.outNum true i hi]
      exact congrFun hlookIos i
    have hkept : ∀ i ∈ s.run.blk.pending,
        (s.run.step (.round (s.env guest))).blk.ios i = s.run.blk.ios i :=
      fun i hi => hios i fun hidx => hnew (hidx ▸ hi)
    rw [show r.blk.pending = s.run.blk.pending from hlook.pending] at hpending
    cases hop : r.blk.blockOp with
    | none =>
      have hsubmits : s.submits guest = none := by
        rw [submits, hr]
        dsimp only
        rw [if_pos ⟨hin, hserves⟩, hop]
        rfl
      rw [step_round_none halive hsubmits]
      refine ⟨h.of_run (h.run.of_wellFormed hwf) ?_ hkept, hkept⟩
      rw [hblk]
      exact hpending.trans (by rw [hop]; rfl)
    | some op =>
      have hsubmits : s.submits guest = some (r.ret.toNat, op) := by
        rw [submits, hr]
        dsimp only
        rw [if_pos ⟨hin, hserves⟩, hop, hword]
        rfl
      rw [step_round_some halive hsubmits]
      refine ⟨h.request (h.run.of_wellFormed hwf) hnew ?_ hios hfree op w, hkept⟩
      rw [hblk]
      exact hpending.trans (by rw [hop]; rfl)

/-- An event that touches neither the slots nor the requests -/
lemma unserved (h : s.Inv) {e : RequestEvent} (hwf : s.run.FetchesWellFormed e)
    (hpending : (s.run.step e).blk.pending = s.run.blk.pending)
    (hios : (s.run.step e).blk.ios = s.run.blk.ios) :
    Inv { s with run := s.run.step e } ∧ SlotsKept s { s with run := s.run.step e } := by
  have hkept : SlotsKept s { s with run := s.run.step e } := fun i _ => congrFun hios i
  exact ⟨h.of_run (h.run.of_wellFormed hwf) hpending hkept, hkept⟩

lemma step (h : s.Inv) (hm : VIRTIO_BLK_RINGSZ + n ≤ m) {e : DeviceEvent n} (hexp : s.Expected e) :
    (s.step e).Inv ∧ SlotsKept s (s.step e) := by
  have halive : ¬ s.run.blk.aborted = true := by
    rw [h.run.alive]
    exact Bool.false_ne_true
  cases e with
  | notify =>
    rw [BlkDevice.step, if_neg halive]
    have hblk : (s.run.step .notify).blk = s.run.blk.disableNotify 0 := by
      rw [BlkRun.step, if_neg halive]
      rfl
    refine h.unserved trivial ?_ ?_
    · rw [hblk]
      exact (Unserved.disableNotify _ 0).pending
    · rw [hblk]
      exact disableNotify_ios _ 0
  | round guest w => exact h.round hm hexp
  | thread t err =>
    rw [BlkDevice.step, if_neg halive]
    dsimp only
    cases ht : s.bc.thr t with
    | done be br =>
      obtain ⟨hmem, hinv⟩ := h.callback ht err
      refine ⟨hinv, fun i _ => ?_⟩
      change (s.run.step (.done br.addr err)).blk.ios i = _
      rw [BlkRun.step, if_neg halive]
      dsimp only
      rw [if_pos hmem]
      exact congrFun (virtioBlkDone_ios _ _ _) i
    | look | proc | called | wait | exited =>
      refine ⟨h.of_bc ?_ (h.serving.thread t err), fun _ _ => rfl⟩
      rw [Blockif.marks, ht]
  | wake t =>
    rw [BlkDevice.step, if_neg halive]
    exact ⟨h.of_bc rfl (h.serving.wake t), fun _ _ => rfl⟩
  | guest mem =>
    rw [BlkDevice.step, if_neg halive]
    refine h.unserved trivial ?_ ?_
    · rw [BlkRun.step, if_neg halive]
      rfl
    · rw [BlkRun.step, if_neg halive]
      rfl

end Inv

/-! ### Runs -/

/-- A device whose queue was just set up, after `blockif_open` -/
structure Fresh (s : BlkDevice n m) : Prop where
  run : s.run.Fresh
  bc : s.bc = Blockif.init

lemma Fresh.inv (hs : s.Fresh) : s.Inv := by
  obtain ⟨⟨hfetched, hused, hpending, halive, hslots, hlast, hnum⟩, hbc⟩ := hs
  refine ⟨⟨⟨fun i => ?_, halive, hslots⟩, ?_, hnum, fun i hi => ?_⟩, ?_, ?_, ?_, ?_, fun br => ?_⟩
  · rw [hfetched, hused, hpending]
    rfl
  · rw [hlast]
    exact Nat.two_pow_pos 16
  · rw [hpending] at hi
    cases hi
  · rw [hbc]
    exact Blockif.init_inv
  · rw [hbc]
    exact ⟨rfl, rfl⟩
  · rw [hbc]
    exact fun hne => absurd rfl hne
  · rw [hpending]
    exact List.nodup_nil
  · rw [hbc, hpending]
    simp [Blockif.due, Blockif.pendReqs, Blockif.hands, Blockif.init, BlkThr.inHand]

lemma exec_inv (hs : s.Inv) (hm : VIRTIO_BLK_RINGSZ + n ≤ m) {es : List (DeviceEvent n)}
    (hes : Along step Expected s es) : (exec step s es).Inv :=
  exec_induction (fun _ _ h hexp => (h.step hm hexp).1) hs hes

/-- In every run of a block device with enough elements for its slots and its threads, in which the
guest makes only well formed requests and none with a head that is in flight, whatever the order in
which the threads do them: blockif takes every request, so that no assertion fails, each fetched
head was completed as often as it was fetched or is still in flight, once, and what blockif has to
answer are the requests in flight, with the data that they were made with. -/
theorem blk_device_accounts (hm : VIRTIO_BLK_RINGSZ + n ≤ m) (hs : s.Fresh)
    (es : List (DeviceEvent n)) (hes : Along step Expected s es) :
    let s' := exec step s es
    s'.run.blk.aborted = false ∧ s'.run.blk.pending.Nodup ∧
      (∀ head, s'.run.fetched.count head =
        s'.run.used.count head + s'.run.blk.pending.count head) ∧
      (∀ br, s'.bc.due br = (s'.run.blk.pending.map s'.run.blk.blockifReq).count br) ∧
      Along step (fun s e => SlotsKept s (s.step e)) s es := by
  have h := exec_inv hs.inv hm hes
  refine ⟨h.run.alive, h.nodup, h.run.count, h.due, ?_⟩
  exact along_induction (fun _ _ h hexp => (h.step hm hexp).1)
    (fun _ _ h hexp => (h.step hm hexp).2) hs.inv hes

/-! ### The threads come to an end -/

/-- An awake thread makes a step. -/
def Works (s : BlkDevice n m) : DeviceEvent n → Prop
  | .thread t _ => (s.bc.thr t).Awake
  | .notify | .round _ _ | .wake _ | .guest _ => False

instance (s : BlkDevice n m) : DecidablePred s.Works
  | .thread t _ => inferInstanceAs (Decidable ((s.bc.thr t).Awake))
  | .notify | .round _ _ | .wake _ | .guest _ => inferInstanceAs (Decidable False)

lemma expected_of_works {e : DeviceEvent n} (hw : s.Works e) : s.Expected e := by
  cases e with
  | thread => trivial
  | notify | round | wake | guest => exact hw.elim

lemma Inv.work_step (h : s.Inv) {e : DeviceEvent n} (hw : s.Works e) :
    (s.step e).bc.work < s.bc.work := by
  cases e with
  | notify | round | wake | guest => exact hw.elim
  | thread t err =>
    rw [BlkDevice.step, if_neg (by rw [h.run.alive]; exact Bool.false_ne_true)]
    have hwork := h.bc.work_step h.serving hw err
    dsimp only
    split
    · exact hwork
    · exact hwork
    · exact hwork
    · exact hwork
    · exact hwork
    · exact hwork

/-- When the threads go on from any state of a run, and nothing else happens, they fall asleep after
a bounded number of steps, and then every request that was ever fetched is completed. -/
theorem blk_device_answers_all (hm : VIRTIO_BLK_RINGSZ + n ≤ m) (hs : s.Fresh)
    (es es' : List (DeviceEvent n)) (hes : Along step Expected s es)
    (hes' : Along step Works (exec step s es) es') :
    let s' := exec step (exec step s es) es'
    es'.length ≤ (exec step s es).bc.work ∧
      ((∀ t, ¬ (s'.bc.thr t).Awake) →
        ∀ head, s'.run.fetched.count head = s'.run.used.count head) := by
  have h := exec_inv hs.inv hm hes
  have hexp : Along step Expected (exec step s es) es' :=
    along_induction (I := fun _ => True) (fun _ _ _ _ => trivial)
      (fun _ _ _ hw => expected_of_works hw) trivial hes'
  have h' := exec_inv h hm hexp
  refine ⟨?_, fun hsleep head => ?_⟩
  · have hlength := length_le_of_lt (I := Inv) (fun s => s.bc.work)
      (fun _ _ h hw => (h.step hm (expected_of_works hw)).1) (fun _ _ h hw => h.work_step hw) h hes'
    exact (Nat.le_add_right _ _).trans hlength
  · have hnone : (exec step (exec step s es) es').run.blk.pending = [] := by
      refine List.eq_nil_iff_forall_not_mem.2 fun i hi => ?_
      have hdue := h'.due ((exec step (exec step s es) es').run.blk.blockifReq i)
      rw [h'.watched.due_eq_zero hsleep] at hdue
      exact List.count_eq_zero.1 hdue.symm (List.mem_map_of_mem hi)
    have hcount := h'.run.count head
    rwa [hnone, List.count_nil, add_zero] at hcount

/-! ### A request to read -/

/-- A device with one request to read in its ring -/
def readDevice : BlkDevice BLOCKIF_NUMTHR BLOCKIF_MAXREQ where
  run := BlkRun.readyBlk (BlkRun.readRequest 0 1)
  bc := Blockif.init

lemma readDevice_fresh : readDevice.Fresh := ⟨BlkRun.readyBlk_fresh _, rfl⟩

def firstThread : Fin BLOCKIF_NUMTHR := ⟨0, Nat.succ_pos 7⟩

/-- The request is fetched. -/
def fetch : List (DeviceEvent BLOCKIF_NUMTHR) := [.notify, .round (fun _ m => m) firstThread]

/-- The first thread serves the request, and then all threads go to sleep. -/
def serve : List (DeviceEvent BLOCKIF_NUMTHR) :=
  List.replicate 3 (.thread firstThread 0) ++
    (List.finRange BLOCKIF_NUMTHR).map fun t => .thread t 0

theorem blk_device_accounts_read :
    let s' := exec step readDevice fetch
    s'.run.blk.aborted = false ∧
      ∀ head, s'.run.fetched.count head = s'.run.used.count head + [0].count head := by
  obtain ⟨halive, -, hcount, -⟩ := blk_device_accounts (by decide) readDevice_fresh fetch
    (by decide +kernel)
  refine ⟨halive, fun head => ?_⟩
  have hpending : (exec step readDevice fetch).run.blk.pending = [0] := by decide +kernel
  rw [hcount head, hpending]

theorem blk_device_answers_all_read :
    ∀ head, (exec step (exec step readDevice fetch) serve).run.fetched.count head =
      (exec step (exec step readDevice fetch) serve).run.used.count head :=
  (blk_device_answers_all (by decide) readDevice_fresh fetch serve (by decide +kernel)
    (by decide +kernel)).2 (by decide +kernel)

end BlkDevice

end Minos.Virtio
