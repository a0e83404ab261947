import Minos.Virtio.BlockIf

/-!
# Runs of the block interface

Every accepted request is called back or cancelled, once. A request that waits for another one is
released when that one ends. While a request is pending some thread is awake, and when all threads
have left after `blockif_close`, nothing is pending.
-/

namespace Minos.Virtio

open Function Run

variable {n m : ℕ}

/-- The number of times that a request came back with `blockif_cancel` or its callback -/
def answers (br : BlockifReq) (ms : List BlkMark) : ℕ :=
  ms.countP fun
    | .callback br' _ | .cancel br' => br' = br
    | _ => false

/-- The number of times that a request was accepted -/
def accepts (br : BlockifReq) (ms : List BlkMark) : ℕ := ms.count (.accept br)

namespace Blockif

/-- The pending requests -/
def pendReqs (s : Blockif n m) : List BlockifReq := s.pendq.filterMap fun i => (s.reqs i).req

/-- The number of threads that are to call a request back -/
def hands (s : Blockif n m) (br : BlockifReq) : ℕ :=
  ∑ t, if (s.thr t).inHand = some br then 1 else 0

/-- The number of answers that are still to come -/
def due (s : Blockif n m) (br : BlockifReq) : ℕ := s.pendReqs.count br + s.hands br

variable {s s' : Blockif n m} {i be : Fin m} {t : Fin n} {pc : BlkThr m} {br br' : BlockifReq}

/-! ### What is due -/

lemma hands_setThr (s : Blockif n m) (t : Fin n) (pc : BlkThr m) (br : BlockifReq) :
    (s.setThr t pc).hands br + (if (s.thr t).inHand = some br then 1 else 0) =
      s.hands br + if pc.inHand = some br then 1 else 0 := by
  have hrest : ∑ t' ∈ Finset.univ.erase t,
      (if ((s.setThr t pc).thr t').inHand = some br then 1 else 0) =
      ∑ t' ∈ Finset.univ.erase t, if (s.thr t').inHand = some br then 1 else 0 := by
    refine Finset.sum_congr rfl fun t' ht' => ?_
    rw [thr_setThr_of_ne (Finset.ne_of_mem_erase ht')]
  rw [hands, hands, ← Finset.add_sum_erase _ _ (Finset.mem_univ t),
    ← Finset.add_sum_erase _ (fun t' => if (s.thr t').inHand = some br then 1 else 0)
      (Finset.mem_univ t), hrest, thr_setThr_self]
  omega

/-- A thread goes on with the same request in hand. -/
lemma due_setThr (h : pc.inHand = (s.thr t).inHand) : (s.setThr t pc).due br = s.due br := by
  have hhands := hands_setThr s t pc br
  rw [h] at hhands
  change s.pendReqs.count br + _ = _
  rw [due]
  omega

lemma hands_congr (h : ∀ t, (s'.thr t).inHand = (s.thr t).inHand) : s'.hands br = s.hands br :=
  Finset.sum_congr rfl fun t _ => by rw [h t]

lemma pendReqs_congr (hq : s'.pendq = s.pendq)
    (h : ∀ i ∈ s.pendq, (s'.reqs i).req = (s.reqs i).req) : s'.pendReqs = s.pendReqs := by
  rw [pendReqs, pendReqs, hq]
  exact List.filterMap_congr h

/-- A request leaves the pending queue. -/
lemma count_pendReqs_erase (br : BlockifReq) (hbe : be ∈ s.pendq)
    (hreq : (s.reqs be).req = some br') (hq : s'.pendq = s.pendq.erase be)
    (h : ∀ i ∈ s.pendq.erase be, (s'.reqs i).req = (s.reqs i).req) :
    s.pendReqs.count br = s'.pendReqs.count br + if br' = br then 1 else 0 := by
  have hperm : s.pendReqs.Perm (br' :: s'.pendReqs) := by
    rw [pendReqs, pendReqs, hq, List.filterMap_congr h]
    refine ((List.perm_cons_erase hbe).filterMap _).trans ?_
    rw [List.filterMap_cons, hreq]
  rw [hperm.count_eq, List.count_cons]
  simp only [beq_iff_eq]

namespace Inv

lemma due_enqueue (h : s.Inv) (hbe : be ∈ s.freeq) (breq : BlockifReq) (op : BlockOp) :
    (s.enqueue be breq op).due br = s.due br + if breq = br then 1 else 0 := by
  have hself : (s.enqueue be breq op).reqs be = _ := update_self ..
  have hpend : (s.enqueue be breq op).pendReqs = s.pendReqs ++ [breq] := by
    rw [pendReqs]
    change (s.pendq ++ [be]).filterMap _ = _
    rw [List.filterMap_append]
    congr 1
    · refine List.filterMap_congr fun i hi => ?_
      have hne : i ≠ be := fun heq => (h.not_mem_of_free hbe).1 (heq ▸ hi)
      exact congrArg BlockifElem.req (update_of_ne hne ..)
    · rw [List.filterMap_cons, hself]
      rfl
  have hhands : (s.enqueue be breq op).hands br = s.hands br := rfl
  rw [due, due, hpend, hhands, List.count_append, List.count_singleton]
  simp only [beq_iff_eq]
  omega

/-- A thread takes a request into its hands. -/
lemma due_dequeue (h : s.Inv) (hbe : be ∈ s.pendq) (ht : (s.thr t).elem = none)
    (hreq : (s.reqs be).req = some br') :
    ((s.dequeue t be).setThr t (.proc be br')).due br = s.due br := by
  have hq : (s.dequeue t be).pendq = s.pendq.erase be := rfl
  have hpend := count_pendReqs_erase br hbe hreq hq fun i hi => by
    have hne : i ≠ be := ((List.Nodup.mem_erase_iff h.nodup_pend).1 hi).1
    exact congrArg BlockifElem.req (update_of_ne hne ..)
  have hnone : ((s.dequeue t be).thr t).inHand = none := by
    change (s.thr t).inHand = none
    cases hpc : s.thr t <;> rw [hpc] at ht <;> first | rfl | cases ht
  have hhands : ((s.dequeue t be).setThr t (.proc be br')).hands br =
      s.hands br + if br' = br then 1 else 0 := by
    have := hands_setThr (s.dequeue t be) t (.proc be br') br
    have hsame : (s.dequeue t be).hands br = s.hands br := rfl
    rw [hnone, hsame] at this
    simpa [BlkThr.inHand] using this
  change (s.dequeue t be).pendReqs.count br + _ = _
  rw [due, hhands, hpend]
  omega

lemma hands_complete (h : s.Inv) (be : Fin m) (br : BlockifReq) :
    (s.complete be).hands br = s.hands br := hands_congr fun t => by rw [h.thr_complete be]

/-- A pending request is answered by `blockif_cancel`. -/
lemma due_completePend (h : s.Inv) (hbe : be ∈ s.pendq) (hreq : (s.reqs be).req = some br') :
    s.due br = (s.complete be).due br + if br' = br then 1 else 0 := by
  have hpend := count_pendReqs_erase br hbe hreq (h.pendq_complete be) fun i hi =>
    h.req_complete ((List.Nodup.mem_erase_iff h.nodup_pend).1 hi).1
  rw [due, due, h.hands_complete, hpend]
  omega

lemma due_completeBusy (h : s.Inv) (ht : s.thr t = .called be) :
    ((s.complete be).setThr t .look).due br = s.due br := by
  have hbe := (h.held t be (by rw [ht]; rfl)).1
  have hq : (s.complete be).pendq = s.pendq := by
    rw [h.pendq_complete be, List.erase_of_not_mem fun hp => h.not_mem_busy_of_pend hp hbe]
  have hpend : (s.complete be).pendReqs = s.pendReqs :=
    pendReqs_congr hq fun i hi => h.req_complete fun heq => h.not_mem_busy_of_pend hi (heq ▸ hbe)
  rw [due_setThr (by rw [h.thr_complete be, ht]; rfl), due, due, hpend, h.hands_complete]

/-- `blockif_proc` has done its operation. -/
lemma due_procDone (h : s.Inv) (ht : s.thr t = .proc be br') :
    ((s.setElem be { s.reqs be with status := .done }).setThr t (.done be br')).due br =
      s.due br := by
  have hbe := (h.held t be (by rw [ht]; rfl)).1
  have hpend : (s.setElem be { s.reqs be with status := .done }).pendReqs = s.pendReqs := by
    refine pendReqs_congr rfl fun i hi => ?_
    have hne : i ≠ be := fun heq => h.not_mem_busy_of_pend hi (heq ▸ hbe)
    exact congrArg BlockifElem.req (update_of_ne hne ..)
  have hthr : (s.setElem be { s.reqs be with status := .done }).thr t = .proc be br' := ht
  rw [due_setThr (by rw [hthr]; rfl), due, hpend]
  rfl

/-- The callback -/
lemma due_callback (ht : s.thr t = .done be br') :
    (s.setThr t (.called be)).due br + (if br' = br then 1 else 0) = s.due br := by
  have hhands := hands_setThr s t (.called be) br
  rw [ht] at hhands
  simp only [BlkThr.inHand, Option.some.injEq, reduceCtorEq, if_false] at hhands
  change s.pendReqs.count br + _ + _ = _
  rw [due]
  omega

lemma due_signal (s : Blockif n m) (w : Fin n) : (s.signal w).due br = s.due br := by
  rw [Blockif.signal]
  split_ifs with hw
  · exact due_setThr (by rw [hw]; rfl)
  · split
    · next t ht =>
      have ht : s.thr t = .wait := by simpa using List.find?_some ht
      exact due_setThr (by rw [ht]; rfl)
    · rfl

lemma due_loop (h : s.Inv) (ht : (s.thr t).elem = none) : (s.loop t).due br = s.due br := by
  have hnone : (s.thr t).inHand = none := by
    cases hpc : s.thr t <;> rw [hpc] at ht <;> first | rfl | cases ht
  rw [Blockif.loop]
  split
  · next be hbe =>
    split
    · next br' hreq => exact h.due_dequeue (mem_of_next hbe).1 ht hreq
    · rfl
  · split_ifs
    · exact due_setThr hnone.symm
    · exact due_setThr hnone.symm

/-! ### What comes back -/

lemma due_thrStep (h : s.Inv) (br : BlockifReq) (t : Fin n) (err : ℕ) :
    s.due br + accepts br (s.marks (.thread t err)) =
      (s.thrStep t).due br + answers br (s.marks (.thread t err)) := by
  rw [marks, Blockif.thrStep]
  cases ht : s.thr t with
  | look =>
    dsimp only
    split_ifs
    · rw [h.due_loop (by rw [ht]; rfl)]
      rfl
    · rfl
  | proc be br' =>
    dsimp only
    rw [h.due_procDone ht]
    rfl
  | done be br' =>
    dsimp only
    rw [← due_callback ht]
    simp [accepts, answers, List.countP_cons]
  | called be =>
    dsimp only
    split_ifs with hc
    · rw [(h.completeBusy ht hc).due_loop (by rw [thr_setThr_self]; rfl), h.due_completeBusy ht]
      rfl
    · rfl
  | wait | exited => rfl

/-- What a step accepts is due, or has come back. -/
lemma due_step (h : s.Inv) (br : BlockifReq) (e : BlockifEvent n) :
    s.due br + accepts br (s.marks e) = (s.step e).due br + answers br (s.marks e) := by
  cases e with
  | request breq op w =>
    rw [Blockif.step, marks]
    split_ifs with hc
    · cases hf : s.freeq with
      | nil => simp [accepts, answers]
      | cons be _ =>
        have hbe : be ∈ s.freeq := by rw [hf]; exact List.mem_cons_self
        have hdue : (s.enqueue be breq op).due br = s.due br + if breq = br then 1 else 0 :=
          h.due_enqueue hbe breq op
        have haccept : accepts br [.accept breq] = if breq = br then 1 else 0 := by
          simp [accepts, List.count_singleton]
        have hanswer : answers br [.accept breq] = 0 := by simp [answers]
        dsimp only
        rw [haccept, hanswer, ← hdue]
        split_ifs
        · rw [due_signal]
          rfl
        · rfl
    · simp [accepts, answers]
  | thread t err => exact h.due_thrStep br t err
  | wake t =>
    rw [Blockif.step, marks]
    split_ifs with ht
    · rw [due_setThr (by rw [ht]; rfl)]
      rfl
    · rfl
  | cancel addr =>
    rw [Blockif.step, marks]
    split_ifs with hc
    · rw [Blockif.cancel]
      cases hf : s.find s.pendq addr with
      | some be =>
        have hbe : be ∈ s.pendq := List.mem_of_find?_eq_some hf
        obtain ⟨br', hbr'⟩ := Option.isSome_iff_exists.1 (h.pend be hbe).2
        dsimp only
        rw [hbr', h.due_completePend hbe hbr']
        simp [accepts, answers, List.countP_cons]
      | none =>
        dsimp only
        split <;> rfl
    · rfl
  | cancelEnd =>
    rw [Blockif.step, marks]
    split
    · split_ifs <;> rfl
    · rfl
  | close =>
    rw [Blockif.step, marks]
    split_ifs <;> rfl
  | broadcast =>
    refine congrArg (s.pendReqs.count br + ·) (hands_congr fun t => ?_).symm
    change (if s.thr t = .wait then .look else s.thr t : BlkThr m).inHand = _
    split_ifs with ht
    · rw [ht]
      rfl
    · rfl

end Inv

/-! ### Nobody sleeps over a request -/

/-- While a request is pending, a thread is awake. -/
def Watched (s : Blockif n m) : Prop := s.pendq ≠ [] → ∃ t, (s.thr t).Awake

lemma awake_of_elem (h : (s.thr t).elem = some i) : (s.thr t).Awake := by
  constructor
  · intro ht
    rw [ht] at h
    cases h
  · intro ht
    rw [ht] at h
    cases h

/-- A thread that looks at the queue or has an element is awake. -/
lemma awake_setThr (hwait : pc ≠ .wait) (hexit : pc ≠ .exited) : ((s.setThr t pc).thr t).Awake := by
  rw [thr_setThr_self]
  exact ⟨hwait, hexit⟩

namespace Inv

/-- A signal finds a thread that waits, or all are awake. -/
lemma awake_signal (h : s.Inv) (hopen : s.closing = false) (w : Fin n) :
    ∃ t, ((s.signal w).thr t).Awake := by
  rw [Blockif.signal]
  split_ifs with hw
  · exact ⟨w, awake_setThr (by simp) (by simp)⟩
  · split
    · next t ht => exact ⟨t, awake_setThr (by simp) (by simp)⟩
    · exact ⟨w, hw, h.open_ hopen w⟩

/-- A request that nobody can take waits for one that is busy. -/
lemma busy_of_next (h : s.Inv) (hnext : s.next = none) (hpend : s.pendq ≠ []) :
    ∃ t i, (s.thr t).elem = some i := by
  cases hq : s.pendq with
  | nil => exact absurd hq hpend
  | cons j l =>
    have hj : j ∈ s.pendq := by rw [hq]; exact List.mem_cons_self
    have hstatus : (s.reqs j).status = .block := by
      have hne : (s.reqs j).status ≠ .pend := by simpa using List.find?_eq_none.1 hnext j hj
      exact (h.pend j hj).1.resolve_left hne
    obtain ⟨br, hbr⟩ := Option.isSome_iff_exists.1 (h.pend j hj).2
    have hserved := h.served
    rw [hq] at hserved
    obtain ⟨i, hi, -⟩ := WaitQueue.head hserved (b := br.offset) ⟨hstatus, by rw [hbr]; rfl⟩
    obtain ⟨t, ht⟩ := h.busy i hi
    exact ⟨t, i, ht⟩

/-- A thread goes to sleep only when others are at work. -/
lemma watched_loop (h : s.Inv) (ht : (s.thr t).elem = none) : (s.loop t).Watched := by
  rw [Blockif.loop]
  split
  · next be hbe =>
    obtain ⟨br, hbr⟩ := Option.isSome_iff_exists.1 (h.pend be (mem_of_next hbe).1).2
    rw [hbr]
    exact fun _ => ⟨t, awake_setThr (by simp) (by simp)⟩
  · next hnext =>
    have hother (pc : BlkThr m) : (s.setThr t pc).Watched := by
      intro hpend
      obtain ⟨t', i, ht'⟩ := h.busy_of_next hnext hpend
      have hne : t' ≠ t := by
        rintro rfl
        rw [ht] at ht'
        cases ht'
      exact ⟨t', by rw [thr_setThr_of_ne hne]; exact awake_of_elem ht'⟩
    split_ifs
    · exact hother .exited
    · exact hother .wait

lemma watched_thrStep (h : s.Inv) (hw : s.Watched) (t : Fin n) : (s.thrStep t).Watched := by
  rw [Blockif.thrStep]
  cases ht : s.thr t with
  | look =>
    dsimp only
    split_ifs
    · exact h.watched_loop (by rw [ht]; rfl)
    · exact hw
  | proc be br => exact fun _ => ⟨t, awake_setThr (by simp) (by simp)⟩
  | done be br => exact fun _ => ⟨t, awake_setThr (by simp) (by simp)⟩
  | called be =>
    dsimp only
    split_ifs with hc
    · exact (h.completeBusy ht hc).watched_loop (by rw [thr_setThr_self]; rfl)
    · exact hw
  | wait | exited => exact hw

lemma watched_step (h : s.Inv) (hw : s.Watched) (e : BlockifEvent n)
    (hopen : ∀ breq op w, e = .request breq op w → s.closing = false) : (s.step e).Watched := by
  cases e with
  | request breq op w =>
    rw [Blockif.step]
    split_ifs
    · cases hf : s.freeq with
      | nil => exact hw
      | cons be _ =>
        have hbe : be ∈ s.freeq := by rw [hf]; exact List.mem_cons_self
        dsimp only
        split_ifs with hp
        · exact fun _ => (h.enqueue hbe breq op).awake_signal (hopen breq op w rfl) w
        · intro _
          -- the new request waits for one that is pending or busy
          have hends : s.EndsAt breq.offset := by
            by_contra hends
            have hself : (s.enqueue be breq op).reqs be = _ := update_self ..
            rw [hself] at hp
            exact hp (if_neg hends)
          obtain ⟨i, hi, -⟩ := hends
          rcases List.mem_append.1 hi with hi | hi
          · exact hw (List.ne_nil_of_mem hi)
          · obtain ⟨t, ht⟩ := h.busy i hi
            exact ⟨t, awake_of_elem ht⟩
    · exact hw
  | thread t err => exact h.watched_thrStep hw t
  | wake t =>
    rw [Blockif.step]
    split_ifs
    · exact fun _ => ⟨t, awake_setThr (by simp) (by simp)⟩
    · exact hw
  | cancel addr =>
    rw [Blockif.step, Blockif.cancel]
    split_ifs
    · split
      · next be hbe =>
        intro _
        rw [h.thr_complete be]
        exact hw (List.ne_nil_of_mem (List.mem_of_find?_eq_some hbe))
      · split
        · exact hw
        · exact hw
    · exact hw
  | cancelEnd =>
    rw [Blockif.step]
    split
    · split_ifs
      · exact hw
      · exact hw
    · exact hw
  | close =>
    rw [Blockif.step]
    split_ifs
    · exact hw
    · exact hw
  | broadcast =>
    intro hpend
    obtain ⟨t, ht⟩ := hw hpend
    refine ⟨t, ?_⟩
    change (if s.thr t = .wait then .look else s.thr t : BlkThr m).Awake
    rw [if_neg ht.1]
    exact ht

end Inv

/-! ### A request waits for an earlier one -/

/-- Where the request ends that a step completes or cancels -/
def ended (s : Blockif n m) : BlockifEvent n → List (BitVec 64)
  | .thread t _ =>
    match s.thr t with
    | .called be => if s.cancelling = none then [(s.reqs be).block] else []
    | _ => []
  | .cancel addr =>
    if s.cancelling = none then
      match s.find s.pendq addr with
      | some be => [(s.reqs be).block]
      | none => []
    else []
  | _ => []

/-- A request is pending and waits for one that ends where it begins. -/
structure Blocked (s : Blockif n m) (i : Fin m) (br : BlockifReq) : Prop where
  mem : i ∈ s.pendq
  req : (s.reqs i).req = some br
  status : (s.reqs i).status = .block

namespace Blocked

lemma congr (h : s.Blocked i br) (hmem : i ∈ s'.pendq) (hreqs : s'.reqs i = s.reqs i) :
    s'.Blocked i br := ⟨hmem, hreqs ▸ h.req, hreqs ▸ h.status⟩

lemma complete (h : s.Blocked i br) (hs : s.Inv) (hne : i ≠ be)
    (hoff : br.offset ≠ (s.reqs be).block) : (s.complete be).Blocked i br := by
  have hmem : i ∈ s.pendq.erase be := (List.mem_erase_of_ne hne).2 h.mem
  refine h.congr (hs.pendq_complete be ▸ hmem) ?_
  rw [hs.reqs_complete hne, if_neg]
  rintro ⟨-, hend⟩
  rw [h.req] at hend
  exact hoff (Option.some.inj hend)

/-- `blockif_dequeue` leaves a blocked request where it is. -/
lemma loop (h : s.Blocked i br) (t : Fin n) : (s.loop t).Blocked i br := by
  rw [Blockif.loop]
  split
  · next be hbe =>
    split
    · have hne : i ≠ be := by
        rintro rfl
        exact BlockStat.noConfusion (h.status.symm.trans (mem_of_next hbe).2)
      exact h.congr ((List.mem_erase_of_ne hne).2 h.mem) (update_of_ne hne ..)
    · exact h
  · split_ifs
    · exact h.congr h.mem rfl
    · exact h.congr h.mem rfl

lemma signal (h : s.Blocked i br) (w : Fin n) : (s.signal w).Blocked i br := by
  rw [Blockif.signal]
  split_ifs
  · exact h.congr h.mem rfl
  · split
    · exact h.congr h.mem rfl
    · exact h

/-- A blocked request stays blocked, unless one ends where it begins or it is cancelled. -/
lemma step (h : s.Blocked i br) (hs : s.Inv) (e : BlockifEvent n) :
    (s.step e).Blocked i br ∨ br.offset ∈ s.ended e ∨ .cancel br ∈ s.marks e := by
  cases e with
  | request breq op w =>
    rw [Blockif.step]
    split_ifs
    · cases hf : s.freeq with
      | nil => exact .inl h
      | cons be _ =>
        have hbe : be ∈ s.freeq := by rw [hf]; exact List.mem_cons_self
        have hne : i ≠ be := fun heq => (hs.not_mem_of_free hbe).1 (heq ▸ h.mem)
        have hnew : (s.enqueue be breq op).Blocked i br :=
          h.congr (List.mem_append_left _ h.mem) (update_of_ne hne ..)
        dsimp only
        split_ifs
        · exact .inl (hnew.signal w)
        · exact .inl hnew
    · exact .inl h
  | thread t err =>
    rw [Blockif.step, thrStep, ended]
    cases ht : s.thr t with
    | look =>
      dsimp only
      split_ifs
      · exact .inl (h.loop t)
      · exact .inl h
    | proc be br' =>
      have hne : i ≠ be := by
        rintro rfl
        exact hs.not_mem_busy_of_pend h.mem (hs.held t i (by rw [ht]; rfl)).1
      exact .inl (h.congr h.mem (update_of_ne hne ..))
    | called be =>
      dsimp only
      split_ifs
      · have hne : i ≠ be := by
          rintro rfl
          exact hs.not_mem_busy_of_pend h.mem (hs.held t i (by rw [ht]; rfl)).1
        by_cases hoff : br.offset = (s.reqs be).block
        · exact .inr (.inl (hoff ▸ List.mem_cons_self))
        · have hnew := h.complete hs hne hoff
          have hlook : ((s.complete be).setThr t .look).Blocked i br := hnew.congr hnew.mem rfl
          exact .inl (hlook.loop t)
      · exact .inl h
    | done => exact .inl (h.congr h.mem rfl)
    | wait | exited => exact .inl h
  | cancel addr =>
    rw [Blockif.step, ended, marks, Blockif.cancel]
    split_ifs
    · cases hf : s.find s.pendq addr with
      | some be =>
        dsimp only
        by_cases hne : i = be
        · rw [← hne, h.req]
          exact .inr (.inr List.mem_cons_self)
        · by_cases hoff : br.offset = (s.reqs be).block
          · exact .inr (.inl (hoff ▸ List.mem_cons_self))
          · exact .inl (h.complete hs hne hoff)
      | none =>
        dsimp only
        split
        · exact .inl (h.congr h.mem rfl)
        · exact .inl h
    · exact .inl h
  | cancelEnd =>
    rw [Blockif.step]
    split
    · split_ifs
      · exact .inl h
      · exact .inl (h.congr h.mem rfl)
    · exact .inl h
  | close =>
    rw [Blockif.step]
    split_ifs
    · exact .inl (h.congr h.mem rfl)
    · exact .inl h
  | wake t =>
    rw [Blockif.step]
    split_ifs
    · exact .inl (h.congr h.mem rfl)
    · exact .inl h
  | broadcast => exact .inl (h.congr h.mem rfl)

lemma exec (h : s.Blocked i br) (hs : s.Inv) (es : List (BlockifEvent n)) :
    (exec Blockif.step s es).Blocked i br ∨ br.offset ∈ trace Blockif.step ended s es ∨
      .cancel br ∈ trace Blockif.step marks s es := by
  induction es generalizing s with
  | nil => exact .inl h
  | cons e es ih =>
    rw [trace_cons, trace_cons, List.mem_append, List.mem_append]
    rcases h.step hs e with hnew | hend | hcancel
    · rcases ih hnew (hs.step e) with h | h | h
      · exact .inl h
      · exact .inr (.inl (.inr h))
      · exact .inr (.inr (.inr h))
    · exact .inr (.inl (.inl hend))
    · exact .inr (.inr (.inl hcancel))

end Blocked

/-! ### Runs -/

/-- No request is made after `blockif_close` has begun. -/
def Open (s : Blockif n m) : BlockifEvent n → Prop
  | .request _ _ _ => s.closing = false
  | _ => True

instance (s : Blockif n m) : (e : BlockifEvent n) → Decidable (s.Open e)
  | .request .. => inferInstanceAs (Decidable (_ = _))
  | .thread .. | .wake _ | .cancel _ | .cancelEnd | .close | .broadcast =>
    inferInstanceAs (Decidable True)

variable (n m) in
/-- A run from what `blockif_open` makes -/
def run (es : List (BlockifEvent n)) : Blockif n m := exec step init es

variable (n m) in
/-- What is seen of a run -/
def runMarks (es : List (BlockifEvent n)) : List BlkMark := trace step marks (init : Blockif n m) es

lemma run_inv (es : List (BlockifEvent n)) : (run n m es).Inv :=
  exec_induction (Q := fun _ _ => True) (fun _ e h _ => h.step e) init_inv
    (along_const.2 fun _ _ => trivial)

lemma due_exec (h : s.Inv) (br : BlockifReq) (es : List (BlockifEvent n)) :
    s.due br + accepts br (trace step marks s es) =
      (exec step s es).due br + answers br (trace step marks s es) := by
  induction es generalizing s with
  | nil => rfl
  | cons e es ih =>
    have hstep := h.due_step br e
    have hrest := ih (h.step e)
    have haccepts : accepts br (trace step marks s (e :: es)) =
        accepts br (s.marks e) + accepts br (trace step marks (s.step e) es) :=
      List.count_append
    have hanswers : answers br (trace step marks s (e :: es)) =
        answers br (s.marks e) + answers br (trace step marks (s.step e) es) :=
      List.countP_append
    rw [haccepts, hanswers, exec_cons]
    omega

lemma run_due (es : List (BlockifEvent n)) (br : BlockifReq) :
    accepts br (runMarks n m es) = answers br (runMarks n m es) + (run n m es).due br := by
  have hdue := due_exec (init_inv : (init : Blockif n m).Inv) br es
  have hinit : (init : Blockif n m).due br = 0 := by
    simp [due, pendReqs, hands, init, BlkThr.inHand]
  rw [hinit, zero_add] at hdue
  rw [runMarks, hdue, run, add_comm]

lemma run_watched (es : List (BlockifEvent n)) (hopen : Along step Open (init : Blockif n m) es) :
    (run n m es).Watched := by
  have hboth : (run n m es).Inv ∧ (run n m es).Watched := by
    refine exec_induction (I := fun s => s.Inv ∧ s.Watched) (fun s e hs ho => ?_)
      ⟨init_inv, fun hne => absurd rfl hne⟩ hopen
    refine ⟨hs.1.step e, hs.1.watched_step hs.2 e ?_⟩
    rintro breq op w rfl
    exact ho
  exact hboth.2

/-- However requests, threads and cancellations take turns, each element is in one queue, and an
accepted request is called back or cancelled once, is pending, or is in the hands of a thread. -/
theorem blockif_answers_once (es : List (BlockifEvent n)) :
    (run n m es).Inv ∧ ∀ br, accepts br (runMarks n m es) =
      answers br (runMarks n m es) + (run n m es).due br :=
  ⟨run_inv es, run_due es⟩

/-- While a request is pending a thread is awake, and the first one is ready when none is busy. When
all threads have left after `blockif_close`, every accepted request was answered. A thread whose
element `blockif_cancel` waits for does not need the mutex before it is done. -/
theorem blockif_close_drains (es : List (BlockifEvent n))
    (hopen : Along step Open (init : Blockif n m) es) :
    let s := run n m es
    (s.pendq ≠ [] → ∃ t, (s.thr t).Awake) ∧
    (s.busyq = [] → ∀ i ∈ s.pendq.head?, (s.reqs i).status = .pend) ∧
    ((∀ t, s.thr t = .exited) → s.pendq = [] ∧ s.busyq = [] ∧
      ∀ br, accepts br (runMarks n m es) = answers br (runMarks n m es)) ∧
    ∀ i, s.cancelling = some i → (s.reqs i).status = .done ∨ ∃ t br, s.thr t = .proc i br := by
  intro s
  have h : s.Inv := run_inv es
  refine ⟨run_watched es hopen, fun hbusy i hi => ?_, fun hexit => ?_, fun i hi => ?_⟩
  · -- nothing is busy, so the first one does not wait
    have hmem : i ∈ s.pendq := List.mem_of_head? hi
    refine (h.pend i hmem).1.resolve_right fun hblock => ?_
    obtain ⟨br, hbr⟩ := Option.isSome_iff_exists.1 (h.pend i hmem).2
    have hserved := h.served
    rw [(List.cons_head?_tail hi).symm] at hserved
    obtain ⟨j, hj, -⟩ := WaitQueue.head hserved (b := br.offset) ⟨hblock, by rw [hbr]; rfl⟩
    rw [hbusy] at hj
    cases hj
  · have hpend : s.pendq = [] := by
      by_contra hne
      obtain ⟨t, ht⟩ := run_watched es hopen hne
      exact ht.2 (hexit t)
    have hbusy : s.busyq = [] := by
      refine List.eq_nil_iff_forall_not_mem.2 fun i hi => ?_
      obtain ⟨t, ht⟩ := h.busy i hi
      rw [hexit t] at ht
      cases ht
    refine ⟨hpend, hbusy, fun br => ?_⟩
    have hdue : s.due br = 0 := by
      simp [due, pendReqs, hands, hpend, hexit, BlkThr.inHand]
    rw [run_due es br, show run n m es = s from rfl, hdue, add_zero]
  · obtain ⟨t, ht⟩ := h.busy i (h.cancelling i hi)
    have hstatus := (h.held t i ht).2.2
    cases hpc : s.thr t with
    | proc be br =>
      rw [hpc] at ht
      cases ht
      exact .inr ⟨t, br, hpc⟩
    | done | called =>
      rw [hpc] at hstatus
      exact .inl hstatus
    | look | wait | exited =>
      rw [hpc] at ht
      cases ht

/-- A request that begins where a pending or busy one ends stays in the pending queue until some
request that ends there is completed or cancelled, or it is cancelled itself. -/
theorem blockif_waits_for_earlier (es es' : List (BlockifEvent n)) (breq : BlockifReq)
    (op : BlockOp) (w : Fin n) {be : Fin m} {l : List (Fin m)}
    (hmutex : (run n m es).cancelling = none) (hfree : (run n m es).freeq = be :: l)
    (hends : (run n m es).EndsAt breq.offset) :
    let e := .request breq op w
    (run n m (es ++ e :: es')).Blocked be breq ∨
      breq.offset ∈ trace step ended (run n m (es ++ [e])) es' ∨
      .cancel breq ∈ trace step marks (run n m (es ++ [e])) es' := by
  intro e
  have hself : ((run n m es).enqueue be breq op).reqs be = _ := update_self ..
  have hstatus : (((run n m es).enqueue be breq op).reqs be).status = .block := by
    rw [hself]
    exact if_pos hends
  have hnew : (run n m (es ++ [e])).Blocked be breq := by
    rw [run, exec_append]
    change ((run n m es).step e).Blocked be breq
    rw [Blockif.step, if_pos hmutex, hfree]
    dsimp only
    rw [if_neg (by simp [hstatus])]
    exact ⟨List.mem_append_right _ List.mem_cons_self, by rw [hself], hstatus⟩
  rw [show es ++ e :: es' = es ++ [e] ++ es' by simp, run, exec_append]
  exact hnew.exec (run_inv _) es'

/-! ### Two adjacent writes -/

def firstWrite : BlockifReq := ⟨0, 0, [512]⟩
def secondWrite : BlockifReq := ⟨1, 512, [512]⟩

def first : Fin 2 := ⟨0, Nat.two_pos⟩
def second : Fin 2 := ⟨1, Nat.one_lt_two⟩

/-- A thread takes the first write. -/
def firstTaken : List (BlockifEvent 2) :=
  [.request firstWrite .write first, .thread first 0]

/-- It does the two writes after each other, and both threads leave. -/
def bothDone : List (BlockifEvent 2) :=
  [.thread second 0, .thread first 0, .thread first 0, .thread first 0, .thread first 0,
    .thread first 0, .close, .broadcast, .thread second 0, .thread first 0]

theorem blockif_waits_for_earlier_second :
    (run 2 3 (firstTaken ++ .request secondWrite .write 0 :: [.thread 1 0])).Blocked 1
      secondWrite := by
  have hfree : (run 2 3 firstTaken).freeq = [1, 0] := by decide
  have h := blockif_waits_for_earlier firstTaken [.thread 1 0] secondWrite .write 0 (by decide)
    hfree (by decide)
  refine h.resolve_right ?_
  decide

theorem blockif_close_drains_two :
    accepts secondWrite (runMarks 2 3 (firstTaken ++ .request secondWrite .write 0 :: bothDone)) =
      answers secondWrite
        (runMarks 2 3 (firstTaken ++ .request secondWrite .write 0 :: bothDone)) :=
  ((blockif_close_drains (m := 3) _ (by decide)).2.2.1 (by decide)).2.2 secondWrite

end Blockif

end Minos.Virtio
