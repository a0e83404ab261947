import Minos.Lib.Run
import Minos.Lib.WaitQueue

/-!
# The block interface

`block_if.c` gives the requests of a block device to a pool of threads. An element of the context
holds a request: it is in the free queue, in the queue of pending requests, or in the queue of busy
ones. A request that begins where an earlier one ends waits for it.

What a function does under the mutex of the context is one step, except for `blockif_cancel`, which
waits with the mutex for a thread that does not need it. A request is not changed before its
callback.
-/

namespace Minos.Virtio

open Function Run

inductive BlockOp where
  | read
  | write
  | flush
  | delete
deriving DecidableEq

inductive BlockStat where
  | free
  | block
  | pend
  | busy
  | done
deriving DecidableEq

/-- `struct blockif_req`: its address, its offset and the lengths of its buffers -/
structure BlockifReq where
  addr : ℕ
  offset : BitVec 64
  iov : List (BitVec 64)
deriving DecidableEq

variable {n m : ℕ}

/-- `struct blockif_elem`, where `n` is the number of threads -/
structure BlockifElem (n : ℕ) where
  req : Option BlockifReq
  op : BlockOp
  status : BlockStat
  tid : Option (Fin n)
  block : BitVec 64
deriving DecidableEq

/-- Where a thread is in `blockif_thr`. In `blockif_proc` it has an element and its request. -/
inductive BlkThr (m : ℕ) where
  /-- it waits for the mutex before `blockif_dequeue` -/
  | look
  /-- in `blockif_proc` -/
  | proc (be : Fin m) (br : BlockifReq)
  /-- in `blockif_proc`, before the callback -/
  | done (be : Fin m) (br : BlockifReq)
  /-- it waits for the mutex before `blockif_complete` -/
  | called (be : Fin m)
  /-- in `pthread_cond_wait` -/
  | wait
  | exited
deriving DecidableEq

/-- The element that a thread works on -/
def BlkThr.elem : BlkThr m → Option (Fin m)
  | .proc be _ | .done be _ | .called be => some be
  | .look | .wait | .exited => none

/-- The request whose callback a thread is to make -/
def BlkThr.inHand : BlkThr m → Option BlockifReq
  | .proc _ br | .done _ br => some br
  | .called _ | .look | .wait | .exited => none

/-- The thread runs, or is about to get the mutex. -/
def BlkThr.Awake (t : BlkThr m) : Prop := t ≠ .wait ∧ t ≠ .exited

/-- `struct blockif_ctxt` with its threads. While `blockif_cancel` waits for an element, it has the
mutex. -/
structure Blockif (n m : ℕ) where
  reqs : Fin m → BlockifElem n
  freeq : List (Fin m)
  pendq : List (Fin m)
  busyq : List (Fin m)
  closing : Bool
  thr : Fin n → BlkThr m
  cancelling : Option (Fin m)

namespace Blockif

/-- What `blockif_open` makes, with `BLOCKIF_NUMTHR` threads and `BLOCKIF_MAXREQ` elements -/
def init : Blockif n m where
  reqs := fun _ => ⟨none, .read, .free, none, 0⟩
  freeq := (List.finRange m).reverse
  pendq := []
  busyq := []
  closing := false
  thr := fun _ => .look
  cancelling := none

variable (s : Blockif n m)

def setElem (i : Fin m) (e : BlockifElem n) : Blockif n m := { s with reqs := update s.reqs i e }

def setThr (t : Fin n) (pc : BlkThr m) : Blockif n m := { s with thr := update s.thr t pc }

/-- `be->block` of a new request: where it ends. For a flush it is the size of `off_t` that is
shifted, and not its width. -/
def endOf (breq : BlockifReq) : BlockOp → BitVec 64
  | .read | .write | .delete => breq.offset + breq.iov.sum
  | .flush => 1 <<< 7

/-- A pending or busy request ends at `off`. -/
def EndsAt (off : BitVec 64) : Prop := ∃ i ∈ s.pendq ++ s.busyq, (s.reqs i).block = off

instance (off : BitVec 64) : Decidable (s.EndsAt off) :=
  inferInstanceAs (Decidable (∃ i ∈ _, _))

/-- `blockif_enqueue`, with the first element of the free queue -/
def enqueue (be : Fin m) (breq : BlockifReq) (op : BlockOp) : Blockif n m :=
  { s.setElem be { s.reqs be with
      req := some breq
      op
      status := if s.EndsAt breq.offset then .block else .pend
      block := endOf breq op } with
    freeq := s.freeq.erase be
    pendq := s.pendq ++ [be] }

/-- The element that `blockif_dequeue` takes -/
def next : Option (Fin m) := s.pendq.find? fun i => (s.reqs i).status = .pend

/-- `blockif_dequeue`, with the element that it takes -/
def dequeue (t : Fin n) (be : Fin m) : Blockif n m :=
  { s.setElem be { s.reqs be with status := .busy, tid := some t } with
    pendq := s.pendq.erase be
    busyq := s.busyq ++ [be] }

/-- `blockif_complete` takes an element out of its queue. -/
def unlink (be : Fin m) : Blockif n m :=
  if (s.reqs be).status = .done ∨ (s.reqs be).status = .busy then
    { s with busyq := s.busyq.erase be }
  else { s with pendq := s.pendq.erase be }

/-- The pending requests that begin at `off` need not wait any more. -/
def release (off : BitVec 64) : Blockif n m :=
  { s with reqs := fun i =>
      if i ∈ s.pendq ∧ (s.reqs i).req.map BlockifReq.offset = some off then
        { s.reqs i with status := .pend }
      else s.reqs i }

/-- `blockif_complete` -/
def complete (be : Fin m) : Blockif n m :=
  let s := (s.unlink be).release (s.reqs be).block
  { s.setElem be { s.reqs be with tid := none, status := .free, req := none } with
    freeq := s.freeq ++ [be] }

/-- `pthread_cond_signal` wakes `w`, or another thread when `w` does not wait. -/
def signal (w : Fin n) : Blockif n m :=
  if s.thr w = .wait then s.setThr w .look
  else
    match (List.finRange n).find? fun t => s.thr t = .wait with
    | some t => s.setThr t .look
    | none => s

/-- The loop of `blockif_thr`, with the mutex -/
def loop (t : Fin n) : Blockif n m :=
  match s.next with
  | some be =>
    match (s.reqs be).req with
    | some br => (s.dequeue t be).setThr t (.proc be br)
    | none => s
  | none => if s.closing then s.setThr t .exited else s.setThr t .wait

/-- The element of a request in a queue -/
def find (q : List (Fin m)) (addr : ℕ) : Option (Fin m) :=
  q.find? fun i => (s.reqs i).req.map BlockifReq.addr = some addr

/-- `blockif_cancel` -/
def cancel (addr : ℕ) : Blockif n m :=
  match s.find s.pendq addr with
  | some be => s.complete be
  | none =>
    match s.find s.busyq addr with
    | some be => { s with cancelling := some be }
    | none => s

end Blockif

/-- A request is made, where `w` is the thread that a signal wakes, a thread makes its next step,
where `err` is what its operation returns, a thread wakes up from `pthread_cond_wait`,
`blockif_cancel` begins or ends, or the two steps of `blockif_close` happen. -/
inductive BlockifEvent (n : ℕ) where
  | request (breq : BlockifReq) (op : BlockOp) (w : Fin n)
  | thread (t : Fin n) (err : ℕ)
  | wake (t : Fin n)
  | cancel (addr : ℕ)
  | cancelEnd
  | close
  | broadcast

/-- What is seen of a step. -/
inductive BlkMark where
  | accept (br : BlockifReq)
  /-- `E2BIG` -/
  | refuse (br : BlockifReq)
  | callback (br : BlockifReq) (err : ℕ)
  | cancel (br : BlockifReq)
deriving DecidableEq

namespace Blockif

variable (s : Blockif n m)

/-- A step of a thread. Those that need the mutex wait while `blockif_cancel` has it. -/
def thrStep (t : Fin n) : Blockif n m :=
  match s.thr t with
  | .look => if s.cancelling = none then s.loop t else s
  | .proc be br => (s.setElem be { s.reqs be with status := .done }).setThr t (.done be br)
  | .done be _ => s.setThr t (.called be)
  | .called be => if s.cancelling = none then ((s.complete be).setThr t .look).loop t else s
  | .wait | .exited => s

def step (s : Blockif n m) : BlockifEvent n → Blockif n m
  | .request breq op w =>
    if s.cancelling = none then
      match s.freeq with
      | be :: _ =>
        let s' := s.enqueue be breq op
        if (s'.reqs be).status = .pend then s'.signal w else s'
      | [] => s
    else s
  | .thread t _ => s.thrStep t
  | .wake t => if s.thr t = .wait then s.setThr t .look else s
  | .cancel addr => if s.cancelling = none then s.cancel addr else s
  | .cancelEnd =>
    match s.cancelling with
    | some be => if (s.reqs be).status = .busy then s else { s with cancelling := none }
    | none => s
  | .close => if s.cancelling = none then { s with closing := true } else s
  | .broadcast =>
    { s with thr := fun t => if s.thr t = .wait then .look else s.thr t }

def marks (s : Blockif n m) : BlockifEvent n → List BlkMark
  | .request breq _ _ =>
    if s.cancelling = none then
      match s.freeq with
      | _ :: _ => [.accept breq]
      | [] => [.refuse breq]
    else []
  | .thread t err =>
    match s.thr t with
    | .done _ br => [.callback br err]
    | _ => []
  | .cancel addr =>
    if s.cancelling = none then
      match s.find s.pendq addr with
      | some be => ((s.reqs be).req.map BlkMark.cancel).toList
      | none => []
    else []
  | .wake _ | .cancelEnd | .close | .broadcast => []

end Blockif

/-- The status of the element of a thread -/
def BlkThr.status : BlkThr m → BlockStat
  | .proc _ _ => .busy
  | _ => .done

namespace Blockif

/-! ### The invariant -/

/-- An element waits for a request that ends at `off`. -/
def Waits (s : Blockif n m) (i : Fin m) (off : BitVec 64) : Prop :=
  (s.reqs i).status = .block ∧ (s.reqs i).req.map BlockifReq.offset = some off

/-- Where the busy requests end -/
def busyEnds (s : Blockif n m) : Set (BitVec 64) := {b | ∃ i ∈ s.busyq, (s.reqs i).block = b}

/-- Each element is in one queue, with the status of that queue, and each busy one has its thread.
What a blocked request waits for is busy, or pending before it. -/
structure Inv (s : Blockif n m) : Prop where
  once : ∀ i, s.freeq.count i + s.pendq.count i + s.busyq.count i = 1
  free : ∀ i ∈ s.freeq, (s.reqs i).status = .free
  pend : ∀ i ∈ s.pendq, ((s.reqs i).status = .pend ∨ (s.reqs i).status = .block) ∧
    (s.reqs i).req.isSome
  busy : ∀ i ∈ s.busyq, ∃ t, (s.thr t).elem = some i
  held : ∀ t i, (s.thr t).elem = some i →
    i ∈ s.busyq ∧ (s.reqs i).tid = some t ∧ (s.reqs i).status = (s.thr t).status
  served : WaitQueue.Served s.Waits (fun i => (s.reqs i).block) s.busyEnds s.pendq
  open_ : s.closing = false → ∀ t, s.thr t ≠ .exited
  cancelling : ∀ i, s.cancelling = some i → i ∈ s.busyq

variable {s : Blockif n m} {i be : Fin m} {t t' : Fin n} {pc : BlkThr m}

lemma init_inv : (init : Blockif n m).Inv where
  once i := by
    have hcount : (List.finRange m).count i = 1 :=
      List.count_eq_one_of_mem (List.nodup_finRange m) (List.mem_finRange i)
    simp only [init, List.count_reverse, List.count_nil, hcount]
  free _ _ := rfl
  pend := nofun
  busy := nofun
  held := nofun
  served := trivial
  open_ _ _ := nofun
  cancelling := nofun

@[simp] lemma thr_setThr_self : (s.setThr t pc).thr t = pc := update_self ..

lemma thr_setThr_of_ne (h : t' ≠ t) : (s.setThr t pc).thr t' = s.thr t' := update_of_ne h ..

namespace Inv

lemma not_mem_busy_of_pend (h : s.Inv) (hi : i ∈ s.pendq) : i ∉ s.busyq := by
  intro hb
  have := h.once i
  have := List.count_pos_iff.2 hi
  have := List.count_pos_iff.2 hb
  omega

lemma not_mem_of_free (h : s.Inv) (hi : i ∈ s.freeq) : i ∉ s.pendq ∧ i ∉ s.busyq := by
  have := h.once i
  have hf := List.count_pos_iff.2 hi
  constructor
  · intro hp
    have := List.count_pos_iff.2 hp
    omega
  · intro hb
    have := List.count_pos_iff.2 hb
    omega

lemma nodup_pend (h : s.Inv) : s.pendq.Nodup := by
  refine List.nodup_iff_count_le_one.2 fun i => ?_
  have := h.once i
  omega

/-- Two threads do not work on one element. -/
lemma elem_inj (h : s.Inv) (ht : (s.thr t).elem = some i) (ht' : (s.thr t').elem = some i) :
    t = t' :=
  Option.some.inj ((h.held t i ht).2.1.symm.trans (h.held t' i ht').2.1)

/-- Threads go on without the mutex, or wake up. -/
lemma withThr (h : s.Inv) {thr : Fin n → BlkThr m} (helem : ∀ t, (thr t).elem = (s.thr t).elem)
    (hstatus : ∀ t, (thr t).elem ≠ none → (thr t).status = (s.thr t).status)
    (hexit : ∀ t, s.thr t ≠ .exited → s.closing = false → thr t ≠ .exited) :
    { s with thr }.Inv where
  once := h.once
  free := h.free
  pend := h.pend
  busy i hi := by
    obtain ⟨t, ht⟩ := h.busy i hi
    exact ⟨t, (helem t).trans ht⟩
  held t i ht := by
    obtain ⟨hi, htid, hstat⟩ := h.held t i ((helem t).symm.trans ht)
    have hne : (thr t).elem ≠ none := by
      rw [show (thr t).elem = some i from ht]
      nofun
    exact ⟨hi, htid, hstat.trans (hstatus t hne).symm⟩
  served := h.served
  open_ hc t := hexit t (h.open_ hc t) hc
  cancelling := h.cancelling

lemma setThr (h : s.Inv) (helem : pc.elem = (s.thr t).elem)
    (hstatus : pc.elem ≠ none → pc.status = (s.thr t).status)
    (hexit : s.closing = false → pc ≠ .exited) : (s.setThr t pc).Inv := by
  refine h.withThr (fun t' => ?_) (fun t' => ?_) fun t' => ?_
  all_goals by_cases htt : t' = t
  · rw [htt, update_self, helem]
  · rw [update_of_ne htt]
  · rw [htt, update_self]
    exact hstatus
  · rw [update_of_ne htt]
    exact fun _ => rfl
  · rw [htt, update_self]
    exact fun _ => hexit
  · rw [update_of_ne htt]
    exact fun hne _ => hne

/-- `blockif_proc` is done with its operation. -/
lemma procDone (h : s.Inv) {br : BlockifReq} (ht : s.thr t = .proc be br) :
    ((s.setElem be { s.reqs be with status := .done }).setThr t (.done be br)).Inv := by
  have hbe := h.held t be (by rw [ht]; rfl)
  have hblock (i : Fin m) :
      (update s.reqs be { s.reqs be with status := .done } i).block = (s.reqs i).block := by
    by_cases hi : i = be
    · rw [hi, update_self]
    · rw [update_of_ne hi]
  constructor
  case once => exact h.once
  case free =>
    intro i hi
    have hne : i ≠ be := fun heq => (h.not_mem_of_free hi).2 (heq ▸ hbe.1)
    exact (congrArg BlockifElem.status (update_of_ne hne ..)).trans (h.free i hi)
  case pend =>
    intro i hi
    have hne : i ≠ be := fun heq => h.not_mem_busy_of_pend hi (heq ▸ hbe.1)
    change ((update s.reqs be _ i).status = _ ∨ (update s.reqs be _ i).status = _) ∧
      (update s.reqs be _ i).req.isSome
    rw [update_of_ne hne]
    exact h.pend i hi
  case busy =>
    intro i hi
    obtain ⟨t', ht'⟩ := h.busy i hi
    refine ⟨t', ?_⟩
    change (update s.thr t _ t').elem = _
    by_cases htt : t' = t
    · rw [htt, ht] at ht'
      rw [htt, update_self]
      exact ht'
    · rw [update_of_ne htt, ht']
  case held =>
    intro t' i ht'
    change (update s.thr t _ t').elem = _ at ht'
    change _ ∧ (update s.reqs be _ i).tid = _ ∧
      (update s.reqs be _ i).status = (update s.thr t _ t').status
    by_cases htt : t' = t
    · rw [htt, update_self] at ht' ⊢
      cases ht'
      rw [update_self]
      exact ⟨hbe.1, hbe.2.1, rfl⟩
    · rw [update_of_ne htt] at ht' ⊢
      have hne : i ≠ be := by
        rintro rfl
        exact htt (h.elem_inj ht' (by rw [ht]; rfl))
      rw [update_of_ne hne]
      exact h.held t' i ht'
  case served =>
    refine WaitQueue.congr h.served ?_ (fun j hj b hb => ?_) fun j _ => hblock j
    · rintro b ⟨i, hi, hb⟩
      exact ⟨i, hi, (hblock i).trans hb⟩
    · have hne : j ≠ be := fun heq => h.not_mem_busy_of_pend hj (heq ▸ hbe.1)
      change (update s.reqs be _ j).status = _ ∧ (update s.reqs be _ j).req.map _ = _ at hb
      rw [update_of_ne hne] at hb
      exact hb
  case open_ =>
    intro hc t'
    change update s.thr t _ t' ≠ _
    by_cases htt : t' = t
    · rw [htt, update_self]
      nofun
    · rw [update_of_ne htt]
      exact h.open_ hc t'
  case cancelling => exact h.cancelling

/-- `blockif_enqueue` -/
lemma enqueue (h : s.Inv) (hbe : be ∈ s.freeq) (breq : BlockifReq) (op : BlockOp) :
    (s.enqueue be breq op).Inv := by
  obtain ⟨hpend, hbusy⟩ := h.not_mem_of_free hbe
  have hreqs {i : Fin m} (hi : i ≠ be) : (s.enqueue be breq op).reqs i = s.reqs i :=
    update_of_ne hi ..
  constructor
  case once =>
    intro i
    have := h.once i
    have := List.count_pos_iff.2 hbe
    change (s.freeq.erase be).count i + (s.pendq ++ [be]).count i + s.busyq.count i = 1
    rw [List.count_erase, List.count_append, List.count_singleton]
    by_cases hi : be = i
    · subst hi
      simp only [beq_self_eq_true, if_true]
      omega
    · have : (be == i) = false := beq_false_of_ne hi
      simp only [this, Bool.false_eq_true, if_false]
      omega
  case free =>
    intro i hi
    have hne : i ≠ be := by
      rintro rfl
      have hone := h.once i
      have hpos : 0 < (s.freeq.erase i).count i := List.count_pos_iff.2 hi
      rw [List.count_erase_self] at hpos
      omega
    rw [hreqs hne]
    exact h.free i (List.mem_of_mem_erase hi)
  case pend =>
    intro i hi
    by_cases hne : i = be
    · subst hne
      have hself : (s.enqueue i breq op).reqs i = _ := update_self ..
      rw [hself]
      refine ⟨?_, rfl⟩
      by_cases he : s.EndsAt breq.offset
      · exact .inr (if_pos he)
      · exact .inl (if_neg he)
    · rw [hreqs hne]
      exact h.pend i ((List.mem_append.1 hi).resolve_right (by simpa using hne))
  case busy => exact h.busy
  case held =>
    intro t i ht
    have hheld := h.held t i ht
    have hne : i ≠ be := fun heq => hbusy (heq ▸ hheld.1)
    rw [hreqs hne]
    exact hheld
  case served =>
    refine WaitQueue.concat (WaitQueue.congr h.served ?_ (fun j hj b hb => ?_) fun j hj => ?_) ?_
    · rintro b ⟨i, hi, hb⟩
      refine ⟨i, hi, ?_⟩
      rw [hreqs fun heq => hbusy (heq ▸ hi)]
      exact hb
    · rw [Waits, hreqs fun heq => hpend (heq ▸ hj)] at hb
      exact hb
    · rw [hreqs fun heq => hpend (heq ▸ hj)]
    · rintro b ⟨hstatus, hoff⟩
      have hself : (s.enqueue be breq op).reqs be = _ := update_self ..
      rw [hself] at hstatus hoff
      have he : s.EndsAt breq.offset := by
        by_contra he
        exact BlockStat.noConfusion ((if_neg he).symm.trans hstatus)
      cases hoff
      obtain ⟨i, hi, hend⟩ := he
      have hne : i ≠ be := by
        rintro rfl
        exact (List.mem_append.1 hi).elim hpend hbusy
      rcases List.mem_append.1 hi with hi | hi
      · exact .inr ⟨i, hi, by rw [hreqs hne]; exact hend⟩
      · exact .inl ⟨i, hi, by rw [hreqs hne]; exact hend⟩
  case open_ => exact h.open_
  case cancelling => exact h.cancelling

/-- `blockif_dequeue`, with which a thread gets an element -/
lemma dequeue (h : s.Inv) (hbe : be ∈ s.pendq) (ht : (s.thr t).elem = none) (br : BlockifReq) :
    ((s.dequeue t be).setThr t (.proc be br)).Inv := by
  have hbusy := h.not_mem_busy_of_pend hbe
  have hreqs {i : Fin m} (hi : i ≠ be) :
      ((s.dequeue t be).setThr t (.proc be br)).reqs i = s.reqs i := update_of_ne hi ..
  have hself : ((s.dequeue t be).setThr t (.proc be br)).reqs be = _ := update_self ..
  have hthr {t' : Fin n} (ht' : t' ≠ t) :
      ((s.dequeue t be).setThr t (.proc be br)).thr t' = s.thr t' := update_of_ne ht' ..
  have hthrself : ((s.dequeue t be).setThr t (.proc be br)).thr t = .proc be br := update_self ..
  have hmem {i : Fin m} (hi : i ∈ s.pendq.erase be) : i ≠ be ∧ i ∈ s.pendq :=
    (List.Nodup.mem_erase_iff h.nodup_pend).1 hi
  have hblock (i : Fin m) : (((s.dequeue t be).setThr t (.proc be br)).reqs i).block =
      (s.reqs i).block := by
    by_cases hi : i = be
    · rw [hi, hself]
    · rw [hreqs hi]
  constructor
  case once =>
    intro i
    have := h.once i
    have := List.count_pos_iff.2 hbe
    change s.freeq.count i + (s.pendq.erase be).count i + (s.busyq ++ [be]).count i = 1
    rw [List.count_erase, List.count_append, List.count_singleton]
    by_cases hi : be = i
    · subst hi
      simp only [beq_self_eq_true, if_true]
      omega
    · have : (be == i) = false := beq_false_of_ne hi
      simp only [this, Bool.false_eq_true, if_false]
      omega
  case free =>
    intro i hi
    rw [hreqs fun heq : i = be => (h.not_mem_of_free hi).1 (heq ▸ hbe)]
    exact h.free i hi
  case pend =>
    intro i hi
    rw [hreqs (hmem hi).1]
    exact h.pend i (hmem hi).2
  case busy =>
    intro i hi
    by_cases hne : i = be
    · exact ⟨t, by rw [hthrself, hne]; rfl⟩
    · obtain ⟨t', ht'⟩ := h.busy i ((List.mem_append.1 hi).resolve_right (by simpa using hne))
      refine ⟨t', ?_⟩
      rw [hthr, ht']
      rintro rfl
      rw [ht] at ht'
      cases ht'
  case held =>
    intro t' i ht'
    by_cases htt : t' = t
    · rw [htt, hthrself] at ht' ⊢
      cases ht'
      rw [hself]
      exact ⟨List.mem_append_right _ List.mem_cons_self, rfl, rfl⟩
    · rw [hthr htt] at ht' ⊢
      have hheld := h.held t' i ht'
      rw [hreqs fun heq => hbusy (heq ▸ hheld.1)]
      exact ⟨List.mem_append_left _ hheld.1, hheld.2⟩
  case served =>
    have hfilter : s.pendq.erase be = s.pendq.filter (· != be) := h.nodup_pend.erase_eq_filter be
    change WaitQueue.Served _ _ _ (s.pendq.erase be)
    rw [hfilter]
    refine WaitQueue.filter (G := Set.univ) h.served ?_ (fun j _ hne b hb => ⟨?_, trivial⟩)
      (fun j _ _ => hblock j) fun j _ heq _ => ?_
    · rintro b - ⟨i, hi, hb⟩
      exact ⟨i, List.mem_append_left _ hi, (hblock i).trans hb⟩
    · rw [Waits, hreqs (by simpa using hne)] at hb
      exact hb
    · have heq : j = be := by simpa using heq
      exact ⟨j, List.mem_append_right _ (heq ▸ List.mem_cons_self), hblock j⟩
  case open_ =>
    intro hc t'
    by_cases htt : t' = t
    · rw [htt, hthrself]
      nofun
    · rw [hthr htt]
      exact h.open_ hc t'
  case cancelling => exact fun i hi => List.mem_append_left _ (h.cancelling i hi)

/-- The queues after `blockif_complete` has unlinked an element -/
lemma unlink_eq (h : s.Inv) (be : Fin m) : s.unlink be =
    { s with
      pendq := s.pendq.erase be
      busyq := s.busyq.erase be } := by
  have hbusy (hs : (s.reqs be).status = .done ∨ (s.reqs be).status = .busy) :
      s.pendq.erase be = s.pendq := by
    refine List.erase_of_not_mem fun hp => ?_
    obtain ⟨hp | hp, -⟩ := h.pend be hp
    · rw [hp] at hs
      exact hs.elim nofun nofun
    · rw [hp] at hs
      exact hs.elim nofun nofun
  have hpend (hs : ¬ ((s.reqs be).status = .done ∨ (s.reqs be).status = .busy)) :
      s.busyq.erase be = s.busyq := by
    refine List.erase_of_not_mem fun hb => hs ?_
    obtain ⟨t, ht⟩ := h.busy be hb
    rw [(h.held t be ht).2.2]
    cases hpc : s.thr t <;> simp [BlkThr.status]
  rw [unlink]
  split_ifs with hs
  · rw [hbusy hs]
  · rw [hpend hs]

lemma pendq_complete (h : s.Inv) (be : Fin m) : (s.complete be).pendq = s.pendq.erase be := by
  change (s.unlink be).pendq = _
  rw [h.unlink_eq be]

lemma busyq_complete (h : s.Inv) (be : Fin m) : (s.complete be).busyq = s.busyq.erase be := by
  change (s.unlink be).busyq = _
  rw [h.unlink_eq be]

lemma freeq_complete (h : s.Inv) (be : Fin m) : (s.complete be).freeq = s.freeq ++ [be] := by
  change (s.unlink be).freeq ++ [be] = _
  rw [h.unlink_eq be]

lemma closing_complete (h : s.Inv) (be : Fin m) : (s.complete be).closing = s.closing := by
  change (s.unlink be).closing = _
  rw [h.unlink_eq be]

lemma thr_complete (h : s.Inv) (be : Fin m) : (s.complete be).thr = s.thr := by
  change (s.unlink be).thr = _
  rw [h.unlink_eq be]

lemma cancelling_complete (h : s.Inv) (be : Fin m) :
    (s.complete be).cancelling = s.cancelling := by
  change (s.unlink be).cancelling = _
  rw [h.unlink_eq be]

/-- A pending request that begins where `be` ends does not wait any more. -/
lemma reqs_complete (h : s.Inv) (hi : i ≠ be) : (s.complete be).reqs i =
    if i ∈ s.pendq.erase be ∧ (s.reqs i).req.map BlockifReq.offset = some (s.reqs be).block then
      { s.reqs i with status := .pend }
    else s.reqs i := by
  refine (update_of_ne hi ..).trans ?_
  rw [h.unlink_eq be]
  rfl

lemma req_complete (h : s.Inv) (hi : i ≠ be) : ((s.complete be).reqs i).req = (s.reqs i).req := by
  rw [h.reqs_complete hi]
  split_ifs <;> rfl

lemma block_complete (h : s.Inv) (hi : i ≠ be) :
    ((s.complete be).reqs i).block = (s.reqs i).block := by
  rw [h.reqs_complete hi]
  split_ifs <;> rfl

/-- `blockif_complete`, after which no thread works on the element -/
lemma complete (h : s.Inv) (hbe : be ∉ s.freeq) (thr : Fin n → BlkThr m)
    (helem : ∀ t i, (thr t).elem = some i ↔ (s.thr t).elem = some i ∧ i ≠ be)
    (hstatus : ∀ t i, (thr t).elem = some i → (thr t).status = (s.thr t).status)
    (hexit : s.closing = false → ∀ t, thr t ≠ .exited) (hcancel : s.cancelling ≠ some be) :
    { s.complete be with thr }.Inv := by
  have hself : ((s.complete be).reqs be).status = .free := by
    simp only [Blockif.complete, setElem, update_self]
  have hpmem {i : Fin m} (hi : i ∈ s.pendq.erase be) : i ≠ be ∧ i ∈ s.pendq :=
    (List.Nodup.mem_erase_iff h.nodup_pend).1 hi
  have hbmem {i : Fin m} (hi : i ∈ s.busyq.erase be) : i ≠ be := by
    rintro rfl
    have hone := h.once i
    have hpos : 0 < (s.busyq.erase i).count i := List.count_pos_iff.2 hi
    rw [List.count_erase_self] at hpos
    omega
  have hsame {i : Fin m} (hi : i ∉ s.pendq) (hne : i ≠ be) :
      (s.complete be).reqs i = s.reqs i := by
    rw [h.reqs_complete hne, if_neg fun hif => hi (hpmem hif.1).2]
  constructor
  case once =>
    intro i
    have hone := h.once i
    have hbone := h.once be
    change (s.complete be).freeq.count i + (s.complete be).pendq.count i +
      (s.complete be).busyq.count i = 1
    rw [h.freeq_complete, h.pendq_complete, h.busyq_complete, List.count_append,
      List.count_erase, List.count_erase, List.count_singleton]
    by_cases hi : be = i
    · subst hi
      have : s.freeq.count be = 0 := List.count_eq_zero.2 hbe
      simp only [beq_self_eq_true, if_true]
      omega
    · have : (be == i) = false := beq_false_of_ne hi
      simp only [this, Bool.false_eq_true, if_false]
      omega
  case free =>
    intro i hi
    by_cases hne : i = be
    · rw [hne]
      exact hself
    · change i ∈ (s.complete be).freeq at hi
      rw [h.freeq_complete] at hi
      have hi := (List.mem_append.1 hi).resolve_right (by simpa using hne)
      change ((s.complete be).reqs i).status = _
      rw [hsame (h.not_mem_of_free hi).1 hne]
      exact h.free i hi
  case pend =>
    intro i hi
    obtain ⟨hne, hi⟩ := hpmem (h.pendq_complete be ▸ hi)
    change (((s.complete be).reqs i).status = _ ∨ ((s.complete be).reqs i).status = _) ∧
      ((s.complete be).reqs i).req.isSome
    rw [h.reqs_complete hne]
    split_ifs
    · exact ⟨.inl rfl, (h.pend i hi).2⟩
    · exact h.pend i hi
  case busy =>
    intro i hi
    have hi : i ∈ s.busyq.erase be := h.busyq_complete be ▸ hi
    obtain ⟨t, ht⟩ := h.busy i (List.mem_of_mem_erase hi)
    exact ⟨t, (helem t i).2 ⟨ht, hbmem hi⟩⟩
  case held =>
    intro t i ht
    obtain ⟨ht', hne⟩ := (helem t i).1 ht
    obtain ⟨hi, htid, hstat⟩ := h.held t i ht'
    refine ⟨?_, ?_⟩
    · change i ∈ (s.complete be).busyq
      rw [h.busyq_complete]
      exact (List.mem_erase_of_ne hne).2 hi
    · change ((s.complete be).reqs i).tid = _ ∧ ((s.complete be).reqs i).status = _
      rw [hsame (fun hp => h.not_mem_busy_of_pend hp hi) hne]
      exact ⟨htid, hstat.trans (hstatus t i ht).symm⟩
  case served =>
    have hfilter : s.pendq.erase be = s.pendq.filter (· != be) := h.nodup_pend.erase_eq_filter be
    change WaitQueue.Served _ _ _ (s.complete be).pendq
    rw [h.pendq_complete, hfilter]
    refine WaitQueue.filter (G := {b | b ≠ (s.reqs be).block}) h.served ?_
      (fun j hj hne b hb => ?_) (fun j _ hne => h.block_complete (by simpa using hne))
      fun j _ heq hG => ?_
    · rintro b hG ⟨i, hi, rfl⟩
      have hne : i ≠ be := by
        rintro rfl
        exact hG rfl
      refine ⟨i, ?_, h.block_complete hne⟩
      change i ∈ (s.complete be).busyq
      rw [h.busyq_complete]
      exact (List.mem_erase_of_ne hne).2 hi
    · -- an element that still waits does not begin where `be` ends
      have hne : j ≠ be := by simpa using hne
      change ((s.complete be).reqs j).status = _ ∧ ((s.complete be).reqs j).req.map _ = _ at hb
      rw [h.reqs_complete hne] at hb
      split_ifs at hb with hif
      · exact absurd hb.1 nofun
      · refine ⟨hb, fun heq => hif ⟨(List.mem_erase_of_ne hne).2 hj, ?_⟩⟩
        rw [hb.2, heq]
    · have heq : j = be := by simpa using heq
      exact absurd (congrArg (fun i => (s.reqs i).block) heq) hG
  case open_ => exact fun hc => hexit ((h.closing_complete be).symm.trans hc)
  case cancelling =>
    intro i hi
    have hc : s.cancelling = some i := (h.cancelling_complete be).symm.trans hi
    change i ∈ (s.complete be).busyq
    rw [h.busyq_complete]
    refine (List.mem_erase_of_ne fun heq => hcancel ?_).2 (h.cancelling i hc)
    rw [hc, heq]

/-- A thread is done with an element. -/
lemma completeBusy (h : s.Inv) (ht : s.thr t = .called be) (hcancel : s.cancelling = none) :
    ((s.complete be).setThr t .look).Inv := by
  have hbe := h.held t be (by rw [ht]; rfl)
  have hnew := h.complete (fun hf => (h.not_mem_of_free hf).2 hbe.1) (update s.thr t .look) ?_ ?_ ?_
    (by rw [hcancel]; nofun)
  · rw [← h.thr_complete be] at hnew
    exact hnew
  · intro t' i
    by_cases htt : t' = t
    · rw [htt, update_self, ht]
      exact ⟨nofun, fun hi => absurd (Option.some.inj hi.1).symm hi.2⟩
    · rw [update_of_ne htt]
      refine ⟨fun hi => ⟨hi, ?_⟩, And.left⟩
      rintro rfl
      exact htt (h.elem_inj hi (by rw [ht]; rfl))
  · intro t' i
    by_cases htt : t' = t
    · rw [htt, update_self]
      nofun
    · rw [update_of_ne htt]
      exact fun _ => rfl
  · intro hc t'
    by_cases htt : t' = t
    · rw [htt, update_self]
      nofun
    · rw [update_of_ne htt]
      exact h.open_ hc t'

/-- A pending request is cancelled. -/
lemma completePend (h : s.Inv) (hbe : be ∈ s.pendq) (hcancel : s.cancelling = none) :
    (s.complete be).Inv := by
  have hnew := h.complete (fun hf => (h.not_mem_of_free hf).1 hbe) s.thr ?_ (fun _ _ _ => rfl)
    h.open_ (by rw [hcancel]; nofun)
  · rw [← h.thr_complete be] at hnew
    exact hnew
  · refine fun t i => ⟨fun hi => ⟨hi, ?_⟩, And.left⟩
    rintro rfl
    exact h.not_mem_busy_of_pend hbe (h.held t i hi).1

end Inv

/-! ### Steps -/

lemma mem_of_next (h : s.next = some be) :
    be ∈ s.pendq ∧ (s.reqs be).status = .pend := by
  refine ⟨List.mem_of_find?_eq_some h, ?_⟩
  simpa using List.find?_some h

namespace Inv

lemma signal (h : s.Inv) (w : Fin n) : (s.signal w).Inv := by
  rw [Blockif.signal]
  split_ifs with hw
  · exact h.setThr (by rw [hw]; rfl) (fun hne => absurd rfl hne) nofun
  · split
    · next t ht =>
      have ht : s.thr t = .wait := by simpa using List.find?_some ht
      exact h.setThr (by rw [ht]; rfl) (fun hne => absurd rfl hne) nofun
    · exact h

lemma loop (h : s.Inv) (ht : (s.thr t).elem = none) : (s.loop t).Inv := by
  rw [Blockif.loop]
  split
  · next be hbe =>
    split
    · next br _ => exact h.dequeue (mem_of_next hbe).1 ht br
    · exact h
  · split_ifs with hc
    · exact h.setThr ht.symm (fun hne => absurd rfl hne) fun hc' => absurd (hc.symm.trans hc') nofun
    · exact h.setThr ht.symm (fun hne => absurd rfl hne) nofun

lemma thrStep (h : s.Inv) (t : Fin n) : (s.thrStep t).Inv := by
  rw [Blockif.thrStep]
  cases ht : s.thr t with
  | look =>
    dsimp only
    split_ifs
    · exact h.loop (by rw [ht]; rfl)
    · exact h
  | proc be br => exact h.procDone ht
  | done be br => exact h.setThr (by rw [ht]; rfl) (fun _ => by rw [ht]; rfl) nofun
  | called be =>
    dsimp only
    split_ifs with hc
    · exact (h.completeBusy ht hc).loop (by rw [thr_setThr_self]; rfl)
    · exact h
  | wait | exited => exact h

lemma step (h : s.Inv) (e : BlockifEvent n) : (s.step e).Inv := by
  cases e with
  | request breq op w =>
    rw [Blockif.step]
    split_ifs
    · cases hf : s.freeq with
      | nil => exact h
      | cons be _ =>
        have hbe : be ∈ s.freeq := by rw [hf]; exact List.mem_cons_self
        have hnew := h.enqueue hbe breq op
        dsimp only
        split_ifs
        · exact hnew.signal w
        · exact hnew
    · exact h
  | thread t err => exact h.thrStep t
  | wake t =>
    rw [Blockif.step]
    split_ifs with ht
    · exact h.setThr (by rw [ht]; rfl) (fun hne => absurd rfl hne) nofun
    · exact h
  | cancel addr =>
    rw [Blockif.step, Blockif.cancel]
    split_ifs with hc
    · split
      · next be hbe => exact h.completePend (List.mem_of_find?_eq_some hbe) hc
      · split
        · next be hbe =>
          refine { h with cancelling := fun i hi => ?_ }
          cases hi
          exact List.mem_of_find?_eq_some hbe
        · exact h
    · exact h
  | cancelEnd =>
    rw [Blockif.step]
    split
    · split_ifs
      · exact h
      · exact { h with cancelling := nofun }
    · exact h
  | close =>
    rw [Blockif.step]
    split_ifs
    · exact { h with open_ := nofun }
    · exact h
  | broadcast =>
    refine h.withThr (fun t => ?_) (fun t => ?_) fun t => ?_
    all_goals split_ifs with ht
    · rw [ht]
      rfl
    · rfl
    · exact fun hne => absurd rfl hne
    · exact fun _ => rfl
    · nofun
    · exact fun hne _ => hne

end Inv

end Blockif

end Minos.Virtio
