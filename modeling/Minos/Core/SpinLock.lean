import Minos.Lib.ExclusiveWord
import Minos.Lib.FifoLock

/-!
# The ticket lock

`raw_spin_lock` draws a ticket with `atomic_add_return_old(1, &lock->next_ticket)` and waits until
`ticket_in_service` is its ticket. `raw_spin_unlock` loads `ticket_in_service` and stores the next
number. Each access of a word is a step of its own, and the cpus take turns in any order. The
numbers are `int` and wrap.
-/

namespace Minos.Core

open Function Run

/-- Where a cpu is with the lock. -/
inductive SpinPc where
  | out
  /-- in `atomic_add_return_old`, before `ldaxr` -/
  | ldaxr
  /-- in `atomic_add_return_old`, before `stxr` -/
  | stxr (w2 : BitVec 32)
  /-- before the next `__atomic_get` of the loop -/
  | wait (ticket : BitVec 32)
  /-- between `raw_spin_lock` and `raw_spin_unlock` -/
  | inside
  /-- in `raw_spin_unlock`, before `__atomic_get` -/
  | get
  /-- in `raw_spin_unlock`, before `__atomic_set` -/
  | set (ticket : BitVec 32)
deriving DecidableEq

namespace SpinPc

/-- The cpu has no ticket. -/
def Before : SpinPc → Prop
  | .out | .ldaxr | .stxr _ => True
  | _ => False

/-- The cpu has the lock: its loop has ended, and it has not stored the next number. -/
def Holds : SpinPc → Prop
  | .inside | .get | .set _ => True
  | _ => False

instance (pc : SpinPc) : Decidable pc.Holds := by
  unfold Holds
  split <;> infer_instance

end SpinPc

/-- `struct spinlock`, and the cpus -/
structure SpinLock (Cpu : Type*) where
  nextTicket : ExclusiveWord Cpu (BitVec 32)
  ticketInService : BitVec 32
  pc : Cpu → SpinPc

/-- A cpu calls `raw_spin_lock` or `raw_spin_unlock`, or makes its next access, where a `stxr` fails
unless `ok`. -/
inductive SpinEvent (Cpu : Type*) where
  | lock (c : Cpu)
  | access (c : Cpu) (ok : Bool)
  | unlock (c : Cpu)

namespace SpinLock

variable {Cpu : Type*}

/-- `spin_lock_init` -/
def init : SpinLock Cpu := ⟨.stored 0, 0, fun _ => .out⟩

variable [DecidableEq Cpu] (s : SpinLock Cpu)

def goto (c : Cpu) (pc : SpinPc) : SpinLock Cpu := { s with pc := update s.pc c pc }

/-- The next access of a cpu -/
def access (c : Cpu) (ok : Bool) : SpinLock Cpu :=
  match s.pc c with
  | .out | .inside => s
  | .ldaxr =>
    { s with nextTicket := s.nextTicket.loadExclusive c }.goto c (.stxr (s.nextTicket.value + 1))
  | .stxr w2 =>
    if s.nextTicket.CanStore c ok then
      { s with nextTicket := .stored w2 }.goto c (.wait (w2 - 1))
    else { s with nextTicket := s.nextTicket.clear c }.goto c .ldaxr
  | .wait ticket => if ticket = s.ticketInService then s.goto c .inside else s
  | .get => s.goto c (.set s.ticketInService)
  | .set ticket => { s with ticketInService := ticket + 1 }.goto c .out

def step (s : SpinLock Cpu) : SpinEvent Cpu → SpinLock Cpu
  | .lock c => if s.pc c = .out then s.goto c .ldaxr else s
  | .access c ok => s.access c ok
  | .unlock c => if s.pc c = .inside then s.goto c .get else s

/-- What is seen of an event: a cpu asks for the lock when it draws its ticket, enters when its loop
ends, and leaves with the store of the next number. -/
def seen (s : SpinLock Cpu) : SpinEvent Cpu → List (FifoLock.Event Cpu)
  | .access c ok =>
    match s.pc c with
    | .stxr _ => if s.nextTicket.CanStore c ok then [.ask c] else []
    | .wait ticket => if ticket = s.ticketInService then [.enter c] else []
    | .set _ => [.leave c]
    | _ => []
  | _ => []

/-- The lock is in the state of a lock that serves in the order in which it is asked: the cpus of
its queue have the tickets from the one in service on. -/
structure Refines (s : SpinLock Cpu) (l : FifoLock.State Cpu) : Prop where
  nodup : l.queue.Nodup
  next : s.nextTicket.value = s.ticketInService + BitVec.ofNat 32 l.queue.length
  holder : ∀ c, l.holder = some c → (s.pc c).Holds ∧ ∀ t, s.pc c = .set t → t = s.ticketInService
  waiting : ∀ i c, l.queue[i]? = some c → l.holder ≠ some c →
    s.pc c = .wait (s.ticketInService + BitVec.ofNat 32 i)
  before : ∀ c, c ∉ l.queue → (s.pc c).Before
  fresh : s.nextTicket.Fresh fun c v => ∀ w2, s.pc c = .stxr w2 → w2 = v + 1

omit [DecidableEq Cpu] in
lemma init_refines : (init : SpinLock Cpu).Refines FifoLock.free where
  nodup := List.nodup_nil
  next := rfl
  holder := nofun
  waiting := nofun
  before _ _ := trivial
  fresh := ExclusiveWord.fresh_stored

variable {s} {l l' : FifoLock.State Cpu} {c d : Cpu} {pc : SpinPc} {t : BitVec 32}

@[simp] lemma pc_goto_self : (s.goto c pc).pc c = pc := update_self ..

lemma pc_goto_of_ne (h : d ≠ c) : (s.goto c pc).pc d = s.pc d := update_of_ne h ..

@[simp] lemma ticketInService_goto : (s.goto c pc).ticketInService = s.ticketInService := rfl

@[simp] lemma nextTicket_goto : (s.goto c pc).nextTicket = s.nextTicket := rfl

omit [DecidableEq Cpu] in
lemma mem_queue_of_holder (h : l.holder = some c) : c ∈ l.queue := by
  rw [FifoLock.State.queue, h]
  exact List.mem_cons_self

namespace Refines

section

omit [DecidableEq Cpu]

/-- A cpu without a ticket is not in the queue. -/
lemma not_mem (h : s.Refines l) (hpc : (s.pc c).Before) : c ∉ l.queue := by
  intro hmem
  obtain ⟨i, hi⟩ := List.mem_iff_getElem?.1 hmem
  by_cases hc : l.holder = some c
  · have := (h.holder c hc).1
    cases hpc' : s.pc c <;> simp_all [SpinPc.Before, SpinPc.Holds]
  · rw [h.waiting i c hi hc] at hpc
    exact hpc

/-- The cpu that has the lock is the holder. -/
lemma holds_iff (h : s.Refines l) : (s.pc c).Holds ↔ l.holder = some c := by
  refine ⟨fun hpc => ?_, fun hc => (h.holder c hc).1⟩
  by_contra hc
  by_cases hmem : c ∈ l.queue
  · obtain ⟨i, hi⟩ := List.mem_iff_getElem?.1 hmem
    rw [h.waiting i c hi hc] at hpc
    exact hpc
  · have := h.before c hmem
    cases hpc' : s.pc c <;> simp_all [SpinPc.Before, SpinPc.Holds]

/-- Where a cpu that waits is in the queue -/
lemma exists_index (h : s.Refines l) (hpc : s.pc c = .wait t) :
    ∃ i, l.queue[i]? = some c ∧ t = s.ticketInService + BitVec.ofNat 32 i := by
  have hholder : l.holder ≠ some c := by
    rw [Ne, ← h.holds_iff, hpc]
    exact id
  have hmem : c ∈ l.queue := by
    by_contra hmem
    have := h.before c hmem
    rw [hpc] at this
    exact this
  obtain ⟨i, hi⟩ := List.mem_iff_getElem?.1 hmem
  have hwait := h.waiting i c hi hholder
  rw [hpc, SpinPc.wait.injEq] at hwait
  exact ⟨i, hi, hwait⟩

/-- The tickets of the queue are all different. -/
lemma ofNat_eq_zero_iff [Fintype Cpu] (hcard : Fintype.card Cpu ≤ 2 ^ 32) (h : s.Refines l) {i : ℕ}
    (hi : l.queue[i]? = some c) : BitVec.ofNat 32 i = 0 ↔ i = 0 := by
  have hlen : l.queue.length ≤ 2 ^ 32 := h.nodup.length_le_card.trans hcard
  obtain ⟨hlt, -⟩ := List.getElem?_eq_some_iff.1 hi
  rw [← BitVec.toNat_inj, BitVec.toNat_ofNat, Nat.mod_eq_of_lt (hlt.trans_le hlen)]
  rfl

/-- A cpu that waits finds its ticket in service when it is the first one and nobody has the lock.
-/
lemma wait_iff [Fintype Cpu] (hcard : Fintype.card Cpu ≤ 2 ^ 32) (h : s.Refines l)
    (hpc : s.pc c = .wait t) :
    t = s.ticketInService ↔ l.holder = none ∧ l.waiting.head? = some c := by
  obtain ⟨i, hi, rfl⟩ := h.exists_index hpc
  rw [add_eq_left, h.ofNat_eq_zero_iff hcard hi]
  cases hholder : l.holder with
  | none =>
    have hqueue : l.queue = l.waiting := by rw [FifoLock.State.queue, hholder]; rfl
    rw [hqueue] at hi
    rw [List.head?_eq_getElem?, eq_self, true_and]
    constructor
    · rintro rfl
      exact hi
    · intro h0
      obtain ⟨hlt, -⟩ := List.getElem?_eq_some_iff.1 hi
      exact (List.getElem?_inj hlt (hqueue ▸ h.nodup)).1 (hi.trans h0.symm)
  | some d =>
    have hqueue : l.queue = d :: l.waiting := by rw [FifoLock.State.queue, hholder]; rfl
    refine iff_of_false ?_ (by simp)
    rintro rfl
    rw [hqueue] at hi
    have hdc : d = c := by simpa using hi
    have := (h.holder d hholder).1
    rw [hdc, hpc] at this
    exact this

end

/-! ### Steps -/

/-- The next number is stored exclusively, or a cpu without a ticket goes on to draw one. -/
lemma goto_before (h : s.Refines l) {w : ExclusiveWord Cpu (BitVec 32)} (hc : (s.pc c).Before)
    (hpc : pc.Before) (hw : w.value = s.nextTicket.value)
    (hfresh : w.Fresh fun d v => ∀ w2, update s.pc c pc d = .stxr w2 → w2 = v + 1) :
    ({ s with nextTicket := w }.goto c pc).Refines l where
  nodup := h.nodup
  next := hw.trans h.next
  holder d hd := by
    have hdc : d ≠ c := fun heq => h.not_mem hc (heq ▸ mem_queue_of_holder hd)
    rw [pc_goto_of_ne hdc]
    exact h.holder d hd
  waiting i d hi hd := by
    have hdc : d ≠ c := fun heq => h.not_mem hc (heq ▸ List.mem_of_getElem? hi)
    rw [pc_goto_of_ne hdc]
    exact h.waiting i d hi hd
  before d hd := by
    by_cases hdc : d = c
    · rw [hdc, pc_goto_self]
      exact hpc
    · rw [pc_goto_of_ne hdc]
      exact h.before d hd
  fresh := hfresh

/-- What the cpus rely on does not change when one goes to a place other than `stxr`. -/
lemma fresh_goto (h : s.Refines l) (hpc : ∀ w2, pc ≠ .stxr w2) :
    s.nextTicket.Fresh fun d v => ∀ w2, update s.pc c pc d = .stxr w2 → w2 = v + 1 := by
  refine h.fresh.mono fun d _ hd w2 hw2 => ?_
  by_cases hdc : d = c
  · rw [hdc, update_self] at hw2
    exact absurd hw2 (hpc w2)
  · rw [update_of_ne hdc] at hw2
    exact hd w2 hw2

/-- `ldaxr` -/
lemma ldaxr (h : s.Refines l) (hc : s.pc c = .ldaxr) :
    ({ s with nextTicket := s.nextTicket.loadExclusive c }.goto c
      (.stxr (s.nextTicket.value + 1))).Refines l := by
  refine h.goto_before (by rw [hc]; trivial) trivial rfl ?_
  refine h.fresh.loadExclusive (fun d hdc hd w2 hw2 => ?_) fun w2 hw2 => ?_
  · rw [update_of_ne hdc] at hw2
    exact hd w2 hw2
  · rw [update_self, SpinPc.stxr.injEq] at hw2
    exact hw2.symm

/-- `stxr` fails. -/
lemma stxr_fails (h : s.Refines l) {w2 : BitVec 32} (hc : s.pc c = .stxr w2) :
    ({ s with nextTicket := s.nextTicket.clear c }.goto c .ldaxr).Refines l := by
  refine h.goto_before (by rw [hc]; trivial) trivial rfl ?_
  refine h.fresh.clear fun d hdc hd w2 hw2 => ?_
  rw [update_of_ne hdc] at hw2
  exact hd w2 hw2

/-- A cpu draws its ticket and is the last one of the queue. -/
lemma ask (h : s.Refines l) (hc : s.pc c = .stxr t) (ht : t = s.nextTicket.value + 1) :
    ({ s with nextTicket := .stored t }.goto c (.wait (t - 1))).Refines
      (FifoLock.step l (.ask c)) := by
  have hmem : c ∉ l.queue := h.not_mem (by rw [hc]; trivial)
  have hqueue : (FifoLock.step l (.ask c)).queue = l.queue ++ [c] := FifoLock.queue_ask
  constructor
  case nodup =>
    rw [hqueue]
    exact h.nodup.append (List.nodup_singleton c) (by simpa using hmem)
  case next =>
    rw [hqueue, List.length_append, List.length_singleton]
    change t = _
    rw [ht, h.next, BitVec.ofNat_add, add_assoc]
    rfl
  case holder =>
    intro d hd
    have hdc : d ≠ c := fun heq => hmem (heq ▸ mem_queue_of_holder hd)
    rw [pc_goto_of_ne hdc]
    exact h.holder d hd
  case waiting =>
    intro i d hi hd
    rw [hqueue] at hi
    rcases lt_or_ge i l.queue.length with hlt | hge
    · rw [List.getElem?_append_left hlt] at hi
      have hdc : d ≠ c := fun heq => hmem (heq ▸ List.mem_of_getElem? hi)
      rw [pc_goto_of_ne hdc]
      exact h.waiting i d hi hd
    · rw [List.getElem?_append_right hge, List.getElem?_singleton] at hi
      split_ifs at hi with h0
      · have hi' : i = l.queue.length := by omega
        cases hi
        rw [pc_goto_self, hi', ht, BitVec.add_sub_cancel, h.next]
        rfl
  case before =>
    intro d hd
    rw [hqueue, List.mem_append, List.mem_singleton, not_or] at hd
    rw [pc_goto_of_ne hd.2]
    exact h.before d hd.1
  case fresh => exact ExclusiveWord.fresh_stored

/-- The first one that waits finds its ticket in service. -/
lemma enter (h : s.Refines l) (hnext : l.holder = none ∧ l.waiting.head? = some c) :
    (s.goto c .inside).Refines (FifoLock.step l (.enter c)) := by
  have hqueue : (FifoLock.step l (.enter c)).queue = l.queue := FifoLock.queue_enter hnext
  constructor
  case nodup => rw [hqueue]; exact h.nodup
  case next => rw [hqueue]; exact h.next
  case holder =>
    intro d hd
    cases hd
    rw [pc_goto_self]
    exact ⟨trivial, by simp⟩
  case waiting =>
    intro i d hi hd
    rw [hqueue] at hi
    have hdc : d ≠ c := fun heq => hd (congrArg some heq.symm)
    rw [pc_goto_of_ne hdc]
    exact h.waiting i d hi (by simp [hnext.1])
  case before =>
    intro d hd
    rw [hqueue] at hd
    have hmem : c ∈ l.queue := by
      rw [FifoLock.State.queue, hnext.1]
      exact List.mem_of_head? hnext.2
    have hdc : d ≠ c := fun heq => hd (heq ▸ hmem)
    rw [pc_goto_of_ne hdc]
    exact h.before d hd
  case fresh => exact h.fresh_goto (by simp)

/-- The holder goes on to its store in `raw_spin_unlock`. -/
lemma goto_holds (h : s.Refines l) (hc : (s.pc c).Holds) (hpc : pc.Holds)
    (hset : ∀ t, pc = .set t → t = s.ticketInService) : (s.goto c pc).Refines l := by
  have hholder := h.holds_iff.1 hc
  constructor
  case nodup => exact h.nodup
  case next => exact h.next
  case holder =>
    intro d hd
    cases hholder.symm.trans hd
    rw [pc_goto_self]
    exact ⟨hpc, hset⟩
  case waiting =>
    intro i d hi hd
    have hdc : d ≠ c := fun heq => hd (heq ▸ hholder)
    rw [pc_goto_of_ne hdc]
    exact h.waiting i d hi hd
  case before =>
    intro d hd
    have hdc : d ≠ c := fun heq => hd (heq ▸ mem_queue_of_holder hholder)
    rw [pc_goto_of_ne hdc]
    exact h.before d hd
  case fresh =>
    refine h.fresh_goto fun w2 heq => ?_
    rw [heq] at hpc
    exact hpc

/-- The holder stores the next number, and leaves. -/
lemma leave (h : s.Refines l) (hc : s.pc c = .set t) :
    ({ s with ticketInService := t + 1 }.goto c .out).Refines (FifoLock.step l (.leave c)) := by
  have hholder : l.holder = some c := h.holds_iff.1 (by rw [hc]; trivial)
  have ht : t = s.ticketInService := (h.holder c hholder).2 t hc
  have hqueue : l.queue = c :: (FifoLock.step l (.leave c)).queue := FifoLock.queue_leave hholder
  have hnodup := h.nodup
  rw [hqueue, List.nodup_cons] at hnodup
  constructor
  case nodup => exact hnodup.2
  case next =>
    change s.nextTicket.value = t + 1 + _
    rw [h.next, ht, hqueue, List.length_cons, BitVec.ofNat_add, add_assoc,
      add_comm (1 : BitVec 32)]
    rfl
  case holder => nofun
  case waiting =>
    intro i d hi _
    have hdc : d ≠ c := fun heq => hnodup.1 (heq ▸ List.mem_of_getElem? hi)
    have hd : l.holder ≠ some d := fun heq => hdc (Option.some.inj (heq.symm.trans hholder))
    have hwait := h.waiting (i + 1) d (by rw [hqueue]; exact hi) hd
    rw [pc_goto_of_ne hdc]
    change s.pc d = .wait (t + 1 + _)
    rw [hwait, ht, BitVec.ofNat_add, add_assoc, add_comm (1 : BitVec 32)]
    rfl
  case before =>
    intro d hd
    by_cases hdc : d = c
    · rw [hdc, pc_goto_self]
      trivial
    · rw [pc_goto_of_ne hdc]
      exact h.before d fun hmem => hd (by
        rw [hqueue, List.mem_cons] at hmem
        exact hmem.resolve_left hdc)
  case fresh => exact h.fresh_goto nofun

end Refines

/-! ### Runs -/

section

variable [Fintype Cpu] (hcard : Fintype.card Cpu ≤ 2 ^ 32)

include hcard

lemma Refines.access (h : s.Refines l) (c : Cpu) (ok : Bool) :
    Along FifoLock.step FifoLock.Legal l (s.seen (.access c ok)) ∧
      (s.access c ok).Refines (exec FifoLock.step l (s.seen (.access c ok))) := by
  cases hpc : s.pc c with
  | out | inside =>
    simp only [SpinLock.access, seen, hpc]
    exact ⟨trivial, h⟩
  | ldaxr =>
    simp only [SpinLock.access, seen, hpc]
    exact ⟨trivial, h.ldaxr hpc⟩
  | stxr w2 =>
    simp only [SpinLock.access, seen, hpc]
    by_cases hok : s.nextTicket.CanStore c ok
    · have hmem : c ∉ l.queue := h.not_mem (by rw [hpc]; trivial)
      have hw2 : w2 = s.nextTicket.value + 1 := h.fresh c hok.1 w2 hpc
      rw [if_pos hok, if_pos hok]
      refine ⟨⟨⟨fun hc => hmem (mem_queue_of_holder hc), fun hc => hmem ?_⟩, trivial⟩,
        h.ask hpc hw2⟩
      exact List.mem_append_right _ hc
    · rw [if_neg hok, if_neg hok]
      exact ⟨trivial, h.stxr_fails hpc⟩
  | wait t =>
    simp only [SpinLock.access, seen, hpc]
    by_cases ht : t = s.ticketInService
    · have hnext := (h.wait_iff hcard hpc).1 ht
      rw [if_pos ht, if_pos ht]
      exact ⟨⟨hnext, trivial⟩, h.enter hnext⟩
    · rw [if_neg ht, if_neg ht]
      exact ⟨trivial, h⟩
  | get =>
    simp only [SpinLock.access, seen, hpc]
    refine ⟨trivial, h.goto_holds (by rw [hpc]; trivial) trivial ?_⟩
    rintro t heq
    cases heq
    rfl
  | set t =>
    simp only [SpinLock.access, seen, hpc]
    exact ⟨⟨h.holds_iff.1 (by rw [hpc]; trivial), trivial⟩, h.leave hpc⟩

/-- Each event is seen as what a lock that serves in order may do next. -/
lemma Refines.step (h : s.Refines l) (e : SpinEvent Cpu) :
    Along FifoLock.step FifoLock.Legal l (s.seen e) ∧
      (s.step e).Refines (exec FifoLock.step l (s.seen e)) := by
  cases e with
  | access c ok => exact h.access hcard c ok
  | lock c =>
    rw [SpinLock.step]
    split_ifs with hpc
    · exact ⟨trivial, h.goto_before (by rw [hpc]; trivial) trivial rfl (h.fresh_goto nofun)⟩
    · exact ⟨trivial, h⟩
  | unlock c =>
    rw [SpinLock.step]
    split_ifs with hpc
    · exact ⟨trivial, h.goto_holds (by rw [hpc]; trivial) trivial nofun⟩
    · exact ⟨trivial, h⟩

lemma run_refines (es : List (SpinEvent Cpu)) :
    Along FifoLock.step FifoLock.Legal FifoLock.free (trace step seen init es) ∧
      (exec step init es).Refines (exec FifoLock.step FifoLock.free (trace step seen init es)) :=
  trace_simulation (fun _ _ e h => h.step hcard e) init_refines

/-- At most one cpu has the lock, however the cpus take turns. -/
theorem raw_spin_lock_exclusive (es : List (SpinEvent Cpu)) {c d : Cpu}
    (hc : ((exec step init es).pc c).Holds) (hd : ((exec step init es).pc d).Holds) : c = d := by
  obtain ⟨-, h⟩ := run_refines hcard es
  exact Option.some.inj ((h.holds_iff.1 hc).symm.trans (h.holds_iff.1 hd))

/-- The cpus get the lock in the order in which they draw their tickets. A cpu that waits finds its
ticket in service when it is the first one and nobody has the lock. -/
theorem raw_spin_lock_fifo (es : List (SpinEvent Cpu)) :
    let s := exec step init es
    let seen := trace step seen init es
    let l := exec FifoLock.step FifoLock.free seen
    Along FifoLock.step FifoLock.Legal FifoLock.free seen ∧
      FifoLock.entered seen ++ l.waiting = FifoLock.asked seen ∧
      (∀ c, (s.pc c).Holds ↔ l.holder = some c) ∧
      ∀ c t, s.pc c = .wait t →
        (t = s.ticketInService ↔ l.holder = none ∧ l.waiting.head? = some c) := by
  obtain ⟨hlegal, h⟩ := run_refines hcard es
  exact ⟨hlegal, FifoLock.entered_append_waiting hlegal, fun c => h.holds_iff,
    fun c t hpc => h.wait_iff hcard hpc⟩

end

/-- Two cpus draw tickets, the second one after a `stxr` that fails, and the first one enters. -/
def contended : List (SpinEvent (Fin 2)) :=
  [.lock 0, .lock 1, .access 1 true, .access 0 true, .access 0 true, .access 1 true, .access 1 true,
    .access 1 true, .access 1 true, .access 0 true]

theorem raw_spin_lock_exclusive_two :
    ((exec step init contended).pc 0).Holds ∧ ¬ ((exec step init contended).pc 1).Holds := by
  have h0 : ((exec step init contended).pc 0).Holds := by decide
  refine ⟨h0, fun h1 => ?_⟩
  have := raw_spin_lock_exclusive (by simp) contended h0 h1
  exact absurd this (by decide)

theorem raw_spin_lock_fifo_two :
    FifoLock.entered (trace step seen init contended) ++
        (exec FifoLock.step FifoLock.free (trace step seen init contended)).waiting = [0, 1] :=
  (raw_spin_lock_fifo (by simp) contended).2.1

end SpinLock

end Minos.Core
