import Mathlib
import Minos.Lib.Run
import Minos.Core.TimerCover

/-!
# Which timers a pass calls

`mod_timer` stores the expiry time, takes a timer of another cpu off its list and puts it on the
list of its own cpu; `del_timer` takes a timer of its own cpu off the list and sets a flag for a
timer of another one. Each of these parts is done under one lock or is one store, and the parts of
calls on several cpus come in any order. A cpu reads `timer->timers` before it takes the lock, so
the lock can be that of a list on which the timer is no more.
-/

namespace Minos.Core

open Function ListCursor Run

/-- The parts of calls and of passes. `k` is the cpu whose lock is taken. -/
inductive TimerEvent where
  | setExpires (t : ℕ) (expires : BitVec 64)
  | migrate (cpu k t : ℕ)
  | modTimerOn (cpu k t : ℕ)
  | detachTimer (k t : ℕ)
  | setDelRequest (t : ℕ)
  | passBegin (cpu : ℕ) (now : BitVec 64)
  | passStep (cpu : ℕ)
deriving DecidableEq

/-- The timers, with those that were armed and neither called nor deleted since, and for each pass
the due timers that it still has to call. -/
structure TimerLog where
  timers : Timers
  live : ℕ → Bool
  owed : ℕ → List ℕ

namespace TimerLog

variable (s : TimerLog)

/-- A timer is armed or deleted, and no pass owes it a call. -/
def touch (t : ℕ) (timers : Timers) (live : Bool) : TimerLog where
  timers
  live := update s.live t live
  owed := fun c => (s.owed c).filter (· ≠ t)

/-- The timer that a step of a pass calls -/
def called (cpu : ℕ) : Option ℕ :=
  match s.timers.pass cpu with
  | some ⟨now, _, _, .checked t⟩ => if s.timers.Due now t then some t else none
  | _ => none

def step (s : TimerLog) : TimerEvent → TimerLog
  | .setExpires t e => s.touch t (s.timers.setExpires t e) (s.live t)
  | .migrate cpu k t =>
    if s.timers.Locked k then s else s.touch t (s.timers.migrate cpu t) false
  | .modTimerOn cpu k t =>
    if s.timers.Locked k then s else s.touch t (s.timers.modTimerOn cpu k t) true
  | .detachTimer k t =>
    if s.timers.Locked k then s else s.touch t (s.timers.detachTimer t) false
  | .setDelRequest t => s.touch t (s.timers.setDelRequest t) false
  | .passBegin cpu now =>
    if s.timers.pass cpu = none then { s with
      timers := s.timers.passBegin cpu now
      owed := update s.owed cpu
        ((s.timers.active cpu).filter fun t => s.live t ∧ s.timers.Due now t) }
    else s
  | .passStep cpu =>
    match s.called cpu with
    | some t => s.touch t (s.timers.passStep cpu) false
    | none => { s with timers := s.timers.passStep cpu }

/-- `init_timers` -/
def init (expires : ℕ → BitVec 64) (cpu : ℕ → ℕ) (delRequest : ℕ → Bool) : TimerLog :=
  ⟨Timers.init expires cpu delRequest, fun _ => false, fun _ => []⟩

/-- Only live timers are called, and a pass that comes to its end has called all it had to. -/
structure FireOk (s : TimerLog) (e : TimerEvent) : Prop where
  call : ∀ cpu t, e = .passStep cpu → s.called cpu = some t → s.live t = true
  owed : ∀ cpu, e = .passStep cpu → s.timers.pass cpu ≠ none →
    (s.step e).timers.pass cpu = none → s.owed cpu = []

/-- A timer that is deleted or armed again is not the entry that a pass comes to next, unless it
comes back to the same place at the end of the list, and the lock is that of its list. No request to
delete a timer comes between the look of a pass at the request and the call. -/
def Orderly (s : TimerLog) : TimerEvent → Prop
  | .migrate _ k t | .detachTimer k t => (∀ j ∈ s.timers.listOf t, k = j) ∧
      ∀ p ∈ s.timers.pass k, p.next ≠ .timer t
  | .modTimerOn _ k t => (∀ j ∈ s.timers.listOf t, k = j) ∧
      ∀ p ∈ s.timers.pass k, p.next = .timer t → (s.timers.active k).getLast? = some t
  | .setDelRequest t => ∀ cpu, ∀ p ∈ s.timers.pass cpu, p.phase ≠ .checked t
  | .setExpires _ _ | .passBegin _ _ | .passStep _ => True

/-- What a pass knows of the timers of its list. -/
structure PassInv (s : TimerLog) (cpu : ℕ) (p : TimerPass) : Prop where
  next : p.next = .head cpu ∨ ∃ t ∈ s.timers.active cpu, p.next = .timer t
  checked : ∀ t, p.phase = .checked t → t ∈ s.timers.active cpu ∧
    s.timers.delRequest t = false ∧ p.next ≠ .timer t
  owed : ∀ t ∈ s.owed cpu, s.live t = true ∧ s.timers.Due p.now t ∧
    (t ∈ rest (s.timers.active cpu) p.cursor ∨ p.phase = .checked t)

/-- A timer is live if it is on a list without a request to delete it. -/
structure Inv (s : TimerLog) : Prop where
  wf : ∀ k, s.timers.WfAt k
  live : ∀ t, s.live t = true ↔ s.timers.timerPending t = true ∧ s.timers.delRequest t = false
  pass : ∀ cpu p, s.timers.pass cpu = some p → s.PassInv cpu p

variable {s} {cpu k t : ℕ} {p : TimerPass}

lemma init_inv (expires : ℕ → BitVec 64) (cpu : ℕ → ℕ) (delRequest : ℕ → Bool) :
    (init expires cpu delRequest).Inv where
  wf _ := ⟨List.nodup_nil, fun _ => by simp [init, Timers.init]⟩
  live t := by simp [init, Timers.init, Timers.timerPending]
  pass c p hp := by cases hp

lemma mem_touch {timers : Timers} {live : Bool} {u : ℕ} :
    u ∈ (s.touch t timers live).owed cpu ↔ u ∈ s.owed cpu ∧ u ≠ t := by
  simp [touch]

lemma called_eq_some : s.called cpu = some t ↔
    ∃ p, s.timers.pass cpu = some p ∧ p.phase = .checked t ∧ s.timers.Due p.now t := by
  rw [called]
  cases hp : s.timers.pass cpu with
  | none => simp
  | some p =>
    obtain ⟨now, next, expires, phase⟩ := p
    cases phase with
    | scan => simp
    | handler u => simp
    | checked u =>
      simp only [Option.ite_none_right_eq_some, Option.some.injEq]
      constructor
      · rintro ⟨hdue, rfl⟩
        exact ⟨_, rfl, rfl, hdue⟩
      · rintro ⟨_, rfl, hphase, hdue⟩
        obtain rfl := TimerPhase.checked.inj hphase
        exact ⟨hdue, rfl⟩

/-! ### Lists that change -/

/-- A list that a pass has before it loses a timer that the pass is not at. -/
lemma PassInv.erase (h : s.PassInv cpu p) (hwf : s.timers.WfAt cpu) {s' : TimerLog}
    (hactive : s'.timers.active cpu = (s.timers.active cpu).erase t)
    (hexp : ∀ u, u ≠ t → s'.timers.expires u = s.timers.expires u)
    (hdel : ∀ u, u ≠ t → s'.timers.delRequest u = s.timers.delRequest u)
    (hlive : ∀ u, u ≠ t → s'.live u = s.live u) (howed : ∀ u ∈ s'.owed cpu, u ∈ s.owed cpu ∧ u ≠ t)
    (hnext : p.next ≠ .timer t) (hphase : p.phase ≠ .checked t) : s'.PassInv cpu p where
  next := by
    refine h.next.imp_right fun ⟨u, hu, hpu⟩ => ⟨u, ?_, hpu⟩
    rw [hactive]
    exact hwf.nodup.mem_erase_iff.2 ⟨fun hut => hnext (hut ▸ hpu), hu⟩
  checked u hu := by
    obtain ⟨hmem, hd, hn⟩ := h.checked u hu
    have hut : u ≠ t := fun hut => hphase (hut ▸ hu)
    rw [hactive, hdel u hut]
    exact ⟨hwf.nodup.mem_erase_iff.2 ⟨hut, hmem⟩, hd, hn⟩
  owed u hu := by
    obtain ⟨hu, hut⟩ := howed u hu
    obtain ⟨hl, hdue, hrest⟩ := h.owed u hu
    rw [hlive u hut, Timers.Due, hexp u hut, hactive]
    refine ⟨hl, hdue, hrest.imp_left fun hr => mem_rest_erase (fun hc => hnext ?_) hr hut⟩
    exact Timers.next_of_cursor hc

/-- A timer is put at the end of the list of `k`. -/
lemma PassInv.append (h : s.PassInv cpu p) (hwf : s.timers.WfAt cpu) {s' : TimerLog}
    (hactive : s'.timers.active cpu = (s.timers.active cpu).erase t ++ if cpu = k then [t] else [])
    (hexp : s'.timers.expires = s.timers.expires)
    (hdel : ∀ u, u ≠ t → s'.timers.delRequest u = s.timers.delRequest u)
    (hlive : ∀ u, u ≠ t → s'.live u = s.live u) (howed : ∀ u ∈ s'.owed cpu, u ∈ s.owed cpu ∧ u ≠ t)
    (hnext : p.next = .timer t → cpu = k ∧ (s.timers.active cpu).getLast? = some t)
    (hphase : p.phase ≠ .checked t) : s'.PassInv cpu p := by
  by_cases hcur : p.next = .timer t
  · obtain ⟨rfl, hlast⟩ := hnext hcur
    rw [if_pos rfl, erase_append_of_getLast hwf.nodup hlast] at hactive
    refine ⟨by rw [hactive]; exact h.next, fun u hu => ?_, fun u hu => ?_⟩
    · rw [hactive, hdel u fun hut => hphase (hut ▸ hu)]
      exact h.checked u hu
    · obtain ⟨hu, hut⟩ := howed u hu
      rw [hactive, hlive u hut, Timers.Due, hexp]
      exact h.owed u hu
  · refine ⟨?_, fun u hu => ?_, fun u hu => ?_⟩
    · refine h.next.imp_right fun ⟨u, hu, hpu⟩ => ⟨u, ?_, hpu⟩
      rw [hactive]
      exact List.mem_append_left _ (hwf.nodup.mem_erase_iff.2 ⟨fun hut => hcur (hut ▸ hpu), hu⟩)
    · obtain ⟨hmem, hd, hn⟩ := h.checked u hu
      have hut : u ≠ t := fun hut => hphase (hut ▸ hu)
      rw [hactive, hdel u hut]
      exact ⟨List.mem_append_left _ (hwf.nodup.mem_erase_iff.2 ⟨hut, hmem⟩), hd, hn⟩
    · obtain ⟨hu, hut⟩ := howed u hu
      obtain ⟨hl, hdue, hrest⟩ := h.owed u hu
      rw [hlive u hut, Timers.Due, hexp, hactive]
      refine ⟨hl, hdue, hrest.imp_left fun hr => mem_rest_append_left (mem_rest_erase ?_ hr hut)⟩
      exact fun hc => hcur (Timers.next_of_cursor hc)

/-! ### Calls -/

lemma Inv.listOf_next (h : s.Inv) (hp : s.timers.pass cpu = some p) (hnext : p.next = .timer t) :
    s.timers.listOf t = some cpu := by
  rcases (h.pass cpu p hp).next with hhead | ⟨u, hu, hu'⟩
  · rw [hhead] at hnext
    cases hnext
  · obtain rfl : u = t := TimerEntry.timer.inj (hu'.symm.trans hnext)
    exact ((h.wf cpu).listOf u).1 hu

lemma Inv.listOf_checked (h : s.Inv) (hp : s.timers.pass cpu = some p)
    (hphase : p.phase = .checked t) : s.timers.listOf t = some cpu :=
  ((h.wf cpu).listOf t).1 ((h.pass cpu p hp).checked t hphase).1

/-- Under the lock of its list no pass is between the look at a timer and its call. -/
lemma Inv.phase_ne (h : s.Inv) (hl : ¬ s.timers.Locked k)
    (hk : ∀ j, s.timers.listOf t = some j → k = j) (hp : s.timers.pass cpu = some p) :
    p.phase ≠ .checked t := by
  intro hphase
  obtain rfl := hk cpu (h.listOf_checked hp hphase)
  exact hl ⟨p, hp, fun u hu => by rw [hphase] at hu; cases hu⟩

/-- A timer leaves its list under the lock of the list. -/
lemma Inv.takeOff (h : s.Inv) {timers : Timers} (hwf : ∀ c, timers.WfAt c)
    (hactive : ∀ c, timers.active c = (s.timers.active c).erase t)
    (hlist : timers.listOf = update s.timers.listOf t none)
    (hexp : timers.expires = s.timers.expires)
    (hdel : ∀ u, u ≠ t → timers.delRequest u = s.timers.delRequest u)
    (hpass : timers.pass = s.timers.pass) (hl : ¬ s.timers.Locked k)
    (hk : ∀ j, s.timers.listOf t = some j → k = j)
    (hnext : ∀ p ∈ s.timers.pass k, p.next ≠ .timer t) : (s.touch t timers false).Inv where
  wf := hwf
  live u := by
    change update s.live t false u = true ↔
      (timers.listOf u).isSome = true ∧ timers.delRequest u = false
    by_cases hu : u = t
    · subst hu
      rw [update_self, hlist, update_self]
      simp
    · rw [update_of_ne hu, hlist, update_of_ne hu, hdel u hu]
      exact h.live u
  pass c p hp := by
    change timers.pass c = some p at hp
    rw [hpass] at hp
    refine (h.pass c p hp).erase (h.wf c) (hactive c) (fun u _ => by rw [← hexp]; rfl) hdel
      (fun u hu => update_of_ne hu ..) (fun u hu => mem_touch.1 hu) (fun hn => ?_)
      (h.phase_ne hl hk hp)
    obtain rfl := hk c (h.listOf_next hp hn)
    exact hnext p hp hn

lemma Inv.detachTimer (h : s.Inv) (hl : ¬ s.timers.Locked k)
    (hs : s.Orderly (.detachTimer k t)) : (s.touch t (s.timers.detachTimer t) false).Inv := by
  refine h.takeOff (fun c => (h.wf c).detachTimer t) (fun c => (h.wf c).active_detachTimer t)
    (Timers.listOf_detachTimer t) ?_ (fun u hu => Timers.detachTimer_delRequest_of_ne hu) ?_ hl hs.1
    hs.2
  · rw [Timers.detachTimer_eq, Timers.listDel_eq]
  · rw [Timers.detachTimer_eq, Timers.listDel_eq]

lemma Inv.migrate (h : s.Inv) (hl : ¬ s.timers.Locked k)
    (hs : s.Orderly (.migrate cpu k t)) : (s.touch t (s.timers.migrate cpu t) false).Inv := by
  refine h.takeOff (fun c => (h.wf c).migrate cpu t) (fun c => (h.wf c).active_detachTimer t)
    (Timers.listOf_detachTimer t) ?_ (fun u hu => Timers.detachTimer_delRequest_of_ne hu) ?_ hl hs.1
    hs.2
  · rw [Timers.migrate, Timers.detachTimer_eq, Timers.listDel_eq]
  · rw [Timers.migrate, Timers.detachTimer_eq, Timers.listDel_eq]

lemma Inv.modTimerOn (h : s.Inv) (hl : ¬ s.timers.Locked k)
    (hs : s.Orderly (.modTimerOn cpu k t)) :
    (s.touch t (s.timers.modTimerOn cpu k t) true).Inv where
  wf c := (h.wf c).modTimerOn cpu k t
  live u := by
    have hlist : (s.timers.modTimerOn cpu k t).listOf = update s.timers.listOf t (some k) := by
      rw [Timers.modTimerOn, Timers.reprogram_eq]
      change update (Timers.detachTimer _ t).listOf t (some k) = _
      rw [Timers.listOf_detachTimer, update_idem]
    change update s.live t true u = true ↔ ((s.timers.modTimerOn cpu k t).listOf u).isSome = true ∧
      (s.timers.modTimerOn cpu k t).delRequest u = false
    have hdel : (s.timers.modTimerOn cpu k t).delRequest =
        update (s.timers.detachTimer t).delRequest t false := by
      rw [Timers.modTimerOn, Timers.reprogram_eq]
      rfl
    rw [hlist, hdel]
    by_cases hu : u = t
    · subst hu
      rw [update_self, update_self, update_self]
      simp
    · rw [update_of_ne hu, update_of_ne hu, update_of_ne hu,
        Timers.detachTimer_delRequest_of_ne hu]
      exact h.live u
  pass c p hp := by
    have hpass : (s.timers.modTimerOn cpu k t).pass = s.timers.pass := by rw [Timers.modTimerOn_eq]
    change (s.timers.modTimerOn cpu k t).pass c = some p at hp
    rw [hpass] at hp
    refine (h.pass c p hp).append (k := k) (h.wf c) ((h.wf c).active_modTimerOn cpu k t) ?_
      (fun u hu => ?_) (fun u hu => update_of_ne hu ..) (fun u hu => mem_touch.1 hu) (fun hn => ?_)
      (h.phase_ne hl hs.1 hp)
    · change (s.timers.modTimerOn cpu k t).expires = _
      rw [Timers.modTimerOn_eq]
    · change (s.timers.modTimerOn cpu k t).delRequest u = _
      rw [Timers.modTimerOn, Timers.reprogram_eq]
      exact (update_of_ne hu ..).trans (Timers.detachTimer_delRequest_of_ne hu)
    · obtain rfl := hs.1 c (h.listOf_next hp hn)
      exact ⟨rfl, hs.2 p hp hn⟩

lemma Inv.setExpires (h : s.Inv) (e : BitVec 64) :
    (s.touch t (s.timers.setExpires t e) (s.live t)).Inv where
  wf c := ⟨(h.wf c).nodup, (h.wf c).listOf⟩
  live u := by
    change update s.live t (s.live t) u = true ↔ _
    rw [update_eq_self]
    exact h.live u
  pass c p hp := by
    obtain ⟨hnext, hchecked, howed⟩ := h.pass c p hp
    refine ⟨hnext, hchecked, fun u hu => ?_⟩
    obtain ⟨hu, hut⟩ := mem_touch.1 hu
    change update s.live t (s.live t) u = true ∧ update s.timers.expires t e u ≤ _ ∧ _
    rw [update_eq_self, update_of_ne hut]
    exact howed u hu

lemma Inv.setDelRequest (h : s.Inv) (hs : s.Orderly (.setDelRequest t)) :
    (s.touch t (s.timers.setDelRequest t) false).Inv where
  wf c := ⟨(h.wf c).nodup, (h.wf c).listOf⟩
  live u := by
    change update s.live t false u = true ↔ _ ∧ update s.timers.delRequest t true u = false
    by_cases hu : u = t
    · subst hu
      rw [update_self, update_self]
      simp
    · rw [update_of_ne hu, update_of_ne hu]
      exact h.live u
  pass c p hp := by
    obtain ⟨hnext, hchecked, howed⟩ := h.pass c p hp
    refine ⟨hnext, fun u hu => ?_, fun u hu => ?_⟩
    · have hut : u ≠ t := fun hut => hs c p hp (hut ▸ hu)
      change _ ∧ update s.timers.delRequest t true u = false ∧ _
      rw [update_of_ne hut]
      exact hchecked u hu
    · obtain ⟨hu, hut⟩ := mem_touch.1 hu
      change update s.live t false u = true ∧ _
      rw [update_of_ne hut]
      exact howed u hu

/-! ### Steps of a pass -/

/-- A pass goes on with other variables. -/
lemma inv_setPass (hwf : ∀ k, s.timers.WfAt k)
    (hlive : ∀ t, s.live t = true ↔ s.timers.timerPending t = true ∧ s.timers.delRequest t = false)
    (hother : ∀ c, c ≠ cpu → ∀ q, s.timers.pass c = some q → s.PassInv c q)
    (hp : s.PassInv cpu p) : { s with timers := s.timers.setPass cpu p }.Inv where
  wf c := ⟨(hwf c).nodup, (hwf c).listOf⟩
  live := hlive
  pass c q hq := by
    by_cases hc : c = cpu
    · subst hc
      obtain rfl : p = q := Option.some.inj ((Timers.pass_setPass c p).symm.trans hq)
      exact ⟨hp.next, hp.checked, hp.owed⟩
    · have hq' : s.timers.pass c = some q := by
        rw [← hq]
        exact (update_of_ne hc ..).symm
      have h := hother c hc q hq'
      exact ⟨h.next, h.checked, h.owed⟩

lemma Inv.passBegin (h : s.Inv) (now : BitVec 64) :
    (s.step (.passBegin cpu now)).Inv := by
  rw [step]
  split_ifs with hnone
  · refine inv_setPass (s := { s with owed := update s.owed cpu _ }) h.wf h.live
      (fun c hc q hq => ?_)
      ⟨?_, nofun, fun t ht => ?_⟩
    · have hpass := h.pass c q hq
      refine ⟨hpass.next, hpass.checked, fun t ht => hpass.owed t ?_⟩
      change t ∈ update s.owed cpu _ c at ht
      rwa [update_of_ne hc] at ht
    · cases hl : s.timers.active cpu with
      | nil => exact .inl rfl
      | cons t l => exact .inr ⟨t, List.mem_cons_self, rfl⟩
    · change t ∈ update s.owed cpu _ cpu at ht
      rw [update_self, List.mem_filter, decide_eq_true_eq] at ht
      refine ⟨ht.2.1, ht.2.2, .inl ?_⟩
      rw [Timers.cursor_elim, rest_head?]
      exact ht.1
  · exact h

/-- A timer that leaves the list of a pass concerns no other pass. -/
lemma Inv.other (h : s.Inv) (ht : s.timers.listOf t = some cpu) {s' : TimerLog}
    (hactive : ∀ c, s'.timers.active c = (s.timers.active c).erase t)
    (hexp : ∀ u, u ≠ t → s'.timers.expires u = s.timers.expires u)
    (hdel : s'.timers.delRequest = s.timers.delRequest)
    (hlive : ∀ u, u ≠ t → s'.live u = s.live u)
    (howed : ∀ c, ∀ u ∈ s'.owed c, u ∈ s.owed c ∧ u ≠ t) (c : ℕ) (hc : c ≠ cpu)
    (hp : s.timers.pass c = some p) : s'.PassInv c p := by
  refine (h.pass c p hp).erase (h.wf c) (hactive c) hexp (fun u _ => by rw [hdel]) hlive (howed c)
    (fun hn => hc ?_) fun hn => hc ?_
  · exact Option.some.inj ((h.listOf_next hp hn).symm.trans ht)
  · exact Option.some.inj ((h.listOf_checked hp hn).symm.trans ht)

lemma Inv.passCall (h : s.Inv) (hp : s.timers.pass cpu = some p) (hphase : p.phase = .checked t) :
    (s.touch t ((s.timers.listDel t).setPass cpu { p with phase := .handler t }) false).Inv := by
  have ht := h.listOf_checked hp hphase
  have hpass := h.pass cpu p hp
  have hactive : ∀ c, (s.timers.listDel t).active c = (s.timers.active c).erase t :=
    fun c => (h.wf c).active_listDel t
  have hexp : (s.timers.listDel t).expires = s.timers.expires := by rw [Timers.listDel_eq]
  have hdel : (s.timers.listDel t).delRequest = s.timers.delRequest := by rw [Timers.listDel_eq]
  refine inv_setPass (s := s.touch t (s.timers.listDel t) false) (fun c => (h.wf c).listDel t)
    (fun u => ?_) (fun c hc q hq => ?_) ⟨?_, nofun, fun u hu => ?_⟩
  · change update s.live t false u = true ↔
      ((s.timers.listDel t).listOf u).isSome = true ∧ (s.timers.listDel t).delRequest u = false
    rw [Timers.listOf_listDel, hdel]
    by_cases hu : u = t
    · subst hu
      rw [update_self, update_self]
      simp
    · rw [update_of_ne hu, update_of_ne hu]
      exact h.live u
  · have hq' : s.timers.pass c = some q := by
      rw [← hq]
      change _ = (s.timers.listDel t).pass c
      rw [Timers.listDel_eq]
    exact h.other ht hactive (fun u _ => by rw [← hexp]; rfl) hdel (fun u hu => update_of_ne hu ..)
      (fun c u hu => mem_touch.1 hu) c hc hq'
  · refine hpass.next.imp_right fun ⟨u, hu, hpu⟩ => ⟨u, ?_, hpu⟩
    change u ∈ (s.timers.listDel t).active cpu
    rw [hactive]
    refine (h.wf cpu).nodup.mem_erase_iff.2 ⟨fun hut => ?_, hu⟩
    exact (hpass.checked t hphase).2.2 (hut ▸ hpu)
  · obtain ⟨hu, hut⟩ := mem_touch.1 hu
    obtain ⟨hl, hdue, hrest⟩ := hpass.owed u hu
    change update s.live t false u = true ∧ (s.timers.listDel t).expires u ≤ _ ∧
      (u ∈ rest ((s.timers.listDel t).active cpu) _ ∨ _)
    rw [update_of_ne hut, hexp, hactive]
    refine ⟨hl, hdue,
      .inl (mem_rest_erase (fun hc => ?_) (hrest.resolve_right fun hc => hut ?_) hut)⟩
    · exact (hpass.checked t hphase).2.2 (Timers.next_of_cursor hc)
    · exact TimerPhase.checked.inj (hc.symm.trans hphase)

/-- A pass goes on after a function, or after a timer that is not due. -/
lemma Inv.passCount (h : s.Inv) (hp : s.timers.pass cpu = some p)
    (hphase : ∀ u, p.phase = .checked u → ¬ s.timers.Due p.now u) :
    { s with timers := s.timers.passCount cpu p t }.Inv := by
  have hpass := h.pass cpu p hp
  refine inv_setPass h.wf h.live (fun c _ q hq => h.pass c q hq) ⟨hpass.next, nofun, fun u hu => ?_⟩
  obtain ⟨hl, hdue, hrest⟩ := hpass.owed u hu
  exact ⟨hl, hdue, .inl (hrest.resolve_right fun hc => hphase u hc hdue)⟩

/-- What is before a pass that has looked at a timer. -/
lemma next_of_timer (hwf : s.timers.WfAt cpu)
    (ht : t ∈ s.timers.active cpu) :
    (s.timers.entryNext t = .head cpu ∨
      ∃ u ∈ s.timers.active cpu, u ≠ t ∧ s.timers.entryNext t = .timer u) ∧
    ∀ phase, TimerPass.cursor { p with next := s.timers.entryNext t, phase } =
      ListCursor.next (s.timers.active cpu) t := by
  rw [hwf.entryNext ht]
  refine ⟨?_, fun phase => Timers.cursor_elim _ _ _ _ _⟩
  cases hn : ListCursor.next (s.timers.active cpu) t with
  | none => exact .inl rfl
  | some u =>
    obtain ⟨hu, hut⟩ := mem_of_next hwf.nodup ht hn
    exact .inr ⟨u, hu, hut, rfl⟩

lemma Inv.passLook (h : s.Inv) (hp : s.timers.pass cpu = some p) (hphase : p.phase = .scan) :
    { s with timers := s.timers.passLook cpu p }.Inv := by
  have hpass := h.pass cpu p hp
  rw [Timers.passLook]
  rcases hpass.next with hnext | ⟨t, ht, hnext⟩
  · -- the end of the pass
    rw [hnext]
    simp only [if_true, Timers.passEnd]
    split_ifs
    all_goals
      refine ⟨fun c => ⟨(h.wf c).nodup, (h.wf c).listOf⟩, h.live, fun c q hq => ?_⟩
      change update s.timers.pass cpu none c = some q at hq
      by_cases hc : c = cpu
      · subst hc
        rw [update_self] at hq
        cases hq
      · rw [update_of_ne hc] at hq
        obtain ⟨hn, hch, ho⟩ := h.pass c q hq
        exact ⟨hn, hch, ho⟩
  · have hlist := ((h.wf cpu).listOf t).1 ht
    have hactive : ∀ c, (s.timers.listDel t).active c = (s.timers.active c).erase t :=
      fun c => (h.wf c).active_listDel t
    have hexp : (s.timers.listDel t).expires = s.timers.expires := by rw [Timers.listDel_eq]
    have hdel : (s.timers.listDel t).delRequest = s.timers.delRequest := by rw [Timers.listDel_eq]
    obtain ⟨hentry, hcursor⟩ := next_of_timer (p := p) (h.wf cpu) ht
    have hrest : ∀ u ∈ s.owed cpu, u = t ∨ u ∈ rest (s.timers.active cpu)
        (next (s.timers.active cpu) t) := by
      intro u hu
      have hu := (hpass.owed u hu).2.2
      rw [TimerPass.cursor, hnext, rest_next (h.wf cpu).nodup ht, List.mem_cons, hphase] at hu
      simpa using hu
    rw [hnext]
    simp only
    split_ifs with hreq
    · -- no call is owed to a timer that was deleted
      have hdead : s.live t = false := by
        rw [Bool.eq_false_iff]
        intro hl
        rw [((h.live t).1 hl).2] at hreq
        cases hreq
      have hne : ∀ c, ∀ q, s.timers.pass c = some q → ∀ u ∈ s.owed c, u ≠ t := by
        rintro c q hq u hu rfl
        have hl := ((h.pass c q hq).owed u hu).1
        rw [hdead] at hl
        cases hl
      have hset : ∀ u, u ≠ t →
          update (s.timers.listDel t).expires t (~~~0) u = s.timers.expires u :=
        fun u hu => by rw [update_of_ne hu, hexp]
      refine inv_setPass (s := { s with timers := (s.timers.listDel t).setExpires t (~~~0) })
        (fun c => ⟨((h.wf c).listDel t).nodup, ((h.wf c).listDel t).listOf⟩) (fun u => ?_)
        (fun c hc q hq => ?_) ⟨?_, fun u hu => ?_, fun u hu => ?_⟩
      · change s.live u = true ↔ ((s.timers.listDel t).listOf u).isSome = true ∧
          (s.timers.listDel t).delRequest u = false
        rw [Timers.listOf_listDel, hdel]
        by_cases hu : u = t
        · subst hu
          rw [update_self, hdead]
          simp
        · rw [update_of_ne hu]
          exact h.live u
      · have hq' : s.timers.pass c = some q := by
          rw [← hq]
          change _ = (s.timers.listDel t).pass c
          rw [Timers.listDel_eq]
        refine (h.pass c q hq').erase (h.wf c) (hactive c) hset (fun u _ => ?_) (fun _ _ => rfl)
          (fun u hu => ⟨hu, hne c q hq' u hu⟩) (fun hn => hc ?_) (fun hn => hc ?_)
        · change (s.timers.listDel t).delRequest u = _
          rw [hdel]
        · exact Option.some.inj ((h.listOf_next hq' hn).symm.trans hlist)
        · exact Option.some.inj ((h.listOf_checked hq' hn).symm.trans hlist)
      · refine hentry.imp_right ?_
        rintro ⟨u, hu, hut, hn⟩
        refine ⟨u, ?_, hn⟩
        change u ∈ (s.timers.listDel t).active cpu
        rw [hactive]
        exact (h.wf cpu).nodup.mem_erase_iff.2 ⟨hut, hu⟩
      · rw [hphase] at hu
        cases hu
      · obtain ⟨hl, hdue, -⟩ := hpass.owed u hu
        have hut := hne cpu p hp u hu
        change _ ∧ update (s.timers.listDel t).expires t (~~~0) u ≤ _ ∧
          (u ∈ rest ((s.timers.listDel t).active cpu) _ ∨ _)
        rw [hset u hut, hactive, hcursor]
        refine ⟨hl, hdue, .inl (mem_rest_erase (fun hc => ?_) ((hrest u hu).resolve_left hut) hut)⟩
        exact (mem_of_next (h.wf cpu).nodup ht hc).2 rfl
    · have hreq' : s.timers.delRequest t = false := Bool.not_eq_true _ ▸ hreq
      refine inv_setPass h.wf h.live (fun c _ q hq => h.pass c q hq)
          ⟨?_, fun u hu => ?_, fun u hu => ?_⟩
      · refine hentry.imp_right ?_
        rintro ⟨u, hu, -, hn⟩
        exact ⟨u, hu, hn⟩
      · obtain rfl := TimerPhase.checked.inj hu
        refine ⟨ht, hreq', fun hn => ?_⟩
        change s.timers.entryNext t = .timer t at hn
        rcases hentry with hentry | ⟨u, -, hut, hentry⟩
        · rw [hentry] at hn
          cases hn
        · exact hut (TimerEntry.timer.inj (hentry.symm.trans hn))
      · obtain ⟨hl, hdue, -⟩ := hpass.owed u hu
        refine ⟨hl, hdue, ?_⟩
        rw [hcursor]
        rcases hrest u hu with rfl | hr
        · exact .inr rfl
        · exact .inl hr

lemma Inv.passStep (h : s.Inv) : (s.step (.passStep cpu)).Inv := by
  rw [step]
  split
  · next t hcalled =>
    obtain ⟨p, hp, hphase, hdue⟩ := called_eq_some.1 hcalled
    have hstep : s.timers.passStep cpu =
        (s.timers.listDel t).setPass cpu { p with phase := .handler t } := by
      simp only [Timers.passStep, hp, hphase, Timers.passAct, if_pos hdue]
    rw [hstep]
    exact h.passCall hp hphase
  · next hcalled =>
    rw [Timers.passStep]
    split
    · exact h
    · next p hp =>
      have hdue : ∀ u, p.phase = .checked u → ¬ s.timers.Due p.now u := by
        intro u hu hdue
        rw [called_eq_some.2 ⟨p, hp, hu, hdue⟩] at hcalled
        cases hcalled
      split
      · next hphase => exact h.passLook hp hphase
      · next t hphase =>
        rw [Timers.passAct, if_neg (hdue t hphase)]
        exact h.passCount hp hdue
      · exact h.passCount hp hdue

lemma Inv.step (h : s.Inv) (e : TimerEvent) (hs : s.Orderly e) : (s.step e).Inv := by
  cases e with
  | setExpires t e => exact h.setExpires e
  | migrate cpu k t =>
    rw [TimerLog.step]
    split_ifs with hl
    · exact h
    · exact h.migrate hl hs
  | modTimerOn cpu k t =>
    rw [TimerLog.step]
    split_ifs with hl
    · exact h
    · exact h.modTimerOn hl hs
  | detachTimer k t =>
    rw [TimerLog.step]
    split_ifs with hl
    · exact h
    · exact h.detachTimer hl hs
  | setDelRequest t => exact h.setDelRequest hs
  | passBegin cpu now => exact h.passBegin now
  | passStep cpu => exact h.passStep

/-- What a step of a pass does with the timers that it still has to call. -/
lemma Inv.fireOk (h : s.Inv) (e : TimerEvent) : s.FireOk e where
  call cpu t _ hcalled := by
    obtain ⟨p, hp, hphase, -⟩ := called_eq_some.1 hcalled
    obtain ⟨hmem, hdel, -⟩ := (h.pass cpu p hp).checked t hphase
    exact (h.live t).2 ⟨(h.wf cpu).pending hmem, hdel⟩
  owed cpu he hp hend := by
    obtain ⟨p, hp⟩ := Option.ne_none_iff_exists'.1 hp
    subst he
    have hpass := h.pass cpu p hp
    have hstep : (s.timers.passStep cpu).pass cpu = none := by
      rw [TimerLog.step] at hend
      split at hend
      · exact hend
      · exact hend
    simp only [Timers.passStep, hp] at hstep
    split at hstep
    · next hphase =>
      rw [Timers.passLook] at hstep
      rcases hpass.next with hnext | ⟨t, ht, hnext⟩
      · refine List.eq_nil_iff_forall_not_mem.2 fun u hu => ?_
        have hrest := (hpass.owed u hu).2.2
        rw [TimerPass.cursor, hnext, hphase] at hrest
        simp at hrest
      · rw [hnext] at hstep
        simp only at hstep
        split_ifs at hstep
        · rw [Timers.pass_setPass] at hstep
          cases hstep
        · rw [Timers.pass_setPass] at hstep
          cases hstep
    · rw [Timers.passAct] at hstep
      split_ifs at hstep
      · rw [Timers.pass_setPass] at hstep
        cases hstep
      · rw [Timers.passCount, Timers.pass_setPass] at hstep
        cases hstep
    · rw [Timers.passCount, Timers.pass_setPass] at hstep
      cases hstep

end TimerLog

/-- Passes call live timers only and all that are due, in every interleaving in which no timer is
taken away from before a pass, or deleted between the look of a pass and the call. -/
theorem passes_call_live_timers (expires : ℕ → BitVec 64) (cpu : ℕ → ℕ) (delRequest : ℕ → Bool)
    (es : List TimerEvent)
    (hes : Along TimerLog.step TimerLog.Orderly (TimerLog.init expires cpu delRequest) es) :
    Along TimerLog.step TimerLog.FireOk (TimerLog.init expires cpu delRequest) es :=
  along_induction (I := TimerLog.Inv) (fun _ e h hs => h.step e hs) (fun _ e h _ => h.fireOk e)
    (TimerLog.init_inv expires cpu delRequest) hes

/-- `init_timers` for timers of the first cpu -/
def idleLog : TimerLog := ⟨idleTimers, fun _ => false, fun _ => []⟩

/-- The function of a timer deletes the timer and arms one that the pass then comes to. -/
theorem passes_call_live_timers_rearm :
    let es : List TimerEvent := [.setExpires 0 10, .modTimerOn 0 0 0, .setExpires 1 1000,
      .modTimerOn 0 0 1, .passBegin 0 5, .passStep 0, .passStep 0, .detachTimer 0 0,
      .setExpires 2 12, .modTimerOn 0 0 2]
    Along TimerLog.step TimerLog.Orderly idleLog es ∧
      Along TimerLog.step TimerLog.FireOk idleLog es := by
  intro es
  have hes : Along TimerLog.step TimerLog.Orderly idleLog es := by
    refine ⟨trivial, ⟨?_, ?_⟩, trivial, ⟨?_, ?_⟩, trivial, trivial, trivial, ⟨?_, ?_⟩, trivial,
      ⟨?_, ?_⟩, trivial⟩
    all_goals decide +kernel
  exact ⟨hes, passes_call_live_timers (fun _ => 0) (fun _ => 0) (fun _ => false) es hes⟩

/-- Two timers are due, and the function of the first one deletes the timer between them: the pass
ends without a call of the second one. -/
theorem pass_skips_timer :
    let es : List TimerEvent := [.setExpires 0 10, .modTimerOn 0 0 0, .setExpires 1 1000,
      .modTimerOn 0 0 1, .setExpires 2 10, .modTimerOn 0 0 2, .passBegin 0 5, .passStep 0,
        .passStep 0,
      .detachTimer 0 1, .passStep 0, .passStep 0, .passStep 0]
    let s := exec TimerLog.step idleLog es
    s.owed 0 = [2] ∧ s.timers.pass 0 ≠ none ∧ (s.step (.passStep 0)).timers.pass 0 = none ∧
      ¬ Along TimerLog.step TimerLog.FireOk idleLog (es ++ [.passStep 0]) := by
  intro es s
  have howed : s.owed 0 = [2] := by decide +kernel
  have hpass : s.timers.pass 0 ≠ none := by decide +kernel
  have hend : (s.step (.passStep 0)).timers.pass 0 = none := by decide +kernel
  refine ⟨howed, hpass, hend, fun h => ?_⟩
  have hok := (along_append.1 h).2.1.owed 0 rfl hpass hend
  rw [show (exec TimerLog.step idleLog es).owed 0 = [2] from howed] at hok
  cases hok

end Minos.Core
