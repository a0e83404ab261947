import Mathlib
import Minos.Lib.Run
import Minos.Core.Timer

/-!
# The hardware timer and the earliest timer of a cpu

`run_timer_softirq` takes the minimum of the timers it comes to, and programs the hardware for it.
What a function arms behind the cursor is not in the minimum, and `__mod_timer` compares with the
`running_expires` from before the pass. So the hardware can be late for a timer that the pass did
not see.
-/

namespace Minos.Core

open Function ListCursor Run

/-- What happens on one cpu: calls, and passes with their steps. Calls in a pass are of the function
that the pass waits for. -/
inductive CpuTimerEvent where
  | modTimer (t : ℕ) (expires : BitVec 64)
  | delTimer (t : ℕ)
  | passBegin (now : BitVec 64)
  | passStep
deriving DecidableEq

/-- The entry of a timer that a pass comes to next -/
def TimerPass.cursor (p : TimerPass) : Option ℕ :=
  match p.next with
  | .timer t => some t
  | _ => none

namespace Timers

def cpuStep (cpu : ℕ) (s : Timers) : CpuTimerEvent → Timers
  | .modTimer t expires => if s.Locked cpu then s else s.modTimer cpu t expires
  | .delTimer t => if s.Locked cpu then s else s.delTimer cpu t
  | .passBegin now => if s.pass cpu = none then s.passBegin cpu now else s
  | .passStep => s.passStep cpu

/-- The hardware timer fires no later than the earliest timer on the list expires. -/
def Covered (cpu : ℕ) (s : Timers) : Prop :=
  ∀ t ∈ s.active cpu, ∃ e ∈ s.enabled cpu, e ≤ s.expires t

instance (cpu : ℕ) (s : Timers) : Decidable (s.Covered cpu) :=
  inferInstanceAs (Decidable (∀ t ∈ s.active cpu, ∃ e ∈ s.enabled cpu, e ≤ s.expires t))

/-- No timer on the list of the cpu, and no pass -/
structure Fresh (cpu : ℕ) (s : Timers) : Prop where
  active : s.active cpu = []
  listOf : ∀ t, s.listOf t ≠ some cpu
  runningExpires : s.runningExpires cpu = 0
  pass : s.pass cpu = none

/-- The entry that a pass comes to next is not taken away from under it, and what the last function
of a pass arms is its own timer or no earlier than the others. Zero stands for no timer, and is not
an expiry time. -/
def Seen (cpu : ℕ) (s : Timers) : CpuTimerEvent → Prop
  | .modTimer t expires => expires ≠ 0 ∧ ∀ p ∈ s.pass cpu,
      (p.next = .timer t → (s.active cpu).getLast? = some t) ∧
      (p.next = .head cpu → p.phase = .handler t ∨ p.expires ≤ expires)
  | .delTimer t => ∀ p ∈ s.pass cpu, p.next ≠ .timer t
  | .passBegin _ | .passStep => True

instance (cpu : ℕ) (s : Timers) : (e : CpuTimerEvent) → Decidable (s.Seen cpu e)
  | .modTimer t expires => inferInstanceAs (Decidable (expires ≠ 0 ∧ ∀ p ∈ s.pass cpu,
      (p.next = .timer t → (s.active cpu).getLast? = some t) ∧
      (p.next = .head cpu → p.phase = .handler t ∨ p.expires ≤ expires)))
  | .delTimer t => inferInstanceAs (Decidable (∀ p ∈ s.pass cpu, p.next ≠ .timer t))
  | .passBegin _ | .passStep => inferInstanceAs (Decidable True)

/-- A pass has an entry of its list before it, and each timer of the list is before it, is in the
minimum or is the one that the pass is at. -/
structure Tracks (cpu : ℕ) (p : TimerPass) (s : Timers) : Prop where
  next : p.next = .head cpu ∨ ∃ t ∈ s.active cpu, p.next = .timer t
  expires : p.expires ≠ 0
  current : ∀ t, p.phase = .checked t ∨ p.phase = .handler t → ∀ k, s.listOf t = some k → k = cpu
  checked : ∀ t, p.phase = .checked t → p.next ≠ .timer t
  seen : ∀ t ∈ s.active cpu, t ∈ rest (s.active cpu) p.cursor ∨ p.expires ≤ s.expires t ∨
    p.phase = .checked t ∨ p.phase = .handler t

/-- `running_expires` is what the hardware was last programmed for, or zero. -/
structure CoverBase (cpu : ℕ) (s : Timers) : Prop where
  wf : s.WfAt cpu
  nonzero : ∀ t ∈ s.active cpu, s.expires t ≠ 0
  enabled : s.runningExpires cpu ≠ 0 → s.enabled cpu = some (s.runningExpires cpu)
  isSome : s.active cpu ≠ [] → s.enabled cpu ≠ none

/-- Outside a pass `running_expires` is before all timers, and zero only if none expires. -/
structure CoverInv (cpu : ℕ) (s : Timers) : Prop extends CoverBase cpu s where
  idle : s.pass cpu = none → ∀ t ∈ s.active cpu,
    s.runningExpires cpu ≤ s.expires t ∧ (s.runningExpires cpu = 0 → s.expires t = ~~~0)
  pass : ∀ p, s.pass cpu = some p → s.Tracks cpu p

variable {s : Timers} {cpu t : ℕ} {e : BitVec 64} {p : TimerPass}

lemma le_max (x : BitVec 64) : x ≤ ~~~0 := by
  have hmax : ~~~(0 : BitVec 64) = BitVec.allOnes 64 := rfl
  rw [hmax, BitVec.le_def, BitVec.toNat_allOnes]
  exact Nat.le_pred_of_lt x.isLt

lemma next_of_cursor (h : p.cursor = some t) : p.next = .timer t := by
  rw [TimerPass.cursor] at h
  split at h
  · next v hv => rw [hv, Option.some.inj h]
  · cases h

lemma max_ne_zero : ~~~(0 : BitVec 64) ≠ 0 := by decide

lemma zero_le (x : BitVec 64) : 0 ≤ x := by
  rw [BitVec.le_def]
  exact Nat.zero_le _

lemma eq_max_of_le {x : BitVec 64} (h : ~~~0 ≤ x) : x = ~~~0 := by
  have hmax : ~~~(0 : BitVec 64) = BitVec.allOnes 64 := rfl
  rw [hmax] at h ⊢
  exact BitVec.allOnes_le_iff.1 h

lemma Fresh.inv (h : s.Fresh cpu) : s.CoverInv cpu where
  wf := ⟨by rw [h.active]; exact List.nodup_nil, fun t => by simp [h.active, h.listOf t]⟩
  nonzero t ht := by simp [h.active] at ht
  enabled hne := absurd h.runningExpires hne
  isSome hne := absurd h.active hne
  idle _ t ht := by simp [h.active] at ht
  pass p hp := by simp [h.pass] at hp

/-- Outside a pass the invariant is about the hardware. -/
lemma CoverInv.covered (h : s.CoverInv cpu) (hp : s.pass cpu = none) : s.Covered cpu := by
  intro t ht
  obtain ⟨e, he⟩ := Option.ne_none_iff_exists'.1 (h.isSome (List.ne_nil_of_mem ht))
  refine ⟨e, he, ?_⟩
  obtain ⟨hle, hzero⟩ := h.idle hp t ht
  by_cases hrun : s.runningExpires cpu = 0
  · rw [hzero hrun]
    exact le_max e
  · obtain rfl : s.runningExpires cpu = e := Option.some.inj ((h.enabled hrun).symm.trans he)
    exact hle

/-! ### Calls -/

/-- A call in a pass is of a function that the pass waits for. -/
lemma not_locked (h : ¬ s.Locked cpu) (hp : s.pass cpu = some p) : ∃ t, p.phase = .handler t := by
  by_contra hne
  exact h ⟨p, hp, not_exists.1 hne⟩

/-- The state in which `mod_timer` comes to `__mod_timer` -/
def beforeModTimerOn (cpu t : ℕ) (expires : BitVec 64) (s : Timers) : Timers :=
  let s := s.setExpires t expires
  if s.cpu t ≠ cpu then s.migrate cpu t else s

lemma beforeModTimerOn_eq (cpu t : ℕ) (e : BitVec 64) : s.beforeModTimerOn cpu t e =
    { s.beforeModTimerOn cpu t e with
      expires := update s.expires t e
      runningExpires := s.runningExpires
      enabled := s.enabled
      pass := s.pass } := by
  rw [beforeModTimerOn]
  split_ifs
  · rw [migrate, detachTimer_eq, listDel_eq]
    rfl
  · rfl

lemma cpu_beforeModTimerOn (s : Timers) (cpu t : ℕ) (e : BitVec 64) :
    (s.beforeModTimerOn cpu t e).cpu t = cpu := by
  rw [beforeModTimerOn]
  split_ifs with h
  · exact update_self ..
  · exact not_not.1 h

lemma modTimer_eq : s.modTimer cpu t e = (s.beforeModTimerOn cpu t e).modTimerOn cpu cpu t := by
  have hcpu := cpu_beforeModTimerOn s cpu t e
  change (s.beforeModTimerOn cpu t e).modTimerOn cpu ((s.beforeModTimerOn cpu t e).cpu t) t = _
  rw [hcpu]

lemma WfAt.beforeModTimerOn (h : s.WfAt cpu) : (s.beforeModTimerOn cpu t e).WfAt cpu := by
  have hset : (s.setExpires t e).WfAt cpu := ⟨h.nodup, h.listOf⟩
  rw [Timers.beforeModTimerOn]
  split_ifs
  · exact hset.migrate cpu t
  · exact hset

/-- The timer leaves its list before it is appended. -/
lemma WfAt.erase_beforeModTimerOn (h : s.WfAt cpu) :
    ((s.beforeModTimerOn cpu t e).active cpu).erase t = (s.active cpu).erase t := by
  have hset : (s.setExpires t e).WfAt cpu := ⟨h.nodup, h.listOf⟩
  rw [Timers.beforeModTimerOn]
  split_ifs
  · refine (congrArg (List.erase · t) (hset.active_detachTimer t)).trans ?_
    exact List.erase_of_not_mem fun ht => (h.nodup.mem_erase_iff.1 ht).1 rfl
  · rfl

lemma WfAt.active_modTimer (h : s.WfAt cpu) :
    (s.modTimer cpu t e).active cpu = (s.active cpu).erase t ++ [t] := by
  rw [modTimer_eq, h.beforeModTimerOn.active_modTimerOn, if_pos rfl, h.erase_beforeModTimerOn]

/-- What `__mod_timer` leaves alone -/
lemma modTimerOn_eq (k : ℕ) : s.modTimerOn cpu k t =
    { s.modTimerOn cpu k t with expires := s.expires, pass := s.pass, cpu := s.cpu } := by
  rw [modTimerOn, reprogram_eq, detachTimer_eq, listDel_eq]
  rfl

lemma modTimer_expires : (s.modTimer cpu t e).expires = update s.expires t e := by
  rw [modTimer_eq, modTimerOn_eq, beforeModTimerOn_eq]

lemma modTimer_pass : (s.modTimer cpu t e).pass = s.pass := by
  rw [modTimer_eq, modTimerOn_eq, beforeModTimerOn_eq]

/-- How `__mod_timer` programs the hardware -/
lemma modTimer_running (s : Timers) (cpu t : ℕ) (e : BitVec 64) :
    ((e < s.runningExpires cpu ∨ s.runningExpires cpu = 0) ∧
      (s.modTimer cpu t e).runningExpires cpu = e ∧
      (s.modTimer cpu t e).enabled cpu = some e) ∨
    (¬ (e < s.runningExpires cpu ∨ s.runningExpires cpu = 0) ∧
      (s.modTimer cpu t e).runningExpires cpu = s.runningExpires cpu ∧
      (s.modTimer cpu t e).enabled cpu = s.enabled cpu) := by
  rw [modTimer_eq, beforeModTimerOn_eq, modTimerOn, detachTimer_eq, listDel_eq, reprogram]
  have hexp : update s.expires t e t = e := update_self ..
  simp only [listAddTail, hexp]
  split_ifs with h
  · exact .inl ⟨h, update_self .., update_self ..⟩
  · exact .inr ⟨h, rfl, rfl⟩

lemma modTimer_listOf : (s.modTimer cpu t e).listOf = update s.listOf t (some cpu) := by
  have hbefore : update (s.beforeModTimerOn cpu t e).listOf t none = update s.listOf t none := by
    rw [beforeModTimerOn]
    split_ifs
    · refine (congrArg (update · t none) (listOf_detachTimer t)).trans ?_
      exact update_idem ..
    · rfl
  rw [modTimer_eq, modTimerOn, reprogram_eq]
  change update (Timers.detachTimer _ t).listOf t (some cpu) = _
  rw [listOf_detachTimer, hbefore, update_idem]

lemma WfAt.mem_modTimer (h : s.WfAt cpu) {u : ℕ} :
    u ∈ (s.modTimer cpu t e).active cpu ↔ u = t ∨ u ≠ t ∧ u ∈ s.active cpu := by
  rw [h.active_modTimer, List.mem_append, h.nodup.mem_erase_iff, List.mem_singleton, or_comm]

/-- The pass goes on as before after a call. -/
lemma Tracks.modTimer (h : s.Tracks cpu p) (hwf : s.WfAt cpu) (hp : s.pass cpu = some p)
    (hl : ¬ s.Locked cpu) (hs : s.Seen cpu (.modTimer t e)) :
    (s.modTimer cpu t e).Tracks cpu p := by
  obtain ⟨r, hr⟩ := not_locked hl hp
  obtain ⟨hlast, hhead⟩ := hs.2 p hp
  refine ⟨?_, h.expires, fun u hu k hk => ?_, fun u hu => ?_, fun u hu => ?_⟩
  · refine h.next.imp_right fun ⟨u, hu, hnext⟩ => ⟨u, hwf.mem_modTimer.2 ?_, hnext⟩
    exact (eq_or_ne u t).imp_right fun hne => ⟨hne, hu⟩
  · rw [modTimer_listOf] at hk
    by_cases hut : u = t
    · subst hut
      rw [update_self] at hk
      exact (Option.some.inj hk).symm
    · rw [update_of_ne hut] at hk
      exact h.current u hu k hk
  · rw [hr] at hu
    cases hu
  · rw [modTimer_expires, hwf.active_modTimer]
    rcases hwf.mem_modTimer.1 hu with rfl | ⟨hne, hu⟩
    · rw [update_self]
      rcases h.next with hnext | ⟨v, hv, hnext⟩
      · rcases hhead hnext with hphase | hle
        · exact .inr (.inr (.inr hphase))
        · exact .inr (.inl hle)
      · have hcursor : p.cursor = some v := by rw [TimerPass.cursor, hnext]
        rw [hcursor]
        by_cases hvu : v = u
        · subst hvu
          rw [erase_append_of_getLast hwf.nodup (hlast hnext), rest_next hwf.nodup hv]
          exact .inl List.mem_cons_self
        · exact .inl (mem_rest_append_right (hwf.nodup.mem_erase_iff.2 ⟨hvu, hv⟩)
            List.mem_cons_self)
    · rw [update_of_ne hne]
      refine (h.seen u hu).imp_left fun hrest => ?_
      by_cases hcursor : p.cursor = some t
      · rwa [erase_append_of_getLast hwf.nodup (hlast (next_of_cursor hcursor))]
      · exact mem_rest_append_left (mem_rest_erase hcursor hrest hne)

lemma CoverInv.modTimer (h : s.CoverInv cpu) (hl : ¬ s.Locked cpu)
    (hs : s.Seen cpu (.modTimer t e)) : (s.modTimer cpu t e).CoverInv cpu where
  wf := by
    rw [modTimer_eq]
    exact h.wf.beforeModTimerOn.modTimerOn cpu cpu t
  nonzero u hu := by
    rw [modTimer_expires]
    rcases h.wf.mem_modTimer.1 hu with rfl | ⟨hne, hu⟩
    · rw [update_self]
      exact hs.1
    · rw [update_of_ne hne]
      exact h.nonzero u hu
  enabled hne := by
    rcases modTimer_running s cpu t e with
      ⟨-, hrun, hen⟩ | ⟨hcond, hrun, hen⟩
    · rw [hen, hrun]
    · rw [hen, hrun]
      exact h.enabled fun h0 => hcond (.inr h0)
  isSome _ := by
    rcases modTimer_running s cpu t e with
      ⟨-, -, hen⟩ | ⟨hcond, -, hen⟩
    · rw [hen]
      exact Option.some_ne_none e
    · rw [hen, h.enabled fun h0 => hcond (.inr h0)]
      exact Option.some_ne_none _
  idle hp u hu := by
    rw [modTimer_pass] at hp
    rw [modTimer_expires]
    rcases modTimer_running s cpu t e with
      ⟨hcond, hrun, -⟩ | ⟨hcond, hrun, -⟩
    · -- the timer is the earliest one now
      rw [hrun]
      refine ⟨?_, fun h0 => absurd h0 hs.1⟩
      rcases h.wf.mem_modTimer.1 hu with rfl | ⟨hne, hu⟩
      · rw [update_self]
        exact BitVec.le_refl e
      · rw [update_of_ne hne]
        obtain ⟨hle, hzero⟩ := h.idle hp u hu
        rcases hcond with hlt | h0
        · exact BitVec.le_trans (BitVec.le_of_lt hlt) hle
        · rw [hzero h0]
          exact le_max e
    · rw [hrun]
      rw [not_or, BitVec.not_lt] at hcond
      refine ⟨?_, fun h0 => absurd h0 hcond.2⟩
      rcases h.wf.mem_modTimer.1 hu with rfl | ⟨hne, hu⟩
      · rw [update_self]
        exact hcond.1
      · rw [update_of_ne hne]
        exact (h.idle hp u hu).1
  pass p hp := by
    rw [modTimer_pass] at hp
    exact (h.pass p hp).modTimer h.wf hp hl hs

/-- What `list_del` leaves alone for the other timers -/
lemma Tracks.detach (h : s.Tracks cpu p) (hwf : s.WfAt cpu) {s' : Timers} {phase : TimerPhase}
    (hactive : s'.active cpu = (s.active cpu).erase t) (hexp : s'.expires = s.expires)
    (hlist : s'.listOf = update s.listOf t none) (ht : p.next ≠ .timer t)
    (hphase : phase = p.phase ∨ phase = .handler t)
    (hcur : p.phase = .checked t ∨ phase = p.phase) :
    s'.Tracks cpu { p with phase } := by
  refine ⟨?_, h.expires, fun u hu k hk => ?_, fun u hu => ?_, fun u hu => ?_⟩
  · refine h.next.imp_right fun ⟨u, hu, hnext⟩ => ⟨u, ?_, hnext⟩
    rw [hactive]
    exact hwf.nodup.mem_erase_iff.2 ⟨fun hut => ht (hut ▸ hnext), hu⟩
  · rw [hlist] at hk
    by_cases hut : u = t
    · subst hut
      rw [update_self] at hk
      cases hk
    · rw [update_of_ne hut] at hk
      refine h.current u ?_ k hk
      rcases hphase with rfl | rfl
      · exact hu
      · rcases hu with hu | hu
        · cases hu
        · exact absurd (TimerPhase.handler.inj hu).symm hut
  · rcases hphase with rfl | rfl
    · exact h.checked u hu
    · cases hu
  · rw [hactive] at hu ⊢
    obtain ⟨hne, hu⟩ := hwf.nodup.mem_erase_iff.1 hu
    have hcursor : p.cursor ≠ some t := fun hc => ht (next_of_cursor hc)
    rw [hexp]
    rcases h.seen u hu with hrest | hle | hphase'
    · exact .inl (mem_rest_erase hcursor hrest hne)
    · exact .inr (.inl hle)
    · rcases hcur with hcur | rfl
      · rw [hcur] at hphase'
        rcases hphase' with hphase' | hphase'
        · exact absurd (TimerPhase.checked.inj hphase').symm hne
        · cases hphase'
      · exact .inr (.inr hphase')

/-- A timer leaves the list. -/
lemma CoverBase.erase (h : s.CoverBase cpu) {s' : Timers} (hwf : s'.WfAt cpu)
    (hactive : s'.active cpu = (s.active cpu).erase t)
    (hexp : ∀ u, u ≠ t → s'.expires u = s.expires u)
    (hrun : s'.runningExpires cpu = s.runningExpires cpu)
    (hen : s'.enabled cpu = s.enabled cpu) : s'.CoverBase cpu where
  wf := hwf
  nonzero u hu := by
    rw [hactive, h.wf.nodup.mem_erase_iff] at hu
    rw [hexp u hu.1]
    exact h.nonzero u hu.2
  enabled hne := by
    rw [hrun] at hne ⊢
    rw [hen]
    exact h.enabled hne
  isSome hne := by
    rw [hen]
    refine h.isSome fun hnil => hne ?_
    rw [hactive, hnil]
    rfl

lemma CoverInv.detachTimer (h : s.CoverInv cpu) (hs : s.Seen cpu (.delTimer t)) :
    (s.detachTimer t).CoverInv cpu := by
  have hexp : (s.detachTimer t).expires = s.expires := by rw [detachTimer_eq, listDel_eq]
  have hpass : (s.detachTimer t).pass = s.pass := by rw [detachTimer_eq, listDel_eq]
  have hrun : (s.detachTimer t).runningExpires = s.runningExpires := by
    rw [detachTimer_eq, listDel_eq]
  have hen : (s.detachTimer t).enabled = s.enabled := by rw [detachTimer_eq, listDel_eq]
  have hactive := h.wf.active_detachTimer t
  have hbase := h.toCoverBase.erase (h.wf.detachTimer t) hactive (fun u _ => by rw [hexp])
    (by rw [hrun]) (by rw [hen])
  refine ⟨hbase, fun hp u hu => ?_, fun p hp => ?_⟩
  · rw [hactive] at hu
    rw [hrun, hexp]
    exact h.idle (hpass ▸ hp) u (List.mem_of_mem_erase hu)
  · rw [hpass] at hp
    exact (h.pass p hp).detach h.wf hactive hexp (listOf_detachTimer t) (hs p hp) (.inl rfl)
      (.inr rfl)

lemma CoverInv.setDelRequest (h : s.CoverInv cpu) : (s.setDelRequest t).CoverInv cpu where
  wf := ⟨h.wf.nodup, h.wf.listOf⟩
  nonzero := h.nonzero
  enabled := h.enabled
  isSome := h.isSome
  idle := h.idle
  pass p hp :=
    have htr := h.pass p hp
    ⟨htr.next, htr.expires, htr.current, htr.checked, htr.seen⟩

lemma CoverInv.delTimer (h : s.CoverInv cpu) (hs : s.Seen cpu (.delTimer t)) :
    (s.delTimer cpu t).CoverInv cpu := by
  rw [Timers.delTimer]
  split_ifs
  · exact h.detachTimer hs
  · exact h.setDelRequest
  · exact h

/-! ### Steps of a pass -/

lemma CoverBase.setPass (h : s.CoverBase cpu) (ht : s.Tracks cpu p) :
    (s.setPass cpu p).CoverInv cpu where
  wf := ⟨h.wf.nodup, h.wf.listOf⟩
  nonzero := h.nonzero
  enabled := h.enabled
  isSome := h.isSome
  idle hp := by
    rw [pass_setPass] at hp
    cases hp
  pass q hq := by
    obtain rfl : p = q := Option.some.inj (by rw [← hq, pass_setPass])
    exact ⟨ht.next, ht.expires, ht.current, ht.checked, ht.seen⟩

lemma cursor_elim (now expires : BitVec 64) (k : ℕ) (o : Option ℕ) (phase : TimerPhase) :
    TimerPass.cursor ⟨now, o.elim (.head k) .timer, expires, phase⟩ = o := by
  cases o with
  | none => rfl
  | some t => rfl

lemma CoverInv.passBegin (h : s.CoverInv cpu) (now : BitVec 64) :
    (s.passBegin cpu now).CoverInv cpu := by
  refine h.toCoverBase.setPass ⟨?_, max_ne_zero, ?_, nofun, fun t ht => .inl ?_⟩
  · cases hl : s.active cpu with
    | nil => exact .inl rfl
    | cons t l => exact .inr ⟨t, List.mem_cons_self, rfl⟩
  · rintro t (ht | ht)
    · cases ht
    · cases ht
  · rw [cursor_elim, rest_head?]
    exact ht

/-- A timer that is not on the list any more is not counted. -/
lemma CoverInv.passCount (h : s.CoverInv cpu) (hp : s.pass cpu = some p)
    (ht : p.phase = .checked t ∨ p.phase = .handler t) : (s.passCount cpu p t).CoverInv cpu := by
  have htr := h.pass p hp
  refine h.toCoverBase.setPass ⟨htr.next, ?_, ?_, nofun, fun u hu => ?_⟩
  · dsimp only
    split_ifs with hc
    · obtain ⟨k, hk⟩ := timerPending_iff.1 hc.1
      obtain rfl := htr.current t ht k hk
      exact h.nonzero t ((h.wf.listOf t).2 hk)
    · exact htr.expires
  · rintro u (hu | hu)
    · cases hu
    · cases hu
  · rcases htr.seen u hu with hrest | hle | hphase
    · exact .inl hrest
    · refine .inr (.inl ?_)
      dsimp only
      split_ifs with hc
      · exact BitVec.le_trans (BitVec.le_of_lt hc.2) hle
      · exact hle
    · obtain rfl : u = t := by
        rcases hphase with hu' | hu'
        all_goals
          rw [hu'] at ht
          simpa using ht
      refine .inr (.inl ?_)
      dsimp only
      split_ifs with hc
      · exact BitVec.le_refl _
      · rw [not_and, BitVec.not_lt] at hc
        exact hc (h.wf.pending hu)

lemma CoverInv.passAct (h : s.CoverInv cpu) (hp : s.pass cpu = some p)
    (ht : p.phase = .checked t) : (s.passAct cpu p t).CoverInv cpu := by
  have htr := h.pass p hp
  rw [Timers.passAct]
  split_ifs
  · have hexp : (s.listDel t).expires = s.expires := by rw [listDel_eq]
    have hbase := h.toCoverBase.erase (h.wf.listDel t) (h.wf.active_listDel t)
      (fun u _ => by rw [hexp]) (by rw [listDel_eq]) (by rw [listDel_eq])
    exact hbase.setPass (htr.detach h.wf (h.wf.active_listDel t) hexp (listOf_listDel t)
      (htr.checked t ht) (.inr rfl) (.inl ht))
  · exact h.passCount hp (.inl ht)

/-- A pass that comes to its end has seen all timers. -/
lemma CoverInv.passEnd (h : s.CoverInv cpu) (hp : s.pass cpu = some p) (hnext : p.next = .head cpu)
    (hphase : p.phase = .scan) : (s.passEnd cpu p.expires).CoverInv cpu := by
  have htr := h.pass p hp
  have hle : ∀ t ∈ s.active cpu, p.expires ≤ s.expires t := by
    intro t ht
    have hseen := htr.seen t ht
    rw [TimerPass.cursor, hnext, hphase] at hseen
    simpa using hseen
  rw [Timers.passEnd]
  split_ifs with hmax
  · refine ⟨⟨⟨h.wf.nodup, h.wf.listOf⟩, h.nonzero, fun _ => ?_, fun _ => ?_⟩, fun _ t ht => ?_, ?_⟩
    · simp only [update_self]
    · simp only [update_self]
      exact Option.some_ne_none _
    · simp only [update_self]
      exact ⟨hle t ht, fun h0 => absurd h0 htr.expires⟩
    · intro q hq
      simp only [update_self] at hq
      cases hq
  · rw [ne_eq, not_not] at hmax
    refine ⟨⟨⟨h.wf.nodup, h.wf.listOf⟩, h.nonzero, fun hne => ?_, h.isSome⟩, fun _ t ht => ?_, ?_⟩
    · simp only [update_self] at hne
      exact absurd rfl hne
    · simp only [update_self]
      exact ⟨zero_le _, fun _ => eq_max_of_le (hmax ▸ hle t ht)⟩
    · intro q hq
      simp only [update_self] at hq
      cases hq

lemma CoverInv.passLook (h : s.CoverInv cpu) (hp : s.pass cpu = some p) (hphase : p.phase = .scan) :
    (s.passLook cpu p).CoverInv cpu := by
  have htr := h.pass p hp
  rcases htr.next with hnext | ⟨t, ht, hnext⟩
  · rw [Timers.passLook, hnext]
    simp only [if_true]
    exact h.passEnd hp hnext hphase
  · have hcursor : p.cursor = some t := by rw [TimerPass.cursor, hnext]
    have hnext' := h.wf.entryNext ht
    -- what is before the pass is the timer and what comes after it
    have hseen : ∀ u ∈ s.active cpu, u = t ∨ u ∈ rest (s.active cpu) (next (s.active cpu) t) ∨
        p.expires ≤ s.expires u := by
      intro u hu
      have hseen := htr.seen u hu
      rw [hcursor, rest_next h.wf.nodup ht, List.mem_cons, hphase] at hseen
      simpa [or_assoc] using hseen
    have hnone : next (s.active cpu) t ≠ some t := fun hc => (mem_of_next h.wf.nodup ht hc).2 rfl
    rw [Timers.passLook, hnext]
    simp only
    split_ifs
    · have hbase : ((s.listDel t).setExpires t (~~~0)).CoverBase cpu := by
        refine h.toCoverBase.erase ⟨(h.wf.listDel t).nodup, (h.wf.listDel t).listOf⟩
          (h.wf.active_listDel t) (fun u hu => ?_) (by rw [listDel_eq]; rfl)
          (by rw [listDel_eq]; rfl)
        rw [listDel_eq]
        exact update_of_ne hu ..
      refine hbase.setPass ⟨?_, htr.expires, ?_, ?_, fun u hu => ?_⟩
      · rw [hnext']
        cases hn : next (s.active cpu) t with
        | none => exact .inl rfl
        | some v =>
          obtain ⟨hv, hvt⟩ := mem_of_next h.wf.nodup ht hn
          refine .inr ⟨v, ?_, rfl⟩
          change v ∈ (s.listDel t).active cpu
          rw [h.wf.active_listDel]
          exact h.wf.nodup.mem_erase_iff.2 ⟨hvt, hv⟩
      · rintro u (hu | hu)
        all_goals
          rw [hphase] at hu
          cases hu
      · intro u hu
        rw [hphase] at hu
        cases hu
      · change u ∈ (s.listDel t).active cpu at hu
        change u ∈ rest ((s.listDel t).active cpu) _ ∨
          p.expires ≤ update (s.listDel t).expires t (~~~0) u ∨ _
        rw [h.wf.active_listDel] at hu ⊢
        obtain ⟨hne, hu⟩ := h.wf.nodup.mem_erase_iff.1 hu
        rw [hnext', cursor_elim, update_of_ne hne, listDel_eq]
        refine ((hseen u hu).resolve_left hne).imp (fun hr => ?_) .inl
        exact mem_rest_erase hnone hr hne
    · refine h.toCoverBase.setPass ⟨?_, htr.expires, ?_, ?_, fun u hu => ?_⟩
      · rw [hnext']
        cases hn : next (s.active cpu) t with
        | none => exact .inl rfl
        | some v => exact .inr ⟨v, (mem_of_next h.wf.nodup ht hn).1, rfl⟩
      · rintro u (hu | hu) k hk
        · obtain rfl := TimerPhase.checked.inj hu
          exact Option.some.inj (hk.symm.trans ((h.wf.listOf t).1 ht))
        · cases hu
      · rintro u hu hc
        obtain rfl := TimerPhase.checked.inj hu
        rw [hnext'] at hc
        cases hn : next (s.active cpu) t with
        | none => rw [hn] at hc; cases hc
        | some v =>
          rw [hn] at hc
          exact hnone (hn.trans (congrArg some (TimerEntry.timer.inj hc)))
      · rw [hnext', cursor_elim]
        rcases hseen u hu with rfl | hr | hle
        · exact .inr (.inr (.inl rfl))
        · exact .inl hr
        · exact .inr (.inl hle)

lemma CoverInv.passStep (h : s.CoverInv cpu) : (s.passStep cpu).CoverInv cpu := by
  rw [Timers.passStep]
  split
  · exact h
  · next p hp =>
    split
    · next hphase => exact h.passLook hp hphase
    · next t hphase => exact h.passAct hp hphase
    · next t hphase => exact h.passCount hp (.inr hphase)

lemma CoverInv.step (h : s.CoverInv cpu) (ev : CpuTimerEvent) (hs : s.Seen cpu ev) :
    (s.cpuStep cpu ev).CoverInv cpu := by
  cases ev with
  | modTimer t e =>
    rw [cpuStep]
    split_ifs with hl
    · exact h
    · exact h.modTimer hl hs
  | delTimer t =>
    rw [cpuStep]
    split_ifs
    · exact h
    · exact h.delTimer hs
  | passBegin now =>
    rw [cpuStep]
    split_ifs
    · exact h.passBegin now
    · exact h
  | passStep => exact h.passStep

end Timers

/-- In every state outside a pass the hardware timer of a cpu covers its timers, as long as no
function of a timer arms behind the pass, takes away the entry before it or takes zero for a time.
-/
theorem hardware_timer_covers (cpu : ℕ) (s : Timers) (es : List CpuTimerEvent) (hs : s.Fresh cpu)
    (hes : Along (Timers.cpuStep cpu) (Timers.Seen cpu) s es) :
    Along (Timers.cpuStep cpu) (fun s e => (s.cpuStep cpu e).pass cpu = none →
      (s.cpuStep cpu e).Covered cpu) s es :=
  along_induction (I := Timers.CoverInv cpu) (fun _ e h hq => h.step e hq)
    (fun _ e h hq hp => (h.step e hq).covered hp) hs.inv hes

/-- Timers that are on no list and belong to the first cpu -/
def idleTimers : Timers := Timers.init (fun _ => 0) (fun _ => 0) (fun _ => false)

/-- A timer is due, and its function arms it again. -/
theorem hardware_timer_covers_rearm :
    let es : List CpuTimerEvent :=
      [.modTimer 1 10, .passBegin 5, .passStep, .passStep, .modTimer 1 500, .passStep, .passStep]
    (exec (Timers.cpuStep 0) idleTimers es).enabled 0 = some 500 ∧
      Along (Timers.cpuStep 0) (fun s e => (s.cpuStep 0 e).pass 0 = none →
        (s.cpuStep 0 e).Covered 0) idleTimers es := by
  intro es
  refine ⟨by decide +kernel, hardware_timer_covers 0 idleTimers es ?_ ?_⟩
  · exact ⟨rfl, fun t => nofun, rfl, rfl⟩
  · refine ⟨⟨by decide, nofun⟩, trivial, trivial, trivial, ⟨by decide, ?_⟩, trivial, trivial,
      trivial⟩
    decide +kernel

/-- The function of the only timer arms another one, which the pass does not see. The next timer
that is armed is programmed although it expires later. -/
theorem hardware_timer_late :
    let es : List CpuTimerEvent :=
      [.modTimer 1 10, .passBegin 5, .passStep, .passStep, .modTimer 2 500, .passStep, .passStep]
    let s := exec (Timers.cpuStep 0) idleTimers (es ++ [.modTimer 3 600])
    s.active 0 = [2, 3] ∧ s.expires 2 = 500 ∧ s.enabled 0 = some 600 ∧
      ¬ Along (Timers.cpuStep 0) (fun s e => (s.cpuStep 0 e).pass 0 = none →
        (s.cpuStep 0 e).Covered 0) idleTimers (es ++ [.modTimer 3 600]) := by
  intro es s
  have hactive : s.active 0 = [2, 3] := by decide +kernel
  have hexp : s.expires 2 = 500 := by decide +kernel
  have hen : s.enabled 0 = some 600 := by decide +kernel
  refine ⟨hactive, hexp, hen, fun h => ?_⟩
  have hcov : s.Covered 0 := by
    refine (along_append.1 h).2.1 ?_
    decide +kernel
  obtain ⟨e, he, hle⟩ := hcov 2 (by rw [hactive]; decide)
  rw [hen] at he
  obtain rfl := Option.some.inj he
  rw [hexp] at hle
  revert hle
  decide

end Minos.Core
