import Mathlib
import Minos.Sched.Lists

/-!
# No cpu idles over a ready task

A cpu that runs its idle task looks only at `need_resched`, so a task that is put on its ready list
has to leave a sign: the flag, or an interrupt that is still to come. The sign is lost when the
function call for a task arrives while this task is current: the handler takes the task for awake,
although it is about to give up the cpu.
-/

namespace Minos.Sched

open Run

variable {C : Config} {s s' : Cpus} {c d pid : ℕ}

/-! ### The invariant -/

/-- A function call that makes the task ready is on its way to its cpu. -/
def Cpus.Called (s : Cpus) (c pid : ℕ) : Prop := ∃ a, s.calls c a = some (.setTaskReady pid)

/-- A current task that was made ready is back on the ready list, or its cpu will still hear of it.
-/
def Woken (s : Cpus) : Prop :=
  ∀ c pid, s.current c = .pcpu pid → s.taskIsReady (.pcpu pid) →
    pid ∈ s.readyList c ∨ s.Called c pid ∨ ∃ a, s.sending a = some (.setTaskReady pid)

/-- Function calls will tell the cpu about every task on its ready list. -/
def Announced (s : Cpus) (c : ℕ) : Prop := ∀ pid ∈ s.readyList c, s.Called c pid

/-- A cpu that idles without a sign will be told. -/
def Waiting (s : Cpus) (c : ℕ) : Prop :=
  s.current c = .idle c → s.needResched (.idle c) = false → s.resched c = false → Announced s c

structure Awake (C : Config) (s : Cpus) : Prop where
  onLists : OnLists C s
  woken : Woken s
  waiting : ∀ c, Waiting s c

lemma Waiting.mono (h : Waiting s c) (hcur : s'.current c = s.current c)
    (hneed : s'.needResched (.idle c) = false → s.needResched (.idle c) = false)
    (hresched : s'.resched c = false → s.resched c = false)
    (hlist : s'.readyList c ⊆ s.readyList c)
    (hcalls : ∀ a call, s.calls c a = some call → s'.calls c a = some call) : Waiting s' c := by
  intro hidle hn hr pid hpid
  obtain ⟨a, ha⟩ := h (hcur ▸ hidle) (hneed hn) (hresched hr) pid (hlist hpid)
  exact ⟨a, hcalls a _ ha⟩

lemma Woken.congr (h : Woken s) (hcur : s'.current = s.current)
    (hstat : ∀ pid, s'.stat (.pcpu pid) = s.stat (.pcpu pid)) (hlist : s'.readyList = s.readyList)
    (hcalls : s'.calls = s.calls) (hsending : s'.sending = s.sending) : Woken s' := by
  intro c pid hc hr
  rw [hlist, Cpus.Called, hcalls, hsending]
  refine h c pid (hcur ▸ hc) ?_
  rwa [Cpus.taskIsReady, hstat] at hr

lemma Woken.madeReady (h : Woken s) (hl : OnLists C s) (hm : MadeReady c pid s s')
    (haff : C.affinity pid = c) : Woken s' := by
  intro d x hd hr
  by_cases hx : x = pid
  · subst hx
    exact .inl ((hm.mem_readyList d x).2
      (.inl ⟨by rw [← hl.affine d x (hm.current ▸ hd), haff], rfl⟩))
  · rw [Cpus.taskIsReady, hm.stat x hx] at hr
    rw [hm.mem_readyList, Cpus.Called, hm.calls, hm.sending]
    exact (h d x (hm.current ▸ hd) hr).imp_left fun hmem => .inr ⟨hmem, hx⟩

lemma Woken.putToSleep (h : Woken s) (hm : PutToSleep pid s s')
    (hnot : ∀ d, s.current d = .pcpu pid → ¬ s'.taskIsReady (.pcpu pid)) : Woken s' := by
  intro d x hd hr
  have hne : x ≠ pid := fun heq => hnot d (heq ▸ hm.current ▸ hd) (heq ▸ hr)
  rw [Cpus.taskIsReady, hm.stat x hne] at hr
  rw [hm.mem_readyList, Cpus.Called, hm.calls, hm.sending]
  exact (h d x (hm.current ▸ hd) hr).imp_left fun hmem => ⟨hmem, hne⟩

lemma Woken.switched {next : Task} (h : Woken s) (hl : OnLists C s) (hm : Switched c next s s') :
    Woken s' := by
  intro d x hd hr
  rw [hm.readyList, Cpus.Called, hm.calls, hm.sending]
  rcases hm.cases hd with ⟨rfl, hxn⟩ | ⟨hdc, hd⟩
  · exact .inl (hm.mem hxn)
  · have hne : Task.pcpu x ≠ next := fun heq => hdc (by
      rw [← hl.affine d x hd, hl.readyAffine c x (hm.mem heq.symm)])
    rw [Cpus.taskIsReady, hm.stat _ hne] at hr
    exact h d x hd hr

/-! ### Signs -/

lemma update_true_eq_false {t u : Task} {f : Task → Bool}
    (h : Function.update f t true u = false) : f u = false := by
  rw [Function.update_apply] at h
  split_ifs at h
  exact h

lemma Waiting.setNeedResched (h : Waiting s d) : Waiting (s.setNeedResched c) d :=
  h.mono rfl (fun hn => update_true_eq_false hn) (fun hr => hr) (fun _ hx => hx) (fun _ _ ha => ha)

lemma waiting_setNeedResched (s : Cpus) (c : ℕ) : Waiting (s.setNeedResched c) c := by
  intro hidle hneed
  have hidle' : s.current c = .idle c := hidle
  simp [Cpus.setNeedResched, hidle'] at hneed

lemma Waiting.clearNeedResched {t : Task} (h : Waiting s d) (ht : t ≠ .idle d) :
    Waiting (s.clearNeedResched t) d := by
  refine h.mono rfl (fun hn => ?_) (fun hr => hr) (fun _ hx => hx) (fun _ _ ha => ha)
  simp only [Cpus.clearNeedResched] at hn
  rwa [Function.update_of_ne ht.symm] at hn

/-- Another cpu than that of the task does not notice. -/
lemma Waiting.madeReady (h : Waiting s d) (hm : MadeReady c pid s s') (hd : d ≠ c)
    (hneed : s'.needResched = s.needResched) (hresched : s'.resched = s.resched) : Waiting s' d :=
  h.mono (by rw [hm.current]) (by rw [hneed]; exact id) (by rw [hresched]; exact id)
    (fun x hx => (((hm.mem_readyList d x).1 hx).resolve_left fun h => hd h.1).1)
    (fun a call ha => by rw [hm.calls, ha])

lemma Waiting.putToSleep (h : Waiting s d) (hm : PutToSleep pid s s')
    (hneed : s'.needResched = s.needResched) (hresched : s'.resched = s.resched) : Waiting s' d :=
  h.mono (by rw [hm.current]) (by rw [hneed]; exact id) (by rw [hresched]; exact id)
    (fun x hx => ((hm.mem_readyList d x).1 hx).1) (fun a call ha => by rw [hm.calls, ha])

/-- A task goes to the ready list, and its cpu gets the flag. -/
lemma Awake.madeReady (h : Awake C s) (hm : MadeReady c pid s s') (haff : C.affinity pid = c)
    (hneed : s'.needResched = s.needResched) (hresched : s'.resched = s.resched) :
    Awake C (s'.setNeedResched c) where
  onLists := (h.onLists.madeReady hm haff).setNeedResched
  woken := (h.woken.madeReady h.onLists hm haff).congr rfl (fun _ => rfl) rfl rfl rfl
  waiting d := by
    by_cases hd : d = c
    · exact hd ▸ waiting_setNeedResched s' c
    · exact ((h.waiting d).madeReady hm hd hneed hresched).setNeedResched

/-! ### Making tasks ready and putting them to sleep -/

/-- What is neither a percpu task nor a list can change, and signs can come. -/
lemma Awake.congr (h : Awake C s) (hm : Unmoved s s')
    (hstat : ∀ pid, s'.stat (.pcpu pid) = s.stat (.pcpu pid)) (hsending : s'.sending = s.sending)
    (hneed : ∀ c, s'.needResched (.idle c) = false → s.needResched (.idle c) = false)
    (hresched : s'.resched = s.resched) : Awake C s' :=
  ⟨h.onLists.unmoved hm, h.woken.congr hm.current hstat hm.readyList hm.calls hsending, fun c =>
    (h.waiting c).mono (by rw [hm.current]) (hneed c) (by rw [hresched]; exact id)
      (by rw [hm.readyList]; exact fun _ hx => hx) (fun a call ha => by rw [hm.calls, ha])⟩

/-- Another cpu marks the task ready and is going to call. -/
lemma Awake.mark (h : Awake C s) (hfree : s.sending c = none) :
    Awake C { s.setStat (.pcpu pid) TASK_STAT_RDY with
      sending := Function.update s.sending c (some (.setTaskReady pid)) } := by
  refine ⟨h.onLists.unmoved (.mark s pid _), fun d x hd hr => ?_, h.waiting⟩
  by_cases hx : x = pid
  · exact .inr (.inr ⟨c, by simp [hx]⟩)
  · rw [Cpus.taskIsReady] at hr
    dsimp only at hr
    rw [Cpus.setStat_of_ne (by simpa using hx)] at hr
    refine (h.woken d x hd hr).imp_right (Or.imp_right ?_)
    rintro ⟨a, ha⟩
    have hac : a ≠ c := fun hac => by simp [hac, hfree] at ha
    exact ⟨a, by simp [hac, ha]⟩

lemma wakeTask_awake (h : Awake C s) (hfree : s.sending c = none) (t : Task) :
    Awake C (wakeTask C s c t) := by
  rw [wakeTask]
  split_ifs with hready
  · exact h
  · cases t with
    | idle k =>
      exact h.congr (.setStat (by simp) _) (fun _ => Cpus.setStat_of_ne (by simp)) rfl
        (fun _ hn => hn) rfl
    | rt p =>
      have hs : Awake C (s.setStat (.rt p) TASK_STAT_RDY) :=
        h.congr (.setStat (by simp) _) (fun _ => Cpus.setStat_of_ne (by simp)) rfl
          (fun _ hn => hn) rfl
      exact hs.congr ⟨rfl, fun _ hx => hx, rfl, rfl, rfl⟩ (fun _ => rfl) rfl
        (fun _ hn => update_true_eq_false hn) rfl
    | pcpu pid =>
      rw [setTaskReady]
      split_ifs with haff
      · exact h.mark hfree
      · exact h.madeReady (setTaskReady_local s c pid) (not_not.1 haff).symm rfl rfl

lemma sleepTask_awake (h : Awake C s) (stat : ℕ) : Awake C (sleepTask C s c stat) := by
  rw [sleepTask]
  split_ifs with hstat
  · exact h
  · cases hcur : s.current c with
    | idle k =>
      exact h.congr (.setStat (by simp) _) (fun _ => Cpus.setStat_of_ne (by simp)) rfl
        (fun _ hn => hn) rfl
    | rt p =>
      have hs : Awake C (s.setStat (.rt p) stat) :=
        h.congr (.setStat (by simp) _) (fun _ => Cpus.setStat_of_ne (by simp)) rfl
          (fun _ hn => hn) rfl
      exact hs.congr ⟨rfl, fun _ hx => hx, rfl, rfl, rfl⟩ (fun _ => rfl) rfl (fun _ hn => hn) rfl
    | pcpu pid =>
      have haff := h.onLists.affine c pid hcur
      rw [setTaskSleep, if_neg (by simp [haff])]
      have hm := moveToSleepHead_putToSleep s c pid stat
      refine ⟨h.onLists.putToSleep hm, h.woken.putToSleep hm fun _ _ hr => hstat ?_,
        fun d => (h.waiting d).putToSleep hm rfl rfl⟩
      rw [Cpus.taskIsReady] at hr
      simpa [Cpus.moveToSleepHead, Cpus.setSleepList, Cpus.listDel, Cpus.setStat] using hr

/-! ### Function calls -/

lemma smpFunctionCall_awake (h : Awake C s) (a : ℕ) : Awake C (smpFunctionCall C s a) := by
  have hlists := smpFunctionCall_onLists h.onLists a
  rw [smpFunctionCall] at hlists ⊢
  cases hsend : s.sending a with
  | none => exact h
  | some call =>
    rw [hsend] at hlists
    dsimp only at hlists ⊢
    split_ifs at hlists ⊢ with hbusy
    · exact h
    · rw [Option.not_isSome_iff_eq_none] at hbusy
      have hkeep : ∀ d b call', s.calls d b = some call' → Function.update s.calls
          (C.affinity call.pid) (Function.update (s.calls (C.affinity call.pid)) a (some call)) d b
          = some call' := by
        intro d b call' hb
        by_cases hd : d = C.affinity call.pid
        · subst hd
          have hba : b ≠ a := fun hba => by simp [hba, hbusy] at hb
          rw [Function.update_self, Function.update_of_ne hba, hb]
        · rw [Function.update_of_ne hd, hb]
      refine ⟨hlists, fun d x hd hr => ?_, fun d => (h.waiting d).mono rfl (fun hn => hn)
        (fun hr => hr) (fun _ hx => hx) (fun b call' hb => hkeep d b call' hb)⟩
      rcases h.woken d x hd hr with hmem | ⟨b, hb⟩ | ⟨b, hb⟩
      · exact .inl hmem
      · exact .inr (.inl ⟨b, hkeep d b _ hb⟩)
      · by_cases hba : b = a
        · subst hba
          rw [hsend, Option.some.injEq] at hb
          subst hb
          exact .inr (.inl ⟨b, by simp [SmpCall.pid, h.onLists.affine d x hd]⟩)
        · exact .inr (.inr ⟨b, by simp [hba, hb]⟩)

/-- A call for which nothing is left to do is taken off. -/
lemma Awake.clearCall {a : ℕ} (h : Awake C s)
    (hcur : ∀ pid, s.calls c a = some (.setTaskReady pid) → s.current c = .pcpu pid →
      s.taskIsReady (.pcpu pid) → pid ∈ s.readyList c)
    (hidle : ∀ pid, s.calls c a = some (.setTaskReady pid) → s.current c = .idle c →
      s.needResched (.idle c) = false → pid ∉ s.readyList c) : Awake C (clearCall s c a) := by
  have hother : ∀ d b call, s.calls d b = some call → ¬ (d = c ∧ b = a) →
      (Sched.clearCall s c a).calls d b = some call := by
    intro d b call hb hne
    rw [Sched.clearCall]
    by_cases hd : d = c
    · subst hd
      simp [show b ≠ a from fun hba => hne ⟨rfl, hba⟩, hb]
    · simp [hd, hb]
  refine ⟨h.onLists.clearCall c a, fun d x hd hr => ?_, fun d hd hn hr x hx => ?_⟩
  · rcases h.woken d x hd hr with hmem | ⟨b, hb⟩ | hsend
    · exact .inl hmem
    · by_cases heq : d = c ∧ b = a
      · obtain ⟨rfl, rfl⟩ := heq
        exact .inl (hcur x hb hd hr)
      · exact .inr (.inl ⟨b, hother d b _ hb heq⟩)
    · exact .inr (.inr hsend)
  · obtain ⟨b, hb⟩ := h.waiting d hd hn hr x hx
    by_cases heq : d = c ∧ b = a
    · obtain ⟨rfl, rfl⟩ := heq
      exact absurd hx (hidle x hb hd hn)
    · exact ⟨b, hother d b _ hb heq⟩

/-- The handler keeps the invariant if it does not find its task current, ready and off the list. -/
lemma smpFunctionCallHandler_awake {a : ℕ} (h : Awake C s)
    (htimely : ∀ pid, s.calls c a = some (.setTaskReady pid) → s.current c = .pcpu pid →
      s.taskIsReady (.pcpu pid) → pid ∈ s.readyList c) :
    Awake C (smpFunctionCallHandler s c a) := by
  rw [smpFunctionCallHandler]
  cases hcall : s.calls c a with
  | none => exact h
  | some call =>
    have haff := h.onLists.callsAffine c a call hcall
    cases call with
    | setTaskReady pid =>
      have hpid : ∀ x, s.calls c a = some (.setTaskReady x) → x = pid := fun x hx => by
        simpa using hx.symm.trans hcall
      dsimp only
      rcases smpSetTaskReady_cases s c pid with ⟨hdecl, heq⟩ | ⟨hne, hm, heq⟩
      · rw [heq]
        refine h.clearCall htimely fun x hx hc _ hmem => ?_
        rcases hdecl with hcur | hnot
        · rw [hcur] at hc
          cases hc
        · exact hnot (hpid x hx ▸ h.onLists.ready c x hmem)
      · rw [heq]
        refine (h.madeReady hm haff rfl rfl).clearCall (fun x hx hc _ => ?_) (fun x _ hc hn => ?_)
        · exact absurd (hpid x hx ▸ hc) hne
        · have hidle : (s.moveToReadyTail c pid).current c = .idle c := hc
          simp [Cpus.setNeedResched, hidle] at hn
    | setTaskSuspend pid =>
      have hno : ∀ x, s.calls c a ≠ some (.setTaskReady x) := fun x hx => by simp [hcall] at hx
      dsimp only
      rcases smpSetTaskSuspend_cases s c pid with heq | ⟨hne, heq⟩
      · rw [heq]
        exact h.clearCall (fun x hx => absurd hx (hno x)) (fun x hx => absurd hx (hno x))
      · have hm := moveToSleepTail_putToSleep s c pid
        have hsleep : Awake C (s.moveToSleepTail c pid) :=
          ⟨h.onLists.putToSleep hm, h.woken.putToSleep hm fun d hd => absurd
            (by rwa [← h.onLists.affine d pid hd, show C.affinity pid = c from haff] at hd) hne,
            fun d => (h.waiting d).putToSleep hm rfl rfl⟩
        rw [heq]
        exact hsleep.clearCall (fun x hx => absurd hx (hno x)) (fun x hx => absurd hx (hno x))

/-! ### Resched interrupts and ticks -/

lemma addNewTask_flags (s : Cpus) (c pid : ℕ) :
    (addNewTask c s pid).current = s.current ∧
    (addNewTask c s pid).needResched = s.needResched ∧
    (addNewTask c s pid).resched = s.resched := by
  rw [addNewTask]
  split_ifs <;> exact ⟨rfl, rfl, rfl⟩

/-- The new tasks find their lists, and the other cpus do not notice. -/
lemma addNewTasks_woken {l : List ℕ} (h : OnLists C s) (hl : ∀ pid ∈ l, C.affinity pid = c)
    (hcur : ∀ pid ∈ l, ∀ d, s.current d ≠ .pcpu pid) (hk : Woken s) (hw : ∀ d ≠ c, Waiting s d) :
    Woken (l.foldl (addNewTask c) s) ∧ ∀ d ≠ c, Waiting (l.foldl (addNewTask c) s) d := by
  induction l generalizing s with
  | nil => exact ⟨hk, hw⟩
  | cons pid l ih =>
    obtain ⟨hcur', hneed, hresched⟩ := addNewTask_flags s c pid
    have haff := hl pid (by simp)
    have hl' : ∀ x ∈ l, C.affinity x = c := fun x hx => hl x (by simp [hx])
    have hc' : ∀ x ∈ l, ∀ d, (addNewTask c s pid).current d ≠ .pcpu x :=
      fun x hx => hcur' ▸ hcur x (by simp [hx])
    have h' := addNewTask_onLists h haff
    rcases addNewTask_cases s c pid with hm | hm
    · exact ih h' hl' hc' (hk.madeReady h hm haff)
        fun d hd => (hw d hd).madeReady hm hd hneed hresched
    · exact ih h' hl' hc' (hk.putToSleep hm fun d hd => absurd hd (hcur pid (by simp) d))
        fun d hd => (hw d hd).putToSleep hm hneed hresched

lemma reschedHandler_awake (h : Awake C s) : Awake C (reschedHandler s c) := by
  have hlists := reschedHandler_onLists h.onLists c
  rw [reschedHandler] at hlists ⊢
  split_ifs at hlists ⊢
  · have h0 : OnLists C { s with resched := Function.update s.resched c false } :=
      h.onLists.unmoved ⟨rfl, fun _ hx => hx, rfl, rfl, rfl⟩
    have hw0 : ∀ d ≠ c, Waiting { s with resched := Function.update s.resched c false } d := by
      refine fun d hd => (h.waiting d).mono rfl (fun hn => hn) (fun hr => ?_) (fun _ hx => hx)
        (fun _ _ ha => ha)
      dsimp only at hr
      rwa [Function.update_of_ne hd] at hr
    obtain ⟨hk, hw⟩ := addNewTasks_woken h0 (h.onLists.newAffine c)
      (fun pid hpid d => (h.onLists.fresh c pid hpid d).2) h.woken hw0
    refine ⟨hlists, hk.congr rfl (fun _ => rfl) rfl rfl rfl, fun d => ?_⟩
    by_cases hd : d = c
    · subst hd
      exact waiting_setNeedResched _ d
    · exact (hw d hd).setNeedResched
  · exact h

lemma schedTickHandler_awake (h : Awake C s) : Awake C (schedTickHandler s c) := by
  rw [schedTickHandler]
  split
  case h_1 pid hcur =>
    split_ifs with hready
    · exact h.madeReady (moveToReadyTail_madeReady hready) (h.onLists.affine c pid hcur) rfl rfl
    · exact ⟨h.onLists.setNeedResched, h.woken.congr rfl (fun _ => rfl) rfl rfl rfl,
        fun d => (h.waiting d).setNeedResched⟩
  case h_2 => exact h

/-! ### Switching -/

lemma switchOut_woken (h : OnLists C s) (hk : Woken s) (c : ℕ) :
    Woken (switchOut s c (s.current c)) := by
  rcases switchOut_cases s c with ⟨-, hm, hstat, hsending⟩ | ⟨pid, hcur, -, hm⟩
  · exact hk.congr hm.current hstat hm.readyList hm.calls hsending
  · exact hk.madeReady h hm (h.affine c pid hcur)

/-- If the ready list was empty then only the task that is switched out can be on it. -/
lemma switchOut_announced (hk : Woken s) (hnil : s.readyList c = [])
    (htimely : ∀ pid a, s.current c = .pcpu pid → s.sending a ≠ some (.setTaskReady pid)) :
    Announced (switchOut s c (s.current c)) c := by
  intro x hx
  rcases switchOut_cases s c with ⟨-, hm, -, -⟩ | ⟨pid, hcur, hready, hm⟩
  · rw [hm.readyList, hnil] at hx
    simp at hx
  · have hxp : x = pid := by simpa [hnil] using (hm.mem_readyList c x).1 hx
    subst hxp
    rw [Cpus.Called, hm.calls]
    rcases hk c x hcur hready with hmem | hcalled | ⟨a, ha⟩
    · simp [hnil] at hmem
    · exact hcalled
    · exact absurd ha (htimely x a hcur)

lemma switchOut_waiting (h : Waiting s d) (hd : d ≠ c) :
    Waiting (switchOut s c (s.current c)) d := by
  obtain ⟨hneed, hresched⟩ := switchOut_flags s c (s.current c)
  rcases switchOut_cases s c with ⟨-, hm, -, -⟩ | ⟨pid, -, -, hm⟩
  · exact h.mono (by rw [hm.current]) (by rw [hneed]; exact id) (by rw [hresched]; exact id)
      (by rw [hm.readyList]; exact fun _ hx => hx) (fun a call ha => by rw [hm.calls, ha])
  · exact h.madeReady hm hd hneed hresched

/-- The cpu `c` chooses again: the other cpus do not notice, and if the cpu ends in its idle task
then it will be told about the tasks on its ready list. -/
lemma reschedCpu_woken (h : OnLists C s) (hk : Woken s) (hw : ∀ d ≠ c, Waiting s d)
    (htimely : s.readyList c = [] → ∀ pid a, s.current c = .pcpu pid →
      s.sending a ≠ some (.setTaskReady pid)) :
    Woken (reschedCpu C s c) ∧ (∀ d ≠ c, Waiting (reschedCpu C s c) d) ∧
    ((reschedCpu C s c).current c = .idle c → Announced (reschedCpu C s c) c) := by
  obtain ⟨⟨highestRdy, resched, hpick, hresched⟩, hnext⟩ := pickNext_spec C s c
  simp only [reschedCpu]
  rw [hpick]
  have h1 : OnLists C { s with highestRdy := highestRdy, resched := resched } :=
    h.unmoved ⟨rfl, fun _ hx => hx, rfl, rfl, rfl⟩
  have hk1 : Woken { s with highestRdy := highestRdy, resched := resched } := hk
  have hw1 : ∀ d ≠ c, Waiting { s with highestRdy := highestRdy, resched := resched } d :=
    fun d hd => (hw d hd).mono rfl id (hresched d) (fun _ hx => hx) (fun _ _ ha => ha)
  have hidle : (pickNext C s c).2 = .idle c → s.readyList c = [] := by
    intro hi
    rw [hi] at hnext
    rcases hnext with ⟨p, hp⟩ | ⟨x, -, heq⟩ | ⟨-, hnil⟩
    · cases hp
    · cases heq
    · exact hnil
  split_ifs with hsame
  · refine ⟨hk1, hw1, fun hi x hx => ?_⟩
    have hnil := hidle (hsame.trans hi)
    rw [show _ = [] from hnil] at hx
    simp at hx
  · generalize hs1 : { s with highestRdy := highestRdy, resched := resched } = s1 at *
    have hlist1 : s1.readyList = s.readyList := by rw [← hs1]
    have hcur1 : s1.current = s.current := by rw [← hs1]
    have hsending1 : s1.sending = s.sending := by rw [← hs1]
    have hm : Switched c (pickNext C s c).2 (switchOut s1 c (s1.current c))
        (switchTo C s1 c (s1.current c) (pickNext C s c).2) :=
      switchTo_switched C (by
        rw [hlist1]
        exact hnext.imp_right (Or.imp_right And.left))
    obtain ⟨hneed, hresched'⟩ := switchTo_flags C s1 c (s1.current c) (pickNext C s c).2
    obtain ⟨hneed', hresched''⟩ := switchOut_flags s1 c (s1.current c)
    refine ⟨(switchOut_woken h1 hk1 c).switched (switchOut_onLists h1 c) hm, fun d hd => ?_,
      fun hi => ?_⟩
    · refine (switchOut_waiting (hw1 d hd) hd).mono ?_ ?_ ?_ ?_ ?_
      · rw [hm.current, Function.update_of_ne hd]
      · rw [hneed, hneed']
        exact id
      · rw [hresched', hresched'']
        exact id
      · rw [hm.readyList]
        exact fun _ hx => hx
      · exact fun a call ha => by rw [hm.calls, ha]
    · rw [hm.current, Function.update_self] at hi
      have hnil := hidle hi
      have hann : Announced (switchOut s1 c (s1.current c)) c :=
        switchOut_announced hk1 (hlist1 ▸ hnil) (hcur1 ▸ hsending1 ▸ htimely hnil)
      intro x hx
      rw [Cpus.Called, hm.calls]
      exact hann x (hm.readyList ▸ hx)

lemma sched_awake (h : Awake C s)
    (htimely : s.readyList c = [] → ∀ pid a, s.current c = .pcpu pid →
      s.sending a ≠ some (.setTaskReady pid)) : Awake C (sched C s c) := by
  have hw : ∀ d ≠ c, Waiting (s.clearNeedResched (s.current c)) d := fun d hd =>
    (h.waiting d).clearNeedResched fun hidle => hd (h.onLists.idle c d hidle)
  have h0 := h.onLists.clearNeedResched (s.current c)
  obtain ⟨hk1, hw1, hann⟩ := reschedCpu_woken h0 h.woken hw htimely
  refine ⟨reschedCpu_onLists h0 c, hk1, fun d => ?_⟩
  by_cases hd : d = c
  · subst hd
    exact fun hidle _ _ => hann hidle
  · exact hw1 d hd

lemma irqReturnHandler_awake (h : Awake C s) (p : ℕ)
    (htimely : s.readyList c = [] → ∀ pid a, s.current c = .pcpu pid →
      s.sending a ≠ some (.setTaskReady pid)) : Awake C (irqReturnHandler C s c p) := by
  rw [irqReturnHandler]
  split_ifs
  · exact h
  · obtain ⟨hk1, hw1, hann⟩ := reschedCpu_woken h.onLists h.woken (fun d _ => h.waiting d) htimely
    refine ⟨(reschedCpu_onLists h.onLists c).clearNeedResched _,
      hk1.congr rfl (fun _ => rfl) rfl rfl rfl, fun d => ?_⟩
    by_cases hd : d = c
    · subst hd
      exact fun hidle _ _ => hann hidle
    · exact (hw1 d hd).clearNeedResched fun hidle => hd (h.onLists.idle c d hidle)

/-! ### Runs -/

/-- A function call does not find its task current, ready and off the ready list, and a cpu does not
choose again with an empty ready list while another cpu has marked its current task ready and has
not called yet. -/
def Timely (s : Cpus) : CpuEvent → Prop
  | .callIpi c a => ∀ pid, s.calls c a = some (.setTaskReady pid) → s.current c = .pcpu pid →
      s.taskIsReady (.pcpu pid) → pid ∈ s.readyList c
  | .sched c => s.readyList c = [] → ∀ pid a, s.current c = .pcpu pid →
      s.sending a ≠ some (.setTaskReady pid)
  | .irqReturn c _ => s.readyList c = [] → ∀ pid a, s.current c = .pcpu pid →
      s.sending a ≠ some (.setTaskReady pid)
  | _ => True

lemma cpuStep_awake {e : CpuEvent} (h : Awake C s) (he : Timely s e) : Awake C (cpuStep C s e) := by
  cases e with
  | sleep c stat =>
    rw [cpuStep]
    split_ifs
    · exact h
    · exact sleepTask_awake h stat
  | wake c t =>
    rw [cpuStep]
    split_ifs with hfree
    · exact h
    · exact wakeTask_awake h (by simpa using hfree) t
  | post c => exact smpFunctionCall_awake h c
  | callIpi c a => exact smpFunctionCallHandler_awake h he
  | reschedIpi c => exact reschedHandler_awake h
  | tick c => exact schedTickHandler_awake h
  | irqReturn c p => exact irqReturnHandler_awake h p he
  | sched c => exact sched_awake h he

/-- The cpus enter the loop of `cpu_idle`: the tasks are created and on the lists of their cpus, and
each cpu has sent a resched interrupt to itself. -/
structure Booted (C : Config) (s : Cpus) : Prop where
  idle : ∀ c, s.current c = .idle c
  resched : ∀ c, s.resched c = true
  calls : ∀ c a, s.calls c a = none
  readyAffine : ∀ c, ∀ pid ∈ s.readyList c, C.affinity pid = c
  newAffine : ∀ c, ∀ pid ∈ s.newList c, C.affinity pid = c
  apart : ∀ c d, ∀ pid ∈ s.newList d, pid ∉ s.readyList c
  ready : ∀ c, ∀ pid ∈ s.readyList c, s.stat (.pcpu pid) = TASK_STAT_RDY

lemma Booted.awake (h : Booted C s) : Awake C s where
  onLists := {
    idle := fun c k hc => by simpa [h.idle c] using hc.symm
    affine := fun c pid hc => by simp [h.idle c] at hc
    readyAffine := h.readyAffine
    newAffine := h.newAffine
    fresh := fun d pid hpid c => ⟨h.apart c d pid hpid, by simp [h.idle c]⟩
    callsAffine := fun c a call ha => by simp [h.calls c a] at ha
    ready := fun c pid hpid => .inl (h.ready c pid hpid) }
  woken := fun c pid hc => by simp [h.idle c] at hc
  waiting := fun c _ _ hr => by simp [h.resched c] at hr

/-- If the cpu runs its idle task, `need_resched` is clear and no interrupt for it is pending, then
its ready list is empty. -/
def NoIdleOverReady (s : Cpus) (c : ℕ) : Prop :=
  s.current c = .idle c → s.needResched (.idle c) = false → s.resched c = false →
    (∀ a, s.calls c a = none) → s.readyList c = []

lemma Awake.noIdleOverReady (h : Awake C s) (c : ℕ) : NoIdleOverReady s c := by
  intro hidle hn hr hcalls
  refine List.eq_nil_iff_forall_not_mem.2 fun pid hpid => ?_
  obtain ⟨a, ha⟩ := h.waiting c hidle hn hr pid hpid
  simp [hcalls a] at ha

/-- In every run in which function calls are timely, no cpu idles over a ready task. -/
theorem no_idle_over_ready (C : Config) (s : Cpus) (hs : Booted C s) (es : List CpuEvent)
    (hes : Along (cpuStep C) Timely s es) (c : ℕ) : NoIdleOverReady (exec (cpuStep C) s es) c :=
  (exec_induction (fun _ _ h he => cpuStep_awake h he) hs.awake hes).noIdleOverReady c

/-- Two cpus with global scheduling, and a vcpu that belongs to the second. -/
def twoCpus : Config := ⟨2, fun _ => .global, fun _ => 1⟩

/-- The vcpu is ready when the cpus enter `cpu_idle`. -/
def bootedCpus : Cpus where
  toState := { State.init with readyList := fun c => if c = 1 then [0] else [] }
  stat
    | .pcpu _ => TASK_STAT_RDY
    | _ => TASK_STAT_RUNNING
  needResched _ := false
  sleepList _ := []
  newList _ := []
  calls _ _ := none
  sending _ := none
  resched _ := true

lemma bootedCpus_booted : Booted twoCpus bootedCpus where
  idle _ := rfl
  resched _ := rfl
  calls _ _ := rfl
  readyAffine c pid hpid := by
    by_cases hc : c = 1
    · exact hc.symm
    · simp [bootedCpus, hc] at hpid
  newAffine c pid hpid := by simp [bootedCpus] at hpid
  apart c d pid hpid := by simp [bootedCpus] at hpid
  ready _ _ _ := rfl

/-- The vcpu sleeps and calls `sched`, is woken afterwards, and sleeps again. -/
def wakeAfterSched : List CpuEvent :=
  [.reschedIpi 1, .irqReturn 1 0, .sleep 1 TASK_STAT_SUSPEND, .sched 1, .wake 0 (.pcpu 0), .post 0,
    .callIpi 1 0, .irqReturn 1 0, .sleep 1 TASK_STAT_SUSPEND, .sched 1]

theorem no_idle_over_ready_wakeAfterSched :
    (exec (cpuStep twoCpus) bootedCpus (wakeAfterSched.take 8)).current 1 = .pcpu 0 ∧
    (exec (cpuStep twoCpus) bootedCpus wakeAfterSched).current 1 = .idle 1 ∧
    (exec (cpuStep twoCpus) bootedCpus wakeAfterSched).readyList 1 = [] := by
  refine ⟨by decide +kernel, by decide +kernel, no_idle_over_ready twoCpus bootedCpus
    bootedCpus_booted wakeAfterSched ?_ 1 (by decide +kernel) (by decide +kernel)
    (by decide +kernel) fun a => ?_⟩
  · refine ⟨trivial, fun h => ?_, trivial, fun _ pid a _ h => ?_, trivial, trivial,
      fun pid _ h => ?_, fun _ pid a h => ?_, trivial, fun _ pid a _ h => ?_, trivial⟩
    · exact absurd h (by decide +kernel)
    · cases (show none = some (SmpCall.setTaskReady pid) from h)
    · cases (show Task.idle 1 = .pcpu pid from h)
    · cases (show Task.idle 1 = .pcpu pid from h)
    · rcases a with _ | a
      · cases (show none = some (SmpCall.setTaskReady pid) from h)
      · cases (show none = some (SmpCall.setTaskReady pid) from h)
  · rcases a with _ | a
    · decide +kernel
    · rfl

/-- The function call arrives between `set_task_sleep` and `sched`: the handler declines, `sched`
chooses the idle task and puts the vcpu on the ready list, and nothing tells the idle task. -/
theorem idle_over_ready_reached :
    let es : List CpuEvent := [.reschedIpi 1, .irqReturn 1 0, .sleep 1 TASK_STAT_SUSPEND,
      .wake 0 (.pcpu 0), .post 0, .callIpi 1 0, .irqReturn 1 0, .sched 1]
    let s := exec (cpuStep twoCpus) bootedCpus es
    Booted twoCpus bootedCpus ∧ s.current 1 = .idle 1 ∧ s.needResched (.idle 1) = false ∧
      s.resched 1 = false ∧ (∀ a, s.calls 1 a = none) ∧ s.readyList 1 = [0] ∧
      ¬ NoIdleOverReady s 1 := by
  have hcalls : ∀ a, (exec (cpuStep twoCpus) bootedCpus [.reschedIpi 1, .irqReturn 1 0,
      .sleep 1 TASK_STAT_SUSPEND, .wake 0 (.pcpu 0), .post 0, .callIpi 1 0, .irqReturn 1 0,
      .sched 1]).calls 1 a = none := by
    intro a
    rcases a with _ | a
    · decide +kernel
    · rfl
  refine ⟨bootedCpus_booted, by decide +kernel, by decide +kernel, by decide +kernel, hcalls,
    by decide +kernel, fun h => ?_⟩
  have := h (by decide +kernel) (by decide +kernel) (by decide +kernel) hcalls
  exact absurd this (by decide +kernel)

end Minos.Sched
