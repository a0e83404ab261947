import Mathlib
import Minos.Lib.Run
import Minos.Core.Timer

/-!
# Power cycles

`vm_power_up` gives the task of every vcpu a table, to which `task->context` points, and in it the
contexts of the vmodules. A VM that was reset or powered off is powered up in the same way. Of the
hooks of the vmodules only those of the vtimer reach beyond the context: it holds two timers, which
can be on the list of a cpu.
-/

namespace Minos.Virt

open Function Run
open Minos.Core (Timers)

/-- A `struct vmodule`, without its name and its hooks -/
structure Vmodule where
  id : ℕ
  contextSize : ℕ
  validForTask : Option (ℕ → Bool)

/-- The tasks of the vcpus of a VM, and whether its os is Linux -/
structure PowerVm where
  vcpus : List ℕ
  linux : Bool
  nodup : vcpus.Nodup

/-- The `vmodule_list` and the VMs. The ids of the vmodules are given out by `vmodule_class_nr`. -/
structure PowerConfig where
  vmodules : List Vmodule
  ids : (vmodules.map Vmodule.id).Perm (List.range vmodules.length)
  vtimerVmoduleId : ℕ
  vms : ℕ → Option PowerVm
  affinity : ℕ → ℕ

/-- `task->context` of every task, with 0 for null, what the table at an address holds for an id,
the objects of the slab that were taken for the contexts of a task and not freed, the answers of the
slab that are still to come, the tasks whose `stat` is `TASK_STAT_STOPPED`, and the timers. -/
structure PowerSys where
  context : ℕ → ℕ
  slot : ℕ → ℕ → ℕ
  live : List (ℕ × ℕ)
  supply : List ℕ
  stopped : ℕ → Bool
  timers : Timers

/-- The timers of the `struct vtimer_context` at an address -/
def phyTimer (c : ℕ) : ℕ := 2 * c
def virtTimer (c : ℕ) : ℕ := 2 * c + 1

namespace PowerSys

variable (s : PowerSys)

/-- `malloc` for the contexts of a task. There is no result when the slab has nothing: the
hypervisor panics or writes through null. An object that is in use is never given again. -/
def malloc (task : ℕ) : Option (ℕ × PowerSys) :=
  match s.supply with
  | [] => none
  | a :: supply =>
    if a = 0 ∨ a ∈ s.live.map Prod.snd then none
    else some (a, { s with supply, live := s.live ++ [(task, a)] })

/-- `task->context` is set to a table that is cleared. -/
def setTable (task table : ℕ) : PowerSys := { s with
  context := update s.context task table
  slot := update s.slot table fun _ => 0 }

/-- `task->context[id]` is set. -/
def setSlot (task id data : ℕ) : PowerSys := { s with
  slot := update s.slot (s.context task) (update (s.slot (s.context task)) id data) }

/-- The context of a vmodule: the one that the table has, or a new one -/
def moduleData (task id : ℕ) : Option (ℕ × PowerSys) :=
  let data := s.slot (s.context task) id
  if data = 0 then (s.malloc task).map fun r => (r.1, r.2.setSlot task id r.1)
  else some (data, s)

/-- Every task keeps the table and the contexts that it has. -/
def Reuses (s' : PowerSys) : Prop :=
  ∀ task, s.context task ≠ 0 → s'.context task = s.context task ∧
    ∀ id, s.slot (s.context task) id ≠ 0 →
      s'.slot (s.context task) id = s.slot (s.context task) id

def setTimers (timers : Timers) : PowerSys := { s with timers }

def setStopped (task : ℕ) (b : Bool) : PowerSys := { s with stopped := update s.stopped task b }

/-- `vcpu_init` of the os: Linux sets its first vcpu running, another one all of them. -/
def vcpuInit (vm : PowerVm) (vcpu : ℕ) : PowerSys :=
  if vm.linux ∧ vm.vcpus.head? ≠ some vcpu then s else s.setStopped vcpu false

/-- `vcpu_power_off`, which may fail -/
def vcpuPowerOff (fails : ℕ → Bool) (vcpu : ℕ) : PowerSys :=
  if fails vcpu then s else s.setStopped vcpu true

end PowerSys

namespace PowerConfig

variable (C : PowerConfig)

/-! ### The vmodules of a task -/

/-- `vtimer_state_init` -/
def vtimerStateInit (task c : ℕ) (s : PowerSys) : PowerSys :=
  s.setTimers ((s.timers.initTimerOnCpu (virtTimer c) (C.affinity task)).initTimerOnCpu
    (phyTimer c) (C.affinity task))

/-- One round of the loop of `task_vmodules_init` -/
def vmoduleInit (task : ℕ) (s : PowerSys) (m : Vmodule) : Option PowerSys :=
  if m.contextSize = 0 ∨ m.validForTask.any fun valid => !valid task then some s
  else (s.moduleData task m.id).map fun r =>
    if m.id = C.vtimerVmoduleId then C.vtimerStateInit task r.1 r.2 else r.2

/-- `task_vmodules_init` -/
def taskVmodulesInit (s : PowerSys) (task : ℕ) : Option PowerSys :=
  if C.vmodules.length = 0 then some s
  else (s.malloc task).bind fun r =>
    C.vmodules.foldlM (C.vmoduleInit task) (r.2.setTable task r.1)

/-- A walk over the vmodules that calls one of their hooks for every context, as
`task_vmodules_reset` does. What the hook of the vtimer does to the timers is given. There is no
result for a task without a table, which is read through null. -/
def callHooks (task : ℕ) (hook : ℕ → Timers → Timers) (s : PowerSys) : Option PowerSys :=
  if C.vmodules.length ≠ 0 ∧ s.context task = 0 then none
  else some (s.setTimers (C.vmodules.foldl (fun timers m =>
    let data := s.slot (s.context task) m.id
    if m.id = C.vtimerVmoduleId ∧ data ≠ 0 then hook data timers else timers) s.timers))

/-- `task_vmodules_reset` on a cpu. The `state_reset` of the vtimer is `vtimer_state_deinit`. -/
def taskVmodulesReset (cpu task : ℕ) : PowerSys → Option PowerSys :=
  C.callHooks task fun c timers =>
    (timers.delTimer cpu (virtTimer c)).delTimer cpu (phyTimer c)

/-- `save_task_vmodule_state`, with the time for which `vtimer_state_save` arms the timer when the
guest has enabled it -/
def saveTaskVmoduleState (cpu task : ℕ) (arm : Option (BitVec 64)) (s : PowerSys) :
    Option PowerSys :=
  C.callHooks task (fun c timers =>
    if s.stopped task then timers
    else arm.elim timers fun ns => timers.modTimer cpu (virtTimer c) ns) s

/-- `restore_task_vmodule_state` -/
def restoreTaskVmoduleState (cpu task : ℕ) : PowerSys → Option PowerSys :=
  C.callHooks task fun c timers => timers.delTimer cpu (virtTimer c)

/-- A write of a vcpu to the registers of its physical timer, which arms it or deletes it. The
context is that of `vtimer_vmodule_id`. -/
def vtimerHandleCntp (cpu task : ℕ) (arm : Option (BitVec 64)) (s : PowerSys) : Option PowerSys :=
  let c := s.slot (s.context task) C.vtimerVmoduleId
  if s.context task = 0 ∨ c = 0 then none
  else some (s.setTimers (arm.elim (s.timers.delTimer cpu (phyTimer c)) fun ns =>
    s.timers.modTimer cpu (phyTimer c) ns))

/-! ### The calls for a VM -/

/-- `vm_vcpus_init` -/
def vmVcpusInit (vm : PowerVm) (s : PowerSys) : Option PowerSys :=
  (vm.vcpus.foldlM C.taskVmodulesInit s).map fun s => vm.vcpus.foldl (fun s => s.vcpuInit vm) s

/-- `vm_power_up` -/
def vmPowerUp (vmid : ℕ) (s : PowerSys) : Option PowerSys :=
  match C.vms vmid with
  | none => some s
  | some vm => C.vmVcpusInit vm s

/-- `vm_power_off`, where `vcpu_power_off` fails for some vcpus. For VM 0 the system shuts down. -/
def vmPowerOff (vmid : ℕ) (fails : ℕ → Bool) (s : PowerSys) : Option PowerSys :=
  if vmid = 0 then none
  else match C.vms vmid with
    | none => some s
    | some vm => some (vm.vcpus.foldl (fun s => s.vcpuPowerOff fails) s)

/-- The loop of `vm_reset` over the vcpus, with `vcpu_power_off` and `vcpu_reset` -/
def resetVcpus (cpu : ℕ) (fails : ℕ → Bool) : List ℕ → PowerSys → Option PowerSys
  | [], s => some s
  | vcpu :: vcpus, s =>
    if fails vcpu then some s
    else (C.taskVmodulesReset cpu vcpu (s.vcpuPowerOff fails vcpu)).bind
      (resetVcpus cpu fails vcpus)

/-- `vm_reset`. For VM 0 the system reboots. -/
def vmReset (vmid cpu : ℕ) (fails : ℕ → Bool) (s : PowerSys) : Option PowerSys :=
  if vmid = 0 then none
  else match C.vms vmid with
    | none => some s
    | some vm => C.resetVcpus cpu fails vm.vcpus s

end PowerConfig

/-! ### Runs -/

/-- The calls for a VM, what its vcpus and their switches do to their timers, and the passes of
`run_timer_softirq`. A power-up comes with the answers of the slab. -/
inductive PowerEvent where
  | powerUp (vmid : ℕ) (supply : List ℕ)
  | powerOff (vmid : ℕ) (fails : ℕ → Bool)
  | reset (vmid cpu : ℕ) (fails : ℕ → Bool)
  /-- `vcpu_power_on` -/
  | vcpuPowerOn (task : ℕ)
  | save (cpu task : ℕ) (arm : Option (BitVec 64))
  | restore (cpu task : ℕ)
  | cntp (cpu task : ℕ) (arm : Option (BitVec 64))
  | passBegin (cpu : ℕ) (now : BitVec 64)
  | passStep (cpu : ℕ)

namespace PowerConfig

variable (C : PowerConfig)

def act (s : PowerSys) : PowerEvent → Option PowerSys
  | .powerUp vmid supply => C.vmPowerUp vmid { s with supply }
  | .powerOff vmid fails => C.vmPowerOff vmid fails s
  | .reset vmid cpu fails => C.vmReset vmid cpu fails s
  | .vcpuPowerOn task => some (s.setStopped task false)
  | .save cpu task arm => C.saveTaskVmoduleState cpu task arm s
  | .restore cpu task => C.restoreTaskVmoduleState cpu task s
  | .cntp cpu task arm => C.vtimerHandleCntp cpu task arm s
  | .passBegin cpu now =>
    some (if s.timers.pass cpu = none then s.setTimers (s.timers.passBegin cpu now) else s)
  | .passStep cpu => some (s.setTimers (s.timers.passStep cpu))

/-- A run ends with the event that has no result. -/
def step (s : Option PowerSys) (e : PowerEvent) : Option PowerSys := s.bind fun s => C.act s e

/-- The table of a task and the contexts that the table holds -/
def Reaches (s : PowerSys) (task a : ℕ) : Prop :=
  s.context task ≠ 0 ∧ (a = s.context task ∨
    a ≠ 0 ∧ ∃ id < C.vmodules.length, s.slot (s.context task) id = a)

/-- A timer is in the context of the vtimer of some task. -/
def OwnTimer (s : PowerSys) (t : ℕ) : Prop :=
  ∃ task c, s.context task ≠ 0 ∧ s.slot (s.context task) C.vtimerVmoduleId = c ∧ c ≠ 0 ∧
    (t = phyTimer c ∨ t = virtTimer c)

/-- After an event the objects that are in use for a task are those that the task reaches, the tasks
have their tables and contexts as before, and no timer of another context is on a list. -/
structure NoLeak (s s' : PowerSys) : Prop where
  reachable : ∀ task a, (task, a) ∈ s'.live ↔ C.Reaches s' task a
  reuses : s.Reuses s'
  timers : ∀ cpu, ∀ t ∈ s'.timers.active cpu, C.OwnTimer s' t

/-- No vcpu of a VM that is powered up has a table, or there are no vmodules. A power-up that ends
the run is not looked at. -/
def FirstPowerUp (s : PowerSys) (e : PowerEvent) : Prop :=
  match e with
  | .powerUp vmid _ => (C.act s e).isSome → C.vmodules = [] ∨
      ∀ vm ∈ C.vms vmid, ∀ v ∈ vm.vcpus, s.context v = 0
  | _ => True

end PowerConfig

/-- The state before any power-up -/
structure PowerSys.Fresh (s : PowerSys) : Prop where
  context : ∀ task, s.context task = 0
  live : s.live = []
  timers : ∀ cpu, s.timers.active cpu = []

namespace PowerSys

variable {s s' s'' : PowerSys} {task a : ℕ}

lemma Reuses.refl (s : PowerSys) : s.Reuses s := fun _ _ => ⟨rfl, fun _ _ => rfl⟩

lemma Reuses.trans (h : s.Reuses s') (h' : s'.Reuses s'') : s.Reuses s'' := by
  intro task ht
  obtain ⟨hc, hslot⟩ := h task ht
  obtain ⟨hc', hslot'⟩ := h' task (hc.symm ▸ ht)
  refine ⟨hc'.trans hc, fun id hid => ?_⟩
  rw [hc] at hslot'
  rw [hslot' id ((hslot id hid).symm ▸ hid), hslot id hid]

lemma malloc_eq_some (h : s.malloc task = some (a, s')) :
    a ≠ 0 ∧ a ∉ s.live.map Prod.snd ∧
      ∃ supply, s' = { s with supply, live := s.live ++ [(task, a)] } := by
  rw [malloc] at h
  split at h
  · cases h
  · next b supply _ =>
    split_ifs at h with hb
    obtain ⟨rfl, rfl⟩ := Prod.mk.inj (Option.some.inj h)
    exact ⟨fun h0 => hb (Or.inl h0), fun hmem => hb (Or.inr hmem), supply, rfl⟩

end PowerSys

namespace PowerConfig

variable {C : PowerConfig} {s s' s'' : PowerSys} {task a t : ℕ} {m : Vmodule}

lemma OwnTimer.reuses (h : C.OwnTimer s t) (hr : s.Reuses s') : C.OwnTimer s' t := by
  obtain ⟨task, c, ht, hslot, hc, htc⟩ := h
  obtain ⟨hcontext, hslots⟩ := hr task ht
  refine ⟨task, c, hcontext ▸ ht, ?_, hc, htc⟩
  rw [hcontext, hslots _ (hslot.symm ▸ hc), hslot]

/-- What holds of every state of a run whose power-ups are first ones -/
structure Inv (C : PowerConfig) (s : PowerSys) : Prop where
  reachable : ∀ task a, (task, a) ∈ s.live ↔ C.Reaches s task a
  nodup : (s.live.map Prod.snd).Nodup
  timers : ∀ cpu, ∀ t ∈ s.timers.active cpu, C.OwnTimer s t

namespace Inv

lemma noLeak (h : C.Inv s') (hr : s.Reuses s') : C.NoLeak s s' := ⟨h.reachable, hr, h.timers⟩

lemma table_mem (h : C.Inv s) (ht : s.context task ≠ 0) : (task, s.context task) ∈ s.live :=
  (h.reachable task _).2 ⟨ht, Or.inl rfl⟩

lemma table_ne (h : C.Inv s) (ht : s.context task ≠ 0) (ha : a ∉ s.live.map Prod.snd) :
    s.context task ≠ a := fun heq =>
  ha (heq ▸ List.mem_map_of_mem (f := Prod.snd) (h.table_mem ht))

/-- Two tasks have two tables. -/
lemma table_inj (h : C.Inv s) {w : ℕ} (hw : s.context w ≠ 0)
    (heq : s.context w = s.context task) : w = task := by
  have hmem := h.table_mem hw
  have hmem' := h.table_mem (heq ▸ hw : s.context task ≠ 0)
  exact congrArg Prod.fst (List.inj_on_of_nodup_map h.nodup hmem hmem' heq)

end Inv

/-! ### Calls that change the timers alone -/

/-- The tables stay, and a timer that comes on a list is in a context that some task has. -/
structure Calm (C : PowerConfig) (s s' : PowerSys) : Prop where
  context : s'.context = s.context
  slot : s'.slot = s.slot
  live : s'.live = s.live
  timers : ∀ cpu, ∀ t ∈ s'.timers.active cpu, t ∈ s.timers.active cpu ∨ C.OwnTimer s t

namespace Calm

lemma refl (s : PowerSys) : C.Calm s s := ⟨rfl, rfl, rfl, fun _ _ h => Or.inl h⟩

lemma ownTimer (h : C.Calm s s') : C.OwnTimer s' t ↔ C.OwnTimer s t := by
  rw [OwnTimer, OwnTimer, h.context, h.slot]

lemma trans (h : C.Calm s s') (h' : C.Calm s' s'') : C.Calm s s'' where
  context := h'.context.trans h.context
  slot := h'.slot.trans h.slot
  live := h'.live.trans h.live
  timers cpu t ht := by
    rcases h'.timers cpu t ht with ht | ht
    · exact h.timers cpu t ht
    · exact Or.inr (h.ownTimer.1 ht)

lemma reuses (h : C.Calm s s') : s.Reuses s' := by
  intro task _
  rw [h.context, h.slot]
  exact ⟨rfl, fun _ _ => rfl⟩

lemma inv (hc : C.Calm s s') (h : C.Inv s) : C.Inv s' where
  reachable task a := by
    rw [hc.live, h.reachable, Reaches, Reaches, hc.context, hc.slot]
  nodup := hc.live ▸ h.nodup
  timers cpu t ht := by
    rcases hc.timers cpu t ht with ht | ht
    · exact hc.ownTimer.2 (h.timers cpu t ht)
    · exact hc.ownTimer.2 ht

end Calm

lemma calm_setStopped (task : ℕ) (b : Bool) : C.Calm s (s.setStopped task b) :=
  ⟨rfl, rfl, rfl, fun _ _ h => Or.inl h⟩

lemma calm_vcpuInit (vm : PowerVm) (vcpu : ℕ) : C.Calm s (s.vcpuInit vm vcpu) := by
  rw [PowerSys.vcpuInit]
  split_ifs
  · exact .refl s
  · exact calm_setStopped vcpu false

lemma calm_vcpuPowerOff (fails : ℕ → Bool) (vcpu : ℕ) :
    C.Calm s (s.vcpuPowerOff fails vcpu) := by
  rw [PowerSys.vcpuPowerOff]
  split_ifs
  · exact .refl s
  · exact calm_setStopped vcpu true

lemma calm_foldl {f : PowerSys → ℕ → PowerSys} (hf : ∀ s v, C.Calm s (f s v)) (vs : List ℕ) :
    C.Calm s (vs.foldl f s) := by
  induction vs generalizing s with
  | nil => exact .refl s
  | cons v vs ih => exact (hf s v).trans ih

lemma calm_setTimers {timers : Timers}
    (h : ∀ cpu, ∀ t ∈ timers.active cpu, t ∈ s.timers.active cpu ∨ C.OwnTimer s t) :
    C.Calm s (s.setTimers timers) := ⟨rfl, rfl, rfl, h⟩

/-- A hook that puts on a list the timers of its own context at most -/
def OwnHook (hook : ℕ → Timers → Timers) : Prop :=
  ∀ c timers cpu, ∀ t ∈ (hook c timers).active cpu,
    t ∈ timers.active cpu ∨ t = phyTimer c ∨ t = virtTimer c

lemma calm_callHooks {hook : ℕ → Timers → Timers} (hook_own : OwnHook hook)
    (h : C.callHooks task hook s = some s') : C.Calm s s' := by
  rw [callHooks] at h
  split_ifs at h with hn
  obtain rfl := Option.some.inj h
  refine calm_setTimers ?_
  -- over the vmodules: what is on a list was there before the walk or is of this task
  suffices hwalk : ∀ ms ⊆ C.vmodules, ∀ (timers : Timers) (cpu : ℕ),
      ∀ t ∈ (ms.foldl (fun timers m =>
        if m.id = C.vtimerVmoduleId ∧ s.slot (s.context task) m.id ≠ 0 then
          hook (s.slot (s.context task) m.id) timers else timers) timers).active cpu,
        t ∈ timers.active cpu ∨ C.OwnTimer s t from
    fun cpu t ht => hwalk C.vmodules (List.Subset.refl _) s.timers cpu t ht
  intro ms
  induction ms with
  | nil => exact fun _ timers cpu t ht => Or.inl ht
  | cons m ms ih =>
    intro hms timers cpu t ht
    rw [List.foldl_cons] at ht
    rcases ih (List.subset_of_cons_subset hms) _ cpu t ht with ht | ht
    · split_ifs at ht with hm
      · refine (hook_own _ _ cpu t ht).imp_right fun ht => ?_
        have hcontext : s.context task ≠ 0 := fun h0 =>
          hn ⟨List.length_pos_iff_exists_mem.2 ⟨m, hms List.mem_cons_self⟩ |>.ne', h0⟩
        exact ⟨task, _, hcontext, by rw [← hm.1], hm.2, ht⟩
      · exact Or.inl ht
    · exact Or.inr ht

lemma calm_taskVmodulesReset {cpu : ℕ} (h : C.taskVmodulesReset cpu task s = some s') :
    C.Calm s s' :=
  calm_callHooks (fun _ _ _ _ ht =>
    Or.inl (Core.Timers.mem_of_delTimer (Core.Timers.mem_of_delTimer ht))) h

lemma calm_resetVcpus {cpu : ℕ} {fails : ℕ → Bool} {vcpus : List ℕ}
    (h : C.resetVcpus cpu fails vcpus s = some s') : C.Calm s s' := by
  induction vcpus generalizing s with
  | nil =>
    obtain rfl := Option.some.inj h
    exact .refl s
  | cons v vs ih =>
    rw [resetVcpus] at h
    split_ifs at h
    · obtain rfl := Option.some.inj h
      exact .refl s
    · obtain ⟨s₁, h₁, h₂⟩ := Option.bind_eq_some_iff.1 h
      exact ((calm_vcpuPowerOff fails v).trans (calm_taskVmodulesReset h₁)).trans (ih h₂)

/-- Every event but a power-up -/
lemma calm_act {e : PowerEvent} (he : ∀ vmid supply, e ≠ .powerUp vmid supply)
    (h : C.act s e = some s') : C.Calm s s' := by
  cases e with
  | powerUp vmid supply => exact absurd rfl (he vmid supply)
  | powerOff vmid fails =>
    rw [act, vmPowerOff] at h
    split_ifs at h
    split at h
    · obtain rfl := Option.some.inj h
      exact .refl s
    · obtain rfl := Option.some.inj h
      exact calm_foldl (fun s v => calm_vcpuPowerOff fails v) _
  | reset vmid cpu fails =>
    rw [act, vmReset] at h
    split_ifs at h
    split at h
    · obtain rfl := Option.some.inj h
      exact .refl s
    · exact calm_resetVcpus h
  | vcpuPowerOn task =>
    obtain rfl := Option.some.inj h
    exact calm_setStopped task false
  | save cpu task arm =>
    rw [act, saveTaskVmoduleState] at h
    refine calm_callHooks (fun c timers k t ht => ?_) h
    split_ifs at ht
    · exact Or.inl ht
    · cases arm with
      | none => exact Or.inl ht
      | some ns => exact (Core.Timers.mem_of_modTimer ht).imp_right Or.inr
  | restore cpu task =>
    rw [act, restoreTaskVmoduleState] at h
    exact calm_callHooks (fun _ _ _ _ ht => Or.inl (Core.Timers.mem_of_delTimer ht)) h
  | cntp cpu task arm =>
    rw [act, vtimerHandleCntp] at h
    split_ifs at h with hc
    obtain ⟨hcontext, hdata⟩ := not_or.1 hc
    obtain rfl := Option.some.inj h
    refine calm_setTimers fun k t ht => ?_
    cases arm with
    | none => exact Or.inl (Core.Timers.mem_of_delTimer ht)
    | some ns =>
      exact (Core.Timers.mem_of_modTimer ht).imp_right fun ht =>
        ⟨task, _, hcontext, rfl, hdata, Or.inl ht⟩
  | passBegin cpu now =>
    obtain rfl := Option.some.inj h
    split_ifs
    · exact calm_setTimers fun k t ht => Or.inl ht
    · exact .refl s
  | passStep cpu =>
    obtain rfl := Option.some.inj h
    exact calm_setTimers fun k t ht => Or.inl (Core.Timers.mem_of_passStep ht)

/-! ### The first power-up -/

lemma nodup_live_append {live : List (ℕ × ℕ)} (h : (live.map Prod.snd).Nodup)
    (ha : a ∉ live.map Prod.snd) : ((live ++ [(task, a)]).map Prod.snd).Nodup := by
  rw [List.map_append, List.map_singleton]
  exact h.append (List.nodup_singleton a) (List.disjoint_singleton.2 ha)

lemma Inv.setTable {r : ℕ × PowerSys} (h : C.Inv s) (ht : s.context task = 0)
    (hm : s.malloc task = some r) :
    C.Inv (r.2.setTable task r.1) ∧ s.Reuses (r.2.setTable task r.1) := by
  obtain ⟨a, s₁⟩ := r
  obtain ⟨ha, hfresh, supply, rfl⟩ := PowerSys.malloc_eq_some hm
  have hr : s.Reuses
      (PowerSys.setTable { s with supply, live := s.live ++ [(task, a)] } task a) := by
    intro w hw
    have hne : w ≠ task := fun heq => hw (heq ▸ ht)
    exact ⟨update_of_ne hne .., fun id _ =>
      congrFun (update_of_ne (h.table_ne hw hfresh) ..) id⟩
  refine ⟨⟨fun w b => ?_, ?_, fun cpu t ht => (h.timers cpu t ht).reuses hr⟩, hr⟩
  · change (w, b) ∈ s.live ++ [(task, a)] ↔ _
    rw [List.mem_append, List.mem_singleton, h.reachable, Reaches, Reaches]
    by_cases hw : w = task
    · subst hw
      simp [PowerSys.setTable, ht, ha]
      tauto
    · simp only [PowerSys.setTable, update_of_ne hw, Prod.mk.injEq, hw, false_and, or_false]
      refine and_congr_right fun hw => ?_
      rw [update_of_ne (h.table_ne hw hfresh)]
  · exact nodup_live_append h.nodup hfresh

lemma Inv.moduleData {r : ℕ × PowerSys} {id : ℕ} (h : C.Inv s) (ht : s.context task ≠ 0)
    (hid : id < C.vmodules.length) (hm : s.moduleData task id = some r) :
    C.Inv r.2 ∧ s.Reuses r.2 ∧ r.2.context = s.context := by
  rw [PowerSys.moduleData] at hm
  split_ifs at hm with h0
  swap
  · obtain rfl := Option.some.inj hm
    exact ⟨h, .refl s, rfl⟩
  obtain ⟨⟨a, s₁⟩, hmalloc, rfl⟩ := Option.map_eq_some_iff.1 hm
  obtain ⟨ha, hfresh, supply, rfl⟩ := PowerSys.malloc_eq_some hmalloc
  have hslot (w : ℕ) (hw : s.context w ≠ 0) (hne : w ≠ task) :
      update s.slot (s.context task) (update (s.slot (s.context task)) id a) (s.context w) =
        s.slot (s.context w) :=
    update_of_ne (fun heq => hne (h.table_inj hw heq)) ..
  have hr : s.Reuses
      (PowerSys.setSlot { s with supply, live := s.live ++ [(task, a)] } task id a) := by
    refine fun w hw => ⟨rfl, fun j hj => ?_⟩
    by_cases hne : w = task
    · subst hne
      have hji : j ≠ id := fun heq => hj (heq ▸ h0)
      simp [PowerSys.setSlot, update_of_ne hji]
    · exact congrFun (hslot w hw hne) j
  refine ⟨⟨fun w b => ?_, ?_, fun cpu t ht => (h.timers cpu t ht).reuses hr⟩, hr, rfl⟩
  · change (w, b) ∈ s.live ++ [(task, a)] ↔ s.context w ≠ 0 ∧ (b = s.context w ∨ b ≠ 0 ∧
      ∃ j < C.vmodules.length, update s.slot (s.context task)
        (update (s.slot (s.context task)) id a) (s.context w) j = b)
    rw [List.mem_append, List.mem_singleton, h.reachable, Reaches]
    by_cases hw : w = task
    · subst hw
      rw [update_self]
      simp only [Prod.mk.injEq, true_and, ht, not_false_eq_true, ne_eq]
      rw [or_assoc]
      refine or_congr_right ⟨?_, ?_⟩
      · rintro (⟨hb, j, hj, hslot⟩ | rfl)
        · have hji : j ≠ id := fun heq => hb (hslot.symm.trans (heq ▸ h0))
          exact ⟨hb, j, hj, (update_of_ne hji ..).trans hslot⟩
        · exact ⟨ha, id, hid, update_self ..⟩
      · rintro ⟨hb, j, hj, hslot⟩
        by_cases hji : j = id
        · subst hji
          rw [update_self] at hslot
          exact Or.inr hslot.symm
        · rw [update_of_ne hji] at hslot
          exact Or.inl ⟨hb, j, hj, hslot⟩
    · simp only [Prod.mk.injEq, hw, false_and, or_false]
      refine and_congr_right fun hne => ?_
      rw [hslot w hne hw]
  · exact nodup_live_append h.nodup hfresh

lemma calm_vtimerStateInit (task c : ℕ) : C.Calm s (C.vtimerStateInit task c s) :=
  calm_setTimers fun _ _ ht => Or.inl ht

lemma id_lt (hm : m ∈ C.vmodules) : m.id < C.vmodules.length :=
  List.mem_range.1 (C.ids.subset (List.mem_map_of_mem hm))

lemma Inv.vmoduleInit (h : C.Inv s) (ht : s.context task ≠ 0) (hm : m ∈ C.vmodules)
    (hs : C.vmoduleInit task s m = some s') :
    C.Inv s' ∧ s.Reuses s' ∧ s'.context = s.context := by
  rw [PowerConfig.vmoduleInit] at hs
  by_cases hskip : m.contextSize = 0 ∨ m.validForTask.any fun valid => !valid task
  · rw [if_pos hskip] at hs
    obtain rfl := Option.some.inj hs
    exact ⟨h, .refl s, rfl⟩
  · rw [if_neg hskip] at hs
    obtain ⟨r, hdata, rfl⟩ := Option.map_eq_some_iff.1 hs
    obtain ⟨hinv, hr, hcontext⟩ := h.moduleData ht (id_lt hm) hdata
    split_ifs
    · have hc := calm_vtimerStateInit (C := C) (s := r.2) task r.1
      exact ⟨hc.inv hinv, hr.trans hc.reuses, hc.context.trans hcontext⟩
    · exact ⟨hinv, hr, hcontext⟩

lemma Inv.vmodulesInit {ms : List Vmodule} (h : C.Inv s) (ht : s.context task ≠ 0)
    (hms : ms ⊆ C.vmodules) (hs : ms.foldlM (C.vmoduleInit task) s = some s') :
    C.Inv s' ∧ s.Reuses s' ∧ s'.context = s.context := by
  induction ms generalizing s with
  | nil =>
    obtain rfl := Option.some.inj hs
    exact ⟨h, .refl s, rfl⟩
  | cons m ms ih =>
    rw [List.foldlM_cons] at hs
    obtain ⟨s₁, h₁, h₂⟩ := Option.bind_eq_some_iff.1 hs
    obtain ⟨hinv, hr, hcontext⟩ := h.vmoduleInit ht (hms List.mem_cons_self) h₁
    obtain ⟨hinv', hr', hcontext'⟩ :=
      ih hinv (hcontext ▸ ht) (List.subset_of_cons_subset hms) h₂
    exact ⟨hinv', hr.trans hr', hcontext'.trans hcontext⟩

lemma Inv.taskVmodulesInit (h : C.Inv s) (ht : C.vmodules = [] ∨ s.context task = 0)
    (hs : C.taskVmodulesInit s task = some s') :
    C.Inv s' ∧ s.Reuses s' ∧ ∀ w ≠ task, s'.context w = s.context w := by
  rw [PowerConfig.taskVmodulesInit] at hs
  split_ifs at hs with hn
  · obtain rfl := Option.some.inj hs
    exact ⟨h, .refl s, fun _ _ => rfl⟩
  obtain ⟨r, hm, hs⟩ := Option.bind_eq_some_iff.1 hs
  have h0 := ht.resolve_left fun hnil => hn (hnil ▸ rfl)
  obtain ⟨hinv, hr⟩ := h.setTable h0 hm
  obtain ⟨a, s₁⟩ := r
  obtain ⟨ha, -, supply, rfl⟩ := PowerSys.malloc_eq_some hm
  have htable : (PowerSys.setTable { s with supply, live := s.live ++ [(task, a)] } task a).context
      = update s.context task a := rfl
  obtain ⟨hinv', hr', hcontext⟩ :=
    hinv.vmodulesInit (by rw [htable, update_self]; exact ha) (List.Subset.refl _) hs
  refine ⟨hinv', hr.trans hr', fun w hw => ?_⟩
  rw [hcontext, htable, update_of_ne hw]

lemma Inv.tasksInit {vs : List ℕ} (h : C.Inv s) (hvs : vs.Nodup)
    (h0 : C.vmodules = [] ∨ ∀ v ∈ vs, s.context v = 0)
    (hs : vs.foldlM C.taskVmodulesInit s = some s') : C.Inv s' ∧ s.Reuses s' := by
  induction vs generalizing s with
  | nil =>
    obtain rfl := Option.some.inj hs
    exact ⟨h, .refl s⟩
  | cons v vs ih =>
    rw [List.foldlM_cons] at hs
    obtain ⟨s₁, h₁, h₂⟩ := Option.bind_eq_some_iff.1 hs
    obtain ⟨hv, hvs⟩ := List.nodup_cons.1 hvs
    obtain ⟨hinv, hr, hother⟩ :=
      h.taskVmodulesInit (h0.imp_right fun h0 => h0 v List.mem_cons_self) h₁
    have h0' : C.vmodules = [] ∨ ∀ w ∈ vs, s₁.context w = 0 :=
      h0.imp_right fun h0 w hw =>
        (hother w fun heq => hv (heq ▸ hw)).trans (h0 w (List.mem_cons_of_mem v hw))
    obtain ⟨hinv', hr'⟩ := ih hinv hvs h0' h₂
    exact ⟨hinv', hr.trans hr'⟩

lemma calm_supply (s : PowerSys) (supply : List ℕ) : C.Calm s { s with supply } :=
  ⟨rfl, rfl, rfl, fun _ _ ht => Or.inl ht⟩

lemma Inv.act {e : PowerEvent} (h : C.Inv s) (hs : C.act s e = some s')
    (he : C.FirstPowerUp s e) : C.Inv s' ∧ s.Reuses s' := by
  by_cases hup : ∃ vmid supply, e = .powerUp vmid supply
  swap
  · have hc := calm_act (fun vmid supply heq => hup ⟨vmid, supply, heq⟩) hs
    exact ⟨hc.inv h, hc.reuses⟩
  obtain ⟨vmid, supply, rfl⟩ := hup
  have h0 := he (hs ▸ rfl)
  have hc := calm_supply (C := C) s supply
  rw [PowerConfig.act, vmPowerUp] at hs
  split at hs
  · obtain rfl := Option.some.inj hs
    exact ⟨hc.inv h, hc.reuses⟩
  · next vm hvm =>
    obtain ⟨s₁, hinit, rfl⟩ := Option.map_eq_some_iff.1 hs
    obtain ⟨hinv, hr⟩ :=
      (hc.inv h).tasksInit vm.nodup (h0.imp_right fun h0 => h0 vm hvm) hinit
    have hc' := calm_foldl (C := C) (s := s₁) (fun s v => calm_vcpuInit (s := s) vm v) vm.vcpus
    exact ⟨hc'.inv hinv, (hc.reuses.trans hr).trans hc'.reuses⟩

/-! ### A further power-up -/

/-- The vmodules take further objects and leave `task->context` alone. -/
lemma vmodulesInit_grows {ms : List Vmodule}
    (hs : ms.foldlM (C.vmoduleInit task) s = some s') :
    s'.context = s.context ∧ s.live ⊆ s'.live := by
  induction ms generalizing s with
  | nil =>
    obtain rfl := Option.some.inj hs
    exact ⟨rfl, List.Subset.refl _⟩
  | cons m ms ih =>
    rw [List.foldlM_cons] at hs
    obtain ⟨s₁, h₁, h₂⟩ := Option.bind_eq_some_iff.1 hs
    suffices h : s₁.context = s.context ∧ s.live ⊆ s₁.live by
      obtain ⟨hcontext, hlive⟩ := ih h₂
      exact ⟨hcontext.trans h.1, List.Subset.trans h.2 hlive⟩
    rw [vmoduleInit] at h₁
    by_cases hskip : m.contextSize = 0 ∨ m.validForTask.any fun valid => !valid task
    · rw [if_pos hskip] at h₁
      obtain rfl := Option.some.inj h₁
      exact ⟨rfl, List.Subset.refl _⟩
    rw [if_neg hskip] at h₁
    obtain ⟨⟨c, s₂⟩, hdata, rfl⟩ := Option.map_eq_some_iff.1 h₁
    have hgrow : s₂.context = s.context ∧ s.live ⊆ s₂.live := by
      rw [PowerSys.moduleData] at hdata
      split_ifs at hdata
      · obtain ⟨⟨a, s₃⟩, hmalloc, heq⟩ := Option.map_eq_some_iff.1 hdata
        obtain ⟨-, rfl⟩ := Prod.mk.inj heq
        obtain ⟨-, -, supply, rfl⟩ := PowerSys.malloc_eq_some hmalloc
        exact ⟨rfl, List.subset_append_left _ _⟩
      · obtain ⟨-, rfl⟩ := Prod.mk.inj (Option.some.inj hdata)
        exact ⟨rfl, List.Subset.refl _⟩
    split_ifs
    · have hc := calm_vtimerStateInit (C := C) (s := s₂) task c
      exact ⟨hc.context.trans hgrow.1, hc.live ▸ hgrow.2⟩
    · exact hgrow

/-- The table of a task is a new one. -/
lemma taskVmodulesInit_table (hn : C.vmodules ≠ []) (hs : C.taskVmodulesInit s task = some s') :
    s'.context task ∉ s.live.map Prod.snd ∧ (∀ w ≠ task, s'.context w = s.context w) ∧
      s.live ⊆ s'.live := by
  rw [taskVmodulesInit, if_neg fun h0 => hn (List.length_eq_zero_iff.1 h0)] at hs
  obtain ⟨⟨a, s₁⟩, hm, hs⟩ := Option.bind_eq_some_iff.1 hs
  obtain ⟨-, hfresh, supply, rfl⟩ := PowerSys.malloc_eq_some hm
  obtain ⟨hcontext, hlive⟩ := vmodulesInit_grows hs
  have htable : s'.context = update s.context task a := hcontext
  refine ⟨?_, fun w hw => ?_, ?_⟩
  · rw [htable, update_self]
    exact hfresh
  · rw [htable, update_of_ne hw]
  · exact List.Subset.trans (List.subset_append_left s.live [(task, a)]) hlive

lemma tasksInit_table {vs : List ℕ} (hn : C.vmodules ≠ [])
    (hs : vs.foldlM C.taskVmodulesInit s = some s') :
    (∀ v ∈ vs, s'.context v ∉ s.live.map Prod.snd) ∧ ∀ w ∉ vs, s'.context w = s.context w := by
  induction vs generalizing s with
  | nil =>
    obtain rfl := Option.some.inj hs
    exact ⟨fun v hv => absurd hv List.not_mem_nil, fun _ _ => rfl⟩
  | cons v vs ih =>
    rw [List.foldlM_cons] at hs
    obtain ⟨s₁, h₁, h₂⟩ := Option.bind_eq_some_iff.1 hs
    obtain ⟨htable, hother, hlive⟩ := taskVmodulesInit_table hn h₁
    obtain ⟨htables, hothers⟩ := ih h₂
    constructor
    · intro w hw
      by_cases hmem : w ∈ vs
      · exact fun h => htables w hmem (List.map_subset _ hlive h)
      · obtain rfl := (List.mem_cons.1 hw).resolve_right hmem
        rw [hothers w hmem]
        exact htable
    · intro w hw
      obtain ⟨hne, hmem⟩ := not_or.1 (fun h => hw (List.mem_cons.2 h))
      exact (hothers w hmem).trans (hother w hne)

/-- A power-up after which the tasks have their tables as before is the first one. -/
lemma Inv.firstPowerUp {e : PowerEvent} (h : C.Inv s)
    (hr : ∀ s' ∈ C.act s e, s.Reuses s') : C.FirstPowerUp s e := by
  cases e with
  | powerUp vmid supply =>
    intro hsome
    obtain ⟨s', hs⟩ := Option.isSome_iff_exists.1 hsome
    have hkeep := hr s' hs
    refine or_iff_not_imp_left.2 fun hn vm hvm v hv => ?_
    rw [PowerConfig.act, vmPowerUp, hvm] at hs
    obtain ⟨s₁, hinit, rfl⟩ := Option.map_eq_some_iff.1 hs
    by_contra hv0
    refine (tasksInit_table hn hinit).1 v hv ?_
    have hc := calm_foldl (C := C) (s := s₁) (fun s v => calm_vcpuInit (s := s) vm v) vm.vcpus
    rw [← hc.context, (hkeep v hv0).1]
    exact List.mem_map_of_mem (h.table_mem hv0)
  | powerOff => trivial
  | reset => trivial
  | vcpuPowerOn => trivial
  | save => trivial
  | restore => trivial
  | cntp => trivial
  | passBegin => trivial
  | passStep => trivial

lemma fresh_inv (h : s.Fresh) : C.Inv s where
  reachable task a := by simp [Reaches, h.live, h.context]
  nodup := by simp [h.live]
  timers cpu t ht := by
    rw [h.timers] at ht
    cases ht

/-- A power-up leaks nothing if and only if it is the first one of the VM, or there are no
vmodules. -/
theorem power_cycles_keep_contexts_iff (C : PowerConfig) (s : PowerSys) (es : List PowerEvent)
    (hs : s.Fresh) :
    Along C.step (fun s e => ∀ t ∈ s, ∀ t' ∈ C.act t e, C.NoLeak t t') (some s) es ↔
      Along C.step (fun s e => ∀ t ∈ s, C.FirstPowerUp t e) (some s) es := by
  refine along_iff (I := fun s => ∀ t ∈ s, C.Inv t) (L := fun _ _ => True) ?_ ?_ ?_ ?_
  · intro s e hI _
    constructor
    · exact fun h t ht => (hI t ht).firstPowerUp fun t' ht' => (h t ht t' ht').reuses
    · intro h t ht t' ht'
      obtain ⟨hinv, hr⟩ := (hI t ht).act ht' (h t ht)
      exact hinv.noLeak hr
  · intro s e hI _ h t' ht'
    obtain ⟨t, ht, ht'⟩ := Option.bind_eq_some_iff.1 ht'
    exact ((hI t ht).act ht' (h t ht)).1
  · rintro t ⟨⟩
    exact fresh_inv hs
  · exact along_const.2 fun _ _ => trivial

/-- `vfp` and the vtimer -/
def twoVmodules : List Vmodule := [⟨0, 528, none⟩, ⟨1, 200, some fun _ => true⟩]

lemma twoVmodules_ids :
    (twoVmodules.map Vmodule.id).Perm (List.range twoVmodules.length) := .refl _

/-- A VM of one vcpu -/
def oneVcpuConfig : PowerConfig where
  vmodules := twoVmodules
  ids := twoVmodules_ids
  vtimerVmoduleId := 1
  vms := fun vmid => if vmid = 1 then some ⟨[5], false, List.nodup_singleton 5⟩ else none
  affinity := fun _ => 0

def freshPower : PowerSys where
  context := fun _ => 0
  slot := fun _ _ => 0
  live := []
  supply := []
  stopped := fun _ => true
  timers := Timers.init (fun _ => 0) (fun _ => 0) fun _ => false

lemma freshPower_fresh : freshPower.Fresh := ⟨fun _ => rfl, rfl, fun _ => rfl⟩

/-- The guest arms its physical timer, and VM 0 powers the VM off and up again. -/
def twoPowerUps : List PowerEvent :=
  [.powerUp 1 [16, 32, 48], .cntp 0 5 (some 1000), .powerOff 1 fun _ => false,
    .powerUp 1 [64, 80, 96]]

/-- A VM that is powered up, reset from another cpu and powered off keeps its contexts. -/
theorem power_cycles_keep_contexts_reset :
    Along oneVcpuConfig.step
      (fun s e => ∀ t ∈ s, ∀ t' ∈ oneVcpuConfig.act t e, oneVcpuConfig.NoLeak t t')
      (some freshPower) [.powerUp 1 [16, 32, 48], .cntp 0 5 (some 1000), .reset 1 1 fun _ => false,
        .powerOff 1 fun _ => false] :=
  (power_cycles_keep_contexts_iff oneVcpuConfig freshPower _ freshPower_fresh).2
    (by
      refine ⟨?_, ?_, ?_, ?_, trivial⟩
      · rintro t ⟨⟩ -
        exact Or.inr fun _ _ _ _ => rfl
      all_goals exact fun _ _ => trivial)

/-- After the second power-up the first table, the contexts in it and a timer of one of them on the
list of a cpu are left behind. -/
lemma twoPowerUps_leak :
    (exec oneVcpuConfig.step (some freshPower) twoPowerUps).map (fun s =>
      (s.live, s.context 5, s.slot (s.context 5) 0, s.slot (s.context 5) 1, s.timers.active 0)) =
    some ([(5, 16), (5, 32), (5, 48), (5, 64), (5, 80), (5, 96)], 64, 80, 96, [phyTimer 48]) := by
  decide

/-- A power-up after a power-off loses the table and the contexts that a vcpu has. -/
theorem power_cycles_leak : ¬ ∀ (C : PowerConfig) (s : PowerSys) (es : List PowerEvent), s.Fresh →
    Along C.step (fun s e => ∀ t ∈ s, ∀ t' ∈ C.act t e, C.NoLeak t t') (some s) es := by
  intro h
  obtain ⟨-, -, -, hlast, -⟩ := h oneVcpuConfig freshPower twoPowerUps freshPower_fresh
  obtain ⟨s', hs', hleak⟩ := Option.map_eq_some_iff.1 twoPowerUps_leak
  change (exec oneVcpuConfig.step (some freshPower) twoPowerUps.dropLast).bind
    (fun s => oneVcpuConfig.act s (.powerUp 1 [64, 80, 96])) = some s' at hs'
  obtain ⟨s, hs, hact⟩ := Option.bind_eq_some_iff.1 hs'
  simp only [Prod.mk.injEq] at hleak
  obtain ⟨hlive, hcontext, hslot0, hslot1, -⟩ := hleak
  obtain ⟨-, htable | ⟨-, id, hid, hslot⟩⟩ :=
    ((hlast s hs s' hact).reachable 5 16).1 (by rw [hlive]; decide)
  · rw [hcontext] at htable
    exact absurd htable (by decide)
  · obtain rfl | rfl : id = 0 ∨ id = 1 := by
      change id < 2 at hid
      omega
    · exact absurd (hslot0.symm.trans hslot) (by decide)
    · exact absurd (hslot1.symm.trans hslot) (by decide)

end PowerConfig

end Minos.Virt
