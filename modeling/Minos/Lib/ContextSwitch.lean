import Mathlib

/-!
# Registers saved and restored by modules

The context of a task is kept in parts, each by a module of its own, and a switch asks one module
after the other to save its registers or to restore them. A module may write registers also when it
saves. It is enough that no module writes a register of another one: then a register that its own
module keeps comes back with the value it had.
-/

namespace ContextSwitch

variable {R V T ι : Type*} [DecidableEq R]

/-! ### Writes of registers -/

/-- The registers after the writes of a list, one after the other. -/
def writeAll (f : R → V) (ws : List (R × V)) : R → V :=
  ws.foldl (fun f w => Function.update f w.1 w.2) f

@[simp] lemma writeAll_nil (f : R → V) : writeAll f [] = f := rfl

@[simp] lemma writeAll_cons (f : R → V) (w : R × V) (ws : List (R × V)) :
    writeAll f (w :: ws) = writeAll (Function.update f w.1 w.2) ws := rfl

lemma writeAll_of_notMem {f : R → V} {ws : List (R × V)} {r : R} (h : ∀ w ∈ ws, w.1 ≠ r) :
    writeAll f ws r = f r := by
  induction ws generalizing f with
  | nil => rfl
  | cons w ws ih =>
    rw [writeAll_cons, ih fun w' hw' => h w' (List.mem_cons_of_mem _ hw')]
    exact Function.update_of_ne (h w List.mem_cons_self).symm _ _

/-- All writes of a register write the same value. -/
lemma writeAll_of_mem {f : R → V} {ws : List (R × V)} {r : R} {v : V}
    (h : ∀ w ∈ ws, w.1 = r → w.2 = v) (hr : ∃ w ∈ ws, w.1 = r) : writeAll f ws r = v := by
  induction ws generalizing f with
  | nil => simp at hr
  | cons w ws ih =>
    rw [writeAll_cons]
    by_cases hws : ∃ w ∈ ws, w.1 = r
    · exact ih (fun w' hw' => h w' (List.mem_cons_of_mem _ hw')) hws
    · simp only [not_exists, not_and] at hws
      obtain ⟨w', hw', hr⟩ := hr
      obtain rfl : w' = w := (List.mem_cons.1 hw').resolve_right fun hmem => hws w' hmem hr
      rw [writeAll_of_notMem hws, ← hr, Function.update_self]
      exact h w' hw' hr

/-! ### Modules -/

/-- Modules that save and restore the registers of tasks. Every register has an owner, and a module
writes no register of another owner. -/
structure Modules (R V T ι : Type*) where
  /-- What a module remembers of a task. -/
  Context : ι → Type
  save : (i : ι) → T → (R → V) → Context i → Context i
  saveWrites : (i : ι) → T → (R → V) → List (R × V)
  restoreWrites : (i : ι) → T → Context i → List (R × V)
  owner : R → ι
  saveWrites_owner : ∀ i t f, ∀ w ∈ saveWrites i t f, owner w.1 = i
  restoreWrites_owner : ∀ i t c, ∀ w ∈ restoreWrites i t c, owner w.1 = i

namespace Modules

/-- The contexts of a task, for the modules that have one for it. -/
abbrev Contexts (M : Modules R V T ι) := (i : ι) → Option (M.Context i)

variable (M : Modules R V T ι)

/-! ### Restoring -/

def restoreOne (t : T) (ctx : M.Contexts) (f : R → V) (i : ι) : R → V :=
  match ctx i with
  | none => f
  | some c => writeAll f (M.restoreWrites i t c)

def restoreAll (l : List ι) (t : T) (ctx : M.Contexts) (f : R → V) : R → V :=
  l.foldl (M.restoreOne t ctx) f

/-- In its owner's context the value of the register `r` is `v`. -/
def Holds (t : T) (ctx : M.Contexts) (r : R) (v : V) : Prop :=
  ∃ c, ctx (M.owner r) = some c ∧ (∃ w ∈ M.restoreWrites _ t c, w.1 = r) ∧
    ∀ w ∈ M.restoreWrites _ t c, w.1 = r → w.2 = v

section Restore

variable {M} {t : T} {ctx : M.Contexts} {f : R → V} {l : List ι} {i : ι} {r : R} {v : V}

lemma restoreAll_cons :
    M.restoreAll (i :: l) t ctx f = M.restoreAll l t ctx (M.restoreOne t ctx f i) := rfl

lemma restoreOne_of_ne (h : M.owner r ≠ i) : M.restoreOne t ctx f i r = f r := by
  rw [restoreOne]
  cases ctx i with
  | none => rfl
  | some c => exact writeAll_of_notMem fun w hw hr => h (hr ▸ M.restoreWrites_owner i t c w hw)

lemma restoreOne_of_holds (h : M.Holds t ctx r v) : M.restoreOne t ctx f (M.owner r) r = v := by
  obtain ⟨c, hc, hr, hv⟩ := h
  rw [restoreOne, hc]
  exact writeAll_of_mem hv hr

lemma restoreAll_of_notMem (h : M.owner r ∉ l) : M.restoreAll l t ctx f r = f r := by
  induction l generalizing f with
  | nil => rfl
  | cons i l ih =>
    rw [List.mem_cons, not_or] at h
    rw [restoreAll_cons, ih h.2, restoreOne_of_ne h.1]

/-- After all modules restored, the registers have the values that the contexts hold. -/
lemma restoreAll_of_holds (h : M.Holds t ctx r v) (hr : M.owner r ∈ l) :
    M.restoreAll l t ctx f r = v := by
  induction l generalizing f with
  | nil => simp at hr
  | cons i l ih =>
    rw [restoreAll_cons]
    by_cases hl : M.owner r ∈ l
    · exact ih hl
    · obtain rfl := (List.mem_cons.1 hr).resolve_right hl
      rw [restoreAll_of_notMem hl, restoreOne_of_holds h]

end Restore

/-! ### Saving -/

variable [DecidableEq ι]

def saveOne (t : T) (s : M.Contexts × (R → V)) (i : ι) : M.Contexts × (R → V) :=
  match s.1 i with
  | none => s
  | some c => (Function.update s.1 i (some (M.save i t s.2 c)), writeAll s.2 (M.saveWrites i t s.2))

def saveAll (l : List ι) (t : T) (s : M.Contexts × (R → V)) : M.Contexts × (R → V) :=
  l.foldl (M.saveOne t) s

/-- What the owner of `r` restores is what it saved. -/
def Keeps (t : T) (r : R) : Prop :=
  ∀ f c, (∃ w ∈ M.restoreWrites _ t (M.save (M.owner r) t f c), w.1 = r) ∧
    ∀ w ∈ M.restoreWrites _ t (M.save (M.owner r) t f c), w.1 = r → w.2 = f r

variable {M} {t : T} {s : M.Contexts × (R → V)} {l : List ι} {i : ι} {r : R}

lemma saveOne_regs (h : M.owner r ≠ i) : (M.saveOne t s i).2 r = s.2 r := by
  rw [saveOne]
  cases s.1 i with
  | none => rfl
  | some c => exact writeAll_of_notMem fun w hw hr => h (hr ▸ M.saveWrites_owner i t s.2 w hw)

lemma saveOne_ctx {j : ι} (h : j ≠ i) : (M.saveOne t s i).1 j = s.1 j := by
  rw [saveOne]
  cases s.1 i with
  | none => rfl
  | some c => exact Function.update_of_ne h _ _

lemma saveOne_self {c : M.Context i} (h : s.1 i = some c) :
    (M.saveOne t s i).1 i = some (M.save i t s.2 c) := by
  rw [saveOne, h]
  exact Function.update_self i _ _

lemma saveAll_cons : M.saveAll (i :: l) t s = M.saveAll l t (M.saveOne t s i) := rfl

lemma saveAll_ctx {j : ι} (h : j ∉ l) : (M.saveAll l t s).1 j = s.1 j := by
  induction l generalizing s with
  | nil => rfl
  | cons i l ih =>
    rw [List.mem_cons, not_or] at h
    rw [saveAll_cons, ih h.2, saveOne_ctx h.1]

/-- After all modules saved, the contexts hold what was in the registers. -/
lemma holds_saveAll (hk : M.Keeps t r) (hl : l.Nodup) (hr : M.owner r ∈ l)
    (hc : s.1 (M.owner r) ≠ none) : M.Holds t (M.saveAll l t s).1 r (s.2 r) := by
  induction l generalizing s with
  | nil => simp at hr
  | cons i l ih =>
    rw [List.nodup_cons] at hl
    rw [saveAll_cons]
    by_cases hi : M.owner r = i
    · subst hi
      obtain ⟨c, hc⟩ := Option.ne_none_iff_exists'.1 hc
      exact ⟨_, (saveAll_ctx hl.1).trans (saveOne_self hc), hk s.2 c⟩
    · rw [← saveOne_regs hi (t := t)]
      refine ih hl.2 ((List.mem_cons.1 hr).resolve_left hi) ?_
      rwa [saveOne_ctx hi]

lemma isSome_saveAll {j : ι} : ((M.saveAll l t s).1 j).isSome = (s.1 j).isSome := by
  induction l generalizing s with
  | nil => rfl
  | cons i l ih =>
    rw [saveAll_cons, ih]
    by_cases hj : j = i
    · subst hj
      cases hc : s.1 j with
      | none => rw [saveOne, hc, hc]
      | some c => rw [saveOne_self hc]; rfl
    · rw [saveOne_ctx hj]

end Modules

end ContextSwitch
