import Minos.Lib.Run

/-!
# What a run has written

The value of a field after a run, when each event writes the field or leaves it, and of a flag that
is set and never cleared.
-/

namespace Run

variable {σ ε γ : Type*} {step : σ → ε → σ} {s : σ} {es : List ε}

/-- A field has the last value that was written. -/
lemma exec_last (field : σ → γ) {write : ε → Option γ}
    (h : ∀ s e, field (step s e) = (write e).getD (field s)) :
    field (exec step s es) = ((es.filterMap write).getLast?).getD (field s) := by
  induction es generalizing s with
  | nil => rfl
  | cons e es ih =>
    rw [exec_cons, ih, h]
    cases hw : write e with
    | none => rw [List.filterMap_cons_none hw, Option.getD_none]
    | some x =>
      rw [List.filterMap_cons_some hw, Option.getD_some, List.getLast?_cons, Option.getD_some]

/-- A flag is set when some event has set it. -/
lemma exec_flag (flag : σ → Prop) {sets : ε → Prop}
    (h : ∀ s e, flag (step s e) ↔ flag s ∨ sets e) :
    flag (exec step s es) ↔ flag s ∨ ∃ e ∈ es, sets e := by
  induction es generalizing s with
  | nil => simp
  | cons e es ih => simp only [exec_cons, ih, h, List.mem_cons, exists_eq_or_imp, or_assoc]

end Run
