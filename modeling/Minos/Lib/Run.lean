import Mathlib

/-!
# Runs of a deterministic system

A run is a list of events, and `Along P s es` says that `P` holds of every event of the run from
`s`, in the state in which it happens.
-/

namespace Run

variable {σ ε : Type*} (step : σ → ε → σ)

/-- The state after the events `es`. -/
def exec (s : σ) (es : List ε) : σ := es.foldl step s

/-- `P` holds of each event of the run, in the state before the event. -/
def Along (P : σ → ε → Prop) : σ → List ε → Prop
  | _, [] => True
  | s, e :: es => P s e ∧ Along P (step s e) es

variable {step} {P Q : σ → ε → Prop} {s : σ} {e : ε} {es : List ε}

@[simp] lemma exec_nil : exec step s [] = s := rfl

@[simp] lemma exec_cons : exec step s (e :: es) = exec step (step s e) es := rfl

@[simp] lemma along_nil : Along step P s [] := trivial

@[simp] lemma along_cons : Along step P s (e :: es) ↔ P s e ∧ Along step P (step s e) es := Iff.rfl

instance [∀ s e, Decidable (P s e)] : (s : σ) → (es : List ε) → Decidable (Along step P s es)
  | _, [] => inferInstanceAs (Decidable True)
  | s, e :: es =>
    have : Decidable (Along step P (step s e) es) := instDecidableAlong (step s e) es
    inferInstanceAs (Decidable (P s e ∧ Along step P (step s e) es))

lemma along_congr (h : ∀ s e, P s e ↔ Q s e) : Along step P s es ↔ Along step Q s es := by
  induction es generalizing s with
  | nil => simp
  | cons e es ih => simp [h s e, ih]

/-- The same where an invariant holds. -/
lemma along_congr_inv {I : σ → Prop} (hstep : ∀ s e, I s → I (step s e))
    (h : ∀ s e, I s → (P s e ↔ Q s e)) (hs : I s) : Along step P s es ↔ Along step Q s es := by
  induction es generalizing s with
  | nil => simp
  | cons e es ih => exact and_congr (h s e hs) (ih (hstep s e hs))

lemma along_and :
    Along step (fun s e => P s e ∧ Q s e) s es ↔ Along step P s es ∧ Along step Q s es := by
  induction es generalizing s with
  | nil => simp
  | cons e es ih => simp [ih, and_and_and_comm]

lemma exec_append {es' : List ε} : exec step s (es ++ es') = exec step (exec step s es) es' :=
  List.foldl_append

lemma along_append {es' : List ε} :
    Along step P s (es ++ es') ↔ Along step P s es ∧ Along step P (exec step s es) es' := by
  induction es generalizing s with
  | nil => simp
  | cons e es ih => simp [ih, and_assoc]

/-- A condition on the events alone. -/
lemma along_const {E : ε → Prop} : Along step (fun _ e => E e) s es ↔ ∀ e ∈ es, E e := by
  induction es generalizing s with
  | nil => simp
  | cons e es ih => simp [ih]

/-- An invariant that the events of the run keep holds in the state after it. -/
lemma exec_induction {I : σ → Prop} (hstep : ∀ s e, I s → Q s e → I (step s e)) (h : I s)
    (hQ : Along step Q s es) : I (exec step s es) := by
  induction es generalizing s with
  | nil => exact h
  | cons e es ih => exact ih (hstep s e h hQ.1) hQ.2

/-- Two systems that keep a relation between their states keep it over a run. -/
lemma exec_simulation {τ : Type*} {step' : τ → ε → τ} {R : σ → τ → Prop} {t : τ}
    (hstep : ∀ s t e, R s t → Q s e → R (step s e) (step' t e)) (h : R s t)
    (hQ : Along step Q s es) : R (exec step s es) (exec step' t es) := by
  induction es generalizing s t with
  | nil => exact h
  | cons e es ih => exact ih (hstep s t e h hQ.1) hQ.2

/-- What follows from an invariant holds along every run that keeps the invariant. -/
lemma along_induction {I : σ → Prop} (hstep : ∀ s e, I s → Q s e → I (step s e))
    (hP : ∀ s e, I s → Q s e → P s e) (h : I s) (hQ : Along step Q s es) : Along step P s es := by
  induction es generalizing s with
  | nil => trivial
  | cons e es ih => exact ⟨hP s e h hQ.1, ih (hstep s e h hQ.1) hQ.2⟩

/-- A run whose events all make a measure smaller is no longer than the measure. -/
lemma length_le_of_lt {I : σ → Prop} (μ : σ → ℕ) (hstep : ∀ s e, I s → Q s e → I (step s e))
    (hlt : ∀ s e, I s → Q s e → μ (step s e) < μ s) (h : I s) (hQ : Along step Q s es) :
    es.length + μ (exec step s es) ≤ μ s := by
  induction es generalizing s with
  | nil => simp
  | cons e es ih =>
    have hfirst := hlt s e h hQ.1
    have hrest := ih (hstep s e h hQ.1) hQ.2
    rw [List.length_cons, exec_cons]
    omega

/-- Two properties of the events of a run are the same when they are from an invariant that the
second one keeps. -/
lemma along_iff {I : σ → Prop} {L : σ → ε → Prop} (h : ∀ s e, I s → L s e → (P s e ↔ Q s e))
    (hstep : ∀ s e, I s → L s e → Q s e → I (step s e)) (hs : I s) (hL : Along step L s es) :
    Along step P s es ↔ Along step Q s es := by
  induction es generalizing s with
  | nil => simp
  | cons e es ih =>
    rw [along_cons, along_cons, h s e hs hL.1]
    exact and_congr_right fun hQ => ih (hstep s e hs hL.1 hQ) hL.2

/-- Every state of a run has a property: the first one, and the one after each event. -/
lemma forall_prefix_iff {I : σ → Prop} :
    (∀ pre, pre <+: es → I (exec step s pre)) ↔
      I s ∧ Along step (fun s e => I (step s e)) s es := by
  induction es generalizing s with
  | nil => simp
  | cons e es ih =>
    rw [along_cons]
    constructor
    · intro h
      refine ⟨h [] List.nil_prefix, ?_⟩
      rw [← ih]
      exact fun pre hpre => h (e :: pre) ((List.prefix_cons_inj e).2 hpre)
    · rintro ⟨hs, hrest⟩ pre hpre
      rw [← ih] at hrest
      rcases List.prefix_cons_iff.1 hpre with rfl | ⟨t, rfl, ht⟩
      · exact hs
      · exact hrest t ht

/-! ### What is seen of a run -/

variable (step) in
/-- What `obs` sees of the events of the run, in order. -/
def trace {β : Type*} (obs : σ → ε → List β) : σ → List ε → List β
  | _, [] => []
  | s, e :: es => obs s e ++ trace obs (step s e) es

section Trace

variable {β τ : Type*} {obs : σ → ε → List β} {step' : τ → β → τ} {L : τ → β → Prop}
  {R : σ → τ → Prop} {t : τ}

@[simp] lemma trace_nil : trace step obs s [] = [] := rfl

@[simp] lemma trace_cons : trace step obs s (e :: es) = obs s e ++ trace step obs (step s e) es :=
  rfl

lemma trace_append {es' : List ε} :
    trace step obs s (es ++ es') = trace step obs s es ++ trace step obs (exec step s es) es' := by
  induction es generalizing s with
  | nil => simp
  | cons e es ih => simp [ih, List.append_assoc]

/-- A forward simulation: what is seen of a run is a run of the second system with legal events,
and it ends in a related state. -/
lemma trace_simulation
    (hstep : ∀ s t e, R s t → Along step' L t (obs s e) ∧ R (step s e) (exec step' t (obs s e)))
    (h : R s t) :
    Along step' L t (trace step obs s es) ∧
      R (exec step s es) (exec step' t (trace step obs s es)) := by
  induction es generalizing s t with
  | nil => exact ⟨trivial, h⟩
  | cons e es ih =>
    obtain ⟨hlegal, hnext⟩ := hstep s t e h
    obtain ⟨hrest, hend⟩ := ih hnext
    rw [trace_cons, along_append, exec_append]
    exact ⟨⟨hlegal, hrest⟩, hend⟩

end Trace

end Run
