import Mathlib

/-!
# A word with exclusive monitors

A load exclusive sets the monitor of its processor, and every store of the word clears all
monitors. A store exclusive succeeds only while the monitor of its processor is set, and it may fail
even then.
-/

open Function

structure ExclusiveWord (Cpu Val : Type*) where
  value : Val
  monitor : Cpu → Bool

namespace ExclusiveWord

variable {Cpu Val : Type*}

/-- The word after a store of `v`: no monitor is set. -/
def stored (v : Val) : ExclusiveWord Cpu Val := ⟨v, fun _ => false⟩

variable (w : ExclusiveWord Cpu Val)

/-- A store exclusive succeeds. With `ok` false it fails although the monitor is set. -/
def CanStore (c : Cpu) (ok : Bool) : Prop := w.monitor c = true ∧ ok = true

instance (c : Cpu) (ok : Bool) : Decidable (w.CanStore c ok) := inferInstanceAs (Decidable (_ ∧ _))

/-- What a processor with its monitor set relies on holds of the value of the word. -/
def Fresh (P : Cpu → Val → Prop) : Prop := ∀ c, w.monitor c = true → P c w.value

section

variable [DecidableEq Cpu]

def loadExclusive (c : Cpu) : ExclusiveWord Cpu Val := { w with monitor := update w.monitor c true }

def clear (c : Cpu) : ExclusiveWord Cpu Val := { w with monitor := update w.monitor c false }

end

variable {w} {c : Cpu} {v : Val} {ok : Bool} {P Q : Cpu → Val → Prop}

@[simp] lemma value_stored : (stored v : ExclusiveWord Cpu Val).value = v := rfl

lemma fresh_stored : (stored v : ExclusiveWord Cpu Val).Fresh P := fun _ h => by cases h

/-- What a processor relies on may change while its monitor is clear. -/
lemma Fresh.mono (h : w.Fresh P) (hPQ : ∀ d, w.monitor d = true → P d w.value → Q d w.value) :
    w.Fresh Q := fun d hd => hPQ d hd (h d hd)

variable [DecidableEq Cpu]

@[simp] lemma value_loadExclusive : (w.loadExclusive c).value = w.value := rfl

@[simp] lemma value_clear : (w.clear c).value = w.value := rfl

lemma Fresh.loadExclusive (h : w.Fresh P) (hother : ∀ d, d ≠ c → P d w.value → Q d w.value)
    (hc : Q c w.value) : (w.loadExclusive c).Fresh Q := by
  intro d hd
  by_cases hdc : d = c
  · rw [hdc]
    exact hc
  · have hd : update w.monitor c true d = true := hd
    rw [update_of_ne hdc] at hd
    exact hother d hdc (h d hd)

lemma Fresh.clear (h : w.Fresh P) (hother : ∀ d, d ≠ c → P d w.value → Q d w.value) :
    (w.clear c).Fresh Q := by
  intro d hd
  have hd : update w.monitor c false d = true := hd
  by_cases hdc : d = c
  · rw [hdc, update_self] at hd
    cases hd
  · rw [update_of_ne hdc] at hd
    exact hother d hdc (h d hd)

end ExclusiveWord
