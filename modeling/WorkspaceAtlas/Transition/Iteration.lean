/-
# Runs of a transition function

A system that takes one call after another is a function `step`; a run is its iteration
along a list of calls.  An invariant of the steps is an invariant of the run, also when the
steps keep it only under a condition on the state they start in and the call they make.
-/
import Mathlib.Tactic.Common
import Mathlib.Data.List.Basic

namespace Transition

variable {σ α : Type*} (step : σ → α → σ)

/-- The state after the calls `as`, made one after the other from `s`. -/
def run (s : σ) (as : List α) : σ := as.foldl step s

@[simp] lemma run_nil (s : σ) : run step s [] = s := rfl

@[simp] lemma run_cons (s : σ) (a : α) (as : List α) :
    run step s (a :: as) = run step (step s a) as := rfl

lemma run_append (s : σ) (as bs : List α) :
    run step s (as ++ bs) = run step (run step s as) bs := List.foldl_append

/-- Every call of the run meets `P` in the state in which it is made. -/
def AllSteps (P : σ → α → Prop) : σ → List α → Prop
  | _, [] => True
  | s, a :: as => P s a ∧ AllSteps P (step s a) as

instance decidableAllSteps (P : σ → α → Prop) [∀ s a, Decidable (P s a)] :
    ∀ (s : σ) (as : List α), Decidable (AllSteps step P s as)
  | _, [] => isTrue trivial
  | s, a :: as =>
    have := decidableAllSteps P (step s a) as
    inferInstanceAs (Decidable (P s a ∧ AllSteps step P (step s a) as))

/-- `Q` holds in every state the run passes through, the first included. -/
def AllStates (Q : σ → Prop) : σ → List α → Prop
  | s, [] => Q s
  | s, a :: as => Q s ∧ AllStates Q (step s a) as

variable {step} {P P' : σ → α → Prop} {I Q : σ → Prop} {s : σ} {as : List α}

@[simp] lemma allSteps_nil : AllSteps step P s [] := trivial

@[simp] lemma allSteps_cons {a : α} :
    AllSteps step P s (a :: as) ↔ P s a ∧ AllSteps step P (step s a) as := Iff.rfl

lemma allSteps_of_forall (h : ∀ s a, P s a) : AllSteps step P s as := by
  induction as generalizing s with
  | nil => trivial
  | cons a as ih => exact ⟨h s a, ih⟩

/-- The call after a prefix of the run meets what every call meets. -/
lemma AllSteps.at_prefix {a : α} (cs bs : List α) (h : AllSteps step P s (cs ++ a :: bs)) :
    P (run step s cs) a := by
  induction cs generalizing s with
  | nil => exact h.1
  | cons c cs ih => exact ih h.2

/-- **Invariant rule.**  What every step preserves holds after every run. -/
theorem run_invariant (h₀ : I s) (hstep : ∀ s a, I s → I (step s a)) : I (run step s as) := by
  induction as generalizing s with
  | nil => exact h₀
  | cons a as ih => exact ih (hstep s a h₀)

/-- **Conditional invariant rule.**  The steps have to preserve the invariant only where
they meet `P`, if all of them do. -/
theorem run_invariant_of_allSteps (h₀ : I s) (hP : AllSteps step P s as)
    (hstep : ∀ s a, I s → P s a → I (step s a)) : I (run step s as) := by
  induction as generalizing s with
  | nil => exact h₀
  | cons a as ih => exact ih (hstep s a h₀ hP.1) hP.2

/-- **Safety rule.**  What an invariant implies holds in every state of a run whose steps
keep it. -/
theorem allStates_of_allSteps (h₀ : I s) (hP : AllSteps step P s as)
    (hstep : ∀ s a, I s → P s a → I (step s a)) (hQ : ∀ s, I s → Q s) :
    AllStates step Q s as := by
  induction as generalizing s with
  | nil => exact hQ s h₀
  | cons a as ih => exact ⟨hQ s h₀, ih (hstep s a h₀ hP.1) hP.2⟩

/-- The state a run ends in is one of its states. -/
lemma AllStates.at_end (h : AllStates step Q s as) : Q (run step s as) := by
  induction as generalizing s with
  | nil => exact h
  | cons a as ih => exact ih h.2

lemma AllSteps.and (h : AllSteps step P s as) (h' : AllSteps step P' s as) :
    AllSteps step (fun s a => P s a ∧ P' s a) s as := by
  induction as generalizing s with
  | nil => trivial
  | cons a as ih => exact ⟨⟨h.1, h'.1⟩, ih h.2 h'.2⟩

/-- Under an invariant that the steps meeting `P` keep, two step conditions that agree hold
along the same runs. -/
theorem allSteps_congr (h₀ : I s) (hstep : ∀ s a, I s → P s a → I (step s a))
    (hiff : ∀ s a, I s → (P' s a ↔ P s a)) : AllSteps step P' s as ↔ AllSteps step P s as := by
  induction as generalizing s with
  | nil => exact Iff.rfl
  | cons a as ih =>
    simp only [allSteps_cons]
    rw [hiff s a h₀]
    exact and_congr_right fun hP => ih (hstep s a h₀ hP)

/-- A property holds in every state of a run exactly when every step meets `P`, if `P` is
exactly what a step needs to keep it. -/
theorem allStates_iff_allSteps (hI : I s) (hQ : Q s)
    (hinv : ∀ s a, I s → Q s → P s a → I (step s a))
    (hiff : ∀ s a, I s → Q s → (Q (step s a) ↔ P s a)) :
    AllStates step Q s as ↔ AllSteps step P s as := by
  induction as generalizing s with
  | nil => exact ⟨fun _ => trivial, fun _ => hQ⟩
  | cons a as ih =>
    have key := hiff s a hI hQ
    constructor
    · rintro ⟨-, h⟩
      have hQ' : Q (step s a) := by
        cases as with
        | nil => exact h
        | cons b bs => exact h.1
      exact ⟨key.mp hQ', (ih (hinv s a hI hQ (key.mp hQ')) hQ').mp h⟩
    · rintro ⟨hP, h⟩
      exact ⟨hQ, (ih (hinv s a hI hQ hP) (key.mpr hP)).mpr h⟩

end Transition
