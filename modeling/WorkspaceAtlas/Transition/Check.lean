/-
# Checks

A validator is a sequence of checks, each of which returns early with its error.  It accepts
exactly when every check holds.
-/
import WorkspaceAtlas.Transition.Loop

namespace Transition

universe u

variable {ε : Type*} {τ : Type} {p : Prop} [Decidable p] {e : ε}

/-- An early return with `e` unless `p` holds. -/
def ensure (p : Prop) [Decidable p] (e : ε) : Except ε Unit := if p then .ok () else .error e

@[simp] lemma ensure_eq_ok : ensure p e = .ok () ↔ p := by
  by_cases h : p <;> simp [ensure, h]

/-- A check and what follows it both succeed. -/
@[simp] lemma check_bind_eq_ok {x : Except ε Unit} {y : Except ε τ} {r : τ} :
    (do x; y) = .ok r ↔ x = .ok () ∧ y = .ok r := by
  rw [bind_ok]
  exact ⟨fun ⟨_, hx, hy⟩ => ⟨hx, hy⟩, fun ⟨hx, hy⟩ => ⟨(), hx, hy⟩⟩

end Transition
