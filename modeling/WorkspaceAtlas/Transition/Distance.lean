/-
# Distances

How many steps a node is away from a seed.  A node has at most one distance; one that is not the
seed has a predecessor that is one step nearer, so that a search that knows all nodes up to a
distance knows the distance of the successors it has not seen.
-/
import Mathlib.Tactic.Common
import Mathlib.Order.Nat

namespace Transition

variable {V : Type*} {next : V → V → Prop} {seed x y : V} {k d : ℕ}

/-- The node is reached in so many steps. -/
inductive Walk (next : V → V → Prop) (seed : V) : ℕ → V → Prop
  | seed : Walk next seed 0 seed
  | step {k : ℕ} {x y : V} (h : Walk next seed k x) (hxy : next x y) : Walk next seed (k + 1) y

/-- The node is reached in so many steps and not in fewer. -/
structure IsDist (next : V → V → Prop) (seed : V) (d : ℕ) (x : V) : Prop where
  walk : Walk next seed d x
  le : ∀ k, Walk next seed k x → d ≤ k

lemma isDist_seed : IsDist next seed 0 seed := ⟨.seed, fun k _ => Nat.zero_le k⟩

lemma IsDist.eq (h : IsDist next seed d x) (h' : IsDist next seed k x) : d = k :=
  Nat.le_antisymm (h.le k h'.walk) (h'.le d h.walk)

/-- What is reached has a distance. -/
lemma Walk.exists_isDist (h : Walk next seed k x) : ∃ d ≤ k, IsDist next seed d x := by
  induction k using Nat.strong_induction_on with
  | _ k ih =>
    by_cases hshort : ∃ j < k, Walk next seed j x
    · obtain ⟨j, hj, hwalk⟩ := hshort
      obtain ⟨d, hd, hdist⟩ := ih j hj hwalk
      exact ⟨d, hd.trans hj.le, hdist⟩
    · refine ⟨k, Nat.le_refl k, h, fun j hj => ?_⟩
      by_contra hlt
      exact hshort ⟨j, by omega, hj⟩

lemma IsDist.eq_seed (h : IsDist next seed 0 x) : x = seed := by
  cases h.walk
  rfl

/-- The node before the last one of a shortest walk. -/
lemma IsDist.exists_pred (h : IsDist next seed (d + 1) y) :
    ∃ x, IsDist next seed d x ∧ next x y := by
  cases h.walk with
  | step hwalk hxy =>
    refine ⟨_, ⟨hwalk, fun k hk => ?_⟩, hxy⟩
    have hle := h.le (k + 1) (hk.step hxy)
    omega

/-- A successor that is at none of the distances up to `d` is one step farther. -/
lemma IsDist.step (h : IsDist next seed d x) (hxy : next x y)
    (hnew : ∀ k ≤ d, ¬ IsDist next seed k y) : IsDist next seed (d + 1) y := by
  obtain ⟨k, hk, hdist⟩ := (h.walk.step hxy).exists_isDist
  rcases Nat.lt_or_ge d k with hlt | hle
  · obtain rfl : k = d + 1 := by omega
    exact hdist
  · exact absurd hdist (hnew k hle)

/-- What has the seed and every successor has every node that is reached. -/
lemma IsDist.of_closed {P : V → Prop} (hseed : P seed) (hclosed : ∀ x y, P x → next x y → P y)
    (h : IsDist next seed d x) : P x := by
  obtain ⟨hwalk, -⟩ := h
  induction hwalk with
  | seed => exact hseed
  | step _ hxy ih => exact hclosed _ _ ih hxy

end Transition
