/-
# A stack of pending nodes

A loop pops a node, collects what is found there and pushes the nodes below it, until the stack
is empty.  Whatever the order in which they are pushed, it visits every node of the trees whose
roots it began with, and each of them once.
-/
import Mathlib.Algebra.Order.Ring.Nat
import Mathlib.Data.List.Basic
import WorkspaceAtlas.Transition.Loop

namespace Transition

variable {α β : Type} {ε : Type*}

lemma sum_le_of_sublist {l l' : List ℕ} (h : l.Sublist l') : l.sum ≤ l'.sum := by
  induction h with
  | slnil => exact Nat.le_refl _
  | cons a _ ih => exact Nat.le_trans ih (Nat.le_add_left _ _)
  | cons_cons a _ ih => exact Nat.add_le_add_left ih a

/-- Finite trees: the nodes below a node are together smaller than it. -/
structure Branching (α : Type) where
  next : α → List α
  size : α → ℕ
  size_next : ∀ a, ((next a).map size).sum < size a

namespace Branching

/-- The stack, its top first, once a node has been popped and those below it pushed. -/
def push (T : Branching α) (a : α) (stack : List α) : List α := (T.next a).reverse ++ stack

lemma sum_push_lt (T : Branching α) (a : α) (stack : List α) :
    ((T.push a stack).map T.size).sum < ((a :: stack).map T.size).sum := by
  have hlt := T.size_next a
  rw [push, List.map_append, List.sum_append, List.map_reverse, List.sum_reverse, List.map_cons,
    List.sum_cons]
  omega

/-- The loop. -/
def drain (T : Branching α) (visit : α → Except ε (List β)) : List α → Except ε (List β)
  | [] => .ok []
  | a :: stack => do
    let found ← visit a
    return found ++ (← drain T visit (T.push a stack))
termination_by stack => (stack.map T.size).sum
decreasing_by exact T.sum_push_lt a stack

/-- The nodes of a tree, in some order. -/
def Enumerates (T : Branching α) (nodes : α → List α) : Prop :=
  ∀ a, (nodes a).Perm (a :: (T.next a).flatMap nodes)

variable {T : Branching α} {nodes : α → List α} {visit : α → Except ε (List β)}
  {stack : List α} {out : List β} {e : ε} {a : α}

/-- What is found at a node, if the visit succeeds. -/
def found (visit : α → Except ε (List β)) (a : α) : List β :=
  match visit a with
  | .ok l => l
  | .error _ => []

lemma found_eq {l : List β} (h : visit a = .ok l) : found visit a = l := by
  rw [found, h]

/-- What is left to visit after a node has been popped. -/
lemma Enumerates.pop (h : T.Enumerates nodes) (a : α) (stack : List α) :
    ((a :: stack).flatMap nodes).Perm
      (a :: (T.push a stack).flatMap nodes) := by
  rw [push, List.flatMap_cons, List.flatMap_append, ← List.cons_append]
  have hreverse : ((T.next a).flatMap nodes).Perm ((T.next a).reverse.flatMap nodes) :=
    (List.reverse_perm _).symm.flatMap_right _
  exact ((h a).trans (hreverse.cons a)).append_right _

/-- The loop succeeds with what is found at the nodes, or with the error of one of them. -/
lemma drain_cases (h : T.Enumerates nodes) (visit : α → Except ε (List β)) (stack : List α) :
    (∃ out, T.drain visit stack = .ok out ∧
      (∀ a ∈ stack.flatMap nodes, ∃ l, visit a = .ok l) ∧
        out.Perm ((stack.flatMap nodes).flatMap (found visit))) ∨
      ∃ e, T.drain visit stack = .error e ∧ ∃ a ∈ stack.flatMap nodes, visit a = .error e := by
  induction stack using drain.induct T with
  | case1 =>
    refine Or.inl ⟨[], by rw [drain], ?_, .nil⟩
    intro a ha
    exact absurd ha List.not_mem_nil
  | case2 a stack ih =>
    have hpop := h.pop a stack
    cases hvisit : visit a with
    | error e =>
      refine Or.inr ⟨e, ?_, a, hpop.mem_iff.mpr List.mem_cons_self, hvisit⟩
      rw [drain, hvisit]
      rfl
    | ok l =>
      rcases ih with ⟨out, hdrain, hok, hperm⟩ | ⟨e, hdrain, b, hb, hberror⟩
      · refine Or.inl ⟨l ++ out, ?_, fun b hb => ?_, ?_⟩
        · rw [drain, hvisit]
          simp only [bind, Except.bind, hdrain]
          rfl
        · rcases List.mem_cons.mp (hpop.mem_iff.mp hb) with rfl | hmem
          · exact ⟨l, hvisit⟩
          · exact hok b hmem
        · have hflat := hpop.flatMap_right (found visit)
          have hcons : (a :: (T.push a stack).flatMap nodes).flatMap (found visit) =
              l ++ ((T.push a stack).flatMap nodes).flatMap (found visit) := by
            rw [List.flatMap_cons, found_eq hvisit]
          exact (hperm.append_left l).trans (hcons ▸ hflat.symm)
      · refine Or.inr ⟨e, ?_, b, hpop.mem_iff.mpr (List.mem_cons_of_mem _ hb), hberror⟩
        rw [drain, hvisit]
        simp only [bind, Except.bind, hdrain]

/-- If the loop succeeds, every visit does, and what is found is what the nodes hold. -/
theorem drain_ok (h : T.Enumerates nodes) (hdrain : T.drain visit stack = .ok out) :
    (∀ a ∈ stack.flatMap nodes, ∃ l, visit a = .ok l) ∧
      out.Perm ((stack.flatMap nodes).flatMap (found visit)) := by
  rcases drain_cases h visit stack with ⟨out', hdrain', hok, hperm⟩ | ⟨e, hdrain', -⟩
  · obtain rfl := Except.ok.inj (hdrain.symm.trans hdrain')
    exact ⟨hok, hperm⟩
  · nomatch hdrain.symm.trans hdrain'

/-- If the loop fails, a visit does. -/
theorem drain_error (h : T.Enumerates nodes) (hdrain : T.drain visit stack = .error e) :
    ∃ a ∈ stack.flatMap nodes, visit a = .error e := by
  rcases drain_cases h visit stack with ⟨out', hdrain', -⟩ | ⟨e', hdrain', herror⟩
  · nomatch hdrain.symm.trans hdrain'
  · obtain rfl := Except.error.inj (hdrain.symm.trans hdrain')
    exact herror

end Branching

end Transition
