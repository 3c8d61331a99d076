/-
# Dialogues

A program that calls another party is the tree of its calls: after each call it goes on
according to the answer, which it does not control.  A server answers the calls out of a state
of its own; the exchanges of a run are its calls with the answers they got, in their order.
-/
import Mathlib.Tactic.Common
import Mathlib.Data.List.Basic

namespace Transition

universe u

/-- A program that makes calls and returns an `α`. -/
inductive Dialogue (Call : Type u) (Answer : Call → Type u) (α : Type u) : Type u where
  | done (a : α)
  | ask (c : Call) (next : Answer c → Dialogue Call Answer α)

/-- A party that answers the calls. -/
abbrev Server (Call : Type u) (Answer : Call → Type u) (σ : Type u) : Type u :=
  ∀ c : Call, σ → Answer c × σ

/-- A call with its answer. -/
abbrev Exchange (Call : Type u) (Answer : Call → Type u) : Type u := Σ c : Call, Answer c

namespace Dialogue

variable {Call : Type u} {Answer : Call → Type u} {σ α β : Type u}

/-- One dialogue after the other. -/
def bind : Dialogue Call Answer α → (α → Dialogue Call Answer β) → Dialogue Call Answer β
  | .done a, f => f a
  | .ask c next, f => .ask c fun answer => (next answer).bind f

instance : Monad (Dialogue Call Answer) where
  pure := .done
  bind := bind

/-- The dialogue that makes one call and returns its answer. -/
def call (c : Call) : Dialogue Call Answer (Answer c) := .ask c .done

variable (server : Server Call Answer σ)

/-- What a dialogue with the server returns. -/
def result : Dialogue Call Answer α → σ → α
  | .done a, _ => a
  | .ask c next, s => (next (server c s).1).result (server c s).2

/-- The state a dialogue leaves the server in. -/
def after : Dialogue Call Answer α → σ → σ
  | .done _, s => s
  | .ask c next, s => (next (server c s).1).after (server c s).2

/-- The exchanges of a dialogue with the server. -/
def exchanges : Dialogue Call Answer α → σ → List (Exchange Call Answer)
  | .done _, _ => []
  | .ask c next, s => ⟨c, (server c s).1⟩ :: (next (server c s).1).exchanges (server c s).2

variable {server} {s : σ} {x : Dialogue Call Answer α} {f : α → Dialogue Call Answer β}

@[simp] lemma result_done (a : α) : (done a : Dialogue Call Answer α).result server s = a := rfl

@[simp] lemma exchanges_done (a : α) :
    (done a : Dialogue Call Answer α).exchanges server s = [] := rfl

@[simp] lemma result_ask (c : Call) (next : Answer c → Dialogue Call Answer α) :
    (ask c next).result server s = (next (server c s).1).result server (server c s).2 := rfl

@[simp] lemma exchanges_ask (c : Call) (next : Answer c → Dialogue Call Answer α) :
    (ask c next).exchanges server s =
      ⟨c, (server c s).1⟩ :: (next (server c s).1).exchanges server (server c s).2 := rfl

lemma result_bind :
    (x >>= f).result server s = (f (x.result server s)).result server (x.after server s) := by
  induction x generalizing s with
  | done a => rfl
  | ask c next ih => exact ih _

lemma exchanges_bind :
    (x >>= f).exchanges server s =
      x.exchanges server s ++
        (f (x.result server s)).exchanges server (x.after server s) := by
  induction x generalizing s with
  | done a => rfl
  | ask c next ih => exact congrArg (_ :: ·) (ih _)

end Dialogue

end Transition
