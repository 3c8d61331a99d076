/-
# Programs that commit

A program on a file commits transactions one after the other and reads in between.  What it has
committed stays if it is interrupted, so the states that an interruption leaves are those after
each of its transactions.
-/
import WorkspaceAtlas.Transition.Loop

namespace Transition

variable {σ ε α β : Type} {s s' : σ}

/-- A program: the states that it commits, in order, and its result. -/
def Durable (σ ε α : Type) : Type := σ → List σ × Except ε α

namespace Durable

/-- The state of the file after some commits. -/
def latest (s : σ) (committed : List σ) : σ := committed.getLast?.getD s

/-- What follows reads the file as it was left. -/
def andThen (m : Durable σ ε α) (f : α → Durable σ ε β) : Durable σ ε β := fun s =>
  match m s with
  | (committed, .ok a) => ((committed ++ (f a (latest s committed)).1),
      (f a (latest s committed)).2)
  | (committed, .error e) => (committed, .error e)

instance : Monad (Durable σ ε) where
  pure a _ := ([], .ok a)
  bind := andThen

/-- A query. -/
def read (g : σ → Except ε α) : Durable σ ε α := fun s => ([], g s)

/-- A transaction, which is rolled back if it fails. -/
def transact (g : σ → Except ε σ) : Durable σ ε Unit := fun s =>
  match g s with
  | .ok s' => ([s'], .ok ())
  | .error e => ([], .error e)

/-- The states in which the file is found if the program is interrupted. -/
def leaves (m : Durable σ ε α) (s : σ) : List σ := s :: (m s).1

/-- The state of the file in the end. -/
def final (m : Durable σ ε α) (s : σ) : σ := latest s (m s).1

/-- The result. -/
def result (m : Durable σ ε α) (s : σ) : Except ε α := (m s).2

variable {m : Durable σ ε α} {f : α → Durable σ ε β} {g : σ → Except ε σ} {a : α} {e : ε}
  {l l' : List σ} {r : Except ε β}

@[simp] lemma latest_nil : latest s [] = s := rfl

@[simp] lemma latest_concat : latest s (l ++ [s']) = s' := by
  simp [latest]

@[simp] lemma latest_cons : latest s (s' :: l) = latest s' l := by
  rw [latest, List.getLast?_cons]
  rfl

lemma latest_append : latest s (l ++ l') = latest (latest s l) l' := by
  induction l generalizing s with
  | nil => rfl
  | cons s' l ih => rw [List.cons_append, latest_cons, ih, latest_cons]

/-- What a program commits, and then what follows commits. -/
lemma bind_eq (h : m s = (l, .ok a)) (h' : f a (latest s l) = (l', r)) :
    (m >>= f) s = (l ++ l', r) := by
  show andThen m f s = _
  simp only [andThen, h, h']

lemma bind_eq_error (h : m s = (l, .error e)) : (m >>= f) s = (l, .error e) := by
  show andThen m f s = _
  simp only [andThen, h]

lemma read_eq {g : σ → Except ε α} {r : Except ε α} (h : g s = r) : read g s = ([], r) := by
  rw [read, h]

lemma transact_eq (h : g s = .ok s') : transact g s = ([s'], .ok ()) := by
  rw [transact, h]

@[simp] lemma pure_eq : (pure a : Durable σ ε α) s = ([], .ok a) := rfl

lemma forM_cons_eq {γ : Type} {f : γ → Durable σ ε Unit} {c : γ} {cs : List γ} {r : Except ε Unit}
    (h : f c s = (l, .ok ())) (h' : cs.forM f (latest s l) = (l', r)) :
    (c :: cs).forM f s = (l ++ l', r) := bind_eq h h'

/-- **Interrupted runs.**  The states in which a file can be found if a program is run on it any
number of times, each time to the end or up to an interruption, while others change it between
the runs. -/
inductive Reached (m : Durable σ ε α) (start : σ → Prop) (other : σ → σ → Prop) : σ → Prop
  | start {s : σ} (h : start s) : Reached m start other s
  | interrupted {s s' : σ} (h : Reached m start other s) (hleaves : s' ∈ m.leaves s) :
      Reached m start other s'
  | changed {s s' : σ} (h : Reached m start other s) (hother : other s s') :
      Reached m start other s'

/-- What holds in the beginning, of all that an interruption leaves and of what others make of it
holds of every reached state. -/
theorem Reached.invariant {start I : σ → Prop} {other : σ → σ → Prop}
    (hstart : ∀ s, start s → I s) (hstep : ∀ s s', I s → s' ∈ m.leaves s → I s')
    (hother : ∀ s s', I s → other s s' → I s') (h : Reached m start other s) : I s := by
  induction h with
  | start h => exact hstart _ h
  | interrupted _ hleaves ih => exact hstep _ _ ih hleaves
  | changed _ hchange ih => exact hother _ _ ih hchange

/-- What is reached from fewer states. -/
lemma Reached.of_start {start start' : σ → Prop} {other : σ → σ → Prop}
    (h : Reached m start other s) (hstart : ∀ s, start s → start' s) :
    Reached m start' other s := by
  induction h with
  | start h => exact .start (hstart _ h)
  | interrupted _ hleaves ih => exact .interrupted ih hleaves
  | changed _ hchange ih => exact .changed ih hchange

end Durable

end Transition
