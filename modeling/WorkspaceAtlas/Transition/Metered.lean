/-
# Metered computations

A computation that asks a ledger before every unit of its work, and is given up when the ledger
refuses.  What such a computation spends and what it comes to do not depend on the ledger: with
a ledger that grants as much it comes to the same as with one that never refuses, and with any
other one it comes to nothing.
-/
import Mathlib.Tactic.Common
import WorkspaceAtlas.Transition.Loop

namespace Transition

variable {ε σ α β ρ : Type}

/-! ## Ledgers -/

/-- A ledger: whether one more unit is granted. -/
structure Ledger (ε σ : Type) where
  charge : σ → Except ε (Bool × σ)

namespace Ledger

variable {L : Ledger ε σ} {s s' : σ} {m n : ℕ}

/-- The ledger that never refuses. -/
def unbounded : Ledger ε Unit := ⟨fun s => .ok (true, s)⟩

/-- The state after some charges. -/
def after (L : Ledger ε σ) : σ → ℕ → σ
  | s, 0 => s
  | s, n + 1 =>
    match L.charge s with
    | .ok (_, s') => L.after s' n
    | .error _ => s

/-- So many charges are granted, and maybe more. -/
def Affords (L : Ledger ε σ) : σ → ℕ → Prop
  | _, 0 => True
  | s, n + 1 => ∃ s', L.charge s = .ok (true, s') ∧ L.Affords s' n

/-- So many charges are granted, and the next one is refused. -/
def Grants (L : Ledger ε σ) (s : σ) (n : ℕ) : Prop :=
  L.Affords s n ∧ ∃ s', L.charge (L.after s n) = .ok (false, s')

lemma affords_unbounded (s : Unit) : (unbounded (ε := ε)).Affords s n := by
  induction n with
  | zero => trivial
  | succ n ih => exact ⟨s, rfl, ih⟩

/-- The ledger with a limit, whose state is what is left of it. -/
def limited : Ledger ε ℕ :=
  ⟨fun left => .ok (match left with | 0 => (false, 0) | left + 1 => (true, left))⟩

lemma after_succ (h : L.charge s = .ok (true, s')) : L.after s (n + 1) = L.after s' n := by
  rw [after, h]

lemma after_add (h : L.Affords s m) : L.after s (m + n) = L.after (L.after s m) n := by
  induction m generalizing s with
  | zero => rw [Nat.zero_add]; rfl
  | succ m ih =>
    obtain ⟨s', hs', hrest⟩ := h
    rw [Nat.add_right_comm, after_succ hs', after_succ hs', ih hrest]

lemma affords_add : L.Affords s (m + n) ↔ L.Affords s m ∧ L.Affords (L.after s m) n := by
  induction m generalizing s with
  | zero => simp [Affords, after]
  | succ m ih =>
    rw [Nat.add_right_comm]
    constructor
    · rintro ⟨s', hs', hrest⟩
      obtain ⟨hm, hn⟩ := ih.mp hrest
      exact ⟨⟨s', hs', hm⟩, by rwa [after_succ hs']⟩
    · rintro ⟨⟨s', hs', hm⟩, hn⟩
      rw [after_succ hs'] at hn
      exact ⟨s', hs', ih.mpr ⟨hm, hn⟩⟩

lemma Affords.mono (h : L.Affords s n) (hle : m ≤ n) : L.Affords s m := by
  obtain ⟨k, rfl⟩ := Nat.exists_eq_add_of_le hle
  exact (affords_add.mp h).1

/-- The ledger with a limit grants as many charges. -/
lemma grants_limited (n : ℕ) : (limited (ε := ε)).Grants n n := by
  have hall : ∀ n, (limited (ε := ε)).Affords n n ∧ (limited (ε := ε)).after n n = 0 := by
    intro n
    induction n with
    | zero => exact ⟨trivial, rfl⟩
    | succ n ih => exact ⟨⟨n, rfl, ih.1⟩, ih.2⟩
  refine ⟨(hall n).1, 0, ?_⟩
  rw [(hall n).2]
  rfl

end Ledger

/-! ## Computations -/

/-- A computation with the state of a ledger that may be given up. -/
abbrev Metered (ε σ α : Type) := OptionT (StateT σ (Except ε)) α

namespace Metered

variable {L : Ledger ε σ} {s : σ} {c d n : ℕ} {r : Except ε α}

/-- What a computation comes to from a state. -/
def start (m : Metered ε σ α) (s : σ) : Except ε (Option α × σ) := m.run.run s

/-- One unit is asked for. -/
def charge (L : Ledger ε σ) : Metered ε σ Unit :=
  OptionT.mk fun s =>
    match L.charge s with
    | .ok (true, s') => .ok (some (), s')
    | .ok (false, s') => .ok (none, s')
    | .error e => .error e

/-- A step that asks for nothing. -/
def free (r : Except ε α) : Metered ε σ α := OptionT.mk fun s => r.map fun a => (some a, s)

lemma start_bind (m : Metered ε σ α) (f : α → Metered ε σ β) :
    (m >>= f).start s =
      match m.start s with
      | .ok (some a, s') => (f a).start s'
      | .ok (none, s') => .ok (none, s')
      | .error e => .error e := by
  simp only [start, OptionT.run_bind, Option.elimM, StateT.run_bind]
  cases h : m.run.run s with
  | error e => rfl
  | ok res =>
    obtain ⟨a, s'⟩ := res
    cases a <;> rfl

/-- A computation asks for `c` units and comes to `r`: if they are granted it ends so, and if an
earlier one is refused it is given up. -/
structure Spends (L : Ledger ε σ) (m : Metered ε σ α) (c : ℕ) (r : Except ε α) : Prop where
  completes : ∀ s, L.Affords s c → m.start s = r.map fun a => (some a, L.after s c)
  givesUp : ∀ s n, n < c → L.Affords s n → ∀ s', L.charge (L.after s n) = .ok (false, s') →
    m.start s = .ok (none, s')

lemma spends_free (r : Except ε α) : Spends L (free r) 0 r where
  completes _ _ := rfl
  givesUp _ n h := absurd h (Nat.not_lt_zero n)

lemma spends_pure (a : α) : Spends L (pure a) 0 (.ok a) := spends_free (.ok a)

lemma spends_charge : Spends L (charge L) 1 (.ok ()) where
  completes s h := by
    obtain ⟨s', hs', -⟩ := h
    rw [Ledger.after_succ hs']
    simp only [start, charge, OptionT.run, OptionT.mk, StateT.run, hs']
    rfl
  givesUp s n h _ s' hs' := by
    obtain rfl : n = 0 := by omega
    have hrefused : L.charge s = .ok (false, s') := hs'
    simp only [start, charge, OptionT.run, OptionT.mk, StateT.run, hrefused]

/-- What two steps ask for is added. -/
lemma Spends.bind {m : Metered ε σ α} {f : α → Metered ε σ β} {a : α} {r : Except ε β}
    (hm : Spends L m c (.ok a)) (hf : Spends L (f a) d r) : Spends L (m >>= f) (c + d) r where
  completes s h := by
    obtain ⟨hc, hd⟩ := Ledger.affords_add.mp h
    rw [start_bind, hm.completes s hc, Ledger.after_add hc]
    exact hf.completes _ hd
  givesUp s n hlt h s' hs' := by
    rw [start_bind]
    rcases Nat.lt_or_ge n c with hn | hn
    · rw [hm.givesUp s n hn h s' hs']
    · obtain ⟨k, rfl⟩ := Nat.exists_eq_add_of_le hn
      obtain ⟨hc, hk⟩ := Ledger.affords_add.mp h
      rw [Ledger.after_add hc] at hs'
      rw [hm.completes s hc]
      exact hf.givesUp _ k (by omega) hk s' hs'

lemma Spends.of_cost {m : Metered ε σ α} (h : Spends L m c r) (hc : c = d) : Spends L m d r :=
  hc ▸ h

/-- An error ends the computation. -/
lemma Spends.bind_error {m : Metered ε σ α} {f : α → Metered ε σ β} {e : ε}
    (hm : Spends L m c (.error e)) : Spends L (m >>= f) c (.error e) where
  completes s h := by rw [start_bind, hm.completes s h]; rfl
  givesUp s n hlt h s' hs' := by rw [start_bind, hm.givesUp s n hlt h s' hs']

/-- **With a ledger that grants enough** a computation comes to its result, and with another one
it is given up. -/
theorem Spends.of_grants {m : Metered ε σ α} (h : Spends L m c r) (hL : L.Grants s n) :
    (c ≤ n → (m.start s).map Prod.fst = r.map some) ∧
      (n < c → (m.start s).map Prod.fst = .ok none) := by
  obtain ⟨hafford, s', hs'⟩ := hL
  constructor
  · intro hle
    rw [h.completes s (hafford.mono hle)]
    cases r <;> rfl
  · intro hlt
    rw [h.givesUp s n hlt hafford s' hs']
    rfl

/-- With the ledger that never refuses a computation comes to its result. -/
theorem Spends.of_unbounded {m : Metered ε Unit α} (h : Spends Ledger.unbounded m c r)
    (s : Unit) : (m.start s).map Prod.fst = r.map some := by
  rw [h.completes s (Ledger.affords_unbounded s)]
  cases r <;> rfl

/-! ## Rows -/

/-- The rows of a query: every one is asked for before it is read, and so is the end. -/
def rows (L : Ledger ε σ) (read : ρ → α) : List ρ → Metered ε σ (List α)
  | [] => do
    charge L
    return []
  | x :: xs => do
    charge L
    let values ← rows L read xs
    return read x :: values

lemma spends_rows (read : ρ → α) (l : List ρ) :
    Spends L (rows L read l) (l.length + 1) (.ok (l.map read)) := by
  induction l with
  | nil =>
    have hall : Spends L (rows L read []) (1 + 0) (.ok []) :=
      Spends.bind (f := fun _ => pure []) spends_charge (spends_pure [])
    exact hall
  | cons x xs ih =>
    have hrest : Spends L (rows L read xs >>= fun values => pure (read x :: values))
        (xs.length + 1 + 0) (.ok (read x :: xs.map read)) :=
      ih.bind (spends_pure _)
    have hall : Spends L (rows L read (x :: xs)) (1 + (xs.length + 1 + 0))
        (.ok (read x :: xs.map read)) :=
      Spends.bind (f := fun _ => rows L read xs >>= fun values => pure (read x :: values))
        spends_charge hrest
    rwa [show 1 + (xs.length + 1 + 0) = (x :: xs).length + 1 by rw [List.length_cons]; omega]
      at hall

end Metered

end Transition
