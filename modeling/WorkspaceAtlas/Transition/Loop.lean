/-
# Loops that may fail

A loop over a list whose body may fail is `List.foldlM` in `Except`.  What it establishes is
an invariant that speaks of the items done so far: the body carries it from `done` to
`done ++ [a]`, and a loop that ends has it for the whole list.
-/
import Mathlib.Tactic.Common
import Mathlib.Data.List.Basic

namespace Transition

universe u

variable {σ τ : Type u} {α ε : Type*} {f : σ → α → Except ε σ} {s s' : σ} {a : α} {l : List α}

/-- A statement and what follows it both succeed. -/
lemma bind_ok {x : Except ε σ} {g : σ → Except ε τ} {r : τ} :
    (x >>= g) = .ok r ↔ ∃ t, x = .ok t ∧ g t = .ok r := by
  cases x with
  | error e => simp [bind, Except.bind]
  | ok t => simp [bind, Except.bind]

lemma foldlM_cons_ok :
    (a :: l).foldlM f s = .ok s' ↔ ∃ t, f s a = .ok t ∧ l.foldlM f t = .ok s' := by
  rw [List.foldlM_cons, bind_ok]

/-- **Loop rule.**  A loop that ends has the invariant its body preserves. -/
theorem loop_invariant {I : List α → σ → Prop} (h₀ : I [] s)
    (hstep : ∀ done a rest t t', l = done ++ a :: rest → I done t → f t a = .ok t' →
      I (done ++ [a]) t')
    (h : l.foldlM f s = .ok s') : I l s' := by
  suffices hgen : ∀ rest done t, l = done ++ rest → I done t → rest.foldlM f t = .ok s' →
      I l s' from hgen l [] s rfl h₀ h
  intro rest
  induction rest with
  | nil =>
    intro done t hl hI hok
    obtain rfl : t = s' := Except.ok.inj hok
    rw [hl, List.append_nil]
    exact hI
  | cons a rest ih =>
    intro done t hl hI hok
    obtain ⟨t', hbody, hrest⟩ := foldlM_cons_ok.mp hok
    exact ih (done ++ [a]) t' (by simp [hl]) (hstep done a rest t t' hl hI hbody) hrest

/-- A loop whose body succeeds under the invariant ends, with the invariant. -/
theorem loop_total {I : List α → σ → Prop} (h₀ : I [] s)
    (hstep : ∀ done a rest t, l = done ++ a :: rest → I done t →
      ∃ t', f t a = .ok t' ∧ I (done ++ [a]) t') :
    ∃ s', l.foldlM f s = .ok s' ∧ I l s' := by
  suffices hgen : ∀ rest done t, l = done ++ rest → I done t →
      ∃ s', rest.foldlM f t = .ok s' ∧ I l s' from hgen l [] s rfl h₀
  intro rest
  induction rest with
  | nil =>
    intro done t hl hI
    exact ⟨t, rfl, by rw [hl, List.append_nil]; exact hI⟩
  | cons a rest ih =>
    intro done t hl hI
    obtain ⟨t', hbody, hI'⟩ := hstep done a rest t hl hI
    obtain ⟨s', hrest, hI''⟩ := ih (done ++ [a]) t' (by simp [hl]) hI'
    exact ⟨s', foldlM_cons_ok.mpr ⟨t', hbody, hrest⟩, hI''⟩

/-- A loop rule for an invariant that does not speak of the items done. -/
theorem loop_preserves {I : σ → Prop} (h₀ : I s)
    (hstep : ∀ a ∈ l, ∀ t t', I t → f t a = .ok t' → I t') (h : l.foldlM f s = .ok s') :
    I s' := by
  refine loop_invariant (I := fun _ t => I t) h₀ (fun done a rest t t' hl hI hok => ?_) h
  exact hstep a (by simp [hl]) t t' hI hok

/-- **What is left to do.**  A loop ends in the target if every item takes one from what is left
before it to what is left after it. -/
theorem foldlM_of_pending {Pending : σ → List α → Prop} {target : σ}
    (hnil : ∀ s, Pending s [] → s = target)
    (hcons : ∀ s a l, Pending s (a :: l) → ∃ t, f s a = .ok t ∧ Pending t l)
    (h : Pending s l) : l.foldlM f s = .ok target := by
  induction l generalizing s with
  | nil => exact congrArg Except.ok (hnil s h)
  | cons a l ih =>
    obtain ⟨t, ht, hrest⟩ := hcons s a l h
    exact foldlM_cons_ok.mpr ⟨t, ht, ih hrest⟩

lemma ok_of_toOption {x : Except ε σ} {r : σ} (h : x.toOption = some r) : x = .ok r := by
  cases x with
  | error e => exact absurd h (by simp [Except.toOption])
  | ok t => rw [Option.some.inj h]

/-! ## Mapping a function that may fail -/

/-- Every item is mapped, in order. -/
lemma mapM_ok_iff {β : Type u} {g : α → Except ε β} {m : List β} :
    l.mapM g = .ok m ↔ List.Forall₂ (fun a b => g a = .ok b) l m := by
  induction l generalizing m with
  | nil =>
    constructor
    · intro h
      obtain rfl : [] = m := Except.ok.inj h
      exact .nil
    · rintro ⟨⟩
      rfl
  | cons a l ih =>
    rw [List.mapM_cons, bind_ok]
    simp only [bind_ok]
    constructor
    · rintro ⟨b, hb, m', hm, heq⟩
      obtain rfl : b :: m' = m := Except.ok.inj heq
      exact .cons hb (ih.mp hm)
    · intro h
      obtain - | ⟨hb, hm⟩ := h
      exact ⟨_, hb, _, ih.mpr hm, rfl⟩

lemma mapM_total {β : Type u} {g : α → Except ε β} (h : ∀ a ∈ l, ∃ b, g a = .ok b) :
    ∃ m, l.mapM g = .ok m := by
  induction l with
  | nil => exact ⟨[], rfl⟩
  | cons a l ih =>
    obtain ⟨b, hb⟩ := h a (by simp)
    obtain ⟨m, hm⟩ := ih fun a' ha' => h a' (by simp [ha'])
    exact ⟨b :: m, mapM_ok_iff.mpr (.cons hb (mapM_ok_iff.mp hm))⟩

lemma exists_right_of_forall₂ {β : Type*} {R : α → β → Prop} {m : List β}
    (h : List.Forall₂ R l m) (ha : a ∈ l) : ∃ b ∈ m, R a b := by
  induction h with
  | nil => exact absurd ha (by simp)
  | cons hR _ ih =>
    rcases List.mem_cons.mp ha with rfl | ha
    · exact ⟨_, by simp, hR⟩
    · obtain ⟨b, hb, hRb⟩ := ih ha
      exact ⟨b, by simp [hb], hRb⟩

lemma exists_left_of_forall₂ {β : Type*} {R : α → β → Prop} {b : β} {m : List β}
    (h : List.Forall₂ R l m) (hb : b ∈ m) : ∃ a ∈ l, R a b := by
  induction h with
  | nil => exact absurd hb (by simp)
  | cons hR _ ih =>
    rcases List.mem_cons.mp hb with rfl | hb
    · exact ⟨_, by simp, hR⟩
    · obtain ⟨a, ha, hRa⟩ := ih hb
      exact ⟨a, by simp [ha], hRa⟩

end Transition
