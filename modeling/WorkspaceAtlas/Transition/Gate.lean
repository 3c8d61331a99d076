/-
# Gates

A gate looks at the items of a list one after the other and admits each or refuses it for a
reason.  What it says of an item depends on what became of the items before it, of which it
keeps a state.  Two gates whose states are related as long as they give the same verdicts admit
the same items.
-/
import Mathlib.Data.List.Infix
import Mathlib.Data.List.Perm.Basic
import Mathlib.Tactic.Common

namespace Transition

variable {σ τ α ρ : Type*}

/-- What is said of an item, and what the gate then knows. -/
structure Gate (σ α ρ : Type*) where
  verdict : σ → α → Option ρ
  next : σ → α → σ

namespace Gate

variable {G : Gate σ α ρ} {s : σ} {a : α} {l m : List α} {r : ρ}

/-- The state behind some items. -/
def after (G : Gate σ α ρ) (s : σ) (l : List α) : σ := l.foldl G.next s

/-- The items that are admitted, in their order. -/
def admitted (G : Gate σ α ρ) : σ → List α → List α
  | _, [] => []
  | s, a :: l =>
    match G.verdict s a with
    | none => a :: G.admitted (G.next s a) l
    | some _ => G.admitted (G.next s a) l

/-- The items that are refused, in their order, with the reasons. -/
def refused (G : Gate σ α ρ) : σ → List α → List (α × ρ)
  | _, [] => []
  | s, a :: l =>
    match G.verdict s a with
    | none => G.refused (G.next s a) l
    | some r => (a, r) :: G.refused (G.next s a) l

@[simp] lemma after_nil : G.after s [] = s := rfl

@[simp] lemma after_cons : G.after s (a :: l) = G.after (G.next s a) l := rfl

lemma after_append : G.after s (l ++ m) = G.after (G.after s l) m := List.foldl_append ..

lemma admitted_append : G.admitted s (l ++ m) = G.admitted s l ++ G.admitted (G.after s l) m := by
  induction l generalizing s with
  | nil => rfl
  | cons a l ih =>
    rw [List.cons_append, admitted, admitted, ih, after_cons]
    cases G.verdict s a <;> rfl

lemma refused_append : G.refused s (l ++ m) = G.refused s l ++ G.refused (G.after s l) m := by
  induction l generalizing s with
  | nil => rfl
  | cons a l ih =>
    rw [List.cons_append, refused, refused, ih, after_cons]
    cases G.verdict s a <;> rfl

lemma admitted_sublist : (G.admitted s l).Sublist l := by
  induction l generalizing s with
  | nil => exact List.Sublist.refl _
  | cons a l ih =>
    rw [admitted]
    cases G.verdict s a with
    | none => exact ih.cons_cons a
    | some r => exact ih.cons a

lemma refused_sublist : ((G.refused s l).map Prod.fst).Sublist l := by
  induction l generalizing s with
  | nil => exact List.Sublist.refl _
  | cons a l ih =>
    rw [refused]
    cases G.verdict s a with
    | none => exact ih.cons a
    | some r => exact ih.cons_cons a

/-- Every item is either admitted or refused. -/
lemma perm_append : (G.admitted s l ++ (G.refused s l).map Prod.fst).Perm l := by
  induction l generalizing s with
  | nil => exact List.Perm.refl _
  | cons a l ih =>
    rw [admitted, refused]
    cases G.verdict s a with
    | none => exact ih.cons a
    | some r => exact List.perm_middle.trans (ih.cons a)

lemma exists_append_cons {b : α} {P : List α → Prop} :
    (∃ l₁ l₂, b :: l = l₁ ++ a :: l₂ ∧ P l₁) ↔
      b = a ∧ P [] ∨ ∃ l₁ l₂, l = l₁ ++ a :: l₂ ∧ P (b :: l₁) := by
  constructor
  · rintro ⟨l₁, l₂, heq, hP⟩
    cases l₁ with
    | nil => exact .inl ⟨(List.cons.inj heq).1, hP⟩
    | cons c l₁ =>
      obtain ⟨rfl, rfl⟩ := List.cons.inj heq
      exact .inr ⟨l₁, l₂, rfl, hP⟩
  · rintro (⟨rfl, hP⟩ | ⟨l₁, l₂, rfl, hP⟩)
    · exact ⟨[], l, rfl, hP⟩
    · exact ⟨b :: l₁, l₂, rfl, hP⟩

lemma forall_append_cons {b : α} {P : List α → α → Prop} :
    (∀ l₁ a l₂, b :: l = l₁ ++ a :: l₂ → P l₁ a) ↔
      P [] b ∧ ∀ l₁ a l₂, l = l₁ ++ a :: l₂ → P (b :: l₁) a := by
  constructor
  · intro h
    exact ⟨h [] b l rfl, fun l₁ a l₂ hl => h (b :: l₁) a l₂ (hl ▸ rfl)⟩
  · rintro ⟨hb, hrest⟩ l₁ a l₂ heq
    cases l₁ with
    | nil =>
      obtain ⟨rfl, -⟩ := List.cons.inj heq
      exact hb
    | cons c l₁ =>
      obtain ⟨rfl, hl⟩ := List.cons.inj heq
      exact hrest l₁ a l₂ hl

/-- An item is refused for what the gate says of it behind the items before it. -/
lemma mem_refused : (a, r) ∈ G.refused s l ↔
    ∃ l₁ l₂, l = l₁ ++ a :: l₂ ∧ G.verdict (G.after s l₁) a = some r := by
  induction l generalizing s with
  | nil => simp [refused]
  | cons b l ih =>
    rw [exists_append_cons, after_nil]
    simp only [after_cons]
    have hhead : b = a ∧ G.verdict s a = some r ↔ b = a ∧ G.verdict s b = some r :=
      and_congr_right fun h => by rw [h]
    rw [← ih, hhead, refused]
    cases G.verdict s b with
    | none => simp
    | some r' => simp [eq_comm]

lemma mem_admitted : a ∈ G.admitted s l ↔
    ∃ l₁ l₂, l = l₁ ++ a :: l₂ ∧ G.verdict (G.after s l₁) a = none := by
  induction l generalizing s with
  | nil => simp [admitted]
  | cons b l ih =>
    rw [exists_append_cons, after_nil]
    simp only [after_cons]
    have hhead : b = a ∧ G.verdict s a = none ↔ b = a ∧ G.verdict s b = none :=
      and_congr_right fun h => by rw [h]
    rw [← ih, hhead, admitted]
    cases G.verdict s b with
    | none => simp [eq_comm]
    | some r' => simp

/-! ## Items with distinct keys -/

section Keys

variable {κ : Type*} {key : α → κ} {b : α} {l₁ l₂ m₁ m₂ : List α}

/-- A key occurs at one place. -/
lemma eq_of_append_cons (hn : (l.map key).Nodup) (hl : l = l₁ ++ a :: l₂)
    (hm : l = m₁ ++ b :: m₂) (hkey : key a = key b) : l₁ = m₁ ∧ a = b := by
  subst hl
  have hb : key b ∉ l₁.map key ∧ key b ∉ l₂.map key := by
    rw [← hkey]
    rw [List.map_append, List.map_cons, List.nodup_append, List.nodup_cons] at hn
    exact ⟨fun h => hn.2.2 _ h _ List.mem_cons_self rfl, hn.2.1.1⟩
  have hnot : b ∉ l₁ ∧ b ∉ l₂ :=
    ⟨fun h => hb.1 (List.mem_map_of_mem h), fun h => hb.2 (List.mem_map_of_mem h)⟩
  obtain ⟨h₁, h₂, -⟩ := (List.append_cons_inj_of_notMem hnot.1 hnot.2).mp hm
  exact ⟨h₁, h₂⟩

lemma key_mem_refused (hn : (l.map key).Nodup) (hl : l = l₁ ++ a :: l₂) :
    (key a, r) ∈ (G.refused s l).map (Prod.map key id) ↔
      G.verdict (G.after s l₁) a = some r := by
  constructor
  · intro h
    obtain ⟨⟨b, r'⟩, hb, heq⟩ := List.mem_map.mp h
    obtain ⟨hkey, rfl⟩ := Prod.mk.inj heq
    obtain ⟨m₁, m₂, hm, hverdict⟩ := mem_refused.mp hb
    obtain ⟨rfl, rfl⟩ := eq_of_append_cons hn hl hm hkey.symm
    exact hverdict
  · intro h
    exact List.mem_map.mpr ⟨(a, r), mem_refused.mpr ⟨l₁, l₂, hl, h⟩, rfl⟩

lemma key_mem_admitted (hn : (l.map key).Nodup) (hl : l = l₁ ++ a :: l₂) :
    key a ∈ (G.admitted s l).map key ↔ G.verdict (G.after s l₁) a = none := by
  constructor
  · intro h
    obtain ⟨b, hb, hkey⟩ := List.mem_map.mp h
    obtain ⟨m₁, m₂, hm, hverdict⟩ := mem_admitted.mp hb
    obtain ⟨rfl, rfl⟩ := eq_of_append_cons hn hl hm hkey.symm
    exact hverdict
  · intro h
    exact List.mem_map_of_mem (mem_admitted.mpr ⟨l₁, l₂, hl, h⟩)

end Keys

/-- **Simulation.**  A gate that says of the images of the items what another one says of the
items admits and refuses their images. -/
theorem screens_of_related {β : Type*} {G' : Gate τ β ρ} {t : τ} {R : σ → τ → Prop} {f : α → β}
    (hverdict : ∀ s t, R s t → ∀ a ∈ l, G'.verdict t (f a) = G.verdict s a)
    (hnext : ∀ s t, R s t → ∀ a ∈ l, R (G.next s a) (G'.next t (f a))) (hR : R s t) :
    G'.admitted t (l.map f) = (G.admitted s l).map f ∧
      G'.refused t (l.map f) = (G.refused s l).map (Prod.map f id) ∧
      R (G.after s l) (G'.after t (l.map f)) := by
  induction l generalizing s t with
  | nil => exact ⟨rfl, rfl, hR⟩
  | cons a l ih =>
    obtain ⟨hadmitted, hrefused, hafter⟩ :=
      ih (fun s t h b hb => hverdict s t h b (List.mem_cons_of_mem a hb))
        (fun s t h b hb => hnext s t h b (List.mem_cons_of_mem a hb))
        (hnext s t hR a List.mem_cons_self)
    refine ⟨?_, ?_, hafter⟩
    · rw [List.map_cons, admitted, admitted, hverdict s t hR a List.mem_cons_self, hadmitted]
      cases G.verdict s a <;> rfl
    · rw [List.map_cons, refused, refused, hverdict s t hR a List.mem_cons_self, hrefused]
      cases G.verdict s a <;> rfl

end Gate

end Transition
