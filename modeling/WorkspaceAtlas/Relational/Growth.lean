/-
# Tables that grow

A table that is only inserted into keeps its rows, in their order, and has the new ones after
them.  What is said of the new rows tells which queries give the same answer as before.
-/
import WorkspaceAtlas.Relational.Table

namespace Relational

namespace Table

universe u

variable {ρ : Type u} [Keyed ρ] {t t' t'' : Table ρ} {P Q : ρ → Prop} {r x : ρ} {q : ρ → Bool}

/-- The table `t'` has the rows of `t`, and after them rows that meet `P`. -/
def Extends (P : ρ → Prop) (t t' : Table ρ) : Prop :=
  ∃ l, t'.rows = t.rows ++ l ∧ ∀ r ∈ l, P r

lemma Extends.refl (P : ρ → Prop) (t : Table ρ) : Extends P t t := ⟨[], by simp, by simp⟩

lemma Extends.trans (h : Extends P t t') (h' : Extends P t' t'') : Extends P t t'' := by
  obtain ⟨l, hrows, hl⟩ := h
  obtain ⟨l', hrows', hl'⟩ := h'
  refine ⟨l ++ l', by rw [hrows', hrows, List.append_assoc], fun r hr => ?_⟩
  rcases List.mem_append.mp hr with hr | hr
  · exact hl r hr
  · exact hl' r hr

lemma Extends.imp (h : Extends P t t') (hPQ : ∀ r, P r → Q r) : Extends Q t t' := by
  obtain ⟨l, hrows, hl⟩ := h
  exact ⟨l, hrows, fun r hr => hPQ r (hl r hr)⟩

lemma Extends.mem (h : Extends P t t') (hx : x ∈ t) : x ∈ t' := by
  obtain ⟨l, hrows, -⟩ := h
  rw [mem_def, hrows]
  exact List.mem_append_left _ hx

lemma Extends.of_mem (h : Extends P t t') (hx : x ∈ t') : x ∈ t ∨ P x := by
  obtain ⟨l, hrows, hl⟩ := h
  rw [mem_def, hrows] at hx
  exact (List.mem_append.mp hx).imp id (hl x)

lemma extends_insert? (h : t.insert? r = some t') (hr : P r) : Extends P t t' :=
  ⟨[r], rows_of_insert? h, by simpa using hr⟩

/-- A query that no new row meets selects the same rows. -/
lemma Extends.filter_eq (h : Extends P t t') (hq : ∀ x, P x → q x = false) :
    t'.rows.filter q = t.rows.filter q := by
  obtain ⟨l, hrows, hl⟩ := h
  have hnone : l.filter q = [] := by
    rw [List.filter_eq_nil_iff]
    intro x hx
    simp [hq x (hl x hx)]
  rw [hrows, List.filter_append, hnone, List.append_nil]

/-- A row that was found is still found. -/
lemma Extends.find?_eq_some (h : Extends P t t') (hfind : t.find? q = some r) :
    t'.find? q = some r := by
  obtain ⟨l, hrows, -⟩ := h
  unfold find? at hfind ⊢
  rw [hrows, List.find?_append, hfind, Option.some_or]

/-- A loop of `INSERT OR IGNORE` whose rows clash only with rows that are the same. -/
lemma mem_foldl_insertOrIgnore {α : Type*} (row : α → ρ) (p : α → Prop) [DecidablePred p]
    {l : List α} (hold : ∀ a ∈ l, ∀ x ∈ t, Clash x (row a) → x = row a)
    (hsame : ∀ a ∈ l, ∀ b ∈ l, Clash (row b) (row a) → row b = row a) :
    x ∈ l.foldl (fun t a => if p a then t.insertOrIgnore (row a) else t) t ↔
      x ∈ t ∨ ∃ a ∈ l, p a ∧ x = row a := by
  induction l generalizing t with
  | nil => simp
  | cons a l ih =>
    have hstep : ∀ y, y ∈ (if p a then t.insertOrIgnore (row a) else t) ↔
        y ∈ t ∨ p a ∧ y = row a := by
      intro y
      by_cases hp : p a
      · rw [if_pos hp, mem_insertOrIgnore]
        constructor
        · rintro (hy | ⟨hy, -⟩)
          · exact Or.inl hy
          · exact Or.inr ⟨hp, hy⟩
        · rintro (hy | ⟨-, rfl⟩)
          · exact Or.inl hy
          · by_cases hfree : ∀ z ∈ t, ¬ Clash z (row a)
            · exact Or.inr ⟨rfl, hfree⟩
            · -- what it clashes with is the row itself
              push Not at hfree
              obtain ⟨z, hz, hclash⟩ := hfree
              exact Or.inl (hold a List.mem_cons_self z hz hclash ▸ hz)
      · simp [hp]
    rw [List.foldl_cons, ih]
    · rw [hstep, or_assoc]
      simp only [List.mem_cons, exists_eq_or_imp]
    · intro b hb y hy hclash
      rcases (hstep y).mp hy with hy | ⟨-, rfl⟩
      · exact hold b (List.mem_cons_of_mem _ hb) y hy hclash
      · exact hsame b (List.mem_cons_of_mem _ hb) a List.mem_cons_self hclash
    · exact fun b hb c hc =>
        hsame b (List.mem_cons_of_mem _ hb) c (List.mem_cons_of_mem _ hc)

/-! ## Rows that an upsert leaves alone -/

variable {p : ρ → Bool} {f : Update ρ}

/-- An update of rows that a query selects neither before nor after it. -/
lemma filter_update (hq : ∀ x, p x = true → q x = false)
    (hqf : ∀ x, p x = true → q (f x) = false) :
    (t.update p f).rows.filter q = t.rows.filter q := by
  show (t.rows.map fun x => if p x = true then f x else x).filter q = _
  induction t.rows with
  | nil => rfl
  | cons x l ih =>
    rw [List.map_cons, List.filter_cons, List.filter_cons, ih]
    by_cases hp : p x = true
    · rw [if_pos hp, hq x hp, hqf x hp]
      rfl
    · rw [if_neg hp]

/-- An upsert of rows that a query does not select. -/
lemma filter_upsert? (h : t.upsert? p r f = some t') (hr : q r = false)
    (hq : ∀ x, p x = true → q x = false) (hqf : ∀ x, p x = true → q (f x) = false) :
    t'.rows.filter q = t.rows.filter q := by
  rcases upsert?_cases h with ⟨-, rfl⟩ | ⟨-, hins⟩
  · exact filter_update hq hqf
  · rw [rows_of_insert? hins, List.filter_append]
    simp [hr]

end Table

end Relational
