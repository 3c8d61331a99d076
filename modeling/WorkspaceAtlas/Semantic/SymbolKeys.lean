/-
# Which symbols share a key

The key of a local symbol is the path of its document and the symbol with a colon between them,
and both may have colons in them.  Two local symbols share a key if the text between the end of
the one path and that of the other can be read as part of either.
-/
import WorkspaceAtlas.Semantic.Scip

namespace WorkspaceAtlas

namespace SymbolKeys

/-! ## The statement -/

/-- The raw symbols of two documents stand for one symbol. -/
def SameSymbol (s₁ p₁ s₂ p₂ : String) : Prop :=
  (isLocalSymbol s₁ = false ∧ isLocalSymbol s₂ = false ∧ s₁ = s₂) ∨
    (isLocalSymbol s₁ = true ∧ isLocalSymbol s₂ = true ∧ s₁ = s₂ ∧ p₁ = p₂)

/-- The path of the second document goes on behind that of the first one with the text with
which the first symbol starts, before a colon and the second symbol. -/
def Extends (s₁ p₁ s₂ p₂ : String) : Prop :=
  ∃ t, p₂ = p₁ ++ ":" ++ t ∧ s₁ = t ++ ":" ++ s₂

/-- A key of two local symbols that can be split in two ways. -/
def Ambiguous (s₁ p₁ s₂ p₂ : String) : Prop :=
  isLocalSymbol s₁ = true ∧ isLocalSymbol s₂ = true ∧
    (Extends s₁ p₁ s₂ p₂ ∨ Extends s₂ p₂ s₁ p₁)

/-- One path starts with the other one and the start of a local symbol behind a colon. -/
def LocalBehind (p₁ p₂ : String) : Prop := (p₁ ++ ":local ").toList <+: p₂.toList

/-! ## Keys -/

variable {s₁ s₂ p₁ p₂ : String}

/-- A text that is split at a colon in two ways. -/
lemma split_eq_iff : p₁ ++ ":" ++ s₁ = p₂ ++ ":" ++ s₂ ↔
    (s₁ = s₂ ∧ p₁ = p₂) ∨ Extends s₁ p₁ s₂ p₂ ∨ Extends s₂ p₂ s₁ p₁ := by
  have hlist : ∀ a b : String, (a ++ ":" ++ b).toList = a.toList ++ ':' :: b.toList := by
    intro a b
    simp [String.toList_append]
  have hextends : ∀ {s p s' p' : String} {z : List Char}, p'.toList = p.toList ++ z →
      ':' :: s.toList = z ++ ':' :: s'.toList → (s = s' ∧ p = p') ∨ Extends s p s' p' := by
    intro s p s' p' z hp hs
    cases z with
    | nil =>
      rw [List.append_nil] at hp
      exact Or.inl ⟨String.toList_inj.mp (List.cons.inj hs).2, String.toList_inj.mp hp.symm⟩
    | cons c t =>
      obtain ⟨rfl, htail⟩ := List.cons.inj hs
      refine Or.inr ⟨String.ofList t, ?_, ?_⟩
      · rw [← String.toList_inj, hlist, String.toList_ofList, hp]
      · rw [← String.toList_inj, hlist, String.toList_ofList]
        exact htail
  constructor
  · intro h
    rw [← String.toList_inj, hlist, hlist] at h
    rcases List.append_eq_append_iff.mp h with ⟨z, hp, hs⟩ | ⟨z, hp, hs⟩
    · rcases hextends hp hs with heq | hext
      · exact Or.inl heq
      · exact Or.inr (Or.inl hext)
    · rcases hextends hp hs with ⟨hs, hp⟩ | hext
      · exact Or.inl ⟨hs.symm, hp.symm⟩
      · exact Or.inr (Or.inr hext)
  · rintro (⟨rfl, rfl⟩ | ⟨t, rfl, rfl⟩ | ⟨t, rfl, rfl⟩)
    · rfl
    · simp only [String.append_assoc]
    · simp only [String.append_assoc]

/-- Symbols share a key if they are the same or the key can be split in two ways. -/
lemma canonicalSymbolKey_eq_iff : canonicalSymbolKey s₁ p₁ = canonicalSymbolKey s₂ p₂ ↔
    SameSymbol s₁ p₁ s₂ p₂ ∨ Ambiguous s₁ p₁ s₂ p₂ := by
  have hcolon : ∀ a b : String, "scip-local:" ++ a ≠ "scip:" ++ b := by
    intro a b h
    have hlist := congrArg (fun s => s.toList[4]?) h
    simp [String.toList_append] at hlist
  have hcancel : ∀ a b c : String, a ++ b = a ++ c ↔ b = c := by
    intro a b c
    rw [← String.toList_inj, ← String.toList_inj, String.toList_append, String.toList_append,
      List.append_cancel_left_eq]
  unfold canonicalSymbolKey SameSymbol Ambiguous
  cases h₁ : isLocalSymbol s₁ <;> cases h₂ : isLocalSymbol s₂
  · simp [hcancel]
  · simp [String.append_assoc, (hcolon _ _).symm]
  · simp [String.append_assoc, hcolon]
  · have hsplit := @split_eq_iff s₁ s₂ p₁ p₂
    rw [String.append_assoc, String.append_assoc] at hsplit
    simp only [if_true, String.append_assoc, hcancel, Bool.true_eq_false, false_and, true_and,
      false_or]
    exact hsplit

lemma localBehind_of_extends (hlocal : isLocalSymbol s₁ = true) (h : Extends s₁ p₁ s₂ p₂) :
    LocalBehind p₁ p₂ := by
  obtain ⟨t, rfl, rfl⟩ := h
  have hstart : "local ".toList <+: t.toList ++ ':' :: s₂.toList := by
    have hprefix := List.isPrefixOf_iff_prefix.mp hlocal
    simpa [String.toList_append] using hprefix
  have ht : "local ".toList <+: t.toList := by
    rcases Nat.lt_or_ge t.toList.length "local ".toList.length with hlt | hge
    · -- the colon would stand in `local `
      have hcolon : t.toList ++ [':'] <+: "local ".toList := by
        refine List.prefix_of_prefix_length_le ⟨s₂.toList, ?_⟩ hstart ?_
        · rw [List.append_assoc, List.singleton_append]
        · rw [List.length_append, List.length_singleton]
          exact hlt
      have hmem : ':' ∈ "local ".toList := hcolon.subset (by simp)
      exact absurd hmem (by decide)
    · exact List.prefix_of_prefix_length_le hstart (List.prefix_append _ _) hge
  obtain ⟨r, hr⟩ := ht
  refine ⟨r, ?_⟩
  simp only [String.toList_append, ← hr, List.append_assoc]
  rfl

/-- A symbol of the one document that shares its key with one of the other. -/
lemma exists_extends (h : LocalBehind p₁ p₂) : ∃ s₁, isLocalSymbol s₁ = true ∧
    Extends s₁ p₁ "local 0" p₂ ∧ s₁ ≠ "local 0" := by
  obtain ⟨r, hr⟩ := h
  have hp : p₂ = p₁ ++ ":" ++ ("local " ++ String.ofList r) := by
    rw [← String.toList_inj, ← hr]
    simp [String.toList_append]
  refine ⟨"local " ++ String.ofList r ++ ":" ++ "local 0", ?_, ⟨_, hp, rfl⟩, ?_⟩
  · exact List.isPrefixOf_iff_prefix.mpr ⟨r ++ ':' :: "local 0".toList, by
      simp [String.toList_append]⟩
  · intro heq
    have hlength := congrArg (fun s => s.toList.length) heq
    simp only [String.toList_append, List.length_append] at hlength
    have h6 : "local ".toList.length = 6 := by decide
    have h7 : "local 0".toList.length = 7 := by decide
    have h1 : ":".toList.length = 1 := by decide
    omega

/-- **Keys identify symbols** except where a key can be split in two ways, which for two documents
happens if and only if the path of one goes on behind that of the other with the start of a local
symbol. -/
theorem key_identifies_iff (s₁ p₁ s₂ p₂ : String) :
    ((canonicalSymbolKey s₁ p₁ = canonicalSymbolKey s₂ p₂ ↔ SameSymbol s₁ p₁ s₂ p₂) ↔
        ¬ Ambiguous s₁ p₁ s₂ p₂) ∧
      ((∀ s₁ s₂, canonicalSymbolKey s₁ p₁ = canonicalSymbolKey s₂ p₂ ↔
          SameSymbol s₁ p₁ s₂ p₂) ↔
        ¬ LocalBehind p₁ p₂ ∧ ¬ LocalBehind p₂ p₁) := by
  have hpoint : ∀ s₁ s₂, (canonicalSymbolKey s₁ p₁ = canonicalSymbolKey s₂ p₂ ↔
      SameSymbol s₁ p₁ s₂ p₂) ↔ ¬ Ambiguous s₁ p₁ s₂ p₂ := by
    intro s₁ s₂
    rw [canonicalSymbolKey_eq_iff]
    constructor
    · intro h hambiguous
      -- the path of one symbol is longer than that of the other
      have hsame := h.mp (Or.inr hambiguous)
      obtain ⟨hlocal, -, hext⟩ := hambiguous
      have hp : p₁ = p₂ := by
        rcases hsame with ⟨hglobal, -⟩ | ⟨-, -, -, hp⟩
        · exact absurd (hlocal.symm.trans hglobal) (by decide)
        · exact hp
      subst hp
      have hlength : ∀ t : String, p₁ ≠ p₁ ++ ":" ++ t := by
        intro t heq
        have := congrArg (fun s => s.toList.length) heq
        simp [String.toList_append] at this
      rcases hext with ⟨t, heq, -⟩ | ⟨t, heq, -⟩
      · exact hlength t heq
      · exact hlength t heq
    · intro h
      exact ⟨fun hor => hor.resolve_right h, Or.inl⟩
  refine ⟨hpoint s₁ s₂, ?_⟩
  simp only [hpoint]
  constructor
  · intro h
    constructor
    · intro hbehind
      obtain ⟨s, hlocal, hext, -⟩ := exists_extends hbehind
      exact h s "local 0" ⟨hlocal, by decide, Or.inl hext⟩
    · intro hbehind
      obtain ⟨s, hlocal, hext, -⟩ := exists_extends hbehind
      exact h "local 0" s ⟨by decide, hlocal, Or.inr hext⟩
  · rintro ⟨hnot, hnot'⟩ s₁ s₂ ⟨h₁, h₂, hext | hext⟩
    · exact hnot (localBehind_of_extends h₁ hext)
    · exact hnot' (localBehind_of_extends h₂ hext)

/-- A document whose name looks like a local symbol. -/
theorem colonPath_sharesKey :
    canonicalSymbolKey "local a:local b" "src/x" =
        canonicalSymbolKey "local b" "src/x:local a" ∧
      ¬ SameSymbol "local a:local b" "src/x" "local b" "src/x:local a" := by
  refine ⟨by decide, ?_⟩
  rintro (⟨h, -⟩ | ⟨-, -, h, -⟩)
  · exact absurd h (by decide)
  · exact absurd h (by decide)

end SymbolKeys

end WorkspaceAtlas
