/-
# Resolving a relationship from its row

The pass does not resolve the relationships of the documents but what it reads back from their
rows.  A row keeps the target, its kind, the confidence and whether an edge was composed; it
keeps the document only where the source is one, and of the explicit relationships it keeps
only `IMPLEMENTS` apart from the others.
-/
import WorkspaceAtlas.Semantic.FactRows
import WorkspaceAtlas.Semantic.Resolution

namespace WorkspaceAtlas

open Relational Transition

/-- The relationship with the key of its target. -/
def MappedRelationship.canonical (rel : MappedRelationship) : MappedRelationship :=
  { rel with
    targetRefValue :=
      if rel.targetRefKind = .symbol then
        canonicalSymbolKey rel.targetRefValue rel.sourceCanonicalDocumentPath
      else rel.targetRefValue }

namespace Reconstructed

/-! ## The statement -/

/-- Two outcomes that agree but for the candidates. -/
structure SameResolution (a b : ResolutionOutcome) : Prop where
  status_eq : a.status = b.status
  resolved_eq : a.resolved = b.resolved
  reasonCode_eq : a.reasonCode = b.reasonCode
  confidence_eq : a.confidence = b.confidence

/-- The row is resolved as the relationship would be. -/
def Survives (u : SymbolUniverse) (rel : MappedRelationship) (f : RelationshipFact) : Prop :=
  SameResolution (resolveRelationship f.synthetic u) (resolveRelationship rel.canonical u)

/-- An explicit relationship to a symbol does not need the document to name its target, and it
is an implementation or to a symbol that is there. -/
structure Recoverable (u : SymbolUniverse) (rel : MappedRelationship) : Prop where
  global : rel.targetRefKind = .symbol → rel.relationshipType.isExplicit = true →
    isLocalSymbol rel.targetRefValue = true → rel.sourceCanonicalDocumentPath = ""
  found : rel.targetRefKind = .symbol → rel.relationshipType.isExplicit = true →
    rel.relationshipType = .implements ∨ u.Has rel.canonical.targetRefValue

section Lemmas

variable {rel rel' : MappedRelationship} {u : SymbolUniverse} {H : Hasher} {runId rid : String}
  {seen : List (List UInt8)} {f : RelationshipFact}

/-! ## What a resolution depends on -/

/-- Whether a relationship is explicit matters only for symbols that are not there. -/
lemma resolveRelationship_congr (htarget : rel'.targetRefValue = rel.targetRefValue)
    (hkind : rel'.targetRefKind = rel.targetRefKind)
    (hcomposed : rel'.reasonCode = "composed_span_match" ↔ rel.reasonCode = "composed_span_match")
    (hconfidence : rel'.confidence = rel.confidence)
    (hexplicit : rel.targetRefKind = .symbol → ¬ u.Has rel.targetRefValue →
      rel'.relationshipType.isExplicit = rel.relationshipType.isExplicit) :
    resolveRelationship rel' u = resolveRelationship rel u := by
  unfold resolveRelationship
  simp only [htarget, hkind, hcomposed, hconfidence]
  by_cases hhas : u.Has rel.targetRefValue
  · -- one of the first three branches is taken
    rcases hhas with hthis | hdef
    · simp only [hthis, or_true, and_true, if_true]
    · simp only [hdef, true_or, and_true, if_true]
  · cases hsym : rel.targetRefKind with
    | symbol => rw [hexplicit hsym hhas]
    | externalSymbol => simp only [ne_eq, not_true_eq_false, and_false]

/-- A symbol that is named explicitly is resolved to itself. -/
lemma resolved_of_isExplicit (hsym : rel.targetRefKind = .symbol)
    (hexp : rel.relationshipType.isExplicit = true) :
    (resolveRelationship rel u).status = .resolvedSymbol ∧
      (resolveRelationship rel u).resolved = some (.symbol rel.targetRefValue) := by
  unfold resolveRelationship
  dsimp only
  rw [if_pos (show rel.relationshipType.isExplicit = true ∧ rel.targetRefKind ≠ .externalSymbol
    from ⟨hexp, by simp [hsym]⟩)]
  split_ifs <;> exact ⟨rfl, rfl⟩

/-! ## What a row keeps -/

lemma synthetic_targetRefKind :
    (rel.row H runId rid seen).synthetic.targetRefKind = rel.targetRefKind :=
  targetKind_row

lemma synthetic_confidence :
    (rel.row H runId rid seen).synthetic.confidence = rel.confidence := rfl

/-- A composed edge is read back as one, and no other. -/
lemma synthetic_composed :
    (rel.row H runId rid seen).synthetic.reasonCode = "composed_span_match" ↔
      rel.reasonCode = "composed_span_match" := by
  show internReasonCode rel.reasonCode = _ ↔ _
  unfold internReasonCode
  split
  next => exact Iff.rfl
  next hnot =>
    refine iff_of_false (by decide) fun h => hnot ?_
    rw [h]
    decide

/-- Of the explicit relationships the implementations are read back as such. -/
lemma synthetic_isExplicit :
    (rel.row H runId rid seen).synthetic.relationshipType.isExplicit = true ↔
      rel.relationshipType = .implements := by
  show (internRelationshipType rel.relationshipType.stored).isExplicit = true ↔ _
  cases rel.relationshipType <;> decide

/-- The document is kept unless the relationship is explicit. -/
lemma row_sourceDocumentPath : (rel.row H runId rid seen).sourceDocumentPath =
    if rel.relationshipType.isExplicit = true then "" else rel.sourceCanonicalDocumentPath := by
  show (if rel.source.1 = .path then rel.source.2 else "") = _
  unfold MappedRelationship.source
  cases rel.relationshipType <;> rfl

/-- The key is read back, unless it is the key of a local symbol without its document. -/
lemma synthetic_targetRefValue_iff :
    (rel.row H runId rid seen).synthetic.targetRefValue = rel.canonical.targetRefValue ↔
      (rel.targetRefKind = .symbol → rel.relationshipType.isExplicit = true →
        isLocalSymbol rel.targetRefValue = true → rel.sourceCanonicalDocumentPath = "") := by
  show (if (rel.row H runId rid seen).targetKind = .symbol then
    canonicalSymbolKey rel.targetRefValue (rel.row H runId rid seen).sourceDocumentPath
    else rel.targetRefValue) = (if rel.targetRefKind = .symbol then _ else _) ↔ _
  rw [targetKind_row, row_sourceDocumentPath]
  by_cases hsym : rel.targetRefKind = .symbol
  · simp only [hsym, if_true, forall_const]
    cases hexp : rel.relationshipType.isExplicit with
    | false => exact iff_of_true rfl fun h => absurd h (by simp)
    | true =>
      cases hlocal : isLocalSymbol rel.targetRefValue with
      | false =>
        exact iff_of_true (canonicalSymbolKey_global hlocal _ _) fun _ h => absurd h (by simp)
      | true =>
        exact (canonicalSymbolKey_local_inj hlocal).trans
          ⟨fun h _ _ => h.symm, fun h => (h rfl rfl).symm⟩
  · simp [hsym]

/-! ## The row of a relationship -/

/-- The only row that recording a relationship adds is its own. -/
lemma eq_row_of_recorded {revisions : Table FileRevision} {t t' : FactTables}
    (hok : recordSemanticRelationshipFact H revisions t runId rid seen rel = .ok t')
    (hf : f ∈ t'.relationshipFact) (hnew : f ∉ t.relationshipFact) :
    f = rel.row H runId rid seen := by
  rcases insertRelationship_ok hok with ⟨rfl, -⟩ | ⟨-, relationships, hins, rfl⟩
  · exact absurd hf hnew
  · exact ((Table.mem_of_insert? hins).mp hf).resolve_left hnew

/-- What is resolved for the row is what the relationship is resolved as. -/
lemma Recoverable.survives (h : Recoverable u rel) :
    Survives u rel (rel.row H runId rid seen) := by
  have hsame : resolveRelationship (rel.row H runId rid seen).synthetic u =
      resolveRelationship rel.canonical u := by
    refine resolveRelationship_congr (synthetic_targetRefValue_iff.mpr h.global)
      synthetic_targetRefKind synthetic_composed synthetic_confidence fun hsym hnot => ?_
    rw [Bool.eq_iff_iff, synthetic_isExplicit]
    constructor
    · intro himp
      show rel.relationshipType.isExplicit = true
      rw [himp]
      rfl
    · intro hexp
      exact (h.found hsym hexp).resolve_right hnot
  rw [Survives, hsame]
  exact ⟨rfl, rfl, rfl, rfl⟩

/-- A row that is resolved as its relationship has kept what that needs. -/
lemma recoverable_of_survives (h : Survives u rel (rel.row H runId rid seen)) :
    Recoverable u rel := by
  have hvalue : rel.targetRefKind = .symbol → rel.relationshipType.isExplicit = true →
      (rel.row H runId rid seen).synthetic.targetRefValue = rel.canonical.targetRefValue ∧
      (rel.relationshipType = .implements ∨ u.Has rel.canonical.targetRefValue) := by
    intro hsym hexp
    obtain ⟨hstatus, hresolved⟩ : (resolveRelationship rel.canonical u).status = .resolvedSymbol ∧
        (resolveRelationship rel.canonical u).resolved =
          some (.symbol rel.canonical.targetRefValue) := resolved_of_isExplicit hsym hexp
    -- so the row is resolved to a symbol too, and to the same one
    have hstatus' := h.status_eq.trans hstatus
    have htarget := (resolved_of_resolvedSymbol hstatus').symm.trans
      (h.resolved_eq.trans hresolved)
    have heq := ResolvedRef.symbol.inj (Option.some.inj htarget)
    rw [resolvedSymbol_iff_has, heq, synthetic_isExplicit] at hstatus'
    exact ⟨heq, hstatus'.symm.imp_left And.left⟩
  constructor
  · intro hsym hexp
    exact synthetic_targetRefValue_iff.mp (hvalue hsym hexp).1 hsym hexp
  · exact fun hsym hexp => (hvalue hsym hexp).2

end Lemmas

/-- **A relationship survives its row** exactly when its row keeps what it is resolved by. -/
theorem survives_iff_recoverable (H : Hasher) (revisions : Table FileRevision)
    {t t' : FactTables} (runId revisionId : String) (seen : List (List UInt8))
    (rel : MappedRelationship) (u : SymbolUniverse) {f : RelationshipFact}
    (hok : recordSemanticRelationshipFact H revisions t runId revisionId seen rel = .ok t')
    (hf : f ∈ t'.relationshipFact) (hnew : f ∉ t.relationshipFact) :
    Survives u rel f ↔ Recoverable u rel := by
  obtain rfl := eq_row_of_recorded hok hf hnew
  exact ⟨recoverable_of_survives, Recoverable.survives⟩

/-! ## A type definition -/

/-- A document that says what the type of a symbol is. -/
def typeDefined : ScipDocument where
  relativePath := "src/a.ts"
  occurrences := []
  symbols := [⟨"pkg Dog#", [⟨"pkg Animal#", false, false, true, false⟩]⟩, ⟨"pkg Animal#", []⟩]
  positionEncoding := .utf16

/-- The relationships of the document. -/
def typeRelationships : List MappedRelationship :=
  (mapDocument .ok typeDefined (locallyDefinedSymbolSet ⟨[typeDefined]⟩)).relationships

/-- A generation without symbols. -/
def noSymbols : SymbolUniverse := ⟨[], [], fun _ => [], []⟩

/-- The tables with the run and the revision of the document and no facts. -/
def typeRevision : Table FileRevision :=
  Table.empty.insertOrIgnore ⟨"r", "f", "", 1, .source, none, false, false, 0⟩

/-- The run that the relationships are recorded under. -/
def typeRun : FactTables :=
  { FactTables.empty with
    extractorRun := Table.empty.insertOrIgnore
      ⟨"e", "r", "scip", "1", .semanticIndex, "", "1.1.0", true, .complete, 0, none, 1, 1⟩ }

lemma exists_recorded : ∃ rel ∈ typeRelationships, ∃ t' f,
    recordSemanticRelationshipFact .plain typeRevision typeRun "e" "r" [] rel = .ok t' ∧
      f ∈ t'.relationshipFact ∧ rel.targetRefKind = .symbol ∧
      rel.relationshipType = .typeDefinition := by
  have hrun : ∃ rel ∈ typeRelationships, rel.targetRefKind = .symbol ∧
      rel.relationshipType = .typeDefinition ∧
      ∃ t' ∈ (recordSemanticRelationshipFact .plain typeRevision typeRun "e" "r" [] rel).toOption,
        ∃ f ∈ t'.relationshipFact.rows, f.revisionId = "r" := by
    decide +kernel
  obtain ⟨rel, hrel, hsym, htype, t', hok, f, hf, -⟩ := hrun
  exact ⟨rel, hrel, t', f, ok_of_toOption hok, hf, hsym, htype⟩

theorem survives_iff_typeDefined : ∃ rel ∈ typeRelationships, ∃ t' f,
    recordSemanticRelationshipFact .plain typeRevision typeRun "e" "r" [] rel = .ok t' ∧
      f ∈ t'.relationshipFact ∧ (Survives noSymbols rel f ↔ Recoverable noSymbols rel) := by
  obtain ⟨rel, hrel, t', f, hok, hf, -, -⟩ := exists_recorded
  exact ⟨rel, hrel, t', f, hok, hf, survives_iff_recoverable .plain typeRevision "e" "r" [] rel
    noSymbols hok hf Table.not_mem_empty⟩

/-- The type of the symbol is no longer resolved. -/
theorem typeDefined_not_survives : ∃ rel ∈ typeRelationships, ∃ t' f,
    recordSemanticRelationshipFact .plain typeRevision typeRun "e" "r" [] rel = .ok t' ∧
      f ∈ t'.relationshipFact ∧ f ∉ typeRun.relationshipFact ∧ ¬ Survives noSymbols rel f := by
  obtain ⟨rel, hrel, t', f, hok, hf, hsym, htype⟩ := exists_recorded
  obtain rfl := eq_row_of_recorded hok hf Table.not_mem_empty
  refine ⟨rel, hrel, t', _, hok, hf, Table.not_mem_empty, fun h => ?_⟩
  have hexp : rel.relationshipType.isExplicit = true := by
    rw [htype]
    rfl
  rcases (recoverable_of_survives h).found hsym hexp with himp | hthis | ⟨entry, hentry, -⟩
  · exact absurd (htype.symm.trans himp) (by decide)
  · exact absurd hthis List.not_mem_nil
  · exact absurd hentry List.not_mem_nil

end Reconstructed

end WorkspaceAtlas
