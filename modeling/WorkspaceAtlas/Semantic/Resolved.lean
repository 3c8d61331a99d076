/-
# Which targets are resolved

A target is classified when its document is mapped, against the symbol information of its own
index, and it is stored raw.  The pass turns it into a key again, but only if it was taken for
a symbol of the index, and with the path that the row names as its source, which the
relationships of a symbol information do not.
-/
import WorkspaceAtlas.Semantic.Resolution
import WorkspaceAtlas.Semantic.StoredRows

namespace WorkspaceAtlas

open Relational Transition

namespace Resolved

/-! ## The system -/

/-- An execution of a provider over a project scope that ended with an index. -/
structure ScipExecution where
  providerName : String
  providerVersion : String
  configurationHash : String
  required : Bool
  index : ScipIndex
  /-- `map_document_path`: the confinement of a path to the roots. -/
  confine : String → Except AtlasError String
  /-- The bytes that the provider read at a path. -/
  seen : String → List UInt8
  /-- The text that the reconcile reads at a path. -/
  read : String → Option String

/-- A document of the index as it is mapped. -/
def ScipExecution.mapped (e : ScipExecution) (doc : ScipDocument) : MappedDocument :=
  mapDocument e.confine doc (locallyDefinedSymbolSet e.index)

/-- The document with its texts. -/
def ScipExecution.document (e : ScipExecution) (doc : ScipDocument) : ProviderDocument :=
  ⟨e.mapped doc, e.seen (e.mapped doc).canonicalPath, e.read (e.mapped doc).canonicalPath⟩

/-- The plan of the execution. -/
def ScipExecution.plan (e : ScipExecution) : SemanticPlan where
  providerName := e.providerName
  providerVersion := e.providerVersion
  configurationHash := e.configurationHash
  required := e.required
  enabled := true
  result := .executed (e.index.documents.map e.document)

/-- The runs that the executions of the plans are linked to
(`link_execution_to_extractor_run`). -/
def linkedRuns (H : Hasher) (t : FactTables) (files : Table GenerationFile) (gid : String)
    (plans : List SemanticPlan) : List String :=
  (executedDocuments plans).filterMap fun (plan, doc) =>
    if doc.mapped.partlyMapped then none
    else (documentRevision files gid doc.mapped.canonicalPath).map (semanticRunId H t plan)

/-- What is there when the executions of a candidate are persisted. -/
structure Store where
  revisions : Table FileRevision
  files : Table GenerationFile
  facts : FactTables
  resolutions : Table RelationshipResolution
  /-- The runs that earlier executions of the workspace are linked to. -/
  linked : List String

/-- The executions are persisted and the resolution pass is run. -/
def persistAndResolve (H : Hasher) (store : Store) (workspaceId gid : String)
    (executions : List ScipExecution) (now : Timestamp) :
    Except AtlasError (FactTables × Table RelationshipResolution) := do
  let plans := executions.map ScipExecution.plan
  let (t, _) ← runSemanticReconcile H store.revisions store.files store.facts gid plans now
  .ok (t, runResolutionPass t store.files store.resolutions workspaceId gid
    (store.linked ++ linkedRuns H t store.files gid plans) now)

/-! ## The claim -/

/-- A fact of a document: a stored row of one of its relationships. -/
structure FactOf (H : Hasher) (t : FactTables) (files : Table GenerationFile) (gid : String)
    (executions : List ScipExecution) (e : ScipExecution) (doc : ScipDocument)
    (rel : MappedRelationship) (f : RelationshipFact) : Prop where
  execution_mem : e ∈ executions
  document_mem : doc ∈ e.index.documents
  whole : (e.mapped doc).partlyMapped = false
  relationship_mem : rel ∈ (e.mapped doc).relationships
  fact_mem : f ∈ t.relationshipFact
  row_eq : ∃ rid, documentRevision files gid (e.mapped doc).canonicalPath = some rid ∧
    ∃ seen, f = rel.row H (semanticRunId H t e.plan rid) rid seen

/-- The key is among the symbols reachable in the generation. -/
def Defined (t : FactTables) (files : Table GenerationFile) (gid key : String) : Prop :=
  ∃ sf ∈ t.symbolFact, sf.canonicalSymbolKey = key ∧
    ∃ gf ∈ files, gf.generationId = gid ∧ gf.revisionId = some sf.revisionId

/-- The fact is recorded as resolved to the symbol. -/
def ResolvedTo (resolutions : Table RelationshipResolution) (gid factId key : String) : Prop :=
  ∃ r ∈ resolutions, r.generationId = gid ∧ r.relationshipFactId = factId ∧
    r.status = .resolvedSymbol ∧ r.resolvedRefKind = some "symbol" ∧
    r.resolvedRefValue = some key

/-- Targets whose key is defined are resolved to it, and references, imports and calls of
others are not resolved to a symbol. -/
structure FindsDefined (H : Hasher) (t : FactTables) (files : Table GenerationFile)
    (gid : String) (executions : List ScipExecution)
    (resolutions : Table RelationshipResolution) : Prop where
  found : ∀ e doc rel f, FactOf H t files gid executions e doc rel f →
    Defined t files gid (canonicalSymbolKey rel.targetRefValue (e.mapped doc).canonicalPath) →
      ResolvedTo resolutions gid f.relationshipFactId
        (canonicalSymbolKey rel.targetRefValue (e.mapped doc).canonicalPath)
  not_found : ∀ e doc rel f, FactOf H t files gid executions e doc rel f →
    f.relationshipType ∈ [RelationshipType.references, .imports, .calls] →
    ¬ Defined t files gid (canonicalSymbolKey rel.targetRefValue (e.mapped doc).canonicalPath) →
      ∀ r ∈ resolutions, r.generationId = gid → r.relationshipFactId = f.relationshipFactId →
        r.status ≠ .resolvedSymbol

/-- The index takes the target for one of its symbols. -/
def Known (index : ScipIndex) (symbol : String) : Prop :=
  symbol ∈ locallyDefinedSymbolSet index ∨ isLocalSymbol symbol = true

/-- Every target whose key is defined is known to its own index and, if it is local, comes
from a row that names its document; and no other target is itself a key. -/
structure Classified (H : Hasher) (t : FactTables) (files : Table GenerationFile)
    (gid : String) (executions : List ScipExecution) : Prop where
  known : ∀ e doc rel f, FactOf H t files gid executions e doc rel f →
    Defined t files gid (canonicalSymbolKey rel.targetRefValue (e.mapped doc).canonicalPath) →
      Known e.index rel.targetRefValue ∧ (isLocalSymbol rel.targetRefValue = true →
        f.sourceDocumentPath = (e.mapped doc).canonicalPath)
  not_key : ∀ e doc rel f, FactOf H t files gid executions e doc rel f →
    f.relationshipType ∈ [RelationshipType.references, .imports, .calls] →
    ¬ Defined t files gid (canonicalSymbolKey rel.targetRefValue (e.mapped doc).canonicalPath) →
      ¬ Known e.index rel.targetRefValue → ¬ Defined t files gid rel.targetRefValue

section Lemmas

variable {H : Hasher} {t : FactTables} {files : Table GenerationFile} {ws gid : String}
  {executions : List ScipExecution} {e : ScipExecution} {doc : ScipDocument}
  {rel : MappedRelationship} {f : RelationshipFact} {linked : List String} {now : Timestamp}
  {resolutions : Table RelationshipResolution}

/-! ## The row of a fact -/

lemma targetKindOf_eq_symbol {index : ScipIndex} {symbol : String} :
    targetKindOf (locallyDefinedSymbolSet index) symbol = .symbol ↔ Known index symbol := by
  unfold targetKindOf Known
  by_cases h : symbol ∈ locallyDefinedSymbolSet index ∨ isLocalSymbol symbol = true
  · simp [h]
  · simp [h]

lemma FactOf.mappedFrom (h : FactOf H t files gid executions e doc rel f) :
    MappedFrom (locallyDefinedSymbolSet e.index) (e.mapped doc).canonicalPath rel :=
  mapDocument_mappedFrom h.relationship_mem

lemma FactOf.target_eq (h : FactOf H t files gid executions e doc rel f) :
    f.targetRefValue = rel.targetRefValue := by
  obtain ⟨rid, -, seen, rfl⟩ := h.row_eq
  rfl

/-- The stored kind of the target is the one that the index gave it. -/
lemma FactOf.targetKind_iff (h : FactOf H t files gid executions e doc rel f) :
    f.targetKind = .symbol ↔ Known e.index rel.targetRefValue := by
  rw [← targetKindOf_eq_symbol, ← h.mappedFrom.kind_eq]
  obtain ⟨rid, -, seen, rfl⟩ := h.row_eq
  rw [targetKind_row]

/-- A reference, import or call names its document. -/
lemma FactOf.source_eq (h : FactOf H t files gid executions e doc rel f)
    (htype : f.relationshipType ∈ [RelationshipType.references, .imports, .calls]) :
    f.sourceDocumentPath = (e.mapped doc).canonicalPath ∧
      (internRelationshipType f.relationshipType).isExplicit = false := by
  have hpath := h.mappedFrom.path_eq
  obtain ⟨rid, -, seen, rfl⟩ := h.row_eq
  rw [← hpath]
  have hrow : (rel.row H (semanticRunId H t e.plan rid) rid seen).relationshipType =
      rel.relationshipType.stored := rfl
  rw [hrow] at htype ⊢
  have hsource : (rel.row H (semanticRunId H t e.plan rid) rid seen).sourceDocumentPath =
      if rel.source.1 = .path then rel.source.2 else "" := rfl
  rw [hsource]
  unfold MappedRelationship.source
  cases hkind : rel.relationshipType with
  | references => exact ⟨rfl, rfl⟩
  | imports => exact ⟨rfl, rfl⟩
  | calls => exact ⟨rfl, rfl⟩
  | implements => simp [hkind, ScipRelationship.stored] at htype
  | typeDefinition => simp [hkind, ScipRelationship.stored] at htype
  | definedBy => simp [hkind, ScipRelationship.stored] at htype

/-- What a fact is looked up by: the key, if its target is known and its document named. -/
lemma FactOf.lookup_eq_iff (h : FactOf H t files gid executions e doc rel f) :
    f.canonicalTargetValue =
        canonicalSymbolKey rel.targetRefValue (e.mapped doc).canonicalPath ↔
      Known e.index rel.targetRefValue ∧ (isLocalSymbol rel.targetRefValue = true →
        f.sourceDocumentPath = (e.mapped doc).canonicalPath) := by
  rw [← h.targetKind_iff]
  unfold RelationshipFact.canonicalTargetValue
  rw [h.target_eq]
  by_cases hkind : f.targetKind = .symbol
  · rw [if_pos hkind]
    cases hlocal : isLocalSymbol rel.targetRefValue with
    | true => simp [hkind, canonicalSymbolKey_local_inj hlocal]
    | false => simp [hkind, canonicalSymbolKey_global hlocal _ (e.mapped doc).canonicalPath]
  · rw [if_neg hkind]
    exact iff_of_false (canonicalSymbolKey_ne _ _).symm fun h => hkind h.1

/-! ## The pass -/

/-- The row that the pass records for a fact. -/
def resolutionRow (t : FactTables) (files : Table GenerationFile) (ws gid : String)
    (now : Timestamp) (f : RelationshipFact) : RelationshipResolution :=
  (resolveRelationship f.synthetic (.ofRows (symbolRows t files gid))).row ws gid
    f.relationshipFactId resolverPolicyVersion now

/-- **The pass** records one row for every linked fact. -/
lemma mem_runResolutionPass (hnew : ∀ r ∈ resolutions, r.generationId ≠ gid)
    {r : RelationshipResolution} :
    r ∈ runResolutionPass t files resolutions ws gid linked now ↔ r ∈ resolutions ∨
      ∃ f ∈ linkedFacts t files gid linked,
        (0 ≤ (resolutionRow t files ws gid now f).confidence ∧
          (resolutionRow t files ws gid now f).confidence ≤ 1) ∧
        r = resolutionRow t files ws gid now f := by
  refine Table.mem_foldl_insertOrIgnore (resolutionRow t files ws gid now)
    (fun f => 0 ≤ (resolutionRow t files ws gid now f).confidence ∧
      (resolutionRow t files ws gid now f).confidence ≤ 1) ?_ ?_
  · intro f _ r hr hclash
    exact absurd (congrArg Prod.fst hclash) (hnew r hr)
  · -- facts with one id are one fact
    intro f hf g hg hclash
    have hid : g.relationshipFactId = f.relationshipFactId :=
      congrArg (fun key : String × String × String => key.2.1) hclash
    obtain rfl := Table.eq_of_clash (mem_linkedFacts.mp hg).1 (mem_linkedFacts.mp hf).1 hid
    rfl

/-- What the generation has for a fact that was linked. -/
lemma recorded_iff (hnew : ∀ r ∈ resolutions, r.generationId ≠ gid)
    (hf : f ∈ linkedFacts t files gid linked)
    (hvalid : 0 ≤ f.confidence ∧ f.confidence ≤ 1) {r : RelationshipResolution} :
    (r ∈ runResolutionPass t files resolutions ws gid linked now ∧ r.generationId = gid ∧
      r.relationshipFactId = f.relationshipFactId) ↔
      r = resolutionRow t files ws gid now f := by
  rw [mem_runResolutionPass hnew]
  constructor
  · rintro ⟨hr | ⟨g, hg, -, rfl⟩, hgid, hid⟩
    · exact absurd hgid (hnew r hr)
    · obtain rfl := Table.eq_of_clash (mem_linkedFacts.mp hg).1 (mem_linkedFacts.mp hf).1 hid
      rfl
  · rintro rfl
    exact ⟨Or.inr ⟨f, hf, confidence_bounds hvalid, rfl⟩, rfl, rfl⟩

/-- When the row of a fact resolves it to a symbol, and to which. -/
lemma resolutionRow_resolved :
    (resolutionRow t files ws gid now f).status = .resolvedSymbol ↔
      Defined t files gid f.canonicalTargetValue ∨
        (internRelationshipType f.relationshipType).isExplicit = true ∧
          f.targetKind = .symbol := by
  show (resolveRelationship _ _).status = _ ↔ _
  rw [resolvedSymbol_iff rfl, defines_ofRows]
  refine or_congr_right (and_congr_right fun _ => ?_)
  show f.targetKind ≠ .externalSymbol ↔ _
  cases f.targetKind with
  | symbol => simp
  | externalSymbol => simp

lemma resolvedTo_iff (hnew : ∀ r ∈ resolutions, r.generationId ≠ gid)
    (hf : f ∈ linkedFacts t files gid linked)
    (hvalid : 0 ≤ f.confidence ∧ f.confidence ≤ 1) {key : String} :
    ResolvedTo (runResolutionPass t files resolutions ws gid linked now) gid
        f.relationshipFactId key ↔
      (resolutionRow t files ws gid now f).status = .resolvedSymbol ∧
        f.canonicalTargetValue = key := by
  have hvalue : (resolutionRow t files ws gid now f).status = .resolvedSymbol →
      (resolutionRow t files ws gid now f).resolvedRefKind = some "symbol" ∧
      (resolutionRow t files ws gid now f).resolvedRefValue = some f.canonicalTargetValue := by
    intro h
    have hres := resolved_of_resolvedSymbol h
    constructor
    · exact congrArg (Option.map ResolvedRef.kind) hres
    · exact congrArg (Option.map ResolvedRef.value) hres
  constructor
  · rintro ⟨r, hr, hgid, hid, hstatus, -, hkey⟩
    obtain rfl := (recorded_iff hnew hf hvalid).mp ⟨hr, hgid, hid⟩
    exact ⟨hstatus, Option.some.inj ((hvalue hstatus).2.symm.trans hkey)⟩
  · rintro ⟨hstatus, rfl⟩
    obtain ⟨hr, hgid, hid⟩ :=
      (recorded_iff hnew hf hvalid (r := resolutionRow t files ws gid now f)).mpr rfl
    exact ⟨_, hr, hgid, hid, hstatus, (hvalue hstatus).1, (hvalue hstatus).2⟩

/-! ## The facts of the executions -/

/-- The pass sees every fact of a document. -/
lemma FactOf.isLinked (h : FactOf H t files gid executions e doc rel f) (earlier : List String) :
    f ∈ linkedFacts t files gid
        (earlier ++ linkedRuns H t files gid (executions.map ScipExecution.plan)) ∧
      0 ≤ f.confidence ∧ f.confidence ≤ 1 := by
  have hvalid := h.mappedFrom.confidence_mem
  obtain ⟨rid, hrev, seen, heq⟩ := h.row_eq
  refine ⟨mem_linkedFacts.mpr ⟨h.fact_mem, by rw [heq]; rfl, ?_, ?_⟩, by rw [heq]; exact hvalid⟩
  · refine List.mem_append_right _ (List.mem_filterMap.mpr ⟨(e.plan, e.document doc), ?_, ?_⟩)
    · refine List.mem_flatMap.mpr ⟨e.plan, List.mem_map_of_mem h.execution_mem, ?_⟩
      exact List.mem_map_of_mem (List.mem_map_of_mem h.document_mem)
    · show (if (e.mapped doc).partlyMapped = true then none
        else (documentRevision files gid (e.mapped doc).canonicalPath).map _) = _
      rw [h.whole, hrev, heq]
      rfl
  · obtain ⟨gf, hfind, hgf⟩ := Option.bind_eq_some_iff.mp hrev
    have hmatch := Table.find?_some hfind
    simp only [Bool.decide_and, Bool.and_eq_true, decide_eq_true_eq] at hmatch
    refine ⟨gf, Table.mem_of_find? hfind, hmatch.1, ?_⟩
    rw [hgf, heq]
    rfl

/-- **Exactly when the pass finds what is defined.** -/
lemma findsDefined_iff_classified (earlier : List String)
    (hnew : ∀ r ∈ resolutions, r.generationId ≠ gid) :
    FindsDefined H t files gid executions (runResolutionPass t files resolutions ws gid
        (earlier ++ linkedRuns H t files gid (executions.map ScipExecution.plan)) now) ↔
      Classified H t files gid executions := by
  constructor
  · intro h
    constructor
    · intro e doc rel f hf hdef
      obtain ⟨hlinked, hvalid⟩ := hf.isLinked earlier
      exact hf.lookup_eq_iff.mp ((resolvedTo_iff hnew hlinked hvalid).mp
        (h.found e doc rel f hf hdef)).2
    · intro e doc rel f hf htype hundef hunknown hkey
      obtain ⟨hlinked, hvalid⟩ := hf.isLinked earlier
      obtain ⟨hr, hgid, hid⟩ :=
        (recorded_iff hnew hlinked hvalid (r := resolutionRow t files ws gid now f)).mpr rfl
      refine h.not_found e doc rel f hf htype hundef _ hr hgid hid
        (resolutionRow_resolved.mpr (Or.inl ?_))
      -- an external target is looked up as it is
      have hlookup : f.canonicalTargetValue = rel.targetRefValue := by
        rw [← hf.target_eq]
        exact if_neg fun hkind => hunknown (hf.targetKind_iff.mp hkind)
      rw [hlookup]
      exact hkey
  · intro h
    constructor
    · intro e doc rel f hf hdef
      obtain ⟨hlinked, hvalid⟩ := hf.isLinked earlier
      have hlookup := hf.lookup_eq_iff.mpr (h.known e doc rel f hf hdef)
      refine (resolvedTo_iff hnew hlinked hvalid).mpr ⟨resolutionRow_resolved.mpr ?_, hlookup⟩
      rw [hlookup]
      exact Or.inl hdef
    · intro e doc rel f hf htype hundef r hr hgid hid hstatus
      obtain ⟨hlinked, hvalid⟩ := hf.isLinked earlier
      obtain ⟨hsource, hexplicit⟩ := hf.source_eq htype
      obtain rfl := (recorded_iff hnew hlinked hvalid).mp ⟨hr, hgid, hid⟩
      rcases resolutionRow_resolved.mp hstatus with hkey | ⟨hexp, -⟩
      · by_cases hknown : Known e.index rel.targetRefValue
        · rw [hf.lookup_eq_iff.mpr ⟨hknown, fun _ => hsource⟩] at hkey
          exact hundef hkey
        · have hlookup : f.canonicalTargetValue = rel.targetRefValue := by
            rw [← hf.target_eq]
            exact if_neg fun hkind => hknown (hf.targetKind_iff.mp hkind)
          rw [hlookup] at hkey
          exact h.not_key e doc rel f hf htype hundef hknown hkey
      · exact absurd (hexplicit.symm.trans hexp) (by simp)

lemma persistAndResolve_ok {store : Store} {t : FactTables}
    (h : persistAndResolve H store ws gid executions now = .ok (t, resolutions)) :
    resolutions = runResolutionPass t store.files store.resolutions ws gid
      (store.linked ++ linkedRuns H t store.files gid (executions.map ScipExecution.plan)) now := by
  simp only [persistAndResolve, bind_ok] at h
  obtain ⟨⟨t', o⟩, -, heq⟩ := h
  obtain ⟨rfl, rfl⟩ := Prod.mk.inj (Except.ok.inj heq)
  rfl

end Lemmas

/-- **Resolution finds what is defined** exactly when every defined target is classified as a
symbol of its index and named with its document. -/
theorem findsDefined_iff (H : Hasher) (store : Store) (workspaceId gid : String)
    (executions : List ScipExecution) (now : Timestamp) {t : FactTables}
    {resolutions : Table RelationshipResolution}
    (hnew : ∀ r ∈ store.resolutions, r.generationId ≠ gid)
    (h : persistAndResolve H store workspaceId gid executions now = .ok (t, resolutions)) :
    FindsDefined H t store.files gid executions resolutions ↔
      Classified H t store.files gid executions := by
  rw [persistAndResolve_ok h]
  exact findsDefined_iff_classified store.linked hnew

/-! ## Two scopes -/

/-- An execution whose index has one document with one occurrence of `s`. -/
def occurrenceOf (path : String) (roles : Int32) (symbols : List ScipSymbolInformation) :
    ScipExecution where
  providerName := "scip"
  providerVersion := "1"
  configurationHash := path
  required := false
  index := ⟨[⟨path, [⟨⟨0, 0, 0, 0⟩, "s", roles⟩], symbols, .utf8⟩]⟩
  confine := .ok
  seen _ := []
  read _ := some "x"

/-- The symbol is defined in one scope and referenced from another one. -/
def twoScopes : List ScipExecution :=
  [occurrenceOf "a" 1 [⟨"s", []⟩], occurrenceOf "b" 0 []]

/-- A candidate with the two files. -/
def twoFiles : Store where
  revisions := [⟨"ra", "fa", "", 1, .source, none, false, false, 0⟩,
    ⟨"rb", "fb", "", 1, .source, none, false, false, 0⟩].foldl Table.insertOrIgnore .empty
  files := [⟨"g", "fa", some "ra", "a", .present, none, none, none, none⟩,
    ⟨"g", "fb", some "rb", "b", .present, none, none, none, none⟩].foldl
      Table.insertOrIgnore .empty
  facts := .empty
  resolutions := .empty
  linked := []

/-- The reference, as it is mapped. -/
def referenceToOther : MappedRelationship :=
  ⟨.references, "b", 0, 0, 0, 0, .externalSymbol, "s", "s", 90 / 100, "scip_occurrence"⟩

/-- What is left of the reference and of the definition. -/
def crossReferenceLost (t : FactTables) (resolutions : Table RelationshipResolution) : Prop :=
  (∃ f ∈ t.relationshipFact.rows, f = referenceToOther.row .plain
    (semanticRunId .plain t (occurrenceOf "b" 0 []).plan "rb") "rb" [[]] ∧
    ∀ r ∈ resolutions.rows, r.relationshipFactId = f.relationshipFactId →
      r.status ≠ .resolvedSymbol) ∧
  ∃ sf ∈ t.symbolFact.rows, sf.canonicalSymbolKey = "scip:s" ∧ sf.revisionId = "ra"

instance (t : FactTables) (resolutions : Table RelationshipResolution) :
    Decidable (crossReferenceLost t resolutions) := by
  unfold crossReferenceLost
  infer_instance

theorem findsDefined_iff_twoScopes : ∃ t resolutions,
    persistAndResolve .plain twoFiles "ws" "g" twoScopes 0 = .ok (t, resolutions) ∧
      (FindsDefined .plain t twoFiles.files "g" twoScopes resolutions ↔
        Classified .plain t twoFiles.files "g" twoScopes) := by
  have hsome : (persistAndResolve .plain twoFiles "ws" "g" twoScopes 0).toOption.isSome := by
    decide +kernel
  obtain ⟨⟨t, resolutions⟩, hres⟩ := Option.isSome_iff_exists.mp hsome
  refine ⟨t, resolutions, ok_of_toOption hres, ?_⟩
  exact findsDefined_iff .plain twoFiles "ws" "g" twoScopes 0
    (fun _ hr => absurd hr Table.not_mem_empty) (ok_of_toOption hres)

/-- The reference from the other scope is not resolved. -/
theorem twoScopes_not_found : ∃ t resolutions,
    persistAndResolve .plain twoFiles "ws" "g" twoScopes 0 = .ok (t, resolutions) ∧
      ¬ FindsDefined .plain t twoFiles.files "g" twoScopes resolutions := by
  have hlost : ∃ p, p ∈ (persistAndResolve .plain twoFiles "ws" "g" twoScopes 0).toOption ∧
      crossReferenceLost p.1 p.2 := by
    decide +kernel
  obtain ⟨⟨t, resolutions⟩, hres, ⟨f, hf, heq, hnone⟩, sf, hsf, hkey, hrid⟩ := hlost
  refine ⟨t, resolutions, ok_of_toOption hres, fun hfinds => ?_⟩
  have hfact : FactOf .plain t twoFiles.files "g" twoScopes (occurrenceOf "b" 0 [])
      ⟨"b", [⟨⟨0, 0, 0, 0⟩, "s", 0⟩], [], .utf8⟩ referenceToOther f := by
    refine ⟨by simp [twoScopes], by simp [occurrenceOf], by decide, by decide +kernel, hf, "rb",
      by decide, [[]], heq⟩
  have hdefined : Defined t twoFiles.files "g" "scip:s" :=
    ⟨sf, hsf, hkey, ⟨"g", "fa", some "ra", "a", .present, none, none, none, none⟩, by decide,
      rfl, by rw [hrid]⟩
  obtain ⟨r, hr, -, hid, hstatus, -⟩ := hfinds.found _ _ _ _ hfact hdefined
  exact hnone r hr hid hstatus

end Resolved

end WorkspaceAtlas
