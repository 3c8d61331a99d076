/-
# Facts of the semantic providers

`semantic_reconcile.rs` and `provider_persistence.rs`: an external provider is run over a
project scope and what it reports about a document is stored under the revision that the
candidate generation has for the document's path.  Finding, spawning and decoding a provider
happen outside the catalogue; a plan comes with what they came to.
-/
import WorkspaceAtlas.Discovery.Facts
import WorkspaceAtlas.Semantic.Positions

namespace WorkspaceAtlas

open Relational Transition Text

/-! ## What a provider reports -/

/-- `MappedSymbol`. -/
structure MappedSymbol where
  canonicalSymbolKey : String
  providerSymbolId : String
  canonicalDocumentPath : String
  isLocal : Bool
  startLine : ℤ
  startColumn : ℤ
  endLine : ℤ
  endColumn : ℤ
  confidence : ℚ
  deriving DecidableEq, Repr

/-- The relationship kinds of the mapper. -/
inductive ScipRelationship where
  | imports
  | references
  | calls
  | implements
  | typeDefinition
  | definedBy
  deriving DecidableEq, Repr

/-- `RefKind` of the mapper. -/
inductive ScipRefKind where
  | symbol
  | externalSymbol
  deriving DecidableEq, Repr

/-- `MappedRelationship`. -/
structure MappedRelationship where
  relationshipType : ScipRelationship
  sourceCanonicalDocumentPath : String
  sourceStartLine : ℤ
  sourceStartColumn : ℤ
  sourceEndLine : ℤ
  sourceEndColumn : ℤ
  targetRefKind : ScipRefKind
  targetRefValue : String
  providerSymbolId : String
  confidence : ℚ
  reasonCode : String
  deriving DecidableEq, Repr

/-- `MappedDocument`. -/
structure MappedDocument where
  canonicalPath : String
  positionEncoding : PositionEncoding
  symbols : List MappedSymbol
  relationships : List MappedRelationship
  partlyMapped : Bool
  deriving DecidableEq, Repr

/-- A document of a provider's output: what was mapped from it, the bytes that the provider
read for it, and the text that the reconcile reads to convert its positions. -/
structure ProviderDocument where
  mapped : MappedDocument
  seen : List UInt8
  text : Option String
  deriving DecidableEq, Repr

/-- `ProviderOutcome`. -/
inductive ProviderOutcome where
  | planned
  | running
  | complete
  | partlyComplete
  | unsupported
  | unavailable
  | failed
  | cancelled
  | timedOut
  | outputRejected
  | decodeFailed
  | mappingFailed
  | stale
  deriving DecidableEq, Repr

/-- The name that `{:?}` prints. -/
def ProviderOutcome.debugName : ProviderOutcome → String
  | planned => "Planned"
  | running => "Running"
  | complete => "Complete"
  | partlyComplete => "Partial"
  | unsupported => "Unsupported"
  | unavailable => "Unavailable"
  | failed => "Failed"
  | cancelled => "Cancelled"
  | timedOut => "TimedOut"
  | outputRejected => "OutputRejected"
  | decodeFailed => "DecodeFailed"
  | mappingFailed => "MappingFailed"
  | stale => "Stale"

/-- What running a plan came to: an error of the reconcile itself, an outcome without
documents, an earlier execution that is reused, or documents. -/
inductive PlanResult where
  | error (e : AtlasError)
  | failure (outcome : ProviderOutcome)
  | reused
  | executed (documents : List ProviderDocument)
  deriving DecidableEq, Repr

/-- `PlannedSemanticExecution`, as far as the facts depend on it, and its result. -/
structure SemanticPlan where
  providerName : String
  providerVersion : String
  configurationHash : String
  required : Bool
  enabled : Bool
  result : PlanResult
  deriving DecidableEq, Repr

/-! ## The outcome of a semantic reconcile -/

/-- `SemanticReconcileOutcome`, less the counters of the resolution pass. -/
structure SemanticOutcome where
  requiredFailure : Bool
  failureReason : Option String
  degraded : Bool
  scopesConsidered : ℕ
  executionsRun : ℕ
  executionsReused : ℕ
  documentsProcessed : ℕ
  symbolsPersisted : ℕ
  relationshipsPersisted : ℕ
  deriving DecidableEq, Repr

/-- The outcome before the first of `n` plans. -/
def SemanticOutcome.start (n : ℕ) : SemanticOutcome :=
  ⟨false, none, false, n, 0, 0, 0, 0, 0⟩

/-- `ActivationDecision`. -/
inductive ActivationDecision where
  | proceed (degraded : Bool)
  | block (reason : String)
  deriving DecidableEq, Repr

/-- Outcomes that count as failures of the provider. -/
def ProviderOutcome.isFailure : ProviderOutcome → Bool
  | failed | unavailable | timedOut | cancelled | outputRejected | decodeFailed
  | mappingFailed | unsupported => true
  | planned | running | complete | partlyComplete | stale => false

/-- `decide_activation`. -/
def decideActivation (required : Bool) (outcome : ProviderOutcome) : ActivationDecision :=
  if ¬ outcome.isFailure then .proceed (outcome = .partlyComplete)
  else if required then
    .block ("required provider outcome " ++ outcome.debugName ++ " blocks candidate activation")
  else .proceed true

/-- `record_outcome_failure`. -/
def recordOutcomeFailure (o : SemanticOutcome) (required : Bool) (outcome : ProviderOutcome) :
    SemanticOutcome :=
  match decideActivation required outcome with
  | .block reason =>
    { o with
      requiredFailure := true
      failureReason := some ((o.failureReason.map fun prev => prev ++ "; " ++ reason).getD
        reason) }
  | .proceed degraded => { o with degraded := o.degraded || degraded }

/-! ## Facts of a document -/

/-- `ensure_semantic_extractor_run`: the id of the run, found or inserted. -/
def ensureSemanticExtractorRun (H : Hasher) (revisions : Table FileRevision) (t : FactTables)
    (revisionId : String) (plan : SemanticPlan) (bytesTotal : ℕ) (now : Timestamp) :
    Except AtlasError (FactTables × String) :=
  let identity := (revisionId, plan.providerName, plan.providerVersion,
    plan.configurationHash, "1.1.0")
  match t.extractorRun.find? fun r => r.identity = identity with
  | some r => .ok (t, r.extractorRunId)
  | none =>
    let id := deterministicId H "run"
      [revisionId, plan.providerName, plan.providerVersion, plan.configurationHash, "1.1.0"]
    (t.insertRun revisions
      { extractorRunId := id
        revisionId := revisionId
        providerName := plan.providerName
        providerVersion := plan.providerVersion
        providerTier := .semanticIndex
        configurationHash := plan.configurationHash
        normalizedSchemaVersion := "1.1.0"
        deterministic := true
        status := .complete
        startedAt := now
        finishedAt := some now
        bytesTotal := bytesTotal
        bytesProcessed := bytesTotal }).map fun t => (t, id)

/-- `display_name_from_provider_symbol`. -/
def displayNameFromProviderSymbol (scipSymbol : String) : String :=
  let trimmed := trimEndMatches
    (fun ch => ch ∈ ['.', '#', '(', ')', ':', '!']) scipSymbol.toList
  let last := (trimmed.reverse.takeWhile fun ch => ch ∉ ['/', '#', '.', ' ']).reverse
  if last.isEmpty then scipSymbol else String.ofList last

/-- The row of a mapped symbol whose span starts and ends at the two offsets. -/
def MappedSymbol.row (H : Hasher) (runId revisionId : String) (seen : List (List UInt8))
    (startByte endByte : ℕ) (sym : MappedSymbol) : SymbolFact where
  symbolFactId := deterministicId H "sym"
    [runId, sym.canonicalSymbolKey, toString startByte, toString endByte]
  extractorRunId := runId
  revisionId := revisionId
  canonicalSymbolKey := sym.canonicalSymbolKey
  providerSymbolId := some sym.providerSymbolId
  symbolKind := "semantic_symbol"
  displayName := displayNameFromProviderSymbol sym.providerSymbolId
  qualifiedName := displayNameFromProviderSymbol sym.providerSymbolId
  signature := none
  startByte := startByte
  endByte := endByte
  startLine := sym.startLine + 1
  startColumn := sym.startColumn + 1
  endLine := sym.endLine + 1
  endColumn := sym.endColumn + 1
  evidenceMethod := .semantic
  confidence := sym.confidence
  evidenceReason := "scip_definition_occurrence"
  extractedFrom := seen

/-- `record_semantic_symbol_fact`; says whether the symbol had a span. -/
def recordSemanticSymbolFact (H : Hasher) (revisions : Table FileRevision) (t : FactTables)
    (runId revisionId documentText : String) (encoding : PositionEncoding)
    (seen : List (List UInt8)) (sym : MappedSymbol) : Except AtlasError (FactTables × Bool) :=
  let text := documentText.toList
  match scipPositionToByteOffset text sym.startLine sym.startColumn encoding,
      scipPositionToByteOffset text sym.endLine sym.endColumn encoding with
  | some startByte, some endByte =>
    if startByte ≤ endByte then
      (t.insertSymbol revisions (sym.row H runId revisionId seen startByte endByte)).map
        fun t => (t, true)
    else .ok (t, false)
  | _, _ => .ok (t, false)

/-- The relationship type stored for a kind of the mapper. -/
def ScipRelationship.stored : ScipRelationship → RelationshipType
  | imports => .imports
  | references => .references
  | calls => .calls
  | implements => .implements
  | typeDefinition => .other
  | definedBy => .other

/-- The attributes stored for a kind of the mapper. -/
def ScipRelationship.attributes : ScipRelationship → List (String × String)
  | typeDefinition => [("scip_relationship_kind", "TYPE_DEFINITION")]
  | definedBy => [("scip_relationship_kind", "DEFINED_BY")]
  | _ => []

/-- The stored source of a mapped relationship. -/
def MappedRelationship.source (rel : MappedRelationship) : RefKind × String :=
  match rel.relationshipType with
  | .implements | .typeDefinition | .definedBy => (.symbol, rel.providerSymbolId)
  | _ => (.path, rel.sourceCanonicalDocumentPath)

/-- The row of a mapped relationship. -/
def MappedRelationship.row (H : Hasher) (runId revisionId : String)
    (seen : List (List UInt8)) (rel : MappedRelationship) : RelationshipFact where
  relationshipFactId := deterministicId H "rel"
    [runId, rel.relationshipType.stored.asStr, rel.source.2, rel.targetRefValue,
      toString rel.sourceStartLine, toString rel.sourceStartColumn]
  extractorRunId := runId
  revisionId := revisionId
  relationshipType := rel.relationshipType.stored
  sourceRefKind := rel.source.1
  sourceRefValue := rel.source.2
  targetRefKind := match rel.targetRefKind with
    | .symbol => .symbol
    | .externalSymbol => .external
  targetRefValue := rel.targetRefValue
  attributes := rel.relationshipType.attributes
  evidenceMethod := .semantic
  confidence := rel.confidence
  evidenceReason := rel.reasonCode
  extractedFrom := seen

/-- `record_semantic_relationship_fact`. -/
def recordSemanticRelationshipFact (H : Hasher) (revisions : Table FileRevision)
    (t : FactTables) (runId revisionId : String) (seen : List (List UInt8))
    (rel : MappedRelationship) : Except AtlasError FactTables :=
  t.insertRelationship revisions (rel.row H runId revisionId seen)

/-! ## `run_one_plan` -/

/-- The encoding that the positions of a document are read in. -/
def effectiveEncoding (plan : SemanticPlan) (declared : PositionEncoding) : PositionEncoding :=
  if declared = .unspecified ∧ plan.providerName = "scip-typescript" then .utf16 else declared

/-- The facts and the outcome so far. -/
abbrev SemanticState := FactTables × SemanticOutcome

/-- One symbol of a document. -/
def persistSymbol (H : Hasher) (revisions : Table FileRevision) (plan : SemanticPlan)
    (runId revisionId documentText : String) (doc : ProviderDocument) (s : SemanticState)
    (sym : MappedSymbol) : Except AtlasError SemanticState :=
  (recordSemanticSymbolFact H revisions s.1 runId revisionId documentText
    (effectiveEncoding plan doc.mapped.positionEncoding) [doc.seen, utf8 documentText] sym).map
    fun (t, stored) =>
      (t, if stored then { s.2 with symbolsPersisted := s.2.symbolsPersisted + 1 } else s.2)

/-- One relationship of a document. -/
def persistRelationship (H : Hasher) (revisions : Table FileRevision)
    (runId revisionId : String) (doc : ProviderDocument) (s : SemanticState)
    (rel : MappedRelationship) : Except AtlasError SemanticState :=
  (recordSemanticRelationshipFact H revisions s.1 runId revisionId [doc.seen] rel).map
    fun t => (t, { s.2 with relationshipsPersisted := s.2.relationshipsPersisted + 1 })

/-- The revision a document's facts belong to: that of the present file with its path. -/
def documentRevision (files : Table GenerationFile) (generationId path : String) :
    Option String :=
  (files.find? fun gf => gf.generationId = generationId ∧ gf.canonicalPath = path ∧
    gf.presenceState = .present).bind GenerationFile.revisionId

/-- The body of the loop of `run_one_plan` over the mapped documents. -/
def persistDocument (H : Hasher) (revisions : Table FileRevision)
    (files : Table GenerationFile) (generationId : String) (plan : SemanticPlan)
    (now : Timestamp) (s : SemanticState) (doc : ProviderDocument) :
    Except AtlasError SemanticState :=
  let s : SemanticState :=
    (s.1, { s.2 with documentsProcessed := s.2.documentsProcessed + 1 })
  match documentRevision files generationId doc.mapped.canonicalPath with
  | none => .ok s
  | some revisionId =>
    if doc.mapped.partlyMapped then .ok s
    else do
      let documentText := doc.text.getD ""
      let (t, runId) ← ensureSemanticExtractorRun H revisions s.1 revisionId plan
        (utf8 documentText).length now
      let s ← doc.mapped.symbols.foldlM
        (persistSymbol H revisions plan runId revisionId documentText doc) (t, s.2)
      doc.mapped.relationships.foldlM (persistRelationship H revisions runId revisionId doc) s

/-- `run_one_plan`. -/
def runOnePlan (H : Hasher) (revisions : Table FileRevision) (files : Table GenerationFile)
    (generationId : String) (now : Timestamp) (s : SemanticState) (plan : SemanticPlan) :
    Except AtlasError SemanticState :=
  if ¬ plan.enabled then .ok s
  else
    match plan.result with
    | .error e => .error e
    | .failure outcome => .ok (s.1, recordOutcomeFailure s.2 plan.required outcome)
    | .reused => .ok (s.1, { s.2 with executionsReused := s.2.executionsReused + 1 })
    | .executed documents =>
      let anyPartial := documents.any fun doc => doc.mapped.partlyMapped
      let o := { s.2 with
        executionsRun := s.2.executionsRun + 1
        degraded := s.2.degraded || anyPartial }
      documents.foldlM (persistDocument H revisions files generationId plan now) (s.1, o)

/-- `run_semantic_reconcile`, up to its resolution pass. -/
def runSemanticReconcile (H : Hasher) (revisions : Table FileRevision)
    (files : Table GenerationFile) (t : FactTables) (generationId : String)
    (plans : List SemanticPlan) (now : Timestamp) : Except AtlasError SemanticState :=
  plans.foldlM (runOnePlan H revisions files generationId now)
    (t, SemanticOutcome.start plans.length)

end WorkspaceAtlas
