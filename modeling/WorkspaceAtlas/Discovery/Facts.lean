/-
# Facts of the built-in providers

`persist_provider_batch`: the batch a built-in provider extracted from the text of a file is
stored under the revision that the reconcile recorded for the file.  An extractor run of
the same provider on the same revision is not repeated.
-/
import WorkspaceAtlas.Catalogue.Ids
import WorkspaceAtlas.Catalogue.Schema
import WorkspaceAtlas.Transition.Loop

namespace WorkspaceAtlas

open Relational Transition

/-! ## Batches -/

/-- `NormalizedSymbol`. -/
structure NormalizedSymbol where
  canonicalSymbolKey : String
  symbolKind : String
  displayName : String
  qualifiedName : String
  signature : Option String
  startByte : ℤ
  endByte : ℤ
  startLine : ℤ
  startColumn : ℤ
  endLine : ℤ
  endColumn : ℤ
  evidenceMethod : EvidenceMethod
  confidence : ℚ
  evidenceReason : String
  deriving DecidableEq, Repr

/-- `NormalizedRelationship`. -/
structure NormalizedRelationship where
  relationshipType : RelationshipType
  sourceRefKind : RefKind
  sourceRefValue : String
  targetRefKind : RefKind
  targetRefValue : String
  evidenceMethod : EvidenceMethod
  confidence : ℚ
  evidenceReason : String
  deriving DecidableEq, Repr

/-- `NormalizedBatch`, the output of one provider run over one file. -/
structure NormalizedBatch where
  providerName : String
  providerVersion : String
  providerTier : ProviderTier
  deterministic : Bool
  symbols : List NormalizedSymbol
  relationships : List NormalizedRelationship
  diagnostics : List String
  deriving DecidableEq, Repr

/-- `NormalizedBatch::empty`. -/
def NormalizedBatch.empty (providerName providerVersion : String) (tier : ProviderTier) :
    NormalizedBatch :=
  ⟨providerName, providerVersion, tier, true, [], [], []⟩

/-- `run_text_fallback`. -/
def runTextFallback (relPath : String) : NormalizedBatch :=
  { NormalizedBatch.empty "safe_text_fallback" "1.0.0" .textual with
    diagnostics := [relPath ++ ": no structural provider available; textual fallback only"] }

/-! ## Ids -/

/-- `i64::to_le_bytes`. -/
def i64LeBytes (n : ℤ) : List UInt8 := toLeBytes (n % 2 ^ 64).toNat

/-- The id of the run of a provider over a revision. -/
def extractorRunId (H : Hasher) (revisionId : String) (batch : NormalizedBatch) : String :=
  "run_" ++ toHex (H.blake3Short (utf8 revisionId ++ [0x1f] ++ utf8 batch.providerName ++
    [0x1f] ++ utf8 batch.providerVersion))

/-- The id of a symbol of a run. -/
def symbolFactId (H : Hasher) (runId : String) (sym : NormalizedSymbol) : String :=
  "sym_" ++ toHex (H.blake3Short (utf8 runId ++ [0x1f] ++ utf8 sym.canonicalSymbolKey ++
    [0x1f] ++ i64LeBytes sym.startByte ++ i64LeBytes sym.endByte))

/-- The text of the type in the column. -/
def RelationshipType.asStr : RelationshipType → String
  | .defines => "defines"
  | .contains => "contains"
  | .imports => "imports"
  | .exports => "exports"
  | .calls => "calls"
  | .references => "references"
  | .implements => "implements"
  | .extends => "extends"
  | .reads => "reads"
  | .writes => "writes"
  | .configures => "configures"
  | .tests => "tests"
  | .generates => "generates"
  | .documents => "documents"
  | .dependsOn => "depends_on"
  | .replaces => "replaces"
  | .movedTo => "moved_to"
  | .other => "other"

/-- The id of a relationship of a run. -/
def relationshipFactId (H : Hasher) (runId : String) (rel : NormalizedRelationship) : String :=
  "rel_" ++ toHex (H.blake3Short (utf8 runId ++ [0x1f] ++ utf8 rel.sourceRefValue ++ [0x1f] ++
    utf8 rel.targetRefValue ++ [0x1f] ++ utf8 rel.relationshipType.asStr))

/-- The id of a diagnostic of a run. -/
def diagnosticId (H : Hasher) (runId message : String) : String :=
  "diag_" ++ toHex (H.blake3Short (utf8 runId ++ [0x1f] ++ utf8 message))

/-! ## Insertion -/

/-- The foreign key `REFERENCES extractor_run(extractor_run_id)`. -/
def FactTables.hasRun (t : FactTables) (runId : String) : Bool :=
  t.extractorRun.rows.any fun r => r.extractorRunId = runId

/-- The foreign key `REFERENCES file_revision(revision_id)`. -/
def hasRevisionIn (revisions : Table FileRevision) (revisionId : String) : Bool :=
  revisions.rows.any fun r => r.revisionId = revisionId

/-- `INSERT INTO extractor_run`. -/
def FactTables.insertRun (revisions : Table FileRevision) (t : FactTables)
    (row : ExtractorRun) : Except AtlasError FactTables :=
  match t.extractorRun.insert? row with
  | none => .error (.sqlite (.constraint "extractor_run"))
  | some runs =>
    if hasRevisionIn revisions row.revisionId then .ok { t with extractorRun := runs }
    else .error (.sqlite (.foreignKey "extractor_run"))

/-- `INSERT OR IGNORE INTO symbol_fact`: a row that violates a `CHECK` or clashes is
dropped, one without its run or its revision is an error. -/
def FactTables.insertSymbol (revisions : Table FileRevision) (t : FactTables)
    (row : SymbolFact) : Except AtlasError FactTables :=
  if row.Valid then
    match t.symbolFact.insert? row with
    | none => .ok t
    | some symbols =>
      if t.hasRun row.extractorRunId ∧ hasRevisionIn revisions row.revisionId then
        .ok { t with symbolFact := symbols }
      else .error (.sqlite (.foreignKey "symbol_fact"))
  else .ok t

/-- `INSERT OR IGNORE INTO relationship_fact`. -/
def FactTables.insertRelationship (revisions : Table FileRevision) (t : FactTables)
    (row : RelationshipFact) : Except AtlasError FactTables :=
  if row.Valid then
    match t.relationshipFact.insert? row with
    | none => .ok t
    | some relationships =>
      if t.hasRun row.extractorRunId ∧ hasRevisionIn revisions row.revisionId then
        .ok { t with relationshipFact := relationships }
      else .error (.sqlite (.foreignKey "relationship_fact"))
  else .ok t

/-- `INSERT OR IGNORE INTO diagnostic`. -/
def FactTables.insertDiagnostic (t : FactTables) (row : Diagnostic) :
    Except AtlasError FactTables :=
  match t.diagnostic.insert? row with
  | none => .ok t
  | some diagnostics =>
    if t.hasRun row.extractorRunId then .ok { t with diagnostic := diagnostics }
    else .error (.sqlite (.foreignKey "diagnostic"))

/-! ## `persist_provider_batch` -/

/-- A batch with diagnostics and no facts is stored as a partial run. -/
def NormalizedBatch.status (batch : NormalizedBatch) : ExtractorRunStatus :=
  if batch.symbols.isEmpty ∧ batch.relationships.isEmpty ∧ ¬ batch.diagnostics.isEmpty then
    .partlyDone
  else .complete

/-- The run row of a batch. -/
def NormalizedBatch.runRow (H : Hasher) (revisionId : String) (byteSize : ℕ)
    (batch : NormalizedBatch) (now : Timestamp) : ExtractorRun where
  extractorRunId := extractorRunId H revisionId batch
  revisionId := revisionId
  providerName := batch.providerName
  providerVersion := batch.providerVersion
  providerTier := batch.providerTier
  configurationHash := "default"
  normalizedSchemaVersion := "1.0.0"
  deterministic := batch.deterministic
  status := batch.status
  startedAt := now
  finishedAt := some now
  bytesTotal := byteSize
  bytesProcessed := byteSize

/-- The row of a symbol of a run over the texts `seen`. -/
def NormalizedSymbol.row (H : Hasher) (runId revisionId : String) (seen : List (List UInt8))
    (sym : NormalizedSymbol) : SymbolFact where
  symbolFactId := symbolFactId H runId sym
  extractorRunId := runId
  revisionId := revisionId
  canonicalSymbolKey := sym.canonicalSymbolKey
  providerSymbolId := none
  symbolKind := sym.symbolKind
  displayName := sym.displayName
  qualifiedName := sym.qualifiedName
  signature := sym.signature
  startByte := sym.startByte
  endByte := sym.endByte
  startLine := sym.startLine
  startColumn := sym.startColumn
  endLine := sym.endLine
  endColumn := sym.endColumn
  evidenceMethod := sym.evidenceMethod
  confidence := sym.confidence
  evidenceReason := sym.evidenceReason
  extractedFrom := seen

/-- The row of a relationship of a run over the texts `seen`. -/
def NormalizedRelationship.row (H : Hasher) (runId revisionId : String)
    (seen : List (List UInt8)) (rel : NormalizedRelationship) : RelationshipFact where
  relationshipFactId := relationshipFactId H runId rel
  extractorRunId := runId
  revisionId := revisionId
  relationshipType := rel.relationshipType
  sourceRefKind := rel.sourceRefKind
  sourceRefValue := rel.sourceRefValue
  targetRefKind := rel.targetRefKind
  targetRefValue := rel.targetRefValue
  attributes := []
  evidenceMethod := rel.evidenceMethod
  confidence := rel.confidence
  evidenceReason := rel.evidenceReason
  extractedFrom := seen

/-- `persist_provider_batch`, for a batch extracted from the texts `seen`. -/
def persistProviderBatch (H : Hasher) (revisions : Table FileRevision) (t : FactTables)
    (revisionId : String) (byteSize : ℕ) (seen : List (List UInt8)) (batch : NormalizedBatch)
    (now : Timestamp) : Except AtlasError FactTables :=
  let runId := extractorRunId H revisionId batch
  if t.hasRun runId then .ok t
  else do
    let t ← t.insertRun revisions (batch.runRow H revisionId byteSize now)
    let t ← batch.symbols.foldlM
      (fun t sym => t.insertSymbol revisions (sym.row H runId revisionId seen)) t
    let t ← batch.relationships.foldlM
      (fun t rel => t.insertRelationship revisions (rel.row H runId revisionId seen)) t
    batch.diagnostics.foldlM
      (fun t message => t.insertDiagnostic ⟨diagnosticId H runId message, runId, message, now⟩) t

end WorkspaceAtlas
