/-
# Reading evidence

`ServingReader`: the evidence of a symbol and of its relationships is read from the truth and,
where a projection is ready, from the projection as well.  What is answered is the truth; a
projection that says something else is reported.
-/
import WorkspaceAtlas.Serving.Build

namespace WorkspaceAtlas

open Relational

/-! ## Evidence -/

/-- `ServingSymbolEvidence`. -/
structure ServingSymbolEvidence where
  canonicalSymbolKey : String
  canonicalPath : String
  symbolKind : String
  factId : String
  providerTier : ProviderTier
  confidence : ℚ
  evidenceState : EvidenceMethod
  startByte : ℤ
  endByte : ℤ
  artifactClass : ArtifactClass
  isTest : Bool
  contentHash : String
  deriving DecidableEq, Repr

/-- `ServingRelationshipEvidence`. -/
structure ServingRelationshipEvidence where
  relationshipFactId : String
  sourceEntityId : String
  targetEntityId : String
  rawTargetRefKind : RefKind
  rawTargetRefValue : String
  relationshipType : RelationshipType
  resolutionState : ResolutionStatus
  confidence : ℚ
  deriving DecidableEq, Repr

/-- `RelationshipReadFilter`. -/
structure RelationshipReadFilter where
  includeCallers : Bool
  includeCallees : Bool
  includeTests : Bool
  includeConfigs : Bool
  deriving DecidableEq, Repr

/-- `ServingRelationshipSlice`. -/
structure ServingRelationshipSlice where
  rows : List ServingRelationshipEvidence
  truncated : Bool
  deriving DecidableEq, Repr

/-! ## Symbols -/

/-- `truth_symbol_evidence`. -/
def truthSymbolEvidence (c : Catalogue) (gid key : String) : List ServingSymbolEvidence :=
  let facts := c.facts.symbolFact.rows.filter fun sf => sf.canonicalSymbolKey = key
  let files := join facts c.generationFile.rows fun sf gf =>
    gf.generationId = gid ∧ gf.revisionId = some sf.revisionId ∧ gf.presenceState = .present
  let revisions := join files c.fileRevision.rows fun p fr => p.2.revisionId = some fr.revisionId
  let runs := join revisions c.facts.extractorRun.rows fun p er =>
    er.extractorRunId = p.1.1.extractorRunId
  ((orderBy (fun p => p.1.1.1.preference) runs).take 1).map fun p =>
    { canonicalSymbolKey := p.1.1.1.canonicalSymbolKey
      canonicalPath := p.1.1.2.canonicalPath
      symbolKind := p.1.1.1.symbolKind
      factId := p.1.1.1.symbolFactId
      providerTier := p.2.providerTier
      confidence := p.1.1.1.confidence
      evidenceState := p.1.1.1.evidenceMethod
      startByte := p.1.1.1.startByte
      endByte := p.1.1.1.endByte
      artifactClass := p.1.2.artifactClass
      isTest := p.1.2.isTest
      contentHash := p.1.2.contentHash }

/-- `projected_symbol_evidence`. -/
def projectedSymbolEvidence (c : Catalogue) (p : ServingPlane) (gid sgid key : String) :
    List ServingSymbolEvidence :=
  let cards := p.symbolCard.rows.filter fun card =>
    card.servingGenerationId = sgid ∧ card.canonicalSymbolKey = key
  let facts := join cards c.facts.symbolFact.rows fun card sf =>
    sf.symbolFactId = card.preferredFactId
  let files := join facts c.generationFile.rows fun q gf =>
    gf.generationId = gid ∧ gf.revisionId = some q.2.revisionId ∧ gf.presenceState = .present
  let revisions := join files c.fileRevision.rows fun q fr => q.2.revisionId = some fr.revisionId
  ((orderBy (fun q => q.1.1.1.canonicalSymbolKey) revisions).take 1).map fun q =>
    { canonicalSymbolKey := q.1.1.1.canonicalSymbolKey
      canonicalPath := q.1.1.1.canonicalPath
      symbolKind := q.1.1.1.symbolKind
      factId := q.1.1.1.preferredFactId
      providerTier := q.1.1.1.preferredProviderTier
      confidence := q.1.1.1.preferredConfidence
      evidenceState := q.1.1.1.evidenceState
      startByte := q.1.1.1.startByte
      endByte := q.1.1.1.endByte
      artifactClass := q.2.artifactClass
      isTest := q.2.isTest
      contentHash := q.2.contentHash }

/-! ## Relationships -/

/-- The types that a direction is read with. -/
def RelationshipReadFilter.reads (filter : RelationshipReadFilter) (inbound : Bool) :
    RelationshipType → Bool
  | .references | .implements | .imports | .extends => true
  | .calls => if inbound then filter.includeCallers else filter.includeCallees
  | .tests => filter.includeTests
  | .configures => filter.includeConfigs
  | _ => false

/-- `relationship_read_priority`. -/
def relationshipReadPriority : ResolutionStatus → ℕ
  | .resolvedSymbol | .resolvedFile | .external => 0
  | _ => 1

/-- `projected_target`. -/
def projectedTarget (status : Option ResolutionStatus) (resolvedKind resolvedValue : Option String)
    (rawValue : String) : ResolutionStatus × RefKind × String :=
  match status, resolvedValue with
  | some .resolvedSymbol, some value =>
    if resolvedKind = some "symbol" then (.resolvedSymbol, .symbol, value)
    else (.invalid, .external, rawValue)
  | some .resolvedFile, some value =>
    if resolvedKind = some "file" ∨ resolvedKind = some "path" then (.resolvedFile, .path, value)
    else (.invalid, .external, rawValue)
  | some .resolvedSymbol, none | some .resolvedFile, none => (.invalid, .external, rawValue)
  | some .external, value => (.external, .external, value.getD rawValue)
  | some .ambiguous, _ => (.ambiguous, .external, rawValue)
  | some .invalid, _ => (.invalid, .external, rawValue)
  | some .stale, _ => (.stale, .external, rawValue)
  | _, _ => (.unresolved, .external, rawValue)

/-- A relationship and its resolution. -/
abbrev ResolvedRow := RelationshipFact × Option RelationshipResolution

/-- `map_truth_relationship_evidence`. -/
def mapTruthRelationshipEvidence (row : ResolvedRow) : ServingRelationshipEvidence :=
  let target := projectedTarget (row.2.map RelationshipResolution.status)
    (row.2.bind RelationshipResolution.resolvedRefKind)
    (row.2.bind RelationshipResolution.resolvedRefValue) row.1.targetRefValue
  { relationshipFactId := row.1.relationshipFactId
    sourceEntityId := entityIdFor row.1.sourceRefKind row.1.sourceRefValue
    targetEntityId := entityIdFor target.2.1 target.2.2
    rawTargetRefKind := row.1.targetRefKind
    rawTargetRefValue := row.1.targetRefValue
    relationshipType := row.1.relationshipType
    resolutionState := target.1
    confidence := row.1.confidence }

/-- The rows that the two directions start from. -/
def truthRows (truth : Truth) (gid key : String) (inbound : Bool) : List ResolvedRow :=
  let facts := truth.catalogue.facts.relationshipFact.rows
  if inbound then
    (join (truth.resolutions.rows.filter fun rr =>
        rr.generationId = gid ∧ rr.resolvedRefKind = some "symbol" ∧
          rr.resolvedRefValue = some key)
      facts fun rr rf => rf.relationshipFactId = rr.relationshipFactId).map fun p =>
        (p.2, some p.1)
  else
    leftJoin (facts.filter fun rf => rf.sourceRefKind = .symbol ∧ rf.sourceRefValue = key)
      truth.resolutions.rows fun rf rr =>
        rr.generationId = gid ∧ rr.relationshipFactId = rf.relationshipFactId

/-- The `ORDER BY` of `truth_relationship_direction`. -/
def truthOrder (row : ResolvedRow) : ℕ ×ₗ String :=
  toLex ((row.2.map fun rr => relationshipReadPriority rr.status).getD 1,
    row.1.relationshipFactId)

/-- `truth_relationship_direction`. -/
def truthRelationshipDirection (truth : Truth) (gid key : String) (fetchLimit : ℕ)
    (inbound : Bool) (filter : RelationshipReadFilter) : List ServingRelationshipEvidence :=
  let rows := (join (truthRows truth gid key inbound) truth.catalogue.generationFile.rows
    fun row gf => gf.generationId = gid ∧ gf.revisionId = some row.1.revisionId ∧
      gf.presenceState = .present).map Prod.fst
  ((orderBy truthOrder (rows.filter fun row => filter.reads inbound row.1.relationshipType)).take
    fetchLimit).map mapTruthRelationshipEvidence

/-- The endpoint that a direction compares. -/
def ServingEdge.endpoint (e : ServingEdge) (inbound : Bool) : String :=
  if inbound then e.targetEntityId else e.sourceEntityId

/-- `COALESCE(e.preferred_fact_id, e.edge_id)`. -/
def ServingEdge.readId (e : ServingEdge) : String := e.preferredFactId.getD e.edgeId

/-- The columns that `projected_relationship_direction` selects. -/
def mapProjectedRelationshipEvidence (row : ServingEdge × Option RelationshipFact) :
    ServingRelationshipEvidence where
  relationshipFactId := row.1.readId
  sourceEntityId := row.1.sourceEntityId
  targetEntityId := row.1.targetEntityId
  rawTargetRefKind := (row.2.map RelationshipFact.targetRefKind).getD .external
  rawTargetRefValue := (row.2.map RelationshipFact.targetRefValue).getD row.1.targetEntityId
  relationshipType := row.1.relationshipType
  resolutionState := row.1.resolutionState
  confidence := row.1.confidence

/-- `projected_relationship_direction`. -/
def projectedRelationshipDirection (c : Catalogue) (p : ServingPlane) (sgid key : String)
    (fetchLimit : ℕ) (inbound : Bool) (filter : RelationshipReadFilter) :
    List ServingRelationshipEvidence :=
  let edges := p.edge.rows.filter fun e => e.servingGenerationId = sgid ∧
    e.endpoint inbound = "symbol:" ++ key ∧ filter.reads inbound e.relationshipType = true
  let rows := leftJoin edges c.facts.relationshipFact.rows fun e rf =>
    e.preferredFactId = some rf.relationshipFactId
  ((orderBy (fun row => toLex (relationshipReadPriority row.1.resolutionState, row.1.readId))
    rows).take fetchLimit).map mapProjectedRelationshipEvidence

/-- `relationship_fetch_limit`: the limit and one row more, as an `i64`. -/
def relationshipFetchLimit (rowLimit : ℕ) : Except AtlasError ℕ :=
  if rowLimit + 1 < 2 ^ 63 then .ok (rowLimit + 1)
  else .error (.invalidConfig "Serving read bound exceeds SQLite range")

/-- `merge_relationship_slices`. -/
def mergeRelationshipSlices (source target : List ServingRelationshipEvidence) (rowLimit : ℕ) :
    ServingRelationshipSlice :=
  let rows := firsts ServingRelationshipEvidence.relationshipFactId none
    (orderBy (fun e => toLex (relationshipReadPriority e.resolutionState, e.relationshipFactId))
      (source ++ target))
  ⟨rows.take rowLimit, rowLimit < rows.length⟩

/-- `usize::saturating_add`. -/
def saturatingAdd (a b : ℕ) : ℕ := min (a + b) (2 ^ 64 - 1)

/-- What one side reads: the slice and the number of rows examined. -/
structure RelationshipRead where
  slice : ServingRelationshipSlice
  examined : ℕ
  deriving DecidableEq, Repr

/-- The two directions of one side, merged. -/
def readDirections (direction : ℕ → Bool → List ServingRelationshipEvidence) (rowLimit : ℕ) :
    Except AtlasError RelationshipRead := do
  let fetchLimit ← relationshipFetchLimit rowLimit
  let source := direction fetchLimit false
  let target := direction fetchLimit true
  .ok ⟨mergeRelationshipSlices source target rowLimit,
    saturatingAdd source.length target.length⟩

/-- `truth_relationship_evidence`. -/
def truthRelationshipEvidence (truth : Truth) (gid key : String) (rowLimit : ℕ)
    (filter : RelationshipReadFilter) : Except AtlasError RelationshipRead :=
  readDirections (fun fetchLimit inbound =>
    truthRelationshipDirection truth gid key fetchLimit inbound filter) rowLimit

/-- `projected_relationship_evidence`. -/
def projectedRelationshipEvidence (c : Catalogue) (p : ServingPlane) (sgid key : String)
    (rowLimit : ℕ) (filter : RelationshipReadFilter) : Except AtlasError RelationshipRead :=
  readDirections (fun fetchLimit inbound =>
    projectedRelationshipDirection c p sgid key fetchLimit inbound filter) rowLimit

/-! ## The reader -/

/-- `ServingReadExaminations`. -/
structure ServingReadExaminations where
  symbolProjectionRows : ℕ
  symbolTruthRows : ℕ
  relationshipProjectionRows : ℕ
  relationshipTruthRows : ℕ
  deriving DecidableEq, Repr

/-- `ServingReader`, with the cell of its examinations. -/
structure ServingReader where
  generationId : String
  servingGenerationId : Option String
  examinations : ServingReadExaminations
  validationMismatch : Bool
  deriving DecidableEq, Repr

/-- `ready_serving_generation_id`. -/
def readyServingGenerationId (p : ServingPlane) (workspaceId gid : String) : Option String :=
  (p.servingGeneration.find? fun g =>
    g.identity = (workspaceId, gid, servingSchemaVersion, projectionPolicyVersion) ∧
      g.state = .ready).map ServingGeneration.servingGenerationId

namespace ServingReader

/-- `ServingReader::new`. -/
def new (p : ServingPlane) (workspaceId gid : String) (allowServing : Bool)
    (examinations : ServingReadExaminations) : ServingReader where
  generationId := gid
  servingGenerationId := if allowServing then readyServingGenerationId p workspaceId gid else none
  examinations := examinations
  validationMismatch := false

/-- `add_symbol_truth_rows`. -/
def addSymbolTruthRows (reader : ServingReader) (n : ℕ) : ServingReader :=
  { reader with examinations := { reader.examinations with
      symbolTruthRows := saturatingAdd reader.examinations.symbolTruthRows n } }

/-- `add_symbol_projection_rows`. -/
def addSymbolProjectionRows (reader : ServingReader) (n : ℕ) : ServingReader :=
  { reader with examinations := { reader.examinations with
      symbolProjectionRows := saturatingAdd reader.examinations.symbolProjectionRows n } }

/-- `add_relationship_truth_rows`. -/
def addRelationshipTruthRows (reader : ServingReader) (n : ℕ) : ServingReader :=
  { reader with examinations := { reader.examinations with
      relationshipTruthRows := saturatingAdd reader.examinations.relationshipTruthRows n } }

/-- `add_relationship_projection_rows`. -/
def addRelationshipProjectionRows (reader : ServingReader) (n : ℕ) : ServingReader :=
  { reader with examinations := { reader.examinations with
      relationshipProjectionRows :=
        saturatingAdd reader.examinations.relationshipProjectionRows n } }

/-- `ServingReader::symbol`. -/
def symbol (reader : ServingReader) (truth : Truth) (p : ServingPlane) (key : String)
    (rowBound : ℕ) : List ServingSymbolEvidence × ServingReader :=
  if rowBound = 0 then ([], reader)
  else
    let rows := truthSymbolEvidence truth.catalogue reader.generationId key
    let reader := reader.addSymbolTruthRows rows.length
    match reader.servingGenerationId with
    | none => (rows, reader)
    | some sgid =>
      let projection := projectedSymbolEvidence truth.catalogue p reader.generationId sgid key
      let reader := reader.addSymbolProjectionRows projection.length
      if projection ≠ rows then (rows, { reader with validationMismatch := true })
      else (projection, reader)

/-- `ServingReader::relationships`. -/
def relationships (reader : ServingReader) (truth : Truth) (p : ServingPlane) (key : String)
    (rowLimit : ℕ) (filter : RelationshipReadFilter) :
    Except AtlasError (ServingRelationshipSlice × ServingReader) :=
  if rowLimit = 0 then .ok (⟨[], false⟩, reader)
  else do
    let read ← truthRelationshipEvidence truth reader.generationId key rowLimit filter
    let reader := reader.addRelationshipTruthRows read.examined
    match reader.servingGenerationId with
    | none => .ok (read.slice, reader)
    | some sgid =>
      let projection ← projectedRelationshipEvidence truth.catalogue p sgid key rowLimit filter
      let reader := reader.addRelationshipProjectionRows projection.examined
      if projection.slice ≠ read.slice then
        .ok (read.slice, { reader with validationMismatch := true })
      else .ok (projection.slice, reader)

end ServingReader

end WorkspaceAtlas
