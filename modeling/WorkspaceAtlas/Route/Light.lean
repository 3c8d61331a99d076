/-
# The LIGHT dispatcher

`dispatch_real_light`: the rows of the targets and the state of their sources are looked up, each
in one operation, and every requested capability is reported as satisfied or as a deficit.
-/
import WorkspaceAtlas.Route.LightQuery

namespace WorkspaceAtlas.ContextRoute

open Relational Transition Text

/-! ## Targets -/

/-- The targets that `validate_catalogue_application_input` lets through: sorted, each once, and
within the bounds of the application. -/
structure CatalogueTargets where
  seedPaths : List String
  seedSymbols : List String
  pathsSorted : seedPaths.Pairwise (· < ·)
  symbolsSorted : seedSymbols.Pairwise (· < ·)
  bounded : seedPaths.length + seedSymbols.length ≤ maxContextExecutionRecords
  sized : ∀ target ∈ seedPaths ++ seedSymbols, target ≠ "" ∧ (utf8 target).length ≤ 512

namespace CatalogueTargets

/-- `SeedSummary::from_targets`. -/
def summary (H : Hasher) (t : CatalogueTargets) : SeedSummary where
  digest := digestOf H "workspace-atlas/context-route-seeds-v1" <|
    CanonicalEncoder.u64 t.seedPaths.length ++ t.seedPaths.flatMap CanonicalEncoder.text ++
      CanonicalEncoder.u64 t.seedSymbols.length ++ t.seedSymbols.flatMap CanonicalEncoder.text
  pathCount := t.seedPaths.length
  symbolCount := t.seedSymbols.length

/-- The targets of the query, each with whether it is a symbol. -/
def all (t : CatalogueTargets) : List (String × Bool) :=
  t.seedPaths.map (·, false) ++ t.seedSymbols.map (·, true)

@[simp] lemma length_all (t : CatalogueTargets) :
    t.all.length = t.seedPaths.length + t.seedSymbols.length := by
  simp [all]

end CatalogueTargets

/-! ## What is written of the rows -/

/-- An optional text. -/
def optionalJson : Option String → Json
  | some s => .str s
  | none => .null

/-- Optional rows. -/
def rowsJson {α : Type} (json : α → Json) : Option (List α) → Json
  | some rows => .arr (rows.map json)
  | none => .null

/-- `CatalogueLightIdentityMatch` as it is serialized. -/
def CatalogueLightIdentityMatch.json (m : CatalogueLightIdentityMatch) : Json :=
  .obj [("canonical_path", .str m.canonicalPath),
    ("canonical_symbol_key", optionalJson m.canonicalSymbolKey),
    ("content_hash", .str m.contentHash)]

/-- `CatalogueLightRelationship` as it is serialized. -/
def CatalogueLightRelationship.json (r : CatalogueLightRelationship) : Json :=
  .obj [("relationship_type", .str r.relationshipType), ("source_ref_kind", .str r.sourceRefKind),
    ("source_ref_value", .str r.sourceRefValue), ("target_ref_kind", .str r.targetRefKind),
    ("target_ref_value", .str r.targetRefValue), ("evidence_method", .str r.evidenceMethod),
    ("confidence_millionths", .num r.confidenceMillionths)]

/-- `CatalogueLightImpactTarget` as it is serialized. -/
def CatalogueLightImpactTarget.json (r : CatalogueLightImpactTarget) : Json :=
  .obj [("source_ref_kind", .str r.sourceRefKind), ("source_ref_value", .str r.sourceRefValue),
    ("resolution_status", .str r.resolutionStatus),
    ("resolved_ref_kind", optionalJson r.resolvedRefKind),
    ("resolved_ref_value", optionalJson r.resolvedRefValue)]

/-- `CatalogueLightCoverage` as it is serialized. -/
def CatalogueLightCoverage.json (r : CatalogueLightCoverage) : Json :=
  .obj [("scope_kind", .str r.scopeKind), ("scope_key", .str r.scopeKey), ("status", .str r.status)]

/-- `CatalogueLightConflict` as it is serialized. -/
def CatalogueLightConflict.json (r : CatalogueLightConflict) : Json :=
  .obj [("subject_kind", .str r.subjectKind), ("subject_key", .str r.subjectKey),
    ("conflict_type", .str r.conflictType), ("status", .str r.status),
    ("preferred_fact_id", optionalJson r.preferredFactId)]

/-- `CatalogueLightQueryTargetResult` as it is serialized. -/
def CatalogueLightQueryTargetResult.json (r : CatalogueLightQueryTargetResult) : Json :=
  .obj [("target_kind", .str r.targetKind), ("target", .str r.target),
    ("identity_matches", .arr (r.identityMatches.map CatalogueLightIdentityMatch.json)),
    ("relationships", rowsJson CatalogueLightRelationship.json r.relationships),
    ("relationships_truncated", .bool r.relationshipsTruncated),
    ("impact_targets", rowsJson CatalogueLightImpactTarget.json r.impactTargets),
    ("impact_truncated", .bool r.impactTruncated),
    ("coverage", rowsJson CatalogueLightCoverage.json r.coverage),
    ("coverage_truncated", .bool r.coverageTruncated),
    ("conflicts", rowsJson CatalogueLightConflict.json r.conflicts),
    ("conflicts_truncated", .bool r.conflictsTruncated)]

/-! ## Sources -/

/-- What reading a path of the workspace comes to. -/
inductive LiveSource where
  /-- The root or the path cannot be resolved, the path leaves the root, or the file cannot be
  read. -/
  | unreadable
  /-- The file, or what the path names, changed while the bytes were read. -/
  | moved (bytes : List UInt8)
  | read (bytes : List UInt8)
  deriving DecidableEq, Repr

/-- `CatalogueLightSourceReference`, which is also what LIGHT keeps of an
`ExactSourceVerification`. -/
structure CatalogueLightSourceReference where
  canonicalPath : String
  indexedHash : Option String
  observedHash : Option String
  status : String
  deriving DecidableEq, Repr

/-- `CatalogueLightSourceReference` as it is serialized. -/
def CatalogueLightSourceReference.json (r : CatalogueLightSourceReference) : Json :=
  .obj [("canonical_path", .str r.canonicalPath), ("indexed_hash", optionalJson r.indexedHash),
    ("observed_hash", optionalJson r.observedHash), ("status", .str r.status)]

/-- `CatalogueLightResults`. -/
structure CatalogueLightResults where
  query : Option (List CatalogueLightQueryTargetResult)
  sourceReferences : Option (List CatalogueLightSourceReference)
  deriving DecidableEq, Repr

/-- What the dispatcher works on. -/
structure LightContext where
  hasher : Hasher
  store : LightStore
  workspaceId : String
  live : String → LiveSource
  targets : CatalogueTargets

namespace LightContext

variable (x : LightContext) (decision : ContextRouteDecision)
  (operations : List VersionedOperation) (gid : String)

/-- `max_source_bytes` of `CompileRequest::default`. -/
def maxSourceBytes : ℕ := 32768

/-- `verify_exact_source_at_generation` without a range. -/
def verifyExactSourceAtGeneration (path : String) :
    Except AtlasError CatalogueLightSourceReference :=
  match (x.store.catalogue.currentFileOf gid).find? fun cf => cf.canonicalPath = path with
  | none => .ok ⟨path, none, none, "not_found"⟩
  | some cf =>
    match contentHashOf x.store cf with
    | none =>
      .error (.sqlite (.failure "Invalid column type Null at index: 0, name: content_hash"))
    | some indexed =>
      match x.live path with
      | .unreadable => .ok ⟨path, some indexed, none, "read_failed"⟩
      | .moved bytes => .ok ⟨path, some indexed, some (contentHashOfBytes x.hasher bytes),
          "read_failed"⟩
      | .read bytes =>
        let observed := contentHashOfBytes x.hasher bytes
        .ok ⟨path, some indexed, some observed,
          if observed = indexed then "verified" else "hash_mismatch"⟩

/-- `SELECT fr.byte_size FROM current_file cf JOIN file_revision fr ..`. -/
def byteSizeOf (path : String) : Option ℕ :=
  ((join (x.store.catalogue.currentFileOf gid) x.store.catalogue.fileRevision.rows fun cf fr =>
    cf.revisionId = some fr.revisionId).find? fun row => row.1.canonicalPath = path).map
      fun row => row.2.byteSize

/-- The body of the loop over the paths: the bytes scheduled so far and what was observed. -/
def observeSource (scan : ℕ × List CatalogueLightSourceReference) (path : String) :
    Except AtlasError (ℕ × List CatalogueLightSourceReference) :=
  match x.byteSizeOf gid path with
  | none => .ok (scan.1, scan.2 ++ [⟨path, none, none, "not_found"⟩])
  | some byteSize =>
    if scan.1 + byteSize ≤ maxSourceBytes then do
      let reference ← x.verifyExactSourceAtGeneration gid path
      return (scan.1 + byteSize, scan.2 ++ [reference])
    else .ok (scan.1, scan.2 ++ [⟨path, none, none, "read_failed"⟩])

/-! ## The two operations -/

/-- `needs_atlas`. -/
def needsAtlas (capability : RequiredCapability) : Bool :=
  callerUnsatisfied decision capability

/-- Which rows the query includes. -/
def included : Included where
  relationships := needsAtlas decision .boundedRelationships
  impact := needsAtlas decision .impactFrontier
  coverage := needsAtlas decision .basicCoverageConflicts

/-- `query_requested`. -/
def queryRequested : Bool :=
  needsAtlas decision .identityLookup || (included decision).relationships ||
    (included decision).impact || (included decision).coverage

/-- `query_invoked`. -/
def queryInvoked : Bool :=
  (queryRequested decision = true ∨
    ∀ state ∈ decision.requestedCapabilities.values, state = .satisfied) ∧
      0 < x.targets.all.length

/-- `source_requested && !seed_paths.is_empty()`. -/
def sourceInvoked : Bool :=
  needsAtlas decision .exactSource = true ∧ x.targets.seedPaths ≠ []

/-- `max_query_targets`. -/
def maxQueryTargets : ℕ := maxContextExecutionRecords / maxLightRecordsPerTarget

/-- The rows of the targets, as far as the bound on records permits. -/
def queryProjections : Except AtlasError (List LightQueryProjection) :=
  if x.queryInvoked decision then
    match operations.find? fun operation => operation.operation = .query with
    | none => .error (.invalidConfig "missing pinned LIGHT query")
    | some _ => (x.targets.all.take maxQueryTargets).mapM fun target =>
        boundedQueryProjection x.store gid target.1 x.workspaceId target.2 (included decision)
  else .ok []

/-- The state of the sources of the paths. -/
def sourceObservations : Except AtlasError (List CatalogueLightSourceReference) :=
  if x.sourceInvoked decision then
    match operations.find? fun operation => operation.operation = .sourceReference with
    | none => .error (.invalidConfig "missing pinned LIGHT source reference")
    | some _ => Prod.snd <$> x.targets.seedPaths.foldlM (x.observeSource gid) (0, [])
  else .ok []

/-- The version that is pinned for an operation. -/
def pinnedVersion (operation : LightOperation) : String :=
  ((operations.find? fun pinned => pinned.operation = operation).map
    VersionedOperation.version).getD ""

/-- The number of records of the query. -/
def queryRecordCount (projections : List LightQueryProjection) : ℕ :=
  (projections.map LightQueryProjection.recordCount).sum

/-- The results of the operations that were invoked. -/
def operationResults (projections : List LightQueryProjection)
    (observations : List CatalogueLightSourceReference) : List LightOperationResult :=
  (if x.queryInvoked decision then
    [.query (pinnedVersion operations .query)
      (contentHashOfBytes x.hasher (canonicalJsonBytes
        (.arr (projections.map fun p => p.result.json))))
      (queryRecordCount projections)] else []) ++
  (if x.sourceInvoked decision then
    [.sourceReference (pinnedVersion operations .sourceReference)
      (contentHashOfBytes x.hasher (canonicalJsonBytes
        (.arr (observations.map CatalogueLightSourceReference.json))))
      observations.length] else [])

/-- The counters of the operations. -/
def countersOf (projections : List LightQueryProjection)
    (observations : List CatalogueLightSourceReference) : ContextExecutionCounters where
  atlasCalls := (x.queryInvoked decision).toNat + (x.sourceInvoked decision).toNat
  records := queryRecordCount projections + observations.length
  sourceBytes := 0
  estimatedTokens := 0
  workUnits := projections.length + observations.length

/-! ## What each capability comes to -/

/-- `query_semantic_omitted`: some target was beyond the bound. -/
def semanticOmitted (projections : List LightQueryProjection) : Bool :=
  x.queryInvoked decision ∧ projections.length < x.targets.all.length

/-- `query_identity_deficit`. -/
def identityDeficit (projections : List LightQueryProjection) : Option CapabilityDeficitReason :=
  if projections = [] ∨ ∃ p ∈ projections, p.result.identityMatches = [] then some .unsupported
  else if ∃ p ∈ projections, 1 < p.result.identityMatches.length then some .ambiguous
  else none

/-- The outcome of a capability that is served by rows of each target. -/
def rowsOutcome (projections : List LightQueryProjection) (omitted : Bool)
    (rowsOmitted conflicting evident : LightQueryProjection → Bool) :
    Option CapabilityDeficitReason :=
  if omitted ∨ ∃ p ∈ projections, rowsOmitted p then some .semanticBudgetOmitted
  else
    match identityDeficit projections with
    | some reason => some reason
    | none =>
      if ∃ p ∈ projections, conflicting p then some .conflicting
      else if ∀ p ∈ projections, evident p then none
      else some .unavailable

/-- The outcome of `ExactSource`. -/
def sourceOutcome (observations : List CatalogueLightSourceReference) :
    Option CapabilityDeficitReason :=
  let missing := observations.any fun o => o.status = "not_found"
  let stale := observations.any fun o => o.status = "hash_mismatch"
  let unavailable := observations.any fun o =>
    o.status ≠ "verified" ∧ o.status ≠ "not_found" ∧ o.status ≠ "hash_mismatch"
  if x.targets.seedPaths ≠ [] ∧
      (observations.countP fun o => o.status = "verified" ∧ o.indexedHash.isSome = true ∧
        o.indexedHash = o.observedHash) = x.targets.seedPaths.length ∧
      ¬ missing ∧ ¬ stale ∧ ¬ unavailable then none
  else if missing then some .unsupported
  else if stale then some .stale
  else if unavailable then some .unavailable
  else some .unsupported

/-- The deficit of a requested capability in a state, if there is one. -/
def capabilityOutcome (projections : List LightQueryProjection)
    (observations : List CatalogueLightSourceReference) (capability : RequiredCapability)
    (state : CallerCapabilityState) : Option CapabilityDeficitReason :=
  if state = .satisfied then none
  else
    let omitted := x.semanticOmitted decision projections
    match capability with
    | .identityLookup =>
      if omitted then some .semanticBudgetOmitted else identityDeficit projections
    | .boundedRelationships =>
      rowsOutcome projections omitted LightQueryProjection.relationshipOmitted
        LightQueryProjection.relationshipConflicting LightQueryProjection.relationshipEvidence
    | .impactFrontier =>
      rowsOutcome projections omitted LightQueryProjection.impactOmitted
        (fun p => p.relationshipConflicting || p.impactConflicting)
        LightQueryProjection.impactEvidence
    | .basicCoverageConflicts =>
      rowsOutcome projections omitted LightQueryProjection.coverageOmitted
        (fun p => p.coverageConflicting || (p.coverageComplete && p.coverageLimited))
        (fun p => p.coverageComplete && !p.coverageLimited)
    | .exactSource => x.sourceOutcome observations
    | .temporalHistory | .requiredRoleClosure | .validationPlan => some .unavailable

/-- `satisfied_capabilities`. -/
def satisfiedOf (projections : List LightQueryProjection)
    (observations : List CatalogueLightSourceReference) : List RequiredCapability :=
  decision.requestedCapabilities.entries.filterMap fun entry =>
    match x.capabilityOutcome decision projections observations entry.1 entry.2 with
    | none => some entry.1
    | some _ => none

/-- `deficits`. -/
def deficitsOf (projections : List LightQueryProjection)
    (observations : List CatalogueLightSourceReference) : List RouteDeficit :=
  decision.requestedCapabilities.entries.filterMap fun entry =>
    (x.capabilityOutcome decision projections observations entry.1 entry.2).map
      (.capability entry.1)

/-- The outcome of an attempt with the rows and the sources that were found. -/
def outcomeOf (projections : List LightQueryProjection)
    (observations : List CatalogueLightSourceReference) :
    Except AtlasError RouteAttemptOutcome :=
  let results := x.operationResults decision operations projections observations
  let payload : Option ContextPayload :=
    if results = [] then none else some (.lightBundle results)
  let counters := x.countersOf decision projections observations
  if x.deficitsOf decision projections observations = [] then
    match payload with
    | none => .error (.invalidConfig "completed LIGHT route has no payload")
    | some payload => .ok (.completed payload counters [] none)
  else
    .ok (.deficient payload (x.satisfiedOf decision projections observations)
      (x.deficitsOf decision projections observations) counters [] none)

/-- `dispatch_real_light`, with the rows it leaves in `light_results`. -/
def dispatchRealLight (results : CatalogueLightResults) :
    Except AtlasError RouteAttemptOutcome × CatalogueLightResults :=
  match decision.startingGeneration with
  | .unavailable _ => (.error (.invalidConfig (AtlasError.message
      (.invalidConfig "Atlas dispatch requires an observed starting generation"))), results)
  | .observed gid =>
    match x.queryProjections decision operations gid with
    | .error e => (.error e, results)
    | .ok projections =>
      let results := if x.queryInvoked decision then
        { results with query := some (projections.map LightQueryProjection.result) } else results
      match x.sourceObservations decision operations gid with
      | .error e => (.error e, results)
      | .ok observations =>
        (x.outcomeOf decision operations projections observations,
          if x.sourceInvoked decision then { results with sourceReferences := some observations }
          else results)

end LightContext

end WorkspaceAtlas.ContextRoute
