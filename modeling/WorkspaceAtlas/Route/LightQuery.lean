/-
# What LIGHT reads of a target

`bounded_query_projection`: the rows of the catalogue that LIGHT shows for a path or a symbol, at
most two of a kind, and what it concludes from them.  The rows whose target is the seed are found
by the raw reference of the fact; what the fact was resolved to is shown beside it.
-/
import WorkspaceAtlas.Delta.Snapshot
import WorkspaceAtlas.Discovery.Facts
import WorkspaceAtlas.Route.Executor
import WorkspaceAtlas.Semantic.Evidence
import WorkspaceAtlas.Serving.Store

namespace WorkspaceAtlas

open Relational Text

/-! ## Texts of columns -/

/-- The text of an evidence method. -/
def EvidenceMethod.asStr : EvidenceMethod → String
  | exact => "exact"
  | semantic => "semantic"
  | structural => "structural"
  | textual => "textual"
  | inferred => "inferred"
  | observed => "observed"
  | declared => "declared"

/-- `ResolutionStatus::as_str`. -/
def ResolutionStatus.asStr : ResolutionStatus → String
  | resolvedSymbol => "resolved_symbol"
  | resolvedFile => "resolved_file"
  | external => "external"
  | ambiguous => "ambiguous"
  | unresolved => "unresolved"
  | invalid => "invalid"
  | stale => "stale"

/-- The text of the status of a conflict. -/
def ConflictStatus.asStr : ConflictStatus → String
  | open_ => "open"
  | preferredWithConflict => "preferred_with_conflict"
  | corroborated => "corroborated"
  | unresolved => "unresolved"
  | superseded => "superseded"

/-- `status IN ('open', 'preferred_with_conflict', 'unresolved')`. -/
def ConflictStatus.isPending : ConflictStatus → Bool
  | open_ | preferredWithConflict | unresolved => true
  | corroborated | superseded => false

/-! ## The tables -/

/-- The tables that LIGHT reads. -/
structure LightStore where
  catalogue : Catalogue
  resolutions : Table RelationshipResolution
  coverageRecord : Table Delta.CoverageRow
  evidenceConflict : Table ClusterRow

namespace ContextRoute

/-! ## The rows that are shown -/

/-- `CatalogueLightIdentityMatch`. -/
structure CatalogueLightIdentityMatch where
  canonicalPath : String
  canonicalSymbolKey : Option String
  contentHash : String
  deriving DecidableEq, Repr

/-- `CatalogueLightRelationship`. -/
structure CatalogueLightRelationship where
  relationshipType : String
  sourceRefKind : String
  sourceRefValue : String
  targetRefKind : String
  targetRefValue : String
  evidenceMethod : String
  confidenceMillionths : ℤ
  deriving DecidableEq, Repr

/-- `CatalogueLightImpactTarget`. -/
structure CatalogueLightImpactTarget where
  sourceRefKind : String
  sourceRefValue : String
  resolutionStatus : String
  resolvedRefKind : Option String
  resolvedRefValue : Option String
  deriving DecidableEq, Repr

/-- `CatalogueLightCoverage`. -/
structure CatalogueLightCoverage where
  scopeKind : String
  scopeKey : String
  status : String
  deriving DecidableEq, Repr

/-- `CatalogueLightConflict`. -/
structure CatalogueLightConflict where
  subjectKind : String
  subjectKey : String
  conflictType : String
  status : String
  preferredFactId : Option String
  deriving DecidableEq, Repr

/-- `CatalogueLightQueryTargetResult`. -/
structure CatalogueLightQueryTargetResult where
  targetKind : String
  target : String
  identityMatches : List CatalogueLightIdentityMatch
  relationships : Option (List CatalogueLightRelationship)
  relationshipsTruncated : Bool
  impactTargets : Option (List CatalogueLightImpactTarget)
  impactTruncated : Bool
  coverage : Option (List CatalogueLightCoverage)
  coverageTruncated : Bool
  conflicts : Option (List CatalogueLightConflict)
  conflictsTruncated : Bool
  deriving DecidableEq, Repr

/-- `LightQueryProjection`. -/
structure LightQueryProjection where
  result : CatalogueLightQueryTargetResult
  relationshipEvidence : Bool
  impactEvidence : Bool
  impactConflicting : Bool
  coverageComplete : Bool
  coverageLimited : Bool
  relationshipConflicting : Bool
  relationshipOmitted : Bool
  impactOmitted : Bool
  coverageOmitted : Bool
  coverageConflicting : Bool
  deriving DecidableEq, Repr

/-- `record_count`. -/
def LightQueryProjection.recordCount (p : LightQueryProjection) : ℕ :=
  p.result.identityMatches.length + p.result.relationships.elim 0 List.length +
    p.result.impactTargets.elim 0 List.length + p.result.coverage.elim 0 List.length +
    p.result.conflicts.elim 0 List.length

/-- `MAX_LIGHT_ROWS_PER_TARGET`. -/
def maxLightRowsPerTarget : ℕ := 2

/-- `MAX_LIGHT_RECORDS_PER_TARGET`. -/
def maxLightRecordsPerTarget : ℕ := 10

/-- `ORDER BY .. LIMIT 3`: the first rows that are shown, and whether there are more. -/
def limited {α κ : Type} [LinearOrder κ] (key : α → κ) (rows : List α) : List α × Bool :=
  let found := (orderBy key rows).take 3
  (found.take maxLightRowsPerTarget, maxLightRowsPerTarget < found.length)

/-! ## The queries -/

variable (st : LightStore) (gid target : String)

/-- What a target names: a symbol by its key, a file by its path. -/
def kindOf (symbol : Bool) : RefKind := if symbol then .symbol else .path

/-- The column `content_hash` of a row of `current_file`. -/
def contentHashOf (cf : CurrentFile) : Option String :=
  cf.revisionId.bind fun rid =>
    (st.catalogue.fileRevision.find? fun r => r.revisionId = rid).map FileRevision.contentHash

/-- The rows that the identity of a target is looked up in. -/
def identityRows (symbol : Bool) : List (CurrentFile × Option String) :=
  if symbol then
    (((orderBy (fun row : CurrentFile × SymbolFact =>
        toLex (row.1.canonicalPath, row.2.symbolFactId))
      ((st.catalogue.currentSymbols gid).filter fun row => row.2.canonicalSymbolKey = target)).take
        2).map fun row => (row.1, some row.2.canonicalSymbolKey))
  else
    (((orderBy CurrentFile.canonicalPath
      ((st.catalogue.currentFileOf gid).filter fun cf => cf.canonicalPath = target)).take 2).map
        fun cf => (cf, none))

/-- A row of the lookup; the digest is read as a text, which `NULL` is not. -/
def identityMatch (row : CurrentFile × Option String) :
    Except AtlasError CatalogueLightIdentityMatch :=
  match contentHashOf st row.1 with
  | none => .error (.sqlite (.failure "Invalid column type Null at index: 2, name: content_hash"))
  | some hash => .ok ⟨row.1.canonicalPath, row.2, hash⟩

/-- `owner`: the file of the only match. -/
def ownerOf (identityMatches : List CatalogueLightIdentityMatch) : Option (String × String) :=
  match identityMatches with
  | [only] => ((st.catalogue.currentFileOf gid).find? fun cf =>
      cf.canonicalPath = only.canonicalPath).map fun cf => (cf.fileId, cf.canonicalPath)
  | _ => none

/-- The columns of a relationship. -/
def lightRelationship (rf : RelationshipFact) : CatalogueLightRelationship where
  relationshipType := rf.relationshipType.asStr
  sourceRefKind := rf.sourceRefKind.asStr
  sourceRefValue := rf.sourceRefValue
  targetRefKind := rf.targetRefKind.asStr
  targetRefValue := rf.targetRefValue
  evidenceMethod := rf.evidenceMethod.asStr
  confidenceMillionths := (rf.confidence * 1000000 + 1 / 2).floor

/-- The order of the relationships. -/
def relationshipKey (rf : RelationshipFact) :
    String ×ₗ String ×ₗ String ×ₗ String ×ₗ String ×ₗ String :=
  toLex (rf.relationshipType.asStr, toLex (rf.sourceRefKind.asStr, toLex (rf.sourceRefValue,
    toLex (rf.targetRefKind.asStr, toLex (rf.targetRefValue, rf.relationshipFactId)))))

/-- The relationships of the generation that start or end at the target. -/
def relationshipRows (symbol : Bool) : List RelationshipFact :=
  ((st.catalogue.currentRelationships gid).filter fun row =>
    (row.2.sourceRefKind = kindOf symbol ∧ row.2.sourceRefValue = target) ∨
      (row.2.targetRefKind = kindOf symbol ∧ row.2.targetRefValue = target)).map Prod.snd

/-- A relationship with its resolution in the generation, if it has one. -/
abbrev ImpactRow := RelationshipFact × Option RelationshipResolution

/-- The relationships that end at the target, with their resolutions. -/
def impactRows (symbol : Bool) : List ImpactRow :=
  leftJoin (((st.catalogue.currentRelationships gid).filter fun row =>
      row.2.targetRefKind = kindOf symbol ∧ row.2.targetRefValue = target).map Prod.snd)
    st.resolutions.rows fun rf rr =>
      rr.relationshipFactId = rf.relationshipFactId ∧ rr.generationId = gid

/-- The order of the rows of the impact. -/
def impactKey (row : ImpactRow) : String ×ₗ String ×ₗ String :=
  toLex (row.1.sourceRefKind.asStr, toLex (row.1.sourceRefValue, row.1.relationshipFactId))

/-- The columns of a row of the impact. -/
def lightImpactTarget (row : ImpactRow) : CatalogueLightImpactTarget where
  sourceRefKind := row.1.sourceRefKind.asStr
  sourceRefValue := row.1.sourceRefValue
  resolutionStatus := row.2.elim "unresolved" fun rr => rr.status.asStr
  resolvedRefKind := row.2.bind RelationshipResolution.resolvedRefKind
  resolvedRefValue := row.2.bind RelationshipResolution.resolvedRefValue

/-- The coverage records of a file. -/
def coverageRows (fileId canonicalPath : String) : List Delta.CoverageRow :=
  st.coverageRecord.rows.filter fun r => r.generationId = gid ∧
    (r.fileId = some fileId ∨ (r.scopeKind = "file" ∧ r.scopeKey = canonicalPath))

/-- The coverage records of the owner of a target, if it has one. -/
def coverageOfOwner : Option (String × String) → List Delta.CoverageRow
  | some (fileId, canonicalPath) => coverageRows st gid fileId canonicalPath
  | none => []

/-- The order of the coverage records. -/
def coverageKey (r : Delta.CoverageRow) : String ×ₗ String ×ₗ String :=
  toLex (r.scopeKind, toLex (r.scopeKey, r.coverageId))

/-- The conflicts about the target that are pending. -/
def conflictRows (workspaceId : String) (ofRelationships ofCoverage : Bool) :
    List ClusterRow :=
  st.evidenceConflict.rows.filter fun r =>
    r.workspaceId = workspaceId ∧ r.generationId = gid ∧ r.subjectKey = target ∧
      r.status.isPending = true ∧
      ((ofRelationships = true ∧ (r.subjectKind = .relationship ∨ r.subjectKind = .effect)) ∨
        (ofCoverage = true ∧ r.subjectKind = .coverage))

/-- The order of the conflicts. -/
def conflictKey (r : ClusterRow) : String ×ₗ String ×ₗ String :=
  toLex (r.subjectKind.asStr, toLex (r.conflictType, r.evidenceConflictId))

/-- The columns of a conflict. -/
def lightConflict (r : ClusterRow) : CatalogueLightConflict :=
  ⟨r.subjectKind.asStr, r.subjectKey, r.conflictType, r.status.asStr, r.preferredFactId⟩

/-! ## What is concluded -/

/-- `impact_row_is_qualified`: a resolved row names what it was resolved to. -/
def impactRowIsQualified (row : CatalogueLightImpactTarget) : Bool :=
  if row.resolutionStatus = "resolved_symbol" then
    row.resolvedRefKind = some "symbol" ∧ ∃ value ∈ row.resolvedRefValue, value ≠ ""
  else if row.resolutionStatus = "resolved_file" then
    row.resolvedRefKind = some "path" ∧ ∃ value ∈ row.resolvedRefValue, value ≠ ""
  else false

/-- What is concluded from the rows that are shown. -/
def LightQueryProjection.ofResult (result : CatalogueLightQueryTargetResult) :
    LightQueryProjection :=
  let relationshipConflicting : Bool := ∃ rows ∈ result.conflicts, ∃ row ∈ rows,
    row.subjectKind = "relationship" ∨ row.subjectKind = "effect"
  { result := result
    relationshipEvidence := ∃ rows ∈ result.relationships,
      rows ≠ [] ∧ result.relationshipsTruncated = false
    impactEvidence := ∃ rows ∈ result.impactTargets,
      rows ≠ [] ∧ ∀ row ∈ rows, impactRowIsQualified row = true
    impactConflicting := (∃ rows ∈ result.impactTargets, ∃ row ∈ rows,
      impactRowIsQualified row = false) ∨ relationshipConflicting = true
    coverageComplete := ∃ rows ∈ result.coverage,
      rows ≠ [] ∧ result.coverageTruncated = false ∧ ∀ row ∈ rows, row.status = "complete"
    coverageLimited := result.coverageTruncated = true ∨
      ∃ rows ∈ result.coverage, ∃ row ∈ rows, row.status ≠ "complete"
    relationshipConflicting := relationshipConflicting
    relationshipOmitted := result.relationshipsTruncated || result.conflictsTruncated
    impactOmitted := result.impactTruncated || result.conflictsTruncated
    coverageOmitted := result.coverageTruncated || result.conflictsTruncated
    coverageConflicting := ∃ rows ∈ result.conflicts, ∃ row ∈ rows, row.subjectKind = "coverage" }

/-- Which kinds of rows the decision asks for. -/
structure Included where
  relationships : Bool
  impact : Bool
  coverage : Bool
  deriving DecidableEq, Repr

/-- A query that is made only if it was asked for. -/
def whenIncluded {α : Type} (included : Bool) (found : List α × Bool) : Option (List α) × Bool :=
  if included then (some found.1, found.2) else (none, false)

/-- The rows for a target with the identities that were found. -/
def targetResult (workspaceId : String) (symbol : Bool) (included : Included)
    (identityMatches : List CatalogueLightIdentityMatch) : CatalogueLightQueryTargetResult :=
  let relationships := whenIncluded included.relationships <|
    (limited relationshipKey (relationshipRows st gid target symbol)).map
      (List.map lightRelationship) id
  let impactTargets := whenIncluded included.impact <|
    (limited impactKey (impactRows st gid target symbol)).map (List.map lightImpactTarget) id
  let coverage := whenIncluded included.coverage <|
    (limited coverageKey (coverageOfOwner st gid (ownerOf st gid identityMatches))).map
      (List.map fun r => ⟨r.scopeKind, r.scopeKey, r.status⟩) id
  let conflicts := whenIncluded
    (included.relationships || included.impact || included.coverage) <|
    (limited conflictKey (conflictRows st gid target workspaceId
      (included.relationships || included.impact) included.coverage)).map
        (List.map lightConflict) id
  { targetKind := (kindOf symbol).asStr
    target := target
    identityMatches := identityMatches
    relationships := relationships.1
    relationshipsTruncated := relationships.2
    impactTargets := impactTargets.1
    impactTruncated := impactTargets.2
    coverage := coverage.1
    coverageTruncated := coverage.2
    conflicts := conflicts.1
    conflictsTruncated := conflicts.2 }

/-- `bounded_query_projection`. -/
def boundedQueryProjection (workspaceId : String) (symbol : Bool) (included : Included) :
    Except AtlasError LightQueryProjection := do
  let identityMatches ← (identityRows st gid target symbol).mapM (identityMatch st)
  return .ofResult (targetResult st gid target workspaceId symbol included identityMatches)

end ContextRoute

end WorkspaceAtlas
