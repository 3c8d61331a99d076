/-
# What a delta reads of a generation

`generation_delta.rs` compares two committed generations by what its queries read of each: the
present files, the facts that their revisions have, the coverage and the conflicts.  The rows
of a query become a map; a symbol key has the last fact that is read under it, the other maps
have all states of a key.
-/
import Mathlib.Data.String.Basic
import Mathlib.Order.WithBot
import WorkspaceAtlas.Catalogue.Ids
import WorkspaceAtlas.Catalogue.Schema
import WorkspaceAtlas.Relational.Query
import WorkspaceAtlas.Relational.SortedMap

namespace WorkspaceAtlas

open Relational Text

/-- The text of the kind of a reference. -/
def RefKind.asStr : RefKind → String
  | symbol => "symbol"
  | path => "path"
  | external => "external"

namespace Delta

/-! ## Tables -/

/-- The columns of `symbol_fact` that a delta reads; the confidence as the bits of its
number. -/
structure SymbolRow where
  symbolFactId : String
  extractorRunId : String
  revisionId : String
  canonicalSymbolKey : String
  symbolKind : String
  displayName : String
  qualifiedName : String
  signature : Option String
  visibility : Option String
  documentation : Option String
  attributesJson : String
  evidenceMethod : String
  confidenceBits : ℕ
  evidenceReason : String
  deriving DecidableEq, Repr

instance : Keyed SymbolRow := .ofKey SymbolRow.symbolFactId

/-- The columns of `relationship_fact` that a delta reads. -/
structure RelationshipRow where
  relationshipFactId : String
  revisionId : String
  sourceRefKind : RefKind
  sourceRefValue : String
  relationshipType : String
  targetRefKind : RefKind
  targetRefValue : String
  attributesJson : String
  evidenceMethod : String
  confidenceBits : ℕ
  evidenceReason : String
  deriving DecidableEq, Repr

instance : Keyed RelationshipRow := .ofKey RelationshipRow.relationshipFactId

/-- The columns of `relationship_resolution` that a delta reads. -/
structure ResolutionRow where
  generationId : String
  relationshipFactId : String
  resolverPolicyVersion : String
  status : String
  resolvedRefKind : Option String
  resolvedRefValue : Option String
  reasonCode : String
  candidateRefsJson : String
  deriving DecidableEq, Repr

instance : Keyed ResolutionRow :=
  .ofKey fun r => (r.generationId, r.relationshipFactId, r.resolverPolicyVersion)

/-- The columns of `effect_fact` that a delta reads. -/
structure EffectRow where
  effectFactId : String
  revisionId : String
  subjectRefKind : RefKind
  subjectRefValue : String
  effectType : String
  phase : String
  attributesJson : String
  evidenceMethod : String
  confidenceBits : ℕ
  evidenceReason : String
  deriving DecidableEq, Repr

instance : Keyed EffectRow := .ofKey EffectRow.effectFactId

/-- The columns of `coverage_record` that a delta reads. -/
structure CoverageRow where
  coverageId : String
  generationId : String
  fileId : Option String
  scopeKind : String
  scopeKey : String
  status : String
  capabilitiesJson : String
  limitationsJson : String
  detailsJson : String
  deriving DecidableEq, Repr

instance : Keyed CoverageRow := .ofKey CoverageRow.coverageId

/-- The columns of `evidence_conflict` that a delta reads. -/
structure ConflictRow where
  evidenceConflictId : String
  generationId : String
  subjectKind : String
  subjectKey : String
  conflictType : String
  status : String
  participatingFactIdsJson : String
  preferredFactId : Option String
  projectionPolicyVersion : String
  deriving DecidableEq, Repr

instance : Keyed ConflictRow := .ofKey ConflictRow.evidenceConflictId

/-- The tables that a delta reads. -/
structure Tables where
  indexGeneration : Table IndexGeneration
  generationFile : Table GenerationFile
  fileRevision : Table FileRevision
  extractorRun : Table ExtractorRun
  symbolFact : Table SymbolRow
  relationshipFact : Table RelationshipRow
  relationshipResolution : Table ResolutionRow
  effectFact : Table EffectRow
  coverageRecord : Table CoverageRow
  evidenceConflict : Table ConflictRow

/-- No rows. -/
def Tables.empty : Tables :=
  ⟨.empty, .empty, .empty, .empty, .empty, .empty, .empty, .empty, .empty, .empty⟩

/-- The present files of a generation. -/
def presentFiles (t : Tables) (genId : String) : List GenerationFile :=
  t.generationFile.rows.filter fun gf => gf.generationId = genId ∧ gf.presenceState = .present

/-! ## Digests -/

/-- A value that may be missing. -/
def jsonOption (x : Option String) : Json := x.elim .null .str

/-- `semantic_digest`. -/
def semanticDigest (H : Hasher) (value : Json) : String :=
  contentHashOfBytes H (canonicalJsonBytes value)

/-- What an option is compared by: `None` is the least value. -/
def optionKey (x : Option String) : WithBot String := x.elim ⊥ fun s => (s : WithBot String)

/-! ## Files -/

/-- `FileRow`. -/
structure FileRow where
  fileId : String
  canonicalPath : String
  contentHash : String
  deriving DecidableEq, Repr

/-- The query of `files_for_with_ledger`. -/
def filesQuery (t : Tables) (genId : String) : List (GenerationFile × Option FileRevision) :=
  orderBy (fun row => row.1.canonicalPath)
    (leftJoin (presentFiles t genId) t.fileRevision.rows
      fun gf fr => gf.revisionId = some fr.revisionId)

/-- The row that is read. -/
def readFile (row : GenerationFile × Option FileRevision) : FileRow where
  fileId := row.1.fileId
  canonicalPath := row.1.canonicalPath
  contentHash := (row.2.map FileRevision.contentHash).getD ""

/-! ## Symbols -/

/-- `SymbolSnapshot`. -/
structure SymbolSnapshot where
  canonicalSymbolKey : String
  symbolFactId : String
  canonicalPath : String
  fileId : String
  fileContentHash : String
  extractorComplete : Bool
  providerKey : String
  semanticDigest : String
  evidenceDigest : String
  deriving DecidableEq, Repr

/-- `SymbolSemanticIdentity`. -/
def SymbolRow.semanticIdentity (sf : SymbolRow) : Json :=
  .obj [("attributes_json", .str sf.attributesJson), ("display_name", .str sf.displayName),
    ("documentation", jsonOption sf.documentation), ("qualified_name", .str sf.qualifiedName),
    ("signature", jsonOption sf.signature), ("symbol_kind", .str sf.symbolKind),
    ("visibility", jsonOption sf.visibility)]

/-- `SymbolEvidenceIdentity`. -/
def SymbolRow.evidenceIdentity (sf : SymbolRow) : Json :=
  .obj [("confidence_bits", .num sf.confidenceBits), ("evidence_method", .str sf.evidenceMethod),
    ("evidence_reason", .str sf.evidenceReason)]

/-- A symbol of a present file, with the file, its revision and the run of the symbol. -/
structure ReachableSymbol where
  fact : SymbolRow
  file : GenerationFile
  revision : FileRevision
  run : ExtractorRun
  deriving DecidableEq, Repr

/-- The query of `symbols_for_with_ledger`. -/
def symbolsQuery (t : Tables) (genId : String) : List ReachableSymbol :=
  orderBy (fun row => toLex (row.fact.canonicalSymbolKey, row.fact.symbolFactId))
    ((presentFiles t genId).flatMap fun gf =>
      (t.fileRevision.rows.filter fun fr => gf.revisionId = some fr.revisionId).flatMap fun fr =>
        (t.symbolFact.rows.filter fun sf => gf.revisionId = some sf.revisionId).flatMap fun sf =>
          (t.extractorRun.rows.filter fun er => er.extractorRunId = sf.extractorRunId).map
            fun er => ⟨sf, gf, fr, er⟩)

/-- The row that is read. -/
def readSymbol (H : Hasher) (row : ReachableSymbol) : SymbolSnapshot where
  canonicalSymbolKey := row.fact.canonicalSymbolKey
  symbolFactId := row.fact.symbolFactId
  canonicalPath := row.file.canonicalPath
  fileId := row.file.fileId
  fileContentHash := row.revision.contentHash
  extractorComplete := row.run.status = .complete
  providerKey := row.run.providerName ++ "@" ++ row.run.providerVersion
  semanticDigest := semanticDigest H row.fact.semanticIdentity
  evidenceDigest := semanticDigest H row.fact.evidenceIdentity

/-- The map that the rows of `symbols_for_with_ledger` become. -/
def symbolMap (rows : List SymbolSnapshot) : SortedMap String SymbolSnapshot :=
  SortedMap.collect SymbolSnapshot.canonicalSymbolKey rows

/-! ## Relationships -/

/-- `RelationshipState`. -/
structure RelationshipState where
  target : String
  attributesJson : String
  evidenceMethod : String
  confidenceBits : ℕ
  evidenceReason : String
  resolutionStatus : Option String
  resolvedTarget : Option String
  resolverPolicyVersion : Option String
  resolutionReason : Option String
  candidatesJson : Option String
  deriving DecidableEq, Repr

namespace RelationshipState

/-- What states are compared by. -/
def sortKey (s : RelationshipState) : String ×ₗ String ×ₗ String ×ₗ ℕ ×ₗ String ×ₗ
    WithBot String ×ₗ WithBot String ×ₗ WithBot String ×ₗ WithBot String ×ₗ WithBot String :=
  toLex (s.target, toLex (s.attributesJson, toLex (s.evidenceMethod, toLex (s.confidenceBits,
    toLex (s.evidenceReason, toLex (optionKey s.resolutionStatus,
      toLex (optionKey s.resolvedTarget, toLex (optionKey s.resolverPolicyVersion,
        toLex (optionKey s.resolutionReason, optionKey s.candidatesJson)))))))))

/-- A state as JSON. -/
def json (s : RelationshipState) : Json :=
  .obj [("attributes_json", .str s.attributesJson), ("candidates_json", jsonOption s.candidatesJson),
    ("confidence_bits", .num s.confidenceBits), ("evidence_method", .str s.evidenceMethod),
    ("evidence_reason", .str s.evidenceReason), ("resolution_reason", jsonOption s.resolutionReason),
    ("resolution_status", jsonOption s.resolutionStatus),
    ("resolved_target", jsonOption s.resolvedTarget),
    ("resolver_policy_version", jsonOption s.resolverPolicyVersion), ("target", .str s.target)]

/-- `effective_target`. -/
def effectiveTarget (s : RelationshipState) : String := s.resolvedTarget.getD s.target

/-- `resolution_identity`. -/
def resolutionIdentity (s : RelationshipState) :
    Option String × Option String × Option String × Option String × Option String :=
  (s.resolutionStatus, s.resolvedTarget, s.resolverPolicyVersion, s.resolutionReason,
    s.candidatesJson)

end RelationshipState

/-- `relationship_identity`. -/
def relationshipIdentity (sourceKind source relationshipType : String) : String :=
  sourceKind ++ ":" ++ source ++ "\x1f" ++ relationshipType

/-- The query of `relationships_for_with_ledger`. -/
def relationshipsQuery (t : Tables) (genId : String) :
    List (RelationshipRow × Option ResolutionRow) :=
  orderBy (fun row => toLex (row.1.sourceRefKind.asStr, toLex (row.1.sourceRefValue,
      toLex (row.1.relationshipType, toLex (row.1.targetRefKind.asStr,
        toLex (row.1.targetRefValue, optionKey (row.2.map ResolutionRow.resolverPolicyVersion)))))))
    (leftJoin ((join (presentFiles t genId) t.relationshipFact.rows
        fun gf rf => gf.revisionId = some rf.revisionId).map Prod.snd)
      t.relationshipResolution.rows
      fun rf rr => rr.generationId = genId ∧ rr.relationshipFactId = rf.relationshipFactId)

/-- The row that is read. -/
def readRelationship (row : RelationshipRow × Option ResolutionRow) :
    String × RelationshipState :=
  (relationshipIdentity row.1.sourceRefKind.asStr row.1.sourceRefValue row.1.relationshipType,
    { target := row.1.targetRefKind.asStr ++ ":" ++ row.1.targetRefValue
      attributesJson := row.1.attributesJson
      evidenceMethod := row.1.evidenceMethod
      confidenceBits := row.1.confidenceBits
      evidenceReason := row.1.evidenceReason
      resolutionStatus := row.2.map ResolutionRow.status
      resolvedTarget :=
        match row.2.bind ResolutionRow.resolvedRefKind, row.2.bind ResolutionRow.resolvedRefValue with
        | some kind, some value => some (kind ++ ":" ++ value)
        | _, _ => none
      resolverPolicyVersion := row.2.map ResolutionRow.resolverPolicyVersion
      resolutionReason := row.2.map ResolutionRow.reasonCode
      candidatesJson := row.2.map ResolutionRow.candidateRefsJson })

/-- All states of every identity, sorted. -/
def stateMap {σ κ : Type} [LinearOrder κ] (sortKey : σ → κ) (rows : List (String × σ)) :
    SortedMap String (List σ) :=
  (SortedMap.group rows).mapValues (orderBy sortKey)

/-! ## Effects -/

/-- `EffectState`. -/
structure EffectState where
  phase : String
  attributesJson : String
  evidenceMethod : String
  confidenceBits : ℕ
  evidenceReason : String
  deriving DecidableEq, Repr

/-- What states are compared by. -/
def EffectState.sortKey (s : EffectState) : String ×ₗ String ×ₗ String ×ₗ ℕ ×ₗ String :=
  toLex (s.phase, toLex (s.attributesJson, toLex (s.evidenceMethod,
    toLex (s.confidenceBits, s.evidenceReason))))

/-- A state as JSON. -/
def EffectState.json (s : EffectState) : Json :=
  .obj [("attributes_json", .str s.attributesJson), ("confidence_bits", .num s.confidenceBits),
    ("evidence_method", .str s.evidenceMethod), ("evidence_reason", .str s.evidenceReason),
    ("phase", .str s.phase)]

/-- `effect_identity`. -/
def effectIdentity (subjectKind subject effectType : String) : String :=
  subjectKind ++ ":" ++ subject ++ "\x1f" ++ effectType

/-- The query of `effects_for_with_ledger`. -/
def effectsQuery (t : Tables) (genId : String) : List EffectRow :=
  orderBy (fun ef => toLex (ef.subjectRefKind.asStr, toLex (ef.subjectRefValue,
      toLex (ef.effectType, ef.effectFactId))))
    ((join (presentFiles t genId) t.effectFact.rows
      fun gf ef => gf.revisionId = some ef.revisionId).map Prod.snd)

/-- The row that is read. -/
def readEffect (row : EffectRow) : String × EffectState :=
  (effectIdentity row.subjectRefKind.asStr row.subjectRefValue row.effectType,
    ⟨row.phase, row.attributesJson, row.evidenceMethod, row.confidenceBits, row.evidenceReason⟩)

/-! ## Coverage -/

/-- `CoverageStateSnapshot`. -/
structure CoverageState where
  status : String
  fileId : Option String
  capabilitiesJson : String
  limitationsJson : String
  detailsJson : String
  deriving DecidableEq, Repr

/-- What states are compared by. -/
def CoverageState.sortKey (s : CoverageState) :
    String ×ₗ WithBot String ×ₗ String ×ₗ String ×ₗ String :=
  toLex (s.status, toLex (optionKey s.fileId, toLex (s.capabilitiesJson,
    toLex (s.limitationsJson, s.detailsJson))))

/-- A state as JSON. -/
def CoverageState.json (s : CoverageState) : Json :=
  .obj [("capabilities_json", .str s.capabilitiesJson), ("details_json", .str s.detailsJson),
    ("file_id", jsonOption s.fileId), ("limitations_json", .str s.limitationsJson),
    ("status", .str s.status)]

/-- The query of `coverage_for_with_ledger`. -/
def coverageQuery (t : Tables) (genId : String) : List CoverageRow :=
  orderBy (fun row => toLex (row.scopeKind, toLex (row.scopeKey, row.coverageId)))
    (t.coverageRecord.rows.filter fun row => row.generationId = genId)

/-- The row that is read. -/
def readCoverage (row : CoverageRow) : String × CoverageState :=
  (row.scopeKind ++ ":" ++ row.scopeKey,
    ⟨row.status, row.fileId, row.capabilitiesJson, row.limitationsJson, row.detailsJson⟩)

/-! ## Conflicts -/

/-- `ConflictStateSnapshot`. -/
structure ConflictState where
  status : String
  participatingFactIdsJson : String
  preferredFactId : Option String
  projectionPolicyVersion : String
  deriving DecidableEq, Repr

/-- What states are compared by. -/
def ConflictState.sortKey (s : ConflictState) : String ×ₗ String ×ₗ WithBot String ×ₗ String :=
  toLex (s.status, toLex (s.participatingFactIdsJson,
    toLex (optionKey s.preferredFactId, s.projectionPolicyVersion)))

/-- A state as JSON. -/
def ConflictState.json (s : ConflictState) : Json :=
  .obj [("participating_fact_ids_json", .str s.participatingFactIdsJson),
    ("preferred_fact_id", jsonOption s.preferredFactId),
    ("projection_policy_version", .str s.projectionPolicyVersion), ("status", .str s.status)]

/-- `conflict_identity`. -/
def conflictIdentity (subjectKind subject conflictType : String) : String :=
  subjectKind ++ ":" ++ subject ++ "\x1f" ++ conflictType

/-- The query of `conflicts_for_with_ledger`. -/
def conflictsQuery (t : Tables) (genId : String) : List ConflictRow :=
  orderBy (fun row => toLex (row.subjectKind, toLex (row.subjectKey,
      toLex (row.conflictType, row.evidenceConflictId))))
    (t.evidenceConflict.rows.filter fun row => row.generationId = genId)

/-- The row that is read. -/
def readConflict (row : ConflictRow) : String × ConflictState :=
  (conflictIdentity row.subjectKind row.subjectKey row.conflictType,
    ⟨row.status, row.participatingFactIdsJson, row.preferredFactId, row.projectionPolicyVersion⟩)

/-! ## Snapshots -/

/-- All that is read of a generation. -/
structure Snapshot where
  files : List FileRow
  symbols : SortedMap String SymbolSnapshot
  relationships : SortedMap String (List RelationshipState)
  effects : SortedMap String (List EffectState)
  coverage : SortedMap String (List CoverageState)
  conflicts : SortedMap String (List ConflictState)
  providerFingerprint : String

/-- The files of a generation (`files_for`). -/
def filesFor (t : Tables) (genId : String) : List FileRow := (filesQuery t genId).map readFile

/-- The symbols of a generation (`symbols_for`). -/
def symbolsFor (H : Hasher) (t : Tables) (genId : String) : SortedMap String SymbolSnapshot :=
  symbolMap ((symbolsQuery t genId).map (readSymbol H))

/-- The relationships of a generation (`relationships_for`). -/
def relationshipsFor (t : Tables) (genId : String) : SortedMap String (List RelationshipState) :=
  stateMap RelationshipState.sortKey ((relationshipsQuery t genId).map readRelationship)

/-- The effects of a generation (`effects_for`). -/
def effectsFor (t : Tables) (genId : String) : SortedMap String (List EffectState) :=
  stateMap EffectState.sortKey ((effectsQuery t genId).map readEffect)

/-- The coverage of a generation (`coverage_for`). -/
def coverageFor (t : Tables) (genId : String) : SortedMap String (List CoverageState) :=
  stateMap CoverageState.sortKey ((coverageQuery t genId).map readCoverage)

/-- The conflicts of a generation (`conflicts_for`). -/
def conflictsFor (t : Tables) (genId : String) : SortedMap String (List ConflictState) :=
  stateMap ConflictState.sortKey ((conflictsQuery t genId).map readConflict)

end Delta

end WorkspaceAtlas
