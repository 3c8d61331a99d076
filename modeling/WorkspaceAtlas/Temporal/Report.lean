/-
# Temporal reports

`temporal.rs`: what changed between a committed ancestor and the active generation, and which
unchanged contracts the files on the disk still bear out.  The ledger of the public call grants
every charge, so the rows are read without it.
-/
import Mathlib.Data.Prod.Lex
import WorkspaceAtlas.Catalogue.Generation
import WorkspaceAtlas.Delta.Live
import WorkspaceAtlas.Transition.Chase

namespace WorkspaceAtlas

open Relational Text Transition

namespace Temporal

/-! ## Reports -/

/-- `TemporalHistoryState`. -/
inductive TemporalHistoryState where
  | noActiveGeneration
  | baselineOnly
  | available
  deriving DecidableEq, Repr

/-- `TemporalValidityStatus`. -/
inductive TemporalValidityStatus where
  | verifiedCurrent
  | stale
  | unavailable
  deriving DecidableEq, Repr

/-- `TemporalRiskLevel`. -/
inductive TemporalRiskLevel where
  | none
  | unknown
  | low
  | moderate
  | high
  deriving DecidableEq, Repr

/-- `TemporalCategoryTotal`. -/
structure TemporalCategoryTotal where
  category : String
  total : ℕ
  deriving DecidableEq, Repr

/-- `TemporalChangeRecord`. -/
structure TemporalChangeRecord where
  category : String
  entityId : String
  changeKind : Delta.ChangeKind
  evidenceState : Delta.DeltaEvidenceState
  beforeId : Option String
  afterId : Option String
  reasonCodes : List String
  indexedContentHash : Option String
  observedContentHash : Option String
  currentSourceStatus : Option TemporalValidityStatus
  deriving DecidableEq, Repr

/-- `TemporalChangeSummary`. -/
structure TemporalChangeSummary where
  records : List TemporalChangeRecord
  categoryTotals : List TemporalCategoryTotal
  totalMatched : ℕ
  omittedCount : ℕ
  truncated : Bool
  deriving DecidableEq, Repr

/-- `TemporalValidityRecord`. -/
structure TemporalValidityRecord where
  entityId : String
  canonicalPath : Option String
  indexedContentHash : Option String
  observedContentHash : Option String
  status : TemporalValidityStatus
  claimScope : String
  evidence : List String
  deriving DecidableEq, Repr

/-- `TemporalValiditySummary`. -/
structure TemporalValiditySummary where
  records : List TemporalValidityRecord
  totalMatched : ℕ
  omittedCount : ℕ
  truncated : Bool
  deriving DecidableEq, Repr

/-- `TemporalRiskSignal`. -/
structure TemporalRiskSignal where
  code : String
  level : TemporalRiskLevel
  count : ℕ
  evidence : List String
  deriving DecidableEq, Repr

/-- `TemporalRiskSummary`. -/
structure TemporalRiskSummary where
  level : TemporalRiskLevel
  signals : List TemporalRiskSignal
  deriving DecidableEq, Repr

/-- `TemporalProvenance`. -/
structure TemporalProvenance where
  derivation : String
  deltaId : Option String
  deltaHash : Option String
  deltaPolicyVersion : Option String
  historyEventCount : ℕ
  liveVerificationScope : String
  deriving DecidableEq, Repr

/-- `TemporalReportIdentity`, less the two versions and the flag that are the same in every
report. -/
structure TemporalReportIdentity where
  workspaceId : String
  fromGenerationId : Option String
  toGenerationId : Option String
  historyState : TemporalHistoryState
  maxRecordsPerSection : ℤ
  changes : TemporalChangeSummary
  validity : TemporalValiditySummary
  risk : TemporalRiskSummary
  provenance : TemporalProvenance
  deriving DecidableEq, Repr

/-- `TemporalReport`. -/
structure TemporalReport extends TemporalReportIdentity where
  schemaVersion : String
  temporalPolicyVersion : String
  deterministic : Bool
  reportHash : String
  deriving DecidableEq, Repr

/-- `TEMPORAL_SCHEMA_VERSION`. -/
def temporalSchemaVersion : String := "1.0.0"

/-- `TEMPORAL_POLICY_VERSION`. -/
def temporalPolicyVersion : String := "temporal-v1.0.0"

/-! ## Sealing -/

/-- The text of a history state. -/
def TemporalHistoryState.asStr : TemporalHistoryState → String
  | noActiveGeneration => "no_active_generation"
  | baselineOnly => "baseline_only"
  | available => "available"

/-- The text of a status. -/
def TemporalValidityStatus.asStr : TemporalValidityStatus → String
  | verifiedCurrent => "verified_current"
  | stale => "stale"
  | unavailable => "unavailable"

/-- The text of a level. -/
def TemporalRiskLevel.asStr : TemporalRiskLevel → String
  | none => "none"
  | unknown => "unknown"
  | low => "low"
  | moderate => "moderate"
  | high => "high"

/-- A list of texts as JSON. -/
def textsJson (texts : List String) : Json := .arr (texts.map .str)

/-- A record of a change as JSON. -/
def TemporalChangeRecord.json (r : TemporalChangeRecord) : Json :=
  .obj [("after_id", Delta.jsonOption r.afterId), ("before_id", Delta.jsonOption r.beforeId),
    ("category", .str r.category), ("change_kind", .str r.changeKind.asStr),
    ("current_source_status",
      Delta.jsonOption (r.currentSourceStatus.map TemporalValidityStatus.asStr)),
    ("entity_id", .str r.entityId), ("evidence_state", .str r.evidenceState.asStr),
    ("indexed_content_hash", Delta.jsonOption r.indexedContentHash),
    ("observed_content_hash", Delta.jsonOption r.observedContentHash),
    ("reason_codes", textsJson r.reasonCodes)]

/-- A summary of the changes as JSON. -/
def TemporalChangeSummary.json (s : TemporalChangeSummary) : Json :=
  .obj [("category_totals", .arr (s.categoryTotals.map fun t =>
      .obj [("category", .str t.category), ("total", .num t.total)])),
    ("omitted_count", .num s.omittedCount),
    ("records", .arr (s.records.map TemporalChangeRecord.json)),
    ("total_matched", .num s.totalMatched), ("truncated", .bool s.truncated)]

/-- A record of a contract as JSON. -/
def TemporalValidityRecord.json (r : TemporalValidityRecord) : Json :=
  .obj [("canonical_path", Delta.jsonOption r.canonicalPath), ("claim_scope", .str r.claimScope),
    ("entity_id", .str r.entityId), ("evidence", textsJson r.evidence),
    ("indexed_content_hash", Delta.jsonOption r.indexedContentHash),
    ("observed_content_hash", Delta.jsonOption r.observedContentHash),
    ("status", .str r.status.asStr)]

/-- A summary of the contracts as JSON. -/
def TemporalValiditySummary.json (s : TemporalValiditySummary) : Json :=
  .obj [("omitted_count", .num s.omittedCount),
    ("records", .arr (s.records.map TemporalValidityRecord.json)),
    ("total_matched", .num s.totalMatched), ("truncated", .bool s.truncated)]

/-- A summary of the risk as JSON. -/
def TemporalRiskSummary.json (s : TemporalRiskSummary) : Json :=
  .obj [("level", .str s.level.asStr), ("signals", .arr (s.signals.map fun signal =>
    .obj [("code", .str signal.code), ("count", .num signal.count),
      ("evidence", textsJson signal.evidence), ("level", .str signal.level.asStr)]))]

/-- The provenance as JSON. -/
def TemporalProvenance.json (p : TemporalProvenance) : Json :=
  .obj [("delta_hash", Delta.jsonOption p.deltaHash), ("delta_id", Delta.jsonOption p.deltaId),
    ("delta_policy_version", Delta.jsonOption p.deltaPolicyVersion),
    ("derivation", .str p.derivation), ("history_event_count", .num p.historyEventCount),
    ("live_verification_scope", .str p.liveVerificationScope)]

/-- What a report is hashed from. -/
def TemporalReportIdentity.json (r : TemporalReportIdentity) : Json :=
  .obj [("changes", r.changes.json), ("deterministic", .bool true),
    ("from_generation_id", Delta.jsonOption r.fromGenerationId),
    ("history_state", .str r.historyState.asStr),
    ("max_records_per_section", .num r.maxRecordsPerSection), ("provenance", r.provenance.json),
    ("risk", r.risk.json), ("schema_version", .str temporalSchemaVersion),
    ("temporal_policy_version", .str temporalPolicyVersion),
    ("to_generation_id", Delta.jsonOption r.toGenerationId), ("validity", r.validity.json),
    ("workspace_id", .str r.workspaceId)]

/-- `TemporalReport::seal`. -/
def TemporalReport.seal (H : Hasher) (r : TemporalReportIdentity) : TemporalReport where
  toTemporalReportIdentity := r
  schemaVersion := temporalSchemaVersion
  temporalPolicyVersion := Temporal.temporalPolicyVersion
  deterministic := true
  reportHash := contentHashOfBytes H (canonicalJsonBytes r.json)

/-! ## Ancestry -/

/-- `GenerationMeta`. -/
structure GenerationMeta where
  generationId : String
  parentGenerationId : Option String
  sequenceNo : ℕ
  deriving DecidableEq, Repr

/-- `committed_generation`. -/
def committedGeneration (t : Table IndexGeneration) (workspaceId generationId : String) :
    Except AtlasError GenerationMeta :=
  match t.find? fun g => g.generationId = generationId ∧ g.workspaceId = workspaceId ∧
      g.state = .committed with
  | some g => .ok ⟨g.generationId, g.parentGenerationId, g.sequenceNo⟩
  | none => .error (.other ("generation " ++ generationId ++
      " not found or not committed for workspace " ++ workspaceId))

lemma committedGeneration_ok {t : Table IndexGeneration} {ws gid : String} {m : GenerationMeta}
    (h : committedGeneration t ws gid = .ok m) :
    ∃ g ∈ t, g.generationId = gid ∧ g.workspaceId = ws ∧ g.state = .committed ∧
      m = ⟨g.generationId, g.parentGenerationId, g.sequenceNo⟩ := by
  rw [committedGeneration] at h
  split at h
  next g hfind =>
    have hcond := Table.find?_some hfind
    simp only [Bool.decide_and, Bool.and_eq_true, decide_eq_true_eq] at hcond
    exact ⟨g, Table.mem_of_find? hfind, hcond.1, hcond.2.1, hcond.2.2, (Except.ok.inj h).symm⟩
  next => exact absurd h (by simp)

/-- The parents of the committed generations of a workspace. -/
def parents (t : Table IndexGeneration) (workspaceId : String) :
    Links String GenerationMeta AtlasError where
  lookup := committedGeneration t workspaceId
  id := GenerationMeta.generationId
  link := GenerationMeta.parentGenerationId
  known := t.rows.map IndexGeneration.generationId
  id_of_lookup h := by
    obtain ⟨g, -, hid, -, -, rfl⟩ := committedGeneration_ok h
    exact hid
  mem_known h := by
    obtain ⟨g, hg, hid, -⟩ := committedGeneration_ok h
    exact List.mem_map.mpr ⟨g, hg, hid⟩

/-- The error of links that lead back. -/
def cyclicAncestry : AtlasError := .other "generation ancestry contains a cycle"

/-- `ensure_ancestor`. -/
def ensureAncestor (t : Table IndexGeneration) (workspaceId fromGenerationId : String)
    (toGeneration : GenerationMeta) : Except AtlasError GenerationMeta := do
  let fromGeneration ← committedGeneration t workspaceId fromGenerationId
  let _ ← (parents t workspaceId).chase fromGeneration.generationId cyclicAncestry
    (.invalidConfig ("generation " ++ fromGenerationId ++
      " is not an ancestor of active generation " ++ toGeneration.generationId))
    [] toGeneration.parentGenerationId
  return fromGeneration

/-! ## The files on the disk -/

/-- What `confine_to_root` and a read of the file give for a path of the workspace. -/
inductive SourceRead where
  | notConfined
  | unreadable
  | content (bytes : List UInt8)
  deriving DecidableEq, Repr

/-- The files of the workspace when they are verified. -/
abbrev LiveSource := String → SourceRead

/-- `verify_live_hash`. -/
def verifyLiveHash (H : Hasher) (live : LiveSource) (canonicalPath indexedContentHash : String) :
    TemporalValidityStatus × Option String × String :=
  match live canonicalPath with
  | .notConfined => (.unavailable, none, "source_path_not_confined")
  | .content bytes =>
    let observed := contentHashOfBytes H bytes
    if observed = indexedContentHash then
      (.verifiedCurrent, some observed, "live_content_hash_matched")
    else (.stale, some observed, "live_content_hash_mismatch")
  | .unreadable => (.unavailable, none, "live_source_unreadable_or_missing")

/-! ## Changes -/

/-- The records of a category, as `push_category` makes them. -/
def categoryRecords (category : String) (changes : List Delta.DeltaChange) :
    List TemporalChangeRecord :=
  changes.map fun c => ⟨category, c.entityId, c.changeKind, c.evidenceState, c.beforeId, c.afterId,
    c.reasonCodes, none, none, none⟩

/-- The hashes that the query of `annotate_current_file_source` selects. -/
def indexedHashes (t : Delta.Tables) (generationId canonicalPath : String) : List String :=
  (join ((Delta.presentFiles t generationId).filter fun gf => gf.canonicalPath = canonicalPath)
    t.fileRevision.rows fun gf fr => gf.revisionId = some fr.revisionId).map
      fun row => row.2.contentHash

/-- `annotate_current_file_source`. -/
def annotateCurrentFileSource (H : Hasher) (live : LiveSource) (t : Delta.Tables)
    (generationId : String) (record : TemporalChangeRecord) : TemporalChangeRecord :=
  if record.category ≠ "file" ∨ record.changeKind = .removed then record
  else
    match (indexedHashes t generationId record.entityId).head? with
    | none => { record with currentSourceStatus := some .unavailable }
    | some indexedContentHash =>
      let (status, observedContentHash, _) :=
        verifyLiveHash H live record.entityId indexedContentHash
      { record with
        indexedContentHash := some indexedContentHash
        observedContentHash := observedContentHash
        currentSourceStatus := some status }

/-- The categories of a delta, in the order of the summary. -/
def categories (delta : Delta.GenerationDelta) : List (String × List Delta.DeltaChange) :=
  [("file", delta.files), ("symbol", delta.symbols), ("relationship", delta.relationships),
    ("effect", delta.effects), ("coverage", delta.coverage), ("conflict", delta.conflicts)]

/-- `summarize_changes`. -/
def summarizeChanges (H : Hasher) (live : LiveSource) (t : Delta.Tables) (generationId : String)
    (delta : Delta.GenerationDelta) (maxRecords : ℕ) : TemporalChangeSummary :=
  let all := (categories delta).flatMap fun (category, changes) => categoryRecords category changes
  let records := (all.take maxRecords).map (annotateCurrentFileSource H live t generationId)
  { records := records
    categoryTotals := (categories delta).map fun (category, changes) => ⟨category, changes.length⟩
    totalMatched := all.length
    omittedCount := all.length - records.length
    truncated := 0 < all.length - records.length }

/-! ## Contracts -/

/-- The rows of the query of `symbol_source_bindings`, before `DISTINCT`. -/
def bindingRows (t : Delta.Tables) (generationId canonicalSymbolKey : String) :
    List (String ×ₗ String) :=
  (Delta.presentFiles t generationId).flatMap fun gf =>
    (t.fileRevision.rows.filter fun fr => gf.revisionId = some fr.revisionId).flatMap fun fr =>
      (t.symbolFact.rows.filter fun sf => gf.revisionId = some sf.revisionId ∧
          sf.canonicalSymbolKey = canonicalSymbolKey).flatMap fun sf =>
        (t.extractorRun.rows.filter fun er => er.extractorRunId = sf.extractorRunId ∧
            er.status ∈ [.complete, .partlyDone]).map
          fun _ => toLex (gf.canonicalPath, fr.contentHash)

/-- `symbol_source_bindings`. -/
def symbolSourceBindings (t : Delta.Tables) (generationId canonicalSymbolKey : String) :
    List (String ×ₗ String) :=
  (SortedMap.sortedKeys (bindingRows t generationId canonicalSymbolKey)).take 2

/-- `verify_contract`. -/
def verifyContract (H : Hasher) (live : LiveSource) (t : Delta.Tables) (generationId : String)
    (contract : Delta.UnchangedContract) : TemporalValidityRecord :=
  match symbolSourceBindings t generationId contract.entityId with
  | [binding] =>
    let (canonicalPath, indexedContentHash) := ofLex binding
    let (status, observedContentHash, evidenceCode) :=
      verifyLiveHash H live canonicalPath indexedContentHash
    { entityId := contract.entityId
      canonicalPath := some canonicalPath
      indexedContentHash := some indexedContentHash
      observedContentHash := observedContentHash
      status := status
      claimScope := contract.claimScope
      evidence := contract.evidence ++ [evidenceCode] }
  | _ =>
    { entityId := contract.entityId
      canonicalPath := none
      indexedContentHash := none
      observedContentHash := none
      status := .unavailable
      claimScope := contract.claimScope
      evidence := contract.evidence ++ ["source_binding_missing_or_ambiguous"] }

/-- `summarize_validity`. -/
def summarizeValidity (H : Hasher) (live : LiveSource) (t : Delta.Tables) (generationId : String)
    (contracts : List Delta.UnchangedContract) (maxRecords : ℕ) : TemporalValiditySummary :=
  let records := (contracts.take maxRecords).map (verifyContract H live t generationId)
  { records := records
    totalMatched := contracts.length
    omittedCount := contracts.length - records.length
    truncated := 0 < contracts.length - records.length }

/-! ## Risk -/

/-- `add_risk_signal`. -/
def addRiskSignal (signals : List TemporalRiskSignal) (code : String) (level : TemporalRiskLevel)
    (count : ℕ) (evidence : List String) : List TemporalRiskSignal :=
  if 0 < count then signals ++ [⟨code, level, count, evidence⟩] else signals

/-- `risk_rank`. -/
def riskRank : TemporalRiskLevel → ℕ
  | .none => 0
  | .unknown => 1
  | .low => 2
  | .moderate => 3
  | .high => 4

/-- The changes that `summarize_risk` counts. -/
def coreChanges (delta : Delta.GenerationDelta) : List Delta.DeltaChange :=
  delta.files ++ delta.symbols ++ delta.relationships ++ delta.effects

/-- How many returned records have a status. -/
def statusCount (changes : TemporalChangeSummary) (validity : TemporalValiditySummary)
    (status : TemporalValidityStatus) : ℕ :=
  (validity.records.filter fun r => r.status = status).length +
    (changes.records.filter fun r => r.currentSourceStatus = some status).length

/-- `summarize_risk`. -/
def summarizeRisk (t : Delta.Tables) (generationId : String) (delta : Delta.GenerationDelta)
    (changes : TemporalChangeSummary) (validity : TemporalValiditySummary) :
    TemporalRiskSummary :=
  let live := ["returned_changes_and_validity.live_content_hash"]
  let disruptive := (coreChanges delta).filter fun c => c.changeKind ∈
    [.removed, .renamed, .retargeted, .stateChanged, .modified]
  let additive := (coreChanges delta).filter fun c => c.changeKind = .added
  let unhealthyCoverage := t.coverageRecord.count fun r =>
    r.generationId = generationId ∧ r.status ∈ ["failed", "stale"]
  let unresolvedRelationships := t.relationshipResolution.count fun r =>
    r.generationId = generationId ∧ r.status ∈ ["unresolved", "ambiguous", "invalid", "stale"]
  let openConflicts := t.evidenceConflict.count fun r =>
    r.generationId = generationId ∧ r.status ∈ ["open", "preferred_with_conflict"]
  let s := addRiskSignal [] "live_source_stale" .high (statusCount changes validity .stale) live
  let s := addRiskSignal s "live_source_unavailable" .high
    (statusCount changes validity .unavailable) live
  let s := addRiskSignal s "delta_uncertainty" .high delta.uncertainty.length
    ["generation_delta.uncertainty"]
  let s := addRiskSignal s "open_evidence_conflicts" .high openConflicts ["evidence_conflict"]
  let s := addRiskSignal s "failed_or_stale_coverage" .high unhealthyCoverage ["coverage_record"]
  let s := addRiskSignal s "validity_evidence_omitted" .moderate validity.omittedCount
    ["validity.omitted_count"]
  let s := addRiskSignal s "change_evidence_omitted" .moderate changes.omittedCount
    ["changes.omitted_count"]
  let s := addRiskSignal s "disruptive_changes" .moderate disruptive.length ["generation_delta"]
  let s := addRiskSignal s "unresolved_relationships" .moderate unresolvedRelationships
    ["relationship_resolution"]
  let s := addRiskSignal s "additive_changes" .low additive.length ["generation_delta"]
  let s := if validity.totalMatched = 0 ∧ changes.totalMatched = 0 then
      addRiskSignal s "unchanged_contracts_unavailable" .unknown 1
        ["generation_delta.unchanged_verified_contracts"]
    else s
  let signals := orderBy TemporalRiskSignal.code s
  { level := (signals.map TemporalRiskSignal.level).foldl
      (fun most level => if riskRank most ≤ riskRank level then level else most) .none
    signals := signals }

/-- `history_event_count`. -/
def historyEventCount (generations : Table IndexGeneration) (events : Table LifecycleEvent)
    (workspaceId : String) (fromSequence toSequence : ℕ) : ℕ :=
  (join (events.rows.filter fun le => le.workspaceId = workspaceId)
    (generations.rows.filter fun g => fromSequence < g.sequenceNo ∧ g.sequenceNo ≤ toSequence)
    fun le g => g.generationId = le.generationId).length

/-! ## `explain_temporal_state` -/

/-- The tables that a report reads, and those of the deltas, to which it adds. -/
structure TemporalCatalogue where
  workspace : Table Workspace
  tables : Delta.Tables
  lifecycleEvent : Table LifecycleEvent
  deltas : Delta.DeltaStore

/-- `unavailable_report`, with the risk of `unavailable_risk`. -/
def unavailableReport (H : Hasher) (workspaceId : String) (toGenerationId : Option String)
    (historyState : TemporalHistoryState) (maxRecords : ℤ) (signalCode : String) :
    TemporalReport :=
  .seal H
    { workspaceId := workspaceId
      fromGenerationId := none
      toGenerationId := toGenerationId
      historyState := historyState
      maxRecordsPerSection := maxRecords
      changes := ⟨[], [], 0, 0, false⟩
      validity := ⟨[], 0, 0, false⟩
      risk := ⟨.unknown, [⟨signalCode, .unknown, 1, ["local_generation_ancestry"]⟩]⟩
      provenance := ⟨"local_generation_ancestry", none, none, none, 0, "none"⟩ }

/-- `captured_active_generation`. -/
def capturedActiveGeneration (c : TemporalCatalogue) (workspaceId : String) :
    Except AtlasError (Option String) :=
  match c.workspace.find? fun w => w.workspaceId = workspaceId with
  | some w => .ok w.activeGenerationId
  | none => .error (.sqlite .queryReturnedNoRows)

/-- The report on two generations and their delta. -/
def deltaReport (H : Hasher) (live : LiveSource) (c : TemporalCatalogue) (workspaceId : String)
    (fromGeneration toGeneration : GenerationMeta) (delta : Delta.GenerationDelta)
    (maxRecords : ℤ) : TemporalReport :=
  let changes := summarizeChanges H live c.tables toGeneration.generationId delta maxRecords.toNat
  let validity := summarizeValidity H live c.tables toGeneration.generationId
    delta.unchangedVerifiedContracts maxRecords.toNat
  .seal H
    { workspaceId := workspaceId
      fromGenerationId := some fromGeneration.generationId
      toGenerationId := some toGeneration.generationId
      historyState := .available
      maxRecordsPerSection := maxRecords
      changes := changes
      validity := validity
      risk := summarizeRisk c.tables toGeneration.generationId delta changes validity
      provenance := ⟨"local_generation_delta", some delta.deltaId, some delta.deltaHash,
        some delta.deltaPolicyVersion,
        historyEventCount c.tables.indexGeneration c.lifecycleEvent workspaceId
          fromGeneration.sequenceNo toGeneration.sequenceNo,
        "returned_changes_and_unchanged_contracts"⟩ }

/-- The generation that is compared with the active one. -/
def fromGeneration? (t : Table IndexGeneration) (workspaceId : String) (requested : Option String)
    (toGeneration : GenerationMeta) : Except AtlasError (Option GenerationMeta) :=
  match requested with
  | some generationId => some <$> ensureAncestor t workspaceId generationId toGeneration
  | none =>
    match toGeneration.parentGenerationId with
    | some generationId => some <$> committedGeneration t workspaceId generationId
    | none => .ok none

/-- `explain_temporal_state`: the working directory is what the derivation of the delta reads, and
the live source what is read to verify the records afterwards. -/
def explainTemporalState (H : Hasher) (disk : Delta.WorkingDirectory) (live : LiveSource)
    (c : TemporalCatalogue) (workspaceId : String) (requested : Option String) (maxRecords : ℤ) :
    Except AtlasError (Delta.DeltaStore × TemporalReport) := do
  let active ← capturedActiveGeneration c workspaceId
  if maxRecords ≤ 0 then
    .error (.invalidConfig ("max_records must be > 0, got " ++ toString maxRecords))
  else
    match active with
    | none =>
      if requested.isSome then
        .error (.invalidConfig "cannot select a from generation without an active generation")
      else
        return (c.deltas, unavailableReport H workspaceId none .noActiveGeneration maxRecords
          "active_generation_unavailable")
    | some activeGenerationId =>
      let toGeneration ← committedGeneration c.tables.indexGeneration workspaceId activeGenerationId
      match ← fromGeneration? c.tables.indexGeneration workspaceId requested toGeneration with
      | none =>
        return (c.deltas, unavailableReport H workspaceId (some activeGenerationId) .baselineOnly
          maxRecords "prior_generation_unavailable")
      | some fromGeneration =>
        let delta ← Delta.computeGenerationDelta H disk c.tables workspaceId
          fromGeneration.generationId toGeneration.generationId
        let deltas ← Delta.persistGenerationDelta H c.deltas delta
        return (deltas, deltaReport H live c workspaceId fromGeneration toGeneration delta maxRecords)

end Temporal

end WorkspaceAtlas
