/-
# The derivation of a delta

`compute_generation_delta`: what is read of the two generations is compared category by
category, and the result is sealed with its digest.  A symbol whose snapshots agree is listed
as unchanged only if the coverage of both generations is complete for it and the file that is
on the disk still has the captured content.
-/
import WorkspaceAtlas.Delta.Snapshot

namespace WorkspaceAtlas

open Relational Text

namespace Delta

/-! ## Changes -/

/-- `ChangeKind`. -/
inductive ChangeKind where
  | added
  | removed
  | modified
  | renamed
  | retargeted
  | stateChanged
  deriving DecidableEq, Repr

/-- `change_kind_str`. -/
def ChangeKind.asStr : ChangeKind → String
  | added => "added"
  | removed => "removed"
  | modified => "modified"
  | renamed => "renamed"
  | retargeted => "retargeted"
  | stateChanged => "state_changed"

/-- `DeltaEvidenceState`. -/
inductive DeltaEvidenceState where
  | verified
  | supported
  | inferred
  | uncertain
  deriving DecidableEq, Repr

/-- `evidence_state_str`. -/
def DeltaEvidenceState.asStr : DeltaEvidenceState → String
  | verified => "verified"
  | supported => "supported"
  | inferred => "inferred"
  | uncertain => "uncertain"

/-- `DeltaChange`. -/
structure DeltaChange where
  entityId : String
  changeKind : ChangeKind
  evidenceState : DeltaEvidenceState
  beforeId : Option String
  afterId : Option String
  reasonCodes : List String
  deriving DecidableEq, Repr

/-- `UnchangedContract`. -/
structure UnchangedContract where
  entityId : String
  claimScope : String
  evidence : List String
  deriving DecidableEq, Repr

/-- A change with the evidence of all changes of a delta. -/
def change (entityId : String) (kind : ChangeKind) (beforeId afterId : Option String)
    (reasonCode : String) : DeltaChange :=
  ⟨entityId, kind, .verified, beforeId, afterId, [reasonCode]⟩

/-! ## Files -/

/-- The map of some files by their ids. -/
def filesById (files : List FileRow) : SortedMap String FileRow :=
  SortedMap.collect FileRow.fileId files

/-- The change of a file that is there in the second generation. -/
def fileChange (fromById : SortedMap String FileRow) (f : FileRow) : Option DeltaChange :=
  match fromById.get f.fileId with
  | none => some (change f.canonicalPath .added none (some f.fileId) "new_file_identity")
  | some old =>
    if old.canonicalPath ≠ f.canonicalPath then
      some (change f.canonicalPath .renamed (some old.canonicalPath) (some f.canonicalPath)
        "file_identity_continuity_different_path")
    else if old.contentHash ≠ f.contentHash then
      some (change f.canonicalPath .modified (some old.contentHash) (some f.contentHash)
        "content_hash_changed")
    else none

/-- The changes of the files. -/
def fileChanges (fromFiles toFiles : List FileRow) : List DeltaChange :=
  let fromById := filesById fromFiles
  let toById := filesById toFiles
  orderBy (fun c => toLex (c.entityId, c.changeKind.asStr))
    (toById.values.filterMap (fileChange fromById) ++
      (fromById.values.filter fun f => ¬ toById.containsKey f.fileId).map fun f =>
        change f.canonicalPath .removed (some f.fileId) none "file_identity_no_longer_present")

/-! ## Symbols -/

/-- `outbound_relationship_targets`: the sets of targets are sorted lists without
repetitions. -/
def outboundRelationshipTargets (relationships : SortedMap String (List RelationshipState))
    (sourceStart : String) : List (String × List String) :=
  (relationships.entries.filter fun entry =>
    sourceStart.toList.isPrefixOf entry.1.toList).map fun entry =>
      (entry.1, SortedMap.sortedKeys (entry.2.map RelationshipState.effectiveTarget))

/-- A map of sets as JSON. -/
def targetsJson (targets : List (String × List String)) : Json :=
  .obj (targets.map fun entry => (entry.1, .arr (entry.2.map .str)))

/-- What changed of a symbol that both generations have: the first difference in a fixed
order. -/
def symbolChange (H : Hasher) (before after : Snapshot) (key : String)
    (fromSym toSym : SymbolSnapshot) : Option DeltaChange :=
  let outboundStart := "symbol:" ++ key ++ "\x1f"
  let outboundFrom := outboundRelationshipTargets before.relationships outboundStart
  let outboundTo := outboundRelationshipTargets after.relationships outboundStart
  if fromSym.canonicalPath ≠ toSym.canonicalPath then
    some (change key .renamed (some fromSym.canonicalPath) (some toSym.canonicalPath)
      "symbol_source_path_changed")
  else if fromSym.fileId ≠ toSym.fileId then
    some (change key .stateChanged (some fromSym.fileId) (some toSym.fileId)
      "symbol_source_identity_changed")
  else if fromSym.semanticDigest ≠ toSym.semanticDigest then
    some (change key .modified (some fromSym.semanticDigest) (some toSym.semanticDigest)
      "symbol_semantic_identity_changed")
  else if fromSym.evidenceDigest ≠ toSym.evidenceDigest then
    some (change key .stateChanged (some fromSym.evidenceDigest) (some toSym.evidenceDigest)
      "symbol_evidence_state_changed")
  else if outboundFrom ≠ outboundTo then
    some (change key .stateChanged (some (semanticDigest H (targetsJson outboundFrom)))
      (some (semanticDigest H (targetsJson outboundTo))) "relationship_set_changed")
  else none

/-- The states that `symbol_has_complete_coverage` looks at. -/
def coverageWitnesses (coverage : SortedMap String (List CoverageState))
    (symbol : SymbolSnapshot) : List CoverageState :=
  coverage.entries.flatMap fun (identity, states) =>
    if identity ∈ ["workspace:all", "file:" ++ symbol.canonicalPath,
        "provider:" ++ symbol.providerKey, "capability:symbols", "capability:relationships",
        "capability:resolution"] then
      states
    else if "file:".toList.isPrefixOf identity.toList then
      states.filter fun state => state.fileId = some symbol.fileId
    else []

/-- `symbol_has_complete_coverage`. -/
def symbolHasCompleteCoverage (coverage : SortedMap String (List CoverageState))
    (symbol : SymbolSnapshot) : Prop :=
  symbol.extractorComplete = true ∧ coverageWitnesses coverage symbol ≠ [] ∧
    ∀ state ∈ coverageWitnesses coverage symbol, state.status = "complete"

instance (coverage : SortedMap String (List CoverageState)) (symbol : SymbolSnapshot) :
    Decidable (symbolHasCompleteCoverage coverage symbol) := by
  unfold symbolHasCompleteCoverage
  infer_instance

/-- The working directory: the bytes that are read at a path of the workspace, if the path stays
inside the root and is a file. -/
abbrev WorkingDirectory := String → Option (List UInt8)

/-- `live_source_digest`. -/
def liveSourceDigest (H : Hasher) (disk : WorkingDirectory) (canonicalPath : String) :
    Option String :=
  (disk canonicalPath).map (contentHashOfBytes H)

/-- The contract that is listed for an unchanged symbol. -/
def unchangedContract (key : String) : UnchangedContract where
  entityId := key
  claimScope := "semantic identity, source identity and path, provider fingerprint, and resolved " ++
    "outbound relationship set"
  evidence := ["semantic_identity_unchanged", "source_path_unchanged", "source_identity_unchanged",
    "live_to_source_hash_verified", "provider_fingerprint_unchanged",
    "relationship_set_unchanged", "coverage_complete"]

/-- The file on the disk is what the snapshot of the symbol was taken from. -/
def LiveVerified (H : Hasher) (disk : WorkingDirectory) (toSym : SymbolSnapshot) : Prop :=
  liveSourceDigest H disk toSym.canonicalPath = some toSym.fileContentHash

instance (H : Hasher) (disk : WorkingDirectory) (toSym : SymbolSnapshot) :
    Decidable (LiveVerified H disk toSym) := by
  unfold LiveVerified
  infer_instance

/-- The generations allow an unchanged symbol to be listed. -/
def Qualifies (before after : Snapshot) (fromSym toSym : SymbolSnapshot) : Prop :=
  before.providerFingerprint = after.providerFingerprint ∧
    symbolHasCompleteCoverage before.coverage fromSym ∧
      symbolHasCompleteCoverage after.coverage toSym

instance (before after : Snapshot) (fromSym toSym : SymbolSnapshot) :
    Decidable (Qualifies before after fromSym toSym) := by
  unfold Qualifies
  infer_instance

/-- The symbols that both generations have and that did not change, with their snapshots. -/
def unchangedSymbols (H : Hasher) (before after : Snapshot) :
    List (String × SymbolSnapshot × SymbolSnapshot) :=
  after.symbols.entries.filterMap fun (key, toSym) =>
    match before.symbols.get key with
    | none => none
    | some fromSym =>
      match symbolChange H before after key fromSym toSym with
      | some _ => none
      | none => some (key, fromSym, toSym)

/-- The changes of the symbols. -/
def symbolChanges (H : Hasher) (before after : Snapshot) : List DeltaChange :=
  orderBy DeltaChange.entityId
    ((after.symbols.entries.filterMap fun (key, toSym) =>
        match before.symbols.get key with
        | none => some (change key .added none (some toSym.symbolFactId) "new_symbol_fact")
        | some fromSym => symbolChange H before after key fromSym toSym) ++
      (before.symbols.entries.filter fun entry => ¬ after.symbols.containsKey entry.1).map
        fun (key, fromSym) =>
          change key .removed (some fromSym.symbolFactId) none "symbol_no_longer_present")

/-- The symbols that are listed as unchanged. -/
def unchangedVerifiedContracts (H : Hasher) (disk : WorkingDirectory) (before after : Snapshot) :
    List UnchangedContract :=
  orderBy UnchangedContract.entityId
    (((unchangedSymbols H before after).filter fun (_, fromSym, toSym) =>
      Qualifies before after fromSym toSym ∧ LiveVerified H disk toSym).map
        fun (key, _, _) => unchangedContract key)

section Unchanged

variable {H : Hasher} {disk : WorkingDirectory} {before after : Snapshot}
  {fromSym toSym : SymbolSnapshot} {key : String}

lemma mem_unchangedSymbols : (key, fromSym, toSym) ∈ unchangedSymbols H before after ↔
    (key, toSym) ∈ after.symbols.entries ∧ before.symbols.get key = some fromSym ∧
      symbolChange H before after key fromSym toSym = none := by
  simp only [unchangedSymbols, List.mem_filterMap, Prod.exists]
  constructor
  · rintro ⟨key', toSym', hmem, h⟩
    cases hget : before.symbols.get key' with
    | none => simp [hget] at h
    | some fromSym' =>
      cases hchange : symbolChange H before after key' fromSym' toSym' with
      | some c => simp [hget, hchange] at h
      | none =>
        rw [hget] at h
        dsimp only at h
        rw [hchange] at h
        obtain ⟨rfl, rfl, rfl⟩ : key' = key ∧ fromSym' = fromSym ∧ toSym' = toSym := by
          simpa using h
        exact ⟨hmem, hget, hchange⟩
  · rintro ⟨hmem, hget, hchange⟩
    refine ⟨key, toSym, hmem, ?_⟩
    rw [hget]
    dsimp only
    rw [hchange]

/-- A key is unchanged with one pair of snapshots. -/
lemma eq_of_key {x y : String × SymbolSnapshot × SymbolSnapshot}
    (hx : x ∈ unchangedSymbols H before after) (hy : y ∈ unchangedSymbols H before after)
    (h : x.1 = y.1) : x = y := by
  obtain ⟨kx, fx, tx⟩ := x
  obtain ⟨ky, fy, ty⟩ := y
  obtain rfl : kx = ky := h
  obtain ⟨htx, hfx, -⟩ := mem_unchangedSymbols.mp hx
  obtain ⟨hty, hfy, -⟩ := mem_unchangedSymbols.mp hy
  obtain rfl := SortedMap.eq_of_mem htx hty
  obtain rfl := Option.some.inj (hfx.symm.trans hfy)
  rfl

/-- The symbols that are listed with a working directory. -/
lemma mem_contracts {u : UnchangedContract} :
    u ∈ unchangedVerifiedContracts H disk before after ↔
      ∃ x ∈ unchangedSymbols H before after, Qualifies before after x.2.1 x.2.2 ∧
        LiveVerified H disk x.2.2 ∧ u = unchangedContract x.1 := by
  simp only [unchangedVerifiedContracts, mem_orderBy, List.mem_map, List.mem_filter,
    decide_eq_true_eq]
  constructor
  · rintro ⟨x, ⟨hx, hqualifies, hlive⟩, rfl⟩
    exact ⟨x, hx, hqualifies, hlive, rfl⟩
  · rintro ⟨x, hx, hqualifies, hlive, rfl⟩
    exact ⟨x, ⟨hx, hqualifies, hlive⟩, rfl⟩

end Unchanged

/-- Why an unchanged symbol is not listed. -/
def omissionReasons (H : Hasher) (disk : WorkingDirectory) (before after : Snapshot)
    (fromSym toSym : SymbolSnapshot) : List String :=
  if Qualifies before after fromSym toSym ∧ LiveVerified H disk toSym then []
  else
    (if before.providerFingerprint ≠ after.providerFingerprint then
        ["provider fingerprint changed"]
      else []) ++
    (if ¬ symbolHasCompleteCoverage before.coverage fromSym ∨
          ¬ symbolHasCompleteCoverage after.coverage toSym then
        ["complete symbol-scoped coverage evidence is unavailable"]
      else []) ++
    (if ¬ LiveVerified H disk toSym then
        ["live source no longer matches the captured generation"]
      else [])

/-- The uncertainty of a delta. -/
def uncertainty (H : Hasher) (disk : WorkingDirectory) (before after : Snapshot) : List String :=
  SortedMap.sortedKeys ((unchangedSymbols H before after).flatMap fun (_, fromSym, toSym) =>
    omissionReasons H disk before after fromSym toSym)

/-! ## Relationships -/

section Relationships

variable {σ κ : Type} [LinearOrder κ]

/-- The walk over two sorted lists from a state of the first one, whose rest is walked by
`rest`. -/
def unmatchedFrom (sortKey : σ → κ) (a : σ) (as : List σ) (rest : List σ → List σ × List σ) :
    List σ → List σ × List σ
  | [] => (a :: as, [])
  | b :: bs =>
    match cmp (sortKey a) (sortKey b) with
    | .lt => let r := rest (b :: bs); (a :: r.1, r.2)
    | .gt => let r := unmatchedFrom sortKey a as rest bs; (r.1, b :: r.2)
    | .eq => rest bs

/-- The states of two sorted lists that have no equal partner in the other one. -/
def unmatched (sortKey : σ → κ) : List σ → List σ → List σ × List σ
  | [] => fun bs => ([], bs)
  | a :: as => unmatchedFrom sortKey a as (unmatched sortKey as)

end Relationships

/-- `relationship_entity_id`. -/
def relationshipEntityId (identity target : String) : String := identity ++ "\x1f" ++ target

/-- The change of a state that is replaced by another one with the same effective target. -/
def pairedChange (H : Hasher) (identity target : String) (before after : RelationshipState) :
    DeltaChange :=
  let (kind, reasonCode) :=
    if before.resolutionIdentity ≠ after.resolutionIdentity then
      (ChangeKind.stateChanged, "relationship_resolution_state_changed")
    else if before.target ≠ after.target then
      (ChangeKind.modified, "relationship_semantic_state_changed")
    else (ChangeKind.modified, "relationship_evidence_changed")
  change (relationshipEntityId identity target) kind (some (semanticDigest H before.json))
    (some (semanticDigest H after.json)) reasonCode

/-- The changes of one identity. -/
def identityChanges (H : Hasher) (identity : String) (before after : List RelationshipState) :
    List DeltaChange :=
  let targets := SortedMap.sortedKeys ((before ++ after).map RelationshipState.effectiveTarget)
  let perTarget := targets.map fun target =>
    (target, unmatched RelationshipState.sortKey
      (before.filter fun s => s.effectiveTarget = target)
      (after.filter fun s => s.effectiveTarget = target))
  let paired := perTarget.flatMap fun (target, states) =>
    List.zipWith (pairedChange H identity target) states.1 states.2
  let removed := perTarget.flatMap fun (_, states) => states.1.drop states.2.length
  let added := perTarget.flatMap fun (_, states) => states.2.drop states.1.length
  match removed, added with
  | [r], [a] =>
    paired ++ [change identity .retargeted (some (semanticDigest H r.json))
      (some (semanticDigest H a.json)) "relationship_target_changed"]
  | _, _ =>
    paired ++
      (removed.map fun s => change (relationshipEntityId identity s.effectiveTarget) .removed
        (some (semanticDigest H s.json)) none "edge_no_longer_present") ++
      added.map fun s => change (relationshipEntityId identity s.effectiveTarget) .added none
        (some (semanticDigest H s.json)) "resolved_edge_added"

/-- `diff_relationships`. -/
def diffRelationships (H : Hasher) (before after : SortedMap String (List RelationshipState)) :
    List DeltaChange :=
  orderBy (fun c => toLex (c.entityId, toLex (c.changeKind.asStr,
      toLex (optionKey c.beforeId, optionKey c.afterId))))
    ((SortedMap.keyUnion before after).flatMap fun identity =>
      identityChanges H identity ((before.get identity).getD []) ((after.get identity).getD []))

/-! ## States -/

/-- The reasons that a diff of states gives. -/
structure DiffCodes where
  added : String
  removed : String
  faceChanged : String
  otherwise : String

/-- A diff of two maps of states: an identity whose states differ is changed in state if the
states show different faces, and modified otherwise. -/
def diffStates {σ : Type} [DecidableEq σ] (H : Hasher) (json : σ → Json) (face : σ → String)
    (codes : DiffCodes) (before after : SortedMap String (List σ)) : List DeltaChange :=
  let digest (states : List σ) := semanticDigest H (.arr (states.map json))
  (SortedMap.keyUnion before after).filterMap fun identity =>
    match before.get identity, after.get identity with
    | none, some a => some (change identity .added none (some (digest a)) codes.added)
    | some b, none => some (change identity .removed (some (digest b)) none codes.removed)
    | some b, some a =>
      if b ≠ a then
        if SortedMap.sortedKeys (b.map face) ≠ SortedMap.sortedKeys (a.map face) then
          some (change identity .stateChanged (some (digest b)) (some (digest a))
            codes.faceChanged)
        else
          some (change identity .modified (some (digest b)) (some (digest a)) codes.otherwise)
      else none
    | none, none => none

/-- `diff_effects`. -/
def diffEffects (H : Hasher) (before after : SortedMap String (List EffectState)) :
    List DeltaChange :=
  diffStates H EffectState.json EffectState.phase
    ⟨"effect_added", "effect_no_longer_present", "effect_phase_changed",
      "effect_semantic_state_changed"⟩ before after

/-- `diff_coverage`. -/
def diffCoverage (H : Hasher) (before after : SortedMap String (List CoverageState)) :
    List DeltaChange :=
  diffStates H CoverageState.json CoverageState.status
    ⟨"new_coverage_scope", "coverage_scope_no_longer_reported", "coverage_status_changed",
      "coverage_evidence_changed"⟩ before after

/-- `diff_conflicts`. -/
def diffConflicts (H : Hasher) (before after : SortedMap String (List ConflictState)) :
    List DeltaChange :=
  diffStates H ConflictState.json ConflictState.status
    ⟨"conflict_added", "conflict_no_longer_reported", "conflict_status_changed",
      "conflict_evidence_changed"⟩ before after

/-- The changes of the coverage, with that of the provider set. -/
def coverageChanges (H : Hasher) (before after : Snapshot) : List DeltaChange :=
  let changes := diffCoverage H before.coverage after.coverage
  if before.providerFingerprint ≠ after.providerFingerprint then
    orderBy DeltaChange.entityId (changes ++ [change "provider_set" .stateChanged
      (some before.providerFingerprint) (some after.providerFingerprint)
      "provider_fingerprint_changed"])
  else changes

/-! ## Sealing -/

/-- What a delta consists of, besides its schema version and its hash: the change sets without
their number of omitted changes, which is always 0. -/
structure DeltaContent where
  deltaId : String
  workspaceId : String
  fromGenerationId : String
  toGenerationId : String
  deltaPolicyVersion : String
  files : List DeltaChange
  symbols : List DeltaChange
  relationships : List DeltaChange
  effects : List DeltaChange
  coverage : List DeltaChange
  conflicts : List DeltaChange
  unchangedVerifiedContracts : List UnchangedContract
  uncertainty : List String
  deriving DecidableEq, Repr

/-- `GenerationDelta`. -/
structure GenerationDelta extends DeltaContent where
  schemaVersion : String
  deltaHash : String
  deriving DecidableEq, Repr

/-- A change as JSON. -/
def DeltaChange.json (c : DeltaChange) : Json :=
  .obj [("after_id", jsonOption c.afterId), ("before_id", jsonOption c.beforeId),
    ("change_kind", .str c.changeKind.asStr), ("entity_id", .str c.entityId),
    ("evidence_state", .str c.evidenceState.asStr),
    ("reason_codes", .arr (c.reasonCodes.map .str))]

/-- A change set as JSON. -/
def changeSetJson (changes : List DeltaChange) : Json :=
  .obj [("changes", .arr (changes.map DeltaChange.json)), ("omitted_count", .num 0)]

/-- A contract as JSON. -/
def UnchangedContract.json (u : UnchangedContract) : Json :=
  .obj [("claim_scope", .str u.claimScope), ("entity_id", .str u.entityId),
    ("evidence", .arr (u.evidence.map .str))]

/-- `CONTEXT_SCHEMA_VERSION`. -/
def contextSchemaVersion : String := "1.0.0"

/-- `GenerationDeltaIdentity`. -/
def DeltaContent.identity (d : DeltaContent) : Json :=
  .obj [("conflicts", changeSetJson d.conflicts), ("coverage", changeSetJson d.coverage),
    ("delta_id", .str d.deltaId), ("delta_policy_version", .str d.deltaPolicyVersion),
    ("effects", changeSetJson d.effects), ("files", changeSetJson d.files),
    ("from_generation_id", .str d.fromGenerationId),
    ("relationships", changeSetJson d.relationships),
    ("schema_version", .str contextSchemaVersion), ("symbols", changeSetJson d.symbols),
    ("to_generation_id", .str d.toGenerationId), ("uncertainty", .arr (d.uncertainty.map .str)),
    ("unchanged_verified_contracts",
      .arr (d.unchangedVerifiedContracts.map UnchangedContract.json)),
    ("workspace_id", .str d.workspaceId)]

/-- `GenerationDelta::seal`. -/
def GenerationDelta.seal (H : Hasher) (d : DeltaContent) : Except AtlasError GenerationDelta :=
  if d.fromGenerationId = d.toGenerationId then
    .error (.invalidConfig
      "GenerationDelta.from_generation_id must differ from to_generation_id")
  else
    .ok ⟨d, contextSchemaVersion, contentHashOfBytes H (canonicalJsonBytes d.identity)⟩

/-- `DELTA_POLICY_VERSION`. -/
def deltaPolicyVersion : String := "delta-v1.0.0"

/-- The id of a delta. -/
def deltaId (H : Hasher) (workspaceId fromGenerationId toGenerationId policy : String) : String :=
  deterministicId H "delta" [workspaceId, fromGenerationId, toGenerationId, policy]

/-- What is derived from what was read of two generations. -/
def deriveDelta (H : Hasher) (disk : WorkingDirectory)
    (workspaceId fromGenerationId toGenerationId : String) (before after : Snapshot) :
    Except AtlasError GenerationDelta :=
  GenerationDelta.seal H
    { deltaId := deltaId H workspaceId fromGenerationId toGenerationId deltaPolicyVersion
      workspaceId := workspaceId
      fromGenerationId := fromGenerationId
      toGenerationId := toGenerationId
      deltaPolicyVersion := deltaPolicyVersion
      files := fileChanges before.files after.files
      symbols := symbolChanges H before after
      relationships := diffRelationships H before.relationships after.relationships
      effects := diffEffects H before.effects after.effects
      coverage := coverageChanges H before after
      conflicts := diffConflicts H before.conflicts after.conflicts
      unchangedVerifiedContracts := unchangedVerifiedContracts H disk before after
      uncertainty := uncertainty H disk before after }

lemma exists_derived {H : Hasher} (disk : WorkingDirectory) {before after : Snapshot}
    {ws fromId toId : String} (hne : fromId ≠ toId) :
    ∃ d, deriveDelta H disk ws fromId toId before after = .ok d :=
  ⟨_, if_neg hne⟩

end Delta

end WorkspaceAtlas
