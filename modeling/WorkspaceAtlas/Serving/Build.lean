/-
# Building a projection

`build_serving_generation`: in one transaction the rows of an earlier attempt are deleted, a
card is written for every symbol key that the active generation reaches and an edge for every
relationship.  A projection that is ready already is returned as it is; that early return
writes nothing and is left out, as are the coverage rollups, which read no card and no edge.
-/
import WorkspaceAtlas.Serving.Store
import WorkspaceAtlas.Transition.Loop
import WorkspaceAtlas.Catalogue.Generation

namespace WorkspaceAtlas

open Relational Transition

/-- `SERVING_SCHEMA_VERSION`. -/
def servingSchemaVersion : String := "1.0.0"

/-- `PROJECTION_POLICY_VERSION`. -/
def projectionPolicyVersion : String := "projection-v1.0.0"

/-- The id of a projection. -/
def servingGenerationId (H : Hasher) (workspaceId gid schema policy : String) : String :=
  deterministicId H "serve_gen" [workspaceId, gid, schema, policy]

/-! ## Cards -/

/-- `map_coverage_status`. -/
def mapCoverageStatus : CoverageStatus → CoverageState
  | .complete => .complete
  | .partly => .partly
  | .unsupported | .excluded => .unsupported
  | .failed | .stale => .failed

/-- `estimate_tokens`. -/
def estimateTokens (byteSpan : ℤ) : ℤ := max byteSpan 0 / 4

/-- A row of the query of `project_symbol_cards`. -/
abbrev SymbolRow := (CurrentFile × SymbolFact) × ExtractorRun

namespace SymbolRow

/-- The file of the row. -/
def file (row : SymbolRow) : CurrentFile := row.1.1

/-- The fact of the row. -/
def fact (row : SymbolRow) : SymbolFact := row.1.2

/-- The run of the row. -/
def run (row : SymbolRow) : ExtractorRun := row.2

/-- The key of the row. -/
def key (row : SymbolRow) : String := row.fact.canonicalSymbolKey

end SymbolRow

/-- The preference among the facts of one key: semantic, then exact, then the confidence, the
id last. -/
def SymbolFact.preference (f : SymbolFact) : ℕ ×ₗ ℕ ×ₗ ℚ ×ₗ String :=
  toLex (if f.evidenceMethod = .semantic then 0 else 1,
    toLex (if f.evidenceMethod = .exact then 0 else 1, toLex (-f.confidence, f.symbolFactId)))

/-- The symbols of a generation, by key and preference. -/
def symbolRowsOf (c : Catalogue) (gid : String) : List SymbolRow :=
  orderBy (fun row => toLex (row.key, row.fact.preference))
    (join (c.currentSymbols gid) c.facts.extractorRun.rows fun p er =>
      er.extractorRunId = p.2.extractorRunId)

/-- `estimate_metadata_bytes`. -/
def estimateMetadataBytes (row : SymbolRow) : ℕ :=
  row.key.utf8ByteSize + row.file.canonicalPath.utf8ByteSize + row.fact.symbolKind.utf8ByteSize

/-- A relationship of one type that names a symbol as its target. -/
def RelationshipFact.targets (f : RelationshipFact) (type : RelationshipType) (key : String) :
    Bool :=
  f.relationshipType = type ∧ f.targetRefKind = .symbol ∧ f.targetRefValue = key

/-- A relationship of one type that names a symbol as its source. -/
def RelationshipFact.startsAt (f : RelationshipFact) (type : RelationshipType) (key : String) :
    Bool :=
  f.relationshipType = type ∧ f.sourceRefKind = .symbol ∧ f.sourceRefValue = key

/-- `symbol_counts`. -/
def symbolCounts (truth : Truth) (gid key : String) : SymbolCounts :=
  let c := truth.catalogue
  let rows := c.currentRelationships gid
  { callers := rows.countP fun p => p.2.targets .calls key
    callees := rows.countP fun p => p.2.startsAt .calls key
    references := rows.countP fun p => p.2.targets .references key
    tests := rows.countP fun p => p.2.startsAt .tests key || p.2.targets .tests key
    configs := rows.countP fun p => p.2.startsAt .configures key || p.2.targets .configures key
    effects := (join (c.currentFileOf gid) truth.effectFact.rows fun cf ef =>
      cf.revisionId = some ef.revisionId).countP fun p =>
        p.2.subjectRefKind = .symbol ∧ p.2.subjectRefValue = key
    conflicts := truth.evidenceConflict.rows.countP fun ec =>
      ec.generationId = gid ∧ ec.subjectKind = .symbol ∧ ec.subjectKey = key ∧
        ec.status ∈ [ConflictStatus.open_, .preferredWithConflict]
    unresolved := (join rows truth.resolutions.rows fun p rr =>
      rr.relationshipFactId = p.2.relationshipFactId ∧ rr.generationId = p.1.generationId).countP
        fun p => p.1.2.sourceRefKind = .symbol ∧ p.1.2.sourceRefValue = key ∧
          p.2.status ∈ [ResolutionStatus.unresolved, .ambiguous, .stale, .invalid] }

/-- `symbol_coverage_state`. -/
def symbolCoverageState (truth : Truth) (gid fileId : String) : CoverageState :=
  match truth.coverageRecord.find? fun r =>
      r.generationId = gid ∧ r.scopeKind = .file ∧ r.fileId = some fileId with
  | some r => mapCoverageStatus r.status
  | none => .complete

/-- The card of a row. -/
def symbolCard (truth : Truth) (gid sgid : String) (row : SymbolRow) : SymbolCard where
  servingGenerationId := sgid
  canonicalSymbolKey := row.key
  canonicalPath := row.file.canonicalPath
  symbolKind := row.fact.symbolKind
  language := row.file.language
  signature := row.fact.signature
  startByte := row.fact.startByte
  endByte := row.fact.endByte
  startLine := row.fact.startLine
  endLine := row.fact.endLine
  preferredFactId := row.fact.symbolFactId
  preferredProviderTier := row.run.providerTier
  preferredConfidence := row.fact.confidence
  evidenceState := row.fact.evidenceMethod
  counts := symbolCounts truth gid row.key
  coverageState := symbolCoverageState truth gid row.file.fileId
  cost :=
    { sourceBytes := max (row.fact.endByte - row.fact.startByte) 0
      estimatedTokens := estimateTokens (row.fact.endByte - row.fact.startByte)
      metadataBytes := estimateMetadataBytes row }

/-- Insertions one after the other, the first refused one being the error of all. -/
def insertRows {ρ : Type} [Keyed ρ] (name : String) (t : Table ρ) (rows : List ρ) :
    Except AtlasError (Table ρ) :=
  rows.foldlM (fun t row =>
    match t.insert? row with
    | some t' => .ok t'
    | none => .error (.sqlite (.constraint name))) t

/-- `project_symbol_cards`: one card for the first row of each key. -/
def projectSymbolCards (truth : Truth) (gid sgid : String) (t : Table SymbolCard) :
    Except AtlasError (Table SymbolCard) :=
  insertRows "symbol_serving_projection" t
    ((firsts SymbolRow.key none (symbolRowsOf truth.catalogue gid)).map (symbolCard truth gid sgid))

/-! ## Edges -/

/-- `entity_id_for`. -/
def entityIdFor (refKind : RefKind) (refValue : String) : String :=
  match refKind with
  | .symbol => "symbol:" ++ refValue
  | .path => "path:" ++ refValue
  | .external => "external:" ++ refValue

/-- `trust_class_for`. -/
def trustClassFor (resolutionState : ResolutionStatus) (evidenceMethod : EvidenceMethod)
    (confidence : ℚ) : TrustClass :=
  if resolutionState ∈ [ResolutionStatus.resolvedSymbol, .resolvedFile] then
    if evidenceMethod ∈ [EvidenceMethod.exact, .semantic] then .verified else .supported
  else if 1 / 2 ≤ confidence then .inferred
  else .uncertain

/-- A row of the query of `project_relationship_edges`. -/
abbrev RelationshipRow := (CurrentFile × RelationshipFact) × ExtractorRun

/-- The relationships of a generation, by id. -/
def relationshipRowsOf (c : Catalogue) (gid : String) : List RelationshipRow :=
  orderBy (fun row => row.1.2.relationshipFactId)
    (join (c.currentRelationships gid) c.facts.extractorRun.rows fun p er =>
      er.extractorRunId = p.2.extractorRunId)

/-- The resolution that a generation has for a fact. -/
def resolutionOf (truth : Truth) (gid factId : String) : Option RelationshipResolution :=
  truth.resolutions.find? fun r => r.generationId = gid ∧ r.relationshipFactId = factId

/-- The state and the target that an edge is given. -/
def edgeTarget (resolution : Option RelationshipResolution) (rawValue : String) :
    ResolutionStatus × RefKind × String :=
  match resolution with
  | none => (.unresolved, .external, rawValue)
  | some r =>
    match r.status, r.resolvedRefValue with
    | .resolvedSymbol, some value => (.resolvedSymbol, .symbol, value)
    | .resolvedFile, some value => (.resolvedFile, .path, value)
    | .external, value => (.external, .external, value.getD rawValue)
    | .ambiguous, _ => (.ambiguous, .external, rawValue)
    | .invalid, _ => (.invalid, .external, rawValue)
    | .stale, _ => (.stale, .external, rawValue)
    | _, _ => (.unresolved, .external, rawValue)

/-- The edge of a row. -/
def servingEdge (H : Hasher) (truth : Truth) (gid sgid : String) (row : RelationshipRow) :
    ServingEdge :=
  let f := row.1.2
  let target := edgeTarget (resolutionOf truth gid f.relationshipFactId) f.targetRefValue
  { servingGenerationId := sgid
    edgeId := deterministicId H "edge" [sgid, f.relationshipFactId]
    sourceEntityId := entityIdFor f.sourceRefKind f.sourceRefValue
    targetEntityId := entityIdFor target.2.1 target.2.2
    relationshipType := f.relationshipType
    resolutionState := target.1
    trustClass := trustClassFor target.1 f.evidenceMethod f.confidence
    preferredFactId := some f.relationshipFactId
    providerTier := some row.2.providerTier
    confidence := f.confidence
    canonicalPath := some row.1.1.canonicalPath }

/-- `project_relationship_edges`. -/
def projectRelationshipEdges (H : Hasher) (truth : Truth) (gid sgid : String)
    (t : Table ServingEdge) : Except AtlasError (Table ServingEdge) :=
  insertRows "relationship_serving_edge" t
    ((relationshipRowsOf truth.catalogue gid).map (servingEdge H truth gid sgid))

/-! ## `build_serving_generation` -/

/-- `delete_serving_generation`, with what the deletion cascades to. -/
def deleteServingGeneration (p : ServingPlane) (sgid : String) : ServingPlane where
  servingGeneration := p.servingGeneration.delete fun g => g.servingGenerationId = sgid
  symbolCard := p.symbolCard.delete fun card => card.servingGenerationId = sgid
  edge := p.edge.delete fun e => e.servingGenerationId = sgid

/-- `SET state = 'ready', card_count = ?2, edge_count = ?3`. -/
def markReady (cardCount edgeCount : ℕ) : Table.Update ServingGeneration where
  toFun g := { g with state := .ready, cardCount := cardCount, edgeCount := edgeCount }
  clash_left _ _ := Iff.rfl

/-- The transaction of `build_serving_generation_with_policy`.  Its validation compares the
numbers of insertions with those of the rows, which are stored. -/
def buildWithPolicy (H : Hasher) (truth : Truth) (p : ServingPlane)
    (workspaceId schema policy : String) : Except AtlasError ServingPlane :=
  match activeGeneration? truth.catalogue workspaceId with
  | none => .error (.other
      "cannot build a Serving Plane projection: workspace has no active generation")
  | some gid => do
    let sgid := servingGenerationId H workspaceId gid schema policy
    let p := deleteServingGeneration p sgid
    let generations ← insertRows "serving_generation" p.servingGeneration
      [⟨sgid, workspaceId, gid, schema, policy, .building, 0, 0⟩]
    let cards ← projectSymbolCards truth gid sgid p.symbolCard
    let edges ← projectRelationshipEdges H truth gid sgid p.edge
    .ok { servingGeneration := generations.update (fun g => g.servingGenerationId = sgid)
            (markReady (cards.count fun card => card.servingGenerationId = sgid)
              (edges.count fun e => e.servingGenerationId = sgid))
          symbolCard := cards
          edge := edges }

/-- `build_serving_generation`. -/
def buildServingGeneration (H : Hasher) (truth : Truth) (p : ServingPlane)
    (workspaceId : String) : Except AtlasError ServingPlane :=
  buildWithPolicy H truth p workspaceId servingSchemaVersion projectionPolicyVersion

/-! ## What a build leaves -/

/-- The projection `sgid` of the generation `gid` is ready and has the cards and edges of the
truth. -/
structure Projected (H : Hasher) (truth : Truth) (p : ServingPlane) (workspaceId gid schema policy
    sgid : String) : Prop where
  ready : ∃ g ∈ p.servingGeneration, g.servingGenerationId = sgid ∧ g.state = .ready ∧
    g.identity = (workspaceId, gid, schema, policy)
  cards : (p.symbolCard.rows.filter fun card => card.servingGenerationId = sgid) =
    (firsts SymbolRow.key none (symbolRowsOf truth.catalogue gid)).map
      (symbolCard truth gid sgid)
  edges : p.edgesOf sgid =
    (relationshipRowsOf truth.catalogue gid).map (servingEdge H truth gid sgid)

section Lemmas

variable {H : Hasher} {truth : Truth} {p p' : ServingPlane} {ws gid schema policy sgid : String}

lemma insertRows_ok {ρ : Type} [Keyed ρ] {name : String} {t t' : Table ρ} {rows : List ρ}
    (h : insertRows name t rows = .ok t') : t'.rows = t.rows ++ rows := by
  refine loop_invariant (I := fun done (u : Table ρ) => u.rows = t.rows ++ done)
    (by simp) ?_ h
  intro done row rest u u' _ hu hok
  split at hok
  next u'' hins =>
    obtain rfl := Except.ok.inj hok
    rw [Table.rows_of_insert? hins, hu, List.append_assoc]
  next => exact absurd hok (by simp)

/-- Of the rows that are left, those of the projection are the inserted ones. -/
lemma filter_of_insertRows {ρ : Type} [Keyed ρ] {name : String} {t t' : Table ρ} {rows : List ρ}
    {q : ρ → Bool} (h : insertRows name (t.delete q) rows = .ok t')
    (hrows : ∀ r ∈ rows, q r = true) : t'.rows.filter q = rows := by
  have hnone : (t.delete q).rows.filter q = [] := by
    refine List.filter_eq_nil_iff.mpr fun r hr => ?_
    simp [(Table.mem_delete.mp hr).2]
  rw [insertRows_ok h, List.filter_append, hnone, List.nil_append]
  exact List.filter_eq_self.mpr hrows

/-- **The build** of a projection. -/
theorem buildWithPolicy_ok (h : buildWithPolicy H truth p ws schema policy = .ok p') :
    ∃ gid, activeGeneration? truth.catalogue ws = some gid ∧
      Projected H truth p' ws gid schema policy
        (servingGenerationId H ws gid schema policy) := by
  unfold buildWithPolicy at h
  split at h
  next => exact absurd h (by simp)
  next gid hactive =>
    simp only [bind_ok] at h
    obtain ⟨generations, hgen, cards, hcards, edges, hedges, heq⟩ := h
    obtain rfl := Except.ok.inj heq
    refine ⟨gid, hactive, ?_, ?_, ?_⟩
    · have hmem : (⟨servingGenerationId H ws gid schema policy, ws, gid, schema, policy, .building,
          0, 0⟩ : ServingGeneration) ∈ generations := by
        rw [Table.mem_def, insertRows_ok hgen]
        simp
      exact ⟨_, Table.mem_update_of_mem hmem (by simp), rfl, rfl, rfl⟩
    · refine filter_of_insertRows hcards fun card hcard => ?_
      obtain ⟨row, -, rfl⟩ := List.mem_map.mp hcard
      simp [symbolCard]
    · refine filter_of_insertRows hedges fun e he => ?_
      obtain ⟨row, -, rfl⟩ := List.mem_map.mp he
      simp [servingEdge]

end Lemmas

end WorkspaceAtlas
