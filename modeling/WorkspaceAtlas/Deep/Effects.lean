/-
# The effects of the selected entities

`populate_deep_v2_effect_closure` in `task_compiler.rs`.  For every symbol and file of the
working set its effect facts are read in order, as far as the work of the request allows.  Of
the facts of one entity with one type the first one becomes an item of the working set; it is
this one whose evidence is looked at.
-/
import WorkspaceAtlas.Deep.Roles
import WorkspaceAtlas.Deep.Staged
import WorkspaceAtlas.Serving.Store

namespace WorkspaceAtlas.Deep

open Relational Transition ContextRoute

/-! ## What is read -/

/-- A row of `effect_fact`. -/
structure EffectFact extends WorkspaceAtlas.EffectFact where
  effectType : String
  phase : String
  evidenceMethod : EvidenceMethod
  confidence : ℚ
  deriving DecidableEq, Repr

instance : Keyed EffectFact := .ofKey fun ef => ef.effectFactId

/-- The tables that effects are read from. -/
structure EffectStore where
  effectFact : Table EffectFact
  generationFile : Table GenerationFile
  fileRevision : Table FileRevision
  evidenceConflict : Table EvidenceConflict

/-- A row of the query. -/
structure EffectRow where
  effectFactId : String
  effectType : String
  phase : String
  evidenceMethod : EvidenceMethod
  confidence : ℚ
  contentHash : String
  conflicting : Bool
  deriving DecidableEq, Repr

/-- An entity: the kind of the reference to it, and what is referred to. -/
abbrev Subject := String × String

/-- `subject_ref_kind` in the column. -/
def refKindText : RefKind → String
  | .symbol => "symbol"
  | .path => "path"
  | .external => "external"

/-- The effect has a conflict that is not settled. -/
def EffectStore.isConflicting (store : EffectStore) (generationId effectFactId : String) : Bool :=
  store.evidenceConflict.rows.any fun ec => ec.generationId = generationId ∧
    ec.subjectKind = .effect ∧ ec.subjectKey = effectFactId ∧
    ec.status ∈ [ConflictStatus.open_, .preferredWithConflict, .unresolved]

/-- The rows of the query, without its limit. -/
def EffectStore.effectRows (store : EffectStore) (generationId : String) (subject : Subject) :
    List EffectRow :=
  let facts := store.effectFact.rows.filter fun ef =>
    refKindText ef.subjectRefKind = subject.1 ∧ ef.subjectRefValue = subject.2
  let revised := join facts store.generationFile.rows fun ef gf =>
    gf.generationId = generationId ∧ gf.revisionId = some ef.revisionId ∧
      gf.presenceState = .present
  let joined := join revised store.fileRevision.rows fun row fr =>
    row.2.revisionId = some fr.revisionId
  orderBy (fun row : EffectRow => toLex (row.effectType, row.effectFactId))
    (joined.map fun ((ef, _), fr) =>
      { effectFactId := ef.effectFactId
        effectType := ef.effectType
        phase := ef.phase
        evidenceMethod := ef.evidenceMethod
        confidence := ef.confidence
        contentHash := fr.contentHash
        conflicting := store.isConflicting generationId ef.effectFactId })

/-- `strip_prefix`. -/
def stripStart (start s : String) : Option String :=
  if start.toList.isPrefixOf s.toList then
    some (String.ofList (s.toList.drop start.toList.length))
  else none

/-- The entity that an item of the working set is about. -/
def subjectOf (item : IrWorkingSetItemV2 ℚ) : Option Subject :=
  match item.entityKind with
  | .symbol => (stripStart "symbol:" item.entityId).map ("symbol", ·)
  | .file => (stripStart "path:" item.entityId).map ("path", ·)
  | _ => none

/-- The entities whose effects are read. -/
def effectSubjects (workingSet : List (IrWorkingSetItemV2 ℚ)) : List Subject :=
  (orderBy (fun subject => toLex subject) (workingSet.filterMap subjectOf)).dedup

/-- The id of an entity. -/
def subjectEntityId (subject : Subject) : String := subject.1 ++ ":" ++ subject.2

/-- What a fact is told apart by. -/
def effectKey (subject : Subject) (row : EffectRow) : String × String :=
  (subjectEntityId subject, row.effectType)

/-! ## Notices and omissions -/

/-- Sorted and without repetitions. -/
def sortDedup (ids : List String) : List String := (orderBy id ids).dedup

/-- The first notice with the code names more entities. -/
def extendNotice (code : IrOmissionReasonV2) (entityIds : List String) :
    List IrNoticeV2 → List IrNoticeV2
  | [] => []
  | notice :: rest =>
    if notice.code = code then
      { notice with entityIds := sortDedup (notice.entityIds ++ entityIds) } :: rest
    else notice :: extendNotice code entityIds rest

/-- `add_temporal_notice`. -/
def addTemporalNotice (document : DeepContextIrV2 ℚ) (code : IrOmissionReasonV2)
    (entityIds : List String) : DeepContextIrV2 ℚ :=
  if entityIds = [] ∧
      code ∉ [IrOmissionReasonV2.recordBudget, .temporalEvidenceUnavailable, .workUnitBudget] then
    document
  else if document.uncertainty.any fun notice => notice.code = code then
    { document with
      uncertainty := extendNotice code (sortDedup entityIds) document.uncertainty }
  else
    { document with
      uncertainty := orderBy IrNoticeV2.code
        (document.uncertainty ++ [⟨code, .warning, sortDedup entityIds⟩]) }

/-- `record_closure_omission`. -/
def recordClosureOmission (document : DeepContextIrV2 ℚ) (reason : IrOmissionReasonV2)
    (count : ℕ) : Except AtlasError (DeepContextIrV2 ℚ) := do
  let considered ← checkedAdd (.invalidConfig "role closure candidate count overflow")
    document.omissions.candidatesConsidered count
  let omitted ← checkedAdd (.invalidConfig "role closure omission count overflow")
    document.omissions.omitted count
  let reasonCount ← checkedAdd (.invalidConfig "role closure omission count overflow")
    ((document.omissions.byReason.get reason).getD 0) count
  return { document with
    omissions := { document.omissions with
      candidatesConsidered := considered
      omitted := omitted
      byReason := document.omissions.byReason.insert reason reasonCount
      truncated := true } }

/-! ## Candidates -/

/-- `DeepV2SeedCandidate`. -/
structure DeepV2SeedCandidate where
  budget : DeepV2BudgetCandidate
  item : IrWorkingSetItemV2 ℚ

/-- `HopEndpoint`. -/
structure HopEndpoint where
  kind : EntityKind
  value : String

/-- `HopEndpoint::entity_id`. -/
def HopEndpoint.entityId (endpoint : HopEndpoint) : String :=
  match endpoint.kind with
  | .symbol => "symbol:" ++ endpoint.value
  | .file => "path:" ++ endpoint.value
  | _ => "external:" ++ endpoint.value

/-- `HopEndpoint::from_entity_id`. -/
def HopEndpoint.fromEntityId (entityId : String) : HopEndpoint :=
  match stripStart "symbol:" entityId with
  | some value => ⟨.symbol, value⟩
  | none =>
    match stripStart "path:" entityId with
    | some value => ⟨.file, value⟩
    | none => ⟨.external, (stripStart "external:" entityId).getD entityId⟩

/-- `deep_v2_closure_candidate`. -/
def deepV2ClosureCandidate (H : Hasher) (generationId factId : String) (neighbor : HopEndpoint)
    (role : ItemRole) (reason : SelectionReason) (originId : String) (distance rank : ℕ)
    (evidence : IrEvidence ℚ) : Except AtlasError DeepV2SeedCandidate := do
  let entityId := neighbor.entityId
  let itemId := deterministicId H "item" ["role-closure", generationId, factId, entityId]
  let metadataBytes ← checkedAdd (.invalidConfig "role closure metadata overflow")
    (utf8 itemId).length (utf8 entityId).length
  let estimatedTokens := max ((metadataBytes + 3) / 4) 1
  return {
    item := {
      itemId := itemId
      entityKind := neighbor.kind
      entityId := entityId
      role := role
      selectionReason := reason
      originId := some originId
      distance := distance
      rank := rank
      evidence := evidence
      cost := ⟨metadataBytes, 0, estimatedTokens⟩
      source := none }
    budget := {
      candidateId := itemId
      rank := rank
      sourceBytes := 0
      estimatedTokens := estimatedTokens
      relationshipDepth := distance
      workUnits := 1
      uncertainty := false } }

/-- `effect_phase_from_db`. -/
def effectPhaseFromDb (value : String) : EffectPhase :=
  if value = "transitive" then .transitive
  else if value = "declared" then .declared
  else if value = "observed" then .observed
  else .direct

/-- `evidence_quality_for`.  A double is at least the constant `0.90` if and only if it is at
least nine tenths, since the constant is the double next to it. -/
def evidenceQualityFor (evidenceState : EvidenceMethod) (confidence : ℚ) : EvidenceQuality :=
  if evidenceState ∈ [EvidenceMethod.semantic, .exact] ∧ 90 / 100 ≤ confidence then .verified
  else if evidenceState ∈ [EvidenceMethod.structural, .declared, .observed] then .supported
  else if 50 / 100 ≤ confidence then .inferred
  else .unsupported

/-- The quality of a fact. -/
def EffectRow.quality (row : EffectRow) : EvidenceQuality :=
  if row.conflicting then .conflicting else evidenceQualityFor row.evidenceMethod row.confidence

/-- The evidence of a fact. -/
def EffectRow.evidence (generationId : String) (row : EffectRow) : IrEvidence ℚ where
  state := row.quality
  confidence := row.confidence
  providerFingerprint := none
  sourceRevisionHash := some row.contentHash
  generationId := generationId
  preferred := some (!row.conflicting)
  alternativeCount := some (if row.conflicting then 1 else 0)

/-! ## The closure -/

/-- The variables of the loop over the rows of one entity. -/
structure EffectScan where
  seenEffects : List (String × String)
  document : DeepContextIrV2 ℚ
  deficits : List DeepV2RoleDeficit
  candidates : List DeepV2SeedCandidate
  effects : List (String × IrEffect ℚ)

/-- A fact in question is recorded and the entity is named. -/
def EffectScan.note (c : EffectScan) (subject : Subject) (quality : EvidenceQuality) :
    EffectScan :=
  match evidenceReasonForQuality quality with
  | none => c
  | some reason =>
    { c with
      deficits := recordRoleDeficit .effect reason c.deficits
      document := addTemporalNotice c.document reason [subjectEntityId subject] }

/-- The body of the loop over the rows of one entity; `startingRank` is the length of the
working set before it. -/
def scanEffect (H : Hasher) (subject : Subject) (startingRank : ℕ) (c : EffectScan)
    (row : EffectRow) : Except AtlasError EffectScan :=
  if effectKey subject row ∈ c.seenEffects then .ok c
  else do
    let c := { c with seenEffects := effectKey subject row :: c.seenEffects }.note subject
      row.quality
    let evidence := row.evidence c.document.workspace.generationId
    let candidate ← deepV2ClosureCandidate H c.document.workspace.generationId row.effectFactId
      (.fromEntityId (subjectEntityId subject)) .effect .effectRelation row.effectFactId 0
      (startingRank + c.candidates.length) evidence
    return { c with
      effects := c.effects ++ [(candidate.item.itemId,
        ⟨subjectEntityId subject, row.effectType, effectPhaseFromDb row.phase, evidence⟩)]
      candidates := c.candidates ++ [candidate] }

/-- The variables of the loop over the entities. -/
structure EffectState where
  document : DeepContextIrV2 ℚ
  workLedger : DeepWorkLedger
  deficits : List DeepV2RoleDeficit
  seenEffects : List (String × String)

/-- The rows of an entity that the work allows. -/
def effectRowLimit (remaining maxRecords : ℕ) : ℕ := min ((remaining - 1) / 2) maxRecords

/-- The work does not allow all rows. -/
def omitEffects (document : DeepContextIrV2 ℚ) (deficits : List DeepV2RoleDeficit) :
    Except AtlasError (DeepContextIrV2 ℚ × List DeepV2RoleDeficit) := do
  let document ← recordClosureOmission document .workUnitBudget 1
  return (addTemporalNotice document .workUnitBudget [],
    recordRoleDeficit .effect .workUnitBudget deficits)

/-- What a read that is short leaves behind. -/
def markShort (rowLimit fetched : ℕ) (document : DeepContextIrV2 ℚ)
    (deficits : List DeepV2RoleDeficit) :
    Except AtlasError (DeepContextIrV2 ℚ × List DeepV2RoleDeficit) :=
  if rowLimit < fetched then omitEffects document deficits else .ok (document, deficits)

/-- The candidates are packed behind the working set. -/
def packEffects (c : EffectScan) (workLedger : DeepWorkLedger) :
    Except AtlasError EffectState := do
  let (granted, ledger) ← workLedger.tryCharge c.candidates.length
  ensure (granted = true)
    (.invalidConfig "effect packing exceeded its reserved request work")
  let document := { c.document with
    cost := { c.document.cost with workUnitsConsumed := ledger.consumed } }
  let outcome ← enforcePrechargedAdditionalDeepV2Budget document
    (c.candidates.map DeepV2SeedCandidate.budget) none ledger
  let isSelected := fun id => id ∈ outcome.selectedCandidateIds
  return {
    document := { document with
      workingSet := document.workingSet ++
        (c.candidates.map DeepV2SeedCandidate.item).filter fun item => isSelected item.itemId
      effects := document.effects ++
        (c.effects.filter fun effect => isSelected effect.1).map Prod.snd
      cost := outcome.cost
      omissions := outcome.omissions }
    workLedger := ledger
    deficits := outcome.omittedCandidates.foldl (fun deficits omitted =>
      match c.candidates.find? fun candidate => candidate.budget.candidateId = omitted.1 with
      | none => deficits
      | some candidate => recordRoleDeficit candidate.item.role omitted.2 deficits) c.deficits
    seenEffects := c.seenEffects }

/-- The body of the loop over the entities, with a limit that is not zero. -/
def populateEffects (H : Hasher) (store : EffectStore) (subject : Subject) (rowLimit : ℕ)
    (s : EffectState) : Except AtlasError EffectState := do
  let fetchLimit ← checkedAdd (.invalidConfig "effect frontier overflow") rowLimit 1
  let (reservation, ledger) ← s.workLedger.reserveSqlRows fetchLimit
  ensure (fetchLimit < 2 ^ 63) (.invalidConfig "effect frontier exceeds SQLite range")
  let fetched :=
    (store.effectRows s.document.workspace.generationId subject).take fetchLimit
  let ledger ← ledger.settleSqlRows reservation fetched.length
  let (document, deficits) ← markShort rowLimit fetched.length s.document s.deficits
  let c ← (fetched.take rowLimit).foldlM (scanEffect H subject document.workingSet.length)
    ⟨s.seenEffects, document, deficits, [], []⟩
  packEffects c ledger

/-- The loop over the entities, which ends early when the work allows no row. -/
def effectLoop (H : Hasher) (store : EffectStore) :
    List Subject → EffectState → Except AtlasError EffectState
  | [], s => .ok s
  | subject :: rest, s =>
    let rowLimit := effectRowLimit s.workLedger.remaining
      s.document.policy.semanticBudget.maxRecords
    if rowLimit = 0 then do
      let (document, deficits) ← omitEffects s.document s.deficits
      return { s with document := document, deficits := deficits }
    else do
      let s ← populateEffects H store subject rowLimit s
      effectLoop H store rest s

/-- The order of the effects of a document. -/
def sortEffects (document : DeepContextIrV2 ℚ) : DeepContextIrV2 ℚ :=
  { document with
    effects := orderBy (fun effect => toLex (effect.subjectEntityId, effect.effectType))
      document.effects }

/-- `populate_deep_v2_effect_closure`. -/
def populateDeepV2EffectClosure (H : Hasher) (store : EffectStore)
    (document : DeepContextIrV2 ℚ) (workLedger : DeepWorkLedger)
    (deficits : List DeepV2RoleDeficit) :
    Except AtlasError (DeepContextIrV2 ℚ × DeepWorkLedger × List DeepV2RoleDeficit) :=
  if .effect ∉ (deepV2RoleRecipe document.task.taskKind).requiredRoles then
    .ok (document, workLedger, deficits)
  else do
    let s ← effectLoop H store (effectSubjects document.workingSet)
      ⟨document, workLedger, deficits, []⟩
    return (sortEffects s.document, s.workLedger, s.deficits)

end WorkspaceAtlas.Deep
