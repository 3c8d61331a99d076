/-
# The life cycle of a task session

The operations of `task_session.rs` on the state of a session: it is started, moved on by the
events of its timeline and by the activation of a generation, and completed or abandoned.  Each
of them is one transaction, which leaves the database as it was if it fails.
-/
import WorkspaceAtlas.Catalogue.Stamp
import WorkspaceAtlas.Delta.Store
import WorkspaceAtlas.Session.TaskSession

namespace WorkspaceAtlas

open Relational Transition
open Text (Json)

/-! ## States -/

/-- The states that no transition leaves. -/
def TaskSessionState.isTerminal (state : TaskSessionState) : Bool :=
  state ∈ [TaskSessionState.completed, .abandoned, .failed]

/-- `is_valid_transition`. -/
def isValidTransition (current target : TaskSessionState) : Bool :=
  if current.isTerminal then false
  else if target = .failed then true
  else (current, target) ∈ [(TaskSessionState.created, TaskSessionState.contextCompiled),
    (.contextCompiled, .active), (.active, .reconciled), (.reconciled, .completed),
    (.reconciled, .abandoned), (.active, .abandoned)]

/-- `SET state = target`. -/
def setState (target : TaskSessionState) : Table.Update TaskSession where
  toFun ts := { ts with state := target }
  clash_left _ _ := Iff.rfl

/-- `SET start_tree_hash`. -/
def setStartTree (startTreeHash : String) : Table.Update TaskSession where
  toFun ts := { ts with startTreeHash := some startTreeHash }
  clash_left _ _ := Iff.rfl

/-- What a completion sets. -/
def setCompleted (endGenerationId : String) (accepted : Bool) (testsPassed : Option Bool)
    (outcomeCode endTreeHash : String) (completedAt : Timestamp) : Table.Update TaskSession where
  toFun ts :=
    { ts with
      state := .completed
      endGenerationId := some endGenerationId
      accepted := some accepted
      testsPassed := testsPassed
      outcomeCode := some outcomeCode
      endTreeHash := some endTreeHash
      completedAt := some completedAt }
  clash_left _ _ := Iff.rfl

/-- What an abandonment sets. -/
def setAbandoned (reason : String) (completedAt : Timestamp) : Table.Update TaskSession where
  toFun ts :=
    { ts with
      state := .abandoned
      outcomeCode := some reason
      completedAt := some completedAt }
  clash_left _ _ := Iff.rfl

/-- What is refused as an illegal transition. -/
def illegalTransition (current target : TaskSessionState) : AtlasError :=
  .invalidConfig ("illegal task_session transition: " ++ stateStr current ++ " -> " ++ stateStr target)

/-- What is refused for a session that is not there. -/
def notFound (taskSessionId : String) : AtlasError :=
  .other ("task_session " ++ taskSessionId ++ " not found")

/-! ## Events -/

/-- `ContextUseEvent`, as it is handed over for a session. -/
structure ContextUse where
  eventId : String
  contextId : Option String
  itemId : Option String
  entityId : Option String
  eventType : ContextUseEventType
  observationSource : ObservationSource
  occurredAt : String
  bytes : Option ℤ
  details : Json

/-- The row of an event. -/
def ContextUse.row (event : ContextUse) (taskSessionId : String) : ContextUseEvent where
  eventId := event.eventId
  taskSessionId := taskSessionId
  contextId := event.contextId
  itemId := event.itemId
  entityId := event.entityId
  eventType := event.eventType
  observationSource := event.observationSource
  byteCount := event.bytes.map Int.toNat
  detailsJson := String.ofList event.details.write
  occurredAt := event.occurredAt

/-- `Value::get` and `Value::as_str`. -/
def textField (name : String) : Json → Option String
  | .obj fields => (fields.find? fun field => field.1 = name).bind fun field => field.2.asString
  | _ => none

/-- Whether an event activates a session, and whether only one that is bound to a tree. -/
def activationKind (event : ContextUse) : Option Bool :=
  match event.eventType with
  | .contextSupplied | .relationshipTraversed | .contextRecompiled => some true
  | .entityQueried => some false
  | .exactSourceRequested =>
    if textField "status" event.details = some "verified" then some false else none
  | _ => none

/-- `MAX_DETAILS_BYTES`. -/
def maxDetailsBytes : ℕ := 4096

/-- `event_id_for`. -/
def eventIdFor (H : Hasher) (taskSessionId : String) (eventType : ContextUseEventType)
    (discriminator : String) : String :=
  deterministicId H "evt" [taskSessionId, eventType.asStr, discriminator]

/-- The text of an optional value. -/
def optionalStr (x : Option String) : Json := x.elim .null .str

/-- The text of an optional truth value. -/
def optionalBool (x : Option Bool) : Json := x.elim .null .bool

/-- The event of a changed file. -/
def artifactChangeEvent (H : Hasher) (taskSessionId : String) (delta : Delta.GenerationDelta)
    (occurredAt : String) (change : Delta.DeltaChange) : ContextUse where
  eventId := eventIdFor H taskSessionId .artifactChanged
    (delta.deltaId ++ ":" ++ change.changeKind.asStr ++ ":" ++ change.entityId)
  contextId := none
  itemId := some delta.deltaId
  entityId := some change.entityId
  eventType := .artifactChanged
  observationSource := .atlasObserved
  occurredAt := occurredAt
  bytes := none
  details := .obj [("after_id", optionalStr change.afterId),
    ("before_id", optionalStr change.beforeId), ("change_kind", .str change.changeKind.asStr),
    ("delta_id", .str delta.deltaId), ("evidence_state", .str change.evidenceState.asStr),
    ("from_generation_id", .str delta.fromGenerationId),
    ("reason_codes", .arr (change.reasonCodes.map .str)),
    ("to_generation_id", .str delta.toGenerationId)]

/-- `artifact_change_events`. -/
def artifactChangeEvents (H : Hasher) (taskSessionId : String) (delta : Delta.GenerationDelta)
    (occurredAt : String) : List ContextUse :=
  delta.files.map (artifactChangeEvent H taskSessionId delta occurredAt)

/-- What a completion is told. -/
structure Outcome where
  accepted : Bool
  testsPassed : Option Bool
  outcomeCode : String
  deriving DecidableEq, Repr

/-- The event of a completion. -/
def outcomeEvent (H : Hasher) (taskSessionId : String) (delta : Delta.GenerationDelta)
    (outcome : Outcome) (endTreeHash occurredAt : String) : ContextUse where
  eventId := eventIdFor H taskSessionId .outcomeRecorded "completion"
  contextId := none
  itemId := some delta.deltaId
  entityId := none
  eventType := .outcomeRecorded
  observationSource := .agentReported
  occurredAt := occurredAt
  bytes := none
  details := .obj [("accepted", .bool outcome.accepted), ("delta_hash", .str delta.deltaHash),
    ("delta_id", .str delta.deltaId), ("end_generation_id", .str delta.toGenerationId),
    ("end_tree_hash", .str endTreeHash), ("outcome_code", .str outcome.outcomeCode),
    ("tests_passed", optionalBool outcome.testsPassed)]

/-- `ExactSourceRequestKind`. -/
inductive ExactSourceRequestKind where
  | source
  | sourceRange (startLine endLine : ℤ)
  deriving DecidableEq, Repr

namespace ExactSourceRequestKind

/-- The text of a kind. -/
def asStr : ExactSourceRequestKind → String
  | source => "source"
  | sourceRange .. => "source_range"

/-- The lines that are asked for. -/
def lines : ExactSourceRequestKind → List (String × Json)
  | source => []
  | sourceRange startLine endLine =>
    [("requested_end_line", .num endLine), ("requested_start_line", .num startLine)]

end ExactSourceRequestKind

/-- The statuses of a request for an exact source. -/
def exactSourceStatuses : List String := ["verified", "hash_mismatch", "not_found", "read_failed"]

/-- What is asked of an exact source, and how it ended. -/
structure ExactSourceRequest where
  canonicalPath : String
  requestKind : ExactSourceRequestKind
  status : String
  bytes : Option ℤ
  deriving DecidableEq, Repr

/-- The event of a request for an exact source. -/
def exactSourceEvent (H : Hasher) (taskSessionId : String) (request : ExactSourceRequest)
    (requestOrdinal : ℕ) (occurredAt : String) : ContextUse where
  eventId := eventIdFor H taskSessionId .exactSourceRequested
    ("request:" ++ toString requestOrdinal)
  contextId := none
  itemId := none
  entityId := none
  eventType := .exactSourceRequested
  observationSource := .atlasObserved
  occurredAt := occurredAt
  bytes := request.bytes
  details := .obj ([("path_hash", .str (contentHashOfBytes H (utf8 request.canonicalPath))),
    ("request_kind", .str request.requestKind.asStr), ("request_ordinal", .num requestOrdinal)] ++
      request.requestKind.lines ++ [("status", .str request.status)])

/-! ## Requests -/

/-- `LegacyLifecycleError`. -/
inductive LegacyLifecycleError where
  | atlas (error : AtlasError)
  | durableContractUnavailable
  | cursorInvalid
  | cursorStale
  deriving DecidableEq, Repr

/-- `LegacyTaskSessionIdentity`. -/
structure LegacyTaskSessionIdentity where
  workspaceId : String
  startGenerationId : String
  taskHash : String
  normalizedGoalHash : String
  taskKind : TaskKind
  kindSource : TaskKindSource
  kindRuleId : Option String
  deriving DecidableEq, Repr

/-- The identity of a session. -/
def TaskSession.identity (ts : TaskSession) : LegacyTaskSessionIdentity :=
  ⟨ts.workspaceId, ts.startGenerationId, ts.taskHash, ts.normalizedGoalHash, ts.taskKind,
    ts.taskKindSource, ts.taskKindRuleId⟩

/-- `LegacyTaskStartRequest`. -/
structure LegacyTaskStartRequest where
  contextIrVersion : String
  task : String
  declaredKind : Option TaskKind
  deriving DecidableEq, Repr

/-- `LegacyTaskCompleteRequest`. -/
structure LegacyTaskCompleteRequest extends Outcome where
  contextIrVersion : String
  deriving DecidableEq, Repr

/-- `LegacyTaskAbandonReason`. -/
inductive LegacyTaskAbandonReason where
  | userRequested
  | inactivityTimeout
  deriving DecidableEq, Repr

/-- The text of a reason. -/
def LegacyTaskAbandonReason.asStr : LegacyTaskAbandonReason → String
  | userRequested => "user_requested"
  | inactivityTimeout => "inactivity_timeout"

/-- `LegacyTaskAbandonRequest`. -/
structure LegacyTaskAbandonRequest where
  contextIrVersion : String
  reason : LegacyTaskAbandonReason
  deriving DecidableEq, Repr

/-- `MAX_GOVERNOR_REQUEST_BYTES`. -/
def maxGovernorRequestBytes : ℕ := 1024 * 1024

/-- `MAX_OUTCOME_CODE_BYTES`. -/
def maxOutcomeCodeBytes : ℕ := 128

/-- `require_legacy_contract`. -/
def requireLegacyContract (version : String) : Except LegacyLifecycleError Unit :=
  ensure (version = legacyLifecycleContractVersion) .durableContractUnavailable

namespace SessionStore

/-! ## Moving on -/

/-- An `UPDATE` that has to meet one session. -/
def changeSession (s : SessionStore) (p : TaskSession → Bool) (f : Table.Update TaskSession)
    (message : String) : Except AtlasError SessionStore :=
  if s.taskSession.count p = 1 then .ok (s.updateSessions p f) else .error (.other message)

/-- The session in a state. -/
def isIn (taskSessionId : String) (state : TaskSessionState) (ts : TaskSession) : Bool :=
  ts.taskSessionId = taskSessionId ∧ ts.state = state

/-- `validate_legacy_session`. -/
def validateLegacySession (s : SessionStore) (taskSessionId : String)
    (workspaceId : Option String) (identity : Option LegacyTaskSessionIdentity) :
    Except AtlasError TaskSessionState := do
  let missing := AtlasError.invalidConfig ("task session " ++ taskSessionId ++ " does not exist")
  let ts ← s.session taskSessionId missing
  let g ← (s.catalogue.indexGeneration.find? fun g =>
    g.generationId = ts.startGenerationId).elim (.error missing) .ok
  ensure (ts.contextIrVersion = legacyLifecycleContractVersion ∧ g.state = .committed ∧
      (∀ id ∈ workspaceId, ts.workspaceId = id) ∧ ∀ id ∈ identity, ts.identity = id)
    (.invalidConfig ("legacy task session identity mismatch for " ++ taskSessionId))
  ensure (ts.state.isTerminal = false) (.invalidConfig
    ("legacy task session " ++ taskSessionId ++ " is terminal (" ++ stateStr ts.state ++ ")"))
  return ts.state

/-- A session in the state `current` goes on to the next one, if this applies. -/
def advance (s : SessionStore) (taskSessionId : String) (applies : Bool)
    (current target : TaskSessionState) : Except AtlasError SessionStore :=
  if applies then s.changeSession (isIn taskSessionId current) (setState target)
    ("task_session " ++ taskSessionId ++ " changed during activation")
  else .ok s

/-- `activate_validated_legacy_session`. -/
def activateValidatedLegacySession (s : SessionStore) (taskSessionId : String)
    (workspaceId : Option String) (identity : Option LegacyTaskSessionIdentity) :
    Except AtlasError SessionStore := do
  let state ← s.validateLegacySession taskSessionId workspaceId identity
  let s ← s.advance taskSessionId (state = .created) .created .contextCompiled
  s.advance taskSessionId (state = .created ∨ state = .contextCompiled) .contextCompiled .active

/-- The session is bound to the tree it started with. -/
def isBound (s : SessionStore) (taskSessionId : String) : Bool :=
  (s.loadTaskSession taskSessionId).any fun ts => ts.startTreeHash.isSome

/-- `activate_legacy_task_session`. -/
def activateLegacyTaskSession (s : SessionStore) (taskSessionId : String)
    (identity : LegacyTaskSessionIdentity) : Except AtlasError SessionStore := do
  let _ ← s.validateLegacySession taskSessionId (some identity.workspaceId) (some identity)
  if s.isBound taskSessionId then
    s.activateValidatedLegacySession taskSessionId (some identity.workspaceId) (some identity)
  else return s

/-- `transition_task_session`. -/
def transitionTaskSession (s : SessionStore) (taskSessionId : String)
    (target : TaskSessionState) :
    Except AtlasError SessionStore := do
  let ts ← s.session taskSessionId (notFound taskSessionId)
  ensure (isValidTransition ts.state target = true) (illegalTransition ts.state target)
  return s.updateSessions (fun ts => ts.taskSessionId = taskSessionId) (setState target)

/-! ## The timeline -/

/-- `INSERT INTO context_use_event`. -/
def insertEvent (s : SessionStore) (taskSessionId : String) (event : ContextUse) :
    Except AtlasError SessionStore := do
  let details := event.details.write
  ensure ((utf8 (String.ofList details)).length ≤ maxDetailsBytes) (.invalidConfig
    ("context_use_event.details exceeds the " ++ toString maxDetailsBytes ++ "-byte bound (" ++
      toString (utf8 (String.ofList details)).length ++
      " bytes) -- telemetry must stay bounded metadata, not a raw payload dump"))
  ensure (∀ n ∈ event.bytes, 0 ≤ n) (.sqlite (.failure
    "CHECK constraint failed: byte_count IS NULL OR byte_count >= 0"))
  let events ← (s.contextUseEvent.insert? (event.row taskSessionId)).elim
    (.error (.sqlite (.constraint "context_use_event"))) .ok
  ensure ((s.loadTaskSession taskSessionId).isSome = true ∧
      ∀ id ∈ event.contextId, s.contextIr.rows.any (fun c => c.contextId = id) = true)
    (.sqlite (.foreignKey "context_use_event"))
  return { s with contextUseEvent := events }

/-- The event activates the session. -/
def activates (s : SessionStore) (taskSessionId : String) (event : ContextUse) : Bool :=
  event.observationSource = .atlasObserved ∧ (activationKind event).isSome = true ∧
    (activationKind event = some true → s.isBound taskSessionId = true)

/-- `record_context_use_event`. -/
def recordContextUseEvent (s : SessionStore) (taskSessionId : String) (event : ContextUse) :
    Except AtlasError SessionStore :=
  if s.activates taskSessionId event then do
    let _ ← s.validateLegacySession taskSessionId none none
    let s ← s.insertEvent taskSessionId event
    s.activateValidatedLegacySession taskSessionId none none
  else s.insertEvent taskSessionId event

/-- The event is an observed request for an exact source. -/
def isExactSource (taskSessionId : String) (e : ContextUseEvent) : Bool :=
  e.taskSessionId = taskSessionId ∧ e.eventType = .exactSourceRequested ∧
    e.observationSource = .atlasObserved

/-- `record_exact_source_request`. -/
def recordExactSourceRequest (H : Hasher) (s : SessionStore) (workspaceId taskSessionId : String)
    (request : ExactSourceRequest) (occurredAt : String) : Except AtlasError SessionStore := do
  ensure (request.status ∈ exactSourceStatuses)
    (.invalidConfig ("unsupported exact-source status: " ++ request.status))
  let ts ← s.session taskSessionId
    (.invalidConfig ("task session " ++ taskSessionId ++ " does not exist"))
  ensure (ts.workspaceId = workspaceId) (.invalidConfig
    ("task session " ++ taskSessionId ++ " does not belong to workspace " ++ workspaceId))
  let priorCount := s.contextUseEvent.count (isExactSource taskSessionId)
  s.recordContextUseEvent taskSessionId
    (exactSourceEvent H taskSessionId request (priorCount + 1) occurredAt)

/-! ## Starting -/

/-- The active generation of a workspace. -/
def activeRow (s : SessionStore) (workspaceId : String) : Option IndexGeneration :=
  (activeGeneration? s.catalogue workspaceId).bind fun generationId =>
    s.catalogue.indexGeneration.find? fun g => g.generationId = generationId

/-- The active generation with its tree; what is refused has the text `what`. -/
def activeTree (s : SessionStore) (workspaceId what tree : String) :
    Except AtlasError (String × String) :=
  match (s.activeRow workspaceId).bind fun g => g.sourceTreeHash.map (g, ·) with
  | none => .error (.invalidConfig (what ++ tree))
  | some (g, hash) =>
    if g.state = .committed then .ok (g.generationId, hash) else .error (.invalidConfig what)

/-- The task of a start request. -/
def newTask (H : Hasher) (workspaceId generationId : String) (request : LegacyTaskStartRequest) :
    NewTask :=
  let (taskKind, kindSource, kindRuleId) := classifyTask request.declaredKind request.task
  { workspaceId := workspaceId
    startGenerationId := generationId
    taskHash := contentHashOfBytes H (utf8 request.task)
    normalizedGoalHash := normalizedTaskHash H request.task
    rawTaskRetention := .none
    rawTask := none
    taskKind := taskKind
    taskKindSource := kindSource
    taskKindRuleId := kindRuleId
    contextIrVersion := legacyLifecycleContractVersion }

/-- The transaction of `start_legacy_task_session`. -/
def startSession (H : Hasher) (D : Text.DebugFormat) (s : SessionStore) (workspaceId : String)
    (request : LegacyTaskStartRequest) (now : Timestamp) :
    Except AtlasError (TaskSession × SessionStore) := do
  let (generationId, startTreeHash) ← s.activeTree workspaceId
    "task start requires an active committed generation" " with a source tree hash"
  let task := newTask H workspaceId generationId request
  let (ts, s) ← s.createClassifiedTaskSession H D task now
  ensure (ts.startGenerationId = generationId ∧ ts.taskHash = task.taskHash ∧
      ts.normalizedGoalHash = task.normalizedGoalHash ∧
      ts.taskKindSource = task.taskKindSource ∧
      ts.contextIrVersion = legacyLifecycleContractVersion ∧
      ts.taskKindRuleId = task.taskKindRuleId)
    (.invalidConfig "conflicting task start replay identity")
  let s := s.updateSessions
    (fun x => x.taskSessionId = ts.taskSessionId ∧ x.startTreeHash = none)
    (setStartTree startTreeHash)
  let ts ← s.session ts.taskSessionId (.other "task session disappeared during start")
  ensure (ts.startTreeHash = some startTreeHash)
    (.invalidConfig "conflicting task start replay tree identity")
  return (ts, s)

/-- `start_legacy_task_session`. -/
def startLegacyTaskSession (H : Hasher) (D : Text.DebugFormat) (s : SessionStore)
    (workspaceId : String) (request : LegacyTaskStartRequest) (now : Timestamp) :
    Except LegacyLifecycleError (TaskSession × SessionStore) := do
  requireLegacyContract request.contextIrVersion
  ensure (Broker.trimText request.task ≠ [] ∧
      (utf8 request.task).length ≤ maxGovernorRequestBytes)
    (.atlas (.invalidConfig "task must contain 1..=1048576 bytes"))
  (s.startSession H D workspaceId request now).mapError .atlas

/-! ## Ending -/

/-- A completed session is completed again. -/
def replayCompletion (s : SessionStore) (ts : TaskSession) (delta : Delta.GenerationDelta)
    (outcome : Outcome) (endTreeHash : String) : Except AtlasError SessionStore :=
  let persistedDeltaHash := (s.deltas.generationDelta.find? fun row =>
    row.deltaId = delta.deltaId).bind Delta.DeltaRow.deltaHash
  if ts.workspaceId = delta.workspaceId ∧ ts.startGenerationId = delta.fromGenerationId ∧
      ts.endGenerationId = some delta.toGenerationId ∧ ts.accepted = some outcome.accepted ∧
      ts.testsPassed = outcome.testsPassed ∧ ts.outcomeCode = some outcome.outcomeCode ∧
      ts.endTreeHash = some endTreeHash ∧ persistedDeltaHash = some delta.deltaHash then .ok s
  else .error (.invalidConfig
    ("conflicting completion replay for task_session " ++ ts.taskSessionId))

/-- The generation is the active one of the workspace, committed, with the tree. -/
def isEndGeneration (s : SessionStore) (workspaceId generationId endTreeHash : String) : Bool :=
  s.catalogue.indexGeneration.rows.any fun g =>
    g.generationId = generationId ∧ g.workspaceId = workspaceId ∧ g.state = .committed ∧
      g.sourceTreeHash = some endTreeHash ∧
      s.catalogue.workspace.rows.any fun w =>
        w.workspaceId = g.workspaceId ∧ w.activeGenerationId = some g.generationId

/-- A reconciled session is completed. -/
def finish (H : Hasher) (s : SessionStore) (ts : TaskSession) (delta : Delta.GenerationDelta)
    (outcome : Outcome) (endTreeHash : String) (now : Timestamp) :
    Except AtlasError SessionStore := do
  ensure (ts.state = .reconciled) (illegalTransition ts.state .completed)
  ensure (ts.workspaceId = delta.workspaceId ∧ ts.startGenerationId = delta.fromGenerationId)
    (.invalidConfig
      "completion delta does not match the task session workspace/start generation")
  ensure (s.isEndGeneration ts.workspaceId delta.toGenerationId endTreeHash = true)
    (.invalidConfig "completion requires the matching active committed end generation/tree hash")
  let deltas ← Delta.persistGenerationDelta H s.deltas delta
  let occurredAt := (stampText now).getD ""
  let s ← (artifactChangeEvents H ts.taskSessionId delta occurredAt).foldlM
    (fun s event => s.recordContextUseEvent ts.taskSessionId event) { s with deltas := deltas }
  let s ← s.recordContextUseEvent ts.taskSessionId
    (outcomeEvent H ts.taskSessionId delta outcome endTreeHash occurredAt)
  s.changeSession (isIn ts.taskSessionId .reconciled)
    (setCompleted delta.toGenerationId outcome.accepted outcome.testsPassed outcome.outcomeCode
      endTreeHash now)
    ("task_session " ++ ts.taskSessionId ++ " changed during completion")

/-- `complete_task_session`. -/
def completeTaskSession (H : Hasher) (s : SessionStore) (taskSessionId : String)
    (delta : Delta.GenerationDelta) (outcome : Outcome) (endTreeHash : String)
    (now : Timestamp) : Except AtlasError SessionStore := do
  ensure (outcome.outcomeCode ≠ "" ∧ (utf8 outcome.outcomeCode).length ≤ maxOutcomeCodeBytes)
    (.invalidConfig
      ("outcome_code must contain 1..=" ++ toString maxOutcomeCodeBytes ++ " bytes"))
  ensure (ContextRoute.validDigest endTreeHash = true)
    (.invalidConfig "end_tree_hash must be 64 lowercase hex characters")
  let ts ← s.session taskSessionId (notFound taskSessionId)
  if ts.state = .completed then s.replayCompletion ts delta outcome endTreeHash
  else s.finish H ts delta outcome endTreeHash now

/-- What is refused of a session of another contract. -/
def requireLegacySession (ts : TaskSession) (workspaceId : String) :
    Except LegacyLifecycleError Unit :=
  ensure (ts.workspaceId = workspaceId ∧ ts.contextIrVersion = legacyLifecycleContractVersion)
    .durableContractUnavailable

/-- A reconciled session is completed with the delta up to the active generation. -/
def completeReconciled (H : Hasher) (disk : Delta.WorkingDirectory) (t : Delta.Tables)
    (s : SessionStore) (ts : TaskSession) (outcome : Outcome) (now : Timestamp) :
    Except AtlasError (TaskSession × SessionStore) := do
  ensure (ts.state = .reconciled) (illegalTransition ts.state .completed)
  let (endGenerationId, endTreeHash) ← s.activeTree ts.workspaceId
    "task completion requires an active committed end generation" "/tree"
  let delta ← Delta.computeGenerationDelta H disk t ts.workspaceId ts.startGenerationId
    endGenerationId
  let s ← s.completeTaskSession H ts.taskSessionId delta outcome endTreeHash now
  let ts ← s.session ts.taskSessionId (.other "task session disappeared during completion")
  return (ts, s)

/-- `complete_legacy_task_session`; the delta is computed from the tables `t` and the working
directory. -/
def completeLegacyTaskSession (H : Hasher) (disk : Delta.WorkingDirectory) (t : Delta.Tables)
    (s : SessionStore) (workspaceId taskSessionId : String)
    (request : LegacyTaskCompleteRequest) (now : Timestamp) :
    Except LegacyLifecycleError (TaskSession × SessionStore) := do
  requireLegacyContract request.contextIrVersion
  let ts ← (s.session taskSessionId (notFound taskSessionId)).mapError .atlas
  requireLegacySession ts workspaceId
  if ts.state = .completed then
    (if ts.accepted = some request.accepted ∧ ts.testsPassed = request.testsPassed ∧
        ts.outcomeCode = some request.outcomeCode then .ok (ts, s)
      else .error (.atlas (.invalidConfig
        ("conflicting completion replay for task_session " ++ taskSessionId))))
  else (s.completeReconciled H disk t ts request.toOutcome now).mapError .atlas

/-- `abandon_legacy_task_session`. -/
def abandonLegacyTaskSession (s : SessionStore) (workspaceId taskSessionId : String)
    (request : LegacyTaskAbandonRequest) (now : Timestamp) :
    Except LegacyLifecycleError (TaskSession × SessionStore) := do
  requireLegacyContract request.contextIrVersion
  let ts ← (s.session taskSessionId (notFound taskSessionId)).mapError .atlas
  requireLegacySession ts workspaceId
  if ts.state = .abandoned then
    (if ts.outcomeCode = some request.reason.asStr ∧ ts.completedAt.isSome = true then .ok (ts, s)
      else .error (.atlas (.invalidConfig
        ("conflicting abandon replay for task_session " ++ taskSessionId))))
  else do
    ensure (ts.state = .active ∨ ts.state = .reconciled)
      (LegacyLifecycleError.atlas (illegalTransition ts.state .abandoned))
    let s ← (s.changeSession
      (fun ts => ts.taskSessionId = taskSessionId ∧ (ts.state = .active ∨ ts.state = .reconciled))
      (setAbandoned request.reason.asStr now)
      ("task_session " ++ taskSessionId ++ " changed during abandon")).mapError .atlas
    let ts ← (s.session taskSessionId
      (.other "task session disappeared during abandon")).mapError .atlas
    return (ts, s)

end SessionStore

end WorkspaceAtlas
