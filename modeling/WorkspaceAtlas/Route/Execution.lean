/-
# Execution envelopes

`ContextExecution` of `context_route.rs` and the checks it passes before a caller sees it: each
attempt on its own, each pair of attempts in a row, the counters, the accounting of the
capabilities and the reason the execution ended for.
-/
import WorkspaceAtlas.Route.Policy

namespace WorkspaceAtlas.ContextRoute

open Relational Transition

/-- `CONTEXT_EXECUTION_VERSION`. -/
def contextExecutionVersion : String := "context-execution-v2.0.0"

/-- `MAX_ROUTE_ATTEMPTS`. -/
def maxRouteAttempts : ℕ := 8

/-- `MAX_EXECUTION_DIAGNOSTICS`. -/
def maxExecutionDiagnostics : ℕ := 32

/-- `MAX_MATERIALIZED_SOURCES`. -/
def maxMaterializedSources : ℕ := 64

/-- `MAX_CONTEXT_EXECUTION_ATLAS_CALLS`. -/
def maxContextExecutionAtlasCalls : ℕ := 1024

/-! ## Deficits -/

/-- `CapabilityDeficitReason`. -/
inductive CapabilityDeficitReason where
  | unavailable
  | ambiguous
  | conflicting
  | stale
  | unsupported
  | semanticBudgetOmitted
  deriving DecidableEq, Repr

instance : LinearOrder CapabilityDeficitReason := LinearOrder.lift' CapabilityDeficitReason.ctorIdx
  fun r s h => by
    rw [← CapabilityDeficitReason.ofNat_ctorIdx r, h, CapabilityDeficitReason.ofNat_ctorIdx]

/-- `RouteFailureReason`. -/
inductive RouteFailureReason where
  | startingGenerationUnavailable
  | noActiveGeneration
  | generationChanged
  deriving DecidableEq, Repr

instance : LinearOrder RouteFailureReason := LinearOrder.lift' RouteFailureReason.ctorIdx
  fun r s h => by
    rw [← RouteFailureReason.ofNat_ctorIdx r, h, RouteFailureReason.ofNat_ctorIdx]

/-- `RouteDeficit`. -/
inductive RouteDeficit where
  | capability (capability : RequiredCapability) (reason : CapabilityDeficitReason)
  | route (reason : RouteFailureReason)
  deriving DecidableEq, Repr

/-- The derived order of `RouteDeficit`: by variant, then by its fields. -/
def RouteDeficit.lt : RouteDeficit → RouteDeficit → Prop
  | .capability c r, .capability d s => c < d ∨ (c = d ∧ r < s)
  | .capability _ _, .route _ => True
  | .route _, .capability _ _ => False
  | .route r, .route s => r < s

instance : LT RouteDeficit := ⟨RouteDeficit.lt⟩

instance : DecidableRel (α := RouteDeficit) (· < ·)
  | .capability c r, .capability d s => inferInstanceAs (Decidable (c < d ∨ (c = d ∧ r < s)))
  | .capability _ _, .route _ => .isTrue trivial
  | .route _, .capability _ _ => .isFalse id
  | .route r, .route s => inferInstanceAs (Decidable (r < s))

/-- `matches!(.., RouteDeficit::Route { .. })`. -/
def RouteDeficit.isRoute : RouteDeficit → Bool
  | .capability _ _ => false
  | .route _ => true

/-- The capability a deficit is about. -/
def RouteDeficit.capability? : RouteDeficit → Option RequiredCapability
  | .capability c _ => some c
  | .route _ => none

/-- `Unavailable | Stale | Unsupported`: the capability was out of reach on the route. -/
def RouteDeficit.isUnavailable : RouteDeficit → Bool
  | .capability _ .unavailable | .capability _ .stale | .capability _ .unsupported => true
  | _ => false

/-! ## Counters -/

/-- `ContextExecutionCounters`. -/
@[ext] structure ContextExecutionCounters where
  atlasCalls : ℕ
  records : ℕ
  sourceBytes : ℕ
  estimatedTokens : ℕ
  workUnits : ℕ
  deriving DecidableEq, Repr

namespace ContextExecutionCounters

/-- `ContextExecutionCounters::default`. -/
instance : Zero ContextExecutionCounters := ⟨⟨0, 0, 0, 0, 0⟩⟩

/-- `ContextExecutionCounters::validate`. -/
def validate (counters : ContextExecutionCounters) : Except String Unit := do
  ensure (counters.atlasCalls ≤ maxContextExecutionAtlasCalls)
    "execution Atlas-call counter exceeds its bound"
  ensure (counters.records ≤ maxContextExecutionRecords)
    "execution record counter exceeds its bound"
  ensure (counters.sourceBytes ≤ maxContextExecutionSourceBytes)
    "execution source-byte counter exceeds its bound"
  ensure (counters.estimatedTokens ≤ maxContextExecutionEstimatedTokens)
    "execution estimated-token counter exceeds its bound"
  ensure (counters.workUnits ≤ maxContextExecutionWorkUnits)
    "execution work-unit counter exceeds its bound"

end ContextExecutionCounters

/-- `u64::checked_add`. -/
def checkedAdd (m n : ℕ) : Except ContextRouteError ℕ :=
  if m + n < 2 ^ 64 then .ok (m + n) else .error .invalidExecution

/-! ## Attempts -/

/-- `AttemptState`. -/
inductive AttemptState where
  | completed
  | partial_
  | blocked
  | interrupted
  deriving DecidableEq, Repr

/-- `ExecutionAttempt`. -/
structure ExecutionAttempt where
  attemptId : String
  route : Route
  state : AttemptState
  deficits : List RouteDeficit
  counters : ContextExecutionCounters
  elapsedMicros : ℕ
  deriving DecidableEq, Repr

namespace ExecutionAttempt

/-- `deficit_shape_valid`. -/
def deficitShapeValid (attempt : ExecutionAttempt) : Bool :=
  match attempt.state with
  | .completed => attempt.deficits = []
  | .partial_ | .blocked => attempt.deficits ≠ []
  | .interrupted => false

/-- `ExecutionAttempt::validate`. -/
def validate (attempt : ExecutionAttempt) : Except ContextRouteError Unit :=
  ensure (validOpaqueId attempt.attemptId ∧ attempt.counters.validate = .ok () ∧
    attempt.deficitShapeValid ∧ attempt.deficits.IsChain (· < ·)) .invalidExecution

end ExecutionAttempt

/-- The body of `checked_counter_sum`. -/
def checkedCounterAdd (total : ContextExecutionCounters) (attempt : ExecutionAttempt) :
    Except ContextRouteError ContextExecutionCounters := do
  let atlasCalls ← checkedAdd total.atlasCalls attempt.counters.atlasCalls
  let records ← checkedAdd total.records attempt.counters.records
  let sourceBytes ← checkedAdd total.sourceBytes attempt.counters.sourceBytes
  let estimatedTokens ← checkedAdd total.estimatedTokens attempt.counters.estimatedTokens
  let workUnits ← checkedAdd total.workUnits attempt.counters.workUnits
  return ⟨atlasCalls, records, sourceBytes, estimatedTokens, workUnits⟩

/-- `checked_counter_sum`. -/
def checkedCounterSum (attempts : List ExecutionAttempt) :
    Except ContextRouteError ContextExecutionCounters :=
  attempts.foldlM checkedCounterAdd 0

/-! ## Payloads and materialization -/

/-- `LightOperationResult`. -/
inductive LightOperationResult where
  | query (operationVersion resultDigest : String) (recordCount : ℕ)
  | sourceReference (operationVersion resultDigest : String) (referenceCount : ℕ)
  deriving DecidableEq, Repr

namespace LightOperationResult

/-- `LightOperationResult::operation`. -/
def operation : LightOperationResult → LightOperation
  | .query _ _ _ => .query
  | .sourceReference _ _ _ => .sourceReference

/-- `LightOperationResult::validate`. -/
def validate : LightOperationResult → Bool
  | .query operationVersion resultDigest _ =>
    operationVersion = queryOperationVersion ∧ validDigest resultDigest
  | .sourceReference operationVersion resultDigest _ =>
    operationVersion = sourceReferenceOperationVersion ∧ validDigest resultDigest

end LightOperationResult

/-- `DeepResultReference`. -/
structure DeepResultReference where
  contextIrVersion : String
  contextHash : String
  deriving DecidableEq, Repr

/-- `ContextPayload`. -/
inductive ContextPayload where
  | directNone
  | lightBundle (operations : List LightOperationResult)
  | deepContextIr (result : DeepResultReference)
  deriving DecidableEq, Repr

namespace ContextPayload

/-- `ContextPayload::validate`. -/
def validate : ContextPayload → Except ContextRouteError Unit
  | .directNone => .ok ()
  | .lightBundle operations =>
    ensure (operations ≠ [] ∧ operations.length ≤ 2 ∧
      (∀ operation ∈ operations, operation.validate) ∧
      operations.IsChain fun p q => p.operation < q.operation) .invalidExecution
  | .deepContextIr result =>
    ensure (result.contextIrVersion = ContextRoute.contextIrVersion ∧
      validDigest result.contextHash) .invalidExecution

/-- `ContextPayload::route`. -/
def route : ContextPayload → Route
  | .directNone => .direct
  | .lightBundle _ => .atlasLight
  | .deepContextIr _ => .atlasDeep

/-- `ContextPayload::useful`. -/
def useful : ContextPayload → Bool
  | .directNone => false
  | .lightBundle _ | .deepContextIr _ => true

end ContextPayload

/-- `ContextDiagnosticCode`. -/
inductive ContextDiagnosticCode where
  | servingFallback
  | evidenceOmitted
  | materializationOmitted
  deriving DecidableEq, Repr

/-- `MaterializedSource`. -/
structure MaterializedSource where
  sourceDigest : String
  startByte : ℕ
  endByte : ℕ
  bytes : List UInt8
  deriving DecidableEq, Repr

/-- `ExplicitMaterialization`. -/
structure ExplicitMaterialization where
  authorized : Bool
  maxBytes : ℕ
  sources : List MaterializedSource
  deriving DecidableEq, Repr

/-- `ExplicitMaterialization::validate`. -/
def ExplicitMaterialization.validate (materialization : ExplicitMaterialization) :
    Except ContextRouteError Unit := do
  ensure (materialization.authorized ∧ materialization.maxBytes ≠ 0 ∧
    materialization.maxBytes ≤ maxContextExecutionSourceBytes ∧
    materialization.sources.length ≤ maxMaterializedSources) .invalidExecution
  let total ← materialization.sources.foldlM (fun total source => do
    ensure (validDigest source.sourceDigest ∧ source.startByte < source.endByte ∧
      source.endByte - source.startByte = source.bytes.length) ContextRouteError.invalidExecution
    checkedAdd total source.bytes.length) 0
  ensure (total ≤ materialization.maxBytes) .invalidExecution

/-- `validate_materialization`. -/
def validateMaterialization (materialization : Option ExplicitMaterialization)
    (payload : Option ContextPayload) : Except ContextRouteError Unit :=
  match materialization with
  | none => .ok ()
  | some materialization => do
    materialization.validate
    ensure (∃ p ∈ payload, p.route ≠ .direct) .invalidExecution

/-! ## The envelope -/

/-- `TerminalReason`. -/
inductive TerminalReason where
  | routeCeilingReached
  | capabilityUnavailable
  | generationUnavailable
  | generationChanged
  deriving DecidableEq, Repr

/-- `InterruptionReason`. -/
inductive InterruptionReason where
  | cancelled
  | deadlineExceeded
  deriving DecidableEq, Repr

/-- `ContextExecution`. -/
inductive ContextExecution where
  | completed (schemaVersion : String) (decision : ContextRouteDecision)
      (attempts : List ExecutionAttempt) (finalRoute : Route) (payload : ContextPayload)
      (counters : ContextExecutionCounters) (diagnostics : List ContextDiagnosticCode)
      (materialization : Option ExplicitMaterialization)
  | partial_ (schemaVersion : String) (decision : ContextRouteDecision)
      (attempts : List ExecutionAttempt) (finalRoute : Route) (payload : ContextPayload)
      (satisfiedCapabilities : List RequiredCapability) (deficits : List RouteDeficit)
      (counters : ContextExecutionCounters) (diagnostics : List ContextDiagnosticCode)
      (materialization : Option ExplicitMaterialization) (terminalReason : TerminalReason)
  | blocked (schemaVersion : String) (decision : ContextRouteDecision)
      (attempts : List ExecutionAttempt) (finalRoute : Option Route)
      (payload : Option ContextPayload) (satisfiedCapabilities : List RequiredCapability)
      (deficits : List RouteDeficit) (counters : ContextExecutionCounters)
      (diagnostics : List ContextDiagnosticCode)
      (materialization : Option ExplicitMaterialization) (terminalReason : TerminalReason)
  | interrupted (schemaVersion : String) (decision : ContextRouteDecision)
      (completedAttempts : List ExecutionAttempt) (priorPayload : Option ContextPayload)
      (satisfiedCapabilities : List RequiredCapability) (counters : ContextExecutionCounters)
      (diagnostics : List ContextDiagnosticCode)
      (materialization : Option ExplicitMaterialization)
      (interruptionReason : InterruptionReason)
  deriving DecidableEq

/-! ## The checks of an envelope -/

/-- One deficit of `validate_satisfied_capabilities`: its capability was requested, is not
satisfied and has no other deficit. -/
def accountDeficit (decision : ContextRouteDecision) (satisfied : List RequiredCapability)
    (seen : List RequiredCapability) :
    RouteDeficit → Except ContextRouteError (List RequiredCapability)
  | .capability capability _ => do
    ensure (decision.requestedCapabilities.containsKey capability ∧ capability ∉ seen ∧
      capability ∉ satisfied) .invalidExecution
    return capability :: seen
  | .route _ => .ok seen

/-- `validate_satisfied_capabilities`. -/
def validateSatisfiedCapabilities (decision : ContextRouteDecision)
    (satisfied : List RequiredCapability) (deficits : List RouteDeficit)
    (satisfactionRoute : Option Route) (requireUseful requireAccounting : Bool) :
    Except ContextRouteError Unit := do
  let satisfiedSet := toBTreeSet satisfied
  ensure (satisfiedSet.length = satisfied.length ∧ ¬ (requireUseful ∧ satisfiedSet = []) ∧
    ∀ capability ∈ satisfiedSet, ∃ state ∈ decision.requestedCapabilities.get capability,
      state = .satisfied ∨ ∃ route ∈ satisfactionRoute, capability.minimumRoute ≤ route)
    .invalidExecution
  let deficitCapabilities ← deficits.foldlM (accountDeficit decision satisfiedSet) []
  ensure (¬ (requireAccounting ∧ satisfiedSet.length + deficitCapabilities.length ≠
    decision.requestedCapabilities.len)) .invalidExecution

/-- `validate_terminal_reason`. -/
def validateTerminalReason (reason : TerminalReason) (finalRoute : Option Route)
    (ceiling : Route) (deficits : List RouteDeficit) : Except ContextRouteError Unit :=
  match reason with
  | .routeCeilingReached => ensure (finalRoute = some ceiling) .invalidExecution
  | .capabilityUnavailable => ensure (∃ deficit ∈ deficits, deficit.isUnavailable) .invalidExecution
  | .generationUnavailable =>
    ensure (.route .startingGenerationUnavailable ∈ deficits ∨
      .route .noActiveGeneration ∈ deficits) .invalidExecution
  | .generationChanged => ensure (.route .generationChanged ∈ deficits) .invalidExecution

/-- `Some(Unsatisfied | Unknown)`: the caller asked for the capability and does not have it. -/
def callerUnsatisfied (decision : ContextRouteDecision) (capability : RequiredCapability) : Bool :=
  match decision.requestedCapabilities.get capability with
  | some .unsatisfied | some .unknown => true
  | _ => false

/-- `valid_attempt_transition`. -/
def validAttemptTransition (previous next : ExecutionAttempt) (decision : ContextRouteDecision) :
    Bool :=
  if previous.route = next.route then previous.state = .partial_
  else if previous.state ≠ .partial_ then false
  else
    match previous.route, next.route with
    | .direct, .atlasLight =>
      previous.deficits ≠ [] ∧ previous.deficits.all fun
        | .capability capability reason =>
          callerUnsatisfied decision capability ∧ reason ≠ .unsupported
        | .route _ => false
    | .atlasLight, .atlasDeep =>
      previous.deficits ≠ [] ∧ previous.deficits.all fun
        | .capability capability reason =>
          if ¬ callerUnsatisfied decision capability ∨ reason = .unsupported then false
          else
            capability.minimumRoute = .atlasDeep ∨ reason = .semanticBudgetOmitted ∨
              (capability = .identityLookup ∧ reason = .ambiguous) ∨
              ((capability = .boundedRelationships ∨ capability = .impactFrontier ∨
                capability = .basicCoverageConflicts) ∧ reason = .conflicting)
        | .route _ => false
    | _, _ => false

namespace ContextExecution

/-- The fields every state of an envelope has. -/
def header : ContextExecution → String × ContextRouteDecision × List ExecutionAttempt ×
    ContextExecutionCounters × List ContextDiagnosticCode
  | .completed schemaVersion decision attempts _ _ counters diagnostics _ =>
    (schemaVersion, decision, attempts, counters, diagnostics)
  | .partial_ schemaVersion decision attempts _ _ _ _ counters diagnostics _ _ =>
    (schemaVersion, decision, attempts, counters, diagnostics)
  | .blocked schemaVersion decision attempts _ _ _ _ counters diagnostics _ _ =>
    (schemaVersion, decision, attempts, counters, diagnostics)
  | .interrupted schemaVersion decision completedAttempts _ _ counters diagnostics _ _ =>
    (schemaVersion, decision, completedAttempts, counters, diagnostics)

variable (H : Hasher)

/-- The first half of `ContextExecution::validate`, on the fields every state has; it returns
the sum of the attempts' counters. -/
def validateHeader (schemaVersion : String) (decision : ContextRouteDecision)
    (attempts : List ExecutionAttempt) (counters : ContextExecutionCounters)
    (diagnostics : List ContextDiagnosticCode) :
    Except ContextRouteError ContextExecutionCounters := do
  ensure (schemaVersion = contextExecutionVersion) (.unsupportedVersion "execution" schemaVersion)
  decision.validate H
  ensure (attempts.length ≤ maxRouteAttempts ∧ diagnostics.length ≤ maxExecutionDiagnostics ∧
    counters.validate = .ok () ∧ (∀ attempt ∈ attempts, attempt.validate = .ok ()) ∧
    (attempts.IsChain fun previous next => validAttemptTransition previous next decision) ∧
    (∀ attempt ∈ attempts.head?, attempt.route = decision.initialRoute) ∧
    (∀ attempt ∈ attempts, decision.effectiveFloor ≤ attempt.route ∧
      attempt.route ≤ decision.effectiveCeiling ∧
      (attempt.route = .direct → attempt.counters = 0)) ∧
    ¬ (decision.startingGeneration.isUnavailable ∧ ∃ attempt ∈ attempts, attempt.route ≠ .direct))
    .invalidExecution
  let summed ← checkedCounterSum attempts
  let callerSatisfied : Bool :=
    ∀ state ∈ decision.requestedCapabilities.values, state = .satisfied
  ensure (¬ (callerSatisfied ∧ decision.initialRoute = .direct ∧
    ∃ attempt ∈ attempts, attempt.route ≠ .direct)) .invalidExecution
  return summed

/-- The second half of `ContextExecution::validate`, on the fields of the state. -/
def validateState (summed : ContextExecutionCounters) :
    ContextExecution → Except ContextRouteError Unit
  | .completed _ decision attempts finalRoute payload counters _ materialization => do
    payload.validate
    ensure (attempts.getLast?.map (fun attempt => (attempt.route, attempt.state)) =
        some (finalRoute, .completed) ∧
      payload.route = finalRoute ∧ counters = summed ∧
      ¬ ∃ entry ∈ decision.requestedCapabilities.entries,
        entry.2 ≠ .satisfied ∧ finalRoute < entry.1.minimumRoute) .invalidExecution
    validateMaterialization materialization (some payload)
  | .partial_ _ decision attempts finalRoute payload satisfiedCapabilities deficits counters _
      materialization terminalReason => do
    payload.validate
    ensure (attempts.getLast?.map (fun attempt => (attempt.route, attempt.state)) =
        some (finalRoute, .partial_) ∧
      payload.route = finalRoute ∧ payload.useful ∧
      (∀ deficit ∈ deficits, ¬ deficit.isRoute) ∧
      attempts.getLast?.map (fun attempt => attempt.deficits) = some deficits ∧
      counters = summed) .invalidExecution
    validateSatisfiedCapabilities decision satisfiedCapabilities deficits (some finalRoute)
      true true
    validateTerminalReason terminalReason (some finalRoute) decision.effectiveCeiling deficits
    validateMaterialization materialization (some payload)
  | .blocked _ decision attempts finalRoute payload satisfiedCapabilities deficits counters _
      materialization terminalReason => do
    ensure (deficits ≠ [] ∧ finalRoute.isSome ≠ attempts.isEmpty ∧
      (∀ route ∈ finalRoute,
        attempts.getLast?.map (fun attempt => (attempt.route, attempt.state)) =
          some (route, .blocked)) ∧
      (∀ attempt ∈ attempts.getLast?, attempt.deficits = deficits) ∧ counters = summed)
      .invalidExecution
    validateSatisfiedCapabilities decision satisfiedCapabilities deficits finalRoute
      payload.isSome (¬ ∃ deficit ∈ deficits, deficit.isRoute)
    match payload with
    | some payload => do
      payload.validate
      ensure (payload.useful ∧ ∃ route ∈ finalRoute, payload.route = route) .invalidExecution
    | none => .ok ()
    validateTerminalReason terminalReason finalRoute decision.effectiveCeiling deficits
    validateMaterialization materialization payload
  | .interrupted _ decision completedAttempts priorPayload satisfiedCapabilities counters _
      materialization _ => do
    ensure ((∀ attempt ∈ completedAttempts,
        attempt.state ≠ .blocked ∧ attempt.state ≠ .interrupted) ∧ counters = summed)
      .invalidExecution
    validateSatisfiedCapabilities decision satisfiedCapabilities []
      (completedAttempts.getLast?.map fun attempt => attempt.route)
      (priorPayload.any ContextPayload.useful) false
    match priorPayload with
    | some payload => do
      payload.validate
      ensure (∃ attempt ∈ completedAttempts.getLast?, payload.route = attempt.route)
        .invalidExecution
    | none => .ok ()
    validateMaterialization materialization priorPayload

/-- `ContextExecution::validate`. -/
def validate (execution : ContextExecution) : Except ContextRouteError Unit := do
  let (schemaVersion, decision, attempts, counters, diagnostics) := execution.header
  let summed ← validateHeader H schemaVersion decision attempts counters diagnostics
  execution.validateState summed

/-- An envelope is returned only if it passes its own checks. -/
def checked (execution : ContextExecution) : Except ContextRouteError ContextExecution := do
  execution.validate H
  return execution

end ContextExecution

end WorkspaceAtlas.ContextRoute
