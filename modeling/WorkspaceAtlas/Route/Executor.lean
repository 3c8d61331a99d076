/-
# Executing a route decision

`execute_context_route`: one immutable decision is carried through DIRECT, LIGHT and DEEP.  The
dispatcher that observes the generation and performs the operations is another party; what the
executor says to it is a dialogue, so that a run shows which calls were made and in which
order.  The time an attempt took is read from a clock.
-/
import WorkspaceAtlas.Route.Execution
import WorkspaceAtlas.Transition.Dialogue

namespace WorkspaceAtlas.ContextRoute

open Relational Transition

/-! ## The dispatcher -/

/-- `RouteAttemptOutcome`. -/
inductive RouteAttemptOutcome where
  | completed (payload : ContextPayload) (counters : ContextExecutionCounters)
      (diagnostics : List ContextDiagnosticCode)
      (materialization : Option ExplicitMaterialization)
  | deficient (payload : Option ContextPayload)
      (satisfiedCapabilities : List RequiredCapability) (deficits : List RouteDeficit)
      (counters : ContextExecutionCounters) (diagnostics : List ContextDiagnosticCode)
      (materialization : Option ExplicitMaterialization)
  | interrupted (diagnostics : List ContextDiagnosticCode)
      (interruptionReason : InterruptionReason)
  deriving DecidableEq, Repr

/-- A call of the executor. -/
inductive DispatcherCall where
  | observeGeneration
  | dispatchLight (decision : ContextRouteDecision) (operations : List VersionedOperation)
  | dispatchDeep (decision : ContextRouteDecision) (contracts : DeepContractVersions)
      (budget : DeepSemanticBudget)
  deriving DecidableEq

/-- What a call is answered by. -/
abbrev DispatcherCall.Answer (E : Type) : DispatcherCall → Type
  | .observeGeneration => GenerationObservation
  | .dispatchLight _ _ => Except E RouteAttemptOutcome
  | .dispatchDeep _ _ _ => Except E RouteAttemptOutcome

/-- `ContextRouteDispatcher`: an implementation with states `σ` and errors `E`. -/
structure ContextRouteDispatcher (E σ : Type) where
  observeGeneration : σ → GenerationObservation × σ
  dispatchLight : ContextRouteDecision → List VersionedOperation → σ →
    Except E RouteAttemptOutcome × σ
  dispatchDeep : ContextRouteDecision → DeepContractVersions → DeepSemanticBudget → σ →
    Except E RouteAttemptOutcome × σ

/-- The dispatcher as the party that answers the calls. -/
def ContextRouteDispatcher.server {E σ : Type} (dispatcher : ContextRouteDispatcher E σ) :
    Server DispatcherCall (DispatcherCall.Answer E) σ
  | .observeGeneration => dispatcher.observeGeneration
  | .dispatchLight decision operations => dispatcher.dispatchLight decision operations
  | .dispatchDeep decision contracts budget => dispatcher.dispatchDeep decision contracts budget

/-- Why the executor returns no envelope: `D::Error::from` of an error of its own, an error of
the dispatcher, or a panic. -/
inductive Stop (E : Type) where
  | route (e : ContextRouteError)
  | dispatcher (e : E)
  | panicked (message : String)

variable {E : Type}

/-- What the executor says to the dispatcher until it returns an `α`. -/
abbrev Session (E α : Type) : Type := Dialogue DispatcherCall (DispatcherCall.Answer E) α

/-- `map_err(D::Error::from)`. -/
def routed {α : Type} (x : Except ContextRouteError α) : Except (Stop E) α := x.mapError .route

/-! ## The policy of the executor -/

/-- `caller_satisfaction`. -/
def callerSatisfaction (decision : ContextRouteDecision) :
    List RequiredCapability × List RouteDeficit :=
  (decision.requestedCapabilities.entries.filterMap fun (capability, state) =>
      match state with
      | .satisfied => some capability
      | .unsatisfied | .unknown => none,
    decision.requestedCapabilities.entries.filterMap fun (capability, state) =>
      match state with
      | .satisfied => none
      | .unsatisfied | .unknown => some (.capability capability .unavailable))

/-- `route_attempt`; `clock n` is the time in microseconds that attempt `n` took. -/
def routeAttempt (clock : ℕ → ℕ) (ordinal : ℕ) (route : Route) (state : AttemptState)
    (deficits : List RouteDeficit) (counters : ContextExecutionCounters) : ExecutionAttempt where
  attemptId := "context-attempt-" ++ toString ordinal
  route := route
  state := state
  deficits := deficits
  counters := counters
  elapsedMicros := max (min (clock ordinal) (2 ^ 64 - 1)) 1

/-- `generation_failure`. -/
def generationFailure : GenerationObservation → GenerationObservation →
    Option (RouteFailureReason × TerminalReason)
  | .observed expected, .observed observed =>
    if expected = observed then none else some (.generationChanged, .generationChanged)
  | .observed _, .unavailable .noActiveGeneration =>
    some (.noActiveGeneration, .generationUnavailable)
  | .observed _, .unavailable _ => some (.startingGenerationUnavailable, .generationUnavailable)
  | .unavailable _, _ => some (.startingGenerationUnavailable, .generationUnavailable)

/-- `light_deficits_can_escalate`. -/
def lightDeficitsCanEscalate (deficits : List RouteDeficit) : Bool :=
  deficits ≠ [] ∧ deficits.all fun
    | .route _ => false
    | .capability capability reason =>
      reason ≠ .unsupported ∧
        (capability.minimumRoute = .atlasDeep ∨ reason = .semanticBudgetOmitted ∨
          (capability = .identityLookup ∧ reason = .ambiguous) ∨
          ((capability = .boundedRelationships ∨ capability = .impactFrontier ∨
            capability = .basicCoverageConflicts) ∧ reason = .conflicting))

/-- `terminal_reason_for`. -/
def terminalReasonFor (route ceiling : Route) (deficits : List RouteDeficit) : TerminalReason :=
  if route = ceiling then .routeCeilingReached
  else if ∃ deficit ∈ deficits, deficit.isUnavailable then .capabilityUnavailable
  else .routeCeilingReached

/-- `dispatch_outcome_valid`. -/
def dispatchOutcomeValid (decision : ContextRouteDecision) (route : Route) :
    RouteAttemptOutcome → Except ContextRouteError Unit
  | .completed payload counters diagnostics materialization => do
    ensure (diagnostics.length ≤ maxExecutionDiagnostics ∧ counters.validate = .ok () ∧
      payload.validate = .ok () ∧ payload.route = route) .invalidExecution
    validateMaterialization materialization (some payload)
  | .deficient payload satisfiedCapabilities deficits counters diagnostics materialization => do
    ensure (diagnostics.length ≤ maxExecutionDiagnostics ∧ counters.validate = .ok () ∧
      (∀ p ∈ payload, p.validate = .ok () ∧ p.route = route) ∧ deficits ≠ [] ∧
      deficits.IsChain (· < ·) ∧ ∀ deficit ∈ deficits, ¬ deficit.isRoute) .invalidExecution
    validateMaterialization materialization payload
    validateSatisfiedCapabilities decision satisfiedCapabilities deficits (some route) false true
  | .interrupted diagnostics _ =>
    ensure (diagnostics.length ≤ maxExecutionDiagnostics) .invalidExecution

/-! ## The executor -/

/-- What the executor carries from one pass of its loop to the next, besides the route. -/
structure Progress where
  attempts : List ExecutionAttempt
  diagnostics : List ContextDiagnosticCode
  priorPayload : Option ContextPayload
  priorSatisfied : List RequiredCapability
  priorMaterialization : Option ExplicitMaterialization

/-- How a pass of the loop ends.  The loop goes on only from LIGHT, to DEEP. -/
inductive Next (route : Route) where
  | returned (execution : ContextExecution)
  | continued (h : route = .atlasLight) (progress : Progress)

variable (H : Hasher) (clock : ℕ → ℕ) (decision : ContextRouteDecision)

/-- `ContextExecution::completed`. -/
def ContextExecution.ofCompleted (attempts : List ExecutionAttempt) (payload : ContextPayload)
    (counters : ContextExecutionCounters) (diagnostics : List ContextDiagnosticCode)
    (materialization : Option ExplicitMaterialization) :
    Except ContextRouteError ContextExecution :=
  (ContextExecution.completed contextExecutionVersion decision attempts
    ((attempts.getLast?.map fun attempt => attempt.route).getD decision.initialRoute)
    payload counters diagnostics materialization).checked H

/-- The pass in which the generation is not the one the decision starts from. -/
def refuse (route : Route) (progress : Progress) (failure : RouteFailureReason)
    (terminalReason : TerminalReason) : Except (Stop E) (Next route) := do
  let deficits := [RouteDeficit.route failure]
  let attempts := progress.attempts ++
    [routeAttempt clock (progress.attempts.length + 1) route .blocked deficits 0]
  let counters ← routed (checkedCounterSum attempts)
  .returned <$> routed ((ContextExecution.blocked contextExecutionVersion decision attempts
    (some route) none (callerSatisfaction decision).1 deficits counters progress.diagnostics none
    terminalReason).checked H)

/-- The pass in which an operation had the outcome. -/
def conclude (route : Route) (progress : Progress) :
    RouteAttemptOutcome → Except (Stop E) (Next route)
  | .completed payload counters diagnostics materialization => do
    let attempts := progress.attempts ++
      [routeAttempt clock (progress.attempts.length + 1) route .completed [] counters]
    let counters ← routed (checkedCounterSum attempts)
    .returned <$> routed (ContextExecution.ofCompleted H decision attempts payload counters
      (progress.diagnostics ++ diagnostics) materialization)
  | .interrupted diagnostics interruptionReason => do
    let counters ← routed (checkedCounterSum progress.attempts)
    .returned <$> routed ((ContextExecution.interrupted contextExecutionVersion decision
      progress.attempts progress.priorPayload progress.priorSatisfied counters
      (progress.diagnostics ++ diagnostics) progress.priorMaterialization
      interruptionReason).checked H)
  | .deficient payload satisfiedCapabilities deficits counters diagnostics materialization =>
    if h : route = .atlasLight ∧ route < decision.effectiveCeiling ∧
        lightDeficitsCanEscalate deficits then
      let attempts := progress.attempts ++
        [routeAttempt clock (progress.attempts.length + 1) route .partial_ deficits counters]
      if payload.isSome ∧ satisfiedCapabilities ≠ [] then
        .ok (.continued h.1 ⟨attempts, progress.diagnostics ++ diagnostics, payload,
          satisfiedCapabilities, materialization⟩)
      else
        .ok (.continued h.1 ⟨attempts, progress.diagnostics ++ diagnostics,
          progress.priorPayload, progress.priorSatisfied, progress.priorMaterialization⟩)
    else do
      let useful : Bool := payload.any ContextPayload.useful ∧ satisfiedCapabilities ≠ []
      let attempts := progress.attempts ++
        [routeAttempt clock (progress.attempts.length + 1) route
          (if useful then .partial_ else .blocked) deficits counters]
      let counters ← routed (checkedCounterSum attempts)
      let terminalReason := terminalReasonFor route decision.effectiveCeiling deficits
      if useful then
        match payload with
        | some payload =>
          .returned <$> routed ((ContextExecution.partial_ contextExecutionVersion decision
            attempts route payload satisfiedCapabilities deficits counters
            (progress.diagnostics ++ diagnostics) materialization terminalReason).checked H)
        | none => .error (.panicked "useful payload checked above")
      else
        .returned <$> routed ((ContextExecution.blocked contextExecutionVersion decision attempts
          (some route) none satisfiedCapabilities deficits counters
          (progress.diagnostics ++ diagnostics) none terminalReason).checked H)

/-- The operation of a route. -/
def dispatch : Route → Session E (Except (Stop E) RouteAttemptOutcome)
  | .direct => return .error (.panicked "DIRECT is handled before Atlas dispatch")
  | .atlasLight => do
    let answer ← Dialogue.call (DispatcherCall.dispatchLight decision decision.request.lightOperations)
    return answer.mapError .dispatcher
  | .atlasDeep =>
    match decision.request.deepBudget with
    | none => return .error (.route .deepBudgetRequired)
    | some budget => do
      let answer ← Dialogue.call
        (DispatcherCall.dispatchDeep decision decision.request.deepContracts budget)
      return answer.mapError .dispatcher

/-- What becomes of the answer to a dispatch. -/
def settle (route : Route) (progress : Progress) (answer : Except (Stop E) RouteAttemptOutcome) :
    Except (Stop E) (Next route) := do
  let outcome ← answer
  routed (dispatchOutcomeValid decision route outcome)
  conclude H clock decision route progress outcome

/-- One pass of the loop. -/
def pass (route : Route) (progress : Progress) : Session E (Except (Stop E) (Next route)) := do
  let observed ← Dialogue.call DispatcherCall.observeGeneration
  match generationFailure decision.startingGeneration observed with
  | some (failure, terminalReason) =>
    return refuse H clock decision route progress failure terminalReason
  | none => do
    let answer ← dispatch decision route
    return settle H clock decision route progress answer

/-- The loop.  A pass on DEEP does not go on. -/
def continueFrom (route : Route) (progress : Progress) :
    Session E (Except (Stop E) ContextExecution) := do
  match ← pass H clock decision route progress with
  | .error stop => return .error stop
  | .ok (.returned execution) => return .ok execution
  | .ok (.continued _ progress) =>
    match ← pass H clock decision .atlasDeep progress with
    | .error stop => return .error stop
    | .ok (.returned execution) => return .ok execution
    | .ok (.continued h _) => nomatch h

/-- `execute_context_route` once the decision has passed its check. -/
def executeValidated : Session E (Except (Stop E) ContextExecution) :=
  let callerSatisfied := (callerSatisfaction decision).1
  let callerDeficits := (callerSatisfaction decision).2
  if decision.startingGeneration.isUnavailable ∧
      ¬ (decision.initialRoute = .direct ∧ callerDeficits = []) then
    return routed ((ContextExecution.blocked contextExecutionVersion decision [] none none
      callerSatisfied [.route .startingGenerationUnavailable] 0 [] none
      .generationUnavailable).checked H)
  else if decision.initialRoute = .direct then
    if callerDeficits = [] then
      return routed (ContextExecution.ofCompleted H decision
        [routeAttempt clock 1 .direct .completed [] 0] .directNone 0 [] none)
    else if decision.effectiveCeiling = .direct then
      return routed ((ContextExecution.blocked contextExecutionVersion decision
        [routeAttempt clock 1 .direct .blocked callerDeficits 0] (some .direct) none
        callerSatisfied callerDeficits 0 [] none .routeCeilingReached).checked H)
    else
      continueFrom H clock decision .atlasLight
        ⟨[routeAttempt clock 1 .direct .partial_ callerDeficits 0], [], none, callerSatisfied,
          none⟩
  else
    continueFrom H clock decision decision.initialRoute ⟨[], [], none, callerSatisfied, none⟩

/-- `execute_context_route`. -/
def executeContextRoute : Session E (Except (Stop E) ContextExecution) :=
  match decision.validate H with
  | .error e => return .error (.route e)
  | .ok () => executeValidated H clock decision

end WorkspaceAtlas.ContextRoute
