/-
# Route decisions

`context_route.rs` up to `ContextRouteDecision::validate`: a request names the capabilities a
task needs, and the decision fixes the routes that may serve it.  A decision is accepted again
only if deciding its request once more gives the same decision.
-/
import Mathlib.Data.FinEnum
import WorkspaceAtlas.Catalogue.Ids
import WorkspaceAtlas.Relational.SortedMap
import WorkspaceAtlas.Transition.Check
import Mathlib.Data.List.Sort
import Mathlib.Order.Nat

namespace WorkspaceAtlas.ContextRoute

open Relational Transition

/-! ## Versions and bounds -/

/-- `CONTEXT_ROUTE_POLICY_VERSION`. -/
def contextRoutePolicyVersion : String := "context-route-v2.0.0"

/-- `TASK_CLASSIFIER_VERSION`. -/
def taskClassifierVersion : String := "task-classifier-v1.0.0"

/-- `CONTEXT_IR_VERSION`. -/
def contextIrVersion : String := "2.0.0"

/-- `DEEP_PLANNER_VERSION`. -/
def deepPlannerVersion : String := "planner-v2.0.0"

/-- `DEEP_PROJECTION_VERSION`. -/
def deepProjectionVersion : String := "projection-v2.0.0"

/-- `DEEP_ESTIMATOR_VERSION`. -/
def deepEstimatorVersion : String := "context-estimator-v1.0.0"

/-- `QUERY_OPERATION_VERSION`. -/
def queryOperationVersion : String := "query-v1.0.0"

/-- `SOURCE_REFERENCE_OPERATION_VERSION`. -/
def sourceReferenceOperationVersion : String := "source-reference-v1.0.0"

/-- `MAX_ROUTE_CAPABILITIES`. -/
def maxRouteCapabilities : ℕ := 8

/-- `MAX_DEEP_DEPTH`. -/
def maxDeepDepth : ℕ := 64

/-- `MAX_CONTEXT_EXECUTION_RECORDS`. -/
def maxContextExecutionRecords : ℕ := 100000

/-- `MAX_CONTEXT_EXECUTION_SOURCE_BYTES`. -/
def maxContextExecutionSourceBytes : ℕ := 16 * 1024 * 1024

/-- `MAX_CONTEXT_EXECUTION_ESTIMATED_TOKENS`. -/
def maxContextExecutionEstimatedTokens : ℕ := 4000000

/-- `MAX_CONTEXT_EXECUTION_WORK_UNITS`. -/
def maxContextExecutionWorkUnits : ℕ := 10000000

/-! ## The vocabulary of a decision

An enumeration of the source is ordered as its variants are listed. -/

/-- `Route`. -/
inductive Route where
  | direct
  | atlasLight
  | atlasDeep
  deriving DecidableEq, Repr

/-- `Route::ascii`. -/
def Route.ascii : Route → String
  | .direct => "DIRECT"
  | .atlasLight => "ATLAS_LIGHT"
  | .atlasDeep => "ATLAS_DEEP"

instance : LinearOrder Route := LinearOrder.lift' Route.ctorIdx fun r s h => by
  rw [← Route.ofNat_ctorIdx r, h, Route.ofNat_ctorIdx]

/-- `RequiredCapability`. -/
inductive RequiredCapability where
  | identityLookup
  | exactSource
  | boundedRelationships
  | impactFrontier
  | basicCoverageConflicts
  | temporalHistory
  | requiredRoleClosure
  | validationPlan
  deriving DecidableEq, Repr

/-- `RequiredCapability::ascii`. -/
def RequiredCapability.ascii : RequiredCapability → String
  | .identityLookup => "identity_lookup"
  | .exactSource => "exact_source"
  | .boundedRelationships => "bounded_relationships"
  | .impactFrontier => "impact_frontier"
  | .basicCoverageConflicts => "basic_coverage_conflicts"
  | .temporalHistory => "temporal_history"
  | .requiredRoleClosure => "required_role_closure"
  | .validationPlan => "validation_plan"

/-- `RequiredCapability::minimum_route`. -/
def RequiredCapability.minimumRoute : RequiredCapability → Route
  | .identityLookup | .exactSource | .boundedRelationships | .impactFrontier
  | .basicCoverageConflicts => .atlasLight
  | .temporalHistory | .requiredRoleClosure | .validationPlan => .atlasDeep

instance : LinearOrder RequiredCapability := LinearOrder.lift' RequiredCapability.ctorIdx
  fun c d h => by rw [← RequiredCapability.ofNat_ctorIdx c, h, RequiredCapability.ofNat_ctorIdx]

/-- `CallerCapabilityState`. -/
inductive CallerCapabilityState where
  | satisfied
  | unsatisfied
  | unknown
  deriving DecidableEq, Repr

/-- `CallerCapabilityState::ascii`. -/
def CallerCapabilityState.ascii : CallerCapabilityState → String
  | .satisfied => "satisfied"
  | .unsatisfied => "unsatisfied"
  | .unknown => "unknown"

instance : LinearOrder CallerCapabilityState := LinearOrder.lift' CallerCapabilityState.ctorIdx
  fun s t h => by
    rw [← CallerCapabilityState.ofNat_ctorIdx s, h, CallerCapabilityState.ofNat_ctorIdx]

/-- `AtlasIntent`. -/
inductive AtlasIntent where
  | none
  | allow
  | require
  deriving DecidableEq, Repr

/-- `AtlasIntent::ascii`. -/
def AtlasIntent.ascii : AtlasIntent → String
  | .none => "none"
  | .allow => "allow"
  | .require => "require"

/-- `GenerationUnavailableReason`. -/
inductive GenerationUnavailableReason where
  | workspaceUnregistered
  | catalogueUnavailable
  | noActiveGeneration
  | observationFailed
  deriving DecidableEq, Repr

/-- `GenerationUnavailableReason::ascii`. -/
def GenerationUnavailableReason.ascii : GenerationUnavailableReason → String
  | .workspaceUnregistered => "workspace_unregistered"
  | .catalogueUnavailable => "catalogue_unavailable"
  | .noActiveGeneration => "no_active_generation"
  | .observationFailed => "observation_failed"

/-- `GenerationObservation`. -/
inductive GenerationObservation where
  | observed (generationId : String)
  | unavailable (reason : GenerationUnavailableReason)
  deriving DecidableEq, Repr

/-- `matches!(.., GenerationObservation::Unavailable { .. })`. -/
def GenerationObservation.isUnavailable : GenerationObservation → Bool
  | .observed _ => false
  | .unavailable _ => true

/-- `RouteSignal`. -/
inductive RouteSignal where
  | callerCapabilitiesSatisfied
  | callerCapabilitiesUnsatisfied
  | callerCapabilitiesUnknown
  | atlasIntentNone
  | atlasIntentAllow
  | atlasIntentRequire
  | routeFloorDirect
  | routeFloorLight
  | routeFloorDeep
  | routeCeilingDirect
  | routeCeilingLight
  | routeCeilingDeep
  | explicitSeedsPresent
  | identityOrSourceRequested
  | relationshipsOrImpactRequested
  | basicCoverageConflictsRequested
  | deepSynthesisRequested
  | startingGenerationObserved
  | startingGenerationUnavailable
  | capabilityProfileApplied
  | costProfileApplied
  deriving DecidableEq, Repr

/-- `RouteSignal::ascii`. -/
def RouteSignal.ascii : RouteSignal → String
  | .callerCapabilitiesSatisfied => "caller_capabilities_satisfied"
  | .callerCapabilitiesUnsatisfied => "caller_capabilities_unsatisfied"
  | .callerCapabilitiesUnknown => "caller_capabilities_unknown"
  | .atlasIntentNone => "atlas_intent_none"
  | .atlasIntentAllow => "atlas_intent_allow"
  | .atlasIntentRequire => "atlas_intent_require"
  | .routeFloorDirect => "route_floor_direct"
  | .routeFloorLight => "route_floor_light"
  | .routeFloorDeep => "route_floor_deep"
  | .routeCeilingDirect => "route_ceiling_direct"
  | .routeCeilingLight => "route_ceiling_light"
  | .routeCeilingDeep => "route_ceiling_deep"
  | .explicitSeedsPresent => "explicit_seeds_present"
  | .identityOrSourceRequested => "identity_or_source_requested"
  | .relationshipsOrImpactRequested => "relationships_or_impact_requested"
  | .basicCoverageConflictsRequested => "basic_coverage_conflicts_requested"
  | .deepSynthesisRequested => "deep_synthesis_requested"
  | .startingGenerationObserved => "starting_generation_observed"
  | .startingGenerationUnavailable => "starting_generation_unavailable"
  | .capabilityProfileApplied => "capability_profile_applied"
  | .costProfileApplied => "cost_profile_applied"

instance : LinearOrder RouteSignal := LinearOrder.lift' RouteSignal.ctorIdx fun s t h => by
  rw [← RouteSignal.ofNat_ctorIdx s, h, RouteSignal.ofNat_ctorIdx]

/-- `RouteReason`. -/
inductive RouteReason where
  | callerContextSufficient
  | callerContextIncomplete
  | atlasNotRequested
  | explicitAtlasRequest
  | lightCapabilityRequired
  | deepCapabilityRequired
  | routeFloorApplied
  | startingGenerationUnavailable
  deriving DecidableEq, Repr

/-- `RouteReason::ascii`. -/
def RouteReason.ascii : RouteReason → String
  | .callerContextSufficient => "caller_context_sufficient"
  | .callerContextIncomplete => "caller_context_incomplete"
  | .atlasNotRequested => "atlas_not_requested"
  | .explicitAtlasRequest => "explicit_atlas_request"
  | .lightCapabilityRequired => "light_capability_required"
  | .deepCapabilityRequired => "deep_capability_required"
  | .routeFloorApplied => "route_floor_applied"
  | .startingGenerationUnavailable => "starting_generation_unavailable"

instance : LinearOrder RouteReason := LinearOrder.lift' RouteReason.ctorIdx fun r s h => by
  rw [← RouteReason.ofNat_ctorIdx r, h, RouteReason.ofNat_ctorIdx]

/-- `TaskKind`. -/
inductive TaskKind where
  | explore
  | bugFix
  | behaviorChange
  | apiChange
  | refactor
  | configurationChange
  | testChange
  | review
  | audit
  | unknown
  deriving DecidableEq, Repr

/-- `task_kind_ascii`. -/
def taskKindAscii : TaskKind → String
  | .explore => "explore"
  | .bugFix => "bug_fix"
  | .behaviorChange => "behavior_change"
  | .apiChange => "api_change"
  | .refactor => "refactor"
  | .configurationChange => "configuration_change"
  | .testChange => "test_change"
  | .review => "review"
  | .audit => "audit"
  | .unknown => "unknown"

/-- `LightOperation`. -/
inductive LightOperation where
  | query
  | sourceReference
  deriving DecidableEq, Repr

/-- `LightOperation::ascii`. -/
def LightOperation.ascii : LightOperation → String
  | .query => "query"
  | .sourceReference => "source_reference"

/-- `LightOperation::version`. -/
def LightOperation.version : LightOperation → String
  | .query => queryOperationVersion
  | .sourceReference => sourceReferenceOperationVersion

instance : LinearOrder LightOperation := LinearOrder.lift' LightOperation.ctorIdx
  fun o p h => by rw [← LightOperation.ofNat_ctorIdx o, h, LightOperation.ofNat_ctorIdx]

/-- The variants of `ContextRouteError` that deciding and executing a route return. -/
inductive ContextRouteError where
  | unsupportedVersion (contract supplied : String)
  | floorAboveCeiling
  | intentFloorConflict
  | intentCeilingConflict
  | deepBudgetRequired
  | invalidDeepBudget
  | invalidDeepBudgetDigest
  | invalidIdentity
  | invalidLightOperations
  | unknownProfile
  | invalidExecution
  deriving DecidableEq, Repr

/-! ## Requests and decisions -/

/-- `SeedSummary`. -/
structure SeedSummary where
  digest : String
  pathCount : ℕ
  symbolCount : ℕ
  deriving DecidableEq, Repr

/-- `ProfileIdentity`. -/
structure ProfileIdentity where
  profileId : String
  profileVersion : String
  manifestDigest : String
  deriving DecidableEq, Repr

/-- `VersionedOperation`. -/
structure VersionedOperation where
  operation : LightOperation
  version : String
  deriving DecidableEq, Repr

/-- `DeepContractVersions`. -/
structure DeepContractVersions where
  plannerVersion : String
  projectionVersion : String
  contextIrVersion : String
  estimatorVersion : String
  deriving DecidableEq, Repr

/-- `DeepSemanticBudget`. -/
structure DeepSemanticBudget where
  maxRecords : ℕ
  maxSourceBytes : ℕ
  maxEstimatedTokens : ℕ
  maxDepth : ℕ
  maxWorkUnits : ℕ
  uncertaintyReservePercent : ℕ
  budgetDigest : String
  deriving DecidableEq, Repr

/-- `BTreeMap<RequiredCapability, CallerCapabilityState>`. -/
abbrev Capabilities : Type := SortedMap RequiredCapability CallerCapabilityState

/-- `ContextRouteRequest`. -/
structure ContextRouteRequest where
  schemaVersion : String
  normalizedTaskHash : String
  declaredKind : Option TaskKind
  classifierKind : TaskKind
  classifierVersion : String
  explicitSeeds : SeedSummary
  callerCapabilities : Capabilities
  atlasIntent : AtlasIntent
  routeFloor : Route
  routeCeiling : Route
  capabilityProfile : Option ProfileIdentity
  costProfile : Option ProfileIdentity
  profileRegistryDigest : Option String
  startingGeneration : GenerationObservation
  lightOperations : List VersionedOperation
  deepContracts : DeepContractVersions
  deepBudget : Option DeepSemanticBudget
  deriving DecidableEq

/-- `ContextRouteDecision`. -/
structure ContextRouteDecision where
  schemaVersion : String
  request : ContextRouteRequest
  effectiveFloor : Route
  effectiveCeiling : Route
  requestedCapabilities : Capabilities
  deepBudgetDigest : Option String
  initialRoute : Route
  signals : List RouteSignal
  reasons : List RouteReason
  startingGeneration : GenerationObservation
  policyVersion : String
  decisionHash : String
  deriving DecidableEq

/-! ## Digests -/

/-- `valid_digest`. -/
def validDigest (value : String) : Bool :=
  (utf8 value).length = 64 ∧
    ∀ byte ∈ utf8 value, (48 ≤ byte ∧ byte ≤ 57) ∨ (97 ≤ byte ∧ byte ≤ 102)

/-- `valid_opaque_id`. -/
def validOpaqueId (value : String) : Bool :=
  utf8 value ≠ [] ∧ (utf8 value).length ≤ 128 ∧ (∀ byte ∈ utf8 value, byte < 128) ∧
    ∀ byte ∈ utf8 value, ¬ (byte < 32 ∨ byte = 127)

namespace CanonicalEncoder

/-- `u64::to_be_bytes`. -/
def toBeBytes (n : ℕ) : List UInt8 := (leDigits 8 n).reverse

/-- `CanonicalEncoder::bytes`. -/
def bytes (value : List UInt8) : List UInt8 := toBeBytes value.length ++ value

/-- `CanonicalEncoder::text`. -/
def text (value : String) : List UInt8 := bytes (utf8 value)

/-- `CanonicalEncoder::optional_text`. -/
def optionalText : Option String → List UInt8
  | some value => bytes [1] ++ text value
  | none => bytes [0]

/-- `CanonicalEncoder::u64`. -/
def u64 (value : ℕ) : List UInt8 := bytes (toBeBytes value)

/-- The capabilities of a map, each with its state. -/
def capabilities (requested : Capabilities) : List UInt8 :=
  u64 requested.len ++
    requested.entries.flatMap fun (capability, state) => text capability.ascii ++ text state.ascii

/-- A profile behind a byte that says whether there is one. -/
def profile : Option ProfileIdentity → List UInt8
  | some profile =>
    bytes [1] ++ text profile.profileId ++ text profile.profileVersion ++
      text profile.manifestDigest
  | none => bytes [0]

/-- `encode_generation`. -/
def generation : GenerationObservation → List UInt8
  | .observed generationId => text "observed" ++ text generationId
  | .unavailable reason => text "unavailable" ++ text reason.ascii

/-- The numbers of a budget, which its digest covers. -/
def budgetValues (budget : DeepSemanticBudget) : List UInt8 :=
  u64 budget.maxRecords ++ u64 budget.maxSourceBytes ++ u64 budget.maxEstimatedTokens ++
    u64 budget.maxDepth ++ u64 budget.maxWorkUnits ++ u64 budget.uncertaintyReservePercent

/-- A budget behind a byte that says whether there is one. -/
def deepBudget : Option DeepSemanticBudget → List UInt8
  | some budget => bytes [1] ++ budgetValues budget ++ text budget.budgetDigest
  | none => bytes [0]

end CanonicalEncoder

open CanonicalEncoder

variable (H : Hasher)

/-- `CanonicalEncoder::finish` of what was written behind the domain. -/
def digestOf (domain : String) (written : List UInt8) : String :=
  toHex (H.sha256 (text domain ++ written))

/-- `DeepSemanticBudget::expected_digest`. -/
def DeepSemanticBudget.expectedDigest (budget : DeepSemanticBudget) : String :=
  digestOf H "workspace-atlas/context-deep-budget-v1" (budgetValues budget)

/-- `canonical_decision_hash`. -/
def canonicalDecisionHash (decision : ContextRouteDecision) : String :=
  let request := decision.request
  digestOf H "workspace-atlas/context-route-decision-v1" <|
    text request.schemaVersion ++ text decision.schemaVersion ++ text decision.policyVersion ++
    text request.classifierVersion ++
    request.lightOperations.flatMap (fun operation =>
      text operation.operation.ascii ++ text operation.version) ++
    text request.deepContracts.plannerVersion ++ text request.deepContracts.projectionVersion ++
    text request.deepContracts.contextIrVersion ++ text request.deepContracts.estimatorVersion ++
    text request.normalizedTaskHash ++ optionalText (request.declaredKind.map taskKindAscii) ++
    text (taskKindAscii request.classifierKind) ++ text request.explicitSeeds.digest ++
    u64 request.explicitSeeds.pathCount ++ u64 request.explicitSeeds.symbolCount ++
    capabilities request.callerCapabilities ++ text request.atlasIntent.ascii ++
    text request.routeFloor.ascii ++ text request.routeCeiling.ascii ++
    profile request.capabilityProfile ++ profile request.costProfile ++
    optionalText request.profileRegistryDigest ++ generation request.startingGeneration ++
    deepBudget request.deepBudget ++
    text decision.effectiveFloor.ascii ++ text decision.effectiveCeiling.ascii ++
    text decision.initialRoute.ascii ++ optionalText decision.deepBudgetDigest ++
    capabilities decision.requestedCapabilities ++
    decision.signals.flatMap (fun signal => text signal.ascii) ++
    decision.reasons.flatMap (fun reason => text reason.ascii) ++
    generation decision.startingGeneration

/-! ## Checking a request -/

/-- `DeepContractVersions::validate`. -/
def DeepContractVersions.validate (versions : DeepContractVersions) :
    Except ContextRouteError Unit :=
  ensure (versions.plannerVersion = deepPlannerVersion ∧
      versions.projectionVersion = deepProjectionVersion ∧
      versions.contextIrVersion = ContextRoute.contextIrVersion ∧
      versions.estimatorVersion = deepEstimatorVersion)
    (.unsupportedVersion "deep_contract" (versions.plannerVersion ++ "/" ++
      versions.projectionVersion ++ "/" ++ versions.contextIrVersion ++ "/" ++
      versions.estimatorVersion))

/-- `DeepSemanticBudget::validate_values`. -/
def DeepSemanticBudget.validateValues (budget : DeepSemanticBudget) :
    Except ContextRouteError Unit :=
  ensure (0 < budget.maxRecords ∧ budget.maxRecords ≤ maxContextExecutionRecords ∧
      0 < budget.maxSourceBytes ∧ budget.maxSourceBytes ≤ maxContextExecutionSourceBytes ∧
      0 < budget.maxEstimatedTokens ∧
      budget.maxEstimatedTokens ≤ maxContextExecutionEstimatedTokens ∧
      0 < budget.maxDepth ∧ budget.maxDepth ≤ maxDeepDepth ∧
      0 < budget.maxWorkUnits ∧ budget.maxWorkUnits ≤ maxContextExecutionWorkUnits ∧
      0 < budget.uncertaintyReservePercent ∧ budget.uncertaintyReservePercent ≤ 100)
    .invalidDeepBudget

/-- `DeepSemanticBudget::validate`. -/
def DeepSemanticBudget.validate (budget : DeepSemanticBudget) : Except ContextRouteError Unit := do
  budget.validateValues
  ensure (budget.budgetDigest = budget.expectedDigest H) .invalidDeepBudgetDigest

/-- The LIGHT operations a request has to list. -/
def expectedLightOperations : List VersionedOperation :=
  [LightOperation.query, LightOperation.sourceReference].map fun operation =>
    ⟨operation, operation.version⟩

/-- The name of a generation is a valid id. -/
def GenerationObservation.valid : GenerationObservation → Bool
  | .observed generationId => validOpaqueId generationId
  | .unavailable _ => true

/-- `validate_request`. -/
def validateRequest (request : ContextRouteRequest) : Except ContextRouteError Unit := do
  ensure (request.schemaVersion = contextRoutePolicyVersion)
    (.unsupportedVersion "route" request.schemaVersion)
  ensure (request.classifierVersion = taskClassifierVersion)
    (.unsupportedVersion "classifier" request.classifierVersion)
  ensure (validDigest request.normalizedTaskHash ∧ validDigest request.explicitSeeds.digest ∧
    request.callerCapabilities.len ≤ maxRouteCapabilities) .invalidIdentity
  ensure request.startingGeneration.valid .invalidIdentity
  ensure (request.routeFloor ≤ request.routeCeiling) .floorAboveCeiling
  ensure (¬ (request.atlasIntent = .none ∧ request.routeFloor ≠ .direct)) .intentFloorConflict
  ensure (¬ (request.atlasIntent = .require ∧ request.routeCeiling = .direct))
    .intentCeilingConflict
  ensure (¬ (request.routeCeiling = .atlasDeep ∧ request.deepBudget = none)) .deepBudgetRequired
  match request.deepBudget with
  | some budget => budget.validate H
  | none => .ok ()
  ensure (request.capabilityProfile = none ∧ request.costProfile = none ∧
    request.profileRegistryDigest = none) .unknownProfile
  request.deepContracts.validate
  ensure (request.lightOperations = expectedLightOperations) .invalidLightOperations

/-! ## Deciding -/

/-- `BTreeSet`: what was inserted, each once and in order. -/
def toBTreeSet {α : Type} [LinearOrder α] (inserted : List α) : List α :=
  (inserted.insertionSort (· ≤ ·)).dedup

section BTreeSet

variable {α : Type} [LinearOrder α] {inserted : List α}

@[simp] lemma mem_toBTreeSet {a : α} : a ∈ toBTreeSet inserted ↔ a ∈ inserted := by
  rw [toBTreeSet, List.mem_dedup, List.mem_insertionSort]

@[simp] lemma toBTreeSet_eq_nil : toBTreeSet inserted = [] ↔ inserted = [] := by
  simp only [List.eq_nil_iff_forall_not_mem, mem_toBTreeSet]

/-- No element was inserted twice. -/
lemma length_toBTreeSet_iff : (toBTreeSet inserted).length = inserted.length ↔ inserted.Nodup := by
  have hperm := List.perm_insertionSort (· ≤ ·) inserted
  rw [toBTreeSet, ← hperm.length_eq, ← hperm.nodup_iff, ← List.dedup_eq_self]
  exact ⟨(List.dedup_sublist _).eq_of_length, congrArg List.length⟩

end BTreeSet

/-- The floor, the ceiling and the first route that the intent leaves a request. -/
def effectiveRoutes (request : ContextRouteRequest) : Route × Route × Route :=
  match request.atlasIntent with
  | .none => (.direct, .direct, .direct)
  | .allow => (request.routeFloor, request.routeCeiling, request.routeFloor)
  | .require =>
    let floor := max request.routeFloor .atlasLight
    (floor, request.routeCeiling, floor)

/-- The signals of a decision, in the order they are inserted. -/
def signalsOf (request : ContextRouteRequest) (effectiveFloor effectiveCeiling : Route) :
    List RouteSignal :=
  let requested := request.callerCapabilities.keys
  ((toBTreeSet request.callerCapabilities.values).map fun
    | .satisfied => .callerCapabilitiesSatisfied
    | .unsatisfied => .callerCapabilitiesUnsatisfied
    | .unknown => .callerCapabilitiesUnknown) ++
  [match request.atlasIntent with
    | .none => .atlasIntentNone
    | .allow => .atlasIntentAllow
    | .require => .atlasIntentRequire,
   match effectiveFloor with
    | .direct => .routeFloorDirect
    | .atlasLight => .routeFloorLight
    | .atlasDeep => .routeFloorDeep,
   match effectiveCeiling with
    | .direct => .routeCeilingDirect
    | .atlasLight => .routeCeilingLight
    | .atlasDeep => .routeCeilingDeep] ++
  (if 0 < request.explicitSeeds.pathCount ∨ 0 < request.explicitSeeds.symbolCount then
    [.explicitSeedsPresent] else []) ++
  (if .identityLookup ∈ requested ∨ .exactSource ∈ requested then
    [.identityOrSourceRequested] else []) ++
  (if .boundedRelationships ∈ requested ∨ .impactFrontier ∈ requested then
    [.relationshipsOrImpactRequested] else []) ++
  (if .basicCoverageConflicts ∈ requested then [.basicCoverageConflictsRequested] else []) ++
  (if ∃ capability ∈ requested, capability.minimumRoute = .atlasDeep then
    [.deepSynthesisRequested] else []) ++
  [match request.startingGeneration with
    | .observed _ => .startingGenerationObserved
    | .unavailable _ => .startingGenerationUnavailable]

/-- The capabilities the caller does not have. -/
def incompleteOf (requested : Capabilities) : List RequiredCapability :=
  requested.entries.filterMap fun (capability, state) =>
    if state ≠ .satisfied then some capability else none

/-- The reasons of a decision, in the order they are inserted. -/
def reasonsOf (request : ContextRouteRequest) (effectiveFloor : Route) : List RouteReason :=
  let incomplete := incompleteOf request.callerCapabilities
  [if ∀ state ∈ request.callerCapabilities.values, state = .satisfied then
    .callerContextSufficient else .callerContextIncomplete] ++
  (if request.atlasIntent = .none then [.atlasNotRequested] else []) ++
  (if request.atlasIntent = .require then [.explicitAtlasRequest] else []) ++
  (if ∃ capability ∈ incomplete, capability.minimumRoute = .atlasLight then
    [.lightCapabilityRequired] else []) ++
  (if ∃ capability ∈ incomplete, capability.minimumRoute = .atlasDeep then
    [.deepCapabilityRequired] else []) ++
  (if .direct < effectiveFloor then [.routeFloorApplied] else []) ++
  (if request.startingGeneration.isUnavailable then [.startingGenerationUnavailable] else [])

/-- The decision that `decide_context_route` builds for a request. -/
def routeDecision (request : ContextRouteRequest) : ContextRouteDecision :=
  let (effectiveFloor, effectiveCeiling, initialRoute) := effectiveRoutes request
  let decision : ContextRouteDecision :=
    { schemaVersion := contextRoutePolicyVersion
      request := request
      effectiveFloor := effectiveFloor
      effectiveCeiling := effectiveCeiling
      requestedCapabilities := request.callerCapabilities
      deepBudgetDigest := request.deepBudget.map fun budget => budget.budgetDigest
      initialRoute := initialRoute
      signals := toBTreeSet (signalsOf request effectiveFloor effectiveCeiling)
      reasons := toBTreeSet (reasonsOf request effectiveFloor)
      startingGeneration := request.startingGeneration
      policyVersion := contextRoutePolicyVersion
      decisionHash := "" }
  { decision with decisionHash := canonicalDecisionHash H decision }

/-- `decide_context_route`. -/
def decideContextRoute (request : ContextRouteRequest) :
    Except ContextRouteError ContextRouteDecision := do
  validateRequest H request
  return routeDecision H request

/-- `ContextRouteDecision::validate`. -/
def ContextRouteDecision.validate (decision : ContextRouteDecision) :
    Except ContextRouteError Unit := do
  validateRequest H decision.request
  ensure (decision.schemaVersion = contextRoutePolicyVersion ∧
    decision.policyVersion = contextRoutePolicyVersion ∧
    decision.requestedCapabilities = decision.request.callerCapabilities ∧
    decision.startingGeneration = decision.request.startingGeneration ∧
    decision.deepBudgetDigest =
      decision.request.deepBudget.map (fun budget => budget.budgetDigest) ∧
    decision.decisionHash = canonicalDecisionHash H decision) .invalidIdentity
  let rebuilt ← decideContextRoute H decision.request
  ensure (rebuilt = decision) .invalidIdentity

/-! ## What a validated decision satisfies -/

variable {H} {decision : ContextRouteDecision}

/-- What is decided for a valid request is accepted again. -/
lemma validate_routeDecision {request : ContextRouteRequest}
    (h : validateRequest H request = .ok ()) : (routeDecision H request).validate H = .ok () := by
  rw [ContextRouteDecision.validate]
  simp only [check_bind_eq_ok, ensure_eq_ok]
  refine ⟨h, ⟨rfl, rfl, rfl, rfl, rfl, rfl⟩, ?_⟩
  rw [decideContextRoute, show (routeDecision H request).request = request from rfl, h, bind_ok]
  exact ⟨_, rfl, ensure_eq_ok.mpr rfl⟩

lemma validateRequest_of_validate (h : decision.validate H = .ok ()) :
    validateRequest H decision.request = .ok () := by
  simp only [ContextRouteDecision.validate, check_bind_eq_ok] at h
  exact h.1

lemma routes_of_decide {request : ContextRouteRequest}
    (h : decideContextRoute H request = .ok decision) :
    effectiveRoutes request =
      (decision.effectiveFloor, decision.effectiveCeiling, decision.initialRoute) := by
  simp only [decideContextRoute, check_bind_eq_ok] at h
  obtain rfl := Except.ok.inj h.2
  rfl

lemma routes_of_validate (h : decision.validate H = .ok ()) :
    effectiveRoutes decision.request =
      (decision.effectiveFloor, decision.effectiveCeiling, decision.initialRoute) := by
  simp only [ContextRouteDecision.validate, check_bind_eq_ok] at h
  obtain ⟨rebuilt, hrebuilt, hsame⟩ := bind_ok.mp h.2.2
  have hroutes := routes_of_decide hrebuilt
  rwa [ensure_eq_ok.mp hsame] at hroutes

lemma initialRoute_eq (h : decision.validate H = .ok ()) :
    decision.initialRoute = decision.effectiveFloor := by
  have hroutes := routes_of_validate h
  simp only [effectiveRoutes] at hroutes
  split at hroutes <;> (simp only [Prod.mk.injEq] at hroutes; rw [← hroutes.1, ← hroutes.2.2])

lemma effectiveFloor_le (h : decision.validate H = .ok ()) :
    decision.effectiveFloor ≤ decision.effectiveCeiling := by
  have hreq := validateRequest_of_validate h
  simp only [validateRequest, check_bind_eq_ok, ensure_eq_ok, not_and] at hreq
  obtain ⟨-, -, -, -, hle, -, hrequire, -⟩ := hreq
  have hroutes := routes_of_validate h
  simp only [effectiveRoutes] at hroutes
  split at hroutes <;> simp only [Prod.mk.injEq] at hroutes <;> obtain ⟨hf, hc, -⟩ := hroutes <;>
    rw [← hf, ← hc]
  · exact hle
  · rename_i hintent
    refine max_le hle ?_
    have := hrequire hintent
    revert this
    cases decision.request.routeCeiling <;> decide

/-- A decision that permits DEEP comes with a budget for it. -/
lemma exists_deepBudget (h : decision.validate H = .ok ())
    (hdeep : decision.effectiveCeiling = .atlasDeep) :
    ∃ budget, decision.request.deepBudget = some budget := by
  have hreq := validateRequest_of_validate h
  simp only [validateRequest, check_bind_eq_ok, ensure_eq_ok, not_and] at hreq
  obtain ⟨-, -, -, -, -, -, -, hbudget, -⟩ := hreq
  refine Option.ne_none_iff_exists'.mp (hbudget ?_)
  have hroutes := routes_of_validate h
  simp only [effectiveRoutes] at hroutes
  split at hroutes <;> simp only [Prod.mk.injEq] at hroutes <;> obtain ⟨-, hc, -⟩ := hroutes
  · simp [← hc] at hdeep
  · rw [hc, hdeep]
  · rw [hc, hdeep]

end WorkspaceAtlas.ContextRoute
