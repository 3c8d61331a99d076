/-
# The budget gate of deep contexts

`enforce_deep_v2_budget` in `task_compiler.rs`.  The candidates are looked at in the order of
their ranks.  The work of each is charged first; one whose work can be charged is selected if it
is within the depth and if it fits, next to those selected before it, into its part of the
records, into the bytes of source and into the tokens.
-/
import WorkspaceAtlas.Deep.Ledger
import WorkspaceAtlas.Route.Policy
import WorkspaceAtlas.Transition.Gate

namespace WorkspaceAtlas.Deep

open Relational Transition ContextRoute

/-! ## Candidates and outcomes -/

/-- `IrOmissionReasonV2`. -/
inductive IrOmissionReasonV2 where
  | missingRequiredRole
  | unresolvedEvidence
  | staleEvidence
  | unavailableEvidence
  | unsupportedEvidence
  | conflictingEvidence
  | ambiguousSeed
  | ftsCandidateLimit
  | recordBudget
  | sourceByteBudget
  | estimatedTokenBudget
  | relationshipDepthBudget
  | workUnitBudget
  | uncertaintyReserve
  | temporalEvidenceUnavailable
  | validationTargetUnavailable
  | sourceVerificationFailed
  deriving DecidableEq, Repr

instance : LinearOrder IrOmissionReasonV2 := LinearOrder.lift' IrOmissionReasonV2.ctorIdx
  fun r s h => by rw [← IrOmissionReasonV2.ofNat_ctorIdx r, h, IrOmissionReasonV2.ofNat_ctorIdx]

/-- `DeepV2BudgetCandidate`.  The rank, the costs and the work are `u64`, the depth is `u32`. -/
structure DeepV2BudgetCandidate where
  candidateId : String
  rank : ℕ
  sourceBytes : ℕ
  estimatedTokens : ℕ
  relationshipDepth : ℕ
  workUnits : ℕ
  uncertainty : Bool
  deriving DecidableEq, Repr

/-- `IrSemanticBudgetV2`. -/
structure IrSemanticBudgetV2 where
  maxRecords : ℕ
  maxSourceBytes : ℕ
  maxEstimatedTokens : ℕ
  maxRelationshipDepth : ℕ
  maxWorkUnits : ℕ
  uncertaintyReservePercent : ℕ
  budgetDigest : String
  deriving DecidableEq, Repr

/-- `IrCostV2`. -/
structure IrCostV2 where
  selectedRecords : ℕ
  selectedSourceBytes : ℕ
  selectedEstimatedTokens : ℕ
  relationshipDepthReached : ℕ
  workUnitsConsumed : ℕ
  uncertaintyRecordsReserved : ℕ
  uncertaintyRecordsSelected : ℕ
  deriving DecidableEq, Repr

/-- `IrOmissionsV2`. -/
structure IrOmissionsV2 where
  candidatesConsidered : ℕ
  selected : ℕ
  omitted : ℕ
  truncated : Bool
  byReason : SortedMap IrOmissionReasonV2 ℕ
  deriving DecidableEq

/-- `DeepV2BudgetOutcome`. -/
structure DeepV2BudgetOutcome where
  selectedCandidateIds : List String
  omittedCandidates : List (String × IrOmissionReasonV2)
  semanticBudget : IrSemanticBudgetV2
  cost : IrCostV2
  omissions : IrOmissionsV2
  deriving DecidableEq

/-! ## The gate -/

/-- The text of a `ContextRouteError`. -/
def errorText : ContextRouteError → String
  | .unsupportedVersion contract supplied => "unsupported " ++ contract ++ " version " ++ supplied
  | .floorAboveCeiling => "route floor is above route ceiling"
  | .intentFloorConflict => "Atlas intent conflicts with the route floor"
  | .intentCeilingConflict => "Atlas intent requires a route excluded by the ceiling"
  | .deepBudgetRequired => "a DEEP-permitting request requires explicit semantic budgets"
  | .invalidDeepBudget => "deep semantic budgets must be positive and within advertised bounds"
  | .invalidDeepBudgetDigest => "deep semantic budget digest is invalid"
  | .invalidIdentity => "hash or identifier is malformed"
  | .invalidLightOperations =>
    "LIGHT operation contracts are incomplete, duplicated, unordered, or unsupported"
  | .unknownProfile => "no capability or cost profiles are registered by context-route-v2.0.0"
  | .invalidExecution =>
    "execution envelope violates its state, route, payload, or bound invariants"

/-- `budget.validate()` with the error of the compiler. -/
def validateExplicit (H : Hasher) (budget : DeepSemanticBudget) : Except AtlasError Unit :=
  (budget.validate H).mapError fun error =>
    .invalidConfig ("invalid explicit V2 semantic budget: " ++ errorText error)

/-- `IrSemanticBudgetV2::from_explicit_budget`. -/
def IrSemanticBudgetV2.fromExplicitBudget (H : Hasher) (supplied : DeepSemanticBudget) :
    Except AtlasError IrSemanticBudgetV2 := do
  validateExplicit H supplied
  return {
    maxRecords := supplied.maxRecords
    maxSourceBytes := supplied.maxSourceBytes
    maxEstimatedTokens := supplied.maxEstimatedTokens
    maxRelationshipDepth := supplied.maxDepth
    maxWorkUnits := supplied.maxWorkUnits
    uncertaintyReservePercent := supplied.uncertaintyReservePercent
    budgetDigest := digestOf H "workspace-atlas/context-ir-v2-semantic-budget"
      (CanonicalEncoder.budgetValues supplied) }

/-- `uncertainty_reserve_records`.  The product is taken in `u128`. -/
def uncertaintyReserveRecords (maxRecords uncertaintyReservePercent : ℕ) :
    Except AtlasError ℕ := do
  let product := maxRecords * uncertaintyReservePercent
  ensure (product < 2 ^ 128)
    (.invalidConfig "deep Context IR uncertainty reserve overflow")
  let reserved := (product + 99) / 100
  ensure (reserved < 2 ^ 64)
    (.invalidConfig "deep Context IR uncertainty reserve exceeds record bound")
  return reserved

/-- The bounds that a candidate is held to, apart from its work. -/
structure Bounds where
  maxDepth : ℕ
  uncertaintyRecordsReserved : ℕ
  ordinaryRecordLimit : ℕ
  maxSourceBytes : ℕ
  maxEstimatedTokens : ℕ

/-- The variables of the loop over the candidates. -/
structure Packing where
  selectedCandidateIds : List String
  selectedSourceBytes : ℕ
  selectedEstimatedTokens : ℕ
  relationshipDepthReached : ℕ
  ordinaryRecordsSelected : ℕ
  uncertaintyRecordsSelected : ℕ
  byReason : SortedMap IrOmissionReasonV2 ℕ
  omittedCandidates : List (String × IrOmissionReasonV2)

/-- `checked_add`. -/
def u64CheckedAdd (m n : ℕ) : Option ℕ := if m + n < 2 ^ 64 then some (m + n) else none

/-- The first bound that a candidate breaks next to those selected before it. -/
def Packing.omission (B : Bounds) (p : Packing) (candidate : DeepV2BudgetCandidate) :
    Option IrOmissionReasonV2 :=
  if B.maxDepth < candidate.relationshipDepth then some .relationshipDepthBudget
  else if candidate.uncertainty ∧ B.uncertaintyRecordsReserved ≤ p.uncertaintyRecordsSelected then
    some .uncertaintyReserve
  else if ¬ candidate.uncertainty ∧ B.ordinaryRecordLimit ≤ p.ordinaryRecordsSelected then
    some .recordBudget
  else if (u64CheckedAdd p.selectedSourceBytes candidate.sourceBytes).all
      (B.maxSourceBytes < ·) then
    some .sourceByteBudget
  else if (u64CheckedAdd p.selectedEstimatedTokens candidate.estimatedTokens).all
      (B.maxEstimatedTokens < ·) then
    some .estimatedTokenBudget
  else none

/-- A candidate is omitted. -/
def Packing.omit (p : Packing) (candidate : DeepV2BudgetCandidate) (reason : IrOmissionReasonV2)
    (overflow : String) : Except AtlasError Packing := do
  let count ← checkedAdd (.invalidConfig overflow) ((p.byReason.get reason).getD 0) 1
  return { p with
    byReason := p.byReason.insert reason count
    omittedCandidates := p.omittedCandidates ++ [(candidate.candidateId, reason)] }

/-- A candidate is selected. -/
def Packing.select (p : Packing) (candidate : DeepV2BudgetCandidate) :
    Except AtlasError Packing := do
  let sourceBytes ← checkedAdd (.invalidConfig "V2 source-byte cost overflow")
    p.selectedSourceBytes candidate.sourceBytes
  let estimatedTokens ← checkedAdd (.invalidConfig "V2 token cost overflow")
    p.selectedEstimatedTokens candidate.estimatedTokens
  return { p with
    selectedCandidateIds := p.selectedCandidateIds ++ [candidate.candidateId]
    selectedSourceBytes := sourceBytes
    selectedEstimatedTokens := estimatedTokens
    relationshipDepthReached := max p.relationshipDepthReached candidate.relationshipDepth
    ordinaryRecordsSelected :=
      if candidate.uncertainty then p.ordinaryRecordsSelected else p.ordinaryRecordsSelected + 1
    uncertaintyRecordsSelected :=
      if candidate.uncertainty then p.uncertaintyRecordsSelected + 1
      else p.uncertaintyRecordsSelected }

/-- No candidate has been looked at. -/
def Packing.start : Packing := ⟨[], 0, 0, 0, 0, 0, .empty, []⟩

/-- The body of the loop. -/
def enforceCandidate (B : Bounds) (s : Packing × DeepWorkLedger)
    (candidate : DeepV2BudgetCandidate) : Except AtlasError (Packing × DeepWorkLedger) := do
  ensure (candidate.workUnits ≠ 0) (.invalidConfig "V2 candidate work_units must be > 0")
  let (charged, ledger) ← s.2.tryCharge candidate.workUnits
  let omission := if charged then s.1.omission B candidate else some .workUnitBudget
  let p ← match omission with
    | some reason => s.1.omit candidate reason "V2 omission count exceeds the supported range"
    | none => s.1.select candidate
  return (p, ledger)

/-- The identities of the candidates are bounded and distinct, and their ranks are their
positions. -/
def CanonicalRanks (candidates : List DeepV2BudgetCandidate) : Prop :=
  (∀ c ∈ candidates, c.candidateId ≠ "" ∧ (utf8 c.candidateId).length ≤ 512) ∧
    candidates.map DeepV2BudgetCandidate.rank = List.range candidates.length ∧
    (candidates.map DeepV2BudgetCandidate.candidateId).Nodup

instance (candidates : List DeepV2BudgetCandidate) : Decidable (CanonicalRanks candidates) :=
  inferInstanceAs (Decidable (_ ∧ _ ∧ _))

/-- `enforce_deep_v2_budget_with_ledger`. -/
def enforceDeepV2BudgetWithLedger (H : Hasher) (budget : DeepSemanticBudget)
    (candidates : List DeepV2BudgetCandidate) (workLedger : DeepWorkLedger) :
    Except AtlasError (DeepV2BudgetOutcome × DeepWorkLedger) := do
  validateExplicit H budget
  ensure (workLedger.limit = budget.maxWorkUnits ∧ workLedger.consumed ≤ budget.maxWorkUnits)
    (.invalidConfig "V2 request work ledger does not match its semantic budget")
  ensure (candidates.length ≤ maxContextExecutionRecords)
    (.invalidConfig "V2 candidate count exceeds the execution envelope")
  let reserved ← uncertaintyReserveRecords budget.maxRecords budget.uncertaintyReservePercent
  ensure (CanonicalRanks candidates) (.invalidConfig
    "V2 candidates must have bounded unique identities in canonical rank order")
  let (p, ledger) ← candidates.foldlM (enforceCandidate
    { maxDepth := budget.maxDepth
      uncertaintyRecordsReserved := reserved
      ordinaryRecordLimit := budget.maxRecords - reserved
      maxSourceBytes := budget.maxSourceBytes
      maxEstimatedTokens := budget.maxEstimatedTokens }) (.start, workLedger)
  let selectedRecords := p.selectedCandidateIds.length
  ensure (selectedRecords ≤ candidates.length)
    (.invalidConfig "V2 omission count does not reconcile")
  let omitted := candidates.length - selectedRecords
  let semanticBudget ← IrSemanticBudgetV2.fromExplicitBudget H budget
  return ({
    selectedCandidateIds := p.selectedCandidateIds
    omittedCandidates := p.omittedCandidates
    semanticBudget := semanticBudget
    cost := {
      selectedRecords := selectedRecords
      selectedSourceBytes := p.selectedSourceBytes
      selectedEstimatedTokens := p.selectedEstimatedTokens
      relationshipDepthReached := p.relationshipDepthReached
      workUnitsConsumed := ledger.consumed
      uncertaintyRecordsReserved := reserved
      uncertaintyRecordsSelected := p.uncertaintyRecordsSelected }
    omissions := {
      candidatesConsidered := candidates.length
      selected := selectedRecords
      omitted := omitted
      truncated := omitted ≠ 0
      byReason := p.byReason } }, ledger)

/-- `enforce_deep_v2_budget`. -/
def enforceDeepV2Budget (H : Hasher) (budget : DeepSemanticBudget)
    (candidates : List DeepV2BudgetCandidate) : Except AtlasError DeepV2BudgetOutcome := do
  let (outcome, _) ←
    enforceDeepV2BudgetWithLedger H budget candidates (.new budget.maxWorkUnits)
  return outcome

end WorkspaceAtlas.Deep
