/-
# Deep context documents

`DeepContextIrV2` in `context_ir.rs`.  The type of the confidences is a parameter: they are
numbers of a column where a document is put together, and 64-bit floating point where it is
written down.
-/
import WorkspaceAtlas.Deep.Budget
import WorkspaceAtlas.Semantic.Resolution

namespace WorkspaceAtlas.Deep

open Relational ContextRoute

/-! ## Vocabulary -/

/-- `WorkingSetStatus`. -/
inductive WorkingSetStatus where
  | complete
  | incomplete
  | blocked
  deriving DecidableEq, Repr

/-- `EntityKind`. -/
inductive EntityKind where
  | file
  | symbol
  | config
  | test
  | document
  | external
  deriving DecidableEq, Repr

/-- `ItemRole`. -/
inductive ItemRole where
  | primaryImplementation
  | directDependency
  | directDependent
  | typeContract
  | testContract
  | configurationInput
  | effect
  | historicalConstraint
  | uncertainty
  | validationTarget
  | documentation
  deriving DecidableEq, Repr

/-- `SelectionReason`. -/
inductive SelectionReason where
  | explicitSeed
  | exactSymbolMatch
  | exactPathMatch
  | directCaller
  | directCallee
  | importNeighbor
  | implementationRelation
  | testRelation
  | configRelation
  | effectRelation
  | conflictRelevance
  | unresolvedRelevance
  | generationDeltaRelevance
  | taskRecipeRequirement
  deriving DecidableEq, Repr

/-- `EvidenceQuality`. -/
inductive EvidenceQuality where
  | verified
  | supported
  | inferred
  | resolved
  | ambiguous
  | unresolved
  | external
  | stale
  | conflicting
  | partlyMapped
  | unsupported
  | excluded
  deriving DecidableEq, Repr

/-- `NoticeSeverity`. -/
inductive NoticeSeverity where
  | info
  | warning
  | error
  deriving DecidableEq, Repr

/-- `ClaimStrength`. -/
inductive ClaimStrength where
  | none
  | bounded
  | exhaustiveWithinScope
  deriving DecidableEq, Repr

/-- `ValidationKind`. -/
inductive ValidationKind where
  | test
  | build
  | lint
  | sourceVerify
  | manualReview
  | other
  deriving DecidableEq, Repr

/-- `EffectPhase`. -/
inductive EffectPhase where
  | direct
  | transitive
  | declared
  | observed
  deriving DecidableEq, Repr

/-- `IrRequirementStateV2`. -/
inductive IrRequirementStateV2 where
  | satisfied
  | missing
  | unresolved
  | stale
  | unavailable
  | unsupported
  | conflicting
  | budgetOmitted
  deriving DecidableEq, Repr

/-- `IrPathConfinementV2`. -/
inductive IrPathConfinementV2 where
  | confined
  | outsideCanonicalRoot
  | symlinkEscape
  | unavailable
  deriving DecidableEq, Repr

/-- `IrSourceVerificationV2`. -/
inductive IrSourceVerificationV2 where
  | verified
  | stale
  | unavailable
  | unsupported
  deriving DecidableEq, Repr

/-- `IrTemporalStateV2`. -/
inductive IrTemporalStateV2 where
  | notRequired
  | verifiedAncestor
  | unavailable
  | invalidBaseline
  deriving DecidableEq, Repr

/-- `IrValidationReasonV2`. -/
inductive IrValidationReasonV2 where
  | taskRecipe
  | affectedTest
  | affectedConfiguration
  | affectedBuildContract
  | requiredRoleClosure
  deriving DecidableEq, Repr

/-- `IrLeaseDependencyKindV2`. -/
inductive IrLeaseDependencyKindV2 where
  | sourceDigest
  | relationship
  | effect
  | providerFingerprint
  | coverage
  | conflict
  | plannerPolicy
  | projectionPolicy
  | estimator
  deriving DecidableEq, Repr

/-! ## Sections -/

/-- `IrWorkspaceV2`. -/
structure IrWorkspaceV2 where
  workspaceId : String
  generationId : String
  generationSequence : ℤ
  sourceTreeHash : Option String
  configurationHash : String
  providerSetHash : String
  deriving DecidableEq

/-- `IrTaskV2`. -/
structure IrTaskV2 where
  taskSessionId : String
  taskHash : String
  normalizedGoalHash : String
  taskKind : TaskKind
  kindSource : TaskKindSource
  kindRuleId : Option String
  seedPaths : List String
  seedSymbols : List String
  deriving DecidableEq

/-- `IrPolicyV2`. -/
structure IrPolicyV2 where
  plannerPolicyVersion : String
  projectionPolicyVersion : String
  estimatorVersion : String
  deterministic : Bool
  semanticBudget : IrSemanticBudgetV2
  deriving DecidableEq

/-- `IrRoleSufficiencyV2`. -/
structure IrRoleSufficiencyV2 where
  role : ItemRole
  required : Bool
  state : IrRequirementStateV2
  evidenceItemIds : List String
  reason : Option IrOmissionReasonV2
  deriving DecidableEq

/-- `IrStatusV2`. -/
structure IrStatusV2 where
  workingSetStatus : WorkingSetStatus
  roleSufficiency : List IrRoleSufficiencyV2
  exactSource : IrRequirementStateV2
  validation : IrRequirementStateV2
  reasons : List IrOmissionReasonV2
  deriving DecidableEq

/-- `IrSourceRefV2`. -/
structure IrSourceRefV2 where
  canonicalPath : String
  wholeFileSha256 : String
  startByte : ℕ
  endByte : ℕ
  observedSha256 : Option String
  verificationStatus : IrSourceVerificationV2
  canonicalRootConfinement : IrPathConfinementV2
  revalidatedBeforeSeal : Bool
  deriving DecidableEq

/-- `IrItemCostV2`. -/
structure IrItemCostV2 where
  metadataBytes : ℕ
  sourceBytes : ℕ
  estimatedTokens : ℕ
  deriving DecidableEq

/-- `IrEvidence`. -/
structure IrEvidence (F : Type) where
  state : EvidenceQuality
  confidence : F
  providerFingerprint : Option String
  sourceRevisionHash : Option String
  generationId : String
  preferred : Option Bool
  alternativeCount : Option ℤ
  deriving DecidableEq

/-- `IrWorkingSetItemV2`. -/
structure IrWorkingSetItemV2 (F : Type) where
  itemId : String
  entityKind : EntityKind
  entityId : String
  role : ItemRole
  selectionReason : SelectionReason
  originId : Option String
  distance : ℕ
  rank : ℕ
  evidence : IrEvidence F
  cost : IrItemCostV2
  source : Option IrSourceRefV2
  deriving DecidableEq

/-- `IrRelationship`. -/
structure IrRelationship (F : Type) where
  relationshipId : String
  sourceEntityId : String
  targetEntityId : String
  relationshipType : String
  resolutionState : ResolutionStatus
  evidence : IrEvidence F
  deriving DecidableEq

/-- `IrEffect`. -/
structure IrEffect (F : Type) where
  subjectEntityId : String
  effectType : String
  phase : EffectPhase
  evidence : IrEvidence F
  deriving DecidableEq

/-- `IrTemporalConstraintsV2`. -/
structure IrTemporalConstraintsV2 where
  currentGenerationId : String
  baselineGenerationId : Option String
  state : IrTemporalStateV2
  evidenceItemIds : List String
  omissionReason : Option IrOmissionReasonV2
  deriving DecidableEq

/-- `IrNoticeV2`. -/
structure IrNoticeV2 where
  code : IrOmissionReasonV2
  severity : NoticeSeverity
  entityIds : List String
  deriving DecidableEq

/-- `IrCoverageV2`. -/
structure IrCoverageV2 where
  eligible : ℕ
  complete : ℕ
  partlyCovered : ℕ
  unsupported : ℕ
  excluded : ℕ
  failed : ℕ
  claimStrength : ClaimStrength
  deficits : List IrOmissionReasonV2
  deriving DecidableEq

/-- `IrValidationV2`. -/
structure IrValidationV2 where
  kind : ValidationKind
  targetEntityId : String
  reason : IrValidationReasonV2
  required : Bool
  deriving DecidableEq

/-- `IrLeaseDependencyV2`. -/
structure IrLeaseDependencyV2 where
  kind : IrLeaseDependencyKindV2
  key : String
  digest : String
  deriving DecidableEq

/-- `IrEvidenceLeaseV2`. -/
structure IrEvidenceLeaseV2 where
  generationId : String
  dependencies : List IrLeaseDependencyV2
  deriving DecidableEq

/-- `DeepContextIrV2`. -/
structure DeepContextIrV2 (F : Type) where
  schemaVersion : String
  contextId : String
  workspace : IrWorkspaceV2
  task : IrTaskV2
  policy : IrPolicyV2
  status : IrStatusV2
  workingSet : List (IrWorkingSetItemV2 F)
  relationships : List (IrRelationship F)
  effects : List (IrEffect F)
  temporalConstraints : IrTemporalConstraintsV2
  uncertainty : List IrNoticeV2
  coverage : IrCoverageV2
  omissions : IrOmissionsV2
  validationPlan : List IrValidationV2
  evidenceLease : IrEvidenceLeaseV2
  cost : IrCostV2
  contextHash : String
  deriving DecidableEq

end WorkspaceAtlas.Deep
