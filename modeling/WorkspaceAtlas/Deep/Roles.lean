/-
# The roles of a deep context

The role matrix of `planner-v2.0.0` in `task_compiler.rs`, and when a role is reported as
satisfied: it has evidence, no evidence of it is in question, and no deficit of it was recorded.
-/
import Mathlib.Data.List.MinMax
import Mathlib.Data.String.Basic
import WorkspaceAtlas.Deep.Document
import WorkspaceAtlas.Relational.Query

namespace WorkspaceAtlas.Deep

open Relational Transition ContextRoute

/-! ## The matrix -/

/-- `DeepV2RoleRecipe`. -/
structure DeepV2RoleRecipe where
  requiredRoles : List ItemRole
  requiresExactSource : Bool
  requiresValidation : Bool

/-- `DEEP_V2_ROLES`. -/
def deepV2Roles : List ItemRole :=
  [.primaryImplementation, .directDependency, .directDependent, .typeContract, .testContract,
    .configurationInput, .effect, .historicalConstraint, .uncertainty, .validationTarget,
    .documentation]

/-- The roles that a task needs. -/
def requiredRoles : TaskKind → List ItemRole
  | .explore => [.primaryImplementation]
  | .bugFix => [.primaryImplementation, .testContract, .historicalConstraint, .validationTarget]
  | .behaviorChange =>
    [.primaryImplementation, .directDependent, .testContract, .effect, .validationTarget]
  | .apiChange =>
    [.primaryImplementation, .typeContract, .directDependent, .testContract, .effect,
      .validationTarget]
  | .refactor => [.primaryImplementation, .directDependent, .testContract, .validationTarget]
  | .configurationChange =>
    [.primaryImplementation, .configurationInput, .testContract, .validationTarget]
  | .testChange => [.primaryImplementation, .testContract, .validationTarget]
  | .review =>
    [.primaryImplementation, .testContract, .effect, .historicalConstraint, .validationTarget]
  | .audit =>
    [.primaryImplementation, .testContract, .configurationInput, .historicalConstraint,
      .validationTarget]
  | .unknown => [.primaryImplementation, .validationTarget]

/-- `deep_v2_role_recipe`. -/
def deepV2RoleRecipe (taskKind : TaskKind) : DeepV2RoleRecipe :=
  ⟨requiredRoles taskKind, true, true⟩

/-! ## Deficits -/

/-- `DeepV2RoleDeficit`. -/
abbrev DeepV2RoleDeficit := ItemRole × IrOmissionReasonV2

/-- `role_deficit_priority`. -/
def roleDeficitPriority : IrOmissionReasonV2 → ℕ
  | .conflictingEvidence => 0
  | .staleEvidence => 1
  | .unresolvedEvidence => 2
  | .unsupportedEvidence => 3
  | .recordBudget | .sourceByteBudget | .estimatedTokenBudget | .relationshipDepthBudget
  | .workUnitBudget | .uncertaintyReserve => 4
  | _ => 5

/-- `record_role_deficit`: a role keeps one deficit, the most pressing one. -/
def recordRoleDeficit (role : ItemRole) (reason : IrOmissionReasonV2) :
    List DeepV2RoleDeficit → List DeepV2RoleDeficit
  | [] => [(role, reason)]
  | entry :: rest =>
    if entry.1 = role then
      (if roleDeficitPriority reason < roleDeficitPriority entry.2 then (entry.1, reason)
        else entry) :: rest
    else entry :: recordRoleDeficit role reason rest

/-- `evidence_reason_for_quality`. -/
def evidenceReasonForQuality : EvidenceQuality → Option IrOmissionReasonV2
  | .stale => some .staleEvidence
  | .conflicting => some .conflictingEvidence
  | .unsupported | .excluded => some .unsupportedEvidence
  | .inferred | .ambiguous | .unresolved | .partlyMapped | .external => some .unresolvedEvidence
  | .verified | .supported | .resolved => none

/-- `requirement_state_for_reason`. -/
def requirementStateForReason : IrOmissionReasonV2 → IrRequirementStateV2
  | .staleEvidence | .sourceVerificationFailed => .stale
  | .unsupportedEvidence => .unsupported
  | .conflictingEvidence => .conflicting
  | .recordBudget | .sourceByteBudget | .estimatedTokenBudget | .relationshipDepthBudget
  | .workUnitBudget | .uncertaintyReserve => .budgetOmitted
  | _ => .unresolved

/-! ## Sufficiency -/

section Sufficiency

variable {F : Type}

/-- `min_by_key` of the priorities. -/
def mostPressing (reasons : List IrOmissionReasonV2) : Option IrOmissionReasonV2 :=
  reasons.argmin roleDeficitPriority

/-- The items of the working set with a role. -/
def itemsOf (workingSet : List (IrWorkingSetItemV2 F)) (role : ItemRole) :
    List (IrWorkingSetItemV2 F) :=
  workingSet.filter fun item => item.role = role

/-- The entry of a role. -/
def roleSufficiency (recipe : DeepV2RoleRecipe) (workingSet : List (IrWorkingSetItemV2 F))
    (deficits : List DeepV2RoleDeficit) (role : ItemRole) : IrRoleSufficiencyV2 :=
  let items := itemsOf workingSet role
  let evidenceItemIds := orderBy id (items.map IrWorkingSetItemV2.itemId)
  let evidenceReason :=
    mostPressing (items.filterMap fun item => evidenceReasonForQuality item.evidence.state)
  let recordedReason :=
    mostPressing ((deficits.filter fun entry => entry.1 = role).map Prod.snd)
  let required : Bool := role ∈ recipe.requiredRoles
  let (state, reason) :=
    if evidenceItemIds ≠ [] ∧ evidenceReason = none ∧ recordedReason = none then
      (IrRequirementStateV2.satisfied, none)
    else
      match evidenceReason.or recordedReason with
      | some reason => (requirementStateForReason reason, some reason)
      | none =>
        if required then (.missing, some IrOmissionReasonV2.missingRequiredRole)
        else (.unavailable, some .unavailableEvidence)
  { role := role
    required := required
    state := state
    evidenceItemIds := evidenceItemIds
    reason := reason }

/-- `deep_v2_role_sufficiency`. -/
def deepV2RoleSufficiency (recipe : DeepV2RoleRecipe) (workingSet : List (IrWorkingSetItemV2 F))
    (deficits : List DeepV2RoleDeficit) : List IrRoleSufficiencyV2 :=
  deepV2Roles.map (roleSufficiency recipe workingSet deficits)

/-- A deficit of the role was recorded. -/
def HasDeficit (deficits : List DeepV2RoleDeficit) (role : ItemRole) : Prop :=
  ∃ entry ∈ deficits, entry.1 = role

/-- The evidence of the item is in question. -/
def IrWorkingSetItemV2.InQuestion (item : IrWorkingSetItemV2 F) : Prop :=
  (evidenceReasonForQuality item.evidence.state).isSome

variable {deficits : List DeepV2RoleDeficit} {role role' : ItemRole} {reason : IrOmissionReasonV2}
  {recipe : DeepV2RoleRecipe} {workingSet : List (IrWorkingSetItemV2 F)}

@[simp] lemma hasDeficit_recordRoleDeficit :
    HasDeficit (recordRoleDeficit role reason deficits) role' ↔
      HasDeficit deficits role' ∨ role' = role := by
  induction deficits with
  | nil => simp [HasDeficit, recordRoleDeficit, eq_comm]
  | cons entry rest ih =>
    rw [recordRoleDeficit]
    by_cases hrole : entry.1 = role
    · subst hrole
      rw [if_pos rfl]
      have hkept : (if roleDeficitPriority reason < roleDeficitPriority entry.2 then
          (entry.1, reason) else entry).1 = entry.1 := by
        split <;> rfl
      simp only [HasDeficit, List.exists_mem_cons_iff, hkept]
      constructor
      · exact Or.inl
      · rintro (h | h)
        · exact h
        · exact Or.inl h.symm
    · rw [if_neg hrole]
      simp only [HasDeficit, List.exists_mem_cons_iff] at ih ⊢
      rw [ih, or_assoc]

lemma requirementStateForReason_ne_satisfied :
    requirementStateForReason reason ≠ .satisfied := by
  cases reason <;> decide

lemma mostPressing_eq_none {reasons : List IrOmissionReasonV2} :
    mostPressing reasons = none ↔ reasons = [] := List.argmin_eq_none

/-- **When a role is satisfied.** -/
theorem roleSufficiency_satisfied :
    (roleSufficiency recipe workingSet deficits role).state = .satisfied ↔
      (∃ item ∈ workingSet, item.role = role) ∧
      (∀ item ∈ workingSet, item.role = role → ¬ item.InQuestion) ∧
      ¬ HasDeficit deficits role := by
  have hids : orderBy id ((itemsOf workingSet role).map IrWorkingSetItemV2.itemId) ≠ [] ↔
      ∃ item ∈ workingSet, item.role = role := by
    have hperm : List.Perm (orderBy id ((itemsOf workingSet role).map IrWorkingSetItemV2.itemId))
        ((itemsOf workingSet role).map IrWorkingSetItemV2.itemId) := perm_orderBy
    rw [← List.length_pos_iff, hperm.length_eq, List.length_map,
      List.length_pos_iff_exists_mem]
    simp only [itemsOf, List.mem_filter, decide_eq_true_eq]
  have hevidence : mostPressing ((itemsOf workingSet role).filterMap fun item =>
      evidenceReasonForQuality item.evidence.state) = none ↔
      ∀ item ∈ workingSet, item.role = role → ¬ item.InQuestion := by
    rw [mostPressing_eq_none, List.filterMap_eq_nil_iff]
    simp [itemsOf, IrWorkingSetItemV2.InQuestion]
  have hrecorded : mostPressing ((deficits.filter fun entry => entry.1 = role).map Prod.snd) =
      none ↔ ¬ HasDeficit deficits role := by
    rw [mostPressing_eq_none, List.map_eq_nil_iff, List.filter_eq_nil_iff, HasDeficit, not_exists]
    simp only [decide_eq_true_eq, not_and]
  rw [← hids, ← hevidence, ← hrecorded]
  unfold roleSufficiency
  dsimp only
  split
  next hqualified => exact iff_of_true rfl hqualified
  next hnot =>
    refine iff_of_false (fun h => ?_) hnot
    split at h
    · exact requirementStateForReason_ne_satisfied h
    · split at h
      · exact absurd h (by simp)
      · exact absurd h (by simp)

/-- The report has an entry for every role. -/
lemma mem_deepV2RoleSufficiency {entry : IrRoleSufficiencyV2} :
    entry ∈ deepV2RoleSufficiency recipe workingSet deficits ↔
      ∃ role, roleSufficiency recipe workingSet deficits role = entry := by
  simp only [deepV2RoleSufficiency, List.mem_map]
  refine exists_congr fun role => and_iff_right ?_
  cases role <;> decide

end Sufficiency

end WorkspaceAtlas.Deep
