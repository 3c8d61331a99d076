/-
# Executions of providers

The part of `run_one_plan` that decides whether a provider is run and records how it ended: an
execution with the same inputs that ended well is reused, any other one is run.  What became of
it is recorded under an id that is hashed from the inputs, and as the coverage of the provider
in the generation; rows that are there already are kept as they are.
-/
import WorkspaceAtlas.Semantic.Outcome
import WorkspaceAtlas.Serving.Store

namespace WorkspaceAtlas

open Relational Transition

/-! ## The tables -/

/-- The columns that an execution is unique in: the workspace, the provider, the kind and the
key of the scope, the fingerprint of the inputs, and the versions of the schema and of the
mapping policy. -/
structure ExecutionIdentity where
  workspaceId : String
  providerKey : String
  scopeKind : String
  scopeKey : String
  inputFingerprint : String
  normalizedSchemaVersion : String
  mappingPolicyVersion : String
  deriving DecidableEq, Repr

/-- The id of an execution. -/
def ExecutionIdentity.id (H : Hasher) (k : ExecutionIdentity) : String :=
  deterministicId H "pex" [k.workspaceId, k.providerKey, k.scopeKind, k.scopeKey,
    k.inputFingerprint, k.normalizedSchemaVersion, k.mappingPolicyVersion]

/-- A row of `provider_execution`, less its telemetry. -/
structure ProviderExecution where
  providerExecutionId : String
  identity : ExecutionIdentity
  generationId : String
  status : ProviderOutcome
  deriving DecidableEq, Repr

instance : Keyed ProviderExecution where
  Clash a b := a.providerExecutionId = b.providerExecutionId ∨ a.identity = b.identity
  decideClash _ _ := inferInstance
  clash_refl _ := Or.inl rfl
  clash_symm h := h.imp Eq.symm Eq.symm

/-- A row of `coverage_record` with the key of its scope. -/
structure ScopedCoverage extends CoverageRecord where
  scopeKey : String
  deriving DecidableEq, Repr

instance : Keyed ScopedCoverage := .ofKey fun r => r.coverageId

/-- The tables that `run_one_plan` records executions in. -/
structure ExecutionTables where
  providerExecution : Table ProviderExecution
  coverageRecord : Table ScopedCoverage

/-- Nothing has been recorded. -/
def ExecutionTables.empty : ExecutionTables := ⟨.empty, .empty⟩

/-! ## Recording -/

/-- `coverage_status_for_outcome`. -/
def coverageStatusForOutcome : ProviderOutcome → CoverageStatus
  | .complete => .complete
  | .partlyComplete => .partly
  | .unsupported | .unavailable => .excluded
  | .stale => .stale
  | .failed | .cancelled | .timedOut | .outputRejected | .decodeFailed | .mappingFailed => .failed
  | .planned | .running => .partly

/-- The text of the kind of a scope. -/
def CoverageScope.asStr : CoverageScope → String
  | workspace => "workspace"
  | file => "file"
  | provider => "provider"
  | capability => "capability"

/-- The id of a coverage record. -/
def coverageId (H : Hasher) (generationId : String) (scopeKind : CoverageScope)
    (scopeKey : String) : String :=
  deterministicId H "cov" [generationId, scopeKind.asStr, scopeKey]

/-- `record_coverage`. -/
def recordCoverage (H : Hasher) (t : Table ScopedCoverage) (generationId : String)
    (fileId : Option String) (scopeKind : CoverageScope) (scopeKey : String)
    (status : CoverageStatus) : Table ScopedCoverage :=
  t.insertOrIgnore
    ⟨⟨coverageId H generationId scopeKind scopeKey, generationId, fileId, scopeKind, status⟩,
      scopeKey⟩

/-- Outcomes whose executions are reused. -/
def ProviderOutcome.isReusable : ProviderOutcome → Bool
  | complete | partlyComplete => true
  | _ => false

/-- `find_reusable_execution`: at most one row has the identity, so that the order of the rows
does not matter. -/
def findReusableExecution (t : Table ProviderExecution) (identity : ExecutionIdentity) :
    Option ProviderExecution :=
  t.find? fun e => e.identity = identity ∧ e.status.isReusable = true

/-- `record_provider_execution`. -/
def recordProviderExecution (H : Hasher) (t : Table ProviderExecution) (generationId : String)
    (identity : ExecutionIdentity) (status : ProviderOutcome) : Table ProviderExecution :=
  t.insertOrIgnore ⟨identity.id H, identity, generationId, status⟩

/-! ## `run_one_plan` -/

/-- `SpawnOutcome`, less what the provider printed. -/
inductive SpawnOutcome where
  | exited (exitCode : Option ℤ)
  | timedOut
  | cancelled
  | unavailable
  deriving DecidableEq, Repr

/-- What a spawned provider is recorded as. -/
def SpawnOutcome.status : SpawnOutcome → ProviderOutcome
  | exited exitCode => if exitCode = some 0 then .complete else .failed
  | timedOut => .timedOut
  | cancelled => .cancelled
  | unavailable => .unavailable

/-- What the output of a provider came to: it was rejected, could not be read, could not be
decoded, or had documents. -/
inductive ProviderOutput where
  | rejected
  | unreadable (e : AtlasError)
  | undecodable
  | decoded (documents : List ProviderDocument)
  deriving DecidableEq, Repr

/-- `PlannedSemanticExecution` with what the probe, the files of the scope, the provider and its
output come to. -/
structure PlannedExecution where
  providerName : String
  providerVersion : String
  configurationHash : String
  required : Bool
  enabled : Bool
  providerKey : String
  scopeKey : String
  mappingPolicyVersion : String
  probeAvailable : Bool
  inputFingerprint : Except AtlasError String
  spawn : Except AtlasError SpawnOutcome
  output : ProviderOutput

namespace PlannedExecution

/-- What the execution is looked up and recorded by. -/
def identity (p : PlannedExecution) (workspaceId inputFingerprint : String) :
    ExecutionIdentity where
  workspaceId := workspaceId
  providerKey := p.providerKey
  scopeKind := "project"
  scopeKey := p.scopeKey
  inputFingerprint := inputFingerprint
  normalizedSchemaVersion := "1.1.0"
  mappingPolicyVersion := p.mappingPolicyVersion

/-- The plan with its result. -/
def toPlan (p : PlannedExecution) (result : PlanResult) : SemanticPlan :=
  ⟨p.providerName, p.providerVersion, p.configurationHash, p.required, p.enabled, result⟩

end PlannedExecution

/-- The status of an execution that ended with documents. -/
def finalStatus (documents : List ProviderDocument) : ProviderOutcome :=
  if documents.any fun doc => doc.mapped.partlyMapped then .partlyComplete else .complete

namespace Execution

/-- The coverage of a provider is recorded. -/
def recordProviderCoverage (H : Hasher) (s : ExecutionTables)
    (generationId providerKey : String) (outcome : ProviderOutcome) : ExecutionTables :=
  { s with
    coverageRecord := recordCoverage H s.coverageRecord generationId none .provider providerKey
      (coverageStatusForOutcome outcome) }

/-- An execution and the coverage of its provider are recorded. -/
def recordExecution (H : Hasher) (s : ExecutionTables) (generationId : String)
    (identity : ExecutionIdentity) (outcome : ProviderOutcome) : ExecutionTables :=
  recordProviderCoverage H
    { s with
      providerExecution :=
        recordProviderExecution H s.providerExecution generationId identity outcome }
    generationId identity.providerKey outcome

/-- `run_one_plan`, less the facts of the documents. -/
def runOnePlan (H : Hasher) (workspaceId generationId : String) (s : ExecutionTables)
    (p : PlannedExecution) : Except AtlasError (ExecutionTables × PlanResult) :=
  if ¬ p.probeAvailable then
    .ok (recordProviderCoverage H s generationId p.providerKey .unavailable,
      .failure .unavailable)
  else
    match p.inputFingerprint with
    | .error e => .error e
    | .ok inputFingerprint =>
      let identity := p.identity workspaceId inputFingerprint
      match findReusableExecution s.providerExecution identity with
      | some reused =>
        .ok (recordProviderCoverage H s generationId p.providerKey reused.status, .reused)
      | none =>
        match p.spawn with
        | .error e => .error e
        | .ok outcome =>
          if outcome.status ≠ .complete then
            .ok (recordExecution H s generationId identity outcome.status,
              .failure outcome.status)
          else
            match p.output with
            | .rejected =>
              .ok (recordExecution H s generationId identity .outputRejected,
                .failure .outputRejected)
            | .unreadable e => .error e
            | .undecodable =>
              .ok (recordExecution H s generationId identity .decodeFailed,
                .failure .decodeFailed)
            | .decoded documents =>
              .ok (recordExecution H s generationId identity (finalStatus documents),
                .executed documents)

/-- `run_one_plan`: the execution is recorded and the facts of its documents are stored. -/
def reconcilePlan (H : Hasher) (revisions : Table FileRevision) (files : Table GenerationFile)
    (workspaceId generationId : String) (now : Timestamp) (s : ExecutionTables × SemanticState)
    (p : PlannedExecution) : Except AtlasError (ExecutionTables × SemanticState) :=
  if ¬ p.enabled then .ok s
  else do
    let (executions, result) ← runOnePlan H workspaceId generationId s.1 p
    let facts ← WorkspaceAtlas.runOnePlan H revisions files generationId now s.2 (p.toPlan result)
    return (executions, facts)

/-- `run_semantic_reconcile`, up to its resolution pass. -/
def runSemanticReconcile (H : Hasher) (revisions : Table FileRevision)
    (files : Table GenerationFile) (s : ExecutionTables) (t : FactTables)
    (workspaceId generationId : String) (plans : List PlannedExecution) (now : Timestamp) :
    Except AtlasError (ExecutionTables × SemanticState) :=
  plans.foldlM (reconcilePlan H revisions files workspaceId generationId now)
    (s, t, SemanticOutcome.start plans.length)

/-! ## What a plan comes to -/

section Lemmas

variable {H : Hasher} {ws gid : String} {s s' : ExecutionTables} {p : PlannedExecution}
  {r : PlanResult} {k : ExecutionIdentity}

lemma findReusableExecution_some {t : Table ProviderExecution} {e : ProviderExecution}
    (h : findReusableExecution t k = some e) :
    e ∈ t ∧ e.identity = k ∧ e.status.isReusable = true := by
  rw [findReusableExecution] at h
  have hfound := Table.find?_some h
  exact ⟨Table.mem_of_find? h, of_decide_eq_true hfound⟩

lemma findReusableExecution_of_mem {t : Table ProviderExecution} {e : ProviderExecution}
    (he : e ∈ t) (hk : e.identity = k) (hs : e.status.isReusable = true) :
    findReusableExecution t k = some e := by
  refine (Table.find?_eq_some_iff fun x _ y _ hx hy => ?_).mpr ⟨he, decide_eq_true ⟨hk, hs⟩⟩
  exact Or.inr ((of_decide_eq_true hx).1.trans (of_decide_eq_true hy).1.symm)

/-- What the provider comes to if it is run: the identity and the outcome that are recorded. -/
def attempted (workspaceId : String) (p : PlannedExecution) :
    Option (ExecutionIdentity × ProviderOutcome) :=
  match p.probeAvailable, p.inputFingerprint, p.spawn with
  | true, .ok inputFingerprint, .ok outcome =>
    if outcome.status ≠ .complete then
      some (p.identity workspaceId inputFingerprint, outcome.status)
    else
      match p.output with
      | .rejected => some (p.identity workspaceId inputFingerprint, .outputRejected)
      | .unreadable _ => none
      | .undecodable => some (p.identity workspaceId inputFingerprint, .decodeFailed)
      | .decoded documents =>
        some (p.identity workspaceId inputFingerprint, finalStatus documents)
  | _, _, _ => none

/-- The ways that a plan can end. -/
inductive Ended (H : Hasher) (ws gid : String) (s : ExecutionTables) (p : PlannedExecution) :
    ExecutionTables → PlanResult → Prop
  | unavailable (hprobe : p.probeAvailable = false) : Ended H ws gid s p
      (recordProviderCoverage H s gid p.providerKey .unavailable) (.failure .unavailable)
  | reused (fp : String) (e : ProviderExecution) (hprobe : p.probeAvailable = true)
      (hfp : p.inputFingerprint = .ok fp)
      (hfind : findReusableExecution s.providerExecution (p.identity ws fp) = some e) :
      Ended H ws gid s p (recordProviderCoverage H s gid p.providerKey e.status) .reused
  | failed (fp : String) (o : ProviderOutcome) (hprobe : p.probeAvailable = true)
      (hfp : p.inputFingerprint = .ok fp)
      (hfind : findReusableExecution s.providerExecution (p.identity ws fp) = none)
      (hrun : attempted ws p = some (p.identity ws fp, o)) (hfail : o.isReusable = false) :
      Ended H ws gid s p (recordExecution H s gid (p.identity ws fp) o) (.failure o)
  | executed (fp : String) (documents : List ProviderDocument) (hprobe : p.probeAvailable = true)
      (hfp : p.inputFingerprint = .ok fp)
      (hfind : findReusableExecution s.providerExecution (p.identity ws fp) = none)
      (hrun : attempted ws p = some (p.identity ws fp, finalStatus documents)) :
      Ended H ws gid s p (recordExecution H s gid (p.identity ws fp) (finalStatus documents))
        (.executed documents)

lemma runOnePlan_ended (h : runOnePlan H ws gid s p = .ok (s', r)) : Ended H ws gid s p s' r := by
  rw [runOnePlan] at h
  by_cases hprobe : p.probeAvailable = true
  · rw [if_neg (by simp [hprobe])] at h
    cases hfp : p.inputFingerprint with
    | error e => simp [hfp] at h
    | ok fp =>
      rw [hfp] at h
      dsimp only at h
      cases hfind : findReusableExecution s.providerExecution (p.identity ws fp) with
      | some e =>
        rw [hfind] at h
        obtain ⟨rfl, rfl⟩ := Prod.mk.inj (Except.ok.inj h)
        exact .reused fp e hprobe hfp hfind
      | none =>
        rw [hfind] at h
        dsimp only at h
        cases hspawn : p.spawn with
        | error e => simp [hspawn] at h
        | ok o =>
          rw [hspawn] at h
          dsimp only at h
          by_cases ho : o.status = .complete
          · rw [if_neg (by simp [ho])] at h
            cases hout : p.output with
            | unreadable e => simp [hout] at h
            | rejected =>
              rw [hout] at h
              obtain ⟨rfl, rfl⟩ := Prod.mk.inj (Except.ok.inj h)
              exact .failed fp _ hprobe hfp hfind
                (by simp [attempted, hprobe, hfp, hspawn, ho, hout]) rfl
            | undecodable =>
              rw [hout] at h
              obtain ⟨rfl, rfl⟩ := Prod.mk.inj (Except.ok.inj h)
              exact .failed fp _ hprobe hfp hfind
                (by simp [attempted, hprobe, hfp, hspawn, ho, hout]) rfl
            | decoded documents =>
              rw [hout] at h
              obtain ⟨rfl, rfl⟩ := Prod.mk.inj (Except.ok.inj h)
              exact .executed fp documents hprobe hfp hfind
                (by simp [attempted, hprobe, hfp, hspawn, ho, hout])
          · rw [if_pos (by simp [ho])] at h
            obtain ⟨rfl, rfl⟩ := Prod.mk.inj (Except.ok.inj h)
            refine .failed fp _ hprobe hfp hfind
              (by simp [attempted, hprobe, hfp, hspawn, ho]) ?_
            cases o with
            | exited exitCode =>
              rw [SpawnOutcome.status] at ho ⊢
              split at ho
              · exact absurd rfl ho
              next hcode => rw [if_neg hcode]; rfl
            | _ => rfl
  · rw [if_pos (by simp [hprobe])] at h
    obtain ⟨rfl, rfl⟩ := Prod.mk.inj (Except.ok.inj h)
    exact .unavailable (by simpa using hprobe)

end Lemmas

end Execution

end WorkspaceAtlas
