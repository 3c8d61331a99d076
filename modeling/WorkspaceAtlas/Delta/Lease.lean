/-
# Evidence leases

A lease records that a piece of evidence was valid in a generation, with the digest of the source
and the identities of the provider set, the resolver and the projection that it depends on.  A
lease is verified on use: everything that it recorded is compared with what is current, and a
lease that fails the comparison is invalidated.  The file whose bytes are compared with the digest
of the source is named by the caller.
-/
import WorkspaceAtlas.Delta.Bounded
import WorkspaceAtlas.Semantic.Evidence

namespace WorkspaceAtlas

open Relational Transition Text

namespace Delta

/-! ## The table -/

/-- The states of a lease. -/
inductive LeaseState where
  | valid
  | invalidated
  | superseded
  deriving DecidableEq, Repr

/-- A row of `evidence_lease`. -/
structure LeaseRow where
  leaseId : String
  workspaceId : String
  generationId : String
  evidenceKind : String
  evidenceId : String
  sourceRevisionHash : Option String
  providerFingerprint : Option String
  resolverPolicyVersion : Option String
  projectionPolicyVersion : Option String
  state : LeaseState
  invalidationReason : Option String
  createdAt : Timestamp
  invalidatedAt : Option Timestamp
  deriving DecidableEq, Repr

/-- The columns that a lease is unique in, besides its id; not if one of them is `NULL`. -/
def LeaseRow.identity (r : LeaseRow) : Option (List String) := do
  let source ← r.sourceRevisionHash
  let provider ← r.providerFingerprint
  let resolver ← r.resolverPolicyVersion
  let projection ← r.projectionPolicyVersion
  return [r.workspaceId, r.generationId, r.evidenceKind, r.evidenceId, source, provider, resolver,
    projection]

instance : Keyed LeaseRow where
  Clash a b := a.leaseId = b.leaseId ∨ (a.identity = b.identity ∧ a.identity.isSome = true)
  decideClash _ _ := inferInstance
  clash_refl _ := Or.inl rfl
  clash_symm h := h.imp Eq.symm fun h => ⟨Eq.symm (And.left h), And.left h ▸ And.right h⟩

/-- `SET state = 'invalidated', invalidation_reason = ?2, invalidated_at = ?3`. -/
def LeaseRow.invalidated (reason : String) (now : Timestamp) : Table.Update LeaseRow where
  toFun r := { r with
    state := .invalidated
    invalidationReason := some reason
    invalidatedAt := some now }
  clash_left _ _ := Iff.rfl

/-- `WorkspaceRecord`, as far as leases are concerned. -/
structure WorkspaceRecord where
  workspaceId : String
  canonicalRoot : String
  deriving DecidableEq, Repr

/-- The tables that leases are verified against, and the files below every root. -/
structure LeaseStore where
  workspace : Table Workspace
  truth : Tables
  evidenceLease : Table LeaseRow
  disk : String → WorkingDirectory

/-! ## Creating and invalidating -/

/-- What a lease is created from. -/
structure LeaseRequest where
  generationId : String
  evidenceKind : String
  evidenceId : String
  sourceRevisionHash : Option String
  providerFingerprint : Option String
  resolverPolicyVersion : Option String
  projectionPolicyVersion : Option String
  deriving DecidableEq, Repr

/-- The id of a lease. -/
def leaseIdOf (H : Hasher) (workspaceId : String) (r : LeaseRequest) : String :=
  deterministicId H "lease" [workspaceId, r.generationId, r.evidenceKind, r.evidenceId,
    r.sourceRevisionHash.getD "", r.providerFingerprint.getD "",
    r.resolverPolicyVersion.getD "", r.projectionPolicyVersion.getD ""]

/-- The row that is inserted. -/
def LeaseRequest.row (H : Hasher) (workspaceId : String) (now : Timestamp) (r : LeaseRequest) :
    LeaseRow where
  leaseId := leaseIdOf H workspaceId r
  workspaceId := workspaceId
  generationId := r.generationId
  evidenceKind := r.evidenceKind
  evidenceId := r.evidenceId
  sourceRevisionHash := r.sourceRevisionHash
  providerFingerprint := r.providerFingerprint
  resolverPolicyVersion := r.resolverPolicyVersion
  projectionPolicyVersion := r.projectionPolicyVersion
  state := .valid
  invalidationReason := none
  createdAt := now
  invalidatedAt := none

/-- `create_evidence_lease`: a lease that is there already is left as it is. -/
def createEvidenceLease (H : Hasher) (s : LeaseStore) (ws : WorkspaceRecord) (r : LeaseRequest)
    (now : Timestamp) : Except AtlasError (String × Table LeaseRow) :=
  let row := r.row H ws.workspaceId now
  match s.evidenceLease.insert? row with
  | none => .ok (row.leaseId, s.evidenceLease)
  | some leases =>
    if (∃ w ∈ s.workspace.rows, w.workspaceId = ws.workspaceId) ∧
        ∃ g ∈ s.truth.indexGeneration.rows, g.generationId = r.generationId then
      .ok (row.leaseId, leases)
    else .error (.sqlite (.foreignKey "evidence_lease"))

/-- `lease_id = ?1 AND state = 'valid'`. -/
def LeaseRow.isValidAs (leaseId : String) (r : LeaseRow) : Bool :=
  r.leaseId = leaseId ∧ r.state = .valid

/-- `invalidate_evidence_lease`. -/
def invalidateEvidenceLease (leases : Table LeaseRow) (leaseId reason : String)
    (now : Timestamp) : Except AtlasError (Table LeaseRow) :=
  if leases.count (LeaseRow.isValidAs leaseId) = 0 then
    .error (.other ("evidence_lease " ++ leaseId ++ " not found or already not valid"))
  else .ok (leases.update (LeaseRow.isValidAs leaseId) (LeaseRow.invalidated reason now))

/-! ## What is current -/

/-- `LeaseDependencyKey`, as far as stored leases have them. -/
inductive LeaseDependencyKey where
  | sourceDigest (key : String)
  | evidence (kind key : String)
  | storedProviderFingerprint
  | storedResolverPolicy (evidenceKind evidenceId : String)
  | storedProjectionPolicy (evidenceKind evidenceId : String)
  deriving DecidableEq, Repr

/-- The only value of a column, if it has one. -/
def onlyValue (values : List String) : Option String :=
  match values.dedup with
  | [value] => some value
  | _ => none

/-- The evidence exists in a generation. -/
def evidenceExists (H : Hasher) (t : Tables) (genId kind key : String) : Bool :=
  match kind with
  | "file" => (filesFor t genId).any fun f => f.fileId = key ∨ f.canonicalPath = key
  | "symbol" => (symbolsFor H t genId).containsKey key ∨
      ∃ gf ∈ presentFiles t genId, ∃ sf ∈ t.symbolFact.rows,
        gf.revisionId = some sf.revisionId ∧ sf.symbolFactId = key
  | "relationship" => (relationshipsFor t genId).containsKey key ∨
      ∃ gf ∈ presentFiles t genId, ∃ rf ∈ t.relationshipFact.rows,
        gf.revisionId = some rf.revisionId ∧ rf.relationshipFactId = key
  | "effect" => (effectsFor t genId).containsKey key ∨
      ∃ gf ∈ presentFiles t genId, ∃ ef ∈ t.effectFact.rows,
        gf.revisionId = some ef.revisionId ∧ ef.effectFactId = key
  | "coverage" => (coverageFor t genId).containsKey key ∨
      ∃ r ∈ t.coverageRecord.rows, r.generationId = genId ∧ r.coverageId = key
  | "conflict" => (conflictsFor t genId).containsKey key ∨
      ∃ r ∈ t.evidenceConflict.rows, r.generationId = genId ∧ r.evidenceConflictId = key
  | _ => false

/-- The policy that a relationship of a generation was resolved under, if it is only one. -/
def resolverPolicyOf (t : Tables) (genId evidenceId : String) : Option String :=
  match (relationshipsFor t genId).get evidenceId with
  | some states => onlyValue (states.filterMap RelationshipState.resolverPolicyVersion)
  | none => onlyValue ((t.relationshipResolution.rows.filter fun rr =>
      rr.generationId = genId ∧ rr.relationshipFactId = evidenceId).map
        ResolutionRow.resolverPolicyVersion)

/-- The policy that a conflict of a generation was projected under, if it is only one. -/
def projectionPolicyOf (t : Tables) (genId evidenceId : String) : Option String :=
  match (conflictsFor t genId).get evidenceId with
  | some states => onlyValue (states.map ConflictState.projectionPolicyVersion)
  | none => (t.evidenceConflict.find? fun r =>
      r.generationId = genId ∧ r.evidenceConflictId = evidenceId).map
        ConflictRow.projectionPolicyVersion

/-- `current_dependency_digest`. -/
def currentDependencyDigest (H : Hasher) (s : LeaseStore) (ws : WorkspaceRecord)
    (genId : String) : LeaseDependencyKey → Except AtlasError (Option String)
  | .sourceDigest key => .ok (liveSourceDigest H (s.disk ws.canonicalRoot) key)
  | .evidence kind key => .ok
      (if evidenceExists H s.truth genId kind key then some (contentHashOfBytes H (utf8 key))
      else none)
  | .storedProviderFingerprint => some <$> providerFingerprint s.truth genId
  | .storedResolverPolicy evidenceKind evidenceId => .ok
      (if evidenceKind ≠ "relationship" then some WorkspaceAtlas.resolverPolicyVersion
      else resolverPolicyOf s.truth genId evidenceId)
  | .storedProjectionPolicy evidenceKind evidenceId => .ok
      (if evidenceKind ≠ "conflict" then some Evidence.projectionPolicyVersion
      else projectionPolicyOf s.truth genId evidenceId)

/-- `active_generation_for_workspace`. -/
def activeGenerationForWorkspace (s : LeaseStore) (workspaceId : String) : Option String :=
  (s.workspace.find? fun w => w.workspaceId = workspaceId).bind Workspace.activeGenerationId

/-! ## Verifying -/

/-- `LeaseVerification`, as far as stored leases have it. -/
inductive LeaseVerification where
  | valid
  | staleAutoInvalidated (observedHash : String)
  | dependencyMismatchAutoInvalidated (dependencyKind dependencyKey expectedDigest : String)
      (observedDigest : Option String)
  | alreadyInvalid
  | noSourceToVerify
  deriving DecidableEq, Repr

section Verify

variable (H : Hasher) (s : LeaseStore) (ws : WorkspaceRecord) (lease : LeaseRow) (now : Timestamp)

/-- The outcome of a verification, and the leases after it. -/
abbrev LeaseAnswer := Except AtlasError (LeaseVerification × Table LeaseRow)

/-- `invalidate_dependency`. -/
def invalidateDependency (kind expected : String) (observed : Option String) : LeaseAnswer := do
  let leases ← invalidateEvidenceLease s.evidenceLease lease.leaseId
    (kind ++ "_mismatch_on_reverification") now
  return (.dependencyMismatchAutoInvalidated kind lease.evidenceId expected observed, leases)

/-- What the lease recorded of a dependency is compared with what is current. -/
def requireCurrent (kind expected : String) (observed : Option String) (rest : LeaseAnswer) :
    LeaseAnswer :=
  if observed ≠ some expected then invalidateDependency s lease now kind expected observed
  else rest

/-- An identity is compared if the lease recorded one. -/
def requireRecorded (kind : String) (recorded : Option String) (dependency : LeaseDependencyKey)
    (rest : LeaseAnswer) : LeaseAnswer :=
  match recorded with
  | none => rest
  | some expected => do
    let observed ← currentDependencyDigest H s ws lease.generationId dependency
    requireCurrent s lease now kind expected observed rest

/-- The identities of a lease. -/
def verifyIdentities : LeaseAnswer :=
  requireRecorded H s ws lease now "provider_fingerprint" lease.providerFingerprint
      .storedProviderFingerprint <|
    requireRecorded H s ws lease now "resolver_policy" lease.resolverPolicyVersion
        (.storedResolverPolicy lease.evidenceKind lease.evidenceId) <|
      requireRecorded H s ws lease now "projection_policy" lease.projectionPolicyVersion
          (.storedProjectionPolicy lease.evidenceKind lease.evidenceId) <|
        .ok (.valid, s.evidenceLease)

/-- The source of a lease is compared with the file that the caller names. -/
def verifySource (canonicalPath : String) : LeaseAnswer :=
  match lease.sourceRevisionHash with
  | some expected => do
    let observed ← currentDependencyDigest H s ws lease.generationId (.sourceDigest canonicalPath)
    let observedHash := observed.getD ""
    if observedHash ≠ expected then do
      let leases ← invalidateEvidenceLease s.evidenceLease lease.leaseId
        "source_hash_mismatch_on_reverification" now
      return (.staleAutoInvalidated observedHash, leases)
    else verifyIdentities H s ws lease now
  | none =>
    if lease.providerFingerprint = none ∧ lease.resolverPolicyVersion = none ∧
        lease.projectionPolicyVersion = none then .ok (.noSourceToVerify, s.evidenceLease)
    else verifyIdentities H s ws lease now

/-- A lease that is still valid is compared. -/
def verifyStored (canonicalPath : String) : LeaseAnswer :=
  requireCurrent s lease now "workspace_identity" lease.workspaceId (some ws.workspaceId) <|
    requireCurrent s lease now "generation" lease.generationId
        (activeGenerationForWorkspace s ws.workspaceId) <| do
      let observed ← currentDependencyDigest H s ws lease.generationId
        (.evidence lease.evidenceKind lease.evidenceId)
      requireCurrent s lease now "evidence" (contentHashOfBytes H (utf8 lease.evidenceId)) observed
        (verifySource H s ws lease now canonicalPath)

end Verify

/-- `verify_evidence_lease`. -/
def verifyEvidenceLease (H : Hasher) (s : LeaseStore) (ws : WorkspaceRecord)
    (leaseId canonicalPath : String) (now : Timestamp) : LeaseAnswer :=
  match s.evidenceLease.find? fun r => r.leaseId = leaseId with
  | none => .error (.other ("evidence_lease " ++ leaseId ++ " not found"))
  | some lease =>
    if lease.state ≠ .valid then .ok (.alreadyInvalid, s.evidenceLease)
    else verifyStored H s ws lease now canonicalPath

/-! ## Runs -/

/-- A call, or a change of what leases depend on. -/
inductive LeaseCall where
  | create (ws : WorkspaceRecord) (request : LeaseRequest) (now : Timestamp)
  | invalidate (leaseId reason : String) (now : Timestamp)
  | verify (ws : WorkspaceRecord) (leaseId canonicalPath : String) (now : Timestamp)
  /-- Another generation is activated, or the catalogue changes otherwise. -/
  | become (workspace : Table Workspace) (truth : Tables)
  /-- Files are edited. -/
  | edit (disk : String → WorkingDirectory)

/-- The store with other leases, unless there was an error. -/
def LeaseStore.commit (s : LeaseStore) (leases : Except AtlasError (Table LeaseRow)) : LeaseStore :=
  match leases with
  | .ok leases => { s with evidenceLease := leases }
  | .error _ => s

/-- One call. -/
def leaseStep (H : Hasher) (s : LeaseStore) : LeaseCall → LeaseStore
  | .create ws request now => s.commit (Prod.snd <$> createEvidenceLease H s ws request now)
  | .invalidate leaseId reason now =>
    s.commit (invalidateEvidenceLease s.evidenceLease leaseId reason now)
  | .verify ws leaseId canonicalPath now =>
    s.commit (Prod.snd <$> verifyEvidenceLease H s ws leaseId canonicalPath now)
  | .become workspace truth => { s with workspace := workspace, truth := truth }
  | .edit disk => { s with disk := disk }

end Delta

end WorkspaceAtlas
