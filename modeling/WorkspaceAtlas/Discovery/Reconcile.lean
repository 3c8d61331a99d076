/-
# The reconcile

`discovery::reconcile`: a candidate is begun, every walked file is classified and hashed, one
transaction records renames, files, deletions and facts, and the candidate is activated.
The three transactions commit one after the other, and an `Err` between them leaves what the
earlier ones committed.

What a call meets outside the catalogue is its input: the walk, what reading each file gave,
the results of the semantic providers, and the errors of statements that could not be
executed.
-/
import WorkspaceAtlas.Discovery.Classify
import WorkspaceAtlas.Discovery.Lifecycle
import WorkspaceAtlas.Semantic.Plan

namespace WorkspaceAtlas

open Relational Transition

/-! ## Input -/

/-- What hashing a file and asking for its metadata gave. -/
structure FileContent where
  bytes : List UInt8
  len : ℕ
  mtimeNs : ℕ
  deriving DecidableEq, Repr

/-- A walked file: its canonical relative path, the first read of it, and the text that the
second read gives a built-in provider. -/
structure FileObservation where
  relStr : String
  read : Except AtlasError FileContent
  text : Option String
  deriving DecidableEq, Repr

/-- The errors of statements that could not be executed, by the transaction they end. -/
structure Faults where
  begin : Option AtlasError
  facts : Option AtlasError
  activate : Option AtlasError
  fail : Option AtlasError
  deriving DecidableEq, Repr

/-- Every statement can be executed. -/
def Faults.none : Faults := ⟨.none, .none, .none, .none⟩

/-- A transaction that a fault may end. -/
def withFault {α : Type} (fault : Option AtlasError) (r : Except AtlasError α) :
    Except AtlasError α :=
  match fault with
  | some e => .error e
  | .none => r

/-- What a call of `reconcile` meets. -/
structure ReconcileInput where
  files : Except AtlasError (List FileObservation)
  policy : ExcludeConfig
  plans : List SemanticPlan
  faults : Faults
  now : Timestamp
  deriving DecidableEq, Repr

/-- The functions that a reconcile uses and that no call changes: the digests, the regular
expressions, and the built-in provider that is selected for a path. -/
structure Environment where
  hasher : Hasher
  isMatch : String → String → Bool
  extract : String → Option String → NormalizedBatch

/-- An environment for runs on concrete values: digests that return their input, patterns
that match their own text, and files without a structural provider. -/
def Environment.plain : Environment :=
  ⟨.plain, fun pattern path => pattern = path, fun path _ => runTextFallback path⟩

/-- A readable file with some bytes. -/
def FileObservation.readable (relStr : String) (bytes : List UInt8) : FileObservation :=
  ⟨relStr, .ok ⟨bytes, bytes.length, 0⟩, none⟩

/-- A walk that meets no failure and no provider. -/
def ReconcileInput.ofFiles (files : List FileObservation) (policy : ExcludeConfig)
    (now : Timestamp) : ReconcileInput :=
  ⟨.ok files, policy, [], .none, now⟩

/-! ## Phase A: classify and hash -/

/-- What phase A keeps of a present file. -/
structure HashedContent where
  revisionClassification : RevisionClassification
  hash : String
  byteSize : ℕ
  mtimeNs : ℕ
  deriving DecidableEq, Repr

/-- `Walked`: the content is there exactly when the file is classified present. -/
inductive Walked where
  | present (relStr : String) (content : HashedContent) (text : Option String)
  | skipped (relStr : String) (kind : SkipKind) (code detail : String)
  deriving DecidableEq, Repr

namespace Walked

/-- The path of a walked file. -/
def relStr : Walked → String
  | present relStr _ _ => relStr
  | skipped relStr _ _ _ => relStr

/-- The path and content hash of a present file. -/
def presentHash? : Walked → Option (String × String)
  | present relStr content _ => some (relStr, content.hash)
  | skipped _ _ _ _ => none

/-- The file was skipped for this reason. -/
def isSkipped (reason : SkipKind) : Walked → Bool
  | present _ _ _ => false
  | skipped _ kind _ _ => kind = reason

end Walked

/-- One file of phase A. -/
def hashWalked (env : Environment) (policy : ExcludeConfig) (file : FileObservation) :
    Except AtlasError Walked :=
  match classify env.isMatch file.relStr policy with
  | .present => file.read.map fun content =>
    .present file.relStr
      ⟨revisionClassificationFor file.relStr, contentHashOfBytes env.hasher content.bytes,
        content.len, content.mtimeNs⟩ file.text
  | .skipped kind code detail => .ok (.skipped file.relStr kind code detail)

/-! ## Phase C: recording a file -/

/-- `INSERT INTO file_identity`, with basis `created`. -/
def createdIdentity (H : Hasher) (workspaceId path : String) (now : Timestamp) :
    FileIdentity where
  fileId := fileIdFromPath H workspaceId path
  workspaceId := workspaceId
  identityBasis := .created
  firstSeenAt := now
  lastSeenAt := now
  lifecycleState := .current
  lastKnownPath := path

/-- The identity that a present path finds: the first one whose last known path it is. -/
def identityAt? (c : Catalogue) (workspaceId path : String) : Option FileIdentity :=
  c.fileIdentity.find? fun i => i.workspaceId = workspaceId ∧ i.lastKnownPath = path

/-- The identity of a present path, found by its last known path or created. -/
def findOrCreateIdentity (H : Hasher) (c : Catalogue) (workspaceId path : String)
    (now : Timestamp) : Except AtlasError (Catalogue × String) :=
  match identityAt? c workspaceId path with
  | some i => .ok (c, i.fileId)
  | none =>
    let row := createdIdentity H workspaceId path now
    match c.fileIdentity.insert? row with
    | none => .error (.sqlite (.constraint "file_identity"))
    | some identities =>
      if c.hasWorkspace workspaceId then .ok ({ c with fileIdentity := identities }, row.fileId)
      else .error (.sqlite (.foreignKey "file_identity"))

/-- The revision row of a file with some content. -/
def revisionRow (H : Hasher) (fileId : String) (content : HashedContent) (now : Timestamp) :
    FileRevision where
  revisionId := fileRevisionId H
    ⟨fileId, content.hash, content.revisionClassification.artifactClass.asStr,
      content.revisionClassification.language, content.revisionClassification.isGenerated,
      content.revisionClassification.isTest⟩
  fileId := fileId
  contentHash := content.hash
  byteSize := content.byteSize
  artifactClass := content.revisionClassification.artifactClass
  language := content.revisionClassification.language
  isGenerated := content.revisionClassification.isGenerated
  isTest := content.revisionClassification.isTest
  discoveredAt := now

/-- The revision of a file, reused when its complete material identity matches, and whether
it is new. -/
def findOrCreateRevision (H : Hasher) (c : Catalogue) (fileId : String)
    (content : HashedContent) (now : Timestamp) :
    Except AtlasError (Catalogue × String × Bool) :=
  let row := revisionRow H fileId content now
  match c.fileRevision.find? fun r => r.material = row.material with
  | some r => .ok (c, r.revisionId, false)
  | none =>
    match c.fileRevision.insert? row with
    | none => .error (.sqlite (.constraint "file_revision"))
    | some revisions =>
      if c.hasFile fileId then
        .ok ({ c with fileRevision := revisions }, row.revisionId, true)
      else .error (.sqlite (.foreignKey "file_revision"))

/-- The conflict target of an upsert into `generation_file`. -/
def isTarget (row gf : GenerationFile) : Bool :=
  gf.generationId = row.generationId ∧ gf.fileId = row.fileId

/-- `INSERT INTO generation_file .. ON CONFLICT(generation_id, file_id) DO UPDATE SET f`. -/
def upsertGenerationFile (c : Catalogue) (row : GenerationFile)
    (f : Table.Update GenerationFile) : Except AtlasError Catalogue :=
  match c.generationFile.upsert? (isTarget row) row f with
  | none => .error (.sqlite (.constraint "generation_file"))
  | some files =>
    if c.hasGeneration row.generationId ∧ c.hasFile row.fileId ∧
        row.revisionId.all c.hasRevision then
      .ok { c with generationFile := files }
    else .error (.sqlite (.foreignKey "generation_file"))

/-- The member row of a present file. -/
def presentRow (generationId fileId revisionId path : String) (content : HashedContent) :
    GenerationFile where
  generationId := generationId
  fileId := fileId
  revisionId := some revisionId
  canonicalPath := path
  presenceState := .present
  exclusionCode := none
  exclusionDetail := none
  observedMtimeNs := some content.mtimeNs
  observedSize := some content.byteSize

/-- What the upsert of a present file sets on conflict: everything but the path. -/
def setPresent (row : GenerationFile) : Table.Update GenerationFile where
  toFun gf :=
    { gf with
      revisionId := row.revisionId
      presenceState := .present
      exclusionCode := none
      exclusionDetail := none
      observedMtimeNs := row.observedMtimeNs
      observedSize := row.observedSize }
  clash_left _ _ := Iff.rfl

/-- The member row of a file that is not present. -/
def skippedRow (generationId fileId path : String) (kind : SkipKind) (code detail : String) :
    GenerationFile where
  generationId := generationId
  fileId := fileId
  revisionId := none
  canonicalPath := path
  presenceState := kind.presenceState
  exclusionCode := some code
  exclusionDetail := some detail
  observedMtimeNs := none
  observedSize := none

/-- What the upsert of such a file sets on conflict: the state, the code and the detail. -/
def setSkipped (row : GenerationFile) : Table.Update GenerationFile where
  toFun gf :=
    { gf with
      presenceState := row.presenceState
      exclusionCode := row.exclusionCode
      exclusionDetail := row.exclusionDetail }
  clash_left _ _ := Iff.rfl

/-- `ensure_file_id_for_present` and the provider run of a new revision; says whether the
revision is new. -/
def recordPresent (env : Environment) (workspaceId generationId : String) (now : Timestamp)
    (c : Catalogue) (path : String) (content : HashedContent) (text : Option String) :
    Except AtlasError (Catalogue × Bool) := do
  let (c, fileId) ← findOrCreateIdentity env.hasher c workspaceId path now
  let (c, revisionId, isNewRevision) ← findOrCreateRevision env.hasher c fileId content now
  let row := presentRow generationId fileId revisionId path content
  let c ← upsertGenerationFile c row (setPresent row)
  if isNewRevision then
    let facts ← persistProviderBatch env.hasher c.fileRevision c.facts revisionId
      content.byteSize (text.map utf8).toList (env.extract path text) now
    return ({ c with facts := facts }, true)
  else return (c, false)

/-- `INSERT OR IGNORE INTO file_identity`. -/
def ensureIdentity (H : Hasher) (c : Catalogue) (workspaceId path : String) (now : Timestamp) :
    Except AtlasError Catalogue :=
  match c.fileIdentity.insert? (createdIdentity H workspaceId path now) with
  | none => .ok c
  | some identities =>
    if c.hasWorkspace workspaceId then .ok { c with fileIdentity := identities }
    else .error (.sqlite (.foreignKey "file_identity"))

/-- The branches for files that are not present. -/
def recordSkipped (env : Environment) (workspaceId generationId : String) (now : Timestamp)
    (c : Catalogue) (path : String) (kind : SkipKind) (code detail : String) :
    Except AtlasError Catalogue := do
  let c ← ensureIdentity env.hasher c workspaceId path now
  let row := skippedRow generationId (fileIdFromPath env.hasher workspaceId path) path kind
    code detail
  upsertGenerationFile c row (setSkipped row)

/-- One file of phase C, with the number of provider runs so far. -/
def recordWalked (env : Environment) (workspaceId generationId : String) (now : Timestamp)
    (s : Catalogue × ℕ) : Walked → Except AtlasError (Catalogue × ℕ)
  | .present path content text =>
    (recordPresent env workspaceId generationId now s.1 path content text).map
      fun (c, isNew) => (c, if isNew then s.2 + 1 else s.2)
  | .skipped path kind code detail =>
    (recordSkipped env workspaceId generationId now s.1 path kind code detail).map
      fun c => (c, s.2)

/-! ## The transaction of the facts -/

/-- A hash map filled from a list: a later entry for a key replaces an earlier one. -/
def lastWins {α : Type} : List (String × α) → List (String × α)
  | [] => []
  | (key, value) :: rest =>
    if key ∈ rest.map Prod.fst then lastWins rest else (key, value) :: lastWins rest

/-- The present paths of the walk with their content hashes. -/
def newPresentHashes (walked : List Walked) : List (String × String) :=
  lastWins (walked.filterMap Walked.presentHash?)

/-- The renames that a call detects. -/
def detectedRenames (c : Catalogue) (workspaceId : String) (walked : List Walked) :
    List RenamePair :=
  detectRenames (snapshotPreviousPresent c workspaceId) (walked.map Walked.relStr)
    (newPresentHashes walked)

/-- The files that a call detects as deleted. -/
def detectedDeletions (c : Catalogue) (workspaceId : String) (walked : List Walked) :
    List (String × PrevFile) :=
  deletedFiles (snapshotPreviousPresent c workspaceId) (walked.map Walked.relStr)
    ((detectedRenames c workspaceId walked).map RenamePair.oldPath)

/-- `UPDATE index_generation SET eligible_file_count = ..`. -/
def setCounts (eligible indexed excluded unsupported failed : ℕ) :
    Table.Update IndexGeneration where
  toFun g :=
    { g with
      counts := { g.counts with
        eligibleFileCount := eligible
        indexedFileCount := indexed
        excludedFileCount := excluded
        unsupportedFileCount := unsupported
        failedFileCount := failed } }
  clash_left _ _ := Iff.rfl

/-- The number of files skipped for a reason. -/
def countSkipped (walked : List Walked) (kind : SkipKind) : ℕ :=
  walked.countP (Walked.isSkipped kind)

/-- What the transaction of the facts reports. -/
structure FactsReport where
  parsed : ℕ
  renamed : ℕ
  deleted : ℕ
  semantic : SemanticOutcome
  deriving DecidableEq, Repr

/-- The transaction between `unchecked_transaction` and its `commit`. -/
def factsTransaction (env : Environment) (c : Catalogue) (workspaceId generationId : String)
    (walked : List Walked) (plans : List SemanticPlan) (now : Timestamp) :
    Except AtlasError (Catalogue × FactsReport) := do
  let prevPresent := snapshotPreviousPresent c workspaceId
  let renames := detectedRenames c workspaceId walked
  let c ← renames.foldlM (recordRename env.hasher workspaceId generationId now) c
  let (c, parsed) ← walked.foldlM (recordWalked env workspaceId generationId now) (c, 0)
  let (c, deleted) ← recordDeletions env.hasher workspaceId generationId now c prevPresent
    (walked.map Walked.relStr) (renames.map RenamePair.oldPath)
  let (facts, semantic) ← runSemanticReconcile env.hasher c.fileRevision c.generationFile
    c.facts generationId plans now
  let present := (walked.filterMap Walked.presentHash?).length
  let excluded := countSkipped walked .excluded + countSkipped walked .secretExcluded
  let c := { c with
    facts := facts
    indexGeneration := c.indexGeneration.update (fun g => g.generationId = generationId)
      (setCounts present present excluded (countSkipped walked .unsupported)
        (countSkipped walked .failed)) }
  return (c, ⟨parsed, renames.length, deleted, semantic⟩)

/-! ## `reconcile` -/

/-- `ReconcileReport`, with the counters of the semantic providers as one field. -/
structure ReconcileReport where
  workspaceId : String
  previousActiveGenerationId : Option String
  candidateGenerationId : String
  activated : Bool
  failureCode : Option String
  failureMessage : Option String
  sourceTreeHash : String
  eligibleFileCount : ℕ
  indexedFileCount : ℕ
  excludedFileCount : ℕ
  unsupportedFileCount : ℕ
  failedFileCount : ℕ
  secretExcludedFileCount : ℕ
  parsedFileCount : ℕ
  renamedFileCount : ℕ
  deletedFileCount : ℕ
  semantic : SemanticOutcome
  deriving DecidableEq, Repr

/-- `let _ = fail_candidate(..)`: its own error is ignored. -/
def failCandidateOrIgnore (fault : Option AtlasError) (c : Catalogue)
    (generationId code message : String) : Catalogue :=
  match withFault fault (failCandidate c generationId code message) with
  | .ok c' => c'
  | .error _ => c

/-- The activation, or the failure of the candidate: the catalogue, and the code and message
of a failure. -/
def activateOrFail (faults : Faults) (c : Catalogue) (workspaceId generationId : String)
    (semantic : SemanticOutcome) (treeHash : String) (now : Timestamp) :
    Catalogue × Option (String × String) :=
  if semantic.requiredFailure then
    let reason := semantic.failureReason.getD "required semantic provider failed"
    (failCandidateOrIgnore faults.fail c generationId "E_SEMANTIC_REQUIRED_PROVIDER" reason,
      some ("E_SEMANTIC_REQUIRED_PROVIDER", reason))
  else
    match withFault faults.activate
        (activateCandidate c workspaceId generationId (some treeHash) now) with
    | .ok c' => (c', none)
    | .error e =>
      (failCandidateOrIgnore faults.fail c generationId "E_ACTIVATE" e.message,
        some ("E_ACTIVATE", e.message))

/-- `reconcile`: the catalogue the call leaves, and its result. -/
def reconcile (env : Environment) (c : Catalogue) (ws : Workspace) (input : ReconcileInput) :
    Catalogue × Except AtlasError ReconcileReport :=
  match input.files with
  | .error e => (c, .error e)
  | .ok files =>
  match withFault input.faults.begin
      (beginCandidate env.hasher c ws.workspaceId .reconcile "p_reconcile_v1" "1.3.0"
        input.now) with
  | .error e => (c, .error e)
  | .ok (begun, candidate) =>
  match files.mapM (hashWalked env input.policy) with
  | .error e => (begun, .error e)
  | .ok walked =>
  match withFault input.faults.facts
      (factsTransaction env begun ws.workspaceId candidate.generationId walked input.plans
        input.now) with
  | .error e => (begun, .error e)
  | .ok (recorded, facts) =>
    let entries := walked.filterMap Walked.presentHash?
    let treeHash := sourceTreeHash env.hasher entries
    let (c', failure) := activateOrFail input.faults recorded ws.workspaceId
      candidate.generationId facts.semantic treeHash input.now
    (c', .ok
      { workspaceId := ws.workspaceId
        previousActiveGenerationId := ws.activeGenerationId
        candidateGenerationId := candidate.generationId
        activated := failure.isNone
        failureCode := failure.map Prod.fst
        failureMessage := failure.map Prod.snd
        sourceTreeHash := treeHash
        eligibleFileCount := entries.length
        indexedFileCount := entries.length
        excludedFileCount :=
          countSkipped walked .excluded + countSkipped walked .secretExcluded
        unsupportedFileCount := countSkipped walked .unsupported
        failedFileCount := countSkipped walked .failed
        secretExcludedFileCount := countSkipped walked .secretExcluded
        parsedFileCount := facts.parsed
        renamedFileCount := facts.renamed
        deletedFileCount := facts.deleted
        semantic := facts.semantic })

end WorkspaceAtlas
