/-
# The catalogue

The catalogue is a SQLite database; its tables are declared in `migrations/*.sql`.  A row is
a structure of the columns that the modelled functions read or write, a table is a
`Relational.Table` under the primary keys and unique indexes of the declaration, and the
catalogue is the record of its tables.  An operation is a function of the catalogue that
returns the catalogue its transaction commits; an `Err` is a rolled back transaction.

Timestamps are the milliseconds that `iso8601_now` prints.
-/
import Mathlib.Data.Rat.Defs
import WorkspaceAtlas.Relational.Table

namespace WorkspaceAtlas

open Relational

/-- Milliseconds since the epoch, as `iso8601_now` prints them. -/
abbrev Timestamp := ℕ

/-- `now.as_millis()`: the stamp written for an instant given in nanoseconds. -/
def iso8601 (now : ℕ) : Timestamp := now / 1000000

/-! ## Errors -/

/-- What SQLite reports for a statement it refuses. -/
inductive SqliteError where
  | constraint (table : String)
  | foreignKey (table : String)
  | trigger (message : String)
  | queryReturnedNoRows
  | failure (message : String)
  deriving DecidableEq, Repr

/-- `AtlasError`, the error type of the library. -/
inductive AtlasError where
  | sqlite (error : SqliteError)
  | migration (message : String)
  | workspaceNotFound (workspaceId : String)
  | pathEscape (path : String)
  | writerLeaseHeld (holder : String)
  | writerLeaseExpired (staleSecs : ℤ)
  | generationStateInvalid (found required : String)
  | invalidConfig (message : String)
  | io (message : String)
  | serde (message : String)
  | other (message : String)
  deriving DecidableEq, Repr

/-- The text of a SQLite error. -/
def SqliteError.message : SqliteError → String
  | constraint table => "UNIQUE constraint failed: " ++ table
  | foreignKey _ => "FOREIGN KEY constraint failed"
  | trigger message => message
  | queryReturnedNoRows => "Query returned no rows"
  | failure message => message

/-- The text of an error. -/
def AtlasError.message : AtlasError → String
  | sqlite error => "SQLite error: " ++ error.message
  | migration message => "migration error: " ++ message
  | workspaceNotFound workspaceId => "workspace not found: " ++ workspaceId
  | pathEscape path => "path is not inside the approved workspace root: " ++ path
  | writerLeaseHeld holder => "writer lease is held by another holder: " ++ holder
  | writerLeaseExpired staleSecs =>
    "writer lease expired (heartbeat stale by " ++ toString staleSecs ++ "s)"
  | generationStateInvalid found required =>
    "generation is not in the required state: " ++ found ++ ", required " ++ required
  | invalidConfig message => "invalid configuration: " ++ message
  | io message => "IO error: " ++ message
  | serde message => "serde error: " ++ message
  | other message => message

/-! ## Workspaces and generations -/

/-- A row of `workspace`. -/
structure Workspace where
  workspaceId : String
  activeGenerationId : Option String
  deriving DecidableEq, Repr

instance : Keyed Workspace := .ofKey Workspace.workspaceId

/-- A row of `writer_lease`. -/
structure WriterLease where
  workspaceId : String
  holderId : String
  acquiredAt : Timestamp
  expiresAt : Timestamp
  heartbeatAt : Timestamp
  schemaWriterVersion : Option ℕ
  deriving DecidableEq, Repr

instance : Keyed WriterLease := .ofKey WriterLease.workspaceId

/-- The states of a generation. -/
inductive GenerationState where
  | candidate
  | committed
  | failed
  | abandoned
  deriving DecidableEq, Repr

namespace GenerationState

/-- `GenerationState::as_str`. -/
def asStr : GenerationState → String
  | candidate => "candidate"
  | committed => "committed"
  | failed => "failed"
  | abandoned => "abandoned"

end GenerationState

/-- What made a generation necessary. -/
inductive TriggerKind where
  | baseline
  | watcher
  | reconcile
  | manual
  | providerInvalidation
  | fullRebuild
  deriving DecidableEq, Repr

/-- The six counters a reconcile leaves on its generation. -/
structure FileCounts where
  eligibleFileCount : ℕ
  indexedFileCount : ℕ
  partialFileCount : ℕ
  unsupportedFileCount : ℕ
  excludedFileCount : ℕ
  failedFileCount : ℕ
  deriving DecidableEq, Repr

namespace FileCounts

/-- The counters of a new generation. -/
def zero : FileCounts := ⟨0, 0, 0, 0, 0, 0⟩

end FileCounts

/-- A row of `index_generation`. -/
structure IndexGeneration where
  generationId : String
  workspaceId : String
  parentGenerationId : Option String
  sequenceNo : ℕ
  state : GenerationState
  triggerKind : TriggerKind
  sourceTreeHash : Option String
  providerSetHash : String
  schemaVersion : String
  createdAt : Timestamp
  committedAt : Option Timestamp
  failureCode : Option String
  failureMessage : Option String
  counts : FileCounts
  deriving DecidableEq, Repr

instance : Keyed IndexGeneration where
  Clash a b := a.generationId = b.generationId ∨
    a.workspaceId = b.workspaceId ∧ a.sequenceNo = b.sequenceNo
  decideClash _ _ := inferInstance
  clash_refl _ := Or.inl rfl
  clash_symm h := h.imp Eq.symm fun h => ⟨h.1.symm, h.2.symm⟩

/-! ## Files -/

/-- How an identity came about. -/
inductive IdentityBasis where
  | created
  | git
  | exactHashRename
  | similarityApproved
  | userAssigned
  deriving DecidableEq, Repr

/-- Whether the file of an identity is there. -/
inductive LifecycleState where
  | current
  | deleted
  | archived
  | unknown
  deriving DecidableEq, Repr

/-- A row of `file_identity`. -/
structure FileIdentity where
  fileId : String
  workspaceId : String
  identityBasis : IdentityBasis
  firstSeenAt : Timestamp
  lastSeenAt : Timestamp
  lifecycleState : LifecycleState
  lastKnownPath : String
  deriving DecidableEq, Repr

instance : Keyed FileIdentity := .ofKey FileIdentity.fileId

/-- The artifact classes a revision can have. -/
inductive ArtifactClass where
  | source
  | test
  | documentation
  | configuration
  | schema
  | migration
  | buildManifest
  | infrastructure
  | promptInstruction
  | generatedMetadata
  | binaryMetadata
  | other
  deriving DecidableEq, Repr

namespace ArtifactClass

/-- The text of the class in the column. -/
def asStr : ArtifactClass → String
  | source => "source"
  | test => "test"
  | documentation => "documentation"
  | configuration => "configuration"
  | schema => "schema"
  | migration => "migration"
  | buildManifest => "build_manifest"
  | infrastructure => "infrastructure"
  | promptInstruction => "prompt_instruction"
  | generatedMetadata => "generated_metadata"
  | binaryMetadata => "binary_metadata"
  | other => "other"

end ArtifactClass

/-- A row of `file_revision`. -/
structure FileRevision where
  revisionId : String
  fileId : String
  contentHash : String
  byteSize : ℕ
  artifactClass : ArtifactClass
  language : Option String
  isGenerated : Bool
  isTest : Bool
  discoveredAt : Timestamp
  deriving DecidableEq, Repr

/-- The columns of `idx_file_revision_identity`. -/
def FileRevision.material (r : FileRevision) :
    String × String × ArtifactClass × String × Bool × Bool :=
  (r.fileId, r.contentHash, r.artifactClass, r.language.getD "", r.isGenerated, r.isTest)

instance : Keyed FileRevision where
  Clash a b := a.revisionId = b.revisionId ∨ a.material = b.material
  decideClash _ _ := inferInstance
  clash_refl _ := Or.inl rfl
  clash_symm h := h.imp Eq.symm Eq.symm

/-- What a generation records about a file. -/
inductive PresenceState where
  | present
  | excluded
  | unsupported
  | failed
  deriving DecidableEq, Repr

/-- A row of `generation_file`. -/
structure GenerationFile where
  generationId : String
  fileId : String
  revisionId : Option String
  canonicalPath : String
  presenceState : PresenceState
  exclusionCode : Option String
  exclusionDetail : Option String
  observedMtimeNs : Option ℕ
  observedSize : Option ℕ
  deriving DecidableEq, Repr

instance : Keyed GenerationFile where
  Clash a b := a.generationId = b.generationId ∧
    (a.fileId = b.fileId ∨ a.canonicalPath = b.canonicalPath)
  decideClash _ _ := inferInstance
  clash_refl _ := ⟨rfl, Or.inl rfl⟩
  clash_symm h := ⟨h.1.symm, h.2.imp Eq.symm Eq.symm⟩

/-! ## Lifecycle records -/

/-- The kinds of lifecycle events. -/
inductive LifecycleEventType where
  | created
  | contentChanged
  | renamed
  | deleted
  | replacementProposed
  | replacementConfirmed
  | excluded
  | included
  | archived
  | restored
  | providerInvalidated
  | fullRebuild
  deriving DecidableEq, Repr

/-- Who caused a lifecycle event. -/
inductive Actor where
  | filesystem
  | git
  | atlas
  | user
  | externalTool
  deriving DecidableEq, Repr

/-- A row of `lifecycle_event`. -/
structure LifecycleEvent where
  eventId : String
  workspaceId : String
  generationId : String
  eventType : LifecycleEventType
  occurredAt : Timestamp
  actor : Actor
  fileId : Option String
  oldPath : Option String
  newPath : Option String
  oldContentHash : Option String
  newContentHash : Option String
  evidenceMethod : Option String
  confidence : ℚ
  deriving DecidableEq, Repr

instance : Keyed LifecycleEvent := .ofKey LifecycleEvent.eventId

/-- The kinds of relationships a fact can state. -/
inductive RelationshipType where
  | defines
  | contains
  | imports
  | exports
  | calls
  | references
  | implements
  | extends
  | reads
  | writes
  | configures
  | tests
  | generates
  | documents
  | dependsOn
  | replaces
  | movedTo
  | other
  deriving DecidableEq, Repr

/-- Whether the bytes of a deleted file are kept. -/
inductive RawSnapshotState where
  | notRetained
  | retainedEncrypted
  | retentionExpired
  | forbiddenSecret
  deriving DecidableEq, Repr

/-- A row of `tombstone`; the two summaries are what their JSON texts hold. -/
structure Tombstone where
  tombstoneId : String
  workspaceId : String
  fileId : String
  deletionEventId : String
  lastPath : String
  lastRevisionId : Option String
  lastContentHash : String
  artifactClass : ArtifactClass
  symbolSummary : List (String × String)
  relationshipSummary : List RelationshipType
  rawSnapshotState : RawSnapshotState
  createdAt : Timestamp
  deriving DecidableEq, Repr

instance : Keyed Tombstone := .ofKey Tombstone.tombstoneId

/-! ## Facts -/

/-- `ProviderTier`. -/
inductive ProviderTier where
  | compiler
  | semanticIndex
  | languageServer
  | structural
  | documentConfig
  | textual
  | heuristic
  | runtimeObservation
  deriving DecidableEq, Repr

/-- How an extractor run ended. -/
inductive ExtractorRunStatus where
  | complete
  | partlyDone
  | unsupported
  | failed
  | cancelled
  deriving DecidableEq, Repr

/-- A row of `extractor_run`. -/
structure ExtractorRun where
  extractorRunId : String
  revisionId : String
  providerName : String
  providerVersion : String
  providerTier : ProviderTier
  configurationHash : String
  normalizedSchemaVersion : String
  deterministic : Bool
  status : ExtractorRunStatus
  startedAt : Timestamp
  finishedAt : Option Timestamp
  bytesTotal : ℕ
  bytesProcessed : ℕ
  deriving DecidableEq, Repr

/-- The columns a run is unique in, besides its id. -/
def ExtractorRun.identity (r : ExtractorRun) : String × String × String × String × String :=
  (r.revisionId, r.providerName, r.providerVersion, r.configurationHash,
    r.normalizedSchemaVersion)

instance : Keyed ExtractorRun where
  Clash a b := a.extractorRunId = b.extractorRunId ∨ a.identity = b.identity
  decideClash _ _ := inferInstance
  clash_refl _ := Or.inl rfl
  clash_symm h := h.imp Eq.symm Eq.symm

/-- The ways a fact can be known. -/
inductive EvidenceMethod where
  | exact
  | semantic
  | structural
  | textual
  | inferred
  | observed
  | declared
  deriving DecidableEq, Repr

/-- A row of `symbol_fact`.  `extractedFrom` is no column: it lists the bytes of every text
the row was computed from, for the specification only, and no operation reads it. -/
structure SymbolFact where
  symbolFactId : String
  extractorRunId : String
  revisionId : String
  canonicalSymbolKey : String
  providerSymbolId : Option String
  symbolKind : String
  displayName : String
  qualifiedName : String
  signature : Option String
  startByte : ℤ
  endByte : ℤ
  startLine : ℤ
  startColumn : ℤ
  endLine : ℤ
  endColumn : ℤ
  evidenceMethod : EvidenceMethod
  confidence : ℚ
  evidenceReason : String
  extractedFrom : List (List UInt8)
  deriving DecidableEq, Repr

/-- The `CHECK` constraints of `symbol_fact`. -/
def SymbolFact.Valid (f : SymbolFact) : Prop :=
  0 ≤ f.startByte ∧ f.startByte ≤ f.endByte ∧ 1 ≤ f.startLine ∧ 1 ≤ f.startColumn ∧
    f.startLine ≤ f.endLine ∧ 1 ≤ f.endColumn ∧ 0 ≤ f.confidence ∧ f.confidence ≤ 1

instance (f : SymbolFact) : Decidable f.Valid := by
  unfold SymbolFact.Valid
  infer_instance

instance : Keyed SymbolFact where
  Clash a b := a.symbolFactId = b.symbolFactId ∨
    a.extractorRunId = b.extractorRunId ∧ a.canonicalSymbolKey = b.canonicalSymbolKey ∧
      a.startByte = b.startByte ∧ a.endByte = b.endByte
  decideClash _ _ := inferInstance
  clash_refl _ := Or.inl rfl
  clash_symm h := h.imp Eq.symm fun h => ⟨h.1.symm, h.2.1.symm, h.2.2.1.symm, h.2.2.2.symm⟩

/-- What the end of a relationship names. -/
inductive RefKind where
  | symbol
  | path
  | external
  deriving DecidableEq, Repr

/-- A row of `relationship_fact`.  `extractedFrom` is as in `SymbolFact`. -/
structure RelationshipFact where
  relationshipFactId : String
  extractorRunId : String
  revisionId : String
  relationshipType : RelationshipType
  sourceRefKind : RefKind
  sourceRefValue : String
  targetRefKind : RefKind
  targetRefValue : String
  attributes : List (String × String)
  evidenceMethod : EvidenceMethod
  confidence : ℚ
  evidenceReason : String
  extractedFrom : List (List UInt8)
  deriving DecidableEq, Repr

/-- The `CHECK` constraints of `relationship_fact` that its column types leave open. -/
def RelationshipFact.Valid (f : RelationshipFact) : Prop :=
  0 ≤ f.confidence ∧ f.confidence ≤ 1

instance (f : RelationshipFact) : Decidable f.Valid := by
  unfold RelationshipFact.Valid
  infer_instance

instance : Keyed RelationshipFact := .ofKey RelationshipFact.relationshipFactId

/-- A row of `diagnostic`, as extractor runs write it. -/
structure Diagnostic where
  diagnosticId : String
  extractorRunId : String
  message : String
  createdAt : Timestamp
  deriving DecidableEq, Repr

instance : Keyed Diagnostic := .ofKey Diagnostic.diagnosticId

/-- The tables that extractors fill. -/
structure FactTables where
  extractorRun : Table ExtractorRun
  symbolFact : Table SymbolFact
  relationshipFact : Table RelationshipFact
  diagnostic : Table Diagnostic
  deriving DecidableEq

namespace FactTables

/-- No facts. -/
def empty : FactTables := ⟨.empty, .empty, .empty, .empty⟩

end FactTables

/-! ## Task sessions -/

/-- The states of a task session. -/
inductive TaskSessionState where
  | created
  | contextCompiled
  | active
  | reconciled
  | completed
  | abandoned
  | failed
  deriving DecidableEq, Repr

/-- What of the raw task text a session may keep. -/
inductive RawTaskRetention where
  | none
  | hashOnly
  | localOptIn
  deriving DecidableEq, Repr

/-- The declared or derived kind of a task. -/
inductive TaskKind where
  | explore
  | bugFix
  | behaviorChange
  | apiChange
  | refactor
  | configurationChange
  | testChange
  | review
  | audit
  | unknown
  deriving DecidableEq, Repr

/-- Where the kind of a task comes from. -/
inductive TaskKindSource where
  | declared
  | deterministicRule
  | unknown
  deriving DecidableEq, Repr

/-- A row of `task_session`. -/
structure TaskSession where
  taskSessionId : String
  workspaceId : String
  startGenerationId : String
  endGenerationId : Option String
  taskHash : String
  normalizedGoalHash : String
  rawTaskRetention : RawTaskRetention
  rawTask : Option String
  taskKind : TaskKind
  taskKindSource : TaskKindSource
  taskKindRuleId : Option String
  plannerPolicyVersion : String
  contextIrVersion : String
  state : TaskSessionState
  accepted : Option Bool
  testsPassed : Option Bool
  outcomeCode : Option String
  startTreeHash : Option String
  endTreeHash : Option String
  createdAt : Timestamp
  completedAt : Option Timestamp
  deriving DecidableEq, Repr

instance : Keyed TaskSession := .ofKey TaskSession.taskSessionId

/-! ## The record of the tables -/

/-- The catalogue. -/
structure Catalogue where
  workspace : Table Workspace
  writerLease : Table WriterLease
  indexGeneration : Table IndexGeneration
  fileIdentity : Table FileIdentity
  fileRevision : Table FileRevision
  generationFile : Table GenerationFile
  lifecycleEvent : Table LifecycleEvent
  tombstone : Table Tombstone
  facts : FactTables
  taskSession : Table TaskSession
  deriving DecidableEq

namespace Catalogue

/-- The catalogue of a fresh database. -/
def empty : Catalogue :=
  ⟨.empty, .empty, .empty, .empty, .empty, .empty, .empty, .empty, .empty, .empty⟩

/-- The catalogue just after the workspaces `ids` were registered. -/
def registered (ids : List String) : Catalogue :=
  { empty with
    workspace := ids.foldl (fun t id => t.insertOrIgnore ⟨id, none⟩) .empty }

/-- The foreign key `REFERENCES workspace(workspace_id)`. -/
def hasWorkspace (c : Catalogue) (workspaceId : String) : Bool :=
  c.workspace.rows.any fun w => w.workspaceId = workspaceId

/-- The foreign key `REFERENCES index_generation(generation_id)`. -/
def hasGeneration (c : Catalogue) (generationId : String) : Bool :=
  c.indexGeneration.rows.any fun g => g.generationId = generationId

/-- The foreign key `REFERENCES file_identity(file_id)`. -/
def hasFile (c : Catalogue) (fileId : String) : Bool :=
  c.fileIdentity.rows.any fun i => i.fileId = fileId

/-- The foreign key `REFERENCES file_revision(revision_id)`. -/
def hasRevision (c : Catalogue) (revisionId : String) : Bool :=
  c.fileRevision.rows.any fun r => r.revisionId = revisionId

end Catalogue

end WorkspaceAtlas
