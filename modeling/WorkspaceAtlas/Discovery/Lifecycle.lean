/-
# Renames and deletions

`lifecycle.rs`: the files of the generation about to be superseded are compared with the
files of the walk.  A path that disappeared and a path that appeared are a rename when they
are the only ones with their content hash; what disappeared otherwise is deleted.  A hash
map keyed by paths is an association list without repeated keys.
-/
import WorkspaceAtlas.Catalogue.Generation
import WorkspaceAtlas.Transition.Loop

namespace WorkspaceAtlas

open Relational Transition

/-- `PrevFile`: the identity and the last known content of a file. -/
structure PrevFile where
  fileId : String
  contentHash : String
  deriving DecidableEq, Repr

/-- The row of `snapshot_previous_present` that a generation member gives, if any. -/
def prevPresent? (c : Catalogue) (active : Option String) (gf : GenerationFile) :
    Option (String × PrevFile) :=
  if active = some gf.generationId ∧ gf.presenceState = .present then
    (gf.revisionId.bind fun rid => c.fileRevision.find? fun fr => fr.revisionId = rid).map
      fun fr => (gf.canonicalPath, ⟨gf.fileId, fr.contentHash⟩)
  else none

/-- `snapshot_previous_present`. -/
def snapshotPreviousPresent (c : Catalogue) (workspaceId : String) :
    List (String × PrevFile) :=
  match c.workspace.find? fun w => w.workspaceId = workspaceId with
  | none => []
  | some w => c.generationFile.rows.filterMap (prevPresent? c w.activeGenerationId)

/-- `RenamePair`. -/
structure RenamePair where
  oldPath : String
  newPath : String
  fileId : String
  contentHash : String
  deriving DecidableEq, Repr

/-- The files of the previous generation that were not walked. -/
def disappeared (prevPresent : List (String × PrevFile)) (walkedPaths : List String) :
    List (String × PrevFile) :=
  prevPresent.filter fun old => old.1 ∉ walkedPaths

/-- The present files that the previous generation does not have. -/
def appeared (prevPresent : List (String × PrevFile))
    (newPresentHashes : List (String × String)) : List (String × String) :=
  newPresentHashes.filter fun new => new.1 ∉ prevPresent.map Prod.fst

/-- The rename whose old side is the file `old`, if there is one. -/
def renameOf? (olds : List (String × PrevFile)) (news : List (String × String))
    (old : String × PrevFile) : Option RenamePair :=
  match olds.filter (fun o => o.2.contentHash = old.2.contentHash),
      news.filter (fun n => n.2 = old.2.contentHash) with
  | [_], [new] => some ⟨old.1, new.1, old.2.fileId, old.2.contentHash⟩
  | _, _ => none

/-- `detect_renames`. -/
def detectRenames (prevPresent : List (String × PrevFile)) (walkedPaths : List String)
    (newPresentHashes : List (String × String)) : List RenamePair :=
  (disappeared prevPresent walkedPaths).filterMap
    (renameOf? (disappeared prevPresent walkedPaths) (appeared prevPresent newPresentHashes))

/-! ## Recording a rename -/

/-- `INSERT INTO lifecycle_event`. -/
def insertLifecycleEvent (c : Catalogue) (row : LifecycleEvent) :
    Except AtlasError Catalogue :=
  match c.lifecycleEvent.insert? row with
  | none => .error (.sqlite (.constraint "lifecycle_event"))
  | some events =>
    if c.hasWorkspace row.workspaceId ∧ c.hasGeneration row.generationId ∧
        row.fileId.all c.hasFile then
      .ok { c with lifecycleEvent := events }
    else .error (.sqlite (.foreignKey "lifecycle_event"))

/-- `SET last_known_path = ?2, last_seen_at = ?3`. -/
def moveTo (newPath : String) (now : Timestamp) : Table.Update FileIdentity where
  toFun i := { i with lastKnownPath := newPath, lastSeenAt := now }
  clash_left _ _ := Iff.rfl

/-- The text whose digest is the id of a rename event. -/
def renameText (generationId oldPath newPath : String) : String :=
  "rename@" ++ generationId ++ "@" ++ (oldPath ++ "@" ++ newPath)

/-- The event of a rename. -/
def renamedEvent (H : Hasher) (workspaceId generationId : String) (now : Timestamp)
    (r : RenamePair) : LifecycleEvent where
  eventId := fileIdFromPath H workspaceId (renameText generationId r.oldPath r.newPath)
  workspaceId := workspaceId
  generationId := generationId
  eventType := .renamed
  occurredAt := now
  actor := .atlas
  fileId := some r.fileId
  oldPath := some r.oldPath
  newPath := some r.newPath
  oldContentHash := some r.contentHash
  newContentHash := some r.contentHash
  evidenceMethod := some "exact_content_hash"
  confidence := 1

/-- `record_rename`. -/
def recordRename (H : Hasher) (workspaceId generationId : String) (now : Timestamp)
    (c : Catalogue) (r : RenamePair) : Except AtlasError Catalogue :=
  insertLifecycleEvent
    { c with
      fileIdentity := c.fileIdentity.update (fun i => i.fileId = r.fileId)
        (moveTo r.newPath now) }
    (renamedEvent H workspaceId generationId now r)

/-! ## Recording deletions -/

/-- `SET lifecycle_state = 'deleted', last_seen_at = ?2`. -/
def markDeleted (now : Timestamp) : Table.Update FileIdentity where
  toFun i := { i with lifecycleState := .deleted, lastSeenAt := now }
  clash_left _ _ := Iff.rfl

/-- The text whose digest is the id of a deletion event. -/
def deleteText (generationId path : String) : String :=
  "delete@" ++ generationId ++ "@" ++ path

/-- The event of a deletion. -/
def deletedEvent (H : Hasher) (workspaceId generationId : String) (now : Timestamp)
    (path : String) (prev : PrevFile) : LifecycleEvent where
  eventId := fileIdFromPath H workspaceId (deleteText generationId path)
  workspaceId := workspaceId
  generationId := generationId
  eventType := .deleted
  occurredAt := now
  actor := .filesystem
  fileId := some prev.fileId
  oldPath := some path
  newPath := none
  oldContentHash := some prev.contentHash
  newContentHash := none
  evidenceMethod := some "path_absent_from_walk"
  confidence := 1

/-- The newest revision of the file with the content it had last. -/
def lastRevision (c : Catalogue) (prev : PrevFile) : Option FileRevision :=
  c.fileRevision.greatest?
    (fun fr => fr.fileId = prev.fileId ∧ fr.contentHash = prev.contentHash)
    FileRevision.discoveredAt

/-- The names and kinds of the symbols of a revision. -/
def symbolSummary (t : FactTables) (revisionId : Option String) : List (String × String) :=
  (t.symbolFact.rows.filter fun f => some f.revisionId = revisionId).map
    fun f => (f.qualifiedName, f.symbolKind)

/-- The types of the relationships of a revision. -/
def relationshipSummary (t : FactTables) (revisionId : Option String) :
    List RelationshipType :=
  (t.relationshipFact.rows.filter fun f => some f.revisionId = revisionId).map
    fun f => f.relationshipType

/-- The text whose digest is the id of a tombstone. -/
def tombstoneText (generationId path : String) : String :=
  "tombstone@" ++ generationId ++ "@" ++ path

/-- The tombstone of a deleted file. -/
def tombstoneRow (H : Hasher) (workspaceId generationId : String) (now : Timestamp)
    (c : Catalogue) (path : String) (prev : PrevFile) : Tombstone :=
  let last := lastRevision c prev
  let revisionId := last.map FileRevision.revisionId
  { tombstoneId := fileIdFromPath H workspaceId (tombstoneText generationId path)
    workspaceId := workspaceId
    fileId := prev.fileId
    deletionEventId := fileIdFromPath H workspaceId (deleteText generationId path)
    lastPath := path
    lastRevisionId := revisionId
    lastContentHash := prev.contentHash
    artifactClass := (last.map FileRevision.artifactClass).getD .other
    symbolSummary := symbolSummary c.facts revisionId
    relationshipSummary := relationshipSummary c.facts revisionId
    rawSnapshotState := .notRetained
    createdAt := now }

/-- `INSERT INTO tombstone`. -/
def insertTombstone (c : Catalogue) (row : Tombstone) : Except AtlasError Catalogue :=
  match c.tombstone.insert? row with
  | none => .error (.sqlite (.constraint "tombstone"))
  | some tombstones =>
    if c.hasWorkspace row.workspaceId ∧ c.hasFile row.fileId ∧
        (c.lifecycleEvent.rows.any fun e => e.eventId = row.deletionEventId) ∧
        row.lastRevisionId.all c.hasRevision then
      .ok { c with tombstone := tombstones }
    else .error (.sqlite (.foreignKey "tombstone"))

/-- The body of the loop of `record_deletions`. -/
def recordDeletion (H : Hasher) (workspaceId generationId : String) (now : Timestamp)
    (c : Catalogue) (old : String × PrevFile) : Except AtlasError Catalogue := do
  let c ← insertLifecycleEvent
    { c with
      fileIdentity := c.fileIdentity.update (fun i => i.fileId = old.2.fileId)
        (markDeleted now) }
    (deletedEvent H workspaceId generationId now old.1 old.2)
  insertTombstone c (tombstoneRow H workspaceId generationId now c old.1 old.2)

/-- The files that are neither walked nor the old side of a rename. -/
def deletedFiles (prevPresent : List (String × PrevFile)) (walkedPaths : List String)
    (renamedOldPaths : List String) : List (String × PrevFile) :=
  prevPresent.filter fun old => ¬ (old.1 ∈ walkedPaths ∨ old.1 ∈ renamedOldPaths)

/-- `record_deletions`, with the number of deletions. -/
def recordDeletions (H : Hasher) (workspaceId generationId : String) (now : Timestamp)
    (c : Catalogue) (prevPresent : List (String × PrevFile)) (walkedPaths : List String)
    (renamedOldPaths : List String) : Except AtlasError (Catalogue × ℕ) := do
  let gone := deletedFiles prevPresent walkedPaths renamedOldPaths
  let c ← gone.foldlM (recordDeletion H workspaceId generationId now) c
  return (c, gone.length)

end WorkspaceAtlas
