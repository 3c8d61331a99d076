/-
# Migrations

`apply_all` of `migrations.rs` brings the file of a catalogue to the newest schema: it checks the
state of the file, applies the migrations that are missing, each in a transaction of its own, and
records their checksums.  Modelled of the file is what the runner reads and writes.
-/
import WorkspaceAtlas.Catalogue.Ids
import WorkspaceAtlas.Catalogue.Schema
import WorkspaceAtlas.Relational.SortedMap
import WorkspaceAtlas.Semantic.Evidence
import WorkspaceAtlas.Text.Debug
import WorkspaceAtlas.Transition.Check
import WorkspaceAtlas.Transition.Durable

namespace WorkspaceAtlas

open Relational Transition

namespace Migrations

/-! ## The file -/

/-- The columns of `file_revision` that identify a revision. -/
structure RevisionMaterial where
  fileId : String
  contentHash : String
  artifactClass : String
  language : Option String
  isGenerated : Bool
  isTest : Bool
  deriving DecidableEq, Repr

namespace RevisionMaterial

/-- The columns of the first identity index. -/
def oldIdentity (r : RevisionMaterial) : String × String × String × String :=
  (r.fileId, r.contentHash, r.artifactClass, r.language.getD "")

/-- The columns of the identity index of migration 4. -/
def identity (r : RevisionMaterial) : String × String × String × String × Bool × Bool :=
  (r.fileId, r.contentHash, r.artifactClass, r.language.getD "", r.isGenerated, r.isTest)

end RevisionMaterial

/-- The file of a catalogue; a table that does not exist is `none`. -/
structure SchemaFile where
  /-- `PRAGMA user_version`. -/
  userVersion : ℤ
  /-- `schema_migration`: the name of a version. -/
  schemaMigration : Option (SortedMap ℤ String)
  /-- `migration_integrity`: the name and the checksum of a version. -/
  migrationIntegrity : Option (SortedMap ℤ (String × String))
  /-- `file_revision`. -/
  fileRevision : Option (List RevisionMaterial)
  /-- The text of `idx_file_revision_identity`. -/
  identityIndex : Option String
  /-- The column and the triggers that migration 4 adds. -/
  fenced : Bool
  /-- What `integrity_check` finds. -/
  damage : Option String

/-- A migration: its version, its name and its text. -/
structure Migration where
  version : ℤ
  name : String
  sql : String
  deriving DecidableEq, Repr

/-- What a binary brings: its digests, the format of debug texts and the embedded texts of the
migrations. -/
structure Binary where
  hasher : Hasher
  debug : Text.DebugFormat
  sql : ℤ → String

/-- `MIGRATIONS`. -/
def Binary.migrations (B : Binary) : List Migration :=
  [⟨1, "0001_foundation", B.sql 1⟩, ⟨2, "0002_semantic_provider_foundation", B.sql 2⟩,
    ⟨3, "0003_context_intelligence_foundation", B.sql 3⟩,
    ⟨4, "0004_file_classification_identity", B.sql 4⟩]

/-- `max_supported_version`. -/
def maxSupportedVersion : ℤ := 4

/-- The names in `schema_migration`. -/
def expectedSchemaNames : List String :=
  ["workspace_atlas_foundation", "0002_semantic_provider_foundation",
    "0003_context_intelligence_foundation", "0004_file_classification_identity"]

/-- The identity index of migration 1. -/
def oldIndexSql : String :=
  "CREATE UNIQUE INDEX idx_file_revision_identity\n" ++
    "    ON file_revision(file_id, content_hash, artifact_class, IFNULL(language, ''))"

/-- The identity index of migration 4. -/
def newIndexSql : String :=
  "CREATE UNIQUE INDEX idx_file_revision_identity\n" ++
    "    ON file_revision(\n        file_id,\n        content_hash,\n        artifact_class,\n" ++
    "        COALESCE(language, ''),\n        is_generated,\n        is_test\n    )"

/-! ## The bodies -/

/-- The error of a statement that fails. -/
def failed (message : String) : AtlasError := .sqlite (.failure message)

/-- What a table that is read has to be. -/
def table {α : Type} (name : String) (t : Option α) : Except AtlasError α :=
  t.elim (.error (failed ("no such table: " ++ name))) .ok

/-- `0001_foundation.sql`. -/
def foundation (s : SchemaFile) : SchemaFile :=
  let rows := s.schemaMigration.getD .empty
  { s with
    schemaMigration := some (if (rows.get 1).isSome then rows
      else rows.insert 1 "workspace_atlas_foundation")
    fileRevision := some (s.fileRevision.getD [])
    identityIndex := some (s.identityIndex.getD oldIndexSql) }

/-- `0002_semantic_provider_foundation.sql`. -/
def semanticProviderFoundation (s : SchemaFile) : SchemaFile :=
  { s with
    migrationIntegrity := some (s.migrationIntegrity.getD .empty)
    userVersion := 2 }

/-- `0004_file_classification_identity.sql`. -/
def fileClassificationIdentity (s : SchemaFile) : Except AtlasError SchemaFile := do
  ensure (s.identityIndex.isSome = true) (failed "no such index: idx_file_revision_identity")
  let rows ← table "main.file_revision" s.fileRevision
  ensure ((rows.map RevisionMaterial.identity).Nodup)
    (failed "UNIQUE constraint failed: index 'idx_file_revision_identity'")
  ensure (s.fenced = false) (failed "duplicate column name: schema_writer_version")
  return { s with identityIndex := some newIndexSql, fenced := true }

/-- The body of a migration; that of migration 3 changes nothing that is modelled. -/
def body (version : ℤ) (s : SchemaFile) : Except AtlasError SchemaFile :=
  if version = 1 then .ok (foundation s)
  else if version = 2 then .ok (semanticProviderFoundation s)
  else if version = 4 then fileClassificationIdentity s
  else .ok s

/-! ## Checks -/

/-- The debug text of a row. -/
def debugRow (D : Text.DebugFormat) (row : ℤ × String) : String :=
  "(" ++ toString row.1 ++ ", " ++ String.ofList (D.debugStr row.2) ++ ")"

/-- The debug text of rows. -/
def debugRows (D : Text.DebugFormat) (rows : List (ℤ × String)) : String :=
  "[" ++ ", ".intercalate (rows.map (debugRow D)) ++ "]"

/-- The text of a truth value in a row. -/
def flag (b : Bool) : String := if b then "1" else "0"

/-- What is refused of a revision that occurs more than once. -/
def ambiguous (D : Text.DebugFormat) (rows : List RevisionMaterial) (r : RevisionMaterial) :
    AtlasError :=
  .migration ("ambiguous duplicate file revision material tuple (" ++ r.fileId ++ ", " ++
    r.contentHash ++ ", " ++ r.artifactClass ++ ", " ++
    String.ofList (D.debugStr (r.language.getD "")) ++ ", " ++ flag r.isGenerated ++ ", " ++
    flag r.isTest ++ ") has " ++
    toString (rows.countP fun r' => r'.identity = r.identity) ++
    " rows; refusing to deduplicate or rewrite")

/-- `reject_ambiguous_revision_material`; which of the duplicates the query gives is left to
SQLite. -/
def rejectAmbiguousRevisionMaterial (D : Text.DebugFormat) (s : SchemaFile) :
    Except AtlasError Unit :=
  let rows := s.fileRevision.getD []
  match rows.find? fun r => 1 < rows.countP fun r' => r'.identity = r.identity with
  | none => .ok ()
  | some r => .error (ambiguous D rows r)

/-- A row of a table of versions has the next version and the expected name. -/
def isExpected (expected : List String) (row : (ℤ × String) × ℕ) : Bool :=
  row.1.1 = (row.2 + 1 : ℤ) ∧ expected[row.2]? = some row.1.2

/-- The rows of a table of versions are as many as there are versions, under the expected names. -/
def checkRows (rows : List (ℤ × String)) (catalogueVersion : ℤ) (expected : List String)
    (count : AtlasError) (row : ℤ × String → AtlasError) : Except AtlasError Unit := do
  ensure ((rows.length : ℤ) = catalogueVersion) count
  match rows.zipIdx.find? fun r => !isExpected expected r with
  | none => return ()
  | some r => .error (row r.1)

/-- The rows of `schema_migration`. -/
def checkSchemaRows (D : Text.DebugFormat) (rows : List (ℤ × String)) (catalogueVersion : ℤ) :
    Except AtlasError Unit :=
  checkRows rows catalogueVersion expectedSchemaNames
    (.migration ("catalogue user_version " ++ toString catalogueVersion ++
      " disagrees with schema_migration rows " ++ debugRows D rows ++ "; split migration state"))
    fun row => .migration ("schema_migration row " ++ debugRow D row ++
      " is not the expected ordered migration; split migration state")

/-- The rows of `migration_integrity`. -/
def checkChecksumRows (B : Binary) (rows : List (ℤ × String)) (catalogueVersion : ℤ) :
    Except AtlasError Unit :=
  checkRows rows catalogueVersion (B.migrations.map Migration.name)
    (.migration ("catalogue user_version " ++ toString catalogueVersion ++
      " disagrees with migration checksum rows " ++ debugRows B.debug rows ++
      "; split checksum state"))
    fun row => .migration ("migration checksum row " ++ debugRow B.debug row ++
      " is not the expected ordered migration; split checksum state")

/-- The table of the checksums. -/
def checkIntegrity (B : Binary) (s : SchemaFile) (catalogueVersion : ℤ) :
    Except AtlasError Unit :=
  if catalogueVersion < 2 then
    ensure (s.migrationIntegrity.isNone = true) (.migration
      "migration_integrity exists before migration 0002; split checksum state")
  else
    match s.migrationIntegrity with
    | none => .error (.migration
        "migration_integrity is absent after migration 0002; split checksum state")
    | some rows =>
      checkChecksumRows B (rows.entries.map fun row => (row.1, row.2.1)) catalogueVersion

/-- The text of an index without white space. -/
def normalizedIndex (sql : String) : List Char :=
  (sql.toList.filter fun c => !isWhitespace c).map Char.toLower

/-- The columns that the identity index has to have. -/
def expectedColumns (catalogueVersion : ℤ) : String :=
  if 4 ≤ catalogueVersion then "onfile_revision(file_id,content_hash,artifact_class," ++
    "coalesce(language,''),is_generated,is_test)"
  else "onfile_revision(file_id,content_hash,artifact_class,ifnull(language,''))"

/-- The identity index. -/
def checkIndex (s : SchemaFile) (catalogueVersion : ℤ) : Except AtlasError Unit :=
  match s.identityIndex with
  | none => .error (.migration "idx_file_revision_identity is absent; split index state")
  | some indexSql =>
    ensure ((expectedColumns catalogueVersion).toList <:+: normalizedIndex indexSql)
      (.migration ("idx_file_revision_identity does not match user_version " ++
        toString catalogueVersion ++ "; split index state"))

/-- `validate_catalogue_state`. -/
def validateCatalogueState (B : Binary) (s : SchemaFile) (catalogueVersion : ℤ) :
    Except AtlasError Unit :=
  if catalogueVersion = 0 then
    ensure (s.schemaMigration.isNone = true) (.migration ("catalogue schema_migration body " ++
      "exists while user_version is 0; split migration state"))
  else
    match s.schemaMigration with
    | none => .error (.migration ("catalogue user_version is " ++ toString catalogueVersion ++
        " but schema_migration is absent; split migration state"))
    | some rows => do
      checkSchemaRows B.debug rows.entries catalogueVersion
      checkIntegrity B s catalogueVersion
      checkIndex s catalogueVersion

/-- The version is applied. -/
def isApplied (s : SchemaFile) (version : ℤ) : Except AtlasError Bool :=
  (table "schema_migration" s.schemaMigration).map fun rows => (rows.get version).isSome

/-- The checksum of a migration. -/
def Binary.checksum (B : Binary) (m : Migration) : String :=
  contentHashOfBytes B.hasher (utf8 m.sql)

/-- The migration is applied, and its checksum is another one. -/
def isMismatched (B : Binary) (s : SchemaFile) (rows : SortedMap ℤ (String × String))
    (m : Migration) : Except AtlasError Bool :=
  (isApplied s m.version).map fun applied =>
    applied && (rows.get m.version).any fun row => row.2 != B.checksum m

/-- `verify_migration_checksums`: the migrations whose checksum is another one. -/
def verifyMigrationChecksums (B : Binary) (s : SchemaFile) : Except AtlasError (List String) :=
  match s.migrationIntegrity with
  | none => .ok []
  | some rows => (B.migrations.filterM (isMismatched B s rows)).map (List.map Migration.name)

/-- `preflight_catalogue_state`. -/
def preflightCatalogueState (B : Binary) (s : SchemaFile) : Except AtlasError Unit := do
  ensure (s.damage = none) (.migration (s.damage.getD ""))
  rejectAmbiguousRevisionMaterial B.debug s
  validateCatalogueState B s s.userVersion
  let mismatched ← verifyMigrationChecksums B s
  ensure (mismatched = [])
    (.migration ("migration checksum mismatch for " ++ ", ".intercalate mismatched))

/-! ## The runner -/

/-- The row of a migration that its body did not insert. -/
def insertMigrationRow (m : Migration) (s : SchemaFile) : Except AtlasError SchemaFile :=
  (table "schema_migration" s.schemaMigration).map fun rows =>
    if (rows.get m.version).isSome then s
    else { s with schemaMigration := some (rows.insert m.version m.name) }

/-- The checksum of a migration, if there is a table for it. -/
def insertChecksum (B : Binary) (m : Migration) (s : SchemaFile) : Except AtlasError SchemaFile :=
  match s.migrationIntegrity with
  | none => .ok s
  | some rows =>
    if (rows.get m.version).isSome then
      .error (failed "UNIQUE constraint failed: migration_integrity.version")
    else .ok { s with
      migrationIntegrity := some (rows.insert m.version (m.name, B.checksum m)) }

/-- `apply_one_migration`: the body, the row, the checksum and the header. -/
def applyOneMigration (B : Binary) (m : Migration) (s : SchemaFile) :
    Except AtlasError SchemaFile := do
  let s ← body m.version s
  let s ← insertMigrationRow m s
  let s ← insertChecksum B m s
  return { s with userVersion := m.version }

/-- The program on the file. -/
abbrev Runner := Durable SchemaFile AtlasError

/-- The checksum that is stored for a migration that is applied. -/
def storedChecksum (m : Migration) (s : SchemaFile) : Except AtlasError (Option (Option String)) :=
  (isApplied s m.version).map fun applied =>
    if applied then
      some (s.migrationIntegrity.bind fun rows => (rows.get m.version).map Prod.snd)
    else none

/-- What is refused of a checksum that is another one. -/
def checksumMismatch (B : Binary) (m : Migration) (stored : String) : AtlasError :=
  .migration ("migration " ++ m.name ++ " (version " ++ toString m.version ++
    ") checksum mismatch: catalogue recorded " ++ stored ++ ", embedded migration hashes to " ++
      B.checksum m)

/-- What `reconcile_migration_checksums` does for one migration. -/
def reconcileOne (B : Binary) (m : Migration) : Runner Unit := do
  match ← Durable.read (storedChecksum m) with
  | none => return ()
  | some none => Durable.transact (insertChecksum B m)
  | some (some stored) =>
    Durable.read fun _ => ensure (stored = B.checksum m) (checksumMismatch B m stored)

/-- `reconcile_migration_checksums`: every checksum is a transaction. -/
def reconcileMigrationChecksums (B : Binary) : Runner Unit := do
  if ← Durable.read fun s => .ok s.migrationIntegrity.isSome then
    B.migrations.forM (reconcileOne B)

/-- Before migration 4 the checksums of the earlier ones are recorded. -/
def prepare (B : Binary) (m : Migration) : Runner Unit :=
  if m.version = 4 then do
    reconcileMigrationChecksums B
    Durable.read (preflightCatalogueState B)
  else pure ()

/-- What `apply_all` does for one migration. -/
def applyNext (B : Binary) (m : Migration) : Runner Unit := do
  if ← Durable.read fun s =>
      .ok (s.schemaMigration.any fun rows => (rows.get m.version).isSome) then
    return ()
  else do
    prepare B m
    Durable.transact (applyOneMigration B m)

/-- A catalogue of a newer binary. -/
def newer (catalogueVersion : ℤ) : AtlasError :=
  .migration ("catalogue schema version " ++ toString catalogueVersion ++ " is newer than the " ++
    toString maxSupportedVersion ++
      " this binary supports; refusing to write. Upgrade the atlas binary.")

/-- `apply_all`. -/
def applyAll (B : Binary) : Runner Unit := do
  Durable.read fun s => ensure (s.userVersion ≤ maxSupportedVersion) (newer s.userVersion)
  Durable.read (preflightCatalogueState B)
  B.migrations.forM (applyNext B)
  reconcileMigrationChecksums B
  Durable.read (preflightCatalogueState B)

end Migrations

end WorkspaceAtlas
