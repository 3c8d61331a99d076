/-
# Project scopes

`project_scope.rs`, and what `semantic_reconcile.rs`, `provider_contract.rs` and `providers.rs`
make of a scope: where the projects of a workspace are, which of them owns a file, and the
fingerprint of everything that a provider is run on.

A path is the list of the names below the root of the file system.  A name is a text; links are
taken as what they lead to.
-/
import WorkspaceAtlas.Catalogue.Ids
import WorkspaceAtlas.Catalogue.Schema
import WorkspaceAtlas.Discovery.PolicyWalk
import WorkspaceAtlas.Relational.Query
import WorkspaceAtlas.Transition.Worklist

namespace WorkspaceAtlas

open Relational Text Transition

namespace ProjectScopes

/-! ## The file system -/

/-- The bytes of a file, or the error that reading it ends with. -/
abbrev Content := Except String (List UInt8)

/-- What `read_dir` gives, in its order: files, and directories with what they contain.  A
directory that cannot be read is treated as one without entries. -/
inductive Folder where
  | nil
  | file (name : String) (content : Content) (rest : Folder)
  | dir (name : String) (entries rest : Folder)

namespace Folder

def files : Folder → List (String × Content)
  | nil => []
  | file name content rest => (name, content) :: rest.files
  | dir _ _ rest => rest.files

def dirs : Folder → List (String × Folder)
  | nil => []
  | file _ _ rest => rest.dirs
  | dir name entries rest => (name, entries) :: rest.dirs

def names : Folder → List String
  | nil => []
  | file name _ rest => name :: rest.names
  | dir name _ rest => name :: rest.names

/-- A name that an entry can have. -/
def IsEntryName (name : String) : Prop := name ≠ "" ∧ '/' ∉ name.toList

/-- The entries of each directory have different names. -/
def Proper : Folder → Prop
  | nil => True
  | file name _ rest => IsEntryName name ∧ name ∉ rest.names ∧ rest.Proper
  | dir name entries rest =>
    IsEntryName name ∧ name ∉ rest.names ∧ entries.Proper ∧ rest.Proper

def size : Folder → ℕ
  | nil => 1
  | file _ _ rest => rest.size
  | dir _ entries rest => entries.size + rest.size

lemma size_pos : ∀ f : Folder, 0 < f.size
  | nil => Nat.one_pos
  | file _ _ rest => size_pos rest
  | dir _ entries _ => Nat.add_pos_left (size_pos entries) _

lemma sum_dirs_lt : ∀ f : Folder, (f.dirs.map fun e => e.2.size).sum < f.size
  | nil => Nat.one_pos
  | file _ _ rest => sum_dirs_lt rest
  | dir _ entries rest => Nat.add_lt_add_left (sum_dirs_lt rest) entries.size

end Folder

/-- A directory with its path. -/
abbrev Place := List String × Folder

/-- `SKIP_DIR_NAMES`, and the names that `list_relevant_files` does not descend into. -/
def skipDirNames : List String :=
  ["node_modules", "vendor", "target", "dist", "build", ".git", ".workspace_atlas"]

/-- The directories that are pushed, taken in some order. -/
def entered (order : List (String × Folder) → List (String × Folder)) (place : Place) :
    List Place :=
  ((order place.2.dirs).filter fun e => e.1 ∉ skipDirNames).map fun e =>
    (place.1 ++ [e.1], e.2)

lemma sum_entered_lt {order : List (String × Folder) → List (String × Folder)}
    (h : ∀ l, (order l).Perm l) (place : Place) :
    ((entered order place).map fun p => p.2.size).sum < place.2.size := by
  have hsublist := (List.filter_sublist (p := fun e : String × Folder => e.1 ∉ skipDirNames)
    (l := order place.2.dirs)).map fun e => e.2.size
  have hperm := ((h place.2.dirs).map fun e => e.2.size).sum_nat
  calc ((entered order place).map fun p => p.2.size).sum
      ≤ ((order place.2.dirs).map fun e => e.2.size).sum := by
        rw [entered, List.map_map]
        exact sum_le_of_sublist hsublist
    _ = (place.2.dirs.map fun e => e.2.size).sum := hperm
    _ < place.2.size := place.2.sum_dirs_lt

/-- The directories of a workspace, without those that are skipped. -/
def walk (order : List (String × Folder) → List (String × Folder))
    (h : ∀ l, (order l).Perm l) : Branching Place where
  next := entered order
  size place := place.2.size
  size_next := sum_entered_lt h

/-- `sort_by_key` with the names. -/
def byName (l : List (String × Folder)) : List (String × Folder) := orderBy (fun e => e.1) l

/-- `content_hash_of_file`, of a file of a directory. -/
def contentHashOfFile (H : Hasher) (files : List (String × Content)) (name : String) :
    Except AtlasError String :=
  match files.lookup name with
  | some (.ok bytes) => .ok (contentHashOfBytes H bytes)
  | some (.error message) => .error (.io message)
  | none => .error (.io "No such file or directory (os error 2)")

/-! ## Scopes -/

/-- `ScopeKind`. -/
inductive ScopeKind where
  | project
  | package
  | workspace
  deriving DecidableEq, Repr

/-- `ScopeKind::as_str`. -/
def ScopeKind.asStr : ScopeKind → String
  | project => "project"
  | package => "package"
  | workspace => "workspace"

/-- `MarkerRule`. -/
structure MarkerRule where
  fileName : String
  scopeKind : ScopeKind
  languageFamily : Option String
  deriving DecidableEq, Repr

/-- `default_typescript_markers`. -/
def defaultTypescriptMarkers : List MarkerRule :=
  [⟨"tsconfig.json", .project, some "typescript"⟩,
    ⟨"jsconfig.json", .project, some "javascript"⟩,
    ⟨"package.json", .package, some "typescript"⟩]

/-- `default_rust_markers`. -/
def defaultRustMarkers : List MarkerRule := [⟨"Cargo.toml", .project, some "rust"⟩]

/-- `default_project_markers`. -/
def defaultProjectMarkers : List MarkerRule := defaultTypescriptMarkers ++ defaultRustMarkers

/-- `SCOPE_POLICY_VERSION`. -/
def scopePolicyVersion : String := "project-scope-1.0.0"

/-- `ProjectScope`. -/
structure ProjectScope where
  canonicalRoot : List String
  scopeKind : ScopeKind
  primaryManifestPath : List String
  primaryManifestHash : String
  relevantConfigHashes : List (String × String)
  languageFamily : Option String
  owningPolicyVersion : String
  deriving DecidableEq, Repr

/-- The files next to a manifest that take part in the identity of its scope. -/
def siblingNames : List String :=
  ["package.json", "package-lock.json", "pnpm-lock.yaml", "yarn.lock", "Cargo.lock"]

/-- The directory has the file. -/
def hasFile (files : List (String × Content)) (name : String) : Bool :=
  files.any fun f => f.1 = name

/-- The hashes of the files next to a manifest, sorted. -/
def relevantConfigs (H : Hasher) (files : List (String × Content)) (manifest : String) :
    Except AtlasError (List (String × String)) :=
  ((siblingNames.filter fun sibling => sibling ≠ manifest ∧ hasFile files sibling = true).mapM
    fun sibling => (contentHashOfFile H files sibling).map fun hash => (sibling, hash)).map
      (orderBy fun config => config.1)

/-- The scope of a directory under the rule that it matches. -/
def scopeUnder (H : Hasher) (place : Place) (rule : MarkerRule) :
    Except AtlasError ProjectScope := do
  let manifestHash ← contentHashOfFile H place.2.files rule.fileName
  let relevant ← relevantConfigs H place.2.files rule.fileName
  return {
    canonicalRoot := place.1
    scopeKind := rule.scopeKind
    primaryManifestPath := place.1 ++ [rule.fileName]
    primaryManifestHash := manifestHash
    relevantConfigHashes := relevant
    languageFamily := rule.languageFamily
    owningPolicyVersion := scopePolicyVersion }

/-- The scope of a directory; the first rule that it matches wins. -/
def scopesAt (H : Hasher) (markers : List MarkerRule) (place : Place) :
    Except AtlasError (List ProjectScope) :=
  match markers.find? fun rule => hasFile place.2.files rule.fileName with
  | none => .ok []
  | some rule => (scopeUnder H place rule).map fun scope => [scope]

/-- `discover_project_scopes`. -/
def discoverProjectScopes (H : Hasher) (workspaceRoot : List String) (tree : Folder)
    (markers : List MarkerRule) : Except AtlasError (List ProjectScope) :=
  ((walk byName fun _ => perm_orderBy).drain (scopesAt H markers)
    [(workspaceRoot, tree)]).map (orderBy fun scope => scope.canonicalRoot)

/-- `OwningScopeResolution`. -/
inductive OwningScopeResolution where
  | owned (index : ℕ)
  | noScope
  | ambiguous (indices : List ℕ)
  deriving DecidableEq, Repr

/-- One scope of the loop of `resolve_owning_scope`: the depth and the indices of the deepest
ancestors so far. -/
def deepen (filePath : List String) (best : Option ℕ × List ℕ) (entry : ProjectScope × ℕ) :
    Option ℕ × List ℕ :=
  if entry.1.canonicalRoot <+: filePath then
    let depth := entry.1.canonicalRoot.length + 1
    match best.1 with
    | none => (some depth, [entry.2])
    | some d =>
      if d < depth then (some depth, [entry.2])
      else if depth = d then (best.1, best.2 ++ [entry.2])
      else best
  else best

/-- `resolve_owning_scope`. -/
def resolveOwningScope (filePath : List String) (scopes : List ProjectScope) :
    OwningScopeResolution :=
  match (scopes.zipIdx.foldl (deepen filePath) (none, [])).2 with
  | [] => .noScope
  | [i] => .owned i
  | indices => .ambiguous indices

/-! ## Fingerprints -/

/-- `to_string_lossy` of an absolute path. -/
def pathText (path : List String) : String :=
  String.ofList ('/' :: ['/'].intercalate (path.map String.toList))

/-- A row that is hashed. -/
def hashOfJson (H : Hasher) (row : Json) : String := contentHashOfBytes H (canonicalJsonBytes row)

/-- Pairs of texts. -/
def pairsJson (pairs : List (String × String)) : Json :=
  .arr (pairs.map fun p => .arr [.str p.1, .str p.2])

/-- Texts. -/
def textsJson (texts : List String) : Json := .arr (texts.map .str)

/-- `project_input_manifest_hash`. -/
def projectInputManifestHash (H : Hasher) (scope : ProjectScope) : String :=
  hashOfJson H (.obj [
    ("canonical_root", .str (pathText scope.canonicalRoot)),
    ("owning_policy_version", .str scope.owningPolicyVersion),
    ("primary_manifest_hash", .str scope.primaryManifestHash),
    ("primary_manifest_relative", .str (scope.primaryManifestPath.getLast?.getD "")),
    ("relevant", pairsJson scope.relevantConfigHashes),
    ("scope_kind", .str scope.scopeKind.asStr)])

/-- `execution_input_fingerprint`. -/
def executionInputFingerprint (H : Hasher) (workspaceId : String) (scope : ProjectScope)
    (sortedRelevantFiles : List (String × String)) (providerDescriptorFingerprint
    providerConfigurationHash providerProtocolVersion normalizedSchemaVersion
    mappingPolicyVersion : String) : String :=
  hashOfJson H (.obj [
    ("mapping_policy_version", .str mappingPolicyVersion),
    ("normalized_schema_version", .str normalizedSchemaVersion),
    ("provider_configuration_hash", .str providerConfigurationHash),
    ("provider_descriptor_fingerprint", .str providerDescriptorFingerprint),
    ("provider_protocol_version", .str providerProtocolVersion),
    ("relevant_files", pairsJson sortedRelevantFiles),
    ("scope_identity", .str (projectInputManifestHash H scope)),
    ("workspace_id", .str workspaceId)])

/-- `PROTOCOL_VERSION`. -/
def protocolVersion : String := "1.0.0"

/-- `NORMALIZED_SCHEMA_VERSION`. -/
def normalizedSchemaVersion : String := "1.1.0"

/-- `mapping_policy_version_for`. -/
def mappingPolicyVersionFor (providerName : String) : String :=
  if providerName = "scip-typescript" then "scip-typescript-mapping-1.0.0"
  else providerName ++ "-scip-mapping-1.0.0"

/-- `PlannedSemanticExecution`, less its limits and what the probe is called with. -/
structure SemanticExecution where
  providerName : String
  providerVersion : String
  command : String
  arguments : List String
  languages : List String
  projectMarkers : List String
  required : Bool
  enabled : Bool
  configuration : Json
  scope : ProjectScope

/-- `ProviderConfigEntry`, less what a plan does not depend on. -/
structure ProviderConfigEntry where
  name : String
  kind : String
  scope : String
  enabled : Bool
  required : Bool
  languages : List String
  projectMarkers : List String
  version : Option String
  command : Option String
  arguments : List String
  configuration : Json

namespace ProviderConfigEntry

/-- `resolved_version`. -/
def resolvedVersion (entry : ProviderConfigEntry) : Option String :=
  entry.version.or (if entry.name = "scip-typescript" then some "0.4.0" else none)

/-- The markers that the scopes of a provider are searched with. -/
def markers (entry : ProviderConfigEntry) : List MarkerRule :=
  if entry.projectMarkers = [] then
    defaultProjectMarkers.filter fun rule => rule.languageFamily.any (· ∈ entry.languages)
  else
    entry.projectMarkers.filterMap fun marker =>
      defaultProjectMarkers.find? fun rule => rule.fileName = marker

/-- The plan of a provider for a scope. -/
def plan (entry : ProviderConfigEntry) (version command : String) (scope : ProjectScope) :
    SemanticExecution where
  providerName := entry.name
  providerVersion := version
  command := command
  arguments := entry.arguments
  languages := entry.languages
  projectMarkers := entry.markers.map MarkerRule.fileName
  required := entry.required
  enabled := entry.enabled
  configuration := entry.configuration
  scope := scope

/-- The plans of a provider. -/
def plans (H : Hasher) (root : List String) (tree : Folder) (entry : ProviderConfigEntry) :
    List SemanticExecution :=
  if entry.kind = "builtin" ∨ entry.scope ≠ "project" then []
  else
    match entry.command, entry.resolvedVersion with
    | some command, some version =>
      match discoverProjectScopes H root tree entry.markers with
      | .ok scopes => scopes.map (entry.plan version command)
      | .error _ => []
    | _, _ => []

end ProviderConfigEntry

/-- `discover_semantic_plans`. -/
def discoverSemanticPlans (H : Hasher) (root : List String) (tree : Folder)
    (providers : List ProviderConfigEntry) : List SemanticExecution :=
  providers.flatMap (ProviderConfigEntry.plans H root tree)

/-- `scip_provider_capabilities`. -/
def scipProviderCapabilities : List String :=
  ["symbols", "definitions", "references", "imports", "implementations", "type_definitions",
    "coverage", "diagnostics"]

/-- `scip_provider_limitations`. -/
def scipProviderLimitations : List String :=
  ["dynamic dispatch is not exhaustively resolved",
    "call-site classification requires structural composition",
    "exports are not distinguished from other definitions by SCIP's SymbolRole bitset"]

/-- `ProviderDescriptor::seal` of an `external_scip_descriptor`: its fingerprint. -/
def descriptorFingerprint (H : Hasher) (p : SemanticExecution) (executableHash : Option String) :
    String :=
  hashOfJson H (.obj [
    ("configuration", p.configuration),
    ("decoder_version", .str "scip-decoder-1.0.0"),
    ("descriptor", .obj [
      ("artifact_classes", textsJson ["source", "test"]),
      ("capabilities", textsJson scipProviderCapabilities),
      ("deterministic", .bool true),
      ("executable", .obj [("arguments", textsJson p.arguments), ("command", .str p.command),
        ("expected_output", .str "index.scip")]),
      ("execution_kind", .str "external_process"),
      ("execution_scope", .str "project"),
      ("invalidation", .obj [("default_scope", .str "project"),
        ("provider_upgrade", .str "all_provider_output")]),
      ("languages", textsJson p.languages),
      ("limitations", textsJson scipProviderLimitations),
      ("name", .str p.providerName),
      ("output_format", .str "scip"),
      ("project_markers", textsJson p.projectMarkers),
      ("protocol_version", .str protocolVersion),
      ("tier", .str "semantic_index"),
      ("version", .str p.providerVersion)]),
    ("executable_hash", executableHash.elim .null .str),
    ("mapping_policy_version", .str (mappingPolicyVersionFor p.providerName)),
    ("output_format", .str "scip"),
    ("protocol_version", .str protocolVersion)])

/-- `provider_key`. -/
def providerKey (H : Hasher) (p : SemanticExecution) (executableHash : Option String) : String :=
  p.providerName ++ "@" ++ p.providerVersion ++ "#" ++
    String.ofList ((descriptorFingerprint H p executableHash).toList.take 16)

/-- The fingerprint under which `run_one_plan` looks for an execution. -/
def inputFingerprint (H : Hasher) (workspaceId : String) (p : SemanticExecution)
    (executableHash : Option String) (relevantFiles : List (String × String)) : String :=
  executionInputFingerprint H workspaceId p.scope relevantFiles
    (descriptorFingerprint H p executableHash) (hashOfJson H p.configuration) protocolVersion
    normalizedSchemaVersion (mappingPolicyVersionFor p.providerName)

/-! ## The files of a scope -/

/-- `Path::extension` of a name. -/
def extension (name : String) : Option String :=
  match name.toList.reverse.dropWhile (· ≠ '.') with
  | [] | ['.'] => none
  | _ => some (String.ofList (name.toList.reverse.takeWhile (· ≠ '.')).reverse)

/-- The extensions of the files of some languages. -/
def extensionsOf (languages : List String) : List String :=
  let extensions := languages.flatMap fun l =>
    if l = "typescript" then ["ts", "tsx"]
    else if l = "javascript" then ["js", "jsx"]
    else if l = "rust" then ["rs"]
    else [l]
  if extensions = [] then ["ts", "tsx", "js", "jsx"] else extensions

/-- The files of a directory that have one of the extensions and can be read. -/
def relevantAt (H : Hasher) (extensions : List String) (place : Place) :
    List (String × String) :=
  place.2.files.filterMap fun f =>
    if (extension f.1).any (· ∈ extensions) then
      f.2.toOption.map fun bytes =>
        (relStrOf String.toList (place.1 ++ [f.1]), contentHashOfBytes H bytes)
    else none

/-- `list_relevant_files`, of the directory of a scope. -/
def listRelevantFiles (H : Hasher) (folder : Folder) (languages : List String) :
    Except AtlasError (List (String × String)) :=
  ((walk id fun l => .refl l).drain
    (fun place => .ok (relevantAt H (extensionsOf languages) place)) [([], folder)]).map
      (orderBy toLex)

end ProjectScopes

end WorkspaceAtlas
