/-
# Classification of paths

`classify`, `artifact_class_for` and `revision_classification_for`: what a reconcile makes of
a path, from the path and the policy alone.  The regular expressions are matched by a library
that the repository does not contain, so whether a pattern matches a path is a parameter.
-/
import WorkspaceAtlas.Catalogue.Schema
import WorkspaceAtlas.Text.Chars

namespace WorkspaceAtlas

open Text

/-- Why a file is not recorded as present. -/
inductive SkipKind where
  | excluded
  | secretExcluded
  | unsupported
  | failed
  deriving DecidableEq, Repr

/-- The presence state that stands for it in `generation_file`. -/
def SkipKind.presenceState : SkipKind → PresenceState
  | excluded => .excluded
  | secretExcluded => .excluded
  | unsupported => .unsupported
  | failed => .failed

/-- `Classification`; its variants other than `Present` all carry a code and a detail. -/
inductive Classification where
  | present
  | skipped (kind : SkipKind) (code detail : String)
  deriving DecidableEq, Repr

/-! ## The default patterns -/

/-- `DEFAULT_SECRET_PATTERNS`. -/
def defaultSecretPatterns : List String :=
  ["\\.env(\\.[^/]+)?$", "(^|/)id_rsa$", "(^|/)id_ed25519$", "\\.pem$", "\\.key$",
    "(^|/)secrets?\\.ya?ml$", "(^|/)credentials?\\.json$", "(^|/)cookies?\\.(sqlite|json)$",
    "(^|/)netrc$", "(^|/)service-account\\.json$", "(^|/)\\.npmrc$", "(^|/)\\.pypirc$"]

/-- `DEFAULT_VENDOR_PATTERNS`. -/
def defaultVendorPatterns : List String :=
  ["(^|/)node_modules/", "(^|/)vendor/", "(^|/)\\.venv/", "(^|/)venv/",
    "(^|/)__pycache__/", "(^|/)\\.uv-cache/"]

/-- `DEFAULT_BUILD_PATTERNS`. -/
def defaultBuildPatterns : List String :=
  ["(^|/)dist/", "(^|/)build/", "(^|/)out/", "(^|/)target/", "(^|/)\\.next/",
    "(^|/)\\.turbo/", "(^|/)\\.cache/"]

/-- `DEFAULT_GENERATED_PATTERNS`. -/
def defaultGeneratedPatterns : List String :=
  ["(^|/).*\\.min\\.js$", "(^|/).*\\.min\\.css$", "(^|/).*\\.gen\\.ts$", "(^|/)generated/",
    "(^|/).*\\.pb\\.go$"]

/-- `DEFAULT_BINARY_PATTERNS`. -/
def defaultBinaryPatterns : List String :=
  ["(^|/).*\\.png$", "(^|/).*\\.jpg$", "(^|/).*\\.jpeg$", "(^|/).*\\.gif$",
    "(^|/).*\\.webp$", "(^|/).*\\.pdf$", "(^|/).*\\.zip$", "(^|/).*\\.7z$",
    "(^|/).*\\.tar(\\.[a-z0-9]+)?$", "(^|/).*\\.exe$", "(^|/).*\\.dll$", "(^|/).*\\.so$",
    "(^|/).*\\.dylib$", "(^|/).*\\.bin$"]

/-- `DEFAULT_ARCHIVE_PATTERNS`, with the exclusion code of each. -/
def defaultArchivePatterns : List (String × String) :=
  [("(.*)\\.jar$", "archive_jar"), ("(.*)\\.war$", "archive_war"),
    ("(.*)\\.whl$", "archive_wheel"), ("(.*)\\.gem$", "archive_gem"),
    ("(.*)\\.deb$", "archive_deb"), ("(.*)\\.rpm$", "archive_rpm")]

/-- `DEFAULT_ARCHIVE_DIR_PATTERNS`. -/
def defaultArchiveDirPatterns : List String := ["(^|/)archive/"]

/-- `ATLAS_SELF_EXCLUSION_PATTERNS`. -/
def atlasSelfExclusionPatterns : List String :=
  ["(^|/)\\.atlas/", "(^|/)\\.workspace_atlas/"]

/-- The patterns of `ExcludeConfig`. -/
structure ExcludeConfig where
  patterns : List String
  vendorPaths : List String
  buildPaths : List String
  generatedPaths : List String
  binaryPaths : List String
  archivePaths : List String
  deriving DecidableEq, Repr

/-- A policy that configures nothing. -/
def ExcludeConfig.none : ExcludeConfig := ⟨[], [], [], [], [], []⟩

/-! ## `classify` -/

section Classify

variable (isMatch : String → String → Bool)

/-- The first pattern of a set that matches. -/
def matchesSet (path : String) (patterns : List String) : Option String :=
  patterns.find? fun pattern => isMatch pattern path

/-- A configured pattern, else a default one. -/
def configuredOrDefault (path : String) (configured defaults : List String) : Option String :=
  (matchesSet isMatch path configured).or (matchesSet isMatch path defaults)

/-- `classify`. -/
def classify (path : String) (policy : ExcludeConfig) : Classification :=
  let rel := replaceChar '\\' '/' path
  match matchesSet isMatch rel atlasSelfExclusionPatterns with
  | some pattern =>
    .skipped .excluded "atlas_self_exclusion" ("matched self-exclusion pattern " ++ pattern)
  | none =>
  match matchesSet isMatch rel policy.patterns with
  | some pattern =>
    .skipped .secretExcluded "secret_path_excluded" ("matched pattern " ++ pattern)
  | none =>
  match matchesSet isMatch rel defaultSecretPatterns with
  | some pattern =>
    .skipped .secretExcluded "secret_path_excluded"
      ("matched default secret pattern " ++ pattern)
  | none =>
  match configuredOrDefault isMatch rel policy.vendorPaths defaultVendorPatterns with
  | some pattern => .skipped .excluded "vendor_path" ("vendor match: " ++ pattern)
  | none =>
  match configuredOrDefault isMatch rel policy.buildPaths defaultBuildPatterns with
  | some pattern => .skipped .excluded "build_path" ("build match: " ++ pattern)
  | none =>
  match configuredOrDefault isMatch rel policy.generatedPaths defaultGeneratedPatterns with
  | some pattern => .skipped .excluded "generated_path" ("generated match: " ++ pattern)
  | none =>
  match configuredOrDefault isMatch rel policy.binaryPaths defaultBinaryPatterns with
  | some pattern => .skipped .excluded "binary_path" ("binary match: " ++ pattern)
  | none =>
  match defaultArchivePatterns.find? fun entry => isMatch entry.1 rel with
  | some (pattern, code) => .skipped .excluded code ("archive match: " ++ pattern)
  | none =>
  match configuredOrDefault isMatch rel policy.archivePaths defaultArchiveDirPatterns with
  | some pattern =>
    .skipped .excluded "archive_directory" ("archive directory match: " ++ pattern)
  | none => .present

/-- A path is present, excluded or a secret; nothing is unsupported or failed. -/
lemma classify_skipped {path : String} {policy : ExcludeConfig} {kind : SkipKind}
    {code detail : String} (h : classify isMatch path policy = .skipped kind code detail) :
    kind = .excluded ∨ kind = .secretExcluded := by
  simp only [classify] at h
  repeat' split at h
  all_goals simp only [Classification.skipped.injEq, reduceCtorEq] at h
  all_goals simp [← h.1]

end Classify

/-! ## Material classification -/

/-- `artifact_class_for`. -/
def artifactClassFor (rel : String) : ArtifactClass :=
  let ext := ((rsplitOnce '.' (toAsciiLowercase rel.toList)).map Prod.snd).getD []
  let ext := String.ofList ext
  if ext ∈ ["md", "markdown", "txt", "rst", "adoc"] then .documentation
  else if ext ∈ ["json", "yaml", "yml", "toml", "ini", "cfg", "conf", "env"] then
    .configuration
  else if ext = "lock" then .buildManifest
  else if ext ∈ ["py", "rs", "ts", "tsx", "js", "jsx", "go", "java", "c", "cpp", "h", "hpp",
      "cs", "rb", "php", "sh", "sql"] then .source
  else if ext ∈ ["test.py", "_test.py", "tests.py", "spec.ts", "spec.js"] then .source
  else if ext ∈ ["png", "jpg", "jpeg", "gif", "webp", "pdf", "zip", "7z", "tar", "gz", "bz2",
      "xz", "exe", "dll", "so", "dylib", "class", "jar", "war"] then .binaryMetadata
  else .other

/-- `RevisionClassification`. -/
structure RevisionClassification where
  artifactClass : ArtifactClass
  language : Option String
  isGenerated : Bool
  isTest : Bool
  deriving DecidableEq, Repr

/-- `revision_classification_for`. -/
def revisionClassificationFor (rel : String) : RevisionClassification :=
  let filename := afterLast '/' rel.toList
  let isRust := ((rsplitOnce '.' filename).map Prod.snd).any fun extension =>
    toAsciiLowercase extension = "rs".toList
  let hasTestsDirectory := ((rsplitOnce '/' rel.toList).map Prod.fst).any fun directories =>
    (directories.splitOn '/').any fun segment => segment = "tests".toList
  let isTest := isRust && hasTestsDirectory
  { artifactClass := if isTest then .test else artifactClassFor rel
    language := none
    isGenerated := false
    isTest := isTest }

end WorkspaceAtlas
