/-
# The walk

`walk` and `walk_with_policy`: the files below a root, in the order of their paths.  With a policy
a directory is not entered if its path with a slash behind it is not classified as present.

The built-in patterns are given as the expressions that they stand for; the library that matches
them is a parameter.  A name is anything with an order and a text: `to_string_lossy` changes names
that are no text, each on its own.
-/
import Mathlib.Data.List.Lex
import Mathlib.Data.List.Sort
import Mathlib.Data.String.Basic
import WorkspaceAtlas.Discovery.Classify
import WorkspaceAtlas.Text.Path
import WorkspaceAtlas.Text.Search

namespace WorkspaceAtlas

open Text

/-! ## The code -/

/-- What `read_dir` gives, in its order: regular files, directories with what they contain, and
entries that are neither. -/
inductive Listing (ν : Type) where
  | nil
  | file (name : ν) (rest : Listing ν)
  | dir (name : ν) (entries rest : Listing ν)
  | other (name : ν) (rest : Listing ν)

section Walk

variable {ν : Type} [LinearOrder ν] (isMatch : String → String → Bool) (lossy : ν → List Char)

/-- `confine_to_root` and `strip_prefix` of a path below a root, both by components. -/
def relativeTo (root path : List ν) : Option (List ν) := path.dropPrefix? root

/-- `to_string_lossy` of a relative path, with forward slashes. -/
def relStrOf (rel : List ν) : String :=
  replaceChar '\\' '/' (String.ofList (['/'].intercalate (rel.map lossy)))

/-- The directories of version control. -/
def isVersionControl (name : List Char) : Bool :=
  String.ofList name ∈ [".git", ".hg", ".svn", ".jj"]

/-- `walk_recursive`; `none` where `expect` panics. -/
def walkRecursive (root : List ν) (policy : Option ExcludeConfig) :
    List ν → Listing ν → Option (List (List ν))
  | _, .nil => some []
  | current, .file name rest => do
    let path := current ++ [name]
    let out := if (relativeTo root path).isSome then [path] else []
    return out ++ (← walkRecursive root policy current rest)
  | current, .dir name entries rest => do
    let path := current ++ [name]
    let out ←
      if isVersionControl (lossy name) then some []
      else
        match policy with
        | none => walkRecursive root policy path entries
        | some config => do
          let relative ← relativeTo root path
          if classify isMatch (relStrOf lossy relative ++ "/") config = .present then
            walkRecursive root policy path entries
          else some []
    return out ++ (← walkRecursive root policy current rest)
  | current, .other _ rest => walkRecursive root policy current rest

/-- `walk_internal`. -/
def walkInternal (root : List ν) (policy : Option ExcludeConfig) (listing : Listing ν) :
    Option (List (List ν)) :=
  (walkRecursive isMatch lossy root policy root listing).map fun out =>
    out.mergeSort fun p q => decide (p ≤ q)

/-- `walk`. -/
def walk (root : List ν) (listing : Listing ν) : Option (List (List ν)) :=
  walkInternal isMatch lossy root none listing

/-- `walk_with_policy`. -/
def walkWithPolicy (root : List ν) (policy : ExcludeConfig) (listing : Listing ν) :
    Option (List (List ν)) :=
  walkInternal isMatch lossy root (some policy) listing

/-- `classify` marks a walked file present. -/
def isPresent (root : List ν) (policy : ExcludeConfig) (path : List ν) : Bool :=
  (relativeTo root path).any fun rel =>
    classify isMatch (relStrOf lossy rel) policy = .present

end Walk

/-! ## The built-in patterns -/

namespace BuiltIn

/-- The characters of a word. -/
def word (w : String) : List Atom := w.toList.map .lit

/-- `(^|/)name/`. -/
def directory (name : String) : Search := ⟨true, .none, word (name ++ "/"), false⟩

/-- `(^|/)name$`. -/
def file (name : List Atom) : Search := ⟨true, .none, name, true⟩

/-- `(^|/).*suffix$`. -/
def ending (suffix : List Atom) : Search := ⟨true, .plain, suffix, true⟩

/-- `(.*)suffix$`. -/
def archive (suffix : String) : Search := ⟨false, .grouped, word suffix, true⟩

def secret : List Search :=
  [⟨false, .none, word ".env" ++ [.extension "^/" (· ≠ '/')], true⟩, file (word "id_rsa"),
    file (word "id_ed25519"), ⟨false, .none, word ".pem", true⟩, ⟨false, .none, word ".key", true⟩,
    file (word "secret" ++ .maybe 's' :: word ".y" ++ .maybe 'a' :: word "ml"),
    file (word "credential" ++ .maybe 's' :: word ".json"),
    file (word "cookie" ++ .maybe 's' :: word "." ++ [.oneOf ["sqlite".toList, "json".toList]]),
    file (word "netrc"), file (word "service-account.json"), file (word ".npmrc"),
    file (word ".pypirc")]

def vendor : List Search :=
  ["node_modules", "vendor", ".venv", "venv", "__pycache__", ".uv-cache"].map directory

def build : List Search :=
  ["dist", "build", "out", "target", ".next", ".turbo", ".cache"].map directory

def generated : List Search :=
  [ending (word ".min.js"), ending (word ".min.css"), ending (word ".gen.ts"),
    directory "generated", ending (word ".pb.go")]

def binary : List Search :=
  [".png", ".jpg", ".jpeg", ".gif", ".webp", ".pdf", ".zip", ".7z"].map (ending ∘ word) ++
    ending (word ".tar" ++ [.extension "a-z0-9" fun c =>
      ('a' ≤ c && c ≤ 'z') || ('0' ≤ c && c ≤ '9')]) ::
    [".exe", ".dll", ".so", ".dylib", ".bin"].map (ending ∘ word)

def archives : List Search := [".jar", ".war", ".whl", ".gem", ".deb", ".rpm"].map archive

def archiveDirs : List Search := [directory "archive"]

def selfExclusion : List Search := [".atlas", ".workspace_atlas"].map directory

/-- All of them. -/
def all : List Search :=
  selfExclusion ++ secret ++ vendor ++ build ++ generated ++ binary ++ archives ++ archiveDirs

/-- The expressions are those of the source. -/
lemma source_all : all.map Search.source = atlasSelfExclusionPatterns ++ defaultSecretPatterns ++
    defaultVendorPatterns ++ defaultBuildPatterns ++ defaultGeneratedPatterns ++
    defaultBinaryPatterns ++ defaultArchivePatterns.map Prod.fst ++ defaultArchiveDirPatterns := by
  decide

/-- What ends with `$` neither matches a slash nor nothing. -/
lemma avoids_of_atEnd : ∀ p ∈ all, p.atEnd = true →
    (∀ atom ∈ p.atoms, atom.Avoids '/') ∧ p.atoms.any fun atom =>
      match atom with
      | .lit _ => true
      | _ => false := by
  decide

end BuiltIn

/-- The library matches the built-in patterns as they are documented. -/
def MatchesBuiltIn (isMatch : String → String → Bool) : Prop :=
  ∀ p ∈ BuiltIn.all, ∀ s : String, isMatch p.source s = true ↔ p.Found s.toList

/-- The configured patterns. -/
def ExcludeConfig.configured (policy : ExcludeConfig) : List String :=
  policy.patterns ++ policy.vendorPaths ++ policy.buildPaths ++ policy.generatedPaths ++
    policy.binaryPaths ++ policy.archivePaths

/-- A configured pattern that matches a text matches every longer one. -/
def ClosedUnderExtension (isMatch : String → String → Bool) (policy : ExcludeConfig) : Prop :=
  ∀ p ∈ policy.configured, ∀ s t : String, isMatch p s = true → isMatch p (s ++ t) = true

/-! ## Classification of what is below a directory -/

section Below

variable {isMatch : String → String → Bool} {policy : ExcludeConfig} {path : String}

lemma matchesSet_eq_none_iff {patterns : List String} :
    matchesSet isMatch path patterns = none ↔ ∀ p ∈ patterns, isMatch p path = false := by
  rw [matchesSet, List.find?_eq_none]
  simp only [Bool.not_eq_true]

lemma configuredOrDefault_eq_none_iff {configured defaults : List String} :
    configuredOrDefault isMatch path configured defaults = none ↔
      ∀ p ∈ configured ++ defaults, isMatch p path = false := by
  rw [configuredOrDefault, Option.or_eq_none_iff, matchesSet_eq_none_iff, matchesSet_eq_none_iff,
    List.forall_mem_append]

/-- A file is present if no pattern matches its path. -/
lemma classify_present_iff : classify isMatch path policy = .present ↔
    ∀ p ∈ policy.configured ++ BuiltIn.all.map Search.source,
      isMatch p (replaceChar '\\' '/' path) = false := by
  have harchive : ∀ rel, defaultArchivePatterns.find? (fun entry => isMatch entry.1 rel) = none ↔
      ∀ p ∈ defaultArchivePatterns.map Prod.fst, isMatch p rel = false := by
    intro rel
    rw [List.find?_eq_none]
    simp only [Bool.not_eq_true, List.forall_mem_map]
  rw [BuiltIn.source_all, ExcludeConfig.configured]
  simp only [List.forall_mem_append]
  rw [classify]
  constructor
  · intro h
    split at h
    next => cases h
    next hself =>
    split at h
    next => cases h
    next hpatterns =>
    split at h
    next => cases h
    next hsecret =>
    split at h
    next => cases h
    next hvendor =>
    split at h
    next => cases h
    next hbuild =>
    split at h
    next => cases h
    next hgenerated =>
    split at h
    next => cases h
    next hbinary =>
    split at h
    next => cases h
    next harchives =>
    split at h
    next => cases h
    next harchiveDirs =>
    rw [matchesSet_eq_none_iff] at hself hpatterns hsecret
    rw [configuredOrDefault_eq_none_iff, List.forall_mem_append] at hvendor hbuild hgenerated
    rw [configuredOrDefault_eq_none_iff, List.forall_mem_append] at hbinary harchiveDirs
    rw [harchive] at harchives
    exact ⟨⟨⟨⟨⟨⟨hpatterns, hvendor.1⟩, hbuild.1⟩, hgenerated.1⟩, hbinary.1⟩, harchiveDirs.1⟩,
      ⟨⟨⟨⟨⟨⟨⟨hself, hsecret⟩, hvendor.2⟩, hbuild.2⟩, hgenerated.2⟩, hbinary.2⟩, harchives⟩,
        harchiveDirs.2⟩⟩
  · rintro ⟨⟨⟨⟨⟨⟨hpatterns, hvendor⟩, hbuild⟩, hgenerated⟩, hbinary⟩, harchiveDirs⟩,
      ⟨⟨⟨⟨⟨⟨⟨hself, hsecret⟩, hvendor'⟩, hbuild'⟩, hgenerated'⟩, hbinary'⟩, harchives⟩,
        harchiveDirs'⟩⟩
    have hboth : ∀ {configured defaults : List String},
        (∀ p ∈ configured, isMatch p (replaceChar '\\' '/' path) = false) →
        (∀ p ∈ defaults, isMatch p (replaceChar '\\' '/' path) = false) →
        configuredOrDefault isMatch (replaceChar '\\' '/' path) configured defaults = none :=
      fun h h' => configuredOrDefault_eq_none_iff.mpr (List.forall_mem_append.mpr ⟨h, h'⟩)
    simp only [matchesSet_eq_none_iff.mpr hself, matchesSet_eq_none_iff.mpr hpatterns,
      matchesSet_eq_none_iff.mpr hsecret, hboth hvendor hvendor', hboth hbuild hbuild',
      hboth hgenerated hgenerated', hboth hbinary hbinary', (harchive _).mpr harchives,
      hboth harchiveDirs harchiveDirs']

/-- A pattern that matches a directory matches everything below it. -/
lemma isMatch_below (hbuiltIn : MatchesBuiltIn isMatch)
    (hclosed : ClosedUnderExtension isMatch policy) {p : String}
    (hp : p ∈ policy.configured ++ BuiltIn.all.map Search.source) (s t : String)
    (h : isMatch p (s ++ "/") = true) : isMatch p (s ++ "/" ++ t) = true := by
  rcases List.mem_append.mp hp with hp | hp
  · exact hclosed p hp _ t h
  · obtain ⟨p, hall, rfl⟩ := List.mem_map.mp hp
    rw [hbuiltIn p hall] at h ⊢
    cases hend : p.atEnd with
    | false =>
      rw [String.toList_append]
      exact h.append hend _
    | true =>
      -- the path ends with a slash
      obtain ⟨havoids, hlit⟩ := BuiltIn.avoids_of_atEnd p hall hend
      obtain ⟨atom, hatom, hcase⟩ := List.any_eq_true.mp hlit
      rw [String.toList_append] at h
      cases atom with
      | lit d => exact absurd h (Search.not_found_concat hend havoids ⟨d, hatom⟩)
      | _ => exact absurd hcase Bool.false_ne_true

lemma replaceChar_append (s t : String) :
    replaceChar '\\' '/' (s ++ t) = replaceChar '\\' '/' s ++ replaceChar '\\' '/' t := by
  rw [replaceChar, replaceChar, replaceChar, String.toList_append, List.map_append,
    String.ofList_append]

/-- **Below a directory** that is not present nothing is present. -/
lemma classify_below (hbuiltIn : MatchesBuiltIn isMatch)
    (hclosed : ClosedUnderExtension isMatch policy) (s t : String)
    (h : classify isMatch (s ++ "/") policy ≠ .present) :
    classify isMatch (s ++ "/" ++ t) policy ≠ .present := by
  intro hpresent
  refine h (classify_present_iff.mpr fun p hp => ?_)
  have hnot := classify_present_iff.mp hpresent p hp
  have hslash : replaceChar '\\' '/' "/" = "/" := by decide
  rw [replaceChar_append, replaceChar_append, hslash] at hnot
  rw [replaceChar_append, hslash]
  by_contra hmatch
  have hbelow := isMatch_below hbuiltIn hclosed hp (replaceChar '\\' '/' s)
    (replaceChar '\\' '/' t) (Bool.eq_true_of_not_eq_false hmatch)
  exact absurd (hbelow.symm.trans hnot) (by decide)

end Below

/-! ## Both walks -/

section Both

variable {ν : Type} {lossy : ν → List Char}

/-- A path below a directory starts with the path of the directory and a slash. -/
lemma relStrOf_append {dir : List ν} (hdir : dir ≠ []) (x : ν) (below : List ν) :
    relStrOf lossy (dir ++ x :: below) =
      relStrOf lossy dir ++ "/" ++ relStrOf lossy (x :: below) := by
  have hslash : replaceChar '\\' '/' "/" = "/" := by decide
  have hsplit : String.ofList (['/'].intercalate ((dir ++ x :: below).map lossy)) =
      String.ofList (['/'].intercalate (dir.map lossy)) ++ "/" ++
        String.ofList (['/'].intercalate ((x :: below).map lossy)) := by
    have hdir' : dir.map lossy ≠ [] := by simpa using hdir
    have hbelow : (x :: below).map lossy ≠ [] := List.cons_ne_nil _ _
    have hcons : ∀ l : List Char, String.ofList ('/' :: l) = "/" ++ String.ofList l :=
      fun _ => @String.ofList_append ['/'] _
    rw [List.map_append, Path.intercalate_append hdir' hbelow, String.ofList_append, hcons,
      String.append_assoc]
  rw [relStrOf, hsplit, replaceChar_append, replaceChar_append, hslash]
  rfl

variable [LinearOrder ν] {isMatch : String → String → Bool} {root current : List ν}
  {policy : ExcludeConfig} {option : Option ExcludeConfig} {name : ν} {entries rest : Listing ν}
  {found foundBelow : List (List ν)}

lemma relativeTo_append (root below : List ν) : relativeTo root (root ++ below) = some below :=
  List.dropPrefix?_eq_some_iff.mpr ⟨root, rfl, beq_self_eq_true root⟩

lemma walkRecursive_file
    (h : walkRecursive isMatch lossy root option current rest = some found) :
    walkRecursive isMatch lossy root option current (.file name rest) =
      some ((if (relativeTo root (current ++ [name])).isSome then [current ++ [name]] else []) ++
        found) := by
  rw [walkRecursive, h]
  rfl

variable (policy) in
/-- A directory that is not entered. -/
lemma walkRecursive_skipped (hskip : isVersionControl (lossy name) = true ∨
      ∃ rel, option = some policy ∧ relativeTo root (current ++ [name]) = some rel ∧
        classify isMatch (relStrOf lossy rel ++ "/") policy ≠ .present)
    (h : walkRecursive isMatch lossy root option current rest = some found) :
    walkRecursive isMatch lossy root option current (.dir name entries rest) = some found := by
  unfold walkRecursive
  rw [h]
  rcases hskip with hversion | ⟨rel, rfl, hrel, hclassify⟩
  · rw [if_pos hversion]
    rfl
  · cases hversion : isVersionControl (lossy name) with
    | true => rfl
    | false =>
      simp only [hrel, Option.bind_eq_bind, Option.bind_some, if_neg hclassify]
      rfl

variable (policy) in
/-- A directory that is entered. -/
lemma walkRecursive_entered (hversion : isVersionControl (lossy name) = false)
    (henter : option = none ∨ ∃ rel, option = some policy ∧
      relativeTo root (current ++ [name]) = some rel ∧
        classify isMatch (relStrOf lossy rel ++ "/") policy = .present)
    (hbelow : walkRecursive isMatch lossy root option (current ++ [name]) entries =
      some foundBelow)
    (h : walkRecursive isMatch lossy root option current rest = some found) :
    walkRecursive isMatch lossy root option current (.dir name entries rest) =
      some (foundBelow ++ found) := by
  unfold walkRecursive
  rw [h]
  rcases henter with rfl | ⟨rel, rfl, hrel, hclassify⟩
  · simp only [hversion, Bool.false_eq_true, if_false, hbelow]
    rfl
  · simp only [hversion, Bool.false_eq_true, if_false, hrel, Option.bind_eq_bind,
      Option.bind_some, if_pos hclassify, hbelow]
    rfl

/-- Every walked file is below the directory that is walked. -/
lemma exists_walkRecursive_none (isMatch : String → String → Bool) (lossy : ν → List Char)
    (root : List ν) (listing : Listing ν) (current : List ν) :
    ∃ all, walkRecursive isMatch lossy root none current listing = some all ∧
      ∀ path ∈ all, ∃ x below, path = current ++ x :: below := by
  induction listing generalizing current with
  | nil => exact ⟨[], rfl, fun path hpath => absurd hpath List.not_mem_nil⟩
  | file name rest ih =>
    obtain ⟨all, hall, hbelow⟩ := ih current
    refine ⟨_, walkRecursive_file hall, fun path hpath => ?_⟩
    rcases List.mem_append.mp hpath with hpath | hpath
    · split_ifs at hpath
      · exact ⟨name, [], List.mem_singleton.mp hpath⟩
      · exact absurd hpath List.not_mem_nil
    · exact hbelow path hpath
  | other name rest ih => exact ih current
  | dir name entries rest ihentries ihrest =>
    obtain ⟨all, hall, hbelow⟩ := ihrest current
    cases hversion : isVersionControl (lossy name) with
    | true => exact ⟨all, walkRecursive_skipped .none (.inl hversion) hall, hbelow⟩
    | false =>
      obtain ⟨inner, hinner, hbelow'⟩ := ihentries (current ++ [name])
      refine ⟨_, walkRecursive_entered .none hversion (.inl rfl) hinner hall,
        fun path hpath => ?_⟩
      rcases List.mem_append.mp hpath with hpath | hpath
      · obtain ⟨x, below, rfl⟩ := hbelow' path hpath
        exact ⟨name, x :: below, by rw [List.append_assoc]; rfl⟩
      · exact hbelow path hpath

/-- Nothing below a directory that is not entered is present. -/
lemma not_isPresent_below (root : List ν) (hbuiltIn : MatchesBuiltIn isMatch)
    (hclosed : ClosedUnderExtension isMatch policy) {dir : List ν} (hdir : dir ≠ [])
    (h : classify isMatch (relStrOf lossy dir ++ "/") policy ≠ .present) (x : ν) (below : List ν) :
    isPresent isMatch lossy root policy (root ++ dir ++ x :: below) = false := by
  rw [isPresent, List.append_assoc, relativeTo_append, Option.any_some,
    relStrOf_append hdir, decide_eq_false_iff_not]
  exact classify_below hbuiltIn hclosed _ _ h

/-- The two walks find the same present files. -/
lemma walkRecursive_present (lossy : ν → List Char) (root : List ν)
    (hbuiltIn : MatchesBuiltIn isMatch)
    (hclosed : ClosedUnderExtension isMatch policy) (listing : Listing ν) (below : List ν) :
    ∃ pruned all,
      walkRecursive isMatch lossy root (some policy) (root ++ below) listing = some pruned ∧
      walkRecursive isMatch lossy root none (root ++ below) listing = some all ∧
      pruned.filter (isPresent isMatch lossy root policy) =
        all.filter (isPresent isMatch lossy root policy) := by
  induction listing generalizing below with
  | nil => exact ⟨[], [], rfl, rfl, rfl⟩
  | file name rest ih =>
    obtain ⟨pruned, all, hpruned, hall, heq⟩ := ih below
    refine ⟨_, _, walkRecursive_file hpruned, walkRecursive_file hall, ?_⟩
    rw [List.filter_append, List.filter_append, heq]
  | other name rest ih => exact ih below
  | dir name entries rest ihentries ihrest =>
    obtain ⟨pruned, all, hpruned, hall, heq⟩ := ihrest below
    cases hversion : isVersionControl (lossy name) with
    | true =>
      exact ⟨pruned, all, walkRecursive_skipped policy (.inl hversion) hpruned,
        walkRecursive_skipped policy (.inl hversion) hall, heq⟩
    | false =>
      have hrel : relativeTo root (root ++ below ++ [name]) = some (below ++ [name]) := by
        rw [List.append_assoc, relativeTo_append]
      by_cases hclassify :
          classify isMatch (relStrOf lossy (below ++ [name]) ++ "/") policy = .present
      · obtain ⟨pruned', all', hpruned', hall', heq'⟩ := ihentries (below ++ [name])
        rw [← List.append_assoc] at hpruned' hall'
        refine ⟨_, _, walkRecursive_entered policy hversion (.inr ⟨_, rfl, hrel, hclassify⟩) hpruned'
          hpruned, walkRecursive_entered policy hversion (.inl rfl) hall' hall, ?_⟩
        rw [List.filter_append, List.filter_append, heq, heq']
      · -- the directory is left out, and nothing below it is present
        obtain ⟨all', hall', hbelow⟩ :=
          exists_walkRecursive_none isMatch lossy root entries (root ++ below ++ [name])
        refine ⟨_, _, walkRecursive_skipped policy (.inr ⟨_, rfl, hrel, hclassify⟩) hpruned,
          walkRecursive_entered policy hversion (.inl rfl) hall' hall, ?_⟩
        have hnone : all'.filter (isPresent isMatch lossy root policy) = [] := by
          rw [List.filter_eq_nil_iff]
          intro path hpath
          obtain ⟨x, rest, rfl⟩ := hbelow path hpath
          have hnot := not_isPresent_below root hbuiltIn hclosed (by simp) hclassify x rest
          rw [← List.append_assoc] at hnot
          rw [hnot]
          exact Bool.false_ne_true
        rw [List.filter_append, hnone, List.nil_append, heq]

/-- What is left of a sorted list is what is left, sorted. -/
lemma filter_mergeSort (p : List ν → Bool) (l : List (List ν)) :
    (l.mergeSort fun a b => decide (a ≤ b)).filter p =
      (l.filter p).mergeSort fun a b => decide (a ≤ b) := by
  have htrans : ∀ a b c : List ν, decide (a ≤ b) = true → decide (b ≤ c) = true →
      decide (a ≤ c) = true := fun a b c hab hbc =>
    decide_eq_true ((of_decide_eq_true hab).trans (of_decide_eq_true hbc))
  have htotal : ∀ a b : List ν, (decide (a ≤ b) || decide (b ≤ a)) = true := fun a b => by
    simpa using le_total a b
  have hperm : ((l.mergeSort fun a b => decide (a ≤ b)).filter p).Perm
      ((l.filter p).mergeSort fun a b => decide (a ≤ b)) :=
    ((List.mergeSort_perm l _).filter p).trans (List.mergeSort_perm _ _).symm
  refine hperm.eq_of_pairwise (fun a b _ _ hab hba => ?_)
    ((List.pairwise_mergeSort htrans htotal l).filter p) (List.pairwise_mergeSort htrans htotal _)
  exact le_antisymm (of_decide_eq_true hab) (of_decide_eq_true hba)

end Both

/-- **Pruning** drops no file that is present, and keeps the order. -/
theorem walk_present {ν : Type} [LinearOrder ν] (isMatch : String → String → Bool)
    (lossy : ν → List Char) (root : List ν) (policy : ExcludeConfig) (listing : Listing ν)
    (hbuiltIn : MatchesBuiltIn isMatch) (hclosed : ClosedUnderExtension isMatch policy) :
    ∃ pruned all, walkWithPolicy isMatch lossy root policy listing = some pruned ∧
      walk isMatch lossy root listing = some all ∧
      pruned.filter (isPresent isMatch lossy root policy) =
        all.filter (isPresent isMatch lossy root policy) := by
  obtain ⟨pruned, all, hpruned, hall, heq⟩ :=
    walkRecursive_present lossy root hbuiltIn hclosed listing []
  rw [List.append_nil] at hpruned hall
  refine ⟨pruned.mergeSort fun a b => decide (a ≤ b), all.mergeSort fun a b => decide (a ≤ b),
    ?_, ?_, ?_⟩
  · rw [walkWithPolicy, walkInternal, hpruned, Option.map_some]
  · rw [walk, walkInternal, hall, Option.map_some]
  · rw [filter_mergeSort, filter_mergeSort, heq]

/-- The built-in patterns, and one that is configured. -/
def Known (source s : String) : Prop :=
  (∃ p ∈ BuiltIn.all, p.source = source ∧ p.Found s.toList) ∨
    source = "private/" ∧ "private/".toList <:+: s.toList

/-- A library that matches these patterns. -/
noncomputable def knownPatterns (source s : String) : Bool := by
  classical exact decide (Known source s)

lemma knownPatterns_iff {source s : String} : knownPatterns source s = true ↔ Known source s := by
  classical exact decide_eq_true_iff

lemma source_injective {p q : Search} (hp : p ∈ BuiltIn.all) (hq : q ∈ BuiltIn.all)
    (h : p.source = q.source) : p = q := by
  have hnodup : (BuiltIn.all.map Search.source).Nodup := by
    rw [BuiltIn.source_all]
    decide
  exact List.inj_on_of_nodup_map hnodup hp hq h

lemma matchesBuiltIn_knownPatterns : MatchesBuiltIn knownPatterns := by
  intro p hp s
  have hne : ∀ source ∈ BuiltIn.all.map Search.source, source ≠ "private/" := by
    rw [BuiltIn.source_all]
    decide
  rw [knownPatterns_iff]
  constructor
  · rintro (⟨q, hq, hsource, hfound⟩ | ⟨hsource, -⟩)
    · rwa [← source_injective hq hp hsource]
    · exact absurd hsource (hne _ (List.mem_map_of_mem hp))
  · exact fun hfound => .inl ⟨p, hp, rfl, hfound⟩

/-- A policy with a pattern of its own. -/
def privatePolicy : ExcludeConfig := { ExcludeConfig.none with patterns := ["private/"] }

lemma closedUnderExtension_private : ClosedUnderExtension knownPatterns privatePolicy := by
  intro p hp s t hmatch
  obtain rfl : p = "private/" := List.mem_singleton.mp hp
  have hne : ∀ source ∈ BuiltIn.all.map Search.source, source ≠ "private/" := by
    rw [BuiltIn.source_all]
    decide
  rw [knownPatterns_iff] at hmatch ⊢
  rcases hmatch with ⟨q, hq, hsource, -⟩ | ⟨-, hinside⟩
  · exact absurd hsource (hne _ (List.mem_map_of_mem hq))
  · refine .inr ⟨rfl, hinside.trans ?_⟩
    rw [String.toList_append]
    exact (List.prefix_append _ _).isInfix

/-- Two directories that are not entered, and a file. -/
def twoDirectories : Listing String :=
  .dir "node_modules" (.file "a.js" .nil)
    (.dir "private" (.file "b.txt" .nil) (.file "main.rs" .nil))

/-- A walk past them. -/
theorem walk_present_two :
    ∃ pruned all,
      walkWithPolicy knownPatterns String.toList ["srv"] privatePolicy twoDirectories =
        some pruned ∧
      walk knownPatterns String.toList ["srv"] twoDirectories = some all ∧
      pruned.filter (isPresent knownPatterns String.toList ["srv"] privatePolicy) =
        all.filter (isPresent knownPatterns String.toList ["srv"] privatePolicy) :=
  walk_present knownPatterns String.toList ["srv"] privatePolicy twoDirectories
    matchesBuiltIn_knownPatterns closedUnderExtension_private

end WorkspaceAtlas
