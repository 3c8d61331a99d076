/-
# Confinement of provider paths

`paths.rs` and `map_document_path`: the path that a provider gives for a document is joined onto
the root of its project, normalised lexically, and compared with the workspace root; what is
left of it is stored with forward slashes.

The roots are text, as the catalogue refuses other ones.
-/
import WorkspaceAtlas.Semantic.Scip
import WorkspaceAtlas.Text.Path

namespace WorkspaceAtlas

open Text Text.Path

/-! ## The functions -/

/-- The body of the loop of `lexically_canonical`. -/
def lexicalStep (out : Path) : Component → Path
  | .curDir => out
  | .parentDir =>
    match parent out with
    | some parent => parent
    | none => push out ['.', '.']
  | other => push out other.asOsStr

/-- `lexically_canonical`. -/
def lexicallyCanonical (path : Path) : Path :=
  let out := (components path).foldl lexicalStep []
  if out = [] then push out Component.curDir.asOsStr else out

/-- The loop of `confine_to_root`: what the candidate has beyond the root. -/
def stripRoot : List Component → List Component → Option (List Component)
  | r :: rootComponents, c :: candComponents =>
    if r ≠ c then none else stripRoot rootComponents candComponents
  | [], candComponents => some candComponents
  | _ :: _, [] => none

/-- `confine_to_root`. -/
def confineToRoot (canonicalRoot candidate : Path) : Except AtlasError Path :=
  let rootCanon := lexicallyCanonical canonicalRoot
  let candCanon := lexicallyCanonical candidate
  if hasRoot candCanon ≠ hasRoot rootCanon then .error (.pathEscape (String.ofList candCanon))
  else
    match stripRoot (components rootCanon) (components candCanon) with
    | none => .error (.pathEscape (String.ofList candCanon))
    | some rest => .ok (rest.foldl (fun rel c => push rel c.asOsStr) [])

/-- `canonical_relative_path`. -/
def canonicalRelativePath (path : Path) : String := replaceChar '\\' '/' (String.ofList path)

/-- The rest of `map_document_path`, once the given path is neither empty nor absolute. -/
def confineDocument (workspaceRoot projectScopeRoot : Path) (docRelativePath : String) :
    Except AtlasError String :=
  (confineToRoot workspaceRoot (join projectScopeRoot docRelativePath.toList)).map
    canonicalRelativePath

/-! ## Lexical normalisation -/

/-- The segments of a normalised path: a `..` that is left over, and the names. -/
def canonicalSegments (odd : Bool) (names : List (List Char)) : List (List Char) :=
  (if odd then [['.', '.']] else []) ++ names

variable {odd rooted : Bool} {names : List (List Char)} {p : Path}

lemma isSegment_canonicalSegments (h : ∀ s ∈ names, IsName s) :
    ∀ s ∈ canonicalSegments odd names, IsSegment s := by
  intro s hs
  rcases List.mem_append.mp hs with hs | hs
  · cases odd with
    | false => exact absurd hs List.not_mem_nil
    | true => exact List.mem_singleton.mp hs ▸ isSegment_dotdot
  · exact (h s hs).toIsSegment

/-- One component changes the names as a reader of the path does, and keeps whether the number
of steps up from the root is odd. -/
lemma lexicalStep_spell {c : Component} (h : ∀ s ∈ names, IsName s)
    (hc : ∀ name, c = .normal name → IsName name) (hroot : c ≠ .rootDir) :
    lexicalStep (spell rooted (canonicalSegments odd names)) c =
      spell rooted (canonicalSegments (odd ^^ decide (c = .parentDir ∧ names = []))
        (enter names c)) := by
  have hsegs := @isSegment_canonicalSegments odd names h
  cases c with
  | rootDir => exact absurd rfl hroot
  | curDir => simp [lexicalStep, enter]
  | normal name =>
    have hname := hc name rfl
    rw [lexicalStep, Component.asOsStr, push_segment hsegs hname.toIsSegment]
    · simp [canonicalSegments, enter]
    · exact Component.noConfusion
    · exact Component.noConfusion
  | parentDir =>
    rcases List.eq_nil_or_concat' names with rfl | ⟨init, s, rfl⟩
    · -- at the root a `..` is added, and the next one takes it away again
      cases odd with
      | false => cases rooted <;> rfl
      | true => cases rooted <;> rfl
    · have hparent := @parent_spell_concat s (canonicalSegments odd init) rooted
        (by rwa [canonicalSegments, List.append_assoc])
      rw [canonicalSegments, List.append_assoc] at hparent
      rw [lexicalStep, canonicalSegments, hparent]
      simp [enter, canonicalSegments]

lemma foldl_lexicalStep {cs : List Component} (h : ∀ s ∈ names, IsName s)
    (hcs : ∀ name, Component.normal name ∈ cs → IsName name) (hroot : Component.rootDir ∉ cs) :
    cs.foldl lexicalStep (spell rooted (canonicalSegments odd names)) =
      spell rooted (canonicalSegments (odd ^^ (climbs names cs).bodd) (cs.foldl enter names)) := by
  induction cs generalizing odd names with
  | nil => simp [climbs]
  | cons c cs ih =>
    have hc : ∀ name, c = .normal name → IsName name := fun name hname =>
      hcs name (hname ▸ List.mem_cons_self)
    have henter : ∀ s ∈ enter names c, IsName s :=
      @isName_of_mem_foldl_enter names [c] h fun name hname => 
        hc name (List.mem_singleton.mp hname).symm
    rw [List.foldl_cons, lexicalStep_spell h hc fun heq => hroot (heq ▸ List.mem_cons_self),
      ih henter (fun name hname => hcs name (List.mem_cons_of_mem _ hname))
        fun hmem => hroot (List.mem_cons_of_mem _ hmem),
      climbs, Nat.bodd_add, Bool.xor_assoc, List.foldl_cons]
    congr 4
    split
    next hup => simp [hup]
    next hup => simp [hup]

/-- The segments that are left of a path. -/
def normalSegments (p : Path) : List (List Char) :=
  canonicalSegments (overshoots p).bodd (resolve p)

lemma isSegment_normalSegments : ∀ s ∈ normalSegments p, IsSegment s :=
  isSegment_canonicalSegments isName_of_mem_resolve

lemma lexicallyCanonical_eq (h : hasRoot p) :
    lexicallyCanonical p = spell true (normalSegments p) := by
  obtain ⟨cs, hcs, hroot⟩ := components_of_hasRoot h
  have hnames : ∀ name, Component.normal name ∈ cs → IsName name := fun name hname =>
    isName_of_mem_components (hcs ▸ List.mem_cons_of_mem _ hname)
  have hfold := @foldl_lexicalStep false true [] cs (fun _ h => absurd h List.not_mem_nil) hnames hroot
  have hout : (components p).foldl lexicalStep [] = spell true (normalSegments p) := by
    rw [Bool.false_xor] at hfold
    rw [normalSegments, overshoots, resolve, hcs, climbs, List.foldl_cons, List.foldl_cons,
      if_neg (by simp), zero_add]
    exact hfold
  rw [lexicallyCanonical, hout]
  exact if_neg (List.cons_ne_nil _ _)

/-! ## Confinement -/

variable {workspaceRoot projectScopeRoot candidate rel : Path} {below : List (List Char)}

lemma stripRoot_eq_some {root cand rest : List Component} :
    stripRoot root cand = some rest ↔ cand = root ++ rest := by
  induction root generalizing cand with
  | nil => simp [stripRoot]
  | cons r root ih =>
    cases cand with
    | nil => simp [stripRoot]
    | cons c cand =>
      rw [stripRoot, List.cons_append, List.cons.injEq]
      by_cases hrc : r = c
      · rw [if_neg (not_not.mpr hrc), ih]
        simp [hrc]
      · rw [if_pos hrc]
        simp [Ne.symm hrc]

/-- Pushing the components of segments one after the other appends the segments. -/
lemma foldl_push {segs : List (List Char)} (h : ∀ s ∈ segs ++ below, IsSegment s) :
    (below.map ofSegment).foldl (fun rel c => push rel c.asOsStr) (spell false segs) =
      spell false (segs ++ below) := by
  induction below generalizing segs with
  | nil => rw [List.append_nil, List.map_nil, List.foldl_nil]
  | cons s below ih =>
    have hsegs : ∀ t ∈ segs, IsSegment t := fun t ht => h t (List.mem_append_left _ ht)
    rw [List.map_cons, List.foldl_cons, asOsStr_ofSegment,
      push_segment hsegs (h s (by simp)), ih (by simpa using h), List.append_assoc,
      List.singleton_append]

/-- A candidate is confined if the segments of the root start its own, and the others are what
is returned. -/
lemma confineToRoot_eq_ok (hroot : hasRoot workspaceRoot) (hcand : hasRoot candidate) :
    confineToRoot workspaceRoot candidate = .ok rel ↔
      ∃ below, normalSegments candidate = normalSegments workspaceRoot ++ below ∧
        rel = spell false below := by
  have hsegs := @isSegment_normalSegments workspaceRoot
  have hsegs' := @isSegment_normalSegments candidate
  rw [confineToRoot, lexicallyCanonical_eq hroot, lexicallyCanonical_eq hcand,
    hasRoot_spell hsegs, hasRoot_spell hsegs', if_neg (not_not.mpr rfl),
    components_spell hsegs, components_spell hsegs']
  simp only [if_true, List.singleton_append]
  have hstrip : ∀ below, normalSegments candidate = normalSegments workspaceRoot ++ below →
      stripRoot (.rootDir :: (normalSegments workspaceRoot).map ofSegment)
        (.rootDir :: (normalSegments candidate).map ofSegment) = some (below.map ofSegment) :=
    fun below h => stripRoot_eq_some.mpr (by rw [h, List.map_append, List.cons_append])
  constructor
  · intro h
    cases hrest : stripRoot (.rootDir :: (normalSegments workspaceRoot).map ofSegment)
        (.rootDir :: (normalSegments candidate).map ofSegment) with
    | none => simp [hrest] at h
    | some rest =>
      have happend := stripRoot_eq_some.mp hrest
      rw [List.cons_append, List.cons.injEq] at happend
      obtain ⟨segs, below, hsplit, hmap, -⟩ := List.map_eq_append_iff.mp happend.2
      have hbelow : normalSegments candidate = normalSegments workspaceRoot ++ below := by
        rw [hsplit, List.map_injective_iff.mpr ofSegment_injective hmap]
      have hpush := @foldl_push below [] fun s hs =>
        hsegs' s (hbelow ▸ List.mem_append_right _ hs)
      rw [hstrip below hbelow] at h
      exact ⟨below, hbelow, (Except.ok.inj h).symm.trans hpush⟩
  · rintro ⟨below, hbelow, rfl⟩
    have hpush := @foldl_push below [] fun s hs =>
      hsegs' s (hbelow ▸ List.mem_append_right _ hs)
    rw [hstrip below hbelow]
    exact congrArg Except.ok hpush

/-! ## What confinement is for -/

/-- A path without a root that, split at `/`, has no empty, `.` or `..` segment. -/
def RelativePath (out : Path) : Prop :=
  hasRoot out = false ∧ ∀ s ∈ out.splitOn '/', s ≠ [] ∧ s ≠ ['.'] ∧ s ≠ ['.', '.']

/-- What a document path is mapped to stays below the workspace root, and is the file that the
path names. -/
def Confined (workspaceRoot projectScopeRoot : Path) (docRelativePath : String) : Prop :=
  ∀ out, mapDocumentPath (confineDocument workspaceRoot projectScopeRoot) docRelativePath =
      .ok out →
    RelativePath out.toList ∧
      resolve (join workspaceRoot out.toList) =
        resolve (join projectScopeRoot docRelativePath.toList)

/-- Two document paths that name different files are not mapped to the same path. -/
def KeptApart (workspaceRoot projectScopeRoot : Path)
    (docRelativePath docRelativePath' : String) : Prop :=
  ∀ out, mapDocumentPath (confineDocument workspaceRoot projectScopeRoot) docRelativePath =
      .ok out →
    mapDocumentPath (confineDocument workspaceRoot projectScopeRoot) docRelativePath' = .ok out →
      resolve (join projectScopeRoot docRelativePath.toList) =
        resolve (join projectScopeRoot docRelativePath'.toList)

/-- When a document path is mapped as it should be: it is rejected before it is joined, or the
file that it names is not below the workspace root, or it is below it and neither the root
itself nor reached through a name with a backslash.  A path that goes up from the root of the
file system is no longer compared with the workspace root by its names, so that it must not be
the root of the file system. -/
def Confinable (workspaceRoot projectScopeRoot : Path) (docRelativePath : String) : Prop :=
  let joined := join projectScopeRoot docRelativePath.toList
  docRelativePath = "" ∨ hasRoot docRelativePath.toList ∨
    if overshoots joined % 2 = overshoots workspaceRoot % 2 then
      resolve workspaceRoot <+: resolve joined →
        let below := (resolve joined).drop (resolve workspaceRoot).length
        below ≠ [] ∧ ∀ name ∈ below, '\\' ∉ name
    else workspaceRoot ≠ ['/']

instance (workspaceRoot projectScopeRoot : Path) (docRelativePath : String) :
    Decidable (Confinable workspaceRoot projectScopeRoot docRelativePath) := by
  delta Confinable
  infer_instance

variable {docRelativePath docRelativePath' out : String}

lemma hasRoot_join (hscope : hasRoot projectScopeRoot) (hrel : hasRoot rel = false) :
    hasRoot (join projectScopeRoot rel) := by
  obtain ⟨c, scope, rfl⟩ : ∃ c scope, projectScopeRoot = c :: scope := by
    cases projectScopeRoot with
    | nil => exact absurd hscope (by decide)
    | cons c scope => exact ⟨c, scope, rfl⟩
  rw [join, push, hrel, if_neg Bool.false_ne_true]
  split
  · exact hscope
  · exact hscope

lemma mapDocumentPath_eq_ok (hroot : hasRoot workspaceRoot) (hscope : hasRoot projectScopeRoot) :
    mapDocumentPath (confineDocument workspaceRoot projectScopeRoot) docRelativePath = .ok out ↔
      docRelativePath ≠ "" ∧ hasRoot docRelativePath.toList = false ∧
        ∃ below, normalSegments (join projectScopeRoot docRelativePath.toList) =
            normalSegments workspaceRoot ++ below ∧
          out = canonicalRelativePath (spell false below) := by
  have hprefix : ['/'].isPrefixOf docRelativePath.toList = hasRoot docRelativePath.toList := by
    cases docRelativePath.toList with
    | nil => rfl
    | cons c rest => simp [hasRoot, List.isPrefixOf, eq_comm, Bool.beq_eq_decide_eq]
  rw [mapDocumentPath, hprefix]
  by_cases hnil : docRelativePath = ""
  · simp [hnil]
  · by_cases habs : hasRoot docRelativePath.toList
    · simp [hnil, habs]
    · rw [Bool.not_eq_true] at habs
      have hjoin := hasRoot_join hscope habs
      simp only [String.isEmpty_iff, hnil, habs, if_false, Bool.false_eq_true, ne_eq,
        not_false_eq_true, true_and, confineDocument]
      constructor
      · intro h
        cases hconfined : confineToRoot workspaceRoot
            (join projectScopeRoot docRelativePath.toList) with
        | error error =>
          rw [hconfined] at h
          exact absurd h (by simp [Except.map])
        | ok confined =>
          obtain ⟨below, hbelow, rfl⟩ := (confineToRoot_eq_ok hroot hjoin).mp hconfined
          rw [hconfined] at h
          exact ⟨below, hbelow, (Except.ok.inj h).symm⟩
      · rintro ⟨below, hbelow, rfl⟩
        rw [(confineToRoot_eq_ok hroot hjoin).mpr ⟨below, hbelow, rfl⟩]
        rfl

/-- The names below the root, unless a `..` is left of the candidate only. -/
lemma normalSegments_eq_append :
    normalSegments candidate = normalSegments workspaceRoot ++ below ↔
      (overshoots candidate).bodd = (overshoots workspaceRoot).bodd ∧
          resolve candidate = resolve workspaceRoot ++ below ∨
        (overshoots candidate).bodd ≠ (overshoots workspaceRoot).bodd ∧
          normalSegments workspaceRoot = [] ∧ below = normalSegments candidate := by
  have hdotdot : ∀ p, ['.', '.'] ∉ resolve p := fun p h => (isName_of_mem_resolve _ h).ne_dotdot rfl
  have hcand := hdotdot candidate
  have hroot := hdotdot workspaceRoot
  unfold normalSegments canonicalSegments
  cases (overshoots candidate).bodd <;> cases (overshoots workspaceRoot).bodd
  · simp
  · suffices resolve candidate ≠ ['.', '.'] :: (resolve workspaceRoot ++ below) by simpa using this
    exact fun h => hcand (h ▸ List.mem_cons_self)
  · cases hresolve : resolve workspaceRoot with
    | nil => simp [eq_comm]
    | cons s rest =>
      have hs : s ≠ ['.', '.'] := fun hs => hroot (hresolve ▸ hs ▸ List.mem_cons_self)
      simp [Ne.symm hs]
  · simp

/-- A relative path joined onto a normalised root names its segments below the root. -/
lemma resolve_join_of_relativePath (hroot : hasRoot workspaceRoot)
    (hcanon : lexicallyCanonical workspaceRoot = workspaceRoot) (hrel : RelativePath rel) :
    resolve (join workspaceRoot rel) = resolve workspaceRoot ++ rel.splitOn '/' := by
  have hname : ∀ s ∈ rel.splitOn '/', IsName s := fun s hs =>
    ⟨⟨(hrel.2 s hs).1, (hrel.2 s hs).2.1, slash_notMem_of_mem_splitOn hs⟩, (hrel.2 s hs).2.2⟩
  have hspell : spell false (rel.splitOn '/') = rel := List.intercalate_splitOn '/'
  have hroot' := (lexicallyCanonical_eq hroot).symm.trans hcanon
  have hsegs := @isSegment_normalSegments workspaceRoot
  have hjoin : join workspaceRoot rel =
      spell true (normalSegments workspaceRoot ++ rel.splitOn '/') := by
    have hpush := @push_spell (normalSegments workspaceRoot) (rel.splitOn '/') true hsegs
      (fun s hs => (hname s hs).toIsSegment) (List.splitOn_ne_nil _ _)
    rwa [hspell, hroot'] at hpush
  have hall : ∀ s ∈ normalSegments workspaceRoot ++ rel.splitOn '/', IsSegment s := fun s hs =>
    (List.mem_append.mp hs).elim (hsegs s) fun hs => (hname s hs).toIsSegment
  have hcomponents := @components_spell (normalSegments workspaceRoot) true hsegs
  rw [hroot'] at hcomponents
  rw [hjoin, resolve, components_spell hall, List.map_append, ← List.append_assoc,
    ← hcomponents, List.foldl_append, foldl_enter_map _ hname]
  rfl

lemma toList_canonicalRelativePath (p : Path) :
    (canonicalRelativePath p).toList = p.map fun ch => if ch = '\\' then '/' else ch := by
  simp [canonicalRelativePath, replaceChar]

lemma backslash_notMem_canonicalRelativePath (p : Path) :
    '\\' ∉ (canonicalRelativePath p).toList := by
  rw [toList_canonicalRelativePath]
  intro hmem
  obtain ⟨ch, -, hch⟩ := List.mem_map.mp hmem
  split at hch
  next => exact absurd hch (by decide)
  next hne => exact hne hch

lemma canonicalRelativePath_of_notMem (h : '\\' ∉ p) :
    (canonicalRelativePath p).toList = p := by
  rw [toList_canonicalRelativePath]
  have hself : ∀ ch ∈ p, (if ch = '\\' then '/' else ch) = id ch := fun ch hch =>
    if_neg fun hback : ch = '\\' => h (hback ▸ hch)
  rw [List.map_congr_left hself, List.map_id]

/-- Names below the root are given back as they are if there are any and none has a
backslash. -/
lemma relativePath_iff_of_below (hroot : hasRoot workspaceRoot)
    (hcanon : lexicallyCanonical workspaceRoot = workspaceRoot) (hnames : ∀ s ∈ below, IsName s) :
    RelativePath (canonicalRelativePath (spell false below)).toList ∧
        resolve (join workspaceRoot (canonicalRelativePath (spell false below)).toList) =
          resolve workspaceRoot ++ below ↔
      below ≠ [] ∧ ∀ name ∈ below, '\\' ∉ name := by
  have hmem : '\\' ∈ spell false below ↔ ∃ name ∈ below, '\\' ∈ name :=
    mem_intercalate_iff (by decide)
  constructor
  · rintro ⟨hrel, hresolve⟩
    rw [resolve_join_of_relativePath hroot hcanon hrel, List.append_cancel_left_eq] at hresolve
    have hback := backslash_notMem_canonicalRelativePath (spell false below)
    -- the result has no backslash, and its segments are the names
    have hspell := @List.intercalate_splitOn _ (canonicalRelativePath (spell false below)).toList
      _ _ '/'
    rw [hresolve] at hspell
    rw [← hspell] at hback
    exact ⟨hresolve ▸ List.splitOn_ne_nil _ _,
      fun name hname h => hback (hmem.mpr ⟨name, hname, h⟩)⟩
  · rintro ⟨hne, hback⟩
    have hnot : '\\' ∉ spell false below := fun h =>
      let ⟨name, hname, hmem⟩ := hmem.mp h
      hback name hname hmem
    have hsplit : (spell false below).splitOn '/' = below :=
      List.splitOn_intercalate '/' (fun s hs => (hnames s hs).slash_notMem) hne
    have hrel : RelativePath (spell false below) :=
      ⟨hasRoot_spell fun s hs => (hnames s hs).toIsSegment, fun s hs => by
        rw [hsplit] at hs
        exact ⟨(hnames s hs).ne_nil, (hnames s hs).ne_dot, (hnames s hs).ne_dotdot⟩⟩
    rw [canonicalRelativePath_of_notMem hnot, resolve_join_of_relativePath hroot hcanon hrel,
      hsplit]
    exact ⟨hrel, rfl⟩

/-- A `..` that is left over stays the first segment of what is stored. -/
lemma not_relativePath_of_dotdot (names : List (List Char)) :
    ¬ RelativePath (canonicalRelativePath (spell false (['.', '.'] :: names))).toList := by
  intro hrel
  refine (hrel.2 ['.', '.'] ?_).2.2 rfl
  rw [toList_canonicalRelativePath]
  cases names with
  | nil => decide
  | cons s names =>
    rw [spell, List.intercalate_cons_of_ne_nil (List.cons_ne_nil s names), List.append_assoc]
    simp only [List.singleton_append, List.map_append, List.map_cons]
    have hsplit := @List.splitOn_append_cons_self_of_not_mem _ ['.', '.'] _ _ '/' (by decide)
      ((['/'].intercalate (s :: names)).map fun ch => if ch = '\\' then '/' else ch)
    exact hsplit ▸ List.mem_cons_self

/-- A document path is confined exactly when it is confinable. -/
lemma confined_iff_confinable (hroot : hasRoot workspaceRoot)
    (hcanon : lexicallyCanonical workspaceRoot = workspaceRoot)
    (hscope : hasRoot projectScopeRoot) :
    Confined workspaceRoot projectScopeRoot docRelativePath ↔
      Confinable workspaceRoot projectScopeRoot docRelativePath := by
  have hok := @mapDocumentPath_eq_ok workspaceRoot projectScopeRoot docRelativePath
  by_cases hnil : docRelativePath = ""
  · exact iff_of_true (fun out h => absurd hnil ((hok hroot hscope).mp h).1) (Or.inl hnil)
  by_cases habs : hasRoot docRelativePath.toList
  · refine iff_of_true (fun out h => ?_) (Or.inr (Or.inl habs))
    exact absurd habs (by simp [((hok hroot hscope).mp h).2.1])
  have hparity : ∀ n m : ℕ, n % 2 = m % 2 ↔ n.bodd = m.bodd := fun n m => by
    rw [Nat.mod_two_of_bodd, Nat.mod_two_of_bodd]
    cases n.bodd <;> cases m.bodd <;> decide
  rw [Confinable, or_iff_right hnil, or_iff_right habs]
  have hmaps : ∀ out, mapDocumentPath (confineDocument workspaceRoot projectScopeRoot)
      docRelativePath = .ok out ↔ _ := fun out =>
    (hok hroot hscope).trans ((and_iff_right hnil).trans (and_iff_right (by simpa using habs)))
  simp only [Confined, hmaps, normalSegments_eq_append]
  generalize join projectScopeRoot docRelativePath.toList = joined
  by_cases hsame : (overshoots joined).bodd = (overshoots workspaceRoot).bodd
  · -- the names are compared, and what is below the root is given back
    rw [if_pos ((hparity _ _).mpr hsame)]
    constructor
    · rintro h ⟨below, hbelow⟩
      have hnames : ∀ s ∈ below, IsName s := fun s hs =>
        isName_of_mem_resolve s (hbelow ▸ List.mem_append_right _ hs)
      have hconf := h _ ⟨below, Or.inl ⟨hsame, hbelow.symm⟩, rfl⟩
      rw [← hbelow] at hconf ⊢
      rw [List.drop_left]
      exact (relativePath_iff_of_below hroot hcanon hnames).mp hconf
    · rintro h out ⟨below, ⟨-, hbelow⟩ | ⟨hne, -⟩, rfl⟩
      · have hnames : ∀ s ∈ below, IsName s := fun s hs =>
          isName_of_mem_resolve s (hbelow ▸ List.mem_append_right _ hs)
        have hconf := h ⟨below, hbelow.symm⟩
        rw [hbelow, List.drop_left] at hconf
        rw [hbelow]
        exact (relativePath_iff_of_below hroot hcanon hnames).mpr hconf
      · exact absurd hsame hne
  · -- a `..` is left of one of the two paths
    rw [if_neg fun heq => hsame ((hparity _ _).mp heq)]
    have hroot' := (lexicallyCanonical_eq hroot).symm.trans hcanon
    constructor
    · rintro h rfl
      have hodd : (overshoots joined).bodd = true := by
        rw [← Bool.not_eq_false]
        exact hsame
      have hconf := h _ ⟨_, Or.inr ⟨hsame, rfl, rfl⟩, rfl⟩
      rw [normalSegments, hodd] at hconf
      exact not_relativePath_of_dotdot _ hconf.1
    · rintro hne out ⟨below, ⟨heq, -⟩ | ⟨-, hnone, -⟩, -⟩
      · exact absurd heq hsame
      · rw [hnone] at hroot'
        exact absurd hroot'.symm hne

/-- Each of two document paths is mapped to a path below the workspace root that is the file it
names, and they are kept apart, exactly when both are confinable. -/
theorem confined_keptApart_iff (hroot : hasRoot workspaceRoot)
    (hcanon : lexicallyCanonical workspaceRoot = workspaceRoot)
    (hscope : hasRoot projectScopeRoot) :
    Confined workspaceRoot projectScopeRoot docRelativePath ∧
        Confined workspaceRoot projectScopeRoot docRelativePath' ∧
        KeptApart workspaceRoot projectScopeRoot docRelativePath docRelativePath' ↔
      Confinable workspaceRoot projectScopeRoot docRelativePath ∧
        Confinable workspaceRoot projectScopeRoot docRelativePath' := by
  have hiff := fun doc => @confined_iff_confinable workspaceRoot projectScopeRoot doc
    hroot hcanon hscope
  rw [← hiff, ← hiff, ← and_assoc]
  refine and_iff_left_of_imp ?_
  rintro ⟨hconf, hconf'⟩ out hout hout'
  exact (hconf out hout).2.symm.trans (hconf' out hout').2

/-- A file of a project, and one that is reached from it through `..`. -/
theorem confined_keptApart_project :
    Confined "/ws".toList "/ws/app".toList "./src/a.ts" ∧
      Confined "/ws".toList "/ws/app".toList "../lib/b.ts" ∧
      KeptApart "/ws".toList "/ws/app".toList "./src/a.ts" "../lib/b.ts" :=
  (confined_keptApart_iff (by decide) (by decide) (by decide)).mpr
    (by decide)

/-- The workspace root itself is mapped to the empty path, a name with a backslash to the path
of another file, and under the root of the file system a `..` is kept. -/
theorem rootDocument_not_confined :
    mapDocumentPath (confineDocument "/ws".toList "/ws".toList) "." = .ok "" ∧
      ¬ Confined "/ws".toList "/ws".toList "." ∧
      mapDocumentPath (confineDocument "/ws".toList "/ws".toList) "a\\b" = .ok "a/b" ∧
      ¬ Confined "/ws".toList "/ws".toList "a\\b" ∧
      ¬ KeptApart "/ws".toList "/ws".toList "a\\b" "a/b" ∧
      mapDocumentPath (confineDocument ['/'] ['/']) "../x" = .ok "../x" ∧
      ¬ Confined ['/'] ['/'] "../x" := by
  have hempty : mapDocumentPath (confineDocument "/ws".toList "/ws".toList) "." = .ok "" := by
    decide
  have hback : mapDocumentPath (confineDocument "/ws".toList "/ws".toList) "a\\b" = .ok "a/b" := by
    decide
  have hslash : mapDocumentPath (confineDocument "/ws".toList "/ws".toList) "a/b" = .ok "a/b" := by
    decide
  have hup : mapDocumentPath (confineDocument ['/'] ['/']) "../x" = .ok "../x" := by
    decide
  refine ⟨hempty, fun h => ?_, hback, fun h => ?_, fun h => ?_, hup, fun h => ?_⟩
  · exact absurd ((h _ hempty).1.2 [] (by decide)).1 (by decide)
  · exact absurd (h _ hback).2 (by decide)
  · exact absurd (h _ hback hslash) (by decide)
  · exact absurd ((h _ hup).1.2 ['.', '.'] (by decide)).2.2 (by decide)

end WorkspaceAtlas
