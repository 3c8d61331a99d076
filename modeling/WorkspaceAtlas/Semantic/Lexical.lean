/-
# What lexical normalisation keeps

`lexically_canonical` drops the `.` components and takes a name away for every `..` behind it.
A `..` with no name before it stays, and the next `..` takes that away again; so of the `..` that
go up from the start of a path one is left if they are odd in number, and none otherwise.  At the
root of the file system they mean nothing, but a relative path needs all of them.
-/
import WorkspaceAtlas.Semantic.Confine

namespace WorkspaceAtlas

open Text Text.Path

namespace Lexical

/-! ## The statement -/

/-- The location that a path names from a base directory: the names from the root down. -/
def locate (base : List (List Char)) (p : Path) : List (List Char) :=
  (components p).foldl enter base

/-- Normalisation keeps the location from every base directory, and is done once. -/
structure Faithful (p : Path) : Prop where
  location : ∀ base, locate base (lexicallyCanonical p) = locate base p
  idempotent : lexicallyCanonical (lexicallyCanonical p) = lexicallyCanonical p

/-! ## Locations -/

variable {cs : List Component} {base names : List (List Char)} {p : Path}

/-- Going through a path from a base directory: every step up from the start takes a name of the
base away. -/
lemma foldl_enter_append (hroot : Component.rootDir ∉ cs) :
    cs.foldl enter (base ++ names) = base.rdrop (climbs names cs) ++ cs.foldl enter names := by
  induction cs generalizing base names with
  | nil => simp [climbs]
  | cons c cs ih =>
    have hrest : Component.rootDir ∉ cs := fun h => hroot (List.mem_cons_of_mem _ h)
    rw [List.foldl_cons, List.foldl_cons, climbs]
    cases c with
    | rootDir => exact absurd List.mem_cons_self hroot
    | curDir =>
      rw [if_neg (by simp), zero_add]
      exact ih hrest
    | normal name =>
      rw [if_neg (by simp), zero_add, enter, List.append_assoc]
      exact ih hrest
    | parentDir =>
      by_cases hnames : names = []
      · -- the step goes up from the start
        subst hnames
        have hup := @ih base.dropLast [] hrest
        rw [List.append_nil] at hup
        rw [if_pos ⟨rfl, rfl⟩, List.append_nil, enter, enter, List.dropLast_nil, hup]
        congr 1
        rw [List.rdrop, List.rdrop, List.length_dropLast, List.dropLast_eq_take, List.take_take]
        congr 1
        omega
      · rw [if_neg (by simp [hnames]), zero_add, enter, List.dropLast_append_of_ne_nil hnames]
        exact ih hrest

lemma rootDir_notMem_components (h : hasRoot p = false) : Component.rootDir ∉ components p := by
  rw [components, h]
  intro hmem
  obtain ⟨t, -, ht⟩ := List.mem_filterMap.mp hmem
  unfold parseComponent at ht
  split_ifs at ht
  all_goals exact absurd ht (by simp)

/-- An absolute path names one location, a relative one a location for every base. -/
lemma locate_eq (base : List (List Char)) (p : Path) : locate base p =
    if hasRoot p then resolve p else base.rdrop (overshoots p) ++ resolve p := by
  split
  next h =>
    obtain ⟨cs, hcs, -⟩ := components_of_hasRoot h
    rw [locate, resolve, hcs]
    rfl
  next h =>
    have hfold := @foldl_enter_append _ base [] (rootDir_notMem_components (by simpa using h))
    rwa [List.append_nil] at hfold

/-! ## Normalised paths -/

/-- The loop of `lexically_canonical` spells the segments that are left. -/
lemma foldl_components (p : Path) :
    (components p).foldl lexicalStep [] = spell (hasRoot p) (normalSegments p) := by
  cases hroot : hasRoot p with
  | true =>
    have hne : spell true (normalSegments p) ≠ [] := List.cons_ne_nil _ _
    have heq := lexicallyCanonical_eq hroot
    rw [lexicallyCanonical] at heq
    split at heq
    next hnil =>
      have hdot : ['.'] = spell true (normalSegments p) := by
        rw [← heq, hnil]
        rfl
      exact absurd (congrArg List.head? hdot) (by simp [spell])
    next => exact heq
  | false =>
    have hfold := @foldl_lexicalStep false false [] (components p)
      (fun _ h => absurd h List.not_mem_nil) (fun _ => isName_of_mem_components)
      (rootDir_notMem_components hroot)
    rw [Bool.false_xor] at hfold
    exact hfold

lemma lexicallyCanonical_eq_spell (p : Path) : lexicallyCanonical p =
    if hasRoot p = false ∧ normalSegments p = [] then ['.']
    else spell (hasRoot p) (normalSegments p) := by
  have hnil : spell (hasRoot p) (normalSegments p) = [] ↔
      hasRoot p = false ∧ normalSegments p = [] := by
    cases hasRoot p with
    | true => simp [spell]
    | false =>
      constructor
      · intro h
        refine ⟨rfl, ?_⟩
        by_contra hne
        exact (getLast?_spell isSegment_normalSegments hne).1 h
      · rintro ⟨-, h⟩
        rw [h]
        rfl
  rw [lexicallyCanonical, foldl_components]
  simp only [hnil]
  split
  next h =>
    rw [h.1, h.2]
    rfl
  next => rfl

/-- What the segments of a normalised path mean. -/
lemma foldl_canonicalSegments {odd : Bool} (h : ∀ s ∈ names, IsName s) :
    climbs [] ((canonicalSegments odd names).map ofSegment) = odd.toNat ∧
      ((canonicalSegments odd names).map ofSegment).foldl enter [] = names := by
  have hfold := foldl_enter_map [] h
  cases odd with
  | false => exact ⟨climbs_map [] h, hfold⟩
  | true =>
    have hcons : (canonicalSegments true names).map ofSegment =
        .parentDir :: names.map ofSegment := rfl
    rw [hcons, climbs, List.foldl_cons, if_pos ⟨rfl, rfl⟩, enter, List.dropLast_nil,
      climbs_map [] h]
    exact ⟨rfl, hfold⟩

/-- Normalisation keeps the root and the names, and of the steps up one or none. -/
lemma normalised (p : Path) : hasRoot (lexicallyCanonical p) = hasRoot p ∧
    resolve (lexicallyCanonical p) = resolve p ∧
      overshoots (lexicallyCanonical p) = (overshoots p).bodd.toNat := by
  rw [lexicallyCanonical_eq_spell]
  split
  next h =>
    obtain ⟨hroot, hsegs⟩ := h
    obtain ⟨hodd, hnames⟩ := List.append_eq_nil_iff.mp hsegs
    have heven : (overshoots p).bodd = false := by
      cases hbodd : (overshoots p).bodd with
      | false => rfl
      | true => simp [hbodd] at hodd
    rw [hroot, hnames, heven]
    exact ⟨rfl, rfl, rfl⟩
  next =>
    have hsegs : ∀ s ∈ normalSegments p, IsSegment s := isSegment_normalSegments
    obtain ⟨hclimbs, hfold⟩ := @foldl_canonicalSegments _ (overshoots p).bodd
      (@isName_of_mem_resolve p)
    refine ⟨hasRoot_spell hsegs, ?_, ?_⟩
    · rw [resolve, components_spell hsegs, List.foldl_append]
      cases hasRoot p <;> exact hfold
    · rw [overshoots, components_spell hsegs]
      cases hasRoot p with
      | false => exact hclimbs
      | true => exact (Nat.zero_add _).trans hclimbs

/-- A path that is normalised stays as it is. -/
lemma lexicallyCanonical_idempotent (p : Path) :
    lexicallyCanonical (lexicallyCanonical p) = lexicallyCanonical p := by
  obtain ⟨hroot, hresolve, hodd⟩ := normalised p
  have hsegs : normalSegments (lexicallyCanonical p) = normalSegments p := by
    rw [normalSegments, normalSegments, hresolve, hodd]
    cases (overshoots p).bodd <;> rfl
  rw [lexicallyCanonical_eq_spell (lexicallyCanonical p), hroot, hsegs,
    lexicallyCanonical_eq_spell p]

/-! ## When the location is kept -/

/-- **Normalisation is faithful** to the absolute paths, and to the relative ones that go up from
their start at most once. -/
theorem faithful_iff (p : Path) : Faithful p ↔ hasRoot p = true ∨ overshoots p ≤ 1 := by
  obtain ⟨hroot, hresolve, hodd⟩ := normalised p
  have hlocation : (∀ base, locate base (lexicallyCanonical p) = locate base p) ↔
      hasRoot p = true ∨ overshoots p ≤ 1 := by
    simp only [locate_eq, hroot, hresolve, hodd]
    cases hasRoot p with
    | true => simp
    | false =>
      simp only [Bool.false_eq_true, if_false, List.append_cancel_right_eq, false_or]
      constructor
      · intro h
        -- a base that is as deep as the path goes up
        have hbase := congrArg List.length (h (List.replicate (overshoots p) ['x']))
        simp only [List.rdrop, List.length_take, List.length_replicate] at hbase
        have hle : (overshoots p).bodd.toNat ≤ 1 := Bool.toNat_le _
        omega
      · intro h base
        obtain hzero | hone : overshoots p = 0 ∨ overshoots p = 1 := by omega
        · rw [hzero]
          rfl
        · rw [hone]
          rfl
  exact ⟨fun h => hlocation.mp h.location,
    fun h => ⟨hlocation.mpr h, lexicallyCanonical_idempotent p⟩⟩

/-- The second `..` takes the first one away. -/
theorem twoUp_notFaithful :
    lexicallyCanonical "../..".toList = ".".toList ∧
      locate ["a".toList, "b".toList] "../..".toList = [] ∧
      locate ["a".toList, "b".toList] (lexicallyCanonical "../..".toList) =
        ["a".toList, "b".toList] := by
  decide

end Lexical

end WorkspaceAtlas
