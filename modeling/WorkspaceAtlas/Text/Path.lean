/-
# Paths of a Unix system

`std::path` where `/` is the only separator: the components of a path, appending to a path and
removing its last component, over the characters of the path.  Beside it stands what a path
means when it is read without a file system: the names from the root down, where `..` at the
root stays at the root.
-/
import WorkspaceAtlas.Text.Chars
import Mathlib.Data.List.DropRight

namespace Text

/-- `Path` and `PathBuf`. -/
abbrev Path := List Char

/-- `Component`. -/
inductive Component where
  | rootDir
  | curDir
  | parentDir
  | normal (name : List Char)
  deriving DecidableEq, Repr

/-- `Component::as_os_str`. -/
def Component.asOsStr : Component → List Char
  | rootDir => ['/']
  | curDir => ['.']
  | parentDir => ['.', '.']
  | normal name => name

namespace Path

/-! ## The operations -/

/-- `has_root`, and `is_absolute`, which is the same. -/
def hasRoot (p : Path) : Bool := p.head? = some '/'

/-- The component that the text between two separators is, if it is one: a `.` is one only where
it starts the path. -/
def parseComponent (first : Bool) (segment : List Char) : Option Component :=
  if segment = [] then none
  else if segment = ['.'] then if first then some .curDir else none
  else if segment = ['.', '.'] then some .parentDir
  else some (.normal segment)

/-- What stands between the separators behind the root, each with whether it starts the path. -/
def segments (p : Path) : List (Bool × List Char) :=
  match (if hasRoot p then p.tail else p).splitOn '/' with
  | [] => []
  | segment :: rest => (!hasRoot p, segment) :: rest.map fun segment => (false, segment)

/-- `components`. -/
def components (p : Path) : List Component :=
  (if hasRoot p then [.rootDir] else []) ++ (segments p).filterMap fun s => parseComponent s.1 s.2

/-- Without what is no component at the end. -/
def trimRight (segs : List (Bool × List Char)) : List (Bool × List Char) :=
  segs.rdropWhile fun s => (parseComponent s.1 s.2).isNone

/-- The path with the given text between its separators. -/
def spell (rooted : Bool) (segs : List (List Char)) : Path :=
  (if rooted then ['/'] else []) ++ ['/'].intercalate segs

/-- `parent`. -/
def parent (p : Path) : Option Path :=
  match trimRight (segments p) with
  | [] => none
  | segs => some (spell (hasRoot p) ((trimRight segs.dropLast).map Prod.snd))

/-- `PathBuf::push`. -/
def push (p path : Path) : Path :=
  if hasRoot path then path
  else if p ≠ [] ∧ p.getLast? ≠ some '/' then p ++ '/' :: path
  else p ++ path

/-- `join`. -/
def join (p path : Path) : Path := push p path

/-! ## What a path means -/

/-- The names from the root down after one more component. -/
def enter (names : List (List Char)) : Component → List (List Char)
  | .rootDir => []
  | .curDir => names
  | .parentDir => names.dropLast
  | .normal name => names ++ [name]

/-- The lexical resolution of an absolute path. -/
def resolve (p : Path) : List (List Char) := (components p).foldl enter []

/-- How many of the components go up from the root. -/
def climbs : List (List Char) → List Component → ℕ
  | _, [] => 0
  | names, c :: rest =>
    (if c = .parentDir ∧ names = [] then 1 else 0) + climbs (enter names c) rest

/-- How often a path goes up from the root. -/
def overshoots (p : Path) : ℕ := climbs [] (components p)

/-! ## Segments -/

lemma components_of_hasRoot {p : Path} (h : hasRoot p) :
    ∃ cs, components p = .rootDir :: cs ∧ Component.rootDir ∉ cs := by
  refine ⟨_, by rw [components, if_pos h, List.singleton_append], fun hmem => ?_⟩
  obtain ⟨t, -, ht⟩ := List.mem_filterMap.mp hmem
  unfold parseComponent at ht
  split_ifs at ht
  all_goals exact absurd ht (by simp)

/-- Text between two separators that is always a component. -/
structure IsSegment (s : List Char) : Prop where
  ne_nil : s ≠ []
  ne_dot : s ≠ ['.']
  slash_notMem : '/' ∉ s

/-- A segment that names an entry of a directory. -/
structure IsName (s : List Char) : Prop extends IsSegment s where
  ne_dotdot : s ≠ ['.', '.']

/-- The component that a segment is. -/
def ofSegment (s : List Char) : Component := if s = ['.', '.'] then .parentDir else .normal s

variable {s : List Char} {segs rest names : List (List Char)} {rooted : Bool}

lemma isSegment_dotdot : IsSegment ['.', '.'] := ⟨by decide, by decide, by decide⟩

lemma parseComponent_of_isSegment (h : IsSegment s) (first : Bool) :
    parseComponent first s = some (ofSegment s) := by
  rw [parseComponent, if_neg h.ne_nil, if_neg h.ne_dot, ofSegment]
  split
  · rfl
  · rfl

@[simp] lemma asOsStr_ofSegment (s : List Char) : (ofSegment s).asOsStr = s := by
  rw [ofSegment]
  split
  next h => rw [h, Component.asOsStr]
  next => rfl

lemma ofSegment_injective : Function.Injective ofSegment := fun s t h => by
  rw [← asOsStr_ofSegment s, h, asOsStr_ofSegment]

lemma ofSegment_ne_rootDir (s : List Char) : ofSegment s ≠ .rootDir := by
  rw [ofSegment]
  split <;> exact Component.noConfusion

lemma ofSegment_ne_curDir (s : List Char) : ofSegment s ≠ .curDir := by
  rw [ofSegment]
  split <;> exact Component.noConfusion

lemma ofSegment_of_isName (h : IsName s) : ofSegment s = .normal s := if_neg h.ne_dotdot

/-- Every normal component of a path is a name. -/
lemma isName_of_parseComponent {first : Bool} {name : List Char} (hslash : '/' ∉ s)
    (h : parseComponent first s = some (.normal name)) : IsName name := by
  unfold parseComponent at h
  split at h
  next => exact absurd h (by simp)
  next hnil =>
    split at h
    next => split at h <;> exact absurd h (by simp)
    next hdot =>
      split at h
      next => exact absurd h (by simp)
      next hdotdot =>
        obtain rfl : s = name := by simpa using h
        exact ⟨⟨hnil, hdot, hslash⟩, hdotdot⟩

/-- What a separator splits does not contain it. -/
lemma slash_notMem_of_mem_splitOn {p : List Char} (h : s ∈ p.splitOn '/') : '/' ∉ s := by
  induction p generalizing s with
  | nil =>
    obtain rfl : s = [] := by simpa using h
    exact List.not_mem_nil
  | cons c p ih =>
    rw [List.splitOn_cons_eq_if_modifyHead] at h
    split at h
    next =>
      rcases List.mem_cons.mp h with rfl | h
      · exact List.not_mem_nil
      · exact ih h
    next hc =>
      obtain ⟨first, rest, hsplit⟩ := List.exists_cons_of_ne_nil (List.splitOn_ne_nil '/' p)
      rw [hsplit, List.modifyHead_cons] at h
      rcases List.mem_cons.mp h with rfl | h
      · intro hmem
        rcases List.mem_cons.mp hmem with rfl | hmem
        · exact hc (by simp)
        · exact ih (hsplit ▸ List.mem_cons_self) hmem
      · exact ih (hsplit ▸ List.mem_cons_of_mem _ h)

lemma slash_notMem_of_mem_segments {p : Path} {first : Bool} (h : (first, s) ∈ segments p) :
    '/' ∉ s := by
  unfold segments at h
  split at h
  next => exact absurd h List.not_mem_nil
  next segment rest hsplit =>
    have hmem : s ∈ segment :: rest := by
      rcases List.mem_cons.mp h with h | h
      · exact (Prod.mk.inj h).2 ▸ List.mem_cons_self
      · obtain ⟨t, ht, heq⟩ := List.mem_map.mp h
        exact (Prod.mk.inj heq).2 ▸ List.mem_cons_of_mem _ ht
    exact slash_notMem_of_mem_splitOn (hsplit ▸ hmem)

lemma isName_of_mem_components {p : Path} {name : List Char}
    (h : Component.normal name ∈ components p) : IsName name := by
  rcases List.mem_append.mp h with h | h
  · split at h <;> exact absurd h (by simp)
  · obtain ⟨⟨first, s⟩, hs, hparse⟩ := List.mem_filterMap.mp h
    exact isName_of_parseComponent (slash_notMem_of_mem_segments hs) hparse

/-! ## Spelled paths -/

lemma intercalate_append (hsegs : segs ≠ []) (hrest : rest ≠ []) :
    ['/'].intercalate (segs ++ rest) =
      ['/'].intercalate segs ++ '/' :: ['/'].intercalate rest := by
  induction segs with
  | nil => exact absurd rfl hsegs
  | cons s segs ih =>
    by_cases hnil : segs = []
    · subst hnil
      rw [List.singleton_append, List.intercalate_cons_of_ne_nil hrest,
        List.intercalate_singleton, List.append_assoc, List.singleton_append]
    · have hcons : segs ++ rest ≠ [] := by simp [hnil]
      rw [List.cons_append, List.intercalate_cons_of_ne_nil hcons,
        List.intercalate_cons_of_ne_nil hnil, ih hnil]
      simp only [List.append_assoc]

/-- The spelling starts with its first segment. -/
lemma intercalate_cons_eq (s : List Char) (segs : List (List Char)) :
    ∃ tail, ['/'].intercalate (s :: segs) = s ++ tail := by
  by_cases hnil : segs = []
  · exact ⟨[], by rw [hnil, List.intercalate_singleton, List.append_nil]⟩
  · exact ⟨_, by rw [List.intercalate_cons_of_ne_nil hnil, List.append_assoc]⟩

@[simp] lemma hasRoot_spell (h : ∀ s ∈ segs, IsSegment s) :
    hasRoot (spell rooted segs) = rooted := by
  cases rooted with
  | true => rfl
  | false =>
    cases segs with
    | nil => rfl
    | cons s segs =>
      obtain ⟨tail, htail⟩ := intercalate_cons_eq s segs
      have hs := h s List.mem_cons_self
      obtain ⟨c, s', rfl⟩ := List.exists_cons_of_ne_nil hs.ne_nil
      have hc : c ≠ '/' := fun hc => hs.slash_notMem (hc ▸ List.mem_cons_self)
      simp [spell, hasRoot, htail, hc]

/-- A character of a spelled path is a separator or stands in a segment. -/
lemma mem_intercalate_iff {c : Char} (hc : c ≠ '/') :
    c ∈ ['/'].intercalate segs ↔ ∃ s ∈ segs, c ∈ s := by
  induction segs with
  | nil => simp
  | cons s segs ih =>
    by_cases hnil : segs = []
    · subst hnil
      simp
    · rw [List.intercalate_cons_of_ne_nil hnil]
      simp [ih, hc]

/-- A spelled path ends with its last segment. -/
lemma spell_concat (rooted : Bool) (segs : List (List Char)) (s : List Char) :
    ∃ init, spell rooted (segs ++ [s]) = init ++ s := by
  by_cases hnil : segs = []
  · exact ⟨_, by rw [hnil, List.nil_append, spell, List.intercalate_singleton]⟩
  · refine ⟨spell rooted segs ++ ['/'], ?_⟩
    rw [spell, spell, intercalate_append hnil (List.cons_ne_nil s []),
      List.intercalate_singleton]
    simp only [List.append_assoc, List.cons_append, List.nil_append]

lemma getLast?_spell (h : ∀ s ∈ segs, IsSegment s) (hsegs : segs ≠ []) :
    spell rooted segs ≠ [] ∧ (spell rooted segs).getLast? ≠ some '/' := by
  obtain ⟨segs, s, rfl⟩ := (List.eq_nil_or_concat' segs).resolve_left hsegs
  have hs := h s (by simp)
  obtain ⟨init, hinit⟩ := spell_concat rooted segs s
  rw [hinit]
  refine ⟨by simp [hs.ne_nil], fun hlast => hs.slash_notMem ?_⟩
  rw [List.getLast?_append_of_ne_nil _ hs.ne_nil] at hlast
  exact List.mem_of_getLast? hlast

/-- Appending a path without a root appends its segments. -/
lemma push_spell (h : ∀ s ∈ segs, IsSegment s) (hrest : ∀ s ∈ rest, IsSegment s)
    (hne : rest ≠ []) :
    push (spell rooted segs) (spell false rest) = spell rooted (segs ++ rest) := by
  rw [push, hasRoot_spell hrest, if_neg Bool.false_ne_true]
  by_cases hsegs : segs = []
  · subst hsegs
    rw [if_neg (by cases rooted <;> simp [spell])]
    simp [spell]
  · rw [if_pos (getLast?_spell h hsegs)]
    simp only [spell, intercalate_append hsegs hne, List.append_assoc, Bool.false_eq_true,
      if_false, List.nil_append]

lemma push_segment (h : ∀ s ∈ segs, IsSegment s) (hs : IsSegment s) :
    push (spell rooted segs) s = spell rooted (segs ++ [s]) := by
  have hspell : spell false [s] = s := by simp [spell]
  have hpush := @push_spell segs [s] rooted h (by simpa using hs) (List.cons_ne_nil _ _)
  rwa [hspell] at hpush

lemma push_root : push [] ['/'] = spell true [] := rfl

/-- What stands between the separators of a spelled path. -/
lemma segments_spell (h : ∀ s ∈ segs, IsSegment s) (hsegs : segs ≠ []) :
    ∃ first, segments (spell rooted segs) =
      (first, segs.head hsegs) :: segs.tail.map fun s => (false, s) := by
  have hbody : (if hasRoot (spell rooted segs) then (spell rooted segs).tail
      else spell rooted segs) = ['/'].intercalate segs := by
    rw [hasRoot_spell h]
    cases rooted <;> rfl
  have hsplit := List.splitOn_intercalate '/' (fun s hs => (h s hs).slash_notMem) hsegs
  obtain ⟨s, segs, rfl⟩ := List.exists_cons_of_ne_nil hsegs
  refine ⟨!hasRoot (spell rooted (s :: segs)), ?_⟩
  simp only [segments, hbody, hsplit, List.head_cons, List.tail_cons]

lemma segments_spell_nil (rooted : Bool) : segments (spell rooted []) = [(!rooted, [])] := by
  cases rooted <;> rfl

lemma components_spell (h : ∀ s ∈ segs, IsSegment s) :
    components (spell rooted segs) = (if rooted then [.rootDir] else []) ++ segs.map ofSegment := by
  rw [components, hasRoot_spell h]
  congr 1
  by_cases hsegs : segs = []
  · subst hsegs
    rw [segments_spell_nil]
    rfl
  · obtain ⟨first, hsegments⟩ := @segments_spell segs rooted h hsegs
    obtain ⟨s, segs, rfl⟩ := List.exists_cons_of_ne_nil hsegs
    rw [hsegments, List.head_cons, List.tail_cons, List.filterMap_cons,
      parseComponent_of_isSegment (h s List.mem_cons_self), List.filterMap_map, List.map_cons]
    rw [← List.filterMap_eq_map]
    show ofSegment s :: _ = ofSegment s :: _
    exact congrArg _ <| List.filterMap_congr fun t ht =>
      parseComponent_of_isSegment (h t (List.mem_cons_of_mem _ ht)) false

/-- All segments of a spelled path are components. -/
lemma trimRight_eq_self {tagged : List (Bool × List Char)} (h : ∀ t ∈ tagged, IsSegment t.2) :
    trimRight tagged = tagged := by
  rw [trimRight, List.rdropWhile_eq_self_iff]
  intro hne
  rw [parseComponent_of_isSegment (h _ (List.getLast_mem hne))]
  exact Bool.false_ne_true

lemma parent_spell_nil (rooted : Bool) : parent (spell rooted []) = none := by
  cases rooted <;> rfl

lemma parent_spell_concat (h : ∀ t ∈ segs ++ [s], IsSegment t) :
    parent (spell rooted (segs ++ [s])) = some (spell rooted segs) := by
  have hne : segs ++ [s] ≠ [] := by simp
  obtain ⟨first, hsegments⟩ := @segments_spell (segs ++ [s]) rooted h hne
  have hmap : (segments (spell rooted (segs ++ [s]))).map Prod.snd = segs ++ [s] := by
    rw [hsegments, List.map_cons, List.map_map]
    exact (congrArg _ (List.map_id _)).trans (List.cons_head_tail hne)
  have hall : ∀ t ∈ segments (spell rooted (segs ++ [s])), IsSegment t.2 := fun t ht =>
    h t.2 (hmap ▸ List.mem_map_of_mem ht)
  have hcons : segments (spell rooted (segs ++ [s])) ≠ [] := hsegments ▸ List.cons_ne_nil _ _
  rw [parent, trimRight_eq_self hall]
  split
  next hnil => exact absurd hnil hcons
  next =>
    rw [trimRight_eq_self fun t ht => hall t (List.dropLast_subset _ ht), List.map_dropLast,
      hmap, List.dropLast_concat, hasRoot_spell h]

/-! ## Resolution of spelled paths -/

lemma foldl_enter_map (names : List (List Char)) (h : ∀ s ∈ segs, IsName s) :
    (segs.map ofSegment).foldl enter names = names ++ segs := by
  induction segs generalizing names with
  | nil => exact (List.append_nil names).symm
  | cons s segs ih =>
    rw [List.map_cons, List.foldl_cons, ofSegment_of_isName (h s List.mem_cons_self), enter,
      ih _ fun t ht => h t (List.mem_cons_of_mem _ ht), List.append_assoc, List.singleton_append]

/-- Entering names never goes up from the root. -/
lemma climbs_map (names : List (List Char)) (h : ∀ s ∈ segs, IsName s) :
    climbs names (segs.map ofSegment) = 0 := by
  induction segs generalizing names with
  | nil => rfl
  | cons s segs ih =>
    rw [List.map_cons, ofSegment_of_isName (h s List.mem_cons_self), climbs,
      ih _ fun t ht => h t (List.mem_cons_of_mem _ ht), if_neg (by simp)]

/-- Every name of a resolution is a name of a component. -/
lemma isName_of_mem_foldl_enter {cs : List Component} (hnames : ∀ s ∈ names, IsName s)
    (hcs : ∀ name, Component.normal name ∈ cs → IsName name) :
    ∀ s ∈ cs.foldl enter names, IsName s := by
  induction cs generalizing names with
  | nil => exact hnames
  | cons c cs ih =>
    refine ih (fun s hs => ?_) fun name hname => hcs name (List.mem_cons_of_mem _ hname)
    cases c with
    | rootDir => exact absurd hs List.not_mem_nil
    | curDir => exact hnames s hs
    | parentDir => exact hnames s (List.dropLast_subset _ hs)
    | normal name =>
      rcases List.mem_append.mp hs with hs | hs
      · exact hnames s hs
      · obtain rfl := List.mem_singleton.mp hs
        exact hcs s List.mem_cons_self

lemma isName_of_mem_resolve {p : Path} : ∀ s ∈ resolve p, IsName s :=
  isName_of_mem_foldl_enter (fun _ h => absurd h List.not_mem_nil)
    fun _ => isName_of_mem_components

end Path

end Text
