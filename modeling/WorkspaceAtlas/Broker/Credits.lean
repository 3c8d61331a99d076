/-
# Credits

What speaks for a candidate is a credit: the key of the candidate, the candidate as it is made
when the key is new, and a bonus.  The map of the candidates is what a list of credits adds up
to: under a key stands the candidate of its first credit with the sum of its bonuses.  The
credits of the hop depend on the order in which the relationships are followed: a path that is no
seed is credited for the first relationship that leads to it, and for no other.
-/
import WorkspaceAtlas.Broker.Packet

namespace WorkspaceAtlas

open Relational Text

/-- Something that speaks for a candidate. -/
structure Credit where
  key : String
  candidate : ScoredCandidate
  bump : ℕ
  deriving DecidableEq, Repr

namespace Broker

/-- `add_or_bump` of a credit. -/
def award (scored : Scored) (x : Credit) : Scored := addOrBump scored x.key x.candidate x.bump

/-- The candidate with a higher score. -/
def ScoredCandidate.bumped (bump : ℕ) (v : ScoredCandidate) : ScoredCandidate :=
  { v with score := v.score + bump }

/-- What stands under a key after some credits. -/
def earned (l : List Credit) (k : String) (before : Option ScoredCandidate) :
    Option ScoredCandidate :=
  (before.or ((l.find? fun x => x.key = k).map Credit.candidate)).map
    (ScoredCandidate.bumped ((l.filter fun x => x.key = k).map Credit.bump).sum)

variable {l : List Credit} {k : String} {m : Scored} {x : Credit}

lemma get_award : (award m x).get k =
    if k = x.key then some (ScoredCandidate.bumped x.bump ((m.get x.key).getD x.candidate))
    else m.get k :=
  SortedMap.get_entryOr

lemma get_foldl_award : (l.foldl award m).get k = earned l k (m.get k) := by
  induction l generalizing m with
  | nil =>
    rw [List.foldl_nil, earned]
    cases m.get k with
    | none => rfl
    | some v => rfl
  | cons x l ih =>
    rw [List.foldl_cons, ih, get_award, earned, earned, List.find?_cons, List.filter_cons]
    by_cases h : k = x.key
    · obtain rfl := h
      rw [if_pos rfl]
      cases m.get x.key with
      | none => simp [ScoredCandidate.bumped, Nat.add_assoc]
      | some v => simp [ScoredCandidate.bumped, Nat.add_assoc]
    · have h' : ¬ x.key = k := fun heq => h heq.symm
      simp [h, h']

/-- What stands under a key is there from before or has been credited. -/
lemma earned_eq_none_iff {before : Option ScoredCandidate} :
    earned l k before = none ↔ before = none ∧ ∀ x ∈ l, x.key ≠ k := by
  rw [earned, Option.map_eq_none_iff, Option.or_eq_none_iff, Option.map_eq_none_iff,
    List.find?_eq_none]
  simp

/-! ## The credits of a request -/

/-- The credit of a known path. -/
def pathCredit (p : String) : Credit := ⟨keyForPath p, pathCandidate p 0, 100⟩

/-- The credit of a known symbol with the row it is resolved to. -/
def symbolCredit (s : String) (row : NamedSymbol) : Credit :=
  ⟨s, symbolCandidate s row, if isSemantic row then 115 else 100⟩

/-- The credits of a row for what the text mentions. -/
def mentionCredits (task : String) (row : NamedSymbol) : List Credit :=
  (if mentionsName task row then
    [⟨row.2.canonicalSymbolKey, symbolCandidate row.2.canonicalSymbolKey row,
      if isSemantic row then 95 else 80⟩] else []) ++
  (if mentionsFile task row then
    [⟨keyForPath row.1.canonicalPath, pathCandidate row.1.canonicalPath 0, 70⟩] else [])

/-- The credits of the known symbols. -/
def symbolCredits (c : Catalogue) (o : Orders) (gid : String) (symbols : List String) :
    List Credit :=
  symbols.filterMap fun s => (resolveSymbol c o gid s).map (symbolCredit s)

/-- The credits before the relationships are followed. -/
def credits (c : Catalogue) (o : Orders) (gid : String) (req : TaskRequest) : List Credit :=
  req.knownPaths.map pathCredit ++ (symbolCredits c o gid req.knownSymbols ++
    (o.symbols.arrange (c.currentSymbols gid)).flatMap (mentionCredits req.task))

variable {c : Catalogue} {o : Orders} {gid : String} {req : TaskRequest}

lemma foldl_addKnownPath {paths : List String} :
    paths.foldl addKnownPath m = (paths.map pathCredit).foldl award m := by
  rw [List.foldl_map]
  rfl

lemma foldl_addKnownSymbol {symbols : List String} :
    symbols.foldl (addKnownSymbol c o gid) m = (symbolCredits c o gid symbols).foldl award m := by
  induction symbols generalizing m with
  | nil => rfl
  | cons s symbols ih =>
    rw [List.foldl_cons, ih, symbolCredits, symbolCredits, List.filterMap_cons, addKnownSymbol]
    cases resolveSymbol c o gid s with
    | none => rfl
    | some row => rfl

lemma foldl_addMentioned {task : String} {rows : List NamedSymbol} :
    rows.foldl (addMentioned task) m = (rows.flatMap (mentionCredits task)).foldl award m := by
  induction rows generalizing m with
  | nil => rfl
  | cons row rows ih =>
    rw [List.foldl_cons, ih, List.flatMap_cons, List.foldl_append]
    congr 1
    rw [addMentioned, mentionCredits, List.foldl_append]
    cases mentionsName task row <;> cases mentionsFile task row <;> rfl

/-- The map of the candidates is what the credits add up to. -/
lemma seedCandidates_eq :
    seedCandidates c o gid req = (credits c o gid req).foldl award .empty := by
  rw [credits, List.foldl_append, List.foldl_append, ← foldl_addKnownPath, ← foldl_addKnownSymbol,
    ← foldl_addMentioned, seedCandidates]

lemma get_seedCandidates :
    (seedCandidates c o gid req).get k = earned (credits c o gid req) k none := by
  rw [seedCandidates_eq, get_foldl_award, SortedMap.get_empty]

/-! ## The credits of the hop -/

/-- A relationship that leads to a path. -/
def leadsTo (t : String) (rf : RelationshipFact) : Bool :=
  rf.targetRefKind = .path ∧ rf.targetRefValue = t

/-- The credit of what a relationship leads to. -/
def hopCredit (rf : RelationshipFact) : Credit :=
  ⟨keyForPath rf.targetRefValue, pathCandidate rf.targetRefValue 1, hopBump rf⟩

/-- The credits of some relationships, where some paths have been seen. -/
def hopCredits : List String → List RelationshipFact → List Credit
  | _, [] => []
  | seen, rf :: rest =>
    if rf.targetRefKind = .path ∧ rf.targetRefValue ∉ seen then
      hopCredit rf :: hopCredits (rf.targetRefValue :: seen) rest
    else hopCredits seen rest

lemma foldl_followRelationship {seen : List String} {edges : List RelationshipFact} :
    (edges.foldl followRelationship (seen, m)).2 = (hopCredits seen edges).foldl award m := by
  induction edges generalizing seen m with
  | nil => rfl
  | cons rf edges ih =>
    rw [List.foldl_cons, hopCredits, followRelationship]
    split
    next => rw [ih, List.foldl_cons]; rfl
    next => exact ih

lemma keyForPath_injective : Function.Injective keyForPath := fun _ _ h => stem_append_inj.mp h

lemma mem_hopCredits {seen : List String} {edges : List RelationshipFact}
    (h : x ∈ hopCredits seen edges) : ∃ rf ∈ edges, x = hopCredit rf := by
  induction edges generalizing seen with
  | nil => exact absurd h List.not_mem_nil
  | cons rf edges ih =>
    rw [hopCredits] at h
    split at h
    next =>
      rcases List.mem_cons.mp h with rfl | h
      · exact ⟨rf, List.mem_cons_self, rfl⟩
      · obtain ⟨rf', hrf', hx⟩ := ih h
        exact ⟨rf', List.mem_cons_of_mem _ hrf', hx⟩
    next =>
      obtain ⟨rf', hrf', hx⟩ := ih h
      exact ⟨rf', List.mem_cons_of_mem _ hrf', hx⟩

/-- A path that has not been seen is credited for the first relationship that leads to it. -/
lemma filter_hopCredits {seen : List String} {edges : List RelationshipFact} {t : String} :
    (hopCredits seen edges).filter (fun x => x.key = keyForPath t) =
      if t ∈ seen then [] else ((edges.find? (leadsTo t)).map hopCredit).toList := by
  induction edges generalizing seen with
  | nil => simp [hopCredits]
  | cons rf edges ih =>
    have hkey : (hopCredit rf).key = keyForPath t ↔ rf.targetRefValue = t :=
      keyForPath_injective.eq_iff
    rw [hopCredits, List.find?_cons]
    by_cases hpath : rf.targetRefKind = .path
    · by_cases ht : rf.targetRefValue = t
      · obtain rfl := ht
        by_cases hseen : rf.targetRefValue ∈ seen
        · rw [if_neg (fun h => h.2 hseen), ih, if_pos hseen, if_pos hseen]
        · have hnil : (hopCredits (rf.targetRefValue :: seen) edges).filter
              (fun x => x.key = keyForPath rf.targetRefValue) = [] := by
            rw [ih, if_pos List.mem_cons_self]
          rw [if_pos ⟨hpath, hseen⟩, if_neg hseen, List.filter_cons, if_pos (by simp [hkey]), hnil,
            leadsTo, decide_eq_true ⟨hpath, rfl⟩]
          rfl
      · have hleads : leadsTo t rf = false := by simp [leadsTo, ht]
        rw [hleads]
        dsimp only
        split
        next =>
          have hmem : t ∈ rf.targetRefValue :: seen ↔ t ∈ seen :=
            ⟨fun h => (List.mem_cons.mp h).resolve_left fun heq => ht heq.symm,
              List.mem_cons_of_mem _⟩
          rw [List.filter_cons, if_neg (by simp [hkey, ht]), ih]
          simp only [hmem]
        next => exact ih
    · have hleads : leadsTo t rf = false := by simp [leadsTo, hpath]
      rw [if_neg (fun h => hpath h.1), ih, hleads]

lemma get_expand : (expand c o gid m).get k =
    earned (hopCredits (seedPaths o m) (followed c o gid (seedPaths o m))) k (m.get k) := by
  rw [expand, foldl_followRelationship, get_foldl_award]

/-! ## Keys -/

/-- The key that a candidate has in the map. -/
def keyOf (v : ScoredCandidate) : String := v.canonicalSymbolKey.getD (keyForPath v.canonicalPath)

/-- Every candidate stands under its own key. -/
def IsKeyed (m : Scored) : Prop := ∀ entry ∈ m.entries, keyOf entry.2 = entry.1

lemma isKeyed_foldl_award (hm : IsKeyed m) (hl : ∀ x ∈ l, keyOf x.candidate = x.key) :
    IsKeyed (l.foldl award m) := by
  rintro ⟨k, v⟩ hentry
  rw [← SortedMap.get_eq_some_iff, get_foldl_award, earned, Option.map_eq_some_iff] at hentry
  obtain ⟨w, hw, rfl⟩ := hentry
  have hbumped : ∀ bump, keyOf (ScoredCandidate.bumped bump w) = keyOf w := fun _ => rfl
  rw [hbumped]
  rcases Option.or_eq_some_iff.mp hw with hw | ⟨-, hw⟩
  · exact hm (k, w) (SortedMap.get_eq_some_iff.mp hw)
  · obtain ⟨x, hx, rfl⟩ := Option.map_eq_some_iff.mp hw
    have hkey : x.key = k := by simpa using List.find?_some hx
    rw [hl x (List.mem_of_find?_eq_some hx), hkey]

lemma keyOf_of_mem_credits (hx : x ∈ credits c o gid req) : keyOf x.candidate = x.key := by
  simp only [credits, List.mem_append, List.mem_map, symbolCredits, List.mem_filterMap,
    Option.map_eq_some_iff, List.mem_flatMap] at hx
  rcases hx with ⟨p, -, rfl⟩ | ⟨s, -, row, -, rfl⟩ | ⟨row, -, hx⟩
  · rfl
  · rfl
  · rw [mentionCredits, List.mem_append] at hx
    rcases hx with hx | hx
    · split at hx
      next => obtain rfl := List.mem_singleton.mp hx; rfl
      next => exact absurd hx List.not_mem_nil
    · split at hx
      next => obtain rfl := List.mem_singleton.mp hx; rfl
      next => exact absurd hx List.not_mem_nil

lemma isKeyed_expand : IsKeyed (expand c o gid (seedCandidates c o gid req)) := by
  rw [expand, foldl_followRelationship]
  refine isKeyed_foldl_award ?_ fun x hx => ?_
  · rw [seedCandidates_eq]
    exact isKeyed_foldl_award (fun entry h => absurd h List.not_mem_nil)
      fun x hx => keyOf_of_mem_credits hx
  · obtain ⟨rf, -, rfl⟩ := mem_hopCredits hx
    rfl

/-- A keyed map is known from its values. -/
lemma eq_of_perm_values {m' : Scored} (hm : IsKeyed m) (hm' : IsKeyed m')
    (h : List.Perm m.values m'.values) : m = m' := by
  have hentries : ∀ m : Scored, IsKeyed m →
      m.entries = m.values.map fun v => (keyOf v, v) := by
    intro m hm
    rw [SortedMap.values, List.map_map]
    refine (List.map_id _).symm.trans (List.map_congr_left fun entry hentry => ?_)
    exact Prod.ext (hm entry hentry).symm rfl
  refine SortedMap.ext_get fun k => Option.ext fun v => ?_
  rw [SortedMap.get_eq_some_iff, SortedMap.get_eq_some_iff, hentries m hm, hentries m' hm']
  exact (h.map _).mem_iff

end Broker

end WorkspaceAtlas
