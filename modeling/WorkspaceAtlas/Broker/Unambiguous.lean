/-
# What a run chooses

The order of the entries of a map and the order of rows without `ORDER BY` reach the candidates
through the first row that makes a candidate, the row a known symbol is resolved to, the first
relationship that leads to a path and candidates that tie.  Where each of these choices is
between equals, every run ranks the same candidates.
-/
import WorkspaceAtlas.Broker.Credits

namespace WorkspaceAtlas

open Relational Text

namespace Broker

/-- The first credit of a key that a row gives. -/
def firstCredit (task k : String) (row : NamedSymbol) : Option Credit :=
  (mentionCredits task row).find? fun x => x.key = k

/-- The key is that of a known path. -/
def IsKnownPath (req : TaskRequest) (k : String) : Prop := k ∈ req.knownPaths.map keyForPath

/-- Every choice that a run makes is between equals. -/
structure IsUnambiguous (c : Catalogue) (gid : String) (req : TaskRequest) : Prop where
  /-- The symbols that a known symbol can be resolved to make the same candidate. -/
  known : ∀ s ∈ req.knownSymbols, ∀ r ∈ c.currentSymbols gid, ∀ r' ∈ c.currentSymbols gid,
    isNamed s r = true → isNamed s r' = true → isSemantic r = isSemantic r' ∧
      (¬ IsKnownPath req s → symbolCandidate s r = symbolCandidate s r')
  /-- The rows that are mentioned under one key make the same candidate. -/
  mentioned : ∀ k, ¬ IsKnownPath req k →
    (k ∈ req.knownSymbols → ∀ r ∈ c.currentSymbols gid, isNamed k r = false) →
      ∀ r ∈ c.currentSymbols gid, ∀ r' ∈ c.currentSymbols gid, ∀ x x',
        firstCredit req.task k r = some x → firstCredit req.task k r' = some x' →
          x.candidate = x'.candidate
  /-- The relationships that lead from the seeds to a path that is none have the same bonus. -/
  hop : ∀ seed ∈ seedPaths .given (seedCandidates c .given gid req),
    ∀ seed' ∈ seedPaths .given (seedCandidates c .given gid req),
      ∀ rf ∈ seedRelationships c gid seed, ∀ rf' ∈ seedRelationships c gid seed',
        ∀ t ∉ seedPaths .given (seedCandidates c .given gid req),
          leadsTo t rf = true → leadsTo t rf' = true → hopBump rf = hopBump rf'
  /-- No two candidates have the same rank. -/
  ties : ∀ a ∈ candidates c .given gid req, ∀ b ∈ candidates c .given gid req,
    rankKey a = rankKey b → a = b

variable {H : Hasher} {c : Catalogue} {o o' : Orders} {gid : String} {req : TaskRequest}
  {k s : String} {l l' : List Credit} {row : NamedSymbol} {m : Scored}

/-! ## What a run chooses -/

lemma earned_congr {before : Option ScoredCandidate}
    (hfirst : (l.find? fun x => x.key = k).map Credit.candidate =
      (l'.find? fun x => x.key = k).map Credit.candidate)
    (hsum : ((l.filter fun x => x.key = k).map Credit.bump).sum =
      ((l'.filter fun x => x.key = k).map Credit.bump).sum) :
    earned l k before = earned l' k before := by
  rw [earned, earned, hfirst, hsum]

lemma earned_congr_filter {before : Option ScoredCandidate}
    (h : l.filter (fun x => x.key = k) = l'.filter fun x => x.key = k) :
    earned l k before = earned l' k before := by
  refine earned_congr ?_ (by rw [h])
  rw [← List.head?_filter, h, List.head?_filter]

lemma resolveSymbol_some (h : resolveSymbol c o gid s = some row) :
    row ∈ c.currentSymbols gid ∧ isNamed s row = true :=
  List.mem_filter.mp (RowOrder.mem_arrange.mp (List.mem_of_head? h))

lemma resolveSymbol_eq_none_iff : resolveSymbol c o gid s = none ↔
    ∀ row ∈ c.currentSymbols gid, isNamed s row = false := by
  rw [resolveSymbol, List.head?_eq_none_iff, ← List.length_eq_zero_iff,
    ((o.resolved s).perm _).length_eq, List.length_eq_zero_iff, List.filter_eq_nil_iff]
  simp

/-- A known symbol is resolved in both runs or in none. -/
lemma resolveSymbol_cases (o o' : Orders) (c : Catalogue) (gid s : String) :
    resolveSymbol c o gid s = none ∧ resolveSymbol c o' gid s = none ∨
      ∃ r r', resolveSymbol c o gid s = some r ∧ resolveSymbol c o' gid s = some r' := by
  cases h : resolveSymbol c o gid s with
  | none =>
    rw [resolveSymbol_eq_none_iff] at h
    exact Or.inl ⟨rfl, resolveSymbol_eq_none_iff.mpr h⟩
  | some r =>
    cases h' : resolveSymbol c o' gid s with
    | none =>
      obtain ⟨hr, hnamed⟩ := resolveSymbol_some h
      have hnot := resolveSymbol_eq_none_iff.mp h' r hr
      exact absurd (hnamed.symm.trans hnot) (by simp)
    | some r' => exact Or.inr ⟨r, r', rfl, rfl⟩

lemma bump_symbolCredits (o o' : Orders) (h : IsUnambiguous c gid req) {symbols : List String}
    (hsub : ∀ s ∈ symbols, s ∈ req.knownSymbols) :
    ((symbolCredits c o gid symbols).filter fun x => x.key = k).map Credit.bump =
      ((symbolCredits c o' gid symbols).filter fun x => x.key = k).map Credit.bump := by
  induction symbols with
  | nil => rfl
  | cons s symbols ih =>
    have ih := ih fun t ht => hsub t (List.mem_cons_of_mem _ ht)
    rw [symbolCredits] at ih
    rw [symbolCredits, List.filterMap_cons, symbolCredits, List.filterMap_cons]
    rcases resolveSymbol_cases o o' c gid s with ⟨hr, hr'⟩ | ⟨r, r', hr, hr'⟩
    · rw [hr, hr']
      exact ih
    · obtain ⟨hmem, hnamed⟩ := resolveSymbol_some hr
      obtain ⟨hmem', hnamed'⟩ := resolveSymbol_some hr'
      have hsemantic := (h.known s (hsub s List.mem_cons_self) r hmem r' hmem' hnamed hnamed').1
      rw [hr, hr']
      simp only [Option.map_some, List.filter_cons, symbolCredit, hsemantic]
      split
      · rw [List.map_cons, List.map_cons]
        exact congrArg _ ih
      · exact ih

lemma find?_symbolCredits (o o' : Orders) (h : IsUnambiguous c gid req) (hk : ¬ IsKnownPath req k)
    {symbols : List String} (hsub : ∀ s ∈ symbols, s ∈ req.knownSymbols) :
    ((symbolCredits c o gid symbols).find? fun x => x.key = k).map Credit.candidate =
      ((symbolCredits c o' gid symbols).find? fun x => x.key = k).map Credit.candidate := by
  induction symbols with
  | nil => rfl
  | cons s symbols ih =>
    have ih := ih fun t ht => hsub t (List.mem_cons_of_mem _ ht)
    rw [symbolCredits] at ih
    rw [symbolCredits, List.filterMap_cons, symbolCredits, List.filterMap_cons]
    rcases resolveSymbol_cases o o' c gid s with ⟨hr, hr'⟩ | ⟨r, r', hr, hr'⟩
    · rw [hr, hr']
      exact ih
    · obtain ⟨hmem, hnamed⟩ := resolveSymbol_some hr
      obtain ⟨hmem', hnamed'⟩ := resolveSymbol_some hr'
      have hsame := (h.known s (hsub s List.mem_cons_self) r hmem r' hmem' hnamed hnamed').2
      rw [hr, hr']
      simp only [Option.map_some, List.find?_cons, symbolCredit]
      by_cases hs : s = k
      · obtain rfl := hs
        simp [hsame hk]
      · simp only [hs, decide_false]
        exact ih

lemma find?_symbolCredits_eq_none_iff {symbols : List String} :
    ((symbolCredits c o gid symbols).find? fun x => x.key = k) = none ↔
      (k ∈ symbols → ∀ r ∈ c.currentSymbols gid, isNamed k r = false) := by
  rw [List.find?_eq_none, ← resolveSymbol_eq_none_iff (o := o)]
  simp only [symbolCredits, List.mem_filterMap, Option.map_eq_some_iff, decide_eq_true_eq]
  constructor
  · intro h hk
    cases hr : resolveSymbol c o gid k with
    | none => rfl
    | some row => exact absurd rfl (h (symbolCredit k row) ⟨k, hk, row, hr, rfl⟩)
  · rintro h x ⟨s, hs, row, hr, rfl⟩ rfl
    exact absurd (hr.symm.trans (h hs)) (by simp)

/-- The credits of the mentions are those of the rows. -/
lemma find?_mentions {rows : List NamedSymbol} {x : Credit} {task : String}
    (h : (rows.flatMap (mentionCredits task)).find? (fun x => x.key = k) = some x) :
    ∃ r ∈ rows, firstCredit task k r = some x := by
  rw [List.find?_flatMap] at h
  exact List.exists_of_findSome?_eq_some h

/-! ## One map in all runs -/

lemma seedCandidates_congr (o o' : Orders) (h : IsUnambiguous c gid req) :
    seedCandidates c o gid req = seedCandidates c o' gid req := by
  refine SortedMap.ext_get fun k => ?_
  rw [get_seedCandidates, get_seedCandidates]
  have hmentions : List.Perm
      ((o.symbols.arrange (c.currentSymbols gid)).flatMap (mentionCredits req.task))
      ((o'.symbols.arrange (c.currentSymbols gid)).flatMap (mentionCredits req.task)) :=
    ((o.symbols.perm _).trans (o'.symbols.perm _).symm).flatMap_right _
  refine earned_congr ?_ ?_
  · simp only [credits, List.find?_append]
    cases hpath : (req.knownPaths.map pathCredit).find? fun x => x.key = k with
    | some x => rfl
    | none =>
      have hk : ¬ IsKnownPath req k := by
        intro hk
        obtain ⟨p, hp, rfl⟩ := List.mem_map.mp hk
        have hnot : ¬ (pathCredit p).key = keyForPath p := by
          simpa using List.find?_eq_none.mp hpath _ (List.mem_map_of_mem hp)
        exact hnot rfl
      have hsymbols := find?_symbolCredits o o' h hk fun s hs => hs
      rw [Option.none_or, Option.none_or]
      cases hsymbol : (symbolCredits c o gid req.knownSymbols).find? fun x => x.key = k with
      | some x =>
        rw [hsymbol] at hsymbols
        obtain ⟨x', hx', hcandidate⟩ := Option.map_eq_some_iff.mp hsymbols.symm
        rw [hx', Option.some_or, Option.some_or, Option.map_some, Option.map_some, hcandidate]
      | none =>
        rw [hsymbol] at hsymbols
        rw [Option.map_eq_none_iff.mp hsymbols.symm, Option.none_or, Option.none_or]
        have hunknown := find?_symbolCredits_eq_none_iff.mp hsymbol
        cases hx : ((o.symbols.arrange (c.currentSymbols gid)).flatMap
            (mentionCredits req.task)).find? fun x => x.key = k with
        | none =>
          rw [List.find?_eq_none] at hx
          rw [List.find?_eq_none.mpr fun x hmem => hx x (hmentions.mem_iff.mpr hmem)]
        | some x =>
          cases hx' : ((o'.symbols.arrange (c.currentSymbols gid)).flatMap
              (mentionCredits req.task)).find? fun x => x.key = k with
          | none =>
            have hnot := List.find?_eq_none.mp hx' x
              (hmentions.mem_iff.mp (List.mem_of_find?_eq_some hx))
            exact absurd (List.find?_some hx) hnot
          | some x' =>
            obtain ⟨r, hr, hfirst⟩ := find?_mentions hx
            obtain ⟨r', hr', hfirst'⟩ := find?_mentions hx'
            rw [Option.map_some, Option.map_some, h.mentioned k hk hunknown r
              (RowOrder.mem_arrange.mp hr) r' (RowOrder.mem_arrange.mp hr') x x' hfirst hfirst']
  · simp only [credits, List.filter_append, List.map_append, List.sum_append]
    rw [bump_symbolCredits o o' h fun s hs => hs,
      ((hmentions.filter _).map _).sum_eq]

lemma mem_seedPaths {p : String} :
    p ∈ seedPaths o m ↔ ∃ entry ∈ m.entries, entry.2.canonicalPath = p := by
  simp [seedPaths]

lemma mem_followed {rf : RelationshipFact} {seeds : List String} :
    rf ∈ followed c o gid seeds ↔ ∃ seed ∈ seeds, rf ∈ seedRelationships c gid seed := by
  simp [followed]

lemma mem_seedPaths_iff (o o' : Orders) {p : String} : p ∈ seedPaths o m ↔ p ∈ seedPaths o' m := by
  rw [mem_seedPaths, mem_seedPaths]

lemma mem_followed_iff (o o' : Orders) {rf : RelationshipFact} :
    rf ∈ followed c o gid (seedPaths o m) ↔ rf ∈ followed c o' gid (seedPaths o' m) := by
  simp only [mem_followed, mem_seedPaths]

/-- A path that is no seed is credited alike, whatever relationship leads to it first. -/
lemma map_hopCredit_find? (o o' : Orders) (h : IsUnambiguous c gid req) {t : String}
    (hm : m = seedCandidates c .given gid req) (ht : t ∉ seedPaths o m) :
    ((followed c o gid (seedPaths o m)).find? (leadsTo t)).map hopCredit =
      ((followed c o' gid (seedPaths o' m)).find? (leadsTo t)).map hopCredit := by
  cases hrf : (followed c o gid (seedPaths o m)).find? (leadsTo t) with
  | none =>
    rw [List.find?_eq_none] at hrf
    rw [List.find?_eq_none.mpr fun rf hmem => hrf rf ((mem_followed_iff o o').mpr hmem)]
  | some rf =>
    have hleads := List.find?_some hrf
    have hfollowed := List.mem_of_find?_eq_some hrf
    cases hrf' : (followed c o' gid (seedPaths o' m)).find? (leadsTo t) with
    | none =>
      rw [List.find?_eq_none] at hrf'
      exact absurd hleads (hrf' rf ((mem_followed_iff o o').mp hfollowed))
    | some rf' =>
      have hleads' := List.find?_some hrf'
      rw [mem_followed_iff o .given] at hfollowed
      have hfollowed' := (mem_followed_iff o' .given).mp (List.mem_of_find?_eq_some hrf')
      rw [mem_seedPaths_iff o .given] at ht
      subst hm
      obtain ⟨seed, hseed, hrel⟩ := mem_followed.mp hfollowed
      obtain ⟨seed', hseed', hrel'⟩ := mem_followed.mp hfollowed'
      have hbump := h.hop seed hseed seed' hseed' rf hrel rf' hrel' t ht hleads hleads'
      have htarget : rf.targetRefValue = t ∧ rf'.targetRefValue = t := by
        simp only [leadsTo, decide_eq_true_eq] at hleads hleads'
        exact ⟨hleads.2, hleads'.2⟩
      simp only [Option.map_some, hopCredit, htarget.1, htarget.2, hbump]

/-- A key that is none of a path has no credits of the hop. -/
lemma filter_hopCredits_eq_nil (hk : ∀ t, k ≠ keyForPath t) {seen : List String}
    {edges : List RelationshipFact} :
    (hopCredits seen edges).filter (fun x => x.key = k) = [] := by
  refine List.filter_eq_nil_iff.mpr fun x hx hkey => ?_
  obtain ⟨rf, -, rfl⟩ := mem_hopCredits hx
  exact hk rf.targetRefValue (of_decide_eq_true hkey).symm

/-- The credits of a hop are the same if all that leads to a path has the same bonus. -/
lemma expand_congr (o o' : Orders) (h : IsUnambiguous c gid req) :
    expand c o gid (seedCandidates c o gid req) =
      expand c o' gid (seedCandidates c o' gid req) := by
  refine SortedMap.ext_get fun k => ?_
  rw [get_expand, get_expand, seedCandidates_congr o .given h, seedCandidates_congr o' .given h]
  refine earned_congr_filter ?_
  by_cases hk : ∃ t, k = keyForPath t
  · obtain ⟨t, rfl⟩ := hk
    rw [filter_hopCredits, filter_hopCredits]
    simp only [mem_seedPaths_iff o' o]
    split
    next => rfl
    next hnot => rw [map_hopCredit_find? o o' h rfl hnot]
  · rw [filter_hopCredits_eq_nil (not_exists.mp hk), filter_hopCredits_eq_nil (not_exists.mp hk)]

lemma perm_ranked : List.Perm (ranked o m) m.values :=
  perm_orderBy.trans ((o.candidates.perm _).map _)

lemma candidates_congr (o o' : Orders) (h : IsUnambiguous c gid req) :
    candidates c o gid req = candidates c o' gid req := by
  rw [candidates, candidates, expand_congr o o' h]
  refine orderBy_eq_of_perm (((o.candidates.perm _).trans (o'.candidates.perm _).symm).map _) ?_
  have hmem : ∀ a, a ∈ (o.candidates.arrange
      (expand c o' gid (seedCandidates c o' gid req)).entries).map Prod.snd →
        a ∈ candidates c .given gid req := by
    intro a ha
    rw [candidates, expand_congr .given o' h]
    exact perm_ranked.mem_iff.mpr (((o.candidates.perm _).map _).mem_iff.mp ha)
  exact fun a ha b hb => h.ties a (hmem a ha) b (hmem b hb)

end Broker

end WorkspaceAtlas
