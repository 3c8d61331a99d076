/-
# What a packet depends on

The packets of a request are the same in all runs, whatever its mode and its budget, if and only
if every choice that a run makes is between equals.
-/
import WorkspaceAtlas.Broker.Unambiguous
import WorkspaceAtlas.Broker.Verified

namespace WorkspaceAtlas

open Relational Text

/-- The request with other bounds and in another mode. -/
def TaskRequest.within (req : TaskRequest) (mode : BrokerMode)
    (maxRecords maxSourceBytes maxTokenEstimate : ℤ) : TaskRequest :=
  { req with
    mode := mode
    maxRecords := maxRecords
    maxSourceBytes := maxSourceBytes
    maxTokenEstimate := maxTokenEstimate }

namespace Broker

/-- A packet without the time of its creation. -/
def undated (result : Except AtlasError ContextPacket) : Except AtlasError ContextPacket :=
  result.map fun p => { p with createdAt := 0 }

/-- In every mode, with every budget and over any files, all runs return the same packet. -/
def IsDetermined (H : Hasher) (c : Catalogue) (workspaceId : String) (req : TaskRequest) : Prop :=
  ∀ mode maxRecords maxSourceBytes maxTokenEstimate files o o' now now',
    undated (buildPacket H c o (fun _ => files) workspaceId
      (req.within mode maxRecords maxSourceBytes maxTokenEstimate) now) =
    undated (buildPacket H c o' (fun _ => files) workspaceId
      (req.within mode maxRecords maxSourceBytes maxTokenEstimate) now')

variable {H : Hasher} {c : Catalogue} {o o' : Orders} {disk : DiskHistory} {gid : String}
  {req : TaskRequest} {k s : String} {m : Scored} {n : ℕ}

/-! ## Equal choices -/

/-- All rows of a path have one digest. -/
lemma indexedHash_congr (o o' : Orders) {path : String} :
    indexedHash c o gid path = indexedHash c o' gid path := by
  have hrow : ∀ cf ∈ c.currentFileOf gid, ∃ gf ∈ c.generationFile, gf.generationId = gid ∧
      gf.canonicalPath = cf.canonicalPath ∧ gf.revisionId = cf.revisionId := by
    intro cf hcf
    rw [Catalogue.currentFileOf, List.mem_filter, Catalogue.currentFile, List.mem_flatMap] at hcf
    obtain ⟨⟨⟨w, g⟩, -, hcf⟩, hgid⟩ := hcf
    obtain ⟨gf, hgf, rfl⟩ := List.mem_map.mp hcf
    have hgid : gf.generationId = gid := of_decide_eq_true hgid
    exact ⟨gf, (List.mem_filter.mp hgf).1, hgid, rfl, rfl⟩
  have hsame : ∀ hash hash', IndexedAs c gid path hash → IndexedAs c gid path hash' →
      hash = hash' := by
    rintro _ _ ⟨cf, hcf, hpath, rfl⟩ ⟨cf', hcf', hpath', rfl⟩
    obtain ⟨gf, hgf, hgid, hgfpath, hrevision⟩ := hrow cf hcf
    obtain ⟨gf', hgf', hgid', hgfpath', hrevision'⟩ := hrow cf' hcf'
    obtain rfl : gf = gf' := Table.eq_of_clash hgf hgf' ⟨hgid.trans hgid'.symm,
      Or.inr ((hgfpath.trans hpath).trans (hgfpath'.trans hpath').symm)⟩
    rw [contentHashColumn, contentHashColumn, ← hrevision, ← hrevision']
  cases h : indexedHash c o gid path with
  | none => exact (indexedHash_eq_none_iff.mpr (indexedHash_eq_none_iff.mp h)).symm
  | some hash =>
    have hindexed := indexedAs_of_indexedHash h
    cases h' : indexedHash c o' gid path with
    | none => exact absurd hindexed (indexedHash_eq_none_iff.mp h' hash)
    | some hash' => rw [hsame hash hash' hindexed (indexedAs_of_indexedHash h')]

lemma considerAll_congr (o o' : Orders) {s : Selection} {rest : List ScoredCandidate} :
    considerAll H c o disk gid req n s rest = considerAll H c o' disk gid req n s rest := by
  induction rest generalizing n s with
  | nil => rfl
  | cons x rest ih =>
    have hround : consider H c o disk gid req n s x = consider H c o' disk gid req n s x := by
      rw [consider, consider, indexedHash_congr o o']
    rw [considerAll, considerAll, hround]
    cases consider H c o' disk gid req n s x with
    | error e => rfl
    | ok s' => exact ih

/-- The paths of the tests depend on the paths of the seeds only. -/
lemma tests_congr (o o' : Orders) :
    tests c o gid (seedPaths o m) = tests c o' gid (seedPaths o' m) := by
  refine SortedMap.sortedKeys_eq_iff.mpr fun p => ?_
  simp only [List.mem_flatMap, List.mem_map, RowOrder.mem_arrange, mem_seedPaths]

lemma buildPacket_congr (o o' : Orders) {workspaceId : String} {now now' : Timestamp}
    (hactive : activeGeneration? c workspaceId = some gid) (h : IsUnambiguous c gid req) :
    undated (buildPacket H c o disk workspaceId req now) =
      undated (buildPacket H c o' disk workspaceId req now') := by
  rw [buildPacket, buildPacket, hactive]
  dsimp only
  rw [candidates_congr o o' h, considerAll_congr o o']
  cases considerAll H c o' disk gid req 0 .start (candidates c o' gid req) with
  | error e => rfl
  | ok s =>
    have htests : tests c o gid (seedPaths o (seedCandidates c o gid req)) =
        tests c o' gid (seedPaths o' (seedCandidates c o' gid req)) := by
      rw [seedCandidates_congr o o' h]
      exact tests_congr o o'
    simp only [undated, packetOf, finalizePacketHash, Except.map, htests, candidates_congr o o' h]

/-- The conditions are about what is asked for only. -/
lemma isUnambiguous_within {mode : BrokerMode} {maxRecords maxSourceBytes maxTokenEstimate : ℤ}
    (h : IsUnambiguous c gid req) :
    IsUnambiguous c gid (req.within mode maxRecords maxSourceBytes maxTokenEstimate) :=
  ⟨h.known, h.mentioned, h.hop, h.ties⟩

/-! ## A budget for everything -/

lemma le_two_mul_toDouble (n : ℕ) : n ≤ 2 * toDouble n := by
  have hulp : n ≤ 2 * (n / 2 ^ (n.log2 - 52) * 2 ^ (n.log2 - 52)) := by
    rcases Nat.lt_or_ge 52 n.log2 with hlog | hlog
    · -- the last place is at most half of the number
      have hpow : 2 * 2 ^ (n.log2 - 52) ≤ 2 ^ n.log2 := by
        rw [← pow_succ']
        exact Nat.pow_le_pow_right (by omega) (by omega)
      have hlog2 : 2 ^ n.log2 ≤ n := Nat.log2_self_le (by rintro rfl; simp at hlog)
      have hmod := Nat.mod_lt n (Nat.two_pow_pos (n.log2 - 52))
      have hdiv := Nat.div_add_mod' n (2 ^ (n.log2 - 52))
      omega
    · rw [Nat.sub_eq_zero_of_le hlog, pow_zero, Nat.div_one]
      omega
  have hmul : (n / 2 ^ (n.log2 - 52) + 1) * 2 ^ (n.log2 - 52) =
      n / 2 ^ (n.log2 - 52) * 2 ^ (n.log2 - 52) + 2 ^ (n.log2 - 52) := by ring
  rw [toDouble]
  split
  · exact hulp
  · omega

/-- Any number of records fits a budget that is large enough. -/
lemma exists_le_usableRecords (n : ℕ) : ∃ maxRecords, (n : ℤ) ≤ usableRecords maxRecords := by
  refine ⟨((8 * n : ℕ) : ℤ), ?_⟩
  rcases Nat.eq_zero_or_pos n with rfl | hn
  · simp [usableRecords]
  · have hfirst := le_two_mul_toDouble (8 * n)
    have hsign : ((8 * n : ℕ) : ℤ).sign = 1 := Int.sign_eq_one_of_pos (by omega)
    rw [usableRecords, hsign, one_mul, Int.natAbs_natCast]
    generalize toDouble (8 * n) = tenth at *
    have hsecond := le_two_mul_toDouble (tenth * 8106479329266893)
    generalize toDouble (tenth * 8106479329266893) = product at *
    rw [Int.le_ediv_iff_mul_le (by positivity)]
    omega

/-- In a map, all candidates are selected while there is room. -/
lemma considerAll_map (req : TaskRequest) {s : Selection} {rest : List ScoredCandidate}
    (hmode : includesExactSource req.mode = false)
    (hroom : ((s.selected.length + rest.length : ℕ) : ℤ) ≤ usableRecords req.maxRecords) :
    considerAll H c o disk gid req n s rest = .ok { s with selected := s.selected ++ rest } := by
  induction rest generalizing n s with
  | nil => rw [List.append_nil]; rfl
  | cons x rest ih =>
    rw [List.length_cons] at hroom
    have hlt : ¬ usableRecords req.maxRecords ≤ s.selected.length := by omega
    rw [considerAll, consider, if_neg hlt, hmode]
    have hselect : ((s.select x).selected.length + rest.length : ℕ) ≤
        usableRecords req.maxRecords := by
      rw [Selection.select, List.length_append, List.length_singleton]
      omega
    simp only [Bool.false_eq_true, if_false]
    rw [ih hselect, Selection.select, List.append_assoc]
    rfl

/-- Packets that are the same for every budget show the same candidates. -/
lemma candidates_of_isDetermined {workspaceId : String}
    (hactive : activeGeneration? c workspaceId = some gid)
    (h : IsDetermined H c workspaceId req) (o o' : Orders) :
    candidates c o gid req = candidates c o' gid req := by
  obtain ⟨maxRecords, hmax⟩ := exists_le_usableRecords
    ((candidates c o gid req).length + (candidates c o' gid req).length)
  have hall : ∀ o'' : Orders, (candidates c o'' gid req).length ≤
      (candidates c o gid req).length + (candidates c o' gid req).length →
        ∃ p, buildPacket H c o'' (fun _ _ => none) workspaceId
          (req.within .map maxRecords 0 0) 0 = .ok p ∧
            p.primaryTargets = candidates c o'' gid req := by
    intro o'' hle
    have hroom : ((Selection.start.selected.length +
        (candidates c o'' gid req).length : ℕ) : ℤ) ≤ usableRecords maxRecords := by
      refine le_trans ?_ hmax
      rw [Selection.start, List.length_nil]
      exact_mod_cast (Nat.zero_add _).trans_le hle
    exact ⟨_, buildPacket_eq 0 hactive
      (considerAll_map (req.within .map maxRecords 0 0) rfl hroom), rfl⟩
  obtain ⟨p, hp, htargets⟩ := hall o (by omega)
  obtain ⟨p', hp', htargets'⟩ := hall o' (by omega)
  have hsame := h .map maxRecords 0 0 (fun _ => none) o o' 0 0
  rw [hp, hp'] at hsame
  have heq := congrArg ContextPacket.primaryTargets (Except.ok.inj hsame)
  rw [← htargets, ← htargets']
  exact heq

/-! ## Runs that choose -/

/-- The order that meets a row first. -/
def RowOrder.front {α : Type*} [DecidableEq α] (a : α) : RowOrder α where
  arrange rows := if a ∈ rows then a :: rows.erase a else rows
  perm rows := by
    split
    next h => exact (List.perm_cons_erase h).symm
    next => exact List.Perm.refl _

lemma arrange_front {α : Type*} [DecidableEq α] {a : α} {rows : List α} (h : a ∈ rows) :
    (RowOrder.front a).arrange rows = a :: rows.erase a := if_pos h

/-- The run that resolves a symbol to a row. -/
def Orders.resolving (s : String) (row : NamedSymbol) : Orders :=
  { Orders.given with resolved := fun t => if t = s then RowOrder.front row else .given }

/-- The run that meets a symbol first. -/
def Orders.meeting (row : NamedSymbol) : Orders :=
  { Orders.given with symbols := RowOrder.front row }

/-- The run that follows a relationship of a seed first. -/
def Orders.following (entry : String × ScoredCandidate) (rf : RelationshipFact) : Orders :=
  { Orders.given with
    seeds := RowOrder.front entry
    relationships := fun _ => RowOrder.front rf }

/-- The run that lists the candidates from the last to the first. -/
def Orders.reversing : Orders := { Orders.given with candidates := .reversed }

section Choices

variable {x x' : Credit} {r r' : NamedSymbol}

lemma find?_pathCredits (hk : ¬ IsKnownPath req k) :
    (req.knownPaths.map pathCredit).find? (fun x => x.key = k) = none := by
  refine List.find?_eq_none.mpr fun x hx hkey => hk ?_
  obtain ⟨p, hp, rfl⟩ := List.mem_map.mp hx
  exact of_decide_eq_true hkey ▸ List.mem_map_of_mem hp

lemma resolveSymbol_resolving (hr : r ∈ c.currentSymbols gid) (hnamed : isNamed s r = true) :
    resolveSymbol c (Orders.resolving s r) gid s = some r := by
  have horder : (Orders.resolving s r).resolved s = RowOrder.front r := if_pos rfl
  rw [resolveSymbol, horder, arrange_front (List.mem_filter.mpr ⟨hr, hnamed⟩), List.head?_cons]

/-- All credits of a known symbol are alike. -/
lemma filter_symbolCredits (h : resolveSymbol c o gid s = some r) {symbols : List String} :
    (symbolCredits c o gid symbols).filter (fun x => x.key = s) =
      List.replicate (symbols.count s) (symbolCredit s r) := by
  induction symbols with
  | nil => rfl
  | cons t symbols ih =>
    rw [symbolCredits] at ih ⊢
    rw [List.filterMap_cons, List.count_cons]
    by_cases hs : t = s
    · obtain rfl := hs
      have hkey : (symbolCredit t r).key = t := rfl
      rw [h, Option.map_some, List.filter_cons, if_pos (decide_eq_true hkey), ih, if_pos (by simp),
        List.replicate_succ]
    · rw [if_neg (by simpa using hs), Nat.add_zero]
      cases resolveSymbol c o gid t with
      | none => exact ih
      | some r =>
        have hkey : ¬ (symbolCredit t r).key = s := hs
        rw [Option.map_some, List.filter_cons, if_neg (by simpa using hkey), ih]

lemma score_of_firstCredit {task : String} (h : firstCredit task k r = some x) :
    { x.candidate with score := 0 } = x.candidate := by
  have hx := List.mem_of_find?_eq_some h
  rw [mentionCredits, List.mem_append] at hx
  rcases hx with hx | hx
  · split at hx
    next => obtain rfl := List.mem_singleton.mp hx; rfl
    next => exact absurd hx List.not_mem_nil
  · split at hx
    next => obtain rfl := List.mem_singleton.mp hx; rfl
    next => exact absurd hx List.not_mem_nil

variable (hall : ∀ o o' : Orders, candidates c o gid req = candidates c o' gid req)

include hall

/-- Runs that rank the same candidates have the same map. -/
lemma expand_eq_of_candidates (o o' : Orders) : expand c o gid (seedCandidates c o gid req) =
    expand c o' gid (seedCandidates c o' gid req) := by
  refine eq_of_perm_values isKeyed_expand isKeyed_expand ?_
  have hranked : List.Perm (candidates c o gid req)
      (expand c o gid (seedCandidates c o gid req)).values := perm_ranked
  have hranked' : List.Perm (candidates c o' gid req)
      (expand c o' gid (seedCandidates c o' gid req)).values := perm_ranked
  exact hranked.symm.trans ((hall o o') ▸ hranked')

/-- The first credit of a key makes the same candidate. -/
lemma candidate_eq_of_find? (hx : (credits c o gid req).find? (fun x => x.key = k) = some x)
    (hx' : (credits c o' gid req).find? (fun x => x.key = k) = some x') :
    { x.candidate with score := 0 } = { x'.candidate with score := 0 } := by
  have hget : ∀ (o : Orders) (x : Credit),
      (credits c o gid req).find? (fun x => x.key = k) = some x →
        ((expand c o gid (seedCandidates c o gid req)).get k).map
          (fun v => { v with score := 0 }) = some { x.candidate with score := 0 } := by
    intro o x hx
    rw [get_expand, get_seedCandidates, earned, earned, hx]
    rfl
  have hleft := hget o x hx
  rw [expand_eq_of_candidates hall o o', hget o' x' hx'] at hleft
  exact (Option.some.inj hleft).symm

/-- The bonuses of a known path add up to the same score. -/
lemma sum_eq_of_isKnownPath (o o' : Orders) (hk : IsKnownPath req k) :
    (((credits c o gid req).filter fun x => x.key = k).map Credit.bump).sum =
      (((credits c o' gid req).filter fun x => x.key = k).map Credit.bump).sum := by
  obtain ⟨p, hp, rfl⟩ := List.mem_map.mp hk
  have hget : ∀ o : Orders,
      ((expand c o gid (seedCandidates c o gid req)).get (keyForPath p)).map
        ScoredCandidate.score = some (((credits c o gid req).filter
          fun x => x.key = keyForPath p).map Credit.bump).sum := by
    intro o
    obtain ⟨x, hx, hcandidate⟩ : ∃ x, (credits c o gid req).find?
        (fun x => x.key = keyForPath p) = some x ∧ x.candidate = pathCandidate p 0 := by
      obtain ⟨x, hx⟩ : ∃ x, (req.knownPaths.map pathCredit).find?
          (fun x => x.key = keyForPath p) = some x := by
        refine Option.isSome_iff_exists.mp (List.find?_isSome.mpr ?_)
        exact ⟨pathCredit p, List.mem_map_of_mem hp, decide_eq_true rfl⟩
      refine ⟨x, by rw [credits, List.find?_append, hx, Option.some_or], ?_⟩
      obtain ⟨q, -, rfl⟩ := List.mem_map.mp (List.mem_of_find?_eq_some hx)
      have hkey : (pathCredit q).key = keyForPath p := by simpa using List.find?_some hx
      rw [← keyForPath_injective hkey]
      rfl
    have hseed : (seedCandidates c o gid req).get (keyForPath p) =
        some (ScoredCandidate.bumped (((credits c o gid req).filter
          fun x => x.key = keyForPath p).map Credit.bump).sum (pathCandidate p 0)) := by
      rw [get_seedCandidates, earned, hx, ← hcandidate]
      rfl
    have hmem : p ∈ seedPaths o (seedCandidates c o gid req) :=
      mem_seedPaths.mpr ⟨_, SortedMap.get_eq_some_iff.mp hseed, rfl⟩
    rw [get_expand, earned, filter_hopCredits, if_pos hmem, hseed]
    simp [ScoredCandidate.bumped, pathCandidate]
  have hleft := hget o
  rw [expand_eq_of_candidates hall o o', hget o'] at hleft
  exact (Option.some.inj hleft).symm

lemma known_of_candidates (hs : s ∈ req.knownSymbols) (hr : r ∈ c.currentSymbols gid)
    (hr' : r' ∈ c.currentSymbols gid) (hnamed : isNamed s r = true)
    (hnamed' : isNamed s r' = true) : isSemantic r = isSemantic r' ∧
      (¬ IsKnownPath req s → symbolCandidate s r = symbolCandidate s r') := by
  have hresolve := resolveSymbol_resolving hr hnamed
  have hresolve' := resolveSymbol_resolving hr' hnamed'
  by_cases hk : IsKnownPath req s
  · -- only the bonus of the symbol counts
    refine ⟨?_, fun hnot => absurd hk hnot⟩
    have hsum := sum_eq_of_isKnownPath hall (Orders.resolving s r) (Orders.resolving s r') hk
    simp only [credits, List.filter_append, List.map_append, List.sum_append,
      filter_symbolCredits hresolve, filter_symbolCredits hresolve'] at hsum
    have hbumps : req.knownSymbols.count s * (symbolCredit s r).bump =
        req.knownSymbols.count s * (symbolCredit s r').bump := by
      simpa [Orders.resolving] using hsum
    have hbump := Nat.eq_of_mul_eq_mul_left (List.count_pos_iff.mpr hs) hbumps
    revert hbump
    rw [symbolCredit, symbolCredit]
    cases isSemantic r <;> cases isSemantic r' <;> simp
  · have hfind : ∀ r, resolveSymbol c (Orders.resolving s r) gid s = some r →
        (credits c (Orders.resolving s r) gid req).find? (fun x => x.key = s) =
          some (symbolCredit s r) := by
      intro r hr
      have hfilter : (symbolCredits c (Orders.resolving s r) gid req.knownSymbols).filter
          (fun x => x.key = s) = _ := filter_symbolCredits hr
      rw [credits, List.find?_append, find?_pathCredits hk, Option.none_or, List.find?_append,
        ← List.head?_filter, hfilter, List.head?_replicate,
        if_neg (List.count_pos_iff.mpr hs).ne', Option.some_or]
    have hsame := candidate_eq_of_find? hall (hfind r hresolve) (hfind r' hresolve')
    exact ⟨congrArg ScoredCandidate.preferredSemantic hsame, fun _ => hsame⟩

lemma mentioned_of_candidates (hk : ¬ IsKnownPath req k)
    (hunknown : k ∈ req.knownSymbols → ∀ r ∈ c.currentSymbols gid, isNamed k r = false)
    (hr : r ∈ c.currentSymbols gid) (hr' : r' ∈ c.currentSymbols gid)
    (hx : firstCredit req.task k r = some x) (hx' : firstCredit req.task k r' = some x') :
    x.candidate = x'.candidate := by
  have hfind : ∀ r ∈ c.currentSymbols gid, ∀ x, firstCredit req.task k r = some x →
      (credits c (Orders.meeting r) gid req).find? (fun x => x.key = k) = some x := by
    intro r hr x hx
    rw [credits, List.find?_append, find?_pathCredits hk, Option.none_or, List.find?_append,
      find?_symbolCredits_eq_none_iff.mpr hunknown, Option.none_or, Orders.meeting,
      arrange_front hr, List.flatMap_cons, List.find?_append]
    rw [firstCredit] at hx
    rw [hx, Option.some_or]
  have hsame := candidate_eq_of_find? hall (hfind r hr x hx) (hfind r' hr' x' hx')
  rwa [score_of_firstCredit hx, score_of_firstCredit hx'] at hsame

lemma hop_of_candidates {seed seed' t : String} {rf rf' : RelationshipFact}
    (hseed : seed ∈ seedPaths .given (seedCandidates c .given gid req))
    (hseed' : seed' ∈ seedPaths .given (seedCandidates c .given gid req))
    (hrf : rf ∈ seedRelationships c gid seed) (hrf' : rf' ∈ seedRelationships c gid seed')
    (ht : t ∉ seedPaths .given (seedCandidates c .given gid req))
    (hleads : leadsTo t rf = true) (hleads' : leadsTo t rf' = true) :
    hopBump rf = hopBump rf' := by
  have hget : ∀ seed ∈ seedPaths .given (seedCandidates c .given gid req),
      ∀ rf ∈ seedRelationships c gid seed, leadsTo t rf = true → ∃ o : Orders,
        (expand c o gid (seedCandidates c o gid req)).get (keyForPath t) =
          earned [hopCredit rf] (keyForPath t)
            ((seedCandidates c .given gid req).get (keyForPath t)) := by
    intro seed hseed rf hrf hleads
    obtain ⟨entry, hentry, rfl⟩ := mem_seedPaths.mp hseed
    refine ⟨Orders.following entry rf, ?_⟩
    have hsame : seedCandidates c (Orders.following entry rf) gid req =
        seedCandidates c .given gid req := rfl
    have htarget : rf.targetRefValue = t := by
      rw [leadsTo, decide_eq_true_eq] at hleads
      exact hleads.2
    -- the first relationship that is followed leads to the path
    have hfollowed : (followed c (Orders.following entry rf) gid (seedPaths
        (Orders.following entry rf) (seedCandidates c .given gid req))).find? (leadsTo t) =
          some rf := by
      obtain ⟨rest, hseeds⟩ : ∃ rest, seedPaths (Orders.following entry rf)
          (seedCandidates c .given gid req) = entry.2.canonicalPath :: rest := by
        rw [seedPaths, Orders.following, arrange_front hentry, List.map_cons]
        exact ⟨_, rfl⟩
      rw [hseeds, followed, List.flatMap_cons, Orders.following, arrange_front hrf,
        List.cons_append, List.find?_cons, hleads]
    rw [get_expand, hsame]
    refine earned_congr_filter ?_
    rw [filter_hopCredits, if_neg fun h => ht ((mem_seedPaths_iff _ _).mp h), hfollowed]
    simp [hopCredit, htarget]
  obtain ⟨o, ho⟩ := hget seed hseed rf hrf hleads
  obtain ⟨o', ho'⟩ := hget seed' hseed' rf' hrf' hleads'
  have htarget : rf.targetRefValue = t ∧ rf'.targetRefValue = t := by
    simp only [leadsTo, decide_eq_true_eq] at hleads hleads'
    exact ⟨hleads.2, hleads'.2⟩
  rw [expand_eq_of_candidates hall o o', ho'] at ho
  have hscore := congrArg (Option.map ScoredCandidate.score) ho
  rw [earned, earned] at hscore
  cases hbefore : (seedCandidates c .given gid req).get (keyForPath t) with
  | none =>
    rw [hbefore] at hscore
    simpa [hopCredit, htarget, ScoredCandidate.bumped, eq_comm] using hscore
  | some v =>
    rw [hbefore] at hscore
    simpa [hopCredit, htarget, ScoredCandidate.bumped, eq_comm] using hscore

lemma ties_of_candidates {a b : ScoredCandidate} (ha : a ∈ candidates c .given gid req)
    (hb : b ∈ candidates c .given gid req) (hkey : rankKey a = rankKey b) : a = b := by
  have hvalues : (expand c .given gid (seedCandidates c .given gid req)).values.Nodup := by
    refine List.Nodup.of_map keyOf ?_
    have hkeys := SortedMap.nodup_keys (expand c .given gid (seedCandidates c .given gid req))
    rw [SortedMap.values, List.map_map]
    rwa [SortedMap.keys, ← List.map_congr_left isKeyed_expand] at hkeys
  -- the candidates of the rank stand in the order of the entries, and reversed in the other run
  have hties : ∀ l : List ScoredCandidate, (orderBy rankKey l).filter
      (fun v => rankKey v = rankKey a) = l.filter fun v => rankKey v = rankKey a := by
    intro l
    rw [filter_orderBy]
    exact orderBy_eq_self fun b hb => of_decide_eq_true (List.mem_filter.mp hb).2
  have hreverse := hall .given Orders.reversing
  have hfilter := congrArg (List.filter fun v => rankKey v = rankKey a) hreverse
  have hsame : expand c Orders.reversing gid (seedCandidates c Orders.reversing gid req) =
      expand c .given gid (seedCandidates c .given gid req) := rfl
  rw [candidates, candidates, ranked, ranked, hties, hties, hsame] at hfilter
  have hrev : ((expand c .given gid (seedCandidates c .given gid req)).entries.reverse.map
      Prod.snd) = (expand c .given gid (seedCandidates c .given gid req)).values.reverse :=
    List.map_reverse
  refine eq_of_eq_reverse (hvalues.filter fun v => rankKey v = rankKey a) ?_ ?_ ?_
  · rw [← List.filter_reverse, ← hrev]
    exact hfilter
  · exact List.mem_filter.mpr ⟨perm_ranked.mem_iff.mp ha, decide_eq_true rfl⟩
  · exact List.mem_filter.mpr ⟨perm_ranked.mem_iff.mp hb, decide_eq_true hkey.symm⟩

end Choices

/-- Two files that lead to the same path, one by a call and one by an import. -/
def sharedNeighbour : Catalogue :=
  { oneFile with
    fileRevision := (Table.empty.insertOrIgnore
      ⟨"ra", "a", "", 1, .source, none, false, false, 0⟩).insertOrIgnore
        ⟨"rb", "b", "", 1, .source, none, false, false, 0⟩
    generationFile := (Table.empty.insertOrIgnore
      ⟨"g", "a", some "ra", "a.ts", .present, none, none, none, none⟩).insertOrIgnore
        ⟨"g", "b", some "rb", "b.ts", .present, none, none, none, none⟩
    facts := { FactTables.empty with
      relationshipFact := (Table.empty.insertOrIgnore
        ⟨"r₁", "ea", "ra", .calls, .path, "a.ts", .path, "t.ts", [], .exact, 1, "",
          []⟩).insertOrIgnore
          ⟨"r₂", "eb", "rb", .imports, .path, "b.ts", .path, "t.ts", [], .exact, 1, "", []⟩ } }

/-- The request for the two files. -/
def sharedNeighbourRequest : TaskRequest := ⟨"", .map, ["a.ts", "b.ts"], [], 10, 100, 100⟩

end Broker

end WorkspaceAtlas
