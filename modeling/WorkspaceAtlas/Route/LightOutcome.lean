/-
# What LIGHT concludes

The outcome of every requested capability once the reads of `dispatch_real_light` have succeeded:
which sources are verified, what the rows of the targets leave open, and that the capabilities
reported satisfied and the deficits account for each requested capability once.
-/
import WorkspaceAtlas.Route.Acceptance
import WorkspaceAtlas.Route.LightRows

namespace WorkspaceAtlas.ContextRoute

open Relational Transition

/-- The observation of a source that is the one that was indexed. -/
def CatalogueLightSourceReference.Verified (o : CatalogueLightSourceReference) : Prop :=
  o.status = "verified" ∧ o.indexedHash.isSome = true ∧ o.indexedHash = o.observedHash

namespace LightContext

variable {x : LightContext} {decision : ContextRouteDecision} {gid : String}
  {observations : List CatalogueLightSourceReference} {projections : List LightQueryProjection}
  {capability : RequiredCapability} {reason : CapabilityDeficitReason}

/-! ## Sources -/

/-- The path is a file of the generation whose bytes have the digest that was indexed. -/
def IsVerified (x : LightContext) (gid path : String) : Prop :=
  (x.byteSizeOf gid path).isSome ∧ ∃ cf indexed bytes,
    ((x.store.catalogue.currentFileOf gid).find? fun cf => cf.canonicalPath = path) = some cf ∧
      contentHashOf x.store cf = some indexed ∧ x.live path = .read bytes ∧
        contentHashOfBytes x.hasher bytes = indexed

/-- The bytes of some paths, as they were indexed. -/
def bytesOf (x : LightContext) (gid : String) (paths : List String) : ℕ :=
  (paths.map fun path => (x.byteSizeOf gid path).getD 0).sum

/-- There are paths, all of them are verified and together they are within the budget. -/
structure SourcesVerified (x : LightContext) (gid : String) : Prop where
  named : x.targets.seedPaths ≠ []
  each : ∀ path ∈ x.targets.seedPaths, x.IsVerified gid path
  bounded : x.bytesOf gid x.targets.seedPaths ≤ maxSourceBytes

/-- What the loop over the paths has observed. -/
structure Scanned (x : LightContext) (gid : String) (done : List String)
    (scan : ℕ × List CatalogueLightSourceReference) : Prop where
  length : scan.2.length = done.length
  verified : (∀ o ∈ scan.2, o.Verified) ↔
    (∀ path ∈ done, x.IsVerified gid path) ∧ x.bytesOf gid done ≤ maxSourceBytes
  scheduled : (∀ o ∈ scan.2, o.Verified) → scan.1 = x.bytesOf gid done

/-- A source is observed as verified if and only if it is. -/
lemma verified_iff {path : String} {o : CatalogueLightSourceReference}
    (hsize : (x.byteSizeOf gid path).isSome)
    (h : x.verifyExactSourceAtGeneration gid path = .ok o) :
    o.Verified ↔ x.IsVerified gid path := by
  rw [verifyExactSourceAtGeneration] at h
  rw [IsVerified, and_iff_right hsize]
  cases hfind : (x.store.catalogue.currentFileOf gid).find? fun cf => cf.canonicalPath = path with
  | none =>
    rw [hfind] at h
    obtain rfl := Except.ok.inj h
    simp [CatalogueLightSourceReference.Verified]
  | some cf =>
    rw [hfind] at h
    simp only at h
    cases hhash : contentHashOf x.store cf with
    | none => simp [hhash] at h
    | some indexed =>
      rw [hhash] at h
      cases hlive : x.live path with
      | unreadable =>
        rw [hlive] at h
        obtain rfl := Except.ok.inj h
        simp [CatalogueLightSourceReference.Verified]
      | moved bytes =>
        rw [hlive] at h
        obtain rfl := Except.ok.inj h
        simp [CatalogueLightSourceReference.Verified]
      | read bytes =>
        rw [hlive] at h
        obtain rfl := Except.ok.inj h
        by_cases hsame : contentHashOfBytes x.hasher bytes = indexed
        · simp [CatalogueLightSourceReference.Verified, hsame, hhash]
        · simp [CatalogueLightSourceReference.Verified, hsame, hhash, Ne.symm hsame]

/-- One more observation, of a source that is verified if it fits the budget. -/
lemma Scanned.snoc {done : List String} {path : String}
    {scan : ℕ × List CatalogueLightSourceReference} {o : CatalogueLightSourceReference} {n : ℕ}
    (h : Scanned x gid done scan)
    (hverified : (∀ o ∈ scan.2, o.Verified) →
      (o.Verified ↔ x.IsVerified gid path ∧ x.bytesOf gid (done ++ [path]) ≤ maxSourceBytes))
    (hn : (∀ o ∈ scan.2, o.Verified) → o.Verified → n = x.bytesOf gid (done ++ [path])) :
    Scanned x gid (done ++ [path]) (n, scan.2 ++ [o]) where
  length := by simp [h.length]
  verified := by
    have hle : x.bytesOf gid done ≤ x.bytesOf gid (done ++ [path]) := by simp [bytesOf]
    simp only [List.forall_mem_append, List.forall_mem_singleton]
    constructor
    · rintro ⟨hold, ho⟩
      obtain ⟨hpath, hbytes⟩ := (hverified hold).mp ho
      exact ⟨⟨(h.verified.mp hold).1, hpath⟩, hbytes⟩
    · rintro ⟨⟨hdone, hpath⟩, hbytes⟩
      have hold := h.verified.mpr ⟨hdone, hle.trans hbytes⟩
      exact ⟨hold, (hverified hold).mpr ⟨hpath, hbytes⟩⟩
  scheduled := by
    intro hall
    simp only [List.forall_mem_append, List.forall_mem_singleton] at hall
    exact hn hall.1 hall.2

/-- One pass of the loop over the paths. -/
lemma Scanned.step {done : List String} {path : String}
    {scan scan' : ℕ × List CatalogueLightSourceReference} (h : Scanned x gid done scan)
    (hok : x.observeSource gid scan path = .ok scan') : Scanned x gid (done ++ [path]) scan' := by
  have hbytes : x.bytesOf gid (done ++ [path]) =
      x.bytesOf gid done + (x.byteSizeOf gid path).getD 0 := by
    simp [bytesOf]
  have hunread : ∀ status : String, status ≠ "verified" →
      ¬ CatalogueLightSourceReference.Verified ⟨path, none, none, status⟩ :=
    fun status hne hv => hne hv.1
  rw [observeSource] at hok
  cases hsize : x.byteSizeOf gid path with
  | none =>
    rw [hsize] at hok
    obtain rfl := Except.ok.inj hok
    have hnot : ¬ x.IsVerified gid path := by
      rintro ⟨hsome, -⟩
      simp [hsize] at hsome
    refine h.snoc (fun _ => ?_) fun _ hv => absurd hv (hunread _ (by decide))
    exact iff_of_false (hunread _ (by decide)) fun hv => hnot hv.1
  | some byteSize =>
    rw [hsize] at hok hbytes
    simp only [Option.getD_some] at hok hbytes
    by_cases hfits : scan.1 + byteSize ≤ maxSourceBytes
    · rw [if_pos hfits] at hok
      obtain ⟨o, ho, hreturned⟩ := bind_ok.mp hok
      obtain rfl := Except.ok.inj hreturned
      refine h.snoc (fun hold => ?_) fun hold _ => by rw [hbytes, h.scheduled hold]
      rw [verified_iff (by simp [hsize]) ho, hbytes, ← h.scheduled hold]
      exact (and_iff_left hfits).symm
    · rw [if_neg hfits] at hok
      obtain rfl := Except.ok.inj hok
      refine h.snoc (fun hold => ?_) fun _ hv => absurd hv (hunread _ (by decide))
      refine iff_of_false (hunread _ (by decide)) fun hv => hfits ?_
      rw [h.scheduled hold, ← hbytes]
      exact hv.2

/-- What is concluded from the observations: nothing is left open if and only if every source is
verified. -/
lemma sourceOutcome_eq_none (hlength : observations.length = x.targets.seedPaths.length) :
    x.sourceOutcome observations = none ↔
      x.targets.seedPaths ≠ [] ∧ ∀ o ∈ observations, o.Verified := by
  simp only [sourceOutcome]
  split
  · rename_i h
    refine iff_of_true rfl ⟨h.1, fun o ho => ?_⟩
    have hcount := h.2.1
    rw [← hlength, List.countP_eq_length] at hcount
    simpa [CatalogueLightSourceReference.Verified] using hcount o ho
  · rename_i h
    refine iff_of_false (by split_ifs <;> simp) fun hall => h ⟨hall.1, ?_, ?_, ?_, ?_⟩
    · rw [← hlength, List.countP_eq_length]
      exact fun o ho => by simpa [CatalogueLightSourceReference.Verified] using hall.2 o ho
    all_goals
      simp only [List.any_eq_true, decide_eq_true_eq, not_exists, not_and]
      intro o ho
      simp [(hall.2 o ho).1]

/-- A source that is not verified is out of reach for LIGHT. -/
lemma isUnavailable_of_sourceOutcome (h : x.sourceOutcome observations = some reason) :
    (RouteDeficit.capability capability reason).isUnavailable := by
  simp only [sourceOutcome] at h
  split_ifs at h <;> obtain rfl := Option.some.inj h <;> rfl

/-! ## What was found -/

/-- The reads of an attempt succeed. -/
structure ReadsSucceed (x : LightContext) (decision : ContextRouteDecision) (gid : String) :
    Prop where
  query : x.queryInvoked decision → ∀ t ∈ x.targets.all.take maxQueryTargets,
    ∃ p, boundedQueryProjection x.store gid t.1 x.workspaceId t.2 (included decision) = .ok p
  source : x.sourceInvoked decision →
    ∃ scan, x.targets.seedPaths.foldlM (x.observeSource gid) (0, []) = .ok scan

/-- The targets that are queried. -/
def queried (x : LightContext) (decision : ContextRouteDecision) : List (String × Bool) :=
  if x.queryInvoked decision then x.targets.all.take maxQueryTargets else []

/-- The rows of the targets that are queried. -/
def found (x : LightContext) (decision : ContextRouteDecision) (gid : String) :
    List LightQueryProjection :=
  (x.queried decision).map (projected x.store gid x.workspaceId (included decision))

/-- A validated decision pins both operations. -/
lemma lightOperations_eq {H : Hasher} (hd : decision.validate H = .ok ()) :
    decision.request.lightOperations = expectedLightOperations := by
  have hreq := validateRequest_of_validate hd
  simp only [validateRequest, check_bind_eq_ok] at hreq
  obtain ⟨-, -, -, -, -, -, -, -, hrest⟩ := hreq
  split at hrest <;> simp only [check_bind_eq_ok, ensure_eq_ok] at hrest
  · exact hrest.2.2.2
  · exact hrest.2.2.2

lemma queryProjections_eq (h : x.ReadsSucceed decision gid) :
    x.queryProjections decision expectedLightOperations gid = .ok (x.found decision gid) := by
  rw [queryProjections, found, queried]
  by_cases hinvoked : x.queryInvoked decision = true
  · rw [if_pos hinvoked, if_pos hinvoked]
    obtain ⟨ps, hps⟩ := mapM_total (h.query hinvoked)
    refine hps.trans (congrArg Except.ok ?_)
    exact eq_map_of_mapM (fun t p hp => projected_of_ok hp) hps
  · rw [if_neg hinvoked, if_neg hinvoked]
    rfl

/-- The observations of an attempt. -/
structure Observed (x : LightContext) (decision : ContextRouteDecision) (gid : String)
    (observations : List CatalogueLightSourceReference) : Prop where
  length : observations.length =
    if x.sourceInvoked decision then x.targets.seedPaths.length else 0
  verified : x.sourceInvoked decision →
    (x.sourceOutcome observations = none ↔ x.SourcesVerified gid)

lemma exists_sourceObservations (h : x.ReadsSucceed decision gid) :
    ∃ observations, x.sourceObservations decision expectedLightOperations gid =
      .ok observations ∧ x.Observed decision gid observations := by
  rw [sourceObservations]
  by_cases hinvoked : x.sourceInvoked decision = true
  · rw [if_pos hinvoked]
    obtain ⟨scan, hscan⟩ := h.source hinvoked
    have hscanned : x.Scanned gid x.targets.seedPaths scan :=
      loop_invariant (I := x.Scanned gid) ⟨rfl, by simp [bytesOf], fun _ => rfl⟩
        (fun done path rest t t' _ ht hok => ht.step hok) hscan
    refine ⟨scan.2, by rw [hscan]; rfl, by rw [if_pos hinvoked]; exact hscanned.length, fun _ => ?_⟩
    rw [sourceOutcome_eq_none hscanned.length, hscanned.verified]
    exact ⟨fun ⟨hne, heach, hle⟩ => ⟨hne, heach, hle⟩, fun hv => ⟨hv.named, hv.each, hv.bounded⟩⟩
  · rw [if_neg hinvoked]
    exact ⟨[], rfl, by rw [if_neg hinvoked]; rfl, fun hinv => absurd hinv hinvoked⟩

lemma length_queried : (x.queried decision).length =
    if x.queryInvoked decision then min maxQueryTargets x.targets.all.length else 0 := by
  rw [queried]
  split
  · exact List.length_take
  · rfl

lemma queryInvoked_of_needs (h : queryRequested decision = true) :
    x.queryInvoked decision = true ↔ x.targets.all ≠ [] := by
  rw [queryInvoked, decide_eq_true_eq, List.length_pos_iff]
  exact and_iff_right (.inl h)

/-- Some target is beyond the bound on what is queried. -/
lemma semanticOmitted_found : x.semanticOmitted decision (x.found decision gid) = true ↔
    x.queryInvoked decision = true ∧ maxQueryTargets < x.targets.all.length := by
  simp only [semanticOmitted, decide_eq_true_eq, found, List.length_map, length_queried]
  refine and_congr_right fun h => ?_
  rw [if_pos h]
  omega

lemma queryRecordCount_found : queryRecordCount (x.found decision gid) =
    ((x.queried decision).map
      (shownRows x.store gid x.workspaceId (included decision))).sum := by
  rw [queryRecordCount, found, List.map_map]
  exact congrArg List.sum (List.map_congr_left fun t _ => recordCount_projected)

/-- Every target was found, and some target has two identities. -/
def Ambiguous (x : LightContext) (decision : ContextRouteDecision) (gid : String) : Prop :=
  (∀ t ∈ x.queried decision, identityRows x.store gid t.1 t.2 ≠ []) ∧
    ∃ t ∈ x.queried decision, 1 < (identityRows x.store gid t.1 t.2).length

lemma identityDeficit_eq_ambiguous_iff : identityDeficit projections = some .ambiguous ↔
    (∀ p ∈ projections, p.result.identityMatches ≠ []) ∧
      ∃ p ∈ projections, 1 < p.result.identityMatches.length := by
  rw [identityDeficit]
  constructor
  · intro h
    split_ifs at h with hnone hmany
    · cases h
    · exact ⟨fun p hp hnil => hnone (.inr ⟨p, hp, hnil⟩), hmany⟩
  · rintro ⟨hall, p, hp, htwo⟩
    rw [if_neg, if_pos ⟨p, hp, htwo⟩]
    rintro (rfl | ⟨p', hp', hnone⟩)
    · simp at hp
    · exact hall p' hp' hnone

lemma identityDeficit_eq_ambiguous : identityDeficit (x.found decision gid) = some .ambiguous ↔
    x.Ambiguous decision gid := by
  rw [identityDeficit_eq_ambiguous_iff, found, Ambiguous, List.forall_mem_map]
  simp only [List.mem_map, exists_exists_and_eq_and, length_identityMatches_projected,
    ← List.length_pos_iff]

/-- An identity is missing or ambiguous. -/
lemma identityDeficit_cases (h : identityDeficit projections = some reason) :
    reason = .unsupported ∨ reason = .ambiguous := by
  rw [identityDeficit] at h
  split_ifs at h <;> simp_all

/-! ## The outcome of a capability -/

/-- The capabilities that rows of the targets serve. -/
def ServedByRows (capability : RequiredCapability) : Prop :=
  capability = .boundedRelationships ∨ capability = .impactFrontier ∨
    capability = .basicCoverageConflicts

section Outcome

variable {state : CallerCapabilityState}

lemma rowsOutcome_cases {omitted : Bool}
    {rowsOmitted conflicting evident : LightQueryProjection → Bool}
    (h : rowsOutcome projections omitted rowsOmitted conflicting evident = some reason)
    (hreach : ¬ (RouteDeficit.capability capability reason).isUnavailable) :
    reason = .semanticBudgetOmitted ∨ reason = .conflicting ∨
      (reason = .ambiguous ∧ omitted = false ∧ (∀ p ∈ projections, rowsOmitted p = false) ∧
        identityDeficit projections = some .ambiguous) := by
  rw [rowsOutcome] at h
  split at h
  · exact .inl (Option.some.inj h).symm
  · rename_i homitted
    simp only [not_or, not_exists, not_and, Bool.not_eq_true] at homitted
    cases hidentity : identityDeficit projections with
    | some identity =>
      rw [hidentity] at h
      obtain rfl := Option.some.inj h
      rcases identityDeficit_cases hidentity with rfl | rfl
      · exact absurd rfl hreach
      · exact .inr (.inr ⟨rfl, homitted.1, homitted.2, rfl⟩)
    | none =>
      rw [hidentity] at h
      simp only at h
      split_ifs at h
      · exact .inr (.inl (Option.some.inj h).symm)
      · obtain rfl := Option.some.inj h
        exact absurd rfl hreach

/-- The outcome of a capability that rows serve. -/
lemma capabilityOutcome_rows (x : LightContext) (gid : String)
    (observations : List CatalogueLightSourceReference) (hrows : ServedByRows capability)
    (hneeds : needsAtlas decision capability = true) (hstate : state ≠ .satisfied) :
    ∃ rowsOmitted conflicting evident : LightQueryProjection → Bool,
      x.capabilityOutcome decision (x.found decision gid) observations capability state =
        rowsOutcome (x.found decision gid) (x.semanticOmitted decision (x.found decision gid))
          rowsOmitted conflicting evident ∧
      ∀ t, rowsOmitted (projected x.store gid x.workspaceId (included decision) t) = true ↔
        Crowded x.store gid x.workspaceId (included decision) capability t := by
  rcases hrows with rfl | rfl | rfl
  · exact ⟨_, _, _, if_neg hstate, fun t => relationshipOmitted_projected hneeds⟩
  · exact ⟨_, _, _, if_neg hstate, fun t => impactOmitted_projected hneeds⟩
  · exact ⟨_, _, _, if_neg hstate, fun t => coverageOmitted_projected hneeds⟩

end Outcome

/-! ## Accounting for every capability -/

lemma mem_deficitsOf {deficit : RouteDeficit} :
    deficit ∈ x.deficitsOf decision projections observations ↔ ∃ c state reason,
      (c, state) ∈ decision.requestedCapabilities.entries ∧
        x.capabilityOutcome decision projections observations c state = some reason ∧
          deficit = .capability c reason := by
  simp only [deficitsOf, List.mem_filterMap, Option.map_eq_some_iff, Prod.exists]
  constructor
  · rintro ⟨c, state, hmem, reason, hreason, rfl⟩
    exact ⟨c, state, reason, hmem, hreason, rfl⟩
  · rintro ⟨c, state, reason, hmem, hreason, rfl⟩
    exact ⟨c, state, hmem, reason, hreason, rfl⟩

lemma mem_satisfiedOf : capability ∈ x.satisfiedOf decision projections observations ↔
    ∃ state, (capability, state) ∈ decision.requestedCapabilities.entries ∧
      x.capabilityOutcome decision projections observations capability state = none := by
  simp only [satisfiedOf, List.mem_filterMap, Prod.exists]
  constructor
  · rintro ⟨c, state, hmem, hout⟩
    split at hout
    · obtain rfl := Option.some.inj hout
      exact ⟨state, hmem, ‹_›⟩
    · cases hout
  · rintro ⟨state, hmem, hnone⟩
    exact ⟨capability, state, hmem, by rw [hnone]⟩

/-- A capability that the caller has is never a deficit. -/
lemma needs_of_outcome {c : RequiredCapability} {state : CallerCapabilityState}
    (hmem : (c, state) ∈ decision.requestedCapabilities.entries)
    (h : x.capabilityOutcome decision projections observations c state = some reason) :
    needsAtlas decision c = true ∧ state ≠ .satisfied := by
  have hstate : state ≠ .satisfied := by
    rintro rfl
    rw [capabilityOutcome, if_pos rfl] at h
    cases h
  exact ⟨callerUnsatisfied_iff.mpr ⟨state, hmem, hstate⟩, hstate⟩

/-- The requested capabilities fall into those that are satisfied and those that are not. -/
lemma satisfiedOf_eq : x.satisfiedOf decision projections observations =
    (decision.requestedCapabilities.entries.filter fun entry =>
      (x.capabilityOutcome decision projections observations entry.1 entry.2).isNone).map
        Prod.fst := by
  rw [satisfiedOf]
  induction decision.requestedCapabilities.entries with
  | nil => rfl
  | cons entry entries ih =>
    rw [List.filterMap_cons, List.filter_cons, ih]
    cases x.capabilityOutcome decision projections observations entry.1 entry.2 <;> rfl

lemma capabilitiesOf_deficitsOf :
    capabilitiesOf (x.deficitsOf decision projections observations) =
      (decision.requestedCapabilities.entries.filter fun entry =>
        !(x.capabilityOutcome decision projections observations entry.1 entry.2).isNone).map
          Prod.fst := by
  rw [deficitsOf, capabilitiesOf]
  induction decision.requestedCapabilities.entries with
  | nil => rfl
  | cons entry entries ih =>
    rw [List.filterMap_cons, List.filter_cons]
    cases x.capabilityOutcome decision projections observations entry.1 entry.2 with
    | none => simpa using ih
    | some reason => simpa [RouteDeficit.capability?] using ih

lemma isChain_deficitsOf : (x.deficitsOf decision projections observations).IsChain (· < ·) := by
  refine List.Pairwise.isChain (List.pairwise_filterMap.mpr ?_)
  refine (List.pairwise_map.mp decision.requestedCapabilities.sorted).imp fun {a b} hlt => ?_
  rintro d hd d' hd'
  obtain ⟨r, -, rfl⟩ := Option.map_eq_some_iff.mp hd
  obtain ⟨r', -, rfl⟩ := Option.map_eq_some_iff.mp hd'
  exact .inl hlt

lemma length_satisfiedOf : (x.satisfiedOf decision projections observations).length +
    (capabilitiesOf (x.deficitsOf decision projections observations)).length =
      decision.requestedCapabilities.len := by
  rw [satisfiedOf_eq, capabilitiesOf_deficitsOf, List.length_map, List.length_map, SortedMap.len]
  exact (List.length_eq_length_filter_add _).symm

/-- **The accounting of LIGHT.**  What it reports satisfied it can serve, and nothing is reported
twice. -/
lemma accounted_light : Accounted decision (x.satisfiedOf decision projections observations)
    (x.deficitsOf decision projections observations) (some .atlasLight) where
  nodup := satisfiedOf_eq ▸ SortedMap.pairwise_filterMap.imp ne_of_lt
  served := by
    intro c hc
    obtain ⟨state, hmem, hout⟩ := mem_satisfiedOf.mp hc
    refine ⟨state, SortedMap.get_eq_some_iff.mpr hmem, ?_⟩
    by_cases hstate : state = .satisfied
    · exact .inl hstate
    · rw [capabilityOutcome, if_neg hstate] at hout
      refine .inr ⟨_, rfl, ?_⟩
      revert hout
      cases c <;> first | exact fun _ => le_rfl | exact fun h => absurd h (by simp)
  once := capabilitiesOf_deficitsOf ▸ SortedMap.pairwise_filterMap.imp ne_of_lt
  requested := by
    intro c hc
    obtain ⟨deficit, hmem, hcap⟩ := List.mem_filterMap.mp hc
    obtain ⟨d, state, reason, hentry, -, rfl⟩ := mem_deficitsOf.mp hmem
    obtain rfl : d = c := Option.some.inj hcap
    exact SortedMap.containsKey_iff.mpr ⟨state, hentry⟩
  unsatisfied := by
    intro c hc hsat
    obtain ⟨deficit, hmem, hcap⟩ := List.mem_filterMap.mp hc
    obtain ⟨d, state, reason, hentry, hout, rfl⟩ := mem_deficitsOf.mp hmem
    obtain rfl : d = c := Option.some.inj hcap
    obtain ⟨state', hentry', hout'⟩ := mem_satisfiedOf.mp hsat
    rw [SortedMap.eq_of_mem hentry' hentry, hout] at hout'
    cases hout'

end LightContext

end WorkspaceAtlas.ContextRoute
