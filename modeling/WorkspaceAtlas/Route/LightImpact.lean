/-
# The impact of a target and the resolver

LIGHT looks for the relationships that end at a target by their raw reference, and takes a
resolution for one only if its kind is the text that LIGHT expects.  The resolver records what a
relationship was resolved to beside the raw reference, and a file under another text.
-/
import WorkspaceAtlas.Query.Impact
import WorkspaceAtlas.Route.LightContract

namespace WorkspaceAtlas.ContextRoute

open Relational Transition

variable (st : LightStore) (gid : String) (t : String × Bool)

/-! ## What ends at a target -/

/-- The relationship is one of a file of the generation. -/
def IsCurrent (f : RelationshipFact) : Prop :=
  ∃ cf ∈ st.catalogue.currentFileOf gid, cf.revisionId = some f.revisionId

/-- The relationship names the target as it is. -/
def NamesDirectly (f : RelationshipFact) : Prop :=
  f.targetRefKind = kindOf t.2 ∧ f.targetRefValue = t.1

/-- The resolution that the generation has for a relationship. -/
def recordedFor (f : RelationshipFact) : Option RelationshipResolution :=
  st.resolutions.find? fun r =>
    r.relationshipFactId = f.relationshipFactId ∧ r.generationId = gid

/-- The resolution is to the target. -/
def ResolvesTo (r : RelationshipResolution) : Prop :=
  r.status = (if t.2 then .resolvedSymbol else .resolvedFile) ∧ r.resolvedRefValue = some t.1

instance (f : RelationshipFact) : Decidable (IsCurrent st gid f) :=
  inferInstanceAs (Decidable (∃ cf ∈ st.catalogue.currentFileOf gid, _))

instance (f : RelationshipFact) : Decidable (NamesDirectly t f) :=
  inferInstanceAs (Decidable (_ ∧ _))

instance (r : RelationshipResolution) : Decidable (ResolvesTo t r) :=
  inferInstanceAs (Decidable (_ ∧ _))

/-- The relationships of the generation that the resolver resolved to the target or that name it
directly. -/
def inbound : List RelationshipFact :=
  st.catalogue.facts.relationshipFact.rows.filter fun f => IsCurrent st gid f ∧
    (NamesDirectly t f ∨ ∃ r ∈ recordedFor st gid f, ResolvesTo t r)

/-- Those that name it directly. -/
def direct : List RelationshipFact :=
  st.catalogue.facts.relationshipFact.rows.filter fun f => IsCurrent st gid f ∧ NamesDirectly t f

/-- The resolver resolved the relationship. -/
def IsResolved (f : RelationshipFact) : Prop :=
  ∃ r ∈ recordedFor st gid f, r.status.isResolved = true

/-- The row that is shown of a relationship. -/
def rowOf (f : RelationshipFact) : CatalogueLightImpactTarget :=
  lightImpactTarget (f, recordedFor st gid f)

/-- The resolutions of the generation are outcomes of the resolver as
`record_relationship_resolution` stores them. -/
def RecordedByResolver (resolutions : Table RelationshipResolution) (gid : String) : Prop :=
  ∀ r ∈ resolutions, r.generationId = gid →
    ∃ (rel : MappedRelationship) (u : SymbolUniverse) (ws factId : String) (now : Timestamp),
      r = (resolveRelationship rel u).row ws gid factId resolverPolicyVersion now

/-- The files of the generation are in one row each, and so are their revisions. -/
structure OncePlaced (c : Catalogue) (gid : String) : Prop where
  nodup : (c.currentFileOf gid).Nodup
  once : ∀ cf ∈ c.currentFileOf gid, ∀ cf' ∈ c.currentFileOf gid, cf.revisionId ≠ none →
    cf.revisionId = cf'.revisionId → cf = cf'

/-! ## The answer -/

/-- The outcome has the capability as satisfied. -/
def RouteAttemptOutcome.Satisfies (decision : ContextRouteDecision)
    (capability : RequiredCapability) : RouteAttemptOutcome → Prop
  | .completed _ _ _ _ => decision.requestedCapabilities.containsKey capability
  | .deficient _ satisfiedCapabilities _ _ _ _ => capability ∈ satisfiedCapabilities
  | .interrupted _ _ => False

/-- The impact rows that are listed. -/
def CatalogueLightResults.impactRows (results : CatalogueLightResults) :
    List CatalogueLightImpactTarget :=
  (results.query.getD []).flatMap fun result => result.impactTargets.getD []

/-- The answer agrees with the resolver. -/
structure ImpactAgrees (decision : ContextRouteDecision)
    (answer : Except AtlasError RouteAttemptOutcome × CatalogueLightResults) : Prop where
  satisfied : (∃ outcome, answer.1 = .ok outcome ∧ outcome.Satisfies decision .impactFrontier) ↔
    1 ≤ (inbound st gid t).length ∧ (inbound st gid t).length ≤ 2 ∧
      ∀ f ∈ inbound st gid t, IsResolved st gid f
  /-- Every relationship has a row of its own. -/
  listed : (inbound st gid t).length ≤ 2 →
    ((inbound st gid t).map (rowOf st gid)).Subperm answer.2.impactRows
  /-- A row of what is resolved is not one that conflicts. -/
  agrees : ∀ row ∈ answer.2.impactRows,
    row.resolutionStatus = "resolved_symbol" ∨ row.resolutionStatus = "resolved_file" →
      impactRowIsQualified row = true

/-- What LIGHT finds by the raw references is what the resolver knows of. -/
structure NamedAsResolved : Prop where
  /-- What is shown as resolved is resolved to a symbol that has a name. -/
  symbols : ∀ row ∈ (limited impactKey (impactRows st gid t.1 t.2)).1, ∀ r ∈ row.2,
    r.status.isResolved = true → r.status = .resolvedSymbol ∧ r.resolvedRefValue ≠ some ""
  /-- What is resolved to the target names it, unless there is too much of it anyway. -/
  named : (∀ f ∈ inbound st gid t, NamesDirectly t f) ∨
    (2 < (inbound st gid t).length ∧ ¬ (1 ≤ (direct st gid t).length ∧
      (direct st gid t).length ≤ 2 ∧ ∀ f ∈ direct st gid t, IsResolved st gid f))

variable {st : LightStore} {gid : String} {t : String × Bool} {f : RelationshipFact}
  {r : RelationshipResolution}

/-! ## The rows of the query -/

lemma direct_sublist : (direct st gid t).Sublist (inbound st gid t) :=
  List.monotone_filter_right _ fun f h => by
    simp only [decide_eq_true_eq] at h ⊢
    exact ⟨h.1, .inl h.2⟩

lemma mem_direct : f ∈ direct st gid t ↔
    f ∈ st.catalogue.facts.relationshipFact ∧ IsCurrent st gid f ∧ NamesDirectly t f := by
  rw [direct, List.mem_filter, decide_eq_true_eq, Table.mem_def]

/-- A resolution of the resolver names what it is to by one of two texts. -/
lemma RecordedByResolver.resolved (h : RecordedByResolver st.resolutions gid)
    (hr : r ∈ st.resolutions) (hgid : r.generationId = gid) :
    (r.status = .resolvedSymbol →
      r.resolvedRefKind = some "symbol" ∧ ∃ v, r.resolvedRefValue = some v) ∧
    (r.status = .resolvedFile → r.resolvedRefKind = some "file") := by
  obtain ⟨rel, u, ws, factId, now, rfl⟩ := h r hr hgid
  refine ⟨fun hstatus => ?_, fun hstatus => ?_⟩
  · have hres := resolved_of_resolvedSymbol hstatus
    exact ⟨congrArg (Option.map ResolvedRef.kind) hres,
      _, congrArg (Option.map ResolvedRef.value) hres⟩
  · exact congrArg (Option.map ResolvedRef.kind) (Counts.resolved_of_resolvedFile hstatus)

lemma recordedFor_mem (h : r ∈ recordedFor st gid f) :
    r ∈ st.resolutions ∧ r.generationId = gid := by
  have hfound := Table.find?_some h
  simp only [decide_eq_true_eq] at hfound
  exact ⟨Table.mem_of_find? h, hfound.2⟩

/-- **A row is taken for resolved** if it is resolved to a symbol that has a name. -/
lemma qualified_iff (h : RecordedByResolver st.resolutions gid) :
    impactRowIsQualified (rowOf st gid f) = true ↔
      ∃ r ∈ recordedFor st gid f, r.status = .resolvedSymbol ∧ r.resolvedRefValue ≠ some "" := by
  rw [rowOf]
  cases hr : recordedFor st gid f with
  | none => simp [impactRowIsQualified, lightImpactTarget]
  | some r =>
    obtain ⟨hmem, hgid⟩ := recordedFor_mem hr
    obtain ⟨hsymbol, hfile⟩ := h.resolved hmem hgid
    have htext : ∀ status : ResolutionStatus,
        (status.asStr = "resolved_symbol" ↔ status = .resolvedSymbol) ∧
          (status.asStr = "resolved_file" ↔ status = .resolvedFile) := by
      intro status
      cases status <;> decide
    simp only [impactRowIsQualified, lightImpactTarget, Option.elim_some, Option.bind_some,
      Option.mem_some_iff, exists_eq_left', htext]
    by_cases hsym : r.status = .resolvedSymbol
    · obtain ⟨hkind, v, hv⟩ := hsymbol hsym
      simp [hsym, hkind, hv]
    · by_cases hfil : r.status = .resolvedFile
      · simp [hfil, hfile hfil]
      · simp [hsym, hfil]

/-- A row has one of the two texts if its relationship is resolved. -/
lemma resolutionStatus_rowOf : (rowOf st gid f).resolutionStatus = "resolved_symbol" ∨
    (rowOf st gid f).resolutionStatus = "resolved_file" ↔ IsResolved st gid f := by
  rw [rowOf, IsResolved]
  cases recordedFor st gid f with
  | none => simp [lightImpactTarget]
  | some r =>
    simp only [lightImpactTarget, Option.elim_some, Option.mem_some_iff, exists_eq_left']
    cases r.status <;> decide

/-- The relationships that name the target, as a join meets them. -/
lemma named_perm (hone : OncePlaced st.catalogue gid) :
    List.Perm (((st.catalogue.currentRelationships gid).filter fun row =>
      row.2.targetRefKind = kindOf t.2 ∧ row.2.targetRefValue = t.1).map Prod.snd)
      (direct st gid t) := by
  have hnodup : (((st.catalogue.currentRelationships gid).filter fun row =>
      row.2.targetRefKind = kindOf t.2 ∧ row.2.targetRefValue = t.1).map Prod.snd).Nodup := by
    refine List.Nodup.map_on ?_ ((nodup_join hone.nodup
      st.catalogue.facts.relationshipFact.nodup_rows).filter _)
    rintro ⟨cf, f⟩ hrow ⟨cf', f'⟩ hrow' rfl
    obtain ⟨hcf, -, hrev⟩ := mem_join.mp (List.mem_of_mem_filter hrow)
    obtain ⟨hcf', -, hrev'⟩ := mem_join.mp (List.mem_of_mem_filter hrow')
    simp only [decide_eq_true_eq] at hrev hrev'
    rw [hone.once cf hcf cf' hcf' (by simp [hrev]) (hrev.trans hrev'.symm)]
  refine (List.perm_ext_iff_of_nodup hnodup
    (st.catalogue.facts.relationshipFact.nodup_rows.filter _)).mpr fun f =>
      Iff.trans ?_ mem_direct.symm
  simp only [List.mem_map, List.mem_filter, Catalogue.currentRelationships, Prod.exists, mem_join,
    decide_eq_true_eq, IsCurrent, NamesDirectly]
  constructor
  · rintro ⟨cf, f', ⟨⟨hcf, hf, hrev⟩, hnames⟩, rfl⟩
    exact ⟨hf, ⟨cf, hcf, hrev⟩, hnames⟩
  · rintro ⟨hf, ⟨cf, hcf, hrev⟩, hnames⟩
    exact ⟨cf, f, ⟨⟨hcf, hf, hrev⟩, hnames⟩, rfl⟩

/-- The rows that name the target are the relationships that do, with their resolutions. -/
lemma impactRows_perm (h : RecordedByResolver st.resolutions gid)
    (hone : OncePlaced st.catalogue gid) :
    List.Perm (impactRows st gid t.1 t.2)
      ((direct st gid t).map fun f => (f, recordedFor st gid f)) := by
  have hjoin : impactRows st gid t.1 t.2 =
      (((st.catalogue.currentRelationships gid).filter fun row =>
        row.2.targetRefKind = kindOf t.2 ∧ row.2.targetRefValue = t.1).map Prod.snd).map
          fun f => (f, recordedFor st gid f) := by
    refine leftJoin_eq_map fun f _ => Table.filter_eq_toList fun r hr r' hr' hp hp' => ?_
    simp only [decide_eq_true_eq] at hp hp'
    have hpolicy : ∀ r ∈ st.resolutions, r.generationId = gid →
        r.resolverPolicyVersion = resolverPolicyVersion := by
      intro r hr hgid
      obtain ⟨_, _, _, _, _, rfl⟩ := h r hr hgid
      rfl
    exact Prod.ext (hp.2.trans hp'.2.symm) (Prod.ext (hp.1.trans hp'.1.symm)
      ((hpolicy r hr hp.2).trans (hpolicy r' hr' hp'.2).symm))
  rw [hjoin]
  exact (named_perm hone).map _

/-! ## The answer for one target -/

section Answer

variable {workspaceId : String} {incl : Included}

/-- The impact rows of a target that are shown. -/
def shownImpact (st : LightStore) (gid : String) (t : String × Bool) :
    List CatalogueLightImpactTarget :=
  (limited impactKey (impactRows st gid t.1 t.2)).1.map lightImpactTarget

lemma impactTargets_projected (h : incl.impact = true) :
    (projected st gid workspaceId incl t).result.impactTargets = some (shownImpact st gid t) := by
  simp [projected, LightQueryProjection.ofResult, targetResult, whenIncluded, h, shownImpact]

/-- Without pending conflicts none is shown. -/
lemma conflicts_projected (hquiet : conflictsFound st gid workspaceId incl t.1 = []) :
    ∀ rows ∈ (projected st gid workspaceId incl t).result.conflicts, rows = [] := by
  rw [conflictsFound] at hquiet
  simp only [projected, LightQueryProjection.ofResult, targetResult, hquiet, whenIncluded]
  intro rows hrows
  split at hrows
  · obtain rfl := Option.some.inj hrows
    rfl
  · cases hrows

lemma relationshipConflicting_projected
    (hquiet : conflictsFound st gid workspaceId incl t.1 = []) :
    (projected st gid workspaceId incl t).relationshipConflicting = false := by
  have hnone := conflicts_projected hquiet
  rw [projected, LightQueryProjection.ofResult] at hnone ⊢
  simp only [decide_eq_false_iff_not, not_exists, not_and]
  intro rows hrows row hrow
  rw [hnone rows hrows] at hrow
  cases hrow

lemma impactConflicting_projected (h : incl.impact = true)
    (hquiet : conflictsFound st gid workspaceId incl t.1 = []) :
    (projected st gid workspaceId incl t).impactConflicting = true ↔
      ∃ row ∈ shownImpact st gid t, impactRowIsQualified row = false := by
  have hrows : (projected st gid workspaceId incl t).result.impactTargets =
      some (shownImpact st gid t) := impactTargets_projected h
  have hnone : (projected st gid workspaceId incl t).relationshipConflicting = false :=
    relationshipConflicting_projected hquiet
  have hdef : (projected st gid workspaceId incl t).impactConflicting = true ↔
      (∃ rows ∈ (projected st gid workspaceId incl t).result.impactTargets, ∃ row ∈ rows,
        impactRowIsQualified row = false) ∨
        (projected st gid workspaceId incl t).relationshipConflicting = true := by
    rw [projected, LightQueryProjection.ofResult]
    simp only [decide_eq_true_eq]
  rw [hdef, hnone, hrows]
  simp

lemma impactEvidence_projected (h : incl.impact = true) :
    (projected st gid workspaceId incl t).impactEvidence = true ↔
      shownImpact st gid t ≠ [] ∧
        ∀ row ∈ shownImpact st gid t, impactRowIsQualified row = true := by
  have hrows : (projected st gid workspaceId incl t).result.impactTargets =
      some (shownImpact st gid t) := impactTargets_projected h
  have hdef : (projected st gid workspaceId incl t).impactEvidence = true ↔
      ∃ rows ∈ (projected st gid workspaceId incl t).result.impactTargets,
        rows ≠ [] ∧ ∀ row ∈ rows, impactRowIsQualified row = true := by
    rw [projected, LightQueryProjection.ofResult]
    simp only [decide_eq_true_eq]
  rw [hdef, hrows]
  simp

end Answer

namespace LightContext

variable {x : LightContext} {decision : ContextRouteDecision}
  {observations : List CatalogueLightSourceReference} {state : CallerCapabilityState}

/-! ## The capability -/

/-- Rows answer a capability if nothing is left out, every target is known, none is in conflict
and all have evidence. -/
lemma rowsOutcome_eq_none_iff {projections : List LightQueryProjection} {omitted : Bool}
    {rowsOmitted conflicting evident : LightQueryProjection → Bool} :
    rowsOutcome projections omitted rowsOmitted conflicting evident = none ↔
      (omitted = false ∧ ∀ p ∈ projections, rowsOmitted p = false) ∧
        identityDeficit projections = none ∧ (∀ p ∈ projections, conflicting p = false) ∧
          ∀ p ∈ projections, evident p = true := by
  rw [rowsOutcome]
  split
  · rename_i h
    refine iff_of_false (by simp) fun hnone => ?_
    rcases h with h | ⟨p, hp, h⟩
    · simp [hnone.1.1] at h
    · simp [hnone.1.2 p hp] at h
  · rename_i h
    have hkept : omitted = false ∧ ∀ p ∈ projections, rowsOmitted p = false := by simpa using h
    rw [and_iff_right hkept]
    cases identityDeficit projections with
    | some reason => simp
    | none => split_ifs <;> simp_all

/-- The rows of a target that is asked for its impact and is not in conflict. -/
lemma shownImpact_answers {p : LightQueryProjection}
    (hneeds : needsAtlas decision .impactFrontier = true)
    (hquiet : conflictsFound x.store gid x.workspaceId (included decision) t.1 = [])
    (hp : p = projected x.store gid x.workspaceId (included decision) t) :
    (p.impactOmitted = false ∧ (p.relationshipConflicting || p.impactConflicting) = false ∧
        p.impactEvidence = true) ↔
      1 ≤ (impactRows x.store gid t.1 t.2).length ∧ (impactRows x.store gid t.1 t.2).length ≤ 2 ∧
        ∀ row ∈ impactRows x.store gid t.1 t.2,
          impactRowIsQualified (lightImpactTarget row) = true := by
  have homitted : p.impactOmitted = false ↔ (impactRows x.store gid t.1 t.2).length ≤ 2 := by
    rw [← Bool.not_eq_true, hp, impactOmitted_projected hneeds, Crowded, hquiet]
    simp [rowsFound]
  have hunrelated : p.relationshipConflicting = false :=
    hp ▸ relationshipConflicting_projected hquiet
  have hconflicting : p.impactConflicting = false ↔
      ∀ row ∈ shownImpact x.store gid t, impactRowIsQualified row = true := by
    rw [← Bool.not_eq_true, hp, impactConflicting_projected hneeds hquiet]
    simp
  have hevidence : p.impactEvidence = true ↔ shownImpact x.store gid t ≠ [] ∧
      ∀ row ∈ shownImpact x.store gid t, impactRowIsQualified row = true := by
    rw [hp, impactEvidence_projected hneeds]
  rw [homitted, hunrelated, Bool.false_or, hconflicting, hevidence]
  have hlength : (shownImpact x.store gid t).length =
      min 2 (impactRows x.store gid t.1 t.2).length := by
    rw [shownImpact, List.length_map, length_limited]
  have hne : shownImpact x.store gid t ≠ [] ↔ 1 ≤ (impactRows x.store gid t.1 t.2).length := by
    rw [← List.length_pos_iff, hlength]
    omega
  rw [hne]
  have hall : (impactRows x.store gid t.1 t.2).length ≤ 2 →
      ((∀ row ∈ shownImpact x.store gid t, impactRowIsQualified row = true) ↔
        ∀ row ∈ impactRows x.store gid t.1 t.2,
          impactRowIsQualified (lightImpactTarget row) = true) := by
    intro hle
    simp only [shownImpact, List.forall_mem_map, mem_limited hle]
  constructor
  · rintro ⟨hle, -, hpos, hrows⟩
    exact ⟨hpos, hle, (hall hle).mp hrows⟩
  · rintro ⟨hpos, hle, hrows⟩
    have hshown := (hall hle).mpr hrows
    exact ⟨hle, hshown, hpos, hshown⟩

/-- The rows of the only target. -/
lemma found_one (hneeds : needsAtlas decision .impactFrontier = true)
    (hone : x.targets.all = [t]) : x.queryInvoked decision = true ∧
      x.found decision gid = [projected x.store gid x.workspaceId (included decision) t] := by
  have hrequested : queryRequested decision = true :=
    queryRequested_of_needs hneeds (.inr (.inr (.inl rfl)))
  have hinvoked : x.queryInvoked decision = true :=
    (queryInvoked_of_needs hrequested).mpr (by simp [hone])
  refine ⟨hinvoked, ?_⟩
  rw [found, queried, if_pos hinvoked, hone]
  rfl

/-- For one target that is known and not in conflict, the impact is answered if there are one or
two rows and all of them are taken for resolved. -/
lemma impactOutcome_eq_none (hneeds : needsAtlas decision .impactFrontier = true)
    (hstate : state ≠ .satisfied) (hone : x.targets.all = [t])
    (hknown : (identityRows x.store gid t.1 t.2).length = 1)
    (hquiet : conflictsFound x.store gid x.workspaceId (included decision) t.1 = []) :
    x.capabilityOutcome decision (x.found decision gid) observations .impactFrontier state =
        none ↔
      1 ≤ (impactRows x.store gid t.1 t.2).length ∧ (impactRows x.store gid t.1 t.2).length ≤ 2 ∧
        ∀ row ∈ impactRows x.store gid t.1 t.2,
          impactRowIsQualified (lightImpactTarget row) = true := by
  obtain ⟨-, hfound⟩ : _ ∧ x.found decision gid = _ := found_one hneeds hone
  have homitted : x.semanticOmitted decision (x.found decision gid) = false := by
    rw [← Bool.not_eq_true, semanticOmitted_found, hone]
    exact fun h => absurd (show maxQueryTargets < 1 from h.2) (by decide)
  have hidentity : identityDeficit (x.found decision gid) = none := by
    have hlength : (projected x.store gid x.workspaceId (included decision)
        t).result.identityMatches.length = 1 := length_identityMatches_projected.trans hknown
    rw [identityDeficit, hfound]
    simp [← List.length_eq_zero_iff, hlength]
  rw [capabilityOutcome, if_neg hstate]
  simp only [rowsOutcome_eq_none_iff, homitted, hidentity, true_and]
  rw [hfound]
  simp only [List.forall_mem_singleton]
  exact shownImpact_answers hneeds hquiet rfl

/-- The outcome has a capability as satisfied if nothing is left open of it. -/
lemma satisfies_iff {outcome : RouteAttemptOutcome} {capability : RequiredCapability}
    (hmem : (capability, state) ∈ decision.requestedCapabilities.entries)
    (h : x.outcomeOf decision expectedLightOperations (x.found decision gid) observations =
      .ok outcome) :
    outcome.Satisfies decision capability ↔
      x.capabilityOutcome decision (x.found decision gid) observations capability state = none := by
  rw [outcomeOf] at h
  by_cases hnil : x.deficitsOf decision (x.found decision gid) observations = []
  · rw [if_pos hnil] at h
    split at h
    · cases h
    · obtain rfl := Except.ok.inj h
      refine iff_of_true (SortedMap.containsKey_iff.mpr ⟨state, hmem⟩) ?_
      by_contra hsome
      obtain ⟨reason, hreason⟩ := Option.ne_none_iff_exists'.mp hsome
      exact List.ne_nil_of_mem (mem_deficitsOf.mpr ⟨_, _, reason, hmem, hreason, rfl⟩) hnil
  · rw [if_neg hnil] at h
    obtain rfl := Except.ok.inj h
    refine mem_satisfiedOf.trans ⟨?_, fun hnone => ⟨state, hmem, hnone⟩⟩
    rintro ⟨state', hmem', hnone⟩
    rwa [← SortedMap.eq_of_mem hmem' hmem]

/-- LIGHT has an outcome once it has queried something. -/
lemma exists_outcomeOf (hinvoked : x.queryInvoked decision = true) :
    ∃ outcome, x.outcomeOf decision expectedLightOperations (x.found decision gid) observations =
      .ok outcome := by
  have hne : x.operationResults decision expectedLightOperations (x.found decision gid)
      observations ≠ [] := by
    intro hnil
    simp [(operationResults_eq_nil.mp hnil).1] at hinvoked
  rw [outcomeOf]
  simp only [if_neg hne]
  split_ifs
  · exact ⟨_, rfl⟩
  · exact ⟨_, rfl⟩

/-- The rows that are listed for the only target. -/
lemma listed_one (hd : decision.validate x.hasher = .ok ())
    (hgid : decision.startingGeneration = .observed gid) (hreads : x.ReadsSucceed decision gid)
    (hneeds : needsAtlas decision .impactFrontier = true) (hone : x.targets.all = [t]) :
    (x.dispatchRealLight decision decision.request.lightOperations ⟨none, none⟩).2.impactRows =
      shownImpact x.store gid t := by
  obtain ⟨hinvoked, hfound⟩ : _ ∧ x.found decision gid = _ := found_one hneeds hone
  obtain ⟨observations, hsource, -⟩ := exists_sourceObservations hreads
  have hquery : (x.dispatchRealLight decision decision.request.lightOperations
      ⟨none, none⟩).2.query = some ((x.found decision gid).map LightQueryProjection.result) := by
    rw [lightOperations_eq hd, dispatchRealLight, hgid]
    simp only [queryProjections_eq hreads, hsource, if_pos hinvoked]
    split_ifs <;> rfl
  have hrows : (projected x.store gid x.workspaceId (included decision) t).result.impactTargets =
      some (shownImpact x.store gid t) := impactTargets_projected hneeds
  rw [CatalogueLightResults.impactRows, hquery, hfound]
  simp [hrows]

/-! ## Agreement -/

/-- What LIGHT reports, told from the relationships that name the target. -/
lemma reported_iff (hd : decision.validate x.hasher = .ok ())
    (hgid : decision.startingGeneration = .observed gid) (hreads : x.ReadsSucceed decision gid)
    (hneeds : needsAtlas decision .impactFrontier = true) (hone : x.targets.all = [t])
    (hknown : (identityRows x.store gid t.1 t.2).length = 1)
    (hquiet : conflictsFound x.store gid x.workspaceId (included decision) t.1 = [])
    (hresolver : RecordedByResolver x.store.resolutions gid)
    (hplaced : OncePlaced x.store.catalogue gid) :
    (∃ outcome, (x.dispatchRealLight decision decision.request.lightOperations ⟨none, none⟩).1 =
        .ok outcome ∧ outcome.Satisfies decision .impactFrontier) ↔
      1 ≤ (direct x.store gid t).length ∧ (direct x.store gid t).length ≤ 2 ∧
        ∀ f ∈ direct x.store gid t, ∃ r ∈ recordedFor x.store gid f,
          r.status = .resolvedSymbol ∧ r.resolvedRefValue ≠ some "" := by
  obtain ⟨hinvoked, -⟩ : _ ∧ x.found decision gid = _ := found_one hneeds hone
  obtain ⟨state, hmem, hstate⟩ := callerUnsatisfied_iff.mp hneeds
  obtain ⟨observations, -, hanswer⟩ := dispatchRealLight_eq hd hgid hreads
  obtain ⟨outcome, houtcome⟩ : ∃ outcome, x.outcomeOf decision expectedLightOperations
      (x.found decision gid) observations = .ok outcome := exists_outcomeOf hinvoked
  have hperm := impactRows_perm (t := t) hresolver hplaced
  have hlength : (impactRows x.store gid t.1 t.2).length = (direct x.store gid t).length := by
    rw [hperm.length_eq, List.length_map]
  have hrows : (∀ row ∈ impactRows x.store gid t.1 t.2,
      impactRowIsQualified (lightImpactTarget row) = true) ↔
        ∀ f ∈ direct x.store gid t, ∃ r ∈ recordedFor x.store gid f,
          r.status = .resolvedSymbol ∧ r.resolvedRefValue ≠ some "" := by
    simp only [hperm.mem_iff, List.forall_mem_map]
    exact forall₂_congr fun f _ => qualified_iff hresolver
  rw [hanswer, houtcome, ← hlength, ← hrows, ← (satisfies_iff hmem houtcome).trans
    (impactOutcome_eq_none hneeds hstate hone hknown hquiet)]
  simp

/-- **The impact and the resolver.**  For one target that is known and not in conflict, what LIGHT
answers agrees with what the resolver recorded if and only if the raw references name what the
resolver resolved, to symbols. -/
theorem impactAgrees_iff (x : LightContext) (decision : ContextRouteDecision) (gid : String)
    (t : String × Bool) (hd : decision.validate x.hasher = .ok ())
    (hgid : decision.startingGeneration = .observed gid) (hreads : x.ReadsSucceed decision gid)
    (hneeds : needsAtlas decision .impactFrontier = true) (hone : x.targets.all = [t])
    (hknown : (identityRows x.store gid t.1 t.2).length = 1)
    (hquiet : conflictsFound x.store gid x.workspaceId (included decision) t.1 = [])
    (hresolver : RecordedByResolver x.store.resolutions gid)
    (hplaced : OncePlaced x.store.catalogue gid) :
    ImpactAgrees x.store gid t decision
        (x.dispatchRealLight decision decision.request.lightOperations ⟨none, none⟩) ↔
      NamedAsResolved x.store gid t := by
  have hperm : List.Perm (impactRows x.store gid t.1 t.2) _ := impactRows_perm hresolver hplaced
  have hrow : ∀ row ∈ (limited impactKey (impactRows x.store gid t.1 t.2)).1,
      ∃ f ∈ direct x.store gid t, (f, recordedFor x.store gid f) = row := fun row hrow =>
    List.mem_map.mp (hperm.mem_iff.mp (mem_of_mem_limited hrow))
  have hlisted := listed_one hd hgid hreads hneeds hone
  have hreported := reported_iff hd hgid hreads hneeds hone hknown hquiet hresolver hplaced
  have hsymbols : (∀ row ∈ shownImpact x.store gid t,
      row.resolutionStatus = "resolved_symbol" ∨ row.resolutionStatus = "resolved_file" →
        impactRowIsQualified row = true) ↔
      ∀ row ∈ (limited impactKey (impactRows x.store gid t.1 t.2)).1, ∀ r ∈ row.2,
        r.status.isResolved = true → r.status = .resolvedSymbol ∧ r.resolvedRefValue ≠ some "" := by
    rw [shownImpact, List.forall_mem_map]
    refine forall₂_congr fun row hmem => ?_
    obtain ⟨f, -, rfl⟩ := hrow row hmem
    rw [← rowOf, resolutionStatus_rowOf, qualified_iff hresolver, IsResolved]
    cases recordedFor x.store gid f <;> simp
  -- where only symbols are shown as resolved, what is taken for resolved is resolved
  have hresolved : (∀ row ∈ (limited impactKey (impactRows x.store gid t.1 t.2)).1, ∀ r ∈ row.2,
      r.status.isResolved = true → r.status = .resolvedSymbol ∧ r.resolvedRefValue ≠ some "") →
      ((∃ outcome, (x.dispatchRealLight decision decision.request.lightOperations
          ⟨none, none⟩).1 = .ok outcome ∧ outcome.Satisfies decision .impactFrontier) ↔
        1 ≤ (direct x.store gid t).length ∧ (direct x.store gid t).length ≤ 2 ∧
          ∀ f ∈ direct x.store gid t, IsResolved x.store gid f) := by
    intro hsym
    rw [hreported]
    refine and_congr_right fun _ => and_congr_right fun hle => forall₂_congr fun f hf => ?_
    have hmem : (f, recordedFor x.store gid f) ∈
        (limited impactKey (impactRows x.store gid t.1 t.2)).1 := by
      rw [mem_limited (by rwa [hperm.length_eq, List.length_map])]
      exact hperm.mem_iff.mpr (List.mem_map_of_mem hf)
    constructor
    · rintro ⟨r, hr, hstatus, -⟩
      exact ⟨r, hr, by rw [hstatus]; rfl⟩
    · rintro ⟨r, hr, hstatus⟩
      exact ⟨r, hr, hsym _ hmem r hr hstatus⟩
  constructor
  · intro h
    have hagrees := h.agrees
    rw [hlisted, hsymbols] at hagrees
    refine ⟨hagrees, ?_⟩
    by_cases hle : (inbound x.store gid t).length ≤ 2
    · -- each has a row of its own, so there is one that names the target for each
      have hshown := (h.listed hle).length_le
      rw [hlisted, List.length_map, shownImpact, List.length_map, length_limited,
        hperm.length_eq, List.length_map] at hshown
      have hsame : direct x.store gid t = inbound x.store gid t :=
        direct_sublist.eq_of_length (le_antisymm direct_sublist.length_le (by omega))
      exact .inl fun f hf => (mem_direct.mp (hsame ▸ hf)).2.2
    · refine .inr ⟨not_le.mp hle, fun hdirect => hle ?_⟩
      exact (h.satisfied.mp ((hresolved hagrees).mpr hdirect)).2.1
  · intro h
    have hagrees := hsymbols.mpr h.symbols
    rw [← hlisted] at hagrees
    rcases h.named with hnamed | ⟨hmany, hdirect⟩
    · have hsame : direct x.store gid t = inbound x.store gid t :=
        List.filter_congr fun f hf => by
          refine decide_eq_decide.mpr (and_congr_right fun hcur => ⟨Or.inl, fun hin => ?_⟩)
          exact hnamed f (List.mem_filter.mpr ⟨hf, decide_eq_true ⟨hcur, hin⟩⟩)
      refine ⟨hsame ▸ hresolved h.symbols, fun hle => ?_, hagrees⟩
      rw [hlisted, shownImpact, ← hsame]
      have hshown : (limited impactKey (impactRows x.store gid t.1 t.2)).1.Perm
          ((direct x.store gid t).map fun f => (f, recordedFor x.store gid f)) := by
        refine (limited_perm ?_).trans hperm
        rwa [hperm.length_eq, List.length_map, hsame]
      have hrows := hshown.map lightImpactTarget
      rw [List.map_map] at hrows
      exact hrows.symm.subperm
    · refine ⟨iff_of_false (fun hsat => hdirect ((hresolved h.symbols).mp hsat)) fun hin => ?_,
        fun hle => absurd hle (not_le.mpr hmany), hagrees⟩
      exact absurd hin.2.1 (not_le.mpr hmany)

/-! ## A symbol and a file that refers to it -/

/-- A request on LIGHT alone for the impact of the targets. -/
def impactDecision (targets : CatalogueTargets) : ContextRouteDecision :=
  routeDecision fullHasher
    { sampleRequest ⟨[(.impactFrontier, .unsatisfied)], by simp⟩ with
      explicitSeeds := targets.summary fullHasher
      routeCeiling := .atlasLight
      deepBudget := none
      startingGeneration := .observed "g" }

/-- `b` refers to the symbol `scip:s` of `a` as `s`. -/
def referenceStore : LightStore :=
  ⟨Impact.otherFile, Impact.otherReference.resolutions, .empty, .empty⟩

/-- The workspace of the two files. -/
def referenceContext (targets : CatalogueTargets) : LightContext where
  hasher := fullHasher
  store := referenceStore
  workspaceId := "ws"
  live _ := .unreadable
  targets := targets

/-- The file that refers to the symbol. -/
def referringFile : CatalogueTargets where
  seedPaths := ["b"]
  seedSymbols := []
  pathsSorted := by simp
  symbolsSorted := onePath.symbolsSorted
  bounded := by decide
  sized := by decide

/-- The symbol. -/
def referredSymbol : CatalogueTargets where
  seedPaths := []
  seedSymbols := ["scip:s"]
  pathsSorted := onePath.symbolsSorted
  symbolsSorted := by simp
  bounded := by decide
  sized := by decide

lemma referenceStore_resolver : RecordedByResolver referenceStore.resolutions "g" := by
  intro r hr hgid
  obtain ⟨f, -, -, u, ws, now, -, hrow⟩ := Impact.otherReference_written r hr hgid
  exact ⟨f.synthetic, u, ws, _, now, hrow⟩

lemma referenceStore_placed : OncePlaced referenceStore.catalogue "g" := by
  constructor
  · decide
  · decide

/-- The reads of either target succeed. -/
lemma referenceStore_reads {targets : CatalogueTargets} {t : String × Bool}
    (hone : targets.all = [t]) (ht : t ∈ [("b", false), ("scip:s", true)])
    (hsource : (referenceContext targets).sourceInvoked (impactDecision targets) = false) :
    (referenceContext targets).ReadsSucceed (impactDecision targets) "g" where
  query _ t' ht' := by
    have hrows : ∀ t ∈ [("b", false), ("scip:s", true)],
        ((identityRows referenceStore "g" t.1 t.2).mapM (identityMatch referenceStore)).isOk := by
      decide
    obtain rfl : t' = t := List.mem_singleton.mp (hone ▸ List.mem_of_mem_take ht')
    have hok := hrows t' ht
    cases hfound : (identityRows referenceStore "g" t'.1 t'.2).mapM
      (identityMatch referenceStore) with
    | error e => simp [hfound, Except.isOk, Except.toBool] at hok
    | ok found => exact ⟨_, bind_ok.mpr ⟨found, hfound, rfl⟩⟩
  source h := by
    rw [hsource] at h
    cases h

theorem impactAgrees_referringFile :
    ImpactAgrees referenceStore "g" ("b", false) (impactDecision referringFile)
      ((referenceContext referringFile).dispatchRealLight (impactDecision referringFile)
        (impactDecision referringFile).request.lightOperations ⟨none, none⟩) :=
  (impactAgrees_iff (referenceContext referringFile) (impactDecision referringFile) "g"
    ("b", false) (validate_routeDecision (by decide +kernel)) rfl
    (referenceStore_reads rfl (by decide) (by decide)) (by decide) rfl
    (by decide) (by decide) referenceStore_resolver referenceStore_placed).mpr
      ⟨by decide +kernel, .inl (by decide +kernel)⟩

/-- The only reference to the symbol is resolved to it, and LIGHT does not find it. -/
theorem referredSymbol_not_impactAgrees :
    (impactDecision referredSymbol).validate fullHasher = .ok () ∧
      (impactDecision referredSymbol).request.explicitSeeds = referredSymbol.summary fullHasher ∧
      (identityRows referenceStore "g" "scip:s" true).length = 1 ∧
      conflictsFound referenceStore "g" "ws" (included (impactDecision referredSymbol)) "scip:s" =
        [] ∧
      RecordedByResolver referenceStore.resolutions "g" ∧
      ¬ ImpactAgrees referenceStore "g" ("scip:s", true) (impactDecision referredSymbol)
        ((referenceContext referredSymbol).dispatchRealLight (impactDecision referredSymbol)
          (impactDecision referredSymbol).request.lightOperations ⟨none, none⟩) := by
  refine ⟨validate_routeDecision (by decide +kernel), rfl, by decide, by decide,
    referenceStore_resolver, fun h => ?_⟩
  have hlisted := (h.listed (by decide +kernel)).length_le
  revert hlisted
  decide +kernel

end LightContext

end WorkspaceAtlas.ContextRoute
