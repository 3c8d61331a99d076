/-
# Cards against edges

The counters of a card read the raw columns of a relationship, its edge has what it was
resolved to.  A provider stores the symbols of its index raw and the resolver answers with
keys, and no key is a raw symbol of its own: a relationship that is resolved to a symbol is
never one that names its key.
-/
import WorkspaceAtlas.Serving.Rows
import WorkspaceAtlas.Semantic.Resolved

namespace WorkspaceAtlas

open Relational

/-- The edge resolves a relationship of the type to the symbol. -/
def ServingEdge.resolvesTo (e : ServingEdge) (type : RelationshipType) (key : String) : Bool :=
  e.relationshipType = type ∧ e.resolutionState = .resolvedSymbol ∧
    e.targetEntityId = "symbol:" ++ key

/-- The edge starts at the symbol. -/
def ServingEdge.startsAt (e : ServingEdge) (key : String) : Bool :=
  e.sourceEntityId = "symbol:" ++ key

/-- The states of what is not resolved. -/
def unresolvedStates : List ResolutionStatus := [.unresolved, .ambiguous, .stale, .invalid]

namespace Counts

open Resolved (ResolvedTo)

/-! ## The statement -/

/-- The four counters of a card are the numbers of edges of the symbol. -/
structure CardAgrees (edges : List ServingEdge) (card : SymbolCard) : Prop where
  callers : card.counts.callers =
    edges.countP fun e => e.resolvesTo .calls card.canonicalSymbolKey
  callees : card.counts.callees =
    edges.countP fun e => e.relationshipType = .calls ∧ e.startsAt card.canonicalSymbolKey
  references : card.counts.references =
    edges.countP fun e => e.resolvesTo .references card.canonicalSymbolKey
  unresolved : card.counts.unresolved =
    edges.countP fun e =>
      e.startsAt card.canonicalSymbolKey ∧ e.resolutionState ∈ unresolvedStates

/-- Some counter of a card counts the relationship as one that has the symbol as its target. -/
def CountedOn (f : RelationshipFact) (key : String) : Prop :=
  ∃ type ∈ [RelationshipType.calls, .references, .tests, .configures], f.targets type key = true

/-- The cards of a projection agree with its edges. -/
structure CardsAgree (truth : Truth) (p : ServingPlane) (gid sgid : String) : Prop where
  agrees : ∀ card ∈ p.symbolCard, card.servingGenerationId = sgid →
    CardAgrees (p.edgesOf sgid) card
  counted : ∀ card ∈ p.symbolCard, card.servingGenerationId = sgid →
    ∀ row ∈ truth.catalogue.currentRelationships gid, row.2.evidenceMethod = .semantic →
      row.2.relationshipType ∈ [RelationshipType.references, .calls, .implements] →
        ResolvedTo truth.resolutions gid row.2.relationshipFactId card.canonicalSymbolKey →
          CountedOn row.2 card.canonicalSymbolKey
  outbound : ∀ row ∈ truth.catalogue.currentRelationships gid, row.2.evidenceMethod = .semantic →
    row.2.relationshipType = .implements → row.2.sourceRefKind = .symbol →
      ∃ e ∈ p.edgesOf sgid, e.preferredFactId = some row.2.relationshipFactId ∧
        e.startsAt (canonicalSymbolKey row.2.sourceRefValue row.1.canonicalPath) = true

/-- The resolutions of the generation were written by the resolver. -/
def WrittenByResolver (t : FactTables) (resolutions : Table RelationshipResolution)
    (gid : String) : Prop :=
  ∀ r ∈ resolutions, r.generationId = gid →
    ∃ f ∈ t.relationshipFact, f.evidenceMethod = .semantic ∧
      ∃ (u : SymbolUniverse) (ws : String) (now : Timestamp), u.thisExecution = [] ∧
        r = (resolveRelationship f.synthetic u).row ws gid f.relationshipFactId
          resolverPolicyVersion now

/-- The key has a card. -/
def CardKey (c : Catalogue) (gid key : String) : Prop :=
  ∃ row ∈ symbolRowsOf c gid, row.key = key

/-- Nothing in the generation is counted one way only. -/
structure Countable (truth : Truth) (gid : String) : Prop where
  not_resolved : ∀ row ∈ truth.catalogue.currentRelationships gid,
    row.2.relationshipType ∈ [RelationshipType.references, .calls, .implements] →
      ∀ key, CardKey truth.catalogue gid key →
        ¬ ResolvedTo truth.resolutions gid row.2.relationshipFactId key
  not_named : ∀ row ∈ truth.catalogue.currentRelationships gid,
    ∀ type ∈ [RelationshipType.calls, .references], ∀ key, CardKey truth.catalogue gid key →
      row.2.targets type key = false
  has_resolution : ∀ row ∈ truth.catalogue.currentRelationships gid,
    row.2.sourceRefKind = .symbol → CardKey truth.catalogue gid row.2.sourceRefValue →
      (resolutionOf truth gid row.2.relationshipFactId).isSome
  no_symbol_source : ∀ row ∈ truth.catalogue.currentRelationships gid,
    row.2.evidenceMethod = .semantic → row.2.relationshipType = .implements →
      row.2.sourceRefKind ≠ .symbol

section Lemmas

variable {H : Hasher} {truth : Truth} {p p' : ServingPlane} {t : FactTables}
  {files : Table GenerationFile} {resolutions : Table RelationshipResolution}
  {ws gid schema policy sgid key value : String} {linked : List String} {now : Timestamp}
  {f : RelationshipFact} {row : RelationshipRow} {r : RelationshipResolution}
  {rel : MappedRelationship} {u : SymbolUniverse}

/-! ## What the resolver writes -/

/-- The pass writes resolutions of the resolver. -/
lemma writtenByResolver_pass (hnew : ∀ r ∈ resolutions, r.generationId ≠ gid) :
    WrittenByResolver t (runResolutionPass t files resolutions ws gid linked now) gid := by
  intro r hr hgid
  rcases (Resolved.mem_runResolutionPass hnew).mp hr with hr | ⟨f, hf, -, rfl⟩
  · exact absurd hgid (hnew r hr)
  · obtain ⟨hmem, hsem, -⟩ := mem_linkedFacts.mp hf
    exact ⟨f, hmem, hsem, _, ws, now, rfl, rfl⟩

lemma WrittenByResolver.onePolicy (h : WrittenByResolver t resolutions gid) :
    OnePolicy resolutions gid := by
  intro r hr hgid
  obtain ⟨f, -, -, u, ws, now, -, rfl⟩ := h r hr hgid
  rfl

/-- What is resolved to a file names one. -/
lemma resolved_of_resolvedFile (h : (resolveRelationship rel u).status = .resolvedFile) :
    (resolveRelationship rel u).resolved = some (.file rel.targetRefValue) := by
  unfold resolveRelationship resolveByDisplayName at h ⊢
  dsimp only at h ⊢
  split_ifs at h ⊢
  · rfl
  · exfalso
    split at h
    · exact absurd h (by simp)
    · split at h
      · exact absurd h (by simp)
      · exact absurd h (by simp)

/-- The row that the generation has for a fact is an outcome for that fact. -/
lemma WrittenByResolver.outcome (h : WrittenByResolver t resolutions gid)
    (hf : f ∈ t.relationshipFact) (hr : r ∈ resolutions) (hgid : r.generationId = gid)
    (hid : r.relationshipFactId = f.relationshipFactId) : f.evidenceMethod = .semantic ∧
      (r.status = .resolvedSymbol → r.resolvedRefKind = some "symbol" ∧
        r.resolvedRefValue = some f.canonicalTargetValue) ∧
      (r.status = .resolvedFile → r.resolvedRefValue = some f.canonicalTargetValue) := by
  obtain ⟨f', hf', hsem, u, ws, now, -, rfl⟩ := h r hr hgid
  obtain rfl : f' = f := Table.eq_of_clash hf' hf hid
  refine ⟨hsem, fun hstatus => ?_, fun hstatus => ?_⟩
  · have hres := resolved_of_resolvedSymbol hstatus
    exact ⟨congrArg (Option.map ResolvedRef.kind) hres,
      congrArg (Option.map ResolvedRef.value) hres⟩
  · exact congrArg (Option.map ResolvedRef.value) (resolved_of_resolvedFile hstatus)

/-- **A fact is never resolved to what it names**: a key is not a raw symbol of its own. -/
lemma WrittenByResolver.not_target (h : WrittenByResolver t resolutions gid)
    (hf : f ∈ t.relationshipFact) (hres : ResolvedTo resolutions gid f.relationshipFactId key) :
    ¬ (f.targetRefKind = .symbol ∧ f.targetRefValue = key) := by
  rintro ⟨hkind, rfl⟩
  obtain ⟨r, hr, hgid, hid, hstatus, -, hvalue⟩ := hres
  obtain ⟨-, hsymbol, -⟩ := h.outcome hf hr hgid hid
  have hlookup : f.canonicalTargetValue = f.targetRefValue :=
    Option.some.inj ((hsymbol hstatus).2.symm.trans hvalue)
  have htarget : f.targetKind = .symbol := by
    rw [RelationshipFact.targetKind, hkind]
    rfl
  rw [RelationshipFact.canonicalTargetValue, if_pos htarget] at hlookup
  exact canonicalSymbolKey_ne _ _ hlookup

/-! ## The edge of a fact -/

/-- What an edge is resolved to. -/
lemma edgeTarget_resolved {resolution : Option RelationshipResolution} {raw : String} :
    (edgeTarget resolution raw).1 = .resolvedSymbol ∧
        entityIdFor (edgeTarget resolution raw).2.1 (edgeTarget resolution raw).2.2 =
          "symbol:" ++ key ↔
      ∃ r, resolution = some r ∧ r.status = .resolvedSymbol ∧ r.resolvedRefValue = some key := by
  rw [entityIdFor_eq_symbol, edgeTarget_symbol]
  exact and_iff_right_of_imp edgeTarget_state

/-- When an edge is not resolved. -/
lemma edgeTarget_unresolved {raw : String}
    (hvalue : r.status = .resolvedSymbol ∨ r.status = .resolvedFile → r.resolvedRefValue.isSome) :
    (edgeTarget (some r) raw).1 ∈ unresolvedStates ↔ r.status ∈ unresolvedStates := by
  unfold edgeTarget unresolvedStates
  dsimp only
  cases hstatus : r.status with
  | resolvedSymbol =>
    obtain ⟨v, hv⟩ := Option.isSome_iff_exists.mp (hvalue (Or.inl hstatus))
    simp [hv]
  | resolvedFile =>
    obtain ⟨v, hv⟩ := Option.isSome_iff_exists.mp (hvalue (Or.inr hstatus))
    simp [hv]
  | external => simp
  | ambiguous => simp
  | unresolved => simp
  | invalid => simp
  | stale => simp

lemma startsAt_servingEdge : (servingEdge H truth gid sgid row).startsAt key = true ↔
    row.1.2.sourceRefKind = .symbol ∧ row.1.2.sourceRefValue = key := by
  rw [ServingEdge.startsAt, decide_eq_true_eq]
  exact entityIdFor_eq_symbol

/-- An edge resolves what the generation has as resolved. -/
lemma resolvesTo_servingEdge {type : RelationshipType}
    (hw : WrittenByResolver truth.catalogue.facts truth.resolutions gid)
    (hf : row.1.2 ∈ truth.catalogue.facts.relationshipFact) :
    (servingEdge H truth gid sgid row).resolvesTo type key = true ↔
      row.1.2.relationshipType = type ∧
        ResolvedTo truth.resolutions gid row.1.2.relationshipFactId key := by
  rw [ServingEdge.resolvesTo, decide_eq_true_eq]
  refine and_congr_right fun _ => edgeTarget_resolved.trans ?_
  constructor
  · rintro ⟨r, hres, hstatus, hvalue⟩
    obtain ⟨hr, hgid, hid⟩ := (resolutionOf_eq_some hw.onePolicy).mp hres
    obtain ⟨-, hsymbol, -⟩ := hw.outcome hf hr hgid hid
    exact ⟨r, hr, hgid, hid, hstatus, (hsymbol hstatus).1, hvalue⟩
  · rintro ⟨r, hr, hgid, hid, hstatus, -, hvalue⟩
    exact ⟨r, (resolutionOf_eq_some hw.onePolicy).mpr ⟨hr, hgid, hid⟩, hstatus, hvalue⟩

/-- The fact has a resolution, and is not resolved by it. -/
def leftUnresolved (truth : Truth) (gid : String) (f : RelationshipFact) : Bool :=
  (resolutionOf truth gid f.relationshipFactId).any fun r => r.status ∈ unresolvedStates

/-- An edge is not resolved also where there is no resolution. -/
lemma state_servingEdge (hw : WrittenByResolver truth.catalogue.facts truth.resolutions gid)
    (hf : row.1.2 ∈ truth.catalogue.facts.relationshipFact) :
    (servingEdge H truth gid sgid row).resolutionState ∈ unresolvedStates ↔
      leftUnresolved truth gid row.1.2 = true ∨
        resolutionOf truth gid row.1.2.relationshipFactId = none := by
  show (edgeTarget (resolutionOf truth gid row.1.2.relationshipFactId) _).1 ∈ _ ↔ _
  unfold leftUnresolved
  cases hres : resolutionOf truth gid row.1.2.relationshipFactId with
  | none => simp [edgeTarget, unresolvedStates]
  | some r =>
    obtain ⟨hr, hgid, hid⟩ := (resolutionOf_eq_some hw.onePolicy).mp hres
    obtain ⟨-, hsymbol, hfile⟩ := hw.outcome hf hr hgid hid
    rw [edgeTarget_unresolved]
    · simp
    · rintro (hstatus | hstatus)
      · simp [(hsymbol hstatus).2]
      · simp [hfile hstatus]

/-! ## The counters -/

/-- The counter of what is not resolved reads each fact once. -/
lemma symbolCounts_unresolved (h : OnePolicy truth.resolutions gid) :
    (symbolCounts truth gid key).unresolved =
      (truth.catalogue.currentRelationships gid).countP fun q =>
        (q.2.sourceRefKind = .symbol ∧ q.2.sourceRefValue = key) ∧
          leftUnresolved truth gid q.2 = true := by
  have hjoin : (join (truth.catalogue.currentRelationships gid) truth.resolutions.rows
      fun q rr => rr.relationshipFactId = q.2.relationshipFactId ∧
        rr.generationId = q.1.generationId) =
      (truth.catalogue.currentRelationships gid).filterMap fun q =>
        (resolutionOf truth gid q.2.relationshipFactId).map (q, ·) := by
    refine join_eq_filterMap fun q hq => ?_
    rw [← filter_resolutions h]
    refine List.filter_congr fun rr _ => ?_
    rw [generationId_of_mem (mem_currentRelationships.mp hq).1]
    exact decide_eq_decide.mpr and_comm
  rw [symbolCounts]
  dsimp only
  rw [hjoin, List.countP_filterMap]
  refine List.countP_congr fun q _ => ?_
  unfold leftUnresolved
  cases hres : resolutionOf truth gid q.2.relationshipFactId with
  | none => simp
  | some r => simp [and_assoc, unresolvedStates]

/-- Which keys have cards, and the counters of these. -/
lemma card_mem_iff (hp : Projected H truth p ws gid schema policy sgid) :
    (∃ card ∈ p.symbolCard, card.servingGenerationId = sgid ∧ card.canonicalSymbolKey = key) ↔
      CardKey truth.catalogue gid key := by
  constructor
  · rintro ⟨card, hcard, hsgid, rfl⟩
    have hmem : card ∈ p.symbolCard.rows.filter fun card => card.servingGenerationId = sgid :=
      List.mem_filter.mpr ⟨hcard, decide_eq_true hsgid⟩
    rw [hp.cards] at hmem
    obtain ⟨row, hrow, rfl⟩ := List.mem_map.mp hmem
    exact ⟨row, mem_of_mem_firsts hrow, rfl⟩
  · rintro ⟨row, hrow, rfl⟩
    -- the first row with the key is the one that has the card
    have hfind : ((firsts SymbolRow.key none (symbolRowsOf truth.catalogue gid)).find?
        fun x => x.key = row.key).isSome := by
      rw [find?_firsts (by simp), List.find?_isSome]
      exact ⟨row, hrow, by simp⟩
    obtain ⟨first, hfirst⟩ := Option.isSome_iff_exists.mp hfind
    have hmem : symbolCard truth gid sgid first ∈
        p.symbolCard.rows.filter fun card => card.servingGenerationId = sgid := by
      rw [hp.cards]
      exact List.mem_map_of_mem (List.mem_of_find?_eq_some hfirst)
    obtain ⟨hcard, hsgid⟩ := List.mem_filter.mp hmem
    have hkey : first.key = row.key := by simpa using List.find?_some hfirst
    exact ⟨_, hcard, of_decide_eq_true hsgid, hkey⟩

lemma counts_of_card (hp : Projected H truth p ws gid schema policy sgid) {card : SymbolCard}
    (hcard : card ∈ p.symbolCard) (hsgid : card.servingGenerationId = sgid) :
    card.counts = symbolCounts truth gid card.canonicalSymbolKey := by
  have hmem : card ∈ p.symbolCard.rows.filter fun card => card.servingGenerationId = sgid :=
    List.mem_filter.mpr ⟨hcard, decide_eq_true hsgid⟩
  rw [hp.cards] at hmem
  obtain ⟨row, -, rfl⟩ := List.mem_map.mp hmem
  rfl

lemma edge_mem_iff (hp : Projected H truth p ws gid schema policy sgid) {e : ServingEdge} :
    e ∈ p.edgesOf sgid ↔ ∃ row ∈ relationshipRowsOf truth.catalogue gid,
      servingEdge H truth gid sgid row = e := by
  rw [hp.edges, List.mem_map]

end Lemmas

section Projection

variable {H : Hasher} {truth : Truth} {p : ServingPlane} {ws gid schema policy sgid : String}
  (hruns : RunsStored truth.catalogue.facts)
  (hw : WrittenByResolver truth.catalogue.facts truth.resolutions gid)
  (hp : Projected H truth p ws gid schema policy sgid)

/-! ## The counters against the edges -/

include hruns hw hp

/-- The edges that resolve something to a symbol, counted by their facts. -/
lemma countP_resolvesTo (type : RelationshipType) (key : String) :
    ((p.edgesOf sgid).countP fun e => e.resolvesTo type key) = 0 ↔
      ∀ q ∈ truth.catalogue.currentRelationships gid, q.2.relationshipType = type →
        ¬ ResolvedTo truth.resolutions gid q.2.relationshipFactId key := by
  rw [List.countP_eq_zero, hp.edges]
  simp only [List.forall_mem_map]
  constructor
  · intro h q hq htype hres
    have hmem := (perm_relationshipRows hruns gid).mem_iff.mpr hq
    obtain ⟨row, hrow, rfl⟩ := List.mem_map.mp hmem
    exact h row hrow ((resolvesTo_servingEdge hw (mem_currentRelationships.mp hq).2.1).mpr
      ⟨htype, hres⟩)
  · intro h row hrow hedge
    have hq := (perm_relationshipRows hruns gid).mem_iff.mp (List.mem_map_of_mem hrow)
    obtain ⟨htype, hres⟩ :=
      (resolvesTo_servingEdge hw (mem_currentRelationships.mp hq).2.1).mp hedge
    exact h row.1 hq htype hres

omit hw in
/-- Callees are counted by the source, which an edge keeps. -/
lemma callees_eq (key : String) : (symbolCounts truth gid key).callees =
    (p.edgesOf sgid).countP fun e => e.relationshipType = .calls ∧ e.startsAt key := by
  rw [hp.edges]
  refine (countP_edges hruns fun row _ => ?_).symm
  rw [RelationshipFact.startsAt]
  refine decide_eq_decide.mpr (and_congr_right fun _ => ?_)
  exact startsAt_servingEdge

/-- What is not resolved is counted from both sides unless a resolution is missing. -/
lemma unresolved_eq_iff (key : String) : ((symbolCounts truth gid key).unresolved =
    (p.edgesOf sgid).countP fun e => e.startsAt key ∧ e.resolutionState ∈ unresolvedStates) ↔
      ∀ q ∈ truth.catalogue.currentRelationships gid,
        q.2.sourceRefKind = .symbol → q.2.sourceRefValue = key →
          (resolutionOf truth gid q.2.relationshipFactId).isSome := by
  have hedges : ((p.edgesOf sgid).countP fun e =>
      e.startsAt key ∧ e.resolutionState ∈ unresolvedStates) =
      (truth.catalogue.currentRelationships gid).countP fun q =>
        (q.2.sourceRefKind = .symbol ∧ q.2.sourceRefValue = key) ∧
          (leftUnresolved truth gid q.2 = true ∨
            resolutionOf truth gid q.2.relationshipFactId = none) := by
    rw [hp.edges]
    refine countP_edges hruns fun row hrow => ?_
    have hq := (perm_relationshipRows hruns gid).mem_iff.mp (List.mem_map_of_mem hrow)
    exact decide_eq_decide.mpr (and_congr startsAt_servingEdge
      (state_servingEdge hw (mem_currentRelationships.mp hq).2.1))
  rw [hedges, symbolCounts_unresolved hw.onePolicy]
  constructor
  · intro h q hq hkind hvalue
    by_contra hnone
    have hmissing : resolutionOf truth gid q.2.relationshipFactId = none := by simpa using hnone
    have hcounted := imp_of_countP_eq h (fun a _ ha => by
      have ha := of_decide_eq_true ha
      exact decide_eq_true ⟨ha.1, Or.inl ha.2⟩) q hq
      (decide_eq_true ⟨⟨hkind, hvalue⟩, Or.inr hmissing⟩)
    have hleft := (of_decide_eq_true hcounted).2
    simp [leftUnresolved, hmissing] at hleft
  · intro h
    refine List.countP_congr fun q hq => ?_
    simp only [decide_eq_true_eq]
    refine and_congr_right fun ⟨hkind, hvalue⟩ => ?_
    have hsome := h q hq hkind hvalue
    constructor
    · exact Or.inl
    · rintro (hleft | hnone)
      · exact hleft
      · exact absurd hsome (by simp [hnone])

/-! ## Exactly when they agree -/

/-- Cards that agree have nothing that only one side counts. -/
lemma countable_of_cardsAgree (h : CardsAgree truth p gid sgid) : Countable truth gid := by
  have hnot : ∀ row ∈ truth.catalogue.currentRelationships gid,
      row.2.relationshipType ∈ [RelationshipType.references, .calls, .implements] →
        ∀ key, CardKey truth.catalogue gid key →
          ¬ ResolvedTo truth.resolutions gid row.2.relationshipFactId key := by
    intro row hrow htype key hkey hres
    obtain ⟨card, hcard, hsgid, rfl⟩ := (card_mem_iff hp).mpr hkey
    have hf := (mem_currentRelationships.mp hrow).2.1
    have hsem : row.2.evidenceMethod = .semantic := by
      obtain ⟨r, hr, hgid, hid, -⟩ := hres
      exact (hw.outcome hf hr hgid hid).1
    obtain ⟨type, -, htargets⟩ := h.counted card hcard hsgid row hrow hsem htype hres
    have htargets := of_decide_eq_true htargets
    exact hw.not_target hf hres htargets.2
  refine ⟨hnot, ?_, ?_, ?_⟩
  · intro row hrow type htype key hkey
    obtain ⟨card, hcard, hsgid, rfl⟩ := (card_mem_iff hp).mpr hkey
    have hagrees := h.agrees card hcard hsgid
    have hcounts := counts_of_card hp hcard hsgid
    -- no edge resolves a relationship of the type to the symbol
    have hzero : ((p.edgesOf sgid).countP fun e =>
        e.resolvesTo type card.canonicalSymbolKey) = 0 := by
      refine (countP_resolvesTo hruns hw hp type _).mpr fun q hq hqtype => ?_
      refine hnot q hq ?_ _ hkey
      rw [hqtype]
      simp only [List.mem_cons, List.not_mem_nil, or_false] at htype ⊢
      exact htype.elim (fun h => Or.inr (Or.inl h)) Or.inl
    have hcount : ((truth.catalogue.currentRelationships gid).countP fun q =>
        q.2.targets type card.canonicalSymbolKey) = 0 := by
      simp only [List.mem_cons, List.not_mem_nil, or_false] at htype
      rcases htype with rfl | rfl
      · have hcallers := hagrees.callers
        rw [hcounts, hzero] at hcallers
        exact hcallers
      · have hreferences := hagrees.references
        rw [hcounts, hzero] at hreferences
        exact hreferences
    simpa using List.countP_eq_zero.mp hcount row hrow
  · intro row hrow hkind hkey
    obtain ⟨card, hcard, hsgid, hcardkey⟩ := (card_mem_iff hp).mpr hkey
    have hunresolved := (h.agrees card hcard hsgid).unresolved
    rw [counts_of_card hp hcard hsgid] at hunresolved
    exact (unresolved_eq_iff hruns hw hp _).mp hunresolved row hrow hkind hcardkey.symm
  · intro row hrow hsem htype hkind
    obtain ⟨e, he, hfact, hstarts⟩ := h.outbound row hrow hsem htype hkind
    obtain ⟨row', hrow', rfl⟩ := (edge_mem_iff hp).mp he
    have hq' := (perm_relationshipRows hruns gid).mem_iff.mp (List.mem_map_of_mem hrow')
    have hsame : row'.1.2 = row.2 := Table.eq_of_clash (mem_currentRelationships.mp hq').2.1
      (mem_currentRelationships.mp hrow).2.1 (Option.some.inj hfact)
    have hsource := (startsAt_servingEdge.mp hstarts).2
    rw [hsame] at hsource
    exact canonicalSymbolKey_ne _ _ hsource.symm

/-- Where nothing is counted by one side only, the cards agree. -/
lemma cardsAgree_of_countable (h : Countable truth gid) : CardsAgree truth p gid sgid := by
  refine ⟨?_, ?_, ?_⟩
  · intro card hcard hsgid
    have hkey : CardKey truth.catalogue gid card.canonicalSymbolKey :=
      (card_mem_iff hp).mp ⟨card, hcard, hsgid, rfl⟩
    have hcounts := counts_of_card hp hcard hsgid
    have htargets : ∀ type ∈ [RelationshipType.calls, .references],
        ((truth.catalogue.currentRelationships gid).countP fun q =>
          q.2.targets type card.canonicalSymbolKey) =
        (p.edgesOf sgid).countP fun e => e.resolvesTo type card.canonicalSymbolKey := by
      intro type htype
      rw [(countP_resolvesTo hruns hw hp type _).mpr, List.countP_eq_zero]
      · intro q hq
        simp [h.not_named q hq type htype _ hkey]
      · intro q hq hqtype
        refine h.not_resolved q hq ?_ _ hkey
        rw [hqtype]
        simp only [List.mem_cons, List.not_mem_nil, or_false] at htype ⊢
        exact htype.elim (fun h => Or.inr (Or.inl h)) Or.inl
    refine ⟨?_, ?_, ?_, ?_⟩
    · rw [hcounts]
      exact htargets .calls (by simp)
    · rw [hcounts]
      exact callees_eq hruns hp _
    · rw [hcounts]
      exact htargets .references (by simp)
    · rw [hcounts, unresolved_eq_iff hruns hw hp]
      intro q hq hkind hvalue
      exact h.has_resolution q hq hkind (by rwa [hvalue])
  · intro card hcard hsgid row hrow hsem htype hres
    exact absurd hres (h.not_resolved row hrow htype _
      ((card_mem_iff hp).mp ⟨card, hcard, hsgid, rfl⟩))
  · intro row hrow hsem htype hkind
    exact absurd hkind (h.no_symbol_source row hrow hsem htype)

end Projection

/-- **Cards agree with edges** exactly when nothing in the generation is counted one way only. -/
theorem cardsAgree_iff (H : Hasher) (truth : Truth) (p : ServingPlane) {p' : ServingPlane}
    (workspaceId gid : String)
    (hactive : activeGeneration? truth.catalogue workspaceId = some gid)
    (hruns : RunsStored truth.catalogue.facts)
    (hw : WrittenByResolver truth.catalogue.facts truth.resolutions gid)
    (h : buildServingGeneration H truth p workspaceId = .ok p') :
    CardsAgree truth p' gid (servingGenerationId H workspaceId gid servingSchemaVersion
      projectionPolicyVersion) ↔ Countable truth gid := by
  obtain ⟨gid', hactive', hp⟩ := buildWithPolicy_ok h
  obtain rfl : gid = gid' := Option.some.inj (hactive.symm.trans hactive')
  exact ⟨countable_of_cardsAgree hruns hw hp, cardsAgree_of_countable hruns hw hp⟩

/-! ## A reference -/

/-- The file defines a symbol and refers to it, and the reference was resolved. -/
def oneReference : Truth where
  catalogue := oneFile
  resolutions := runResolutionPass oneFile.facts oneFile.generationFile .empty "ws" "g" ["e"] 0
  effectFact := .empty
  evidenceConflict := .empty
  coverageRecord := .empty

lemma oneReference_runs : RunsStored oneReference.catalogue.facts := by
  intro f hf
  have hall : ∀ f ∈ oneFile.facts.relationshipFact.rows, ∃ r ∈ oneFile.facts.extractorRun.rows,
      r.extractorRunId = f.extractorRunId := by decide
  exact hall f hf

lemma oneReference_written :
    WrittenByResolver oneReference.catalogue.facts oneReference.resolutions "g" :=
  writtenByResolver_pass fun _ hr => absurd hr Table.not_mem_empty

lemma oneReference_built : ∃ p', buildServingGeneration .plain oneReference .empty "ws" = .ok p' := by
  have hsome : (buildServingGeneration .plain oneReference .empty "ws").toOption.isSome := by
    decide
  obtain ⟨p', hp'⟩ := Option.isSome_iff_exists.mp hsome
  exact ⟨p', Transition.ok_of_toOption hp'⟩

theorem cardsAgree_iff_oneReference : ∃ p',
    buildServingGeneration .plain oneReference .empty "ws" = .ok p' ∧
      (CardsAgree oneReference p' "g" (servingGenerationId .plain "ws" "g" servingSchemaVersion
        projectionPolicyVersion) ↔ Countable oneReference "g") := by
  obtain ⟨p', hp'⟩ := oneReference_built
  exact ⟨p', hp', cardsAgree_iff .plain oneReference .empty "ws" "g" (by decide)
    oneReference_runs oneReference_written hp'⟩

/-- The edge is resolved to the symbol and the card counts no reference. -/
theorem oneReference_disagrees : ∃ p',
    buildServingGeneration .plain oneReference .empty "ws" = .ok p' ∧
      RunsStored oneReference.catalogue.facts ∧
      WrittenByResolver oneReference.catalogue.facts oneReference.resolutions "g" ∧
      ¬ CardsAgree oneReference p' "g" (servingGenerationId .plain "ws" "g" servingSchemaVersion
        projectionPolicyVersion) := by
  obtain ⟨p', hp'⟩ := oneReference_built
  refine ⟨p', hp', oneReference_runs, oneReference_written, fun hagree => ?_⟩
  obtain ⟨gid, hactive, hp⟩ := buildWithPolicy_ok hp'
  obtain rfl : "g" = gid := Option.some.inj ((by decide :
    activeGeneration? oneReference.catalogue "ws" = some "g").symm.trans hactive)
  have hnone := (countable_of_cardsAgree oneReference_runs oneReference_written hp hagree)
  have hresolved : ∃ q ∈ oneFile.currentRelationships "g", q.2.relationshipType = .references ∧
      ∃ r ∈ oneReference.resolutions.rows, r.generationId = "g" ∧
        r.relationshipFactId = q.2.relationshipFactId ∧ r.status = .resolvedSymbol ∧
          r.resolvedRefKind = some "symbol" ∧ r.resolvedRefValue = some "scip:s" := by
    decide +kernel
  have hkey : ∃ row ∈ symbolRowsOf oneFile "g", row.key = "scip:s" := by decide
  obtain ⟨q, hq, htype, hres⟩ := hresolved
  exact hnone.not_resolved q hq (by simp [htype]) _ hkey hres

end Counts

end WorkspaceAtlas
