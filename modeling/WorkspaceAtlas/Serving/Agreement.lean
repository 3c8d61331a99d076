/-
# The projection against the truth

Both sides are brought into one form: the relationships that the generation reaches, each with
its resolution, filtered by an endpoint, sorted and cut off.  The truth takes endpoint, order
and state from the kind and the status of the resolution, an edge from the status alone, so
that they agree as long as no kind contradicts its status.
-/
import WorkspaceAtlas.Serving.Reader
import WorkspaceAtlas.Serving.Rows

namespace WorkspaceAtlas

open Relational Transition

namespace Agreement

/-! ## The generation -/

/-- The generation is the committed one that a single workspace is active on, its facts have
runs and its files have stored revisions, each in one place and present. -/
structure Servable (truth : Truth) (ws gid : String) : Prop where
  active : activeGeneration? truth.catalogue ws = some gid
  only : ∀ w ∈ truth.catalogue.workspace, w.activeGenerationId = some gid → w.workspaceId = ws
  committed : ∃ g ∈ truth.catalogue.indexGeneration,
    g.generationId = gid ∧ g.state = .committed
  present : ∀ gf ∈ truth.catalogue.generationFile, gf.generationId = gid →
    gf.revisionId ≠ none → gf.presenceState = .present
  revision_once : ∀ gf ∈ truth.catalogue.generationFile, ∀ gf' ∈ truth.catalogue.generationFile,
    gf.generationId = gid → gf'.generationId = gid → gf.revisionId ≠ none →
      gf.revisionId = gf'.revisionId → gf = gf'
  revision_stored : ∀ gf ∈ truth.catalogue.generationFile, gf.generationId = gid →
    ∀ rid, gf.revisionId = some rid →
      ∃ fr ∈ truth.catalogue.fileRevision, fr.revisionId = rid
  symbol_runs : ∀ sf ∈ truth.catalogue.facts.symbolFact,
    ∃ er ∈ truth.catalogue.facts.extractorRun, er.extractorRunId = sf.extractorRunId
  relationship_runs : RunsStored truth.catalogue.facts
  onePolicy : OnePolicy truth.resolutions gid

/-- The file of the generation that has the revision, if it is present. -/
def fileOf (c : Catalogue) (gid rid : String) : Option GenerationFile :=
  c.generationFile.find? fun gf =>
    gf.generationId = gid ∧ gf.revisionId = some rid ∧ gf.presenceState = .present

section Servable

variable {truth : Truth} {ws gid rid : String}

/-- The rows of the view are the files of the generation. -/
lemma Servable.currentFileOf_eq (h : Servable truth ws gid) :
    ∃ w, truth.catalogue.currentFileOf gid =
      (truth.catalogue.generationFile.rows.filter fun gf => gf.generationId = gid).map
        (truth.catalogue.currentFileRow w) :=
  Catalogue.currentFileOf_eq h.active h.only h.committed

/-- A revision is in one present file of the generation or in none. -/
lemma Servable.filter_files (h : Servable truth ws gid) (rid : String) :
    (truth.catalogue.generationFile.rows.filter fun gf => gf.generationId = gid ∧
      gf.revisionId = some rid ∧ gf.presenceState = .present) =
        (fileOf truth.catalogue gid rid).toList := by
  refine Table.filter_eq_toList fun gf hgf gf' hgf' hp hp' => ?_
  obtain ⟨hgid, hrid, -⟩ := of_decide_eq_true hp
  obtain ⟨hgid', hrid', -⟩ := of_decide_eq_true hp'
  rw [h.revision_once gf hgf gf' hgf' hgid hgid' (by simp [hrid]) (hrid.trans hrid'.symm)]
  exact clash_refl gf'

/-- **The view** has the facts whose revision is in a file, each with that file. -/
lemma Servable.join_current (h : Servable truth ws gid) :
    ∃ w, ∀ (α : Type) (l : List α) (rev : α → String),
      List.Perm (join (truth.catalogue.currentFileOf gid) l fun cf a =>
          cf.revisionId = some (rev a))
        (l.filterMap fun a => (fileOf truth.catalogue gid (rev a)).map fun gf =>
          (truth.catalogue.currentFileRow w gf, a)) := by
  obtain ⟨w, hw⟩ := h.currentFileOf_eq
  refine ⟨w, fun α l rev => (join_perm_swap _ _ _).trans (List.Perm.of_eq ?_)⟩
  rw [join_eq_filterMap (g := fun a =>
    (fileOf truth.catalogue gid (rev a)).map (truth.catalogue.currentFileRow w)), List.map_filterMap]
  · refine List.filterMap_congr fun a _ => ?_
    rw [Option.map_map, Option.map_map]
    rfl
  · intro a _
    rw [hw, List.filter_map, List.filter_filter, Option.toList_map]
    refine congrArg _ ((List.filter_congr fun gf hgf => ?_).trans (h.filter_files (rev a)))
    rw [Bool.eq_iff_iff, Bool.and_eq_true, Function.comp_apply, decide_eq_true_eq,
      decide_eq_true_eq, decide_eq_true_eq]
    constructor
    · rintro ⟨hrid, hgid⟩
      exact ⟨hgid, hrid, h.present gf hgf hgid (by simp [show gf.revisionId = _ from hrid])⟩
    · rintro ⟨hgid, hrid, -⟩
      exact ⟨hrid, hgid⟩

end Servable

/-! ## The common form -/

/-- The relationships that the generation reaches, with their resolutions. -/
def reachedRows (truth : Truth) (gid : String) : List ResolvedRow :=
  (truth.catalogue.facts.relationshipFact.rows.filter fun f =>
    (fileOf truth.catalogue gid f.revisionId).isSome).map fun f =>
      (f, resolutionOf truth gid f.relationshipFactId)

/-- The kind and the value of the resolution are those of the symbol. -/
def namesSymbol (key : String) (r : RelationshipResolution) : Bool :=
  r.resolvedRefKind = some "symbol" ∧ r.resolvedRefValue = some key

/-- The row has the symbol at the end that is read, in the truth. -/
def truthEnd (inbound : Bool) (key : String) (row : ResolvedRow) : Bool :=
  if inbound then row.2.any (namesSymbol key)
  else row.1.sourceRefKind = .symbol ∧ row.1.sourceRefValue = key

/-- The state and the target of the edge of a row. -/
def edgeTargetOf (row : ResolvedRow) : ResolutionStatus × RefKind × String :=
  edgeTarget row.2 row.1.targetRefValue

/-- The row has the symbol at the end that is read, in the projection. -/
def edgeEnd (inbound : Bool) (key : String) (row : ResolvedRow) : Bool :=
  if inbound then (edgeTargetOf row).2.1 = .symbol ∧ (edgeTargetOf row).2.2 = key
  else row.1.sourceRefKind = .symbol ∧ row.1.sourceRefValue = key

/-- The order of the edge of a row. -/
def edgeOrder (row : ResolvedRow) : ℕ ×ₗ String :=
  toLex (relationshipReadPriority (edgeTargetOf row).1, row.1.relationshipFactId)

/-- The evidence that the edge of a row is read as. -/
def edgeEvidence (row : ResolvedRow) : ServingRelationshipEvidence where
  relationshipFactId := row.1.relationshipFactId
  sourceEntityId := entityIdFor row.1.sourceRefKind row.1.sourceRefValue
  targetEntityId := entityIdFor (edgeTargetOf row).2.1 (edgeTargetOf row).2.2
  rawTargetRefKind := row.1.targetRefKind
  rawTargetRefValue := row.1.targetRefValue
  relationshipType := row.1.relationshipType
  resolutionState := (edgeTargetOf row).1
  confidence := row.1.confidence

section CommonForm

variable {H : Hasher} {truth : Truth} {p : ServingPlane}
  {ws gid schema policy sgid key : String} {row row' : ResolvedRow} {inbound : Bool}
  {filter : RelationshipReadFilter} {n : ℕ}

lemma mem_reachedRows : row ∈ reachedRows truth gid ↔
    row.1 ∈ truth.catalogue.facts.relationshipFact ∧
      (fileOf truth.catalogue gid row.1.revisionId).isSome ∧
      row.2 = resolutionOf truth gid row.1.relationshipFactId := by
  rw [reachedRows, List.mem_map]
  constructor
  · rintro ⟨f, hf, rfl⟩
    obtain ⟨hf, hfile⟩ := List.mem_filter.mp hf
    exact ⟨hf, hfile, rfl⟩
  · rintro ⟨hf, hfile, hres⟩
    exact ⟨row.1, List.mem_filter.mpr ⟨hf, hfile⟩, by rw [← hres]⟩

/-- Rows of one fact are one row. -/
lemma eq_of_reachedRows (h : row ∈ reachedRows truth gid) (h' : row' ∈ reachedRows truth gid)
    (hid : row.1.relationshipFactId = row'.1.relationshipFactId) : row = row' := by
  obtain ⟨hf, -, hres⟩ := mem_reachedRows.mp h
  obtain ⟨hf', -, hres'⟩ := mem_reachedRows.mp h'
  have hfact : row.1 = row'.1 := Table.eq_of_clash hf hf' hid
  exact Prod.ext hfact (by rw [hres, hres', hfact])

/-- The rows a direction of the truth starts from are those that have the symbol at its end. -/
lemma perm_truthRows (h : OnePolicy truth.resolutions gid) :
    List.Perm (truthRows truth gid key inbound)
      ((truth.catalogue.facts.relationshipFact.rows.map fun f =>
        ((f, resolutionOf truth gid f.relationshipFactId) : ResolvedRow)).filter
          (truthEnd inbound key)) := by
  cases inbound with
  | false =>
    rw [truthRows, if_neg (by simp), leftJoin_eq_map fun f _ =>
      filter_resolutions h f.relationshipFactId, List.filter_map]
    exact List.Perm.refl _
  | true =>
    rw [truthRows, if_pos rfl]
    refine ((join_perm_swap _ _ _).map _).trans (List.Perm.of_eq ?_)
    rw [join_eq_filterMap (g := fun f =>
      (resolutionOf truth gid f.relationshipFactId).filter (namesSymbol key))]
    · induction truth.catalogue.facts.relationshipFact.rows with
      | nil => rfl
      | cons f l ih =>
        rw [List.map_cons, List.filter_cons, List.filterMap_cons]
        cases hres : resolutionOf truth gid f.relationshipFactId with
        | none => simpa [truthEnd] using ih
        | some r =>
          cases hr : namesSymbol key r with
          | true => simpa [truthEnd, Option.filter_some, hr] using ih
          | false => simpa [truthEnd, Option.filter_some, hr] using ih
    · intro f _
      rw [Option.toList_filter, ← filter_resolutions h, List.filter_filter, List.filter_filter]
      refine List.filter_congr fun r _ => ?_
      rw [Bool.eq_iff_iff]
      simp only [namesSymbol, Bool.and_eq_true, decide_eq_true_eq]
      tauto

/-- The rows of a direction are determined by what is reached. -/
lemma orderBy_of_reached {κ : Type} [LinearOrder κ] {order : ResolvedRow → κ × String}
    {l : List ResolvedRow} {q : ResolvedRow → Bool}
    (hid : ∀ row, (order row).2 = row.1.relationshipFactId)
    (hperm : List.Perm l ((reachedRows truth gid).filter q)) :
    orderBy (fun row => toLex (order row)) l =
      orderBy (fun row => toLex (order row)) ((reachedRows truth gid).filter q) := by
  refine (orderBy_eq_of_perm hperm.symm fun row hrow row' hrow' hkey => ?_).symm
  refine eq_of_reachedRows (List.mem_filter.mp hrow).1 (List.mem_filter.mp hrow').1 ?_
  have hsame : order row = order row' := toLex.injective hkey
  rw [← hid row, ← hid row', hsame]

/-- **A direction of the truth.** -/
lemma truthDirection_eq (h : Servable truth ws gid) :
    truthRelationshipDirection truth gid key n inbound filter =
      ((orderBy truthOrder ((reachedRows truth gid).filter fun row =>
        filter.reads inbound row.1.relationshipType && truthEnd inbound key row)).take n).map
          mapTruthRelationshipEvidence := by
  have hjoin := map_fst_join (l := truthRows truth gid key inbound)
    fun row _ => h.filter_files row.1.revisionId
  have hperm : List.Perm ((truthRows truth gid key inbound).filter fun row =>
      (fileOf truth.catalogue gid row.1.revisionId).isSome)
      ((reachedRows truth gid).filter (truthEnd inbound key)) := by
    refine ((perm_truthRows h.onePolicy).filter _).trans (List.Perm.of_eq ?_)
    have hreached : reachedRows truth gid =
        (truth.catalogue.facts.relationshipFact.rows.map fun f =>
          ((f, resolutionOf truth gid f.relationshipFactId) : ResolvedRow)).filter fun row =>
            (fileOf truth.catalogue gid row.1.revisionId).isSome := by
      rw [List.filter_map]
      rfl
    rw [hreached, List.filter_filter, List.filter_filter]
    exact List.filter_congr fun row _ => Bool.and_comm _ _
  rw [truthRelationshipDirection, hjoin]
  refine congrArg (fun l => (List.take n l).map mapTruthRelationshipEvidence) ?_
  refine orderBy_of_reached (fun _ => rfl) ?_
  rw [← List.filter_filter]
  exact hperm.filter _

/-- The row that an edge is made of, with the resolution that the edge shows. -/
def resolvedRow (truth : Truth) (gid : String) (row : RelationshipRow) : ResolvedRow :=
  (row.1.2, resolutionOf truth gid row.1.2.relationshipFactId)

/-- The edges are made of what is reached. -/
lemma perm_resolvedRows (h : Servable truth ws gid) :
    List.Perm ((relationshipRowsOf truth.catalogue gid).map (resolvedRow truth gid))
      (reachedRows truth gid) := by
  obtain ⟨w, hw⟩ := h.join_current
  have hsplit : (relationshipRowsOf truth.catalogue gid).map (resolvedRow truth gid) =
      ((relationshipRowsOf truth.catalogue gid).map Prod.fst).map fun q =>
        (q.2, resolutionOf truth gid q.2.relationshipFactId) := by
    rw [List.map_map]
    rfl
  rw [hsplit]
  refine ((perm_relationshipRows h.relationship_runs gid).map _).trans ?_
  refine ((hw _ _ RelationshipFact.revisionId).map _).trans (List.Perm.of_eq ?_)
  rw [reachedRows]
  induction truth.catalogue.facts.relationshipFact.rows with
  | nil => rfl
  | cons f l ih =>
    rw [List.filterMap_cons, List.filter_cons]
    cases hfile : fileOf truth.catalogue gid f.revisionId with
    | none => exact ih
    | some gf => exact congrArg (_ :: ·) ih

lemma fact_of_row {row : RelationshipRow} (hrow : row ∈ relationshipRowsOf truth.catalogue gid) :
    row.1.2 ∈ truth.catalogue.facts.relationshipFact :=
  (mem_currentRelationships.mp (mem_join.mp (mem_orderBy.mp hrow)).1).2.1

/-- What is selected of the edge of a row. -/
lemma edge_selected {row : RelationshipRow} :
    decide ((servingEdge H truth gid sgid row).endpoint inbound = "symbol:" ++ key ∧
      filter.reads inbound (servingEdge H truth gid sgid row).relationshipType = true) =
    (filter.reads inbound (resolvedRow truth gid row).1.relationshipType &&
      edgeEnd inbound key (resolvedRow truth gid row)) := by
  rw [Bool.eq_iff_iff, decide_eq_true_eq, Bool.and_eq_true, and_comm]
  refine and_congr Iff.rfl ?_
  cases inbound with
  | false =>
    show entityIdFor _ _ = _ ↔ decide (_ ∧ _) = true
    rw [entityIdFor_eq_symbol, decide_eq_true_eq]
    rfl
  | true =>
    show entityIdFor _ _ = _ ↔ decide (_ ∧ _) = true
    rw [entityIdFor_eq_symbol, decide_eq_true_eq]
    rfl

/-- **A direction of the projection.** -/
lemma projectedDirection_eq (h : Servable truth ws gid)
    (hp : Projected H truth p ws gid schema policy sgid) :
    projectedRelationshipDirection truth.catalogue p sgid key n inbound filter =
      ((orderBy edgeOrder ((reachedRows truth gid).filter fun row =>
        filter.reads inbound row.1.relationshipType && edgeEnd inbound key row)).take n).map
          edgeEvidence := by
  have hedges : (p.edge.rows.filter fun e => e.servingGenerationId = sgid ∧
      e.endpoint inbound = "symbol:" ++ key ∧ filter.reads inbound e.relationshipType = true) =
      ((relationshipRowsOf truth.catalogue gid).filter fun row =>
        filter.reads inbound (resolvedRow truth gid row).1.relationshipType &&
          edgeEnd inbound key (resolvedRow truth gid row)).map (servingEdge H truth gid sgid) := by
    have hsplit : (p.edge.rows.filter fun e => e.servingGenerationId = sgid ∧
        e.endpoint inbound = "symbol:" ++ key ∧ filter.reads inbound e.relationshipType = true) =
        (p.edgesOf sgid).filter fun e => e.endpoint inbound = "symbol:" ++ key ∧
          filter.reads inbound e.relationshipType = true := by
      rw [ServingPlane.edgesOf, List.filter_filter]
      refine List.filter_congr fun e _ => ?_
      rw [Bool.eq_iff_iff, Bool.and_eq_true, decide_eq_true_eq, decide_eq_true_eq,
        decide_eq_true_eq, and_comm]
    rw [hsplit, hp.edges, List.filter_map]
    exact congrArg _ (List.filter_congr fun row _ => edge_selected)
  -- every edge is joined with the fact that it was made of
  have hjoin : (leftJoin (p.edge.rows.filter fun e => e.servingGenerationId = sgid ∧
        e.endpoint inbound = "symbol:" ++ key ∧ filter.reads inbound e.relationshipType = true)
      truth.catalogue.facts.relationshipFact.rows fun e rf =>
        e.preferredFactId = some rf.relationshipFactId) =
      ((relationshipRowsOf truth.catalogue gid).filter fun row =>
        filter.reads inbound (resolvedRow truth gid row).1.relationshipType &&
          edgeEnd inbound key (resolvedRow truth gid row)).map fun row =>
            (servingEdge H truth gid sgid row, some row.1.2) := by
    have hunique : ∀ e : ServingEdge, ∀ x ∈ truth.catalogue.facts.relationshipFact,
        ∀ y ∈ truth.catalogue.facts.relationshipFact,
          decide (e.preferredFactId = some x.relationshipFactId) = true →
            decide (e.preferredFactId = some y.relationshipFactId) = true → Clash x y := by
      intro e x _ y _ hx hy
      exact Option.some.inj ((of_decide_eq_true hx).symm.trans (of_decide_eq_true hy))
    rw [leftJoin_eq_map fun e _ => Table.filter_eq_toList (hunique e), hedges, List.map_map]
    refine List.map_congr_left fun row hrow => ?_
    have hf := fact_of_row (List.mem_filter.mp hrow).1
    refine Prod.ext rfl ?_
    exact (Table.find?_eq_some_iff (hunique _)).mpr ⟨hf, decide_eq_true rfl⟩
  rw [projectedRelationshipDirection, hjoin, orderBy_map, ← List.map_take, List.map_map]
  have hsorted : orderBy edgeOrder ((reachedRows truth gid).filter fun row =>
      filter.reads inbound row.1.relationshipType && edgeEnd inbound key row) =
      (orderBy (edgeOrder ∘ resolvedRow truth gid)
        ((relationshipRowsOf truth.catalogue gid).filter fun row =>
          filter.reads inbound (resolvedRow truth gid row).1.relationshipType &&
            edgeEnd inbound key (resolvedRow truth gid row))).map (resolvedRow truth gid) := by
    rw [← orderBy_map]
    refine (orderBy_of_reached (fun _ => rfl) ?_).symm
    refine List.Perm.trans (List.Perm.of_eq ?_) ((perm_resolvedRows h).filter _)
    rw [List.filter_map]
    rfl
  rw [hsorted, ← List.map_take, List.map_map]
  rfl

end CommonForm

/-! ## Symbols -/

/-- A fact of the key that the generation reaches, with its file, revision and run. -/
structure Candidate (c : Catalogue) (gid key : String) (sf : SymbolFact) (gf : GenerationFile)
    (fr : FileRevision) (er : ExtractorRun) : Prop where
  fact_mem : sf ∈ c.facts.symbolFact
  key_eq : sf.canonicalSymbolKey = key
  file : fileOf c gid sf.revisionId = some gf
  revision_mem : fr ∈ c.fileRevision
  revision_eq : fr.revisionId = sf.revisionId
  run_mem : er ∈ c.facts.extractorRun
  run_eq : er.extractorRunId = sf.extractorRunId

/-- The evidence of a candidate. -/
def candidateEvidence (sf : SymbolFact) (gf : GenerationFile) (fr : FileRevision)
    (er : ExtractorRun) : ServingSymbolEvidence where
  canonicalSymbolKey := sf.canonicalSymbolKey
  canonicalPath := gf.canonicalPath
  symbolKind := sf.symbolKind
  factId := sf.symbolFactId
  providerTier := er.providerTier
  confidence := sf.confidence
  evidenceState := sf.evidenceMethod
  startByte := sf.startByte
  endByte := sf.endByte
  artifactClass := fr.artifactClass
  isTest := fr.isTest
  contentHash := fr.contentHash

section Symbols

variable {H : Hasher} {truth : Truth} {p : ServingPlane}
  {ws gid schema policy sgid key rid : String} {sf sf' : SymbolFact} {gf gf' : GenerationFile}
  {fr fr' : FileRevision} {er er' : ExtractorRun}

/-- Facts that are preferred equally are one fact. -/
lemma eq_of_preference {c : Catalogue} (h : sf ∈ c.facts.symbolFact)
    (h' : sf' ∈ c.facts.symbolFact) (hpref : sf.preference = sf'.preference) : sf = sf' :=
  Table.eq_of_clash h h' (Or.inl (congrArg (fun k : ℕ ×ₗ ℕ ×ₗ ℚ ×ₗ String =>
    (ofLex (ofLex (ofLex k).2).2).2) hpref))

lemma Candidate.unique {c : Catalogue} (h : Candidate c gid key sf gf fr er)
    (h' : Candidate c gid key sf gf' fr' er') : gf = gf' ∧ fr = fr' ∧ er = er' :=
  ⟨Option.some.inj (h.file.symm.trans h'.file),
    Table.eq_of_clash h.revision_mem h'.revision_mem
      (Or.inl (h.revision_eq.trans h'.revision_eq.symm)),
    Table.eq_of_clash h.run_mem h'.run_mem (Or.inl (h.run_eq.trans h'.run_eq.symm))⟩

lemma fileOf_eq_some (h : Servable truth ws gid) :
    fileOf truth.catalogue gid rid = some gf ↔ gf ∈ truth.catalogue.generationFile ∧
      gf.generationId = gid ∧ gf.revisionId = some rid ∧ gf.presenceState = .present := by
  rw [fileOf, Table.find?_eq_some_iff, decide_eq_true_eq]
  intro gf hgf gf' hgf' hp hp'
  obtain ⟨hgid, hrid, -⟩ := of_decide_eq_true hp
  obtain ⟨hgid', hrid', -⟩ := of_decide_eq_true hp'
  rw [h.revision_once gf hgf gf' hgf' hgid hgid' (by simp [hrid]) (hrid.trans hrid'.symm)]
  exact clash_refl gf'

/-- The rows of the query are the candidates. -/
lemma mem_truthSymbolRows (h : Servable truth ws gid)
    {q : ((SymbolFact × GenerationFile) × FileRevision) × ExtractorRun} :
    q ∈ join (join (join (truth.catalogue.facts.symbolFact.rows.filter fun sf =>
        sf.canonicalSymbolKey = key) truth.catalogue.generationFile.rows fun sf gf =>
          gf.generationId = gid ∧ gf.revisionId = some sf.revisionId ∧
            gf.presenceState = .present)
        truth.catalogue.fileRevision.rows fun p fr => p.2.revisionId = some fr.revisionId)
        truth.catalogue.facts.extractorRun.rows (fun p er =>
          er.extractorRunId = p.1.1.extractorRunId) ↔
      Candidate truth.catalogue gid key q.1.1.1 q.1.1.2 q.1.2 q.2 := by
  obtain ⟨⟨⟨sf, gf⟩, fr⟩, er⟩ := q
  rw [mem_join, mem_join, mem_join, List.mem_filter]
  simp only [decide_eq_true_eq]
  constructor
  · rintro ⟨⟨⟨⟨hsf, hkey⟩, hgf, hgid, hrid, hpresent⟩, hfr, hrev⟩, her, hrun⟩
    exact ⟨hsf, hkey, (fileOf_eq_some h).mpr ⟨hgf, hgid, hrid, hpresent⟩, hfr,
      Option.some.inj (hrev.symm.trans hrid), her, hrun⟩
  · intro hc
    obtain ⟨hgf, hgid, hrid, hpresent⟩ := (fileOf_eq_some h).mp hc.file
    exact ⟨⟨⟨⟨hc.fact_mem, hc.key_eq⟩, hgf, hgid, hrid, hpresent⟩, hc.revision_mem,
      hrid.trans (congrArg some hc.revision_eq.symm)⟩, hc.run_mem, hc.run_eq⟩

/-- **The evidence of a symbol in the truth** is that of its preferred candidate. -/
lemma truthSymbol_eq (h : Servable truth ws gid)
    (hc : Candidate truth.catalogue gid key sf gf fr er)
    (hleast : ∀ sf' gf' fr' er', Candidate truth.catalogue gid key sf' gf' fr' er' →
      sf.preference ≤ sf'.preference) :
    truthSymbolEvidence truth.catalogue gid key = [candidateEvidence sf gf fr er] := by
  rw [truthSymbolEvidence, take_one_orderBy (a := (((sf, gf), fr), er))]
  · rfl
  · intro q hq q' hq' hpref
    have hq := (mem_truthSymbolRows h).mp hq
    have hq' := (mem_truthSymbolRows h).mp hq'
    obtain ⟨⟨⟨sf₁, gf₁⟩, fr₁⟩, er₁⟩ := q
    obtain ⟨⟨⟨sf₂, gf₂⟩, fr₂⟩, er₂⟩ := q'
    obtain rfl : sf₁ = sf₂ := eq_of_preference hq.fact_mem hq'.fact_mem hpref
    obtain ⟨rfl, rfl, rfl⟩ := hq.unique hq'
    rfl
  · exact (mem_truthSymbolRows h).mpr hc
  · intro q hq
    exact hleast _ _ _ _ ((mem_truthSymbolRows h).mp hq)

/-- The rows that cards are made of are the candidates. -/
lemma symbolRow_candidate (h : Servable truth ws gid) {row : SymbolRow}
    (hrow : row ∈ symbolRowsOf truth.catalogue gid) :
    ∃ gf fr, Candidate truth.catalogue gid row.key row.fact gf fr row.run ∧
      row.file.canonicalPath = gf.canonicalPath := by
  obtain ⟨⟨cf, sf⟩, er⟩ := row
  obtain ⟨hcurrent, her, hrun⟩ := mem_join.mp (mem_orderBy.mp hrow)
  obtain ⟨w, hw⟩ := h.join_current
  obtain ⟨sf', hsf, hfile⟩ :=
    List.mem_filterMap.mp ((hw _ _ SymbolFact.revisionId).mem_iff.mp hcurrent)
  obtain ⟨gf, hgf, heq⟩ := Option.map_eq_some_iff.mp hfile
  obtain ⟨rfl, rfl⟩ := Prod.mk.inj heq
  obtain ⟨hmem, hgid, hrid, -⟩ := (fileOf_eq_some h).mp hgf
  obtain ⟨fr, hfr, hrev⟩ := h.revision_stored gf hmem hgid sf'.revisionId hrid
  exact ⟨gf, fr, ⟨hsf, rfl, hgf, hfr, hrev, her, of_decide_eq_true hrun⟩, rfl⟩

lemma candidate_symbolRow (h : Servable truth ws gid)
    (hc : Candidate truth.catalogue gid key sf gf fr er) :
    ∃ row ∈ symbolRowsOf truth.catalogue gid, row.key = key ∧ row.fact = sf := by
  obtain ⟨w, hw⟩ := h.join_current
  have hcurrent : (truth.catalogue.currentFileRow w gf, sf) ∈
      truth.catalogue.currentSymbols gid := by
    refine (hw _ _ SymbolFact.revisionId).mem_iff.mpr (List.mem_filterMap.mpr ⟨sf, hc.fact_mem, ?_⟩)
    rw [hc.file]
    rfl
  exact ⟨((truth.catalogue.currentFileRow w gf, sf), er),
    mem_orderBy.mpr (mem_join.mpr ⟨hcurrent, hc.run_mem, decide_eq_true hc.run_eq⟩), hc.key_eq, rfl⟩

/-- **The evidence of a symbol in the projection** is that of the first row of its key. -/
lemma projectedSymbol_eq (h : Servable truth ws gid)
    (hp : Projected H truth p ws gid schema policy sgid) {row : SymbolRow}
    (hfirst : (symbolRowsOf truth.catalogue gid).find? (fun row => row.key = key) = some row)
    (hc : Candidate truth.catalogue gid key row.fact gf fr row.run)
    (hpath : row.file.canonicalPath = gf.canonicalPath) :
    projectedSymbolEvidence truth.catalogue p gid sgid key =
      [candidateEvidence row.fact gf fr row.run] := by
  have hkey : row.key = key := by simpa using List.find?_some hfirst
  have hmem : symbolCard truth gid sgid row ∈
      p.symbolCard.rows.filter fun card => card.servingGenerationId = sgid := by
    rw [hp.cards]
    refine List.mem_map_of_mem (List.mem_of_find?_eq_some (p := fun row => row.key = key) ?_)
    rw [find?_firsts (by simp)]
    exact hfirst
  -- the card of the key is that of the first row, and everything is joined with one row
  have hcards : (p.symbolCard.rows.filter fun card =>
      card.servingGenerationId = sgid ∧ card.canonicalSymbolKey = key) =
      [symbolCard truth gid sgid row] := by
    refine Table.filter_eq_singleton (List.mem_filter.mp hmem).1 (decide_eq_true ⟨rfl, hkey⟩) ?_
    intro card _ hcond
    obtain ⟨hsgid, hcardkey⟩ := of_decide_eq_true hcond
    exact Prod.ext hsgid (hcardkey.trans hkey.symm)
  have hfacts : (truth.catalogue.facts.symbolFact.rows.filter fun sf =>
      sf.symbolFactId = (symbolCard truth gid sgid row).preferredFactId) = [row.fact] :=
    Table.filter_eq_singleton hc.fact_mem (decide_eq_true rfl) fun sf _ hsf =>
      Or.inl (of_decide_eq_true hsf)
  have hfiles : (truth.catalogue.generationFile.rows.filter fun gf => gf.generationId = gid ∧
      gf.revisionId = some row.fact.revisionId ∧ gf.presenceState = .present) = [gf] := by
    rw [h.filter_files, hc.file]
    rfl
  have hrid := ((fileOf_eq_some h).mp hc.file).2.2.1
  have hrevisions : (truth.catalogue.fileRevision.rows.filter fun fr =>
      gf.revisionId = some fr.revisionId) = [fr] := by
    refine Table.filter_eq_singleton hc.revision_mem
      (decide_eq_true (hrid.trans (congrArg some hc.revision_eq.symm))) fun x _ hx => Or.inl ?_
    exact (Option.some.inj (hrid.symm.trans (of_decide_eq_true hx))).symm.trans
      hc.revision_eq.symm
  rw [projectedSymbolEvidence, hcards, join_singleton hfacts, join_singleton hfiles,
    join_singleton hrevisions, candidateEvidence, ← hpath]
  rfl

/-- **Symbols agree**: both sides answer with the preferred candidate. -/
theorem symbol_agrees (h : Servable truth ws gid)
    (hp : Projected H truth p ws gid schema policy sgid) (key : String) :
    projectedSymbolEvidence truth.catalogue p gid sgid key =
      truthSymbolEvidence truth.catalogue gid key := by
  cases hfirst : (symbolRowsOf truth.catalogue gid).find? fun row => row.key = key with
  | some row =>
    have hkey : row.key = key := by simpa using List.find?_some hfirst
    obtain ⟨gf, fr, hc, hpath⟩ := symbolRow_candidate h (List.mem_of_find?_eq_some hfirst)
    rw [hkey] at hc
    rw [projectedSymbol_eq h hp hfirst hc hpath]
    refine (truthSymbol_eq h hc fun sf' gf' fr' er' hc' => ?_).symm
    obtain ⟨row', hrow', hkey', rfl⟩ := candidate_symbolRow h hc'
    exact le_of_find?_orderBy (a := row) (b := row') hfirst (mem_orderBy.mp hrow') hkey'
  | none =>
    -- no row has the key, so neither side has anything
    have hnone := List.find?_eq_none.mp hfirst
    have hcards : (p.symbolCard.rows.filter fun card =>
        card.servingGenerationId = sgid ∧ card.canonicalSymbolKey = key) = [] := by
      refine List.filter_eq_nil_iff.mpr fun card hcard hcond => ?_
      obtain ⟨hsgid, hkey⟩ := of_decide_eq_true hcond
      have hmem : card ∈ p.symbolCard.rows.filter fun card => card.servingGenerationId = sgid :=
        List.mem_filter.mpr ⟨hcard, decide_eq_true hsgid⟩
      rw [hp.cards] at hmem
      obtain ⟨row, hrow, rfl⟩ := List.mem_map.mp hmem
      exact hnone row (mem_of_mem_firsts hrow) (decide_eq_true hkey)
    have htruth : truthSymbolEvidence truth.catalogue gid key = [] := by
      rw [truthSymbolEvidence, List.map_eq_nil_iff, List.take_eq_nil_iff]
      refine Or.inr (List.eq_nil_iff_forall_not_mem.mpr fun q hq => ?_)
      obtain ⟨row, hrow, hkey, -⟩ :=
        candidate_symbolRow h ((mem_truthSymbolRows h).mp (mem_orderBy.mp hq))
      exact hnone row hrow (decide_eq_true hkey)
    rw [htruth, projectedSymbolEvidence, hcards]
    rfl

end Symbols

end Agreement

end WorkspaceAtlas
