/-
# The facts of the last provider run

The facts that a provider reports about a document are inserted under the run of the provider
over the document's revision, and a run that is already there is found again.  Nothing is ever
deleted from it, so what an earlier execution reported about an unchanged file stays next to
what the last one reports.
-/
import WorkspaceAtlas.Discovery.Stages
import WorkspaceAtlas.Semantic.StoredRows
import WorkspaceAtlas.Transition.Iteration

namespace WorkspaceAtlas

open Relational Transition

namespace Freshness

/-! ## What a provider has reported -/

/-- The columns of a fact. -/
def columns (f : RelationshipFact) : RelationshipFact := { f with extractedFrom := [] }

/-- The semantic relationships of a revision under the provider, the version and the
configuration of a plan. -/
def reported (t : FactTables) (plan : SemanticPlan) (rid : String) : List RelationshipFact :=
  t.relationshipFact.rows.filter fun f =>
    f.revisionId = rid ∧ f.evidenceMethod = .semantic ∧
      ∃ run ∈ t.extractorRun.rows, run.extractorRunId = f.extractorRunId ∧
        run.providerName = plan.providerName ∧ run.providerVersion = plan.providerVersion ∧
        run.configurationHash = plan.configurationHash

/-- The rows mapped from the relationships of a document. -/
def mappedRows (H : Hasher) (t : FactTables) (plan : SemanticPlan) (rid : String)
    (doc : ProviderDocument) : List RelationshipFact :=
  doc.mapped.relationships.map fun rel => rel.row H (semanticRunId H t plan rid) rid []

/-- No document of the plan was mapped in part. -/
def EndedComplete (plan : SemanticPlan) : Prop :=
  ∀ documents, plan.result = .executed documents →
    ∀ doc ∈ documents, doc.mapped.partlyMapped = false

/-! ## The system -/

/-- A reconcile of some workspace. -/
structure Call where
  ws : Workspace
  input : ReconcileInput

/-- The catalogue, and the candidate and the plans of the last call if its facts were
committed. -/
structure PersistedState where
  catalogue : Catalogue
  persisted : Option (String × List SemanticPlan)

/-- Some registered workspaces. -/
def PersistedState.start (workspaceIds : List String) : PersistedState :=
  ⟨Catalogue.registered workspaceIds, none⟩

/-- One call. -/
def step (env : Environment) (s : PersistedState) (call : Call) : PersistedState :=
  let outcome := reconcile env s.catalogue call.ws call.input
  ⟨outcome.1, outcome.2.toOption.map fun report =>
    (report.candidateGenerationId, call.input.plans)⟩

/-- What a plan that ended complete has reported about a document of the new generation is
exactly what was mapped from the document. -/
def Fresh (env : Environment) (s : PersistedState) : Prop :=
  ∀ gid plans, s.persisted = some (gid, plans) → ∀ plan rid doc,
    StoresDocument s.catalogue.generationFile gid plans plan rid doc → EndedComplete plan →
      ∀ row, row ∈ (reported s.catalogue.facts plan rid).map columns ↔
        row ∈ mappedRows env.hasher s.catalogue.facts plan rid doc

/-! ## The condition -/

/-- Everything that the plans find or store under the run or the ids of the document's rows
is one of these rows. -/
structure Settles (H : Hasher) (t : FactTables) (files : Table GenerationFile) (gid : String)
    (plans : List SemanticPlan) (plan : SemanticPlan) (rid : String) (doc : ProviderDocument) :
    Prop where
  /-- No row violates a `CHECK`. -/
  valid : ∀ row ∈ mappedRows H t plan rid doc, row.Valid
  /-- What earlier executions reported is reported again. -/
  kept : ∀ f ∈ reported t plan rid, columns f ∈ mappedRows H t plan rid doc
  /-- No row is refused for another one that is stored. -/
  free : ∀ f ∈ t.relationshipFact, ∀ row ∈ mappedRows H t plan rid doc,
    Clash f row → columns f = row
  /-- Nor is one refused for a row of a document of this call, or stored next to it. -/
  alone : ∀ plan' rid' doc', StoresDocument files gid plans plan' rid' doc' →
    ∀ row' ∈ mappedRows H t plan' rid' doc', row'.Valid →
      (∀ x ∈ t.relationshipFact, ¬ Clash x row') →
      (plan'.identity rid' = plan.identity rid → row' ∈ mappedRows H t plan rid doc) ∧
        ∀ row ∈ mappedRows H t plan rid doc, Clash row' row → row' = row

/-- Every document of a plan that ended complete settles what its plans store. -/
def SettlesAll (env : Environment) (s : PersistedState) (call : Call) : Prop :=
  ∀ files begun candidate walked, call.input.files = .ok files →
    withFault call.input.faults.begin (beginCandidate env.hasher s.catalogue call.ws.workspaceId
      .reconcile "p_reconcile_v1" "1.3.0" call.input.now) = .ok (begun, candidate) →
    files.mapM (hashWalked env call.input.policy) = .ok walked →
    call.input.faults.facts = none →
    ∀ st : FactsStages env begun call.ws.workspaceId candidate.generationId walked
      call.input.plans call.input.now,
    ∀ plan rid doc, StoresDocument st.deleted.generationFile candidate.generationId
        call.input.plans plan rid doc → EndedComplete plan →
      Settles env.hasher st.deleted.facts st.deleted.generationFile candidate.generationId
        call.input.plans plan rid doc

/-! ## Checking the condition -/

/-- The documents that are stored, with their revisions. -/
def storedDocuments (files : Table GenerationFile) (gid : String) (plans : List SemanticPlan) :
    List (SemanticPlan × String × ProviderDocument) :=
  (executedDocuments plans).filterMap fun (plan, doc) =>
    if doc.mapped.partlyMapped then none
    else (documentRevision files gid doc.mapped.canonicalPath).map (plan, ·, doc)

lemma storesDocument_iff {files : Table GenerationFile} {gid rid : String}
    {plans : List SemanticPlan} {plan : SemanticPlan} {doc : ProviderDocument} :
    StoresDocument files gid plans plan rid doc ↔
      (plan, rid, doc) ∈ storedDocuments files gid plans := by
  simp only [storedDocuments, List.mem_filterMap, Prod.exists]
  constructor
  · rintro ⟨hmem, hrev, hwhole⟩
    exact ⟨plan, doc, hmem, by simp [hwhole, hrev]⟩
  · rintro ⟨plan', doc', hmem, h⟩
    split at h
    next => exact absurd h (by simp)
    next hwhole =>
      obtain ⟨rid', hrev, heq⟩ := Option.map_eq_some_iff.mp h
      obtain ⟨rfl, hpair⟩ := Prod.mk.inj heq
      obtain ⟨rfl, rfl⟩ := Prod.mk.inj hpair
      exact ⟨hmem, hrev, by simpa using hwhole⟩

instance (plan : SemanticPlan) : Decidable (EndedComplete plan) :=
  match h : plan.result with
  | .executed documents =>
    decidable_of_iff (∀ doc ∈ documents, doc.mapped.partlyMapped = false) <| by
      simp [EndedComplete, h]
  | .error _ | .failure _ | .reused => isTrue <| by simp [EndedComplete, h]

/-- The catalogue that the plans of a call meet. -/
def beforePlans (env : Environment) (c : Catalogue) (wsId gid : String) (walked : List Walked)
    (now : Timestamp) : Except AtlasError Catalogue := do
  let renamed ← (detectedRenames c wsId walked).foldlM (recordRename env.hasher wsId gid now) c
  let (recorded, _) ← walked.foldlM (recordWalked env wsId gid now) (renamed, 0)
  (detectedDeletions c wsId walked).foldlM (recordDeletion env.hasher wsId gid now) recorded

/-- Whether the plans of a call meet no relationship. -/
def meetsNone (env : Environment) (s : PersistedState) (call : Call) : Bool :=
  match call.input.files with
  | .error _ => true
  | .ok files =>
    match withFault call.input.faults.begin (beginCandidate env.hasher s.catalogue
        call.ws.workspaceId .reconcile "p_reconcile_v1" "1.3.0" call.input.now),
      files.mapM (hashWalked env call.input.policy) with
    | .ok (begun, candidate), .ok walked =>
      match beforePlans env begun call.ws.workspaceId candidate.generationId walked
          call.input.now with
      | .ok c => c.facts.relationshipFact.rows.isEmpty
      | .error _ => true
    | _, _ => true

/-- A call with one document of one relationship, whose plans meet none. -/
lemma settlesAll_of_meetsNone {env : Environment} {s : PersistedState} {call : Call}
    {plan : SemanticPlan} {doc : ProviderDocument} {rel : MappedRelationship}
    (hone : executedDocuments call.input.plans = [(plan, doc)])
    (hrel : doc.mapped.relationships = [rel]) (hvalid : 0 ≤ rel.confidence ∧ rel.confidence ≤ 1)
    (h : meetsNone env s call = true) : SettlesAll env s call := by
  intro files begun candidate walked hfiles hbegin hwalked _ st plan' rid doc' hdoc _
  have hbefore : beforePlans env begun call.ws.workspaceId candidate.generationId walked
      call.input.now = .ok st.deleted := by
    simp only [beforePlans, bind_ok]
    exact ⟨st.renamed, st.renames_ok, (st.recorded, st.parsed), st.walk_ok, st.deletions_ok⟩
  simp only [meetsNone, hfiles, hbegin, hwalked, hbefore, List.isEmpty_iff] at h
  have hnone : ∀ f, f ∉ st.deleted.facts.relationshipFact := by
    intro f hf
    rw [Table.mem_def, h] at hf
    exact absurd hf (by simp)
  have hmem : ∀ {plan₁ rid₁ doc₁}, StoresDocument st.deleted.generationFile
      candidate.generationId call.input.plans plan₁ rid₁ doc₁ → plan₁ = plan ∧ doc₁ = doc := by
    intro plan₁ rid₁ doc₁ hdoc₁
    have hsame := hdoc₁.mem
    rw [hone] at hsame
    exact Prod.mk.inj (List.mem_singleton.mp hsame)
  obtain ⟨rfl, rfl⟩ := hmem hdoc
  refine ⟨?_, ?_, fun f hf => absurd hf (hnone f), ?_⟩
  · intro row hrow
    simp only [mappedRows, hrel, List.map_cons, List.map_nil, List.mem_singleton] at hrow
    rw [hrow]
    exact hvalid
  · intro f hf
    exact absurd (List.mem_filter.mp hf).1 (hnone f)
  · intro plan₁ rid₁ doc₁ hdoc₁ row' hrow' _ _
    obtain ⟨rfl, rfl⟩ := hmem hdoc₁
    obtain rfl := Option.some.inj (hdoc₁.revision.symm.trans hdoc.revision)
    refine ⟨fun _ => hrow', fun row hrow _ => ?_⟩
    simp only [mappedRows, hrel, List.map_cons, List.map_nil, List.mem_singleton] at hrow hrow'
    rw [hrow, hrow']

section Lemmas

variable {env : Environment} {H : Hasher} {t t' : FactTables} {files : Table GenerationFile}
  {gid rid : String} {plans : List SemanticPlan} {plan : SemanticPlan} {doc : ProviderDocument}
  {f : RelationshipFact} {c c' : Catalogue} {ws : String} {now : Timestamp}
  {walked : List Walked}

lemma mem_reported : f ∈ reported t plan rid ↔ f ∈ t.relationshipFact ∧ f.revisionId = rid ∧
    f.evidenceMethod = .semantic ∧ ∃ run ∈ t.extractorRun,
      run.extractorRunId = f.extractorRunId ∧ run.providerName = plan.providerName ∧
      run.providerVersion = plan.providerVersion ∧
      run.configurationHash = plan.configurationHash := by
  simp [reported, Table.mem_def]

lemma mem_mappedRows {row : RelationshipFact} : row ∈ mappedRows H t plan rid doc ↔
    ∃ rel ∈ doc.mapped.relationships, rel.row H (semanticRunId H t plan rid) rid [] = row :=
  List.mem_map

/-- Which text a row was extracted from is no column. -/
lemma columns_row {rel : MappedRelationship} {runId : String} {seen : List (List UInt8)} :
    columns (rel.row H runId rid seen) = rel.row H runId rid [] := rfl

lemma clash_columns {g : RelationshipFact} : Clash (columns f) g ↔ Clash f g := Iff.rfl

lemma mappedRows_of_runId (h : semanticRunId H t' plan rid = semanticRunId H t plan rid) :
    mappedRows H t' plan rid doc = mappedRows H t plan rid doc := by
  rw [mappedRows, mappedRows, h]

/-- A row of the facts before or a row of a document. -/
lemma origin (hrows : StoredRows H files gid (executedDocuments plans) t t')
    (hf : f ∈ t'.relationshipFact) : f ∈ t.relationshipFact ∨
      ∃ plan' rid' doc', StoresDocument files gid plans plan' rid' doc' ∧
        columns f ∈ mappedRows H t plan' rid' doc' ∧ (columns f).Valid ∧
        ∀ x ∈ t.relationshipFact, ¬ Clash x (columns f) := by
  rcases hrows.added f hf with hold | ⟨plan', doc', rid', hmem, hrev, hwhole, ⟨rel, hrel, heq⟩,
    hvalid, hfree⟩
  · exact Or.inl hold
  · refine Or.inr ⟨plan', rid', doc', ⟨hmem, hrev, hwhole⟩, ?_, hvalid, hfree⟩
    rw [heq]
    exact mem_mappedRows.mpr ⟨rel, hrel, rfl⟩

lemma revisionId_of_mem {row : RelationshipFact} (h : row ∈ mappedRows H t plan rid doc) :
    row.revisionId = rid ∧ row.evidenceMethod = .semantic ∧
      row.extractorRunId = semanticRunId H t plan rid := by
  obtain ⟨rel, -, rfl⟩ := mem_mappedRows.mp h
  exact ⟨rfl, rfl, rfl⟩

/-- **One document.**  If it settles what the plans store, its provider has reported exactly
its rows. -/
lemma Settles.reported_iff (hs : Settles H t files gid plans plan rid doc)
    (hdoc : StoresDocument files gid plans plan rid doc) (hruns : RunsStored t)
    (hrows : StoredRows H files gid (executedDocuments plans) t t') {row : RelationshipFact} :
    row ∈ (reported t' plan rid).map columns ↔ row ∈ mappedRows H t' plan rid doc := by
  rw [mappedRows_of_runId (hrows.grows.runId plan rid)]
  constructor
  · intro hrow
    obtain ⟨f, hf, rfl⟩ := List.mem_map.mp hrow
    obtain ⟨hf, hrid, hsem, run, hrun, hid, hname, hversion, hconfig⟩ := mem_reported.mp hf
    rcases origin hrows hf with hold | ⟨plan', rid', doc', hdoc', hmem, hvalid, hfree⟩
    · -- its run was there before, and runs have distinct ids
      obtain ⟨run', hrun', hid'⟩ := hruns f hold
      have hsame : run = run' :=
        Table.eq_of_clash hrun (hrows.grows.runs.mem hrun') (Or.inl (hid.trans hid'.symm))
      subst hsame
      exact hs.kept f (mem_reported.mpr ⟨hold, hrid, hsem, run, hrun', hid, hname, hversion,
        hconfig⟩)
    · obtain ⟨hrid', -, hrunId⟩ := revisionId_of_mem hmem
      obtain ⟨run', hrun', hident, hid'⟩ :=
        hrows.run plan' doc' hdoc'.mem rid' hdoc'.revision hdoc'.whole
      have hsame : run = run' :=
        Table.eq_of_clash hrun hrun' (Or.inl (hid.trans (hrunId.trans hid'.symm)))
      subst hsame
      have hplan : plan'.identity rid' = plan.identity rid := by
        simp only [ExtractorRun.identity, SemanticPlan.identity, Prod.mk.injEq] at hident ⊢
        obtain ⟨-, hname', hversion', hconfig', -⟩ := hident
        exact ⟨hrid'.symm.trans hrid, hname'.symm.trans hname, hversion'.symm.trans hversion,
          hconfig'.symm.trans hconfig, trivial⟩
      exact (hs.alone plan' rid' doc' hdoc' (columns f) hmem hvalid hfree).1 hplan
  · intro hrow
    obtain ⟨rel, hrel, rfl⟩ := mem_mappedRows.mp hrow
    have hvalid := hs.valid _ hrow
    obtain ⟨x, hx, hclash⟩ := hrows.stored plan doc hdoc.mem rid hdoc.revision hdoc.whole rel
      hrel hvalid
    -- whatever has the id of the row is the row
    have hcolumns : columns x = rel.row H (semanticRunId H t plan rid) rid [] := by
      rcases origin hrows hx with hold | ⟨plan', rid', doc', hdoc', hmem, hvalid, hfree⟩
      · exact hs.free x hold _ hrow hclash
      · exact (hs.alone plan' rid' doc' hdoc' (columns x) hmem hvalid hfree).2 _ hrow hclash
    obtain ⟨run, hrun, hident, hid⟩ := hrows.run plan doc hdoc.mem rid hdoc.revision hdoc.whole
    refine List.mem_map.mpr ⟨x, mem_reported.mpr ⟨hx, ?_, ?_, run, hrun, ?_, ?_⟩, hcolumns⟩
    · exact congrArg RelationshipFact.revisionId hcolumns
    · exact congrArg RelationshipFact.evidenceMethod hcolumns
    · exact hid.trans (congrArg RelationshipFact.extractorRunId hcolumns).symm
    · simp only [ExtractorRun.identity, SemanticPlan.identity, Prod.mk.injEq] at hident
      exact ⟨hident.2.1, hident.2.2.1, hident.2.2.2.1⟩

/-! ## The runs of the facts -/

/-- The walk keeps the runs of the facts. -/
lemma walk_runsStored {n n' : ℕ} (hc : RunsStored c.facts)
    (h : walked.foldlM (recordWalked env ws gid now) (c, n) = .ok (c', n')) :
    RunsStored c'.facts := by
  refine loop_preserves (I := fun s : Catalogue × ℕ => RunsStored s.1.facts) hc ?_ h
  rintro w - ⟨u, m⟩ ⟨u', m'⟩ hu hok
  cases w with
  | present path content text =>
    obtain ⟨isNew, hp⟩ := recordWalked_present hok
    obtain ⟨identities, fileId, revisions, revisionId, files, facts, -, -, -, hfacts, rfl⟩ :=
      recordPresent_ok hp
    split at hfacts
    next => exact hu.persistProviderBatch hfacts
    next =>
      obtain rfl := hfacts
      exact hu
  | skipped path kind code detail =>
    obtain ⟨files, -, rfl⟩ := recordSkipped_ok (recordWalked_skipped hok)
    exact hu

/-- If no extractor reports a relationship, the walk stores none. -/
lemma walk_noRelationships {n n' : ℕ}
    (hext : ∀ path text, (env.extract path text).relationships = [])
    (h : walked.foldlM (recordWalked env ws gid now) (c, n) = .ok (c', n')) :
    c'.facts.relationshipFact = c.facts.relationshipFact := by
  refine loop_preserves (I := fun s : Catalogue × ℕ =>
    s.1.facts.relationshipFact = c.facts.relationshipFact) rfl ?_ h
  rintro w - ⟨u, m⟩ ⟨u', m'⟩ hu hok
  cases w with
  | present path content text =>
    obtain ⟨isNew, hp⟩ := recordWalked_present hok
    obtain ⟨identities, fileId, revisions, revisionId, files, facts, -, -, -, hfacts, rfl⟩ :=
      recordPresent_ok hp
    split at hfacts
    next => exact (persistProviderBatch_noRelationships (hext path text) hfacts).trans hu
    next =>
      obtain rfl := hfacts
      exact hu
  | skipped path kind code detail =>
    obtain ⟨files, -, rfl⟩ := recordSkipped_ok (recordWalked_skipped hok)
    exact hu

/-- The plans then meet the relationships that were there before the call. -/
lemma beforePlans_relationships (hext : ∀ path text, (env.extract path text).relationships = [])
    (h : beforePlans env c ws gid walked now = .ok c') :
    c'.facts.relationshipFact = c.facts.relationshipFact := by
  simp only [beforePlans, bind_ok, Prod.exists] at h
  obtain ⟨renamed, hrenames, recorded, n, hwalk, hdeletions⟩ := h
  obtain ⟨-, events, -, rfl⟩ := recordRenames_ok.mp hrenames
  obtain ⟨-, events', tombstones, -, -, rfl⟩ := recordDeletionLoop_ok.mp hdeletions
  have hrecorded := walk_noRelationships hext hwalk
  exact hrecorded

lemma meetsNone_of_empty {s : PersistedState}
    (hext : ∀ path text, (env.extract path text).relationships = [])
    (hs : s.catalogue.facts.relationshipFact.rows = []) (call : Call) :
    meetsNone env s call = true := by
  unfold meetsNone
  split
  next => rfl
  next =>
    split
    next begun candidate walked hbegin hwalked =>
      split
      next c' hbefore =>
        obtain ⟨-, hbegin⟩ := withFault_ok.mp hbegin
        obtain ⟨b⟩ := beginCandidate_begun hbegin
        rw [List.isEmpty_iff, beforePlans_relationships hext hbefore,
          congrArg Catalogue.facts b.begun_eq]
        exact hs
      next => rfl
    next => rfl

/-- The stages before the plans keep the runs of the facts. -/
lemma deleted_runsStored {plans : List SemanticPlan} (hc : RunsStored c.facts)
    (st : FactsStages env c ws gid walked plans now) : RunsStored st.deleted.facts := by
  obtain ⟨events, -, hrenamed⟩ := st.renamed_eq
  obtain ⟨events', tombstones, -, -, hdeleted⟩ := st.deleted_eq
  rw [hdeleted]
  show RunsStored st.recorded.facts
  refine walk_runsStored ?_ st.walk_ok
  rw [hrenamed]
  exact hc

/-! ## The invariant -/

/-- What the calls keep. -/
structure Inv (env : Environment) (s : PersistedState) : Prop where
  runs : RunsStored s.catalogue.facts
  fresh : Fresh env s

lemma inv_start (workspaceIds : List String) : Inv env (.start workspaceIds) :=
  ⟨.empty, fun _ _ h => absurd h (by simp [PersistedState.start])⟩

lemma inv_step {s : PersistedState} (call : Call) (h : Inv env s)
    (hcall : SettlesAll env s call) : Inv env (step env s call) := by
  have hnone : ∀ c, RunsStored c.facts → Inv env ⟨c, none⟩ :=
    fun c hc => ⟨hc, fun _ _ h => absurd h (by simp)⟩
  have hend := reconcile_ending env s.catalogue call.ws call.input
  simp only [step]
  generalize reconcile env s.catalogue call.ws call.input = res at hend ⊢
  obtain ⟨c', r⟩ := res
  cases hend with
  | notBegun e hnot => exact hnone _ h.runs
  | @stopped begun candidate files e hfiles hbegin hnot =>
    obtain ⟨-, hbegin⟩ := withFault_ok.mp hbegin
    obtain ⟨b⟩ := beginCandidate_begun hbegin
    refine hnone _ ?_
    rw [congrArg Catalogue.facts b.begun_eq]
    exact h.runs
  | @finished begun recorded candidate files walked facts report hfiles hbegin hwalked hfacts
      hreport =>
    obtain ⟨hfault, hfacts⟩ := withFault_ok.mp hfacts
    obtain ⟨-, hbegin'⟩ := withFault_ok.mp hbegin
    obtain ⟨b⟩ := beginCandidate_begun hbegin'
    obtain ⟨st, hst, -⟩ := factsTransaction_ok hfacts
    have hbegun : RunsStored begun.facts := by
      rw [congrArg Catalogue.facts b.begun_eq]
      exact h.runs
    have hdeleted := deleted_runsStored hbegun st
    have hrows := runSemanticReconcile_rows st.semantic_ok
    obtain ⟨workspaces, p, f', sessions, -, hframe⟩ := activateOrFail_frame call.input.faults
      recorded call.ws.workspaceId candidate.generationId facts.semantic
      (sourceTreeHash env.hasher (walked.filterMap Walked.presentHash?)) call.input.now
    have hcandidate := hreport.1
    obtain ⟨f, -, -, rfl⟩ := hst
    constructor
    · show RunsStored (activateOrFail _ _ _ _ _ _ _).1.facts
      rw [hframe]
      exact hrows.runsStored hdeleted
    · intro gid plans hgid plan rid doc hdoc hcomplete row
      obtain ⟨rfl, rfl⟩ := Prod.mk.inj (Option.some.inj hgid)
      rw [hcandidate] at hdoc
      simp only [hframe] at hdoc ⊢
      exact (hcall files begun candidate walked hfiles hbegin hwalked hfault st plan rid doc hdoc
        hcomplete).reported_iff hdoc hdeleted hrows

end Lemmas

/-- **No stale facts** in every run in which every document of a complete plan settles what
its call stores. -/
theorem fresh_of_settlesAll (env : Environment) (workspaceIds : List String)
    (calls : List Call) (h : AllSteps (step env) (SettlesAll env) (.start workspaceIds) calls) :
    AllStates (step env) (Fresh env) (.start workspaceIds) calls :=
  allStates_of_allSteps (I := Inv env) (inv_start workspaceIds) h
    (fun _ call hI hcall => inv_step call hI hcall) fun _ hI => hI.fresh

/-- A provider that reports some references from a file. -/
def reportingPlan (relationships : List MappedRelationship) : SemanticPlan where
  providerName := "scip"
  providerVersion := "1"
  configurationHash := ""
  required := false
  enabled := true
  result := .executed [⟨⟨"a", .utf8, [], relationships, false⟩, [1], some ""⟩]

/-- A reference from the file. -/
def reference : MappedRelationship :=
  ⟨.references, "a", 0, 0, 0, 0, .symbol, "k", "s", 1, "scip_occurrence"⟩

/-- A reconcile of the file, in which the provider reports the references. -/
def reportingCall (relationships : List MappedRelationship) : Call :=
  ⟨⟨"ws", none⟩, ⟨.ok [.readable "a" [1]], .none, [reportingPlan relationships], .none, 0⟩⟩

theorem fresh_reported : AllStates (step .plain) (Fresh .plain) (.start ["ws"])
    [reportingCall [reference]] := by
  have hnone : meetsNone .plain (.start ["ws"]) (reportingCall [reference]) = true :=
    meetsNone_of_empty (fun _ _ => rfl) rfl _
  have hsettles : SettlesAll .plain (.start ["ws"]) (reportingCall [reference]) :=
    settlesAll_of_meetsNone rfl rfl (by decide) hnone
  exact fresh_of_settlesAll .plain ["ws"] _ (allSteps_cons.mpr ⟨hsettles, allSteps_nil⟩)

/-- The reference is reported once and then no more. -/
def dropped : List Call := [reportingCall [reference], reportingCall []]

/-- It is still there. -/
theorem dropped_not_fresh : ¬ AllStates (step .plain) (Fresh .plain) (.start ["ws"]) dropped := by
  intro hall
  have hleft : ∃ p ∈ (run (step .plain) (.start ["ws"]) dropped).persisted,
      ∃ d ∈ storedDocuments (run (step .plain) (.start ["ws"]) dropped).catalogue.generationFile
        p.1 p.2, EndedComplete d.1 ∧ d.2.2.mapped.relationships = [] ∧
        reported (run (step .plain) (.start ["ws"]) dropped).catalogue.facts d.1 d.2.1 ≠ [] := by
    decide +kernel
  have hend : Fresh .plain (run (step .plain) (.start ["ws"]) dropped) := hall.at_end
  generalize run (step .plain) (.start ["ws"]) dropped = s at hleft hend
  obtain ⟨⟨gid, plans⟩, hgid, ⟨plan, rid, doc⟩, hdoc, hcomplete, hnone, hsome⟩ := hleft
  obtain ⟨f, l, hl⟩ := List.exists_cons_of_ne_nil hsome
  have hrow := hend gid plans hgid plan rid doc (storesDocument_iff.mpr hdoc) hcomplete (columns f)
  have hempty : doc.mapped.relationships = [] := hnone
  have hmem : columns f ∈ (reported s.catalogue.facts plan rid).map columns := by
    rw [hl]
    exact List.mem_cons_self
  obtain ⟨rel, hrel, -⟩ := mem_mappedRows.mp (hrow.mp hmem)
  exact absurd hrel (by simp [hempty])

end Freshness

end WorkspaceAtlas
