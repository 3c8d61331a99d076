/-
# The stages of a reconcile

Where a call of `reconcile` can end, and what each of its transactions leaves: the candidate
is begun, the facts are recorded in three loops and the semantic stage, and the candidate is
activated or failed.
-/
import WorkspaceAtlas.Discovery.Walk

namespace WorkspaceAtlas

open Relational Transition

section Stages

variable {env : Environment} {c c' recorded : Catalogue} {ws : Workspace} {wsId gid : String}
  {input : ReconcileInput} {walked : List Walked} {plans : List SemanticPlan}
  {now : Timestamp}

/-! ## The transaction of the facts -/

/-- The catalogue the walk starts from: the renamed identities have moved. -/
def afterRenames (c : Catalogue) (wsId : String) (walked : List Walked) (now : Timestamp) :
    Catalogue :=
  { c with fileIdentity :=
      movedIdentities c.fileIdentity (detectedRenames c wsId walked) now }

/-- The stages of the transaction of the facts, when it commits. -/
structure FactsStages (env : Environment) (c : Catalogue) (wsId gid : String)
    (walked : List Walked) (plans : List SemanticPlan) (now : Timestamp) where
  renamed : Catalogue
  recorded : Catalogue
  deleted : Catalogue
  parsed : ℕ
  facts : FactTables
  semantic : SemanticOutcome
  renames_ok : (detectedRenames c wsId walked).foldlM
    (recordRename env.hasher wsId gid now) c = .ok renamed
  walk_ok : walked.foldlM (recordWalked env wsId gid now) (renamed, 0) = .ok (recorded, parsed)
  deletions_ok : (detectedDeletions c wsId walked).foldlM
    (recordDeletion env.hasher wsId gid now) recorded = .ok deleted
  semantic_ok : runSemanticReconcile env.hasher deleted.fileRevision deleted.generationFile
    deleted.facts gid plans now = .ok (facts, semantic)

/-- What the transaction commits after its stages: the counters are all that is missing. -/
def FactsStages.Commits (s : FactsStages env c wsId gid walked plans now) (c' : Catalogue) :
    Prop :=
  ∃ f : Table.Update IndexGeneration,
    KeepsNumber f ∧ (∀ g, (f g).state = g.state) ∧
    c' = { s.deleted with
      facts := s.facts
      indexGeneration := s.deleted.indexGeneration.update (fun g => g.generationId = gid) f }

lemma factsTransaction_ok {report : FactsReport}
    (h : factsTransaction env c wsId gid walked plans now = .ok (c', report)) :
    ∃ s : FactsStages env c wsId gid walked plans now,
      s.Commits c' ∧ report.semantic = s.semantic := by
  simp only [factsTransaction, recordDeletions, bind_ok, Prod.exists] at h
  obtain ⟨renamed, hren, recorded, parsed, hwalk, deleted, n, hdel, facts, semantic, hsem,
    hrest⟩ := h
  obtain ⟨deleted', hdel, hpair⟩ := hdel
  obtain ⟨rfl, rfl⟩ := Prod.mk.inj (Except.ok.inj hpair)
  obtain ⟨rfl, rfl⟩ := Prod.mk.inj (Except.ok.inj hrest)
  exact ⟨⟨renamed, recorded, deleted', parsed, facts, semantic, hren, hwalk, hdel, hsem⟩,
    ⟨_, ⟨fun _ => rfl, fun _ => rfl, fun _ => rfl⟩, fun _ => rfl, rfl⟩, rfl⟩

lemma factsTransaction_of_stages (s : FactsStages env c wsId gid walked plans now) :
    ∃ c' report, factsTransaction env c wsId gid walked plans now = .ok (c', report) ∧
      s.Commits c' ∧ report.semantic = s.semantic := by
  have hdel : recordDeletions env.hasher wsId gid now s.recorded
      (snapshotPreviousPresent c wsId) (walked.map Walked.relStr)
      ((detectedRenames c wsId walked).map RenamePair.oldPath) =
      .ok (s.deleted, (detectedDeletions c wsId walked).length) := by
    simp only [recordDeletions, bind_ok]
    exact ⟨s.deleted, s.deletions_ok, rfl⟩
  simp only [factsTransaction, s.renames_ok, s.walk_ok, hdel, s.semantic_ok, bind, Except.bind]
  exact ⟨_, _, rfl, ⟨_, ⟨fun _ => rfl, fun _ => rfl, fun _ => rfl⟩, fun _ => rfl, rfl⟩, rfl⟩

namespace FactsStages

/-- The renames leave everything but the identities and the events alone. -/
lemma renamed_eq (s : FactsStages env c wsId gid walked plans now) :
    ∃ events : Table LifecycleEvent,
      events.rows = c.lifecycleEvent.rows ++
        (detectedRenames c wsId walked).map (renamedEvent env.hasher wsId gid now) ∧
      s.renamed = { afterRenames c wsId walked now with lifecycleEvent := events } := by
  obtain ⟨-, events, hrows, heq⟩ := recordRenames_ok.mp s.renames_ok
  exact ⟨events, hrows, heq.symm⟩

/-- The walk starts in a catalogue without members of the candidate. -/
lemma walkInv (s : FactsStages env c wsId gid walked plans now)
    (hnodup : (walked.map Walked.relStr).Nodup)
    (hnone : ∀ gf ∈ c.generationFile, gf.generationId ≠ gid) :
    WalkInv env.hasher wsId gid now s.renamed walked s.recorded := by
  refine WorkspaceAtlas.walk_ok hnodup ?_ s.walk_ok
  obtain ⟨events, -, heq⟩ := s.renamed_eq
  rw [heq]
  exact hnone

/-- The deletions leave everything but the identities and their records alone. -/
lemma deleted_eq (s : FactsStages env c wsId gid walked plans now) :
    ∃ (events : Table LifecycleEvent) (tombstones : Table Tombstone),
      events.rows = s.recorded.lifecycleEvent.rows ++
        (detectedDeletions c wsId walked).map
          (fun old => deletedEvent env.hasher wsId gid now old.1 old.2) ∧
      tombstones.rows = s.recorded.tombstone.rows ++
        (detectedDeletions c wsId walked).map
          (fun old => tombstoneRow env.hasher wsId gid now s.recorded old.1 old.2) ∧
      s.deleted = { s.recorded with
        fileIdentity := markedDeleted s.recorded.fileIdentity
          (detectedDeletions c wsId walked) now
        lifecycleEvent := events
        tombstone := tombstones } := by
  obtain ⟨-, events, tombstones, hevents, htombs, heq⟩ := recordDeletionLoop_ok.mp s.deletions_ok
  exact ⟨events, tombstones, hevents, htombs, heq.symm⟩

/-- The members and the revisions are those the walk left. -/
lemma members_eq (s : FactsStages env c wsId gid walked plans now) (hc : s.Commits c') :
    c'.generationFile = s.recorded.generationFile ∧
      c'.fileRevision = s.recorded.fileRevision := by
  obtain ⟨f, -, -, rfl⟩ := hc
  obtain ⟨events, tombstones, -, -, heq⟩ := s.deleted_eq
  rw [heq]
  exact ⟨rfl, rfl⟩

/-- What the committed facts leave of the generations and the identities. -/
lemma committed_rows (s : FactsStages env c wsId gid walked plans now)
    (hs : s.Commits recorded) :
    recorded.workspace = c.workspace ∧
      (∃ f : Table.Update IndexGeneration, KeepsNumber f ∧ (∀ g, (f g).state = g.state) ∧
        recorded.indexGeneration =
          c.indexGeneration.update (fun g => g.generationId = gid) f) ∧
      ∃ extra, recorded.fileIdentity.rows =
        (c.fileIdentity.rows.map (movedRow (detectedRenames c wsId walked) now) ++ extra).map
          (deletedRow (detectedDeletions c wsId walked) now) := by
  obtain ⟨f, hf, hstate, rfl⟩ := hs
  obtain ⟨events, -, hrenamed⟩ := s.renamed_eq
  obtain ⟨hws, hgens, extra, hrows⟩ := walk_frame s.walk_ok
  obtain ⟨events', tombstones, -, -, hdeleted⟩ := s.deleted_eq
  refine ⟨?_, ⟨f, hf, hstate, ?_⟩, extra, ?_⟩
  · rw [hdeleted]
    exact hws.trans (by rw [hrenamed]; rfl)
  · show s.deleted.indexGeneration.update _ f = _
    rw [hdeleted]
    show s.recorded.indexGeneration.update _ f = _
    rw [hgens, hrenamed]
    rfl
  · rw [hdeleted]
    show (markedDeleted s.recorded.fileIdentity _ now).rows = _
    rw [rows_markedDeleted, hrows, hrenamed, ← rows_movedIdentities]
    rfl

end FactsStages

/-! ## The candidate and its end -/

lemma withFault_ok {α : Type} {fault : Option AtlasError} {r : Except AtlasError α} {a : α} :
    withFault fault r = .ok a ↔ fault = none ∧ r = .ok a := by
  cases fault <;> simp [withFault]

lemma beginCandidate_ok {H : Hasher} {trigger : TriggerKind} {providerSet schema : String}
    {candidate : GenerationRecord}
    (h : beginCandidate H c wsId trigger providerSet schema now = .ok (c', candidate)) :
    c.hasWorkspace wsId = true ∧
      candidate.generationId = generationId H wsId (maxSequence c wsId + 1) ∧
      ∃ generations, c.indexGeneration.insert? (candidateRow H wsId (candidateParent c wsId)
          (maxSequence c wsId + 1) trigger providerSet schema now) = some generations ∧
        c' = { c with indexGeneration := generations } :=
  insertCandidate_ok h

/-- What beginning the candidate `gid` adds to a catalogue. -/
structure Begun (H : Hasher) (c : Catalogue) (wsId gid : String) (begun : Catalogue) where
  row : IndexGeneration
  generations : Table IndexGeneration
  generationId_eq : row.generationId = gid
  workspaceId_eq : row.workspaceId = wsId
  derived : row.generationId = generationId H wsId row.sequenceNo
  state_eq : row.state = .candidate
  mem_iff : ∀ g, g ∈ generations ↔ g ∈ c.indexGeneration ∨ g = row
  begun_eq : begun = { c with indexGeneration := generations }
  /-- The candidate is new. -/
  fresh : c.hasGeneration gid = false

lemma beginCandidate_begun {H : Hasher} {trigger : TriggerKind} {providerSet schema : String}
    {candidate : GenerationRecord}
    (h : beginCandidate H c wsId trigger providerSet schema now = .ok (c', candidate)) :
    Nonempty (Begun H c wsId candidate.generationId c') := by
  obtain ⟨-, hgid, generations, hins, rfl⟩ := beginCandidate_ok h
  refine ⟨⟨_, generations, hgid.symm, rfl, rfl, rfl, fun g => Table.mem_of_insert? hins, rfl, ?_⟩⟩
  rw [Bool.eq_false_iff]
  intro hhas
  obtain ⟨g, hg, hid⟩ := hasGeneration_iff.mp hhas
  exact Table.not_clash_of_insert? hins g hg (Or.inl (hid.trans hgid))

lemma Begun.hasGeneration_iff {H : Hasher} (b : Begun H c wsId gid c') {id : String} :
    c'.hasGeneration id = true ↔ c.hasGeneration id = true ∨ id = gid := by
  rw [b.begun_eq]
  simp only [WorkspaceAtlas.hasGeneration_iff, b.mem_iff]
  constructor
  · rintro ⟨g, hg | rfl, hid⟩
    · exact Or.inl ⟨g, hg, hid⟩
    · exact Or.inr (hid.symm.trans b.generationId_eq)
  · rintro (⟨g, hg, hid⟩ | rfl)
    · exact ⟨g, Or.inl hg, hid⟩
    · exact ⟨b.row, Or.inr rfl, b.generationId_eq⟩

/-- The facts leave the candidate in the catalogue. -/
lemma FactsStages.candidate_mem {begun : Catalogue} (b : Begun env.hasher c wsId gid begun)
    (s : FactsStages env begun wsId gid walked plans now) (hs : s.Commits recorded) :
    ∃ g ∈ recorded.indexGeneration, g.generationId = gid ∧ g.workspaceId = wsId ∧
      g.state = .candidate := by
  obtain ⟨-, ⟨f, hf, hstate, hgens⟩, -⟩ := s.committed_rows hs
  have hbegun : begun.indexGeneration = b.generations :=
    congrArg Catalogue.indexGeneration b.begun_eq
  have hrow : b.row ∈ begun.indexGeneration :=
    hbegun ▸ (b.mem_iff b.row).mpr (Or.inr rfl)
  refine ⟨f b.row, ?_, ?_, ?_, ?_⟩
  · rw [hgens]
    exact Table.mem_update_of_mem hrow (by simp [b.generationId_eq])
  · rw [hf.generationId, b.generationId_eq]
  · rw [hf.workspaceId, b.workspaceId_eq]
  · rw [hstate, b.state_eq]

/-- Where a call ends. -/
inductive Ending (env : Environment) (c : Catalogue) (ws : Workspace) (input : ReconcileInput) :
    Catalogue → Except AtlasError ReconcileReport → Prop
  /-- The walk failed or no candidate was begun. -/
  | notBegun (e : AtlasError)
      (not_begun : ∀ files, input.files = .ok files → ∀ r, withFault input.faults.begin
        (beginCandidate env.hasher c ws.workspaceId .reconcile "p_reconcile_v1" "1.3.0"
          input.now) ≠ .ok r) :
      Ending env c ws input c (.error e)
  /-- A file could not be read, or the facts were rolled back. -/
  | stopped {begun : Catalogue} {candidate : GenerationRecord} {files : List FileObservation}
      (e : AtlasError) (files_ok : input.files = .ok files)
      (begun_ok : withFault input.faults.begin
        (beginCandidate env.hasher c ws.workspaceId .reconcile "p_reconcile_v1" "1.3.0"
          input.now) = .ok (begun, candidate))
      (not_recorded : ∀ walked, files.mapM (hashWalked env input.policy) = .ok walked →
        ∀ r, withFault input.faults.facts (factsTransaction env begun ws.workspaceId
          candidate.generationId walked input.plans input.now) ≠ .ok r) :
      Ending env c ws input begun (.error e)
  /-- The facts were committed, and the candidate was activated or failed. -/
  | finished {begun recorded : Catalogue} {candidate : GenerationRecord}
      {files : List FileObservation} {walked : List Walked} {facts : FactsReport}
      {report : ReconcileReport}
      (files_ok : input.files = .ok files)
      (begun_ok : withFault input.faults.begin
        (beginCandidate env.hasher c ws.workspaceId .reconcile "p_reconcile_v1" "1.3.0"
          input.now) = .ok (begun, candidate))
      (walked_ok : files.mapM (hashWalked env input.policy) = .ok walked)
      (facts_ok : withFault input.faults.facts (factsTransaction env begun ws.workspaceId
        candidate.generationId walked input.plans input.now) = .ok (recorded, facts))
      (report_eq : report.candidateGenerationId = candidate.generationId ∧
        report.activated = (activateOrFail input.faults recorded ws.workspaceId
          candidate.generationId facts.semantic
          (sourceTreeHash env.hasher (walked.filterMap Walked.presentHash?)) input.now).2.isNone) :
      Ending env c ws input
        (activateOrFail input.faults recorded ws.workspaceId candidate.generationId
          facts.semantic (sourceTreeHash env.hasher (walked.filterMap Walked.presentHash?))
          input.now).1 (.ok report)

/-- Every call ends in one of these ways. -/
theorem reconcile_ending (env : Environment) (c : Catalogue) (ws : Workspace)
    (input : ReconcileInput) :
    Ending env c ws input (reconcile env c ws input).1 (reconcile env c ws input).2 := by
  unfold reconcile
  split
  next e he => exact .notBegun e fun files hfiles => absurd (he.symm.trans hfiles) (by simp)
  next files hfiles =>
    split
    next e he =>
      refine .notBegun e fun files' hfiles' r hr => ?_
      exact absurd (he.symm.trans hr) (by simp)
    next begun candidate hbegin =>
      split
      next e he =>
        refine .stopped e hfiles hbegin fun walked hwalked => ?_
        exact absurd (he.symm.trans hwalked) (by simp)
      next walked hwalked =>
        split
        next e he =>
          refine .stopped e hfiles hbegin fun walked' hwalked' r hr => ?_
          obtain rfl := Except.ok.inj (hwalked.symm.trans hwalked')
          exact absurd (he.symm.trans hr) (by simp)
        next recorded facts hfacts => exact .finished hfiles hbegin hwalked hfacts ⟨rfl, rfl⟩

/-- An activation that took place. -/
lemma activateOrFail_activated {faults : Faults} {semantic : SemanticOutcome} {tree : String}
    (h : (activateOrFail faults c wsId gid semantic tree now).2.isNone = true) :
    activateCandidate c wsId gid (some tree) now =
      .ok (activateOrFail faults c wsId gid semantic tree now).1 := by
  unfold activateOrFail at h ⊢
  split at h
  next hreq => exact absurd h (by simp)
  next hreq =>
    rw [if_neg hreq]
    split at h
    next c' hact =>
      obtain ⟨-, hact⟩ := withFault_ok.mp hact
      rw [hact]
    next e hact => exact absurd h (by simp)

/-- An activation or a failure touches no file and no record of one, and no generation
changes its number. -/
lemma activateOrFail_frame (faults : Faults) (c : Catalogue) (wsId gid : String)
    (semantic : SemanticOutcome) (tree : String) (now : Timestamp) :
    ∃ (workspaces : Table Workspace) (p : IndexGeneration → Bool)
      (f : Table.Update IndexGeneration) (sessions : Table TaskSession), KeepsNumber f ∧
      (activateOrFail faults c wsId gid semantic tree now).1 = { c with
        workspace := workspaces
        indexGeneration := c.indexGeneration.update p f
        taskSession := sessions } := by
  have hfail : ∀ code message, ∃ (workspaces : Table Workspace)
      (p : IndexGeneration → Bool) (f : Table.Update IndexGeneration)
      (sessions : Table TaskSession), KeepsNumber f ∧
      failCandidateOrIgnore faults.fail c gid code message = { c with
        workspace := workspaces
        indexGeneration := c.indexGeneration.update p f
        taskSession := sessions } := by
    intro code message
    unfold failCandidateOrIgnore
    split
    next c' hok =>
      obtain ⟨-, hok⟩ := withFault_ok.mp hok
      obtain ⟨-, rfl⟩ := leaveCandidate_ok hok
      exact ⟨c.workspace, _, _, c.taskSession, keepsNumber_markFailed code message, rfl⟩
    next =>
      -- nothing happened
      refine ⟨c.workspace, fun _ => false, markAbandoned, c.taskSession,
        keepsNumber_markAbandoned, ?_⟩
      rw [Table.update_eq_self (by simp)]
  unfold activateOrFail
  split
  · exact hfail _ _
  · split
    next c' hact =>
      obtain ⟨-, hact⟩ := withFault_ok.mp hact
      obtain ⟨g, -, rfl, rfl, -, rfl⟩ := activateCandidate_ok hact
      exact ⟨_, _, _, _, keepsNumber_markCommitted (some tree) now, rfl⟩
    next => exact hfail _ _

/-- Updates that keep numbers keep the ids of the generations. -/
lemma hasGeneration_update {p : IndexGeneration → Bool} {f : Table.Update IndexGeneration}
    (hf : ∀ g, (f g).generationId = g.generationId) {id : String}
    (hgen : c'.indexGeneration = c.indexGeneration.update p f) :
    c'.hasGeneration id = c.hasGeneration id := by
  simp only [Catalogue.hasGeneration, hgen, Table.update, List.any_map]
  congr 1
  funext g
  simp only [Function.comp_apply]
  split
  · rw [hf]
  · rfl

end Stages

end WorkspaceAtlas
