/-
# When the stages of a reconcile succeed

What has to hold of the catalogue so that a reconcile of readable, eligible files meets no
constraint: the revisions and the records of renames and deletions carry the ids that their
values determine, and the references lead to rows.  What is left are the ids of the files.
-/
import WorkspaceAtlas.Discovery.Stages

namespace WorkspaceAtlas

open Relational Transition

/-- The values that determine the id of a revision. -/
def FileRevision.identity (r : FileRevision) : FileRevisionIdentity :=
  ⟨r.fileId, r.contentHash, r.artifactClass.asStr, r.language, r.isGenerated, r.isTest⟩

/-- The ids of the revisions are those of their values. -/
def RevisionsDerived (H : Hasher) (revisions : Table FileRevision) : Prop :=
  ∀ r ∈ revisions, r.revisionId = fileRevisionId H r.identity

/-- The extractor runs refer to revisions. -/
def RunsRefer (revisions : Table FileRevision) (t : FactTables) : Prop :=
  ∀ run ∈ t.extractorRun, hasRevisionIn revisions run.revisionId = true

/-- The references that recording a file relies on. -/
structure Consistent (H : Hasher) (c : Catalogue) : Prop where
  revisions : RevisionsDerived H c.fileRevision
  runs : RunsRefer c.fileRevision c.facts
  files : ∀ gf ∈ c.generationFile, c.hasFile gf.fileId = true

section Success

variable {H : Hasher} {env : Environment} {c c' : Catalogue} {ws gid path fileId : String}
  {now : Timestamp} {content : HashedContent} {text : Option String}
  {revisions : Table FileRevision} {t : FactTables}

/-! ## Provider batches -/

lemma hasRevisionIn_iff {id : String} :
    hasRevisionIn revisions id = true ↔ ∃ r ∈ revisions, r.revisionId = id := by
  simp [hasRevisionIn, Table.mem_def]

lemma hasRun_iff {id : String} :
    t.hasRun id = true ↔ ∃ run ∈ t.extractorRun, run.extractorRunId = id := by
  simp [FactTables.hasRun, Table.mem_def]

lemma insertSymbol_total (row : SymbolFact) (hrun : t.hasRun row.extractorRunId = true)
    (hrev : hasRevisionIn revisions row.revisionId = true) :
    ∃ t', t.insertSymbol revisions row = .ok t' ∧ t'.extractorRun = t.extractorRun := by
  unfold FactTables.insertSymbol
  split
  · split
    next => exact ⟨t, rfl, rfl⟩
    next symbols hins =>
      rw [if_pos ⟨hrun, hrev⟩]
      exact ⟨_, rfl, rfl⟩
  · exact ⟨t, rfl, rfl⟩

lemma insertRelationship_total (row : RelationshipFact)
    (hrun : t.hasRun row.extractorRunId = true)
    (hrev : hasRevisionIn revisions row.revisionId = true) :
    ∃ t', t.insertRelationship revisions row = .ok t' ∧ t'.extractorRun = t.extractorRun := by
  unfold FactTables.insertRelationship
  split
  · split
    next => exact ⟨t, rfl, rfl⟩
    next relationships hins =>
      rw [if_pos ⟨hrun, hrev⟩]
      exact ⟨_, rfl, rfl⟩
  · exact ⟨t, rfl, rfl⟩

lemma insertDiagnostic_total (row : Diagnostic) (hrun : t.hasRun row.extractorRunId = true) :
    ∃ t', t.insertDiagnostic row = .ok t' ∧ t'.extractorRun = t.extractorRun := by
  unfold FactTables.insertDiagnostic
  split
  next => exact ⟨t, rfl, rfl⟩
  next diagnostics hins =>
    rw [if_pos hrun]
    exact ⟨_, rfl, rfl⟩

/-- A batch for a revision without runs is stored. -/
lemma persistProviderBatch_total {revisionId : String} (byteSize : ℕ) (seen : List (List UInt8))
    (batch : NormalizedBatch) (now : Timestamp)
    (hrev : hasRevisionIn revisions revisionId = true)
    (hnew : ∀ run ∈ t.extractorRun, run.revisionId ≠ revisionId) :
    ∃ t', persistProviderBatch H revisions t revisionId byteSize seen batch now = .ok t' ∧
      ∀ run ∈ t'.extractorRun, run ∈ t.extractorRun ∨ run.revisionId = revisionId := by
  unfold persistProviderBatch
  dsimp only
  by_cases hrun : t.hasRun (extractorRunId H revisionId batch) = true
  · exact ⟨t, if_pos hrun, fun run h => Or.inl h⟩
  rw [if_neg hrun]
  -- the run is new
  have hfree : ∀ run ∈ t.extractorRun,
      ¬ Clash run (batch.runRow H revisionId byteSize now) := by
    rintro run hmem (hid | hidentity)
    · exact hrun (hasRun_iff.mpr ⟨run, hmem, hid⟩)
    · exact hnew run hmem (congrArg Prod.fst hidentity)
  obtain ⟨runs, hruns⟩ := Table.exists_insert? hfree
  have hinsert : t.insertRun revisions (batch.runRow H revisionId byteSize now) =
      .ok { t with extractorRun := runs } := by
    unfold FactTables.insertRun
    rw [hruns]
    exact if_pos hrev
  have hhas : ∀ s : FactTables, s.extractorRun = runs →
      s.hasRun (extractorRunId H revisionId batch) = true := by
    intro s hs
    refine hasRun_iff.mpr ⟨batch.runRow H revisionId byteSize now, ?_, rfl⟩
    rw [hs]
    exact (Table.mem_of_insert? hruns).mpr (Or.inr rfl)
  obtain ⟨t₁, hsymbols, h₁⟩ := loop_total (I := fun _ s => s.extractorRun = runs)
    (s := { t with extractorRun := runs }) (l := batch.symbols)
    (f := fun s sym => s.insertSymbol revisions
      (sym.row H (extractorRunId H revisionId batch) revisionId seen)) rfl
    fun done sym rest s _ hs => by
      obtain ⟨s', hok, hs'⟩ := insertSymbol_total (sym.row H _ revisionId seen) (hhas s hs) hrev
      exact ⟨s', hok, hs'.trans hs⟩
  obtain ⟨t₂, hrels, h₂⟩ := loop_total (I := fun _ s => s.extractorRun = runs)
    (s := t₁) (l := batch.relationships)
    (f := fun s rel => s.insertRelationship revisions
      (rel.row H (extractorRunId H revisionId batch) revisionId seen)) h₁
    fun done rel rest s _ hs => by
      obtain ⟨s', hok, hs'⟩ := insertRelationship_total (rel.row H _ revisionId seen) (hhas s hs) hrev
      exact ⟨s', hok, hs'.trans hs⟩
  obtain ⟨t₃, hdiags, h₃⟩ := loop_total (I := fun _ s => s.extractorRun = runs)
    (s := t₂) (l := batch.diagnostics)
    (f := fun s message => s.insertDiagnostic
      ⟨diagnosticId H (extractorRunId H revisionId batch) message,
        extractorRunId H revisionId batch, message, now⟩) h₂
    fun done message rest s _ hs => by
      obtain ⟨s', hok, hs'⟩ := insertDiagnostic_total
        ⟨diagnosticId H (extractorRunId H revisionId batch) message, _, message, now⟩ (hhas s hs)
      exact ⟨s', hok, hs'.trans hs⟩
  refine ⟨t₃, ?_, ?_⟩
  · rw [bind_ok]
    refine ⟨_, hinsert, ?_⟩
    rw [bind_ok]
    refine ⟨t₁, hsymbols, ?_⟩
    rw [bind_ok]
    exact ⟨t₂, hrels, hdiags⟩
  · intro run hmem
    rw [h₃] at hmem
    rcases (Table.mem_of_insert? hruns).mp hmem with hold | rfl
    · exact Or.inl hold
    · exact Or.inr rfl

/-! ## Revisions -/

lemma asStr_injective : Function.Injective ArtifactClass.asStr := by
  intro a b h
  cases a <;> cases b <;> first | rfl | exact absurd h (by decide)

/-- The id of a revision determines the columns the index reads. -/
lemma material_eq_of_revisionId (hH : H.Injective) {r s : FileRevision}
    (h : fileRevisionId H r.identity = fileRevisionId H s.identity) :
    r.material = s.material := by
  have hvalues := values_of_fileRevisionId hH h
  simp only [FileRevisionIdentity.values, FileRevision.identity, List.cons.injEq, and_true,
    true_and] at hvalues
  obtain ⟨hfile, hhash, hclass, hlanguage, hgenerated, htest⟩ := hvalues
  have hbit : ∀ a b : Bool, (if a then "1" else "0") = (if b then "1" else "0") → a = b := by
    decide
  simp only [FileRevision.material, Prod.mk.injEq]
  exact ⟨hfile, hhash, asStr_injective hclass, hlanguage, hbit _ _ hgenerated, hbit _ _ htest⟩

/-- The revision of a file is found or created. -/
lemma findOrCreateRevision_total (hH : H.Injective) (hd : RevisionsDerived H c.fileRevision)
    (hfile : c.hasFile fileId = true) (content : HashedContent) (now : Timestamp) :
    ∃ (revisions : Table FileRevision) (revisionId : String) (isNew : Bool),
      findOrCreateRevision H c fileId content now =
        .ok ({ c with fileRevision := revisions }, revisionId, isNew) ∧
      RevisionsDerived H revisions ∧ hasRevisionIn revisions revisionId = true ∧
      (∀ r ∈ c.fileRevision, r ∈ revisions) ∧
      (isNew = true → ∀ r ∈ c.fileRevision, r.revisionId ≠ revisionId) := by
  unfold findOrCreateRevision
  dsimp only
  cases hfind : c.fileRevision.find? fun r =>
      r.material = (revisionRow H fileId content now).material with
  | some r =>
    refine ⟨c.fileRevision, r.revisionId, false, rfl, hd, ?_, fun r hr => hr, by simp⟩
    exact hasRevisionIn_iff.mpr ⟨r, Table.mem_of_find? hfind, rfl⟩
  | none =>
    have hnone : ∀ r ∈ c.fileRevision,
        r.material ≠ (revisionRow H fileId content now).material := by
      intro r hr heq
      exact absurd (Table.find?_eq_none.mp hfind r hr) (by simp [heq])
    have hid : ∀ r ∈ c.fileRevision,
        r.revisionId ≠ (revisionRow H fileId content now).revisionId := by
      intro r hr heq
      rw [hd r hr] at heq
      exact hnone r hr (material_eq_of_revisionId hH heq)
    obtain ⟨revisions, hins⟩ := Table.exists_insert? (t := c.fileRevision)
      (r := revisionRow H fileId content now)
      (fun r hr hclash => hclash.elim (hid r hr) (hnone r hr))
    refine ⟨revisions, _, true, by rw [hins]; exact if_pos hfile, ?_, ?_, ?_, fun _ => hid⟩
    · intro r hr
      rcases (Table.mem_of_insert? hins).mp hr with hold | rfl
      · exact hd r hold
      · rfl
    · exact hasRevisionIn_iff.mpr ⟨_, (Table.mem_of_insert? hins).mpr (Or.inr rfl), rfl⟩
    · exact fun r hr => (Table.mem_of_insert? hins).mpr (Or.inl hr)

/-! ## Present files -/

/-- The identity of a path is found or created, unless the path created another identity. -/
lemma findOrCreateIdentity_total (hws : c.hasWorkspace ws = true)
    (hfree : identityAt? c ws path = none →
      ∀ i ∈ c.fileIdentity, i.fileId ≠ fileIdFromPath H ws path) (now : Timestamp) :
    ∃ (identities : Table FileIdentity) (fileId : String),
      findOrCreateIdentity H c ws path now =
        .ok ({ c with fileIdentity := identities }, fileId) ∧
      (∀ i ∈ c.fileIdentity, i ∈ identities) ∧ ∃ i ∈ identities, i.fileId = fileId := by
  unfold findOrCreateIdentity
  cases hfind : identityAt? c ws path with
  | some i =>
    exact ⟨c.fileIdentity, i.fileId, rfl, fun i hi => hi, i, (identityAt?_some hfind).1, rfl⟩
  | none =>
    obtain ⟨identities, hins⟩ := Table.exists_insert? (t := c.fileIdentity)
      (r := createdIdentity H ws path now) (hfree hfind)
    refine ⟨identities, _, by simp only [hins, hws, if_true], ?_, createdIdentity H ws path now,
      (Table.mem_of_insert? hins).mpr (Or.inr rfl), rfl⟩
    exact fun i hi => (Table.mem_of_insert? hins).mpr (Or.inl hi)

/-- The member row of a path that the generation does not have is stored. -/
lemma upsertPresent_total (fileId revisionId : String)
    (hpath : ∀ gf ∈ c.generationFile, gf.generationId = gid → gf.canonicalPath ≠ path)
    (content : HashedContent) :
    ∃ files, c.generationFile.upsert?
        (isTarget (presentRow gid fileId revisionId path content))
        (presentRow gid fileId revisionId path content)
        (setPresent (presentRow gid fileId revisionId path content)) = some files ∧
      ∀ gf ∈ files, gf.fileId = fileId ∨ ∃ old ∈ c.generationFile, gf.fileId = old.fileId := by
  by_cases htarget : ∃ gf ∈ c.generationFile,
      isTarget (presentRow gid fileId revisionId path content) gf = true
  · obtain ⟨gf, hgf, htarget⟩ := htarget
    refine ⟨_, Table.upsert?_of_target hgf htarget, fun gf' hgf' => ?_⟩
    obtain ⟨old, hold, rfl⟩ := Table.mem_update.mp hgf'
    refine Or.inr ⟨old, hold, ?_⟩
    split
    · rfl
    · rfl
  · push Not at htarget
    rw [Table.upsert?_of_no_target (by simpa using htarget)]
    -- a row of the generation with the file would be the target
    have hfree : ∀ gf ∈ c.generationFile,
        ¬ Clash gf (presentRow gid fileId revisionId path content) := by
      rintro gf hgf ⟨hgen, hid | hp⟩
      · have hboth : isTarget (presentRow gid fileId revisionId path content) gf = true := by
          simp [isTarget, hgen, hid]
        exact htarget gf hgf hboth
      · exact hpath gf hgf hgen hp
    obtain ⟨files, hins⟩ := Table.exists_insert? hfree
    refine ⟨files, hins, fun gf hgf => ?_⟩
    rcases (Table.mem_of_insert? hins).mp hgf with hold | rfl
    · exact Or.inr ⟨gf, hold, rfl⟩
    · exact Or.inl rfl

/-- A present file is recorded, unless its path created another identity. -/
lemma recordPresent_total (hH : env.hasher.Injective) (hws : c.hasWorkspace ws = true)
    (hgid : c.hasGeneration gid = true)
    (hfree : identityAt? c ws path = none →
      ∀ i ∈ c.fileIdentity, i.fileId ≠ fileIdFromPath env.hasher ws path)
    (hpath : ∀ gf ∈ c.generationFile, gf.generationId = gid → gf.canonicalPath ≠ path)
    (hc : Consistent env.hasher c) (content : HashedContent) (text : Option String)
    (now : Timestamp) :
    ∃ c' isNew, recordPresent env ws gid now c path content text = .ok (c', isNew) ∧
      Consistent env.hasher c' := by
  obtain ⟨identities, fileId, hidentity, hkept, i, hi, hiid⟩ :=
    findOrCreateIdentity_total hws hfree now
  have hfile : ({ c with fileIdentity := identities } : Catalogue).hasFile fileId = true :=
    hasFile_iff.mpr ⟨i, hi, hiid⟩
  obtain ⟨revisions, revisionId, isNew, hrevision, hd, hhas, hsub, hnew⟩ :=
    findOrCreateRevision_total (c := { c with fileIdentity := identities }) hH hc.revisions
      hfile content now
  obtain ⟨files, hfiles, hmembers⟩ := upsertPresent_total fileId revisionId hpath content
  have hupsert : upsertGenerationFile
      { c with fileIdentity := identities, fileRevision := revisions }
      (presentRow gid fileId revisionId path content)
      (setPresent (presentRow gid fileId revisionId path content)) = .ok { c with
        fileIdentity := identities
        fileRevision := revisions
        generationFile := files } := by
    refine upsertGenerationFile_ok.mpr ⟨⟨hgid, hfile, ?_⟩, files, hfiles, rfl⟩
    exact (Option.all_some ..).trans hhas
  have hruns : ∀ run ∈ c.facts.extractorRun, hasRevisionIn revisions run.revisionId = true := by
    intro run hrun
    obtain ⟨r, hr, hid⟩ := hasRevisionIn_iff.mp (hc.runs run hrun)
    exact hasRevisionIn_iff.mpr ⟨r, hsub r hr, hid⟩
  have hfiles' : ∀ gf ∈ files, ({ c with
      fileIdentity := identities } : Catalogue).hasFile gf.fileId = true := by
    intro gf hgf
    rcases hmembers gf hgf with heq | ⟨old, hold, heq⟩
    · rw [heq]
      exact hfile
    · obtain ⟨j, hj, hjid⟩ := hasFile_iff.mp (hc.files old hold)
      exact hasFile_iff.mpr ⟨j, hkept j hj, hjid.trans heq.symm⟩
  cases isNew with
  | false =>
    refine ⟨{ c with
      fileIdentity := identities
      fileRevision := revisions
      generationFile := files }, false, ?_, hd, hruns, hfiles'⟩
    simp only [recordPresent, hidentity, hrevision, hupsert, bind, Except.bind]
    rfl
  | true =>
    have hnorun : ∀ run ∈ c.facts.extractorRun, run.revisionId ≠ revisionId := by
      intro run hrun heq
      obtain ⟨r, hr, hid⟩ := hasRevisionIn_iff.mp (hc.runs run hrun)
      exact hnew rfl r hr (hid.trans heq)
    obtain ⟨facts, hfacts, hmem⟩ := persistProviderBatch_total (H := env.hasher) content.byteSize
      (text.map utf8).toList (env.extract path text) now hhas hnorun
    refine ⟨{ c with
      fileIdentity := identities
      fileRevision := revisions
      generationFile := files
      facts := facts }, true, ?_, hd, ?_, hfiles'⟩
    · simp only [recordPresent, hidentity, hrevision, hupsert, hfacts, bind, Except.bind,
        if_true]
      rfl
    · intro run hrun
      rcases hmem run hrun with hold | heq
      · exact hruns run hold
      · rw [heq]
        exact hhas

/-! ## The ids of events and tombstones -/

/-- The text whose digest is the id of a record of a generation. -/
def recordText (kind generationId rest : String) : String :=
  kind ++ "@" ++ generationId ++ "@" ++ rest

lemma renameText_eq (gid old new : String) :
    renameText gid old new = recordText "rename" gid (old ++ "@" ++ new) := rfl

lemma deleteText_eq (gid path : String) :
    deleteText gid path = recordText "delete" gid path := rfl

lemma tombstoneText_eq (gid path : String) :
    tombstoneText gid path = recordText "tombstone" gid path := rfl

/-- The id is that of a record of one of the kinds, for a generation that is there. -/
def Stamped (H : Hasher) (ws : String) (c : Catalogue) (kinds : List String) (id : String) :
    Prop :=
  ∃ kind ∈ kinds, ∃ gid rest, c.hasGeneration gid = true ∧
    id = fileIdFromPath H ws (recordText kind gid rest)

/-- The text of a record determines its kind, its generation and what follows them. -/
lemma recordText_inj {k k' g g' r r' : String} (hk : '@' ∉ k.toList) (hk' : '@' ∉ k'.toList)
    (hg : '@' ∉ g.toList) (hg' : '@' ∉ g'.toList)
    (h : recordText k g r = recordText k' g' r') : k = k' ∧ g = g' ∧ r = r' := by
  have hlist := congrArg String.toList h
  simp only [recordText, String.toList_append, List.append_assoc] at hlist
  obtain ⟨h₁, hrest⟩ := Text.append_sep_inj hk hk' hlist
  obtain ⟨h₂, h₃⟩ := Text.append_sep_inj hg hg' hrest
  exact ⟨String.toList_inj.mp h₁, String.toList_inj.mp h₂, String.toList_inj.mp h₃⟩

lemma Stamped.mono {kinds : List String} {id : String} (h : Stamped H ws c kinds id)
    (hsub : ∀ g, c.hasGeneration g = true → c'.hasGeneration g = true) :
    Stamped H ws c' kinds id := by
  obtain ⟨kind, hkind, g, rest, hg, heq⟩ := h
  exact ⟨kind, hkind, g, rest, hsub g hg, heq⟩

/-- The ids of the records of a new generation are new. -/
lemma Stamped.ne (hH : H.Injective) {kinds : List String} {id kind rest : String}
    (h : Stamped H ws c kinds id) (hat : ∀ g, c.hasGeneration g = true → '@' ∉ g.toList)
    (hkinds : ∀ k ∈ kinds, '@' ∉ k.toList) (hkind : '@' ∉ kind.toList)
    (hgid : '@' ∉ gid.toList) (hnew : c.hasGeneration gid = false) :
    id ≠ fileIdFromPath H ws (recordText kind gid rest) := by
  rintro rfl
  obtain ⟨k, hk, g, r, hg, heq⟩ := h
  have htext := fileIdFromPath_injective hH ws heq
  obtain ⟨-, rfl, -⟩ := recordText_inj hkind (hkinds k hk) hgid (hat g hg) htext
  exact absurd (hg.symm.trans hnew) (by simp)

end Success

end WorkspaceAtlas
