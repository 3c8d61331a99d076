/-
# Classification is recorded per path

Over any sequence of reconciles of any workspaces, with any files, policies, providers and
failures.  A policy that excludes the old path of a renamed file breaks it: the excluded path is
recorded with the content of the file, and the file is lost.
-/
import WorkspaceAtlas.Discovery.OneFile
import WorkspaceAtlas.Transition.Iteration

namespace WorkspaceAtlas

open Relational Transition

namespace PerPath

section TakeOver

variable {env : Environment} {c : Catalogue} {w : Workspace} {gid path old : String}
  {now : Timestamp} {kind : SkipKind} {code detail : String} {content : HashedContent}
  {text : Option String} {i : FileIdentity} {hash : String}

/-- The catalogue that a call leaves does not depend on the generation that was active. -/
lemma reconcile_fst (w w' : Workspace) (h : w.workspaceId = w'.workspaceId)
    (input : ReconcileInput) : (reconcile env c w input).1 = (reconcile env c w' input).1 := by
  obtain ⟨id, active⟩ := w
  obtain ⟨id', active'⟩ := w'
  obtain rfl : id = id' := h
  unfold reconcile
  cases input.files with
  | error e => rfl
  | ok files =>
    dsimp only
    cases withFault input.faults.begin (beginCandidate env.hasher c id .reconcile
        "p_reconcile_v1" "1.3.0" input.now) with
    | error e => rfl
    | ok pair =>
      dsimp only
      cases files.mapM (hashWalked env input.policy) with
      | error e => rfl
      | ok walked =>
        dsimp only
        cases withFault input.faults.facts (factsTransaction env pair.1 id pair.2.generationId
            walked input.plans input.now) with
        | error e => rfl
        | ok pair => rfl

/-- The skipped path takes the identity that it once created. -/
lemma recordSkipped_again (env : Environment) (now : Timestamp) (kind : SkipKind)
    (code detail : String) (hgid : c.hasGeneration gid = true)
    (hnone : ∀ gf ∈ c.generationFile, gf.generationId ≠ gid) (hi : i ∈ c.fileIdentity)
    (hid : i.fileId = fileIdFromPath env.hasher w.workspaceId old) :
    ∃ files : Table GenerationFile,
      files.rows = c.generationFile.rows ++ [skippedRow gid i.fileId old kind code detail] ∧
      recordSkipped env w.workspaceId gid now c old kind code detail =
        .ok { c with generationFile := files } := by
  have hensure : ensureIdentity env.hasher c w.workspaceId old now = .ok c := by
    unfold ensureIdentity
    rw [Table.insert?_eq_none.mpr ⟨i, hi, hid⟩]
  have hfree : ∀ gf ∈ c.generationFile,
      ¬ Clash gf (skippedRow gid i.fileId old kind code detail) :=
    fun gf hgf hclash => hnone gf hgf hclash.1
  obtain ⟨files, hins⟩ := Table.exists_insert? hfree
  refine ⟨files, Table.rows_of_insert? hins, ?_⟩
  simp only [recordSkipped, hensure, bind, Except.bind, ← hid]
  refine upsertGenerationFile_ok.mpr ⟨⟨hgid, hasFile_iff.mpr ⟨i, hi, rfl⟩, rfl⟩, files, ?_, rfl⟩
  rw [Table.upsert?_of_no_target, hins]
  intro gf hgf
  simp [isTarget, skippedRow, hnone gf hgf]

/-- The present file then finds the row of the skipped path, and keeps its path. -/
lemma recordPresent_takesOver (content : HashedContent) (text : Option String) (now : Timestamp)
    (hH : env.hasher.Injective)
    (hws : c.hasWorkspace w.workspaceId = true) (hgid : c.hasGeneration gid = true)
    (hc : Consistent env.hasher c) (hfound : identityAt? c w.workspaceId path = some i)
    (hne : path ≠ old) {rows : List GenerationFile} (hnone : ∀ gf ∈ rows, gf.generationId ≠ gid)
    (hrows : c.generationFile.rows = rows ++ [skippedRow gid i.fileId old kind code detail]) :
    ∃ c' isNew, recordPresent env w.workspaceId gid now c path content text = .ok (c', isNew) ∧
      (c'.generationFile.rows.filter fun gf => gf.generationId = gid).map
        (fun gf => (gf.canonicalPath, gf.presenceState)) = [(old, .present)] := by
  have hpath : ∀ gf ∈ c.generationFile, gf.generationId = gid → gf.canonicalPath ≠ path := by
    intro gf hgf hgen
    rw [Table.mem_def, hrows] at hgf
    rcases List.mem_append.mp hgf with hgf | hgf
    · exact absurd hgen (hnone gf hgf)
    · obtain rfl := List.mem_singleton.mp hgf
      exact hne.symm
  obtain ⟨c', isNew, hrecord, -⟩ := recordPresent_total hH hws hgid
    (fun hnone => absurd (hfound.symm.trans hnone) (by simp)) hpath hc content text now
  refine ⟨c', isNew, hrecord, ?_⟩
  obtain ⟨identities, fileId, revisions, revisionId, files, facts, hidentity, -, hups, -, rfl⟩ :=
    recordPresent_ok hrecord
  have hfile : fileId = i.fileId := by
    cases hidentity with
    | found h => exact congrArg FileIdentity.fileId (Option.some.inj (h.symm.trans hfound))
    | created h _ => exact absurd (hfound.symm.trans h) (by simp)
  have hmem : skippedRow gid i.fileId old kind code detail ∈ c.generationFile := by
    rw [Table.mem_def, hrows]
    simp
  rw [Table.upsert?_of_target hmem (by simp [isTarget, skippedRow, presentRow, hfile])] at hups
  obtain rfl := Option.some.inj hups
  -- only the row of the skipped path is of the generation
  have hkept : (rows.map fun x => if isTarget (presentRow gid fileId revisionId path content) x
      = true then setPresent (presentRow gid fileId revisionId path content) x else x).filter
      (fun gf => gf.generationId = gid) = [] := by
    refine List.filter_eq_nil_iff.mpr fun gf hgf => ?_
    obtain ⟨x, hx, rfl⟩ := List.mem_map.mp hgf
    have hxgen := hnone x hx
    split
    · simp [setPresent, hxgen]
    · simp [hxgen]
  show ((c.generationFile.rows.map _).filter _).map _ = _
  rw [hrows, List.map_append, List.filter_append, hkept]
  simp [isTarget, skippedRow, presentRow, setPresent, hfile]

/-- **An exclusion takes the file over.**  The old path of a renamed file is excluded: the call
records it as present, and has no row for the path of the file. -/
lemma takesOver (hH : env.hasher.Injective) (hc : Snapshots.Sound env.hasher w.workspaceId c)
    (hfound : identityAt? c w.workspaceId path = some i)
    (hid : i.fileId = fileIdFromPath env.hasher w.workspaceId old) (hne : path ≠ old)
    (hprevious : snapshotPreviousPresent c w.workspaceId = [(path, ⟨i.fileId, hash⟩)])
    {files : List FileObservation} {policy : ExcludeConfig}
    (hwalked : files.mapM (hashWalked env policy) =
      .ok [.skipped old kind code detail, .present path content text]) :
    ∃ report, (reconcile env c w (.ofFiles files policy now)).2 = .ok report ∧
      report.activated = true ∧
      ((reconcile env c w (.ofFiles files policy now)).1.generationFile.rows.filter fun gf =>
          gf.generationId = report.candidateGenerationId).map
        (fun gf => (gf.canonicalPath, gf.presenceState)) = [(old, .present)] := by
  obtain ⟨begun, candidate, hbegin⟩ := Snapshots.beginCandidate_total hH hc now
  obtain ⟨b⟩ := beginCandidate_begun hbegin
  obtain ⟨hi, -, -⟩ := identityAt?_some hfound
  have hbegun := b.begun_eq
  have hnone : ∀ gf ∈ begun.generationFile, gf.generationId ≠ candidate.generationId := by
    rw [hbegun]
    intro gf hgf heq
    exact absurd ((hc.members gf hgf).symm.trans (heq ▸ b.fresh)) (by simp)
  have hgid : begun.hasGeneration candidate.generationId = true :=
    b.hasGeneration_iff.mpr (Or.inr rfl)
  obtain ⟨members, hmembers, hskipped⟩ :=
    recordSkipped_again env now kind code detail hgid hnone (hbegun ▸ hi) hid
  have hcons : Consistent env.hasher { begun with generationFile := members } := by
    rw [hbegun]
    refine ⟨hc.consistent.revisions, hc.consistent.runs, fun gf hgf => ?_⟩
    rw [Table.mem_def] at hgf
    change gf ∈ members.rows at hgf
    rw [hmembers, hbegun] at hgf
    rcases List.mem_append.mp hgf with hgf | hgf
    · exact hc.consistent.files gf hgf
    · obtain rfl := List.mem_singleton.mp hgf
      exact hasFile_iff.mpr ⟨i, hi, rfl⟩
  have hws : Catalogue.hasWorkspace { begun with generationFile := members } w.workspaceId =
      true := by
    rw [hbegun]
    exact hc.workspace
  have hfound' : identityAt? { begun with generationFile := members } w.workspaceId path =
      some i := by
    rw [hbegun]
    exact hfound
  obtain ⟨recorded, isNew, hpresent, hrows⟩ :=
    recordPresent_takesOver content text now hH hws hgid hcons hfound' hne hnone hmembers
  -- nothing is renamed or deleted
  have hrenames : detectedRenames begun w.workspaceId
      [.skipped old kind code detail, .present path content text] = [] := by
    rw [hbegun]
    show detectedRenames c w.workspaceId _ = []
    refine Snapshots.detectedRenames_of_walked ?_
    rw [hprevious]
    simp [Walked.relStr]
  have hdeletions : detectedDeletions begun w.workspaceId
      [.skipped old kind code detail, .present path content text] = [] := by
    rw [detectedDeletions, hrenames, hbegun]
    show deletedFiles (snapshotPreviousPresent c w.workspaceId) _ _ = []
    rw [hprevious]
    simp [deletedFiles, Walked.relStr]
  have hwalk : [Walked.skipped old kind code detail, .present path content text].foldlM
      (recordWalked env w.workspaceId candidate.generationId now) (begun, 0) =
        .ok (recorded, if isNew then 1 else 0) := by
    simp only [List.foldlM_cons, List.foldlM_nil, recordWalked, hskipped, hpresent, Except.map,
      bind, Except.bind, zero_add]
    rfl
  obtain ⟨s, hrecorded, hreq⟩ : ∃ s : FactsStages env begun w.workspaceId candidate.generationId
      [.skipped old kind code detail, .present path content text] [] now,
      s.recorded = recorded ∧ s.semantic.requiredFailure = false := by
    refine ⟨⟨begun, recorded, recorded, _, recorded.facts, SemanticOutcome.start 0, ?_, hwalk, ?_,
      rfl⟩, rfl, rfl⟩
    · rw [hrenames]
      rfl
    · rw [hdeletions]
      rfl
  obtain ⟨report, fin, g, hs, -, -, -, hfirst, hok, hact, hgen⟩ :=
    Snapshots.activates_of_stages w (.ofFiles files policy now) rfl rfl hbegin hwalked s hreq
  refine ⟨report, hok, hact, ?_⟩
  rw [hfirst, hgen]
  show (fin.generationFile.rows.filter _).map _ = _
  rw [(s.members_eq hs).1, hrecorded]
  exact hrows

end TakeOver

/-- A call that meets no failure. -/
def Call.ofFiles (ws : String) (files : List FileObservation) (policy : ExcludeConfig)
    (hnodup : (files.map FileObservation.relStr).Nodup) : Call :=
  ⟨⟨ws, none⟩, .ofFiles files policy 0, fun files' h => by
    obtain rfl : files = files' := Except.ok.inj h
    exact hnodup⟩

/-- A new file takes the old path of a renamed one, and the policy excludes that path. -/
def excludedCall : Call :=
  .ofFiles "ws" [.readable "a" [2], .readable "b" [1]]
    { ExcludeConfig.none with patterns := ["a"] } (by decide)

def renamedThenExcluded : List Call :=
  [.ofFiles "ws" [.readable "a" [1]] .none (by decide),
    .ofFiles "ws" [.readable "b" [1]] .none (by decide), excludedCall]

lemma mem_rows_of_generation {c : Catalogue} {gf : GenerationFile} {gid : String}
    (hgf : gf ∈ c.generationFile) (hgen : gf.generationId = gid) :
    (gf.canonicalPath, gf.presenceState) ∈
      (c.generationFile.rows.filter fun gf => gf.generationId = gid).map
        (fun gf => (gf.canonicalPath, gf.presenceState)) :=
  List.mem_map_of_mem (List.mem_filter.mpr ⟨hgf, decide_eq_true hgen⟩)

/-- The last call of `renamedThenExcluded`, in the catalogue the others leave. -/
def excludedOutcome : Catalogue × Except AtlasError ReconcileReport :=
  reconcile .plain (run (step .plain) (Catalogue.registered ["ws"]) renamedThenExcluded.dropLast)
    excludedCall.ws excludedCall.input

lemma step_eq (env : Environment) (c : Catalogue) (call : Call) :
    step env c call = (reconcile env c call.ws call.input).1 := rfl

/-- A call reconciles its snapshot. -/
lemma step_ofFiles {env : Environment} {c : Catalogue} (ws : String)
    (snap : Snapshots.Snapshot env) (hnow : snap.now = 0) :
    step env c (.ofFiles ws snap.files snap.policy snap.distinct) =
      Snapshots.step env ws c snap := by
  show (reconcile env c ⟨ws, none⟩ (.ofFiles snap.files snap.policy 0)).1 =
    (reconcile env c (Snapshots.workspaceRecord c ws)
      (.ofFiles snap.files snap.policy snap.now)).1
  rw [hnow]
  exact reconcile_fst ⟨ws, none⟩ (Snapshots.workspaceRecord c ws) rfl _

lemma step_readable {c : Catalogue} {path : String} {bytes : List UInt8} {hnodup hnodup' hcls} :
    step .plain c (.ofFiles "ws" [.readable path bytes] .none hnodup) =
      Snapshots.step .plain "ws" c (.ofFiles [(path, bytes)] hnodup' hcls) :=
  step_ofFiles "ws" (.ofFiles [(path, bytes)] hnodup' hcls) rfl

/-- The renamed file, after the calls before the last one. -/
lemma run_renamed : run (step .plain) (Catalogue.registered ["ws"]) renamedThenExcluded.dropLast =
    Snapshots.step .plain "ws"
      (Snapshots.step .plain "ws" (Catalogue.registered ["ws"])
        (.ofFiles [("a", [1])] (by decide) (by decide)))
      (.ofFiles [("b", [1])] (by decide) (by decide)) := by
  have hcalls : renamedThenExcluded.dropLast =
      [.ofFiles "ws" [.readable "a" [1]] .none (by decide),
        .ofFiles "ws" [.readable "b" [1]] .none (by decide)] := rfl
  rw [hcalls, run_cons, run_cons, run_nil, step_readable, step_readable]

lemma excludedCall_takesOver {c : Catalogue} {i : FileIdentity} {hash : String}
    (hc : Snapshots.Sound Hasher.plain "ws" c) (hfound : identityAt? c "ws" "b" = some i)
    (hid : i.fileId = fileIdFromPath Hasher.plain "ws" "a")
    (hprevious : snapshotPreviousPresent c "ws" = [("b", ⟨i.fileId, hash⟩)]) :
    ∃ report, (reconcile .plain c excludedCall.ws excludedCall.input).2 = .ok report ∧
      report.activated = true ∧
      ((reconcile .plain c excludedCall.ws excludedCall.input).1.generationFile.rows.filter
          fun gf => gf.generationId = report.candidateGenerationId).map
        (fun gf => (gf.canonicalPath, gf.presenceState)) = [("a", .present)] :=
  takesOver (w := excludedCall.ws) Hasher.plain_injective hc hfound hid (by decide) hprevious rfl

end PerPath

end WorkspaceAtlas
