/-
# The catalogue between the reconciles of one workspace

Where every file is eligible and readable and no provider runs, the only rows a reconcile may
clash with are its own ids: an identity that another file took over still carries the id that
its old path would create, and the id of a rename event joins the two paths by a character
that a path may contain.  A reconcile whose ids are free succeeds, and it keeps what the next
one relies on.
-/
import WorkspaceAtlas.Discovery.PerPath
import WorkspaceAtlas.Discovery.Success

namespace WorkspaceAtlas

open Relational Transition

namespace Snapshots

/-- A snapshot of the workspace: distinct paths, all eligible and readable. -/
structure Snapshot (env : Environment) where
  files : List FileObservation
  policy : ExcludeConfig
  now : Timestamp
  distinct : (files.map FileObservation.relStr).Nodup
  eligible : ∀ file ∈ files, classify env.isMatch file.relStr policy = .present
  readable : ∀ file ∈ files, ∃ content, file.read = .ok content

/-- The call that reconciles a snapshot, without providers and failures. -/
def Snapshot.call {env : Environment} (snap : Snapshot env) (ws : Workspace) : PerPath.Call where
  ws := ws
  input := .ofFiles snap.files snap.policy snap.now
  distinct files h := by
    obtain rfl : snap.files = files := Except.ok.inj h
    exact snap.distinct

/-- The workspace record that the caller passes. -/
def workspaceRecord (c : Catalogue) (workspaceId : String) : Workspace :=
  ⟨workspaceId, activeGeneration? c workspaceId⟩

/-- The catalogue after a snapshot is reconciled. -/
def step (env : Environment) (workspaceId : String) (c : Catalogue) (snap : Snapshot env) :
    Catalogue :=
  PerPath.step env c (snap.call (workspaceRecord c workspaceId))

/-- The reconcile succeeds, and the generation it activates is the snapshot: it has one row
for each of its paths, with the hash of its content, and no two with one file. -/
def RecordsSnapshot (env : Environment) (workspaceId : String) (c : Catalogue)
    (snap : Snapshot env) : Prop :=
  ∃ report, (reconcile env c (workspaceRecord c workspaceId)
      (.ofFiles snap.files snap.policy snap.now)).2 = .ok report ∧ report.activated = true ∧
    activeGeneration? (step env workspaceId c snap) workspaceId =
      some report.candidateGenerationId ∧
    (∀ file ∈ snap.files, PerPath.RecordsFile env snap.policy (step env workspaceId c snap)
      report.candidateGenerationId file) ∧
    (∀ gf ∈ (step env workspaceId c snap).generationFile,
      gf.generationId = report.candidateGenerationId →
      ∃ file ∈ snap.files, gf.canonicalPath = file.relStr) ∧
    ∀ gf ∈ (step env workspaceId c snap).generationFile,
      ∀ gf' ∈ (step env workspaceId c snap).generationFile,
      gf.generationId = report.candidateGenerationId →
      gf'.generationId = report.candidateGenerationId → gf.fileId = gf'.fileId →
      gf.canonicalPath = gf'.canonicalPath

/-- No path that finds no identity has created one before, and no two renames are written
alike. -/
def IdsFree (env : Environment) (workspaceId : String) (c : Catalogue) (snap : Snapshot env) :
    Prop :=
  ∀ walked, snap.files.mapM (hashWalked env snap.policy) = .ok walked →
    (∀ path ∈ walked.map Walked.relStr,
      identityAt? (afterRenames c workspaceId walked snap.now) workspaceId path = none →
      ∀ i ∈ (afterRenames c workspaceId walked snap.now).fileIdentity,
        i.fileId ≠ fileIdFromPath env.hasher workspaceId path) ∧
    ((detectedRenames c workspaceId walked).map fun r => r.oldPath ++ "@" ++ r.newPath).Nodup

/-! ## What every call keeps -/

/-- The ids of a catalogue that only reconciles of the workspace `ws` have written. -/
structure Sound (H : Hasher) (ws : String) (c : Catalogue) : Prop where
  workspace : c.hasWorkspace ws = true
  generations : ∀ g ∈ c.indexGeneration,
    g.workspaceId = ws ∧ g.generationId = generationId H ws g.sequenceNo
  members : PerPath.MembersRefer c
  consistent : Consistent H c
  events : ∀ e ∈ c.lifecycleEvent, Stamped H ws c ["rename", "delete"] e.eventId
  tombstones : ∀ t ∈ c.tombstone, Stamped H ws c ["tombstone"] t.tombstoneId

section Lemmas

variable {env : Environment} {c c' begun : Catalogue} {ws gid : String} {now : Timestamp}
  {snap : Snapshot env} {walked : List Walked} {candidate : GenerationRecord}

lemma sound_registered (H : Hasher) {ids : List String} (hws : ws ∈ ids) :
    Sound H ws (.registered ids) where
  workspace := hasWorkspace_registered hws
  generations _ hg := absurd hg Table.not_mem_empty
  members := PerPath.membersRefer_registered ids
  consistent :=
    ⟨fun _ hr => absurd hr Table.not_mem_empty, fun _ hr => absurd hr Table.not_mem_empty,
      fun _ hr => absurd hr Table.not_mem_empty⟩
  events _ he := absurd he Table.not_mem_empty
  tombstones _ ht := absurd ht Table.not_mem_empty

/-- The ids of the generations have no separator in them. -/
lemma Sound.at_not_mem (hc : Sound env.hasher ws c) (hgid : c.hasGeneration gid = true) :
    '@' ∉ gid.toList := by
  obtain ⟨g, hg, rfl⟩ := hasGeneration_iff.mp hgid
  rw [(hc.generations g hg).2]
  exact at_not_mem_generationId ws g.sequenceNo

/-- A walked file of a snapshot is a present one. -/
lemma Snapshot.present_of_walked (snap : Snapshot env)
    (h : snap.files.mapM (hashWalked env snap.policy) = .ok walked) :
    ∀ w ∈ walked, ∃ path content text, w = .present path content text := by
  intro w hw
  obtain ⟨file, hfile, hhash⟩ := exists_left_of_forall₂ (mapM_ok_iff.mp h) hw
  obtain ⟨content, hread⟩ := snap.readable file hfile
  unfold hashWalked at hhash
  rw [snap.eligible file hfile, hread] at hhash
  exact ⟨_, _, _, (Except.ok.inj hhash).symm⟩

/-- Every file of a snapshot can be walked. -/
lemma Snapshot.walked_ok (snap : Snapshot env) :
    ∃ walked, snap.files.mapM (hashWalked env snap.policy) = .ok walked := by
  have hone : ∀ file ∈ snap.files, ∃ w, hashWalked env snap.policy file = .ok w := by
    intro file hfile
    obtain ⟨content, hread⟩ := snap.readable file hfile
    unfold hashWalked
    rw [snap.eligible file hfile, hread]
    exact ⟨_, rfl⟩
  exact mapM_total hone

/-! ## The candidate -/

/-- A candidate is begun. -/
lemma beginCandidate_total (hH : env.hasher.Injective) (hc : Sound env.hasher ws c)
    (now : Timestamp) :
    ∃ begun candidate, beginCandidate env.hasher c ws .reconcile "p_reconcile_v1" "1.3.0" now =
        .ok (begun, candidate) := by
  have hparent : (candidateParent c ws).all c.hasGeneration = true := by
    unfold candidateParent highestCommitted
    cases hmax : c.indexGeneration.greatest? (isCommittedOf ws) IndexGeneration.sequenceNo with
    | none => rfl
    | some g => exact hasGeneration_iff.mpr ⟨g, (Table.mem_of_greatest? hmax).1, rfl⟩
  -- the number is greater than those of all generations
  have hfree : ∀ g ∈ c.indexGeneration, ¬ Clash g (candidateRow env.hasher ws
      (candidateParent c ws) (maxSequence c ws + 1) .reconcile "p_reconcile_v1" "1.3.0" now) := by
    intro g hg hclash
    obtain ⟨hgws, hgid⟩ := hc.generations g hg
    have hle := le_maxSequence hg
    rw [hgws] at hle
    have hseq : g.sequenceNo = maxSequence c ws + 1 := by
      rcases hclash with hid | ⟨-, hseq⟩
      · exact generationId_injective hH ws (hgid.symm.trans hid)
      · exact hseq
    omega
  obtain ⟨generations, hins⟩ := Table.exists_insert? hfree
  refine ⟨{ c with indexGeneration := generations }, ⟨generationId env.hasher ws
    (maxSequence c ws + 1), ws, candidateParent c ws, maxSequence c ws + 1, .candidate,
    .reconcile, "p_reconcile_v1", "1.3.0", now⟩, ?_⟩
  unfold beginCandidate insertCandidate
  simp only [hc.workspace, hparent, not_true_eq_false, or_self, if_false, hins]
  rfl

/-! ## The facts -/

lemma Sound.stamped_ne (hH : env.hasher.Injective) (hc : Sound env.hasher ws c)
    {kinds : List String} {id kind rest : String} (h : Stamped env.hasher ws c kinds id)
    (hkinds : ∀ k ∈ kinds, '@' ∉ k.toList) (hkind : '@' ∉ kind.toList)
    (b : Begun env.hasher c ws gid begun) :
    id ≠ fileIdFromPath env.hasher ws (recordText kind gid rest) := by
  refine h.ne hH (fun g => hc.at_not_mem) hkinds hkind ?_ b.fresh
  rw [← b.generationId_eq, b.derived]
  exact at_not_mem_generationId ws b.row.sequenceNo

/-- The file of a previously present path has its identity. -/
lemma Sound.hasFile_of_mem_snapshot (hc : Sound env.hasher ws c) {old : String × PrevFile}
    (hold : old ∈ snapshotPreviousPresent c ws) : c.hasFile old.2.fileId = true := by
  obtain ⟨-, -, -, gf, hgf, -, -, hfile⟩ := mem_snapshotPreviousPresent hold
  rw [hfile]
  exact hc.consistent.files gf hgf

/-- The renames are recorded. -/
lemma renames_total (hH : env.hasher.Injective) (hc : Sound env.hasher ws c)
    (b : Begun env.hasher c ws gid begun)
    (hdistinct : ((detectedRenames c ws walked).map fun r =>
      r.oldPath ++ "@" ++ r.newPath).Nodup) (now : Timestamp) :
    ∃ renamed, (detectedRenames begun ws walked).foldlM
      (recordRename env.hasher ws gid now) begun = .ok renamed := by
  have hat : '@' ∉ gid.toList := by
    rw [← b.generationId_eq, b.derived]
    exact at_not_mem_generationId ws b.row.sequenceNo
  have hgid := b.hasGeneration_iff.mpr (Or.inr rfl)
  have hbegun := b.begun_eq
  have hren : detectedRenames begun ws walked = detectedRenames c ws walked := by
    rw [hbegun]
    rfl
  -- the events clash neither with each other nor with older ones
  have hpair : ((detectedRenames c ws walked).map
      (renamedEvent env.hasher ws gid now)).Pairwise fun e e' => ¬ Clash e e' := by
    rw [List.pairwise_map]
    refine (List.pairwise_map.mp hdistinct).imp fun {r r'} hne hclash => hne ?_
    have htext := fileIdFromPath_injective hH ws hclash
    rw [renameText_eq, renameText_eq] at htext
    exact (recordText_inj (by decide) (by decide) hat hat htext).2.2
  have hfree : ∀ e ∈ begun.lifecycleEvent, ∀ e' ∈ (detectedRenames c ws walked).map
      (renamedEvent env.hasher ws gid now), ¬ Clash e e' := by
    intro e he e' he' hclash
    obtain ⟨r, -, rfl⟩ := List.mem_map.mp he'
    rw [hbegun] at he
    have hid : e.eventId = fileIdFromPath env.hasher ws
        (recordText "rename" gid (r.oldPath ++ "@" ++ r.newPath)) := by
      rw [← renameText_eq]
      exact hclash
    exact hc.stamped_ne hH (hc.events e he) (by decide) (by decide) b hid
  obtain ⟨events, hevents⟩ := Table.exists_append hpair hfree
  refine ⟨_, recordRenames_ok.mpr ⟨fun r hr => ⟨?_, hgid, ?_⟩, events, ?_, rfl⟩⟩
  · rw [hbegun]
    exact hc.workspace
  · rw [hren] at hr
    obtain ⟨old, hold, -, -, hfile, -⟩ := mem_detectRenames hr
    rw [hfile, hbegun]
    exact hc.hasFile_of_mem_snapshot hold
  · rw [hren]
    exact hevents

/-- The walk is recorded. -/
lemma walk_total (hH : env.hasher.Injective) (hws : c.hasWorkspace ws = true)
    (hgid : c.hasGeneration gid = true)
    (hnone : ∀ gf ∈ c.generationFile, gf.generationId ≠ gid) (hc : Consistent env.hasher c)
    (hnodup : (walked.map Walked.relStr).Nodup)
    (hpresent : ∀ w ∈ walked, ∃ path content text, w = .present path content text)
    (hfree : ∀ path ∈ walked.map Walked.relStr, identityAt? c ws path = none →
      ∀ i ∈ c.fileIdentity, i.fileId ≠ fileIdFromPath env.hasher ws path) (now : Timestamp) :
    ∃ s, walked.foldlM (recordWalked env ws gid now) (c, 0) = .ok s ∧
      Consistent env.hasher s.1 := by
  suffices hloop : ∃ s, walked.foldlM (recordWalked env ws gid now) (c, 0) = .ok s ∧
      WalkInv env.hasher ws gid now c walked s.1 ∧ Consistent env.hasher s.1 by
    obtain ⟨s, hok, -, hcons⟩ := hloop
    exact ⟨s, hok, hcons⟩
  refine loop_total (I := fun done (s : Catalogue × ℕ) =>
    WalkInv env.hasher ws gid now c done s.1 ∧ Consistent env.hasher s.1)
    ⟨walkInv_start hnone, hc⟩ ?_
  rintro done w rest ⟨t, n⟩ hwalked ⟨hI, hcons⟩
  obtain ⟨path, content, text, rfl⟩ := hpresent w (by simp [hwalked])
  have hnew : path ∉ done.map Walked.relStr := by
    rw [hwalked, List.map_append, List.map_cons, List.nodup_append] at hnodup
    exact fun hmem => hnodup.2.2 _ hmem _ (by simp [Walked.relStr]) rfl
  change WalkInv env.hasher ws gid now c done t at hI
  change Consistent env.hasher t at hcons
  have htws : t.hasWorkspace ws = true := by
    rw [hI.frame]
    exact hws
  have htgid : t.hasGeneration gid = true := by
    rw [hI.frame]
    exact hgid
  have htfree : identityAt? t ws path = none →
      ∀ i ∈ t.fileIdentity, i.fileId ≠ fileIdFromPath env.hasher ws path := by
    intro hnone' i hi
    rw [hI.identityAt?_eq hnew] at hnone'
    obtain ⟨extra, hrows, hextra⟩ := hI.identities
    rw [Table.mem_def, hrows] at hi
    rcases List.mem_append.mp hi with hi | hi
    · refine hfree path ?_ hnone' i hi
      simp [hwalked, Walked.relStr]
    · -- an identity that this walk created
      obtain ⟨v, hv, rfl⟩ := hextra i hi
      intro heq
      exact hnew (fileIdFromPath_injective hH ws heq ▸ List.mem_map_of_mem hv)
  have htpath : ∀ gf ∈ t.generationFile, gf.generationId = gid → gf.canonicalPath ≠ path := by
    intro gf hgf hgen heq
    obtain ⟨v, hv, hpath, -⟩ := hI.members gf hgf hgen
    exact hnew (heq ▸ hpath ▸ List.mem_map_of_mem hv)
  obtain ⟨t', isNew, hrecord, hcons'⟩ :=
    recordPresent_total hH htws htgid htfree htpath hcons content text now
  refine ⟨(t', if isNew then n + 1 else n), ?_, ?_, hcons'⟩
  · simp only [recordWalked, hrecord, Except.map]
  · exact hI.step hnew (recordPresent_effect hrecord)

/-- The deletions are recorded. -/
lemma deletions_total (hH : env.hasher.Injective) (hc : Sound env.hasher ws c)
    (b : Begun env.hasher c ws gid begun) {recorded : Catalogue}
    {renames : List RenamePair} {gone : List (String × PrevFile)}
    (hws : recorded.hasWorkspace ws = true) (hgid : recorded.hasGeneration gid = true)
    (hfiles : ∀ old ∈ gone, recorded.hasFile old.2.fileId = true)
    (hpaths : gone.Pairwise fun a b => a.1 ≠ b.1)
    (hevents : recorded.lifecycleEvent.rows =
      c.lifecycleEvent.rows ++ renames.map (renamedEvent env.hasher ws gid now))
    (htombs : recorded.tombstone = c.tombstone) :
    ∃ deleted, gone.foldlM (recordDeletion env.hasher ws gid now) recorded = .ok deleted := by
  have hat : '@' ∉ gid.toList := by
    rw [← b.generationId_eq, b.derived]
    exact at_not_mem_generationId ws b.row.sequenceNo
  have hpairE : (gone.map fun old => deletedEvent env.hasher ws gid now old.1 old.2).Pairwise
      fun e e' => ¬ Clash e e' := by
    rw [List.pairwise_map]
    refine hpaths.imp fun {x y} hne hclash => hne ?_
    have htext := fileIdFromPath_injective hH ws hclash
    rw [deleteText_eq, deleteText_eq] at htext
    exact (recordText_inj (by decide) (by decide) hat hat htext).2.2
  have hpairT : (gone.map fun old =>
      tombstoneRow env.hasher ws gid now recorded old.1 old.2).Pairwise
      fun t t' => ¬ Clash t t' := by
    rw [List.pairwise_map]
    refine hpaths.imp fun {x y} hne hclash => hne ?_
    have htext := fileIdFromPath_injective hH ws hclash
    rw [tombstoneText_eq, tombstoneText_eq] at htext
    exact (recordText_inj (by decide) (by decide) hat hat htext).2.2
  have hfreeE : ∀ e ∈ recorded.lifecycleEvent, ∀ e' ∈ gone.map
      (fun old => deletedEvent env.hasher ws gid now old.1 old.2), ¬ Clash e e' := by
    intro e he e' he' hclash
    obtain ⟨old, -, rfl⟩ := List.mem_map.mp he'
    have hid : e.eventId = fileIdFromPath env.hasher ws (recordText "delete" gid old.1) := by
      rw [← deleteText_eq]
      exact hclash
    rw [Table.mem_def, hevents] at he
    rcases List.mem_append.mp he with he | he
    · exact hc.stamped_ne hH (hc.events e he) (by decide) (by decide) b hid
    · -- the events of this call's renames are of another kind
      obtain ⟨r, -, rfl⟩ := List.mem_map.mp he
      have htext := fileIdFromPath_injective hH ws hid
      rw [renameText_eq] at htext
      exact absurd (recordText_inj (by decide) (by decide) hat hat htext).1 (by decide)
  have hfreeT : ∀ t ∈ recorded.tombstone, ∀ t' ∈ gone.map
      (fun old => tombstoneRow env.hasher ws gid now recorded old.1 old.2), ¬ Clash t t' := by
    intro t ht t' ht' hclash
    obtain ⟨old, -, rfl⟩ := List.mem_map.mp ht'
    have hid : t.tombstoneId = fileIdFromPath env.hasher ws (recordText "tombstone" gid old.1) := by
      rw [← tombstoneText_eq]
      exact hclash
    rw [htombs] at ht
    exact hc.stamped_ne hH (hc.tombstones t ht) (by decide) (by decide) b hid
  obtain ⟨events, hevents'⟩ := Table.exists_append hpairE hfreeE
  obtain ⟨tombstones, htombs'⟩ := Table.exists_append hpairT hfreeT
  exact ⟨_, recordDeletionLoop_ok.mpr ⟨fun old hold => ⟨hws, hgid, hfiles old hold⟩, events,
    tombstones, hevents', htombs', rfl⟩⟩

/-- The renames change no id of a file. -/
lemma hasFile_afterRenames (c : Catalogue) (ws : String) (walked : List Walked)
    (now : Timestamp) (id : String) :
    (afterRenames c ws walked now).hasFile id = c.hasFile id := by
  unfold afterRenames Catalogue.hasFile
  rw [rows_movedIdentities, List.any_map]
  congr 1
  funext i
  simp only [Function.comp_apply, (movedRow_spec _ now i).1]

/-- The deletions change no id of a file. -/
lemma any_markedDeleted (t : Table FileIdentity) (gone : List (String × PrevFile))
    (now : Timestamp) (id : String) :
    ((markedDeleted t gone now).rows.any fun i => i.fileId = id) =
      t.rows.any fun i => i.fileId = id := by
  rw [rows_markedDeleted, List.any_map]
  congr 1
  funext i
  simp only [Function.comp_apply, (deletedRow_spec gone now i).1]

/-- The transaction of the facts commits. -/
lemma facts_total (hH : env.hasher.Injective) (hc : Sound env.hasher ws c)
    (b : Begun env.hasher c ws gid begun) (hnodup : (walked.map Walked.relStr).Nodup)
    (hpresent : ∀ w ∈ walked, ∃ path content text, w = .present path content text)
    (hfree : ∀ path ∈ walked.map Walked.relStr,
      identityAt? (afterRenames c ws walked now) ws path = none →
      ∀ i ∈ (afterRenames c ws walked now).fileIdentity,
        i.fileId ≠ fileIdFromPath env.hasher ws path)
    (hdistinct : ((detectedRenames c ws walked).map fun r =>
      r.oldPath ++ "@" ++ r.newPath).Nodup) :
    ∃ s : FactsStages env begun ws gid walked [] now, Consistent env.hasher s.recorded := by
  obtain ⟨renamed, hrenames⟩ := renames_total hH hc b hdistinct now
  obtain ⟨-, events, hevents, hrenamed⟩ := recordRenames_ok.mp hrenames
  have hbegun := b.begun_eq
  have hfiles : begun.generationFile = c.generationFile := by rw [hbegun]
  have hnone : ∀ gf ∈ renamed.generationFile, gf.generationId ≠ gid := by
    rw [← hrenamed]
    intro gf hgf heq
    exact absurd ((hc.members gf (hfiles ▸ hgf)).symm.trans (heq ▸ b.fresh)) (by simp)
  have hidentities : renamed.fileIdentity = (afterRenames c ws walked now).fileIdentity := by
    rw [← hrenamed, hbegun]
    rfl
  have hcons : Consistent env.hasher renamed := by
    refine ⟨?_, ?_, ?_⟩
    · rw [← hrenamed, hbegun]
      exact hc.consistent.revisions
    · rw [← hrenamed, hbegun]
      exact hc.consistent.runs
    · intro gf hgf
      have hgf' : gf ∈ c.generationFile := by
        rw [← hrenamed, hbegun] at hgf
        exact hgf
      have hfile := hc.consistent.files gf hgf'
      rw [← hasFile_afterRenames c ws walked now] at hfile
      unfold Catalogue.hasFile at hfile ⊢
      rw [hidentities]
      exact hfile
  have hws : renamed.hasWorkspace ws = true := by
    rw [← hrenamed, hbegun]
    exact hc.workspace
  have hgid : renamed.hasGeneration gid = true := by
    rw [← hrenamed]
    exact b.hasGeneration_iff.mpr (Or.inr rfl)
  have hfree' : ∀ path ∈ walked.map Walked.relStr, identityAt? renamed ws path = none →
      ∀ i ∈ renamed.fileIdentity, i.fileId ≠ fileIdFromPath env.hasher ws path := by
    intro path hpath
    unfold identityAt?
    rw [hidentities]
    exact hfree path hpath
  obtain ⟨⟨recorded, parsed⟩, hwalk, hcons'⟩ :=
    walk_total hH hws hgid hnone hcons hnodup hpresent hfree' now
  have hI : WalkInv env.hasher ws gid now renamed walked recorded :=
    WorkspaceAtlas.walk_ok hnodup hnone hwalk
  have hframe := hI.frame
  obtain ⟨extra, hrows, -⟩ := hI.identities
  have hdels : ∃ deleted, (detectedDeletions begun ws walked).foldlM
      (recordDeletion env.hasher ws gid now) recorded = .ok deleted := by
    have hlifecycle : recorded.lifecycleEvent.rows = c.lifecycleEvent.rows ++
        (detectedRenames begun ws walked).map (renamedEvent env.hasher ws gid now) := by
      rw [hframe, ← hrenamed, hevents, hbegun]
    refine deletions_total hH hc b ?_ ?_ ?_ ?_ hlifecycle ?_
    · rw [hframe]
      exact hws
    · rw [hframe]
      exact hgid
    · -- the walk keeps the identities of the files that are gone
      intro old hold
      have hmem := (List.mem_filter.mp hold).1
      rw [hbegun] at hmem
      have hfile : c.hasFile old.2.fileId = true := hc.hasFile_of_mem_snapshot hmem
      rw [← hasFile_afterRenames c ws walked now] at hfile
      obtain ⟨i, hi, hid⟩ := hasFile_iff.mp hfile
      refine hasFile_iff.mpr ⟨i, ?_, hid⟩
      rw [Table.mem_def, hrows, hidentities]
      exact List.mem_append_left _ hi
    · exact (snapshotPreviousPresent_pairwise.sublist List.filter_sublist).imp fun h => h.1
    · rw [hframe, ← hrenamed, hbegun]
  obtain ⟨deleted, hdeleted⟩ := hdels
  exact ⟨⟨renamed, recorded, deleted, parsed, deleted.facts, SemanticOutcome.start 0, hrenames,
    hwalk, hdeleted, rfl⟩, hcons'⟩

/-! ## What a call leaves -/

/-- What the facts leave is sound, with the candidate in it. -/
lemma sound_recorded (hc : Sound env.hasher ws c) (b : Begun env.hasher c ws gid begun)
    (hnodup : (walked.map Walked.relStr).Nodup)
    (s : FactsStages env begun ws gid walked [] now) (hcons : Consistent env.hasher s.recorded)
    {recorded : Catalogue} (hs : s.Commits recorded) :
    Sound env.hasher ws recorded ∧
      ∃ g ∈ recorded.indexGeneration, g.generationId = gid ∧ g.workspaceId = ws ∧
        g.state = .candidate := by
  obtain ⟨hworkspace, ⟨f, hf, hstate, hgens⟩, -⟩ := s.committed_rows hs
  obtain ⟨hmembers, hrevisions⟩ := s.members_eq hs
  have hbegun := b.begun_eq
  have hm : PerPath.MembersRefer begun := by
    rw [PerPath.MembersRefer, hbegun]
    intro gf hgf
    rw [← hbegun]
    exact b.hasGeneration_iff.mpr (Or.inl (hc.members gf hgf))
  have hnone : ∀ gf ∈ begun.generationFile, gf.generationId ≠ gid := by
    rw [hbegun]
    intro gf hgf heq
    exact absurd ((hc.members gf hgf).symm.trans (heq ▸ b.fresh)) (by simp)
  have hgid : begun.hasGeneration gid = true := b.hasGeneration_iff.mpr (Or.inr rfl)
  have hbegunE : begun.lifecycleEvent = c.lifecycleEvent := by rw [hbegun]
  have hbegunT : begun.tombstone = c.tombstone := by rw [hbegun]
  have hbegunG : begun.indexGeneration = b.generations :=
    congrArg Catalogue.indexGeneration hbegun
  have hhas : ∀ g, recorded.hasGeneration g = begun.hasGeneration g := fun g =>
    hasGeneration_update hf.generationId hgens
  have hgrow : ∀ g, c.hasGeneration g = true → recorded.hasGeneration g = true := by
    intro g hg
    rw [hhas]
    exact b.hasGeneration_iff.mpr (Or.inl hg)
  obtain ⟨events, hevents, hrenamed⟩ := s.renamed_eq
  obtain ⟨events', tombstones, hevents', htombs, hdeleted⟩ := s.deleted_eq
  have hframe := (s.walkInv hnodup hnone).frame
  have hsemantic := s.semantic_ok
  have hfacts : s.facts = s.recorded.facts := by
    obtain ⟨hpair, -⟩ := Prod.mk.inj (Except.ok.inj hsemantic)
    rw [← hpair, hdeleted]
  have hrefer := PerPath.membersRefer_facts hnodup hm hnone hgid s hs
  have hcandidate := s.candidate_mem b hs
  obtain ⟨f', -, -, hcommit⟩ := hs
  refine ⟨⟨?_, ?_, hrefer, ⟨?_, ?_, ?_⟩, ?_, ?_⟩, hcandidate⟩
  · rw [Catalogue.hasWorkspace, hworkspace, hbegun]
    exact hc.workspace
  · intro g hg
    rw [hgens] at hg
    obtain ⟨g₀, hg₀, rfl⟩ := Table.mem_update.mp hg
    have hold : g₀.workspaceId = ws ∧ g₀.generationId = generationId env.hasher ws g₀.sequenceNo := by
      rw [hbegunG] at hg₀
      rcases (b.mem_iff g₀).mp hg₀ with hg₀ | rfl
      · exact hc.generations g₀ hg₀
      · exact ⟨b.workspaceId_eq, b.derived⟩
    split
    · rw [hf.workspaceId, hf.generationId, hf.sequenceNo]
      exact hold
    · exact hold
  · rw [hrevisions]
    exact hcons.revisions
  · rw [hrevisions, hcommit]
    show RunsRefer _ s.facts
    rw [hfacts]
    exact hcons.runs
  · intro gf hgf
    rw [hmembers] at hgf
    have hfile := hcons.files gf hgf
    rw [hcommit, hdeleted]
    exact (any_markedDeleted s.recorded.fileIdentity _ now gf.fileId).trans hfile
  · intro e he
    rw [hcommit, hdeleted] at he
    have he : e ∈ events'.rows := he
    rw [hevents', hframe, hrenamed] at he
    rcases List.mem_append.mp he with he | he
    · have he : e ∈ events.rows := he
      rw [hevents] at he
      rcases List.mem_append.mp he with he | he
      · have he : e ∈ begun.lifecycleEvent := he
        rw [hbegunE] at he
        exact (hc.events e he).mono hgrow
      · obtain ⟨r, -, rfl⟩ := List.mem_map.mp he
        refine ⟨"rename", by simp, gid, r.oldPath ++ "@" ++ r.newPath, (hhas gid).trans hgid, ?_⟩
        rw [← renameText_eq]
        rfl
    · obtain ⟨old, -, rfl⟩ := List.mem_map.mp he
      refine ⟨"delete", by simp, gid, old.1, (hhas gid).trans hgid, ?_⟩
      rw [← deleteText_eq]
      rfl
  · intro t ht
    rw [hcommit, hdeleted] at ht
    have ht : t ∈ tombstones.rows := ht
    rw [htombs, hframe, hrenamed] at ht
    rcases List.mem_append.mp ht with ht | ht
    · have ht : t ∈ begun.tombstone := ht
      rw [hbegunT] at ht
      exact (hc.tombstones t ht).mono hgrow
    · obtain ⟨old, -, rfl⟩ := List.mem_map.mp ht
      refine ⟨"tombstone", by simp, gid, old.1, (hhas gid).trans hgid, ?_⟩
      rw [← tombstoneText_eq]
      rfl

/-- An activation keeps the catalogue sound and sets the pointer. -/
lemma sound_activated {H : Hasher} (hc : Sound H ws c) {g : IndexGeneration}
    (hg : g.workspaceId = ws) (tree : Option String) (now : Timestamp) :
    Sound H ws (activated c g tree now) ∧
      activeGeneration? (activated c g tree now) ws = some g.generationId := by
  have hhas : ∀ id, (activated c g tree now).hasGeneration id = c.hasGeneration id := fun id =>
    hasGeneration_update (keepsNumber_markCommitted tree now).generationId rfl
  have hgrow : ∀ id, c.hasGeneration id = true →
      (activated c g tree now).hasGeneration id = true := fun id h => (hhas id).trans h
  obtain ⟨w, hw, hid⟩ := hasWorkspace_iff.mp hc.workspace
  have hpointed : pointTo g.generationId w ∈ (activated c g tree now).workspace :=
    Table.mem_update_of_mem hw (by simp [hid, hg])
  refine ⟨⟨?_, ?_, ?_, ⟨hc.consistent.revisions, hc.consistent.runs, hc.consistent.files⟩, ?_,
    ?_⟩, ?_⟩
  · exact hasWorkspace_iff.mpr ⟨_, hpointed, hid⟩
  · intro g' hg'
    obtain ⟨g₀, hg₀, rfl⟩ := Table.mem_update.mp hg'
    split
    · exact hc.generations g₀ hg₀
    · exact hc.generations g₀ hg₀
  · exact fun gf hgf => hgrow _ (hc.members gf hgf)
  · exact fun e he => (hc.events e he).mono hgrow
  · exact fun t ht => (hc.tombstones t ht).mono hgrow
  · exact hg ▸ activeGeneration?_activated (hg.symm ▸ hc.workspace)

/-- A candidate without a required failure is activated. -/
lemma activateOrFail_of_candidate {faults : Faults} {semantic : SemanticOutcome} {tree : String}
    {g : IndexGeneration} (hfault : faults.activate = none)
    (hreq : semantic.requiredFailure = false) (hg : g ∈ c.indexGeneration)
    (hstate : g.state = .candidate) :
    activateOrFail faults c g.workspaceId g.generationId semantic tree now =
      (activated c g (some tree) now, none) := by
  unfold activateOrFail
  rw [if_neg (by simp [hreq]), hfault]
  simp only [withFault, activateCandidate_of_candidate hg hstate]

/-- A call whose stages go through and whose required providers do not fail activates its
candidate. -/
lemma activates_of_stages (w : Workspace) (input : ReconcileInput)
    {files : List FileObservation} (hfaults : input.faults = .none) (hfiles : input.files = .ok files)
    (hbegin : beginCandidate env.hasher c w.workspaceId .reconcile "p_reconcile_v1" "1.3.0"
      input.now = .ok (begun, candidate))
    (hwalked : files.mapM (hashWalked env input.policy) = .ok walked)
    (s : FactsStages env begun w.workspaceId candidate.generationId walked input.plans input.now)
    (hreq : s.semantic.requiredFailure = false) :
    ∃ report recorded g, s.Commits recorded ∧ g ∈ recorded.indexGeneration ∧
      g.generationId = candidate.generationId ∧ g.workspaceId = w.workspaceId ∧
      (reconcile env c w input).1 = activated recorded g
        (some (sourceTreeHash env.hasher (walked.filterMap Walked.presentHash?))) input.now ∧
      (reconcile env c w input).2 = .ok report ∧ report.activated = true ∧
      report.candidateGenerationId = candidate.generationId := by
  obtain ⟨b⟩ := beginCandidate_begun hbegin
  obtain ⟨recorded, facts, hfacts, hs, hsemantic⟩ := factsTransaction_of_stages s
  obtain ⟨g, hg, hgid, hgws, hstate⟩ := s.candidate_mem b hs
  have hact : ∀ tree, activateOrFail Faults.none recorded w.workspaceId candidate.generationId
      facts.semantic tree input.now = (activated recorded g (some tree) input.now, none) := by
    intro tree
    rw [← hgid, ← hgws]
    exact activateOrFail_of_candidate rfl (hsemantic ▸ hreq) hg hstate
  have hend := reconcile_ending env c w input
  generalize reconcile env c w input = res at hend ⊢
  obtain ⟨c', r⟩ := res
  cases hend with
  | notBegun e hnot =>
    refine absurd hbegin fun h => hnot files hfiles (begun, candidate) ?_
    rw [hfaults]
    exact h
  | stopped e hfiles' hbegin' hnot =>
    obtain rfl := Except.ok.inj (hfiles.symm.trans hfiles')
    rw [hfaults] at hbegin' hnot
    obtain ⟨rfl, rfl⟩ := Prod.mk.inj (Except.ok.inj (hbegin.symm.trans hbegin'))
    exact absurd hfacts (hnot walked hwalked _)
  | @finished begun' recorded' candidate' files' walked' facts' report hfiles' hbegin' hwalked'
      hfacts' hreport =>
    obtain rfl := Except.ok.inj (hfiles.symm.trans hfiles')
    obtain rfl := Except.ok.inj (hwalked.symm.trans hwalked')
    rw [hfaults] at hbegin' hfacts' hreport ⊢
    obtain ⟨rfl, rfl⟩ := Prod.mk.inj (Except.ok.inj (hbegin.symm.trans hbegin'))
    obtain ⟨rfl, rfl⟩ := Prod.mk.inj (Except.ok.inj (hfacts.symm.trans hfacts'))
    have htree := hact (sourceTreeHash env.hasher (walked.filterMap Walked.presentHash?))
    refine ⟨report, recorded, g, hs, hg, hgid, hgws, congrArg Prod.fst htree, rfl, ?_,
      hreport.1⟩
    rw [hreport.2]
    exact congrArg (fun x => Option.isNone x.2) htree

/-- **One call.**  If its ids are free it activates the generation it begins. -/
lemma activates_of_idsFree (hH : env.hasher.Injective) (hc : Sound env.hasher ws c)
    (hfree : IdsFree env ws c snap) :
    (∃ report, PerPath.Activates env c (snap.call (workspaceRecord c ws)) report ∧
      activeGeneration? (step env ws c snap) ws = some report.candidateGenerationId) ∧
      Sound env.hasher ws (step env ws c snap) := by
  obtain ⟨walked, hwalked⟩ := snap.walked_ok
  have hnodup : (walked.map Walked.relStr).Nodup :=
    (PerPath.map_relStr hwalked) ▸ snap.distinct
  obtain ⟨hids, hdistinct⟩ := hfree walked hwalked
  obtain ⟨begun, candidate, hbegin⟩ := beginCandidate_total hH hc snap.now
  obtain ⟨b⟩ := beginCandidate_begun hbegin
  obtain ⟨s, hcons⟩ :=
    facts_total hH hc b hnodup (snap.present_of_walked hwalked) hids hdistinct
  have hreq : s.semantic.requiredFailure = false := by
    rw [← (Prod.mk.inj (Except.ok.inj s.semantic_ok)).2]
    rfl
  obtain ⟨report, recorded, g, hs, -, hgid, hgws, hfirst, hok, hact, hid⟩ :=
    activates_of_stages (workspaceRecord c ws) (.ofFiles snap.files snap.policy snap.now) rfl rfl
      hbegin hwalked s hreq
  obtain ⟨hsound, -⟩ := sound_recorded hc b hnodup s hcons hs
  obtain ⟨hsound', hpointer⟩ := sound_activated hsound hgws
    (some (sourceTreeHash env.hasher (walked.filterMap Walked.presentHash?))) snap.now
  have hstep : step env ws c snap = activated recorded g
      (some (sourceTreeHash env.hasher (walked.filterMap Walked.presentHash?))) snap.now := hfirst
  rw [hstep]
  exact ⟨⟨report, ⟨hok, hact⟩, hpointer.trans (congrArg some (hgid.trans hid.symm))⟩, hsound'⟩

/-- A reconcile that succeeds had free ids. -/
lemma idsFree_of_activates (hc : Sound env.hasher ws c)
    {report : ReconcileReport}
    (hact : PerPath.Activates env c (snap.call (workspaceRecord c ws)) report) :
    IdsFree env ws c snap := by
  intro walked hwalked
  have hend := reconcile_ending env c (workspaceRecord c ws)
    (.ofFiles snap.files snap.policy snap.now)
  obtain ⟨hok, -⟩ := hact
  change (reconcile env c (workspaceRecord c ws)
    (.ofFiles snap.files snap.policy snap.now)).2 = .ok report at hok
  generalize reconcile env c (workspaceRecord c ws)
    (.ofFiles snap.files snap.policy snap.now) = res at hend hok
  obtain ⟨c', r⟩ := res
  cases hend with
  | notBegun e hnot => exact absurd hok (by simp)
  | stopped e hfiles hbegin hnot => exact absurd hok (by simp)
  | @finished begun recorded candidate files walked' facts report' hfiles hbegin hwalked'
      hfacts hreport =>
    obtain rfl : snap.files = files := Except.ok.inj hfiles
    obtain rfl := Except.ok.inj (hwalked.symm.trans hwalked')
    obtain ⟨-, hbegin⟩ := withFault_ok.mp hbegin
    obtain ⟨-, hfacts⟩ := withFault_ok.mp hfacts
    obtain ⟨b⟩ := beginCandidate_begun hbegin
    obtain ⟨s, hs, -⟩ := factsTransaction_ok hfacts
    have hnodup : (walked.map Walked.relStr).Nodup :=
      (PerPath.map_relStr hwalked) ▸ snap.distinct
    have hbegun := b.begun_eq
    have hnone : ∀ gf ∈ begun.generationFile, gf.generationId ≠ candidate.generationId := by
      rw [hbegun]
      intro gf hgf heq
      exact absurd ((hc.members gf hgf).symm.trans (heq ▸ b.fresh)) (by simp)
    obtain ⟨events, hevents, hrenamed⟩ := s.renamed_eq
    have hidentities : s.renamed.fileIdentity =
        (afterRenames c ws walked snap.now).fileIdentity := by
      have h := congrArg Catalogue.fileIdentity hrenamed
      refine h.trans ?_
      rw [hbegun]
      rfl
    have hren : detectedRenames begun ws walked = detectedRenames c ws walked := by
      rw [hbegun]
      rfl
    constructor
    · intro path hpath hfind i hi
      obtain ⟨w, hw, rfl⟩ := List.mem_map.mp hpath
      obtain ⟨path, content, text, rfl⟩ := snap.present_of_walked hwalked w hw
      rw [← hidentities] at hi
      refine (s.walkInv hnodup hnone).fresh path content text hw ?_ i hi
      unfold identityAt?
      rw [hidentities]
      exact hfind
    · -- the events were inserted, so their ids are distinct
      have hpair := (Table.free_of_append hevents).1
      change ((detectedRenames begun ws walked).map (renamedEvent env.hasher ws
        candidate.generationId snap.now)).Pairwise (fun e e' => ¬ Clash e e') at hpair
      rw [hren, List.pairwise_map] at hpair
      rw [List.Nodup, List.pairwise_map]
      refine hpair.imp fun {r r'} hne heq => hne ?_
      show fileIdFromPath _ _ (renameText _ _ _) = fileIdFromPath _ _ (renameText _ _ _)
      rw [renameText_eq, renameText_eq, heq]

/-- **One call.**  It records its snapshot exactly when its ids are free. -/
lemma recordsSnapshot_iff (hH : env.hasher.Injective) (hc : Sound env.hasher ws c) :
    RecordsSnapshot env ws c snap ↔ IdsFree env ws c snap := by
  constructor
  · rintro ⟨report, hok, hact, -⟩
    exact idsFree_of_activates hc ⟨hok, hact⟩
  · intro hfree
    obtain ⟨⟨report, hact, hpointer⟩, -⟩ := activates_of_idsFree hH hc hfree
    have hpath : PerPath.RecordedPerPath env c (snap.call (workspaceRecord c ws)) := by
      rw [PerPath.recordedPerPath_iff_keepsApart hH hc.members]
      intro report' files walked hact' hfiles hwalked path content text _ i _ p kind code detail
        hskip
      -- nothing is skipped
      obtain rfl : snap.files = files := Except.ok.inj hfiles
      obtain ⟨_, _, _, heq⟩ := snap.present_of_walked hwalked _ hskip
      exact absurd heq (by simp)
    obtain ⟨hrecords, hmembers⟩ := hpath report snap.files hact rfl
    refine ⟨report, hact.1, hact.2, hpointer, hrecords, hmembers, ?_⟩
    intro gf hgf gf' hgf' hgen hgen' hfile
    rw [Table.eq_of_clash hgf hgf' ⟨hgen.trans hgen'.symm, Or.inl hfile⟩]

end Lemmas

end Snapshots

end WorkspaceAtlas
