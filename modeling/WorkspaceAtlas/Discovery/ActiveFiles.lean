/-
# The files of the active generation

A walk is compared with the present files of the active generation.  As long as each of them
is the current identity that its path finds, the renames and the deletions that a call
detects are exactly the paths that change and the files that disappear when its candidate
replaces the active generation.
-/
import Mathlib.Data.List.Find
import WorkspaceAtlas.Discovery.Effect
import WorkspaceAtlas.Semantic.Outcome

namespace WorkspaceAtlas

open Relational Transition

namespace LifecycleRun

/-- The generation has a present row of the file at the path. -/
def PresentAt (c : Catalogue) (gid fileId path : String) : Prop :=
  ∃ gf ∈ c.generationFile, gf.generationId = gid ∧ gf.presenceState = .present ∧
    gf.fileId = fileId ∧ gf.canonicalPath = path

/-- The generation has a present row of the file. -/
def PresentIn (c : Catalogue) (gid fileId : String) : Prop := ∃ path, PresentAt c gid fileId path

/-- The generation has the file at the path with the revision and the content. -/
def PresentAs (c : Catalogue) (gid fileId path revisionId contentHash : String) : Prop :=
  ∃ gf ∈ c.generationFile, gf.generationId = gid ∧ gf.presenceState = .present ∧
    gf.fileId = fileId ∧ gf.canonicalPath = path ∧ gf.revisionId = some revisionId ∧
    ∃ r ∈ c.fileRevision, r.revisionId = revisionId ∧ r.contentHash = contentHash

/-! ## What a walk may meet -/

/-- A required provider that runs fails. -/
def RequiredFailure (plans : List SemanticPlan) : Prop := ∃ plan ∈ plans, plan.FailsRequired

/-- What a walk may meet in the catalogue. -/
structure Traceable (c : Catalogue) (ws : String) (walked : List Walked)
    (plans : List SemanticPlan) (now : Timestamp) : Prop where
  /-- A candidate that fails has neither renames nor deletions. -/
  failing : RequiredFailure plans →
    detectedRenames c ws walked = [] ∧ detectedDeletions c ws walked = []
  /-- The new path of a rename finds the renamed identity. -/
  renames : ∀ r ∈ detectedRenames c ws walked, ∃ i,
    identityAt? (afterRenames c ws walked now) ws r.newPath = some i ∧ i.fileId = r.fileId
  /-- No path of a candidate that does not fail finds a deleted identity. -/
  found : ¬ RequiredFailure plans → ∀ w ∈ walked, ∀ i,
    identityAt? (afterRenames c ws walked now) ws w.relStr = some i →
      i.lifecycleState ≠ .deleted
  /-- The newest revision with the last content of a deleted file is its last revision. -/
  deletions : ∀ old ∈ detectedDeletions c ws walked, ∀ gf ∈ c.generationFile,
    activeGeneration? c ws = some gf.generationId → gf.presenceState = .present →
    gf.fileId = old.2.fileId → (lastRevision c old.2).map FileRevision.revisionId = gf.revisionId

/-! ## The active generation -/

/-- The rows of the active generation and the identities fit together. -/
structure Tracked (ws : String) (active : Option String) (c : Catalogue) : Prop where
  files : ∀ gf ∈ c.generationFile, ∃ i ∈ c.fileIdentity, i.fileId = gf.fileId
  revisions : ∀ gf ∈ c.generationFile, gf.presenceState = .present →
    ∃ r ∈ c.fileRevision, gf.revisionId = some r.revisionId
  states : ∀ i ∈ c.fileIdentity, i.lifecycleState = .current ∨ i.lifecycleState = .deleted
  known : ∀ gf ∈ c.generationFile, active = some gf.generationId →
    gf.presenceState = .present → ∃ i, identityAt? c ws gf.canonicalPath = some i ∧
      i.fileId = gf.fileId ∧ i.lifecycleState = .current

section Lemmas

variable {env : Environment} {c c' : Catalogue} {ws gid : String} {walked : List Walked}
  {plans : List SemanticPlan} {now : Timestamp} {gf : GenerationFile}

/-- The rows that a call compares the walk with. -/
lemma mem_snapshot_iff {old : String × PrevFile} :
    old ∈ snapshotPreviousPresent c ws ↔ ∃ gid rid, activeGeneration? c ws = some gid ∧
      PresentAs c gid old.2.fileId old.1 rid old.2.contentHash := by
  have hrow : ∀ active gf, prevPresent? c active gf = some old ↔
      active = some gf.generationId ∧ gf.presenceState = .present ∧
        ∃ rid r, gf.revisionId = some rid ∧
          (c.fileRevision.find? fun fr => fr.revisionId = rid) = some r ∧
          (gf.canonicalPath, (⟨gf.fileId, r.contentHash⟩ : PrevFile)) = old := by
    intro active gf
    unfold prevPresent?
    split
    next h => simp [h, Option.bind_eq_some_iff]
    next h =>
      refine iff_of_false (by simp) ?_
      rintro ⟨hact, hpres, -⟩
      exact h ⟨hact, hpres⟩
  have hfind : ∀ rid r, (c.fileRevision.find? fun fr => fr.revisionId = rid) = some r ↔
      r ∈ c.fileRevision ∧ r.revisionId = rid := by
    intro rid r
    rw [Table.find?_eq_some_iff]
    · simp
    · intro x _ y _ hx hy
      simp only [decide_eq_true_eq] at hx hy
      exact Or.inl (hx.trans hy.symm)
  unfold snapshotPreviousPresent activeGeneration?
  cases hw : c.workspace.find? fun w => w.workspaceId = ws with
  | none => simp
  | some w =>
    simp only [List.mem_filterMap, hrow, hfind, Option.bind_some]
    constructor
    · rintro ⟨gf, hgf, hact, hpres, rid, r, hrid, ⟨hr, hid⟩, rfl⟩
      exact ⟨gf.generationId, rid, hact, gf, hgf, rfl, hpres, rfl, rfl, hrid, r, hr, hid, rfl⟩
    · rintro ⟨gid, rid, hact, gf, hgf, rfl, hpres, hfile, hpath, hrid, r, hr, hid, hhash⟩
      refine ⟨gf, hgf, hact, hpres, rid, r, hrid, ⟨hr, hid⟩, ?_⟩
      rw [hpath, hfile, hhash]

/-- Every present row of the active generation is compared. -/
lemma Tracked.mem_snapshot (hc : Tracked ws (activeGeneration? c ws) c)
    (hgf : gf ∈ c.generationFile) (hact : activeGeneration? c ws = some gf.generationId)
    (hpres : gf.presenceState = .present) :
    ∃ old ∈ snapshotPreviousPresent c ws, old.1 = gf.canonicalPath ∧ old.2.fileId = gf.fileId := by
  obtain ⟨r, hr, hrid⟩ := hc.revisions gf hgf hpres
  exact ⟨(gf.canonicalPath, ⟨gf.fileId, r.contentHash⟩), mem_snapshot_iff.mpr
    ⟨gf.generationId, r.revisionId, hact, gf, hgf, rfl, hpres, rfl, rfl, hrid, r, hr, rfl, rfl⟩,
    rfl, rfl⟩

/-- A rename moves a present file of the active generation, whose path was not walked, to a
path that the generation does not have. -/
lemma mem_renames {r : RenamePair} (hr : r ∈ detectedRenames c ws walked) :
    (∃ gf ∈ c.generationFile, activeGeneration? c ws = some gf.generationId ∧
      gf.presenceState = .present ∧ gf.fileId = r.fileId ∧ gf.canonicalPath = r.oldPath) ∧
      r.oldPath ∉ walked.map Walked.relStr ∧
      (∀ old ∈ snapshotPreviousPresent c ws, old.1 ≠ r.newPath) ∧
      (r.newPath, r.contentHash) ∈ newPresentHashes walked := by
  obtain ⟨old, hold, hgone, hpath, hfile, hnew⟩ := mem_detectRenames hr
  obtain ⟨gid, rid, hact, gf, hgf, hgen, hpres, hgfile, hgpath, -⟩ := mem_snapshot_iff.mp hold
  obtain ⟨hmem, hprev⟩ := List.mem_filter.mp hnew
  refine ⟨⟨gf, hgf, hgen ▸ hact, hpres, hgfile.trans hfile.symm, hgpath.trans hpath.symm⟩, ?_,
    ?_, hmem⟩
  · rw [hpath]
    exact hgone
  · intro x hx heq
    have hnot : r.newPath ∉ (snapshotPreviousPresent c ws).map Prod.fst := by simpa using hprev
    exact hnot (heq ▸ List.mem_map_of_mem hx)

/-- The files of two renames are not one. -/
lemma eq_of_mem_renames {r r' : RenamePair} (hr : r ∈ detectedRenames c ws walked)
    (hr' : r' ∈ detectedRenames c ws walked) (h : r.fileId = r'.fileId) : r = r' := by
  have hpair : (detectedRenames c ws walked).Pairwise fun a b =>
      a.oldPath ≠ b.oldPath ∧ a.fileId ≠ b.fileId :=
    detectRenames_pairwise snapshotPreviousPresent_pairwise
  have hnodup : ((detectedRenames c ws walked).map RenamePair.fileId).Nodup :=
    List.pairwise_map.mpr (hpair.imp fun h => h.2)
  exact List.inj_on_of_nodup_map hnodup hr hr' h

lemma eq_of_mem_deletions {old old' : String × PrevFile}
    (hold : old ∈ detectedDeletions c ws walked) (hold' : old' ∈ detectedDeletions c ws walked)
    (h : old.2.fileId = old'.2.fileId) : old = old' := by
  have hnodup : ((detectedDeletions c ws walked).map fun old => old.2.fileId).Nodup :=
    List.pairwise_map.mpr ((snapshotPreviousPresent_pairwise.sublist
      List.filter_sublist).imp fun h => h.2)
  exact List.inj_on_of_nodup_map hnodup hold hold' h

/-- A renamed file goes to the new path. -/
lemma movedPath_renames {r : RenamePair} (hr : r ∈ detectedRenames c ws walked)
    (path : String) : movedPath (detectedRenames c ws walked) r.fileId path = r.newPath :=
  movedPath_of_mem (detectRenames_pairwise snapshotPreviousPresent_pairwise) hr

/-! ### The identities after the renames -/

/-- An identity of a present file of the active generation has its path. -/
lemma Tracked.lastKnownPath_eq (hc : Tracked ws (activeGeneration? c ws) c)
    (hgf : gf ∈ c.generationFile) (hact : activeGeneration? c ws = some gf.generationId)
    (hpres : gf.presenceState = .present) {i : FileIdentity} (hi : i ∈ c.fileIdentity)
    (hid : i.fileId = gf.fileId) :
    identityAt? c ws gf.canonicalPath = some i ∧ i.lastKnownPath = gf.canonicalPath ∧
      i.lifecycleState = .current := by
  obtain ⟨j, hj, hjid, hstate⟩ := hc.known gf hgf hact hpres
  obtain ⟨hjmem, -, hjpath⟩ := identityAt?_some hj
  obtain rfl : i = j := Table.eq_of_clash hi hjmem (hid.trans hjid.symm)
  exact ⟨hj, hjpath, hstate⟩

/-- The identities after the renames are those before, moved. -/
lemma mem_afterRenames {i : FileIdentity} :
    i ∈ (afterRenames c ws walked now).fileIdentity ↔
      ∃ j ∈ c.fileIdentity, movedRow (detectedRenames c ws walked) now j = i := by
  rw [Table.mem_def, afterRenames, rows_movedIdentities, List.mem_map]
  exact Iff.rfl

/-- After the renames, the identity of a present file is at its new path. -/
lemma Tracked.moved (hc : Tracked ws (activeGeneration? c ws) c)
    (hgf : gf ∈ c.generationFile) (hact : activeGeneration? c ws = some gf.generationId)
    (hpres : gf.presenceState = .present) {i : FileIdentity}
    (hi : i ∈ (afterRenames c ws walked now).fileIdentity) (hid : i.fileId = gf.fileId) :
    i.lastKnownPath = movedPath (detectedRenames c ws walked) gf.fileId gf.canonicalPath ∧
      i.lifecycleState = .current := by
  obtain ⟨j, hj, rfl⟩ := mem_afterRenames.mp hi
  obtain ⟨hfile, -, hstate, hpath⟩ := movedRow_spec (detectedRenames c ws walked) now j
  have hjid : j.fileId = gf.fileId := hfile.symm.trans hid
  obtain ⟨-, hjpath, hjstate⟩ := hc.lastKnownPath_eq hgf hact hpres hj hjid
  exact ⟨by rw [hpath, hjid, hjpath], hstate.trans hjstate⟩

/-- A present file that is not renamed is still found by its path. -/
lemma Tracked.stays (hc : Tracked ws (activeGeneration? c ws) c) (now : Timestamp)
    (hgf : gf ∈ c.generationFile) (hact : activeGeneration? c ws = some gf.generationId)
    (hpres : gf.presenceState = .present)
    (hnot : ∀ r ∈ detectedRenames c ws walked, r.fileId ≠ gf.fileId) :
    ∃ i, identityAt? (afterRenames c ws walked now) ws gf.canonicalPath = some i ∧
      i.fileId = gf.fileId ∧ i.lifecycleState = .current := by
  obtain ⟨i, hi, hid, hstate⟩ := hc.known gf hgf hact hpres
  obtain ⟨old, hold, holdpath, -⟩ := hc.mem_snapshot hgf hact hpres
  -- no identity leaves the path or comes to it
  have hsame : ∀ j ∈ c.fileIdentity, (movedRow (detectedRenames c ws walked) now j).lastKnownPath =
      gf.canonicalPath ↔ j.lastKnownPath = gf.canonicalPath := by
    intro j hj
    obtain ⟨-, -, -, hpath⟩ := movedRow_spec (detectedRenames c ws walked) now j
    rw [hpath]
    by_cases hren : ∃ r ∈ detectedRenames c ws walked, r.fileId = j.fileId
    · obtain ⟨r, hr, hrid⟩ := hren
      obtain ⟨⟨gf', hgf', hact', hpres', hfile', hpath'⟩, -, hprev, -⟩ := mem_renames hr
      have hmoved : movedPath (detectedRenames c ws walked) j.fileId j.lastKnownPath =
          r.newPath := by
        rw [← hrid]
        exact movedPath_renames hr _
      obtain ⟨-, hjpath, -⟩ :=
        hc.lastKnownPath_eq hgf' hact' hpres' hj (hrid.symm.trans hfile'.symm)
      rw [hmoved, hjpath]
      refine iff_of_false (fun h => hprev old hold (holdpath.trans h.symm)) fun h => ?_
      have hgen : gf'.generationId = gf.generationId := Option.some.inj (hact'.symm.trans hact)
      obtain rfl : gf' = gf := Table.eq_of_clash hgf' hgf ⟨hgen, Or.inr h⟩
      exact hnot r hr hfile'.symm
    · push Not at hren
      rw [movedPath_of_forall_ne hren]
  obtain ⟨hfile, -, hmovedstate, -⟩ := movedRow_spec (detectedRenames c ws walked) now i
  refine ⟨movedRow (detectedRenames c ws walked) now i, ?_, hfile.trans hid,
    hmovedstate.trans hstate⟩
  unfold identityAt? Table.find? at hi ⊢
  rw [afterRenames, rows_movedIdentities, List.find?_map]
  have hcongr : c.fileIdentity.rows.find? ((fun j : FileIdentity =>
      decide (j.workspaceId = ws ∧ j.lastKnownPath = gf.canonicalPath)) ∘
        movedRow (detectedRenames c ws walked) now) = some i := by
    rw [← hi]
    refine List.find?_congr fun j hj => ?_
    obtain ⟨-, hjws, -, -⟩ := movedRow_spec (detectedRenames c ws walked) now j
    simp only [Function.comp_apply, hjws, hsame j hj]
  rw [hcongr]
  rfl

/-! ### The candidate and the active generation -/

/-- A walked file is recorded under the identity its path finds or creates. -/
lemma walkedFileId_cases (H : Hasher) (c : Catalogue) (ws : String) {w : Walked}
    (hpresent : ∃ path content text, w = .present path content text) :
    (∃ i, identityAt? c ws w.relStr = some i ∧ walkedFileId H c ws w = i.fileId) ∨
      identityAt? c ws w.relStr = none ∧
        walkedFileId H c ws w = fileIdFromPath H ws w.relStr := by
  obtain ⟨path, content, text, rfl⟩ := hpresent
  show (∃ i, identityAt? c ws path = some i ∧ _) ∨ identityAt? c ws path = none ∧ _
  cases h : identityAt? c ws path with
  | none => exact Or.inr ⟨rfl, by simp [walkedFileId, h, Walked.relStr]⟩
  | some i => exact Or.inl ⟨i, rfl, by simp [walkedFileId, h]⟩

/-- The walked paths are distinct and present. -/
structure AllPresent (walked : List Walked) : Prop where
  distinct : (walked.map Walked.relStr).Nodup
  present : ∀ w ∈ walked, ∃ path content text, w = .present path content text

lemma mem_of_mem_lastWins {α : Type} {l : List (String × α)} {x : String × α}
    (h : x ∈ lastWins l) : x ∈ l := by
  induction l with
  | nil => exact h
  | cons y l ih =>
    unfold lastWins at h
    split at h
    next => exact List.mem_cons_of_mem _ (ih h)
    next =>
      rcases List.mem_cons.mp h with rfl | h
      · exact List.mem_cons_self
      · exact List.mem_cons_of_mem _ (ih h)

lemma walked_of_mem_newPresentHashes {path hash : String}
    (h : (path, hash) ∈ newPresentHashes walked) : ∃ w ∈ walked, w.relStr = path := by
  obtain ⟨w, hw, hhash⟩ := List.mem_filterMap.mp (mem_of_mem_lastWins h)
  refine ⟨w, hw, ?_⟩
  cases w with
  | present p content text =>
    simp only [Walked.presentHash?, Option.some.injEq, Prod.mk.injEq] at hhash
    exact hhash.1
  | skipped p kind code detail => exact absurd hhash (by simp [Walked.presentHash?])

variable (hwalked : AllPresent walked) (eff : CallEffect env ws gid now c walked c')

include hwalked eff in
/-- The present rows of the candidate. -/
lemma presentAt_candidate {fileId path : String} :
    PresentAt c' gid fileId path ↔ ∃ w ∈ walked, w.relStr = path ∧
      walkedFileId env.hasher (afterRenames c ws walked now) ws w = fileId := by
  constructor
  · rintro ⟨gf, hgf, hgen, -, hfile, hpath⟩
    obtain ⟨w, hw, hwpath, hid, -⟩ := eff.members gf hgf hgen
    exact ⟨w, hw, hwpath.symm.trans hpath, hid.symm.trans hfile⟩
  · rintro ⟨w, hw, hpath, hid⟩
    obtain ⟨gf, hgf, hgen, hgpath⟩ := eff.recorded w hw
    obtain ⟨v, hv, hvpath, hvid, hshows⟩ := eff.members gf hgf hgen
    obtain rfl : v = w := eq_of_relStr hwalked.distinct hv hw (hvpath.symm.trans hgpath)
    obtain ⟨p, content, text, rfl⟩ := hwalked.present v hv
    exact ⟨gf, hgf, hgen, hshows.1, hvid.trans hid, hgpath.trans hpath⟩

include eff in
/-- The rows of the other generations stay. -/
lemma presentAt_other {g fileId path : String} (hne : g ≠ gid) :
    PresentAt c' g fileId path ↔ PresentAt c g fileId path := by
  constructor
  · rintro ⟨gf, hgf, rfl, hrest⟩
    exact ⟨gf, (eff.others gf hne).mp hgf, rfl, hrest⟩
  · rintro ⟨gf, hgf, rfl, hrest⟩
    exact ⟨gf, (eff.others gf hne).mpr hgf, rfl, hrest⟩

include eff in
lemma mem_revisions {r : FileRevision} (hr : r ∈ c.fileRevision) : r ∈ c'.fileRevision := by
  obtain ⟨extra, hrows, -⟩ := eff.revisions
  rw [Table.mem_def, hrows]
  exact List.mem_append_left _ hr

include eff in
/-- So do their revisions. -/
lemma presentAs_other (hc : Tracked ws (activeGeneration? c ws) c)
    {g fileId path rid hash : String} (hne : g ≠ gid) :
    PresentAs c' g fileId path rid hash ↔ PresentAs c g fileId path rid hash := by
  constructor
  · rintro ⟨gf, hgf, rfl, hpres, hfile, hpath, hrid, r, hr, hid, hhash⟩
    have hold := (eff.others gf hne).mp hgf
    obtain ⟨r', hr', hrid'⟩ := hc.revisions gf hold hpres
    have hsame : r'.revisionId = rid := Option.some.inj (hrid'.symm.trans hrid)
    obtain rfl : r = r' :=
      Table.eq_of_clash hr (mem_revisions eff hr') (Or.inl (hid.trans hsame.symm))
    exact ⟨gf, hold, rfl, hpres, hfile, hpath, hrid, r, hr', hid, hhash⟩
  · rintro ⟨gf, hgf, rfl, hpres, hfile, hpath, hrid, r, hr, hid, hhash⟩
    exact ⟨gf, (eff.others gf hne).mpr hgf, rfl, hpres, hfile, hpath, hrid, r,
      mem_revisions eff hr, hid, hhash⟩

include hwalked eff in
/-- The walked path under which a present file is recorded is where the renames moved it. -/
lemma Tracked.relStr_eq (hc : Tracked ws (activeGeneration? c ws) c)
    (hgf : gf ∈ c.generationFile) (hact : activeGeneration? c ws = some gf.generationId)
    (hpres : gf.presenceState = .present) {w : Walked} (hw : w ∈ walked)
    (hid : walkedFileId env.hasher (afterRenames c ws walked now) ws w = gf.fileId) :
    w.relStr = movedPath (detectedRenames c ws walked) gf.fileId gf.canonicalPath := by
  rcases walkedFileId_cases env.hasher (afterRenames c ws walked now) ws
    (hwalked.present w hw) with ⟨i, hi, hwid⟩ | ⟨hnone, hwid⟩
  · obtain ⟨himem, -, hipath⟩ := identityAt?_some hi
    rw [← hipath]
    exact (hc.moved hgf hact hpres himem (hwid.symm.trans hid)).1
  · -- the identity was there
    exfalso
    obtain ⟨j, hj, hjid⟩ := hc.files gf hgf
    obtain ⟨hfile, -, -, -⟩ := movedRow_spec (detectedRenames c ws walked) now j
    exact eff.fresh w hw hnone _ (mem_afterRenames.mpr ⟨j, hj, rfl⟩)
      (hfile.trans (hjid.trans (hid.symm.trans hwid)))

include hwalked eff in
/-- A present file of the active generation is in the candidate unless it is deleted. -/
lemma Tracked.presentIn_or_deleted (hc : Tracked ws (activeGeneration? c ws) c)
    (tr : Traceable c ws walked plans now) (hgf : gf ∈ c.generationFile)
    (hact : activeGeneration? c ws = some gf.generationId) (hpres : gf.presenceState = .present) :
    PresentAt c' gid gf.fileId (movedPath (detectedRenames c ws walked) gf.fileId
        gf.canonicalPath) ∧ (∀ old ∈ detectedDeletions c ws walked, old.2.fileId ≠ gf.fileId) ∨
      ¬ PresentIn c' gid gf.fileId ∧
        (∀ old ∈ snapshotPreviousPresent c ws, old.2.fileId = gf.fileId →
          old ∈ detectedDeletions c ws walked) := by
  have hprev : ∀ old ∈ snapshotPreviousPresent c ws, old.2.fileId = gf.fileId →
      old.1 = gf.canonicalPath := by
    intro old hold hid
    obtain ⟨g, rid, hact', gf', hgf', hgen', -, hfile', hpath', -⟩ := mem_snapshot_iff.mp hold
    have hgen : gf'.generationId = gf.generationId :=
      hgen'.trans (Option.some.inj (hact'.symm.trans hact))
    obtain rfl : gf' = gf := Table.eq_of_clash hgf' hgf ⟨hgen, Or.inl (hfile'.trans hid)⟩
    exact hpath'.symm
  have hmem : ∀ w ∈ walked, ∀ i, identityAt? (afterRenames c ws walked now) ws w.relStr =
      some i → i.fileId = gf.fileId →
      walkedFileId env.hasher (afterRenames c ws walked now) ws w = gf.fileId := by
    intro w hw i hi hid
    rcases walkedFileId_cases env.hasher (afterRenames c ws walked now) ws
      (hwalked.present w hw) with ⟨j, hj, hwid⟩ | ⟨hnone, -⟩
    · obtain rfl := Option.some.inj (hi.symm.trans hj)
      exact hwid.trans hid
    · exact absurd (hnone.symm.trans hi) (by simp)
  by_cases hren : ∃ r ∈ detectedRenames c ws walked, r.fileId = gf.fileId
  · -- renamed: the new path finds the identity
    obtain ⟨r, hr, hrid⟩ := hren
    obtain ⟨i, hi, hiid⟩ := tr.renames r hr
    obtain ⟨⟨gf', hgf', hact', hpres', hfile', hpath'⟩, -, -, hnew⟩ := mem_renames hr
    obtain ⟨w, hw, hwpath⟩ := walked_of_mem_newPresentHashes hnew
    have hmoved : movedPath (detectedRenames c ws walked) gf.fileId gf.canonicalPath =
        r.newPath := by
      rw [← hrid]
      exact movedPath_renames hr _
    refine Or.inl ⟨(presentAt_candidate hwalked eff).mpr ⟨w, hw, hwpath.trans hmoved.symm, ?_⟩, ?_⟩
    · exact hmem w hw i (hwpath ▸ hi) (hiid.trans hrid)
    · intro old hold hid
      obtain ⟨hmemprev, hnot⟩ := List.mem_filter.mp hold
      have hpath : old.1 = r.oldPath := by
        have hgen : gf'.generationId = gf.generationId := Option.some.inj (hact'.symm.trans hact)
        obtain rfl : gf' = gf :=
          Table.eq_of_clash hgf' hgf ⟨hgen, Or.inl (hfile'.trans hrid)⟩
        exact (hprev old hmemprev hid).trans hpath'
      have hin : old.1 ∈ (detectedRenames c ws walked).map RenamePair.oldPath :=
        hpath ▸ List.mem_map_of_mem hr
      simp [hin] at hnot
  · push Not at hren
    have hmoved : movedPath (detectedRenames c ws walked) gf.fileId gf.canonicalPath =
        gf.canonicalPath := movedPath_of_forall_ne hren
    by_cases hpath : gf.canonicalPath ∈ walked.map Walked.relStr
    · -- still at its path
      obtain ⟨w, hw, hwpath⟩ := List.mem_map.mp hpath
      obtain ⟨i, hi, hiid, -⟩ := hc.stays now hgf hact hpres hren
      refine Or.inl ⟨(presentAt_candidate hwalked eff).mpr ⟨w, hw, hwpath.trans hmoved.symm, ?_⟩, ?_⟩
      · exact hmem w hw i (hwpath ▸ hi) hiid
      · intro old hold hid
        obtain ⟨hmemprev, hnot⟩ := List.mem_filter.mp hold
        have hin : old.1 ∈ walked.map Walked.relStr := (hprev old hmemprev hid) ▸ hpath
        simp only [hin, true_or, not_true_eq_false, decide_false] at hnot
        exact absurd hnot (by simp)
    · refine Or.inr ⟨?_, fun old hold hid => List.mem_filter.mpr ⟨hold, ?_⟩⟩
      · rintro ⟨p, hp⟩
        obtain ⟨w, hw, -, hwid⟩ := (presentAt_candidate hwalked eff).mp hp
        have hrel := hc.relStr_eq hwalked eff hgf hact hpres hw hwid
        exact hpath ((hrel.trans hmoved) ▸ List.mem_map_of_mem hw)
      · have hout : old.1 ∉ walked.map Walked.relStr := (hprev old hold hid) ▸ hpath
        have hnot : old.1 ∉ (detectedRenames c ws walked).map RenamePair.oldPath := by
          rintro hin
          obtain ⟨r, hr, hrpath⟩ := List.mem_map.mp hin
          obtain ⟨⟨gf', hgf', hact', -, hfile', hpath'⟩, -⟩ := mem_renames hr
          have hgen : gf'.generationId = gf.generationId :=
            Option.some.inj (hact'.symm.trans hact)
          obtain rfl : gf' = gf := Table.eq_of_clash hgf' hgf
            ⟨hgen, Or.inr (hpath'.trans (hrpath.trans (hprev old hold hid)))⟩
          exact hren r hr hfile'.symm
        simp [hout, hnot]

include hwalked eff in
/-- A file that is deleted is not in the candidate. -/
lemma Tracked.deleted_not_presentIn (hc : Tracked ws (activeGeneration? c ws) c)
    (tr : Traceable c ws walked plans now) {old : String × PrevFile}
    (hold : old ∈ detectedDeletions c ws walked) : ¬ PresentIn c' gid old.2.fileId := by
  obtain ⟨g, rid, hact, gf, hgf, hgen, hpres, hfile, -⟩ :=
    mem_snapshot_iff.mp (List.mem_filter.mp hold).1
  rcases hc.presentIn_or_deleted hwalked eff tr hgf (hgen ▸ hact) hpres with ⟨-, hnone⟩ | ⟨hnot, -⟩
  · exact absurd hfile.symm (hnone old hold)
  · exact hfile ▸ hnot

include hwalked eff in
/-- The renames between the active generation and the candidate are those detected. -/
lemma Tracked.rename_iff (hc : Tracked ws (activeGeneration? c ws) c)
    (tr : Traceable c ws walked plans now) {fileId p q : String} :
    (∃ g, activeGeneration? c ws = some g ∧ PresentAt c g fileId p ∧ PresentAt c' gid fileId q ∧
      p ≠ q) ↔
      ∃ r ∈ detectedRenames c ws walked, r.fileId = fileId ∧ r.oldPath = p ∧ r.newPath = q := by
  constructor
  · rintro ⟨g, hact, ⟨gf, hgf, rfl, hpres, rfl, rfl⟩, hnew, hne⟩
    obtain ⟨w, hw, rfl, hid⟩ := (presentAt_candidate hwalked eff).mp hnew
    have hrel := hc.relStr_eq hwalked eff hgf hact hpres hw hid
    by_cases hren : ∃ r ∈ detectedRenames c ws walked, r.fileId = gf.fileId
    · obtain ⟨r, hr, hrid⟩ := hren
      refine ⟨r, hr, hrid, ?_, ?_⟩
      · obtain ⟨⟨gf', hgf', hact', -, hfile', hpath'⟩, -⟩ := mem_renames hr
        have hgen : gf'.generationId = gf.generationId :=
          Option.some.inj (hact'.symm.trans hact)
        obtain rfl : gf' = gf := Table.eq_of_clash hgf' hgf ⟨hgen, Or.inl (hfile'.trans hrid)⟩
        exact hpath'.symm
      · rw [hrel, ← hrid]
        exact (movedPath_renames hr _).symm
    · push Not at hren
      rw [movedPath_of_forall_ne hren] at hrel
      exact absurd hrel.symm hne
  · rintro ⟨r, hr, rfl, rfl, rfl⟩
    obtain ⟨⟨gf, hgf, hact, hpres, hfile, hpath⟩, -, hprev, -⟩ := mem_renames hr
    obtain ⟨old, hold, holdpath, holdid⟩ := hc.mem_snapshot hgf hact hpres
    refine ⟨gf.generationId, hact, ⟨gf, hgf, rfl, hpres, hfile, hpath⟩, ?_, ?_⟩
    · rcases hc.presentIn_or_deleted hwalked eff tr hgf hact hpres with ⟨hin, -⟩ | ⟨-, hdel⟩
      · rw [hfile] at hin
        rwa [movedPath_renames hr] at hin
      · -- the old side of a rename is not deleted
        exfalso
        have hnot := (List.mem_filter.mp (hdel old hold holdid)).2
        have hin : old.1 ∈ (detectedRenames c ws walked).map RenamePair.oldPath :=
          (holdpath.trans hpath) ▸ List.mem_map_of_mem hr
        simp [hin] at hnot
    · intro heq
      exact hprev old hold (holdpath.trans (hpath.trans heq))

include hwalked eff in
/-- The disappearances between the active generation and the candidate are those detected. -/
lemma Tracked.disappearance_iff (hc : Tracked ws (activeGeneration? c ws) c)
    (tr : Traceable c ws walked plans now) {fileId p rid hash : String} :
    (∃ g, activeGeneration? c ws = some g ∧ PresentAs c g fileId p rid hash ∧
      ¬ PresentIn c' gid fileId) ↔
      ∃ old ∈ detectedDeletions c ws walked, old.2.fileId = fileId ∧ old.1 = p ∧
        old.2.contentHash = hash ∧ (lastRevision c old.2).map FileRevision.revisionId = some rid := by
  constructor
  · rintro ⟨g, hact, has, hnot⟩
    have hold : (p, (⟨fileId, hash⟩ : PrevFile)) ∈ snapshotPreviousPresent c ws :=
      mem_snapshot_iff.mpr ⟨g, rid, hact, has⟩
    obtain ⟨gf, hgf, rfl, hpres, rfl, rfl, hrid, -⟩ := has
    rcases hc.presentIn_or_deleted hwalked eff tr hgf hact hpres with ⟨hin, -⟩ | ⟨-, hdel⟩
    · exact absurd ⟨_, hin⟩ hnot
    · have hmem := hdel _ hold rfl
      exact ⟨_, hmem, rfl, rfl, rfl, (tr.deletions _ hmem gf hgf hact hpres rfl).trans hrid⟩
  · rintro ⟨old, hold, rfl, rfl, rfl, hlast⟩
    obtain ⟨g, rid', hact, has⟩ := mem_snapshot_iff.mp (List.mem_filter.mp hold).1
    refine ⟨g, hact, ?_, hc.deleted_not_presentIn hwalked eff tr hold⟩
    obtain ⟨gf, hgf, hgen, hpres, hfile, hpath, hrid, hrev⟩ := has
    have hrow := tr.deletions old hold gf hgf (hgen ▸ hact) hpres hfile
    have hsame : rid' = rid := Option.some.inj (hrid.symm.trans (hrow.symm.trans hlast))
    exact ⟨gf, hgf, hgen, hpres, hfile, hpath, hsame ▸ hrid, hsame ▸ hrev⟩

include hwalked eff in
/-- The revisions of the walk are not those of a deleted file. -/
lemma Tracked.lastRevision_eq (hc : Tracked ws (activeGeneration? c ws) c)
    (tr : Traceable c ws walked plans now) {recorded : Catalogue}
    (hrev : recorded.fileRevision = c'.fileRevision) {old : String × PrevFile}
    (hold : old ∈ detectedDeletions c ws walked) :
    lastRevision recorded old.2 = lastRevision c old.2 := by
  obtain ⟨extra, hrows, hextra⟩ := eff.revisions
  unfold lastRevision Table.greatest?
  rw [hrev, hrows, List.filter_append]
  have hnone : extra.filter (fun fr => decide (fr.fileId = old.2.fileId ∧
      fr.contentHash = old.2.contentHash)) = [] := by
    rw [List.filter_eq_nil_iff]
    intro r hr
    obtain ⟨w, hw, hid⟩ := hextra r hr
    simp only [decide_eq_true_eq, not_and]
    intro hfile
    exact absurd ⟨_, (presentAt_candidate hwalked eff).mpr ⟨w, hw, rfl, hid.symm.trans hfile⟩⟩
      (hc.deleted_not_presentIn hwalked eff tr hold)
  rw [hnone, List.append_nil]

/-! ### What the call keeps of the active generation -/

include hwalked eff in
/-- A walked path finds the identity it is recorded under. -/
lemma identityAt?_walked {w : Walked} (hw : w ∈ walked) :
    ∃ i, identityAt? c' ws w.relStr =
        some (deletedRow (detectedDeletions c ws walked) now i) ∧
      i.fileId = walkedFileId env.hasher (afterRenames c ws walked now) ws w ∧
      (identityAt? (afterRenames c ws walked now) ws w.relStr = some i ∨
        i.lifecycleState = .current) := by
  have hfind := eff.identityAt w.relStr
  rw [if_pos (List.mem_map_of_mem hw)] at hfind
  rcases walkedFileId_cases env.hasher (afterRenames c ws walked now) ws
    (hwalked.present w hw) with ⟨i, hi, hid⟩ | ⟨hnone, hid⟩
  · rw [hi] at hfind
    exact ⟨i, hfind, hid.symm, Or.inl hi⟩
  · rw [hnone] at hfind
    exact ⟨_, hfind, hid.symm, Or.inr rfl⟩

include hwalked eff in
/-- The rows and the identities fit together whatever the active generation is, if its rows
find their identities. -/
lemma Tracked.effect (hc : Tracked ws (activeGeneration? c ws) c) {active : Option String}
    (hknown : ∀ gf ∈ c'.generationFile, active = some gf.generationId →
      gf.presenceState = .present → ∃ i, identityAt? c' ws gf.canonicalPath = some i ∧
        i.fileId = gf.fileId ∧ i.lifecycleState = .current) : Tracked ws active c' where
  files gf hgf := by
    by_cases hgen : gf.generationId = gid
    · obtain ⟨w, hw, -, hid, -⟩ := eff.members gf hgf hgen
      obtain ⟨i, hi, hiid, -⟩ := identityAt?_walked hwalked eff hw
      obtain ⟨hfile, -⟩ := deletedRow_spec (detectedDeletions c ws walked) now i
      exact ⟨_, (identityAt?_some hi).1, hfile.trans (hiid.trans hid.symm)⟩
    · obtain ⟨i, hi, hid⟩ := hc.files gf ((eff.others gf hgen).mp hgf)
      obtain ⟨hmoved, -⟩ := movedRow_spec (detectedRenames c ws walked) now i
      have hkept := eff.kept _ (mem_afterRenames.mpr ⟨i, hi, rfl⟩)
      obtain ⟨hfile, -⟩ := deletedRow_spec (detectedDeletions c ws walked) now
        (movedRow (detectedRenames c ws walked) now i)
      exact ⟨_, hkept, hfile.trans (hmoved.trans hid)⟩
  revisions gf hgf hpres := by
    by_cases hgen : gf.generationId = gid
    · obtain ⟨w, hw, -, -, hshows⟩ := eff.members gf hgf hgen
      obtain ⟨p, content, text, rfl⟩ := hwalked.present w hw
      obtain ⟨-, r, hr, hrid, -⟩ := hshows
      exact ⟨r, hr, hrid⟩
    · obtain ⟨r, hr, hrid⟩ := hc.revisions gf ((eff.others gf hgen).mp hgf) hpres
      exact ⟨r, mem_revisions eff hr, hrid⟩
  states j hj := by
    obtain ⟨i, rfl, hi⟩ := eff.identities j hj
    have hstate : i.lifecycleState = .current ∨ i.lifecycleState = .deleted := by
      rcases hi with hi | ⟨w, -, rfl⟩
      · obtain ⟨i₀, hi₀, rfl⟩ := mem_afterRenames.mp hi
        obtain ⟨-, -, hsame, -⟩ := movedRow_spec (detectedRenames c ws walked) now i₀
        rw [hsame]
        exact hc.states i₀ hi₀
      · exact Or.inl rfl
    obtain ⟨-, -, -, hrow⟩ := deletedRow_spec (detectedDeletions c ws walked) now i
    rcases hrow with ⟨hsame, -⟩ | ⟨hdel, -⟩
    · rw [hsame]
      exact hstate
    · exact Or.inr hdel
  known := hknown

include hwalked eff in
/-- The rows of a candidate that does not fail find current identities. -/
lemma Tracked.candidate (hc : Tracked ws (activeGeneration? c ws) c)
    (tr : Traceable c ws walked plans now) (hreq : ¬ RequiredFailure plans) :
    Tracked ws (some gid) c' := by
  refine hc.effect hwalked eff fun gf hgf hgen hpres => ?_
  obtain ⟨w, hw, hpath, hid, -⟩ := eff.members gf hgf (Option.some.inj hgen).symm
  obtain ⟨i, hi, hiid, hstate⟩ := identityAt?_walked hwalked eff hw
  have hcurrent : i.lifecycleState = .current := by
    rcases hstate with hfound | hcurrent
    · obtain ⟨i₀, hi₀, rfl⟩ := mem_afterRenames.mp (identityAt?_some hfound).1
      obtain ⟨-, -, hsame, -⟩ := movedRow_spec (detectedRenames c ws walked) now i₀
      have hne := tr.found hreq w hw _ hfound
      rw [hsame] at hne ⊢
      exact (hc.states i₀ hi₀).resolve_right hne
    · exact hcurrent
  obtain ⟨hfile, -, -, hrow⟩ := deletedRow_spec (detectedDeletions c ws walked) now i
  refine ⟨_, by rw [hpath]; exact hi, hfile.trans (hiid.trans hid.symm), ?_⟩
  rcases hrow with ⟨hsame, -⟩ | ⟨-, old, hold, holdid⟩
  · exact hsame.trans hcurrent
  · -- the file is in the candidate
    exfalso
    refine hc.deleted_not_presentIn hwalked eff tr hold ⟨w.relStr, ?_⟩
    exact (presentAt_candidate hwalked eff).mpr ⟨w, hw, rfl, hiid.symm.trans holdid.symm⟩

include hwalked eff in
/-- A candidate without renames and deletions leaves the active generation alone. -/
lemma Tracked.frame (hc : Tracked ws (activeGeneration? c ws) c)
    (hnew : activeGeneration? c ws ≠ some gid) (hren : detectedRenames c ws walked = [])
    (hdel : detectedDeletions c ws walked = []) :
    Tracked ws (activeGeneration? c ws) c' := by
  refine hc.effect hwalked eff fun gf hgf hact hpres => ?_
  have hne : gf.generationId ≠ gid := fun h => hnew (h ▸ hact)
  obtain ⟨i, hi, hid, hstate⟩ := hc.stays now
    ((eff.others gf hne).mp hgf) hact hpres (hren ▸ List.forall_mem_nil _)
  refine ⟨i, ?_, hid, hstate⟩
  rw [eff.identityAt, hi, hdel]
  rfl

end Lemmas

end LifecycleRun

end WorkspaceAtlas
