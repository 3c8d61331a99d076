/-
# What the lifecycle loops record

The loops over the renames and over the deletions in closed form: which rows they add, which
identities they change, and when they succeed.  A loop of insertions succeeds exactly when
the rows clash neither with each other nor with those that are there.
-/
import WorkspaceAtlas.Discovery.Lifecycle

namespace WorkspaceAtlas

open Relational Transition

section Records

variable {H : Hasher} {c c' : Catalogue} {ws gid : String} {now : Timestamp}

lemma hasFile_iff {id : String} : c.hasFile id = true ↔ ∃ i ∈ c.fileIdentity, i.fileId = id := by
  simp [Catalogue.hasFile, Table.mem_def]

lemma hasGeneration_iff {id : String} :
    c.hasGeneration id = true ↔ ∃ g ∈ c.indexGeneration, g.generationId = id := by
  simp [Catalogue.hasGeneration, Table.mem_def]

lemma hasRevision_iff {id : String} :
    c.hasRevision id = true ↔ ∃ r ∈ c.fileRevision, r.revisionId = id := by
  simp [Catalogue.hasRevision, Table.mem_def]

/-- An update that keeps the ids of the files. -/
structure KeepsFile (f : Table.Update FileIdentity) : Prop where
  fileId : ∀ i, (f i).fileId = i.fileId
  workspaceId : ∀ i, (f i).workspaceId = i.workspaceId

lemma keepsFile_moveTo (path : String) (now : Timestamp) : KeepsFile (moveTo path now) :=
  ⟨fun _ => rfl, fun _ => rfl⟩

lemma keepsFile_markDeleted (now : Timestamp) : KeepsFile (markDeleted now) :=
  ⟨fun _ => rfl, fun _ => rfl⟩

lemma any_update_identity {t : Table FileIdentity} {p : FileIdentity → Bool}
    {f : Table.Update FileIdentity} (hf : KeepsFile f) (id : String) :
    ((t.update p f).rows.any fun i => i.fileId = id) = t.rows.any fun i => i.fileId = id := by
  simp only [Table.update, List.any_map]
  congr 1
  funext i
  simp only [Function.comp_apply]
  split
  · rw [hf.fileId]
  · rfl

/-! ## The files of the previous generation -/

lemma prevPresent?_eq_some {active : Option String} {gf : GenerationFile}
    {old : String × PrevFile} (h : prevPresent? c active gf = some old) :
    active = some gf.generationId ∧ old.1 = gf.canonicalPath ∧ old.2.fileId = gf.fileId := by
  unfold prevPresent? at h
  split at h
  next hact =>
    obtain ⟨fr, -, rfl⟩ := Option.map_eq_some_iff.mp h
    exact ⟨hact.1, rfl, rfl⟩
  next => exact absurd h (by simp)

lemma mem_snapshotPreviousPresent {old : String × PrevFile}
    (h : old ∈ snapshotPreviousPresent c ws) :
    ∃ w ∈ c.workspace, w.workspaceId = ws ∧ ∃ gf ∈ c.generationFile,
      w.activeGenerationId = some gf.generationId ∧ old.1 = gf.canonicalPath ∧
        old.2.fileId = gf.fileId := by
  unfold snapshotPreviousPresent at h
  split at h
  next => exact absurd h (by simp)
  next w hw =>
    obtain ⟨hmem, hid⟩ := find?_workspace_eq_some.mp hw
    obtain ⟨gf, hgf, hold⟩ := List.mem_filterMap.mp h
    exact ⟨w, hmem, hid, gf, hgf, prevPresent?_eq_some hold⟩

/-- Neither a path nor a file occurs twice. -/
lemma snapshotPreviousPresent_pairwise :
    (snapshotPreviousPresent c ws).Pairwise fun a b =>
      a.1 ≠ b.1 ∧ a.2.fileId ≠ b.2.fileId := by
  unfold snapshotPreviousPresent
  split
  next => exact .nil
  next w hw =>
    refine List.Pairwise.filterMap _ ?_ c.generationFile.unique
    intro gf gf' hclash a ha b hb
    obtain ⟨hact, hpath, hfile⟩ := prevPresent?_eq_some ha
    obtain ⟨hact', hpath', hfile'⟩ := prevPresent?_eq_some hb
    have hgen : gf.generationId = gf'.generationId := Option.some.inj (hact.symm.trans hact')
    constructor
    · intro heq
      exact hclash ⟨hgen, Or.inr (hpath.symm.trans (heq.trans hpath'))⟩
    · intro heq
      exact hclash ⟨hgen, Or.inl (hfile.symm.trans (heq.trans hfile'))⟩

/-- A rename has the old path and the file of its old side. -/
lemma renameOf?_eq_some {olds : List (String × PrevFile)} {news : List (String × String)}
    {old : String × PrevFile} {r : RenamePair} (h : renameOf? olds news old = some r) :
    r.oldPath = old.1 ∧ r.fileId = old.2.fileId ∧ (r.newPath, r.contentHash) ∈ news := by
  unfold renameOf? at h
  split at h
  next o new holds hnews =>
    obtain rfl := Option.some.inj h
    have hmem : new ∈ news.filter (fun n => n.2 = old.2.contentHash) := by simp [hnews]
    obtain ⟨hnew, hhash⟩ := List.mem_filter.mp hmem
    have hhash : new.2 = old.2.contentHash := by simpa using hhash
    refine ⟨rfl, rfl, ?_⟩
    rw [← hhash]
    exact hnew
  next => exact absurd h (by simp)

lemma mem_detectRenames {prev : List (String × PrevFile)} {paths : List String}
    {news : List (String × String)} {r : RenamePair} (h : r ∈ detectRenames prev paths news) :
    ∃ old ∈ prev, old.1 ∉ paths ∧ r.oldPath = old.1 ∧ r.fileId = old.2.fileId ∧
      (r.newPath, r.contentHash) ∈ appeared prev news := by
  obtain ⟨old, hold, hr⟩ := List.mem_filterMap.mp h
  obtain ⟨hprev, hgone⟩ := List.mem_filter.mp hold
  exact ⟨old, hprev, by simpa using hgone, renameOf?_eq_some hr⟩

lemma detectRenames_pairwise {prev : List (String × PrevFile)} {paths : List String}
    {news : List (String × String)}
    (h : prev.Pairwise fun a b => a.1 ≠ b.1 ∧ a.2.fileId ≠ b.2.fileId) :
    (detectRenames prev paths news).Pairwise fun a b =>
      a.oldPath ≠ b.oldPath ∧ a.fileId ≠ b.fileId := by
  refine List.Pairwise.filterMap _ ?_ (h.sublist List.filter_sublist)
  intro a b hne r hr r' hr'
  obtain ⟨hold, hfile, -⟩ := renameOf?_eq_some hr
  obtain ⟨hold', hfile', -⟩ := renameOf?_eq_some hr'
  rw [hold, hold', hfile, hfile']
  exact hne

/-! ## Insertions -/

lemma insertLifecycleEvent_ok {row : LifecycleEvent} :
    insertLifecycleEvent c row = .ok c' ↔
      (c.hasWorkspace row.workspaceId = true ∧ c.hasGeneration row.generationId = true ∧
        row.fileId.all c.hasFile = true) ∧
      ∃ events : Table LifecycleEvent, events.rows = c.lifecycleEvent.rows ++ [row] ∧
        { c with lifecycleEvent := events } = c' := by
  unfold insertLifecycleEvent
  simp only [← Table.insert?_eq_some_iff]
  split
  next hnone => simp [hnone]
  next events hsome =>
    simp only [hsome, Option.some.injEq]
    split
    next hfk => simp [hfk]
    next hfk =>
      refine iff_of_false (by simp) ?_
      rintro ⟨h, -⟩
      exact hfk h

lemma insertTombstone_ok {row : Tombstone} :
    insertTombstone c row = .ok c' ↔
      (c.hasWorkspace row.workspaceId = true ∧ c.hasFile row.fileId = true ∧
        (c.lifecycleEvent.rows.any fun e => e.eventId = row.deletionEventId) = true ∧
        row.lastRevisionId.all c.hasRevision = true) ∧
      ∃ tombstones : Table Tombstone, tombstones.rows = c.tombstone.rows ++ [row] ∧
        { c with tombstone := tombstones } = c' := by
  unfold insertTombstone
  simp only [← Table.insert?_eq_some_iff]
  split
  next hnone => simp [hnone]
  next events hsome =>
    simp only [hsome, Option.some.injEq]
    split
    next hfk => simp only [hfk, and_self, Except.ok.injEq, true_and, exists_eq_left']
    next hfk =>
      refine iff_of_false (by simp) ?_
      rintro ⟨h, -⟩
      exact hfk h

/-! ## Renames -/

/-- The identities after the renames. -/
def movedIdentities (t : Table FileIdentity) (renames : List RenamePair) (now : Timestamp) :
    Table FileIdentity :=
  renames.foldl (fun t r => t.update (fun i => i.fileId = r.fileId) (moveTo r.newPath now)) t

/-- Where the renames move the file of an identity. -/
def movedPath (renames : List RenamePair) (fileId path : String) : String :=
  renames.foldl (fun path r => if fileId = r.fileId then r.newPath else path) path

lemma movedPath_of_forall_ne {renames : List RenamePair} {fileId path : String}
    (h : ∀ r ∈ renames, r.fileId ≠ fileId) : movedPath renames fileId path = path := by
  induction renames generalizing path with
  | nil => rfl
  | cons r renames ih =>
    have hr := h r (by simp)
    rw [movedPath, List.foldl_cons, if_neg (Ne.symm hr)]
    exact ih fun r' hr' => h r' (by simp [hr'])

lemma movedPath_of_mem {renames : List RenamePair} {path : String} {r : RenamePair}
    (hpair : renames.Pairwise fun a b => a.oldPath ≠ b.oldPath ∧ a.fileId ≠ b.fileId)
    (hr : r ∈ renames) : movedPath renames r.fileId path = r.newPath := by
  induction renames generalizing path with
  | nil => exact absurd hr (by simp)
  | cons r' renames ih =>
    obtain ⟨hfirst, hrest⟩ := List.pairwise_cons.mp hpair
    rcases List.mem_cons.mp hr with rfl | hr
    · rw [movedPath, List.foldl_cons, if_pos rfl]
      exact movedPath_of_forall_ne fun r' hr' h => (hfirst r' hr').2 h.symm
    · rw [movedPath, List.foldl_cons, if_neg (Ne.symm (hfirst r hr).2)]
      exact ih hrest hr

/-- The identity `i` after the renames. -/
def movedRow (renames : List RenamePair) (now : Timestamp) (i : FileIdentity) : FileIdentity :=
  renames.foldl (fun i r => if i.fileId = r.fileId then moveTo r.newPath now i else i) i

lemma movedRow_spec (renames : List RenamePair) (now : Timestamp) (i : FileIdentity) :
    (movedRow renames now i).fileId = i.fileId ∧
      (movedRow renames now i).workspaceId = i.workspaceId ∧
      (movedRow renames now i).lifecycleState = i.lifecycleState ∧
      (movedRow renames now i).lastKnownPath =
        movedPath renames i.fileId i.lastKnownPath := by
  induction renames generalizing i with
  | nil => exact ⟨rfl, rfl, rfl, rfl⟩
  | cons r renames ih =>
    rw [movedRow, List.foldl_cons, movedPath, List.foldl_cons]
    by_cases hr : i.fileId = r.fileId
    · rw [if_pos hr, if_pos hr]
      exact ih (moveTo r.newPath now i)
    · rw [if_neg hr, if_neg hr]
      exact ih i

lemma rows_movedIdentities (t : Table FileIdentity) (renames : List RenamePair)
    (now : Timestamp) :
    (movedIdentities t renames now).rows = t.rows.map (movedRow renames now) := by
  rw [movedIdentities, Table.rows_foldl_update]
  simp only [decide_eq_true_eq]
  rfl

/-- A rename event refers to rows that are there. -/
def RenameRefers (c : Catalogue) (ws gid : String) (r : RenamePair) : Prop :=
  c.hasWorkspace ws = true ∧ c.hasGeneration gid = true ∧ c.hasFile r.fileId = true

/-- The loop over the renames. -/
lemma recordRenames_ok {renames : List RenamePair} :
    renames.foldlM (recordRename H ws gid now) c = .ok c' ↔
      (∀ r ∈ renames, RenameRefers c ws gid r) ∧
      ∃ events : Table LifecycleEvent,
        events.rows = c.lifecycleEvent.rows ++ renames.map (renamedEvent H ws gid now) ∧
        { c with
          fileIdentity := movedIdentities c.fileIdentity renames now
          lifecycleEvent := events } = c' := by
  induction renames generalizing c with
  | nil =>
    constructor
    · intro h
      obtain rfl : c = c' := Except.ok.inj h
      exact ⟨by simp, c.lifecycleEvent, by simp, rfl⟩
    · rintro ⟨-, events, hrows, rfl⟩
      have : events = c.lifecycleEvent := by
        ext1
        simpa using hrows
      subst this
      rfl
  | cons r renames ih =>
    have hfile : ∀ id, ({ c with
        fileIdentity := c.fileIdentity.update (fun i => i.fileId = r.fileId)
          (moveTo r.newPath now) } : Catalogue).hasFile id = c.hasFile id :=
      any_update_identity (keepsFile_moveTo r.newPath now)
    have hrefers : ∀ (events : Table LifecycleEvent) (r' : RenamePair), RenameRefers { c with
        fileIdentity := c.fileIdentity.update (fun i => i.fileId = r.fileId)
          (moveTo r.newPath now)
        lifecycleEvent := events } ws gid r' ↔ RenameRefers c ws gid r' := by
      intro events r'
      exact and_congr Iff.rfl (and_congr Iff.rfl (iff_of_eq (congrArg (· = true)
        (hfile r'.fileId))))
    have hfirst : (c.hasWorkspace ws = true ∧ c.hasGeneration gid = true ∧
        ((some r.fileId).all ({ c with
          fileIdentity := c.fileIdentity.update (fun i => i.fileId = r.fileId)
            (moveTo r.newPath now) } : Catalogue).hasFile) = true) ↔
        RenameRefers c ws gid r := by
      rw [Option.all_some, hfile]
      rfl
    rw [foldlM_cons_ok]
    simp only [recordRename, insertLifecycleEvent_ok]
    constructor
    · rintro ⟨t, ⟨hfk, events, hrows, rfl⟩, hrest⟩
      obtain ⟨hall, events', hrows', rfl⟩ := ih.mp hrest
      refine ⟨?_, events', ?_, rfl⟩
      · rintro r' hr'
        rcases List.mem_cons.mp hr' with rfl | hr'
        · exact hfirst.mp hfk
        · exact (hrefers events r').mp (hall r' hr')
      · rw [hrows', hrows]
        simp
    · rintro ⟨hall, events, hrows, rfl⟩
      have hcons := hall r (by simp)
      -- the table with the first event only
      have hfree := Table.free_of_append hrows
      obtain ⟨events₁, hrows₁⟩ := Table.exists_append (t := c.lifecycleEvent)
        (l := [renamedEvent H ws gid now r]) (List.pairwise_singleton _ _)
        fun x hx y hy => hfree.2 x hx y (by
          obtain rfl := List.mem_singleton.mp hy
          simp)
      refine ⟨_, ⟨hfirst.mpr hcons, events₁, hrows₁, rfl⟩, ih.mpr ⟨?_, events, ?_, rfl⟩⟩
      · exact fun r' hr' => (hrefers events₁ r').mpr (hall r' (by simp [hr']))
      · rw [hrows, hrows₁]
        simp

/-! ## Deletions -/

/-- The identities after the deletions. -/
def markedDeleted (t : Table FileIdentity) (gone : List (String × PrevFile))
    (now : Timestamp) : Table FileIdentity :=
  gone.foldl (fun t old => t.update (fun i => i.fileId = old.2.fileId) (markDeleted now)) t

/-- The identity `i` after the deletions. -/
def deletedRow (gone : List (String × PrevFile)) (now : Timestamp) (i : FileIdentity) :
    FileIdentity :=
  gone.foldl (fun i old => if i.fileId = old.2.fileId then markDeleted now i else i) i

lemma deletedRow_spec (gone : List (String × PrevFile)) (now : Timestamp) (i : FileIdentity) :
    (deletedRow gone now i).fileId = i.fileId ∧
      (deletedRow gone now i).workspaceId = i.workspaceId ∧
      (deletedRow gone now i).lastKnownPath = i.lastKnownPath ∧
      ((deletedRow gone now i).lifecycleState = i.lifecycleState ∧
          (∀ old ∈ gone, old.2.fileId ≠ i.fileId) ∨
        (deletedRow gone now i).lifecycleState = .deleted ∧
          ∃ old ∈ gone, old.2.fileId = i.fileId) := by
  induction gone generalizing i with
  | nil => exact ⟨rfl, rfl, rfl, Or.inl ⟨rfl, by simp⟩⟩
  | cons old gone ih =>
    rw [deletedRow, List.foldl_cons]
    by_cases hold : i.fileId = old.2.fileId
    · rw [if_pos hold]
      obtain ⟨hfile, hws, hpath, hstate⟩ := ih (markDeleted now i)
      refine ⟨hfile, hws, hpath, Or.inr ⟨?_, old, by simp, hold.symm⟩⟩
      rcases hstate with ⟨hstate, -⟩ | ⟨hstate, -⟩
      · exact hstate
      · exact hstate
    · rw [if_neg hold]
      obtain ⟨hfile, hws, hpath, hstate⟩ := ih i
      refine ⟨hfile, hws, hpath, hstate.imp ?_ ?_⟩
      · rintro ⟨hstate, hnone⟩
        exact ⟨hstate, List.forall_mem_cons.mpr ⟨Ne.symm hold, hnone⟩⟩
      · rintro ⟨hstate, old', hold', heq⟩
        exact ⟨hstate, old', by simp [hold'], heq⟩

lemma rows_markedDeleted (t : Table FileIdentity) (gone : List (String × PrevFile))
    (now : Timestamp) :
    (markedDeleted t gone now).rows = t.rows.map (deletedRow gone now) := by
  rw [markedDeleted, Table.rows_foldl_update]
  simp only [decide_eq_true_eq]
  rfl

/-- A deletion event refers to rows that are there. -/
def DeletionRefers (c : Catalogue) (ws gid : String) (old : String × PrevFile) : Prop :=
  c.hasWorkspace ws = true ∧ c.hasGeneration gid = true ∧ c.hasFile old.2.fileId = true

lemma lastRevision_refers (old : String × PrevFile) :
    (tombstoneRow H ws gid now c old.1 old.2).lastRevisionId.all c.hasRevision = true := by
  simp only [tombstoneRow]
  cases hlast : lastRevision c old.2 with
  | none => rfl
  | some fr =>
    have hmem := (Table.mem_of_greatest? hlast).1
    simpa using hasRevision_iff.mpr ⟨fr, hmem, rfl⟩

/-- One deletion. -/
lemma recordDeletion_ok {old : String × PrevFile} :
    recordDeletion H ws gid now c old = .ok c' ↔
      DeletionRefers c ws gid old ∧
      ∃ (events : Table LifecycleEvent) (tombstones : Table Tombstone),
        events.rows = c.lifecycleEvent.rows ++ [deletedEvent H ws gid now old.1 old.2] ∧
        tombstones.rows = c.tombstone.rows ++ [tombstoneRow H ws gid now c old.1 old.2] ∧
        { c with
          fileIdentity := c.fileIdentity.update (fun i => i.fileId = old.2.fileId)
            (markDeleted now)
          lifecycleEvent := events
          tombstone := tombstones } = c' := by
  have hfile : ∀ id, ({ c with
      fileIdentity := c.fileIdentity.update (fun i => i.fileId = old.2.fileId)
        (markDeleted now) } : Catalogue).hasFile id = c.hasFile id :=
    any_update_identity (keepsFile_markDeleted now)
  simp only [recordDeletion, bind_ok, insertLifecycleEvent_ok, insertTombstone_ok]
  constructor
  · rintro ⟨t, ⟨⟨hws, hgen, hid⟩, events, hevents, rfl⟩, -, tombstones, htombs, rfl⟩
    have hid : c.hasFile old.2.fileId = true := 
      (hfile _).symm.trans ((Option.all_some ..).symm.trans hid)
    exact ⟨⟨hws, hgen, hid⟩, events, tombstones, hevents, htombs, rfl⟩
  · rintro ⟨⟨hws, hgen, hid⟩, events, tombstones, hevents, htombs, rfl⟩
    have hid' := (hfile old.2.fileId).trans hid
    refine ⟨_, ⟨⟨hws, hgen, ?_⟩, events, hevents, rfl⟩, ⟨hws, hid', ?_, ?_⟩, tombstones,
      htombs, rfl⟩
    · exact (Option.all_some ..).trans hid'
    · -- the event was inserted by the statement before
      exact List.any_eq_true.mpr ⟨deletedEvent H ws gid now old.1 old.2, by simp [hevents],
        by simp [deletedEvent, tombstoneRow]⟩
    · exact lastRevision_refers (c := c) old

/-- The loop over the deletions. -/
lemma recordDeletionLoop_ok {gone : List (String × PrevFile)} :
    gone.foldlM (recordDeletion H ws gid now) c = .ok c' ↔
      (∀ old ∈ gone, DeletionRefers c ws gid old) ∧
      ∃ (events : Table LifecycleEvent) (tombstones : Table Tombstone),
        events.rows = c.lifecycleEvent.rows ++
          gone.map (fun old => deletedEvent H ws gid now old.1 old.2) ∧
        tombstones.rows = c.tombstone.rows ++
          gone.map (fun old => tombstoneRow H ws gid now c old.1 old.2) ∧
        { c with
          fileIdentity := markedDeleted c.fileIdentity gone now
          lifecycleEvent := events
          tombstone := tombstones } = c' := by
  induction gone generalizing c with
  | nil =>
    constructor
    · intro h
      obtain rfl : c = c' := Except.ok.inj h
      exact ⟨by simp, c.lifecycleEvent, c.tombstone, by simp, by simp, rfl⟩
    · rintro ⟨-, events, tombstones, hevents, htombs, rfl⟩
      have h₁ : events = c.lifecycleEvent := by
        ext1
        simpa using hevents
      have h₂ : tombstones = c.tombstone := by
        ext1
        simpa using htombs
      subst h₁ h₂
      rfl
  | cons old gone ih =>
    have hrefers : ∀ (events : Table LifecycleEvent) (tombstones : Table Tombstone)
        (old' : String × PrevFile), DeletionRefers { c with
          fileIdentity := c.fileIdentity.update (fun i => i.fileId = old.2.fileId)
            (markDeleted now)
          lifecycleEvent := events
          tombstone := tombstones } ws gid old' ↔ DeletionRefers c ws gid old' := by
      intro events tombstones old'
      exact and_congr Iff.rfl (and_congr Iff.rfl (iff_of_eq (congrArg (· = true)
        (any_update_identity (keepsFile_markDeleted now) old'.2.fileId))))
    rw [foldlM_cons_ok]
    simp only [recordDeletion_ok]
    constructor
    · rintro ⟨t, ⟨hfirst, events, tombstones, hevents, htombs, rfl⟩, hrest⟩
      obtain ⟨hall, events', tombstones', hevents', htombs', rfl⟩ := ih.mp hrest
      refine ⟨?_, events', tombstones', ?_, ?_, rfl⟩
      · intro old' hold'
        rcases List.mem_cons.mp hold' with rfl | hold'
        · exact hfirst
        · exact (hrefers events tombstones old').mp (hall old' hold')
      · rw [hevents', hevents]
        simp
      · -- the summaries of a tombstone are read from tables that the loop leaves alone
        rw [htombs', htombs]
        simp [tombstoneRow, lastRevision]
    · rintro ⟨hall, events, tombstones, hevents, htombs, rfl⟩
      have hfreeE := (Table.free_of_append hevents).2
      have hfreeT := (Table.free_of_append htombs).2
      obtain ⟨events₁, hevents₁⟩ := Table.exists_append (t := c.lifecycleEvent)
        (l := [deletedEvent H ws gid now old.1 old.2]) (List.pairwise_singleton _ _)
        fun x hx y hy => hfreeE x hx y (by
          obtain rfl := List.mem_singleton.mp hy
          simp)
      obtain ⟨tombstones₁, htombs₁⟩ := Table.exists_append (t := c.tombstone)
        (l := [tombstoneRow H ws gid now c old.1 old.2]) (List.pairwise_singleton _ _)
        fun x hx y hy => hfreeT x hx y (by
          obtain rfl := List.mem_singleton.mp hy
          simp)
      refine ⟨_, ⟨hall old (by simp), events₁, tombstones₁, hevents₁, htombs₁, rfl⟩,
        ih.mpr ⟨?_, events, tombstones, ?_, ?_, rfl⟩⟩
      · exact fun old' hold' => (hrefers events₁ tombstones₁ old').mpr
          (hall old' (by simp [hold']))
      · rw [hevents, hevents₁]
        simp
      · rw [htombs, htombs₁]
        simp [tombstoneRow, lastRevision]

end Records

end WorkspaceAtlas
