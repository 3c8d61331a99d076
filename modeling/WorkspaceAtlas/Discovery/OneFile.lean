/-
# What a snapshot leaves for the next one

The active generation after a reconcile of a snapshot has exactly the walked files, so the next
reconcile compares its walk with them.
-/
import WorkspaceAtlas.Discovery.ActiveFiles
import WorkspaceAtlas.Discovery.Sound

namespace WorkspaceAtlas

open Relational Transition LifecycleRun

namespace Snapshots

section Lemmas

variable {env : Environment} {c c' : Catalogue} {ws gid path : String} {now : Timestamp}
  {walked : List Walked} {H : Hasher} {i : FileIdentity} {hash : String} {content : HashedContent}
  {text : Option String}

/-- A call whose ids are free leaves the effect of its walk, and the generation that it
activates is the one it began. -/
lemma effect_of_idsFree {snap : Snapshot env} (hH : env.hasher.Injective)
    (hc : Sound env.hasher ws c) (hfree : IdsFree env ws c snap)
    (hwalked : snap.files.mapM (hashWalked env snap.policy) = .ok walked) :
    Sound env.hasher ws (step env ws c snap) ∧
      ∃ gid, activeGeneration? (step env ws c snap) ws = some gid ∧
        CallEffect env ws gid snap.now c walked (step env ws c snap) := by
  obtain ⟨⟨report, hact, hpointer⟩, hsound⟩ := activates_of_idsFree hH hc hfree
  refine ⟨hsound, report.candidateGenerationId, hpointer, ?_⟩
  have hend := reconcile_ending env c (workspaceRecord c ws)
    (.ofFiles snap.files snap.policy snap.now)
  obtain ⟨hok, -⟩ := hact
  change (reconcile env c (workspaceRecord c ws)
    (.ofFiles snap.files snap.policy snap.now)).2 = .ok report at hok
  show CallEffect env ws _ snap.now c walked (reconcile env c (workspaceRecord c ws)
    (.ofFiles snap.files snap.policy snap.now)).1
  generalize reconcile env c (workspaceRecord c ws)
    (.ofFiles snap.files snap.policy snap.now) = res at hend hok ⊢
  obtain ⟨c', r⟩ := res
  cases hend with
  | notBegun e hnot => exact absurd hok (by simp)
  | stopped e hfiles hbegin hnot => exact absurd hok (by simp)
  | @finished begun recorded candidate files walked' facts report' hfiles hbegin hwalked'
      hfacts hreport =>
    obtain rfl : snap.files = files := Except.ok.inj hfiles
    obtain rfl := Except.ok.inj (hwalked.symm.trans hwalked')
    obtain rfl : report' = report := Except.ok.inj hok
    obtain ⟨-, hbegin⟩ := withFault_ok.mp hbegin
    obtain ⟨-, hfacts⟩ := withFault_ok.mp hfacts
    obtain ⟨b⟩ := beginCandidate_begun hbegin
    obtain ⟨s, hs, -⟩ := factsTransaction_ok hfacts
    have hnodup : (walked.map Walked.relStr).Nodup :=
      (PerPath.map_relStr hwalked) ▸ snap.distinct
    have eff : CallEffect env ws candidate.generationId snap.now c walked recorded :=
      callEffect_of_stages hH hc.members b hnodup (snap.present_of_walked hwalked) s hs
    obtain ⟨workspaces, p, f, sessions, -, hframe⟩ := activateOrFail_frame Faults.none recorded
      ws candidate.generationId facts.semantic
      (sourceTreeHash env.hasher (walked.filterMap Walked.presentHash?)) snap.now
    rw [hreport.1]
    show CallEffect env ws _ snap.now c walked (activateOrFail Faults.none recorded ws
      candidate.generationId facts.semantic
      (sourceTreeHash env.hasher (walked.filterMap Walked.presentHash?)) snap.now).1
    rw [hframe]
    exact ⟨eff.others, eff.members, eff.recorded, eff.revisions, eff.identityAt, eff.identities,
      eff.kept, eff.fresh, eff.events, eff.tombstones⟩

/-- What the next call reads of a walked file. -/
def previousOf (H : Hasher) (c : Catalogue) (ws : String) (w : Walked) :
    Option (String × PrevFile) :=
  w.presentHash?.map fun p => (p.1, ⟨walkedFileId H c ws w, p.2⟩)

lemma previousOf_relStr {w : Walked} {old : String × PrevFile}
    (h : previousOf H c ws w = some old) : old.1 = w.relStr := by
  cases w with
  | present path content text =>
    obtain rfl := Option.some.inj h
    rfl
  | skipped path kind code detail => exact absurd h (by simp [previousOf, Walked.presentHash?])

/-- **The next call** compares its walk with the files of this one. -/
lemma snapshotPreviousPresent_perm (hwalked : AllPresent walked)
    (eff : CallEffect env ws gid now c walked c') (hact : activeGeneration? c' ws = some gid) :
    (snapshotPreviousPresent c' ws).Perm
      (walked.filterMap (previousOf env.hasher (afterRenames c ws walked now) ws)) := by
  have hnodup : (snapshotPreviousPresent c' ws).Nodup :=
    snapshotPreviousPresent_pairwise.imp fun h heq => h.1 (congrArg Prod.fst heq)
  have hnodup' : (walked.filterMap
      (previousOf env.hasher (afterRenames c ws walked now) ws)).Nodup := by
    refine List.pairwise_filterMap.mpr ?_
    refine (List.pairwise_map.mp hwalked.distinct).imp fun {v w} hne => ?_
    rintro old hold old' hold' rfl
    exact hne ((previousOf_relStr hold).symm.trans (previousOf_relStr hold'))
  refine (List.perm_ext_iff_of_nodup hnodup hnodup').mpr fun old => ?_
  rw [mem_snapshot_iff, List.mem_filterMap]
  constructor
  · rintro ⟨gid', rid, hact', gf, hgf, hgen, hpres, hfile, hpath, hrid, r, hr, hid, hhash⟩
    obtain rfl : gid = gid' := Option.some.inj (hact.symm.trans hact')
    obtain ⟨w, hw, hwpath, hwfile, hshows⟩ := eff.members gf hgf hgen
    obtain ⟨path, content, text, rfl⟩ := hwalked.present w hw
    obtain ⟨-, r', hr', hrid', hhash'⟩ := hshows
    have hsame : r'.revisionId = r.revisionId :=
      (Option.some.inj (hrid'.symm.trans hrid)).trans hid.symm
    obtain rfl : r' = r := Table.eq_of_clash hr' hr (Or.inl hsame)
    refine ⟨_, hw, ?_⟩
    have hfst : path = old.1 := hwpath.symm.trans hpath
    show some (path, (⟨_, content.hash⟩ : PrevFile)) = some old
    rw [← hwfile, hfile, ← hhash', hhash, hfst]
  · rintro ⟨w, hw, hold⟩
    obtain ⟨path, content, text, rfl⟩ := hwalked.present w hw
    obtain rfl := Option.some.inj hold
    obtain ⟨gf, hgf, hgen, hpath⟩ := eff.recorded _ hw
    obtain ⟨v, hv, hvpath, hvfile, hshows⟩ := eff.members gf hgf hgen
    obtain rfl : v = .present path content text :=
      eq_of_relStr hwalked.distinct hv hw (hvpath.symm.trans hpath)
    obtain ⟨hpres, r, hr, hrid, hhash⟩ := hshows
    exact ⟨gid, r.revisionId, hact, gf, hgf, hgen, hpres, hvfile, hpath, hrid, r, hr, rfl, hhash⟩

/-! ## One identity -/

/-- What the paths find in a catalogue of one identity. -/
lemma identityAt?_of_rows (hrows : c.fileIdentity.rows = [i])
    (hws : i.workspaceId = ws) (p : String) :
    identityAt? c ws p = if i.lastKnownPath = p then some i else none := by
  unfold identityAt? Table.find?
  rw [hrows, List.find?_singleton]
  simp only [hws, true_and, decide_eq_true_eq]

lemma rows_afterRenames (hrows : c.fileIdentity.rows = [i]) :
    (afterRenames c ws walked now).fileIdentity.rows =
      [movedRow (detectedRenames c ws walked) now i] := by
  show (movedIdentities c.fileIdentity _ now).rows = _
  rw [rows_movedIdentities, hrows, List.map_singleton]

lemma detectedRenames_of_nil (h : snapshotPreviousPresent c ws = []) :
    detectedRenames c ws walked = [] := by
  rw [detectedRenames, h]
  rfl

lemma detectedDeletions_of_nil (h : snapshotPreviousPresent c ws = []) :
    detectedDeletions c ws walked = [] := by
  rw [detectedDeletions, h]
  rfl

/-- No file disappears from a walk that has all of the previous ones. -/
lemma detectedRenames_of_walked
    (h : ∀ old ∈ snapshotPreviousPresent c ws, old.1 ∈ walked.map Walked.relStr) :
    detectedRenames c ws walked = [] := by
  have hgone : disappeared (snapshotPreviousPresent c ws) (walked.map Walked.relStr) = [] := by
    refine List.filter_eq_nil_iff.mpr fun old hold => ?_
    simpa using h old hold
  rw [detectedRenames, detectRenames, hgone]
  rfl

lemma fileIdentity_afterRenames_of_nil (h : detectedRenames c ws walked = []) :
    (afterRenames c ws walked now).fileIdentity = c.fileIdentity := by
  show movedIdentities c.fileIdentity (detectedRenames c ws walked) now = _
  rw [h]
  rfl

/-! ## The first call -/

lemma snapshotPreviousPresent_registered (workspaceIds : List String) (ws : String) :
    snapshotPreviousPresent (.registered workspaceIds) ws = [] := by
  unfold snapshotPreviousPresent
  split
  next => rfl
  next => rfl

lemma not_mem_afterRenames_registered {workspaceIds : List String} :
    i ∉ (afterRenames (.registered workspaceIds) ws walked now).fileIdentity := by
  rw [mem_afterRenames]
  rintro ⟨j, hj, -⟩
  exact Table.not_mem_empty hj

/-- Nothing was there before the first call. -/
lemma idsFree_registered (env : Environment) (workspaceIds : List String) (ws : String)
    (snap : Snapshot env) : IdsFree env ws (.registered workspaceIds) snap := by
  intro walked _
  refine ⟨fun _ _ _ i hi => absurd hi not_mem_afterRenames_registered, ?_⟩
  rw [detectedRenames_of_nil (snapshotPreviousPresent_registered workspaceIds ws)]
  exact List.nodup_nil

lemma not_requiredFailure_nil : ¬ RequiredFailure [] := by
  rintro ⟨plan, hplan, -⟩
  exact absurd hplan (by simp)

lemma traceable_registered (workspaceIds : List String) (ws : String) (walked : List Walked)
    (now : Timestamp) : Traceable (.registered workspaceIds) ws walked [] now := by
  have hprevious := snapshotPreviousPresent_registered workspaceIds ws
  refine ⟨fun h => absurd h not_requiredFailure_nil, fun r hr => ?_, fun _ w _ i hi => ?_,
    fun old hold => ?_⟩
  · rw [detectedRenames_of_nil hprevious] at hr
    exact absurd hr (by simp)
  · exact absurd (identityAt?_some hi).1 not_mem_afterRenames_registered
  · rw [detectedDeletions_of_nil hprevious] at hold
    exact absurd hold (by simp)

/-- The active generation has one file, and no other file was ever there. -/
structure HasOnly (H : Hasher) (ws : String) (i : FileIdentity) (hash : String) (c : Catalogue) :
    Prop where
  sound : Sound H ws c
  rows : c.fileIdentity.rows = [i]
  workspace : i.workspaceId = ws
  previous : snapshotPreviousPresent c ws = [(i.lastKnownPath, ⟨i.fileId, hash⟩)]

lemma allPresent_singleton (path : String) (content : HashedContent) (text : Option String) :
    AllPresent [.present path content text] :=
  ⟨by simp, by simp⟩

/-- The first call of a snapshot of one file creates its identity. -/
lemma hasOnly_first (snap : Snapshot env) (hH : env.hasher.Injective)
    {workspaceIds : List String} (hws : ws ∈ workspaceIds)
    (hwalked : snap.files.mapM (hashWalked env snap.policy) = .ok [.present path content text])
    (hhash : content.hash = hash) :
    HasOnly env.hasher ws (createdIdentity env.hasher ws path snap.now) hash
      (step env ws (.registered workspaceIds) snap) := by
  subst hhash
  obtain ⟨hsound, gid, hact, eff⟩ := effect_of_idsFree hH (sound_registered env.hasher hws)
    (idsFree_registered env workspaceIds ws snap) hwalked
  have hnone : ∀ p, identityAt? (afterRenames (.registered workspaceIds) ws
      [.present path content text] snap.now) ws p = none := by
    intro p
    rw [identityAt?, Table.find?_eq_none]
    exact fun i hi => absurd hi not_mem_afterRenames_registered
  have hdeletions : detectedDeletions (.registered workspaceIds) ws
      [.present path content text] = [] :=
    detectedDeletions_of_nil (snapshotPreviousPresent_registered workspaceIds ws)
  have hfound := eff.identityAt path
  rw [hnone, hdeletions] at hfound
  simp only [List.map_cons, List.map_nil, List.mem_singleton, Walked.relStr, if_true,
    Option.none_or, Option.map_some] at hfound
  refine ⟨hsound, Table.rows_eq_singleton (identityAt?_some hfound).1 fun j hj => ?_, rfl, ?_⟩
  · obtain ⟨i, hji, hi | ⟨w, hw, hi⟩⟩ := eff.identities j hj
    · exact absurd hi not_mem_afterRenames_registered
    · obtain rfl := List.mem_singleton.mp hw
      rw [hji, hdeletions, hi]
      rfl
  · have hperm := snapshotPreviousPresent_perm (allPresent_singleton path content text) eff hact
    rw [show [Walked.present path content text].filterMap (previousOf env.hasher _ ws) =
      [(path, ⟨walkedFileId env.hasher _ ws (.present path content text), content.hash⟩)] from rfl]
      at hperm
    rw [List.perm_singleton.mp hperm]
    simp only [walkedFileId, hnone]
    rfl

/-! ## The call after it -/

/-- The content is found at another path. -/
lemma HasOnly.detectedRenames_eq (h : HasOnly H ws i hash c) (hne : path ≠ i.lastKnownPath)
    (hhash : content.hash = hash) :
    detectedRenames c ws [.present path content text] =
      [⟨i.lastKnownPath, path, i.fileId, hash⟩] := by
  rw [detectedRenames, h.previous]
  simp [detectRenames, disappeared, appeared, newPresentHashes, lastWins, Walked.presentHash?,
    Walked.relStr, renameOf?, hne, hne.symm, hhash]

lemma HasOnly.identityAt?_renamed (h : HasOnly H ws i hash c) (hne : path ≠ i.lastKnownPath)
    (hhash : content.hash = hash) (now : Timestamp) (p : String) :
    identityAt? (afterRenames c ws [.present path content text] now) ws p =
      if path = p then some (moveTo path now i) else none := by
  have hrows : (afterRenames c ws [.present path content text] now).fileIdentity.rows =
      [moveTo path now i] := by
    rw [rows_afterRenames h.rows, h.detectedRenames_eq hne hhash]
    simp [movedRow]
  exact identityAt?_of_rows hrows h.workspace p

lemma HasOnly.idsFree_renamed (snap : Snapshot env) (h : HasOnly env.hasher ws i hash c)
    (hwalked : snap.files.mapM (hashWalked env snap.policy) = .ok [.present path content text])
    (hne : path ≠ i.lastKnownPath) (hhash : content.hash = hash) : IdsFree env ws c snap := by
  intro walked hwalked'
  obtain rfl := Except.ok.inj (hwalked.symm.trans hwalked')
  constructor
  · intro p hp hnone
    obtain rfl : p = path := by simpa [Walked.relStr] using hp
    rw [h.identityAt?_renamed hne hhash, if_pos rfl] at hnone
    exact absurd hnone (by simp)
  · rw [h.detectedRenames_eq hne hhash]
    exact List.nodup_singleton _

lemma HasOnly.detectedDeletions_renamed (h : HasOnly H ws i hash c)
    (hne : path ≠ i.lastKnownPath) (hhash : content.hash = hash) :
    detectedDeletions c ws [.present path content text] = [] := by
  rw [detectedDeletions, h.detectedRenames_eq hne hhash, h.previous]
  simp [deletedFiles]

/-- A current file that is renamed can be traced. -/
lemma HasOnly.traceable_renamed (h : HasOnly H ws i hash c) (hne : path ≠ i.lastKnownPath)
    (hhash : content.hash = hash) (hcurrent : i.lifecycleState = .current) (now : Timestamp) :
    Traceable c ws [.present path content text] [] now := by
  refine ⟨fun h => absurd h not_requiredFailure_nil, fun r hr => ?_, fun _ w hw j hj => ?_,
    fun old hold => ?_⟩
  · rw [h.detectedRenames_eq hne hhash] at hr
    obtain rfl := List.mem_singleton.mp hr
    exact ⟨_, (h.identityAt?_renamed hne hhash now path).trans (if_pos rfl), rfl⟩
  · obtain rfl := List.mem_singleton.mp hw
    rw [h.identityAt?_renamed hne hhash, Walked.relStr, if_pos rfl] at hj
    obtain rfl := Option.some.inj hj
    show i.lifecycleState ≠ _
    simp [hcurrent]
  · rw [h.detectedDeletions_renamed hne hhash] at hold
    exact absurd hold (by simp)

/-- **A rename.**  The next call finds the file under its new path, and the identity too. -/
lemma HasOnly.renamed (snap : Snapshot env) (hH : env.hasher.Injective)
    (h : HasOnly env.hasher ws i hash c)
    (hwalked : snap.files.mapM (hashWalked env snap.policy) = .ok [.present path content text])
    (hne : path ≠ i.lastKnownPath) (hhash : content.hash = hash) :
    Sound env.hasher ws (step env ws c snap) ∧
      snapshotPreviousPresent (step env ws c snap) ws = [(path, ⟨i.fileId, hash⟩)] ∧
      ∀ p, identityAt? (step env ws c snap) ws p =
        if path = p then some (moveTo path snap.now i) else none := by
  obtain ⟨hsound, gid, hact, eff⟩ :=
    effect_of_idsFree hH h.sound (h.idsFree_renamed snap hwalked hne hhash) hwalked
  refine ⟨hsound, ?_, fun p => ?_⟩
  · have hperm := snapshotPreviousPresent_perm (allPresent_singleton path content text) eff hact
    rw [show [Walked.present path content text].filterMap (previousOf env.hasher _ ws) =
      [(path, ⟨walkedFileId env.hasher _ ws (.present path content text), content.hash⟩)] from rfl]
      at hperm
    rw [List.perm_singleton.mp hperm]
    simp only [walkedFileId, h.identityAt?_renamed hne hhash, if_true, Option.map_some,
      Option.getD_some, hhash]
    rfl
  · rw [eff.identityAt, h.detectedDeletions_renamed hne hhash, h.identityAt?_renamed hne hhash]
    by_cases hp : path = p
    · rw [if_pos hp]
      rfl
    · simp [hp, Ne.symm hp, Walked.relStr]

/-- Nothing is walked any more. -/
lemma HasOnly.detectedRenames_nil (h : HasOnly H ws i hash c) : detectedRenames c ws [] = [] := by
  rw [detectedRenames, h.previous]
  simp [detectRenames, disappeared, appeared, newPresentHashes, lastWins, renameOf?]

lemma HasOnly.detectedDeletions_nil (h : HasOnly H ws i hash c) :
    detectedDeletions c ws [] = [(i.lastKnownPath, ⟨i.fileId, hash⟩)] := by
  rw [detectedDeletions, h.detectedRenames_nil, h.previous]
  simp [deletedFiles]

lemma HasOnly.idsFree_deleted (snap : Snapshot env) (h : HasOnly env.hasher ws i hash c)
    (hwalked : snap.files.mapM (hashWalked env snap.policy) = .ok []) :
    IdsFree env ws c snap := by
  intro walked hwalked'
  obtain rfl := Except.ok.inj (hwalked.symm.trans hwalked')
  refine ⟨fun p hp => absurd hp (by simp), ?_⟩
  rw [h.detectedRenames_nil]
  exact List.nodup_nil

/-- **A deletion.**  The next call compares its walk with nothing, and the identity is deleted. -/
lemma HasOnly.deleted (snap : Snapshot env) (hH : env.hasher.Injective)
    (h : HasOnly env.hasher ws i hash c)
    (hwalked : snap.files.mapM (hashWalked env snap.policy) = .ok []) :
    Sound env.hasher ws (step env ws c snap) ∧
      snapshotPreviousPresent (step env ws c snap) ws = [] ∧
      (step env ws c snap).fileIdentity.rows = [markDeleted snap.now i] := by
  obtain ⟨hsound, gid, hact, eff⟩ :=
    effect_of_idsFree hH h.sound (h.idsFree_deleted snap hwalked) hwalked
  have hrows : (afterRenames c ws [] snap.now).fileIdentity.rows = [i] := by
    rw [rows_afterRenames h.rows, h.detectedRenames_nil]
    rfl
  have hrow : deletedRow (detectedDeletions c ws []) snap.now i = markDeleted snap.now i := by
    rw [h.detectedDeletions_nil]
    simp [deletedRow]
  have hi : i ∈ (afterRenames c ws [] snap.now).fileIdentity := by
    rw [Table.mem_def, hrows]
    exact List.mem_singleton_self i
  refine ⟨hsound, ?_, Table.rows_eq_singleton (hrow ▸ eff.kept i hi) fun j hj => ?_⟩
  · exact List.perm_nil.mp (snapshotPreviousPresent_perm ⟨by simp, by simp⟩ eff hact)
  · obtain ⟨k, rfl, hk | ⟨w, hw, -⟩⟩ := eff.identities j hj
    · rw [Table.mem_def, hrows, List.mem_singleton] at hk
      rw [hk, hrow]
    · exact absurd hw (by simp)

/-- **A file that comes back.**  Its path finds the identity it had, as it was. -/
lemma found_again (snap : Snapshot env) (hH : env.hasher.Injective) (hc : Sound env.hasher ws c)
    (hprevious : snapshotPreviousPresent c ws = []) (hrows : c.fileIdentity.rows = [i])
    (hws : i.workspaceId = ws)
    (hwalked : snap.files.mapM (hashWalked env snap.policy) =
      .ok [.present i.lastKnownPath content text]) :
    IdsFree env ws c snap ∧ i ∈ (step env ws c snap).fileIdentity ∧
      ∃ gid, activeGeneration? (step env ws c snap) ws = some gid ∧
        PresentIn (step env ws c snap) gid i.fileId := by
  have hrenames : detectedRenames c ws [.present i.lastKnownPath content text] = [] :=
    detectedRenames_of_nil hprevious
  have hfound : identityAt? (afterRenames c ws [.present i.lastKnownPath content text] snap.now)
      ws i.lastKnownPath = some i := by
    rw [identityAt?, fileIdentity_afterRenames_of_nil hrenames]
    exact (identityAt?_of_rows hrows hws i.lastKnownPath).trans (if_pos rfl)
  have hfree : IdsFree env ws c snap := by
    intro walked hwalked'
    obtain rfl := Except.ok.inj (hwalked.symm.trans hwalked')
    constructor
    · intro p hp hnone
      obtain rfl : p = i.lastKnownPath := by simpa [Walked.relStr] using hp
      exact absurd (hfound.symm.trans hnone) (by simp)
    · rw [hrenames]
      exact List.nodup_nil
  obtain ⟨-, gid, hact, eff⟩ := effect_of_idsFree hH hc hfree hwalked
  have hall := allPresent_singleton i.lastKnownPath content text
  refine ⟨hfree, ?_, gid, hact, i.lastKnownPath, (presentAt_candidate hall eff).mpr ?_⟩
  · have hat := eff.identityAt i.lastKnownPath
    rw [hfound, detectedDeletions_of_nil hprevious] at hat
    exact (identityAt?_some hat).1
  · exact ⟨_, List.mem_singleton_self _, rfl, by simp [walkedFileId, hfound]⟩

end Lemmas

/-- Some readable files, and no exclusions. -/
def Snapshot.ofFiles (files : List (String × List UInt8)) (hnodup : (files.map Prod.fst).Nodup)
    (hcls : ∀ file ∈ files,
      classify Environment.plain.isMatch file.1 .none = .present) : Snapshot .plain where
  files := files.map fun file => .readable file.1 file.2
  policy := .none
  now := 0
  distinct := by
    rw [List.map_map]
    exact hnodup
  eligible file hfile := by
    obtain ⟨file', hfile', rfl⟩ := List.mem_map.mp hfile
    exact hcls file' hfile'
  readable file hfile := by
    obtain ⟨file', hfile', rfl⟩ := List.mem_map.mp hfile
    exact ⟨_, rfl⟩

end Snapshots

end WorkspaceAtlas
