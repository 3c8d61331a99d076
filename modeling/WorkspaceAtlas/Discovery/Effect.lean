/-
# The effect of a reconcile on a snapshot

Where every walked file is present, what the transaction of the facts leaves can be said in
terms of the catalogue before the call and the identities after its renames: which members
the candidate has, which identity each path finds, and which events and tombstones are new.
-/
import WorkspaceAtlas.Discovery.PerPath

namespace WorkspaceAtlas

open Relational Transition

/-- What the facts of the candidate `gid` leave of the catalogue `c`. -/
structure CallEffect (env : Environment) (ws gid : String) (now : Timestamp) (c : Catalogue)
    (walked : List Walked) (c' : Catalogue) : Prop where
  others : ∀ gf, gf.generationId ≠ gid → (gf ∈ c'.generationFile ↔ gf ∈ c.generationFile)
  members : ∀ gf ∈ c'.generationFile, gf.generationId = gid → ∃ w ∈ walked,
    gf.canonicalPath = w.relStr ∧
      gf.fileId = walkedFileId env.hasher (afterRenames c ws walked now) ws w ∧ Shows c' gf w
  recorded : ∀ w ∈ walked, ∃ gf ∈ c'.generationFile, gf.generationId = gid ∧
    gf.canonicalPath = w.relStr
  revisions : ∃ extra, c'.fileRevision.rows = c.fileRevision.rows ++ extra ∧
    ∀ r ∈ extra, ∃ w ∈ walked,
      r.fileId = walkedFileId env.hasher (afterRenames c ws walked now) ws w
  identityAt : ∀ path, identityAt? c' ws path =
    ((identityAt? (afterRenames c ws walked now) ws path).or
      (if path ∈ walked.map Walked.relStr then some (createdIdentity env.hasher ws path now)
        else none)).map (deletedRow (detectedDeletions c ws walked) now)
  identities : ∀ j ∈ c'.fileIdentity, ∃ i, j = deletedRow (detectedDeletions c ws walked) now i ∧
    (i ∈ (afterRenames c ws walked now).fileIdentity ∨
      ∃ w ∈ walked, i = createdIdentity env.hasher ws w.relStr now)
  kept : ∀ i ∈ (afterRenames c ws walked now).fileIdentity,
    deletedRow (detectedDeletions c ws walked) now i ∈ c'.fileIdentity
  /-- An identity that was created was not there. -/
  fresh : ∀ w ∈ walked, identityAt? (afterRenames c ws walked now) ws w.relStr = none →
    ∀ i ∈ (afterRenames c ws walked now).fileIdentity,
      i.fileId ≠ fileIdFromPath env.hasher ws w.relStr
  events : c'.lifecycleEvent.rows = c.lifecycleEvent.rows ++
    (detectedRenames c ws walked).map (renamedEvent env.hasher ws gid now) ++
    (detectedDeletions c ws walked).map
      (fun old => deletedEvent env.hasher ws gid now old.1 old.2)
  tombstones : ∃ recorded : Catalogue, recorded.fileRevision = c'.fileRevision ∧
    c'.tombstone.rows = c.tombstone.rows ++ (detectedDeletions c ws walked).map
      (fun old => tombstoneRow env.hasher ws gid now recorded old.1 old.2)

section Effect

variable {env : Environment} {c c' begun : Catalogue} {ws gid path : String} {now : Timestamp}
  {walked : List Walked} {plans : List SemanticPlan}

/-! ## The walk -/

/-- Identities that are added do not change what a path finds. -/
lemma identityAt?_append {i : FileIdentity} {extra : List FileIdentity}
    (hrows : c'.fileIdentity.rows = c.fileIdentity.rows ++ extra)
    (h : identityAt? c ws path = some i) : identityAt? c' ws path = some i := by
  unfold identityAt? Table.find? at h ⊢
  rw [hrows, List.find?_append, h, Option.some_or]

/-- A path that was recorded finds an identity. -/
lemma recordPresent_identityAt? {content : HashedContent} {text : Option String} {isNew : Bool}
    (h : recordPresent env ws gid now c path content text = .ok (c', isNew)) :
    ∃ i, identityAt? c' ws path = some i := by
  obtain ⟨identities, fileId, revisions, revisionId, files, facts, hid, -, -, -, rfl⟩ :=
    recordPresent_ok h
  cases hid with
  | @found i hi => exact ⟨i, hi⟩
  | created hnone hins =>
    refine ⟨createdIdentity env.hasher ws path now, ?_⟩
    show identities.find? _ = _
    rw [Table.find?_of_insert? hins]
    show (identityAt? c ws path).or _ = _
    rw [hnone]
    simp [createdIdentity]

/-- The revisions that are new belong to walked files. -/
lemma recordPresent_revisions {content : HashedContent} {text : Option String} {isNew : Bool}
    (h : recordPresent env ws gid now c path content text = .ok (c', isNew)) :
    c'.fileRevision = c.fileRevision ∨ ∃ r, c'.fileRevision.rows = c.fileRevision.rows ++ [r] ∧
      r.fileId = walkedFileId env.hasher c ws (.present path content text) := by
  obtain ⟨identities, fileId, revisions, revisionId, files, facts, hid, hrev, -, -, rfl⟩ :=
    recordPresent_ok h
  cases hrev with
  | found hr hmat => exact Or.inl rfl
  | created hins =>
    refine Or.inr ⟨_, Table.rows_of_insert? hins, ?_⟩
    show fileId = _
    cases hid with
    | found hi => simp [walkedFileId, hi]
    | created hnone _ => simp [walkedFileId, hnone]

/-- What the walk of a snapshot leaves besides the members. -/
structure WalkedPaths (H : Hasher) (ws : String) (c₀ : Catalogue) (done : List Walked)
    (c : Catalogue) : Prop where
  found : ∀ w ∈ done, ∃ i, identityAt? c ws w.relStr = some i
  revisions : ∃ extra, c.fileRevision.rows = c₀.fileRevision.rows ++ extra ∧
    ∀ r ∈ extra, ∃ w ∈ done, r.fileId = walkedFileId H c₀ ws w

lemma walkedPaths_step {c₀ : Catalogue} {done : List Walked} {content : HashedContent}
    {text : Option String} {isNew : Bool} (hI : WalkInv env.hasher ws gid now c₀ done c)
    (hpath : path ∉ done.map Walked.relStr) (h : WalkedPaths env.hasher ws c₀ done c)
    (hok : recordPresent env ws gid now c path content text = .ok (c', isNew)) :
    WalkedPaths env.hasher ws c₀ (done ++ [.present path content text]) c' := by
  have heff := recordPresent_effect hok
  constructor
  · intro w hw
    rcases List.mem_append.mp hw with hw | hw
    · obtain ⟨i, hi⟩ := h.found w hw
      refine ⟨i, ?_⟩
      rcases heff.identities with hsame | hmore
      · rw [identityAt?, hsame]
        exact hi
      · exact identityAt?_append hmore hi
    · obtain rfl := List.mem_singleton.mp hw
      exact recordPresent_identityAt? hok
  · obtain ⟨extra, hrows, hextra⟩ := h.revisions
    have hold : ∀ r ∈ extra, ∃ w ∈ done ++ [.present path content text],
        r.fileId = walkedFileId env.hasher c₀ ws w := by
      intro r hr
      obtain ⟨w, hw, hid⟩ := hextra r hr
      exact ⟨w, List.mem_append_left _ hw, hid⟩
    rcases recordPresent_revisions hok with hsame | ⟨r, hmore, hid⟩
    · exact ⟨extra, by rw [hsame, hrows], hold⟩
    · refine ⟨extra ++ [r], by rw [hmore, hrows, List.append_assoc], fun r' hr' => ?_⟩
      rcases List.mem_append.mp hr' with hr' | hr'
      · exact hold r' hr'
      · obtain rfl := List.mem_singleton.mp hr'
        have hw : Walked.relStr (.present path content text) ∉ done.map Walked.relStr := hpath
        exact ⟨_, by simp, hid.trans (hI.walkedFileId_eq hw)⟩

/-- **The walk of a snapshot.** -/
lemma walkedPaths_ok {n n' : ℕ} (hnodup : (walked.map Walked.relStr).Nodup)
    (hpresent : ∀ w ∈ walked, ∃ path content text, w = .present path content text)
    (hnone : ∀ gf ∈ c.generationFile, gf.generationId ≠ gid)
    (h : walked.foldlM (recordWalked env ws gid now) (c, n) = .ok (c', n')) :
    WalkedPaths env.hasher ws c walked c' := by
  suffices hloop : WalkInv env.hasher ws gid now c walked c' ∧
      WalkedPaths env.hasher ws c walked c' from hloop.2
  refine loop_invariant (I := fun done s => WalkInv env.hasher ws gid now c done s.1 ∧
    WalkedPaths env.hasher ws c done s.1)
    ⟨walkInv_start hnone, by simp, [], by simp, by simp⟩ ?_ h
  rintro done w rest ⟨t, m⟩ ⟨t', m'⟩ hwalked ⟨hI, hpaths⟩ hok
  obtain ⟨p, content, text, rfl⟩ := hpresent w (by simp [hwalked])
  have hnew : p ∉ done.map Walked.relStr := by
    rw [hwalked, List.map_append, List.map_cons, List.nodup_append] at hnodup
    exact fun hmem => hnodup.2.2 _ hmem _ (by simp [Walked.relStr]) rfl
  refine ⟨hI.step hnew (recordWalked_effect hok), ?_⟩
  obtain ⟨isNew, hp⟩ := recordWalked_present hok
  exact walkedPaths_step hI hnew hpaths hp

/-- What a path finds after the walk. -/
lemma WalkedPaths.identityAt?_eq {c₀ : Catalogue} (h : WalkedPaths env.hasher ws c₀ walked c)
    (hI : WalkInv env.hasher ws gid now c₀ walked c) (path : String) :
    identityAt? c ws path = (identityAt? c₀ ws path).or
      (if path ∈ walked.map Walked.relStr then some (createdIdentity env.hasher ws path now)
        else none) := by
  obtain ⟨extra, hrows, hextra⟩ := hI.identities
  by_cases hpath : path ∈ walked.map Walked.relStr
  · rw [if_pos hpath]
    cases hfound : identityAt? c₀ ws path with
    | some i => exact identityAt?_append hrows hfound
    | none =>
      obtain ⟨w, hw, rfl⟩ := List.mem_map.mp hpath
      obtain ⟨i, hi⟩ := h.found w hw
      rw [hi, Option.none_or]
      -- the identity that is found was created for the path
      unfold identityAt? Table.find? at hfound hi
      rw [hrows, List.find?_append, hfound, Option.none_or] at hi
      obtain ⟨v, -, rfl⟩ := hextra i (List.mem_of_find?_eq_some hi)
      have hlast := List.find?_some hi
      simp only [createdIdentity, Bool.decide_and, decide_true, Bool.true_and,
        decide_eq_true_eq] at hlast
      rw [hlast]
  · rw [if_neg hpath, Option.or_none]
    exact hI.identityAt?_eq hpath

/-! ## The call -/

/-- A path finds the deleted version of the identity it found before the deletions. -/
lemma identityAt?_deleted {gone : List (String × PrevFile)}
    (hrows : c'.fileIdentity.rows = c.fileIdentity.rows.map (deletedRow gone now)) :
    identityAt? c' ws path = (identityAt? c ws path).map (deletedRow gone now) := by
  unfold identityAt? Table.find?
  rw [hrows, List.find?_map]
  congr 2
  funext i
  obtain ⟨-, hws, hpath, -⟩ := deletedRow_spec gone now i
  simp only [Function.comp_apply, hws, hpath]

/-- **What the facts of a snapshot leave.** -/
theorem callEffect_of_stages (hH : env.hasher.Injective) (hm : PerPath.MembersRefer c)
    (b : Begun env.hasher c ws gid begun) (hnodup : (walked.map Walked.relStr).Nodup)
    (hpresent : ∀ w ∈ walked, ∃ path content text, w = .present path content text)
    (s : FactsStages env begun ws gid walked plans now) (hs : s.Commits c') :
    CallEffect env ws gid now c walked c' := by
  have hbegun := b.begun_eq
  have hren : detectedRenames begun ws walked = detectedRenames c ws walked := by
    rw [hbegun]
    rfl
  have hdel : detectedDeletions begun ws walked = detectedDeletions c ws walked := by
    rw [hbegun]
    rfl
  have hnone : ∀ gf ∈ begun.generationFile, gf.generationId ≠ gid := by
    rw [hbegun]
    intro gf hgf heq
    exact absurd ((hm gf hgf).symm.trans (heq ▸ b.fresh)) (by simp)
  obtain ⟨hmembers, hrevisions⟩ := s.members_eq hs
  obtain ⟨events, hevents, hrenamed⟩ := s.renamed_eq
  obtain ⟨events', tombstones, hevents', htombs, hdeleted⟩ := s.deleted_eq
  rw [hren] at hevents
  rw [hdel] at hevents' htombs hdeleted
  have hnone' : ∀ gf ∈ s.renamed.generationFile, gf.generationId ≠ gid := by
    rw [hrenamed]
    exact hnone
  have hI := s.walkInv hnodup hnone
  have hpaths := walkedPaths_ok hnodup hpresent hnone' s.walk_ok
  have hframe := hI.frame
  have hidentities : s.renamed.fileIdentity = (afterRenames c ws walked now).fileIdentity := by
    rw [hrenamed]
    show movedIdentities begun.fileIdentity (detectedRenames begun ws walked) now = _
    rw [hren, hbegun]
    rfl
  have hfind : ∀ p, identityAt? s.renamed ws p =
      identityAt? (afterRenames c ws walked now) ws p := by
    intro p
    rw [identityAt?, hidentities]
    rfl
  have hwalkedId : ∀ w, walkedFileId env.hasher s.renamed ws w =
      walkedFileId env.hasher (afterRenames c ws walked now) ws w := by
    intro w
    cases w with
    | present p content text => simp only [walkedFileId, hfind]
    | skipped p kind code detail => rfl
  have hunshared : NoSharedIdentity env.hasher s.renamed ws walked := by
    intro _ _ _ _ _ _ p kind code detail hskip
    obtain ⟨_, _, _, heq⟩ := hpresent _ hskip
    exact absurd heq (by simp)
  have hrecorded : ∀ w ∈ walked, ∃ gf ∈ s.recorded.generationFile, gf.generationId = gid ∧
      gf.canonicalPath = w.relStr ∧ gf.fileId = walkedFileId env.hasher s.renamed ws w ∧
        Shows s.recorded gf w := fun w hw =>
    hI.recorded w hw fun v hv => walkedFileId_injective hH hnodup hI hunshared hv hw
  have hcommitRows : c'.fileIdentity.rows = s.recorded.fileIdentity.rows.map
      (deletedRow (detectedDeletions c ws walked) now) := by
    obtain ⟨f, -, -, rfl⟩ := hs
    show s.deleted.fileIdentity.rows = _
    rw [hdeleted]
    exact rows_markedDeleted _ _ _
  have hshows : ∀ gf w, Shows s.recorded gf w → Shows c' gf w := fun gf w h =>
    h.mono fun r hr => hrevisions ▸ hr
  constructor
  · intro gf hne
    rw [hmembers, hI.others gf hne, hrenamed]
    show gf ∈ begun.generationFile ↔ _
    rw [hbegun]
  · intro gf hgf hgen
    rw [hmembers] at hgf
    obtain ⟨w, hw, hpath, hid⟩ := hI.members gf hgf hgen
    obtain ⟨gf', hgf', hgen', hpath', -, hsh⟩ := hrecorded w hw
    obtain rfl : gf = gf' :=
      Table.eq_of_clash hgf hgf' ⟨hgen.trans hgen'.symm, Or.inr (hpath.trans hpath'.symm)⟩
    exact ⟨w, hw, hpath, hid.trans (hwalkedId w), hshows gf w hsh⟩
  · intro w hw
    obtain ⟨gf, hgf, hgen, hpath, -⟩ := hrecorded w hw
    exact ⟨gf, hmembers ▸ hgf, hgen, hpath⟩
  · obtain ⟨extra, hrows, hextra⟩ := hpaths.revisions
    refine ⟨extra, ?_, fun r hr => ?_⟩
    · rw [hrevisions, hrows, hrenamed]
      show begun.fileRevision.rows ++ extra = _
      rw [hbegun]
    · obtain ⟨w, hw, hid⟩ := hextra r hr
      exact ⟨w, hw, hid.trans (hwalkedId w)⟩
  · intro p
    rw [identityAt?_deleted hcommitRows, hpaths.identityAt?_eq hI, hfind]
  · intro j hj
    rw [Table.mem_def, hcommitRows] at hj
    obtain ⟨i, hi, rfl⟩ := List.mem_map.mp hj
    obtain ⟨extra, hrows, hextra⟩ := hI.identities
    rw [hrows] at hi
    refine ⟨i, rfl, ?_⟩
    rcases List.mem_append.mp hi with hi | hi
    · rw [← hidentities]
      exact Or.inl hi
    · exact Or.inr (hextra i hi)
  · intro i hi
    obtain ⟨extra, hrows, -⟩ := hI.identities
    rw [Table.mem_def, hcommitRows, hrows]
    rw [← hidentities] at hi
    exact List.mem_map_of_mem (List.mem_append_left _ hi)
  · intro w hw hfree i hi
    obtain ⟨p, content, text, rfl⟩ := hpresent w hw
    rw [← hidentities] at hi
    exact hI.fresh p content text hw ((hfind p).trans hfree) i hi
  · obtain ⟨f, -, -, rfl⟩ := hs
    show s.deleted.lifecycleEvent.rows = _
    rw [hdeleted]
    show events'.rows = _
    rw [hevents', hframe, hrenamed]
    show events.rows ++ _ = _
    rw [hevents, hbegun]
  · have hsame : s.recorded.tombstone = c.tombstone := by
      rw [hframe, hrenamed]
      show begun.tombstone = _
      rw [hbegun]
    refine ⟨s.recorded, hrevisions.symm, ?_⟩
    rw [← hsame, ← htombs]
    obtain ⟨f, -, -, rfl⟩ := hs
    show s.deleted.tombstone.rows = _
    rw [hdeleted]

end Effect

end WorkspaceAtlas
