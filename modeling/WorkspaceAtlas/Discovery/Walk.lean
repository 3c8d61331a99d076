/-
# What the loop over the walked files records

A present path finds its identity by its last known path or creates it from the path; any
other path uses the identity created from the path.  So the identity of a walked file is
determined before the loop starts, and the loop keeps one row of the candidate for every
identity that occurs: it shows the file it belongs to unless two walked files share it.
-/
import WorkspaceAtlas.Discovery.Reconcile
import WorkspaceAtlas.Discovery.Records

namespace WorkspaceAtlas

open Relational Transition

/-- The identity under which a walked file is recorded, in the catalogue the loop starts
from. -/
def walkedFileId (H : Hasher) (c : Catalogue) (workspaceId : String) : Walked → String
  | .present path _ _ =>
    ((identityAt? c workspaceId path).map FileIdentity.fileId).getD
      (fileIdFromPath H workspaceId path)
  | .skipped path _ _ _ => fileIdFromPath H workspaceId path

/-- A member row shows a walked file: the content of a present one, the reason for which
another one was skipped. -/
def Shows (c : Catalogue) (gf : GenerationFile) : Walked → Prop
  | .present _ content _ => gf.presenceState = .present ∧
    ∃ r ∈ c.fileRevision, gf.revisionId = some r.revisionId ∧ r.contentHash = content.hash
  | .skipped _ kind _ _ => gf.presenceState = kind.presenceState ∧ gf.revisionId = none

section Walk

variable {env : Environment} {c c' : Catalogue} {ws gid path fileId : String} {now : Timestamp}
  {content : HashedContent} {text : Option String}

/-! ## One file -/

/-- The identity of a present path, and the identities with it. -/
inductive IdentityFor (H : Hasher) (c : Catalogue) (ws path : String) (now : Timestamp) :
    Table FileIdentity → String → Prop
  | found {i : FileIdentity} : identityAt? c ws path = some i →
      IdentityFor H c ws path now c.fileIdentity i.fileId
  | created {identities : Table FileIdentity} : identityAt? c ws path = none →
      c.fileIdentity.insert? (createdIdentity H ws path now) = some identities →
      IdentityFor H c ws path now identities (fileIdFromPath H ws path)

lemma findOrCreateIdentity_ok {H : Hasher}
    (h : findOrCreateIdentity H c ws path now = .ok (c', fileId)) :
    ∃ identities, IdentityFor H c ws path now identities fileId ∧
      c' = { c with fileIdentity := identities } := by
  unfold findOrCreateIdentity at h
  split at h
  next i hi =>
    simp only [Except.ok.injEq, Prod.mk.injEq] at h
    obtain ⟨rfl, rfl⟩ := h
    exact ⟨c.fileIdentity, .found hi, rfl⟩
  next hnone =>
    dsimp only at h
    split at h
    · exact absurd h (by simp)
    next identities hins =>
      split at h
      · simp only [Except.ok.injEq, Prod.mk.injEq] at h
        obtain ⟨rfl, rfl⟩ := h
        exact ⟨identities, .created hnone hins, rfl⟩
      · exact absurd h (by simp)

/-- The revision of a file with some content, and the revisions with it. -/
inductive RevisionFor (H : Hasher) (c : Catalogue) (fileId : String) (content : HashedContent)
    (now : Timestamp) : Table FileRevision → String → Bool → Prop
  | found {r : FileRevision} : r ∈ c.fileRevision →
      r.material = (revisionRow H fileId content now).material →
      RevisionFor H c fileId content now c.fileRevision r.revisionId false
  | created {revisions : Table FileRevision} :
      c.fileRevision.insert? (revisionRow H fileId content now) = some revisions →
      RevisionFor H c fileId content now revisions
        (revisionRow H fileId content now).revisionId true

lemma findOrCreateRevision_ok {H : Hasher} {revisionId : String} {isNew : Bool}
    (h : findOrCreateRevision H c fileId content now = .ok (c', revisionId, isNew)) :
    ∃ revisions, RevisionFor H c fileId content now revisions revisionId isNew ∧
      c' = { c with fileRevision := revisions } := by
  unfold findOrCreateRevision at h
  dsimp only at h
  split at h
  next r hr =>
    simp only [Except.ok.injEq, Prod.mk.injEq] at h
    obtain ⟨rfl, rfl, rfl⟩ := h
    exact ⟨c.fileRevision, .found (Table.mem_of_find? hr) (by simpa using Table.find?_some hr),
      rfl⟩
  next hnone =>
    split at h
    · exact absurd h (by simp)
    next revisions hins =>
      split at h
      · simp only [Except.ok.injEq, Prod.mk.injEq] at h
        obtain ⟨rfl, rfl, rfl⟩ := h
        exact ⟨revisions, .created hins, rfl⟩
      · exact absurd h (by simp)

lemma upsertGenerationFile_ok {row : GenerationFile} {f : Table.Update GenerationFile} :
    upsertGenerationFile c row f = .ok c' ↔
      (c.hasGeneration row.generationId = true ∧ c.hasFile row.fileId = true ∧
        row.revisionId.all c.hasRevision = true) ∧
      ∃ files, c.generationFile.upsert? (isTarget row) row f = some files ∧
        { c with generationFile := files } = c' := by
  unfold upsertGenerationFile
  split
  next hnone => simp [hnone]
  next files hsome =>
    simp only [hsome, Option.some.injEq]
    split
    next hfk => simp only [hfk, and_self, Except.ok.injEq, true_and, exists_eq_left']
    next hfk =>
      refine iff_of_false (by simp) ?_
      rintro ⟨h, -⟩
      exact hfk h

lemma recordPresent_ok {isNew : Bool}
    (h : recordPresent env ws gid now c path content text = .ok (c', isNew)) :
    ∃ identities fileId revisions revisionId files facts,
      IdentityFor env.hasher c ws path now identities fileId ∧
      RevisionFor env.hasher c fileId content now revisions revisionId isNew ∧
      c.generationFile.upsert? (isTarget (presentRow gid fileId revisionId path content))
        (presentRow gid fileId revisionId path content)
        (setPresent (presentRow gid fileId revisionId path content)) = some files ∧
      (if isNew then persistProviderBatch env.hasher revisions c.facts revisionId
          content.byteSize (text.map utf8).toList (env.extract path text) now = .ok facts
        else facts = c.facts) ∧
      c' = { c with
        fileIdentity := identities
        fileRevision := revisions
        generationFile := files
        facts := facts } := by
  simp only [recordPresent, bind_ok, Prod.exists] at h
  obtain ⟨c₁, fileId, hid, c₂, revisionId, new, hrev, c₃, hfile, hrest⟩ := h
  obtain ⟨identities, hidentity, rfl⟩ := findOrCreateIdentity_ok hid
  obtain ⟨revisions, hrevision, rfl⟩ := findOrCreateRevision_ok hrev
  obtain ⟨-, files, hups, rfl⟩ := upsertGenerationFile_ok.mp hfile
  have hrevision' : RevisionFor env.hasher c fileId content now revisions revisionId new := by
    cases hrevision with
    | found hr hmat => exact .found hr hmat
    | created hins => exact .created hins
  cases new with
  | false =>
    obtain ⟨rfl, rfl⟩ := Prod.mk.inj (Except.ok.inj hrest)
    exact ⟨identities, fileId, revisions, revisionId, files, c.facts, hidentity, hrevision',
      hups, by simp, rfl⟩
  | true =>
    simp only [if_true, bind_ok] at hrest
    obtain ⟨facts, hfacts, hrest⟩ := hrest
    obtain ⟨rfl, rfl⟩ := Prod.mk.inj (Except.ok.inj hrest)
    exact ⟨identities, fileId, revisions, revisionId, files, facts, hidentity, hrevision',
      hups, by simpa using hfacts, rfl⟩

lemma recordSkipped_ok {kind : SkipKind} {code detail : String}
    (h : recordSkipped env ws gid now c path kind code detail = .ok c') :
    ∃ files,
      c.generationFile.upsert?
        (isTarget (skippedRow gid (fileIdFromPath env.hasher ws path) path kind code detail))
        (skippedRow gid (fileIdFromPath env.hasher ws path) path kind code detail)
        (setSkipped (skippedRow gid (fileIdFromPath env.hasher ws path) path kind code detail)) =
        some files ∧
      c' = { c with
        fileIdentity := c.fileIdentity.insertOrIgnore (createdIdentity env.hasher ws path now)
        generationFile := files } := by
  simp only [recordSkipped, bind_ok] at h
  obtain ⟨c₁, hid, hfile⟩ := h
  have hc₁ : c₁ = { c with
      fileIdentity :=
        c.fileIdentity.insertOrIgnore (createdIdentity env.hasher ws path now) } := by
    unfold ensureIdentity at hid
    unfold Table.insertOrIgnore
    split at hid
    next hnone =>
      obtain rfl := Except.ok.inj hid
      rw [hnone, Option.getD_none]
    next identities hins =>
      rw [hins, Option.getD_some]
      split at hid
      · exact (Except.ok.inj hid).symm
      · exact absurd hid (by simp)
  subst hc₁
  obtain ⟨-, files, hups, rfl⟩ := upsertGenerationFile_ok.mp hfile
  exact ⟨files, hups, rfl⟩

/-! ## The effect of a file -/

/-- An update that keeps the generation, the file and the path of a member row. -/
structure KeepsMember (f : Table.Update GenerationFile) : Prop where
  generationId : ∀ gf, (f gf).generationId = gf.generationId
  fileId : ∀ gf, (f gf).fileId = gf.fileId
  canonicalPath : ∀ gf, (f gf).canonicalPath = gf.canonicalPath

/-- What recording the walked file `w` does to the catalogue. -/
structure WalkedEffect (H : Hasher) (ws gid : String) (now : Timestamp) (c : Catalogue)
    (w : Walked) (c' : Catalogue) : Prop where
  frame : c' = { c with
    fileIdentity := c'.fileIdentity
    fileRevision := c'.fileRevision
    generationFile := c'.generationFile
    facts := c'.facts }
  identities : c'.fileIdentity = c.fileIdentity ∨
    c'.fileIdentity.rows = c.fileIdentity.rows ++ [createdIdentity H ws w.relStr now]
  revisions : ∀ r ∈ c.fileRevision, r ∈ c'.fileRevision
  member : ∃ row f, row.generationId = gid ∧ row.canonicalPath = w.relStr ∧
    row.fileId = walkedFileId H c ws w ∧ KeepsMember f ∧ Shows c' row w ∧
    c.generationFile.upsert? (isTarget row) row f = some c'.generationFile
  fresh : ∀ path content text, w = .present path content text →
    identityAt? c ws path = none →
    ∀ i ∈ c.fileIdentity, i.fileId ≠ fileIdFromPath H ws path

lemma recordPresent_effect {isNew : Bool}
    (h : recordPresent env ws gid now c path content text = .ok (c', isNew)) :
    WalkedEffect env.hasher ws gid now c (.present path content text) c' := by
  obtain ⟨identities, fileId, revisions, revisionId, files, facts, hid, hrev, hups, -, rfl⟩ :=
    recordPresent_ok h
  refine ⟨rfl, ?_, ?_, ⟨_, _, rfl, rfl, ?_, ⟨fun _ => rfl, fun _ => rfl, fun _ => rfl⟩, ?_,
    hups⟩, ?_⟩
  · cases hid with
    | found hi => exact Or.inl rfl
    | created hnone hins => exact Or.inr (Table.rows_of_insert? hins)
  · cases hrev with
    | found hr hmat => exact fun r hr => hr
    | created hins => exact fun r hr => (Table.mem_of_insert? hins).mpr (Or.inl hr)
  · cases hid with
    | found hi => simp [walkedFileId, presentRow, hi]
    | created hnone hins => simp [walkedFileId, presentRow, hnone]
  · refine ⟨rfl, ?_⟩
    cases hrev with
    | @found r hr hmat =>
      refine ⟨r, hr, rfl, ?_⟩
      exact congrArg (fun m => m.2.1) hmat
    | created hins => exact ⟨_, (Table.mem_of_insert? hins).mpr (Or.inr rfl), rfl, rfl⟩
  · rintro _ _ _ ⟨⟩ hnone i hi heq
    cases hid with
    | found hsome => exact absurd (hnone.symm.trans hsome) (by simp)
    | created _ hins => exact Table.not_clash_of_insert? hins i hi heq

lemma recordSkipped_effect {kind : SkipKind} {code detail : String}
    (h : recordSkipped env ws gid now c path kind code detail = .ok c') :
    WalkedEffect env.hasher ws gid now c (.skipped path kind code detail) c' := by
  obtain ⟨files, hups, rfl⟩ := recordSkipped_ok h
  refine ⟨rfl, ?_, fun r hr => hr, ⟨_, _, rfl, rfl, rfl,
    ⟨fun _ => rfl, fun _ => rfl, fun _ => rfl⟩, ⟨rfl, rfl⟩, hups⟩, ?_⟩
  · show c.fileIdentity.insertOrIgnore _ = _ ∨ (c.fileIdentity.insertOrIgnore _).rows = _
    unfold Table.insertOrIgnore
    cases hins : c.fileIdentity.insert? (createdIdentity env.hasher ws path now) with
    | none => exact Or.inl rfl
    | some identities => exact Or.inr (Table.rows_of_insert? hins)
  · rintro _ _ _ ⟨⟩

/-- A present file of the walk is recorded as present. -/
lemma recordWalked_present {n n' : ℕ}
    (h : recordWalked env ws gid now (c, n) (.present path content text) = .ok (c', n')) :
    ∃ isNew, recordPresent env ws gid now c path content text = .ok (c', isNew) := by
  simp only [recordWalked] at h
  cases hp : recordPresent env ws gid now c path content text with
  | error e => simp [hp, Except.map] at h
  | ok res =>
    simp only [hp, Except.map, Except.ok.injEq, Prod.mk.injEq] at h
    obtain ⟨rfl, -⟩ := h
    exact ⟨res.2, rfl⟩

/-- Any other file of the walk is recorded as skipped. -/
lemma recordWalked_skipped {n n' : ℕ} {kind : SkipKind} {code detail : String}
    (h : recordWalked env ws gid now (c, n) (.skipped path kind code detail) = .ok (c', n')) :
    recordSkipped env ws gid now c path kind code detail = .ok c' := by
  simp only [recordWalked] at h
  cases hp : recordSkipped env ws gid now c path kind code detail with
  | error e => simp [hp, Except.map] at h
  | ok res =>
    simp only [hp, Except.map, Except.ok.injEq, Prod.mk.injEq] at h
    rw [h.1]

lemma recordWalked_effect {n n' : ℕ} {w : Walked}
    (h : recordWalked env ws gid now (c, n) w = .ok (c', n')) :
    WalkedEffect env.hasher ws gid now c w c' := by
  cases w with
  | present path content text =>
    obtain ⟨isNew, hp⟩ := recordWalked_present h
    exact recordPresent_effect hp
  | skipped path kind code detail => exact recordSkipped_effect (recordWalked_skipped h)

/-! ## The loop -/

/-- The loop adds identities and leaves the workspaces and the generations alone. -/
lemma walk_frame {walked : List Walked} {n n' : ℕ}
    (h : walked.foldlM (recordWalked env ws gid now) (c, n) = .ok (c', n')) :
    c'.workspace = c.workspace ∧ c'.indexGeneration = c.indexGeneration ∧
      ∃ extra, c'.fileIdentity.rows = c.fileIdentity.rows ++ extra := by
  refine loop_preserves (I := fun s => s.1.workspace = c.workspace ∧
    s.1.indexGeneration = c.indexGeneration ∧
    ∃ extra, s.1.fileIdentity.rows = c.fileIdentity.rows ++ extra) ⟨rfl, rfl, [], by simp⟩ ?_ h
  rintro w - ⟨t, m⟩ ⟨t', m'⟩ ⟨hws, hgens, extra, hrows⟩ hok
  have heff := recordWalked_effect hok
  refine ⟨?_, ?_, ?_⟩
  · rw [heff.frame]
    exact hws
  · rw [heff.frame]
    exact hgens
  · rcases heff.identities with hsame | hmore
    · exact ⟨extra, by rw [hsame, hrows]⟩
    · exact ⟨_, by rw [hmore, hrows, List.append_assoc]⟩

/-- What holds of the catalogue `c` after the walked files `done` were recorded in `c₀`. -/
structure WalkInv (H : Hasher) (ws gid : String) (now : Timestamp) (c₀ : Catalogue)
    (done : List Walked) (c : Catalogue) : Prop where
  frame : c = { c₀ with
    fileIdentity := c.fileIdentity
    fileRevision := c.fileRevision
    generationFile := c.generationFile
    facts := c.facts }
  identities : ∃ extra, c.fileIdentity.rows = c₀.fileIdentity.rows ++ extra ∧
    ∀ i ∈ extra, ∃ w ∈ done, i = createdIdentity H ws w.relStr now
  revisions : ∀ r ∈ c₀.fileRevision, r ∈ c.fileRevision
  /-- The other generations keep their members. -/
  others : ∀ gf, gf.generationId ≠ gid → (gf ∈ c.generationFile ↔ gf ∈ c₀.generationFile)
  /-- Every row of the generation carries a walked path and its identity. -/
  members : ∀ gf ∈ c.generationFile, gf.generationId = gid →
    ∃ w ∈ done, gf.canonicalPath = w.relStr ∧ gf.fileId = walkedFileId H c₀ ws w
  /-- A walked file that shares its identity with no other one is recorded. -/
  recorded : ∀ w ∈ done,
    (∀ v ∈ done, walkedFileId H c₀ ws v = walkedFileId H c₀ ws w → v = w) →
    ∃ gf ∈ c.generationFile, gf.generationId = gid ∧ gf.canonicalPath = w.relStr ∧
      gf.fileId = walkedFileId H c₀ ws w ∧ Shows c gf w
  /-- An identity that was created was not there. -/
  fresh : ∀ path content text, .present path content text ∈ done →
    identityAt? c₀ ws path = none →
    ∀ i ∈ c₀.fileIdentity, i.fileId ≠ fileIdFromPath H ws path

lemma Shows.mono {gf : GenerationFile} {w : Walked} (h : Shows c gf w)
    (hsub : ∀ r ∈ c.fileRevision, r ∈ c'.fileRevision) : Shows c' gf w := by
  cases w with
  | present path content text =>
    obtain ⟨hst, r, hr, hrid, hhash⟩ := h
    exact ⟨hst, r, hsub r hr, hrid, hhash⟩
  | skipped path kind code detail => exact h

/-- No member of the generation is there before the loop. -/
lemma walkInv_start {H : Hasher} (hnone : ∀ gf ∈ c.generationFile, gf.generationId ≠ gid) :
    WalkInv H ws gid now c [] c where
  frame := rfl
  identities := ⟨[], by simp, by simp⟩
  revisions _ hr := hr
  others _ _ := Iff.rfl
  members gf hgf hgid := absurd hgid (hnone gf hgf)
  recorded := by simp
  fresh := by simp

/-- The identity of a path that is not done is still the one it was. -/
lemma WalkInv.identityAt?_eq {H : Hasher} {c₀ : Catalogue} {done : List Walked}
    (hI : WalkInv H ws gid now c₀ done c) (hpath : path ∉ done.map Walked.relStr) :
    identityAt? c ws path = identityAt? c₀ ws path := by
  obtain ⟨extra, hrows, hextra⟩ := hI.identities
  unfold identityAt? Table.find?
  rw [hrows, List.find?_append]
  have hnone : extra.find? (fun i => decide (i.workspaceId = ws ∧ i.lastKnownPath = path)) =
      none := by
    rw [List.find?_eq_none]
    intro i hi
    obtain ⟨w, hw, rfl⟩ := hextra i hi
    have hne : w.relStr ≠ path := fun h => hpath (h ▸ List.mem_map_of_mem hw)
    simp [createdIdentity, hne]
  rw [hnone, Option.or_none]

lemma WalkInv.walkedFileId_eq {H : Hasher} {c₀ : Catalogue} {done : List Walked} {w : Walked}
    (hI : WalkInv H ws gid now c₀ done c) (hpath : w.relStr ∉ done.map Walked.relStr) :
    walkedFileId H c ws w = walkedFileId H c₀ ws w := by
  cases w with
  | present p content text =>
    have hp : p ∉ done.map Walked.relStr := hpath
    simp only [walkedFileId]
    rw [hI.identityAt?_eq hp]
  | skipped p kind code detail => rfl

lemma WalkInv.step {H : Hasher} {c₀ : Catalogue} {done : List Walked} {w : Walked}
    (hI : WalkInv H ws gid now c₀ done c) (hpath : w.relStr ∉ done.map Walked.relStr)
    (heff : WalkedEffect H ws gid now c w c') : WalkInv H ws gid now c₀ (done ++ [w]) c' := by
  obtain ⟨row, f, hgid, hrow, hid, hf, hshows, hups⟩ := heff.member
  rw [hI.walkedFileId_eq hpath] at hid
  have hcases := Table.upsert?_cases hups
  -- a member after the upsert is a new version of a member before it, or the new row
  have hmem : ∀ gf ∈ c'.generationFile, (∃ old ∈ c.generationFile,
      gf.generationId = old.generationId ∧ gf.fileId = old.fileId ∧
        gf.canonicalPath = old.canonicalPath) ∨ gf = row := by
    intro gf hgf
    rcases hcases with ⟨-, heq⟩ | ⟨-, hins⟩
    · rw [heq] at hgf
      obtain ⟨old, hold, rfl⟩ := Table.mem_update.mp hgf
      refine Or.inl ⟨old, hold, ?_⟩
      split
      · exact ⟨hf.generationId old, hf.fileId old, hf.canonicalPath old⟩
      · exact ⟨rfl, rfl, rfl⟩
    · rcases (Table.mem_of_insert? hins).mp hgf with hgf | rfl
      · exact Or.inl ⟨gf, hgf, rfl, rfl, rfl⟩
      · exact Or.inr rfl
  have hkeep : ∀ gf ∈ c.generationFile, isTarget row gf = false → gf ∈ c'.generationFile := by
    intro gf hgf htarget
    rcases hcases with ⟨-, heq⟩ | ⟨-, hins⟩
    · rw [heq]
      exact Table.mem_update_of_not hgf htarget
    · exact (Table.mem_of_insert? hins).mpr (Or.inl hgf)
  constructor
  · rw [heff.frame, hI.frame]
  · obtain ⟨extra, hrows, hextra⟩ := hI.identities
    rcases heff.identities with heq | heq
    · refine ⟨extra, by rw [heq, hrows], fun i hi => ?_⟩
      obtain ⟨v, hv, rfl⟩ := hextra i hi
      exact ⟨v, by simp [hv], rfl⟩
    · refine ⟨extra ++ [createdIdentity H ws w.relStr now], by rw [heq, hrows]; simp, ?_⟩
      intro i hi
      rcases List.mem_append.mp hi with hi | hi
      · obtain ⟨v, hv, rfl⟩ := hextra i hi
        exact ⟨v, by simp [hv], rfl⟩
      · exact ⟨w, by simp, List.mem_singleton.mp hi⟩
  · exact fun r hr => heff.revisions r (hI.revisions r hr)
  · intro gf hgf
    rw [← hI.others gf hgf]
    constructor
    · intro hmem'
      rcases hcases with ⟨-, heq⟩ | ⟨-, hins⟩
      · rw [heq] at hmem'
        obtain ⟨old, hold, rfl⟩ := Table.mem_update.mp hmem'
        split at hgf
        next htarget =>
          rw [hf.generationId] at hgf
          simp only [isTarget, Bool.decide_and, Bool.and_eq_true, decide_eq_true_eq] at htarget
          exact absurd (htarget.1.trans hgid) hgf
        next htarget =>
          rw [if_neg htarget]
          exact hold
      · rcases (Table.mem_of_insert? hins).mp hmem' with h | rfl
        · exact h
        · exact absurd hgid hgf
    · exact fun h => hkeep gf h (by simp [isTarget, hgid, hgf])
  · intro gf hgf hgen
    rcases hmem gf hgf with ⟨old, hold, h₁, h₂, h₃⟩ | rfl
    · obtain ⟨v, hv, hvpath, hvid⟩ := hI.members old hold (h₁ ▸ hgen)
      exact ⟨v, by simp [hv], h₃.trans hvpath, h₂.trans hvid⟩
    · exact ⟨w, by simp, hrow, hid⟩
  · intro v hv hunique
    rcases List.mem_append.mp hv with hv | hv
    · obtain ⟨gf, hgf, hgen, hgpath, hgid', hgshows⟩ := hI.recorded v hv
        fun u hu => hunique u (by simp [hu])
      refine ⟨gf, hkeep gf hgf ?_, hgen, hgpath, hgid', hgshows.mono heff.revisions⟩
      -- the new file has another identity than `v`
      by_contra htarget
      simp only [isTarget, Bool.decide_and, Bool.not_eq_false, Bool.and_eq_true,
        decide_eq_true_eq] at htarget
      have hwv : w = v := hunique w (by simp) (by rw [← hid, ← htarget.2, hgid'])
      exact hpath (hwv ▸ List.mem_map_of_mem hv)
    · obtain rfl := List.mem_singleton.mp hv
      rcases hcases with ⟨⟨old, hold, htarget⟩, -⟩ | ⟨-, hins⟩
      · exfalso
        simp only [isTarget, Bool.decide_and, Bool.and_eq_true, decide_eq_true_eq] at htarget
        obtain ⟨u, hu, hupath, huid⟩ := hI.members old hold (htarget.1.trans hgid)
        have huv : u = v := hunique u (by simp [hu]) (by rw [← huid, htarget.2, hid])
        exact hpath (huv ▸ List.mem_map_of_mem hu)
      · exact ⟨row, (Table.mem_of_insert? hins).mpr (Or.inr rfl), hgid, hrow, hid, hshows⟩
  · intro p content text hp hnone i hi
    rcases List.mem_append.mp hp with hp | hp
    · exact hI.fresh p content text hp hnone i hi
    · obtain rfl := List.mem_singleton.mp hp
      obtain ⟨extra, hrows, -⟩ := hI.identities
      have hp' : p ∉ done.map Walked.relStr := hpath
      refine heff.fresh p content text rfl ((hI.identityAt?_eq hp').trans hnone) i ?_
      rw [Table.mem_def, hrows]
      exact List.mem_append_left _ hi

/-- **The loop over the walked files.** -/
theorem walk_ok {walked : List Walked} {n n' : ℕ} (hnodup : (walked.map Walked.relStr).Nodup)
    (hnone : ∀ gf ∈ c.generationFile, gf.generationId ≠ gid)
    (h : walked.foldlM (recordWalked env ws gid now) (c, n) = .ok (c', n')) :
    WalkInv env.hasher ws gid now c walked c' := by
  refine loop_invariant (I := fun done s => WalkInv env.hasher ws gid now c done s.1)
    (walkInv_start hnone) ?_ h
  rintro done w rest ⟨t, m⟩ ⟨t', m'⟩ rfl hI hok
  refine hI.step ?_ (recordWalked_effect hok)
  rw [List.map_append, List.map_cons, List.nodup_append] at hnodup
  exact fun hmem => hnodup.2.2 _ hmem _ (by simp) rfl

/-! ## Who shares an identity -/

/-- No skipped path is the path that the identity of a present file was created from. -/
def NoSharedIdentity (H : Hasher) (c : Catalogue) (ws : String) (walked : List Walked) : Prop :=
  ∀ path content text, .present path content text ∈ walked →
  ∀ i, identityAt? c ws path = some i →
  ∀ p kind code detail, .skipped p kind code detail ∈ walked →
    i.fileId ≠ fileIdFromPath H ws p

lemma identityAt?_some {i : FileIdentity} (h : identityAt? c ws path = some i) :
    i ∈ c.fileIdentity ∧ i.workspaceId = ws ∧ i.lastKnownPath = path := by
  have hi := Table.find?_some h
  simp only [Bool.decide_and, Bool.and_eq_true, decide_eq_true_eq] at hi
  exact ⟨Table.mem_of_find? h, hi⟩

lemma eq_of_relStr {walked : List Walked} {v w : Walked}
    (hnodup : (walked.map Walked.relStr).Nodup) (hv : v ∈ walked) (hw : w ∈ walked)
    (h : v.relStr = w.relStr) : v = w :=
  List.inj_on_of_nodup_map hnodup hv hw h

/-- Present files do not share an identity. -/
lemma present_injective {H : Hasher} (hH : H.Injective) {walked : List Walked}
    (hI : WalkInv H ws gid now c walked c') {p q : String} {content₁ content₂ : HashedContent}
    {text₁ text₂ : Option String} (hp : .present p content₁ text₁ ∈ walked)
    (hq : .present q content₂ text₂ ∈ walked)
    (h : walkedFileId H c ws (.present p content₁ text₁) =
      walkedFileId H c ws (.present q content₂ text₂)) : p = q := by
  simp only [walkedFileId] at h
  cases hi : identityAt? c ws p with
  | none =>
    cases hj : identityAt? c ws q with
    | none =>
      rw [hi, hj] at h
      exact fileIdFromPath_injective hH ws h
    | some j =>
      rw [hi, hj] at h
      exact absurd h.symm (hI.fresh p _ _ hp hi j (identityAt?_some hj).1)
  | some i =>
    cases hj : identityAt? c ws q with
    | none =>
      rw [hi, hj] at h
      exact absurd h (hI.fresh q _ _ hq hj i (identityAt?_some hi).1)
    | some j =>
      rw [hi, hj] at h
      obtain ⟨himem, -, hipath⟩ := identityAt?_some hi
      obtain ⟨hjmem, -, hjpath⟩ := identityAt?_some hj
      have hij : i = j := Table.eq_of_clash himem hjmem h
      rw [← hipath, hij, hjpath]

/-- Files share an identity only as the condition says. -/
lemma walkedFileId_injective {H : Hasher} (hH : H.Injective) {walked : List Walked}
    (hnodup : (walked.map Walked.relStr).Nodup) (hI : WalkInv H ws gid now c walked c')
    (hcond : NoSharedIdentity H c ws walked) {v w : Walked} (hv : v ∈ walked)
    (hw : w ∈ walked) (h : walkedFileId H c ws v = walkedFileId H c ws w) : v = w := by
  have hmixed : ∀ path content text p kind code detail,
      .present path content text ∈ walked → .skipped p kind code detail ∈ walked →
      walkedFileId H c ws (.present path content text) ≠ fileIdFromPath H ws p := by
    intro path content text p kind code detail hpres hskip heq
    simp only [walkedFileId] at heq
    cases hi : identityAt? c ws path with
    | none =>
      rw [hi] at heq
      have hpath : path = p := fileIdFromPath_injective hH ws heq
      exact absurd (eq_of_relStr hnodup hpres hskip hpath) (by simp)
    | some i =>
      rw [hi] at heq
      exact hcond path content text hpres i hi p kind code detail hskip heq
  cases v with
  | present p content text =>
    cases w with
    | present q content' text' =>
      exact eq_of_relStr hnodup hv hw (present_injective hH hI hv hw h)
    | skipped q kind code detail =>
      exact absurd h (hmixed p content text q kind code detail hv hw)
  | skipped p kind code detail =>
    cases w with
    | present q content text =>
      exact absurd h.symm (hmixed q content text p kind code detail hw hv)
    | skipped q kind' code' detail' =>
      exact eq_of_relStr hnodup hv hw (fileIdFromPath_injective hH ws h)

/-- The generation records every walked file under its path, and no other path. -/
structure RecordsWalk (c : Catalogue) (gid : String) (walked : List Walked) : Prop where
  records : ∀ w ∈ walked, ∃ gf ∈ c.generationFile, gf.generationId = gid ∧
    gf.canonicalPath = w.relStr ∧ Shows c gf w
  walked_of_member : ∀ gf ∈ c.generationFile, gf.generationId = gid →
    ∃ w ∈ walked, gf.canonicalPath = w.relStr

/-- After the loop every walked file is recorded exactly when no two share an identity. -/
lemma WalkInv.recordsWalk_iff {H : Hasher} (hH : H.Injective) {walked : List Walked}
    (hnodup : (walked.map Walked.relStr).Nodup) (hI : WalkInv H ws gid now c walked c') :
    RecordsWalk c' gid walked ↔ NoSharedIdentity H c ws walked := by
  constructor
  · intro hrec path content text hpres i hi p kind code detail hskip heq
    obtain ⟨gf₁, hgf₁, hgen₁, hpath₁, -⟩ := hrec.records _ hpres
    obtain ⟨gf₂, hgf₂, hgen₂, hpath₂, -⟩ := hrec.records _ hskip
    obtain ⟨v₁, hv₁, hvpath₁, hvid₁⟩ := hI.members gf₁ hgf₁ hgen₁
    obtain ⟨v₂, hv₂, hvpath₂, hvid₂⟩ := hI.members gf₂ hgf₂ hgen₂
    obtain rfl := eq_of_relStr hnodup hv₁ hpres (hvpath₁.symm.trans hpath₁)
    obtain rfl := eq_of_relStr hnodup hv₂ hskip (hvpath₂.symm.trans hpath₂)
    -- the two rows have one identity, so they are one row with two paths
    have hsame : gf₁.fileId = gf₂.fileId := by
      rw [hvid₁, hvid₂]
      simp only [walkedFileId, hi, Option.map_some, Option.getD_some]
      exact heq
    have hrow : gf₁ = gf₂ :=
      Table.eq_of_clash hgf₁ hgf₂ ⟨hgen₁.trans hgen₂.symm, Or.inl hsame⟩
    have hpaths : path = p := hpath₁.symm.trans ((congrArg _ hrow).trans hpath₂)
    exact absurd (eq_of_relStr hnodup hpres hskip hpaths) (by simp)
  · intro hcond
    constructor
    · intro w hw
      obtain ⟨gf, hgf, hgen, hpath, -, hshows⟩ := hI.recorded w hw fun v hv =>
        walkedFileId_injective hH hnodup hI hcond hv hw
      exact ⟨gf, hgf, hgen, hpath, hshows⟩
    · intro gf hgf hgen
      obtain ⟨w, hw, hpath, -⟩ := hI.members gf hgf hgen
      exact ⟨w, hw, hpath⟩

end Walk

end WorkspaceAtlas
