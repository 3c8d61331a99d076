/-
# Whether a call records every path as it was classified

A call activates a generation with one row for every walked path, present with its content or
excluded without a revision, exactly when no excluded path is the one that the identity of a
present file was once created from; a rename moves the identity of a present file away from
that path, and an exclusion goes back to it.
-/
import WorkspaceAtlas.Discovery.Stages

namespace WorkspaceAtlas

open Relational Transition

namespace PerPath

/-- A call of `reconcile`: a walk gives every path once. -/
structure Call where
  ws : Workspace
  input : ReconcileInput
  distinct : ∀ files, input.files = .ok files → (files.map FileObservation.relStr).Nodup

/-- The catalogue after a call. -/
def step (env : Environment) (c : Catalogue) (call : Call) : Catalogue :=
  (reconcile env c call.ws call.input).1

/-- The call activates its candidate. -/
def Activates (env : Environment) (c : Catalogue) (call : Call) (report : ReconcileReport) :
    Prop :=
  (reconcile env c call.ws call.input).2 = .ok report ∧ report.activated = true

/-- The row says how the file was classified: a present one has a revision with the hash of
the bytes that were read. -/
def RecordedAs (env : Environment) (c : Catalogue) (gf : GenerationFile)
    (file : FileObservation) : Classification → Prop
  | .present => gf.presenceState = .present ∧ ∃ content, file.read = .ok content ∧
    ∃ r ∈ c.fileRevision, gf.revisionId = some r.revisionId ∧
      r.contentHash = contentHashOfBytes env.hasher content.bytes
  | .skipped _ _ _ => gf.presenceState = .excluded ∧ gf.revisionId = none

/-- The generation has exactly one row with the path of the file, and the row says how the
file was classified. -/
def RecordsFile (env : Environment) (policy : ExcludeConfig) (c : Catalogue) (gid : String)
    (file : FileObservation) : Prop :=
  ∃ gf ∈ c.generationFile, gf.generationId = gid ∧ gf.canonicalPath = file.relStr ∧
    (∀ gf' ∈ c.generationFile, gf'.generationId = gid → gf'.canonicalPath = file.relStr →
      gf' = gf) ∧
    RecordedAs env c gf file (classify env.isMatch file.relStr policy)

/-- When the call activates its candidate, the generation records every walked file under
its own path, and has no other row. -/
def RecordedPerPath (env : Environment) (c : Catalogue) (call : Call) : Prop :=
  ∀ report files, Activates env c call report → call.input.files = .ok files →
    (∀ file ∈ files, RecordsFile env call.input.policy (step env c call)
      report.candidateGenerationId file) ∧
    ∀ gf ∈ (step env c call).generationFile,
      gf.generationId = report.candidateGenerationId →
      ∃ file ∈ files, gf.canonicalPath = file.relStr

/-- When the call activates its candidate, no present file is recorded under the identity
that was created from the path of an excluded one. -/
def KeepsApart (env : Environment) (c : Catalogue) (call : Call) : Prop :=
  ∀ report files walked, Activates env c call report → call.input.files = .ok files →
    files.mapM (hashWalked env call.input.policy) = .ok walked →
    NoSharedIdentity env.hasher (afterRenames c call.ws.workspaceId walked call.input.now)
      call.ws.workspaceId walked

/-- The members of the generations refer to generations. -/
def MembersRefer (c : Catalogue) : Prop :=
  ∀ gf ∈ c.generationFile, c.hasGeneration gf.generationId = true

section Lemmas

variable {env : Environment} {c c' : Catalogue} {ws gid : String} {policy : ExcludeConfig}
  {file : FileObservation} {w : Walked}

lemma hashWalked_relStr (h : hashWalked env policy file = .ok w) : w.relStr = file.relStr := by
  unfold hashWalked at h
  split at h
  next =>
    cases hread : file.read with
    | error e => simp [hread, Except.map] at h
    | ok content =>
      rw [hread] at h
      obtain rfl := Except.ok.inj h
      rfl
  next =>
    obtain rfl := Except.ok.inj h
    rfl

lemma map_relStr {files : List FileObservation} {walked : List Walked}
    (h : files.mapM (hashWalked env policy) = .ok walked) :
    walked.map Walked.relStr = files.map FileObservation.relStr := by
  have hall := mapM_ok_iff.mp h
  induction hall with
  | nil => rfl
  | cons hw hrest ih => rw [List.map_cons, List.map_cons, hashWalked_relStr hw,
      ih (mapM_ok_iff.mpr hrest)]

/-- A file is recorded when a row of the generation shows what phase A made of it. -/
lemma recordsFile_iff (h : hashWalked env policy file = .ok w) :
    RecordsFile env policy c gid file ↔ ∃ gf ∈ c.generationFile,
      gf.generationId = gid ∧ gf.canonicalPath = w.relStr ∧ Shows c gf w := by
  have hrel := hashWalked_relStr h
  have huniq : ∀ gf ∈ c.generationFile, gf.generationId = gid →
      gf.canonicalPath = file.relStr →
      ∀ gf' ∈ c.generationFile, gf'.generationId = gid → gf'.canonicalPath = file.relStr →
        gf' = gf := fun gf hgf hgen hpath gf' hgf' hgen' hpath' =>
    Table.eq_of_clash hgf' hgf ⟨hgen'.trans hgen.symm, Or.inr (hpath'.trans hpath.symm)⟩
  have hshows : ∀ gf, Shows c gf w ↔
      RecordedAs env c gf file (classify env.isMatch file.relStr policy) := by
    intro gf
    unfold hashWalked at h
    cases hcls : classify env.isMatch file.relStr policy with
    | present =>
      rw [hcls] at h
      cases hread : file.read with
      | error e => simp [hread, Except.map] at h
      | ok content =>
        simp only [hread] at h
        obtain rfl := Except.ok.inj h
        simp [Shows, RecordedAs, hread]
    | skipped kind code detail =>
      rw [hcls] at h
      obtain rfl := Except.ok.inj h
      rcases classify_skipped env.isMatch hcls with rfl | rfl
      · exact Iff.rfl
      · exact Iff.rfl
  rw [hrel]
  constructor
  · rintro ⟨gf, hgf, hgen, hpath, -, hstate⟩
    exact ⟨gf, hgf, hgen, hpath, (hshows gf).mpr hstate⟩
  · rintro ⟨gf, hgf, hgen, hpath, hstate⟩
    exact ⟨gf, hgf, hgen, hpath, huniq gf hgf hgen hpath, (hshows gf).mp hstate⟩

lemma recordsWalk_iff {files : List FileObservation} {walked : List Walked}
    (h : files.mapM (hashWalked env policy) = .ok walked) :
    RecordsWalk c gid walked ↔ (∀ file ∈ files, RecordsFile env policy c gid file) ∧
      ∀ gf ∈ c.generationFile, gf.generationId = gid →
        ∃ file ∈ files, gf.canonicalPath = file.relStr := by
  have hall := mapM_ok_iff.mp h
  constructor
  · rintro ⟨hrecords, hmembers⟩
    refine ⟨fun file hfile => ?_, fun gf hgf hgen => ?_⟩
    · obtain ⟨w, hw, hhash⟩ := exists_right_of_forall₂ hall hfile
      exact (recordsFile_iff hhash).mpr (hrecords w hw)
    · obtain ⟨w, hw, hpath⟩ := hmembers gf hgf hgen
      obtain ⟨file, hfile, hhash⟩ := exists_left_of_forall₂ hall hw
      exact ⟨file, hfile, hpath.trans (hashWalked_relStr hhash)⟩
  · rintro ⟨hrecords, hmembers⟩
    refine ⟨fun w hw => ?_, fun gf hgf hgen => ?_⟩
    · obtain ⟨file, hfile, hhash⟩ := exists_left_of_forall₂ hall hw
      exact (recordsFile_iff hhash).mp (hrecords file hfile)
    · obtain ⟨file, hfile, hpath⟩ := hmembers gf hgf hgen
      obtain ⟨w, hw, hhash⟩ := exists_right_of_forall₂ hall hfile
      exact ⟨w, hw, hpath.trans (hashWalked_relStr hhash).symm⟩

end Lemmas

section Steps

variable {env : Environment} {c : Catalogue} {call : Call}

lemma membersRefer_registered (ids : List String) :
    MembersRefer (Catalogue.registered ids) :=
  fun _ hgf => absurd hgf Table.not_mem_empty

/-- What the facts transaction of a call leaves refers to generations. -/
lemma membersRefer_facts {begun recorded : Catalogue} {ws gid : String}
    {walked : List Walked} {plans : List SemanticPlan} {now : Timestamp}
    (hnodup : (walked.map Walked.relStr).Nodup) (hm : MembersRefer begun)
    (hnone : ∀ gf ∈ begun.generationFile, gf.generationId ≠ gid)
    (hgid : begun.hasGeneration gid = true)
    (s : FactsStages env begun ws gid walked plans now) (hc : s.Commits recorded) :
    MembersRefer recorded := by
  have hI := s.walkInv hnodup hnone
  obtain ⟨events, -, hrenamed⟩ := s.renamed_eq
  obtain ⟨hmembers, -⟩ := s.members_eq hc
  obtain ⟨f, hf, -, rfl⟩ := hc
  obtain ⟨events', tombstones, -, -, hdeleted⟩ := s.deleted_eq
  have hgens : s.deleted.indexGeneration = begun.indexGeneration := by
    rw [hdeleted, hI.frame, hrenamed]
    rfl
  intro gf hgf
  rw [hmembers] at hgf
  rw [hasGeneration_update (c := begun) hf.generationId (by rw [← hgens])]
  by_cases hgen : gf.generationId = gid
  · rw [hgen]
    exact hgid
  · rw [hI.others gf hgen, hrenamed] at hgf
    exact hm gf hgf

/-- The candidate of a call is new, so it has no members yet. -/
lemma begun_spec {begun : Catalogue} {candidate : GenerationRecord} (hm : MembersRefer c)
    (hb : beginCandidate env.hasher c call.ws.workspaceId .reconcile "p_reconcile_v1" "1.3.0"
      call.input.now = .ok (begun, candidate)) :
    MembersRefer begun ∧
      (∀ gf ∈ begun.generationFile, gf.generationId ≠ candidate.generationId) ∧
      begun.hasGeneration candidate.generationId = true ∧
      ∃ generations, begun = { c with indexGeneration := generations } := by
  obtain ⟨b⟩ := beginCandidate_begun hb
  have hfiles : begun.generationFile = c.generationFile := by rw [b.begun_eq]
  refine ⟨fun gf hgf => b.hasGeneration_iff.mpr (Or.inl (hm gf (hfiles ▸ hgf))), ?_,
    b.hasGeneration_iff.mpr (Or.inr rfl), b.generations, b.begun_eq⟩
  intro gf hgf heq
  exact absurd ((hm gf (hfiles ▸ hgf)).symm.trans (heq ▸ b.fresh)) (by simp)

/-- Every call keeps the references of the members. -/
lemma membersRefer_step (hm : MembersRefer c) : MembersRefer (step env c call) := by
  have hend := reconcile_ending env c call.ws call.input
  unfold step
  generalize reconcile env c call.ws call.input = res at hend ⊢
  obtain ⟨c', r⟩ := res
  cases hend with
  | notBegun e => exact hm
  | stopped e hfiles hb => exact (begun_spec hm (withFault_ok.mp hb).2).1
  | finished hfiles hb hwalked hfacts hreport =>
    obtain ⟨-, hb⟩ := withFault_ok.mp hb
    obtain ⟨-, hfacts⟩ := withFault_ok.mp hfacts
    obtain ⟨hm', hnone, hgid, -⟩ := begun_spec hm hb
    have hnodup := (map_relStr hwalked) ▸ call.distinct _ hfiles
    obtain ⟨s, hs, -⟩ := factsTransaction_ok hfacts
    have hrec := membersRefer_facts hnodup hm' hnone hgid s hs
    obtain ⟨workspaces, p, f, sessions, hf, heq⟩ := activateOrFail_frame _ _ _ _ _ _ _
    rw [heq]
    intro gf hgf
    rw [hasGeneration_update hf.generationId rfl]
    exact hrec gf hgf

lemma recordsWalk_congr {c₁ c₂ : Catalogue} {gid : String} {walked : List Walked}
    (hfiles : c₁.generationFile = c₂.generationFile) (hrevs : c₁.fileRevision = c₂.fileRevision) :
    RecordsWalk c₁ gid walked ↔ RecordsWalk c₂ gid walked := by
  have hshows : ∀ gf w, Shows c₁ gf w ↔ Shows c₂ gf w := by
    intro gf w
    cases w with
    | present path content text => simp only [Shows, hrevs]
    | skipped path kind code detail => exact Iff.rfl
  constructor
  · rintro ⟨hrecords, hmembers⟩
    refine ⟨fun w hw => ?_, fun gf hgf hgen => hmembers gf (hfiles ▸ hgf) hgen⟩
    obtain ⟨gf, hgf, hgen, hpath, hsh⟩ := hrecords w hw
    exact ⟨gf, hfiles ▸ hgf, hgen, hpath, (hshows gf w).mp hsh⟩
  · rintro ⟨hrecords, hmembers⟩
    refine ⟨fun w hw => ?_, fun gf hgf hgen => hmembers gf (hfiles ▸ hgf) hgen⟩
    obtain ⟨gf, hgf, hgen, hpath, hsh⟩ := hrecords w hw
    exact ⟨gf, hfiles ▸ hgf, hgen, hpath, (hshows gf w).mpr hsh⟩

/-- Once the facts of a call are committed, every walked file is recorded exactly when no
two of them share an identity. -/
lemma recordsWalk_facts (hH : env.hasher.Injective) {begun recorded : Catalogue}
    {candidate : GenerationRecord} {files : List FileObservation} {walked : List Walked}
    {facts : FactsReport} (hm : MembersRefer c) (hfiles : call.input.files = .ok files)
    (hb : beginCandidate env.hasher c call.ws.workspaceId .reconcile "p_reconcile_v1" "1.3.0"
      call.input.now = .ok (begun, candidate))
    (hwalked : files.mapM (hashWalked env call.input.policy) = .ok walked)
    (hfacts : factsTransaction env begun call.ws.workspaceId candidate.generationId walked
      call.input.plans call.input.now = .ok (recorded, facts)) :
    RecordsWalk recorded candidate.generationId walked ↔
      NoSharedIdentity env.hasher (afterRenames c call.ws.workspaceId walked call.input.now)
        call.ws.workspaceId walked := by
  obtain ⟨-, hnone, -, generations, rfl⟩ := begun_spec hm hb
  have hnodup := (map_relStr hwalked) ▸ call.distinct _ hfiles
  obtain ⟨s, hs, -⟩ := factsTransaction_ok hfacts
  obtain ⟨hfiles', hrevs'⟩ := s.members_eq hs
  obtain ⟨events, -, hrenamed⟩ := s.renamed_eq
  rw [recordsWalk_congr hfiles' hrevs', (s.walkInv hnodup hnone).recordsWalk_iff hH hnodup,
    hrenamed]
  exact Iff.rfl

/-- What a call records and the condition are the same thing. -/
lemma recordedPerPath_iff_keepsApart (hH : env.hasher.Injective) (hm : MembersRefer c) :
    RecordedPerPath env c call ↔ KeepsApart env c call := by
  have hend := reconcile_ending env c call.ws call.input
  unfold RecordedPerPath KeepsApart Activates step
  generalize reconcile env c call.ws call.input = res at hend ⊢
  obtain ⟨c', r⟩ := res
  cases hend with
  | notBegun e => simp
  | stopped e hfiles hb => simp
  | @finished begun recorded candidate files walked facts report hfiles hb hwalked hfacts
      hreport =>
    obtain ⟨-, hb⟩ := withFault_ok.mp hb
    obtain ⟨-, hfacts⟩ := withFault_ok.mp hfacts
    obtain ⟨workspaces, p, f, sessions, -, heq⟩ := activateOrFail_frame call.input.faults
      recorded call.ws.workspaceId candidate.generationId facts.semantic
      (sourceTreeHash env.hasher (walked.filterMap Walked.presentHash?)) call.input.now
    generalize activateOrFail call.input.faults recorded call.ws.workspaceId
      candidate.generationId facts.semantic
      (sourceTreeHash env.hasher (walked.filterMap Walked.presentHash?)) call.input.now = fin
      at heq hreport ⊢
    have hfin : RecordsWalk fin.1 candidate.generationId walked ↔
        RecordsWalk recorded candidate.generationId walked :=
      recordsWalk_congr (by rw [heq]) (by rw [heq])
    have hiff := hfin.symm.trans (recordsWalk_iff hwalked)
    rw [recordsWalk_facts hH hm hfiles hb hwalked hfacts] at hiff
    constructor
    · rintro hrec report' files' walked' ⟨hreport', hact⟩ hfiles' hwalked'
      obtain rfl : report = report' := Except.ok.inj hreport'
      obtain rfl : files = files' := Except.ok.inj (hfiles.symm.trans hfiles')
      obtain rfl : walked = walked' := Except.ok.inj (hwalked.symm.trans hwalked')
      exact hiff.mpr (hreport.1 ▸ hrec report files ⟨rfl, hact⟩ hfiles)
    · rintro hcond report' files' ⟨hreport', hact⟩ hfiles'
      obtain rfl : report = report' := Except.ok.inj hreport'
      obtain rfl : files = files' := Except.ok.inj (hfiles.symm.trans hfiles')
      rw [hreport.1]
      exact hiff.mp (hcond report files walked ⟨rfl, hact⟩ hfiles hwalked)

end Steps

end PerPath

end WorkspaceAtlas
