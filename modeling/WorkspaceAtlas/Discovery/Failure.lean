/-
# Reconciles that do not activate their candidate

A reconcile commits three transactions.  When it ends between the first and the last, its
candidate is there; when its facts are committed, so are the renames and the deletions that
they record in the identities, which belong to no generation.  So a call that does not
activate its candidate leaves no trace exactly when it begins none, or when it gets as far
as failing it and the snapshot moves and deletes no file.
-/
import WorkspaceAtlas.Discovery.Stages

namespace WorkspaceAtlas

open Relational Transition

namespace Failure

/-- The call activates its candidate. -/
def Activates (env : Environment) (c : Catalogue) (ws : Workspace) (input : ReconcileInput) :
    Prop :=
  ∃ report, (reconcile env c ws input).2 = .ok report ∧ report.activated = true

/-- The identity says the same about where its file is and whether it is there. -/
structure SameState (i j : FileIdentity) : Prop where
  fileId : j.fileId = i.fileId
  lastKnownPath : j.lastKnownPath = i.lastKnownPath
  lifecycleState : j.lifecycleState = i.lifecycleState

/-- Of a call that left `c'` nothing is to be seen but a failed or abandoned candidate. -/
structure LeavesNoTrace (c c' : Catalogue) (workspaceId : String) : Prop where
  pointer : activeGeneration? c' workspaceId = activeGeneration? c workspaceId
  candidate : ∀ g ∈ c'.indexGeneration, c.hasGeneration g.generationId = false →
    g.state = .failed ∨ g.state = .abandoned
  identities : ∀ gf ∈ c.generationFile,
    activeGeneration? c workspaceId = some gf.generationId →
    ∀ i ∈ c.fileIdentity, i.fileId = gf.fileId → ∃ j ∈ c'.fileIdentity, SameState i j

/-- The identities already say what the renames and the deletions of the walk would set. -/
structure NothingMoves (c : Catalogue) (workspaceId : String) (walked : List Walked) :
    Prop where
  renames : ∀ r ∈ detectedRenames c workspaceId walked, ∀ i ∈ c.fileIdentity,
    i.fileId = r.fileId → i.lastKnownPath = r.newPath
  deletions : ∀ old ∈ detectedDeletions c workspaceId walked, ∀ i ∈ c.fileIdentity,
    i.fileId = old.2.fileId → i.lifecycleState = .deleted

/-- If a candidate is begun, every file can be read, the facts can be committed and the
candidate can be failed; and nothing moves. -/
def FailsHarmlessly (env : Environment) (c : Catalogue) (ws : Workspace)
    (input : ReconcileInput) : Prop :=
  ∀ files begun candidate, input.files = .ok files →
    withFault input.faults.begin (beginCandidate env.hasher c ws.workspaceId .reconcile
      "p_reconcile_v1" "1.3.0" input.now) = .ok (begun, candidate) →
    ∃ walked recorded, files.mapM (hashWalked env input.policy) = .ok walked ∧
      withFault input.faults.facts (factsTransaction env begun ws.workspaceId
        candidate.generationId walked input.plans input.now) = .ok recorded ∧
      input.faults.fail = none ∧ NothingMoves c ws.workspaceId walked

section Lemmas

variable {env : Environment} {c c' begun recorded : Catalogue} {ws gid code message : String}
  {walked : List Walked} {plans : List SemanticPlan} {now : Timestamp}

lemma leavesNoTrace_refl (c : Catalogue) (ws : String) : LeavesNoTrace c c ws where
  pointer := rfl
  candidate g hg hnew := by
    have hhas := hasGeneration_iff.mpr ⟨g, hg, rfl⟩
    exact absurd (hhas.symm.trans hnew) (by simp)
  identities _ _ _ i hi _ := ⟨i, hi, rfl, rfl, rfl⟩

/-! ## The candidate -/

/-- A refused activation or a required failure fails the candidate. -/
lemma activateOrFail_refused {faults : Faults} {semantic : SemanticOutcome} {tree : String}
    (h : (activateOrFail faults c ws gid semantic tree now).2.isNone = false) :
    ∃ code message, (activateOrFail faults c ws gid semantic tree now).1 =
      failCandidateOrIgnore faults.fail c gid code message := by
  unfold activateOrFail at h ⊢
  split
  next hreq => exact ⟨_, _, rfl⟩
  next hreq =>
    rw [if_neg hreq] at h
    split
    next c' hact => simp [hact] at h
    next e hact => exact ⟨_, _, rfl⟩

/-- The candidate is failed unless the statement cannot be executed. -/
lemma failCandidateOrIgnore_eq {fault : Option AtlasError} {g : IndexGeneration}
    (hg : g ∈ c.indexGeneration) (hid : g.generationId = gid) (hstate : g.state = .candidate) :
    failCandidateOrIgnore fault c gid code message =
      if fault = none then { c with
        indexGeneration := c.indexGeneration.update (isCandidate gid)
          (markFailed code message) }
      else c := by
  have hcount : c.indexGeneration.count (isCandidate gid) ≠ 0 := by
    rw [Ne, Table.count_eq_zero]
    intro hnone
    exact absurd (hnone g hg) (by simp [isCandidate, hid, hstate])
  cases fault with
  | none => simp [failCandidateOrIgnore, withFault, failCandidate, leaveCandidate, hcount]
  | some e => simp [failCandidateOrIgnore, withFault]

/-! ## The identities -/

lemma active_of_mem_snapshot {old : String × PrevFile}
    (h : old ∈ snapshotPreviousPresent c ws) :
    ∃ gf ∈ c.generationFile, activeGeneration? c ws = some gf.generationId ∧
      old.2.fileId = gf.fileId := by
  obtain ⟨w, hw, hid, gf, hgf, hact, -, hfile⟩ := mem_snapshotPreviousPresent h
  refine ⟨gf, hgf, ?_, hfile⟩
  rw [activeGeneration?, find?_workspace_eq_some.mpr ⟨hw, hid⟩]
  exact hact

/-- The identities of the active files are as they were exactly when nothing moves. -/
lemma identities_kept_iff {extra : List FileIdentity}
    (hrows : c'.fileIdentity.rows =
      (c.fileIdentity.rows.map (movedRow (detectedRenames c ws walked) now) ++ extra).map
        (deletedRow (detectedDeletions c ws walked) now)) :
    (∀ gf ∈ c.generationFile, activeGeneration? c ws = some gf.generationId →
      ∀ i ∈ c.fileIdentity, i.fileId = gf.fileId → ∃ j ∈ c'.fileIdentity, SameState i j) ↔
      NothingMoves c ws walked := by
  set renames := detectedRenames c ws walked with hren
  set gone := detectedDeletions c ws walked with hgone
  have hpair : renames.Pairwise fun a b => a.oldPath ≠ b.oldPath ∧ a.fileId ≠ b.fileId :=
    detectRenames_pairwise snapshotPreviousPresent_pairwise
  -- the identity `i` after the call
  have hafter : ∀ i ∈ c.fileIdentity,
      deletedRow gone now (movedRow renames now i) ∈ c'.fileIdentity := by
    intro i hi
    rw [Table.mem_def, hrows]
    exact List.mem_map_of_mem (List.mem_append_left _ (List.mem_map_of_mem hi))
  have hspec : ∀ i, (deletedRow gone now (movedRow renames now i)).fileId = i.fileId ∧
      (deletedRow gone now (movedRow renames now i)).lastKnownPath =
        movedPath renames i.fileId i.lastKnownPath ∧
      ((deletedRow gone now (movedRow renames now i)).lifecycleState = i.lifecycleState ∧
          (∀ old ∈ gone, old.2.fileId ≠ i.fileId) ∨
        (deletedRow gone now (movedRow renames now i)).lifecycleState = .deleted ∧
          ∃ old ∈ gone, old.2.fileId = i.fileId) := by
    intro i
    obtain ⟨hfile, -, hstate, hpath⟩ := movedRow_spec renames now i
    obtain ⟨hfile', -, hpath', hstate'⟩ := deletedRow_spec gone now (movedRow renames now i)
    rw [hfile, hstate] at hstate'
    exact ⟨hfile'.trans hfile, hpath'.trans hpath, hstate'⟩
  have huniq : ∀ i ∈ c.fileIdentity, ∀ j ∈ c'.fileIdentity, j.fileId = i.fileId →
      j = deletedRow gone now (movedRow renames now i) := fun i hi j hj hid =>
    Table.eq_of_clash hj (hafter i hi) (hid.trans (hspec i).1.symm)
  constructor
  · intro hkept
    constructor
    · intro r hr i hi hid
      obtain ⟨old, hold, -, -, hfile, -⟩ := mem_detectRenames hr
      obtain ⟨gf, hgf, hact, hgfid⟩ := active_of_mem_snapshot hold
      obtain ⟨j, hj, hsame⟩ := hkept gf hgf hact i hi (hid.trans (hfile.trans hgfid))
      rw [← hsame.lastKnownPath, huniq i hi j hj hsame.fileId, (hspec i).2.1, hid]
      exact movedPath_of_mem hpair hr
    · intro old hold i hi hid
      obtain ⟨gf, hgf, hact, hgfid⟩ := active_of_mem_snapshot (List.mem_filter.mp hold).1
      obtain ⟨j, hj, hsame⟩ := hkept gf hgf hact i hi (hid.trans hgfid)
      rw [← hsame.lifecycleState, huniq i hi j hj hsame.fileId]
      rcases (hspec i).2.2 with ⟨-, hnone⟩ | ⟨hstate, -⟩
      · exact absurd hid.symm (hnone old hold)
      · exact hstate
  · intro hmoves gf hgf hact i hi hid
    refine ⟨_, hafter i hi, (hspec i).1, ?_, ?_⟩
    · rw [(hspec i).2.1]
      by_cases hmoved : ∃ r ∈ renames, r.fileId = i.fileId
      · obtain ⟨r, hr, hrid⟩ := hmoved
        rw [hmoves.renames r hr i hi hrid.symm, ← hrid]
        exact movedPath_of_mem hpair hr
      · exact movedPath_of_forall_ne fun r hr hrid => hmoved ⟨r, hr, hrid⟩
    · rcases (hspec i).2.2 with ⟨hstate, -⟩ | ⟨hstate, old, hold, hfile⟩
      · exact hstate
      · rw [hstate, hmoves.deletions old hold i hi hfile.symm]

/-! ## The end of the call -/

lemma generationId_ite {f : Table.Update IndexGeneration} (hf : KeepsNumber f) (p : Prop)
    [Decidable p] (g : IndexGeneration) :
    (if p then f g else g).generationId = g.generationId := by
  split
  · exact hf.generationId g
  · rfl

/-- A call whose candidate was failed, or should have been. -/
lemma leavesNoTrace_failed_iff {trigger : TriggerKind} {providerSet schema : String}
    {candidate : GenerationRecord} {fault : Option AtlasError}
    (hbegin : beginCandidate env.hasher c ws trigger providerSet schema now =
      .ok (begun, candidate))
    (s : FactsStages env begun ws candidate.generationId walked plans now)
    (hs : s.Commits recorded) :
    LeavesNoTrace c (failCandidateOrIgnore fault recorded candidate.generationId code message)
        ws ↔ fault = none ∧ NothingMoves c ws walked := by
  obtain ⟨row, generations, hrowid, -, -, hrowstate, hmem, rfl, hnew⟩ :=
    (beginCandidate_begun hbegin).some
  obtain ⟨hws, ⟨f, hf, hstate, hgens⟩, extra, hrows⟩ := s.committed_rows hs
  -- the candidate among the recorded generations
  have hcand : f row ∈ recorded.indexGeneration := by
    rw [hgens]
    exact Table.mem_update_of_mem ((hmem row).mpr (Or.inr rfl)) (by simp [hrowid])
  have hcandid : (f row).generationId = candidate.generationId := (hf.generationId row).trans hrowid
  have hcandstate : (f row).state = .candidate := (hstate row).trans hrowstate
  have hident : (∀ gf ∈ c.generationFile, activeGeneration? c ws = some gf.generationId →
      ∀ i ∈ c.fileIdentity, i.fileId = gf.fileId →
        ∃ j ∈ recorded.fileIdentity, SameState i j) ↔ NothingMoves c ws walked :=
    identities_kept_iff hrows
  rw [failCandidateOrIgnore_eq hcand hcandid hcandstate]
  by_cases hfault : fault = none
  · rw [if_pos hfault]
    constructor
    · exact fun h => ⟨hfault, hident.mp h.identities⟩
    · rintro ⟨-, hmoves⟩
      refine ⟨?_, ?_, hident.mpr hmoves⟩
      · show (recorded.workspace.find? _).bind _ = _
        rw [hws]
        rfl
      · intro g hg hgnew
        obtain ⟨g₁, hg₁, rfl⟩ := Table.mem_update.mp hg
        rw [hgens] at hg₁
        obtain ⟨g₀, hg₀, rfl⟩ := Table.mem_update.mp hg₁
        rcases (hmem g₀).mp hg₀ with hold | rfl
        · -- an older generation is no new one
          have hhas : c.hasGeneration g₀.generationId = true :=
            hasGeneration_iff.mpr ⟨g₀, hold, rfl⟩
          rw [generationId_ite (keepsNumber_markFailed code message), generationId_ite hf,
            hhas] at hgnew
          exact absurd hgnew (by simp)
        · have hcounted : (if decide (g₀.generationId = candidate.generationId) = true
              then f g₀ else g₀) = f g₀ := if_pos (by simp [hrowid])
          rw [hcounted, if_pos (by simp [isCandidate, hcandid, hcandstate])]
          exact Or.inl rfl
  · rw [if_neg hfault]
    refine iff_of_false (fun h => ?_) (fun h => hfault h.1)
    have hends := h.candidate _ hcand (hcandid ▸ hnew)
    rw [hcandstate] at hends
    exact absurd hends (by simp)

end Lemmas

/-- **A call that does not activate its candidate** leaves no trace exactly when it fails
harmlessly. -/
theorem leavesNoTrace_iff (env : Environment) (c : Catalogue) (ws : Workspace)
    (input : ReconcileInput) :
    (¬ Activates env c ws input →
        LeavesNoTrace c (reconcile env c ws input).1 ws.workspaceId) ↔
      (¬ Activates env c ws input → FailsHarmlessly env c ws input) := by
  have hend := reconcile_ending env c ws input
  unfold Activates
  generalize reconcile env c ws input = res at hend ⊢
  obtain ⟨c', r⟩ := res
  cases hend with
  | notBegun e hnot =>
    refine iff_of_true (fun _ => leavesNoTrace_refl _ _) fun _ => ?_
    intro files begun candidate hfiles hbegin
    exact absurd hbegin (hnot files hfiles _)
  | stopped e hfiles hbegin hnot =>
    refine iff_of_false (fun h => ?_) (fun h => ?_)
    · -- the candidate stays a candidate
      obtain ⟨row, generations, hrowid, -, -, hrowstate, hmem, rfl, hnew⟩ :=
        (beginCandidate_begun (withFault_ok.mp hbegin).2).some
      have hends := (h (by simp)).candidate row ((hmem row).mpr (Or.inr rfl)) (hrowid ▸ hnew)
      rw [hrowstate] at hends
      exact absurd hends (by simp)
    · obtain ⟨walked, recorded, hwalked, hfacts, -⟩ := h (by simp) _ _ _ hfiles hbegin
      exact hnot walked hwalked _ hfacts
  | @finished begun recorded candidate files walked facts report hfiles hbegin hwalked hfacts
      hreport =>
    simp only [Except.ok.injEq, exists_eq_left']
    refine imp_congr_right fun hact => ?_
    rw [hreport.2, Bool.not_eq_true] at hact
    obtain ⟨code, message, heq⟩ := activateOrFail_refused hact
    obtain ⟨s, hs, -⟩ := factsTransaction_ok (withFault_ok.mp hfacts).2
    have hiff : LeavesNoTrace c (failCandidateOrIgnore input.faults.fail recorded
        candidate.generationId code message) ws.workspaceId ↔
          input.faults.fail = none ∧ NothingMoves c ws.workspaceId walked :=
      leavesNoTrace_failed_iff (withFault_ok.mp hbegin).2 s hs
    rw [← heq] at hiff
    refine hiff.trans ?_
    constructor
    · rintro ⟨hfault, hmoves⟩ files' begun' candidate' hfiles' hbegin'
      obtain rfl := Except.ok.inj (hfiles.symm.trans hfiles')
      obtain ⟨rfl, rfl⟩ := Prod.mk.inj (Except.ok.inj (hbegin.symm.trans hbegin'))
      exact ⟨walked, _, hwalked, hfacts, hfault, hmoves⟩
    · intro hharm
      obtain ⟨walked', recorded', hwalked', -, hfault, hmoves⟩ := hharm _ _ _ hfiles hbegin
      obtain rfl := Except.ok.inj (hwalked.symm.trans hwalked')
      exact ⟨hfault, hmoves⟩

/-- A walk that finds a file it cannot read. -/
def unreadableInput : ReconcileInput :=
  .ofFiles [⟨"a", .error (.io "permission denied"), none⟩] .none 0

/-- The candidate of a call that meets an unreadable file stays a candidate. -/
theorem unreadable_leaves_candidate :
    ¬ (¬ Activates .plain (.registered ["ws"]) ⟨"ws", none⟩ unreadableInput →
      LeavesNoTrace (.registered ["ws"])
        (reconcile .plain (.registered ["ws"]) ⟨"ws", none⟩ unreadableInput).1 "ws") := by
  intro h
  have hfails : (reconcile .plain (.registered ["ws"]) ⟨"ws", none⟩ unreadableInput).2 =
      .error (.io "permission denied") := by
    decide
  have hleft : ∃ g ∈ (reconcile .plain (.registered ["ws"]) ⟨"ws", none⟩
      unreadableInput).1.indexGeneration.rows, g.state = .candidate := by
    decide
  obtain ⟨g, hg, hstate⟩ := hleft
  have hends := (h (by rintro ⟨report, hok, -⟩; simp [hfails] at hok)).candidate g hg rfl
  rw [hstate] at hends
  exact absurd hends (by simp)

end Failure

end WorkspaceAtlas
