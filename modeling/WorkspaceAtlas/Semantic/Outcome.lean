/-
# When a semantic reconcile blocks the activation

The documents of a plan count what they store and nothing else; the plan itself may report a
failure.  So a semantic reconcile ends with a required failure exactly when one of the plans
that it ran is required and failed.
-/
import WorkspaceAtlas.Semantic.Plan

namespace WorkspaceAtlas

open Relational Transition

section Outcome

variable {H : Hasher} {revisions : Table FileRevision} {files : Table GenerationFile}
  {gid : String} {now : Timestamp} {plan : SemanticPlan} {s s' : SemanticState}

lemma persistSymbol_requiredFailure {runId revisionId text : String} {doc : ProviderDocument}
    {sym : MappedSymbol}
    (h : persistSymbol H revisions plan runId revisionId text doc s sym = .ok s') :
    s'.2.requiredFailure = s.2.requiredFailure := by
  unfold persistSymbol at h
  cases hr : recordSemanticSymbolFact H revisions s.1 runId revisionId text
      (effectiveEncoding plan doc.mapped.positionEncoding) [doc.seen, utf8 text] sym with
  | error e => simp [hr, Except.map] at h
  | ok res =>
    rw [hr] at h
    obtain rfl := Except.ok.inj h
    dsimp only
    split <;> rfl

lemma persistRelationship_requiredFailure {runId revisionId : String} {doc : ProviderDocument}
    {rel : MappedRelationship}
    (h : persistRelationship H revisions runId revisionId doc s rel = .ok s') :
    s'.2.requiredFailure = s.2.requiredFailure := by
  unfold persistRelationship at h
  cases hr : recordSemanticRelationshipFact H revisions s.1 runId revisionId [doc.seen] rel with
  | error e => simp [hr, Except.map] at h
  | ok res =>
    rw [hr] at h
    obtain rfl := Except.ok.inj h
    rfl

/-- What storing a document comes to: nothing, or a run with its symbols and relationships. -/
inductive PersistedDocument (H : Hasher) (revisions : Table FileRevision)
    (files : Table GenerationFile) (gid : String) (plan : SemanticPlan) (now : Timestamp)
    (s : SemanticState) (doc : ProviderDocument) : SemanticState → Prop
  | skipped (hskip : documentRevision files gid doc.mapped.canonicalPath = none ∨
      doc.mapped.partlyMapped = true) :
      PersistedDocument H revisions files gid plan now s doc
        (s.1, { s.2 with documentsProcessed := s.2.documentsProcessed + 1 })
  | stored {revisionId runId : String} {t : FactTables} {mid s' : SemanticState}
      (revision : documentRevision files gid doc.mapped.canonicalPath = some revisionId)
      (whole : doc.mapped.partlyMapped = false)
      (run_ok : ensureSemanticExtractorRun H revisions s.1 revisionId plan
        (utf8 (doc.text.getD "")).length now = .ok (t, runId))
      (symbols_ok : doc.mapped.symbols.foldlM
        (persistSymbol H revisions plan runId revisionId (doc.text.getD "") doc)
        (t, { s.2 with documentsProcessed := s.2.documentsProcessed + 1 }) = .ok mid)
      (relationships_ok : doc.mapped.relationships.foldlM
        (persistRelationship H revisions runId revisionId doc) mid = .ok s') :
      PersistedDocument H revisions files gid plan now s doc s'

lemma persistDocument_ok {doc : ProviderDocument}
    (h : persistDocument H revisions files gid plan now s doc = .ok s') :
    PersistedDocument H revisions files gid plan now s doc s' := by
  unfold persistDocument at h
  dsimp only at h
  split at h
  next hnone =>
    obtain rfl := Except.ok.inj h
    exact .skipped (Or.inl hnone)
  next revisionId hrev =>
    split at h
    next hpartly =>
      obtain rfl := Except.ok.inj h
      exact .skipped (Or.inr hpartly)
    next hwhole =>
      obtain ⟨⟨t, runId⟩, hrun, hrest⟩ := bind_ok.mp h
      obtain ⟨mid, hsymbols, hrels⟩ := bind_ok.mp hrest
      exact .stored hrev (by simpa using hwhole) hrun hsymbols hrels

lemma persistDocument_requiredFailure {doc : ProviderDocument}
    (h : persistDocument H revisions files gid plan now s doc = .ok s') :
    s'.2.requiredFailure = s.2.requiredFailure := by
  cases persistDocument_ok h with
  | skipped hskip => rfl
  | @stored revisionId runId t mid _ hrev hwhole hrun hsymbols hrels =>
    have hmid : mid.2.requiredFailure = s.2.requiredFailure :=
      loop_preserves (I := fun u : SemanticState => u.2.requiredFailure = s.2.requiredFailure)
        (by rfl) (fun _ _ _ _ hI hok => (persistSymbol_requiredFailure hok).trans hI) hsymbols
    exact loop_preserves
      (I := fun u : SemanticState => u.2.requiredFailure = s.2.requiredFailure) hmid
      (fun _ _ _ _ hI hok => (persistRelationship_requiredFailure hok).trans hI) hrels

/-- The plan runs, and it is required and fails. -/
def SemanticPlan.FailsRequired (plan : SemanticPlan) : Prop :=
  plan.enabled = true ∧ plan.required = true ∧
    ∃ outcome, plan.result = .failure outcome ∧ outcome.isFailure = true

lemma recordOutcomeFailure_requiredFailure {o : SemanticOutcome} {required : Bool}
    {outcome : ProviderOutcome} : (recordOutcomeFailure o required outcome).requiredFailure = true ↔
      o.requiredFailure = true ∨ required = true ∧ outcome.isFailure = true := by
  unfold recordOutcomeFailure decideActivation
  by_cases hfail : outcome.isFailure = true
  · cases required with
    | true => simp [hfail]
    | false => simp [hfail]
  · simp [hfail]

/-- What one plan adds. -/
lemma runOnePlan_requiredFailure (h : runOnePlan H revisions files gid now s plan = .ok s') :
    s'.2.requiredFailure = true ↔ s.2.requiredFailure = true ∨ plan.FailsRequired := by
  have hnot : ∀ {r : PlanResult}, plan.result = r → (∀ outcome, r ≠ .failure outcome) →
      ¬ plan.FailsRequired := by
    rintro r rfl hr ⟨-, -, outcome, hres, -⟩
    exact hr outcome hres
  unfold runOnePlan at h
  split at h
  next hoff =>
    obtain rfl := Except.ok.inj h
    refine (or_iff_left ?_).symm
    rintro ⟨hon, -⟩
    exact hoff hon
  next hon =>
    split at h
    next e hres => exact absurd h (by simp)
    next outcome hres =>
      obtain rfl := Except.ok.inj h
      rw [recordOutcomeFailure_requiredFailure]
      refine or_congr_right ⟨fun hf => ⟨not_not.mp hon, hf.1, outcome, hres, hf.2⟩, ?_⟩
      rintro ⟨-, hreq, outcome', hres', hfail⟩
      obtain rfl := PlanResult.failure.inj (hres.symm.trans hres')
      exact ⟨hreq, hfail⟩
    next hres =>
      obtain rfl := Except.ok.inj h
      exact (or_iff_left (hnot hres (by simp))).symm
    next documents hres =>
      rw [or_iff_left (hnot hres (by simp))]
      refine iff_of_eq (congrArg (· = true) ?_)
      exact loop_preserves
        (I := fun u : SemanticState => u.2.requiredFailure = s.2.requiredFailure) (by rfl)
        (fun _ _ _ _ hI hok => (persistDocument_requiredFailure hok).trans hI) h

/-- **A required failure** is the failure of a plan that is required and ran. -/
theorem runSemanticReconcile_requiredFailure {t : FactTables} {plans : List SemanticPlan}
    (h : runSemanticReconcile H revisions files t gid plans now = .ok s') :
    s'.2.requiredFailure = true ↔ ∃ plan ∈ plans, plan.FailsRequired := by
  refine loop_invariant (I := fun done (u : SemanticState) =>
    u.2.requiredFailure = true ↔ ∃ plan ∈ done, plan.FailsRequired)
    (by simp [SemanticOutcome.start]) ?_ h
  intro done plan rest u u' _ hI hok
  rw [runOnePlan_requiredFailure hok, hI]
  simp [or_and_right, exists_or]

end Outcome

end WorkspaceAtlas
