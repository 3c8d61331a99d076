/-
# Which relationships a semantic reconcile leaves

The documents of all executed plans are stored one after the other.  Afterwards every row was
there before or is a row of a stored document, and every row of a stored document has its id
in the table, possibly with other columns.
-/
import WorkspaceAtlas.Semantic.FactRows

namespace WorkspaceAtlas

open Relational Transition

/-! ## The loop over the documents -/

/-- The documents of the enabled plans that were executed, in the order they are stored. -/
def executedDocuments (plans : List SemanticPlan) : List (SemanticPlan × ProviderDocument) :=
  plans.flatMap fun plan =>
    if plan.enabled then
      match plan.result with
      | .executed documents => documents.map (plan, ·)
      | _ => []
    else []

/-- A document of an enabled plan that was executed is stored under the revision. -/
structure StoresDocument (files : Table GenerationFile) (gid : String)
    (plans : List SemanticPlan) (plan : SemanticPlan) (rid : String) (doc : ProviderDocument) :
    Prop where
  mem : (plan, doc) ∈ executedDocuments plans
  revision : documentRevision files gid doc.mapped.canonicalPath = some rid
  whole : doc.mapped.partlyMapped = false

section Documents

variable {H : Hasher} {revisions : Table FileRevision} {files : Table GenerationFile}
  {t t' u u' : FactTables} {rid gid : String} {now : Timestamp} {plan : SemanticPlan}
  {plans : List SemanticPlan} {doc : ProviderDocument} {s s' : SemanticState}

/-- **Rule for the documents.**  What storing one document preserves holds after all. -/
theorem runSemanticReconcile_invariant
    {I : List (SemanticPlan × ProviderDocument) → FactTables → Prop} (h₀ : I [] t)
    (hstep : ∀ done plan doc s s', I done s.1 →
      persistDocument H revisions files gid plan now s doc = .ok s' →
        I (done ++ [(plan, doc)]) s'.1)
    (h : runSemanticReconcile H revisions files t gid plans now = .ok s) :
    I (executedDocuments plans) s.1 := by
  refine loop_invariant (I := fun done (u : SemanticState) => I (executedDocuments done) u.1)
    (by exact h₀) ?_ h
  intro done plan rest u u' _ hI hok
  have hmore : executedDocuments (done ++ [plan]) =
      executedDocuments done ++ executedDocuments [plan] := by
    simp [executedDocuments]
  rw [hmore]
  unfold runOnePlan at hok
  split at hok
  next hoff =>
    obtain rfl := Except.ok.inj hok
    have hnone : executedDocuments [plan] = [] := by simp [executedDocuments, hoff]
    rw [hnone, List.append_nil]
    exact hI
  next hon =>
    have hon : plan.enabled = true := not_not.mp hon
    split at hok
    next => exact absurd hok (by simp)
    next outcome hres =>
      obtain rfl := Except.ok.inj hok
      have hnone : executedDocuments [plan] = [] := by simp [executedDocuments, hres]
      rw [hnone, List.append_nil]
      exact hI
    next hres =>
      obtain rfl := Except.ok.inj hok
      have hnone : executedDocuments [plan] = [] := by simp [executedDocuments, hres]
      rw [hnone, List.append_nil]
      exact hI
    next documents hres =>
      have hall : executedDocuments [plan] = documents.map (plan, ·) := by
        simp [executedDocuments, hon, hres]
      rw [hall]
      refine loop_invariant (I := fun part (v : SemanticState) =>
        I (executedDocuments done ++ part.map (plan, ·)) v.1) (by simpa using hI) ?_ hok
      intro part doc rest' v v' _ hv hdoc
      rw [List.map_append, ← List.append_assoc]
      exact hstep _ plan doc v v' hv hdoc

/-! ## One document -/

/-- What storing a document under a revision leaves of the relationships. -/
structure DocumentRows (H : Hasher) (plan : SemanticPlan) (rid : String)
    (doc : ProviderDocument) (t t' : FactTables) : Prop where
  run : ∃ run ∈ t'.extractorRun, run.identity = plan.identity rid ∧
    run.extractorRunId = semanticRunId H t plan rid
  added : ∀ f ∈ t'.relationshipFact, f ∈ t.relationshipFact ∨
    (∃ rel ∈ doc.mapped.relationships,
      f = rel.row H (semanticRunId H t plan rid) rid [doc.seen]) ∧ f.Valid ∧
      ∀ x ∈ t.relationshipFact, ¬ Clash x f
  stored : ∀ rel ∈ doc.mapped.relationships,
    (rel.row H (semanticRunId H t plan rid) rid [doc.seen]).Valid →
      ∃ x ∈ t'.relationshipFact, Clash x (rel.row H (semanticRunId H t plan rid) rid [doc.seen])

/-- Symbols are no relationships. -/
lemma persistSymbol_frame {runId : String} {sym : MappedSymbol}
    (h : persistSymbol H revisions plan runId rid (doc.text.getD "") doc s sym = .ok s') :
    s'.1.extractorRun = s.1.extractorRun ∧ s'.1.relationshipFact = s.1.relationshipFact := by
  rcases persistSymbol_ok h with ⟨-, heq⟩ | ⟨row, -, hins⟩
  · rw [heq]
    exact ⟨rfl, rfl⟩
  · rcases insertSymbol_ok hins with ⟨heq, -⟩ | ⟨-, symbols, -, heq⟩
    · rw [heq]
      exact ⟨rfl, rfl⟩
    · rw [heq]
      exact ⟨rfl, rfl⟩

lemma persistRelationship_runs {runId : String} {rel : MappedRelationship}
    (h : persistRelationship H revisions runId rid doc s rel = .ok s') :
    s'.1.extractorRun = s.1.extractorRun := by
  rcases insertRelationship_ok (persistRelationship_ok h) with ⟨heq, -⟩ | ⟨-, rels, -, heq⟩
  · rw [heq]
  · rw [heq]

/-- The loop over the relationships of a document. -/
lemma persistRelationships_rows {runId : String} {rels : List MappedRelationship}
    (h : rels.foldlM (persistRelationship H revisions runId rid doc) s = .ok s') :
    s'.1.extractorRun = s.1.extractorRun ∧
    (∀ f ∈ s'.1.relationshipFact, f ∈ s.1.relationshipFact ∨
      (∃ rel ∈ rels, f = rel.row H runId rid [doc.seen]) ∧ f.Valid ∧
        ∀ x ∈ s.1.relationshipFact, ¬ Clash x f) ∧
    (∀ f ∈ s.1.relationshipFact, f ∈ s'.1.relationshipFact) ∧
    ∀ rel ∈ rels, (rel.row H runId rid [doc.seen]).Valid →
      ∃ x ∈ s'.1.relationshipFact, Clash x (rel.row H runId rid [doc.seen]) := by
  refine loop_invariant (I := fun done (u : SemanticState) =>
    u.1.extractorRun = s.1.extractorRun ∧
    (∀ f ∈ u.1.relationshipFact, f ∈ s.1.relationshipFact ∨
      (∃ rel ∈ done, f = rel.row H runId rid [doc.seen]) ∧ f.Valid ∧
        ∀ x ∈ s.1.relationshipFact, ¬ Clash x f) ∧
    (∀ f ∈ s.1.relationshipFact, f ∈ u.1.relationshipFact) ∧
    ∀ rel ∈ done, (rel.row H runId rid [doc.seen]).Valid →
      ∃ x ∈ u.1.relationshipFact, Clash x (rel.row H runId rid [doc.seen]))
    ⟨rfl, fun f hf => Or.inl hf, fun f hf => hf, by simp⟩ ?_ h
  rintro done rel rest u u' - ⟨hruns, hadded, hold, hstored⟩ hok
  set row := rel.row H runId rid [doc.seen] with hrow
  have hins := persistRelationship_ok hok
  have hruns' := (persistRelationship_runs hok).trans hruns
  rcases insertRelationship_ok hins with ⟨heq, hnot⟩ | ⟨hvalid, rels', hnew, heq⟩
  · -- the row is refused
    rw [heq] at hruns' ⊢
    refine ⟨hruns', fun f hf => ?_, hold, fun r hr hv => ?_⟩
    · rcases hadded f hf with hf | ⟨⟨r, hr, hfr⟩, hrest⟩
      · exact Or.inl hf
      · exact Or.inr ⟨⟨r, by simp [hr], hfr⟩, hrest⟩
    · rcases List.mem_append.mp hr with hr | hr
      · exact hstored r hr hv
      · obtain rfl := List.mem_singleton.mp hr
        rcases hnot with hinvalid | hclash
        · exact absurd hv hinvalid
        · exact hclash
  · have hmem : ∀ f, f ∈ u'.1.relationshipFact ↔ f ∈ u.1.relationshipFact ∨ f = row := by
      intro f
      rw [heq]
      exact Table.mem_of_insert? hnew
    refine ⟨hruns', fun f hf => ?_, fun f hf => (hmem f).mpr (Or.inl (hold f hf)),
      fun r hr hv => ?_⟩
    · rcases (hmem f).mp hf with hf | rfl
      · rcases hadded f hf with hf | ⟨⟨r, hr, hfr⟩, hrest⟩
        · exact Or.inl hf
        · exact Or.inr ⟨⟨r, by simp [hr], hfr⟩, hrest⟩
      · refine Or.inr ⟨⟨rel, by simp, hrow⟩, hvalid, fun x hx => ?_⟩
        exact Table.not_clash_of_insert? hnew x (hold x hx)
    · rcases List.mem_append.mp hr with hr | hr
      · obtain ⟨x, hx, hclash⟩ := hstored r hr hv
        exact ⟨x, (hmem x).mpr (Or.inl hx), hclash⟩
      · obtain rfl := List.mem_singleton.mp hr
        exact ⟨row, (hmem row).mpr (Or.inr rfl), Keyed.clash_refl row⟩

/-- A document is left alone or stored under its revision. -/
lemma persistDocument_rows (h : persistDocument H revisions files gid plan now s doc = .ok s') :
    ((documentRevision files gid doc.mapped.canonicalPath = none ∨
      doc.mapped.partlyMapped = true) ∧ s'.1 = s.1) ∨
    ∃ rid, documentRevision files gid doc.mapped.canonicalPath = some rid ∧
      doc.mapped.partlyMapped = false ∧ DocumentRows H plan rid doc s.1 s'.1 := by
  cases persistDocument_ok h with
  | skipped hskip => exact Or.inl ⟨hskip, rfl⟩
  | @stored rid runId t mid _ hrev hwhole hrun hsymbols hrels =>
    obtain ⟨hid, -, -, hsame, hrunMem, -⟩ :=
      ensureSemanticExtractorRun_ok (P := fun _ => True) hrun
    have hmid : mid.1.extractorRun = t.extractorRun ∧
        mid.1.relationshipFact = t.relationshipFact := by
      refine loop_preserves (I := fun u : SemanticState =>
        u.1.extractorRun = t.extractorRun ∧ u.1.relationshipFact = t.relationshipFact)
        ⟨rfl, rfl⟩ ?_ hsymbols
      rintro sym - u u' ⟨hruns, hrows⟩ hok
      obtain ⟨hruns', hrows'⟩ := persistSymbol_frame hok
      exact ⟨hruns'.trans hruns, hrows'.trans hrows⟩
    obtain ⟨hruns, hadded, -, hstored⟩ := persistRelationships_rows hrels
    have hstart : mid.1.relationshipFact = s.1.relationshipFact := hmid.2.trans hsame
    rw [hstart, hid] at hadded
    rw [hid] at hstored hrunMem
    refine Or.inr ⟨rid, hrev, hwhole, ⟨?_, hadded, hstored⟩⟩
    rw [hruns, hmid.1]
    exact hrunMem

/-! ## All documents -/

/-- What storing some documents leaves of the relationships. -/
structure StoredRows (H : Hasher) (files : Table GenerationFile) (gid : String)
    (documents : List (SemanticPlan × ProviderDocument)) (t t' : FactTables) : Prop where
  grows : Grows H (fun _ => True) t t'
  run : ∀ plan doc, (plan, doc) ∈ documents → ∀ rid,
    documentRevision files gid doc.mapped.canonicalPath = some rid →
    doc.mapped.partlyMapped = false → ∃ run ∈ t'.extractorRun,
      run.identity = plan.identity rid ∧ run.extractorRunId = semanticRunId H t plan rid
  added : ∀ f ∈ t'.relationshipFact, f ∈ t.relationshipFact ∨
    ∃ plan doc rid, (plan, doc) ∈ documents ∧
      documentRevision files gid doc.mapped.canonicalPath = some rid ∧
      doc.mapped.partlyMapped = false ∧
      (∃ rel ∈ doc.mapped.relationships,
        f = rel.row H (semanticRunId H t plan rid) rid [doc.seen]) ∧ f.Valid ∧
      ∀ x ∈ t.relationshipFact, ¬ Clash x f
  stored : ∀ plan doc, (plan, doc) ∈ documents → ∀ rid,
    documentRevision files gid doc.mapped.canonicalPath = some rid →
    doc.mapped.partlyMapped = false → ∀ rel ∈ doc.mapped.relationships,
      (rel.row H (semanticRunId H t plan rid) rid [doc.seen]).Valid →
        ∃ x ∈ t'.relationshipFact,
          Clash x (rel.row H (semanticRunId H t plan rid) rid [doc.seen])

lemma StoredRows.refl (H : Hasher) (files : Table GenerationFile) (gid : String)
    (t : FactTables) : StoredRows H files gid [] t t :=
  ⟨.refl _ _ _, by simp, fun _ hf => Or.inl hf, by simp⟩

/-- One more document. -/
lemma StoredRows.persistDocument {documents : List (SemanticPlan × ProviderDocument)}
    (hs : StoredRows H files gid documents t s.1)
    (h : persistDocument H revisions files gid plan now s doc = .ok s') :
    StoredRows H files gid (documents ++ [(plan, doc)]) t s'.1 := by
  have hone : Grows H (fun _ => True) s.1 s'.1 :=
    (persistDocument_grows h).imp fun _ _ => trivial
  have hrows : ∀ rid, documentRevision files gid doc.mapped.canonicalPath = some rid →
      doc.mapped.partlyMapped = false → DocumentRows H plan rid doc s.1 s'.1 := by
    intro rid hrev hwhole
    rcases persistDocument_rows h with ⟨hnone | hpartly, -⟩ | ⟨rid', hrev', -, hrows⟩
    · exact absurd (hnone.symm.trans hrev) (by simp)
    · exact absurd (hpartly.symm.trans hwhole) (by simp)
    · obtain rfl := Option.some.inj (hrev'.symm.trans hrev)
      exact hrows
  refine ⟨hs.grows.trans hone, ?_, fun f hf => ?_, ?_⟩
  · intro plan' doc' hmem rid hrev hwhole
    rcases List.mem_append.mp hmem with hmem | hmem
    · obtain ⟨run, hrun, hident⟩ := hs.run plan' doc' hmem rid hrev hwhole
      exact ⟨run, hone.runs.mem hrun, hident⟩
    · obtain ⟨rfl, rfl⟩ := Prod.mk.inj (List.mem_singleton.mp hmem)
      rw [← hs.grows.runId]
      exact (hrows rid hrev hwhole).run
  · have hold : f ∈ s.1.relationshipFact → f ∈ t.relationshipFact ∨
        ∃ plan' doc' rid, (plan', doc') ∈ documents ++ [(plan, doc)] ∧
          documentRevision files gid doc'.mapped.canonicalPath = some rid ∧
          doc'.mapped.partlyMapped = false ∧
          (∃ rel ∈ doc'.mapped.relationships,
            f = rel.row H (semanticRunId H t plan' rid) rid [doc'.seen]) ∧ f.Valid ∧
          ∀ x ∈ t.relationshipFact, ¬ Clash x f := by
      intro hf
      rcases hs.added f hf with hf | ⟨plan', doc', rid, hmem, hrest⟩
      · exact Or.inl hf
      · exact Or.inr ⟨plan', doc', rid, by simp [hmem], hrest⟩
    rcases persistDocument_rows h with ⟨-, heq⟩ | ⟨rid, hrev, hwhole, hdoc⟩
    · exact hold (heq ▸ hf)
    · rcases hdoc.added f hf with hf | ⟨hrel, hvalid, hfree⟩
      · exact hold hf
      · rw [hs.grows.runId] at hrel
        exact Or.inr ⟨plan, doc, rid, by simp, hrev, hwhole, hrel, hvalid,
          fun x hx => hfree x (hs.grows.relationships.mem hx)⟩
  · intro plan' doc' hmem rid hrev hwhole rel hrel hvalid
    rcases List.mem_append.mp hmem with hmem | hmem
    · obtain ⟨x, hx, hclash⟩ := hs.stored plan' doc' hmem rid hrev hwhole rel hrel hvalid
      exact ⟨x, hone.relationships.mem hx, hclash⟩
    · obtain ⟨rfl, rfl⟩ := Prod.mk.inj (List.mem_singleton.mp hmem)
      have hall := (hrows rid hrev hwhole).stored rel hrel
      rw [hs.grows.runId] at hall
      exact hall hvalid

/-- **A semantic reconcile** stores the relationships of the executed documents. -/
theorem runSemanticReconcile_rows
    (h : runSemanticReconcile H revisions files t gid plans now = .ok s) :
    StoredRows H files gid (executedDocuments plans) t s.1 :=
  runSemanticReconcile_invariant (I := fun documents u => StoredRows H files gid documents t u)
    (.refl H files gid t) (fun _ _ _ _ _ hs hok => hs.persistDocument hok) h

/-- A relationship that was stored has the run of its document. -/
lemma StoredRows.runsStored {documents : List (SemanticPlan × ProviderDocument)}
    (h : StoredRows H files gid documents t t') (ht : RunsStored t) : RunsStored t' := by
  intro f hf
  rcases h.added f hf with hf | ⟨plan, doc, rid, hmem, hrev, hwhole, ⟨rel, -, rfl⟩, -⟩
  · obtain ⟨r, hr, hid⟩ := ht f hf
    exact ⟨r, h.grows.runs.mem hr, hid⟩
  · obtain ⟨run, hrun, -, hid⟩ := h.run plan doc hmem rid hrev hwhole
    exact ⟨run, hrun, hid⟩

end Documents

end WorkspaceAtlas
