/-
# Which rows the providers add

Facts are only inserted.  A built-in provider inserts under the revision that the walk has
just created, a semantic provider under the revision that the candidate has for the path of a
document, old or new.  A document all of whose rows are refused, because they clash with
stored ones, adds nothing.
-/
import WorkspaceAtlas.Relational.Growth
import WorkspaceAtlas.Semantic.Outcome

namespace WorkspaceAtlas

open Relational Transition

/-- The facts of `t'` are those of `t` and new ones, of revisions that meet `P`. -/
structure Adds (P : String → Prop) (t t' : FactTables) : Prop where
  runs : Table.Extends (fun _ => True) t.extractorRun t'.extractorRun
  symbols : Table.Extends (fun f => P f.revisionId) t.symbolFact t'.symbolFact
  relationships : Table.Extends (fun f => P f.revisionId) t.relationshipFact t'.relationshipFact

section Rows

variable {H : Hasher} {revisions : Table FileRevision} {t t' t'' : FactTables}
  {P Q : String → Prop} {rid gid : String} {now : Timestamp}

lemma Adds.refl (P : String → Prop) (t : FactTables) : Adds P t t :=
  ⟨.refl _ _, .refl _ _, .refl _ _⟩

lemma Adds.trans (h : Adds P t t') (h' : Adds P t' t'') : Adds P t t'' :=
  ⟨h.runs.trans h'.runs, h.symbols.trans h'.symbols, h.relationships.trans h'.relationships⟩

lemma Adds.imp (h : Adds P t t') (hPQ : ∀ r, P r → Q r) : Adds Q t t' :=
  ⟨h.runs, h.symbols.imp fun f => hPQ f.revisionId,
    h.relationships.imp fun f => hPQ f.revisionId⟩

/-! ## Insertions -/

lemma insertRun_ok {row : ExtractorRun} (h : t.insertRun revisions row = .ok t') :
    ∃ runs, t.extractorRun.insert? row = some runs ∧ t' = { t with extractorRun := runs } := by
  unfold FactTables.insertRun at h
  split at h
  next => exact absurd h (by simp)
  next runs hins =>
    split at h
    next => exact ⟨runs, hins, (Except.ok.inj h).symm⟩
    next => exact absurd h (by simp)

lemma insertRun_adds {row : ExtractorRun} (h : t.insertRun revisions row = .ok t') :
    Adds P t t' := by
  obtain ⟨runs, hins, rfl⟩ := insertRun_ok h
  exact ⟨Table.extends_insert? hins trivial, .refl _ _, .refl _ _⟩

/-- A symbol is inserted, or dropped. -/
lemma insertSymbol_ok {row : SymbolFact} (h : t.insertSymbol revisions row = .ok t') :
    (t' = t ∧ (¬ row.Valid ∨ ∃ x ∈ t.symbolFact, Clash x row)) ∨
      row.Valid ∧ ∃ symbols, t.symbolFact.insert? row = some symbols ∧
        t' = { t with symbolFact := symbols } := by
  unfold FactTables.insertSymbol at h
  split at h
  next hvalid =>
    split at h
    next hnone =>
      exact Or.inl ⟨(Except.ok.inj h).symm, Or.inr (Table.insert?_eq_none.mp hnone)⟩
    next symbols hins =>
      split at h
      next => exact Or.inr ⟨hvalid, symbols, hins, (Except.ok.inj h).symm⟩
      next => exact absurd h (by simp)
  next hvalid => exact Or.inl ⟨(Except.ok.inj h).symm, Or.inl hvalid⟩

lemma insertSymbol_adds {row : SymbolFact} (h : t.insertSymbol revisions row = .ok t')
    (hP : P row.revisionId) : Adds P t t' := by
  rcases insertSymbol_ok h with ⟨rfl, -⟩ | ⟨-, symbols, hins, rfl⟩
  · exact .refl _ _
  · exact ⟨.refl _ _, Table.extends_insert? hins hP, .refl _ _⟩

/-- A relationship is inserted, or dropped. -/
lemma insertRelationship_ok {row : RelationshipFact}
    (h : t.insertRelationship revisions row = .ok t') :
    (t' = t ∧ (¬ row.Valid ∨ ∃ x ∈ t.relationshipFact, Clash x row)) ∨
      row.Valid ∧ ∃ relationships, t.relationshipFact.insert? row = some relationships ∧
        t' = { t with relationshipFact := relationships } := by
  unfold FactTables.insertRelationship at h
  split at h
  next hvalid =>
    split at h
    next hnone =>
      exact Or.inl ⟨(Except.ok.inj h).symm, Or.inr (Table.insert?_eq_none.mp hnone)⟩
    next relationships hins =>
      split at h
      next => exact Or.inr ⟨hvalid, relationships, hins, (Except.ok.inj h).symm⟩
      next => exact absurd h (by simp)
  next hvalid => exact Or.inl ⟨(Except.ok.inj h).symm, Or.inl hvalid⟩

lemma insertRelationship_adds {row : RelationshipFact}
    (h : t.insertRelationship revisions row = .ok t') (hP : P row.revisionId) :
    Adds P t t' := by
  rcases insertRelationship_ok h with ⟨rfl, -⟩ | ⟨-, relationships, hins, rfl⟩
  · exact .refl _ _
  · exact ⟨.refl _ _, .refl _ _, Table.extends_insert? hins hP⟩

/-- A diagnostic is inserted, or dropped. -/
lemma insertDiagnostic_ok {row : Diagnostic} (h : t.insertDiagnostic row = .ok t') :
    ∃ diagnostics, t' = { t with diagnostic := diagnostics } := by
  unfold FactTables.insertDiagnostic at h
  split at h
  next => exact ⟨t.diagnostic, (Except.ok.inj h).symm⟩
  next diagnostics _ =>
    split at h
    next => exact ⟨diagnostics, (Except.ok.inj h).symm⟩
    next => exact absurd h (by simp)

lemma insertDiagnostic_adds {row : Diagnostic} (h : t.insertDiagnostic row = .ok t') :
    Adds P t t' := by
  obtain ⟨diagnostics, rfl⟩ := insertDiagnostic_ok h
  exact ⟨.refl _ _, .refl _ _, .refl _ _⟩

/-! ## A built-in provider -/

/-- A batch is stored under its revision. -/
lemma persistProviderBatch_adds {byteSize : ℕ} {seen : List (List UInt8)}
    {batch : NormalizedBatch}
    (h : persistProviderBatch H revisions t rid byteSize seen batch now = .ok t') :
    Adds (· = rid) t t' := by
  unfold persistProviderBatch at h
  dsimp only at h
  split at h
  next =>
    obtain rfl := Except.ok.inj h
    exact .refl _ _
  next =>
    simp only [bind_ok] at h
    obtain ⟨t₁, hrun, t₂, hsymbols, t₃, hrels, hdiags⟩ := h
    have h₁ : Adds (· = rid) t t₁ := insertRun_adds hrun
    have h₂ : Adds (· = rid) t t₂ := loop_preserves (I := fun u => Adds (· = rid) t u) h₁
      (fun _ _ _ _ hI hok => hI.trans (insertSymbol_adds hok rfl)) hsymbols
    have h₃ : Adds (· = rid) t t₃ := loop_preserves (I := fun u => Adds (· = rid) t u) h₂
      (fun _ _ _ _ hI hok => hI.trans (insertRelationship_adds hok rfl)) hrels
    exact loop_preserves (I := fun u => Adds (· = rid) t u) h₃
      (fun _ _ _ _ hI hok => hI.trans (insertDiagnostic_adds hok)) hdiags

/-! ## The runs of the facts -/

/-- Every relationship has its run. -/
def RunsStored (t : FactTables) : Prop :=
  ∀ f ∈ t.relationshipFact, ∃ r ∈ t.extractorRun, r.extractorRunId = f.extractorRunId

lemma RunsStored.empty : RunsStored .empty := fun _ hf => absurd hf Table.not_mem_empty

lemma RunsStored.insertRun {row : ExtractorRun} (ht : RunsStored t)
    (h : t.insertRun revisions row = .ok t') : RunsStored t' := by
  obtain ⟨runs, hins, rfl⟩ := insertRun_ok h
  intro f hf
  obtain ⟨r, hr, hid⟩ := ht f hf
  exact ⟨r, (Table.mem_of_insert? hins).mpr (Or.inl hr), hid⟩

lemma RunsStored.insertSymbol {row : SymbolFact} (ht : RunsStored t)
    (h : t.insertSymbol revisions row = .ok t') : RunsStored t' := by
  rcases insertSymbol_ok h with ⟨rfl, -⟩ | ⟨-, symbols, -, rfl⟩
  · exact ht
  · exact ht

/-- The foreign key is checked. -/
lemma RunsStored.insertRelationship {row : RelationshipFact} (ht : RunsStored t)
    (h : t.insertRelationship revisions row = .ok t') : RunsStored t' := by
  unfold FactTables.insertRelationship at h
  split at h
  next =>
    split at h
    next =>
      obtain rfl := Except.ok.inj h
      exact ht
    next rels hins =>
      split at h
      next hkeys =>
        obtain rfl := Except.ok.inj h
        intro f hf
        rcases (Table.mem_of_insert? hins).mp hf with hf | rfl
        · exact ht f hf
        · obtain ⟨r, hr, hid⟩ := List.any_eq_true.mp hkeys.1
          exact ⟨r, hr, by simpa using hid⟩
      next => exact absurd h (by simp)
  next =>
    obtain rfl := Except.ok.inj h
    exact ht

lemma RunsStored.persistProviderBatch {byteSize : ℕ} {seen : List (List UInt8)}
    {batch : NormalizedBatch} (ht : RunsStored t)
    (h : persistProviderBatch H revisions t rid byteSize seen batch now = .ok t') :
    RunsStored t' := by
  unfold WorkspaceAtlas.persistProviderBatch at h
  dsimp only at h
  split at h
  next =>
    obtain rfl := Except.ok.inj h
    exact ht
  next =>
    simp only [bind_ok] at h
    obtain ⟨t₁, hrun, t₂, hsymbols, t₃, hrels, hdiags⟩ := h
    have h₂ : RunsStored t₂ := loop_preserves (I := RunsStored) (ht.insertRun hrun)
      (fun _ _ _ _ hI hok => hI.insertSymbol hok) hsymbols
    have h₃ : RunsStored t₃ := loop_preserves (I := RunsStored) h₂
      (fun _ _ _ _ hI hok => hI.insertRelationship hok) hrels
    refine loop_preserves (I := RunsStored) h₃ ?_ hdiags
    rintro message - u u' hu hok
    obtain ⟨diagnostics, rfl⟩ := insertDiagnostic_ok hok
    exact hu

/-- A batch without relationships adds none. -/
lemma persistProviderBatch_noRelationships {byteSize : ℕ} {seen : List (List UInt8)}
    {batch : NormalizedBatch} (hnone : batch.relationships = [])
    (h : persistProviderBatch H revisions t rid byteSize seen batch now = .ok t') :
    t'.relationshipFact = t.relationshipFact := by
  unfold persistProviderBatch at h
  dsimp only at h
  split at h
  next => rw [Except.ok.inj h]
  next =>
    simp only [bind_ok] at h
    obtain ⟨t₁, hrun, t₂, hsymbols, t₃, hrels, hdiags⟩ := h
    obtain ⟨runs, -, rfl⟩ := insertRun_ok hrun
    have h₁ : { t with extractorRun := runs }.relationshipFact = t.relationshipFact := rfl
    have h₂ : t₂.relationshipFact = t.relationshipFact := by
      refine loop_preserves (I := fun u : FactTables => u.relationshipFact = t.relationshipFact)
        h₁ ?_ hsymbols
      rintro sym - u u' hu hok
      rcases insertSymbol_ok hok with ⟨rfl, -⟩ | ⟨-, symbols, -, rfl⟩
      · exact hu
      · exact hu
    rw [hnone] at hrels
    obtain rfl := Except.ok.inj hrels
    refine loop_preserves (I := fun u : FactTables => u.relationshipFact = t.relationshipFact)
      h₂ ?_ hdiags
    rintro message - u u' hu hok
    obtain ⟨diagnostics, rfl⟩ := insertDiagnostic_ok hok
    exact hu

/-! ## A document -/

/-- The columns a run of a semantic provider is unique in. -/
def SemanticPlan.identity (plan : SemanticPlan) (rid : String) :
    String × String × String × String × String :=
  (rid, plan.providerName, plan.providerVersion, plan.configurationHash, "1.1.0")

/-- The id of the run of a plan over a revision, stored or new. -/
def semanticRunId (H : Hasher) (t : FactTables) (plan : SemanticPlan) (rid : String) : String :=
  ((t.extractorRun.find? fun r => r.identity = plan.identity rid).map
    ExtractorRun.extractorRunId).getD
    (deterministicId H "run" [rid, plan.providerName, plan.providerVersion,
      plan.configurationHash, "1.1.0"])

/-- A run is found or inserted; either way it has the id, and no other run changes. -/
lemma ensureSemanticExtractorRun_ok {plan : SemanticPlan} {bytesTotal : ℕ} {runId : String}
    (h : ensureSemanticExtractorRun H revisions t rid plan bytesTotal now = .ok (t', runId)) :
    runId = semanticRunId H t plan rid ∧ Adds P t t' ∧
      t'.symbolFact = t.symbolFact ∧ t'.relationshipFact = t.relationshipFact ∧
      (∃ run ∈ t'.extractorRun, run.identity = plan.identity rid ∧ run.extractorRunId = runId) ∧
      ∀ plan' rid', semanticRunId H t' plan' rid' = semanticRunId H t plan' rid' := by
  unfold ensureSemanticExtractorRun at h
  dsimp only at h
  split at h
  next r hr =>
    obtain ⟨rfl, rfl⟩ := Prod.mk.inj (Except.ok.inj h)
    have hid : semanticRunId H t plan rid = r.extractorRunId := by
      unfold semanticRunId SemanticPlan.identity
      rw [hr]
      rfl
    exact ⟨hid.symm, .refl _ _, rfl, rfl,
      ⟨r, Table.mem_of_find? hr, by simpa [SemanticPlan.identity] using Table.find?_some hr, rfl⟩,
      fun _ _ => rfl⟩
  next hnone =>
    generalize hins : t.insertRun revisions _ = res at h
    cases res with
    | error e => exact absurd h (by simp [Except.map])
    | ok t₁ =>
      obtain ⟨rfl, rfl⟩ := Prod.mk.inj (Except.ok.inj h)
      obtain ⟨runs, hrow, heq⟩ := insertRun_ok hins
      refine ⟨?_, insertRun_adds hins, by rw [heq], by rw [heq], ?_, ?_⟩
      · unfold semanticRunId SemanticPlan.identity
        rw [hnone]
        rfl
      · rw [heq]
        exact ⟨_, (Table.mem_of_insert? hrow).mpr (Or.inr rfl), rfl, rfl⟩
      · intro plan' rid'
        rw [heq]
        show ((runs.find? _).map _).getD _ = _
        rw [Table.find?_of_insert? hrow]
        unfold semanticRunId
        cases hfind : t.extractorRun.find? fun r => r.identity = plan'.identity rid' with
        | some r => rfl
        | none =>
          rw [Option.none_or]
          split
          next hsame =>
            -- the new run has the id that the plan would give it
            simp only [ExtractorRun.identity, SemanticPlan.identity, Prod.mk.injEq,
              decide_eq_true_eq] at hsame
            obtain ⟨rfl, hname, hversion, hconfig, -⟩ := hsame
            simp [hname, hversion, hconfig]
          next => rfl

/-- The row of a mapped symbol, if its span is in the text. -/
def MappedSymbol.row? (H : Hasher) (plan : SemanticPlan) (runId rid : String)
    (doc : ProviderDocument) (sym : MappedSymbol) : Option SymbolFact :=
  let text := (doc.text.getD "").toList
  let encoding := effectiveEncoding plan doc.mapped.positionEncoding
  match scipPositionToByteOffset text sym.startLine sym.startColumn encoding,
      scipPositionToByteOffset text sym.endLine sym.endColumn encoding with
  | some startByte, some endByte =>
    if startByte ≤ endByte then
      some (sym.row H runId rid [doc.seen, utf8 (doc.text.getD "")] startByte endByte)
    else none
  | _, _ => none

/-- A symbol with a span is inserted; any other leaves the facts alone. -/
lemma persistSymbol_ok {plan : SemanticPlan} {runId : String} {doc : ProviderDocument}
    {s s' : SemanticState} {sym : MappedSymbol}
    (h : persistSymbol H revisions plan runId rid (doc.text.getD "") doc s sym = .ok s') :
    (sym.row? H plan runId rid doc = none ∧ s'.1 = s.1) ∨
      ∃ row, sym.row? H plan runId rid doc = some row ∧
        s.1.insertSymbol revisions row = .ok s'.1 := by
  unfold persistSymbol recordSemanticSymbolFact at h
  unfold MappedSymbol.row?
  dsimp only at h ⊢
  generalize scipPositionToByteOffset _ sym.startLine sym.startColumn _ = start at h ⊢
  generalize scipPositionToByteOffset _ sym.endLine sym.endColumn _ = stop at h ⊢
  cases start with
  | none =>
    obtain rfl := Except.ok.inj h
    exact Or.inl ⟨rfl, rfl⟩
  | some startByte =>
    cases stop with
    | none =>
      obtain rfl := Except.ok.inj h
      exact Or.inl ⟨rfl, rfl⟩
    | some endByte =>
      dsimp only at h ⊢
      by_cases hle : startByte ≤ endByte
      · rw [if_pos hle] at h ⊢
        refine Or.inr ⟨_, rfl, ?_⟩
        generalize s.1.insertSymbol revisions _ = res at h ⊢
        cases res with
        | error e => exact absurd h (by simp [Except.map])
        | ok t =>
          obtain rfl := Except.ok.inj h
          rfl
      · rw [if_neg hle] at h ⊢
        obtain rfl := Except.ok.inj h
        exact Or.inl ⟨rfl, rfl⟩

lemma MappedSymbol.revisionId_of_row? {plan : SemanticPlan} {runId : String}
    {doc : ProviderDocument} {sym : MappedSymbol} {row : SymbolFact}
    (h : sym.row? H plan runId rid doc = some row) : row.revisionId = rid := by
  unfold MappedSymbol.row? at h
  dsimp only at h
  split at h
  next =>
    split at h
    next =>
      obtain rfl := Option.some.inj h
      rfl
    next => exact absurd h (by simp)
  next => exact absurd h (by simp)

lemma persistRelationship_ok {runId : String} {doc : ProviderDocument} {s s' : SemanticState}
    {rel : MappedRelationship} (h : persistRelationship H revisions runId rid doc s rel = .ok s') :
    s.1.insertRelationship revisions (rel.row H runId rid [doc.seen]) = .ok s'.1 := by
  unfold persistRelationship recordSemanticRelationshipFact at h
  generalize s.1.insertRelationship revisions _ = res at h ⊢
  cases res with
  | error e => exact absurd h (by simp [Except.map])
  | ok t =>
    obtain rfl := Except.ok.inj h
    rfl

/-- Every row that the document would add under the revision clashes with a stored one. -/
structure Stored (H : Hasher) (t : FactTables) (plan : SemanticPlan) (rid : String)
    (doc : ProviderDocument) : Prop where
  symbols : ∀ sym ∈ doc.mapped.symbols, ∀ row,
    sym.row? H plan (semanticRunId H t plan rid) rid doc = some row → row.Valid →
      ∃ x ∈ t.symbolFact, Clash x row
  relationships : ∀ rel ∈ doc.mapped.relationships,
    (rel.row H (semanticRunId H t plan rid) rid [doc.seen]).Valid →
      ∃ x ∈ t.relationshipFact, Clash x (rel.row H (semanticRunId H t plan rid) rid [doc.seen])

/-- The facts grow, and no run gets another id. -/
structure Grows (H : Hasher) (P : String → Prop) (t t' : FactTables) : Prop extends
    Adds P t t' where
  runId : ∀ plan rid, semanticRunId H t' plan rid = semanticRunId H t plan rid

lemma Grows.refl (H : Hasher) (P : String → Prop) (t : FactTables) : Grows H P t t :=
  ⟨.refl _ _, fun _ _ => rfl⟩

lemma Grows.trans (h : Grows H P t t') (h' : Grows H P t' t'') : Grows H P t t'' :=
  ⟨h.toAdds.trans h'.toAdds, fun plan rid => (h'.runId plan rid).trans (h.runId plan rid)⟩

lemma Grows.imp (h : Grows H P t t') (hPQ : ∀ r, P r → Q r) : Grows H Q t t' :=
  ⟨h.toAdds.imp hPQ, h.runId⟩

/-- What is stored stays stored. -/
lemma Stored.mono {plan : SemanticPlan} {doc : ProviderDocument} (h : Stored H t plan rid doc)
    (hg : Grows H P t t') : Stored H t' plan rid doc := by
  constructor
  · intro sym hsym row hrow hvalid
    rw [hg.runId] at hrow
    obtain ⟨x, hx, hclash⟩ := h.symbols sym hsym row hrow hvalid
    exact ⟨x, hg.symbols.mem hx, hclash⟩
  · intro rel hrel hvalid
    rw [hg.runId] at hvalid ⊢
    obtain ⟨x, hx, hclash⟩ := h.relationships rel hrel hvalid
    exact ⟨x, hg.relationships.mem hx, hclash⟩

/-- Symbols and relationships leave the runs alone. -/
lemma Adds.grows (h : Adds P t t') (hruns : t'.extractorRun = t.extractorRun) : Grows H P t t' :=
  ⟨h, fun plan rid => by rw [semanticRunId, semanticRunId, hruns]⟩

lemma insertSymbol_grows {row : SymbolFact} (h : t.insertSymbol revisions row = .ok t')
    (hP : P row.revisionId) : Grows H P t t' := by
  refine (insertSymbol_adds h hP).grows ?_
  rcases insertSymbol_ok h with ⟨rfl, -⟩ | ⟨-, symbols, -, rfl⟩
  · rfl
  · rfl

lemma insertRelationship_grows {row : RelationshipFact}
    (h : t.insertRelationship revisions row = .ok t') (hP : P row.revisionId) :
    Grows H P t t' := by
  refine (insertRelationship_adds h hP).grows ?_
  rcases insertRelationship_ok h with ⟨rfl, -⟩ | ⟨-, relationships, -, rfl⟩
  · rfl
  · rfl

/-- **A document** adds facts under its revision, and none if they are stored. -/
lemma persistDocument_grows {files : Table GenerationFile} {plan : SemanticPlan}
    {s s' : SemanticState} {doc : ProviderDocument}
    (h : persistDocument H revisions files gid plan now s doc = .ok s') :
    Grows H (fun r => documentRevision files gid doc.mapped.canonicalPath = some r ∧
      doc.mapped.partlyMapped = false ∧ ¬ Stored H s.1 plan r doc) s.1 s'.1 := by
  cases persistDocument_ok h with
  | skipped hskip => exact .refl _ _ _
  | @stored revisionId runId t mid _ hrev hwhole hrun hsymbols hrels =>
    set P : String → Prop := fun r => documentRevision files gid doc.mapped.canonicalPath =
      some r ∧ doc.mapped.partlyMapped = false ∧ ¬ Stored H s.1 plan r doc with hP
    obtain ⟨hid, hadds, hsame, hsame', -, hkeep⟩ :=
      ensureSemanticExtractorRun_ok (P := P) hrun
    have hstart : Grows H P s.1 t := ⟨hadds, hkeep⟩
    by_cases hst : Stored H s.1 plan revisionId doc
    · -- every insertion is refused
      have hst' := hst.mono hstart
      have hrunId : runId = semanticRunId H t plan revisionId := hid.trans (hkeep _ _).symm
      have hmid : mid.1 = t := by
        refine loop_preserves (I := fun u : SemanticState => u.1 = t) (by rfl) ?_ hsymbols
        rintro sym hsym u u' hu hok
        rcases persistSymbol_ok hok with ⟨-, heq⟩ | ⟨row, hrow, hins⟩
        · exact heq.trans hu
        · rw [hu] at hins
          rw [hrunId] at hrow
          rcases insertSymbol_ok hins with ⟨heq, -⟩ | ⟨hvalid, symbols, hins', -⟩
          · exact heq
          · obtain ⟨x, hx, hclash⟩ := hst'.symbols sym hsym row hrow hvalid
            exact absurd hclash (Table.not_clash_of_insert? hins' x hx)
      have hend : s'.1 = t := by
        refine loop_preserves (I := fun u : SemanticState => u.1 = t) hmid ?_ hrels
        rintro rel hrel u u' hu hok
        have hins := persistRelationship_ok hok
        rw [hu, hrunId] at hins
        rcases insertRelationship_ok hins with ⟨heq, -⟩ | ⟨hvalid, relationships, hins', -⟩
        · exact heq
        · obtain ⟨x, hx, hclash⟩ := hst'.relationships rel hrel hvalid
          exact absurd hclash (Table.not_clash_of_insert? hins' x hx)
      rw [hend]
      exact hstart
    · have hPrev : P revisionId := ⟨hrev, hwhole, hst⟩
      have hmid : Grows H P s.1 mid.1 := by
        refine loop_preserves (I := fun u : SemanticState => Grows H P s.1 u.1) (by exact hstart)
          ?_ hsymbols
        rintro sym hsym u u' hu hok
        rcases persistSymbol_ok hok with ⟨-, heq⟩ | ⟨row, hrow, hins⟩
        · rw [heq]
          exact hu
        · refine hu.trans (insertSymbol_grows hins ?_)
          rw [MappedSymbol.revisionId_of_row? hrow]
          exact hPrev
      refine loop_preserves (I := fun u : SemanticState => Grows H P s.1 u.1) hmid ?_ hrels
      rintro rel hrel u u' hu hok
      exact hu.trans (insertRelationship_grows (persistRelationship_ok hok) hPrev)

/-! ## All plans -/

/-- Some executed plan has a document of the revision that is not stored. -/
def AddsUnder (H : Hasher) (t : FactTables) (files : Table GenerationFile) (gid : String)
    (plans : List SemanticPlan) (rid : String) : Prop :=
  ∃ plan ∈ plans, plan.enabled = true ∧ ∃ documents, plan.result = .executed documents ∧
    ∃ doc ∈ documents, documentRevision files gid doc.mapped.canonicalPath = some rid ∧
      doc.mapped.partlyMapped = false ∧ ¬ Stored H t plan rid doc

lemma runOnePlan_grows {files : Table GenerationFile} {plan : SemanticPlan}
    {plans : List SemanticPlan} (hplan : plan ∈ plans) {s s' : SemanticState}
    (hs : Grows H (AddsUnder H t files gid plans) t s.1)
    (h : runOnePlan H revisions files gid now s plan = .ok s') :
    Grows H (AddsUnder H t files gid plans) t s'.1 := by
  unfold runOnePlan at h
  split at h
  next =>
    obtain rfl := Except.ok.inj h
    exact hs
  next hon =>
    split at h
    next => exact absurd h (by simp)
    next =>
      obtain rfl := Except.ok.inj h
      exact hs
    next =>
      obtain rfl := Except.ok.inj h
      exact hs
    next documents hres =>
      refine loop_preserves
        (I := fun u : SemanticState => Grows H (AddsUnder H t files gid plans) t u.1)
        (by exact hs) ?_ h
      intro doc hdoc u u' hu hok
      refine hu.trans ((persistDocument_grows hok).imp ?_)
      rintro r ⟨hrev, hwhole, hnot⟩
      exact ⟨plan, hplan, not_not.mp hon, documents, hres, doc, hdoc, hrev, hwhole,
        fun hst => hnot (hst.mono hu)⟩

/-- **A semantic reconcile** adds facts only under revisions of documents that are not
stored. -/
theorem runSemanticReconcile_grows {files : Table GenerationFile} {plans : List SemanticPlan}
    {s : SemanticState} (h : runSemanticReconcile H revisions files t gid plans now = .ok s) :
    Grows H (AddsUnder H t files gid plans) t s.1 := by
  refine loop_preserves
    (I := fun u : SemanticState => Grows H (AddsUnder H t files gid plans) t u.1)
    (.refl _ _ _) ?_ h
  exact fun plan hplan u u' hu hok => runOnePlan_grows hplan hu hok

end Rows

end WorkspaceAtlas
