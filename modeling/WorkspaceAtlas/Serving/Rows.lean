/-
# The rows behind a projection

Every relationship that a generation reaches has one run, so the rows that edges are made of
are the relationships of the view, sorted; every fact has at most one resolution in the
generation, as all resolutions are written under one policy.
-/
import WorkspaceAtlas.Serving.Build
import WorkspaceAtlas.Semantic.FactRows

namespace WorkspaceAtlas

open Relational

section Rows

variable {H : Hasher} {c : Catalogue} {truth : Truth} {gid sgid key value : String}
  {cf : CurrentFile} {f : RelationshipFact} {sf : SymbolFact} {kind : RefKind}

/-! ## Entities -/

/-- Only the id of a symbol is the id of that symbol. -/
lemma entityIdFor_eq_symbol :
    entityIdFor kind value = "symbol:" ++ key ↔ kind = .symbol ∧ value = key := by
  cases kind with
  | symbol => simp only [entityIdFor, stem_append_inj, true_and]
  | path =>
    refine iff_of_false (fun h => ?_) (by simp)
    have hlist := congrArg String.toList h
    simp [entityIdFor] at hlist
  | external =>
    refine iff_of_false (fun h => ?_) (by simp)
    have hlist := congrArg String.toList h
    simp [entityIdFor] at hlist

/-! ## The relationships of the view -/

lemma mem_currentRelationships : (cf, f) ∈ c.currentRelationships gid ↔
    cf ∈ c.currentFileOf gid ∧ f ∈ c.facts.relationshipFact ∧
      cf.revisionId = some f.revisionId := by
  rw [Catalogue.currentRelationships, mem_join, decide_eq_true_eq, Table.mem_def]

lemma generationId_of_mem (h : cf ∈ c.currentFileOf gid) : cf.generationId = gid := by
  simpa using (List.mem_filter.mp h).2

/-- The run of a fact. -/
lemma filter_runs (t : FactTables) (id : String) :
    (t.extractorRun.rows.filter fun er => er.extractorRunId = id) =
      (t.extractorRun.find? fun er => er.extractorRunId = id).toList := by
  refine Table.filter_eq_toList fun x _ y _ hx hy => Or.inl ?_
  rw [of_decide_eq_true hx, of_decide_eq_true hy]

/-- A join with the runs of stored facts loses no row and repeats none. -/
lemma map_fst_join_runs {α : Type} {t : FactTables} {l : List α} {runId : α → String}
    (h : ∀ a ∈ l, ∃ r ∈ t.extractorRun, r.extractorRunId = runId a) :
    (join l t.extractorRun.rows fun a er => er.extractorRunId = runId a).map Prod.fst = l := by
  rw [map_fst_join fun a _ => filter_runs t (runId a), List.filter_eq_self]
  intro a ha
  obtain ⟨r, hr, hid⟩ := h a ha
  rw [Option.isSome_iff_ne_none]
  intro hnone
  exact absurd (decide_eq_true hid) (by simp [Table.find?_eq_none.mp hnone r hr])

/-- **The rows of the edges** are the relationships of the view. -/
lemma perm_relationshipRows (hruns : RunsStored c.facts) (gid : String) :
    List.Perm ((relationshipRowsOf c gid).map Prod.fst) (c.currentRelationships gid) := by
  have hjoin : ((join (c.currentRelationships gid) c.facts.extractorRun.rows fun p er =>
      er.extractorRunId = p.2.extractorRunId).map Prod.fst) = c.currentRelationships gid := by
    refine map_fst_join_runs fun p hp => ?_
    obtain ⟨r, hr, hid⟩ := hruns p.2 (mem_currentRelationships.mp hp).2.1
    exact ⟨r, hr, hid⟩
  rw [relationshipRowsOf]
  refine (List.Perm.map Prod.fst perm_orderBy).trans ?_
  rw [hjoin]

/-- Edges are counted by the relationships that they are made of. -/
lemma countP_edges (hruns : RunsStored c.facts) {q : ServingEdge → Bool}
    {q' : CurrentFile × RelationshipFact → Bool} {edge : RelationshipRow → ServingEdge}
    (h : ∀ row ∈ relationshipRowsOf c gid, q (edge row) = q' row.1) :
    ((relationshipRowsOf c gid).map edge).countP q = (c.currentRelationships gid).countP q' := by
  rw [← (perm_relationshipRows hruns gid).countP_eq q', List.countP_map, List.countP_map]
  refine List.countP_congr fun row hrow => ?_
  simp only [Function.comp_apply]
  rw [h row hrow]

/-! ## Resolutions -/

/-- All resolutions of the generation were written under the policy of the resolver. -/
def OnePolicy (resolutions : Table RelationshipResolution) (gid : String) : Prop :=
  ∀ r ∈ resolutions, r.generationId = gid → r.resolverPolicyVersion = resolverPolicyVersion

/-- A generation has at most one resolution of a fact. -/
lemma OnePolicy.clash {resolutions : Table RelationshipResolution} {id : String}
    {r r' : RelationshipResolution} (h : OnePolicy resolutions gid) (hr : r ∈ resolutions)
    (hr' : r' ∈ resolutions)
    (hp : decide (r.generationId = gid ∧ r.relationshipFactId = id) = true)
    (hp' : decide (r'.generationId = gid ∧ r'.relationshipFactId = id) = true) : Clash r r' := by
  obtain ⟨hgid, hid⟩ := of_decide_eq_true hp
  obtain ⟨hgid', hid'⟩ := of_decide_eq_true hp'
  show (_, _, _) = (_, _, _)
  rw [hgid, hgid', hid, hid', h r hr hgid, h r' hr' hgid']

lemma resolutionOf_eq_some (h : OnePolicy truth.resolutions gid) {id : String}
    {r : RelationshipResolution} : resolutionOf truth gid id = some r ↔
      r ∈ truth.resolutions ∧ r.generationId = gid ∧ r.relationshipFactId = id := by
  rw [resolutionOf, Table.find?_eq_some_iff fun x hx y hy => h.clash hx hy, decide_eq_true_eq]

lemma filter_resolutions (h : OnePolicy truth.resolutions gid) (id : String) :
    (truth.resolutions.rows.filter fun r => r.generationId = gid ∧ r.relationshipFactId = id) =
      (resolutionOf truth gid id).toList :=
  Table.filter_eq_toList fun _ hx _ hy => h.clash hx hy

/-! ## Targets of edges -/

/-- An edge has a symbol as its target if the fact is resolved to it, whatever the kind. -/
lemma edgeTarget_symbol {resolution : Option RelationshipResolution} {raw : String} :
    (edgeTarget resolution raw).2.1 = .symbol ∧ (edgeTarget resolution raw).2.2 = key ↔
      ∃ r, resolution = some r ∧ r.status = .resolvedSymbol ∧ r.resolvedRefValue = some key := by
  cases resolution with
  | none => simp [edgeTarget]
  | some r =>
    unfold edgeTarget
    dsimp only
    cases hstatus : r.status with
    | resolvedSymbol =>
      cases hvalue : r.resolvedRefValue with
      | none => simp [hvalue]
      | some v => simp [hstatus, hvalue]
    | resolvedFile =>
      cases hvalue : r.resolvedRefValue with
      | none => simp [hstatus]
      | some v => simp [hstatus]
    | external => simp [hstatus]
    | ambiguous => simp [hstatus]
    | unresolved => simp [hstatus]
    | invalid => simp [hstatus]
    | stale => simp [hstatus]

lemma edgeTarget_state {resolution : Option RelationshipResolution} {raw : String}
    (h : ∃ r, resolution = some r ∧ r.status = .resolvedSymbol ∧ r.resolvedRefValue = some key) :
    (edgeTarget resolution raw).1 = .resolvedSymbol := by
  obtain ⟨r, rfl, hstatus, hvalue⟩ := h
  simp [edgeTarget, hstatus, hvalue]

end Rows

/-! ## A generation with one file -/

/-- A generation with one file. -/
def oneFile : Catalogue where
  workspace := Table.empty.insertOrIgnore ⟨"ws", some "g"⟩
  writerLease := .empty
  indexGeneration := Table.empty.insertOrIgnore ⟨"g", "ws", none, 1, .committed, .reconcile, none,
    "", "", 0, some 0, none, none, .zero⟩
  fileIdentity := .empty
  fileRevision := Table.empty.insertOrIgnore ⟨"r", "f", "", 1, .source, none, false, false, 0⟩
  generationFile := Table.empty.insertOrIgnore
    ⟨"g", "f", some "r", "a", .present, none, none, none, none⟩
  lifecycleEvent := .empty
  tombstone := .empty
  facts :=
    { extractorRun := Table.empty.insertOrIgnore
        ⟨"e", "r", "scip", "1", .semanticIndex, "", "", true, .complete, 0, none, 1, 1⟩
      symbolFact := Table.empty.insertOrIgnore
        ⟨"sf", "e", "r", "scip:s", some "s", "function", "s", "s", none, 0, 1, 1, 1, 1, 2,
          .semantic, 1, "scip_definition", []⟩
      relationshipFact := Table.empty.insertOrIgnore
        ⟨"rf", "e", "r", .references, .path, "a", .symbol, "s", [], .semantic, 9 / 10,
          "scip_occurrence", []⟩
      diagnostic := .empty }
  taskSession := .empty

end WorkspaceAtlas
