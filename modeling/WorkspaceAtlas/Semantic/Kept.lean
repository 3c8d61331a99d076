/-
# Relationships that share a row

`record_semantic_relationship_fact` is called for every relationship of a mapped document.  The
id of a row is hashed from the run, the stored type, the source, the target and the start of
the span; a row whose id is there already is dropped.  So relationships are lost exactly when
two different ones agree in all these.
-/
import WorkspaceAtlas.Semantic.FactRows
import WorkspaceAtlas.Semantic.Scip

namespace WorkspaceAtlas

open Relational Transition Text

namespace Kept

/-! ## The statement -/

/-- What relationships are told apart by: type, source symbol or document, target and span. -/
def facts (rel : MappedRelationship) :
    ScipRelationship × (RefKind × String) × (ScipRefKind × String) × ℤ × ℤ × ℤ × ℤ :=
  (rel.relationshipType, rel.source, (rel.targetRefKind, rel.targetRefValue),
    rel.sourceStartLine, rel.sourceStartColumn, rel.sourceEndLine, rel.sourceEndColumn)

/-- The ids of the rows are hashed from their runs. -/
def HashedRows (H : Hasher) (t : FactTables) : Prop :=
  ∀ x ∈ t.relationshipFact, '\x1f' ∉ x.extractorRunId.toList ∧ ∃ rest,
    x.relationshipFactId =
      "rel_" ++ toHex (H.blake3Short (utf8 (x.extractorRunId ++ "\x1f" ++ rest)))

/-- A run that no relationship belongs to, over a stored revision. -/
structure FreshRun (H : Hasher) (revisions : Table FileRevision) (t : FactTables)
    (runId revisionId : String) : Prop where
  run_stored : t.hasRun runId = true
  revision_stored : hasRevisionIn revisions revisionId = true
  run_plain : '\x1f' ∉ runId.toList
  rows_hashed : HashedRows H t
  unused : ∀ x ∈ t.relationshipFact, x.extractorRunId ≠ runId

/-- Different relationships have different rows. -/
def NothingLost (H : Hasher) (runId revisionId : String) (seen : List (List UInt8))
    (rels : List MappedRelationship) (t : FactTables) : Prop :=
  ∀ a ∈ rels, ∀ b ∈ rels, facts a ≠ facts b →
    ∃ ra ∈ t.relationshipFact, ∃ rb ∈ t.relationshipFact, ra ≠ rb ∧
      ra = a.row H runId revisionId seen ∧ rb = b.row H runId revisionId seen

/-- Two relationships with the same stored type, the same text of source and target, and spans
that start at one place. -/
structure SameSlot (a b : MappedRelationship) : Prop where
  type_eq : a.relationshipType.stored = b.relationshipType.stored
  text_eq : a.source.2 ++ "\x1f" ++ a.targetRefValue = b.source.2 ++ "\x1f" ++ b.targetRefValue
  line_eq : a.sourceStartLine = b.sourceStartLine
  column_eq : a.sourceStartColumn = b.sourceStartColumn

/-- Relationships that share all that the ids are hashed from are the same. -/
def KeptApart (rels : List MappedRelationship) : Prop :=
  ∀ a ∈ rels, ∀ b ∈ rels, SameSlot a b → facts a = facts b

section Lemmas

variable {H : Hasher} {revisions : Table FileRevision} {t t' : FactTables}
  {runId revisionId path : String} {seen : List (List UInt8)} {defined : List String}
  {a b rel : MappedRelationship} {rels : List MappedRelationship}

/-! ## Ids -/

lemma stored_asStr_injective {k k' : ScipRelationship}
    (h : k.stored.asStr = k'.stored.asStr) : k.stored = k'.stored := by
  revert h
  cases k <;> cases k' <;> decide

lemma separator_notMem_stored (k : ScipRelationship) : '\x1f' ∉ k.stored.asStr.toList := by
  cases k <;> decide

/-- Rows of one run clash if their relationships share a slot. -/
lemma rowId_eq_iff (hH : H.Injective) :
    (a.row H runId revisionId seen).relationshipFactId =
        (b.row H runId revisionId seen).relationshipFactId ↔ SameSlot a b := by
  have hnumber : ∀ n : ℤ, '\x1f' ∉ (toString n).toList.reverse := fun n h =>
    Json.notMem_toString_int (by decide) (by decide) n (List.mem_reverse.mp h)
  simp only [MappedRelationship.row, deterministicId_eq_iff hH, List.flatMap_cons,
    List.flatMap_nil, List.append_nil, List.append_assoc, List.append_cancel_left_eq,
    List.singleton_append]
  constructor
  · intro h
    obtain ⟨htype, hrest⟩ := append_sep_inj (separator_notMem_stored _)
      (separator_notMem_stored _) (List.cons.inj h).2
    -- the source and the target may have a separator in them, so the text is read from its end
    have hreverse := congrArg List.reverse hrest
    simp only [List.reverse_append, List.reverse_cons, List.append_assoc, List.reverse_nil,
      List.nil_append, List.cons_append, List.cons.injEq, true_and] at hreverse
    obtain ⟨hcolumn, hreverse⟩ := append_sep_inj (hnumber _) (hnumber _) hreverse
    obtain ⟨hline, hreverse⟩ := append_sep_inj (hnumber _) (hnumber _) hreverse
    refine ⟨stored_asStr_injective (String.toList_inj.mp htype), ?_,
      Json.toString_int_injective (String.toList_inj.mp (List.reverse_injective hline)),
      Json.toString_int_injective (String.toList_inj.mp (List.reverse_injective hcolumn))⟩
    have htext := congrArg List.reverse hreverse
    simp only [List.reverse_append, List.reverse_cons, List.append_assoc, List.reverse_reverse,
      List.nil_append, List.cons_append] at htext
    have hsep : "\x1f".toList = ['\x1f'] := rfl
    refine String.toList_inj.mp ?_
    simpa only [String.toList_append, List.append_assoc, hsep, List.singleton_append] using htext
  · rintro ⟨htype, htext, hline, hcolumn⟩
    have hsep : "\x1f".toList = ['\x1f'] := rfl
    have hlist := congrArg String.toList htext
    simp only [String.toList_append, List.append_assoc, hsep, List.singleton_append] at hlist
    have htail := congrArg (· ++ '\x1f' :: ((toString b.sourceStartLine).toList ++
      '\x1f' :: ((toString b.sourceStartColumn).toList ++ ['\x1f']))) hlist
    simp only [List.append_assoc, List.cons_append] at htail
    rw [htype, hline, hcolumn, htail]

/-- Rows of relationships with the same facts are the same. -/
lemma row_eq_of_facts (ha : MappedAs defined path a) (hb : MappedAs defined path b)
    (h : facts a = facts b) : a.row H runId revisionId seen = b.row H runId revisionId seen := by
  simp only [facts, Prod.mk.injEq] at h
  obtain ⟨htype, hsource, ⟨hkind, htarget⟩, hline, hcolumn, -, -⟩ := h
  have hevidence := ha.evidence_eq
  rw [htype, ← hb.evidence_eq] at hevidence
  obtain ⟨hconfidence, hreason⟩ := Prod.mk.inj hevidence
  simp only [MappedRelationship.row, htype, hsource, hkind, htarget, hline, hcolumn, hconfidence,
    hreason]

/-- The id of a row is hashed from its run. -/
lemma row_hashed : ∃ rest, (rel.row H runId revisionId seen).relationshipFactId =
    "rel_" ++ toHex (H.blake3Short (utf8 (runId ++ "\x1f" ++ rest))) := by
  refine ⟨String.ofList (([rel.relationshipType.stored.asStr, rel.source.2, rel.targetRefValue,
    toString rel.sourceStartLine, toString rel.sourceStartColumn].flatMap
      fun p => p.toList ++ ['\x1f'])), ?_⟩
  rw [MappedRelationship.row, deterministicId_eq_hash, List.flatMap_cons]
  refine congrArg (fun s => "rel_" ++ toHex (H.blake3Short (utf8 s))) (String.toList_inj.mp ?_)
  simp only [String.toList_ofList, String.toList_append]
  rfl

/-- The row of a fresh run clashes with no row that is there. -/
lemma FreshRun.ne (hH : H.Injective) (h : FreshRun H revisions t runId revisionId)
    {x : RelationshipFact} (hx : x ∈ t.relationshipFact) :
    x.relationshipFactId ≠ (rel.row H runId revisionId seen).relationshipFactId := by
  obtain ⟨hplain, rest, hid⟩ := h.rows_hashed x hx
  intro heq
  have hsep : "\x1f".toList = ['\x1f'] := rfl
  obtain ⟨rest', hown⟩ := @row_hashed H runId revisionId seen rel
  have htext := congrArg String.toList (utf8_injective (hH.blake3Short (toHex_injective
    (stem_append_inj.mp (hid.symm.trans (heq.trans hown))))))
  simp only [String.toList_append, List.append_assoc, hsep, List.singleton_append] at htext
  exact h.unused x hx (String.toList_inj.mp (append_sep_inj hplain h.run_plain htext).1)

/-! ## Runs without relationships -/

/-- The id of a built-in provider's row is hashed from its run, too. -/
lemma normalizedRow_hashed {nrel : NormalizedRelationship} :
    ∃ rest, (nrel.row H runId revisionId seen).relationshipFactId =
      "rel_" ++ toHex (H.blake3Short (utf8 (runId ++ "\x1f" ++ rest))) := by
  have hsep : utf8 "\x1f" = [0x1f] := by decide
  refine ⟨nrel.sourceRefValue ++ "\x1f" ++ nrel.targetRefValue ++ "\x1f" ++
    nrel.relationshipType.asStr, ?_⟩
  rw [NormalizedRelationship.row, relationshipFactId]
  simp only [utf8_append, hsep, List.append_assoc]

lemma HashedRows.insert {row : RelationshipFact} (h : HashedRows H t)
    (hplain : '\x1f' ∉ row.extractorRunId.toList)
    (hrow : ∃ rest, row.relationshipFactId =
      "rel_" ++ toHex (H.blake3Short (utf8 (row.extractorRunId ++ "\x1f" ++ rest))))
    (hok : t.insertRelationship revisions row = .ok t') : HashedRows H t' := by
  rcases insertRelationship_ok hok with ⟨rfl, -⟩ | ⟨-, relationships, hins, rfl⟩
  · exact h
  · intro x hx
    rcases (Table.mem_of_insert? hins).mp hx with hx | rfl
    · exact h x hx
    · exact ⟨hplain, hrow⟩

/-- A run that was inserted for a document is fresh. -/
lemma freshRun_of_ensure {plan : SemanticPlan} {bytesTotal : ℕ} {now : Timestamp}
    (hrows : HashedRows H t) (hstored : RunsStored t)
    (hnew : ∀ r ∈ t.extractorRun, r.identity ≠ (revisionId, plan.providerName,
      plan.providerVersion, plan.configurationHash, "1.1.0"))
    (h : ensureSemanticExtractorRun H revisions t revisionId plan bytesTotal now =
      .ok (t', runId)) : FreshRun H revisions t' runId revisionId := by
  have hnone : (t.extractorRun.find? fun r => r.identity = (revisionId, plan.providerName,
      plan.providerVersion, plan.configurationHash, "1.1.0")) = none :=
    Table.find?_eq_none.mpr fun r hr => decide_eq_false (hnew r hr)
  rw [ensureSemanticExtractorRun, hnone] at h
  dsimp only at h
  cases hins : t.insertRun revisions ⟨deterministicId H "run" [revisionId, plan.providerName,
      plan.providerVersion, plan.configurationHash, "1.1.0"], revisionId, plan.providerName,
      plan.providerVersion, .semanticIndex, plan.configurationHash, "1.1.0", true, .complete, now,
      some now, bytesTotal, bytesTotal⟩ with
  | error e =>
    rw [hins] at h
    exact absurd h (by simp [Except.map])
  | ok u =>
    rw [hins] at h
    obtain ⟨rfl, rfl⟩ := Prod.mk.inj (Except.ok.inj h)
    have hrevision : hasRevisionIn revisions revisionId = true := by
      rw [FactTables.insertRun] at hins
      split at hins
      · exact absurd hins (by simp)
      · split at hins
        · assumption
        · exact absurd hins (by simp)
    obtain ⟨runs, hrun, rfl⟩ := insertRun_ok hins
    refine ⟨?_, hrevision, ?_, hrows, ?_⟩
    · refine List.any_eq_true.mpr ⟨_, (Table.mem_of_insert? hrun).mpr (Or.inr rfl), ?_⟩
      exact decide_eq_true rfl
    · rw [deterministicId, String.toList_append]
      intro hmem
      rcases List.mem_append.mp hmem with hmem | hmem
      · exact absurd hmem (by decide)
      · exact separator_notMem_toHex _ hmem
    · -- the run of a stored row was there before
      intro x hx heq
      obtain ⟨r, hr, hid⟩ := hstored x hx
      exact Table.not_clash_of_insert? hrun r hr (Or.inl (hid.trans heq))

/-! ## What is stored -/

/-- A row is inserted or one with its id is there. -/
lemma insertRelationship_total {row : RelationshipFact}
    (hrun : t.hasRun row.extractorRunId = true)
    (hrevision : hasRevisionIn revisions row.revisionId = true) (hvalid : row.Valid) :
    ∃ t', t.insertRelationship revisions row = .ok t' ∧ t'.extractorRun = t.extractorRun ∧
      (∀ x ∈ t.relationshipFact, x ∈ t'.relationshipFact) ∧
      (∀ x ∈ t'.relationshipFact, x ∈ t.relationshipFact ∨ x = row) ∧
      ∃ x ∈ t'.relationshipFact, x.relationshipFactId = row.relationshipFactId := by
  rw [FactTables.insertRelationship, if_pos hvalid]
  cases hins : t.relationshipFact.insert? row with
  | none => exact ⟨t, rfl, rfl, fun x hx => hx, fun x hx => Or.inl hx, Table.insert?_eq_none.mp hins⟩
  | some relationships =>
    refine ⟨{ t with relationshipFact := relationships }, if_pos ⟨hrun, hrevision⟩, rfl,
      fun x hx => ?_, fun x hx => ?_, row, ?_, rfl⟩
    · exact (Table.mem_of_insert? hins).mpr (Or.inl hx)
    · exact (Table.mem_of_insert? hins).mp hx
    · exact (Table.mem_of_insert? hins).mpr (Or.inr rfl)

/-- After the calls, every relationship has a row with its id, that of one of them. -/
lemma record_all (hH : H.Injective) (hfresh : FreshRun H revisions t runId revisionId)
    (hrels : ∀ r ∈ rels, MappedAs defined path r) :
    ∃ t', rels.foldlM (fun t rel =>
        recordSemanticRelationshipFact H revisions t runId revisionId seen rel) t = .ok t' ∧
      ∀ a ∈ rels, ∃ a' ∈ rels, SameSlot a' a ∧
        a'.row H runId revisionId seen ∈ t'.relationshipFact := by
  obtain ⟨t', hok, -, hsource, hall⟩ := @loop_total _ _ _
    (fun t rel => recordSemanticRelationshipFact H revisions t runId revisionId seen rel) t rels
    (fun done u => u.extractorRun = t.extractorRun ∧
      (∀ x ∈ u.relationshipFact, x ∈ t.relationshipFact ∨
        ∃ a ∈ done, x = a.row H runId revisionId seen) ∧
      ∀ a ∈ done, ∃ x ∈ u.relationshipFact,
        x.relationshipFactId = (a.row H runId revisionId seen).relationshipFactId)
    ⟨rfl, fun x hx => Or.inl hx, fun a ha => absurd ha List.not_mem_nil⟩
    (fun done a rest u hl hI => by
      obtain ⟨hruns, hsource, hall⟩ := hI
      have ha : MappedAs defined path a := hrels a (by rw [hl]; simp)
      have hrun : u.hasRun runId = true := by
        rw [FactTables.hasRun, hruns]
        exact hfresh.run_stored
      obtain ⟨u', hok, hruns', hkeep, hnew, x, hx, hid⟩ := @insertRelationship_total revisions u
        (a.row H runId revisionId seen) hrun hfresh.revision_stored ha.mappedFrom.confidence_mem
      refine ⟨u', hok, hruns'.trans hruns, fun y hy => ?_, fun b hb => ?_⟩
      · rcases hnew y hy with hy | rfl
        · rcases hsource y hy with hy | ⟨b, hb, rfl⟩
          · exact Or.inl hy
          · exact Or.inr ⟨b, List.mem_append_left _ hb, rfl⟩
        · exact Or.inr ⟨a, by simp, rfl⟩
      · rcases List.mem_append.mp hb with hb | hb
        · obtain ⟨y, hy, hid⟩ := hall b hb
          exact ⟨y, hkeep y hy, hid⟩
        · obtain rfl := List.mem_singleton.mp hb
          exact ⟨x, hx, hid⟩)
  refine ⟨t', hok, fun a ha => ?_⟩
  obtain ⟨x, hx, hid⟩ := hall a ha
  rcases hsource x hx with hold | ⟨a', ha', rfl⟩
  · exact absurd hid (hfresh.ne hH hold)
  · exact ⟨a', ha', (rowId_eq_iff hH).mp hid, hx⟩

end Lemmas

/-- Different relationships of a document have different rows, exactly when those that share a
slot are the same. -/
theorem nothingLost_iff_keptApart (H : Hasher) (hH : H.Injective) (revisions : Table FileRevision)
    (t : FactTables) (runId revisionId : String) (seen : List (List UInt8))
    (confine : String → Except AtlasError String) (doc : ScipDocument) (defined : List String)
    (hfresh : FreshRun H revisions t runId revisionId) :
    ∃ t', (mapDocument confine doc defined).relationships.foldlM (fun t rel =>
        recordSemanticRelationshipFact H revisions t runId revisionId seen rel) t = .ok t' ∧
      (NothingLost H runId revisionId seen (mapDocument confine doc defined).relationships t' ↔
        KeptApart (mapDocument confine doc defined).relationships) := by
  have hrels : ∀ r ∈ (mapDocument confine doc defined).relationships,
      MappedAs defined (mapDocument confine doc defined).canonicalPath r := fun r hr =>
    mapDocument_mappedAs hr
  obtain ⟨t', hok, hstored⟩ := @record_all H revisions t runId revisionId _ seen _ _ hH hfresh hrels
  refine ⟨t', hok, ?_, ?_⟩
  · intro hlost a ha b hb hslot
    by_contra hne
    obtain ⟨ra, hra, rb, hrb, hrows, rfl, rfl⟩ := hlost a ha b hb hne
    exact hrows (Table.eq_of_clash hra hrb ((rowId_eq_iff hH).mpr hslot))
  · intro hkept a ha b hb hne
    have hrow : ∀ c ∈ (mapDocument confine doc defined).relationships,
        c.row H runId revisionId seen ∈ t'.relationshipFact := by
      intro c hc
      obtain ⟨c', hc', hslot, hmem⟩ := hstored c hc
      rw [row_eq_of_facts (hrels c' hc') (hrels c hc) (hkept c' hc' c hc hslot)] at hmem
      exact hmem
    refine ⟨_, hrow a ha, _, hrow b hb, fun heq => hne (hkept a ha b hb ?_), rfl, rfl⟩
    exact (rowId_eq_iff hH).mp (congrArg RelationshipFact.relationshipFactId heq)

/-! ## A type definition and a definition -/

/-- A symbol whose type is defined, and which is defined, by one other symbol. -/
def definedTwice : ScipDocument where
  relativePath := "src/a.ts"
  occurrences := []
  symbols := [⟨"pkg Dog#", [⟨"pkg Animal#", false, false, true, true⟩]⟩]
  positionEncoding := .utf16

/-- The revision of the document. -/
def oneRevision : Table FileRevision :=
  Table.empty.insertOrIgnore ⟨"r", "f", "", 1, .source, none, false, false, 0⟩

/-- The tables with a run over the revision and no facts. -/
def oneRun : FactTables :=
  { FactTables.empty with
    extractorRun := Table.empty.insertOrIgnore
      ⟨"run_e", "r", "scip", "1", .semanticIndex, "", "1.1.0", true, .complete, 0, none, 1, 1⟩ }

lemma oneRun_fresh : FreshRun Hasher.plain oneRevision oneRun "run_e" "r" where
  run_stored := by decide
  revision_stored := by decide
  run_plain := by decide
  rows_hashed _ hx := absurd hx Table.not_mem_empty
  unused _ hx := absurd hx Table.not_mem_empty

theorem keptApart_iff_definedTwice :
    ∃ t', (mapDocument .ok definedTwice []).relationships.foldlM (fun t rel =>
        recordSemanticRelationshipFact Hasher.plain oneRevision t "run_e" "r" [] rel) oneRun =
          .ok t' ∧
      (NothingLost Hasher.plain "run_e" "r" [] (mapDocument .ok definedTwice []).relationships t' ↔
        KeptApart (mapDocument .ok definedTwice []).relationships) :=
  nothingLost_iff_keptApart Hasher.plain Hasher.plain_injective oneRevision oneRun "run_e" "r" [] .ok
    definedTwice [] oneRun_fresh

/-- The document has two relationships, and one row is stored. -/
theorem definedTwice_lost :
    ∃ t', (mapDocument .ok definedTwice []).relationships.foldlM (fun t rel =>
        recordSemanticRelationshipFact Hasher.plain oneRevision t "run_e" "r" [] rel) oneRun =
          .ok t' ∧ t'.relationshipFact.rows.length = 1 ∧
      (mapDocument .ok definedTwice []).relationships.map MappedRelationship.relationshipType =
        [.typeDefinition, .definedBy] ∧
      ¬ NothingLost Hasher.plain "run_e" "r" []
        (mapDocument .ok definedTwice []).relationships t' := by
  have hrun : ((mapDocument .ok definedTwice []).relationships.foldlM (fun t rel =>
      recordSemanticRelationshipFact Hasher.plain oneRevision t "run_e" "r" [] rel)
        oneRun).toOption.map (fun t => t.relationshipFact.rows.length) = some 1 := by
    decide +kernel
  obtain ⟨t', hok, hone⟩ := Option.map_eq_some_iff.mp hrun
  have hok := ok_of_toOption hok
  obtain ⟨x, hx⟩ := List.length_eq_one_iff.mp hone
  refine ⟨t', hok, hone, by decide, fun hlost => ?_⟩
  obtain ⟨a, ha, b, hb, hne⟩ : ∃ a ∈ (mapDocument .ok definedTwice []).relationships,
      ∃ b ∈ (mapDocument .ok definedTwice []).relationships,
        a.relationshipType ≠ b.relationshipType := by
    decide
  obtain ⟨ra, hra, rb, hrb, hrows, -, -⟩ :=
    hlost a ha b hb fun heq => hne (congrArg Prod.fst heq)
  rw [Table.mem_def, hx] at hra hrb
  exact hrows ((List.mem_singleton.mp hra).trans (List.mem_singleton.mp hrb).symm)

end Kept

end WorkspaceAtlas
