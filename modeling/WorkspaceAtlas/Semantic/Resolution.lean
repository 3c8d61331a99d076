/-
# Resolution of semantic relationships

`resolution.rs` and `run_resolution_pass`: after the plans have run, every semantic
relationship of the candidate whose run is linked to an execution gets one resolution, which
says what its raw target names in the generation.  The target is stored as the provider wrote
it and is turned into a key only here, from the columns of the row.
-/
import WorkspaceAtlas.Semantic.Scip

namespace WorkspaceAtlas

open Relational Text

/-! ## Outcomes -/

/-- `ResolutionStatus`. -/
inductive ResolutionStatus where
  | resolvedSymbol
  | resolvedFile
  | external
  | ambiguous
  | unresolved
  | invalid
  | stale
  deriving DecidableEq, Repr

/-- `ResolvedRef`. -/
inductive ResolvedRef where
  | symbol (value : String)
  | file (value : String)
  | externalSymbol (value : String)
  deriving DecidableEq, Repr

/-- The text of the kind in the column. -/
def ResolvedRef.kind : ResolvedRef → String
  | symbol _ => "symbol"
  | file _ => "file"
  | externalSymbol _ => "external_symbol"

/-- What the reference names. -/
def ResolvedRef.value : ResolvedRef → String
  | symbol v | file v | externalSymbol v => v

/-- `Candidate`. -/
structure Candidate where
  value : String
  score : ℚ
  reason : String
  deriving DecidableEq, Repr

/-- `ResolutionOutcome`. -/
structure ResolutionOutcome where
  status : ResolutionStatus
  resolved : Option ResolvedRef
  reasonCode : String
  confidence : ℚ
  candidates : List Candidate
  deriving DecidableEq, Repr

/-- `SymbolUniverse`. -/
structure SymbolUniverse where
  /-- The keys, each with the path of a document that defines it. -/
  globallyDefined : List (String × String)
  thisExecution : List String
  byDisplayName : String → List String
  knownFiles : List String

/-- `globally_defined.contains_key`. -/
def SymbolUniverse.Defines (u : SymbolUniverse) (key : String) : Prop :=
  ∃ entry ∈ u.globallyDefined, entry.1 = key

instance (u : SymbolUniverse) (key : String) : Decidable (u.Defines key) := by
  unfold SymbolUniverse.Defines
  infer_instance

/-- The execution or the generation has the key. -/
def SymbolUniverse.Has (u : SymbolUniverse) (key : String) : Prop :=
  key ∈ u.thisExecution ∨ u.Defines key

/-! ## `resolve_relationship` -/

/-- What follows the last of some separators. -/
def afterLastOf (seps : List Char) (s : List Char) : List Char :=
  (s.reverse.takeWhile fun ch => ch ∉ seps).reverse

/-- `extract_display_name`. -/
def extractDisplayName (scipSymbol : String) : Option String :=
  let last := afterLastOf ['/', '#', '.', ' ']
    (trimEndMatches (fun ch => ch ∈ ['.', '#', '(', ')', ':', '!']) scipSymbol.toList)
  if last.isEmpty then none else some (String.ofList last)

/-- The relationships that name their target as what they implement or define. -/
def ScipRelationship.isExplicit : ScipRelationship → Bool
  | implements | typeDefinition | definedBy => true
  | imports | references | calls => false

/-- The last step: several keys with the target's display name, or nothing. -/
def resolveByDisplayName (target : String) (u : SymbolUniverse) : ResolutionOutcome :=
  let unresolved : ResolutionOutcome := ⟨.unresolved, none, "missing_document", 0, []⟩
  match extractDisplayName target with
  | none => unresolved
  | some name =>
    let keys := u.byDisplayName name
    if 1 < keys.length then
      ⟨.ambiguous, none, "multiple_valid_targets", 0,
        (keys.take 16).map fun key => ⟨key, 40 / 100, "display_name_match"⟩⟩
    else unresolved

/-- `resolve_relationship`. -/
def resolveRelationship (rel : MappedRelationship) (u : SymbolUniverse) : ResolutionOutcome :=
  let target := rel.targetRefValue
  if rel.reasonCode = "composed_span_match" ∧ (u.Defines target ∨ target ∈ u.thisExecution) then
    ⟨.resolvedSymbol, some (.symbol target), "composed_span_match", rel.confidence, []⟩
  else if target ∈ u.thisExecution then
    ⟨.resolvedSymbol, some (.symbol target), "exact_provider_symbol", 98 / 100, []⟩
  else if u.Defines target then
    ⟨.resolvedSymbol, some (.symbol target), "exact_canonical_symbol", 95 / 100, []⟩
  else if rel.relationshipType.isExplicit ∧ rel.targetRefKind ≠ .externalSymbol then
    ⟨.resolvedSymbol, some (.symbol target), "alias_or_reexport", 85 / 100, []⟩
  else if target ∈ u.knownFiles then
    ⟨.resolvedFile, some (.file target), "exact_relative_path", 90 / 100, []⟩
  else if rel.targetRefKind = .externalSymbol then
    ⟨.external, some (.externalSymbol target), "scip_external_symbol", 70 / 100, []⟩
  else resolveByDisplayName target u

/-! ## The rows of resolutions -/

/-- A row of `relationship_resolution`.  Its primary key is a digest of the workspace and of
the columns that the table is unique in, and nothing reads it. -/
structure RelationshipResolution where
  workspaceId : String
  generationId : String
  relationshipFactId : String
  resolverPolicyVersion : String
  status : ResolutionStatus
  resolvedRefKind : Option String
  resolvedRefValue : Option String
  reasonCode : String
  candidateRefs : List Candidate
  confidence : ℚ
  createdAt : Timestamp
  deriving DecidableEq, Repr

instance : Keyed RelationshipResolution :=
  .ofKey fun r => (r.generationId, r.relationshipFactId, r.resolverPolicyVersion)

/-- `RESOLVER_POLICY_VERSION`. -/
def resolverPolicyVersion : String := "semantic-resolution-1.0.0"

/-- The row of an outcome. -/
def ResolutionOutcome.row (workspaceId generationId relationshipFactId policy : String)
    (now : Timestamp) (outcome : ResolutionOutcome) : RelationshipResolution where
  workspaceId := workspaceId
  generationId := generationId
  relationshipFactId := relationshipFactId
  resolverPolicyVersion := policy
  status := outcome.status
  resolvedRefKind := outcome.resolved.map ResolvedRef.kind
  resolvedRefValue := outcome.resolved.map ResolvedRef.value
  reasonCode := outcome.reasonCode
  candidateRefs := outcome.candidates
  confidence := outcome.confidence
  createdAt := now

/-- `record_relationship_resolution`: `INSERT OR IGNORE`. -/
def recordRelationshipResolution (t : Table RelationshipResolution)
    (workspaceId generationId relationshipFactId policy : String) (now : Timestamp)
    (outcome : ResolutionOutcome) : Table RelationshipResolution :=
  if 0 ≤ outcome.confidence ∧ outcome.confidence ≤ 1 then
    t.insertOrIgnore (outcome.row workspaceId generationId relationshipFactId policy now)
  else t

/-! ## `run_resolution_pass` -/

/-- The rows of a generation that have a revision. -/
def revisedFiles (files : Table GenerationFile) (gid : String) : List (GenerationFile × String) :=
  files.rows.filterMap fun gf =>
    if gf.generationId = gid then gf.revisionId.map (gf, ·) else none

/-- The keys and the paths of the symbols reachable in a generation (`symbol_rows`). -/
def symbolRows (t : FactTables) (files : Table GenerationFile) (gid : String) :
    List (String × String) :=
  (t.symbolFact.rows.flatMap fun sf => ((revisedFiles files gid).filter fun p =>
    p.2 = sf.revisionId).map fun p => (sf.canonicalSymbolKey, p.1.canonicalPath)).dedup

/-- The symbols that a pass resolves against. -/
def SymbolUniverse.ofRows (rows : List (String × String)) : SymbolUniverse where
  globallyDefined := rows
  thisExecution := []
  byDisplayName name := (rows.filter fun row =>
    String.ofList (afterLastOf ['/', '#', '.', ' '] row.1.toList) = name).map Prod.fst
  knownFiles := rows.map Prod.snd

/-- The semantic relationships of a generation whose run is linked to an execution. -/
def linkedFacts (t : FactTables) (files : Table GenerationFile) (gid : String)
    (linked : List String) : List RelationshipFact :=
  t.relationshipFact.rows.flatMap fun rf => ((revisedFiles files gid).filter fun p =>
    p.2 = rf.revisionId ∧ rf.evidenceMethod = .semantic ∧ rf.extractorRunId ∈ linked).map
      fun _ => rf

/-- `intern_relationship_type`. -/
def internRelationshipType : RelationshipType → ScipRelationship
  | .imports => .imports
  | .calls => .calls
  | .implements => .implements
  | _ => .references

/-- `intern_reason_code`. -/
def internReasonCode (dbValue : String) : String :=
  if dbValue ∈ ["composed_span_match", "scip_import_role", "scip_symbol_relationship"] then
    dbValue
  else "scip_occurrence"

/-- The document that a row names as its source. -/
def RelationshipFact.sourceDocumentPath (f : RelationshipFact) : String :=
  if f.sourceRefKind = .path then f.sourceRefValue else ""

/-- What a row has as the kind of its target. -/
def RelationshipFact.targetKind (f : RelationshipFact) : ScipRefKind :=
  if f.targetRefKind = .external then .externalSymbol else .symbol

/-- The value that a row is resolved by. -/
def RelationshipFact.canonicalTargetValue (f : RelationshipFact) : String :=
  if f.targetKind = .symbol then canonicalSymbolKey f.targetRefValue f.sourceDocumentPath
  else f.targetRefValue

/-- The relationship that is resolved for a row. -/
def RelationshipFact.synthetic (f : RelationshipFact) : MappedRelationship where
  relationshipType := internRelationshipType f.relationshipType
  sourceCanonicalDocumentPath := f.sourceDocumentPath
  sourceStartLine := 0
  sourceStartColumn := 0
  sourceEndLine := 0
  sourceEndColumn := 0
  targetRefKind := f.targetKind
  targetRefValue := f.canonicalTargetValue
  providerSymbolId := if f.sourceRefKind = .symbol then f.sourceRefValue else f.targetRefValue
  confidence := f.confidence
  reasonCode := internReasonCode f.evidenceReason

/-- `run_resolution_pass`, less the evidence clusters; `linked` are the runs that executions
of the workspace are linked to. -/
def runResolutionPass (t : FactTables) (files : Table GenerationFile)
    (resolutions : Table RelationshipResolution) (workspaceId gid : String)
    (linked : List String) (now : Timestamp) : Table RelationshipResolution :=
  let symbols := SymbolUniverse.ofRows (symbolRows t files gid)
  (linkedFacts t files gid linked).foldl (fun resolutions f =>
    recordRelationshipResolution resolutions workspaceId gid f.relationshipFactId
      resolverPolicyVersion now (resolveRelationship f.synthetic symbols)) resolutions

/-! ## What the pass records -/

section Pass

variable {t : FactTables} {files : Table GenerationFile}
  {resolutions : Table RelationshipResolution} {ws gid : String} {linked : List String}
  {now : Timestamp} {f : RelationshipFact} {rel : MappedRelationship} {u : SymbolUniverse}

/-- The row keeps the kind of the target. -/
lemma targetKind_row {H : Hasher} {runId rid : String} {seen : List (List UInt8)} :
    (rel.row H runId rid seen).targetKind = rel.targetRefKind := by
  cases hkind : rel.targetRefKind with
  | symbol => simp [RelationshipFact.targetKind, MappedRelationship.row, hkind]
  | externalSymbol => simp [RelationshipFact.targetKind, MappedRelationship.row, hkind]

lemma mem_revisedFiles {gf : GenerationFile} {rid : String} :
    (gf, rid) ∈ revisedFiles files gid ↔
      gf ∈ files ∧ gf.generationId = gid ∧ gf.revisionId = some rid := by
  simp only [revisedFiles, List.mem_filterMap, Table.mem_def]
  constructor
  · rintro ⟨gf', hmem, h⟩
    split at h
    next hgid =>
      obtain ⟨rid', hrid, heq⟩ := Option.map_eq_some_iff.mp h
      obtain ⟨rfl, rfl⟩ := Prod.mk.inj heq
      exact ⟨hmem, hgid, hrid⟩
    next => exact absurd h (by simp)
  · rintro ⟨hmem, hgid, hrid⟩
    exact ⟨gf, hmem, by simp [hgid, hrid]⟩

lemma mem_linkedFacts : f ∈ linkedFacts t files gid linked ↔ f ∈ t.relationshipFact ∧
    f.evidenceMethod = .semantic ∧ f.extractorRunId ∈ linked ∧
      ∃ gf ∈ files, gf.generationId = gid ∧ gf.revisionId = some f.revisionId := by
  simp only [linkedFacts, List.mem_flatMap, List.mem_map, List.mem_filter, Prod.exists,
    decide_eq_true_eq]
  constructor
  · rintro ⟨rf, hrf, gf, rid, ⟨hgf, rfl, hsem, hlinked⟩, rfl⟩
    exact ⟨hrf, hsem, hlinked, gf, mem_revisedFiles.mp hgf⟩
  · rintro ⟨hrf, hsem, hlinked, gf, hgf⟩
    exact ⟨f, hrf, gf, f.revisionId, ⟨mem_revisedFiles.mpr hgf, rfl, hsem, hlinked⟩, rfl⟩

/-- The symbols reachable in a generation. -/
lemma defines_ofRows {key : String} : (SymbolUniverse.ofRows (symbolRows t files gid)).Defines key ↔
    ∃ sf ∈ t.symbolFact, sf.canonicalSymbolKey = key ∧
      ∃ gf ∈ files, gf.generationId = gid ∧ gf.revisionId = some sf.revisionId := by
  simp only [SymbolUniverse.Defines, SymbolUniverse.ofRows, symbolRows, List.mem_dedup,
    List.mem_flatMap, List.mem_map, List.mem_filter, Prod.exists, decide_eq_true_eq]
  constructor
  · rintro ⟨key', path, ⟨sf, hsf, gf, rid, ⟨hgf, rfl⟩, heq⟩, rfl⟩
    obtain ⟨rfl, rfl⟩ := Prod.mk.inj heq
    exact ⟨sf, hsf, rfl, gf, mem_revisedFiles.mp hgf⟩
  · rintro ⟨sf, hsf, rfl, gf, hgf⟩
    exact ⟨sf.canonicalSymbolKey, gf.canonicalPath,
      ⟨sf, hsf, gf, sf.revisionId, ⟨mem_revisedFiles.mpr hgf, rfl⟩, rfl⟩, rfl⟩

/-- **What resolves to a symbol**: a key that is there, or the target of an explicit
relationship. -/
lemma resolvedSymbol_iff_has :
    (resolveRelationship rel u).status = .resolvedSymbol ↔ u.Has rel.targetRefValue ∨
      rel.relationshipType.isExplicit = true ∧ rel.targetRefKind ≠ .externalSymbol := by
  unfold resolveRelationship resolveByDisplayName
  dsimp only
  by_cases hthis : rel.targetRefValue ∈ u.thisExecution
  · simp only [SymbolUniverse.Has, hthis, or_true, and_true, if_true, true_or, iff_true]
    split <;> rfl
  · by_cases hdef : u.Defines rel.targetRefValue
    · simp only [SymbolUniverse.Has, hthis, hdef, or_false, and_true, if_false, if_true, or_true,
        true_or, iff_true]
      split <;> rfl
    · simp only [SymbolUniverse.Has, hthis, hdef, or_self, and_false, if_false, false_or]
      by_cases hexp : rel.relationshipType.isExplicit = true ∧ rel.targetRefKind ≠ .externalSymbol
      · simp [hexp]
      · rw [if_neg hexp]
        refine iff_of_false (fun h => ?_) hexp
        split at h
        · exact absurd h (by simp)
        · split at h
          · exact absurd h (by simp)
          · split at h
            · exact absurd h (by simp)
            · split at h
              · exact absurd h (by simp)
              · exact absurd h (by simp)

lemma resolvedSymbol_iff (hu : u.thisExecution = []) :
    (resolveRelationship rel u).status = .resolvedSymbol ↔ u.Defines rel.targetRefValue ∨
      rel.relationshipType.isExplicit = true ∧ rel.targetRefKind ≠ .externalSymbol := by
  rw [resolvedSymbol_iff_has, SymbolUniverse.Has, hu, or_iff_right (List.not_mem_nil)]

/-- A symbol is resolved to the value it was looked up by. -/
lemma resolved_of_resolvedSymbol
    (h : (resolveRelationship rel u).status = .resolvedSymbol) :
    (resolveRelationship rel u).resolved = some (.symbol rel.targetRefValue) := by
  unfold resolveRelationship resolveByDisplayName at h ⊢
  dsimp only at h ⊢
  split_ifs at h ⊢
  · rfl
  · rfl
  · rfl
  · rfl
  · exfalso
    split at h
    · exact absurd h (by simp)
    · split at h
      · exact absurd h (by simp)
      · exact absurd h (by simp)

lemma confidence_bounds (hrel : 0 ≤ rel.confidence ∧ rel.confidence ≤ 1) :
    0 ≤ (resolveRelationship rel u).confidence ∧ (resolveRelationship rel u).confidence ≤ 1 := by
  unfold resolveRelationship resolveByDisplayName
  dsimp only
  split_ifs
  · exact hrel
  · norm_num
  · norm_num
  · norm_num
  · norm_num
  · norm_num
  · split
    · norm_num
    · split
      · norm_num
      · norm_num

end Pass

end WorkspaceAtlas
