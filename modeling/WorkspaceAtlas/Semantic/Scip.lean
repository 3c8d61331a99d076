/-
# From a SCIP index to mapped documents

`scip_mapping.rs`: the occurrences and the symbol information of a decoded index become the
symbols and relationships that are stored.  A target counts as a symbol of the index if some
document of the same index has symbol information for it or if it is local; any other one is
external.
-/
import WorkspaceAtlas.Semantic.Plan

namespace WorkspaceAtlas

/-! ## A decoded index -/

/-- `ScipRange`. -/
structure ScipRange where
  startLine : Int32
  startCharacter : Int32
  endLine : Int32
  endCharacter : Int32
  deriving DecidableEq, Repr

/-- `ScipOccurrence`, as far as it is mapped. -/
structure ScipOccurrence where
  range : ScipRange
  symbol : String
  symbolRoles : Int32
  deriving DecidableEq, Repr

/-- `scip_decoder::ScipRelationship`. -/
structure ScipSymbolRelationship where
  symbol : String
  isReference : Bool
  isImplementation : Bool
  isTypeDefinition : Bool
  isDefinition : Bool
  deriving DecidableEq, Repr

/-- `ScipSymbolInformation`, as far as it is mapped. -/
structure ScipSymbolInformation where
  symbol : String
  relationships : List ScipSymbolRelationship
  deriving DecidableEq, Repr

/-- `ScipDocument`. -/
structure ScipDocument where
  relativePath : String
  occurrences : List ScipOccurrence
  symbols : List ScipSymbolInformation
  positionEncoding : PositionEncoding
  deriving DecidableEq, Repr

/-- `ScipIndex`, as far as it is mapped. -/
structure ScipIndex where
  documents : List ScipDocument
  deriving DecidableEq, Repr

/-- `symbol_role::DEFINITION`. -/
def ScipOccurrence.isDefinition (occ : ScipOccurrence) : Bool := occ.symbolRoles &&& 0x1 ≠ 0

/-- `symbol_role::IMPORT`. -/
def ScipOccurrence.isImport (occ : ScipOccurrence) : Bool := occ.symbolRoles &&& 0x2 ≠ 0

/-! ## Keys -/

/-- `is_local_symbol`. -/
def isLocalSymbol (rawScipSymbol : String) : Bool :=
  "local ".toList.isPrefixOf rawScipSymbol.toList

/-- `canonical_symbol_key`. -/
def canonicalSymbolKey (rawScipSymbol canonicalDocumentPath : String) : String :=
  if isLocalSymbol rawScipSymbol then
    "scip-local:" ++ canonicalDocumentPath ++ ":" ++ rawScipSymbol
  else "scip:" ++ rawScipSymbol

/-- A key is never the symbol itself. -/
lemma canonicalSymbolKey_ne (raw path : String) : canonicalSymbolKey raw path ≠ raw := by
  intro h
  have hlength := congrArg String.length h
  unfold canonicalSymbolKey at hlength
  split at hlength
  · simp only [String.length_append] at hlength
    have : "scip-local:".length = 11 := rfl
    omega
  · rw [String.length_append] at hlength
    have : "scip:".length = 5 := rfl
    omega

/-- The key of a global symbol does not depend on a path. -/
lemma canonicalSymbolKey_global {raw : String} (h : isLocalSymbol raw = false)
    (path path' : String) : canonicalSymbolKey raw path = canonicalSymbolKey raw path' := by
  rw [canonicalSymbolKey, canonicalSymbolKey, if_neg (by simp [h]), if_neg (by simp [h])]

/-- The key of a local symbol names its document. -/
lemma canonicalSymbolKey_local_inj {raw path path' : String} (h : isLocalSymbol raw = true) :
    canonicalSymbolKey raw path = canonicalSymbolKey raw path' ↔ path = path' := by
  rw [canonicalSymbolKey, canonicalSymbolKey, if_pos h, if_pos h]
  constructor
  · intro heq
    have hlist := congrArg String.toList heq
    simp only [String.toList_append, List.append_assoc, List.append_cancel_left_eq] at hlist
    exact String.toList_inj.mp (List.append_cancel_right hlist)
  · rintro rfl
    rfl

/-! ## The mapping -/

/-- `locally_defined_symbol_set`: the symbols that the index has information for. -/
def locallyDefinedSymbolSet (index : ScipIndex) : List String :=
  index.documents.flatMap fun doc => doc.symbols.map ScipSymbolInformation.symbol

/-- What a target is taken for. -/
def targetKindOf (locallyDefinedSymbols : List String) (symbol : String) : ScipRefKind :=
  if symbol ∈ locallyDefinedSymbols ∨ isLocalSymbol symbol then .symbol else .externalSymbol

/-- `map_document_path`; `confine` stands for the confinement to the roots in the file
system. -/
def mapDocumentPath (confine : String → Except AtlasError String) (docRelativePath : String) :
    Except AtlasError String :=
  if docRelativePath.isEmpty then
    .error (.other "SCIP document relative_path must not be empty")
  else if ['/'].isPrefixOf docRelativePath.toList then .error (.pathEscape docRelativePath)
  else confine docRelativePath

/-- The symbol of a definition occurrence. -/
def ScipOccurrence.toSymbol (canonicalPath : String) (occ : ScipOccurrence) : MappedSymbol where
  canonicalSymbolKey := canonicalSymbolKey occ.symbol canonicalPath
  providerSymbolId := occ.symbol
  canonicalDocumentPath := canonicalPath
  isLocal := isLocalSymbol occ.symbol
  startLine := occ.range.startLine.toInt
  startColumn := occ.range.startCharacter.toInt
  endLine := occ.range.endLine.toInt
  endColumn := occ.range.endCharacter.toInt
  confidence := 95 / 100

/-- A relationship of an occurrence. -/
def ScipOccurrence.toRelationship (canonicalPath : String) (locallyDefinedSymbols : List String)
    (relationshipType : ScipRelationship) (reasonCode : String) (occ : ScipOccurrence) :
    MappedRelationship where
  relationshipType := relationshipType
  sourceCanonicalDocumentPath := canonicalPath
  sourceStartLine := occ.range.startLine.toInt
  sourceStartColumn := occ.range.startCharacter.toInt
  sourceEndLine := occ.range.endLine.toInt
  sourceEndColumn := occ.range.endCharacter.toInt
  targetRefKind := targetKindOf locallyDefinedSymbols occ.symbol
  targetRefValue := occ.symbol
  providerSymbolId := occ.symbol
  confidence := 90 / 100
  reasonCode := reasonCode

/-- The body of the loop of `map_document` over the occurrences. -/
def mapOccurrence (canonicalPath : String) (locallyDefinedSymbols : List String)
    (occ : ScipOccurrence) : List MappedSymbol × List MappedRelationship :=
  if occ.symbol.isEmpty then ([], [])
  else
    (if occ.isDefinition then [occ.toSymbol canonicalPath] else [],
      occ.toRelationship canonicalPath locallyDefinedSymbols .references "scip_occurrence" ::
        if occ.isImport then
          [occ.toRelationship canonicalPath locallyDefinedSymbols .imports "scip_import_role"]
        else [])

/-- `map_symbol_information_relationships`. -/
def mapSymbolInformationRelationships (sym : ScipSymbolInformation) (canonicalPath : String)
    (locallyDefinedSymbols : List String) : List MappedRelationship :=
  sym.relationships.flatMap fun rel =>
    let push (relationshipType : ScipRelationship) : MappedRelationship :=
      ⟨relationshipType, canonicalPath, -1, -1, -1, -1,
        targetKindOf locallyDefinedSymbols rel.symbol, rel.symbol, sym.symbol, 97 / 100,
        "scip_symbol_relationship"⟩
    (if rel.isImplementation then [push .implements] else []) ++
      (if rel.isTypeDefinition then [push .typeDefinition] else []) ++
      (if rel.isDefinition then [push .definedBy] else [])

/-- `map_document`, less its diagnostics. -/
def mapDocument (confine : String → Except AtlasError String) (doc : ScipDocument)
    (locallyDefinedSymbols : List String) : MappedDocument :=
  match mapDocumentPath confine doc.relativePath with
  | .error _ => ⟨doc.relativePath, doc.positionEncoding, [], [], true⟩
  | .ok canonicalPath =>
    let occurrences := doc.occurrences.map (mapOccurrence canonicalPath locallyDefinedSymbols)
    { canonicalPath := canonicalPath
      positionEncoding := doc.positionEncoding
      symbols := occurrences.flatMap Prod.fst
      relationships := occurrences.flatMap Prod.snd ++ doc.symbols.flatMap fun sym =>
        mapSymbolInformationRelationships sym canonicalPath locallyDefinedSymbols
      partlyMapped := false }

/-! ## What is mapped -/

/-- The relationships of a document: references and imports of the occurrences, and what the
symbol information says. -/
inductive MappedAs (locallyDefinedSymbols : List String) (path : String) :
    MappedRelationship → Prop
  | reference (occ : ScipOccurrence) : MappedAs locallyDefinedSymbols path
      (occ.toRelationship path locallyDefinedSymbols .references "scip_occurrence")
  | importRole (occ : ScipOccurrence) : MappedAs locallyDefinedSymbols path
      (occ.toRelationship path locallyDefinedSymbols .imports "scip_import_role")
  | information (kind : ScipRelationship)
      (hkind : kind = .implements ∨ kind = .typeDefinition ∨ kind = .definedBy)
      (source target : String) : MappedAs locallyDefinedSymbols path
      ⟨kind, path, -1, -1, -1, -1, targetKindOf locallyDefinedSymbols target, target, source,
        97 / 100, "scip_symbol_relationship"⟩

/-- What every mapped relationship of a document has in common. -/
structure MappedFrom (locallyDefinedSymbols : List String) (path : String)
    (rel : MappedRelationship) : Prop where
  path_eq : rel.sourceCanonicalDocumentPath = path
  kind_eq : rel.targetRefKind = targetKindOf locallyDefinedSymbols rel.targetRefValue
  /-- No relationship is a call, and none is composed. -/
  type_mem : rel.relationshipType ∈
    [ScipRelationship.references, .imports, .implements, .typeDefinition, .definedBy]
  reason_ne : rel.reasonCode ≠ "composed_span_match"
  confidence_mem : 0 ≤ rel.confidence ∧ rel.confidence ≤ 1

/-- The confidence and the reason of a kind of relationship. -/
def ScipRelationship.evidence : ScipRelationship → ℚ × String
  | references => (90 / 100, "scip_occurrence")
  | imports => (90 / 100, "scip_import_role")
  | _ => (97 / 100, "scip_symbol_relationship")

section Mapping

variable {confine : String → Except AtlasError String} {doc : ScipDocument}
  {defined : List String} {rel : MappedRelationship} {sym : MappedSymbol} {path : String}

lemma mappedAs_of_mem_mapOccurrence {occ : ScipOccurrence}
    (h : rel ∈ (mapOccurrence path defined occ).2) : MappedAs defined path rel := by
  rw [mapOccurrence] at h
  split at h
  · exact absurd h (by simp)
  · rcases List.mem_cons.mp h with rfl | h
    · exact .reference occ
    · split at h
      · obtain rfl := List.mem_singleton.mp h
        exact .importRole occ
      · exact absurd h (by simp)

lemma mappedAs_of_mem_information {sym : ScipSymbolInformation}
    (h : rel ∈ mapSymbolInformationRelationships sym path defined) :
    MappedAs defined path rel := by
  obtain ⟨r, -, h⟩ := List.mem_flatMap.mp h
  rcases List.mem_append.mp h with h | h
  · rcases List.mem_append.mp h with h | h
    · split at h
      · obtain rfl := List.mem_singleton.mp h
        exact .information _ (Or.inl rfl) _ _
      · exact absurd h (by simp)
    · split at h
      · obtain rfl := List.mem_singleton.mp h
        exact .information _ (Or.inr (Or.inl rfl)) _ _
      · exact absurd h (by simp)
  · split at h
    · obtain rfl := List.mem_singleton.mp h
      exact .information _ (Or.inr (Or.inr rfl)) _ _
    · exact absurd h (by simp)

/-- A mapped document relates its own path to the targets. -/
lemma mapDocument_mappedAs (h : rel ∈ (mapDocument confine doc defined).relationships) :
    MappedAs defined (mapDocument confine doc defined).canonicalPath rel := by
  unfold mapDocument at h ⊢
  split at h
  next => exact absurd h (by simp)
  next path hpath =>
    show MappedAs defined path rel
    rcases List.mem_append.mp h with h | h
    · obtain ⟨pair, hpair, h⟩ := List.mem_flatMap.mp h
      obtain ⟨occ, -, rfl⟩ := List.mem_map.mp hpair
      exact mappedAs_of_mem_mapOccurrence h
    · obtain ⟨sym, -, h⟩ := List.mem_flatMap.mp h
      exact mappedAs_of_mem_information h

/-- The symbols of a mapped document are those of its occurrences. -/
lemma mapDocument_toSymbol (h : sym ∈ (mapDocument confine doc defined).symbols) :
    ∃ occ : ScipOccurrence,
      sym = occ.toSymbol (mapDocument confine doc defined).canonicalPath := by
  unfold mapDocument at h ⊢
  split at h
  next => exact absurd h (by simp)
  next path hpath =>
    show ∃ occ : ScipOccurrence, sym = occ.toSymbol path
    obtain ⟨pair, hpair, h⟩ := List.mem_flatMap.mp h
    obtain ⟨occ, -, rfl⟩ := List.mem_map.mp hpair
    rw [mapOccurrence] at h
    split at h
    · exact absurd h (by simp)
    · dsimp only at h
      split at h
      · exact ⟨occ, List.mem_singleton.mp h⟩
      · exact absurd h (by simp)

lemma MappedAs.evidence_eq (h : MappedAs defined path rel) :
    (rel.confidence, rel.reasonCode) = rel.relationshipType.evidence := by
  cases h with
  | reference occ => rfl
  | importRole occ => rfl
  | information kind hkind source target => rcases hkind with rfl | rfl | rfl <;> rfl

lemma MappedAs.mappedFrom (h : MappedAs defined path rel) : MappedFrom defined path rel := by
  have hoccurrence : "scip_occurrence" ≠ "composed_span_match" := by decide
  have himport : "scip_import_role" ≠ "composed_span_match" := by decide
  have hinformation : "scip_symbol_relationship" ≠ "composed_span_match" := by decide
  have hnine : (0 : ℚ) ≤ 90 / 100 ∧ (90 / 100 : ℚ) ≤ 1 := by norm_num
  cases h with
  | reference occ => exact ⟨rfl, rfl, by simp [ScipOccurrence.toRelationship], hoccurrence, hnine⟩
  | importRole occ => exact ⟨rfl, rfl, by simp [ScipOccurrence.toRelationship], himport, hnine⟩
  | information kind hkind source target =>
    refine ⟨rfl, rfl, ?_, hinformation, by norm_num, by norm_num⟩
    rcases hkind with rfl | rfl | rfl <;> simp

/-- **A mapped document** relates its own path to the targets, by the kind the index gives
them. -/
theorem mapDocument_mappedFrom (h : rel ∈ (mapDocument confine doc defined).relationships) :
    MappedFrom defined (mapDocument confine doc defined).canonicalPath rel :=
  (mapDocument_mappedAs h).mappedFrom

end Mapping

end WorkspaceAtlas
