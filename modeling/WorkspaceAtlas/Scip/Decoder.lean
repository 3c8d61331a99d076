/-
# The SCIP decoder

The message decoders of `scip_decoder.rs`, each by the arms of its `match`.
-/
import WorkspaceAtlas.Scip.Message
import WorkspaceAtlas.Semantic.Scip

namespace WorkspaceAtlas.ScipDecoder

open Protobuf Transition

/-! ## Decoded types -/

/-- `ScipMetadata`. -/
structure ScipMetadata where
  toolName : String := ""
  toolVersion : String := ""
  projectRoot : String := ""
  deriving DecidableEq, Repr

/-- `ScipOccurrence`, with the field that is not mapped. -/
structure ScipOccurrence extends WorkspaceAtlas.ScipOccurrence where
  range := ⟨0, 0, 0, 0⟩
  symbol := ""
  symbolRoles := 0
  syntaxKind : Int32 := 0
  deriving DecidableEq, Repr

/-- `ScipSymbolInformation`, with the fields that are not mapped. -/
structure ScipSymbolInformation extends WorkspaceAtlas.ScipSymbolInformation where
  symbol := ""
  relationships := []
  documentation : List String := []
  kind : Int32 := 0
  deriving DecidableEq, Repr

/-- `ScipDocument`. -/
structure ScipDocument where
  language : String := ""
  relativePath : String := ""
  occurrences : List ScipOccurrence := []
  symbols : List ScipSymbolInformation := []
  positionEncoding : PositionEncoding := .unspecified
  deriving DecidableEq, Repr

/-- `ScipIndex`. -/
structure ScipIndex where
  metadata : Option ScipMetadata := none
  documents : List ScipDocument := []
  externalSymbols : List ScipSymbolInformation := []
  deriving DecidableEq, Repr

/-- `ScipRange::default`. -/
def defaultRange : ScipRange := ⟨0, 0, 0, 0⟩

/-- `ScipRelationship::default`. -/
def defaultRelationship : ScipSymbolRelationship := ⟨"", false, false, false, false⟩

/-- `PositionEncoding::from_scip_value`. -/
def fromScipValue (value : Int32) : PositionEncoding :=
  if value = 0 then .unspecified
  else if value = 1 then .utf8
  else if value = 2 then .utf16
  else if value = 3 then .utf32
  else .unknown value.toInt

/-- `varint_to_i32`: the low 32 bits. -/
def varintToI32 (v : ℕ) : Int32 := Int32.ofNat v

/-! ## Arms that several messages have -/

/-- `std::str::from_utf8`, for the named field. -/
def fromUtf8 (field : String) (bytes : Bytes) : DResult String :=
  match String.fromUTF8? ⟨bytes.toArray⟩ with
  | some s => pure s
  | none => throw (.error (.invalidUtf8 field))

namespace FieldAction

variable {σ α : Type}

/-- `r.read_string(field, max)?`. -/
def string (field : String) (max : ℕ) (k : String → σ) : FieldAction σ :=
  .bytes max fun bytes => do
    let s ← fromUtf8 field bytes
    pure (k s)

/-- A message in the message. -/
def message (max : ℕ) (decode : Bytes → DResult α) (k : α → σ) : FieldAction σ :=
  .bytes max fun sub => do
    let value ← decode sub
    pure (k value)

/-- One more entry of a list, for which there has to be room. -/
def push (limit : String) (len max : ℕ) (action : FieldAction σ) : FieldAction σ :=
  if max ≤ len then .full limit len max else action

/-- `varint_to_i32(r.read_varint()?)`. -/
def int32 (k : Int32 → σ) : FieldAction σ := .varint fun v => k (varintToI32 v)

/-- `r.read_varint()? != 0`. -/
def bool (k : Bool → σ) : FieldAction σ := .varint fun v => k (v ≠ 0)

end FieldAction

/-! ## The decoders -/

/-- The `match` of `decode_relationship`. -/
def relationshipArms (limits : DecodeLimits) : Arms ScipSymbolRelationship :=
  fun rel field wireType =>
    match field, wireType with
    | 1, 2 => .string "Relationship.symbol" limits.maxStringBytes fun s => { rel with symbol := s }
    | 2, 0 => .bool fun b => { rel with isReference := b }
    | 3, 0 => .bool fun b => { rel with isImplementation := b }
    | 4, 0 => .bool fun b => { rel with isTypeDefinition := b }
    | 5, 0 => .bool fun b => { rel with isDefinition := b }
    | _, _ => .skip limits.maxStringBytes

/-- `decode_relationship`. -/
def decodeRelationship (limits : DecodeLimits) (bytes : Bytes) : DResult ScipSymbolRelationship :=
  decodeMessage (relationshipArms limits) defaultRelationship bytes

/-- The `match` of `decode_symbol_information`. -/
def symbolInformationArms (limits : DecodeLimits) : Arms ScipSymbolInformation :=
  fun sym field wireType =>
    match field, wireType with
    | 1, 2 =>
      .string "SymbolInformation.symbol" limits.maxStringBytes fun s => { sym with symbol := s }
    | 3, 2 =>
      .push "max_documentation_entries_per_symbol" sym.documentation.length
        limits.maxDocumentationEntriesPerSymbol
        (.string "SymbolInformation.documentation" limits.maxStringBytes fun s =>
          { sym with documentation := sym.documentation ++ [s] })
    | 4, 2 =>
      .push "max_relationships_per_symbol" sym.relationships.length
        limits.maxRelationshipsPerSymbol
        (.message limits.maxStringBytes (decodeRelationship limits) fun rel =>
          { sym with relationships := sym.relationships ++ [rel] })
    | 5, 0 => .int32 fun n => { sym with kind := n }
    | _, _ => .skip limits.maxStringBytes

/-- `decode_symbol_information`. -/
def decodeSymbolInformation (limits : DecodeLimits) (bytes : Bytes) :
    DResult ScipSymbolInformation :=
  decodeMessage (symbolInformationArms limits) {} bytes

/-- The `match` of `decode_multi_line_range`. -/
def multiLineRangeArms : Arms ScipRange := fun range field wireType =>
  match field, wireType with
  | 1, 0 => .int32 fun n => { range with startLine := n }
  | 2, 0 => .int32 fun n => { range with startCharacter := n }
  | 3, 0 => .int32 fun n => { range with endLine := n }
  | 4, 0 => .int32 fun n => { range with endCharacter := n }
  | _, _ => .skip 4096

/-- `decode_multi_line_range`. -/
def decodeMultiLineRange (bytes : Bytes) : DResult ScipRange :=
  decodeMessage multiLineRangeArms defaultRange bytes

/-- The variables of `decode_single_line_range`. -/
structure SingleLineRange where
  line : Int32
  startCharacter : Int32
  endCharacter : Int32
  deriving DecidableEq, Repr

/-- The `match` of `decode_single_line_range`. -/
def singleLineRangeArms : Arms SingleLineRange := fun range field wireType =>
  match field, wireType with
  | 1, 0 => .int32 fun n => { range with line := n }
  | 2, 0 => .int32 fun n => { range with startCharacter := n }
  | 3, 0 => .int32 fun n => { range with endCharacter := n }
  | _, _ => .skip 4096

/-- `decode_single_line_range`. -/
def decodeSingleLineRange (bytes : Bytes) : DResult ScipRange := do
  let range ← decodeMessage singleLineRangeArms ⟨0, 0, 0⟩ bytes
  pure ⟨range.line, range.startCharacter, range.line, range.endCharacter⟩

/-- The loop of `decode_packed_varints`. -/
def packedVarintsLoop : ℕ → List Int32 → Decode (List Int32)
  | 0, _ => throw (.fault .endlessLoop)
  | n + 1, out => fun r =>
    if r.pos < r.buf.length then do
      let (v, r) ← readVarint r
      packedVarintsLoop n (out ++ [varintToI32 v]) r
    else pure (out, r)

/-- `decode_packed_varints`. -/
def decodePackedVarints (bytes : Bytes) : DResult (List Int32) := do
  let (out, _) ← packedVarintsLoop (bytes.length + 1) [] ⟨bytes, 0⟩
  pure out

/-- `range_from_legacy`. -/
def rangeFromLegacy : List Int32 → ScipRange
  | [line, startCharacter, endCharacter] => ⟨line, startCharacter, line, endCharacter⟩
  | [startLine, startCharacter, endLine, endCharacter] =>
    ⟨startLine, startCharacter, endLine, endCharacter⟩
  | _ => defaultRange

/-- The variables of `decode_occurrence`. -/
structure OccurrenceState where
  occ : ScipOccurrence := {}
  legacyRange : List Int32 := []
  deriving DecidableEq, Repr

/-- The `match` of `decode_occurrence`. -/
def occurrenceArms (limits : DecodeLimits) : Arms OccurrenceState := fun s field wireType =>
  match field, wireType with
  -- the deprecated packed `repeated int32 range = 1`
  | 1, 2 => .message limits.maxStringBytes decodePackedVarints fun v => { s with legacyRange := v }
  | 1, 0 => .int32 fun n => { s with legacyRange := s.legacyRange ++ [n] }
  | 2, 2 =>
    .string "Occurrence.symbol" limits.maxStringBytes fun symbol =>
      { s with occ := { s.occ with symbol := symbol } }
  | 3, 0 => .int32 fun n => { s with occ := { s.occ with symbolRoles := n } }
  | 5, 0 => .int32 fun n => { s with occ := { s.occ with syntaxKind := n } }
  | 8, 2 =>
    .message 256 decodeSingleLineRange fun range => { s with occ := { s.occ with range := range } }
  | 9, 2 =>
    .message 256 decodeMultiLineRange fun range => { s with occ := { s.occ with range := range } }
  | _, _ => .skip limits.maxStringBytes

/-- What `decode_occurrence` does after its loop. -/
def OccurrenceState.finish (s : OccurrenceState) : ScipOccurrence :=
  if s.occ.range = defaultRange ∧ s.legacyRange ≠ [] then
    { s.occ with range := rangeFromLegacy s.legacyRange }
  else s.occ

/-- Without the deprecated range nothing is left to finish. -/
lemma finish_of_nil (occ : ScipOccurrence) : OccurrenceState.finish ⟨occ, []⟩ = occ := by
  rw [OccurrenceState.finish, if_neg (by simp)]

/-- `decode_occurrence`. -/
def decodeOccurrence (limits : DecodeLimits) (bytes : Bytes) : DResult ScipOccurrence := do
  let s ← decodeMessage (occurrenceArms limits) {} bytes
  pure s.finish

/-- The `match` of `decode_document`. -/
def documentArms (limits : DecodeLimits) : Arms ScipDocument := fun doc field wireType =>
  match field, wireType with
  | 1, 2 =>
    .string "Document.relative_path" limits.maxStringBytes fun s => { doc with relativePath := s }
  | 2, 2 =>
    .push "max_occurrences_per_document" doc.occurrences.length limits.maxOccurrencesPerDocument
      (.message limits.maxStringBytes (decodeOccurrence limits) fun occ =>
        { doc with occurrences := doc.occurrences ++ [occ] })
  | 3, 2 =>
    .push "max_symbols_per_document" doc.symbols.length limits.maxSymbolsPerDocument
      (.message limits.maxStringBytes (decodeSymbolInformation limits) fun sym =>
        { doc with symbols := doc.symbols ++ [sym] })
  | 4, 2 => .string "Document.language" limits.maxStringBytes fun s => { doc with language := s }
  | 6, 0 => .int32 fun n => { doc with positionEncoding := fromScipValue n }
  | _, _ => .skip limits.maxStringBytes

/-- `decode_document`. -/
def decodeDocument (limits : DecodeLimits) (bytes : Bytes) : DResult ScipDocument :=
  decodeMessage (documentArms limits) {} bytes

/-- The variables of `decode_tool_info`. -/
structure ToolInfo where
  name : String := ""
  version : String := ""
  deriving DecidableEq, Repr

/-- The `match` of `decode_tool_info`. -/
def toolInfoArms (limits : DecodeLimits) : Arms ToolInfo := fun info field wireType =>
  match field, wireType with
  | 1, 2 => .string "ToolInfo.name" limits.maxStringBytes fun s => { info with name := s }
  | 2, 2 => .string "ToolInfo.version" limits.maxStringBytes fun s => { info with version := s }
  | _, _ => .skip limits.maxStringBytes

/-- `decode_tool_info`. -/
def decodeToolInfo (limits : DecodeLimits) (bytes : Bytes) : DResult ToolInfo :=
  decodeMessage (toolInfoArms limits) {} bytes

/-- The `match` of `decode_metadata`. -/
def metadataArms (limits : DecodeLimits) : Arms ScipMetadata := fun metadata field wireType =>
  match field, wireType with
  | 2, 2 =>
    .message limits.maxStringBytes (decodeToolInfo limits) fun info =>
      { metadata with toolName := info.name, toolVersion := info.version }
  | 3, 2 =>
    .string "Metadata.project_root" limits.maxStringBytes fun s =>
      { metadata with projectRoot := s }
  | _, _ => .skip limits.maxStringBytes

/-- `decode_metadata`. -/
def decodeMetadata (limits : DecodeLimits) (bytes : Bytes) : DResult ScipMetadata :=
  decodeMessage (metadataArms limits) {} bytes

/-- The `match` of `decode_index`. -/
def indexArms (limits : DecodeLimits) : Arms ScipIndex := fun index field wireType =>
  match field, wireType with
  | 1, 2 =>
    .message (max limits.maxStringBytes 4096) (decodeMetadata limits) fun metadata =>
      { index with metadata := some metadata }
  | 2, 2 =>
    .push "max_documents" index.documents.length limits.maxDocuments
      (.message limits.maxMessageBytes (decodeDocument limits) fun doc =>
        { index with documents := index.documents ++ [doc] })
  | 3, 2 =>
    .push "max_external_symbols" index.externalSymbols.length limits.maxExternalSymbols
      (.message limits.maxStringBytes (decodeSymbolInformation limits) fun sym =>
        { index with externalSymbols := index.externalSymbols ++ [sym] })
  | _, _ => .skip limits.maxStringBytes

/-- `decode_index`. -/
def decodeIndex (limits : DecodeLimits) (bytes : Bytes) : DResult ScipIndex :=
  if limits.maxMessageBytes < bytes.length then
    throw (.error (.limitExceeded "max_message_bytes" bytes.length limits.maxMessageBytes))
  else decodeMessage (indexArms limits) {} bytes

example : decodeIndex .default [] = .ok {} := by decide

end WorkspaceAtlas.ScipDecoder
