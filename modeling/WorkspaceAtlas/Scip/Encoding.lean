/-
# Encodings of a SCIP index

An encoding of an index writes the fields of every message in some order, the values of a
repeated field in theirs.  A field whose value is the default may be left out.  The range of an
occurrence is written as a message of its own or as the deprecated `range` field, packed or not.
-/
import WorkspaceAtlas.Protobuf.Encoding
import WorkspaceAtlas.Scip.Safety

namespace WorkspaceAtlas.ScipDecoder

open Protobuf Transition

/-! ## Values -/

/-- An `int32` as a varint: its 64-bit two's complement. -/
def int32Varint (x : Int32) : ℕ := (x.toInt % 2 ^ 64).toNat

/-- The number of a position encoding.  A number that has a name is not unknown. -/
def scipValue : PositionEncoding → Option Int32
  | .unspecified => some 0
  | .utf8 => some 1
  | .utf16 => some 2
  | .utf32 => some 3
  | .unknown n =>
    if -2 ^ 31 ≤ n ∧ n < 2 ^ 31 ∧ ¬ (0 ≤ n ∧ n ≤ 3) then some (Int32.ofInt n) else none

section Values

variable (limits : DecodeLimits)

/-- The value spells the string. -/
def StringValue (s : String) (v : WireValue) : Prop :=
  v = .len (utf8Bytes s) ∧ stringWithin limits s

/-- The value spells the integer. -/
def Int32Value (x : Int32) (v : WireValue) : Prop := v = .varint (int32Varint x)

/-- The value spells the truth value. -/
def BoolValue (b : Bool) (v : WireValue) : Prop := v = .varint b.toNat

/-- The value spells the position encoding. -/
def EncodingValue (e : PositionEncoding) (v : WireValue) : Prop :=
  ∃ n, scipValue e = some n ∧ Int32Value n v

/-- The value is a message of at most the given size, with such fields. -/
def MessageValue {α : Type} (max : ℕ) (Fields : α → List Field → Prop) (a : α)
    (v : WireValue) : Prop :=
  ∃ sub fs, v = .len sub ∧ sub.length ≤ max ∧ sub.length < 2 ^ 63 ∧ Body fs sub ∧ Fields a fs

/-- The value is a message of at most the given size that is decoded to this. -/
def Decodes {α : Type} (max : ℕ) (decode : Bytes → DResult α) (a : α) (v : WireValue) : Prop :=
  ∃ sub, v = .len sub ∧ sub.length ≤ max ∧ decode sub = .ok a

/-- The fields take one relationship to another. -/
structure RelationshipFields (cur target : ScipSymbolRelationship) (fs : List Field) : Prop where
  numbers : Numbered [1, 2, 3, 4, 5] fs
  symbol : Singular 1 (StringValue limits target.symbol) cur.symbol target.symbol fs
  isReference : Singular 2 (BoolValue target.isReference) cur.isReference target.isReference fs
  isImplementation :
    Singular 3 (BoolValue target.isImplementation) cur.isImplementation target.isImplementation fs
  isTypeDefinition :
    Singular 4 (BoolValue target.isTypeDefinition) cur.isTypeDefinition target.isTypeDefinition fs
  isDefinition :
    Singular 5 (BoolValue target.isDefinition) cur.isDefinition target.isDefinition fs

/-- The fields take one symbol information to another, where the given values spell
relationships. -/
structure SymbolInformationFields (Relationship : ScipSymbolRelationship → WireValue → Prop)
    (cur target : ScipSymbolInformation) (fs : List Field) : Prop where
  numbers : Numbered [1, 3, 4, 5] fs
  symbol : Singular 1 (StringValue limits target.symbol) cur.symbol target.symbol fs
  documentation : Repeated 3 limits.maxDocumentationEntriesPerSymbol (StringValue limits)
    cur.documentation target.documentation fs
  relationships : Repeated 4 limits.maxRelationshipsPerSymbol Relationship
    cur.relationships target.relationships fs
  kind : Singular 5 (Int32Value target.kind) cur.kind target.kind fs

/-- The fields take one single-line range to another. -/
structure SingleLineFields (cur target : SingleLineRange) (fs : List Field) : Prop where
  numbers : Numbered [1, 2, 3] fs
  line : Singular 1 (Int32Value target.line) cur.line target.line fs
  startCharacter :
    Singular 2 (Int32Value target.startCharacter) cur.startCharacter target.startCharacter fs
  endCharacter :
    Singular 3 (Int32Value target.endCharacter) cur.endCharacter target.endCharacter fs

/-- The fields take one multi-line range to another. -/
structure MultiLineFields (cur target : ScipRange) (fs : List Field) : Prop where
  numbers : Numbered [1, 2, 3, 4] fs
  startLine : Singular 1 (Int32Value target.startLine) cur.startLine target.startLine fs
  startCharacter :
    Singular 2 (Int32Value target.startCharacter) cur.startCharacter target.startCharacter fs
  endLine : Singular 3 (Int32Value target.endLine) cur.endLine target.endLine fs
  endCharacter :
    Singular 4 (Int32Value target.endCharacter) cur.endCharacter target.endCharacter fs

/-- The value is a message with such fields, of whatever size. -/
def RangeValue {α : Type} (Fields : α → List Field → Prop) (a : α) (v : WireValue) : Prop :=
  ∃ sub fs, v = .len sub ∧ Body fs sub ∧ Fields a fs

/-- The integers of the deprecated `range` field: four, or three for a range on one line. -/
def LegacyValues (range : ScipRange) (vs : List Int32) : Prop :=
  vs = [range.startLine, range.startCharacter, range.endLine, range.endCharacter] ∨
    (range.startLine = range.endLine ∧
      vs = [range.startLine, range.startCharacter, range.endCharacter])

/-- The value is a packed chunk of these integers. -/
def PackedChunk (chunk : List Int32) (v : WireValue) : Prop :=
  ∃ payload, v = .len payload ∧ PackedVarints (chunk.map int32Varint) payload

/-- How the range of an occurrence may be written. -/
inductive RangeWritten (range : ScipRange) (fs : List Field) : Prop where
  /-- As a single-line message. -/
  | singleLine {v : WireValue} (hline : range.startLine = range.endLine)
      (h : RangeValue (SingleLineFields ⟨0, 0, 0⟩)
        ⟨range.startLine, range.startCharacter, range.endCharacter⟩ v)
      (h₈ : valuesOf 8 fs = [v]) (h₉ : valuesOf 9 fs = []) (h₁ : valuesOf 1 fs = [])
  /-- As a multi-line message. -/
  | multiLine {v : WireValue} (h : RangeValue (MultiLineFields defaultRange) range v)
      (h₈ : valuesOf 8 fs = []) (h₉ : valuesOf 9 fs = [v]) (h₁ : valuesOf 1 fs = [])
  /-- As the deprecated field, in packed chunks. -/
  | packed (chunks : List (List Int32)) (h : LegacyValues range chunks.flatten)
      (h₈ : valuesOf 8 fs = []) (h₉ : valuesOf 9 fs = [])
      (h₁ : List.Forall₂ PackedChunk chunks (valuesOf 1 fs))
  /-- As the deprecated field, integer by integer. -/
  | unpacked (vs : List Int32) (h : LegacyValues range vs)
      (h₈ : valuesOf 8 fs = []) (h₉ : valuesOf 9 fs = [])
      (h₁ : List.Forall₂ Int32Value vs (valuesOf 1 fs))

/-- The last chunk is enough for the range: nothing stands in those before it, the range is all
zero, or it has the last three of four integers of which the first three are the same. -/
def LastChunkSuffices (range : ScipRange) (chunks : List (List Int32)) : Prop :=
  chunks.dropLast.flatten = [] ∨ range = defaultRange ∨
    ((chunks.getLast?.getD []).length = 3 ∧ range.startLine = range.startCharacter ∧
      range.startLine = range.endLine)

/-- A range is written so that its last packed chunk, if there is one, is enough for it. -/
def RangeKept (range : ScipRange) (fs : List Field) : Prop :=
  RangeWritten range fs ∧
    ∀ chunks, chunks ≠ [] → List.Forall₂ PackedChunk chunks (valuesOf 1 fs) →
      LastChunkSuffices range chunks

variable (Range : ScipRange → List Field → Prop)

/-- The fields of an occurrence, with its range written in the given way. -/
structure OccurrenceFields (occ : ScipOccurrence) (fs : List Field) : Prop where
  numbers : Numbered [1, 2, 3, 5, 8, 9] fs
  range : Range occ.range fs
  symbol : Singular 2 (StringValue limits occ.symbol) "" occ.symbol fs
  symbolRoles : Singular 3 (Int32Value occ.symbolRoles) 0 occ.symbolRoles fs
  syntaxKind : Singular 5 (Int32Value occ.syntaxKind) 0 occ.syntaxKind fs

/-- The fields take one document to another, where the given values spell occurrences and symbol
information. -/
structure DocumentFields (Occurrence : ScipOccurrence → WireValue → Prop)
    (Symbol : ScipSymbolInformation → WireValue → Prop) (cur target : ScipDocument)
    (fs : List Field) : Prop where
  numbers : Numbered [1, 2, 3, 4, 6] fs
  relativePath :
    Singular 1 (StringValue limits target.relativePath) cur.relativePath target.relativePath fs
  occurrences : Repeated 2 limits.maxOccurrencesPerDocument Occurrence
    cur.occurrences target.occurrences fs
  symbols : Repeated 3 limits.maxSymbolsPerDocument Symbol cur.symbols target.symbols fs
  language : Singular 4 (StringValue limits target.language) cur.language target.language fs
  positionEncoding :
    Singular 6 (EncodingValue target.positionEncoding) cur.positionEncoding
      target.positionEncoding fs

/-- The fields take one tool information to another. -/
structure ToolInfoFields (cur target : ToolInfo) (fs : List Field) : Prop where
  numbers : Numbered [1, 2] fs
  name : Singular 1 (StringValue limits target.name) cur.name target.name fs
  version : Singular 2 (StringValue limits target.version) cur.version target.version fs

/-- The tool information in metadata. -/
def ScipMetadata.toolInfo (metadata : ScipMetadata) : ToolInfo :=
  ⟨metadata.toolName, metadata.toolVersion⟩

/-- The fields take one metadata to another, where the given values spell tool information. -/
structure MetadataFields (Tool : ToolInfo → WireValue → Prop) (cur target : ScipMetadata)
    (fs : List Field) : Prop where
  numbers : Numbered [2, 3] fs
  toolInfo : Singular 2 (Tool target.toolInfo) cur.toolInfo target.toolInfo fs
  projectRoot :
    Singular 3 (StringValue limits target.projectRoot) cur.projectRoot target.projectRoot fs

/-- The fields take one index to another, where the given values spell the messages in it. -/
structure IndexFields (Metadata : ScipMetadata → WireValue → Prop)
    (Document : ScipDocument → WireValue → Prop)
    (Symbol : ScipSymbolInformation → WireValue → Prop) (cur target : ScipIndex)
    (fs : List Field) : Prop where
  numbers : Numbered [1, 2, 3] fs
  metadata : Singular 1 (fun v => ∃ metadata, target.metadata = some metadata ∧ Metadata metadata v)
    cur.metadata target.metadata fs
  documents : Repeated 2 limits.maxDocuments Document cur.documents target.documents fs
  externalSymbols : Repeated 3 limits.maxExternalSymbols Symbol
    cur.externalSymbols target.externalSymbols fs

/-! ### The messages in messages -/

/-- The value spells the relationship. -/
def RelationshipValue : ScipSymbolRelationship → WireValue → Prop :=
  MessageValue limits.maxStringBytes (RelationshipFields limits defaultRelationship)

/-- The value spells the symbol information. -/
def SymbolInformationValue : ScipSymbolInformation → WireValue → Prop :=
  MessageValue limits.maxStringBytes (SymbolInformationFields limits (RelationshipValue limits) {})

/-- The value spells the occurrence. -/
def OccurrenceValue : ScipOccurrence → WireValue → Prop :=
  MessageValue limits.maxStringBytes (OccurrenceFields limits Range)

/-- The value spells the document. -/
def DocumentValue : ScipDocument → WireValue → Prop :=
  MessageValue limits.maxMessageBytes
    (DocumentFields limits (OccurrenceValue limits Range) (SymbolInformationValue limits) {})

/-- The value spells the tool information. -/
def ToolInfoValue : ToolInfo → WireValue → Prop :=
  MessageValue limits.maxStringBytes (ToolInfoFields limits {})

/-- The value spells the metadata. -/
def MetadataValue : ScipMetadata → WireValue → Prop :=
  MessageValue (max limits.maxStringBytes 4096) (MetadataFields limits (ToolInfoValue limits) {})

/-- The bytes encode the index, within the limits, with the ranges written in the given way. -/
def Encodes (index : ScipIndex) (bytes : ByteSlice) : Prop :=
  bytes.1.length ≤ limits.maxMessageBytes ∧
    ∃ fs, Body fs bytes ∧
      IndexFields limits (MetadataValue limits) (DocumentValue limits Range)
        (SymbolInformationValue limits) {} index fs

end Values

/-! ## What the arms make of encoded values -/

section Arms

variable {limits : DecodeLimits} {σ α : Type} {s s' : σ} {arms : Arms σ} {f : Field}
  {v : WireValue} {n wireType max : ℕ}

lemma varintToI32_int32Varint (x : Int32) : varintToI32 (int32Varint x) = x := by
  have hlt := x.toInt_lt
  have hle := x.le_toInt
  apply Int32.toInt_inj.mp
  rw [varintToI32, int32Varint, Int32.toInt_ofNat',
    Int.toNat_of_nonneg (Int.emod_nonneg _ (by omega))]
  simp only [Int.bmod, Int32.size]
  omega

lemma int32Varint_lt (x : Int32) : int32Varint x < 2 ^ 64 := by
  rw [int32Varint]
  have := Int.emod_nonneg x.toInt (b := 2 ^ 64) (by omega)
  have := Int.emod_lt_of_pos x.toInt (b := 2 ^ 64) (by omega)
  omega

lemma fromScipValue_of_scipValue {e : PositionEncoding} {n : Int32} (h : scipValue e = some n) :
    fromScipValue n = e := by
  cases e with
  | unspecified => obtain rfl := Option.some.inj h; rfl
  | utf8 => obtain rfl := Option.some.inj h; rfl
  | utf16 => obtain rfl := Option.some.inj h; rfl
  | utf32 => obtain rfl := Option.some.inj h; rfl
  | unknown value =>
    rw [scipValue] at h
    split at h
    next hvalue =>
      obtain ⟨hle, hlt, hout⟩ := hvalue
      obtain rfl := Option.some.inj h
      have htoInt : (Int32.ofInt value).toInt = value :=
        Int32.toInt_ofInt_of_le (by omega) (by omega)
      -- none of the named numbers
      have hne : ∀ m : Int32, 0 ≤ m.toInt ∧ m.toInt ≤ 3 → Int32.ofInt value ≠ m := by
        rintro m hm rfl
        rw [htoInt] at hm
        exact hout hm
      rw [fromScipValue, if_neg (hne 0 (by decide)), if_neg (hne 1 (by decide)),
        if_neg (hne 2 (by decide)), if_neg (hne 3 (by decide)), htoInt]
    next => exact absurd h (by simp)

lemma applyField_of (hn : f.number = n) (hw : f.value.wireType = wireType)
    (h : (arms s (n % 2 ^ 32) wireType).apply s f.value = .ok s') :
    applyField arms s f = .ok s' := by
  rw [applyField, hn, hw]
  exact h

lemma StringValue.wireType_eq {t : String} (h : StringValue limits t v) : v.wireType = 2 := by
  rw [h.1]
  rfl

lemma Int32Value.wireType_eq {x : Int32} (h : Int32Value x v) : v.wireType = 0 := by
  rw [Int32Value] at h
  rw [h]
  rfl

lemma BoolValue.wireType_eq {b : Bool} (h : BoolValue b v) : v.wireType = 0 := by
  rw [BoolValue] at h
  rw [h]
  rfl

lemma Decodes.wireType_eq {decode : Bytes → DResult α} {a : α} (h : Decodes max decode a v) :
    v.wireType = 2 := by
  obtain ⟨sub, rfl, _⟩ := h
  rfl

lemma apply_string {field t : String} {k : String → σ} (h : StringValue limits t v) :
    (FieldAction.string field limits.maxStringBytes k).apply s v = .ok (k t) := by
  obtain ⟨rfl, hmax⟩ := h
  refine apply_bytes_ok.mpr ⟨_, rfl, hmax, ?_⟩
  rw [fromUtf8_ok.mpr rfl]
  rfl

lemma apply_int32 {x : Int32} {k : Int32 → σ} (h : Int32Value x v) :
    (FieldAction.int32 k).apply s v = .ok (k x) :=
  apply_varint_ok.mpr ⟨_, h, by rw [varintToI32_int32Varint]⟩

lemma apply_bool {b : Bool} {k : Bool → σ} (h : BoolValue b v) :
    (FieldAction.bool k).apply s v = .ok (k b) :=
  apply_varint_ok.mpr ⟨_, h, by cases b <;> rfl⟩

lemma apply_message {decode : Bytes → DResult α} {a : α} {k : α → σ}
    (h : Decodes max decode a v) : (FieldAction.message max decode k).apply s v = .ok (k a) := by
  obtain ⟨sub, rfl, hmax, ha⟩ := h
  refine apply_bytes_ok.mpr ⟨_, rfl, hmax, ?_⟩
  rw [ha]
  rfl

lemma apply_push {limit : String} {len : ℕ} {action : FieldAction σ} (hlen : len < max)
    (h : action.apply s v = .ok s') :
    (FieldAction.push limit len max action).apply s v = .ok s' := by
  rwa [FieldAction.push, if_neg (by omega)]

end Arms

end WorkspaceAtlas.ScipDecoder
