/-
# Application cursors

`context_application.rs`: a listing that is cut into pages hands out a token with the state that
it was started in and the key of the last row.  The token is the hexadecimal text of its
canonical JSON with a checksum, and is bound to the workspace, the catalogue, the operation, the
contract and the filter of the listing.
-/
import WorkspaceAtlas.Catalogue.Ids
import WorkspaceAtlas.Catalogue.Schema
import WorkspaceAtlas.Query.Cursor

namespace WorkspaceAtlas

open Text

/-! ## What a cursor is bound to -/

/-- `ApplicationCursorOperation`. -/
inductive ApplicationCursorOperation where
  | taskShow
  | compiledContextShow
  | contextYieldShow
  | servingStatus
  | retentionStatus
  | retentionCompactPreview
  | unregisterPreview
  deriving DecidableEq, Repr

/-- All operations. -/
def ApplicationCursorOperation.all : List ApplicationCursorOperation :=
  [taskShow, compiledContextShow, contextYieldShow, servingStatus, retentionStatus,
    retentionCompactPreview, unregisterPreview]

/-- The text of an operation. -/
def ApplicationCursorOperation.asStr : ApplicationCursorOperation → String
  | taskShow => "task_show"
  | compiledContextShow => "compiled_context_show"
  | contextYieldShow => "context_yield_show"
  | servingStatus => "serving_status"
  | retentionStatus => "retention_status"
  | retentionCompactPreview => "retention_compact_preview"
  | unregisterPreview => "unregister_preview"

/-- The operation with a text. -/
def ApplicationCursorOperation.ofStr (s : String) : Option ApplicationCursorOperation :=
  all.find? fun op => op.asStr = s

/-- `ApplicationCursorFilter`. -/
inductive ApplicationCursorFilter where
  | taskSession (taskSessionId : String)
  | servingPolicy (servingSchemaVersion projectionPolicyVersion : String)
  | retention
  | unregister
  deriving DecidableEq, Repr

/-- A filter as JSON. -/
def ApplicationCursorFilter.json : ApplicationCursorFilter → Json
  | taskSession id => .obj [("kind", .str "task_session"), ("task_session_id", .str id)]
  | servingPolicy schema projection =>
    .obj [("kind", .str "serving_policy"), ("projection_policy_version", .str projection),
      ("serving_schema_version", .str schema)]
  | retention => .obj [("kind", .str "retention")]
  | unregister => .obj [("kind", .str "unregister")]

/-- `ApplicationCursorBinding`. -/
structure ApplicationCursorBinding where
  workspaceId : String
  operation : ApplicationCursorOperation
  contractVersion : String
  filter : ApplicationCursorFilter
  capturedState : String
  deriving DecidableEq, Repr

/-- `ApplicationCursorError`. -/
inductive ApplicationCursorError where
  | invalid
  | stale
  | atlas (error : AtlasError)
  deriving DecidableEq, Repr

/-- What of the connection and of the workspace a cursor is bound to. -/
structure CatalogueContext where
  workspaceId : String
  cataloguePath : String
  databasePath : Option String
  deriving DecidableEq, Repr

/-! ## The token -/

/-- `ApplicationCursor`. -/
structure ApplicationCursor where
  version : String
  workspaceHash : String
  catalogueHash : String
  operation : ApplicationCursorOperation
  contractVersion : String
  filterHash : String
  capturedState : String
  orderingKey : String
  deriving DecidableEq, Repr

namespace ApplicationCursor

/-- The fields of a cursor, sorted. -/
def fieldNames : List String :=
  ["captured_state", "catalogue_hash", "contract_version", "filter_hash", "operation",
    "ordering_key", "version", "workspace_hash"]

/-- A cursor as canonical JSON. -/
def json (c : ApplicationCursor) : Json :=
  .obj [("captured_state", .str c.capturedState), ("catalogue_hash", .str c.catalogueHash),
    ("contract_version", .str c.contractVersion), ("filter_hash", .str c.filterHash),
    ("operation", .str c.operation.asStr), ("ordering_key", .str c.orderingKey),
    ("version", .str c.version), ("workspace_hash", .str c.workspaceHash)]

/-- The cursor that some JSON stands for. -/
def ofJson (v : Json) : Option ApplicationCursor := do
  match ← v.fieldsOf fieldNames with
  | [capturedState, catalogueHash, contractVersion, filterHash, operation, orderingKey, version,
      workspaceHash] =>
    return {
      version := ← version.asString
      workspaceHash := ← workspaceHash.asString
      catalogueHash := ← catalogueHash.asString
      operation := ← (← operation.asString) |> ApplicationCursorOperation.ofStr
      contractVersion := ← contractVersion.asString
      filterHash := ← filterHash.asString
      capturedState := ← capturedState.asString
      orderingKey := ← orderingKey.asString }
  | _ => none

lemma ofJson_json (c : ApplicationCursor) : ofJson c.json = some c := by
  obtain ⟨version, workspaceHash, catalogueHash, operation, contractVersion, filterHash,
    capturedState, orderingKey⟩ := c
  cases operation <;> rfl

end ApplicationCursor

/-- `APPLICATION_CURSOR_VERSION`. -/
def applicationCursorVersion : String := "application-cursor-v1.0.0"

/-- `MAX_APPLICATION_CURSOR_BYTES`. -/
def maxApplicationCursorBytes : ℕ := 4096

/-- `application_cursor_catalogue_hash`. -/
def applicationCursorCatalogueHash (H : Hasher) (ctx : CatalogueContext) : String :=
  contentHashOfBytes H (utf8 ((ctx.databasePath.filter fun path => path ≠ "").getD ctx.cataloguePath))

/-- `application_cursor_filter_hash`. -/
def applicationCursorFilterHash (H : Hasher) (filter : ApplicationCursorFilter) : String :=
  contentHashOfBytes H (canonicalJsonBytes filter.json)

/-- `application_cursor_checksum`. -/
def applicationCursorChecksum (H : Hasher) (bytes : List UInt8) : String :=
  contentHashOfBytes H (utf8 "workspace-atlas/application-cursor-v1\x00" ++ bytes)

/-- The characters that a key in a cursor may have: those of ASCII that are no control
characters. -/
def isKeyChar (c : Char) : Bool := 32 ≤ c.toNat && c.toNat < 127

/-- The cursor of a binding. -/
def applicationCursor (H : Hasher) (ctx : CatalogueContext) (binding : ApplicationCursorBinding)
    (orderingKey : String) : ApplicationCursor where
  version := applicationCursorVersion
  workspaceHash := contentHashOfBytes H (utf8 ctx.workspaceId)
  catalogueHash := applicationCursorCatalogueHash H ctx
  operation := binding.operation
  contractVersion := binding.contractVersion
  filterHash := applicationCursorFilterHash H binding.filter
  capturedState := binding.capturedState
  orderingKey := orderingKey

/-- The token of a cursor. -/
def ApplicationCursor.token (H : Hasher) (c : ApplicationCursor) : String :=
  toHex (canonicalJsonBytes c.json) ++ "." ++
    applicationCursorChecksum H (canonicalJsonBytes c.json)

/-- `encode_application_cursor`. -/
def encodeApplicationCursor (H : Hasher) (ctx : CatalogueContext)
    (binding : ApplicationCursorBinding) (orderingKey : String) :
    Except ApplicationCursorError String :=
  if binding.workspaceId ≠ ctx.workspaceId ∨ orderingKey = "" ∨
      maxApplicationCursorBytes / 2 < orderingKey.utf8ByteSize ∨
      ¬ orderingKey.toList.all isKeyChar then
    .error .invalid
  else
    let token := (applicationCursor H ctx binding orderingKey).token H
    if maxApplicationCursorBytes < token.utf8ByteSize then .error .invalid else .ok token

/-- `DecodedApplicationCursor`. -/
structure DecodedApplicationCursor where
  capturedState : String
  orderingKey : String
  deriving DecidableEq, Repr

/-- `split_once('.')`. -/
def splitOnceDot (s : List Char) : Option (List Char × List Char) :=
  match s.dropWhile (· ≠ '.') with
  | [] => none
  | _ :: rest => some (s.takeWhile (· ≠ '.'), rest)

/-- `serde_json::from_slice` of canonical JSON. -/
def readCanonicalJson (bytes : List UInt8) : Option Json :=
  (String.fromUTF8? ⟨bytes.toArray⟩).bind Json.read

/-- `decode_application_cursor_snapshot`. -/
def decodeApplicationCursorSnapshot (H : Hasher) (ctx : CatalogueContext)
    (binding : ApplicationCursorBinding) (token : String) :
    Except ApplicationCursorError DecodedApplicationCursor :=
  if maxApplicationCursorBytes < token.utf8ByteSize then .error .invalid
  else
    match splitOnceDot token.toList with
    | none => .error .invalid
    | some (encoded, checksum) =>
      match hexDecode encoded with
      | none => .error .invalid
      | some bytes =>
        if applicationCursorChecksum H bytes ≠ String.ofList checksum then .error .invalid
        else
          match (readCanonicalJson bytes).bind ApplicationCursor.ofJson with
          | none => .error .invalid
          | some cursor =>
            if canonicalJsonBytes cursor.json ≠ bytes ∨ binding.workspaceId ≠ ctx.workspaceId ∨
                cursor.version ≠ applicationCursorVersion ∨
                cursor.workspaceHash ≠ contentHashOfBytes H (utf8 ctx.workspaceId) ∨
                cursor.catalogueHash ≠ applicationCursorCatalogueHash H ctx ∨
                cursor.operation ≠ binding.operation ∨
                cursor.contractVersion ≠ binding.contractVersion ∨
                cursor.filterHash ≠ applicationCursorFilterHash H binding.filter ∨
                cursor.orderingKey = "" ∨ ¬ cursor.orderingKey.toList.all isKeyChar then
              .error .invalid
            else .ok ⟨cursor.capturedState, cursor.orderingKey⟩

/-! ## Tokens come back -/

section Lemmas

variable {H : Hasher} {ctx : CatalogueContext} {binding : ApplicationCursorBinding}
  {orderingKey token : String}

/-- The bytes of a token. -/
lemma utf8ByteSize_token (c : ApplicationCursor) : (c.token H).utf8ByteSize =
    2 * (c.json.write.flatMap String.utf8EncodeChar).length + 1 +
      2 * (H.sha256 (utf8 "workspace-atlas/application-cursor-v1\x00" ++
        c.json.write.flatMap String.utf8EncodeChar)).length := by
  rw [← utf8_ofList, ApplicationCursor.token, String.utf8ByteSize_append,
    String.utf8ByteSize_append, utf8ByteSize_toHex, applicationCursorChecksum,
    contentHashOfBytes, utf8ByteSize_toHex]
  rfl

/-- A key that `encode_application_cursor` accepts. -/
structure CursorFits (H : Hasher) (ctx : CatalogueContext) (binding : ApplicationCursorBinding)
    (orderingKey : String) : Prop where
  bytes : orderingKey.utf8ByteSize ≤ maxApplicationCursorBytes / 2
  chars : orderingKey.toList.all isKeyChar = true
  token : ((applicationCursor H ctx binding orderingKey).token H).utf8ByteSize ≤
    maxApplicationCursorBytes

instance : Decidable (CursorFits H ctx binding orderingKey) :=
  decidable_of_iff (_ ∧ _ ∧ _) ⟨fun h => ⟨h.1, h.2.1, h.2.2⟩, fun h => ⟨h.1, h.2, h.3⟩⟩

/-- The cursor of a key of the workspace is encoded exactly if the key fits. -/
lemma encode_eq_ok_iff (hws : binding.workspaceId = ctx.workspaceId) (hkey : orderingKey ≠ "") :
    encodeApplicationCursor H ctx binding orderingKey = .ok token ↔
      CursorFits H ctx binding orderingKey ∧
        token = (applicationCursor H ctx binding orderingKey).token H := by
  rw [encodeApplicationCursor]
  split
  next h =>
    refine iff_of_false (by simp) fun ⟨hfits, _⟩ => ?_
    rcases h with h | h | h | h
    · exact h hws
    · exact hkey h
    · exact absurd hfits.bytes (Nat.not_le.mpr h)
    · exact h hfits.chars
  next h =>
    simp only [not_or, not_not, Nat.not_lt] at h
    obtain ⟨-, -, hbytes, hchars⟩ := h
    dsimp only
    split
    next hlong =>
      exact iff_of_false (by simp) fun ⟨hfits, _⟩ => absurd hfits.token (Nat.not_le.mpr hlong)
    next hshort =>
      rw [Except.ok.injEq]
      exact ⟨fun heq => ⟨⟨hbytes, hchars, Nat.not_lt.mp hshort⟩, heq.symm⟩, fun h => h.2.symm⟩

/-- A key that does not fit is refused. -/
lemma encode_error_of_not_fits (h : ¬ CursorFits H ctx binding orderingKey) :
    encodeApplicationCursor H ctx binding orderingKey = .error .invalid := by
  rw [encodeApplicationCursor]
  split
  · rfl
  next hvalid =>
    dsimp only
    split
    · rfl
    next hshort =>
      simp only [not_or, not_not, Nat.not_lt] at hvalid
      exact absurd ⟨hvalid.2.2.1, hvalid.2.2.2, Nat.not_lt.mp hshort⟩ h

lemma splitOnceDot_append {a b : List Char} (ha : '.' ∉ a) :
    splitOnceDot (a ++ '.' :: b) = some (a, b) := by
  have hall : ∀ c ∈ a, decide (c ≠ '.') = true := by
    intro c hc
    refine decide_eq_true ?_
    rintro rfl
    exact ha hc
  rw [splitOnceDot, List.dropWhile_append_of_pos hall, List.takeWhile_append_of_pos hall]
  simp

lemma readCanonicalJson_bytes (v : Json) : readCanonicalJson (canonicalJsonBytes v) = some v := by
  have hutf8 : String.fromUTF8? ⟨(canonicalJsonBytes v).toArray⟩ = some (String.ofList v.write) := by
    have hbytes : (⟨(canonicalJsonBytes v).toArray⟩ : ByteArray) =
        (String.ofList v.write).toByteArray := rfl
    rw [hbytes, String.fromUTF8?, dif_pos (String.ofList v.write).isValidUTF8]
    rfl
  rw [readCanonicalJson, hutf8, Option.bind_some]
  exact Json.read_eq_some_iff.mpr (String.toList_ofList).symm

/-- What `decode_application_cursor_token` demands of the fields of a cursor. -/
structure ApplicationCursor.BoundTo (H : Hasher) (ctx : CatalogueContext)
    (binding : ApplicationCursorBinding) (c : ApplicationCursor) : Prop where
  binds : binding.workspaceId = ctx.workspaceId
  version : c.version = applicationCursorVersion
  workspace : c.workspaceHash = contentHashOfBytes H (utf8 ctx.workspaceId)
  catalogue : c.catalogueHash = applicationCursorCatalogueHash H ctx
  operation : c.operation = binding.operation
  contract : c.contractVersion = binding.contractVersion
  filter : c.filterHash = applicationCursorFilterHash H binding.filter

/-- The token of a cursor is read back as far as the cursor, whose fields decide. -/
lemma decode_token {c : ApplicationCursor}
    (hlength : (c.token H).utf8ByteSize ≤ maxApplicationCursorBytes) (hkey : c.orderingKey ≠ "")
    (hchars : c.orderingKey.toList.all isKeyChar = true) :
    (c.BoundTo H ctx binding → decodeApplicationCursorSnapshot H ctx binding (c.token H) =
        .ok ⟨c.capturedState, c.orderingKey⟩) ∧
      (¬ c.BoundTo H ctx binding →
        decodeApplicationCursorSnapshot H ctx binding (c.token H) = .error .invalid) := by
  have hsplit : splitOnceDot (c.token H).toList = some (hexDigits (canonicalJsonBytes c.json),
      (applicationCursorChecksum H (canonicalJsonBytes c.json)).toList) := by
    have hdot : '.' ∉ (toHex (canonicalJsonBytes c.json)).toList := notMem_toHex (by decide) _
    rw [ApplicationCursor.token, String.toList_append, String.toList_append, List.append_assoc]
    refine (splitOnceDot_append hdot).trans ?_
    rw [toHex, String.toList_ofList]
    rfl
  rw [decodeApplicationCursorSnapshot, if_neg (Nat.not_lt.mpr hlength), hsplit]
  simp only [hexDecode_hexDigits, String.ofList_toList, ne_eq, not_true, if_false,
    readCanonicalJson_bytes, Option.bind_some, ApplicationCursor.ofJson_json, false_or, hkey,
    hchars, or_false]
  constructor
  · rintro ⟨hbinds, hversion, hworkspace, hcatalogue, hoperation, hcontract, hfilter⟩
    refine if_neg ?_
    rintro (h | h | h | h | h | h | h)
    · exact h hbinds
    · exact h hversion
    · exact h hworkspace
    · exact h hcatalogue
    · exact h hoperation
    · exact h hcontract
    · exact h hfilter
  · intro hnot
    refine if_pos ?_
    by_contra hall
    simp only [not_or, not_not] at hall
    obtain ⟨hbinds, hversion, hworkspace, hcatalogue, hoperation, hcontract, hfilter⟩ := hall
    exact hnot ⟨hbinds, hversion, hworkspace, hcatalogue, hoperation, hcontract, hfilter⟩

/-- What is encoded is the token of a cursor that can be decoded. -/
lemma valid_of_encode (h : encodeApplicationCursor H ctx binding orderingKey = .ok token) :
    token = (applicationCursor H ctx binding orderingKey).token H ∧
      binding.workspaceId = ctx.workspaceId ∧ token.utf8ByteSize ≤ maxApplicationCursorBytes ∧
        orderingKey ≠ "" ∧ orderingKey.toList.all isKeyChar = true := by
  rw [encodeApplicationCursor] at h
  split at h
  · exact absurd h (by simp)
  next hvalid =>
    dsimp only at h
    split at h
    · exact absurd h (by simp)
    next hlength =>
      obtain rfl := Except.ok.inj h
      simp only [not_or, ne_eq, not_not] at hvalid
      obtain ⟨hws, hempty, -, hchars⟩ := hvalid
      exact ⟨rfl, hws, Nat.not_lt.mp hlength, hempty, hchars⟩

/-- A token gives back the state and the key, under every binding that differs in the state
only. -/
lemma decode_of_encode (h : encodeApplicationCursor H ctx binding orderingKey = .ok token)
    (state : String) :
    decodeApplicationCursorSnapshot H ctx { binding with capturedState := state } token =
      .ok ⟨binding.capturedState, orderingKey⟩ := by
  obtain ⟨rfl, hws, hlength, hkey, hchars⟩ := valid_of_encode h
  exact (decode_token hlength hkey hchars).1 ⟨hws, rfl, rfl, rfl, rfl, rfl, rfl⟩

end Lemmas

end WorkspaceAtlas
