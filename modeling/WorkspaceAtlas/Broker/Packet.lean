/-
# Context packets

The second part of `broker::build_packet`: the candidates are taken from the best one down while
the budget for records, source bytes and tokens lasts.  Where the mode includes source, the file
of a candidate is opened twice, first to compare its digest with the indexed one and then to read
its text; in between it may be edited.

Left out of the packet is what an audit copies from `evidence_conflict` and `coverage_record`.
-/
import WorkspaceAtlas.Broker.Scoring
import WorkspaceAtlas.Semantic.Evidence

namespace WorkspaceAtlas

open Relational Text

/-! ## The packet -/

/-- What became of the file of a target. -/
inductive ExcerptStatus where
  | verified
  | hashMismatch
  | readFailed
  deriving DecidableEq, Repr

/-- `ExactExcerpt`. -/
structure ExactExcerpt where
  canonicalPath : String
  indexedContentHash : String
  observedContentHash : String
  status : ExcerptStatus
  excerptHash : Option String
  text : Option String
  deriving DecidableEq, Repr

/-- The bytes of the text. -/
def ExactExcerpt.textBytes (e : ExactExcerpt) : ℕ := e.text.elim 0 String.utf8ByteSize

/-- `PrimaryTarget` shows all of a candidate. -/
abbrev PrimaryTarget := ScoredCandidate

/-- `OmissionSummary`. -/
structure OmissionSummary where
  totalCandidatesConsidered : ℕ
  selectedCount : ℕ
  omittedByBudget : ℕ
  unsupportedInScope : ℕ
  excludedInScope : ℕ
  deriving DecidableEq, Repr

/-- `BudgetReport`. -/
structure BudgetReport where
  maxRecords : ℤ
  maxSourceBytes : ℤ
  maxTokenEstimate : ℤ
  usedRecords : ℕ
  usedSourceBytes : ℕ
  estimatedTokens : ℕ
  uncertaintyReservePct : ℕ
  deriving DecidableEq, Repr

/-- The status of a packet. -/
inductive PacketStatus where
  | complete
  | partly
  | blocked
  deriving DecidableEq, Repr

/-- `ContextPacket`. -/
structure ContextPacket where
  schemaVersion : String
  packetId : String
  createdAt : Timestamp
  workspaceId : String
  activeGenerationId : Option String
  mode : String
  normalizedTask : String
  rankingPolicyVersion : String
  primaryTargets : List PrimaryTarget
  supportingRelationships : List String
  tests : List String
  exactExcerpts : List ExactExcerpt
  unresolved : List String
  omissions : OmissionSummary
  budget : BudgetReport
  alternatives : List PrimaryTarget
  packetHash : String
  status : PacketStatus
  deriving DecidableEq, Repr

/-- What is read of a file that is opened, at each moment; nothing if that fails. -/
abbrev DiskHistory := ℕ → String → Option (List UInt8)

lemma fromUTF8?_eq_some_iff {bytes : List UInt8} {text : String} :
    String.fromUTF8? ⟨bytes.toArray⟩ = some text ↔ bytes = utf8 text := by
  rw [String.fromUTF8?]
  split
  next h =>
    constructor
    · intro hok
      obtain rfl := Option.some.inj hok
      rfl
    · rintro rfl
      exact congrArg some (String.toByteArray_inj.mp rfl)
  next h =>
    refine ⟨fun hok => absurd hok (by simp), ?_⟩
    rintro rfl
    exact absurd text.isValidUTF8 h

namespace Broker

/-! ## The record budget -/

/-- The double nearest to a whole number, the even one of two: it has 53 binary digits. -/
def toDouble (n : ℕ) : ℕ :=
  let ulp := 2 ^ (n.log2 - 52)
  if 2 * (n % ulp) < ulp ∨ 2 * (n % ulp) = ulp ∧ n / ulp % 2 = 0 then n / ulp * ulp
  else (n / ulp + 1) * ulp

/-- `((max_records as f64) * 0.9).floor() as i64`: the double `0.9` is 8106479329266893 / 2^53. -/
def usableRecords (maxRecords : ℤ) : ℤ :=
  maxRecords.sign * toDouble (toDouble maxRecords.natAbs * 8106479329266893) / 2 ^ 53

lemma usableRecords_nonneg {m : ℤ} (h : 0 < m) : 0 ≤ usableRecords m := by
  rw [usableRecords, Int.sign_eq_one_of_pos h, one_mul]
  exact Int.ediv_nonneg (Int.natCast_nonneg _) (by positivity)

example : (List.range 11).map (fun m => usableRecords m) = [0, 0, 1, 2, 3, 4, 5, 6, 7, 8, 9] := by
  decide

/-! ## The selection -/

/-- The variables of the loop. -/
structure Selection where
  selected : List ScoredCandidate
  exactExcerpts : List ExactExcerpt
  usedBytes : ℕ
  omittedByBudget : ℕ
  unselected : List ScoredCandidate
  deriving DecidableEq, Repr

namespace Selection

/-- The variables at the start. -/
def start : Selection := ⟨[], [], 0, 0, []⟩

/-- The candidate is left out. -/
def leave (s : Selection) (x : ScoredCandidate) : Selection :=
  { s with omittedByBudget := s.omittedByBudget + 1, unselected := s.unselected ++ [x] }

/-- The candidate is selected. -/
def select (s : Selection) (x : ScoredCandidate) : Selection :=
  { s with selected := s.selected ++ [x] }

/-- The candidate is selected with an excerpt. -/
def quote (s : Selection) (x : ScoredCandidate) (e : ExactExcerpt) : Selection :=
  { s with
    selected := s.selected ++ [x]
    exactExcerpts := s.exactExcerpts ++ [e]
    usedBytes := s.usedBytes + e.textBytes }

end Selection

/-- `includes_exact_source`. -/
def includesExactSource (mode : BrokerMode) : Bool := mode = .change ∨ mode = .audit

/-- The column `content_hash` of a row of `current_file`. -/
def contentHashColumn (c : Catalogue) (cf : CurrentFile) : Option String :=
  cf.revisionId.bind fun rid =>
    (c.fileRevision.find? fun r => r.revisionId = rid).map FileRevision.contentHash

/-- `SELECT content_hash FROM current_file`: the column of the first row, if there is one. -/
def indexedHash (c : Catalogue) (o : Orders) (gid path : String) : Option (Option String) :=
  ((o.files.arrange ((c.currentFileOf gid).filter fun cf => cf.canonicalPath = path)).head?).map
    (contentHashColumn c)

/-- The excerpt of a file that was opened at two moments. -/
def excerptOf (H : Hasher) (path indexed : String) (hashed read : Option (List UInt8)) :
    ExactExcerpt :=
  match hashed with
  | none => ⟨path, indexed, "", .readFailed, none, none⟩
  | some bytes =>
    if contentHashOfBytes H bytes = indexed then
      match read.bind fun later => String.fromUTF8? ⟨later.toArray⟩ with
      | none => ⟨path, indexed, contentHashOfBytes H bytes, .readFailed, none, none⟩
      | some text => ⟨path, indexed, contentHashOfBytes H bytes, .verified,
          some (contentHashOfBytes H (utf8 text)), some text⟩
    else ⟨path, indexed, contentHashOfBytes H bytes, .hashMismatch, none, none⟩

/-- A text is too long for what is left of the budget. -/
def exceeds (req : TaskRequest) (used : ℕ) (text : String) : Bool :=
  req.maxSourceBytes < used + text.utf8ByteSize ∨
    req.maxTokenEstimate < ((used + text.utf8ByteSize) / 4 : ℕ)

/-- One round of the loop.  The candidate that is considered `n`-th has its file opened at the
moments `2 * n` and `2 * n + 1`. -/
def consider (H : Hasher) (c : Catalogue) (o : Orders) (disk : DiskHistory) (gid : String)
    (req : TaskRequest) (n : ℕ) (s : Selection) (x : ScoredCandidate) :
    Except AtlasError Selection :=
  if usableRecords req.maxRecords ≤ s.selected.length then .ok (s.leave x)
  else if includesExactSource req.mode then
    match indexedHash c o gid x.canonicalPath with
    | none => .ok (s.select x)
    | some none => .error (.sqlite (.failure
        "Invalid column type Null at index: 0, name: content_hash"))
    | some (some indexed) =>
      let e := excerptOf H x.canonicalPath indexed (disk (2 * n) x.canonicalPath)
        (disk (2 * n + 1) x.canonicalPath)
      match e.text with
      | none => .ok (s.quote x e)
      | some text => .ok (if exceeds req s.usedBytes text then s.leave x else s.quote x e)
  else .ok (s.select x)

/-- The loop over the candidates. -/
def considerAll (H : Hasher) (c : Catalogue) (o : Orders) (disk : DiskHistory) (gid : String)
    (req : TaskRequest) : ℕ → Selection → List ScoredCandidate → Except AtlasError Selection
  | _, s, [] => .ok s
  | n, s, x :: rest =>
    match consider H c o disk gid req n s x with
    | .error e => .error e
    | .ok s' => considerAll H c o disk gid req (n + 1) s' rest

/-! ## Digests -/

/-- `str::trim`. -/
def trimText (s : String) : List Char :=
  trimEndMatches isWhitespace (s.toList.dropWhile isWhitespace)

/-- Values with `\u{1f}` between them. -/
def separated (values : List String) : String := "\x1f".intercalate values

/-- `normalized_request_hash`. -/
def normalizedRequestHash (H : Hasher) (req : TaskRequest) : String :=
  contentHashOfBytes H (utf8 (separated
    [String.ofList (trimText req.task), req.mode.asStr,
      ",".intercalate (req.knownPaths.insertionSort (· ≤ ·)),
      ",".intercalate (req.knownSymbols.insertionSort (· ≤ ·)),
      toString req.maxRecords, toString req.maxSourceBytes, toString req.maxTokenEstimate]))

/-- `RANKING_POLICY_VERSION`. -/
def rankingPolicyVersion : String := "1.0.0"

/-- `finalize_packet_hash`. -/
def finalizePacketHash (H : Hasher) (packet : ContextPacket) (requestHash : String) :
    ContextPacket :=
  { packet with
    packetHash := contentHashOfBytes H (utf8 (separated
      [packet.workspaceId, packet.activeGenerationId.getD "", requestHash,
        packet.rankingPolicyVersion,
        ",".intercalate (packet.primaryTargets.map fun t =>
          t.canonicalSymbolKey.getD t.canonicalPath)])) }

/-! ## `build_packet` -/

/-- The candidates of a request in the order of their ranks. -/
def candidates (c : Catalogue) (o : Orders) (gid : String) (req : TaskRequest) :
    List ScoredCandidate :=
  ranked o (expand c o gid (seedCandidates c o gid req))

/-- The packet of a workspace without an active generation. -/
def blockedPacket (H : Hasher) (workspaceId : String) (req : TaskRequest) (now : Timestamp) :
    ContextPacket where
  schemaVersion := "1.0.0"
  packetId := "pkt_" ++ String.ofList ((normalizedRequestHash H req).toList.take 32)
  createdAt := now
  workspaceId := workspaceId
  activeGenerationId := none
  mode := req.mode.asStr
  normalizedTask := req.task
  rankingPolicyVersion := rankingPolicyVersion
  primaryTargets := []
  supportingRelationships := []
  tests := []
  exactExcerpts := []
  unresolved := []
  omissions := ⟨0, 0, 0, 0, 0⟩
  budget := ⟨req.maxRecords, req.maxSourceBytes, req.maxTokenEstimate, 0, 0, 0, 10⟩
  alternatives := []
  packetHash := ""
  status := .blocked

/-- The packet of a selection. -/
def packetOf (H : Hasher) (c : Catalogue) (o : Orders) (workspaceId gid : String)
    (req : TaskRequest) (now : Timestamp) (s : Selection) : ContextPacket where
  schemaVersion := "1.0.0"
  packetId := "pkt_" ++ String.ofList ((normalizedRequestHash H req).toList.take 32)
  createdAt := now
  workspaceId := workspaceId
  activeGenerationId := some gid
  mode := req.mode.asStr
  normalizedTask := req.task
  rankingPolicyVersion := rankingPolicyVersion
  primaryTargets := s.selected
  supportingRelationships := []
  tests := tests c o gid (seedPaths o (seedCandidates c o gid req))
  exactExcerpts := s.exactExcerpts
  unresolved := []
  omissions :=
    { totalCandidatesConsidered := (candidates c o gid req).length
      selectedCount := s.selected.length
      omittedByBudget := s.omittedByBudget
      unsupportedInScope := 0
      excludedInScope := (c.currentSymbols gid).length - (candidates c o gid req).length }
  budget :=
    { maxRecords := req.maxRecords
      maxSourceBytes := req.maxSourceBytes
      maxTokenEstimate := req.maxTokenEstimate
      usedRecords := s.selected.length
      usedSourceBytes := s.usedBytes
      estimatedTokens := s.usedBytes / 4
      uncertaintyReservePct := 10 }
  alternatives := if req.mode = .audit then s.unselected.take 50 else []
  packetHash := ""
  status :=
    if (∃ e ∈ s.exactExcerpts, e.status ≠ .verified) ∨ 0 < s.omittedByBudget then .partly
    else .complete

/-- `build_packet`. -/
def buildPacket (H : Hasher) (c : Catalogue) (o : Orders) (disk : DiskHistory)
    (workspaceId : String) (req : TaskRequest) (now : Timestamp) :
    Except AtlasError ContextPacket :=
  match activeGeneration? c workspaceId with
  | none => .ok (finalizePacketHash H (blockedPacket H workspaceId req now)
      (normalizedRequestHash H req))
  | some gid =>
    match considerAll H c o disk gid req 0 .start (candidates c o gid req) with
    | .error e => .error e
    | .ok s => .ok (finalizePacketHash H (packetOf H c o workspaceId gid req now s)
        (normalizedRequestHash H req))

/-- The packet of a loop that ends. -/
lemma buildPacket_eq {H : Hasher} {c : Catalogue} {o : Orders} {disk : DiskHistory}
    {workspaceId gid : String} {req : TaskRequest} {s : Selection} (now : Timestamp)
    (hactive : activeGeneration? c workspaceId = some gid)
    (hs : considerAll H c o disk gid req 0 .start (candidates c o gid req) = .ok s) :
    buildPacket H c o disk workspaceId req now = .ok (finalizePacketHash H
      (packetOf H c o workspaceId gid req now s) (normalizedRequestHash H req)) := by
  rw [buildPacket, hactive]
  dsimp only
  rw [hs]

end Broker

end WorkspaceAtlas
