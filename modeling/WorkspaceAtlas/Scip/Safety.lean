/-
# Safety of the SCIP decoder

Whatever the bytes, the decoder ends without a fault, and what it returns respects the limits.
The list lengths of a message stay below the position of the reader, so that counting one entry
more never overflows; a nested message lies within the bytes of the message around it.
-/
import WorkspaceAtlas.Scip.Decoder

namespace WorkspaceAtlas.ScipDecoder

open Protobuf Transition

variable {σ α : Type} {s s' : σ} {r r' : Reader} {arms : Arms σ} {bs : Bytes}

/-! ## The arms read values of their wire types -/

namespace FieldAction

variable {wireType : ℕ}

@[simp] lemma fits_skip (max : ℕ) : (skip max : FieldAction σ).Fits wireType := trivial

@[simp] lemma fits_string (field : String) (max : ℕ) (k : String → σ) :
    (string field max k).Fits 2 := rfl

@[simp] lemma fits_message (max : ℕ) (decode : Bytes → DResult α) (k : α → σ) :
    (message max decode k).Fits 2 := rfl

@[simp] lemma fits_int32 (k : Int32 → σ) : (int32 k).Fits 0 := rfl

@[simp] lemma fits_bool (k : Bool → σ) : (bool k).Fits 0 := rfl

lemma fits_push (limit : String) (len max : ℕ) {action : FieldAction σ}
    (h : action.Fits wireType) : (push limit len max action).Fits wireType := by
  rw [push]
  split
  · exact trivial
  · exact h

end FieldAction

section Fits

variable (limits : DecodeLimits) (number wireType : ℕ)

lemma relationshipArms_fits (rel : ScipSymbolRelationship) :
    (relationshipArms limits rel number wireType).Fits wireType := by
  unfold relationshipArms
  split <;> simp

lemma symbolInformationArms_fits (sym : ScipSymbolInformation) :
    (symbolInformationArms limits sym number wireType).Fits wireType := by
  unfold symbolInformationArms
  split <;> simp [FieldAction.fits_push]

lemma multiLineRangeArms_fits (range : ScipRange) :
    (multiLineRangeArms range number wireType).Fits wireType := by
  unfold multiLineRangeArms
  split <;> simp

lemma singleLineRangeArms_fits (range : SingleLineRange) :
    (singleLineRangeArms range number wireType).Fits wireType := by
  unfold singleLineRangeArms
  split <;> simp

lemma occurrenceArms_fits (occ : OccurrenceState) :
    (occurrenceArms limits occ number wireType).Fits wireType := by
  unfold occurrenceArms
  split <;> simp

lemma documentArms_fits (doc : ScipDocument) :
    (documentArms limits doc number wireType).Fits wireType := by
  unfold documentArms
  split <;> simp [FieldAction.fits_push]

lemma toolInfoArms_fits (info : ToolInfo) :
    (toolInfoArms limits info number wireType).Fits wireType := by
  unfold toolInfoArms
  split <;> simp

lemma metadataArms_fits (metadata : ScipMetadata) :
    (metadataArms limits metadata number wireType).Fits wireType := by
  unfold metadataArms
  split <;> simp

lemma indexArms_fits (index : ScipIndex) :
    (indexArms limits index number wireType).Fits wireType := by
  unfold indexArms
  split <;> simp [FieldAction.fits_push]

end Fits

/-! ## Rounds make progress -/

/-- An arm does not go back. -/
lemma run_takes {action : FieldAction σ} {wireType : ℕ} (hr : r.Valid)
    (h : action.run s wireType r = .ok (s', r')) : ∃ bs, r.Takes bs r' := by
  cases action with
  | skip max =>
    obtain ⟨⟨_, r₁⟩, hread, h⟩ := bind_ok.mp h
    obtain ⟨_, rfl⟩ := Prod.mk.inj (Except.ok.inj h)
    obtain ⟨bs, _, htakes⟩ := (skipField_reads wireType max hr).mp hread
    exact ⟨bs, htakes⟩
  | varint k =>
    obtain ⟨⟨_, r₁⟩, hread, h⟩ := bind_ok.mp h
    obtain ⟨_, rfl⟩ := Prod.mk.inj (Except.ok.inj h)
    obtain ⟨bs, _, htakes⟩ := (readVarint_reads hr).mp hread
    exact ⟨bs, htakes⟩
  | bytes max k =>
    obtain ⟨⟨_, r₁⟩, hread, h⟩ := bind_ok.mp h
    obtain ⟨_, _, h⟩ := bind_ok.mp h
    obtain ⟨_, rfl⟩ := Prod.mk.inj (Except.ok.inj h)
    obtain ⟨bs, _, htakes⟩ := (readLengthDelimited_reads max hr).mp hread
    exact ⟨bs, htakes⟩
  | full limit len max =>
    obtain ⟨_, _, h⟩ := bind_ok.mp h
    exact absurd h (by simp [throw, throwThe, MonadExceptOf.throw])

/-- A round that goes on takes at least one byte. -/
lemma readField_takes (hr : r.Valid) (h : readField arms s r = .ok (some s', r')) :
    ∃ bs, bs ≠ [] ∧ r.Takes bs r' := by
  obtain ⟨⟨tag, r₁⟩, htag, h⟩ := bind_ok.mp h
  obtain - | ⟨number, wireType⟩ := tag
  · exact absurd (Prod.mk.inj (Except.ok.inj h)).1 (by simp)
  · obtain ⟨⟨_, r₂⟩, hrun, h⟩ := bind_ok.mp h
    obtain ⟨_, rfl⟩ := Prod.mk.inj (Except.ok.inj h)
    obtain ⟨tb, htb, htakes, _⟩ := (readTag_some hr).mp htag
    obtain ⟨vb, htakes'⟩ := run_takes (htakes.valid hr) hrun
    exact ⟨tb ++ vb, List.append_ne_nil_of_left_ne_nil htb.continued.ne_nil _,
      htakes.trans htakes'⟩

/-! ## No fault -/

/-- What an arm needs in order not to fault: the messages in it do not, and a list that is
counted is among those that are measured. -/
def FieldAction.Safe (size : σ → ℕ) (s : σ) : FieldAction σ → Prop
  | skip _ => True
  | varint k => ∀ n, size (k n) ≤ size s + 1
  | bytes _ k => (∀ sub : Bytes, sub.length < 2 ^ 63 → NoFault (k sub)) ∧
      ∀ sub s', k sub = .ok s' → size s' ≤ size s + 1
  | full _ len _ => len ≤ size s

lemma run_noFault {size : σ → ℕ} {action : FieldAction σ} {wireType : ℕ} (hr : r.Valid)
    (hsafe : action.Safe size s) (hsize : size s ≤ r.pos) :
    NoFault (action.run s wireType r) := by
  cases action with
  | skip max => exact (skipField_noFault wireType max hr).bind fun _ _ => noFault_pure _
  | varint k => exact (readVarint_noFault hr).bind fun _ _ => noFault_pure _
  | bytes max k =>
    refine (readLengthDelimited_noFault max hr).bind fun ⟨payload, r₁⟩ hread => ?_
    obtain ⟨bs, ⟨_, hbytes⟩, htakes⟩ := (readLengthDelimited_reads max hr).mp hread
    have hlen : payload.length ≤ bs.length := hbytes.payloadLength_le
    have hr₁ := htakes.valid hr
    have hpos := hr₁.pos_le
    have hlt := hr₁.length_lt
    rw [htakes.pos_eq] at hpos
    exact (hsafe.1 payload (by omega)).bind fun _ _ => noFault_pure _
  | full limit len max =>
    have hlen : len ≤ size s := hsafe
    have hpos := hr.pos_le
    have hlt := hr.length_lt
    rw [FieldAction.run, usizeAdd, if_pos (by omega)]
    exact noFault_error _

lemma size_of_run {size : σ → ℕ} {action : FieldAction σ} {wireType : ℕ}
    (hsafe : action.Safe size s) (h : action.run s wireType r = .ok (s', r')) :
    size s' ≤ size s + 1 := by
  cases action with
  | skip max =>
    obtain ⟨_, _, h⟩ := bind_ok.mp h
    obtain ⟨rfl, _⟩ := Prod.mk.inj (Except.ok.inj h)
    omega
  | varint k =>
    obtain ⟨_, _, h⟩ := bind_ok.mp h
    obtain ⟨rfl, _⟩ := Prod.mk.inj (Except.ok.inj h)
    exact hsafe _
  | bytes max k =>
    obtain ⟨_, _, h⟩ := bind_ok.mp h
    obtain ⟨_, hk, h⟩ := bind_ok.mp h
    obtain ⟨rfl, _⟩ := Prod.mk.inj (Except.ok.inj h)
    exact hsafe.2 _ _ hk
  | full limit len max =>
    obtain ⟨_, _, h⟩ := bind_ok.mp h
    exact absurd h (by simp [throw, throwThe, MonadExceptOf.throw])

lemma readField_noFault {size : σ → ℕ} (hsafe : ∀ s n wt, (arms s n wt).Safe size s)
    (hr : r.Valid) (hsize : size s ≤ r.pos) : NoFault (readField arms s r) := by
  refine (readTag_noFault hr).bind fun ⟨tag, r₁⟩ htag => ?_
  obtain - | ⟨number, wireType⟩ := tag
  · exact noFault_pure _
  · obtain ⟨bs, _, htakes, _⟩ := (readTag_some hr).mp htag
    have := htakes.pos_eq
    exact (run_noFault (htakes.valid hr) (hsafe s number wireType) (by omega)).bind
      fun _ _ => noFault_pure _

lemma size_of_readField {size : σ → ℕ} (hsafe : ∀ s n wt, (arms s n wt).Safe size s)
    (h : readField arms s r = .ok (some s', r')) : size s' ≤ size s + 1 := by
  obtain ⟨⟨tag, r₁⟩, htag, h⟩ := bind_ok.mp h
  obtain - | ⟨number, wireType⟩ := tag
  · exact absurd (Prod.mk.inj (Except.ok.inj h)).1 (by simp)
  · obtain ⟨⟨t, r₂⟩, hrun, h⟩ := bind_ok.mp h
    obtain rfl := Option.some.inj (Prod.mk.inj (Except.ok.inj h)).1
    exact size_of_run (hsafe s number wireType) hrun

lemma readFields_noFault {size : σ → ℕ} (hsafe : ∀ s n wt, (arms s n wt).Safe size s) {n : ℕ}
    (hr : r.Valid) (hn : r.rest.length < n) (hsize : size s ≤ r.pos) :
    NoFault (readFields arms n s r) := by
  induction n generalizing s r with
  | zero => omega
  | succ n ih =>
    refine (readField_noFault hsafe hr hsize).bind fun ⟨round, r₁⟩ hround => ?_
    obtain - | t := round
    · exact noFault_pure _
    · -- the round took a byte, so that one round less suffices for what is left
      obtain ⟨bs, hbs, htakes⟩ := readField_takes hr hround
      have hpos := List.length_pos_of_ne_nil hbs
      have hlen := congrArg List.length htakes.rest_eq
      have hgrow := size_of_readField hsafe hround
      have hpos₁ := htakes.pos_eq
      rw [List.length_append] at hlen
      exact ih (htakes.valid hr) (by omega) (by omega)

/-- A message decoder with safe arms does not fault. -/
theorem decodeMessage_noFault (size : σ → ℕ) (hsafe : ∀ s n wt, (arms s n wt).Safe size s)
    (h₀ : size s = 0) (hlen : bs.length < 2 ^ 63) : NoFault (decodeMessage arms s bs) := by
  have hr : Reader.Valid ⟨bs, 0⟩ := ⟨Nat.zero_le _, hlen⟩
  have hrest : Reader.rest ⟨bs, 0⟩ = bs := List.drop_zero
  exact (readFields_noFault hsafe hr (by rw [hrest]; omega) (by rw [h₀])).bind
    fun _ _ => noFault_pure _

lemma packedVarintsLoop_noFault {n : ℕ} {out : List Int32} (hr : r.Valid)
    (hn : r.rest.length < n) : NoFault (packedVarintsLoop n out r) := by
  induction n generalizing out r with
  | zero => omega
  | succ n ih =>
    rw [packedVarintsLoop]
    dsimp only
    split
    · refine (readVarint_noFault hr).bind fun ⟨v, r₁⟩ hread => ?_
      obtain ⟨bs, ⟨hbs, _⟩, htakes⟩ := (readVarint_reads hr).mp hread
      have hpos := List.length_pos_of_ne_nil hbs.continued.ne_nil
      have hlen := congrArg List.length htakes.rest_eq
      rw [List.length_append] at hlen
      exact ih (htakes.valid hr) (by dsimp only at hlen ⊢; omega)
    · exact noFault_pure _

lemma decodePackedVarints_noFault (hlen : bs.length < 2 ^ 63) :
    NoFault (decodePackedVarints bs) := by
  have hr : Reader.Valid ⟨bs, 0⟩ := ⟨Nat.zero_le _, hlen⟩
  have hrest : Reader.rest ⟨bs, 0⟩ = bs := List.drop_zero
  exact (packedVarintsLoop_noFault hr (by rw [hrest]; omega)).bind fun _ _ => noFault_pure _

/-! ## The arms are safe -/

lemma fromUtf8_noFault (field : String) (bs : Bytes) : NoFault (fromUtf8 field bs) := by
  unfold fromUtf8
  split
  · exact noFault_pure _
  · exact noFault_error _

namespace FieldAction

variable {size : σ → ℕ}

@[simp] lemma safe_skip (max : ℕ) : (skip max).Safe size s := trivial

lemma safe_string {field : String} {max : ℕ} {k : String → σ}
    (h : ∀ t, size (k t) ≤ size s + 1) : (string field max k).Safe size s := by
  refine ⟨fun sub _ => (fromUtf8_noFault field sub).bind fun _ _ => noFault_pure _, ?_⟩
  intro sub s' hk
  obtain ⟨t, _, hk⟩ := bind_ok.mp hk
  obtain rfl := Except.ok.inj hk
  exact h t

lemma safe_message {max : ℕ} {decode : Bytes → DResult α} {k : α → σ}
    (hdecode : ∀ sub, sub.length < 2 ^ 63 → NoFault (decode sub))
    (h : ∀ a, size (k a) ≤ size s + 1) : (message max decode k).Safe size s := by
  refine ⟨fun sub hsub => (hdecode sub hsub).bind fun _ _ => noFault_pure _, ?_⟩
  intro sub s' hk
  obtain ⟨a, _, hk⟩ := bind_ok.mp hk
  obtain rfl := Except.ok.inj hk
  exact h a

lemma safe_int32 {k : Int32 → σ} (h : ∀ n, size (k n) ≤ size s + 1) :
    (int32 k).Safe size s := fun _ => h _

lemma safe_bool {k : Bool → σ} (h : ∀ b, size (k b) ≤ size s + 1) :
    (bool k).Safe size s := fun _ => h _

lemma safe_push {limit : String} {len max : ℕ} {action : FieldAction σ} (hlen : len ≤ size s)
    (h : action.Safe size s) : (push limit len max action).Safe size s := by
  rw [push]
  split
  · exact hlen
  · exact h

end FieldAction

open FieldAction

variable {limits : DecodeLimits}

lemma decodeRelationship_noFault (hlen : bs.length < 2 ^ 63) :
    NoFault (decodeRelationship limits bs) := by
  refine decodeMessage_noFault (fun _ => 0) (fun rel n wt => ?_) rfl hlen
  unfold relationshipArms
  split
  · exact safe_string fun _ => Nat.zero_le _
  · exact safe_bool fun _ => Nat.zero_le _
  · exact safe_bool fun _ => Nat.zero_le _
  · exact safe_bool fun _ => Nat.zero_le _
  · exact safe_bool fun _ => Nat.zero_le _
  · exact safe_skip _

lemma decodeSymbolInformation_noFault (hlen : bs.length < 2 ^ 63) :
    NoFault (decodeSymbolInformation limits bs) := by
  refine decodeMessage_noFault
    (fun sym => sym.documentation.length + sym.relationships.length) (fun sym n wt => ?_) rfl hlen
  unfold symbolInformationArms
  split
  · exact safe_string fun _ => Nat.le_succ _
  · refine safe_push (Nat.le_add_right _ _) (safe_string fun _ => ?_)
    simp only [List.length_append, List.length_singleton]
    omega
  · refine safe_push (Nat.le_add_left _ _) (safe_message (fun _ => decodeRelationship_noFault) ?_)
    intro rel
    simp only [List.length_append, List.length_singleton]
    omega
  · exact safe_int32 fun _ => Nat.le_succ _
  · exact safe_skip _

lemma decodeMultiLineRange_noFault (hlen : bs.length < 2 ^ 63) :
    NoFault (decodeMultiLineRange bs) := by
  refine decodeMessage_noFault (fun _ => 0) (fun range n wt => ?_) rfl hlen
  unfold multiLineRangeArms
  split
  · exact safe_int32 fun _ => Nat.zero_le _
  · exact safe_int32 fun _ => Nat.zero_le _
  · exact safe_int32 fun _ => Nat.zero_le _
  · exact safe_int32 fun _ => Nat.zero_le _
  · exact safe_skip _

lemma decodeSingleLineRange_noFault (hlen : bs.length < 2 ^ 63) :
    NoFault (decodeSingleLineRange bs) := by
  refine (decodeMessage_noFault (fun _ => 0) (fun range n wt => ?_) rfl hlen).bind
    fun _ _ => noFault_pure _
  unfold singleLineRangeArms
  split
  · exact safe_int32 fun _ => Nat.zero_le _
  · exact safe_int32 fun _ => Nat.zero_le _
  · exact safe_int32 fun _ => Nat.zero_le _
  · exact safe_skip _

lemma decodeOccurrence_noFault (hlen : bs.length < 2 ^ 63) :
    NoFault (decodeOccurrence limits bs) := by
  refine (decodeMessage_noFault (fun _ => 0) (fun s n wt => ?_) rfl hlen).bind
    fun _ _ => noFault_pure _
  unfold occurrenceArms
  split
  · exact safe_message (fun _ => decodePackedVarints_noFault) fun _ => Nat.zero_le _
  · exact safe_int32 fun _ => Nat.zero_le _
  · exact safe_string fun _ => Nat.zero_le _
  · exact safe_int32 fun _ => Nat.zero_le _
  · exact safe_int32 fun _ => Nat.zero_le _
  · exact safe_message (fun _ => decodeSingleLineRange_noFault) fun _ => Nat.zero_le _
  · exact safe_message (fun _ => decodeMultiLineRange_noFault) fun _ => Nat.zero_le _
  · exact safe_skip _

lemma decodeDocument_noFault (hlen : bs.length < 2 ^ 63) :
    NoFault (decodeDocument limits bs) := by
  refine decodeMessage_noFault (fun doc => doc.occurrences.length + doc.symbols.length)
    (fun doc n wt => ?_) rfl hlen
  unfold documentArms
  split
  · exact safe_string fun _ => Nat.le_succ _
  · refine safe_push (Nat.le_add_right _ _) (safe_message (fun _ => decodeOccurrence_noFault) ?_)
    intro occ
    simp only [List.length_append, List.length_singleton]
    omega
  · refine safe_push (Nat.le_add_left _ _)
      (safe_message (fun _ => decodeSymbolInformation_noFault) ?_)
    intro sym
    simp only [List.length_append, List.length_singleton]
    omega
  · exact safe_string fun _ => Nat.le_succ _
  · exact safe_int32 fun _ => Nat.le_succ _
  · exact safe_skip _

lemma decodeToolInfo_noFault (hlen : bs.length < 2 ^ 63) :
    NoFault (decodeToolInfo limits bs) := by
  refine decodeMessage_noFault (fun _ => 0) (fun info n wt => ?_) rfl hlen
  unfold toolInfoArms
  split
  · exact safe_string fun _ => Nat.zero_le _
  · exact safe_string fun _ => Nat.zero_le _
  · exact safe_skip _

lemma decodeMetadata_noFault (hlen : bs.length < 2 ^ 63) :
    NoFault (decodeMetadata limits bs) := by
  refine decodeMessage_noFault (fun _ => 0) (fun metadata n wt => ?_) rfl hlen
  unfold metadataArms
  split
  · exact safe_message (fun _ => decodeToolInfo_noFault) fun _ => Nat.zero_le _
  · exact safe_string fun _ => Nat.zero_le _
  · exact safe_skip _

lemma decodeIndex_noFault (hlen : bs.length < 2 ^ 63) : NoFault (decodeIndex limits bs) := by
  rw [decodeIndex]
  split
  · exact noFault_error _
  · refine decodeMessage_noFault
      (fun index => index.documents.length + index.externalSymbols.length) (fun index n wt => ?_)
      rfl hlen
    unfold indexArms
    split
    · exact safe_message (fun _ => decodeMetadata_noFault) fun _ => Nat.le_succ _
    · refine safe_push (Nat.le_add_right _ _) (safe_message (fun _ => decodeDocument_noFault) ?_)
      intro doc
      simp only [List.length_append, List.length_singleton]
      omega
    · refine safe_push (Nat.le_add_left _ _)
        (safe_message (fun _ => decodeSymbolInformation_noFault) ?_)
      intro sym
      simp only [List.length_append, List.length_singleton]
      omega
    · exact safe_skip _

/-! ## Limits -/

/-- A string within the limits. -/
def stringWithin (limits : DecodeLimits) (s : String) : Prop :=
  s.utf8ByteSize ≤ limits.maxStringBytes

instance (limits : DecodeLimits) (s : String) : Decidable (stringWithin limits s) :=
  inferInstanceAs (Decidable (_ ≤ _))

/-- A symbol information within the limits. -/
structure ScipSymbolInformation.Within (limits : DecodeLimits) (sym : ScipSymbolInformation) :
    Prop where
  symbol : stringWithin limits sym.symbol
  documentation_length : sym.documentation.length ≤ limits.maxDocumentationEntriesPerSymbol
  documentation : ∀ entry ∈ sym.documentation, stringWithin limits entry
  relationships_length : sym.relationships.length ≤ limits.maxRelationshipsPerSymbol
  relationships : ∀ rel ∈ sym.relationships, stringWithin limits rel.symbol

/-- A document within the limits. -/
structure ScipDocument.Within (limits : DecodeLimits) (doc : ScipDocument) : Prop where
  language : stringWithin limits doc.language
  relativePath : stringWithin limits doc.relativePath
  occurrences_length : doc.occurrences.length ≤ limits.maxOccurrencesPerDocument
  occurrences : ∀ occ ∈ doc.occurrences, stringWithin limits occ.symbol
  symbols_length : doc.symbols.length ≤ limits.maxSymbolsPerDocument
  symbols : ∀ sym ∈ doc.symbols, sym.Within limits

/-- Metadata within the limits. -/
structure ScipMetadata.Within (limits : DecodeLimits) (metadata : ScipMetadata) : Prop where
  toolName : stringWithin limits metadata.toolName
  toolVersion : stringWithin limits metadata.toolVersion
  projectRoot : stringWithin limits metadata.projectRoot

/-- An index within the limits. -/
structure ScipIndex.Within (limits : DecodeLimits) (index : ScipIndex) : Prop where
  metadata : ∀ metadata ∈ index.metadata, metadata.Within limits
  documents_length : index.documents.length ≤ limits.maxDocuments
  documents : ∀ doc ∈ index.documents, doc.Within limits
  externalSymbols_length : index.externalSymbols.length ≤ limits.maxExternalSymbols
  externalSymbols : ∀ sym ∈ index.externalSymbols, sym.Within limits

/-- The arm keeps the property of the message. -/
def FieldAction.Keeps (I : σ → Prop) : FieldAction σ → Prop
  | skip _ => True
  | varint k => ∀ n, I (k n)
  | bytes max k => ∀ sub : Bytes, sub.length ≤ max → sub.length < 2 ^ 63 →
      ∀ s', k sub = .ok s' → I s'
  | full _ _ _ => True

/-- The bytes of a string. -/
def utf8Bytes (s : String) : Bytes := s.toByteArray.data.toList

lemma length_utf8Bytes (s : String) : (utf8Bytes s).length = s.utf8ByteSize := rfl

lemma fromUtf8_ok {field t : String} : fromUtf8 field bs = .ok t ↔ bs = utf8Bytes t := by
  rw [fromUtf8, String.fromUTF8?]
  by_cases h : ByteArray.IsValidUTF8 ⟨bs.toArray⟩
  · rw [dif_pos h]
    constructor
    · intro hok
      obtain rfl := Except.ok.inj hok
      rfl
    · rintro rfl
      exact congrArg Except.ok (String.toByteArray_inj.mp rfl)
  · rw [dif_neg h]
    constructor
    · intro hok
      exact absurd hok (by simp [throw, throwThe, MonadExceptOf.throw])
    · rintro rfl
      exact absurd t.isValidUTF8 h

namespace FieldAction

variable {I : σ → Prop}

lemma keeps_string {field : String} {k : String → σ}
    (h : ∀ t, stringWithin limits t → I (k t)) :
    (string field limits.maxStringBytes k).Keeps I := by
  intro sub hmax _ s' hk
  obtain ⟨t, ht, hk⟩ := bind_ok.mp hk
  obtain rfl := Except.ok.inj hk
  obtain rfl := fromUtf8_ok.mp ht
  exact h t hmax

lemma keeps_message {max : ℕ} {decode : Bytes → DResult α} {k : α → σ}
    (h : ∀ sub : Bytes, sub.length < 2 ^ 63 → ∀ a, decode sub = .ok a → I (k a)) :
    (message max decode k).Keeps I := by
  intro sub _ hsub s' hk
  obtain ⟨a, ha, hk⟩ := bind_ok.mp hk
  obtain rfl := Except.ok.inj hk
  exact h sub hsub a ha

lemma keeps_int32 {k : Int32 → σ} (h : ∀ n, I (k n)) : (int32 k).Keeps I := fun _ => h _

lemma keeps_bool {k : Bool → σ} (h : ∀ b, I (k b)) : (bool k).Keeps I := fun _ => h _

lemma keeps_push {limit : String} {len max : ℕ} {action : FieldAction σ}
    (h : len < max → action.Keeps I) : (push limit len max action).Keeps I := by
  rw [push]
  split
  · exact trivial
  · exact h (by omega)

end FieldAction

/-- **Message rule.**  What every arm keeps holds of the decoded message. -/
theorem decodeMessage_keeps {I : σ → Prop} (hfits : ∀ s n wt, (arms s n wt).Fits wt)
    (hkeeps : ∀ s n wt, I s → (arms s n wt).Keeps I) (h₀ : I s) (hlen : bs.length < 2 ^ 63)
    (h : decodeMessage arms s bs = .ok s') : I s' := by
  obtain ⟨fs, hbody, hfold⟩ := (decodeMessage_ok hfits hlen).mp h
  refine loop_preserves h₀ (fun f hf t t' hI happly => ?_) hfold
  have hkeep := hkeeps t (f.number % 2 ^ 32) f.value.wireType hI
  rw [applyField] at happly
  cases haction : arms t (f.number % 2 ^ 32) f.value.wireType with
  | skip max =>
    rw [haction] at happly
    rwa [(apply_skip_ok.mp happly).2]
  | varint k =>
    rw [haction] at happly hkeep
    obtain ⟨n, _, rfl⟩ := apply_varint_ok.mp happly
    exact hkeep n
  | bytes max k =>
    rw [haction] at happly hkeep
    obtain ⟨payload, hvalue, hmax, hk⟩ := apply_bytes_ok.mp happly
    have hpayload := hbody.payloadLength_le hf
    rw [hvalue, WireValue.payloadLength] at hpayload
    exact hkeep payload hmax (by omega) t' hk
  | full limit len max =>
    rw [haction] at happly
    exact absurd happly apply_full_ok

open FieldAction

lemma decodeRelationship_within {rel : ScipSymbolRelationship} (hlen : bs.length < 2 ^ 63)
    (h : decodeRelationship limits bs = .ok rel) : stringWithin limits rel.symbol := by
  refine decodeMessage_keeps (I := fun rel => stringWithin limits rel.symbol)
    (fun s n wt => relationshipArms_fits limits n wt s) (fun s n wt hs => ?_) (Nat.zero_le _) hlen h
  unfold relationshipArms
  split
  · exact keeps_string fun _ ht => ht
  · exact keeps_bool fun _ => hs
  · exact keeps_bool fun _ => hs
  · exact keeps_bool fun _ => hs
  · exact keeps_bool fun _ => hs
  · exact trivial

/-- One more entry. -/
lemma forall_mem_concat {β : Type} {P : β → Prop} {l : List β} {b : β} (hl : ∀ a ∈ l, P a)
    (hb : P b) : ∀ a ∈ l ++ [b], P a := by
  intro a ha
  rcases List.mem_append.mp ha with ha | ha
  · exact hl a ha
  · rwa [List.mem_singleton.mp ha]

lemma length_concat_le {β : Type} {l : List β} {b : β} {n : ℕ} (h : l.length < n) :
    (l ++ [b]).length ≤ n := by
  rw [List.length_append, List.length_singleton]
  omega

lemma decodeSymbolInformation_within {sym : ScipSymbolInformation} (hlen : bs.length < 2 ^ 63)
    (h : decodeSymbolInformation limits bs = .ok sym) : sym.Within limits := by
  refine decodeMessage_keeps (I := fun sym => sym.Within limits)
    (fun s n wt => symbolInformationArms_fits limits n wt s) (fun s n wt hs => ?_)
    ⟨Nat.zero_le _, Nat.zero_le _, by simp, Nat.zero_le _, by simp⟩ hlen h
  unfold symbolInformationArms
  split
  · exact keeps_string fun _ ht => { hs with symbol := ht }
  · refine keeps_push fun hroom => keeps_string fun t ht => ?_
    exact { hs with
      documentation_length := length_concat_le hroom
      documentation := forall_mem_concat hs.documentation ht }
  · refine keeps_push fun hroom => keeps_message fun sub hsub rel hrel => ?_
    exact { hs with
      relationships_length := length_concat_le hroom
      relationships := forall_mem_concat hs.relationships (decodeRelationship_within hsub hrel) }
  · exact keeps_int32 fun _ => { hs with }
  · exact trivial

lemma decodeOccurrence_within {occ : ScipOccurrence} (hlen : bs.length < 2 ^ 63)
    (h : decodeOccurrence limits bs = .ok occ) : stringWithin limits occ.symbol := by
  obtain ⟨s, hs, h⟩ := bind_ok.mp h
  obtain rfl := Except.ok.inj h
  have hsymbol : s.finish.symbol = s.occ.symbol := by
    rw [OccurrenceState.finish]
    split <;> rfl
  rw [hsymbol]
  refine decodeMessage_keeps (I := fun s : OccurrenceState => stringWithin limits s.occ.symbol)
    (fun s n wt => occurrenceArms_fits limits n wt s) (fun s n wt hs => ?_) (Nat.zero_le _) hlen hs
  unfold occurrenceArms
  split
  · exact keeps_message fun _ _ _ _ => hs
  · exact keeps_int32 fun _ => hs
  · exact keeps_string fun _ ht => ht
  · exact keeps_int32 fun _ => hs
  · exact keeps_int32 fun _ => hs
  · exact keeps_message fun _ _ _ _ => hs
  · exact keeps_message fun _ _ _ _ => hs
  · exact trivial

lemma decodeDocument_within {doc : ScipDocument} (hlen : bs.length < 2 ^ 63)
    (h : decodeDocument limits bs = .ok doc) : doc.Within limits := by
  refine decodeMessage_keeps (I := fun doc => doc.Within limits)
    (fun s n wt => documentArms_fits limits n wt s) (fun s n wt hs => ?_)
    ⟨Nat.zero_le _, Nat.zero_le _, Nat.zero_le _, by simp, Nat.zero_le _, by simp⟩ hlen h
  unfold documentArms
  split
  · exact keeps_string fun _ ht => { hs with relativePath := ht }
  · refine keeps_push fun hroom => keeps_message fun sub hsub occ hocc => ?_
    exact { hs with
      occurrences_length := length_concat_le hroom
      occurrences := forall_mem_concat hs.occurrences (decodeOccurrence_within hsub hocc) }
  · refine keeps_push fun hroom => keeps_message fun sub hsub sym hsym => ?_
    exact { hs with
      symbols_length := length_concat_le hroom
      symbols := forall_mem_concat hs.symbols (decodeSymbolInformation_within hsub hsym) }
  · exact keeps_string fun _ ht => { hs with language := ht }
  · exact keeps_int32 fun _ => { hs with }
  · exact trivial

lemma decodeToolInfo_within {info : ToolInfo} (hlen : bs.length < 2 ^ 63)
    (h : decodeToolInfo limits bs = .ok info) :
    stringWithin limits info.name ∧ stringWithin limits info.version := by
  refine decodeMessage_keeps
    (I := fun info => stringWithin limits info.name ∧ stringWithin limits info.version)
    (fun s n wt => toolInfoArms_fits limits n wt s) (fun s n wt hs => ?_)
    ⟨Nat.zero_le _, Nat.zero_le _⟩ hlen h
  unfold toolInfoArms
  split
  · exact keeps_string fun _ ht => ⟨ht, hs.2⟩
  · exact keeps_string fun _ ht => ⟨hs.1, ht⟩
  · exact trivial

lemma decodeMetadata_within {metadata : ScipMetadata} (hlen : bs.length < 2 ^ 63)
    (h : decodeMetadata limits bs = .ok metadata) : metadata.Within limits := by
  refine decodeMessage_keeps (I := fun metadata => metadata.Within limits)
    (fun s n wt => metadataArms_fits limits n wt s) (fun s n wt hs => ?_)
    ⟨Nat.zero_le _, Nat.zero_le _, Nat.zero_le _⟩ hlen h
  unfold metadataArms
  split
  · refine keeps_message fun sub hsub info hinfo => ?_
    obtain ⟨hname, hversion⟩ := decodeToolInfo_within hsub hinfo
    exact ⟨hname, hversion, hs.projectRoot⟩
  · exact keeps_string fun _ ht => { hs with projectRoot := ht }
  · exact trivial

lemma decodeIndex_within {index : ScipIndex} (hlen : bs.length < 2 ^ 63)
    (h : decodeIndex limits bs = .ok index) : index.Within limits := by
  rw [decodeIndex] at h
  split at h
  · exact absurd h (by simp [throw, throwThe, MonadExceptOf.throw])
  · refine decodeMessage_keeps (I := fun index => index.Within limits)
      (fun s n wt => indexArms_fits limits n wt s) (fun s n wt hs => ?_)
      ⟨by simp, Nat.zero_le _, by simp, Nat.zero_le _, by simp⟩ hlen h
    unfold indexArms
    split
    · refine keeps_message fun sub hsub metadata hmetadata => { hs with metadata := ?_ }
      rintro _ ⟨⟩
      exact decodeMetadata_within hsub hmetadata
    · refine keeps_push fun hroom => keeps_message fun sub hsub doc hdoc => ?_
      exact { hs with
        documents_length := length_concat_le hroom
        documents := forall_mem_concat hs.documents (decodeDocument_within hsub hdoc) }
    · refine keeps_push fun hroom => keeps_message fun sub hsub sym hsym => ?_
      exact { hs with
        externalSymbols_length := length_concat_le hroom
        externalSymbols :=
          forall_mem_concat hs.externalSymbols (decodeSymbolInformation_within hsub hsym) }
    · exact trivial

/-! ## Safety -/

/-- A byte slice, which never spans more than `isize::MAX` bytes. -/
abbrev ByteSlice := {bs : Bytes // bs.length < 2 ^ 63}

/-- **Safety of the decoder.**  Decoding never faults: no slice out of range, no overflow, no
loop without end.  What it returns is within the limits.  A round of a message loop takes at
least one byte and leaves the reader in its buffer. -/
theorem decodeIndex_safe (limits : DecodeLimits) (bytes : ByteSlice) :
    (∀ f, decodeIndex limits bytes ≠ .error (.fault f)) ∧
      (∀ index, decodeIndex limits bytes = .ok index → index.Within limits) ∧
      ∀ (σ : Type) (arms : Arms σ) (s s' : σ) (r r' : Reader), r.Valid →
        readField arms s r = .ok (some s', r') →
          r'.buf = r.buf ∧ r.pos < r'.pos ∧ r'.pos ≤ r'.buf.length := by
  refine ⟨decodeIndex_noFault bytes.2, fun index => decodeIndex_within bytes.2, ?_⟩
  intro σ arms s s' r r' hr h
  obtain ⟨bs, hbs, htakes⟩ := readField_takes hr h
  have := List.length_pos_of_ne_nil hbs
  have := htakes.pos_eq
  exact ⟨htakes.buf_eq, by omega, (htakes.valid hr).pos_le⟩

end WorkspaceAtlas.ScipDecoder
