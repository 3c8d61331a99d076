/-
# Insertion of fields into an encoded index

The messages that the decoder reads, one in the other, and the insertion of the bytes of a field
at a field boundary of one of them.  A field that the message does not read is skipped wherever
it stands.
-/
import WorkspaceAtlas.Scip.Encoding

namespace WorkspaceAtlas.ScipDecoder

open Protobuf Transition

/-! ## The messages of an index -/

/-- The messages that the decoder reads. -/
inductive MessageKind where
  | index
  | metadata
  | toolInfo
  | document
  | occurrence
  | symbolInformation
  | relationship
  | singleLineRange
  | multiLineRange
  deriving DecidableEq, Repr

namespace MessageKind

/-- The field numbers and wire types that a message reads. -/
def reads : MessageKind → List (ℕ × ℕ)
  | index => [(1, 2), (2, 2), (3, 2)]
  | metadata => [(2, 2), (3, 2)]
  | toolInfo => [(1, 2), (2, 2)]
  | document => [(1, 2), (2, 2), (3, 2), (4, 2), (6, 0)]
  | occurrence => [(1, 2), (1, 0), (2, 2), (3, 0), (5, 0), (8, 2), (9, 2)]
  | symbolInformation => [(1, 2), (3, 2), (4, 2), (5, 0)]
  | relationship => [(1, 2), (2, 0), (3, 0), (4, 0), (5, 0)]
  | singleLineRange => [(1, 0), (2, 0), (3, 0)]
  | multiLineRange => [(1, 0), (2, 0), (3, 0), (4, 0)]

/-- The message in a field of a message. -/
def child : MessageKind → ℕ → Option MessageKind
  | index, 1 => some metadata
  | index, 2 => some document
  | index, 3 => some symbolInformation
  | metadata, 2 => some toolInfo
  | document, 2 => some occurrence
  | document, 3 => some symbolInformation
  | occurrence, 8 => some singleLineRange
  | occurrence, 9 => some multiLineRange
  | symbolInformation, 4 => some relationship
  | _, _ => none

/-- The limit on the size of a message in a message. -/
def limit (limits : DecodeLimits) : MessageKind → ℕ
  | index => limits.maxMessageBytes
  | metadata => max limits.maxStringBytes 4096
  | toolInfo => limits.maxStringBytes
  | document => limits.maxMessageBytes
  | occurrence => limits.maxStringBytes
  | symbolInformation => limits.maxStringBytes
  | relationship => limits.maxStringBytes
  | singleLineRange => 256
  | multiLineRange => 256

/-- The variables of the decoder of a message. -/
def State : MessageKind → Type
  | index => ScipIndex
  | metadata => ScipMetadata
  | toolInfo => ToolInfo
  | document => ScipDocument
  | occurrence => OccurrenceState
  | symbolInformation => ScipSymbolInformation
  | relationship => ScipSymbolRelationship
  | singleLineRange => SingleLineRange
  | multiLineRange => ScipRange

/-- The variables before the loop. -/
def init : (k : MessageKind) → k.State
  | index => ({} : ScipIndex)
  | metadata => ({} : ScipMetadata)
  | toolInfo => ({} : ToolInfo)
  | document => ({} : ScipDocument)
  | occurrence => ({} : OccurrenceState)
  | symbolInformation => ({} : ScipSymbolInformation)
  | relationship => defaultRelationship
  | singleLineRange => (⟨0, 0, 0⟩ : SingleLineRange)
  | multiLineRange => defaultRange

/-- The `match` of the decoder of a message. -/
def arms (limits : DecodeLimits) : (k : MessageKind) → Arms k.State
  | index => indexArms limits
  | metadata => metadataArms limits
  | toolInfo => toolInfoArms limits
  | document => documentArms limits
  | occurrence => occurrenceArms limits
  | symbolInformation => symbolInformationArms limits
  | relationship => relationshipArms limits
  | singleLineRange => singleLineRangeArms
  | multiLineRange => multiLineRangeArms

/-- What the decoder of a message returns. -/
def Decoded : MessageKind → Type
  | index => ScipIndex
  | metadata => ScipMetadata
  | toolInfo => ToolInfo
  | document => ScipDocument
  | occurrence => ScipOccurrence
  | symbolInformation => ScipSymbolInformation
  | relationship => ScipSymbolRelationship
  | singleLineRange => ScipRange
  | multiLineRange => ScipRange

/-- The decoder of a message after its loop. -/
def finish : (k : MessageKind) → k.State → k.Decoded
  | index => id
  | metadata => id
  | toolInfo => id
  | document => id
  | occurrence => OccurrenceState.finish
  | symbolInformation => id
  | relationship => id
  | singleLineRange => fun range =>
    (⟨range.line, range.startCharacter, range.line, range.endCharacter⟩ : ScipRange)
  | multiLineRange => id

/-- The decoder of a message; for an index, after the check of its size. -/
def decode (limits : DecodeLimits) : (k : MessageKind) → Bytes → DResult k.Decoded
  | index => decodeMessage (indexArms limits) {}
  | metadata => decodeMetadata limits
  | toolInfo => decodeToolInfo limits
  | document => decodeDocument limits
  | occurrence => decodeOccurrence limits
  | symbolInformation => decodeSymbolInformation limits
  | relationship => decodeRelationship limits
  | singleLineRange => decodeSingleLineRange
  | multiLineRange => decodeMultiLineRange

end MessageKind

/-! ## Insertions -/

/-- In the bytes of a message, the bytes of a field are inserted at a field boundary of a message
of the given kind, which is that message or one in it; the lengths around it are adjusted and
within the limits. -/
inductive Inserted (limits : DecodeLimits) (kind : MessageKind) (fb : Bytes) :
    MessageKind → Bytes → Bytes → Prop where
  | here {fs : List Field} {before : Bytes} (after : Bytes) (hbefore : Body fs before) :
      Inserted limits kind fb kind (before ++ after) (before ++ fb ++ after)
  | inside {outer inner : MessageKind} {n : ℕ} {fs : List Field}
      {before old new sub sub' : Bytes} (after : Bytes) (hchild : outer.child n = some inner)
      (hbefore : Body fs before) (hold : FieldBytes ⟨n, .len sub⟩ old)
      (hnew : FieldBytes ⟨n, .len sub'⟩ new) (hsize : sub'.length ≤ inner.limit limits)
      (h : Inserted limits kind fb inner sub sub') :
      Inserted limits kind fb outer (before ++ old ++ after) (before ++ new ++ after)

/-- The field may be inserted into every message of the kind without a change of what is
decoded. -/
def Transparent (kind : MessageKind) (f : Field) : Prop :=
  ∀ (limits : DecodeLimits) (fb : Bytes) (bytes bytes' : ByteSlice) (index : ScipIndex),
    FieldBytes f fb → f.value.payloadLength ≤ limits.maxStringBytes →
    Inserted limits kind fb .index bytes bytes' → bytes'.1.length ≤ limits.maxMessageBytes →
    decodeIndex limits bytes = .ok index → decodeIndex limits bytes' = .ok index

section Lemmas

variable {limits : DecodeLimits} {k : MessageKind}

lemma arms_fits (limits : DecodeLimits) (k : MessageKind) (s : k.State) (n wt : ℕ) :
    (k.arms limits s n wt).Fits wt := by
  cases k with
  | index => exact indexArms_fits limits n wt s
  | metadata => exact metadataArms_fits limits n wt s
  | toolInfo => exact toolInfoArms_fits limits n wt s
  | document => exact documentArms_fits limits n wt s
  | occurrence => exact occurrenceArms_fits limits n wt s
  | symbolInformation => exact symbolInformationArms_fits limits n wt s
  | relationship => exact relationshipArms_fits limits n wt s
  | singleLineRange => exact singleLineRangeArms_fits n wt s
  | multiLineRange => exact multiLineRangeArms_fits n wt s

/-- The decoder of a message is its loop and what it does after it. -/
lemma decode_eq (limits : DecodeLimits) (k : MessageKind) (bs : Bytes) :
    k.decode limits bs =
      (decodeMessage (k.arms limits) k.init bs >>= fun s => pure (k.finish s)) := by
  cases k with
  | index => exact (bind_pure _).symm
  | metadata => exact (bind_pure _).symm
  | toolInfo => exact (bind_pure _).symm
  | document => exact (bind_pure _).symm
  | occurrence => rfl
  | symbolInformation => exact (bind_pure _).symm
  | relationship => exact (bind_pure _).symm
  | singleLineRange => rfl
  | multiLineRange => exact (bind_pure _).symm

/-- A message is decoded by the fold of its arms over its fields. -/
lemma decode_of_body {bs : Bytes} {fs : List Field} {x : k.Decoded} (hlen : bs.length < 2 ^ 63)
    (hbody : Body fs bs) :
    k.decode limits bs = .ok x ↔
      ∃ s, fs.foldlM (applyField (k.arms limits)) k.init = .ok s ∧ k.finish s = x := by
  rw [decode_eq, bind_ok]
  constructor
  · rintro ⟨s, hs, hx⟩
    exact ⟨s, (decodeMessage_of_body (arms_fits limits k) hlen hbody).mp hs, Except.ok.inj hx⟩
  · rintro ⟨s, hs, rfl⟩
    exact ⟨s, (decodeMessage_of_body (arms_fits limits k) hlen hbody).mpr hs, rfl⟩

lemma body_of_decode {bs : Bytes} {x : k.Decoded} (hlen : bs.length < 2 ^ 63)
    (h : k.decode limits bs = .ok x) : ∃ fs, Body fs bs := by
  rw [decode_eq] at h
  obtain ⟨s, hs, _⟩ := bind_ok.mp h
  obtain ⟨fs, hbody, _⟩ := (decodeMessage_ok (arms_fits limits k) hlen).mp hs
  exact ⟨fs, hbody⟩

lemma decodeIndex_eq {bytes : Bytes} (h : bytes.length ≤ limits.maxMessageBytes) :
    decodeIndex limits bytes = MessageKind.decode limits .index bytes := by
  rw [decodeIndex, if_neg (by omega)]
  rfl

end Lemmas

/-! ## Fields that are skipped -/

section Skipped

variable {limits : DecodeLimits}

/-- The limit on what a message skips. -/
def MessageKind.skipLimit (limits : DecodeLimits) : MessageKind → ℕ
  | singleLineRange => 4096
  | multiLineRange => 4096
  | _ => limits.maxStringBytes

/-- What is not read is skipped. -/
lemma arms_of_not_reads {k : MessageKind} {n wt : ℕ} (h : (n, wt) ∉ k.reads) (s : k.State) :
    k.arms limits s n wt = .skip (k.skipLimit limits) := by
  cases k with
  | index =>
    change indexArms limits s n wt = .skip limits.maxStringBytes
    unfold indexArms
    split <;> first | rfl | exact absurd (by decide) h
  | metadata =>
    change metadataArms limits s n wt = .skip limits.maxStringBytes
    unfold metadataArms
    split <;> first | rfl | exact absurd (by decide) h
  | toolInfo =>
    change toolInfoArms limits s n wt = .skip limits.maxStringBytes
    unfold toolInfoArms
    split <;> first | rfl | exact absurd (by decide) h
  | document =>
    change documentArms limits s n wt = .skip limits.maxStringBytes
    unfold documentArms
    split <;> first | rfl | exact absurd (by decide) h
  | occurrence =>
    change occurrenceArms limits s n wt = .skip limits.maxStringBytes
    unfold occurrenceArms
    split <;> first | rfl | exact absurd (by decide) h
  | symbolInformation =>
    change symbolInformationArms limits s n wt = .skip limits.maxStringBytes
    unfold symbolInformationArms
    split <;> first | rfl | exact absurd (by decide) h
  | relationship =>
    change relationshipArms limits s n wt = .skip limits.maxStringBytes
    unfold relationshipArms
    split <;> first | rfl | exact absurd (by decide) h
  | singleLineRange =>
    change singleLineRangeArms s n wt = .skip 4096
    unfold singleLineRangeArms
    split <;> first | rfl | exact absurd (by decide) h
  | multiLineRange =>
    change multiLineRangeArms s n wt = .skip 4096
    unfold multiLineRangeArms
    split <;> first | rfl | exact absurd (by decide) h

/-- The messages in messages. -/
lemma child_cases {outer inner : MessageKind} {n : ℕ} (h : outer.child n = some inner) :
    (outer = .index ∧ n = 1 ∧ inner = .metadata) ∨ (outer = .index ∧ n = 2 ∧ inner = .document) ∨
      (outer = .index ∧ n = 3 ∧ inner = .symbolInformation) ∨
      (outer = .metadata ∧ n = 2 ∧ inner = .toolInfo) ∨
      (outer = .document ∧ n = 2 ∧ inner = .occurrence) ∨
      (outer = .document ∧ n = 3 ∧ inner = .symbolInformation) ∨
      (outer = .occurrence ∧ n = 8 ∧ inner = .singleLineRange) ∨
      (outer = .occurrence ∧ n = 9 ∧ inner = .multiLineRange) ∨
      (outer = .symbolInformation ∧ n = 4 ∧ inner = .relationship) := by
  unfold MessageKind.child at h
  split at h <;> simp_all

/-- The arm for a message in a message decodes it. -/
lemma child_arm (limits : DecodeLimits) {outer inner : MessageKind} {n : ℕ} (hchild : outer.child n = some inner)
    (s : outer.State) :
    ∃ k : inner.Decoded → outer.State,
      outer.arms limits s n 2 = .message (inner.limit limits) (inner.decode limits) k ∨
      ∃ name len max, outer.arms limits s n 2 =
        .push name len max (.message (inner.limit limits) (inner.decode limits) k) := by
  obtain ⟨rfl, rfl, rfl⟩ | ⟨rfl, rfl, rfl⟩ | ⟨rfl, rfl, rfl⟩ | ⟨rfl, rfl, rfl⟩ | ⟨rfl, rfl, rfl⟩ |
    ⟨rfl, rfl, rfl⟩ | ⟨rfl, rfl, rfl⟩ | ⟨rfl, rfl, rfl⟩ | ⟨rfl, rfl, rfl⟩ := child_cases hchild
  · exact ⟨fun metadata : ScipMetadata => { s with metadata := some metadata }, .inl rfl⟩
  · exact ⟨fun doc : ScipDocument => { s with documents := s.documents ++ [doc] },
      .inr ⟨_, _, _, rfl⟩⟩
  · exact ⟨fun sym : ScipSymbolInformation =>
      { s with externalSymbols := s.externalSymbols ++ [sym] },
      .inr ⟨_, _, _, rfl⟩⟩
  · exact ⟨fun info : ToolInfo =>
      { s with toolName := info.name, toolVersion := info.version }, .inl rfl⟩
  · exact ⟨fun occ : ScipOccurrence => { s with occurrences := s.occurrences ++ [occ] },
      .inr ⟨_, _, _, rfl⟩⟩
  · exact ⟨fun sym : ScipSymbolInformation => { s with symbols := s.symbols ++ [sym] },
      .inr ⟨_, _, _, rfl⟩⟩
  · exact ⟨fun range : ScipRange => { s with occ := { s.occ with range := range } },
      .inl rfl⟩
  · exact ⟨fun range : ScipRange => { s with occ := { s.occ with range := range } },
      .inl rfl⟩
  · exact ⟨fun rel : ScipSymbolRelationship =>
      { s with relationships := s.relationships ++ [rel] }, .inr ⟨_, _, _, rfl⟩⟩

lemma child_lt {outer inner : MessageKind} {n : ℕ} (h : outer.child n = some inner) :
    n < 2 ^ 32 := by
  obtain ⟨_, rfl, _⟩ | ⟨_, rfl, _⟩ | ⟨_, rfl, _⟩ | ⟨_, rfl, _⟩ | ⟨_, rfl, _⟩ | ⟨_, rfl, _⟩ |
    ⟨_, rfl, _⟩ | ⟨_, rfl, _⟩ | ⟨_, rfl, _⟩ := child_cases h <;> omega

/-- A message in a message may be replaced by one that is decoded to the same. -/
lemma applyField_replace {outer inner : MessageKind} {n : ℕ}
    (hchild : outer.child n = some inner) {s t : outer.State} {sub sub' : Bytes}
    (hsize : sub'.length ≤ inner.limit limits)
    (hsame : ∀ y, inner.decode limits sub = .ok y → inner.decode limits sub' = .ok y)
    (h : applyField (outer.arms limits) s ⟨n, .len sub⟩ = .ok t) :
    applyField (outer.arms limits) s ⟨n, .len sub'⟩ = .ok t := by
  have hmod := Nat.mod_eq_of_lt (child_lt hchild)
  simp only [applyField, hmod, WireValue.wireType] at h ⊢
  have hmessage : ∀ k : inner.Decoded → outer.State,
      (FieldAction.message (inner.limit limits) (inner.decode limits) k).apply s (.len sub) =
        .ok t →
      (FieldAction.message (inner.limit limits) (inner.decode limits) k).apply s (.len sub') =
        .ok t := by
    intro k hk
    obtain ⟨payload, heq, _, hk⟩ := apply_bytes_ok.mp hk
    obtain rfl := WireValue.len.inj heq
    obtain ⟨y, hy, hk⟩ := bind_ok.mp hk
    exact apply_bytes_ok.mpr ⟨_, rfl, hsize, bind_ok.mpr ⟨y, hsame y hy, hk⟩⟩
  obtain ⟨k, harm | ⟨name, len, max, harm⟩⟩ := child_arm limits hchild s
  · rw [harm] at h ⊢
    exact hmessage k h
  · rw [harm, FieldAction.push] at h ⊢
    split at h
    · exact absurd h apply_full_ok
    · rw [if_neg ‹_›]
      exact hmessage k h

/-- Bytes around the place of an insertion are not longer than the whole. -/
lemma Inserted.length_le {kind outer : MessageKind} {fb bs bs' : Bytes}
    (h : Inserted limits kind fb outer bs bs') : fb.length ≤ bs'.length := by
  induction h with
  | here after _ =>
    simp only [List.length_append]
    omega
  | inside after _ _ _ hnew _ _ ih =>
    have hlen := (Body.singleton hnew).payloadLength_le (List.mem_singleton_self _)
    simp only [WireValue.payloadLength] at hlen
    simp only [List.length_append]
    omega

/-- An insertion of a field that is not read is not seen. -/
lemma decode_of_inserted {kind outer : MessageKind} {f : Field} {fb bs bs' : Bytes}
    (hread : (f.number % 2 ^ 32, f.value.wireType) ∉ kind.reads) (hfb : FieldBytes f fb)
    (hpayload : f.value.payloadLength ≤ limits.maxStringBytes)
    (h : Inserted limits kind fb outer bs bs') (hlen : bs.length < 2 ^ 63)
    (hlen' : bs'.length < 2 ^ 63)
    (hshort : outer = .singleLineRange ∨ outer = .multiLineRange → bs'.length ≤ 256)
    {y : outer.Decoded} (hdecode : outer.decode limits bs = .ok y) :
    outer.decode limits bs' = .ok y := by
  induction h with
  | here after hbefore =>
    rename_i fs before
    obtain ⟨all, hall⟩ := body_of_decode hlen hdecode
    obtain ⟨rest, rfl, hrest⟩ := hbefore.split hall
    obtain ⟨s, hfold, rfl⟩ := (decode_of_body hlen hall).mp hdecode
    rw [List.append_assoc] at hlen' hshort ⊢
    refine (decode_of_body hlen' (hbefore.append (.cons hfb hrest))).mpr ⟨s, ?_, rfl⟩
    rw [List.foldlM_append, bind_ok] at hfold ⊢
    obtain ⟨t, hbefore', hrest'⟩ := hfold
    refine ⟨t, hbefore', foldlM_cons_ok.mpr ⟨t, ?_, hrest'⟩⟩
    -- the field is skipped
    rw [applyField, arms_of_not_reads hread]
    refine apply_skip_ok.mpr ⟨?_, rfl⟩
    have hfblen := (Body.singleton hfb).payloadLength_le (List.mem_singleton_self _)
    simp only [List.length_append] at hshort
    cases kind with
    | singleLineRange =>
      have := hshort (.inl rfl)
      change _ ≤ 4096
      omega
    | multiLineRange =>
      have := hshort (.inr rfl)
      change _ ≤ 4096
      omega
    | index => exact hpayload
    | metadata => exact hpayload
    | toolInfo => exact hpayload
    | document => exact hpayload
    | occurrence => exact hpayload
    | symbolInformation => exact hpayload
    | relationship => exact hpayload
  | inside after hchild hbefore hold hnew hsize hinner ih =>
    rename_i outer inner n fs before old new sub sub'
    have hsub := (Body.singleton hold).payloadLength_le (List.mem_singleton_self _)
    have hsub' := (Body.singleton hnew).payloadLength_le (List.mem_singleton_self _)
    simp only [WireValue.payloadLength] at hsub hsub'
    simp only [List.length_append] at hlen hlen'
    have hsame : ∀ y, inner.decode limits sub = .ok y → inner.decode limits sub' = .ok y := by
      intro y hy
      refine ih (by omega) (by omega) ?_ hy
      rintro (rfl | rfl)
      · exact hsize
      · exact hsize
    obtain ⟨all, hall⟩ := body_of_decode (by simp only [List.length_append]; omega) hdecode
    have hall' := hall
    rw [List.append_assoc] at hall'
    obtain ⟨rest, rfl, hrest⟩ := hbefore.split hall'
    obtain ⟨rest, rfl, hafter⟩ := (Body.singleton hold).split hrest
    obtain ⟨s, hfold, rfl⟩ :=
      (decode_of_body (by simp only [List.length_append]; omega) hall).mp hdecode
    rw [List.append_assoc]
    refine (decode_of_body (by simp only [List.length_append]; omega)
      (hbefore.append (.cons hnew hafter))).mpr ⟨s, ?_, rfl⟩
    rw [List.foldlM_append, bind_ok] at hfold ⊢
    obtain ⟨t, hbefore', hrest'⟩ := hfold
    rw [List.singleton_append] at hrest'
    obtain ⟨u, hfield, hrest'⟩ := foldlM_cons_ok.mp hrest'
    exact ⟨t, hbefore', foldlM_cons_ok.mpr
      ⟨u, applyField_replace hchild hsize hsame hfield, hrest'⟩⟩

lemma transparent_of_not_reads {kind : MessageKind} {f : Field}
    (h : (f.number % 2 ^ 32, f.value.wireType) ∉ kind.reads) : Transparent kind f := by
  intro limits fb bytes bytes' index hfb hpayload hinserted hsize hdecode
  rw [decodeIndex_eq hsize]
  have hsize' : bytes.1.length ≤ limits.maxMessageBytes := by
    by_contra hlong
    rw [decodeIndex, if_pos (by omega)] at hdecode
    exact absurd hdecode (by simp [throw, throwThe, MonadExceptOf.throw])
  rw [decodeIndex_eq hsize'] at hdecode
  exact decode_of_inserted h hfb hpayload hinserted bytes.2 bytes'.2 (by simp) hdecode

end Skipped

end WorkspaceAtlas.ScipDecoder
