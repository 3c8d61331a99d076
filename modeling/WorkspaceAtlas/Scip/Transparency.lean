/-
# Fields that the decoder does not read

The decoder knows a field by the low 32 bits of its number and by its wire type.  If a message
reads those, there are fields before it after which it changes what is decoded, and what changes
a message changes the index around it.  So a field with a larger number is taken for another one
exactly if those bits and that type are read.
-/
import WorkspaceAtlas.Scip.Insertion

namespace WorkspaceAtlas.ScipDecoder

open Protobuf Transition

/-! ## Fields that are read -/

section Read

variable {limits : DecodeLimits} {k : MessageKind} {f : Field} {n : ℕ}

/-- A field that can be written, with room for a message around it. -/
structure Writable (f : Field) : Prop where
  number_lt : f.number < 2 ^ 61
  sized : f.value.Sized
  payload_lt : f.value.payloadLength < 2 ^ 62

/-- Limits with room for messages of the given size and one entry of each list. -/
def roomyLimits (m : ℕ) : DecodeLimits := ⟨1, 1, 1, 1, 1, 1, m, m⟩

/-- After some short fields, the field changes what is decoded. -/
def Noticed (limits : DecodeLimits) (k : MessageKind) (f : Field) : Prop :=
  ∃ gs s, (∀ g ∈ gs, g.number < 2 ^ 61 ∧ g.value.Sized) ∧ (encodeFields gs).length ≤ 64 ∧
    gs.foldlM (applyField (k.arms limits)) k.init = .ok s ∧
    ∀ s', applyField (k.arms limits) s f = .ok s' → k.finish s' ≠ k.finish s

/-- At the start of the message already. -/
lemma noticed_of_init
    (h : ∀ s', applyField (k.arms limits) k.init f = .ok s' → k.finish s' ≠ k.finish k.init) :
    Noticed limits k f :=
  ⟨[], k.init, by simp, by simp [encodeFields], rfl, h⟩

/-- A field that sets a component to a value of its own is noticed at the start of the message or
after another value of the component. -/
lemma noticed_of_set {α β : Type} {wt : ℕ} (hn : f.number % 2 ^ 32 = n)
    (hw : f.value.wireType = wt) (upd : k.State → α → k.State) (get : k.Decoded → β) (g : α → β)
    (action : (α → k.State) → FieldAction k.State)
    (haction : ∀ u u' s t v s' t', (action u).apply s v = .ok s' → (action u').apply t v = .ok t' →
      ∃ a, s' = u a ∧ t' = u' a)
    (harms : ∀ s, k.arms limits s n wt = action (upd s)) (f₀ : Field) (a₀ : α)
    (hsized : f₀.number < 2 ^ 61 ∧ f₀.value.Sized) (hshort : (encodeField f₀).length ≤ 64)
    (hf₀ : applyField (k.arms limits) k.init f₀ = .ok (upd k.init a₀))
    (hget : ∀ a, get (k.finish (upd k.init a)) = g a)
    (hget₀ : ∀ a, get (k.finish (upd (upd k.init a₀) a)) = g a)
    (hne : get (k.finish k.init) ≠ g a₀) : Noticed limits k f := by
  by_contra hunnoticed
  simp only [Noticed, not_exists, not_and, not_forall] at hunnoticed
  obtain ⟨s, hs, heq⟩ := hunnoticed [] k.init (by simp) (by simp [encodeFields]) rfl
  obtain ⟨t, ht, heq'⟩ := hunnoticed [f₀] (upd k.init a₀) (by simpa using hsized)
    (by simpa [encodeFields] using hshort) (foldlM_cons_ok.mpr ⟨_, hf₀, rfl⟩)
  rw [applyField, hn, hw, harms] at hs ht
  obtain ⟨a, rfl, rfl⟩ := haction _ _ _ _ _ _ _ hs ht
  refine hne ?_
  calc get (k.finish k.init)
      = get (k.finish (upd k.init a)) := by rw [not_not.mp heq]
    _ = g a := hget a
    _ = get (k.finish (upd (upd k.init a₀) a)) := (hget₀ a).symm
    _ = get (k.finish (upd k.init a₀)) := by rw [not_not.mp heq']
    _ = g a₀ := hget a₀

section Actions

variable {σ α : Type} {s t s' t' : σ} {v : WireValue} {max : ℕ}

lemma string_same {field : String} {u u' : String → σ}
    (h : (FieldAction.string field max u).apply s v = .ok s')
    (h' : (FieldAction.string field max u').apply t v = .ok t') : ∃ a, s' = u a ∧ t' = u' a := by
  obtain ⟨payload, rfl, _, h⟩ := apply_bytes_ok.mp h
  obtain ⟨_, heq, _, h'⟩ := apply_bytes_ok.mp h'
  obtain rfl := WireValue.len.inj heq
  obtain ⟨a, ha, h⟩ := bind_ok.mp h
  obtain ⟨a', ha', h'⟩ := bind_ok.mp h'
  obtain rfl := Except.ok.inj (ha.symm.trans ha')
  exact ⟨a, (Except.ok.inj h).symm, (Except.ok.inj h').symm⟩

lemma message_same {decode : Bytes → DResult α} {u u' : α → σ}
    (h : (FieldAction.message max decode u).apply s v = .ok s')
    (h' : (FieldAction.message max decode u').apply t v = .ok t') :
    ∃ a, s' = u a ∧ t' = u' a := by
  obtain ⟨payload, rfl, _, h⟩ := apply_bytes_ok.mp h
  obtain ⟨_, heq, _, h'⟩ := apply_bytes_ok.mp h'
  obtain rfl := WireValue.len.inj heq
  obtain ⟨a, ha, h⟩ := bind_ok.mp h
  obtain ⟨a', ha', h'⟩ := bind_ok.mp h'
  obtain rfl := Except.ok.inj (ha.symm.trans ha')
  exact ⟨a, (Except.ok.inj h).symm, (Except.ok.inj h').symm⟩

lemma int32_same {u u' : Int32 → σ} (h : (FieldAction.int32 u).apply s v = .ok s')
    (h' : (FieldAction.int32 u').apply t v = .ok t') : ∃ a, s' = u a ∧ t' = u' a := by
  obtain ⟨m, rfl, rfl⟩ := apply_varint_ok.mp h
  obtain ⟨_, heq, rfl⟩ := apply_varint_ok.mp h'
  obtain rfl := WireValue.varint.inj heq
  exact ⟨_, rfl, rfl⟩

lemma bool_same {u u' : Bool → σ} (h : (FieldAction.bool u).apply s v = .ok s')
    (h' : (FieldAction.bool u').apply t v = .ok t') : ∃ a, s' = u a ∧ t' = u' a := by
  obtain ⟨m, rfl, rfl⟩ := apply_varint_ok.mp h
  obtain ⟨_, heq, rfl⟩ := apply_varint_ok.mp h'
  obtain rfl := WireValue.varint.inj heq
  exact ⟨_, rfl, rfl⟩

lemma push_ok {limit : String} {len : ℕ} {action : FieldAction σ}
    (h : (FieldAction.push limit len max action).apply s v = .ok s') :
    action.apply s v = .ok s' := by
  rw [FieldAction.push] at h
  split at h
  · exact absurd h apply_full_ok
  · exact h

end Actions

/-- A string field is noticed. -/
lemma noticed_string (hn : f.number % 2 ^ 32 = n) (hw : f.value.wireType = 2)
    (hlimit : 1 ≤ limits.maxStringBytes) {field : String} (upd : k.State → String → k.State)
    (get : k.Decoded → String)
    (harms : ∀ s, k.arms limits s n 2 = .string field limits.maxStringBytes (upd s))
    (hget : ∀ s a, get (k.finish (upd s a)) = a) (hinit : get (k.finish k.init) = "") :
    Noticed limits k f := by
  have hlt : n < 2 ^ 32 := by
    rw [← hn]
    exact Nat.mod_lt _ (by omega)
  have hsized : (WireValue.len (utf8Bytes "x")).Sized := show 1 < 2 ^ 64 by omega
  refine noticed_of_set hn hw upd get id _ (fun _ _ _ _ _ _ _ => string_same) harms
    ⟨n, .len (utf8Bytes "x")⟩ "x" ⟨by dsimp only; omega, hsized⟩ ?_ ?_ (hget _) (hget _)
    (by rw [hinit]; decide)
  · exact (length_encodeField_le hsized).trans (show 20 + 1 ≤ 64 by omega)
  · rw [applyField, Nat.mod_eq_of_lt hlt]
    exact (congrArg (FieldAction.apply _ · _) (harms _)).trans (apply_string ⟨rfl, hlimit⟩)

/-- An integer field is noticed. -/
lemma noticed_int32 (hn : f.number % 2 ^ 32 = n) (hw : f.value.wireType = 0) {β : Type}
    (upd : k.State → Int32 → k.State) (get : k.Decoded → β) (g : Int32 → β)
    (harms : ∀ s, k.arms limits s n 0 = .int32 (upd s))
    (hget : ∀ s a, get (k.finish (upd s a)) = g a) (hinit : get (k.finish k.init) ≠ g 1) :
    Noticed limits k f := by
  have hlt : n < 2 ^ 32 := by
    rw [← hn]
    exact Nat.mod_lt _ (by omega)
  have hsized : (WireValue.varint 1).Sized := show 1 < 2 ^ 64 by omega
  refine noticed_of_set hn hw upd get g _ (fun _ _ _ _ _ _ _ => int32_same) harms
    ⟨n, .varint 1⟩ 1 ⟨by dsimp only; omega, hsized⟩ ?_ ?_ (hget _) (hget _) hinit
  · exact (length_encodeField_le hsized).trans (show 20 + 0 ≤ 64 by omega)
  · rw [applyField, Nat.mod_eq_of_lt hlt]
    exact (congrArg (FieldAction.apply _ · _) (harms _)).trans (apply_int32 (x := 1) rfl)

/-- A truth value is noticed. -/
lemma noticed_bool (hn : f.number % 2 ^ 32 = n) (hw : f.value.wireType = 0)
    (upd : k.State → Bool → k.State) (get : k.Decoded → Bool)
    (harms : ∀ s, k.arms limits s n 0 = .bool (upd s))
    (hget : ∀ s a, get (k.finish (upd s a)) = a) (hinit : get (k.finish k.init) = false) :
    Noticed limits k f := by
  have hlt : n < 2 ^ 32 := by
    rw [← hn]
    exact Nat.mod_lt _ (by omega)
  have hsized : (WireValue.varint 1).Sized := show 1 < 2 ^ 64 by omega
  refine noticed_of_set hn hw upd get id _ (fun _ _ _ _ _ _ _ => bool_same) harms
    ⟨n, .varint 1⟩ true ⟨by dsimp only; omega, hsized⟩ ?_ ?_ (hget _) (hget _)
    (by rw [hinit]; decide)
  · exact (length_encodeField_le hsized).trans (show 20 + 0 ≤ 64 by omega)
  · rw [applyField, Nat.mod_eq_of_lt hlt]
    exact (congrArg (FieldAction.apply _ · _) (harms _)).trans (apply_bool (b := true) rfl)

/-- One more entry of a list is noticed. -/
lemma noticed_push {α : Type} {name : String} {len max m : ℕ} {decode : Bytes → DResult α}
    (hn : f.number % 2 ^ 32 = n) (hw : f.value.wireType = 2) (u : α → k.State)
    (harms : k.arms limits k.init n 2 = .push name len max (.message m decode u))
    (hne : ∀ a, k.finish (u a) ≠ k.finish k.init) : Noticed limits k f := by
  refine noticed_of_init fun s' h => ?_
  rw [applyField, hn, hw, harms] at h
  obtain ⟨a, rfl, _⟩ := message_same (push_ok h) (push_ok h)
  exact hne a

lemma noticed_push_string {field name : String} {len max m : ℕ}
    (hn : f.number % 2 ^ 32 = n) (hw : f.value.wireType = 2) (u : String → k.State)
    (harms : k.arms limits k.init n 2 = .push name len max (.string field m u))
    (hne : ∀ a, k.finish (u a) ≠ k.finish k.init) : Noticed limits k f := by
  refine noticed_of_init fun s' h => ?_
  rw [applyField, hn, hw, harms] at h
  obtain ⟨a, rfl, _⟩ := string_same (push_ok h) (push_ok h)
  exact hne a

end Read

/-! ### Every field that is read is noticed -/

section Noticed

variable {limits : DecodeLimits} {f : Field} {n wt : ℕ}

lemma noticed_relationship (hlimit : 64 ≤ limits.maxStringBytes)
    (h : (f.number % 2 ^ 32, f.value.wireType) ∈ MessageKind.reads .relationship) :
    Noticed limits .relationship f := by
  simp only [MessageKind.reads, List.mem_cons, List.not_mem_nil, or_false, Prod.mk.injEq] at h
  obtain ⟨hn, hw⟩ | ⟨hn, hw⟩ | ⟨hn, hw⟩ | ⟨hn, hw⟩ | ⟨hn, hw⟩ := h
  · exact noticed_string hn hw (by omega)
      (fun (s : ScipSymbolRelationship) a => { s with symbol := a })
      (fun rel : ScipSymbolRelationship => rel.symbol) (fun _ => rfl) (fun _ _ => rfl) rfl
  · exact noticed_bool hn hw (fun (s : ScipSymbolRelationship) a => { s with isReference := a })
      (fun rel : ScipSymbolRelationship => rel.isReference) (fun _ => rfl) (fun _ _ => rfl) rfl
  · exact noticed_bool hn hw
      (fun (s : ScipSymbolRelationship) a => { s with isImplementation := a })
      (fun rel : ScipSymbolRelationship => rel.isImplementation) (fun _ => rfl) (fun _ _ => rfl) rfl
  · exact noticed_bool hn hw
      (fun (s : ScipSymbolRelationship) a => { s with isTypeDefinition := a })
      (fun rel : ScipSymbolRelationship => rel.isTypeDefinition) (fun _ => rfl) (fun _ _ => rfl) rfl
  · exact noticed_bool hn hw (fun (s : ScipSymbolRelationship) a => { s with isDefinition := a })
      (fun rel : ScipSymbolRelationship => rel.isDefinition) (fun _ => rfl) (fun _ _ => rfl) rfl

lemma noticed_singleLineRange
    (h : (f.number % 2 ^ 32, f.value.wireType) ∈ MessageKind.reads .singleLineRange) :
    Noticed limits .singleLineRange f := by
  simp only [MessageKind.reads, List.mem_cons, List.not_mem_nil, or_false, Prod.mk.injEq] at h
  obtain ⟨hn, hw⟩ | ⟨hn, hw⟩ | ⟨hn, hw⟩ := h
  · exact noticed_int32 hn hw (fun (s : SingleLineRange) a => { s with line := a })
      ScipRange.startLine id (fun _ => rfl) (fun _ _ => rfl) (by decide)
  · exact noticed_int32 hn hw (fun (s : SingleLineRange) a => { s with startCharacter := a })
      ScipRange.startCharacter id (fun _ => rfl) (fun _ _ => rfl) (by decide)
  · exact noticed_int32 hn hw (fun (s : SingleLineRange) a => { s with endCharacter := a })
      ScipRange.endCharacter id (fun _ => rfl) (fun _ _ => rfl) (by decide)

lemma noticed_multiLineRange
    (h : (f.number % 2 ^ 32, f.value.wireType) ∈ MessageKind.reads .multiLineRange) :
    Noticed limits .multiLineRange f := by
  simp only [MessageKind.reads, List.mem_cons, List.not_mem_nil, or_false, Prod.mk.injEq] at h
  obtain ⟨hn, hw⟩ | ⟨hn, hw⟩ | ⟨hn, hw⟩ | ⟨hn, hw⟩ := h
  · exact noticed_int32 hn hw (fun (s : ScipRange) a => { s with startLine := a })
      ScipRange.startLine id (fun _ => rfl) (fun _ _ => rfl) (by decide)
  · exact noticed_int32 hn hw (fun (s : ScipRange) a => { s with startCharacter := a })
      ScipRange.startCharacter id (fun _ => rfl) (fun _ _ => rfl) (by decide)
  · exact noticed_int32 hn hw (fun (s : ScipRange) a => { s with endLine := a })
      ScipRange.endLine id (fun _ => rfl) (fun _ _ => rfl) (by decide)
  · exact noticed_int32 hn hw (fun (s : ScipRange) a => { s with endCharacter := a })
      ScipRange.endCharacter id (fun _ => rfl) (fun _ _ => rfl) (by decide)

lemma noticed_symbolInformation (hlimit : 64 ≤ limits.maxStringBytes)
    (h : (f.number % 2 ^ 32, f.value.wireType) ∈ MessageKind.reads .symbolInformation) :
    Noticed limits .symbolInformation f := by
  simp only [MessageKind.reads, List.mem_cons, List.not_mem_nil, or_false, Prod.mk.injEq] at h
  obtain ⟨hn, hw⟩ | ⟨hn, hw⟩ | ⟨hn, hw⟩ | ⟨hn, hw⟩ := h
  · exact noticed_string hn hw (by omega)
      (fun (s : ScipSymbolInformation) a => { s with symbol := a })
      (fun sym : ScipSymbolInformation => sym.symbol) (fun _ => rfl) (fun _ _ => rfl) rfl
  · refine noticed_push_string hn hw
      (fun a => ({ documentation := [a] } : ScipSymbolInformation)) rfl fun a heq => ?_
    exact absurd (congrArg ScipSymbolInformation.documentation heq) (List.cons_ne_nil a [])
  · refine noticed_push hn hw
      (fun a => ({ relationships := [a] } : ScipSymbolInformation)) rfl fun a heq => ?_
    exact absurd (congrArg (fun sym : ScipSymbolInformation => sym.relationships) heq)
      (List.cons_ne_nil a [])
  · exact noticed_int32 hn hw (fun (s : ScipSymbolInformation) a => { s with kind := a })
      ScipSymbolInformation.kind id (fun _ => rfl) (fun _ _ => rfl) (by decide)

lemma noticed_toolInfo (hlimit : 64 ≤ limits.maxStringBytes)
    (h : (f.number % 2 ^ 32, f.value.wireType) ∈ MessageKind.reads .toolInfo) :
    Noticed limits .toolInfo f := by
  simp only [MessageKind.reads, List.mem_cons, List.not_mem_nil, or_false, Prod.mk.injEq] at h
  obtain ⟨hn, hw⟩ | ⟨hn, hw⟩ := h
  · exact noticed_string hn hw (by omega) (fun (s : ToolInfo) a => { s with name := a })
      ToolInfo.name (fun _ => rfl) (fun _ _ => rfl) rfl
  · exact noticed_string hn hw (by omega) (fun (s : ToolInfo) a => { s with version := a })
      ToolInfo.version (fun _ => rfl) (fun _ _ => rfl) rfl

/-- Fields that are written and decoded in a message. -/
lemma decode_encodeFields {k : MessageKind} {gs : List Field} {s : k.State}
    (hsized : ∀ g ∈ gs, g.number < 2 ^ 61 ∧ g.value.Sized)
    (hlen : (encodeFields gs).length < 2 ^ 63)
    (hs : gs.foldlM (applyField (k.arms limits)) k.init = .ok s) :
    k.decode limits (encodeFields gs) = .ok (k.finish s) :=
  (decode_of_body hlen (body_encodeFields hsized)).mpr ⟨s, hs, rfl⟩

lemma noticed_metadata (hlimit : 64 ≤ limits.maxStringBytes)
    (h : (f.number % 2 ^ 32, f.value.wireType) ∈ MessageKind.reads .metadata) :
    Noticed limits .metadata f := by
  simp only [MessageKind.reads, List.mem_cons, List.not_mem_nil, or_false, Prod.mk.injEq] at h
  obtain ⟨hn, hw⟩ | ⟨hn, hw⟩ := h
  · -- after a tool with a name
    have htool : decodeToolInfo limits (encodeFields [⟨1, .len (utf8Bytes "x")⟩]) =
        .ok { name := "x" } := by
      refine decode_encodeFields (k := .toolInfo) (by decide) (by decide)
        (foldlM_cons_ok.mpr ⟨({ name := "x" } : ToolInfo), ?_, rfl⟩)
      exact apply_string (k := fun t => ({ name := t } : ToolInfo)) ⟨rfl, by
        have : "x".utf8ByteSize = 1 := rfl
        rw [stringWithin]
        omega⟩
    refine noticed_of_set hn hw
      (fun (s : ScipMetadata) (a : ToolInfo) =>
        { s with toolName := a.name, toolVersion := a.version })
      ScipMetadata.toolName ToolInfo.name _ (fun _ _ _ _ _ _ _ => message_same) (fun _ => rfl)
      ⟨2, .len (encodeFields [⟨1, .len (utf8Bytes "x")⟩])⟩ { name := "x" } (by decide) (by decide)
      ?_ (fun _ => rfl) (fun _ => rfl) (by decide)
    exact apply_message ⟨_, rfl, (show 3 ≤ limits.maxStringBytes by omega), htool⟩
  · exact noticed_string hn hw (by omega) (fun (s : ScipMetadata) a => { s with projectRoot := a })
      ScipMetadata.projectRoot (fun _ => rfl) (fun _ _ => rfl) rfl

lemma noticed_index (h : (f.number % 2 ^ 32, f.value.wireType) ∈ MessageKind.reads .index) :
    Noticed limits .index f := by
  simp only [MessageKind.reads, List.mem_cons, List.not_mem_nil, or_false, Prod.mk.injEq] at h
  obtain ⟨hn, hw⟩ | ⟨hn, hw⟩ | ⟨hn, hw⟩ := h
  · refine noticed_of_init fun s' h heq => ?_
    rw [applyField, hn, hw] at h
    obtain ⟨payload, _, _, h⟩ := apply_bytes_ok.mp h
    obtain ⟨metadata, _, h⟩ := bind_ok.mp h
    obtain rfl := Except.ok.inj h
    exact absurd (congrArg ScipIndex.metadata heq) (Option.some_ne_none metadata)
  · refine noticed_push hn hw (fun a => ({ documents := [a] } : ScipIndex)) rfl fun a heq => ?_
    exact absurd (congrArg ScipIndex.documents heq) (List.cons_ne_nil a [])
  · refine noticed_push hn hw (fun a => ({ externalSymbols := [a] } : ScipIndex)) rfl
      fun a heq => ?_
    exact absurd (congrArg ScipIndex.externalSymbols heq) (List.cons_ne_nil a [])

lemma noticed_document (hlimit : 64 ≤ limits.maxStringBytes)
    (h : (f.number % 2 ^ 32, f.value.wireType) ∈ MessageKind.reads .document) :
    Noticed limits .document f := by
  simp only [MessageKind.reads, List.mem_cons, List.not_mem_nil, or_false, Prod.mk.injEq] at h
  obtain ⟨hn, hw⟩ | ⟨hn, hw⟩ | ⟨hn, hw⟩ | ⟨hn, hw⟩ | ⟨hn, hw⟩ := h
  · exact noticed_string hn hw (by omega) (fun (s : ScipDocument) a => { s with relativePath := a })
      ScipDocument.relativePath (fun _ => rfl) (fun _ _ => rfl) rfl
  · refine noticed_push hn hw (fun a => ({ occurrences := [a] } : ScipDocument)) rfl
      fun a heq => ?_
    exact absurd (congrArg ScipDocument.occurrences heq) (List.cons_ne_nil a [])
  · refine noticed_push hn hw (fun a => ({ symbols := [a] } : ScipDocument)) rfl fun a heq => ?_
    exact absurd (congrArg ScipDocument.symbols heq) (List.cons_ne_nil a [])
  · exact noticed_string hn hw (by omega) (fun (s : ScipDocument) a => { s with language := a })
      ScipDocument.language (fun _ => rfl) (fun _ _ => rfl) rfl
  · exact noticed_int32 hn hw
      (fun (s : ScipDocument) a => { s with positionEncoding := fromScipValue a })
      ScipDocument.positionEncoding fromScipValue (fun _ => rfl) (fun _ _ => rfl) (by decide)

lemma finish_symbol (s : OccurrenceState) : s.finish.symbol = s.occ.symbol := by
  rw [OccurrenceState.finish]
  split <;> rfl

lemma finish_symbolRoles (s : OccurrenceState) : s.finish.symbolRoles = s.occ.symbolRoles := by
  rw [OccurrenceState.finish]
  split <;> rfl

lemma finish_syntaxKind (s : OccurrenceState) : s.finish.syntaxKind = s.occ.syntaxKind := by
  rw [OccurrenceState.finish]
  split <;> rfl

lemma finish_legacyRange (xs : List Int32) :
    (OccurrenceState.finish ⟨{}, xs⟩).range = rangeFromLegacy xs := by
  by_cases hxs : xs = []
  · subst hxs
    rfl
  · rw [OccurrenceState.finish, if_pos ⟨rfl, hxs⟩]

/-- A range message is noticed after another one. -/
lemma noticed_range {decode : Bytes → DResult ScipRange} (hn : f.number % 2 ^ 32 = n)
    (hw : f.value.wireType = 2)
    (harms : ∀ s, occurrenceArms limits s n 2 = .message 256 decode fun range =>
      { s with occ := { s.occ with range := range } })
    (hdecode : decode (encodeFields [⟨2, .varint 1⟩]) = .ok ⟨0, 1, 0, 0⟩) :
    Noticed limits .occurrence f := by
  have hlt : n < 2 ^ 32 := by
    rw [← hn]
    exact Nat.mod_lt _ (by omega)
  have hsized : (WireValue.len (encodeFields [⟨2, .varint 1⟩])).Sized := by decide
  refine noticed_of_set hn hw
    (fun (s : OccurrenceState) range => { s with occ := { s.occ with range := range } })
    (fun occ : ScipOccurrence => occ.range) id _ (fun _ _ _ _ _ _ _ => message_same) harms
    ⟨n, .len (encodeFields [⟨2, .varint 1⟩])⟩ ⟨0, 1, 0, 0⟩ ⟨by dsimp only; omega, hsized⟩ ?_ ?_
    (fun _ => congrArg (fun occ : ScipOccurrence => occ.range) (finish_of_nil _))
    (fun _ => congrArg (fun occ : ScipOccurrence => occ.range) (finish_of_nil _)) (by decide)
  · exact (length_encodeField_le hsized).trans (show 20 + 2 ≤ 64 by omega)
  · rw [applyField, Nat.mod_eq_of_lt hlt]
    exact (congrArg (FieldAction.apply _ · _) (harms _)).trans
      (apply_message ⟨_, rfl, by decide, hdecode⟩)

lemma noticed_occurrence (hlimit : 64 ≤ limits.maxStringBytes)
    (h : (f.number % 2 ^ 32, f.value.wireType) ∈ MessageKind.reads .occurrence) :
    Noticed limits .occurrence f := by
  simp only [MessageKind.reads, List.mem_cons, List.not_mem_nil, or_false, Prod.mk.injEq] at h
  obtain ⟨hn, hw⟩ | ⟨hn, hw⟩ | ⟨hn, hw⟩ | ⟨hn, hw⟩ | ⟨hn, hw⟩ | ⟨hn, hw⟩ | ⟨hn, hw⟩ := h
  · -- after another packed range
    refine noticed_of_set hn hw (fun (s : OccurrenceState) xs => { s with legacyRange := xs })
      (fun occ : ScipOccurrence => occ.range) rangeFromLegacy _
      (fun _ _ _ _ _ _ _ => message_same) (fun _ => rfl) ⟨1, .len [1, 2, 3]⟩ [1, 2, 3]
      (by decide) (by decide) ?_ finish_legacyRange finish_legacyRange (by decide)
    exact apply_message ⟨_, rfl, (show 3 ≤ limits.maxStringBytes by omega), by decide⟩
  · -- after the first two integers
    refine ⟨[⟨1, .len [1, 2]⟩], (⟨{}, [1, 2]⟩ : OccurrenceState), by decide, by decide,
      foldlM_cons_ok.mpr ⟨_, ?_, rfl⟩, fun s' h heq => ?_⟩
    · exact apply_message (k := fun xs => (⟨{}, xs⟩ : OccurrenceState))
        ⟨_, rfl, (show 2 ≤ limits.maxStringBytes by omega), by decide⟩
    · have harm : (occurrenceArms limits ⟨{}, [1, 2]⟩ (f.number % 2 ^ 32) f.value.wireType).apply
          ⟨{}, [1, 2]⟩ f.value = .ok s' := h
      rw [hn, hw] at harm
      obtain ⟨m, _, rfl⟩ := apply_varint_ok.mp harm
      have hrange := congrArg (fun occ : ScipOccurrence => occ.range) heq
      exact absurd (congrArg ScipRange.startLine hrange) (show ¬ (1 : Int32) = 0 by decide)
  · exact noticed_string hn hw (by omega)
      (fun (s : OccurrenceState) a => { s with occ := { s.occ with symbol := a } })
      (fun occ : ScipOccurrence => occ.symbol) (fun _ => rfl) (fun _ _ => finish_symbol _) rfl
  · exact noticed_int32 hn hw
      (fun (s : OccurrenceState) a => { s with occ := { s.occ with symbolRoles := a } })
      (fun occ : ScipOccurrence => occ.symbolRoles) id (fun _ => rfl)
      (fun _ _ => finish_symbolRoles _) (by decide)
  · exact noticed_int32 hn hw
      (fun (s : OccurrenceState) a => { s with occ := { s.occ with syntaxKind := a } })
      ScipOccurrence.syntaxKind id (fun _ => rfl) (fun _ _ => finish_syntaxKind _) (by decide)
  · exact noticed_range hn hw (fun _ => rfl) (by decide)
  · exact noticed_range hn hw (fun _ => rfl) (by decide)

end Noticed

/-! ### Transparency -/

section Visible

variable {limits : DecodeLimits} {kind outer inner : MessageKind} {f : Field} {fb : Bytes}
  {n m : ℕ}

lemma noticed_of_reads (hlimit : 64 ≤ limits.maxStringBytes)
    (h : (f.number % 2 ^ 32, f.value.wireType) ∈ kind.reads) : Noticed limits kind f := by
  cases kind with
  | index => exact noticed_index h
  | metadata => exact noticed_metadata hlimit h
  | toolInfo => exact noticed_toolInfo hlimit h
  | document => exact noticed_document hlimit h
  | occurrence => exact noticed_occurrence hlimit h
  | symbolInformation => exact noticed_symbolInformation hlimit h
  | relationship => exact noticed_relationship hlimit h
  | singleLineRange => exact noticed_singleLineRange h
  | multiLineRange => exact noticed_multiLineRange h

/-- An insertion into a message of at most the given size changes what is decoded. -/
def Visible (limits : DecodeLimits) (kind : MessageKind) (fb : Bytes) (outer : MessageKind)
    (m : ℕ) : Prop :=
  ∃ bs bs' x, Inserted limits kind fb outer bs bs' ∧ bs.length ≤ m ∧ bs'.length ≤ m ∧
    outer.decode limits bs = .ok x ∧ outer.decode limits bs' ≠ .ok x

lemma visible_of_noticed (hfb : FieldBytes f fb) (h : Noticed limits kind f)
    (hm : 64 + fb.length ≤ m) (hlt : m < 2 ^ 63) : Visible limits kind fb kind m := by
  obtain ⟨gs, s, hsized, hshort, hfold, hne⟩ := h
  have hbody := body_encodeFields hsized
  have hinserted : Inserted limits kind fb kind _ _ := .here [] hbody
  rw [List.append_nil, List.append_nil] at hinserted
  refine ⟨encodeFields gs, encodeFields gs ++ fb, kind.finish s, hinserted, by omega,
    by rw [List.length_append]; omega, ?_, fun hdecode => ?_⟩
  · exact decode_encodeFields hsized (by omega) hfold
  · obtain ⟨s', hfold', heq⟩ := (decode_of_body (by rw [List.length_append]; omega)
      (hbody.append (.singleton hfb))).mp hdecode
    rw [List.foldlM_append, hfold] at hfold'
    obtain ⟨t, happly, hnil⟩ := foldlM_cons_ok.mp hfold'
    obtain rfl := Except.ok.inj hnil
    exact hne t happly heq

/-- A message that holds nothing but another one is decoded by it, injectively. -/
lemma child_place (m : ℕ) (hchild : outer.child n = some inner) :
    ∃ place : inner.Decoded → outer.State,
      Function.Injective (fun y => outer.finish (place y)) ∧
      ∀ (sub : Bytes) (s : outer.State), sub.length ≤ inner.limit (roomyLimits m) →
        (applyField (outer.arms (roomyLimits m)) outer.init ⟨n, .len sub⟩ = .ok s ↔
          ∃ y, inner.decode (roomyLimits m) sub = .ok y ∧ place y = s) := by
  -- all arms for messages act alike
  have hiff : ∀ (place : inner.Decoded → outer.State) (sub : Bytes) (s : outer.State),
      sub.length ≤ inner.limit (roomyLimits m) →
      ((FieldAction.message (inner.limit (roomyLimits m)) (inner.decode (roomyLimits m))
        place).apply outer.init (.len sub) = .ok s ↔
          ∃ y, inner.decode (roomyLimits m) sub = .ok y ∧ place y = s) := by
    intro place sub s hsub
    constructor
    · intro h
      obtain ⟨payload, heq, _, h⟩ := apply_bytes_ok.mp h
      obtain rfl := WireValue.len.inj heq
      obtain ⟨y, hy, h⟩ := bind_ok.mp h
      exact ⟨y, hy, Except.ok.inj h⟩
    · rintro ⟨y, hy, rfl⟩
      exact apply_message ⟨sub, rfl, hsub, hy⟩
  obtain ⟨rfl, rfl, rfl⟩ | ⟨rfl, rfl, rfl⟩ | ⟨rfl, rfl, rfl⟩ | ⟨rfl, rfl, rfl⟩ | ⟨rfl, rfl, rfl⟩ |
    ⟨rfl, rfl, rfl⟩ | ⟨rfl, rfl, rfl⟩ | ⟨rfl, rfl, rfl⟩ | ⟨rfl, rfl, rfl⟩ := child_cases hchild
  · refine ⟨fun metadata => ({ metadata := some metadata } : ScipIndex), fun y y' h => ?_,
      hiff _⟩
    exact Option.some.inj (congrArg ScipIndex.metadata h)
  · refine ⟨fun doc => ({ documents := [doc] } : ScipIndex), fun y y' h => ?_, hiff _⟩
    exact List.head_eq_of_cons_eq (congrArg ScipIndex.documents h)
  · refine ⟨fun sym => ({ externalSymbols := [sym] } : ScipIndex), fun y y' h => ?_, hiff _⟩
    exact List.head_eq_of_cons_eq (congrArg ScipIndex.externalSymbols h)
  · refine ⟨fun info : ToolInfo => (⟨info.name, info.version, ""⟩ : ScipMetadata),
      fun y y' h => ?_, hiff _⟩
    exact congrArg ScipMetadata.toolInfo h
  · refine ⟨fun occ => ({ occurrences := [occ] } : ScipDocument), fun y y' h => ?_, hiff _⟩
    exact List.head_eq_of_cons_eq (congrArg ScipDocument.occurrences h)
  · refine ⟨fun sym => ({ symbols := [sym] } : ScipDocument), fun y y' h => ?_, hiff _⟩
    exact List.head_eq_of_cons_eq (congrArg ScipDocument.symbols h)
  · refine ⟨fun range => ({ occ := { range := range } } : OccurrenceState), fun y y' h => ?_,
      hiff _⟩
    exact congrArg (fun occ : ScipOccurrence => occ.range)
      ((finish_of_nil _).symm.trans (h.trans (finish_of_nil _)))
  · refine ⟨fun range => ({ occ := { range := range } } : OccurrenceState), fun y y' h => ?_,
      hiff _⟩
    exact congrArg (fun occ : ScipOccurrence => occ.range)
      ((finish_of_nil _).symm.trans (h.trans (finish_of_nil _)))
  · refine ⟨fun rel => ({ relationships := [rel] } : ScipSymbolInformation), fun y y' h => ?_,
      hiff _⟩
    exact List.head_eq_of_cons_eq
      (congrArg (fun sym : ScipSymbolInformation => sym.relationships) h)

/-- What changes a message changes the message around it. -/
lemma Visible.lift {l : ℕ} (hchild : outer.child n = some inner)
    (h : Visible (roomyLimits l) kind fb inner m) (hm : m ≤ inner.limit (roomyLimits l))
    (hlt : m + 20 < 2 ^ 63) : Visible (roomyLimits l) kind fb outer (m + 20) := by
  obtain ⟨sub, sub', y, hinserted, hsub, hsub', hdecode, hne⟩ := h
  obtain ⟨place, hinj, hplace⟩ := child_place l hchild
  have hn := child_lt hchild
  have hfield : ∀ {bs : Bytes}, bs.length ≤ m →
      FieldBytes ⟨n, .len bs⟩ (encodeField ⟨n, .len bs⟩) ∧
        (encodeField ⟨n, .len bs⟩).length ≤ m + 20 := by
    intro bs hbs
    have hsized : (WireValue.len bs).Sized := show bs.length < 2 ^ 64 by omega
    refine ⟨fieldBytes_encodeField (by dsimp only; omega) hsized, ?_⟩
    have := length_encodeField_le (f := ⟨n, .len bs⟩) hsized
    rw [WireValue.payloadLength] at this
    omega
  obtain ⟨hold, hlen⟩ := hfield hsub
  obtain ⟨hnew, hlen'⟩ := hfield hsub'
  have houter := Inserted.inside [] hchild .nil hold hnew (by omega) hinserted
  rw [List.nil_append, List.append_nil, List.nil_append, List.append_nil] at houter
  refine ⟨_, _, outer.finish (place y), houter, hlen, hlen', ?_, fun hdecode' => ?_⟩
  · exact (decode_of_body (by omega) (.singleton hold)).mpr
      ⟨place y, foldlM_cons_ok.mpr
        ⟨place y, (hplace sub _ (by omega)).mpr ⟨y, hdecode, rfl⟩, rfl⟩, rfl⟩
  · obtain ⟨s, hfold, heq⟩ := (decode_of_body (by omega) (.singleton hnew)).mp hdecode'
    obtain ⟨t, happly, hnil⟩ := foldlM_cons_ok.mp hfold
    obtain rfl := Except.ok.inj hnil
    obtain ⟨y', hy', rfl⟩ := (hplace sub' _ (by omega)).mp happly
    obtain rfl := hinj heq
    exact hne hy'

/-- What changes a message changes the index. -/
lemma Visible.index {l : ℕ} (h : Visible (roomyLimits l) kind fb kind m) (hl : m + 60 ≤ l)
    (hshort : kind = .singleLineRange ∨ kind = .multiLineRange → m ≤ 256)
    (hlt : m + 60 < 2 ^ 63) : ∃ m', m' ≤ m + 60 ∧ Visible (roomyLimits l) kind fb .index m' := by
  cases kind with
  | index => exact ⟨m, by omega, h⟩
  | metadata =>
    exact ⟨m + 20, by omega, h.lift (n := 1) rfl (show m ≤ max l 4096 by omega)
      (by omega)⟩
  | toolInfo =>
    have h₁ : Visible _ _ _ .metadata _ :=
      h.lift (n := 2) rfl (show m ≤ l by omega) (by omega)
    exact ⟨m + 40, by omega, h₁.lift (n := 1) rfl
      (show m + 20 ≤ max l 4096 by omega) (by omega)⟩
  | document =>
    exact ⟨m + 20, by omega, h.lift (n := 2) rfl (show m ≤ l by omega) (by omega)⟩
  | occurrence =>
    have h₁ : Visible _ _ _ .document _ :=
      h.lift (n := 2) rfl (show m ≤ l by omega) (by omega)
    exact ⟨m + 40, by omega, h₁.lift (n := 2) rfl (show m + 20 ≤ l by omega)
      (by omega)⟩
  | symbolInformation =>
    exact ⟨m + 20, by omega, h.lift (n := 3) rfl (show m ≤ l by omega) (by omega)⟩
  | relationship =>
    have h₁ : Visible _ _ _ .symbolInformation _ :=
      h.lift (n := 4) rfl (show m ≤ l by omega) (by omega)
    exact ⟨m + 40, by omega, h₁.lift (n := 3) rfl (show m + 20 ≤ l by omega)
      (by omega)⟩
  | singleLineRange =>
    have h₁ : Visible _ _ _ .occurrence _ :=
      h.lift (n := 8) rfl (hshort (.inl rfl)) (by omega)
    have h₂ : Visible _ _ _ .document _ :=
      h₁.lift (n := 2) rfl (show m + 20 ≤ l by omega) (by omega)
    exact ⟨m + 60, by omega, h₂.lift (n := 2) rfl (show m + 40 ≤ l by omega)
      (by omega)⟩
  | multiLineRange =>
    have h₁ : Visible _ _ _ .occurrence _ :=
      h.lift (n := 9) rfl (hshort (.inr rfl)) (by omega)
    have h₂ : Visible _ _ _ .document _ :=
      h₁.lift (n := 2) rfl (show m + 20 ≤ l by omega) (by omega)
    exact ⟨m + 60, by omega, h₂.lift (n := 2) rfl (show m + 40 ≤ l by omega)
      (by omega)⟩

/-- A field that is read is not transparent. -/
lemma not_transparent_of_reads (hf : Writable f)
    (h : (f.number % 2 ^ 32, f.value.wireType) ∈ kind.reads) : ¬ Transparent kind f := by
  intro htransparent
  obtain ⟨hnumber, hsized, hpayload⟩ := hf
  have hfb := fieldBytes_encodeField hnumber hsized
  have hlen := length_encodeField_le (f := f) hsized
  -- ranges read varints only
  have hshort : kind = .singleLineRange ∨ kind = .multiLineRange →
      84 + f.value.payloadLength ≤ 256 := by
    intro hkind
    have hvarint : f.value.wireType = 0 := by
      rcases hkind with rfl | rfl
      · simp only [MessageKind.reads, List.mem_cons, List.not_mem_nil, or_false,
          Prod.mk.injEq] at h
        omega
      · simp only [MessageKind.reads, List.mem_cons, List.not_mem_nil, or_false,
          Prod.mk.injEq] at h
        omega
    generalize f.value = v at hvarint
    cases v with
    | varint _ => exact (show 84 + 0 ≤ 256 by omega)
    | fixed64 _ => exact absurd hvarint (show ¬ 1 = 0 by omega)
    | len _ => exact absurd hvarint (show ¬ 2 = 0 by omega)
    | fixed32 _ => exact absurd hvarint (show ¬ 5 = 0 by omega)
  have hvisible : Visible (roomyLimits (f.value.payloadLength + 4096)) kind (encodeField f) kind
      (84 + f.value.payloadLength) :=
    visible_of_noticed hfb (noticed_of_reads (show 64 ≤ f.value.payloadLength + 4096 by omega) h)
      (by omega) (by omega)
  obtain ⟨m, hm, bs, bs', x, hinserted, hbs, hbs', hdecode, hne⟩ :=
    hvisible.index (by omega) hshort (by omega)
  have hmax : (roomyLimits (f.value.payloadLength + 4096)).maxMessageBytes =
    f.value.payloadLength + 4096 := rfl
  have hmax' : (roomyLimits (f.value.payloadLength + 4096)).maxStringBytes =
    f.value.payloadLength + 4096 := rfl
  have hlong : bs.length ≤ (roomyLimits (f.value.payloadLength + 4096)).maxMessageBytes := by
    omega
  have hlong' : bs'.length ≤ (roomyLimits (f.value.payloadLength + 4096)).maxMessageBytes := by
    omega
  have hindex := htransparent (roomyLimits (f.value.payloadLength + 4096)) (encodeField f)
    ⟨bs, by omega⟩ ⟨bs', by omega⟩ x hfb (by omega) hinserted hlong'
    ((decodeIndex_eq hlong).trans hdecode)
  exact hne ((decodeIndex_eq hlong').symm.trans hindex)

end Visible

/-- **Transparency.**  A field is transparent in the messages of a kind if the low 32 bits of its
number are not read there with its wire type, and only then. -/
theorem transparent_iff (kind : MessageKind) (f : Field) :
    ((f.number % 2 ^ 32, f.value.wireType) ∉ kind.reads → Transparent kind f) ∧
      (Writable f →
        (Transparent kind f ↔ (f.number % 2 ^ 32, f.value.wireType) ∉ kind.reads)) :=
  ⟨transparent_of_not_reads, fun hf =>
    ⟨fun h hreads => not_transparent_of_reads hf hreads h, transparent_of_not_reads⟩⟩

/-- A field that no document reads. -/
theorem transparent_iff_document :
    (Transparent .document ⟨99, .varint 12345⟩ ↔
      (99 % 2 ^ 32, 0) ∉ MessageKind.reads .document) ∧
      Transparent .document ⟨99, .varint 12345⟩ :=
  ⟨(transparent_iff .document ⟨99, .varint 12345⟩).2 ⟨by decide, by decide, by decide⟩,
    (transparent_iff .document ⟨99, .varint 12345⟩).1 (by decide)⟩

/-- A field numbered 2 ^ 32 + 3 of an index is read as an external symbol. -/
theorem not_transparent_external :
    (2 ^ 32 + 3, 2) ∉ MessageKind.reads .index ∧
      ¬ Transparent .index ⟨2 ^ 32 + 3, .len []⟩ := by
  refine ⟨by decide, fun h => ?_⟩
  have hfb := fieldBytes_encodeField (f := ⟨2 ^ 32 + 3, .len []⟩) (by decide) (by decide)
  have hinserted : Inserted .default .index (encodeField ⟨2 ^ 32 + 3, .len []⟩) .index _ _ :=
    .here [] .nil
  have := h .default _ ⟨[], by decide⟩ ⟨_, by decide⟩ {} hfb (by decide) hinserted (by decide)
    (by decide)
  exact absurd this (by decide)

end WorkspaceAtlas.ScipDecoder
