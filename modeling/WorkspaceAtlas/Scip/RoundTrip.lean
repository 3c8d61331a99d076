/-
# Decoding what was encoded

The arms of a decoder take the fields of an encoding one by one.  What is left to come takes the
message so far to the encoded one, and in the end nothing is left.  Of a range that is packed
into several chunks only the last chunk is kept, so that decoding gives an index back exactly if
the last chunks are enough.
-/
import WorkspaceAtlas.Scip.Encoding

namespace WorkspaceAtlas.ScipDecoder

open Protobuf Transition

/-! ## Messages without messages in them -/

section Flat

variable {limits : DecodeLimits} {fs : List Field}

lemma RelationshipFields.step {cur target : ScipSymbolRelationship} {f : Field}
    (h : RelationshipFields limits cur target (f :: fs)) :
    ∃ next, applyField (relationshipArms limits) cur f = .ok next ∧
      RelationshipFields limits next target fs := by
  have hn := h.numbers.head
  simp only [List.mem_cons, List.not_mem_nil, or_false] at hn
  rcases hn with hn | hn | hn | hn | hn
  · obtain ⟨hv, hrest⟩ := h.symbol.cons_eq hn
    refine ⟨_, applyField_of hn hv.wireType_eq
      (apply_string (k := fun a => { cur with symbol := a }) hv), ?_⟩
    refine ⟨h.numbers.tail, hrest, ?_, ?_, ?_, ?_⟩
    · exact h.isReference.cons_ne (by omega)
    · exact h.isImplementation.cons_ne (by omega)
    · exact h.isTypeDefinition.cons_ne (by omega)
    · exact h.isDefinition.cons_ne (by omega)
  · obtain ⟨hv, hrest⟩ := h.isReference.cons_eq hn
    refine ⟨_, applyField_of hn hv.wireType_eq
      (apply_bool (k := fun a => { cur with isReference := a }) hv), ?_⟩
    refine ⟨h.numbers.tail, ?_, hrest, ?_, ?_, ?_⟩
    · exact h.symbol.cons_ne (by omega)
    · exact h.isImplementation.cons_ne (by omega)
    · exact h.isTypeDefinition.cons_ne (by omega)
    · exact h.isDefinition.cons_ne (by omega)
  · obtain ⟨hv, hrest⟩ := h.isImplementation.cons_eq hn
    refine ⟨_, applyField_of hn hv.wireType_eq
      (apply_bool (k := fun a => { cur with isImplementation := a }) hv), ?_⟩
    refine ⟨h.numbers.tail, ?_, ?_, hrest, ?_, ?_⟩
    · exact h.symbol.cons_ne (by omega)
    · exact h.isReference.cons_ne (by omega)
    · exact h.isTypeDefinition.cons_ne (by omega)
    · exact h.isDefinition.cons_ne (by omega)
  · obtain ⟨hv, hrest⟩ := h.isTypeDefinition.cons_eq hn
    refine ⟨_, applyField_of hn hv.wireType_eq
      (apply_bool (k := fun a => { cur with isTypeDefinition := a }) hv), ?_⟩
    refine ⟨h.numbers.tail, ?_, ?_, ?_, hrest, ?_⟩
    · exact h.symbol.cons_ne (by omega)
    · exact h.isReference.cons_ne (by omega)
    · exact h.isImplementation.cons_ne (by omega)
    · exact h.isDefinition.cons_ne (by omega)
  · obtain ⟨hv, hrest⟩ := h.isDefinition.cons_eq hn
    refine ⟨_, applyField_of hn hv.wireType_eq
      (apply_bool (k := fun a => { cur with isDefinition := a }) hv), ?_⟩
    refine ⟨h.numbers.tail, ?_, ?_, ?_, ?_, hrest⟩
    · exact h.symbol.cons_ne (by omega)
    · exact h.isReference.cons_ne (by omega)
    · exact h.isImplementation.cons_ne (by omega)
    · exact h.isTypeDefinition.cons_ne (by omega)

lemma RelationshipFields.nil {cur target : ScipSymbolRelationship}
    (h : RelationshipFields limits cur target []) : cur = target := by
  cases cur
  cases target
  simp only [ScipSymbolRelationship.mk.injEq]
  exact ⟨h.symbol.nil, h.isReference.nil, h.isImplementation.nil, h.isTypeDefinition.nil,
    h.isDefinition.nil⟩

lemma decodeRelationship_value {rel : ScipSymbolRelationship} {v : WireValue}
    (h : RelationshipValue limits rel v) :
    Decodes limits.maxStringBytes (decodeRelationship limits) rel v := by
  obtain ⟨sub, fs, rfl, hmax, hlen, hbody, hfields⟩ := h
  refine ⟨sub, rfl, hmax, ?_⟩
  refine (decodeMessage_of_body (fun s n wt => relationshipArms_fits limits n wt s) hlen hbody).mpr
    (foldlM_of_pending (fun _ => RelationshipFields.nil) (fun _ _ _ => RelationshipFields.step)
      hfields)

lemma SingleLineFields.step {cur target : SingleLineRange} {f : Field}
    (h : SingleLineFields cur target (f :: fs)) :
    ∃ next, applyField singleLineRangeArms cur f = .ok next ∧
      SingleLineFields next target fs := by
  have hn := h.numbers.head
  simp only [List.mem_cons, List.not_mem_nil, or_false] at hn
  rcases hn with hn | hn | hn
  · obtain ⟨hv, hrest⟩ := h.line.cons_eq hn
    refine ⟨_, applyField_of hn hv.wireType_eq
      (apply_int32 (k := fun a => { cur with line := a }) hv), ?_⟩
    refine ⟨h.numbers.tail, hrest, ?_, ?_⟩
    · exact h.startCharacter.cons_ne (by omega)
    · exact h.endCharacter.cons_ne (by omega)
  · obtain ⟨hv, hrest⟩ := h.startCharacter.cons_eq hn
    refine ⟨_, applyField_of hn hv.wireType_eq
      (apply_int32 (k := fun a => { cur with startCharacter := a }) hv), ?_⟩
    refine ⟨h.numbers.tail, ?_, hrest, ?_⟩
    · exact h.line.cons_ne (by omega)
    · exact h.endCharacter.cons_ne (by omega)
  · obtain ⟨hv, hrest⟩ := h.endCharacter.cons_eq hn
    refine ⟨_, applyField_of hn hv.wireType_eq
      (apply_int32 (k := fun a => { cur with endCharacter := a }) hv), ?_⟩
    refine ⟨h.numbers.tail, ?_, ?_, hrest⟩
    · exact h.line.cons_ne (by omega)
    · exact h.startCharacter.cons_ne (by omega)

lemma SingleLineFields.nil {cur target : SingleLineRange} (h : SingleLineFields cur target []) :
    cur = target := by
  cases cur
  cases target
  simp only [SingleLineRange.mk.injEq]
  exact ⟨h.line.nil, h.startCharacter.nil, h.endCharacter.nil⟩

lemma MultiLineFields.step {cur target : ScipRange} {f : Field}
    (h : MultiLineFields cur target (f :: fs)) :
    ∃ next, applyField multiLineRangeArms cur f = .ok next ∧
      MultiLineFields next target fs := by
  have hn := h.numbers.head
  simp only [List.mem_cons, List.not_mem_nil, or_false] at hn
  rcases hn with hn | hn | hn | hn
  · obtain ⟨hv, hrest⟩ := h.startLine.cons_eq hn
    refine ⟨_, applyField_of hn hv.wireType_eq
      (apply_int32 (k := fun a => { cur with startLine := a }) hv), ?_⟩
    refine ⟨h.numbers.tail, hrest, ?_, ?_, ?_⟩
    · exact h.startCharacter.cons_ne (by omega)
    · exact h.endLine.cons_ne (by omega)
    · exact h.endCharacter.cons_ne (by omega)
  · obtain ⟨hv, hrest⟩ := h.startCharacter.cons_eq hn
    refine ⟨_, applyField_of hn hv.wireType_eq
      (apply_int32 (k := fun a => { cur with startCharacter := a }) hv), ?_⟩
    refine ⟨h.numbers.tail, ?_, hrest, ?_, ?_⟩
    · exact h.startLine.cons_ne (by omega)
    · exact h.endLine.cons_ne (by omega)
    · exact h.endCharacter.cons_ne (by omega)
  · obtain ⟨hv, hrest⟩ := h.endLine.cons_eq hn
    refine ⟨_, applyField_of hn hv.wireType_eq
      (apply_int32 (k := fun a => { cur with endLine := a }) hv), ?_⟩
    refine ⟨h.numbers.tail, ?_, ?_, hrest, ?_⟩
    · exact h.startLine.cons_ne (by omega)
    · exact h.startCharacter.cons_ne (by omega)
    · exact h.endCharacter.cons_ne (by omega)
  · obtain ⟨hv, hrest⟩ := h.endCharacter.cons_eq hn
    refine ⟨_, applyField_of hn hv.wireType_eq
      (apply_int32 (k := fun a => { cur with endCharacter := a }) hv), ?_⟩
    refine ⟨h.numbers.tail, ?_, ?_, ?_, hrest⟩
    · exact h.startLine.cons_ne (by omega)
    · exact h.startCharacter.cons_ne (by omega)
    · exact h.endLine.cons_ne (by omega)

lemma MultiLineFields.nil {cur target : ScipRange} (h : MultiLineFields cur target []) :
    cur = target := by
  cases cur
  cases target
  simp only [ScipRange.mk.injEq]
  exact ⟨h.startLine.nil, h.startCharacter.nil, h.endLine.nil, h.endCharacter.nil⟩

lemma ToolInfoFields.step {cur target : ToolInfo} {f : Field}
    (h : ToolInfoFields limits cur target (f :: fs)) :
    ∃ next, applyField (toolInfoArms limits) cur f = .ok next ∧
      ToolInfoFields limits next target fs := by
  have hn := h.numbers.head
  simp only [List.mem_cons, List.not_mem_nil, or_false] at hn
  rcases hn with hn | hn
  · obtain ⟨hv, hrest⟩ := h.name.cons_eq hn
    refine ⟨_, applyField_of hn hv.wireType_eq
      (apply_string (k := fun a => { cur with name := a }) hv), ?_⟩
    refine ⟨h.numbers.tail, hrest, ?_⟩
    · exact h.version.cons_ne (by omega)
  · obtain ⟨hv, hrest⟩ := h.version.cons_eq hn
    refine ⟨_, applyField_of hn hv.wireType_eq
      (apply_string (k := fun a => { cur with version := a }) hv), ?_⟩
    refine ⟨h.numbers.tail, ?_, hrest⟩
    · exact h.name.cons_ne (by omega)

lemma ToolInfoFields.nil {cur target : ToolInfo} (h : ToolInfoFields limits cur target []) :
    cur = target := by
  cases cur
  cases target
  simp only [ToolInfo.mk.injEq]
  exact ⟨h.name.nil, h.version.nil⟩

lemma decodeToolInfo_value {info : ToolInfo} {v : WireValue} (h : ToolInfoValue limits info v) :
    Decodes limits.maxStringBytes (decodeToolInfo limits) info v := by
  obtain ⟨sub, fs, rfl, hmax, hlen, hbody, hfields⟩ := h
  refine ⟨sub, rfl, hmax, ?_⟩
  exact (decodeMessage_of_body (fun s n wt => toolInfoArms_fits limits n wt s) hlen hbody).mpr
    (foldlM_of_pending (fun _ => ToolInfoFields.nil) (fun _ _ _ => ToolInfoFields.step) hfields)

end Flat

/-! ## Ranges of their own -/

section Ranges

variable {fs : List Field}

/-- A field that holds a varint is short. -/
lemma length_le_of_varint {f : Field} {fb : Bytes} {m : ℕ} (h : FieldBytes f fb)
    (hv : f.value = .varint m) : fb.length ≤ 20 := by
  obtain ⟨htag, _, hvalue⟩ := h
  have htag := htag.length_le
  rw [hv] at hvalue
  cases hvalue with
  | varint hbs =>
    have hbs := hbs.length_le
    rw [List.length_append]
    omega

/-- A message of varints is short. -/
lemma body_length_le {bs : Bytes} (h : Body fs bs)
    (hv : ∀ f ∈ fs, ∃ x, Int32Value x f.value) : bs.length ≤ 20 * fs.length := by
  induction h with
  | nil => exact Nat.zero_le _
  | @cons f fs fb bs hf _ ih =>
    obtain ⟨x, hx⟩ := hv f (by simp)
    have hfb := length_le_of_varint hf hx
    have hbs := ih fun f' hf' => hv f' (by simp [hf'])
    rw [List.length_append, List.length_cons]
    omega

lemma SingleLineFields.short {cur target : SingleLineRange} {sub : Bytes}
    (h : SingleLineFields cur target fs) (hbody : Body fs sub) : sub.length ≤ 256 := by
  have hlen := h.numbers.length_le
  simp only [List.map_cons, List.map_nil, List.sum_cons, List.sum_nil] at hlen
  have h₁ := h.line.length_le
  have h₂ := h.startCharacter.length_le
  have h₃ := h.endCharacter.length_le
  have hbytes := body_length_le hbody fun f hf => by
    have hv := mem_valuesOf hf
    have hn := h.numbers f hf
    simp only [List.mem_cons, List.not_mem_nil, or_false] at hn
    rcases hn with hn | hn | hn <;> rw [hn] at hv
    · exact ⟨_, h.line.of_mem hv⟩
    · exact ⟨_, h.startCharacter.of_mem hv⟩
    · exact ⟨_, h.endCharacter.of_mem hv⟩
  omega

lemma MultiLineFields.short {cur target : ScipRange} {sub : Bytes}
    (h : MultiLineFields cur target fs) (hbody : Body fs sub) : sub.length ≤ 256 := by
  have hlen := h.numbers.length_le
  simp only [List.map_cons, List.map_nil, List.sum_cons, List.sum_nil] at hlen
  have h₁ := h.startLine.length_le
  have h₂ := h.startCharacter.length_le
  have h₃ := h.endLine.length_le
  have h₄ := h.endCharacter.length_le
  have hbytes := body_length_le hbody fun f hf => by
    have hv := mem_valuesOf hf
    have hn := h.numbers f hf
    simp only [List.mem_cons, List.not_mem_nil, or_false] at hn
    rcases hn with hn | hn | hn | hn <;> rw [hn] at hv
    · exact ⟨_, h.startLine.of_mem hv⟩
    · exact ⟨_, h.startCharacter.of_mem hv⟩
    · exact ⟨_, h.endLine.of_mem hv⟩
    · exact ⟨_, h.endCharacter.of_mem hv⟩
  omega

/-- A single-line range is decoded; its message is never too long. -/
lemma decodeSingleLineRange_value {range : ScipRange} {v : WireValue}
    (hline : range.startLine = range.endLine)
    (h : RangeValue (SingleLineFields ⟨0, 0, 0⟩)
      ⟨range.startLine, range.startCharacter, range.endCharacter⟩ v) :
    Decodes 256 decodeSingleLineRange range v := by
  obtain ⟨sub, fs, rfl, hbody, hfields⟩ := h
  obtain ⟨startLine, startCharacter, endLine, endCharacter⟩ := range
  obtain rfl : startLine = endLine := hline
  have hshort := hfields.short hbody
  refine ⟨sub, rfl, hshort, ?_⟩
  have hdecode := (decodeMessage_of_body (fun s n wt => singleLineRangeArms_fits n wt s)
    (by omega) hbody).mpr (foldlM_of_pending (fun _ => SingleLineFields.nil)
      (fun _ _ _ => SingleLineFields.step) hfields)
  exact bind_ok.mpr ⟨_, hdecode, rfl⟩

/-- A multi-line range is decoded; its message is never too long. -/
lemma decodeMultiLineRange_value {range : ScipRange} {v : WireValue}
    (h : RangeValue (MultiLineFields defaultRange) range v) :
    Decodes 256 decodeMultiLineRange range v := by
  obtain ⟨sub, fs, rfl, hbody, hfields⟩ := h
  have hshort := hfields.short hbody
  refine ⟨sub, rfl, hshort, ?_⟩
  exact (decodeMessage_of_body (fun s n wt => multiLineRangeArms_fits n wt s)
    (by omega) hbody).mpr (foldlM_of_pending (fun _ => MultiLineFields.nil)
      (fun _ _ _ => MultiLineFields.step) hfields)

end Ranges

/-! ## The deprecated range -/

section Legacy

variable {limits : DecodeLimits} {fs : List Field} {range : ScipRange}

lemma packedVarintsLoop_ok {ns : List ℕ} {bs : Bytes} (h : PackedVarints ns bs) {n : ℕ}
    {out : List Int32} {r : Reader} (hr : r.Valid) (hrest : r.rest = bs) (hn : bs.length < n) :
    ∃ r', packedVarintsLoop n out r = .ok (out ++ ns.map varintToI32, r') := by
  induction h generalizing n out r with
  | nil =>
    obtain ⟨n, rfl⟩ : ∃ m, n = m + 1 := ⟨n - 1, by simp at hn; omega⟩
    refine ⟨r, ?_⟩
    rw [packedVarintsLoop]
    dsimp only
    rw [if_neg (r.rest_eq_nil_iff.mp hrest), List.map_nil, List.append_nil]
    rfl
  | @cons b bs ns hb _ ih =>
    obtain ⟨n, rfl⟩ : ∃ m, n = m + 1 := ⟨n - 1, by simp at hn; omega⟩
    have htakes := Reader.takes_of_rest hrest
    have hbs : (r.advance b.length).rest = bs :=
      List.append_cancel_left (htakes.rest_eq.symm.trans hrest)
    have hne := List.length_pos_of_ne_nil hb.continued.ne_nil
    rw [List.length_append] at hn
    obtain ⟨r', h⟩ : ∃ r', packedVarintsLoop n (out ++ [varintToI32 (varintValue b % 2 ^ 64)])
        (r.advance b.length) = _ :=
      ih (htakes.valid hr) hbs (show bs.length < n by omega)
    refine ⟨r', ?_⟩
    have hpos : r.pos < r.buf.length := by
      by_contra hpos
      rw [r.rest_eq_nil_iff.mpr hpos] at hrest
      exact List.append_ne_nil_of_left_ne_nil hb.continued.ne_nil _ hrest.symm
    rw [packedVarintsLoop]
    dsimp only
    rw [if_pos hpos, readVarint_of_takes hb hr htakes]
    rw [List.append_assoc] at h
    exact h

lemma decodePackedVarints_ok {ns : List ℕ} {bs : Bytes} (h : PackedVarints ns bs)
    (hlen : bs.length < 2 ^ 63) : decodePackedVarints bs = .ok (ns.map varintToI32) := by
  have hr : Reader.Valid ⟨bs, 0⟩ := ⟨Nat.zero_le _, hlen⟩
  obtain ⟨r', hloop⟩ : ∃ r', packedVarintsLoop (bs.length + 1) [] ⟨bs, 0⟩ = _ :=
    packedVarintsLoop_ok h hr List.drop_zero (by omega)
  exact bind_ok.mpr ⟨_, hloop, rfl⟩

lemma decodePackedVarints_chunk {chunk : List Int32} {bs : Bytes}
    (h : PackedVarints (chunk.map int32Varint) bs) (hlen : bs.length < 2 ^ 63) :
    decodePackedVarints bs = .ok chunk := by
  rw [decodePackedVarints_ok h hlen, List.map_map]
  congr 1
  calc chunk.map (varintToI32 ∘ int32Varint)
      = chunk.map id := List.map_congr_left fun x _ => varintToI32_int32Varint x
    _ = chunk := List.map_id chunk

/-- The values of the deprecated field take the integers read so far to others: a packed chunk
replaces them and a single integer is added. -/
inductive LegacyPending (limits : DecodeLimits) :
    List Int32 → List Int32 → List WireValue → Prop where
  | nil {cur : List Int32} : LegacyPending limits cur cur []
  | chunk {cur chunk target : List Int32} {v : WireValue} {vs : List WireValue}
      (h : Decodes limits.maxStringBytes decodePackedVarints chunk v)
      (rest : LegacyPending limits chunk target vs) : LegacyPending limits cur target (v :: vs)
  | single {cur target : List Int32} {x : Int32} {v : WireValue} {vs : List WireValue}
      (h : Int32Value x v) (rest : LegacyPending limits (cur ++ [x]) target vs) :
      LegacyPending limits cur target (v :: vs)

lemma LegacyPending.nil_eq {cur target : List Int32} (h : LegacyPending limits cur target []) :
    cur = target := by
  cases h
  rfl

lemma LegacyPending.cons_cases {cur target : List Int32} {v : WireValue} {vs : List WireValue}
    (h : LegacyPending limits cur target (v :: vs)) :
    (∃ chunk, Decodes limits.maxStringBytes decodePackedVarints chunk v ∧
      LegacyPending limits chunk target vs) ∨
    ∃ x, Int32Value x v ∧ LegacyPending limits (cur ++ [x]) target vs := by
  cases h with
  | chunk hv hrest => exact .inl ⟨_, hv, hrest⟩
  | single hv hrest => exact .inr ⟨_, hv, hrest⟩

/-- Only the last chunk is kept. -/
lemma legacyPending_chunks {chunks : List (List Int32)} {vs : List WireValue}
    (h : List.Forall₂ PackedChunk chunks vs) (cur : List Int32)
    (hmax : ∀ v ∈ vs, v.payloadLength ≤ limits.maxStringBytes ∧ v.payloadLength < 2 ^ 63) :
    LegacyPending limits cur (chunks.getLast?.getD cur) vs := by
  induction h generalizing cur with
  | nil => exact .nil
  | @cons chunk v chunks vs hchunk hrest ih =>
    obtain ⟨payload, rfl, hpacked⟩ := hchunk
    obtain ⟨hle, hlt⟩ := hmax _ List.mem_cons_self
    have htail := ih chunk fun v hv => hmax v (List.mem_cons_of_mem _ hv)
    refine .chunk ⟨payload, rfl, hle, decodePackedVarints_chunk hpacked hlt⟩ ?_
    rcases chunks with - | ⟨chunk', chunks⟩
    · exact htail
    · rw [List.getLast?_cons_cons]
      rw [List.getLast?_eq_some_getLast (List.cons_ne_nil _ _)] at htail ⊢
      exact htail

lemma legacyPending_singles {xs : List Int32} {vs : List WireValue}
    (h : List.Forall₂ Int32Value xs vs) (cur : List Int32) :
    LegacyPending limits cur (cur ++ xs) vs := by
  induction h generalizing cur with
  | nil =>
    rw [List.append_nil]
    exact .nil
  | @cons x v xs vs hx _ ih =>
    refine .single hx ?_
    have := ih (cur ++ [x])
    rwa [List.append_assoc] at this

lemma rangeFromLegacy_of_values {xs : List Int32} (h : LegacyValues range xs) :
    rangeFromLegacy xs = range := by
  obtain ⟨startLine, startCharacter, endLine, endCharacter⟩ := range
  obtain rfl | ⟨hline, rfl⟩ := h
  · rfl
  · obtain rfl : startLine = endLine := hline
    rfl

lemma legacyValues_ne_nil {xs : List Int32} (h : LegacyValues range xs) : xs ≠ [] := by
  obtain rfl | ⟨_, rfl⟩ := h <;> simp

lemma flatten_dropLast_append (chunks : List (List Int32)) :
    chunks.dropLast.flatten ++ chunks.getLast?.getD [] = chunks.flatten := by
  rcases List.eq_nil_or_concat chunks with rfl | ⟨init, last, rfl⟩
  · rfl
  · simp

/-- Fewer than three integers are no range. -/
lemma rangeFromLegacy_short {xs : List Int32} (h : xs.length < 3) :
    rangeFromLegacy xs = defaultRange := by
  rcases xs with - | ⟨x, - | ⟨y, - | ⟨z, xs⟩⟩⟩
  · rfl
  · rfl
  · rfl
  · simp only [List.length_cons] at h
    omega

/-- When the last chunk gives the range. -/
lemma rangeFromLegacy_last_iff {chunks : List (List Int32)}
    (h : LegacyValues range chunks.flatten) :
    rangeFromLegacy (chunks.getLast?.getD []) = range ↔ LastChunkSuffices range chunks := by
  rw [← flatten_dropLast_append] at h
  rw [LastChunkSuffices]
  generalize chunks.dropLast.flatten = before at h ⊢
  generalize chunks.getLast?.getD [] = last at h ⊢
  by_cases hbefore : before = []
  · subst hbefore
    exact ⟨fun _ => .inl rfl, fun _ => rangeFromLegacy_of_values h⟩
  -- something stands before the last chunk, which then has at most three integers
  obtain ⟨x, before, rfl⟩ := List.exists_cons_of_ne_nil hbefore
  obtain ⟨a, b, c, d⟩ := range
  obtain heq | ⟨hline, heq⟩ := h
  · obtain ⟨rfl, htail⟩ := List.cons.inj heq
    rcases before with - | ⟨y, before⟩
    · obtain rfl : last = [b, c, d] := htail
      simp only [rangeFromLegacy, defaultRange, ScipRange.mk.injEq, List.cons_ne_nil, false_or,
        List.length_cons, List.length_nil, Nat.reduceAdd, true_and]
      constructor
      · rintro ⟨rfl, rfl, -, -⟩
        exact .inr ⟨rfl, rfl⟩
      · rintro (⟨rfl, rfl, rfl, rfl⟩ | ⟨rfl, rfl⟩) <;> simp
    · have htail : (y :: before) ++ last = [b, c, d] := htail
      have hlen := congrArg List.length htail
      simp only [List.cons_append, List.length_cons, List.length_append, List.length_nil] at hlen
      have hdefault : rangeFromLegacy last = defaultRange := rangeFromLegacy_short (by omega)
      rw [hdefault]
      constructor
      · exact fun heq => .inr (.inl heq.symm)
      · rintro (hnil | heq | ⟨hthree, -⟩)
        · exact absurd hnil (by simp)
        · exact heq.symm
        · omega
  · have hlen := congrArg List.length heq
    simp only [List.cons_append, List.length_cons, List.length_append, List.length_nil] at hlen
    have hdefault : rangeFromLegacy last = defaultRange := rangeFromLegacy_short (by omega)
    rw [hdefault]
    constructor
    · exact fun heq => .inr (.inl heq.symm)
    · rintro (hnil | heq | ⟨hthree, -⟩)
      · exact absurd hnil (by simp)
      · exact heq.symm
      · omega

/-- The chunks can be read off. -/
lemma packedChunk_unique {chunk chunk' : List Int32} {v : WireValue} (h : PackedChunk chunk v)
    (h' : PackedChunk chunk' v) (hlen : v.payloadLength < 2 ^ 63) : chunk = chunk' := by
  obtain ⟨payload, rfl, hpacked⟩ := h
  obtain ⟨_, heq, hpacked'⟩ := h'
  obtain rfl := WireValue.len.inj heq
  have hdecode := decodePackedVarints_chunk hpacked hlen
  rw [decodePackedVarints_chunk hpacked' hlen] at hdecode
  exact (Except.ok.inj hdecode).symm

lemma packedChunks_unique {chunks chunks' : List (List Int32)} {vs : List WireValue}
    (h : List.Forall₂ PackedChunk chunks vs) (h' : List.Forall₂ PackedChunk chunks' vs)
    (hlen : ∀ v ∈ vs, v.payloadLength < 2 ^ 63) : chunks = chunks' := by
  induction h generalizing chunks' with
  | nil => exact (List.forall₂_nil_right_iff.mp h').symm
  | cons hchunk _ ih =>
    obtain ⟨chunk', chunks', hchunk', hrest', rfl⟩ := List.forall₂_cons_right_iff.mp h'
    rw [packedChunk_unique hchunk hchunk' (hlen _ List.mem_cons_self),
      ih hrest' fun v hv => hlen v (List.mem_cons_of_mem _ hv)]

end Legacy

/-! ## Messages with messages in them -/

section Nested

variable {limits : DecodeLimits} {fs : List Field}

lemma SymbolInformationFields.step {cur target : ScipSymbolInformation} {f : Field}
    (h : SymbolInformationFields limits 
      (Decodes limits.maxStringBytes (decodeRelationship limits)) cur target (f :: fs)) :
    ∃ next, applyField (symbolInformationArms limits) cur f = .ok next ∧
      SymbolInformationFields limits 
      (Decodes limits.maxStringBytes (decodeRelationship limits)) next target fs := by
  have hn := h.numbers.head
  simp only [List.mem_cons, List.not_mem_nil, or_false] at hn
  rcases hn with hn | hn | hn | hn
  · obtain ⟨hv, hrest⟩ := h.symbol.cons_eq hn
    refine ⟨_, applyField_of hn hv.wireType_eq
      (apply_string (k := fun a => { cur with symbol := a }) hv), ?_⟩
    refine ⟨h.numbers.tail, hrest, ?_, ?_, ?_⟩
    · exact h.documentation.cons_ne (by omega)
    · exact h.relationships.cons_ne (by omega)
    · exact h.kind.cons_ne (by omega)
  · obtain ⟨t, hv, hroom, hrest⟩ := h.documentation.cons_eq hn
    refine ⟨_, applyField_of hn hv.wireType_eq (apply_push hroom
      (apply_string (k := fun a => { cur with documentation := cur.documentation ++ [a] }) hv)), ?_⟩
    refine ⟨h.numbers.tail, ?_, hrest, ?_, ?_⟩
    · exact h.symbol.cons_ne (by omega)
    · exact h.relationships.cons_ne (by omega)
    · exact h.kind.cons_ne (by omega)
  · obtain ⟨a, hv, hroom, hrest⟩ := h.relationships.cons_eq hn
    refine ⟨_, applyField_of hn hv.wireType_eq (apply_push hroom
      (apply_message
        (k := fun a => { cur with relationships := cur.relationships ++ [a] }) hv)), ?_⟩
    refine ⟨h.numbers.tail, ?_, ?_, hrest, ?_⟩
    · exact h.symbol.cons_ne (by omega)
    · exact h.documentation.cons_ne (by omega)
    · exact h.kind.cons_ne (by omega)
  · obtain ⟨hv, hrest⟩ := h.kind.cons_eq hn
    refine ⟨_, applyField_of hn hv.wireType_eq
      (apply_int32 (k := fun a => { cur with kind := a }) hv), ?_⟩
    refine ⟨h.numbers.tail, ?_, ?_, ?_, hrest⟩
    · exact h.symbol.cons_ne (by omega)
    · exact h.documentation.cons_ne (by omega)
    · exact h.relationships.cons_ne (by omega)

lemma SymbolInformationFields.nil {R : ScipSymbolRelationship → WireValue → Prop}
    {cur target : ScipSymbolInformation} (h : SymbolInformationFields limits R cur target []) :
    cur = target := by
  obtain ⟨⟨symbol, relationships⟩, documentation, kind⟩ := cur
  obtain ⟨⟨symbol', relationships'⟩, documentation', kind'⟩ := target
  obtain rfl : symbol = symbol' := h.symbol.nil
  obtain rfl : relationships = relationships' := h.relationships.nil
  obtain rfl : documentation = documentation' := h.documentation.nil
  obtain rfl : kind = kind' := h.kind.nil
  rfl

lemma decodeSymbolInformation_value {sym : ScipSymbolInformation} {v : WireValue}
    (h : SymbolInformationValue limits sym v) :
    Decodes limits.maxStringBytes (decodeSymbolInformation limits) sym v := by
  obtain ⟨sub, fs, rfl, hmax, hlen, hbody, hfields⟩ := h
  refine ⟨sub, rfl, hmax, ?_⟩
  have hdecoded : SymbolInformationFields limits
      (Decodes limits.maxStringBytes (decodeRelationship limits)) {} sym fs :=
    { hfields with
      relationships := hfields.relationships.mono fun _ _ => decodeRelationship_value }
  exact (decodeMessage_of_body (fun s n wt => symbolInformationArms_fits limits n wt s) hlen
    hbody).mpr (foldlM_of_pending (fun _ => SymbolInformationFields.nil)
      (fun _ _ _ => SymbolInformationFields.step) hdecoded)

/-- The fields take the variables of `decode_occurrence` to others. -/
structure OccurrencePending (limits : DecodeLimits) (cur target : OccurrenceState)
    (fs : List Field) : Prop where
  numbers : Numbered [1, 2, 3, 5, 8, 9] fs
  legacyRange : LegacyPending limits cur.legacyRange target.legacyRange (valuesOf 1 fs)
  symbol : Singular 2 (StringValue limits target.occ.symbol) cur.occ.symbol target.occ.symbol fs
  symbolRoles :
    Singular 3 (Int32Value target.occ.symbolRoles) cur.occ.symbolRoles target.occ.symbolRoles fs
  syntaxKind :
    Singular 5 (Int32Value target.occ.syntaxKind) cur.occ.syntaxKind target.occ.syntaxKind fs
  range :
    (Singular 8 (Decodes 256 decodeSingleLineRange target.occ.range) cur.occ.range
      target.occ.range fs ∧ valuesOf 9 fs = []) ∨
    (valuesOf 8 fs = [] ∧ Singular 9 (Decodes 256 decodeMultiLineRange target.occ.range)
      cur.occ.range target.occ.range fs)

section Occurrence

variable {cur target : OccurrenceState} {f : Field}

/-- A field that writes no range leaves what is to come of the range. -/
lemma OccurrencePending.range_tail (h : OccurrencePending limits cur target (f :: fs))
    (h₈ : f.number ≠ 8) (h₉ : f.number ≠ 9) :
    (Singular 8 (Decodes 256 decodeSingleLineRange target.occ.range) cur.occ.range
      target.occ.range fs ∧ valuesOf 9 fs = []) ∨
    (valuesOf 8 fs = [] ∧ Singular 9 (Decodes 256 decodeMultiLineRange target.occ.range)
      cur.occ.range target.occ.range fs) := by
  obtain ⟨hsingle, hnone⟩ | ⟨hnone, hmulti⟩ := h.range
  · rw [valuesOf_cons_ne h₉] at hnone
    exact .inl ⟨hsingle.cons_ne h₈, hnone⟩
  · rw [valuesOf_cons_ne h₈] at hnone
    exact .inr ⟨hnone, hmulti.cons_ne h₉⟩

/-- A field that writes no integer of the deprecated range leaves what is to come of it. -/
lemma OccurrencePending.legacyRange_tail (h : OccurrencePending limits cur target (f :: fs))
    (hn : f.number ≠ 1) :
    LegacyPending limits cur.legacyRange target.legacyRange (valuesOf 1 fs) := by
  have := h.legacyRange
  rwa [valuesOf_cons_ne hn] at this

lemma OccurrencePending.step (h : OccurrencePending limits cur target (f :: fs)) :
    ∃ next, applyField (occurrenceArms limits) cur f = .ok next ∧
      OccurrencePending limits next target fs := by
  have hn := h.numbers.head
  simp only [List.mem_cons, List.not_mem_nil, or_false] at hn
  rcases hn with hn | hn | hn | hn | hn | hn
  · have hlegacy := h.legacyRange
    rw [valuesOf_cons_eq hn] at hlegacy
    obtain ⟨next, hv, hrest⟩ | ⟨x, hv, hrest⟩ := hlegacy.cons_cases
    · refine ⟨_, applyField_of hn hv.wireType_eq
        (apply_message (k := fun a => { cur with legacyRange := a }) hv), ?_⟩
      refine ⟨h.numbers.tail, hrest, ?_, ?_, ?_, h.range_tail (by omega) (by omega)⟩
      · exact h.symbol.cons_ne (by omega)
      · exact h.symbolRoles.cons_ne (by omega)
      · exact h.syntaxKind.cons_ne (by omega)
    · refine ⟨_, applyField_of hn hv.wireType_eq
        (apply_int32 (k := fun a => { cur with legacyRange := cur.legacyRange ++ [a] }) hv), ?_⟩
      refine ⟨h.numbers.tail, hrest, ?_, ?_, ?_, h.range_tail (by omega) (by omega)⟩
      · exact h.symbol.cons_ne (by omega)
      · exact h.symbolRoles.cons_ne (by omega)
      · exact h.syntaxKind.cons_ne (by omega)
  · obtain ⟨hv, hrest⟩ := h.symbol.cons_eq hn
    refine ⟨_, applyField_of hn hv.wireType_eq
      (apply_string (k := fun a => { cur with occ := { cur.occ with symbol := a } }) hv), ?_⟩
    refine ⟨h.numbers.tail, h.legacyRange_tail (by omega), hrest, ?_, ?_,
      h.range_tail (by omega) (by omega)⟩
    · exact h.symbolRoles.cons_ne (by omega)
    · exact h.syntaxKind.cons_ne (by omega)
  · obtain ⟨hv, hrest⟩ := h.symbolRoles.cons_eq hn
    refine ⟨_, applyField_of hn hv.wireType_eq
      (apply_int32 (k := fun a => { cur with occ := { cur.occ with symbolRoles := a } }) hv), ?_⟩
    refine ⟨h.numbers.tail, h.legacyRange_tail (by omega), ?_, hrest, ?_,
      h.range_tail (by omega) (by omega)⟩
    · exact h.symbol.cons_ne (by omega)
    · exact h.syntaxKind.cons_ne (by omega)
  · obtain ⟨hv, hrest⟩ := h.syntaxKind.cons_eq hn
    refine ⟨_, applyField_of hn hv.wireType_eq
      (apply_int32 (k := fun a => { cur with occ := { cur.occ with syntaxKind := a } }) hv), ?_⟩
    refine ⟨h.numbers.tail, h.legacyRange_tail (by omega), ?_, ?_, hrest,
      h.range_tail (by omega) (by omega)⟩
    · exact h.symbol.cons_ne (by omega)
    · exact h.symbolRoles.cons_ne (by omega)
  · obtain ⟨hsingle, hnone⟩ | ⟨hnone, _⟩ := h.range
    · obtain ⟨hv, hrest⟩ := hsingle.cons_eq hn
      rw [valuesOf_cons_ne (by omega)] at hnone
      refine ⟨_, applyField_of hn hv.wireType_eq
        (apply_message (k := fun a => { cur with occ := { cur.occ with range := a } }) hv), ?_⟩
      refine ⟨h.numbers.tail, h.legacyRange_tail (by omega), ?_, ?_, ?_, .inl ⟨hrest, hnone⟩⟩
      · exact h.symbol.cons_ne (by omega)
      · exact h.symbolRoles.cons_ne (by omega)
      · exact h.syntaxKind.cons_ne (by omega)
    · rw [valuesOf_cons_eq hn] at hnone
      exact absurd hnone (by simp)
  · obtain ⟨_, hnone⟩ | ⟨hnone, hmulti⟩ := h.range
    · rw [valuesOf_cons_eq hn] at hnone
      exact absurd hnone (by simp)
    · obtain ⟨hv, hrest⟩ := hmulti.cons_eq hn
      rw [valuesOf_cons_ne (by omega)] at hnone
      refine ⟨_, applyField_of hn hv.wireType_eq
        (apply_message (k := fun a => { cur with occ := { cur.occ with range := a } }) hv), ?_⟩
      refine ⟨h.numbers.tail, h.legacyRange_tail (by omega), ?_, ?_, ?_, .inr ⟨hnone, hrest⟩⟩
      · exact h.symbol.cons_ne (by omega)
      · exact h.symbolRoles.cons_ne (by omega)
      · exact h.syntaxKind.cons_ne (by omega)

lemma OccurrencePending.nil (h : OccurrencePending limits cur target []) : cur = target := by
  obtain ⟨⟨⟨range, symbol, symbolRoles⟩, syntaxKind⟩, legacyRange⟩ := cur
  obtain ⟨⟨⟨range', symbol', symbolRoles'⟩, syntaxKind'⟩, legacyRange'⟩ := target
  obtain rfl : symbol = symbol' := h.symbol.nil
  obtain rfl : symbolRoles = symbolRoles' := h.symbolRoles.nil
  obtain rfl : syntaxKind = syntaxKind' := h.syntaxKind.nil
  obtain rfl : legacyRange = legacyRange' := h.legacyRange.nil_eq
  obtain rfl : range = range' := by
    obtain ⟨hsingle, _⟩ | ⟨_, hmulti⟩ := h.range
    · exact hsingle.nil
    · exact hmulti.nil
  rfl

lemma decodeOccurrence_of_pending {sub : Bytes} (hlen : sub.length < 2 ^ 63)
    (hbody : Body fs sub) (h : OccurrencePending limits {} target fs) :
    decodeOccurrence limits sub = .ok target.finish := by
  have hdecode := (decodeMessage_of_body (fun s n wt => occurrenceArms_fits limits n wt s) hlen
    hbody).mpr (foldlM_of_pending (fun _ => OccurrencePending.nil)
      (fun _ _ _ => OccurrencePending.step) h)
  exact bind_ok.mpr ⟨target, hdecode, rfl⟩

end Occurrence

/-- With no range message, the range is what the deprecated field gives. -/
lemma finish_of_legacy (occ : ScipOccurrence) (xs : List Int32) :
    OccurrenceState.finish ⟨{ occ with range := defaultRange }, xs⟩ =
      { occ with range := rangeFromLegacy xs } := by
  by_cases hxs : xs = []
  · subst hxs
    rw [finish_of_nil]
    rfl
  · rw [OccurrenceState.finish, if_pos ⟨rfl, hxs⟩]

/-- A range that is not packed is written so that nothing is lost. -/
lemma rangeKept_of_forall {range : ScipRange} (h : RangeWritten range fs)
    (hnone : ∀ v ∈ valuesOf 1 fs, v.wireType ≠ 2) : RangeKept range fs := by
  refine ⟨h, fun chunks hne hchunks => ?_⟩
  obtain ⟨chunk, chunks, rfl⟩ := List.exists_cons_of_ne_nil hne
  obtain ⟨v, vs, ⟨payload, rfl, _⟩, _, heq⟩ := List.forall₂_cons_left_iff.mp hchunks
  exact absurd rfl (hnone _ (by rw [heq]; exact List.mem_cons_self))

/-- **Occurrences.**  An encoded occurrence is decoded, and it is decoded to itself exactly if
the last chunk of its range is enough. -/
lemma decodeOccurrence_value {occ : ScipOccurrence} {v : WireValue}
    (h : OccurrenceValue limits RangeWritten occ v) :
    ∃ occ', Decodes limits.maxStringBytes (decodeOccurrence limits) occ' v ∧
      (occ' = occ ↔ OccurrenceValue limits RangeKept occ v) := by
  obtain ⟨sub, fs, rfl, hmax, hlen, hbody, hfields⟩ := h
  -- it is enough to know the range of the decoded occurrence
  suffices hrange : ∃ range', decodeOccurrence limits sub = .ok { occ with range := range' } ∧
      (range' = occ.range ↔ RangeKept occ.range fs) by
    obtain ⟨range', hdecode, hiff⟩ := hrange
    refine ⟨{ occ with range := range' }, ⟨sub, rfl, hmax, hdecode⟩, ?_⟩
    constructor
    · intro heq
      have hrange : range' = occ.range := congrArg (fun o : ScipOccurrence => o.range) heq
      exact ⟨sub, fs, rfl, hmax, hlen, hbody, { hfields with range := hiff.mp hrange }⟩
    · rintro ⟨sub', fs', heq, _, _, hbody', hfields'⟩
      obtain rfl := WireValue.len.inj heq
      obtain rfl := hbody.unique hbody'
      rw [hiff.mpr hfields'.range]
  have hpayload : ∀ v ∈ valuesOf 1 fs,
      v.payloadLength ≤ limits.maxStringBytes ∧ v.payloadLength < 2 ^ 63 := by
    intro v hv
    simp only [valuesOf, List.mem_map, List.mem_filter] at hv
    obtain ⟨f, ⟨hf, _⟩, rfl⟩ := hv
    have := hbody.payloadLength_le hf
    omega
  have pending : ∀ (range : ScipRange) (xs : List Int32),
      LegacyPending limits [] xs (valuesOf 1 fs) →
      ((Singular 8 (Decodes 256 decodeSingleLineRange range) defaultRange range fs ∧
        valuesOf 9 fs = []) ∨
      (valuesOf 8 fs = [] ∧
        Singular 9 (Decodes 256 decodeMultiLineRange range) defaultRange range fs)) →
      decodeOccurrence limits sub =
        .ok (OccurrenceState.finish ⟨{ occ with range := range }, xs⟩) :=
    fun range xs hlegacy hrange => decodeOccurrence_of_pending hlen hbody
      ⟨hfields.numbers, hlegacy, hfields.symbol, hfields.symbolRoles, hfields.syntaxKind, hrange⟩
  obtain ⟨hline, h, h₈, h₉, h₁⟩ | ⟨h, h₈, h₉, h₁⟩ | ⟨chunks, h, h₈, h₉, h₁⟩ |
    ⟨xs, h, h₈, h₉, h₁⟩ := hfields.range
  · refine ⟨occ.range, ?_, fun _ => rangeKept_of_forall hfields.range (by simp [h₁]), fun _ => rfl⟩
    rw [pending occ.range [] (by rw [h₁]; exact .nil)
      (.inl ⟨.inl ⟨_, decodeSingleLineRange_value hline h, h₈⟩, h₉⟩), finish_of_nil]
  · refine ⟨occ.range, ?_, fun _ => rangeKept_of_forall hfields.range (by simp [h₁]), fun _ => rfl⟩
    rw [pending occ.range [] (by rw [h₁]; exact .nil)
      (.inr ⟨h₈, .inl ⟨_, decodeMultiLineRange_value h, h₉⟩⟩), finish_of_nil]
  · refine ⟨rangeFromLegacy (chunks.getLast?.getD []), ?_, ?_⟩
    · rw [pending defaultRange _ (legacyPending_chunks h₁ [] hpayload)
        (.inl ⟨.inr ⟨h₈, rfl⟩, h₉⟩), finish_of_legacy]
    · rw [rangeFromLegacy_last_iff h]
      constructor
      · intro hsuffices
        refine ⟨hfields.range, fun chunks' _ hchunks' => ?_⟩
        rwa [packedChunks_unique hchunks' h₁ fun v hv => (hpayload v hv).2]
      · rintro ⟨_, hkept⟩
        refine hkept chunks (fun hnil => ?_) h₁
        rw [hnil] at h
        exact legacyValues_ne_nil h rfl
  · refine ⟨occ.range, ?_, fun _ => rangeKept_of_forall hfields.range ?_, fun _ => rfl⟩
    · rw [pending defaultRange _ (legacyPending_singles h₁ []) (.inl ⟨.inr ⟨h₈, rfl⟩, h₉⟩),
        finish_of_legacy, List.nil_append, rangeFromLegacy_of_values h]
    · intro v hv
      obtain ⟨x, _, hx⟩ := exists_left_of_forall₂ h₁ hv
      rw [hx.wireType_eq]
      decide

lemma DocumentFields.step {cur target : ScipDocument} {f : Field}
    (h : DocumentFields limits 
      (Decodes limits.maxStringBytes (decodeOccurrence limits))
      (Decodes limits.maxStringBytes (decodeSymbolInformation limits)) cur target (f :: fs)) :
    ∃ next, applyField (documentArms limits) cur f = .ok next ∧
      DocumentFields limits 
      (Decodes limits.maxStringBytes (decodeOccurrence limits))
      (Decodes limits.maxStringBytes (decodeSymbolInformation limits)) next target fs := by
  have hn := h.numbers.head
  simp only [List.mem_cons, List.not_mem_nil, or_false] at hn
  rcases hn with hn | hn | hn | hn | hn
  · obtain ⟨hv, hrest⟩ := h.relativePath.cons_eq hn
    refine ⟨_, applyField_of hn hv.wireType_eq
      (apply_string (k := fun a => { cur with relativePath := a }) hv), ?_⟩
    refine ⟨h.numbers.tail, hrest, ?_, ?_, ?_, ?_⟩
    · exact h.occurrences.cons_ne (by omega)
    · exact h.symbols.cons_ne (by omega)
    · exact h.language.cons_ne (by omega)
    · exact h.positionEncoding.cons_ne (by omega)
  · obtain ⟨a, hv, hroom, hrest⟩ := h.occurrences.cons_eq hn
    refine ⟨_, applyField_of hn hv.wireType_eq (apply_push hroom
      (apply_message (k := fun a => { cur with occurrences := cur.occurrences ++ [a] }) hv)), ?_⟩
    refine ⟨h.numbers.tail, ?_, hrest, ?_, ?_, ?_⟩
    · exact h.relativePath.cons_ne (by omega)
    · exact h.symbols.cons_ne (by omega)
    · exact h.language.cons_ne (by omega)
    · exact h.positionEncoding.cons_ne (by omega)
  · obtain ⟨a, hv, hroom, hrest⟩ := h.symbols.cons_eq hn
    refine ⟨_, applyField_of hn hv.wireType_eq (apply_push hroom
      (apply_message (k := fun a => { cur with symbols := cur.symbols ++ [a] }) hv)), ?_⟩
    refine ⟨h.numbers.tail, ?_, ?_, hrest, ?_, ?_⟩
    · exact h.relativePath.cons_ne (by omega)
    · exact h.occurrences.cons_ne (by omega)
    · exact h.language.cons_ne (by omega)
    · exact h.positionEncoding.cons_ne (by omega)
  · obtain ⟨hv, hrest⟩ := h.language.cons_eq hn
    refine ⟨_, applyField_of hn hv.wireType_eq
      (apply_string (k := fun a => { cur with language := a }) hv), ?_⟩
    refine ⟨h.numbers.tail, ?_, ?_, ?_, hrest, ?_⟩
    · exact h.relativePath.cons_ne (by omega)
    · exact h.occurrences.cons_ne (by omega)
    · exact h.symbols.cons_ne (by omega)
    · exact h.positionEncoding.cons_ne (by omega)
  · obtain ⟨⟨n, hencoding, hv⟩, hrest⟩ := h.positionEncoding.cons_eq hn
    refine ⟨_, applyField_of hn hv.wireType_eq
      (apply_int32 (k := fun a => { cur with positionEncoding := fromScipValue a }) hv), ?_⟩
    rw [fromScipValue_of_scipValue hencoding]
    refine ⟨h.numbers.tail, ?_, ?_, ?_, ?_, hrest⟩
    · exact h.relativePath.cons_ne (by omega)
    · exact h.occurrences.cons_ne (by omega)
    · exact h.symbols.cons_ne (by omega)
    · exact h.language.cons_ne (by omega)

lemma DocumentFields.nil {R : ScipOccurrence → WireValue → Prop}
    {R' : ScipSymbolInformation → WireValue → Prop} {cur target : ScipDocument}
    (h : DocumentFields limits R R' cur target []) : cur = target := by
  cases cur
  cases target
  simp only [ScipDocument.mk.injEq]
  exact ⟨h.language.nil, h.relativePath.nil, h.occurrences.nil, h.symbols.nil,
    h.positionEncoding.nil⟩

/-- **Documents.**  An encoded document is decoded, and it is decoded to itself exactly if its
occurrences are. -/
lemma decodeDocument_value {doc : ScipDocument} {v : WireValue}
    (h : DocumentValue limits RangeWritten doc v) :
    ∃ doc', Decodes limits.maxMessageBytes (decodeDocument limits) doc' v ∧
      (doc' = doc ↔ DocumentValue limits RangeKept doc v) := by
  obtain ⟨sub, fs, rfl, hmax, hlen, hbody, hfields⟩ := h
  obtain ⟨occurrences', hoccurrences, hiff⟩ :=
    hfields.occurrences.transfer fun _ _ => decodeOccurrence_value
  have hdecoded : DocumentFields limits (Decodes limits.maxStringBytes (decodeOccurrence limits))
      (Decodes limits.maxStringBytes (decodeSymbolInformation limits)) {}
      { doc with occurrences := occurrences' } fs :=
    { hfields with
      occurrences := hoccurrences
      symbols := hfields.symbols.mono fun _ _ => decodeSymbolInformation_value }
  refine ⟨{ doc with occurrences := occurrences' }, ⟨sub, rfl, hmax, ?_⟩, ?_⟩
  · exact (decodeMessage_of_body (fun s n wt => documentArms_fits limits n wt s) hlen hbody).mpr
      (foldlM_of_pending (fun _ => DocumentFields.nil) (fun _ _ _ => DocumentFields.step) hdecoded)
  · constructor
    · intro heq
      have hsame : occurrences' = doc.occurrences := congrArg ScipDocument.occurrences heq
      exact ⟨sub, fs, rfl, hmax, hlen, hbody, { hfields with occurrences := hiff.mp hsame }⟩
    · rintro ⟨sub', fs', heq, _, _, hbody', hfields'⟩
      obtain rfl := WireValue.len.inj heq
      obtain rfl := hbody.unique hbody'
      rw [hiff.mpr hfields'.occurrences]

lemma MetadataFields.step {cur target : ScipMetadata} {f : Field}
    (h : MetadataFields limits (Decodes limits.maxStringBytes (decodeToolInfo limits)) cur target
      (f :: fs)) :
    ∃ next, applyField (metadataArms limits) cur f = .ok next ∧
      MetadataFields limits (Decodes limits.maxStringBytes (decodeToolInfo limits)) next target
        fs := by
  have hn := h.numbers.head
  simp only [List.mem_cons, List.not_mem_nil, or_false] at hn
  rcases hn with hn | hn
  · obtain ⟨hv, hrest⟩ := h.toolInfo.cons_eq hn
    refine ⟨_, applyField_of hn hv.wireType_eq (apply_message
      (k := fun a => { cur with toolName := a.name, toolVersion := a.version }) hv), ?_⟩
    refine ⟨h.numbers.tail, hrest, ?_⟩
    exact h.projectRoot.cons_ne (by omega)
  · obtain ⟨hv, hrest⟩ := h.projectRoot.cons_eq hn
    refine ⟨_, applyField_of hn hv.wireType_eq
      (apply_string (k := fun a => { cur with projectRoot := a }) hv), ?_⟩
    refine ⟨h.numbers.tail, ?_, hrest⟩
    exact h.toolInfo.cons_ne (by omega)

lemma MetadataFields.nil {R : ToolInfo → WireValue → Prop} {cur target : ScipMetadata}
    (h : MetadataFields limits R cur target []) : cur = target := by
  obtain ⟨toolName, toolVersion, projectRoot⟩ := cur
  obtain ⟨toolName', toolVersion', projectRoot'⟩ := target
  have htool := h.toolInfo.nil
  simp only [ScipMetadata.toolInfo, ToolInfo.mk.injEq] at htool
  obtain ⟨rfl, rfl⟩ := htool
  obtain rfl : projectRoot = projectRoot' := h.projectRoot.nil
  rfl

lemma decodeMetadata_value {metadata : ScipMetadata} {v : WireValue}
    (h : MetadataValue limits metadata v) :
    Decodes (max limits.maxStringBytes 4096) (decodeMetadata limits) metadata v := by
  obtain ⟨sub, fs, rfl, hmax, hlen, hbody, hfields⟩ := h
  refine ⟨sub, rfl, hmax, ?_⟩
  have hdecoded : MetadataFields limits
      (Decodes limits.maxStringBytes (decodeToolInfo limits)) {} metadata fs :=
    { hfields with toolInfo := hfields.toolInfo.mono fun _ => decodeToolInfo_value }
  exact (decodeMessage_of_body (fun s n wt => metadataArms_fits limits n wt s) hlen hbody).mpr
    (foldlM_of_pending (fun _ => MetadataFields.nil) (fun _ _ _ => MetadataFields.step) hdecoded)

lemma IndexFields.step {cur target : ScipIndex} {f : Field}
    (h : IndexFields limits
      (Decodes (max limits.maxStringBytes 4096) (decodeMetadata limits))
      (Decodes limits.maxMessageBytes (decodeDocument limits))
      (Decodes limits.maxStringBytes (decodeSymbolInformation limits)) cur target (f :: fs)) :
    ∃ next, applyField (indexArms limits) cur f = .ok next ∧
      IndexFields limits
        (Decodes (max limits.maxStringBytes 4096) (decodeMetadata limits))
        (Decodes limits.maxMessageBytes (decodeDocument limits))
        (Decodes limits.maxStringBytes (decodeSymbolInformation limits)) next target fs := by
  have hn := h.numbers.head
  simp only [List.mem_cons, List.not_mem_nil, or_false] at hn
  rcases hn with hn | hn | hn
  · obtain ⟨⟨metadata, hsome, hv⟩, hrest⟩ := h.metadata.cons_eq hn
    refine ⟨_, applyField_of hn hv.wireType_eq
      (apply_message (k := fun a => { cur with metadata := some a }) hv), ?_⟩
    rw [← hsome]
    refine ⟨h.numbers.tail, hrest, ?_, ?_⟩
    · exact h.documents.cons_ne (by omega)
    · exact h.externalSymbols.cons_ne (by omega)
  · obtain ⟨a, hv, hroom, hrest⟩ := h.documents.cons_eq hn
    refine ⟨_, applyField_of hn hv.wireType_eq (apply_push hroom
      (apply_message (k := fun a => { cur with documents := cur.documents ++ [a] }) hv)), ?_⟩
    refine ⟨h.numbers.tail, ?_, hrest, ?_⟩
    · exact h.metadata.cons_ne (by omega)
    · exact h.externalSymbols.cons_ne (by omega)
  · obtain ⟨a, hv, hroom, hrest⟩ := h.externalSymbols.cons_eq hn
    refine ⟨_, applyField_of hn hv.wireType_eq (apply_push hroom (apply_message
      (k := fun a => { cur with externalSymbols := cur.externalSymbols ++ [a] }) hv)), ?_⟩
    refine ⟨h.numbers.tail, ?_, ?_, hrest⟩
    · exact h.metadata.cons_ne (by omega)
    · exact h.documents.cons_ne (by omega)

lemma IndexFields.nil {R : ScipMetadata → WireValue → Prop} {R' : ScipDocument → WireValue → Prop}
    {R'' : ScipSymbolInformation → WireValue → Prop} {cur target : ScipIndex}
    (h : IndexFields limits R R' R'' cur target []) : cur = target := by
  cases cur
  cases target
  simp only [ScipIndex.mk.injEq]
  exact ⟨h.metadata.nil, h.documents.nil, h.externalSymbols.nil⟩

end Nested

/-! ## The round trip -/

/-- **Decode undoes encode.**  An encoded index is decoded to itself exactly if, for every range
that is packed into chunks, the last chunk is enough. -/
theorem decodeIndex_encoded (limits : DecodeLimits) (index : ScipIndex) (bytes : ByteSlice)
    (h : Encodes limits RangeWritten index bytes) :
    decodeIndex limits bytes = .ok index ↔ Encodes limits RangeKept index bytes := by
  obtain ⟨hmax, fs, hbody, hfields⟩ := h
  obtain ⟨documents', hdocuments, hiff⟩ :=
    hfields.documents.transfer fun _ _ => decodeDocument_value
  have hdecoded : IndexFields limits
      (Decodes (max limits.maxStringBytes 4096) (decodeMetadata limits))
      (Decodes limits.maxMessageBytes (decodeDocument limits))
      (Decodes limits.maxStringBytes (decodeSymbolInformation limits)) {}
      { index with documents := documents' } fs :=
    { hfields with
      metadata := hfields.metadata.mono fun v ⟨metadata, hsome, hv⟩ =>
        ⟨metadata, hsome, decodeMetadata_value hv⟩
      documents := hdocuments
      externalSymbols := hfields.externalSymbols.mono fun _ _ => decodeSymbolInformation_value }
  have hdecode : decodeIndex limits bytes = .ok { index with documents := documents' } := by
    rw [decodeIndex, if_neg (by omega)]
    exact (decodeMessage_of_body (fun s n wt => indexArms_fits limits n wt s) bytes.2 hbody).mpr
      (foldlM_of_pending (fun _ => IndexFields.nil) (fun _ _ _ => IndexFields.step) hdecoded)
  rw [hdecode]
  constructor
  · intro heq
    have hsame : documents' = index.documents :=
      congrArg ScipIndex.documents (Except.ok.inj heq)
    exact ⟨hmax, fs, hbody, { hfields with documents := hiff.mp hsame }⟩
  · rintro ⟨_, fs', hbody', hfields'⟩
    obtain rfl := hbody.unique hbody'
    rw [hiff.mpr hfields'.documents]

/-! ### A range in two chunks -/

/-- The range of an occurrence, its first integer in a chunk of its own. -/
def splitOccurrence : List Field := [⟨1, .len [3]⟩, ⟨1, .len [4, 9]⟩]

/-- A document with that occurrence. -/
def splitDocument : List Field :=
  [⟨1, .len (utf8Bytes "a")⟩, ⟨2, .len (encodeFields splitOccurrence)⟩]

/-- The bytes of an index with that document. -/
def splitBytes : ByteSlice := ⟨encodeFields [⟨2, .len (encodeFields splitDocument)⟩], by decide⟩

/-- The index that they encode. -/
def splitIndex : ScipIndex where
  documents := [{ relativePath := "a", occurrences := [{ range := ⟨3, 4, 3, 9⟩ }] }]

lemma rangeWritten_split : RangeWritten ⟨3, 4, 3, 9⟩ splitOccurrence := by
  refine .packed [[3], [4, 9]] (.inr ⟨rfl, rfl⟩) rfl rfl
    (.cons ⟨[3], rfl, ?_⟩ (.cons ⟨[4, 9], rfl, ?_⟩ .nil))
  · exact packedVarints_encode (by decide)
  · exact packedVarints_encode (by decide)

lemma encodes_split : Encodes .default RangeWritten splitIndex splitBytes := by
  refine ⟨by decide, [⟨2, .len (encodeFields splitDocument)⟩],
    body_encodeFields (by simp [WireValue.Sized]; decide), by simp [Numbered], .inr ⟨rfl, rfl⟩,
    ⟨by decide, _, rfl, .cons ?_ .nil⟩, ⟨by decide, [], rfl, .nil⟩⟩
  refine ⟨_, splitDocument, rfl, by decide, by decide,
    body_encodeFields (by simp [splitDocument, WireValue.Sized]; decide),
    by simp [Numbered, splitDocument], .inl ⟨_, ⟨rfl, by decide⟩, rfl⟩,
    ⟨by decide, _, rfl, .cons ?_ .nil⟩, ⟨by decide, [], rfl, .nil⟩, .inr ⟨rfl, rfl⟩,
    .inr ⟨rfl, rfl⟩⟩
  exact ⟨_, splitOccurrence, rfl, by decide, by decide,
    body_encodeFields (by simp [splitOccurrence, WireValue.Sized]),
    by simp [Numbered, splitOccurrence], rangeWritten_split, .inr ⟨rfl, rfl⟩, .inr ⟨rfl, rfl⟩,
    .inr ⟨rfl, rfl⟩⟩

theorem decodeIndex_encoded_split :
    decodeIndex .default splitBytes = .ok splitIndex ↔
      Encodes .default RangeKept splitIndex splitBytes :=
  decodeIndex_encoded .default splitIndex splitBytes encodes_split

/-- The first chunk is lost. -/
theorem decodeIndex_split_lost :
    Encodes .default RangeWritten splitIndex splitBytes ∧
      decodeIndex .default splitBytes ≠ .ok splitIndex :=
  ⟨encodes_split, by decide +kernel⟩

end WorkspaceAtlas.ScipDecoder
