/-
# When the slices agree

An edge does not look at the kind of a resolution, the truth does: it takes a resolution whose
kind contradicts its status for invalid, and reads it for the symbol that kind and value name.
The reader compares both sides and answers with the truth.
-/
import WorkspaceAtlas.Serving.Agreement
import WorkspaceAtlas.Serving.Counts

namespace WorkspaceAtlas

open Relational Transition

namespace Agreement

/-! ## Kinds that agree with their status -/

/-- The types of relationships that some filter reads. -/
def readTypes : List RelationshipType :=
  [.references, .implements, .imports, .extends, .calls, .tests, .configures]

/-- The kind of the resolution is one of its status. -/
def KindAgrees (r : RelationshipResolution) : Prop :=
  match r.status with
  | .resolvedSymbol => r.resolvedRefKind = some "symbol" ∧ r.resolvedRefValue ≠ none
  | .resolvedFile => (r.resolvedRefKind = some "file" ∨ r.resolvedRefKind = some "path") ∧
    r.resolvedRefValue ≠ none
  | _ => ¬ (r.resolvedRefKind = some "symbol" ∧ r.resolvedRefValue ≠ none)

/-- The row is read for some symbol. -/
def Seen (row : ResolvedRow) : Prop :=
  row.1.sourceRefKind = .symbol ∨ ∃ r, row.2 = some r ∧ r.resolvedRefValue ≠ none ∧
    (r.resolvedRefKind = some "symbol" ∨ r.status = .resolvedSymbol)

/-- No resolution that is read for a symbol has a kind that contradicts its status. -/
def Coherent (truth : Truth) (gid : String) : Prop :=
  ∀ row ∈ reachedRows truth gid, row.1.relationshipType ∈ readTypes → Seen row →
    ∀ r, row.2 = some r → KindAgrees r

section Rows

variable {row : ResolvedRow} {r : RelationshipResolution} {key : String} {inbound : Bool}
  {filter : RelationshipReadFilter} {type : RelationshipType}

/-- What the resolver writes has a kind of its status. -/
lemma kindAgrees_outcome {rel : MappedRelationship} {u : SymbolUniverse}
    {ws gid id policy : String} {now : Timestamp} :
    KindAgrees ((resolveRelationship rel u).row ws gid id policy now) := by
  unfold resolveRelationship resolveByDisplayName
  dsimp only
  split_ifs
  · simp [KindAgrees, ResolutionOutcome.row, ResolvedRef.kind]
  · simp [KindAgrees, ResolutionOutcome.row, ResolvedRef.kind]
  · simp [KindAgrees, ResolutionOutcome.row, ResolvedRef.kind]
  · simp [KindAgrees, ResolutionOutcome.row, ResolvedRef.kind]
  · simp [KindAgrees, ResolutionOutcome.row, ResolvedRef.kind]
  · simp [KindAgrees, ResolutionOutcome.row, ResolvedRef.kind]
  · split
    · simp [KindAgrees, ResolutionOutcome.row]
    · split
      · simp [KindAgrees, ResolutionOutcome.row]
      · simp [KindAgrees, ResolutionOutcome.row]

lemma mem_readTypes_of_reads (h : filter.reads inbound type = true) : type ∈ readTypes := by
  unfold readTypes
  cases type <;> simp_all [RelationshipReadFilter.reads]

/-- What a filter that includes everything reads. -/
lemma reads_all : (⟨true, true, true, true⟩ : RelationshipReadFilter).reads inbound type = true ↔
    type ∈ readTypes := by
  refine ⟨mem_readTypes_of_reads, fun h => ?_⟩
  unfold readTypes at h
  cases type <;> simp_all [RelationshipReadFilter.reads]

lemma truthEnd_inbound : truthEnd true key row = true ↔
    ∃ r, row.2 = some r ∧ r.resolvedRefKind = some "symbol" ∧ r.resolvedRefValue = some key := by
  rw [truthEnd, if_pos rfl]
  cases row.2 with
  | none => simp
  | some r => simp [namesSymbol]

lemma edgeEnd_inbound : edgeEnd true key row = true ↔
    ∃ r, row.2 = some r ∧ r.status = .resolvedSymbol ∧ r.resolvedRefValue = some key := by
  rw [edgeEnd, if_pos rfl, decide_eq_true_eq]
  exact edgeTarget_symbol

lemma end_outbound : truthEnd false key row = edgeEnd false key row := rfl

lemma source_of_end (h : edgeEnd false key row = true) :
    row.1.sourceRefKind = .symbol ∧ row.1.sourceRefValue = key := of_decide_eq_true h

/-- A row that is not seen is read for no symbol. -/
lemma seen_of_end (h : truthEnd inbound key row = true ∨ edgeEnd inbound key row = true) :
    Seen row := by
  cases inbound with
  | false =>
    rw [end_outbound, or_self] at h
    exact Or.inl (source_of_end h).1
  | true =>
    rw [truthEnd_inbound, edgeEnd_inbound] at h
    rcases h with ⟨r, hr, hkind, hvalue⟩ | ⟨r, hr, hstatus, hvalue⟩
    · exact Or.inr ⟨r, hr, by simp [hvalue], Or.inl hkind⟩
    · exact Or.inr ⟨r, hr, by simp [hvalue], Or.inr hstatus⟩

/-- Where the kind agrees, both sides read the row for the same symbols. -/
lemma KindAgrees.end_eq (h : ∀ r, row.2 = some r → KindAgrees r) :
    truthEnd inbound key row = edgeEnd inbound key row := by
  cases inbound with
  | false => exact end_outbound
  | true =>
    rw [Bool.eq_iff_iff, truthEnd_inbound, edgeEnd_inbound]
    refine exists_congr fun r => and_congr_right fun hr => ?_
    have hagrees := h r hr
    unfold KindAgrees at hagrees
    constructor
    · rintro ⟨hkind, hvalue⟩
      refine ⟨?_, hvalue⟩
      cases hstatus : r.status with
      | resolvedSymbol => rfl
      | resolvedFile => simp [hstatus, hkind] at hagrees
      | external => simp [hstatus, hkind, hvalue] at hagrees
      | ambiguous => simp [hstatus, hkind, hvalue] at hagrees
      | unresolved => simp [hstatus, hkind, hvalue] at hagrees
      | invalid => simp [hstatus, hkind, hvalue] at hagrees
      | stale => simp [hstatus, hkind, hvalue] at hagrees
    · rintro ⟨hstatus, hvalue⟩
      rw [hstatus] at hagrees
      exact ⟨hagrees.1, hvalue⟩

/-- The target and the state of a row in the truth. -/
def truthTargetOf (row : ResolvedRow) : ResolutionStatus × RefKind × String :=
  projectedTarget (row.2.map RelationshipResolution.status)
    (row.2.bind RelationshipResolution.resolvedRefKind)
    (row.2.bind RelationshipResolution.resolvedRefValue) row.1.targetRefValue

/-- Where the kind agrees, both sides show the same state and target. -/
lemma KindAgrees.target_eq (h : ∀ r, row.2 = some r → KindAgrees r) :
    truthTargetOf row = edgeTargetOf row := by
  unfold truthTargetOf edgeTargetOf
  cases hres : row.2 with
  | none => rfl
  | some r =>
    have hagrees := h r hres
    unfold KindAgrees at hagrees
    simp only [Option.map_some, Option.bind_some, projectedTarget, edgeTarget]
    cases hstatus : r.status with
    | resolvedSymbol =>
      rw [hstatus] at hagrees
      cases hvalue : r.resolvedRefValue with
      | none => exact absurd hvalue hagrees.2
      | some v => simp [hagrees.1]
    | resolvedFile =>
      rw [hstatus] at hagrees
      cases hvalue : r.resolvedRefValue with
      | none => exact absurd hvalue hagrees.2
      | some v => simp [hagrees.1]
    | external => rfl
    | ambiguous => rfl
    | unresolved => rfl
    | invalid => rfl
    | stale => rfl

/-- Where the kind agrees, both sides sort the row by the same priority. -/
lemma KindAgrees.order_eq (h : ∀ r, row.2 = some r → KindAgrees r) :
    truthOrder row = edgeOrder row := by
  unfold truthOrder edgeOrder edgeTargetOf
  cases hres : row.2 with
  | none => rfl
  | some r =>
    have hagrees := h r hres
    unfold KindAgrees at hagrees
    simp only [Option.map_some, Option.getD_some, edgeTarget]
    cases hstatus : r.status with
    | resolvedSymbol =>
      rw [hstatus] at hagrees
      obtain ⟨v, hv⟩ := Option.ne_none_iff_exists'.mp hagrees.2
      simp [hv, relationshipReadPriority]
    | resolvedFile =>
      rw [hstatus] at hagrees
      obtain ⟨v, hv⟩ := Option.ne_none_iff_exists'.mp hagrees.2
      simp [hv, relationshipReadPriority]
    | external => rfl
    | ambiguous => rfl
    | unresolved => rfl
    | invalid => rfl
    | stale => rfl

lemma KindAgrees.evidence_eq (h : ∀ r, row.2 = some r → KindAgrees r) :
    mapTruthRelationshipEvidence row = edgeEvidence row := by
  have htarget := KindAgrees.target_eq h
  unfold truthTargetOf at htarget
  unfold mapTruthRelationshipEvidence edgeEvidence
  dsimp only
  rw [htarget]

end Rows

/-! ## Directions and slices -/

section Slices

variable {H : Hasher} {truth : Truth} {p : ServingPlane} {ws gid schema policy sgid : String}
  (h : Servable truth ws gid) (hp : Projected H truth p ws gid schema policy sgid)

include h hp

/-- **Directions agree** where the resolutions are coherent. -/
lemma direction_agrees (hcoherent : Coherent truth gid) (key : String) (n : ℕ) (inbound : Bool)
    (filter : RelationshipReadFilter) :
    projectedRelationshipDirection truth.catalogue p sgid key n inbound filter =
      truthRelationshipDirection truth gid key n inbound filter := by
  rw [projectedDirection_eq h hp, truthDirection_eq h]
  have hagrees : ∀ row ∈ reachedRows truth gid,
      filter.reads inbound row.1.relationshipType = true → Seen row →
        ∀ r, row.2 = some r → KindAgrees r := fun row hrow hreads hseen =>
    hcoherent row hrow (mem_readTypes_of_reads hreads) hseen
  have hfilter : ((reachedRows truth gid).filter fun row =>
      filter.reads inbound row.1.relationshipType && edgeEnd inbound key row) =
      (reachedRows truth gid).filter fun row =>
        filter.reads inbound row.1.relationshipType && truthEnd inbound key row := by
    refine List.filter_congr fun row hrow => ?_
    cases hreads : filter.reads inbound row.1.relationshipType with
    | false => rfl
    | true =>
      by_cases hseen : Seen row
      · rw [KindAgrees.end_eq (hagrees row hrow hreads hseen)]
      · -- neither side reads the row
        have htruth : truthEnd inbound key row = false := by
          by_contra hne
          exact hseen (seen_of_end (Or.inl (by simpa using hne)))
        have hedge : edgeEnd inbound key row = false := by
          by_contra hne
          exact hseen (seen_of_end (Or.inr (by simpa using hne)))
        rw [htruth, hedge]
  have hkind : ∀ row ∈ (reachedRows truth gid).filter fun row =>
      filter.reads inbound row.1.relationshipType && truthEnd inbound key row,
        ∀ r, row.2 = some r → KindAgrees r := by
    intro row hrow
    obtain ⟨hrow, hcond⟩ := List.mem_filter.mp hrow
    obtain ⟨hreads, hend⟩ := Bool.and_eq_true_iff.mp hcond
    exact hagrees row hrow hreads (seen_of_end (Or.inl hend))
  rw [hfilter, ← orderBy_congr fun row hrow => KindAgrees.order_eq (hkind row hrow)]
  refine List.map_congr_left fun row hrow => ?_
  exact (KindAgrees.evidence_eq
    (hkind row (mem_orderBy.mp (List.mem_of_mem_take hrow)))).symm

/-- **Slices agree** where the resolutions are coherent. -/
theorem relationships_agree (hcoherent : Coherent truth gid) (key : String) (rowLimit : ℕ)
    (filter : RelationshipReadFilter) :
    projectedRelationshipEvidence truth.catalogue p sgid key rowLimit filter =
      truthRelationshipEvidence truth gid key rowLimit filter := by
  unfold projectedRelationshipEvidence truthRelationshipEvidence
  congr 1
  funext n inbound
  exact direction_agrees h hp hcoherent key n inbound filter

end Slices

/-! ## Where slices agree, the resolutions are coherent -/

lemma readDirections_ok {direction : ℕ → Bool → List ServingRelationshipEvidence} {n : ℕ}
    (hn : n + 1 < 2 ^ 63) : readDirections direction n =
      .ok ⟨mergeRelationshipSlices (direction (n + 1) false) (direction (n + 1) true) n,
        saturatingAdd (direction (n + 1) false).length (direction (n + 1) true).length⟩ := by
  rw [readDirections, relationshipFetchLimit, if_pos hn]
  rfl

/-- Rows with one id being one row, a merge that is not cut off has all rows. -/
lemma mem_mergeRelationshipSlices {source target : List ServingRelationshipEvidence} {n : ℕ}
    {e : ServingRelationshipEvidence} (hn : source.length + target.length ≤ n)
    (hinj : ∀ a ∈ source ++ target, ∀ b ∈ source ++ target,
      a.relationshipFactId = b.relationshipFactId → a = b) :
    e ∈ (mergeRelationshipSlices source target n).rows ↔ e ∈ source ++ target := by
  have hlength : (firsts ServingRelationshipEvidence.relationshipFactId none
      (orderBy (fun e => toLex (relationshipReadPriority e.resolutionState, e.relationshipFactId))
        (source ++ target))).length ≤ n := by
    refine (firsts_sublist.length_le).trans ?_
    rw [perm_orderBy.length_eq, List.length_append]
    exact hn
  rw [mergeRelationshipSlices, List.take_of_length_le hlength, mem_firsts_iff, mem_orderBy]
  intro a ha b hb
  exact hinj a (mem_orderBy.mp ha) b (mem_orderBy.mp hb)

section Side

variable {truth : Truth} {gid key : String} {ends : Bool → ResolvedRow → Bool}
  {order : ResolvedRow → ℕ ×ₗ String} {evidence : ResolvedRow → ServingRelationshipEvidence}
  {n : ℕ} {inbound : Bool} {e : ServingRelationshipEvidence} {row : ResolvedRow}

/-- The common form of a direction that reads everything. -/
def side (truth : Truth) (gid : String) (ends : Bool → ResolvedRow → Bool)
    (order : ResolvedRow → ℕ ×ₗ String) (evidence : ResolvedRow → ServingRelationshipEvidence)
    (n : ℕ) (inbound : Bool) : List ServingRelationshipEvidence :=
  ((orderBy order ((reachedRows truth gid).filter fun row =>
    (⟨true, true, true, true⟩ : RelationshipReadFilter).reads inbound row.1.relationshipType &&
      ends inbound row)).take n).map evidence

lemma length_reachedRows (truth : Truth) (gid : String) :
    (reachedRows truth gid).length ≤ truth.catalogue.facts.relationshipFact.rows.length := by
  rw [reachedRows, List.length_map]
  exact List.length_filter_le _ _

lemma length_side (hn : truth.catalogue.facts.relationshipFact.rows.length ≤ n) :
    (side truth gid ends order evidence n inbound).length =
      (reachedRows truth gid).countP fun row =>
        decide (row.1.relationshipType ∈ readTypes) && ends inbound row := by
  rw [side, List.length_map, List.length_take, perm_orderBy.length_eq,
    ← List.countP_eq_length_filter]
  have hle := List.countP_le_length (l := reachedRows truth gid) (p := fun row =>
    (⟨true, true, true, true⟩ : RelationshipReadFilter).reads inbound row.1.relationshipType &&
      ends inbound row)
  have hlength := length_reachedRows truth gid
  rw [min_eq_right (by omega)]
  refine List.countP_congr fun row _ => ?_
  rw [Bool.and_eq_true, Bool.and_eq_true, reads_all, decide_eq_true_eq]

lemma mem_side (hn : truth.catalogue.facts.relationshipFact.rows.length ≤ n) :
    e ∈ side truth gid ends order evidence n inbound ↔
      ∃ row ∈ reachedRows truth gid, row.1.relationshipType ∈ readTypes ∧
        ends inbound row = true ∧ evidence row = e := by
  have hlength : (orderBy order ((reachedRows truth gid).filter fun row =>
      (⟨true, true, true, true⟩ : RelationshipReadFilter).reads inbound row.1.relationshipType &&
        ends inbound row)).length ≤ n := by
    rw [perm_orderBy.length_eq]
    exact ((List.length_filter_le _ _).trans (length_reachedRows truth gid)).trans hn
  rw [side, List.take_of_length_le hlength, List.mem_map]
  refine exists_congr fun row => ?_
  rw [mem_orderBy, List.mem_filter, Bool.and_eq_true, reads_all]
  tauto

/-- The slice of a side has the evidence of the rows that it reads. -/
lemma mem_side_slice (hid : ∀ row, (evidence row).relationshipFactId = row.1.relationshipFactId)
    (hn : 2 * truth.catalogue.facts.relationshipFact.rows.length ≤ n) :
    e ∈ (mergeRelationshipSlices (side truth gid ends order evidence (n + 1) false)
        (side truth gid ends order evidence (n + 1) true) n).rows ↔
      ∃ row ∈ reachedRows truth gid, row.1.relationshipType ∈ readTypes ∧
        (∃ inbound, ends inbound row = true) ∧ evidence row = e := by
  have hfetch : truth.catalogue.facts.relationshipFact.rows.length ≤ n + 1 := by omega
  have hmem : ∀ e, e ∈ side truth gid ends order evidence (n + 1) false ++
      side truth gid ends order evidence (n + 1) true ↔
        ∃ row ∈ reachedRows truth gid, row.1.relationshipType ∈ readTypes ∧
          (∃ inbound, ends inbound row = true) ∧ evidence row = e := by
    intro e
    rw [List.mem_append, mem_side hfetch, mem_side hfetch]
    constructor
    · rintro (⟨row, hrow, htype, hend, heq⟩ | ⟨row, hrow, htype, hend, heq⟩)
      · exact ⟨row, hrow, htype, ⟨false, hend⟩, heq⟩
      · exact ⟨row, hrow, htype, ⟨true, hend⟩, heq⟩
    · rintro ⟨row, hrow, htype, ⟨inbound, hend⟩, heq⟩
      cases inbound with
      | false => exact Or.inl ⟨row, hrow, htype, hend, heq⟩
      | true => exact Or.inr ⟨row, hrow, htype, hend, heq⟩
  rw [mem_mergeRelationshipSlices, hmem]
  · rw [length_side hfetch, length_side hfetch]
    have hlength := length_reachedRows truth gid
    have hout := List.countP_le_length (l := reachedRows truth gid) (p := fun row =>
      decide (row.1.relationshipType ∈ readTypes) && ends false row)
    have hin := List.countP_le_length (l := reachedRows truth gid) (p := fun row =>
      decide (row.1.relationshipType ∈ readTypes) && ends true row)
    omega
  · intro a ha b hb hab
    obtain ⟨row, hrow, -, -, rfl⟩ := (hmem a).mp ha
    obtain ⟨row', hrow', -, -, rfl⟩ := (hmem b).mp hb
    rw [hid, hid] at hab
    rw [eq_of_reachedRows hrow hrow' hab]

end Side

section Converse

variable {H : Hasher} {truth : Truth} {p : ServingPlane} {ws gid schema policy sgid : String}
  (h : Servable truth ws gid) (hp : Projected H truth p ws gid schema policy sgid)
  (hsize : 2 * truth.catalogue.facts.relationshipFact.rows.length + 1 < 2 ^ 63)
  (hagree : ∀ key rowLimit filter,
    projectedRelationshipEvidence truth.catalogue p sgid key rowLimit filter =
      truthRelationshipEvidence truth gid key rowLimit filter)

include h hp hsize hagree

/-- What both sides read for a symbol, without a limit that cuts anything off. -/
lemma sides_agree (key : String) :
    (∀ row ∈ reachedRows truth gid, row.1.relationshipType ∈ readTypes →
      ((∃ inbound, truthEnd inbound key row = true) ↔ ∃ inbound, edgeEnd inbound key row = true) ∧
      ((∃ inbound, truthEnd inbound key row = true) →
        mapTruthRelationshipEvidence row = edgeEvidence row)) ∧
    ((reachedRows truth gid).countP fun row =>
        decide (row.1.relationshipType ∈ readTypes) && edgeEnd true key row) =
      (reachedRows truth gid).countP fun row =>
        decide (row.1.relationshipType ∈ readTypes) && truthEnd true key row := by
  obtain ⟨n, hn⟩ : ∃ n, 2 * truth.catalogue.facts.relationshipFact.rows.length = n := ⟨_, rfl⟩
  have hread := hagree key n ⟨true, true, true, true⟩
  have htruth : ∀ inbound, truthRelationshipDirection truth gid key (n + 1) inbound
      ⟨true, true, true, true⟩ = side truth gid (fun inbound => truthEnd inbound key) truthOrder
        mapTruthRelationshipEvidence (n + 1) inbound := fun inbound => truthDirection_eq h
  have hedge : ∀ inbound, projectedRelationshipDirection truth.catalogue p sgid key (n + 1) inbound
      ⟨true, true, true, true⟩ = side truth gid (fun inbound => edgeEnd inbound key) edgeOrder
        edgeEvidence (n + 1) inbound := fun inbound => projectedDirection_eq h hp
  have hlimit : n + 1 < 2 ^ 63 := by omega
  rw [projectedRelationshipEvidence, truthRelationshipEvidence, readDirections_ok hlimit,
    readDirections_ok hlimit] at hread
  obtain ⟨hslice, hexamined⟩ := RelationshipRead.mk.inj (Except.ok.inj hread)
  rw [htruth, htruth, hedge, hedge] at hslice hexamined
  have hmem : ∀ e, (∃ row ∈ reachedRows truth gid, row.1.relationshipType ∈ readTypes ∧
      (∃ inbound, edgeEnd inbound key row = true) ∧ edgeEvidence row = e) ↔
      ∃ row ∈ reachedRows truth gid, row.1.relationshipType ∈ readTypes ∧
        (∃ inbound, truthEnd inbound key row = true) ∧ mapTruthRelationshipEvidence row = e := by
    intro e
    rw [← mem_side_slice (fun _ => rfl) hn.le, ← mem_side_slice (fun _ => rfl) hn.le, hslice]
  refine ⟨fun row hrow htype => ?_, ?_⟩
  · have hto : (∃ inbound, truthEnd inbound key row = true) →
        (∃ inbound, edgeEnd inbound key row = true) ∧
          mapTruthRelationshipEvidence row = edgeEvidence row := by
      intro hend
      obtain ⟨row', hrow', -, hend', heq⟩ := (hmem _).mpr ⟨row, hrow, htype, hend, rfl⟩
      obtain rfl : row' = row := eq_of_reachedRows hrow' hrow
        (congrArg ServingRelationshipEvidence.relationshipFactId heq)
      exact ⟨hend', heq.symm⟩
    refine ⟨⟨fun hend => (hto hend).1, fun hend => ?_⟩, fun hend => (hto hend).2⟩
    obtain ⟨row', hrow', -, hend', heq⟩ := (hmem _).mp ⟨row, hrow, htype, hend, rfl⟩
    obtain rfl : row' = row := eq_of_reachedRows hrow' hrow
      (congrArg ServingRelationshipEvidence.relationshipFactId heq)
    exact hend'
  · -- the rows that start at the symbol are the same, so the others are as many
    have hfetch : truth.catalogue.facts.relationshipFact.rows.length ≤ n + 1 := by omega
    rw [length_side hfetch, length_side hfetch, length_side hfetch, length_side hfetch] at hexamined
    have hlength := length_reachedRows truth gid
    have hout := List.countP_le_length (l := reachedRows truth gid) (p := fun row =>
      decide (row.1.relationshipType ∈ readTypes) && truthEnd false key row)
    have hin := List.countP_le_length (l := reachedRows truth gid) (p := fun row =>
      decide (row.1.relationshipType ∈ readTypes) && truthEnd true key row)
    have hin' := List.countP_le_length (l := reachedRows truth gid) (p := fun row =>
      decide (row.1.relationshipType ∈ readTypes) && edgeEnd true key row)
    have hsame : ((reachedRows truth gid).countP fun row =>
        decide (row.1.relationshipType ∈ readTypes) && edgeEnd false key row) =
        (reachedRows truth gid).countP fun row =>
          decide (row.1.relationshipType ∈ readTypes) && truthEnd false key row := rfl
    unfold saturatingAdd at hexamined
    omega

/-- Both sides show the same state of a row that the truth reads. -/
lemma states_agree {row : ResolvedRow} (hrow : row ∈ reachedRows truth gid)
    (htype : row.1.relationshipType ∈ readTypes) {inbound : Bool} {key : String}
    (hend : truthEnd inbound key row = true) :
    (truthTargetOf row).1 = (edgeTargetOf row).1 :=
  congrArg ServingRelationshipEvidence.resolutionState
    (((sides_agree h hp hsize hagree key).1 row hrow htype).2 ⟨inbound, hend⟩)

/-- What is resolved to a symbol has the kind of one. -/
lemma symbol_of_agree {row : ResolvedRow} (hrow : row ∈ reachedRows truth gid)
    (htype : row.1.relationshipType ∈ readTypes) {r : RelationshipResolution} {v : String}
    (hr : row.2 = some r) (hstatus : r.status = .resolvedSymbol)
    (hvalue : r.resolvedRefValue = some v) : r.resolvedRefKind = some "symbol" := by
  have hedge : edgeEnd true v row = true := edgeEnd_inbound.mpr ⟨r, hr, hstatus, hvalue⟩
  obtain ⟨inbound, hend⟩ :=
    ((sides_agree h hp hsize hagree v).1 row hrow htype).1.mpr ⟨true, hedge⟩
  have hstate := states_agree h hp hsize hagree hrow htype hend
  by_contra hkind
  simp [truthTargetOf, edgeTargetOf, projectedTarget, edgeTarget, hr, hstatus, hvalue, hkind]
    at hstate

/-- What is not resolved to a symbol does not have the kind of one. -/
lemma not_symbol_of_agree {row : ResolvedRow} (hrow : row ∈ reachedRows truth gid)
    (htype : row.1.relationshipType ∈ readTypes) {r : RelationshipResolution}
    (hr : row.2 = some r) (hstatus : r.status ≠ .resolvedSymbol) :
    ¬ (r.resolvedRefKind = some "symbol" ∧ r.resolvedRefValue ≠ none) := by
  rintro ⟨hkind, hvalue⟩
  obtain ⟨v, hvalue⟩ := Option.ne_none_iff_exists'.mp hvalue
  have htruth : truthEnd true v row = true := truthEnd_inbound.mpr ⟨r, hr, hkind, hvalue⟩
  -- every edge that ends at the symbol is a row of the truth, and they are as many
  have himp : ∀ g ∈ reachedRows truth gid,
      (decide (g.1.relationshipType ∈ readTypes) && edgeEnd true v g) = true →
        (decide (g.1.relationshipType ∈ readTypes) && truthEnd true v g) = true := by
    intro g hg hcond
    obtain ⟨hgtype, hend⟩ := Bool.and_eq_true_iff.mp hcond
    obtain ⟨r', hr', hstatus', hvalue'⟩ := edgeEnd_inbound.mp hend
    have hkind' := symbol_of_agree h hp hsize hagree hg (of_decide_eq_true hgtype) hr' hstatus'
      hvalue'
    exact Bool.and_eq_true_iff.mpr ⟨hgtype, truthEnd_inbound.mpr ⟨r', hr', hkind', hvalue'⟩⟩
  have hedge := imp_of_countP_eq (sides_agree h hp hsize hagree v).2 himp row hrow
    (Bool.and_eq_true_iff.mpr ⟨decide_eq_true htype, htruth⟩)
  obtain ⟨r', hr', hstatus', -⟩ := edgeEnd_inbound.mp (Bool.and_eq_true_iff.mp hedge).2
  obtain rfl : r' = r := Option.some.inj (hr'.symm.trans hr)
  exact hstatus hstatus'

/-- **Sides that agree are coherent.** -/
theorem coherent_of_agree : Coherent truth gid := by
  intro row hrow htype hseen r hr
  unfold KindAgrees
  cases hstatus : r.status with
  | resolvedSymbol =>
    cases hvalue : r.resolvedRefValue with
    | some v =>
      exact ⟨symbol_of_agree h hp hsize hagree hrow htype hr hstatus hvalue, by simp⟩
    | none =>
      -- the row starts at a symbol, and the truth has it as invalid there
      exfalso
      rcases hseen with hsource | ⟨r', hr', hne, -⟩
      · have hend : truthEnd false row.1.sourceRefValue row = true := decide_eq_true ⟨hsource, rfl⟩
        have hstate := states_agree h hp hsize hagree hrow htype hend
        simp [truthTargetOf, edgeTargetOf, projectedTarget, edgeTarget, hr, hstatus, hvalue]
          at hstate
      · obtain rfl : r' = r := Option.some.inj (hr'.symm.trans hr)
        exact hne hvalue
  | resolvedFile =>
    have hend : ∃ inbound key, truthEnd inbound key row = true := by
      rcases hseen with hsource | ⟨r', hr', hne, hkind | hsymbol⟩
      · exact ⟨false, row.1.sourceRefValue, decide_eq_true ⟨hsource, rfl⟩⟩
      · obtain ⟨v, hv⟩ := Option.ne_none_iff_exists'.mp hne
        exact ⟨true, v, truthEnd_inbound.mpr ⟨r', hr', hkind, hv⟩⟩
      · obtain rfl : r' = r := Option.some.inj (hr'.symm.trans hr)
        exact absurd (hstatus.symm.trans hsymbol) (by simp)
    obtain ⟨inbound, key, hend⟩ := hend
    have hstate := states_agree h hp hsize hagree hrow htype hend
    cases hvalue : r.resolvedRefValue with
    | none =>
      simp [truthTargetOf, edgeTargetOf, projectedTarget, edgeTarget, hr, hstatus, hvalue]
        at hstate
    | some v =>
      refine ⟨?_, by simp⟩
      by_contra hkind
      simp [truthTargetOf, edgeTargetOf, projectedTarget, edgeTarget, hr, hstatus, hvalue, hkind]
        at hstate
  | external => exact not_symbol_of_agree h hp hsize hagree hrow htype hr (by simp [hstatus])
  | ambiguous => exact not_symbol_of_agree h hp hsize hagree hrow htype hr (by simp [hstatus])
  | unresolved => exact not_symbol_of_agree h hp hsize hagree hrow htype hr (by simp [hstatus])
  | invalid => exact not_symbol_of_agree h hp hsize hagree hrow htype hr (by simp [hstatus])
  | stale => exact not_symbol_of_agree h hp hsize hagree hrow htype hr (by simp [hstatus])

end Converse

/-- The resolver writes coherent resolutions. -/
lemma coherent_of_written {truth : Truth} {gid : String}
    (hw : Counts.WrittenByResolver truth.catalogue.facts truth.resolutions gid) :
    Coherent truth gid := by
  intro row hrow _ _ r hr
  obtain ⟨-, -, hres⟩ := mem_reachedRows.mp hrow
  obtain ⟨hmem, hgid, -⟩ := (resolutionOf_eq_some hw.onePolicy).mp (hres.symm.trans hr)
  obtain ⟨f, -, -, u, ws, now, -, rfl⟩ := hw r hmem hgid
  exact kindAgrees_outcome

/-! ## The reader -/

/-- A call of the reader. -/
inductive ReaderCall where
  | symbol (key : String) (rowBound : ℕ)
  | relationships (key : String) (rowLimit : ℕ) (filter : RelationshipReadFilter)

/-- The reader after a call; one that fails leaves it as it was. -/
def call (truth : Truth) (p : ServingPlane) (reader : ServingReader) : ReaderCall → ServingReader
  | .symbol key rowBound => (reader.symbol truth p key rowBound).2
  | .relationships key rowLimit filter =>
    match reader.relationships truth p key rowLimit filter with
    | .ok (_, reader') => reader'
    | .error _ => reader

/-- The reader reads the projection, if any, and has found no mismatch. -/
structure Matching (reader : ServingReader) (gid sgid : String) : Prop where
  generation : reader.generationId = gid
  projection : ∀ id, reader.servingGenerationId = some id → id = sgid
  no_mismatch : reader.validationMismatch = false

section Reader

variable {H : Hasher} {truth : Truth} {p : ServingPlane} {reader : ServingReader}
  {ws gid sgid key : String}

/-- **Fail closed**: the slice that is answered is that of the truth. -/
lemma relationships_answer (n : ℕ) (filter : RelationshipReadFilter) {slice : ServingRelationshipSlice}
    {reader' : ServingReader}
    (h : reader.relationships truth p key n filter = .ok (slice, reader')) :
    if n = 0 then slice = ⟨[], false⟩ else
      ∃ examined, truthRelationshipEvidence truth reader.generationId key n filter =
        .ok ⟨slice, examined⟩ := by
  unfold ServingReader.relationships at h
  split at h
  next hn =>
    rw [if_pos hn]
    exact (Prod.mk.inj (Except.ok.inj h)).1.symm
  next hn =>
    rw [if_neg hn]
    obtain ⟨read, hread, h⟩ := bind_ok.mp h
    refine ⟨read.examined, ?_⟩
    have hslice : slice = read.slice := by
      dsimp only at h
      split at h
      next => exact (Prod.mk.inj (Except.ok.inj h)).1.symm
      next =>
        obtain ⟨projection, -, h⟩ := bind_ok.mp h
        split at h
        next => exact (Prod.mk.inj (Except.ok.inj h)).1.symm
        next heq =>
          rw [← not_not.mp heq]
          exact (Prod.mk.inj (Except.ok.inj h)).1.symm
    rw [hread, hslice]

/-- A reader of a projection that agrees with the truth finds no mismatch. -/
lemma Matching.symbol (hm : Matching reader gid sgid)
    (hsymbol : ∀ key, projectedSymbolEvidence truth.catalogue p gid sgid key =
      truthSymbolEvidence truth.catalogue gid key) (n : ℕ) :
    Matching (reader.symbol truth p key n).2 gid sgid := by
  obtain ⟨hgid, hprojection, hno⟩ := hm
  unfold ServingReader.symbol
  split
  · exact ⟨hgid, hprojection, hno⟩
  · cases hid : reader.servingGenerationId with
    | none =>
      simp only [ServingReader.addSymbolTruthRows, hid]
      exact ⟨hgid, by simp, hno⟩
    | some id =>
      obtain rfl := hprojection id hid
      simp only [ServingReader.addSymbolTruthRows, ServingReader.addSymbolProjectionRows, hid, hgid,
        hsymbol, ne_eq, not_true_eq_false, if_false]
      exact ⟨rfl, fun id' h => (Option.some.inj h).symm, hno⟩

lemma Matching.relationships (hm : Matching reader gid sgid) (n : ℕ)
    (filter : RelationshipReadFilter)
    (hagree : projectedRelationshipEvidence truth.catalogue p sgid key n filter =
      truthRelationshipEvidence truth gid key n filter)
    {slice : ServingRelationshipSlice} {reader' : ServingReader}
    (h : reader.relationships truth p key n filter = .ok (slice, reader')) :
    Matching reader' gid sgid := by
  obtain ⟨hgid, hprojection, hno⟩ := hm
  unfold ServingReader.relationships at h
  split at h
  next =>
    obtain rfl := (Prod.mk.inj (Except.ok.inj h)).2
    exact ⟨hgid, hprojection, hno⟩
  next =>
    obtain ⟨read, hread, h⟩ := bind_ok.mp h
    dsimp only [ServingReader.addRelationshipTruthRows] at h
    cases hid : reader.servingGenerationId with
    | none =>
      rw [hid] at h
      obtain rfl := (Prod.mk.inj (Except.ok.inj h)).2
      exact ⟨hgid, by simp, hno⟩
    | some id =>
      obtain rfl := hprojection id hid
      rw [hid] at h
      obtain ⟨projection, hproj, h⟩ := bind_ok.mp h
      -- both sides have read the same
      obtain rfl : projection = read := by
        rw [hagree, ← hgid, hread] at hproj
        exact (Except.ok.inj hproj).symm
      rw [if_neg (by simp)] at h
      obtain rfl := (Prod.mk.inj (Except.ok.inj h)).2
      exact ⟨hgid, fun id' h => (Option.some.inj h).symm, hno⟩

/-- **No mismatch** over any sequence of calls. -/
lemma Matching.calls (hm : Matching reader gid sgid)
    (hsymbol : ∀ key, projectedSymbolEvidence truth.catalogue p gid sgid key =
      truthSymbolEvidence truth.catalogue gid key)
    (hagree : ∀ key n filter, projectedRelationshipEvidence truth.catalogue p sgid key n filter =
      truthRelationshipEvidence truth gid key n filter) (calls : List ReaderCall) :
    Matching (calls.foldl (call truth p) reader) gid sgid := by
  induction calls generalizing reader with
  | nil => exact hm
  | cons c calls ih =>
    refine ih ?_
    cases c with
    | symbol key n => exact hm.symbol hsymbol n
    | relationships key n filter =>
      simp only [call]
      split
      next slice reader' hres => exact hm.relationships n filter (hagree key n filter) hres
      next => exact hm

/-- A reader of a generation that was projected starts without a mismatch. -/
lemma matching_new
    (hp : Projected H truth p ws gid servingSchemaVersion projectionPolicyVersion sgid)
    (allowServing : Bool) (examinations : ServingReadExaminations) :
    Matching (ServingReader.new p ws gid allowServing examinations) gid sgid := by
  refine ⟨rfl, fun id hid => ?_, rfl⟩
  cases allowServing with
  | false => simp [ServingReader.new] at hid
  | true =>
    obtain ⟨g, hg, hsgid, hready, hidentity⟩ := hp.ready
    have hfind : readyServingGenerationId p ws gid = some id := by
      simpa [ServingReader.new] using hid
    obtain ⟨g', hg', rfl⟩ := Option.map_eq_some_iff.mp hfind
    have hmatch := Table.find?_some hg'
    rw [decide_eq_true_eq] at hmatch
    rw [← hsgid, Table.eq_of_clash (Table.mem_of_find? hg') hg
      (Or.inr (hmatch.1.trans hidentity.symm))]

end Reader

/-! ## The statement -/

/-- What holds of a projection and the truth that it was built from. -/
structure ReadsAgree (truth : Truth) (p : ServingPlane) (ws gid sgid : String) : Prop where
  symbols : ∀ key, projectedSymbolEvidence truth.catalogue p gid sgid key =
    truthSymbolEvidence truth.catalogue gid key
  slices : Coherent truth gid → ∀ key rowLimit filter,
    projectedRelationshipEvidence truth.catalogue p sgid key rowLimit filter =
      truthRelationshipEvidence truth gid key rowLimit filter
  no_mismatch : Coherent truth gid → ∀ allowServing examinations (calls : List ReaderCall),
    (calls.foldl (call truth p) (.new p ws gid allowServing examinations)).validationMismatch =
      false
  only_coherent : 2 * truth.catalogue.facts.relationshipFact.rows.length + 1 < 2 ^ 63 →
    (∀ key rowLimit filter,
      projectedRelationshipEvidence truth.catalogue p sgid key rowLimit filter =
        truthRelationshipEvidence truth gid key rowLimit filter) → Coherent truth gid
  fail_closed : ∀ (reader : ServingReader) key rowLimit filter slice reader', 0 < rowLimit →
    reader.relationships truth p key rowLimit filter = .ok (slice, reader') →
      ∃ examined, truthRelationshipEvidence truth reader.generationId key rowLimit filter =
        .ok ⟨slice, examined⟩

/-- The reference is resolved to the symbol with the kind of a path. -/
def oneContradiction : Truth where
  catalogue := oneFile
  resolutions := Table.empty.insertOrIgnore ⟨"ws", "g", "rf", resolverPolicyVersion,
    .resolvedSymbol, some "path", some "scip:s", "exact_canonical_symbol", [], 1, 0⟩
  effectFact := .empty
  evidenceConflict := .empty
  coverageRecord := .empty

/-- The generation with one file can be served. -/
lemma oneFile_servable {truth : Truth} (hc : truth.catalogue = oneFile)
    (hpolicy : OnePolicy truth.resolutions "g") : Servable truth "ws" "g" := by
  have hactive : activeGeneration? oneFile "ws" = some "g" := by decide
  have hws : ∀ w ∈ oneFile.workspace.rows, w.activeGenerationId = some "g" →
      w.workspaceId = "ws" := by decide
  have hcommitted : ∃ g ∈ oneFile.indexGeneration.rows, g.generationId = "g" ∧
      g.state = .committed := by decide
  have hpresent : ∀ gf ∈ oneFile.generationFile.rows, gf.generationId = "g" →
      gf.revisionId ≠ none → gf.presenceState = .present := by decide
  have honce : ∀ gf ∈ oneFile.generationFile.rows, ∀ gf' ∈ oneFile.generationFile.rows,
      gf = gf' := by decide
  have hstored : ∀ gf ∈ oneFile.generationFile.rows, ∃ fr ∈ oneFile.fileRevision.rows,
      gf.revisionId = some fr.revisionId := by decide
  have hsymbols : ∀ sf ∈ oneFile.facts.symbolFact.rows, ∃ er ∈ oneFile.facts.extractorRun.rows,
      er.extractorRunId = sf.extractorRunId := by decide
  have hrelationships : ∀ f ∈ oneFile.facts.relationshipFact.rows,
      ∃ r ∈ oneFile.facts.extractorRun.rows, r.extractorRunId = f.extractorRunId := by
    decide
  rw [← hc] at hactive hws hcommitted hpresent honce hstored hsymbols hrelationships
  refine ⟨hactive, hws, hcommitted, hpresent, fun gf hgf gf' hgf' _ _ _ _ => honce gf hgf gf' hgf',
    fun gf hgf _ rid hrid => ?_, hsymbols, hrelationships, hpolicy⟩
  obtain ⟨fr, hfr, heq⟩ := hstored gf hgf
  exact ⟨fr, hfr, Option.some.inj (heq.symm.trans hrid)⟩

lemma oneContradiction_servable : Servable oneContradiction "ws" "g" := by
  have hpolicy : ∀ r ∈ oneContradiction.resolutions.rows, r.generationId = "g" →
      r.resolverPolicyVersion = resolverPolicyVersion := by decide
  exact oneFile_servable rfl hpolicy

end Agreement

end WorkspaceAtlas
