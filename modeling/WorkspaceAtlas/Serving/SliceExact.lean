/-
# What a slice has

`merge_relationship_slices`: both directions are cut off one row behind the limit, merged, and cut
off at the limit.  A slice has the first facts of both directions as they were before any cut, as
long as no direction has two rows of one fact: those take up places of the cut and are then merged.
-/
import WorkspaceAtlas.Relational.Merge
import WorkspaceAtlas.Serving.Slices

namespace WorkspaceAtlas

open Relational

/-- The order of a slice: what is resolved comes first, then the fact decides. -/
def ServingRelationshipEvidence.readOrder (e : ServingRelationshipEvidence) : ℕ ×ₗ String :=
  toLex (relationshipReadPriority e.resolutionState, e.relationshipFactId)

/-- The facts that rows are evidence of. -/
def factsOf (rows : List ServingRelationshipEvidence) : Finset String :=
  (rows.map ServingRelationshipEvidence.relationshipFactId).toFinset

/-- The rows of one direction before they are cut off: sorted, and one for each fact. -/
structure ReadSide (rows : List ServingRelationshipEvidence) : Prop where
  sorted : rows.Pairwise fun a b => a.readOrder ≤ b.readOrder
  once : (rows.map ServingRelationshipEvidence.relationshipFactId).Nodup

/-- The slice has the first `n` distinct facts of the rows, and says whether there are more. -/
structure ExactSlice (rows : List ServingRelationshipEvidence) (n : ℕ)
    (slice : ServingRelationshipSlice) : Prop where
  drawn : ∀ e ∈ slice.rows, e ∈ rows
  ordered : slice.rows.Pairwise fun a b => a.readOrder < b.readOrder
  once : (slice.rows.map ServingRelationshipEvidence.relationshipFactId).Nodup
  count : slice.rows.length = min n (factsOf rows).card
  first : ∀ e ∈ slice.rows, ∀ f ∈ rows, f.relationshipFactId ∉ factsOf slice.rows →
    e.readOrder < f.readOrder
  truncated : slice.truncated = true ↔ n < (factsOf rows).card

section Merge

variable {rows rows' source target : List ServingRelationshipEvidence}
  {e f : ServingRelationshipEvidence} {n : ℕ} {slice : ServingRelationshipSlice}

lemma mem_factsOf {id : String} : id ∈ factsOf rows ↔ ∃ e ∈ rows, e.relationshipFactId = id := by
  rw [factsOf, List.mem_toFinset, List.mem_map]

lemma id_of_readOrder (h : e.readOrder = f.readOrder) :
    e.relationshipFactId = f.relationshipFactId :=
  congrArg Prod.snd (toLex.injective h)

/-- A direction is strictly sorted. -/
lemma ReadSide.strict (h : ReadSide rows) :
    rows.Pairwise fun a b => a.readOrder < b.readOrder :=
  h.sorted.imp₂ (fun _ _ hle hne => hle.lt_of_ne fun heq => hne (id_of_readOrder heq))
    (List.pairwise_map.mp h.once)

lemma ReadSide.eq_of_id (h : ReadSide rows) (he : e ∈ rows) (hf : f ∈ rows)
    (hid : e.relationshipFactId = f.relationshipFactId) : e = f :=
  List.inj_on_of_nodup_map h.once he hf hid

/-- Only the rows count, not how they are put together. -/
lemma ExactSlice.congr (h : ExactSlice rows n slice) (hrows : ∀ e, e ∈ rows ↔ e ∈ rows') :
    ExactSlice rows' n slice := by
  have hfacts : factsOf rows = factsOf rows' := by
    ext id
    simp only [mem_factsOf, hrows]
  exact ⟨fun e he => (hrows e).mp (h.drawn e he), h.ordered, h.once, hfacts ▸ h.count,
    fun e he f hf => h.first e he f ((hrows f).mpr hf), hfacts ▸ h.truncated⟩

/-- The first rows of a strictly sorted list that has one row for each fact. -/
lemma exactSlice_take (hsorted : rows'.Pairwise fun a b => a.readOrder < b.readOrder)
    (honce : (rows'.map ServingRelationshipEvidence.relationshipFactId).Nodup)
    (hdrawn : ∀ e ∈ rows', e ∈ rows) (hkeys : ∀ f ∈ rows, ∃ e ∈ rows', e.readOrder = f.readOrder) :
    ExactSlice rows n ⟨rows'.take n, n < rows'.length⟩ := by
  have hfacts : factsOf rows = factsOf rows' := by
    ext id
    rw [mem_factsOf, mem_factsOf]
    constructor
    · rintro ⟨f, hf, rfl⟩
      obtain ⟨e, he, horder⟩ := hkeys f hf
      exact ⟨e, he, id_of_readOrder horder⟩
    · rintro ⟨e, he, rfl⟩
      exact ⟨e, hdrawn e he, rfl⟩
  have hcard : (factsOf rows).card = rows'.length := by
    rw [hfacts, factsOf, List.toFinset_card_of_nodup honce, List.length_map]
  refine ⟨fun e he => hdrawn e (List.mem_of_mem_take he), hsorted.sublist (List.take_sublist _ _),
    honce.sublist ((List.take_sublist _ _).map _), ?_, fun e he f hf hnot => ?_, ?_⟩
  · rw [List.length_take, hcard]
  · obtain ⟨g, hg, horder⟩ := hkeys f hf
    have hsplit := List.take_append_drop n rows'
    rw [← hsplit] at hg hsorted
    rcases List.mem_append.mp hg with hg | hg
    · exact absurd (mem_factsOf.mpr ⟨g, hg, id_of_readOrder horder⟩) hnot
    · rw [← horder]
      exact (List.pairwise_append.mp hsorted).2.2 e he g hg
  · rw [hcard]
    exact decide_eq_true_iff

/-- Two sides that agree on the state of a fact that both have tell facts apart by their order. -/
lemma id_iff_readOrder (hsource : ReadSide source) (htarget : ReadSide target)
    (hstate : ∀ a ∈ source, ∀ b ∈ target, a.relationshipFactId = b.relationshipFactId →
      relationshipReadPriority a.resolutionState = relationshipReadPriority b.resolutionState) :
    ∀ a ∈ source ++ target, ∀ b ∈ source ++ target,
      a.relationshipFactId = b.relationshipFactId ↔ a.readOrder = b.readOrder := by
  refine fun a ha b hb => ⟨fun h => ?_, id_of_readOrder⟩
  rcases List.mem_append.mp ha with ha | ha <;> rcases List.mem_append.mp hb with hb | hb
  · rw [hsource.eq_of_id ha hb h]
  · rw [ServingRelationshipEvidence.readOrder, hstate a ha b hb h, h]
    rfl
  · rw [ServingRelationshipEvidence.readOrder, ← hstate b hb a ha h.symm, h]
    rfl
  · rw [htarget.eq_of_id ha hb h]

/-- The row behind the limit is enough: what is cut off on a side would be cut off anyway. -/
lemma mergeRelationshipSlices_take (hsource : ReadSide source) (htarget : ReadSide target)
    (hid : ∀ a ∈ source ++ target, ∀ b ∈ source ++ target,
      a.relationshipFactId = b.relationshipFactId ↔ a.readOrder = b.readOrder) :
    mergeRelationshipSlices (source.take (n + 1)) (target.take (n + 1)) n =
      ⟨(merge ServingRelationshipEvidence.readOrder source target).take n,
        n < (merge ServingRelationshipEvidence.readOrder source target).length⟩ := by
  have hcut : ∀ {l : List ServingRelationshipEvidence} {a}, a ∈ l.take (n + 1) → a ∈ l :=
    List.mem_of_mem_take
  have hsides : ∀ a ∈ source.take (n + 1) ++ target.take (n + 1), a ∈ source ++ target :=
    fun a ha => List.mem_append.mpr ((List.mem_append.mp ha).imp hcut hcut)
  have hrows := firsts_orderBy_eq_merge
    (hsource.strict.sublist (List.take_sublist (n + 1) _))
    (htarget.strict.sublist (List.take_sublist (n + 1) _))
    fun a ha b hb => hid a (hsides a ha) b (hsides b hb)
  -- a row of the merge is at least as far behind on its own side
  have hfirst : ∀ i ≤ n + 1, (merge ServingRelationshipEvidence.readOrder (source.take (n + 1))
      (target.take (n + 1))).take i =
        (merge ServingRelationshipEvidence.readOrder source target).take i :=
    fun i hi => take_merge hi hi
  -- the row behind the limit is there if and only if it is there without the cuts
  have hsentinel := congrArg List.length (hfirst (n + 1) (Nat.le_refl _))
  rw [List.length_take, List.length_take] at hsentinel
  rw [mergeRelationshipSlices]
  change ServingRelationshipSlice.mk (List.take n (firsts _ none (orderBy
    ServingRelationshipEvidence.readOrder _))) (decide (n < (firsts _ none (orderBy
    ServingRelationshipEvidence.readOrder _)).length)) = _
  rw [hrows, hfirst n (Nat.le_succ n), ServingRelationshipSlice.mk.injEq]
  refine ⟨rfl, decide_eq_decide.mpr ?_⟩
  omega

/-- The first rows of both sides merged. -/
lemma exactSlice_merge (hsource : ReadSide source) (htarget : ReadSide target)
    (hid : ∀ a ∈ source ++ target, ∀ b ∈ source ++ target,
      a.relationshipFactId = b.relationshipFactId ↔ a.readOrder = b.readOrder) :
    ExactSlice (source ++ target) n
      ⟨(merge ServingRelationshipEvidence.readOrder source target).take n,
        n < (merge ServingRelationshipEvidence.readOrder source target).length⟩ := by
  have hstrict := pairwise_merge hsource.strict htarget.strict
  refine exactSlice_take hstrict ?_ (fun e he => List.mem_append.mpr (mem_merge he))
    fun f hf => ?_
  · refine List.pairwise_map.mpr (hstrict.imp_of_mem fun {a b} ha hb hlt heq => ?_)
    exact hlt.ne ((hid a (List.mem_append.mpr (mem_merge ha)) b
      (List.mem_append.mpr (mem_merge hb))).mp heq)
  · have hfound := find?_merge (k := f.readOrder) hsource.strict htarget.strict
    have hsome : ((source ++ target).find? fun a => a.readOrder = f.readOrder).isSome :=
      List.find?_isSome.mpr ⟨f, hf, by simp⟩
    rw [← hfound] at hsome
    obtain ⟨e, he⟩ := Option.isSome_iff_exists.mp hsome
    exact ⟨e, List.mem_of_find?_eq_some he, by simpa using List.find?_some he⟩

/-- **Slices are exact.** -/
theorem mergeRelationshipSlices_exact (source target : List ServingRelationshipEvidence) (n : ℕ)
    (hsource : ReadSide source) (htarget : ReadSide target)
    (hstate : ∀ a ∈ source, ∀ b ∈ target, a.relationshipFactId = b.relationshipFactId →
      relationshipReadPriority a.resolutionState = relationshipReadPriority b.resolutionState) :
    ExactSlice (source ++ target) n
      (mergeRelationshipSlices (source.take (n + 1)) (target.take (n + 1)) n) := by
  have hid := id_iff_readOrder hsource htarget hstate
  rw [mergeRelationshipSlices_take hsource htarget hid]
  exact exactSlice_merge hsource htarget hid

end Merge

/-- A call of the symbol `s`. -/
def callOf (id target : String) (status : ResolutionStatus) : ServingRelationshipEvidence where
  relationshipFactId := id
  sourceEntityId := "symbol:s"
  targetEntityId := target
  rawTargetRefKind := .symbol
  rawTargetRefValue := target
  relationshipType := .calls
  resolutionState := status
  confidence := 1

theorem mergeRelationshipSlices_exact_recursive :
    ExactSlice
      ([callOf "b" "symbol:s" .resolvedSymbol, callOf "a" "x" .unresolved] ++
        [callOf "b" "symbol:s" .resolvedSymbol]) 1
      (mergeRelationshipSlices
        [callOf "b" "symbol:s" .resolvedSymbol, callOf "a" "x" .unresolved]
        [callOf "b" "symbol:s" .resolvedSymbol] 1) :=
  mergeRelationshipSlices_exact
    [callOf "b" "symbol:s" .resolvedSymbol, callOf "a" "x" .unresolved]
    [callOf "b" "symbol:s" .resolvedSymbol] 1 ⟨by decide, by decide⟩ ⟨by decide, by decide⟩
    (by decide)

/-- A fact that a direction has twice takes the place of the row behind the limit. -/
theorem mergeRelationshipSlices_repeated : ¬ ExactSlice
    ([callOf "a" "x" .unresolved, callOf "a" "x" .unresolved, callOf "b" "x" .unresolved] ++ []) 1
    (mergeRelationshipSlices
      ([callOf "a" "x" .unresolved, callOf "a" "x" .unresolved,
        callOf "b" "x" .unresolved].take 2) (([] : List ServingRelationshipEvidence).take 2) 1) := by
  intro h
  have hmore : 1 < (factsOf ([callOf "a" "x" .unresolved, callOf "a" "x" .unresolved,
      callOf "b" "x" .unresolved] ++ [])).card := by decide
  exact absurd (h.truncated.mpr hmore) (by decide)

/-! ## The reader of the truth -/

namespace Agreement

section Truth

variable {truth : Truth} {ws gid key : String} {filter : RelationshipReadFilter} {inbound : Bool}
  {n : ℕ} {row : ResolvedRow}

/-- The evidence that a direction of the truth has in all. -/
def adjacentEvidence (truth : Truth) (gid key : String) (inbound : Bool)
    (filter : RelationshipReadFilter) : List ServingRelationshipEvidence :=
  ((reachedRows truth gid).filter fun row =>
    filter.reads inbound row.1.relationshipType && truthEnd inbound key row).map
      mapTruthRelationshipEvidence

/-- The rows of a direction are sorted by the order that the slice has. -/
lemma truthOrder_eq_readOrder (h : ∀ r, row.2 = some r → KindAgrees r) :
    truthOrder row = (mapTruthRelationshipEvidence row).readOrder := by
  rw [KindAgrees.order_eq h, KindAgrees.evidence_eq h]
  rfl

lemma kindAgrees_of_read (hcoherent : Coherent truth gid) (hrow : row ∈ reachedRows truth gid)
    (hread : (filter.reads inbound row.1.relationshipType && truthEnd inbound key row) = true) :
    ∀ r, row.2 = some r → KindAgrees r := by
  obtain ⟨hreads, hend⟩ := Bool.and_eq_true_iff.mp hread
  exact hcoherent row hrow (mem_readTypes_of_reads hreads) (seen_of_end (.inl hend))

/-- The evidence of a direction in the order in which it is read. -/
abbrev readEvidence (truth : Truth) (gid key : String) (inbound : Bool)
    (filter : RelationshipReadFilter) : List ServingRelationshipEvidence :=
  (orderBy truthOrder ((reachedRows truth gid).filter fun row =>
    filter.reads inbound row.1.relationshipType && truthEnd inbound key row)).map
      mapTruthRelationshipEvidence

/-- A direction of the truth is sorted and has one row for each fact. -/
lemma readSide_truth (inbound : Bool) (hcoherent : Coherent truth gid) :
    ReadSide (readEvidence truth gid key inbound filter) := by
  constructor
  · refine List.pairwise_map.mpr (pairwise_orderBy.imp_of_mem fun {a b} ha hb hle => ?_)
    obtain ⟨ha, hread⟩ := List.mem_filter.mp (mem_orderBy.mp ha)
    obtain ⟨hb, hread'⟩ := List.mem_filter.mp (mem_orderBy.mp hb)
    rwa [← truthOrder_eq_readOrder (kindAgrees_of_read hcoherent ha hread),
      ← truthOrder_eq_readOrder (kindAgrees_of_read hcoherent hb hread')]
  · have hrows : (reachedRows truth gid).Pairwise fun a b =>
        a.1.relationshipFactId ≠ b.1.relationshipFactId :=
      List.pairwise_map.mpr ((truth.catalogue.facts.relationshipFact.unique.filter _).imp
        fun hclash hid => hclash hid)
    rw [List.map_map]
    refine (List.Perm.map _ perm_orderBy).nodup_iff.mpr ?_
    exact List.pairwise_map.mpr (hrows.filter _)

/-- Both directions have the same evidence of a fact. -/
lemma state_truth :
    ∀ a ∈ readEvidence truth gid key false filter, ∀ b ∈ readEvidence truth gid key true filter,
      a.relationshipFactId = b.relationshipFactId →
        relationshipReadPriority a.resolutionState =
          relationshipReadPriority b.resolutionState := by
  intro a ha b hb hid
  obtain ⟨row, hrow, rfl⟩ := List.mem_map.mp ha
  obtain ⟨row', hrow', rfl⟩ := List.mem_map.mp hb
  rw [eq_of_reachedRows (List.mem_filter.mp (mem_orderBy.mp hrow)).1
    (List.mem_filter.mp (mem_orderBy.mp hrow')).1 hid]

/-- The reference is not resolved. -/
def oneUnresolved : Truth where
  catalogue := oneFile
  resolutions := .empty
  effectFact := .empty
  evidenceConflict := .empty
  coverageRecord := .empty

end Truth

end Agreement

end WorkspaceAtlas
