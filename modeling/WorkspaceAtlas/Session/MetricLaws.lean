/-
# The algebra of context yield

What `derive_context_metrics` returns depends on the supplied, reported and changed evidence as
sets and on the reads as a multiset, and it returns an error for three reasons only.
-/
import WorkspaceAtlas.Session.Metrics

namespace WorkspaceAtlas

open Relational Transition

namespace ContextMetricEvidence

variable {e e' : ContextMetricEvidence} {m m' : ContextMetrics}
  {bytes bytes' : SortedMap CanonicalEvidenceId ℕ}

/-- How many records the evidence has. -/
def records (e : ContextMetricEvidence) : ℕ :=
  e.supplied.length + e.reads.length + e.reported.length + e.changed.length

/-- Two supplied entries of one identity disagree on their bytes. -/
def Conflicts (e : ContextMetricEvidence) : Prop :=
  ∃ a ∈ e.supplied, ∃ b ∈ e.supplied,
    a.identity = b.identity ∧ a.exactSourceBytes ≠ b.exactSourceBytes

/-- The supplied identities. -/
def suppliedIds (e : ContextMetricEvidence) : Finset CanonicalEvidenceId :=
  (e.supplied.map SuppliedEvidence.identity).toFinset

/-- The observed identities. -/
def observedIds (e : ContextMetricEvidence) : Finset CanonicalEvidenceId :=
  (e.reads.map ObservedEvidence.identity).toFinset

/-- The bytes of an identity, as its first supplied entry has them. -/
def bytesOf (e : ContextMetricEvidence) (identity : CanonicalEvidenceId) : ℕ :=
  ((e.supplied.find? fun item => item.identity = identity).map
    SuppliedEvidence.exactSourceBytes).getD 0

/-- The bytes of all supplied identities, each counted once. -/
def suppliedByteSum (e : ContextMetricEvidence) : ℕ := ∑ i ∈ e.suppliedIds, e.bytesOf i

/-! ## The map of the supplied bytes -/

/-- The entries of a map are the supplied entries. -/
def Tabulates (e : ContextMetricEvidence) (bytes : SortedMap CanonicalEvidenceId ℕ) : Prop :=
  ∀ identity n, bytes.get identity = some n ↔ ⟨identity, n⟩ ∈ e.supplied

/-- One supplied entry. -/
lemma supply_ok {item : SuppliedEvidence} : supply bytes item = .ok bytes' ↔
    ∀ identity n, bytes'.get identity = some n ↔
      bytes.get identity = some n ∨ ⟨identity, n⟩ = item := by
  obtain ⟨i, k⟩ := item
  unfold supply
  cases hget : bytes.get i with
  | none =>
    have hinsert : ∀ identity n, (bytes.insert i k).get identity = some n ↔
        bytes.get identity = some n ∨ (⟨identity, n⟩ : SuppliedEvidence) = ⟨i, k⟩ := by
      intro identity n
      rw [SortedMap.get_insert]
      by_cases hi : identity = i
      · subst hi
        simp [hget, eq_comm]
      · simp [hi]
    constructor
    · intro h identity n
      rw [← Except.ok.inj h]
      exact hinsert identity n
    · intro h
      refine congrArg Except.ok (SortedMap.ext_get fun identity => Option.ext fun n => ?_)
      rw [hinsert, h]
  | some l =>
    by_cases hl : l = k
    · subst hl
      simp only [ne_eq, not_true_eq_false, if_false, Except.ok.injEq]
      have hsame : ∀ identity n, bytes.get identity = some n ↔
          bytes.get identity = some n ∨ (⟨identity, n⟩ : SuppliedEvidence) = ⟨i, l⟩ := by
        intro identity n
        rw [iff_self_or]
        rintro heq
        obtain ⟨rfl, rfl⟩ := SuppliedEvidence.mk.inj heq
        exact hget
      constructor
      · rintro rfl
        exact hsame
      · intro h
        refine SortedMap.ext_get fun identity => Option.ext fun n => ?_
        rw [hsame, h]
    · -- a map has one value for an identity
      simp only [ne_eq, hl, not_false_eq_true, if_true]
      refine iff_of_false (by simp) fun h => hl ?_
      have hold := (h i l).mpr (Or.inl hget)
      have hnew := (h i k).mpr (Or.inr rfl)
      exact Option.some.inj (hold.symm.trans hnew)

lemma supply_error {item : SuppliedEvidence} {err : ContextMetricInvalidity}
    (h : supply bytes item = .error err) :
    ∃ n, bytes.get item.identity = some n ∧ n ≠ item.exactSourceBytes := by
  unfold supply at h
  split at h
  next n hget =>
    split at h
    next hne => exact ⟨n, hget, hne⟩
    next => exact absurd h (by simp)
  next => exact absurd h (by simp)

/-- The loop over the supplied entries. -/
lemma foldlM_supply_ok {items : List SuppliedEvidence} :
    items.foldlM supply bytes = .ok bytes' ↔
      ∀ identity n, bytes'.get identity = some n ↔
        bytes.get identity = some n ∨ ⟨identity, n⟩ ∈ items := by
  induction items generalizing bytes with
  | nil =>
    constructor
    · intro h identity n
      rw [Except.ok.inj h]
      simp
    · intro h
      refine congrArg Except.ok (SortedMap.ext_get fun identity => Option.ext fun n => ?_)
      rw [h]
      simp
  | cons item items ih =>
    simp only [foldlM_cons_ok, supply_ok, ih, List.mem_cons]
    constructor
    · rintro ⟨mid, hmid, hrest⟩ identity n
      rw [hrest, hmid, or_assoc]
    · intro h
      cases hsupply : supply bytes item with
      | ok mid =>
        have hmid := supply_ok.mp hsupply
        refine ⟨mid, hmid, fun identity n => ?_⟩
        rw [h, hmid, or_assoc]
      | error err =>
        obtain ⟨l, hget, hne⟩ := supply_error hsupply
        have hold := (h item.identity l).mpr (Or.inl hget)
        have hnew := (h item.identity item.exactSourceBytes).mpr (Or.inr (Or.inl rfl))
        exact absurd (Option.some.inj (hold.symm.trans hnew)) hne

lemma tabulates_iff : e.supplied.foldlM supply .empty = .ok bytes ↔ e.Tabulates bytes := by
  rw [foldlM_supply_ok]
  simp [Tabulates]

/-- The bytes of the supplied identities can be tabulated unless they conflict. -/
lemma exists_tabulates : (∃ bytes, e.Tabulates bytes) ↔ ¬ e.Conflicts := by
  constructor
  · rintro ⟨bytes, h⟩ ⟨a, ha, b, hb, hid, hne⟩
    have hga := (h a.identity a.exactSourceBytes).mpr ha
    have hgb := (h b.identity b.exactSourceBytes).mpr hb
    rw [← hid] at hgb
    exact hne (Option.some.inj (hga.symm.trans hgb))
  · intro h
    have hinj : ∀ a ∈ e.supplied, ∀ b ∈ e.supplied, a.identity = b.identity → a = b := by
      rintro ⟨i, k⟩ ha ⟨j, l⟩ hb hid
      obtain rfl : i = j := hid
      by_cases hkl : k = l
      · rw [hkl]
      · exact absurd ⟨_, ha, _, hb, rfl, hkl⟩ h
    refine ⟨(SortedMap.collect SuppliedEvidence.identity e.supplied).mapValues
      SuppliedEvidence.exactSourceBytes, fun identity n => ?_⟩
    rw [SortedMap.get_eq_some_iff, SortedMap.mem_mapValues]
    simp only [← SortedMap.get_eq_some_iff, SortedMap.get_collect_eq_some_iff hinj]
    constructor
    · rintro ⟨item, ⟨hitem, rfl⟩, rfl⟩
      exact hitem
    · intro hitem
      exact ⟨_, ⟨hitem, rfl⟩, rfl⟩

/-- The supplied entries have one table. -/
lemma Tabulates.unique (h : e.Tabulates bytes) (h' : e.Tabulates bytes') : bytes = bytes' :=
  SortedMap.ext_get fun identity => Option.ext fun n => (h identity n).trans (h' identity n).symm

lemma Tabulates.mem_keys (h : e.Tabulates bytes) {identity : CanonicalEvidenceId} :
    identity ∈ bytes.keys ↔ identity ∈ e.suppliedIds := by
  simp only [SortedMap.keys, suppliedIds, List.mem_map, List.mem_toFinset, Prod.exists,
    exists_and_right, exists_eq_right, ← SortedMap.get_eq_some_iff, h identity]
  constructor
  · rintro ⟨n, hn⟩
    exact ⟨_, hn, rfl⟩
  · rintro ⟨item, hitem, rfl⟩
    exact ⟨_, hitem⟩

lemma Tabulates.toFinset_keys (h : e.Tabulates bytes) : bytes.keys.toFinset = e.suppliedIds :=
  Finset.ext fun identity => by rw [List.mem_toFinset, h.mem_keys]

lemma Tabulates.bytesOf (h : e.Tabulates bytes) {identity : CanonicalEvidenceId} {n : ℕ}
    (hget : bytes.get identity = some n) : e.bytesOf identity = n := by
  rw [ContextMetricEvidence.bytesOf]
  cases hfind : e.supplied.find? fun item => item.identity = identity with
  | none =>
    have := List.find?_eq_none.mp hfind _ ((h identity n).mp hget)
    simp at this
  | some item =>
    obtain rfl : item.identity = identity := by simpa using List.find?_some hfind
    have hitem := (h item.identity item.exactSourceBytes).mpr (List.mem_of_find?_eq_some hfind)
    exact Option.some.inj (hitem.symm.trans hget)

/-- The sum over the entries of a map, as a sum over its keys. -/
lemma Tabulates.sum_filter (h : e.Tabulates bytes) (p : CanonicalEvidenceId → Prop)
    [DecidablePred p] :
    ((bytes.entries.filter fun entry => p entry.1).map Prod.snd).sum =
      ∑ i ∈ e.suppliedIds.filter p, e.bytesOf i := by
  have hvalues : (bytes.entries.filter fun entry => p entry.1).map Prod.snd =
      ((bytes.entries.filter fun entry => p entry.1).map Prod.fst).map e.bytesOf := by
    rw [List.map_map]
    refine List.map_congr_left fun entry hentry => ?_
    obtain ⟨identity, n⟩ := entry
    exact (h.bytesOf (SortedMap.get_eq_some_iff.mpr (List.mem_of_mem_filter hentry))).symm
  have hnodup : ((bytes.entries.filter fun entry => p entry.1).map Prod.fst).Nodup :=
    SortedMap.pairwise_filterMap.imp ne_of_lt
  rw [hvalues, ← List.sum_toFinset _ hnodup]
  refine Finset.sum_congr (Finset.ext fun identity => ?_) fun _ _ => rfl
  rw [Finset.mem_filter, ← h.mem_keys, List.mem_toFinset, SortedMap.keys, List.mem_map,
    List.mem_map]
  simp only [List.mem_filter, decide_eq_true_eq]
  constructor
  · rintro ⟨entry, ⟨hentry, hp⟩, rfl⟩
    exact ⟨⟨entry, hentry, rfl⟩, hp⟩
  · rintro ⟨⟨entry, hentry, rfl⟩, hp⟩
    exact ⟨entry, ⟨hentry, hp⟩, rfl⟩

lemma Tabulates.sum_values (h : e.Tabulates bytes) : bytes.values.sum = e.suppliedByteSum := by
  have hsum := h.sum_filter fun _ => True
  simpa [SortedMap.values, suppliedByteSum] using hsum

/-! ## What is derived -/

/-- The metrics of evidence that is accepted. -/
def metrics (e : ContextMetricEvidence) : ContextMetrics where
  supplied := e.suppliedIds
  observed := e.observedIds
  reported := e.reported.toFinset
  changed := e.changed.toFinset
  expanded := (e.observedIds ∪ e.reported.toFinset).filter fun i => i ∉ e.suppliedIds
  rediscovered := e.observedIds ∩ e.suppliedIds
  contextPrecisionObserved := metric (e.observedIds ∩ e.suppliedIds).card e.suppliedIds.card
    .items .atlasObserved
  contextPrecisionReported := metric (e.reported.toFinset ∩ e.suppliedIds).card
    e.suppliedIds.card .items .reportedUse
  contextExpansionCount := metric
    ((e.observedIds ∪ e.reported.toFinset).filter fun i => i ∉ e.suppliedIds).card 1 .items
    .observedAndReported
  rediscoveryRate := metric (e.reads.countP fun read => read.identity ∈ e.suppliedIds)
    e.reads.length .requests .atlasObserved
  sourceEfficiencyObserved := metric
    (∑ i ∈ e.suppliedIds.filter fun i => i ∈ e.observedIds, e.bytesOf i) e.suppliedByteSum
    .bytes .atlasObserved

lemma usizeToU64_ok {n r : ℕ} : usizeToU64 n = .ok r ↔ n < 2 ^ 64 ∧ n = r := by
  unfold usizeToU64
  by_cases h : n < 2 ^ 64
  · rw [if_pos h, Except.ok.injEq]
    exact (and_iff_right h).symm
  · rw [if_neg h]
    exact iff_of_false (by simp) fun hr => h hr.1

lemma recordCount_ok {n : ℕ} : recordCount e = .ok n ↔ e.records < 2 ^ 64 ∧ e.records = n := by
  simp only [recordCount, bind_ok, checkedAdd_ok, records]
  constructor
  · rintro ⟨a, ⟨-, rfl⟩, b, ⟨-, rfl⟩, h⟩
    exact h
  · rintro ⟨hlt, h⟩
    exact ⟨_, ⟨by omega, rfl⟩, _, ⟨by omega, rfl⟩, hlt, h⟩

/-- Sets of identities are not larger than the lists that they come from. -/
lemma card_le_records (s : Finset CanonicalEvidenceId)
    (hs : s ⊆ e.suppliedIds ∪ (e.observedIds ∪ e.reported.toFinset)) : s.card ≤ e.records := by
  have hsupplied : e.suppliedIds.card ≤ e.supplied.length :=
    (List.toFinset_card_le _).trans (List.length_map ..).le
  have hobserved : e.observedIds.card ≤ e.reads.length :=
    (List.toFinset_card_le _).trans (List.length_map ..).le
  have hreported : e.reported.toFinset.card ≤ e.reported.length := List.toFinset_card_le _
  have hunion := (Finset.card_le_card hs).trans (Finset.card_union_le _ _)
  have hunion' := Finset.card_union_le e.observedIds e.reported.toFinset
  unfold records
  omega

/-- Evidence is accepted unless it is too much, conflicts or has too many bytes. -/
lemma derive_ok : deriveContextMetrics e = .ok m ↔
    e.records ≤ maxContextMetricEvidence ∧ ¬ e.Conflicts ∧ e.suppliedByteSum < 2 ^ 64 ∧
      e.metrics = m := by
  have hmax : maxContextMetricEvidence < 2 ^ 64 := by decide
  simp only [deriveContextMetrics, bind_ok, recordCount_ok]
  constructor
  · rintro ⟨n, ⟨-, rfl⟩, h⟩
    split at h
    next => exact absurd h (by simp)
    next hle =>
      simp only [bind_ok, tabulates_iff, checkedSum_ok, usizeToU64_ok] at h
      obtain ⟨bytes, hbytes, _, ⟨hsum, rfl⟩, _, ⟨-, rfl⟩, _, ⟨-, rfl⟩, _, ⟨-, rfl⟩, _, ⟨-, rfl⟩,
        _, ⟨-, rfl⟩, _, ⟨-, rfl⟩, _, ⟨-, rfl⟩, _, ⟨-, rfl⟩, h⟩ := h
      rw [hbytes.sum_values] at hsum h
      rw [hbytes.sum_filter, hbytes.toFinset_keys] at h
      exact ⟨not_lt.mp hle, exists_tabulates.mp ⟨bytes, hbytes⟩, hsum, Except.ok.inj h⟩
  · rintro ⟨hle, hconflicts, hsum, rfl⟩
    obtain ⟨bytes, hbytes⟩ := exists_tabulates.mpr hconflicts
    have hobserved : (∑ i ∈ e.suppliedIds.filter fun i => i ∈ e.observedIds, e.bytesOf i) <
        2 ^ 64 :=
      (Finset.sum_le_sum_of_subset (Finset.filter_subset _ _)).trans_lt hsum
    have hcard : ∀ s ⊆ e.suppliedIds ∪ (e.observedIds ∪ e.reported.toFinset),
        s.card < 2 ^ 64 := fun s hs => (card_le_records s hs).trans_lt (hle.trans_lt hmax)
    have hsupplied := hcard _ Finset.subset_union_left
    have hinter : ∀ s : Finset CanonicalEvidenceId, (s ∩ e.suppliedIds).card < 2 ^ 64 :=
      fun s => hcard _ (Finset.inter_subset_right.trans Finset.subset_union_left)
    have hreads : e.reads.length < 2 ^ 64 := by
      unfold records at hle
      omega
    refine ⟨e.records, ⟨hle.trans_lt hmax, rfl⟩, ?_⟩
    rw [if_neg (not_lt.mpr hle)]
    simp only [bind_ok, tabulates_iff, checkedSum_ok, usizeToU64_ok]
    refine ⟨bytes, hbytes, _, ⟨?_, rfl⟩, _, ⟨?_, rfl⟩, _, ⟨?_, rfl⟩, _, ⟨?_, rfl⟩,
        _, ⟨?_, rfl⟩, _, ⟨?_, rfl⟩, _, ⟨?_, rfl⟩, _, ⟨?_, rfl⟩, _, ⟨?_, rfl⟩, ?_⟩
    · rw [hbytes.sum_values]
      exact hsum
    · rw [hbytes.sum_filter]
      exact hobserved
    · rw [hbytes.toFinset_keys]
      exact hinter e.observedIds
    · rw [hbytes.toFinset_keys]
      exact hsupplied
    · rw [hbytes.toFinset_keys]
      exact hinter e.reported.toFinset
    · rw [hbytes.toFinset_keys]
      exact hsupplied
    · exact hcard _ ((Finset.filter_subset _ _).trans Finset.subset_union_right)
    · exact List.countP_le_length.trans_lt hreads
    · exact hreads
    · rw [hbytes.sum_values, hbytes.sum_filter, hbytes.toFinset_keys]
      rfl

/-! ## The laws -/

/-- Evidence whose lists are permuted. -/
structure Permuted (e e' : ContextMetricEvidence) : Prop where
  supplied : e.supplied.Perm e'.supplied
  reads : e.reads.Perm e'.reads
  reported : e.reported.Perm e'.reported
  changed : e.changed.Perm e'.changed

/-- A list in which some entries of another list are repeated. -/
structure Repeats {α : Type} (l l' : List α) : Prop where
  sublist : l.Sublist l'
  mem : ∀ a ∈ l', a ∈ l

/-- Evidence in which some supplied, reported and changed entries are repeated. -/
structure Duplicated (e e' : ContextMetricEvidence) : Prop where
  supplied : Repeats e.supplied e'.supplied
  reads : e.reads = e'.reads
  reported : Repeats e.reported e'.reported
  changed : Repeats e.changed e'.changed

/-- The same sets, and the same multiset of reads. -/
structure SameEvidence (e e' : ContextMetricEvidence) : Prop where
  supplied : ∀ item, item ∈ e.supplied ↔ item ∈ e'.supplied
  reads : e.reads.Perm e'.reads
  reported : ∀ i, i ∈ e.reported ↔ i ∈ e'.reported
  changed : ∀ i, i ∈ e.changed ↔ i ∈ e'.changed

lemma Repeats.mem_iff {α : Type} {l l' : List α} (h : Repeats l l') (a : α) : a ∈ l ↔ a ∈ l' :=
  ⟨fun ha => h.sublist.subset ha, h.mem a⟩

lemma Permuted.same (h : Permuted e e') : SameEvidence e e' where
  supplied _ := h.supplied.mem_iff
  reads := h.reads
  reported _ := h.reported.mem_iff
  changed _ := h.changed.mem_iff

lemma Permuted.records_eq (h : Permuted e e') : e'.records = e.records := by
  rw [records, records, h.supplied.length_eq, h.reads.length_eq, h.reported.length_eq,
    h.changed.length_eq]

lemma Duplicated.same (h : Duplicated e e') : SameEvidence e e' where
  supplied := h.supplied.mem_iff
  reads := .of_eq h.reads
  reported := h.reported.mem_iff
  changed := h.changed.mem_iff

namespace SameEvidence

lemma suppliedIds_eq (h : SameEvidence e e') : e'.suppliedIds = e.suppliedIds := by
  ext identity
  simp only [suppliedIds, List.mem_toFinset, List.mem_map, h.supplied]

lemma observedIds_eq (h : SameEvidence e e') : e'.observedIds = e.observedIds := by
  ext identity
  simp only [observedIds, List.mem_toFinset, List.mem_map, h.reads.mem_iff]

lemma conflicts_iff (h : SameEvidence e e') : e'.Conflicts ↔ e.Conflicts := by
  simp only [Conflicts, h.supplied]

/-- Without conflicts, an identity has the same bytes wherever its entries stand. -/
lemma bytesOf_eq (h : SameEvidence e e') (hconflicts : ¬ e.Conflicts) : e'.bytesOf = e.bytesOf := by
  obtain ⟨bytes, hbytes⟩ := exists_tabulates.mpr hconflicts
  have hbytes' : e'.Tabulates bytes := fun identity n =>
    (hbytes identity n).trans (h.supplied _)
  funext identity
  cases hget : bytes.get identity with
  | some n => rw [hbytes.bytesOf hget, hbytes'.bytesOf hget]
  | none =>
    have hzero : ∀ e : ContextMetricEvidence, e.Tabulates bytes → e.bytesOf identity = 0 := by
      intro e he
      have hnone : e.supplied.find? (fun item => item.identity = identity) = none := by
        refine List.find?_eq_none.mpr fun item hitem => ?_
        have hitem := (he item.identity item.exactSourceBytes).mpr hitem
        intro heq
        obtain rfl : item.identity = identity := by simpa using heq
        exact absurd (hitem.symm.trans hget) (by simp)
      rw [ContextMetricEvidence.bytesOf, hnone]
      rfl
    rw [hzero e hbytes, hzero e' hbytes']

lemma metrics_eq (h : SameEvidence e e') (hconflicts : ¬ e.Conflicts) : e'.metrics = e.metrics := by
  have hreported : e'.reported.toFinset = e.reported.toFinset := by
    ext identity
    simp only [List.mem_toFinset, h.reported]
  have hchanged : e'.changed.toFinset = e.changed.toFinset := by
    ext identity
    simp only [List.mem_toFinset, h.changed]
  simp only [metrics, suppliedByteSum, h.suppliedIds_eq, h.observedIds_eq, hreported, hchanged,
    h.bytesOf_eq hconflicts, h.reads.countP_eq, h.reads.length_eq]

/-- The same evidence has the same metrics, as long as it is not too much. -/
lemma derive_ok (h : SameEvidence e e') (hle : e'.records ≤ maxContextMetricEvidence)
    (hm : deriveContextMetrics e = .ok m) : deriveContextMetrics e' = .ok m := by
  obtain ⟨-, hconflicts, hsum, rfl⟩ := ContextMetricEvidence.derive_ok.mp hm
  have hsum' : e'.suppliedByteSum = e.suppliedByteSum := by
    rw [suppliedByteSum, suppliedByteSum, h.suppliedIds_eq, h.bytesOf_eq hconflicts]
  exact ContextMetricEvidence.derive_ok.mpr
    ⟨hle, h.conflicts_iff.not.mpr hconflicts, hsum'.trans_lt hsum, h.metrics_eq hconflicts⟩

end SameEvidence

/-- The sets of some metrics and how they lie to each other. -/
structure YieldLaws (e : ContextMetricEvidence) (m : ContextMetrics) : Prop where
  supplied : m.supplied = e.suppliedIds
  observed : m.observed = e.observedIds
  reported : m.reported = e.reported.toFinset
  changed : m.changed = e.changed.toFinset
  disjoint : Disjoint m.expanded m.supplied
  rediscovered : m.rediscovered = m.observed ∩ m.supplied
  cover : m.expanded ∪ (m.observed ∪ m.reported) ∩ m.supplied = m.observed ∪ m.reported
  precision_observed :
    m.contextPrecisionObserved.numerator ≤ m.contextPrecisionObserved.denominator
  precision_reported :
    m.contextPrecisionReported.numerator ≤ m.contextPrecisionReported.denominator
  rediscovery_rate : m.rediscoveryRate.numerator ≤ m.rediscoveryRate.denominator
  source_efficiency :
    m.sourceEfficiencyObserved.numerator ≤ m.sourceEfficiencyObserved.denominator

lemma yieldLaws (e : ContextMetricEvidence) : YieldLaws e e.metrics where
  supplied := rfl
  observed := rfl
  reported := rfl
  changed := rfl
  disjoint := Finset.disjoint_left.mpr fun _ hi => (Finset.mem_filter.mp hi).2
  rediscovered := rfl
  cover := by
    ext i
    simp only [metrics, Finset.mem_union, Finset.mem_inter, Finset.mem_filter]
    tauto
  precision_observed := by
    show (e.observedIds ∩ e.suppliedIds).card ≤ e.suppliedIds.card
    exact Finset.card_le_card Finset.inter_subset_right
  precision_reported := by
    show (e.reported.toFinset ∩ e.suppliedIds).card ≤ e.suppliedIds.card
    exact Finset.card_le_card Finset.inter_subset_right
  rediscovery_rate := List.countP_le_length
  source_efficiency := by
    show (∑ i ∈ e.suppliedIds.filter fun i => i ∈ e.observedIds, e.bytesOf i) ≤ e.suppliedByteSum
    exact Finset.sum_le_sum_of_subset (Finset.filter_subset _ _)

/-- One more read. -/
def withRead (e : ContextMetricEvidence) (read : ObservedEvidence) : ContextMetricEvidence :=
  { e with reads := read :: e.reads }

lemma derive_error_iff : (∃ err, deriveContextMetrics e = .error err) ↔
    maxContextMetricEvidence < e.records ∨ e.Conflicts ∨ 2 ^ 64 ≤ e.suppliedByteSum := by
  have hok : (∃ m, deriveContextMetrics e = .ok m) ↔
      e.records ≤ maxContextMetricEvidence ∧ ¬ e.Conflicts ∧ e.suppliedByteSum < 2 ^ 64 := by
    simp only [derive_ok]
    exact ⟨fun ⟨_, hle, hconflicts, hsum, _⟩ => ⟨hle, hconflicts, hsum⟩,
      fun ⟨hle, hconflicts, hsum⟩ => ⟨_, hle, hconflicts, hsum, rfl⟩⟩
  have hnot : (∃ err, deriveContextMetrics e = .error err) ↔
      ¬ ∃ m, deriveContextMetrics e = .ok m := by
    cases deriveContextMetrics e with
    | ok m => simp
    | error err => simp
  rw [hnot, hok, not_and_or, not_and_or, not_not, not_le, not_lt]

/-- Derivation fails for three reasons, and what it returns otherwise obeys the laws of sets, does
not depend on the order of the evidence nor, within the capacity, on repetitions other than those
of reads, and keeps reads apart from what is reported and changed. -/
theorem derive_algebra (e : ContextMetricEvidence) :
    ((∃ err, deriveContextMetrics e = .error err) ↔
      maxContextMetricEvidence < e.records ∨ e.Conflicts ∨ 2 ^ 64 ≤ e.suppliedByteSum) ∧
    ∀ m, deriveContextMetrics e = .ok m →
      YieldLaws e m ∧
      (∀ e', Permuted e e' → deriveContextMetrics e' = .ok m) ∧
      (∀ e', Duplicated e e' → e'.records ≤ maxContextMetricEvidence →
        deriveContextMetrics e' = .ok m) ∧
      ∀ read,
        (∀ m', deriveContextMetrics (e.withRead read) = .ok m' →
          m'.reported = m.reported ∧ m'.changed = m.changed) ∧
        (e.records < maxContextMetricEvidence →
          ∃ m', deriveContextMetrics (e.withRead read) = .ok m') := by
  refine ⟨derive_error_iff, fun m hm => ?_⟩
  obtain ⟨hle, hconflicts, hsum, rfl⟩ := derive_ok.mp hm
  refine ⟨yieldLaws e, fun e' h => ?_, fun e' h hle' => h.same.derive_ok hle' hm,
    fun read => ⟨fun m' hm' => ?_, fun hlt => ?_⟩⟩
  · rw [← h.records_eq] at hle
    exact h.same.derive_ok hle hm
  · obtain ⟨-, -, -, rfl⟩ := derive_ok.mp hm'
    exact ⟨rfl, rfl⟩
  · have hrecords : (e.withRead read).records = e.records + 1 := by
      simp only [records, withRead, List.length_cons]
      omega
    have hle' : (e.withRead read).records ≤ maxContextMetricEvidence := by omega
    exact ⟨_, derive_ok.mpr ⟨hle', hconflicts, hsum, rfl⟩⟩

/-! ## Evidence at the capacity -/

/-- An identity. -/
def oneSymbol : CanonicalEvidenceId := ⟨.symbol, "s", none⟩

/-- The symbol is reported as often as `n` says. -/
def reportedTimes (n : ℕ) : ContextMetricEvidence := ⟨[], [], List.replicate n oneSymbol, []⟩

/-- The symbol is supplied and reported. -/
def suppliedOnce : ContextMetricEvidence := ⟨[⟨oneSymbol, 7⟩], [], [oneSymbol], []⟩

theorem derive_algebra_suppliedOnce :
    ∃ m, deriveContextMetrics suppliedOnce = .ok m ∧ YieldLaws suppliedOnce m ∧
      deriveContextMetrics { suppliedOnce with supplied := [⟨oneSymbol, 7⟩, ⟨oneSymbol, 7⟩] } =
        .ok m := by
  obtain ⟨m, hm⟩ : ∃ m, deriveContextMetrics suppliedOnce = .ok m := ⟨_, rfl⟩
  obtain ⟨hlaws, -, hduplicated, -⟩ := (derive_algebra suppliedOnce).2 m hm
  refine ⟨m, hm, hlaws, hduplicated _
    ⟨⟨?_, ?_⟩, rfl, ⟨.refl _, fun _ => id⟩, ⟨.refl _, fun _ => id⟩⟩ (by decide)⟩
  · exact .cons _ (.refl _)
  · intro item hitem
    simpa [suppliedOnce] using hitem

/-- Evidence at the capacity is accepted, and refused when an entry is repeated. -/
theorem repetition_exceeds_capacity :
    (∃ m, deriveContextMetrics (reportedTimes 4096) = .ok m) ∧
      Duplicated (reportedTimes 4096) (reportedTimes 4097) ∧
      deriveContextMetrics (reportedTimes 4097) = .error (.capacityExceeded 4096 4097) := by
  have hrecords : ∀ n, (reportedTimes n).records = n := fun n => by
    simp [records, reportedTimes]
  refine ⟨⟨_, derive_ok.mpr ⟨(hrecords 4096).le, ?_, ?_, rfl⟩⟩, ?_, ?_⟩
  · rintro ⟨a, ha, -⟩
    exact absurd ha List.not_mem_nil
  · have hsum : (reportedTimes 4096).suppliedByteSum = 0 := rfl
    rw [hsum]
    decide
  · refine ⟨⟨.refl _, fun _ => id⟩, rfl, ⟨?_, ?_⟩, ⟨.refl _, fun _ => id⟩⟩
    · exact (List.replicate_sublist_replicate oneSymbol).mpr (Nat.le_succ 4096)
    · intro i hi
      exact List.mem_replicate.mpr ⟨(Nat.succ_ne_zero 4095 :), (List.mem_replicate.mp hi).2⟩
  · have hcount : recordCount (reportedTimes 4097) = .ok 4097 :=
      recordCount_ok.mpr ⟨by rw [hrecords]; decide, hrecords 4097⟩
    rw [deriveContextMetrics, hcount]
    rfl

end ContextMetricEvidence

end WorkspaceAtlas
