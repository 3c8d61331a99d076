/-
# A delta and the working directory

A delta is derived from two committed generations, but an unchanged symbol is listed only if the
file on the disk still has the content that the later generation captured.  The id of a delta is
hashed from the generations alone, and a delta is only persisted again with the hash that is
stored, so a delta that is derived again after the files changed may be rejected.
-/
import WorkspaceAtlas.Delta.Bounded

namespace WorkspaceAtlas

open Relational Transition Text

namespace Delta

/-! ## `persist_generation_delta` -/

/-- A row of `generation_delta` in the state `ready`; the canonical JSON as the delta that it is
the text of. -/
structure DeltaRow where
  deltaId : String
  workspaceId : String
  fromGenerationId : String
  toGenerationId : String
  deltaPolicyVersion : String
  canonical : Option GenerationDelta
  deltaHash : Option String
  deriving DecidableEq, Repr

/-- The columns that a delta is unique in, besides its id. -/
def DeltaRow.identity (r : DeltaRow) : String × String × String × String :=
  (r.workspaceId, r.fromGenerationId, r.toGenerationId, r.deltaPolicyVersion)

instance : Keyed DeltaRow where
  Clash a b := a.deltaId = b.deltaId ∨ a.identity = b.identity
  decideClash _ _ := inferInstance
  clash_refl _ := Or.inl rfl
  clash_symm h := h.imp Eq.symm Eq.symm

/-- A row of `generation_delta_item`, less its text. -/
structure DeltaItem where
  deltaId : String
  ordinal : ℕ
  category : String
  entityId : String
  changeKind : String
  evidenceState : String
  beforeId : Option String
  afterId : Option String
  reasonCodes : List String
  deriving DecidableEq, Repr

instance : Keyed DeltaItem := .ofKey fun r => (r.deltaId, r.ordinal)

/-- The tables of persisted deltas. -/
structure DeltaStore where
  generationDelta : Table DeltaRow
  generationDeltaItem : Table DeltaItem

/-- `validate_generation_delta`. -/
def validateGenerationDelta (H : Hasher) (d : GenerationDelta) : Except AtlasError Unit :=
  if d.schemaVersion ≠ contextSchemaVersion ∨ d.deltaId ≠
      deltaId H d.workspaceId d.fromGenerationId d.toGenerationId d.deltaPolicyVersion then
    .error (.invalidConfig
      "generation_delta identity/version does not match its persisted contract")
  else
    match GenerationDelta.seal H d.toDeltaContent with
    | .error e => .error e
    | .ok resealed =>
      if resealed.deltaHash ≠ d.deltaHash then
        .error (.invalidConfig
          "generation_delta delta_hash does not match its canonical content")
      else .ok ()

/-- The item of a change. -/
def DeltaChange.item (id category : String) (ordinal : ℕ) (c : DeltaChange) : DeltaItem :=
  ⟨id, ordinal, category, c.entityId, c.changeKind.asStr, c.evidenceState.asStr, c.beforeId,
    c.afterId, c.reasonCodes⟩

/-- The items of a delta. -/
def deltaItems (d : GenerationDelta) : List DeltaItem :=
  let changes := [("file", d.files), ("symbol", d.symbols), ("relationship", d.relationships),
    ("effect", d.effects), ("coverage", d.coverage), ("conflict", d.conflicts)].flatMap
      fun (category, changes) => changes.map fun c (ordinal : ℕ) => c.item d.deltaId category ordinal
  let unchanged := d.unchangedVerifiedContracts.map fun u (ordinal : ℕ) =>
    (⟨d.deltaId, ordinal, "unchanged_contract", u.entityId, "unchanged", "verified", none, none,
      u.evidence⟩ : DeltaItem)
  let notes := d.uncertainty.map fun _ (ordinal : ℕ) =>
    (⟨d.deltaId, ordinal, "uncertainty", "delta_wide", "uncertain", "uncertain", none, none, []⟩ :
      DeltaItem)
  (changes ++ unchanged ++ notes).zipIdx.map fun (item, ordinal) => item ordinal

/-- The row of a delta. -/
def GenerationDelta.row (d : GenerationDelta) : DeltaRow :=
  ⟨d.deltaId, d.workspaceId, d.fromGenerationId, d.toGenerationId, d.deltaPolicyVersion, some d,
    some d.deltaHash⟩

/-- One item is stored. -/
def insertItem (t : Table DeltaItem) (item : DeltaItem) : Except AtlasError (Table DeltaItem) :=
  match t.insert? item with
  | some t' => .ok t'
  | none => .error (.sqlite (.constraint "generation_delta_item"))

/-- What a delta is rejected with if another one is stored under its id. -/
def conflictingDelta (deltaId : String) : AtlasError :=
  .invalidConfig ("generation_delta " ++ deltaId ++ " conflicts with persisted delta content")

/-- `persist_generation_delta`. -/
def persistGenerationDelta (H : Hasher) (store : DeltaStore) (d : GenerationDelta) :
    Except AtlasError DeltaStore := do
  validateGenerationDelta H d
  match (store.generationDelta.find? fun r => r.deltaId = d.deltaId).bind DeltaRow.deltaHash with
  | some existingHash =>
    if existingHash = d.deltaHash then .ok store else .error (conflictingDelta d.deltaId)
  | none =>
    match store.generationDelta.insert? d.row with
    | none => .error (.sqlite (.constraint "generation_delta"))
    | some rows => do
      let items ← (deltaItems d).foldlM insertItem store.generationDeltaItem
      return ⟨rows, items⟩

namespace Live

/-! ## The statement -/

/-- Two working directories agree on the unchanged symbols: on each that may be listed, whether
its file is verified, and on all together, whether the file of every one is. -/
def SameMatches (H : Hasher) (before after : Snapshot) (disk disk' : WorkingDirectory) : Prop :=
  (∀ x ∈ unchangedSymbols H before after, Qualifies before after x.2.1 x.2.2 →
      (LiveVerified H disk x.2.2 ↔ LiveVerified H disk' x.2.2)) ∧
    ((∀ x ∈ unchangedSymbols H before after, LiveVerified H disk x.2.2) ↔
      ∀ x ∈ unchangedSymbols H before after, LiveVerified H disk' x.2.2)

section Lemmas

variable {H : Hasher} {disk disk' : WorkingDirectory} {before after : Snapshot}
  {fromSym toSym : SymbolSnapshot} {key reason : String} {store store' : DeltaStore}
  {d d' : GenerationDelta}

/-! ## What depends on the disk -/

lemma mem_omissionReasons : reason ∈ omissionReasons H disk before after fromSym toSym ↔
    reason = "provider fingerprint changed" ∧
        before.providerFingerprint ≠ after.providerFingerprint ∨
      reason = "complete symbol-scoped coverage evidence is unavailable" ∧
          (¬ symbolHasCompleteCoverage before.coverage fromSym ∨
            ¬ symbolHasCompleteCoverage after.coverage toSym) ∨
        reason = "live source no longer matches the captured generation" ∧
          ¬ LiveVerified H disk toSym := by
  rw [omissionReasons]
  split
  next h =>
    obtain ⟨⟨hprovider, hfrom, hto⟩, hlive⟩ := h
    simp [hprovider, hfrom, hto, hlive]
  next =>
    have hite : ∀ (p : Prop) [Decidable p] (x : String),
        reason ∈ (if p then [x] else []) ↔ reason = x ∧ p := by
      intro p _ x
      by_cases hp : p <;> simp [hp]
    rw [List.mem_append, List.mem_append, hite, hite, hite, or_assoc]

/-- The uncertainty depends on the disk through whether every unchanged symbol is verified. -/
lemma uncertainty_eq_iff :
    uncertainty H disk before after = uncertainty H disk' before after ↔
      ((∀ x ∈ unchangedSymbols H before after, LiveVerified H disk x.2.2) ↔
        ∀ x ∈ unchangedSymbols H before after, LiveVerified H disk' x.2.2) := by
  have hlive : ∀ disk : WorkingDirectory, (∃ x ∈ unchangedSymbols H before after,
      "live source no longer matches the captured generation" ∈
        omissionReasons H disk before after x.2.1 x.2.2) ↔
      ¬ ∀ x ∈ unchangedSymbols H before after, LiveVerified H disk x.2.2 := by
    intro disk
    simp only [not_forall, exists_prop]
    refine exists_congr fun x => and_congr_right fun _ => ?_
    rw [mem_omissionReasons]
    constructor
    · rintro (⟨h, -⟩ | ⟨h, -⟩ | ⟨-, h⟩)
      · exact absurd h (by decide)
      · exact absurd h (by decide)
      · exact h
    · exact fun h => Or.inr (Or.inr ⟨rfl, h⟩)
  rw [uncertainty, uncertainty, SortedMap.sortedKeys_eq_iff]
  constructor
  · intro h
    have hreason := h "live source no longer matches the captured generation"
    rw [List.mem_flatMap, List.mem_flatMap] at hreason
    exact not_iff_not.mp ((hlive disk).symm.trans (hreason.trans (hlive disk')))
  · intro h reason
    rw [List.mem_flatMap, List.mem_flatMap]
    by_cases hreason : reason = "live source no longer matches the captured generation"
    · subst hreason
      exact (hlive disk).trans ((not_congr h).trans (hlive disk').symm)
    · -- the other reasons do not look at the disk
      refine exists_congr fun x => and_congr_right fun _ => ?_
      show reason ∈ omissionReasons H disk before after x.2.1 x.2.2 ↔
        reason ∈ omissionReasons H disk' before after x.2.1 x.2.2
      rw [mem_omissionReasons, mem_omissionReasons]
      simp only [hreason, false_and, or_false]

lemma contract_json_injective {u v : String}
    (h : (unchangedContract u).json = (unchangedContract v).json) : u = v := by
  have hfields := Json.obj.inj h
  simp only [List.cons.injEq, Prod.mk.injEq, true_and] at hfields
  exact Json.str.inj hfields.2.1

/-- The listed symbols depend on the disk through whether those that may be listed are
verified. -/
lemma contracts_json_eq_iff :
    (unchangedVerifiedContracts H disk before after).map UnchangedContract.json =
        (unchangedVerifiedContracts H disk' before after).map UnchangedContract.json ↔
      ∀ x ∈ unchangedSymbols H before after, Qualifies before after x.2.1 x.2.2 →
        (LiveVerified H disk x.2.2 ↔ LiveVerified H disk' x.2.2) := by
  constructor
  · intro h
    have hsub : ∀ disk disk' : WorkingDirectory,
        (unchangedVerifiedContracts H disk before after).map UnchangedContract.json =
          (unchangedVerifiedContracts H disk' before after).map UnchangedContract.json →
        ∀ x ∈ unchangedSymbols H before after, Qualifies before after x.2.1 x.2.2 →
          LiveVerified H disk x.2.2 → LiveVerified H disk' x.2.2 := by
      intro disk disk' h x hx hqualifies hlive
      have hlisted := List.mem_map_of_mem (f := UnchangedContract.json)
        (mem_contracts.mpr ⟨x, hx, hqualifies, hlive, rfl⟩)
      rw [h] at hlisted
      obtain ⟨u, hu, hjson⟩ := List.mem_map.mp hlisted
      obtain ⟨y, hy, -, hlive', rfl⟩ := mem_contracts.mp hu
      obtain rfl := eq_of_key hy hx (contract_json_injective hjson)
      exact hlive'
    exact fun x hx hqualifies => ⟨hsub disk disk' h x hx hqualifies,
      hsub disk' disk h.symm x hx hqualifies⟩
  · intro h
    refine congrArg (List.map UnchangedContract.json) (congrArg (orderBy _) ?_)
    refine congrArg (List.map _) (List.filter_congr fun x hx => ?_)
    refine decide_eq_decide.mpr (and_congr_right fun hqualifies => ?_)
    exact h x hx hqualifies

/-! ## The hash -/

/-- Two deltas of the same generations. -/
lemma deltaHash_eq_iff (hH : H.Injective) {ws fromId toId : String}
    (hd : deriveDelta H disk ws fromId toId before after = .ok d)
    (hd' : deriveDelta H disk' ws fromId toId before after = .ok d') :
    d.deltaHash = d'.deltaHash ↔ SameMatches H before after disk disk' := by
  rw [deriveDelta, GenerationDelta.seal] at hd hd'
  split at hd
  · exact absurd hd (by simp)
  next hne =>
    rw [if_neg hne] at hd'
    obtain rfl := Except.ok.inj hd
    obtain rfl := Except.ok.inj hd'
    rw [SameMatches, ← contracts_json_eq_iff, ← uncertainty_eq_iff]
    constructor
    · intro h
      have hidentity := canonicalJsonBytes_injective (contentHashOfBytes_injective hH h)
      have hfields := Json.obj.inj hidentity
      simp only [List.cons.injEq, Prod.mk.injEq, true_and, and_true, Json.arr.injEq] at hfields
      refine ⟨hfields.2, ?_⟩
      exact List.map_injective_iff.mpr (fun _ _ => Json.str.inj) hfields.1
    · rintro ⟨hcontracts, huncertainty⟩
      simp only [DeltaContent.identity]
      rw [hcontracts, huncertainty]

/-! ## Persisting twice -/

/-- What is derived passes its check. -/
lemma validate_of_derived {ws fromId toId : String}
    (hd : deriveDelta H disk ws fromId toId before after = .ok d) :
    validateGenerationDelta H d = .ok () ∧ d.deltaId = deltaId H ws fromId toId deltaPolicyVersion := by
  rw [deriveDelta, GenerationDelta.seal] at hd
  split at hd
  · exact absurd hd (by simp)
  next hne =>
    obtain rfl := Except.ok.inj hd
    refine ⟨?_, rfl⟩
    rw [validateGenerationDelta, if_neg (by simp), GenerationDelta.seal, if_neg hne]
    simp

/-- A delta that is persisted is stored with its hash. -/
lemma hash_of_persist (h : persistGenerationDelta H store d = .ok store') :
    (store'.generationDelta.find? fun r => r.deltaId = d.deltaId).bind DeltaRow.deltaHash =
      some d.deltaHash := by
  rw [persistGenerationDelta] at h
  obtain ⟨-, -, h⟩ := bind_ok.mp h
  split at h
  next existingHash hexisting =>
    split at h
    next heq =>
      obtain rfl := Except.ok.inj h
      rw [hexisting, heq]
    next => exact absurd h (by simp)
  next hnone =>
    split at h
    next => exact absurd h (by simp)
    next rows hinsert =>
      obtain ⟨items, -, h⟩ := bind_ok.mp h
      obtain rfl := Except.ok.inj h
      -- a row without a hash under the id would keep the new one out
      have hfind : (store.generationDelta.find? fun r => r.deltaId = d.deltaId) = none := by
        refine Table.find?_eq_none.mpr fun r hr => decide_eq_false fun hid => ?_
        exact Table.not_clash_of_insert? hinsert r hr (Or.inl hid)
      rw [Table.find?_of_insert? hinsert, hfind, Option.none_or, if_pos (by simp [GenerationDelta.row])]
      rfl

lemma persist_again (hvalid : validateGenerationDelta H d' = .ok ()) (hid : d'.deltaId = d.deltaId)
    (hstored : (store.generationDelta.find? fun r => r.deltaId = d.deltaId).bind DeltaRow.deltaHash =
      some d.deltaHash) :
    persistGenerationDelta H store d' =
      if d.deltaHash = d'.deltaHash then .ok store else .error (conflictingDelta d'.deltaId) := by
  rw [persistGenerationDelta, hvalid, hid, hstored]
  rfl

/-- **Two deltas of the same generations** have the same hash if and only if the working
directories agree on the unchanged symbols, and only then the second one can be persisted after
the first one. -/
theorem sameHash_iff_sameMatches (H : Hasher) (hH : H.Injective) (t : Tables)
    (ws fromId toId fp fp' : String) (disk disk' : WorkingDirectory)
    (hfrom : requireCommitted t ws fromId = .ok ()) (hto : requireCommitted t ws toId = .ok ())
    (hne : fromId ≠ toId) (hfp : providerFingerprint t fromId = .ok fp)
    (hfp' : providerFingerprint t toId = .ok fp') :
    ∃ d d', computeGenerationDelta H disk t ws fromId toId = .ok d ∧
      computeGenerationDelta H disk' t ws fromId toId = .ok d' ∧
      (d.deltaHash = d'.deltaHash ↔
        SameMatches H (snapshotOf H t fromId fp) (snapshotOf H t toId fp') disk disk') ∧
      ∀ store store', persistGenerationDelta H store d = .ok store' →
        (persistGenerationDelta H store' d' = .ok store' ↔
          SameMatches H (snapshotOf H t fromId fp) (snapshotOf H t toId fp') disk disk') ∧
        (¬ SameMatches H (snapshotOf H t fromId fp) (snapshotOf H t toId fp') disk disk' →
          persistGenerationDelta H store' d' = .error (conflictingDelta d'.deltaId)) := by
  obtain ⟨d, hd⟩ : ∃ d, deriveDelta H disk ws fromId toId (snapshotOf H t fromId fp)
      (snapshotOf H t toId fp') = .ok d := exists_derived disk hne
  obtain ⟨d', hd'⟩ : ∃ d', deriveDelta H disk' ws fromId toId (snapshotOf H t fromId fp)
      (snapshotOf H t toId fp') = .ok d' := exists_derived disk' hne
  have hhash := deltaHash_eq_iff hH hd hd'
  obtain ⟨-, hid⟩ := validate_of_derived hd
  obtain ⟨hvalid', hid'⟩ := validate_of_derived hd'
  refine ⟨d, d', (computeGenerationDelta_eq hfrom hto hfp hfp').trans hd,
    (computeGenerationDelta_eq hfrom hto hfp hfp').trans hd', hhash, fun store store' hpersist => ?_⟩
  rw [persist_again hvalid' (hid'.trans hid.symm) (hash_of_persist hpersist), ← hhash]
  by_cases heq : d.deltaHash = d'.deltaHash
  · rw [if_pos heq]
    exact ⟨iff_of_true rfl heq, fun hne => absurd heq hne⟩
  · rw [if_neg heq]
    exact ⟨iff_of_false (by simp) heq, fun _ => rfl⟩

end Lemmas

/-! ## A file that is deleted -/

/-- Two committed generations with one unchanged file, in which a symbol is defined. -/
def oneSymbol : Tables :=
  { twoGenerations with
    generationFile := (Table.empty.insertOrIgnore
      ⟨"g₁", "f", some "r", "src/a.ts", .present, none, none, none, none⟩).insertOrIgnore
        ⟨"g₂", "f", some "r", "src/a.ts", .present, none, none, none, none⟩
    fileRevision := Table.empty.insertOrIgnore
      ⟨"r", "f", contentHashOfBytes Hasher.plain [], 0, .source, none, false, false, 0⟩
    extractorRun := Table.empty.insertOrIgnore
      ⟨"e", "r", "ts", "1", .structural, "", "1", true, .complete, 0, none, 0, 0⟩
    symbolFact := Table.empty.insertOrIgnore
      ⟨"s", "e", "r", "k", "function", "k", "k", none, none, none, "", "structural", 0, "node"⟩
    coverageRecord := (Table.empty.insertOrIgnore
      ⟨"c₁", "g₁", none, "workspace", "all", "complete", "[]", "[]", ""⟩).insertOrIgnore
        ⟨"c₂", "g₂", none, "workspace", "all", "complete", "[]", "[]", ""⟩ }

/-- The file as it was captured. -/
def captured : WorkingDirectory := fun path => if path = "src/a.ts" then some [] else none

/-- The file is gone. -/
def deleted : WorkingDirectory := fun _ => none

/-- Without its file a symbol that was listed is not listed any more. -/
lemma not_sameMatches_deleted {H : Hasher} {disk : WorkingDirectory} {before after : Snapshot}
    (hsymbols : before.symbols = after.symbols)
    (hrelationships : before.relationships = after.relationships)
    (hsome : after.symbols.entries ≠ [])
    (hqualifies : ∀ x ∈ after.symbols.entries, Qualifies before after x.2 x.2)
    (hlive : ∀ x ∈ after.symbols.entries, LiveVerified H disk x.2) :
    ¬ SameMatches H before after disk deleted := by
  intro hsame
  -- both generations have the same symbol, so nothing about it has to be computed
  obtain ⟨⟨key, sym⟩, hentry⟩ := List.exists_mem_of_ne_nil _ hsome
  have hget : before.symbols.get key = some sym := by
    rw [hsymbols]
    exact SortedMap.get_eq_some_iff.mpr hentry
  have hchange : symbolChange H before after key sym sym = none := by
    simp [symbolChange, hrelationships]
  have hmatches := hsame.1 _ (mem_unchangedSymbols.mpr ⟨hentry, hget, hchange⟩)
    (hqualifies _ hentry)
  have hgone : LiveVerified H deleted sym := hmatches.mp (hlive _ hentry)
  exact absurd hgone (by simp [LiveVerified, liveSourceDigest, deleted])

lemma oneSymbol_notSame : ¬ SameMatches Hasher.plain (snapshotOf Hasher.plain oneSymbol "g₁" "p")
    (snapshotOf Hasher.plain oneSymbol "g₂" "p") captured deleted :=
  not_sameMatches_deleted rfl rfl (by decide) (by decide) (by decide)

theorem sameHash_iff_oneSymbol :
    ∃ d d', computeGenerationDelta Hasher.plain captured oneSymbol "ws" "g₁" "g₂" = .ok d ∧
      computeGenerationDelta Hasher.plain deleted oneSymbol "ws" "g₁" "g₂" = .ok d' ∧
      (d.deltaHash = d'.deltaHash ↔ SameMatches Hasher.plain
        (snapshotOf Hasher.plain oneSymbol "g₁" "p") (snapshotOf Hasher.plain oneSymbol "g₂" "p")
          captured deleted) := by
  obtain ⟨d, d', hd, hd', hhash, -⟩ := sameHash_iff_sameMatches Hasher.plain Hasher.plain_injective
    oneSymbol "ws" "g₁" "g₂" "p" "p" captured deleted (by decide) (by decide) (by decide) (by decide)
    (by decide)
  exact ⟨d, d', hd, hd', hhash⟩

/-- The deltas before and after the file is deleted have different hashes, and the second one is
rejected. -/
theorem oneSymbol_rejected :
    ∃ d d', computeGenerationDelta Hasher.plain captured oneSymbol "ws" "g₁" "g₂" = .ok d ∧
      computeGenerationDelta Hasher.plain deleted oneSymbol "ws" "g₁" "g₂" = .ok d' ∧
      d.deltaHash ≠ d'.deltaHash ∧
      ∀ store store', persistGenerationDelta Hasher.plain store d = .ok store' →
        persistGenerationDelta Hasher.plain store' d' = .error (conflictingDelta d'.deltaId) := by
  have hderived : ∀ disk : WorkingDirectory, ∃ d, deriveDelta Hasher.plain disk "ws" "g₁" "g₂"
      (snapshotOf Hasher.plain oneSymbol "g₁" "p") (snapshotOf Hasher.plain oneSymbol "g₂" "p") =
        .ok d := fun disk => exists_derived disk (by decide)
  obtain ⟨d, hd⟩ := hderived captured
  obtain ⟨d', hd'⟩ := hderived deleted
  have hcompute : ∀ disk : WorkingDirectory,
      computeGenerationDelta Hasher.plain disk oneSymbol "ws" "g₁" "g₂" =
        deriveDelta Hasher.plain disk "ws" "g₁" "g₂" (snapshotOf Hasher.plain oneSymbol "g₁" "p")
          (snapshotOf Hasher.plain oneSymbol "g₂" "p") := fun disk =>
    computeGenerationDelta_eq (by decide) (by decide) (by decide) (by decide)
  have hne : d.deltaHash ≠ d'.deltaHash := fun h =>
    oneSymbol_notSame ((deltaHash_eq_iff Hasher.plain_injective hd hd').mp h)
  refine ⟨d, d', (hcompute captured).trans hd, (hcompute deleted).trans hd', hne, ?_⟩
  intro store store' hpersist
  obtain ⟨-, hid⟩ := validate_of_derived hd
  obtain ⟨hvalid', hid'⟩ := validate_of_derived hd'
  rw [persist_again hvalid' (hid'.trans hid.symm) (hash_of_persist hpersist), if_neg hne]

end Live

end Delta

end WorkspaceAtlas
