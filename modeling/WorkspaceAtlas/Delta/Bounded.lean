/-
# Deriving a delta within a bound

`compute_generation_delta_with_ledger` asks its ledger before every row that it reads, before
the end of every query and before every single value.  A refused charge gives up the whole
derivation, so a delta is derived from complete tables or not at all, and `compute_generation_delta`
is the same derivation with a ledger that never refuses.
-/
import WorkspaceAtlas.Delta.Derivation
import WorkspaceAtlas.Transition.Metered

namespace WorkspaceAtlas

open Relational Transition

namespace Delta

section Bounded

variable {σ : Type}

/-- The generation has to be committed. -/
def requireCommitted (t : Tables) (workspaceId genId : String) : Except AtlasError Unit :=
  match t.indexGeneration.find? fun g => g.generationId = genId ∧ g.workspaceId = workspaceId with
  | some g =>
    if g.state = .committed then .ok ()
    else .error (.other ("generation " ++ genId ++ " is " ++ g.state.asStr ++ ", not committed"))
  | none => .error (.other ("generation " ++ genId ++ " not found for workspace " ++ workspaceId))

/-- `generation_provider_fingerprint`. -/
def providerFingerprint (t : Tables) (genId : String) : Except AtlasError String :=
  match t.indexGeneration.find? fun g => g.generationId = genId with
  | some g => .ok g.providerSetHash
  | none => .error (.sqlite .queryReturnedNoRows)

variable (L : Ledger AtlasError σ)

/-- `files_for_with_ledger`. -/
def filesForWithLedger (t : Tables) (genId : String) : Metered AtlasError σ (List FileRow) :=
  Metered.rows L readFile (filesQuery t genId)

/-- `symbols_for_with_ledger`. -/
def symbolsForWithLedger (H : Hasher) (t : Tables) (genId : String) :
    Metered AtlasError σ (SortedMap String SymbolSnapshot) := do
  let rows ← Metered.rows L (readSymbol H) (symbolsQuery t genId)
  return symbolMap rows

/-- `relationships_for_with_ledger`. -/
def relationshipsForWithLedger (t : Tables) (genId : String) :
    Metered AtlasError σ (SortedMap String (List RelationshipState)) := do
  let rows ← Metered.rows L readRelationship (relationshipsQuery t genId)
  return stateMap RelationshipState.sortKey rows

/-- `effects_for_with_ledger`. -/
def effectsForWithLedger (t : Tables) (genId : String) :
    Metered AtlasError σ (SortedMap String (List EffectState)) := do
  let rows ← Metered.rows L readEffect (effectsQuery t genId)
  return stateMap EffectState.sortKey rows

/-- `coverage_for_with_ledger`. -/
def coverageForWithLedger (t : Tables) (genId : String) :
    Metered AtlasError σ (SortedMap String (List CoverageState)) := do
  let rows ← Metered.rows L readCoverage (coverageQuery t genId)
  return stateMap CoverageState.sortKey rows

/-- `conflicts_for_with_ledger`. -/
def conflictsForWithLedger (t : Tables) (genId : String) :
    Metered AtlasError σ (SortedMap String (List ConflictState)) := do
  let rows ← Metered.rows L readConflict (conflictsQuery t genId)
  return stateMap ConflictState.sortKey rows

/-- The state of a generation is asked for and checked. -/
def checkState (t : Tables) (workspaceId genId : String) : Metered AtlasError σ Unit := do
  Metered.charge L
  Metered.free (requireCommitted t workspaceId genId)

/-- `generation_provider_fingerprint_with_ledger`. -/
def providerFingerprintWithLedger (t : Tables) (genId : String) : Metered AtlasError σ String := do
  Metered.charge L
  Metered.free (providerFingerprint t genId)

/-- `compute_generation_delta_with_ledger`. -/
def computeGenerationDeltaWithLedger (H : Hasher) (disk : WorkingDirectory) (t : Tables)
    (workspaceId fromId toId : String) : Metered AtlasError σ GenerationDelta := do
  checkState L t workspaceId fromId
  checkState L t workspaceId toId
  let fromFiles ← filesForWithLedger L t fromId
  let toFiles ← filesForWithLedger L t toId
  let fromSymbols ← symbolsForWithLedger L H t fromId
  let toSymbols ← symbolsForWithLedger L H t toId
  let fromRels ← relationshipsForWithLedger L t fromId
  let toRels ← relationshipsForWithLedger L t toId
  let fromEffects ← effectsForWithLedger L t fromId
  let toEffects ← effectsForWithLedger L t toId
  let fromCoverage ← coverageForWithLedger L t fromId
  let toCoverage ← coverageForWithLedger L t toId
  let fromConflicts ← conflictsForWithLedger L t fromId
  let toConflicts ← conflictsForWithLedger L t toId
  let fromFingerprint ← providerFingerprintWithLedger L t fromId
  let toFingerprint ← providerFingerprintWithLedger L t toId
  Metered.free (deriveDelta H disk workspaceId fromId toId
    ⟨fromFiles, fromSymbols, fromRels, fromEffects, fromCoverage, fromConflicts, fromFingerprint⟩
    ⟨toFiles, toSymbols, toRels, toEffects, toCoverage, toConflicts, toFingerprint⟩)

/-- `compute_generation_delta`. -/
def computeGenerationDelta (H : Hasher) (disk : WorkingDirectory) (t : Tables)
    (workspaceId fromId toId : String) : Except AtlasError GenerationDelta :=
  match (computeGenerationDeltaWithLedger Ledger.unbounded H disk t workspaceId fromId toId).start
      () with
  | .ok (some delta, _) => .ok delta
  | .ok (none, _) =>
    .error (.other "unbounded canonical Generation Delta derivation exhausted")
  | .error e => .error e

end Bounded

/-! ## What the derivation asks for -/

/-- All that the queries read of a generation. -/
def snapshotOf (H : Hasher) (t : Tables) (genId fingerprint : String) : Snapshot :=
  ⟨filesFor t genId, symbolsFor H t genId, relationshipsFor t genId, effectsFor t genId,
    coverageFor t genId, conflictsFor t genId, fingerprint⟩

/-- The rows that the queries about a generation read. -/
def rowsRead (t : Tables) (genId : String) : ℕ :=
  (filesQuery t genId).length + (symbolsQuery t genId).length +
    (relationshipsQuery t genId).length + (effectsQuery t genId).length +
    (coverageQuery t genId).length + (conflictsQuery t genId).length

/-- The charges for the state and the provider set of both generations. -/
def identityCharges : ℕ := 4

/-- The queries for rows, six for each generation. -/
def rowQueries : ℕ := 12

/-- A charge for every row, for the end of every query, and for every single value. -/
def derivationCost (t : Tables) (fromId toId : String) : ℕ :=
  rowsRead t fromId + rowsRead t toId + rowQueries + identityCharges

section Lemmas

variable {σ : Type} {L : Ledger AtlasError σ} {H : Hasher} {disk : WorkingDirectory} {t : Tables}
  {ws genId fromId toId : String}

/-- Rows that are read and then made a map. -/
lemma spends_map {α β ρ : Type} (read : ρ → α) (make : List α → β) (l : List ρ) :
    Metered.Spends L (Metered.rows L read l >>= fun rows => pure (make rows)) (l.length + 1)
      (.ok (make (l.map read))) := by
  refine Metered.Spends.of_cost ?_ (Nat.add_zero _)
  exact Metered.Spends.bind (Metered.spends_rows read l) (Metered.spends_pure _)

lemma spends_checkState (h : requireCommitted t ws genId = .ok ()) :
    Metered.Spends L (checkState L t ws genId) 1 (.ok ()) := by
  rw [checkState, h]
  exact Metered.Spends.bind (f := fun _ => Metered.free (.ok ())) Metered.spends_charge
    (Metered.spends_free _)

/-- A committed generation has a provider set. -/
lemma exists_providerFingerprint (h : requireCommitted t ws genId = .ok ()) :
    ∃ fp, providerFingerprint t genId = .ok fp := by
  rw [requireCommitted] at h
  split at h
  next g hfind =>
    have hmem := Table.mem_of_find? hfind
    have hg : g.generationId = genId ∧ g.workspaceId = ws := by
      simpa using Table.find?_some hfind
    rw [providerFingerprint]
    cases hid : t.indexGeneration.find? fun g => g.generationId = genId with
    | none =>
      have hnone := Table.find?_eq_none.mp hid g hmem
      exact absurd hg.1 (by simpa using hnone)
    | some g' => exact ⟨g'.providerSetHash, rfl⟩
  next => exact absurd h (by simp)

lemma spends_providerFingerprint {fp : String} (h : providerFingerprint t genId = .ok fp) :
    Metered.Spends L (providerFingerprintWithLedger L t genId) 1 (.ok fp) := by
  rw [providerFingerprintWithLedger, h]
  exact Metered.Spends.bind (f := fun _ => Metered.free (.ok fp)) Metered.spends_charge
    (Metered.spends_free _)

/-- The derivation asks for its cost and comes to what is derived from the complete tables. -/
lemma spends_computeGenerationDelta {fp fp' : String} (hfrom : requireCommitted t ws fromId = .ok ())
    (hto : requireCommitted t ws toId = .ok ()) (hfp : providerFingerprint t fromId = .ok fp)
    (hfp' : providerFingerprint t toId = .ok fp') :
    Metered.Spends L (computeGenerationDeltaWithLedger L H disk t ws fromId toId)
      (derivationCost t fromId toId)
      (deriveDelta H disk ws fromId toId (snapshotOf H t fromId fp) (snapshotOf H t toId fp')) := by
  rw [computeGenerationDeltaWithLedger]
  -- the cost is the sum of what the steps ask for
  apply Metered.Spends.of_cost
  case h =>
    apply Metered.Spends.bind (spends_checkState hfrom)
    apply Metered.Spends.bind (spends_checkState hto)
    apply Metered.Spends.bind (Metered.spends_rows readFile (filesQuery t fromId))
    apply Metered.Spends.bind (Metered.spends_rows readFile (filesQuery t toId))
    apply Metered.Spends.bind (spends_map (readSymbol H) symbolMap _)
    apply Metered.Spends.bind (spends_map (readSymbol H) symbolMap _)
    apply Metered.Spends.bind (spends_map readRelationship (stateMap RelationshipState.sortKey) _)
    apply Metered.Spends.bind (spends_map readRelationship (stateMap RelationshipState.sortKey) _)
    apply Metered.Spends.bind (spends_map readEffect (stateMap EffectState.sortKey) _)
    apply Metered.Spends.bind (spends_map readEffect (stateMap EffectState.sortKey) _)
    apply Metered.Spends.bind (spends_map readCoverage (stateMap CoverageState.sortKey) _)
    apply Metered.Spends.bind (spends_map readCoverage (stateMap CoverageState.sortKey) _)
    apply Metered.Spends.bind (spends_map readConflict (stateMap ConflictState.sortKey) _)
    apply Metered.Spends.bind (spends_map readConflict (stateMap ConflictState.sortKey) _)
    apply Metered.Spends.bind (spends_providerFingerprint hfp)
    apply Metered.Spends.bind (spends_providerFingerprint hfp')
    exact Metered.spends_free _
  case hc =>
    simp only [derivationCost, rowsRead, rowQueries, identityCharges]
    omega

/-- The unbounded derivation comes to what is derived from the complete tables. -/
lemma computeGenerationDelta_eq {fp fp' : String} (hfrom : requireCommitted t ws fromId = .ok ())
    (hto : requireCommitted t ws toId = .ok ()) (hfp : providerFingerprint t fromId = .ok fp)
    (hfp' : providerFingerprint t toId = .ok fp') :
    computeGenerationDelta H disk t ws fromId toId =
      deriveDelta H disk ws fromId toId (snapshotOf H t fromId fp) (snapshotOf H t toId fp') := by
  have hspends : Metered.Spends Ledger.unbounded
      (computeGenerationDeltaWithLedger Ledger.unbounded H disk t ws fromId toId) _ _ :=
    spends_computeGenerationDelta hfrom hto hfp hfp'
  have hresult := hspends.of_unbounded ()
  rw [computeGenerationDelta]
  cases hstart : (computeGenerationDeltaWithLedger Ledger.unbounded H disk t ws fromId toId).start
      () with
  | error e =>
    rw [hstart] at hresult
    cases hd : deriveDelta H disk ws fromId toId (snapshotOf H t fromId fp)
        (snapshotOf H t toId fp') with
    | error e' =>
      rw [hd] at hresult
      exact congrArg Except.error (Except.error.inj hresult)
    | ok d =>
      rw [hd] at hresult
      exact absurd hresult (by simp [Except.map])
  | ok res =>
    obtain ⟨d, u⟩ := res
    rw [hstart] at hresult
    cases hd : deriveDelta H disk ws fromId toId (snapshotOf H t fromId fp)
        (snapshotOf H t toId fp') with
    | error e' =>
      rw [hd] at hresult
      exact absurd hresult (by simp [Except.map])
    | ok d' =>
      rw [hd] at hresult
      obtain rfl : d = some d' := Except.ok.inj hresult
      rfl

/-- **The bounded derivation** comes to nothing or to what the unbounded one comes to, which is a
delta; it comes to the latter if its ledger grants as much as there is to be read, and what it
comes to is derived from the complete tables. -/
theorem bounded_agrees (L : Ledger AtlasError σ) (s : σ) (n : ℕ) (H : Hasher)
    (disk : WorkingDirectory) (t : Tables) (ws fromId toId : String)
    (hfrom : requireCommitted t ws fromId = .ok ()) (hto : requireCommitted t ws toId = .ok ())
    (hL : L.Grants s n) :
    let bounded := ((computeGenerationDeltaWithLedger L H disk t ws fromId toId).start s).map
      Prod.fst
    (bounded = .ok none ∨
        bounded = (computeGenerationDelta H disk t ws fromId toId).map some) ∧
      (rowsRead t fromId + rowsRead t toId + rowQueries + identityCharges ≤ n →
        bounded = (computeGenerationDelta H disk t ws fromId toId).map some) ∧
      (fromId ≠ toId → ∃ delta, computeGenerationDelta H disk t ws fromId toId = .ok delta) ∧
      ∀ delta, bounded = .ok (some delta) → ∃ fp fp',
        providerFingerprint t fromId = .ok fp ∧ providerFingerprint t toId = .ok fp' ∧
          deriveDelta H disk ws fromId toId (snapshotOf H t fromId fp) (snapshotOf H t toId fp') =
            .ok delta := by
  obtain ⟨fp, hfp⟩ := exists_providerFingerprint hfrom
  obtain ⟨fp', hfp'⟩ := exists_providerFingerprint hto
  have hspends : Metered.Spends L (computeGenerationDeltaWithLedger L H disk t ws fromId toId) _ _ :=
    spends_computeGenerationDelta hfrom hto hfp hfp'
  obtain ⟨henough, hscarce⟩ := hspends.of_grants hL
  have hunbounded : computeGenerationDelta H disk t ws fromId toId = _ :=
    computeGenerationDelta_eq hfrom hto hfp hfp'
  dsimp only
  rw [hunbounded]
  refine ⟨?_, henough, fun hne => ⟨_, if_neg hne⟩, fun delta hdelta => ⟨fp, fp', hfp, hfp', ?_⟩⟩
  · rcases Nat.lt_or_ge n (derivationCost t fromId toId) with hlt | hle
    · exact Or.inl (hscarce hlt)
    · exact Or.inr (henough hle)
  · rcases Nat.lt_or_ge n (derivationCost t fromId toId) with hlt | hle
    · rw [hscarce hlt] at hdelta
      exact absurd hdelta (by simp)
    · rw [henough hle] at hdelta
      cases hd : deriveDelta H disk ws fromId toId (snapshotOf H t fromId fp)
          (snapshotOf H t toId fp') with
      | error e =>
        rw [hd] at hdelta
        exact absurd hdelta (by simp [Except.map])
      | ok d =>
        rw [hd] at hdelta
        rw [Option.some.inj (Except.ok.inj hdelta)]

end Lemmas

/-! ## Two generations without files -/

/-- A committed generation. -/
def committedGeneration (genId : String) (parent : Option String) (sequenceNo : ℕ) :
    IndexGeneration :=
  ⟨genId, "ws", parent, sequenceNo, .committed, .manual, none, "p", "1", 0, some 0, none, none,
    ⟨0, 0, 0, 0, 0, 0⟩⟩

/-- Two committed generations. -/
def twoGenerations : Tables :=
  { Tables.empty with
    indexGeneration := (Table.empty.insertOrIgnore (committedGeneration "g₁" none 1)).insertOrIgnore
      (committedGeneration "g₂" (some "g₁") 2) }

/-- There are no rows, so the ends of the queries and the single values make 16 charges. -/
theorem bounded_agrees_twoGenerations :
    ((computeGenerationDeltaWithLedger Ledger.limited Hasher.plain (fun _ => none) twoGenerations
          "ws" "g₁" "g₂").start 16).map Prod.fst =
        (computeGenerationDelta Hasher.plain (fun _ => none) twoGenerations "ws" "g₁" "g₂").map
          some ∧
      ∃ delta, computeGenerationDelta Hasher.plain (fun _ => none) twoGenerations "ws" "g₁" "g₂" =
        .ok delta := by
  obtain ⟨-, henough, hdelta, -⟩ := bounded_agrees Ledger.limited 16 16 Hasher.plain
    (fun _ => none) twoGenerations "ws" "g₁" "g₂" (by decide) (by decide) (Ledger.grants_limited 16)
  exact ⟨henough (by decide), hdelta (by decide)⟩

end Delta

end WorkspaceAtlas
