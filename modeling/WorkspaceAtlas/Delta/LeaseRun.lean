/-
# Evidence leases over runs

A lease that is reported valid is of the active generation, and its evidence and every identity
that it recorded are current there.  That the bytes of the file that carries the evidence are the
ones that were recorded follows only if the file that the caller names has the same bytes.  A
lease that was invalidated stays so.
-/
import WorkspaceAtlas.Delta.Lease
import WorkspaceAtlas.Delta.Unchanged
import WorkspaceAtlas.Transition.Iteration

namespace WorkspaceAtlas

open Relational Transition

namespace Delta

/-! ## What a lease depends on -/

section Evidence

variable (t : Tables) (genId kind key : String)

/-- A present file of the generation has the fact that the evidence is. -/
def CarriedBy (gf : GenerationFile) : Prop :=
  kind = "file" ∧ (gf.fileId = key ∨ gf.canonicalPath = key) ∨
  kind = "symbol" ∧ (∃ sf ∈ t.symbolFact, gf.revisionId = some sf.revisionId ∧
    (sf.canonicalSymbolKey = key ∨ sf.symbolFactId = key)) ∨
  kind = "relationship" ∧ (∃ rf ∈ t.relationshipFact, gf.revisionId = some rf.revisionId ∧
    (relationshipIdentity rf.sourceRefKind.asStr rf.sourceRefValue rf.relationshipType = key ∨
      rf.relationshipFactId = key)) ∨
  kind = "effect" ∧ (∃ ef ∈ t.effectFact, gf.revisionId = some ef.revisionId ∧
    (effectIdentity ef.subjectRefKind.asStr ef.subjectRefValue ef.effectType = key ∨
      ef.effectFactId = key)) ∨
  kind = "coverage" ∧ (∃ r ∈ t.coverageRecord, r.generationId = genId ∧ r.fileId = some gf.fileId ∧
    (r.scopeKind ++ ":" ++ r.scopeKey = key ∨ r.coverageId = key))

/-- The file at a path carries the evidence. -/
def Carries (path : String) : Prop :=
  ∃ gf ∈ presentFiles t genId, gf.canonicalPath = path ∧ CarriedBy t genId kind key gf

/-- The generation has the evidence: some file carries it, or it is a coverage record or a
conflict, which may be of no file. -/
def IsEvidence : Prop :=
  (∃ path, Carries t genId kind key path) ∨
  kind = "coverage" ∧ (∃ r ∈ t.coverageRecord, r.generationId = genId ∧
    (r.scopeKind ++ ":" ++ r.scopeKey = key ∨ r.coverageId = key)) ∨
  kind = "conflict" ∧ ∃ r ∈ t.evidenceConflict, r.generationId = genId ∧
    (conflictIdentity r.subjectKind r.subjectKey r.conflictType = key ∨
      r.evidenceConflictId = key)

/-- A relationship of a present file with the identity. -/
def HasIdentity (rf : RelationshipRow) : Prop :=
  (∃ gf ∈ presentFiles t genId, gf.revisionId = some rf.revisionId) ∧
    relationshipIdentity rf.sourceRefKind.asStr rf.sourceRefValue rf.relationshipType = key

/-- The resolutions of a relationship, which is named by its identity or else by its id. -/
def resolutionsOf : Set ResolutionRow :=
  {rr | rr ∈ t.relationshipResolution ∧ rr.generationId = genId ∧
    ((∃ rf ∈ t.relationshipFact, HasIdentity t genId key rf ∧
        rr.relationshipFactId = rf.relationshipFactId) ∨
      (∀ rf ∈ t.relationshipFact, ¬ HasIdentity t genId key rf) ∧ rr.relationshipFactId = key)}

/-- The conflicts that are named by an identity or else by an id. -/
def conflictsOf : Set ConflictRow :=
  {r | r ∈ t.evidenceConflict ∧ r.generationId = genId ∧
    (conflictIdentity r.subjectKind r.subjectKey r.conflictType = key ∨
      (∀ r' ∈ t.evidenceConflict, r'.generationId = genId →
        conflictIdentity r'.subjectKind r'.subjectKey r'.conflictType ≠ key) ∧
      r.evidenceConflictId = key)}

end Evidence

/-- Every row has the value, and there are some. -/
def AllHave {ρ : Type} (rows : Set ρ) (column : ρ → String) (value : String) : Prop :=
  rows.Nonempty ∧ ∀ r ∈ rows, column r = value

/-- The policy is the one that the evidence was resolved under, or the resolver's. -/
def ResolverCurrent (t : Tables) (lease : LeaseRow) (policy : String) : Prop :=
  if lease.evidenceKind = "relationship" then
    AllHave (resolutionsOf t lease.generationId lease.evidenceId)
      ResolutionRow.resolverPolicyVersion policy
  else policy = WorkspaceAtlas.resolverPolicyVersion

/-- The policy is the one that the evidence was projected under, or the projection's. -/
def ProjectionCurrent (t : Tables) (lease : LeaseRow) (policy : String) : Prop :=
  if lease.evidenceKind = "conflict" then
    AllHave (conflictsOf t lease.generationId lease.evidenceId)
      ConflictRow.projectionPolicyVersion policy
  else policy = Evidence.projectionPolicyVersion

/-- Everything that a lease depends on still holds. -/
structure Backed (H : Hasher) (s : LeaseStore) (ws : WorkspaceRecord) (lease : LeaseRow) :
    Prop where
  workspace : lease.workspaceId = ws.workspaceId
  active : ∃ w ∈ s.workspace, w.workspaceId = ws.workspaceId ∧
    w.activeGenerationId = some lease.generationId
  evidence : IsEvidence s.truth lease.generationId lease.evidenceKind lease.evidenceId
  source : ∀ hash ∈ lease.sourceRevisionHash, ∀ path,
    Carries s.truth lease.generationId lease.evidenceKind lease.evidenceId path →
      ∃ bytes, s.disk ws.canonicalRoot path = some bytes ∧ contentHashOfBytes H bytes = hash
  provider : ∀ fingerprint ∈ lease.providerFingerprint, ∃ g ∈ s.truth.indexGeneration,
    g.generationId = lease.generationId ∧ g.providerSetHash = fingerprint
  resolver : ∀ policy ∈ lease.resolverPolicyVersion, ResolverCurrent s.truth lease policy
  projection : ∀ policy ∈ lease.projectionPolicyVersion, ProjectionCurrent s.truth lease policy

/-! ## The statement -/

/-- The call reports the lease as valid. -/
def SaysValid (H : Hasher) (leaseId : String) (s : LeaseStore) : LeaseCall → Prop
  | .verify ws id canonicalPath now =>
    id = leaseId ∧ ∃ leases, verifyEvidenceLease H s ws id canonicalPath now = .ok (.valid, leases)
  | _ => False

/-- A lease that the call reports as valid depends on nothing that has changed. -/
def IsBacked (H : Hasher) (s : LeaseStore) : LeaseCall → Prop
  | .verify ws id canonicalPath now =>
    SaysValid H id s (.verify ws id canonicalPath now) →
      ∃ lease ∈ s.evidenceLease, lease.leaseId = id ∧ Backed H s ws lease
  | _ => True

/-- The call reports that it has invalidated the lease. -/
def InvalidatesLease (H : Hasher) (leaseId : String) (s : LeaseStore) : LeaseCall → Prop
  | .invalidate id reason now =>
    id = leaseId ∧ ∃ leases, invalidateEvidenceLease s.evidenceLease id reason now = .ok leases
  | .verify ws id canonicalPath now =>
    id = leaseId ∧ ∃ leases, (∃ observed, verifyEvidenceLease H s ws id canonicalPath now =
        .ok (.staleAutoInvalidated observed, leases)) ∨
      ∃ kind key expected observed, verifyEvidenceLease H s ws id canonicalPath now =
        .ok (.dependencyMismatchAutoInvalidated kind key expected observed, leases)
  | _ => False

/-- What is reported of leases in a run is true, and a lease that was invalidated is never
reported as valid again. -/
structure Trustworthy (H : Hasher) (s : LeaseStore) (calls : List LeaseCall) : Prop where
  backed : AllSteps (leaseStep H) (IsBacked H) s calls
  final : ∀ leaseId before call after, calls = before ++ call :: after →
    InvalidatesLease H leaseId (run (leaseStep H) s before) call →
      AllSteps (leaseStep H) (fun s call => ¬ SaysValid H leaseId s call)
        (run (leaseStep H) s (before ++ [call])) after

/-- The file that the caller names has the bytes of every file that carries the evidence, and the
digest that was recorded is not an empty text. -/
def NamesCarrier (s : LeaseStore) : LeaseCall → Prop
  | .verify ws id canonicalPath _ => ∀ lease ∈ s.evidenceLease, lease.leaseId = id →
    ∀ hash ∈ lease.sourceRevisionHash, ∀ path,
      Carries s.truth lease.generationId lease.evidenceKind lease.evidenceId path →
        s.disk ws.canonicalRoot path = s.disk ws.canonicalRoot canonicalPath ∧ hash ≠ ""
  | _ => True

section Lemmas

variable {H : Hasher} {t : Tables} {s : LeaseStore} {ws : WorkspaceRecord} {lease : LeaseRow}
  {genId kind key policy leaseId : String} {now : Timestamp} {leases : Table LeaseRow}

/-! ## What is read of the evidence -/

/-- An identity has the states of its rows. -/
lemma get_stateMap {σ κ : Type} [LinearOrder κ] {sortKey : σ → κ} {rows : List (String × σ)}
    {states : List σ} (h : (stateMap sortKey rows).get key = some states) {state : σ} :
    state ∈ states ↔ (key, state) ∈ rows := by
  obtain ⟨found, hfound, rfl⟩ := SortedMap.mem_mapValues.mp (SortedMap.get_eq_some_iff.mp h)
  obtain ⟨-, rfl⟩ := SortedMap.mem_group.mp hfound
  simp [mem_orderBy]

/-- An identity has states if it has rows. -/
lemma containsKey_stateMap {σ κ : Type} [LinearOrder κ] {sortKey : σ → κ}
    {rows : List (String × σ)} :
    (stateMap sortKey rows).containsKey key ↔ ∃ state, (key, state) ∈ rows := by
  rw [SortedMap.containsKey_iff]
  constructor
  · rintro ⟨states, h⟩
    obtain ⟨found, hfound, -⟩ := SortedMap.mem_mapValues.mp h
    exact (SortedMap.mem_group.mp hfound).1
  · intro h
    exact ⟨_, SortedMap.mem_mapValues.mpr ⟨_, SortedMap.mem_group.mpr ⟨h, rfl⟩, rfl⟩⟩

lemma onlyValue_eq_some {values : List String} (h : onlyValue values = some policy) :
    values ≠ [] ∧ ∀ value ∈ values, value = policy := by
  rw [onlyValue] at h
  split at h
  · rename_i value hdedup
    obtain rfl := Option.some.inj h
    have hmem : ∀ v, v ∈ values ↔ v = value := fun v => by
      rw [← List.mem_dedup, hdedup, List.mem_singleton]
    exact ⟨List.ne_nil_of_mem ((hmem value).mpr rfl), fun v hv => (hmem v).mp hv⟩
  · cases h

/-- Columns that only have one value. -/
lemma allHave_of_onlyValue {ρ : Type} {rows : Set ρ} {column : ρ → String} {values : List String}
    (hvalues : ∀ value, value ∈ values ↔ ∃ r ∈ rows, column r = value)
    (h : onlyValue values = some policy) : AllHave rows column policy := by
  obtain ⟨hne, hall⟩ := onlyValue_eq_some h
  obtain ⟨value, hvalue⟩ := List.exists_mem_of_ne_nil _ hne
  obtain ⟨r, hr, -⟩ := (hvalues value).mp hvalue
  exact ⟨⟨r, hr⟩, fun r hr => hall _ ((hvalues _).mpr ⟨r, hr, rfl⟩)⟩

/-- The facts that the revisions of the present files have. -/
lemma mem_ofPresentFiles {ρ : Type} [Keyed ρ] {facts : Table ρ} {revisionId : ρ → String} {r : ρ} :
    r ∈ (join (presentFiles t genId) facts.rows fun gf r =>
        gf.revisionId = some (revisionId r)).map Prod.snd ↔
      r ∈ facts ∧ ∃ gf ∈ presentFiles t genId, gf.revisionId = some (revisionId r) := by
  simp only [List.mem_map, Prod.exists, exists_eq_right, mem_join, decide_eq_true_eq,
    Table.mem_def]
  constructor
  · rintro ⟨gf, hgf, hr, hrevision⟩
    exact ⟨hr, gf, hgf, hrevision⟩
  · rintro ⟨hr, gf, hgf, hrevision⟩
    exact ⟨gf, hgf, hr, hrevision⟩

lemma mem_relationshipsQuery {rf : RelationshipRow} {rr : ResolutionRow} :
    (rf, some rr) ∈ relationshipsQuery t genId ↔
      (rf ∈ t.relationshipFact ∧ ∃ gf ∈ presentFiles t genId,
        gf.revisionId = some rf.revisionId) ∧ rr ∈ t.relationshipResolution ∧
        rr.generationId = genId ∧ rr.relationshipFactId = rf.relationshipFactId := by
  rw [relationshipsQuery, mem_orderBy, some_mem_leftJoin, mem_ofPresentFiles, decide_eq_true_eq]
  rfl

/-- The rows of the relationships are those of present files. -/
lemma exists_relationshipsQuery {rf : RelationshipRow} :
    (∃ rr, (rf, rr) ∈ relationshipsQuery t genId) ↔
      rf ∈ t.relationshipFact ∧ ∃ gf ∈ presentFiles t genId,
        gf.revisionId = some rf.revisionId := by
  simp only [relationshipsQuery, mem_orderBy, exists_mem_leftJoin, mem_ofPresentFiles]

/-- The evidence that is found is there. -/
lemma isEvidence_of_exists (h : evidenceExists H t genId kind key = true) :
    IsEvidence t genId kind key := by
  rw [evidenceExists.eq_def] at h
  split at h
  · simp only [List.any_eq_true, decide_eq_true_eq, filesFor, List.mem_map] at h
    obtain ⟨f, ⟨row, hrow, rfl⟩, hkey⟩ := h
    have hgf := fst_mem_of_leftJoin (mem_orderBy.mp hrow)
    exact .inl ⟨_, row.1, hgf, rfl, .inl ⟨rfl, hkey⟩⟩
  · simp only [decide_eq_true_eq] at h
    rcases h with h | ⟨gf, hgf, sf, hsf, hrevision, hid⟩
    · rw [SortedMap.containsKey, Unchanged.get_symbolsFor, Option.isSome_map,
        Option.isSome_iff_exists] at h
      obtain ⟨row, hrow⟩ := h
      have hmem := List.mem_of_getLast? hrow
      rw [List.mem_filter, decide_eq_true_eq] at hmem
      obtain ⟨hgf, -, ⟨hsf, hrevision⟩, -⟩ := Unchanged.mem_symbolsQuery.mp hmem.1
      exact .inl ⟨_, row.file, hgf, rfl, .inr (.inl ⟨rfl, row.fact, hsf, hrevision, .inl hmem.2⟩)⟩
    · exact .inl ⟨_, gf, hgf, rfl, .inr (.inl ⟨rfl, sf, hsf, hrevision, .inr hid⟩)⟩
  · simp only [decide_eq_true_eq] at h
    rcases h with h | ⟨gf, hgf, rf, hrf, hrevision, hid⟩
    · obtain ⟨state, hstate⟩ := containsKey_stateMap.mp h
      obtain ⟨⟨rf, rr⟩, hrow, hread⟩ := List.mem_map.mp hstate
      obtain ⟨hrf, gf, hgf, hrevision⟩ := exists_relationshipsQuery.mp ⟨rr, hrow⟩
      exact .inl ⟨_, gf, hgf, rfl, .inr (.inr (.inl
        ⟨rfl, rf, hrf, hrevision, .inl (congrArg Prod.fst hread)⟩))⟩
    · exact .inl ⟨_, gf, hgf, rfl, .inr (.inr (.inl ⟨rfl, rf, hrf, hrevision, .inr hid⟩))⟩
  · simp only [decide_eq_true_eq] at h
    rcases h with h | ⟨gf, hgf, ef, hef, hrevision, hid⟩
    · obtain ⟨state, hstate⟩ := containsKey_stateMap.mp h
      obtain ⟨ef, hrow, hread⟩ := List.mem_map.mp hstate
      obtain ⟨hef, gf, hgf, hrevision⟩ := mem_ofPresentFiles.mp (mem_orderBy.mp hrow)
      exact .inl ⟨_, gf, hgf, rfl, .inr (.inr (.inr (.inl
        ⟨rfl, ef, hef, hrevision, .inl (congrArg Prod.fst hread)⟩)))⟩
    · exact .inl ⟨_, gf, hgf, rfl, .inr (.inr (.inr (.inl ⟨rfl, ef, hef, hrevision, .inr hid⟩)))⟩
  · simp only [decide_eq_true_eq] at h
    rcases h with h | ⟨r, hr, hgen, hid⟩
    · obtain ⟨state, hstate⟩ := containsKey_stateMap.mp h
      obtain ⟨r, hrow, hread⟩ := List.mem_map.mp hstate
      obtain ⟨hr, hgen⟩ := List.mem_filter.mp (mem_orderBy.mp hrow)
      exact .inr (.inl ⟨rfl, r, hr, of_decide_eq_true hgen, .inl (congrArg Prod.fst hread)⟩)
    · exact .inr (.inl ⟨rfl, r, hr, hgen, .inr hid⟩)
  · simp only [decide_eq_true_eq] at h
    rcases h with h | ⟨r, hr, hgen, hid⟩
    · obtain ⟨state, hstate⟩ := containsKey_stateMap.mp h
      obtain ⟨r, hrow, hread⟩ := List.mem_map.mp hstate
      obtain ⟨hr, hgen⟩ := List.mem_filter.mp (mem_orderBy.mp hrow)
      exact .inr (.inr ⟨rfl, r, hr, of_decide_eq_true hgen, .inl (congrArg Prod.fst hread)⟩)
    · exact .inr (.inr ⟨rfl, r, hr, hgen, .inr hid⟩)
  · cases h

/-- An identity has states if some relationship of a present file has it. -/
lemma containsKey_relationshipsFor : (relationshipsFor t genId).containsKey key ↔
    ∃ rf ∈ t.relationshipFact, HasIdentity t genId key rf := by
  rw [relationshipsFor, containsKey_stateMap]
  simp only [List.mem_map, Prod.exists]
  constructor
  · rintro ⟨state, rf, rr, hrow, hread⟩
    obtain ⟨hrf, hfile⟩ := exists_relationshipsQuery.mp ⟨rr, hrow⟩
    exact ⟨rf, hrf, hfile, congrArg Prod.fst hread⟩
  · rintro ⟨rf, hrf, hfile, hidentity⟩
    obtain ⟨rr, hrow⟩ := exists_relationshipsQuery.mpr ⟨hrf, hfile⟩
    exact ⟨_, rf, rr, hrow, Prod.ext hidentity rfl⟩

/-- The policies of the states of an identity are those of its resolutions. -/
lemma mem_statePolicies {states : List RelationshipState} {value : String}
    (h : (relationshipsFor t genId).get key = some states) :
    value ∈ states.filterMap RelationshipState.resolverPolicyVersion ↔
      ∃ rr ∈ resolutionsOf t genId key, rr.resolverPolicyVersion = value := by
  simp only [List.mem_filterMap, get_stateMap h, List.mem_map, Prod.exists]
  constructor
  · rintro ⟨state, ⟨rf, rr, hrow, hread⟩, hvalue⟩
    obtain ⟨hidentity, rfl⟩ := Prod.mk.inj hread
    obtain ⟨rr, rfl, rfl⟩ := Option.map_eq_some_iff.mp hvalue
    obtain ⟨⟨hrf, hfile⟩, hrr, hgen, hid⟩ := mem_relationshipsQuery.mp hrow
    exact ⟨rr, ⟨hrr, hgen, .inl ⟨rf, hrf, ⟨hfile, hidentity⟩, hid⟩⟩, rfl⟩
  · rintro ⟨rr, ⟨hrr, hgen, ⟨rf, hrf, ⟨hfile, hidentity⟩, hid⟩ | ⟨hnone, -⟩⟩, rfl⟩
    · have hrow := mem_relationshipsQuery.mpr ⟨⟨hrf, hfile⟩, hrr, hgen, hid⟩
      exact ⟨_, ⟨rf, some rr, hrow, Prod.ext hidentity rfl⟩, rfl⟩
    · have hkey : (relationshipsFor t genId).containsKey key := by
        rw [SortedMap.containsKey, h]
        rfl
      obtain ⟨rf, hrf, hidentity⟩ := containsKey_relationshipsFor.mp hkey
      exact absurd hidentity (hnone rf hrf)

lemma resolverCurrent_of_policy (h : resolverPolicyOf t genId key = some policy) :
    AllHave (resolutionsOf t genId key) ResolutionRow.resolverPolicyVersion policy := by
  rw [resolverPolicyOf] at h
  split at h
  · exact allHave_of_onlyValue (fun value => mem_statePolicies ‹_›) h
  · rename_i hnone
    have hkey : ∀ rf ∈ t.relationshipFact, ¬ HasIdentity t genId key rf := by
      intro rf hrf hidentity
      have hsome := containsKey_relationshipsFor.mpr ⟨rf, hrf, hidentity⟩
      simp [SortedMap.containsKey, hnone] at hsome
    refine allHave_of_onlyValue (fun value => ?_) h
    simp only [List.mem_map, List.mem_filter, decide_eq_true_eq]
    constructor
    · rintro ⟨rr, ⟨hrr, hgen, hid⟩, rfl⟩
      exact ⟨rr, ⟨hrr, hgen, .inr ⟨hkey, hid⟩⟩, rfl⟩
    · rintro ⟨rr, ⟨hrr, hgen, ⟨rf, hrf, hidentity, -⟩ | ⟨-, hid⟩⟩, rfl⟩
      · exact absurd hidentity (hkey rf hrf)
      · exact ⟨rr, ⟨hrr, hgen, hid⟩, rfl⟩

/-- The states of a conflict are those of the conflicts of the generation with its identity. -/
lemma mem_conflictRows {state : ConflictState} :
    (key, state) ∈ (conflictsQuery t genId).map readConflict ↔
      ∃ r ∈ t.evidenceConflict, r.generationId = genId ∧ readConflict r = (key, state) := by
  simp only [conflictsQuery, List.mem_map, mem_orderBy, List.mem_filter, decide_eq_true_eq,
    Table.mem_def, and_assoc]

lemma projectionCurrent_of_policy (h : projectionPolicyOf t genId key = some policy) :
    AllHave (conflictsOf t genId key) ConflictRow.projectionPolicyVersion policy := by
  rw [projectionPolicyOf] at h
  split at h
  · rename_i states hstates
    have hkey : ∃ r ∈ t.evidenceConflict, r.generationId = genId ∧
        conflictIdentity r.subjectKind r.subjectKey r.conflictType = key := by
      have hsome : (conflictsFor t genId).containsKey key := by
        rw [SortedMap.containsKey, hstates]
        rfl
      obtain ⟨state, hstate⟩ := containsKey_stateMap.mp hsome
      obtain ⟨r, hr, hgen, hread⟩ := mem_conflictRows.mp hstate
      exact ⟨r, hr, hgen, congrArg Prod.fst hread⟩
    have hmem : ∀ state, state ∈ states ↔ ∃ r ∈ t.evidenceConflict, r.generationId = genId ∧
        readConflict r = (key, state) := fun state => (get_stateMap hstates).trans mem_conflictRows
    refine allHave_of_onlyValue (fun value => ?_) h
    simp only [List.mem_map, hmem]
    constructor
    · rintro ⟨state, ⟨r, hr, hgen, hread⟩, rfl⟩
      obtain ⟨hidentity, rfl⟩ := Prod.mk.inj hread
      exact ⟨r, ⟨hr, hgen, .inl hidentity⟩, rfl⟩
    · rintro ⟨r, ⟨hr, hgen, hidentity | ⟨hnone, -⟩⟩, rfl⟩
      · exact ⟨_, ⟨r, hr, hgen, Prod.ext hidentity rfl⟩, rfl⟩
      · obtain ⟨r', hr', hgen', hidentity⟩ := hkey
        exact absurd hidentity (hnone r' hr' hgen')
  · rename_i hnone
    have hkey : ∀ r ∈ t.evidenceConflict, r.generationId = genId →
        conflictIdentity r.subjectKind r.subjectKey r.conflictType ≠ key := by
      intro r hr hgen hidentity
      have hsome : (conflictsFor t genId).containsKey key :=
        containsKey_stateMap.mpr ⟨_, mem_conflictRows.mpr ⟨r, hr, hgen, Prod.ext hidentity rfl⟩⟩
      simp [SortedMap.containsKey, hnone] at hsome
    obtain ⟨r, hfind, rfl⟩ := Option.map_eq_some_iff.mp h
    have hr := Table.mem_of_find? hfind
    have hfound := Table.find?_some hfind
    simp only [decide_eq_true_eq] at hfound
    obtain ⟨hgen, hid⟩ := hfound
    refine ⟨⟨r, hr, hgen, .inr ⟨hkey, hid⟩⟩, ?_⟩
    rintro r' ⟨hr', hgen', hidentity | ⟨-, hid'⟩⟩
    · exact absurd hidentity (hkey r' hr' hgen')
    · rw [Table.eq_of_clash hr' hr (hid'.trans hid.symm)]

/-! ## What is compared -/

lemma requireCurrent_eq_valid {expected : String} {observed : Option String}
    {rest : LeaseAnswer}
    (h : requireCurrent s lease now kind expected observed rest = .ok (.valid, leases)) :
    observed = some expected ∧ rest = .ok (.valid, leases) := by
  rw [requireCurrent] at h
  split at h
  · obtain ⟨_, -, hreturned⟩ := bind_ok.mp h
    cases hreturned
  · exact ⟨not_not.mp ‹_›, h⟩

lemma requireRecorded_eq_valid {recorded : Option String} {dependency : LeaseDependencyKey}
    {rest : LeaseAnswer}
    (h : requireRecorded H s ws lease now kind recorded dependency rest = .ok (.valid, leases)) :
    (∀ expected ∈ recorded, currentDependencyDigest H s ws lease.generationId dependency =
      .ok (some expected)) ∧ rest = .ok (.valid, leases) := by
  rw [requireRecorded.eq_def] at h
  split at h
  · exact ⟨fun _ hnone => (Option.not_mem_none _ hnone).elim, h⟩
  · obtain ⟨observed, hobserved, hcompared⟩ := bind_ok.mp h
    obtain ⟨rfl, hrest⟩ := requireCurrent_eq_valid hcompared
    refine ⟨fun expected hexpected => ?_, hrest⟩
    rw [hobserved, Option.mem_some_iff.mp hexpected]

/-- The identities of a lease that is reported as valid are current. -/
lemma identities_of_valid (h : verifyIdentities H s ws lease now = .ok (.valid, leases)) :
    (∀ fingerprint ∈ lease.providerFingerprint, ∃ g ∈ s.truth.indexGeneration,
        g.generationId = lease.generationId ∧ g.providerSetHash = fingerprint) ∧
      (∀ policy ∈ lease.resolverPolicyVersion, ResolverCurrent s.truth lease policy) ∧
      ∀ policy ∈ lease.projectionPolicyVersion, ProjectionCurrent s.truth lease policy := by
  obtain ⟨hprovider, h⟩ := requireRecorded_eq_valid h
  obtain ⟨hresolver, h⟩ := requireRecorded_eq_valid h
  obtain ⟨hprojection, -⟩ := requireRecorded_eq_valid h
  refine ⟨fun fingerprint hf => ?_, fun policy hp => ?_, fun policy hp => ?_⟩
  · have hdigest := hprovider fingerprint hf
    rw [currentDependencyDigest, providerFingerprint] at hdigest
    split at hdigest
    · rename_i g hfind
      have hgen := Table.find?_some hfind
      simp only [decide_eq_true_eq] at hgen
      exact ⟨g, Table.mem_of_find? hfind, hgen, Option.some.inj (Except.ok.inj hdigest)⟩
    · cases hdigest
  · have hdigest := hresolver policy hp
    rw [currentDependencyDigest] at hdigest
    rw [ResolverCurrent]
    split
    · rename_i hkind
      rw [if_neg (not_not.mpr hkind)] at hdigest
      exact resolverCurrent_of_policy (Except.ok.inj hdigest)
    · rename_i hkind
      rw [if_pos hkind] at hdigest
      exact (Option.some.inj (Except.ok.inj hdigest)).symm
  · have hdigest := hprojection policy hp
    rw [currentDependencyDigest] at hdigest
    rw [ProjectionCurrent]
    split
    · rename_i hkind
      rw [if_neg (not_not.mpr hkind)] at hdigest
      exact projectionCurrent_of_policy (Except.ok.inj hdigest)
    · rename_i hkind
      rw [if_pos hkind] at hdigest
      exact (Option.some.inj (Except.ok.inj hdigest)).symm

/-- What a lease that is reported as valid was compared with. -/
lemma verifyStored_eq_valid {canonicalPath : String}
    (h : verifyStored H s ws lease now canonicalPath = .ok (.valid, leases)) :
    lease.workspaceId = ws.workspaceId ∧
      activeGenerationForWorkspace s ws.workspaceId = some lease.generationId ∧
      evidenceExists H s.truth lease.generationId lease.evidenceKind lease.evidenceId = true ∧
      (∀ hash ∈ lease.sourceRevisionHash,
        (liveSourceDigest H (s.disk ws.canonicalRoot) canonicalPath).getD "" = hash) ∧
      verifyIdentities H s ws lease now = .ok (.valid, leases) := by
  obtain ⟨hworkspace, hrest⟩ := requireCurrent_eq_valid h
  obtain ⟨hactive, hrest⟩ := requireCurrent_eq_valid hrest
  obtain ⟨observed, hobserved, hrest⟩ := bind_ok.mp hrest
  obtain ⟨rfl, hverified⟩ := requireCurrent_eq_valid hrest
  refine ⟨(Option.some.inj hworkspace).symm, hactive, ?_, ?_⟩
  · by_contra hnot
    rw [currentDependencyDigest, if_neg hnot] at hobserved
    cases hobserved
  · rw [verifySource.eq_def] at hverified
    cases hsource : lease.sourceRevisionHash with
    | some expected =>
      rw [hsource] at hverified
      obtain ⟨observed, hlive, hcompared⟩ := bind_ok.mp hverified
      obtain rfl := Except.ok.inj hlive
      simp only at hcompared
      split at hcompared
      · obtain ⟨_, -, hreturned⟩ := bind_ok.mp hcompared
        cases hreturned
      · refine ⟨fun hash hhash => ?_, hcompared⟩
        rw [← Option.mem_some_iff.mp hhash]
        exact not_not.mp ‹_›
    | none =>
      rw [hsource] at hverified
      simp only at hverified
      split at hverified
      · cases hverified
      · exact ⟨fun hash hhash => (Option.not_mem_none _ hhash).elim, hverified⟩

/-- **One verification.**  A lease that is reported as valid is backed if the file that is named
has the bytes of those that carry the evidence. -/
lemma isBacked_of_namesCarrier {call : LeaseCall} (h : NamesCarrier s call) :
    IsBacked H s call := by
  cases call with
  | verify ws id canonicalPath now =>
    rintro ⟨-, leases, hvalid⟩
    rw [verifyEvidenceLease] at hvalid
    split at hvalid
    · cases hvalid
    · rename_i lease hfind
      split at hvalid
      · cases hvalid
      · have hmem := Table.mem_of_find? hfind
        have hid := Table.find?_some hfind
        simp only [decide_eq_true_eq] at hid
        obtain ⟨hworkspace, hactive, hexists, hsource, hidentities⟩ :=
          verifyStored_eq_valid hvalid
        obtain ⟨hprovider, hresolver, hprojection⟩ := identities_of_valid hidentities
        refine ⟨lease, hmem, hid, ?_⟩
        exact
          { workspace := hworkspace
            active := by
              obtain ⟨w, hw, hgen⟩ := Option.bind_eq_some_iff.mp hactive
              have hfound := Table.find?_some hw
              simp only [decide_eq_true_eq] at hfound
              exact ⟨w, Table.mem_of_find? hw, hfound, hgen⟩
            evidence := isEvidence_of_exists hexists
            source := by
              intro hash hhash path hcarries
              obtain ⟨hbytes, hne⟩ := h lease hmem hid hash hhash path hcarries
              have hdigest := hsource hash hhash
              rw [liveSourceDigest, ← hbytes] at hdigest
              cases hread : s.disk ws.canonicalRoot path with
              | none =>
                rw [hread] at hdigest
                exact absurd hdigest.symm hne
              | some bytes =>
                rw [hread] at hdigest
                exact ⟨bytes, rfl, hdigest⟩
            provider := hprovider
            resolver := hresolver
            projection := hprojection }
  | create => trivial
  | invalidate => trivial
  | become => trivial
  | edit => trivial

/-! ## Leases that were invalidated -/

/-- A lease with the id is no longer valid. -/
def IsInvalid (s : LeaseStore) (leaseId : String) : Prop :=
  ∃ lease ∈ s.evidenceLease, lease.leaseId = leaseId ∧ lease.state ≠ .valid

/-- After leases are invalidated, a lease that was not valid still is not. -/
lemma isInvalid_of_invalidate {reason id : String}
    (h : invalidateEvidenceLease s.evidenceLease id reason now = .ok leases)
    (hinvalid : IsInvalid s leaseId ∨ id = leaseId) :
    IsInvalid { s with evidenceLease := leases } leaseId := by
  rw [invalidateEvidenceLease] at h
  split at h
  · cases h
  · rename_i hcount
    obtain rfl := Except.ok.inj h
    rcases hinvalid with ⟨lease, hmem, hid, hstate⟩ | rfl
    · refine ⟨lease, Table.mem_update_of_not hmem ?_, hid, hstate⟩
      simp [LeaseRow.isValidAs, hstate]
    · obtain ⟨lease, hmem, hvalid⟩ : ∃ lease ∈ s.evidenceLease,
          lease.isValidAs id = true := by
        by_contra hnone
        refine hcount (Table.count_eq_zero.mpr fun lease hlease => ?_)
        exact Bool.eq_false_iff.mpr fun hvalid => hnone ⟨lease, hlease, hvalid⟩
      have hid := hvalid
      simp only [LeaseRow.isValidAs, decide_eq_true_eq] at hid
      exact ⟨_, Table.mem_update_of_mem hmem hvalid, hid.1, by simp [LeaseRow.invalidated]⟩

/-- What a verification does to the leases: it invalidates the lease and reports that, or does
nothing. -/
def Settles (s : LeaseStore) (leaseId : String) (now : Timestamp) (answer : LeaseAnswer) : Prop :=
  ∀ outcome leases, answer = .ok (outcome, leases) →
    leases = s.evidenceLease ∧ (∀ observed, outcome ≠ .staleAutoInvalidated observed) ∧
        (∀ kind key expected observed,
          outcome ≠ .dependencyMismatchAutoInvalidated kind key expected observed) ∨
      ∃ reason, invalidateEvidenceLease s.evidenceLease leaseId reason now = .ok leases

lemma settles_requireCurrent {expected : String} {observed : Option String} {rest : LeaseAnswer}
    (h : Settles s lease.leaseId now rest) :
    Settles s lease.leaseId now (requireCurrent s lease now kind expected observed rest) := by
  intro outcome leases hanswer
  rw [requireCurrent] at hanswer
  split at hanswer
  · obtain ⟨invalidated, hinvalidate, hreturned⟩ := bind_ok.mp hanswer
    obtain ⟨-, rfl⟩ := Prod.mk.inj (Except.ok.inj hreturned)
    exact .inr ⟨_, hinvalidate⟩
  · exact h outcome leases hanswer

lemma settles_requireRecorded {recorded : Option String} {dependency : LeaseDependencyKey}
    {rest : LeaseAnswer} (h : Settles s lease.leaseId now rest) :
    Settles s lease.leaseId now
      (requireRecorded H s ws lease now kind recorded dependency rest) := by
  rw [requireRecorded.eq_def]
  split
  · exact h
  · intro outcome leases hanswer
    obtain ⟨observed, -, hcompared⟩ := bind_ok.mp hanswer
    exact settles_requireCurrent h outcome leases hcompared

lemma settles_verifyIdentities :
    Settles s lease.leaseId now (verifyIdentities H s ws lease now) := by
  refine settles_requireRecorded (settles_requireRecorded (settles_requireRecorded ?_))
  intro outcome leases hanswer
  obtain ⟨rfl, rfl⟩ := Prod.mk.inj (Except.ok.inj hanswer)
  exact .inl ⟨rfl, by simp, by simp⟩

lemma settles_verifySource {canonicalPath : String} :
    Settles s lease.leaseId now (verifySource H s ws lease now canonicalPath) := by
  rw [verifySource.eq_def]
  split
  · intro outcome leases hanswer
    obtain ⟨observed, -, hcompared⟩ := bind_ok.mp hanswer
    simp only at hcompared
    split at hcompared
    · obtain ⟨invalidated, hinvalidate, hreturned⟩ := bind_ok.mp hcompared
      obtain ⟨-, rfl⟩ := Prod.mk.inj (Except.ok.inj hreturned)
      exact .inr ⟨_, hinvalidate⟩
    · exact settles_verifyIdentities outcome leases hcompared
  · split
    · intro outcome leases hanswer
      obtain ⟨rfl, rfl⟩ := Prod.mk.inj (Except.ok.inj hanswer)
      exact .inl ⟨rfl, by simp, by simp⟩
    · exact settles_verifyIdentities

lemma settles_verifyStored {canonicalPath : String} :
    Settles s lease.leaseId now (verifyStored H s ws lease now canonicalPath) := by
  refine settles_requireCurrent (settles_requireCurrent ?_)
  intro outcome leases hanswer
  obtain ⟨observed, -, hcompared⟩ := bind_ok.mp hanswer
  exact settles_requireCurrent settles_verifySource outcome leases hcompared

lemma settles_verifyEvidenceLease {id canonicalPath : String} :
    Settles s id now (verifyEvidenceLease H s ws id canonicalPath now) := by
  rw [verifyEvidenceLease]
  split
  · intro outcome leases hanswer
    cases hanswer
  · rename_i lease hfind
    have hid := Table.find?_some hfind
    simp only [decide_eq_true_eq] at hid
    split
    · intro outcome leases hanswer
      obtain ⟨rfl, rfl⟩ := Prod.mk.inj (Except.ok.inj hanswer)
      exact .inl ⟨rfl, by simp, by simp⟩
    · rw [← hid]
      exact settles_verifyStored

/-- **Permanence, one call.**  A lease that is not valid stays so. -/
lemma isInvalid_step {call : LeaseCall} (h : IsInvalid s leaseId) :
    IsInvalid (leaseStep H s call) leaseId := by
  cases call with
  | create ws request now =>
    rw [leaseStep]
    cases hcreate : createEvidenceLease H s ws request now with
    | error e => exact h
    | ok answer =>
      obtain ⟨lease, hmem, hid, hstate⟩ := h
      refine ⟨lease, ?_, hid, hstate⟩
      rw [createEvidenceLease] at hcreate
      split at hcreate
      · obtain rfl := Except.ok.inj hcreate
        exact hmem
      · rename_i leases hinsert
        split at hcreate
        · obtain rfl := Except.ok.inj hcreate
          exact (Table.mem_of_insert? hinsert).mpr (.inl hmem)
        · cases hcreate
  | invalidate id reason now =>
    rw [leaseStep]
    cases hinvalidate : invalidateEvidenceLease s.evidenceLease id reason now with
    | error e => exact h
    | ok leases => exact isInvalid_of_invalidate hinvalidate (.inl h)
  | verify ws id canonicalPath now =>
    rw [leaseStep]
    cases hverify : verifyEvidenceLease H s ws id canonicalPath now with
    | error e => exact h
    | ok answer =>
      obtain ⟨outcome, leases⟩ := answer
      rcases settles_verifyEvidenceLease _ _ hverify with ⟨rfl, -⟩ | ⟨reason, hinvalidate⟩
      · exact h
      · exact isInvalid_of_invalidate hinvalidate (.inl h)
  | become workspace truth => exact h
  | edit disk => exact h

/-- A lease is not valid after it was invalidated. -/
lemma isInvalid_of_invalidates {call : LeaseCall} (h : InvalidatesLease H leaseId s call) :
    IsInvalid (leaseStep H s call) leaseId := by
  cases call with
  | create => cases h
  | invalidate id reason now =>
    obtain ⟨rfl, leases, hinvalidate⟩ := h
    rw [leaseStep, hinvalidate]
    exact isInvalid_of_invalidate hinvalidate (.inr rfl)
  | verify ws id canonicalPath now =>
    obtain ⟨rfl, leases, h⟩ := h
    rw [leaseStep]
    rcases h with ⟨observed, hverify⟩ | ⟨kind, key, expected, observed, hverify⟩
    · rcases settles_verifyEvidenceLease _ _ hverify with ⟨-, hstale, -⟩ | ⟨reason, hinvalidate⟩
      · exact absurd rfl (hstale observed)
      · rw [hverify]
        exact isInvalid_of_invalidate hinvalidate (.inr rfl)
    · rcases settles_verifyEvidenceLease _ _ hverify with ⟨-, -, hmismatch⟩ | ⟨reason, hinvalidate⟩
      · exact absurd rfl (hmismatch kind key expected observed)
      · rw [hverify]
        exact isInvalid_of_invalidate hinvalidate (.inr rfl)
  | become => cases h
  | edit => cases h

/-- A lease that is not valid is not reported as valid. -/
lemma not_saysValid_of_isInvalid {call : LeaseCall} (h : IsInvalid s leaseId) :
    ¬ SaysValid H leaseId s call := by
  cases call with
  | verify ws id canonicalPath now =>
    rintro ⟨rfl, leases, hverify⟩
    obtain ⟨lease, hmem, hid, hstate⟩ := h
    have hfind : s.evidenceLease.find? (fun r => r.leaseId = id) = some lease := by
      refine (Table.find?_eq_some_iff fun x _ y _ hx hy => ?_).mpr ⟨hmem, by simpa using hid⟩
      simp only [decide_eq_true_eq] at hx hy
      exact Or.inl (hx.trans hy.symm)
    rw [verifyEvidenceLease, hfind] at hverify
    simp only [if_pos hstate] at hverify
    cases hverify
  | create => exact id
  | invalidate => exact id
  | become => exact id
  | edit => exact id

/-- **Permanence, a run.** -/
lemma never_saysValid {calls : List LeaseCall} (h : IsInvalid s leaseId) :
    AllSteps (leaseStep H) (fun s call => ¬ SaysValid H leaseId s call) s calls := by
  induction calls generalizing s with
  | nil => trivial
  | cons call calls ih => exact ⟨not_saysValid_of_isInvalid h, ih (isInvalid_step h)⟩

end Lemmas

/-- **Leases over a run.**  In a run in which every verification names a file that has the bytes
of those that carry the evidence, what is reported of leases is true; and a lease that was
invalidated is never reported as valid again. -/
theorem trustworthy_of_namesCarrier (H : Hasher) (s : LeaseStore) (calls : List LeaseCall)
    (h : AllSteps (leaseStep H) NamesCarrier s calls) : Trustworthy H s calls where
  backed := by
    induction calls generalizing s with
    | nil => trivial
    | cons call calls ih => exact ⟨isBacked_of_namesCarrier h.1, ih _ h.2⟩
  final := by
    intro leaseId before call after _ hinvalidates
    rw [run_append]
    exact never_saysValid (isInvalid_of_invalidates hinvalidates)

/-! ## A lease on a file, and another file with the bytes it had -/

/-- Two files with the same bytes. -/
def copiedFile : LeaseStore where
  workspace := Table.empty.insertOrIgnore ⟨"ws", some "g"⟩
  truth :=
    { Tables.empty with
      indexGeneration := Table.empty.insertOrIgnore
        ⟨"g", "ws", none, 1, .committed, .reconcile, none, "", "", 0, some 0, none, none, .zero⟩
      fileRevision := (Table.empty.insertOrIgnore
        ⟨"r", "f", contentHashOfBytes Hasher.plain [1], 1, .source, none, false, false,
          0⟩).insertOrIgnore
        ⟨"r'", "f'", contentHashOfBytes Hasher.plain [1], 1, .source, none, false, false, 0⟩
      generationFile := (Table.empty.insertOrIgnore
        ⟨"g", "f", some "r", "a", .present, none, none, none, none⟩).insertOrIgnore
        ⟨"g", "f'", some "r'", "b", .present, none, none, none, none⟩ }
  evidenceLease := .empty
  disk _ path := if path = "a" ∨ path = "b" then some [1] else none

/-- A lease on the file `a` as it is. -/
def copiedRequest : LeaseRequest :=
  ⟨"g", "file", "a", some (contentHashOfBytes Hasher.plain [1]), none, none, none⟩

/-- Only `a` was edited. -/
def editedDisk : WorkingDirectory := fun path =>
  if path = "a" then some [2] else if path = "b" then some [1] else none

/-- The lease is created, the files become others. -/
def copiedEdit (disk : WorkingDirectory) : List LeaseCall :=
  [.create ⟨"ws", "/"⟩ copiedRequest 0, .edit fun _ => disk]

/-- The lease is verified with a path. -/
def copiedVerify (path : String) : LeaseCall :=
  .verify ⟨"ws", "/"⟩ (leaseIdOf Hasher.plain "ws" copiedRequest) path 0

/-- The only lease is the one that was created. -/
lemma mem_copied {disk : WorkingDirectory} {lease : LeaseRow}
    (h : lease ∈ (run (leaseStep Hasher.plain) copiedFile (copiedEdit disk)).evidenceLease) :
    lease = copiedRequest.row Hasher.plain "ws" 0 := by
  have hrows : (leaseStep Hasher.plain copiedFile (.create ⟨"ws", "/"⟩ copiedRequest
      0)).evidenceLease.rows = [copiedRequest.row Hasher.plain "ws" 0] := by decide
  exact List.mem_singleton.mp (hrows ▸ h)

/-- The file that carries the evidence is `a`. -/
lemma carries_copied {path : String} : Carries copiedFile.truth "g" "file" "a" path ↔
    path = "a" := by
  constructor
  · rintro ⟨gf, hgf, rfl, ⟨-, hkey⟩ | ⟨hkind, -⟩ | ⟨hkind, -⟩ | ⟨hkind, -⟩ | ⟨hkind, -⟩⟩
    · have hfiles : ∀ gf ∈ presentFiles copiedFile.truth "g", gf.fileId = "a" ∨
          gf.canonicalPath = "a" → gf.canonicalPath = "a" := by decide
      exact hfiles gf hgf hkey
    all_goals exact absurd hkind (by decide)
  · rintro rfl
    have hfile : ∃ gf ∈ presentFiles copiedFile.truth "g", gf.canonicalPath = "a" := by
      decide
    obtain ⟨gf, hgf, hpath⟩ := hfile
    exact ⟨gf, hgf, hpath, .inl ⟨rfl, .inr hpath⟩⟩

theorem trustworthy_copied : Trustworthy Hasher.plain copiedFile
    (copiedEdit (copiedFile.disk "/") ++ [copiedVerify "a"]) := by
  refine trustworthy_of_namesCarrier Hasher.plain copiedFile _ ⟨trivial, trivial, ?_, trivial⟩
  intro lease hmem _ hash hhash path hcarries
  obtain rfl := mem_copied hmem
  obtain rfl := carries_copied.mp hcarries
  obtain rfl := Option.mem_some_iff.mp hhash
  exact ⟨rfl, by decide⟩

/-- The lease on the file is reported as valid although the file was edited, if the path is that of
a copy. -/
theorem copied_not_trustworthy :
    ¬ Trustworthy Hasher.plain copiedFile (copiedEdit editedDisk ++ [copiedVerify "b"]) := by
  intro h
  have hvalid : verifyEvidenceLease Hasher.plain
      (run (leaseStep Hasher.plain) copiedFile (copiedEdit editedDisk)) ⟨"ws", "/"⟩
      (leaseIdOf Hasher.plain "ws" copiedRequest) "b" 0 =
        .ok (.valid, (run (leaseStep Hasher.plain) copiedFile
          (copiedEdit editedDisk)).evidenceLease) := by
    decide
  obtain ⟨-, -, hbacked, -⟩ := h.backed
  obtain ⟨lease, hmem, -, hlease⟩ := hbacked ⟨rfl, _, hvalid⟩
  obtain rfl := mem_copied hmem
  obtain ⟨bytes, hbytes, hdigest⟩ := hlease.source _ rfl "a" (carries_copied.mpr rfl)
  obtain rfl : bytes = [2] := (Option.some.inj hbytes).symm
  revert hdigest
  decide

end Delta

end WorkspaceAtlas
