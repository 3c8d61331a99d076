/-
# Evidence clusters

The pass also groups the relationships of a generation by their type, their source and the
first token of their raw target, and records for every group whether its facts agree on what
they resolve to.  The place of an occurrence is not a part of the group, nor a column of the
fact, so all references of a document to symbols of one scheme are in one group.
-/
import Mathlib.Data.String.Basic
import WorkspaceAtlas.Relational.Query
import WorkspaceAtlas.Semantic.Kept
import WorkspaceAtlas.Serving.Store

namespace WorkspaceAtlas

open Relational Text

/-! ## `project_cluster` -/

/-- `EvidenceFact`. -/
structure EvidenceFact where
  factId : String
  providerKey : String
  evidenceTierRank : ℤ
  providerPriority : Option ℤ
  deterministic : Bool
  confidence : ℚ
  resolvedTarget : Option String
  deriving DecidableEq, Repr

/-- `ClusterOutcome`. -/
inductive ClusterOutcome where
  | corroborated (preferredFactId : String) (corroboratingFactIds : List String)
  | conflict (preferredFactId : String) (allFactIds : List String) (explanation : String)
  deriving DecidableEq, Repr

/-- `preference_key`. -/
def preferenceKey (f : EvidenceFact) : ℤ ×ₗ ℤ ×ₗ ℤ ×ₗ ℤ ×ₗ String ×ₗ String :=
  let scaled := f.confidence * 1000000
  toLex (f.providerPriority.getD 0, toLex (f.evidenceTierRank,
    toLex (scaled.num.tdiv scaled.den, toLex (if f.deterministic then 1 else 0,
      toLex (f.providerKey, f.factId)))))

/-- The targets that the facts resolve to. -/
def distinctTargets (facts : List EvidenceFact) : List String :=
  (facts.filterMap EvidenceFact.resolvedTarget).dedup

/-- `project_cluster`. -/
def projectCluster (facts : List EvidenceFact) : Option ClusterOutcome :=
  match facts with
  | [] => none
  | [f] => some (.corroborated f.factId [])
  | f :: rest =>
    -- the highest preference first
    let ordered := orderBy (fun f => OrderDual.toDual (preferenceKey f)) (f :: rest)
    let preferred := ordered.headD f
    if (distinctTargets (f :: rest)).length ≤ 1 then
      some (.corroborated preferred.factId
        (((f :: rest).filter fun g => g.factId ≠ preferred.factId).map EvidenceFact.factId))
    else
      some (.conflict preferred.factId ((f :: rest).map EvidenceFact.factId)
        (toString (f :: rest).length ++ " facts disagree on resolved target (" ++
          toString (distinctTargets (f :: rest)).length ++ " distinct targets); preferred " ++
          preferred.providerKey ++ " by provider priority/tier/confidence"))

/-! ## The rows of clusters -/

/-- A row of `evidence_conflict` with the columns that no reader needs, less its time. -/
structure ClusterRow extends EvidenceConflict where
  workspaceId : String
  conflictType : String
  participatingFactIds : List String
  preferredFactId : Option String
  projectionPolicyVersion : String
  explanation : String
  deriving DecidableEq, Repr

instance : Keyed ClusterRow := .ofKey fun r => r.evidenceConflictId

/-- The text of what a conflict is about. -/
def ConflictSubject.asStr : ConflictSubject → String
  | symbol => "symbol"
  | relationship => "relationship"
  | effect => "effect"
  | coverage => "coverage"

/-- The id of a cluster. -/
def evidenceConflictId (H : Hasher) (workspaceId generationId : String)
    (subjectKind : ConflictSubject) (subjectKey conflictType policy : String) : String :=
  deterministicId H "evc"
    [workspaceId, generationId, subjectKind.asStr, subjectKey, conflictType, policy]

/-- `record_cluster_projection`. -/
def recordClusterProjection (H : Hasher) (t : Table ClusterRow)
    (workspaceId generationId : String) (subjectKind : ConflictSubject)
    (subjectKey conflictType : String) (participatingFactIds : List String)
    (preferredFactId : Option String) (policy : String) (status : ConflictStatus)
    (explanation : String) : Table ClusterRow :=
  t.insertOrIgnore
    { evidenceConflictId := evidenceConflictId H workspaceId generationId subjectKind subjectKey
        conflictType policy
      workspaceId := workspaceId
      generationId := generationId
      subjectKind := subjectKind
      subjectKey := subjectKey
      conflictType := conflictType
      participatingFactIds := participatingFactIds
      preferredFactId := preferredFactId
      projectionPolicyVersion := policy
      status := status
      explanation := explanation }

/-- `record_evidence_conflict`. -/
def recordEvidenceConflict (H : Hasher) (t : Table ClusterRow)
    (workspaceId generationId : String) (subjectKind : ConflictSubject)
    (subjectKey conflictType : String) (participatingFactIds : List String)
    (preferredFactId : Option String) (policy explanation : String) : Table ClusterRow :=
  recordClusterProjection H t workspaceId generationId subjectKind subjectKey conflictType
    participatingFactIds preferredFactId policy
    (if preferredFactId.isSome then .preferredWithConflict else .open_) explanation

/-- `record_corroboration`. -/
def recordCorroboration (H : Hasher) (t : Table ClusterRow)
    (workspaceId generationId : String) (subjectKind : ConflictSubject) (subjectKey : String)
    (participatingFactIds : List String) (preferredFactId policy : String) :
    Table ClusterRow :=
  recordClusterProjection H t workspaceId generationId subjectKind subjectKey "corroboration"
    participatingFactIds (some preferredFactId) policy .corroborated
    (toString participatingFactIds.length ++ " facts agree on the resolved target")

/-- `persist_cluster_outcome`. -/
def persistClusterOutcome (H : Hasher) (t : Table ClusterRow)
    (workspaceId generationId : String) (subjectKind : ConflictSubject) (subjectKey : String)
    (outcome : ClusterOutcome) (policy : String) : Table ClusterRow :=
  match outcome with
  | .corroborated preferredFactId corroboratingFactIds =>
    recordCorroboration H t workspaceId generationId subjectKind subjectKey
      (preferredFactId :: corroboratingFactIds) preferredFactId policy
  | .conflict preferredFactId allFactIds explanation =>
    recordEvidenceConflict H t workspaceId generationId subjectKind subjectKey
      "incompatible_target" allFactIds (some preferredFactId) policy explanation

/-! ## `run_resolution_pass` -/

/-- `char::is_whitespace`. -/
def isWhitespace (c : Char) : Bool :=
  let n := c.toNat
  9 ≤ n ∧ n ≤ 13 ∨ 8192 ≤ n ∧ n ≤ 8202 ∨
    n ∈ [32, 133, 160, 5760, 8232, 8233, 8239, 8287, 12288]

/-- `split_whitespace().next().unwrap_or("")`. -/
def firstToken (s : String) : String :=
  String.ofList ((s.toList.dropWhile isWhitespace).takeWhile fun c => !isWhitespace c)

/-- What a run is joined with: the provider of the newest execution that it is linked to, with
the provider's priority in the workspace. -/
structure RunProvider where
  providerKey : String
  priority : ℤ
  deterministic : Bool
  deriving DecidableEq, Repr

/-- The key of the cluster of a fact. -/
def RelationshipFact.clusterKey (f : RelationshipFact) : String :=
  f.relationshipType.asStr ++ "\x1f" ++ f.sourceRefValue ++ "\x1f" ++ firstToken f.targetRefValue

/-- The value of what a fact resolves to. -/
def RelationshipFact.resolvedTarget (u : SymbolUniverse) (f : RelationshipFact) : Option String :=
  (resolveRelationship f.synthetic u).resolved.map ResolvedRef.value

namespace Evidence

/-- `PROJECTION_POLICY_VERSION`. -/
def projectionPolicyVersion : String := "preferred-evidence-1.0.0"

/-- The semantic relationships of a generation with the providers of their runs. -/
def linkedRows (t : FactTables) (files : Table GenerationFile) (gid : String)
    (providerOf : String → Option RunProvider) : List (RelationshipFact × RunProvider) :=
  t.relationshipFact.rows.flatMap fun rf => ((revisedFiles files gid).filter fun p =>
    p.2 = rf.revisionId ∧ rf.evidenceMethod = .semantic).flatMap fun _ =>
      ((providerOf rf.extractorRunId).map (rf, ·)).toList

/-- What a row contributes to its cluster. -/
def evidenceFact (u : SymbolUniverse) (row : RelationshipFact × RunProvider) : EvidenceFact where
  factId := row.1.relationshipFactId
  providerKey := row.2.providerKey
  evidenceTierRank := 800
  providerPriority := some row.2.priority
  deterministic := row.2.deterministic
  confidence := row.1.confidence
  resolvedTarget := row.1.resolvedTarget u

/-- The clusters of some rows; their order does not matter. -/
def clusters (u : SymbolUniverse) (rows : List (RelationshipFact × RunProvider)) :
    List (String × List EvidenceFact) :=
  (rows.map fun row => row.1.clusterKey).dedup.map fun key =>
    (key, (rows.filter fun row => row.1.clusterKey = key).map (evidenceFact u))

/-- One cluster. -/
def persistCluster (H : Hasher) (workspaceId gid : String) (t : Table ClusterRow)
    (cluster : String × List EvidenceFact) : Table ClusterRow :=
  match projectCluster cluster.2 with
  | none => t
  | some outcome =>
    persistClusterOutcome H t workspaceId gid .relationship cluster.1 outcome
      projectionPolicyVersion

/-- `run_resolution_pass`. -/
def runResolutionPass (H : Hasher) (t : FactTables) (files : Table GenerationFile)
    (resolutions : Table RelationshipResolution) (conflicts : Table ClusterRow)
    (workspaceId gid : String) (providerOf : String → Option RunProvider) (now : Timestamp) :
    Table RelationshipResolution × Table ClusterRow :=
  let symbols := SymbolUniverse.ofRows (symbolRows t files gid)
  let rows := linkedRows t files gid providerOf
  (rows.foldl (fun resolutions row =>
      recordRelationshipResolution resolutions workspaceId gid row.1.relationshipFactId
        resolverPolicyVersion now (resolveRelationship row.1.synthetic symbols)) resolutions,
    (clusters symbols rows).foldl (persistCluster H workspaceId gid) conflicts)

/-! ## Occurrences -/

/-- The place that a relationship was found at: the revision, the source, and where the span
starts. -/
structure Occurrence where
  revisionId : String
  source : RefKind × String
  startLine : ℤ
  startColumn : ℤ
  deriving DecidableEq, Repr

/-- A fact is the row of a relationship of a kind at an occurrence. -/
def EmittedFor (H : Hasher) (f : RelationshipFact) (o : Occurrence) (kind : ScipRelationship) :
    Prop :=
  ∃ (rel : MappedRelationship) (seen : List (List UInt8)),
    f = rel.row H f.extractorRunId f.revisionId seen ∧ kind = rel.relationshipType ∧
      o = ⟨f.revisionId, rel.source, rel.sourceStartLine, rel.sourceStartColumn⟩

/-- Two facts are about one occurrence and one kind of relationship. -/
def SameOccurrence (H : Hasher) (a b : RelationshipFact) : Prop :=
  ∃ o kind, EmittedFor H a o kind ∧ EmittedFor H b o kind

/-- Two facts about one occurrence and one kind resolve to different targets. -/
def Disagree (H : Hasher) (u : SymbolUniverse) (a b : RelationshipFact) : Prop :=
  SameOccurrence H a b ∧
    ∃ x y, a.resolvedTarget u = some x ∧ b.resolvedTarget u = some y ∧ x ≠ y

/-- A subject with a conflict has facts that disagree. -/
def RealConflicts (H : Hasher) (u : SymbolUniverse) (gid : String)
    (rows : List (RelationshipFact × RunProvider)) (conflicts : Table ClusterRow) : Prop :=
  ∀ c ∈ conflicts, c.generationId = gid → c.conflictType = "incompatible_target" →
    ∃ a ∈ rows, ∃ b ∈ rows, a.1.clusterKey = c.subjectKey ∧ b.1.clusterKey = c.subjectKey ∧
      Disagree H u a.1 b.1

/-- The fact resolves to something. -/
def Resolves (u : SymbolUniverse) (f : RelationshipFact) : Prop :=
  (resolveRelationship f.synthetic u).resolved.isSome = true

/-- Facts that share their type, their source and the first token of their target, and resolve
to different keys, are in the company of such facts about one occurrence and one kind. -/
def OneTargetEach (H : Hasher) (u : SymbolUniverse)
    (rows : List (RelationshipFact × RunProvider)) : Prop :=
  ∀ a ∈ rows, ∀ b ∈ rows, a.1.clusterKey = b.1.clusterKey → Resolves u a.1 → Resolves u b.1 →
    a.1.canonicalTargetValue ≠ b.1.canonicalTargetValue →
      ∃ c ∈ rows, ∃ d ∈ rows, c.1.clusterKey = a.1.clusterKey ∧
        d.1.clusterKey = a.1.clusterKey ∧ SameOccurrence H c.1 d.1 ∧ Resolves u c.1 ∧
          Resolves u d.1 ∧ c.1.canonicalTargetValue ≠ d.1.canonicalTargetValue

/-- No cluster of the generation is recorded yet, and the ids are hashed from their columns. -/
structure FreshEvidence (H : Hasher) (workspaceId gid : String) (t : Table ClusterRow) :
    Prop where
  plain : '\x1f' ∉ workspaceId.toList ∧ '\x1f' ∉ gid.toList
  rows_plain : ∀ x ∈ t, '\x1f' ∉ x.workspaceId.toList ∧ '\x1f' ∉ x.generationId.toList
  rows_hashed : ∀ x ∈ t, x.evidenceConflictId = evidenceConflictId H x.workspaceId x.generationId
    x.subjectKind x.subjectKey x.conflictType x.projectionPolicyVersion
  unused : ∀ x ∈ t, x.generationId ≠ gid

section Lemmas

variable {H : Hasher} {t : FactTables} {files : Table GenerationFile} {gid ws : String}
  {providerOf : String → Option RunProvider} {u : SymbolUniverse} {f a b : RelationshipFact}
  {facts : List EvidenceFact} {rows : List (RelationshipFact × RunProvider)}
  {conflicts : Table ClusterRow} {x y key : String}

/-! ## The rows of the pass -/

/-- The rows are those whose resolutions are recorded. -/
lemma map_fst_linkedRows {linked : List String}
    (hlinked : ∀ run, run ∈ linked ↔ (providerOf run).isSome = true) :
    (linkedRows t files gid providerOf).map Prod.fst = linkedFacts t files gid linked := by
  rw [linkedRows, linkedFacts, List.map_flatMap]
  refine List.flatMap_congr fun rf _ => ?_
  induction revisedFiles files gid with
  | nil => rfl
  | cons p l ih =>
    rw [List.filter_cons, List.filter_cons]
    by_cases hp : p.2 = rf.revisionId ∧ rf.evidenceMethod = .semantic
    · cases hrun : providerOf rf.extractorRunId with
      | none =>
        have hnot : rf.extractorRunId ∉ linked := by simp [hlinked, hrun]
        simp [hp, hnot]
      | some q =>
        have hin : rf.extractorRunId ∈ linked := (hlinked _).mpr (by rw [hrun]; rfl)
        simpa [hp, hrun, hin] using ih
    · have hp' : ¬ (p.2 = rf.revisionId ∧ rf.evidenceMethod = .semantic ∧
          rf.extractorRunId ∈ linked) := fun h => hp ⟨h.1, h.2.1⟩
      rw [if_neg (by simpa using hp), if_neg (by simpa using hp')]
      exact ih

/-- The clusters do not change what the pass resolves. -/
lemma fst_runResolutionPass {resolutions : Table RelationshipResolution} {now : Timestamp}
    {linked : List String} (hlinked : ∀ run, run ∈ linked ↔ (providerOf run).isSome = true) :
    (runResolutionPass H t files resolutions conflicts ws gid providerOf now).1 =
      WorkspaceAtlas.runResolutionPass t files resolutions ws gid linked now := by
  rw [WorkspaceAtlas.runResolutionPass, ← map_fst_linkedRows hlinked, List.foldl_map]
  rfl

lemma resolved_value {rel : MappedRelationship} {r : ResolvedRef}
    (h : (resolveRelationship rel u).resolved = some r) : r.value = rel.targetRefValue := by
  rw [resolveRelationship] at h
  split_ifs at h
  · exact Option.some.inj h ▸ rfl
  · exact Option.some.inj h ▸ rfl
  · exact Option.some.inj h ▸ rfl
  · exact Option.some.inj h ▸ rfl
  · exact Option.some.inj h ▸ rfl
  · exact Option.some.inj h ▸ rfl
  · rw [resolveByDisplayName] at h
    dsimp only at h
    split at h
    · exact absurd h (by simp)
    · split at h
      · exact absurd h (by simp)
      · exact absurd h (by simp)

/-- What a fact resolves to is the key that it was looked up by. -/
lemma resolvedTarget_eq_some_iff :
    f.resolvedTarget u = some x ↔ Resolves u f ∧ f.canonicalTargetValue = x := by
  rw [RelationshipFact.resolvedTarget, Option.map_eq_some_iff, Resolves, Option.isSome_iff_exists]
  constructor
  · rintro ⟨r, hr, rfl⟩
    exact ⟨⟨r, hr⟩, (resolved_value hr).symm⟩
  · rintro ⟨⟨r, hr⟩, rfl⟩
    exact ⟨r, hr, resolved_value hr⟩

lemma disagree_iff : Disagree H u a b ↔ SameOccurrence H a b ∧ Resolves u a ∧ Resolves u b ∧
    a.canonicalTargetValue ≠ b.canonicalTargetValue := by
  constructor
  · rintro ⟨hsame, x, y, hx, hy, hne⟩
    obtain ⟨ha, rfl⟩ := resolvedTarget_eq_some_iff.mp hx
    obtain ⟨hb, rfl⟩ := resolvedTarget_eq_some_iff.mp hy
    exact ⟨hsame, ha, hb, hne⟩
  · rintro ⟨hsame, ha, hb, hne⟩
    exact ⟨hsame, _, _, resolvedTarget_eq_some_iff.mpr ⟨ha, rfl⟩,
      resolvedTarget_eq_some_iff.mpr ⟨hb, rfl⟩, hne⟩

/-! ## Clusters -/

lemma length_distinctTargets_le_one : (distinctTargets facts).length ≤ 1 ↔
    ∀ x ∈ facts.filterMap EvidenceFact.resolvedTarget,
      ∀ y ∈ facts.filterMap EvidenceFact.resolvedTarget, x = y := by
  rw [distinctTargets, ← List.card_toFinset, Finset.card_le_one]
  simp only [List.mem_toFinset]

/-- Facts are in conflict if they resolve to two targets. -/
lemma projectCluster_conflict_iff :
    (∃ preferred all explanation,
        projectCluster facts = some (.conflict preferred all explanation)) ↔
      ∃ x ∈ facts.filterMap EvidenceFact.resolvedTarget,
        ∃ y ∈ facts.filterMap EvidenceFact.resolvedTarget, x ≠ y := by
  have hiff : (∃ x ∈ facts.filterMap EvidenceFact.resolvedTarget,
      ∃ y ∈ facts.filterMap EvidenceFact.resolvedTarget, x ≠ y) ↔
        ¬ (distinctTargets facts).length ≤ 1 := by
    rw [length_distinctTargets_le_one]
    simp only [not_forall, exists_prop, ne_eq]
  rw [hiff]
  have hshort : facts.length ≤ 1 → (distinctTargets facts).length ≤ 1 := fun h =>
    ((List.dedup_sublist _).length_le.trans (List.length_filterMap_le _ _)).trans h
  cases facts with
  | nil => exact iff_of_false (by simp [projectCluster]) (not_not.mpr (hshort (by simp)))
  | cons f rest =>
    cases rest with
    | nil => exact iff_of_false (by simp [projectCluster]) (not_not.mpr (hshort (by simp)))
    | cons g rest =>
      dsimp only [projectCluster]
      split
      next h => exact iff_of_false (by simp) (not_not.mpr h)
      next h => exact iff_of_true ⟨_, _, _, rfl⟩ h

lemma mem_clusters {cluster : String × List EvidenceFact} : cluster ∈ clusters u rows ↔
    (∃ row ∈ rows, row.1.clusterKey = cluster.1) ∧
      cluster.2 = (rows.filter fun row => row.1.clusterKey = cluster.1).map (evidenceFact u) := by
  simp only [clusters, List.mem_map, List.mem_dedup]
  constructor
  · rintro ⟨key, hkey, rfl⟩
    exact ⟨hkey, rfl⟩
  · rintro ⟨hkey, hfacts⟩
    exact ⟨cluster.1, hkey, Prod.ext rfl hfacts.symm⟩

/-- The targets of a cluster. -/
lemma mem_targets :
    x ∈ ((rows.filter fun row => row.1.clusterKey = key).map (evidenceFact u)).filterMap
      EvidenceFact.resolvedTarget ↔
    ∃ row ∈ rows, row.1.clusterKey = key ∧ row.1.resolvedTarget u = some x := by
  simp only [List.mem_filterMap, List.mem_map, List.mem_filter, decide_eq_true_eq]
  constructor
  · rintro ⟨-, ⟨row, ⟨hrow, hkey⟩, rfl⟩, hx⟩
    exact ⟨row, hrow, hkey, hx⟩
  · rintro ⟨row, hrow, hkey, hx⟩
    exact ⟨evidenceFact u row, ⟨row, ⟨hrow, hkey⟩, rfl⟩, hx⟩

/-! ## The rows of clusters -/

/-- The row of an outcome. -/
def outcomeRow (H : Hasher) (ws gid key : String) : ClusterOutcome → ClusterRow
  | .corroborated preferred others =>
    ⟨⟨evidenceConflictId H ws gid .relationship key "corroboration" projectionPolicyVersion, gid,
      .relationship, key, .corroborated⟩, ws, "corroboration", preferred :: others,
      some preferred, projectionPolicyVersion,
      toString (preferred :: others).length ++ " facts agree on the resolved target"⟩
  | .conflict preferred all explanation =>
    ⟨⟨evidenceConflictId H ws gid .relationship key "incompatible_target"
      projectionPolicyVersion, gid, .relationship, key, .preferredWithConflict⟩, ws,
      "incompatible_target", all, some preferred, projectionPolicyVersion, explanation⟩

/-- The rows of some clusters. -/
def clusterRows (H : Hasher) (ws gid : String) (l : List (String × List EvidenceFact)) :
    List ClusterRow :=
  l.filterMap fun cluster => (projectCluster cluster.2).map (outcomeRow H ws gid cluster.1)

lemma foldl_persistCluster {l : List (String × List EvidenceFact)} :
    l.foldl (persistCluster H ws gid) conflicts =
      (clusterRows H ws gid l).foldl Table.insertOrIgnore conflicts := by
  induction l generalizing conflicts with
  | nil => rfl
  | cons cluster l ih =>
    rw [List.foldl_cons, ih, clusterRows, clusterRows, List.filterMap_cons, persistCluster]
    cases hout : projectCluster cluster.2 with
    | none => rfl
    | some outcome =>
      cases outcome with
      | corroborated preferred others => rfl
      | conflict preferred all explanation => rfl

lemma outcomeRow_generationId (outcome : ClusterOutcome) :
    (outcomeRow H ws gid key outcome).generationId = gid := by
  cases outcome <;> rfl

lemma outcomeRow_subjectKey (outcome : ClusterOutcome) :
    (outcomeRow H ws gid key outcome).subjectKey = key := by
  cases outcome <;> rfl

/-- Rows with one id are about the same generation, and are of one type and about one subject if
they have the policy and the kind of the pass. -/
lemma evidenceConflictId_inj (hH : H.Injective) {ws' gid' key' type type' policy' : String}
    {kind' : ConflictSubject}
    (hws : '\x1f' ∉ ws.toList) (hws' : '\x1f' ∉ ws'.toList) (hgid : '\x1f' ∉ gid.toList)
    (hgid' : '\x1f' ∉ gid'.toList)
    (h : evidenceConflictId H ws' gid' kind' key' type' policy' =
      evidenceConflictId H ws gid .relationship key type projectionPolicyVersion) :
    gid' = gid ∧ (kind' = .relationship → policy' = projectionPolicyVersion →
      '\x1f' ∉ type.toList → '\x1f' ∉ type'.toList → key' = key) := by
  have htext := (deterministicId_eq_iff hH).mp h
  simp only [List.flatMap_cons, List.flatMap_nil, List.append_nil, List.append_assoc,
    List.singleton_append] at htext
  obtain ⟨-, htext⟩ := append_sep_inj hws' hws htext
  obtain ⟨hgids, htext⟩ := append_sep_inj hgid' hgid htext
  refine ⟨String.toList_inj.mp hgids, ?_⟩
  rintro rfl rfl htype htype'
  have hrest := List.append_cancel_left htext
  -- the subject may have a separator in it, so the text is read from its end
  have hreverse := congrArg List.reverse (List.cons.inj hrest).2
  simp only [List.reverse_append, List.reverse_cons, List.append_assoc, List.reverse_nil,
    List.nil_append, List.cons_append, List.cons.injEq, true_and,
    List.append_cancel_left_eq] at hreverse
  obtain ⟨-, hkeys⟩ := append_sep_inj (fun h => htype' (List.mem_reverse.mp h))
    (fun h => htype (List.mem_reverse.mp h)) hreverse
  exact String.toList_inj.mp (List.reverse_injective hkeys)

lemma separator_notMem_conflictType (outcome : ClusterOutcome) :
    '\x1f' ∉ (outcomeRow H ws gid key outcome).conflictType.toList := by
  cases outcome with
  | corroborated => exact show '\x1f' ∉ "corroboration".toList by decide
  | conflict => exact show '\x1f' ∉ "incompatible_target".toList by decide

/-- The row of every cluster is stored. -/
lemma mem_persisted (hH : H.Injective) (hfresh : FreshEvidence H ws gid conflicts)
    {cluster : String × List EvidenceFact} {outcome : ClusterOutcome}
    (hcluster : cluster ∈ clusters u rows) (hout : projectCluster cluster.2 = some outcome) :
    outcomeRow H ws gid cluster.1 outcome ∈
      (clusters u rows).foldl (persistCluster H ws gid) conflicts := by
  rw [foldl_persistCluster]
  obtain ⟨hws, hgid⟩ := hfresh.plain
  have hid : ∀ (key : String) (o : ClusterOutcome), (outcomeRow H ws gid key o).evidenceConflictId =
      evidenceConflictId H ws gid .relationship key (outcomeRow H ws gid key o).conflictType
        projectionPolicyVersion := by
    intro key o
    cases o <;> rfl
  refine Table.mem_foldl_insertOrIgnore_of_unique (Or.inr ?_) (fun x hx hclash => ?_) fun x hx hclash => ?_
  · exact List.mem_filterMap.mpr ⟨cluster, hcluster, by rw [hout]; rfl⟩
  · -- the rows that were there are about other generations
    obtain ⟨hxws, hxgid⟩ := hfresh.rows_plain x hx
    have hids := (hfresh.rows_hashed x hx).symm.trans (Eq.trans hclash (hid _ _))
    exact absurd (evidenceConflictId_inj hH hws hxws hgid hxgid hids).1 (hfresh.unused x hx)
  · -- another row of the pass is about another cluster
    obtain ⟨other, hother, hx⟩ := List.mem_filterMap.mp hx
    obtain ⟨o, ho, rfl⟩ := Option.map_eq_some_iff.mp hx
    have hids := (hid _ _).symm.trans (Eq.trans hclash (hid _ _))
    have hkeys := (evidenceConflictId_inj hH hws hws hgid hgid hids).2 rfl rfl
      (separator_notMem_conflictType _) (separator_notMem_conflictType _)
    have hsame : other = cluster := by
      refine Prod.ext hkeys ?_
      rw [(mem_clusters.mp hother).2, (mem_clusters.mp hcluster).2, hkeys]
    subst hsame
    rw [Option.some.inj (ho.symm.trans hout)]

/-! ## Real conflicts -/

/-- The conflicts that a pass records are real if and only if facts in one cluster that resolve
to different keys only stand beside two such facts about one occurrence. -/
theorem realConflicts_iff_oneTargetEach (H : Hasher) (hH : H.Injective) (t : FactTables)
    (files : Table GenerationFile) (resolutions : Table RelationshipResolution)
    (conflicts : Table ClusterRow) (ws gid : String)
    (providerOf : String → Option RunProvider) (now : Timestamp)
    (hfresh : FreshEvidence H ws gid conflicts) :
    RealConflicts H (SymbolUniverse.ofRows (symbolRows t files gid)) gid
        (linkedRows t files gid providerOf)
        (runResolutionPass H t files resolutions conflicts ws gid providerOf now).2 ↔
      OneTargetEach H (SymbolUniverse.ofRows (symbolRows t files gid))
        (linkedRows t files gid providerOf) := by
  rw [runResolutionPass]
  dsimp only
  generalize SymbolUniverse.ofRows (symbolRows t files gid) = u
  generalize linkedRows t files gid providerOf = rows
  constructor
  · intro hreal a ha b hb hkeys hra hrb hne
    have hcluster : (b.1.clusterKey, (rows.filter fun row =>
        row.1.clusterKey = b.1.clusterKey).map (evidenceFact u)) ∈ clusters u rows :=
      mem_clusters.mpr ⟨⟨b, hb, rfl⟩, rfl⟩
    obtain ⟨preferred, all, explanation, hout⟩ := projectCluster_conflict_iff.mpr
      ⟨_, mem_targets.mpr ⟨a, ha, hkeys, resolvedTarget_eq_some_iff.mpr ⟨hra, rfl⟩⟩,
        _, mem_targets.mpr ⟨b, hb, rfl, resolvedTarget_eq_some_iff.mpr ⟨hrb, rfl⟩⟩, hne⟩
    obtain ⟨c, hc, d, hd, hckey, hdkey, hdisagree⟩ :=
      hreal _ (mem_persisted hH hfresh hcluster hout) rfl rfl
    obtain ⟨hsame, hrc, hrd, hcd⟩ := disagree_iff.mp hdisagree
    exact ⟨c, hc, d, hd, hckey.trans hkeys.symm, hdkey.trans hkeys.symm, hsame, hrc, hrd, hcd⟩
  · intro hone c hc hgid htype
    rw [foldl_persistCluster] at hc
    rcases Table.mem_of_mem_foldl_insertOrIgnore hc with hc | hc
    · exact absurd hgid (hfresh.unused c hc)
    · obtain ⟨cluster, hcluster, hrow⟩ := List.mem_filterMap.mp hc
      obtain ⟨outcome, hout, rfl⟩ := Option.map_eq_some_iff.mp hrow
      have hconflict : ∃ preferred all explanation,
          projectCluster cluster.2 = some (.conflict preferred all explanation) := by
        cases outcome with
        | corroborated preferred others =>
          exact absurd htype (show "corroboration" ≠ "incompatible_target" by decide)
        | conflict preferred all explanation => exact ⟨_, _, _, hout⟩
      obtain ⟨x, hx, y, hy, hne⟩ := projectCluster_conflict_iff.mp hconflict
      rw [(mem_clusters.mp hcluster).2] at hx hy
      obtain ⟨a, ha, hakey, hax⟩ := mem_targets.mp hx
      obtain ⟨b, hb, hbkey, hby⟩ := mem_targets.mp hy
      obtain ⟨hra, rfl⟩ := resolvedTarget_eq_some_iff.mp hax
      obtain ⟨hrb, rfl⟩ := resolvedTarget_eq_some_iff.mp hby
      obtain ⟨c, hc, d, hd, hckey, hdkey, hsame, hrc, hrd, hcd⟩ :=
        hone a ha b hb (hakey.trans hbkey.symm) hra hrb hne
      rw [outcomeRow_subjectKey]
      exact ⟨c, hc, d, hd, hckey.trans hakey, hdkey.trans hakey,
        disagree_iff.mpr ⟨hsame, hrc, hrd, hcd⟩⟩

/-- The id of a row tells where its occurrence starts. -/
lemma EmittedFor.start_eq (hH : H.Injective) {rel : MappedRelationship} {run rid : String}
    {seen : List (List UInt8)} {o : Occurrence} {kind : ScipRelationship}
    (h : EmittedFor H (rel.row H run rid seen) o kind) :
    o.startLine = rel.sourceStartLine ∧ o.startColumn = rel.sourceStartColumn := by
  obtain ⟨rel', seen', hrow, -, rfl⟩ := h
  have hid : (rel.row H run rid seen).relationshipFactId =
      (rel'.row H run rid seen).relationshipFactId :=
    (congrArg RelationshipFact.relationshipFactId hrow).trans rfl
  have hslot := (Kept.rowId_eq_iff hH).mp hid
  exact ⟨hslot.line_eq.symm, hslot.column_eq.symm⟩

end Lemmas

/-! ## Two references in one document -/

/-- A reference to a symbol of another package, in a line. -/
def referenceAt (line : ℤ) (target : String) : MappedRelationship where
  relationshipType := .references
  sourceCanonicalDocumentPath := "src/a.ts"
  sourceStartLine := line
  sourceStartColumn := 0
  sourceEndLine := line
  sourceEndColumn := 1
  targetRefKind := .externalSymbol
  targetRefValue := target
  providerSymbolId := target
  confidence := 9 / 10
  reasonCode := "scip_occurrence"

/-- The row of a reference. -/
def referenceRow (line : ℤ) (target : String) : RelationshipFact :=
  (referenceAt line target).row Hasher.plain "run_e" "r" []

/-- The two references of a document. -/
def twoReferences : FactTables :=
  { FactTables.empty with
    relationshipFact := (Table.empty.insertOrIgnore (referenceRow 0 "npm x#")).insertOrIgnore
      (referenceRow 1 "npm y#") }

/-- The document is a present file. -/
def oneFile : Table GenerationFile :=
  Table.empty.insertOrIgnore ⟨"g", "f", some "r", "src/a.ts", .present, none, none, none, none⟩

/-- The provider of the document. -/
def oneProvider (run : String) : Option RunProvider :=
  if run = "run_e" then some ⟨"scip-typescript", 0, true⟩ else none

lemma empty_freshEvidence : FreshEvidence Hasher.plain "ws" "g" .empty where
  plain := by decide
  rows_plain _ hx := absurd hx Table.not_mem_empty
  rows_hashed _ hx := absurd hx Table.not_mem_empty
  unused _ hx := absurd hx Table.not_mem_empty

theorem oneTargetEach_iff_twoReferences :
    RealConflicts Hasher.plain (SymbolUniverse.ofRows (symbolRows twoReferences oneFile "g")) "g"
        (linkedRows twoReferences oneFile "g" oneProvider)
        (runResolutionPass Hasher.plain twoReferences oneFile .empty .empty "ws" "g" oneProvider
          1).2 ↔
      OneTargetEach Hasher.plain (SymbolUniverse.ofRows (symbolRows twoReferences oneFile "g"))
        (linkedRows twoReferences oneFile "g" oneProvider) :=
  realConflicts_iff_oneTargetEach Hasher.plain Hasher.plain_injective twoReferences oneFile .empty
    .empty "ws" "g" oneProvider 1 empty_freshEvidence

/-- The references are in different lines, and a conflict of them is recorded. -/
theorem twoReferences_notReal :
    ¬ RealConflicts Hasher.plain (SymbolUniverse.ofRows (symbolRows twoReferences oneFile "g"))
      "g" (linkedRows twoReferences oneFile "g" oneProvider)
      (runResolutionPass Hasher.plain twoReferences oneFile .empty .empty "ws" "g" oneProvider
        1).2 := by
  intro hreal
  have hconflict : ∃ c ∈ (runResolutionPass Hasher.plain twoReferences oneFile .empty .empty "ws"
      "g" oneProvider 1).2.rows, c.generationId = "g" ∧ c.conflictType = "incompatible_target" := by
    decide
  obtain ⟨c, hc, hgid, htype⟩ := hconflict
  obtain ⟨a, ha, b, hb, -, -, ⟨o, kind, hao, hbo⟩, x, y, hx, hy, hne⟩ := hreal c hc hgid htype
  have hrows : linkedRows twoReferences oneFile "g" oneProvider =
      [(referenceRow 0 "npm x#", ⟨"scip-typescript", 0, true⟩),
        (referenceRow 1 "npm y#", ⟨"scip-typescript", 0, true⟩)] := by
    decide +kernel
  rw [hrows] at ha hb
  have hline : ∀ line line' target target', EmittedFor Hasher.plain (referenceRow line target) o kind →
      EmittedFor Hasher.plain (referenceRow line' target') o kind → line = line' :=
    fun line line' target target' h h' => (h.start_eq Hasher.plain_injective).1.symm.trans
      (h'.start_eq Hasher.plain_injective).1
  simp only [List.mem_cons, List.not_mem_nil, or_false] at ha hb
  rcases ha with rfl | rfl
  · rcases hb with rfl | rfl
    · exact hne (Option.some.inj (hx.symm.trans hy))
    · exact absurd (hline 0 1 _ _ hao hbo) (by decide)
  · rcases hb with rfl | rfl
    · exact absurd (hline 1 0 _ _ hao hbo) (by decide)
    · exact hne (Option.some.inj (hx.symm.trans hy))

end Evidence

end WorkspaceAtlas
