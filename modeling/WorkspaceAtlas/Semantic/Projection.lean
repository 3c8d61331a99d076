/-
# The projection of a cluster

`project_cluster` prefers one fact of a cluster and keeps the others beside it.  Its callers
hand it the facts as the database and a hash map yield them, so what it returns must not depend
on their order: the preference is by a key that ends in the id of the fact, which no two facts
share, and the ids are kept as a list whose order alone follows the rows.
-/
import WorkspaceAtlas.Semantic.Evidence

namespace WorkspaceAtlas

open Relational

/-! ## What an outcome says -/

namespace ClusterOutcome

/-- The fact that is preferred. -/
def preferred : ClusterOutcome → String
  | corroborated preferredFactId _ | conflict preferredFactId _ _ => preferredFactId

/-- The facts that `persist_cluster_outcome` records as participating. -/
def retained : ClusterOutcome → List String
  | corroborated preferredFactId corroboratingFactIds => preferredFactId :: corroboratingFactIds
  | conflict _ allFactIds _ => allFactIds

/-- The variant is `Conflict`. -/
def isConflict : ClusterOutcome → Bool
  | corroborated .. => false
  | conflict .. => true

/-- The two outcomes are of one variant, prefer one fact and retain the same facts. -/
structure Alike (o o' : ClusterOutcome) : Prop where
  isConflict : o.isConflict = o'.isConflict
  preferred : o.preferred = o'.preferred
  retained : ∀ id, id ∈ o.retained ↔ id ∈ o'.retained

/-- The outcome of some facts under an order of preference: the greatest fact is preferred,
every fact is retained once, and a conflict is one of targets. -/
structure IsProjection {κ : Type} [LE κ] (key : EvidenceFact → κ) (facts : List EvidenceFact)
    (o : ClusterOutcome) : Prop where
  preferred : ∃ f ∈ facts, f.factId = o.preferred ∧ ∀ g ∈ facts, key g ≤ key f
  retained : List.Perm o.retained (facts.map EvidenceFact.factId)
  isConflict : o.isConflict = true ↔ ∃ f ∈ facts, ∃ g ∈ facts, ∃ x y,
    f.resolvedTarget = some x ∧ g.resolvedTarget = some y ∧ x ≠ y

end ClusterOutcome

/-- Cluster projection is lossless and does not depend on the order of the facts. -/
def ProjectsBy {κ : Type} [LE κ] (key : EvidenceFact → κ) (facts : List EvidenceFact) : Prop :=
  ∃ o, projectCluster facts = some o ∧ o.IsProjection key facts ∧
    ∀ facts', facts.Perm facts' → ∃ o', projectCluster facts' = some o' ∧ o.Alike o'

/-- The order of preference as `preference_key` documents it, with the confidence as it is. -/
def documentedKey (f : EvidenceFact) : ℤ ×ₗ ℤ ×ₗ ℚ ×ₗ ℤ ×ₗ String ×ₗ String :=
  toLex (f.providerPriority.getD 0, toLex (f.evidenceTierRank, toLex (f.confidence,
    toLex (if f.deterministic then 1 else 0, toLex (f.providerKey, f.factId)))))

section Projection

variable {facts facts' : List EvidenceFact} {f g : EvidenceFact} {o o' : ClusterOutcome}

/-- What is retained is what the row of the cluster names. -/
lemma participatingFactIds_outcomeRow (H : Hasher) (ws gid key : String) :
    (Evidence.outcomeRow H ws gid key o).participatingFactIds = o.retained := by
  cases o <;> rfl

lemma factId_eq_of_preferenceKey_eq (h : preferenceKey f = preferenceKey g) :
    f.factId = g.factId := by
  simp only [preferenceKey, toLex_inj, Prod.mk.injEq] at h
  exact h.2.2.2.2.2

/-- Facts with ids of their own have keys of their own. -/
lemma preferenceKey_inj (hnodup : (facts.map EvidenceFact.factId).Nodup) (hf : f ∈ facts)
    (hg : g ∈ facts) (h : preferenceKey f = preferenceKey g) : f = g :=
  List.inj_on_of_nodup_map hnodup hf hg (factId_eq_of_preferenceKey_eq h)

/-- The first fact of the sorted facts is the greatest one. -/
lemma head_orderBy (hnodup : (facts.map EvidenceFact.factId).Nodup) (hf : f ∈ facts)
    (hmax : ∀ g ∈ facts, preferenceKey g ≤ preferenceKey f) (default : EvidenceFact) :
    (orderBy (fun f => OrderDual.toDual (preferenceKey f)) facts).headD default = f := by
  have hhead : (orderBy (fun f => OrderDual.toDual (preferenceKey f)) facts).head? = some f := by
    rw [head?_orderBy_iff]
    · exact ⟨hf, fun g hg => OrderDual.toDual_le_toDual.mpr (hmax g hg)⟩
    · intro a ha b hb hab
      exact preferenceKey_inj hnodup ha hb (OrderDual.toDual.injective hab)
  rw [List.headD_eq_head?_getD, hhead]
  rfl

lemma exists_greatest (hne : facts ≠ []) :
    ∃ f ∈ facts, ∀ g ∈ facts, preferenceKey g ≤ preferenceKey f := by
  have hnonempty : facts.toFinset.Nonempty := by
    obtain ⟨f, hf⟩ := List.exists_mem_of_ne_nil facts hne
    exact ⟨f, List.mem_toFinset.mpr hf⟩
  obtain ⟨f, hf, hmax⟩ := facts.toFinset.exists_max_image preferenceKey hnonempty
  exact ⟨f, List.mem_toFinset.mp hf, fun g hg => hmax g (List.mem_toFinset.mpr hg)⟩

/-- The facts other than one of them, with that one first. -/
lemma perm_cons_others (hnodup : (facts.map EvidenceFact.factId).Nodup) (hf : f ∈ facts) :
    List.Perm (f.factId :: (facts.filter fun g => g.factId ≠ f.factId).map EvidenceFact.factId)
      (facts.map EvidenceFact.factId) := by
  have hmap : (facts.filter fun g => g.factId ≠ f.factId).map EvidenceFact.factId =
      (facts.map EvidenceFact.factId).erase f.factId := by
    rw [hnodup.erase_eq_filter, List.filter_map]
    refine congrArg _ (List.filter_congr fun g _ => ?_)
    by_cases hg : g.factId = f.factId <;> simp [hg]
  rw [hmap]
  exact (List.perm_cons_erase (List.mem_map_of_mem hf)).symm

/-- What `project_cluster` prefers and retains, told from the greatest fact. -/
lemma exists_outcome (hnodup : (facts.map EvidenceFact.factId).Nodup) (hf : f ∈ facts)
    (hmax : ∀ g ∈ facts, preferenceKey g ≤ preferenceKey f) :
    ∃ o, projectCluster facts = some o ∧ o.preferred = f.factId ∧
      List.Perm o.retained (facts.map EvidenceFact.factId) := by
  cases facts with
  | nil => exact absurd hf List.not_mem_nil
  | cons a rest =>
    cases rest with
    | nil =>
      obtain rfl := List.mem_singleton.mp hf
      exact ⟨_, rfl, rfl, .refl _⟩
    | cons b rest =>
      have hhead := head_orderBy hnodup hf hmax a
      dsimp only [projectCluster]
      rw [hhead]
      split
      · exact ⟨_, rfl, rfl, perm_cons_others hnodup hf⟩
      · exact ⟨_, rfl, rfl, .refl _⟩

/-- An outcome is a conflict if the facts resolve to two targets. -/
lemma isConflict_iff (h : projectCluster facts = some o) :
    o.isConflict = true ↔ ∃ f ∈ facts, ∃ g ∈ facts, ∃ x y,
      f.resolvedTarget = some x ∧ g.resolvedTarget = some y ∧ x ≠ y := by
  have hvariant : o.isConflict = true ↔ ∃ preferred all explanation,
      projectCluster facts = some (.conflict preferred all explanation) := by
    rw [h]
    cases o <;> simp [ClusterOutcome.isConflict]
  rw [hvariant, Evidence.projectCluster_conflict_iff]
  simp only [List.mem_filterMap]
  constructor
  · rintro ⟨x, ⟨a, ha, hx⟩, y, ⟨b, hb, hy⟩, hne⟩
    exact ⟨a, ha, b, hb, x, y, hx, hy, hne⟩
  · rintro ⟨a, ha, b, hb, x, y, hx, hy, hne⟩
    exact ⟨x, ⟨a, ha, hx⟩, y, ⟨b, hb, hy⟩, hne⟩

end Projection

/-- Two facts of one cluster whose confidences are less than a millionth apart. -/
def closeFacts : List EvidenceFact :=
  [⟨"f1", "a", 800, some 0, true, 1 / 2 + 1 / 2 ^ 22, some "x"⟩,
    ⟨"f2", "b", 800, some 0, true, 1 / 2, some "x"⟩]

end WorkspaceAtlas
