/-
# Relationships as multisets

`diff_relationships` groups the states of an identity by their effective targets, walks the
sorted groups of both generations side by side and turns what is left over into changes.  The
walk is a difference of multisets, every state that is left over is named by one change, and
the comparison in the other direction is the mirror image.
-/
import Mathlib
import WorkspaceAtlas.Delta.Unchanged

namespace WorkspaceAtlas

open Relational Text

namespace Delta

/-! ## The walk over two sorted lists -/

section Walk

variable {σ κ : Type} [LinearOrder κ] {sortKey : σ → κ} {a b : σ} {as bs : List σ}

lemma unmatched_nil_left : unmatched sortKey [] bs = ([], bs) := rfl

lemma unmatched_nil_right : unmatched sortKey as [] = (as, []) := by
  cases as with
  | nil => rfl
  | cons a as => rfl

lemma unmatched_of_lt (h : sortKey a < sortKey b) :
    unmatched sortKey (a :: as) (b :: bs) =
      (a :: (unmatched sortKey as (b :: bs)).1, (unmatched sortKey as (b :: bs)).2) := by
  rw [unmatched, unmatchedFrom, (cmp_eq_lt_iff _ _).mpr h]

lemma unmatched_of_gt (h : sortKey b < sortKey a) :
    unmatched sortKey (a :: as) (b :: bs) =
      ((unmatched sortKey (a :: as) bs).1, b :: (unmatched sortKey (a :: as) bs).2) := by
  rw [unmatched, unmatchedFrom, (cmp_eq_gt_iff _ _).mpr h]

lemma unmatched_of_eq (h : sortKey a = sortKey b) :
    unmatched sortKey (a :: as) (b :: bs) = unmatched sortKey as bs := by
  rw [unmatched, unmatchedFrom, (cmp_eq_eq_iff _ _).mpr h]

/-- The walk treats both lists alike. -/
lemma unmatched_swap (as bs : List σ) :
    unmatched sortKey bs as = (unmatched sortKey as bs).swap := by
  induction as generalizing bs with
  | nil => rw [unmatched_nil_left, unmatched_nil_right, Prod.swap]
  | cons a as ih =>
    induction bs with
    | nil => rw [unmatched_nil_left, unmatched_nil_right, Prod.swap]
    | cons b bs ihb =>
      rcases lt_trichotomy (sortKey a) (sortKey b) with h | h | h
      · rw [unmatched_of_lt h, unmatched_of_gt h, ih]
        rfl
      · rw [unmatched_of_eq h, unmatched_of_eq h.symm, ih]
      · rw [unmatched_of_gt h, unmatched_of_lt h, ihb]
        rfl

variable [DecidableEq σ]

/-- What is left over of the first list is its difference with the second one. -/
lemma count_unmatched (hinj : Function.Injective sortKey)
    (has : as.Pairwise fun a b => sortKey a ≤ sortKey b)
    (hbs : bs.Pairwise fun a b => sortKey a ≤ sortKey b) (s : σ) :
    (unmatched sortKey as bs).1.count s = as.count s - bs.count s := by
  -- a key below all keys of a list is not the key of one of its states
  have hzero : ∀ {l : List σ} {x : σ}, (∀ y ∈ l, sortKey x < sortKey y) → l.count x = 0 := by
    intro l x h
    exact List.count_eq_zero.mpr fun hx => lt_irrefl _ (h x hx)
  induction as generalizing bs with
  | nil => rw [unmatched_nil_left, List.count_nil, Nat.zero_sub]
  | cons a as ih =>
    obtain ⟨ha, has⟩ := List.pairwise_cons.mp has
    induction bs with
    | nil => rw [unmatched_nil_right, List.count_nil, Nat.sub_zero]
    | cons b bs ihb =>
      obtain ⟨hb, hbs'⟩ := List.pairwise_cons.mp hbs
      rcases lt_trichotomy (sortKey a) (sortKey b) with h | h | h
      · have hnone : (b :: bs).count a = 0 :=
          hzero (List.forall_mem_cons.mpr ⟨h, fun y hy => h.trans_le (hb y hy)⟩)
        rw [unmatched_of_lt h, List.count_cons, List.count_cons, ih has hbs]
        by_cases hs : a = s
        · subst hs
          rw [hnone]
          omega
        · simp [hs]
      · obtain rfl := hinj h
        rw [unmatched_of_eq h, ih has hbs', List.count_cons, List.count_cons]
        omega
      · have hnone : (a :: as).count b = 0 :=
          hzero (List.forall_mem_cons.mpr ⟨h, fun y hy => h.trans_le (ha y hy)⟩)
        rw [unmatched_of_gt h, ihb hbs', List.count_cons (a := s) (b := b)]
        by_cases hs : b = s
        · subst hs
          rw [hnone]
          omega
        · simp [hs]

end Walk

/-! ## States -/

namespace RelationshipState

variable {s s' : RelationshipState}

lemma optionKey_injective : Function.Injective optionKey := by
  intro x y h
  cases x with
  | none => cases y with
    | none => rfl
    | some y => exact absurd h.symm (WithBot.coe_ne_bot)
  | some x => cases y with
    | none => exact absurd h (WithBot.coe_ne_bot)
    | some y => exact congrArg some (WithBot.coe_injective h)

/-- States are compared by everything that they have. -/
lemma sortKey_injective : Function.Injective sortKey := by
  intro s s' h
  simp only [sortKey, toLex_inj, Prod.mk.injEq, optionKey_injective.eq_iff] at h
  obtain ⟨h₁, h₂, h₃, h₄, h₅, h₆, h₇, h₈, h₉, h₁₀⟩ := h
  cases s
  cases s'
  simp_all

lemma json_injective : Function.Injective json := by
  intro s s' h
  simp only [json, Json.obj.injEq, List.cons.injEq, Prod.mk.injEq, Json.str.injEq,
    Json.num.injEq, Nat.cast_inj, Unchanged.jsonOption_injective.eq_iff, true_and, and_true] at h
  obtain ⟨h₁, h₂, h₃, h₄, h₅, h₆, h₇, h₈, h₉, h₁₀⟩ := h
  cases s
  cases s'
  simp_all

end RelationshipState

/-- The id by which a change names a state. -/
def stateDigest (H : Hasher) (s : RelationshipState) : String := semanticDigest H s.json

lemma stateDigest_injective {H : Hasher} (hH : H.Injective) :
    Function.Injective (stateDigest H) :=
  (Unchanged.semanticDigest_injective hH).comp RelationshipState.json_injective

/-! ## The changes of one identity -/

section Identity

variable {H : Hasher} {identity target : String} {before after : List RelationshipState}
  {s : RelationshipState} {c : DeltaChange}

/-- The effective targets of the states of an identity. -/
def targetsOf (before after : List RelationshipState) : List String :=
  SortedMap.sortedKeys ((before ++ after).map RelationshipState.effectiveTarget)

/-- What the walk over the states with a target leaves over. -/
def unmatchedAt (before after : List RelationshipState) (target : String) :
    List RelationshipState × List RelationshipState :=
  unmatched RelationshipState.sortKey (before.filter fun s => s.effectiveTarget = target)
    (after.filter fun s => s.effectiveTarget = target)

/-- The changes of the states that replace each other. -/
def pairedChanges (H : Hasher) (identity : String) (before after : List RelationshipState) :
    List DeltaChange :=
  (targetsOf before after).flatMap fun target =>
    List.zipWith (pairedChange H identity target) (unmatchedAt before after target).1
      (unmatchedAt before after target).2

/-- The states that nothing replaces. -/
def removedStates (before after : List RelationshipState) : List RelationshipState :=
  (targetsOf before after).flatMap fun target =>
    (unmatchedAt before after target).1.drop (unmatchedAt before after target).2.length

/-- The states that replace nothing. -/
def addedStates (before after : List RelationshipState) : List RelationshipState :=
  (targetsOf before after).flatMap fun target =>
    (unmatchedAt before after target).2.drop (unmatchedAt before after target).1.length

/-- The change of a state that is removed. -/
def removedChange (H : Hasher) (identity : String) (s : RelationshipState) : DeltaChange :=
  change (relationshipEntityId identity s.effectiveTarget) .removed (some (stateDigest H s)) none
    "edge_no_longer_present"

/-- The change of a state that is added. -/
def addedChange (H : Hasher) (identity : String) (s : RelationshipState) : DeltaChange :=
  change (relationshipEntityId identity s.effectiveTarget) .added none (some (stateDigest H s))
    "resolved_edge_added"

/-- The change of an edge that points somewhere else. -/
def retargetedChange (H : Hasher) (identity : String) (before after : RelationshipState) :
    DeltaChange :=
  change identity .retargeted (some (stateDigest H before)) (some (stateDigest H after))
    "relationship_target_changed"

/-- The changes of what is removed and added. -/
def leftoverChanges (H : Hasher) (identity : String) :
    List RelationshipState → List RelationshipState → List DeltaChange
  | [r], [a] => [retargetedChange H identity r a]
  | removed, added => removed.map (removedChange H identity) ++ added.map (addedChange H identity)

lemma identityChanges_eq : identityChanges H identity before after =
    pairedChanges H identity before after ++
      leftoverChanges H identity (removedStates before after) (addedStates before after) := by
  simp only [identityChanges, List.flatMap_map]
  split
  next r a hremoved hadded =>
    have hremoved : removedStates before after = [r] := hremoved
    have hadded : addedStates before after = [a] := hadded
    rw [hremoved, hadded]
    rfl
  next hnot =>
    have hleftover : leftoverChanges H identity (removedStates before after)
        (addedStates before after) =
          (removedStates before after).map (removedChange H identity) ++
            (addedStates before after).map (addedChange H identity) := by
      unfold leftoverChanges
      split
      next r a hremoved hadded => exact absurd hadded (hnot r a hremoved)
      next => rfl
    rw [hleftover]
    exact List.append_assoc ..

/-! ### Names -/

lemma beforeId_pairedChange (b a : RelationshipState) :
    (pairedChange H identity target b a).beforeId = some (stateDigest H b) := by
  unfold pairedChange
  split
  rfl

lemma afterId_pairedChange (b a : RelationshipState) :
    (pairedChange H identity target b a).afterId = some (stateDigest H a) := by
  unfold pairedChange
  split
  rfl

/-- Of two lists that are paired off, the first one is named as far as the second one goes. -/
lemma beforeIds_zipWith (l m : List RelationshipState) :
    (List.zipWith (pairedChange H identity target) l m).filterMap DeltaChange.beforeId =
      (l.take m.length).map (stateDigest H) := by
  induction l generalizing m with
  | nil => simp
  | cons b l ih =>
    cases m with
    | nil => simp
    | cons a m => simp [beforeId_pairedChange, ih m]

lemma afterIds_zipWith (l m : List RelationshipState) :
    (List.zipWith (pairedChange H identity target) l m).filterMap DeltaChange.afterId =
      (m.take l.length).map (stateDigest H) := by
  induction l generalizing m with
  | nil => simp
  | cons b l ih =>
    cases m with
    | nil => simp
    | cons a m => simp [afterId_pairedChange, ih m]

lemma beforeIds_leftoverChanges (removed added : List RelationshipState) :
    (leftoverChanges H identity removed added).filterMap DeltaChange.beforeId =
      removed.map (stateDigest H) := by
  unfold leftoverChanges
  split
  next => rfl
  next =>
    rw [List.filterMap_append, List.filterMap_map, List.filterMap_map]
    simp [Function.comp_def, removedChange, addedChange, change]

lemma afterIds_leftoverChanges (removed added : List RelationshipState) :
    (leftoverChanges H identity removed added).filterMap DeltaChange.afterId =
      added.map (stateDigest H) := by
  unfold leftoverChanges
  split
  next => rfl
  next =>
    rw [List.filterMap_append, List.filterMap_map, List.filterMap_map]
    simp [Function.comp_def, removedChange, addedChange, change]

/-! ### What is left over -/

/-- The states of the first list that have no equal partner in the second one. -/
def leftOver (before after : List RelationshipState) : List RelationshipState :=
  (targetsOf before after).flatMap fun target => (unmatchedAt before after target).1

lemma targetsOf_comm (before after : List RelationshipState) :
    targetsOf after before = targetsOf before after := by
  refine SortedMap.sortedKeys_eq_iff.mpr fun target => ?_
  simp only [List.map_append, List.mem_append]
  exact or_comm

lemma unmatchedAt_swap (before after : List RelationshipState) (target : String) :
    unmatchedAt after before target = (unmatchedAt before after target).swap :=
  unmatched_swap _ _

lemma leftOver_swap (before after : List RelationshipState) :
    leftOver after before =
      (targetsOf before after).flatMap fun target => (unmatchedAt before after target).2 := by
  simp only [leftOver, targetsOf_comm before after, unmatchedAt_swap before after, Prod.fst_swap]

lemma beforeIds_identityChanges :
    ((identityChanges H identity before after).filterMap DeltaChange.beforeId).Perm
      ((leftOver before after).map (stateDigest H)) := by
  rw [identityChanges_eq, List.filterMap_append, beforeIds_leftoverChanges, pairedChanges,
    List.filterMap_flatMap]
  simp only [beforeIds_zipWith, ← List.map_flatMap, ← List.map_append]
  refine List.Perm.map _ ((List.flatMap_append_perm _ _ _).trans (.of_eq ?_))
  simp only [List.take_append_drop]
  rfl

lemma afterIds_identityChanges :
    ((identityChanges H identity before after).filterMap DeltaChange.afterId).Perm
      ((leftOver after before).map (stateDigest H)) := by
  rw [identityChanges_eq, List.filterMap_append, afterIds_leftoverChanges, pairedChanges,
    List.filterMap_flatMap, leftOver_swap]
  simp only [afterIds_zipWith, ← List.map_flatMap, ← List.map_append]
  refine List.Perm.map _ ((List.flatMap_append_perm _ _ _).trans (.of_eq ?_))
  simp only [List.take_append_drop]

/-- Of the groups of a list only the group of its target has a state. -/
lemma count_filter_target (l : List RelationshipState) :
    (l.filter fun s => s.effectiveTarget = target).count s =
      if s.effectiveTarget = target then l.count s else 0 := by
  split
  next h => exact List.count_filter (by simpa using h)
  next h => exact List.count_eq_zero.mpr fun hs => h (by simpa using (List.mem_filter.mp hs).2)

/-- A number that only one element of a list without repetitions gives. -/
lemma sum_map_ite {α : Type} [DecidableEq α] {l : List α} (hl : l.Nodup) (x : α) (n : ℕ) :
    (l.map fun y => if x = y then n else 0).sum = if x ∈ l then n else 0 := by
  induction l with
  | nil => simp
  | cons y l ih =>
    obtain ⟨hy, hl⟩ := List.nodup_cons.mp hl
    rw [List.map_cons, List.sum_cons, ih hl]
    by_cases hx : x = y
    · subst hx
      simp [hy]
    · simp [hx]

/-- The groups together are the difference of the multisets of states. -/
lemma count_leftOver (hbefore : before.Pairwise fun a b => a.sortKey ≤ b.sortKey)
    (hafter : after.Pairwise fun a b => a.sortKey ≤ b.sortKey) (s : RelationshipState) :
    (leftOver before after).count s = before.count s - after.count s := by
  have hgroup : ∀ target, (unmatchedAt before after target).1.count s =
      if s.effectiveTarget = target then before.count s - after.count s else 0 := by
    intro target
    rw [unmatchedAt, count_unmatched RelationshipState.sortKey_injective (hbefore.filter _)
      (hafter.filter _), count_filter_target, count_filter_target]
    split
    next => rfl
    next => rfl
  have hnodup : (targetsOf before after).Nodup := (SortedMap.pairwise_sortedKeys _).imp ne_of_lt
  rw [leftOver, List.count_flatMap, Function.comp_def]
  simp only [hgroup]
  rw [sum_map_ite hnodup]
  split
  next => rfl
  next hnone =>
    have hs : s ∉ before := fun hs => hnone (SortedMap.mem_sortedKeys.mpr
      (List.mem_map_of_mem (List.mem_append_left after hs)))
    rw [List.count_eq_zero.mpr hs, Nat.zero_sub]

lemma coe_leftOver (hbefore : before.Pairwise fun a b => a.sortKey ≤ b.sortKey)
    (hafter : after.Pairwise fun a b => a.sortKey ≤ b.sortKey) :
    (leftOver before after : Multiset RelationshipState) =
      (before : Multiset RelationshipState) - (after : Multiset RelationshipState) := by
  ext s
  rw [Multiset.count_sub, Multiset.coe_count, Multiset.coe_count, Multiset.coe_count,
    count_leftOver hbefore hafter]

lemma perm_of_leftOver (hbefore : before.Pairwise fun a b => a.sortKey ≤ b.sortKey)
    (hafter : after.Pairwise fun a b => a.sortKey ≤ b.sortKey) :
    before.Perm after ↔ leftOver before after = [] ∧ leftOver after before = [] := by
  rw [← Multiset.coe_eq_coe, ← Multiset.coe_eq_zero, ← Multiset.coe_eq_zero,
    coe_leftOver hbefore hafter, coe_leftOver hafter hbefore, tsub_eq_zero_iff_le,
    tsub_eq_zero_iff_le]
  exact le_antisymm_iff

/-! ### Shapes -/

variable {c' : DeltaChange}

/-- The forms that a change of relationships has. -/
inductive EdgeChange (H : Hasher) : DeltaChange → Prop
  | paired (identity target : String) (b a : RelationshipState) :
    EdgeChange H (pairedChange H identity target b a)
  | retargeted (identity : String) (b a : RelationshipState) :
    EdgeChange H (retargetedChange H identity b a)
  | removed (identity : String) (s : RelationshipState) :
    EdgeChange H (removedChange H identity s)
  | added (identity : String) (s : RelationshipState) : EdgeChange H (addedChange H identity s)

lemma edgeChange_of_mem (h : c ∈ identityChanges H identity before after) : EdgeChange H c := by
  rw [identityChanges_eq, List.mem_append] at h
  rcases h with h | h
  · obtain ⟨target, -, h⟩ := List.mem_flatMap.mp h
    rw [List.mem_iff_getElem] at h
    obtain ⟨n, hn, rfl⟩ := h
    rw [List.getElem_zipWith]
    exact .paired ..
  · unfold leftoverChanges at h
    split at h
    next =>
      obtain rfl := List.mem_singleton.mp h
      exact .retargeted ..
    next =>
      rcases List.mem_append.mp h with h | h
      · obtain ⟨s, -, rfl⟩ := List.mem_map.mp h
        exact .removed ..
      · obtain ⟨s, -, rfl⟩ := List.mem_map.mp h
        exact .added ..

/-- Every change names a state. -/
lemma EdgeChange.names (h : EdgeChange H c) :
    (∃ id, c.beforeId = some id) ∨ ∃ id, c.afterId = some id := by
  cases h with
  | paired identity target b a => exact Or.inl ⟨_, beforeId_pairedChange b a⟩
  | retargeted identity b a => exact Or.inl ⟨_, rfl⟩
  | removed identity s => exact Or.inl ⟨_, rfl⟩
  | added identity s => exact Or.inr ⟨_, rfl⟩

/-- The kinds of a change of states that replace each other. -/
lemma changeKind_pairedChange (b a : RelationshipState) :
    (pairedChange H identity target b a).changeKind = .stateChanged ∨
      (pairedChange H identity target b a).changeKind = .modified := by
  unfold pairedChange
  split
  next kind reasonCode hkind =>
    split at hkind
    · exact Or.inl (Prod.mk.inj hkind).1.symm
    · split at hkind
      · exact Or.inr (Prod.mk.inj hkind).1.symm
      · exact Or.inr (Prod.mk.inj hkind).1.symm

lemma entityId_pairedChange (b a : RelationshipState) :
    (pairedChange H identity target b a).entityId = relationshipEntityId identity target := by
  unfold pairedChange
  split
  rfl

/-- What the changes are sorted by, as a condition on two changes. -/
structure SameKey (c c' : DeltaChange) : Prop where
  entityId : c.entityId = c'.entityId
  changeKind : c.changeKind = c'.changeKind
  beforeId : c.beforeId = c'.beforeId
  afterId : c.afterId = c'.afterId

/-- The reason of a change is that of its kind and of the states that it names. -/
lemma EdgeChange.ext (hH : H.Injective) (h : EdgeChange H c) (h' : EdgeChange H c')
    (hsame : SameKey c c') : c = c' := by
  obtain ⟨hentity, hkind, hbefore, hafter⟩ := hsame
  have hne : ∀ {identity target b a} {k : ChangeKind},
      (pairedChange H identity target b a).changeKind = k → k = .stateChanged ∨ k = .modified := by
    rintro identity target b a k rfl
    exact changeKind_pairedChange b a
  cases h with
  | paired identity target b a =>
    cases h' with
    | paired identity' target' b' a' =>
      rw [entityId_pairedChange, entityId_pairedChange] at hentity
      rw [beforeId_pairedChange, beforeId_pairedChange] at hbefore
      rw [afterId_pairedChange, afterId_pairedChange] at hafter
      obtain rfl := stateDigest_injective hH (Option.some.inj hbefore)
      obtain rfl := stateDigest_injective hH (Option.some.inj hafter)
      unfold pairedChange
      rw [hentity]
    | retargeted => exact absurd (hne hkind) (by simp [retargetedChange, change])
    | removed => exact absurd (hne hkind) (by simp [removedChange, change])
    | added => exact absurd (hne hkind) (by simp [addedChange, change])
  | retargeted identity b a =>
    cases h' with
    | paired => exact absurd (hne hkind.symm) (by simp [retargetedChange, change])
    | retargeted identity' b' a' =>
      simp only [retargetedChange, change] at hentity hbefore hafter ⊢
      rw [hentity, hbefore, hafter]
    | removed => exact absurd hkind (by simp [retargetedChange, removedChange, change])
    | added => exact absurd hkind (by simp [retargetedChange, addedChange, change])
  | removed identity s =>
    cases h' with
    | paired => exact absurd (hne hkind.symm) (by simp [removedChange, change])
    | retargeted => exact absurd hkind (by simp [retargetedChange, removedChange, change])
    | removed identity' s' =>
      simp only [removedChange, change] at hentity hbefore hafter ⊢
      rw [hentity, hbefore]
    | added => exact absurd hkind (by simp [removedChange, addedChange, change])
  | added identity s =>
    cases h' with
    | paired => exact absurd (hne hkind.symm) (by simp [addedChange, change])
    | retargeted => exact absurd hkind (by simp [retargetedChange, addedChange, change])
    | removed => exact absurd hkind (by simp [removedChange, addedChange, change])
    | added identity' s' =>
      simp only [addedChange, change] at hentity hbefore hafter ⊢
      rw [hentity, hafter]

/-! ### The mirror image -/

/-- Added and removed exchanged. -/
def ChangeKind.mirror : ChangeKind → ChangeKind
  | added => removed
  | removed => added
  | modified => modified
  | renamed => renamed
  | retargeted => retargeted
  | stateChanged => stateChanged

/-- The reasons of an addition and of a removal exchanged. -/
def mirrorReason (reason : String) : String :=
  if reason = "edge_no_longer_present" then "resolved_edge_added"
  else if reason = "resolved_edge_added" then "edge_no_longer_present"
  else reason

/-- A change seen from the other generation. -/
def DeltaChange.mirror (c : DeltaChange) : DeltaChange where
  entityId := c.entityId
  changeKind := c.changeKind.mirror
  evidenceState := c.evidenceState
  beforeId := c.afterId
  afterId := c.beforeId
  reasonCodes := c.reasonCodes.map mirrorReason

lemma mirror_pairedChange (b a : RelationshipState) :
    (pairedChange H identity target b a).mirror = pairedChange H identity target a b := by
  unfold pairedChange
  by_cases hresolution : b.resolutionIdentity = a.resolutionIdentity
  · by_cases htarget : b.target = a.target
    · rw [if_neg (not_not.mpr hresolution), if_neg (not_not.mpr hresolution.symm),
        if_neg (not_not.mpr htarget), if_neg (not_not.mpr htarget.symm)]
      rfl
    · rw [if_neg (not_not.mpr hresolution), if_neg (not_not.mpr hresolution.symm),
        if_pos htarget, if_pos (Ne.symm htarget)]
      rfl
  · rw [if_pos hresolution, if_pos (Ne.symm hresolution)]
    rfl

lemma mirror_retargetedChange (b a : RelationshipState) :
    (retargetedChange H identity b a).mirror = retargetedChange H identity a b := rfl

lemma mirror_removedChange : (removedChange H identity s).mirror = addedChange H identity s := rfl

lemma mirror_addedChange : (addedChange H identity s).mirror = removedChange H identity s := rfl

lemma EdgeChange.mirror (h : EdgeChange H c) : EdgeChange H c.mirror := by
  cases h with
  | paired identity target b a =>
    rw [mirror_pairedChange]
    exact .paired ..
  | retargeted identity b a => exact .retargeted identity a b
  | removed identity s => exact .added identity s
  | added identity s => exact .removed identity s

lemma pairedChanges_swap (before after : List RelationshipState) :
    pairedChanges H identity after before =
      (pairedChanges H identity before after).map DeltaChange.mirror := by
  simp only [pairedChanges, targetsOf_comm before after, unmatchedAt_swap before after,
    Prod.fst_swap, Prod.snd_swap, List.map_flatMap, List.map_zipWith, mirror_pairedChange]
  refine List.flatMap_congr fun target _ => ?_
  rw [List.zipWith_comm]

lemma removedStates_swap (before after : List RelationshipState) :
    removedStates after before = addedStates before after := by
  simp only [removedStates, addedStates, targetsOf_comm before after,
    unmatchedAt_swap before after, Prod.fst_swap, Prod.snd_swap]

lemma leftoverChanges_swap (removed added : List RelationshipState) :
    (leftoverChanges H identity added removed).Perm
      ((leftoverChanges H identity removed added).map DeltaChange.mirror) := by
  have hboth : (added.map (removedChange H identity) ++ removed.map (addedChange H identity)).Perm
      ((removed.map (removedChange H identity) ++ added.map (addedChange H identity)).map
        DeltaChange.mirror) := by
    rw [List.map_append, List.map_map, List.map_map]
    exact List.perm_append_comm
  rcases removed with _ | ⟨r, _ | ⟨r', removed⟩⟩
  · rcases added with _ | ⟨a, _ | ⟨a', added⟩⟩ <;> exact hboth
  · rcases added with _ | ⟨a, _ | ⟨a', added⟩⟩
    · exact hboth
    · exact .refl _
    · exact hboth
  · rcases added with _ | ⟨a, _ | ⟨a', added⟩⟩ <;> exact hboth

lemma identityChanges_swap (before after : List RelationshipState) :
    (identityChanges H identity after before).Perm
      ((identityChanges H identity before after).map DeltaChange.mirror) := by
  rw [identityChanges_eq, identityChanges_eq, List.map_append, pairedChanges_swap,
    removedStates_swap before after, ← removedStates_swap after before]
  exact (leftoverChanges_swap _ _).append_left _

end Identity

/-! ## Maps of relationships -/

/-- `RelationshipMap`, whose states `relationships_for` has sorted. -/
structure RelationshipMap where
  map : SortedMap String (List RelationshipState)
  sorted : ∀ entry ∈ map.entries, entry.2.Pairwise fun a b => a.sortKey ≤ b.sortKey

namespace RelationshipMap

variable {H : Hasher} {before after : RelationshipMap} {c c' : DeltaChange}

/-- The relationships of a generation. -/
def ofGeneration (t : Tables) (genId : String) : RelationshipMap where
  map := relationshipsFor t genId
  sorted := by
    rintro ⟨identity, states⟩ hentry
    obtain ⟨rows, -, rfl⟩ := SortedMap.mem_mapValues.mp hentry
    exact pairwise_orderBy

/-- The states of an identity. -/
def states (m : RelationshipMap) (identity : String) : List RelationshipState :=
  (m.map.get identity).getD []

lemma sorted_states (m : RelationshipMap) (identity : String) :
    (m.states identity).Pairwise fun a b => a.sortKey ≤ b.sortKey := by
  unfold states
  cases h : m.map.get identity with
  | none => exact .nil
  | some states => exact m.sorted _ (SortedMap.get_eq_some_iff.mp h)

/-- The identities of two maps. -/
def identities (before after : RelationshipMap) : List String :=
  SortedMap.keyUnion before.map after.map

lemma states_of_notMem {m : RelationshipMap} {identity : String} (h : identity ∉ m.map.keys) :
    m.states identity = [] := by
  unfold states
  cases hget : m.map.get identity with
  | none => rfl
  | some states =>
    exact absurd (List.mem_map_of_mem (SortedMap.get_eq_some_iff.mp hget)) h

lemma identities_comm (before after : RelationshipMap) :
    identities after before = identities before after := by
  refine SortedMap.sortedKeys_eq_iff.mpr fun identity => ?_
  rw [List.mem_append, List.mem_append]
  exact or_comm

/-- `diff_relationships`. -/
def diff (H : Hasher) (before after : RelationshipMap) : List DeltaChange :=
  diffRelationships H before.map after.map

/-- The changes that the loop over the identities pushes for one of them. -/
def changesOf (H : Hasher) (before after : RelationshipMap) (identity : String) :
    List DeltaChange :=
  identityChanges H identity (before.states identity) (after.states identity)

/-- What the changes are sorted by. -/
def changeKey (c : DeltaChange) : String ×ₗ String ×ₗ WithBot String ×ₗ WithBot String :=
  toLex (c.entityId, toLex (c.changeKind.asStr, toLex (optionKey c.beforeId, optionKey c.afterId)))

lemma diff_eq : diff H before after =
    orderBy changeKey ((identities before after).flatMap (changesOf H before after)) := rfl

lemma diff_perm : (diff H before after).Perm
    ((identities before after).flatMap (changesOf H before after)) := perm_orderBy

lemma asStr_injective : Function.Injective ChangeKind.asStr := by
  intro k k' h
  cases k <;> cases k' <;> first | rfl | exact absurd h (by decide)

lemma sameKey_of_changeKey (h : changeKey c = changeKey c') : SameKey c c' := by
  simp only [changeKey, toLex_inj, Prod.mk.injEq, RelationshipState.optionKey_injective.eq_iff,
    asStr_injective.eq_iff] at h
  exact ⟨h.1, h.2.1, h.2.2.1, h.2.2.2⟩

lemma edgeChange_of_mem_flatMap
    (h : c ∈ (identities before after).flatMap (changesOf H before after)) : EdgeChange H c := by
  obtain ⟨identity, -, hc⟩ := List.mem_flatMap.mp h
  exact edgeChange_of_mem hc

/-! ### Emptiness -/

lemma beforeIds_changesOf (H : Hasher) (before after : RelationshipMap) (identity : String) :
    ((changesOf H before after identity).filterMap DeltaChange.beforeId).Perm
      ((leftOver (before.states identity) (after.states identity)).map (stateDigest H)) :=
  beforeIds_identityChanges

lemma afterIds_changesOf (H : Hasher) (before after : RelationshipMap) (identity : String) :
    ((changesOf H before after identity).filterMap DeltaChange.afterId).Perm
      ((leftOver (after.states identity) (before.states identity)).map (stateDigest H)) :=
  afterIds_identityChanges

lemma changesOf_eq_nil {identity : String} : changesOf H before after identity = [] ↔
    (before.states identity).Perm (after.states identity) := by
  rw [perm_of_leftOver (sorted_states _ _) (sorted_states _ _)]
  have hbefore := beforeIds_changesOf H before after identity
  have hafter := afterIds_changesOf H before after identity
  constructor
  · intro h
    rw [h] at hbefore hafter
    exact ⟨List.map_eq_nil_iff.mp hbefore.nil_eq.symm,
      List.map_eq_nil_iff.mp hafter.nil_eq.symm⟩
  · rintro ⟨hempty, hempty'⟩
    rw [hempty, List.map_nil, List.perm_nil, List.filterMap_eq_nil_iff] at hbefore
    rw [hempty', List.map_nil, List.perm_nil, List.filterMap_eq_nil_iff] at hafter
    refine List.eq_nil_iff_forall_not_mem.mpr fun c hc => ?_
    rcases (edgeChange_of_mem hc).names with ⟨id, hid⟩ | ⟨id, hid⟩
    · exact absurd (hid.symm.trans (hbefore c hc)) (by simp)
    · exact absurd (hid.symm.trans (hafter c hc)) (by simp)

lemma diff_eq_nil : diff H before after = [] ↔
    ∀ identity, (before.states identity).Perm (after.states identity) := by
  rw [← List.length_eq_zero_iff, diff_perm.length_eq, List.length_eq_zero_iff,
    List.flatMap_eq_nil_iff]
  simp only [changesOf_eq_nil]
  constructor
  · intro h identity
    by_cases hmem : identity ∈ identities before after
    · exact h identity hmem
    · rw [identities, SortedMap.keyUnion, SortedMap.mem_sortedKeys, List.mem_append, not_or]
        at hmem
      rw [states_of_notMem hmem.1, states_of_notMem hmem.2]
  · intro h identity _
    exact h identity

/-! ### The other direction -/

/-- The comparison in the other direction gives the mirrored changes, in their own order. -/
lemma diff_swap (hH : H.Injective) (before after : RelationshipMap) :
    diff H after before = orderBy changeKey ((diff H before after).map DeltaChange.mirror) := by
  have hperm : ((identities after before).flatMap (changesOf H after before)).Perm
      ((diff H before after).map DeltaChange.mirror) := by
    refine List.Perm.trans ?_ (diff_perm.map _).symm
    rw [identities_comm before after, List.map_flatMap]
    exact List.Perm.flatMap_left _ fun identity _ => identityChanges_swap _ _
  rw [diff_eq]
  refine orderBy_eq_of_perm hperm fun c hc c' hc' h => ?_
  exact (edgeChange_of_mem_flatMap hc).ext hH (edgeChange_of_mem_flatMap hc')
    (sameKey_of_changeKey h)

/-! ### Exactness -/

/-- A change is about its identity, or about its identity and a target. -/
lemma entityId_of_mem {H : Hasher} {identity : String} {before after : List RelationshipState}
    {c : DeltaChange} (h : c ∈ identityChanges H identity before after) :
    c.entityId = identity ∨ ∃ target, c.entityId = relationshipEntityId identity target := by
  rw [identityChanges_eq, List.mem_append] at h
  rcases h with h | h
  · obtain ⟨target, -, h⟩ := List.mem_flatMap.mp h
    obtain ⟨n, hn, rfl⟩ := List.mem_iff_getElem.mp h
    rw [List.getElem_zipWith]
    exact Or.inr ⟨target, entityId_pairedChange ..⟩
  · unfold leftoverChanges at h
    split at h
    next =>
      obtain rfl := List.mem_singleton.mp h
      exact Or.inl rfl
    next =>
      rcases List.mem_append.mp h with h | h
      · obtain ⟨s, -, rfl⟩ := List.mem_map.mp h
        exact Or.inr ⟨_, rfl⟩
      · obtain ⟨s, -, rfl⟩ := List.mem_map.mp h
        exact Or.inr ⟨_, rfl⟩

/-- How many changes name a state, when the ids that they name are those of some states. -/
lemma countP_names (hH : H.Injective) {f : DeltaChange → Option String} {cs : List DeltaChange}
    {named : List RelationshipState} (h : (cs.filterMap f).Perm (named.map (stateDigest H)))
    (s : RelationshipState) :
    cs.countP (fun c => f c = some (stateDigest H s)) = named.count s := by
  have hcount := h.count_eq (stateDigest H s)
  rw [List.count_filterMap, List.count_map_of_injective _ _ (stateDigest_injective hH)] at hcount
  rw [← hcount]
  exact List.countP_congr fun c _ => by simp

/-- The changes are the difference of the multisets of states, and the comparison in the other
direction is their mirror image. -/
theorem diff_exact (hH : H.Injective) (before after : RelationshipMap) :
    (diff H before after = [] ↔
      ∀ identity, (before.states identity).Perm (after.states identity)) ∧
    (diff H before after).Perm
      ((identities before after).flatMap (changesOf H before after)) ∧
    (∀ identity,
      let lost := (before.states identity : Multiset RelationshipState) -
        (after.states identity : Multiset RelationshipState)
      let gained := (after.states identity : Multiset RelationshipState) -
        (before.states identity : Multiset RelationshipState)
      let changes := changesOf H before after identity
      (∀ c ∈ changes,
        c.entityId = identity ∨ ∃ target, c.entityId = relationshipEntityId identity target) ∧
      (changes.filterMap DeltaChange.beforeId : Multiset String) = lost.map (stateDigest H) ∧
      (changes.filterMap DeltaChange.afterId : Multiset String) = gained.map (stateDigest H) ∧
      ∀ s, changes.countP (fun c => c.beforeId = some (stateDigest H s)) = lost.count s ∧
        changes.countP (fun c => c.afterId = some (stateDigest H s)) = gained.count s) ∧
    diff H after before = orderBy changeKey ((diff H before after).map DeltaChange.mirror) := by
  refine ⟨diff_eq_nil, diff_perm, fun identity => ?_, diff_swap hH before after⟩
  have hbefore := beforeIds_changesOf H before after identity
  have hafter := afterIds_changesOf H before after identity
  rw [← coe_leftOver (sorted_states before identity) (sorted_states after identity),
    ← coe_leftOver (sorted_states after identity) (sorted_states before identity)]
  refine ⟨fun c hc => entityId_of_mem hc, ?_, ?_, fun s => ⟨?_, ?_⟩⟩
  · exact Multiset.coe_eq_coe.mpr hbefore
  · exact Multiset.coe_eq_coe.mpr hafter
  · exact (countP_names hH hbefore s).trans (Multiset.coe_count ..).symm
  · exact (countP_names hH hafter s).trans (Multiset.coe_count ..).symm

/-! ### A reference that is recorded twice -/

/-- A reference to `t`. -/
def reference : RelationshipState :=
  ⟨"symbol:t", "", "scip_occurrence", 0, "", none, none, none, none, none⟩

/-- `s` refers to `t` as often as `n` says. -/
def references (n : ℕ) : RelationshipMap where
  map := ⟨[("symbol:s", List.replicate n reference)], List.pairwise_singleton _ _⟩
  sorted := by
    intro entry hentry
    obtain rfl := List.mem_singleton.mp hentry
    exact List.pairwise_replicate.mpr (Or.inr le_rfl)

theorem diff_exact_references :
    diff Hasher.plain (references 2) (references 1) ≠ [] ∧
      (changesOf Hasher.plain (references 2) (references 1) "symbol:s").countP
        (fun c => c.beforeId = some (stateDigest Hasher.plain reference)) = 1 := by
  obtain ⟨hempty, -, hnames, -⟩ :=
    diff_exact Hasher.plain_injective (references 2) (references 1)
  have hbefore : (references 2).states "symbol:s" = [reference, reference] := rfl
  have hafter : (references 1).states "symbol:s" = [reference] := rfl
  constructor
  · intro h
    have hperm := (hempty.mp h "symbol:s").length_eq
    rw [hbefore, hafter] at hperm
    exact absurd hperm (by decide)
  · rw [((hnames "symbol:s").2.2.2 reference).1, hbefore, hafter]
    simp

end RelationshipMap

end Delta

end WorkspaceAtlas
