/-
# What LIGHT finds

The rows and the sources that `dispatch_real_light` has found once its reads succeed, told from
the tables: how many rows of a kind there are, whether more of them exist than are shown, and
whether every source is the one that was indexed.
-/
import WorkspaceAtlas.Route.Light

namespace WorkspaceAtlas.ContextRoute

open Relational Transition

/-! ## Digests -/

/-- A digest of 32 bytes passes the check of digests. -/
lemma validDigest_toHex {bytes : List UInt8} (h : bytes.length = 32) : validDigest (toHex bytes) := by
  have hdigit : ∀ n : Fin 16, ∀ byte ∈ String.utf8EncodeChar (hexDigit n),
      (48 ≤ byte ∧ byte ≤ 57) ∨ (97 ≤ byte ∧ byte ≤ 102) := by decide +kernel
  simp only [validDigest, decide_eq_true_eq]
  constructor
  · have hsize : (utf8 (toHex bytes)).length = (toHex bytes).utf8ByteSize := Array.length_toList
    rw [hsize, utf8ByteSize_toHex, h]
  · rw [toHex, utf8_ofList]
    intro byte hbyte
    obtain ⟨c, hc, hmem⟩ := List.mem_flatMap.mp hbyte
    obtain ⟨b, -, hdigits⟩ := List.mem_flatMap.mp hc
    have hb := b.toNat_lt
    rcases List.mem_pair.mp hdigits with rfl | rfl
    · exact hdigit ⟨b.toNat / 16, by omega⟩ byte hmem
    · exact hdigit ⟨b.toNat % 16, by omega⟩ byte hmem

/-! ## The rows of a target -/

section Limited

variable {α κ : Type} [LinearOrder κ] {key : α → κ} {rows : List α}

lemma length_orderBy : (orderBy key rows).length = rows.length := perm_orderBy.length_eq

@[simp] lemma length_limited : (limited key rows).1.length = min 2 rows.length := by
  rw [limited, List.length_take, List.length_take, length_orderBy, maxLightRowsPerTarget]
  omega

/-- There are more rows than are shown. -/
@[simp] lemma truncated_limited : (limited key rows).2 = true ↔ 2 < rows.length := by
  rw [limited, decide_eq_true_eq, List.length_take, length_orderBy, maxLightRowsPerTarget]
  omega

/-- Up to two rows are all shown. -/
lemma limited_perm (h : rows.length ≤ 2) : (limited key rows).1.Perm rows := by
  rw [limited, List.take_take, List.take_of_length_le]
  · exact perm_orderBy
  · rw [length_orderBy, maxLightRowsPerTarget]
    omega

lemma mem_limited (h : rows.length ≤ 2) {a : α} : a ∈ (limited key rows).1 ↔ a ∈ rows :=
  (limited_perm h).mem_iff

/-- What is shown is among the rows. -/
lemma mem_of_mem_limited {a : α} (h : a ∈ (limited key rows).1) : a ∈ rows :=
  mem_orderBy.mp (List.mem_of_mem_take (List.mem_of_mem_take h))

end Limited

variable {st : LightStore} {gid target workspaceId : String} {symbol : Bool}
  {included : Included}

/-- The identity that a row of the lookup shows. -/
def shownMatch (st : LightStore) (row : CurrentFile × Option String) :
    CatalogueLightIdentityMatch :=
  ⟨row.1.canonicalPath, row.2, (contentHashOf st row.1).getD ""⟩

/-- The identities of a target. -/
def identities (st : LightStore) (gid target : String) (symbol : Bool) :
    List CatalogueLightIdentityMatch :=
  (identityRows st gid target symbol).map (shownMatch st)

@[simp] lemma length_identities :
    (identities st gid target symbol).length = (identityRows st gid target symbol).length :=
  List.length_map _

/-- What a query of a target comes to if its reads succeed. -/
def projected (st : LightStore) (gid workspaceId : String) (included : Included)
    (target : String × Bool) : LightQueryProjection :=
  .ofResult (targetResult st gid target.1 workspaceId target.2 included
    (identities st gid target.1 target.2))

/-- A function that agrees with the results of a loop maps the items to them. -/
lemma eq_map_of_mapM {α β ε : Type} {f : α → Except ε β} {g : α → β} {l : List α} {m : List β}
    (hg : ∀ a b, f a = .ok b → b = g a) (h : l.mapM f = .ok m) : m = l.map g := by
  have hall := mapM_ok_iff.mp h
  clear h
  induction hall with
  | nil => rfl
  | cons hb _ ih => rw [List.map_cons, ← ih, hg _ _ hb]

lemma projected_of_ok {p : LightQueryProjection}
    (h : boundedQueryProjection st gid target workspaceId symbol included = .ok p) :
    p = projected st gid workspaceId included (target, symbol) := by
  obtain ⟨found, hfound, hp⟩ := bind_ok.mp h
  have hshown : found = identities st gid target symbol := by
    refine eq_map_of_mapM (fun row m hm => ?_) hfound
    rw [identityMatch] at hm
    cases hhash : contentHashOf st row.1 with
    | none =>
      rw [hhash] at hm
      cases hm
    | some hash =>
      rw [hhash] at hm
      rw [← Except.ok.inj hm, shownMatch, hhash]
      rfl
  obtain rfl := Except.ok.inj hp
  rw [hshown, projected]

/-- The coverage records of the file that a target names. -/
def coverageFound (st : LightStore) (gid target : String) (symbol : Bool) :
    List Delta.CoverageRow :=
  coverageOfOwner st gid (ownerOf st gid (identities st gid target symbol))

/-- The pending conflicts about a target that the query includes. -/
def conflictsFound (st : LightStore) (gid workspaceId : String) (included : Included)
    (target : String) : List ClusterRow :=
  conflictRows st gid target workspaceId (included.relationships || included.impact)
    included.coverage

/-- Some rows besides the identities are included. -/
def Included.any (included : Included) : Bool :=
  included.relationships || included.impact || included.coverage

/-- The number of rows that are shown of a target. -/
def shownRows (st : LightStore) (gid workspaceId : String) (included : Included)
    (target : String × Bool) : ℕ :=
  (identityRows st gid target.1 target.2).length +
    (if included.relationships then min 2 (relationshipRows st gid target.1 target.2).length
      else 0) +
    (if included.impact then min 2 (impactRows st gid target.1 target.2).length else 0) +
    (if included.coverage then min 2 (coverageFound st gid target.1 target.2).length else 0) +
    (if included.any then min 2 (conflictsFound st gid workspaceId included target.1).length
      else 0)

lemma elim_whenIncluded {α β : Type} {b : Bool} {found : List α × Bool} {f : α → β} :
    (whenIncluded b (found.map (List.map f) id)).1.elim 0 List.length =
      if b then found.1.length else 0 := by
  cases b <;> simp [whenIncluded]

lemma snd_whenIncluded {α β : Type} {b : Bool} {found : List α × Bool} {f : α → β} :
    (whenIncluded b (found.map (List.map f) id)).2 = (b && found.2) := by
  cases b <;> simp [whenIncluded]

variable {t : String × Bool}

lemma recordCount_projected : (projected st gid workspaceId included t).recordCount =
    shownRows st gid workspaceId included t := by
  simp only [projected, LightQueryProjection.recordCount, LightQueryProjection.ofResult,
    targetResult, elim_whenIncluded, length_identities, shownRows, length_limited, Included.any,
    conflictsFound, coverageFound]
  rfl

lemma length_identityMatches_projected :
    (projected st gid workspaceId included t).result.identityMatches.length =
      (identityRows st gid t.1 t.2).length := length_identities

/-- A target has at most two identities. -/
lemma length_identityRows_le : (identityRows st gid target symbol).length ≤ 2 := by
  rw [identityRows]
  split <;> simp

/-- The rows that serve a capability. -/
def rowsFound (st : LightStore) (gid : String) (target : String × Bool) :
    RequiredCapability → ℕ
  | .boundedRelationships => (relationshipRows st gid target.1 target.2).length
  | .impactFrontier => (impactRows st gid target.1 target.2).length
  | .basicCoverageConflicts => (coverageFound st gid target.1 target.2).length
  | _ => 0

/-- More rows serve a capability than are shown, or more conflicts are pending. -/
def Crowded (st : LightStore) (gid workspaceId : String) (included : Included)
    (capability : RequiredCapability) (target : String × Bool) : Prop :=
  2 < rowsFound st gid target capability ∨
    2 < (conflictsFound st gid workspaceId included target.1).length

lemma relationshipOmitted_projected (h : included.relationships = true) :
    (projected st gid workspaceId included t).relationshipOmitted = true ↔
      Crowded st gid workspaceId included .boundedRelationships t := by
  simp [projected, LightQueryProjection.ofResult, targetResult, snd_whenIncluded, h, Crowded,
    rowsFound, conflictsFound]

lemma impactOmitted_projected (h : included.impact = true) :
    (projected st gid workspaceId included t).impactOmitted = true ↔
      Crowded st gid workspaceId included .impactFrontier t := by
  simp [projected, LightQueryProjection.ofResult, targetResult, snd_whenIncluded, h, Crowded,
    rowsFound, conflictsFound]

lemma coverageOmitted_projected (h : included.coverage = true) :
    (projected st gid workspaceId included t).coverageOmitted = true ↔
      Crowded st gid workspaceId included .basicCoverageConflicts t := by
  simp [projected, LightQueryProjection.ofResult, targetResult, snd_whenIncluded, h, Crowded,
    rowsFound, conflictsFound, coverageFound]

end WorkspaceAtlas.ContextRoute
