/-
# Migrations that are interrupted

The migrations are brought to an end by the next run if one is interrupted, but for one window:
once migration 2 has committed and until the checksum of migration 1 is recorded, the file counts
fewer checksums than migrations, and every later run refuses it.
-/
import WorkspaceAtlas.Catalogue.Migrations

namespace WorkspaceAtlas

open Relational Transition

namespace Migrations

/-! ## The states of a file -/

/-- How far a file has got.  In the two stages that are called open the checksum of migration 1 is
not recorded. -/
inductive Stage where
  | fresh
  | one
  | openTwo
  | two
  | openThree
  | three
  | four
  deriving DecidableEq, Repr

namespace Stage

/-- The version. -/
def version : Stage → Fin 5
  | fresh => 0
  | one => 1
  | openTwo | two => 2
  | openThree | three => 3
  | four => 4

/-- The versions whose checksums are recorded. -/
def recorded : Stage → List ℤ
  | fresh | one => []
  | openTwo => [2]
  | two => [1, 2]
  | openThree => [2, 3]
  | three => [1, 2, 3]
  | four => [1, 2, 3, 4]

/-- The checksum of migration 1 is missing. -/
def isOpen (stage : Stage) : Bool := stage = openTwo ∨ stage = openThree

/-- The columns that identify a revision. -/
def Fits : Stage → List RevisionMaterial → Prop
  | fresh, rows => rows = []
  | four, rows => (rows.map RevisionMaterial.identity).Nodup
  | _, rows => (rows.map RevisionMaterial.oldIdentity).Nodup

end Stage

/-- The rows of `schema_migration` up to a version. -/
def applied (n : Fin 5) : SortedMap ℤ String where
  entries := (expectedSchemaNames.take n).zipIdx.map fun r => ((r.2 + 1 : ℤ), r.1)
  sorted := by
    revert n
    decide

/-- The rows of `migration_integrity` for some versions. -/
def recordedRows (B : Binary) (versions : List ℤ) : SortedMap ℤ (String × String) where
  entries := (B.migrations.filter fun m => m.version ∈ versions).map
    fun m => (m.version, m.name, B.checksum m)
  sorted := by
    have hall : (B.migrations.map Migration.version).Pairwise (· < ·) := by
      show [(1 : ℤ), 2, 3, 4].Pairwise (· < ·)
      decide
    rw [List.map_map]
    exact hall.sublist (List.filter_sublist.map Migration.version)

/-- The file in a stage, with some revisions. -/
def fileAt (B : Binary) (stage : Stage) (rows : List RevisionMaterial) : SchemaFile where
  userVersion := stage.version.val
  schemaMigration := if stage = .fresh then none else some (applied stage.version)
  migrationIntegrity :=
    if stage.version < 2 then none else some (recordedRows B stage.recorded)
  fileRevision := if stage = .fresh then none else some rows
  identityIndex :=
    if stage = .fresh then none else some (if stage = .four then newIndexSql else oldIndexSql)
  fenced := stage = .four
  damage := none

section Lemmas

variable {B : Binary} {stage : Stage} {rows : List RevisionMaterial}

/-! ## Checks -/

lemma fits_nodup (h : stage.Fits rows) : (rows.map RevisionMaterial.identity).Nodup := by
  have hold : (rows.map RevisionMaterial.oldIdentity).Nodup →
      (rows.map RevisionMaterial.identity).Nodup := by
    intro hnodup
    have hmap : rows.map RevisionMaterial.oldIdentity =
        (rows.map RevisionMaterial.identity).map fun i => (i.1, i.2.1, i.2.2.1, i.2.2.2.1) := by
      rw [List.map_map]
      rfl
    rw [hmap] at hnodup
    exact hnodup.of_map
  cases stage with
  | fresh =>
    obtain rfl : rows = [] := h
    exact List.nodup_nil
  | four => exact h
  | one | openTwo | two | openThree | three => exact hold h

lemma countP_of_nodup {α β : Type} [DecidableEq β] {f : α → β} {l : List α} (h : (l.map f).Nodup)
    (a : α) : (l.countP fun b => f b = f a) ≤ 1 := by
  have hcount : (l.map f).count (f a) = l.countP fun b => f b = f a := by
    rw [List.count, List.countP_map]
    congr 1
  rw [← hcount]
  exact List.nodup_iff_count_le_one.mp h _

lemma rejectAmbiguous_ok (h : stage.Fits rows) :
    rejectAmbiguousRevisionMaterial B.debug (fileAt B stage rows) = .ok () := by
  have hfind : ∀ rows' : List RevisionMaterial, (rows'.map RevisionMaterial.identity).Nodup →
      (rows'.find? fun r => 1 < rows'.countP fun r' => r'.identity = r.identity) = none := by
    intro rows' hnodup
    refine List.find?_eq_none.mpr fun r _ => ?_
    have hle := countP_of_nodup hnodup r
    simp only [decide_eq_true_eq, not_lt]
    exact hle
  unfold rejectAmbiguousRevisionMaterial
  cases stage with
  | fresh => rfl
  | _ =>
    have hnone := hfind rows (fits_nodup h)
    simp only [fileAt, reduceCtorEq, if_false, Option.getD_some] at hnone ⊢
    rw [hnone]

lemma checkIndex_ok (h : stage ≠ .fresh) :
    checkIndex (fileAt B stage rows) stage.version.val = .ok () := by
  have hold : (expectedColumns 1).toList <:+: normalizedIndex oldIndexSql := by decide +kernel
  have hnew : (expectedColumns 4).toList <:+: normalizedIndex newIndexSql := by decide +kernel
  cases stage with
  | fresh => exact absurd rfl h
  | four => exact ensure_eq_ok.mpr hnew
  | _ => exact ensure_eq_ok.mpr hold

lemma validate_ok (h : stage.isOpen = false) :
    validateCatalogueState B (fileAt B stage rows) stage.version.val = .ok () := by
  have hindex : stage ≠ .fresh →
      checkIndex (fileAt B stage rows) stage.version.val = .ok () := checkIndex_ok
  cases stage with
  | fresh => rfl
  | openTwo => exact absurd h (by decide)
  | openThree => exact absurd h (by decide)
  | one => exact bind_ok.mpr ⟨(), rfl, bind_ok.mpr ⟨(), rfl, hindex (by decide)⟩⟩
  | two => exact bind_ok.mpr ⟨(), rfl, bind_ok.mpr ⟨(), rfl, hindex (by decide)⟩⟩
  | three => exact bind_ok.mpr ⟨(), rfl, bind_ok.mpr ⟨(), rfl, hindex (by decide)⟩⟩
  | four => exact bind_ok.mpr ⟨(), rfl, bind_ok.mpr ⟨(), rfl, hindex (by decide)⟩⟩

lemma filterM_eq_nil {α : Type} {p : α → Except AtlasError Bool} {l : List α}
    (h : ∀ a ∈ l, p a = .ok false) : l.filterM p = .ok [] := by
  have haux : ∀ acc, l.filterAuxM p acc = .ok acc := by
    induction l with
    | nil => exact fun acc => rfl
    | cons a l ih =>
      intro acc
      rw [List.filterAuxM, h a List.mem_cons_self]
      exact ih (fun b hb => h b (List.mem_cons_of_mem _ hb)) acc
  rw [List.filterM, haux]
  rfl

lemma get_recordedRows_iff {versions : List ℤ} {k : ℤ} {row : String × String} :
    (recordedRows B versions).get k = some row ↔
      ∃ m ∈ B.migrations, m.version ∈ versions ∧ m.version = k ∧ row = (m.name, B.checksum m) := by
  rw [SortedMap.get_eq_some_iff]
  simp only [recordedRows, List.mem_map, List.mem_filter, decide_eq_true_eq, Prod.mk.injEq]
  constructor
  · rintro ⟨m, ⟨hm, hmem⟩, hversion, hrow⟩
    exact ⟨m, hm, hmem, hversion, hrow.symm⟩
  · rintro ⟨m, hm, hmem, hversion, hrow⟩
    exact ⟨m, ⟨hm, hmem⟩, hversion, hrow.symm⟩

lemma eq_of_version {m m' : Migration} (hm : m ∈ B.migrations) (hm' : m' ∈ B.migrations)
    (h : m.version = m'.version) : m = m' := by
  have hinj : ∀ m₁ ∈ B.migrations, ∀ m₂ ∈ B.migrations, m₁.version = m₂.version → m₁ = m₂ := by
    simp [Binary.migrations]
  exact hinj m hm m' hm' h

lemma of_get_recordedRows {versions : List ℤ} {m : Migration} (hm : m ∈ B.migrations)
    {row : String × String} (h : (recordedRows B versions).get m.version = some row) :
    row = (m.name, B.checksum m) := by
  obtain ⟨m', hm', -, hversion, rfl⟩ := get_recordedRows_iff.mp h
  rw [eq_of_version hm' hm hversion]

lemma insert_recordedRows {versions versions' : List ℤ} {m : Migration} (hm : m ∈ B.migrations)
    (h : ∀ v, v ∈ versions' ↔ v = m.version ∨ v ∈ versions) :
    (recordedRows B versions).insert m.version (m.name, B.checksum m) =
      recordedRows B versions' := by
  refine SortedMap.ext_get fun k => Option.ext fun row => ?_
  rw [SortedMap.get_insert]
  split
  next heq =>
    rw [get_recordedRows_iff, Option.some_inj]
    constructor
    · rintro rfl
      exact ⟨m, hm, (h m.version).mpr (Or.inl rfl), heq.symm, rfl⟩
    · rintro ⟨m', hm', -, hversion, rfl⟩
      rw [eq_of_version hm' hm (hversion.trans heq)]
  next hne =>
    rw [get_recordedRows_iff, get_recordedRows_iff]
    refine exists_congr fun m' => and_congr_right fun _ => ?_
    constructor
    · rintro ⟨hmem, rfl, hrow⟩
      exact ⟨(h _).mpr (Or.inr hmem), rfl, hrow⟩
    · rintro ⟨hmem, rfl, hrow⟩
      exact ⟨((h _).mp hmem).resolve_left hne, rfl, hrow⟩

lemma verify_ok : verifyMigrationChecksums B (fileAt B stage rows) = .ok [] := by
  have hsound : ∀ versions, ∀ s : SchemaFile, s.schemaMigration.isSome = true →
      (B.migrations.filterM (isMismatched B s (recordedRows B versions))) = .ok [] := by
    intro versions s hs
    refine filterM_eq_nil fun m hm => ?_
    obtain ⟨names, hnames⟩ := Option.isSome_iff_exists.mp hs
    simp only [isMismatched, isApplied, table, hnames, Option.elim_some, Except.map]
    congr 1
    cases hget : (recordedRows B versions).get m.version with
    | none => simp
    | some row => simp [of_get_recordedRows hm hget]
  unfold verifyMigrationChecksums
  cases stage with
  | fresh => rfl
  | one => rfl
  | _ =>
    simp only [fileAt, Stage.version, Fin.isValue]
    exact congrArg (Except.map (List.map Migration.name)) (hsound _ _ rfl)

lemma preflight_ok (h : stage.isOpen = false) (hfits : stage.Fits rows) :
    preflightCatalogueState B (fileAt B stage rows) = .ok () := by
  refine bind_ok.mpr ⟨(), rfl, bind_ok.mpr ⟨(), rejectAmbiguous_ok hfits, bind_ok.mpr
    ⟨(), validate_ok h, bind_ok.mpr ⟨[], verify_ok, rfl⟩⟩⟩⟩

/-- The file counts fewer checksums than migrations. -/
lemma preflight_open (h : stage.isOpen = true) (hfits : stage.Fits rows) :
    preflightCatalogueState B (fileAt B stage rows) = .error (.migration
      ("catalogue user_version " ++ toString (stage.version.val : ℤ) ++
        " disagrees with migration checksum rows " ++ debugRows B.debug
          ((recordedRows B stage.recorded).entries.map fun row => (row.1, row.2.1)) ++
        "; split checksum state")) := by
  have hreject := rejectAmbiguous_ok (B := B) hfits
  unfold preflightCatalogueState
  simp only [hreject, bind, Except.bind]
  cases stage with
  | openTwo => rfl
  | openThree => rfl
  | _ => exact absurd h (by decide)

/-! ## The migrations one by one -/

/-- The migration of a version. -/
def Binary.migration (B : Binary) (n : Fin 4) : Migration := B.migrations.get n

lemma migration_mem (n : Fin 4) : B.migration n ∈ B.migrations := List.get_mem ..

lemma insertChecksum_ok (versions' : List ℤ) {s : SchemaFile} {versions : List ℤ} {m : Migration}
    (hm : m ∈ B.migrations) (hs : s.migrationIntegrity = some (recordedRows B versions))
    (hnot : m.version ∉ versions) (h : ∀ v, v ∈ versions' ↔ v = m.version ∨ v ∈ versions) :
    insertChecksum B m s =
      .ok { s with migrationIntegrity := some (recordedRows B versions') } := by
  have hfree : ((recordedRows B versions).get m.version).isSome = false := by
    rw [Option.isSome_eq_false_iff, Option.isNone_iff_eq_none, Option.eq_none_iff_forall_ne_some]
    intro row hrow
    obtain ⟨m', -, hmem, hversion, -⟩ := get_recordedRows_iff.mp hrow
    exact hnot (hversion ▸ hmem)
  simp only [insertChecksum, hs, hfree, Bool.false_eq_true, if_false, insert_recordedRows hm h]

lemma insert_applied : (SortedMap.empty.insert 1 "workspace_atlas_foundation") = applied 1 ∧
    ((applied 1).insert 2 "0002_semantic_provider_foundation") = applied 2 ∧
    ((applied 2).insert 3 "0003_context_intelligence_foundation") = applied 3 ∧
    ((applied 3).insert 4 "0004_file_classification_identity") = applied 4 := by decide

lemma applyOne_foundation :
    applyOneMigration B (B.migration 0) (fileAt B .fresh rows) = .ok (fileAt B .one []) := by
  have hbody : body 1 (fileAt B .fresh rows) =
      .ok { fileAt B .one [] with userVersion := 0 } := by
    simp only [body, if_true, foundation, fileAt, Option.getD_none, SortedMap.get_empty,
      insert_applied.1]
    rfl
  exact bind_ok.mpr ⟨_, hbody, bind_ok.mpr ⟨_, rfl, bind_ok.mpr ⟨_, rfl, rfl⟩⟩⟩

lemma insertMigrationRow_ok {s : SchemaFile} {m : Migration} {k k' : Fin 5}
    (hs : s.schemaMigration = some (applied k)) (hget : ((applied k).get m.version).isSome = false)
    (hinsert : (applied k).insert m.version m.name = applied k') :
    insertMigrationRow m s = .ok { s with schemaMigration := some (applied k') } := by
  simp only [insertMigrationRow, hs, table, Option.elim_some, Except.map, hget, Bool.false_eq_true,
    if_false, hinsert]

lemma applyOne_provider :
    applyOneMigration B (B.migration 1) (fileAt B .one rows) = .ok (fileAt B .openTwo rows) := by
  have hbody : body 2 (fileAt B .one rows) = .ok { fileAt B .one rows with
      migrationIntegrity := some (recordedRows B []), userVersion := 2 } := rfl
  have hrow := insertMigrationRow_ok (m := B.migration 1)
    (s := { fileAt B .one rows with
      migrationIntegrity := some (recordedRows B []), userVersion := 2 }) rfl rfl insert_applied.2.1
  have hchecksum := insertChecksum_ok (B := B) [2] (migration_mem 1)
    (s := { fileAt B .openTwo rows with migrationIntegrity := some (recordedRows B []) }) rfl
    (by simp) (by simp [Binary.migration, Binary.migrations])
  exact bind_ok.mpr ⟨_, hbody, bind_ok.mpr ⟨_, hrow, bind_ok.mpr ⟨_, hchecksum, rfl⟩⟩⟩

/-- Migration 3, with the checksum of migration 1 or without it. -/
lemma applyOne_context {s s' : Stage}
    (h : s = .two ∧ s' = .three ∨ s = .openTwo ∧ s' = .openThree) :
    applyOneMigration B (B.migration 2) (fileAt B s rows) = .ok (fileAt B s' rows) := by
  rcases h with ⟨rfl, rfl⟩ | ⟨rfl, rfl⟩
  · have hrow := insertMigrationRow_ok (m := B.migration 2)
      (s := fileAt B .two rows) rfl rfl insert_applied.2.2.1
    have hchecksum := insertChecksum_ok (B := B) [1, 2, 3] (migration_mem 2)
      (s := { fileAt B .two rows with schemaMigration := some (applied 3) }) rfl
      (by simp [Stage.recorded, Binary.migration, Binary.migrations])
      (by simp [Stage.recorded, Binary.migration, Binary.migrations]; omega)
    exact bind_ok.mpr ⟨_, rfl, bind_ok.mpr ⟨_, hrow, bind_ok.mpr ⟨_, hchecksum, rfl⟩⟩⟩
  · have hrow := insertMigrationRow_ok (m := B.migration 2)
      (s := fileAt B .openTwo rows) rfl rfl insert_applied.2.2.1
    have hchecksum := insertChecksum_ok (B := B) [2, 3] (migration_mem 2)
      (s := { fileAt B .openTwo rows with schemaMigration := some (applied 3) }) rfl
      (by simp [Stage.recorded, Binary.migration, Binary.migrations])
      (by simp [Stage.recorded, Binary.migration, Binary.migrations]; omega)
    exact bind_ok.mpr ⟨_, rfl, bind_ok.mpr ⟨_, hrow, bind_ok.mpr ⟨_, hchecksum, rfl⟩⟩⟩

lemma applyOne_identity (hfits : Stage.three.Fits rows) :
    applyOneMigration B (B.migration 3) (fileAt B .three rows) = .ok (fileAt B .four rows) := by
  have hnodup := fits_nodup hfits
  have hbody : body 4 (fileAt B .three rows) = .ok { fileAt B .three rows with
      identityIndex := some newIndexSql, fenced := true } := by
    refine bind_ok.mpr ⟨(), rfl, bind_ok.mpr ⟨rows, rfl, bind_ok.mpr ⟨(), ?_, rfl⟩⟩⟩
    exact ensure_eq_ok.mpr hnodup
  have hrow := insertMigrationRow_ok (m := B.migration 3)
    (s := { fileAt B .three rows with identityIndex := some newIndexSql, fenced := true })
    rfl rfl insert_applied.2.2.2
  have hchecksum := insertChecksum_ok (B := B) [1, 2, 3, 4] (migration_mem 3)
    (s := { fileAt B .three rows with
      identityIndex := some newIndexSql
      fenced := true
      schemaMigration := some (applied 4) }) rfl
    (by simp [Stage.recorded, Binary.migration, Binary.migrations])
    (by simp [Stage.recorded, Binary.migration, Binary.migrations]; omega)
  exact bind_ok.mpr ⟨_, hbody, bind_ok.mpr ⟨_, hrow, bind_ok.mpr ⟨_, hchecksum, rfl⟩⟩⟩

/-! ## The checksums -/

lemma isApplied_fileAt (h : stage ≠ .fresh) (n : Fin 4) :
    isApplied (fileAt B stage rows) (B.migration n).version =
      .ok (decide (n.val < stage.version.val)) := by
  have hall : ∀ k : Fin 5, ∀ n : Fin 4,
      ((applied k).get (n.val + 1 : ℤ)).isSome = decide (n.val < k.val) := by decide
  have hversion : (B.migration n).version = (n.val + 1 : ℤ) := by
    match n with
    | 0 | 1 | 2 | 3 => rfl
  rw [isApplied, hversion, ← hall stage.version n]
  simp only [fileAt, if_neg h]
  rfl

lemma integrity_fileAt (h : 2 ≤ stage.version.val) :
    (fileAt B stage rows).migrationIntegrity = some (recordedRows B stage.recorded) := by
  simp only [fileAt]
  rw [if_neg]
  exact fun hlt => absurd h (Nat.not_le.mpr hlt)

/-- A checksum that is recorded, or a migration that is not applied. -/
lemma reconcileOne_idle (h : stage ≠ .fresh) (n : Fin 4)
    (hstored : n.val < stage.version.val → (n.val + 1 : ℤ) ∈ stage.recorded)
    (hintegrity : 2 ≤ stage.version.val) :
    reconcileOne B (B.migration n) (fileAt B stage rows) = ([], .ok ()) := by
  have hversion : (B.migration n).version = (n.val + 1 : ℤ) := by
    match n with
    | 0 | 1 | 2 | 3 => rfl
  have hrows : (fileAt B stage rows).migrationIntegrity = some (recordedRows B stage.recorded) :=
    integrity_fileAt hintegrity
  by_cases happlied : n.val < stage.version.val
  · have hget : (recordedRows B stage.recorded).get (B.migration n).version =
        some ((B.migration n).name, B.checksum (B.migration n)) :=
      get_recordedRows_iff.mpr
        ⟨B.migration n, migration_mem n, hversion ▸ hstored happlied, rfl, rfl⟩
    have hread : storedChecksum (B.migration n) (fileAt B stage rows) =
        .ok (some (some (B.checksum (B.migration n)))) := by
      simp only [storedChecksum, isApplied_fileAt h, happlied, hrows, hget, Except.map, decide_true,
        if_true, Option.bind_some, Option.map_some]
    refine Durable.bind_eq (Durable.read_eq hread) (Durable.read_eq ?_)
    exact ensure_eq_ok.mpr rfl
  · have hread : storedChecksum (B.migration n) (fileAt B stage rows) = .ok none := by
      simp only [storedChecksum, isApplied_fileAt h, happlied, Except.map, decide_false,
        Bool.false_eq_true, if_false]
    exact Durable.bind_eq (Durable.read_eq hread) rfl

lemma migrations_eq : B.migrations =
    [B.migration 0, B.migration 1, B.migration 2, B.migration 3] := rfl

/-- A loop over the migrations that each leave the file as it is. -/
lemma forM_idle {f : Migration → Runner Unit} {s : SchemaFile} {ms : List Migration}
    (h : ∀ m ∈ ms, f m s = ([], .ok ())) : ms.forM f s = ([], .ok ()) := by
  induction ms with
  | nil => rfl
  | cons m ms ih =>
    have hrest := ih fun m' hm' => h m' (List.mem_cons_of_mem _ hm')
    exact Durable.forM_cons_eq (h m List.mem_cons_self) hrest

/-- The table of the checksums exists. -/
lemma reconcile_eq {s : SchemaFile} {l : List SchemaFile} {r : Except AtlasError Unit}
    (h : s.migrationIntegrity.isSome = true)
    (hloop : B.migrations.forM (reconcileOne B) s = (l, r)) :
    reconcileMigrationChecksums B s = (l, r) := by
  have hread : Durable.read (fun s : SchemaFile => Except.ok s.migrationIntegrity.isSome) s =
      ([], (.ok true : Except AtlasError Bool)) := Durable.read_eq (congrArg Except.ok h)
  exact Durable.bind_eq hread hloop

/-- The checksums are complete. -/
lemma reconcile_closed (h : stage.isOpen = false) :
    reconcileMigrationChecksums B (fileAt B stage rows) = ([], .ok ()) := by
  have hidle : ∀ stage : Stage, stage ≠ .fresh → 2 ≤ stage.version.val →
      (∀ n : Fin 4, n.val < stage.version.val → (n.val + 1 : ℤ) ∈ stage.recorded) →
        reconcileMigrationChecksums B (fileAt B stage rows) = ([], .ok ()) := by
    intro stage hfresh hversion hall
    have hsome : (fileAt B stage rows).migrationIntegrity.isSome = true :=
      congrArg Option.isSome (integrity_fileAt hversion)
    refine reconcile_eq hsome (forM_idle fun m hm => ?_)
    rw [migrations_eq] at hm
    simp only [List.mem_cons, List.not_mem_nil, or_false] at hm
    rcases hm with rfl | rfl | rfl | rfl
    · exact reconcileOne_idle hfresh 0 (hall 0) hversion
    · exact reconcileOne_idle hfresh 1 (hall 1) hversion
    · exact reconcileOne_idle hfresh 2 (hall 2) hversion
    · exact reconcileOne_idle hfresh 3 (hall 3) hversion
  cases stage with
  | fresh => rfl
  | one => rfl
  | openTwo => exact absurd h (by decide)
  | openThree => exact absurd h (by decide)
  | two => exact hidle .two (by decide) (by decide) (by decide)
  | three => exact hidle .three (by decide) (by decide) (by decide)
  | four => exact hidle .four (by decide) (by decide) (by decide)

/-- The checksum of migration 1 is recorded. -/
lemma reconcile_openThree : reconcileMigrationChecksums B (fileAt B .openThree rows) =
    ([fileAt B .three rows], .ok ()) := by
  have hread : storedChecksum (B.migration 0) (fileAt B .openThree rows) = .ok (some none) := by
    rw [storedChecksum, isApplied_fileAt (by decide) 0]
    rfl
  have hinsert : insertChecksum B (B.migration 0) (fileAt B .openThree rows) =
      .ok (fileAt B .three rows) :=
    insertChecksum_ok [1, 2, 3] (migration_mem 0) rfl
      (by simp [Stage.recorded, Binary.migration, Binary.migrations])
      (by simp [Stage.recorded, Binary.migration, Binary.migrations])
  have hfirst : reconcileOne B (B.migration 0) (fileAt B .openThree rows) =
      ([fileAt B .three rows], .ok ()) :=
    Durable.bind_eq (Durable.read_eq hread) (Durable.transact_eq hinsert)
  have hrecorded : ∀ n : Fin 4, n.val < Stage.three.version.val →
      (n.val + 1 : ℤ) ∈ Stage.three.recorded := by decide
  have hidle : ∀ n : Fin 4, reconcileOne B (B.migration n) (fileAt B .three rows) =
      ([], .ok ()) :=
    fun n => reconcileOne_idle (by decide) n (hrecorded n) (by decide)
  have hrest : [B.migration 1, B.migration 2, B.migration 3].forM (reconcileOne B)
      (fileAt B .three rows) = ([], .ok ()) := by
    refine forM_idle fun m hm => ?_
    simp only [List.mem_cons, List.not_mem_nil, or_false] at hm
    rcases hm with rfl | rfl | rfl
    · exact hidle 1
    · exact hidle 2
    · exact hidle 3
  exact reconcile_eq rfl (Durable.forM_cons_eq hfirst hrest)

/-! ## The loop -/

lemma applyNext_eq {m : Migration} {s : SchemaFile} {b : Bool}
    {l : List SchemaFile} {r : Except AtlasError Unit}
    (h : (Except.ok (s.schemaMigration.any fun names => (names.get m.version).isSome) :
      Except AtlasError Bool) = .ok b)
    (hrun : (if b then pure ()
      else do prepare B m; Durable.transact (applyOneMigration B m) : Runner Unit) s = (l, r)) :
    applyNext B m s = (l, r) := by
  have hread : Durable.read (fun s : SchemaFile => (Except.ok
      (s.schemaMigration.any fun names => (names.get m.version).isSome) :
        Except AtlasError Bool)) s = ([], .ok b) := Durable.read_eq h
  exact Durable.bind_eq hread hrun

/-- A migration that is applied is left out. -/
lemma applyNext_skip (h : stage ≠ .fresh) (n : Fin 4) (hn : n.val < stage.version.val) :
    applyNext B (B.migration n) (fileAt B stage rows) = ([], .ok ()) := by
  have hsome : ((fileAt B stage rows).schemaMigration.any fun names =>
      (names.get (B.migration n).version).isSome) = true := by
    have happlied : isApplied (fileAt B stage rows) (B.migration n).version =
        .ok (decide (n.val < stage.version.val)) := isApplied_fileAt h n
    simp only [isApplied, fileAt, if_neg h, table, Option.elim_some, Except.map, hn,
      decide_true] at happlied ⊢
    exact Except.ok.inj happlied
  exact applyNext_eq (congrArg Except.ok hsome) rfl

/-- A migration that is missing is applied. -/
lemma applyNext_missing {n : Fin 4} {s s' : SchemaFile} {l : List SchemaFile}
    (hnone : (s.schemaMigration.any fun names =>
      (names.get (B.migration n).version).isSome) = false)
    (hprepare : prepare B (B.migration n) s = (l, .ok ()))
    (hok : applyOneMigration B (B.migration n) (Durable.latest s l) = .ok s') :
    applyNext B (B.migration n) s = (l ++ [s'], .ok ()) := by
  have hrun : (do prepare B (B.migration n); Durable.transact (applyOneMigration B (B.migration n)))
      s = (l ++ [s'], .ok ()) := Durable.bind_eq hprepare (Durable.transact_eq hok)
  exact applyNext_eq (congrArg Except.ok hnone) hrun

lemma prepare_pure {n : Fin 4} (h : n ≠ 3) (s : SchemaFile) :
    prepare B (B.migration n) s = ([], .ok ()) := by
  match n with
  | 0 | 1 | 2 => rfl
  | 3 => exact absurd rfl h

lemma prepare_three (hfits : Stage.three.Fits rows) :
    prepare B (B.migration 3) (fileAt B .three rows) = ([], .ok ()) :=
  Durable.bind_eq (reconcile_closed rfl) (Durable.read_eq (preflight_ok rfl hfits))

/-- The checksum of migration 1 is recorded before migration 4. -/
lemma prepare_openThree (hfits : Stage.three.Fits rows) :
    prepare B (B.migration 3) (fileAt B .openThree rows) = ([fileAt B .three rows], .ok ()) :=
  Durable.bind_eq reconcile_openThree (Durable.read_eq (preflight_ok rfl hfits))

lemma applyNext_three (hfits : Stage.three.Fits rows) :
    applyNext B (B.migration 3) (fileAt B .three rows) = ([fileAt B .four rows], .ok ()) :=
  applyNext_missing rfl (prepare_three hfits) (applyOne_identity hfits)

lemma applyNext_openThree (hfits : Stage.three.Fits rows) :
    applyNext B (B.migration 3) (fileAt B .openThree rows) =
      ([fileAt B .three rows, fileAt B .four rows], .ok ()) :=
  applyNext_missing rfl (prepare_openThree hfits) (applyOne_identity hfits)

/-- What is committed in a stage, until the newest schema is reached. -/
def Stage.commits : Stage → List Stage
  | .fresh => [.one, .openTwo, .openThree, .three, .four]
  | .one => [.openTwo, .openThree, .three, .four]
  | .two => [.three, .four]
  | .three => [.four]
  | .openTwo | .openThree | .four => []

/-- The loop leaves out the migrations that are applied. -/
lemma forM_skip (ms : List Migration) {f : Migration → Runner Unit} {s : SchemaFile}
    {ms' : List Migration} (h : ∀ m ∈ ms, f m s = ([], .ok ())) :
    (ms ++ ms').forM f s = ms'.forM f s := by
  induction ms with
  | nil => rfl
  | cons m ms ih =>
    rw [List.cons_append, ← ih fun m' hm' => h m' (List.mem_cons_of_mem _ hm')]
    exact Durable.forM_cons_eq (h m List.mem_cons_self) rfl

lemma loop_two (hfits : Stage.two.Fits rows) :
    [B.migration 2, B.migration 3].forM (applyNext B) (fileAt B .two rows) =
      ([fileAt B .three rows, fileAt B .four rows], .ok ()) := by
  have hcontext := applyNext_missing (B := B) (n := 2) (s := fileAt B .two rows) rfl
    (prepare_pure (by decide) _) (applyOne_context (Or.inl ⟨rfl, rfl⟩))
  exact Durable.forM_cons_eq hcontext (Durable.forM_cons_eq (applyNext_three hfits) rfl)

lemma loop_one (hfits : Stage.one.Fits rows) :
    [B.migration 1, B.migration 2, B.migration 3].forM (applyNext B) (fileAt B .one rows) =
      (Stage.one.commits.map fun stage => fileAt B stage rows, .ok ()) := by
  have hprovider := applyNext_missing (B := B) (n := 1) (s := fileAt B .one rows) rfl
    (prepare_pure (by decide) _) applyOne_provider
  have hcontext := applyNext_missing (B := B) (n := 2) (s := fileAt B .openTwo rows) rfl
    (prepare_pure (by decide) _) (applyOne_context (Or.inr ⟨rfl, rfl⟩))
  exact Durable.forM_cons_eq hprovider (Durable.forM_cons_eq hcontext
    (Durable.forM_cons_eq (applyNext_openThree hfits) rfl))

/-- The loop over the migrations. -/
lemma loop_closed (h : stage.isOpen = false) (hfits : stage.Fits rows) :
    B.migrations.forM (applyNext B) (fileAt B stage rows) =
      (stage.commits.map fun stage => fileAt B stage rows, .ok ()) := by
  rw [migrations_eq]
  cases stage with
  | fresh =>
    obtain rfl : rows = [] := hfits
    have hfoundation := applyNext_missing (B := B) (n := 0) (s := fileAt B .fresh []) rfl
      (prepare_pure (by decide) _) applyOne_foundation
    have hone : Stage.one.Fits [] := List.nodup_nil
    exact Durable.forM_cons_eq hfoundation (loop_one hone)
  | openTwo => exact absurd h (by decide)
  | openThree => exact absurd h (by decide)
  | one =>
    rw [← loop_one hfits]
    refine forM_skip [B.migration 0] fun m hm => ?_
    rw [List.mem_singleton.mp hm]
    exact applyNext_skip (by decide) 0 (by decide)
  | two =>
    have hcommits := loop_two (B := B) hfits
    refine Eq.trans (forM_skip [B.migration 0, B.migration 1] fun m hm => ?_) hcommits
    simp only [List.mem_cons, List.not_mem_nil, or_false] at hm
    rcases hm with rfl | rfl
    · exact applyNext_skip (by decide) 0 (by decide)
    · exact applyNext_skip (by decide) 1 (by decide)
  | three =>
    have hlast : [B.migration 3].forM (applyNext B) (fileAt B .three rows) =
      ([fileAt B .four rows], .ok ()) := Durable.forM_cons_eq (applyNext_three hfits) rfl
    refine Eq.trans (forM_skip [B.migration 0, B.migration 1, B.migration 2]
      fun m hm => ?_) hlast
    simp only [List.mem_cons, List.not_mem_nil, or_false] at hm
    rcases hm with rfl | rfl | rfl
    · exact applyNext_skip (by decide) 0 (by decide)
    · exact applyNext_skip (by decide) 1 (by decide)
    · exact applyNext_skip (by decide) 2 (by decide)
  | four =>
    refine forM_idle fun m hm => ?_
    simp only [List.mem_cons, List.not_mem_nil, or_false] at hm
    rcases hm with rfl | rfl | rfl | rfl
    · exact applyNext_skip (by decide) 0 (by decide)
    · exact applyNext_skip (by decide) 1 (by decide)
    · exact applyNext_skip (by decide) 2 (by decide)
    · exact applyNext_skip (by decide) 3 (by decide)

/-! ## The run -/

/-- What is committed last has the newest schema. -/
lemma latest_commits (h : stage.isOpen = false) :
    Durable.latest (fileAt B stage rows) (stage.commits.map fun stage => fileAt B stage rows) =
      fileAt B .four rows := by
  cases stage with
  | openTwo => exact absurd h (by decide)
  | openThree => exact absurd h (by decide)
  | fresh | one | two | three | four => rfl

/-- No stage is that of a newer binary. -/
lemma notNewer : Durable.read (fun s : SchemaFile =>
    ensure (s.userVersion ≤ maxSupportedVersion) (newer s.userVersion)) (fileAt B stage rows) =
      ([], .ok ()) := by
  refine Durable.read_eq (ensure_eq_ok.mpr ?_)
  show (stage.version.val : ℤ) ≤ 4
  have hlt := stage.version.isLt
  omega

/-- A run on a closed file commits what is missing. -/
lemma applyAll_closed (h : stage.isOpen = false) (hfits : stage.Fits rows) :
    applyAll B (fileAt B stage rows) =
      (stage.commits.map fun stage => fileAt B stage rows, .ok ()) := by
  have hfour : Stage.four.Fits rows := fits_nodup hfits
  have hend : (do reconcileMigrationChecksums B; Durable.read (preflightCatalogueState B))
      (Durable.latest (fileAt B stage rows)
        (stage.commits.map fun stage => fileAt B stage rows)) = ([], .ok ()) := by
    rw [latest_commits h]
    exact Durable.bind_eq (reconcile_closed rfl) (Durable.read_eq (preflight_ok rfl hfour))
  have hloop := Durable.bind_eq (f := fun _ => do
    reconcileMigrationChecksums B; Durable.read (preflightCatalogueState B))
    (loop_closed (B := B) h hfits) hend
  rw [List.append_nil] at hloop
  exact Durable.bind_eq notNewer (Durable.bind_eq (Durable.read_eq (preflight_ok h hfits)) hloop)

/-- What a run says of a file that counts fewer checksums than migrations. -/
def splitChecksums (B : Binary) (stage : Stage) : AtlasError :=
  .migration ("catalogue user_version " ++ toString (stage.version.val : ℤ) ++
    " disagrees with migration checksum rows " ++ debugRows B.debug
      ((recordedRows B stage.recorded).entries.map fun row => (row.1, row.2.1)) ++
    "; split checksum state")

/-- A run on an open file commits nothing. -/
lemma applyAll_open (h : stage.isOpen = true) (hfits : stage.Fits rows) :
    applyAll B (fileAt B stage rows) = ([], .error (splitChecksums B stage)) :=
  Durable.bind_eq notNewer (Durable.bind_eq_error (Durable.read_eq (preflight_open h hfits)))

/-- What is committed still tells the revisions apart. -/
lemma fits_commits {stage' : Stage} (hfits : stage.Fits rows) (h : stage' ∈ stage.commits) :
    stage'.Fits rows := by
  have hnodup := fits_nodup hfits
  cases stage with
  | fresh =>
    obtain rfl : rows = [] := hfits
    simp only [Stage.commits, List.mem_cons, List.not_mem_nil, or_false] at h
    rcases h with rfl | rfl | rfl | rfl | rfl <;> exact List.nodup_nil
  | one =>
    simp only [Stage.commits, List.mem_cons, List.not_mem_nil, or_false] at h
    rcases h with rfl | rfl | rfl | rfl
    · exact hfits
    · exact hfits
    · exact hfits
    · exact hnodup
  | two =>
    simp only [Stage.commits, List.mem_cons, List.not_mem_nil, or_false] at h
    rcases h with rfl | rfl
    · exact hfits
    · exact hnodup
  | three =>
    simp only [Stage.commits, List.mem_cons, List.not_mem_nil, or_false] at h
    obtain rfl := h
    exact hnodup
  | openTwo | openThree | four => simp [Stage.commits] at h

/-! ## Interrupted runs -/

/-- What the programs of a catalogue do to it between two runs: they write revisions, which the
identity index in force tells apart. -/
def Rewritten (B : Binary) (s s' : SchemaFile) : Prop :=
  ∃ stage rows rows', s = fileAt B stage rows ∧ stage.Fits rows' ∧ s' = fileAt B stage rows'

/-- A file in a stage that satisfies a condition. -/
def InStage (B : Binary) (P : Stage → Prop) (s : SchemaFile) : Prop :=
  ∃ stage rows, P stage ∧ stage.Fits rows ∧ s = fileAt B stage rows

lemma version_injective {stage' : Stage} {rows' : List RevisionMaterial}
    (h : fileAt B stage rows = fileAt B stage' rows') : stage = stage' := by
  have hversion : (stage.version.val : ℤ) = stage'.version.val := congrArg SchemaFile.userVersion h
  let count : SchemaFile → Option ℕ := fun s => s.migrationIntegrity.map fun t => t.entries.length
  have hintegrity : count (fileAt B stage rows) = count (fileAt B stage' rows') :=
    congrArg count h
  have hall : ∀ st : Stage, ∀ l, count (fileAt B st l) =
      if st.version < 2 then none else some st.recorded.length := by
    intro st l
    cases st <;> rfl
  rw [hall, hall] at hintegrity
  cases stage <;> cases stage' <;> simp [Stage.version, Stage.recorded] at hversion hintegrity ⊢

/-- The stages that a run goes through from one that satisfies the condition satisfy it. -/
lemma inStage_step {P : Stage → Prop} (hP : ∀ stage, P stage → ∀ stage' ∈ stage.commits, P stage')
    {s s' : SchemaFile} (h : InStage B P s) (hleaves : s' ∈ (applyAll B).leaves s) :
    InStage B P s' := by
  obtain ⟨stage, rows, hstage, hfits, rfl⟩ := h
  cases hopen : stage.isOpen with
  | true =>
    rw [Durable.leaves, applyAll_open hopen hfits, List.mem_singleton] at hleaves
    exact ⟨stage, rows, hstage, hfits, hleaves⟩
  | false =>
    rw [Durable.leaves, applyAll_closed hopen hfits] at hleaves
    rcases List.mem_cons.mp hleaves with rfl | hmem
    · exact ⟨stage, rows, hstage, hfits, rfl⟩
    · obtain ⟨stage', hstage', rfl⟩ := List.mem_map.mp hmem
      exact ⟨stage', rows, hP stage hstage stage' hstage', fits_commits hfits hstage', rfl⟩

lemma inStage_rewritten {P : Stage → Prop} {s s' : SchemaFile} (h : InStage B P s)
    (hother : Rewritten B s s') : InStage B P s' := by
  obtain ⟨stage, rows, hstage, -, rfl⟩ := h
  obtain ⟨stage', rows', rows'', heq, hfits, rfl⟩ := hother
  obtain rfl := version_injective heq
  exact ⟨stage, rows'', hstage, hfits, rfl⟩

/-- Every state in which the file can be found is in a stage. -/
lemma reached_inStage {P Q : Stage → Prop} (hstart : ∀ stage, Q stage → P stage)
    (hP : ∀ stage, P stage → ∀ stage' ∈ stage.commits, P stage') {s : SchemaFile}
    (h : Durable.Reached (applyAll B) (InStage B Q) (Rewritten B) s) : InStage B P s := by
  refine h.invariant (fun s hs => ?_) (fun _ _ hs => inStage_step hP hs)
    fun _ _ hs => inStage_rewritten hs
  obtain ⟨stage, rows, hstage, hfits, rfl⟩ := hs
  exact ⟨stage, rows, hstart stage hstage, hfits, rfl⟩

/-- A run brings the file to the newest schema, with the same revisions, and another run finds
nothing to do. -/
def Migrates (B : Binary) (s : SchemaFile) : Prop :=
  (applyAll B).result s = .ok () ∧ ((applyAll B).final s).userVersion = maxSupportedVersion ∧
    ((applyAll B).final s).fileRevision.getD [] = s.fileRevision.getD [] ∧
    applyAll B ((applyAll B).final s) = ([], .ok ())

/-- A run refuses the file and leaves it as it is. -/
def Refuses (B : Binary) (s : SchemaFile) : Prop :=
  ∃ message, applyAll B s = ([], .error (.migration message))

lemma migrates_closed (h : stage.isOpen = false) (hfits : stage.Fits rows) :
    Migrates B (fileAt B stage rows) := by
  have hfour : Stage.four.Fits rows := fits_nodup hfits
  have hfinal : (applyAll B).final (fileAt B stage rows) = fileAt B .four rows := by
    rw [Durable.final, applyAll_closed h hfits]
    exact latest_commits h
  have hresult : (applyAll B).result (fileAt B stage rows) = .ok () := by
    rw [Durable.result, applyAll_closed h hfits]
  refine ⟨hresult, ?_, ?_, ?_⟩
  · rw [hfinal]
    rfl
  · rw [hfinal]
    cases stage with
    | fresh =>
      obtain rfl : rows = [] := hfits
      rfl
    | one | openTwo | two | openThree | three | four => rfl
  · rw [hfinal, applyAll_closed rfl hfour]
    rfl

lemma refuses_open (h : stage.isOpen = true) (hfits : stage.Fits rows) :
    Refuses B (fileAt B stage rows) := ⟨_, applyAll_open h hfits⟩

lemma not_refuses {s : SchemaFile} (h : Migrates B s) : ¬ Refuses B s := by
  rintro ⟨message, heq⟩
  have hresult := h.1
  rw [Durable.result, heq] at hresult
  nomatch hresult

/-- The checksum of migration 1 is not recorded. -/
def Missing (s : SchemaFile) : Prop :=
  ∃ checksums, s.migrationIntegrity = some checksums ∧ checksums.get 1 = none

lemma missing_open (h : stage.isOpen = true) : Missing (fileAt B stage rows) := by
  cases stage with
  | openTwo => exact ⟨_, rfl, rfl⟩
  | openThree => exact ⟨_, rfl, rfl⟩
  | fresh | one | two | three | four => exact absurd h (by decide)

lemma not_missing_closed (h : stage.isOpen = false) : ¬ Missing (fileAt B stage rows) := by
  rintro ⟨checksums, heq, hget⟩
  cases stage with
  | openTwo => exact absurd h (by decide)
  | openThree => exact absurd h (by decide)
  | fresh | one => nomatch heq
  | two | three | four =>
    obtain rfl := Option.some.inj heq
    nomatch hget

/-- **An upgrade recovers.**  If the catalogue is at version 2 or later when the first run begins,
then whatever runs are interrupted, and wherever, the next run migrates it. -/
theorem upgrade_recovers {s : SchemaFile} (h : Durable.Reached (applyAll B)
    (InStage B fun stage => 2 ≤ stage.version.val ∧ stage.isOpen = false) (Rewritten B) s) :
    Migrates B s := by
  have hP : ∀ stage : Stage, 2 ≤ stage.version.val ∧ stage.isOpen = false →
      ∀ stage' ∈ stage.commits, 2 ≤ stage'.version.val ∧ stage'.isOpen = false := by
    intro stage
    cases stage <;> decide
  obtain ⟨stage, rows, ⟨-, hclosed⟩, hfits, rfl⟩ := reached_inStage (fun _ hs => hs) hP h
  exact migrates_closed hclosed hfits

/-- **Interrupted installations.**  Whatever runs are interrupted, on a new file or on that of any
older version, the next run migrates the file or refuses it, and it refuses it exactly if
migration 2 is applied while the checksum of migration 1 is not recorded. -/
theorem migrates_or_refuses {s : SchemaFile} (h : Durable.Reached (applyAll B)
    (InStage B fun stage => stage.isOpen = false) (Rewritten B) s) :
    (Migrates B s ∨ Refuses B s) ∧
      (Refuses B s ↔ Missing s) := by
  obtain ⟨stage, rows, -, hfits, rfl⟩ :=
    reached_inStage (P := fun _ => True) (fun _ _ => trivial) (fun _ _ _ _ => trivial) h
  cases hopen : stage.isOpen with
  | true =>
    refine ⟨Or.inr (refuses_open hopen hfits), fun _ => ?_, fun _ => refuses_open hopen hfits⟩
    exact missing_open hopen
  | false =>
    have hmigrates := migrates_closed (B := B) hopen hfits
    refine ⟨Or.inl hmigrates, fun hrefuses => ?_, fun hmissing => ?_⟩
    · exact absurd hrefuses (not_refuses hmigrates)
    · exact absurd hmissing (not_missing_closed hopen)

lemma refused_of_open {s : SchemaFile} (h : Durable.Reached (applyAll B)
    (InStage B fun stage => stage.isOpen = true) (Rewritten B) s) : Refuses B s := by
  have hP : ∀ stage : Stage, stage.isOpen = true →
      ∀ stage' ∈ stage.commits, stage'.isOpen = true := by
    intro stage
    cases stage <;> decide
  obtain ⟨stage, rows, hopen, hfits, rfl⟩ := reached_inStage (fun _ hs => hs) hP h
  exact refuses_open hopen hfits

/-- **A file that is refused stays refused.**  A first run, or one on a file of version 1, can be
interrupted so that no later run, complete or interrupted, brings the file to the newest schema:
each refuses it and commits nothing. -/
theorem refused_for_ever (hearly : stage.version.val < 2) (hfits : stage.Fits rows) :
    ∃ s ∈ (applyAll B).leaves (fileAt B stage rows), Missing s ∧
      ∀ s', Durable.Reached (applyAll B) (fun s' => s' = s) (Rewritten B) s' → Refuses B s' := by
  have hclosed : stage.isOpen = false := by
    revert hearly
    cases stage <;> decide
  have hmem : Stage.openTwo ∈ stage.commits := by
    revert hearly
    cases stage <;> decide
  refine ⟨fileAt B .openTwo rows, ?_, missing_open rfl, fun s' hs' => refused_of_open ?_⟩
  · rw [Durable.leaves, applyAll_closed hclosed hfits]
    exact List.mem_cons_of_mem _ (List.mem_map_of_mem hmem)
  · refine hs'.of_start fun s heq => ?_
    exact ⟨.openTwo, rows, rfl, fits_commits hfits hmem, heq⟩

end Lemmas

/-! ## An interrupted upgrade -/

/-- A binary whose migrations are their version numbers. -/
def sampleBinary : Binary := ⟨.plain, .plain, fun version => toString version⟩

/-- The revision of a file. -/
def sampleRevision : RevisionMaterial := ⟨"file_1", "h", "SOURCE", some "rust", false, false⟩

theorem upgrade_recovers_three :
    Migrates sampleBinary (fileAt sampleBinary .three [sampleRevision]) := by
  have hfits : Stage.two.Fits [sampleRevision] := List.nodup_singleton _
  refine upgrade_recovers (.interrupted (s := fileAt sampleBinary .two [sampleRevision])
    (.start ⟨.two, [sampleRevision], by decide, hfits, rfl⟩) ?_)
  rw [Durable.leaves, applyAll_closed rfl hfits]
  exact List.mem_cons_of_mem _ List.mem_cons_self

theorem migrates_or_refuses_openTwo :
    (Migrates sampleBinary (fileAt sampleBinary .openTwo [sampleRevision]) ∨
      Refuses sampleBinary (fileAt sampleBinary .openTwo [sampleRevision])) ∧
    (Refuses sampleBinary (fileAt sampleBinary .openTwo [sampleRevision]) ↔
      Missing (fileAt sampleBinary .openTwo [sampleRevision])) := by
  have hfits : Stage.one.Fits [sampleRevision] := List.nodup_singleton _
  refine migrates_or_refuses (.interrupted (s := fileAt sampleBinary .one [sampleRevision])
    (.start ⟨.one, [sampleRevision], by decide, hfits, rfl⟩) ?_)
  rw [Durable.leaves, applyAll_closed rfl hfits]
  exact List.mem_cons_of_mem _ List.mem_cons_self

theorem refused_for_ever_first :
    ∃ s ∈ (applyAll sampleBinary).leaves (fileAt sampleBinary .fresh []), Missing s ∧
      ∀ s', Durable.Reached (applyAll sampleBinary) (fun s' => s' = s) (Rewritten sampleBinary) s' →
        Refuses sampleBinary s' :=
  refused_for_ever (by decide) rfl

end Migrations

end WorkspaceAtlas
