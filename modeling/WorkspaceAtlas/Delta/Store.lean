/-
# What is persisted

The rows of `generation_delta` are written by `persist_generation_delta` alone.  So a row has the
id of its generations and a hash, and no item is left without its row: a delta can be persisted if
and only if none is stored under its id with another hash.
-/
import WorkspaceAtlas.Delta.Live
import WorkspaceAtlas.Transition.Loop

namespace WorkspaceAtlas

open Relational Transition

namespace Delta

/-- The stores that `persist_generation_delta` makes. -/
inductive Persisted (H : Hasher) : DeltaStore → Prop
  | nothing : Persisted H ⟨.empty, .empty⟩
  | persist {store store' : DeltaStore} {d : GenerationDelta} (h : Persisted H store)
      (hok : persistGenerationDelta H store d = .ok store') : Persisted H store'

/-- What is known of the rows of such a store. -/
structure StoreLaw (H : Hasher) (store : DeltaStore) : Prop where
  id_eq : ∀ row ∈ store.generationDelta, row.deltaId = deltaId H row.workspaceId
    row.fromGenerationId row.toGenerationId row.deltaPolicyVersion
  hashed : ∀ row ∈ store.generationDelta, row.deltaHash ≠ none
  owned : ∀ item ∈ store.generationDeltaItem, ∃ row ∈ store.generationDelta,
    row.deltaId = item.deltaId

section Lemmas

variable {H : Hasher} {store store' : DeltaStore} {d : GenerationDelta} {t t' : Table DeltaItem}
  {items : List DeltaItem}

/-! ## Items -/

lemma mem_foldlM_insertItem (h : items.foldlM insertItem t = .ok t') {x : DeltaItem} :
    x ∈ t' ↔ x ∈ t ∨ x ∈ items := by
  induction items generalizing t with
  | nil =>
    obtain rfl : t = t' := Except.ok.inj h
    simp
  | cons item items ih =>
    obtain ⟨u, hu, hrest⟩ := foldlM_cons_ok.mp h
    rw [insertItem] at hu
    split at hu
    next inserted hinsert =>
      obtain rfl := Except.ok.inj hu
      rw [ih hrest, Table.mem_of_insert? hinsert, List.mem_cons, or_assoc]
    next => exact absurd hu (by simp)

/-- Items that clash with nothing can all be stored. -/
lemma exists_foldlM_insertItem (hfree : ∀ x ∈ t, ∀ item ∈ items, ¬ Clash x item)
    (hitems : items.Pairwise fun a b => ¬ Clash a b) :
    ∃ t', items.foldlM insertItem t = .ok t' := by
  induction items generalizing t with
  | nil => exact ⟨t, rfl⟩
  | cons item items ih =>
    obtain ⟨hhead, htail⟩ := List.pairwise_cons.mp hitems
    obtain ⟨u, hu⟩ := Table.exists_insert? fun x hx => hfree x hx item List.mem_cons_self
    obtain ⟨t', ht'⟩ := ih (t := u) (fun x hx y hy => by
      rcases (Table.mem_of_insert? hu).mp hx with hx | rfl
      · exact hfree x hx y (List.mem_cons_of_mem _ hy)
      · exact hhead y hy) htail
    refine ⟨t', foldlM_cons_ok.mpr ⟨u, ?_, ht'⟩⟩
    rw [insertItem, hu]

/-- The items of a delta are numbered. -/
lemma deltaItems_numbered (d : GenerationDelta) : ∃ numbered : List (ℕ → DeltaItem),
    deltaItems d = numbered.zipIdx.map (fun (item, ordinal) => item ordinal) ∧
      ∀ item ∈ numbered, ∀ n, (item n).deltaId = d.deltaId ∧ (item n).ordinal = n := by
  refine ⟨_, rfl, fun item hitem n => ?_⟩
  rcases List.mem_append.mp hitem with hitem | hitem
  · rcases List.mem_append.mp hitem with hitem | hitem
    · obtain ⟨⟨category, changes⟩, -, hitem⟩ := List.mem_flatMap.mp hitem
      obtain ⟨c, -, rfl⟩ := List.mem_map.mp hitem
      exact ⟨rfl, rfl⟩
    · obtain ⟨u, -, rfl⟩ := List.mem_map.mp hitem
      exact ⟨rfl, rfl⟩
  · obtain ⟨note, -, rfl⟩ := List.mem_map.mp hitem
    exact ⟨rfl, rfl⟩

lemma deltaId_of_mem_deltaItems {item : DeltaItem} (h : item ∈ deltaItems d) :
    item.deltaId = d.deltaId := by
  obtain ⟨numbered, heq, hnumbered⟩ := deltaItems_numbered d
  rw [heq] at h
  obtain ⟨⟨f, n⟩, hf, rfl⟩ := List.mem_map.mp h
  exact (hnumbered f (List.fst_mem_of_mem_zipIdx hf) n).1

lemma pairwise_deltaItems (d : GenerationDelta) :
    (deltaItems d).Pairwise fun a b => ¬ Clash a b := by
  obtain ⟨numbered, heq, hnumbered⟩ := deltaItems_numbered d
  rw [heq, List.pairwise_map]
  have hordinals : (numbered.zipIdx.map Prod.snd).Pairwise (· ≠ ·) := by
    rw [List.zipIdx_map_snd]
    exact List.nodup_range'
  refine (List.pairwise_map.mp hordinals).imp_of_mem fun {x y} hx hy hne hclash => hne ?_
  -- two items clash if they have the same number
  have hx' := (hnumbered x.1 (List.fst_mem_of_mem_zipIdx hx) x.2).2
  have hy' := (hnumbered y.1 (List.fst_mem_of_mem_zipIdx hy) y.2).2
  exact hx'.symm.trans ((Prod.mk.inj hclash).2.trans hy')

/-! ## Rows -/

lemma deltaId_of_validate (h : validateGenerationDelta H d = .ok ()) : d.deltaId =
    deltaId H d.workspaceId d.fromGenerationId d.toGenerationId d.deltaPolicyVersion := by
  rw [validateGenerationDelta] at h
  split at h
  next => exact absurd h (by simp)
  next hvalid =>
    push Not at hvalid
    exact hvalid.2

/-- What a store is after a delta is persisted. -/
lemma persist_cases (h : persistGenerationDelta H store d = .ok store') :
    validateGenerationDelta H d = .ok () ∧ (store' = store ∨
      ∃ rows items, store.generationDelta.insert? d.row = some rows ∧
        (deltaItems d).foldlM insertItem store.generationDeltaItem = .ok items ∧
          store' = ⟨rows, items⟩) := by
  rw [persistGenerationDelta] at h
  obtain ⟨⟨⟩, hvalid, h⟩ := bind_ok.mp h
  refine ⟨hvalid, ?_⟩
  split at h
  next =>
    split at h
    next => exact Or.inl (Except.ok.inj h).symm
    next => exact absurd h (by simp)
  next =>
    split at h
    next => exact absurd h (by simp)
    next rows hinsert =>
      obtain ⟨items, hitems, h⟩ := bind_ok.mp h
      exact Or.inr ⟨rows, items, hinsert, hitems, (Except.ok.inj h).symm⟩

lemma StoreLaw.persist (hlaw : StoreLaw H store)
    (h : persistGenerationDelta H store d = .ok store') : StoreLaw H store' := by
  obtain ⟨hvalid, rfl | ⟨rows, items, hinsert, hitems, rfl⟩⟩ := persist_cases h
  · exact hlaw
  constructor
  · intro row hrow
    rcases (Table.mem_of_insert? hinsert).mp hrow with hrow | rfl
    · exact hlaw.id_eq row hrow
    · exact deltaId_of_validate hvalid
  · intro row hrow
    rcases (Table.mem_of_insert? hinsert).mp hrow with hrow | rfl
    · exact hlaw.hashed row hrow
    · exact Option.some_ne_none _
  · intro item hitem
    rcases (mem_foldlM_insertItem hitems).mp hitem with hitem | hitem
    · obtain ⟨row, hrow, hid⟩ := hlaw.owned item hitem
      exact ⟨row, (Table.mem_of_insert? hinsert).mpr (Or.inl hrow), hid⟩
    · exact ⟨d.row, (Table.mem_of_insert? hinsert).mpr (Or.inr rfl),
        (deltaId_of_mem_deltaItems hitem).symm⟩

lemma Persisted.law (h : Persisted H store) : StoreLaw H store := by
  induction h with
  | nothing =>
    exact ⟨fun _ h => absurd h Table.not_mem_empty, fun _ h => absurd h Table.not_mem_empty,
      fun _ h => absurd h Table.not_mem_empty⟩
  | persist _ hok ih => exact ih.persist hok

/-- **A delta can be persisted** exactly if no other one is stored under its id. -/
theorem exists_persist_iff (hlaw : StoreLaw H store) (hvalid : validateGenerationDelta H d = .ok ()) :
    (∃ store', persistGenerationDelta H store d = .ok store') ↔
      ∀ row ∈ store.generationDelta, row.deltaId = d.deltaId → row.deltaHash = some d.deltaHash := by
  have hvalidated : (Except.ok () : Except AtlasError Unit) = pure () := rfl
  rw [persistGenerationDelta, hvalid, hvalidated, pure_bind]
  cases hfind : store.generationDelta.find? fun r => r.deltaId = d.deltaId with
  | some row =>
    have hrow := Table.mem_of_find? hfind
    have hid : row.deltaId = d.deltaId := by simpa using Table.find?_some hfind
    obtain ⟨hash, hhash⟩ := Option.ne_none_iff_exists'.mp (hlaw.hashed row hrow)
    rw [Option.bind_some, hhash]
    constructor
    · rintro ⟨store', h⟩ row' hrow' hid'
      obtain rfl : row' = row := Table.eq_of_clash hrow' hrow (Or.inl (hid'.trans hid.symm))
      dsimp only at h
      split at h
      next heq => rw [hhash, heq]
      next => exact absurd h (by simp)
    · intro h
      exact ⟨store, if_pos (Option.some.inj (hhash.symm.trans (h row hrow hid)))⟩
  | none =>
    have hnone : ∀ row ∈ store.generationDelta, row.deltaId ≠ d.deltaId := fun row hrow =>
      by simpa using Table.find?_eq_none.mp hfind row hrow
    refine iff_of_true ?_ fun row hrow hid => absurd hid (hnone row hrow)
    have hnew : ∀ row ∈ store.generationDelta, ¬ Clash row d.row := by
      rintro row hrow (hid | hidentity)
      · exact hnone row hrow hid
      · -- a delta of the same generations has the same id
        simp only [DeltaRow.identity, GenerationDelta.row, Prod.mk.injEq] at hidentity
        obtain ⟨hws, hfrom, hto, hpolicy⟩ := hidentity
        refine hnone row hrow ?_
        rw [hlaw.id_eq row hrow, hws, hfrom, hto, hpolicy, deltaId_of_validate hvalid]
    obtain ⟨rows, hrows⟩ := Table.exists_insert? hnew
    have hfree : ∀ x ∈ store.generationDeltaItem, ∀ item ∈ deltaItems d, ¬ Clash x item := by
      intro x hx item hitem hclash
      obtain ⟨row, hrow, hid⟩ := hlaw.owned x hx
      exact hnone row hrow (hid.trans ((Prod.mk.inj hclash).1.trans
        (deltaId_of_mem_deltaItems hitem)))
    obtain ⟨items, hitems⟩ := exists_foldlM_insertItem hfree (pairwise_deltaItems d)
    refine ⟨⟨rows, items⟩, ?_⟩
    rw [Option.bind_none, hrows]
    dsimp only
    rw [hitems]
    rfl

end Lemmas

end Delta

end WorkspaceAtlas
