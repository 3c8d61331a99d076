/-
# Sorted maps

A finite map kept as the list of its entries in the order of their keys, as `BTreeMap` is read.
The order is a field, so that a key occurs once.
-/
import Mathlib.Algebra.Order.Ring.Nat
import Mathlib.Order.Basic
import Mathlib.Data.List.Nodup
import Mathlib.Data.List.Pairwise
import Mathlib.Data.List.Dedup
import Mathlib.Data.List.Sort
import Mathlib.Algebra.BigOperators.Group.List.Lemmas

namespace Relational

variable {κ ν : Type*} [LinearOrder κ]

/-- The entries of a map in the order of their keys. -/
@[ext] structure SortedMap (κ ν : Type*) [LinearOrder κ] where
  entries : List (κ × ν)
  sorted : (entries.map Prod.fst).Pairwise (· < ·)

namespace SortedMap

instance [DecidableEq ν] : DecidableEq (SortedMap κ ν) := fun m m' =>
  decidable_of_iff (m.entries = m'.entries) SortedMap.ext_iff.symm

variable {m : SortedMap κ ν} {k : κ} {v w : ν}

/-- `keys`. -/
def keys (m : SortedMap κ ν) : List κ := m.entries.map Prod.fst

/-- `values`. -/
def values (m : SortedMap κ ν) : List ν := m.entries.map Prod.snd

/-- `len`. -/
def len (m : SortedMap κ ν) : ℕ := m.entries.length

/-- `get`. -/
def get (m : SortedMap κ ν) (k : κ) : Option ν :=
  (m.entries.find? fun entry => entry.1 = k).map Prod.snd

/-- `contains_key`. -/
def containsKey (m : SortedMap κ ν) (k : κ) : Prop := (m.get k).isSome

instance : Decidable (m.containsKey k) := inferInstanceAs (Decidable ((m.get k).isSome = true))

lemma nodup_keys (m : SortedMap κ ν) : m.keys.Nodup := m.sorted.imp ne_of_lt

lemma eq_of_mem (hv : (k, v) ∈ m.entries) (hw : (k, w) ∈ m.entries) : v = w :=
  congrArg Prod.snd (List.inj_on_of_nodup_map m.nodup_keys hv hw rfl)

lemma get_eq_some_iff : m.get k = some v ↔ (k, v) ∈ m.entries := by
  constructor
  · intro h
    obtain ⟨⟨k', v'⟩, hfind, rfl⟩ := Option.map_eq_some_iff.mp h
    obtain rfl : k' = k := by simpa using List.find?_some hfind
    exact List.mem_of_find?_eq_some hfind
  · intro h
    cases hfind : m.entries.find? fun entry => entry.1 = k with
    | none =>
      have := List.find?_eq_none.mp hfind (k, v) h
      simp at this
    | some entry =>
      obtain rfl : entry.1 = k := by simpa using List.find?_some hfind
      rw [get, hfind, Option.map_some, eq_of_mem h (List.mem_of_find?_eq_some hfind)]

lemma containsKey_iff : m.containsKey k ↔ ∃ v, (k, v) ∈ m.entries := by
  simp only [containsKey, Option.isSome_iff_exists, get_eq_some_iff]

lemma mem_values : v ∈ m.values ↔ ∃ k, m.get k = some v := by
  simp only [values, List.mem_map, Prod.exists, get_eq_some_iff]
  constructor
  · rintro ⟨k, w, hw, rfl⟩
    exact ⟨k, hw⟩
  · rintro ⟨k, hv⟩
    exact ⟨k, v, hv, rfl⟩

/-- The keys of the entries that meet a condition, in their order. -/
lemma pairwise_filterMap {p : κ × ν → Bool} :
    ((m.entries.filter p).map Prod.fst).Pairwise (· < ·) :=
  m.sorted.sublist (List.filter_sublist.map Prod.fst)

/-! ## Maps from rows -/

section Rows

variable {ρ : Type*} {f : κ → Option ν} {ks : List κ}

/-- Some keys in order, each once. -/
def sortedKeys (ks : List κ) : List κ := ks.dedup.insertionSort (· ≤ ·)

lemma mem_sortedKeys : k ∈ sortedKeys ks ↔ k ∈ ks := by
  rw [sortedKeys, List.mem_insertionSort, List.mem_dedup]

lemma pairwise_sortedKeys (ks : List κ) : (sortedKeys ks).Pairwise (· < ·) := by
  have hle : (sortedKeys ks).Pairwise (· ≤ ·) := List.pairwise_insertionSort _ _
  have hne : (sortedKeys ks).Nodup :=
    (List.perm_insertionSort _ _).nodup_iff.mpr (List.nodup_dedup ks)
  exact hle.imp₂ (fun _ _ hab hne => lt_of_le_of_ne hab hne) hne

/-- The sorted keys depend on the set of the keys only. -/
lemma sortedKeys_eq_iff {ks' : List κ} :
    sortedKeys ks = sortedKeys ks' ↔ ∀ k, k ∈ ks ↔ k ∈ ks' := by
  constructor
  · intro h k
    rw [← mem_sortedKeys, h, mem_sortedKeys]
  · intro h
    have hperm : List.Perm (sortedKeys ks) (sortedKeys ks') := by
      refine (List.perm_ext_iff_of_nodup ((pairwise_sortedKeys ks).imp ne_of_lt)
        ((pairwise_sortedKeys ks').imp ne_of_lt)).mpr fun k => ?_
      rw [mem_sortedKeys, mem_sortedKeys, h k]
    refine List.Perm.eq_of_pairwise (fun a b _ _ hab hba => ?_) (pairwise_sortedKeys ks)
      (pairwise_sortedKeys ks') hperm
    exact absurd (hab.trans hba) (lt_irrefl a)

/-- The map with a function's values at some keys. -/
def tabulate (ks : List κ) (f : κ → Option ν) : SortedMap κ ν where
  entries := (sortedKeys ks).filterMap fun k => (f k).map (k, ·)
  sorted := by
    have hsublist : ∀ l : List κ,
        ((l.filterMap fun k => (f k).map (k, ·)).map Prod.fst).Sublist l := by
      intro l
      induction l with
      | nil => exact List.Sublist.refl _
      | cons k l ih =>
        rw [List.filterMap_cons]
        cases f k with
        | none => exact ih.cons k
        | some v => exact ih.cons_cons k
    exact (pairwise_sortedKeys ks).sublist (hsublist _)

lemma mem_tabulate : (k, v) ∈ (tabulate ks f).entries ↔ k ∈ ks ∧ f k = some v := by
  simp only [tabulate, List.mem_filterMap, mem_sortedKeys, Option.map_eq_some_iff, Prod.mk.injEq]
  constructor
  · rintro ⟨k', hk', v', hv', rfl, rfl⟩
    exact ⟨hk', hv'⟩
  · rintro ⟨hk, hv⟩
    exact ⟨k, hk, v, hv, rfl, rfl⟩

lemma get_tabulate_eq_some_iff : (tabulate ks f).get k = some v ↔ k ∈ ks ∧ f k = some v := by
  rw [get_eq_some_iff, mem_tabulate]

/-- `insert` of every row under its key: the last row of a key stays. -/
def collect (key : ρ → κ) (rows : List ρ) : SortedMap κ ρ :=
  tabulate (rows.map key) fun k => (rows.filter fun r => key r = k).getLast?

/-- A key has the last one of its rows. -/
lemma get_collect {key : ρ → κ} {rows : List ρ} :
    (collect key rows).get k = (rows.filter fun r => key r = k).getLast? := by
  refine Option.ext fun r => ?_
  rw [collect, get_tabulate_eq_some_iff, and_iff_right_iff_imp]
  intro h
  have hr := List.mem_of_getLast? h
  rw [List.mem_filter, decide_eq_true_eq] at hr
  exact List.mem_map.mpr ⟨r, hr.1, hr.2⟩

/-- Where no two rows have the same key, every row is found. -/
lemma get_collect_eq_some_iff {key : ρ → κ} {rows : List ρ} {r : ρ}
    (hinj : ∀ a ∈ rows, ∀ b ∈ rows, key a = key b → a = b) :
    (collect key rows).get k = some r ↔ r ∈ rows ∧ key r = k := by
  rw [get_collect]
  constructor
  · intro h
    simpa using List.mem_of_getLast? h
  · rintro ⟨hr, rfl⟩
    have hne : (rows.filter fun r' => key r' = key r) ≠ [] :=
      List.ne_nil_of_mem (List.mem_filter.mpr ⟨hr, decide_eq_true rfl⟩)
    have hlast := List.getLast_mem hne
    rw [List.mem_filter, decide_eq_true_eq] at hlast
    rw [List.getLast?_eq_some_getLast hne, hinj _ hlast.1 r hr hlast.2]

/-- `entry(key).or_default().push(value)` of every row. -/
def group (rows : List (κ × ν)) : SortedMap κ (List ν) :=
  tabulate (rows.map Prod.fst) fun k => some ((rows.filter fun r => r.1 = k).map Prod.snd)

/-- `values_mut`: every value is replaced. -/
def mapValues {ν' : Type*} (g : ν → ν') (m : SortedMap κ ν) : SortedMap κ ν' where
  entries := m.entries.map fun entry => (entry.1, g entry.2)
  sorted := by
    have hsorted := m.sorted
    rwa [List.map_map]

lemma mem_group {rows : List (κ × ν)} {vs : List ν} : (k, vs) ∈ (group rows).entries ↔
    (∃ v, (k, v) ∈ rows) ∧ vs = (rows.filter fun r => r.1 = k).map Prod.snd := by
  rw [group, mem_tabulate, List.mem_map, Option.some.injEq, eq_comm (a := vs)]
  refine and_congr_left fun _ => ?_
  constructor
  · rintro ⟨r, hr, rfl⟩
    exact ⟨r.2, hr⟩
  · rintro ⟨v, hv⟩
    exact ⟨(k, v), hv, rfl⟩

lemma mem_mapValues {ν' : Type*} {g : ν → ν'} {w : ν'} :
    (k, w) ∈ (mapValues g m).entries ↔ ∃ v, (k, v) ∈ m.entries ∧ g v = w := by
  simp only [mapValues, List.mem_map, Prod.mk.injEq, Prod.exists]
  constructor
  · rintro ⟨k', v, hv, rfl, rfl⟩
    exact ⟨v, hv, rfl⟩
  · rintro ⟨v, hv, rfl⟩
    exact ⟨k, v, hv, rfl, rfl⟩

/-- `*entry(key).or_insert(default) = f(..)`: the value of a key is replaced. -/
def entryOr (m : SortedMap κ ν) (k : κ) (default : ν) (f : ν → ν) : SortedMap κ ν :=
  tabulate (k :: m.keys) fun k' => if k' = k then some (f ((m.get k).getD default)) else m.get k'

lemma get_entryOr {k' : κ} {default : ν} {f : ν → ν} : (m.entryOr k default f).get k' =
    if k' = k then some (f ((m.get k).getD default)) else m.get k' := by
  ext v
  rw [entryOr, get_tabulate_eq_some_iff, and_iff_right_iff_imp]
  intro h
  by_cases hk : k' = k
  · rw [hk]
    exact List.mem_cons_self
  · rw [if_neg hk, get_eq_some_iff] at h
    exact List.mem_cons_of_mem _ (List.mem_map.mpr ⟨_, h, rfl⟩)

/-- `insert`. -/
def insert (m : SortedMap κ ν) (k : κ) (v : ν) : SortedMap κ ν := m.entryOr k v fun _ => v

lemma get_insert {k' : κ} :
    (m.insert k v).get k' = if k' = k then some v else m.get k' := get_entryOr

/-- Maps with the same values are the same. -/
lemma ext_get {m' : SortedMap κ ν} (h : ∀ k, m.get k = m'.get k) : m = m' := by
  have hlt : ∀ m : SortedMap κ ν, m.entries.Pairwise fun a b => a.1 < b.1 := fun m =>
    List.pairwise_map.mp m.sorted
  ext1
  refine List.Perm.eq_of_pairwise (fun a b _ _ hab hba => (lt_asymm hab hba).elim) (hlt m) (hlt m')
    ((List.perm_ext_iff_of_nodup ((hlt m).imp fun hab => ?_) ((hlt m').imp fun hab => ?_)).mpr ?_)
  · exact fun heq => (congrArg Prod.fst heq).not_lt hab
  · exact fun heq => (congrArg Prod.fst heq).not_lt hab
  · rintro ⟨k, v⟩
    rw [← get_eq_some_iff, h, get_eq_some_iff]

/-- No entries. -/
def empty : SortedMap κ ν := ⟨[], List.Pairwise.nil⟩

@[simp] lemma get_empty : (empty : SortedMap κ ν).get k = none := rfl

/-! ## Tallies -/

/-- How often each key occurs. -/
def tally (ks : List κ) : SortedMap κ ℕ := tabulate ks fun k => some (ks.count k)

lemma get_tally {ks : List κ} :
    (tally ks).get k = if k ∈ ks then some (ks.count k) else none := by
  ext n
  rw [tally, get_tabulate_eq_some_iff, Option.some.injEq]
  by_cases hk : k ∈ ks <;> simp [hk]

lemma getD_tally {ks : List κ} : ((tally ks).get k).getD 0 = ks.count k := by
  rw [get_tally]
  by_cases hk : k ∈ ks
  · rw [if_pos hk, Option.getD_some]
  · rw [if_neg hk, Option.getD_none, List.count_eq_zero_of_not_mem hk]

@[simp] lemma tally_nil : tally ([] : List κ) = empty := ext_get fun k => by simp [get_tally]

lemma getD_tally_le (ks : List κ) (k : κ) : ((tally ks).get k).getD 0 ≤ ks.length :=
  getD_tally.trans_le List.count_le_length

/-- One more occurrence of a key. -/
lemma insert_tally {ks : List κ} :
    (tally ks).insert k (((tally ks).get k).getD 0 + 1) = tally (ks ++ [k]) := by
  refine ext_get fun k' => ?_
  rw [getD_tally, get_insert, get_tally, get_tally]
  by_cases hk : k' = k
  · simp [hk]
  · simp [hk, Ne.symm hk]

/-- The numbers of a tally sum to the number of the occurrences. -/
lemma sum_values_tally (ks : List κ) : (tally ks).values.sum = ks.length := by
  have hvalues : (tally ks).values = (sortedKeys ks).map fun k => ks.count k := by
    rw [values, tally, tabulate]
    simp [Function.comp_def]
  have hperm : List.Perm (sortedKeys ks) ks.dedup := List.perm_insertionSort _ _
  rw [hvalues, (hperm.map fun k => ks.count k).sum_eq, List.sum_map_count_dedup_eq_length]

/-- The keys of two maps. -/
def keyUnion (m : SortedMap κ ν) (m' : SortedMap κ ν) : List κ := sortedKeys (m.keys ++ m'.keys)

end Rows

end SortedMap

end Relational
