/-
# Tables with uniqueness constraints

A table of a relational store is a list of rows, in the order in which they were inserted,
no two of which violate a uniqueness constraint (a primary key or a unique index).  The
constraints of a row type are given by one relation `Clash`; the operations of the store
(`INSERT`, `INSERT OR IGNORE`, `UPDATE`, `DELETE` and `INSERT .. ON CONFLICT DO UPDATE`)
keep it empty on the rows of a table, so that a table with two clashing rows cannot be built.
-/
import Mathlib.Data.List.Pairwise
import Mathlib.Data.List.Basic
import Mathlib.Data.List.MinMax
import Mathlib.Tactic.Common

namespace Relational

universe u

/-- The uniqueness constraints of a row type: `Clash a b` says that `a` and `b` agree on
some set of columns that has to be unique. -/
class Keyed (ρ : Type u) where
  /-- The two rows cannot stand in one table. -/
  Clash : ρ → ρ → Prop
  /-- The constraints can be checked. -/
  decideClash : DecidableRel Clash
  /-- A row agrees with itself. -/
  clash_refl : ∀ a, Clash a a
  /-- Agreement is symmetric. -/
  clash_symm : ∀ {a b}, Clash a b → Clash b a

export Keyed (Clash clash_refl clash_symm)

instance {ρ : Type u} [Keyed ρ] : DecidableRel (@Clash ρ _) := Keyed.decideClash

/-- The constraints of a table whose only unique column (or tuple of columns) is `key`. -/
@[reducible] def Keyed.ofKey {ρ κ : Type*} [DecidableEq κ] (key : ρ → κ) : Keyed ρ where
  Clash a b := key a = key b
  decideClash _ _ := inferInstance
  clash_refl _ := rfl
  clash_symm h := h.symm

/-- A table: its rows in insertion order, no two of which clash. -/
@[ext] structure Table (ρ : Type u) [Keyed ρ] where
  /-- The rows, the oldest first. -/
  rows : List ρ
  /-- The uniqueness constraints hold. -/
  unique : rows.Pairwise fun a b => ¬ Clash a b

namespace Table

variable {ρ : Type u} [Keyed ρ] {t t' : Table ρ} {a b r x : ρ} {p : ρ → Bool}

instance [DecidableEq ρ] : DecidableEq (Table ρ) := fun s t =>
  decidable_of_iff (s.rows = t.rows) Table.ext_iff.symm

instance : Membership ρ (Table ρ) := ⟨fun t r => r ∈ t.rows⟩

lemma mem_def : r ∈ t ↔ r ∈ t.rows := Iff.rfl

instance [DecidableEq ρ] : Decidable (r ∈ t) := inferInstanceAs (Decidable (r ∈ t.rows))

/-- A table without rows. -/
def empty : Table ρ := ⟨[], List.Pairwise.nil⟩

instance : Inhabited (Table ρ) := ⟨empty⟩

@[simp] lemma rows_empty : (empty : Table ρ).rows = [] := rfl

@[simp] lemma not_mem_empty : r ∉ (empty : Table ρ) := by simp [mem_def]

/-- Rows that clash are one row. -/
lemma eq_of_clash (ha : a ∈ t) (hb : b ∈ t) (h : Clash a b) : a = b := by
  by_contra hne
  rw [mem_def] at ha hb
  obtain ⟨i, hi, rfl⟩ := List.getElem_of_mem ha
  obtain ⟨j, hj, rfl⟩ := List.getElem_of_mem hb
  have hpair := List.pairwise_iff_getElem.mp t.unique
  rcases Nat.lt_trichotomy i j with hij | rfl | hij
  · exact hpair i j hi hj hij h
  · exact hne rfl
  · exact hpair j i hj hi hij (clash_symm h)

lemma nodup_rows : t.rows.Nodup := by
  refine t.unique.imp fun {a b} h => ?_
  rintro rfl
  exact h (clash_refl a)

/-- A table that has no row but `a`. -/
lemma rows_eq_singleton (ha : a ∈ t) (h : ∀ x ∈ t, x = a) : t.rows = [a] := by
  refine List.perm_singleton.mp ((List.perm_ext_iff_of_nodup t.nodup_rows (by simp)).mpr ?_)
  intro x
  rw [List.mem_singleton]
  constructor
  · exact h x
  · rintro rfl
    exact ha

/-! ## Queries -/

/-- The first row that meets `p`, in insertion order. -/
def find? (t : Table ρ) (p : ρ → Bool) : Option ρ := t.rows.find? p

lemma mem_of_find? (h : t.find? p = some r) : r ∈ t := List.mem_of_find?_eq_some h

lemma find?_some (h : t.find? p = some r) : p r = true := List.find?_some h

lemma find?_eq_none : t.find? p = none ↔ ∀ x ∈ t, p x = false := by
  simp [find?, List.find?_eq_none, mem_def]

/-- A query whose condition only rows that clash can share finds every row that meets it. -/
lemma find?_eq_some_iff (hp : ∀ x ∈ t, ∀ y ∈ t, p x = true → p y = true → Clash x y) :
    t.find? p = some r ↔ r ∈ t ∧ p r = true := by
  constructor
  · exact fun h => ⟨mem_of_find? h, find?_some h⟩
  · rintro ⟨hr, hpr⟩
    cases h : t.find? p with
    | none => exact absurd hpr (by simp [find?_eq_none.mp h r hr])
    | some x =>
      have hx := mem_of_find? h
      rw [eq_of_clash hx hr (hp x hx r hr (find?_some h) hpr)]

/-- `SELECT .. WHERE p ORDER BY key DESC LIMIT 1`. -/
def greatest? (t : Table ρ) (p : ρ → Bool) (key : ρ → ℕ) : Option ρ :=
  (t.rows.filter p).argmax key

lemma greatest?_eq_none {key : ρ → ℕ} : t.greatest? p key = none ↔ ∀ x ∈ t, p x = false := by
  simp [greatest?, List.argmax_eq_none, List.filter_eq_nil_iff, mem_def]

lemma mem_of_greatest? {key : ρ → ℕ} (h : t.greatest? p key = some r) : r ∈ t ∧ p r = true :=
  List.mem_filter.mp (List.argmax_mem h)

lemma le_of_greatest? {key : ρ → ℕ} (h : t.greatest? p key = some r) (hx : x ∈ t)
    (hp : p x = true) : key x ≤ key r :=
  List.le_of_mem_argmax (List.mem_filter.mpr ⟨hx, hp⟩) h

/-- Where no two candidates have the same key, the greatest one is determined. -/
lemma greatest?_eq_some_iff {key : ρ → ℕ}
    (hinj : ∀ x ∈ t, ∀ y ∈ t, p x = true → p y = true → key x = key y → x = y) :
    t.greatest? p key = some r ↔
      r ∈ t ∧ p r = true ∧ ∀ x ∈ t, p x = true → key x ≤ key r := by
  constructor
  · intro h
    obtain ⟨hr, hp⟩ := mem_of_greatest? h
    exact ⟨hr, hp, fun x hx hpx => le_of_greatest? h hx hpx⟩
  · rintro ⟨hr, hp, hle⟩
    cases h : t.greatest? p key with
    | none => exact absurd hp (by simp [greatest?_eq_none.mp h r hr])
    | some x =>
      obtain ⟨hx, hpx⟩ := mem_of_greatest? h
      have hkey : key x = key r := Nat.le_antisymm (hle x hx hpx) (le_of_greatest? h hr hp)
      rw [hinj x hx r hr hpx hp hkey]

/-! ## Insertion -/

/-- `INSERT`: refused when the row clashes with one that is there. -/
def insert? (t : Table ρ) (r : ρ) : Option (Table ρ) :=
  if h : ∀ x ∈ t.rows, ¬ Clash x r then
    some ⟨t.rows ++ [r], List.pairwise_append.mpr ⟨t.unique, List.pairwise_singleton _ _, by
      simpa using h⟩⟩
  else none

lemma insert?_eq_none : t.insert? r = none ↔ ∃ x ∈ t, Clash x r := by
  unfold insert?
  split
  next h => simpa [mem_def] using h
  next h =>
    push Not at h
    simpa [mem_def] using h

lemma rows_of_insert? (h : t.insert? r = some t') : t'.rows = t.rows ++ [r] := by
  unfold insert? at h
  split at h
  · obtain rfl := Option.some.inj h
    rfl
  · exact absurd h (by simp)

lemma not_clash_of_insert? (h : t.insert? r = some t') : ∀ x ∈ t, ¬ Clash x r := by
  intro x hx hc
  rw [insert?_eq_none.mpr ⟨x, hx, hc⟩] at h
  exact absurd h (by simp)

lemma mem_of_insert? (h : t.insert? r = some t') : x ∈ t' ↔ x ∈ t ∨ x = r := by
  simp [mem_def, rows_of_insert? h]

lemma exists_insert? (h : ∀ x ∈ t, ¬ Clash x r) : ∃ t', t.insert? r = some t' := by
  rw [← Option.ne_none_iff_exists']
  intro hnone
  obtain ⟨x, hx, hc⟩ := insert?_eq_none.mp hnone
  exact h x hx hc

/-- The insertion succeeds with the table that has the row at its end, if there is one. -/
lemma insert?_eq_some_iff : t.insert? r = some t' ↔ t'.rows = t.rows ++ [r] := by
  refine ⟨rows_of_insert?, fun h => ?_⟩
  have hfree : ∀ x ∈ t, ¬ Clash x r := by
    intro x hx
    have hpair := t'.unique
    rw [h] at hpair
    exact (List.pairwise_append.mp hpair).2.2 x hx r (by simp)
  obtain ⟨t'', hins⟩ := exists_insert? hfree
  rw [hins]
  congr 1
  ext1
  rw [rows_of_insert? hins, h]

/-- Rows that clash neither with each other nor with those of the table can be added. -/
lemma exists_append {l : List ρ} (hl : l.Pairwise fun a b => ¬ Clash a b)
    (hfree : ∀ x ∈ t, ∀ y ∈ l, ¬ Clash x y) : ∃ t' : Table ρ, t'.rows = t.rows ++ l :=
  ⟨⟨t.rows ++ l, List.pairwise_append.mpr ⟨t.unique, hl, hfree⟩⟩, rfl⟩

/-- Rows at the end of a table clash neither with each other nor with those before them. -/
lemma free_of_append {l : List ρ} (h : t'.rows = t.rows ++ l) :
    l.Pairwise (fun a b => ¬ Clash a b) ∧ ∀ x ∈ t, ∀ y ∈ l, ¬ Clash x y := by
  have hpair := t'.unique
  rw [h] at hpair
  exact ⟨(List.pairwise_append.mp hpair).2.1, (List.pairwise_append.mp hpair).2.2⟩

lemma find?_of_insert? (h : t.insert? r = some t') :
    t'.find? p = (t.find? p).or (if p r = true then some r else none) := by
  unfold find?
  rw [rows_of_insert? h, List.find?_append, List.find?_singleton]

/-- `INSERT OR IGNORE`: a row that clashes with one that is there is dropped. -/
def insertOrIgnore (t : Table ρ) (r : ρ) : Table ρ := (t.insert? r).getD t

lemma mem_insertOrIgnore :
    x ∈ t.insertOrIgnore r ↔ x ∈ t ∨ x = r ∧ ∀ y ∈ t, ¬ Clash y r := by
  unfold insertOrIgnore
  cases h : t.insert? r with
  | none =>
    obtain ⟨y, hy, hc⟩ := insert?_eq_none.mp h
    simp only [Option.getD_none]
    constructor
    · exact Or.inl
    · rintro (hx | ⟨-, hn⟩)
      · exact hx
      · exact absurd hc (hn y hy)
  | some t' =>
    simp only [Option.getD_some]
    rw [mem_of_insert? h]
    exact or_congr_right (iff_self_and.mpr fun _ => not_clash_of_insert? h)

lemma mem_insertOrIgnore_of_mem (h : x ∈ t) : x ∈ t.insertOrIgnore r :=
  mem_insertOrIgnore.mpr (Or.inl h)

/-- If clashing rows agree in what is looked for, the row that is found stays. -/
lemma find?_insertOrIgnore (hp : ∀ x ∈ t, Clash x r → p x = p r) :
    (t.insertOrIgnore r).find? p = (t.find? p).or (if p r = true then some r else none) := by
  rw [insertOrIgnore]
  cases h : t.insert? r with
  | none =>
    obtain ⟨x, hx, hc⟩ := insert?_eq_none.mp h
    rw [Option.getD_none]
    by_cases hr : p r = true
    · cases hfind : t.find? p with
      | none => exact absurd ((hp x hx hc).trans hr) (by simp [find?_eq_none.mp hfind x hx])
      | some y => rfl
    · rw [if_neg hr, Option.or_none]
  | some t' => exact find?_of_insert? h

lemma find?_foldl_insertOrIgnore {l : List ρ} (hp : ∀ x y, Clash x y → p x = p y) :
    (l.foldl insertOrIgnore t).find? p = (t.find? p).or (l.find? p) := by
  induction l generalizing t with
  | nil => exact Option.or_none.symm
  | cons r l ih =>
    rw [List.foldl_cons, ih, find?_insertOrIgnore fun x _ => hp x r, Option.or_assoc,
      List.find?_cons]
    cases p r <;> rfl

lemma mem_of_mem_foldl_insertOrIgnore {l : List ρ} (h : x ∈ l.foldl insertOrIgnore t) :
    x ∈ t ∨ x ∈ l := by
  induction l generalizing t with
  | nil => exact Or.inl h
  | cons r l ih =>
    rcases ih h with h | h
    · rcases mem_insertOrIgnore.mp h with h | ⟨rfl, -⟩
      · exact Or.inl h
      · exact Or.inr List.mem_cons_self
    · exact Or.inr (List.mem_cons_of_mem r h)

/-- A row that clashes with no other one of the table and the list is stored. -/
lemma mem_foldl_insertOrIgnore_of_unique {l : List ρ} (hr : r ∈ t ∨ r ∈ l)
    (ht : ∀ x ∈ t, Clash x r → x = r) (hl : ∀ x ∈ l, Clash x r → x = r) :
    r ∈ l.foldl insertOrIgnore t := by
  induction l generalizing t with
  | nil => exact hr.resolve_right (by simp)
  | cons a l ih =>
    refine ih ?_ (fun x hx hc => ?_) fun x hx => hl x (List.mem_cons_of_mem a hx)
    · rcases hr with hr | hr
      · exact Or.inl (mem_insertOrIgnore_of_mem hr)
      · rcases List.mem_cons.mp hr with rfl | hr
        · by_cases hin : r ∈ t
          · exact Or.inl (mem_insertOrIgnore_of_mem hin)
          · refine Or.inl (mem_insertOrIgnore.mpr (Or.inr ⟨rfl, fun y hy hc => ?_⟩))
            exact hin (ht y hy hc ▸ hy)
        · exact Or.inr hr
    · rcases mem_insertOrIgnore.mp hx with hx | ⟨rfl, -⟩
      · exact ht x hx hc
      · exact hl x List.mem_cons_self hc

/-! ## Updates of columns no constraint reads -/

/-- What an `UPDATE` or `DO UPDATE` sets, in columns that no uniqueness constraint reads. -/
structure Update (ρ : Type u) [Keyed ρ] where
  /-- The row after the update. -/
  toFun : ρ → ρ
  /-- The updated row clashes with the same rows as before. -/
  clash_left : ∀ a b, Clash (toFun a) b ↔ Clash a b

instance : CoeFun (Update ρ) fun _ => ρ → ρ := ⟨Update.toFun⟩

variable {f : Update ρ}

lemma Update.clash_iff (f : Update ρ) : Clash (f a) (f b) ↔ Clash a b := by
  rw [f.clash_left a (f b)]
  exact ⟨fun h => clash_symm ((f.clash_left b a).mp (clash_symm h)),
    fun h => clash_symm ((f.clash_left b a).mpr (clash_symm h))⟩

/-- The update where the condition holds. -/
def Update.on (f : Update ρ) (p : ρ → Bool) : Update ρ where
  toFun x := if p x = true then f x else x
  clash_left a b := by
    split
    · exact f.clash_left a b
    · exact Iff.rfl

/-- `UPDATE .. SET f WHERE p`. -/
def update (t : Table ρ) (p : ρ → Bool) (f : Update ρ) : Table ρ :=
  ⟨t.rows.map fun x => if p x = true then f x else x,
    List.pairwise_map.mpr (t.unique.imp fun h hc => h ((f.on p).clash_iff.mp hc))⟩

lemma mem_update : x ∈ t.update p f ↔ ∃ y ∈ t, (if p y = true then f y else y) = x := by
  simp [mem_def, update]

lemma mem_update_of_mem (hr : r ∈ t) (hp : p r = true) : f r ∈ t.update p f :=
  mem_update.mpr ⟨r, hr, if_pos hp⟩

lemma mem_update_of_not (hr : r ∈ t) (hp : p r = false) : r ∈ t.update p f :=
  mem_update.mpr ⟨r, hr, by simp [hp]⟩

/-- An update none of whose rows is selected changes nothing. -/
lemma update_eq_self (h : ∀ x ∈ t, p x = true → f x = x) : t.update p f = t := by
  ext1
  refine (List.map_congr_left fun x hx => ?_).trans (List.map_id' _)
  split
  · exact h x hx ‹_›
  · rfl

/-- A query of columns the update leaves alone finds the updated version of its row. -/
lemma find?_update {q : ρ → Bool} (hq : ∀ x, q (f x) = q x) :
    (t.update p f).find? q = (t.find? q).map fun x => if p x = true then f x else x := by
  have hcomp : (q ∘ fun x => if p x = true then f x else x) = q := by
    funext x
    simp only [Function.comp_apply]
    split
    · exact hq x
    · rfl
  simp only [find?, update, List.find?_map, hcomp]

/-- Updates made one after the other act on each row by itself. -/
lemma rows_foldl_update {α : Type*} (q : α → ρ → Bool) (g : α → Update ρ) (l : List α)
    (t : Table ρ) :
    (l.foldl (fun t a => t.update (q a) (g a)) t).rows =
      t.rows.map fun x => l.foldl (fun x a => if q a x = true then g a x else x) x := by
  induction l generalizing t with
  | nil => simp
  | cons a l ih =>
    rw [List.foldl_cons, ih]
    simp [update]

/-- The number of rows an `UPDATE` or `DELETE` with condition `p` reports. -/
def count (t : Table ρ) (p : ρ → Bool) : Nat := t.rows.countP p

lemma count_eq_zero : t.count p = 0 ↔ ∀ x ∈ t, p x = false := by
  simp [count, List.countP_eq_zero, mem_def]

lemma count_eq_one (hr : r ∈ t) (hp : p r = true) (huniq : ∀ x ∈ t, p x = true → Clash x r) :
    t.count p = 1 := by
  have hall : ∀ x ∈ t.rows.filter p, x = r := fun x hx =>
    eq_of_clash (List.mem_filter.mp hx).1 hr
      (huniq x (List.mem_filter.mp hx).1 (List.mem_filter.mp hx).2)
  have hmem : r ∈ t.rows.filter p := List.mem_filter.mpr ⟨hr, hp⟩
  have hnodup := t.nodup_rows.filter p
  rw [count, List.countP_eq_length_filter]
  rcases hfil : t.rows.filter p with _ | ⟨x, _ | ⟨y, l⟩⟩
  · exact absurd hmem (by simp [hfil])
  · rfl
  · rw [hfil] at hall hnodup
    have hx : x = r := hall x (by simp)
    have hy : y = r := hall y (by simp)
    exact absurd hnodup (by simp [hx, hy])

/-! ## Deletion -/

/-- `DELETE .. WHERE p`. -/
def delete (t : Table ρ) (p : ρ → Bool) : Table ρ :=
  ⟨t.rows.filter fun x => !p x, t.unique.sublist List.filter_sublist⟩

lemma mem_delete : x ∈ t.delete p ↔ x ∈ t ∧ p x = false := by
  simp [mem_def, delete]

lemma delete_eq_self (h : ∀ x ∈ t, p x = false) : t.delete p = t := by
  ext1
  exact List.filter_eq_self.mpr (by simpa [mem_def] using h)

/-- A query for one row by its key finds it after a deletion unless it was deleted. -/
lemma find?_delete {q : ρ → Bool}
    (hq : ∀ x ∈ t, ∀ y ∈ t, q x = true → q y = true → Clash x y) :
    (t.delete p).find? q = (t.find? q).filter fun x => !p x := by
  have hq' : ∀ x ∈ t.delete p, ∀ y ∈ t.delete p, q x = true → q y = true → Clash x y :=
    fun x hx y hy => hq x (mem_delete.mp hx).1 y (mem_delete.mp hy).1
  ext r
  rw [find?_eq_some_iff hq', Option.filter_eq_some_iff, find?_eq_some_iff hq, mem_delete]
  simp only [Bool.not_eq_eq_eq_not, Bool.not_true]
  constructor
  · rintro ⟨⟨hr, hpr⟩, hqr⟩
    exact ⟨⟨hr, hqr⟩, hpr⟩
  · rintro ⟨⟨hr, hqr⟩, hpr⟩
    exact ⟨⟨hr, hpr⟩, hqr⟩

section Several

variable {q : ρ → Bool} {g h : Update ρ}

lemma delete_delete : (t.delete p).delete q = t.delete fun x => p x || q x := by
  ext1
  show (t.rows.filter _).filter _ = _
  rw [List.filter_filter]
  refine List.filter_congr fun x _ => ?_
  rw [Bool.not_or, Bool.and_comm]

lemma delete_congr (hpq : ∀ x ∈ t, p x = q x) : t.delete p = t.delete q := by
  ext1
  exact List.filter_congr fun x hx => congrArg not (hpq x hx)

/-- A row can be updated before or after others are deleted. -/
lemma update_delete (hq : ∀ x, q (f x) = q x) :
    (t.update p f).delete q = (t.delete q).update p f := by
  ext1
  show (t.rows.map _).filter _ = (t.rows.filter _).map _
  rw [List.filter_map]
  refine congrArg _ (List.filter_congr fun x _ => ?_)
  rw [Function.comp_apply]
  split
  · rw [hq]
  · rfl

/-- Deletions and updates one after the other are a deletion and an update. -/
lemma delete_update_delete_update {a b c r : ρ → Bool} (hq : ∀ x, q (f x) = q x)
    (hr : ∀ x ∈ t, r x = (p x || q x))
    (hfg : ∀ x, (if b (if a x = true then f x else x) = true then
        g (if a x = true then f x else x) else (if a x = true then f x else x)) =
      if c x = true then h x else x) :
    (((t.delete p).update a f).delete q).update b g = (t.delete r).update c h := by
  rw [update_delete hq, delete_delete, delete_congr fun x hx => (hr x hx).symm]
  ext1
  show (List.map _ _).map _ = List.map _ _
  rw [List.map_map]
  exact List.map_congr_left fun x _ => hfg x

lemma count_update (hq : ∀ x, q (f x) = q x) : (t.update p f).count q = t.count q := by
  rw [count, count]
  show (t.rows.map _).countP _ = _
  rw [List.countP_map]
  refine List.countP_congr fun x _ => ?_
  rw [Function.comp_apply]
  split
  · rw [hq]
  · rfl

/-- Deletions that miss the counted rows do not change the count. -/
lemma count_delete (hpq : ∀ x ∈ t, q x = true → p x = false) :
    (t.delete p).count q = t.count q := by
  rw [count, count]
  show (t.rows.filter _).countP _ = _
  rw [List.countP_filter]
  refine List.countP_congr fun x hx => ?_
  rw [Bool.and_eq_true, Bool.not_eq_true']
  exact and_iff_left_of_imp (hpq x hx)

/-- A deletion leaves fewer rows if it meets one. -/
lemma length_delete_lt (hx : x ∈ t) (hp : p x = true) :
    (t.delete p).rows.length < t.rows.length :=
  List.length_filter_lt_length_iff_exists.mpr ⟨x, hx, by simp [hp]⟩

lemma length_delete_le : (t.delete p).rows.length ≤ t.rows.length := List.length_filter_le _ _

lemma length_update : (t.update p f).rows.length = t.rows.length := List.length_map _

end Several

/-! ## Insertion with an update on conflict -/

/-- `INSERT .. ON CONFLICT(target) DO UPDATE SET f`: the row that agrees with `r` on the
conflict target is updated; when there is none, `r` is inserted under every constraint. -/
def upsert? (t : Table ρ) (target : ρ → Bool) (r : ρ) (f : Update ρ) : Option (Table ρ) :=
  if t.rows.any target then some (t.update target f) else t.insert? r

lemma upsert?_cases (h : t.upsert? p r f = some t') :
    (∃ x ∈ t, p x = true) ∧ t' = t.update p f ∨
      (∀ x ∈ t, p x = false) ∧ t.insert? r = some t' := by
  unfold upsert? at h
  split at h
  next hany => exact Or.inl ⟨List.any_eq_true.mp hany, (Option.some.inj h).symm⟩
  next hany =>
    refine Or.inr ⟨fun x hx => ?_, h⟩
    by_contra hp
    exact hany (List.any_eq_true.mpr ⟨x, hx, by simpa using hp⟩)

lemma upsert?_of_target (hx : x ∈ t) (hp : p x = true) :
    t.upsert? p r f = some (t.update p f) :=
  if_pos (List.any_eq_true.mpr ⟨x, hx, hp⟩)

lemma upsert?_of_no_target (h : ∀ x ∈ t, p x = false) : t.upsert? p r f = t.insert? r := by
  refine if_neg ?_
  rw [List.any_eq_true]
  rintro ⟨x, hx, hp⟩
  exact absurd hp (by simp [h x hx])

end Table

end Relational
