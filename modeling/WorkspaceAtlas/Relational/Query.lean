/-
# Queries over several tables

`JOIN`, `LEFT JOIN` and `ORDER BY` on the rows of tables, in the order in which a nested loop
meets them.  A query is compared with another one in two ways: rows that have one partner each
turn a join into a map, and an order in which no two rows are equal makes the sorted result a
function of the rows alone, however they were joined.
-/
import Mathlib.Data.List.Sort
import Mathlib.Data.List.Perm.Basic
import Mathlib.Data.Prod.Lex
import WorkspaceAtlas.Relational.Table

namespace Relational

variable {α β γ κ : Type*}

/-! ## Joins -/

section Join

variable {l : List α} {m : List β} {cond : α → β → Bool} {a : α} {b : β}

/-- `l JOIN m ON cond`. -/
def join (l : List α) (m : List β) (cond : α → β → Bool) : List (α × β) :=
  l.flatMap fun a => (m.filter (cond a)).map (a, ·)

lemma mem_join : (a, b) ∈ join l m cond ↔ a ∈ l ∧ b ∈ m ∧ cond a b = true := by
  simp only [join, List.mem_flatMap, List.mem_map, List.mem_filter]
  constructor
  · rintro ⟨a', ha, b', ⟨hb, hcond⟩, heq⟩
    obtain ⟨rfl, rfl⟩ := Prod.mk.inj heq
    exact ⟨ha, hb, hcond⟩
  · rintro ⟨ha, hb, hcond⟩
    exact ⟨a, ha, b, ⟨hb, hcond⟩, rfl⟩

lemma nodup_join (hl : l.Nodup) (hm : m.Nodup) : (join l m cond).Nodup := by
  refine List.nodup_flatMap.mpr ⟨fun a _ => ?_, hl.imp fun {a a'} hne => ?_⟩
  · exact (hm.filter _).map fun b b' h => (Prod.mk.inj h).2
  · -- the rows of different rows differ in their first part
    rintro ⟨x, y⟩ hx hx'
    obtain ⟨b, -, heq⟩ := List.mem_map.mp hx
    obtain ⟨b', -, heq'⟩ := List.mem_map.mp hx'
    exact hne ((Prod.mk.inj heq).1.trans (Prod.mk.inj heq').1.symm)

/-- Where every row has at most one partner, the rows that have one are left, with it. -/
lemma join_eq_filterMap {g : α → Option β} (h : ∀ a ∈ l, m.filter (cond a) = (g a).toList) :
    join l m cond = l.filterMap fun a => (g a).map (a, ·) := by
  induction l with
  | nil => rfl
  | cons a l ih =>
    have hhead := h a (by simp)
    have htail := ih fun a ha => h a (by simp [ha])
    rw [join, List.flatMap_cons, hhead, List.filterMap_cons]
    cases hg : g a with
    | none => simpa [join] using htail
    | some b => simpa [join] using htail

lemma map_fst_join {g : α → Option β} (h : ∀ a ∈ l, m.filter (cond a) = (g a).toList) :
    (join l m cond).map Prod.fst = l.filter fun a => (g a).isSome := by
  rw [join_eq_filterMap h]
  induction l with
  | nil => rfl
  | cons a l ih =>
    have htail := ih fun a ha => h a (by simp [ha])
    rw [List.filterMap_cons, List.filter_cons]
    cases hg : g a with
    | none => simpa using htail
    | some b => simpa using htail

lemma map_filter_eq_flatMap {p : α → Bool} {f : α → β} {l : List α} :
    (l.filter p).map f = l.flatMap fun a => if p a = true then [f a] else [] := by
  induction l with
  | nil => rfl
  | cons a l ih =>
    rw [List.filter_cons, List.flatMap_cons]
    split
    · simpa using ih
    · simpa using ih

lemma join_singleton (h : m.filter (cond a) = [b]) : join [a] m cond = [(a, b)] := by
  simp [join, h]

/-- The tables can be joined in either order. -/
lemma join_perm_swap (l : List α) (m : List β) (cond : α → β → Bool) :
    List.Perm (join l m cond) ((join m l fun b a => cond a b).map Prod.swap) := by
  induction l with
  | nil => simp [join]
  | cons a l ih =>
    have hsplit : (join m (a :: l) fun b a => cond a b).map Prod.swap =
        m.flatMap fun b => (if cond a b = true then [(a, b)] else []) ++
          (l.filter fun a => cond a b).map (·, b) := by
      rw [join, List.map_flatMap]
      refine List.flatMap_congr fun b _ => ?_
      rw [List.filter_cons]
      split
      · simp [Function.comp_def]
      · simp [Function.comp_def]
    have htail : (join m l fun b a => cond a b).map Prod.swap =
        m.flatMap fun b => (l.filter fun a => cond a b).map (·, b) := by
      simp [join, List.map_flatMap, Function.comp_def]
    rw [hsplit, join, List.flatMap_cons, map_filter_eq_flatMap]
    refine List.Perm.trans ?_ (List.flatMap_append_perm m _ _)
    rw [htail] at ih
    exact ih.append_left _

/-- `l LEFT JOIN m ON cond`. -/
def leftJoin (l : List α) (m : List β) (cond : α → β → Bool) : List (α × Option β) :=
  l.flatMap fun a =>
    match m.filter (cond a) with
    | [] => [(a, none)]
    | partners => partners.map fun b => (a, some b)

/-- Where every row has at most one partner, every row is left once. -/
lemma leftJoin_eq_map {g : α → Option β} (h : ∀ a ∈ l, m.filter (cond a) = (g a).toList) :
    leftJoin l m cond = l.map fun a => (a, g a) := by
  induction l with
  | nil => rfl
  | cons a l ih =>
    have hhead := h a (by simp)
    have htail := ih fun a ha => h a (by simp [ha])
    rw [leftJoin, List.flatMap_cons, hhead, List.map_cons]
    cases hg : g a with
    | none => simpa [leftJoin] using htail
    | some b => simpa [leftJoin] using htail

lemma fst_mem_of_leftJoin {row : α × Option β} (h : row ∈ leftJoin l m cond) : row.1 ∈ l := by
  obtain ⟨a, ha, hrow⟩ := List.mem_flatMap.mp h
  split at hrow
  · rw [List.mem_singleton.mp hrow]
    exact ha
  · obtain ⟨b, -, rfl⟩ := List.mem_map.mp hrow
    exact ha

/-- A left join leaves every row. -/
lemma exists_mem_leftJoin {a : α} : (∃ b, (a, b) ∈ leftJoin l m cond) ↔ a ∈ l := by
  constructor
  · rintro ⟨b, hrow⟩
    exact fst_mem_of_leftJoin hrow
  · intro ha
    simp only [leftJoin, List.mem_flatMap]
    cases hpartners : m.filter (cond a) with
    | nil => exact ⟨none, a, ha, by simp [hpartners]⟩
    | cons b partners => exact ⟨some b, a, ha, by simp [hpartners]⟩

/-- A row with a partner is one of the join. -/
lemma some_mem_leftJoin {a : α} {b : β} :
    (a, some b) ∈ leftJoin l m cond ↔ a ∈ l ∧ b ∈ m ∧ cond a b = true := by
  rw [leftJoin, List.mem_flatMap, ← List.mem_filter]
  constructor
  · rintro ⟨a', ha', hrow⟩
    split at hrow
    · simp at hrow
    · obtain ⟨b', hb', hab⟩ := List.mem_map.mp hrow
      obtain ⟨rfl, hsome⟩ := Prod.mk.inj hab
      exact ⟨ha', Option.some.inj hsome ▸ hb'⟩
  · rintro ⟨ha, hb⟩
    refine ⟨a, ha, ?_⟩
    split
    · rename_i hnone
      simp [hnone] at hb
    · exact List.mem_map_of_mem hb

/-- A list without repetitions all of whose members are one has one entry. -/
lemma eq_singleton_of_nodup (hnodup : l.Nodup) (ha : a ∈ l) (h : ∀ x ∈ l, x = a) : l = [a] := by
  refine List.perm_singleton.mp ((List.perm_ext_iff_of_nodup hnodup
    (List.nodup_singleton a)).mpr fun x => ?_)
  rw [List.mem_singleton]
  exact ⟨h x, fun hx => hx ▸ ha⟩

end Join

/-- A row that no other row shares the condition with is all that is found. -/
lemma Table.filter_eq_singleton [Keyed α] {t : Table α} {p : α → Bool} {r : α} (hr : r ∈ t)
    (hpr : p r = true) (h : ∀ x ∈ t, p x = true → Clash x r) : t.rows.filter p = [r] := by
  refine eq_singleton_of_nodup (t.nodup_rows.filter p) (List.mem_filter.mpr ⟨hr, hpr⟩) ?_
  intro x hx
  obtain ⟨hx, hpx⟩ := List.mem_filter.mp hx
  exact eq_of_clash hx hr (h x hx hpx)

/-- A query for the row with a given key finds one row or none. -/
lemma Table.filter_eq_toList [Keyed α] {t : Table α} {p : α → Bool}
    (hp : ∀ x ∈ t, ∀ y ∈ t, p x = true → p y = true → Clash x y) :
    t.rows.filter p = (t.find? p).toList := by
  cases hfind : t.find? p with
  | none => simpa [List.filter_eq_nil_iff, mem_def] using find?_eq_none.mp hfind
  | some r =>
    obtain ⟨hr, hpr⟩ := (find?_eq_some_iff hp).mp hfind
    exact filter_eq_singleton hr hpr fun x hx hpx => hp x hx r hr hpx hpr

/-! ## Counts -/

/-- Two counts are equal where the first counts no more than the second only if they count the
same. -/
lemma imp_of_countP_eq {l : List α} {q q' : α → Bool} (h : l.countP q = l.countP q') (himp : ∀ a ∈ l, q a = true → q' a = true) :
    ∀ a ∈ l, q' a = true → q a = true := by
  induction l with
  | nil => simp
  | cons a l ih =>
    have hle : l.countP q ≤ l.countP q' :=
      List.countP_mono_left fun x hx => himp x (List.mem_cons_of_mem a hx)
    have hhead := himp a List.mem_cons_self
    rw [List.countP_cons, List.countP_cons] at h
    intro x hx hq'
    rcases List.mem_cons.mp hx with rfl | hx
    · by_contra hq
      rw [if_neg hq, if_pos hq'] at h
      omega
    · refine ih ?_ (fun y hy => himp y (List.mem_cons_of_mem a hy)) x hx hq'
      cases hqa : q a with
      | true =>
        rw [if_pos hqa, if_pos (hhead hqa)] at h
        omega
      | false =>
        rw [if_neg (by simp [hqa])] at h
        split at h
        · omega
        · omega

/-- Rows that are told apart by some columns are the same up to their order if the columns
are. -/
lemma perm_of_map_perm {f : α → β} {l l' : List α}
    (hinj : ∀ a ∈ l, ∀ b ∈ l', f a = f b → a = b) (h : List.Perm (l.map f) (l'.map f)) :
    List.Perm l l' := by
  induction l generalizing l' with
  | nil =>
    rw [List.map_nil, List.nil_perm, List.map_eq_nil_iff] at h
    exact h ▸ List.Perm.refl _
  | cons a l ih =>
    obtain ⟨b, hb, heq⟩ := List.mem_map.mp (h.mem_iff.mp List.mem_cons_self)
    obtain rfl := hinj a List.mem_cons_self b hb heq.symm
    obtain ⟨front, back, rfl⟩ := List.append_of_mem hb
    have hrest : List.Perm (l.map f) ((front ++ back).map f) := by
      rw [List.map_append, List.map_cons] at h
      rw [List.map_append]
      exact (List.perm_cons _).mp (h.trans List.perm_middle)
    refine ((ih (fun x hx y hy => ?_) hrest).cons a).trans List.perm_middle.symm
    refine hinj x (List.mem_cons_of_mem _ hx) y ?_
    rcases List.mem_append.mp hy with hy | hy
    · exact List.mem_append_left _ hy
    · exact List.mem_append_right _ (List.mem_cons_of_mem _ hy)

/-- A list without repetitions that reads the same from both ends has one member at most. -/
lemma eq_of_eq_reverse {l : List α} (hnodup : l.Nodup) (h : l = l.reverse) (ha : a ∈ l)
    (hb : b ∈ l) : a = b := by
  cases l with
  | nil => exact absurd ha List.not_mem_nil
  | cons x rest =>
    have hlast : (x :: rest).getLast? = some x := by
      rw [← List.head?_reverse, ← h, List.head?_cons]
    cases rest with
    | nil => rw [List.mem_singleton.mp ha, List.mem_singleton.mp hb]
    | cons y rest =>
      rw [List.getLast?_cons_cons] at hlast
      exact absurd (List.mem_of_getLast? hlast) (List.nodup_cons.mp hnodup).1

/-! ## Orders -/

section Order

variable [LinearOrder κ] {key : α → κ} {l l' : List α} {a b : α}

/-- `ORDER BY key`. -/
def orderBy (key : α → κ) (l : List α) : List α :=
  l.insertionSort fun a b => key a ≤ key b

lemma perm_orderBy : List.Perm (orderBy key l) l := List.perm_insertionSort _ l

lemma mem_orderBy : a ∈ orderBy key l ↔ a ∈ l := perm_orderBy.mem_iff

lemma pairwise_orderBy : (orderBy key l).Pairwise fun a b => key a ≤ key b := by
  have : Std.Total fun a b : α => key a ≤ key b := ⟨fun a b => le_total (key a) (key b)⟩
  have : IsTrans α fun a b => key a ≤ key b := ⟨fun _ _ _ => le_trans⟩
  exact List.pairwise_insertionSort _ l

/-- The sorted rows depend on the rows only, if no two of them have the same key. -/
lemma orderBy_eq_of_perm (h : List.Perm l l')
    (hinj : ∀ a ∈ l, ∀ b ∈ l, key a = key b → a = b) : orderBy key l = orderBy key l' := by
  refine List.Perm.eq_of_pairwise ?_ pairwise_orderBy pairwise_orderBy
    ((perm_orderBy.trans h).trans perm_orderBy.symm)
  intro a b ha hb hab hba
  exact hinj a (mem_orderBy.mp ha) b (h.mem_iff.mpr (mem_orderBy.mp hb)) (le_antisymm hab hba)

/-- Rows without ties are sorted strictly. -/
lemma pairwise_lt_orderBy (hnodup : l.Nodup) (hinj : ∀ a ∈ l, ∀ b ∈ l, key a = key b → a = b) :
    (orderBy key l).Pairwise fun a b => key a < key b := by
  have hne : (orderBy key l).Pairwise (· ≠ ·) := perm_orderBy.nodup_iff.mpr hnodup
  refine (pairwise_orderBy.and hne).imp_of_mem fun {a b} ha hb h => ?_
  exact h.1.lt_of_ne fun heq => h.2 (hinj a (mem_orderBy.mp ha) b (mem_orderBy.mp hb) heq)

/-- `ROW_NUMBER()`: the number of a row is the number of rows before it, counted on. -/
lemma number_of_mem_zipIdx (hnodup : l.Nodup)
    (hinj : ∀ a ∈ l, ∀ b ∈ l, key a = key b → a = b) {start number : ℕ}
    (h : (a, number) ∈ (orderBy key l).zipIdx start) :
    number = start + l.countP fun b => key b < key a := by
  have hsorted := pairwise_lt_orderBy hnodup hinj
  have hperm : List.Perm (orderBy key l) l := perm_orderBy
  obtain ⟨hle, hlt, ha⟩ := List.mem_zipIdx h
  obtain ⟨front, back, hsplit, hlength⟩ : ∃ front back,
      orderBy key l = front ++ a :: back ∧ front.length = number - start := by
    refine ⟨(orderBy key l).take (number - start), (orderBy key l).drop (number - start + 1),
      ?_, ?_⟩
    · rw [ha, List.getElem_cons_drop, List.take_append_drop]
    · rw [List.length_take]; omega
  rw [hsplit] at hsorted
  obtain ⟨-, hback, hfront⟩ := List.pairwise_append.mp hsorted
  have hcount : l.countP (fun b => key b < key a) = front.length := by
    rw [← hperm.countP_eq, hsplit, List.countP_append, List.countP_cons_of_neg (by simp),
      List.countP_eq_length.mpr, List.countP_eq_zero.mpr, Nat.add_zero]
    · intro b hb
      have hlt := (List.pairwise_cons.mp hback).1 b hb
      simpa using hlt.le
    · intro b hb
      simpa using hfront b hb a List.mem_cons_self
  omega

/-- Keys that agree on the rows sort them in the same way. -/
lemma orderBy_congr {key' : α → κ} (h : ∀ a ∈ l, key a = key' a) :
    orderBy key l = orderBy key' l := by
  have hmap := List.map_insertionSort (fun a b => key a ≤ key b) (fun a b => key' a ≤ key' b) id l
    fun a ha b hb => by rw [id_eq, id_eq, h a ha, h b hb]
  rw [List.map_id, List.map_id] at hmap
  exact hmap

/-- Rows that have one key stay as they are. -/
lemma orderBy_eq_self (h : ∀ b ∈ l, key b = key a) : orderBy key l = l := by
  have : Std.Total fun a b : α => key a ≤ key b := ⟨fun a b => le_total (key a) (key b)⟩
  have : IsTrans α fun a b => key a ≤ key b := ⟨fun _ _ _ => le_trans⟩
  refine List.Pairwise.insertionSort_eq (List.pairwise_of_forall_mem_list fun b hb b' hb' => ?_)
  rw [h b hb, h b' hb']

lemma filter_orderedInsert {p : α → Bool} (hl : l.Pairwise fun a b => key a ≤ key b) :
    (l.orderedInsert (fun a b => key a ≤ key b) a).filter p =
      if p a then (l.filter p).orderedInsert (fun a b => key a ≤ key b) a else l.filter p := by
  induction l with
  | nil => simp [List.filter_cons]
  | cons b l ih =>
    rw [List.orderedInsert_cons]
    by_cases hab : key a ≤ key b
    · -- every row from `b` on comes behind `a`
      have hfront : ∀ m : List α, (∀ x ∈ m, key a ≤ key x) →
          m.orderedInsert (fun a b => key a ≤ key b) a = a :: m := by
        intro m hm
        cases m with
        | nil => rfl
        | cons x m => rw [List.orderedInsert_cons, if_pos (hm x List.mem_cons_self)]
      rw [if_pos hab, List.filter_cons, hfront]
      intro x hx
      rcases List.mem_cons.mp (List.mem_of_mem_filter hx) with rfl | hx
      · exact hab
      · exact hab.trans (List.rel_of_pairwise_cons hl hx)
    · rw [if_neg hab, List.filter_cons, List.filter_cons, ih hl.of_cons]
      cases p a <;> cases p b <;> simp [hab]

/-- `WHERE` can be applied before or after the rows are sorted. -/
lemma filter_orderBy {p : α → Bool} : (orderBy key l).filter p = orderBy key (l.filter p) := by
  induction l with
  | nil => rfl
  | cons a l ih =>
    have hinsert : (orderBy key (a :: l)).filter p =
        ((orderBy key l).orderedInsert (fun a b => key a ≤ key b) a).filter p := rfl
    rw [hinsert, filter_orderedInsert pairwise_orderBy, ih, List.filter_cons]
    split
    · rfl
    · rfl

/-- The columns can be computed before or after the rows are sorted. -/
lemma orderBy_map {f : α → β} {key : β → κ} :
    orderBy key (l.map f) = (orderBy (key ∘ f) l).map f :=
  (List.map_insertionSort _ _ f l fun _ _ _ _ => Iff.rfl).symm

/-- `ORDER BY key LIMIT 1` finds the least row. -/
lemma head?_orderBy_iff (hinj : ∀ a ∈ l, ∀ b ∈ l, key a = key b → a = b) :
    (orderBy key l).head? = some a ↔ a ∈ l ∧ ∀ b ∈ l, key a ≤ key b := by
  constructor
  · intro h
    obtain ⟨rest, hrest⟩ := List.head?_eq_some_iff.mp h
    have hsorted : (orderBy key l).Pairwise fun a b => key a ≤ key b := pairwise_orderBy
    rw [hrest] at hsorted
    refine ⟨mem_orderBy.mp (List.mem_of_head? h), fun b hb => ?_⟩
    have hmem : b ∈ orderBy key l := mem_orderBy.mpr hb
    rw [hrest] at hmem
    rcases List.mem_cons.mp hmem with rfl | hb
    · exact le_rfl
    · exact List.rel_of_pairwise_cons hsorted hb
  · rintro ⟨ha, hle⟩
    have hmem : a ∈ orderBy key l := mem_orderBy.mpr ha
    cases hhead : (orderBy key l).head? with
    | none =>
      rw [List.head?_eq_none_iff.mp hhead] at hmem
      exact absurd hmem (by simp)
    | some b =>
      have hb : b ∈ orderBy key l := List.mem_of_head? hhead
      obtain ⟨rest, hrest⟩ := List.head?_eq_some_iff.mp hhead
      have hsorted : (orderBy key l).Pairwise fun a b => key a ≤ key b := pairwise_orderBy
      rw [hrest] at hsorted
      have hba : key b ≤ key a := by
        rw [hrest] at hmem
        rcases List.mem_cons.mp hmem with rfl | ha
        · exact le_rfl
        · exact List.rel_of_pairwise_cons hsorted ha
      rw [hinj b (mem_orderBy.mp hb) a ha (le_antisymm hba (hle b (mem_orderBy.mp hb)))]

/-- `LIMIT 1` of rows without ties is the least row, if there are rows. -/
lemma take_one_orderBy (hinj : ∀ a ∈ l, ∀ b ∈ l, key a = key b → a = b) (ha : a ∈ l)
    (hle : ∀ b ∈ l, key a ≤ key b) : (orderBy key l).take 1 = [a] := by
  rw [List.take_one, (head?_orderBy_iff hinj).mpr ⟨ha, hle⟩]
  rfl

/-- Of rows sorted by two keys, the first one with a given first key has the least second. -/
lemma le_of_find?_orderBy {κ' : Type*} [LinearOrder κ'] {group : α → κ'} {k : κ'}
    (h : (orderBy (fun a => toLex (group a, key a)) l).find? (fun a => group a = k) = some a)
    (hb : b ∈ l) (hk : group b = k) : key a ≤ key b := by
  have hsorted : (orderBy (fun a => toLex (group a, key a)) l).Pairwise fun a b =>
      toLex (group a, key a) ≤ toLex (group b, key b) := pairwise_orderBy
  have hmem : b ∈ orderBy (fun a => toLex (group a, key a)) l := mem_orderBy.mpr hb
  generalize orderBy (fun a => toLex (group a, key a)) l = m at h hsorted hmem
  induction m with
  | nil => exact absurd hmem (by simp)
  | cons x m ih =>
    rw [List.find?_cons] at h
    split at h
    next hx =>
      obtain rfl := Option.some.inj h
      have hx : group x = k := of_decide_eq_true hx
      rcases List.mem_cons.mp hmem with rfl | hmem
      · exact le_rfl
      · have hle := List.rel_of_pairwise_cons hsorted hmem
        rw [Prod.Lex.toLex_le_toLex] at hle
        rcases hle with hlt | ⟨-, hle⟩
        · exact absurd (hx.trans hk.symm) (ne_of_lt hlt)
        · exact hle
    next hx =>
      rcases List.mem_cons.mp hmem with rfl | hmem
      · exact absurd hk (by simpa using hx)
      · exact ih h hsorted.of_cons hmem

end Order

/-! ## The first row of each group -/

section Firsts

variable [DecidableEq κ] {key : α → κ} {k : κ} {l : List α}

/-- The rows whose key is not the one of the row before; `last` is the key of the row before
the first one. -/
def firsts (key : α → κ) (last : Option κ) : List α → List α
  | [] => []
  | a :: l => if last = some (key a) then firsts key last l else a :: firsts key (some (key a)) l

/-- The first row with a key is kept. -/
lemma find?_firsts {last : Option κ} (hlast : last ≠ some k) :
    (firsts key last l).find? (fun a => key a = k) = l.find? fun a => key a = k := by
  induction l generalizing last with
  | nil => rfl
  | cons a l ih =>
    rw [firsts]
    split
    next hsame =>
      have hne : key a ≠ k := by
        rintro rfl
        exact hlast hsame
      rw [ih hlast, List.find?_cons_of_neg (by simpa using hne)]
    next =>
      by_cases hk : key a = k
      · rw [List.find?_cons_of_pos (by simpa using hk), List.find?_cons_of_pos (by simpa using hk)]
      · rw [List.find?_cons_of_neg (by simpa using hk), List.find?_cons_of_neg (by simpa using hk)]
        exact ih (by simpa using hk)

lemma firsts_sublist {last : Option κ} : (firsts key last l).Sublist l := by
  induction l generalizing last with
  | nil => exact List.Sublist.slnil
  | cons b l ih =>
    rw [firsts]
    split
    · exact ih.cons b
    · exact ih.cons_cons b

lemma mem_of_mem_firsts {last : Option κ} {a : α} (h : a ∈ firsts key last l) : a ∈ l :=
  firsts_sublist.subset h

/-- Where rows with one key are one row, no row is lost. -/
lemma mem_firsts_iff {a : α} (hinj : ∀ a ∈ l, ∀ b ∈ l, key a = key b → a = b) :
    a ∈ firsts key none l ↔ a ∈ l := by
  refine ⟨mem_of_mem_firsts, fun ha => ?_⟩
  have hfind : ((firsts key none l).find? fun b => key b = key a).isSome := by
    rw [find?_firsts (by simp), List.find?_isSome]
    exact ⟨a, ha, by simp⟩
  obtain ⟨b, hb⟩ := Option.isSome_iff_exists.mp hfind
  have hmem := List.mem_of_find?_eq_some hb
  have hkey : key b = key a := by simpa using List.find?_some hb
  rwa [hinj b (mem_of_mem_firsts hmem) a ha hkey] at hmem

end Firsts

end Relational
