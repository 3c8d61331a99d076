/-
# Merges of sorted lists

Two lists that are strictly sorted by a key are merged, a key that both have being kept once.  The
first rows of the merge are those of the merge of the first rows, so that a reader that cuts each
list off behind the same number of rows misses none of them.
-/
import WorkspaceAtlas.Relational.Query

namespace Relational

variable {α κ ι : Type} [LinearOrder κ] {key : α → κ} {k : κ} {s t l l' : List α} {n m m' : ℕ}

/-- The merge; of two rows with one key the one of the first list is kept. -/
def merge (key : α → κ) : List α → List α → List α
  | [], t => t
  | a :: s, [] => a :: s
  | a :: s, b :: t =>
    if key a < key b then a :: merge key s (b :: t)
    else if key b < key a then b :: merge key (a :: s) t
    else a :: merge key s t
termination_by s t => s.length + t.length

/-- **The cut.**  The first rows do not depend on what each list has behind them. -/
lemma take_merge (hm : n ≤ m) (hm' : n ≤ m') :
    (merge key (s.take m) (t.take m')).take n = (merge key s t).take n := by
  induction n generalizing s t m m' with
  | zero => rfl
  | succ n ih =>
    obtain ⟨m, rfl⟩ := Nat.exists_eq_add_of_lt hm
    obtain ⟨m', rfl⟩ := Nat.exists_eq_add_of_lt hm'
    cases s with
    | nil =>
      rw [List.take_nil, merge, merge, List.take_take]
      congr 1
      omega
    | cons a s =>
      cases t with
      | nil =>
        rw [List.take_nil, List.take_succ_cons, merge, merge, ← List.take_succ_cons,
          List.take_take]
        congr 1
        omega
      | cons b t =>
        have hside : ∀ {r : List α} {c : α} {i : ℕ}, (c :: r).take (i + 1) = c :: r.take i :=
          List.take_succ_cons
        rw [hside, hside, merge, merge]
        split_ifs
        · rw [hside, hside, ← hside (r := t), ih (by omega) (by omega)]
        · rw [hside, hside, ← hside (r := s), ih (by omega) (by omega)]
        · rw [hside, hside, ih (by omega) (by omega)]

lemma mem_merge {a : α} (h : a ∈ merge key s t) : a ∈ s ∨ a ∈ t := by
  fun_induction merge key s t with
  | case1 t => exact .inr h
  | case2 a s => exact .inl h
  | case3 b s c t hlt ih =>
    rcases List.mem_cons.mp h with rfl | h
    · exact .inl List.mem_cons_self
    · exact (ih h).imp_left (List.mem_cons_of_mem b)
  | case4 b s c t hlt hgt ih =>
    rcases List.mem_cons.mp h with rfl | h
    · exact .inr List.mem_cons_self
    · exact (ih h).imp_right (List.mem_cons_of_mem c)
  | case5 b s c t hlt hgt ih =>
    rcases List.mem_cons.mp h with rfl | h
    · exact .inl List.mem_cons_self
    · exact (ih h).imp (List.mem_cons_of_mem b) (List.mem_cons_of_mem c)

/-- The merge is strictly sorted as well. -/
lemma pairwise_merge (hs : s.Pairwise fun a b => key a < key b)
    (ht : t.Pairwise fun a b => key a < key b) :
    (merge key s t).Pairwise fun a b => key a < key b := by
  fun_induction merge key s t with
  | case1 t => exact ht
  | case2 a s => exact hs
  | case3 a s b t hlt ih =>
    obtain ⟨ha, hs⟩ := List.pairwise_cons.mp hs
    refine List.pairwise_cons.mpr ⟨fun c hc => ?_, ih hs ht⟩
    rcases mem_merge hc with hc | hc
    · exact ha c hc
    · rcases List.mem_cons.mp hc with rfl | hc
      · exact hlt
      · exact hlt.trans (List.rel_of_pairwise_cons ht hc)
  | case4 a s b t hlt hgt ih =>
    obtain ⟨hb, ht⟩ := List.pairwise_cons.mp ht
    refine List.pairwise_cons.mpr ⟨fun c hc => ?_, ih hs ht⟩
    rcases mem_merge hc with hc | hc
    · rcases List.mem_cons.mp hc with rfl | hc
      · exact hgt
      · exact hgt.trans (List.rel_of_pairwise_cons hs hc)
    · exact hb c hc
  | case5 a s b t hlt hgt ih =>
    obtain ⟨ha, hs⟩ := List.pairwise_cons.mp hs
    obtain ⟨hb, ht⟩ := List.pairwise_cons.mp ht
    have hsame : key a = key b := le_antisymm (not_lt.mp hgt) (not_lt.mp hlt)
    refine List.pairwise_cons.mpr ⟨fun c hc => ?_, ih hs ht⟩
    rcases mem_merge hc with hc | hc
    · exact ha c hc
    · rw [hsame]
      exact hb c hc

/-! ## One row for each key -/

/-- In a strictly sorted list, the row with a key is the one found for it. -/
lemma find?_eq_some_iff_mem (h : l.Pairwise fun a b => key a < key b) {a : α} :
    (l.find? fun b => key b = key a) = some a ↔ a ∈ l := by
  refine ⟨List.mem_of_find?_eq_some, fun ha => ?_⟩
  induction l with
  | nil => exact absurd ha List.not_mem_nil
  | cons b l ih =>
    obtain ⟨hb, hl⟩ := List.pairwise_cons.mp h
    rcases List.mem_cons.mp ha with rfl | ha
    · exact List.find?_cons_of_pos (by simp)
    · rw [List.find?_cons_of_neg (by simpa using (hb a ha).ne)]
      exact ih hl ha

/-- Strictly sorted lists that find the same rows are equal. -/
lemma eq_of_find? (h : l.Pairwise fun a b => key a < key b)
    (h' : l'.Pairwise fun a b => key a < key b)
    (hfind : ∀ k, (l.find? fun a => key a = k) = l'.find? fun a => key a = k) : l = l' := by
  have hne : ∀ {r : List α}, r.Pairwise (fun a b => key a < key b) → r.Nodup := fun hr =>
    hr.imp fun hlt heq => absurd (congrArg key heq) hlt.ne
  have hperm : l.Perm l' := (List.perm_ext_iff_of_nodup (hne h) (hne h')).mpr fun a => by
    rw [← find?_eq_some_iff_mem h, ← find?_eq_some_iff_mem h', hfind]
  exact hperm.eq_of_pairwise (fun a b _ _ hab hba => absurd hab hba.not_gt) h h'

lemma find?_eq_none_of_lt {a : α} (h : (a :: l).Pairwise fun a b => key a < key b)
    (hk : k ≤ key a) : (l.find? fun b => key b = k) = none := by
  rw [List.find?_eq_none]
  intro b hb hkey
  exact absurd (of_decide_eq_true hkey) (hk.trans_lt (List.rel_of_pairwise_cons h hb)).ne'

/-- The row with a key comes from the first list if it is there. -/
lemma find?_merge (hs : s.Pairwise fun a b => key a < key b)
    (ht : t.Pairwise fun a b => key a < key b) :
    ((merge key s t).find? fun a => key a = k) = (s ++ t).find? fun a => key a = k := by
  fun_induction merge key s t with
  | case1 t => rfl
  | case2 a s => rw [List.append_nil]
  | case3 a s b t hlt ih =>
    rw [List.cons_append, List.find?_cons, List.find?_cons, ih hs.of_cons ht]
  | case4 a s b t hlt hgt ih =>
    rw [List.find?_append]
    by_cases hk : key b = k
    · have hnone : ((a :: s).find? fun c => key c = k) = none := by
        rw [List.find?_cons_of_neg (by simpa [← hk] using hgt.ne'),
          find?_eq_none_of_lt hs (hk ▸ hgt.le)]
      rw [hnone, Option.none_or, List.find?_cons_of_pos (by simpa using hk),
        List.find?_cons_of_pos (by simpa using hk)]
    · have hskip : ∀ r : List α, ((b :: r).find? fun c => key c = k) =
          r.find? fun c => key c = k := fun r => List.find?_cons_of_neg (by simpa using hk)
      rw [hskip, hskip, ih hs ht.of_cons, List.find?_append]
  | case5 a s b t hlt hgt ih =>
    have hsame : key a = key b := le_antisymm (not_lt.mp hgt) (not_lt.mp hlt)
    rw [List.cons_append, List.find?_cons, List.find?_cons, ih hs.of_cons ht.of_cons,
      List.find?_append, List.find?_append, List.find?_cons]
    by_cases hk : key a = k
    · rw [decide_eq_true hk]
    · rw [decide_eq_false hk, decide_eq_false (hsame ▸ hk)]

/-! ## The merge as a sort -/

/-- A sort keeps the first row of a key. -/
lemma find?_orderBy : ((orderBy key l).find? fun a => key a = k) = l.find? fun a => key a = k := by
  have hhead : ∀ r : List α, (r.find? fun a => key a = k) = (r.filter fun a => key a = k).head? :=
    fun r => List.head?_filter.symm
  rw [hhead, hhead, filter_orderBy]
  cases hrows : l.filter fun a => key a = k with
  | nil => rfl
  | cons a r =>
    have hkey : ∀ b ∈ a :: r, key b = k := fun b hb => by
      rw [← hrows] at hb
      exact of_decide_eq_true (List.mem_filter.mp hb).2
    rw [orderBy_eq_self (a := a) fun b hb => by rw [hkey b hb, hkey a List.mem_cons_self]]

/-- Of a sorted list, the rows with a new key are strictly sorted. -/
lemma pairwise_firsts (last : Option κ) (h : l.Pairwise fun a b => key a ≤ key b)
    (hlast : ∀ k ∈ last, ∀ a ∈ l, k ≤ key a) :
    (firsts key last l).Pairwise (fun a b => key a < key b) ∧
      ∀ k ∈ last, ∀ a ∈ firsts key last l, k < key a := by
  induction l generalizing last with
  | nil => exact ⟨List.Pairwise.nil, fun _ _ a ha => absurd ha List.not_mem_nil⟩
  | cons a l ih =>
    obtain ⟨ha, hl⟩ := List.pairwise_cons.mp h
    rw [firsts]
    split
    next hsame => exact ih last hl fun k hk b hb => hlast k hk b (List.mem_cons_of_mem a hb)
    next hnew =>
      have hrest := ih (some (key a)) hl fun k hk b hb => by
        obtain rfl := Option.mem_some_iff.mp hk
        exact ha b hb
      have hbehind := hrest.2 (key a) rfl
      refine ⟨List.pairwise_cons.mpr ⟨hbehind, hrest.1⟩, fun k hk b hb => ?_⟩
      have hlt : k < key a := (hlast k hk a List.mem_cons_self).lt_of_ne fun heq =>
        hnew (by rw [Option.mem_def.mp hk, heq])
      rcases List.mem_cons.mp hb with rfl | hb
      · exact hlt
      · exact hlt.trans (hbehind b hb)

/-- Rows are grouped by one key as by another one that tells the same rows apart. -/
lemma firsts_congr [DecidableEq ι] {id : α → ι} (last : Option α)
    (h : ∀ a ∈ last.toList ++ l, ∀ b ∈ l, id a = id b ↔ key a = key b) :
    firsts id (last.map id) l = firsts key (last.map key) l := by
  induction l generalizing last with
  | nil => rfl
  | cons b l ih =>
    have hnext : firsts id (some (id b)) l = firsts key (some (key b)) l :=
      ih (some b) fun a ha c hc => by
        refine h a ?_ c (List.mem_cons_of_mem b hc)
        exact List.mem_append_right _ (by simpa using ha)
    have hskip : firsts id (last.map id) l = firsts key (last.map key) l :=
      ih last fun a ha c hc => by
        refine h a ?_ c (List.mem_cons_of_mem b hc)
        rcases List.mem_append.mp ha with ha | ha
        · exact List.mem_append_left _ ha
        · exact List.mem_append_right _ (List.mem_cons_of_mem b ha)
    have hsame : last.map id = some (id b) ↔ last.map key = some (key b) := by
      cases last with
      | none => simp
      | some a =>
        simpa using h a (by simp) b List.mem_cons_self
    rw [firsts, firsts, hnext, hskip]
    by_cases hb : last.map key = some (key b)
    · rw [if_pos hb, if_pos (hsame.mpr hb)]
    · rw [if_neg hb, if_neg (mt hsame.mp hb)]

/-- **A merge** of strictly sorted lists is what is left of a sort of both. -/
lemma firsts_orderBy_eq_merge [DecidableEq ι] {id : α → ι}
    (hs : s.Pairwise fun a b => key a < key b) (ht : t.Pairwise fun a b => key a < key b)
    (hid : ∀ a ∈ s ++ t, ∀ b ∈ s ++ t, id a = id b ↔ key a = key b) :
    firsts id none (orderBy key (s ++ t)) = merge key s t := by
  have hkeys : firsts id none (orderBy key (s ++ t)) = firsts key none (orderBy key (s ++ t)) :=
    firsts_congr none fun a ha b hb => hid a (mem_orderBy.mp ha) b (mem_orderBy.mp hb)
  rw [hkeys]
  refine eq_of_find? (pairwise_firsts none pairwise_orderBy (by simp)).1 (pairwise_merge hs ht)
    fun k => ?_
  rw [find?_firsts (by simp), find?_orderBy, find?_merge hs ht]

end Relational
