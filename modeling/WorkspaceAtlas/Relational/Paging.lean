/-
# Pages of sorted rows

Sorted rows are handed out page by page: a page has the first rows whose key is above the key
that the page before it ended with.  The key goes through a token on the way, and what comes
out of it is the key, a smaller one, or nothing, and then the pages start again.

All rows come out, each once, for every choice of page sizes exactly when no two rows have the
same key and every key that rows follow comes out of its token as it went in.  A client that
follows tokens may also be refused one; it gets all rows exactly when every page but the last has
a token.
-/
import Mathlib.Algebra.Order.Ring.Nat
import Mathlib.Order.Basic
import Mathlib.Data.List.Nodup
import Mathlib.Data.List.Pairwise

namespace Relational

namespace Paging

variable {ρ κ : Type*} [LinearOrder κ]

section Pages

variable (key : ρ → κ) (rows : List ρ) (resume : κ → Option κ)

/-- The rows above a key, or all of them. -/
def remaining (after : Option κ) : List ρ := rows.filter fun r => after.all fun k => k < key r

/-- The first of them. -/
def page (after : Option κ) (limit : ℕ) : List ρ := (remaining key rows after).take limit

/-- The key that a page ends with, if rows are left. -/
def next (after : Option κ) (limit : ℕ) : Option κ :=
  if limit < (remaining key rows after).length then
    (page key rows after limit).getLast?.map key
  else none

/-- The rows of the pages from a key on, if the limits reach to the last page. -/
def collect : List ℕ → Option κ → Option (List ρ)
  | [], _ => none
  | limit :: limits, after =>
    match next key rows after limit with
    | none => some (page key rows after limit)
    | some k => (collect limits (resume k)).map (page key rows after limit ++ ·)

end Pages

variable {key : ρ → κ} {rows out : List ρ} {resume : κ → Option κ} {after : Option κ}

lemma mem_remaining {r : ρ} :
    r ∈ remaining key rows after ↔ r ∈ rows ∧ ∀ k, after = some k → k < key r := by
  rw [remaining, List.mem_filter]
  cases after with
  | none => simp
  | some k => simp

@[simp] lemma remaining_none : remaining key rows none = rows :=
  List.filter_eq_self.mpr fun _ _ => rfl

/-- Of strictly sorted rows, those behind a row are above its key. -/
lemma remaining_last {front back : List ρ} {r : ρ}
    (h : (front ++ r :: back).Pairwise fun a b => key a < key b) :
    remaining key (front ++ r :: back) (some (key r)) = back := by
  obtain ⟨-, hback, hfront⟩ := List.pairwise_append.mp h
  have hbehind := (List.pairwise_cons.mp hback).1
  rw [remaining, List.filter_append, List.filter_eq_nil_iff.mpr, List.nil_append,
    List.filter_cons_of_neg (by simp), List.filter_eq_self.mpr]
  · exact fun x hx => by simpa using hbehind x hx
  · exact fun x hx => by simpa using (hfront x hx r List.mem_cons_self).le

/-- Whatever the limits are, the pages of what is left are what is left. -/
lemma collect_of_suffix (hsorted : rows.Pairwise fun a b => key a < key b)
    (hresume : ∀ r ∈ rows, ∀ r' ∈ rows, key r < key r' → resume (key r) = some (key r))
    {todo : List ρ} (htodo : todo <:+ rows) (hafter : remaining key rows after = todo)
    {limits : ℕ → ℕ} (hpos : ∀ i, 0 < limits i) :
    ∃ n, collect key rows resume ((List.range n).map limits) after = some todo := by
  induction hlength : todo.length using Nat.strongRecOn
    generalizing todo after limits with
  | _ length ih =>
    by_cases hlt : limits 0 < todo.length
    · -- the page is cut off behind `r`
      have hpage : todo.take (limits 0) ≠ [] := by
        rw [ne_eq, List.take_eq_nil_iff]
        have hzero := hpos 0
        rintro (h | rfl)
        · omega
        · simp at hlt
      obtain ⟨init, r, hinit⟩ := (List.eq_nil_or_concat' _).resolve_left hpage
      have hsplit : todo = init ++ r :: todo.drop (limits 0) := by
        conv_lhs => rw [← List.take_append_drop (limits 0) todo, hinit]
        simp
      obtain ⟨front, hfront⟩ := htodo
      have hrows : rows = (front ++ init) ++ r :: todo.drop (limits 0) := by
        rw [List.append_assoc, ← hsplit, hfront]
      have hleft : remaining key rows (some (key r)) = todo.drop (limits 0) := by
        rw [hrows] at hsorted
        conv_lhs => rw [hrows]
        exact remaining_last hsorted
      obtain ⟨r', hr'⟩ := List.exists_mem_of_ne_nil (todo.drop (limits 0)) (by simpa using hlt)
      obtain ⟨hmem', hkey⟩ := mem_remaining.mp (hleft ▸ hr')
      have htoken := hresume r (by rw [hrows]; simp) r' hmem' (hkey _ rfl)
      have hsuffix : todo.drop (limits 0) <:+ rows := ⟨front ++ (init ++ [r]), by
        rw [hrows]; simp⟩
      have hshort : (todo.drop (limits 0)).length < length := by
        rw [List.length_drop, ← hlength]
        have hzero := hpos 0
        omega
      obtain ⟨n, hn⟩ := ih _ hshort hsuffix hleft (fun i => hpos (i + 1)) rfl
      refine ⟨n + 1, ?_⟩
      have hnext : next key rows after (limits 0) = some (key r) := by
        rw [next, page, hafter, if_pos hlt, hinit, List.getLast?_concat]
        rfl
      rw [List.range_succ_eq_map, List.map_cons, List.map_map, collect, hnext]
      dsimp only
      rw [htoken]
      refine (congrArg (Option.map _) hn).trans (congrArg some ?_)
      rw [page, hafter]
      exact List.take_append_drop _ _
    · refine ⟨1, ?_⟩
      have hnext : next key rows after (limits 0) = none := by rw [next, hafter, if_neg hlt]
      show collect key rows resume [limits 0] after = some todo
      rw [collect, hnext]
      exact congrArg some (by rw [page, hafter, List.take_of_length_le (Nat.not_lt.mp hlt)])

/-! ## Pages of one row -/

section Single

variable {n : ℕ}

/-- The first page of one row: what is left has at most one row, or its first row is handed
out and the pages go on from its key. -/
lemma collect_one (h : collect key rows resume (List.replicate n 1) after = some out) :
    (out = remaining key rows after ∧ out.length ≤ 1) ∨
      ∃ r m rest more, remaining key rows after = r :: more ∧ out = r :: rest ∧ n = m + 1 ∧
        collect key rows resume (List.replicate m 1) (resume (key r)) = some rest := by
  cases n with
  | zero => exact absurd h (by simp [collect])
  | succ m =>
    rw [List.replicate_succ, collect] at h
    cases hnext : next key rows after 1 with
    | none =>
      rw [hnext] at h
      obtain rfl := Option.some.inj h
      have hshort : ¬ 1 < (remaining key rows after).length := by
        intro hlt
        rw [next, if_pos hlt, page] at hnext
        cases hleft : remaining key rows after with
        | nil => simp [hleft] at hlt
        | cons r more => simp [hleft] at hnext
      have hpage : page key rows after 1 = remaining key rows after :=
        List.take_of_length_le (Nat.not_lt.mp hshort)
      exact Or.inl ⟨hpage, hpage ▸ Nat.not_lt.mp hshort⟩
    | some k =>
      rw [hnext] at h
      cases hleft : remaining key rows after with
      | nil => simp [next, hleft] at hnext
      | cons r more =>
        have hpage : page key rows after 1 = [r] := by rw [page, hleft]; rfl
        obtain ⟨rest, hrest, rfl⟩ := Option.map_eq_some_iff.mp h
        obtain rfl : key r = k := by
          rw [next, hpage] at hnext
          split at hnext
          · exact Option.some.inj hnext
          · exact absurd hnext (by simp)
        exact Or.inr ⟨r, m, rest, more, rfl, by rw [hpage]; rfl, rfl, hrest⟩

lemma mem_rows_of_collect
    (h : collect key rows resume (List.replicate n 1) after = some out) : ∀ r ∈ out, r ∈ rows := by
  induction n generalizing after out with
  | zero => exact absurd h (by simp [collect])
  | succ n ih =>
    intro r hr
    rcases collect_one h with ⟨rfl, -⟩ | ⟨x, m, rest, more, hleft, rfl, hn, hrest⟩
    · exact (mem_remaining.mp hr).1
    · obtain rfl := Nat.succ.inj hn
      rcases List.mem_cons.mp hr with rfl | hr
      · exact (mem_remaining.mp (hleft ▸ List.mem_cons_self)).1
      · exact ih hrest r hr

variable (hsorted : rows.Pairwise fun a b => key a ≤ key b)
  (hdown : ∀ k k', resume k = some k' → k' ≤ k)

include hsorted hdown in
/-- No key above the start is left out. -/
lemma exists_of_collect (h : collect key rows resume (List.replicate n 1) after = some out) :
    ∀ r ∈ remaining key rows after, ∃ r' ∈ out, key r' = key r := by
  induction n generalizing after out with
  | zero => exact absurd h (by simp [collect])
  | succ n ih =>
    intro r hr
    rcases collect_one h with ⟨rfl, -⟩ | ⟨x, m, rest, more, hleft, rfl, hn, hrest⟩
    · exact ⟨r, hr, rfl⟩
    · obtain rfl := Nat.succ.inj hn
      have hle : key x ≤ key r := by
        have hleftSorted : (remaining key rows after).Pairwise fun a b => key a ≤ key b :=
          hsorted.filter _
        rw [hleft] at hleftSorted hr
        rcases List.mem_cons.mp hr with rfl | hr
        · exact le_rfl
        · exact List.rel_of_pairwise_cons hleftSorted hr
      rcases hle.eq_or_lt with heq | hlt
      · exact ⟨x, List.mem_cons_self, heq⟩
      · have hmem : r ∈ remaining key rows (resume (key x)) :=
          mem_remaining.mpr ⟨(mem_remaining.mp hr).1, fun k hk => (hdown _ _ hk).trans_lt hlt⟩
        obtain ⟨r', hr', hkey⟩ := ih hrest r hmem
        exact ⟨r', List.mem_cons_of_mem _ hr', hkey⟩

/-- Of the rows with one key only the first one is ever handed out. -/
lemma notMem_of_collect {front back : List ρ} {x y : ρ} (hrows : rows = front ++ x :: back)
    (hnodup : rows.Nodup) (hy : y ∈ back) (hkey : key x = key y)
    (h : collect key rows resume (List.replicate n 1) after = some out) : y ∉ out := by
  induction n generalizing after out with
  | zero => exact absurd h (by simp [collect])
  | succ n ih =>
    -- what is left starts with `y` only if a row before it is left out
    have hhead : ∀ more, remaining key rows after ≠ y :: more := by
      intro more hleft
      have hmem : y ∈ remaining key rows after := hleft ▸ List.mem_cons_self
      have hx : x ∈ remaining key rows after := mem_remaining.mpr
        ⟨by rw [hrows]; simp, fun k hk => hkey ▸ (mem_remaining.mp hmem).2 k hk⟩
      have hsub : (remaining key rows after).Sublist rows := List.filter_sublist
      rw [hrows] at hnodup
      obtain ⟨-, hback, hapart⟩ := List.nodup_append.mp hnodup
      have hxy : x ≠ y := fun heq => (List.nodup_cons.mp hback).1 (heq ▸ hy)
      rw [remaining, hrows, List.filter_append, List.filter_cons_of_pos] at hleft
      · cases hfront : front.filter fun r => after.all fun k => k < key r with
        | nil =>
          rw [hfront] at hleft
          exact hxy (List.cons.inj hleft).1
        | cons z zs =>
          rw [hfront] at hleft
          obtain rfl : z = y := (List.cons.inj hleft).1
          have hz : z ∈ front := List.mem_of_mem_filter (hfront ▸ List.mem_cons_self)
          exact hapart z hz z (List.mem_cons_of_mem _ hy) rfl
      · have hall := (mem_remaining.mp hx).2
        cases after with
        | none => rfl
        | some k => simpa using hall k rfl
    intro hmem
    rcases collect_one h with ⟨rfl, hshort⟩ | ⟨r, m, rest, more, hleft, rfl, hn, hrest⟩
    · cases hleft : remaining key rows after with
      | nil => exact absurd (hleft ▸ hmem) List.not_mem_nil
      | cons r more =>
        rw [hleft] at hmem hshort
        obtain rfl : more = [] := by simpa using hshort
        exact hhead [] (hleft.trans (by rw [List.mem_singleton.mp hmem]))
    · obtain rfl := Nat.succ.inj hn
      rcases List.mem_cons.mp hmem with rfl | hmem
      · exact hhead more hleft
      · exact ih hrest hmem

include hsorted hdown in
/-- If no row comes twice, every key that a row follows comes out of its token. -/
lemma resume_of_collect (hinj : ∀ r ∈ rows, ∀ r' ∈ rows, key r = key r' → r = r')
    (h : collect key rows resume (List.replicate n 1) after = some out) (hnodup : out.Nodup) :
    ∀ r ∈ out, ∀ r' ∈ rows, key r < key r' → resume (key r) = some (key r) := by
  induction n generalizing after out with
  | zero => exact absurd h (by simp [collect])
  | succ n ih =>
    intro r hr r' hr' hlt
    rcases collect_one h with ⟨rfl, hshort⟩ | ⟨x, m, rest, more, hleft, rfl, hn, hrest⟩
    · -- the row that follows would be left too
      have hmem : r' ∈ remaining key rows after := mem_remaining.mpr
        ⟨hr', fun k hk => ((mem_remaining.mp hr).2 k hk).trans hlt⟩
      obtain ⟨x, hx⟩ : ∃ x, remaining key rows after = [x] := by
        cases hleft : remaining key rows after with
        | nil => exact absurd (hleft ▸ hr) List.not_mem_nil
        | cons x more =>
          rw [hleft] at hshort
          exact ⟨x, by rw [show more = [] by simpa using hshort]⟩
      rw [hx] at hr hmem
      rw [List.mem_singleton.mp hr, List.mem_singleton.mp hmem] at hlt
      exact absurd hlt (lt_irrefl _)
    · obtain rfl := Nat.succ.inj hn
      rcases List.mem_cons.mp hr with rfl | hr
      · by_contra hne
        have hrows := (mem_remaining.mp (hleft ▸ List.mem_cons_self)).1
        have hagain : r ∈ remaining key rows (resume (key r)) := mem_remaining.mpr
          ⟨hrows, fun k hk => (hdown _ _ hk).lt_of_ne fun heq => hne (heq ▸ hk)⟩
        obtain ⟨x, hx, hkey⟩ := exists_of_collect hsorted hdown hrest r hagain
        obtain rfl := hinj x (mem_rows_of_collect hrest x hx) r hrows hkey
        exact (List.nodup_cons.mp hnodup).1 hx
      · exact ih hrest (List.nodup_cons.mp hnodup).2 r hr r' hr' hlt

/-- If all rows come out, no two of them have one key. -/
lemma key_injective_of_collect (hnodup : rows.Nodup)
    (h : collect key rows resume (List.replicate n 1) after = some out)
    (hall : ∀ r ∈ rows, r ∈ out) : ∀ r ∈ rows, ∀ r' ∈ rows, key r = key r' → r = r' := by
  intro r hr r' hr' hkey
  by_contra hne
  obtain ⟨front, back, hrows⟩ := List.append_of_mem hr
  rw [hrows] at hr'
  rcases List.mem_append.mp hr' with hr' | hr'
  · -- the other row comes first
    obtain ⟨front', back', hfront⟩ := List.append_of_mem hr'
    have hrows' : rows = front' ++ r' :: (back' ++ r :: back) := by simp [hrows, hfront]
    exact notMem_of_collect hrows' hnodup (by simp) hkey.symm h (hall r hr)
  · obtain hr' : r' ∈ back := (List.mem_cons.mp hr').resolve_left (Ne.symm hne)
    exact notMem_of_collect hrows hnodup hr' hkey h (hall r' (by rw [hrows]; simp [hr']))

end Single

/-- Pages of some size for every row have all rows, each once. -/
lemma collect_all (hsorted : rows.Pairwise fun a b => key a < key b)
    (hresume : ∀ r ∈ rows, ∀ r' ∈ rows, key r < key r' → resume (key r) = some (key r))
    {limits : ℕ → ℕ} (hpos : ∀ i, 0 < limits i) :
    ∃ n, collect key rows resume ((List.range n).map limits) none = some rows :=
  collect_of_suffix hsorted hresume List.suffix_rfl remaining_none hpos

/-- A first page that is large enough is the only one. -/
lemma collect_whole {limits : List ℕ} {limit : ℕ} (h : rows.length ≤ limit) :
    collect key rows resume (limit :: limits) none = some rows := by
  have hnext : next key rows none limit = none := by
    rw [next, remaining_none, if_neg (by omega)]
  rw [collect, hnext]
  exact congrArg some (by rw [page, remaining_none, List.take_of_length_le h])

/-! ## Clients -/

section Clients

variable {α ε ρ τ : Type*}

/-- A page as a client gets it, with the token for the next one. -/
structure Reply (τ ρ : Type*) where
  rows : List ρ
  next : Option τ

/-- What a client has that follows the tokens. -/
inductive Outcome (ε ρ : Type*) where
  | unfinished
  | failed (error : ε)
  | done (rows : List ρ)
  deriving DecidableEq, Repr

/-- An outcome after a page. -/
def Outcome.behind (rows : List ρ) : Outcome ε ρ → Outcome ε ρ
  | unfinished => unfinished
  | failed error => failed error
  | done rest => done (rows ++ rest)

/-- The pages of some calls, each with the token of the one before. -/
def follow (call : α → Option τ → Except ε (Reply τ ρ)) : List α → Option τ → Outcome ε ρ
  | [], _ => .unfinished
  | a :: as, token =>
    match call a token with
    | .error error => .failed error
    | .ok reply =>
      match reply.next with
      | none => .done reply.rows
      | some next => (follow call as (some next)).behind reply.rows

lemma behind_eq_done_iff {rows out : List ρ} {o : Outcome ε ρ} :
    o.behind rows = .done out ↔ ∃ rest, o = .done rest ∧ rows ++ rest = out := by
  cases o <;> simp [Outcome.behind]

/-- A row that a page ends with, and others follow. -/
def EndsPage (limits : ℕ → ℕ) (rows : List ρ) (r : ρ) : Prop :=
  ∃ k, ((List.range (k + 1)).map limits).sum < rows.length ∧
    rows[((List.range (k + 1)).map limits).sum - 1]? = some r

lemma sum_range_succ (limits : ℕ → ℕ) (k : ℕ) : ((List.range (k + 1)).map limits).sum =
    limits 0 + ((List.range k).map fun i => limits (i + 1)).sum := by
  rw [List.range_succ_eq_map, List.map_cons, List.map_map, List.sum_cons]
  rfl

/-- The pages behind the first one are the pages of what is left. -/
lemma endsPage_iff {limits : ℕ → ℕ} (hpos : ∀ i, 0 < limits i) {rows : List ρ}
    (hlt : limits 0 < rows.length) {r : ρ} : EndsPage limits rows r ↔
      rows[limits 0 - 1]? = some r ∨
        EndsPage (fun i => limits (i + 1)) (rows.drop (limits 0)) r := by
  have hone : ((List.range 1).map limits).sum = limits 0 := by simp
  constructor
  · rintro ⟨k, hk, hr⟩
    cases k with
    | zero => exact Or.inl (by rw [hone] at hr; exact hr)
    | succ k =>
      refine Or.inr ⟨k, ?_, ?_⟩
      · rw [sum_range_succ] at hk
        rw [List.length_drop]
        omega
      · rw [sum_range_succ] at hr
        rw [List.getElem?_drop, ← hr]
        congr 1
        have hnext : 0 < limits (0 + 1) := hpos 1
        rw [sum_range_succ]
        omega
  · rintro (hr | ⟨k, hk, hr⟩)
    · exact ⟨0, by rw [hone]; exact hlt, by rw [hone]; exact hr⟩
    · refine ⟨k + 1, ?_, ?_⟩
      · rw [sum_range_succ]
        rw [List.length_drop] at hk
        omega
      · rw [List.getElem?_drop] at hr
        rw [← hr, sum_range_succ]
        congr 1
        have hnext : 0 < limits (0 + 1) := hpos 1
        rw [sum_range_succ]
        omega

/-- A client of a server that cuts some rows into pages gets all of them exactly when the last
row of every page but the last one has a token. -/
lemma exists_follow_eq_done_iff {call : ℕ → Option τ → Except ε (Reply τ ρ)}
    {stands : Option τ → List ρ → Prop} {hasToken : ρ → Prop} {allowed : Set ℕ}
    (hlast : ∀ limit token todo, limit ∈ allowed → stands token todo → todo.length ≤ limit →
      call limit token = .ok ⟨todo, none⟩)
    (hmore : ∀ limit token todo r, limit ∈ allowed → stands token todo → limit < todo.length →
      todo[limit - 1]? = some r → hasToken r →
        ∃ next, call limit token = .ok ⟨todo.take limit, some next⟩ ∧
          stands (some next) (todo.drop limit))
    (hfail : ∀ limit token todo r, limit ∈ allowed → stands token todo → limit < todo.length →
      todo[limit - 1]? = some r → ¬ hasToken r → ∃ error, call limit token = .error error)
    {limits : ℕ → ℕ} (hpos : ∀ i, 0 < limits i) (hallowed : ∀ i, limits i ∈ allowed)
    {token : Option τ} {todo : List ρ} (hstands : stands token todo) :
    (∃ n, follow call ((List.range n).map limits) token = .done todo) ↔
      ∀ r, EndsPage limits todo r → hasToken r := by
  induction hlength : todo.length using Nat.strongRecOn generalizing todo token limits with
  | _ length ih =>
    have hzero := hpos 0
    have hfirst := hallowed 0
    have hunfold : ∀ n, follow call ((List.range (n + 1)).map limits) token =
        match call (limits 0) token with
        | .error error => .failed error
        | .ok reply =>
          match reply.next with
          | none => .done reply.rows
          | some next => (follow call ((List.range n).map fun i => limits (i + 1))
              (some next)).behind reply.rows := by
      intro n
      rw [List.range_succ_eq_map, List.map_cons, List.map_map, follow]
      rfl
    by_cases hlt : limits 0 < todo.length
    · obtain ⟨r, hr⟩ : ∃ r, todo[limits 0 - 1]? = some r :=
        ⟨_, List.getElem?_eq_getElem (by omega)⟩
      by_cases htoken : hasToken r
      · obtain ⟨next, hcall, hnext⟩ := hmore _ _ _ r hfirst hstands hlt hr htoken
        have hshort : (todo.drop (limits 0)).length < length := by
          rw [List.length_drop]
          omega
        have hrest := ih _ hshort (fun i => hpos (i + 1)) (fun i => hallowed (i + 1)) hnext rfl
        have hends : (∀ r, EndsPage limits todo r → hasToken r) ↔
            ∀ r, EndsPage (fun i => limits (i + 1)) (todo.drop (limits 0)) r → hasToken r := by
          constructor
          · exact fun h x hx => h x ((endsPage_iff hpos hlt).mpr (Or.inr hx))
          · intro h x hx
            rcases (endsPage_iff hpos hlt).mp hx with hx | hx
            · obtain rfl := Option.some.inj (hr.symm.trans hx)
              exact htoken
            · exact h x hx
        rw [hends, ← hrest]
        constructor
        · rintro ⟨n, hn⟩
          cases n with
          | zero => exact absurd hn (by simp [follow])
          | succ n =>
            rw [hunfold, hcall] at hn
            obtain ⟨rest, hrest, happend⟩ := behind_eq_done_iff.mp hn
            refine ⟨n, hrest.trans (congrArg Outcome.done ?_)⟩
            exact List.append_cancel_left (happend.trans (List.take_append_drop _ _).symm)
        · rintro ⟨n, hn⟩
          refine ⟨n + 1, ?_⟩
          rw [hunfold, hcall]
          exact behind_eq_done_iff.mpr ⟨_, hn, List.take_append_drop _ _⟩
      · obtain ⟨error, hcall⟩ := hfail _ _ _ r hfirst hstands hlt hr htoken
        refine iff_of_false ?_ fun h => htoken (h r ((endsPage_iff hpos hlt).mpr (Or.inl hr)))
        rintro ⟨n, hn⟩
        cases n with
        | zero => exact absurd hn (by simp [follow])
        | succ n =>
          rw [hunfold, hcall] at hn
          exact absurd hn (by simp)
    · refine iff_of_true ⟨1, ?_⟩ ?_
      · rw [hunfold, hlast _ _ _ hfirst hstands (by omega)]
      · rintro r ⟨k, hk, -⟩
        rw [sum_range_succ] at hk
        omega

end Clients

end Paging

end Relational
