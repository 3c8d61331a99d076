/-
# Slices by byte offsets

A string slice is taken at byte offsets.  An offset that is not at the boundary of two characters
has no slice: there the source would panic.
-/
import WorkspaceAtlas.Text.Chars

namespace Text

variable {a b r s pat : List Char} {c : Char} {n : ℕ}

lemma byteLen_head (c : Char) (s : List Char) : byteLen (c :: s) = c.utf8Size + byteLen s := by
  rw [byteLen, List.map_cons, List.sum_cons]
  rfl

lemma byteLen_add (a b : List Char) : byteLen (a ++ b) = byteLen a + byteLen b := by
  rw [byteLen, List.map_append, List.sum_append]
  rfl

/-! ## Slices -/

/-- `&s[..n]`. -/
def sliceTo : List Char → ℕ → Option (List Char)
  | _, 0 => some []
  | [], _ + 1 => none
  | c :: s, n + 1 =>
    if c.utf8Size ≤ n + 1 then (sliceTo s (n + 1 - c.utf8Size)).map (c :: ·) else none

/-- `&s[n..]`. -/
def sliceFrom : List Char → ℕ → Option (List Char)
  | s, 0 => some s
  | [], _ + 1 => none
  | c :: s, n + 1 => if c.utf8Size ≤ n + 1 then sliceFrom s (n + 1 - c.utf8Size) else none

/-- `&s[i..j]`. -/
def slice (s : List Char) (i j : ℕ) : Option (List Char) :=
  if i ≤ j then (sliceFrom s i).bind fun tail => sliceTo tail (j - i) else none

/-- An offset that has a slice is the length of what stands before it. -/
lemma sliceFrom_eq_some_iff : sliceFrom s n = some r ↔ ∃ a, s = a ++ r ∧ byteLen a = n := by
  induction s generalizing n with
  | nil =>
    cases n with
    | zero => simp [sliceFrom, byteLen, eq_comm]
    | succ n =>
      refine iff_of_false (by simp [sliceFrom]) ?_
      rintro ⟨a, ha, hn⟩
      obtain ⟨rfl, -⟩ := List.nil_eq_append_iff.mp ha
      exact absurd hn (Nat.succ_ne_zero n).symm
  | cons c s ih =>
    have hpos := c.utf8Size_pos
    cases n with
    | zero =>
      rw [sliceFrom, Option.some.injEq]
      constructor
      · rintro rfl
        exact ⟨[], rfl, rfl⟩
      · rintro ⟨a, ha, hn⟩
        cases a with
        | nil => exact ha
        | cons d a =>
          have hd := d.utf8Size_pos
          rw [byteLen_head] at hn
          omega
    | succ n =>
      rw [sliceFrom]
      constructor
      · intro h
        split at h
        next hle =>
          obtain ⟨a, rfl, ha⟩ := ih.mp h
          exact ⟨c :: a, rfl, by rw [byteLen_head]; omega⟩
        next => exact absurd h (by simp)
      · rintro ⟨a, ha, hn⟩
        cases a with
        | nil => exact absurd hn (Nat.succ_ne_zero n).symm
        | cons d a =>
          obtain ⟨rfl, rfl⟩ := List.cons.inj ha
          rw [byteLen_head] at hn
          rw [if_pos (by omega)]
          exact ih.mpr ⟨a, rfl, by omega⟩

lemma sliceTo_eq_some_iff : sliceTo s n = some r ↔ ∃ b, s = r ++ b ∧ byteLen r = n := by
  induction s generalizing n r with
  | nil =>
    cases n with
    | zero =>
      rw [sliceTo, Option.some.injEq]
      constructor
      · rintro rfl
        exact ⟨[], rfl, rfl⟩
      · rintro ⟨b, hb, -⟩
        exact (List.nil_eq_append_iff.mp hb).1.symm
    | succ n =>
      refine iff_of_false (by simp [sliceTo]) ?_
      rintro ⟨b, hb, hn⟩
      obtain ⟨rfl, -⟩ := List.nil_eq_append_iff.mp hb
      exact absurd hn (Nat.succ_ne_zero n).symm
  | cons c s ih =>
    have hpos := c.utf8Size_pos
    cases n with
    | zero =>
      rw [sliceTo, Option.some.injEq]
      constructor
      · rintro rfl
        exact ⟨c :: s, rfl, rfl⟩
      · rintro ⟨b, -, hn⟩
        cases r with
        | nil => rfl
        | cons d r =>
          have hd := d.utf8Size_pos
          rw [byteLen_head] at hn
          omega
    | succ n =>
      rw [sliceTo]
      constructor
      · intro h
        split at h
        next hle =>
          obtain ⟨t, ht, rfl⟩ := Option.map_eq_some_iff.mp h
          obtain ⟨b, rfl, hn⟩ := ih.mp ht
          exact ⟨b, rfl, by rw [byteLen_head]; omega⟩
        next => exact absurd h (by simp)
      · rintro ⟨b, hb, hn⟩
        cases r with
        | nil => exact absurd hn (Nat.succ_ne_zero n).symm
        | cons d r =>
          obtain ⟨rfl, rfl⟩ := List.cons.inj hb
          rw [byteLen_head] at hn
          rw [if_pos (by omega)]
          exact Option.map_eq_some_iff.mpr ⟨r, ih.mpr ⟨b, rfl, by omega⟩, rfl⟩

lemma sliceFrom_append (a b : List Char) : sliceFrom (a ++ b) (byteLen a) = some b :=
  sliceFrom_eq_some_iff.mpr ⟨a, rfl, rfl⟩

lemma sliceTo_append (a b : List Char) : sliceTo (a ++ b) (byteLen a) = some a :=
  sliceTo_eq_some_iff.mpr ⟨b, rfl, rfl⟩

lemma slice_append (a b r : List Char) :
    slice (a ++ (b ++ r)) (byteLen a) (byteLen a + byteLen b) = some b := by
  rw [slice, if_pos (Nat.le_add_right _ _), sliceFrom_append, Option.bind_some,
    Nat.add_sub_cancel_left, sliceTo_append]

/-! ## Searching -/

/-- `str::find`: the offset of the first occurrence. -/
def find (pat : List Char) : List Char → Option ℕ
  | [] => if pat = [] then some 0 else none
  | c :: s => if pat <+: c :: s then some 0 else (find pat s).map (c.utf8Size + ·)

/-- The first occurrence: what stands before it is the shortest front before one. -/
lemma find_eq_some (h : find pat s = some n) :
    ∃ a b, s = a ++ (pat ++ b) ∧ byteLen a = n ∧
      ∀ a' b', s = a' ++ (pat ++ b') → a.length ≤ a'.length := by
  induction s generalizing n with
  | nil =>
    rw [find] at h
    split at h
    next hpat =>
      subst hpat
      obtain rfl := Option.some.inj h
      exact ⟨[], [], rfl, rfl, fun _ _ _ => Nat.zero_le _⟩
    next => exact absurd h (by simp)
  | cons c s ih =>
    rw [find] at h
    split at h
    next hprefix =>
      obtain ⟨b, hb⟩ := hprefix
      obtain rfl := Option.some.inj h
      exact ⟨[], b, hb.symm, rfl, fun _ _ _ => Nat.zero_le _⟩
    next hprefix =>
      obtain ⟨m, hm, rfl⟩ := Option.map_eq_some_iff.mp h
      obtain ⟨a, b, rfl, rfl, hfirst⟩ := ih hm
      refine ⟨c :: a, b, rfl, byteLen_head c a, fun a' b' heq => ?_⟩
      cases a' with
      | nil => exact absurd ⟨b', heq.symm⟩ hprefix
      | cons d a' =>
        exact Nat.succ_le_succ (hfirst a' b' (List.cons.inj heq).2)

lemma find_eq_none_iff : find pat s = none ↔ ∀ a b, s ≠ a ++ (pat ++ b) := by
  induction s with
  | nil =>
    rw [find]
    constructor
    · intro h a b heq
      obtain ⟨-, hb⟩ := List.nil_eq_append_iff.mp heq
      obtain ⟨rfl, -⟩ := List.append_eq_nil_iff.mp hb
      exact absurd h (by simp)
    · intro h
      exact if_neg fun hpat => h [] [] (by rw [hpat]; rfl)
  | cons c s ih =>
    rw [find]
    constructor
    · intro h a b heq
      split at h
      next => exact absurd h (by simp)
      next hprefix =>
        cases a with
        | nil => exact hprefix ⟨b, heq.symm⟩
        | cons d a =>
          exact ih.mp (Option.map_eq_none_iff.mp h) a b (List.cons.inj heq).2
    · intro h
      have hprefix : ¬ pat <+: c :: s := fun ⟨b, hb⟩ => h [] b hb.symm
      rw [if_neg hprefix, Option.map_eq_none_iff, ih]
      exact fun a b heq => h (c :: a) b (by rw [heq]; rfl)

end Text
