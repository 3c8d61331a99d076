/-
# Lines of a text

`splitInclusive` and `afterLast` by the separators of a text: a text is its last line, or a line
with the separator behind it and a text.  A place in a text is given by what stands before and
behind it; the separators before it and what follows the last of them determine it, measured by
any positive size of the characters.
-/
import Mathlib.Data.List.Infix
import Mathlib.Data.List.TakeWhile
import WorkspaceAtlas.Text.Chars

namespace Text

variable {sep : Char} {before after seg rest text : List Char}

/-! ## Line by line -/

/-- Induction on the lines of a text. -/
theorem line_induction {P : List Char → Prop} (sep : Char) (last : ∀ seg, sep ∉ seg → P seg)
    (line : ∀ seg rest, sep ∉ seg → P rest → P (seg ++ sep :: rest)) (text : List Char) :
    P text := by
  induction hn : text.length using Nat.strong_induction_on generalizing text with
  | _ n ih =>
    by_cases hsep : sep ∈ text
    · obtain ⟨seg, rest, rfl, hseg⟩ := List.eq_append_cons_of_mem hsep
      refine line seg rest hseg (ih rest.length ?_ rest rfl)
      rw [← hn, List.length_append, List.length_cons]
      omega
    · exact last text hsep

lemma splitInclusive_line (hseg : sep ∉ seg) :
    splitInclusive sep (seg ++ sep :: rest) = (seg ++ [sep]) :: splitInclusive sep rest := by
  induction seg with
  | nil => simp [splitInclusive]
  | cons ch seg ih =>
    rw [List.mem_cons, not_or] at hseg
    rw [List.cons_append, splitInclusive, if_neg (Ne.symm hseg.1), ih hseg.2]
    rfl

lemma splitInclusive_last (hseg : sep ∉ seg) (hne : seg ≠ []) :
    splitInclusive sep seg = [seg] := by
  induction seg with
  | nil => exact absurd rfl hne
  | cons ch seg ih =>
    rw [List.mem_cons, not_or] at hseg
    rw [splitInclusive, if_neg (Ne.symm hseg.1)]
    cases seg with
    | nil => rfl
    | cons d seg => rw [ih hseg.2 (by simp)]

@[simp] lemma afterLast_nil : afterLast sep [] = [] := rfl

lemma afterLast_last (hseg : sep ∉ seg) : afterLast sep seg = seg := by
  rw [afterLast, List.takeWhile_eq_self_iff.mpr, List.reverse_reverse]
  intro ch hch
  refine decide_eq_true ?_
  rintro rfl
  exact hseg (List.mem_reverse.mp hch)

/-- What is taken stops at a character that is not, at the latest. -/
lemma takeWhile_append_cons {p : Char → Bool} {ch : Char} (hch : p ch = false)
    (s t : List Char) : (s ++ ch :: t).takeWhile p = s.takeWhile p := by
  induction s with
  | nil => rw [List.nil_append, List.takeWhile_cons, hch]; rfl
  | cons d s ih => rw [List.cons_append, List.takeWhile_cons, List.takeWhile_cons, ih]

lemma afterLast_line : afterLast sep (seg ++ sep :: rest) = afterLast sep rest := by
  rw [afterLast, List.reverse_append, List.reverse_cons, List.append_assoc,
    List.singleton_append, takeWhile_append_cons (by simp)]
  rfl

/-- The line that a place is in goes on or starts before it. -/
lemma append_eq_line (hseg : sep ∉ seg) (h : before ++ after = seg ++ sep :: rest) :
    (sep ∉ before ∧ ∃ more, seg = before ++ more ∧ after = more ++ sep :: rest) ∨
      ∃ before', before = seg ++ sep :: before' ∧ before' ++ after = rest := by
  rcases List.append_eq_append_iff.mp h with ⟨more, rfl, hafter⟩ | ⟨more, rfl, hrest⟩
  · exact .inl ⟨fun hmem => hseg (List.mem_append_left _ hmem), more, rfl, hafter⟩
  · cases more with
    | nil =>
      rw [List.append_nil, List.nil_append] at *
      exact .inl ⟨hseg, [], (List.append_nil _).symm, hrest.symm⟩
    | cons ch more =>
      rw [List.cons_append, List.cons.injEq] at hrest
      obtain ⟨rfl, rfl⟩ := hrest
      exact .inr ⟨more, rfl, rfl⟩

lemma length_splitInclusive (sep : Char) (text : List Char) : (splitInclusive sep text).length =
    text.count sep + if afterLast sep text = [] then 0 else 1 := by
  induction text using line_induction sep with
  | last seg hseg =>
    rw [afterLast_last hseg, List.count_eq_zero_of_not_mem hseg]
    by_cases hne : seg = []
    · subst hne
      rfl
    · rw [splitInclusive_last hseg hne, if_neg hne]
      rfl
  | line seg rest hseg ih =>
    rw [splitInclusive_line hseg, afterLast_line, List.length_cons, ih, List.count_append,
      List.count_eq_zero_of_not_mem hseg, List.count_cons_self]
    omega

/-- A text ends with the separator if nothing follows the last one. -/
lemma getLast?_eq_sep_iff : text.getLast? = some sep ↔ text ≠ [] ∧ afterLast sep text = [] := by
  induction text using List.reverseRecOn with
  | nil => simp
  | append_singleton text ch ih =>
    by_cases hch : ch = sep
    · simp [afterLast, hch]
    · simp [afterLast, hch]

/-! ## Trimming -/

section Trim

variable {p : Char → Bool}

lemma trimEndMatches_append_of_pos (h : ∀ ch ∈ after, p ch = true) :
    trimEndMatches p (before ++ after) = trimEndMatches p before := by
  rw [trimEndMatches, List.reverse_append,
    List.dropWhile_append_of_pos fun ch hch => h ch (List.mem_reverse.mp hch)]
  rfl

lemma trimEndMatches_append_of_exists (h : ∃ ch ∈ after, p ch = false) :
    trimEndMatches p (before ++ after) = before ++ trimEndMatches p after := by
  obtain ⟨ch, hch, hp⟩ := h
  have hne : (after.reverse.dropWhile p).isEmpty = false := by
    rw [Bool.eq_false_iff]
    intro hempty
    have hall := List.dropWhile_eq_nil_iff.mp (List.isEmpty_iff.mp hempty)
    rw [hall ch (List.mem_reverse.mpr hch)] at hp
    exact absurd hp (by simp)
  rw [trimEndMatches, List.reverse_append, List.dropWhile_append, hne]
  simp [trimEndMatches]

lemma prefix_trimEndMatches (p : Char → Bool) (text : List Char) :
    trimEndMatches p text <+: text := by
  rw [trimEndMatches, ← List.reverse_suffix, List.reverse_reverse]
  exact List.dropWhile_suffix p

/-- The front of a text is left by trimming if something behind it is, or it ends in nothing to
trim. -/
lemma prefix_trimEndMatches_iff : before <+: trimEndMatches p (before ++ after) ↔
    (∃ ch ∈ after, p ch = false) ∨ ∀ ch ∈ before.getLast?, p ch = false := by
  by_cases hafter : ∃ ch ∈ after, p ch = false
  · rw [trimEndMatches_append_of_exists hafter]
    exact iff_of_true (List.prefix_append _ _) (.inl hafter)
  · have hall : ∀ ch ∈ after, p ch = true := by
      intro ch hch
      by_contra hp
      exact hafter ⟨ch, hch, by simpa using hp⟩
    rw [trimEndMatches_append_of_pos hall, or_iff_right hafter]
    constructor
    · intro hleft ch hch
      have heq := hleft.eq_of_length_le (prefix_trimEndMatches p before).length_le
      rw [heq] at hch
      exact not_of_mem_getLast?_trimEndMatches hch
    · intro hlast
      rw [trimEndMatches_eq_self hlast]

end Trim

/-! ## Measures -/

section Measure

variable {size : Char → ℕ}

/-- Of two fronts of a text, the one that measures no more is a front of the other. -/
lemma prefix_of_measure_le (hpos : ∀ ch, 0 < size ch) {a b : List Char} (ha : a <+: text)
    (hb : b <+: text) (h : (a.map size).sum ≤ (b.map size).sum) : a <+: b := by
  rcases List.prefix_or_prefix_of_prefix ha hb with hab | ⟨more, rfl⟩
  · exact hab
  · cases more with
    | nil => rw [List.append_nil]
    | cons ch more =>
      have hch := hpos ch
      rw [List.map_append, List.sum_append, List.map_cons, List.sum_cons] at h
      omega

/-- Two places in one line are told apart by the measure of what stands before them. -/
lemma prefix_of_line_le (hpos : ∀ ch, 0 < size ch) {a b : List Char} (ha : a <+: text)
    (hb : b <+: text) (hcount : a.count sep = b.count sep)
    (h : ((afterLast sep a).map size).sum ≤ ((afterLast sep b).map size).sum) : a <+: b := by
  induction text using line_induction sep generalizing a b with
  | last seg hseg =>
    rw [afterLast_last fun hmem => hseg (ha.mem hmem),
      afterLast_last fun hmem => hseg (hb.mem hmem)] at h
    exact prefix_of_measure_le hpos ha hb h
  | line seg rest hseg ih =>
    obtain ⟨behindA, hbehindA⟩ := ha
    obtain ⟨behindB, hbehindB⟩ := hb
    rcases append_eq_line hseg hbehindA with ⟨hsepA, moreA, hsegA, -⟩ | ⟨a', rfl, hrestA⟩
    · have hzero := List.count_eq_zero_of_not_mem hsepA
      rcases append_eq_line hseg hbehindB with ⟨hsepB, moreB, hsegB, -⟩ | ⟨b', rfl, -⟩
      · rw [afterLast_last hsepA, afterLast_last hsepB] at h
        exact prefix_of_measure_le hpos ⟨moreA, hsegA.symm⟩ ⟨moreB, hsegB.symm⟩ h
      · -- the other place is in a later line
        rw [hzero, List.count_append, List.count_cons_self] at hcount
        omega
    · rcases append_eq_line hseg hbehindB with ⟨hsepB, -⟩ | ⟨b', rfl, hrestB⟩
      · rw [List.count_eq_zero_of_not_mem hsepB, List.count_append,
          List.count_cons_self] at hcount
        omega
      · rw [List.count_append, List.count_append, List.count_cons_self,
          List.count_cons_self] at hcount
        rw [afterLast_line, afterLast_line] at h
        obtain ⟨more, hmore⟩ := ih ⟨behindA, hrestA⟩ ⟨behindB, hrestB⟩ (by omega) h
        exact ⟨more, by rw [List.append_assoc, List.cons_append, hmore]⟩

end Measure

end Text
