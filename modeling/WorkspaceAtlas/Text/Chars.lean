/-
# Strings as lists of characters

The string functions of the source's standard library that the model uses, over the list of
the characters of a string.
-/
import Mathlib.Algebra.Order.Ring.Nat
import Mathlib.Data.List.Basic
import Mathlib.Data.Int.Notation
import Mathlib.Data.Nat.Notation
import Mathlib.Tactic.Common

namespace Text

/-- A statement about the characters of a text is decided over the text, not over all characters. -/
instance (priority := 1100) decidableBAllChars (p : Char → Prop) [DecidablePred p]
    (s : List Char) : Decidable (∀ c ∈ s, p c) :=
  List.decidableBAll p s

/-- `str::rsplit_once`: around the last separator. -/
def rsplitOnce (sep : Char) (s : List Char) : Option (List Char × List Char) :=
  if sep ∈ s then
    some ((s.reverse.dropWhile fun ch => ch ≠ sep).tail.reverse,
      (s.reverse.takeWhile fun ch => ch ≠ sep).reverse)
  else none

/-- `s.rsplit(sep).next()`: what follows the last separator. -/
def afterLast (sep : Char) (s : List Char) : List Char :=
  (s.reverse.takeWhile fun ch => ch ≠ sep).reverse

/-- `str::to_ascii_lowercase`. -/
def toAsciiLowercase (s : List Char) : List Char := s.map Char.toLower

/-- `str::replace` of one character by another. -/
def replaceChar (old new : Char) (s : String) : String :=
  String.ofList (s.toList.map fun ch => if ch = old then new else ch)

/-- `str::split_inclusive`: every piece but the last ends with the separator. -/
def splitInclusive (sep : Char) : List Char → List (List Char)
  | [] => []
  | ch :: rest =>
    if ch = sep then [ch] :: splitInclusive sep rest
    else
      match splitInclusive sep rest with
      | [] => [[ch]]
      | piece :: pieces => (ch :: piece) :: pieces

/-- `str::trim_end_matches`. -/
def trimEndMatches (p : Char → Bool) (s : List Char) : List Char :=
  (s.reverse.dropWhile p).reverse

/-- A text that has been trimmed ends in nothing to trim. -/
lemma not_of_mem_getLast?_trimEndMatches {p : Char → Bool} {s : List Char} {ch : Char}
    (h : ch ∈ (trimEndMatches p s).getLast?) : p ch = false := by
  rw [trimEndMatches, List.getLast?_reverse] at h
  have hnot := List.head?_dropWhile_not p s.reverse
  rwa [Option.mem_def.mp h] at hnot

lemma trimEndMatches_eq_self {p : Char → Bool} {s : List Char}
    (h : ∀ ch ∈ s.getLast?, p ch = false) : trimEndMatches p s = s := by
  rw [← List.head?_reverse] at h
  rw [trimEndMatches, List.reverse_eq_iff]
  cases hrev : s.reverse with
  | nil => rfl
  | cons ch rest =>
    have hch : p ch = false := h ch (by rw [hrev]; rfl)
    rw [List.dropWhile_cons, if_neg (by simp [hch])]

/-- `str::len`: the number of bytes. -/
def byteLen (s : List Char) : ℕ := (s.map Char.utf8Size).sum

/-- What stands before the first separator, and what stands behind it. -/
lemma append_sep_inj {α : Type*} [DecidableEq α] {sep : α} {a b r s : List α} (ha : sep ∉ a)
    (hb : sep ∉ b) (h : a ++ sep :: r = b ++ sep :: s) : a = b ∧ r = s := by
  have hsplit := congrArg (List.splitOn sep) h
  rw [List.splitOn_append_cons_self_of_not_mem ha, List.splitOn_append_cons_self_of_not_mem hb]
    at hsplit
  obtain ⟨rfl, -⟩ := List.cons.inj hsplit
  exact ⟨rfl, (List.cons.inj (List.append_cancel_left h)).2⟩

end Text
