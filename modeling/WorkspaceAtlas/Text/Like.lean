/-
# Patterns of `LIKE`

SQLite's `LIKE` without an escape character: `%` stands for any text, `_` for any character,
and letters of ASCII are compared without their case.
-/
import WorkspaceAtlas.Text.Chars
import Mathlib.Data.List.Infix

namespace Text

/-- `text LIKE pattern`. -/
def like : List Char → List Char → Bool
  | [], text => text.isEmpty
  | c :: pattern, text =>
    if c = '%' then text.tails.any (like pattern)
    else
      match text with
      | [] => false
      | d :: rest => (c = '_' || c.toLower = d.toLower) && like pattern rest

/-- `str::trim_start_matches` of two characters. -/
def trimStartMatches (a b : Char) : List Char → List Char
  | c :: d :: rest => if c = a ∧ d = b then trimStartMatches a b rest else c :: d :: rest
  | rest => rest

variable {pattern text : List Char}

/-- A leading `%` takes any text away. -/
lemma like_percent :
    like ('%' :: pattern) text = true ↔ ∃ rest, rest <:+ text ∧ like pattern rest = true := by
  rw [like.eq_def]
  simp only [if_true, List.any_eq_true, List.mem_tails]

end Text
