/-
# Searching for an expression

Expressions that are searched for in a text: a start that may have to be a start of a segment, any
characters of one line, a row of atoms, and an end that may have to be the end of the text.  They
are written as the regular expressions that they stand for.
-/
import WorkspaceAtlas.Text.Regex

namespace Text

open Regex

/-! ## Expressions -/

/-- A part of an expression: a character, a character that may be missing, one of several words,
or an extension of characters of a class. -/
inductive Atom where
  | lit (c : Char)
  | maybe (c : Char)
  | oneOf (words : List (List Char))
  | extension (className : String) (p : Char → Bool)

namespace Atom

/-- A character with the backslash that a dot needs. -/
def escaped (c : Char) : List Char := if c = '.' then ['\\', '.'] else [c]

/-- The atom as it is written. -/
def source : Atom → List Char
  | lit c => escaped c
  | maybe c => escaped c ++ ['?']
  | oneOf words => '(' :: (['|'].intercalate words ++ [')'])
  | extension className _ => "(\\.[".toList ++ className.toList ++ "]+)?".toList

/-- One of several words. -/
def anyWord : List (List Char) → Regex
  | [] => .chars fun _ => false
  | [w] => .word w
  | w :: words => .alt (.word w) (anyWord words)

/-- What the atom matches. -/
def regex : Atom → Regex
  | lit c => .chars (· = c)
  | maybe c => .opt (.chars (· = c))
  | oneOf words => anyWord words
  | extension _ p => .opt (.seq (.chars (· = '.')) (.plus (.chars p)))

/-- The atom matches without the character. -/
def Avoids (c : Char) : Atom → Prop
  | lit d => d ≠ c
  | maybe d => d ≠ c
  | oneOf words => ∀ w ∈ words, c ∉ w
  | extension _ p => '.' ≠ c ∧ p c = false

instance (c : Char) : (atom : Atom) → Decidable (atom.Avoids c)
  | lit d => inferInstanceAs (Decidable (d ≠ c))
  | maybe d => inferInstanceAs (Decidable (d ≠ c))
  | oneOf words => inferInstanceAs (Decidable (∀ w ∈ words, c ∉ w))
  | extension _ p => inferInstanceAs (Decidable ('.' ≠ c ∧ p c = false))

lemma within_anyWord {P : Char → Prop} {words : List (List Char)} (h : ∀ w ∈ words, ∀ c ∈ w, P c) :
    (anyWord words).Within P := by
  induction words with
  | nil => exact fun c hc => absurd hc Bool.false_ne_true
  | cons w words ih =>
    cases words with
    | nil => exact within_word (h w List.mem_cons_self)
    | cons w' words =>
      exact ⟨within_word (h w List.mem_cons_self),
        ih fun v hv => h v (List.mem_cons_of_mem w hv)⟩

lemma Avoids.within {c : Char} {atom : Atom} (h : atom.Avoids c) : atom.regex.Within (· ≠ c) := by
  cases atom with
  | lit d => exact fun e he => of_decide_eq_true he ▸ h
  | maybe d => exact fun e he => of_decide_eq_true he ▸ h
  | oneOf words =>
    refine within_anyWord fun w hw e he => ?_
    rintro rfl
    exact h w hw he
  | extension className p =>
    have hclass : (Regex.chars p).Within (· ≠ c) := by
      rintro e he rfl
      exact absurd (he.symm.trans h.2) (by decide)
    exact ⟨fun e he => of_decide_eq_true he ▸ h.1, hclass, hclass⟩

end Atom

/-- The atoms one after the other. -/
def rowOf : List Atom → Regex
  | [] => .empty
  | atom :: atoms => .seq atom.regex (rowOf atoms)

/-- What may stand between the start and the atoms. -/
inductive Dots where
  | none
  | plain
  | grouped
  deriving DecidableEq

def Dots.source : Dots → List Char
  | none => []
  | plain => ".*".toList
  | grouped => "(.*)".toList

/-- An expression. -/
structure Search where
  segment : Bool
  dots : Dots
  atoms : List Atom
  atEnd : Bool

namespace Search

/-- The expression as it is written. -/
def source (p : Search) : String :=
  String.ofList ((if p.segment then "(^|/)".toList else []) ++ p.dots.source ++
    p.atoms.flatMap Atom.source ++ if p.atEnd then ['$'] else [])

/-- The expression is found in the text. -/
def Found (p : Search) (s : List Char) : Prop :=
  ∃ a x m b, s = a ++ (x ++ (m ++ b)) ∧ (p.segment = true → a = [] ∨ a.getLast? = some '/') ∧
    (p.dots = .none → x = []) ∧ '\n' ∉ x ∧ Matches (rowOf p.atoms) m ∧ (p.atEnd = true → b = [])

variable {p : Search} {s t m : List Char} {c : Char} {atoms : List Atom}

/-- Without `$`, an expression is found in every longer text. -/
lemma Found.append (h : p.Found s) (hend : p.atEnd = false) (t : List Char) :
    p.Found (s ++ t) := by
  obtain ⟨a, x, m, b, rfl, hstart, hdots, hline, hm, -⟩ := h
  refine ⟨a, x, m, b ++ t, ?_, hstart, hdots, hline, hm, fun h => ?_⟩
  · simp only [List.append_assoc]
  · rw [hend] at h
    exact absurd h Bool.false_ne_true

/-- Atoms with a character of their own match no empty text. -/
lemma ne_nil_of_matches (h : Matches (rowOf atoms) m) (hlit : Atom.lit c ∈ atoms) : m ≠ [] := by
  induction atoms generalizing m with
  | nil => exact absurd hlit List.not_mem_nil
  | cons atom atoms ih =>
    cases h with
    | seq hatom hrest =>
      rcases List.mem_cons.mp hlit with rfl | hlit
      · cases hatom with
        | chars h => exact List.cons_ne_nil _ _
      · exact fun hnil => ih hrest hlit (List.append_eq_nil_iff.mp hnil).2

lemma within_rowOf (h : ∀ atom ∈ atoms, atom.Avoids c) : (rowOf atoms).Within (· ≠ c) := by
  induction atoms with
  | nil => trivial
  | cons atom atoms ih =>
    exact ⟨(h atom List.mem_cons_self).within,
      ih fun atom' hmem => h atom' (List.mem_cons_of_mem atom hmem)⟩

/-- With `$`, an expression is not found in a text that ends with another character. -/
lemma not_found_concat (hend : p.atEnd = true) (havoids : ∀ atom ∈ p.atoms, atom.Avoids c)
    (hlit : ∃ d, Atom.lit d ∈ p.atoms) : ¬ p.Found (s ++ [c]) := by
  rintro ⟨a, x, m, b, heq, -, -, -, hm, hb⟩
  obtain ⟨d, hd⟩ := hlit
  obtain rfl := hb hend
  have hne := ne_nil_of_matches hm hd
  have hlast : c ∈ m := by
    have hget := congrArg List.getLast? heq
    rw [List.getLast?_concat, List.append_nil, List.getLast?_append_of_ne_nil _ (by simp [hne]),
      List.getLast?_append_of_ne_nil _ hne] at hget
    exact List.mem_of_getLast? hget.symm
  exact hm.forall_mem (within_rowOf havoids) c hlast rfl

end Search

end Text
