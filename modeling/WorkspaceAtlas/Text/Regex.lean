/-
# Regular expressions

The texts that an expression matches, by its structure.  Which of the matches an engine finds, and
in which order, is left open.
-/
import Mathlib.Data.List.Basic
import Mathlib.Tactic.Common

namespace Text

/-- An expression; the classes of characters are predicates. -/
inductive Regex where
  | empty
  | chars (p : Char → Bool)
  | seq (r s : Regex)
  | alt (r s : Regex)
  | opt (r : Regex)
  | star (r : Regex)

namespace Regex

/-- `r+`. -/
def plus (r : Regex) : Regex := seq r (star r)

/-- The characters of a word, one after the other. -/
def word : List Char → Regex
  | [] => empty
  | c :: w => seq (chars (· = c)) (word w)

/-- The expression matches the text. -/
inductive Matches : Regex → List Char → Prop
  | empty : Matches .empty []
  | chars {p : Char → Bool} {c : Char} (h : p c = true) : Matches (.chars p) [c]
  | seq {r s : Regex} {a b : List Char} (ha : Matches r a) (hb : Matches s b) :
      Matches (.seq r s) (a ++ b)
  | left {r s : Regex} {a : List Char} (h : Matches r a) : Matches (.alt r s) a
  | right {r s : Regex} {a : List Char} (h : Matches s a) : Matches (.alt r s) a
  | none {r : Regex} : Matches (.opt r) []
  | some {r : Regex} {a : List Char} (h : Matches r a) : Matches (.opt r) a
  | nil {r : Regex} : Matches (.star r) []
  | cons {r : Regex} {a b : List Char} (ha : Matches r a) (hb : Matches (.star r) b) :
      Matches (.star r) (a ++ b)

/-- The characters that a match can have satisfy the property. -/
def Within (P : Char → Prop) : Regex → Prop
  | .empty => True
  | .chars p => ∀ c, p c = true → P c
  | .seq r s => r.Within P ∧ s.Within P
  | .alt r s => r.Within P ∧ s.Within P
  | .opt r => r.Within P
  | .star r => r.Within P

variable {P : Char → Prop} {r s : Regex} {a w : List Char} {c : Char}

lemma Matches.forall_mem (h : Matches r a) (hr : r.Within P) : ∀ c ∈ a, P c := by
  induction h with
  | empty => exact fun c hc => absurd hc List.not_mem_nil
  | chars h =>
    intro c hc
    rw [List.mem_singleton.mp hc]
    exact hr _ h
  | seq _ _ iha ihb =>
    intro c hc
    exact (List.mem_append.mp hc).elim (iha hr.1 c) (ihb hr.2 c)
  | left _ ih => exact ih hr.1
  | right _ ih => exact ih hr.2
  | none => exact fun c hc => absurd hc List.not_mem_nil
  | some _ ih => exact ih hr
  | nil => exact fun c hc => absurd hc List.not_mem_nil
  | cons _ _ iha ihb =>
    intro c hc
    exact (List.mem_append.mp hc).elim (iha hr c) (ihb hr c)

/-- Repetitions one after the other. -/
lemma Matches.exists_parts (h : Matches (.star r) a) :
    ∃ parts : List (List Char), a = parts.flatten ∧ ∀ part ∈ parts, Matches r part := by
  generalize hs : Regex.star r = s at h
  induction h with
  | nil => exact ⟨[], rfl, fun part hpart => absurd hpart List.not_mem_nil⟩
  | cons ha _ _ ihb =>
    obtain ⟨parts, rfl, hparts⟩ := ihb hs
    cases hs
    exact ⟨_ :: parts, rfl, List.forall_mem_cons.mpr ⟨ha, hparts⟩⟩
  | _ => exact absurd hs (by simp)

lemma within_plus (h : r.Within P) : (plus r).Within P := ⟨h, h⟩

lemma within_word (h : ∀ c ∈ w, P c) : (word w).Within P := by
  induction w with
  | nil => trivial
  | cons c w ih =>
    refine ⟨fun d hd => ?_, ih fun d hd => h d (List.mem_cons_of_mem c hd)⟩
    rw [of_decide_eq_true hd]
    exact h c List.mem_cons_self

lemma matches_word (w : List Char) : Matches (word w) w := by
  induction w with
  | nil => exact .empty
  | cons c w ih => exact .seq (.chars (p := (· = c)) (decide_eq_true rfl)) ih

end Regex

end Text
