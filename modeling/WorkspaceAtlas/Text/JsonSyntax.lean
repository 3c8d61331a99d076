/-
# The syntax of JSON documents

Documents with their white space.  The leaves are matches of expressions; what is nested is a
family over its kind, so that one induction goes through values, items and members.  The members
of an object have names at their places in the text.
-/
import WorkspaceAtlas.Text.Bytes
import WorkspaceAtlas.Text.Regex

namespace Text

namespace Regex

/-! ## Leaves -/

def whitespace : Regex := .star (.chars (· ∈ [' ', '\t', '\n', '\r']))

def digit : Regex := .chars Char.isDigit

def hexadecimal : Regex :=
  .chars fun c => c.isDigit || ('a' ≤ c && c ≤ 'f') || ('A' ≤ c && c ≤ 'F')

def jsonNumber : Regex :=
  .seq (.opt (.chars (· = '-'))) (.seq (.alt (.chars (· = '0'))
    (.seq (.chars fun c => c.isDigit && c ≠ '0') (.star digit)))
    (.seq (.opt (.seq (.chars (· = '.')) (.plus digit)))
      (.opt (.seq (.chars (· ∈ ['e', 'E'])) (.seq (.opt (.chars (· ∈ ['+', '-'])))
        (.plus digit))))))

/-- Numbers, truth values and `null`. -/
def jsonScalar : Regex :=
  .alt (.word "true".toList) (.alt (.word "false".toList)
    (.alt (.word "null".toList) jsonNumber))

/-- A character of a string that stands for itself. -/
def isUnescaped (c : Char) : Bool := ' ' ≤ c && c ≠ '"' && c ≠ '\\'

/-- A character of a string as it is written. -/
def jsonChar : Regex :=
  .alt (.chars isUnescaped) (.seq (.chars (· = '\\'))
    (.alt (.chars (· ∈ ['"', '\\', '/', 'b', 'f', 'n', 'r', 't']))
      (.seq (.chars (· = 'u'))
        (.seq hexadecimal (.seq hexadecimal (.seq hexadecimal hexadecimal))))))

/-- What stands between the quotes of a string. -/
def jsonRaw : Regex := .star jsonChar

/-- The texts that an expression matches. -/
abbrev Matched (r : Regex) := {l : List Char // Matches r l}

end Regex

open Regex

/-! ## Values -/

/-- A value, the items of an array behind the first one, or the members of an object behind the
first one. -/
inductive JsonKind where
  | value
  | items
  | members
  deriving DecidableEq, Repr

/-- The syntax of a kind, with the white space. -/
inductive JsonSyntax : JsonKind → Type
  | scalar (s : Matched jsonScalar) : JsonSyntax .value
  | str (raw : Matched jsonRaw) : JsonSyntax .value
  | emptyArr (w : Matched whitespace) : JsonSyntax .value
  | arr (w : Matched whitespace) (v : JsonSyntax .value) (w' : Matched whitespace)
      (rest : JsonSyntax .items) : JsonSyntax .value
  | emptyObj (w : Matched whitespace) : JsonSyntax .value
  | obj (w : Matched whitespace) (name : Matched jsonRaw) (w₁ w₂ : Matched whitespace)
      (v : JsonSyntax .value) (w' : Matched whitespace) (rest : JsonSyntax .members) :
      JsonSyntax .value
  | noItem : JsonSyntax .items
  | item (w : Matched whitespace) (v : JsonSyntax .value) (w' : Matched whitespace)
      (rest : JsonSyntax .items) : JsonSyntax .items
  | noMember : JsonSyntax .members
  | member (w : Matched whitespace) (name : Matched jsonRaw) (w₁ w₂ : Matched whitespace)
      (v : JsonSyntax .value) (w' : Matched whitespace) (rest : JsonSyntax .members) :
      JsonSyntax .members

namespace JsonSyntax

variable {k : JsonKind}

/-- The text from the name of a member to its value. -/
def label (name w₁ w₂ : List Char) : List Char := '"' :: (name ++ '"' :: (w₁ ++ ':' :: w₂))

/-- The text; further items and members start with their comma. -/
def text : {k : JsonKind} → JsonSyntax k → List Char
  | _, scalar s => s.1
  | _, str raw => '"' :: (raw.1 ++ ['"'])
  | _, emptyArr w => '[' :: (w.1 ++ [']'])
  | _, arr w v w' rest => '[' :: (w.1 ++ (v.text ++ (w'.1 ++ (rest.text ++ [']']))))
  | _, emptyObj w => '\x7b' :: (w.1 ++ ['\x7d'])
  | _, obj w name w₁ w₂ v w' rest =>
    '\x7b' :: (w.1 ++ (label name.1 w₁.1 w₂.1 ++ (v.text ++ (w'.1 ++ (rest.text ++ ['\x7d'])))))
  | _, noItem => []
  | _, item w v w' rest => ',' :: (w.1 ++ (v.text ++ (w'.1 ++ rest.text)))
  | _, noMember => []
  | _, member w name w₁ w₂ v w' rest =>
    ',' :: (w.1 ++ (label name.1 w₁.1 w₂.1 ++ (v.text ++ (w'.1 ++ rest.text))))

/-- What stands before the further members: a first character and a member. -/
def front (c : Char) (w name w₁ w₂ v w' : List Char) : List Char :=
  c :: (w ++ (label name w₁ w₂ ++ (v ++ w')))

/-- The names of the members of an object, as they are written, with the offsets of their opening
quotes if the syntax starts at the offset `o`. -/
def names : {k : JsonKind} → JsonSyntax k → ℕ → List (List Char × ℕ)
  | _, obj w name w₁ w₂ v w' rest, o =>
    (name.1, o + byteLen ('\x7b' :: w.1)) ::
      rest.names (o + byteLen (front '\x7b' w.1 name.1 w₁.1 w₂.1 v.text w'.1))
  | _, member w name w₁ w₂ v w' rest, o =>
    (name.1, o + byteLen (',' :: w.1)) ::
      rest.names (o + byteLen (front ',' w.1 name.1 w₁.1 w₂.1 v.text w'.1))
  | _, _, _ => []

/-- The value is a string. -/
def isStr : {k : JsonKind} → JsonSyntax k → Bool
  | _, str _ => true
  | _, _ => false

end JsonSyntax

/-- A document: a value in white space. -/
structure JsonDocument where
  front : Matched whitespace
  value : JsonSyntax .value
  back : Matched whitespace

namespace JsonDocument

def text (d : JsonDocument) : List Char := d.front.1 ++ (d.value.text ++ d.back.1)

/-- The names of the members of the root. -/
def names (d : JsonDocument) : List (List Char × ℕ) := d.value.names (byteLen d.front.1)

end JsonDocument

/-! ## Places of names -/

namespace JsonSyntax

variable {k : JsonKind} {s : List Char} {o : ℕ}

/-- Where a name is said to be, it stands in its quotes. -/
def Quoted (s : List Char) (p : List Char × ℕ) : Prop :=
  slice s p.2 (p.2 + byteLen p.1 + 2) = some ('"' :: (p.1 ++ ['"']))

lemma quoted_label {a b : List Char} (name w₁ w₂ : List Char)
    (hs : s = a ++ (label name w₁ w₂ ++ b)) : Quoted s (name, byteLen a) := by
  have hslice := slice_append a ('"' :: (name ++ ['"'])) (w₁ ++ ':' :: (w₂ ++ b))
  have hquote : ('"' : Char).utf8Size = 1 := by decide
  have hlen : byteLen ('"' :: (name ++ ['"'])) = byteLen name + 2 := by
    rw [byteLen_head, byteLen_add, hquote]
    have hone : byteLen ['"'] = 1 := by decide
    omega
  rw [hlen, ← Nat.add_assoc] at hslice
  rw [Quoted, hs, label]
  simp only [List.cons_append, List.append_assoc, List.nil_append] at hslice ⊢
  exact hslice

/-- The name of a member, and the places of the further ones. -/
lemma quoted_member {c : Char} {w name w₁ w₂ v w' a b : List Char}
    {rest : ℕ → List (List Char × ℕ)}
    (hs : s = a ++ (front c w name w₁ w₂ v w' ++ b))
    (hrest : ∀ p ∈ rest (byteLen (a ++ front c w name w₁ w₂ v w')), Quoted s p) :
    ∀ p ∈ (name, byteLen a + byteLen (c :: w)) ::
      rest (byteLen a + byteLen (front c w name w₁ w₂ v w')), Quoted s p := by
  rw [byteLen_add] at hrest
  refine List.forall_mem_cons.mpr ⟨?_, hrest⟩
  rw [← byteLen_add]
  refine quoted_label name w₁ w₂ (b := v ++ (w' ++ b)) ?_
  rw [hs, front]
  simp only [List.cons_append, List.append_assoc]

/-- **Places of names** are right. -/
lemma quoted_of_mem_names (x : JsonSyntax k) {a b : List Char} (hs : s = a ++ (x.text ++ b)) :
    ∀ p ∈ x.names (byteLen a), Quoted s p := by
  induction x generalizing a b with
  | obj w name w₁ w₂ v w' rest _ ih =>
    rw [names]
    refine quoted_member (b := rest.text ++ ('\x7d' :: b)) ?_ (ih (b := '\x7d' :: b) ?_)
    · rw [hs, text, front]
      simp only [List.cons_append, List.append_assoc, List.nil_append]
    · rw [hs, text, front]
      simp only [List.cons_append, List.append_assoc, List.nil_append]
  | member w name w₁ w₂ v w' rest _ ih =>
    rw [names]
    refine quoted_member (b := rest.text ++ b) ?_ (ih (b := b) ?_)
    · rw [hs, text, front]
      simp only [List.cons_append, List.append_assoc]
    · rw [hs, text, front]
      simp only [List.cons_append, List.append_assoc]
  | _ => exact fun p hp => absurd hp List.not_mem_nil

end JsonSyntax

end Text
