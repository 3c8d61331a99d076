/-
# Debug text

`{:?}` of the standard library: a string between quotes with the characters escaped that are not
printed, and an optional value with its constructor.  Which characters are printed as they are,
and the decimal text of a float, are parameters.  What is printed can be read back, and no
character is in it that is not printed.
-/
import WorkspaceAtlas.Text.Chars
import Mathlib.Data.Nat.Digits.Defs
import Mathlib.Data.Rat.Defs

namespace Text

/-- The tables of the formatter. -/
structure DebugFormat where
  /-- Neither a control character nor one that joins the character before it. -/
  printable : Char → Bool
  float : ℚ → List Char

/-- The characters with a short escape. -/
def shortEscapes : List (Char × Char) :=
  [('\x00', '0'), ('\t', 't'), ('\r', 'r'), ('\n', 'n'), ('"', '"'), ('\\', '\\')]

/-- The short escape of a character. -/
def shortEscape (c : Char) : Option Char :=
  (shortEscapes.find? fun p => p.1 = c).map Prod.snd

/-- The hexadecimal text of a number. -/
def hexNumber (n : ℕ) : List Char := ((Nat.digits 16 n).map Nat.digitChar).reverse

namespace DebugFormat

variable (D : DebugFormat)

/-- `char::escape_debug`, as in a string. -/
def escapeDebug (c : Char) : List Char :=
  match shortEscape c with
  | some e => ['\\', e]
  | none => if D.printable c then [c] else '\\' :: 'u' :: '\x7b' :: hexNumber c.toNat ++ ['\x7d']

/-- `{:?}` of a string. -/
def debugStr (s : String) : List Char := '"' :: s.toList.flatMap D.escapeDebug ++ ['"']

/-- `{:?}` of an optional value. -/
def debugOption {α : Type} (debug : α → List Char) : Option α → List Char
  | none => "None".toList
  | some a => "Some(".toList ++ debug a ++ [')']

/-- The unit separator is not printed, and the texts of floats are told apart. -/
structure Lawful : Prop where
  printable : D.printable '\x1f' = false
  float_notMem : ∀ q, '\x1f' ∉ D.float q
  float_injective : Function.Injective D.float

end DebugFormat

/-! ## Reading back -/

lemma mem_shortEscapes {c e : Char} (h : shortEscape c = some e) : (c, e) ∈ shortEscapes := by
  obtain ⟨⟨c', e'⟩, hfind, rfl⟩ := Option.map_eq_some_iff.mp h
  obtain rfl : c' = c := by simpa using List.find?_some hfind
  exact List.mem_of_find?_eq_some hfind

lemma shortEscape_injective {c d e : Char} (hc : shortEscape c = some e)
    (hd : shortEscape d = some e) : c = d := by
  have hall : ∀ p ∈ shortEscapes, ∀ q ∈ shortEscapes, p.2 = q.2 → p.1 = q.1 := by decide
  exact hall _ (mem_shortEscapes hc) _ (mem_shortEscapes hd) rfl

/-- The digit that a character is. -/
def digitOf (c : Char) : ℕ := ((List.range 16).find? fun d => Nat.digitChar d = c).getD 0

lemma digitOf_digitChar {d : ℕ} (hd : d < 16) : digitOf (Nat.digitChar d) = d := by
  have hall : ∀ d : Fin 16, digitOf (Nat.digitChar d) = d := by decide
  exact hall ⟨d, hd⟩

lemma mem_hexNumber {n : ℕ} {c : Char} (h : c ∈ hexNumber n) :
    ∃ d < 16, c = Nat.digitChar d := by
  obtain ⟨d, hd, rfl⟩ := List.mem_map.mp (List.mem_reverse.mp h)
  exact ⟨d, Nat.digits_lt_base (by decide) hd, rfl⟩

lemma hexNumber_injective : Function.Injective hexNumber := by
  have hread : ∀ n, (hexNumber n).reverse.map digitOf = Nat.digits 16 n := by
    intro n
    have hdigits : ∀ d ∈ Nat.digits 16 n, (digitOf ∘ Nat.digitChar) d = id d := fun d hd =>
      digitOf_digitChar (Nat.digits_lt_base (by decide) hd)
    rw [hexNumber, List.reverse_reverse, List.map_map, List.map_congr_left hdigits, List.map_id]
  intro m n h
  refine Nat.digits.injective 16 ?_
  rw [← hread, ← hread, h]

/-- No hexadecimal digit ends an escape. -/
lemma brace_notMem_hexNumber (n : ℕ) : '\x7d' ∉ hexNumber n := by
  intro h
  obtain ⟨d, hd, heq⟩ := mem_hexNumber h
  have hall : ∀ d : Fin 16, '\x7d' ≠ Nat.digitChar d := by decide
  exact hall ⟨d, hd⟩ heq

namespace DebugFormat

variable {D : DebugFormat}

/-- An escaped character is read back together with what follows it. -/
lemma escapeDebug_append_inj {c d : Char} {r s : List Char}
    (h : D.escapeDebug c ++ r = D.escapeDebug d ++ s) : c = d ∧ r = s := by
  have hback : shortEscape '\\' ≠ none := by decide
  have hu : ∀ c, shortEscape c ≠ some 'u' := by
    intro c hc
    exact absurd (mem_shortEscapes hc) (by simp [shortEscapes])
  unfold escapeDebug at h
  cases hc : shortEscape c with
  | some e =>
    cases hd : shortEscape d with
    | some e' =>
      simp only [hc, hd, List.cons_append, List.nil_append, List.cons.injEq] at h
      obtain ⟨-, rfl, rfl⟩ := h
      exact ⟨shortEscape_injective hc hd, rfl⟩
    | none =>
      rw [hc, hd] at h
      dsimp only at h
      split at h
      · obtain ⟨rfl, -⟩ := List.cons.inj h
        exact absurd hd hback
      · obtain ⟨rfl, -⟩ := List.cons.inj (List.cons.inj h).2
        exact absurd hc (hu c)
  | none =>
    cases hd : shortEscape d with
    | some e =>
      rw [hc, hd] at h
      dsimp only at h
      split at h
      · obtain ⟨rfl, -⟩ := List.cons.inj h
        exact absurd hc hback
      · obtain ⟨rfl, -⟩ := List.cons.inj (List.cons.inj h).2
        exact absurd hd (hu d)
    | none =>
      rw [hc, hd] at h
      dsimp only at h
      split at h <;> split at h
      · exact ⟨(List.cons.inj h).1, (List.cons.inj h).2⟩
      · obtain ⟨rfl, -⟩ := List.cons.inj h
        exact absurd hc hback
      · obtain ⟨rfl, -⟩ := List.cons.inj h
        exact absurd hd hback
      · simp only [List.cons_append, List.append_assoc, List.cons.injEq, true_and,
          List.nil_append] at h
        obtain ⟨hnumber, rfl⟩ := append_sep_inj (brace_notMem_hexNumber _)
          (brace_notMem_hexNumber _) h
        exact ⟨Char.toNat_inj.mp (hexNumber_injective hnumber), rfl⟩

/-- Nor does a quote end the text of a string before its end. -/
lemma quote_ne_escapeDebug (c : Char) (r s : List Char) : D.escapeDebug c ++ r ≠ '"' :: s := by
  unfold escapeDebug
  cases hc : shortEscape c with
  | some e => simp
  | none =>
    dsimp only
    split
    · intro h
      obtain ⟨rfl, -⟩ := List.cons.inj h
      exact absurd hc (by decide)
    · simp

lemma debugStr_injective : Function.Injective D.debugStr := by
  intro s t h
  have hlist : ∀ l m : List Char, l.flatMap D.escapeDebug ++ ['"'] =
      m.flatMap D.escapeDebug ++ ['"'] → l = m := by
    intro l
    induction l with
    | nil =>
      intro m h
      cases m with
      | nil => rfl
      | cons d m =>
        rw [List.flatMap_cons, List.append_assoc] at h
        exact absurd h.symm (quote_ne_escapeDebug d _ _)
    | cons c l ih =>
      intro m h
      cases m with
      | nil =>
        rw [List.flatMap_cons, List.append_assoc] at h
        exact absurd h (quote_ne_escapeDebug c _ _)
      | cons d m =>
        rw [List.flatMap_cons, List.flatMap_cons, List.append_assoc, List.append_assoc] at h
        obtain ⟨rfl, hrest⟩ := escapeDebug_append_inj h
        rw [ih m hrest]
  exact String.toList_inj.mp (hlist _ _ (List.cons.inj h).2)

lemma debugOption_injective {α : Type} {debug : α → List Char} (h : Function.Injective debug) :
    Function.Injective (debugOption debug) := by
  intro a b hab
  cases a with
  | none =>
    cases b with
    | none => rfl
    | some b => exact absurd (List.cons.inj hab).1 (by decide)
  | some a =>
    cases b with
    | none => exact absurd (List.cons.inj hab).1 (by decide)
    | some b =>
      refine congrArg some (h ?_)
      have hrest : "Some(".toList ++ debug a ++ [')'] = "Some(".toList ++ debug b ++ [')'] := hab
      exact List.append_cancel_left (List.append_cancel_right hrest)

/-! ## What is not printed -/

lemma notMem_escapeDebug (hD : D.Lawful) (c : Char) : '\x1f' ∉ D.escapeDebug c := by
  unfold escapeDebug
  cases hc : shortEscape c with
  | some e =>
    have hall : ∀ p ∈ shortEscapes, '\x1f' ∉ ['\\', p.2] := by decide
    exact hall _ (mem_shortEscapes hc)
  | none =>
    dsimp only
    split
    next hprint =>
      intro h
      obtain rfl := List.mem_singleton.mp h
      exact absurd (hprint.symm.trans hD.printable) (by decide)
    next =>
      intro h
      have hdigit : ∀ d : Fin 16, '\x1f' ≠ Nat.digitChar d := by decide
      rcases List.mem_append.mp h with h | h
      · simp only [List.mem_cons] at h
        rcases h with h | h | h | h
        · exact absurd h (by decide)
        · exact absurd h (by decide)
        · exact absurd h (by decide)
        · obtain ⟨d, hd, heq⟩ := mem_hexNumber h
          exact hdigit ⟨d, hd⟩ heq
      · exact absurd (List.mem_singleton.mp h) (by decide)

lemma notMem_debugStr (hD : D.Lawful) (s : String) : '\x1f' ∉ D.debugStr s := by
  intro h
  rcases List.mem_append.mp h with h | h
  · rcases List.mem_cons.mp h with h | h
    · exact absurd h (by decide)
    · obtain ⟨c, -, hc⟩ := List.mem_flatMap.mp h
      exact notMem_escapeDebug hD c hc
  · exact absurd (List.mem_singleton.mp h) (by decide)

lemma notMem_debugOption {α : Type} {debug : α → List Char} (h : ∀ a, '\x1f' ∉ debug a)
    (o : Option α) : '\x1f' ∉ debugOption debug o := by
  cases o with
  | none =>
    show '\x1f' ∉ "None".toList
    decide
  | some a =>
    intro hmem
    rcases List.mem_append.mp hmem with hmem | hmem
    · rcases List.mem_append.mp hmem with hmem | hmem
      · exact absurd hmem (by decide)
      · exact h a hmem
    · exact absurd (List.mem_singleton.mp hmem) (by decide)

/-- A format for runs on concrete values: everything but the unit separator is printed, and a
float is a fraction. -/
def plain : DebugFormat where
  printable c := c ≠ '\x1f'
  float q := (if q.num < 0 then '-' else '+') :: hexNumber q.num.natAbs ++
    '\x7d' :: hexNumber q.den

lemma plain_lawful : plain.Lawful where
  printable := rfl
  float_notMem q h := by
    have hdigit : ∀ d : Fin 16, '\x1f' ≠ Nat.digitChar d := by decide
    have hnumber : ∀ n, '\x1f' ∉ hexNumber n := fun n hn => by
      obtain ⟨d, hd, heq⟩ := mem_hexNumber hn
      exact hdigit ⟨d, hd⟩ heq
    rcases List.mem_append.mp h with h | h
    · rcases List.mem_cons.mp h with h | h
      · split at h <;> exact absurd h (by decide)
      · exact hnumber _ h
    · rcases List.mem_cons.mp h with h | h
      · exact absurd h (by decide)
      · exact hnumber _ h
  float_injective := by
    intro p q h
    obtain ⟨hsign, hrest⟩ := List.cons.inj h
    obtain ⟨hnum, hden⟩ := append_sep_inj (brace_notMem_hexNumber _) (brace_notMem_hexNumber _)
      hrest
    have habs := hexNumber_injective hnum
    refine Rat.ext ?_ (hexNumber_injective hden)
    split at hsign <;> split at hsign
    · omega
    · exact absurd hsign (by decide)
    · exact absurd hsign (by decide)
    · omega

end DebugFormat

end Text
