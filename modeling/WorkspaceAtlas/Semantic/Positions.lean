/-
# Positions of a semantic provider

`scip_position_to_byte_offset`: a provider names a place in a document by a line and a number
of code units in the document's encoding; the catalogue stores byte offsets.
-/
import WorkspaceAtlas.Text.Chars

namespace WorkspaceAtlas

open Text

/-- `PositionEncoding`. -/
inductive PositionEncoding where
  | unspecified
  | utf8
  | utf16
  | utf32
  | unknown (value : ℤ)
  deriving DecidableEq, Repr

/-- The code units of a character, for the encodings that the loop counts in. -/
def PositionEncoding.unitLen : PositionEncoding → Char → Option ℕ
  | utf16, ch => some (if ch.toNat < 0x10000 then 1 else 2)
  | utf32, _ => some 1
  | unspecified, _ => none
  | unknown _, _ => none
  | utf8, _ => none

/-- The loop of `byte_offset_for_units`, after `byte` bytes and `units` code units. -/
def unitsLoop (encoding : PositionEncoding) (target : ℕ) : List Char → ℕ → ℕ → Option ℕ
  | [], byte, units => if units = target then some byte else none
  | ch :: rest, byte, units =>
    if units = target then some byte
    else
      match encoding.unitLen ch with
      | none => none
      | some k =>
        if target < units + k then none
        else unitsLoop encoding target rest (byte + ch.utf8Size) (units + k)

/-- `str::is_char_boundary`. -/
def isCharBoundary : List Char → ℕ → Bool
  | _, 0 => true
  | [], _ + 1 => false
  | ch :: rest, n + 1 =>
    if ch.utf8Size ≤ n + 1 then isCharBoundary rest (n + 1 - ch.utf8Size) else false

/-- `byte_offset_for_units`. -/
def byteOffsetForUnits (text : List Char) (target : ℕ) (encoding : PositionEncoding) :
    Option ℕ :=
  if encoding = .utf8 then
    if target ≤ byteLen text ∧ isCharBoundary text target then some target else none
  else unitsLoop encoding target text 0 0

/-- The loop of `scip_position_to_byte_offset` over the lines, the first of which starts
`offset` bytes into the text. -/
def lineLoop (character : ℕ) (encoding : PositionEncoding) :
    List (List Char) → ℕ → ℕ → Option (Option ℕ)
  | [], _, _ => none
  | line :: _, 0, offset =>
    some ((byteOffsetForUnits (trimEndMatches (fun ch => ch = '\n' || ch = '\r') line)
      character encoding).map fun column => offset + column)
  | line :: lines, n + 1, offset => lineLoop character encoding lines n (offset + byteLen line)

/-- `scip_position_to_byte_offset`. -/
def scipPositionToByteOffset (text : List Char) (line character : ℤ)
    (encoding : PositionEncoding) : Option ℕ :=
  if line < 0 ∨ character < 0 then none
  else
    let lines := splitInclusive '\n' text
    match lineLoop character.toNat encoding lines line.toNat 0 with
    | some result => result
    | none =>
      if line.toNat = lines.length ∧ text.getLast? = some '\n' ∧ character = 0 then
        some (byteLen text)
      else none

/-! ## Offsets lie in the text -/

section Bounds

variable {encoding : PositionEncoding} {target character n : ℕ} {text : List Char}

lemma unitsLoop_le {b : ℕ} : ∀ {text : List Char} {byte units : ℕ},
    unitsLoop encoding target text byte units = some b → b ≤ byte + byteLen text := by
  intro text
  induction text with
  | nil =>
    intro byte units h
    simp only [unitsLoop, Option.ite_none_right_eq_some, Option.some.injEq] at h
    omega
  | cons ch rest ih =>
    intro byte units h
    have hlen : byteLen (ch :: rest) = ch.utf8Size + byteLen rest := by
      simp [byteLen]
    rw [unitsLoop] at h
    split at h
    · have := Option.some.inj h
      omega
    · split at h
      · exact absurd h (by simp)
      · split at h
        · exact absurd h (by simp)
        · have := ih h
          omega

lemma byteOffsetForUnits_le {b : ℕ} (h : byteOffsetForUnits text target encoding = some b) :
    b ≤ byteLen text := by
  unfold byteOffsetForUnits at h
  split at h
  · split at h
    next hle =>
      obtain rfl := Option.some.inj h
      exact hle.1
    next => exact absurd h (by simp)
  · have := unitsLoop_le h
    omega

lemma byteLen_append (s t : List Char) : byteLen (s ++ t) = byteLen s + byteLen t := by
  simp [byteLen]

lemma byteLen_trimEndMatches_le (p : Char → Bool) (s : List Char) :
    byteLen (trimEndMatches p s) ≤ byteLen s := by
  have hsplit : s = trimEndMatches p s ++ (s.reverse.takeWhile p).reverse := by
    rw [trimEndMatches, ← List.reverse_append, List.takeWhile_append_dropWhile,
      List.reverse_reverse]
  calc byteLen (trimEndMatches p s)
      ≤ byteLen (trimEndMatches p s) + byteLen (s.reverse.takeWhile p).reverse := by omega
    _ = byteLen s := by rw [← byteLen_append, ← hsplit]

lemma lineLoop_le {b : ℕ} : ∀ {lines : List (List Char)} {n offset : ℕ},
    lineLoop character encoding lines n offset = some (some b) →
      b ≤ offset + byteLen lines.flatten := by
  intro lines
  induction lines with
  | nil =>
    intro n offset h
    simp [lineLoop] at h
  | cons line lines ih =>
    intro n offset h
    rw [List.flatten_cons, byteLen_append]
    cases n with
    | zero =>
      simp only [lineLoop, Option.some.injEq, Option.map_eq_some_iff] at h
      obtain ⟨column, hcol, rfl⟩ := h
      have h₁ := byteOffsetForUnits_le hcol
      have h₂ := byteLen_trimEndMatches_le (fun ch => ch = '\n' || ch = '\r') line
      omega
    | succ n =>
      have := ih h
      omega

lemma flatten_splitInclusive (sep : Char) (text : List Char) :
    (splitInclusive sep text).flatten = text := by
  induction text with
  | nil => rfl
  | cons ch rest ih =>
    rw [splitInclusive]
    split
    · simp [ih]
    · cases hsplit : splitInclusive sep rest with
      | nil =>
        rw [hsplit] at ih
        simpa using ih
      | cons piece pieces =>
        rw [hsplit] at ih
        simpa using ih

/-- A position that is converted lies in the text. -/
theorem scipPositionToByteOffset_le {line character : ℤ} {b : ℕ}
    (h : scipPositionToByteOffset text line character encoding = some b) :
    b ≤ byteLen text := by
  unfold scipPositionToByteOffset at h
  split at h
  · exact absurd h (by simp)
  · dsimp only at h
    split at h
    next result hline =>
      subst h
      have := lineLoop_le hline
      rwa [flatten_splitInclusive, Nat.zero_add] at this
    next =>
      split at h
      · exact Nat.le_of_eq (Option.some.inj h).symm
      · exact absurd h (by simp)

end Bounds

end WorkspaceAtlas
