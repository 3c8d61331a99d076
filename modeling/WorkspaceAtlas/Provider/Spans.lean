/-
# Spans of symbols

A symbol of a built-in provider has a range of bytes and two places in lines and columns.  What is
expected of them is stated together with the occurrence of the name that the symbol is for.
-/
import WorkspaceAtlas.Discovery.Facts
import WorkspaceAtlas.Semantic.Evidence
import WorkspaceAtlas.Text.Lines
import WorkspaceAtlas.Text.Utf8

namespace WorkspaceAtlas

open Text

/-! ## Lines and columns -/

/-- The loop of `line_col_at` over the characters and their offsets. -/
def lineColLoop (byteOffset : ℕ) : List Char → ℕ → ℤ → ℤ → ℤ × ℤ
  | [], _, line, col => (line, col)
  | ch :: rest, i, line, col =>
    if byteOffset ≤ i then (line, col)
    else if ch = '\n' then lineColLoop byteOffset rest (i + ch.utf8Size) (line + 1) 1
    else lineColLoop byteOffset rest (i + ch.utf8Size) line (col + 1)

/-- `line_col_at`. -/
def lineColAt (text : List Char) (byteOffset : ℕ) : ℤ × ℤ := lineColLoop byteOffset text 0 1 1

section LineCol

variable {text : List Char} {n m i : ℕ} {line col : ℤ}

lemma lineColLoop_pos (hline : 1 ≤ line) (hcol : 1 ≤ col) :
    1 ≤ (lineColLoop n text i line col).1 ∧ 1 ≤ (lineColLoop n text i line col).2 := by
  induction text generalizing i line col with
  | nil => exact ⟨hline, hcol⟩
  | cons ch text ih =>
    rw [lineColLoop]
    split_ifs
    · exact ⟨hline, hcol⟩
    · exact ih (by omega) (by omega)
    · exact ih hline (by omega)

/-- The loop goes forward. -/
lemma le_lineColLoop : toLex (line, col) ≤ toLex (lineColLoop n text i line col) := by
  induction text generalizing i line col with
  | nil => exact le_rfl
  | cons ch text ih =>
    have hcol : toLex (line, col) ≤ toLex (line, col + 1) :=
      Prod.Lex.toLex_le_toLex.mpr (.inr ⟨rfl, (Int.lt_succ col).le⟩)
    rw [lineColLoop]
    split_ifs
    · exact le_rfl
    · exact (Prod.Lex.toLex_le_toLex.mpr (.inl (Int.lt_succ line))).trans ih
    · exact hcol.trans ih

lemma lineColLoop_mono (h : n ≤ m) :
    toLex (lineColLoop n text i line col) ≤ toLex (lineColLoop m text i line col) := by
  induction text generalizing i line col with
  | nil => exact le_rfl
  | cons ch text ih =>
    by_cases hn : n ≤ i
    · have hstop : lineColLoop n (ch :: text) i line col = (line, col) := by
        rw [lineColLoop, if_pos hn]
      rw [hstop]
      exact le_lineColLoop
    · have hm : ¬ m ≤ i := by omega
      rw [lineColLoop, lineColLoop, if_neg hn, if_neg hm]
      split_ifs
      · exact ih
      · exact ih

lemma lineColAt_pos (text : List Char) (n : ℕ) :
    1 ≤ (lineColAt text n).1 ∧ 1 ≤ (lineColAt text n).2 :=
  lineColLoop_pos le_rfl le_rfl

/-- A place that comes later in the text is not before the other one. -/
lemma lineColAt_mono (h : n ≤ m) : toLex (lineColAt text n) ≤ toLex (lineColAt text m) :=
  lineColLoop_mono h

end LineCol

/-! ## Symbols and their names -/

/-- A symbol that was extracted, with the offset of the name in the text.  The source does not keep
the offset. -/
structure Extracted where
  symbol : NormalizedSymbol
  occurrence : ℕ
  deriving DecidableEq

/-- What is expected of the span of a symbol. -/
structure SpanOk (text : List Char) (e : Extracted) : Prop where
  ordered : 0 ≤ e.symbol.startByte ∧ e.symbol.startByte ≤ e.symbol.endByte ∧
    e.symbol.endByte ≤ byteLen text
  boundary : OnBoundary text e.symbol.startByte.toNat ∧ OnBoundary text e.symbol.endByte.toNat
  oneBased : 1 ≤ e.symbol.startLine ∧ 1 ≤ e.symbol.startColumn ∧ 1 ≤ e.symbol.endLine ∧
    1 ≤ e.symbol.endColumn
  places : toLex (e.symbol.startLine, e.symbol.startColumn) ≤
    toLex (e.symbol.endLine, e.symbol.endColumn)
  named : ∃ a b, text = a ++ (e.symbol.displayName.toList ++ b) ∧ byteLen a = e.occurrence
  covers : e.symbol.startByte ≤ e.occurrence ∧
    (e.occurrence : ℤ) + byteLen e.symbol.displayName.toList ≤ e.symbol.endByte

section SpanOk

variable {text a b m p q name : List Char} {e : Extracted}

/-- A symbol whose range is a piece of the text that has the name in it. -/
lemma SpanOk.of_split (htext : text = a ++ (m ++ b)) (hm : m = p ++ (name ++ q))
    (hstart : e.symbol.startByte = byteLen a) (hend : e.symbol.endByte = byteLen a + byteLen m)
    (hname : e.symbol.displayName = String.ofList name)
    (hocc : e.occurrence = byteLen a + byteLen p)
    (honeBased : 1 ≤ e.symbol.startLine ∧ 1 ≤ e.symbol.startColumn ∧ 1 ≤ e.symbol.endLine ∧
      1 ≤ e.symbol.endColumn)
    (hplaces : toLex (e.symbol.startLine, e.symbol.startColumn) ≤
      toLex (e.symbol.endLine, e.symbol.endColumn)) : SpanOk text e := by
  have hlen : byteLen m = byteLen p + (byteLen name + byteLen q) := by
    rw [hm, byteLen_add, byteLen_add]
  have htotal : byteLen text = byteLen a + (byteLen m + byteLen b) := by
    rw [htext, byteLen_add, byteLen_add]
  have hshown : e.symbol.displayName.toList = name := by rw [hname, String.toList_ofList]
  refine ⟨⟨by omega, by omega, by omega⟩, ⟨⟨a, m ++ b, htext, by rw [hstart]; rfl⟩,
    ⟨a ++ m, b, by rw [htext, List.append_assoc], ?_⟩⟩, honeBased, hplaces,
    ⟨a ++ p, q ++ b, ?_, by rw [byteLen_add, hocc]⟩, ?_, ?_⟩
  · rw [byteLen_add, hend]
    omega
  · rw [hshown, htext, hm]
    simp only [List.append_assoc]
  · rw [hstart, hocc]
    omega
  · rw [hshown, hend, hocc]
    omega

/-- A symbol that ends in the line that it starts in. -/
lemma places_of_line {line col : ℤ} {k : ℕ} (hline : 1 ≤ line) (hcol : 1 ≤ col) :
    (1 ≤ line ∧ 1 ≤ col ∧ 1 ≤ line ∧ 1 ≤ col + (k : ℤ)) ∧
      toLex (line, col) ≤ toLex (line, col + (k : ℤ)) :=
  ⟨⟨hline, hcol, hline, by omega⟩, Prod.Lex.toLex_le_toLex.mpr (.inr ⟨rfl, by simp⟩)⟩

end SpanOk

/-! ## Trimming and searching -/

section Trim

variable {s a b r : List Char} {p : Char → Bool} {n : ℕ}

/-- `str::trim`. -/
def trim (s : List Char) : List Char := trimEndMatches isWhitespace (s.dropWhile isWhitespace)

/-- `str::find` of a character. -/
def findChar (p : Char → Bool) : List Char → Option ℕ
  | [] => none
  | c :: s => if p c then some 0 else (findChar p s).map (c.utf8Size + ·)

lemma findChar_eq_some (h : findChar p s = some n) :
    ∃ a c b, s = a ++ c :: b ∧ byteLen a = n ∧ p c = true ∧ ∀ d ∈ a, p d = false := by
  induction s generalizing n with
  | nil => exact absurd h (by simp [findChar])
  | cons c s ih =>
    rw [findChar] at h
    split at h
    next hc =>
      obtain rfl := Option.some.inj h
      exact ⟨[], c, s, rfl, rfl, hc, fun d hd => absurd hd List.not_mem_nil⟩
    next hc =>
      obtain ⟨k, hk, rfl⟩ := Option.map_eq_some_iff.mp h
      obtain ⟨a, d, b, rfl, rfl, hd, ha⟩ := ih hk
      refine ⟨c :: a, d, b, rfl, byteLen_head c a, hd, fun x hx => ?_⟩
      rcases List.mem_cons.mp hx with rfl | hx
      · simpa using hc
      · exact ha x hx

lemma findChar_append {c : Char} (ha : ∀ d ∈ a, p d = false) (hc : p c = true) :
    findChar p (a ++ c :: b) = some (byteLen a) := by
  induction a with
  | nil => rw [List.nil_append, findChar, if_pos hc]; rfl
  | cons d a ih =>
    rw [List.cons_append, findChar, if_neg (by simp [ha d List.mem_cons_self]),
      ih fun x hx => ha x (List.mem_cons_of_mem d hx), byteLen_head]
    rfl

/-- What is trimmed from the start, with its length. -/
lemma trimStart_split (s : List Char) :
    s = s.takeWhile isWhitespace ++ s.dropWhile isWhitespace ∧
      byteLen s - byteLen (s.dropWhile isWhitespace) = byteLen (s.takeWhile isWhitespace) := by
  have hsplit : s.takeWhile isWhitespace ++ s.dropWhile isWhitespace = s :=
    List.takeWhile_append_dropWhile
  have hlen := congrArg byteLen hsplit
  rw [byteLen_add] at hlen
  exact ⟨hsplit.symm, by omega⟩

/-- What is left and right of the trimmed text. -/
lemma trim_split (s : List Char) : ∃ q, s = s.takeWhile isWhitespace ++ (trim s ++ q) ∧
    ∀ c ∈ q, isWhitespace c = true := by
  obtain ⟨hsplit, -⟩ := trimStart_split s
  refine ⟨((s.dropWhile isWhitespace).reverse.takeWhile isWhitespace).reverse, ?_, fun c hc => ?_⟩
  · have hend : trim s ++ ((s.dropWhile isWhitespace).reverse.takeWhile isWhitespace).reverse =
        s.dropWhile isWhitespace := by
      rw [trim, trimEndMatches, ← List.reverse_append, List.takeWhile_append_dropWhile,
        List.reverse_reverse]
    rw [hend]
    exact hsplit
  · exact List.all_eq_true.mp List.all_takeWhile c (List.mem_reverse.mp hc)

end Trim

/-! ## The loop over lines -/

/-- The lines of a text, each with its offset. -/
def linesAt : List (List Char) → ℕ → List (ℕ × List Char)
  | [], _ => []
  | line :: lines, offset => (offset, line) :: linesAt lines (offset + byteLen line)

/-- The loop over `text.split_inclusive('\n')`; a body is `none` where a slice would panic. -/
def eachLine (body : ℕ → List Char → Option (Option Extracted)) (text : List Char) :
    Option (List Extracted) := do
  let found ← (linesAt (splitInclusive '\n' text) 0).mapM fun p => body p.1 p.2
  return found.filterMap id

section Lines

variable {text : List Char}

/-- A line, and the text around it. -/
lemma exists_of_mem_linesAt {lines : List (List Char)} (front : List Char) {o : ℕ}
    {line : List Char} (h : (o, line) ∈ linesAt lines (byteLen front)) :
    ∃ before after, front ++ lines.flatten = before ++ (line ++ after) ∧ byteLen before = o := by
  induction lines generalizing front with
  | nil => exact absurd h List.not_mem_nil
  | cons l lines ih =>
    rw [List.flatten_cons]
    rcases List.mem_cons.mp h with heq | h
    · obtain ⟨rfl, rfl⟩ := Prod.mk.inj heq
      exact ⟨front, lines.flatten, rfl, rfl⟩
    · rw [← byteLen_add] at h
      obtain ⟨before, after, hsplit, hlen⟩ := ih _ h
      exact ⟨before, after, by rw [← hsplit, List.append_assoc], hlen⟩

lemma flatten_lines (text : List Char) : (splitInclusive '\n' text).flatten = text := by
  induction text using line_induction '\n' with
  | last seg hseg =>
    by_cases hne : seg = []
    · rw [hne]
      rfl
    · rw [splitInclusive_last hseg hne, List.flatten_singleton]
  | line seg rest hseg ih =>
    rw [splitInclusive_line hseg, List.flatten_cons, ih, List.append_assoc]
    rfl

/-- The lines of a text, as the loop goes over them. -/
def IsLine (text : List Char) (offset : ℕ) (line : List Char) : Prop :=
  (offset, line) ∈ linesAt (splitInclusive '\n' text) 0

lemma IsLine.split {o : ℕ} {line : List Char} (h : IsLine text o line) :
    ∃ before after, text = before ++ (line ++ after) ∧ byteLen before = o := by
  have hsplit := exists_of_mem_linesAt [] h
  rwa [List.nil_append, flatten_lines] at hsplit

/-- A loop whose body does not panic. -/
lemma eachLine_eq (body : ℕ → List Char → Option (Option Extracted))
    (found : ℕ → List Char → Option Extracted) (h : ∀ o line, IsLine text o line → body o line = some (found o line)) :
    ∃ l, eachLine body text = some l ∧
      ∀ e, e ∈ l ↔ ∃ o line, IsLine text o line ∧ found o line = some e := by
  have hmap : ∀ lines : List (ℕ × List Char), (∀ p ∈ lines, body p.1 p.2 = some (found p.1 p.2)) →
      lines.mapM (fun p => body p.1 p.2) = some (lines.map fun p => found p.1 p.2) := by
    intro lines hbody
    induction lines with
    | nil => rfl
    | cons p l ih =>
      rw [List.mapM_cons, hbody p List.mem_cons_self,
        ih fun q hq => hbody q (List.mem_cons_of_mem p hq)]
      rfl
  refine ⟨_, by rw [eachLine, hmap _ fun p hp => h p.1 p.2 hp]; rfl, fun e => ?_⟩
  rw [List.filterMap_map, List.mem_filterMap]
  constructor
  · rintro ⟨p, hp, hfound⟩
    exact ⟨p.1, p.2, hp, hfound⟩
  · rintro ⟨o, line, hline, hfound⟩
    exact ⟨(o, line), hline, hfound⟩

end Lines

end WorkspaceAtlas
