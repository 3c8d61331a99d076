/-
# The spans of declarations

The range of a function or of a class covers its name.  The range of a variable does exactly if the
match has no line break before the name: the scan for the end of the statement starts where the
match does and stops at the first line break.
-/
import Mathlib
import WorkspaceAtlas.Provider.DocumentSpans
import WorkspaceAtlas.Provider.Typescript

namespace WorkspaceAtlas

open Text Text.Regex

namespace Spans

variable {pattern : Pattern} {relPath kind : String} {text a b h s : List Char} {c : Capture}
  {bytes bytes' : List UInt8} {u : UInt8} {i n start : ℕ} {depth : Int32} {q : Option UInt8}
  {escape : Bool}

/-! ## What stands before a name -/

/-- A character of what stands before a name: whitespace or a letter. -/
def BeforeName (c : Char) : Prop := isWhitespace c = true ∨ c.isAlpha = true

/-- A character of a name. -/
def OfName (c : Char) : Prop := c.isAlphanum = true ∨ c = '_' ∨ c = '$'

/-- Neither the bytes that the scanners look for nor a character of two bytes. -/
lemma within_spaces : spaces.Within BeforeName := fun _ hc => .inl hc

lemma within_space : space.Within BeforeName := within_plus fun _ hc => .inl hc

lemma within_letters {w : List Char} (hw : ∀ c ∈ w, c.isAlpha = true) :
    (Regex.word w).Within BeforeName :=
  within_word fun c hc => .inr (hw c hc)

lemma within_modifier {w : List Char} (hw : ∀ c ∈ w, c.isAlpha = true) :
    (modifier w).Within BeforeName :=
  ⟨within_letters hw, within_space⟩

lemma within_fnRe : fnRe.before.Within BeforeName :=
  ⟨within_spaces, within_modifier (by decide), within_modifier (by decide),
    within_letters (by decide), within_space⟩

lemma within_classRe : classRe.before.Within BeforeName :=
  ⟨within_spaces, within_modifier (by decide), within_modifier (by decide),
    within_letters (by decide), within_space⟩

lemma within_constRe : constRe.before.Within BeforeName :=
  ⟨within_spaces, within_modifier (by decide),
    ⟨within_letters (by decide), within_letters (by decide)⟩, within_space⟩

lemma ofName_isIdentStart {c : Char} (hc : isIdentStart c = true) : OfName c := by
  simp only [isIdentStart, Bool.or_eq_true, decide_eq_true_eq] at hc
  rcases hc with (hc | hc) | hc
  · exact .inl (by simp [Char.isAlphanum, hc])
  · exact .inr (.inl hc)
  · exact .inr (.inr hc)

lemma within_ident : ident.Within OfName := by
  refine ⟨fun c hc => ofName_isIdentStart hc, fun c hc => ?_⟩
  rcases Bool.or_eq_true_iff.mp hc with hc | hc
  · exact ofName_isIdentStart hc
  · exact .inl (by simp [Char.isAlphanum, hc])

/-- The bytes that a scanner reacts to outside of strings. -/
def scanned : List UInt8 :=
  [0x22, 0x27, 0x60, 0x28, 0x7b, 0x5b, 0x29, 0x7d, 0x5d, 0x3b]

lemma toNat_of_isAlpha {c : Char} (h : c.isAlpha = true) :
    65 ≤ c.toNat ∧ c.toNat ≤ 90 ∨ 97 ≤ c.toNat ∧ c.toNat ≤ 122 := by
  simpa [Char.isAlpha, Char.isUpper, Char.isLower, UInt32.le_iff_toNat_le] using h

lemma toNat_of_isDigit {c : Char} (h : c.isDigit = true) : 48 ≤ c.toNat ∧ c.toNat ≤ 57 := by
  simpa [Char.isDigit, UInt32.le_iff_toNat_le] using h

lemma toNat_of_ofName {c : Char} (h : OfName c) :
    c.toNat ∈ [36, 95] ∨ 48 ≤ c.toNat ∧ c.toNat ≤ 57 ∨ 65 ≤ c.toNat ∧ c.toNat ≤ 90 ∨
      97 ≤ c.toNat ∧ c.toNat ≤ 122 := by
  rcases h with h | rfl | rfl
  · rcases Bool.or_eq_true_iff.mp h with h | h
    · exact .inr (.inr (toNat_of_isAlpha h))
    · exact .inr (.inl (toNat_of_isDigit h))
  · exact .inl (by decide)
  · exact .inl (by decide)

lemma toNat_of_scanned (hu : u ∈ scanned) :
    u.toNat ∈ [34, 39, 96, 40, 123, 91, 41, 125, 93, 59] :=
  List.mem_map_of_mem (f := UInt8.toNat) hu

/-- The characters of these bytes are neither whitespace nor characters of names. -/
lemma not_of_scanned {c : Char} (hu : u ∈ scanned) (hc : c.toNat = u.toNat) :
    ¬ (BeforeName c ∨ OfName c) := by
  have hbytes := toNat_of_scanned hu
  rw [← hc] at hbytes
  simp only [List.mem_cons, List.not_mem_nil, or_false] at hbytes
  rintro ((h | h) | h)
  · simp only [isWhitespace, decide_eq_true_eq, List.mem_cons, List.not_mem_nil, or_false] at h
    omega
  · have hletter := toNat_of_isAlpha h
    omega
  · have hname := toNat_of_ofName h
    simp only [List.mem_cons, List.not_mem_nil, or_false] at hname
    omega

/-- No scanned byte stands in what comes before a name, nor in the name. -/
lemma not_mem_bytesOf (hs : ∀ c ∈ s, BeforeName c ∨ OfName c) (hu : u ∈ scanned) :
    u ∉ bytesOf s := by
  intro hmem
  have hlt : u.toNat < 128 := by
    have hall : ∀ n ∈ [34, 39, 96, 40, 123, 91, 41, 125, 93, 59], n < 128 := by decide
    exact hall _ (toNat_of_scanned hu)
  obtain ⟨c, hc, heq⟩ := exists_of_mem_bytesOf hmem hlt
  exact not_of_scanned hu heq (hs c hc)

lemma newline_mem_bytesOf (h : 0x0a ∈ bytesOf s) : '\n' ∈ s := by
  obtain ⟨c, hc, heq⟩ := exists_of_mem_bytesOf h (by decide)
  have hnewline : c = '\n' := Char.ext (UInt32.toNat_inj.mp heq)
  rwa [← hnewline]

/-! ## The scanners -/

/-- The loop ends behind a brace. -/
lemma braceLoop_eq_some (h : braceLoop bytes i depth q escape = some n) :
    ∃ k, bytes[k]? = some 0x7d ∧ n = i + k + 1 := by
  induction bytes generalizing i depth q escape with
  | nil =>
    cases q <;> exact absurd h (by simp [braceLoop])
  | cons u bytes ih =>
    have hnext : ∀ {depth q escape}, braceLoop bytes (i + 1) depth q escape = some n →
        ∃ k, (u :: bytes)[k]? = some 0x7d ∧ n = i + k + 1 := fun h => by
      obtain ⟨k, hk, rfl⟩ := ih h
      exact ⟨k + 1, by rwa [List.getElem?_cons_succ], by omega⟩
    cases q with
    | some q =>
      rw [braceLoop] at h
      split_ifs at h
      all_goals exact hnext h
    | none =>
      rw [braceLoop] at h
      split_ifs at h with hquote hopen hclose hdepth
      · exact hnext h
      · exact hnext h
      · exact ⟨0, by rw [hclose]; rfl, (Option.some.inj h).symm⟩
      · exact hnext h
      · exact hnext h

/-- The end of a function or of a class: behind a brace, or behind the text. -/
lemma findBraceMatchedEnd_eq_some (h : findBraceMatchedEnd bytes start = some n) :
    ∃ i, start + ((bytes.drop start).takeWhile (· ≠ 0x7b)).length ≤ i ∧
      bytes[i]? = some 0x7d ∧ n = i + 1 := by
  rw [findBraceMatchedEnd] at h
  split at h
  next => exact absurd h (by simp)
  next =>
    obtain ⟨k, hk, rfl⟩ := braceLoop_eq_some h
    rw [List.getElem?_drop] at hk
    exact ⟨_, Nat.le_add_right _ k, hk, rfl⟩

/-- The loop ends behind a semicolon, before a line break, or with the text. -/
lemma statementLoop_cases (bytes : List UInt8) (i : ℕ) (depth : Int32) (q : Option UInt8)
    (escape : Bool) :
    (∃ k, bytes[k]? = some 0x3b ∧ statementLoop bytes i depth q escape = i + k + 1) ∨
      (∃ k, bytes[k]? = some 0x0a ∧ statementLoop bytes i depth q escape = i + k) ∨
      statementLoop bytes i depth q escape = i + bytes.length := by
  induction bytes generalizing i depth q escape with
  | nil => cases q <;> exact .inr (.inr rfl)
  | cons u bytes ih =>
    have hnext : ∀ depth q escape, (∃ k, (u :: bytes)[k]? = some 0x3b ∧
          statementLoop bytes (i + 1) depth q escape = i + k + 1) ∨
        (∃ k, (u :: bytes)[k]? = some 0x0a ∧
          statementLoop bytes (i + 1) depth q escape = i + k) ∨
        statementLoop bytes (i + 1) depth q escape = i + (u :: bytes).length := by
      intro depth q escape
      rcases ih (i + 1) depth q escape with ⟨k, hk, heq⟩ | ⟨k, hk, heq⟩ | heq
      · exact .inl ⟨k + 1, by rwa [List.getElem?_cons_succ], by omega⟩
      · exact .inr (.inl ⟨k + 1, by rwa [List.getElem?_cons_succ], by omega⟩)
      · exact .inr (.inr (by rw [heq, List.length_cons]; omega))
    cases q with
    | some q =>
      rw [statementLoop]
      split_ifs
      all_goals exact hnext _ _ _
    | none =>
      rw [statementLoop]
      split_ifs with hquote hopen hclose hsemicolon hnewline
      · exact hnext _ _ _
      · exact hnext _ _ _
      · exact hnext _ _ _
      · exact .inl ⟨0, by rw [hsemicolon.1]; rfl, rfl⟩
      · exact .inr (.inl ⟨0, by rw [hnewline.1]; rfl, rfl⟩)
      · exact hnext _ _ _

/-- Bytes that the loop does not react to are passed. -/
lemma statementLoop_append (hscanned : ∀ u ∈ scanned, u ∉ bytes) (hline : 0x0a ∉ bytes) :
    statementLoop (bytes ++ bytes') i 0 none false =
      statementLoop bytes' (i + bytes.length) 0 none false := by
  induction bytes generalizing i with
  | nil => rfl
  | cons u bytes ih =>
    have hne : ∀ v ∈ scanned, u ≠ v := fun v hv heq =>
      hscanned v hv (by rw [heq]; exact List.mem_cons_self)
    have hu : u ≠ 0x0a := fun heq => hline (by rw [heq]; exact List.mem_cons_self)
    have hquote : isQuote u = false := by
      simp only [isQuote, Bool.or_eq_false_iff, decide_eq_false_iff_not]
      exact ⟨⟨hne _ (by decide), hne _ (by decide)⟩, hne _ (by decide)⟩
    have hopen : ¬ (u = 0x28 ∨ u = 0x7b ∨ u = 0x5b) := by
      rw [not_or, not_or]
      exact ⟨hne _ (by decide), hne _ (by decide), hne _ (by decide)⟩
    have hclose : ¬ (u = 0x29 ∨ u = 0x7d ∨ u = 0x5d) := by
      rw [not_or, not_or]
      exact ⟨hne _ (by decide), hne _ (by decide), hne _ (by decide)⟩
    rw [List.cons_append, statementLoop, hquote, if_neg Bool.false_ne_true,
      if_neg hopen, if_neg hclose,
      if_neg fun h => hne _ (by decide) h.1, if_neg fun h => hu h.1,
      ih (fun v hv hmem => hscanned v hv (List.mem_cons_of_mem u hmem))
        fun hmem => hline (List.mem_cons_of_mem u hmem), List.length_cons]
    congr 1
    omega

/-- The first line break ends the statement. -/
lemma statementLoop_newline : statementLoop (0x0a :: bytes) i 0 none false = i := by
  rw [statementLoop]
  rfl

/-! ## Captures -/

lemma drop_bytesOf (a b : List Char) : (bytesOf (a ++ b)).drop (byteLen a) = bytesOf b := by
  rw [bytesOf_append, ← length_bytesOf, List.drop_left]

/-- A range from a capture to a boundary behind its start is right if it goes behind the name. -/
lemma spanOk_fnSymbol (hc : IsCapture pattern text c)
    (hend : (fnSymbol relPath text kind c).symbol.endByte = (n : ℤ))
    (hplace : ((fnSymbol relPath text kind c).symbol.endLine,
      (fnSymbol relPath text kind c).symbol.endColumn) = lineColAt text n)
    (hle : c.start ≤ n) (hboundary : OnBoundary text n) :
    SpanOk text (fnSymbol relPath text kind c) ↔ c.groupStart + byteLen c.group ≤ n := by
  obtain ⟨a, h, t, b, htext, -, -, -, -, hstart, hgroup⟩ := hc
  have hshown : (fnSymbol relPath text kind c).symbol.displayName.toList = c.group := by
    rw [fnSymbol, String.toList_ofList]
  have hocc : (fnSymbol relPath text kind c).occurrence = c.groupStart := rfl
  have hsb : (fnSymbol relPath text kind c).symbol.startByte = (c.start : ℤ) := rfl
  have hsp : ((fnSymbol relPath text kind c).symbol.startLine,
      (fnSymbol relPath text kind c).symbol.startColumn) = lineColAt text c.start := rfl
  constructor
  · intro hok
    have hcovers := hok.covers.2
    rw [hshown, hocc, hend] at hcovers
    omega
  · intro hcovers
    have hpos := lineColAt_pos text c.start
    have hpos' := lineColAt_pos text n
    rw [← hsp] at hpos
    rw [← hplace] at hpos'
    refine ⟨⟨?_, ?_, ?_⟩, ⟨?_, ?_⟩, ⟨hpos.1, hpos.2, hpos'.1, hpos'.2⟩, ?_,
      ⟨a ++ h, t ++ b, ?_, ?_⟩, ?_, ?_⟩
    · rw [hsb]
      omega
    · rw [hsb, hend]
      omega
    · rw [hend]
      exact_mod_cast hboundary.le
    · rw [hsb]
      exact ⟨a, _, htext, hstart.symm⟩
    · rw [hend]
      exact hboundary
    · rw [hsp, hplace]
      exact lineColAt_mono hle
    · rw [hshown, htext, List.append_assoc]
    · rw [byteLen_add, hocc, hgroup]
    · rw [hsb, hocc, hgroup, hstart]
      omega
    · rw [hshown, hocc, hend]
      omega

/-- **Functions and classes.** -/
lemma spanOk_braces (hkind : kind ≠ "variable") (hc : IsCapture pattern text c)
    (hbefore : pattern.before.Within BeforeName) (hgroup : pattern.group.Within OfName) :
    SpanOk text (fnSymbol relPath text kind c) := by
  have hc' := hc
  obtain ⟨a, h, t, b, htext, -, hh, hg, -, hstart, hname⟩ := hc'
  have hplain : ∀ d ∈ h ++ c.group, BeforeName d ∨ OfName d := fun d hd =>
    (List.mem_append.mp hd).imp (hh.forall_mem hbefore d) (hg.forall_mem hgroup d)
  have hdrop : (bytesOf text).drop c.start = bytesOf (h ++ c.group) ++ bytesOf (t ++ b) := by
    rw [htext, hstart, drop_bytesOf, ← bytesOf_append, List.append_assoc]
  -- the first brace stands behind the name
  have hskip : byteLen (h ++ c.group) ≤
      (((bytesOf text).drop c.start).takeWhile (· ≠ 0x7b)).length := by
    have hnone : ∀ u ∈ bytesOf (h ++ c.group), (u ≠ 0x7b : Bool) = true := fun u hu => by
      refine decide_eq_true ?_
      rintro rfl
      exact not_mem_bytesOf hplain (by decide) hu
    rw [hdrop, List.takeWhile_append_of_pos hnone, List.length_append, length_bytesOf]
    omega
  rw [byteLen_add] at hskip
  have htotal : c.groupStart + byteLen c.group ≤ byteLen text := by
    rw [htext, byteLen_add, byteLen_add, byteLen_add, hname]
    omega
  cases hfind : findBraceMatchedEnd (bytesOf text) c.start with
  | none =>
    refine (spanOk_fnSymbol hc ?_ ?_ (by omega) (onBoundary_byteLen text)).mpr htotal
    · simp only [fnSymbol, if_neg hkind, hfind, Option.getD_none, length_bytesOf]
    · simp only [fnSymbol, if_neg hkind, hfind, Option.getD_none, length_bytesOf]
  | some n =>
    obtain ⟨i, hi, hbrace, rfl⟩ := findBraceMatchedEnd_eq_some hfind
    refine (spanOk_fnSymbol hc ?_ ?_ (by omega)
      (onBoundary_of_getElem? hbrace (by decide)).2).mpr (by omega)
    · simp only [fnSymbol, if_neg hkind, hfind, Option.getD_some]
    · simp only [fnSymbol, if_neg hkind, hfind, Option.getD_some]

/-- No line break stands between the start of the match and the name. -/
def OnFirstLine (text : List Char) (c : Capture) : Prop :=
  ∀ h, slice text c.start c.groupStart = some h → '\n' ∉ h

/-- **Variables.** -/
lemma spanOk_variable (relPath : String) (hc : IsCapture pattern text c)
    (hbefore : pattern.before.Within BeforeName) (hgroup : pattern.group.Within OfName) :
    SpanOk text (fnSymbol relPath text "variable" c) ↔ OnFirstLine text c := by
  have hc' := hc
  obtain ⟨a, h, t, b, htext, -, hh, hg, -, hstart, hname⟩ := hc'
  have hdrop : (bytesOf text).drop c.start = bytesOf (h ++ c.group) ++ bytesOf (t ++ b) := by
    rw [htext, hstart, drop_bytesOf, ← bytesOf_append, List.append_assoc]
  have hslice : slice text c.start c.groupStart = some h := by
    rw [htext, hstart, hname]
    exact slice_append a h _
  have hline : OnFirstLine text c ↔ '\n' ∉ h := by
    rw [OnFirstLine, hslice]
    exact ⟨fun hall => hall h rfl, fun hnot h' heq => by rwa [← Option.some.inj heq]⟩
  have hlen : ((bytesOf text).drop c.start).length = byteLen text - c.start := by
    rw [List.length_drop, length_bytesOf]
  have htotal : c.start ≤ byteLen text := by
    rw [htext, byteLen_add, hstart]
    omega
  have hcases := statementLoop_cases ((bytesOf text).drop c.start) c.start 0 none false
  have hboundary : OnBoundary text (findStatementEnd (bytesOf text) c.start) ∧
      c.start ≤ findStatementEnd (bytesOf text) c.start := by
    rw [findStatementEnd]
    rcases hcases with ⟨k, hk, heq⟩ | ⟨k, hk, heq⟩ | heq
    · rw [List.getElem?_drop] at hk
      rw [heq]
      exact ⟨(onBoundary_of_getElem? hk (by decide)).2, by omega⟩
    · rw [List.getElem?_drop] at hk
      rw [heq]
      exact ⟨(onBoundary_of_getElem? hk (by decide)).1, by omega⟩
    · rw [heq, hlen, Nat.add_sub_cancel' htotal]
      exact ⟨onBoundary_byteLen text, htotal⟩
  have hplain : ∀ d ∈ h ++ c.group, BeforeName d ∨ OfName d := fun d hd =>
    (List.mem_append.mp hd).imp (hh.forall_mem hbefore d) (hg.forall_mem hgroup d)
  have hspan : SpanOk text (fnSymbol relPath text "variable" c) ↔
      c.groupStart + byteLen c.group ≤ findStatementEnd (bytesOf text) c.start :=
    spanOk_fnSymbol hc rfl rfl hboundary.2 hboundary.1
  rw [hspan, hline]
  constructor
  · -- the first line break would end the statement before the name
    intro hcovers hmem
    obtain ⟨p, p', rfl, hp⟩ := List.eq_append_cons_of_mem hmem
    have hfront : ∀ u ∈ scanned, u ∉ bytesOf p := fun u hu => not_mem_bytesOf
      (fun d hd => hplain d (List.mem_append_left _ (List.mem_append_left _ hd))) hu
    have hbytes : (bytesOf text).drop c.start =
        bytesOf p ++ 0x0a :: (bytesOf p' ++ bytesOf (c.group ++ (t ++ b))) := by
      have hnewline : String.utf8EncodeChar '\n' = [0x0a] := by decide
      rw [hdrop]
      simp only [bytesOf_append, bytesOf_cons, hnewline, List.append_assoc,
        List.cons_append, List.nil_append]
    have hstop : findStatementEnd (bytesOf text) c.start = c.start + byteLen p := by
      rw [findStatementEnd, hbytes,
        statementLoop_append hfront fun hmem => hp (newline_mem_bytesOf hmem),
        statementLoop_newline, length_bytesOf]
    rw [hstop, hname, byteLen_add, byteLen_head, hstart] at hcovers
    have hsize := ('\n' : Char).utf8Size_pos
    omega
  · intro hnot
    have hnewline : 0x0a ∉ bytesOf (h ++ c.group) := fun hmem => by
      rcases List.mem_append.mp (newline_mem_bytesOf hmem) with hmem | hmem
      · exact hnot hmem
      · have hof := toNat_of_ofName (hg.forall_mem hgroup _ hmem)
        exact absurd hof (by decide)
    have hpassed : findStatementEnd (bytesOf text) c.start =
        statementLoop (bytesOf (t ++ b)) (c.start + byteLen (h ++ c.group)) 0 none false := by
      rw [findStatementEnd, hdrop,
        statementLoop_append (fun u hu => not_mem_bytesOf hplain hu) hnewline, length_bytesOf]
    have hbehind := statementLoop_cases (bytesOf (t ++ b)) (c.start + byteLen (h ++ c.group)) 0
      none false
    rw [hpassed, hname, hstart, ← hstart]
    rw [byteLen_add] at hbehind ⊢
    rcases hbehind with ⟨k, -, heq⟩ | ⟨k, -, heq⟩ | heq
    · omega
    · omega
    · omega

end Spans

open Spans

/-! ## Both providers -/

/-- What is expected of both providers: no slice panics, and the symbols have good spans. -/
structure SpansOk (capturesIter : CapturesIter) (isAlphanumeric : Alphanumeric) (relPath : String)
    (text : List Char) : Prop where
  document : ∃ found, documentSymbols isAlphanumeric relPath text = some found ∧
    ∀ e ∈ found, SpanOk text e
  typescript : ∀ e ∈ typescriptSymbols capturesIter relPath text, SpanOk text e

/-- The keys of TOML are padded as they are indented, and variables are named in the line that
their match starts in. -/
structure SpansCovered (capturesIter : CapturesIter) (isAlphanumeric : Alphanumeric)
    (relPath : String) (text : List Char) : Prop where
  toml : ".toml".toList <:+ toAsciiLowercase relPath.toList → KeysCovered isAlphanumeric text
  declared : ∀ c ∈ capturesIter constRe text, OnFirstLine text c

section Both

variable {capturesIter : CapturesIter} {isAlphanumeric : Alphanumeric} {relPath : String}
  {text : List Char}

/-- A loop over lines whose symbols are all right. -/
lemma eachLine_ok {body : ℕ → List Char → Option (Option Extracted)}
    (h : ∀ o line, IsLine text o line → ∃ found, body o line = some found ∧
      ∀ e, found = some e → SpanOk text e) :
    ∃ l, eachLine body text = some l ∧ ∀ e ∈ l, SpanOk text e := by
  obtain ⟨l, hl, hmem⟩ := eachLine_eq body (fun o line => (body o line).getD none)
    fun o line hline => by
      obtain ⟨found, hfound, -⟩ := h o line hline
      rw [hfound]
      rfl
  refine ⟨l, hl, fun e he => ?_⟩
  obtain ⟨o, line, hline, heq⟩ := (hmem e).mp he
  obtain ⟨found, hfound, hok⟩ := h o line hline
  rw [hfound] at heq
  exact hok e heq

/-- **TOML.**  No slice panics; the symbols are right if the keys are covered. -/
lemma eachLine_toml : (∃ l, eachLine (tomlLine isAlphanumeric relPath text) text = some l ∧
    ∀ e ∈ l, SpanOk text e) ↔ KeysCovered isAlphanumeric text := by
  obtain ⟨l, hl, hmem⟩ := eachLine_eq (tomlLine isAlphanumeric relPath text)
    (fun o line => (tomlLine isAlphanumeric relPath text o line).getD none)
    fun o line hline => by
      obtain ⟨found, hfound, -⟩ := tomlLine_ok isAlphanumeric relPath hline
      rw [hfound]
      rfl
  constructor
  · rintro ⟨l', hl', hok⟩ o line hline indent key pad hkey
    obtain rfl : l = l' := Option.some.inj (hl.symm.trans hl')
    refine (spanOk_tomlKey relPath hkey hline).mp (hok _ ((hmem _).mpr
      ⟨o, line, hline, ?_⟩))
    rw [tomlLine_key hkey]
    rfl
  · intro hcovered
    refine ⟨l, hl, fun e he => ?_⟩
    obtain ⟨o, line, hline, heq⟩ := (hmem e).mp he
    obtain ⟨found, hfound, hok⟩ := tomlLine_ok isAlphanumeric relPath hline
    rw [hfound] at heq
    rcases hok e heq with hspan | ⟨indent, key, pad, hkey⟩
    · exact hspan
    · have hspan := (spanOk_tomlKey relPath hkey hline).mpr
        (hcovered o line hline indent key pad hkey)
      rw [tomlLine_key hkey] at hfound
      rw [← Option.some.inj hfound] at heq
      rwa [← Option.some.inj heq]

/-- A path has one of the extensions. -/
lemma not_suffix_of_toml {ext : List Char} {path : List Char} (h : ".toml".toList <:+ path)
    (hext : ¬ ext <:+ ".toml".toList) (hext' : ¬ ".toml".toList <:+ ext) : ¬ ext <:+ path := by
  intro hsuffix
  rcases List.suffix_or_suffix_of_suffix h hsuffix with hother | hother
  · exact hext' hother
  · exact hext hother

lemma documentSymbols_ok : (∃ found, documentSymbols isAlphanumeric relPath text = some found ∧
    ∀ e ∈ found, SpanOk text e) ↔
      (".toml".toList <:+ toAsciiLowercase relPath.toList → KeysCovered isAlphanumeric text) := by
  rw [documentSymbols]
  split_ifs with hmd hjson hyaml htoml
  · refine iff_of_true (eachLine_ok fun o line hline => markdownHeading_ok hline) fun htoml => ?_
    rcases hmd with hmd | hmd
    · exact absurd hmd (not_suffix_of_toml htoml (by decide) (by decide))
    · exact absurd hmd (not_suffix_of_toml htoml (by decide) (by decide))
  · refine iff_of_true (jsonLoop_ok relPath text 0 0 false) fun htoml => ?_
    exact absurd hjson (not_suffix_of_toml htoml (by decide) (by decide))
  · refine iff_of_true (eachLine_ok fun o line hline => yamlKey_ok hline) fun htoml => ?_
    rcases hyaml with hyaml | hyaml
    · exact absurd hyaml (not_suffix_of_toml htoml (by decide) (by decide))
    · exact absurd hyaml (not_suffix_of_toml htoml (by decide) (by decide))
  · rw [eachLine_toml]
    exact ⟨fun h _ => h, fun h => h htoml⟩
  · exact iff_of_true ⟨[], rfl, fun e he => absurd he List.not_mem_nil⟩
      fun htoml' => absurd htoml' htoml

/-- **Spans** are well formed and cover the names, exactly if the keys of TOML are padded as they
are indented and the variables are named in the first line of their match. -/
theorem spansOk_iff (capturesIter : CapturesIter) (isAlphanumeric : Alphanumeric)
    (relPath : String) (text : List Char)
    (hcaptures : ∀ pattern, ∀ c ∈ capturesIter pattern text, IsCapture pattern text c) :
    SpansOk capturesIter isAlphanumeric relPath text ↔
      SpansCovered capturesIter isAlphanumeric relPath text := by
  constructor
  · rintro ⟨hdocument, htypescript⟩
    refine ⟨documentSymbols_ok.mp hdocument, fun c hc => ?_⟩
    refine (spanOk_variable relPath (hcaptures constRe c hc) within_constRe
      within_ident).mp (htypescript _ ?_)
    exact List.mem_append_right _ (List.mem_append_right _ (List.mem_map_of_mem hc))
  · rintro ⟨htoml, hvariables⟩
    refine ⟨documentSymbols_ok.mpr htoml, fun e he => ?_⟩
    rcases List.mem_append.mp he with he | he
    · obtain ⟨c, hc, rfl⟩ := List.mem_map.mp he
      exact spanOk_braces (by decide) (hcaptures fnRe c hc) within_fnRe within_ident
    · rcases List.mem_append.mp he with he | he
      · obtain ⟨c, hc, rfl⟩ := List.mem_map.mp he
        exact spanOk_braces (by decide) (hcaptures classRe c hc) within_classRe within_ident
      · obtain ⟨c, hc, rfl⟩ := List.mem_map.mp he
        exact (spanOk_variable relPath (hcaptures constRe c hc) within_constRe within_ident).mpr
          (hvariables c hc)

end Both

/-- An engine that finds one match, of one of the expressions. -/
noncomputable def oneMatch (pattern : Pattern) (c : Capture) : CapturesIter := by
  classical exact fun other _ => if other = pattern then [c] else []

/-- The declaration of `x`. -/
lemma isCapture_const :
    IsCapture constRe "const x = 1;".toList ⟨0, 6, "x".toList⟩ := by
  have hspace : Matches (.chars isWhitespace) [' '] := .chars (by decide)
  have hbefore : Matches constRe.before ([] ++ ([] ++ ("const".toList ++ ([' '] ++ [])))) :=
    .seq .nil (.seq .none (.seq (.left (matches_word _)) (.seq hspace .nil)))
  have hgroup : Matches constRe.group (['x'] ++ []) := .seq (.chars (by decide)) .nil
  have hafter : Matches constRe.after (([' '] ++ []) ++ ([] ++ ['='])) :=
    .seq (.cons hspace .nil) (.seq .none (.chars (by decide)))
  exact ⟨[], "const ".toList, " =".toList, " 1;".toList, by decide, .inl rfl, hbefore, hgroup,
    hafter, rfl, rfl⟩

/-- A declaration in one line. -/
theorem spansOk_const : SpansOk (oneMatch constRe ⟨0, 6, "x".toList⟩) Char.isAlphanum "a.ts"
    "const x = 1;".toList := by
  refine (spansOk_iff _ _ _ _ fun pattern c hc => ?_).mpr ⟨fun htoml => absurd htoml (by decide),
    fun c hc => ?_⟩
  · rw [oneMatch] at hc
    split_ifs at hc with heq
    · rw [heq, List.mem_singleton.mp hc]
      exact isCapture_const
    · exact absurd hc List.not_mem_nil
  · rw [oneMatch, if_pos rfl] at hc
    rw [List.mem_singleton.mp hc]
    intro h hslice
    have hfront : slice "const x = 1;".toList 0 6 = some "const ".toList := by decide
    rw [← Option.some.inj (hfront.symm.trans hslice)]
    decide

/-- An indented key: the range ends in the middle of its name. -/
theorem not_spansOk_indented :
    ¬ SpansOk (fun _ _ => []) Char.isAlphanum "Cargo.toml" "  key = 1".toList := by
  rintro ⟨⟨found, hfound, hok⟩, -⟩
  have hends : (documentSymbols Char.isAlphanum "Cargo.toml" "  key = 1".toList).map
      (·.map fun e => (e.symbol.displayName, e.symbol.endByte, e.occurrence)) =
        some [("key", 4, 2)] := by
    decide
  rw [hfound, Option.map_some, Option.some.injEq] at hends
  obtain ⟨e, rfl, he⟩ := List.map_eq_singleton_iff.mp hends
  have hcovers := (hok e List.mem_cons_self).covers.2
  simp only [Prod.mk.injEq] at he
  rw [he.1, he.2.1, he.2.2] at hcovers
  exact absurd hcovers (by decide)

end WorkspaceAtlas
