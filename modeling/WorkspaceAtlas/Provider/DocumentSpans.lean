/-
# The spans of documents

Headings, sections and the keys of JSON and YAML are covered by their ranges.  The key of a line of
TOML is, exactly if what stands between it and `=` ends with as many bytes as the line is indented.
-/
import WorkspaceAtlas.Provider.DocumentConfig

namespace WorkspaceAtlas

open Text

/-- The line is one of a key, which has whitespace around it. -/
structure IsKeyLine (isAlphanumeric : Alphanumeric) (line indent key pad : List Char) : Prop where
  split : ∃ rest, trimLineEnd line = indent ++ (key ++ (pad ++ '=' :: rest))
  indented : ∀ c ∈ indent, isWhitespace c = true
  padded : ∀ c ∈ pad, isWhitespace c = true
  chars : ∀ c ∈ key, isConfigKeyChar isAlphanumeric c = true ∧ c ≠ '='
  first : ∃ c ∈ key.head?, isWhitespace c = false ∧ c ≠ '[' ∧ c ≠ '#'
  last : ∀ c ∈ key.getLast?, isWhitespace c = false

/-- The whitespace before `=` ends with as many bytes as the line is indented. -/
def PadCovers (indent pad : List Char) : Prop :=
  ∃ p q, pad = p ++ q ∧ byteLen q = byteLen indent

/-- Every line of a key has the whitespace that its range takes for the indentation. -/
def KeysCovered (isAlphanumeric : Alphanumeric) (text : List Char) : Prop :=
  ∀ o line, IsLine text o line → ∀ indent key pad, IsKeyLine isAlphanumeric line indent key pad →
    PadCovers indent pad

namespace Spans

variable {isAlphanumeric : Alphanumeric} {relPath : String}
  {text line before after indent key pad s t r : List Char} {o i j : ℕ} {e : Extracted}

/-! ## Lines -/

lemma exists_trimmed (line : List Char) : ∃ tail, line = trimLineEnd line ++ tail := by
  obtain ⟨tail, htail⟩ := prefix_trimEndMatches (fun ch => ch = '\n' || ch = '\r') line
  exact ⟨tail, htail.symm⟩

lemma trimStart_append (h : trimStart s ≠ []) : trimStart (s ++ t) = trimStart s ++ t := by
  rw [trimStart, List.dropWhile_append, if_neg (by simpa [trimStart] using h)]
  rfl

/-- What is trimmed from the start of a text, measured. -/
lemma byteLen_sub_trimStart (s : List Char) :
    byteLen s - byteLen (trimStart s) = byteLen (s.takeWhile isWhitespace) :=
  (trimStart_split s).2

lemma takeWhile_append_trimStart (s : List Char) :
    s.takeWhile isWhitespace ++ trimStart s = s :=
  (trimStart_split s).1.symm

/-! ## Markdown -/

lemma markdownHeading_ok (h : IsLine text o line) :
    ∃ found, markdownHeading relPath text o line = some found ∧
      ∀ e, found = some e → SpanOk text e := by
  obtain ⟨before, after, htext, rfl⟩ := h.split
  obtain ⟨tail, htail⟩ := exists_trimmed line
  rw [markdownHeading]
  split
  next => exact ⟨none, rfl, fun e he => nomatch he⟩
  next hashesEnd hfind =>
    obtain ⟨hashes, c, rest, hstripped, rfl, -, -⟩ := findChar_eq_some hfind
    split
    next =>
      have hslice : sliceFrom (trimStart (trimLineEnd line)) (byteLen hashes) =
          some (c :: rest) := by
        rw [hstripped]
        exact sliceFrom_append _ _
      have hws : byteLen line - byteLen (trimStart line) =
          byteLen ((trimLineEnd line).takeWhile isWhitespace) := by
        have hne : trimStart (trimLineEnd line) ≠ [] := by
          rw [hstripped]
          simp
        have hlen := congrArg byteLen (takeWhile_append_trimStart (trimLineEnd line))
        have hline := congrArg byteLen htail
        rw [byteLen_add] at hlen hline
        rw [htail, trimStart_append hne, ← htail, byteLen_add]
        omega
      obtain ⟨q, hinner, -⟩ := trim_split (c :: rest)
      have hlen := congrArg byteLen (takeWhile_append_trimStart (trimLineEnd line))
      rw [byteLen_add] at hlen
      rw [hslice]
      refine ⟨_, rfl, fun e he => ?_⟩
      obtain rfl := Option.some.inj he
      have hpos := lineColAt_pos text (byteLen before + (byteLen line - byteLen (trimStart line)))
      have hplaces := places_of_line (k := byteLen (trimLineEnd line)) hpos.1 hpos.2
      refine SpanOk.of_split (a := before ++ (trimLineEnd line).takeWhile isWhitespace)
        (m := trimStart (trimLineEnd line)) (b := tail ++ after)
        (p := hashes ++ (c :: rest).takeWhile isWhitespace) (q := q) ?_ ?_ ?_ ?_ rfl ?_
        hplaces.1 hplaces.2
      · rw [List.append_assoc, ← List.append_assoc _ _ (tail ++ after),
          takeWhile_append_trimStart, ← List.append_assoc (trimLineEnd line), ← htail, htext]
      · rw [hstripped, List.append_assoc, ← hinner]
      · rw [byteLen_add, hws]
      · rw [byteLen_add]
        push_cast
        omega
      · rw [byteLen_add, byteLen_add, hws, byteLen_sub_trimStart]
        exact Nat.add_assoc _ _ _
    next => exact ⟨none, rfl, fun e he => nomatch he⟩

/-! ## YAML -/

lemma yamlKey_ok (h : IsLine text o line) :
    ∃ found, yamlKey isAlphanumeric relPath text o line = some found ∧
      ∀ e, found = some e → SpanOk text e := by
  obtain ⟨before, after, htext, rfl⟩ := h.split
  obtain ⟨tail, htail⟩ := exists_trimmed line
  rw [yamlKey]
  split
  next =>
    split
    next => exact ⟨none, rfl, fun e he => nomatch he⟩
    next colon hfind =>
      obtain ⟨front, c, rest, htrimmed, rfl, -, -⟩ := findChar_eq_some hfind
      have hslice : sliceTo (trimLineEnd line) (byteLen front) = some front := by
        rw [htrimmed]
        exact sliceTo_append _ _
      rw [hslice]
      simp only [bind, Option.bind, pure]
      split
      next =>
        obtain ⟨q, hfront, -⟩ := trim_split front
        refine ⟨_, rfl, fun e he => ?_⟩
        obtain rfl := Option.some.inj he
        have hpos := lineColAt_pos text (byteLen before)
        have hplaces := places_of_line (k := byteLen front) hpos.1 hpos.2
        refine SpanOk.of_split (a := before) (m := front) (b := c :: rest ++ (tail ++ after))
          (p := front.takeWhile isWhitespace) (q := q) ?_ hfront rfl ?_ rfl ?_ hplaces.1 hplaces.2
        · rw [← List.append_assoc front, ← htrimmed, ← List.append_assoc (trimLineEnd line),
            ← htail, htext]
        · push_cast
          rfl
        · rw [byteLen_sub_trimStart]
      next => exact ⟨none, rfl, fun e he => nomatch he⟩
  next => exact ⟨none, rfl, fun e he => nomatch he⟩

/-! ## TOML -/

/-- A line of a key, as the body of the loop takes it apart. -/
lemma keyLine_parts (h : IsKeyLine isAlphanumeric line indent key pad) :
    ∃ rest, trimLineEnd line = indent ++ (key ++ (pad ++ '=' :: rest)) ∧
      trimStart (trimLineEnd line) = key ++ (pad ++ '=' :: rest) ∧
      findChar (· = '=') (key ++ (pad ++ '=' :: rest)) = some (byteLen (key ++ pad)) ∧
      (key ++ pad).takeWhile isWhitespace = [] ∧ trim (key ++ pad) = key := by
  obtain ⟨rest, hsplit⟩ := h.split
  obtain ⟨c, hc, hfirst, -⟩ := h.first
  obtain ⟨key', rfl⟩ : ∃ key', key = c :: key' := by
    cases key with
    | nil => exact absurd hc (by simp)
    | cons d key' => exact ⟨key', by rw [Option.some.inj hc]⟩
  have hstart : ∀ t, trimStart (c :: t) = c :: t := fun t =>
    List.dropWhile_cons_of_neg (by simp [hfirst])
  refine ⟨rest, hsplit, ?_, ?_, ?_, ?_⟩
  · rw [hsplit, trimStart, List.dropWhile_append_of_pos h.indented]
    exact hstart _
  · rw [← List.append_assoc]
    refine findChar_append (fun d hd => ?_) (by simp)
    rcases List.mem_append.mp hd with hd | hd
    · simpa using (h.chars d hd).2
    · have hws := h.padded d hd
      refine decide_eq_false ?_
      rintro rfl
      exact absurd hws (by decide)
  · exact List.takeWhile_cons_of_neg (by simp [hfirst])
  · show trimEndMatches isWhitespace (trimStart (c :: key' ++ pad)) = _
    rw [List.cons_append, hstart, ← List.cons_append, trimEndMatches_append_of_pos h.padded]
    exact trimEndMatches_eq_self h.last

/-- The symbol of a line of a key. -/
lemma tomlLine_key (h : IsKeyLine isAlphanumeric line indent key pad) :
    tomlLine isAlphanumeric relPath text o line =
      some (some (tomlKey relPath text o (byteLen (key ++ pad)) (String.ofList key)
        (o + byteLen indent))) := by
  obtain ⟨rest, hsplit, ht, hfind, hlead, htrim⟩ := keyLine_parts h
  obtain ⟨c, hc, -, hbracket, hcomment⟩ := h.first
  have hhead : (key ++ (pad ++ '=' :: rest)).head? = some c := by
    cases key with
    | nil => exact absurd hc (by simp)
    | cons d key => exact hc
  have hne : key ≠ [] := by
    rintro rfl
    exact absurd hc (by simp)
  have hindent : byteLen (trimLineEnd line) - byteLen (key ++ (pad ++ '=' :: rest)) =
      byteLen indent := by
    rw [hsplit, byteLen_add]
    omega
  have hslice : sliceTo (key ++ (pad ++ '=' :: rest)) (byteLen (key ++ pad)) =
      some (key ++ pad) := by
    rw [← List.append_assoc]
    exact sliceTo_append _ _
  have hall : key.all (isConfigKeyChar isAlphanumeric) = true :=
    List.all_eq_true.mpr fun d hd => (h.chars d hd).1
  rw [tomlLine]
  simp only [ht, hhead, hindent]
  rw [if_neg (by simpa using hbracket), if_pos ⟨by simpa using hcomment, by simp [hne]⟩, hfind]
  simp only [hslice, htrim, bind, Option.bind, pure]
  rw [if_pos ⟨hne, hall⟩, byteLen_sub_trimStart, hlead]
  rfl

/-- A line that has a symbol is one of a section, which is covered, or one of a key. -/
lemma tomlLine_ok (isAlphanumeric : Alphanumeric) (relPath : String) (h : IsLine text o line) :
    ∃ found, tomlLine isAlphanumeric relPath text o line = some found ∧
      ∀ e, found = some e → SpanOk text e ∨
        ∃ indent key pad, IsKeyLine isAlphanumeric line indent key pad := by
  obtain ⟨before, after, htext, rfl⟩ := h.split
  obtain ⟨tail, htail⟩ := exists_trimmed line
  have hindent := takeWhile_append_trimStart (trimLineEnd line)
  rw [tomlLine]
  simp only
  split
  next hbracket =>
    split
    next => exact ⟨none, rfl, fun e he => nomatch he⟩
    next stop hfind =>
      obtain ⟨x, c, rest, ht, rfl, hc, -⟩ := findChar_eq_some hfind
      obtain ⟨inner, rfl⟩ : ∃ inner, x = '[' :: inner := by
        cases x with
        | nil =>
          rw [ht] at hbracket
          obtain rfl : c = '[' := Option.some.inj hbracket
          exact absurd hc (by decide)
        | cons d inner =>
          rw [ht] at hbracket
          exact ⟨inner, by rw [Option.some.inj hbracket]⟩
      have hone : byteLen ('[' :: inner) = 1 + byteLen inner := byteLen_head _ _
      have hslice : slice (trimStart (trimLineEnd line)) 1 (byteLen ('[' :: inner)) =
          some inner := by
        rw [ht, hone]
        exact slice_append ['['] inner (c :: rest)
      obtain ⟨q, hinner, -⟩ := trim_split inner
      rw [hslice]
      refine ⟨_, rfl, fun e he => .inl ?_⟩
      obtain rfl := Option.some.inj he
      have hpos := lineColAt_pos text (byteLen before)
      have hplaces := places_of_line (k := byteLen (trimLineEnd line)) hpos.1 hpos.2
      refine SpanOk.of_split (a := before) (m := trimLineEnd line) (b := tail ++ after)
        (p := (trimLineEnd line).takeWhile isWhitespace ++
          '[' :: inner.takeWhile isWhitespace) (q := q ++ c :: rest)
        ?_ ?_ rfl ?_ rfl ?_ hplaces.1 hplaces.2
      · rw [← List.append_assoc (trimLineEnd line), ← htail, htext]
      · rw [← List.append_assoc (trim inner), List.append_assoc, List.cons_append,
          ← List.append_assoc _ _ (c :: rest), ← hinner, ← List.cons_append, ← ht, hindent]
      · rw [tomlSection]
        push_cast
        rfl
      · have hlead := byteLen_head '[' (inner.takeWhile isWhitespace)
        have hsize : ('[' : Char).utf8Size = 1 := rfl
        rw [byteLen_sub_trimStart, byteLen_sub_trimStart, byteLen_add, hlead, hsize]
        simp only [tomlSection]
        omega
  next hbracket =>
    split
    next hkey =>
      split
      next => exact ⟨none, rfl, fun e he => nomatch he⟩
      next eq hfind =>
        obtain ⟨front, c, rest, ht, rfl, hc, hfront⟩ := findChar_eq_some hfind
        have hslice : sliceTo (trimStart (trimLineEnd line)) (byteLen front) = some front := by
          rw [ht]
          exact sliceTo_append _ _
        rw [hslice]
        simp only [bind, Option.bind, pure]
        split
        next hname =>
          refine ⟨_, rfl, fun e _ => .inr ?_⟩
          obtain ⟨hne, hall⟩ := hname
          obtain ⟨q, hsplit, hq⟩ := trim_split front
          have hnows : ∀ d ∈ (trimStart (trimLineEnd line)).head?, isWhitespace d = false := by
            intro d hd
            have hnot := List.head?_dropWhile_not isWhitespace (trimLineEnd line)
            rw [trimStart, Option.mem_def] at hd
            rwa [hd] at hnot
          have hfne : front ≠ [] := by
            rintro rfl
            exact hne rfl
          obtain ⟨d, front', rfl⟩ := List.exists_cons_of_ne_nil hfne
          have hd : isWhitespace d = false := hnows d (by rw [ht]; rfl)
          rw [List.takeWhile_cons_of_neg (by simp [hd]), List.nil_append] at hsplit
          obtain ⟨k, key', hkey'⟩ := List.exists_cons_of_ne_nil hne
          have hk : k = d := by
            rw [hkey'] at hsplit
            exact (List.cons.inj hsplit).1.symm
          refine ⟨(trimLineEnd line).takeWhile isWhitespace, trim (d :: front'), q,
            ⟨rest, ?_⟩, fun x hx => ?_, hq, fun x hx => ⟨?_, ?_⟩, ⟨d, ?_, hd, ?_, ?_⟩,
            fun x hx => ?_⟩
          · obtain rfl : c = '=' := of_decide_eq_true hc
            rw [← List.append_assoc (trim (d :: front')), ← hsplit, ← ht, hindent]
          · exact List.all_eq_true.mp List.all_takeWhile x hx
          · exact List.all_eq_true.mp hall x hx
          · have hmem : x ∈ d :: front' := by
              rw [hsplit]
              exact List.mem_append_left q hx
            exact of_decide_eq_false (hfront x hmem)
          · rw [hkey', hk]
            rfl
          · rintro rfl
            exact hbracket (by rw [ht]; rfl)
          · rintro rfl
            exact hkey.1 (by rw [ht]; rfl)
          · exact not_of_mem_getLast?_trimEndMatches hx
        next => exact ⟨none, rfl, fun e he => nomatch he⟩
    next => exact ⟨none, rfl, fun e he => nomatch he⟩

/-- **The range of a key** covers it if the padding ends with as much as the indentation. -/
lemma spanOk_tomlKey (relPath : String) (h : IsKeyLine isAlphanumeric line indent key pad)
    (hline : IsLine text o line) :
    SpanOk text (tomlKey relPath text o (byteLen (key ++ pad)) (String.ofList key)
      (o + byteLen indent)) ↔ PadCovers indent pad := by
  obtain ⟨rest, hsplit, -⟩ := keyLine_parts h
  obtain ⟨before, after, htext, rfl⟩ := hline.split
  obtain ⟨tail, htail⟩ := exists_trimmed line
  have hwhole : text =
      before ++ (indent ++ (key ++ (pad ++ ('=' :: rest ++ (tail ++ after))))) := by
    rw [htext, htail, hsplit]
    simp only [List.append_assoc]
  constructor
  · intro hok
    obtain ⟨a, b, hcut, hlen⟩ := hok.boundary.2
    have hcovers := hok.covers.2
    simp only [tomlKey, String.toList_ofList, byteLen_add] at hlen hcovers
    have hpos : ∀ ch : Char, 0 < ch.utf8Size := fun ch => ch.utf8Size_pos
    have ha : a <+: text := ⟨b, hcut.symm⟩
    have hkey : before ++ (indent ++ key) <+: text :=
      ⟨pad ++ ('=' :: rest ++ (tail ++ after)), by rw [hwhole]; simp only [List.append_assoc]⟩
    have hpad : before ++ (indent ++ (key ++ pad)) <+: text :=
      ⟨'=' :: rest ++ (tail ++ after), by rw [hwhole]; simp only [List.append_assoc]⟩
    have hfront : before ++ (indent ++ key) <+: a := by
      refine prefix_of_measure_le hpos hkey ha ?_
      show byteLen _ ≤ byteLen _
      rw [byteLen_add, byteLen_add]
      omega
    have hback : a <+: before ++ (indent ++ (key ++ pad)) := by
      refine prefix_of_measure_le hpos ha hpad ?_
      show byteLen _ ≤ byteLen _
      rw [byteLen_add, byteLen_add, byteLen_add]
      omega
    obtain ⟨p, rfl⟩ := hfront
    obtain ⟨q, hq⟩ := hback
    simp only [List.append_assoc, List.append_cancel_left_eq] at hq
    refine ⟨p, q, hq.symm, ?_⟩
    rw [← hq] at hlen
    simp only [byteLen_add] at hlen
    omega
  · rintro ⟨p, q, rfl, hq⟩
    have hpos := lineColAt_pos text (byteLen before)
    have hplaces := places_of_line (k := byteLen (key ++ (p ++ q))) hpos.1 hpos.2
    refine SpanOk.of_split (a := before) (m := indent ++ (key ++ p))
      (b := q ++ ('=' :: rest ++ (tail ++ after))) (p := indent) (q := p) ?_ rfl rfl ?_ rfl rfl
      hplaces.1 hplaces.2
    · rw [hwhole]
      simp only [List.append_assoc]
    · simp only [tomlKey, byteLen_add]
      push_cast
      omega

/-! ## JSON -/

lemma getElem_jsonString (bytes : List UInt8) (j : ℕ) (h : jsonString bytes j < bytes.length) :
    bytes[jsonString bytes j] = 0x22 := by
  fun_induction jsonString bytes j with
  | case1 j hj hquote => exact hquote
  | case2 j hj hquote ih => exact ih h
  | case3 j hj => exact absurd h hj

/-- Two quotes with a key between them. -/
lemma spanOk_jsonKey (relPath : String) (hi : (bytesOf text)[i]? = some 0x22)
    (hj : (bytesOf text)[j]? = some 0x22) (hij : i + 1 ≤ j) :
    ∃ key, slice text (i + 1) j = some key ∧
      SpanOk text (jsonKey relPath text i j (String.ofList key)) := by
  obtain ⟨a, c, r, hleft, rfl, hsize, -⟩ := exists_of_getElem? hi (by decide)
  obtain ⟨a', c', r', hright, rfl, hsize', -⟩ := exists_of_getElem? hj (by decide)
  have hfront : a ++ [c] <+: a' := by
    have hquote : a ++ [c] <+: text := ⟨r, by rw [hleft, List.append_assoc]; rfl⟩
    refine prefix_of_measure_le (fun ch => ch.utf8Size_pos) hquote ⟨c' :: r', hright.symm⟩ ?_
    show byteLen _ ≤ byteLen _
    rw [byteLen_add, byteLen_head, hsize]
    exact hij
  obtain ⟨key, rfl⟩ := hfront
  have hlen : byteLen (a ++ [c] ++ key) = byteLen a + 1 + byteLen key := by
    rw [byteLen_add, byteLen_add, byteLen_head, hsize]
    rfl
  refine ⟨key, ?_, ?_⟩
  · have hslice := slice_append (a ++ [c]) key (c' :: r')
    rw [← byteLen_add, byteLen_add, byteLen_head, hsize, ← List.append_assoc, ← hright] at hslice
    exact hslice
  · have hpos := lineColAt_pos text (byteLen a)
    have hplaces := places_of_line (k := byteLen (a ++ [c] ++ key) - byteLen a) hpos.1 hpos.2
    refine SpanOk.of_split (a := a) (m := [c] ++ (key ++ [c'])) (b := r') (p := [c]) (q := [c'])
      ?_ rfl rfl ?_ rfl ?_ hplaces.1 hplaces.2
    · rw [hright]
      simp only [List.append_assoc, List.cons_append, List.nil_append]
    · have hnil : byteLen ([] : List Char) = 0 := rfl
      simp only [jsonKey, hlen, byteLen_add, byteLen_head, hsize, hsize', hnil]
      push_cast
      omega
    · rw [byteLen_head, hsize]
      rfl

/-- **JSON.**  No slice panics, and every key is covered. -/
lemma jsonLoop_ok (relPath : String) (text : List Char) (i : ℕ) (depth : Int32)
    (expectKey : Bool) : ∃ found, jsonLoop relPath text (bytesOf text) i depth expectKey =
      some found ∧ ∀ e ∈ found, SpanOk text e := by
  induction hn : (bytesOf text).length - i using Nat.strong_induction_on
    generalizing i depth expectKey with
  | _ n ih =>
    have hnext : ∀ {i'} (_ : i < i') (_ : i < (bytesOf text).length) (depth : Int32)
        (expectKey : Bool), ∃ found,
          jsonLoop relPath text (bytesOf text) i' depth expectKey = some found ∧
            ∀ e ∈ found, SpanOk text e := fun hlt hin depth expectKey =>
      ih _ (by rw [← hn]; exact Nat.sub_lt_sub_left hin hlt) _ depth expectKey rfl
    rw [jsonLoop]
    split
    next hin =>
      have hstep := hnext (Nat.lt_succ_self i) hin
      have hle := le_jsonString (bytesOf text) (i + 1)
      obtain ⟨rest, hrest, hok⟩ := hnext (lt_min (Nat.lt_succ_of_lt hle) hin) hin depth false
      dsimp only
      split_ifs with hquote hkey
      · obtain ⟨-, -, hj⟩ := hkey
        have hclose : (bytesOf text)[jsonString (bytesOf text) (i + 1)]? = some 0x22 := by
          rw [List.getElem?_eq_getElem hj, getElem_jsonString _ _ hj]
        have hopen : (bytesOf text)[i]? = some 0x22 := by
          rw [List.getElem?_eq_getElem hin, hquote]
        obtain ⟨key, hslice, hspan⟩ := spanOk_jsonKey relPath hopen hclose hle
        rw [hslice, hrest]
        refine ⟨_, rfl, fun e he => ?_⟩
        rcases List.mem_append.mp he with he | he
        · rw [List.mem_singleton.mp he]
          exact hspan
        · exact hok e he
      · rw [hrest]
        exact ⟨rest, rfl, hok⟩
      all_goals exact hstep _ _
    next => exact ⟨[], rfl, fun e he => absurd he List.not_mem_nil⟩

end Spans

end WorkspaceAtlas
