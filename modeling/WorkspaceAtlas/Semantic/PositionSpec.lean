/-
# What a position names

A position is a line and a number of code units; a place in a document is a front of its text.
The position of a place is the number of line breaks before it and the measure of what follows
the last of them.  `scip_position_to_byte_offset` finds the places behind which, or before which
at once, something other than a carriage return is left of the line: carriage returns at its end
are cut off, whether a line break follows them or not.
-/
import WorkspaceAtlas.Semantic.Positions
import WorkspaceAtlas.Text.Lines

namespace WorkspaceAtlas

open Text

/-! ## Places -/

/-- The encodings that name their code units. -/
def PositionEncoding.counts : PositionEncoding → Bool
  | utf8 | utf16 | utf32 => true
  | unspecified | unknown _ => false

/-- The code units of a character, in bytes for the other encodings. -/
def PositionEncoding.unitSize (encoding : PositionEncoding) (ch : Char) : ℕ :=
  (encoding.unitLen ch).getD ch.utf8Size

/-- The code units of a text. -/
def PositionEncoding.units (encoding : PositionEncoding) (s : List Char) : ℕ :=
  (s.map encoding.unitSize).sum

/-- The place is between the two characters of a line terminator. -/
def InTerminator (before after : List Char) : Prop :=
  before.getLast? = some '\r' ∧ after.head? = some '\n'

/-- The place is left of its line: no carriage return stands before it, or something else stands
behind it in the line. -/
def Reached (before after : List Char) : Prop :=
  (∃ ch ∈ after.takeWhile (· ≠ '\n'), ch ≠ '\r') ∨ before.getLast? ≠ some '\r'

section Units

variable {encoding : PositionEncoding} {text cur : List Char} {target byte units b : ℕ}

lemma unitSize_pos (encoding : PositionEncoding) (ch : Char) : 0 < encoding.unitSize ch := by
  have hsize := ch.utf8Size_pos
  cases encoding with
  | utf16 =>
    rw [PositionEncoding.unitSize, PositionEncoding.unitLen, Option.getD_some]
    split <;> omega
  | utf32 => exact Nat.one_pos
  | unspecified => exact hsize
  | utf8 => exact hsize
  | unknown value => exact hsize

@[simp] lemma units_nil (encoding : PositionEncoding) : encoding.units [] = 0 := rfl

lemma units_cons (encoding : PositionEncoding) (ch : Char) (s : List Char) :
    encoding.units (ch :: s) = encoding.unitSize ch + encoding.units s := by
  rw [PositionEncoding.units, List.map_cons, List.sum_cons]
  rfl

lemma units_eq_zero_iff : encoding.units cur = 0 ↔ cur = [] := by
  cases cur with
  | nil => simp
  | cons ch s =>
    have hpos := unitSize_pos encoding ch
    rw [units_cons]
    exact iff_of_false (by omega) (by simp)

lemma byteLen_cons (ch : Char) (s : List Char) :
    byteLen (ch :: s) = ch.utf8Size + byteLen s := by
  rw [byteLen, List.map_cons, List.sum_cons]
  rfl

/-- The boundaries of a text are the ends of its fronts. -/
lemma isCharBoundary_iff {n : ℕ} :
    isCharBoundary text n = true ↔ ∃ cur, cur <+: text ∧ byteLen cur = n := by
  induction text generalizing n with
  | nil =>
    cases n with
    | zero => exact iff_of_true rfl ⟨[], List.prefix_rfl, rfl⟩
    | succ n =>
      refine iff_of_false (by simp [isCharBoundary]) ?_
      rintro ⟨cur, hcur, hlen⟩
      rw [List.prefix_nil.mp hcur] at hlen
      exact absurd hlen (by simp [byteLen])
  | cons ch rest ih =>
    have hpos := ch.utf8Size_pos
    cases n with
    | zero => exact iff_of_true rfl ⟨[], List.nil_prefix, rfl⟩
    | succ n =>
      rw [isCharBoundary]
      constructor
      · intro h
        split at h
        next hle =>
          obtain ⟨cur, hcur, hlen⟩ := ih.mp h
          exact ⟨ch :: cur, List.cons_prefix_cons.mpr ⟨rfl, hcur⟩, by rw [byteLen_cons]; omega⟩
        next => exact absurd h (by simp)
      · rintro ⟨cur, hcur, hlen⟩
        cases cur with
        | nil => exact absurd hlen (by simp [byteLen])
        | cons d cur =>
          obtain ⟨rfl, htail⟩ := List.cons_prefix_cons.mp hcur
          rw [byteLen_cons] at hlen
          rw [if_pos (by omega)]
          exact ih.mpr ⟨cur, htail, by omega⟩

/-- The loop stops behind the front that measures what is asked for. -/
lemma unitsLoop_eq_some_iff (hne : encoding ≠ .utf8) :
    unitsLoop encoding target text byte units = some b ↔
      ∃ cur, cur <+: text ∧ b = byte + byteLen cur ∧ units + encoding.units cur = target ∧
        (encoding.counts = true ∨ cur = []) := by
  induction text generalizing byte units with
  | nil =>
    rw [unitsLoop]
    constructor
    · intro h
      obtain ⟨htarget, hb⟩ := Option.ite_none_right_eq_some.mp h
      exact ⟨[], List.prefix_rfl, (Option.some.inj hb).symm, htarget, .inr rfl⟩
    · rintro ⟨cur, hcur, rfl, htarget, -⟩
      rw [List.prefix_nil.mp hcur] at htarget ⊢
      exact if_pos htarget
  | cons ch rest ih =>
    have hpos := unitSize_pos encoding ch
    rw [unitsLoop]
    by_cases htarget : units = target
    · rw [if_pos htarget, Option.some.injEq]
      constructor
      · rintro rfl
        exact ⟨[], List.nil_prefix, rfl, htarget, .inr rfl⟩
      · rintro ⟨cur, -, rfl, hunits, -⟩
        rw [units_eq_zero_iff.mp (show encoding.units cur = 0 by omega)]
        rfl
    · rw [if_neg htarget]
      have hcons : ∀ cur, cur <+: ch :: rest → units + encoding.units cur = target →
          ∃ cur', cur = ch :: cur' ∧ cur' <+: rest := by
        intro cur hcur hunits
        cases cur with
        | nil => exact absurd hunits htarget
        | cons d cur' =>
          obtain ⟨rfl, htail⟩ := List.cons_prefix_cons.mp hcur
          exact ⟨cur', rfl, htail⟩
      cases hlen : encoding.unitLen ch with
      | none =>
        -- the encoding counts nothing, so only the empty front is measured
        refine iff_of_false (by simp) ?_
        rintro ⟨cur, hcur, -, hunits, hcounts⟩
        obtain ⟨cur', rfl, -⟩ := hcons cur hcur hunits
        rcases hcounts with hcounts | hnil
        · cases encoding <;> simp_all [PositionEncoding.unitLen, PositionEncoding.counts]
        · exact absurd hnil (by simp)
      | some k =>
        have hsize : encoding.unitSize ch = k := by
          rw [PositionEncoding.unitSize, hlen, Option.getD_some]
        have hcounts : encoding.counts = true := by
          cases encoding <;> simp_all [PositionEncoding.unitLen, PositionEncoding.counts]
        dsimp only
        split
        next hlong =>
          refine iff_of_false (by simp) ?_
          rintro ⟨cur, hcur, -, hunits, -⟩
          obtain ⟨cur', rfl, -⟩ := hcons cur hcur hunits
          rw [units_cons, hsize] at hunits
          omega
        next =>
          rw [ih]
          constructor
          · rintro ⟨cur, hcur, rfl, hunits, -⟩
            refine ⟨ch :: cur, List.cons_prefix_cons.mpr ⟨rfl, hcur⟩, ?_, ?_, .inl hcounts⟩
            · rw [byteLen_cons, Nat.add_assoc]
            · rw [units_cons, hsize]
              omega
          · rintro ⟨cur, hcur, rfl, hunits, -⟩
            obtain ⟨cur', rfl, hcur'⟩ := hcons cur hcur hunits
            rw [units_cons, hsize] at hunits
            exact ⟨cur', hcur', by rw [byteLen_cons, Nat.add_assoc], by omega, .inl hcounts⟩

/-- **A column of a line** is the end of the front that measures it. -/
lemma byteOffsetForUnits_eq_some_iff : byteOffsetForUnits text target encoding = some b ↔
    ∃ cur, cur <+: text ∧ b = byteLen cur ∧ encoding.units cur = target ∧
      (encoding.counts = true ∨ cur = []) := by
  rw [byteOffsetForUnits]
  by_cases hutf8 : encoding = .utf8
  · subst hutf8
    have hunits : ∀ cur, PositionEncoding.utf8.units cur = byteLen cur := fun _ => rfl
    rw [if_pos rfl, Option.ite_none_right_eq_some, Option.some.injEq]
    simp only [hunits]
    constructor
    · rintro ⟨⟨-, hboundary⟩, rfl⟩
      obtain ⟨cur, hcur, hlen⟩ := isCharBoundary_iff.mp hboundary
      exact ⟨cur, hcur, hlen.symm, hlen, .inl rfl⟩
    · rintro ⟨cur, hcur, rfl, rfl, -⟩
      obtain ⟨more, rfl⟩ := hcur
      refine ⟨⟨?_, isCharBoundary_iff.mpr ⟨cur, List.prefix_append _ _, rfl⟩⟩, rfl⟩
      rw [byteLen_append]
      omega
  · rw [if_neg hutf8, unitsLoop_eq_some_iff hutf8]
    simp only [Nat.zero_add]

end Units

/-! ## Lines -/

/-- What `scip_position_to_byte_offset` cuts off the end of a line. -/
def isLineEnd (ch : Char) : Bool := ch = '\n' || ch = '\r'

/-- A place with a position, which is left of its line. -/
structure PlaceAt (encoding : PositionEncoding) (line character : ℕ)
    (before after : List Char) : Prop where
  breaks : before.count '\n' = line
  measure : encoding.units (afterLast '\n' before) = character
  reached : Reached before after
  counted : encoding.counts = true ∨ character = 0

section Lines

variable {encoding : PositionEncoding} {text seg rest before after more tail : List Char}
  {character n offset b : ℕ}

/-- Nothing of a line follows its break. -/
lemma takeWhile_line (hmore : '\n' ∉ more) (htail : tail = [] ∨ ∃ rest, tail = '\n' :: rest) :
    (more ++ tail).takeWhile (· ≠ '\n') = more := by
  have hself : more.takeWhile (· ≠ '\n') = more := by
    refine List.takeWhile_eq_self_iff.mpr fun ch hch => decide_eq_true ?_
    rintro rfl
    exact hmore hch
  rcases htail with rfl | ⟨rest, rfl⟩
  · rw [List.append_nil, hself]
  · rw [takeWhile_append_cons (by simp), hself]

/-- A place is left of its line if the trimmed line begins with what stands before it. -/
lemma reached_iff (hseg : '\n' ∉ before ++ more)
    (htail : tail = [] ∨ ∃ rest, tail = '\n' :: rest) :
    Reached before (more ++ tail) ↔ before <+: trimEndMatches isLineEnd (before ++ more) := by
  rw [List.mem_append, not_or] at hseg
  obtain ⟨hbefore, hmore⟩ := hseg
  have hkept : ∀ ch, ch ≠ '\n' → (isLineEnd ch = false ↔ ch ≠ '\r') := by
    intro ch hch
    simp [isLineEnd, hch]
  rw [Reached, takeWhile_line hmore htail, prefix_trimEndMatches_iff]
  refine or_congr (exists_congr fun ch => and_congr_right fun hch => ?_) ?_
  · refine (hkept ch ?_).symm
    rintro rfl
    exact hmore hch
  · constructor
    · intro hlast ch hch
      refine (hkept ch ?_).mpr ?_
      · rintro rfl
        exact hbefore (List.mem_of_getLast? hch)
      · rintro rfl
        exact hlast hch
    · intro hall hlast
      exact absurd (hall '\r' hlast) (by decide)

lemma trimEndMatches_break (seg : List Char) :
    trimEndMatches isLineEnd (seg ++ ['\n']) = trimEndMatches isLineEnd seg :=
  trimEndMatches_append_of_pos fun ch hch => by
    rw [List.mem_singleton.mp hch]
    rfl

/-- The columns of a line are the places in it. -/
lemma column_iff (hseg : '\n' ∉ seg) (htail : tail = [] ∨ ∃ rest, tail = '\n' :: rest) :
    (byteOffsetForUnits (trimEndMatches isLineEnd seg) character encoding).map (offset + ·) =
        some b ↔
      ∃ before more, seg = before ++ more ∧ b = offset + byteLen before ∧
        PlaceAt encoding 0 character before (more ++ tail) := by
  rw [Option.map_eq_some_iff]
  simp only [byteOffsetForUnits_eq_some_iff]
  constructor
  · rintro ⟨column, ⟨before, hbefore, rfl, hunits, hcounts⟩, rfl⟩
    obtain ⟨more, rfl⟩ := hbefore.trans (prefix_trimEndMatches isLineEnd seg)
    have hnot : '\n' ∉ before := fun hmem => hseg (List.mem_append_left _ hmem)
    refine ⟨before, more, rfl, rfl, List.count_eq_zero_of_not_mem hnot, ?_,
      (reached_iff hseg htail).mpr hbefore, hcounts.imp_right ?_⟩
    · rwa [afterLast_last hnot]
    · rintro rfl
      exact hunits.symm
  · rintro ⟨before, more, rfl, rfl, hplace⟩
    have hnot : '\n' ∉ before := fun hmem => hseg (List.mem_append_left _ hmem)
    have hunits := hplace.measure
    rw [afterLast_last hnot] at hunits
    refine ⟨_, ⟨before, (reached_iff hseg htail).mp hplace.reached, rfl, hunits,
      hplace.counted.imp_right ?_⟩, rfl⟩
    intro hzero
    exact units_eq_zero_iff.mp (hunits.trans hzero)

lemma lineLoop_eq_none_iff : ∀ {lines : List (List Char)} {n offset : ℕ},
    lineLoop character encoding lines n offset = none ↔ lines.length ≤ n := by
  intro lines
  induction lines with
  | nil => simp [lineLoop]
  | cons line lines ih =>
    intro n offset
    cases n with
    | zero => simp [lineLoop]
    | succ n =>
      rw [lineLoop, ih, List.length_cons]
      omega

/-- A place behind a line break, seen from the next line. -/
lemma placeAt_line (hseg : '\n' ∉ seg) : PlaceAt encoding (n + 1) character
    (seg ++ '\n' :: before) after ↔ PlaceAt encoding n character before after := by
  have hcount : (seg ++ '\n' :: before).count '\n' = before.count '\n' + 1 := by
    rw [List.count_append, List.count_eq_zero_of_not_mem hseg, List.count_cons_self]
    omega
  have hlast : (seg ++ '\n' :: before).getLast? ≠ some '\r' ↔ before.getLast? ≠ some '\r' := by
    rw [List.getLast?_append_of_ne_nil _ (by simp)]
    cases before with
    | nil => exact iff_of_true (by decide) (by simp)
    | cons ch before => rw [List.getLast?_cons_cons]
  constructor
  · rintro ⟨hbreaks, hmeasure, hreached, hcounted⟩
    rw [hcount] at hbreaks
    rw [afterLast_line] at hmeasure
    exact ⟨by omega, hmeasure, hreached.imp_right hlast.mp, hcounted⟩
  · rintro ⟨hbreaks, hmeasure, hreached, hcounted⟩
    exact ⟨by omega, by rwa [afterLast_line], hreached.imp_right hlast.mpr, hcounted⟩

/-- **The loop over the lines finds the places of the text**, all but the end of a text that ends
with a line break. -/
lemma lineLoop_eq_some_iff :
    lineLoop character encoding (splitInclusive '\n' text) n offset = some (some b) ↔
      ∃ before after, text = before ++ after ∧ b = offset + byteLen before ∧
        PlaceAt encoding n character before after ∧
          (after ≠ [] ∨ afterLast '\n' before ≠ []) := by
  induction text using line_induction '\n' generalizing n offset with
  | last seg hseg =>
    by_cases hne : seg = []
    · subst hne
      refine iff_of_false (by simp [splitInclusive, lineLoop]) ?_
      rintro ⟨before, after, hsplit, -, -, hline⟩
      obtain ⟨rfl, rfl⟩ := List.append_eq_nil_iff.mp hsplit.symm
      simp at hline
    · rw [splitInclusive_last hseg hne]
      cases n with
      | zero =>
        rw [lineLoop, Option.some.injEq]
        refine (column_iff hseg (.inl rfl)).trans ⟨?_, ?_⟩
        · rintro ⟨before, more, rfl, hb, hplace⟩
          have hnot : '\n' ∉ before := fun hmem => hseg (List.mem_append_left _ hmem)
          rw [List.append_nil] at hplace
          refine ⟨before, more, rfl, hb, hplace, ?_⟩
          rw [afterLast_last hnot, ← not_and_or]
          rintro ⟨rfl, rfl⟩
          exact hne rfl
        · rintro ⟨before, after, rfl, hb, hplace, -⟩
          exact ⟨before, after, rfl, hb, by rwa [List.append_nil]⟩
      | succ n =>
        refine iff_of_false (by simp [lineLoop]) ?_
        rintro ⟨before, after, rfl, -, hplace, -⟩
        have hbreaks := hplace.breaks
        rw [List.count_eq_zero_of_not_mem fun hmem => hseg (List.mem_append_left _ hmem)] at hbreaks
        exact absurd hbreaks (by simp)
  | line seg rest hseg ih =>
    rw [splitInclusive_line hseg]
    cases n with
    | zero =>
      have htrim : trimEndMatches (fun ch => ch = '\n' || ch = '\r') (seg ++ ['\n']) =
          trimEndMatches isLineEnd seg := trimEndMatches_break seg
      rw [lineLoop, Option.some.injEq, htrim]
      refine (column_iff hseg (.inr ⟨rest, rfl⟩)).trans ⟨?_, ?_⟩
      · rintro ⟨before, more, rfl, hb, hplace⟩
        exact ⟨before, more ++ '\n' :: rest, by rw [List.append_assoc], hb, hplace,
          .inl (by simp)⟩
      · rintro ⟨before, after, hsplit, hb, hplace, -⟩
        rcases append_eq_line hseg hsplit.symm with ⟨-, more, hmore, rfl⟩ | ⟨before', rfl, -⟩
        · exact ⟨before, more, hmore, hb, hplace⟩
        · have hbreaks := hplace.breaks
          rw [List.count_append, List.count_cons_self] at hbreaks
          omega
    | succ n =>
      rw [lineLoop, ih]
      have hlen : ∀ before, byteLen (seg ++ '\n' :: before) =
          byteLen (seg ++ ['\n']) + byteLen before := by
        intro before
        rw [← byteLen_append, List.append_assoc]
        rfl
      constructor
      · rintro ⟨before, after, rfl, rfl, hplace, hline⟩
        refine ⟨seg ++ '\n' :: before, after, by simp, ?_, (placeAt_line hseg).mpr hplace, ?_⟩
        · rw [hlen before, Nat.add_assoc]
        · rwa [afterLast_line]
      · rintro ⟨before, after, hsplit, rfl, hplace, hline⟩
        rcases append_eq_line hseg hsplit.symm with ⟨hnot, -⟩ | ⟨before', rfl, hrest⟩
        · have hbreaks := hplace.breaks
          rw [List.count_eq_zero_of_not_mem hnot] at hbreaks
          omega
        · refine ⟨before', after, hrest.symm, ?_, (placeAt_line hseg).mp hplace, ?_⟩
          · rw [hlen, Nat.add_assoc]
          · rwa [afterLast_line] at hline

/-- The end of a text that ends with a line break. -/
lemma placeAt_end (hend : text.getLast? = some '\n') :
    PlaceAt encoding (text.count '\n') 0 text [] where
  breaks := rfl
  measure := by rw [(getLast?_eq_sep_iff.mp hend).2, units_nil]
  reached := .inr (by rw [hend]; decide)
  counted := .inr rfl

/-- The places of a text with a position in a line that the loop does not meet. -/
lemma placeAt_behind_lines (hne : text ≠ []) (hlines : (splitInclusive '\n' text).length ≤ n)
    (hsplit : text = before ++ after) (hplace : PlaceAt encoding n character before after) :
    n = (splitInclusive '\n' text).length ∧ text.getLast? = some '\n' ∧ character = 0 ∧
      before = text := by
  have hlength := length_splitInclusive '\n' text
  have hbreaks := hplace.breaks
  have hcount : text.count '\n' = before.count '\n' + after.count '\n' := by
    rw [hsplit, List.count_append]
  have hlast : afterLast '\n' text = [] := by
    by_contra hlast
    rw [if_neg hlast] at hlength
    omega
  rw [hlast, if_pos rfl] at hlength
  have hend : text.getLast? = some '\n' := getLast?_eq_sep_iff.mpr ⟨hne, hlast⟩
  -- no line break stands behind the place, and the text ends with one
  have hafter : after = [] := by
    by_contra hafter
    rw [hsplit, List.getLast?_append_of_ne_nil _ hafter] at hend
    have hpos := List.count_pos_iff.mpr (List.mem_of_getLast? hend)
    omega
  rw [hafter, List.append_nil] at hsplit
  refine ⟨by omega, hend, ?_, hsplit.symm⟩
  rw [← hplace.measure, ← hsplit, hlast, units_nil]

/-- Positions that are converted are natural. -/
lemma exists_nat_of_eq_some {line column : ℤ}
    (h : scipPositionToByteOffset text line column encoding = some b) :
    ∃ n character : ℕ, line = n ∧ column = character := by
  rw [scipPositionToByteOffset] at h
  split at h
  · exact absurd h (by simp)
  next hneg =>
    exact ⟨line.toNat, column.toNat, by omega, by omega⟩

/-- **What a position is converted to**: the place of a text that is not empty with that
position. -/
theorem scipPositionToByteOffset_eq_some_iff :
    scipPositionToByteOffset text n character encoding = some b ↔
      text ≠ [] ∧ ∃ before after, text = before ++ after ∧ b = byteLen before ∧
        PlaceAt encoding n character before after := by
  rw [scipPositionToByteOffset, if_neg (by omega)]
  simp only [Int.toNat_natCast]
  cases hloop : lineLoop character encoding (splitInclusive '\n' text) n 0 with
  | some result =>
    have hlt : ¬ (splitInclusive '\n' text).length ≤ n := by
      rw [← lineLoop_eq_none_iff, hloop]
      simp
    have hiff : result = some b ↔ ∃ before after, text = before ++ after ∧
        b = 0 + byteLen before ∧ PlaceAt encoding n character before after ∧
          (after ≠ [] ∨ afterLast '\n' before ≠ []) := by
      rw [← lineLoop_eq_some_iff, hloop, Option.some.injEq]
    dsimp only
    rw [hiff]
    constructor
    · rintro ⟨before, after, rfl, hb, hplace, hline⟩
      refine ⟨?_, before, after, rfl, by omega, hplace⟩
      rintro hnil
      obtain ⟨rfl, rfl⟩ := List.append_eq_nil_iff.mp hnil
      simp at hline
    · rintro ⟨hne, before, after, rfl, hb, hplace⟩
      refine ⟨before, after, rfl, by omega, hplace, ?_⟩
      rw [← not_and_or]
      rintro ⟨rfl, hlast⟩
      -- the place would be behind the last line
      have hlength := length_splitInclusive '\n' (before ++ [])
      rw [List.append_nil] at hlength hlt
      rw [hlast, if_pos rfl, hplace.breaks] at hlength
      omega
  | none =>
    have hlines := lineLoop_eq_none_iff.mp hloop
    dsimp only
    rw [Option.ite_none_right_eq_some, Option.some.injEq]
    constructor
    · rintro ⟨⟨rfl, hend, hzero⟩, rfl⟩
      refine ⟨(getLast?_eq_sep_iff.mp hend).1, text, [], (List.append_nil _).symm, rfl, ?_⟩
      have hlength := length_splitInclusive '\n' text
      rw [(getLast?_eq_sep_iff.mp hend).2, if_pos rfl, Nat.add_zero] at hlength
      obtain rfl : character = 0 := by omega
      rw [hlength]
      exact placeAt_end hend
    · rintro ⟨hne, before, after, hsplit, rfl, hplace⟩
      obtain ⟨hlength, hend, rfl, hbefore⟩ := placeAt_behind_lines hne hlines hsplit hplace
      exact ⟨⟨hlength, hend, rfl⟩, by rw [hbefore]⟩

/-- A place is determined by its position. -/
lemma before_eq_of_place {before' after' : List Char} (hsplit : text = before ++ after)
    (hsplit' : text = before' ++ after')
    (hbreaks : before.count '\n' = before'.count '\n')
    (hmeasure : encoding.units (afterLast '\n' before) = encoding.units (afterLast '\n' before')) :
    before = before' := by
  have hpos : ∀ ch, 0 < encoding.unitSize ch := unitSize_pos encoding
  have hfirst : before <+: before' :=
    prefix_of_line_le hpos ⟨after, hsplit.symm⟩ ⟨after', hsplit'.symm⟩ hbreaks hmeasure.le
  have hsecond : before' <+: before :=
    prefix_of_line_le hpos ⟨after', hsplit'.symm⟩ ⟨after, hsplit.symm⟩ hbreaks.symm hmeasure.ge
  exact hfirst.eq_of_length_le hsecond.length_le

end Lines

/-! ## Exact conversion -/

/-- Positions of a document in an encoding are converted exactly: every place outside a line
terminator is found, what is found is a place in the line that was asked for, places are ordered
as their positions, and an encoding without code units finds nothing. -/
structure ConvertsExactly (text : List Char) (encoding : PositionEncoding) : Prop where
  found : encoding.counts = true → ∀ before after, text = before ++ after →
    ¬ InTerminator before after → scipPositionToByteOffset text (before.count '\n')
      (encoding.units (afterLast '\n' before)) encoding = some (byteLen before)
  placed : ∀ line column b, scipPositionToByteOffset text line column encoding = some b →
    ∃ before after, text = before ++ after ∧ byteLen before = b ∧
      (before.count '\n' : ℤ) = line
  ordered : ∀ line column line' column' b b', line < line' ∨ line = line' ∧ column ≤ column' →
    scipPositionToByteOffset text line column encoding = some b →
    scipPositionToByteOffset text line' column' encoding = some b' → b ≤ b'
  closed : encoding.counts = false → ∀ line column,
    scipPositionToByteOffset text line column encoding = none

/-- The documents that are converted exactly: for an encoding with code units those that are not
empty and have no line with a carriage return before its terminator or, if it has none, at its
end; for the others the empty document. -/
def Convertible (text : List Char) (encoding : PositionEncoding) : Prop :=
  if encoding.counts = true then
    text ≠ [] ∧ text.getLast? ≠ some '\r' ∧ ¬ ['\r', '\r', '\n'] <:+: text
  else text = []

section Exact

variable {encoding : PositionEncoding} {text before after : List Char}

lemma getLast?_append_of_all {ch : Char} {more : List Char} (hlast : before.getLast? = some ch)
    (hall : ∀ d ∈ more, d = ch) : (before ++ more).getLast? = some ch := by
  cases hmore : more.getLast? with
  | none => rw [List.getLast?_eq_none_iff.mp hmore, List.append_nil, hlast]
  | some d =>
    rw [List.getLast?_append, hmore, hall d (List.mem_of_getLast? hmore)]
    rfl

/-- A place that is cut off although it is in no terminator stands behind a carriage return that
is left over. -/
lemma reached_of_clean (hend : text.getLast? ≠ some '\r')
    (hclean : ¬ ['\r', '\r', '\n'] <:+: text) (hsplit : text = before ++ after)
    (hplace : ¬ InTerminator before after) : Reached before after := by
  by_contra hnot
  rw [Reached, not_or, not_exists, not_not] at hnot
  obtain ⟨hall, hlast⟩ := hnot
  have hreturns : ∀ ch ∈ after.takeWhile (· ≠ '\n'), ch = '\r' := fun ch hch =>
    not_not.mp fun hne => hall ch ⟨hch, hne⟩
  have hafter := List.takeWhile_append_dropWhile (p := (· ≠ '\n')) (l := after)
  have hrest := List.head?_dropWhile_not (· ≠ '\n') after
  generalize after.takeWhile (· ≠ '\n') = returns at hreturns hafter
  generalize after.dropWhile (· ≠ '\n') = rest at hafter hrest
  subst hafter
  -- carriage returns up to the end of the line, and one before them
  cases rest with
  | nil =>
    rw [List.append_nil] at hsplit
    exact hend (hsplit ▸ getLast?_append_of_all hlast hreturns)
  | cons ch rest =>
    obtain rfl : ch = '\n' := by simpa using hrest
    rcases List.eq_nil_or_concat returns with rfl | ⟨more, c, rfl⟩
    · exact hplace ⟨hlast, rfl⟩
    · rw [List.concat_eq_append] at hreturns hsplit
      obtain rfl : c = '\r' := hreturns c (by simp)
      have hmore : (before ++ more).getLast? = some '\r' :=
        getLast?_append_of_all hlast fun d hd => hreturns d (List.mem_append_left _ hd)
      obtain ⟨front, hfront⟩ := List.getLast?_eq_some_iff.mp hmore
      refine hclean ⟨front, rest, ?_⟩
      calc front ++ ['\r', '\r', '\n'] ++ rest
          = (front ++ ['\r']) ++ ('\r' :: '\n' :: rest) := by simp
        _ = text := by rw [← hfront, hsplit]; simp

/-- A carriage return before the end of the text or before a line terminator hides the place
behind it. -/
lemma clean_of_found (hfound : ∀ before after, text = before ++ after →
      ¬ InTerminator before after → Reached before after) :
    text.getLast? ≠ some '\r' ∧ ¬ ['\r', '\r', '\n'] <:+: text := by
  constructor
  · intro hend
    have hreached := hfound text [] (List.append_nil _).symm fun h => absurd h.2 (by simp)
    rcases hreached with ⟨ch, hch, -⟩ | hlast
    · exact absurd hch (by simp)
    · exact hlast hend
  · rintro ⟨front, rest, rfl⟩
    have hreached := hfound (front ++ ['\r']) ('\r' :: '\n' :: rest) (by simp)
      fun h => absurd h.2 (by simp)
    rcases hreached with ⟨ch, hch, hne⟩ | hlast
    · exact hne (by simpa using hch)
    · exact hlast (by simp)

lemma scip_eq_none_of_nil {line column : ℤ} :
    scipPositionToByteOffset [] line column encoding = none := by
  rw [Option.eq_none_iff_forall_ne_some]
  intro b h
  obtain ⟨n, character, rfl, rfl⟩ := exists_nat_of_eq_some h
  exact (scipPositionToByteOffset_eq_some_iff.mp h).1 rfl

lemma scip_of_reached (hne : text ≠ []) (hcounts : encoding.counts = true)
    (hsplit : text = before ++ after) (hreached : Reached before after) :
    scipPositionToByteOffset text (before.count '\n')
      (encoding.units (afterLast '\n' before)) encoding = some (byteLen before) :=
  scipPositionToByteOffset_eq_some_iff.mpr
    ⟨hne, before, after, hsplit, rfl, rfl, rfl, hreached, .inl hcounts⟩

lemma reached_of_scip {b : ℕ} (hsplit : text = before ++ after)
    (h : scipPositionToByteOffset text (before.count '\n')
      (encoding.units (afterLast '\n' before)) encoding = some b) : Reached before after := by
  obtain ⟨-, before', after', hsplit', -, hplace⟩ := scipPositionToByteOffset_eq_some_iff.mp h
  obtain rfl : before = before' :=
    before_eq_of_place hsplit hsplit' hplace.breaks.symm hplace.measure.symm
  obtain rfl := List.append_cancel_left (hsplit.symm.trans hsplit')
  exact hplace.reached

lemma placed {line column : ℤ} {b : ℕ}
    (h : scipPositionToByteOffset text line column encoding = some b) :
    ∃ before after, text = before ++ after ∧ byteLen before = b ∧
      (before.count '\n' : ℤ) = line := by
  obtain ⟨n, character, rfl, rfl⟩ := exists_nat_of_eq_some h
  obtain ⟨-, before, after, hsplit, hb, hplace⟩ := scipPositionToByteOffset_eq_some_iff.mp h
  exact ⟨before, after, hsplit, hb.symm, by rw [hplace.breaks]⟩

/-- Positions in order are those of places in order. -/
lemma ordered {line column line' column' : ℤ} {b b' : ℕ}
    (hle : line < line' ∨ line = line' ∧ column ≤ column')
    (h : scipPositionToByteOffset text line column encoding = some b)
    (h' : scipPositionToByteOffset text line' column' encoding = some b') : b ≤ b' := by
  obtain ⟨n, character, rfl, rfl⟩ := exists_nat_of_eq_some h
  obtain ⟨n', character', rfl, rfl⟩ := exists_nat_of_eq_some h'
  obtain ⟨-, before, after, hsplit, rfl, hplace⟩ := scipPositionToByteOffset_eq_some_iff.mp h
  obtain ⟨-, before', after', hsplit', rfl, hplace'⟩ :=
    scipPositionToByteOffset_eq_some_iff.mp h'
  have hfront : before <+: text := ⟨after, hsplit.symm⟩
  have hfront' : before' <+: text := ⟨after', hsplit'.symm⟩
  have hbefore : before <+: before' := by
    rcases hle with hline | ⟨hline, hcolumn⟩
    · rcases List.prefix_or_prefix_of_prefix hfront hfront' with hprefix | ⟨more, rfl⟩
      · exact hprefix
      · -- the later line would have fewer breaks before it
        have hbreaks := hplace.breaks
        have hbreaks' := hplace'.breaks
        rw [List.count_append] at hbreaks
        omega
    · have hbreaks : before.count '\n' = before'.count '\n' := by
        rw [hplace.breaks, hplace'.breaks]
        omega
      refine prefix_of_line_le (unitSize_pos encoding) hfront hfront' hbreaks ?_
      have hmeasure := hplace.measure
      have hmeasure' := hplace'.measure
      rw [PositionEncoding.units] at hmeasure hmeasure'
      omega
  obtain ⟨more, rfl⟩ := hbefore
  rw [byteLen_append]
  omega

/-- The first position of a document that is not empty is found in every encoding. -/
lemma scip_zero (hne : text ≠ []) : scipPositionToByteOffset text 0 0 encoding = some 0 :=
  scipPositionToByteOffset_eq_some_iff.mpr
    ⟨hne, [], text, rfl, rfl, rfl, rfl, .inr (by simp), .inr rfl⟩

end Exact

/-- **Positions are converted exactly** in the documents of `Convertible` and in no others. -/
theorem convertsExactly_iff (text : List Char) (encoding : PositionEncoding) :
    ConvertsExactly text encoding ↔ Convertible text encoding := by
  rw [Convertible]
  split
  next hcounts =>
    constructor
    · rintro ⟨hfound, -, -, -⟩
      have hne : text ≠ [] := by
        rintro rfl
        have hfirst := hfound hcounts [] [] rfl fun h => absurd h.1 (by simp)
        rw [scip_eq_none_of_nil] at hfirst
        exact absurd hfirst (by simp)
      exact ⟨hne, clean_of_found fun before after hsplit hplace =>
        reached_of_scip hsplit (hfound hcounts before after hsplit hplace)⟩
    · rintro ⟨hne, hend, hclean⟩
      refine ⟨fun _ before after hsplit hplace => ?_, fun _ _ _ => placed,
        fun _ _ _ _ _ _ => ordered, fun hnot => absurd hcounts (by simp [hnot])⟩
      exact scip_of_reached hne hcounts hsplit (reached_of_clean hend hclean hsplit hplace)
  next hcounts =>
    constructor
    · rintro ⟨-, -, -, hclosed⟩
      by_contra hne
      have hzero : scipPositionToByteOffset text 0 0 encoding = some 0 := scip_zero hne
      rw [hclosed (by simpa using hcounts)] at hzero
      exact absurd hzero (by simp)
    · rintro rfl
      exact ⟨fun h => absurd h hcounts, fun _ _ _ => placed, fun _ _ _ _ _ _ => ordered,
        fun _ _ _ => scip_eq_none_of_nil⟩

/-- An unspecified encoding is converted at the start of a line, and of a text with a carriage
return at its end the end is not found. -/
theorem not_convertsExactly :
    ¬ ConvertsExactly ['a'] .unspecified ∧ ¬ ConvertsExactly [] .utf8 ∧
      ¬ ConvertsExactly ['a', '\r'] .utf8 := by
  refine ⟨fun h => ?_, fun h => ?_, fun h => ?_⟩
  · exact absurd (h.closed rfl 0 0) (by decide)
  · exact absurd (h.found rfl [] [] rfl fun h => absurd h.1 (by simp)) (by decide)
  · exact absurd (h.found rfl ['a', '\r'] [] rfl fun h => absurd h.2 (by simp)) (by decide)

end WorkspaceAtlas
