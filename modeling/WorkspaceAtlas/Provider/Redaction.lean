/-
# Redaction of diagnostics

`redact_diagnostic` in `provider_runtime.rs`.  Each marker is searched for once, in the order of
the list and behind what was redacted before; what follows a marker that is not found so is kept.
-/
import Mathlib
import WorkspaceAtlas.Semantic.Evidence
import WorkspaceAtlas.Text.Bytes

namespace WorkspaceAtlas

open Text

/-- `authorization:`. -/
def authorization : List Char :=
  ['a', 'u', 't', 'h', 'o', 'r', 'i', 'z', 'a', 't', 'i', 'o', 'n', ':']

/-- `PATTERNS`. -/
def redactionPatterns : List (List Char) :=
  [['t', 'o', 'k', 'e', 'n', '='], ['s', 'e', 'c', 'r', 'e', 't', '='],
    ['p', 'a', 's', 's', 'w', 'o', 'r', 'd', '='], ['a', 'p', 'i', 'k', 'e', 'y', '='],
    ['a', 'p', 'i', '_', 'k', 'e', 'y', '='], authorization]

/-- What stands for a value. -/
def redacted : List Char := ['[', 'R', 'E', 'D', 'A', 'C', 'T', 'E', 'D', ']']

/-- What a truncated text ends with. -/
def truncatedMark : List Char :=
  ['.', '.', '.', '[', 't', 'r', 'u', 'n', 'c', 'a', 't', 'e', 'd', ']']

/-- The characters that a value ends before. -/
def endsValue (c : Char) : Bool := isWhitespace c || c = ']' || c = '"'

/-- The body of the loop over the patterns.  It is `none` where a slice would panic. -/
def redactPattern (raw lower : List Char) (s : List Char × ℕ) (pattern : List Char) :
    Option (List Char × ℕ) := do
  let (out, cursor) := s
  match find pattern (← sliceFrom lower cursor) with
  | none => some (out, cursor)
  | some pos =>
    let abs := cursor + pos + byteLen pattern
    let front ← slice raw cursor abs
    let rest ← sliceFrom raw abs
    let valueLen := byteLen (rest.takeWhile fun c => !endsValue c)
    some (out ++ front ++ redacted, abs + valueLen)

/-- What `redact_diagnostic` has put together before it looks at the length. -/
def redactMarked (raw : List Char) : Option (List Char) := do
  let (out, cursor) ←
    redactionPatterns.foldlM (redactPattern raw (toAsciiLowercase raw)) ([], 0)
  let rest ← sliceFrom raw (min cursor (byteLen raw))
  return out ++ rest

/-- `redact_diagnostic`.  `String::truncate` panics inside of a character. -/
def redactDiagnostic (raw : List Char) (maxLen : ℕ) : Option (List Char) := do
  let out ← redactMarked raw
  if maxLen < byteLen out then return (← sliceTo out maxLen) ++ truncatedMark
  else return out

/-! ## What redaction is for -/

/-- The text ends with the marker, in any letter case. -/
def EndsWithMarker (p a : List Char) : Prop := p <:+ toAsciiLowercase a

/-- The character ends a value of the marker: a header ends with its line. -/
def endsAt (p : List Char) (c : Char) : Bool :=
  if p = authorization then c = '\n' else endsValue c

/-- The value of a marker, and what follows it. -/
structure IsValue (p v b : List Char) : Prop where
  run : ∀ c ∈ v, endsAt p c = false
  ends : ∀ c ∈ b.head?, endsAt p c = true

/-- The text is not truncated. -/
def Untruncated (raw : List Char) (n : ℕ) : Prop :=
  ∃ out, redactMarked raw = some out ∧ byteLen out ≤ n

/-- What follows an occurrence of a marker does not show. -/
def LeaksNothing (raw : List Char) : Prop :=
  ∀ p ∈ redactionPatterns, ∀ x v v' y, raw = x ++ (v ++ y) → EndsWithMarker p x →
    IsValue p v y → IsValue p v' y → ∀ n, Untruncated raw n → Untruncated (x ++ (v' ++ y)) n →
      redactDiagnostic raw n = redactDiagnostic (x ++ (v' ++ y)) n

/-- What is expected of a redaction. -/
structure RedactsSafely (raw : List Char) (n : ℕ) : Prop where
  bounded : ∃ out, redactDiagnostic raw n = some out ∧
    byteLen out ≤ n + byteLen truncatedMark
  leaksNothing : LeaksNothing raw

/-! ## When it is safe -/

/-- No marker occurs. -/
def Clean (s : List Char) : Prop := ∀ p ∈ redactionPatterns, ¬ p <:+: toAsciiLowercase s

/-- The markers of a text that stand outside of values are the first ones of a list, in its order;
with the text that has their values masked. -/
inductive Masked : List (List Char) → List Char → List Char → Prop
  | clean {ps : List (List Char)} {s : List Char} (h : Clean s) : Masked ps s s
  | marker {ps : List (List Char)} {p a m v b r : List Char} (hm : toAsciiLowercase m = p)
      (hfirst : Clean (a ++ m.dropLast)) (hv : IsValue p v b) (hb : Masked ps b r) :
      Masked (p :: ps) (a ++ (m ++ (v ++ b))) (a ++ (m ++ (redacted ++ r)))

/-- The markers stand in the order of the list, none of them is a header, and the length falls
on a boundary of the masked text or behind it. -/
structure InOrder (raw : List Char) (n : ℕ) : Prop where
  noHeader : ¬ authorization <:+: toAsciiLowercase raw
  masked : ∃ r, Masked redactionPatterns raw r ∧
    (byteLen r ≤ n ∨ ∃ front behind, r = front ++ behind ∧ byteLen front = n)

namespace Redaction

variable {p q a b f g m r s t u v w x y raw : List Char} {ps : List (List Char)} {c : Char} {n : ℕ}

/-! ## Letter case -/

lemma toLower_cases (c : Char) : c.toLower = c ∨
    65 ≤ c.toNat ∧ c.toNat ≤ 90 ∧ c.toLower.toNat = c.toNat + 32 := by
  rw [Char.toLower]
  split
  next h =>
    have hlower : 65 ≤ c.toNat := h.1
    have hupper : c.toNat ≤ 90 := h.2
    refine .inr ⟨hlower, hupper, ?_⟩
    have hval : c.val.toNat ≤ 90 := hupper
    show (c.val + (97 - 65)).toNat = c.val.toNat + 32
    rw [UInt32.toNat_add]
    simp
    omega
  next => exact .inl rfl

lemma utf8Size_toLower (c : Char) : c.toLower.utf8Size = c.utf8Size := by
  rcases toLower_cases c with h | ⟨hlower, hupper, h⟩
  · rw [h]
  · have hone : ∀ d : Char, d.toNat ≤ 127 → d.utf8Size = 1 := fun d hd =>
      Char.utf8Size_eq_one_iff.mpr hd
    rw [hone c (by omega), hone c.toLower (by omega)]

/-- A letter ends no value. -/
lemma endsValue_letter (hc : 65 ≤ c.toNat ∧ c.toNat ≤ 90 ∨ 97 ≤ c.toNat ∧ c.toNat ≤ 122) :
    endsValue c = false := by
  have hbracket : c ≠ ']' := by
    rintro rfl
    exact absurd hc (by decide)
  have hquote : c ≠ '"' := by
    rintro rfl
    exact absurd hc (by decide)
  simp [endsValue, isWhitespace, hbracket, hquote]
  omega

lemma endsValue_toLower (c : Char) : endsValue c.toLower = endsValue c := by
  rcases toLower_cases c with h | ⟨hlower, hupper, h⟩
  · rw [h]
  · rw [endsValue_letter (.inl ⟨hlower, hupper⟩), endsValue_letter (.inr ⟨by omega, by omega⟩)]

lemma byteLen_toAsciiLowercase (s : List Char) : byteLen (toAsciiLowercase s) = byteLen s := by
  induction s with
  | nil => rfl
  | cons c s ih =>
    have htail : byteLen (toAsciiLowercase (c :: s)) =
        c.toLower.utf8Size + byteLen (toAsciiLowercase s) := byteLen_head _ _
    rw [htail, ih, utf8Size_toLower, byteLen_head]

lemma lower_append (a b : List Char) :
    toAsciiLowercase (a ++ b) = toAsciiLowercase a ++ toAsciiLowercase b := List.map_append

/-! ## The markers -/

lemma pattern_ne_nil (hp : p ∈ redactionPatterns) : p ≠ [] := by
  revert p
  decide

/-- What no marker has in it. -/
lemma pattern_chars (hp : p ∈ redactionPatterns) (hc : c ∈ p) :
    endsValue c = false ∧ c ∉ [' ', '#', '%', '['] := by
  revert c
  revert p
  decide

/-- A marker has its last character nowhere else, nor that of another one. -/
lemma pattern_inner (hp : p ∈ redactionPatterns) (hq : q ∈ redactionPatterns) :
    ∀ c ∈ q.getLast?, c ∉ p.dropLast := by
  have hall : ∀ p ∈ redactionPatterns, ∀ q ∈ redactionPatterns,
      ∀ c ∈ q.getLast?.toList, c ∉ p.dropLast := by decide
  intro c hc
  exact hall p hp q hq c (Option.mem_toList.mpr hc)

lemma pattern_suffix (hp : p ∈ redactionPatterns) (hq : q ∈ redactionPatterns) (h : p <:+ q) :
    p = q := by
  revert q
  revert p
  decide

lemma endsAt_of_ne (hp : p ≠ authorization) : endsAt p c = endsValue c := if_neg hp

/-! ## The loop over characters -/

/-- The text through the first occurrence of a marker, and what follows it. -/
def cut (p : List Char) : List Char → Option (List Char × List Char)
  | [] => none
  | c :: s =>
    if p <+: toAsciiLowercase (c :: s) then some ((c :: s).take p.length, (c :: s).drop p.length)
    else (cut p s).map (Prod.map (c :: ·) id)

/-- The loop, from the text that it has not gone over. -/
def redactLoop : List (List Char) → List Char → List Char
  | [], s => s
  | p :: ps, s =>
    match cut p s with
    | none => redactLoop ps s
    | some (front, rest) =>
      front ++ (redacted ++ redactLoop ps (rest.dropWhile fun c => !endsValue c))

lemma lower_take (h : p <+: toAsciiLowercase s) : toAsciiLowercase (s.take p.length) = p := by
  rw [toAsciiLowercase, List.map_take]
  exact (List.prefix_iff_eq_take.mp h).symm

/-- The shortest front that ends with the marker. -/
lemma cut_eq_some (h : cut p s = some (f, g)) : s = f ++ g ∧ EndsWithMarker p f ∧
    ∀ f' g', s = f' ++ g' → EndsWithMarker p f' → p ≠ [] → f.length ≤ f'.length := by
  induction s generalizing f with
  | nil => exact absurd h (by simp [cut])
  | cons c s ih =>
    rw [cut] at h
    split at h
    next hprefix =>
      obtain ⟨rfl, rfl⟩ := Prod.mk.inj (Option.some.inj h)
      have hle : p.length ≤ (c :: s).length := by
        simpa [toAsciiLowercase] using hprefix.length_le
      refine ⟨(List.take_append_drop _ _).symm, ?_, ?_⟩
      · rw [EndsWithMarker, lower_take hprefix]
      · intro f' g' heq hends hne
        have hlong := hends.length_le
        rw [toAsciiLowercase, List.length_map] at hlong
        rw [List.length_take]
        omega
    next hprefix =>
      obtain ⟨⟨f₀, g₀⟩, hcut, heq⟩ := Option.map_eq_some_iff.mp h
      obtain ⟨rfl, rfl⟩ := Prod.mk.inj heq
      obtain ⟨rfl, hends, hfirst⟩ := ih hcut
      refine ⟨rfl, ?_, ?_⟩
      · exact hends.trans (List.suffix_cons _ _)
      · intro f' g' heq' hends' hne
        cases f' with
        | nil => exact absurd (List.suffix_nil.mp hends') hne
        | cons d f' =>
          obtain ⟨rfl, hs⟩ := List.cons.inj heq'
          refine Nat.succ_le_succ (hfirst f' g' hs ?_ hne)
          rcases List.suffix_cons_iff.mp hends' with hall | hends'
          · have hwhole : p = toAsciiLowercase (c :: f') := hall
            refine absurd ?_ hprefix
            rw [heq', lower_append, ← hwhole]
            exact List.prefix_append _ _
          · exact hends'

lemma cut_eq_none_iff (hp : p ≠ []) : cut p s = none ↔ ¬ p <:+: toAsciiLowercase s := by
  induction s with
  | nil =>
    refine iff_of_true rfl fun h => hp ?_
    exact List.infix_nil.mp h
  | cons c s ih =>
    rw [cut]
    have hinside : p <:+: toAsciiLowercase (c :: s) ↔
        p <+: toAsciiLowercase (c :: s) ∨ p <:+: toAsciiLowercase s := List.infix_cons_iff
    split
    next hprefix => exact iff_of_false (by simp) fun h => h (hinside.mpr (.inl hprefix))
    next hprefix => rw [Option.map_eq_none_iff, ih, hinside, or_iff_right hprefix]

/-- The offset that the source finds is that of the front. -/
lemma find_lower (p s : List Char) (hp : p ≠ []) :
    (find p (toAsciiLowercase s)).map (· + byteLen p) =
      (cut p s).map fun x => byteLen x.1 := by
  induction s with
  | nil => rw [toAsciiLowercase, List.map_nil, find, if_neg hp, cut]; rfl
  | cons c s ih =>
    have hunfold : find p (toAsciiLowercase (c :: s)) =
        if p <+: toAsciiLowercase (c :: s) then some 0
        else (find p (toAsciiLowercase s)).map (c.toLower.utf8Size + ·) := rfl
    rw [hunfold, cut]
    split
    next hprefix =>
      have hbytes := byteLen_toAsciiLowercase ((c :: s).take p.length)
      rw [lower_take hprefix] at hbytes
      rw [Option.map_some, Option.map_some, Nat.zero_add, hbytes]
    next hprefix =>
      rw [Option.map_map, Option.map_map, utf8Size_toLower]
      have hshift : ((· + byteLen p) ∘ (c.utf8Size + ·) : ℕ → ℕ) =
          (c.utf8Size + ·) ∘ (· + byteLen p) := funext fun k => Nat.add_assoc _ _ _
      rw [hshift, ← Option.map_map, ih, Option.map_map]
      refine congrArg (Option.map · _) (funext fun x => ?_)
      exact (byteLen_head c x.1).symm

/-- The loop of the source goes over the text as the one over characters. -/
lemma foldlM_redactPattern (hps : ∀ p ∈ ps, p ≠ []) (out done : List Char)
    (hraw : raw = done ++ s) : ∃ out' done' s', raw = done' ++ s' ∧
      ps.foldlM (redactPattern raw (toAsciiLowercase raw)) (out, byteLen done) =
        some (out', byteLen done') ∧ out' ++ s' = out ++ redactLoop ps s := by
  induction ps generalizing out done s with
  | nil => exact ⟨out, done, s, hraw, rfl, rfl⟩
  | cons p ps ih =>
    have hp : p ≠ [] := hps p List.mem_cons_self
    have htail := fun q hq => hps q (List.mem_cons_of_mem p hq)
    have hlower : sliceFrom (toAsciiLowercase raw) (byteLen done) =
        some (toAsciiLowercase s) := by
      rw [hraw, lower_append, ← byteLen_toAsciiLowercase done]
      exact sliceFrom_append _ _
    have hfind := find_lower p s hp
    rw [List.foldlM_cons, redactLoop]
    cases hcut : cut p s with
    | none =>
      rw [hcut, Option.map_none, Option.map_eq_none_iff] at hfind
      obtain ⟨out', done', s', hraw', hloop, hout⟩ := ih htail out done hraw
      refine ⟨out', done', s', hraw', ?_, hout⟩
      rw [← hloop, redactPattern]
      simp only [hlower, hfind, bind, Option.bind]
    | some x =>
      obtain ⟨front, rest⟩ := x
      obtain ⟨rfl, -, -⟩ := cut_eq_some hcut
      rw [hcut, Option.map_some] at hfind
      obtain ⟨pos, hpos, hlen⟩ := Option.map_eq_some_iff.mp hfind
      have hlen : byteLen done + pos + byteLen p = byteLen done + byteLen front := by
        rw [Nat.add_assoc]
        exact congrArg _ hlen
      have hfront : slice raw (byteLen done) (byteLen done + byteLen front) = some front := by
        rw [hraw]
        exact slice_append _ _ _
      have hrest : sliceFrom raw (byteLen done + byteLen front) = some rest := by
        rw [hraw, ← byteLen_add, ← List.append_assoc]
        exact sliceFrom_append _ _
      have hsplit := List.takeWhile_append_dropWhile (p := fun c => !endsValue c) (l := rest)
      have hdone : raw = done ++ front ++ rest.takeWhile (fun c => !endsValue c) ++
          rest.dropWhile fun c => !endsValue c := by
        rw [List.append_assoc, hsplit, hraw, List.append_assoc]
      obtain ⟨out', done', s', hraw', hloop, hout⟩ :=
        ih htail (out ++ front ++ redacted) _ hdone
      refine ⟨out', done', s', hraw', ?_, ?_⟩
      · rw [byteLen_add, byteLen_add] at hloop
        rw [← hloop, redactPattern]
        simp only [hlower, hpos, hlen, hfront, hrest, bind, Option.bind]
      · rw [hout]
        simp only [List.append_assoc]

/-- No slice of the loop panics. -/
lemma redactMarked_eq (raw : List Char) :
    redactMarked raw = some (redactLoop redactionPatterns raw) := by
  obtain ⟨out, done, s, hraw, hloop, hout⟩ :=
    foldlM_redactPattern (fun p hp => pattern_ne_nil hp) [] []
      (List.nil_append raw).symm
  have hzero : byteLen ([] : List Char) = 0 := rfl
  have hle : min (byteLen done) (byteLen raw) = byteLen done := by
    rw [hraw, byteLen_add]
    omega
  have hrest : sliceFrom raw (byteLen done) = some s := by
    rw [hraw]
    exact sliceFrom_append _ _
  rw [hzero] at hloop
  rw [redactMarked]
  simp only [hloop, hle, hrest, bind, Option.bind, pure]
  rw [hout, List.nil_append]

/-! ## The first marker -/

lemma occurs (h : EndsWithMarker q f) (hf : f <+: s) :
    q <:+: toAsciiLowercase s := by
  obtain ⟨g, rfl⟩ := hf
  rw [lower_append]
  exact h.isInfix.trans (List.prefix_append _ _).isInfix

/-- No marker ends before the first one. -/
lemma length_le_of_clean (hclean : Clean (a ++ m.dropLast))
    (hq : q ∈ redactionPatterns) (hf : f <+: a ++ (m ++ t)) (h : EndsWithMarker q f) :
    (a ++ m).length ≤ f.length := by
  by_contra hlt
  rw [List.length_append] at hlt
  have hshort : f.length ≤ (a ++ m.dropLast).length := by
    rw [List.length_append, List.length_dropLast]
    omega
  have hfront : a ++ m.dropLast <+: a ++ (m ++ t) :=
    (List.prefix_append_right_inj a).mpr ((List.dropLast_prefix m).trans (List.prefix_append m t))
  exact hclean q hq (occurs h (List.prefix_of_prefix_length_le hf hfront hshort))

lemma endsWith_marker (hm : toAsciiLowercase m = p) (a : List Char) : EndsWithMarker p (a ++ m) := by
  rw [EndsWithMarker, lower_append, hm]
  exact List.suffix_append _ _

lemma ne_nil_of_lower (hm : toAsciiLowercase m = p) (hp : p ∈ redactionPatterns) : m ≠ [] := by
  rintro rfl
  exact pattern_ne_nil hp hm.symm

/-- The first marker is found. -/
lemma cut_marker (hclean : Clean (a ++ m.dropLast)) (hm : toAsciiLowercase m = p)
    (hp : p ∈ redactionPatterns) : cut p (a ++ (m ++ t)) = some (a ++ m, t) := by
  have hends := endsWith_marker hm a
  cases hcut : cut p (a ++ (m ++ t)) with
  | none =>
    refine absurd ?_ ((cut_eq_none_iff (pattern_ne_nil hp)).mp hcut)
    rw [← List.append_assoc]
    exact occurs hends (List.prefix_append _ _)
  | some x =>
    obtain ⟨f, g⟩ := x
    obtain ⟨heq, hf, hfirst⟩ := cut_eq_some hcut
    have hle := hfirst (a ++ m) t (List.append_assoc a m t).symm hends (pattern_ne_nil hp)
    have hge := length_le_of_clean hclean hp ⟨g, heq.symm⟩ hf
    rw [← List.append_assoc] at heq
    obtain ⟨rfl, rfl⟩ := List.append_inj heq (by omega)
    rfl

/-- Behind a marker that is no header, the loop leaves out the value. -/
lemma dropWhile_value (hp : p ≠ authorization) (h : IsValue p v b) :
    (v ++ b).dropWhile (fun c => !endsValue c) = b := by
  have hrun : ∀ c ∈ v, (!endsValue c) = true := fun c hc => by
    rw [← endsAt_of_ne hp, h.run c hc]
    rfl
  rw [List.dropWhile_append_of_pos hrun]
  cases b with
  | nil => rfl
  | cons c b =>
    have hc : endsValue c = true := by
      rw [← endsAt_of_ne hp]
      exact h.ends c rfl
    rw [List.dropWhile_cons_of_neg (by simp [hc])]

lemma redactLoop_marker (hclean : Clean (a ++ m.dropLast)) (hm : toAsciiLowercase m = p)
    (hp : p ∈ redactionPatterns) (hheader : p ≠ authorization) (hv : IsValue p v b) :
    redactLoop (p :: ps) (a ++ (m ++ (v ++ b))) =
      a ++ (m ++ (redacted ++ redactLoop ps b)) := by
  rw [redactLoop, cut_marker hclean hm hp]
  show a ++ m ++ (redacted ++ redactLoop ps _) = _
  rw [dropWhile_value hheader hv, List.append_assoc]

lemma redactLoop_clean (h : Clean s) (hps : ps ⊆ redactionPatterns) : redactLoop ps s = s := by
  induction ps with
  | nil => rfl
  | cons p ps ih =>
    have hp : p ∈ redactionPatterns := hps List.mem_cons_self
    rw [redactLoop, (cut_eq_none_iff (pattern_ne_nil hp)).mpr (h p hp)]
    exact ih (List.subset_of_cons_subset hps)

/-! ## In the order of the list -/

lemma noHeader_behind (h : ¬ authorization <:+: toAsciiLowercase (f ++ g)) :
    ¬ authorization <:+: toAsciiLowercase g := by
  rw [lower_append] at h
  exact fun hg => h (hg.trans (List.suffix_append _ _).isInfix)

lemma header_ne (h : ¬ authorization <:+: toAsciiLowercase (a ++ (m ++ t)))
    (hm : toAsciiLowercase m = p) : p ≠ authorization := by
  rintro rfl
  refine h ?_
  rw [← List.append_assoc]
  exact occurs (endsWith_marker hm a) (List.prefix_append _ _)

/-- **Markers in order.**  The loop masks the values of markers that stand in its order. -/
lemma redactLoop_masked (h : Masked ps s r) (hps : ps ⊆ redactionPatterns)
    (hheader : ¬ authorization <:+: toAsciiLowercase s) : redactLoop ps s = r := by
  induction h with
  | clean h => exact redactLoop_clean h hps
  | @marker ps p a m v b r hm hclean hv _ ih =>
    have hrest : ¬ authorization <:+: toAsciiLowercase b := by
      rw [← List.append_assoc, ← List.append_assoc] at hheader
      exact noHeader_behind hheader
    rw [redactLoop_marker hclean hm (hps List.mem_cons_self) (header_ne hheader hm) hv,
      ih (List.subset_of_cons_subset hps) hrest]

/-- A text has one value at a place. -/
lemma value_unique (hp : p ≠ authorization) (hq : q ≠ authorization) (h : IsValue p v b)
    (h' : IsValue q w y) (heq : v ++ b = w ++ y) : v = w ∧ b = y := by
  have hb := dropWhile_value hp h
  rw [heq, dropWhile_value hq h'] at hb
  subst hb
  exact ⟨List.append_cancel_right heq, rfl⟩

/-- **Other values.**  What the loop comes to does not show what stands in a value. -/
lemma redactLoop_replace (h : Masked ps s r) (hps : ps ⊆ redactionPatterns)
    (hheader : ¬ authorization <:+: toAsciiLowercase s) (hs : s = x ++ (v ++ y))
    (hq : q ∈ redactionPatterns) (hx : EndsWithMarker q x) (hv : IsValue q v y)
    (hv' : IsValue q w y) : redactLoop ps (x ++ (w ++ y)) = r := by
  have hqHeader : q ≠ authorization := by
    rintro rfl
    exact hheader (occurs hx ⟨v ++ y, hs.symm⟩)
  induction h generalizing x with
  | clean h => exact absurd (occurs hx ⟨v ++ y, hs.symm⟩) (h q hq)
  | @marker ps p a m u b r hm hclean hu hb ih =>
    have hp : p ∈ redactionPatterns := hps List.mem_cons_self
    have hpHeader := header_ne hheader hm
    have htail : ps ⊆ redactionPatterns := List.subset_of_cons_subset hps
    have hrest : ¬ authorization <:+: toAsciiLowercase b := by
      rw [← List.append_assoc, ← List.append_assoc] at hheader
      exact noHeader_behind hheader
    -- the occurrence is the first one or stands behind it
    have hlong := length_le_of_clean hclean hq ⟨v ++ y, hs.symm⟩ hx
    have hfront : a ++ m <+: a ++ (m ++ (u ++ b)) := by
      rw [← List.append_assoc]
      exact List.prefix_append _ _
    obtain ⟨z, rfl⟩ := List.prefix_of_prefix_length_le hfront ⟨v ++ y, hs.symm⟩ hlong
    have hsplit : u ++ b = z ++ (v ++ y) := by
      simpa only [List.append_assoc, List.append_cancel_left_eq] using hs
    have hinner : ∀ z', u = z ++ z' → v ++ y = z' ++ b →
        redactLoop (p :: ps) (a ++ m ++ z ++ (w ++ y)) =
          a ++ (m ++ (redacted ++ r)) := by
      rintro z' rfl heq
      have hz' : IsValue p z' b :=
        ⟨fun c hc => hu.run c (List.mem_append_right z hc), hu.ends⟩
      obtain ⟨rfl, rfl⟩ := value_unique hqHeader hpHeader hv hz' heq
      have hnew : IsValue p (z ++ w) y := by
        refine ⟨fun c hc => ?_, hu.ends⟩
        rcases List.mem_append.mp hc with hc | hc
        · exact hu.run c (List.mem_append_left _ hc)
        · rw [endsAt_of_ne hpHeader, ← endsAt_of_ne hqHeader]
          exact hv'.run c hc
      have hshape : a ++ m ++ z ++ (w ++ y) = a ++ (m ++ ((z ++ w) ++ y)) := by
        simp only [List.append_assoc]
      rw [hshape, redactLoop_marker hclean hm hp hpHeader hnew,
        redactLoop_masked hb htail hrest]
    rcases List.append_eq_append_iff.mp hsplit with ⟨z', rfl, hb'⟩ | ⟨z', rfl, heq⟩
    · cases z' with
      | nil => exact hinner [] (by rw [List.append_nil, List.append_nil]) hb'.symm
      | cons d z' =>
        have hd : endsValue d = true := by
          rw [← endsAt_of_ne hpHeader]
          exact hu.ends d (by rw [hb']; rfl)
        -- a value ends with a character that no marker has
        have hends : EndsWithMarker q (d :: z') := by
          have hz : toAsciiLowercase (d :: z') <:+
              toAsciiLowercase (a ++ m ++ (u ++ d :: z')) := by
            rw [← List.append_assoc, lower_append]
            exact List.suffix_append _ _
          rcases List.suffix_or_suffix_of_suffix hx hz with hz | hz
          · exact hz
          · have hmem : d.toLower ∈ q := hz.subset List.mem_cons_self
            have hnot := (pattern_chars hq hmem).1
            rw [endsValue_toLower, hd] at hnot
            exact absurd hnot (by decide)
        have hnew : IsValue p u (d :: z' ++ (w ++ y)) := by
          refine ⟨hu.run, fun c hc => ?_⟩
          obtain rfl : d = c := Option.some.inj hc
          rw [endsAt_of_ne hpHeader]
          exact hd
        have hshape : a ++ m ++ (u ++ d :: z') ++ (w ++ y) =
            a ++ (m ++ (u ++ (d :: z' ++ (w ++ y)))) := by
          simp only [List.append_assoc]
        rw [hshape, redactLoop_marker hclean hm hp hpHeader hnew,
          ih htail hrest hb' hends]
    · exact hinner z' rfl heq

/-! ## Out of order -/

/-- A text that is not clean has a first marker. -/
lemma exists_first (h : ¬ Clean s) : ∃ a m p t, s = a ++ (m ++ t) ∧ toAsciiLowercase m = p ∧
    p ∈ redactionPatterns ∧ Clean (a ++ m.dropLast) := by
  induction s using List.reverseRecOn with
  | nil =>
    refine absurd (fun p hp hinside => ?_) h
    exact pattern_ne_nil hp (List.infix_nil.mp hinside)
  | append_singleton s c ih =>
    by_cases hs : Clean s
    · simp only [Clean, not_forall, not_not] at h
      obtain ⟨p, hp, hinside⟩ := h
      rw [lower_append] at hinside
      have hsuffix : p <:+ toAsciiLowercase (s ++ [c]) := by
        rw [lower_append]
        exact (List.infix_concat_iff.mp hinside).resolve_right (hs p hp)
      obtain ⟨front, hfront⟩ := hsuffix
      obtain ⟨a, m, heq, -, hm⟩ := List.map_eq_append_iff.mp hfront.symm
      have hmne : m ≠ [] := ne_nil_of_lower hm hp
      refine ⟨a, m, p, [], by rw [List.append_nil, heq], hm, hp, ?_⟩
      have hlast : a ++ m.dropLast = s := by
        rw [← List.dropLast_append_of_ne_nil hmne, ← heq, List.dropLast_concat]
      rwa [hlast]
    · obtain ⟨a, m, p, t, rfl, hm, hp, hclean⟩ := ih hs
      exact ⟨a, m, p, t ++ [c], by simp only [List.append_assoc], hm, hp, hclean⟩

/-- The value behind a marker. -/
lemma exists_value (p s : List Char) : ∃ v b, s = v ++ b ∧ IsValue p v b := by
  refine ⟨s.takeWhile fun c => !endsAt p c, s.dropWhile fun c => !endsAt p c,
    List.takeWhile_append_dropWhile.symm, fun c hc => ?_, fun c hc => ?_⟩
  · simpa using List.all_eq_true.mp List.all_takeWhile c hc
  · have hnot := List.head?_dropWhile_not (fun c => !endsAt p c) s
    rw [Option.mem_def.mp hc] at hnot
    simpa using hnot

/-- Behind the first marker stands its value or what is put for one. -/
lemma redactLoop_hash (hclean : Clean (a ++ m.dropLast)) (hps : ps ⊆ redactionPatterns) :
    ∃ d t', redactLoop ps (a ++ (m ++ '#' :: t)) = a ++ (m ++ d :: t') ∧ d ∈ ['#', '['] := by
  induction ps with
  | nil => exact ⟨'#', t, rfl, by decide⟩
  | cons p ps ih =>
    rw [redactLoop]
    cases hcut : cut p (a ++ (m ++ '#' :: t)) with
    | none => exact ih (List.subset_of_cons_subset hps)
    | some x =>
      obtain ⟨f, g⟩ := x
      obtain ⟨heq, hf, -⟩ := cut_eq_some hcut
      have hge := length_le_of_clean hclean (hps List.mem_cons_self) ⟨g, heq.symm⟩ hf
      have hfront : a ++ m <+: a ++ (m ++ '#' :: t) := by
        rw [← List.append_assoc]
        exact List.prefix_append _ _
      obtain ⟨z, rfl⟩ := List.prefix_of_prefix_length_le hfront ⟨g, heq.symm⟩ hge
      have hz : '#' :: t = z ++ g := by
        simpa only [List.append_assoc, List.append_cancel_left_eq] using heq
      cases z with
      | nil =>
        refine ⟨'[', redacted.tail ++ redactLoop ps (g.dropWhile fun c => !endsValue c), ?_,
          by decide⟩
        simp only [List.append_nil, List.append_assoc]
        rfl
      | cons d z =>
        obtain ⟨rfl, -⟩ := List.cons.inj hz
        refine ⟨'#', z ++ (redacted ++ redactLoop ps (g.dropWhile fun c => !endsValue c)), ?_,
          by decide⟩
        simp only [List.append_assoc, List.cons_append]

/-- A marker has no letters in upper case. -/
lemma lower_pattern (hp : p ∈ redactionPatterns) : toAsciiLowercase p = p := by
  revert p
  decide

/-- A marker in the value of another one is found there. -/
lemma cut_inner (hclean : Clean (a ++ m.dropLast)) (hm : toAsciiLowercase m = q)
    (hq : q ∈ redactionPatterns) (hp : p ∈ redactionPatterns) (hne : p ≠ q) :
    ∃ t', cut p (a ++ (m ++ (p ++ t))) = some (a ++ (m ++ p), t') := by
  have hends : EndsWithMarker p (a ++ (m ++ p)) := by
    rw [← List.append_assoc]
    exact endsWith_marker (lower_pattern hp) _
  have hfront : a ++ (m ++ p) <+: a ++ (m ++ (p ++ t)) :=
    ⟨t, by simp only [List.append_assoc]⟩
  cases hcut : cut p (a ++ (m ++ (p ++ t))) with
  | none =>
    exact absurd (occurs hends hfront) ((cut_eq_none_iff (pattern_ne_nil hp)).mp hcut)
  | some x =>
    obtain ⟨f, g⟩ := x
    obtain ⟨heq, hf, hfirst⟩ := cut_eq_some hcut
    have hle := hfirst (a ++ (m ++ p)) t (by simp only [List.append_assoc]) hends
      (pattern_ne_nil hp)
    have hge := length_le_of_clean hclean hp ⟨g, heq.symm⟩ hf
    have hpre : f <+: a ++ (m ++ p) := List.prefix_of_prefix_length_le ⟨g, heq.symm⟩ hfront hle
    rw [← List.append_assoc] at hpre
    obtain ⟨z, rfl⟩ := List.prefix_of_prefix_length_le (List.prefix_append (a ++ m) p) hpre hge
    obtain ⟨rest, hrest⟩ := (List.prefix_append_right_inj (a ++ m)).mp hpre
    cases hz : z.getLast? with
    | none =>
      -- the two markers would end at one place
      rw [List.getLast?_eq_none_iff.mp hz, List.append_nil] at hf
      rcases List.suffix_or_suffix_of_suffix hf (endsWith_marker hm a) with h | h
      · exact absurd (pattern_suffix hp hq h) hne
      · exact absurd (pattern_suffix hq hp h).symm hne
    | some c =>
      cases rest with
      | nil =>
        rw [List.append_nil] at hrest
        exact ⟨g, by rw [hrest, List.append_assoc]⟩
      | cons d rest =>
        -- the last character of the marker would stand within it
        have hlower : toAsciiLowercase z = z := by
          have hall := lower_pattern hp
          rw [← hrest, lower_append] at hall
          exact (List.append_inj hall (List.length_map _)).1
        have hlast : c ∈ p.getLast? := by
          obtain ⟨front, hfr⟩ := hf
          have hends := congrArg List.getLast? hfr
          rw [lower_append, hlower, List.getLast?_append, List.getLast?_append, hz] at hends
          cases hp' : p.getLast? with
          | none => exact absurd (List.getLast?_eq_none_iff.mp hp') (pattern_ne_nil hp)
          | some e =>
            rw [hp'] at hends
            exact hends
        refine absurd ?_ (pattern_inner hp hp c hlast)
        rw [← hrest, List.dropLast_append_of_ne_nil (List.cons_ne_nil d rest)]
        exact List.mem_append_left _ (List.mem_of_mem_getLast? hz)

/-- A marker does not go over a character that it has not. -/
lemma prefix_append_cons (hc : c ∉ p) : p <+: u ++ c :: w ↔ p <+: u := by
  refine ⟨fun h => ?_, fun h => h.trans (List.prefix_append _ _)⟩
  rcases Nat.lt_or_ge u.length p.length with hlong | hshort
  · have hfront : u ++ [c] <+: p := by
      refine List.prefix_of_prefix_length_le ?_ h (by simpa using hlong)
      exact ⟨w, by rw [List.append_assoc, List.singleton_append]⟩
    exact absurd (hfront.subset (List.mem_append_right u List.mem_cons_self)) hc
  · exact List.prefix_of_prefix_length_le h (List.prefix_append _ _) hshort

/-- The search on both sides of a character that the marker has not. -/
lemma cut_append_cons (hp : p ≠ []) (hc : c.toLower ∉ p) : cut p (u ++ c :: w) =
    match cut p u with
    | some (f, g) => some (f, g ++ c :: w)
    | none => (cut p w).map (Prod.map (u ++ c :: ·) id) := by
  induction u with
  | nil =>
    have hnot : ¬ p <+: toAsciiLowercase (c :: w) := fun h =>
      hp (List.prefix_nil.mp ((prefix_append_cons (u := []) hc).mp h))
    show (if p <+: toAsciiLowercase (c :: w) then _ else _) = _
    rw [if_neg hnot]
    rfl
  | cons d u ih =>
    have hiff : p <+: toAsciiLowercase (d :: (u ++ c :: w)) ↔ p <+: toAsciiLowercase (d :: u) := by
      rw [← List.cons_append, lower_append]
      exact prefix_append_cons hc
    rw [List.cons_append, cut, cut]
    by_cases h : p <+: toAsciiLowercase (d :: u)
    · have hle : p.length ≤ (d :: u).length := by
        simpa [toAsciiLowercase] using h.length_le
      rw [if_pos (hiff.mpr h), if_pos h, ← List.cons_append, List.take_append_of_le_length hle,
        List.drop_append_of_le_length hle]
    · rw [if_neg (mt hiff.mp h), if_neg h, ih]
      cases cut p u with
      | none => rw [Option.map_map]; rfl
      | some x => rfl

/-- What stands behind a space and is part of no marker is shown. -/
lemma redactLoop_visible (hps : ps ⊆ redactionPatterns) (u w : List Char) :
    ∃ U W, ∀ c ∈ ['#', '%'], redactLoop ps (u ++ ' ' :: c :: w) = U ++ c :: W := by
  induction ps generalizing u with
  | nil =>
    refine ⟨u ++ [' '], w, fun c _ => ?_⟩
    rw [List.append_assoc, List.singleton_append]
    rfl
  | cons p ps ih =>
    have hp : p ∈ redactionPatterns := hps List.mem_cons_self
    have htail : ps ⊆ redactionPatterns := List.subset_of_cons_subset hps
    have hspace : (' ' : Char).toLower ∉ p := fun h => (pattern_chars hp h).2 (by decide)
    have hsign : ∀ c ∈ ['#', '%'], c.toLower ∉ p := fun c hc h =>
      (pattern_chars hp h).2 (by clear h; revert c; decide)
    have hcut : ∀ c ∈ ['#', '%'], cut p (u ++ ' ' :: c :: w) =
        match cut p u with
        | some (f, g) => some (f, g ++ ' ' :: c :: w)
        | none => (cut p w).map (Prod.map (u ++ ' ' :: c :: ·) id) := fun c hc => by
      have hinner : cut p (c :: w) = (cut p w).map (Prod.map (c :: ·) id) :=
        cut_append_cons (u := []) (pattern_ne_nil hp) (hsign c hc)
      rw [cut_append_cons (pattern_ne_nil hp) hspace, hinner, Option.map_map]
      rfl
    cases hu : cut p u with
    | some x =>
      obtain ⟨f, g⟩ := x
      obtain ⟨U, W, hshown⟩ := ih htail (g.dropWhile fun c => !endsValue c)
      refine ⟨f ++ (redacted ++ U), W, fun c hc => ?_⟩
      have hdrop : (g ++ ' ' :: c :: w).dropWhile (fun c => !endsValue c) =
          g.dropWhile (fun c => !endsValue c) ++ ' ' :: c :: w := by
        rw [List.dropWhile_append]
        split
        next h =>
          rw [List.isEmpty_iff.mp h]
          rfl
        next => rfl
      rw [redactLoop, hcut c hc, hu]
      show f ++ (redacted ++ redactLoop ps _) = _
      rw [hdrop, hshown c hc]
      simp only [List.append_assoc]
    | none =>
      cases hw : cut p w with
      | none =>
        obtain ⟨U, W, hshown⟩ := ih htail u
        refine ⟨U, W, fun c hc => ?_⟩
        rw [redactLoop, hcut c hc, hu, hw]
        exact hshown c hc
      | some x =>
        obtain ⟨f, g⟩ := x
        refine ⟨u ++ [' '],
          f ++ (redacted ++ redactLoop ps (g.dropWhile fun c => !endsValue c)), fun c hc => ?_⟩
        rw [redactLoop, hcut c hc, hu, hw]
        show u ++ ' ' :: c :: f ++ (redacted ++ redactLoop ps (g.dropWhile _)) = _
        simp only [List.append_assoc, List.cons_append, List.nil_append]

/-- What the loop comes to does not show what stands in a value. -/
def Keeps (ps : List (List Char)) (s : List Char) : Prop :=
  ∀ q ∈ redactionPatterns, ∀ x v w y, s = x ++ (v ++ y) → EndsWithMarker q x → IsValue q v y →
    IsValue q w y → redactLoop ps (x ++ (w ++ y)) = redactLoop ps s

lemma ne_nil_of_ends (hq : q ∈ redactionPatterns) (hx : EndsWithMarker q x) : x ≠ [] := by
  rintro rfl
  exact pattern_ne_nil hq (List.suffix_nil.mp hx)

lemma isValue_singleton (hp : p ≠ authorization) (hv : IsValue p v b) (hc : endsValue c = false) :
    IsValue p [c] b := by
  refine ⟨fun d hd => ?_, hv.ends⟩
  rw [List.mem_singleton.mp hd, endsAt_of_ne hp, hc]

lemma isValue_pattern (hq : q ≠ authorization) (hv : IsValue q v b) (hp : p ∈ redactionPatterns) :
    IsValue q p b :=
  ⟨fun _ hc => (endsAt_of_ne hq).trans (pattern_chars hp hc).1, hv.ends⟩

/-- Behind the first marker, the rest of the list keeps values as well. -/
lemma keeps_behind (hclean : Clean (a ++ m.dropLast)) (hm : toAsciiLowercase m = p)
    (hp : p ∈ redactionPatterns) (hheader : p ≠ authorization) (hv : IsValue p v b)
    (hkeep : Keeps (p :: ps) (a ++ (m ++ (v ++ b)))) : Keeps ps b := by
  rintro q hq x u w y rfl hx hu hw
  have hxne : x ≠ [] := ne_nil_of_ends hq hx
  have hnew : IsValue p v (x ++ (w ++ y)) := by
    refine ⟨hv.run, fun c hc => hv.ends c ?_⟩
    rw [List.head?_append_of_ne_nil x hxne] at hc ⊢
    exact hc
  have hends : EndsWithMarker q (a ++ (m ++ (v ++ x))) := by
    have hsuffix : x <:+ a ++ (m ++ (v ++ x)) :=
      (List.suffix_append v x).trans ((List.suffix_append m _).trans (List.suffix_append a _))
    obtain ⟨front, hfront⟩ := hsuffix
    rw [EndsWithMarker, ← hfront, lower_append]
    exact hx.trans (List.suffix_append _ _)
  have hsame := hkeep q hq (a ++ (m ++ (v ++ x))) u w y (by simp only [List.append_assoc]) hends
    hu hw
  have hshape : a ++ (m ++ (v ++ x)) ++ (w ++ y) = a ++ (m ++ (v ++ (x ++ (w ++ y)))) := by
    simp only [List.append_assoc]
  rw [hshape, redactLoop_marker hclean hm hp hheader hnew,
    redactLoop_marker hclean hm hp hheader hv] at hsame
  simpa only [List.append_cancel_left_eq] using hsame

/-- **Only in order.**  A loop that keeps the values has met the markers in its order. -/
lemma exists_masked (hps : ps ⊆ redactionPatterns)
    (hheader : ¬ authorization <:+: toAsciiLowercase s) (hkeep : Keeps ps s) :
    ∃ r, Masked ps s r := by
  induction ps generalizing s with
  | nil =>
    by_cases hs : Clean s
    · exact ⟨s, .clean hs⟩
    obtain ⟨a, m, q, t, rfl, hm, hq, hclean⟩ := exists_first hs
    obtain ⟨v, b, rfl, hv⟩ := exists_value q t
    have hqHeader := header_ne hheader hm
    have hwith := fun w hw => hkeep q hq (a ++ m) v w b (List.append_assoc a m _).symm
      (endsWith_marker hm a) hv hw
    -- nothing is masked, so that two values show
    have hempty := hwith [] ⟨fun c hc => absurd hc List.not_mem_nil, hv.ends⟩
    have hsign := hwith ['#'] (isValue_singleton hqHeader hv (by decide))
    have hlen := congrArg List.length (hempty.trans hsign.symm)
    simp [redactLoop] at hlen
  | cons p ps ih =>
    by_cases hs : Clean s
    · exact ⟨s, .clean hs⟩
    obtain ⟨a, m, q, t, rfl, hm, hq, hclean⟩ := exists_first hs
    obtain ⟨v, b, rfl, hv⟩ := exists_value q t
    have hp : p ∈ redactionPatterns := hps List.mem_cons_self
    have hqHeader := header_ne hheader hm
    by_cases heq : p = q
    · subst heq
      have hrest : ¬ authorization <:+: toAsciiLowercase b := by
        rw [← List.append_assoc, ← List.append_assoc] at hheader
        exact noHeader_behind hheader
      obtain ⟨r, hr⟩ := ih (List.subset_of_cons_subset hps) hrest
        (keeps_behind hclean hm hp hqHeader hv hkeep)
      exact ⟨_, .marker hm hclean hv hr⟩
    · have hwith := fun w hw => hkeep q hq (a ++ m) v w b (List.append_assoc a m _).symm
        (endsWith_marker hm a) hv hw
      -- a value that is the marker searched for is found before any other one
      have hmarker := hwith p (isValue_pattern hqHeader hv hp)
      have hsign := hwith ['#'] (isValue_singleton hqHeader hv (by decide))
      obtain ⟨t', hcut⟩ := cut_inner (t := b) hclean hm hq hp heq
      obtain ⟨d, t'', hhash, hd⟩ := redactLoop_hash (t := b) hclean hps
      have hsame := hmarker.trans hsign.symm
      rw [List.append_assoc, List.append_assoc, List.singleton_append, hhash, redactLoop,
        hcut] at hsame
      simp only [List.append_assoc, List.append_cancel_left_eq] at hsame
      cases hpattern : p with
      | nil => exact absurd hpattern (pattern_ne_nil hp)
      | cons e p' =>
        rw [hpattern] at hsame
        obtain ⟨rfl, -⟩ := List.cons.inj hsame
        refine absurd ?_ (pattern_chars hp (c := e) (by rw [hpattern]; exact List.mem_cons_self)).2
        exact (by decide : ['#', '['] ⊆ [' ', '#', '%', '[']) hd

end Redaction

open Redaction

section

variable {raw : List Char} {n : ℕ}

/-- What is returned for a text whose masked form is known. -/
lemma redactDiagnostic_eq (raw : List Char) (n : ℕ) :
    redactDiagnostic raw n =
      if n < byteLen (redactLoop redactionPatterns raw) then
        (sliceTo (redactLoop redactionPatterns raw) n).map (· ++ truncatedMark)
      else some (redactLoop redactionPatterns raw) := by
  rw [redactDiagnostic, redactMarked_eq]
  simp only [bind, Option.bind, pure]
  split
  next => cases sliceTo (redactLoop redactionPatterns raw) n <;> rfl
  next => rfl

lemma untruncated_iff :
    Untruncated raw n ↔ byteLen (redactLoop redactionPatterns raw) ≤ n := by
  constructor
  · rintro ⟨out, hout, hle⟩
    rw [redactMarked_eq] at hout
    rwa [Option.some.inj hout]
  · exact fun h => ⟨_, redactMarked_eq raw, h⟩

lemma leaksNothing_iff : LeaksNothing raw ↔ Keeps redactionPatterns raw := by
  constructor
  · intro h q hq x v w y hraw hx hv hw
    have hsame := h q hq x v w y hraw hx hv hw _ (untruncated_iff.mpr (Nat.le_max_left _ _))
      (untruncated_iff.mpr (Nat.le_max_right _ _))
    rw [redactDiagnostic_eq, redactDiagnostic_eq, if_neg (by omega), if_neg (by omega)] at hsame
    exact (Option.some.inj hsame).symm
  · intro h p hp x v v' y hraw hx hv hv' n hn hn'
    rw [untruncated_iff] at hn hn'
    rw [redactDiagnostic_eq, redactDiagnostic_eq, if_neg (by omega), if_neg (by omega),
      h p hp x v v' y hraw hx hv hv']

/-- A header shows what stands behind the first space of its line. -/
lemma noHeader_of_keeps (h : Keeps redactionPatterns raw) :
    ¬ authorization <:+: toAsciiLowercase raw := by
  rintro ⟨front, behind, hraw⟩
  obtain ⟨x, t, rfl, hx, -⟩ := List.map_eq_append_iff.mp hraw.symm
  obtain ⟨v, b, rfl, hv⟩ := exists_value authorization t
  have hends : EndsWithMarker authorization x := by
    rw [EndsWithMarker, toAsciiLowercase, hx]
    exact List.suffix_append _ _
  obtain ⟨U, W, hshown⟩ := redactLoop_visible (List.Subset.refl redactionPatterns) x b
  have hwith : ∀ c ∈ ['#', '%'], U ++ c :: W = redactLoop redactionPatterns (x ++ (v ++ b)) := by
    intro c hc
    rw [← hshown c hc]
    refine h authorization (by decide) x v [' ', c] b rfl hends hv ⟨?_, hv.ends⟩
    revert c
    decide
  have hsame := (hwith '#' (by decide)).trans (hwith '%' (by decide)).symm
  rw [List.append_cancel_left_eq] at hsame
  exact absurd (List.cons.inj hsame).1 (by decide)

/-- **Redaction.**  Nothing that follows a marker shows, and the output is bounded, exactly on the
texts without a header whose markers stand in the order of the list, each once. -/
theorem redactsSafely_iff (raw : List Char) (n : ℕ) : RedactsSafely raw n ↔ InOrder raw n := by
  constructor
  · rintro ⟨⟨out, hout, -⟩, hleaks⟩
    have hkeep := leaksNothing_iff.mp hleaks
    have hheader := noHeader_of_keeps hkeep
    obtain ⟨r, hr⟩ := exists_masked (List.Subset.refl _) hheader hkeep
    refine ⟨hheader, r, hr, ?_⟩
    rw [redactDiagnostic_eq, redactLoop_masked hr (List.Subset.refl _) hheader] at hout
    split at hout
    next =>
      obtain ⟨front, hfront, -⟩ := Option.map_eq_some_iff.mp hout
      obtain ⟨behind, hr', hlen⟩ := sliceTo_eq_some_iff.mp hfront
      exact .inr ⟨front, behind, hr', hlen⟩
    next hle => exact .inl (by omega)
  · rintro ⟨hheader, r, hr, hboundary⟩
    have hmasked := redactLoop_masked hr (List.Subset.refl _) hheader
    constructor
    · rw [redactDiagnostic_eq, hmasked]
      split
      next hlt =>
        obtain ⟨front, behind, hr', hlen⟩ := hboundary.resolve_left (by omega)
        rw [sliceTo_eq_some_iff.mpr ⟨behind, hr', hlen⟩]
        refine ⟨_, rfl, ?_⟩
        rw [byteLen_add, hlen]
      next => exact ⟨r, rfl, by omega⟩
    · rw [leaksNothing_iff]
      intro q hq x v w y hraw hx hv hw
      rw [hmasked]
      exact redactLoop_replace hr (List.Subset.refl _) hheader hraw hq hx hv hw

/-- The second value of a marker that stands twice is shown. -/
theorem not_redactsSafely_twice :
    ¬ RedactsSafely ['t', 'o', 'k', 'e', 'n', '=', 'a', ' ', 't', 'o', 'k', 'e', 'n', '=', 'b']
      4096 := by
  rintro ⟨-, hleaks⟩
  have hvalue : ∀ c ∈ ['b', 'c'], IsValue ['t', 'o', 'k', 'e', 'n', '='] [c] [] := fun c hc =>
    ⟨by revert c; decide, fun d hd => nomatch hd⟩
  have hsame := hleaks ['t', 'o', 'k', 'e', 'n', '='] (by decide)
    ['t', 'o', 'k', 'e', 'n', '=', 'a', ' ', 't', 'o', 'k', 'e', 'n', '='] ['b'] ['c'] [] rfl
    (by rw [EndsWithMarker]; decide) (hvalue 'b' (by decide)) (hvalue 'c' (by decide)) 4096
    ⟨_, rfl, by decide⟩ ⟨_, rfl, by decide⟩
  exact absurd hsame (by decide)

end

end WorkspaceAtlas
