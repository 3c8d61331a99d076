/-
# JSON text

Compact JSON: values of JSON and the text that is written for them, without white space.  A
reader gives the value back together with what follows its text, so two values with the same
text are the same.
-/
import WorkspaceAtlas.Text.Debug

namespace Text

/-- A value of JSON, whose numbers are integers. -/
inductive Json where
  | null
  | bool (b : Bool)
  | num (n : ℤ)
  | str (s : String)
  | arr (items : List Json)
  | obj (fields : List (String × Json))
  deriving Repr

namespace Json

/-! ## Writing -/

/-- An integer. -/
def integer (n : ℤ) : List Char :=
  if n < 0 then '-' :: Nat.toDigits 10 n.natAbs else Nat.toDigits 10 n.natAbs

/-- The characters with a short escape. -/
def shortEscapes : List (Char × Char) :=
  [('"', '"'), ('\\', '\\'), ('\x08', 'b'), ('\x0c', 'f'), ('\n', 'n'), ('\r', 'r'), ('\t', 't')]

/-- A character of a string: the other control characters are written by their number. -/
def escape (c : Char) : List Char :=
  match (shortEscapes.find? fun p => p.1 = c) with
  | some p => ['\\', p.2]
  | none =>
    if c < ' ' then
      ['\\', 'u', '0', '0', Nat.digitChar (c.toNat / 16), Nat.digitChar (c.toNat % 16)]
    else [c]

/-- The characters of a string with the quote that ends it. -/
def quoted : List Char → List Char
  | [] => ['"']
  | c :: cs => escape c ++ quoted cs

mutual

/-- The text of a value. -/
def write : Json → List Char
  | null => "null".toList
  | bool b => if b then "true".toList else "false".toList
  | num n => integer n
  | str s => '"' :: quoted s.toList
  | arr [] => ['[', ']']
  | arr (v :: items) => '[' :: write v ++ writeItems items
  | obj [] => ['\x7b', '\x7d']
  | obj ((k, v) :: fields) =>
    '\x7b' :: '"' :: quoted k.toList ++ ':' :: write v ++ writeFields fields

/-- Further items of an array with the bracket that ends it. -/
def writeItems : List Json → List Char
  | [] => [']']
  | v :: items => ',' :: write v ++ writeItems items

/-- Further fields of an object with the brace that ends it. -/
def writeFields : List (String × Json) → List Char
  | [] => ['\x7d']
  | (k, v) :: fields => ',' :: '"' :: quoted k.toList ++ ':' :: write v ++ writeFields fields

end

/-! ## Reading numbers -/

/-- No digit stands first. -/
def Stops (r : List Char) : Prop := ∀ c ∈ r.head?, c.isDigit = false

lemma isDigit_toDigits (n : ℕ) : ∀ c ∈ Nat.toDigits 10 n, c.isDigit = true := fun _ hc =>
  Nat.isDigit_of_mem_toDigits (by decide) (by decide) hc

lemma toDigits_injective : Function.Injective (Nat.toDigits 10) := by
  intro m n h
  rw [← @Nat.ofDigitChars_ten_toDigits m, h, Nat.ofDigitChars_ten_toDigits]

/-- Digits end where no digit stands. -/
lemma append_digits_inj {a b r s : List Char} (ha : ∀ c ∈ a, c.isDigit = true)
    (hb : ∀ c ∈ b, c.isDigit = true) (hr : Stops r) (hs : Stops s) (h : a ++ r = b ++ s) :
    a = b ∧ r = s := by
  induction a generalizing b with
  | nil =>
    cases b with
    | nil => exact ⟨rfl, h⟩
    | cons c b =>
      have hhead : c ∈ r.head? := by
        rw [show r = c :: (b ++ s) from h]
        exact rfl
      exact absurd ((hb c List.mem_cons_self).symm.trans (hr c hhead)) (by decide)
  | cons c a ih =>
    cases b with
    | nil =>
      have hhead : c ∈ s.head? := by
        rw [show s = c :: (a ++ r) from h.symm]
        exact rfl
      exact absurd ((ha c List.mem_cons_self).symm.trans (hs c hhead)) (by decide)
    | cons c' b =>
      obtain ⟨rfl, hrest⟩ := List.cons.inj h
      obtain ⟨rfl, rfl⟩ := ih (fun x hx => ha x (List.mem_cons_of_mem _ hx))
        (fun x hx => hb x (List.mem_cons_of_mem _ hx)) hrest
      exact ⟨rfl, rfl⟩

lemma integer_append_inj {m n : ℤ} {r s : List Char} (hr : Stops r) (hs : Stops s)
    (h : integer m ++ r = integer n ++ s) : m = n ∧ r = s := by
  -- only one of the two texts starts with a minus sign
  have hminus : ∀ (n : ℕ) (r s : List Char), Nat.toDigits 10 n ++ r ≠ '-' :: s := by
    intro n r s heq
    cases hn : Nat.toDigits 10 n with
    | nil => exact Nat.toDigits_ne_nil hn
    | cons c cs =>
      rw [hn] at heq
      obtain ⟨rfl, -⟩ := List.cons.inj heq
      exact absurd (isDigit_toDigits n '-' (hn ▸ List.mem_cons_self)) (by decide)
  rw [integer, integer] at h
  split at h <;> split at h
  · obtain ⟨heq, hrest⟩ := append_digits_inj (isDigit_toDigits _) (isDigit_toDigits _) hr hs
      (List.cons.inj h).2
    have habs := toDigits_injective heq
    exact ⟨by omega, hrest⟩
  · exact absurd h.symm (hminus _ _ _)
  · exact absurd h (hminus _ _ _)
  · obtain ⟨heq, hrest⟩ := append_digits_inj (isDigit_toDigits _) (isDigit_toDigits _) hr hs h
    have habs := toDigits_injective heq
    exact ⟨by omega, hrest⟩

/-- The text of an integer of the standard library. -/
lemma toList_toString (n : ℤ) : (toString n).toList = integer n := by
  cases n with
  | ofNat m =>
    rw [integer, if_neg (by simp)]
    exact Nat.toList_repr
  | negSucc m =>
    rw [integer, if_pos (Int.negSucc_lt_zero m)]
    show ("-" ++ (m + 1).repr).toList = _
    rw [String.toList_append, Nat.toList_repr]
    rfl

lemma toString_int_injective : Function.Injective (toString : ℤ → String) := by
  intro m n h
  have hend : Stops [] := fun c hc => absurd hc (by simp)
  refine (@integer_append_inj m n [] [] hend hend ?_).1
  rw [← toList_toString, ← toList_toString, h]

/-- What is neither a digit nor a minus sign is not in the text of an integer. -/
lemma notMem_toString_int {c : Char} (hc : c.isDigit = false) (hminus : c ≠ '-') (n : ℤ) :
    c ∉ (toString n).toList := by
  have hdigits : c ∉ Nat.toDigits 10 n.natAbs := fun h =>
    absurd ((isDigit_toDigits _ c h).symm.trans hc) (by decide)
  rw [toList_toString, integer]
  split
  · exact fun h => (List.mem_cons.mp h).elim hminus hdigits
  · exact hdigits

/-! ## Reading strings -/

/-- The first character of a string, and what follows it. -/
def unescape : List Char → Option (Char × List Char)
  | '\\' :: 'u' :: '0' :: '0' :: h :: l :: rest =>
    some (Char.ofNat (16 * digitOf h + digitOf l), rest)
  | '\\' :: e :: rest => (shortEscapes.find? fun p => p.2 = e).map fun p => (p.1, rest)
  | c :: rest => some (c, rest)
  | [] => none

lemma unescape_escape (c : Char) (rest : List Char) :
    unescape (escape c ++ rest) = some (c, rest) := by
  rw [escape]
  cases hfind : shortEscapes.find? fun p => p.1 = c with
  | some p =>
    have hall : ∀ p ∈ shortEscapes, p.2 ≠ 'u' ∧
        (shortEscapes.find? fun q => q.2 = p.2) = some p := by decide
    obtain ⟨hu, hback⟩ := hall p (List.mem_of_find?_eq_some hfind)
    have hc : p.1 = c := by simpa using List.find?_some hfind
    show unescape ('\\' :: p.2 :: rest) = _
    rw [unescape]
    · rw [hback, ← hc]
      rfl
    · rintro h l rest' heq -
      exact hu heq
  | none =>
    dsimp only
    split
    next hlt =>
      have hnat : c.toNat < 32 := hlt
      show some (Char.ofNat (16 * digitOf (Nat.digitChar (c.toNat / 16)) +
        digitOf (Nat.digitChar (c.toNat % 16))), rest) = _
      rw [digitOf_digitChar (by omega), digitOf_digitChar (by omega), Nat.div_add_mod,
        Char.ofNat_toNat]
    next =>
      have hback : c ≠ '\\' := by
        rintro rfl
        exact absurd hfind (by decide)
      show unescape (c :: rest) = _
      rw [unescape]
      · rintro h l rest' hc -
        exact hback hc
      · rintro e rest' hc -
        exact hback hc

/-- The characters of a string, up to the quote that ends it. -/
def readQuoted : ℕ → List Char → Option (List Char × List Char)
  | 0, _ => none
  | fuel + 1, s =>
    if s.head? = some '"' then some ([], s.tail)
    else do
      let (c, rest) ← unescape s
      let (cs, rest) ← readQuoted fuel rest
      return (c :: cs, rest)

lemma head_escape (c : Char) (r : List Char) : (escape c ++ r).head? ≠ some '"' := by
  intro h
  cases hr : escape c ++ r with
  | nil => simp [hr] at h
  | cons d s =>
    obtain rfl : d = '"' := by simpa [hr] using h
    -- a quote that stands for itself would have been escaped
    have hread := congrArg unescape hr
    rw [unescape_escape, unescape] at hread
    · obtain ⟨rfl, -⟩ := Prod.mk.inj (Option.some.inj hread)
      exact absurd (List.cons.inj hr).1 (by decide)
    · rintro h l rest' hc -
      exact absurd hc (by decide)
    · rintro e rest' hc -
      exact absurd hc (by decide)

lemma length_lt_quoted (a : List Char) : a.length < (quoted a).length := by
  induction a with
  | nil => decide
  | cons c a ih =>
    have hpos : 0 < (escape c).length := by
      rw [List.length_pos_iff]
      intro h
      have hread := unescape_escape c []
      rw [h] at hread
      exact absurd hread (by simp [unescape])
    rw [quoted, List.length_append, List.length_cons]
    omega

/-- A string is read back together with what follows it. -/
lemma readQuoted_quoted (a : List Char) {fuel : ℕ} {r : List Char} (h : a.length < fuel) :
    readQuoted fuel (quoted a ++ r) = some (a, r) := by
  induction a generalizing fuel with
  | nil =>
    obtain ⟨fuel, rfl⟩ := Nat.exists_eq_add_of_lt h
    rfl
  | cons c a ih =>
    cases fuel with
    | zero => exact absurd h (Nat.not_lt_zero _)
    | succ fuel =>
      rw [quoted, List.append_assoc, readQuoted, if_neg (head_escape c _), unescape_escape]
      simp only [Option.bind_eq_bind, Option.bind_some, ih (Nat.lt_of_succ_lt_succ h)]
      rfl

/-! ## Reading values -/

/-- A number of digits, and what follows it. -/
def readNat (s : List Char) : Option (ℕ × List Char) :=
  if s.takeWhile Char.isDigit = [] then none
  else some (Nat.ofDigitChars 10 (s.takeWhile Char.isDigit) 0, s.dropWhile Char.isDigit)

/-- An integer, and what follows it. -/
def readInteger (s : List Char) : Option (ℤ × List Char) :=
  if s.head? = some '-' then (readNat s.tail).map fun (n, rest) => (-n, rest)
  else (readNat s).map fun (n, rest) => (n, rest)

/-- A key with the colon behind it. -/
def readKey (fuel : ℕ) (s : List Char) : Option (String × List Char) := do
  let (key, rest) ← readQuoted fuel s
  if rest.head? = some ':' then some (String.ofList key, rest.tail) else none

mutual

/-- A value, and what follows it. -/
def readValue : ℕ → List Char → Option (Json × List Char)
  | 0, _ => none
  | fuel + 1, s =>
    match readInteger s with
    | some (n, rest) => some (num n, rest)
    | none =>
      match s with
      | 'n' :: 'u' :: 'l' :: 'l' :: rest => some (null, rest)
      | 't' :: 'r' :: 'u' :: 'e' :: rest => some (bool true, rest)
      | 'f' :: 'a' :: 'l' :: 's' :: 'e' :: rest => some (bool false, rest)
      | '"' :: rest => do
        let (cs, rest) ← readQuoted fuel rest
        return (str (String.ofList cs), rest)
      | '[' :: rest =>
        match readValue fuel rest with
        | some (v, rest) => do
          let (items, rest) ← readItems fuel rest
          return (arr (v :: items), rest)
        | none => if rest.head? = some ']' then some (arr [], rest.tail) else none
      | '\x7b' :: '"' :: rest => do
        let (key, rest) ← readKey fuel rest
        let (v, rest) ← readValue fuel rest
        let (fields, rest) ← readFields fuel rest
        return (obj ((key, v) :: fields), rest)
      | '\x7b' :: '\x7d' :: rest => some (obj [], rest)
      | _ => none

/-- Further items of an array, up to the bracket that ends it. -/
def readItems : ℕ → List Char → Option (List Json × List Char)
  | 0, _ => none
  | fuel + 1, s =>
    match s with
    | ']' :: rest => some ([], rest)
    | ',' :: rest => do
      let (v, rest) ← readValue fuel rest
      let (items, rest) ← readItems fuel rest
      return (v :: items, rest)
    | _ => none

/-- Further fields of an object, up to the brace that ends it. -/
def readFields : ℕ → List Char → Option (List (String × Json) × List Char)
  | 0, _ => none
  | fuel + 1, s =>
    match s with
    | '\x7d' :: rest => some ([], rest)
    | ',' :: '"' :: rest => do
      let (key, rest) ← readKey fuel rest
      let (v, rest) ← readValue fuel rest
      let (fields, rest) ← readFields fuel rest
      return ((key, v) :: fields, rest)
    | _ => none

end

lemma readNat_toDigits (n : ℕ) {r : List Char} (hr : Stops r) :
    readNat (Nat.toDigits 10 n ++ r) = some (n, r) := by
  have htake : (Nat.toDigits 10 n ++ r).takeWhile Char.isDigit = Nat.toDigits 10 n := by
    rw [List.takeWhile_append_of_pos (isDigit_toDigits n)]
    cases r with
    | nil => simp
    | cons c r => simp [hr c rfl]
  have hdrop : (Nat.toDigits 10 n ++ r).dropWhile Char.isDigit = r := by
    rw [List.dropWhile_append_of_pos (isDigit_toDigits n)]
    cases r with
    | nil => rfl
    | cons c r => simp [hr c rfl]
  rw [readNat, htake, hdrop, if_neg Nat.toDigits_ne_nil, Nat.ofDigitChars_ten_toDigits]

lemma readInteger_integer (n : ℤ) {r : List Char} (hr : Stops r) :
    readInteger (integer n ++ r) = some (n, r) := by
  rw [integer]
  by_cases hneg : n < 0
  · have habs : -((n.natAbs : ℕ) : ℤ) = n := by omega
    have hread : readInteger ('-' :: (Nat.toDigits 10 n.natAbs ++ r)) =
        (readNat (Nat.toDigits 10 n.natAbs ++ r)).map fun (n, rest) => (-(n : ℤ), rest) := if_pos rfl
    rw [if_pos hneg, List.cons_append, hread, readNat_toDigits _ hr]
    exact congrArg (fun m => some (m, r)) habs
  · have habs : ((n.natAbs : ℕ) : ℤ) = n := by omega
    have hminus : (Nat.toDigits 10 n.natAbs ++ r).head? ≠ some '-' := by
      cases hdigits : Nat.toDigits 10 n.natAbs with
      | nil => exact absurd hdigits Nat.toDigits_ne_nil
      | cons c cs =>
        have hc := isDigit_toDigits _ c (hdigits ▸ List.mem_cons_self)
        intro h
        obtain rfl : c = '-' := by simpa using h
        exact absurd hc (by decide)
    rw [if_neg hneg, readInteger, if_neg hminus, readNat_toDigits _ hr]
    exact congrArg (fun m => some (m, r)) habs

lemma readKey_quoted (k : String) {fuel : ℕ} {r : List Char} (h : k.toList.length < fuel) :
    readKey fuel (quoted k.toList ++ ':' :: r) = some (k, r) := by
  simp [readKey, readQuoted_quoted k.toList h]

lemma stops_cons {c : Char} {r : List Char} (hc : c = ',' ∨ c = ']' ∨ c = '\x7d') :
    Stops (c :: r) := by
  intro x hx
  obtain rfl : c = x := by simpa using hx
  rcases hc with rfl | rfl | rfl
  · rfl
  · rfl
  · rfl

lemma stops_writeItems (items : List Json) (r : List Char) : Stops (writeItems items ++ r) := by
  cases items with
  | nil => exact stops_cons (Or.inr (Or.inl rfl))
  | cons v items => exact stops_cons (Or.inl rfl)

lemma stops_writeFields (fields : List (String × Json)) (r : List Char) :
    Stops (writeFields fields ++ r) := by
  cases fields with
  | nil => exact stops_cons (Or.inr (Or.inr rfl))
  | cons f fields => exact stops_cons (Or.inl rfl)

lemma write_ne_nil (v : Json) : v.write ≠ [] := by
  cases v with
  | num n =>
    rw [write, integer]
    split
    · simp
    · exact Nat.toDigits_ne_nil
  | bool b => cases b <;> simp [write]
  | arr items => cases items <;> simp [write]
  | obj fields => cases fields <;> simp [write]
  | _ => simp [write]

mutual

/-- A value is read back together with what follows it, which only a number cannot tell. -/
theorem readValue_write : ∀ (v : Json) {fuel : ℕ} {r : List Char}, v.write.length ≤ fuel →
    ((∃ n, v = num n) → Stops r) → readValue fuel (v.write ++ r) = some (v, r)
  | v, 0, r, h, _ => absurd (List.length_eq_zero_iff.mp (Nat.le_zero.mp h)) (write_ne_nil v)
  | null, fuel + 1, r, _, _ => rfl
  | bool b, fuel + 1, r, _, _ => by cases b <;> rfl
  | num n, fuel + 1, r, _, hr => by
    unfold readValue
    rw [write, readInteger_integer n (hr ⟨n, rfl⟩)]
  | str t, fuel + 1, r, h, _ => by
    have hlt := length_lt_quoted t.toList
    rw [write, List.length_cons] at h
    have hquoted : readQuoted fuel (quoted t.toList ++ r) = some (t.toList, r) :=
      readQuoted_quoted t.toList (by omega)
    show (readQuoted fuel (quoted t.toList ++ r)).bind _ = _
    rw [hquoted]
    simp
  | arr [], fuel + 1, r, _, _ => by
    cases fuel <;> rfl
  | arr (v :: items), fuel + 1, r, h, _ => by
    simp only [write, List.length_cons, List.length_append] at h
    have hv : readValue fuel (v.write ++ (writeItems items ++ r)) = some (v, _) :=
      readValue_write v (by omega) fun _ => stops_writeItems _ _
    have hitems : readItems fuel (writeItems items ++ r) = some (items, r) :=
      readItems_writeItems items (by omega)
    show (match readValue fuel (v.write ++ writeItems items ++ r) with
      | some (v, rest) => do
        let (items, rest) ← readItems fuel rest
        return (arr (v :: items), rest)
      | none => _) = _
    rw [List.append_assoc, hv]
    simp [hitems]
  | obj [], fuel + 1, r, _, _ => rfl
  | obj ((k, v) :: fields), fuel + 1, r, h, _ => by
    simp only [write, List.length_cons, List.length_append] at h
    have hlt := length_lt_quoted k.toList
    have hkey : readKey fuel (quoted k.toList ++ ':' :: (v.write ++ (writeFields fields ++ r))) =
        some (k, v.write ++ (writeFields fields ++ r)) := readKey_quoted k (by omega)
    have hv : readValue fuel (v.write ++ (writeFields fields ++ r)) = some (v, _) :=
      readValue_write v (by omega) fun _ => stops_writeFields _ _
    have hfields : readFields fuel (writeFields fields ++ r) = some (fields, r) :=
      readFields_writeFields fields (by omega)
    show (readKey fuel (quoted k.toList ++ ':' :: v.write ++ writeFields fields ++ r)).bind _ = _
    rw [List.append_assoc, List.append_assoc, List.cons_append, hkey]
    simp [hv, hfields]

theorem readItems_writeItems : ∀ (l : List Json) {fuel : ℕ} {r : List Char},
    (writeItems l).length ≤ fuel → readItems fuel (writeItems l ++ r) = some (l, r)
  | [], 0, r, h => absurd h (by decide)
  | v :: l, 0, r, h => absurd h (by simp [writeItems])
  | [], fuel + 1, r, _ => rfl
  | v :: l, fuel + 1, r, h => by
    simp only [writeItems, List.length_cons, List.length_append] at h
    have hv : readValue fuel (v.write ++ (writeItems l ++ r)) = some (v, _) :=
      readValue_write v (by omega) fun _ => stops_writeItems _ _
    have hitems : readItems fuel (writeItems l ++ r) = some (l, r) :=
      readItems_writeItems l (by omega)
    simp [writeItems, readItems, hv, hitems]

theorem readFields_writeFields : ∀ (l : List (String × Json)) {fuel : ℕ} {r : List Char},
    (writeFields l).length ≤ fuel → readFields fuel (writeFields l ++ r) = some (l, r)
  | [], 0, r, h => absurd h (by decide)
  | (k, v) :: l, 0, r, h => absurd h (by simp [writeFields])
  | [], fuel + 1, r, _ => rfl
  | (k, v) :: l, fuel + 1, r, h => by
    simp only [writeFields, List.length_cons, List.length_append] at h
    have hlt := length_lt_quoted k.toList
    have hkey : readKey fuel (quoted k.toList ++ ':' :: (v.write ++ (writeFields l ++ r))) =
        some (k, v.write ++ (writeFields l ++ r)) := readKey_quoted k (by omega)
    have hv : readValue fuel (v.write ++ (writeFields l ++ r)) = some (v, _) :=
      readValue_write v (by omega) fun _ => stops_writeFields _ _
    have hfields : readFields fuel (writeFields l ++ r) = some (l, r) :=
      readFields_writeFields l (by omega)
    simp [writeFields, readFields, hkey, hv, hfields]

end

/-- Texts of values end where the values do. -/
theorem write_append_inj (v w : Json) {r s : List Char} (hr : (∃ n, v = num n) → Stops r)
    (hs : (∃ n, w = num n) → Stops s) (h : v.write ++ r = w.write ++ s) : v = w ∧ r = s := by
  have hv : readValue (v.write.length + w.write.length) (v.write ++ r) = some (v, r) :=
    readValue_write v (by omega) hr
  have hw : readValue (v.write.length + w.write.length) (w.write ++ s) = some (w, s) :=
    readValue_write w (by omega) hs
  rw [h, hw] at hv
  obtain ⟨rfl, rfl⟩ := Prod.mk.inj (Option.some.inj hv)
  exact ⟨rfl, rfl⟩

/-- Values with the same text are the same. -/
theorem write_injective : Function.Injective write := by
  have hend : Stops [] := by
    intro c hc
    exact absurd hc (by simp)
  intro v w h
  exact (write_append_inj v w (fun _ => hend) (fun _ => hend) (by rw [h])).1

/-- The value that a compact text is the text of. -/
def read (s : String) : Option Json :=
  match readValue s.toList.length s.toList with
  | some (v, []) => if v.write = s.toList then some v else none
  | _ => none

lemma read_eq_some_iff {s : String} {v : Json} : read s = some v ↔ v.write = s.toList := by
  constructor
  · intro h
    rw [read] at h
    split at h
    · split at h
      next hwrite =>
        obtain rfl := Option.some.inj h
        exact hwrite
      · exact absurd h (by simp)
    · exact absurd h (by simp)
  · intro h
    have hvalue : readValue s.toList.length s.toList = some (v, []) := by
      rw [← h, ← List.append_nil v.write]
      refine readValue_write v (by simp) fun _ c hc => ?_
      exact absurd hc (by simp)
    rw [read, hvalue]
    exact if_pos h

/-! ## Reading records -/

/-- The values of a record with some fields, in their order: an object with these fields in any
order and no others, or an array. -/
def fieldsOf (names : List String) : Json → Option (List Json)
  | obj fields =>
    if fields.length = names.length then names.mapM fun name => fields.lookup name else none
  | arr items => if items.length = names.length then some items else none
  | _ => none

/-- A text. -/
def asString : Json → Option String
  | str s => some s
  | _ => none

/-- A number. -/
def asInteger : Json → Option ℤ
  | num n => some n
  | _ => none

end Json

end Text
