/-
# The keys of a JSON document

`extract_json_top_level_keys` goes over the bytes with a counter of open brackets and a flag.  What
it takes for a key in a document is found by the syntax of the document: the members of an object
at the depth where the counter is one, and the strings behind a comma at that depth, in an array
as well.
-/
import WorkspaceAtlas.Provider.DocumentConfig
import WorkspaceAtlas.Text.JsonSyntax

namespace WorkspaceAtlas

open Text Text.Regex Text.JsonSyntax

/-- `extract_json_top_level_keys`. -/
def extractJsonTopLevelKeys (relPath : String) (text : List Char) : Option (List Extracted) :=
  jsonLoop relPath text (bytesOf text) 0 0 false

namespace JsonKeys

variable {relPath : String} {text a a' a'' b s raw : List Char} {c : Char} {u : UInt8}
  {d d' d'' : Int32} {e e' e'' : Bool} {l l' : List Extracted} {i n : ℕ} {k : JsonKind}

/-! ## Bytes at their places -/

lemma getElem?_segment (htext : text = a ++ (s ++ b)) (hn : n < byteLen s) :
    ∃ u ∈ bytesOf s, (bytesOf text)[byteLen a + n]? = some u := by
  rw [← length_bytesOf] at hn
  refine ⟨(bytesOf s)[n], List.getElem_mem hn, ?_⟩
  rw [htext, bytesOf_append, bytesOf_append, ← length_bytesOf,
    List.getElem?_append_right (by omega), Nat.add_sub_cancel_left,
    List.getElem?_append_left hn, List.getElem?_eq_getElem hn]

lemma getElem?_head (htext : text = a ++ c :: b) (hc : String.utf8EncodeChar c = [u]) :
    (bytesOf text)[byteLen a]? = some u := by
  rw [htext, bytesOf_append, bytesOf_cons, hc, ← length_bytesOf,
    List.getElem?_append_right le_rfl, Nat.sub_self]
  rfl

/-- A byte below 128 is not in a text without its character. -/
lemma ne_of_mem_bytesOf {v : UInt8} (hu : u ∈ bytesOf s) (hv : v.toNat < 128)
    (hs : ∀ c ∈ s, c.toNat ≠ v.toNat) : u ≠ v := by
  rintro rfl
  obtain ⟨c, hc, heq⟩ := exists_of_mem_bytesOf hu hv
  exact hs c hc heq

/-! ## Strings -/

/-- Characters other than quotes and backslashes are passed. -/
lemma jsonString_append (htext : text = a ++ (s ++ b)) (hs : ∀ c ∈ s, c ≠ '"' ∧ c ≠ '\\') :
    jsonString (bytesOf text) (byteLen a) = jsonString (bytesOf text) (byteLen a + byteLen s) := by
  have hall : ∀ n ≤ byteLen s,
      jsonString (bytesOf text) (byteLen a) = jsonString (bytesOf text) (byteLen a + n) := by
    intro n hn
    induction n with
    | zero => rfl
    | succ n ih =>
      obtain ⟨u, hu, hget⟩ := getElem?_segment htext hn
      obtain ⟨hlt, hget⟩ := List.getElem?_eq_some_iff.mp hget
      have hquote : u ≠ 0x22 := ne_of_mem_bytesOf hu (by decide)
        fun c hc heq => (hs c hc).1 (Char.ext (UInt32.toNat_inj.mp heq))
      have hback : u ≠ 0x5c := ne_of_mem_bytesOf hu (by decide)
        fun c hc heq => (hs c hc).2 (Char.ext (UInt32.toNat_inj.mp heq))
      rw [ih (by omega), jsonString, dif_pos hlt, hget, if_neg hquote, if_neg hback, Nat.add_assoc]
  exact hall _ le_rfl

/-- A backslash takes the character behind it along. -/
lemma jsonString_escape (htext : text = a ++ '\\' :: c :: b) (hc : c.utf8Size = 1) :
    jsonString (bytesOf text) (byteLen a) =
      jsonString (bytesOf text) (byteLen (a ++ ['\\', c])) := by
  have hget := getElem?_head htext (u := 0x5c) (by decide)
  obtain ⟨hlt, hget⟩ := List.getElem?_eq_some_iff.mp hget
  have hlen : byteLen (a ++ ['\\', c]) = byteLen a + 2 := by
    have hback : ('\\' : Char).utf8Size = 1 := by decide
    rw [byteLen_add, byteLen_head, byteLen_head, hc, hback]
    rfl
  rw [jsonString, dif_pos hlt, hget, if_neg (by decide), if_pos rfl, hlen]

/-- A character of a string as it is written. -/
lemma jsonString_char (htext : text = a ++ (s ++ b)) (hs : Matches jsonChar s) :
    jsonString (bytesOf text) (byteLen a) = jsonString (bytesOf text) (byteLen (a ++ s)) := by
  have hhex : (Regex.seq hexadecimal (.seq hexadecimal (.seq hexadecimal hexadecimal))).Within
      fun c => c ≠ '"' ∧ c ≠ '\\' := by
    have hone : hexadecimal.Within fun c => c ≠ '"' ∧ c ≠ '\\' := by
      rintro c hc
      constructor
      · rintro rfl
        exact absurd hc (by decide)
      · rintro rfl
        exact absurd hc (by decide)
    exact ⟨hone, hone, hone, hone⟩
  cases hs with
  | left h =>
    have hall := h.forall_mem (P := fun c => c ≠ '"' ∧ c ≠ '\\') fun c hc => by
      simp only [isUnescaped, Bool.and_eq_true, decide_eq_true_eq] at hc
      exact ⟨hc.1.2, hc.2⟩
    rw [byteLen_add]
    exact jsonString_append htext hall
  | right h =>
    cases h with
    | seq hback hrest =>
      cases hback with
      | chars hback =>
        obtain rfl := of_decide_eq_true hback
        cases hrest with
        | left h =>
          cases h with
          | @chars _ c hc =>
            have hsize : c.utf8Size = 1 := by
              have hall : ∀ c ∈ ['"', '\\', '/', 'b', 'f', 'n', 'r', 't'], c.utf8Size = 1 := by
                decide
              exact hall c (of_decide_eq_true hc)
            exact jsonString_escape htext hsize
        | right h =>
          cases h with
          | @seq _ _ _ digits hu hdigits =>
            cases hu with
            | chars hu =>
              obtain rfl := of_decide_eq_true hu
              have htext' : text = (a ++ ['\\', 'u']) ++ (digits ++ b) := by
                rw [htext]
                simp
              have hcode := jsonString_append htext' (hdigits.forall_mem hhex)
              have hcode' : jsonString (bytesOf text) (byteLen a) =
                  jsonString (bytesOf text) (byteLen (a ++ ['\\', 'u'])) :=
                jsonString_escape (b := digits ++ b) (by rw [htext]; simp) (by decide)
              rw [hcode', hcode, ← byteLen_add, List.append_assoc]
              rfl

/-- The loop goes to the quote that ends the string. -/
lemma jsonString_raw (htext : text = a ++ (raw ++ '"' :: b)) (hraw : Matches jsonRaw raw) :
    jsonString (bytesOf text) (byteLen a) = byteLen (a ++ raw) := by
  obtain ⟨parts, rfl, hparts⟩ := hraw.exists_parts
  clear hraw
  induction parts generalizing a with
  | nil =>
    have hget := getElem?_head htext (u := 0x22) (by decide)
    obtain ⟨hlt, hget⟩ := List.getElem?_eq_some_iff.mp hget
    rw [jsonString, dif_pos hlt, hget, if_pos rfl, List.flatten_nil, List.append_nil]
  | cons part parts ih =>
    rw [List.flatten_cons, List.append_assoc] at htext
    have hrest := ih (a := a ++ part) (fun p hp => hparts p (List.mem_cons_of_mem part hp))
      (by rw [htext, List.append_assoc])
    rw [jsonString_char htext (hparts part List.mem_cons_self), hrest, List.flatten_cons,
      List.append_assoc]

/-! ## Passes of the outer loop -/

/-- The symbol of a name at its offset. -/
def keyAt (relPath : String) (text : List Char) (p : List Char × ℕ) : Extracted :=
  jsonKey relPath text p.2 (p.2 + 1 + byteLen p.1) (String.ofList p.1)

/-- The loop goes on from behind one front of the text to behind another one, and finds symbols on
the way. -/
def Passes (relPath : String) (text a : List Char) (d : Int32) (e : Bool) (l : List Extracted)
    (a' : List Char) (d' : Int32) (e' : Bool) : Prop :=
  jsonLoop relPath text (bytesOf text) (byteLen a) d e =
    (jsonLoop relPath text (bytesOf text) (byteLen a') d' e').map (l ++ ·)

lemma Passes.trans (h : Passes relPath text a d e l a' d' e')
    (h' : Passes relPath text a' d' e' l' a'' d'' e'') :
    Passes relPath text a d e (l ++ l') a'' d'' e'' := by
  rw [Passes, h, h', Option.map_map]
  congr 1
  funext rest
  exact (List.append_assoc l l' rest).symm

/-- A step that finds nothing. -/
lemma passes_of_eq (h : jsonLoop relPath text (bytesOf text) (byteLen a) d e =
    jsonLoop relPath text (bytesOf text) (byteLen a') d' e') :
    Passes relPath text a d e [] a' d' e' := by
  rw [Passes, h]
  exact Option.map_id'.symm

/-- The characters whose bytes the loop reacts to. -/
def marks : List Char := ['"', '\x7b', '[', '\x7d', ']', ',']

/-- **Other characters** are passed. -/
lemma passes_plain (htext : text = a ++ (s ++ b)) (hs : ∀ c ∈ s, c ∉ marks) :
    Passes relPath text a d e [] (a ++ s) d e := by
  have hall : ∀ n ≤ byteLen s, jsonLoop relPath text (bytesOf text) (byteLen a) d e =
      jsonLoop relPath text (bytesOf text) (byteLen a + n) d e := by
    intro n hn
    induction n with
    | zero => rfl
    | succ n ih =>
      obtain ⟨u, hu, hget⟩ := getElem?_segment htext hn
      obtain ⟨hlt, hget⟩ := List.getElem?_eq_some_iff.mp hget
      have hne : ∀ c ∈ marks, ∀ v : UInt8, v.toNat < 128 → c.toNat = v.toNat → u ≠ v :=
        fun c hc v hv hcv => ne_of_mem_bytesOf hu hv fun c' hc' heq =>
          hs c' hc' (by rwa [Char.ext (UInt32.toNat_inj.mp (heq.trans hcv.symm))])
      have h₁ : u ≠ 0x22 := hne '"' (by decide) _ (by decide) (by decide)
      have h₂ : u ≠ 0x7b := hne '\x7b' (by decide) _ (by decide) (by decide)
      have h₃ : u ≠ 0x5b := hne '[' (by decide) _ (by decide) (by decide)
      have h₄ : u ≠ 0x7d := hne '\x7d' (by decide) _ (by decide) (by decide)
      have h₅ : u ≠ 0x5d := hne ']' (by decide) _ (by decide) (by decide)
      have h₆ : u ≠ 0x2c := hne ',' (by decide) _ (by decide) (by decide)
      rw [ih (by omega), jsonLoop, dif_pos hlt]
      simp only [hget, h₁, h₂, h₃, h₄, h₅, h₆, if_false, false_or, false_and, Nat.add_assoc]
  have heq := hall _ le_rfl
  rw [← byteLen_add] at heq
  exact passes_of_eq heq

/-- A mark of one byte. -/
lemma passes_mark (htext : text = a ++ c :: b) (hc : String.utf8EncodeChar c = [u])
    (hstep : ∀ i (h : i < (bytesOf text).length), (bytesOf text)[i] = u →
      jsonLoop relPath text (bytesOf text) i d e =
        jsonLoop relPath text (bytesOf text) (i + 1) d' e') :
    Passes relPath text a d e [] (a ++ [c]) d' e' := by
  obtain ⟨hlt, hget⟩ := List.getElem?_eq_some_iff.mp (getElem?_head htext hc)
  have hsize : c.utf8Size = 1 := by
    rw [← String.length_utf8EncodeChar, hc]
    rfl
  refine passes_of_eq ?_
  rw [hstep _ hlt hget, byteLen_add, byteLen_head, hsize]
  rfl

lemma passes_openBrace (htext : text = a ++ '\x7b' :: b) :
    Passes relPath text a d e [] (a ++ ['\x7b']) (d + 1) (d + 1 = 1) := by
  refine passes_mark htext (u := 0x7b) (by decide) fun i h hu => ?_
  rw [jsonLoop, dif_pos h, hu]
  rfl

lemma passes_openBracket (htext : text = a ++ '[' :: b) :
    Passes relPath text a d e [] (a ++ ['[']) (d + 1) false := by
  refine passes_mark htext (u := 0x5b) (by decide) fun i h hu => ?_
  rw [jsonLoop, dif_pos h, hu]
  rfl

lemma passes_closeBrace (htext : text = a ++ '\x7d' :: b) :
    Passes relPath text a d e [] (a ++ ['\x7d']) (d - 1) false := by
  refine passes_mark htext (u := 0x7d) (by decide) fun i h hu => ?_
  rw [jsonLoop, dif_pos h, hu]
  rfl

lemma passes_closeBracket (htext : text = a ++ ']' :: b) :
    Passes relPath text a d e [] (a ++ [']']) (d - 1) false := by
  refine passes_mark htext (u := 0x5d) (by decide) fun i h hu => ?_
  rw [jsonLoop, dif_pos h, hu]
  rfl

/-- A comma sets the flag at the depth of one. -/
lemma passes_comma (htext : text = a ++ ',' :: b) :
    Passes relPath text a d e [] (a ++ [',']) d (d = 1 || e) := by
  refine passes_mark htext (u := 0x2c) (by decide) fun i h hu => ?_
  rw [jsonLoop, dif_pos h, hu]
  by_cases hd : d = 1
  · simp [hd]
  · simp [hd]

/-- **A string** is taken for a key at the depth of one if the flag is set. -/
lemma passes_str (htext : text = a ++ '"' :: (raw ++ '"' :: b)) (hraw : Matches jsonRaw raw) :
    Passes relPath text a d e
      (if d = 1 ∧ e = true then [keyAt relPath text (raw, byteLen a)] else [])
      (a ++ '"' :: (raw ++ ['"'])) d false := by
  have hquote : ('"' : Char).utf8Size = 1 := by decide
  have hfront : byteLen (a ++ ['"']) = byteLen a + 1 := by
    rw [byteLen_add, byteLen_head, hquote]
    rfl
  have hj : jsonString (bytesOf text) (byteLen a + 1) = byteLen a + 1 + byteLen raw := by
    rw [← hfront, jsonString_raw (a := a ++ ['"']) (by rw [htext, List.append_assoc]; rfl) hraw,
      byteLen_add]
  have hend : byteLen (a ++ '"' :: (raw ++ ['"'])) = byteLen a + 1 + byteLen raw + 1 := by
    rw [← List.singleton_append, ← List.append_assoc, ← List.append_assoc, byteLen_add, byteLen_add,
      hfront, byteLen_head, hquote]
    rfl
  have hclose : byteLen a + 1 + byteLen raw < (bytesOf text).length := by
    have htext' : text = (a ++ '"' :: raw) ++ '"' :: b := by
      rw [htext, List.append_assoc]
      rfl
    obtain ⟨hlt, -⟩ := List.getElem?_eq_some_iff.mp (getElem?_head htext' (u := 0x22) (by decide))
    rw [byteLen_add, byteLen_head, hquote] at hlt
    omega
  have hslice : slice text (byteLen a + 1) (byteLen a + 1 + byteLen raw) = some raw := by
    rw [← hfront, htext, ← List.singleton_append, ← List.append_assoc]
    exact slice_append _ raw _
  obtain ⟨hlt, hget⟩ := List.getElem?_eq_some_iff.mp (getElem?_head htext (u := 0x22) (by decide))
  rw [Passes, jsonLoop, dif_pos hlt, hend]
  simp only [hget, hj, hclose, hslice, if_true, and_true, Option.map_some,
    Nat.min_eq_left (Nat.succ_le_of_lt hclose)]
  split_ifs with hkey
  · cases jsonLoop relPath text (bytesOf text) (byteLen a + 1 + byteLen raw + 1) d false <;> rfl
  · cases jsonLoop relPath text (bytesOf text) (byteLen a + 1 + byteLen raw + 1) d false <;> rfl

/-! ## What is taken for a key -/

/-- The depths that the counter of 32 bits shows as one. -/
def counted (n : ℕ) : Bool := n % 4294967296 = 1

/-- What is taken for keys of a syntax at the depth `n` that starts at the offset `o`, with their
offsets; `b` says whether a string is taken. -/
def taken : {k : JsonKind} → JsonSyntax k → ℕ → ℕ → Bool → List (List Char × ℕ)
  | _, .str raw, _, o, b => if b then [(raw.1, o)] else []
  | _, .arr w v w' rest, n, o, _ =>
    taken v (n + 1) (o + byteLen ('[' :: w.1)) false ++
      taken rest (n + 1) (o + byteLen ('[' :: (w.1 ++ (v.text ++ w'.1)))) false
  | _, .obj w name w₁ w₂ v w' rest, n, o, _ =>
    (if counted (n + 1) then [(name.1, o + byteLen ('\x7b' :: w.1))] else []) ++
      (taken v (n + 1) (o + byteLen ('\x7b' :: (w.1 ++ label name.1 w₁.1 w₂.1))) false ++
        taken rest (n + 1) (o + byteLen (front '\x7b' w.1 name.1 w₁.1 w₂.1 v.text w'.1)) false)
  | _, .item w v w' rest, n, o, _ =>
    taken v n (o + byteLen (',' :: w.1)) (counted n) ++
      taken rest n (o + byteLen (',' :: (w.1 ++ (v.text ++ w'.1)))) false
  | _, .member w name w₁ w₂ v w' rest, n, o, _ =>
    (if counted n then [(name.1, o + byteLen (',' :: w.1))] else []) ++
      (taken v n (o + byteLen (',' :: (w.1 ++ label name.1 w₁.1 w₂.1))) false ++
        taken rest n (o + byteLen (front ',' w.1 name.1 w₁.1 w₂.1 v.text w'.1)) false)
  | _, _, _, _, _ => []

lemma ofNat_eq_one_iff (n : ℕ) : Int32.ofNat n = 1 ↔ counted n = true := by
  rw [← Int32.toBitVec_inj, ← BitVec.toNat_inj, counted, decide_eq_true_iff]
  exact Iff.rfl

lemma ofNat_succ (n : ℕ) : Int32.ofNat n + 1 = Int32.ofNat (n + 1) := by
  rw [← Int32.toBitVec_inj]
  exact (BitVec.ofNat_add n 1).symm

lemma ofNat_succ_sub (n : ℕ) : Int32.ofNat (n + 1) - 1 = Int32.ofNat n := by
  rw [← ofNat_succ]
  exact Int32.add_sub_cancel _ _

lemma not_mem_marks_of_whitespace (w : Matched whitespace) : ∀ c ∈ w.1, c ∉ marks :=
  w.2.forall_mem (P := (· ∉ marks)) fun c hc => by
    have hall : ∀ c ∈ [' ', '\t', '\n', '\r'], c ∉ marks := by decide
    exact hall c (of_decide_eq_true hc)

lemma not_mem_marks_of_digit {c : Char} (hc : c.isDigit = true) : c ∉ marks := by
  have hall : ∀ c ∈ marks, c.isDigit = false := by decide
  exact fun hmem => by rw [hall c hmem] at hc; exact Bool.false_ne_true hc

lemma within_word_marks {w : List Char} (hw : ∀ c ∈ w, c ∉ marks) :
    (Regex.word w).Within (· ∉ marks) :=
  within_word hw

lemma not_mem_marks_of_scalar (l : Matched jsonScalar) : ∀ c ∈ l.1, c ∉ marks := by
  have hone : ∀ {p : Char → Bool} {l : List Char}, (∀ c ∈ l, c ∉ marks) →
      (∀ c, p c = true → c ∈ l) → (Regex.chars p).Within (· ∉ marks) :=
    fun hl hp c hc => hl c (hp c hc)
  have hdigit : digit.Within (· ∉ marks) := fun c hc => not_mem_marks_of_digit hc
  have hnumber : jsonNumber.Within (· ∉ marks) := by
    refine ⟨hone (l := ['-']) (by decide) fun c hc => List.mem_singleton.mpr (of_decide_eq_true hc),
      ⟨hone (l := ['0']) (by decide) fun c hc => List.mem_singleton.mpr (of_decide_eq_true hc),
        fun c hc => not_mem_marks_of_digit (Bool.and_eq_true_iff.mp hc).1, hdigit⟩,
      ⟨hone (l := ['.']) (by decide) fun c hc => List.mem_singleton.mpr (of_decide_eq_true hc),
        within_plus hdigit⟩,
      hone (l := ['e', 'E']) (by decide) fun c hc => of_decide_eq_true hc,
      hone (l := ['+', '-']) (by decide) fun c hc => of_decide_eq_true hc, within_plus hdigit⟩
  exact l.2.forall_mem (P := (· ∉ marks)) ⟨within_word (by decide), within_word (by decide),
    within_word (by decide), hnumber⟩

/-! ## Pieces of a text -/

/-- Wherever the piece stands, the loop passes it; what it finds depends on the offset. -/
def Reads (relPath : String) (text s : List Char) (d : Int32) (e : Bool)
    (f : ℕ → List (List Char × ℕ)) (d' : Int32) (e' : Bool) : Prop :=
  ∀ a b, text = a ++ (s ++ b) →
    Passes relPath text a d e ((f (byteLen a)).map (keyAt relPath text)) (a ++ s) d' e'

variable {s' name w₁ w₂ : List Char} {f f' : ℕ → List (List Char × ℕ)}

/-- Two pieces one behind the other. -/
lemma Reads.append (h : Reads relPath text s d e f d' e')
    (h' : Reads relPath text s' d' e' f' d'' e'') :
    Reads relPath text (s ++ s') d e (fun o => f o ++ f' (o + byteLen s)) d'' e'' := by
  intro a b htext
  have hfirst := h a (s' ++ b) (by rw [htext, List.append_assoc])
  have hsecond := h' (a ++ s) b (by rw [htext, List.append_assoc, List.append_assoc])
  have hboth := hfirst.trans hsecond
  rwa [byteLen_add, List.append_assoc, ← List.map_append] at hboth

lemma Reads.congr (h : Reads relPath text s d e f d' e') (hf : ∀ o, f o = f' o) :
    Reads relPath text s d e f' d' e' := by
  rwa [← funext hf]

lemma reads_plain (hs : ∀ c ∈ s, c ∉ marks) : Reads relPath text s d e (fun _ => []) d e :=
  fun _ _ htext => passes_plain htext hs

lemma reads_openBrace (relPath : String) (text : List Char) (d : Int32) (e : Bool) :
    Reads relPath text ['\x7b'] d e (fun _ => []) (d + 1) (d + 1 = 1) :=
  fun _ _ htext => passes_openBrace htext

lemma reads_openBracket (relPath : String) (text : List Char) (d : Int32) (e : Bool) :
    Reads relPath text ['['] d e (fun _ => []) (d + 1) false :=
  fun _ _ htext => passes_openBracket htext

lemma reads_closeBrace (relPath : String) (text : List Char) (d : Int32) (e : Bool) :
    Reads relPath text ['\x7d'] d e (fun _ => []) (d - 1) false :=
  fun _ _ htext => passes_closeBrace htext

lemma reads_closeBracket (relPath : String) (text : List Char) (d : Int32) (e : Bool) :
    Reads relPath text [']'] d e (fun _ => []) (d - 1) false :=
  fun _ _ htext => passes_closeBracket htext

lemma reads_comma (relPath : String) (text : List Char) (d : Int32) (e : Bool) :
    Reads relPath text [','] d e (fun _ => []) d (d = 1 || e) :=
  fun _ _ htext => passes_comma htext

lemma reads_str (relPath : String) (text : List Char) (d : Int32) (e : Bool)
    (hraw : Matches jsonRaw raw) :
    Reads relPath text ('"' :: (raw ++ ['"'])) d e
      (fun o => if d = 1 ∧ e = true then [(raw, o)] else []) d false := by
  intro a b htext
  rw [apply_ite (List.map (keyAt relPath text))]
  exact passes_str (b := b) (by rw [htext]; simp) hraw

/-- The name of a member with what stands between it and the value. -/
lemma reads_label (hname : Matches jsonRaw name) (h₁ : ∀ c ∈ w₁, c ∉ marks)
    (h₂ : ∀ c ∈ w₂, c ∉ marks) :
    Reads relPath text (label name w₁ w₂) d e
      (fun o => if d = 1 ∧ e = true then [(name, o)] else []) d false := by
  have hplain : ∀ c ∈ w₁ ++ ':' :: w₂, c ∉ marks := by
    intro c hc
    rcases List.mem_append.mp hc with hc | hc
    · exact h₁ c hc
    · rcases List.mem_cons.mp hc with rfl | hc
      · decide
      · exact h₂ c hc
  have hboth := (reads_str relPath text d e hname).append
    (reads_plain hplain)
  have hlabel : '"' :: (name ++ ['"']) ++ (w₁ ++ ':' :: w₂) = label name w₁ w₂ := by
    rw [label]
    simp
  rw [hlabel] at hboth
  exact hboth.congr fun o => List.append_nil _

lemma taken_items (x : JsonSyntax .items) (n o : ℕ) (b b' : Bool) :
    taken x n o b = taken x n o b' := by
  cases x <;> rfl

lemma taken_members (x : JsonSyntax .members) (n o : ℕ) (b b' : Bool) :
    taken x n o b = taken x n o b' := by
  cases x <;> rfl

/-- **What the loop finds** in a piece of syntax. -/
lemma reads_syntax (relPath : String) (text : List Char) (x : JsonSyntax k) (n : ℕ) (e : Bool) :
    ∃ e', Reads relPath text x.text (Int32.ofNat n) e
      (fun o => taken x n o (counted n && e)) (Int32.ofNat n) e' := by
  have hnil : byteLen [] = 0 := rfl
  induction x generalizing n e with
  | scalar l => exact ⟨e, reads_plain (not_mem_marks_of_scalar l)⟩
  | str raw =>
    refine ⟨false, (reads_str relPath text _ e raw.2).congr fun o => ?_⟩
    simp only [taken, ofNat_eq_one_iff, Bool.and_eq_true]
  | noItem => exact ⟨e, reads_plain fun c hc => absurd hc List.not_mem_nil⟩
  | noMember => exact ⟨e, reads_plain fun c hc => absurd hc List.not_mem_nil⟩
  | emptyArr w =>
    have hall := (reads_openBracket relPath text (Int32.ofNat n) e).append
      ((reads_plain (not_mem_marks_of_whitespace w)).append (reads_closeBracket _ _ _ _))
    rw [ofNat_succ, ofNat_succ_sub] at hall
    exact ⟨false, hall.congr fun o => rfl⟩
  | emptyObj w =>
    have hall := (reads_openBrace relPath text (Int32.ofNat n) e).append
      ((reads_plain (not_mem_marks_of_whitespace w)).append (reads_closeBrace _ _ _ _))
    rw [ofNat_succ, ofNat_succ_sub] at hall
    exact ⟨false, hall.congr fun o => rfl⟩
  | arr w v w' rest ihv ihrest =>
    obtain ⟨e₁, hv⟩ := ihv (n + 1) false
    obtain ⟨e₂, hrest⟩ := ihrest (n + 1) e₁
    have hopen := reads_openBracket relPath text (Int32.ofNat n) e
    have hclose := reads_closeBracket relPath text (Int32.ofNat (n + 1)) e₂
    rw [ofNat_succ] at hopen
    rw [ofNat_succ_sub] at hclose
    have hall := hopen.append ((reads_plain (not_mem_marks_of_whitespace w)).append
      (hv.append ((reads_plain (not_mem_marks_of_whitespace w')).append (hrest.append hclose))))
    refine ⟨false, hall.congr fun o => ?_⟩
    rw [taken, taken_items rest _ _ false (counted (n + 1) && e₁), Bool.and_false]
    simp only [List.nil_append, List.append_nil, byteLen_head, byteLen_add, hnil, Nat.add_assoc,
      Nat.zero_add]
  | item w v w' rest ihv ihrest =>
    obtain ⟨e₁, hv⟩ := ihv n (Int32.ofNat n = 1 || e)
    obtain ⟨e₂, hrest⟩ := ihrest n e₁
    have hcomma := reads_comma relPath text (Int32.ofNat n) e
    have hall := hcomma.append ((reads_plain (not_mem_marks_of_whitespace w)).append
      (hv.append ((reads_plain (not_mem_marks_of_whitespace w')).append hrest)))
    have hflag : (counted n && (decide (Int32.ofNat n = 1) || e)) = counted n := by
      cases hn : counted n with
      | false => rfl
      | true => rw [decide_eq_true ((ofNat_eq_one_iff n).mpr hn)]; rfl
    refine ⟨e₂, hall.congr fun o => ?_⟩
    rw [taken, taken_items rest _ _ false (counted n && e₁), hflag]
    simp only [List.nil_append, byteLen_head, byteLen_add, hnil, Nat.add_assoc, Nat.zero_add]
  | obj w name w₁ w₂ v w' rest ihv ihrest =>
    obtain ⟨e₁, hv⟩ := ihv (n + 1) false
    obtain ⟨e₂, hrest⟩ := ihrest (n + 1) e₁
    have hopen := reads_openBrace relPath text (Int32.ofNat n) e
    have hclose := reads_closeBrace relPath text (Int32.ofNat (n + 1)) e₂
    rw [ofNat_succ] at hopen
    rw [ofNat_succ_sub] at hclose
    have hall := hopen.append ((reads_plain (not_mem_marks_of_whitespace w)).append
      ((reads_label name.2 (not_mem_marks_of_whitespace w₁) (not_mem_marks_of_whitespace w₂)).append
        (hv.append ((reads_plain (not_mem_marks_of_whitespace w')).append
          (hrest.append hclose)))))
    refine ⟨false, hall.congr fun o => ?_⟩
    rw [taken, taken_members rest _ _ false (counted (n + 1) && e₁), Bool.and_false]
    simp only [List.nil_append, List.append_nil, front, byteLen_head, byteLen_add, hnil,
      Nat.add_assoc, Nat.zero_add, ofNat_eq_one_iff, decide_eq_true_eq, and_self]
  | member w name w₁ w₂ v w' rest ihv ihrest =>
    obtain ⟨e₁, hv⟩ := ihv n false
    obtain ⟨e₂, hrest⟩ := ihrest n e₁
    have hcomma := reads_comma relPath text (Int32.ofNat n) e
    have hall := hcomma.append ((reads_plain (not_mem_marks_of_whitespace w)).append
      ((reads_label name.2 (not_mem_marks_of_whitespace w₁) (not_mem_marks_of_whitespace w₂)).append
        (hv.append ((reads_plain (not_mem_marks_of_whitespace w')).append hrest))))
    refine ⟨e₂, hall.congr fun o => ?_⟩
    rw [taken, taken_members rest _ _ false (counted n && e₁), Bool.and_false]
    have hflag : (Int32.ofNat n = 1 ∧ (decide (Int32.ofNat n = 1) || e) = true) ↔
        counted n = true := by
      rw [← ofNat_eq_one_iff]
      exact ⟨And.left, fun h => ⟨h, by rw [decide_eq_true h]; rfl⟩⟩
    simp only [List.nil_append, front, byteLen_head, byteLen_add, hnil, Nat.add_assoc,
      Nat.zero_add, hflag]

/-- **What is found** in a document. -/
lemma extractJsonTopLevelKeys_document (relPath : String) (doc : JsonDocument) :
    extractJsonTopLevelKeys relPath doc.text =
      some ((taken doc.value 0 (byteLen doc.front.1) false).map (keyAt relPath doc.text)) := by
  obtain ⟨e', hvalue⟩ := reads_syntax relPath doc.text doc.value 0 false
  have hall := (reads_plain (not_mem_marks_of_whitespace doc.front)).append
    (hvalue.append (reads_plain (not_mem_marks_of_whitespace doc.back)))
  have hpass := hall [] [] (by rw [JsonDocument.text]; simp)
  have hend : ∀ d e, jsonLoop relPath doc.text (bytesOf doc.text) (byteLen doc.text) d e =
      some [] := by
    intro d e
    rw [jsonLoop, dif_neg (by rw [length_bytesOf]; exact lt_irrefl _)]
  have htext : [] ++ (doc.front.1 ++ (doc.value.text ++ doc.back.1)) = doc.text := rfl
  rw [Passes, htext, hend, Option.map_some, List.append_nil] at hpass
  have hnil : byteLen ([] : List Char) = 0 := rfl
  simp only [List.nil_append, List.append_nil, Bool.and_false, hnil, Nat.zero_add] at hpass
  exact hpass

/-! ## Documents without strays -/

/-- Nothing but names of the root is taken for a key, in a syntax at the depth `n`: where the
counter shows one there is no string behind a comma in an array, and no object but the root. -/
def Quiet : {k : JsonKind} → JsonSyntax k → ℕ → Prop
  | _, .arr _ v _ rest, n => Quiet v (n + 1) ∧ Quiet rest (n + 1)
  | _, .obj _ _ _ _ v _ rest, n =>
    (counted (n + 1) = true → n = 0) ∧ Quiet v (n + 1) ∧ Quiet rest (n + 1)
  | _, .item _ v _ rest, n => ¬ (counted n = true ∧ v.isStr = true) ∧ Quiet v n ∧ Quiet rest n
  | _, .member _ _ _ _ v _ rest, n => Quiet v n ∧ Quiet rest n
  | _, _, _ => True

/-- A string is taken where one is expected. -/
lemma taken_eq_nil_of_isStr {v : JsonSyntax .value} {n o : ℕ} :
    taken v n o (counted n) = [] ↔
      ¬ (counted n = true ∧ v.isStr = true) ∧ taken v n o false = [] := by
  cases v with
  | str raw =>
    cases hn : counted n with
    | false => simp [taken, isStr]
    | true => simp [taken, isStr]
  | _ => simp [taken, isStr]

/-- Below the root, nothing is taken of a quiet syntax only. -/
lemma taken_eq_nil_iff (x : JsonSyntax k) {n : ℕ} (o : ℕ) (hn : n ≠ 0)
    (hk : k = .members → counted n = false) : taken x n o false = [] ↔ Quiet x n := by
  induction x generalizing n o with
  | arr w v w' rest ihv ihrest =>
    rw [taken, List.append_eq_nil_iff, ihv _ (Nat.succ_ne_zero n) (fun h => nomatch h),
      ihrest _ (Nat.succ_ne_zero n) (fun h => nomatch h), Quiet]
  | item w v w' rest ihv ihrest =>
    rw [taken, List.append_eq_nil_iff, taken_eq_nil_of_isStr, ihv _ hn (fun h => nomatch h),
      ihrest _ hn (fun h => nomatch h), Quiet, and_assoc]
  | obj w name w₁ w₂ v w' rest ihv ihrest =>
    rw [taken, List.append_eq_nil_iff, List.append_eq_nil_iff,
      ihv _ (Nat.succ_ne_zero n) (fun h => nomatch h), Quiet]
    cases hcount : counted (n + 1) with
    | false =>
      rw [ihrest _ (Nat.succ_ne_zero n) (fun _ => hcount)]
      simp
    | true => simp [hn]
  | member w name w₁ w₂ v w' rest ihv ihrest =>
    rw [taken, hk rfl, List.append_eq_nil_iff, List.append_eq_nil_iff,
      ihv _ hn (fun h => nomatch h), ihrest _ hn hk, Quiet]
    simp
  | _ => simp [taken, Quiet]

/-- The names of the members are among what is taken. -/
lemma length_names_le (x : JsonSyntax k) {n : ℕ} (o : ℕ) (hk : k = .members)
    (hcount : counted n = true) : (x.names o).length ≤ (taken x n o false).length := by
  induction x generalizing o with
  | noMember => exact le_rfl
  | member w name w₁ w₂ v w' rest _ ih =>
    rw [taken, names, hcount, if_pos rfl, List.singleton_append, List.length_cons,
      List.length_cons, List.length_append]
    exact Nat.succ_le_succ ((ih _ hk).trans (Nat.le_add_left _ _))
  | _ => cases hk

lemma append_eq_iff_of_length_le {α : Type} {l l' m : List α} (h : m.length ≤ l'.length) :
    l ++ l' = m ↔ l = [] ∧ l' = m := by
  constructor
  · rintro rfl
    rw [List.length_append] at h
    have hnil : l = [] := List.eq_nil_of_length_eq_zero (by omega)
    exact ⟨hnil, by rw [hnil, List.nil_append]⟩
  · rintro ⟨rfl, rfl⟩
    rfl

/-- Of quiet members only the names are taken. -/
lemma taken_eq_names_iff (x : JsonSyntax k) {n : ℕ} (o : ℕ) (hk : k = .members) (hn : n ≠ 0)
    (hcount : counted n = true) : taken x n o false = x.names o ↔ Quiet x n := by
  induction x generalizing o with
  | noMember => simp [taken, names, Quiet]
  | member w name w₁ w₂ v w' rest _ ih =>
    rw [taken, names, hcount, if_pos rfl, List.singleton_append, List.cons.injEq,
      append_eq_iff_of_length_le (length_names_le rest _ rfl hcount),
      taken_eq_nil_iff v _ hn (fun h => by cases h), ih _ hk, Quiet]
    simp
  | _ => cases hk

/-- **At the root** the names are taken of a quiet value only. -/
lemma taken_root_iff (v : JsonSyntax .value) (o : ℕ) :
    taken v 0 o false = v.names o ↔ Quiet v 0 := by
  cases v with
  | arr w v w' rest =>
    have hnames : (JsonSyntax.arr w v w' rest).names o = [] := rfl
    rw [taken, hnames, List.append_eq_nil_iff,
      taken_eq_nil_iff v _ (Nat.succ_ne_zero 0) (fun h => nomatch h),
      taken_eq_nil_iff rest _ (Nat.succ_ne_zero 0) (fun h => nomatch h), Quiet]
  | obj w name w₁ w₂ v w' rest =>
    have hone : counted (0 + 1) = true := rfl
    rw [taken, names, hone, if_pos rfl, List.singleton_append, List.cons.injEq,
      append_eq_iff_of_length_le (length_names_le rest _ rfl hone),
      taken_eq_nil_iff v _ (Nat.succ_ne_zero 0) (fun h => nomatch h),
      taken_eq_names_iff rest _ rfl (Nat.succ_ne_zero 0) hone, Quiet]
    simp
  | _ => simp [taken, names, Quiet]

end JsonKeys

open JsonKeys

/-- The name of a symbol and the range of its bytes. -/
def Extracted.span (e : Extracted) : String × ℤ × ℤ :=
  (e.symbol.displayName, e.symbol.startByte, e.symbol.endByte)

/-- The keys of a document are reported: the names of the root, in order, each with the range that
is the name in its quotes. -/
structure KeysExact (relPath : String) (doc : JsonDocument) (found : List Extracted) : Prop where
  reported : extractJsonTopLevelKeys relPath doc.text = some found
  names : found.map Extracted.span =
    doc.names.map fun p => (String.ofList p.1, (p.2 : ℤ), (p.2 + byteLen p.1 + 2 : ℤ))
  quoted : ∀ e ∈ found, slice doc.text e.symbol.startByte.toNat e.symbol.endByte.toNat =
    some ('"' :: (e.symbol.displayName.toList ++ ['"']))

/-- The name and the range of a name at its offset. -/
lemma span_keyAt (relPath : String) (text : List Char) (p : List Char × ℕ) :
    (keyAt relPath text p).span =
      (String.ofList p.1, (p.2 : ℤ), (p.2 + byteLen p.1 + 2 : ℤ)) := by
  have hend : ((p.2 + 1 + byteLen p.1 + 1 : ℕ) : ℤ) = p.2 + byteLen p.1 + 2 := by
    push_cast
    omega
  rw [← hend]
  rfl

/-- **Keys of JSON** are reported exactly if nothing else is taken for a key. -/
theorem keysExact_iff (relPath : String) (doc : JsonDocument) :
    (∃ found, KeysExact relPath doc found) ↔ Quiet doc.value 0 := by
  have hfound := extractJsonTopLevelKeys_document relPath doc
  have hspan : Extracted.span ∘ keyAt relPath doc.text =
      fun p => (String.ofList p.1, (p.2 : ℤ), (p.2 + byteLen p.1 + 2 : ℤ)) :=
    funext fun p => span_keyAt relPath doc.text p
  rw [← taken_root_iff doc.value (byteLen doc.front.1)]
  constructor
  · rintro ⟨found, hreported, hnames, -⟩
    obtain rfl := Option.some.inj (hreported.symm.trans hfound)
    rw [List.map_map, hspan] at hnames
    refine List.map_injective_iff.mpr ?_ hnames
    rintro ⟨name, o⟩ ⟨name', o'⟩ heq
    simp only [Prod.mk.injEq, String.ofList_inj, Nat.cast_inj] at heq
    rw [heq.1, heq.2.1]
  · intro hnames
    refine ⟨_, hfound, by rw [List.map_map, hspan, hnames, JsonDocument.names], fun e he => ?_⟩
    rw [hnames] at he
    obtain ⟨p, hp, rfl⟩ := List.mem_map.mp he
    have hquoted := quoted_of_mem_names doc.value (b := doc.back.1) rfl p hp
    have hend : (keyAt relPath doc.text p).symbol.endByte.toNat = p.2 + byteLen p.1 + 2 := by
      show (p.2 + 1 + byteLen p.1 + 1 : ℕ) = _
      omega
    have hname : (keyAt relPath doc.text p).symbol.displayName.toList = p.1 := String.toList_ofList
    rw [hend, hname]
    exact hquoted

/-- `["a","b"]`. -/
def twoStrings : JsonDocument where
  front := ⟨[], .nil⟩
  value :=
    let raw (c : Char) (h : isUnescaped c = true) : Matched jsonRaw :=
      ⟨[c], .cons (a := [c]) (b := []) (.left (.chars h)) .nil⟩
    .arr ⟨[], .nil⟩ (.str (raw 'a' (by decide))) ⟨[], .nil⟩
      (.item ⟨[], .nil⟩ (.str (raw 'b' (by decide))) ⟨[], .nil⟩ .noItem)
  back := ⟨[], .nil⟩

/-- The second item of an array is reported as a key. -/
theorem not_keysExact_twoStrings : ¬ ∃ found, KeysExact "a.json" twoStrings found := by
  rintro ⟨found, hreported, hnames, -⟩
  rw [extractJsonTopLevelKeys_document] at hreported
  obtain rfl := Option.some.inj hreported
  exact absurd hnames (by simp [twoStrings, taken, JsonDocument.names, names, counted])

end WorkspaceAtlas
