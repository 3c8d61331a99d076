/-
# The provider for documents and configurations

`run_document_config`: headings of Markdown, top-level keys of JSON and YAML, keys and sections of
TOML.  A key of an indented line of TOML is given a range that starts with the line and is as long
as what stands before `=` behind the indentation.
-/
import WorkspaceAtlas.Provider.Spans

namespace WorkspaceAtlas

open Text

/-- `line.trim_end_matches(['\n', '\r'])`. -/
def trimLineEnd (line : List Char) : List Char :=
  trimEndMatches (fun ch => ch = '\n' || ch = '\r') line

/-- `str::trim_start`. -/
def trimStart (s : List Char) : List Char := s.dropWhile isWhitespace

/-- `char::is_alphanumeric`, which is a parameter: the tables of the standard library are not
part of the source. -/
abbrev Alphanumeric := Char → Bool

/-- The characters of a key. -/
def isConfigKeyChar (isAlphanumeric : Alphanumeric) (c : Char) : Bool :=
  isAlphanumeric c || c = '_' || c = '-' || c = '.'

/-! ## Markdown -/

/-- The body of `extract_markdown_headings`. -/
def markdownHeading (relPath : String) (text : List Char) (offset : ℕ) (line : List Char) :
    Option (Option Extracted) :=
  let trimmed := trimLineEnd line
  let stripped := trimStart trimmed
  match findChar (· ≠ '#') stripped with
  | none => some none
  | some hashesEnd =>
    if 0 < hashesEnd ∧ hashesEnd ≤ 6 ∧ (bytesOf stripped)[hashesEnd]? = some 0x20 then do
      let inner ← sliceFrom stripped hashesEnd
      let title := String.ofList (trim inner)
      let leadingWs := byteLen line - byteLen (trimStart line)
      let start := offset + leadingWs
      let place := lineColAt text start
      return some
        { symbol :=
            { canonicalSymbolKey := "md-heading:" ++ relPath ++ "#" ++ title ++ "@" ++
                toString offset
              symbolKind := "heading"
              displayName := title
              qualifiedName := relPath ++ "#" ++ title
              signature := some ("h" ++ toString hashesEnd)
              startByte := start
              endByte := (offset + byteLen trimmed : ℕ)
              startLine := place.1
              startColumn := place.2
              endLine := place.1
              endColumn := place.2 + byteLen trimmed
              evidenceMethod := .structural
              confidence := 9 / 10
              evidenceReason := "ATX heading pattern" }
          occurrence := start + hashesEnd + (byteLen inner - byteLen (trimStart inner)) }
    else some none

/-! ## YAML -/

/-- The body of `extract_yaml_toplevel_keys`. -/
def yamlKey (isAlphanumeric : Alphanumeric) (relPath : String) (text : List Char) (offset : ℕ)
    (line : List Char) : Option (Option Extracted) :=
  let trimmed := trimLineEnd line
  if trimmed.head? ≠ some ' ' ∧ trimmed.head? ≠ some '\t' ∧
      (trimStart trimmed).head? ≠ some '#' ∧ (trimStart trimmed).head? ≠ some '-' then
    match findChar (· = ':') trimmed with
    | none => some none
    | some colon => do
      let front ← sliceTo trimmed colon
      let key := trim front
      if key ≠ [] ∧ key.all (isConfigKeyChar isAlphanumeric) then
        let name := String.ofList key
        let place := lineColAt text offset
        return some
          { symbol :=
              { canonicalSymbolKey := "yaml-key:" ++ relPath ++ "#" ++ name ++ "@" ++
                  toString offset
                symbolKind := "config_key"
                displayName := name
                qualifiedName := relPath ++ "#" ++ name
                signature := none
                startByte := offset
                endByte := (offset + colon : ℕ)
                startLine := place.1
                startColumn := place.2
                endLine := place.1
                endColumn := place.2 + colon
                evidenceMethod := .structural
                confidence := 8 / 10
                evidenceReason := "top-level YAML key (no indentation)" }
            occurrence := offset + (byteLen front - byteLen (trimStart front)) }
      else return none
  else some none

/-! ## TOML -/

/-- The symbol of a section header. -/
def tomlSection (relPath : String) (text : List Char) (offset : ℕ) (trimmed : List Char)
    (name : String) (occurrence : ℕ) : Extracted :=
  let place := lineColAt text offset
  { symbol :=
      { canonicalSymbolKey := "toml-section:" ++ relPath ++ "#" ++ name ++ "@" ++
          toString offset
        symbolKind := "config_section"
        displayName := name
        qualifiedName := relPath ++ "#[" ++ name ++ "]"
        signature := none
        startByte := offset
        endByte := (offset + byteLen trimmed : ℕ)
        startLine := place.1
        startColumn := place.2
        endLine := place.1
        endColumn := place.2 + byteLen trimmed
        evidenceMethod := .structural
        confidence := 9 / 10
        evidenceReason := "TOML section header" }
    occurrence := occurrence }

/-- The symbol of a key. -/
def tomlKey (relPath : String) (text : List Char) (offset eq : ℕ) (key : String)
    (occurrence : ℕ) : Extracted :=
  let place := lineColAt text offset
  { symbol :=
      { canonicalSymbolKey := "toml-key:" ++ relPath ++ "#" ++ key ++ "@" ++ toString offset
        symbolKind := "config_key"
        displayName := key
        qualifiedName := relPath ++ "#" ++ key
        signature := none
        startByte := offset
        endByte := (offset + eq : ℕ)
        startLine := place.1
        startColumn := place.2
        endLine := place.1
        endColumn := place.2 + eq
        evidenceMethod := .structural
        confidence := 85 / 100
        evidenceReason := "TOML key-value" }
    occurrence := occurrence }

/-- The body of `extract_toml_top_level_keys`. -/
def tomlLine (isAlphanumeric : Alphanumeric) (relPath : String) (text : List Char) (offset : ℕ)
    (line : List Char) : Option (Option Extracted) :=
  let trimmed := trimLineEnd line
  let t := trimStart trimmed
  let indent := byteLen trimmed - byteLen t
  if t.head? = some '[' then
    match findChar (· = ']') t with
    | none => some none
    | some stop => do
      let inner ← slice t 1 stop
      return some (tomlSection relPath text offset trimmed (String.ofList (trim inner))
        (offset + indent + 1 + (byteLen inner - byteLen (trimStart inner))))
  else if t.head? ≠ some '#' ∧ t ≠ [] then
    match findChar (· = '=') t with
    | none => some none
    | some eq => do
      let front ← sliceTo t eq
      let key := trim front
      if key ≠ [] ∧ key.all (isConfigKeyChar isAlphanumeric) then
        return some (tomlKey relPath text offset eq (String.ofList key)
          (offset + indent + (byteLen front - byteLen (trimStart front))))
      else return none
  else some none

/-! ## JSON -/

/-- The inner loop of `extract_json_top_level_keys`, to the quote that closes a string. -/
def jsonString (bytes : List UInt8) (j : ℕ) : ℕ :=
  if h : j < bytes.length then
    if bytes[j] = 0x22 then j
    else jsonString bytes (if bytes[j] = 0x5c then j + 2 else j + 1)
  else j
termination_by bytes.length - j
decreasing_by split <;> omega

lemma le_jsonString (bytes : List UInt8) (j : ℕ) : j ≤ jsonString bytes j := by
  fun_induction jsonString bytes j with
  | case1 j h hquote => exact le_rfl
  | case2 j h hquote ih =>
    refine le_trans ?_ ih
    split <;> omega
  | case3 j h => exact le_rfl

/-- The symbol of a key. -/
def jsonKey (relPath : String) (text : List Char) (keyStart j : ℕ) (key : String) : Extracted :=
  let place := lineColAt text keyStart
  { symbol :=
      { canonicalSymbolKey := "json-key:" ++ relPath ++ "#" ++ key ++ "@" ++ toString keyStart
        symbolKind := "config_key"
        displayName := key
        qualifiedName := relPath ++ "#" ++ key
        signature := none
        startByte := keyStart
        endByte := (j + 1 : ℕ)
        startLine := place.1
        startColumn := place.2
        endLine := place.1
        endColumn := place.2 + (j - keyStart : ℕ)
        evidenceMethod := .structural
        confidence := 85 / 100
        evidenceReason := "top-level JSON key" }
    occurrence := keyStart + 1 }

/-- The outer loop of `extract_json_top_level_keys`. -/
def jsonLoop (relPath : String) (text : List Char) (bytes : List UInt8) (i : ℕ) (depth : Int32)
    (expectKey : Bool) : Option (List Extracted) :=
  if h : i < bytes.length then
    let c := bytes[i]
    if c = 0x22 then do
      let j := jsonString bytes (i + 1)
      let found ←
        if depth = 1 ∧ expectKey = true ∧ j < bytes.length then
          (slice text (i + 1) j).map fun key => [jsonKey relPath text i j (String.ofList key)]
        else some []
      let rest ← jsonLoop relPath text bytes (min (j + 1) bytes.length) depth false
      return found ++ rest
    else if c = 0x7b then jsonLoop relPath text bytes (i + 1) (depth + 1) (depth + 1 = 1)
    else if c = 0x5b then jsonLoop relPath text bytes (i + 1) (depth + 1) false
    else if c = 0x7d ∨ c = 0x5d then jsonLoop relPath text bytes (i + 1) (depth - 1) false
    else if c = 0x2c ∧ depth = 1 then jsonLoop relPath text bytes (i + 1) depth true
    else jsonLoop relPath text bytes (i + 1) depth expectKey
  else some []
termination_by bytes.length - i
decreasing_by
  · have hle := le_jsonString bytes (i + 1)
    exact Nat.sub_lt_sub_left h (lt_min (by omega) h)
  all_goals omega

/-! ## The provider -/

/-- What the provider extracts; `none` where a slice would panic. -/
def documentSymbols (isAlphanumeric : Alphanumeric) (relPath : String) (text : List Char) :
    Option (List Extracted) :=
  let lower := toAsciiLowercase relPath.toList
  if ".md".toList <:+ lower ∨ ".markdown".toList <:+ lower then
    eachLine (markdownHeading relPath text) text
  else if ".json".toList <:+ lower then jsonLoop relPath text (bytesOf text) 0 0 false
  else if ".yaml".toList <:+ lower ∨ ".yml".toList <:+ lower then
    eachLine (yamlKey isAlphanumeric relPath text) text
  else if ".toml".toList <:+ lower then eachLine (tomlLine isAlphanumeric relPath text) text
  else some []

/-- `run_document_config`. -/
def runDocumentConfig (isAlphanumeric : Alphanumeric) (relPath : String) (text : List Char) :
    Option NormalizedBatch :=
  (documentSymbols isAlphanumeric relPath text).map fun found =>
    { NormalizedBatch.empty "document_config" "1.0.0" .documentConfig with
      symbols := found.map Extracted.symbol }

end WorkspaceAtlas
