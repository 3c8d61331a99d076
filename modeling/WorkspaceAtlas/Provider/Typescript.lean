/-
# The structural provider for TypeScript

`run_typescript`: regular expressions find declarations and imports, and a scan over the bytes
finds where a declaration ends.  A match may start with lines that are blank or hold the keyword
only; the scan for the end of a statement starts with them.
-/
import WorkspaceAtlas.Provider.Spans
import WorkspaceAtlas.Text.Regex

namespace WorkspaceAtlas

open Text Text.Regex

/-! ## The expressions -/

/-- An expression `(?m)^before(group)after`. -/
structure Pattern where
  before : Regex
  group : Regex
  after : Regex

/-- A match of an expression: where it starts, where its group starts, and the group. -/
structure Capture where
  start : ℕ
  groupStart : ℕ
  group : List Char
  deriving DecidableEq

/-- The captures that an engine answers for an expression and a text. -/
abbrev CapturesIter := Pattern → List Char → List Capture

/-- The capture is a match of the expression that starts with a line. -/
def IsCapture (pattern : Pattern) (text : List Char) (c : Capture) : Prop :=
  ∃ a h t b, text = a ++ (h ++ (c.group ++ (t ++ b))) ∧ (a = [] ∨ a.getLast? = some '\n') ∧
    Matches pattern.before h ∧ Matches pattern.group c.group ∧ Matches pattern.after t ∧
    c.start = byteLen a ∧ c.groupStart = byteLen a + byteLen h

/-- `\s*`. -/
def spaces : Regex := .star (.chars isWhitespace)

/-- `\s+`. -/
def space : Regex := .plus (.chars isWhitespace)

/-- `(word\s+)?`. -/
def modifier (w : List Char) : Regex := .opt (.seq (.word w) space)

/-- `[A-Za-z_$]`. -/
def isIdentStart (c : Char) : Bool := c.isAlpha || c = '_' || c = '$'

/-- `[A-Za-z_$][A-Za-z0-9_$]*`. -/
def ident : Regex :=
  .seq (.chars isIdentStart) (.star (.chars fun c => isIdentStart c || c.isDigit))

/-- `FN_RE`. -/
def fnRe : Pattern where
  before := .seq spaces (.seq (modifier "export".toList) (.seq (modifier "async".toList)
    (.seq (.word "function".toList) space)))
  group := ident
  after := .seq spaces (.chars (· = '('))

/-- `CLASS_RE`. -/
def classRe : Pattern where
  before := .seq spaces (.seq (modifier "export".toList) (.seq (modifier "default".toList)
    (.seq (.word "class".toList) space)))
  group := ident
  after := .empty

/-- `CONST_RE`. -/
def constRe : Pattern where
  before := .seq spaces (.seq (modifier "export".toList)
    (.seq (.alt (.word "const".toList) (.word "let".toList)) space))
  group := ident
  after := .seq spaces (.seq (.opt (.seq (.chars (· = ':')) (.plus (.chars (· ≠ '=')))))
    (.chars (· = '=')))

/-- A character that is no quote. -/
def isUnquoted (c : Char) : Bool := c ≠ '\'' && c ≠ '"'

/-- `IMPORT_RE`. -/
def importRe : Pattern where
  before := .seq spaces (.seq (.word "import".toList) (.seq space
    (.seq (.opt (.seq (.plus (.chars isUnquoted)) (.seq space (.seq (.word "from".toList) space))))
      (.chars fun c => !isUnquoted c))))
  group := .plus (.chars isUnquoted)
  after := .chars fun c => !isUnquoted c

/-! ## Ends of declarations -/

/-- `b'"' | b'\'' | b'`'`. -/
def isQuote (c : UInt8) : Bool := c = 0x22 || c = 0x27 || c = 0x60

/-- The second loop of `find_brace_matched_end`, over the bytes from `i`. -/
def braceLoop : List UInt8 → ℕ → Int32 → Option UInt8 → Bool → Option ℕ
  | [], _, _, _, _ => none
  | c :: bytes, i, depth, some q, escape =>
    if escape then braceLoop bytes (i + 1) depth (some q) false
    else if c = 0x5c then braceLoop bytes (i + 1) depth (some q) true
    else if c = q then braceLoop bytes (i + 1) depth none false
    else braceLoop bytes (i + 1) depth (some q) false
  | c :: bytes, i, depth, none, escape =>
    if isQuote c then braceLoop bytes (i + 1) depth (some c) escape
    else if c = 0x7b then braceLoop bytes (i + 1) (depth + 1) none escape
    else if c = 0x7d then
      if depth - 1 = 0 then some (i + 1) else braceLoop bytes (i + 1) (depth - 1) none escape
    else braceLoop bytes (i + 1) depth none escape

/-- `find_brace_matched_end`. -/
def findBraceMatchedEnd (bytes : List UInt8) (start : ℕ) : Option ℕ :=
  let i := start + ((bytes.drop start).takeWhile (· ≠ 0x7b)).length
  if bytes.length ≤ i then none else braceLoop (bytes.drop i) i 0 none false

/-- The loop of `find_statement_end`, over the bytes from `i`. -/
def statementLoop : List UInt8 → ℕ → Int32 → Option UInt8 → Bool → ℕ
  | [], i, _, _, _ => i
  | c :: bytes, i, depth, some q, escape =>
    if escape then statementLoop bytes (i + 1) depth (some q) false
    else if c = 0x5c then statementLoop bytes (i + 1) depth (some q) true
    else if c = q then statementLoop bytes (i + 1) depth none false
    else statementLoop bytes (i + 1) depth (some q) false
  | c :: bytes, i, depth, none, escape =>
    if isQuote c then statementLoop bytes (i + 1) depth (some c) escape
    else if c = 0x28 ∨ c = 0x7b ∨ c = 0x5b then statementLoop bytes (i + 1) (depth + 1) none escape
    else if c = 0x29 ∨ c = 0x7d ∨ c = 0x5d then statementLoop bytes (i + 1) (depth - 1) none escape
    else if c = 0x3b ∧ depth ≤ 0 then i + 1
    else if c = 0x0a ∧ depth ≤ 0 then i
    else statementLoop bytes (i + 1) depth none escape

/-- `find_statement_end`. -/
def findStatementEnd (bytes : List UInt8) (start : ℕ) : ℕ :=
  statementLoop (bytes.drop start) start 0 none false

/-! ## The provider -/

/-- What `push_fn_symbol` pushes. -/
def fnSymbol (relPath : String) (text : List Char) (kind : String) (c : Capture) : Extracted :=
  let bytes := bytesOf text
  let endByte :=
    if kind = "variable" then findStatementEnd bytes c.start
    else (findBraceMatchedEnd bytes c.start).getD bytes.length
  let start := lineColAt text c.start
  let stop := lineColAt text endByte
  let name := String.ofList c.group
  { symbol :=
      { canonicalSymbolKey := "ts:" ++ relPath ++ "::" ++ name
        symbolKind := kind
        displayName := name
        qualifiedName := relPath ++ "::" ++ name
        signature := none
        startByte := c.start
        endByte := endByte
        startLine := start.1
        startColumn := start.2
        endLine := stop.1
        endColumn := stop.2
        evidenceMethod := .structural
        confidence := 7 / 10
        evidenceReason := kind ++ " declaration pattern" }
    occurrence := c.groupStart }

/-- What `run_typescript` extracts. -/
def typescriptSymbols (capturesIter : CapturesIter) (relPath : String) (text : List Char) :
    List Extracted :=
  (capturesIter fnRe text).map (fnSymbol relPath text "function") ++
    ((capturesIter classRe text).map (fnSymbol relPath text "class") ++
      (capturesIter constRe text).map (fnSymbol relPath text "variable"))

/-- The relationship of an import. -/
def importRelationship (relPath : String) (c : Capture) : NormalizedRelationship where
  relationshipType := .imports
  sourceRefKind := .path
  sourceRefValue := relPath
  targetRefKind := .external
  targetRefValue := String.ofList c.group
  evidenceMethod := .structural
  confidence := 7 / 10
  evidenceReason := "import statement pattern"

/-- `run_typescript`. -/
def runTypescript (capturesIter : CapturesIter) (relPath : String) (text : List Char) :
    NormalizedBatch :=
  let symbols := (typescriptSymbols capturesIter relPath text).map Extracted.symbol
  let relationships := (capturesIter importRe text).map (importRelationship relPath)
  { NormalizedBatch.empty "structural_typescript" "1.0.0" .structural with
    symbols := symbols
    relationships := relationships
    diagnostics :=
      if symbols.isEmpty ∧ relationships.isEmpty then ["no structural declarations found"]
      else [] }

end WorkspaceAtlas
