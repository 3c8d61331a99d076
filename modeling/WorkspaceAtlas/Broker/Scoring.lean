/-
# The candidates of a context packet

The first part of `broker::build_packet`: the files and symbols that a request names, that its
text mentions or that lie one relationship away are scored, the score of a candidate adding up
over all that speaks for it.

The candidates are collected in a hash map, and most of the queries have no `ORDER BY`.  What
order a run meets their rows and entries in is an argument, `Orders`.  A score is a sum of the
seven bonuses, each a whole number, which a double holds exactly as long as it is below 2^53.
-/
import Mathlib.Data.Prod.Lex
import WorkspaceAtlas.Relational.SortedMap
import WorkspaceAtlas.Text.Like
import WorkspaceAtlas.Serving.Store
import WorkspaceAtlas.Query.Impact

namespace WorkspaceAtlas

open Relational Text

/-- `BrokerMode`. -/
inductive BrokerMode where
  | map
  | change
  | audit
  deriving DecidableEq, Repr

/-- `BrokerMode::as_str`. -/
def BrokerMode.asStr : BrokerMode → String
  | map => "map"
  | change => "change"
  | audit => "audit"

/-- `TaskRequest`. -/
structure TaskRequest where
  task : String
  mode : BrokerMode
  knownPaths : List String
  knownSymbols : List String
  maxRecords : ℤ
  maxSourceBytes : ℤ
  maxTokenEstimate : ℤ
  deriving DecidableEq, Repr

/-! ## What a run does not determine -/

/-- An order in which rows or entries are met. -/
structure RowOrder (α : Type*) where
  arrange : List α → List α
  perm (rows : List α) : List.Perm (arrange rows) rows

namespace RowOrder

/-- The rows as they are. -/
def given {α : Type*} : RowOrder α := ⟨id, fun _ => List.Perm.refl _⟩

/-- The rows from the last to the first. -/
def reversed {α : Type*} : RowOrder α := ⟨List.reverse, List.reverse_perm⟩

variable {α : Type*} {o : RowOrder α} {rows : List α} {a : α}

@[simp] lemma mem_arrange : a ∈ o.arrange rows ↔ a ∈ rows := (o.perm rows).mem_iff

end RowOrder

/-- `ScoredCandidate`. -/
@[ext] structure ScoredCandidate where
  canonicalPath : String
  canonicalSymbolKey : Option String
  displayName : Option String
  symbolKind : Option String
  score : ℕ
  distance : ℕ
  preferredSemantic : Bool
  deriving DecidableEq, Repr

/-- The row of a symbol behind that of the file it is in. -/
abbrev NamedSymbol := CurrentFile × SymbolFact

/-- The map from keys to candidates. -/
abbrev Scored := SortedMap String ScoredCandidate

/-- The orders of a run: of the rows of each query without `ORDER BY`, and of the entries of the
map when its values are listed, first for the seeds and then for the ranking. -/
structure Orders where
  resolved : String → RowOrder NamedSymbol
  symbols : RowOrder NamedSymbol
  seeds : RowOrder (String × ScoredCandidate)
  relationships : String → RowOrder RelationshipFact
  files : RowOrder CurrentFile
  candidates : RowOrder (String × ScoredCandidate)

/-- The orders that leave everything as it is. -/
def Orders.given : Orders :=
  ⟨fun _ => .given, .given, .given, fun _ => .given, .given, .given⟩

namespace Broker

/-! ## Candidates -/

/-- `key_for_path`. -/
def keyForPath (p : String) : String := "path:" ++ p

/-- `add_or_bump`. -/
def addOrBump (scored : Scored) (key : String) (make : ScoredCandidate) (bump : ℕ) : Scored :=
  scored.entryOr key make fun c => { c with score := c.score + bump }

/-- The candidate that is a file. -/
def pathCandidate (path : String) (distance : ℕ) : ScoredCandidate where
  canonicalPath := path
  canonicalSymbolKey := none
  displayName := none
  symbolKind := none
  score := 0
  distance := distance
  preferredSemantic := false

/-- `evidence_method == "semantic"`. -/
def isSemantic (row : NamedSymbol) : Bool := row.2.evidenceMethod = .semantic

/-- The candidate that is a symbol, under the key it was asked for with. -/
def symbolCandidate (key : String) (row : NamedSymbol) : ScoredCandidate where
  canonicalPath := row.1.canonicalPath
  canonicalSymbolKey := some key
  displayName := some row.2.displayName
  symbolKind := some row.2.symbolKind
  score := 0
  distance := 0
  preferredSemantic := isSemantic row

/-! ## What the request names -/

/-- `canonical_symbol_key = ?2 OR qualified_name = ?2 OR display_name = ?2`. -/
def isNamed (symbol : String) (row : NamedSymbol) : Bool :=
  row.2.canonicalSymbolKey = symbol ∨ row.2.qualifiedName = symbol ∨ row.2.displayName = symbol

/-- `resolve_symbol`: the first row of the query. -/
def resolveSymbol (c : Catalogue) (o : Orders) (gid symbol : String) : Option NamedSymbol :=
  ((o.resolved symbol).arrange ((c.currentSymbols gid).filter (isNamed symbol))).head?

/-- The first loop: a known path. -/
def addKnownPath (scored : Scored) (p : String) : Scored :=
  addOrBump scored (keyForPath p) (pathCandidate p 0) 100

/-- The second loop: a known symbol, if there is such a symbol. -/
def addKnownSymbol (c : Catalogue) (o : Orders) (gid : String) (scored : Scored) (s : String) :
    Scored :=
  match resolveSymbol c o gid s with
  | none => scored
  | some row => addOrBump scored s (symbolCandidate s row) (if isSemantic row then 115 else 100)

/-! ## What the text mentions -/

/-- `task_lower.contains(&text.to_ascii_lowercase())`. -/
def mentions (task : String) (text : List Char) : Bool :=
  toAsciiLowercase text <:+: toAsciiLowercase task.toList

/-- The name of the symbol is mentioned. -/
def mentionsName (task : String) (row : NamedSymbol) : Bool :=
  row.2.displayName ≠ "" ∧ mentions task row.2.displayName.toList = true

/-- The name of the file is mentioned. -/
def mentionsFile (task : String) (row : NamedSymbol) : Bool :=
  mentions task (afterLast '/' row.1.canonicalPath.toList)

/-- The third loop: a symbol of the generation. -/
def addMentioned (task : String) (scored : Scored) (row : NamedSymbol) : Scored :=
  let scored :=
    if mentionsName task row then
      addOrBump scored row.2.canonicalSymbolKey (symbolCandidate row.2.canonicalSymbolKey row)
        (if isSemantic row then 95 else 80)
    else scored
  if mentionsFile task row then
    addOrBump scored (keyForPath row.1.canonicalPath) (pathCandidate row.1.canonicalPath 0) 70
  else scored

/-- The candidates before the relationships are followed. -/
def seedCandidates (c : Catalogue) (o : Orders) (gid : String) (req : TaskRequest) : Scored :=
  (o.symbols.arrange (c.currentSymbols gid)).foldl (addMentioned req.task)
    (req.knownSymbols.foldl (addKnownSymbol c o gid) (req.knownPaths.foldl addKnownPath .empty))

/-! ## One hop -/

/-- The bonus of what a relationship leads to. -/
def hopBump (rf : RelationshipFact) : ℕ :=
  match rf.relationshipType with
  | .calls => 50
  | .imports => 40
  | _ => 20

/-- The relationships of the current files that start at a path. -/
def seedRelationships (c : Catalogue) (gid seed : String) : List RelationshipFact :=
  let revised := join c.facts.relationshipFact.rows c.fileRevision.rows fun rf fr =>
    fr.revisionId = rf.revisionId
  ((join revised (c.currentFileOf gid) fun p cf => cf.revisionId = some p.2.revisionId).filter
    fun row => row.1.1.sourceRefKind = .path ∧ row.1.1.sourceRefValue = seed).map fun row =>
      row.1.1

/-- A relationship is followed to a path that has not been seen: `seen_paths` and the map. -/
def followRelationship (state : List String × Scored) (rf : RelationshipFact) :
    List String × Scored :=
  if rf.targetRefKind = .path ∧ rf.targetRefValue ∉ state.1 then
    (rf.targetRefValue :: state.1, addOrBump state.2 (keyForPath rf.targetRefValue)
      (pathCandidate rf.targetRefValue 1) (hopBump rf))
  else state

/-- `seed_paths`. -/
def seedPaths (o : Orders) (scored : Scored) : List String :=
  (o.seeds.arrange scored.entries).map fun entry => entry.2.canonicalPath

/-- The relationships in the order in which they are followed. -/
def followed (c : Catalogue) (o : Orders) (gid : String) (seeds : List String) :
    List RelationshipFact :=
  seeds.flatMap fun seed => (o.relationships seed).arrange (seedRelationships c gid seed)

/-- The candidates after the hop. -/
def expand (c : Catalogue) (o : Orders) (gid : String) (scored : Scored) : Scored :=
  ((followed c o gid (seedPaths o scored)).foldl followRelationship
    (seedPaths o scored, scored)).2

/-! ## Tests -/

/-- The name of a file, without `.ts` at its end. -/
def testBase (seed : String) : List Char :=
  trimEndTs (afterLast '/' seed.toList).reverse
where
  /-- `trim_end_matches(".ts")` of a reversed text. -/
  trimEndTs : List Char → List Char
    | 's' :: 't' :: '.' :: rest => trimEndTs rest
    | rest => rest.reverse

/-- `canonical_path LIKE ?2 OR canonical_path LIKE ?3`. -/
def isTestOf (seed path : String) : Bool :=
  like ("%test%".toList ++ testBase seed ++ ['%']) path.toList ∨
    like ('%' :: testBase seed ++ "%test%".toList) path.toList

/-- `tests`: what the queries return, each path once, sorted. -/
def tests (c : Catalogue) (o : Orders) (gid : String) (seeds : List String) : List String :=
  sortedSet (seeds.flatMap fun seed =>
    (o.files.arrange ((c.currentFileOf gid).filter fun cf => isTestOf seed cf.canonicalPath)).map
      CurrentFile.canonicalPath)

/-! ## The ranking -/

/-- What candidates are sorted by: the score from the highest down, the distance, the path and
the symbol key. -/
def rankKey (candidate : ScoredCandidate) : ℕᵒᵈ ×ₗ ℕ ×ₗ String ×ₗ String :=
  toLex (OrderDual.toDual candidate.score, toLex (candidate.distance,
    toLex (candidate.canonicalPath, candidate.canonicalSymbolKey.getD "")))

/-- The candidates from the best to the last. -/
def ranked (o : Orders) (scored : Scored) : List ScoredCandidate :=
  orderBy rankKey ((o.candidates.arrange scored.entries).map Prod.snd)

end Broker

end WorkspaceAtlas
