/-
# Finding symbols page by page

`query::find_filtered`: the symbols of the active generation whose name contains a query, in the
order of their paths.  A page that is cut off gives a token with the last path of the page, and
a call with a token that was given for the same query goes on behind that path.
-/
import WorkspaceAtlas.Query.Cursor
import WorkspaceAtlas.Relational.Paging
import WorkspaceAtlas.Serving.Rows
import WorkspaceAtlas.Text.Like

namespace WorkspaceAtlas

open Relational Text

/-! ## The query -/

/-- `FindFilter`. -/
structure FindFilter where
  pathPrefix : Option String
  minConfidence : Option ℚ
  cursor : Option String
  deriving DecidableEq, Repr

/-- `FindResult`: the rows that were joined; the output shows a part of their columns. -/
structure FindRow where
  file : CurrentFile
  symbol : SymbolFact
  revision : FileRevision
  run : ExtractorRun
  deriving DecidableEq, Repr

/-- `FindOutput`, less its evidence envelope. -/
structure FindOutput where
  ok : Bool
  generationId : Option String
  query : String
  results : List FindRow
  totalMatched : ℕ
  truncated : Bool
  coverageNote : String
  nextCursor : Option String
  deriving DecidableEq, Repr

/-- `FIND_ORDERING_VERSION`. -/
def findOrderingVersion : String := "find-v1.1.0"

/-- What the hash of a query is taken of. -/
def findQueryText (D : DebugFormat) (query : String) (filter : FindFilter) : List Char :=
  toAsciiLowercase query.toList ++ '\x1f' ::
    (DebugFormat.debugOption D.debugStr filter.pathPrefix ++
      '\x1f' :: DebugFormat.debugOption D.float filter.minConfidence)

/-- The hash of a query. -/
def findQueryHash (H : Hasher) (D : DebugFormat) (query : String) (filter : FindFilter) :
    String :=
  contentHashOfBytes H (utf8 (String.ofList (findQueryText D query filter)))

/-- The path that the token of a filter goes on behind, or the empty text. -/
def findResumeKey (H : Hasher) (D : DebugFormat) (workspaceId gid query : String)
    (filter : FindFilter) : String :=
  let resumeAfter := ((filter.cursor.bind QueryCursor.decode).filter fun c =>
    c.isValidFor workspaceId gid (findQueryHash H D query filter) findOrderingVersion).map
      QueryCursor.lastSortKey
  resumeAfter.getD ""

/-- The rows of the four tables. -/
def findRows (c : Catalogue) (gid : String) : List FindRow :=
  (join (join (c.currentSymbols gid) c.fileRevision.rows fun p fr =>
      p.1.revisionId = some fr.revisionId) c.facts.extractorRun.rows fun p er =>
        er.extractorRunId = p.1.2.extractorRunId).map fun p => ⟨p.1.1.1, p.1.1.2, p.1.2, p.2⟩

/-- The name and the path match the patterns. -/
def patternsMatch (query : String) (filter : FindFilter) (path displayName : String) : Bool :=
  like ('%' :: toAsciiLowercase query.toList ++ ['%']) (toAsciiLowercase displayName.toList) ∧
    ∀ p ∈ filter.pathPrefix, like (p.toList ++ ['%']) path.toList = true

/-- `WHERE`, less the part with the token. -/
def FindRow.selected (query : String) (filter : FindFilter) (r : FindRow) : Bool :=
  patternsMatch query filter r.file.canonicalPath r.symbol.displayName = true ∧
    filter.minConfidence.getD 0 ≤ r.symbol.confidence

/-- `ORDER BY cf.canonical_path, sf.start_byte`. -/
def FindRow.sortKey (r : FindRow) : String ×ₗ ℤ := toLex (r.file.canonicalPath, r.symbol.startByte)

/-- `LIMIT`, where a negative limit is none. -/
def sqlLimit {α : Type} (limit : Int64) (rows : List α) : List α :=
  if limit < 0 then rows else rows.take limit.toNatClampNeg

/-- `find_filtered`. -/
def findFiltered (H : Hasher) (D : DebugFormat) (c : Catalogue) (workspaceId query : String)
    (limit : Int64) (filter : FindFilter) : FindOutput :=
  match activeGeneration? c workspaceId with
  | none => ⟨true, none, query, [], 0, false,
      "no active generation; workspace has not been reconciled yet", none⟩
  | some gid =>
    let resumeKey := findResumeKey H D workspaceId gid query filter
    let rows := sqlLimit (limit + 1) (orderBy FindRow.sortKey ((findRows c gid).filter fun r =>
      r.selected query filter = true ∧ (resumeKey = "" ∨ resumeKey < r.file.canonicalPath)))
    let truncated : Bool := limit.toInt < rows.length
    let results := if truncated then rows.take limit.toUInt64.toNat else rows
    { ok := true
      generationId := some gid
      query := query
      results := results
      totalMatched := results.length
      truncated := truncated
      coverageNote :=
        if results = [] then
          "No matching reference was found in active indexed coverage for generation " ++ gid ++ "."
        else
          toString results.length ++ " match(es) in active indexed coverage for generation " ++
            gid ++ "."
      nextCursor :=
        if truncated then results.getLast?.map fun r => QueryCursor.encode
          ⟨workspaceId, gid, findQueryHash H D query filter, findOrderingVersion,
            r.file.canonicalPath⟩
        else none }

/-- The rows of the pages that a caller gets who follows the tokens; `none` as long as the
limits do not reach to the last page. -/
def followCursors (find : Int64 → Option String → FindOutput) :
    List Int64 → Option String → Option (List FindRow)
  | [], _ => none
  | limit :: limits, cursor =>
    match (find limit cursor).nextCursor with
    | none => some (find limit cursor).results
    | some token => (followCursors find limits (some token)).map ((find limit cursor).results ++ ·)

namespace Find

/-! ## The statement -/

/-- A generation that a single workspace is active on, with the rows that the rows of the
tables refer to; its ids are free of the separator. -/
structure Searchable (c : Catalogue) (ws gid : String) : Prop where
  active : activeGeneration? c ws = some gid
  only : ∀ w ∈ c.workspace, w.activeGenerationId = some gid → w.workspaceId = ws
  committed : ∃ g ∈ c.indexGeneration, g.generationId = gid ∧ g.state = .committed
  revision_stored : ∀ gf ∈ c.generationFile, ∀ rid, gf.revisionId = some rid →
    ∃ fr ∈ c.fileRevision, fr.revisionId = rid
  symbol_runs : ∀ sf ∈ c.facts.symbolFact, ∃ er ∈ c.facts.extractorRun,
    er.extractorRunId = sf.extractorRunId
  workspace_plain : '\x1f' ∉ ws.toList
  generation_plain : '\x1f' ∉ gid.toList
  /-- The rows are counted by a limit. -/
  rows_fit : (findRows c gid).length < 2 ^ 63

/-- A symbol fact of a file of the generation. -/
structure Entry (c : Catalogue) (gid : String) (gf : GenerationFile) (f : SymbolFact) : Prop where
  file_mem : gf ∈ c.generationFile
  generation_eq : gf.generationId = gid
  revision_eq : gf.revisionId = some f.revisionId
  fact_mem : f ∈ c.facts.symbolFact

/-- The name contains the query, up to the case of ASCII letters, and the path starts with the
prefix. -/
def TextMatches (query : String) (filter : FindFilter) (path displayName : String) : Prop :=
  toAsciiLowercase query.toList <:+: toAsciiLowercase displayName.toList ∧
    ∀ p ∈ filter.pathPrefix, p.toList <+: path.toList

/-- What is to be found: the symbol facts of the present files that match. -/
def Wanted (c : Catalogue) (gid query : String) (filter : FindFilter) (path : String)
    (f : SymbolFact) : Prop :=
  ∃ gf, Entry c gid gf f ∧ gf.canonicalPath = path ∧ gf.presenceState = .present ∧
    TextMatches query filter path f.displayName ∧ filter.minConfidence.getD 0 ≤ f.confidence

/-- What a row shows. -/
def place (r : FindRow) : String × SymbolFact := (r.file.canonicalPath, r.symbol)

/-- The rows are what is to be found, each once and in order. -/
structure Lists (c : Catalogue) (gid query : String) (filter : FindFilter)
    (rows : List FindRow) : Prop where
  nodup : (rows.map place).Nodup
  mem_iff : ∀ path f, (path, f) ∈ rows.map place ↔ Wanted c gid query filter path f
  sorted : rows.Pairwise fun a b => a.sortKey ≤ b.sortKey

/-- Whatever the limits are, the pages end and have what is to be found. -/
def PagesExactly (H : Hasher) (D : DebugFormat) (c : Catalogue) (ws gid query : String)
    (filter : FindFilter) : Prop :=
  ∀ limits : ℕ → Int64, (∀ i, 0 < limits i) → ∃ n rows,
    followCursors (fun limit cursor =>
        findFiltered H D c ws query limit { filter with cursor := cursor })
      ((List.range n).map limits) none = some rows ∧ Lists c gid query filter rows

/-- A token of another workspace, generation, query or filter changes nothing. -/
def IgnoresForeign (H : Hasher) (D : DebugFormat) (c : Catalogue) (ws gid query : String)
    (filter : FindFilter) : Prop :=
  ∀ c' ws' gid' query' limit' filter' token, activeGeneration? c' ws' = some gid' →
    '\x1f' ∉ ws'.toList → '\x1f' ∉ gid'.toList →
    (findFiltered H D c' ws' query' limit' filter').nextCursor = some token →
    (ws', gid', toAsciiLowercase query'.toList, filter'.pathPrefix, filter'.minConfidence) ≠
      (ws, gid, toAsciiLowercase query.toList, filter.pathPrefix, filter.minConfidence) →
    ∀ limit, findFiltered H D c ws query limit { filter with cursor := some token } =
      findFiltered H D c ws query limit { filter with cursor := none }

/-- The patterns match what the texts do, no file has two symbols to be found, and the path of a
file that another one follows comes out of a token. -/
structure Pageable (c : Catalogue) (gid query : String) (filter : FindFilter) : Prop where
  literal : ∀ gf f, Entry c gid gf f → filter.minConfidence.getD 0 ≤ f.confidence →
    (patternsMatch query filter gf.canonicalPath f.displayName = true ↔
      gf.presenceState = .present ∧ TextMatches query filter gf.canonicalPath f.displayName)
  single : ∀ path f f', Wanted c gid query filter path f → Wanted c gid query filter path f' →
    f = f'
  plain : ∀ path f path' f', Wanted c gid query filter path f →
    Wanted c gid query filter path' f' → path < path' → path ≠ "" ∧ '\x1f' ∉ path.toList

section Lemmas

variable {H : Hasher} {D : DebugFormat} {c : Catalogue} {ws gid query : String}
  {filter : FindFilter} {r : FindRow} {path : String} {f : SymbolFact}

/-! ## The rows -/

/-- All rows that the query selects, sorted. -/
def selectedRows (c : Catalogue) (gid query : String) (filter : FindFilter) : List FindRow :=
  orderBy FindRow.sortKey ((findRows c gid).filter (FindRow.selected query filter))

/-- What the token of a path gives. -/
def resumeAt (path : String) : Option String :=
  if QueryCursor.keptKey path = "" then none else some (QueryCursor.keptKey path)

/-- The rows behind a path are what is left of the sorted rows. -/
lemma rows_behind (key : String) :
    orderBy FindRow.sortKey ((findRows c gid).filter fun r =>
        r.selected query filter = true ∧ (key = "" ∨ key < r.file.canonicalPath)) =
      Paging.remaining (fun r : FindRow => r.file.canonicalPath) (selectedRows c gid query filter)
        (if key = "" then none else some key) := by
  rw [selectedRows, Paging.remaining, filter_orderBy, List.filter_filter]
  refine congrArg _ (List.filter_congr fun r _ => ?_)
  by_cases hkey : key = ""
  · simp [hkey]
  · simp [hkey, Bool.and_comm]

/-- A page of rows, whether the limit wraps around or not. -/
lemma page_eq {limit : Int64} (hpos : 0 < limit) (rows : List FindRow) :
    (limit.toInt < (sqlLimit (limit + 1) rows).length ↔ limit.toNatClampNeg < rows.length) ∧
      (if limit.toInt < (sqlLimit (limit + 1) rows).length then
        (sqlLimit (limit + 1) rows).take limit.toUInt64.toNat else sqlLimit (limit + 1) rows) =
        rows.take limit.toNatClampNeg := by
  have hint : 0 < limit.toInt := by simpa [Int64.lt_iff_toInt_lt] using hpos
  have hmax := limit.toInt_lt
  have hclamp : (limit.toNatClampNeg : ℤ) = limit.toInt := Int.toNat_of_nonneg hint.le
  have husize : limit.toUInt64.toNat = limit.toNatClampNeg :=
    Int64.toNat_toBitVec_of_le (Int64.le_of_lt hpos)
  have hsucc : (limit + 1).toInt = (limit.toInt + 1).bmod (2 ^ 64) := by
    rw [Int64.toInt_add]
    rfl
  by_cases hlast : limit.toInt = 2 ^ 63 - 1
  · -- the limit wraps around to a negative one
    have hneg : limit + 1 < 0 := by
      rw [Int64.lt_iff_toInt_lt, hsucc, hlast]
      decide
    rw [sqlLimit, if_pos hneg, husize]
    refine ⟨by omega, ?_⟩
    split
    · rfl
    · exact (List.take_of_length_le (by omega)).symm
  · have hplus : (limit + 1).toInt = limit.toInt + 1 := by
      rw [hsucc, Int.bmod_eq_of_le (by omega) (by omega)]
    have hnonneg : ¬ limit + 1 < 0 := by
      rw [Int64.lt_iff_toInt_lt, hplus]
      have hzero : (0 : Int64).toInt = 0 := rfl
      omega
    have hlimit : (limit + 1).toNatClampNeg = limit.toNatClampNeg + 1 := by
      have hclamp' : ((limit + 1).toNatClampNeg : ℤ) = (limit + 1).toInt :=
        Int.toNat_of_nonneg (by omega)
      omega
    rw [sqlLimit, if_neg hnonneg, hlimit, husize, List.length_take]
    refine ⟨by omega, ?_⟩
    split
    · rw [List.take_take, Nat.min_eq_left (by omega)]
    · rw [List.take_of_length_le (by omega), List.take_of_length_le (by omega)]

/-- The token that a page gives for its last path. -/
def token (H : Hasher) (D : DebugFormat) (ws gid query : String) (filter : FindFilter)
    (path : String) : String :=
  QueryCursor.encode ⟨ws, gid, findQueryHash H D query filter, findOrderingVersion, path⟩

/-- Where a token goes on, as the rows that are left are counted. -/
def after (H : Hasher) (D : DebugFormat) (ws gid query : String) (filter : FindFilter) :
    Option String :=
  if findResumeKey H D ws gid query filter = "" then none
  else some (findResumeKey H D ws gid query filter)

/-- A call gives a page of the selected rows. -/
lemma findFiltered_eq (hactive : activeGeneration? c ws = some gid) {limit : Int64}
    (hpos : 0 < limit) :
    (findFiltered H D c ws query limit filter).results =
        Paging.page (fun r : FindRow => r.file.canonicalPath)
          (selectedRows c gid query filter) (after H D ws gid query filter) limit.toNatClampNeg ∧
      (findFiltered H D c ws query limit filter).nextCursor =
        (Paging.next (fun r : FindRow => r.file.canonicalPath) (selectedRows c gid query filter)
          (after H D ws gid query filter) limit.toNatClampNeg).map
            (token H D ws gid query filter) := by
  have hrows : orderBy FindRow.sortKey ((findRows c gid).filter fun r =>
      r.selected query filter = true ∧ (findResumeKey H D ws gid query filter = "" ∨
        findResumeKey H D ws gid query filter < r.file.canonicalPath)) =
      Paging.remaining (fun r : FindRow => r.file.canonicalPath) (selectedRows c gid query filter)
        (after H D ws gid query filter) := rows_behind _
  obtain ⟨hlt, hpage⟩ := page_eq hpos (Paging.remaining
    (fun r : FindRow => r.file.canonicalPath) (selectedRows c gid query filter)
    (after H D ws gid query filter))
  rw [findFiltered, hactive]
  dsimp only
  rw [hrows]
  simp only [decide_eq_true_eq]
  refine ⟨hpage, ?_⟩
  rw [Paging.next]
  by_cases hmore : limit.toNatClampNeg < (Paging.remaining
      (fun r : FindRow => r.file.canonicalPath) (selectedRows c gid query filter)
      (after H D ws gid query filter)).length
  · have hcut := hlt.mpr hmore
    rw [if_pos hcut] at hpage
    rw [if_pos hmore, Paging.page, Option.map_map, ← hpage]
    exact (if_pos hcut).trans (by rw [if_pos hcut]; rfl)
  · rw [if_neg hmore]
    exact if_neg fun hcut => hmore (hlt.mp hcut)

/-- A token of the query itself gives its path back, as far as a token keeps it. -/
lemma after_token (hws : '\x1f' ∉ ws.toList) (hgid : '\x1f' ∉ gid.toList) (path : String) :
    after H D ws gid query { filter with cursor := some (token H D ws gid query filter path) } =
      resumeAt path := by
  have hdecode := @QueryCursor.decode_encode
    ⟨ws, gid, findQueryHash H D query filter, findOrderingVersion, path⟩ hws hgid
    (separator_notMem_toHex _)
    (show '\x1f' ∉ findOrderingVersion.toList by decide)
  have hkey : findResumeKey H D ws gid query
      { filter with cursor := some (token H D ws gid query filter path) } =
        QueryCursor.keptKey path := by
    rw [findResumeKey]
    simp only [Option.bind_some, token, hdecode]
    rw [Option.filter_some, if_pos (by simp [QueryCursor.isValidFor, findQueryHash, findQueryText])]
    rfl
  rw [after, hkey, resumeAt]

/-- Following the tokens collects the pages. -/
lemma followCursors_eq (h : Searchable c ws gid) {limits : List Int64}
    (hpos : ∀ limit ∈ limits, 0 < limit) (cursor : Option String) :
    followCursors (fun limit cursor =>
        findFiltered H D c ws query limit { filter with cursor := cursor }) limits cursor =
      Paging.collect (fun r : FindRow => r.file.canonicalPath) (selectedRows c gid query filter)
        resumeAt (limits.map Int64.toNatClampNeg)
        (after H D ws gid query { filter with cursor := cursor }) := by
  induction limits generalizing cursor with
  | nil => rfl
  | cons limit limits ih =>
    have hlimit := hpos limit List.mem_cons_self
    obtain ⟨hresults, hnext⟩ := @findFiltered_eq H D c ws gid query
      { filter with cursor := cursor } h.active limit hlimit
    have hselected : selectedRows c gid query { filter with cursor := cursor } =
        selectedRows c gid query filter := rfl
    rw [hselected] at hresults hnext
    rw [followCursors, List.map_cons, Paging.collect, hnext, hresults]
    cases Paging.next (fun r : FindRow => r.file.canonicalPath) (selectedRows c gid query filter)
      (after H D ws gid query { filter with cursor := cursor }) limit.toNatClampNeg with
    | none => rfl
    | some path =>
      show Option.map _ _ = Option.map _ _
      have htoken : token H D ws gid query { filter with cursor := cursor } path =
          token H D ws gid query filter path := rfl
      rw [htoken, ih (fun l hl => hpos l (List.mem_cons_of_mem _ hl)),
        after_token h.workspace_plain h.generation_plain]

/-! ## The rows and what is to be found -/

/-- A row is a symbol fact of a file with the rows that it refers to. -/
lemma mem_findRows (h : Searchable c ws gid) : ∃ w, ∀ r, r ∈ findRows c gid ↔
    (∃ gf, Entry c gid gf r.symbol ∧ r.file = c.currentFileRow w gf) ∧
      (r.revision ∈ c.fileRevision ∧ r.revision.revisionId = r.symbol.revisionId) ∧
      r.run ∈ c.facts.extractorRun ∧ r.run.extractorRunId = r.symbol.extractorRunId := by
  obtain ⟨w, hw⟩ := Catalogue.currentFileOf_eq h.active h.only h.committed
  refine ⟨w, fun r => ?_⟩
  simp only [findRows, Catalogue.currentSymbols, hw, List.mem_map, Prod.exists, mem_join,
    List.mem_filter, decide_eq_true_eq]
  constructor
  · rintro ⟨cf, sf, fr, er, ⟨⟨⟨⟨gf, ⟨hgf, hgid⟩, rfl⟩, hsf, hrev⟩, hfr, hid⟩, her, hrun⟩, rfl⟩
    have hrid : fr.revisionId = sf.revisionId := Option.some.inj (hid.symm.trans hrev)
    exact ⟨⟨gf, ⟨hgf, hgid, hrev, hsf⟩, rfl⟩, ⟨hfr, hrid⟩, her, hrun⟩
  · rintro ⟨⟨gf, hentry, hfile⟩, ⟨hfr, hrid⟩, her, hrun⟩
    have hrev : r.file.revisionId = some r.symbol.revisionId := hfile ▸ hentry.revision_eq
    exact ⟨r.file, r.symbol, r.revision, r.run, ⟨⟨⟨⟨gf, ⟨hentry.file_mem, hentry.generation_eq⟩,
      hfile.symm⟩, hentry.fact_mem, hrev⟩, hfr, hrid ▸ hrev⟩, her, hrun⟩, rfl⟩

/-- The places of the rows are the symbol facts of the files. -/
lemma mem_place (h : Searchable c ws gid) : (path, f) ∈ (findRows c gid).map place ↔
    ∃ gf, Entry c gid gf f ∧ gf.canonicalPath = path := by
  obtain ⟨w, hw⟩ := mem_findRows h
  rw [List.mem_map]
  constructor
  · rintro ⟨r, hr, heq⟩
    obtain ⟨rfl, rfl⟩ := Prod.mk.inj heq
    obtain ⟨⟨gf, hentry, hfile⟩, -⟩ := (hw r).mp hr
    exact ⟨gf, hentry, by rw [hfile]; rfl⟩
  · rintro ⟨gf, hentry, rfl⟩
    obtain ⟨fr, hfr, hrid⟩ := h.revision_stored gf hentry.file_mem _ hentry.revision_eq
    obtain ⟨er, her, hrun⟩ := h.symbol_runs f hentry.fact_mem
    exact ⟨⟨c.currentFileRow w gf, f, fr, er⟩,
      (hw _).mpr ⟨⟨gf, hentry, rfl⟩, ⟨hfr, hrid⟩, her, hrun⟩, rfl⟩

/-- A place is the place of a single row. -/
lemma place_injective (h : Searchable c ws gid) {r r' : FindRow} (hr : r ∈ findRows c gid)
    (hr' : r' ∈ findRows c gid) (heq : place r = place r') : r = r' := by
  obtain ⟨w, hw⟩ := mem_findRows h
  obtain ⟨⟨gf, hentry, hfile⟩, ⟨hfr, hrid⟩, her, hrun⟩ := (hw r).mp hr
  obtain ⟨⟨gf', hentry', hfile'⟩, ⟨hfr', hrid'⟩, her', hrun'⟩ := (hw r').mp hr'
  obtain ⟨hpath, hsymbol⟩ := Prod.mk.inj heq
  have hpath : gf.canonicalPath = gf'.canonicalPath := by
    rw [hfile, hfile'] at hpath
    exact hpath
  obtain rfl : gf = gf' := Table.eq_of_clash hentry.file_mem hentry'.file_mem
    ⟨hentry.generation_eq.trans hentry'.generation_eq.symm, Or.inr hpath⟩
  have hrevision : r.revision = r'.revision := Table.eq_of_clash hfr hfr'
    (Or.inl (by rw [hrid, hrid', hsymbol]))
  have hruns : r.run = r'.run := Table.eq_of_clash her her'
    (Or.inl (by rw [hrun, hrun', hsymbol]))
  cases r
  cases r'
  simp_all

lemma nodup_selectedRows (h : Searchable c ws gid) :
    (selectedRows c gid query filter).Nodup ∧
      ((selectedRows c gid query filter).map place).Nodup := by
  obtain ⟨w, hw⟩ := Catalogue.currentFileOf_eq h.active h.only h.committed
  have hfiles : (c.currentFileOf gid).Nodup := by
    rw [hw]
    refine (c.generationFile.nodup_rows.filter _).map_on ?_
    intro gf hgf gf' hgf' heq
    obtain ⟨hmem, hgid⟩ := List.mem_filter.mp hgf
    obtain ⟨hmem', hgid'⟩ := List.mem_filter.mp hgf'
    rw [decide_eq_true_eq] at hgid hgid'
    exact Table.eq_of_clash hmem hmem' ⟨hgid.trans hgid'.symm,
      Or.inl (congrArg CurrentFile.fileId heq)⟩
  have hrows : (findRows c gid).Nodup := by
    refine List.Nodup.map_on ?_ (nodup_join (nodup_join (nodup_join hfiles
      c.facts.symbolFact.nodup_rows) c.fileRevision.nodup_rows) c.facts.extractorRun.nodup_rows)
    rintro ⟨⟨⟨cf, sf⟩, fr⟩, er⟩ - ⟨⟨⟨cf', sf'⟩, fr'⟩, er'⟩ - heq
    simp_all
  have hselected : (selectedRows c gid query filter).Nodup :=
    perm_orderBy.nodup_iff.mpr (hrows.filter _)
  refine ⟨hselected, hselected.map_on fun r hr r' hr' heq => ?_⟩
  exact place_injective h (List.mem_of_mem_filter (mem_orderBy.mp hr))
    (List.mem_of_mem_filter (mem_orderBy.mp hr')) heq

lemma mem_place_selectedRows (h : Searchable c ws gid) :
    (path, f) ∈ (selectedRows c gid query filter).map place ↔
      ∃ gf, Entry c gid gf f ∧ gf.canonicalPath = path ∧
        patternsMatch query filter path f.displayName = true ∧
          filter.minConfidence.getD 0 ≤ f.confidence := by
  constructor
  · rw [List.mem_map]
    rintro ⟨r, hr, heq⟩
    obtain ⟨hrow, hsel⟩ := List.mem_filter.mp (mem_orderBy.mp hr)
    have hmem : place r ∈ (findRows c gid).map place := List.mem_map_of_mem hrow
    obtain ⟨gf, hentry, hpath⟩ := (mem_place h).mp (heq ▸ hmem)
    obtain ⟨rfl, rfl⟩ := Prod.mk.inj heq
    exact ⟨gf, hentry, hpath, of_decide_eq_true hsel⟩
  · rintro ⟨gf, hentry, hpath, hsel⟩
    obtain ⟨r, hr, heq⟩ := List.mem_map.mp ((mem_place h).mpr ⟨gf, hentry, hpath⟩)
    refine List.mem_map.mpr ⟨r, mem_orderBy.mpr (List.mem_filter.mpr ⟨hr, ?_⟩), heq⟩
    obtain ⟨rfl, rfl⟩ := Prod.mk.inj heq
    exact decide_eq_true hsel

lemma sorted_selectedRows :
    ((selectedRows c gid query filter).Pairwise fun a b => a.sortKey ≤ b.sortKey) ∧
      (selectedRows c gid query filter).Pairwise fun a b =>
        a.file.canonicalPath ≤ b.file.canonicalPath := by
  have hsorted : (selectedRows c gid query filter).Pairwise fun a b => a.sortKey ≤ b.sortKey :=
    pairwise_orderBy
  refine ⟨hsorted, hsorted.imp fun {a b} hab => ?_⟩
  rcases Prod.Lex.le_iff.mp hab with hlt | ⟨heq, -⟩
  · exact le_of_lt hlt
  · exact heq.le

/-! ## Tokens of keys -/

lemma resumeAt_le {key key' : String} (h : resumeAt key = some key') : key' ≤ key := by
  rw [resumeAt] at h
  split at h
  · exact absurd h (by simp)
  · exact Option.some.inj h ▸ QueryCursor.keptKey_le key

lemma resumeAt_eq_iff {key : String} :
    resumeAt key = some key ↔ key ≠ "" ∧ '\x1f' ∉ key.toList := by
  rw [resumeAt, ← QueryCursor.keptKey_eq_iff]
  by_cases hkey : QueryCursor.keptKey key = ""
  · rw [if_pos hkey, hkey]
    simp only [reduceCtorEq, false_iff, not_and]
    exact fun hne heq => hne heq.symm
  · rw [if_neg hkey, Option.some.injEq]
    exact ⟨fun heq => ⟨heq ▸ hkey, heq⟩, And.right⟩

/-! ## Foreign tokens -/

lemma findQueryText_injective (hD : D.Lawful) {query' : String} {filter' : FindFilter}
    (heq : findQueryText D query' filter' = findQueryText D query filter) :
    toAsciiLowercase query'.toList = toAsciiLowercase query.toList ∧
      filter'.pathPrefix = filter.pathPrefix ∧ filter'.minConfidence = filter.minConfidence := by
  have hpath : ∀ o, '\x1f' ∉ (DebugFormat.debugOption D.debugStr o).reverse := fun o h =>
    DebugFormat.notMem_debugOption (DebugFormat.notMem_debugStr hD) o (List.mem_reverse.mp h)
  have hconfidence : ∀ o, '\x1f' ∉ (DebugFormat.debugOption D.float o).reverse := fun o h =>
    DebugFormat.notMem_debugOption hD.float_notMem o (List.mem_reverse.mp h)
  -- the query may have a separator in it, so the text is read from its end
  have hreverse := congrArg List.reverse heq
  simp only [findQueryText, List.reverse_append, List.reverse_cons, List.append_assoc,
    List.singleton_append] at hreverse
  obtain ⟨hconf, hrest⟩ := append_sep_inj (hconfidence _) (hconfidence _) hreverse
  obtain ⟨hstart, hquery⟩ := append_sep_inj (hpath _) (hpath _) hrest
  exact ⟨List.reverse_injective hquery,
    DebugFormat.debugOption_injective DebugFormat.debugStr_injective
      (List.reverse_injective hstart),
    DebugFormat.debugOption_injective hD.float_injective (List.reverse_injective hconf)⟩

lemma findQueryHash_injective (hH : H.Injective) (hD : D.Lawful) {query' : String}
    {filter' : FindFilter} (heq : findQueryHash H D query' filter' = findQueryHash H D query filter) :
    toAsciiLowercase query'.toList = toAsciiLowercase query.toList ∧
      filter'.pathPrefix = filter.pathPrefix ∧ filter'.minConfidence = filter.minConfidence := by
  have htext := utf8_injective (hH.sha256 (toHex_injective heq))
  exact findQueryText_injective hD (by simpa using congrArg String.toList htext)

/-- Every token is one of its workspace, its generation and its query. -/
lemma exists_of_nextCursor (hactive : activeGeneration? c ws = some gid) {limit : Int64}
    {t : String} (h : (findFiltered H D c ws query limit filter).nextCursor = some t) :
    ∃ path, t = token H D ws gid query filter path := by
  rw [findFiltered, hactive] at h
  dsimp only at h
  split at h
  · obtain ⟨r, -, rfl⟩ := Option.map_eq_some_iff.mp h
    exact ⟨r.file.canonicalPath, rfl⟩
  · exact absurd h (by simp)

theorem ignoresForeign (hH : H.Injective) (hD : D.Lawful)
    (hactive : activeGeneration? c ws = some gid) : IgnoresForeign H D c ws gid query filter := by
  intro c' ws' gid' query' limit' filter' t hactive' hws' hgid' htoken hforeign limit
  obtain ⟨path, rfl⟩ := exists_of_nextCursor hactive' htoken
  have hdecode := @QueryCursor.decode_encode
    ⟨ws', gid', findQueryHash H D query' filter', findOrderingVersion, path⟩ hws' hgid'
    (separator_notMem_toHex _) (show '\x1f' ∉ findOrderingVersion.toList by decide)
  have hnone : Option.filter (fun c : QueryCursor =>
      c.isValidFor ws gid (findQueryHash H D query filter) findOrderingVersion)
      (some ⟨ws', gid', findQueryHash H D query' filter', findOrderingVersion,
        QueryCursor.keptKey path⟩) = none := by
    rw [Option.filter_some, if_neg]
    intro hvalid
    obtain ⟨rfl, rfl, hhash, -⟩ := of_decide_eq_true hvalid
    obtain ⟨hquery, hstart, hconfidence⟩ := findQueryHash_injective hH hD hhash
    exact hforeign (by rw [hquery, hstart, hconfidence])
  have hkey : findResumeKey H D ws gid query
      { filter with cursor := some (token H D ws' gid' query' filter' path) } =
        findResumeKey H D ws gid query { filter with cursor := none } := by
    rw [findResumeKey, findResumeKey]
    simp only [Option.bind_some, token, hdecode]
    exact congrArg (fun o => (Option.map QueryCursor.lastSortKey o).getD "") hnone
  rw [findFiltered, findFiltered, hactive]
  dsimp only
  rw [hkey]
  rfl

/-! ## When the pages are exact -/

lemma lists_iff (h : Searchable c ws gid) :
    Lists c gid query filter (selectedRows c gid query filter) ↔
      ∀ gf f, Entry c gid gf f → filter.minConfidence.getD 0 ≤ f.confidence →
        (patternsMatch query filter gf.canonicalPath f.displayName = true ↔
          gf.presenceState = .present ∧
            TextMatches query filter gf.canonicalPath f.displayName) := by
  constructor
  · intro hlists gf f hentry hconf
    have hmem := hlists.mem_iff gf.canonicalPath f
    rw [mem_place_selectedRows h] at hmem
    constructor
    · intro hmatch
      obtain ⟨gf', hentry', hpath, hpresent, htext, -⟩ :=
        hmem.mp ⟨gf, hentry, rfl, hmatch, hconf⟩
      obtain rfl : gf' = gf := Table.eq_of_clash hentry'.file_mem hentry.file_mem
        ⟨hentry'.generation_eq.trans hentry.generation_eq.symm, Or.inr hpath⟩
      exact ⟨hpresent, htext⟩
    · rintro ⟨hpresent, htext⟩
      obtain ⟨gf', -, -, hmatch, -⟩ := hmem.mpr ⟨gf, hentry, rfl, hpresent, htext, hconf⟩
      exact hmatch
  · intro hliteral
    refine ⟨(nodup_selectedRows h).2, fun path f => ?_, sorted_selectedRows.1⟩
    rw [mem_place_selectedRows h]
    constructor
    · rintro ⟨gf, hentry, rfl, hmatch, hconf⟩
      obtain ⟨hpresent, htext⟩ := (hliteral gf f hentry hconf).mp hmatch
      exact ⟨gf, hentry, rfl, hpresent, htext, hconf⟩
    · rintro ⟨gf, hentry, rfl, hpresent, htext, hconf⟩
      exact ⟨gf, hentry, rfl, (hliteral gf f hentry hconf).mpr ⟨hpresent, htext⟩, hconf⟩

/-- The pages are those of the selected rows. -/
lemma collect_of_limits (h : Searchable c ws gid) {limits : ℕ → Int64}
    (hpos : ∀ i, 0 < limits i) (n : ℕ) :
    followCursors (fun limit cursor =>
        findFiltered H D c ws query limit { filter with cursor := cursor })
      ((List.range n).map limits) none =
    Paging.collect (fun r : FindRow => r.file.canonicalPath) (selectedRows c gid query filter)
      resumeAt ((List.range n).map fun i => (limits i).toNatClampNeg) none := by
  have hall : ∀ limit ∈ (List.range n).map limits, 0 < limit := by
    intro limit hlimit
    obtain ⟨i, -, rfl⟩ := List.mem_map.mp hlimit
    exact hpos i
  rw [followCursors_eq h hall, List.map_map]
  rfl

theorem pagesExactly_iff (h : Searchable c ws gid) :
    PagesExactly H D c ws gid query filter ↔ Pageable c gid query filter := by
  have hone : ∀ n, (List.range n).map (fun _ => (1 : Int64).toNatClampNeg) =
      List.replicate n 1 := fun n => by
    rw [List.map_const', List.length_range]
    rfl
  obtain ⟨hsorted, hpaths⟩ := @sorted_selectedRows c gid query filter
  obtain ⟨hnodup, -⟩ := @nodup_selectedRows c ws gid query filter h
  constructor
  · intro hexact
    -- a page that is large enough shows what the rows are
    have hwhole : Lists c gid query filter (selectedRows c gid query filter) := by
      obtain ⟨n, rows, hcollect, hlists⟩ := hexact (fun _ => Int64.maxValue) fun _ => by decide
      rw [collect_of_limits h fun _ => by decide] at hcollect
      cases n with
      | zero => exact absurd hcollect (by simp [Paging.collect])
      | succ n =>
        have hfit : (selectedRows c gid query filter).length ≤ Int64.maxValue.toNatClampNeg := by
          have hlt := h.rows_fit
          have hle : (selectedRows c gid query filter).length ≤ (findRows c gid).length :=
            perm_orderBy.length_eq.trans_le (List.length_filter_le _ _)
          have hmax : Int64.maxValue.toNatClampNeg = 2 ^ 63 - 1 := by decide
          omega
        rw [List.range_succ_eq_map, List.map_cons, Paging.collect_whole hfit] at hcollect
        exact Option.some.inj hcollect ▸ hlists
    -- pages of one row show the rest
    obtain ⟨n, rows, hcollect, hlists⟩ := hexact (fun _ => 1) fun _ => by decide
    rw [collect_of_limits h fun _ => by decide, hone] at hcollect
    have hrow : ∀ path f, Wanted c gid query filter path f →
        ∃ r ∈ rows, place r = (path, f) := fun path f hwanted =>
      List.mem_map.mp ((hlists.mem_iff path f).mpr hwanted)
    have hsub := Paging.mem_rows_of_collect hcollect
    have hall : ∀ r ∈ selectedRows c gid query filter, r ∈ rows := by
      intro r hr
      obtain ⟨r', hr', heq⟩ := hrow r.file.canonicalPath r.symbol
        ((hwhole.mem_iff _ _).mp (List.mem_map_of_mem hr))
      obtain rfl := List.inj_on_of_nodup_map hwhole.nodup (hsub r' hr') hr heq
      exact hr'
    have hinj := Paging.key_injective_of_collect hnodup
      hcollect hall
    refine ⟨(lists_iff h).mp hwhole, ?_, ?_⟩
    · intro path f f' hf hf'
      obtain ⟨r, hr, heq⟩ := hrow path f hf
      obtain ⟨r', hr', heq'⟩ := hrow path f' hf'
      obtain ⟨hpath, rfl⟩ := Prod.mk.inj heq
      obtain ⟨hpath', rfl⟩ := Prod.mk.inj heq'
      rw [hinj r (hsub r hr) r' (hsub r' hr') (hpath.trans hpath'.symm)]
    · intro path f path' f' hf hf' hlt
      obtain ⟨r, hr, heq⟩ := hrow path f hf
      obtain ⟨r', hr', heq'⟩ := hrow path' f' hf'
      obtain ⟨rfl, -⟩ := Prod.mk.inj heq
      obtain ⟨rfl, -⟩ := Prod.mk.inj heq'
      exact resumeAt_eq_iff.mp (Paging.resume_of_collect hpaths (fun _ _ => resumeAt_le) hinj
        hcollect hlists.nodup.of_map r hr r' (hsub r' hr') hlt)
  · rintro ⟨hliteral, hsingle, hplain⟩ limits hpos
    have hlists := (lists_iff h).mpr hliteral
    have hwanted : ∀ r ∈ selectedRows c gid query filter,
        Wanted c gid query filter r.file.canonicalPath r.symbol := fun r hr =>
      (hlists.mem_iff _ _).mp (List.mem_map_of_mem hr)
    have hstrict : (selectedRows c gid query filter).Pairwise fun a b =>
        a.file.canonicalPath < b.file.canonicalPath := by
      refine (hpaths.and hnodup).imp_of_mem fun {a b} ha hb hab => ?_
      refine lt_of_le_of_ne hab.1 fun heq => hab.2 ?_
      refine List.inj_on_of_nodup_map hlists.nodup ha hb (Prod.ext heq ?_)
      exact hsingle _ _ _ (hwanted a ha) (heq ▸ hwanted b hb)
    have hpos' : ∀ i, 0 < (limits i).toNatClampNeg := by
      intro i
      have hint : 0 < (limits i).toInt := by simpa [Int64.lt_iff_toInt_lt] using hpos i
      exact Int.lt_toNat.mpr hint
    obtain ⟨n, hn⟩ := Paging.collect_all hstrict (fun r hr r' hr' hlt =>
      resumeAt_eq_iff.mpr (hplain _ _ _ _ (hwanted r hr) (hwanted r' hr') hlt)) hpos'
    exact ⟨n, _, (collect_of_limits h hpos n).trans hn, hlists⟩

end Lemmas

/-- The pages have what is to be found, each once and in order, and a foreign token changes
nothing, exactly when the rows are `Pageable`. -/
theorem exact_iff_pageable (H : Hasher) (D : DebugFormat) (hH : H.Injective) (hD : D.Lawful)
    (c : Catalogue) (ws gid query : String) (filter : FindFilter) (h : Searchable c ws gid) :
    PagesExactly H D c ws gid query filter ∧ IgnoresForeign H D c ws gid query filter ↔
      Pageable c gid query filter :=
  ⟨fun hexact => (pagesExactly_iff h).mp hexact.1,
    fun hpageable => ⟨(pagesExactly_iff h).mpr hpageable, ignoresForeign hH hD h.active⟩⟩

/-! ## Two symbols of one file -/

/-- The file `a` defines two symbols. -/
def twoSymbols : Catalogue :=
  { oneFile with
    facts :=
      { oneFile.facts with
        symbolFact := oneFile.facts.symbolFact.insertOrIgnore
          ⟨"sf'", "e", "r", "scip:t", some "t", "function", "sum", "sum", none, 1, 2, 2, 1, 2, 2,
            .semantic, 1, "scip_definition", []⟩ } }

/-- Every symbol. -/
def everySymbol : FindFilter := ⟨none, none, none⟩

lemma twoSymbols_searchable : Searchable twoSymbols "ws" "g" where
  active := by decide
  only := by
    have hall : ∀ w ∈ twoSymbols.workspace.rows,
        w.activeGenerationId = some "g" → w.workspaceId = "ws" := by decide
    exact hall
  committed := by
    have hex : ∃ g ∈ twoSymbols.indexGeneration.rows,
        g.generationId = "g" ∧ g.state = .committed := by decide
    exact hex
  revision_stored gf hgf rid hrid := by
    have hall : ∀ gf ∈ twoSymbols.generationFile.rows, ∃ fr ∈ twoSymbols.fileRevision.rows,
        gf.revisionId = some fr.revisionId := by decide
    obtain ⟨fr, hfr, heq⟩ := hall gf hgf
    exact ⟨fr, hfr, Option.some.inj (heq.symm.trans hrid)⟩
  symbol_runs := by
    have hall : ∀ sf ∈ twoSymbols.facts.symbolFact.rows,
        ∃ er ∈ twoSymbols.facts.extractorRun.rows, er.extractorRunId = sf.extractorRunId := by
      decide
    exact hall
  workspace_plain := by decide
  generation_plain := by decide
  rows_fit := by decide

theorem exact_iff_pageable_twoSymbols :
    PagesExactly Hasher.plain DebugFormat.plain twoSymbols "ws" "g" "s" everySymbol ∧
        IgnoresForeign Hasher.plain DebugFormat.plain twoSymbols "ws" "g" "s" everySymbol ↔
      Pageable twoSymbols "g" "s" everySymbol :=
  exact_iff_pageable Hasher.plain DebugFormat.plain Hasher.plain_injective DebugFormat.plain_lawful
    twoSymbols "ws" "g" "s" everySymbol twoSymbols_searchable

/-- Both symbols are to be found, and pages of one row show only the first. -/
theorem twoSymbols_not_exact :
    (∃ f f', f ≠ f' ∧ Wanted twoSymbols "g" "s" everySymbol "a" f ∧
      Wanted twoSymbols "g" "s" everySymbol "a" f') ∧
      ¬ PagesExactly Hasher.plain DebugFormat.plain twoSymbols "ws" "g" "s" everySymbol := by
  have hwanted : ∀ f ∈ twoSymbols.facts.symbolFact.rows,
      Wanted twoSymbols "g" "s" everySymbol "a" f := by
    have hall : ∀ f ∈ twoSymbols.facts.symbolFact.rows, ∃ gf ∈ twoSymbols.generationFile.rows,
        (gf.generationId = "g" ∧ gf.revisionId = some f.revisionId) ∧ gf.canonicalPath = "a" ∧
          gf.presenceState = .present ∧
            (toAsciiLowercase "s".toList <:+: toAsciiLowercase f.displayName.toList ∧
              (0 : ℚ) ≤ f.confidence) := by
      decide
    intro f hf
    obtain ⟨gf, hgf, ⟨hgid, hrev⟩, hpath, hpresent, hname, hconf⟩ := hall f hf
    exact ⟨gf, ⟨hgf, hgid, hrev, hf⟩, hpath, hpresent, ⟨hname, by simp [everySymbol]⟩, hconf⟩
  obtain ⟨f, hf, f', hf', hne⟩ : ∃ f ∈ twoSymbols.facts.symbolFact.rows,
      ∃ f' ∈ twoSymbols.facts.symbolFact.rows, f ≠ f' := by
    decide
  refine ⟨⟨f, f', hne, hwanted f hf, hwanted f' hf'⟩, fun hexact => hne ?_⟩
  exact ((pagesExactly_iff twoSymbols_searchable).mp hexact).single "a" f f' (hwanted f hf)
    (hwanted f' hf')

end Find

end WorkspaceAtlas
