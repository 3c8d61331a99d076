/-
# The digest of a mapped document

`scip_mapping::document_normalized_digest`: the digest that decides whether the facts of a
document are stored anew.  It is taken of the path, the name of the encoding, and the rows of
the symbols and relationships, each sorted.  Rows that the sort cannot tell apart are the same,
so the order of the lists does not matter; but a relationship's row leaves out the symbol it
starts from, and the encodings that have no name share one.
-/
import Mathlib.Data.Prod.Lex
import Mathlib.Data.String.Basic
import WorkspaceAtlas.Relational.Query
import WorkspaceAtlas.Semantic.Scip

namespace WorkspaceAtlas

open Relational Text

/-! ## The digest -/

/-- `relationship_type`. -/
def ScipRelationship.asStr : ScipRelationship → String
  | imports => "IMPORTS"
  | references => "REFERENCES"
  | calls => "CALLS"
  | implements => "IMPLEMENTS"
  | typeDefinition => "TYPE_DEFINITION"
  | definedBy => "DEFINED_BY"

/-- `PositionEncoding::as_str`. -/
def PositionEncoding.asStr : PositionEncoding → String
  | unspecified => "unspecified"
  | utf8 => "utf8"
  | utf16 => "utf16"
  | utf32 => "utf32"
  | unknown _ => "unknown"

/-- `SymRow`. -/
structure SymRow where
  k : String
  p : String
  sl : ℤ
  sc : ℤ
  el : ℤ
  ec : ℤ
  deriving DecidableEq, Repr

/-- `RelRow`. -/
structure RelRow where
  t : String
  sl : ℤ
  sc : ℤ
  el : ℤ
  ec : ℤ
  tk : String
  tv : String
  r : String
  deriving DecidableEq, Repr

/-- What the rows of the symbols are sorted by. -/
def SymRow.sortKey (row : SymRow) : String ×ₗ ℤ ×ₗ ℤ ×ₗ ℤ ×ₗ ℤ :=
  toLex (row.k, toLex (row.sl, toLex (row.sc, toLex (row.el, row.ec))))

/-- What the rows of the relationships are sorted by. -/
def RelRow.sortKey (row : RelRow) : String ×ₗ ℤ ×ₗ ℤ ×ₗ ℤ ×ₗ ℤ ×ₗ String :=
  toLex (row.t, toLex (row.sl, toLex (row.sc, toLex (row.el, toLex (row.ec, row.tv)))))

/-- A row as JSON. -/
def SymRow.json (row : SymRow) : Json :=
  .obj [("ec", .num row.ec), ("el", .num row.el), ("k", .str row.k), ("p", .str row.p),
    ("sc", .num row.sc), ("sl", .num row.sl)]

/-- A row as JSON. -/
def RelRow.json (row : RelRow) : Json :=
  .obj [("ec", .num row.ec), ("el", .num row.el), ("r", .str row.r), ("sc", .num row.sc),
    ("sl", .num row.sl), ("t", .str row.t), ("tk", .str row.tk), ("tv", .str row.tv)]

/-- The row of a symbol. -/
def MappedSymbol.digestRow (s : MappedSymbol) : SymRow :=
  ⟨s.canonicalSymbolKey, s.providerSymbolId, s.startLine, s.startColumn, s.endLine, s.endColumn⟩

/-- The row of a relationship. -/
def MappedRelationship.digestRow (r : MappedRelationship) : RelRow where
  t := r.relationshipType.asStr
  sl := r.sourceStartLine
  sc := r.sourceStartColumn
  el := r.sourceEndLine
  ec := r.sourceEndColumn
  tk := match r.targetRefKind with
    | .symbol => "symbol"
    | .externalSymbol => "external_symbol"
  tv := r.targetRefValue
  r := r.reasonCode

/-- `document_normalized_digest`. -/
def documentNormalizedDigest (H : Hasher) (doc : MappedDocument) : String :=
  let symbols := orderBy SymRow.sortKey (doc.symbols.map MappedSymbol.digestRow)
  let relationships :=
    orderBy RelRow.sortKey (doc.relationships.map MappedRelationship.digestRow)
  contentHashOfBytes H (canonicalJsonBytes (.arr [.str doc.canonicalPath,
    .str doc.positionEncoding.asStr, .arr (symbols.map SymRow.json),
    .arr (relationships.map RelRow.json)]))

namespace Digest

/-! ## The statement -/

/-- Two mapped documents with the same facts, in whatever order. -/
structure SameFacts (m m' : MappedDocument) : Prop where
  path_eq : m.canonicalPath = m'.canonicalPath
  encoding_eq : m.positionEncoding = m'.positionEncoding
  symbols_perm : List.Perm m.symbols m'.symbols
  relationships_perm : List.Perm m.relationships m'.relationships

/-- A relationship without the symbol it starts from. -/
def forgetSource (r : MappedRelationship) : MappedRelationship := { r with providerSymbolId := "" }

/-- Two mapped documents with the same facts, up to the symbols that the relationships start
from and the numbers of the encodings that have no name. -/
structure SameBlurred (m m' : MappedDocument) : Prop where
  path_eq : m.canonicalPath = m'.canonicalPath
  encoding_eq : m.positionEncoding.asStr = m'.positionEncoding.asStr
  symbols_perm : List.Perm m.symbols m'.symbols
  relationships_perm :
    List.Perm (m.relationships.map forgetSource) (m'.relationships.map forgetSource)

/-- Two mapped documents that do not differ only in these symbols and numbers. -/
def ToldApart (m m' : MappedDocument) : Prop :=
  SameBlurred m m' → m.positionEncoding = m'.positionEncoding ∧
    List.Perm m.relationships m'.relationships

section Lemmas

variable {H : Hasher} {defined : List String} {path : String} {m m' : MappedDocument}
  {confine confine' : String → Except AtlasError String} {doc doc' : ScipDocument}

/-! ## Rows as JSON -/

lemma symRow_json_injective : Function.Injective SymRow.json := by
  intro a b h
  cases a
  cases b
  simp only [SymRow.json, Json.obj.injEq, List.cons.injEq, Prod.mk.injEq, Json.num.injEq,
    Json.str.injEq, true_and, and_true] at h
  obtain ⟨rfl, rfl, rfl, rfl, rfl, rfl⟩ := h
  rfl

lemma relRow_json_injective : Function.Injective RelRow.json := by
  intro a b h
  cases a
  cases b
  simp only [RelRow.json, Json.obj.injEq, List.cons.injEq, Prod.mk.injEq, Json.num.injEq,
    Json.str.injEq, true_and, and_true] at h
  obtain ⟨rfl, rfl, rfl, rfl, rfl, rfl, rfl, rfl⟩ := h
  rfl

/-! ## Rows and facts -/

/-- The key of a symbol gives the symbol back. -/
lemma canonicalSymbolKey_injective (path : String) :
    Function.Injective fun raw => canonicalSymbolKey raw path := by
  intro a b h
  have hlist := congrArg String.toList h
  have hscheme : ∀ r s : List Char, "scip:".toList ++ r ≠ "scip-local:".toList ++ s := by
    intro r s heq
    exact absurd (congrArg (fun l => l.take 5) heq) (by simp)
  simp only [canonicalSymbolKey] at hlist
  split at hlist <;> split at hlist
  · simp only [String.toList_append, List.append_assoc, List.append_cancel_left_eq] at hlist
    exact String.toList_inj.mp hlist
  · simp only [String.toList_append, List.append_assoc] at hlist
    exact absurd hlist.symm (hscheme _ _)
  · simp only [String.toList_append, List.append_assoc] at hlist
    exact absurd hlist (hscheme _ _)
  · simp only [String.toList_append, List.append_cancel_left_eq] at hlist
    exact String.toList_inj.mp hlist

/-- Symbols of one path are told apart by what their rows are sorted by. -/
lemma toSymbol_injective {a b : MappedSymbol}
    (ha : ∃ occ : ScipOccurrence, a = occ.toSymbol path)
    (hb : ∃ occ : ScipOccurrence, b = occ.toSymbol path)
    (h : a.digestRow.sortKey = b.digestRow.sortKey) : a = b := by
  obtain ⟨occ, rfl⟩ := ha
  obtain ⟨occ', rfl⟩ := hb
  simp only [SymRow.sortKey, MappedSymbol.digestRow, ScipOccurrence.toSymbol, toLex_inj,
    Prod.mk.injEq] at h
  obtain ⟨hkey, hsl, hsc, hel, hec⟩ := h
  have hsymbol : occ.symbol = occ'.symbol := canonicalSymbolKey_injective path hkey
  simp only [ScipOccurrence.toSymbol, hsymbol, hsl, hsc, hel, hec]

/-- So are relationships, up to the symbols that they start from. -/
lemma forgetSource_eq {a b : MappedRelationship} (ha : MappedAs defined path a)
    (hb : MappedAs defined path b) (h : a.digestRow.sortKey = b.digestRow.sortKey) :
    forgetSource a = forgetSource b := by
  have hnames : Function.Injective ScipRelationship.asStr := by
    intro k k' hk
    revert hk
    cases k <;> cases k' <;> decide
  simp only [RelRow.sortKey, MappedRelationship.digestRow, toLex_inj, Prod.mk.injEq] at h
  obtain ⟨htype, hsl, hsc, hel, hec, htarget⟩ := h
  have htype := hnames htype
  have hevidence := ha.evidence_eq
  rw [htype, ← hb.evidence_eq] at hevidence
  have hfrom := ha.mappedFrom
  have hfrom' := hb.mappedFrom
  have hpath := hfrom.path_eq.trans hfrom'.path_eq.symm
  have hkind : a.targetRefKind = b.targetRefKind := by
    rw [hfrom.kind_eq, hfrom'.kind_eq, htarget]
  obtain ⟨hconfidence, hreason⟩ := Prod.mk.inj hevidence
  simp only [forgetSource, htype, hpath, hsl, hsc, hel, hec, hkind, htarget, hconfidence, hreason]

/-! ## What the digest tells apart -/

/-- The sorted rows of the symbols are the same if the symbols are. -/
lemma symbols_rows_iff {l l' : List MappedSymbol}
    (hl : ∀ a ∈ l, ∃ occ : ScipOccurrence, a = occ.toSymbol path)
    (hl' : ∀ a ∈ l', ∃ occ : ScipOccurrence, a = occ.toSymbol path) :
    orderBy SymRow.sortKey (l.map MappedSymbol.digestRow) =
        orderBy SymRow.sortKey (l'.map MappedSymbol.digestRow) ↔ List.Perm l l' := by
  constructor
  · intro h
    have hrows := (perm_orderBy.symm.trans (List.Perm.of_eq h)).trans perm_orderBy
    exact perm_of_map_perm
      (fun a ha b hb hab => toSymbol_injective (hl a ha) (hl' b hb)
        (congrArg SymRow.sortKey hab)) hrows
  · intro h
    refine orderBy_eq_of_perm (h.map _) ?_
    intro a ha b hb hab
    obtain ⟨x, hx, rfl⟩ := List.mem_map.mp ha
    obtain ⟨y, hy, rfl⟩ := List.mem_map.mp hb
    rw [toSymbol_injective (hl x hx) (hl y hy) hab]

/-- The sorted rows of the relationships are the same if the relationships are, up to the
symbols that they start from. -/
lemma relationships_rows_iff {l l' : List MappedRelationship}
    (hl : ∀ r ∈ l, MappedAs defined path r) (hl' : ∀ r ∈ l', MappedAs defined path r) :
    orderBy RelRow.sortKey (l.map MappedRelationship.digestRow) =
        orderBy RelRow.sortKey (l'.map MappedRelationship.digestRow) ↔
      List.Perm (l.map forgetSource) (l'.map forgetSource) := by
  have hforget : ∀ l : List MappedRelationship, l.map MappedRelationship.digestRow =
      (l.map forgetSource).map MappedRelationship.digestRow := fun l => by
    rw [List.map_map]
    rfl
  have hinj : ∀ l l' : List MappedRelationship, (∀ r ∈ l, MappedAs defined path r) →
      (∀ r ∈ l', MappedAs defined path r) → ∀ a ∈ l.map forgetSource,
        ∀ b ∈ l'.map forgetSource, a.digestRow.sortKey = b.digestRow.sortKey → a = b := by
    intro l l' hl hl' a ha b hb hab
    obtain ⟨x, hx, rfl⟩ := List.mem_map.mp ha
    obtain ⟨y, hy, rfl⟩ := List.mem_map.mp hb
    exact forgetSource_eq (hl x hx) (hl' y hy) hab
  rw [hforget l, hforget l']
  constructor
  · intro h
    have hrows := (perm_orderBy.symm.trans (List.Perm.of_eq h)).trans perm_orderBy
    exact perm_of_map_perm
      (fun a ha b hb hab => hinj l l' hl hl' a ha b hb (congrArg RelRow.sortKey hab)) hrows
  · intro h
    refine orderBy_eq_of_perm (h.map _) ?_
    intro a ha b hb hab
    obtain ⟨x, hx, rfl⟩ := List.mem_map.mp ha
    obtain ⟨y, hy, rfl⟩ := List.mem_map.mp hb
    rw [hinj l l hl hl x hx y hy hab]

/-- The digest tells documents apart, up to what it leaves out. -/
lemma digest_eq_iff (hH : H.Injective) :
    documentNormalizedDigest H (mapDocument confine doc defined) =
        documentNormalizedDigest H (mapDocument confine' doc' defined) ↔
      SameBlurred (mapDocument confine doc defined) (mapDocument confine' doc' defined) := by
  generalize hm : mapDocument confine doc defined = m
  generalize hm' : mapDocument confine' doc' defined = m'
  have hsymbols : ∀ a ∈ m.symbols, ∃ occ : ScipOccurrence, a = occ.toSymbol m.canonicalPath :=
    fun a ha => hm ▸ mapDocument_toSymbol (hm ▸ ha)
  have hsymbols' : ∀ a ∈ m'.symbols,
      ∃ occ : ScipOccurrence, a = occ.toSymbol m'.canonicalPath :=
    fun a ha => hm' ▸ mapDocument_toSymbol (hm' ▸ ha)
  have hrels : ∀ r ∈ m.relationships, MappedAs defined m.canonicalPath r := fun r hr =>
    hm ▸ mapDocument_mappedAs (hm ▸ hr)
  have hrels' : ∀ r ∈ m'.relationships, MappedAs defined m'.canonicalPath r := fun r hr =>
    hm' ▸ mapDocument_mappedAs (hm' ▸ hr)
  constructor
  · intro h
    have hjson := canonicalJsonBytes_injective (contentHashOfBytes_injective hH h)
    simp only [Json.arr.injEq, List.cons.injEq, Json.str.injEq, and_true] at hjson
    obtain ⟨hpath, hencoding, hsym, hrel⟩ := hjson
    rw [← hpath] at hsymbols' hrels'
    exact ⟨hpath, hencoding,
      (symbols_rows_iff hsymbols hsymbols').mp
        (List.map_injective_iff.mpr symRow_json_injective hsym),
      (relationships_rows_iff hrels hrels').mp
        (List.map_injective_iff.mpr relRow_json_injective hrel)⟩
  · rintro ⟨hpath, hencoding, hsym, hrel⟩
    rw [← hpath] at hsymbols' hrels'
    rw [documentNormalizedDigest, documentNormalizedDigest, hpath, hencoding,
      (symbols_rows_iff hsymbols hsymbols').mpr hsym,
      (relationships_rows_iff hrels hrels').mpr hrel]

lemma SameFacts.sameBlurred (h : SameFacts m m') : SameBlurred m m' :=
  ⟨h.path_eq, by rw [h.encoding_eq], h.symbols_perm, h.relationships_perm.map _⟩

/-- Permuted occurrences and symbols come to the same facts. -/
lemma sameFacts_of_perm {occurrences : List ScipOccurrence} {symbols : List ScipSymbolInformation}
    (hoccurrences : List.Perm doc.occurrences occurrences) (hsymbols : List.Perm doc.symbols symbols) :
    SameFacts (mapDocument confine doc defined)
      (mapDocument confine { doc with occurrences := occurrences, symbols := symbols } defined) := by
  rw [mapDocument, mapDocument]
  cases mapDocumentPath confine doc.relativePath with
  | error e => exact ⟨rfl, rfl, List.Perm.refl _, List.Perm.refl _⟩
  | ok path =>
    exact ⟨rfl, rfl, (hoccurrences.map _).flatMap_right _,
      ((hoccurrences.map _).flatMap_right _).append (hsymbols.flatMap_right _)⟩

end Lemmas

/-- The order of the occurrences and symbols does not matter to the digest, and it tells two
documents apart as their facts do, exactly when these are `ToldApart`. -/
theorem digest_faithful_iff (H : Hasher) (hH : H.Injective)
    (confine confine' : String → Except AtlasError String) (doc doc' : ScipDocument)
    (defined : List String) :
    (∀ occurrences symbols, List.Perm doc.occurrences occurrences →
      List.Perm doc.symbols symbols →
      documentNormalizedDigest H (mapDocument confine
          { doc with occurrences := occurrences, symbols := symbols } defined) =
        documentNormalizedDigest H (mapDocument confine doc defined)) ∧
      ((documentNormalizedDigest H (mapDocument confine doc defined) =
            documentNormalizedDigest H (mapDocument confine' doc' defined) ↔
          SameFacts (mapDocument confine doc defined) (mapDocument confine' doc' defined)) ↔
        ToldApart (mapDocument confine doc defined) (mapDocument confine' doc' defined)) := by
  refine ⟨fun occurrences symbols hoccurrences hsymbols => ?_, ?_⟩
  · exact ((digest_eq_iff hH).mpr (sameFacts_of_perm hoccurrences hsymbols).sameBlurred).symm
  · rw [digest_eq_iff hH]
    constructor
    · intro h hblurred
      have hsame := h.mp hblurred
      exact ⟨hsame.encoding_eq, hsame.relationships_perm⟩
    · intro h
      refine ⟨fun hblurred => ?_, SameFacts.sameBlurred⟩
      obtain ⟨hencoding, hrels⟩ := h hblurred
      exact ⟨hblurred.path_eq, hencoding, hblurred.symbols_perm, hrels⟩

/-! ## Two documents with one digest -/

/-- A document of `src/a.ts` in which a symbol implements `Animal`. -/
def implementer (symbol : String) : ScipDocument where
  relativePath := "src/a.ts"
  occurrences := []
  symbols := [⟨symbol, [⟨"pkg Animal#", false, true, false, false⟩]⟩]
  positionEncoding := .utf16

theorem digest_faithful_iff_implementer :
    (∀ occurrences symbols, List.Perm (implementer "pkg Dog#").occurrences occurrences →
      List.Perm (implementer "pkg Dog#").symbols symbols →
      documentNormalizedDigest Hasher.plain (mapDocument .ok
          { implementer "pkg Dog#" with occurrences := occurrences, symbols := symbols } []) =
        documentNormalizedDigest Hasher.plain (mapDocument .ok (implementer "pkg Dog#") [])) ∧
      ((documentNormalizedDigest Hasher.plain (mapDocument .ok (implementer "pkg Dog#") []) =
            documentNormalizedDigest Hasher.plain (mapDocument .ok (implementer "pkg Cat#") []) ↔
          SameFacts (mapDocument .ok (implementer "pkg Dog#") [])
            (mapDocument .ok (implementer "pkg Cat#") [])) ↔
        ToldApart (mapDocument .ok (implementer "pkg Dog#") [])
          (mapDocument .ok (implementer "pkg Cat#") [])) :=
  digest_faithful_iff Hasher.plain Hasher.plain_injective .ok .ok (implementer "pkg Dog#")
    (implementer "pkg Cat#") []

/-- It does not matter to the digest which of the symbols it is. -/
theorem implementer_not_faithful :
    (mapDocument .ok (implementer "pkg Dog#") []).partlyMapped = false ∧
      (mapDocument .ok (implementer "pkg Cat#") []).partlyMapped = false ∧
      documentNormalizedDigest Hasher.plain (mapDocument .ok (implementer "pkg Dog#") []) =
        documentNormalizedDigest Hasher.plain (mapDocument .ok (implementer "pkg Cat#") []) ∧
      ¬ SameFacts (mapDocument .ok (implementer "pkg Dog#") [])
        (mapDocument .ok (implementer "pkg Cat#") []) := by
  refine ⟨by decide, by decide, rfl, fun h => ?_⟩
  have hsource : ∃ r ∈ (mapDocument .ok (implementer "pkg Dog#") []).relationships,
      r.providerSymbolId = "pkg Dog#" := by decide
  have hother : ∀ r ∈ (mapDocument .ok (implementer "pkg Cat#") []).relationships,
      r.providerSymbolId ≠ "pkg Dog#" := by decide
  obtain ⟨r, hr, hid⟩ := hsource
  exact hother r (h.relationships_perm.mem_iff.mp hr) hid

end Digest

end WorkspaceAtlas
