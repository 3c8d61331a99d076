/-
# What a delta says and leaves out

A symbol key is listed as unchanged by a comparison of one fact of either generation: of the
facts that share the key, the map keeps the last one.  So a listed key has the same facts in both
generations if and only if the facts that were overwritten in the map agree as well.  A file is
compared by its path first, so a file that is moved and edited is only reported as moved.
-/
import WorkspaceAtlas.Delta.Bounded

namespace WorkspaceAtlas

open Relational Text

namespace Delta

/-! ## What is reachable -/

/-- The texts that the schema allows as the type of a relationship. -/
def relationshipTypes : List String :=
  ["defines", "contains", "imports", "exports", "calls", "references", "implements", "extends",
    "reads", "writes", "configures", "tests", "generates", "documents", "depends_on", "replaces",
    "moved_to", "other"]

/-- The constraints of the schema on what a delta reads: references and the check on the type of a
relationship. -/
structure Tables.Constrained (t : Tables) : Prop where
  revision : ∀ gf ∈ t.generationFile, ∀ id, gf.revisionId = some id →
    ∃ fr ∈ t.fileRevision, fr.revisionId = id
  run : ∀ sf ∈ t.symbolFact, ∃ er ∈ t.extractorRun, er.extractorRunId = sf.extractorRunId
  relationshipType : ∀ rf ∈ t.relationshipFact, rf.relationshipType ∈ relationshipTypes

/-- What a symbol fact says, and the file that it is about. -/
structure SymbolContent where
  symbolKind : String
  displayName : String
  qualifiedName : String
  signature : Option String
  visibility : Option String
  documentation : Option String
  attributesJson : String
  evidenceMethod : String
  confidenceBits : ℕ
  evidenceReason : String
  fileId : String
  canonicalPath : String
  deriving DecidableEq, Repr

/-- What a fact says of a file. -/
def SymbolRow.content (sf : SymbolRow) (gf : GenerationFile) : SymbolContent :=
  ⟨sf.symbolKind, sf.displayName, sf.qualifiedName, sf.signature, sf.visibility,
    sf.documentation, sf.attributesJson, sf.evidenceMethod, sf.confidenceBits, sf.evidenceReason,
    gf.fileId, gf.canonicalPath⟩

namespace Unchanged

/-- The facts with a key that are reachable through the present files of a generation. -/
def facts (t : Tables) (genId key : String) : Set SymbolContent :=
  {c | ∃ sf ∈ t.symbolFact, ∃ gf ∈ presentFiles t genId, gf.revisionId = some sf.revisionId ∧
    sf.canonicalSymbolKey = key ∧ c = sf.content gf}

/-- The effective targets of an outbound relationship of a key. -/
def targets (t : Tables) (genId key relationshipType : String) : Set String :=
  {target | ∃ row ∈ relationshipsQuery t genId, row.1.sourceRefKind = .symbol ∧
    row.1.sourceRefValue = key ∧ row.1.relationshipType = relationshipType ∧
      target = (readRelationship row).2.effectiveTarget}

/-! ## The statement -/

/-- The changes mention how the files differ: which of them are in one of the generations only,
the paths and the contents. -/
structure FilesReported (fromFiles toFiles : List FileRow) (changes : List DeltaChange) :
    Prop where
  added : ∀ f ∈ toFiles, (∀ old ∈ fromFiles, old.fileId ≠ f.fileId) →
    ∃ c ∈ changes, c.changeKind = .added ∧ c.entityId = f.canonicalPath ∧
      c.afterId = some f.fileId
  removed : ∀ old ∈ fromFiles, (∀ f ∈ toFiles, f.fileId ≠ old.fileId) →
    ∃ c ∈ changes, c.changeKind = .removed ∧ c.entityId = old.canonicalPath ∧
      c.beforeId = some old.fileId
  renamed : ∀ old ∈ fromFiles, ∀ f ∈ toFiles, old.fileId = f.fileId →
    old.canonicalPath ≠ f.canonicalPath →
      ∃ c ∈ changes, c.changeKind = .renamed ∧ c.entityId = f.canonicalPath ∧
        c.beforeId = some old.canonicalPath ∧ c.afterId = some f.canonicalPath
  modified : ∀ old ∈ fromFiles, ∀ f ∈ toFiles, old.fileId = f.fileId →
    old.contentHash ≠ f.contentHash →
      ∃ c ∈ changes, c.changeKind = .modified ∧ c.entityId = f.canonicalPath ∧
        c.beforeId = some old.contentHash ∧ c.afterId = some f.contentHash

/-- What a delta lists as unchanged did not change, and what changed of the files is
mentioned. -/
structure Sound (t : Tables) (fromId toId : String) (d : GenerationDelta) : Prop where
  facts : ∀ u ∈ d.unchangedVerifiedContracts, facts t fromId u.entityId = facts t toId u.entityId
  targets : ∀ u ∈ d.unchangedVerifiedContracts, ∀ relationshipType,
    targets t fromId u.entityId relationshipType = targets t toId u.entityId relationshipType
  files : FilesReported (filesFor t fromId) (filesFor t toId) d.files

/-- The last fact that is read under a key. -/
def lastSymbol (t : Tables) (genId key : String) : Option ReachableSymbol :=
  ((symbolsQuery t genId).filter fun row => row.fact.canonicalSymbolKey = key).getLast?

/-- What a reachable symbol says. -/
def contentOf (row : ReachableSymbol) : SymbolContent := row.fact.content row.file

/-- The comparison of the last facts of a key, of its relationships, of the coverage and of the
file on the disk finds no change. -/
structure Compares (H : Hasher) (disk : WorkingDirectory) (t : Tables) (fromId toId key : String)
    (a b : ReachableSymbol) : Prop where
  content : contentOf a = contentOf b
  outbound : outboundRelationshipTargets (relationshipsFor t fromId) ("symbol:" ++ key ++ "\x1f") =
    outboundRelationshipTargets (relationshipsFor t toId) ("symbol:" ++ key ++ "\x1f")
  provider : providerFingerprint t fromId = providerFingerprint t toId
  coverageFrom : symbolHasCompleteCoverage (coverageFor t fromId) (readSymbol H a)
  coverageTo : symbolHasCompleteCoverage (coverageFor t toId) (readSymbol H b)
  live : LiveVerified H disk (readSymbol H b)

/-- Where the last facts of a key compare, its other facts say the same in both generations. -/
def NothingHidden (H : Hasher) (disk : WorkingDirectory) (t : Tables) (fromId toId : String) :
    Prop :=
  ∀ key a b, lastSymbol t fromId key = some a → lastSymbol t toId key = some b →
    Compares H disk t fromId toId key a b →
      ∀ c, c ≠ contentOf b → (c ∈ facts t fromId key ↔ c ∈ facts t toId key)

/-- No file that both generations have is moved and edited. -/
def NoneMovedAndEdited (t : Tables) (fromId toId : String) : Prop :=
  ∀ old ∈ filesFor t fromId, ∀ f ∈ filesFor t toId, old.fileId = f.fileId →
    old.canonicalPath ≠ f.canonicalPath → old.contentHash = f.contentHash

section Lemmas

variable {H : Hasher} {disk : WorkingDirectory} {t : Tables} {fromId toId genId key : String}

/-! ## Facts -/

lemma mem_symbolsQuery {row : ReachableSymbol} : row ∈ symbolsQuery t genId ↔
    row.file ∈ presentFiles t genId ∧
      (row.revision ∈ t.fileRevision ∧ row.file.revisionId = some row.revision.revisionId) ∧
      (row.fact ∈ t.symbolFact ∧ row.file.revisionId = some row.fact.revisionId) ∧
      row.run ∈ t.extractorRun ∧ row.run.extractorRunId = row.fact.extractorRunId := by
  simp only [symbolsQuery, mem_orderBy, List.mem_flatMap, List.mem_map, List.mem_filter,
    decide_eq_true_eq, Table.mem_def]
  constructor
  · rintro ⟨gf, hgf, fr, hfr, sf, hsf, er, her, rfl⟩
    exact ⟨hgf, hfr, hsf, her⟩
  · rintro ⟨hgf, hfr, hsf, her⟩
    exact ⟨row.file, hgf, row.revision, hfr, row.fact, hsf, row.run, her, rfl⟩

lemma mem_presentFiles {gf : GenerationFile} : gf ∈ presentFiles t genId ↔
    gf ∈ t.generationFile ∧ gf.generationId = genId ∧ gf.presenceState = .present := by
  rw [presentFiles, List.mem_filter, decide_eq_true_eq]
  rfl

/-- The query reaches every fact. -/
lemma mem_facts (ht : t.Constrained) {c : SymbolContent} : c ∈ facts t genId key ↔
    ∃ row ∈ symbolsQuery t genId, row.fact.canonicalSymbolKey = key ∧ c = contentOf row := by
  constructor
  · rintro ⟨sf, hsf, gf, hgf, hrevision, hkey, rfl⟩
    obtain ⟨fr, hfr, hid⟩ := ht.revision gf (mem_presentFiles.mp hgf).1 _ hrevision
    obtain ⟨er, her, hrun⟩ := ht.run sf hsf
    exact ⟨⟨sf, gf, fr, er⟩, mem_symbolsQuery.mpr
      ⟨hgf, ⟨hfr, hid ▸ hrevision⟩, ⟨hsf, hrevision⟩, her, hrun⟩, hkey, rfl⟩
  · rintro ⟨row, hrow, hkey, rfl⟩
    obtain ⟨hgf, -, ⟨hsf, hrevision⟩, -⟩ := mem_symbolsQuery.mp hrow
    exact ⟨row.fact, hsf, row.file, hgf, hrevision, hkey, rfl⟩

/-- The map has the last fact of a key. -/
lemma get_symbolsFor : (symbolsFor H t genId).get key =
    (lastSymbol t genId key).map (readSymbol H) := by
  rw [symbolsFor, symbolMap, SortedMap.get_collect, List.filter_map, List.getLast?_map, lastSymbol]
  rfl

lemma last_mem_facts (ht : t.Constrained) {a : ReachableSymbol}
    (h : lastSymbol t genId key = some a) : contentOf a ∈ facts t genId key := by
  have hmem := List.mem_of_getLast? h
  rw [List.mem_filter, decide_eq_true_eq] at hmem
  exact (mem_facts ht).mpr ⟨a, hmem.1, hmem.2, rfl⟩

/-- The facts with a key agree if the last ones do and the other ones do. -/
lemma facts_eq_iff (ht : t.Constrained) {a b : ReachableSymbol}
    (ha : lastSymbol t fromId key = some a) (hb : lastSymbol t toId key = some b)
    (hab : contentOf a = contentOf b) : facts t fromId key = facts t toId key ↔
      ∀ c, c ≠ contentOf b → (c ∈ facts t fromId key ↔ c ∈ facts t toId key) := by
  constructor
  · intro h c _
    rw [h]
  · intro h
    ext c
    by_cases hc : c = contentOf b
    · subst hc
      exact iff_of_true (hab ▸ last_mem_facts ht ha) (last_mem_facts ht hb)
    · exact h c hc

/-! ## The comparison of a key -/

lemma jsonOption_injective : Function.Injective jsonOption := by
  intro x y h
  cases x with
  | none => cases y with
    | none => rfl
    | some y => exact absurd h (by simp [jsonOption])
  | some x => cases y with
    | none => exact absurd h (by simp [jsonOption])
    | some y => exact congrArg some (Json.str.inj h)

lemma semanticDigest_injective (hH : H.Injective) : Function.Injective (semanticDigest H) :=
  fun _ _ h => canonicalJsonBytes_injective (contentHashOfBytes_injective hH h)

/-- Snapshots show what their facts say. -/
lemma content_eq_iff (hH : H.Injective) {a b : ReachableSymbol} : contentOf a = contentOf b ↔
    (readSymbol H a).canonicalPath = (readSymbol H b).canonicalPath ∧
      (readSymbol H a).fileId = (readSymbol H b).fileId ∧
      (readSymbol H a).semanticDigest = (readSymbol H b).semanticDigest ∧
      (readSymbol H a).evidenceDigest = (readSymbol H b).evidenceDigest := by
  have hsemantic : (readSymbol H a).semanticDigest = (readSymbol H b).semanticDigest ↔
      a.fact.semanticIdentity = b.fact.semanticIdentity :=
    (semanticDigest_injective hH).eq_iff
  have hevidence : (readSymbol H a).evidenceDigest = (readSymbol H b).evidenceDigest ↔
      a.fact.evidenceIdentity = b.fact.evidenceIdentity :=
    (semanticDigest_injective hH).eq_iff
  rw [hsemantic, hevidence]
  simp only [contentOf, SymbolRow.content, SymbolContent.mk.injEq, readSymbol,
    SymbolRow.semanticIdentity, SymbolRow.evidenceIdentity, Json.obj.injEq, List.cons.injEq,
    Prod.mk.injEq, Json.str.injEq, Json.num.injEq, Nat.cast_inj, jsonOption_injective.eq_iff,
    true_and, and_true]
  constructor
  · rintro ⟨hkind, hdisplay, hqualified, hsignature, hvisibility, hdoc, hattributes, hmethod,
      hconfidence, hreason, hfile, hpath⟩
    exact ⟨hpath, hfile, ⟨hattributes, hdisplay, hdoc, hqualified, hsignature, hkind, hvisibility⟩,
      hconfidence, hmethod, hreason⟩
  · rintro ⟨hpath, hfile, ⟨hattributes, hdisplay, hdoc, hqualified, hsignature, hkind,
      hvisibility⟩, hconfidence, hmethod, hreason⟩
    exact ⟨hkind, hdisplay, hqualified, hsignature, hvisibility, hdoc, hattributes, hmethod,
      hconfidence, hreason, hfile, hpath⟩

/-- No change is found of a key. -/
lemma symbolChange_eq_none_iff {before after : Snapshot} {s s' : SymbolSnapshot} :
    symbolChange H before after key s s' = none ↔
      (s.canonicalPath = s'.canonicalPath ∧ s.fileId = s'.fileId ∧
        s.semanticDigest = s'.semanticDigest ∧ s.evidenceDigest = s'.evidenceDigest) ∧
      outboundRelationshipTargets before.relationships ("symbol:" ++ key ++ "\x1f") =
        outboundRelationshipTargets after.relationships ("symbol:" ++ key ++ "\x1f") := by
  simp only [symbolChange]
  split_ifs <;> simp_all

/-- The keys that are listed. -/
lemma listed_iff (hH : H.Injective) {fp fp' : String} (hfp : providerFingerprint t fromId = .ok fp)
    (hfp' : providerFingerprint t toId = .ok fp') :
    (∃ u ∈ unchangedVerifiedContracts H disk (snapshotOf H t fromId fp) (snapshotOf H t toId fp'),
        u.entityId = key) ↔
      ∃ a b, lastSymbol t fromId key = some a ∧ lastSymbol t toId key = some b ∧
        Compares H disk t fromId toId key a b := by
  have hprovider : providerFingerprint t fromId = providerFingerprint t toId ↔ fp = fp' := by
    rw [hfp, hfp', Except.ok.injEq]
  constructor
  · rintro ⟨u, hu, rfl⟩
    obtain ⟨⟨k, s, s'⟩, hx, ⟨hfingerprint, hfrom, hto⟩, hlive, rfl⟩ := mem_contracts.mp hu
    obtain ⟨hs', hs, hchange⟩ := mem_unchangedSymbols.mp hx
    obtain ⟨b, hb, rfl⟩ := Option.map_eq_some_iff.mp
      (get_symbolsFor.symm.trans (SortedMap.get_eq_some_iff.mpr hs'))
    obtain ⟨a, ha, rfl⟩ := Option.map_eq_some_iff.mp (get_symbolsFor.symm.trans hs)
    obtain ⟨hcontent, houtbound⟩ := symbolChange_eq_none_iff.mp hchange
    exact ⟨a, b, ha, hb, (content_eq_iff hH).mpr hcontent, houtbound, hprovider.mpr hfingerprint,
      hfrom, hto, hlive⟩
  · rintro ⟨a, b, ha, hb, h⟩
    have hx : (key, readSymbol H a, readSymbol H b) ∈ unchangedSymbols H
        (snapshotOf H t fromId fp) (snapshotOf H t toId fp') := by
      refine mem_unchangedSymbols.mpr ⟨SortedMap.get_eq_some_iff.mp ?_, ?_, ?_⟩
      · exact get_symbolsFor.trans (congrArg (Option.map _) hb)
      · exact get_symbolsFor.trans (congrArg (Option.map _) ha)
      · exact symbolChange_eq_none_iff.mpr ⟨(content_eq_iff hH).mp h.content, h.outbound⟩
    have hqualifies : Qualifies (snapshotOf H t fromId fp) (snapshotOf H t toId fp')
        (readSymbol H a) (readSymbol H b) :=
      ⟨hprovider.mp h.provider, h.coverageFrom, h.coverageTo⟩
    exact ⟨_, mem_contracts.mpr ⟨_, hx, hqualifies, h.live, rfl⟩, rfl⟩

/-! ## Relationships -/

lemma relationshipIdentity_inj {k k' : RefKind} {v v' ty ty' : String}
    (hty : ty ∈ relationshipTypes) (hty' : ty' ∈ relationshipTypes)
    (h : relationshipIdentity k.asStr v ty = relationshipIdentity k'.asStr v' ty') :
    k = k' ∧ v = v' ∧ ty = ty' := by
  have hsep : ∀ ty ∈ relationshipTypes, '\x1f' ∉ ty.toList.reverse := by decide
  have hcolon : ∀ k : RefKind, ':' ∉ k.asStr.toList := fun k => by cases k <;> decide
  have hasStr : ∀ k k' : RefKind, k.asStr.toList = k'.asStr.toList → k = k' := by
    intro k k'
    cases k <;> cases k' <;> decide
  have htext : ∀ k v ty, (relationshipIdentity k v ty).toList.reverse =
      ty.toList.reverse ++ '\x1f' :: (k.toList ++ ':' :: v.toList).reverse := by
    intro k v ty
    simp [relationshipIdentity, String.toList_append]
  have hlist := congrArg (fun s => s.toList.reverse) h
  simp only [htext] at hlist
  -- the type follows the last separator, the kind ends at the first colon
  obtain ⟨htype, hsource⟩ := append_sep_inj (hsep ty hty) (hsep ty' hty') hlist
  obtain ⟨hkind, hvalue⟩ := append_sep_inj (hcolon k) (hcolon k') (List.reverse_injective hsource)
  exact ⟨hasStr k k' hkind, String.toList_inj.mp hvalue,
    String.toList_inj.mp (List.reverse_injective htype)⟩

lemma mem_relationshipsFor {identity : String} {states : List RelationshipState} :
    (identity, states) ∈ (relationshipsFor t genId).entries ↔
      (∃ row ∈ relationshipsQuery t genId, (readRelationship row).1 = identity) ∧
        states = orderBy RelationshipState.sortKey
          ((((relationshipsQuery t genId).map readRelationship).filter fun r =>
            r.1 = identity).map Prod.snd) := by
  rw [relationshipsFor, stateMap, SortedMap.mem_mapValues]
  simp only [SortedMap.mem_group, List.mem_map]
  constructor
  · rintro ⟨rows, ⟨⟨state, row, hrow, hread⟩, rfl⟩, rfl⟩
    exact ⟨⟨row, hrow, congrArg Prod.fst hread⟩, rfl⟩
  · rintro ⟨⟨row, hrow, rfl⟩, rfl⟩
    exact ⟨_, ⟨⟨_, row, hrow, rfl⟩, rfl⟩, rfl⟩

/-- The targets of an identity with a start. -/
lemma mem_outboundRelationshipTargets {rels : SortedMap String (List RelationshipState)}
    {start identity : String} {ts : List String} :
    (identity, ts) ∈ outboundRelationshipTargets rels start ↔
      start.toList <+: identity.toList ∧ ∃ states, (identity, states) ∈ rels.entries ∧
        ts = SortedMap.sortedKeys (states.map RelationshipState.effectiveTarget) := by
  simp only [outboundRelationshipTargets, List.mem_map, List.mem_filter,
    List.isPrefixOf_iff_prefix, Prod.mk.injEq, Prod.exists]
  constructor
  · rintro ⟨identity', states, ⟨hmem, hstart⟩, rfl, rfl⟩
    exact ⟨hstart, states, hmem, rfl⟩
  · rintro ⟨hstart, states, hmem, rfl⟩
    exact ⟨identity, states, ⟨hmem, hstart⟩, rfl, rfl⟩

lemma targets_subset (ht : t.Constrained) {ty : String}
    (h : outboundRelationshipTargets (relationshipsFor t fromId) ("symbol:" ++ key ++ "\x1f") =
      outboundRelationshipTargets (relationshipsFor t toId) ("symbol:" ++ key ++ "\x1f")) :
    targets t fromId key ty ⊆ targets t toId key ty := by
  have htype : ∀ genId, ∀ row ∈ relationshipsQuery t genId,
      row.1.relationshipType ∈ relationshipTypes := by
    intro genId row hrow
    obtain ⟨⟨gf, rf⟩, hjoin, heq⟩ := List.mem_map.mp (fst_mem_of_leftJoin (mem_orderBy.mp hrow))
    rw [← heq]
    exact ht.relationshipType rf (mem_join.mp hjoin).2.1
  rintro target ⟨row, hrow, hkind, hkey, rfl, rfl⟩
  have hidentity : (readRelationship row).1 =
      relationshipIdentity RefKind.symbol.asStr key row.1.relationshipType := by
    rw [← hkind, ← hkey]
    rfl
  have hstart : ("symbol:" ++ key ++ "\x1f").toList <+:
      (relationshipIdentity RefKind.symbol.asStr key row.1.relationshipType).toList :=
    ⟨row.1.relationshipType.toList, by
      simp [relationshipIdentity, RefKind.asStr, String.toList_append]⟩
  have hfrom := mem_outboundRelationshipTargets.mpr ⟨hstart, _,
    mem_relationshipsFor.mpr ⟨⟨row, hrow, hidentity⟩, rfl⟩, rfl⟩
  rw [h] at hfrom
  obtain ⟨-, states, hstates, hts⟩ := mem_outboundRelationshipTargets.mp hfrom
  obtain ⟨-, rfl⟩ := mem_relationshipsFor.mp hstates
  have htarget : (readRelationship row).2.effectiveTarget ∈
      (orderBy RelationshipState.sortKey
        ((((relationshipsQuery t fromId).map readRelationship).filter fun r =>
          r.1 = relationshipIdentity RefKind.symbol.asStr key row.1.relationshipType).map
            Prod.snd)).map RelationshipState.effectiveTarget := by
    refine List.mem_map_of_mem (mem_orderBy.mpr (List.mem_map_of_mem ?_))
    exact List.mem_filter.mpr ⟨List.mem_map_of_mem hrow, decide_eq_true hidentity⟩
  rw [← SortedMap.mem_sortedKeys, hts, SortedMap.mem_sortedKeys] at htarget
  obtain ⟨state, hstate, heffective⟩ := List.mem_map.mp htarget
  obtain ⟨r, hr, rfl⟩ := List.mem_map.mp (mem_orderBy.mp hstate)
  obtain ⟨hread, hr⟩ := List.mem_filter.mp hr
  obtain ⟨row', hrow', rfl⟩ := List.mem_map.mp hread
  obtain ⟨hkind', hkey', htype'⟩ := relationshipIdentity_inj (htype toId row' hrow')
    (htype fromId row hrow) (of_decide_eq_true hr)
  exact ⟨row', hrow', hkind', hkey', htype', heffective.symm⟩

/-! ## Files -/

/-- A generation has one row of an id, and one of a path. -/
lemma file_unique {f f' : FileRow} (hf : f ∈ filesFor t genId) (hf' : f' ∈ filesFor t genId)
    (h : f.fileId = f'.fileId ∨ f.canonicalPath = f'.canonicalPath) : f = f' := by
  have hpartner : ∀ gf ∈ presentFiles t genId,
      (t.fileRevision.rows.filter fun fr => gf.revisionId = some fr.revisionId) =
        (t.fileRevision.find? fun fr => gf.revisionId = some fr.revisionId).toList := by
    intro gf _
    refine Table.filter_eq_toList fun x _ y _ hx hy => Or.inl ?_
    rw [decide_eq_true_eq] at hx hy
    exact Option.some.inj (hx.symm.trans hy)
  rw [filesFor, filesQuery, leftJoin_eq_map hpartner] at hf hf'
  obtain ⟨row, hrow, rfl⟩ := List.mem_map.mp hf
  obtain ⟨row', hrow', rfl⟩ := List.mem_map.mp hf'
  obtain ⟨gf, hgf, rfl⟩ := List.mem_map.mp (mem_orderBy.mp hrow)
  obtain ⟨gf', hgf', rfl⟩ := List.mem_map.mp (mem_orderBy.mp hrow')
  obtain ⟨hmem, hgen, -⟩ := mem_presentFiles.mp hgf
  obtain ⟨hmem', hgen', -⟩ := mem_presentFiles.mp hgf'
  obtain rfl := Table.eq_of_clash hmem hmem' ⟨hgen.trans hgen'.symm, h⟩
  rfl

section Files

variable {fromFiles toFiles : List FileRow} {c : DeltaChange}

lemma get_filesById {files : List FileRow} {f : FileRow} {id : String}
    (hinj : ∀ f ∈ files, ∀ f' ∈ files, f.fileId = f'.fileId → f = f') :
    (filesById files).get id = some f ↔ f ∈ files ∧ f.fileId = id :=
  SortedMap.get_collect_eq_some_iff hinj

lemma mem_filesById_values {files : List FileRow} {f : FileRow}
    (hinj : ∀ f ∈ files, ∀ f' ∈ files, f.fileId = f'.fileId → f = f') :
    f ∈ (filesById files).values ↔ f ∈ files := by
  simp only [SortedMap.mem_values, get_filesById hinj, exists_and_left, exists_eq', and_true]

/-- What a change of a file is. -/
lemma mem_fileChanges (hfrom : ∀ f ∈ fromFiles, ∀ f' ∈ fromFiles, f.fileId = f'.fileId → f = f')
    (hto : ∀ f ∈ toFiles, ∀ f' ∈ toFiles, f.fileId = f'.fileId → f = f') :
    c ∈ fileChanges fromFiles toFiles ↔
      (∃ f ∈ toFiles, fileChange (filesById fromFiles) f = some c) ∨
        ∃ old ∈ fromFiles, (∀ f ∈ toFiles, f.fileId ≠ old.fileId) ∧
          c = change old.canonicalPath .removed (some old.fileId) none
            "file_identity_no_longer_present" := by
  have habsent : ∀ old : FileRow, ¬ (filesById toFiles).containsKey old.fileId ↔
      ∀ f ∈ toFiles, f.fileId ≠ old.fileId := by
    intro old
    simp only [SortedMap.containsKey, Option.isSome_iff_exists, get_filesById hto, not_exists,
      not_and]
  simp only [fileChanges, mem_orderBy, List.mem_append, List.mem_filterMap, List.mem_map,
    List.mem_filter, decide_eq_true_eq, mem_filesById_values hto, mem_filesById_values hfrom,
    habsent, and_assoc, eq_comm (a := c)]

/-- The changes of files that are moved or edited, but not both, mention all that differs. -/
lemma filesReported_iff
    (hfrom : ∀ f ∈ fromFiles, ∀ f' ∈ fromFiles, f.fileId = f'.fileId → f = f')
    (hto : ∀ f ∈ toFiles, ∀ f' ∈ toFiles,
      f.fileId = f'.fileId ∨ f.canonicalPath = f'.canonicalPath → f = f') :
    FilesReported fromFiles toFiles (fileChanges fromFiles toFiles) ↔
      ∀ old ∈ fromFiles, ∀ f ∈ toFiles, old.fileId = f.fileId →
        old.canonicalPath ≠ f.canonicalPath → old.contentHash = f.contentHash := by
  have hmem : ∀ c, c ∈ fileChanges fromFiles toFiles ↔ _ := fun c =>
    mem_fileChanges hfrom fun f hf f' hf' h => hto f hf f' hf' (Or.inl h)
  have hboth : ∀ old ∈ fromFiles, ∀ f : FileRow, old.fileId = f.fileId →
      (filesById fromFiles).get f.fileId = some old := fun old hold f h =>
    (get_filesById hfrom).mpr ⟨hold, h⟩
  constructor
  · intro h old hold f hf hid hpath
    by_contra hhash
    obtain ⟨c, hc, hkind, hentity, -, -⟩ := h.modified old hold f hf hid hhash
    rcases (hmem c).mp hc with ⟨f', hf', hchange⟩ | ⟨old', -, -, rfl⟩
    · rw [fileChange] at hchange
      split at hchange
      · -- an added file
        obtain rfl := Option.some.inj hchange
        exact absurd hkind (by simp [change])
      next old' hget =>
        split at hchange
        · obtain rfl := Option.some.inj hchange
          exact absurd hkind (by simp [change])
        next hsame =>
          split at hchange
          · -- the file of this path is the file itself, but it has not kept its path
            obtain rfl := Option.some.inj hchange
            obtain rfl : f' = f := hto f' hf' f hf (Or.inr hentity)
            rw [hboth old hold f' hid] at hget
            obtain rfl := Option.some.inj hget
            exact hsame hpath
          · exact absurd hchange (by simp)
    · exact absurd hkind (by simp [change])
  · intro h
    constructor
    case added =>
      intro f hf hnew
      have hchange : fileChange (filesById fromFiles) f =
          some (change f.canonicalPath .added none (some f.fileId) "new_file_identity") := by
        cases hget : (filesById fromFiles).get f.fileId with
        | none => rw [fileChange, hget]
        | some old =>
          obtain ⟨hold, hid⟩ := (get_filesById hfrom).mp hget
          exact absurd hid (hnew old hold)
      exact ⟨_, (hmem _).mpr (Or.inl ⟨f, hf, hchange⟩), rfl, rfl, rfl⟩
    case removed =>
      intro old hold hgone
      exact ⟨_, (hmem _).mpr (Or.inr ⟨old, hold, hgone, rfl⟩), rfl, rfl, rfl⟩
    case renamed =>
      intro old hold f hf hid hpath
      have hchange : fileChange (filesById fromFiles) f =
          some (change f.canonicalPath .renamed (some old.canonicalPath) (some f.canonicalPath)
            "file_identity_continuity_different_path") := by
        rw [fileChange, hboth old hold f hid]
        exact if_pos hpath
      exact ⟨_, (hmem _).mpr (Or.inl ⟨f, hf, hchange⟩), rfl, rfl, rfl, rfl⟩
    case modified =>
      intro old hold f hf hid hhash
      have hpath : ¬ old.canonicalPath ≠ f.canonicalPath := fun hpath =>
        hhash (h old hold f hf hid hpath)
      have hchange : fileChange (filesById fromFiles) f =
          some (change f.canonicalPath .modified (some old.contentHash) (some f.contentHash)
            "content_hash_changed") := by
        rw [fileChange, hboth old hold f hid]
        exact (if_neg hpath).trans (if_pos hhash)
      exact ⟨_, (hmem _).mpr (Or.inl ⟨f, hf, hchange⟩), rfl, rfl, rfl, rfl⟩

end Files

/-! ## Both -/

lemma content_of_derived {before after : Snapshot} {ws : String} {d : GenerationDelta}
    (hd : deriveDelta H disk ws fromId toId before after = .ok d) :
    d.unchangedVerifiedContracts = unchangedVerifiedContracts H disk before after ∧
      d.files = fileChanges before.files after.files := by
  rw [deriveDelta, GenerationDelta.seal] at hd
  split at hd
  · exact absurd hd (by simp)
  · obtain rfl := Except.ok.inj hd
    exact ⟨rfl, rfl⟩

/-- What is derived is sound where nothing is hidden. -/
lemma sound_of_derived_iff (hH : H.Injective) (ht : t.Constrained) {ws fp fp' : String}
    {d : GenerationDelta} (hfp : providerFingerprint t fromId = .ok fp)
    (hfp' : providerFingerprint t toId = .ok fp')
    (hd : deriveDelta H disk ws fromId toId (snapshotOf H t fromId fp) (snapshotOf H t toId fp') =
      .ok d) :
    Sound t fromId toId d ↔ NothingHidden H disk t fromId toId ∧ NoneMovedAndEdited t fromId toId := by
  obtain ⟨hcontracts, hfiles⟩ := content_of_derived hd
  have hreported : FilesReported (filesFor t fromId) (filesFor t toId) d.files ↔
      NoneMovedAndEdited t fromId toId := by
    rw [hfiles]
    exact filesReported_iff (fun f hf f' hf' h => file_unique hf hf' (Or.inl h))
      fun f hf f' hf' h => file_unique hf hf' h
  constructor
  · rintro ⟨hfacts, -, hreport⟩
    refine ⟨fun key a b ha hb hcompares => ?_, hreported.mp hreport⟩
    obtain ⟨u, hu, rfl⟩ := (listed_iff hH hfp hfp').mpr ⟨a, b, ha, hb, hcompares⟩
    exact (facts_eq_iff ht ha hb hcompares.content).mp (hfacts u (hcontracts ▸ hu))
  · rintro ⟨hnothing, hnone⟩
    have hlisted : ∀ u ∈ d.unchangedVerifiedContracts, ∃ a b,
        lastSymbol t fromId u.entityId = some a ∧ lastSymbol t toId u.entityId = some b ∧
          Compares H disk t fromId toId u.entityId a b := fun u hu =>
      (listed_iff hH hfp hfp').mp ⟨u, hcontracts ▸ hu, rfl⟩
    refine ⟨fun u hu => ?_, fun u hu ty => ?_, hreported.mpr hnone⟩
    · obtain ⟨a, b, ha, hb, hcompares⟩ := hlisted u hu
      exact (facts_eq_iff ht ha hb hcompares.content).mpr
        (hnothing u.entityId a b ha hb hcompares)
    · obtain ⟨a, b, -, -, hcompares⟩ := hlisted u hu
      exact Set.Subset.antisymm (targets_subset ht hcompares.outbound)
        (targets_subset ht hcompares.outbound.symm)

/-- **A delta is sound** if and only if nothing is hidden: the facts that share a key with the
compared ones agree, and no file is moved and edited. -/
theorem sound_iff_nothingHidden (H : Hasher) (hH : H.Injective) (disk : WorkingDirectory)
    (t : Tables) (ht : t.Constrained) (ws fromId toId : String)
    (hfrom : requireCommitted t ws fromId = .ok ()) (hto : requireCommitted t ws toId = .ok ())
    (d : GenerationDelta) (hd : computeGenerationDelta H disk t ws fromId toId = .ok d) :
    Sound t fromId toId d ↔
      NothingHidden H disk t fromId toId ∧ NoneMovedAndEdited t fromId toId := by
  obtain ⟨fp, hfp⟩ := exists_providerFingerprint hfrom
  obtain ⟨fp', hfp'⟩ := exists_providerFingerprint hto
  exact sound_of_derived_iff hH ht hfp hfp'
    ((computeGenerationDelta_eq hfrom hto hfp hfp').symm.trans hd)

end Lemmas

/-! ## Two facts of one key -/

/-- Two committed generations with a symbol that is declared in two files, of which one is moved
and edited. -/
def twoFacts : Tables :=
  { twoGenerations with
    generationFile := (((Table.empty.insertOrIgnore
      ⟨"g₁", "fa", some "ra₁", "src/a.ts", .present, none, none, none, none⟩).insertOrIgnore
      ⟨"g₁", "fb", some "rb", "src/b.ts", .present, none, none, none, none⟩).insertOrIgnore
      ⟨"g₂", "fa", some "ra₂", "src/c.ts", .present, none, none, none, none⟩).insertOrIgnore
      ⟨"g₂", "fb", some "rb", "src/b.ts", .present, none, none, none, none⟩
    fileRevision := ((Table.empty.insertOrIgnore
      ⟨"ra₁", "fa", contentHashOfBytes Hasher.plain [1], 1, .source, none, false, false, 0⟩).insertOrIgnore
      ⟨"ra₂", "fa", contentHashOfBytes Hasher.plain [2], 1, .source, none, false, false, 0⟩).insertOrIgnore
      ⟨"rb", "fb", contentHashOfBytes Hasher.plain [], 0, .source, none, false, false, 0⟩
    extractorRun := ((Table.empty.insertOrIgnore
      ⟨"ea₁", "ra₁", "ts", "1", .structural, "", "1", true, .complete, 0, none, 0, 0⟩).insertOrIgnore
      ⟨"ea₂", "ra₂", "ts", "1", .structural, "", "1", true, .complete, 0, none, 0, 0⟩).insertOrIgnore
      ⟨"eb", "rb", "ts", "1", .structural, "", "1", true, .complete, 0, none, 0, 0⟩
    symbolFact := ((Table.empty.insertOrIgnore
      ⟨"s₁", "ea₁", "ra₁", "k", "interface", "k", "k", some "x: number", none, none, "",
        "structural", 0, "node"⟩).insertOrIgnore
      ⟨"s₂", "ea₂", "ra₂", "k", "interface", "k", "k", some "x: string", none, none, "",
        "structural", 0, "node"⟩).insertOrIgnore
      ⟨"s₃", "eb", "rb", "k", "interface", "k", "k", some "y: number", none, none, "",
        "structural", 0, "node"⟩
    coverageRecord := (Table.empty.insertOrIgnore
      ⟨"c₁", "g₁", none, "workspace", "all", "complete", "[]", "[]", ""⟩).insertOrIgnore
        ⟨"c₂", "g₂", none, "workspace", "all", "complete", "[]", "[]", ""⟩ }

/-- The file that was not edited. -/
def unedited : WorkingDirectory := fun path => if path = "src/b.ts" then some [] else none

lemma twoFacts_constrained : twoFacts.Constrained where
  revision := by
    have hall : ∀ gf ∈ twoFacts.generationFile.rows,
        ∃ fr ∈ twoFacts.fileRevision.rows, gf.revisionId = some fr.revisionId := by decide
    intro gf hgf id hid
    obtain ⟨fr, hfr, heq⟩ := hall gf hgf
    exact ⟨fr, hfr, Option.some.inj (heq.symm.trans hid)⟩
  run := by
    have hall : ∀ sf ∈ twoFacts.symbolFact.rows,
        ∃ er ∈ twoFacts.extractorRun.rows, er.extractorRunId = sf.extractorRunId := by decide
    exact hall
  relationshipType := fun rf hrf => absurd hrf Table.not_mem_empty

lemma exists_twoFacts : ∃ d,
    computeGenerationDelta Hasher.plain unedited twoFacts "ws" "g₁" "g₂" = .ok d ∧
      deriveDelta Hasher.plain unedited "ws" "g₁" "g₂" (snapshotOf Hasher.plain twoFacts "g₁" "p")
        (snapshotOf Hasher.plain twoFacts "g₂" "p") = .ok d := by
  have hcompute : computeGenerationDelta Hasher.plain unedited twoFacts "ws" "g₁" "g₂" =
      deriveDelta Hasher.plain unedited "ws" "g₁" "g₂"
        (snapshotOf Hasher.plain twoFacts "g₁" "p") (snapshotOf Hasher.plain twoFacts "g₂" "p") :=
    computeGenerationDelta_eq (by decide) (by decide) (by decide) (by decide)
  rw [hcompute]
  obtain ⟨d, hd⟩ : ∃ d, deriveDelta Hasher.plain unedited "ws" "g₁" "g₂"
      (snapshotOf Hasher.plain twoFacts "g₁" "p") (snapshotOf Hasher.plain twoFacts "g₂" "p") =
        .ok d := exists_derived unedited (by decide)
  exact ⟨d, hd, hd⟩

theorem sound_iff_twoFacts : ∃ d,
    computeGenerationDelta Hasher.plain unedited twoFacts "ws" "g₁" "g₂" = .ok d ∧
      (Sound twoFacts "g₁" "g₂" d ↔ NothingHidden Hasher.plain unedited twoFacts "g₁" "g₂" ∧
        NoneMovedAndEdited twoFacts "g₁" "g₂") := by
  obtain ⟨d, hd, -⟩ := exists_twoFacts
  exact ⟨d, hd, sound_iff_nothingHidden Hasher.plain Hasher.plain_injective unedited twoFacts
    twoFacts_constrained "ws" "g₁" "g₂" (by decide) (by decide) d hd⟩

/-- The symbol is listed although its first declaration changed, and the file of that is only
reported as moved. -/
theorem twoFacts_notSound : ∃ d,
    computeGenerationDelta Hasher.plain unedited twoFacts "ws" "g₁" "g₂" = .ok d ∧
      (∃ u ∈ d.unchangedVerifiedContracts,
        facts twoFacts "g₁" u.entityId ≠ facts twoFacts "g₂" u.entityId) ∧
      ¬ FilesReported (filesFor twoFacts "g₁") (filesFor twoFacts "g₂") d.files := by
  obtain ⟨d, hd, hderived⟩ := exists_twoFacts
  obtain ⟨hcontracts, hfiles⟩ := content_of_derived hderived
  let compared : SymbolContent := ⟨"interface", "k", "k", some "y: number", none, none, "",
    "structural", 0, "node", "fb", "src/b.ts"⟩
  let first : SymbolContent := ⟨"interface", "k", "k", some "x: number", none, none, "",
    "structural", 0, "node", "fa", "src/a.ts"⟩
  obtain ⟨a, ha, hca, hfrom⟩ : ∃ a, lastSymbol twoFacts "g₁" "k" = some a ∧
      contentOf a = compared ∧ symbolHasCompleteCoverage (coverageFor twoFacts "g₁")
        (readSymbol Hasher.plain a) := by decide
  obtain ⟨b, hb, hcb, hto, hlive⟩ : ∃ b, lastSymbol twoFacts "g₂" "k" = some b ∧
      contentOf b = compared ∧ symbolHasCompleteCoverage (coverageFor twoFacts "g₂")
        (readSymbol Hasher.plain b) ∧ LiveVerified Hasher.plain unedited
          (readSymbol Hasher.plain b) := by decide
  have hfp : ∀ genId ∈ ["g₁", "g₂"], providerFingerprint twoFacts genId = .ok "p" := by decide
  obtain ⟨u, hu, hkey⟩ := (listed_iff Hasher.plain_injective (hfp "g₁" (by simp))
    (hfp "g₂" (by simp))).mpr ⟨a, b, ha, hb, hca.trans hcb.symm, by decide, by decide, hfrom, hto,
      hlive⟩
  have hmem : first ∈ facts twoFacts "g₁" "k" := by
    show ∃ sf ∈ twoFacts.symbolFact.rows, ∃ gf ∈ presentFiles twoFacts "g₁",
      gf.revisionId = some sf.revisionId ∧ sf.canonicalSymbolKey = "k" ∧ first = sf.content gf
    decide
  have hnotMem : first ∉ facts twoFacts "g₂" "k" := by
    show ¬ ∃ sf ∈ twoFacts.symbolFact.rows, ∃ gf ∈ presentFiles twoFacts "g₂",
      gf.revisionId = some sf.revisionId ∧ sf.canonicalSymbolKey = "k" ∧ first = sf.content gf
    decide
  refine ⟨d, hd, ⟨u, hcontracts ▸ hu, ?_⟩, ?_⟩
  · rw [hkey]
    exact fun h => hnotMem (h ▸ hmem)
  · have hmoved : ¬ ∀ old ∈ filesFor twoFacts "g₁", ∀ f ∈ filesFor twoFacts "g₂",
        old.fileId = f.fileId → old.canonicalPath ≠ f.canonicalPath →
          old.contentHash = f.contentHash := by decide
    rw [hfiles]
    exact fun h => hmoved ((filesReported_iff
      (fun f hf f' hf' h => file_unique hf hf' (Or.inl h))
      fun f hf f' hf' h => file_unique hf hf' h).mp h)

end Unchanged

end Delta

end WorkspaceAtlas
