/-
# What a temporal report claims

A report compares with the requested generation exactly if the parents of the active one lead to
it, unless another delta of the two generations is stored already: the derivation depends on the
files on the disk, the id of the delta does not, and what is stored is never replaced.  What a
report says of a file is what the active generation and the disk bear out.
-/
import WorkspaceAtlas.Catalogue.Ancestry
import WorkspaceAtlas.Delta.Store
import WorkspaceAtlas.Temporal.Report

namespace WorkspaceAtlas

open Relational Transition

namespace Temporal

/-! ## The statement -/

/-- The generations were written by the writers of some run. -/
def TemporalCatalogue.Written (H : Hasher) (c : TemporalCatalogue) : Prop :=
  ∃ workspaceIds calls,
    let s := run (Generations.step H) (Generations.GenerationState.start workspaceIds) calls
    c.workspace = s.catalogue.workspace ∧ c.tables.indexGeneration = s.catalogue.indexGeneration

/-- The requested generation is committed, and one or more parent links lead to it from the active
one. -/
def ReachedFromActive (c : TemporalCatalogue) (ws requested : String) : Prop :=
  (∃ g ∈ c.tables.indexGeneration, g.generationId = requested ∧ g.state = .committed) ∧
    ∃ active, capturedActiveGeneration c ws = .ok (some active) ∧
      Relation.TransGen (ParentLink c.tables.indexGeneration) active requested

/-- A path and a hash bind a change of a file: the path is that of the change, and it is present
with the hash. -/
def BindsFile (t : Delta.Tables) (genId : String) (r : TemporalChangeRecord)
    (b : String × String) : Prop :=
  r.changeKind ≠ .removed ∧ b.1 = r.entityId ∧
    ∃ gf ∈ t.generationFile, gf.generationId = genId ∧ gf.presenceState = .present ∧
      gf.canonicalPath = b.1 ∧
        ∃ fr ∈ t.fileRevision, gf.revisionId = some fr.revisionId ∧ fr.contentHash = b.2

/-- A path and a hash bind a symbol: the file is present with the hash, and its revision has a
fact of the symbol that a finished run found. -/
def BindsSymbol (t : Delta.Tables) (genId key : String) (b : String × String) : Prop :=
  ∃ gf ∈ t.generationFile, gf.generationId = genId ∧ gf.presenceState = .present ∧
    gf.canonicalPath = b.1 ∧
      ∃ fr ∈ t.fileRevision, gf.revisionId = some fr.revisionId ∧ fr.contentHash = b.2 ∧
        ∃ sf ∈ t.symbolFact, gf.revisionId = some sf.revisionId ∧ sf.canonicalSymbolKey = key ∧
          ∃ er ∈ t.extractorRun, er.extractorRunId = sf.extractorRunId ∧
            (er.status = .complete ∨ er.status = .partlyDone)

/-- The bytes of a path hash to what is bound to it. -/
def LiveMatches (H : Hasher) (live : LiveSource) (b : String × String) : Prop :=
  ∃ bytes, live b.1 = .content bytes ∧ contentHashOfBytes H bytes = b.2

/-- Exactly one pair binds, and the live bytes match it. -/
def Current (H : Hasher) (live : LiveSource) (Binds : String × String → Prop) : Prop :=
  ∃ b, (∀ b', Binds b' ↔ b' = b) ∧ LiveMatches H live b

/-- A report claims only what was checked. -/
structure ChecksOut (H : Hasher) (live : LiveSource) (t : Delta.Tables) (active : String)
    (report : TemporalReport) : Prop where
  files : ∀ r ∈ report.changes.records, r.category = "file" →
    (r.currentSourceStatus = some .verifiedCurrent ↔ Current H live (BindsFile t active r))
  contracts : ∀ r ∈ report.validity.records,
    (r.status = .verifiedCurrent ↔ Current H live (BindsSymbol t active r.entityId))
  changeTotal : report.changes.records.length + report.changes.omittedCount =
    report.changes.totalMatched
  categoryTotals : (report.changes.categoryTotals.map TemporalCategoryTotal.total).sum =
    report.changes.totalMatched
  validityTotal : report.validity.records.length + report.validity.omittedCount =
    report.validity.totalMatched

/-- The calls for a requested generation do what they should. -/
structure Explained (H : Hasher) (disk : Delta.WorkingDirectory) (live : LiveSource)
    (c : TemporalCatalogue) (ws requested : String) (maxRecords : ℤ) : Prop where
  available : (∃ deltas report, explainTemporalState H disk live c ws (some requested) maxRecords =
      .ok (deltas, report) ∧ report.historyState = .available) ↔ ReachedFromActive c ws requested
  checksOut : ∀ deltas report active, explainTemporalState H disk live c ws (some requested)
      maxRecords = .ok (deltas, report) → capturedActiveGeneration c ws = .ok (some active) →
    ChecksOut H live c.tables active report
  initial : ∀ more store deltas deltas' report report', maxRecords ≤ more →
    explainTemporalState H disk live c ws (some requested) maxRecords = .ok (deltas, report) →
    explainTemporalState H disk live { c with deltas := store } ws (some requested) more =
      .ok (deltas', report') →
    report.changes.records <+: report'.changes.records ∧
      report.validity.records <+: report'.validity.records

/-- No delta of the requested generation and the active one is stored that is not the one that the
catalogue and the working directory give. -/
def StoredAgrees (H : Hasher) (disk : Delta.WorkingDirectory) (c : TemporalCatalogue)
    (ws requested : String) : Prop :=
  ∀ active, capturedActiveGeneration c ws = .ok (some active) →
    ∀ delta, Delta.computeGenerationDelta H disk c.tables ws requested active = .ok delta →
      ∀ row ∈ c.deltas.generationDelta, row.deltaId = delta.deltaId →
        row.deltaHash = some delta.deltaHash

/-- Every generation that the parent links lead to has a committed parent. -/
def CyclicLinks (t : Table IndexGeneration) (ws active : String) : Prop :=
  ∀ b, Relation.ReflTransGen (ParentLink t) active b →
    ∃ g ∈ t, g.generationId = b ∧ g.workspaceId = ws ∧ g.state = .committed ∧
      g.parentGenerationId ≠ none

section Lemmas

variable {H : Hasher} {disk : Delta.WorkingDirectory} {live : LiveSource} {c : TemporalCatalogue}
  {t : Table IndexGeneration} {ws requested active gid a b : String} {g : IndexGeneration}
  {m toGen fromGen : GenerationMeta} {maxRecords more : ℤ} {deltas store : Delta.DeltaStore}
  {report : TemporalReport} {e : AtlasError} {delta : Delta.GenerationDelta}

/-! ## Ancestry -/

lemma committedGeneration_of_mem (hg : g ∈ t) (hst : g.state = .committed) :
    committedGeneration t g.workspaceId g.generationId =
      .ok ⟨g.generationId, g.parentGenerationId, g.sequenceNo⟩ := by
  have hfind : (t.find? fun x => x.generationId = g.generationId ∧
      x.workspaceId = g.workspaceId ∧ x.state = .committed) = some g := by
    rw [Table.find?_eq_some_iff]
    · exact ⟨hg, by simp [hst]⟩
    · intro x _ y _ hx hy
      simp only [decide_eq_true_eq] at hx hy
      exact Or.inl (hx.1.trans hy.1.symm)
  rw [committedGeneration, hfind]

lemma leads_iff : (parents t ws).Leads a b ↔ ∃ g ∈ t, g.generationId = a ∧ g.workspaceId = ws ∧
    g.state = .committed ∧ g.parentGenerationId = some b := by
  constructor
  · rintro ⟨m, hm, hlink⟩
    obtain ⟨g, hg, hid, hws, hst, rfl⟩ := committedGeneration_ok hm
    exact ⟨g, hg, hid, hws, hst, hlink⟩
  · rintro ⟨g, hg, rfl, rfl, hst, hparent⟩
    exact ⟨_, committedGeneration_of_mem hg hst, hparent⟩

lemma parentLink_of_leads (h : (parents t ws).Leads a b) : ParentLink t a b := by
  obtain ⟨g, hg, hid, -, -, hparent⟩ := leads_iff.mp h
  exact ⟨g, hg, hid, hparent⟩

/-- The walk over the parents of a generation. -/
lemma ensureAncestor_eq_ok_iff : ensureAncestor t ws requested toGen = .ok m ↔
    committedGeneration t ws requested = .ok m ∧ ∃ p, toGen.parentGenerationId = some p ∧
      Relation.ReflTransGen (parents t ws).Leads p requested := by
  rw [ensureAncestor, bind_ok]
  constructor
  · rintro ⟨x, hx, h⟩
    obtain ⟨r, hr, h⟩ := bind_ok.mp h
    obtain rfl := Except.ok.inj h
    obtain ⟨g, -, hid, -, -, rfl⟩ := committedGeneration_ok hx
    dsimp only at hr
    refine ⟨hx, ?_⟩
    cases hp : toGen.parentGenerationId with
    | none =>
      rw [hp, Links.chase] at hr
      exact absurd hr (by simp)
    | some p =>
      rw [hp, Links.chase_eq_ok_iff ⟨List.not_mem_nil, fun x hx => absurd hx List.not_mem_nil⟩] at hr
      exact ⟨p, rfl, hid ▸ hr.1⟩
  · rintro ⟨hm, p, hp, hreach⟩
    obtain ⟨g, -, rfl, -, -, rfl⟩ := committedGeneration_ok hm
    refine ⟨_, hm, bind_ok.mpr ⟨⟨g.generationId, g.parentGenerationId, g.sequenceNo⟩, ?_, rfl⟩⟩
    rw [hp, Links.chase_eq_ok_iff ⟨List.not_mem_nil, fun x hx => absurd hx List.not_mem_nil⟩]
    exact ⟨hreach, hm⟩

/-- Links that lead back past the requested generation end in an error. -/
lemma ensureAncestor_cyclic (hcyclic : CyclicLinks t ws active)
    (hto : committedGeneration t ws active = .ok toGen)
    (hm : committedGeneration t ws requested = .ok m)
    (hreach : ¬ Relation.TransGen (ParentLink t) active requested) :
    ensureAncestor t ws requested toGen = .error cyclicAncestry := by
  obtain ⟨g, hg, hid, -, -, rfl⟩ := committedGeneration_ok hto
  obtain ⟨x, hx, hxid, -, -, hxparent⟩ := hcyclic active .refl
  obtain rfl : x = g := Table.eq_of_clash hx hg (Or.inl (hxid.trans hid.symm))
  obtain ⟨p, hp⟩ := Option.ne_none_iff_exists'.mp hxparent
  have hfirst : ParentLink t active p := ⟨x, hx, hxid, hp⟩
  obtain ⟨y, -, hyid, -, -, rfl⟩ := committedGeneration_ok hm
  have hle : (parents t ws).Leads ≤ ParentLink t := fun _ _ h => parentLink_of_leads h
  have hlinks : ∀ b, Relation.ReflTransGen (parents t ws).Leads p b →
      Relation.ReflTransGen (ParentLink t) p b := Relation.ReflTransGen.mono hle p
  have hchase : (parents t ws).chase y.generationId cyclicAncestry
      (.invalidConfig ("generation " ++ requested ++
        " is not an ancestor of active generation " ++ x.generationId)) [] (some p) =
      .error cyclicAncestry := by
    refine Links.chase_eq_cyclic (fun b hb => ?_) fun hb => ?_
    · obtain ⟨z, hz, hzid, hzws, hzst, hzparent⟩ := hcyclic b (.head hfirst (hlinks b hb))
      obtain ⟨q, hq⟩ := Option.ne_none_iff_exists'.mp hzparent
      exact ⟨q, leads_iff.mpr ⟨z, hz, hzid, hzws, hzst, hq⟩⟩
    · exact hreach (hyid ▸ .head' hfirst (hlinks _ hb))
  rw [ensureAncestor, hm]
  dsimp only
  rw [hp]
  change ((parents t ws).chase _ _ _ _ _ >>= _) = _
  rw [hchase]
  rfl

/-! ## The call -/

lemma capturedActiveGeneration_ok (h : capturedActiveGeneration c ws = .ok (some active)) :
    ∃ w ∈ c.workspace, w.workspaceId = ws ∧ w.activeGenerationId = some active := by
  rw [capturedActiveGeneration] at h
  split at h
  next w hfind =>
    exact ⟨w, Table.mem_of_find? hfind, by simpa using Table.find?_some hfind, Except.ok.inj h⟩
  next => exact absurd h (by simp)

/-- What a call for a requested generation does that ends with a report. -/
structure Call (H : Hasher) (disk : Delta.WorkingDirectory) (live : LiveSource)
    (c : TemporalCatalogue) (ws requested : String) (maxRecords : ℤ) (deltas : Delta.DeltaStore)
    (report : TemporalReport) (active : String) (toGen fromGen : GenerationMeta)
    (delta : Delta.GenerationDelta) : Prop where
  positive : 0 < maxRecords
  captured : capturedActiveGeneration c ws = .ok (some active)
  committed : committedGeneration c.tables.indexGeneration ws active = .ok toGen
  ancestor : ensureAncestor c.tables.indexGeneration ws requested toGen = .ok fromGen
  derived : Delta.computeGenerationDelta H disk c.tables ws fromGen.generationId
    toGen.generationId = .ok delta
  persisted : Delta.persistGenerationDelta H c.deltas delta = .ok deltas
  sealed : report = deltaReport H live c ws fromGen toGen delta maxRecords

lemma explain_eq_ok_iff :
    explainTemporalState H disk live c ws (some requested) maxRecords = .ok (deltas, report) ↔
      ∃ active toGen fromGen delta, Call H disk live c ws requested maxRecords deltas report active
        toGen fromGen delta := by
  rw [explainTemporalState, bind_ok]
  constructor
  · rintro ⟨captured, hcaptured, h⟩
    split at h
    next => exact absurd h (by simp)
    next hpositive =>
      cases captured with
      | none => exact absurd h (by simp)
      | some active =>
        obtain ⟨toGen, hto, h⟩ := bind_ok.mp h
        obtain ⟨fromGen?, hfrom, h⟩ := bind_ok.mp h
        rw [fromGeneration?] at hfrom
        cases hancestor : ensureAncestor c.tables.indexGeneration ws requested toGen with
        | error e =>
          rw [hancestor] at hfrom
          exact absurd hfrom (by simp [Functor.map, Except.map])
        | ok fromGen =>
          rw [hancestor] at hfrom
          obtain rfl : some fromGen = fromGen? := Except.ok.inj hfrom
          obtain ⟨delta, hdelta, h⟩ := bind_ok.mp h
          obtain ⟨deltas', hpersist, h⟩ := bind_ok.mp h
          obtain ⟨rfl, hreport⟩ := Prod.mk.inj (Except.ok.inj h)
          exact ⟨active, toGen, fromGen, delta, not_le.mp hpositive, hcaptured, hto, hancestor,
            hdelta, hpersist, hreport.symm⟩
  · rintro ⟨active, toGen, fromGen, delta, h⟩
    refine ⟨some active, h.captured, ?_⟩
    rw [if_neg (not_le.mpr h.positive)]
    refine bind_ok.mpr ⟨toGen, h.committed, bind_ok.mpr ⟨some fromGen, ?_, ?_⟩⟩
    · rw [fromGeneration?, h.ancestor]
      rfl
    · exact bind_ok.mpr ⟨delta, h.derived, bind_ok.mpr ⟨deltas, h.persisted, by rw [h.sealed]; rfl⟩⟩

/-- The walk ends in an error, and so does the call. -/
lemma explain_of_ancestor_error (hpositive : 0 < maxRecords)
    (hcaptured : capturedActiveGeneration c ws = .ok (some active))
    (hto : committedGeneration c.tables.indexGeneration ws active = .ok toGen)
    (hancestor : ensureAncestor c.tables.indexGeneration ws requested toGen = .error e) :
    explainTemporalState H disk live c ws (some requested) maxRecords = .error e := by
  rw [explainTemporalState, hcaptured]
  change (if maxRecords ≤ 0 then _ else _) = _
  rw [if_neg (not_le.mpr hpositive), hto]
  change (fromGeneration? _ _ _ _ >>= _) = _
  rw [fromGeneration?, hancestor]
  rfl

/-! ## What is reached -/

/-- The links from a committed generation are links between committed ones. -/
lemma transGen_leads_iff (hparents : Generations.ParentsCommitted t) (hg : g ∈ t)
    (hst : g.state = .committed) :
    Relation.TransGen (parents t g.workspaceId).Leads g.generationId b ↔
      Relation.TransGen (ParentLink t) g.generationId b := by
  constructor
  · intro h
    exact Relation.TransGen.mono (fun _ _ h => parentLink_of_leads h) _ _ h
  · intro h
    induction h with
    | single hlink =>
      obtain ⟨x, hx, hid, hp⟩ := hlink
      obtain rfl : x = g := Table.eq_of_clash hx hg (Or.inl hid)
      exact .single (leads_iff.mpr ⟨x, hx, rfl, rfl, hst, hp⟩)
    | tail hlinks hlink ih =>
      obtain ⟨x, hx, hid, hp⟩ := hlink
      obtain ⟨z, hz, hzid, hzws, hzst, -⟩ := hparents.of_links hg hlinks
      obtain rfl : x = z := Table.eq_of_clash hx hz (Or.inl (hid.trans hzid.symm))
      exact ih.tail (leads_iff.mpr ⟨x, hx, hid, hzws, hzst, hp⟩)

variable (requested) in
/-- In a catalogue that was written so, the walk finds what the links lead to. -/
lemma ancestor_iff_links (hwritten : c.Written H)
    (hcaptured : capturedActiveGeneration c ws = .ok (some active)) :
    ∃ toGen, committedGeneration c.tables.indexGeneration ws active = .ok toGen ∧
      ((∃ fromGen, ensureAncestor c.tables.indexGeneration ws requested toGen = .ok fromGen) ↔
        Relation.TransGen (ParentLink c.tables.indexGeneration) active requested) ∧
      (Relation.TransGen (ParentLink c.tables.indexGeneration) active requested →
        requested ≠ active) := by
  obtain ⟨workspaceIds, calls, hworkspace, hgenerations⟩ := hwritten
  have hancestry := Generations.ancestry_run H workspaceIds calls
  obtain ⟨w, hw, rfl, hactive⟩ := capturedActiveGeneration_ok hcaptured
  obtain ⟨g, hg, rfl, hws, hst⟩ := hancestry.active w (hworkspace ▸ hw) active hactive
  have hparents := hancestry.parent
  rw [← hgenerations] at hg hparents
  rw [← hws]
  refine ⟨_, committedGeneration_of_mem hg hst, ?_, fun hlinks heq => ?_⟩
  swap
  · -- the numbers become smaller
    obtain ⟨x, hx, hid, -, -, hlt⟩ := hparents.of_links hg hlinks
    obtain rfl : x = g := Table.eq_of_clash hx hg (Or.inl (hid.trans heq))
    exact absurd hlt (lt_irrefl _)
  rw [← transGen_leads_iff hparents hg hst, Relation.TransGen.head'_iff]
  simp only [ensureAncestor_eq_ok_iff]
  constructor
  · rintro ⟨fromGen, -, p, hp, hreach⟩
    exact ⟨p, leads_iff.mpr ⟨g, hg, rfl, rfl, hst, hp⟩, hreach⟩
  · rintro ⟨p, hlead, hreach⟩
    obtain ⟨y, hy, hyid, -, -, hp⟩ := leads_iff.mp hlead
    obtain rfl : y = g := Table.eq_of_clash hy hg (Or.inl hyid)
    have hlinks := (transGen_leads_iff hparents hg hst).mp (.head' hlead hreach)
    obtain ⟨x, hx, rfl, hxws, hxst, -⟩ := hparents.of_links hg hlinks
    exact ⟨_, hxws ▸ committedGeneration_of_mem hx hxst, p, hp, hreach⟩

/-! ## What is verified -/

section Records

variable {tables : Delta.Tables} {r : TemporalChangeRecord} {path hash hash' key : String}
  {p : String × String} {contract : Delta.UnchangedContract}

lemma verifyLiveHash_eq_verifiedCurrent :
    (verifyLiveHash H live path hash).1 = .verifiedCurrent ↔ LiveMatches H live (path, hash) := by
  rw [verifyLiveHash, LiveMatches]
  cases live path with
  | notConfined => simp
  | unreadable => simp
  | content bytes =>
    dsimp only
    split
    next h => exact iff_of_true rfl ⟨bytes, rfl, h⟩
    next h =>
      refine iff_of_false (by simp) ?_
      rintro ⟨bytes', hbytes, h'⟩
      obtain rfl := SourceRead.content.inj hbytes
      exact h h'

lemma mem_indexedHashes : hash ∈ indexedHashes tables gid path ↔
    ∃ gf ∈ tables.generationFile, gf.generationId = gid ∧ gf.presenceState = .present ∧
      gf.canonicalPath = path ∧
        ∃ fr ∈ tables.fileRevision, gf.revisionId = some fr.revisionId ∧ fr.contentHash = hash := by
  simp only [indexedHashes, List.mem_map, Prod.exists, mem_join, Delta.presentFiles,
    List.mem_filter, decide_eq_true_eq]
  constructor
  · rintro ⟨gf, fr, ⟨⟨⟨hgf, hgen, hpresent⟩, hpath⟩, hfr, hrev⟩, rfl⟩
    exact ⟨gf, hgf, hgen, hpresent, hpath, fr, hfr, hrev, rfl⟩
  · rintro ⟨gf, hgf, hgen, hpresent, hpath, fr, hfr, hrev, rfl⟩
    exact ⟨gf, fr, ⟨⟨⟨hgf, hgen, hpresent⟩, hpath⟩, hfr, hrev⟩, rfl⟩

/-- A path of a generation is that of one file, which has one revision. -/
lemma indexedHashes_unique (h : hash ∈ indexedHashes tables gid path)
    (h' : hash' ∈ indexedHashes tables gid path) : hash = hash' := by
  obtain ⟨gf, hgf, hgen, -, hpath, fr, hfr, hrev, rfl⟩ := mem_indexedHashes.mp h
  obtain ⟨gf', hgf', hgen', -, hpath', fr', hfr', hrev', rfl⟩ := mem_indexedHashes.mp h'
  obtain rfl : gf = gf' := Table.eq_of_clash hgf hgf'
    ⟨hgen.trans hgen'.symm, Or.inr (hpath.trans hpath'.symm)⟩
  obtain rfl : fr = fr' := Table.eq_of_clash hfr hfr'
    (Or.inl (Option.some.inj (hrev.symm.trans hrev')))
  rfl

lemma bindsFile_iff : BindsFile tables gid r p ↔
    r.changeKind ≠ .removed ∧ p.1 = r.entityId ∧ p.2 ∈ indexedHashes tables gid r.entityId := by
  rw [BindsFile, mem_indexedHashes]
  exact and_congr_right fun _ => and_congr_right fun hpath => by rw [hpath]

/-- The annotation leaves the change itself as it is. -/
lemma annotate_change (H : Hasher) (live : LiveSource) (tables : Delta.Tables) (gid : String)
    (r : TemporalChangeRecord) :
    (annotateCurrentFileSource H live tables gid r).category = r.category ∧
      (annotateCurrentFileSource H live tables gid r).changeKind = r.changeKind ∧
        (annotateCurrentFileSource H live tables gid r).entityId = r.entityId := by
  rw [annotateCurrentFileSource]
  split
  · exact ⟨rfl, rfl, rfl⟩
  · split <;> exact ⟨rfl, rfl, rfl⟩

/-- **A change of a file** is current if and only if one pair binds it and is borne out. -/
lemma annotate_verifiedCurrent (hfile : r.category = "file")
    (hnone : r.currentSourceStatus = none) :
    (annotateCurrentFileSource H live tables gid r).currentSourceStatus = some .verifiedCurrent ↔
      Current H live (BindsFile tables gid (annotateCurrentFileSource H live tables gid r)) := by
  have hbinds : BindsFile tables gid (annotateCurrentFileSource H live tables gid r) =
      BindsFile tables gid r := by
    obtain ⟨-, hkind, hentity⟩ := annotate_change H live tables gid r
    ext p
    rw [bindsFile_iff, bindsFile_iff, hkind, hentity]
  rw [hbinds, annotateCurrentFileSource]
  by_cases hremoved : r.changeKind = .removed
  · rw [if_pos (Or.inr hremoved), hnone]
    refine iff_of_false (by simp) ?_
    rintro ⟨p, hp, -⟩
    exact ((hp p).mpr rfl).1 hremoved
  rw [if_neg (by simp [hfile, hremoved])]
  cases hhead : (indexedHashes tables gid r.entityId).head? with
  | none =>
    refine iff_of_false (by simp) ?_
    rintro ⟨p, hp, -⟩
    have hmem := (bindsFile_iff.mp ((hp p).mpr rfl)).2.2
    rw [List.head?_eq_none_iff.mp hhead] at hmem
    exact absurd hmem List.not_mem_nil
  | some hash =>
    have hmem : hash ∈ indexedHashes tables gid r.entityId := List.mem_of_head? hhead
    have hone : ∀ p, BindsFile tables gid r p ↔ p = (r.entityId, hash) := by
      intro p
      rw [bindsFile_iff]
      constructor
      · rintro ⟨-, hpath, hp⟩
        exact Prod.ext hpath (indexedHashes_unique hp hmem)
      · rintro rfl
        exact ⟨hremoved, rfl, hmem⟩
    have hstatus : some (verifyLiveHash H live r.entityId hash).1 =
        some TemporalValidityStatus.verifiedCurrent ↔ LiveMatches H live (r.entityId, hash) := by
      rw [Option.some.injEq]
      exact verifyLiveHash_eq_verifiedCurrent
    refine hstatus.trans ⟨fun hlive => ⟨_, hone, hlive⟩, ?_⟩
    rintro ⟨p, hp, hlive⟩
    rwa [← (hone p).mp ((hp p).mpr rfl)]

lemma mem_bindingRows : toLex p ∈ bindingRows tables gid key ↔ BindsSymbol tables gid key p := by
  simp only [bindingRows, BindsSymbol, List.mem_flatMap, List.mem_map, List.mem_filter,
    Delta.presentFiles, decide_eq_true_eq]
  constructor
  · rintro ⟨gf, ⟨hgf, hgen, hpresent⟩, fr, ⟨hfr, hrev⟩, sf, ⟨hsf, hsfrev, hkey⟩, er, ⟨her, hrun,
      hstatus⟩, heq⟩
    obtain rfl : (gf.canonicalPath, fr.contentHash) = p := toLex.injective heq
    exact ⟨gf, hgf, hgen, hpresent, rfl, fr, hfr, hrev, rfl, sf, hsf, hsfrev, hkey, er, her, hrun,
      by simpa using hstatus⟩
  · rintro ⟨gf, hgf, hgen, hpresent, hpath, fr, hfr, hrev, hhash, sf, hsf, hsfrev, hkey, er, her,
      hrun, hstatus⟩
    refine ⟨gf, ⟨hgf, hgen, hpresent⟩, fr, ⟨hfr, hrev⟩, sf, ⟨hsf, hsfrev, hkey⟩, er, ⟨her, hrun,
      by simpa using hstatus⟩, ?_⟩
    rw [hpath, hhash]

/-- Two rows are enough to see whether there is one. -/
lemma symbolSourceBindings_eq_singleton :
    symbolSourceBindings tables gid key = [toLex p] ↔
      ∀ p', BindsSymbol tables gid key p' ↔ p' = p := by
  have hcut : ∀ l : List (String ×ₗ String), l.take 2 = [toLex p] ↔ l = [toLex p] := by
    intro l
    match l with
    | [] => simp
    | [x] => simp
    | x :: y :: l => simp
  have hself : SortedMap.sortedKeys [toLex p] = [toLex p] := by simp [SortedMap.sortedKeys]
  rw [symbolSourceBindings, hcut]
  conv_lhs => rw [← hself]
  rw [SortedMap.sortedKeys_eq_iff]
  constructor
  · intro h p'
    rw [← mem_bindingRows, h (toLex p'), List.mem_singleton, toLex.injective.eq_iff]
  · intro h x
    have hx := h (ofLex x)
    rw [← mem_bindingRows, toLex_ofLex] at hx
    rw [hx, List.mem_singleton]
    exact ⟨fun heq => by rw [← heq, toLex_ofLex], fun heq => by rw [heq, ofLex_toLex]⟩

/-- **An unchanged contract** is current if and only if one pair binds it and is borne out. -/
lemma verifyContract_verifiedCurrent :
    (verifyContract H live tables gid contract).status = .verifiedCurrent ↔
      Current H live (BindsSymbol tables gid contract.entityId) := by
  rw [verifyContract]
  split
  next binding hbindings =>
    have hone : ∀ p', BindsSymbol tables gid contract.entityId p' ↔ p' = ofLex binding :=
      symbolSourceBindings_eq_singleton.mp (by rw [hbindings, toLex_ofLex])
    refine verifyLiveHash_eq_verifiedCurrent.trans ⟨fun hlive => ⟨_, hone, hlive⟩, ?_⟩
    rintro ⟨p, hp, hlive⟩
    obtain rfl := (hone p).mp ((hp p).mpr rfl)
    exact hlive
  next hbindings =>
    refine iff_of_false (by simp) ?_
    rintro ⟨p, hp, -⟩
    exact hbindings _ (symbolSourceBindings_eq_singleton.mpr hp)

lemma verifyContract_entityId :
    (verifyContract H live tables gid contract).entityId = contract.entityId := by
  rw [verifyContract]
  split <;> rfl

end Records

/-! ## The report -/

lemma requireCommitted_of_committed {t : Delta.Tables}
    (h : committedGeneration t.indexGeneration ws gid = .ok m) :
    Delta.requireCommitted t ws gid = .ok () := by
  obtain ⟨g, hg, rfl, rfl, hst, -⟩ := committedGeneration_ok h
  have hfind : (t.indexGeneration.find? fun x => x.generationId = g.generationId ∧
      x.workspaceId = g.workspaceId) = some g := by
    rw [Table.find?_eq_some_iff]
    · exact ⟨hg, by simp⟩
    · intro x _ y _ hx hy
      simp only [decide_eq_true_eq] at hx hy
      exact Or.inl (hx.1.trans hy.1.symm)
  rw [Delta.requireCommitted, hfind]
  exact if_pos hst

variable (H disk) in
/-- Two different committed generations have a delta, and it passes its check. -/
lemma exists_delta {fromId toId : String} (hne : fromId ≠ toId)
    (hfrom : committedGeneration c.tables.indexGeneration ws fromId = .ok fromGen)
    (hto : committedGeneration c.tables.indexGeneration ws toId = .ok toGen) :
    ∃ delta, Delta.computeGenerationDelta H disk c.tables ws fromId toId = .ok delta ∧
      Delta.validateGenerationDelta H delta = .ok () := by
  have hfrom' := requireCommitted_of_committed hfrom
  have hto' := requireCommitted_of_committed hto
  obtain ⟨fp, hfp⟩ := Delta.exists_providerFingerprint hfrom'
  obtain ⟨fp', hfp'⟩ := Delta.exists_providerFingerprint hto'
  obtain ⟨delta, hdelta⟩ : ∃ delta, Delta.deriveDelta H disk ws fromId toId
      (Delta.snapshotOf H c.tables fromId fp) (Delta.snapshotOf H c.tables toId fp') = .ok delta :=
    Delta.exists_derived disk hne
  exact ⟨delta, (Delta.computeGenerationDelta_eq hfrom' hto' hfp hfp').trans hdelta,
    (Delta.Live.validate_of_derived hdelta).1⟩

/-- **A report** on a delta claims only what was checked. -/
lemma checksOut_deltaReport :
    ChecksOut H live c.tables toGen.generationId
      (deltaReport H live c ws fromGen toGen delta maxRecords) where
  files r hr hfile := by
    obtain ⟨r₀, hr₀, rfl⟩ := List.mem_map.mp hr
    obtain ⟨⟨category, changes⟩, -, hrecord⟩ := List.mem_flatMap.mp (List.mem_of_mem_take hr₀)
    obtain ⟨change, -, rfl⟩ := List.mem_map.mp hrecord
    obtain ⟨hcategory, -⟩ := annotate_change H live c.tables toGen.generationId
      ⟨category, change.entityId, change.changeKind, change.evidenceState, change.beforeId,
        change.afterId, change.reasonCodes, none, none, none⟩
    exact annotate_verifiedCurrent (hcategory.symm.trans hfile) rfl
  contracts r hr := by
    obtain ⟨contract, -, rfl⟩ := List.mem_map.mp hr
    rw [verifyContract_entityId]
    exact verifyContract_verifiedCurrent
  changeTotal := by
    simp only [deltaReport, TemporalReport.seal, summarizeChanges, List.length_map,
      List.length_take]
    omega
  categoryTotals := by
    simp only [deltaReport, TemporalReport.seal, summarizeChanges, List.length_flatMap,
      List.map_map]
    exact congrArg List.sum (List.map_congr_left fun x _ => (List.length_map _).symm)
  validityTotal := by
    simp only [deltaReport, TemporalReport.seal, summarizeValidity, List.length_map,
      List.length_take]
    omega

/-- A smaller bound leaves the first records. -/
lemma prefix_deltaReport (hle : maxRecords ≤ more) :
    (deltaReport H live c ws fromGen toGen delta maxRecords).changes.records <+:
        (deltaReport H live { c with deltas := store } ws fromGen toGen delta more).changes.records ∧
      (deltaReport H live c ws fromGen toGen delta maxRecords).validity.records <+:
        (deltaReport H live { c with deltas := store } ws fromGen toGen delta
          more).validity.records := by
  have hle' : maxRecords.toNat ≤ more.toNat := Int.toNat_le_toNat hle
  exact ⟨(List.take_prefix_take_left hle').map _, (List.take_prefix_take_left hle').map _⟩

/-! ## The theorem -/

lemma Call.ids (h : Call H disk live c ws requested maxRecords deltas report active toGen fromGen
    delta) : fromGen.generationId = requested ∧ toGen.generationId = active := by
  obtain ⟨g, -, hid, -, -, rfl⟩ := committedGeneration_ok (ensureAncestor_eq_ok_iff.mp h.ancestor).1
  obtain ⟨g', -, hid', -, -, rfl⟩ := committedGeneration_ok h.committed
  exact ⟨hid, hid'⟩

/-- Two calls read the same, whatever is stored. -/
lemma Call.unique {deltas' : Delta.DeltaStore} {report' : TemporalReport} {active' : String}
    {toGen' fromGen' : GenerationMeta} {delta' : Delta.GenerationDelta}
    (h : Call H disk live c ws requested maxRecords deltas report active toGen fromGen delta)
    (h' : Call H disk live { c with deltas := store } ws requested more deltas' report' active' toGen'
      fromGen' delta') :
    toGen = toGen' ∧ fromGen = fromGen' ∧ delta = delta' := by
  obtain rfl : active = active' :=
    Option.some.inj (Except.ok.inj (h.captured.symm.trans h'.captured))
  obtain rfl := Except.ok.inj (h.committed.symm.trans h'.committed)
  obtain rfl := Except.ok.inj (h.ancestor.symm.trans h'.ancestor)
  exact ⟨rfl, rfl, Except.ok.inj (h.derived.symm.trans h'.derived)⟩

variable (live) in
/-- A call ends with a report if the links lead to the requested generation and no other delta is
stored. -/
lemma exists_call (hpositive : 0 < maxRecords) (hwritten : c.Written H)
    (hstore : Delta.Persisted H c.deltas) (hreached : ReachedFromActive c ws requested)
    (hagrees : StoredAgrees H disk c ws requested) :
    ∃ deltas report active toGen fromGen delta,
      Call H disk live c ws requested maxRecords deltas report active toGen fromGen delta := by
  obtain ⟨-, active, hcaptured, hlinks⟩ := hreached
  obtain ⟨toGen, hto, hancestor, hne⟩ := ancestor_iff_links requested hwritten hcaptured
  obtain ⟨fromGen, hfrom⟩ := hancestor.mpr hlinks
  have hcommitted := (ensureAncestor_eq_ok_iff.mp hfrom).1
  obtain ⟨delta, hdelta, hvalid⟩ := exists_delta H disk (hne hlinks) hcommitted hto
  obtain ⟨deltas, hdeltas⟩ := (Delta.exists_persist_iff hstore.law hvalid).mpr
    (hagrees active hcaptured delta hdelta)
  obtain ⟨g, -, hid, -, -, rfl⟩ := committedGeneration_ok hcommitted
  obtain ⟨g', -, hid', -, -, rfl⟩ := committedGeneration_ok hto
  exact ⟨deltas, _, active, _, _, delta, hpositive, hcaptured, hto, hfrom,
    by rw [hid, hid']; exact hdelta, hdeltas, rfl⟩

/-- A call that ends with a report has persisted its delta, so no other one is stored. -/
lemma Call.storedAgrees (hstore : Delta.Persisted H c.deltas)
    (h : Call H disk live c ws requested maxRecords deltas report active toGen fromGen delta) :
    StoredAgrees H disk c ws requested := by
  obtain ⟨hfrom, hto⟩ := h.ids
  obtain ⟨hvalid, -⟩ := Delta.persist_cases h.persisted
  intro active' hcaptured delta' hdelta
  obtain rfl : active = active' :=
    Option.some.inj (Except.ok.inj (h.captured.symm.trans hcaptured))
  have hderived := h.derived
  rw [hfrom, hto] at hderived
  obtain rfl := Except.ok.inj (hderived.symm.trans hdelta)
  exact (Delta.exists_persist_iff hstore.law hvalid).mp ⟨deltas, h.persisted⟩

lemma storedAgrees_of_explained (hstore : Delta.Persisted H c.deltas)
    (h : Explained H disk live c ws requested maxRecords)
    (hreached : ReachedFromActive c ws requested) : StoredAgrees H disk c ws requested := by
  obtain ⟨deltas, report, hok, -⟩ := h.available.mpr hreached
  obtain ⟨active, toGen, fromGen, delta, hcall⟩ := explain_eq_ok_iff.mp hok
  exact hcall.storedAgrees hstore

/-- After a call with another working directory the stored delta agrees if and only if the two
agree on the unchanged symbols. -/
lemma storedAgrees_iff_sameMatches (hH : H.Injective) {disk' : Delta.WorkingDirectory}
    {fp fp' : String}
    (h : Call H disk live c ws requested maxRecords deltas report active toGen fromGen delta)
    (hfp : Delta.providerFingerprint c.tables requested = .ok fp)
    (hfp' : Delta.providerFingerprint c.tables active = .ok fp') (hne : requested ≠ active) :
    StoredAgrees H disk' { c with deltas := deltas } ws requested ↔
      Delta.Live.SameMatches H (Delta.snapshotOf H c.tables requested fp)
        (Delta.snapshotOf H c.tables active fp') disk disk' := by
  obtain ⟨hfrom, hto⟩ := h.ids
  have hrequested := requireCommitted_of_committed (ensureAncestor_eq_ok_iff.mp h.ancestor).1
  have hactive := requireCommitted_of_committed h.committed
  have hcompute : ∀ disk, Delta.computeGenerationDelta H disk c.tables ws requested active =
      Delta.deriveDelta H disk ws requested active (Delta.snapshotOf H c.tables requested fp)
        (Delta.snapshotOf H c.tables active fp') := fun disk =>
    Delta.computeGenerationDelta_eq hrequested hactive hfp hfp'
  have hderived := h.derived
  rw [hfrom, hto, hcompute] at hderived
  obtain ⟨delta', hderived'⟩ : ∃ delta', Delta.deriveDelta H disk' ws requested active
      (Delta.snapshotOf H c.tables requested fp) (Delta.snapshotOf H c.tables active fp') =
        .ok delta' := Delta.exists_derived disk' hne
  have hid : delta'.deltaId = delta.deltaId :=
    (Delta.Live.validate_of_derived hderived').2.trans (Delta.Live.validate_of_derived hderived).2.symm
  obtain ⟨row, hfind, hhash⟩ := Option.bind_eq_some_iff.mp (Delta.Live.hash_of_persist h.persisted)
  have hrow := Table.mem_of_find? hfind
  have hrowid : row.deltaId = delta.deltaId := by simpa using Table.find?_some hfind
  rw [← Delta.Live.deltaHash_eq_iff hH hderived hderived']
  constructor
  · intro hagrees
    have hstored := hagrees active h.captured delta' ((hcompute disk').trans hderived') row hrow
      (hrowid.trans hid.symm)
    exact Option.some.inj (hhash.symm.trans hstored)
  · intro heq active' hcaptured delta'' hdelta'' row' hrow' hrowid'
    obtain rfl : active = active' :=
      Option.some.inj (Except.ok.inj (h.captured.symm.trans hcaptured))
    obtain rfl := Except.ok.inj (((hcompute disk').trans hderived').symm.trans hdelta'')
    obtain rfl : row' = row :=
      Table.eq_of_clash hrow' hrow (Or.inl ((hrowid'.trans hid).trans hrowid.symm))
    rw [hhash, heq]

/-- **Temporal reports.**  Links that lead back end in an error; and in a catalogue that was
written by the writers of generations and deltas the calls for a generation do what they should
exactly if no other delta of it and the active generation is stored. -/
theorem explained_iff_storedAgrees (H : Hasher) (disk : Delta.WorkingDirectory) (live : LiveSource)
    (c : TemporalCatalogue) (ws requested : String) (maxRecords : ℤ) (hpositive : 0 < maxRecords)
    (hwritten : c.Written H) (hstore : Delta.Persisted H c.deltas) :
    (∀ (other : TemporalCatalogue) (active : String) (toGen m : GenerationMeta),
      capturedActiveGeneration other ws = .ok (some active) →
      committedGeneration other.tables.indexGeneration ws active = .ok toGen →
      committedGeneration other.tables.indexGeneration ws requested = .ok m →
      CyclicLinks other.tables.indexGeneration ws active →
      ¬ Relation.TransGen (ParentLink other.tables.indexGeneration) active requested →
      explainTemporalState H disk live other ws (some requested) maxRecords =
        .error cyclicAncestry) ∧
    (Explained H disk live c ws requested maxRecords ↔
      (ReachedFromActive c ws requested → StoredAgrees H disk c ws requested)) := by
  refine ⟨fun other active toGen m hcaptured hto hm hcyclic hreach =>
    explain_of_ancestor_error hpositive hcaptured hto (ensureAncestor_cyclic hcyclic hto hm hreach),
    storedAgrees_of_explained hstore, fun hagrees => ⟨⟨?_, fun hreached => ?_⟩, ?_, ?_⟩⟩
  · rintro ⟨deltas, report, hok, -⟩
    obtain ⟨active, toGen, fromGen, delta, hcall⟩ := explain_eq_ok_iff.mp hok
    obtain ⟨toGen', hto, hancestor, -⟩ :=
      ancestor_iff_links requested hwritten hcall.captured
    obtain rfl := Except.ok.inj (hto.symm.trans hcall.committed)
    obtain ⟨g, hg, hid, -, hst, -⟩ :=
      committedGeneration_ok (ensureAncestor_eq_ok_iff.mp hcall.ancestor).1
    exact ⟨⟨g, hg, hid, hst⟩, active, hcall.captured, hancestor.mp ⟨fromGen, hcall.ancestor⟩⟩
  · obtain ⟨deltas, report, active, toGen, fromGen, delta, hcall⟩ :=
      exists_call live hpositive hwritten hstore hreached (hagrees hreached)
    refine ⟨deltas, report, explain_eq_ok_iff.mpr ⟨active, toGen, fromGen, delta, hcall⟩, ?_⟩
    rw [hcall.sealed]
    rfl
  · intro deltas report active hok hcaptured
    obtain ⟨active', toGen, fromGen, delta, hcall⟩ := explain_eq_ok_iff.mp hok
    obtain rfl : active' = active :=
      Option.some.inj (Except.ok.inj (hcall.captured.symm.trans hcaptured))
    rw [hcall.sealed, ← hcall.ids.2]
    exact checksOut_deltaReport
  · intro more store deltas deltas' report report' hle hok hok'
    obtain ⟨active, toGen, fromGen, delta, hcall⟩ := explain_eq_ok_iff.mp hok
    obtain ⟨active', toGen', fromGen', delta', hcall'⟩ := explain_eq_ok_iff.mp hok'
    obtain ⟨rfl, rfl, rfl⟩ := hcall.unique hcall'
    rw [hcall.sealed, hcall'.sealed]
    exact prefix_deltaReport hle

end Lemmas

/-! ## A file that is deleted after a report -/

/-- A writer that begins two generations of a workspace, one after the other. -/
def twoActivations : List Generations.Call :=
  [.readParent 0 "ws", .readSequence 0, .insertCandidate 0 .baseline "p" "1" 0,
    .activate "ws" (generationId .plain "ws" 1) none 0,
    .readParent 0 "ws", .readSequence 0, .insertCandidate 0 .reconcile "p" "1" 0,
    .activate "ws" (generationId .plain "ws" 2) none 0]

/-- The file in a generation. -/
def unchangedFile (gid : String) : GenerationFile :=
  ⟨gid, "f", some "r", "src/a.ts", .present, none, none, none, none⟩

/-- The catalogue after them, with one unchanged file in which a symbol is defined. -/
def twoCommitted : TemporalCatalogue :=
  let s := run (Generations.step .plain) (.start ["ws"]) twoActivations
  let first := generationId .plain "ws" 1
  let second := generationId .plain "ws" 2
  { workspace := s.catalogue.workspace
    tables := { Delta.Live.oneSymbol with
      indexGeneration := s.catalogue.indexGeneration
      generationFile := (Table.empty.insertOrIgnore (unchangedFile first)).insertOrIgnore
        (unchangedFile second)
      coverageRecord := (Table.empty.insertOrIgnore
        ⟨"c₁", first, none, "workspace", "all", "complete", "[]", "[]", ""⟩).insertOrIgnore
          ⟨"c₂", second, none, "workspace", "all", "complete", "[]", "[]", ""⟩ }
    lifecycleEvent := .empty
    deltas := ⟨.empty, .empty⟩ }

/-- The file as it was captured. -/
def capturedSource : LiveSource := fun path =>
  if path = "src/a.ts" then .content [] else .unreadable

lemma written_twoCommitted : twoCommitted.Written .plain := ⟨["ws"], twoActivations, rfl, rfl⟩

lemma captured_twoCommitted : capturedActiveGeneration twoCommitted "ws" =
    .ok (some (generationId .plain "ws" 2)) := by decide

lemma reached_twoCommitted :
    ReachedFromActive twoCommitted "ws" (generationId .plain "ws" 1) := by
  have hfirst : ∃ g ∈ twoCommitted.tables.indexGeneration.rows,
      g.generationId = generationId .plain "ws" 1 ∧ g.state = .committed := by decide
  have hlink : ∃ g ∈ twoCommitted.tables.indexGeneration.rows,
      g.generationId = generationId .plain "ws" 2 ∧
        g.parentGenerationId = some (generationId .plain "ws" 1) := by decide
  exact ⟨hfirst, _, captured_twoCommitted, .single hlink⟩

/-- The symbol in a generation. -/
def unchangedSymbol (gid : String) : Delta.ReachableSymbol where
  fact := ⟨"s", "e", "r", "k", "function", "k", "k", none, none, none, "", "structural", 0, "node"⟩
  file := unchangedFile gid
  revision := ⟨"r", "f", contentHashOfBytes Hasher.plain [], 0, .source, none, false, false, 0⟩
  run := ⟨"e", "r", "ts", "1", .structural, "", "1", true, .complete, 0, none, 0, 0⟩

lemma symbols_twoCommitted :
    Delta.symbolsFor .plain twoCommitted.tables (generationId .plain "ws" 1) =
      Delta.symbolsFor .plain twoCommitted.tables (generationId .plain "ws" 2) := by
  have hfirst : Delta.symbolsQuery twoCommitted.tables (generationId .plain "ws" 1) =
      [unchangedSymbol (generationId .plain "ws" 1)] := by decide
  have hsecond : Delta.symbolsQuery twoCommitted.tables (generationId .plain "ws" 2) =
      [unchangedSymbol (generationId .plain "ws" 2)] := by decide
  -- a snapshot of a symbol does not say in which generation it was taken
  have hread : ∀ gid gid', Delta.readSymbol .plain (unchangedSymbol gid) =
      Delta.readSymbol .plain (unchangedSymbol gid') := fun _ _ => rfl
  rw [Delta.symbolsFor, hfirst, Delta.symbolsFor, hsecond, List.map_singleton, List.map_singleton,
    hread]

lemma relationships_twoCommitted :
    Delta.relationshipsFor twoCommitted.tables (generationId .plain "ws" 1) =
      Delta.relationshipsFor twoCommitted.tables (generationId .plain "ws" 2) := by
  have hfirst : Delta.relationshipsQuery twoCommitted.tables (generationId .plain "ws" 1) = [] := by
    decide
  have hsecond : Delta.relationshipsQuery twoCommitted.tables (generationId .plain "ws" 2) = [] := by
    decide
  rw [Delta.relationshipsFor, hfirst, Delta.relationshipsFor, hsecond]

lemma storedAgrees_twoCommitted (disk : Delta.WorkingDirectory) (requested : String) :
    StoredAgrees .plain disk twoCommitted "ws" requested :=
  fun _ _ _ _ _ hrow => absurd hrow Table.not_mem_empty

theorem explained_twoCommitted : Explained .plain Delta.Live.captured capturedSource twoCommitted
    "ws" (generationId .plain "ws" 1) 10 :=
  (explained_iff_storedAgrees .plain Delta.Live.captured capturedSource twoCommitted "ws"
    (generationId .plain "ws" 1) 10 (by decide) written_twoCommitted .nothing).2.mpr
    fun _ => storedAgrees_twoCommitted _ _

/-- A report is made, the file is deleted, and no report can be made any more. -/
theorem twoCommitted_not_explained : ∃ deltas report,
    explainTemporalState .plain Delta.Live.captured capturedSource twoCommitted "ws"
      (some (generationId .plain "ws" 1)) 10 = .ok (deltas, report) ∧
    report.historyState = .available ∧
    { twoCommitted with deltas := deltas }.Written .plain ∧
    Delta.Persisted .plain deltas ∧
    ReachedFromActive { twoCommitted with deltas := deltas } "ws" (generationId .plain "ws" 1) ∧
    (∃ e, explainTemporalState .plain Delta.Live.deleted (fun _ => .unreadable)
      { twoCommitted with deltas := deltas } "ws" (some (generationId .plain "ws" 1)) 10 =
        .error e) ∧
    ¬ Explained .plain Delta.Live.deleted (fun _ => .unreadable)
      { twoCommitted with deltas := deltas } "ws" (generationId .plain "ws" 1) 10 := by
  have hpositive : (0 : ℤ) < 10 := by decide
  obtain ⟨deltas, report, active, toGen, fromGen, delta, hcall⟩ :=
    exists_call capturedSource hpositive written_twoCommitted .nothing reached_twoCommitted
      (storedAgrees_twoCommitted Delta.Live.captured _)
  obtain rfl : active = generationId .plain "ws" 2 :=
    Option.some.inj (Except.ok.inj (hcall.captured.symm.trans captured_twoCommitted))
  have hpersisted : Delta.Persisted .plain deltas := .persist .nothing hcall.persisted
  have hnot : ¬ StoredAgrees .plain Delta.Live.deleted { twoCommitted with deltas := deltas } "ws"
      (generationId .plain "ws" 1) := by
    rw [storedAgrees_iff_sameMatches Hasher.plain_injective hcall
      (show Delta.providerFingerprint twoCommitted.tables _ = .ok "p" by decide)
      (show Delta.providerFingerprint twoCommitted.tables _ = .ok "p" by decide) (by decide)]
    exact Delta.Live.not_sameMatches_deleted symbols_twoCommitted relationships_twoCommitted
      (by decide) (by decide) (by decide)
  refine ⟨deltas, report, explain_eq_ok_iff.mpr ⟨_, toGen, fromGen, delta, hcall⟩, ?_,
    written_twoCommitted, hpersisted, reached_twoCommitted, ?_, fun h =>
      hnot (storedAgrees_of_explained hpersisted h reached_twoCommitted)⟩
  · rw [hcall.sealed]
    rfl
  · cases hsecond : explainTemporalState .plain Delta.Live.deleted (fun _ => .unreadable)
        { twoCommitted with deltas := deltas } "ws" (some (generationId .plain "ws" 1)) 10 with
    | error e => exact ⟨e, rfl⟩
    | ok res =>
      obtain ⟨active, toGen, fromGen, delta, hcall'⟩ := explain_eq_ok_iff.mp hsecond
      exact absurd (hcall'.storedAgrees hpersisted) hnot

end Temporal

end WorkspaceAtlas
