/-
# The impact frontier

`query::impact`: the files that depend on some seed files.  The structural dependents are found
by the raw target of a relationship; the verified and the uncertain ones are the sources of the
resolutions whose relationship has a raw target that is, or ends like, a seed.  What a
relationship was resolved to is not read.
-/
import WorkspaceAtlas.Serving.Counts
import WorkspaceAtlas.Text.Like

namespace WorkspaceAtlas

open Relational Text

/-! ## The query -/

/-- `ImpactOutput`. -/
structure ImpactOutput where
  ok : Bool
  generationId : Option String
  seedPaths : List String
  directDependents : List String
  tests : List String
  unresolved : List String
  verifiedDependents : List String
  uncertainDependents : List String
  deriving DecidableEq, Repr

/-- `ImpactFrontier`. -/
structure ImpactFrontier where
  verified : List String
  uncertain : List String
  deriving DecidableEq, Repr

/-- The statuses of what is verified. -/
def ResolutionStatus.isResolved : ResolutionStatus → Bool
  | resolvedSymbol | resolvedFile => true
  | ambiguous | unresolved | external | stale | invalid => false

/-- `split_impact_frontier`. -/
def splitImpactFrontier (outcomes : List (String × ResolutionOutcome)) : ImpactFrontier where
  verified := (outcomes.filter fun o => o.2.status.isResolved).map Prod.fst
  uncertain := (outcomes.filter fun o => !o.2.status.isResolved).map Prod.fst

/-- `seed.trim_start_matches("./")`. -/
def trimSeed (seed : String) : List Char := trimStartMatches '.' '/' seed.toList

/-- `rf.target_ref_value = ?2 OR rf.target_ref_value LIKE ?3`. -/
def targetMatches (seed target : String) : Bool :=
  target = seed ∨ like ('%' :: trimSeed seed) target.toList = true

/-- The rows of the first query: the files with a relationship whose raw target matches. -/
def dependentRows (c : Catalogue) (gid seed : String) : List String :=
  let revised := join c.facts.relationshipFact.rows c.fileRevision.rows fun rf fr =>
    fr.revisionId = rf.revisionId
  ((join revised (c.currentFileOf gid) fun p cf => cf.revisionId = some p.2.revisionId).filter
    fun row => (row.1.1.targetRefKind = .path ∨ row.1.1.targetRefKind = .external) ∧
      targetMatches seed row.1.1.targetRefValue = true).map fun row => row.2.canonicalPath

/-- The rows of the second query: the sources of the resolutions. -/
def outcomeRows (truth : Truth) (gid seed : String) : List (String × ResolutionOutcome) :=
  ((join truth.resolutions.rows truth.catalogue.facts.relationshipFact.rows fun rr rf =>
      rf.relationshipFactId = rr.relationshipFactId).filter fun row =>
    row.1.generationId = gid ∧ row.2.sourceRefKind = .path ∧
      targetMatches seed row.2.targetRefValue = true).map fun row =>
    (row.2.sourceRefValue, ⟨row.1.status, none, "persisted", 0, []⟩)

/-- The members of a `HashSet`, sorted. -/
def sortedSet (members : List String) : List String := members.dedup.insertionSort (· ≤ ·)

/-- `impact`. -/
def impact (truth : Truth) (workspaceId : String) (seedPaths : List String) : ImpactOutput :=
  match activeGeneration? truth.catalogue workspaceId with
  | none => ⟨true, none, seedPaths, [], [], [], [], []⟩
  | some gid =>
    let dependents := (seedPaths.flatMap (dependentRows truth.catalogue gid)).filter fun p =>
      p ∉ seedPaths
    let tests := dependents.filter fun p =>
      "test".toList <:+: p.toList ∨ "spec".toList <:+: p.toList
    let frontier := splitImpactFrontier (seedPaths.flatMap (outcomeRows truth gid))
    { ok := true
      generationId := some gid
      seedPaths := seedPaths
      directDependents := sortedSet dependents
      tests := sortedSet tests
      unresolved := []
      verifiedDependents := sortedSet frontier.verified
      uncertainDependents := sortedSet frontier.uncertain }

@[simp] lemma mem_sortedSet {p : String} {members : List String} :
    p ∈ sortedSet members ↔ p ∈ members := by
  rw [sortedSet, List.mem_insertionSort, List.mem_dedup]

namespace Impact

/-! ## The statement -/

/-- The path of a file that is a seed, which may be given with a leading `./`. -/
def IsSeed (seedPaths : List String) (path : String) : Prop :=
  ∃ seed ∈ seedPaths, path = seed ∨ path.toList = trimSeed seed

/-- A relationship of a file of the generation, and what was recorded for it. -/
structure Recorded (truth : Truth) (gid path : String) (f : RelationshipFact)
    (r : RelationshipResolution) : Prop where
  current : ∃ cf, (cf, f) ∈ truth.catalogue.currentRelationships gid ∧ cf.canonicalPath = path
  resolution_mem : r ∈ truth.resolutions
  generation_eq : r.generationId = gid
  fact_eq : r.relationshipFactId = f.relationshipFactId

/-- The key is one of a symbol that a seed file defines. -/
def DefinedInSeed (truth : Truth) (gid : String) (seedPaths : List String) (key : String) :
    Prop :=
  ∃ row ∈ truth.catalogue.currentSymbols gid, row.2.canonicalSymbolKey = key ∧
    IsSeed seedPaths row.1.canonicalPath

/-- The resolution names a seed file, or a symbol that one defines. -/
def NamesSeed (truth : Truth) (gid : String) (seedPaths : List String)
    (r : RelationshipResolution) : Prop :=
  r.status = .resolvedFile ∧ (∃ path, r.resolvedRefValue = some path ∧ IsSeed seedPaths path) ∨
    r.status = .resolvedSymbol ∧
      ∃ key, r.resolvedRefValue = some key ∧ DefinedInSeed truth gid seedPaths key

/-- Some relationship of the file is resolved to a seed. -/
def DependsOnSeed (truth : Truth) (gid : String) (seedPaths : List String) (path : String) :
    Prop :=
  ∃ f r, Recorded truth gid path f r ∧ NamesSeed truth gid seedPaths r

/-- The verified dependents are the resolved ones, no dependent is uncertain that is verified,
and no file is listed only because a target ends like a seed. -/
structure Exact (truth : Truth) (gid : String) (seedPaths : List String) (out : ImpactOutput) :
    Prop where
  verified : ∀ path, ¬ IsSeed seedPaths path →
    (path ∈ out.verifiedDependents ↔ DependsOnSeed truth gid seedPaths path)
  uncertain : ∀ path, ¬ IsSeed seedPaths path → path ∈ out.uncertainDependents →
    ¬ DependsOnSeed truth gid seedPaths path
  literal : ∀ path, ¬ IsSeed seedPaths path →
    path ∈ out.verifiedDependents ∨ path ∈ out.uncertainDependents →
      ∃ f r, Recorded truth gid path f r ∧
        (IsSeed seedPaths f.targetRefValue ∨ NamesSeed truth gid seedPaths r)

/-- The raw target is a seed, or some end of it is like one. -/
def SpelledLike (seedPaths : List String) (target : String) : Prop :=
  ∃ seed ∈ seedPaths, target = seed ∨
    ∃ rest, rest <:+ target.toList ∧ like (trimSeed seed) rest = true

/-- A relationship that has the path as its source and a raw target that is spelled like a seed,
and what was recorded for it. -/
structure Spelled (truth : Truth) (gid : String) (seedPaths : List String) (path : String)
    (f : RelationshipFact) (r : RelationshipResolution) : Prop where
  fact_mem : f ∈ truth.catalogue.facts.relationshipFact
  resolution_mem : r ∈ truth.resolutions
  generation_eq : r.generationId = gid
  fact_eq : r.relationshipFactId = f.relationshipFactId
  source_eq : f.sourceRefKind = .path ∧ f.sourceRefValue = path
  target : SpelledLike seedPaths f.targetRefValue

/-- Some relationship of the file was looked up, and found, by a path or a key of a seed. -/
def LinkedToSeed (truth : Truth) (gid : String) (seedPaths : List String) (path : String) :
    Prop :=
  ∃ f r, Recorded truth gid path f r ∧
    (r.status = .resolvedFile ∧ IsSeed seedPaths f.canonicalTargetValue ∨
      r.status = .resolvedSymbol ∧ DefinedInSeed truth gid seedPaths f.canonicalTargetValue)

/-- The raw targets tell the files apart that the looked up ones do. -/
structure TellsApart (truth : Truth) (gid : String) (seedPaths : List String) : Prop where
  /-- A file that is linked to a seed spells one. -/
  spelled : ∀ path, ¬ IsSeed seedPaths path → LinkedToSeed truth gid seedPaths path →
    ∃ f r, Spelled truth gid seedPaths path f r ∧ r.status.isResolved = true
  /-- What is resolved and spelled like a seed comes from a file that is linked to one. -/
  linked : ∀ path f r, ¬ IsSeed seedPaths path → Spelled truth gid seedPaths path f r →
    r.status.isResolved = true → LinkedToSeed truth gid seedPaths path
  /-- What is not resolved and spelled like a seed comes from a file that is linked to none,
  and one of the raw targets there is a seed. -/
  unlinked : ∀ path f r, ¬ IsSeed seedPaths path → Spelled truth gid seedPaths path f r →
    r.status.isResolved = false → ¬ LinkedToSeed truth gid seedPaths path ∧
      ∃ f' r', Recorded truth gid path f' r' ∧ IsSeed seedPaths f'.targetRefValue

section Lemmas

variable {truth : Truth} {gid ws path : String} {seedPaths : List String}
  {f : RelationshipFact} {r : RelationshipResolution}

lemma spelledLike_iff {target : String} :
    SpelledLike seedPaths target ↔ ∃ seed ∈ seedPaths, targetMatches seed target = true := by
  simp only [SpelledLike, targetMatches, like_percent, decide_eq_true_eq]

lemma mem_outcomeRows {o : ResolutionOutcome} :
    (path, o) ∈ seedPaths.flatMap (outcomeRows truth gid) ↔
      ∃ f r, Spelled truth gid seedPaths path f r ∧ o = ⟨r.status, none, "persisted", 0, []⟩ := by
  simp only [List.mem_flatMap, outcomeRows, List.mem_map, List.mem_filter, Prod.exists, mem_join,
    decide_eq_true_eq]
  constructor
  · rintro ⟨seed, hseed, r, f, ⟨⟨hr, hf, hid⟩, hgid, hkind, htarget⟩, heq⟩
    obtain ⟨rfl, rfl⟩ := Prod.mk.inj heq
    exact ⟨f, r, ⟨hf, hr, hgid, hid.symm, ⟨hkind, rfl⟩, spelledLike_iff.mpr ⟨seed, hseed, htarget⟩⟩,
      rfl⟩
  · rintro ⟨f, r, h, rfl⟩
    obtain ⟨seed, hseed, htarget⟩ := spelledLike_iff.mp h.target
    exact ⟨seed, hseed, r, f, ⟨⟨h.resolution_mem, h.fact_mem, h.fact_eq.symm⟩, h.generation_eq,
      h.source_eq.1, htarget⟩, by rw [h.source_eq.2]⟩

/-- Who is verified. -/
lemma mem_verified (hactive : activeGeneration? truth.catalogue ws = some gid) :
    path ∈ (impact truth ws seedPaths).verifiedDependents ↔
      ∃ f r, Spelled truth gid seedPaths path f r ∧ r.status.isResolved = true := by
  rw [impact, hactive]
  simp only [mem_sortedSet, splitImpactFrontier, List.mem_map, List.mem_filter, Prod.exists,
    mem_outcomeRows]
  constructor
  · rintro ⟨p, o, ⟨⟨f, r, h, rfl⟩, hstatus⟩, rfl⟩
    exact ⟨f, r, h, hstatus⟩
  · rintro ⟨f, r, h, hstatus⟩
    exact ⟨path, _, ⟨⟨f, r, h, rfl⟩, hstatus⟩, rfl⟩

/-- Who is uncertain. -/
lemma mem_uncertain (hactive : activeGeneration? truth.catalogue ws = some gid) :
    path ∈ (impact truth ws seedPaths).uncertainDependents ↔
      ∃ f r, Spelled truth gid seedPaths path f r ∧ r.status.isResolved = false := by
  rw [impact, hactive]
  simp only [mem_sortedSet, splitImpactFrontier, List.mem_map, List.mem_filter, Prod.exists,
    mem_outcomeRows, Bool.not_eq_true']
  constructor
  · rintro ⟨p, o, ⟨⟨f, r, h, rfl⟩, hstatus⟩, rfl⟩
    exact ⟨f, r, h, hstatus⟩
  · rintro ⟨f, r, h, hstatus⟩
    exact ⟨path, _, ⟨⟨f, r, h, rfl⟩, hstatus⟩, rfl⟩

lemma Recorded.fact_mem (h : Recorded truth gid path f r) :
    f ∈ truth.catalogue.facts.relationshipFact := by
  obtain ⟨cf, hcf, -⟩ := h.current
  exact (mem_join.mp hcf).2.1

/-- The resolver answers with what a relationship was looked up by. -/
lemma namesSeed_iff (hw : Counts.WrittenByResolver truth.catalogue.facts truth.resolutions gid)
    (h : Recorded truth gid path f r) : NamesSeed truth gid seedPaths r ↔
      r.status = .resolvedFile ∧ IsSeed seedPaths f.canonicalTargetValue ∨
        r.status = .resolvedSymbol ∧ DefinedInSeed truth gid seedPaths f.canonicalTargetValue := by
  obtain ⟨-, hsymbol, hfile⟩ := hw.outcome h.fact_mem h.resolution_mem h.generation_eq h.fact_eq
  refine or_congr (and_congr_right fun hstatus => ?_) (and_congr_right fun hstatus => ?_)
  · rw [hfile hstatus]
    simp
  · rw [(hsymbol hstatus).2]
    simp

lemma dependsOnSeed_iff
    (hw : Counts.WrittenByResolver truth.catalogue.facts truth.resolutions gid) :
    DependsOnSeed truth gid seedPaths path ↔ LinkedToSeed truth gid seedPaths path :=
  exists_congr fun _ => exists_congr fun _ => and_congr_right (namesSeed_iff hw)

end Lemmas

/-- **The frontier is exact** exactly when the raw targets tell the files apart that the looked
up ones do. -/
theorem exact_iff (truth : Truth) (workspaceId gid : String) (seedPaths : List String)
    (hactive : activeGeneration? truth.catalogue workspaceId = some gid)
    (hw : Counts.WrittenByResolver truth.catalogue.facts truth.resolutions gid) :
    Exact truth gid seedPaths (impact truth workspaceId seedPaths) ↔
      TellsApart truth gid seedPaths := by
  constructor
  · intro h
    have hlinked : ∀ path f r, ¬ IsSeed seedPaths path → Spelled truth gid seedPaths path f r →
        r.status.isResolved = true → LinkedToSeed truth gid seedPaths path :=
      fun path f r hpath hf hr =>
        (dependsOnSeed_iff hw).mp ((h.verified path hpath).mp ((mem_verified hactive).mpr
          ⟨f, r, hf, hr⟩))
    refine ⟨fun path hpath hlink => ?_, hlinked, fun path f r hpath hf hr => ?_⟩
    · exact (mem_verified hactive).mp
        ((h.verified path hpath).mpr ((dependsOnSeed_iff hw).mpr hlink))
    · have hmem := (mem_uncertain hactive).mpr ⟨f, r, hf, hr⟩
      have hnot := h.uncertain path hpath hmem
      obtain ⟨f', r', hrec, hseed | hnames⟩ := h.literal path hpath (Or.inr hmem)
      · exact ⟨fun hlink => hnot ((dependsOnSeed_iff hw).mpr hlink), f', r', hrec, hseed⟩
      · exact absurd ⟨f', r', hrec, hnames⟩ hnot
  · intro h
    have hverified : ∀ path, ¬ IsSeed seedPaths path →
        (path ∈ (impact truth workspaceId seedPaths).verifiedDependents ↔
          DependsOnSeed truth gid seedPaths path) := by
      intro path hpath
      rw [mem_verified hactive, dependsOnSeed_iff hw]
      refine ⟨?_, h.spelled path hpath⟩
      rintro ⟨f, r, hf, hr⟩
      exact h.linked path f r hpath hf hr
    refine ⟨hverified, fun path hpath hmem => ?_, fun path hpath hmem => ?_⟩
    · obtain ⟨f, r, hf, hr⟩ := (mem_uncertain hactive).mp hmem
      exact fun hdep => (h.unlinked path f r hpath hf hr).1 ((dependsOnSeed_iff hw).mp hdep)
    · rcases hmem with hmem | hmem
      · obtain ⟨f, r, hrec, hnames⟩ := (hverified path hpath).mp hmem
        exact ⟨f, r, hrec, Or.inr hnames⟩
      · obtain ⟨f, r, hf, hr⟩ := (mem_uncertain hactive).mp hmem
        obtain ⟨-, f', r', hrec, hseed⟩ := h.unlinked path f r hpath hf hr
        exact ⟨f', r', hrec, Or.inl hseed⟩

/-! ## A reference to another file -/

/-- `a` defines a symbol and `b` refers to it. -/
def otherFile : Catalogue :=
  { oneFile with
    fileRevision := oneFile.fileRevision.insertOrIgnore
      ⟨"r'", "f'", "", 1, .source, none, false, false, 0⟩
    generationFile := oneFile.generationFile.insertOrIgnore
      ⟨"g", "f'", some "r'", "b", .present, none, none, none, none⟩
    facts :=
      { oneFile.facts with
        extractorRun := oneFile.facts.extractorRun.insertOrIgnore
          ⟨"e'", "r'", "scip", "1", .semanticIndex, "", "", true, .complete, 0, none, 1, 1⟩
        relationshipFact := Table.empty.insertOrIgnore
          ⟨"rf", "e'", "r'", .references, .path, "b", .symbol, "s", [], .semantic, 9 / 10,
            "scip_occurrence", []⟩ } }

/-- The reference was resolved. -/
def otherReference : Truth where
  catalogue := otherFile
  resolutions :=
    runResolutionPass otherFile.facts otherFile.generationFile .empty "ws" "g" ["e", "e'"] 0
  effectFact := .empty
  evidenceConflict := .empty
  coverageRecord := .empty

lemma otherReference_written :
    Counts.WrittenByResolver otherReference.catalogue.facts otherReference.resolutions "g" :=
  Counts.writtenByResolver_pass fun _ hr => absurd hr Table.not_mem_empty

theorem exact_iff_otherReference :
    Exact otherReference "g" ["a"] (impact otherReference "ws" ["a"]) ↔
      TellsApart otherReference "g" ["a"] :=
  exact_iff otherReference "ws" "g" ["a"] (by decide) otherReference_written

/-- The file that refers to the symbol is not listed. -/
theorem otherReference_not_exact :
    (impact otherReference "ws" ["a"]).verifiedDependents = [] ∧
      DependsOnSeed otherReference "g" ["a"] "b" ∧
      ¬ Exact otherReference "g" ["a"] (impact otherReference "ws" ["a"]) := by
  have hnone : (impact otherReference "ws" ["a"]).verifiedDependents = [] := by decide +kernel
  have hseed : IsSeed ["a"] "a" := ⟨"a", List.mem_singleton_self _, Or.inl rfl⟩
  have hother : ¬ IsSeed ["a"] "b" := by
    rintro ⟨seed, hseed, h⟩
    obtain rfl := List.mem_singleton.mp hseed
    exact absurd h (by decide)
  have hrow : ∃ q ∈ otherFile.currentRelationships "g", q.1.canonicalPath = "b" ∧
      ∃ r ∈ otherReference.resolutions.rows, r.generationId = "g" ∧
        r.relationshipFactId = q.2.relationshipFactId ∧ r.status = .resolvedSymbol ∧
          r.resolvedRefValue = some "scip:s" := by
    decide +kernel
  have hsymbol : ∃ q ∈ otherFile.currentSymbols "g", q.2.canonicalSymbolKey = "scip:s" ∧
      q.1.canonicalPath = "a" := by
    decide
  obtain ⟨⟨cf, f⟩, hq, hpath, r, hr, hgid, hid, hstatus, hvalue⟩ := hrow
  obtain ⟨q, hq', hkey, hpath'⟩ := hsymbol
  have hdep : DependsOnSeed otherReference "g" ["a"] "b" :=
    ⟨f, r, ⟨⟨cf, hq, hpath⟩, hr, hgid, hid⟩,
      Or.inr ⟨hstatus, "scip:s", hvalue, q, hq', hkey, hpath' ▸ hseed⟩⟩
  refine ⟨hnone, hdep, fun h => ?_⟩
  have hmem := (h.verified "b" hother).mpr hdep
  rw [hnone] at hmem
  exact absurd hmem List.not_mem_nil

end Impact

end WorkspaceAtlas
