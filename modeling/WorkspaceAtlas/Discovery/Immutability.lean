/-
# What a later reconcile does to a committed generation

The facts of a generation are those of the revisions of its present files, and a revision is
shared by every generation in which the file did not change.  The rows of an old generation
and its revisions stay as they are, and a built-in provider stores facts only under a new
revision; but a semantic provider stores the facts of a document under the revision that the
candidate has for its path, also when an older generation has it too.
-/
import WorkspaceAtlas.Discovery.Stages
import WorkspaceAtlas.Semantic.FactRows
import WorkspaceAtlas.Transition.Iteration

namespace WorkspaceAtlas

open Relational Transition

namespace Immutability

/-! ## The facts of a generation -/

/-- A present row of the generation. -/
def isPresentOf (gid : String) (gf : GenerationFile) : Bool :=
  gf.generationId = gid ∧ gf.presenceState = .present

/-- The symbol facts reachable from a generation, with the row they are reached through. -/
def reachableSymbols (c : Catalogue) (gid : String) : List (GenerationFile × SymbolFact) :=
  (c.generationFile.rows.filter (isPresentOf gid)).flatMap fun gf =>
    (c.facts.symbolFact.rows.filter fun f => some f.revisionId = gf.revisionId).map (gf, ·)

/-- The relationship facts reachable from a generation. -/
def reachableRelationships (c : Catalogue) (gid : String) :
    List (GenerationFile × RelationshipFact) :=
  (c.generationFile.rows.filter (isPresentOf gid)).flatMap fun gf =>
    (c.facts.relationshipFact.rows.filter fun f => some f.revisionId = gf.revisionId).map (gf, ·)

/-- The generation has a present row with the revision. -/
def Reaches (c : Catalogue) (gid rid : String) : Prop :=
  ∃ gf ∈ c.generationFile, isPresentOf gid gf = true ∧ gf.revisionId = some rid

/-! ## The system -/

/-- A reconcile of some workspace, or the end of a candidate that was left behind. -/
inductive Call where
  | reconcile (ws : Workspace) (input : ReconcileInput)
  | abandon (generationId : String)

/-- The facts that a generation had when it was activated. -/
structure Frozen where
  generationId : String
  symbols : List (GenerationFile × SymbolFact)
  relationships : List (GenerationFile × RelationshipFact)

/-- The facts of a generation now. -/
def Frozen.of (c : Catalogue) (gid : String) : Frozen :=
  ⟨gid, reachableSymbols c gid, reachableRelationships c gid⟩

/-- The catalogue, and what every activated generation had when it was activated. -/
structure FrozenState where
  catalogue : Catalogue
  frozen : List Frozen

/-- Some registered workspaces. -/
def FrozenState.start (workspaceIds : List String) : FrozenState :=
  ⟨Catalogue.registered workspaceIds, []⟩

/-- What is noted after a call with this result. -/
def noteFrozen (c : Catalogue) (frozen : List Frozen) :
    Except AtlasError ReconcileReport → List Frozen
  | .ok report =>
    if report.activated then .of c report.candidateGenerationId :: frozen else frozen
  | .error _ => frozen

/-- One call. -/
def step (env : Environment) (s : FrozenState) : Call → FrozenState
  | .reconcile ws input =>
    let outcome := reconcile env s.catalogue ws input
    ⟨outcome.1, noteFrozen outcome.1 s.frozen outcome.2⟩
  | .abandon gid =>
    match abandonCandidate s.catalogue gid with
    | .ok c => { s with catalogue := c }
    | .error _ => s

/-- Every generation has the facts that it had when it was activated. -/
def Immutable (s : FrozenState) : Prop :=
  ∀ f ∈ s.frozen, Frozen.of s.catalogue f.generationId = f

/-- No document that the call stores gives a revision of an activated generation a fact that
is not stored yet. -/
def AddsToNone (env : Environment) (s : FrozenState) : Call → Prop
  | .reconcile ws input => ∀ files begun candidate walked,
    input.files = .ok files →
    withFault input.faults.begin (beginCandidate env.hasher s.catalogue ws.workspaceId .reconcile
      "p_reconcile_v1" "1.3.0" input.now) = .ok (begun, candidate) →
    files.mapM (hashWalked env input.policy) = .ok walked → input.faults.facts = none →
    ∀ st : FactsStages env begun ws.workspaceId candidate.generationId walked input.plans
      input.now,
    ∀ f ∈ s.frozen, ∀ rid, Reaches s.catalogue f.generationId rid →
      ¬ AddsUnder env.hasher st.deleted.facts st.deleted.generationFile candidate.generationId
        input.plans rid
  | .abandon _ => True

/-! ## What a call adds -/

/-- The rows of the generations other than `gid` are the same, and the new facts are of
revisions that meet `P`. -/
structure Growth (gid : String) (P : String → Prop) (c c' : Catalogue) : Prop where
  rows : ∀ g, g ≠ gid →
    c'.generationFile.rows.filter (isPresentOf g) = c.generationFile.rows.filter (isPresentOf g)
  revisions : ∀ r ∈ c.fileRevision, r ∈ c'.fileRevision
  facts : Adds P c.facts c'.facts

/-- Every member row with a revision has one that is stored. -/
def MembersRevised (c : Catalogue) : Prop :=
  ∀ gf ∈ c.generationFile, ∀ rid, gf.revisionId = some rid → c.hasRevision rid = true

section Lemmas

variable {env : Environment} {c c' c'' begun recorded : Catalogue} {ws gid : String}
  {now : Timestamp} {P Q : String → Prop} {walked : List Walked} {plans : List SemanticPlan}

lemma Growth.refl (gid : String) (P : String → Prop) (c : Catalogue) : Growth gid P c c :=
  ⟨fun _ _ => rfl, fun _ hr => hr, .refl _ _⟩

lemma Growth.trans (h : Growth gid P c c') (h' : Growth gid P c' c'') : Growth gid P c c'' :=
  ⟨fun g hg => (h'.rows g hg).trans (h.rows g hg), fun r hr => h'.revisions r (h.revisions r hr),
    h.facts.trans h'.facts⟩

lemma Growth.imp (h : Growth gid P c c') (hPQ : ∀ r, P r → Q r) : Growth gid Q c c' :=
  ⟨h.rows, h.revisions, h.facts.imp hPQ⟩

/-- An upsert of a row of `gid` leaves the rows of the other generations alone. -/
lemma filter_upsert {row : GenerationFile} {f : Table.Update GenerationFile}
    {files : Table GenerationFile} (hf : KeepsMember f) (hrow : row.generationId = gid)
    (h : c.generationFile.upsert? (isTarget row) row f = some files) {g : String} (hg : g ≠ gid) :
    files.rows.filter (isPresentOf g) = c.generationFile.rows.filter (isPresentOf g) := by
  have htarget : ∀ x, isTarget row x = true → x.generationId = gid := by
    intro x hx
    simp only [isTarget, Bool.decide_and, Bool.and_eq_true, decide_eq_true_eq] at hx
    exact hx.1.trans hrow
  have hother : ∀ x : GenerationFile, x.generationId = gid → isPresentOf g x = false := by
    intro x hx
    have hne : gid ≠ g := Ne.symm hg
    simp [isPresentOf, hx, hne]
  refine Table.filter_upsert? h (hother row hrow) (fun x hx => hother x (htarget x hx)) ?_
  intro x hx
  exact hother (f x) ((hf.generationId x).trans (htarget x hx))

/-- A present file adds the facts of a revision that was not there. -/
lemma recordPresent_growth {path : String} {content : HashedContent} {text : Option String}
    {isNew : Bool} (hm : MembersRevised c)
    (h : recordPresent env ws gid now c path content text = .ok (c', isNew)) :
    Growth gid (fun r => c.hasRevision r = false) c c' ∧ MembersRevised c' := by
  obtain ⟨identities, fileId, revisions, revisionId, files, facts, -, hrev, hups, hfacts, rfl⟩ :=
    recordPresent_ok h
  have hold : ∀ r ∈ c.fileRevision, r ∈ revisions := by
    cases hrev with
    | found hr hmat => exact fun r hr => hr
    | created hins => exact fun r hr => (Table.mem_of_insert? hins).mpr (Or.inl hr)
  have hhas : ∃ r ∈ revisions, r.revisionId = revisionId := by
    cases hrev with
    | @found r hr hmat => exact ⟨r, hr, rfl⟩
    | created hins => exact ⟨_, (Table.mem_of_insert? hins).mpr (Or.inr rfl), rfl⟩
  refine ⟨⟨fun g hg => filter_upsert ⟨fun _ => rfl, fun _ => rfl, fun _ => rfl⟩ rfl hups hg, hold,
    ?_⟩, ?_⟩
  · cases hrev with
    | found hr hmat =>
      obtain rfl : facts = c.facts := by simpa using hfacts
      exact .refl _ _
    | created hins =>
      have hadds : Adds (· = (revisionRow env.hasher fileId content now).revisionId) c.facts facts :=
        persistProviderBatch_adds (by simpa using hfacts)
      refine hadds.imp ?_
      rintro r rfl
      rw [Bool.eq_false_iff]
      intro hr
      obtain ⟨x, hx, hid⟩ := hasRevision_iff.mp hr
      exact Table.not_clash_of_insert? hins x hx (Or.inl hid)
  · intro gf hgf rid hrid
    refine hasRevision_iff.mpr ?_
    have hmem : gf ∈ files := hgf
    have hcases : gf ∈ c.generationFile ∨ gf.revisionId = some revisionId := by
      rcases Table.upsert?_cases hups with ⟨-, rfl⟩ | ⟨-, hins⟩
      · obtain ⟨x, hx, rfl⟩ := Table.mem_update.mp hmem
        split
        · exact Or.inr rfl
        · exact Or.inl hx
      · rcases (Table.mem_of_insert? hins).mp hmem with hgf | rfl
        · exact Or.inl hgf
        · exact Or.inr rfl
    rcases hcases with hgf | hsame
    · obtain ⟨r, hr, hid⟩ := hasRevision_iff.mp (hm gf hgf rid hrid)
      exact ⟨r, hold r hr, hid⟩
    · obtain rfl := Option.some.inj (hsame.symm.trans hrid)
      exact hhas

/-- Any other file adds no fact. -/
lemma recordSkipped_growth {path : String} {kind : SkipKind} {code detail : String}
    (hm : MembersRevised c)
    (h : recordSkipped env ws gid now c path kind code detail = .ok c') :
    Growth gid (fun r => c.hasRevision r = false) c c' ∧ MembersRevised c' := by
  obtain ⟨files, hups, rfl⟩ := recordSkipped_ok h
  refine ⟨⟨fun g hg => filter_upsert ⟨fun _ => rfl, fun _ => rfl, fun _ => rfl⟩ rfl hups hg,
    fun r hr => hr, .refl _ _⟩, ?_⟩
  intro gf hgf rid hrid
  have hmem : gf ∈ files := hgf
  have hcases : ∃ x ∈ c.generationFile, gf.revisionId = x.revisionId ∨ gf.revisionId = none := by
    rcases Table.upsert?_cases hups with ⟨-, rfl⟩ | ⟨-, hins⟩
    · obtain ⟨x, hx, rfl⟩ := Table.mem_update.mp hmem
      refine ⟨x, hx, Or.inl ?_⟩
      split
      · rfl
      · rfl
    · rcases (Table.mem_of_insert? hins).mp hmem with hgf | rfl
      · exact ⟨gf, hgf, Or.inl rfl⟩
      · exact absurd hrid (by simp [skippedRow])
  obtain ⟨x, hx, hsame | hnone⟩ := hcases
  · exact hm x hx rid (hsame.symm.trans hrid)
  · exact absurd (hnone.symm.trans hrid) (by simp)

lemma Growth.hasRevision (h : Growth gid P c c') {r : String} (hr : c.hasRevision r = true) :
    c'.hasRevision r = true := by
  obtain ⟨x, hx, hid⟩ := hasRevision_iff.mp hr
  exact hasRevision_iff.mpr ⟨x, h.revisions x hx, hid⟩

/-- **The walk** adds facts of new revisions only. -/
lemma walk_growth {n n' : ℕ} (hm : MembersRevised c)
    (h : walked.foldlM (recordWalked env ws gid now) (c, n) = .ok (c', n')) :
    Growth gid (fun r => c.hasRevision r = false) c c' ∧ MembersRevised c' := by
  refine loop_preserves (I := fun s : Catalogue × ℕ =>
    Growth gid (fun r => c.hasRevision r = false) c s.1 ∧ MembersRevised s.1)
    ⟨.refl _ _ _, hm⟩ ?_ h
  rintro w - ⟨t, m⟩ ⟨t', m'⟩ ⟨hg, hmt⟩ hok
  have hnew : ∀ r, t.hasRevision r = false → c.hasRevision r = false := by
    intro r hr
    rw [Bool.eq_false_iff] at hr ⊢
    exact fun hold => hr (hg.hasRevision hold)
  have hone : Growth gid (fun r => t.hasRevision r = false) t t' ∧ MembersRevised t' := by
    cases w with
    | present path content text =>
      obtain ⟨isNew, hp⟩ := recordWalked_present hok
      exact recordPresent_growth hmt hp
    | skipped path kind code detail => exact recordSkipped_growth hmt (recordWalked_skipped hok)
  exact ⟨hg.trans (hone.1.imp hnew), hone.2⟩

/-- **The transaction of the facts** adds facts of new revisions, and of the revisions of
documents that are not stored. -/
lemma facts_growth (hm : MembersRevised begun)
    (st : FactsStages env begun ws gid walked plans now) (hst : st.Commits recorded) :
    Growth gid (fun r => begun.hasRevision r = false ∨
      AddsUnder env.hasher st.deleted.facts st.deleted.generationFile gid plans r) begun recorded ∧
      MembersRevised recorded := by
  obtain ⟨events, -, hrenamed⟩ := st.renamed_eq
  obtain ⟨events', tombstones, -, -, hdeleted⟩ := st.deleted_eq
  have hmrenamed : MembersRevised st.renamed := by
    rw [hrenamed]
    exact hm
  obtain ⟨hwalk, hmwalk⟩ := walk_growth hmrenamed st.walk_ok
  have hgrows := runSemanticReconcile_grows st.semantic_ok
  have hstart : Growth gid (fun r => begun.hasRevision r = false) begun st.deleted := by
    rw [hrenamed] at hwalk
    rw [hdeleted]
    exact ⟨hwalk.rows, hwalk.revisions, hwalk.facts⟩
  have hmdeleted : MembersRevised st.deleted := by
    rw [hdeleted]
    exact hmwalk
  obtain ⟨f, -, -, rfl⟩ := hst
  refine ⟨⟨hstart.rows, hstart.revisions, ?_⟩, hmdeleted⟩
  exact (hstart.facts.imp fun r hr => Or.inl hr).trans (hgrows.toAdds.imp fun r hr => Or.inr hr)

/-- A generation whose revisions get no new facts is what it was. -/
lemma Growth.frozen_eq (h : Growth gid P c c') {g : String} (hg : g ≠ gid)
    (hP : ∀ rid, Reaches c g rid → ¬ P rid) : Frozen.of c' g = Frozen.of c g := by
  have hreaches : ∀ gf ∈ c.generationFile.rows.filter (isPresentOf g), ∀ rid,
      gf.revisionId = some rid → ¬ P rid := by
    intro gf hgf rid hrid
    obtain ⟨hmem, hpres⟩ := List.mem_filter.mp hgf
    exact hP rid ⟨gf, hmem, hpres, hrid⟩
  have hsymbols : reachableSymbols c' g = reachableSymbols c g := by
    unfold reachableSymbols
    rw [h.rows g hg]
    refine List.flatMap_congr fun gf hgf => ?_
    rw [h.facts.symbols.filter_eq]
    intro f hf
    by_contra hmatch
    exact hreaches gf hgf f.revisionId (by simpa [eq_comm] using hmatch) hf
  have hrelationships : reachableRelationships c' g = reachableRelationships c g := by
    unfold reachableRelationships
    rw [h.rows g hg]
    refine List.flatMap_congr fun gf hgf => ?_
    rw [h.facts.relationships.filter_eq]
    intro f hf
    by_contra hmatch
    exact hreaches gf hgf f.revisionId (by simpa [eq_comm] using hmatch) hf
  rw [Frozen.of, Frozen.of, hsymbols, hrelationships]

/-! ## The invariant -/

/-- What the calls keep. -/
structure Inv (s : FrozenState) : Prop where
  known : ∀ f ∈ s.frozen, s.catalogue.hasGeneration f.generationId = true
  revised : MembersRevised s.catalogue
  immutable : Immutable s

lemma inv_start (workspaceIds : List String) : Inv (.start workspaceIds) :=
  ⟨fun _ hf => absurd hf (by simp [FrozenState.start]),
    fun _ hgf => absurd hgf Table.not_mem_empty,
    fun _ hf => absurd hf (by simp [FrozenState.start])⟩

/-- A change of the generations only. -/
lemma Inv.settle {s : FrozenState} (h : Inv s) {generations : Table IndexGeneration}
    (hc : c' = { s.catalogue with indexGeneration := generations })
    (hgens : ∀ id, s.catalogue.hasGeneration id = true → c'.hasGeneration id = true) :
    Inv { s with catalogue := c' } where
  known f hf := hgens _ (h.known f hf)
  revised := by
    show MembersRevised c'
    rw [hc]
    exact h.revised
  immutable f hf := by
    show Frozen.of c' f.generationId = f
    rw [hc]
    exact h.immutable f hf

lemma inv_step {s : FrozenState} (call : Call) (h : Inv s) (hcall : AddsToNone env s call) :
    Inv (step env s call) := by
  cases call with
  | abandon gid =>
    simp only [step]
    split
    next c habandon =>
      obtain ⟨-, rfl⟩ := leaveCandidate_ok habandon
      refine h.settle rfl fun id hid => ?_
      rw [hasGeneration_update keepsNumber_markAbandoned.generationId rfl]
      exact hid
    next => exact h
  | reconcile ws input =>
    have hend := reconcile_ending env s.catalogue ws input
    simp only [step]
    generalize reconcile env s.catalogue ws input = res at hend ⊢
    obtain ⟨c', r⟩ := res
    cases hend with
    | notBegun e hnot => exact h
    | @stopped begun candidate files e hfiles hbegin hnot =>
      obtain ⟨-, hbegin⟩ := withFault_ok.mp hbegin
      obtain ⟨b⟩ := beginCandidate_begun hbegin
      refine h.settle b.begun_eq fun id hid => ?_
      exact b.hasGeneration_iff.mpr (Or.inl hid)
    | @finished begun recorded candidate files walked facts report hfiles hbegin hwalked hfacts
        hreport =>
      obtain ⟨hfault, hfacts⟩ := withFault_ok.mp hfacts
      obtain ⟨-, hbegin'⟩ := withFault_ok.mp hbegin
      obtain ⟨b⟩ := beginCandidate_begun hbegin'
      obtain ⟨st, hst, -⟩ := factsTransaction_ok hfacts
      have hbegunRows : MembersRevised begun := by
        rw [b.begun_eq]
        exact h.revised
      obtain ⟨hgrowth, hrevised⟩ := facts_growth hbegunRows st hst
      obtain ⟨hworkspace, ⟨f, hf, -, hgens⟩, -⟩ := st.committed_rows hst
      obtain ⟨workspaces, p, f', sessions, hf', hframe⟩ := activateOrFail_frame input.faults
        recorded ws.workspaceId candidate.generationId facts.semantic
        (sourceTreeHash env.hasher (walked.filterMap Walked.presentHash?)) input.now
      have hhas : ∀ id, s.catalogue.hasGeneration id = true ∨ id = candidate.generationId →
          (activateOrFail input.faults recorded ws.workspaceId candidate.generationId
            facts.semantic (sourceTreeHash env.hasher (walked.filterMap Walked.presentHash?))
            input.now).1.hasGeneration id = true := by
        intro id hid
        rw [hframe, hasGeneration_update hf'.generationId rfl,
          hasGeneration_update hf.generationId hgens]
        exact b.hasGeneration_iff.mpr hid
      -- the facts of the generations activated so far
      have hold : ∀ fr ∈ s.frozen, Frozen.of recorded fr.generationId = fr := by
        intro fr hfr
        have hne : fr.generationId ≠ candidate.generationId := by
          intro heq
          exact absurd ((h.known fr hfr).symm.trans (heq ▸ b.fresh)) (by simp)
        refine (hgrowth.frozen_eq hne ?_).trans ?_
        · rintro rid ⟨gf, hgf, hpres, hrid⟩ (hnew | hadds)
          · exact absurd ((hbegunRows gf hgf rid hrid).symm.trans hnew) (by simp)
          · refine hcall files begun candidate walked hfiles hbegin hwalked hfault st fr hfr rid
              ⟨gf, ?_, hpres, hrid⟩ hadds
            rw [b.begun_eq] at hgf
            exact hgf
        · rw [b.begun_eq]
          exact h.immutable fr hfr
      have hcandidate := hreport.1
      show Inv ⟨_, if report.activated then _ :: s.frozen else s.frozen⟩
      have hkept : Inv ⟨(activateOrFail input.faults recorded ws.workspaceId
          candidate.generationId facts.semantic
          (sourceTreeHash env.hasher (walked.filterMap Walked.presentHash?)) input.now).1,
          s.frozen⟩ := by
        refine ⟨fun fr hfr => hhas _ (Or.inl (h.known fr hfr)), ?_, fun fr hfr => ?_⟩
        · rw [hframe]
          exact hrevised
        · show Frozen.of (activateOrFail _ _ _ _ _ _ _).1 _ = fr
          rw [hframe]
          exact hold fr hfr
      split
      next =>
        refine ⟨fun fr hfr => ?_, hkept.revised, fun fr hfr => ?_⟩
        · rcases List.mem_cons.mp hfr with rfl | hfr
          · exact hhas _ (Or.inr hcandidate)
          · exact hkept.known fr hfr
        · rcases List.mem_cons.mp hfr with rfl | hfr
          · rfl
          · exact hkept.immutable fr hfr
      next => exact hkept

end Lemmas

/-- A file that does not change. -/
def unchangedFile : List FileObservation := [.readable "a" [1]]

/-- Two reconciles of it without providers. -/
def unchangedCalls : List Call :=
  [.reconcile ⟨"ws", none⟩ (.ofFiles unchangedFile .none 0),
    .reconcile ⟨"ws", none⟩ (.ofFiles unchangedFile .none 0)]

/-- A provider that reports one reference from the file. -/
def referencePlan : SemanticPlan where
  providerName := "scip"
  providerVersion := "1"
  configurationHash := ""
  required := false
  enabled := true
  result := .executed [⟨⟨"a", .utf8, [], [⟨.references, "a", 0, 0, 0, 0, .symbol, "k", "s", 1,
    "scip_occurrence"⟩], false⟩, [1], some ""⟩]

/-- The file is reconciled without and then with the provider. -/
def providerEnabled : List Call :=
  [.reconcile ⟨"ws", none⟩ (.ofFiles unchangedFile .none 0),
    .reconcile ⟨"ws", none⟩ ⟨.ok unchangedFile, .none, [referencePlan], .none, 0⟩]

end Immutability

end WorkspaceAtlas
