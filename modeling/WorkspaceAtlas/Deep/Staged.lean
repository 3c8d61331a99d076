/-
# Budgeting in stages

`enforce_precharged_additional_deep_v2_budget` in `task_compiler.rs` goes on where the budget
gate has stopped: it takes its counters from the document that records what was selected, and
the work of its candidates has been charged before.  It comes to what the gate comes to for all
the candidates at once.
-/
import WorkspaceAtlas.Deep.Document
import WorkspaceAtlas.Deep.Exact

namespace WorkspaceAtlas.Deep

open Relational Transition ContextRoute

/-! ## The gate for more candidates -/

/-- The variables of the loop. -/
structure StagedPacking where
  packing : Packing
  candidateIds : List String
  candidatesConsidered : ℕ
  omitted : ℕ

/-- The body of the loop. -/
def enforceAdditionalCandidate (B : Bounds) (workingSetLength : ℕ)
    (paidWorkSentinelId : Option String) (s : StagedPacking)
    (x : DeepV2BudgetCandidate × ℕ) : Except AtlasError StagedPacking := do
  let (candidate, offset) := x
  let expectedRank ← checkedAdd (.invalidConfig "V2 candidate rank overflow")
    workingSetLength offset
  ensure (candidate.workUnits = 1 ∧ candidate.candidateId ≠ "" ∧
      (utf8 candidate.candidateId).length ≤ 512 ∧ candidate.rank = expectedRank ∧
      candidate.candidateId ∉ s.candidateIds)
    (.invalidConfig ("precharged V2 candidates must use one work unit and have bounded unique " ++
      "identities in canonical rank order"))
  let considered ← checkedAdd (.invalidConfig "V2 candidate count overflow")
    s.candidatesConsidered 1
  let s := { s with
    candidateIds := candidate.candidateId :: s.candidateIds
    candidatesConsidered := considered }
  let omission := if paidWorkSentinelId = some candidate.candidateId then some .workUnitBudget
    else s.packing.omission B candidate
  match omission with
  | some reason =>
    let omitted ← checkedAdd (.invalidConfig "V2 omission count overflow") s.omitted 1
    let p ← s.packing.omit candidate reason "V2 omission count overflow"
    return { s with packing := p, omitted := omitted }
  | none =>
    let p ← s.packing.select candidate
    return { s with packing := p }

variable {F : Type}

/-- The bounds of a document. -/
def DeepContextIrV2.bounds (document : DeepContextIrV2 F) : Bounds where
  maxDepth := document.policy.semanticBudget.maxRelationshipDepth
  uncertaintyRecordsReserved := document.cost.uncertaintyRecordsReserved
  ordinaryRecordLimit :=
    document.policy.semanticBudget.maxRecords - document.cost.uncertaintyRecordsReserved
  maxSourceBytes := document.policy.semanticBudget.maxSourceBytes
  maxEstimatedTokens := document.policy.semanticBudget.maxEstimatedTokens

/-- `enforce_precharged_additional_deep_v2_budget`. -/
def enforcePrechargedAdditionalDeepV2Budget (document : DeepContextIrV2 F)
    (candidates : List DeepV2BudgetCandidate) (paidWorkSentinelId : Option String)
    (workLedger : DeepWorkLedger) : Except AtlasError DeepV2BudgetOutcome := do
  let budget := document.policy.semanticBudget
  ensure (workLedger.limit = budget.maxWorkUnits ∧
      workLedger.consumed = document.cost.workUnitsConsumed)
    (.invalidConfig "additional V2 budget work does not continue the request ledger")
  let selectedCandidateIds := document.workingSet.map IrWorkingSetItemV2.itemId
  ensure (document.cost.uncertaintyRecordsSelected ≤ document.cost.selectedRecords)
    (.invalidConfig "V2 record accounting underflow")
  let s ← candidates.zipIdx.foldlM
    (enforceAdditionalCandidate document.bounds document.workingSet.length paidWorkSentinelId)
    { packing := {
        selectedCandidateIds := selectedCandidateIds
        selectedSourceBytes := document.cost.selectedSourceBytes
        selectedEstimatedTokens := document.cost.selectedEstimatedTokens
        relationshipDepthReached := document.cost.relationshipDepthReached
        ordinaryRecordsSelected :=
          document.cost.selectedRecords - document.cost.uncertaintyRecordsSelected
        uncertaintyRecordsSelected := document.cost.uncertaintyRecordsSelected
        byReason := document.omissions.byReason
        omittedCandidates := [] }
      candidateIds := selectedCandidateIds
      candidatesConsidered := document.omissions.candidatesConsidered
      omitted := document.omissions.omitted }
  let selectedRecords := s.packing.selectedCandidateIds.length
  return {
    selectedCandidateIds := s.packing.selectedCandidateIds
    omittedCandidates := s.packing.omittedCandidates
    semanticBudget := budget
    cost := {
      selectedRecords := selectedRecords
      selectedSourceBytes := s.packing.selectedSourceBytes
      selectedEstimatedTokens := s.packing.selectedEstimatedTokens
      relationshipDepthReached := s.packing.relationshipDepthReached
      workUnitsConsumed := workLedger.consumed
      uncertaintyRecordsReserved := document.cost.uncertaintyRecordsReserved
      uncertaintyRecordsSelected := s.packing.uncertaintyRecordsSelected }
    omissions := {
      candidatesConsidered := s.candidatesConsidered
      selected := selectedRecords
      omitted := s.omitted
      truncated := s.omitted ≠ 0
      byReason := s.packing.byReason } }

/-! ## What the stages are for -/

/-- Some candidates with the ranks from a number on. -/
def ranked (n : ℕ) (l : List DeepV2BudgetCandidate) : List DeepV2BudgetCandidate :=
  l.mapIdx fun i c => { c with rank := n + i }

/-- A document records an outcome, behind which more work was charged. -/
structure Records (document : DeepContextIrV2 F) (o : DeepV2BudgetOutcome) (charged : ℕ) : Prop where
  budget : document.policy.semanticBudget = o.semanticBudget
  workingSet : document.workingSet.map IrWorkingSetItemV2.itemId = o.selectedCandidateIds
  cost : document.cost = { o.cost with workUnitsConsumed := o.cost.workUnitsConsumed + charged }
  omissions : document.omissions = o.omissions

/-- The candidates of both stages take one unit of work each and have bounded, distinct names; those
of the first one are in the order of their ranks. -/
structure Stages (A B : List DeepV2BudgetCandidate) : Prop where
  ranks : A.map DeepV2BudgetCandidate.rank = List.range A.length
  unit : ∀ c ∈ A ++ B, c.workUnits = 1
  bounded : ∀ c ∈ A ++ B, c.candidateId ≠ "" ∧ (utf8 c.candidateId).length ≤ 512
  nodup : ((A ++ B).map DeepV2BudgetCandidate.candidateId).Nodup

/-- The second stage comes to what both come to at once. -/
structure Agrees (one first second : DeepV2BudgetOutcome) : Prop where
  selected : second.selectedCandidateIds = one.selectedCandidateIds
  cost : second.cost = one.cost
  omissions : second.omissions = one.omissions
  omitted : one.omittedCandidates = first.omittedCandidates ++ second.omittedCandidates

section Lemmas

variable {budget : DeepSemanticBudget} {S A B cs l : List DeepV2BudgetCandidate}
  {c : DeepV2BudgetCandidate} {om new : List (DeepV2BudgetCandidate × IrOmissionReasonV2)}
  {s t : Spent} {w m n k considered : ℕ} {seen : List String} {r : IrOmissionReasonV2}

/-! ## The loop -/

/-- The variables of the loop, from what was selected, and what was omitted before the loop and
in it. -/
def StagedPacking.of (S : List DeepV2BudgetCandidate)
    (om new : List (DeepV2BudgetCandidate × IrOmissionReasonV2)) (seen : List String)
    (considered : ℕ) : StagedPacking where
  packing := .of S ((om ++ new).map Prod.snd) (listed new)
  candidateIds := seen
  candidatesConsidered := considered
  omitted := (om ++ new).length

/-- **One candidate.**  If its work was charged, the loop looks at it as the gate does. -/
lemma enforceAdditionalCandidate_of (S : List DeepV2BudgetCandidate)
    (om new : List (DeepV2BudgetCandidate × IrOmissionReasonV2)) (w : ℕ) (hfits : Fits budget)
    (hwork : w + c.workUnits ≤ budget.maxWorkUnits) (hunit : c.workUnits = 1)
    (hbounded : c.candidateId ≠ "" ∧ (utf8 c.candidateId).length ≤ 512) (hrank : c.rank = m + k)
    (hseen : c.candidateId ∉ seen) (hmk : m + k < 2 ^ 64) (hconsidered : considered + 1 < 2 ^ 64)
    (hom : (om ++ new).length + 1 < 2 ^ 64) :
    enforceAdditionalCandidate (boundsOf budget) m none (.of S om new seen considered) (c, k) =
      .ok (.of ((⟨w, S⟩ : Spent).next budget c).selected om
        (new ++ (budgetGate budget).refused ⟨w, S⟩ [c]) (c.candidateId :: seen)
        (considered + 1)) := by
  have hrankAdd : checkedAdd (AtlasError.invalidConfig "V2 candidate rank overflow") m k =
      .ok (m + k) := checkedAdd_ok.mpr ⟨hmk, rfl⟩
  have hcountAdd : checkedAdd (AtlasError.invalidConfig "V2 candidate count overflow")
      considered 1 = .ok (considered + 1) := checkedAdd_ok.mpr ⟨hconsidered, rfl⟩
  have homittedAdd : checkedAdd (AtlasError.invalidConfig "V2 omission count overflow")
      (om ++ new).length 1 = .ok ((om ++ new).length + 1) := checkedAdd_ok.mpr ⟨hom, rfl⟩
  have homission : (Packing.of S ((om ++ new).map Prod.snd) (listed new)).omission
      (boundsOf budget) c = firstBroken budget ⟨w, S⟩ c := omission_of hfits (by omega)
  have hreasons : ((om ++ new).map Prod.snd).length + 1 < 2 ^ 64 := by
    rw [List.length_map]
    exact hom
  have hadmissible : c.workUnits = 1 ∧ c.candidateId ≠ "" ∧ (utf8 c.candidateId).length ≤ 512 ∧
      c.rank = m + k ∧ c.candidateId ∉ seen := ⟨hunit, hbounded.1, hbounded.2, hrank, hseen⟩
  rw [refused_one, enforceAdditionalCandidate]
  simp only [StagedPacking.of, hrankAdd, Spent.next]
  refine check_bind_eq_ok.mpr ⟨ensure_eq_ok.mpr hadmissible, ?_⟩
  simp only [hcountAdd, homission, bind, Except.bind, reduceCtorEq, if_false]
  cases hfirst : firstBroken budget ⟨w, S⟩ c with
  | none =>
    have hselect : (Packing.of S ((om ++ new).map Prod.snd) (listed new)).select c =
        .ok (.of (S ++ [c]) ((om ++ new).map Prod.snd) (listed new)) := select_of hfits hfirst rfl
    simp only [hselect, if_true, Option.map_none, Option.toList_none, List.append_nil]
    rfl
  | some r =>
    have homit : (Packing.of S ((om ++ new).map Prod.snd) (listed new)).omit c r
        "V2 omission count overflow" = .ok (.of S ((om ++ new).map Prod.snd ++ [r])
          (listed new ++ [(c.candidateId, r)])) := omit_of hreasons _
    simp only [homittedAdd, homit, reduceCtorEq, if_false, Option.map_some, Option.toList_some]
    simp [listed, pure, Except.pure, Nat.add_assoc]

/-- What the gate has charged behind candidates of one unit each that the limit allows. -/
lemma after_work_of_unit (budget : DeepSemanticBudget) (s : Spent) (hwork : s.work + l.length ≤ budget.maxWorkUnits)
    (hunit : ∀ c ∈ l, c.workUnits = 1) :
    ((budgetGate budget).after s l).work = s.work + l.length := by
  induction l generalizing s with
  | nil => rfl
  | cons c l ih =>
    rw [List.length_cons] at hwork ⊢
    have hc : c.workUnits = 1 := hunit c List.mem_cons_self
    have hnext : (s.next budget c).work = s.work + 1 := by
      have hnot : ¬ budget.maxWorkUnits < s.work + c.workUnits := by omega
      rw [Spent.next, if_neg (mt firstBroken_eq_work_iff.mp hnot), hc]
    have hrest : (s.next budget c).work + l.length ≤ budget.maxWorkUnits := by omega
    have htail := ih (s.next budget c) hrest fun d hd => hunit d (List.mem_cons_of_mem c hd)
    rw [Gate.after_cons]
    exact htail.trans (by omega)

/-- **All candidates.**  The loop ends with what the gate selects and omits from where it goes
on. -/
lemma foldlM_enforceAdditionalCandidate
    (om new : List (DeepV2BudgetCandidate × IrOmissionReasonV2)) (hfits : Fits budget)
    (hwork : s.work + l.length ≤ budget.maxWorkUnits) (hunit : ∀ c ∈ l, c.workUnits = 1)
    (hbounded : ∀ c ∈ l, c.candidateId ≠ "" ∧ (utf8 c.candidateId).length ≤ 512)
    (hranks : l.map DeepV2BudgetCandidate.rank = List.range' (m + k) l.length)
    (hnodup : (l.map DeepV2BudgetCandidate.candidateId).Nodup)
    (hseen : ∀ c ∈ l, c.candidateId ∉ seen) (hrank : m + k + l.length < 2 ^ 64)
    (hconsidered : considered + l.length < 2 ^ 64) (hom : (om ++ new).length + l.length < 2 ^ 64) :
    ∃ seen', (l.zipIdx k).foldlM (enforceAdditionalCandidate (boundsOf budget) m none)
        (.of s.selected om new seen considered) =
      .ok (.of ((budgetGate budget).after s l).selected om
        (new ++ (budgetGate budget).refused s l) seen' (considered + l.length)) := by
  induction l generalizing s new seen considered k with
  | nil => exact ⟨seen, by simp [Gate.refused, pure, Except.pure]⟩
  | cons c l ih =>
    simp only [List.length_cons] at hwork hrank hconsidered hom
    have hc : c.workUnits = 1 := hunit c List.mem_cons_self
    have hcRank : c.rank = m + k ∧
        l.map DeepV2BudgetCandidate.rank = List.range' (m + (k + 1)) l.length := by
      rw [List.map_cons, List.length_cons, List.range'_succ] at hranks
      exact ⟨(List.cons.inj hranks).1, (List.cons.inj hranks).2⟩
    have hcNew : c.candidateId ∉ l.map DeepV2BudgetCandidate.candidateId ∧
        (l.map DeepV2BudgetCandidate.candidateId).Nodup := List.nodup_cons.mp hnodup
    have hcount : considered + 1 < 2 ^ 64 := by omega
    have hstep := enforceAdditionalCandidate_of s.selected om new s.work hfits (by omega) hc
      (hbounded c List.mem_cons_self) hcRank.1 (hseen c List.mem_cons_self) (by omega) hcount
      (by omega)
    have hone : (new ++ (budgetGate budget).refused s [c]).length ≤ new.length + 1 := by
      have hle := (Gate.refused_sublist (G := budgetGate budget) (s := s) (l := [c])).length_le
      rw [List.length_append]
      simpa using hle
    have hnext : (s.next budget c).work = s.work + 1 := by
      have hunitOne : ∀ d ∈ [c], d.workUnits = 1 := by simpa using hc
      exact after_work_of_unit budget s (Nat.le_trans (by simp) hwork) hunitOne
    have hfresh : ∀ d ∈ l, d.candidateId ∉ c.candidateId :: seen := by
      intro d hd
      rw [List.mem_cons, not_or]
      refine ⟨fun heq => hcNew.1 (heq ▸ List.mem_map_of_mem hd), ?_⟩
      exact hseen d (List.mem_cons_of_mem c hd)
    rw [List.length_append] at hom
    have hcountRest : considered + 1 + l.length < 2 ^ 64 := by omega
    obtain ⟨seen', htail⟩ := ih (new ++ (budgetGate budget).refused s [c])
      (s := s.next budget c) (k := k + 1) (by omega)
      (fun d hd => hunit d (List.mem_cons_of_mem c hd))
      (fun d hd => hbounded d (List.mem_cons_of_mem c hd)) hcRank.2 hcNew.2 hfresh (by omega)
      hcountRest (by rw [List.length_append]; omega)
    have hrefused : (budgetGate budget).refused s (c :: l) =
        (budgetGate budget).refused s [c] ++ (budgetGate budget).refused (s.next budget c) l :=
      Gate.refused_append (l := [c]) (m := l)
    refine ⟨seen', ?_⟩
    rw [List.zipIdx_cons, foldlM_cons_ok]
    refine ⟨_, hstep, ?_⟩
    rw [htail, hrefused, List.append_assoc, List.length_cons, Nat.add_assoc considered,
      Nat.add_comm 1]
    rfl

/-! ## Ranks -/

/-- A candidate without its rank. -/
def unranked (c : DeepV2BudgetCandidate) : DeepV2BudgetCandidate := { c with rank := 0 }

lemma map_unranked_ranked (n : ℕ) (l : List DeepV2BudgetCandidate) :
    (ranked n l).map unranked = l.map unranked := by
  refine List.ext_getElem (by simp [ranked]) fun i hi hi' => ?_
  simp [ranked, unranked]

lemma map_rank_ranked (n : ℕ) (l : List DeepV2BudgetCandidate) :
    (ranked n l).map DeepV2BudgetCandidate.rank = List.range' n l.length := by
  refine List.ext_getElem (by simp [ranked]) fun i hi hi' => ?_
  simp [ranked]

lemma length_ranked (n : ℕ) (l : List DeepV2BudgetCandidate) : (ranked n l).length = l.length :=
  List.length_mapIdx

lemma map_candidateId_unranked (l : List DeepV2BudgetCandidate) :
    (l.map unranked).map DeepV2BudgetCandidate.candidateId =
      l.map DeepV2BudgetCandidate.candidateId := by
  rw [List.map_map]
  rfl

/-- What is spent, up to the ranks. -/
def Spent.unranked (s : Spent) : Spent := ⟨s.work, s.selected.map Deep.unranked⟩

/-- No bound looks at a rank. -/
lemma firstBroken_unranked (s : Spent) (c : DeepV2BudgetCandidate) :
    firstBroken budget s.unranked (unranked c) = firstBroken budget s c := by
  have hbreaks : ∀ r, Breaks budget s.unranked (unranked c) r ↔ Breaks budget s c r := by
    intro r
    cases r <;> simp [Breaks, Spent.unranked, unranked, uncertain, ordinary, sourceBytesOf,
      tokensOf, List.countP_map, Function.comp_def]
  simp only [firstBroken, hbreaks]

/-- The gate does not look at the ranks. -/
lemma screens_unranked (budget : DeepSemanticBudget) (s : Spent) (l : List DeepV2BudgetCandidate) :
    (budgetGate budget).refused s.unranked (l.map unranked) =
        ((budgetGate budget).refused s l).map (Prod.map unranked id) ∧
      (budgetGate budget).after s.unranked (l.map unranked) =
        ((budgetGate budget).after s l).unranked := by
  have hverdict : ∀ s t : Spent, t = s.unranked → ∀ c ∈ l,
      (budgetGate budget).verdict t (unranked c) = (budgetGate budget).verdict s c := by
    rintro s - rfl c -
    exact firstBroken_unranked s c
  have hnext : ∀ s t : Spent, t = s.unranked → ∀ c ∈ l,
      (budgetGate budget).next t (unranked c) = ((budgetGate budget).next s c).unranked := by
    rintro s - rfl c -
    show s.unranked.next budget (unranked c) = (s.next budget c).unranked
    rw [Spent.next, firstBroken_unranked, Spent.unranked]
    cases hfirst : firstBroken budget s c with
    | none => simp [Spent.next, Spent.unranked, hfirst, unranked]
    | some r => simp [Spent.next, Spent.unranked, hfirst, unranked]
  exact (Gate.screens_of_related hverdict hnext rfl).2

lemma refused_ranked (budget : DeepSemanticBudget) (B : List DeepV2BudgetCandidate) (s : Spent) (m n : ℕ) :
    listed ((budgetGate budget).refused s (ranked m B)) =
        listed ((budgetGate budget).refused s (ranked n B)) ∧
      ((budgetGate budget).refused s (ranked m B)).map Prod.snd =
        ((budgetGate budget).refused s (ranked n B)).map Prod.snd := by
  have hm := (screens_unranked budget s (ranked m B)).1
  have hn := (screens_unranked budget s (ranked n B)).1
  rw [map_unranked_ranked] at hm hn
  have heq := hm.symm.trans hn
  constructor
  · have hlisted := congrArg listed heq
    rw [listed, listed, List.map_map, List.map_map] at hlisted
    exact hlisted
  · have hreasons := congrArg (List.map Prod.snd) heq
    simpa [Function.comp_def] using hreasons

lemma after_ranked (budget : DeepSemanticBudget) (B : List DeepV2BudgetCandidate) (s : Spent) (m n : ℕ) :
    ((budgetGate budget).after s (ranked m B)).unranked =
      ((budgetGate budget).after s (ranked n B)).unranked := by
  have hm := (screens_unranked budget s (ranked m B)).2
  have hn := (screens_unranked budget s (ranked n B)).2
  rw [map_unranked_ranked] at hm hn
  exact hm.symm.trans hn

/-- An outcome does not show the ranks. -/
lemma outcomeOf_congr (H : Hasher) (budget : DeepSemanticBudget)
    (om om' : List (DeepV2BudgetCandidate × IrOmissionReasonV2)) (considered : ℕ)
    (hst : s.unranked = t.unranked) (hlisted : listed om = listed om')
    (hreasons : om.map Prod.snd = om'.map Prod.snd) :
    outcomeOf H budget considered s om = outcomeOf H budget considered t om' := by
  have hwork : s.unranked.work = t.unranked.work := by rw [hst]
  change s.work = t.work at hwork
  have hread : ∀ {β : Type} (f : DeepV2BudgetCandidate → β), (∀ c, f (unranked c) = f c) →
      s.selected.map f = t.selected.map f := by
    intro β f hf
    have hmap := congrArg (fun u : Spent => u.selected.map f) hst
    simpa [Spent.unranked, Function.comp_def, hf] using hmap
  have hlength : s.selected.length = t.selected.length := by
    simpa using congrArg List.length (hread DeepV2BudgetCandidate.candidateId fun _ => rfl)
  have huncertain : uncertain s.selected = uncertain t.selected := by
    have hmap := congrArg (List.countP id) (hread DeepV2BudgetCandidate.uncertainty fun _ => rfl)
    simpa [uncertain, List.countP_map, Function.comp_def] using hmap
  simp only [outcomeOf, hwork, hlength, huncertain, hlisted, hreasons, sourceBytesOf, tokensOf,
    depthOf, hread DeepV2BudgetCandidate.candidateId fun _ => rfl,
    hread DeepV2BudgetCandidate.sourceBytes fun _ => rfl,
    hread DeepV2BudgetCandidate.estimatedTokens fun _ => rfl,
    hread DeepV2BudgetCandidate.relationshipDepth fun _ => rfl]

lemma Stages.first (h : Stages A B) : Candidates A := by
  have hnodup := h.nodup
  rw [List.map_append] at hnodup
  refine ⟨⟨fun c hc => h.bounded c (List.mem_append_left _ hc), h.ranks,
    hnodup.of_append_left⟩, fun c hc => ?_⟩
  rw [h.unit c (List.mem_append_left _ hc)]
  exact Nat.one_ne_zero

/-- What holds of all candidates up to their ranks holds of the ranked ones. -/
lemma forall_ranked {P : DeepV2BudgetCandidate → Prop} (hP : ∀ c, P (unranked c) ↔ P c)
    (h : ∀ c ∈ B, P c) : ∀ c ∈ ranked n B, P c := by
  intro c hc
  have hmem : unranked c ∈ B.map unranked := by
    rw [← map_unranked_ranked n]
    exact List.mem_map_of_mem hc
  obtain ⟨d, hd, heq⟩ := List.mem_map.mp hmem
  rw [← hP, ← heq, hP]
  exact h d hd

lemma map_candidateId_ranked (n : ℕ) (l : List DeepV2BudgetCandidate) :
    (ranked n l).map DeepV2BudgetCandidate.candidateId =
      l.map DeepV2BudgetCandidate.candidateId := by
  rw [← map_candidateId_unranked, map_unranked_ranked, map_candidateId_unranked]

lemma Stages.unit_both (h : Stages A B) : ∀ c ∈ A ++ ranked A.length B, c.workUnits = 1 := by
  intro c hc
  rcases List.mem_append.mp hc with hc | hc
  · exact h.unit c (List.mem_append_left _ hc)
  · exact forall_ranked (P := fun c => c.workUnits = 1) (fun _ => Iff.rfl)
      (fun c hc => h.unit c (List.mem_append_right _ hc)) c hc

lemma Stages.both (h : Stages A B) : Candidates (A ++ ranked A.length B) := by
  have hbounded := forall_ranked (n := A.length) (P := fun c => c.candidateId ≠ "" ∧
    (utf8 c.candidateId).length ≤ 512) (fun _ => Iff.rfl)
    fun c hc => h.bounded c (List.mem_append_right _ hc)
  refine ⟨⟨fun c hc => ?_, ?_, ?_⟩, fun c hc => ?_⟩
  · rcases List.mem_append.mp hc with hc | hc
    · exact h.bounded c (List.mem_append_left _ hc)
    · exact hbounded c hc
  · rw [List.map_append, h.ranks, map_rank_ranked, List.length_append, length_ranked,
      List.range_eq_range', List.range_eq_range', ← List.range'_append_1, Nat.zero_add]
  · rw [List.map_append, map_candidateId_ranked, ← List.map_append]
    exact h.nodup
  · rw [h.unit_both c hc]
    exact Nat.one_ne_zero

/-- What was recorded of the first stage. -/
lemma Records.start {H : Hasher} {document : DeepContextIrV2 F}
    (hdoc : Records document (outcomeOf H budget A.length s om) B.length)
    (hom : s.selected.length + om.length = A.length) :
    document.bounds = boundsOf budget ∧
      document.policy.semanticBudget = semanticBudgetOf H budget ∧
      document.workingSet.length = s.selected.length ∧
      document.cost.uncertaintyRecordsSelected ≤ document.cost.selectedRecords ∧
      (⟨{ selectedCandidateIds := document.workingSet.map IrWorkingSetItemV2.itemId
          selectedSourceBytes := document.cost.selectedSourceBytes
          selectedEstimatedTokens := document.cost.selectedEstimatedTokens
          relationshipDepthReached := document.cost.relationshipDepthReached
          ordinaryRecordsSelected :=
            document.cost.selectedRecords - document.cost.uncertaintyRecordsSelected
          uncertaintyRecordsSelected := document.cost.uncertaintyRecordsSelected
          byReason := document.omissions.byReason
          omittedCandidates := [] }, document.workingSet.map IrWorkingSetItemV2.itemId,
        document.omissions.candidatesConsidered, document.omissions.omitted⟩ : StagedPacking) =
        .of s.selected om [] (s.selected.map DeepV2BudgetCandidate.candidateId) A.length := by
  have hsplit := length_eq_uncertain_add_ordinary (S := s.selected)
  have hlength : document.workingSet.length = s.selected.length := by
    have h := congrArg List.length hdoc.workingSet
    simpa [outcomeOf] using h
  refine ⟨?_, hdoc.budget, hlength, ?_, ?_⟩
  · rw [DeepContextIrV2.bounds, hdoc.budget, hdoc.cost]
    rfl
  · rw [hdoc.cost]
    show uncertain s.selected ≤ s.selected.length
    omega
  · have hordinary : s.selected.length - uncertain s.selected = ordinary s.selected := by omega
    have homitted : A.length - s.selected.length = om.length := by omega
    simp [hdoc.workingSet, hdoc.cost, hdoc.omissions, outcomeOf, StagedPacking.of, Packing.of,
      listed, hordinary, homitted]

/-- **The second stage.**  It ends with the outcome of the gate for the candidates of both, of
which it lists the omitted ones of its own. -/
lemma enforcePrechargedAdditional_eq {H : Hasher} {document : DeepContextIrV2 F}
    {oA : DeepV2BudgetOutcome} {L : DeepWorkLedger} (hv : budget.validate H = .ok ())
    (hAB : Stages A B) (hwork : A.length + B.length ≤ budget.maxWorkUnits)
    (hA : enforceDeepV2Budget H budget A = .ok oA) (hdoc : Records document oA B.length)
    (hlimit : L.limit = budget.maxWorkUnits)
    (hL : L.consumed = oA.cost.workUnitsConsumed + B.length) :
    enforcePrechargedAdditionalDeepV2Budget document
        (ranked document.workingSet.length B) none L =
      .ok { outcomeOf H budget (A.length + B.length)
          ((budgetGate budget).after ((budgetGate budget).after .none A)
            (ranked document.workingSet.length B))
          ((budgetGate budget).refused .none A ++ (budgetGate budget).refused
            ((budgetGate budget).after .none A) (ranked document.workingSet.length B)) with
        omittedCandidates := listed
          ((budgetGate budget).refused ((budgetGate budget).after .none A)
            (ranked document.workingSet.length B)) } := by
  have hallowed := allowed_of_valid hv
  obtain ⟨-, -, rfl⟩ := (enforceDeepV2Budget_eq_ok_iff hv hAB.first).mp hA
  set s := (budgetGate budget).after .none A with hs
  set om := (budgetGate budget).refused .none A with hom
  set l := ranked document.workingSet.length B with hl
  have hlLength : l.length = B.length := length_ranked _ B
  have hsWork : s.work = A.length := by
    have h := after_work_of_unit budget .none (l := A)
      (by simp only [Spent.none]; omega) fun c hc => hAB.unit c (List.mem_append_left _ hc)
    rw [hs, h, Spent.none, Nat.zero_add]
  have hparts : s.selected.length + om.length = A.length := by
    have hperm := (Gate.perm_append (G := budgetGate budget) (s := .none) (l := A)).length_eq
    rw [List.length_append, List.length_map] at hperm
    rw [hs, hom, after_selected, Spent.none, List.nil_append]
    exact hperm
  obtain ⟨hbounds, hbudget, hlength, hrecords, hstart⟩ := hdoc.start hparts
  have hsmall : budget.maxWorkUnits < 2 ^ 64 := hallowed.work.trans_lt (by norm_num)
  have hunit : ∀ c ∈ l, c.workUnits = 1 := forall_ranked (P := fun c => c.workUnits = 1)
    (fun _ => Iff.rfl) fun c hc => hAB.unit c (List.mem_append_right _ hc)
  have hbounded : ∀ c ∈ l, c.candidateId ≠ "" ∧ (utf8 c.candidateId).length ≤ 512 :=
    forall_ranked (P := fun c => c.candidateId ≠ "" ∧ (utf8 c.candidateId).length ≤ 512)
      (fun _ => Iff.rfl) fun c hc => hAB.bounded c (List.mem_append_right _ hc)
  have hids : l.map DeepV2BudgetCandidate.candidateId = B.map DeepV2BudgetCandidate.candidateId :=
    map_candidateId_ranked _ B
  have hnodup := hAB.nodup
  rw [List.map_append, List.nodup_append, ← hids] at hnodup
  have hseen : ∀ c ∈ l, c.candidateId ∉ s.selected.map DeepV2BudgetCandidate.candidateId := by
    intro c hc hmem
    have hsub : s.selected.Sublist A := by
      rw [hs, after_selected]
      exact Gate.admitted_sublist
    exact hnodup.2.2 _ ((hsub.map _).subset hmem) _ (List.mem_map_of_mem hc) rfl
  have hranks : l.map DeepV2BudgetCandidate.rank =
      List.range' (document.workingSet.length + 0) l.length := by
    rw [hlLength]
    exact map_rank_ranked _ B
  have hcount : A.length + l.length < 2 ^ 64 := by omega
  obtain ⟨seen', hloop⟩ := foldlM_enforceAdditionalCandidate (s := s) om [] hallowed.fits
    (by omega) hunit hbounded hranks hnodup.2.1 hseen (by omega) hcount
    (by rw [List.append_nil]; omega)
  have hledger : L.limit = document.policy.semanticBudget.maxWorkUnits ∧
      L.consumed = document.cost.workUnitsConsumed := by
    rw [hbudget, hdoc.cost]
    exact ⟨hlimit, hL⟩
  have hall : ((budgetGate budget).after s l).selected.length +
      (om ++ (budgetGate budget).refused s l).length = A.length + B.length := by
    have hperm := (Gate.perm_append (G := budgetGate budget) (s := s) (l := l)).length_eq
    rw [List.length_append, List.length_map] at hperm
    rw [after_selected, List.length_append, List.length_append]
    omega
  have hwork' : ((budgetGate budget).after s l).work = L.consumed := by
    rw [after_work_of_unit budget s (by omega) hunit, hL, hlLength]
    rfl
  have hcost : document.cost.uncertaintyRecordsReserved = reserve budget := by
    rw [hdoc.cost]
    rfl
  rw [enforcePrechargedAdditionalDeepV2Budget]
  refine check_bind_eq_ok.mpr ⟨ensure_eq_ok.mpr hledger, check_bind_eq_ok.mpr
    ⟨ensure_eq_ok.mpr hrecords, bind_ok.mpr ⟨.of ((budgetGate budget).after s l).selected om
      ([] ++ (budgetGate budget).refused s l) seen' (A.length + l.length), ?_, ?_⟩⟩⟩
  · rw [hstart, hbounds]
    exact hloop
  · have homitted : A.length + B.length - ((budgetGate budget).after s l).selected.length =
        (om ++ (budgetGate budget).refused s l).length := by omega
    simp only [outcomeOf, StagedPacking.of, Packing.of, List.nil_append, List.length_map, hbudget,
      hcost, hwork', homitted, hlLength]
    rfl

/-- The work of all candidates can be added up. -/
lemma Stages.adds (h : Stages A B) (hallowed : Allowed budget) :
    WorkAdds budget.maxWorkUnits (A ++ ranked A.length B) := by
  intro before c behind heq
  have hle := ((Within.none budget).after before).work
  have hc := h.unit_both c (heq ▸ List.mem_append_right _ List.mem_cons_self)
  have hwork := hallowed.work
  rw [after_none_work] at hle
  omega

lemma Stages.adds_first (h : Stages A B) (hallowed : Allowed budget) :
    WorkAdds budget.maxWorkUnits A := by
  intro before c behind heq
  refine h.adds hallowed before c (behind ++ ranked A.length B) ?_
  rw [heq, List.append_assoc, List.cons_append]

end Lemmas

/-- **Stages.**  The second stage agrees with one pass over the candidates of both, which the
gate accepts if they are not too many. -/
theorem enforcePrechargedAdditionalDeepV2Budget_agrees {F : Type} (H : Hasher)
    (budget : DeepSemanticBudget) (A B : List DeepV2BudgetCandidate) (oA : DeepV2BudgetOutcome)
    (document : DeepContextIrV2 F) (L : DeepWorkLedger) (hv : budget.validate H = .ok ())
    (hAB : Stages A B) (hwork : A.length + B.length ≤ budget.maxWorkUnits)
    (hA : enforceDeepV2Budget H budget A = .ok oA) (hdoc : Records document oA B.length)
    (hlimit : L.limit = budget.maxWorkUnits)
    (hL : L.consumed = oA.cost.workUnitsConsumed + B.length) :
    ((∃ o, enforceDeepV2Budget H budget (A ++ ranked A.length B) = .ok o) ↔
      A.length + B.length ≤ maxContextExecutionRecords) ∧
    ∃ oB, enforcePrechargedAdditionalDeepV2Budget document
        (ranked document.workingSet.length B) none L = .ok oB ∧
      ∀ o, enforceDeepV2Budget H budget (A ++ ranked A.length B) = .ok o → Agrees o oA oB := by
  have hlength : (A ++ ranked A.length B).length = A.length + B.length := by
    rw [List.length_append, length_ranked]
  have hadds := hAB.adds (allowed_of_valid hv)
  have hone := fun o => enforceDeepV2Budget_eq_ok_iff (o := o) hv hAB.both
  refine ⟨?_, _, enforcePrechargedAdditional_eq hv hAB hwork hA hdoc hlimit hL, ?_⟩
  · rw [← hlength]
    constructor
    · rintro ⟨o, ho⟩
      exact ((hone o).mp ho).1
    · intro hle
      exact ⟨_, (hone _).mpr ⟨hle, hadds, rfl⟩⟩
  · intro o ho
    obtain ⟨-, -, rfl⟩ := (hone o).mp ho
    obtain ⟨-, -, rfl⟩ := (enforceDeepV2Budget_eq_ok_iff hv hAB.first).mp hA
    have hrefused := refused_ranked budget B ((budgetGate budget).after .none A)
      document.workingSet.length A.length
    have hlisted : listed ((budgetGate budget).refused .none A ++ (budgetGate budget).refused
          ((budgetGate budget).after .none A) (ranked document.workingSet.length B)) =
        listed ((budgetGate budget).refused .none (A ++ ranked A.length B)) := by
      rw [Gate.refused_append, listed, listed, List.map_append, List.map_append]
      exact congrArg _ hrefused.1
    have hreasons : ((budgetGate budget).refused .none A ++ (budgetGate budget).refused
          ((budgetGate budget).after .none A) (ranked document.workingSet.length B)).map Prod.snd =
        ((budgetGate budget).refused .none (A ++ ranked A.length B)).map Prod.snd := by
      rw [Gate.refused_append, List.map_append, List.map_append, hrefused.2]
    have hsame := outcomeOf_congr H budget _ _ (A.length + B.length)
      (after_ranked budget B ((budgetGate budget).after .none A) document.workingSet.length
        A.length) hlisted hreasons
    rw [hlength, Gate.after_append, ← hsame]
    refine ⟨rfl, rfl, rfl, ?_⟩
    show listed _ = listed _ ++ listed _
    rw [listed, List.map_append]
    rfl

/-- A document of which only what was selected matters. -/
def recorded (o : DeepV2BudgetOutcome) (charged : ℕ) : DeepContextIrV2 Unit where
  schemaVersion := ""
  contextId := ""
  workspace := ⟨"", "", 0, none, "", ""⟩
  task := ⟨"", "", "", .explore, .declared, none, [], []⟩
  policy := ⟨"", "", "", true, o.semanticBudget⟩
  status := ⟨.incomplete, [], .missing, .missing, []⟩
  workingSet := o.selectedCandidateIds.mapIdx fun rank id =>
    ⟨id, .file, id, .primaryImplementation, .explicitSeed, none, 0, rank,
      ⟨.verified, (), none, none, "", none, none⟩, ⟨0, 0, 0⟩, none⟩
  relationships := []
  effects := []
  temporalConstraints := ⟨"", none, .notRequired, [], none⟩
  uncertainty := []
  coverage := ⟨0, 0, 0, 0, 0, 0, .none, []⟩
  omissions := o.omissions
  validationPlan := []
  evidenceLease := ⟨"", []⟩
  cost := { o.cost with workUnitsConsumed := o.cost.workUnitsConsumed + charged }
  contextHash := ""

lemma records_recorded (o : DeepV2BudgetOutcome) (charged : ℕ) :
    Records (recorded o charged) o charged := by
  refine ⟨rfl, ?_, rfl, rfl⟩
  refine List.ext_getElem (by simp [recorded]) fun i hi hi' => ?_
  simp [recorded]

/-- One candidate for each stage. -/
def firstStage : List DeepV2BudgetCandidate := [⟨"a", 0, 4000, 10, 1, 1, false⟩]

def secondStage : List DeepV2BudgetCandidate := [⟨"b", 0, 97, 10, 1, 1, false⟩]

theorem enforcePrechargedAdditionalDeepV2Budget_agrees_secondStage :
    ∃ oA o oB, enforceDeepV2Budget sampleHasher sampleBudget firstStage = .ok oA ∧
      enforceDeepV2Budget sampleHasher sampleBudget
        (firstStage ++ ranked firstStage.length secondStage) = .ok o ∧
      enforcePrechargedAdditionalDeepV2Budget (recorded oA 1)
        (ranked (recorded oA 1).workingSet.length secondStage) none ⟨100, 2, 0⟩ = .ok oB ∧
      Agrees o oA oB := by
  have hAB : Stages firstStage secondStage := ⟨by decide, by decide, by decide, by decide⟩
  have hA := (enforceDeepV2Budget_eq_ok_iff sampleBudget_valid hAB.first).mpr
    ⟨by decide, hAB.adds_first (allowed_of_valid sampleBudget_valid), rfl⟩
  obtain ⟨hone, oB, hB, hagrees⟩ := enforcePrechargedAdditionalDeepV2Budget_agrees sampleHasher
    sampleBudget firstStage secondStage _ (recorded _ 1) ⟨100, 2, 0⟩ sampleBudget_valid hAB
    (by decide) hA (records_recorded _ 1) rfl rfl
  obtain ⟨o, ho⟩ := hone.mpr (by decide)
  exact ⟨_, o, oB, hA, ho, hB, hagrees o ho⟩

/-- A budget with as much work as a budget may have. -/
def widestBudget : DeepSemanticBudget :=
  let budget : DeepSemanticBudget := ⟨8, 4096, 1000, 4, 10000000, 10, ""⟩
  { budget with budgetDigest := budget.expectedDigest sampleHasher }

lemma widestBudget_valid : widestBudget.validate sampleHasher = .ok () :=
  check_bind_eq_ok.mpr ⟨ensure_eq_ok.mpr (by decide), ensure_eq_ok.mpr rfl⟩

/-- As many candidates as an execution may have, and one more. -/
lemma stages_longest : Stages (longest.take maxContextExecutionRecords)
    (longest.drop maxContextExecutionRecords) := by
  obtain ⟨⟨hbounded, hranks, hnodup⟩, -⟩ := candidates_longest
  have hunit : ∀ c ∈ longest, c.workUnits = 1 := by
    intro c hc
    obtain ⟨n, -, rfl⟩ := List.mem_map.mp hc
    rfl
  constructor
  · rw [List.map_take, hranks, List.take_range, List.length_take]
  · rw [List.take_append_drop]
    exact hunit
  · rw [List.take_append_drop]
    exact hbounded
  · rw [List.take_append_drop]
    exact hnodup

/-- The second stage ends behind a first one that the gate accepts. -/
lemma exists_secondStage {H : Hasher} {budget : DeepSemanticBudget}
    {A B : List DeepV2BudgetCandidate} (hv : budget.validate H = .ok ()) (hAB : Stages A B)
    (hwork : A.length + B.length ≤ budget.maxWorkUnits)
    (hlength : A.length ≤ maxContextExecutionRecords) :
    ∃ oA oB document L, enforceDeepV2Budget H budget A = .ok oA ∧
      Records (F := Unit) document oA B.length ∧ L.limit = budget.maxWorkUnits ∧
      L.consumed = oA.cost.workUnitsConsumed + B.length ∧
      enforcePrechargedAdditionalDeepV2Budget document
        (ranked document.workingSet.length B) none L = .ok oB := by
  have hA := (enforceDeepV2Budget_eq_ok_iff hv hAB.first).mpr
    ⟨hlength, hAB.adds_first (allowed_of_valid hv), rfl⟩
  exact ⟨_, _, recorded _ _, ⟨budget.maxWorkUnits, _, 0⟩, hA, records_recorded _ _, rfl, rfl,
    enforcePrechargedAdditional_eq hv hAB hwork hA (records_recorded _ _) rfl rfl⟩

/-- The second stage ends where one pass is not begun. -/
theorem enforcePrechargedAdditionalDeepV2Budget_longest :
    ∃ A B oA oB document L, widestBudget.validate sampleHasher = .ok () ∧ Stages A B ∧
      A.length + B.length ≤ widestBudget.maxWorkUnits ∧
      enforceDeepV2Budget sampleHasher widestBudget A = .ok oA ∧
      Records (F := Unit) document oA B.length ∧ L.limit = widestBudget.maxWorkUnits ∧
      L.consumed = oA.cost.workUnitsConsumed + B.length ∧
      enforcePrechargedAdditionalDeepV2Budget document
        (ranked document.workingSet.length B) none L = .ok oB ∧
      ¬ ∃ o, enforceDeepV2Budget sampleHasher widestBudget (A ++ ranked A.length B) = .ok o := by
  have hlength : longest.length = maxContextExecutionRecords + 1 := by
    rw [longest, List.length_map, List.length_range]
  have hfirst : (longest.take maxContextExecutionRecords).length =
      maxContextExecutionRecords := by
    rw [List.length_take, hlength]
    exact Nat.min_eq_left (Nat.le_succ _)
  have hsecond : (longest.drop maxContextExecutionRecords).length = 1 := by
    rw [List.length_drop, hlength]
    exact Nat.add_sub_cancel_left ..
  have hwork : (longest.take maxContextExecutionRecords).length +
      (longest.drop maxContextExecutionRecords).length ≤ widestBudget.maxWorkUnits := by
    rw [hfirst, hsecond]
    decide
  obtain ⟨oA, oB, document, L, hA, hdoc, hlimit, hL, hB⟩ :=
    exists_secondStage widestBudget_valid stages_longest hwork hfirst.le
  refine ⟨_, _, oA, oB, document, L, widestBudget_valid, stages_longest, hwork, hA, hdoc, hlimit,
    hL, hB, ?_⟩
  rintro ⟨o, ho⟩
  have hle := ((enforceDeepV2Budget_eq_ok_iff widestBudget_valid stages_longest.both).mp ho).1
  rw [List.length_append, length_ranked, hfirst, hsecond] at hle
  exact Nat.not_succ_le_self _ hle

end WorkspaceAtlas.Deep
