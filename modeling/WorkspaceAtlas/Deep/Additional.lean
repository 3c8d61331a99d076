/-
# More candidates without source

What `enforce_precharged_additional_deep_v2_budget` comes to for candidates of distance zero
that bring no bytes of source and are certain.  The records and the tokens are the only bounds
that they use up, so either all of them fit together or one of them is omitted.
-/
import WorkspaceAtlas.Deep.Staged

namespace WorkspaceAtlas.Deep

open Relational Transition ContextRoute

/-- The total is within the bound and in the range of the numbers. -/
def Admits (bound total : ℕ) : Prop := total ≤ bound ∧ total < 2 ^ 64

/-- The candidate only takes a record and tokens. -/
structure DeepV2BudgetCandidate.Plain (c : DeepV2BudgetCandidate) : Prop where
  sourceBytes_eq : c.sourceBytes = 0
  relationshipDepth_eq : c.relationshipDepth = 0
  uncertainty_eq : c.uncertainty = false

/-- All candidates fit next to those that were selected. -/
def Packing.FitsAll (B : Bounds) (p : Packing) (l : List DeepV2BudgetCandidate) : Prop :=
  l = [] ∨ (p.ordinaryRecordsSelected + l.length ≤ B.ordinaryRecordLimit ∧
    Admits B.maxSourceBytes p.selectedSourceBytes ∧
    Admits B.maxEstimatedTokens (p.selectedEstimatedTokens + tokensOf l))

section Lemmas

variable {B : Bounds} {p p' : Packing} {c : DeepV2BudgetCandidate}
  {l : List DeepV2BudgetCandidate} {s s' : StagedPacking} {m k bound n : ℕ}
  {r : IrOmissionReasonV2} {F : Type}

lemma not_all_u64CheckedAdd :
    ¬ (u64CheckedAdd m n).all (bound < ·) = true ↔ Admits bound (m + n) := by
  unfold u64CheckedAdd Admits
  by_cases h : m + n < 2 ^ 64
  · rw [if_pos h, Option.all_some, decide_eq_true_eq, Nat.not_lt, and_iff_left h]
  · rw [if_neg h]
    exact iff_of_false (by simp) fun hn => h hn.2

lemma Packing.omission_eq_none (hc : c.Plain) : p.omission B c = none ↔
    p.ordinaryRecordsSelected < B.ordinaryRecordLimit ∧
      Admits B.maxSourceBytes p.selectedSourceBytes ∧
      Admits B.maxEstimatedTokens (p.selectedEstimatedTokens + c.estimatedTokens) := by
  rw [← Nat.add_zero p.selectedSourceBytes, ← hc.sourceBytes_eq, ← not_all_u64CheckedAdd,
    ← not_all_u64CheckedAdd, ← Nat.not_le, Packing.omission, hc.relationshipDepth_eq,
    if_neg (Nat.not_lt_zero _), hc.uncertainty_eq]
  simp only [Bool.false_eq_true, false_and, if_false, not_false_eq_true, true_and]
  split_ifs with hrecords hsource htokens
  · simp [hrecords]
  · simp [hsource]
  · simp [htokens]
  · simp [hrecords, hsource, htokens]

lemma Packing.omit_ok {overflow : String} (h : p.omit c r overflow = .ok p') :
    ∃ byReason, p' = { p with
      byReason := byReason
      omittedCandidates := p.omittedCandidates ++ [(c.candidateId, r)] } := by
  obtain ⟨count, -, hret⟩ := bind_ok.mp h
  exact ⟨_, (Except.ok.inj hret).symm⟩

lemma Packing.select_ok (h : p.select c = .ok p') : p' = { p with
    selectedCandidateIds := p.selectedCandidateIds ++ [c.candidateId]
    selectedSourceBytes := p.selectedSourceBytes + c.sourceBytes
    selectedEstimatedTokens := p.selectedEstimatedTokens + c.estimatedTokens
    relationshipDepthReached := max p.relationshipDepthReached c.relationshipDepth
    ordinaryRecordsSelected :=
      if c.uncertainty then p.ordinaryRecordsSelected else p.ordinaryRecordsSelected + 1
    uncertaintyRecordsSelected :=
      if c.uncertainty then p.uncertaintyRecordsSelected + 1
      else p.uncertaintyRecordsSelected } := by
  obtain ⟨sourceBytes, hsource, hrest⟩ := bind_ok.mp h
  obtain ⟨estimatedTokens, htokens, hret⟩ := bind_ok.mp hrest
  obtain ⟨-, rfl⟩ := checkedAdd_ok.mp hsource
  obtain ⟨-, rfl⟩ := checkedAdd_ok.mp htokens
  exact (Except.ok.inj hret).symm

/-- **One candidate**: it is omitted or selected. -/
lemma enforceAdditionalCandidate_ok
    (h : enforceAdditionalCandidate B m none s (c, k) = .ok s') :
    (∃ r overflow, s.packing.omission B c = some r ∧
      s.packing.omit c r overflow = .ok s'.packing) ∨
      s.packing.omission B c = none ∧ s.packing.select c = .ok s'.packing := by
  obtain ⟨expectedRank, -, h⟩ := bind_ok.mp h
  obtain ⟨⟨⟩, -, h⟩ := bind_ok.mp h
  obtain ⟨considered, -, h⟩ := bind_ok.mp h
  simp only [reduceCtorEq, if_false] at h
  split at h
  next reason homission =>
    obtain ⟨omitted, -, h⟩ := bind_ok.mp h
    obtain ⟨p, homit, h⟩ := bind_ok.mp h
    obtain rfl := Except.ok.inj h
    exact Or.inl ⟨reason, _, homission, homit⟩
  next homission =>
    obtain ⟨p, hselect, h⟩ := bind_ok.mp h
    obtain rfl := Except.ok.inj h
    exact Or.inr ⟨homission, hselect⟩

/-- The first candidate fits, and the others fit next to it. -/
lemma Packing.fitsAll_cons (hc : c.Plain) (hselect : p.select c = .ok p') :
    p.FitsAll B (c :: l) ↔ p.omission B c = none ∧ p'.FitsAll B l := by
  obtain rfl := select_ok hselect
  rw [omission_eq_none hc]
  simp only [FitsAll, hc.sourceBytes_eq, hc.uncertainty_eq, tokensOf, List.map_cons,
    List.sum_cons, List.length_cons, reduceCtorEq, false_or, Bool.false_eq_true, if_false,
    Nat.add_zero, Admits]
  cases l with
  | nil => simp
  | cons d l => constructor <;> intro h <;> simp at h ⊢ <;> omega

/-- What the loop comes to. -/
structure Additional (B : Bounds) (s : StagedPacking) (l : List DeepV2BudgetCandidate)
    (s' : StagedPacking) : Prop where
  omitted : ∃ om, s'.packing.omittedCandidates = s.packing.omittedCandidates ++ om ∧
    (∀ x ∈ om, x.1 ∈ l.map DeepV2BudgetCandidate.candidateId) ∧
    (om = [] ↔ s.packing.FitsAll B l)
  uncertainty : s'.packing.uncertaintyRecordsSelected = s.packing.uncertaintyRecordsSelected
  selected : s.packing.FitsAll B l →
    s'.packing.selectedCandidateIds =
        s.packing.selectedCandidateIds ++ l.map DeepV2BudgetCandidate.candidateId ∧
      s'.packing.selectedEstimatedTokens = s.packing.selectedEstimatedTokens + tokensOf l ∧
      s'.packing.selectedSourceBytes = s.packing.selectedSourceBytes

/-- **All candidates.** -/
lemma foldlM_additional (hl : ∀ c ∈ l, c.Plain)
    (h : (l.zipIdx k).foldlM (enforceAdditionalCandidate B m none) s = .ok s') :
    Additional B s l s' := by
  induction l generalizing s k with
  | nil =>
    obtain rfl := Except.ok.inj h
    exact ⟨⟨[], by simp [Packing.FitsAll]⟩, rfl, fun _ => by simp [tokensOf]⟩
  | cons c l ih =>
    rw [List.zipIdx_cons] at h
    obtain ⟨t, hstep, hrest⟩ := foldlM_cons_ok.mp h
    have hc := hl c List.mem_cons_self
    have htail := ih (fun d hd => hl d (List.mem_cons_of_mem c hd)) hrest
    obtain ⟨om, hom, hids, hempty⟩ := htail.omitted
    rcases enforceAdditionalCandidate_ok hstep with ⟨r, overflow, homission, homit⟩ |
      ⟨homission, hselect⟩
    · obtain ⟨byReason, heq⟩ := Packing.omit_ok homit
      -- the candidate alone does not fit
      have hnot : ¬ s.packing.FitsAll B (c :: l) := by
        intro hfits
        have hfirst : s.packing.omission B c = none := by
          rw [Packing.omission_eq_none hc]
          simp only [Packing.FitsAll, reduceCtorEq, false_or, tokensOf, List.map_cons,
            List.sum_cons, List.length_cons, Admits] at hfits ⊢
          omega
        exact absurd (hfirst.symm.trans homission) (by simp)
      refine ⟨⟨(c.candidateId, r) :: om, ?_, ?_, iff_of_false (by simp) hnot⟩, ?_,
        fun hfits => absurd hfits hnot⟩
      · rw [hom, heq]
        simp
      · intro x hx
        rcases List.mem_cons.mp hx with rfl | hx
        · exact List.mem_cons_self
        · exact List.mem_cons_of_mem _ (hids x hx)
      · rw [htail.uncertainty, heq]
    · have hfits := Packing.fitsAll_cons (B := B) (l := l) hc hselect
      have heq := Packing.select_ok hselect
      refine ⟨⟨om, ?_, fun x hx => List.mem_cons_of_mem _ (hids x hx), ?_⟩, ?_, ?_⟩
      · rw [hom, heq]
      · rw [hempty, hfits, and_iff_right homission]
      · rw [htail.uncertainty, heq, hc.uncertainty_eq]
        rfl
      · intro hall
        obtain ⟨hids', htokens, hsource⟩ := htail.selected (hfits.mp hall).2
        rw [hids', htokens, hsource, heq, hc.sourceBytes_eq]
        simp [tokensOf, Nat.add_assoc]

/-- The variables that a document hands to the loop. -/
def DeepContextIrV2.packing (document : DeepContextIrV2 F) : Packing where
  selectedCandidateIds := document.workingSet.map IrWorkingSetItemV2.itemId
  selectedSourceBytes := document.cost.selectedSourceBytes
  selectedEstimatedTokens := document.cost.selectedEstimatedTokens
  relationshipDepthReached := document.cost.relationshipDepthReached
  ordinaryRecordsSelected :=
    document.cost.selectedRecords - document.cost.uncertaintyRecordsSelected
  uncertaintyRecordsSelected := document.cost.uncertaintyRecordsSelected
  byReason := document.omissions.byReason
  omittedCandidates := []

/-- What a document with more candidates comes to. -/
structure Extended (document : DeepContextIrV2 F) (l : List DeepV2BudgetCandidate)
    (o : DeepV2BudgetOutcome) : Prop where
  certain_le : document.cost.uncertaintyRecordsSelected ≤ document.cost.selectedRecords
  omitted_mem : ∀ x ∈ o.omittedCandidates, x.1 ∈ l.map DeepV2BudgetCandidate.candidateId
  omitted_eq_nil : o.omittedCandidates = [] ↔ document.packing.FitsAll document.bounds l
  reserved_eq : o.cost.uncertaintyRecordsReserved = document.cost.uncertaintyRecordsReserved
  uncertainty_eq : o.cost.uncertaintyRecordsSelected = document.cost.uncertaintyRecordsSelected
  selected : document.packing.FitsAll document.bounds l →
    o.selectedCandidateIds = document.workingSet.map IrWorkingSetItemV2.itemId ++
        l.map DeepV2BudgetCandidate.candidateId ∧
      o.cost.selectedRecords = document.workingSet.length + l.length ∧
      o.cost.selectedEstimatedTokens = document.cost.selectedEstimatedTokens + tokensOf l ∧
      o.cost.selectedSourceBytes = document.cost.selectedSourceBytes

/-- **More candidates.**  All of them fit together, or one of them is omitted. -/
theorem enforcePrechargedAdditionalDeepV2Budget_ok {document : DeepContextIrV2 F}
    {workLedger : DeepWorkLedger} {o : DeepV2BudgetOutcome} (hl : ∀ c ∈ l, c.Plain)
    (h : enforcePrechargedAdditionalDeepV2Budget document l none workLedger = .ok o) :
    Extended document l o := by
  obtain ⟨⟨⟩, -, h⟩ := bind_ok.mp h
  obtain ⟨⟨⟩, hcertain, h⟩ := bind_ok.mp h
  obtain ⟨s', hloop, h⟩ := bind_ok.mp h
  obtain rfl := Except.ok.inj h
  have hall := foldlM_additional hl hloop
  obtain ⟨om, hom, hids, hempty⟩ := hall.omitted
  have hom : s'.packing.omittedCandidates = om := hom
  refine ⟨ensure_eq_ok.mp hcertain, ?_, ?_, rfl, hall.uncertainty, fun hfits => ?_⟩
  · show ∀ x ∈ s'.packing.omittedCandidates, _
    rw [hom]
    exact hids
  · show s'.packing.omittedCandidates = [] ↔ _
    rw [hom]
    exact hempty
  · obtain ⟨hselected, htokens, hsource⟩ := hall.selected hfits
    refine ⟨hselected, ?_, htokens, hsource⟩
    show s'.packing.selectedCandidateIds.length = _
    rw [hselected, List.length_append, List.length_map, List.length_map]

/-! ## Numbers of candidates -/

/-- So many records with so many tokens fit next to the working set. -/
def DeepContextIrV2.Fits (document : DeepContextIrV2 F) (records tokens : ℕ) : Prop :=
  records = 0 ∨ (document.cost.selectedRecords - document.cost.uncertaintyRecordsSelected +
      records ≤ document.bounds.ordinaryRecordLimit ∧
    Admits document.bounds.maxSourceBytes document.cost.selectedSourceBytes ∧
    Admits document.bounds.maxEstimatedTokens (document.cost.selectedEstimatedTokens + tokens))

lemma fitsAll_iff_fits {document : DeepContextIrV2 F} :
    document.packing.FitsAll document.bounds l ↔ document.Fits l.length (tokensOf l) := by
  rw [Packing.FitsAll, DeepContextIrV2.Fits, List.length_eq_zero_iff]
  rfl

/-- What fits together fits one behind the other. -/
lemma fits_add {d d' : DeepContextIrV2 F} {records tokens records' tokens' : ℕ}
    (hcertain : d.cost.uncertaintyRecordsSelected ≤ d.cost.selectedRecords)
    (hbounds : d'.bounds = d.bounds)
    (hcertain' : d'.cost.uncertaintyRecordsSelected = d.cost.uncertaintyRecordsSelected)
    (hcost : d.Fits records tokens →
      d'.cost.selectedRecords = d.cost.selectedRecords + records ∧
      d'.cost.selectedEstimatedTokens = d.cost.selectedEstimatedTokens + tokens ∧
      d'.cost.selectedSourceBytes = d.cost.selectedSourceBytes)
    (hnone' : records' = 0 → tokens' = 0) :
    d.Fits (records + records') (tokens + tokens') ↔
      d.Fits records tokens ∧ d'.Fits records' tokens' := by
  by_cases hfits : d.Fits records tokens
  · obtain ⟨hrecords, htokens, hsource⟩ := hcost hfits
    rw [and_iff_right hfits]
    simp only [DeepContextIrV2.Fits, Admits, hbounds, hcertain', hrecords, htokens, hsource]
      at hfits ⊢
    omega
  · refine iff_of_false (fun h => hfits ?_) fun h => hfits h.1
    simp only [DeepContextIrV2.Fits, Admits] at h ⊢
    omega

end Lemmas

end WorkspaceAtlas.Deep
