/-
# What the budget gate selects

A candidate is omitted for the first bound that it breaks next to what was selected and charged
before it, and selected if it breaks none.  The gate comes to this for every list of candidates
it accepts; the only other way out is an amount of work that no ledger can add up.
-/
import WorkspaceAtlas.Deep.Budget
import WorkspaceAtlas.Route.Governed

namespace WorkspaceAtlas.Deep

open Relational Transition ContextRoute

/-! ## Bounds -/

/-- The work that was charged and the candidates that were selected so far. -/
@[ext] structure Spent where
  work : ℕ
  selected : List DeepV2BudgetCandidate

/-- The bytes of source of some candidates. -/
def sourceBytesOf (l : List DeepV2BudgetCandidate) : ℕ :=
  (l.map DeepV2BudgetCandidate.sourceBytes).sum

/-- The tokens of some candidates. -/
def tokensOf (l : List DeepV2BudgetCandidate) : ℕ :=
  (l.map DeepV2BudgetCandidate.estimatedTokens).sum

/-- The work of some candidates. -/
def workOf (l : List DeepV2BudgetCandidate) : ℕ := (l.map DeepV2BudgetCandidate.workUnits).sum

/-- The greatest depth of some candidates. -/
def depthOf (l : List DeepV2BudgetCandidate) : ℕ :=
  (l.map DeepV2BudgetCandidate.relationshipDepth).foldl max 0

/-- The records that are uncertain. -/
def uncertain (l : List DeepV2BudgetCandidate) : ℕ := l.countP fun c => c.uncertainty

/-- The records that are not. -/
def ordinary (l : List DeepV2BudgetCandidate) : ℕ := l.countP fun c => ¬ c.uncertainty

/-- The records that are reserved for uncertainty: the percentage, rounded up. -/
def reserve (budget : DeepSemanticBudget) : ℕ :=
  (budget.maxRecords * budget.uncertaintyReservePercent + 99) / 100

/-- A candidate breaks a bound next to what is spent. -/
def Breaks (budget : DeepSemanticBudget) (s : Spent) (c : DeepV2BudgetCandidate) :
    IrOmissionReasonV2 → Prop
  | .workUnitBudget => budget.maxWorkUnits < s.work + c.workUnits
  | .relationshipDepthBudget => budget.maxDepth < c.relationshipDepth
  | .uncertaintyReserve => c.uncertainty ∧ reserve budget ≤ uncertain s.selected
  | .recordBudget => ¬ c.uncertainty ∧ budget.maxRecords - reserve budget ≤ ordinary s.selected
  | .sourceByteBudget => budget.maxSourceBytes < sourceBytesOf s.selected + c.sourceBytes
  | .estimatedTokenBudget => budget.maxEstimatedTokens < tokensOf s.selected + c.estimatedTokens
  | _ => False

instance (budget : DeepSemanticBudget) (s : Spent) (c : DeepV2BudgetCandidate) :
    DecidablePred (Breaks budget s c) := fun r => by
  cases r <;> (dsimp only [Breaks]; infer_instance)

/-- The bounds in their order. -/
def precedence : List IrOmissionReasonV2 :=
  [.workUnitBudget, .relationshipDepthBudget, .uncertaintyReserve, .recordBudget,
    .sourceByteBudget, .estimatedTokenBudget]

/-- The first bound that a candidate breaks. -/
def firstBroken (budget : DeepSemanticBudget) (s : Spent) (c : DeepV2BudgetCandidate) :
    Option IrOmissionReasonV2 :=
  precedence.find? fun r => Breaks budget s c r

/-- What is spent behind a candidate. -/
def Spent.next (budget : DeepSemanticBudget) (s : Spent) (c : DeepV2BudgetCandidate) : Spent where
  work := if firstBroken budget s c = some .workUnitBudget then s.work else s.work + c.workUnits
  selected := if firstBroken budget s c = none then s.selected ++ [c] else s.selected

/-- The gate that omits a candidate for the first bound it breaks. -/
def budgetGate (budget : DeepSemanticBudget) :
    Gate Spent DeepV2BudgetCandidate IrOmissionReasonV2 where
  verdict := firstBroken budget
  next := Spent.next budget

/-! ## What is read off an outcome -/

/-- The candidates that are selected. -/
def selectedOf (o : DeepV2BudgetOutcome) (cs : List DeepV2BudgetCandidate) :
    List DeepV2BudgetCandidate :=
  cs.filter fun c => c.candidateId ∈ o.selectedCandidateIds

/-- The candidates that are not. -/
def omittedOf (o : DeepV2BudgetOutcome) (cs : List DeepV2BudgetCandidate) :
    List DeepV2BudgetCandidate :=
  cs.filter fun c => c.candidateId ∉ o.selectedCandidateIds

/-- The candidates that are not omitted for their work. -/
def chargedOf (o : DeepV2BudgetOutcome) (cs : List DeepV2BudgetCandidate) :
    List DeepV2BudgetCandidate :=
  cs.filter fun c => (c.candidateId, .workUnitBudget) ∉ o.omittedCandidates

/-- The reason for which a candidate is omitted. -/
def reasonOf (o : DeepV2BudgetOutcome) (c : DeepV2BudgetCandidate) :
    Option IrOmissionReasonV2 :=
  (o.omittedCandidates.find? fun omitted => omitted.1 = c.candidateId).map Prod.snd

/-- An outcome is exact for some candidates. -/
structure Exact (budget : DeepSemanticBudget) (cs : List DeepV2BudgetCandidate)
    (o : DeepV2BudgetOutcome) : Prop where
  /-- The candidates are the selected and the omitted ones, each in the order of the ranks. -/
  selected : o.selectedCandidateIds = (selectedOf o cs).map DeepV2BudgetCandidate.candidateId
  omitted : o.omittedCandidates.map Prod.fst =
    (omittedOf o cs).map DeepV2BudgetCandidate.candidateId
  /-- Each is omitted for the first bound that it breaks behind those before it. -/
  reasons : ∀ before c behind, cs = before ++ c :: behind →
    reasonOf o c = firstBroken budget ⟨workOf (chargedOf o before), selectedOf o before⟩ c
  uncertain_le : uncertain (selectedOf o cs) ≤ reserve budget
  ordinary_le : ordinary (selectedOf o cs) ≤ budget.maxRecords - reserve budget
  records_le : (selectedOf o cs).length ≤ budget.maxRecords
  sourceBytes_le : sourceBytesOf (selectedOf o cs) ≤ budget.maxSourceBytes
  tokens_le : tokensOf (selectedOf o cs) ≤ budget.maxEstimatedTokens
  depth_le : ∀ c ∈ selectedOf o cs, c.relationshipDepth ≤ budget.maxDepth
  work_le : workOf (chargedOf o cs) ≤ budget.maxWorkUnits
  cost : o.cost =
    { selectedRecords := (selectedOf o cs).length
      selectedSourceBytes := sourceBytesOf (selectedOf o cs)
      selectedEstimatedTokens := tokensOf (selectedOf o cs)
      relationshipDepthReached := depthOf (selectedOf o cs)
      workUnitsConsumed := workOf (chargedOf o cs)
      uncertaintyRecordsReserved := reserve budget
      uncertaintyRecordsSelected := uncertain (selectedOf o cs) }
  considered : o.omissions.candidatesConsidered = cs.length
  counts : o.omissions.selected = (selectedOf o cs).length ∧
    o.omissions.omitted = (omittedOf o cs).length ∧
    o.omissions.truncated = decide ((omittedOf o cs).length ≠ 0)
  /-- The counts of the reasons are those of the omitted candidates. -/
  byReason : ∀ r, (o.omissions.byReason.get r).getD 0 =
    (omittedOf o cs).countP fun c => reasonOf o c = some r
  sum_byReason : o.omissions.byReason.values.sum = o.omissions.omitted

section Lemmas

variable {budget : DeepSemanticBudget} {S before behind cs : List DeepV2BudgetCandidate}
  {c : DeepV2BudgetCandidate} {om : List (DeepV2BudgetCandidate × IrOmissionReasonV2)}
  {L : DeepWorkLedger} {s : Spent} {o : DeepV2BudgetOutcome} {r : IrOmissionReasonV2}
  {reasons : List IrOmissionReasonV2} {ids : List (String × IrOmissionReasonV2)}

/-! ## One candidate -/

/-- The bounds of a budget. -/
def boundsOf (budget : DeepSemanticBudget) : Bounds where
  maxDepth := budget.maxDepth
  uncertaintyRecordsReserved := reserve budget
  ordinaryRecordLimit := budget.maxRecords - reserve budget
  maxSourceBytes := budget.maxSourceBytes
  maxEstimatedTokens := budget.maxEstimatedTokens

/-- The variables of the loop, from what was selected, what it was omitted for, and what the
omitted candidates are listed as. -/
def Packing.of (S : List DeepV2BudgetCandidate) (reasons : List IrOmissionReasonV2)
    (listed : List (String × IrOmissionReasonV2)) : Packing where
  selectedCandidateIds := S.map DeepV2BudgetCandidate.candidateId
  selectedSourceBytes := sourceBytesOf S
  selectedEstimatedTokens := tokensOf S
  relationshipDepthReached := depthOf S
  ordinaryRecordsSelected := ordinary S
  uncertaintyRecordsSelected := uncertain S
  byReason := .tally reasons
  omittedCandidates := listed

/-- What the omitted candidates are listed as. -/
def listed (om : List (DeepV2BudgetCandidate × IrOmissionReasonV2)) :
    List (String × IrOmissionReasonV2) :=
  om.map (Prod.map DeepV2BudgetCandidate.candidateId id)

/-- The variables of the loop, from what was selected and what was omitted. -/
def packed (S : List DeepV2BudgetCandidate)
    (om : List (DeepV2BudgetCandidate × IrOmissionReasonV2)) : Packing :=
  .of S (om.map Prod.snd) (listed om)

lemma all_u64CheckedAdd {m n bound : ℕ} (hbound : bound < 2 ^ 64) :
    (u64CheckedAdd m n).all (bound < ·) = decide (bound < m + n) := by
  rw [u64CheckedAdd]
  split
  next h => rfl
  next h =>
    have hlt : bound < m + n := by omega
    simp [hlt]

/-- The bounds of a valid budget fit into 64 bits. -/
structure Fits (budget : DeepSemanticBudget) : Prop where
  sourceBytes : budget.maxSourceBytes < 2 ^ 64
  tokens : budget.maxEstimatedTokens < 2 ^ 64

/-- Behind its work, a candidate is held to the other bounds in their order. -/
lemma omission_of (hfits : Fits budget) {w : ℕ} (hwork : ¬ budget.maxWorkUnits < w + c.workUnits) :
    (Packing.of S reasons ids).omission (boundsOf budget) c = firstBroken budget ⟨w, S⟩ c := by
  have hsource : (u64CheckedAdd (sourceBytesOf S) c.sourceBytes).all
      (budget.maxSourceBytes < ·) = decide (Breaks budget ⟨w, S⟩ c .sourceByteBudget) :=
    all_u64CheckedAdd hfits.sourceBytes
  have htokens : (u64CheckedAdd (tokensOf S) c.estimatedTokens).all
      (budget.maxEstimatedTokens < ·) = decide (Breaks budget ⟨w, S⟩ c .estimatedTokenBudget) :=
    all_u64CheckedAdd hfits.tokens
  have hnot : decide (Breaks budget ⟨w, S⟩ c .workUnitBudget) = false := decide_eq_false hwork
  show (if Breaks budget ⟨w, S⟩ c .relationshipDepthBudget then _
    else if Breaks budget ⟨w, S⟩ c .uncertaintyReserve then _
    else if Breaks budget ⟨w, S⟩ c .recordBudget then _
    else if (u64CheckedAdd (sourceBytesOf S) c.sourceBytes).all (budget.maxSourceBytes < ·) then _
    else if (u64CheckedAdd (tokensOf S) c.estimatedTokens).all (budget.maxEstimatedTokens < ·)
      then _ else _) = _
  rw [hsource, htokens, firstBroken, precedence]
  simp only [List.find?_cons, hnot, List.find?_nil, decide_eq_true_eq]
  grind

lemma omit_of (hreasons : reasons.length + 1 < 2 ^ 64) (overflow : String) :
    (Packing.of S reasons ids).omit c r overflow =
      .ok (.of S (reasons ++ [r]) (ids ++ [(c.candidateId, r)])) := by
  have hadd : checkedAdd (AtlasError.invalidConfig overflow)
      (((Packing.of S reasons ids).byReason.get r).getD 0) 1 =
        .ok (((SortedMap.tally reasons).get r).getD 0 + 1) := by
    have hle := SortedMap.getD_tally_le reasons r
    exact checkedAdd_ok.mpr ⟨(Nat.add_le_add_right hle 1).trans_lt hreasons, rfl⟩
  rw [Packing.omit, hadd]
  simp only [Packing.of, SortedMap.insert_tally, bind, Except.bind, pure, Except.pure]

lemma ordinary_concat : ordinary (S ++ [c]) =
    if c.uncertainty then ordinary S else ordinary S + 1 := by
  cases hc : c.uncertainty <;> simp [ordinary, hc]

lemma uncertain_concat : uncertain (S ++ [c]) =
    if c.uncertainty then uncertain S + 1 else uncertain S := by
  cases hc : c.uncertainty <;> simp [uncertain, hc]

lemma length_eq_uncertain_add_ordinary : S.length = uncertain S + ordinary S := by
  have hsplit := List.length_eq_countP_add_countP (fun c => c.uncertainty) (l := S)
  simpa [uncertain, ordinary] using hsplit

/-- A candidate that breaks no bound is selected. -/
lemma select_of (hfits : Fits budget) (hnone : firstBroken budget s c = none)
    (hs : s.selected = S) :
    (Packing.of S reasons ids).select c = .ok (.of (S ++ [c]) reasons ids) := by
  have hbreaks : ∀ r ∈ precedence, ¬ Breaks budget s c r := by
    simpa [firstBroken, List.find?_eq_none] using hnone
  have hsource := hbreaks .sourceByteBudget (by decide)
  have htokens := hbreaks .estimatedTokenBudget (by decide)
  simp only [Breaks, hs, Nat.not_lt] at hsource htokens
  have hsourceAdd : checkedAdd (AtlasError.invalidConfig "V2 source-byte cost overflow")
      (sourceBytesOf S) c.sourceBytes = .ok (sourceBytesOf (S ++ [c])) := by
    rw [checkedAdd_ok]
    exact ⟨hsource.trans_lt hfits.sourceBytes, by simp [sourceBytesOf]⟩
  have htokensAdd : checkedAdd (AtlasError.invalidConfig "V2 token cost overflow")
      (tokensOf S) c.estimatedTokens = .ok (tokensOf (S ++ [c])) := by
    rw [checkedAdd_ok]
    exact ⟨htokens.trans_lt hfits.tokens, by simp [tokensOf]⟩
  have hdepth : depthOf (S ++ [c]) = max (depthOf S) c.relationshipDepth := by
    simp [depthOf, List.foldl_append]
  rw [Packing.select]
  simp only [Packing.of, hsourceAdd, htokensAdd, hdepth, ordinary_concat, uncertain_concat, bind,
    Except.bind, pure, Except.pure, List.map_append, List.map_cons, List.map_nil]

lemma packed_omit (hom : om.length + 1 < 2 ^ 64) (overflow : String) :
    (packed S om).omit c r overflow = .ok (packed S (om ++ [(c, r)])) := by
  have hreasons : (om.map Prod.snd).length + 1 < 2 ^ 64 := by simpa using hom
  rw [packed, omit_of hreasons]
  simp [packed, listed]

lemma packed_select (hfits : Fits budget) (hnone : firstBroken budget s c = none)
    (hs : s.selected = S) : (packed S om).select c = .ok (packed (S ++ [c]) om) :=
  select_of hfits hnone hs

lemma refused_one (s : Spent) : (budgetGate budget).refused s [c] =
    ((firstBroken budget s c).map (c, ·)).toList := by
  simp only [Gate.refused, budgetGate]
  cases firstBroken budget s c <;> rfl

/-- **One candidate.**  Unless it has no work, or more than can be added up, the gate looks at it
as its specification does. -/
lemma enforceCandidate_of (hfits : Fits budget) (hlimit : L.limit = budget.maxWorkUnits)
    (hom : om.length + 1 < 2 ^ 64) (hpositive : c.workUnits ≠ 0) :
    enforceCandidate (boundsOf budget) (packed S om, L) c =
      if 2 ^ 64 ≤ L.consumed + c.workUnits then
        .error (.invalidConfig "V2 work-unit accounting overflow")
      else .ok (packed ((⟨L.consumed, S⟩ : Spent).next budget c).selected
          (om ++ (budgetGate budget).refused ⟨L.consumed, S⟩ [c]),
        { L with consumed := ((⟨L.consumed, S⟩ : Spent).next budget c).work }) := by
  rw [enforceCandidate, DeepWorkLedger.tryCharge_eq, refused_one]
  simp only [ensure, if_pos hpositive, hlimit]
  by_cases hover : 2 ^ 64 ≤ L.consumed + c.workUnits
  · simp only [if_pos hover, bind, Except.bind]
  by_cases hwork : budget.maxWorkUnits < L.consumed + c.workUnits
  · have hfirst : firstBroken budget ⟨L.consumed, S⟩ c = some .workUnitBudget := by
      simp [firstBroken, precedence, Breaks, hwork]
    simp only [if_neg hover, if_pos hwork, bind, Except.bind, pure, Except.pure, packed_omit hom,
      Spent.next, hfirst]
    simp [← hlimit]
  · have homission : (packed S om).omission (boundsOf budget) c =
        firstBroken budget ⟨L.consumed, S⟩ c := omission_of hfits hwork
    have hne : firstBroken budget ⟨L.consumed, S⟩ c ≠ some .workUnitBudget := by
      intro h
      have hbreaks := List.find?_some h
      exact hwork (of_decide_eq_true hbreaks)
    cases hfirst : firstBroken budget ⟨L.consumed, S⟩ c with
    | none =>
      simp only [if_neg hover, if_neg hwork, bind, Except.bind, pure, Except.pure, Spent.next,
        homission, hfirst, packed_select hfits hfirst rfl]
      simp
    | some r =>
      have hr : r ≠ .workUnitBudget := fun h => hne (h ▸ hfirst)
      simp only [if_neg hover, if_neg hwork, bind, Except.bind, pure, Except.pure, Spent.next,
        homission, hfirst, packed_omit hom]
      simp [hr]

/-! ## All candidates -/

/-- What the ledger has charged for some candidates, each as far as the limit allows. -/
def chargedWork (limit : ℕ) (l : List DeepV2BudgetCandidate) : ℕ :=
  l.foldl (fun w c => if limit < w + c.workUnits then w else w + c.workUnits) 0

/-- The work of every candidate can be added to what was charged before it. -/
def WorkAdds (limit : ℕ) (cs : List DeepV2BudgetCandidate) : Prop :=
  ∀ before c behind, cs = before ++ c :: behind →
    chargedWork limit before + c.workUnits < 2 ^ 64

lemma firstBroken_eq_work_iff : firstBroken budget s c = some .workUnitBudget ↔
    budget.maxWorkUnits < s.work + c.workUnits := by
  constructor
  · intro h
    have hbreaks := List.find?_some h
    exact of_decide_eq_true hbreaks
  · intro h
    simp [firstBroken, precedence, Breaks, h]

lemma after_work (s : Spent) : ((budgetGate budget).after s cs).work =
    cs.foldl (fun w c => if budget.maxWorkUnits < w + c.workUnits then w else w + c.workUnits)
      s.work := by
  induction cs generalizing s with
  | nil => rfl
  | cons c cs ih =>
    rw [Gate.after_cons, ih, List.foldl_cons]
    simp only [budgetGate, Spent.next, firstBroken_eq_work_iff]

/-- **All candidates.**  The loop ends if the work can be added up, with what the gate selects
and omits. -/
lemma foldlM_enforceCandidate (hfits : Fits budget) (hlimit : L.limit = budget.maxWorkUnits)
    (hom : om.length + cs.length < 2 ^ 64) (hpositive : ∀ c ∈ cs, c.workUnits ≠ 0)
    {r : Packing × DeepWorkLedger} :
    cs.foldlM (enforceCandidate (boundsOf budget)) (packed S om, L) = .ok r ↔
      (∀ before c behind, cs = before ++ c :: behind →
        ((budgetGate budget).after ⟨L.consumed, S⟩ before).work + c.workUnits < 2 ^ 64) ∧
      r = (packed ((budgetGate budget).after ⟨L.consumed, S⟩ cs).selected
          (om ++ (budgetGate budget).refused ⟨L.consumed, S⟩ cs),
        { L with consumed := ((budgetGate budget).after ⟨L.consumed, S⟩ cs).work }) := by
  induction cs generalizing S om L with
  | nil =>
    rw [List.foldlM_nil]
    constructor
    · intro h
      obtain rfl := Except.ok.inj h
      exact ⟨fun _ _ _ heq => absurd heq (by simp), by simp [Gate.refused]⟩
    · rintro ⟨-, rfl⟩
      simp [Gate.refused, pure, Except.pure]
  | cons c cs ih =>
    rw [List.length_cons] at hom
    have hc : c.workUnits ≠ 0 := hpositive c List.mem_cons_self
    have hlong : om.length + 1 < 2 ^ 64 := by omega
    have hstep := enforceCandidate_of (S := S) hfits hlimit hlong hc
    have hrefused : (budgetGate budget).refused ⟨L.consumed, S⟩ (c :: cs) =
        (budgetGate budget).refused ⟨L.consumed, S⟩ [c] ++
          (budgetGate budget).refused ((⟨L.consumed, S⟩ : Spent).next budget c) cs :=
      Gate.refused_append (l := [c]) (m := cs)
    have hone : ((budgetGate budget).refused ⟨L.consumed, S⟩ [c]).length ≤ 1 := by
      have hle := (Gate.refused_sublist (G := budgetGate budget) (s := ⟨L.consumed, S⟩)
        (l := [c])).length_le
      simpa using hle
    rw [foldlM_cons_ok, hstep, Gate.forall_append_cons, Gate.after_nil]
    by_cases hover : 2 ^ 64 ≤ L.consumed + c.workUnits
    · rw [if_pos hover]
      exact iff_of_false (by simp) fun h => absurd h.1.1 (Nat.not_lt.mpr hover)
    · have hlength : (om ++ (budgetGate budget).refused ⟨L.consumed, S⟩ [c]).length + cs.length <
          2 ^ 64 := by
        rw [List.length_append]
        omega
      have htail := @ih ((⟨L.consumed, S⟩ : Spent).next budget c).selected _
        { L with consumed := ((⟨L.consumed, S⟩ : Spent).next budget c).work } hlimit hlength
        fun d hd => hpositive d (List.mem_cons_of_mem c hd)
      rw [if_neg hover, hrefused, ← List.append_assoc]
      simp only [Except.ok.injEq, exists_eq_left', htail, Gate.after_cons]
      exact ⟨fun h => ⟨⟨Nat.not_le.mp hover, h.1⟩, h.2⟩, fun h => ⟨h.1.2, h.2⟩⟩

/-! ## Reading off -/

/-- What the gate starts from. -/
def Spent.none : Spent := ⟨0, []⟩

lemma after_selected (s : Spent) : ((budgetGate budget).after s cs).selected =
    s.selected ++ (budgetGate budget).admitted s cs := by
  induction cs generalizing s with
  | nil => simp [Gate.admitted]
  | cons c cs ih =>
    rw [Gate.after_cons, ih, Gate.admitted]
    cases hfirst : firstBroken budget s c <;> simp [budgetGate, Spent.next, hfirst]

/-- The lists of an outcome are those of the gate. -/
structure Screened (budget : DeepSemanticBudget) (cs : List DeepV2BudgetCandidate)
    (o : DeepV2BudgetOutcome) : Prop where
  nodup : (cs.map DeepV2BudgetCandidate.candidateId).Nodup
  selected : o.selectedCandidateIds =
    ((budgetGate budget).admitted .none cs).map DeepV2BudgetCandidate.candidateId
  omitted : o.omittedCandidates = listed ((budgetGate budget).refused .none cs)

namespace Screened

variable (h : Screened budget cs o)

include h

lemma mem_selected (hcs : cs = before ++ c :: behind) : c.candidateId ∈ o.selectedCandidateIds ↔
    firstBroken budget ((budgetGate budget).after .none before) c = none := by
  rw [h.selected]
  exact Gate.key_mem_admitted h.nodup hcs

lemma mem_omitted (hcs : cs = before ++ c :: behind) :
    (c.candidateId, r) ∈ o.omittedCandidates ↔
      firstBroken budget ((budgetGate budget).after .none before) c = some r := by
  rw [h.omitted]
  exact Gate.key_mem_refused h.nodup hcs

lemma reasonOf_eq (hcs : cs = before ++ c :: behind) :
    reasonOf o c = firstBroken budget ((budgetGate budget).after .none before) c := by
  ext r
  rw [← h.mem_omitted hcs, reasonOf, Option.map_eq_some_iff]
  constructor
  · rintro ⟨⟨id, r'⟩, hfind, rfl⟩
    obtain rfl : id = c.candidateId := by simpa using List.find?_some hfind
    exact List.mem_of_find?_eq_some hfind
  · intro hmem
    have hsome : (o.omittedCandidates.find? fun x => x.1 = c.candidateId).isSome := by
      rw [List.find?_isSome]
      exact ⟨_, hmem, by simp⟩
    obtain ⟨⟨id, r'⟩, hfind⟩ := Option.isSome_iff_exists.mp hsome
    obtain rfl : id = c.candidateId := by simpa using List.find?_some hfind
    have hr := (h.mem_omitted hcs).mp (List.mem_of_find?_eq_some hfind)
    obtain rfl := Option.some.inj (hr.symm.trans ((h.mem_omitted hcs).mp hmem))
    exact ⟨_, hfind, rfl⟩

/-- What the gate has spent behind some candidates, and what it has omitted of them. -/
lemma after_eq (hcs : cs = before ++ behind) :
    (budgetGate budget).after .none before =
        ⟨workOf (chargedOf o before), selectedOf o before⟩ ∧
      ((budgetGate budget).refused .none before).map Prod.fst = omittedOf o before := by
  induction before using List.reverseRecOn generalizing behind with
  | nil => exact ⟨rfl, rfl⟩
  | append_singleton before c ih =>
    rw [List.append_assoc] at hcs
    obtain ⟨hafter, hrefused⟩ := ih hcs
    have hselected := h.mem_selected hcs
    have homitted := h.mem_omitted (r := .workUnitBudget) hcs
    constructor
    · rw [Gate.after_append, Gate.after_cons, Gate.after_nil]
      ext1
      · show (if firstBroken budget ((budgetGate budget).after .none before) c =
          some .workUnitBudget then _ else _) = _
        by_cases hmem : (c.candidateId, IrOmissionReasonV2.workUnitBudget) ∈ o.omittedCandidates
        · rw [if_pos (homitted.mp hmem), hafter]
          simp [chargedOf, hmem]
        · rw [if_neg (mt homitted.mpr hmem), hafter]
          simp [chargedOf, workOf, hmem]
      · show (if firstBroken budget ((budgetGate budget).after .none before) c = none then _
          else _) = _
        by_cases hmem : c.candidateId ∈ o.selectedCandidateIds
        · rw [if_pos (hselected.mp hmem), hafter]
          simp [selectedOf, hmem]
        · rw [if_neg (mt hselected.mpr hmem), hafter]
          simp [selectedOf, hmem]
    · rw [Gate.refused_append, List.map_append, hrefused, refused_one, omittedOf,
        omittedOf, List.filter_append]
      cases hfirst : firstBroken budget ((budgetGate budget).after .none before) c with
      | none => simp [hselected.mpr hfirst]
      | some r =>
        have hnot : c.candidateId ∉ o.selectedCandidateIds := fun hmem => by
          simp [hselected.mp hmem] at hfirst
        simp [hnot]

end Screened

/-! ## The limits -/

/-- What is spent is within the limits. -/
structure Within (budget : DeepSemanticBudget) (s : Spent) : Prop where
  uncertain : uncertain s.selected ≤ reserve budget
  ordinary : ordinary s.selected ≤ budget.maxRecords - reserve budget
  sourceBytes : sourceBytesOf s.selected ≤ budget.maxSourceBytes
  tokens : tokensOf s.selected ≤ budget.maxEstimatedTokens
  depth : ∀ c ∈ s.selected, c.relationshipDepth ≤ budget.maxDepth
  work : s.work ≤ budget.maxWorkUnits

lemma Within.none (budget : DeepSemanticBudget) : Within budget .none :=
  ⟨Nat.zero_le _, Nat.zero_le _, Nat.zero_le _, Nat.zero_le _, by simp [Spent.none],
    Nat.zero_le _⟩

/-- No candidate takes what is spent over a limit. -/
lemma Within.next (h : Within budget s) (c : DeepV2BudgetCandidate) :
    Within budget (s.next budget c) := by
  have hwork : (s.next budget c).work ≤ budget.maxWorkUnits := by
    rw [Spent.next]
    split
    next => exact h.work
    next hne => exact Nat.not_lt.mp (mt firstBroken_eq_work_iff.mpr hne)
  by_cases hnone : firstBroken budget s c = Option.none
  · have hbreaks : ∀ r ∈ precedence, ¬ Breaks budget s c r := by
      simpa [firstBroken, List.find?_eq_none] using hnone
    have hdepth := hbreaks .relationshipDepthBudget (by decide)
    have huncertain := hbreaks .uncertaintyReserve (by decide)
    have hordinary := hbreaks .recordBudget (by decide)
    have hsource := hbreaks .sourceByteBudget (by decide)
    have htokens := hbreaks .estimatedTokenBudget (by decide)
    simp only [Breaks, not_and, Nat.not_lt, Nat.not_le] at hdepth huncertain hordinary hsource htokens
    have hselected : (s.next budget c).selected = s.selected ++ [c] := if_pos hnone
    constructor
    · rw [hselected, uncertain_concat]
      split
      next hc => exact huncertain hc
      next hc => exact h.uncertain
    · rw [hselected, ordinary_concat]
      split
      next hc => exact h.ordinary
      next hc => exact hordinary hc
    · simpa [hselected, sourceBytesOf] using hsource
    · simpa [hselected, tokensOf] using htokens
    · intro d hd
      rw [hselected, List.mem_append, List.mem_singleton] at hd
      rcases hd with hd | rfl
      · exact h.depth d hd
      · exact hdepth
    · exact hwork
  · have hselected : (s.next budget c).selected = s.selected := if_neg hnone
    exact ⟨hselected ▸ h.uncertain, hselected ▸ h.ordinary, hselected ▸ h.sourceBytes,
      hselected ▸ h.tokens, hselected ▸ h.depth, hwork⟩

lemma Within.after (h : Within budget s) (cs : List DeepV2BudgetCandidate) :
    Within budget ((budgetGate budget).after s cs) := by
  induction cs generalizing s with
  | nil => exact h
  | cons c cs ih => exact ih (h.next c)

/-! ## The outcome -/

lemma validateExplicit_eq_ok {H : Hasher} :
    validateExplicit H budget = .ok () ↔ budget.validate H = .ok () := by
  rw [validateExplicit]
  cases budget.validate H <;> simp [Except.mapError]

/-- What a valid budget allows. -/
structure Allowed (budget : DeepSemanticBudget) : Prop where
  records : budget.maxRecords ≤ 100000
  sourceBytes : budget.maxSourceBytes ≤ 16 * 1024 * 1024
  tokens : budget.maxEstimatedTokens ≤ 4000000
  work : budget.maxWorkUnits ≤ 10000000
  percent : budget.uncertaintyReservePercent ≤ 100

lemma allowed_of_valid {H : Hasher} (hv : budget.validate H = .ok ()) : Allowed budget := by
  obtain ⟨hvalues, -⟩ := check_bind_eq_ok.mp hv
  rw [DeepSemanticBudget.validateValues, ensure_eq_ok] at hvalues
  obtain ⟨-, hrecords, -, hsource, -, htokens, -, -, -, hwork, -, hpercent⟩ := hvalues
  exact ⟨hrecords, hsource, htokens, hwork, hpercent⟩

lemma Allowed.fits (h : Allowed budget) : Fits budget :=
  ⟨h.sourceBytes.trans_lt (by norm_num), h.tokens.trans_lt (by norm_num)⟩

/-- The reserve is a part of the records. -/
lemma Allowed.reserve_le (h : Allowed budget) : reserve budget ≤ budget.maxRecords := by
  have hmul : budget.maxRecords * budget.uncertaintyReservePercent ≤ budget.maxRecords * 100 :=
    Nat.mul_le_mul_left _ h.percent
  rw [reserve]
  omega

lemma Allowed.uncertaintyReserveRecords (h : Allowed budget) :
    uncertaintyReserveRecords budget.maxRecords budget.uncertaintyReservePercent =
      .ok (reserve budget) := by
  have hmul : budget.maxRecords * budget.uncertaintyReservePercent ≤ 100000 * 100 :=
    Nat.mul_le_mul h.records h.percent
  have hproduct : budget.maxRecords * budget.uncertaintyReservePercent < 2 ^ 128 :=
    hmul.trans_lt (by norm_num)
  have hreserved : (budget.maxRecords * budget.uncertaintyReservePercent + 99) / 100 < 2 ^ 64 := by
    omega
  simp only [Deep.uncertaintyReserveRecords, ensure, if_pos hproduct, if_pos hreserved, bind,
    Except.bind, pure, Except.pure, reserve]

/-- Every candidate takes work, and the candidates are bounded, distinct and in the order of their
ranks. -/
structure Candidates (cs : List DeepV2BudgetCandidate) : Prop where
  canonical : CanonicalRanks cs
  positive : ∀ c ∈ cs, c.workUnits ≠ 0

/-- The budget of a document. -/
def semanticBudgetOf (H : Hasher) (budget : DeepSemanticBudget) : IrSemanticBudgetV2 where
  maxRecords := budget.maxRecords
  maxSourceBytes := budget.maxSourceBytes
  maxEstimatedTokens := budget.maxEstimatedTokens
  maxRelationshipDepth := budget.maxDepth
  maxWorkUnits := budget.maxWorkUnits
  uncertaintyReservePercent := budget.uncertaintyReservePercent
  budgetDigest := digestOf H "workspace-atlas/context-ir-v2-semantic-budget"
    (CanonicalEncoder.budgetValues budget)

/-- The outcome for what was selected and omitted. -/
def outcomeOf (H : Hasher) (budget : DeepSemanticBudget) (considered : ℕ) (s : Spent)
    (om : List (DeepV2BudgetCandidate × IrOmissionReasonV2)) : DeepV2BudgetOutcome where
  selectedCandidateIds := s.selected.map DeepV2BudgetCandidate.candidateId
  omittedCandidates := listed om
  semanticBudget := semanticBudgetOf H budget
  cost :=
    { selectedRecords := s.selected.length
      selectedSourceBytes := sourceBytesOf s.selected
      selectedEstimatedTokens := tokensOf s.selected
      relationshipDepthReached := depthOf s.selected
      workUnitsConsumed := s.work
      uncertaintyRecordsReserved := reserve budget
      uncertaintyRecordsSelected := uncertain s.selected }
  omissions :=
    { candidatesConsidered := considered
      selected := s.selected.length
      omitted := considered - s.selected.length
      truncated := considered - s.selected.length ≠ 0
      byReason := .tally (om.map Prod.snd) }

/-- **The gate.**  It accepts a list of candidates that is not too long and whose work can be
added up, and selects and omits them as specified. -/
lemma enforceDeepV2BudgetWithLedger_eq_ok_iff {H : Hasher} {r : DeepV2BudgetOutcome × DeepWorkLedger}
    (hv : budget.validate H = .ok ()) (hcs : Candidates cs) (hlimit : L.limit = budget.maxWorkUnits)
    (hconsumed : L.consumed ≤ budget.maxWorkUnits) :
    enforceDeepV2BudgetWithLedger H budget cs L = .ok r ↔
      cs.length ≤ maxContextExecutionRecords ∧
      (∀ before c behind, cs = before ++ c :: behind →
        ((budgetGate budget).after ⟨L.consumed, []⟩ before).work + c.workUnits < 2 ^ 64) ∧
      r = (outcomeOf H budget cs.length ((budgetGate budget).after ⟨L.consumed, []⟩ cs)
          ((budgetGate budget).refused ⟨L.consumed, []⟩ cs),
        { L with consumed := ((budgetGate budget).after ⟨L.consumed, []⟩ cs).work }) := by
  have hallowed := allowed_of_valid hv
  have hexplicit : validateExplicit H budget = .ok () := validateExplicit_eq_ok.mpr hv
  have hsemantic : IrSemanticBudgetV2.fromExplicitBudget H budget =
      .ok (semanticBudgetOf H budget) := by
    rw [IrSemanticBudgetV2.fromExplicitBudget, hexplicit]
    rfl
  have hledger : L.limit = budget.maxWorkUnits ∧ L.consumed ≤ budget.maxWorkUnits :=
    ⟨hlimit, hconsumed⟩
  have hstart : Packing.start = packed [] [] := by
    simp [Packing.start, packed, listed, Packing.of, sourceBytesOf, tokensOf, depthOf, ordinary, uncertain]
  have hselected : ((budgetGate budget).after ⟨L.consumed, []⟩ cs).selected.length ≤ cs.length := by
    rw [after_selected]
    exact Gate.admitted_sublist.length_le
  rw [enforceDeepV2BudgetWithLedger, check_bind_eq_ok, check_bind_eq_ok, check_bind_eq_ok,
    ensure_eq_ok, ensure_eq_ok]
  simp only [hexplicit, hledger, and_self, true_and, hallowed.uncertaintyReserveRecords,
    hsemantic, hstart]
  refine and_congr_right fun hlength => ?_
  change (ensure (CanonicalRanks cs) _ >>= fun _ => _) = _ ↔ _
  rw [check_bind_eq_ok, ensure_eq_ok, and_iff_right hcs.canonical, bind_ok]
  have hlong : ([] : List (DeepV2BudgetCandidate × IrOmissionReasonV2)).length + cs.length <
      2 ^ 64 := by
    rw [List.length_nil, Nat.zero_add]
    exact hlength.trans_lt (by decide)
  have hloop := fun q => foldlM_enforceCandidate (S := []) (r := q) hallowed.fits hlimit hlong
    hcs.positive
  rw [hlimit] at hloop
  constructor
  · rintro ⟨q, hq, hrest⟩
    obtain ⟨hadds, rfl⟩ := (hloop q).mp hq
    obtain ⟨-, hr⟩ := check_bind_eq_ok.mp hrest
    refine ⟨hadds, (Except.ok.inj hr).symm.trans ?_⟩
    simp [outcomeOf, packed, Packing.of]
  · rintro ⟨hadds, rfl⟩
    refine ⟨_, (hloop _).mpr ⟨hadds, rfl⟩, check_bind_eq_ok.mpr ⟨ensure_eq_ok.mpr ?_, ?_⟩⟩
    · simpa [packed, Packing.of] using hselected
    · simp [outcomeOf, packed, Packing.of, bind, Except.bind, pure, Except.pure]

/-- The outcome of the gate is exact. -/
lemma exact_outcomeOf (H : Hasher) (hallowed : Allowed budget) (hcs : Candidates cs) :
    Exact budget cs (outcomeOf H budget cs.length ((budgetGate budget).after .none cs)
      ((budgetGate budget).refused .none cs)) := by
  set o := outcomeOf H budget cs.length ((budgetGate budget).after .none cs)
    ((budgetGate budget).refused .none cs) with ho
  have hadmitted : ((budgetGate budget).after .none cs).selected =
      (budgetGate budget).admitted .none cs := after_selected .none
  have h : Screened budget cs o :=
    ⟨hcs.canonical.2.2, by rw [ho, outcomeOf, hadmitted], rfl⟩
  have hnil : cs = cs ++ [] := (List.append_nil cs).symm
  obtain ⟨hafter, hrefused⟩ := h.after_eq hnil
  have hwithin := (Within.none budget).after cs
  rw [hafter] at hwithin hadmitted
  replace hadmitted : selectedOf o cs = (budgetGate budget).admitted .none cs := hadmitted
  have hlength : cs.length = (selectedOf o cs).length + (omittedOf o cs).length := by
    rw [hadmitted, ← hrefused, ← List.length_append]
    exact Gate.perm_append.length_eq.symm
  have hcounted : cs.length - (selectedOf o cs).length = (omittedOf o cs).length := by omega
  have hout : o = outcomeOf H budget cs.length ⟨workOf (chargedOf o cs), selectedOf o cs⟩
      ((budgetGate budget).refused .none cs) := ho.trans (by rw [hafter])
  have hreason : ∀ x ∈ (budgetGate budget).refused .none cs, reasonOf o x.1 = some x.2 := by
    rintro ⟨c, r⟩ hx
    obtain ⟨before, behind, heq, hverdict⟩ := Gate.mem_refused.mp hx
    exact (h.reasonOf_eq heq).trans hverdict
  constructor
  case selected => exact congrArg DeepV2BudgetOutcome.selectedCandidateIds hout
  case omitted =>
    rw [h.omitted, ← hrefused, listed, List.map_map, List.map_map]
    rfl
  case reasons =>
    intro before c behind heq
    rw [h.reasonOf_eq heq, (h.after_eq heq).1]
  case uncertain_le => exact hwithin.uncertain
  case ordinary_le => exact hwithin.ordinary
  case records_le =>
    have hle := hallowed.reserve_le
    have huncertain : uncertain (selectedOf o cs) ≤ reserve budget := hwithin.uncertain
    have hordinary : ordinary (selectedOf o cs) ≤ budget.maxRecords - reserve budget :=
      hwithin.ordinary
    rw [length_eq_uncertain_add_ordinary]
    omega
  case sourceBytes_le => exact hwithin.sourceBytes
  case tokens_le => exact hwithin.tokens
  case depth_le => exact hwithin.depth
  case work_le => exact hwithin.work
  case cost => exact congrArg DeepV2BudgetOutcome.cost hout
  case considered => rfl
  case counts =>
    have hcounts := congrArg DeepV2BudgetOutcome.omissions hout
    rw [hcounts, ← hcounted]
    exact ⟨rfl, rfl, rfl⟩
  case byReason =>
    intro r
    show ((SortedMap.tally (((budgetGate budget).refused .none cs).map Prod.snd)).get r).getD 0 = _
    rw [SortedMap.getD_tally, ← hrefused, List.countP_map, List.count, List.countP_map]
    refine List.countP_congr fun x hx => ?_
    simp [hreason x hx]
  case sum_byReason =>
    show (SortedMap.tally _).values.sum = cs.length - ((budgetGate budget).after .none cs).selected.length
    rw [SortedMap.sum_values_tally, hafter, hcounted, ← hrefused, List.length_map, List.length_map]

lemma after_none_work : ((budgetGate budget).after .none cs).work =
    chargedWork budget.maxWorkUnits cs := after_work .none

lemma enforceDeepV2Budget_eq_ok_iff {H : Hasher} (hv : budget.validate H = .ok ())
    (hcs : Candidates cs) : enforceDeepV2Budget H budget cs = .ok o ↔
      cs.length ≤ maxContextExecutionRecords ∧ WorkAdds budget.maxWorkUnits cs ∧
        o = outcomeOf H budget cs.length ((budgetGate budget).after .none cs)
          ((budgetGate budget).refused .none cs) := by
  have hwork : WorkAdds budget.maxWorkUnits cs ↔ ∀ before c behind, cs = before ++ c :: behind →
      ((budgetGate budget).after .none before).work + c.workUnits < 2 ^ 64 := by
    simp only [WorkAdds, after_none_work]
  rw [enforceDeepV2Budget, bind_ok, hwork]
  constructor
  · rintro ⟨r, hr, ho⟩
    obtain ⟨hlength, hadds, rfl⟩ :=
      (enforceDeepV2BudgetWithLedger_eq_ok_iff hv hcs rfl (Nat.zero_le _)).mp hr
    exact ⟨hlength, hadds, (Except.ok.inj ho).symm⟩
  · rintro ⟨hlength, hadds, rfl⟩
    exact ⟨_, (enforceDeepV2BudgetWithLedger_eq_ok_iff hv hcs rfl (Nat.zero_le _)).mpr
      ⟨hlength, hadds, rfl⟩, rfl⟩

end Lemmas

lemma sampleBudget_valid : sampleBudget.validate sampleHasher = .ok () :=
  check_bind_eq_ok.mpr ⟨ensure_eq_ok.mpr (by decide), ensure_eq_ok.mpr rfl⟩

/-- A candidate that fits, one with too much source, and one that fits behind it. -/
def sampleCandidates : List DeepV2BudgetCandidate :=
  [⟨"a", 0, 4000, 10, 1, 1, false⟩, ⟨"b", 1, 97, 10, 1, 1, false⟩, ⟨"c", 2, 96, 10, 1, 1, true⟩]

example : (enforceDeepV2Budget sampleHasher sampleBudget sampleCandidates).toOption.map
    (fun o => (o.selectedCandidateIds, o.omittedCandidates)) =
      some (["a", "c"], [("b", .sourceByteBudget)]) := by decide +kernel

/-- Two candidates, of which the second takes the greatest number as its work. -/
def heaviest : List DeepV2BudgetCandidate :=
  [⟨"a", 0, 0, 0, 0, 1, false⟩, ⟨"b", 1, 0, 0, 0, 0xFFFFFFFFFFFFFFFF, false⟩]

/-- One candidate more than an execution may have. -/
def longest : List DeepV2BudgetCandidate :=
  (List.range (maxContextExecutionRecords + 1)).map fun n =>
    ⟨String.ofList (Nat.toDigits 10 n), n, 0, 0, 0, 1, false⟩

lemma candidates_heaviest : Candidates heaviest := ⟨by decide, by decide⟩

/-- The names of the candidates are their numbers. -/
lemma candidates_longest : Candidates longest := by
  have hname : ∀ n ≤ maxContextExecutionRecords,
      (utf8 (String.ofList (Nat.toDigits 10 n))).length ≤ 512 := by
    intro n hn
    have hsize : ∀ l : List Char, (l.flatMap String.utf8EncodeChar).length ≤ 4 * l.length := by
      intro l
      induction l with
      | nil => exact Nat.zero_le _
      | cons c l ih =>
        have hc := c.utf8Size_le_four
        rw [List.flatMap_cons, List.length_append, String.length_utf8EncodeChar, List.length_cons]
        omega
    have hlt : n < 10 ^ 6 := hn.trans_lt (by norm_num [maxContextExecutionRecords])
    have hdigits := Nat.toDigits_length 10 n 6 (by norm_num) hlt
    rw [utf8_ofList]
    have hle := hsize (Nat.toDigits 10 n)
    omega
  refine ⟨⟨?_, ?_, ?_⟩, ?_⟩
  · intro c hc
    obtain ⟨n, hn, rfl⟩ := List.mem_map.mp hc
    rw [List.mem_range] at hn
    refine ⟨fun h => Nat.toDigits_ne_nil (String.ofList_inj.mp h), hname n (by omega)⟩
  · rw [longest, List.map_map, List.length_map, List.length_range]
    exact List.map_id _
  · rw [longest, List.map_map]
    refine List.Nodup.map (fun m n h => ?_) List.nodup_range
    exact Text.Json.toDigits_injective (String.ofList_inj.mp h)
  · intro c hc
    obtain ⟨n, -, rfl⟩ := List.mem_map.mp hc
    exact Nat.one_ne_zero

lemma not_workAdds_heaviest : ¬ WorkAdds sampleBudget.maxWorkUnits heaviest := fun h =>
  absurd (h [⟨"a", 0, 0, 0, 0, 1, false⟩] ⟨"b", 1, 0, 0, 0, 0xFFFFFFFFFFFFFFFF, false⟩ [] rfl)
    (by decide)

end WorkspaceAtlas.Deep
