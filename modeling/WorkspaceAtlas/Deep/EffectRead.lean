/-
# What the effect closure reads

The closure as a computation on numbers: which facts are looked at depends on the work that is
left, and of these the leading ones, the first of their entity and type, are all that it
reports about.
-/
import WorkspaceAtlas.Deep.Additional
import WorkspaceAtlas.Deep.Effects

namespace WorkspaceAtlas.Deep

open Relational Transition ContextRoute

/-! ## Reading -/

/-- What is read about an entity. -/
structure EffectRead where
  subject : Subject
  /-- The facts that are looked at. -/
  rows : List EffectRow
  /-- Those that are the first of their type. -/
  leading : List EffectRow
  /-- The work does not allow all facts. -/
  short : Bool

local instance lawfulBEq_effectKey : LawfulBEq (String × String) := inferInstance

/-- The facts that are the first with their key. -/
def leadingFrom (subject : Subject) (seen : List (String × String)) :
    List EffectRow → List EffectRow
  | [] => []
  | row :: rest =>
    if effectKey subject row ∈ seen then leadingFrom subject seen rest
    else row :: leadingFrom subject (effectKey subject row :: seen) rest

/-- The keys after the facts. -/
def seenAfter (subject : Subject) (seen : List (String × String)) :
    List EffectRow → List (String × String)
  | [] => seen
  | row :: rest =>
    if effectKey subject row ∈ seen then seenAfter subject seen rest
    else seenAfter subject (effectKey subject row :: seen) rest

/-- What is read about the entities: every fetched row takes one unit of the work that is left,
and every leading one takes another one. -/
def effectReads (store : EffectStore) (generationId : String) (maxRecords : ℕ) :
    ℕ → List (String × String) → List Subject → List EffectRead
  | _, _, [] => []
  | remaining, seen, subject :: rest =>
    let rowLimit := effectRowLimit remaining maxRecords
    if rowLimit = 0 then [⟨subject, [], [], true⟩]
    else
      let fetched := (store.effectRows generationId subject).take (rowLimit + 1)
      let rows := fetched.take rowLimit
      let leading := leadingFrom subject seen rows
      ⟨subject, rows, leading, rowLimit < fetched.length⟩ ::
        effectReads store generationId maxRecords
          (remaining - fetched.length - leading.length) (seenAfter subject seen rows) rest

/-- The evidence of the fact is in question. -/
def EffectRow.InQuestion (row : EffectRow) : Prop :=
  (evidenceReasonForQuality row.quality).isSome

/-- A notice names the entity. -/
def Named (document : DeepContextIrV2 ℚ) (entityId : String) : Prop :=
  ∃ notice ∈ document.uncertainty, entityId ∈ notice.entityIds

section Notices

variable {document : DeepContextIrV2 ℚ} {code : IrOmissionReasonV2} {ids : List String}
  {notices : List IrNoticeV2} {e : String}

lemma mem_sortDedup : e ∈ sortDedup ids ↔ e ∈ ids := by
  rw [sortDedup, List.mem_dedup, mem_orderBy]

lemma mem_extendNotice : (∃ notice ∈ extendNotice code ids notices, e ∈ notice.entityIds) ↔
    (∃ notice ∈ notices, e ∈ notice.entityIds) ∨
      e ∈ ids ∧ ∃ notice ∈ notices, notice.code = code := by
  induction notices with
  | nil => simp [extendNotice]
  | cons notice rest ih =>
    rw [extendNotice]
    by_cases hcode : notice.code = code
    · rw [if_pos hcode]
      simp only [List.exists_mem_cons_iff, mem_sortDedup, List.mem_append, hcode, true_or, and_true]
      exact or_right_comm
    · rw [if_neg hcode]
      simp only [List.exists_mem_cons_iff, hcode, false_or, ih, or_assoc]

/-- A notice names its entities, and no other entity is named. -/
lemma named_addTemporalNotice :
    Named (addTemporalNotice document code ids) e ↔ Named document e ∨ e ∈ ids := by
  unfold addTemporalNotice
  split
  next hnone => simp [hnone.1]
  next =>
    split
    next hany =>
      obtain ⟨notice, hmem, hcode⟩ := List.any_eq_true.mp hany
      have hcode : ∃ notice ∈ document.uncertainty, notice.code = code :=
        ⟨notice, hmem, of_decide_eq_true hcode⟩
      rw [Named, mem_extendNotice, mem_sortDedup, and_iff_left hcode]
      rfl
    next =>
      simp only [Named, mem_orderBy, List.mem_append, List.mem_singleton, or_and_right,
        exists_or, exists_eq_left, mem_sortDedup]

/-- Nothing but the notices changes. -/
lemma addTemporalNotice_eq (document : DeepContextIrV2 ℚ) (code : IrOmissionReasonV2)
    (ids : List String) : ∃ notices,
    addTemporalNotice document code ids = { document with uncertainty := notices } := by
  unfold addTemporalNotice
  split
  · exact ⟨_, rfl⟩
  · split <;> exact ⟨_, rfl⟩

end Notices

/-! ## The rows of one entity -/

section Scan

variable {H : Hasher} {subject : Subject} {startingRank : ℕ} {c c' : EffectScan}
  {row : EffectRow} {rows : List EffectRow} {gid : String}

/-- The tokens that the item of a fact is estimated at. -/
def effectTokens (H : Hasher) (generationId : String) (subject : Subject) (row : EffectRow) : ℕ :=
  let entityId := (HopEndpoint.fromEntityId (subjectEntityId subject)).entityId
  let itemId := deterministicId H "item" ["role-closure", generationId, row.effectFactId, entityId]
  max (((utf8 itemId).length + (utf8 entityId).length + 3) / 4) 1

/-- The candidate of a fact. -/
structure CandidateOf (H : Hasher) (generationId : String) (subject : Subject) (row : EffectRow)
    (candidate : DeepV2SeedCandidate) : Prop where
  role_eq : candidate.item.role = .effect
  state_eq : candidate.item.evidence.state = row.quality
  id_eq : candidate.budget.candidateId = candidate.item.itemId
  plain : candidate.budget.Plain
  tokens_eq : candidate.budget.estimatedTokens = effectTokens H generationId subject row

/-- What scanning the rows comes to. -/
structure Scanned (H : Hasher) (subject : Subject) (c : EffectScan) (rows : List EffectRow)
    (c' : EffectScan) : Prop where
  seen_eq : c'.seenEffects = seenAfter subject c.seenEffects rows
  deficit_iff : HasDeficit c'.deficits .effect ↔ HasDeficit c.deficits .effect ∨
    ∃ row ∈ leadingFrom subject c.seenEffects rows, row.InQuestion
  named_iff : ∀ e, Named c'.document e ↔ Named c.document e ∨ e = subjectEntityId subject ∧
    ∃ row ∈ leadingFrom subject c.seenEffects rows, row.InQuestion
  document_eq : ∃ notices, c'.document = { c.document with uncertainty := notices }
  candidates : ∃ new, c'.candidates = c.candidates ++ new ∧
    List.Forall₂ (CandidateOf H c.document.workspace.generationId subject)
      (leadingFrom subject c.seenEffects rows) new

lemma deepV2ClosureCandidate_ok {candidate : DeepV2SeedCandidate} {rank : ℕ}
    (h : deepV2ClosureCandidate H gid row.effectFactId (.fromEntityId (subjectEntityId subject))
      .effect .effectRelation row.effectFactId 0 rank (row.evidence gid) = .ok candidate) :
    CandidateOf H gid subject row candidate := by
  obtain ⟨metadataBytes, hadd, hret⟩ := bind_ok.mp h
  obtain ⟨-, rfl⟩ := checkedAdd_ok.mp hadd
  obtain rfl := Except.ok.inj hret
  exact ⟨rfl, rfl, rfl, ⟨rfl, rfl, rfl⟩, rfl⟩

lemma note_deficit {quality : EvidenceQuality} :
    HasDeficit (c.note subject quality).deficits .effect ↔
      HasDeficit c.deficits .effect ∨ (evidenceReasonForQuality quality).isSome := by
  unfold EffectScan.note
  cases evidenceReasonForQuality quality with
  | none => simp
  | some reason => simp

lemma note_named {quality : EvidenceQuality} {e : String} :
    Named (c.note subject quality).document e ↔ Named c.document e ∨
      e = subjectEntityId subject ∧ (evidenceReasonForQuality quality).isSome := by
  unfold EffectScan.note
  cases evidenceReasonForQuality quality with
  | none => simp
  | some reason => simp [named_addTemporalNotice]

lemma note_frame (c : EffectScan) (subject : Subject) (quality : EvidenceQuality) :
    (c.note subject quality).seenEffects = c.seenEffects ∧
      (c.note subject quality).candidates = c.candidates ∧
      ∃ notices, (c.note subject quality).document =
        { c.document with uncertainty := notices } := by
  unfold EffectScan.note
  cases evidenceReasonForQuality quality with
  | none => exact ⟨rfl, rfl, _, rfl⟩
  | some reason =>
    obtain ⟨notices, h⟩ := addTemporalNotice_eq c.document reason [subjectEntityId subject]
    exact ⟨rfl, rfl, notices, h⟩

/-- **One row.** -/
lemma scanEffect_ok (h : scanEffect H subject startingRank c row = .ok c') :
    Scanned H subject c [row] c' := by
  unfold scanEffect at h
  dsimp only at h
  by_cases hseen : effectKey subject row ∈ c.seenEffects
  · rw [if_pos hseen] at h
    obtain rfl := Except.ok.inj h
    have hnone : leadingFrom subject c.seenEffects [row] = [] := by simp [leadingFrom, hseen]
    refine ⟨by simp [seenAfter, hseen], by simp [hnone], by simp [hnone], ⟨_, rfl⟩, [], by simp,
      ?_⟩
    rw [hnone]
    exact .nil
  · rw [if_neg hseen] at h
    obtain ⟨candidate, hcandidate, hret⟩ := bind_ok.mp h
    obtain rfl := Except.ok.inj hret
    have hone : leadingFrom subject c.seenEffects [row] = [row] := by simp [leadingFrom, hseen]
    obtain ⟨hkeys, hcandidates, notices, hdocument⟩ := note_frame
      { c with seenEffects := effectKey subject row :: c.seenEffects } subject row.quality
    refine ⟨?_, ?_, fun e => ?_, ⟨notices, hdocument⟩, [candidate], ?_, ?_⟩
    · simpa [seenAfter, hseen] using hkeys
    · rw [hone]
      simpa [EffectRow.InQuestion] using note_deficit
    · rw [hone]
      simpa [EffectRow.InQuestion] using note_named
    · exact congrArg (· ++ [candidate]) hcandidates
    · rw [hone]
      refine .cons ?_ .nil
      have hgid : ({ c with seenEffects := effectKey subject row :: c.seenEffects }.note subject
          row.quality).document.workspace.generationId = c.document.workspace.generationId := by
        rw [hdocument]
      have hok := deepV2ClosureCandidate_ok hcandidate
      rwa [hgid] at hok

lemma leadingFrom_append {l m : List EffectRow} {seen : List (String × String)} :
    leadingFrom subject seen (l ++ m) =
      leadingFrom subject seen l ++ leadingFrom subject (seenAfter subject seen l) m := by
  induction l generalizing seen with
  | nil => rfl
  | cons row l ih =>
    rw [List.cons_append, leadingFrom, leadingFrom, seenAfter]
    split
    · exact ih
    · rw [ih, List.cons_append]

lemma seenAfter_append {l m : List EffectRow} {seen : List (String × String)} :
    seenAfter subject seen (l ++ m) = seenAfter subject (seenAfter subject seen l) m := by
  induction l generalizing seen with
  | nil => rfl
  | cons row l ih =>
    rw [List.cons_append, seenAfter, seenAfter]
    split
    · exact ih
    · exact ih

/-- **All rows.** -/
lemma foldlM_scanEffect_ok (h : rows.foldlM (scanEffect H subject startingRank) c = .ok c') :
    Scanned H subject c rows c' := by
  induction rows generalizing c with
  | nil =>
    obtain rfl := Except.ok.inj h
    exact ⟨rfl, by simp [leadingFrom], by simp [leadingFrom], ⟨_, rfl⟩, [], by simp, .nil⟩
  | cons row rows ih =>
    obtain ⟨mid, hstep, hrest⟩ := foldlM_cons_ok.mp h
    have hone := scanEffect_ok hstep
    have htail := ih hrest
    obtain ⟨notices, hmid⟩ := hone.document_eq
    obtain ⟨notices', hend⟩ := htail.document_eq
    obtain ⟨new, hnew, hall⟩ := hone.candidates
    obtain ⟨new', hnew', hall'⟩ := htail.candidates
    have happend : leadingFrom subject c.seenEffects (row :: rows) =
        leadingFrom subject c.seenEffects [row] ++ leadingFrom subject mid.seenEffects rows := by
      rw [hone.seen_eq]
      exact leadingFrom_append (l := [row])
    refine ⟨?_, ?_, fun e => ?_, ⟨notices', ?_⟩, new ++ new', ?_, ?_⟩
    · rw [htail.seen_eq, hone.seen_eq]
      exact (seenAfter_append (l := [row]) (m := rows)).symm
    · rw [htail.deficit_iff, hone.deficit_iff, happend, or_assoc]
      simp only [List.mem_append, or_and_right, exists_or]
    · rw [htail.named_iff, hone.named_iff, happend, or_assoc, ← and_or_left]
      simp only [List.mem_append, or_and_right, exists_or]
    · rw [hend, hmid]
    · rw [hnew', hnew, List.append_assoc]
    · rw [happend]
      have hgid : mid.document.workspace.generationId = c.document.workspace.generationId := by
        rw [hmid]
      rw [hgid] at hall'
      exact List.rel_append hall hall'

/-! ## Packing -/

/-- The candidate is one of an effect. -/
structure DeepV2SeedCandidate.IsEffect (candidate : DeepV2SeedCandidate) : Prop where
  role_eq : candidate.item.role = .effect
  id_eq : candidate.budget.candidateId = candidate.item.itemId
  plain : candidate.budget.Plain

/-- The candidates of the scan fit next to the working set. -/
def EffectScan.Fits (c : EffectScan) : Prop :=
  c.document.packing.FitsAll c.document.bounds (c.candidates.map DeepV2SeedCandidate.budget)

/-- What packing the candidates comes to. -/
structure PackedFrom (c : EffectScan) (workLedger : DeepWorkLedger) (s' : EffectState) :
    Prop where
  certain_le : c.document.cost.uncertaintyRecordsSelected ≤ c.document.cost.selectedRecords
  limit_eq : s'.workLedger.limit = workLedger.limit
  consumed_eq : s'.workLedger.consumed = workLedger.consumed + c.candidates.length
  seen_eq : s'.seenEffects = c.seenEffects
  policy_eq : s'.document.policy = c.document.policy
  workspace_eq : s'.document.workspace = c.document.workspace
  uncertainty_eq : s'.document.uncertainty = c.document.uncertainty
  deficit_iff : HasDeficit s'.deficits .effect ↔ HasDeficit c.deficits .effect ∨ ¬ c.Fits
  items : ∃ new, s'.document.workingSet = c.document.workingSet ++ new ∧
    (∀ item ∈ new, item ∈ c.candidates.map DeepV2SeedCandidate.item) ∧
    (c.Fits → new = c.candidates.map DeepV2SeedCandidate.item)
  reserved_eq : s'.document.cost.uncertaintyRecordsReserved =
    c.document.cost.uncertaintyRecordsReserved
  certain_eq : s'.document.cost.uncertaintyRecordsSelected =
    c.document.cost.uncertaintyRecordsSelected
  cost_eq : c.Fits →
    s'.document.cost.selectedRecords = c.document.workingSet.length + c.candidates.length ∧
    s'.document.cost.selectedEstimatedTokens = c.document.cost.selectedEstimatedTokens +
      tokensOf (c.candidates.map DeepV2SeedCandidate.budget) ∧
    s'.document.cost.selectedSourceBytes = c.document.cost.selectedSourceBytes

/-- Every omitted candidate leaves a deficit of its role. -/
lemma hasDeficit_omitted {candidates : List DeepV2SeedCandidate}
    (hall : ∀ x ∈ candidates, x.IsEffect) {omitted : List (String × IrOmissionReasonV2)}
    (hmem : ∀ x ∈ omitted, x.1 ∈ candidates.map fun candidate => candidate.budget.candidateId)
    (deficits : List DeepV2RoleDeficit) :
    HasDeficit (omitted.foldl (fun deficits omitted =>
      match candidates.find? fun candidate => candidate.budget.candidateId = omitted.1 with
      | none => deficits
      | some candidate => recordRoleDeficit candidate.item.role omitted.2 deficits) deficits)
        .effect ↔ HasDeficit deficits .effect ∨ omitted ≠ [] := by
  induction omitted generalizing deficits with
  | nil => simp
  | cons x rest ih =>
    obtain ⟨candidate, hcandidate, hid⟩ := List.mem_map.mp (hmem x List.mem_cons_self)
    have hsome : (candidates.find? fun candidate =>
        candidate.budget.candidateId = x.1).isSome := by
      rw [List.find?_isSome]
      exact ⟨candidate, hcandidate, decide_eq_true hid⟩
    obtain ⟨found, hfound⟩ := Option.isSome_iff_exists.mp hsome
    rw [List.foldl_cons, ih (fun y hy => hmem y (List.mem_cons_of_mem x hy)), hfound]
    simp only [hasDeficit_recordRoleDeficit, (hall found (List.mem_of_find?_eq_some hfound)).role_eq]
    simp

/-- **Packing.** -/
lemma packEffects_ok {workLedger : DeepWorkLedger} {s' : EffectState}
    (hall : ∀ x ∈ c.candidates, x.IsEffect) (h : packEffects c workLedger = .ok s') :
    PackedFrom c workLedger s' := by
  obtain ⟨⟨granted, ledger⟩, hcharge, hrest⟩ := bind_ok.mp h
  obtain ⟨⟨⟩, hgranted, hpack⟩ := bind_ok.mp hrest
  obtain ⟨o, ho, hret⟩ := bind_ok.mp hpack
  obtain rfl := ensure_eq_ok.mp hgranted
  obtain ⟨-, -, rfl⟩ := DeepWorkLedger.tryCharge_granted.mp hcharge
  obtain rfl := Except.ok.inj hret
  have hplain : ∀ b ∈ c.candidates.map DeepV2SeedCandidate.budget, b.Plain := by
    intro b hb
    obtain ⟨x, hx, rfl⟩ := List.mem_map.mp hb
    exact (hall x hx).plain
  have hext := enforcePrechargedAdditionalDeepV2Budget_ok hplain ho
  have hnil : o.omittedCandidates = [] ↔ c.Fits := hext.omitted_eq_nil
  have hmem := hext.omitted_mem
  rw [List.map_map] at hmem
  refine ⟨hext.certain_le, rfl, rfl, rfl, rfl, rfl, rfl, ?_,
    ⟨_, rfl, fun item hitem => ?_, fun hfits => ?_⟩,
    hext.reserved_eq, hext.uncertainty_eq, fun hfits => ?_⟩
  · refine (hasDeficit_omitted hall hmem c.deficits).trans (or_congr_right ?_)
    rw [← hnil]
  · exact (List.mem_filter.mp hitem).1
  · refine List.filter_eq_self.mpr fun item hitem => ?_
    obtain ⟨x, hx, rfl⟩ := List.mem_map.mp hitem
    rw [(hext.selected hfits).1, decide_eq_true_eq, ← (hall x hx).id_eq]
    exact List.mem_append_right _ (List.mem_map_of_mem (List.mem_map_of_mem hx))
  · obtain ⟨-, hrecords, htokens, hsource⟩ := hext.selected hfits
    rw [List.length_map] at hrecords
    exact ⟨hrecords, htokens, hsource⟩

end Scan

/-! ## One entity -/

/-- The tokens of the items of some facts. -/
def tokensOfEffects (H : Hasher) (generationId : String) (subject : Subject)
    (rows : List EffectRow) : ℕ := (rows.map (effectTokens H generationId subject)).sum

/-- What reading about an entity comes to; the facts that are looked at are these rows. -/
structure Populated (H : Hasher) (subject : Subject) (fetched rows : List EffectRow)
    (short : Prop) (s s' : EffectState) : Prop where
  certain_le : s.document.cost.uncertaintyRecordsSelected ≤ s.document.cost.selectedRecords
  remaining_eq : s'.workLedger.remaining = s.workLedger.remaining - fetched.length -
    (leadingFrom subject s.seenEffects rows).length
  seen_eq : s'.seenEffects = seenAfter subject s.seenEffects rows
  policy_eq : s'.document.policy = s.document.policy
  workspace_eq : s'.document.workspace = s.document.workspace
  named_iff : ∀ e, Named s'.document e ↔ Named s.document e ∨ e = subjectEntityId subject ∧
    ∃ row ∈ leadingFrom subject s.seenEffects rows, row.InQuestion
  deficit_iff : HasDeficit s'.deficits .effect ↔ HasDeficit s.deficits .effect ∨ short ∨
    (∃ row ∈ leadingFrom subject s.seenEffects rows, row.InQuestion) ∨
    ¬ s.document.Fits (leadingFrom subject s.seenEffects rows).length
      (tokensOfEffects H s.document.workspace.generationId subject
        (leadingFrom subject s.seenEffects rows))
  items : ∃ new, s'.document.workingSet = s.document.workingSet ++ new ∧
    (∀ item ∈ new, item.role = .effect ∧ ∃ row ∈ leadingFrom subject s.seenEffects rows,
      item.evidence.state = row.quality) ∧
    (s.document.Fits (leadingFrom subject s.seenEffects rows).length
      (tokensOfEffects H s.document.workspace.generationId subject
        (leadingFrom subject s.seenEffects rows)) →
      new.length = (leadingFrom subject s.seenEffects rows).length)
  bounds_eq : s'.document.bounds = s.document.bounds
  certain_eq : s'.document.cost.uncertaintyRecordsSelected =
    s.document.cost.uncertaintyRecordsSelected
  cost_eq : s.document.Fits (leadingFrom subject s.seenEffects rows).length
      (tokensOfEffects H s.document.workspace.generationId subject
        (leadingFrom subject s.seenEffects rows)) →
    s'.document.cost.selectedRecords =
        s.document.workingSet.length + (leadingFrom subject s.seenEffects rows).length ∧
      s'.document.cost.selectedEstimatedTokens = s.document.cost.selectedEstimatedTokens +
        tokensOfEffects H s.document.workspace.generationId subject
          (leadingFrom subject s.seenEffects rows) ∧
      s'.document.cost.selectedSourceBytes = s.document.cost.selectedSourceBytes

section Loop

variable {H : Hasher} {store : EffectStore} {subject : Subject} {rowLimit : ℕ}
  {s s' : EffectState} {document document' : DeepContextIrV2 ℚ}
  {deficits deficits' : List DeepV2RoleDeficit} {workLedger workLedger' : DeepWorkLedger}

/-- Only the omissions and the notices change, and no entity is named. -/
lemma omitEffects_ok (h : omitEffects document deficits = .ok (document', deficits')) :
    (∃ omissions notices, document' = { document with
      omissions := omissions
      uncertainty := notices }) ∧
    (∀ e, Named document' e ↔ Named document e) ∧ HasDeficit deficits' .effect := by
  obtain ⟨mid, hmid, hret⟩ := bind_ok.mp h
  obtain ⟨rfl, rfl⟩ := Prod.mk.inj (Except.ok.inj hret)
  obtain ⟨considered, -, hmid⟩ := bind_ok.mp hmid
  obtain ⟨omitted, -, hmid⟩ := bind_ok.mp hmid
  obtain ⟨reasonCount, -, hmid⟩ := bind_ok.mp hmid
  obtain rfl := Except.ok.inj hmid
  refine ⟨?_, fun e => ?_, hasDeficit_recordRoleDeficit.mpr (Or.inr rfl)⟩
  · obtain ⟨notices, hnotices⟩ := addTemporalNotice_eq { document with
      omissions := { document.omissions with
        candidatesConsidered := considered
        omitted := omitted
        byReason := document.omissions.byReason.insert .workUnitBudget reasonCount
        truncated := true } } .workUnitBudget []
    exact ⟨_, notices, hnotices⟩
  · rw [named_addTemporalNotice]
    simp [Named]

/-- The candidates of the facts. -/
lemma forall₂_candidateOf {gid : String} {rows : List EffectRow} {new : List DeepV2SeedCandidate}
    (h : List.Forall₂ (CandidateOf H gid subject) rows new) :
    new.length = rows.length ∧ (∀ x ∈ new, x.IsEffect) ∧
      tokensOf (new.map DeepV2SeedCandidate.budget) = tokensOfEffects H gid subject rows ∧
      ∀ x ∈ new, ∃ row ∈ rows, x.item.evidence.state = row.quality := by
  induction h with
  | nil => simp [tokensOf, tokensOfEffects]
  | @cons row candidate rows new hone hrest ih =>
    obtain ⟨hlength, heffect, htokens, hstate⟩ := ih
    refine ⟨by simp [hlength], ?_, ?_, ?_⟩
    · intro x hx
      rcases List.mem_cons.mp hx with rfl | hx
      · exact ⟨hone.role_eq, hone.id_eq, hone.plain⟩
      · exact heffect x hx
    · simp only [tokensOf, tokensOfEffects, List.map_cons, List.sum_cons] at htokens ⊢
      rw [htokens, hone.tokens_eq]
    · intro x hx
      rcases List.mem_cons.mp hx with rfl | hx
      · exact ⟨row, List.mem_cons_self, hone.state_eq⟩
      · obtain ⟨row', hrow', heq⟩ := hstate x hx
        exact ⟨row', List.mem_cons_of_mem row hrow', heq⟩

/-- **One entity.** -/
lemma populateEffects_ok (h : populateEffects H store subject rowLimit s = .ok s') :
    Populated H subject
      ((store.effectRows s.document.workspace.generationId subject).take (rowLimit + 1))
      (((store.effectRows s.document.workspace.generationId subject).take (rowLimit + 1)).take
        rowLimit)
      (rowLimit < ((store.effectRows s.document.workspace.generationId subject).take
        (rowLimit + 1)).length) s s' := by
  obtain ⟨fetchLimit, hadd, hreserve⟩ := bind_ok.mp h
  obtain ⟨-, rfl⟩ := checkedAdd_ok.mp hadd
  obtain ⟨⟨reservation, ledger₁⟩, hledger₁, hrange⟩ := bind_ok.mp hreserve
  obtain ⟨⟨⟩, -, hsettle⟩ := bind_ok.mp hrange
  obtain ⟨ledger₂, hledger₂, htrunc⟩ := bind_ok.mp hsettle
  obtain ⟨⟨document₁, deficits₁⟩, hdocument₁, hscan⟩ := bind_ok.mp htrunc
  obtain ⟨c, hc, hpack⟩ := bind_ok.mp hscan
  obtain ⟨-, -, hle, rfl, rfl⟩ := DeepWorkLedger.reserveSqlRows_ok.mp hledger₁
  obtain ⟨hfetched, -, rfl⟩ := DeepWorkLedger.settleSqlRows_ok.mp hledger₂
  generalize hgen : (store.effectRows s.document.workspace.generationId subject).take
    (rowLimit + 1) = fetched at *
  -- where the scan starts
  have hstart : (∃ omissions notices, document₁ = { s.document with
      omissions := omissions
      uncertainty := notices }) ∧ (∀ e, Named document₁ e ↔ Named s.document e) ∧
      (HasDeficit deficits₁ .effect ↔
        HasDeficit s.deficits .effect ∨ rowLimit < fetched.length) := by
    unfold markShort at hdocument₁
    split at hdocument₁
    next hshort =>
      obtain ⟨hframe, hnamed, hdeficit⟩ := omitEffects_ok hdocument₁
      exact ⟨hframe, hnamed, iff_of_true hdeficit (Or.inr hshort)⟩
    next hshort =>
      obtain ⟨rfl, rfl⟩ := Prod.mk.inj (Except.ok.inj hdocument₁)
      exact ⟨⟨_, _, rfl⟩, fun e => Iff.rfl, (or_iff_left hshort).symm⟩
  obtain ⟨⟨omissions, notices, hframe⟩, hnamed, hdeficit⟩ := hstart
  have hscanned := foldlM_scanEffect_ok hc
  obtain ⟨notices', hcdoc⟩ := hscanned.document_eq
  obtain ⟨new, hnew, hall⟩ := hscanned.candidates
  rw [List.nil_append] at hnew
  have hgid : document₁.workspace.generationId = s.document.workspace.generationId := by
    rw [hframe]
  dsimp only at hall
  rw [hgid] at hall
  obtain ⟨hlength, heffect, htokens, hstate⟩ := forall₂_candidateOf hall
  rw [← hnew] at heffect hlength htokens hstate
  have hpacked := packEffects_ok heffect hpack
  have hfits : c.Fits ↔ s.document.Fits (leadingFrom subject s.seenEffects
      (fetched.take rowLimit)).length (tokensOfEffects H s.document.workspace.generationId subject
        (leadingFrom subject s.seenEffects (fetched.take rowLimit))) := by
    rw [EffectScan.Fits, fitsAll_iff_fits, List.length_map, hlength, htokens, hcdoc, hframe]
    rfl
  obtain ⟨items, hitems, hmem, hfull⟩ := hpacked.items
  have hws : c.document.workingSet = s.document.workingSet := by rw [hcdoc, hframe]
  have hcost : c.document.cost = s.document.cost := by rw [hcdoc, hframe]
  have hpolicy : c.document.policy = s.document.policy := by rw [hcdoc, hframe]
  refine ⟨?_, ?_, ?_, ?_, ?_, fun e => ?_, ?_, ⟨items, ?_, fun item hitem => ?_, fun hf => ?_⟩,
    ?_, ?_, fun hf => ?_⟩
  · rw [← hcost]
    exact hpacked.certain_le
  · rw [DeepWorkLedger.remaining, DeepWorkLedger.remaining, hpacked.limit_eq,
      hpacked.consumed_eq, hlength]
    dsimp only
    omega
  · rw [hpacked.seen_eq, hscanned.seen_eq]
  · rw [hpacked.policy_eq, hpolicy]
  · rw [hpacked.workspace_eq, hcdoc, hframe]
  · rw [Named, hpacked.uncertainty_eq]
    exact (hscanned.named_iff e).trans (or_congr_left (hnamed e))
  · rw [hpacked.deficit_iff, hscanned.deficit_iff, hdeficit, hfits, or_assoc, or_assoc]
  · rw [hitems, hws]
  · obtain ⟨x, hx, rfl⟩ := List.mem_map.mp (hmem item hitem)
    exact ⟨(heffect x hx).role_eq, hstate x hx⟩
  · rw [hfull (hfits.mpr hf), List.length_map, hlength]
  · rw [DeepContextIrV2.bounds, DeepContextIrV2.bounds, hpacked.policy_eq, hpolicy,
      hpacked.reserved_eq, hcost]
  · rw [hpacked.certain_eq, hcost]
  · obtain ⟨hrecords, hused, hsource⟩ := hpacked.cost_eq (hfits.mpr hf)
    rw [hrecords, hused, hsource, hws, hlength, htokens, hcost]
    exact ⟨rfl, rfl, rfl⟩

end Loop

/-! ## All entities -/

/-- The facts that lead. -/
def leadingOf (reads : List EffectRead) : ℕ := (reads.map fun r => r.leading.length).sum

/-- The tokens of the items of the facts that lead. -/
def tokensOfReads (H : Hasher) (generationId : String) (reads : List EffectRead) : ℕ :=
  (reads.map fun r => tokensOfEffects H generationId r.subject r.leading).sum

/-- No fact that leads is in question. -/
def Undisputed (reads : List EffectRead) : Prop :=
  ∀ r ∈ reads, ∀ row ∈ r.leading, ¬ row.InQuestion

/-- What the loop over the entities comes to, for what it reads. -/
structure Closed (H : Hasher) (reads : List EffectRead) (s s' : EffectState) : Prop where
  named_iff : ∀ e, Named s'.document e ↔ Named s.document e ∨
    ∃ r ∈ reads, e = subjectEntityId r.subject ∧ ∃ row ∈ r.leading, row.InQuestion
  deficit_mono : HasDeficit s.deficits .effect → HasDeficit s'.deficits .effect
  deficit_iff : s.document.cost.selectedRecords = s.document.workingSet.length →
    (¬ HasDeficit s'.deficits .effect ↔ ¬ HasDeficit s.deficits .effect ∧
      (∀ r ∈ reads, r.short = false) ∧ Undisputed reads ∧
      s.document.Fits (leadingOf reads)
        (tokensOfReads H s.document.workspace.generationId reads))
  items : ∃ new, s'.document.workingSet = s.document.workingSet ++ new ∧
    (∀ item ∈ new, item.role = .effect ∧ ∃ r ∈ reads, ∃ row ∈ r.leading,
      item.evidence.state = row.quality) ∧
    (s.document.cost.selectedRecords = s.document.workingSet.length →
      ¬ HasDeficit s'.deficits .effect → new.length = leadingOf reads)

section Run

variable {H : Hasher} {store : EffectStore} {subject : Subject} {s mid s' : EffectState}
  {r : EffectRead} {reads : List EffectRead}

lemma leadingOf_cons : leadingOf (r :: reads) = r.leading.length + leadingOf reads := rfl

lemma tokensOfReads_cons {gid : String} : tokensOfReads H gid (r :: reads) =
    tokensOfEffects H gid r.subject r.leading + tokensOfReads H gid reads := rfl

lemma tokensOfReads_eq_zero (H : Hasher) (gid : String) (reads : List EffectRead)
    (h : leadingOf reads = 0) : tokensOfReads H gid reads = 0 := by
  induction reads with
  | nil => rfl
  | cons r reads ih =>
    rw [leadingOf_cons, Nat.add_eq_zero_iff] at h
    rw [tokensOfReads_cons, List.length_eq_zero_iff.mp h.1, ih h.2]
    rfl

/-- **One entity, then the others.** -/
lemma Closed.cons {fetched : List EffectRow} {short : Prop} [Decidable short]
    (hone : Populated H subject fetched r.rows short s mid) (hsubject : r.subject = subject)
    (hleading : r.leading = leadingFrom subject s.seenEffects r.rows)
    (hshort : r.short = decide short) (hrest : Closed H reads mid s') :
    Closed H (r :: reads) s s' := by
  obtain ⟨new, hnew, hmem, hfull⟩ := hone.items
  obtain ⟨new', hnew', hmem', hfull'⟩ := hrest.items
  rw [← hleading] at hmem hfull
  -- where the first entity leaves no deficit, the working set is counted again
  have hcount : s.document.cost.selectedRecords = s.document.workingSet.length →
      s.document.Fits r.leading.length
        (tokensOfEffects H s.document.workspace.generationId subject r.leading) →
      mid.document.cost.selectedRecords = mid.document.workingSet.length := by
    intro hlength hfits
    have hcost := hone.cost_eq
    rw [← hleading] at hcost
    rw [(hcost hfits).1, hnew, List.length_append, hfull hfits]
  have hclear : ¬ HasDeficit mid.deficits .effect ↔ ¬ HasDeficit s.deficits .effect ∧
      r.short = false ∧ (∀ row ∈ r.leading, ¬ row.InQuestion) ∧
      s.document.Fits r.leading.length
        (tokensOfEffects H s.document.workspace.generationId subject r.leading) := by
    rw [hone.deficit_iff, ← hleading, hshort]
    simp only [not_or, not_exists, not_and, not_not, decide_eq_false_iff_not]
  refine ⟨fun e => ?_, fun h => hrest.deficit_mono (hone.deficit_iff.mpr (Or.inl h)),
    fun hlength => ?_, new ++ new', ?_, fun item hitem => ?_, fun hlength hnone => ?_⟩
  · rw [hrest.named_iff, hone.named_iff, ← hleading, List.exists_mem_cons_iff, hsubject,
      or_assoc]
  · by_cases hmid : HasDeficit mid.deficits .effect
    · refine iff_of_false (not_not.mpr (hrest.deficit_mono hmid)) fun h => ?_
      obtain ⟨hdeficit, hshorts, hundisputed, hfits⟩ := h
      refine hclear.mpr ⟨hdeficit, hshorts r List.mem_cons_self,
        hundisputed r List.mem_cons_self, ?_⟩ hmid
      have hle : r.leading.length ≤ leadingOf (r :: reads) := by
        simp [leadingOf]
      have hle' : tokensOfEffects H s.document.workspace.generationId subject r.leading ≤
          tokensOfReads H s.document.workspace.generationId (r :: reads) := by
        simp [tokensOfReads, hsubject]
      simp only [DeepContextIrV2.Fits, Admits] at hfits ⊢
      omega
    · obtain ⟨hdeficit, hshorts, hundisputed, hfits⟩ := hclear.mp hmid
      have hcost := hone.cost_eq
      rw [← hleading, ← hlength] at hcost
      have hsum := fits_add hone.certain_le hone.bounds_eq hone.certain_eq hcost
        (tokensOfReads_eq_zero H s.document.workspace.generationId reads)
      rw [hrest.deficit_iff (hcount hlength hfits), hone.workspace_eq, leadingOf_cons,
        tokensOfReads_cons, hsubject, hsum]
      simp only [Undisputed, List.forall_mem_cons, hmid, hdeficit, hshorts, hfits, true_and,
        not_false_eq_true]
      exact ⟨fun h => ⟨h.1, ⟨hundisputed, h.2.1⟩, h.2.2⟩, fun h => ⟨h.1, h.2.1.2, h.2.2⟩⟩
  · rw [hnew', hnew, List.append_assoc]
  · rcases List.mem_append.mp hitem with hitem | hitem
    · exact ⟨(hmem item hitem).1, r, List.mem_cons_self, (hmem item hitem).2⟩
    · obtain ⟨hrole, r', hr', hrow⟩ := hmem' item hitem
      exact ⟨hrole, r', List.mem_cons_of_mem r hr', hrow⟩
  · have hmid : ¬ HasDeficit mid.deficits .effect := fun h => hnone (hrest.deficit_mono h)
    have hfits := (hclear.mp hmid).2.2.2
    rw [List.length_append, hfull hfits, hfull' (hcount hlength hfits) hnone]
    rfl

/-- **All entities.** -/
lemma effectLoop_ok {subjects : List Subject} (h : effectLoop H store subjects s = .ok s') :
    Closed H (effectReads store s.document.workspace.generationId
      s.document.policy.semanticBudget.maxRecords s.workLedger.remaining s.seenEffects subjects)
      s s' := by
  induction subjects generalizing s with
  | nil =>
    obtain rfl := Except.ok.inj h
    exact ⟨by simp [effectReads], id, fun _ => by simp [effectReads, Undisputed, leadingOf,
      DeepContextIrV2.Fits], [], by simp, by simp, by simp [effectReads, leadingOf]⟩
  | cons subject subjects ih =>
    rw [effectLoop] at h
    rw [effectReads]
    dsimp only at h ⊢
    split at h
    next hzero =>
      rw [if_pos hzero]
      obtain ⟨⟨document, deficits⟩, homit, hret⟩ := bind_ok.mp h
      obtain rfl := Except.ok.inj hret
      obtain ⟨⟨omissions, notices, hframe⟩, hnamed, hdeficit⟩ := omitEffects_ok homit
      refine ⟨fun e => ?_, fun _ => hdeficit, fun _ => ?_, [], ?_, by simp, ?_⟩
      · rw [hnamed]
        simp
      · exact iff_of_false (not_not.mpr hdeficit) fun hnot => by simpa using hnot.2.1
      · simp [hframe]
      · exact fun _ hnone => absurd hdeficit hnone
    next hzero =>
      rw [if_neg hzero]
      obtain ⟨mid, hstep, hrest⟩ := bind_ok.mp h
      have hone := populateEffects_ok hstep
      have htail := ih hrest
      rw [hone.policy_eq, hone.workspace_eq, hone.remaining_eq, hone.seen_eq] at htail
      exact Closed.cons hone rfl rfl rfl htail

end Run

end WorkspaceAtlas.Deep
