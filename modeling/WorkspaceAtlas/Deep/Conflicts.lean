/-
# Effects in question

Whether the effect closure can report the role of effects as satisfied although a fact that it
looked at has a conflict, or stale or unresolved evidence.  Of the facts of one entity with one
type only the first one is checked, so one that comes behind it is passed over.
-/
import WorkspaceAtlas.Deep.EffectRead

namespace WorkspaceAtlas.Deep

open Relational Transition ContextRoute

/-- The evidence of the fact is in conflict, stale or unresolved. -/
def EffectRow.Disputed (row : EffectRow) : Prop :=
  evidenceReasonForQuality row.quality ∈
    [some IrOmissionReasonV2.conflictingEvidence, some .staleEvidence, some .unresolvedEvidence]

instance {row : EffectRow} : Decidable row.Disputed :=
  inferInstanceAs (Decidable (_ ∈ [_, _, _]))

/-- What the closure reads; it reads nothing for a task that needs no effects. -/
def examined (store : EffectStore) (document : DeepContextIrV2 ℚ) (workLedger : DeepWorkLedger) :
    List EffectRead :=
  if .effect ∈ (deepV2RoleRecipe document.task.taskKind).requiredRoles then
    effectReads store document.workspace.generationId document.policy.semanticBudget.maxRecords
      workLedger.remaining [] (effectSubjects document.workingSet)
  else []

/-- The role of effects is reported as satisfied. -/
def EffectSatisfied (document : DeepContextIrV2 ℚ) (deficits : List DeepV2RoleDeficit) : Prop :=
  ∀ entry ∈ deepV2RoleSufficiency (deepV2RoleRecipe document.task.taskKind) document.workingSet
    deficits, entry.role = .effect → entry.state = .satisfied

instance {document : DeepContextIrV2 ℚ} {deficits : List DeepV2RoleDeficit} :
    Decidable (EffectSatisfied document deficits) := inferInstanceAs (Decidable (∀ entry ∈ _, _))

/-- The role of effects is not reported as satisfied, or every symbol with a disputed fact is
named by a notice. -/
def NothingHidden (reads : List EffectRead) (document : DeepContextIrV2 ℚ)
    (deficits : List DeepV2RoleDeficit) : Prop :=
  ∀ r ∈ reads, r.subject.1 = "symbol" → ∀ row ∈ r.rows, row.Disputed →
    EffectSatisfied document deficits → Named document (subjectEntityId r.subject)

/-- Nothing that the closure checks speaks against the role. -/
structure LooksSettled (H : Hasher) (reads : List EffectRead) (document : DeepContextIrV2 ℚ)
    (deficits : List DeepV2RoleDeficit) : Prop where
  clear : ¬ HasDeficit deficits .effect
  items : ∀ item ∈ document.workingSet, item.role = .effect → ¬ item.InQuestion
  some : (∃ item ∈ document.workingSet, item.role = .effect) ∨ 0 < leadingOf reads
  whole : ∀ r ∈ reads, r.short = false
  undisputed : Undisputed reads
  fits : document.Fits (leadingOf reads)
    (tokensOfReads H document.workspace.generationId reads)

section

variable {H : Hasher} {store : EffectStore} {document document' : DeepContextIrV2 ℚ}
  {workLedger workLedger' : DeepWorkLedger} {deficits deficits' : List DeepV2RoleDeficit}
  {reads : List EffectRead} {s s' : EffectState} {row : EffectRow}

lemma effectSatisfied_iff : EffectSatisfied document deficits ↔
    (∃ item ∈ document.workingSet, item.role = .effect) ∧
    (∀ item ∈ document.workingSet, item.role = .effect → ¬ item.InQuestion) ∧
    ¬ HasDeficit deficits .effect := by
  have hiff : (roleSufficiency (deepV2RoleRecipe document.task.taskKind) document.workingSet
      deficits .effect).state = .satisfied ↔ _ := roleSufficiency_satisfied
  rw [← hiff]
  constructor
  · exact fun h => h _ (mem_deepV2RoleSufficiency.mpr ⟨_, rfl⟩) rfl
  · intro h entry hentry hrole
    obtain ⟨role, rfl⟩ := mem_deepV2RoleSufficiency.mp hentry
    obtain rfl : role = .effect := hrole
    exact h

/-- **When the closure leaves the role satisfied.** -/
lemma Closed.effectSatisfied_iff (h : Closed H reads s s')
    (hcount : s.document.cost.selectedRecords = s.document.workingSet.length) :
    EffectSatisfied s'.document s'.deficits ↔ LooksSettled H reads s.document s.deficits := by
  obtain ⟨new, hnew, hmem, hlength⟩ := h.items
  rw [Deep.effectSatisfied_iff, hnew]
  constructor
  · rintro ⟨hsome, hitems, hclear⟩
    obtain ⟨hclear', hwhole, hundisputed, hfits⟩ := (h.deficit_iff hcount).mp hclear
    refine ⟨hclear', fun item hitem => hitems item (List.mem_append_left new hitem), ?_, hwhole,
      hundisputed, hfits⟩
    obtain ⟨item, hitem, hrole⟩ := hsome
    rcases List.mem_append.mp hitem with hitem | hitem
    · exact Or.inl ⟨item, hitem, hrole⟩
    · rw [← hlength hcount hclear]
      exact Or.inr (List.length_pos_of_mem hitem)
  · rintro ⟨hclear, hitems, hsome, hwhole, hundisputed, hfits⟩
    have hclear' := (h.deficit_iff hcount).mpr ⟨hclear, hwhole, hundisputed, hfits⟩
    refine ⟨?_, fun item hitem hrole => ?_, hclear'⟩
    · rcases hsome with ⟨item, hitem, hrole⟩ | hpos
      · exact ⟨item, List.mem_append_left new hitem, hrole⟩
      · rw [← hlength hcount hclear'] at hpos
        obtain ⟨item, hitem⟩ := List.exists_mem_of_length_pos hpos
        exact ⟨item, List.mem_append_right _ hitem, (hmem item hitem).1⟩
    · rcases List.mem_append.mp hitem with hitem | hitem
      · exact hitems item hitem hrole
      · obtain ⟨-, r, hr, row, hrow, hstate⟩ := hmem item hitem
        have hnot := hundisputed r hr row hrow
        rwa [EffectRow.InQuestion, ← hstate] at hnot

/-- **Conflicts of effects are not hidden, exactly when** every disputed fact of a symbol that
was looked at belongs to a symbol that was named before, or something that the closure checks
speaks against the role. -/
theorem nothingHidden_iff
    (h : populateDeepV2EffectClosure H store document workLedger deficits =
      .ok (document', workLedger', deficits'))
    (hcount : document.cost.selectedRecords = document.workingSet.length) :
    NothingHidden (examined store document workLedger) document' deficits' ↔
      ∀ r ∈ examined store document workLedger, r.subject.1 = "symbol" →
        ∀ row ∈ r.rows, row.Disputed →
          LooksSettled H (examined store document workLedger) document deficits →
            Named document (subjectEntityId r.subject) := by
  unfold populateDeepV2EffectClosure at h
  unfold examined
  split at h
  next hnot =>
    rw [if_neg hnot]
    exact iff_of_true (fun r hr => absurd hr List.not_mem_nil)
      fun r hr => absurd hr List.not_mem_nil
  next hneeded =>
    rw [if_pos (not_not.mp hneeded)]
    obtain ⟨s', hloop, hret⟩ := bind_ok.mp h
    have hpair := Except.ok.inj hret
    obtain rfl := (Prod.mk.inj hpair).1
    obtain rfl := (Prod.mk.inj (Prod.mk.inj hpair).2).2
    have hclosed := effectLoop_ok hloop
    dsimp only at hclosed
    generalize effectReads store document.workspace.generationId
      document.policy.semanticBudget.maxRecords workLedger.remaining []
      (effectSubjects document.workingSet) = reads at hclosed ⊢
    have hsatisfied := hclosed.effectSatisfied_iff hcount
    have hnamed : ∀ e, Named (sortEffects s'.document) e ↔ Named document e ∨
        ∃ r ∈ reads, e = subjectEntityId r.subject ∧ ∃ row ∈ r.leading, row.InQuestion :=
      hclosed.named_iff
    have hreport : EffectSatisfied (sortEffects s'.document) s'.deficits ↔
        LooksSettled H reads document deficits :=
      (Deep.effectSatisfied_iff.trans Deep.effectSatisfied_iff.symm).trans hsatisfied
    refine forall₅_congr fun r hr hsymbol row hrow => forall_congr' fun hdisputed => ?_
    rw [hreport]
    refine forall_congr' fun hsettled => ?_
    rw [hnamed]
    refine or_iff_left fun hquestion => ?_
    obtain ⟨r', hr', -, row', hrow', hin⟩ := hquestion
    exact hsettled.undisputed r' hr' row' hrow' hin

end

/-! ## A conflict behind another fact -/

/-- A document whose working set is the symbol `s`. -/
def symbolDocument : DeepContextIrV2 ℚ where
  schemaVersion := "2.0.0"
  contextId := "ctx"
  workspace := ⟨"w", "g", 1, none, "c", "p"⟩
  task := ⟨"t", "h", "n", .behaviorChange, .declared, none, [], ["s"]⟩
  policy := ⟨"planner-v2.0.0", "projection", "estimator", true, ⟨8, 1000, 1000, 2, 20, 0, "d"⟩⟩
  status := ⟨.blocked, [], .unavailable, .unavailable, []⟩
  workingSet := [
    { itemId := "i"
      entityKind := .symbol
      entityId := "symbol:s"
      role := .primaryImplementation
      selectionReason := .explicitSeed
      originId := none
      distance := 0
      rank := 0
      evidence := ⟨.verified, 1, none, none, "g", some true, some 0⟩
      cost := ⟨8, 0, 2⟩
      source := none }]
  relationships := []
  effects := []
  temporalConstraints := ⟨"g", none, .notRequired, [], none⟩
  uncertainty := []
  coverage := ⟨1, 1, 0, 0, 0, 0, .bounded, []⟩
  omissions := ⟨1, 1, 0, false, .empty⟩
  validationPlan := []
  evidenceLease := ⟨"g", []⟩
  cost := ⟨1, 0, 2, 0, 3, 0, 0⟩
  contextHash := ""

/-- The symbol writes a file, as two facts say; the second one has an open conflict. -/
def conflictStore : EffectStore where
  effectFact := ⟨[
    { effectFactId := "e1"
      revisionId := "r"
      subjectRefKind := .symbol
      subjectRefValue := "s"
      effectType := "file_write"
      phase := "direct"
      evidenceMethod := .structural
      confidence := 1 },
    { effectFactId := "e2"
      revisionId := "r"
      subjectRefKind := .symbol
      subjectRefValue := "s"
      effectType := "file_write"
      phase := "direct"
      evidenceMethod := .structural
      confidence := 1 }], by decide⟩
  generationFile := ⟨[⟨"g", "f", some "r", "a.rs", .present, none, none, none, none⟩], by decide⟩
  fileRevision := ⟨[⟨"r", "f", "h", 1, .source, none, false, false, 0⟩],
    by decide⟩
  evidenceConflict := ⟨[⟨"c", "g", .effect, "e2", .open_⟩], by decide⟩

/-- The run of the request that has 17 units of work left. -/
theorem nothingHidden_iff_conflictStore : ∃ out,
    populateDeepV2EffectClosure .plain conflictStore symbolDocument ⟨20, 3, 0⟩ [] = .ok out ∧
      (NothingHidden (examined conflictStore symbolDocument ⟨20, 3, 0⟩) out.1 out.2.2 ↔
        ∀ r ∈ examined conflictStore symbolDocument ⟨20, 3, 0⟩, r.subject.1 = "symbol" →
          ∀ row ∈ r.rows, row.Disputed →
            LooksSettled .plain (examined conflictStore symbolDocument ⟨20, 3, 0⟩)
              symbolDocument [] → Named symbolDocument (subjectEntityId r.subject)) := by
  have hsome : (populateDeepV2EffectClosure .plain conflictStore symbolDocument ⟨20, 3, 0⟩
      []).toOption.isSome := by
    decide +kernel
  obtain ⟨out, hout⟩ := Option.isSome_iff_exists.mp hsome
  exact ⟨out, ok_of_toOption hout, nothingHidden_iff (ok_of_toOption hout) rfl⟩

/-- The conflict of the second fact is hidden. -/
theorem conflictStore_hidden : ∃ out,
    populateDeepV2EffectClosure .plain conflictStore symbolDocument ⟨20, 3, 0⟩ [] = .ok out ∧
      ¬ NothingHidden (examined conflictStore symbolDocument ⟨20, 3, 0⟩) out.1 out.2.2 := by
  have hfound : ∃ out ∈ (populateDeepV2EffectClosure .plain conflictStore symbolDocument ⟨20, 3, 0⟩
      []).toOption, EffectSatisfied out.1 out.2.2 ∧ out.1.uncertainty = [] := by
    decide +kernel
  have hread : ∃ r ∈ examined conflictStore symbolDocument ⟨20, 3, 0⟩, r.subject.1 = "symbol" ∧
      ∃ row ∈ r.rows, row.Disputed := by
    decide +kernel
  obtain ⟨out, hout, hsatisfied, hnone⟩ := hfound
  obtain ⟨r, hr, hsymbol, row, hrow, hdisputed⟩ := hread
  refine ⟨out, ok_of_toOption hout, fun h => ?_⟩
  obtain ⟨notice, hnotice, -⟩ := h r hr hsymbol row hrow hdisputed hsatisfied
  rw [hnone] at hnotice
  exact List.not_mem_nil hnotice

end WorkspaceAtlas.Deep
