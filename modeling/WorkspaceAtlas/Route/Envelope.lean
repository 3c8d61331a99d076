/-
# The envelope of a run

The executor and the validator of its envelopes follow one routing policy, each in its own
words.  With a dispatcher that keeps to its side, every envelope the executor builds is accepted,
but for one: a LIGHT outcome under a DEEP ceiling that neither escalates nor says that a
capability was out of reach.
-/
import WorkspaceAtlas.Route.Governed

namespace WorkspaceAtlas.ContextRoute

open Relational Transition Dialogue

variable {H : Hasher} {clock : ℕ → ℕ} {decision : ContextRouteDecision} {E σ : Type}

/-! ## A dispatcher that keeps to its side -/

namespace RouteAttemptOutcome

/-- The counters of an outcome. -/
def counters : RouteAttemptOutcome → ContextExecutionCounters
  | .completed _ counters _ _ => counters
  | .deficient _ _ _ counters _ _ => counters
  | .interrupted _ _ => 0

/-- The diagnostics of an outcome. -/
def diagnostics : RouteAttemptOutcome → List ContextDiagnosticCode
  | .completed _ _ diagnostics _ => diagnostics
  | .deficient _ _ _ _ diagnostics _ => diagnostics
  | .interrupted diagnostics _ => diagnostics

/-- The deficits of an outcome. -/
def deficits : RouteAttemptOutcome → List RouteDeficit
  | .completed _ _ _ _ => []
  | .deficient _ _ deficits _ _ _ => deficits
  | .interrupted _ _ => []

/-- `RouteAttemptOutcome::Completed { .. }`. -/
def isCompleted : RouteAttemptOutcome → Bool
  | .completed _ _ _ _ => true
  | .deficient _ _ _ _ _ _ => false
  | .interrupted _ _ => false

end RouteAttemptOutcome

/-- An outcome as a dispatcher is to return it. -/
structure OutcomeAdmissible (decision : ContextRouteDecision) (route : Route)
    (outcome : RouteAttemptOutcome) : Prop where
  valid : dispatchOutcomeValid decision route outcome = .ok ()
  reaches : outcome.isCompleted →
    ∀ c, callerUnsatisfied decision c → c.minimumRoute ≤ route
  lacks : ∀ c ∈ capabilitiesOf outcome.deficits, callerUnsatisfied decision c

/-- The answers of a run's dispatches, each with its route. -/
def answers (calls : List (RouteExchange E)) : List (Route × Except E RouteAttemptOutcome) :=
  calls.filterMap fun
    | ⟨.observeGeneration, _⟩ => none
    | ⟨.dispatchLight _ _, answer⟩ => some (.atlasLight, answer)
    | ⟨.dispatchDeep _ _ _, answer⟩ => some (.atlasDeep, answer)

/-- The outcomes of a run's dispatches. -/
def outcomes (calls : List (RouteExchange E)) : List RouteAttemptOutcome :=
  (answers calls).filterMap fun answer => answer.2.toOption

/-- The counters of some outcomes taken together. -/
def totalCounters (outcomes : List RouteAttemptOutcome) : ContextExecutionCounters :=
  outcomes.foldl (fun total outcome => total + outcome.counters) 0

/-- The calls of a run were answered as they are to be: every outcome is admissible, and taken
together they stay within the advertised maxima. -/
structure Admissible (decision : ContextRouteDecision) (calls : List (RouteExchange E)) :
    Prop where
  each : ∀ answer ∈ answers calls,
    ∃ outcome, answer.2 = .ok outcome ∧ OutcomeAdmissible decision answer.1 outcome
  counters : (totalCounters (outcomes calls)).validate = .ok ()
  diagnostics : ((outcomes calls).flatMap RouteAttemptOutcome.diagnostics).length ≤
    maxExecutionDiagnostics

/-- LIGHT stops short of a DEEP ceiling, and not because a capability was out of reach. -/
def StallsAtLight (dispatcher : ContextRouteDispatcher E σ) (decision : ContextRouteDecision)
    (s : σ) : Prop :=
  ¬ NeedsNoDispatch decision ∧ decision.initialRoute ≠ .atlasDeep ∧
    decision.effectiveCeiling = .atlasDeep ∧
    (dispatcher.observeGeneration s).1 = decision.startingGeneration ∧
    ∃ offered satisfied deficits counters diagnostics materialization,
      (dispatcher.lightAnswer decision s).1 =
        .ok (.deficient offered satisfied deficits counters diagnostics materialization) ∧
      ¬ lightDeficitsCanEscalate deficits ∧ ¬ ∃ deficit ∈ deficits, deficit.isUnavailable

/-! ## The last pass -/

variable {route : Route} {progress : Progress} {outcome : RouteAttemptOutcome}

lemma settle_eq (h : dispatchOutcomeValid decision route outcome = .ok ()) :
    (settle H clock decision route progress (.ok outcome) : Except (Stop E) (Next route)) =
      conclude H clock decision route progress outcome := by
  rw [settle]
  exact routed_bind h

lemma counters_of_valid (h : dispatchOutcomeValid decision route outcome = .ok ()) :
    outcome.counters.validate = .ok () ∧ outcome.diagnostics.length ≤ maxExecutionDiagnostics := by
  cases outcome with
  | completed payload counters diagnostics materialization =>
    simp only [dispatchOutcomeValid, check_bind_eq_ok, ensure_eq_ok] at h
    exact ⟨h.1.2.1, h.1.1⟩
  | deficient offered satisfied deficits counters diagnostics materialization =>
    rw [dispatchOutcomeValid_deficient] at h
    exact ⟨h.1.2.1, h.1.1⟩
  | interrupted diagnostics reason =>
    exact ⟨ContextExecutionCounters.validate_zero, ensure_eq_ok.mp h⟩

/-- A pass on DEEP with an admissible outcome returns an envelope. -/
lemma settle_deep (h : Underway decision .atlasDeep progress)
    (hled : Led decision .atlasDeep progress) (hd : decision.validate H = .ok ())
    (hadmissible : OutcomeAdmissible decision .atlasDeep outcome)
    (htotal : (counterTotal progress.attempts + outcome.counters).validate = .ok ())
    (hdiag : (progress.diagnostics ++ outcome.diagnostics).length ≤ maxExecutionDiagnostics) :
    ∃ execution, (settle H clock decision .atlasDeep progress (.ok outcome) :
      Except (Stop E) (Next .atlasDeep)) = .ok (.returned execution) := by
  have hvalid := hadmissible.valid
  rw [settle_eq hvalid]
  cases outcome with
  | completed payload counters diagnostics materialization =>
    exact conclude_completed h hled hd hvalid (hadmissible.reaches rfl) htotal hdiag
  | interrupted diagnostics reason => exact conclude_interrupted h hd hdiag
  | deficient offered satisfied deficits counters diagnostics materialization =>
    refine (conclude_deficient_iff h hled hd hvalid (by simp) htotal hdiag).mpr (.inl ?_)
    exact le_antisymm h.ceiling (by cases decision.effectiveCeiling <;> decide)

variable {dispatcher : ContextRouteDispatcher E σ} {s : σ}

/-- A pass on DEEP returns an envelope: a refusal, or what its admissible outcome makes. -/
lemma pass_deep_returns (hd : decision.validate H = .ok ())
    (h : Underway decision .atlasDeep progress) (hled : Led decision .atlasDeep progress)
    (hanswered : ∀ budget, decision.request.deepBudget = some budget →
      (pass H clock decision .atlasDeep progress).exchanges dispatcher.server s =
        [⟨.observeGeneration, (dispatcher.observeGeneration s).1⟩,
          ⟨.dispatchDeep decision decision.request.deepContracts budget,
            (dispatcher.deepAnswer decision budget s).1⟩] →
      ∃ outcome, (dispatcher.deepAnswer decision budget s).1 = .ok outcome ∧
        OutcomeAdmissible decision .atlasDeep outcome ∧
        (counterTotal progress.attempts + outcome.counters).validate = .ok () ∧
        (progress.diagnostics ++ outcome.diagnostics).length ≤ maxExecutionDiagnostics) :
    ∃ execution, (pass H clock decision .atlasDeep progress).result dispatcher.server s =
      .ok (.returned execution) := by
  cases hfail : generationFailure decision.startingGeneration (dispatcher.observeGeneration s).1 with
  | some failure =>
    obtain ⟨failure, reason⟩ := failure
    obtain ⟨hresult, -⟩ :
        (pass H clock decision .atlasDeep progress).result dispatcher.server s = _ ∧ _ :=
      pass_refused hfail
    obtain ⟨execution, hreturned, -⟩ := (refuse_iff h hd hfail).mpr hled
    exact ⟨execution, hresult.trans hreturned⟩
  | none =>
    obtain ⟨budget, hbudget⟩ := exists_deepBudget hd
      (le_antisymm (by cases decision.effectiveCeiling <;> decide) h.ceiling)
    obtain ⟨hresult, hcalls⟩ :
        (pass H clock decision .atlasDeep progress).result dispatcher.server s = _ ∧ _ :=
      pass_deep hbudget hfail
    obtain ⟨outcome, hanswer, hadmissible, htotal, hdiag⟩ := hanswered budget hbudget hcalls
    obtain ⟨execution, hreturned⟩ := settle_deep h hled hd hadmissible htotal hdiag
    rw [hanswer] at hresult
    exact ⟨execution, hresult.trans hreturned⟩

/-- A run that enters the loop on DEEP returns an envelope. -/
lemma returns_of_deep (hd : decision.validate H = .ok ())
    (hp : Underway decision .atlasDeep progress) (hattempts : progress.attempts = [])
    (hdiagnostics : progress.diagnostics = [])
    (hadmissible : Admissible decision
      ((continueFrom H clock decision .atlasDeep progress).exchanges dispatcher.server s)) :
    ∃ execution, (continueFrom H clock decision .atlasDeep progress).result dispatcher.server s =
      .ok execution := by
  obtain ⟨ended, hended⟩ := exists_execution_deep
    ((pass H clock decision .atlasDeep progress).result dispatcher.server s)
  obtain ⟨hends, hexchanges⟩ := continueFrom_ends hended
  rw [hexchanges] at hadmissible
  rw [hends]
  simp only [← returned_iff_execution hended]
  refine pass_deep_returns hd hp (by simp [Led, hattempts]) fun budget _ hcalls => ?_
  rw [hcalls] at hadmissible
  obtain ⟨outcome, hanswer, houtcome⟩ := hadmissible.each
    (.atlasDeep, (dispatcher.deepAnswer decision budget s).1) (List.mem_singleton.mpr rfl)
  simp only at hanswer
  rw [hanswer] at hadmissible
  refine ⟨outcome, hanswer, houtcome, ?_, ?_⟩
  · rw [hattempts]
    exact hadmissible.counters
  · have hdiag : (outcome.diagnostics ++ []).length ≤ maxExecutionDiagnostics :=
      hadmissible.diagnostics
    simpa [hdiagnostics] using hdiag

/-- A run that enters the loop on LIGHT returns an envelope if and only if it does not stall. -/
lemma returns_iff_of_light (hd : decision.validate H = .ok ()) (hp : AtLight decision progress)
    (hneeds : ¬ NeedsNoDispatch decision) (hinit : decision.initialRoute ≠ .atlasDeep)
    (hadmissible : Admissible decision
      ((continueFrom H clock decision .atlasLight progress).exchanges dispatcher.server s)) :
    (∃ execution, (continueFrom H clock decision .atlasLight progress).result dispatcher.server s =
      .ok execution) ↔ ¬ StallsAtLight dispatcher decision s := by
  have hobserved := hp.underway.observed
  set first := pass H clock decision .atlasLight progress with hfirst
  cases hfail : generationFailure decision.startingGeneration (dispatcher.observeGeneration s).1 with
  | some failure =>
    obtain ⟨failure, reason⟩ := failure
    obtain ⟨hresult, hcalls⟩ : first.result dispatcher.server s = _ ∧ _ := pass_refused hfail
    obtain ⟨execution, hrefuse, -⟩ := (refuse_iff hp.underway hd hfail).mpr hp.led
    obtain ⟨hends, -⟩ := continueFrom_ends
      (show Next.execution? (first.result dispatcher.server s) = some (.ok execution) by
        rw [hresult, hrefuse]; rfl)
    rw [hends]
    refine iff_of_true ⟨execution, rfl⟩ ?_
    rintro ⟨-, -, -, hsame, -⟩
    rw [(generationFailure_eq_none_iff hobserved).mpr hsame] at hfail
    cases hfail
  | none =>
    have hsame := (generationFailure_eq_none_iff hobserved).mp hfail
    obtain ⟨hresult, hcalls, hafter⟩ : first.result dispatcher.server s = _ ∧ _ ∧ _ :=
      pass_light hfail
    -- The exchanges of the run begin with those of its first pass.
    obtain ⟨rest, hrest⟩ : ∃ rest,
        (continueFrom H clock decision .atlasLight progress).exchanges dispatcher.server s =
          first.exchanges dispatcher.server s ++ rest := ⟨_, exchanges_bind⟩
    rw [hcalls] at hrest
    obtain ⟨outcome, hanswer, houtcome⟩ := hadmissible.each
      (.atlasLight, (dispatcher.lightAnswer decision s).1) (by rw [hrest]; exact .head _)
    simp only at hanswer houtcome
    have hvalid := houtcome.valid
    obtain ⟨hcounters, hdiagnostics⟩ := counters_of_valid hvalid
    have htotal : (counterTotal progress.attempts + outcome.counters).validate = .ok () := by
      rw [hp.free, ContextExecutionCounters.zero_add]
      exact hcounters
    have hdiag : (progress.diagnostics ++ outcome.diagnostics).length ≤ maxExecutionDiagnostics := by
      rw [hp.quiet]
      exact hdiagnostics
    rw [hanswer] at hresult
    have hsettled := hresult
    replace hresult := hresult.trans (settle_eq hvalid)
    have hreturns : (∃ execution, first.result dispatcher.server s = .ok (.returned execution)) →
        ∃ execution,
          (continueFrom H clock decision .atlasLight progress).result dispatcher.server s =
            .ok execution := by
      rintro ⟨execution, hreturned⟩
      exact ⟨execution, (continueFrom_ends
        (show Next.execution? (first.result dispatcher.server s) = some (.ok execution) by
          rw [hreturned]; rfl)).1⟩
    cases outcome with
    | completed payload counters diagnostics materialization =>
      refine iff_of_true (hreturns ?_) ?_
      · rw [hresult]
        exact conclude_completed hp.underway hp.led hd hvalid (houtcome.reaches rfl) htotal hdiag
      · rintro ⟨-, -, -, -, _, _, _, _, _, _, hdeficient, -⟩
        rw [hanswer] at hdeficient
        cases hdeficient
    | interrupted diagnostics reason =>
      refine iff_of_true (hreturns ?_) ?_
      · rw [hresult]
        exact conclude_interrupted hp.underway hd hdiag
      · rintro ⟨-, -, -, -, _, _, _, _, _, _, hdeficient, -⟩
        rw [hanswer] at hdeficient
        cases hdeficient
    | deficient offered satisfied deficits counters diagnostics materialization =>
      by_cases hesc : Route.atlasLight < decision.effectiveCeiling ∧
          lightDeficitsCanEscalate deficits
      · refine iff_of_true ?_ ?_
        · have hcontinued : first.result dispatcher.server s = .ok (.continued rfl
              (progress.escalated clock offered satisfied deficits counters diagnostics
                materialization)) := hresult.trans (conclude_escalates hesc)
          set next := progress.escalated clock offered satisfied deficits counters diagnostics
            materialization with hnext
          obtain ⟨ended, hended⟩ := exists_execution_deep
            ((pass H clock decision .atlasDeep next).result dispatcher.server
              (first.after dispatcher.server s))
          obtain ⟨hends, hexchanges⟩ := continueFrom_continues hcontinued hended
          rw [hends]
          simp only [← returned_iff_execution hended]
          refine pass_deep_returns hd (underway_escalated hp.underway hp.led hp.short hp.noPayload
            hp.caller hp.noMaterialization hvalid hesc.1 htotal hdiag)
            ((led_escalated_iff hesc.2).mpr houtcome.lacks) fun budget _ hcalls₂ => ?_
          rw [hexchanges, hcalls, hcalls₂, hanswer] at hadmissible
          obtain ⟨deep, hdeep, hadmitted⟩ := hadmissible.each (.atlasDeep, _)
            (.tail _ (.head _))
          simp only at hdeep
          rw [hdeep] at hadmissible
          refine ⟨deep, hdeep, hadmitted, ?_, ?_⟩
          · rw [hnext, escalated_attempts, counterTotal_snoc, hp.free]
            exact hadmissible.counters
          · rw [hnext, escalated_diagnostics, hp.quiet]
            have hboth : (diagnostics ++ (deep.diagnostics ++ [])).length ≤
              maxExecutionDiagnostics := hadmissible.diagnostics
            simpa using hboth
        · rintro ⟨-, -, -, -, _, _, _, _, _, _, hdeficient, hstops, -⟩
          rw [hanswer] at hdeficient
          cases hdeficient
          exact hstops hesc.2
      · have hstop : ¬ (Route.atlasLight = .atlasLight ∧
            Route.atlasLight < decision.effectiveCeiling ∧ lightDeficitsCanEscalate deficits) :=
          fun h => hesc h.2
        have hiff : (∃ execution, first.result dispatcher.server s = .ok (.returned execution)) ↔
            Route.atlasLight = decision.effectiveCeiling ∨
              ∃ deficit ∈ deficits, deficit.isUnavailable := by
          rw [hresult]
          exact conclude_deficient_iff hp.underway hp.led hd hvalid hstop htotal hdiag
        obtain ⟨ended, hended⟩ : ∃ ended,
            Next.execution? (first.result dispatcher.server s) = some ended := by
          refine Option.ne_none_iff_exists'.mp fun hnone => ?_
          obtain ⟨_, next, hcontinued⟩ := continued_of_execution?_eq_none hnone
          obtain ⟨_, _, _, _, _, _, hsame', -, hlt, hcan, -⟩ :=
            escalates_of_continued (hsettled.symm.trans hcontinued)
          cases hsame'
          exact hesc ⟨hlt, hcan⟩
        obtain ⟨hends, -⟩ := continueFrom_ends hended
        rw [hends]
        simp only [← returned_iff_execution hended]
        rw [hiff]
        constructor
        · rintro hends' ⟨-, -, hceiling, -, _, _, _, _, _, _, hdeficient, -, hreason⟩
          rw [hanswer] at hdeficient
          cases hdeficient
          refine hends'.elim (fun hlight => ?_) hreason
          rw [hceiling] at hlight
          cases hlight
        · intro hkeeps
          by_contra hstuck
          rw [not_or] at hstuck
          have hlt : Route.atlasLight < decision.effectiveCeiling :=
            lt_of_le_of_ne hp.underway.ceiling hstuck.1
          refine hkeeps ⟨hneeds, hinit, ?_, hsame, _, _, _, _, _, _, hanswer,
            fun h => hesc ⟨hlt, h⟩, hstuck.2⟩
          revert hlt
          cases decision.effectiveCeiling <;> decide

/-- **The envelope of a run.**  With a dispatcher that keeps to its side, the run of a validated
decision returns an envelope if and only if LIGHT does not stall under a DEEP ceiling. -/
theorem returns_iff (dispatcher : ContextRouteDispatcher E σ) (s : σ)
    (hd : decision.validate H = .ok ())
    (hadmissible : Admissible decision
      ((executeContextRoute H clock decision).exchanges dispatcher.server s)) :
    (∃ execution, (executeContextRoute H clock decision).result dispatcher.server s =
      .ok execution) ↔ ¬ StallsAtLight dispatcher decision s := by
  rcases execute_cases (E := E) hd with
    ⟨hneeds, execution, hrun⟩ | ⟨hneeds, hinit, progress, hp, hrun⟩ |
      ⟨hneeds, hinit, progress, hp, hattempts, hdiagnostics, hrun⟩
  · rw [hrun]
    exact iff_of_true ⟨execution, rfl⟩ fun h => h.1 hneeds
  · rw [hrun] at hadmissible ⊢
    exact returns_iff_of_light hd hp hneeds hinit hadmissible
  · rw [hrun] at hadmissible ⊢
    exact iff_of_true (returns_of_deep hd hp hattempts hdiagnostics hadmissible)
      fun h => h.2.1 hinit

/-! ## Relationships of an ambiguous name -/

/-- The caller lacks the relationships of a name. -/
def relationshipsDecision : ContextRouteDecision :=
  routeDecision sampleHasher (sampleRequest ⟨[(.boundedRelationships, .unsatisfied)], by decide⟩)

/-- LIGHT finds the name more than once. -/
def relationshipsAmbiguous : RouteAttemptOutcome :=
  .deficient none [] [.capability .boundedRelationships .ambiguous] 0 [] none

/-- LIGHT finds no relationships. -/
def relationshipsUnavailable : RouteAttemptOutcome :=
  .deficient none [] [.capability .boundedRelationships .unavailable] 0 [] none

lemma relationshipsDecision_valid : relationshipsDecision.validate sampleHasher = .ok () :=
  validate_routeDecision (by decide +kernel)

/-- Either outcome is one a dispatcher may return. -/
lemma relationships_admissible {outcome : RouteAttemptOutcome}
    (h : outcome = relationshipsUnavailable ∨ outcome = relationshipsAmbiguous)
    (hanswers : answers ((executeContextRoute sampleHasher id relationshipsDecision).exchanges
      (sampleDispatcher (fun _ => "gen-a") outcome).server 0) = [(.atlasLight, .ok outcome)]) :
    Admissible relationshipsDecision
      ((executeContextRoute sampleHasher id relationshipsDecision).exchanges
        (sampleDispatcher (fun _ => "gen-a") outcome).server 0) where
  each := by
    rw [hanswers]
    rintro _ (_ | ⟨_, ⟨⟩⟩)
    refine ⟨outcome, rfl, ?_⟩
    obtain rfl | rfl := h
    · exact ⟨by decide, (fun h => nomatch h), by decide⟩
    · exact ⟨by decide, (fun h => nomatch h), by decide⟩
  counters := by
    rw [outcomes, hanswers]
    obtain rfl | rfl := h <;> decide
  diagnostics := by
    rw [outcomes, hanswers]
    obtain rfl | rfl := h <;> decide

theorem returns_iff_unavailable :
    ∃ execution, (executeContextRoute sampleHasher id relationshipsDecision).result
      (sampleDispatcher (fun _ => "gen-a") relationshipsUnavailable).server 0 = .ok execution := by
  refine (returns_iff _ 0 relationshipsDecision_valid
    (relationships_admissible (.inl rfl) (by decide +kernel))).mpr ?_
  rintro ⟨-, -, -, -, _, _, _, _, _, _, hdeficient, -, hreason⟩
  cases hdeficient
  exact hreason (by decide)

/-- A name found more than once, under a DEEP ceiling: the envelope that the executor builds is
rejected by its own check, since it says that the ceiling was reached. -/
theorem relationshipsAmbiguous_rejected :
    relationshipsDecision.validate sampleHasher = .ok () ∧
      Admissible relationshipsDecision
        ((executeContextRoute sampleHasher id relationshipsDecision).exchanges
          (sampleDispatcher (fun _ => "gen-a") relationshipsAmbiguous).server 0) ∧
      ¬ ∃ execution, (executeContextRoute sampleHasher id relationshipsDecision).result
        (sampleDispatcher (fun _ => "gen-a") relationshipsAmbiguous).server 0 = .ok execution := by
  refine ⟨relationshipsDecision_valid, relationships_admissible (.inr rfl) (by decide +kernel), ?_⟩
  rintro ⟨execution, hok⟩
  have herror : ((executeContextRoute sampleHasher id relationshipsDecision).result
      (sampleDispatcher (fun _ => "gen-a") relationshipsAmbiguous).server 0).isOk = false := by
    decide +kernel
  rw [hok] at herror
  cases herror

end WorkspaceAtlas.ContextRoute
