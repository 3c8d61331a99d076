/-
# The calls of a run

Every call that a run of the executor makes is one the decision allows: the generation is looked
at before each operation, the routes rise from the floor to the ceiling, and a generation other
than the one the decision starts from ends the run.
-/
import WorkspaceAtlas.Route.Run

namespace WorkspaceAtlas.ContextRoute

open Relational Transition Dialogue

variable {H : Hasher} {clock : ℕ → ℕ} {decision : ContextRouteDecision} {E σ : Type}

/-! ## Calls -/

/-- A call of a run, with its answer. -/
abbrev RouteExchange (E : Type) : Type := Exchange DispatcherCall (DispatcherCall.Answer E)

/-- The route that a call dispatches. -/
def dispatched? : RouteExchange E → Option Route
  | ⟨.observeGeneration, _⟩ => none
  | ⟨.dispatchLight _ _, _⟩ => some .atlasLight
  | ⟨.dispatchDeep _ _ _, _⟩ => some .atlasDeep

/-- The generation that a call observed. -/
def observed? : RouteExchange E → Option GenerationObservation
  | ⟨.observeGeneration, generation⟩ => some generation
  | ⟨.dispatchLight _ _, _⟩ => none
  | ⟨.dispatchDeep _ _ _, _⟩ => none

/-- LIGHT reported deficits that can escalate. -/
def escalates : RouteExchange E → Prop
  | ⟨.dispatchLight _ _, .ok (.deficient _ _ deficits _ _ _)⟩ => lightDeficitsCanEscalate deficits
  | _ => False

/-- DEEP is dispatched only once there is a reason for it: there was one from the start, or LIGHT
has escalated. -/
def DeepFollows : Prop → List (RouteExchange E) → Prop
  | _, [] => True
  | reason, call :: calls =>
    (dispatched? call = some .atlasDeep → reason) ∧ DeepFollows (reason ∨ escalates call) calls

/-- The calls of a run keep to the decision. -/
structure Governed (decision : ContextRouteDecision) (calls : List (RouteExchange E))
    (result : Except (Stop E) ContextExecution) : Prop where
  /-- No operation is dispatched where the decision needs none. -/
  quiet : NeedsNoDispatch decision → ∀ call ∈ calls, dispatched? call = none
  lightOnce : calls.countP (fun call => dispatched? call = some .atlasLight) ≤ 1
  deepOnce : calls.countP (fun call => dispatched? call = some .atlasDeep) ≤ 1
  deepFollows : DeepFollows (decision.initialRoute = .atlasDeep) calls
  between : ∀ call ∈ calls, ∀ route ∈ dispatched? call,
    decision.effectiveFloor ≤ route ∧ route ≤ decision.effectiveCeiling
  /-- The call before a dispatch is an observation of the starting generation. -/
  watched : (∀ call ∈ calls.head?, dispatched? call = none) ∧
    calls.IsChain fun previous call =>
      dispatched? call ≠ none → observed? previous = some decision.startingGeneration
  /-- After the observation of another generation comes no call, and the run ends blocked. -/
  stops : (∃ call ∈ calls, ∃ generation ∈ observed? call,
      generation ≠ decision.startingGeneration) →
    (calls.IsChain fun previous _ =>
      ∀ generation ∈ observed? previous, generation = decision.startingGeneration) ∧
      ∃ execution, result = .ok execution ∧ execution.blockedByGeneration

/-- The one way in which a refusal is lost: LIGHT escalates on a deficit of a capability that the
caller has, and the generation is another one when DEEP is about to be dispatched. -/
def LosesRefusal (dispatcher : ContextRouteDispatcher E σ) (decision : ContextRouteDecision)
    (s : σ) : Prop :=
  ¬ NeedsNoDispatch decision ∧ decision.initialRoute ≠ .atlasDeep ∧
    (dispatcher.observeGeneration s).1 = decision.startingGeneration ∧
    (∃ offered satisfied deficits counters diagnostics materialization,
      (dispatcher.lightAnswer decision s).1 =
        .ok (.deficient offered satisfied deficits counters diagnostics materialization) ∧
      dispatchOutcomeValid decision .atlasLight
        (.deficient offered satisfied deficits counters diagnostics materialization) = .ok () ∧
      Route.atlasLight < decision.effectiveCeiling ∧ lightDeficitsCanEscalate deficits ∧
      ¬ ∀ c ∈ capabilitiesOf deficits, callerUnsatisfied decision c) ∧
    (dispatcher.observeGeneration (dispatcher.lightAnswer decision s).2).1 ≠
      decision.startingGeneration

/-! ## The shapes of a run -/

section Shapes

variable {result : Except (Stop E) ContextExecution} {observed : GenerationObservation}

/-- A run without a call. -/
lemma governed_nil : Governed decision ([] : List (RouteExchange E)) result where
  quiet := by simp
  lightOnce := by simp
  deepOnce := by simp
  deepFollows := trivial
  between := by simp
  watched := by simp
  stops := by simp

/-- A run whose first observation is another generation. -/
lemma governed_refused
    (hblocked : ∃ execution, result = .ok execution ∧ execution.blockedByGeneration) :
    Governed decision ([⟨.observeGeneration, observed⟩] : List (RouteExchange E)) result where
  quiet := by simp [dispatched?]
  lightOnce := by simp [dispatched?]
  deepOnce := by simp [dispatched?]
  deepFollows := by simp [DeepFollows, dispatched?]
  between := by simp [dispatched?]
  watched := by simp [dispatched?]
  stops := fun _ => ⟨.singleton _, hblocked⟩

variable {light : Except E RouteAttemptOutcome} {deep : Except E RouteAttemptOutcome}
  {operations : List VersionedOperation} {contracts : DeepContractVersions}
  {budget : DeepSemanticBudget}

/-- A run that dispatches LIGHT only. -/
lemma governed_light (hneeds : ¬ NeedsNoDispatch decision)
    (hfloor : decision.effectiveFloor ≤ .atlasLight)
    (hceiling : .atlasLight ≤ decision.effectiveCeiling) :
    Governed decision
      ([⟨.observeGeneration, decision.startingGeneration⟩,
        ⟨.dispatchLight decision operations, light⟩] : List (RouteExchange E)) result where
  quiet := fun h => absurd h hneeds
  lightOnce := by simp [dispatched?]
  deepOnce := by simp [dispatched?]
  deepFollows := by simp [DeepFollows, dispatched?]
  between := by simp [dispatched?, hfloor, hceiling]
  watched := by simp [dispatched?, observed?]
  stops := by simp [observed?]

/-- A run that dispatches DEEP only. -/
lemma governed_deep (hneeds : ¬ NeedsNoDispatch decision)
    (hinit : decision.initialRoute = .atlasDeep)
    (hfloor : decision.effectiveFloor ≤ .atlasDeep)
    (hceiling : .atlasDeep ≤ decision.effectiveCeiling) :
    Governed decision
      ([⟨.observeGeneration, decision.startingGeneration⟩,
        ⟨.dispatchDeep decision contracts budget, deep⟩] : List (RouteExchange E)) result where
  quiet := fun h => absurd h hneeds
  lightOnce := by simp [dispatched?]
  deepOnce := by simp [dispatched?]
  deepFollows := by simp [DeepFollows, dispatched?, hinit]
  between := by simp [dispatched?, hfloor, hceiling]
  watched := by simp [dispatched?, observed?]
  stops := by simp [observed?]

/-- A run that escalates and then dispatches DEEP. -/
lemma governed_lightDeep (hneeds : ¬ NeedsNoDispatch decision)
    (hesc : escalates (⟨.dispatchLight decision operations, light⟩ : RouteExchange E))
    (hfloor : decision.effectiveFloor ≤ .atlasLight)
    (hceiling : .atlasDeep ≤ decision.effectiveCeiling) :
    Governed decision
      ([⟨.observeGeneration, decision.startingGeneration⟩,
        ⟨.dispatchLight decision operations, light⟩,
        ⟨.observeGeneration, decision.startingGeneration⟩,
        ⟨.dispatchDeep decision contracts budget, deep⟩] : List (RouteExchange E)) result where
  quiet := fun h => absurd h hneeds
  lightOnce := by simp [dispatched?]
  deepOnce := by simp [dispatched?]
  deepFollows := by simp [DeepFollows, dispatched?, hesc]
  between := by
    simp [dispatched?, hfloor, hceiling, hfloor.trans (show Route.atlasLight ≤ .atlasDeep by decide),
      (show Route.atlasLight ≤ .atlasDeep by decide).trans hceiling]
  watched := by simp [dispatched?, observed?]
  stops := by simp [observed?]

/-- A run that escalates and then observes another generation keeps to the decision if and only
if it ends blocked. -/
lemma governed_lightRefused (hneeds : ¬ NeedsNoDispatch decision)
    (hfloor : decision.effectiveFloor ≤ .atlasLight)
    (hceiling : .atlasLight ≤ decision.effectiveCeiling)
    (hother : observed ≠ decision.startingGeneration) :
    Governed decision
      ([⟨.observeGeneration, decision.startingGeneration⟩,
        ⟨.dispatchLight decision operations, light⟩,
        ⟨.observeGeneration, observed⟩] : List (RouteExchange E)) result ↔
      ∃ execution, result = .ok execution ∧ execution.blockedByGeneration := by
  constructor
  · intro h
    exact (h.stops ⟨⟨.observeGeneration, observed⟩, by simp, observed, rfl, hother⟩).2
  · intro hblocked
    exact
      { quiet := fun h => absurd h hneeds
        lightOnce := by simp [dispatched?]
        deepOnce := by simp [dispatched?]
        deepFollows := by simp [DeepFollows, dispatched?]
        between := by simp [dispatched?, hfloor, hceiling]
        watched := by simp [dispatched?, observed?]
        stops := fun _ => ⟨by simp [observed?], hblocked⟩ }

end Shapes

/-! ## Every run -/

variable {dispatcher : ContextRouteDispatcher E σ} {s : σ} {progress : Progress}

lemma mapError_eq_ok {answer : Except E RouteAttemptOutcome} {outcome : RouteAttemptOutcome} :
    (answer.mapError .dispatcher : Except (Stop E) RouteAttemptOutcome) = .ok outcome ↔
      answer = .ok outcome := by
  cases answer <;> simp [Except.mapError]

/-- A run that enters the loop on LIGHT. -/
lemma governed_iff_of_light (hd : decision.validate H = .ok ()) (hp : AtLight decision progress)
    (hneeds : ¬ NeedsNoDispatch decision) (hinit : decision.initialRoute ≠ .atlasDeep) :
    Governed decision
        ((continueFrom H clock decision .atlasLight progress).exchanges dispatcher.server s)
        ((continueFrom H clock decision .atlasLight progress).result dispatcher.server s) ↔
      ¬ LosesRefusal dispatcher decision s := by
  have hobserved := hp.underway.observed
  have hfloor := hp.underway.floor
  have hceiling := hp.underway.ceiling
  set first := pass H clock decision .atlasLight progress with hfirst
  cases hfail : generationFailure decision.startingGeneration (dispatcher.observeGeneration s).1 with
  | some failure =>
    -- The first observation is another generation: the run ends before LIGHT.
    obtain ⟨failure, reason⟩ := failure
    obtain ⟨hresult, hcalls⟩ : first.result dispatcher.server s = _ ∧ _ := pass_refused hfail
    obtain ⟨execution, hrefuse, hblocked⟩ := (refuse_iff hp.underway hd hfail).mpr hp.led
    obtain ⟨hends, hexchanges⟩ := continueFrom_ends
      (show Next.execution? (first.result dispatcher.server s) = some (.ok execution) by
        rw [hresult, hrefuse]; rfl)
    rw [hends, hexchanges, hcalls]
    refine iff_of_true (governed_refused ⟨execution, rfl, hblocked⟩) ?_
    rintro ⟨-, -, hsame, -⟩
    rw [(generationFailure_eq_none_iff hobserved).mpr hsame] at hfail
    cases hfail
  | none =>
    have hsame := (generationFailure_eq_none_iff hobserved).mp hfail
    obtain ⟨hresult, hcalls, hafter⟩ : first.result dispatcher.server s = _ ∧ _ ∧ _ :=
      pass_light hfail
    rw [hsame] at hcalls
    cases hend : Next.execution? (first.result dispatcher.server s) with
    | some ended =>
      -- LIGHT ends the run, with an envelope or an error.
      obtain ⟨hends, hexchanges⟩ := continueFrom_ends hend
      rw [hends, hexchanges, hcalls]
      refine iff_of_true (governed_light hneeds hfloor hceiling) ?_
      rintro ⟨-, -, -, ⟨_, _, _, _, _, _, hanswer, hvalid, hlt, hesc, -⟩, -⟩
      rw [hresult, hanswer] at hend
      rw [show (Except.ok (.deficient _ _ _ _ _ _) : Except E RouteAttemptOutcome).mapError
        Stop.dispatcher = .ok _ from rfl, settle_escalates hvalid ⟨hlt, hesc⟩] at hend
      cases hend
    | none =>
      obtain ⟨_, next, hcontinued⟩ := continued_of_execution?_eq_none hend
      obtain ⟨offered, satisfied, deficits, counters, diagnostics, materialization, hanswer, hvalid,
        hlt, hesc, rfl⟩ := escalates_of_continued (hresult ▸ hcontinued)
      rw [mapError_eq_ok] at hanswer
      have hpassed := dispatchOutcomeValid_deficient.mp hvalid
      set next := progress.escalated clock offered satisfied deficits counters diagnostics
        materialization with hnext
      have hunderway : Underway decision .atlasDeep next := underway_escalated hp.underway hp.led
        hp.short hp.noPayload hp.caller hp.noMaterialization hvalid hlt
        (by simpa [hp.free] using hpassed.1.2.1) (by simpa [hp.quiet] using hpassed.1.1)
      obtain ⟨ended, hended⟩ := exists_execution_deep
        ((pass H clock decision .atlasDeep next).result dispatcher.server
          (first.after dispatcher.server s))
      obtain ⟨hends, hexchanges⟩ := continueFrom_continues hcontinued hended
      rw [hends, hexchanges, hcalls]
      rw [hafter] at hended ⊢
      have hobserved₂ := hunderway.observed
      cases hfail₂ : generationFailure decision.startingGeneration
          (dispatcher.observeGeneration (dispatcher.lightAnswer decision s).2).1 with
      | some failure =>
        -- The generation changed: the run is to end blocked, which takes acceptable attempts.
        obtain ⟨failure, reason⟩ := failure
        obtain ⟨hresult₂, hcalls₂⟩ :
            (pass H clock decision .atlasDeep next).result dispatcher.server _ = _ ∧ _ :=
          pass_refused hfail₂
        have hother : (dispatcher.observeGeneration (dispatcher.lightAnswer decision s).2).1 ≠
            decision.startingGeneration := by
          intro hsame₂
          rw [(generationFailure_eq_none_iff hobserved₂).mpr hsame₂] at hfail₂
          cases hfail₂
        rw [hcalls₂, List.cons_append, List.cons_append, List.nil_append,
          governed_lightRefused hneeds hfloor hceiling hother]
        rw [hresult₂] at hended
        simp only [← returned_iff_execution hended]
        rw [refuse_iff hunderway hd hfail₂, hnext, led_escalated_iff hesc]
        constructor
        · rintro hlacks ⟨-, -, -, ⟨_, _, _, _, _, _, hanswer', -, -, -, hhas⟩, -⟩
          rw [hanswer] at hanswer'
          cases hanswer'
          exact hhas hlacks
        · intro hkeeps
          by_contra hhas
          exact hkeeps ⟨hneeds, hinit, hsame, ⟨_, _, _, _, _, _, hanswer, hvalid, hlt, hesc, hhas⟩,
            hother⟩
      | none =>
        obtain ⟨budget, hbudget⟩ := exists_deepBudget hd
          (le_antisymm (by cases decision.effectiveCeiling <;> decide) hunderway.ceiling)
        have hsame₂ := (generationFailure_eq_none_iff hobserved₂).mp hfail₂
        obtain ⟨-, hcalls₂⟩ :
            (pass H clock decision .atlasDeep next).result dispatcher.server _ = _ ∧ _ :=
          pass_deep hbudget hfail₂
        rw [hcalls₂, hsame₂, List.cons_append, List.cons_append, List.nil_append]
        refine iff_of_true (governed_lightDeep hneeds ?_ hfloor hunderway.ceiling) ?_
        · rw [hanswer]
          exact hesc
        · rintro ⟨-, -, -, -, hother⟩
          exact hother hsame₂

/-- A run that enters the loop on DEEP. -/
lemma governed_of_deep (hd : decision.validate H = .ok ())
    (hp : Underway decision .atlasDeep progress) (hattempts : progress.attempts = [])
    (hneeds : ¬ NeedsNoDispatch decision) (hinit : decision.initialRoute = .atlasDeep) :
    Governed decision
      ((continueFrom H clock decision .atlasDeep progress).exchanges dispatcher.server s)
      ((continueFrom H clock decision .atlasDeep progress).result dispatcher.server s) := by
  obtain ⟨ended, hended⟩ := exists_execution_deep
    ((pass H clock decision .atlasDeep progress).result dispatcher.server s)
  obtain ⟨hends, hexchanges⟩ := continueFrom_ends hended
  rw [hends, hexchanges]
  cases hfail : generationFailure decision.startingGeneration (dispatcher.observeGeneration s).1 with
  | some failure =>
    obtain ⟨failure, reason⟩ := failure
    obtain ⟨hresult, hcalls⟩ :
        (pass H clock decision .atlasDeep progress).result dispatcher.server s = _ ∧ _ :=
      pass_refused hfail
    rw [hcalls]
    rw [hresult] at hended
    refine governed_refused ?_
    simp only [← returned_iff_execution hended]
    exact (refuse_iff hp hd hfail).mpr (by simp [Led, hattempts])
  | none =>
    obtain ⟨budget, hbudget⟩ := exists_deepBudget hd
      (le_antisymm (by cases decision.effectiveCeiling <;> decide) hp.ceiling)
    obtain ⟨-, hcalls⟩ :
        (pass H clock decision .atlasDeep progress).result dispatcher.server s = _ ∧ _ :=
      pass_deep hbudget hfail
    rw [hcalls, (generationFailure_eq_none_iff hp.observed).mp hfail]
    exact governed_deep hneeds hinit hp.floor hp.ceiling

/-- A run that loses a refusal does not end blocked. -/
lemma not_governed_of_losesRefusal (hd : decision.validate H = .ok ())
    (h : LosesRefusal dispatcher decision s) :
    ¬ Governed decision ((executeContextRoute H clock decision).exchanges dispatcher.server s)
      ((executeContextRoute H clock decision).result dispatcher.server s) := by
  rcases execute_cases (E := E) hd with
    ⟨hneeds, -⟩ | ⟨hneeds, hinit, progress, hp, hrun⟩ | ⟨-, hinit, -⟩
  · exact absurd hneeds h.1
  · rw [hrun, governed_iff_of_light hd hp hneeds hinit]
    exact not_not_intro h
  · exact absurd hinit h.2.1

/-- **The calls of a run.**  With every dispatcher, the run of a validated decision keeps to the
decision if and only if no refusal is lost. -/
theorem governed_iff (dispatcher : ContextRouteDispatcher E σ) (s : σ)
    (hd : decision.validate H = .ok ()) :
    Governed decision ((executeContextRoute H clock decision).exchanges dispatcher.server s)
        ((executeContextRoute H clock decision).result dispatcher.server s) ↔
      ¬ LosesRefusal dispatcher decision s := by
  refine ⟨fun h hloses => not_governed_of_losesRefusal hd hloses h, fun hkeeps => ?_⟩
  rcases execute_cases (E := E) hd with
    ⟨-, execution, hrun⟩ | ⟨hneeds, hinit, progress, hp, hrun⟩ |
      ⟨hneeds, hinit, progress, hp, hattempts, -, hrun⟩
  · rw [hrun]
    exact governed_nil
  · rw [hrun]
    exact (governed_iff_of_light hd hp hneeds hinit).mpr hkeeps
  · rw [hrun]
    exact governed_of_deep hd hp hattempts hneeds hinit

/-! ## A caller that has what LIGHT left open -/

/-- A digest of 32 bytes for runs on concrete values: the first bytes of what is digested. -/
def sampleHasher : Hasher := { Hasher.plain with sha256 := fun bytes => bytes.take 32 }

/-- A digest as a request has it. -/
def sampleDigest : String := String.ofList (List.replicate 64 'a')

/-- A budget for DEEP. -/
def sampleBudget : DeepSemanticBudget :=
  let budget : DeepSemanticBudget := ⟨8, 4096, 1000, 4, 100, 10, ""⟩
  { budget with budgetDigest := budget.expectedDigest sampleHasher }

/-- A request from LIGHT up to DEEP for some capabilities. -/
def sampleRequest (capabilities : Capabilities) : ContextRouteRequest where
  schemaVersion := contextRoutePolicyVersion
  normalizedTaskHash := sampleDigest
  declaredKind := none
  classifierKind := .explore
  classifierVersion := taskClassifierVersion
  explicitSeeds := ⟨sampleDigest, 0, 1⟩
  callerCapabilities := capabilities
  atlasIntent := .allow
  routeFloor := .atlasLight
  routeCeiling := .atlasDeep
  capabilityProfile := none
  costProfile := none
  profileRegistryDigest := none
  startingGeneration := .observed "gen-a"
  lightOperations := expectedLightOperations
  deepContracts :=
    ⟨deepPlannerVersion, deepProjectionVersion, contextIrVersion, deepEstimatorVersion⟩
  deepBudget := some sampleBudget

/-- A dispatcher with one LIGHT outcome, which counts its observations. -/
def sampleDispatcher (generation : ℕ → String) (outcome : RouteAttemptOutcome) :
    ContextRouteDispatcher Unit ℕ where
  observeGeneration n := (.observed (generation n), n + 1)
  dispatchLight _ _ n := (.ok outcome, n)
  dispatchDeep _ _ _ n := (.error (), n)

/-- The caller lacks an identity and has a validation plan. -/
def plannedDecision : ContextRouteDecision :=
  routeDecision sampleHasher
    (sampleRequest ⟨[(.identityLookup, .unsatisfied), (.validationPlan, .satisfied)], by decide⟩)

/-- LIGHT finds the identity and no validation plan. -/
def planUnavailable : RouteAttemptOutcome :=
  .deficient none [.identityLookup] [.capability .validationPlan .unavailable] 0 [] none

lemma plannedDecision_valid : plannedDecision.validate sampleHasher = .ok () :=
  validate_routeDecision (by decide +kernel)

lemma plannedDecision_needs : ¬ NeedsNoDispatch plannedDecision := by
  rintro (h | ⟨h, -⟩ | h) <;> exact absurd h (by decide)

theorem governed_iff_planned :
    Governed plannedDecision
      ((executeContextRoute sampleHasher id plannedDecision).exchanges
        (sampleDispatcher (fun _ => "gen-a") planUnavailable).server 0)
      ((executeContextRoute sampleHasher id plannedDecision).result
        (sampleDispatcher (fun _ => "gen-a") planUnavailable).server 0) :=
  (governed_iff _ 0 plannedDecision_valid).mpr fun h => h.2.2.2.2 rfl

/-- The generation changes after LIGHT has escalated on the plan that the caller has: the run
observes it and still does not end blocked. -/
theorem planned_not_governed :
    plannedDecision.validate sampleHasher = .ok () ∧
      ¬ Governed plannedDecision
        ((executeContextRoute sampleHasher id plannedDecision).exchanges
          (sampleDispatcher (fun n => if n = 0 then "gen-a" else "gen-b") planUnavailable).server 0)
        ((executeContextRoute sampleHasher id plannedDecision).result
          (sampleDispatcher (fun n => if n = 0 then "gen-a" else "gen-b") planUnavailable).server
            0) := by
  refine ⟨plannedDecision_valid, not_governed_of_losesRefusal plannedDecision_valid ?_⟩
  refine ⟨plannedDecision_needs, by decide, rfl, ⟨_, _, _, _, _, _, rfl, ?_, by decide, rfl, ?_⟩, ?_⟩
  · decide
  · exact fun h => absurd (h .validationPlan (by decide)) (by decide)
  · decide

end WorkspaceAtlas.ContextRoute
