/-
# The passes of the executor

Each pass of the loop of `execute_context_route` starts from attempts that an envelope may hold
and leaves such attempts behind.  What an envelope has to fulfil beyond that is said pass by
pass: what a refusal, a completion, an interruption and a deficient outcome are accepted under.
-/
import WorkspaceAtlas.Route.Acceptance

namespace WorkspaceAtlas.ContextRoute

open Relational Transition

variable {H : Hasher} {clock : ℕ → ℕ} {decision : ContextRouteDecision} {E : Type} {route : Route}
  {progress : Progress}

/-! ## Envelopes that are returned -/

lemma routed_bind {α β : Type} {x : Except ContextRouteError α} {a : α}
    {f : α → Except (Stop E) β} (h : x = .ok a) : (routed x >>= f) = f a := by
  rw [h]
  rfl

/-- An envelope is returned if and only if its own checks accept it. -/
lemma returned_iff {execution : ContextExecution} :
    (∃ returned, (.returned <$> routed (execution.checked H) : Except (Stop E) (Next route)) =
      .ok (.returned returned)) ↔ execution.validate H = .ok () := by
  rw [ContextExecution.checked]
  cases execution.validate H with
  | error e =>
    simp only [reduceCtorEq, iff_false, not_exists]
    intro returned h
    cases h
  | ok _ => exact iff_of_true ⟨execution, rfl⟩ rfl

/-- The envelope that is returned is the one that was checked. -/
lemma returned_eq {execution returned : ContextExecution}
    (h : (.returned <$> routed (execution.checked H) : Except (Stop E) (Next route)) =
      .ok (.returned returned)) : execution = returned := by
  rw [ContextExecution.checked] at h
  cases hvalidate : execution.validate H with
  | error e =>
    rw [hvalidate] at h
    cases h
  | ok _ =>
    rw [hvalidate] at h
    cases h
    rfl

/-- The transition check does not tell apart two attempts on one route. -/
lemma leadsTo_of_transition {previous next : ExecutionAttempt}
    (h : validAttemptTransition previous next decision) : LeadsTo decision previous next.route := by
  intro other hroute
  rw [validAttemptTransition] at h ⊢
  rw [hroute]
  exact h

/-- The counters with those of one more attempt. -/
lemma sum_snoc {attempts : List ExecutionAttempt} (attempt : ExecutionAttempt)
    (htotal : (counterTotal attempts + attempt.counters).validate = .ok ()) :
    checkedCounterSum (attempts ++ [attempt]) = .ok (counterTotal (attempts ++ [attempt])) ∧
      (counterTotal (attempts ++ [attempt])).validate = .ok () := by
  rw [← counterTotal_snoc] at htotal
  exact ⟨checkedCounterSum_eq_ok htotal, htotal⟩

/-! ## The invariant of the loop -/

/-- Before a pass on the route: the attempts made so far are acceptable, all of them left
something open, and what they brought can be handed back if the pass is interrupted. -/
structure Underway (decision : ContextRouteDecision) (route : Route) (progress : Progress) :
    Prop where
  accepted : AttemptsAccepted decision progress.attempts
  short : progress.attempts.length ≤ 2
  leftOpen : ∀ attempt ∈ progress.attempts, attempt.state = .partial_
  starts : progress.attempts = [] → route = decision.initialRoute
  floor : decision.effectiveFloor ≤ route
  ceiling : route ≤ decision.effectiveCeiling
  notDirect : route ≠ .direct
  observed : ¬ decision.startingGeneration.isUnavailable
  needed : ¬ ((callerSatisfaction decision).2 = [] ∧ decision.initialRoute = .direct)
  counters : (counterTotal progress.attempts).validate = .ok ()
  diagnostics : progress.diagnostics.length ≤ maxExecutionDiagnostics
  priorAccounted : Accounted decision progress.priorSatisfied []
    (progress.attempts.getLast?.map fun attempt => attempt.route)
  priorUseful : progress.priorPayload.any ContextPayload.useful → progress.priorSatisfied ≠ []
  priorPayload : ∀ payload ∈ progress.priorPayload, payload.validate = .ok () ∧
    ∃ attempt ∈ progress.attempts.getLast?, payload.route = attempt.route
  priorMaterialization :
    validateMaterialization progress.priorMaterialization progress.priorPayload = .ok ()

/-- The last attempt leads to the route. -/
def Led (decision : ContextRouteDecision) (route : Route) (progress : Progress) : Prop :=
  ∀ previous ∈ progress.attempts.getLast?, LeadsTo decision previous route

namespace Underway

/-- The attempts with the one of this pass. -/
lemma accepted_snoc (h : Underway decision route progress) (hled : Led decision route progress)
    {attempt : ExecutionAttempt} (hroute : attempt.route = route)
    (hvalid : attempt.validate = .ok ()) :
    AttemptsAccepted decision (progress.attempts ++ [attempt]) := by
  have hshort := h.short
  refine h.accepted.snoc (by rw [maxRouteAttempts]; omega) hvalid
    (fun previous hprev => hled previous hprev attempt hroute) (fun hnil => ?_) ?_ ?_
    (fun hdirect => absurd (hroute ▸ hdirect) h.notDirect) (fun _ => h.observed)
    (fun _ => h.needed)
  · rw [hroute, h.starts hnil]
  · rw [hroute]
    exact h.floor
  · rw [hroute]
    exact h.ceiling

/-- Attempts that are accepted with one on the route lead to the route. -/
lemma led_of_accepted {attempts : List ExecutionAttempt} {attempt : ExecutionAttempt}
    (h : AttemptsAccepted decision (attempts ++ [attempt])) :
    ∀ previous ∈ attempts.getLast?, LeadsTo decision previous attempt.route := by
  intro previous hprev
  have hchain := (List.isChain_append.mp h.chain).2.2 previous hprev attempt rfl
  exact leadsTo_of_transition hchain

lemma ordinal_le (h : Underway decision route progress) : progress.attempts.length + 1 ≤ 8 := by
  have := h.short
  omega

end Underway

/-! ## A pass that is refused -/

/-- Why the generation was refused is what the envelope says. -/
lemma validateTerminalReason_of_failure {expected observed : GenerationObservation}
    {failure : RouteFailureReason} {reason : TerminalReason} {ceiling : Route}
    (hfail : generationFailure expected observed = some (failure, reason))
    {finalRoute : Option Route} :
    validateTerminalReason reason finalRoute ceiling [.route failure] = .ok () := by
  revert hfail
  fun_cases generationFailure expected observed <;> intro hfail <;>
    simp only [Option.some.injEq, Prod.mk.injEq, reduceCtorEq] at hfail <;>
    obtain ⟨rfl, rfl⟩ := hfail <;> simp [validateTerminalReason]

/-- `ExecutionState::Blocked` with a deficit of the route: the generation was not the one the
decision starts from. -/
def ContextExecution.blockedByGeneration : ContextExecution → Bool
  | .blocked _ _ _ _ _ _ deficits _ _ _ _ => ∃ deficit ∈ deficits, deficit.isRoute
  | _ => false

/-- **A refusal** is returned if and only if the attempts lead to the route on which the
generation was refused. -/
lemma refuse_iff (h : Underway decision route progress) (hd : decision.validate H = .ok ())
    {observed : GenerationObservation} {failure : RouteFailureReason} {reason : TerminalReason}
    (hfail : generationFailure decision.startingGeneration observed = some (failure, reason)) :
    (∃ execution, (refuse H clock decision route progress failure reason :
        Except (Stop E) (Next route)) = .ok (.returned execution) ∧
      execution.blockedByGeneration) ↔ Led decision route progress := by
  have hvalid : (routeAttempt clock (progress.attempts.length + 1) route .blocked
      [.route failure] 0).validate = .ok () := (routeAttempt_validate h.ordinal_le).mpr
    ⟨ContextExecutionCounters.validate_zero, rfl, .singleton _⟩
  obtain ⟨hsum, htotal⟩ := sum_snoc (routeAttempt clock (progress.attempts.length + 1)
    route .blocked [.route failure] 0) (by simpa [routeAttempt] using h.counters)
  rw [refuse, routed_bind hsum]
  constructor
  · rintro ⟨execution, hreturned, -⟩
    exact Underway.led_of_accepted (accepted_of_validate rfl (returned_iff.mp ⟨_, hreturned⟩))
  · intro hled
    obtain ⟨execution, hreturned⟩ := (@returned_iff H E route _).mpr <|
      (validate_iff_validateState rfl hd h.diagnostics htotal
        (h.accepted_snoc hled rfl hvalid) hsum).mpr <|
      (validateState_blocked (List.cons_ne_nil _ _)
        (accounted_callerSatisfaction.of_capabilitiesOf_eq_nil rfl)
        (by simp [RouteDeficit.isRoute])).mpr (validateTerminalReason_of_failure hfail)
    refine ⟨execution, hreturned, ?_⟩
    rw [← returned_eq hreturned]
    simp [ContextExecution.blockedByGeneration, RouteDeficit.isRoute]

/-! ## A pass with an outcome -/

section Conclude

variable {payload : ContextPayload} {satisfied : List RequiredCapability}
  {deficits : List RouteDeficit} {counters : ContextExecutionCounters}
  {diagnostics : List ContextDiagnosticCode} {materialization : Option ExplicitMaterialization}
  {interruption : InterruptionReason} {offered : Option ContextPayload}

/-- **A completion** on a route that reaches what the caller lacks. -/
lemma conclude_completed (h : Underway decision route progress) (hled : Led decision route progress)
    (hd : decision.validate H = .ok ())
    (hvalid : dispatchOutcomeValid decision route
      (.completed payload counters diagnostics materialization) = .ok ())
    (hreach : ∀ c, callerUnsatisfied decision c → c.minimumRoute ≤ route)
    (htotal : (counterTotal progress.attempts + counters).validate = .ok ())
    (hdiag : (progress.diagnostics ++ diagnostics).length ≤ maxExecutionDiagnostics) :
    ∃ execution, (conclude H clock decision route progress
      (.completed payload counters diagnostics materialization) :
        Except (Stop E) (Next route)) = .ok (.returned execution) := by
  simp only [dispatchOutcomeValid, check_bind_eq_ok, ensure_eq_ok] at hvalid
  obtain ⟨⟨-, hcounters, hpayload, hroute⟩, hmaterialization⟩ := hvalid
  have hattempt : (routeAttempt clock (progress.attempts.length + 1) route .completed []
      counters).validate = .ok () :=
    (routeAttempt_validate h.ordinal_le).mpr ⟨hcounters, rfl, .nil⟩
  obtain ⟨hsum, hcounted⟩ := sum_snoc (routeAttempt clock (progress.attempts.length + 1)
    route .completed [] counters) htotal
  rw [conclude, routed_bind hsum, ContextExecution.ofCompleted, returned_iff,
    validate_iff_validateState rfl hd hdiag hcounted (h.accepted_snoc hled rfl hattempt) hsum]
  simp only [ContextExecution.validateState, check_bind_eq_ok, ensure_eq_ok]
  refine ⟨hpayload, ⟨?_, ?_, trivial, ?_⟩, hmaterialization⟩
  · simp [routeAttempt]
  · simpa [routeAttempt] using hroute
  · rintro ⟨⟨c, state⟩, hmem, hstate, hlt⟩
    have hle := hreach c (callerUnsatisfied_iff.mpr ⟨state, hmem, hstate⟩)
    simp [routeAttempt] at hlt
    exact absurd hle (not_le.mpr hlt)

/-- **An interruption** hands back what the attempts before it brought. -/
lemma conclude_interrupted (h : Underway decision route progress)
    (hd : decision.validate H = .ok ())
    (hdiag : (progress.diagnostics ++ diagnostics).length ≤ maxExecutionDiagnostics) :
    ∃ execution, (conclude H clock decision route progress (.interrupted diagnostics interruption) :
        Except (Stop E) (Next route)) = .ok (.returned execution) := by
  have hsum := checkedCounterSum_eq_ok h.counters
  rw [conclude, routed_bind hsum, returned_iff,
    validate_iff_validateState rfl hd hdiag h.counters h.accepted hsum]
  simp only [ContextExecution.validateState, check_bind_eq_ok, ensure_eq_ok,
    validateSatisfiedCapabilities_eq_ok]
  refine ⟨⟨fun attempt hmem => ?_, trivial⟩, ⟨h.priorAccounted, h.priorUseful, by simp⟩, ?_⟩
  · rw [h.leftOpen attempt hmem]
    simp
  · have hprior := h.priorPayload
    have hmaterialization := h.priorMaterialization
    cases hpayload : progress.priorPayload with
    | none =>
      rw [hpayload] at hmaterialization
      exact hmaterialization
    | some payload =>
      rw [hpayload] at hmaterialization
      simp only [check_bind_eq_ok, ensure_eq_ok]
      obtain ⟨hvalid, hroute⟩ := hprior payload hpayload
      exact ⟨hvalid, hroute, hmaterialization⟩

/-- What a valid deficient outcome says. -/
lemma dispatchOutcomeValid_deficient :
    dispatchOutcomeValid decision route
        (.deficient offered satisfied deficits counters diagnostics materialization) = .ok () ↔
      (diagnostics.length ≤ maxExecutionDiagnostics ∧ counters.validate = .ok () ∧
        (∀ p ∈ offered, p.validate = .ok () ∧ p.route = route) ∧ deficits ≠ [] ∧
        deficits.IsChain (· < ·) ∧ ∀ deficit ∈ deficits, ¬ deficit.isRoute) ∧
      validateMaterialization materialization offered = .ok () ∧
      Accounted decision satisfied deficits (some route) ∧
      satisfied.length + (capabilitiesOf deficits).length =
        decision.requestedCapabilities.len := by
  simp only [dispatchOutcomeValid, check_bind_eq_ok, ensure_eq_ok,
    validateSatisfiedCapabilities_eq_ok]
  simp

/-- The attempt that an outcome with deficits is recorded as. -/
lemma Underway.deficient_attempt_validate (h : Underway decision route progress) {state : AttemptState}
    (hstate : state = .partial_ ∨ state = .blocked) (hcounters : counters.validate = .ok ())
    (hne : deficits ≠ []) (hchain : deficits.IsChain (· < ·)) :
    (routeAttempt clock (progress.attempts.length + 1) route state deficits counters).validate =
      .ok () := by
  refine (routeAttempt_validate h.ordinal_le).mpr ⟨hcounters, ?_, hchain⟩
  obtain rfl | rfl := hstate <;> simpa [ExecutionAttempt.deficitShapeValid, routeAttempt] using hne

/-- A payload of a route other than DIRECT is useful. -/
lemma useful_of_route (hroute : payload.route = route) (hne : route ≠ .direct) :
    payload.useful := by
  cases payload with
  | directNone => exact absurd hroute.symm hne
  | lightBundle _ => rfl
  | deepContextIr _ => rfl

/-- The reason the executor gives for stopping passes the check if and only if the ceiling was
reached or some capability was out of reach. -/
lemma validateTerminalReason_terminalReasonFor {ceiling : Route} :
    validateTerminalReason (terminalReasonFor route ceiling deficits) (some route) ceiling
        deficits = .ok () ↔
      route = ceiling ∨ ∃ deficit ∈ deficits, deficit.isUnavailable := by
  rw [terminalReasonFor]
  by_cases hroute : route = ceiling
  · simp [validateTerminalReason, hroute]
  · by_cases hdeficit : ∃ deficit ∈ deficits, deficit.isUnavailable
    · rw [if_neg hroute, if_pos hdeficit]
      simp [validateTerminalReason, hroute]
    · rw [if_neg hroute, if_neg hdeficit]
      simp [validateTerminalReason, hroute] at hdeficit ⊢
      exact hdeficit

/-- **A deficient outcome that ends the execution** is returned if and only if the route is the
ceiling or some deficit says that a capability was out of reach. -/
lemma conclude_deficient_iff (h : Underway decision route progress)
    (hled : Led decision route progress) (hd : decision.validate H = .ok ())
    (hvalid : dispatchOutcomeValid decision route
      (.deficient offered satisfied deficits counters diagnostics materialization) = .ok ())
    (hstop : ¬ (route = .atlasLight ∧ route < decision.effectiveCeiling ∧
      lightDeficitsCanEscalate deficits))
    (htotal : (counterTotal progress.attempts + counters).validate = .ok ())
    (hdiag : (progress.diagnostics ++ diagnostics).length ≤ maxExecutionDiagnostics) :
    (∃ execution, (conclude H clock decision route progress
      (.deficient offered satisfied deficits counters diagnostics materialization) :
        Except (Stop E) (Next route)) = .ok (.returned execution)) ↔
      route = decision.effectiveCeiling ∨ ∃ deficit ∈ deficits, deficit.isUnavailable := by
  rw [dispatchOutcomeValid_deficient] at hvalid
  obtain ⟨⟨-, hcounters, hoffered, hne, hchain, hnoRoute⟩, hmaterialization, haccounted,
    hlength⟩ := hvalid
  rw [conclude, dif_neg hstop]
  have hattempt : ∀ state, state = AttemptState.partial_ ∨ state = .blocked →
      (routeAttempt clock (progress.attempts.length + 1) route state deficits counters).validate =
        .ok () := fun _ hstate => h.deficient_attempt_validate hstate hcounters hne hchain
  by_cases huseful : offered.any ContextPayload.useful ∧ satisfied ≠ []
  · obtain ⟨payload, rfl⟩ : ∃ payload, offered = some payload := by
      cases offered with
      | none => simp at huseful
      | some payload => exact ⟨payload, rfl⟩
    obtain ⟨hsum, hcounted⟩ := sum_snoc (routeAttempt clock (progress.attempts.length + 1)
      route .partial_ deficits counters) htotal
    simp only [decide_eq_true huseful, ↓reduceIte]
    rw [routed_bind hsum, returned_iff, validate_iff_validateState rfl hd hdiag hcounted
      (h.accepted_snoc hled rfl (hattempt _ (.inl rfl))) hsum,
      ← validateTerminalReason_terminalReasonFor]
    simp only [ContextExecution.validateState, check_bind_eq_ok, ensure_eq_ok,
      validateSatisfiedCapabilities_eq_ok]
    obtain ⟨hpayload, hroute⟩ := hoffered payload rfl
    constructor
    · rintro ⟨-, -, -, hreason, -⟩
      exact hreason
    · intro hreason
      refine ⟨hpayload, ⟨?_, hroute, useful_of_route hroute h.notDirect, hnoRoute, ?_, trivial⟩,
        ⟨haccounted, fun _ => huseful.2, fun _ => hlength⟩, hreason, hmaterialization⟩
      · simp [routeAttempt]
      · simp [routeAttempt]
  · obtain ⟨hsum, hcounted⟩ := sum_snoc (routeAttempt clock (progress.attempts.length + 1)
      route .blocked deficits counters) htotal
    simp only [decide_eq_false huseful, Bool.false_eq_true, ↓reduceIte]
    rw [routed_bind hsum, returned_iff, validate_iff_validateState rfl hd hdiag hcounted
      (h.accepted_snoc hled rfl (hattempt _ (.inr rfl))) hsum,
      ← validateTerminalReason_terminalReasonFor]
    exact validateState_blocked hne haccounted fun _ => hlength

/-- The progress a LIGHT pass leaves when DEEP is to go on. -/
def Progress.escalated (progress : Progress) (clock : ℕ → ℕ) (offered : Option ContextPayload)
    (satisfied : List RequiredCapability) (deficits : List RouteDeficit)
    (counters : ContextExecutionCounters) (diagnostics : List ContextDiagnosticCode)
    (materialization : Option ExplicitMaterialization) : Progress :=
  let attempts := progress.attempts ++
    [routeAttempt clock (progress.attempts.length + 1) .atlasLight .partial_ deficits counters]
  if offered.isSome ∧ satisfied ≠ [] then
    ⟨attempts, progress.diagnostics ++ diagnostics, offered, satisfied, materialization⟩
  else
    ⟨attempts, progress.diagnostics ++ diagnostics, progress.priorPayload,
      progress.priorSatisfied, progress.priorMaterialization⟩

/-- **A deficient LIGHT outcome that escalates.** -/
lemma conclude_escalates (hesc : Route.atlasLight < decision.effectiveCeiling ∧
      lightDeficitsCanEscalate deficits) :
    (conclude H clock decision .atlasLight progress
      (.deficient offered satisfied deficits counters diagnostics materialization) :
        Except (Stop E) (Next .atlasLight)) =
      .ok (.continued rfl (progress.escalated clock offered satisfied deficits counters diagnostics
        materialization)) := by
  rw [conclude, dif_pos ⟨rfl, hesc⟩, Progress.escalated]
  split <;> rfl

lemma escalated_attempts : (progress.escalated clock offered satisfied deficits counters diagnostics
      materialization).attempts = progress.attempts ++
        [routeAttempt clock (progress.attempts.length + 1) .atlasLight .partial_ deficits
          counters] := by
  rw [Progress.escalated]
  split <;> rfl

lemma escalated_diagnostics : (progress.escalated clock offered satisfied deficits counters
      diagnostics materialization).diagnostics = progress.diagnostics ++ diagnostics := by
  rw [Progress.escalated]
  split <;> rfl

/-- A pass that escalates leaves the invariant for DEEP. -/
lemma underway_escalated (h : Underway decision .atlasLight progress)
    (hled : Led decision .atlasLight progress) (hshort : progress.attempts.length ≤ 1)
    (hprior : progress.priorPayload = none)
    (hcaller : progress.priorSatisfied = (callerSatisfaction decision).1)
    (hbrought : progress.priorMaterialization = none)
    (hvalid : dispatchOutcomeValid decision .atlasLight
      (.deficient offered satisfied deficits counters diagnostics materialization) = .ok ())
    (hceiling : Route.atlasLight < decision.effectiveCeiling)
    (htotal : (counterTotal progress.attempts + counters).validate = .ok ())
    (hdiag : (progress.diagnostics ++ diagnostics).length ≤ maxExecutionDiagnostics) :
    Underway decision .atlasDeep (progress.escalated clock offered satisfied deficits counters
      diagnostics materialization) := by
  rw [dispatchOutcomeValid_deficient] at hvalid
  obtain ⟨⟨-, hcounters, hoffered, hne, hchain, hnoRoute⟩, hmaterialization, haccounted,
    hlength⟩ := hvalid
  have hattempt : (routeAttempt clock (progress.attempts.length + 1) .atlasLight .partial_
      deficits counters).validate = .ok () :=
    h.deficient_attempt_validate (.inl rfl) hcounters hne hchain
  have hdeep : Route.atlasDeep ≤ decision.effectiveCeiling := by
    revert hceiling
    cases decision.effectiveCeiling <;> decide
  refine ⟨?_, ?_, ?_, ?_, h.floor.trans (by decide), hdeep, by simp, h.observed, h.needed, ?_, ?_,
    ?_, ?_, ?_, ?_⟩
  · rw [escalated_attempts]
    exact h.accepted_snoc hled rfl hattempt
  · rw [escalated_attempts, List.length_append, List.length_singleton]
    omega
  · intro attempt hmem
    rw [escalated_attempts] at hmem
    obtain hmem | hmem := List.mem_append.mp hmem
    · exact h.leftOpen attempt hmem
    · rw [List.mem_singleton.mp hmem, routeAttempt]
  · intro hnil
    simp [escalated_attempts] at hnil
  · rw [escalated_attempts]
    exact (sum_snoc _ htotal).2
  · rw [escalated_diagnostics]
    exact hdiag
  -- What the pass brought replaces what was there before only if it is of use.
  all_goals by_cases huseful : offered.isSome ∧ satisfied ≠ []
  · simp only [Progress.escalated, if_pos huseful, List.getLast?_concat, Option.map_some]
    exact haccounted.of_capabilitiesOf_eq_nil rfl
  · simp only [Progress.escalated, if_neg huseful, hcaller]
    exact accounted_callerSatisfaction.of_capabilitiesOf_eq_nil rfl
  · simp only [Progress.escalated, if_pos huseful]
    exact fun _ => huseful.2
  · simp only [Progress.escalated, if_neg huseful, hprior]
    simp
  · simp only [Progress.escalated, if_pos huseful, List.getLast?_concat]
    intro payload hpayload
    obtain ⟨hvalid, hroute⟩ := hoffered payload hpayload
    exact ⟨hvalid, _, rfl, hroute⟩
  · simp only [Progress.escalated, if_neg huseful, hprior]
    simp
  · simp only [Progress.escalated, if_pos huseful]
    exact hmaterialization
  · simp only [Progress.escalated, if_neg huseful, hprior, hbrought]
    rfl

/-- What escalated leads to DEEP if and only if the caller lacks all that LIGHT left open. -/
lemma led_escalated_iff (hesc : lightDeficitsCanEscalate deficits) :
    Led decision .atlasDeep (progress.escalated clock offered satisfied deficits counters
        diagnostics materialization) ↔
      ∀ c ∈ capabilitiesOf deficits, callerUnsatisfied decision c := by
  rw [Led, escalated_attempts, List.getLast?_concat]
  simp only [Option.mem_def, Option.some.injEq, forall_eq']
  exact leadsTo_deep_iff hesc

end Conclude

/-- Only a valid LIGHT outcome with deficits that can escalate lets the loop go on. -/
lemma escalates_of_continued {answer : Except (Stop E) RouteAttemptOutcome}
    {hroute : route = .atlasLight} {next : Progress}
    (h : settle H clock decision route progress answer = .ok (.continued hroute next)) :
    ∃ offered satisfied deficits counters diagnostics materialization,
      answer = .ok (.deficient offered satisfied deficits counters diagnostics materialization) ∧
      dispatchOutcomeValid decision .atlasLight
        (.deficient offered satisfied deficits counters diagnostics materialization) = .ok () ∧
      Route.atlasLight < decision.effectiveCeiling ∧ lightDeficitsCanEscalate deficits ∧
      next = progress.escalated clock offered satisfied deficits counters diagnostics
        materialization := by
  subst hroute
  rw [settle, bind_ok] at h
  obtain ⟨outcome, rfl, h⟩ := h
  rw [bind_ok] at h
  obtain ⟨_, hvalid, h⟩ := h
  have hreturned : ∀ {x : Except ContextRouteError ContextExecution} {hlight next},
      (.returned <$> routed x : Except (Stop E) (Next .atlasLight)) ≠
        .ok (.continued hlight next) := by
    intro x hlight next
    cases x <;> intro hx <;> cases hx
  cases outcome with
  | completed payload counters diagnostics materialization =>
    rw [conclude, bind_ok] at h
    obtain ⟨_, -, h⟩ := h
    exact absurd h hreturned
  | interrupted diagnostics reason =>
    rw [conclude, bind_ok] at h
    obtain ⟨_, -, h⟩ := h
    exact absurd h hreturned
  | deficient offered satisfied deficits counters diagnostics materialization =>
    by_cases hesc : Route.atlasLight < decision.effectiveCeiling ∧ lightDeficitsCanEscalate deficits
    · rw [conclude_escalates hesc] at h
      cases h
      have hvalid' : dispatchOutcomeValid decision .atlasLight
          (.deficient offered satisfied deficits counters diagnostics materialization) =
            .ok () := by
        cases hx : dispatchOutcomeValid decision .atlasLight
          (.deficient offered satisfied deficits counters diagnostics materialization) with
        | error e => rw [hx] at hvalid; cases hvalid
        | ok _ => rfl
      exact ⟨_, _, _, _, _, _, rfl, hvalid', hesc.1, hesc.2, rfl⟩
    · rw [conclude, dif_neg (fun hall => hesc hall.2)] at h
      rw [bind_ok] at h
      obtain ⟨_, -, h⟩ := h
      split at h
      · split at h
        · exact absurd h hreturned
        · cases h
      · exact absurd h hreturned

lemma settle_escalates {offered : Option ContextPayload} {satisfied : List RequiredCapability}
    {deficits : List RouteDeficit} {counters : ContextExecutionCounters}
    {diagnostics : List ContextDiagnosticCode} {materialization : Option ExplicitMaterialization}
    (hvalid : dispatchOutcomeValid decision .atlasLight
      (.deficient offered satisfied deficits counters diagnostics materialization) = .ok ())
    (hesc : Route.atlasLight < decision.effectiveCeiling ∧ lightDeficitsCanEscalate deficits) :
    (settle H clock decision .atlasLight progress
      (.ok (.deficient offered satisfied deficits counters diagnostics materialization)) :
        Except (Stop E) (Next .atlasLight)) =
      .ok (.continued rfl (progress.escalated clock offered satisfied deficits counters diagnostics
        materialization)) := by
  rw [settle, ← conclude_escalates (H := H) hesc]
  exact routed_bind hvalid

/-! ## The dialogue of a run -/

section Dialogue

variable {σ : Type} {dispatcher : ContextRouteDispatcher E σ} {s : σ}

open Dialogue

/-- A generation other than the one the decision starts from refuses the pass. -/
lemma generationFailure_eq_none_iff {expected observed : GenerationObservation}
    (h : ¬ expected.isUnavailable) :
    generationFailure expected observed = none ↔ observed = expected := by
  cases expected with
  | unavailable reason => exact absurd rfl h
  | observed expected =>
    cases observed with
    | unavailable reason => cases reason <;> simp [generationFailure]
    | observed observed =>
      by_cases heq : expected = observed
      · simp [generationFailure, heq]
      · simp [generationFailure, heq, Ne.symm heq]

lemma pass_eq : pass H clock decision route progress =
    (.ask .observeGeneration fun observed =>
      match generationFailure decision.startingGeneration observed with
      | some (failure, reason) => .done (refuse H clock decision route progress failure reason)
      | none => (dispatch decision route).bind fun answer =>
          .done (settle H clock decision route progress answer) :
        Session E (Except (Stop E) (Next route))) := rfl

lemma pass_refused {failure : RouteFailureReason} {reason : TerminalReason}
    (hfail : generationFailure decision.startingGeneration (dispatcher.observeGeneration s).1 =
      some (failure, reason)) :
    (pass H clock decision route progress).result dispatcher.server s =
        refuse H clock decision route progress failure reason ∧
      (pass H clock decision route progress).exchanges dispatcher.server s =
        [⟨.observeGeneration, (dispatcher.observeGeneration s).1⟩] := by
  have hfail' : generationFailure decision.startingGeneration
    (dispatcher.server .observeGeneration s).1 = some (failure, reason) := hfail
  rw [pass_eq, result_ask, exchanges_ask]
  simp only [hfail']
  exact ⟨rfl, rfl⟩

/-- The LIGHT operation of a pass that starts in the state, with the state it leaves. -/
def ContextRouteDispatcher.lightAnswer (dispatcher : ContextRouteDispatcher E σ)
    (decision : ContextRouteDecision) (s : σ) : Except E RouteAttemptOutcome × σ :=
  dispatcher.dispatchLight decision decision.request.lightOperations
    (dispatcher.observeGeneration s).2

/-- The DEEP operation of a pass that starts in the state, with the state it leaves. -/
def ContextRouteDispatcher.deepAnswer (dispatcher : ContextRouteDispatcher E σ)
    (decision : ContextRouteDecision) (budget : DeepSemanticBudget) (s : σ) :
    Except E RouteAttemptOutcome × σ :=
  dispatcher.dispatchDeep decision decision.request.deepContracts budget
    (dispatcher.observeGeneration s).2

lemma pass_light (hnone : generationFailure decision.startingGeneration
      (dispatcher.observeGeneration s).1 = none) :
    (pass H clock decision .atlasLight progress).result dispatcher.server s =
        settle H clock decision .atlasLight progress
          ((dispatcher.lightAnswer decision s).1.mapError .dispatcher) ∧
      (pass H clock decision .atlasLight progress).exchanges dispatcher.server s =
        [⟨.observeGeneration, (dispatcher.observeGeneration s).1⟩,
          ⟨.dispatchLight decision decision.request.lightOperations,
            (dispatcher.lightAnswer decision s).1⟩] ∧
      (pass H clock decision .atlasLight progress).after dispatcher.server s =
        (dispatcher.lightAnswer decision s).2 := by
  have hnone' : generationFailure decision.startingGeneration
    (dispatcher.server .observeGeneration s).1 = none := hnone
  rw [pass_eq, result_ask, exchanges_ask, after]
  simp only [hnone']
  exact ⟨rfl, rfl, rfl⟩

lemma pass_deep {budget : DeepSemanticBudget} (hbudget : decision.request.deepBudget = some budget)
    (hnone : generationFailure decision.startingGeneration
      (dispatcher.observeGeneration s).1 = none) :
    (pass H clock decision .atlasDeep progress).result dispatcher.server s =
        settle H clock decision .atlasDeep progress
          ((dispatcher.deepAnswer decision budget s).1.mapError .dispatcher) ∧
      (pass H clock decision .atlasDeep progress).exchanges dispatcher.server s =
        [⟨.observeGeneration, (dispatcher.observeGeneration s).1⟩,
          ⟨.dispatchDeep decision decision.request.deepContracts budget,
            (dispatcher.deepAnswer decision budget s).1⟩] := by
  have hnone' : generationFailure decision.startingGeneration
    (dispatcher.server .observeGeneration s).1 = none := hnone
  rw [pass_eq, result_ask, exchanges_ask, dispatch, hbudget]
  simp only [hnone']
  exact ⟨rfl, rfl⟩

/-- The envelope of a pass that does not go on. -/
def Next.execution? {route : Route} : Except (Stop E) (Next route) →
    Option (Except (Stop E) ContextExecution)
  | .error stop => some (.error stop)
  | .ok (.returned execution) => some (.ok execution)
  | .ok (.continued _ _) => none

/-- The loop ends with the first pass that does not go on. -/
lemma continueFrom_ends {ended : Except (Stop E) ContextExecution}
    (h : Next.execution? ((pass H clock decision route progress).result dispatcher.server s) =
      some ended) :
    (continueFrom H clock decision route progress).result dispatcher.server s = ended ∧
      (continueFrom H clock decision route progress).exchanges dispatcher.server s =
        (pass H clock decision route progress).exchanges dispatcher.server s := by
  rw [continueFrom, result_bind, exchanges_bind]
  revert h
  generalize (pass H clock decision route progress).result dispatcher.server s = x
  intro h
  match x with
  | .error stop =>
    obtain rfl := Option.some.inj h
    exact ⟨rfl, List.append_nil _⟩
  | .ok (.returned execution) =>
    obtain rfl := Option.some.inj h
    exact ⟨rfl, List.append_nil _⟩

lemma continued_of_execution?_eq_none {x : Except (Stop E) (Next route)}
    (h : Next.execution? x = none) : ∃ hroute next, x = .ok (.continued hroute next) := by
  match x with
  | .error stop => exact absurd h (Option.some_ne_none _)
  | .ok (.returned execution) => exact absurd h (Option.some_ne_none _)
  | .ok (.continued hroute next) => exact ⟨hroute, next, rfl⟩

lemma returned_iff_execution {x : Except (Stop E) (Next route)}
    {ended : Except (Stop E) ContextExecution} (h : Next.execution? x = some ended)
    {execution : ContextExecution} : x = .ok (.returned execution) ↔ ended = .ok execution := by
  match x with
  | .error stop =>
    obtain rfl := Option.some.inj h
    simp
  | .ok (.returned execution') =>
    obtain rfl := Option.some.inj h
    simp

/-- A pass on DEEP does not go on. -/
lemma exists_execution_deep (x : Except (Stop E) (Next .atlasDeep)) :
    ∃ ended, Next.execution? x = some ended :=
  match x with
  | .error stop => ⟨.error stop, rfl⟩
  | .ok (.returned execution) => ⟨.ok execution, rfl⟩

/-- The loop goes on to DEEP where the first pass left it. -/
lemma continueFrom_continues {hroute : route = .atlasLight} {next : Progress}
    {ended : Except (Stop E) ContextExecution}
    (h : (pass H clock decision route progress).result dispatcher.server s =
      .ok (.continued hroute next))
    (hdeep : Next.execution? ((pass H clock decision .atlasDeep next).result dispatcher.server
      ((pass H clock decision route progress).after dispatcher.server s)) = some ended) :
    (continueFrom H clock decision route progress).result dispatcher.server s = ended ∧
      (continueFrom H clock decision route progress).exchanges dispatcher.server s =
        (pass H clock decision route progress).exchanges dispatcher.server s ++
          (pass H clock decision .atlasDeep next).exchanges dispatcher.server
            ((pass H clock decision route progress).after dispatcher.server s) := by
  rw [continueFrom, result_bind, exchanges_bind, h]
  simp only
  rw [result_bind, exchanges_bind]
  revert hdeep
  generalize (pass H clock decision .atlasDeep next).result dispatcher.server _ = x
  intro hdeep
  match x with
  | .error stop =>
    obtain rfl := Option.some.inj hdeep
    exact ⟨rfl, congrArg _ (List.append_nil _)⟩
  | .ok (.returned execution) =>
    obtain rfl := Option.some.inj hdeep
    exact ⟨rfl, congrArg _ (List.append_nil _)⟩

end Dialogue

/-! ## Where a run starts -/

/-- The caller has every capability it asks for. -/
def CallerSufficient (decision : ContextRouteDecision) : Prop :=
  ∀ state ∈ decision.requestedCapabilities.values, state = .satisfied

/-- Nothing is to be asked of the dispatcher: the generation is not there, the caller has all it
needs, or the ceiling leaves nothing but DIRECT. -/
def NeedsNoDispatch (decision : ContextRouteDecision) : Prop :=
  decision.startingGeneration.isUnavailable ∨
    (decision.initialRoute = .direct ∧ CallerSufficient decision) ∨
    decision.effectiveCeiling = .direct

/-- The progress with which the first pass on LIGHT starts. -/
structure AtLight (decision : ContextRouteDecision) (progress : Progress) : Prop where
  underway : Underway decision .atlasLight progress
  led : Led decision .atlasLight progress
  short : progress.attempts.length ≤ 1
  free : counterTotal progress.attempts = 0
  quiet : progress.diagnostics = []
  noPayload : progress.priorPayload = none
  caller : progress.priorSatisfied = (callerSatisfaction decision).1
  noMaterialization : progress.priorMaterialization = none

lemma underway_start (hd : decision.validate H = .ok ()) (hinit : decision.initialRoute ≠ .direct)
    (hobserved : ¬ decision.startingGeneration.isUnavailable) :
    Underway decision decision.initialRoute
      ⟨[], [], none, (callerSatisfaction decision).1, none⟩ where
  accepted := .nil
  short := Nat.zero_le _
  leftOpen := by simp
  starts := fun _ => rfl
  floor := (initialRoute_eq hd).ge
  ceiling := (initialRoute_eq hd).le.trans (effectiveFloor_le hd)
  notDirect := hinit
  observed := hobserved
  needed := fun h => hinit h.2
  counters := ContextExecutionCounters.validate_zero
  diagnostics := Nat.zero_le _
  priorAccounted := accounted_callerSatisfaction.of_capabilitiesOf_eq_nil rfl
  priorUseful := by simp
  priorPayload := by simp
  priorMaterialization := rfl

/-- A DIRECT attempt on its own, in any state but an interrupted one. -/
lemma accepted_direct (hd : decision.validate H = .ok ()) (hinit : decision.initialRoute = .direct)
    {state : AttemptState} {deficits : List RouteDeficit}
    (hvalid : (routeAttempt clock 1 .direct state deficits 0).validate = .ok ()) :
    AttemptsAccepted decision [routeAttempt clock 1 .direct state deficits 0] := by
  have hfloor := initialRoute_eq hd
  refine AttemptsAccepted.nil.snoc (Nat.zero_lt_succ _) hvalid (by simp) (fun _ => hinit.symm)
    ?_ ?_ (fun _ => rfl) (fun hne => absurd rfl hne) (fun hne => absurd rfl hne)
  · exact (hfloor.symm.trans hinit).le
  · exact (hinit.symm.trans hfloor).le.trans (effectiveFloor_le hd)

lemma atLight_direct (hd : decision.validate H = .ok ()) (hinit : decision.initialRoute = .direct)
    (hobserved : ¬ decision.startingGeneration.isUnavailable)
    (hne : (callerSatisfaction decision).2 ≠ [])
    (hceiling : decision.effectiveCeiling ≠ .direct) :
    AtLight decision ⟨[routeAttempt clock 1 .direct .partial_ (callerSatisfaction decision).2 0],
      [], none, (callerSatisfaction decision).1, none⟩ where
  underway := by
    have hvalid : (routeAttempt clock 1 .direct .partial_ (callerSatisfaction decision).2
        0).validate = .ok () := (routeAttempt_validate (by omega)).mpr
      ⟨ContextExecutionCounters.validate_zero, by
        simpa [ExecutionAttempt.deficitShapeValid, routeAttempt] using hne, isChain_deficits⟩
    have hle : Route.atlasLight ≤ decision.effectiveCeiling := by
      revert hceiling
      cases decision.effectiveCeiling <;> decide
    have hfloor := (initialRoute_eq hd).symm.trans hinit
    exact
      { accepted := accepted_direct hd hinit hvalid
        short := by simp
        leftOpen := by simp [routeAttempt]
        starts := by simp
        floor := by rw [hfloor]; decide
        ceiling := hle
        notDirect := by decide
        observed := hobserved
        needed := fun h => hne h.1
        counters := ContextExecutionCounters.validate_zero
        diagnostics := Nat.zero_le _
        priorAccounted := accounted_callerSatisfaction.of_capabilitiesOf_eq_nil rfl
        priorUseful := by simp
        priorPayload := by simp
        priorMaterialization := rfl }
  led := by
    intro previous hprev
    obtain rfl : _ = previous := Option.some.inj hprev
    exact leadsTo_light hne
  short := le_rfl
  free := rfl
  quiet := rfl
  noPayload := rfl
  caller := rfl
  noMaterialization := rfl

lemma checked_of_validate {execution : ContextExecution} (h : execution.validate H = .ok ()) :
    (routed (execution.checked H) : Except (Stop E) ContextExecution) = .ok execution := by
  rw [ContextExecution.checked, h]
  rfl

/-- A generation that is not there blocks the execution before any attempt. -/
lemma validate_unavailable (hd : decision.validate H = .ok ()) :
    (ContextExecution.blocked contextExecutionVersion decision [] none none
      (callerSatisfaction decision).1 [.route .startingGenerationUnavailable] 0 [] none
      .generationUnavailable).validate H = .ok () := by
  rw [validate_iff_validateState rfl hd (Nat.zero_le _) ContextExecutionCounters.validate_zero
    AttemptsAccepted.nil rfl]
  simp only [ContextExecution.validateState, check_bind_eq_ok, ensure_eq_ok,
    validateSatisfiedCapabilities_eq_ok]
  refine ⟨by simp, ⟨accounted_callerSatisfaction.of_capabilitiesOf_eq_nil rfl, by simp, ?_⟩,
    trivial, ?_, rfl⟩
  · simp [RouteDeficit.isRoute]
  · simp [validateTerminalReason]

/-- A caller that has all it needs is served without the dispatcher. -/
lemma validate_direct (hd : decision.validate H = .ok ()) (hinit : decision.initialRoute = .direct)
    (hnil : (callerSatisfaction decision).2 = []) :
    (ContextExecution.completed contextExecutionVersion decision
      [routeAttempt clock 1 .direct .completed [] 0] .direct .directNone 0 [] none).validate H =
        .ok () := by
  have hvalid : (routeAttempt clock 1 .direct .completed [] 0).validate = .ok () :=
    (routeAttempt_validate (by omega)).mpr ⟨ContextExecutionCounters.validate_zero, rfl, .nil⟩
  rw [validate_iff_validateState rfl hd (Nat.zero_le _) ContextExecutionCounters.validate_zero
    (accepted_direct hd hinit hvalid) rfl]
  simp only [ContextExecution.validateState, check_bind_eq_ok, ensure_eq_ok]
  refine ⟨rfl, ⟨rfl, rfl, rfl, ?_⟩, rfl⟩
  rintro ⟨⟨c, state⟩, hmem, hstate, -⟩
  exact hstate (deficits_eq_nil_iff.mp hnil state (List.mem_map.mpr ⟨_, hmem, rfl⟩))

/-- A ceiling of DIRECT blocks a caller that lacks something. -/
lemma validate_ceiling (hd : decision.validate H = .ok ()) (hinit : decision.initialRoute = .direct)
    (hne : (callerSatisfaction decision).2 ≠ []) (hceiling : decision.effectiveCeiling = .direct) :
    (ContextExecution.blocked contextExecutionVersion decision
      [routeAttempt clock 1 .direct .blocked (callerSatisfaction decision).2 0] (some .direct) none
      (callerSatisfaction decision).1 (callerSatisfaction decision).2 0 [] none
      .routeCeilingReached).validate H = .ok () := by
  have hvalid : (routeAttempt clock 1 .direct .blocked (callerSatisfaction decision).2
      0).validate = .ok () := (routeAttempt_validate (by omega)).mpr
    ⟨ContextExecutionCounters.validate_zero, by
      simpa [ExecutionAttempt.deficitShapeValid, routeAttempt] using hne, isChain_deficits⟩
  have hsum : checkedCounterSum
      [routeAttempt clock 1 .direct .blocked (callerSatisfaction decision).2 0] = .ok 0 := rfl
  rw [validate_iff_validateState rfl hd (Nat.zero_le _) ContextExecutionCounters.validate_zero
    (accepted_direct hd hinit hvalid) hsum, ← List.nil_append [_]]
  refine (validateState_blocked hne accounted_callerSatisfaction
    fun _ => length_callerSatisfaction).mpr ?_
  simp [validateTerminalReason, hceiling]

/-- A run ends at once, without a call, or enters the loop on LIGHT or on DEEP. -/
theorem execute_cases (hd : decision.validate H = .ok ()) :
    (NeedsNoDispatch decision ∧ ∃ execution,
      executeContextRoute H clock decision =
        (.done (.ok execution) : Session E (Except (Stop E) ContextExecution))) ∨
    (¬ NeedsNoDispatch decision ∧ decision.initialRoute ≠ .atlasDeep ∧ ∃ progress,
      AtLight decision progress ∧ executeContextRoute H clock decision =
        (continueFrom H clock decision .atlasLight progress :
          Session E (Except (Stop E) ContextExecution))) ∨
    (¬ NeedsNoDispatch decision ∧ decision.initialRoute = .atlasDeep ∧ ∃ progress,
      Underway decision .atlasDeep progress ∧ progress.attempts = [] ∧ progress.diagnostics = [] ∧
      executeContextRoute H clock decision =
        (continueFrom H clock decision .atlasDeep progress :
          Session E (Except (Stop E) ContextExecution))) := by
  have hrun : (executeContextRoute H clock decision :
      Session E (Except (Stop E) ContextExecution)) = executeValidated H clock decision := by
    rw [executeContextRoute, hd]
  rw [executeValidated] at hrun
  by_cases hsufficient : decision.initialRoute = .direct ∧ (callerSatisfaction decision).2 = []
  · rw [if_neg (fun h => h.2 hsufficient), if_pos hsufficient.1, if_pos hsufficient.2] at hrun
    exact .inl ⟨.inr (.inl ⟨hsufficient.1, deficits_eq_nil_iff.mp hsufficient.2⟩), _,
      hrun.trans (congrArg Dialogue.done
        (checked_of_validate (validate_direct hd hsufficient.1 hsufficient.2)))⟩
  by_cases hun : decision.startingGeneration.isUnavailable
  · rw [if_pos ⟨hun, hsufficient⟩] at hrun
    exact .inl ⟨.inl hun, _, hrun.trans (congrArg Dialogue.done
      (checked_of_validate (validate_unavailable hd)))⟩
  have hneeds : decision.effectiveCeiling ≠ .direct → ¬ NeedsNoDispatch decision := by
    rintro hceiling (h | ⟨hinit, hsuff⟩ | h)
    · exact hun h
    · exact hsufficient ⟨hinit, deficits_eq_nil_iff.mpr hsuff⟩
    · exact hceiling h
  rw [if_neg (fun h => hun h.1)] at hrun
  by_cases hdirect : decision.initialRoute = .direct
  · have hne : (callerSatisfaction decision).2 ≠ [] := fun h => hsufficient ⟨hdirect, h⟩
    rw [if_pos hdirect, if_neg hne] at hrun
    by_cases hceiling : decision.effectiveCeiling = .direct
    · rw [if_pos hceiling] at hrun
      exact .inl ⟨.inr (.inr hceiling), _, hrun.trans (congrArg Dialogue.done
        (checked_of_validate (validate_ceiling hd hdirect hne hceiling)))⟩
    · rw [if_neg hceiling] at hrun
      exact .inr (.inl ⟨hneeds hceiling, by simp [hdirect], _,
        atLight_direct hd hdirect hun hne hceiling, hrun⟩)
  · have hstart := underway_start hd hdirect hun
    have hceiling : decision.effectiveCeiling ≠ .direct := by
      intro h
      have hle := hstart.ceiling
      rw [h] at hle
      revert hdirect hle
      cases decision.initialRoute <;> decide
    rw [if_neg hdirect] at hrun
    cases hinit : decision.initialRoute with
    | direct => exact absurd hinit hdirect
    | atlasLight =>
      rw [hinit] at hrun hstart
      exact .inr (.inl ⟨hneeds hceiling, by simp, _, ⟨hstart, by simp [Led], Nat.zero_le _, rfl,
        rfl, rfl, rfl, rfl⟩, hrun⟩)
    | atlasDeep =>
      rw [hinit] at hrun hstart
      exact .inr (.inr ⟨hneeds hceiling, rfl, _, hstart, rfl, rfl, hrun⟩)

end WorkspaceAtlas.ContextRoute
