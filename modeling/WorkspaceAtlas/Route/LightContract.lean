/-
# LIGHT and the contract of the executor

The executor takes the outcome of LIGHT only if it passes a check of its own, and ends the run
with an error if it does not.  What `dispatch_real_light` answers passes the check unless there is
nothing to hand back or too much was looked at; and a valid outcome still ends the run with an
error if all it leaves open is an ambiguity of the targets that DEEP was not asked to resolve.
-/
import WorkspaceAtlas.Route.Governed
import WorkspaceAtlas.Route.LightOutcome

namespace WorkspaceAtlas.ContextRoute

open Relational Transition Dialogue

variable {decision : ContextRouteDecision} {clock : ℕ → ℕ}

/-! ## Runs that enter LIGHT -/

section Run

variable {E σ : Type} {H : Hasher} {dispatcher : ContextRouteDispatcher E σ} {s : σ}
  {progress : Progress}

/-- The run ends in an envelope or dispatches DEEP. -/
def EndsOrDeepens (dispatcher : ContextRouteDispatcher E σ) (s : σ)
    (run : Session E (Except (Stop E) ContextExecution)) : Prop :=
  (∃ execution, run.result dispatcher.server s = .ok execution) ∨
    ∃ call ∈ run.exchanges dispatcher.server s, dispatched? call = some .atlasDeep

/-- A pass on DEEP ends the run in an envelope or dispatches DEEP, where the caller lacks all that
is left open. -/
lemma deep_pass (hd : decision.validate H = .ok ()) (hp : Underway decision .atlasDeep progress)
    (hled : Led decision .atlasDeep progress) {ended : Except (Stop E) ContextExecution}
    (hended : Next.execution? ((pass H clock decision .atlasDeep progress).result
      dispatcher.server s) = some ended) :
    (∃ execution, ended = .ok execution) ∨
      ∃ call ∈ (pass H clock decision .atlasDeep progress).exchanges dispatcher.server s,
        dispatched? call = some .atlasDeep := by
  cases hfail : generationFailure decision.startingGeneration
      (dispatcher.observeGeneration s).1 with
  | some failure =>
    obtain ⟨failure, reason⟩ := failure
    obtain ⟨hresult, -⟩ :
        (pass H clock decision .atlasDeep progress).result dispatcher.server s = _ ∧ _ :=
      pass_refused hfail
    obtain ⟨execution, hrefuse, -⟩ := (refuse_iff hp hd hfail).mpr hled
    rw [hresult, hrefuse] at hended
    exact .inl ⟨execution, (Option.some.inj hended).symm⟩
  | none =>
    obtain ⟨budget, hbudget⟩ := exists_deepBudget hd
      (le_antisymm (by cases decision.effectiveCeiling <;> decide) hp.ceiling)
    obtain ⟨-, hcalls⟩ :
        (pass H clock decision .atlasDeep progress).result dispatcher.server s = _ ∧ _ :=
      pass_deep hbudget hfail
    rw [hcalls]
    exact .inr ⟨_, List.mem_cons_of_mem _ List.mem_cons_self, rfl⟩

/-- The LIGHT pass with an outcome that the executor accepts. -/
lemma pass_of_accepted {outcome : RouteAttemptOutcome}
    (hvalid : dispatchOutcomeValid decision .atlasLight outcome = .ok ())
    (hsame : generationFailure decision.startingGeneration
      (dispatcher.observeGeneration s).1 = none)
    (hanswer : (dispatcher.lightAnswer decision s).1 = .ok outcome) :
    (pass H clock decision .atlasLight progress).result dispatcher.server s =
        conclude H clock decision .atlasLight progress outcome ∧
      ∀ call ∈ (pass H clock decision .atlasLight progress).exchanges dispatcher.server s,
        dispatched? call ≠ some .atlasDeep := by
  obtain ⟨hresult, hcalls, -⟩ :
      (pass H clock decision .atlasLight progress).result dispatcher.server s = _ ∧ _ ∧ _ :=
    pass_light hsame
  rw [hresult, hcalls, hanswer]
  exact ⟨routed_bind hvalid, by simp [dispatched?]⟩

/-- A completed LIGHT outcome ends the run. -/
lemma ends_of_completed {payload : ContextPayload} {counters : ContextExecutionCounters}
    {diagnostics : List ContextDiagnosticCode} {materialization : Option ExplicitMaterialization}
    (hd : decision.validate H = .ok ()) (hp : AtLight decision progress)
    (hvalid : dispatchOutcomeValid decision .atlasLight
      (.completed payload counters diagnostics materialization) = .ok ())
    (hreach : ∀ c, callerUnsatisfied decision c → c.minimumRoute ≤ .atlasLight)
    (hsame : generationFailure decision.startingGeneration
      (dispatcher.observeGeneration s).1 = none)
    (hanswer : (dispatcher.lightAnswer decision s).1 =
      .ok (.completed payload counters diagnostics materialization)) :
    EndsOrDeepens dispatcher s (continueFrom H clock decision .atlasLight progress) := by
  obtain ⟨hresult, -⟩ :
      (pass H clock decision .atlasLight progress).result dispatcher.server s = _ ∧ _ :=
    pass_of_accepted hvalid hsame hanswer
  have hchecked := hvalid
  simp only [dispatchOutcomeValid, check_bind_eq_ok, ensure_eq_ok] at hchecked
  obtain ⟨⟨hdiagnostics, hcounters, -, -⟩, -⟩ := hchecked
  obtain ⟨execution, hconclude⟩ : ∃ execution, conclude H clock decision .atlasLight progress
      (.completed payload counters diagnostics materialization) = .ok (.returned execution) :=
    conclude_completed hp.underway hp.led hd hvalid hreach (by simpa [hp.free] using hcounters)
      (by simpa [hp.quiet] using hdiagnostics)
  exact .inl ⟨execution, (continueFrom_ends (by rw [hresult, hconclude]; rfl)).1⟩

/-- A deficient LIGHT outcome that leaves open only what the caller lacks ends the run or leads to
DEEP if and only if there is a reason to go on or a reason to stop. -/
lemma endsOrDeepens_of_deficient {offered : Option ContextPayload}
    {satisfied : List RequiredCapability} {deficits : List RouteDeficit}
    {counters : ContextExecutionCounters} {diagnostics : List ContextDiagnosticCode}
    {materialization : Option ExplicitMaterialization}
    (hd : decision.validate H = .ok ()) (hp : AtLight decision progress)
    (hvalid : dispatchOutcomeValid decision .atlasLight
      (.deficient offered satisfied deficits counters diagnostics materialization) = .ok ())
    (hlacks : ∀ c ∈ capabilitiesOf deficits, callerUnsatisfied decision c)
    (hsame : generationFailure decision.startingGeneration
      (dispatcher.observeGeneration s).1 = none)
    (hanswer : (dispatcher.lightAnswer decision s).1 =
      .ok (.deficient offered satisfied deficits counters diagnostics materialization)) :
    EndsOrDeepens dispatcher s (continueFrom H clock decision .atlasLight progress) ↔
      (Route.atlasLight < decision.effectiveCeiling ∧ lightDeficitsCanEscalate deficits) ∨
        Route.atlasLight = decision.effectiveCeiling ∨
          ∃ deficit ∈ deficits, deficit.isUnavailable := by
  obtain ⟨hresult, hcalls⟩ :
      (pass H clock decision .atlasLight progress).result dispatcher.server s = _ ∧ _ :=
    pass_of_accepted hvalid hsame hanswer
  have hpassed := dispatchOutcomeValid_deficient.mp hvalid
  have htotal : (counterTotal progress.attempts + counters).validate = .ok () := by
    simpa [hp.free] using hpassed.1.2.1
  have hdiagnostics : (progress.diagnostics ++ diagnostics).length ≤ maxExecutionDiagnostics := by
    simpa [hp.quiet] using hpassed.1.1
  by_cases hescalate : Route.atlasLight < decision.effectiveCeiling ∧
      lightDeficitsCanEscalate deficits
  · refine iff_of_true ?_ (.inl hescalate)
    rw [conclude_escalates hescalate] at hresult
    have hnext : Underway decision .atlasDeep (progress.escalated clock offered satisfied deficits
        counters diagnostics materialization) :=
      underway_escalated hp.underway hp.led hp.short hp.noPayload hp.caller hp.noMaterialization
        hvalid hescalate.1 htotal hdiagnostics
    have hled : Led decision .atlasDeep (progress.escalated clock offered satisfied deficits
        counters diagnostics materialization) := (led_escalated_iff hescalate.2).mpr hlacks
    obtain ⟨ended, hended⟩ := exists_execution_deep _
    obtain ⟨hends, hexchanges⟩ := continueFrom_continues hresult hended
    rw [EndsOrDeepens, hends, hexchanges]
    rcases deep_pass hd hnext hled hended with hexecution | ⟨call, hcall, hdeep⟩
    · exact .inl hexecution
    · exact .inr ⟨call, List.mem_append_right _ hcall, hdeep⟩
  · -- the run ends on LIGHT, in an envelope if there is a reason to stop
    have hstop : ¬ (Route.atlasLight = .atlasLight ∧ Route.atlasLight < decision.effectiveCeiling ∧
        lightDeficitsCanEscalate deficits) := fun h => hescalate h.2
    have hreturns : (∃ execution, (pass H clock decision .atlasLight progress).result
        dispatcher.server s = .ok (.returned execution)) ↔
          Route.atlasLight = decision.effectiveCeiling ∨
            ∃ deficit ∈ deficits, deficit.isUnavailable := by
      rw [hresult]
      exact conclude_deficient_iff hp.underway hp.led hd hvalid hstop htotal hdiagnostics
    rw [or_iff_right hescalate, ← hreturns]
    cases hend : Next.execution?
        ((pass H clock decision .atlasLight progress).result dispatcher.server s) with
    | none =>
      obtain ⟨_, next, hcontinued⟩ := continued_of_execution?_eq_none hend
      obtain ⟨hsettled, -⟩ :
          (pass H clock decision .atlasLight progress).result dispatcher.server s = _ ∧ _ :=
        pass_light hsame
      rw [hsettled] at hcontinued
      obtain ⟨_, _, _, _, _, _, heq, -, hlt, hesc, -⟩ := escalates_of_continued hcontinued
      rw [mapError_eq_ok, hanswer] at heq
      cases heq
      exact absurd ⟨hlt, hesc⟩ hescalate
    | some ended =>
      obtain ⟨hends, hexchanges⟩ := continueFrom_ends hend
      rw [EndsOrDeepens, hends, hexchanges]
      simp only [returned_iff_execution hend]
      refine or_iff_left ?_
      rintro ⟨call, hcall, hdeep⟩
      exact hcalls call hcall hdeep

/-- The run dispatches LIGHT. -/
def DispatchesLight (dispatcher : ContextRouteDispatcher E σ) (s : σ)
    (run : Session E (Except (Stop E) ContextExecution)) : Prop :=
  ∃ call ∈ run.exchanges dispatcher.server s, dispatched? call = some .atlasLight

/-- A run that dispatches LIGHT enters the loop on LIGHT, with the generation that the decision
starts from. -/
lemma atLight_of_dispatchesLight (hd : decision.validate H = .ok ())
    (h : DispatchesLight dispatcher s (executeContextRoute H clock decision)) :
    ∃ progress, AtLight decision progress ∧
      executeContextRoute H clock decision =
        (continueFrom H clock decision .atlasLight progress :
          Session E (Except (Stop E) ContextExecution)) ∧
      generationFailure decision.startingGeneration (dispatcher.observeGeneration s).1 = none := by
  obtain ⟨call, hcall, hlight⟩ := h
  rcases execute_cases (E := E) hd with
    ⟨-, execution, hrun⟩ | ⟨-, -, progress, hp, hrun⟩ | ⟨-, -, progress, hp, -, -, hrun⟩
  · rw [hrun] at hcall
    cases hcall
  · refine ⟨progress, hp, hrun, ?_⟩
    rw [hrun] at hcall
    by_contra hfail
    obtain ⟨⟨failure, reason⟩, hfail⟩ := Option.ne_none_iff_exists'.mp hfail
    obtain ⟨hresult, hcalls⟩ :
        (pass H clock decision .atlasLight progress).result dispatcher.server s = _ ∧ _ :=
      pass_refused hfail
    obtain ⟨execution, hrefuse, -⟩ : ∃ execution, refuse H clock decision .atlasLight progress
        failure reason = .ok (.returned execution) ∧ _ :=
      (refuse_iff hp.underway hd hfail).mpr hp.led
    obtain ⟨-, hexchanges⟩ := continueFrom_ends
      (show Next.execution? ((pass H clock decision .atlasLight progress).result
        dispatcher.server s) = some (.ok execution) by rw [hresult, hrefuse]; rfl)
    rw [hexchanges, hcalls, List.mem_singleton] at hcall
    rw [hcall] at hlight
    cases hlight
  · -- a run that starts on DEEP observes and dispatches DEEP
    rw [hrun] at hcall
    obtain ⟨ended, hended⟩ := exists_execution_deep
      ((pass H clock decision .atlasDeep progress).result dispatcher.server s)
    obtain ⟨-, hexchanges⟩ := continueFrom_ends hended
    rw [hexchanges] at hcall
    cases hfail : generationFailure decision.startingGeneration
        (dispatcher.observeGeneration s).1 with
    | some failure =>
      obtain ⟨-, hcalls⟩ :
          (pass H clock decision .atlasDeep progress).result dispatcher.server s = _ ∧ _ :=
        pass_refused hfail
      rw [hcalls, List.mem_singleton] at hcall
      rw [hcall] at hlight
      cases hlight
    | none =>
      obtain ⟨budget, hbudget⟩ := exists_deepBudget hd
        (le_antisymm (by cases decision.effectiveCeiling <;> decide) hp.ceiling)
      obtain ⟨-, hcalls⟩ :
          (pass H clock decision .atlasDeep progress).result dispatcher.server s = _ ∧ _ :=
        pass_deep hbudget hfail
      rw [hcalls, List.mem_pair] at hcall
      rcases hcall with rfl | rfl <;> cases hlight

/-- With the generation that the decision starts from, a run that enters LIGHT dispatches it. -/
lemma dispatchesLight (hd : decision.validate H = .ok ()) (hneeds : ¬ NeedsNoDispatch decision)
    (hinit : decision.initialRoute ≠ .atlasDeep)
    (hsame : (dispatcher.observeGeneration s).1 = decision.startingGeneration) :
    DispatchesLight dispatcher s (executeContextRoute H clock decision) := by
  rcases execute_cases (E := E) hd with
    ⟨h, -⟩ | ⟨-, -, progress, hp, hrun⟩ | ⟨-, h, -⟩
  · exact absurd h hneeds
  · obtain ⟨-, hcalls, -⟩ :
        (pass H clock decision .atlasLight progress).result dispatcher.server s = _ ∧ _ ∧ _ :=
      pass_light ((generationFailure_eq_none_iff hp.underway.observed).mpr hsame)
    have hmem : ⟨.dispatchLight decision decision.request.lightOperations,
        (dispatcher.lightAnswer decision s).1⟩ ∈
        (pass H clock decision .atlasLight progress).exchanges dispatcher.server s := by
      rw [hcalls]
      exact List.mem_cons_of_mem _ List.mem_cons_self
    refine ⟨⟨.dispatchLight decision decision.request.lightOperations,
      (dispatcher.lightAnswer decision s).1⟩, ?_, rfl⟩
    rw [hrun, continueFrom, exchanges_bind]
    exact List.mem_append_left _ hmem
  · exact absurd h hinit

end Run

namespace LightContext

variable {x : LightContext} {gid : String}
  {observations : List CatalogueLightSourceReference} {results : CatalogueLightResults}

/-! ## When LIGHT can answer -/

/-- The number of records of an attempt. -/
def recordsFound (x : LightContext) (decision : ContextRouteDecision) (gid : String) : ℕ :=
  ((x.queried decision).map (shownRows x.store gid x.workspaceId (included decision))).sum +
    if x.sourceInvoked decision then x.targets.seedPaths.length else 0

/-- All that LIGHT leaves open is which of several identities the targets mean: DEEP is permitted
and would be no better off, but nothing was out of reach either. -/
structure LeftAmbiguous (x : LightContext) (decision : ContextRouteDecision) (gid : String) :
    Prop where
  ceiling : decision.effectiveCeiling = .atlasDeep
  light : ∀ c, needsAtlas decision c → c.minimumRoute = .atlasLight
  sources : needsAtlas decision .exactSource → x.SourcesVerified gid
  within : x.targets.all.length ≤ maxQueryTargets
  ambiguous : x.Ambiguous decision gid
  rows : ∃ c, ServedByRows c ∧ needsAtlas decision c ∧ ∀ t ∈ x.queried decision,
    ¬ Crowded x.store gid x.workspaceId (included decision) c t

/-- The attempts that LIGHT can answer. -/
structure Answerable (x : LightContext) (decision : ContextRouteDecision) (gid : String) :
    Prop where
  asked : x.targets.all ≠ [] ∨ ∃ state ∈ decision.requestedCapabilities.values, state ≠ .satisfied
  recorded : x.recordsFound decision gid ≤ maxContextExecutionRecords
  settled : ¬ x.LeftAmbiguous decision gid

/-! ## The outcome passes the check -/

lemma queryRequested_of_needs {c : RequiredCapability} (h : needsAtlas decision c = true)
    (hc : c = .identityLookup ∨ ServedByRows c) : queryRequested decision = true := by
  rcases hc with rfl | rfl | rfl | rfl <;> simp [queryRequested, included, h]

lemma operationResults_eq_nil {projections : List LightQueryProjection}
    {operations : List VersionedOperation} :
    x.operationResults decision operations projections observations = [] ↔
      x.queryInvoked decision = false ∧ x.sourceInvoked decision = false := by
  rw [operationResults, List.append_eq_nil_iff]
  cases x.queryInvoked decision <;> cases x.sourceInvoked decision <;> simp

/-- What was not looked at is left open. -/
lemma outcome_ne_none {c : RequiredCapability} {state : CallerCapabilityState}
    (hmem : (c, state) ∈ decision.requestedCapabilities.entries) (hstate : state ≠ .satisfied)
    (hquery : x.queryInvoked decision = false) (hsource : x.sourceInvoked decision = false) :
    x.capabilityOutcome decision (x.found decision gid) observations c state ≠ none := by
  have hneeds : needsAtlas decision c = true := callerUnsatisfied_iff.mpr ⟨state, hmem, hstate⟩
  have hfound : x.found decision gid = [] := by simp [found, queried, hquery]
  have hrows : ∀ omitted rowsOmitted conflicting evident,
      rowsOutcome [] omitted rowsOmitted conflicting evident ≠ none := by
    intro omitted rowsOmitted conflicting evident
    cases omitted <;> simp [rowsOutcome, identityDeficit]
  rw [capabilityOutcome, if_neg hstate, hfound]
  cases c with
  | identityLookup => cases x.semanticOmitted decision [] <;> simp [identityDeficit]
  | boundedRelationships => exact hrows _ _ _ _
  | impactFrontier => exact hrows _ _ _ _
  | basicCoverageConflicts => exact hrows _ _ _ _
  | exactSource =>
    simp only [sourceInvoked, hneeds, true_and, decide_eq_false_iff_not, not_not] at hsource
    simp only [sourceOutcome, hsource]
    split_ifs <;> simp_all
  | temporalHistory => simp
  | requiredRoleClosure => simp
  | validationPlan => simp

/-- There is nothing to hand back and nothing left open if and only if there is no target and the
caller has everything. -/
lemma nothing_iff : (x.operationResults decision expectedLightOperations (x.found decision gid)
      observations = [] ∧ x.deficitsOf decision (x.found decision gid) observations = []) ↔
    x.targets.all = [] ∧ ∀ state ∈ decision.requestedCapabilities.values, state = .satisfied := by
  rw [operationResults_eq_nil]
  constructor
  · rintro ⟨⟨hquery, hsource⟩, hnil⟩
    have hall : ∀ state ∈ decision.requestedCapabilities.values, state = .satisfied := by
      intro state hmem
      obtain ⟨⟨c, state⟩, hentry, rfl⟩ := List.mem_map.mp hmem
      by_contra hstate
      obtain ⟨reason, hreason⟩ : ∃ reason, x.capabilityOutcome decision (x.found decision gid)
          observations c state = some reason :=
        Option.ne_none_iff_exists'.mp (outcome_ne_none hentry hstate hquery hsource)
      have hdeficit := mem_deficitsOf.mpr ⟨c, state, reason, hentry, hreason, rfl⟩
      simp [hnil] at hdeficit
    refine ⟨?_, hall⟩
    simp only [queryInvoked, decide_eq_false_iff_not, not_and] at hquery
    exact List.length_eq_zero_iff.mp (Nat.eq_zero_of_not_pos (hquery (.inr hall)))
  · rintro ⟨hnil, hall⟩
    have hpaths : x.targets.seedPaths = [] := by
      have := congrArg List.length hnil
      rw [CatalogueTargets.length_all, List.length_nil] at this
      exact List.length_eq_zero_iff.mp (by omega)
    refine ⟨⟨by simp [queryInvoked, hnil], by simp [sourceInvoked, hpaths]⟩, ?_⟩
    rw [List.eq_nil_iff_forall_not_mem]
    intro deficit hmem
    obtain ⟨c, state, reason, hentry, hreason, rfl⟩ := mem_deficitsOf.mp hmem
    exact (needs_of_outcome hentry hreason).2 (hall state (List.mem_map.mpr ⟨_, hentry, rfl⟩))

/-- The counters stay within their bounds if and only if the records do. -/
lemma countersOf_validate_iff (hobs : x.Observed decision gid observations) :
    (x.countersOf decision (x.found decision gid) observations).validate = .ok () ↔
      x.recordsFound decision gid ≤ maxContextExecutionRecords := by
  have hbounded : x.targets.seedPaths.length + x.targets.seedSymbols.length ≤ 100000 :=
    x.targets.bounded
  have hwork : (x.found decision gid).length ≤ 10000 := by
    rw [found, List.length_map, length_queried]
    split
    · exact min_le_left _ _
    · exact Nat.zero_le _
  have hsources : observations.length ≤ 100000 := by
    rw [hobs.length]
    split <;> omega
  have hcalls : ∀ b : Bool, b.toNat ≤ 1 := by decide
  have hquery := hcalls (x.queryInvoked decision)
  have hsource := hcalls (x.sourceInvoked decision)
  rw [ContextExecutionCounters.validate_eq_ok, countersOf, queryRecordCount_found, recordsFound,
    ← hobs.length, maxContextExecutionRecords]
  simp only
  omega

/-- The bundle of the results is a payload of LIGHT. -/
lemma bundle_validate {projections : List LightQueryProjection}
    (hH : ∀ bytes, (x.hasher.sha256 bytes).length = 32)
    (hne : x.operationResults decision expectedLightOperations projections observations ≠ []) :
    (ContextPayload.lightBundle (x.operationResults decision expectedLightOperations projections
      observations)).validate = .ok () := by
  have hdigest : ∀ bytes, validDigest (contentHashOfBytes x.hasher bytes) := fun bytes =>
    validDigest_toHex (hH bytes)
  have hquery : pinnedVersion expectedLightOperations .query = queryOperationVersion := rfl
  have hsource : pinnedVersion expectedLightOperations .sourceReference =
    sourceReferenceOperationVersion := rfl
  rw [ContextPayload.validate, ensure_eq_ok]
  refine ⟨hne, ?_⟩
  rw [operationResults, hquery, hsource]
  cases x.queryInvoked decision <;> cases x.sourceInvoked decision <;>
    simp [LightOperationResult.validate, hdigest, LightOperationResult.operation]
  decide

/-- **The check of the outcome.**  LIGHT has an outcome that is accepted if and only if there is
something to ask for and not too much was looked at. -/
lemma outcomeOf_accepted_iff (hH : ∀ bytes, (x.hasher.sha256 bytes).length = 32)
    (hobs : x.Observed decision gid observations) :
    (∃ outcome, x.outcomeOf decision expectedLightOperations (x.found decision gid)
        observations = .ok outcome ∧ dispatchOutcomeValid decision .atlasLight outcome = .ok ()) ↔
      (x.targets.all ≠ [] ∨
        ∃ state ∈ decision.requestedCapabilities.values, state ≠ .satisfied) ∧
      x.recordsFound decision gid ≤ maxContextExecutionRecords := by
  have hasked : (x.targets.all ≠ [] ∨
      ∃ state ∈ decision.requestedCapabilities.values, state ≠ .satisfied) ↔
      ¬ (x.operationResults decision expectedLightOperations (x.found decision gid)
        observations = [] ∧ x.deficitsOf decision (x.found decision gid) observations = []) := by
    rw [nothing_iff]
    push Not
    exact or_iff_not_imp_left.trans (imp_congr_left not_not)
  have hpayload : ∀ p ∈ (if x.operationResults decision expectedLightOperations
      (x.found decision gid) observations = [] then none else some (ContextPayload.lightBundle
        (x.operationResults decision expectedLightOperations (x.found decision gid)
          observations))), p.validate = .ok () ∧ p.route = .atlasLight := by
    intro p hp
    split at hp
    · cases hp
    · rename_i hne
      obtain rfl := Option.some.inj hp
      exact ⟨bundle_validate hH hne, rfl⟩
  rw [hasked, ← countersOf_validate_iff hobs, outcomeOf]
  by_cases hnil : x.deficitsOf decision (x.found decision gid) observations = []
  · -- nothing is left open: there has to be a payload
    rw [if_pos hnil]
    simp only [hnil, and_true]
    by_cases hresults : x.operationResults decision expectedLightOperations (x.found decision gid)
        observations = []
    · simp [hresults]
    · rw [if_neg hresults] at hpayload ⊢
      simp only [Except.ok.injEq, exists_eq_left', dispatchOutcomeValid, check_bind_eq_ok,
        ensure_eq_ok, hresults, not_false_eq_true, true_and]
      constructor
      · rintro ⟨⟨-, hcounters, -, -⟩, -⟩
        exact hcounters
      · intro hcounters
        obtain ⟨hvalid, hroute⟩ := hpayload _ rfl
        exact ⟨⟨by simp, hcounters, hvalid, hroute⟩, rfl⟩
  · rw [if_neg hnil]
    simp only [Except.ok.injEq, exists_eq_left', dispatchOutcomeValid_deficient]
    constructor
    · rintro ⟨⟨-, hcounters, -⟩, -⟩
      exact ⟨fun h => hnil h.2, hcounters⟩
    · rintro ⟨-, hcounters⟩
      refine ⟨⟨by simp, hcounters, hpayload, hnil, isChain_deficitsOf, fun deficit hmem => ?_⟩,
        rfl, accounted_light, length_satisfiedOf⟩
      obtain ⟨c, state, reason, -, -, rfl⟩ := mem_deficitsOf.mp hmem
      simp [RouteDeficit.isRoute]

/-! ## What is left open -/

/-- A requested capability whose rows serve it is left ambiguous. -/
lemma ambiguous_of_rows {c : RequiredCapability} {state : CallerCapabilityState}
    (hleft : x.LeftAmbiguous decision gid) (hrows : ServedByRows c)
    (hmem : (c, state) ∈ decision.requestedCapabilities.entries) (hstate : state ≠ .satisfied) :
    (∀ t ∈ x.queried decision, ¬ Crowded x.store gid x.workspaceId (included decision) c t) →
    x.capabilityOutcome decision (x.found decision gid) observations c state =
      some .ambiguous := by
  intro hfree
  obtain ⟨rowsOmitted, conflicting, evident, hout, homitted⟩ :=
    x.capabilityOutcome_rows gid observations hrows
      (callerUnsatisfied_iff.mpr ⟨state, hmem, hstate⟩) hstate
  rw [hout, rowsOutcome, if_neg, identityDeficit_eq_ambiguous.mpr hleft.ambiguous]
  rw [semanticOmitted_found, found]
  rintro (⟨-, hlt⟩ | ⟨p, hp, hpo⟩)
  · exact absurd hleft.within (not_le.mpr hlt)
  · obtain ⟨t, ht, rfl⟩ := List.mem_map.mp hp
    exact hfree t ht ((homitted t).mp hpo)

/-- Where the targets are ambiguous and all else is served, nothing is out of reach. -/
lemma reachable_of_leftAmbiguous {c : RequiredCapability} {state : CallerCapabilityState}
    {reason : CapabilityDeficitReason} (hobs : x.Observed decision gid observations)
    (hleft : x.LeftAmbiguous decision gid)
    (hmem : (c, state) ∈ decision.requestedCapabilities.entries)
    (h : x.capabilityOutcome decision (x.found decision gid) observations c state = some reason) :
    ¬ (RouteDeficit.capability c reason).isUnavailable := by
  obtain ⟨hneeds, hstate⟩ := needs_of_outcome hmem h
  have hidentity := identityDeficit_eq_ambiguous.mpr hleft.ambiguous
  have hrows : ∀ {omitted : Bool} {rowsOmitted conflicting evident : LightQueryProjection → Bool},
      rowsOutcome (x.found decision gid) omitted rowsOmitted conflicting evident = some reason →
        ¬ (RouteDeficit.capability c reason).isUnavailable := by
    intro omitted rowsOmitted conflicting evident hr
    rw [rowsOutcome, hidentity] at hr
    split at hr <;> obtain rfl := Option.some.inj hr <;> simp [RouteDeficit.isUnavailable]
  have hlight := hleft.light c hneeds
  rw [capabilityOutcome, if_neg hstate] at h
  cases c with
  | identityLookup =>
    simp only [hidentity] at h
    split at h <;> obtain rfl := Option.some.inj h <;> simp [RouteDeficit.isUnavailable]
  | exactSource =>
    have hverified := hleft.sources hneeds
    have hinvoked : x.sourceInvoked decision = true := by
      simp [sourceInvoked, hneeds, hverified.named]
    simp [(hobs.verified hinvoked).mpr hverified] at h
  | boundedRelationships => exact hrows h
  | impactFrontier => exact hrows h
  | basicCoverageConflicts => exact hrows h
  | temporalHistory => cases hlight
  | requiredRoleClosure => cases hlight
  | validationPlan => cases hlight

/-- A deficit that neither escalates nor is out of reach is one of rows of ambiguous targets. -/
lemma leftAmbiguous_of_stuck (hobs : x.Observed decision gid observations)
    (hceiling : decision.effectiveCeiling = .atlasDeep)
    (hescalate : ¬ lightDeficitsCanEscalate
      (x.deficitsOf decision (x.found decision gid) observations))
    (hne : x.deficitsOf decision (x.found decision gid) observations ≠ [])
    (hreach : ∀ deficit ∈ x.deficitsOf decision (x.found decision gid) observations,
      ¬ deficit.isUnavailable) : x.LeftAmbiguous decision gid := by
  have hnone : ∀ c state, (c, state) ∈ decision.requestedCapabilities.entries → ∀ reason,
      x.capabilityOutcome decision (x.found decision gid) observations c state = some reason →
        ¬ (RouteDeficit.capability c reason).isUnavailable :=
    fun c state hmem reason h => hreach _ (mem_deficitsOf.mpr ⟨c, state, reason, hmem, h, rfl⟩)
  -- some deficit does not escalate
  obtain ⟨c, state, reason, hmem, hout, hstays⟩ : ∃ c state reason,
      (c, state) ∈ decision.requestedCapabilities.entries ∧
      x.capabilityOutcome decision (x.found decision gid) observations c state = some reason ∧
      ¬ (reason ≠ .unsupported ∧ (c.minimumRoute = .atlasDeep ∨ reason = .semanticBudgetOmitted ∨
        (c = .identityLookup ∧ reason = .ambiguous) ∨
        ((c = .boundedRelationships ∨ c = .impactFrontier ∨ c = .basicCoverageConflicts) ∧
          reason = .conflicting))) := by
    simp only [lightDeficitsCanEscalate, decide_eq_true_eq, not_and] at hescalate
    have hall := hescalate hne
    rw [List.all_eq_true] at hall
    push Not at hall
    obtain ⟨deficit, hdeficit, hstays⟩ := hall
    obtain ⟨c, state, reason, hmem, hout, rfl⟩ := mem_deficitsOf.mp hdeficit
    exact ⟨c, state, reason, hmem, hout, fun h => hstays (decide_eq_true h)⟩
  obtain ⟨hneeds, hstate⟩ := needs_of_outcome hmem hout
  have hreason := hnone c state hmem reason hout
  have hsupported : reason ≠ .unsupported := by
    rintro rfl
    exact hreason rfl
  simp only [ne_eq, hsupported, not_false_eq_true, true_and, not_or, not_and] at hstays
  obtain ⟨hdeep, hbudget, hid, hconflict⟩ := hstays
  -- it is a deficit of rows of targets that are ambiguous
  obtain ⟨hrows, hwithin, hfree, hidentity⟩ : ServedByRows c ∧
      x.semanticOmitted decision (x.found decision gid) = false ∧
      (∀ t ∈ x.queried decision, ¬ Crowded x.store gid x.workspaceId (included decision) c t) ∧
      identityDeficit (x.found decision gid) = some .ambiguous := by
    have hout' := hout
    rw [capabilityOutcome, if_neg hstate] at hout'
    by_cases hrows : ServedByRows c
    · obtain ⟨rowsOmitted, conflicting, evident, heq, homitted⟩ :=
        x.capabilityOutcome_rows gid observations hrows hneeds hstate
      rw [heq] at hout
      rcases rowsOutcome_cases hout hreason with h | h | ⟨-, homit, hall, hamb⟩
      · exact absurd h hbudget
      · exact absurd h (hconflict hrows)
      · refine ⟨hrows, homit, fun t ht hcrowded => ?_, hamb⟩
        have := hall _ (List.mem_map.mpr ⟨t, ht, rfl⟩)
        rw [(homitted t).mpr hcrowded] at this
        cases this
    · exfalso
      cases c with
      | identityLookup =>
        simp only at hout'
        split at hout'
        · exact hbudget (Option.some.inj hout').symm
        · rcases identityDeficit_cases hout' with h | h
          · exact hsupported h
          · exact hid rfl h
      | exactSource => exact hreason (isUnavailable_of_sourceOutcome hout')
      | boundedRelationships => exact hrows (.inl rfl)
      | impactFrontier => exact hrows (.inr (.inl rfl))
      | basicCoverageConflicts => exact hrows (.inr (.inr rfl))
      | temporalHistory => exact hdeep rfl
      | requiredRoleClosure => exact hdeep rfl
      | validationPlan => exact hdeep rfl
  have hamb := identityDeficit_eq_ambiguous.mp hidentity
  refine ⟨hceiling, fun c' hc' => ?_, fun hsource => ?_, ?_, hamb, c, hrows, hneeds, hfree⟩
  · obtain ⟨state', hmem', hstate'⟩ := callerUnsatisfied_iff.mp hc'
    have hout' := hnone c' state' hmem' .unavailable
    rw [capabilityOutcome, if_neg hstate'] at hout'
    cases c' with
    | temporalHistory => exact absurd rfl (hout' rfl)
    | requiredRoleClosure => exact absurd rfl (hout' rfl)
    | validationPlan => exact absurd rfl (hout' rfl)
    | _ => rfl
  · obtain ⟨state', hmem', hstate'⟩ := callerUnsatisfied_iff.mp hsource
    have hserved : x.sourceOutcome observations = none := by
      by_contra hsome
      obtain ⟨r, hr⟩ := Option.ne_none_iff_exists'.mp hsome
      refine hnone _ state' hmem' r ?_ (isUnavailable_of_sourceOutcome hr)
      rw [capabilityOutcome, if_neg hstate']
      exact hr
    refine (hobs.verified ?_).mp hserved
    simp only [sourceInvoked, hsource, true_and, decide_eq_true_eq]
    intro hnil
    simp only [sourceOutcome, hnil] at hserved
    split_ifs at hserved
    simp_all
  · obtain ⟨t, ht, -⟩ := hamb.2
    rw [queried] at ht
    by_contra hlt
    have hinvoked : x.queryInvoked decision = true := by
      by_contra hnot
      rw [if_neg hnot] at ht
      cases ht
    rw [semanticOmitted_found.mpr ⟨hinvoked, not_le.mp hlt⟩] at hwithin
    cases hwithin

/-- **What ends a run with an error.**  A deficient outcome neither escalates nor gives a reason
to stop if and only if all it leaves open is an ambiguity. -/
lemma leftAmbiguous_iff (hobs : x.Observed decision gid observations)
    (hceiling : .atlasLight ≤ decision.effectiveCeiling) :
    x.LeftAmbiguous decision gid ↔
      x.deficitsOf decision (x.found decision gid) observations ≠ [] ∧
      ¬ (Route.atlasLight < decision.effectiveCeiling ∧ lightDeficitsCanEscalate
        (x.deficitsOf decision (x.found decision gid) observations)) ∧
      ¬ (Route.atlasLight = decision.effectiveCeiling ∨ ∃ deficit ∈
        x.deficitsOf decision (x.found decision gid) observations, deficit.isUnavailable) := by
  constructor
  · intro hleft
    obtain ⟨c, hrows, hneeds, hfree⟩ := hleft.rows
    obtain ⟨state, hmem, hstate⟩ := callerUnsatisfied_iff.mp hneeds
    have hout : x.capabilityOutcome decision (x.found decision gid) observations c state =
      some .ambiguous := ambiguous_of_rows hleft hrows hmem hstate hfree
    have hdeficit := mem_deficitsOf.mpr ⟨c, state, _, hmem, hout, rfl⟩
    refine ⟨List.ne_nil_of_mem hdeficit, ?_, ?_⟩
    · rintro ⟨-, hescalate⟩
      simp only [lightDeficitsCanEscalate, decide_eq_true_eq, List.all_eq_true] at hescalate
      have := hescalate.2 _ hdeficit
      rcases hrows with rfl | rfl | rfl <;> simp [RequiredCapability.minimumRoute] at this
    · rintro (hroute | ⟨deficit, hmem', hun⟩)
      · rw [hleft.ceiling] at hroute
        cases hroute
      · obtain ⟨c', state', reason, hentry, hout', rfl⟩ := mem_deficitsOf.mp hmem'
        exact reachable_of_leftAmbiguous hobs hleft hentry hout' hun
  · rintro ⟨hne, hescalate, hstop⟩
    simp only [not_or, not_exists, not_and] at hstop
    have hdeep : decision.effectiveCeiling = .atlasDeep := by
      cases hcase : decision.effectiveCeiling with
      | direct =>
        rw [hcase] at hceiling
        exact absurd hceiling (by decide)
      | atlasLight => exact absurd hcase.symm hstop.1
      | atlasDeep => rfl
    refine leftAmbiguous_of_stuck hobs hdeep (fun h => hescalate ⟨?_, h⟩) hne hstop.2
    rw [hdeep]
    decide

/-! ## The run -/

/-- `CatalogueContextRouteDispatcher`: it counts its observations of the generation, and `deep`
answers for DEEP. -/
def dispatcher (x : LightContext) (generation : ℕ → GenerationObservation)
    (deep : ContextRouteDecision → DeepContractVersions → DeepSemanticBudget →
      ℕ × CatalogueLightResults →
        Except AtlasError RouteAttemptOutcome × (ℕ × CatalogueLightResults)) :
    ContextRouteDispatcher AtlasError (ℕ × CatalogueLightResults) where
  observeGeneration s := (generation s.1, (s.1 + 1, s.2))
  dispatchLight decision operations s :=
    let answer := x.dispatchRealLight decision operations s.2
    (answer.1, (s.1, answer.2))
  dispatchDeep := deep

/-- LIGHT keeps the contract: it has an outcome that the executor accepts, and the run ends in an
envelope or goes on to DEEP. -/
def KeepsContract (x : LightContext) (clock : ℕ → ℕ) (decision : ContextRouteDecision)
    (dispatcher : ContextRouteDispatcher AtlasError (ℕ × CatalogueLightResults)) : Prop :=
  (∃ outcome, (x.dispatchRealLight decision decision.request.lightOperations ⟨none, none⟩).1 =
      .ok outcome ∧ dispatchOutcomeValid decision .atlasLight outcome = .ok ()) ∧
    EndsOrDeepens dispatcher (0, ⟨none, none⟩) (executeContextRoute x.hasher clock decision)

/-- The answer of LIGHT once its reads succeed. -/
lemma dispatchRealLight_eq (hd : decision.validate x.hasher = .ok ())
    (hgid : decision.startingGeneration = .observed gid) (hreads : x.ReadsSucceed decision gid) :
    ∃ observations, x.Observed decision gid observations ∧ ∀ results,
      (x.dispatchRealLight decision decision.request.lightOperations results).1 =
        x.outcomeOf decision expectedLightOperations (x.found decision gid) observations := by
  obtain ⟨observations, hsource, hobs⟩ := exists_sourceObservations hreads
  refine ⟨observations, hobs, fun results => ?_⟩
  rw [lightOperations_eq hd, dispatchRealLight, hgid]
  simp only [queryProjections_eq hreads, hsource]

/-- What is left open is what the caller lacks. -/
lemma callerUnsatisfied_of_deficit {projections : List LightQueryProjection} :
    ∀ c ∈ capabilitiesOf (x.deficitsOf decision projections observations),
      callerUnsatisfied decision c := by
  intro c hc
  obtain ⟨deficit, hmem, hcap⟩ := List.mem_filterMap.mp hc
  obtain ⟨d, state, reason, hentry, hout, rfl⟩ := mem_deficitsOf.mp hmem
  obtain rfl : d = c := Option.some.inj hcap
  exact (needs_of_outcome hentry hout).1

/-- Where nothing is left open, the caller lacks nothing that only DEEP has. -/
lemma light_of_deficitsOf_eq_nil {projections : List LightQueryProjection}
    (h : x.deficitsOf decision projections observations = []) :
    ∀ c, callerUnsatisfied decision c → c.minimumRoute ≤ .atlasLight := by
  intro c hc
  obtain ⟨state, hmem, hstate⟩ := callerUnsatisfied_iff.mp hc
  by_contra hroute
  refine List.ne_nil_of_mem (mem_deficitsOf.mpr ⟨c, state, .unavailable, hmem, ?_, rfl⟩) h
  rw [capabilityOutcome, if_neg hstate]
  revert hroute
  cases c <;> first | exact fun _ => rfl | exact fun hroute => absurd le_rfl hroute

/-- **The run from LIGHT on.**  With an outcome that the executor accepts, the run ends in an
envelope or goes on to DEEP if and only if more than an ambiguity is left open, or less. -/
lemma ends_or_escalates_iff {generation : ℕ → GenerationObservation}
    {deep : ContextRouteDecision → DeepContractVersions → DeepSemanticBudget →
      ℕ × CatalogueLightResults →
        Except AtlasError RouteAttemptOutcome × (ℕ × CatalogueLightResults)}
    {s : ℕ × CatalogueLightResults} {progress : Progress} {outcome : RouteAttemptOutcome}
    (hd : decision.validate x.hasher = .ok ()) (hp : AtLight decision progress)
    (hobs : x.Observed decision gid observations)
    (houtcome : x.outcomeOf decision expectedLightOperations (x.found decision gid) observations =
      .ok outcome)
    (hvalid : dispatchOutcomeValid decision .atlasLight outcome = .ok ())
    (hsame : generationFailure decision.startingGeneration
      ((x.dispatcher generation deep).observeGeneration s).1 = none)
    (hanswer : ((x.dispatcher generation deep).lightAnswer decision s).1 = .ok outcome) :
    EndsOrDeepens (x.dispatcher generation deep) s
        (continueFrom x.hasher clock decision .atlasLight progress) ↔
      ¬ x.LeftAmbiguous decision gid := by
  rw [leftAmbiguous_iff hobs hp.underway.ceiling]
  rw [outcomeOf] at houtcome
  by_cases hnil : x.deficitsOf decision (x.found decision gid) observations = []
  · rw [if_pos hnil] at houtcome
    split at houtcome
    · cases houtcome
    · obtain rfl := Except.ok.inj houtcome
      exact iff_of_true
        (ends_of_completed hd hp hvalid (light_of_deficitsOf_eq_nil hnil) hsame hanswer)
        fun h => h.1 hnil
  · rw [if_neg hnil] at houtcome
    obtain rfl := Except.ok.inj houtcome
    rw [endsOrDeepens_of_deficient hd hp hvalid callerUnsatisfied_of_deficit hsame hanswer,
      not_and, not_and_or, not_not, not_not]
    exact ⟨fun h _ => h, fun h => h hnil⟩

/-- **The LIGHT dispatcher and its contract.**  In a run that dispatches LIGHT, and whose reads
succeed, LIGHT keeps the contract of the executor if and only if it can answer. -/
theorem keepsContract_iff (x : LightContext) (clock : ℕ → ℕ) (decision : ContextRouteDecision)
    (gid : String) (generation : ℕ → GenerationObservation)
    (deep : ContextRouteDecision → DeepContractVersions → DeepSemanticBudget →
      ℕ × CatalogueLightResults →
        Except AtlasError RouteAttemptOutcome × (ℕ × CatalogueLightResults))
    (hH : ∀ bytes, (x.hasher.sha256 bytes).length = 32) (hd : decision.validate x.hasher = .ok ())
    (hgid : decision.startingGeneration = .observed gid) (hreads : x.ReadsSucceed decision gid)
    (hlight : DispatchesLight (x.dispatcher generation deep) (0, ⟨none, none⟩)
      (executeContextRoute x.hasher clock decision)) :
    x.KeepsContract clock decision (x.dispatcher generation deep) ↔ x.Answerable decision gid := by
  obtain ⟨progress, hp, hrun, hsame⟩ := atLight_of_dispatchesLight hd hlight
  obtain ⟨observations, hobs, hanswer⟩ := dispatchRealLight_eq hd hgid hreads
  rw [KeepsContract, hanswer, hrun]
  constructor
  · rintro ⟨⟨outcome, houtcome, hvalid⟩, hends⟩
    obtain ⟨hasked, hrecorded⟩ := (outcomeOf_accepted_iff hH hobs).mp ⟨outcome, houtcome, hvalid⟩
    refine ⟨hasked, hrecorded, ?_⟩
    exact (ends_or_escalates_iff hd hp hobs houtcome hvalid hsame
      ((hanswer _).trans houtcome)).mp hends
  · rintro ⟨hasked, hrecorded, hsettled⟩
    obtain ⟨outcome, houtcome, hvalid⟩ := (outcomeOf_accepted_iff hH hobs).mpr ⟨hasked, hrecorded⟩
    exact ⟨⟨outcome, houtcome, hvalid⟩, (ends_or_escalates_iff hd hp hobs houtcome hvalid hsame
      ((hanswer _).trans houtcome)).mpr hsettled⟩

/-! ## A path that is not known, and nothing at all -/

/-- A digest of 32 bytes for runs on concrete values. -/
def fullHasher : Hasher :=
  { Hasher.plain with sha256 := fun bytes => (bytes ++ List.replicate 32 0).take 32 }

lemma length_fullHasher (bytes : List UInt8) : (fullHasher.sha256 bytes).length = 32 := by
  simp [fullHasher]

/-- No generation holds a file. -/
def emptyContext (targets : CatalogueTargets) : LightContext where
  hasher := fullHasher
  store := ⟨.empty, .empty, .empty, .empty⟩
  workspaceId := "ws"
  live _ := .unreadable
  targets := targets

/-- The path `a`. -/
def onePath : CatalogueTargets where
  seedPaths := ["a"]
  seedSymbols := []
  pathsSorted := by simp
  symbolsSorted := by simp
  bounded := by decide
  sized := by decide

/-- No target. -/
def noTargets : CatalogueTargets where
  seedPaths := []
  seedSymbols := []
  pathsSorted := by simp
  symbolsSorted := by simp
  bounded := by decide
  sized := by decide

/-- A request on LIGHT alone for an identity that the caller lacks or has. -/
def identityDecision (state : CallerCapabilityState) (targets : CatalogueTargets) :
    ContextRouteDecision :=
  routeDecision fullHasher
    { sampleRequest ⟨[(.identityLookup, state)], by simp⟩ with
      explicitSeeds := targets.summary fullHasher
      routeCeiling := .atlasLight
      deepBudget := none }

/-- DEEP is not at hand. -/
def noDeep (_ : ContextRouteDecision) (_ : DeepContractVersions) (_ : DeepSemanticBudget)
    (s : ℕ × CatalogueLightResults) :
    Except AtlasError RouteAttemptOutcome × (ℕ × CatalogueLightResults) :=
  (.error (.other "DEEP"), s)

lemma identityDecision_needs {state : CallerCapabilityState} {targets : CatalogueTargets} :
    ¬ NeedsNoDispatch (identityDecision state targets) := by
  rintro (h | ⟨h, -⟩ | h) <;> cases h

lemma identityDecision_dispatches {state : CallerCapabilityState} {targets : CatalogueTargets}
    (hd : (identityDecision state targets).validate fullHasher = .ok ()) :
    DispatchesLight ((emptyContext targets).dispatcher (fun _ => .observed "gen-a") noDeep)
      (0, ⟨none, none⟩) (executeContextRoute fullHasher id (identityDecision state targets)) :=
  dispatchesLight hd identityDecision_needs (by intro h; cases h) rfl

lemma unsatisfied_valid : (identityDecision .unsatisfied onePath).validate fullHasher = .ok () :=
  validate_routeDecision (by decide +kernel)

lemma satisfied_valid : (identityDecision .satisfied noTargets).validate fullHasher = .ok () :=
  validate_routeDecision (by decide +kernel)

theorem onePath_keepsContract :
    (emptyContext onePath).KeepsContract id (identityDecision .unsatisfied onePath)
      ((emptyContext onePath).dispatcher (fun _ => .observed "gen-a") noDeep) :=
  (keepsContract_iff (emptyContext onePath) id (identityDecision .unsatisfied onePath) "gen-a"
    (fun _ => .observed "gen-a") noDeep length_fullHasher unsatisfied_valid rfl
    ⟨fun _ t ht => by rw [List.mem_singleton.mp ht]; exact ⟨_, rfl⟩,
      fun h => absurd h (by decide)⟩
    (identityDecision_dispatches unsatisfied_valid)).mpr
    ⟨.inl (by decide), by decide, fun h => absurd h.ceiling (by decide)⟩

/-- The floor sends a caller that has everything and names no target to LIGHT, which has nothing to
hand back: the run ends with an error. -/
theorem noTargets_breaksContract :
    (identityDecision .satisfied noTargets).validate fullHasher = .ok () ∧
      (identityDecision .satisfied noTargets).request.explicitSeeds =
        noTargets.summary fullHasher ∧
      (emptyContext noTargets).ReadsSucceed (identityDecision .satisfied noTargets) "gen-a" ∧
      DispatchesLight ((emptyContext noTargets).dispatcher (fun _ => .observed "gen-a") noDeep)
        (0, ⟨none, none⟩) (executeContextRoute fullHasher id
          (identityDecision .satisfied noTargets)) ∧
      ¬ (emptyContext noTargets).KeepsContract id (identityDecision .satisfied noTargets)
        ((emptyContext noTargets).dispatcher (fun _ => .observed "gen-a") noDeep) := by
  refine ⟨satisfied_valid, rfl, ⟨fun h => absurd h (by decide), fun h => absurd h
    (by decide)⟩, identityDecision_dispatches satisfied_valid, ?_⟩
  rintro ⟨⟨outcome, hok, -⟩, -⟩
  have herror : ((emptyContext noTargets).dispatchRealLight (identityDecision .satisfied noTargets)
      (identityDecision .satisfied noTargets).request.lightOperations ⟨none, none⟩).1 =
        .error (.invalidConfig "completed LIGHT route has no payload") := rfl
  rw [herror] at hok
  cases hok

end LightContext

end WorkspaceAtlas.ContextRoute
