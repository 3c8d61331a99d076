/-
# What the checks of an envelope accept

Each validator of `ContextExecution::validate` as the condition under which it accepts, and the
conditions as they are built up by adding one attempt after another.
-/
import WorkspaceAtlas.Route.Executor

namespace WorkspaceAtlas.ContextRoute

open Relational Transition

variable {H : Hasher} {decision : ContextRouteDecision}

/-! ## Counters -/

namespace ContextExecutionCounters

instance : Add ContextExecutionCounters := ⟨fun c d =>
  ⟨c.atlasCalls + d.atlasCalls, c.records + d.records, c.sourceBytes + d.sourceBytes,
    c.estimatedTokens + d.estimatedTokens, c.workUnits + d.workUnits⟩⟩

variable {c d : ContextExecutionCounters}

/-- The counters stay within the advertised maxima. -/
lemma validate_eq_ok :
    c.validate = .ok () ↔ c.atlasCalls ≤ 1024 ∧ c.records ≤ 100000 ∧
      c.sourceBytes ≤ 16777216 ∧ c.estimatedTokens ≤ 4000000 ∧ c.workUnits ≤ 10000000 := by
  simp only [validate, check_bind_eq_ok, ensure_eq_ok]
  rfl

@[simp] lemma validate_zero : (0 : ContextExecutionCounters).validate = .ok () := by decide

lemma add_def : c + d =
    ⟨c.atlasCalls + d.atlasCalls, c.records + d.records, c.sourceBytes + d.sourceBytes,
      c.estimatedTokens + d.estimatedTokens, c.workUnits + d.workUnits⟩ := rfl

@[simp] lemma add_zero (c : ContextExecutionCounters) : c + 0 = c := rfl

@[simp] lemma zero_add (c : ContextExecutionCounters) : 0 + c = c := by
  ext <;> exact Nat.zero_add _

lemma validate_of_add (h : (c + d).validate = .ok ()) : c.validate = .ok () := by
  rw [validate_eq_ok, add_def] at h
  rw [validate_eq_ok]
  simp only at h
  omega

end ContextExecutionCounters

/-- The counters of some attempts taken together. -/
def counterTotal (attempts : List ExecutionAttempt) : ContextExecutionCounters :=
  attempts.foldl (fun total attempt => total + attempt.counters) 0

@[simp] lemma counterTotal_nil : counterTotal [] = 0 := rfl

@[simp] lemma counterTotal_snoc (attempts : List ExecutionAttempt) (attempt : ExecutionAttempt) :
    counterTotal (attempts ++ [attempt]) = counterTotal attempts + attempt.counters := by
  rw [counterTotal, List.foldl_append]
  rfl

/-- Counters within the maxima are far from the largest `u64`. -/
lemma checkedCounterAdd_eq_ok {total : ContextExecutionCounters} {attempt : ExecutionAttempt}
    (h : (total + attempt.counters).validate = .ok ()) :
    checkedCounterAdd total attempt = .ok (total + attempt.counters) := by
  rw [ContextExecutionCounters.validate_eq_ok, ContextExecutionCounters.add_def] at h
  obtain ⟨h₁, h₂, h₃, h₄, h₅⟩ := h
  have hadd : ∀ {m n k : ℕ}, m + n ≤ k → k < 2 ^ 64 → checkedAdd m n = .ok (m + n) :=
    fun hle hlt => if_pos (hle.trans_lt hlt)
  rw [checkedCounterAdd, hadd h₁ (by norm_num), hadd h₂ (by norm_num), hadd h₃ (by norm_num),
    hadd h₄ (by norm_num), hadd h₅ (by norm_num)]
  rfl

lemma checkedCounterSum_eq_ok {attempts : List ExecutionAttempt}
    (h : (counterTotal attempts).validate = .ok ()) :
    checkedCounterSum attempts = .ok (counterTotal attempts) := by
  induction attempts using List.reverseRecOn with
  | nil => rfl
  | append_singleton attempts attempt ih =>
    rw [counterTotal_snoc] at h
    have hrest := ih (ContextExecutionCounters.validate_of_add h)
    rw [checkedCounterSum] at hrest ⊢
    rw [List.foldlM_append, hrest, counterTotal_snoc]
    exact foldlM_cons_ok.mpr ⟨_, checkedCounterAdd_eq_ok h, rfl⟩

/-! ## The accounting of capabilities -/

/-- The capabilities that some deficits are about. -/
def capabilitiesOf (deficits : List RouteDeficit) : List RequiredCapability :=
  deficits.filterMap RouteDeficit.capability?

@[simp] lemma capabilitiesOf_nil : capabilitiesOf [] = [] := rfl

@[simp] lemma capabilitiesOf_route (reason : RouteFailureReason) :
    capabilitiesOf [.route reason] = [] := rfl

/-- Satisfied capabilities and deficits that can stand side by side: each was requested, none is
named twice, and what the caller does not have is satisfied only by a route that can. -/
structure Accounted (decision : ContextRouteDecision) (satisfied : List RequiredCapability)
    (deficits : List RouteDeficit) (route : Option Route) : Prop where
  nodup : satisfied.Nodup
  served : ∀ c ∈ satisfied, ∃ state ∈ decision.requestedCapabilities.get c,
    state = .satisfied ∨ ∃ r ∈ route, c.minimumRoute ≤ r
  once : (capabilitiesOf deficits).Nodup
  requested : ∀ c ∈ capabilitiesOf deficits, decision.requestedCapabilities.containsKey c
  unsatisfied : ∀ c ∈ capabilitiesOf deficits, c ∉ satisfied

lemma foldlM_accountDeficit {satisfied seen out : List RequiredCapability}
    {deficits : List RouteDeficit} :
    deficits.foldlM (accountDeficit decision satisfied) seen = .ok out ↔
      out = (capabilitiesOf deficits).reverse ++ seen ∧ (capabilitiesOf deficits).Nodup ∧
        ∀ c ∈ capabilitiesOf deficits,
          decision.requestedCapabilities.containsKey c ∧ c ∉ seen ∧ c ∉ satisfied := by
  induction deficits generalizing seen with
  | nil => simp [pure, Except.pure, eq_comm]
  | cons deficit deficits ih =>
    rw [foldlM_cons_ok]
    cases deficit with
    | route reason =>
      simp only [accountDeficit, Except.ok.injEq, exists_eq_left']
      exact ih
    | capability c reason =>
      have hcaps : capabilitiesOf (.capability c reason :: deficits) =
          c :: capabilitiesOf deficits := rfl
      simp only [accountDeficit, check_bind_eq_ok, ensure_eq_ok, pure, Except.pure,
        Except.ok.injEq, hcaps, List.reverse_cons, List.nodup_cons, List.forall_mem_cons,
        List.append_assoc, List.singleton_append]
      constructor
      · rintro ⟨_, ⟨hc, rfl⟩, hrest⟩
        obtain ⟨hout, hnodup, hall⟩ := ih.mp hrest
        refine ⟨hout, ⟨fun hmem => (hall c hmem).2.1 (by simp), hnodup⟩, hc, fun d hd => ?_⟩
        obtain ⟨h₁, h₂, h₃⟩ := hall d hd
        exact ⟨h₁, fun hmem => h₂ (by simp [hmem]), h₃⟩
      · rintro ⟨hout, ⟨hnot, hnodup⟩, hc, hall⟩
        refine ⟨c :: seen, ⟨hc, rfl⟩, ih.mpr ⟨hout, hnodup, fun d hd => ?_⟩⟩
        obtain ⟨h₁, h₂, h₃⟩ := hall d hd
        refine ⟨h₁, ?_, h₃⟩
        rw [List.mem_cons]
        rintro (rfl | hmem)
        · exact hnot hd
        · exact h₂ hmem

theorem validateSatisfiedCapabilities_eq_ok {satisfied : List RequiredCapability}
    {deficits : List RouteDeficit} {route : Option Route} {useful accounting : Bool} :
    validateSatisfiedCapabilities decision satisfied deficits route useful accounting = .ok () ↔
      Accounted decision satisfied deficits route ∧ (useful → satisfied ≠ []) ∧
        (accounting → satisfied.length + (capabilitiesOf deficits).length =
          decision.requestedCapabilities.len) := by
  simp only [validateSatisfiedCapabilities, check_bind_eq_ok, ensure_eq_ok, mem_toBTreeSet,
    toBTreeSet_eq_nil, length_toBTreeSet_iff]
  rw [bind_ok]
  simp only [foldlM_accountDeficit, ensure_eq_ok, mem_toBTreeSet, List.append_nil]
  constructor
  · rintro ⟨⟨hnodup, huseful, hserved⟩, _, ⟨rfl, honce, hreq⟩, hacc⟩
    rw [length_toBTreeSet_iff.mpr hnodup, List.length_reverse] at hacc
    exact ⟨⟨hnodup, hserved, honce, fun c hc => (hreq c hc).1, fun c hc => (hreq c hc).2.2⟩,
      fun hu hnil => huseful ⟨hu, hnil⟩, fun ha => not_not.mp fun hne => hacc ⟨ha, hne⟩⟩
  · rintro ⟨⟨hnodup, hserved, honce, hreq, hun⟩, huseful, hacc⟩
    refine ⟨⟨hnodup, fun hu => huseful hu.1 hu.2, hserved⟩, _,
      ⟨rfl, honce, fun c hc => ⟨hreq c hc, List.not_mem_nil, hun c hc⟩⟩, fun ha => ?_⟩
    rw [length_toBTreeSet_iff.mpr hnodup, List.length_reverse] at ha
    exact ha.2 (hacc ha.1)

namespace Accounted

variable {satisfied : List RequiredCapability} {deficits : List RouteDeficit}
  {route : Option Route}

/-- Deficits that name no capability account for nothing. -/
lemma of_capabilitiesOf_eq_nil {deficits' : List RouteDeficit}
    (h : Accounted decision satisfied deficits route) (hnil : capabilitiesOf deficits' = []) :
    Accounted decision satisfied deficits' route where
  nodup := h.nodup
  served := h.served
  once := hnil ▸ List.nodup_nil
  requested := by simp [hnil]
  unsatisfied := by simp [hnil]

end Accounted

/-! ## What the caller has and lacks -/

lemma callerUnsatisfied_iff {c : RequiredCapability} : callerUnsatisfied decision c ↔
    ∃ state, (c, state) ∈ decision.requestedCapabilities.entries ∧ state ≠ .satisfied := by
  simp only [← SortedMap.get_eq_some_iff, callerUnsatisfied]
  cases hget : decision.requestedCapabilities.get c with
  | none => simp
  | some state => cases state <;> simp

/-- What `caller_satisfaction` lists as satisfied. -/
lemma mem_satisfied {c : RequiredCapability} : c ∈ (callerSatisfaction decision).1 ↔
    (c, CallerCapabilityState.satisfied) ∈ decision.requestedCapabilities.entries := by
  simp only [callerSatisfaction, List.mem_filterMap, Prod.exists]
  constructor
  · rintro ⟨d, state, hmem, hstate⟩
    cases state <;> simp_all
  · exact fun hmem => ⟨c, .satisfied, hmem, rfl⟩

/-- What `caller_satisfaction` lists as a deficit. -/
lemma mem_deficits {deficit : RouteDeficit} : deficit ∈ (callerSatisfaction decision).2 ↔
    ∃ c, callerUnsatisfied decision c ∧ deficit = .capability c .unavailable := by
  simp only [callerSatisfaction, List.mem_filterMap, Prod.exists, callerUnsatisfied_iff]
  constructor
  · rintro ⟨c, state, hmem, hstate⟩
    refine ⟨c, ⟨state, hmem, ?_⟩, ?_⟩ <;> cases state <;> simp_all
  · rintro ⟨c, ⟨state, hmem, hne⟩, rfl⟩
    refine ⟨c, state, hmem, ?_⟩
    cases state <;> simp_all

lemma deficits_eq_nil_iff : (callerSatisfaction decision).2 = [] ↔
    ∀ state ∈ decision.requestedCapabilities.values, state = .satisfied := by
  simp only [List.eq_nil_iff_forall_not_mem, mem_deficits, callerUnsatisfied_iff,
    SortedMap.values, List.mem_map, Prod.exists]
  constructor
  · rintro h _ ⟨c, state, hmem, rfl⟩
    by_contra hne
    exact h _ ⟨c, ⟨state, hmem, hne⟩, rfl⟩
  · rintro h _ ⟨c, ⟨state, hmem, hne⟩, rfl⟩
    exact hne (h state ⟨c, state, hmem, rfl⟩)

/-- The two lists of `caller_satisfaction` are read off the entries in their order. -/
lemma keys_satisfied : (callerSatisfaction decision).1 =
    (decision.requestedCapabilities.entries.filter fun entry => entry.2 = .satisfied).map
      Prod.fst := by
  simp only [callerSatisfaction]
  induction decision.requestedCapabilities.entries with
  | nil => rfl
  | cons entry entries ih => obtain ⟨c, state⟩ := entry; cases state <;> simp [ih]

lemma keys_deficits : capabilitiesOf (callerSatisfaction decision).2 =
    (decision.requestedCapabilities.entries.filter fun entry => ¬ entry.2 = .satisfied).map
      Prod.fst := by
  simp only [callerSatisfaction, capabilitiesOf]
  induction decision.requestedCapabilities.entries with
  | nil => rfl
  | cons entry entries ih =>
    obtain ⟨c, state⟩ := entry
    cases state <;> simp [ih, RouteDeficit.capability?]

lemma length_callerSatisfaction :
    (callerSatisfaction decision).1.length +
        (capabilitiesOf (callerSatisfaction decision).2).length =
      decision.requestedCapabilities.len := by
  rw [keys_satisfied, keys_deficits, List.length_map, List.length_map, SortedMap.len]
  simpa using (List.length_eq_length_filter_add
    fun entry : RequiredCapability × CallerCapabilityState => decide (entry.2 = .satisfied)).symm

lemma isChain_deficits : (callerSatisfaction decision).2.IsChain (· < ·) := by
  have hmap : (callerSatisfaction decision).2 =
      (capabilitiesOf (callerSatisfaction decision).2).map
        fun c => RouteDeficit.capability c .unavailable := by
    simp only [callerSatisfaction, capabilitiesOf]
    induction decision.requestedCapabilities.entries with
    | nil => rfl
    | cons entry entries ih =>
      obtain ⟨c, state⟩ := entry
      cases state <;> simp [RouteDeficit.capability?] <;> simpa using ih
  rw [hmap, keys_deficits]
  refine List.Pairwise.isChain (List.pairwise_map.mpr ?_)
  exact SortedMap.pairwise_filterMap.imp fun hlt => Or.inl hlt

/-- What the caller has and lacks can stand side by side, whatever route is meant. -/
lemma accounted_callerSatisfaction {route : Option Route} :
    Accounted decision (callerSatisfaction decision).1 (callerSatisfaction decision).2 route where
  nodup := keys_satisfied ▸ SortedMap.pairwise_filterMap.imp ne_of_lt
  served := fun c hc =>
    ⟨.satisfied, SortedMap.get_eq_some_iff.mpr (mem_satisfied.mp hc), .inl rfl⟩
  once := keys_deficits ▸ SortedMap.pairwise_filterMap.imp ne_of_lt
  requested := by
    rw [keys_deficits]
    intro c hc
    obtain ⟨⟨d, state⟩, hmem, rfl⟩ := List.mem_map.mp hc
    exact SortedMap.containsKey_iff.mpr ⟨state, (List.mem_filter.mp hmem).1⟩
  unsatisfied := by
    rw [keys_deficits]
    intro c hc hsat
    obtain ⟨⟨d, state⟩, hmem, rfl⟩ := List.mem_map.mp hc
    obtain ⟨hmem, hne⟩ := List.mem_filter.mp hmem
    have := SortedMap.eq_of_mem hmem (mem_satisfied.mp hsat)
    simp [this] at hne

/-! ## The attempts of an envelope -/

/-- The transition check looks at nothing but the route of the next attempt. -/
def LeadsTo (decision : ContextRouteDecision) (previous : ExecutionAttempt) (route : Route) :
    Prop :=
  ∀ next : ExecutionAttempt, next.route = route → validAttemptTransition previous next decision

/-- A DIRECT attempt that leaves what the caller lacks leads to LIGHT. -/
lemma leadsTo_light {clock : ℕ → ℕ} {ordinal : ℕ} {counters : ContextExecutionCounters}
    (hne : (callerSatisfaction decision).2 ≠ []) :
    LeadsTo decision (routeAttempt clock ordinal .direct .partial_ (callerSatisfaction decision).2
      counters) .atlasLight := by
  intro next hroute
  simp only [validAttemptTransition, routeAttempt, hroute]
  simp only [reduceCtorEq, if_false, not_true_eq_false, ne_eq, hne, not_false_eq_true, true_and,
    Bool.decide_and, decide_true, List.all_eq_true, decide_eq_true_eq]
  intro deficit hdeficit
  obtain ⟨c, hc, rfl⟩ := mem_deficits.mp hdeficit
  simp [hc]

/-- **Where the two policies meet.**  A LIGHT attempt whose deficits can escalate leads to DEEP
if and only if the caller lacks every capability they name. -/
lemma leadsTo_deep_iff {clock : ℕ → ℕ} {ordinal : ℕ} {counters : ContextExecutionCounters}
    {deficits : List RouteDeficit} (hesc : lightDeficitsCanEscalate deficits) :
    LeadsTo decision (routeAttempt clock ordinal .atlasLight .partial_ deficits counters)
        .atlasDeep ↔ ∀ c ∈ capabilitiesOf deficits, callerUnsatisfied decision c := by
  have hkey : ∀ next : ExecutionAttempt, next.route = .atlasDeep →
      (validAttemptTransition (routeAttempt clock ordinal .atlasLight .partial_ deficits counters)
        next decision ↔ ∀ c ∈ capabilitiesOf deficits, callerUnsatisfied decision c) := by
    intro next hroute
    simp only [lightDeficitsCanEscalate, decide_eq_true_eq, List.all_eq_true] at hesc
    obtain ⟨hne, hall⟩ := hesc
    simp only [validAttemptTransition, routeAttempt, hroute]
    simp only [reduceCtorEq, if_false, not_true_eq_false, ne_eq, hne, not_false_eq_true, true_and,
      decide_eq_true_eq, List.all_eq_true]
    constructor
    · intro h c hc
      obtain ⟨deficit, hmem, hcap⟩ := List.mem_filterMap.mp hc
      cases deficit with
      | route reason => simp [RouteDeficit.capability?] at hcap
      | capability d reason =>
        obtain rfl : d = c := by simpa [RouteDeficit.capability?] using hcap
        by_contra hnot
        simpa [hnot] using h _ hmem
    · intro h deficit hmem
      have hdeficit := hall deficit hmem
      cases deficit with
      | route reason => simp at hdeficit
      | capability c reason =>
        have hc := h c (List.mem_filterMap.mpr ⟨_, hmem, rfl⟩)
        simp only [decide_eq_true_eq] at hdeficit
        obtain ⟨hsupported, hpolicy⟩ := hdeficit
        simp only [hc, hsupported, not_true_eq_false, or_self, if_false]
        exact decide_eq_true hpolicy
  constructor
  · intro h
    exact (hkey (routeAttempt clock ordinal .atlasDeep .blocked [] 0) rfl).mp (h _ rfl)
  · intro h next hroute
    exact (hkey next hroute).mpr h

/-- The conditions on the attempts in the first half of the validator. -/
structure AttemptsAccepted (decision : ContextRouteDecision) (attempts : List ExecutionAttempt) :
    Prop where
  length : attempts.length ≤ maxRouteAttempts
  each : ∀ attempt ∈ attempts, attempt.validate = .ok ()
  chain : attempts.IsChain fun previous next => validAttemptTransition previous next decision
  first : ∀ attempt ∈ attempts.head?, attempt.route = decision.initialRoute
  between : ∀ attempt ∈ attempts, decision.effectiveFloor ≤ attempt.route ∧
    attempt.route ≤ decision.effectiveCeiling ∧ (attempt.route = .direct → attempt.counters = 0)
  observed : ¬ (decision.startingGeneration.isUnavailable ∧
    ∃ attempt ∈ attempts, attempt.route ≠ .direct)
  needed : ¬ ((callerSatisfaction decision).2 = [] ∧ decision.initialRoute = .direct ∧
    ∃ attempt ∈ attempts, attempt.route ≠ .direct)

lemma validateHeader_eq_ok {schemaVersion : String} {attempts : List ExecutionAttempt}
    {counters summed : ContextExecutionCounters} {diagnostics : List ContextDiagnosticCode} :
    ContextExecution.validateHeader H schemaVersion decision attempts counters diagnostics =
        .ok summed ↔
      schemaVersion = contextExecutionVersion ∧ decision.validate H = .ok () ∧
        diagnostics.length ≤ maxExecutionDiagnostics ∧ counters.validate = .ok () ∧
        AttemptsAccepted decision attempts ∧ checkedCounterSum attempts = .ok summed := by
  simp only [ContextExecution.validateHeader, check_bind_eq_ok, ensure_eq_ok]
  simp only [bind_ok, decide_eq_true_eq, ← deficits_eq_nil_iff]
  constructor
  · rintro ⟨hversion, hvalid, ⟨hlen, hdiag, hcount, heach, hchain, hfirst, hbetween, hobs⟩,
      total, htotal, _, hneed, hsummed⟩
    obtain rfl := Except.ok.inj hsummed
    exact ⟨hversion, hvalid, hdiag, hcount,
      ⟨hlen, heach, hchain, hfirst, hbetween, hobs, ensure_eq_ok.mp hneed⟩, htotal⟩
  · rintro ⟨hversion, hvalid, hdiag, hcount, h, htotal⟩
    exact ⟨hversion, hvalid, ⟨h.length, hdiag, hcount, h.each, h.chain, h.first, h.between,
      h.observed⟩, summed, htotal, (), ensure_eq_ok.mpr h.needed, rfl⟩

lemma validOpaqueId_attemptId {n : ℕ} (hn : n ≤ 8) :
    validOpaqueId ("context-attempt-" ++ toString n) := by
  interval_cases n <;> decide +kernel

namespace AttemptsAccepted

variable {attempts : List ExecutionAttempt} {attempt : ExecutionAttempt}

lemma nil : AttemptsAccepted decision [] where
  length := Nat.zero_le _
  each := by simp
  chain := .nil
  first := by simp
  between := by simp
  observed := by simp
  needed := by simp

/-- One more attempt, on the route that the last one leads to. -/
lemma snoc (h : AttemptsAccepted decision attempts) (hlength : attempts.length < maxRouteAttempts)
    (hvalid : attempt.validate = .ok ())
    (hlead : ∀ previous ∈ attempts.getLast?, validAttemptTransition previous attempt decision)
    (hfirst : attempts = [] → attempt.route = decision.initialRoute)
    (hfloor : decision.effectiveFloor ≤ attempt.route)
    (hceiling : attempt.route ≤ decision.effectiveCeiling)
    (hdirect : attempt.route = .direct → attempt.counters = 0)
    (hobserved : attempt.route ≠ .direct → ¬ decision.startingGeneration.isUnavailable)
    (hneeded : attempt.route ≠ .direct →
      ¬ ((callerSatisfaction decision).2 = [] ∧ decision.initialRoute = .direct)) :
    AttemptsAccepted decision (attempts ++ [attempt]) where
  length := by simpa using hlength
  each := by
    intro a ha
    obtain ha | ha := List.mem_append.mp ha
    · exact h.each a ha
    · exact List.mem_singleton.mp ha ▸ hvalid
  chain := by
    refine List.isChain_append.mpr ⟨h.chain, .singleton _, fun previous hprev next hnext => ?_⟩
    obtain rfl : attempt = next := by simpa using hnext
    exact hlead previous hprev
  first := by
    cases attempts with
    | nil => simpa using hfirst rfl
    | cons a attempts => exact h.first
  between := by
    intro a ha
    obtain ha | ha := List.mem_append.mp ha
    · exact h.between a ha
    · exact List.mem_singleton.mp ha ▸ ⟨hfloor, hceiling, hdirect⟩
  observed := by
    rintro ⟨hun, a, ha, hroute⟩
    obtain ha | ha := List.mem_append.mp ha
    · exact h.observed ⟨hun, a, ha, hroute⟩
    · exact hobserved (List.mem_singleton.mp ha ▸ hroute) hun
  needed := by
    rintro ⟨hnil, hinit, a, ha, hroute⟩
    obtain ha | ha := List.mem_append.mp ha
    · exact h.needed ⟨hnil, hinit, a, ha, hroute⟩
    · exact hneeded (List.mem_singleton.mp ha ▸ hroute) ⟨hnil, hinit⟩

end AttemptsAccepted

lemma routeAttempt_validate {clock : ℕ → ℕ} {ordinal : ℕ} (hordinal : ordinal ≤ 8) {route : Route}
    {state : AttemptState} {deficits : List RouteDeficit} {counters : ContextExecutionCounters} :
    (routeAttempt clock ordinal route state deficits counters).validate = .ok () ↔
      counters.validate = .ok () ∧
        (routeAttempt clock ordinal route state deficits counters).deficitShapeValid ∧
          deficits.IsChain (· < ·) := by
  simp only [ExecutionAttempt.validate, ensure_eq_ok]
  exact and_iff_right (validOpaqueId_attemptId hordinal)

section Validate

variable {execution : ContextExecution} {attempts : List ExecutionAttempt}
  {counters summed : ContextExecutionCounters} {diagnostics : List ContextDiagnosticCode}

/-- With acceptable attempts, the fields of the state decide. -/
lemma validate_iff_validateState (hheader : execution.header =
      (contextExecutionVersion, decision, attempts, counters, diagnostics))
    (hd : decision.validate H = .ok ()) (hdiag : diagnostics.length ≤ maxExecutionDiagnostics)
    (hcounters : counters.validate = .ok ()) (haccepted : AttemptsAccepted decision attempts)
    (hsum : checkedCounterSum attempts = .ok summed) :
    execution.validate H = .ok () ↔ execution.validateState summed = .ok () := by
  have hok := validateHeader_eq_ok.mpr ⟨rfl, hd, hdiag, hcounters, haccepted, hsum⟩
  rw [ContextExecution.validate, hheader, bind_ok]
  simp only [hok, Except.ok.injEq, exists_eq_left']

lemma accepted_of_validate {schemaVersion : String} (hheader : execution.header =
      (schemaVersion, decision, attempts, counters, diagnostics))
    (h : execution.validate H = .ok ()) : AttemptsAccepted decision attempts := by
  rw [ContextExecution.validate, hheader, bind_ok] at h
  obtain ⟨_, hok, -⟩ := h
  exact (validateHeader_eq_ok.mp hok).2.2.2.2.1

end Validate

/-- A blocked envelope without payload stands or falls with its terminal reason. -/
lemma validateState_blocked {clock : ℕ → ℕ} {ordinal : ℕ} {route : Route}
    {attempts : List ExecutionAttempt} {satisfied : List RequiredCapability}
    {deficits : List RouteDeficit} {schemaVersion : String}
    {counters summed : ContextExecutionCounters} {diagnostics : List ContextDiagnosticCode}
    {reason : TerminalReason} (hne : deficits ≠ [])
    (haccounted : Accounted decision satisfied deficits (some route))
    (hlength : (∀ deficit ∈ deficits, ¬ deficit.isRoute) →
      satisfied.length + (capabilitiesOf deficits).length = decision.requestedCapabilities.len) :
    (ContextExecution.blocked schemaVersion decision
        (attempts ++ [routeAttempt clock ordinal route .blocked deficits counters]) (some route)
        none satisfied deficits summed diagnostics none reason).validateState summed = .ok () ↔
      validateTerminalReason reason (some route) decision.effectiveCeiling deficits = .ok () := by
  simp only [ContextExecution.validateState, check_bind_eq_ok, ensure_eq_ok,
    validateSatisfiedCapabilities_eq_ok]
  constructor
  · rintro ⟨-, -, -, hreason, -⟩
    exact hreason
  · intro hreason
    refine ⟨⟨hne, ?_, ?_, ?_, trivial⟩, ⟨haccounted, by simp, fun hroute => hlength ?_⟩, trivial,
      hreason, rfl⟩
    · simp
    · simp [routeAttempt]
    · simp [routeAttempt]
    · intro deficit hmem hisRoute
      simp only [decide_eq_true_eq] at hroute
      exact hroute ⟨deficit, hmem, hisRoute⟩

end WorkspaceAtlas.ContextRoute
