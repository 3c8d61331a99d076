/-
# The accounting of capabilities as a partition

The checks of `validate_satisfied_capabilities` are four: no satisfied capability is listed
twice, each was requested, no deficit names one of them or one twice, and the two numbers add
up.  Since the capabilities with a deficit are requested as well, the lists together are a
duplicate-free part of the requested capabilities of the same size, and so all of them.
-/
import WorkspaceAtlas.Route.Governed

namespace WorkspaceAtlas.ContextRoute

open Relational Transition

/-- The satisfied capabilities and those with a deficit are what was requested, each of them
once, and what is satisfied the caller had or the final route can give. -/
structure PartitionsRequest (decision : ContextRouteDecision)
    (satisfied : List RequiredCapability) (deficits : List RouteDeficit)
    (finalRoute : Option Route) : Prop where
  disjoint : ∀ c ∈ satisfied, c ∉ capabilitiesOf deficits
  once : (satisfied ++ capabilitiesOf deficits).Nodup
  requested : ∀ c, c ∈ satisfied ∨ c ∈ capabilitiesOf deficits ↔
    decision.requestedCapabilities.containsKey c
  served : ∀ c ∈ satisfied, decision.requestedCapabilities.get c = some .satisfied ∨
    ∃ route ∈ finalRoute, c.minimumRoute ≤ route

/-- What an envelope says about the requested capabilities. -/
def ContextExecution.AccountsForRequest : ContextExecution → Prop
  | completed _ decision _ finalRoute _ _ _ _ =>
    ∀ c, callerUnsatisfied decision c → c.minimumRoute ≤ finalRoute
  | partial_ _ decision _ finalRoute _ satisfied deficits _ _ _ _ =>
    PartitionsRequest decision satisfied deficits (some finalRoute)
  | blocked _ decision _ finalRoute _ satisfied deficits _ _ _ _ =>
    (∀ deficit ∈ deficits, ¬ deficit.isRoute) →
      PartitionsRequest decision satisfied deficits finalRoute
  | interrupted .. => True

section Partition

variable {decision : ContextRouteDecision} {satisfied : List RequiredCapability}
  {deficits : List RouteDeficit} {route : Option Route}

lemma mem_keys_iff {c : RequiredCapability} :
    c ∈ decision.requestedCapabilities.keys ↔ decision.requestedCapabilities.containsKey c := by
  simp only [SortedMap.keys, List.mem_map, Prod.exists, exists_and_right, exists_eq_right,
    SortedMap.containsKey_iff]

namespace Accounted

lemma nodup_append (h : Accounted decision satisfied deficits route) :
    (satisfied ++ capabilitiesOf deficits).Nodup :=
  List.nodup_append'.mpr ⟨h.nodup, h.once, fun c hsatisfied hdeficit =>
    h.unsatisfied c hdeficit hsatisfied⟩

lemma subset_keys (h : Accounted decision satisfied deficits route) :
    satisfied ++ capabilitiesOf deficits ⊆ decision.requestedCapabilities.keys := by
  intro c hc
  rw [mem_keys_iff]
  rcases List.mem_append.mp hc with hsatisfied | hdeficit
  · obtain ⟨state, hstate, -⟩ := h.served c hsatisfied
    rw [SortedMap.containsKey, hstate]
    rfl
  · exact h.requested c hdeficit

/-- A duplicate-free part of the keys that is as long as they are is all of them. -/
lemma perm_keys (h : Accounted decision satisfied deficits route)
    (hlength : satisfied.length + (capabilitiesOf deficits).length =
      decision.requestedCapabilities.len) :
    List.Perm (satisfied ++ capabilitiesOf deficits) decision.requestedCapabilities.keys := by
  refine (List.subperm_of_subset h.nodup_append h.subset_keys).perm_of_length_le ?_
  rw [List.length_append, hlength, SortedMap.keys, List.length_map, SortedMap.len]

lemma partitionsRequest (h : Accounted decision satisfied deficits route)
    (hlength : satisfied.length + (capabilitiesOf deficits).length =
      decision.requestedCapabilities.len) :
    PartitionsRequest decision satisfied deficits route where
  disjoint c hsatisfied hdeficit := h.unsatisfied c hdeficit hsatisfied
  once := h.nodup_append
  requested c := by
    rw [← List.mem_append, (h.perm_keys hlength).mem_iff, mem_keys_iff]
  served c hc := by
    obtain ⟨state, hstate, rfl | hroute⟩ := h.served c hc
    · exact .inl hstate
    · exact .inr hroute

end Accounted

/-- The fields of the state account for the request. -/
lemma accountsForRequest_of_validateState {execution : ContextExecution}
    {summed : ContextExecutionCounters} (h : execution.validateState summed = .ok ()) :
    execution.AccountsForRequest := by
  cases execution with
  | completed version decision attempts finalRoute payload counters diagnostics materialization =>
    simp only [ContextExecution.validateState, check_bind_eq_ok, ensure_eq_ok] at h
    obtain ⟨-, ⟨-, -, -, hreached⟩, -⟩ := h
    intro c hc
    obtain ⟨state, hmem, hstate⟩ := callerUnsatisfied_iff.mp hc
    by_contra hlt
    exact hreached ⟨_, hmem, hstate, not_le.mp hlt⟩
  | partial_ =>
    simp only [ContextExecution.validateState, check_bind_eq_ok, ensure_eq_ok,
      validateSatisfiedCapabilities_eq_ok] at h
    obtain ⟨-, -, ⟨haccounted, -, hlength⟩, -⟩ := h
    exact haccounted.partitionsRequest (hlength trivial)
  | blocked =>
    simp only [ContextExecution.validateState, check_bind_eq_ok, ensure_eq_ok,
      validateSatisfiedCapabilities_eq_ok] at h
    obtain ⟨-, ⟨haccounted, -, hlength⟩, -⟩ := h
    intro hroute
    refine haccounted.partitionsRequest (hlength (decide_eq_true ?_))
    rintro ⟨deficit, hmem, hdeficit⟩
    exact hroute deficit hmem hdeficit
  | interrupted => trivial

end Partition

/-- **Capability accounting is a partition**: in every envelope that passes its checks, what is
satisfied and what has a deficit are the requested capabilities, each of them once. -/
theorem accountsForRequest_of_validate (H : Hasher) (execution : ContextExecution)
    (h : execution.validate H = .ok ()) : execution.AccountsForRequest := by
  rw [ContextExecution.validate, bind_ok] at h
  obtain ⟨summed, -, hstate⟩ := h
  exact accountsForRequest_of_validateState hstate

/-- LIGHT has no identity for a caller that has a validation plan. -/
def identityMissing : ContextExecution :=
  let deficits : List RouteDeficit := [.capability .identityLookup .unavailable]
  .partial_ contextExecutionVersion plannedDecision
    [routeAttempt id 1 .atlasLight .partial_ deficits 0] .atlasLight
    (.lightBundle [.query queryOperationVersion sampleDigest 0]) [.validationPlan] deficits 0 []
    none .capabilityUnavailable

lemma identityMissing_valid : identityMissing.validate sampleHasher = .ok () := by
  refine (validate_iff_validateState rfl plannedDecision_valid (by decide) (by decide) ?_ rfl).mpr
    (by decide +kernel)
  refine (List.nil_append [routeAttempt id 1 .atlasLight .partial_ _ 0]) ▸
    AttemptsAccepted.nil.snoc (by decide) ?_ (by simp) (fun _ => by decide) (by decide)
      (by decide) (by decide) (fun _ => by decide) fun _ => by decide
  decide +kernel

lemma accountsForRequest_identityMissing :
    identityMissing.validate sampleHasher = .ok () ∧ identityMissing.AccountsForRequest :=
  ⟨identityMissing_valid,
    accountsForRequest_of_validate sampleHasher identityMissing identityMissing_valid⟩

end WorkspaceAtlas.ContextRoute
