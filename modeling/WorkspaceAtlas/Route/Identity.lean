/-
# The identity of a decision

`canonical_decision_hash` writes the fields of a decision into a hasher, each behind its length,
and `SeedSummary::from_targets` the targets of a request.  Every piece is a prefix code, so that
the bytes can be read back; the lists that are written without their number are the operations,
which an accepted request has no choice of, and the signals and reasons, which follow from the
request that stands before them.
-/
import WorkspaceAtlas.Route.Governed
import WorkspaceAtlas.Route.Light
import WorkspaceAtlas.Text.PrefixCode

namespace WorkspaceAtlas.ContextRoute

open Relational Transition Text CanonicalEncoder

/-! ## What is written -/

/-- The fields of a request, from the version of the classifier on. -/
def requestFields (request : ContextRouteRequest) : List UInt8 :=
  text request.classifierVersion ++
  request.lightOperations.flatMap (fun operation =>
    text operation.operation.ascii ++ text operation.version) ++
  text request.deepContracts.plannerVersion ++ text request.deepContracts.projectionVersion ++
  text request.deepContracts.contextIrVersion ++ text request.deepContracts.estimatorVersion ++
  text request.normalizedTaskHash ++ optionalText (request.declaredKind.map taskKindAscii) ++
  text (taskKindAscii request.classifierKind) ++ text request.explicitSeeds.digest ++
  u64 request.explicitSeeds.pathCount ++ u64 request.explicitSeeds.symbolCount ++
  capabilities request.callerCapabilities ++ text request.atlasIntent.ascii ++
  text request.routeFloor.ascii ++ text request.routeCeiling.ascii ++
  profile request.capabilityProfile ++ profile request.costProfile ++
  optionalText request.profileRegistryDigest ++ generation request.startingGeneration ++
  deepBudget request.deepBudget

/-- What was decided. -/
def outcomeFields (decision : ContextRouteDecision) : List UInt8 :=
  text decision.effectiveFloor.ascii ++ text decision.effectiveCeiling.ascii ++
  text decision.initialRoute.ascii ++ optionalText decision.deepBudgetDigest ++
  capabilities decision.requestedCapabilities ++
  decision.signals.flatMap (fun signal => text signal.ascii) ++
  decision.reasons.flatMap (fun reason => text reason.ascii) ++
  generation decision.startingGeneration

/-- The bytes that `canonical_decision_hash` feeds to the hasher. -/
def decisionStream (decision : ContextRouteDecision) : List UInt8 :=
  text "workspace-atlas/context-route-decision-v1" ++ text decision.request.schemaVersion ++
  text decision.schemaVersion ++ text decision.policyVersion ++
  requestFields decision.request ++ outcomeFields decision

lemma canonicalDecisionHash_eq (H : Hasher) (decision : ContextRouteDecision) :
    canonicalDecisionHash H decision = toHex (H.sha256 (decisionStream decision)) := by
  unfold canonicalDecisionHash digestOf
  refine congrArg (fun written => toHex (H.sha256 written)) ?_
  unfold decisionStream requestFields outcomeFields
  simp only [List.append_assoc]

/-- `SeedSummary::from_targets`; the lists are sorted and then freed of duplicates. -/
def SeedSummary.fromTargets (H : Hasher) (paths symbols : List String) :
    Except ContextRouteError SeedSummary := do
  let paths := toBTreeSet paths
  let symbols := toBTreeSet symbols
  ensure (paths.length < 2 ^ 32) .invalidIdentity
  ensure (symbols.length < 2 ^ 32) .invalidIdentity
  return {
    digest := digestOf H "workspace-atlas/context-route-seeds-v1" <|
      u64 paths.length ++ paths.flatMap text ++ u64 symbols.length ++ symbols.flatMap text
    pathCount := paths.length
    symbolCount := symbols.length }

/-- The counts are `u32`. -/
structure SeedSummary.Sized (summary : SeedSummary) : Prop where
  pathCount : summary.pathCount < 2 ^ 32
  symbolCount : summary.symbolCount < 2 ^ 32

/-- The length of a text in memory is a `u64`. -/
def TextSized (s : String) : Prop := (utf8 s).length < 2 ^ 64

instance (s : String) : Decidable (TextSized s) := inferInstanceAs (Decidable (_ < _))

/-! ## Prefix codes -/

section Codes

lemma length_toBeBytes (n : ℕ) : (CanonicalEncoder.toBeBytes n).length = 8 := by
  rw [CanonicalEncoder.toBeBytes, List.length_reverse, length_leDigits]

lemma toBeBytes_injOn : Set.InjOn CanonicalEncoder.toBeBytes {n | n < 2 ^ 64} := by
  intro m hm n hn h
  exact leDigits_injOn (k := 8) (by simpa using hm) (by simpa using hn)
    (List.reverse_injective h)

lemma code_toBeBytes : PrefixCodeOn {n | n < 2 ^ 64} CanonicalEncoder.toBeBytes :=
  .of_length (fun n _ => length_toBeBytes n) toBeBytes_injOn

lemma code_bytes : PrefixCodeOn {v : List UInt8 | v.length < 2 ^ 64} bytes :=
  code_toBeBytes.framed

lemma code_text : PrefixCodeOn {s | TextSized s} text :=
  code_bytes.comp (fun _ h => h) utf8_injective.injOn

lemma code_u64 : PrefixCodeOn {n | n < 2 ^ 64} u64 := by
  refine code_bytes.comp (fun n _ => ?_) toBeBytes_injOn
  have hlength := length_toBeBytes n
  exact hlength.trans_lt (by norm_num)

/-- The name of a variant. -/
lemma code_ascii {α : Type} {ascii : α → String} (hsized : ∀ a, TextSized (ascii a))
    (hinj : Function.Injective ascii) : PrefixCodeOn Set.univ fun a => text (ascii a) :=
  code_text.comp (fun a _ => hsized a) hinj.injOn

/-- The byte before an optional value. -/
lemma code_mark : PrefixCodeOn Set.univ fun b : Bool => bytes [if b then 1 else 0] :=
  code_bytes.comp (f := fun b : Bool => [if b then 1 else 0]) (fun b _ => by simp)
    fun a _ b _ h => by cases a <;> cases b <;> simp_all

lemma code_optionalText :
    PrefixCodeOn {o : Option String | ∀ s ∈ o, TextSized s} optionalText := by
  have hcode := code_mark.marked code_text
  intro o ho o' ho' s t heq
  refine hcode o ho o' ho' s t ?_
  cases o <;> cases o' <;> simpa [optionalText] using heq

lemma code_capability : PrefixCodeOn Set.univ fun c : RequiredCapability => text c.ascii := by
  refine code_ascii (fun c => ?_) fun c d h => ?_
  · cases c <;> decide
  · cases c <;> cases d <;> first | rfl | exact absurd h (by decide)

lemma code_capabilityState :
    PrefixCodeOn Set.univ fun state : CallerCapabilityState => text state.ascii := by
  refine code_ascii (fun state => ?_) fun c d h => ?_
  · cases state <;> decide
  · cases c <;> cases d <;> first | rfl | exact absurd h (by decide)

lemma code_intent : PrefixCodeOn Set.univ fun intent : AtlasIntent => text intent.ascii := by
  refine code_ascii (fun intent => ?_) fun c d h => ?_
  · cases intent <;> decide
  · cases c <;> cases d <;> first | rfl | exact absurd h (by decide)

lemma code_route : PrefixCodeOn Set.univ fun route : Route => text route.ascii := by
  refine code_ascii (fun route => ?_) fun c d h => ?_
  · cases route <;> decide
  · cases c <;> cases d <;> first | rfl | exact absurd h (by decide)

lemma taskKindAscii_injective : Function.Injective taskKindAscii := fun c d h => by
  cases c <;> cases d <;> first | rfl | exact absurd h (by decide)

lemma taskKindAscii_sized (kind : TaskKind) : TextSized (taskKindAscii kind) := by
  cases kind <;> decide

lemma code_capabilities :
    PrefixCodeOn {m : Capabilities | m.len < 2 ^ 64} capabilities := by
  have hentry := code_capability.pair code_capabilityState
  refine (code_u64.counted hentry).comp (f := fun m : Capabilities => m.entries)
    (fun m hm => ⟨hm, fun _ _ => ⟨trivial, trivial⟩⟩) fun m _ m' _ h => SortedMap.ext h

lemma code_unavailableReason :
    PrefixCodeOn Set.univ fun reason : GenerationUnavailableReason => text reason.ascii := by
  refine code_ascii (fun reason => ?_) fun c d h => ?_
  · cases reason <;> decide
  · cases c <;> cases d <;> first | rfl | exact absurd h (by decide)

lemma textSized_of_validOpaqueId {id : String} (h : validOpaqueId id) : TextSized id := by
  rw [validOpaqueId, decide_eq_true_eq] at h
  exact h.2.1.trans_lt (by norm_num)

lemma textSized_of_validDigest {digest : String} (h : validDigest digest) :
    TextSized digest := by
  rw [validDigest, decide_eq_true_eq] at h
  exact h.1.trans_lt (by norm_num)

/-- The first text of an observation says which variant it is. -/
lemma code_generation :
    PrefixCodeOn {g : GenerationObservation | g.valid = true} generation := by
  have hobserved : TextSized "observed" := by decide
  have hunavailable : TextSized "unavailable" := by decide
  intro a ha b hb s t heq
  cases a with
  | observed id =>
    cases b with
    | observed id' =>
      simp only [generation, List.append_assoc, List.append_cancel_left_eq] at heq
      obtain ⟨rfl, hst⟩ := code_text id (textSized_of_validOpaqueId ha) id'
        (textSized_of_validOpaqueId hb) s t heq
      exact ⟨rfl, hst⟩
    | unavailable reason =>
      simp only [generation, List.append_assoc] at heq
      exact absurd (code_text _ hobserved _ hunavailable _ _ heq).1 (by decide)
  | unavailable reason =>
    cases b with
    | observed id =>
      simp only [generation, List.append_assoc] at heq
      exact absurd (code_text _ hunavailable _ hobserved _ _ heq).1 (by decide)
    | unavailable reason' =>
      simp only [generation, List.append_assoc, List.append_cancel_left_eq] at heq
      obtain ⟨rfl, hst⟩ := code_unavailableReason reason trivial reason' trivial s t heq
      exact ⟨rfl, hst⟩

/-- The numbers of a valid budget are far below what a `u64` holds. -/
lemma lt_of_validateValues {b : DeepSemanticBudget} (hb : b.validateValues = .ok ()) :
    b.maxRecords < 2 ^ 64 ∧ b.maxSourceBytes < 2 ^ 64 ∧ b.maxEstimatedTokens < 2 ^ 64 ∧
      b.maxDepth < 2 ^ 64 ∧ b.maxWorkUnits < 2 ^ 64 ∧ b.uncertaintyReservePercent < 2 ^ 64 := by
  rw [DeepSemanticBudget.validateValues, ensure_eq_ok] at hb
  obtain ⟨-, hrecords, -, hsource, -, htokens, -, hdepth, -, hwork, -, hreserve⟩ := hb
  exact ⟨hrecords.trans_lt (by decide), hsource.trans_lt (by decide),
    htokens.trans_lt (by decide), hdepth.trans_lt (by decide), hwork.trans_lt (by decide),
    hreserve.trans_lt (by decide)⟩

/-- Six numbers, which are a budget but for its digest. -/
lemma budgetValues_inj {b b' : DeepSemanticBudget} (hb : b.validateValues = .ok ())
    (hb' : b'.validateValues = .ok ()) {s t : List UInt8}
    (heq : budgetValues b ++ s = budgetValues b' ++ t) (digest : String) :
    { b with budgetDigest := digest } = { b' with budgetDigest := digest } := by
  obtain ⟨h₁, h₂, h₃, h₄, h₅, h₆⟩ := lt_of_validateValues hb
  obtain ⟨h₁', h₂', h₃', h₄', h₅', h₆'⟩ := lt_of_validateValues hb'
  simp only [budgetValues, List.append_assoc] at heq
  obtain ⟨hrecords, heq⟩ := code_u64 _ h₁ _ h₁' _ _ heq
  obtain ⟨hsource, heq⟩ := code_u64 _ h₂ _ h₂' _ _ heq
  obtain ⟨htokens, heq⟩ := code_u64 _ h₃ _ h₃' _ _ heq
  obtain ⟨hdepth, heq⟩ := code_u64 _ h₄ _ h₄' _ _ heq
  obtain ⟨hwork, heq⟩ := code_u64 _ h₅ _ h₅' _ _ heq
  obtain ⟨hreserve, -⟩ := code_u64 _ h₆ _ h₆' _ _ heq
  rw [hrecords, hsource, htokens, hdepth, hwork, hreserve]

end Codes

/-! ## Accepted requests -/

/-- What `validate_request` fixes or bounds of the fields that are written. -/
structure Accepted (H : Hasher) (request : ContextRouteRequest) : Prop where
  schemaVersion : request.schemaVersion = contextRoutePolicyVersion
  classifierVersion : request.classifierVersion = taskClassifierVersion
  taskHash : validDigest request.normalizedTaskHash
  seeds : validDigest request.explicitSeeds.digest
  capabilities : request.callerCapabilities.len < 2 ^ 64
  generation : request.startingGeneration.valid
  budget : ∀ budget ∈ request.deepBudget, budget.validate H = .ok ()
  noProfiles : request.capabilityProfile = none ∧ request.costProfile = none ∧
    request.profileRegistryDigest = none
  contracts : request.deepContracts =
    ⟨deepPlannerVersion, deepProjectionVersion, contextIrVersion, deepEstimatorVersion⟩
  operations : request.lightOperations = expectedLightOperations

section Requests

variable {H : Hasher} {request request' : ContextRouteRequest}

lemma accepted_of_validateRequest (h : validateRequest H request = .ok ()) :
    Accepted H request := by
  rw [validateRequest] at h
  simp only [check_bind_eq_ok, ensure_eq_ok] at h
  obtain ⟨hschema, hclassifier, ⟨htask, hseeds, hlen⟩, hgeneration, -, -, -, -, hrest⟩ := h
  -- the checks behind the budget's are those of a request without one
  have htail : (∀ budget ∈ request.deepBudget, budget.validate H = .ok ()) ∧
      (request.capabilityProfile = none ∧ request.costProfile = none ∧
        request.profileRegistryDigest = none) ∧ request.deepContracts.validate = .ok () ∧
      request.lightOperations = expectedLightOperations := by
    split at hrest
    next budget hbudget =>
      simp only [check_bind_eq_ok, ensure_eq_ok] at hrest
      obtain ⟨hvalid, hprofiles, hcontracts, hoperations⟩ := hrest
      refine ⟨fun b hb => ?_, hprofiles, hcontracts, hoperations⟩
      obtain rfl : budget = b := by simpa [hbudget] using hb
      exact hvalid
    next hbudget =>
      simp only [check_bind_eq_ok, ensure_eq_ok] at hrest
      obtain ⟨-, hprofiles, hcontracts, hoperations⟩ := hrest
      exact ⟨by simp [hbudget], hprofiles, hcontracts, hoperations⟩
  obtain ⟨hbudget, hprofiles, hcontracts, hoperations⟩ := htail
  refine ⟨hschema, hclassifier, htask, hseeds, hlen.trans_lt (by decide), hgeneration, hbudget,
    hprofiles, ?_, hoperations⟩
  rw [DeepContractVersions.validate, ensure_eq_ok] at hcontracts
  obtain ⟨hplanner, hprojection, hir, hestimator⟩ := hcontracts
  rw [← hplanner, ← hprojection, ← hir, ← hestimator]

/-- A valid budget is determined by its numbers: its digest is theirs. -/
lemma deepBudget_inj (h : ∀ budget ∈ request.deepBudget, budget.validate H = .ok ())
    (h' : ∀ budget ∈ request'.deepBudget, budget.validate H = .ok ()) {s t : List UInt8}
    (heq : deepBudget request.deepBudget ++ s = deepBudget request'.deepBudget ++ t) :
    request.deepBudget = request'.deepBudget := by
  have hone : ([1] : List UInt8) ∈ {v : List UInt8 | v.length < 2 ^ 64} := by
    simp
  have hzero : ([0] : List UInt8) ∈ {v : List UInt8 | v.length < 2 ^ 64} := by
    simp
  cases hb : request.deepBudget with
  | none =>
    cases hb' : request'.deepBudget with
    | none => rfl
    | some b' =>
      rw [hb, hb'] at heq
      simp only [deepBudget, List.append_assoc] at heq
      exact absurd (code_bytes _ hzero _ hone _ _ heq).1 (by decide)
  | some b =>
    cases hb' : request'.deepBudget with
    | none =>
      rw [hb, hb'] at heq
      simp only [deepBudget, List.append_assoc] at heq
      exact absurd (code_bytes _ hone _ hzero _ _ heq).1 (by decide)
    | some b' =>
      rw [hb, hb'] at heq
      simp only [deepBudget, List.append_assoc, List.append_cancel_left_eq] at heq
      have hvalid := h b hb
      have hvalid' := h' b' hb'
      rw [DeepSemanticBudget.validate, check_bind_eq_ok, ensure_eq_ok] at hvalid hvalid'
      have hvalues := budgetValues_inj hvalid.1 hvalid'.1 heq
      have hnumbers := congrArg (DeepSemanticBudget.expectedDigest H) (hvalues "")
      have hdigest : b.expectedDigest H = b'.expectedDigest H := hnumbers
      have hsame : { b' with budgetDigest := b.budgetDigest } = b' := by
        rw [hvalid.2, hdigest, ← hvalid'.2]
      exact congrArg some ((hvalues b.budgetDigest).trans hsame)

/-- **The fields of an accepted request can be read back.** -/
lemma requestFields_inj (h : Accepted H request) (h' : Accepted H request')
    (hsized : request.explicitSeeds.Sized) (hsized' : request'.explicitSeeds.Sized)
    {s t : List UInt8} (heq : requestFields request ++ s = requestFields request' ++ t) :
    request = request' := by
  have hkind : ∀ (r : ContextRouteRequest), ∀ kind ∈ r.declaredKind.map taskKindAscii,
      TextSized kind := by
    intro r kind hmem
    obtain ⟨k, -, rfl⟩ := Option.map_eq_some_iff.mp hmem
    exact taskKindAscii_sized k
  -- the versions, the operations and the profiles are those of every accepted request
  unfold requestFields at heq
  simp only [h.classifierVersion, h'.classifierVersion, h.operations, h'.operations,
    h.contracts, h'.contracts, h.noProfiles, h'.noProfiles, List.append_assoc,
    List.append_cancel_left_eq] at heq
  obtain ⟨htask, heq⟩ := code_text _ (textSized_of_validDigest h.taskHash) _
    (textSized_of_validDigest h'.taskHash) _ _ heq
  obtain ⟨hdeclared, heq⟩ := code_optionalText _ (hkind request) _ (hkind request') _ _ heq
  obtain ⟨hclassifier, heq⟩ := code_text _ (taskKindAscii_sized _) _ (taskKindAscii_sized _)
    _ _ heq
  obtain ⟨hdigest, heq⟩ := code_text _ (textSized_of_validDigest h.seeds) _
    (textSized_of_validDigest h'.seeds) _ _ heq
  obtain ⟨hpaths, heq⟩ := code_u64 _ (hsized.pathCount.trans (by decide)) _
    (hsized'.pathCount.trans (by decide)) _ _ heq
  obtain ⟨hsymbols, heq⟩ := code_u64 _ (hsized.symbolCount.trans (by decide)) _
    (hsized'.symbolCount.trans (by decide)) _ _ heq
  obtain ⟨hcapabilities, heq⟩ := code_capabilities _ h.capabilities _ h'.capabilities _ _ heq
  obtain ⟨hintent, heq⟩ := code_intent _ trivial _ trivial _ _ heq
  obtain ⟨hfloor, heq⟩ := code_route _ trivial _ trivial _ _ heq
  obtain ⟨hceiling, heq⟩ := code_route _ trivial _ trivial _ _ heq
  simp only [List.append_cancel_left_eq] at heq
  obtain ⟨hgeneration, heq⟩ := code_generation _ h.generation _ h'.generation _ _ heq
  have hbudget := deepBudget_inj h.budget h'.budget heq
  have hseeds : request.explicitSeeds = request'.explicitSeeds := by
    rw [show request.explicitSeeds = ⟨_, _, _⟩ from rfl, hdigest, hpaths, hsymbols]
  cases request
  cases request'
  rw [ContextRouteRequest.mk.injEq]
  exact ⟨h.schemaVersion.trans h'.schemaVersion.symm, htask,
    Option.map_injective taskKindAscii_injective hdeclared, taskKindAscii_injective hclassifier,
    h.classifierVersion.trans h'.classifierVersion.symm, hseeds, hcapabilities, hintent, hfloor,
    hceiling, h.noProfiles.1.trans h'.noProfiles.1.symm,
    h.noProfiles.2.1.trans h'.noProfiles.2.1.symm,
    h.noProfiles.2.2.trans h'.noProfiles.2.2.symm, hgeneration,
    h.operations.trans h'.operations.symm, h.contracts.trans h'.contracts.symm, hbudget⟩

lemma decideContextRoute_eq_ok {decision : ContextRouteDecision} :
    decideContextRoute H request = .ok decision ↔
      validateRequest H request = .ok () ∧ decision = routeDecision H request := by
  rw [decideContextRoute, check_bind_eq_ok]
  exact and_congr_right fun _ => ⟨fun h => (Except.ok.inj h).symm, fun h => h ▸ rfl⟩

/-- The stream of a decision is read back up to the request, which decides the rest. -/
lemma decisionStream_inj (h : Accepted H request) (h' : Accepted H request')
    (hsized : request.explicitSeeds.Sized) (hsized' : request'.explicitSeeds.Sized)
    (heq : decisionStream (routeDecision H request) = decisionStream (routeDecision H request')) :
    request = request' := by
  simp only [decisionStream, List.append_assoc, List.append_cancel_left_eq] at heq
  have hversions : (routeDecision H request).request.schemaVersion =
      (routeDecision H request').request.schemaVersion :=
    h.schemaVersion.trans h'.schemaVersion.symm
  have hschema : (routeDecision H request).schemaVersion =
      (routeDecision H request').schemaVersion := rfl
  have hpolicy : (routeDecision H request).policyVersion =
      (routeDecision H request').policyVersion := rfl
  rw [hversions, hschema, hpolicy, List.append_cancel_left_eq, List.append_cancel_left_eq,
    List.append_cancel_left_eq] at heq
  exact requestFields_inj h h' hsized hsized' heq

end Requests

/-! ## The targets of a request -/

section Targets

variable {H : Hasher} {paths symbols paths' symbols' : List String} {a b : SeedSummary}

lemma pairwise_toBTreeSet {α : Type} [LinearOrder α] {inserted : List α} :
    (toBTreeSet inserted).Pairwise (· ≤ ·) :=
  (List.pairwise_insertionSort (· ≤ ·) inserted).sublist (List.dedup_sublist _)

/-- A set is written as one list. -/
lemma toBTreeSet_eq_iff {α : Type} [LinearOrder α] {inserted inserted' : List α} :
    toBTreeSet inserted = toBTreeSet inserted' ↔ ∀ a, a ∈ inserted ↔ a ∈ inserted' := by
  constructor
  · intro h a
    rw [← mem_toBTreeSet, h, mem_toBTreeSet]
  · intro h
    have hperm : List.Perm (toBTreeSet inserted) (toBTreeSet inserted') :=
      (List.perm_ext_iff_of_nodup (List.nodup_dedup _) (List.nodup_dedup _)).mpr fun a => by
        rw [← toBTreeSet, ← toBTreeSet, mem_toBTreeSet, mem_toBTreeSet, h]
    exact hperm.eq_of_pairwise (fun _ _ _ _ => le_antisymm) pairwise_toBTreeSet
      pairwise_toBTreeSet

/-- The bytes that stand for some targets. -/
def targetsStream (paths symbols : List String) : List UInt8 :=
  u64 paths.length ++ paths.flatMap text ++ u64 symbols.length ++ symbols.flatMap text

lemma fromTargets_eq_ok : SeedSummary.fromTargets H paths symbols = .ok a ↔
    (toBTreeSet paths).length < 2 ^ 32 ∧ (toBTreeSet symbols).length < 2 ^ 32 ∧
      a = ⟨digestOf H "workspace-atlas/context-route-seeds-v1"
          (targetsStream (toBTreeSet paths) (toBTreeSet symbols)),
        (toBTreeSet paths).length, (toBTreeSet symbols).length⟩ := by
  simp only [SeedSummary.fromTargets, check_bind_eq_ok, ensure_eq_ok]
  exact and_congr_right fun _ => and_congr_right fun _ =>
    ⟨fun h => (Except.ok.inj h).symm, fun h => h ▸ rfl⟩

/-- A strictly sorted list is the set it is collected into. -/
lemma toBTreeSet_eq_self {α : Type} [LinearOrder α] {inserted : List α}
    (h : inserted.Pairwise (· < ·)) : toBTreeSet inserted = inserted := by
  rw [toBTreeSet, (h.imp le_of_lt).insertionSort_eq, List.dedup_eq_self]
  exact h.imp ne_of_lt

/-- Targets that are sorted and listed once are written as they are. -/
lemma fromTargets_catalogueTargets (t : CatalogueTargets) :
    SeedSummary.fromTargets H t.seedPaths t.seedSymbols = .ok (t.summary H) := by
  have hbound := t.bounded
  rw [maxContextExecutionRecords] at hbound
  rw [fromTargets_eq_ok, toBTreeSet_eq_self t.pathsSorted, toBTreeSet_eq_self t.symbolsSorted]
  exact ⟨by omega, by omega, rfl⟩

lemma targetsStream_inj (hpaths : ∀ p ∈ paths, TextSized p) (hpaths' : ∀ p ∈ paths', TextSized p)
    (hsymbols : ∀ s ∈ symbols, TextSized s) (hsymbols' : ∀ s ∈ symbols', TextSized s)
    (hlength : paths.length < 2 ^ 64 ∧ symbols.length < 2 ^ 64)
    (hlength' : paths'.length < 2 ^ 64 ∧ symbols'.length < 2 ^ 64)
    (heq : targetsStream paths symbols = targetsStream paths' symbols') :
    paths = paths' ∧ symbols = symbols' := by
  have hcode := (code_u64.counted code_text).pair (code_u64.counted code_text)
  have hpair : (paths, symbols) = (paths', symbols') :=
    (hcode (paths, symbols) ⟨⟨hlength.1, hpaths⟩, hlength.2, hsymbols⟩ (paths', symbols')
      ⟨⟨hlength'.1, hpaths'⟩, hlength'.2, hsymbols'⟩ [] []
      (by simpa only [targetsStream, List.append_assoc] using congrArg (· ++ []) heq)).1
  exact ⟨congrArg Prod.fst hpair, congrArg Prod.snd hpair⟩

/-- Summaries of one digest are of the same sets. -/
lemma summary_eq_iff (hH : H.Injective) (hpaths : ∀ p ∈ paths, TextSized p)
    (hpaths' : ∀ p ∈ paths', TextSized p) (hsymbols : ∀ s ∈ symbols, TextSized s)
    (hsymbols' : ∀ s ∈ symbols', TextSized s)
    (ha : SeedSummary.fromTargets H paths symbols = .ok a)
    (hb : SeedSummary.fromTargets H paths' symbols' = .ok b) :
    a = b ↔ (∀ p, p ∈ paths ↔ p ∈ paths') ∧ ∀ s, s ∈ symbols ↔ s ∈ symbols' := by
  obtain ⟨hp, hs, rfl⟩ := fromTargets_eq_ok.mp ha
  obtain ⟨hp', hs', rfl⟩ := fromTargets_eq_ok.mp hb
  rw [← toBTreeSet_eq_iff, ← toBTreeSet_eq_iff, SeedSummary.mk.injEq]
  constructor
  · rintro ⟨hdigest, -, -⟩
    have hstream := List.append_cancel_left (hH.sha256 (toHex_injective hdigest))
    exact targetsStream_inj (fun p h => hpaths p (mem_toBTreeSet.mp h))
      (fun p h => hpaths' p (mem_toBTreeSet.mp h)) (fun s h => hsymbols s (mem_toBTreeSet.mp h))
      (fun s h => hsymbols' s (mem_toBTreeSet.mp h))
      ⟨hp.trans (by decide), hs.trans (by decide)⟩ ⟨hp'.trans (by decide), hs'.trans (by decide)⟩
      hstream
  · rintro ⟨hp, hs⟩
    rw [hp, hs]
    exact ⟨rfl, rfl, rfl⟩

end Targets

/-- **Decision identity is faithful**: the bytes that are hashed for the decisions on two
requests are equal exactly when the requests are, and two pairs of targets have one summary
exactly when they are of the same sets. -/
theorem decisionIdentity_faithful (H : Hasher) (hH : H.Injective) :
    (∀ request request' : ContextRouteRequest, ∀ decision decision' : ContextRouteDecision,
      request.explicitSeeds.Sized → request'.explicitSeeds.Sized →
      decideContextRoute H request = .ok decision →
      decideContextRoute H request' = .ok decision' →
        (decisionStream decision = decisionStream decision' ↔ request = request')) ∧
    ∀ paths symbols paths' symbols' : List String, ∀ a b : SeedSummary,
      (∀ target ∈ paths ++ symbols ++ paths' ++ symbols', TextSized target) →
      SeedSummary.fromTargets H paths symbols = .ok a →
      SeedSummary.fromTargets H paths' symbols' = .ok b →
        (a = b ↔ (∀ p, p ∈ paths ↔ p ∈ paths') ∧ ∀ s, s ∈ symbols ↔ s ∈ symbols') := by
  constructor
  · intro request request' decision decision' hsized hsized' hdecide hdecide'
    obtain ⟨hvalid, rfl⟩ := decideContextRoute_eq_ok.mp hdecide
    obtain ⟨hvalid', rfl⟩ := decideContextRoute_eq_ok.mp hdecide'
    constructor
    · exact decisionStream_inj (accepted_of_validateRequest hvalid)
        (accepted_of_validateRequest hvalid') hsized hsized'
    · rintro rfl
      rfl
  · intro paths symbols paths' symbols' a b hsized ha hb
    simp only [List.mem_append] at hsized
    exact summary_eq_iff hH (fun p h => hsized p (.inl (.inl (.inl h))))
      (fun p h => hsized p (.inl (.inr h))) (fun s h => hsized s (.inl (.inl (.inr h))))
      (fun s h => hsized s (.inr h)) ha hb

lemma sorted_identityLookup (state : CallerCapabilityState) :
    ([(RequiredCapability.identityLookup, state)].map Prod.fst).Pairwise (· < ·) := by
  simp

/-- A request on LIGHT for an identity that the caller lacks or does not know of. -/
def lightRequest (state : CallerCapabilityState) : ContextRouteRequest :=
  { sampleRequest ⟨[(.identityLookup, state)], sorted_identityLookup state⟩ with
    routeCeiling := .atlasLight
    deepBudget := none }

lemma decisionIdentity_faithful_lightRequest :
    decisionStream (routeDecision .plain (lightRequest .unsatisfied)) ≠
        decisionStream (routeDecision .plain (lightRequest .unknown)) ∧
      ∃ summary, SeedSummary.fromTargets .plain ["a", "b", "a"] ["s"] = .ok summary ∧
        SeedSummary.fromTargets .plain ["b", "a"] ["s"] = .ok summary := by
  obtain ⟨hstreams, hsummaries⟩ := decisionIdentity_faithful .plain Hasher.plain_injective
  constructor
  · intro heq
    have hsame := (hstreams (lightRequest .unsatisfied) (lightRequest .unknown) _ _
      ⟨by decide, by decide⟩ ⟨by decide, by decide⟩
      (decideContextRoute_eq_ok.mpr ⟨by decide +kernel, rfl⟩)
      (decideContextRoute_eq_ok.mpr ⟨by decide +kernel, rfl⟩)).mp heq
    exact absurd (congrArg ContextRouteRequest.callerCapabilities hsame) (by decide)
  · have hfirst : SeedSummary.fromTargets .plain ["a", "b", "a"] ["s"] = .ok _ :=
      fromTargets_eq_ok.mpr ⟨by decide, by decide, rfl⟩
    have hsecond : SeedSummary.fromTargets .plain ["b", "a"] ["s"] = .ok _ :=
      fromTargets_eq_ok.mpr ⟨by decide, by decide, rfl⟩
    have hsame := (hsummaries _ _ _ _ _ _ (by decide) hfirst hsecond).mpr
      ⟨by simp [or_comm], fun _ => Iff.rfl⟩
    exact ⟨_, hfirst, hsame ▸ hsecond⟩

end WorkspaceAtlas.ContextRoute
