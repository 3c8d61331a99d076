/-
# Context yield

`context_metrics.rs`: the evidence of a task session is reduced to six sets of identities and
five fractions.  A set is kept as a `Finset` and a map as a sorted map; a sum of numbers of 64
bits is checked at every step.
-/
import Mathlib.Algebra.BigOperators.Group.Finset.Basic
import Mathlib.Algebra.Order.BigOperators.Group.Finset
import Mathlib.Data.Prod.Lex
import Mathlib.Data.String.Basic
import Mathlib.Order.WithBot
import WorkspaceAtlas.Relational.SortedMap
import WorkspaceAtlas.Transition.Loop

namespace WorkspaceAtlas

open Relational Transition

/-! ## Checked sums -/

section Checked

variable {ε : Type} {e : ε} {l : List ℕ} {m n : ℕ}

/-- `checked_add`, with the error `e` where it overflows. -/
def checkedAdd (e : ε) (m n : ℕ) : Except ε ℕ := if m + n < 2 ^ 64 then .ok (m + n) else .error e

lemma checkedAdd_ok {r : ℕ} : checkedAdd e m n = .ok r ↔ m + n < 2 ^ 64 ∧ m + n = r := by
  unfold checkedAdd
  by_cases h : m + n < 2 ^ 64
  · rw [if_pos h, Except.ok.injEq]
    exact (and_iff_right h).symm
  · rw [if_neg h]
    exact iff_of_false (by simp) fun hr => h hr.1

/-- `try_fold` with `checked_add`. -/
def checkedSum (e : ε) (l : List ℕ) : Except ε ℕ := l.foldlM (checkedAdd e) 0

/-- No sum on the way is larger than the last one. -/
lemma foldlM_checkedAdd_ok {r : ℕ} (hm : m < 2 ^ 64) :
    l.foldlM (checkedAdd e) m = .ok r ↔ m + l.sum < 2 ^ 64 ∧ m + l.sum = r := by
  induction l generalizing m with
  | nil =>
    rw [List.foldlM_nil, List.sum_nil, Nat.add_zero]
    constructor
    · intro h
      exact ⟨hm, Except.ok.inj h⟩
    · rintro ⟨-, rfl⟩
      rfl
  | cons n l ih =>
    rw [foldlM_cons_ok, List.sum_cons]
    constructor
    · rintro ⟨s, hs, h⟩
      obtain ⟨hlt, rfl⟩ := checkedAdd_ok.mp hs
      obtain ⟨hsum, hr⟩ := (ih hlt).mp h
      omega
    · rintro ⟨hsum, hr⟩
      have hlt : m + n < 2 ^ 64 := by omega
      exact ⟨m + n, checkedAdd_ok.mpr ⟨hlt, rfl⟩, (ih hlt).mpr (by omega)⟩

lemma checkedSum_ok {r : ℕ} : checkedSum e l = .ok r ↔ l.sum < 2 ^ 64 ∧ l.sum = r := by
  rw [checkedSum, foldlM_checkedAdd_ok (by decide), Nat.zero_add]

end Checked

/-! ## Identities -/

/-- `CanonicalEvidenceKind`. -/
inductive CanonicalEvidenceKind where
  | file
  | symbol
  | config
  | test
  | query
  | document
  | external
  | relationship
  | range
  deriving DecidableEq, Repr

/-- `CanonicalRange`. -/
structure CanonicalRange where
  start : ℕ
  stop : ℕ
  deriving DecidableEq, Repr

/-- `CanonicalEvidenceId`. -/
structure CanonicalEvidenceId where
  kind : CanonicalEvidenceKind
  id : String
  range : Option CanonicalRange
  deriving DecidableEq, Repr

namespace CanonicalEvidenceId

/-- What identities are compared by. -/
def orderKey (i : CanonicalEvidenceId) : ℕ ×ₗ String ×ₗ WithBot (ℕ ×ₗ ℕ) :=
  toLex (i.kind.ctorIdx, toLex (i.id, i.range.elim ⊥ fun r => (toLex (r.start, r.stop) :)))

lemma orderKey_injective : Function.Injective orderKey := by
  rintro ⟨k, i, r⟩ ⟨k', i', r'⟩ h
  simp only [orderKey, toLex_inj, Prod.mk.injEq] at h
  obtain ⟨hkind, rfl, hrange⟩ := h
  have hkind : k = k' := by
    cases k <;> cases k' <;> first | rfl | exact absurd hkind (by decide)
  have hrange : r = r' := by
    cases r with
    | none => cases r' with
      | none => rfl
      | some r' => exact absurd hrange.symm WithBot.coe_ne_bot
    | some r => cases r' with
      | none => exact absurd hrange WithBot.coe_ne_bot
      | some r' =>
        obtain ⟨hstart, hstop⟩ := Prod.mk.inj (toLex.injective (WithBot.coe_injective hrange))
        cases r
        cases r'
        simp_all
  rw [hkind, hrange]

instance : LinearOrder CanonicalEvidenceId := LinearOrder.lift' orderKey orderKey_injective

end CanonicalEvidenceId

/-! ## Evidence -/

/-- `SuppliedEvidence`. -/
structure SuppliedEvidence where
  identity : CanonicalEvidenceId
  exactSourceBytes : ℕ
  deriving DecidableEq, Repr

/-- `ObservedEvidence`. -/
structure ObservedEvidence where
  identity : CanonicalEvidenceId
  deriving DecidableEq, Repr

/-- `ContextMetricEvidence`. -/
structure ContextMetricEvidence where
  supplied : List SuppliedEvidence
  reads : List ObservedEvidence
  reported : List CanonicalEvidenceId
  changed : List CanonicalEvidenceId
  deriving DecidableEq, Repr

/-- `MetricUnit`. -/
inductive MetricUnit where
  | items
  | requests
  | bytes
  deriving DecidableEq, Repr

/-- `EvidenceClass`. -/
inductive EvidenceClass where
  | atlasObserved
  | reportedUse
  | observedAndReported
  deriving DecidableEq, Repr

/-- `ContextMetricInvalidity`. -/
inductive ContextMetricInvalidity where
  | zeroDenominator
  | invalidIdentity
  | invalidRange (start stop : ℕ)
  | invalidSourceBytes (identity : CanonicalEvidenceId)
  | missingEvidenceIdentity (eventId : String)
  | unsupportedEntityKind (eventId entityKind : String)
  | conflictingSuppliedBytes (identity : CanonicalEvidenceId)
  | capacityExceeded (limit actual : ℕ)
  | arithmeticOverflow
  deriving DecidableEq, Repr

/-- `MetricFraction`. -/
structure MetricFraction where
  numerator : ℕ
  denominator : ℕ
  unit : MetricUnit
  evidenceClass : EvidenceClass
  invalidity : Option ContextMetricInvalidity
  deriving DecidableEq, Repr

/-- `ContextMetrics`. -/
structure ContextMetrics where
  supplied : Finset CanonicalEvidenceId
  observed : Finset CanonicalEvidenceId
  reported : Finset CanonicalEvidenceId
  changed : Finset CanonicalEvidenceId
  expanded : Finset CanonicalEvidenceId
  rediscovered : Finset CanonicalEvidenceId
  contextPrecisionObserved : MetricFraction
  contextPrecisionReported : MetricFraction
  contextExpansionCount : MetricFraction
  rediscoveryRate : MetricFraction
  sourceEfficiencyObserved : MetricFraction
  deriving DecidableEq

/-! ## The derivation -/

/-- `MAX_CONTEXT_METRIC_EVIDENCE`. -/
def maxContextMetricEvidence : ℕ := 4096

/-- `metric`. -/
def metric (numerator denominator : ℕ) (unit : MetricUnit) (evidenceClass : EvidenceClass) :
    MetricFraction :=
  ⟨numerator, denominator, unit, evidenceClass,
    if denominator = 0 then some .zeroDenominator else none⟩

/-- `usize_to_u64`. -/
def usizeToU64 (value : ℕ) : Except ContextMetricInvalidity ℕ :=
  if value < 2 ^ 64 then .ok value else .error .arithmeticOverflow

/-- The number of records, added up list by list. -/
def recordCount (evidence : ContextMetricEvidence) : Except ContextMetricInvalidity ℕ := do
  let count ← checkedAdd .arithmeticOverflow evidence.supplied.length evidence.reads.length
  let count ← checkedAdd .arithmeticOverflow count evidence.reported.length
  checkedAdd .arithmeticOverflow count evidence.changed.length

/-- The body of the loop over the supplied evidence. -/
def supply (suppliedBytes : SortedMap CanonicalEvidenceId ℕ) (item : SuppliedEvidence) :
    Except ContextMetricInvalidity (SortedMap CanonicalEvidenceId ℕ) :=
  match suppliedBytes.get item.identity with
  | some bytes =>
    if bytes ≠ item.exactSourceBytes then .error (.conflictingSuppliedBytes item.identity)
    else .ok suppliedBytes
  | none => .ok (suppliedBytes.insert item.identity item.exactSourceBytes)

/-- `derive_context_metrics`. -/
def deriveContextMetrics (evidence : ContextMetricEvidence) :
    Except ContextMetricInvalidity ContextMetrics := do
  let actual ← recordCount evidence
  if maxContextMetricEvidence < actual then
    .error (.capacityExceeded maxContextMetricEvidence actual)
  else
    let suppliedBytes ← evidence.supplied.foldlM supply .empty
    let supplied := suppliedBytes.keys.toFinset
    let observed := (evidence.reads.map ObservedEvidence.identity).toFinset
    let reported := evidence.reported.toFinset
    let changed := evidence.changed.toFinset
    let expanded := (observed ∪ reported).filter fun identity => identity ∉ supplied
    let rediscovered := observed ∩ supplied
    let observedSupplied := (observed ∩ supplied).card
    let reportedSupplied := (reported ∩ supplied).card
    let rediscoveryRequests := evidence.reads.countP fun read => read.identity ∈ supplied
    let suppliedSourceBytes ← checkedSum .arithmeticOverflow suppliedBytes.values
    let observedSuppliedSourceBytes ← checkedSum .arithmeticOverflow
      ((suppliedBytes.entries.filter fun entry => entry.1 ∈ observed).map Prod.snd)
    let contextPrecisionObserved := metric (← usizeToU64 observedSupplied)
      (← usizeToU64 supplied.card) .items .atlasObserved
    let contextPrecisionReported := metric (← usizeToU64 reportedSupplied)
      (← usizeToU64 supplied.card) .items .reportedUse
    let contextExpansionCount := metric (← usizeToU64 expanded.card) 1 .items
      .observedAndReported
    let rediscoveryRate := metric (← usizeToU64 rediscoveryRequests)
      (← usizeToU64 evidence.reads.length) .requests .atlasObserved
    let sourceEfficiencyObserved := metric observedSuppliedSourceBytes suppliedSourceBytes
      .bytes .atlasObserved
    return {
      supplied := supplied
      observed := observed
      reported := reported
      changed := changed
      expanded := expanded
      rediscovered := rediscovered
      contextPrecisionObserved := contextPrecisionObserved
      contextPrecisionReported := contextPrecisionReported
      contextExpansionCount := contextExpansionCount
      rediscoveryRate := rediscoveryRate
      sourceEfficiencyObserved := sourceEfficiencyObserved }

end WorkspaceAtlas
