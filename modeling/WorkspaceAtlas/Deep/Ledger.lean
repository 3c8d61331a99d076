/-
# The work ledger of a request

`DeepWorkLedger` in `task_compiler.rs`.  Work is charged before it is done.  The rows of a query
are reserved before it is run, and what it did not fetch is given back.
-/
import WorkspaceAtlas.Catalogue.Schema
import WorkspaceAtlas.Session.Metrics
import WorkspaceAtlas.Transition.Check

namespace WorkspaceAtlas.Deep

open Relational Transition

/-- `DeepWorkLedger`. -/
@[ext] structure DeepWorkLedger where
  limit : ℕ
  consumed : ℕ
  sqlRowsFetched : ℕ
  deriving DecidableEq, Repr

namespace DeepWorkLedger

/-- `DeepWorkLedger::new`. -/
def new (limit : ℕ) : DeepWorkLedger := ⟨limit, 0, 0⟩

/-- `DeepWorkLedger::continue_from`. -/
def continueFrom (limit consumed : ℕ) : Except AtlasError DeepWorkLedger := do
  ensure (consumed ≤ limit) (.invalidConfig "V2 prior work exceeds its request budget")
  return ⟨limit, consumed, 0⟩

/-- `DeepWorkLedger::remaining`. -/
def remaining (L : DeepWorkLedger) : ℕ := L.limit - L.consumed

/-- `DeepWorkLedger::try_charge`. -/
def tryCharge (L : DeepWorkLedger) (units : ℕ) : Except AtlasError (Bool × DeepWorkLedger) := do
  let next ← checkedAdd (.invalidConfig "V2 work-unit accounting overflow") L.consumed units
  return if L.limit < next then (false, L) else (true, { L with consumed := next })

/-- `DeepWorkLedger::reserve_sql_rows`, with the units of the reservation. -/
def reserveSqlRows (L : DeepWorkLedger) (units : ℕ) : Except AtlasError (ℕ × DeepWorkLedger) := do
  let exceeds := AtlasError.invalidConfig "V2 seed query exceeds its remaining work-unit budget"
  ensure (units ≠ 0) exceeds
  let (granted, L) ← L.tryCharge units
  ensure (granted = true) exceeds
  return (units, L)

/-- `DeepWorkLedger::settle_sql_rows`. -/
def settleSqlRows (L : DeepWorkLedger) (reservation rowsFetched : ℕ) :
    Except AtlasError DeepWorkLedger := do
  ensure (rowsFetched ≤ reservation)
    (.invalidConfig "V2 seed query exceeded its reserved row bound")
  let fetched ← checkedAdd (.invalidConfig "V2 SQL result-row accounting overflow")
    L.sqlRowsFetched rowsFetched
  return { L with
    consumed := L.consumed - (reservation - rowsFetched)
    sqlRowsFetched := fetched }

variable {L L' : DeepWorkLedger} {units : ℕ}

/-- A charge fits into the limit, does not fit, or overflows. -/
lemma tryCharge_eq : L.tryCharge units =
    if 2 ^ 64 ≤ L.consumed + units then
      .error (.invalidConfig "V2 work-unit accounting overflow")
    else if L.limit < L.consumed + units then .ok (false, L)
    else .ok (true, { L with consumed := L.consumed + units }) := by
  rw [tryCharge, checkedAdd]
  by_cases hlt : L.consumed + units < 2 ^ 64
  · rw [if_pos hlt, if_neg (Nat.not_le.mpr hlt)]
    by_cases hlimit : L.limit < L.consumed + units
    · simp [hlimit, bind, Except.bind, pure, Except.pure]
    · simp [hlimit, bind, Except.bind, pure, Except.pure]
  · rw [if_neg hlt, if_pos (Nat.not_lt.mp hlt)]
    rfl

/-- A charge that was granted. -/
lemma tryCharge_granted : L.tryCharge units = .ok (true, L') ↔
    L.consumed + units < 2 ^ 64 ∧ L.consumed + units ≤ L.limit ∧
      L' = { L with consumed := L.consumed + units } := by
  rw [tryCharge_eq]
  by_cases hover : 2 ^ 64 ≤ L.consumed + units
  · rw [if_pos hover]
    exact iff_of_false (by simp) fun h => absurd h.1 (Nat.not_lt.mpr hover)
  · rw [if_neg hover]
    by_cases hlimit : L.limit < L.consumed + units
    · rw [if_pos hlimit]
      exact iff_of_false (by simp) fun h => absurd h.2.1 (Nat.not_le.mpr hlimit)
    · rw [if_neg hlimit, Except.ok.injEq, Prod.mk.injEq]
      constructor
      · rintro ⟨-, rfl⟩
        exact ⟨Nat.not_le.mp hover, Nat.not_lt.mp hlimit, rfl⟩
      · rintro ⟨-, -, rfl⟩
        exact ⟨rfl, rfl⟩

/-- Rows that were reserved. -/
lemma reserveSqlRows_ok {reservation : ℕ} :
    L.reserveSqlRows units = .ok (reservation, L') ↔ units ≠ 0 ∧ L.consumed + units < 2 ^ 64 ∧
      L.consumed + units ≤ L.limit ∧ reservation = units ∧
      L' = { L with consumed := L.consumed + units } := by
  unfold reserveSqlRows
  simp only [bind_ok, Prod.exists]
  constructor
  · rintro ⟨⟨⟩, hunits, granted, L₁, hcharge, ⟨⟩, hgranted, hret⟩
    obtain rfl := ensure_eq_ok.mp hgranted
    obtain ⟨hlt, hle, rfl⟩ := tryCharge_granted.mp hcharge
    obtain ⟨rfl, rfl⟩ := Prod.mk.inj (Except.ok.inj hret)
    exact ⟨ensure_eq_ok.mp hunits, hlt, hle, rfl, rfl⟩
  · rintro ⟨hunits, hlt, hle, rfl, rfl⟩
    exact ⟨(), ensure_eq_ok.mpr hunits, true, _, tryCharge_granted.mpr ⟨hlt, hle, rfl⟩, (),
      ensure_eq_ok.mpr rfl, rfl⟩

/-- Rows that were fetched: what was not is given back. -/
lemma settleSqlRows_ok {reservation rowsFetched : ℕ} :
    L.settleSqlRows reservation rowsFetched = .ok L' ↔ rowsFetched ≤ reservation ∧
      L.sqlRowsFetched + rowsFetched < 2 ^ 64 ∧
      L' = { L with
        consumed := L.consumed - (reservation - rowsFetched)
        sqlRowsFetched := L.sqlRowsFetched + rowsFetched } := by
  unfold settleSqlRows
  simp only [bind_ok, checkedAdd_ok]
  constructor
  · rintro ⟨⟨⟩, hle, fetched, ⟨hlt, rfl⟩, hret⟩
    exact ⟨ensure_eq_ok.mp hle, hlt, (Except.ok.inj hret).symm⟩
  · rintro ⟨hle, hlt, rfl⟩
    exact ⟨(), ensure_eq_ok.mpr hle, _, ⟨hlt, rfl⟩, rfl⟩

end DeepWorkLedger

end WorkspaceAtlas.Deep
