/-
# The lifecycle history

`query::history`: the lifecycle events of a workspace, the most recent first, each deletion
with its tombstone.
-/
import WorkspaceAtlas.Catalogue.Schema
import Mathlib.Data.String.Basic
import Mathlib.Data.List.Sort

namespace WorkspaceAtlas

open Relational

/-- `HistoryEvent`: the row of an event and that of its tombstone; the output shows a part of
their columns. -/
structure HistoryEvent where
  event : LifecycleEvent
  tombstone : Option Tombstone
  deriving DecidableEq, Repr

/-- `HistoryOutput`. -/
structure HistoryOutput where
  events : List HistoryEvent
  truncated : Bool
  totalMatched : ℕ
  deriving DecidableEq, Repr

/-- `WHERE workspace_id = ?1 AND (old_path = ?2 OR new_path = ?2)`. -/
def matchesHistory (workspaceId : String) (path : Option String) (e : LifecycleEvent) : Bool :=
  e.workspaceId = workspaceId ∧
    ∀ p ∈ path, e.oldPath = some p ∨ e.newPath = some p

/-- `ORDER BY occurred_at DESC, event_id DESC`. -/
def isLater (a b : LifecycleEvent) : Bool :=
  b.occurredAt < a.occurredAt ∨ a.occurredAt = b.occurredAt ∧ b.eventId ≤ a.eventId

/-- The tombstone that `history` attaches to an event. -/
def historyTombstone (c : Catalogue) (e : LifecycleEvent) : Option Tombstone :=
  if e.eventType = .deleted then
    c.tombstone.find? fun t => t.deletionEventId = e.eventId
  else none

/-- `history`. -/
def history (c : Catalogue) (workspaceId : String) (path : Option String) (limit : ℤ) :
    HistoryOutput :=
  let found := c.lifecycleEvent.rows.filter (matchesHistory workspaceId path)
  let events := (found.mergeSort isLater).take (max limit 1).toNat
  { events := events.map fun e => ⟨e, historyTombstone c e⟩
    truncated := found.length > events.length
    totalMatched := found.length }

/-- A history that is not cut off has every event of the workspace. -/
lemma mem_history {c : Catalogue} {ws : String} {limit : ℤ} {e : LifecycleEvent}
    (hlimit : (history c ws none limit).totalMatched ≤ limit) :
    (∃ h ∈ (history c ws none limit).events, h.event = e) ↔
      e ∈ c.lifecycleEvent ∧ e.workspaceId = ws := by
  have hlength : ((c.lifecycleEvent.rows.filter (matchesHistory ws none)).mergeSort
      isLater).length ≤ (max limit 1).toNat := by
    rw [List.length_mergeSort]
    have : ((c.lifecycleEvent.rows.filter (matchesHistory ws none)).length : ℤ) ≤ limit := hlimit
    omega
  have hmem : (∃ h ∈ (history c ws none limit).events, h.event = e) ↔
      e ∈ c.lifecycleEvent.rows.filter (matchesHistory ws none) := by
    simp only [history, List.take_of_length_le hlength]
    constructor
    · rintro ⟨h, hh, rfl⟩
      obtain ⟨e', he', rfl⟩ := List.mem_map.mp hh
      exact List.mem_mergeSort.mp he'
    · exact fun he => ⟨_, List.mem_map_of_mem (List.mem_mergeSort.mpr he), rfl⟩
  rw [hmem, List.mem_filter]
  simp [matchesHistory, Table.mem_def]

end WorkspaceAtlas
