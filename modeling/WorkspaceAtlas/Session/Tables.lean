/-
# The tables of task sessions

What `context_intelligence_foundation` adds for task sessions: the contexts compiled for a
session, their items, the events of a timeline and the timings of queries.  A session and a
context are deleted together with what references them, as the foreign keys say.
-/
import WorkspaceAtlas.Delta.Live

namespace WorkspaceAtlas

open Relational

/-! ## Rows -/

/-- The types of events. -/
inductive ContextUseEventType where
  | contextSupplied
  | exactSourceRequested
  | entityQueried
  | relationshipTraversed
  | contextRecompiled
  | artifactChanged
  | validationSelected
  | reasoningUseReported
  | modificationTargetReported
  | testConsideredReported
  | outcomeRecorded
  deriving DecidableEq, Repr

/-- The text of a type. -/
def ContextUseEventType.asStr : ContextUseEventType → String
  | contextSupplied => "context_supplied"
  | exactSourceRequested => "exact_source_requested"
  | entityQueried => "entity_queried"
  | relationshipTraversed => "relationship_traversed"
  | contextRecompiled => "context_recompiled"
  | artifactChanged => "artifact_changed"
  | validationSelected => "validation_selected"
  | reasoningUseReported => "reasoning_use_reported"
  | modificationTargetReported => "modification_target_reported"
  | testConsideredReported => "test_considered_reported"
  | outcomeRecorded => "outcome_recorded"

/-- Who observed an event. -/
inductive ObservationSource where
  | atlasObserved
  | agentReported
  | operatorReported
  deriving DecidableEq, Repr

/-- The text of an observer. -/
def ObservationSource.asStr : ObservationSource → String
  | atlasObserved => "atlas_observed"
  | agentReported => "agent_reported"
  | operatorReported => "operator_reported"

/-- A row of `context_ir`, less what was compiled. -/
structure ContextIr where
  contextId : String
  taskSessionId : String
  workspaceId : String
  deriving DecidableEq, Repr

instance : Keyed ContextIr := .ofKey ContextIr.contextId

/-- A row of `context_ir_item`, less the item. -/
structure ContextIrItem where
  contextId : String
  ordinal : ℕ
  itemId : String
  deriving DecidableEq, Repr

instance : Keyed ContextIrItem where
  Clash a b := a.contextId = b.contextId ∧ (a.ordinal = b.ordinal ∨ a.itemId = b.itemId)
  decideClash _ _ := inferInstance
  clash_refl _ := ⟨rfl, Or.inl rfl⟩
  clash_symm h := ⟨h.1.symm, h.2.imp Eq.symm Eq.symm⟩

/-- A row of `context_use_event`. -/
structure ContextUseEvent where
  eventId : String
  taskSessionId : String
  contextId : Option String
  itemId : Option String
  entityId : Option String
  eventType : ContextUseEventType
  observationSource : ObservationSource
  byteCount : Option ℕ
  detailsJson : String
  occurredAt : String
  deriving DecidableEq, Repr

instance : Keyed ContextUseEvent := .ofKey ContextUseEvent.eventId

/-- A row of `query_stage_metric`, less its measurements. -/
structure QueryStageMetric where
  metricId : String
  workspaceId : String
  taskSessionId : Option String
  contextId : Option String
  createdAt : Timestamp
  deriving DecidableEq, Repr

instance : Keyed QueryStageMetric := .ofKey QueryStageMetric.metricId

/-- The database: the catalogue, the persisted deltas and the tables of the sessions. -/
@[ext] structure SessionStore where
  catalogue : Catalogue
  deltas : Delta.DeltaStore
  contextIr : Table ContextIr
  contextIrItem : Table ContextIrItem
  contextUseEvent : Table ContextUseEvent
  queryStageMetric : Table QueryStageMetric

namespace SessionStore

/-- The sessions. -/
def taskSession (s : SessionStore) : Table TaskSession := s.catalogue.taskSession

/-- A database with some sessions in place of its own. -/
def withSessions (s : SessionStore) (t : Table TaskSession) : SessionStore :=
  { s with catalogue := { s.catalogue with taskSession := t } }

/-- No deltas, contexts, events and metrics. -/
def ofCatalogue (c : Catalogue) : SessionStore :=
  ⟨c, ⟨.empty, .empty⟩, .empty, .empty, .empty, .empty⟩

end SessionStore

/-! ## Deletions -/

/-- A value that is left out if it meets a condition. -/
def clearIf (p : String → Bool) (x : Option String) : Option String := x.filter fun v => !p v

lemma clearIf_eq_self {p : String → Bool} {x : Option String} (h : ∀ v, x = some v → p v = false) :
    clearIf p x = x := by
  cases x with
  | none => rfl
  | some v => simp [clearIf, h v rfl]

/-- `ON DELETE SET NULL` of the context of an event. -/
def ContextUseEvent.clearContext (p : String → Bool) : Table.Update ContextUseEvent where
  toFun e := { e with contextId := clearIf p e.contextId }
  clash_left _ _ := Iff.rfl

/-- `ON DELETE SET NULL` of the context of a metric. -/
def QueryStageMetric.clearContext (p : String → Bool) : Table.Update QueryStageMetric where
  toFun m := { m with contextId := clearIf p m.contextId }
  clash_left _ _ := Iff.rfl

/-- `ON DELETE SET NULL` of the session of a metric. -/
def QueryStageMetric.clearSession (p : String → Bool) : Table.Update QueryStageMetric where
  toFun m := { m with taskSessionId := clearIf p m.taskSessionId }
  clash_left _ _ := Iff.rfl

namespace SessionStore

variable (s : SessionStore)

/-- The id of one of the contexts that meet a condition. -/
def isContextOf (p : ContextIr → Bool) (contextId : String) : Bool :=
  s.contextIr.rows.any fun c => p c && c.contextId = contextId

/-- The id of one of the sessions that meet a condition. -/
def isSessionOf (p : TaskSession → Bool) (taskSessionId : String) : Bool :=
  s.taskSession.rows.any fun ts => p ts && ts.taskSessionId = taskSessionId

/-- `DELETE FROM context_ir WHERE p`. -/
def deleteContexts (p : ContextIr → Bool) : SessionStore :=
  { s with
    contextIr := s.contextIr.delete p
    contextIrItem := s.contextIrItem.delete fun i => s.isContextOf p i.contextId
    contextUseEvent := s.contextUseEvent.update (fun _ => true)
      (ContextUseEvent.clearContext (s.isContextOf p))
    queryStageMetric := s.queryStageMetric.update (fun _ => true)
      (QueryStageMetric.clearContext (s.isContextOf p)) }

/-- `DELETE FROM context_use_event WHERE p`. -/
def deleteEvents (p : ContextUseEvent → Bool) : SessionStore :=
  { s with contextUseEvent := s.contextUseEvent.delete p }

/-- `DELETE FROM query_stage_metric WHERE p`. -/
def deleteMetrics (p : QueryStageMetric → Bool) : SessionStore :=
  { s with queryStageMetric := s.queryStageMetric.delete p }

/-- `DELETE FROM task_session WHERE p`. -/
def deleteSessions (p : TaskSession → Bool) : SessionStore :=
  let s' := (s.deleteContexts fun c => s.isSessionOf p c.taskSessionId).deleteEvents
    fun e => s.isSessionOf p e.taskSessionId
  { s'.withSessions (s.taskSession.delete p) with
    queryStageMetric := s'.queryStageMetric.update (fun _ => true)
      (QueryStageMetric.clearSession (s.isSessionOf p)) }

/-- `UPDATE task_session SET f WHERE p`. -/
def updateSessions (p : TaskSession → Bool) (f : Table.Update TaskSession) : SessionStore :=
  s.withSessions (s.taskSession.update p f)

end SessionStore

end WorkspaceAtlas
