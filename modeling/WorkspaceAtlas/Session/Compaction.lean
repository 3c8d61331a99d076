/-
# Privacy compaction

`apply_privacy_compaction_inner`: the manifest is computed again in one transaction, and if its
digest is the one that was confirmed, what it lists is deleted, entry by entry.  What all entries
do together is one deletion in each table.
-/
import WorkspaceAtlas.Session.Retention

namespace WorkspaceAtlas

open Relational

/-! ## The transaction -/

/-- `PrivacyCompactionFault`. -/
inductive PrivacyCompactionFault where
  | none
  | beforeCommit
  deriving DecidableEq, Repr

/-- `PrivacyCompactionResult`. -/
structure PrivacyCompactionResult where
  deletedSessions : ℕ
  deletedContexts : ℕ
  deletedEvents : ℕ
  deletedMetrics : ℕ
  deriving DecidableEq, Repr

/-- `PrivacyCompactionApplyError`. -/
inductive PrivacyCompactionApplyError where
  | atlas (error : AtlasError)
  | literalConfirmation
  | manifestMismatch (expected found : String)
  deriving DecidableEq, Repr

/-- `PRIVACY_DELETION_CONFIRMATION`. -/
def privacyDeletionConfirmation : String := "--confirm-privacy-deletion"

/-- What SQLite refuses of a transaction: its start, a statement of an entry, or the commit. -/
structure SqliteFaults where
  start : Option SqliteError
  entry : PrivacyCompactionEntry → Option SqliteError
  commit : Option SqliteError

/-- Nothing is refused. -/
def SqliteFaults.none : SqliteFaults := ⟨.none, fun _ => .none, .none⟩

/-- An immediate transaction: what its body changed is kept if it succeeds. -/
def transaction {ε α : Type} (s : SessionStore) (body : Except ε (α × SessionStore)) :
    Except ε α × SessionStore :=
  match body with
  | .error e => (.error e, s)
  | .ok (a, s') => (.ok a, s')

lemma transaction_error {ε α : Type} {s : SessionStore} {body : Except ε (α × SessionStore)} {e : ε}
    (h : (transaction s body).1 = .error e) : (transaction s body).2 = s := by
  cases body with
  | error e => rfl
  | ok acc => exact absurd h (by simp [transaction])

lemma transaction_ok {ε α : Type} {s : SessionStore} {body : Except ε (α × SessionStore)} {a : α}
    (h : (transaction s body).1 = .ok a) : body = .ok (a, (transaction s body).2) := by
  cases body with
  | error e => exact absurd h (by simp [transaction])
  | ok acc =>
    obtain rfl := Except.ok.inj h
    rfl

/-- `SET raw_task = NULL, raw_task_retention = 'none'`. -/
def clearRawTask : Table.Update TaskSession where
  toFun ts := { ts with rawTask := none, rawTaskRetention := .none }
  clash_left _ _ := Iff.rfl

/-- The statements of an entry. -/
def applyEntry (workspaceId : String) (acc : PrivacyCompactionResult × SessionStore)
    (e : PrivacyCompactionEntry) : PrivacyCompactionResult × SessionStore :=
  let r := acc.1
  let s := acc.2
  if e.action = .deleteMetric then
    let p := fun m : QueryStageMetric => decide (m.metricId = e.recordId ∧ m.workspaceId = workspaceId)
    ({ r with deletedMetrics := r.deletedMetrics + s.queryStageMetric.count p }, s.deleteMetrics p)
  else
    let ofMetric := fun m : QueryStageMetric => decide (m.taskSessionId = some e.recordId)
    let ofEvent := fun x : ContextUseEvent => decide (x.taskSessionId = e.recordId)
    let ofContext := fun x : ContextIr => decide (x.taskSessionId = e.recordId)
    let ofSession := fun ts : TaskSession =>
      decide (ts.taskSessionId = e.recordId ∧ ts.workspaceId = workspaceId)
    let s₁ := s.deleteMetrics ofMetric
    let s₂ := s₁.deleteEvents ofEvent
    let s₃ := s₂.deleteContexts ofContext
    let r' := { r with
      deletedMetrics := r.deletedMetrics + s.queryStageMetric.count ofMetric
      deletedEvents := r.deletedEvents + s₁.contextUseEvent.count ofEvent
      deletedContexts := r.deletedContexts + s₂.contextIr.count ofContext }
    if e.action = .deleteSession then
      ({ r' with deletedSessions := r.deletedSessions + s₃.taskSession.count ofSession },
        s₃.deleteSessions ofSession)
    else (r', s₃.updateSessions ofSession clearRawTask)

/-- The entries one after the other. -/
def applyEntries (faults : SqliteFaults) (workspaceId : String) :
    List PrivacyCompactionEntry → PrivacyCompactionResult × SessionStore →
      Except SqliteError (PrivacyCompactionResult × SessionStore)
  | [], acc => .ok acc
  | e :: entries, acc =>
    match faults.entry e with
    | some error => .error error
    | none => applyEntries faults workspaceId entries (applyEntry workspaceId acc e)

/-- The body of the transaction. -/
def compactionBody (H : Hasher) (faults : SqliteFaults) (file : CatalogueFile) (s : SessionStore)
    (workspaceId : String) (asOf : Instant) (expectedDigest : String)
    (fault : PrivacyCompactionFault) :
    Except PrivacyCompactionApplyError (PrivacyCompactionResult × SessionStore) :=
  match faults.start with
  | some error => .error (.atlas (.sqlite error))
  | none =>
    match privacyCompactionManifest H file s workspaceId asOf with
    | .error error => .error (.atlas error)
    | .ok (entries, digest) =>
      if digest ≠ expectedDigest then .error (.manifestMismatch expectedDigest digest)
      else
        match applyEntries faults workspaceId entries (⟨0, 0, 0, 0⟩, s) with
        | .error error => .error (.atlas (.sqlite error))
        | .ok acc =>
          if fault = .beforeCommit then
            .error (.atlas (.other "injected privacy compaction fault before commit"))
          else
            match faults.commit with
            | some error => .error (.atlas (.sqlite error))
            | none => .ok acc

/-- `apply_privacy_compaction_inner`. -/
def applyPrivacyCompactionInner (H : Hasher) (faults : SqliteFaults) (file : CatalogueFile)
    (s : SessionStore) (workspaceId : String) (asOf : Instant)
    (expectedDigest confirmation : String) (fault : PrivacyCompactionFault) :
    Except PrivacyCompactionApplyError PrivacyCompactionResult × SessionStore :=
  if confirmation ≠ privacyDeletionConfirmation then (.error .literalConfirmation, s)
  else transaction s (compactionBody H faults file s workspaceId asOf expectedDigest fault)

/-! ## What the entries delete together -/

section Named

variable (workspaceId : String) (entries : List PrivacyCompactionEntry)

/-- The session of an entry, if it is about one. -/
def namesSession (taskSessionId : String) : Bool :=
  entries.any fun e => e.action ≠ .deleteMetric ∧ e.recordId = taskSessionId

/-- A session of the workspace has an entry with an action. -/
def namesAs (action : PrivacyCompactionAction) (ts : TaskSession) : Bool :=
  ts.workspaceId = workspaceId &&
    entries.any fun e => e.action = action ∧ e.recordId = ts.taskSessionId

/-- A metric is deleted, with its session or by itself. -/
def namesMetric (m : QueryStageMetric) : Bool :=
  m.taskSessionId.any (namesSession entries) || m.workspaceId = workspaceId &&
    entries.any fun e => e.action = .deleteMetric ∧ e.recordId = m.metricId

/-- A database without what the entries name. -/
def SessionStore.compacted (s : SessionStore) : SessionStore :=
  let isDeletedContext := s.isContextOf fun c => namesSession entries c.taskSessionId
  { s.withSessions ((s.taskSession.delete (namesAs workspaceId entries .deleteSession)).update
      (namesAs workspaceId entries .deleteDerived) clearRawTask) with
    contextIr := s.contextIr.delete fun c => namesSession entries c.taskSessionId
    contextIrItem := s.contextIrItem.delete fun i => isDeletedContext i.contextId
    contextUseEvent := (s.contextUseEvent.delete fun e => namesSession entries e.taskSessionId).update
      (fun _ => true) (ContextUseEvent.clearContext isDeletedContext)
    queryStageMetric := (s.queryStageMetric.delete (namesMetric workspaceId entries)).update
      (fun _ => true) (QueryStageMetric.clearContext isDeletedContext) }

end Named

namespace SessionStore

variable {s : SessionStore} {workspaceId : String} {entries more : List PrivacyCompactionEntry}
  {e : PrivacyCompactionEntry}

lemma namesSession_append (id : String) :
    namesSession (entries ++ more) id = (namesSession entries id || namesSession more id) :=
  List.any_append

lemma namesAs_append {action : PrivacyCompactionAction} (ts : TaskSession) :
    namesAs workspaceId (entries ++ more) action ts =
      (namesAs workspaceId entries action ts || namesAs workspaceId more action ts) := by
  rw [namesAs, List.any_append, Bool.and_or_distrib_left]
  rfl

lemma namesMetric_eq_true_iff (m : QueryStageMetric) : namesMetric workspaceId entries m = true ↔
    (∃ id, m.taskSessionId = some id ∧ namesSession entries id = true) ∨
      m.workspaceId = workspaceId ∧
        ∃ e ∈ entries, e.action = .deleteMetric ∧ e.recordId = m.metricId := by
  simp [namesMetric, Option.any_eq_true, -bne_iff_ne]

lemma namesMetric_append (m : QueryStageMetric) : namesMetric workspaceId (entries ++ more) m =
    (namesMetric workspaceId entries m || namesMetric workspaceId more m) := by
  have hsession : m.taskSessionId.any (namesSession (entries ++ more)) =
      (m.taskSessionId.any (namesSession entries) || m.taskSessionId.any (namesSession more)) := by
    cases m.taskSessionId with
    | none => rfl
    | some id => exact namesSession_append id
  rw [namesMetric, hsession, List.any_append, Bool.and_or_distrib_left]
  simp only [namesMetric, Bool.or_assoc, Bool.or_left_comm]

lemma clearIf_clearIf (p q : String → Bool) (x : Option String) :
    clearIf q (clearIf p x) = clearIf (fun v => p v || q v) x := by
  cases x with
  | none => rfl
  | some v => simp [clearIf]

/-- Contexts that are deleted later are deleted together with the first ones. -/
lemma isContextOf_compacted (id : String) :
    (s.isContextOf (fun c => namesSession entries c.taskSessionId) id ||
      (s.compacted workspaceId entries).isContextOf
        (fun c => namesSession more c.taskSessionId) id) =
      s.isContextOf (fun c => namesSession (entries ++ more) c.taskSessionId) id := by
  rw [Bool.eq_iff_iff]
  simp only [isContextOf, compacted, Table.delete, Bool.or_eq_true, List.any_eq_true,
    List.mem_filter, Bool.not_eq_true', Bool.and_eq_true, decide_eq_true_eq, namesSession_append]
  constructor
  · rintro (⟨c, hc, hnamed, hid⟩ | ⟨c, ⟨hc, -⟩, hnamed, hid⟩)
    · exact ⟨c, hc, Or.inl hnamed, hid⟩
    · exact ⟨c, hc, Or.inr hnamed, hid⟩
  · rintro ⟨c, hc, hnamed, hid⟩
    cases hfirst : namesSession entries c.taskSessionId with
    | true => exact Or.inl ⟨c, hc, hfirst, hid⟩
    | false => exact Or.inr ⟨c, ⟨hc, hfirst⟩, hnamed.resolve_left (by simp [hfirst]), hid⟩

/-- Deletions one after the other are one deletion. -/
lemma compacted_compacted : (s.compacted workspaceId entries).compacted workspaceId more =
    s.compacted workspaceId (entries ++ more) := by
  have hcontexts : (fun id => s.isContextOf (fun c => namesSession entries c.taskSessionId) id ||
      (s.compacted workspaceId entries).isContextOf
        (fun c => namesSession more c.taskSessionId) id) =
      s.isContextOf fun c => namesSession (entries ++ more) c.taskSessionId :=
    funext fun id => isContextOf_compacted id
  ext1
  · -- the catalogues differ in the sessions only
    refine congrArg (fun t => { s.catalogue with taskSession := t }) ?_
    show Table.update (Table.delete (Table.update (s.taskSession.delete _) _ _) _) _ _ =
      (s.taskSession.delete _).update _ _
    refine Table.delete_update_delete_update (fun _ => rfl) (fun ts _ => ?_) fun ts => ?_
    · exact namesAs_append ts
    · rw [namesAs_append]
      have hkeep : namesAs workspaceId more .deleteDerived (clearRawTask ts) =
          namesAs workspaceId more .deleteDerived ts := rfl
      cases hfirst : namesAs workspaceId entries .deleteDerived ts with
      | true =>
        rw [if_pos rfl, hkeep, Bool.true_or, if_pos rfl]
        split <;> rfl
      | false => rw [if_neg Bool.false_ne_true, Bool.false_or]
  · rfl
  · refine Table.delete_delete.trans (Table.delete_congr fun c _ => ?_)
    exact (namesSession_append _).symm
  · refine Table.delete_delete.trans (Table.delete_congr fun i _ => ?_)
    exact congrFun hcontexts i.contextId
  · refine Table.delete_update_delete_update (fun _ => rfl)
      (fun x _ => namesSession_append _) fun x => ?_
    rw [← hcontexts]
    exact congrArg (fun id => { x with contextId := id }) (clearIf_clearIf _ _ _)
  · refine Table.delete_update_delete_update (fun _ => rfl)
      (fun m _ => namesMetric_append m) fun m => ?_
    rw [← hcontexts]
    exact congrArg (fun id => { m with contextId := id }) (clearIf_clearIf _ _ _)

/-! ## The statements of an entry -/

lemma isContextOf_eq_false {p : ContextIr → Bool} (h : ∀ c ∈ s.contextIr, p c = false) (id : String) :
    s.isContextOf p id = false := by
  refine List.any_eq_false.mpr fun c hc => ?_
  rw [h c hc]
  simp

lemma clearContext_event_of_none {p : ContextIr → Bool} (h : ∀ c ∈ s.contextIr, p c = false)
    (x : ContextUseEvent) : ContextUseEvent.clearContext (s.isContextOf p) x = x :=
  congrArg (fun id => { x with contextId := id })
    (clearIf_eq_self fun id _ => isContextOf_eq_false h id)

lemma clearContext_metric_of_none {p : ContextIr → Bool} (h : ∀ c ∈ s.contextIr, p c = false)
    (m : QueryStageMetric) : QueryStageMetric.clearContext (s.isContextOf p) m = m :=
  congrArg (fun id => { m with contextId := id })
    (clearIf_eq_self fun id _ => isContextOf_eq_false h id)

/-- If there is no context to delete, nothing is deleted. -/
lemma deleteContexts_eq_self {p : ContextIr → Bool} (h : ∀ c ∈ s.contextIr, p c = false) :
    s.deleteContexts p = s := by
  ext1
  · rfl
  · rfl
  · exact Table.delete_eq_self h
  · exact Table.delete_eq_self fun i _ => isContextOf_eq_false h i.contextId
  · exact Table.update_eq_self fun x _ _ => clearContext_event_of_none h x
  · exact Table.update_eq_self fun m _ _ => clearContext_metric_of_none h m

/-- A session for which nothing else is stored is deleted alone. -/
lemma deleteSessions_eq {p : TaskSession → Bool} {id : String}
    (hp : ∀ ts, p ts = true → ts.taskSessionId = id)
    (hcontext : ∀ c ∈ s.contextIr, c.taskSessionId ≠ id)
    (hevent : ∀ x ∈ s.contextUseEvent, x.taskSessionId ≠ id)
    (hmetric : ∀ m ∈ s.queryStageMetric, m.taskSessionId ≠ some id) :
    s.deleteSessions p = s.withSessions (s.taskSession.delete p) := by
  have hsession : ∀ v, s.isSessionOf p v = true → v = id := by
    intro v hv
    obtain ⟨ts, -, hts⟩ := List.any_eq_true.mp hv
    rw [Bool.and_eq_true, decide_eq_true_eq] at hts
    exact hts.2.symm.trans (hp ts hts.1)
  have hnot : ∀ v, v ≠ id → s.isSessionOf p v = false := fun v hv =>
    Bool.eq_false_iff.mpr fun h => hv (hsession v h)
  have hcontexts := deleteContexts_eq_self fun c hc => hnot _ (hcontext c hc)
  rw [deleteSessions, hcontexts]
  ext1
  · rfl
  · rfl
  · rfl
  · rfl
  · exact Table.delete_eq_self fun x hx => hnot _ (hevent x hx)
  · refine Table.update_eq_self fun m hm _ => ?_
    refine congrArg (fun v => { m with taskSessionId := v }) (clearIf_eq_self fun v hv => ?_)
    refine hnot v ?_
    rintro rfl
    exact hmetric m hm hv

lemma namesSession_singleton (id : String) : namesSession [e] id =
    decide (e.action ≠ .deleteMetric ∧ e.recordId = id) := by
  rw [namesSession, List.any_cons, List.any_nil, Bool.or_false]

/-- What was derived for the session of an entry. -/
def deleteDerivedOf (s : SessionStore) (id : String) : SessionStore :=
  ((s.deleteMetrics fun m => m.taskSessionId = some id).deleteEvents
    fun x => x.taskSessionId = id).deleteContexts fun c => c.taskSessionId = id

lemma namesAs_singleton {action : PrivacyCompactionAction} (h : e.action = action) :
    namesAs workspaceId [e] action = fun ts =>
      decide (ts.taskSessionId = e.recordId ∧ ts.workspaceId = workspaceId) := by
  funext ts
  simp [namesAs, h, and_comm, eq_comm]

lemma namesAs_singleton_of_ne {action : PrivacyCompactionAction} (h : e.action ≠ action)
    (ts : TaskSession) : namesAs workspaceId [e] action ts = false := by
  simp [namesAs, h]

/-- An entry of a session deletes what was derived for it. -/
lemma compacted_singleton (h : e.action ≠ .deleteMetric) :
    s.compacted workspaceId [e] = (s.deleteDerivedOf e.recordId).withSessions
      ((s.taskSession.delete (namesAs workspaceId [e] .deleteSession)).update
        (namesAs workspaceId [e] .deleteDerived) clearRawTask) := by
  have hsession : ∀ id, namesSession [e] id = decide (id = e.recordId) := fun id => by
    rw [namesSession_singleton, decide_eq_decide, eq_comm]
    exact and_iff_right h
  have hcontexts : s.isContextOf (fun c => namesSession [e] c.taskSessionId) =
      s.isContextOf fun c => c.taskSessionId = e.recordId :=
    congrArg s.isContextOf (funext fun c => hsession c.taskSessionId)
  have hevents : (s.contextUseEvent.delete fun x => namesSession [e] x.taskSessionId) =
      s.contextUseEvent.delete fun x => x.taskSessionId = e.recordId :=
    Table.delete_congr fun x _ => hsession x.taskSessionId
  have hmetrics : s.queryStageMetric.delete (namesMetric workspaceId [e]) =
      s.queryStageMetric.delete fun m => m.taskSessionId = some e.recordId := by
    refine Table.delete_congr fun m _ => ?_
    have hown : ([e].any fun e => e.action = .deleteMetric ∧ e.recordId = m.metricId) = false := by
      simp [h]
    rw [namesMetric, hown, Bool.and_false, Bool.or_false]
    cases m.taskSessionId with
    | none => rfl
    | some id => exact (hsession id).trans (decide_eq_decide.mpr (Option.some_inj.symm))
  rw [compacted, hcontexts, hevents, hmetrics]
  ext1
  · rfl
  · rfl
  · exact Table.delete_congr fun c _ => hsession c.taskSessionId
  · rfl
  · rfl
  · rfl

/-- Entries of metrics delete the metrics only. -/
lemma compacted_of_metrics (h : ∀ e ∈ entries, e.action = .deleteMetric) :
    s.compacted workspaceId entries = s.deleteMetrics (namesMetric workspaceId entries) := by
  have hnone : ∀ id, namesSession entries id = false := fun id =>
    List.any_eq_false.mpr fun e he => by simp [h e he]
  have hcontext : ∀ c ∈ s.contextIr, namesSession entries c.taskSessionId = false :=
    fun c _ => hnone _
  have hnamed : ∀ action, action ≠ .deleteMetric → ∀ ts ∈ s.taskSession,
      namesAs workspaceId entries action ts = false := by
    intro action haction ts _
    rw [namesAs, List.any_eq_false.mpr, Bool.and_false]
    intro e he
    simp [h e he, haction.symm]
  ext1
  · refine congrArg (fun t => { s.catalogue with taskSession := t }) ?_
    rw [Table.delete_eq_self (hnamed _ (by simp))]
    exact Table.update_eq_self fun ts hts hp => absurd hp (by simp [hnamed _ _ ts hts])
  · rfl
  · exact Table.delete_eq_self hcontext
  · exact Table.delete_eq_self fun i _ => isContextOf_eq_false hcontext i.contextId
  · refine (Table.update_eq_self fun x _ _ => clearContext_event_of_none hcontext x).trans ?_
    exact Table.delete_eq_self fun x _ => hnone x.taskSessionId
  · exact Table.update_eq_self fun m _ _ => clearContext_metric_of_none hcontext m

lemma compacted_nil : s.compacted workspaceId [] = s := by
  have hnone : ∀ m ∈ s.queryStageMetric, namesMetric workspaceId [] m = false := by
    intro m _
    have hsession : m.taskSessionId.any (namesSession []) = false := by cases m.taskSessionId <;> rfl
    rw [namesMetric, hsession, List.any_nil, Bool.and_false, Bool.or_false]
  rw [compacted_of_metrics (by simp), deleteMetrics, Table.delete_eq_self hnone]

lemma namesMetric_singleton (h : e.action = .deleteMetric) : namesMetric workspaceId [e] =
    fun m => decide (m.metricId = e.recordId ∧ m.workspaceId = workspaceId) := by
  funext m
  have hsession : m.taskSessionId.any (namesSession [e]) = false := by
    cases m.taskSessionId with
    | none => rfl
    | some id => exact (namesSession_singleton id).trans (by simp [h])
  rw [namesMetric, hsession, Bool.false_or]
  simp [h, and_comm, eq_comm]

/-- The statements of an entry delete what the entry names. -/
lemma applyEntry_snd (acc : PrivacyCompactionResult × SessionStore) :
    (applyEntry workspaceId acc e).2 = acc.2.compacted workspaceId [e] := by
  obtain ⟨r, s⟩ := acc
  cases haction : e.action with
  | deleteMetric =>
    rw [applyEntry, if_pos haction, compacted_of_metrics (by simpa using haction),
      namesMetric_singleton haction]
  | deleteDerived =>
    have hne : e.action ≠ .deleteMetric := by simp [haction]
    have hkept : s.taskSession.delete (namesAs workspaceId [e] .deleteSession) = s.taskSession :=
      Table.delete_eq_self fun ts _ => namesAs_singleton_of_ne (by simp [haction]) ts
    rw [applyEntry, if_neg hne, if_neg (by simp [haction])]
    refine Eq.trans ?_ (compacted_singleton hne).symm
    rw [hkept, namesAs_singleton haction]
    rfl
  | deleteSession =>
    have hne : e.action ≠ .deleteMetric := by simp [haction]
    have hkept : ∀ t : Table TaskSession, t.update (namesAs workspaceId [e] .deleteDerived)
        clearRawTask = t := fun t => Table.update_eq_self fun ts _ hp => by
      rw [namesAs_singleton_of_ne (by simp [haction])] at hp
      exact absurd hp (by simp)
    rw [applyEntry, if_neg hne, if_pos haction]
    refine Eq.trans ?_ (compacted_singleton hne).symm
    rw [hkept, namesAs_singleton haction]
    -- nothing is left that the foreign keys would reach
    have hid : ∀ ts : TaskSession, decide (ts.taskSessionId = e.recordId ∧
        ts.workspaceId = workspaceId) = true → ts.taskSessionId = e.recordId :=
      fun ts hts => (of_decide_eq_true hts).1
    refine deleteSessions_eq hid (fun c hc => ?_) (fun x hx => ?_) fun m hm => ?_
    · simpa using (Table.mem_delete.mp hc).2
    · obtain ⟨y, hy, rfl⟩ := Table.mem_update.mp hx
      simpa [ContextUseEvent.clearContext] using (Table.mem_delete.mp hy).2
    · obtain ⟨y, hy, rfl⟩ := Table.mem_update.mp hm
      simpa [QueryStageMetric.clearContext] using (Table.mem_delete.mp hy).2

/-- The entries delete together what they name. -/
lemma applyEntries_snd {faults : SqliteFaults} {acc acc' : PrivacyCompactionResult × SessionStore}
    (h : applyEntries faults workspaceId entries acc = .ok acc') :
    acc'.2 = acc.2.compacted workspaceId entries := by
  induction entries generalizing acc with
  | nil =>
    obtain rfl := Except.ok.inj h
    exact compacted_nil.symm
  | cons e entries ih =>
    rw [applyEntries] at h
    split at h
    · exact absurd h (by simp)
    · rw [ih h, applyEntry_snd, compacted_compacted]
      rfl

/-! ## What the statements report -/

/-- The counts of an entry are what its statements report. -/
structure IsCounted (s : SessionStore) (workspaceId : String) (e : PrivacyCompactionEntry) :
    Prop where
  contexts : e.contextCount =
    if e.action = .deleteMetric then 0 else s.contextIr.count fun c => c.taskSessionId = e.recordId
  events : e.eventCount =
    if e.action = .deleteMetric then 0
    else s.contextUseEvent.count fun x => x.taskSessionId = e.recordId
  metrics : e.metricCount =
    if e.action = .deleteMetric then
      s.queryStageMetric.count fun m => m.metricId = e.recordId ∧ m.workspaceId = workspaceId
    else s.queryStageMetric.count fun m => m.taskSessionId = some e.recordId
  session : e.action ≠ .deleteMetric → (s.taskSession.count fun ts =>
    ts.taskSessionId = e.recordId ∧ ts.workspaceId = workspaceId) = 1
  alone : e.action = .deleteMetric → ∀ m ∈ s.queryStageMetric, m.metricId = e.recordId →
    m.taskSessionId = none

/-- Two entries are about different rows. -/
def AreApart (e e' : PrivacyCompactionEntry) : Prop :=
  (e.action = .deleteMetric ↔ e'.action = .deleteMetric) → e.recordId ≠ e'.recordId

/-- The totals after an entry. -/
def addEntry (r : PrivacyCompactionResult) (e : PrivacyCompactionEntry) :
    PrivacyCompactionResult where
  deletedSessions := r.deletedSessions + if e.action = .deleteSession then 1 else 0
  deletedContexts := r.deletedContexts + e.contextCount
  deletedEvents := r.deletedEvents + e.eventCount
  deletedMetrics := r.deletedMetrics + e.metricCount

lemma applyEntry_fst {r : PrivacyCompactionResult} (h : s.IsCounted workspaceId e) :
    (applyEntry workspaceId (r, s) e).1 = addEntry r e := by
  rw [addEntry, h.contexts, h.events, h.metrics, applyEntry]
  cases haction : e.action with
  | deleteMetric => simp
  | deleteDerived => simp [deleteMetrics, deleteEvents]
  | deleteSession =>
    have hone := h.session (by simp [haction])
    rw [if_neg (by simp), if_pos rfl, if_pos rfl, if_neg (by simp), if_neg (by simp),
      if_neg (by simp)]
    show PrivacyCompactionResult.mk (r.deletedSessions + s.taskSession.count fun ts =>
      ts.taskSessionId = e.recordId ∧ ts.workspaceId = workspaceId) _ _ _ = _
    rw [hone]
    rfl

/-- The counts of an entry stay right while the rows of others are deleted. -/
lemma IsCounted.of_compacted {e' : PrivacyCompactionEntry} (he : s.IsCounted workspaceId e)
    (he' : s.IsCounted workspaceId e') (hapart : AreApart e e') :
    (s.compacted workspaceId [e]).IsCounted workspaceId e' := by
  have hsession : ∀ id, namesSession [e] id = true ↔ e.action ≠ .deleteMetric ∧ e.recordId = id :=
    fun id => by rw [namesSession_singleton, decide_eq_true_eq]
  have hother : e'.action ≠ .deleteMetric → namesSession [e] e'.recordId = false := by
    intro haction'
    rw [Bool.eq_false_iff, ne_eq, hsession]
    rintro ⟨haction, hid⟩
    exact hapart (iff_of_false haction haction') hid
  constructor
  · rw [he'.contexts]
    split
    · rfl
    next haction =>
      refine (Table.count_delete fun c _ hc => ?_).symm
      rw [of_decide_eq_true hc]
      exact hother haction
  · rw [he'.events]
    split
    · rfl
    next haction =>
      refine (Eq.trans (Table.count_update fun _ => rfl) (Table.count_delete fun x _ hx => ?_)).symm
      rw [of_decide_eq_true hx]
      exact hother haction
  · rw [he'.metrics]
    split
    next haction' =>
      refine (Eq.trans (Table.count_update fun _ => rfl) (Table.count_delete fun m hm hid => ?_)).symm
      obtain ⟨hid, -⟩ := of_decide_eq_true hid
      rw [Bool.eq_false_iff, ne_eq, namesMetric_eq_true_iff]
      rintro (⟨id, hsome, -⟩ | ⟨-, e₁, he₁, haction, hid₁⟩)
      · rw [he'.alone haction' m hm hid] at hsome
        exact absurd hsome (by simp)
      · rw [List.mem_singleton.mp he₁] at haction hid₁
        exact hapart (iff_of_true haction haction') (hid₁.trans hid)
    next haction' =>
      refine (Eq.trans (Table.count_update fun _ => rfl) (Table.count_delete fun m hm hid => ?_)).symm
      have hid := of_decide_eq_true hid
      rw [Bool.eq_false_iff, ne_eq, namesMetric_eq_true_iff]
      rintro (⟨id, hsome, hnamed⟩ | ⟨-, e₁, he₁, haction, hid₁⟩)
      · obtain rfl := Option.some.inj (hid.symm.trans hsome)
        rw [hother haction'] at hnamed
        exact absurd hnamed (by simp)
      · rw [List.mem_singleton.mp he₁] at haction hid₁
        rw [he.alone haction m hm hid₁.symm] at hid
        exact absurd hid (by simp)
  · intro haction'
    rw [← he'.session haction']
    refine Eq.trans (Table.count_update fun _ => rfl) (Table.count_delete fun ts _ hts => ?_)
    obtain ⟨hid, -⟩ := of_decide_eq_true hts
    have hnot := hother haction'
    rw [Bool.eq_false_iff, ne_eq, hsession] at hnot
    by_cases haction : e.action = .deleteSession
    · have hne : ts.taskSessionId ≠ e.recordId := fun heq =>
        hnot ⟨by simp [haction], heq.symm.trans hid⟩
      rw [namesAs_singleton haction]
      exact decide_eq_false fun h => hne h.1
    · exact namesAs_singleton_of_ne haction ts
  · intro haction' m hm hid
    obtain ⟨y, hy, rfl⟩ := Table.mem_update.mp hm
    exact he'.alone haction' y (Table.mem_delete.mp hy).1 hid

/-- The totals of all entries. -/
lemma applyEntries_fst {faults : SqliteFaults} {r : PrivacyCompactionResult}
    {acc : PrivacyCompactionResult × SessionStore}
    (h : applyEntries faults workspaceId entries (r, s) = .ok acc)
    (hcounted : ∀ e ∈ entries, s.IsCounted workspaceId e) (hapart : entries.Pairwise AreApart) :
    acc.1 = entries.foldl addEntry r := by
  induction entries generalizing r s with
  | nil =>
    obtain rfl := Except.ok.inj h
    rfl
  | cons e entries ih =>
    rw [applyEntries] at h
    split at h
    · exact absurd h (by simp)
    · obtain ⟨hhead, htail⟩ := List.pairwise_cons.mp hapart
      have he := hcounted e List.mem_cons_self
      have hstep : applyEntry workspaceId (r, s) e =
          (addEntry r e, s.compacted workspaceId [e]) :=
        Prod.ext (applyEntry_fst he) (applyEntry_snd (r, s))
      rw [hstep] at h
      refine ih h (fun e' he' => ?_) htail
      exact he.of_compacted (hcounted e' (List.mem_cons_of_mem _ he')) (hhead e' he')

/-- The totals are the sums of the counts. -/
lemma foldl_addEntry (r : PrivacyCompactionResult) :
    entries.foldl addEntry r =
      ⟨r.deletedSessions + entries.countP fun e => e.action = .deleteSession,
        r.deletedContexts + (entries.map PrivacyCompactionEntry.contextCount).sum,
        r.deletedEvents + (entries.map PrivacyCompactionEntry.eventCount).sum,
        r.deletedMetrics + (entries.map PrivacyCompactionEntry.metricCount).sum⟩ := by
  induction entries generalizing r with
  | nil => rfl
  | cons e entries ih =>
    rw [List.foldl_cons, ih, List.countP_cons, List.map_cons, List.map_cons, List.map_cons,
      List.sum_cons, List.sum_cons, List.sum_cons, addEntry]
    simp only [PrivacyCompactionResult.mk.injEq, decide_eq_true_eq]
    exact ⟨by omega, by omega, by omega, by omega⟩

end SessionStore

end WorkspaceAtlas
