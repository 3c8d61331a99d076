/-
# Runs of the operations on sessions

The operations on sessions and generations are calls of one system, each of them a transaction.
A session that carries an end was completed or abandoned, and what a completion reports is on
record: the delta it was measured with, the generation it ended at and the events of its timeline.
-/
import WorkspaceAtlas.Session.LifecycleRun

namespace WorkspaceAtlas

open Relational Transition

/-! ## Calls -/

/-- One call. -/
inductive SessionCall where
  | create (task : NewTask) (now : Timestamp)
  | start (workspaceId : String) (request : LegacyTaskStartRequest) (now : Timestamp)
  | transition (taskSessionId : String) (target : TaskSessionState)
  | activate (taskSessionId : String) (identity : LegacyTaskSessionIdentity)
  | record (taskSessionId : String) (event : ContextUse)
  | requestSource (workspaceId taskSessionId : String) (request : ExactSourceRequest)
      (occurredAt : String)
  | persistDelta (delta : Delta.GenerationDelta)
  | completeWith (taskSessionId : String) (delta : Delta.GenerationDelta) (outcome : Outcome)
      (endTreeHash : String) (now : Timestamp)
  | complete (disk : Delta.WorkingDirectory) (t : Delta.Tables) (workspaceId taskSessionId : String)
      (request : LegacyTaskCompleteRequest) (now : Timestamp)
  | abandon (workspaceId taskSessionId : String) (request : LegacyTaskAbandonRequest)
      (now : Timestamp)
  | beginCandidate (workspaceId : String) (triggerKind : TriggerKind)
      (providerSetHash schemaVersion : String) (now : Timestamp)
  | activateCandidate (workspaceId generationId : String) (sourceTreeHash : Option String)
      (now : Timestamp)
  | failCandidate (generationId failureCode failureMessage : String)
  | abandonCandidate (generationId : String)

namespace SessionStore

/-- The database after a transaction. -/
def commit {ε : Type} (s : SessionStore) (r : Except ε SessionStore) : SessionStore :=
  r.toOption.getD s

/-- The database after a transaction on the catalogue. -/
def commitCatalogue {ε : Type} (s : SessionStore) (r : Except ε Catalogue) : SessionStore :=
  s.commit (r.map s.withCatalogue)

end SessionStore

/-- One step. -/
def SessionCall.step (H : Hasher) (D : Text.DebugFormat) (s : SessionStore) :
    SessionCall → SessionStore
  | create task now => s.commit ((s.createClassifiedTaskSession H D task now).map Prod.snd)
  | start workspaceId request now =>
    s.commit ((s.startLegacyTaskSession H D workspaceId request now).map Prod.snd)
  | transition taskSessionId target => s.commit (s.transitionTaskSession taskSessionId target)
  | activate taskSessionId identity =>
    s.commit (s.activateLegacyTaskSession taskSessionId identity)
  | record taskSessionId event => s.commit (s.recordContextUseEvent taskSessionId event)
  | requestSource workspaceId taskSessionId request occurredAt =>
    s.commit (s.recordExactSourceRequest H workspaceId taskSessionId request occurredAt)
  | persistDelta delta =>
    s.commit ((Delta.persistGenerationDelta H s.deltas delta).map ({ s with deltas := · }))
  | completeWith taskSessionId delta outcome endTreeHash now =>
    s.commit (s.completeTaskSession H taskSessionId delta outcome endTreeHash now)
  | complete disk t workspaceId taskSessionId request now => s.commit
    ((s.completeLegacyTaskSession H disk t workspaceId taskSessionId request now).map Prod.snd)
  | abandon workspaceId taskSessionId request now =>
    s.commit ((s.abandonLegacyTaskSession workspaceId taskSessionId request now).map Prod.snd)
  | beginCandidate workspaceId triggerKind providerSetHash schemaVersion now =>
    s.commitCatalogue ((WorkspaceAtlas.beginCandidate H s.catalogue workspaceId triggerKind
      providerSetHash schemaVersion now).map Prod.fst)
  | activateCandidate workspaceId generationId sourceTreeHash now => s.commitCatalogue
    (WorkspaceAtlas.activateCandidate s.catalogue workspaceId generationId sourceTreeHash now)
  | failCandidate generationId failureCode failureMessage => s.commitCatalogue
    (WorkspaceAtlas.failCandidate s.catalogue generationId failureCode failureMessage)
  | abandonCandidate generationId =>
    s.commitCatalogue (WorkspaceAtlas.abandonCandidate s.catalogue generationId)

/-- The events that a call hands over meet `P`, those of a completion aside. -/
def SessionCall.Tells (H : Hasher) (P : ContextUseEvent → Prop) : SessionCall → Prop
  | record taskSessionId event => P (event.row taskSessionId)
  | requestSource _ taskSessionId request occurredAt =>
    ∀ n, P ((exactSourceEvent H taskSessionId request n occurredAt).row taskSessionId)
  | _ => True

lemma SessionCall.tells_true {H : Hasher} (call : SessionCall) : call.Tells H (fun _ => True) := by
  cases call <;> simp [Tells]

namespace SessionStore

section Runs

variable {H : Hasher} {D : Text.DebugFormat} {s s' : SessionStore} {calls : List SessionCall}
  {P : ContextUseEvent → Prop}

/-! ## What follows what -/

/-- A property of a step holds if it holds of a transaction that fails and of one that does
not. -/
lemma commit_cases {ε : Type} {P : SessionStore → Prop} {r : Except ε SessionStore} (hself : P s)
    (hok : ∀ s', r = .ok s' → P s') : P (s.commit r) := by
  cases r with
  | ok s' => exact hok s' rfl
  | error e => exact hself

lemma map_ok {α β ε : Type} {f : α → β} {r : Except ε α} {b : β} :
    r.map f = .ok b ↔ ∃ a, r = .ok a ∧ f a = b := by
  cases r <;> simp [Except.map]

lemma follows_startLegacy {workspaceId : String} {request : LegacyTaskStartRequest}
    {now : Timestamp} {ts : TaskSession}
    (h : s.startLegacyTaskSession H D workspaceId request now = .ok (ts, s')) :
    Follows TaskSession.Moves P s s' := by
  obtain ⟨⟨⟩, -, hrest⟩ := bind_ok.mp h
  obtain ⟨⟨⟩, -, hrest⟩ := bind_ok.mp hrest
  exact follows_start (mapError_ok.mp hrest)

end Runs

/-! ## What a call does -/

/-- What a call does to the sessions: only a bare transition, a completion and an abandonment end
one. -/
inductive Result (H : Hasher) (P : ContextUseEvent → Prop) (s : SessionStore)
    (call : SessionCall) (s' : SessionStore) : Prop
  | moves (h : Follows TaskSession.Moves P s s')
  | transition (id : String) (target : TaskSessionState) (hcall : call = .transition id target)
      (h : s.transitionTaskSession id target = .ok s')
  | completed (id : String) (c : Completion)
      (h : s.completeTaskSession H id c.delta c.outcome c.endTreeHash c.completedAt = .ok s')
  | abandoned (workspaceId id : String) (request : LegacyTaskAbandonRequest) (now : Timestamp)
      (ts : TaskSession) (h : s.abandonLegacyTaskSession workspaceId id request now = .ok (ts, s'))

section Runs

variable {H : Hasher} {D : Text.DebugFormat} {s s' : SessionStore} {ts : TaskSession}
  {taskSessionId : String} {P : ContextUseEvent → Prop}

/-- A completion that is replayed, or the completion with the delta that is computed. -/
lemma completeLegacy_ok {disk : Delta.WorkingDirectory} {t : Delta.Tables} {workspaceId : String}
    {request : LegacyTaskCompleteRequest} {now : Timestamp}
    (h : s.completeLegacyTaskSession H disk t workspaceId taskSessionId request now =
      .ok (ts, s')) :
    s' = s ∨ ∃ c : Completion, c.outcome = request.toOutcome ∧ c.completedAt = now ∧
      s.completeTaskSession H taskSessionId c.delta c.outcome c.endTreeHash c.completedAt =
        .ok s' := by
  obtain ⟨⟨⟩, -, hrest⟩ := bind_ok.mp h
  obtain ⟨found, hfound, hrest⟩ := bind_ok.mp hrest
  obtain ⟨⟨⟩, -, hrest⟩ := bind_ok.mp hrest
  obtain ⟨-, hid⟩ := mem_of_session (mapError_ok.mp hfound)
  split at hrest
  next =>
    split at hrest
    next => exact Or.inl (Prod.mk.inj (Except.ok.inj hrest)).2.symm
    next => exact absurd hrest (by simp)
  next =>
    obtain ⟨⟨⟩, -, hrest⟩ := bind_ok.mp (mapError_ok.mp hrest)
    obtain ⟨⟨endGenerationId, endTreeHash⟩, -, hrest⟩ := bind_ok.mp hrest
    obtain ⟨delta, -, hrest⟩ := bind_ok.mp hrest
    obtain ⟨mid, hcomplete, hrest⟩ := bind_ok.mp hrest
    obtain ⟨found', -, hret⟩ := bind_ok.mp hrest
    obtain ⟨-, rfl⟩ := Prod.mk.inj (Except.ok.inj hret)
    exact Or.inr ⟨⟨delta, request.toOutcome, endTreeHash, now⟩, rfl, rfl, hid ▸ hcomplete⟩

lemma step_result {call : SessionCall} (hP : call.Tells H P) :
    Result H P s call (call.step H D s) := by
  cases call with
  | create task now =>
    refine .moves (commit_cases (.refl s) fun s' hok => ?_)
    obtain ⟨⟨ts, s''⟩, hcreate, rfl⟩ := map_ok.mp hok
    exact (follows_create hcreate).1
  | start workspaceId request now =>
    refine .moves (commit_cases (.refl s) fun s' hok => ?_)
    obtain ⟨⟨ts, s''⟩, hstart, rfl⟩ := map_ok.mp hok
    exact follows_startLegacy hstart
  | transition taskSessionId target =>
    refine commit_cases (P := Result H P s _) (.moves (.refl s)) fun s' hok => ?_
    exact .transition taskSessionId target rfl hok
  | activate taskSessionId identity =>
    exact .moves (commit_cases (.refl s) fun s' hok => follows_activate hok)
  | record taskSessionId event =>
    exact .moves (commit_cases (.refl s) fun s' hok => (follows_recordContextUseEvent hP hok).1)
  | requestSource workspaceId taskSessionId request occurredAt =>
    exact .moves (commit_cases (.refl s) fun s' hok => follows_recordExactSource hP hok)
  | persistDelta delta =>
    refine .moves (commit_cases (.refl s) fun s' hok => ?_)
    obtain ⟨deltas, hpersist, rfl⟩ := map_ok.mp hok
    exact follows_persist hpersist
  | completeWith taskSessionId delta outcome endTreeHash now =>
    refine commit_cases (P := Result H P s _) (.moves (.refl s)) fun s' hok => ?_
    exact .completed taskSessionId ⟨delta, outcome, endTreeHash, now⟩ hok
  | complete disk t workspaceId taskSessionId request now =>
    refine commit_cases (P := Result H P s _) (.moves (.refl s)) fun s' hok => ?_
    obtain ⟨⟨ts, s''⟩, hcomplete, rfl⟩ := map_ok.mp hok
    rcases completeLegacy_ok hcomplete with rfl | ⟨c, -, -, hok'⟩
    · exact .moves (.refl _)
    · exact .completed taskSessionId c hok'
  | abandon workspaceId taskSessionId request now =>
    refine commit_cases (P := Result H P s _) (.moves (.refl s)) fun s' hok => ?_
    obtain ⟨⟨ts, s''⟩, habandon, rfl⟩ := map_ok.mp hok
    exact .abandoned workspaceId taskSessionId request now ts habandon
  | beginCandidate workspaceId triggerKind providerSetHash schemaVersion now =>
    refine .moves (commit_cases (.refl s) fun s' hok => ?_)
    obtain ⟨c, hfst, rfl⟩ := map_ok.mp hok
    obtain ⟨⟨c', record⟩, hbegin, rfl⟩ := map_ok.mp hfst
    exact follows_begin hbegin
  | activateCandidate workspaceId generationId sourceTreeHash now =>
    refine .moves (commit_cases (.refl s) fun s' hok => ?_)
    obtain ⟨c, hactivate, rfl⟩ := map_ok.mp hok
    exact follows_activateCandidate hactivate
  | failCandidate generationId failureCode failureMessage =>
    refine .moves (commit_cases (.refl s) fun s' hok => ?_)
    obtain ⟨c, hfail, rfl⟩ := map_ok.mp hok
    exact follows_leave hfail
  | abandonCandidate generationId =>
    refine .moves (commit_cases (.refl s) fun s' hok => ?_)
    obtain ⟨c, habandon, rfl⟩ := map_ok.mp hok
    exact follows_leave habandon

lemma follows_step {call : SessionCall} (hP : call.Tells H P) (hends : ∀ e, IsOfCompletion e → P e) :
    Follows TaskSession.Advances P s (call.step H D s) := by
  cases step_result (D := D) hP with
  | moves h => exact h.mono TaskSession.Moves.advances
  | transition id target _ hok => exact follows_transition hok
  | completed id c hok => exact follows_completeTaskSession hends hok
  | abandoned workspaceId id request now ts hok => exact follows_abandon hok

/-- What any calls do to the sessions. -/
lemma follows_run (H : Hasher) (D : Text.DebugFormat) (s : SessionStore)
    (calls : List SessionCall) :
    Follows TaskSession.Advances (fun _ => True) s (run (SessionCall.step H D) s calls) :=
  run_invariant (I := fun s' => Follows TaskSession.Advances (fun _ => True) s s') (.refl s)
    fun _ call h => h.trans (follows_step call.tells_true fun _ _ => trivial)

/-- **Sessions only advance.**  Every session of a database is there after any calls, with the
columns it was created with, moved along the transitions of the life cycle if at all; one that had
ended is as it was, but for the tree it is bound to.  A session that was not there was created by
one of the calls.  The timeline is continued, and no delta and no committed generation is changed. -/
theorem sessions_only_advance (H : Hasher) (D : Text.DebugFormat) (s : SessionStore)
    (calls : List SessionCall) :
    (∀ ts ∈ s.taskSession, ∃ ts' ∈ (run (SessionCall.step H D) s calls).taskSession,
      ts'.origin = ts.origin ∧ TaskSession.Reaches ts.state ts'.state ∧
        (ts.state.isTerminal = true → ts' = { ts with startTreeHash := ts'.startTreeHash }) ∧
          ∀ hash, ts.startTreeHash = some hash → ts'.startTreeHash = some hash) ∧
    (∀ ts' ∈ (run (SessionCall.step H D) s calls).taskSession,
      (∀ ts ∈ s.taskSession, ts.taskSessionId ≠ ts'.taskSessionId) →
        TaskSession.Reaches .created ts'.state) ∧
    s.contextUseEvent.rows <+: (run (SessionCall.step H D) s calls).contextUseEvent.rows ∧
    (∀ row ∈ s.deltas.generationDelta,
      row ∈ (run (SessionCall.step H D) s calls).deltas.generationDelta) ∧
    ∀ g ∈ s.catalogue.indexGeneration, g.state = .committed →
      g ∈ (run (SessionCall.step H D) s calls).catalogue.indexGeneration := by
  have hfollows := follows_run H D s calls
  refine ⟨fun ts hts => ?_, fun ts' hts' hnone => ?_, ?_, hfollows.deltas, hfollows.committed⟩
  · obtain ⟨ts', hts', hadvances⟩ := hfollows.kept ts hts
    exact ⟨ts', hts', hadvances.origin_eq, hadvances.reaches, hadvances.eq_of_isTerminal,
      hadvances.bound⟩
  · obtain ⟨ts, hts | hnew, hadvances⟩ := hfollows.sources ts' hts'
    · exact absurd (TaskSession.taskSessionId_of_origin hadvances.origin_eq).symm (hnone ts hts)
    · rw [← hnew.state_eq]
      exact hadvances.reaches
  · obtain ⟨added, hrows, -⟩ := hfollows.events
    exact ⟨added, hrows.symm⟩

end Runs

/-! ## What is on record -/

/-- The completion of a session is on record. -/
structure IsRecorded (H : Hasher) (s : SessionStore) (ts : TaskSession) (c : Completion) : Prop where
  outcomeCode : c.outcome.outcomeCode ≠ "" ∧
    (utf8 c.outcome.outcomeCode).length ≤ maxOutcomeCodeBytes
  endTreeHash : ContextRoute.validDigest c.endTreeHash = true
  valid : Delta.validateGenerationDelta H c.delta = .ok ()
  spans : ts.workspaceId = c.delta.workspaceId ∧ ts.startGenerationId = c.delta.fromGenerationId
  persisted : ∃ row ∈ s.deltas.generationDelta, row.deltaId = c.delta.deltaId ∧
    row.deltaHash = some c.delta.deltaHash
  generation : ∃ g ∈ s.catalogue.indexGeneration, g.generationId = c.delta.toGenerationId ∧
    g.workspaceId = ts.workspaceId ∧ g.state = .committed ∧ g.sourceTreeHash = some c.endTreeHash
  told : ∀ event ∈ c.events H ts.taskSessionId, event.row ts.taskSessionId ∈ s.contextUseEvent

/-- How a session stands. -/
inductive Accounted (H : Hasher) (s : SessionStore) (ts : TaskSession) : Prop
  | unended (h : ts.ending = TaskSession.noEnding)
  | completed (c : Completion) (hstate : ts.state = .completed) (h : ts.ending = c.ending)
      (hrecorded : IsRecorded H s ts c)
  | abandoned (reason : LegacyTaskAbandonReason) (now : Timestamp) (hstate : ts.state = .abandoned)
      (h : ts.ending = (none, none, none, some reason.asStr, none, some now))

section Records

variable {H : Hasher} {D : Text.DebugFormat} {s s' : SessionStore} {ts ts' : TaskSession}
  {c : Completion} {calls : List SessionCall} {taskSessionId : String}

lemma IsRecorded.grows (h : IsRecorded H s ts c) (hgrows : Grows P s s')
    (horigin : ts'.origin = ts.origin) : IsRecorded H s' ts' c := by
  have hid := TaskSession.taskSessionId_of_origin horigin
  have hws : ts'.workspaceId = ts.workspaceId := by
    simpa [TaskSession.origin] using congrArg TaskSession.workspaceId horigin
  have hstart : ts'.startGenerationId = ts.startGenerationId := by
    simpa [TaskSession.origin] using congrArg TaskSession.startGenerationId horigin
  obtain ⟨row, hrow, hrowIs⟩ := h.persisted
  obtain ⟨g, hg, hgid, hgws, hgstate, hgtree⟩ := h.generation
  exact
    { outcomeCode := h.outcomeCode
      endTreeHash := h.endTreeHash
      valid := h.valid
      spans := hws ▸ hstart ▸ h.spans
      persisted := ⟨row, hgrows.deltas row hrow, hrowIs⟩
      generation := ⟨g, hgrows.committed g hg hgstate, hgid, hws ▸ hgws, hgstate, hgtree⟩
      told := fun event he => hid ▸ hgrows.events.mem (h.told event (hid ▸ he)) }

/-- A session that does not end is accounted for as before. -/
lemma Accounted.moves (h : Accounted H s ts) (hgrows : Grows P s s') (hmoves : ts.Moves ts') :
    Accounted H s' ts' := by
  have hstate : ts.state.isTerminal = true → ts'.state = ts.state :=
    hmoves.reaches.eq_of_isTerminal
  cases h with
  | unended h => exact .unended (hmoves.ending_eq.trans h)
  | completed c hcompleted h hrecorded =>
    exact .completed c ((hstate (by rw [hcompleted]; rfl)).trans hcompleted)
      (hmoves.ending_eq.trans h) (hrecorded.grows hgrows hmoves.origin_eq)
  | abandoned reason now habandoned h =>
    exact .abandoned reason now ((hstate (by rw [habandoned]; rfl)).trans habandoned)
      (hmoves.ending_eq.trans h)

/-- Every session is accounted for. -/
def AllAccounted (H : Hasher) (s : SessionStore) : Prop := ∀ ts ∈ s.taskSession, Accounted H s ts

lemma AllAccounted.moves (h : AllAccounted H s) (hfollows : Follows TaskSession.Moves P s s') :
    AllAccounted H s' := by
  intro ts' hts'
  obtain ⟨ts, hts | hnew, hmoves⟩ := hfollows.sources ts' hts'
  · exact (h ts hts).moves hfollows.toGrows hmoves
  · exact (Accounted.unended (s := s) hnew.ending_eq).moves hfollows.toGrows hmoves

/-- An update of sessions that leaves those accounted for that it changes. -/
lemma AllAccounted.update {p : TaskSession → Bool} {f : Table.Update TaskSession}
    (h : AllAccounted H s)
    (hf : ∀ ts ∈ s.taskSession, p ts = true → Accounted H s (f ts)) :
    AllAccounted H (s.updateSessions p f) := by
  have hgrows : Grows (fun _ => True) s (s.updateSessions p f) :=
    ⟨.refl _ _, fun _ => id, fun _ hg _ => hg⟩
  intro ts' hts'
  obtain ⟨ts, hts, rfl⟩ := Table.mem_update.mp hts'
  split
  next hp => exact (hf ts hts hp).moves hgrows (.refl _)
  next => exact (h ts hts).moves hgrows (.refl _)

/-- A session that has not reached its end says nothing about it. -/
lemma Accounted.ending_eq (h : Accounted H s ts) (hopen : ts.state.isTerminal = false) :
    ts.ending = TaskSession.noEnding := by
  cases h with
  | unended h => exact h
  | completed c hstate => simp [hstate, TaskSessionState.isTerminal] at hopen
  | abandoned reason now hstate => simp [hstate, TaskSessionState.isTerminal] at hopen

/-- A completion is accounted for. -/
lemma AllAccounted.finish (h : AllAccounted H s) (hts : ts ∈ s.taskSession)
    (hcode : c.outcome.outcomeCode ≠ "" ∧ (utf8 c.outcome.outcomeCode).length ≤ maxOutcomeCodeBytes)
    (hdigest : ContextRoute.validDigest c.endTreeHash = true)
    (hok : s.finish H ts c.delta c.outcome c.endTreeHash c.completedAt = .ok s') :
    AllAccounted H s' := by
  obtain ⟨-, hspans, hend, deltas, told, hpersist, hfollows, htold, hchange⟩ := finish_ok hok
  have hmoves : Follows TaskSession.Moves IsOfCompletion s told := (follows_persist hpersist).trans hfollows
  obtain ⟨-, rfl⟩ := changeSession_ok hchange
  refine (h.moves hmoves).update fun x hx hp => ?_
  -- the session that is completed is the one that was read first
  obtain ⟨ts', hts', hmove⟩ := hmoves.kept ts hts
  obtain rfl : ts' = x := Table.eq_of_clash hts' hx
    ((TaskSession.taskSessionId_of_origin hmove.origin_eq).trans (isIn_iff.mp hp).1.symm)
  obtain ⟨row, hrow, hrowIs⟩ := exists_persisted hpersist
  obtain ⟨g, hg, hgid, hgws, hgstate, hgtree⟩ := exists_of_isEndGeneration hend
  have hrecorded : IsRecorded H told ts c :=
    { outcomeCode := hcode
      endTreeHash := hdigest
      valid := (Delta.persist_cases hpersist).1
      spans := hspans
      persisted := ⟨row, hfollows.deltas row hrow, hrowIs⟩
      generation := ⟨g, hmoves.committed g hg hgstate, hgid, hgws, hgstate, hgtree⟩
      told := htold }
  refine .completed c rfl rfl
    (hrecorded.grows (P := IsOfCompletion) ⟨.refl _ _, fun _ => id, fun _ hg _ => hg⟩ ?_)
  exact hmove.origin_eq

lemma AllAccounted.completeTaskSession (h : AllAccounted H s)
    (hok : s.completeTaskSession H taskSessionId c.delta c.outcome c.endTreeHash c.completedAt =
      .ok s') : AllAccounted H s' := by
  obtain ⟨⟨⟩, hcode, hrest⟩ := bind_ok.mp hok
  obtain ⟨⟨⟩, hdigest, hrest⟩ := bind_ok.mp hrest
  obtain ⟨ts, hsession, hrest⟩ := bind_ok.mp hrest
  split at hrest
  next =>
    obtain rfl := replayCompletion_ok hrest
    exact h
  next =>
    exact h.finish (mem_of_session hsession).1 (ensure_eq_ok.mp hcode) (ensure_eq_ok.mp hdigest)
      hrest

lemma AllAccounted.abandon {workspaceId : String} {request : LegacyTaskAbandonRequest}
    {now : Timestamp} (h : AllAccounted H s)
    (hok : s.abandonLegacyTaskSession workspaceId taskSessionId request now = .ok (ts, s')) :
    AllAccounted H s' := by
  rcases abandon_ok hok with rfl | rfl
  · exact h
  refine h.update fun x hx hp => ?_
  simp only [Bool.decide_and, Bool.decide_or, Bool.and_eq_true, Bool.or_eq_true,
    decide_eq_true_eq] at hp
  have hending : x.ending = TaskSession.noEnding := by
    refine (h x hx).ending_eq ?_
    rcases hp.2 with hstate | hstate <;> rw [hstate] <;> rfl
  refine .abandoned request.reason now rfl ?_
  simp only [TaskSession.ending, TaskSession.noEnding, Prod.mk.injEq] at hending
  simp [TaskSession.ending, setAbandoned, hending]

/-- A bare transition says nothing about an end. -/
lemma AllAccounted.transition {target : TaskSessionState} (h : AllAccounted H s)
    (hok : s.transitionTaskSession taskSessionId target = .ok s') : AllAccounted H s' := by
  obtain ⟨ts, hsession, hrest⟩ := bind_ok.mp hok
  obtain ⟨⟨⟩, hcheck, hret⟩ := bind_ok.mp hrest
  obtain rfl := Except.ok.inj hret
  obtain ⟨hts, hid⟩ := mem_of_session hsession
  refine h.update fun x hx hp => ?_
  obtain rfl : x = ts := Table.eq_of_clash hx hts
    ((of_decide_eq_true hp : x.taskSessionId = taskSessionId).trans hid.symm)
  have hopen : x.state.isTerminal = false := by
    have hvalid := ensure_eq_ok.mp hcheck
    by_contra hend
    rw [isValidTransition, if_pos (by simpa using hend)] at hvalid
    exact absurd hvalid (by simp)
  exact .unended ((h x hx).ending_eq hopen)

lemma AllAccounted.step (h : AllAccounted H s) (call : SessionCall) :
    AllAccounted H (call.step H D s) := by
  cases step_result (D := D) call.tells_true with
  | moves hmoves => exact h.moves hmoves
  | transition id target _ hok => exact h.transition hok
  | completed id c hok => exact h.completeTaskSession hok
  | abandoned workspaceId id request now ts hok => exact h.abandon hok

/-- A digest of 32 bytes that says nothing, for runs on concrete values. -/
def zeroHasher : Hasher where
  blake3Short _ := [0]
  blake3Framed _ := [0]
  sha256 _ := List.replicate 32 0

/-- A committed generation with a tree. -/
def committedRow (generationId : String) (sequenceNo : ℕ) : IndexGeneration :=
  ⟨generationId, "ws", none, sequenceNo, .committed, .manual, some (toHex (List.replicate 32 0)),
    "p", "1", 0, some 0, none, none, .zero⟩

/-- Two committed generations. -/
def twoCommitted : Table IndexGeneration :=
  (Table.empty.insertOrIgnore (committedRow "g₁" 1)).insertOrIgnore (committedRow "g₂" 2)

/-- A session in some state that was started in the first of two generations. -/
def rowIn (state : TaskSessionState) : TaskSession :=
  ⟨"task", "ws", "g₁", none, "th", "gh", .none, none, .unknown, .unknown, none, "p", "1.0.0",
    state, none, none, none, some (toHex (List.replicate 32 0)), none, 0, none⟩

/-- The database with this session. -/
def sessionIn (state : TaskSessionState) : SessionStore :=
  .ofCatalogue
    { Catalogue.registered [] with
      workspace := .insertOrIgnore .empty ⟨"ws", some "g₂"⟩
      indexGeneration := twoCommitted
      taskSession := .insertOrIgnore .empty (rowIn state) }

/-- The generations again, without any facts. -/
def noFacts : Delta.Tables := { Delta.Tables.empty with indexGeneration := twoCommitted }

/-- The session is completed. -/
def completesTask : SessionCall :=
  .complete (fun _ => none) noFacts "ws" "task" ⟨⟨true, some true, "done"⟩, "1.0.0"⟩ 0

lemma mem_sessionIn {state : TaskSessionState} (h : ts ∈ (sessionIn state).taskSession) :
    ts.state = state ∧ ts.ending = TaskSession.noEnding := by
  have hrow : ts ∈ Table.insertOrIgnore .empty (rowIn state) := h
  rcases Table.mem_insertOrIgnore.mp hrow with hnone | ⟨rfl, -⟩
  · exact absurd hnone Table.not_mem_empty
  · exact ⟨rfl, rfl⟩

end Records

end SessionStore

end WorkspaceAtlas
