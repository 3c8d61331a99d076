/-
# Calls that are made again

A session is started, completed and abandoned once: the same call finds the same session later,
whatever was called in between, and changes nothing, while another end is refused.  The observed
requests for exact sources are numbered without gaps.
-/
import WorkspaceAtlas.Session.SessionRun

namespace WorkspaceAtlas

open Relational Transition

namespace SessionStore

section Once

variable {H : Hasher} {D : Text.DebugFormat} {s s' : SessionStore} {ts ts' : TaskSession}
  {workspaceId taskSessionId : String} {now : Timestamp} {calls : List SessionCall}

/-! ## Reading a session -/

lemma session_of_mem (hts : ts ∈ s.taskSession) (e : AtlasError) :
    s.session ts.taskSessionId e = .ok ts := by
  have hfind : (s.taskSession.find? fun x => x.taskSessionId = ts.taskSessionId) = some ts := by
    rw [Table.find?_eq_some_iff]
    · exact ⟨hts, by simp⟩
    · intro x _ y _ hx hy
      simp only [decide_eq_true_eq] at hx hy
      exact hx.trans hy.symm
  rw [session, loadTaskSession, hfind]
  rfl

/-- The columns that a request names are those that no call changes. -/
lemma requireLegacySession_congr (h : ts'.origin = ts.origin) :
    requireLegacySession ts' workspaceId = requireLegacySession ts workspaceId := by
  have hws : ts'.workspaceId = ts.workspaceId := by
    simpa [TaskSession.origin] using congrArg TaskSession.workspaceId h
  have hversion : ts'.contextIrVersion = ts.contextIrVersion := by
    simpa [TaskSession.origin] using congrArg TaskSession.contextIrVersion h
  rw [requireLegacySession, requireLegacySession, hws, hversion]

/-- A session that has ended is found as it was by every later call. -/
lemma exists_later (calls : List SessionCall) (hts : ts ∈ s.taskSession) (hend : ts.state.isTerminal = true)
    (hsession : requireLegacySession ts workspaceId = .ok ()) :
    ∃ ts', (∀ e, (run (SessionCall.step H D) s calls).session ts.taskSessionId e = .ok ts') ∧
      ts'.state = ts.state ∧ ts'.ending = ts.ending ∧
        requireLegacySession ts' workspaceId = .ok () := by
  obtain ⟨ts', hts', hadvances⟩ := (follows_run H D s calls).kept ts hts
  refine ⟨ts', fun e => ?_, hadvances.reaches.eq_of_isTerminal hend, hadvances.frozen hend, ?_⟩
  · rw [← TaskSession.taskSessionId_of_origin hadvances.origin_eq]
    exact session_of_mem hts' e
  · rw [requireLegacySession_congr hadvances.origin_eq, hsession]

/-! ## Completions -/

/-- The verdict of a completed session. -/
def verdict (ts : TaskSession) : Option Bool × Option Bool × Option String :=
  (ts.accepted, ts.testsPassed, ts.outcomeCode)

/-- The verdict that a completion sets. -/
def Outcome.verdict (outcome : Outcome) : Option Bool × Option Bool × Option String :=
  (some outcome.accepted, outcome.testsPassed, some outcome.outcomeCode)

lemma Outcome.verdict_inj {a b : Outcome} : Outcome.verdict a = Outcome.verdict b ↔ a = b := by
  cases a
  cases b
  simp [Outcome.verdict]

lemma verdict_eq_iff {outcome : Outcome} : verdict ts = Outcome.verdict outcome ↔
    ts.accepted = some outcome.accepted ∧ ts.testsPassed = outcome.testsPassed ∧
      ts.outcomeCode = some outcome.outcomeCode := by
  simp [verdict, Outcome.verdict]

lemma verdict_of_ending (h : ts'.ending = ts.ending) : verdict ts' = verdict ts := by
  simp only [TaskSession.ending, Prod.mk.injEq] at h
  simp [verdict, h]

/-- The session that a completion has changed. -/
lemma session_of_finish {c : Completion} {found : TaskSession} {e : AtlasError}
    (hfound : found ∈ s.taskSession)
    (h : s.finish H found c.delta c.outcome c.endTreeHash c.completedAt = .ok s')
    (hread : s'.session found.taskSessionId e = .ok ts) :
    ts.state = .completed ∧ verdict ts = Outcome.verdict c.outcome ∧ ts.origin = found.origin := by
  obtain ⟨-, -, -, deltas, told, hpersist, hfollows, -, hchange⟩ := finish_ok h
  obtain ⟨⟨x, hx, hin⟩, rfl⟩ := changeSession_ok hchange
  obtain ⟨y, hy, hmove⟩ := ((follows_persist hpersist).trans hfollows).kept found hfound
  have hyid := TaskSession.taskSessionId_of_origin hmove.origin_eq
  obtain rfl : x = y := Table.eq_of_clash hx hy ((isIn_iff.mp hin).1.trans hyid.symm)
  have hmem : setCompleted c.delta.toGenerationId c.outcome.accepted c.outcome.testsPassed
      c.outcome.outcomeCode c.endTreeHash c.completedAt x ∈
        (told.updateSessions (isIn found.taskSessionId .reconciled)
          (setCompleted c.delta.toGenerationId c.outcome.accepted c.outcome.testsPassed
            c.outcome.outcomeCode c.endTreeHash c.completedAt)).taskSession :=
    Table.mem_update_of_mem hx hin
  obtain ⟨hts, hid⟩ := mem_of_session hread
  obtain rfl := Table.eq_of_clash hts hmem (hid.trans hyid.symm)
  exact ⟨rfl, rfl, hmove.origin_eq⟩

/-- The session that is answered to a completion. -/
lemma completed_of_completeLegacy {disk : Delta.WorkingDirectory} {t : Delta.Tables}
    {request : LegacyTaskCompleteRequest}
    (h : s.completeLegacyTaskSession H disk t workspaceId taskSessionId request now =
      .ok (ts, s')) :
    ts ∈ s'.taskSession ∧ ts.taskSessionId = taskSessionId ∧ ts.state = .completed ∧
      verdict ts = Outcome.verdict request.toOutcome ∧
        requireLegacySession ts workspaceId = .ok () := by
  obtain ⟨⟨⟩, -, hrest⟩ := bind_ok.mp h
  obtain ⟨found, hfound, hrest⟩ := bind_ok.mp hrest
  obtain ⟨⟨⟩, hrequire, hrest⟩ := bind_ok.mp hrest
  obtain ⟨hmem, hid⟩ := mem_of_session (mapError_ok.mp hfound)
  split at hrest
  next hstate =>
    split at hrest
    next hsame =>
      obtain ⟨rfl, rfl⟩ := Prod.mk.inj (Except.ok.inj hrest)
      exact ⟨hmem, hid, hstate, verdict_eq_iff.mpr hsame, hrequire⟩
    next => exact absurd hrest (by simp)
  next hopen =>
    obtain ⟨⟨⟩, -, hrest⟩ := bind_ok.mp (mapError_ok.mp hrest)
    obtain ⟨⟨endGenerationId, endTreeHash⟩, -, hrest⟩ := bind_ok.mp hrest
    obtain ⟨delta, -, hrest⟩ := bind_ok.mp hrest
    obtain ⟨mid, hcomplete, hrest⟩ := bind_ok.mp hrest
    obtain ⟨found', hread, hret⟩ := bind_ok.mp hrest
    obtain ⟨rfl, rfl⟩ := Prod.mk.inj (Except.ok.inj hret)
    obtain ⟨⟨⟩, -, hrest⟩ := bind_ok.mp hcomplete
    obtain ⟨⟨⟩, -, hrest⟩ := bind_ok.mp hrest
    obtain ⟨again, hagain, hrest⟩ := bind_ok.mp hrest
    rw [session_of_mem hmem] at hagain
    obtain rfl := Except.ok.inj hagain
    rw [if_neg hopen] at hrest
    obtain ⟨hstate, hverdict, horigin⟩ := session_of_finish
      (c := ⟨delta, request.toOutcome, endTreeHash, now⟩) hmem hrest hread
    obtain ⟨hts, htsid⟩ := mem_of_session hread
    exact ⟨hts, htsid.trans hid, hstate, hverdict, requireLegacySession_congr horigin ▸ hrequire⟩

lemma requireLegacyContract_self :
    requireLegacyContract legacyLifecycleContractVersion = .ok () := rfl

lemma LegacyTaskAbandonReason.asStr_inj {a b : LegacyTaskAbandonReason} :
    a.asStr = b.asStr ↔ a = b := by
  cases a <;> cases b <;> decide

/-- The session that is answered to an abandonment. -/
lemma abandoned_of_abandonLegacy {request : LegacyTaskAbandonRequest}
    (h : s.abandonLegacyTaskSession workspaceId taskSessionId request now = .ok (ts, s')) :
    ts ∈ s'.taskSession ∧ ts.taskSessionId = taskSessionId ∧ ts.state = .abandoned ∧
      ts.outcomeCode = some request.reason.asStr ∧ ts.completedAt.isSome = true ∧
        requireLegacySession ts workspaceId = .ok () := by
  obtain ⟨⟨⟩, -, hrest⟩ := bind_ok.mp h
  obtain ⟨found, hfound, hrest⟩ := bind_ok.mp hrest
  obtain ⟨⟨⟩, hrequire, hrest⟩ := bind_ok.mp hrest
  obtain ⟨hmem, hid⟩ := mem_of_session (mapError_ok.mp hfound)
  split at hrest
  next hstate =>
    split at hrest
    next hsame =>
      obtain ⟨rfl, rfl⟩ := Prod.mk.inj (Except.ok.inj hrest)
      exact ⟨hmem, hid, hstate, hsame.1, hsame.2, hrequire⟩
    next => exact absurd hrest (by simp)
  next =>
    obtain ⟨⟨⟩, hopen, hrest⟩ := bind_ok.mp hrest
    obtain ⟨mid, hchange, hrest⟩ := bind_ok.mp hrest
    obtain ⟨found', hread, hret⟩ := bind_ok.mp hrest
    obtain ⟨rfl, rfl⟩ := Prod.mk.inj (Except.ok.inj hret)
    obtain ⟨-, rfl⟩ := changeSession_ok (mapError_ok.mp hchange)
    obtain ⟨hts, htsid⟩ := mem_of_session (mapError_ok.mp hread)
    have hchanged := Table.mem_update_of_mem (f := setAbandoned request.reason.asStr now)
      (p := fun ts => ts.taskSessionId = taskSessionId ∧
        (ts.state = .active ∨ ts.state = .reconciled)) hmem
      (by simpa [hid] using ensure_eq_ok.mp hopen)
    obtain rfl := Table.eq_of_clash hts hchanged (htsid.trans hid.symm)
    exact ⟨hts, htsid, rfl, rfl, rfl, hrequire⟩

/-- The call does not end a session by a bare transition. -/
def EndsNone : SessionCall → Prop
  | .transition _ target => target.isTerminal = false
  | _ => True

instance : DecidablePred EndsNone
  | .transition _ target => inferInstanceAs (Decidable (target.isTerminal = false))
  | .create .. | .start .. | .activate .. | .record .. | .requestSource .. | .persistDelta ..
  | .completeWith .. | .complete .. | .abandon .. | .beginCandidate .. | .activateCandidate ..
  | .failCandidate .. | .abandonCandidate .. => isTrue trivial

/-- A session in a final state has a time at which it ended. -/
def EndsDated (s : SessionStore) : Prop :=
  ∀ ts ∈ s.taskSession, ts.state.isTerminal = true → ts.completedAt ≠ none

lemma EndsDated.moves (h : EndsDated s) (hfollows : Follows TaskSession.Moves P s s') :
    EndsDated s' := by
  intro ts' hts' hend
  obtain ⟨ts, hsource, hmoves⟩ := hfollows.sources ts' hts'
  have hstate := hmoves.ended hend
  have hcompleted : ts'.completedAt = ts.completedAt := by
    have hending := hmoves.ending_eq
    simp only [TaskSession.ending, Prod.mk.injEq] at hending
    exact hending.2.2.2.2.2
  rw [hcompleted]
  rcases hsource with hts | hnew
  · exact h ts hts (hstate ▸ hend)
  · rw [hstate, hnew.state_eq] at hend
    exact absurd hend (by decide)

lemma EndsDated.update {p : TaskSession → Bool} {f : Table.Update TaskSession} (h : EndsDated s)
    (hf : ∀ ts ∈ s.taskSession, p ts = true → (f ts).state.isTerminal = true →
      (f ts).completedAt ≠ none) : EndsDated (s.updateSessions p f) := by
  intro ts' hts'
  obtain ⟨ts, hts, rfl⟩ := Table.mem_update.mp hts'
  split
  next hp => exact hf ts hts hp
  next => exact h ts hts

lemma EndsDated.step (h : EndsDated s) {call : SessionCall} (hcall : EndsNone call) :
    EndsDated (call.step H D s) := by
  cases step_result (D := D) call.tells_true with
  | moves hmoves => exact h.moves hmoves
  | transition id target heq hok =>
    subst heq
    obtain ⟨ts, hsession, hrest⟩ := bind_ok.mp hok
    obtain ⟨⟨⟩, -, hret⟩ := bind_ok.mp hrest
    rw [← Except.ok.inj hret]
    exact h.update fun x _ _ hend => absurd (hcall.symm.trans hend) (by simp)
  | completed id c hok =>
    obtain ⟨⟨⟩, -, hrest⟩ := bind_ok.mp hok
    obtain ⟨⟨⟩, -, hrest⟩ := bind_ok.mp hrest
    obtain ⟨ts, -, hrest⟩ := bind_ok.mp hrest
    split at hrest
    next =>
      rw [replayCompletion_ok hrest]
      exact h
    next =>
      obtain ⟨-, -, -, deltas, told, hpersist, hfollows, -, hchange⟩ := finish_ok hrest
      rw [(changeSession_ok hchange).2]
      exact (h.moves ((follows_persist hpersist).trans hfollows)).update
        fun x _ _ _ => Option.some_ne_none _
  | abandoned workspaceId id request now ts hok =>
    rcases abandon_ok hok with heq | heq
    · rw [heq]
      exact h
    · rw [heq]
      exact h.update fun x _ _ _ => Option.some_ne_none _

lemma mem_completedSessions_iff (hts : ts ∈ s.taskSession) :
    (∃ c ∈ s.completedSessions ts.workspaceId, c.taskSessionId = ts.taskSessionId) ↔
      ts.state.isTerminal = true ∧ ts.completedAt ≠ none := by
  have hstate : ts.state.isTerminal = true ↔
      ts.state = .completed ∨ ts.state = .abandoned ∨ ts.state = .failed := by
    simp [TaskSessionState.isTerminal]
  constructor
  · rintro ⟨c, hc, hid⟩
    obtain ⟨x, hx, -, hsome⟩ := mem_completedSessions.mp hc
    obtain ⟨hend, hat, hxid, -⟩ := completedSession_eq_some hsome
    obtain rfl : x = ts := Table.eq_of_clash hx hts (hxid.trans hid)
    exact ⟨hstate.mpr hend, hat ▸ Option.some_ne_none _⟩
  · rintro ⟨hend, hdated⟩
    obtain ⟨completedAt, hat⟩ := Option.ne_none_iff_exists'.mp hdated
    refine ⟨⟨ts.taskSessionId, completedAt, ts.rawTask⟩, mem_completedSessions.mpr
      ⟨ts, hts, rfl, ?_⟩, rfl⟩
    rw [completedSession, if_pos (hstate.mp hend), hat]
    rfl

/-- **Retention misses no end.**  If no bare transition ends a session, the sessions in a final
state are those that retention ranks, in every state of a run. -/
theorem retained_of_endsNone (D : Text.DebugFormat) (h : EndsDated s)
    (hcalls : ∀ call ∈ calls, EndsNone call) :
    ∀ ts ∈ (run (SessionCall.step H D) s calls).taskSession, ts.state.isTerminal = true ↔
      ∃ c ∈ (run (SessionCall.step H D) s calls).completedSessions ts.workspaceId,
        c.taskSessionId = ts.taskSessionId := by
  have hdated : EndsDated (run (SessionCall.step H D) s calls) := by
    induction calls generalizing s with
    | nil => exact h
    | cons call calls ih =>
      exact ih (h.step (hcalls call (by simp))) fun c hc => hcalls c (by simp [hc])
  intro ts hts
  rw [mem_completedSessions_iff hts]
  exact ⟨fun hend => ⟨hend, hdated ts hts hend⟩, And.left⟩

theorem retained_completed :
    ∃ c ∈ (run (SessionCall.step zeroHasher .plain) (sessionIn .reconciled)
      [completesTask]).completedSessions "ws", c.taskSessionId = "task" := by
  have hok : ((sessionIn .reconciled).completeLegacyTaskSession zeroHasher (fun _ => none) noFacts
      "ws" "task" ⟨⟨true, some true, "done"⟩, "1.0.0"⟩ 0).toOption.isSome = true := by decide +kernel
  obtain ⟨⟨ts, s'⟩, h⟩ := Option.isSome_iff_exists.mp hok
  have hrun : run (SessionCall.step zeroHasher .plain) (sessionIn .reconciled) [completesTask] =
      s' := by
    simp [completesTask, SessionCall.step, commit, ok_of_toOption h, Except.map, Except.toOption]
  obtain ⟨hts, hid, hstate, -, hrequire⟩ := completed_of_completeLegacy (ok_of_toOption h)
  rw [← hid, ← (ensure_eq_ok.mp hrequire).1]
  refine (retained_of_endsNone .plain (fun x hx hterminal => ?_) ?_ ts (hrun ▸ hts)).mp
    (by rw [hstate]; rfl)
  · rw [(mem_sessionIn hx).1] at hterminal
    exact absurd hterminal (by decide)
  · simp [completesTask, EndsNone]

/-! ## Starts -/

/-- The columns of a session that a start compares. -/
def startColumns (ts : TaskSession) :
    String × String × String × TaskKindSource × String × Option String :=
  (ts.startGenerationId, ts.taskHash, ts.normalizedGoalHash, ts.taskKindSource,
    ts.contextIrVersion, ts.taskKindRuleId)

lemma startColumns_of_origin (h : ts'.origin = ts.origin) : startColumns ts' = startColumns ts := by
  have hcolumns : startColumns ts'.origin = startColumns ts.origin := by rw [h]
  exact hcolumns

/-- The session of a task that was started. -/
structure IsStarted (H : Hasher) (ts : TaskSession) (task : NewTask) (startTreeHash : String) :
    Prop where
  id_eq : ts.taskSessionId = task.sessionId H
  columns_eq : startColumns ts = (task.startGenerationId, task.taskHash, task.normalizedGoalHash,
    task.taskKindSource, legacyLifecycleContractVersion, task.taskKindRuleId)
  tree_eq : ts.startTreeHash = some startTreeHash

/-- A start that succeeds. -/
lemma startSession_ok {request : LegacyTaskStartRequest}
    (h : s.startSession H D workspaceId request now = .ok (ts, s')) :
    ∃ generationId startTreeHash,
      s.activeTree workspaceId "task start requires an active committed generation"
        " with a source tree hash" = .ok (generationId, startTreeHash) ∧
      ((newTask H workspaceId generationId request).row H now).validate D = .ok () ∧
      ts ∈ s'.taskSession ∧
        IsStarted H ts (newTask H workspaceId generationId request) startTreeHash := by
  obtain ⟨⟨generationId, startTreeHash⟩, hactive, hrest⟩ := bind_ok.mp h
  obtain ⟨⟨created, mid⟩, hcreate, hrest⟩ := bind_ok.mp hrest
  obtain ⟨⟨⟩, hcheck, hrest⟩ := bind_ok.mp hrest
  obtain ⟨found, hfound, hrest⟩ := bind_ok.mp hrest
  obtain ⟨⟨⟩, htree, hret⟩ := bind_ok.mp hrest
  obtain ⟨rfl, rfl⟩ := Prod.mk.inj (Except.ok.inj hret)
  obtain ⟨⟨⟩, -, hrest⟩ := bind_ok.mp hcreate
  obtain ⟨⟨⟩, hvalid, hrest⟩ := bind_ok.mp hrest
  obtain ⟨inserted, -, hrest⟩ := bind_ok.mp hrest
  obtain ⟨read, hread, hret⟩ := bind_ok.mp hrest
  obtain ⟨rfl, rfl⟩ := Prod.mk.inj (Except.ok.inj hret)
  obtain ⟨hmem, hid⟩ := mem_of_session hread
  obtain ⟨hts, htsid⟩ := mem_of_session hfound
  -- the session that is read again is the one that was created, bound to a tree
  have horigin : found.origin = read.origin := by
    obtain ⟨y, hy, rfl⟩ := Table.mem_update.mp hts
    have hcases : (if (decide (y.taskSessionId = read.taskSessionId ∧ y.startTreeHash = none)) = true
        then setStartTree startTreeHash y else y).origin = y.origin ∧
        (if (decide (y.taskSessionId = read.taskSessionId ∧ y.startTreeHash = none)) = true
          then setStartTree startTreeHash y else y).taskSessionId = y.taskSessionId := by
      split <;> exact ⟨rfl, rfl⟩
    rw [hcases.1]
    rw [hcases.2] at htsid
    rw [Table.eq_of_clash hy hmem htsid]
  obtain ⟨hgeneration, hhash, hgoal, hsource, hversion, hrule⟩ := ensure_eq_ok.mp hcheck
  refine ⟨generationId, startTreeHash, hactive, hvalid, hts, htsid.trans hid, ?_,
    ensure_eq_ok.mp htree⟩
  rw [startColumns_of_origin horigin, startColumns, hgeneration, hhash, hgoal, hsource, hversion,
    hrule]
  rfl

/-- A session that was created is created again. -/
lemma create_again {task : NewTask} (hts : ts ∈ s.taskSession)
    (hid : ts.taskSessionId = task.sessionId H)
    (hversion : task.contextIrVersion = Delta.contextSchemaVersion)
    (hvalid : (task.row H now).validate D = .ok ()) :
    s.createClassifiedTaskSession H D task now = .ok (ts, s) := by
  have hinsert : s.insertSession (task.row H now) = .ok s := by
    have hclash : s.taskSession.insert? (task.row H now) = none :=
      Table.insert?_eq_none.mpr ⟨ts, hts, hid⟩
    rw [insertSession, hclash]
  have hread := session_of_mem hts (.other
    ("task_session " ++ task.sessionId H ++ " missing immediately after insert"))
  rw [hid] at hread
  simp only [createClassifiedTaskSession, hversion, hvalid, hinsert, hread, ensure, bind,
    Except.bind, if_true]
  rfl

/-- A session that was started is started again. -/
lemma start_again {request : LegacyTaskStartRequest} {generationId startTreeHash : String}
    (hactive : s.activeTree workspaceId "task start requires an active committed generation"
      " with a source tree hash" = .ok (generationId, startTreeHash))
    (hvalid : ((newTask H workspaceId generationId request).row H now).validate D = .ok ())
    (hts : ts ∈ s.taskSession)
    (hstarted : IsStarted H ts (newTask H workspaceId generationId request) startTreeHash) :
    s.startSession H D workspaceId request now = .ok (ts, s) := by
  have hcreate := create_again hts hstarted.id_eq rfl hvalid
  have hupdate : s.updateSessions
      (fun x => x.taskSessionId = ts.taskSessionId ∧ x.startTreeHash = none)
      (setStartTree startTreeHash) = s := by
    rw [updateSessions, Table.update_eq_self]
    · rfl
    · intro x hx
      by_cases hid : x.taskSessionId = ts.taskSessionId
      · obtain rfl := Table.eq_of_clash hx hts hid
        simp [hstarted.tree_eq]
      · simp [hid]
  have hcolumns := hstarted.columns_eq
  simp only [startColumns, Prod.mk.injEq] at hcolumns
  have hgeneration : (newTask H workspaceId generationId request).startGenerationId =
      generationId := rfl
  have hcheck : ts.startGenerationId = generationId ∧
      ts.taskHash = (newTask H workspaceId generationId request).taskHash ∧
      ts.normalizedGoalHash = (newTask H workspaceId generationId request).normalizedGoalHash ∧
      ts.taskKindSource = (newTask H workspaceId generationId request).taskKindSource ∧
      ts.contextIrVersion = legacyLifecycleContractVersion ∧
      ts.taskKindRuleId = (newTask H workspaceId generationId request).taskKindRuleId :=
    hcolumns
  simp only [startSession, hactive, hcreate, hupdate, session_of_mem hts, hstarted.tree_eq, ensure,
    bind, Except.bind, if_pos hcheck, if_true]
  rfl

/-- The observed requests of a session for exact sources are numbered from one on, in the order in
which they were recorded. -/
def IsNumbered (H : Hasher) (s : SessionStore) : Prop :=
  ∀ id, ∃ requests : List (ExactSourceRequest × String),
    s.contextUseEvent.rows.filter (isExactSource id) = requests.zipIdx.map fun r =>
      (exactSourceEvent H id r.1.1 (r.2 + 1) r.1.2).row id

/-- The event is none of an observed request for an exact source. -/
def IsOther (e : ContextUseEvent) : Prop :=
  e.eventType = .exactSourceRequested → e.observationSource ≠ .atlasObserved

lemma isExactSource_of_isOther {e : ContextUseEvent} (h : IsOther e) (id : String) :
    isExactSource id e = false := by
  simp only [isExactSource, Bool.decide_and, Bool.and_eq_false_imp, decide_eq_true_eq,
    decide_eq_false_iff_not]
  exact fun _ htype => h htype

lemma isOther_of_isOfCompletion {e : ContextUseEvent} (h : IsOfCompletion e) : IsOther e := by
  intro htype
  rcases h with h | h <;> rw [h] at htype <;> exact absurd htype (by decide)

lemma IsNumbered.follows {R : TaskSession → TaskSession → Prop} (h : IsNumbered H s)
    (hfollows : Follows R IsOther s s') : IsNumbered H s' := by
  intro id
  rw [hfollows.events.filter_eq fun e he => isExactSource_of_isOther he id]
  exact h id

/-- A request for an exact source that is recorded. -/
lemma recordContextUseEvent_rows {event : ContextUse}
    (h : s.recordContextUseEvent taskSessionId event = .ok s') :
    s'.contextUseEvent.rows = s.contextUseEvent.rows ++ [event.row taskSessionId] := by
  have hinsert : ∀ {s₁}, s.insertEvent taskSessionId event = .ok s₁ →
      s₁.contextUseEvent.rows = s.contextUseEvent.rows ++ [event.row taskSessionId] := by
    intro s₁ hok
    obtain ⟨events, hevents, rfl⟩ := insertEvent_ok hok
    exact Table.rows_of_insert? hevents
  unfold recordContextUseEvent at h
  split at h
  next =>
    obtain ⟨state, -, hrest⟩ := bind_ok.mp h
    obtain ⟨mid, hmid, hactivate⟩ := bind_ok.mp hrest
    -- what activates the session tells nothing
    have hlast := (follows_activateValidated (P := fun _ => False) hactivate).events
    obtain ⟨l, hrows, hl⟩ := hlast
    obtain rfl : l = [] := List.eq_nil_iff_forall_not_mem.mpr hl
    rw [hrows, List.append_nil, hinsert hmid]
  next => exact hinsert h

lemma IsNumbered.requestSource {request : ExactSourceRequest} {occurredAt : String}
    (h : IsNumbered H s)
    (hok : s.recordExactSourceRequest H workspaceId taskSessionId request occurredAt = .ok s') :
    IsNumbered H s' := by
  obtain ⟨⟨⟩, -, hrest⟩ := bind_ok.mp hok
  obtain ⟨ts, -, hrest⟩ := bind_ok.mp hrest
  obtain ⟨⟨⟩, -, hrecord⟩ := bind_ok.mp hrest
  have hrows := recordContextUseEvent_rows hrecord
  intro id
  obtain ⟨requests, hrequests⟩ := h id
  rw [hrows, List.filter_append, hrequests]
  by_cases hid : id = taskSessionId
  · subst hid
    refine ⟨requests ++ [(request, occurredAt)], ?_⟩
    -- the number is one more than there are requests before
    have hcount : s.contextUseEvent.count (isExactSource id) = requests.length := by
      rw [Table.count, List.countP_eq_length_filter, hrequests, List.length_map,
        List.length_zipIdx]
    simp [List.zipIdx_append, hcount, isExactSource, ContextUse.row, exactSourceEvent]
  · refine ⟨requests, ?_⟩
    have hother : isExactSource id ((exactSourceEvent H taskSessionId request
        (s.contextUseEvent.count (isExactSource taskSessionId) + 1) occurredAt).row
          taskSessionId) = false := by
      simp [isExactSource, ContextUse.row, Ne.symm hid]
    rw [List.filter_singleton, hother]
    simp

/-- An event that is recorded as it is handed over is no observed request for an exact source. -/
def RecordsOther : SessionCall → Prop
  | .record taskSessionId event => IsOther (event.row taskSessionId)
  | _ => True

lemma IsNumbered.step (h : IsNumbered H s) {call : SessionCall} (hcall : RecordsOther call) :
    IsNumbered H (call.step H D s) := by
  have hends : ∀ e, IsOfCompletion e → IsOther e := fun _ => isOther_of_isOfCompletion
  cases call with
  | requestSource workspaceId taskSessionId request occurredAt =>
    exact commit_cases h fun s' hok => h.requestSource hok
  | record taskSessionId event => exact h.follows (follows_step hcall hends)
  | _ => exact h.follows (follows_step trivial hends)

/-- **Requests for exact sources are numbered without gaps.**  In every state of a run, the
observed requests of each session have the numbers from one on, in the order in which they were
recorded, if they are recorded as such: a request that fails takes no number. -/
theorem exactSources_numbered (D : Text.DebugFormat) (h : IsNumbered H s)
    (hcalls : ∀ call ∈ calls, RecordsOther call) :
    IsNumbered H (run (SessionCall.step H D) s calls) := by
  induction calls generalizing s with
  | nil => exact h
  | cons call calls ih =>
    exact ih (h.step (hcalls call (by simp))) fun c hc => hcalls c (by simp [hc])

/-- A request for the file `a`. -/
def requestsFile : SessionCall := .requestSource "ws" "task" ⟨"a", .source, "verified", none⟩ ""

theorem exactSources_numbered_file :
    IsNumbered zeroHasher (run (SessionCall.step zeroHasher .plain) (sessionIn .active)
      [requestsFile, completesTask, requestsFile]) :=
  exactSources_numbered .plain (fun _ => ⟨[], rfl⟩)
    (by simp [requestsFile, completesTask, RecordsOther])

end Once

end SessionStore

end WorkspaceAtlas
