/-
# Task sessions over runs

Whatever calls are made in whatever order, a session only moves along the transitions of its
life cycle, and one that has ended is not changed any more; its timeline, the persisted deltas
and the committed generations are only added to.
-/
import Mathlib.Logic.Relation
import WorkspaceAtlas.Session.Lifecycle
import WorkspaceAtlas.Transition.Iteration

namespace WorkspaceAtlas

open Relational Transition

/-! ## What a later row keeps -/

namespace TaskSession

/-- The columns that no operation changes. -/
def origin (ts : TaskSession) : TaskSession :=
  { ts with
    endGenerationId := none
    state := .created
    accepted := none
    testsPassed := none
    outcomeCode := none
    startTreeHash := none
    endTreeHash := none
    completedAt := none }

/-- The columns that say how a session ended. -/
def ending (ts : TaskSession) : Option String × Option Bool × Option Bool × Option String ×
    Option String × Option Timestamp :=
  (ts.endGenerationId, ts.accepted, ts.testsPassed, ts.outcomeCode, ts.endTreeHash,
    ts.completedAt)

/-- Nothing is said about an end. -/
def noEnding : Option String × Option Bool × Option Bool × Option String × Option String ×
    Option Timestamp := (none, none, none, none, none, none)

/-- Some transitions lead from one state to the other. -/
def Reaches : TaskSessionState → TaskSessionState → Prop :=
  Relation.ReflTransGen fun current target => isValidTransition current target = true

/-- A later version of a row. -/
structure Advances (ts ts' : TaskSession) : Prop where
  origin_eq : ts'.origin = ts.origin
  reaches : Reaches ts.state ts'.state
  frozen : ts.state.isTerminal = true → ts'.ending = ts.ending
  bound : ∀ h, ts.startTreeHash = some h → ts'.startTreeHash = some h

/-- A later version of a row that did not end in between. -/
structure Moves (ts ts' : TaskSession) : Prop where
  origin_eq : ts'.origin = ts.origin
  reaches : Reaches ts.state ts'.state
  ending_eq : ts'.ending = ts.ending
  ended : ts'.state.isTerminal = true → ts'.state = ts.state
  bound : ∀ h, ts.startTreeHash = some h → ts'.startTreeHash = some h

/-- The row of a session that was just created. -/
structure IsNew (ts : TaskSession) : Prop where
  state_eq : ts.state = .created
  ending_eq : ts.ending = noEnding

variable {ts ts' ts'' : TaskSession}

/-- A final state is not left. -/
lemma Reaches.eq_of_isTerminal {a b : TaskSessionState} (h : Reaches a b)
    (ha : a.isTerminal = true) : b = a := by
  induction h with
  | refl => rfl
  | tail _ hstep ih =>
    rw [ih, isValidTransition, if_pos ha] at hstep
    exact absurd hstep (by simp)

lemma Moves.advances (h : ts.Moves ts') : ts.Advances ts' :=
  ⟨h.origin_eq, h.reaches, fun _ => h.ending_eq, h.bound⟩

lemma Moves.refl (ts : TaskSession) : ts.Moves ts := ⟨rfl, .refl, rfl, fun _ => rfl, fun _ => id⟩

lemma Moves.trans (h : ts.Moves ts') (h' : ts'.Moves ts'') : ts.Moves ts'' where
  origin_eq := h'.origin_eq.trans h.origin_eq
  reaches := h.reaches.trans h'.reaches
  ending_eq := h'.ending_eq.trans h.ending_eq
  ended hend := by
    have hstate := h'.ended hend
    rw [hstate] at hend ⊢
    exact h.ended hend
  bound x hx := h'.bound x (h.bound x hx)

instance : Std.Refl Moves := ⟨Moves.refl⟩

instance : IsTrans TaskSession Moves := ⟨fun _ _ _ => Moves.trans⟩

lemma Advances.refl (ts : TaskSession) : ts.Advances ts := (Moves.refl ts).advances

lemma Advances.trans (h : ts.Advances ts') (h' : ts'.Advances ts'') : ts.Advances ts'' where
  origin_eq := h'.origin_eq.trans h.origin_eq
  reaches := h.reaches.trans h'.reaches
  frozen hend := by
    have hstate := h.reaches.eq_of_isTerminal hend
    rw [h'.frozen (hstate.symm ▸ hend), h.frozen hend]
  bound x hx := h'.bound x (h.bound x hx)

instance : Std.Refl Advances := ⟨Advances.refl⟩

instance : IsTrans TaskSession Advances := ⟨fun _ _ _ => Advances.trans⟩

/-- A row that has ended stays as it is, but for the tree that it is bound to. -/
lemma Advances.eq_of_isTerminal (h : ts.Advances ts') (hend : ts.state.isTerminal = true) :
    ts' = { ts with startTreeHash := ts'.startTreeHash } := by
  have hstate := h.reaches.eq_of_isTerminal hend
  have horigin := h.origin_eq
  have hending := h.frozen hend
  cases ts
  cases ts'
  simp only [origin, ending, mk.injEq, Prod.mk.injEq] at horigin hending hstate ⊢
  simp_all

/-- One transition to a state that is not final. -/
lemma moves_setState {target : TaskSessionState} (hvalid : isValidTransition ts.state target = true)
    (hopen : target.isTerminal = false) : ts.Moves (setState target ts) :=
  ⟨rfl, .single hvalid, rfl, fun hend => absurd (hopen.symm.trans hend) (by simp), fun _ => id⟩

/-- The tree is set that a session starts with. -/
lemma moves_setStartTree {hash : String} (h : ts.startTreeHash = none) :
    ts.Moves (setStartTree hash ts) :=
  ⟨rfl, .refl, rfl, fun _ => rfl, fun _ hx => absurd (h.symm.trans hx) (by simp)⟩

lemma isNew_row {H : Hasher} {task : NewTask} {now : Timestamp} : (task.row H now).IsNew :=
  ⟨rfl, rfl⟩

lemma advances_setCompleted {endGenerationId outcomeCode endTreeHash : String} {accepted : Bool}
    {testsPassed : Option Bool} {now : Timestamp} (h : ts.state = .reconciled) :
    ts.Advances
      (setCompleted endGenerationId accepted testsPassed outcomeCode endTreeHash now ts) := by
  refine ⟨rfl, .single ?_, fun hend => ?_, fun _ => id⟩
  · rw [h]
    rfl
  · rw [h] at hend
    exact absurd hend (by decide)

lemma advances_setAbandoned {reason : String} {now : Timestamp}
    (h : ts.state = .active ∨ ts.state = .reconciled) : ts.Advances (setAbandoned reason now ts) := by
  refine ⟨rfl, .single ?_, fun hend => ?_, fun _ => id⟩
  · rcases h with h | h <;> rw [h] <;> rfl
  · rcases h with h | h <;> rw [h] at hend <;> exact absurd hend (by decide)

lemma taskSessionId_of_origin (h : ts'.origin = ts.origin) :
    ts'.taskSessionId = ts.taskSessionId := by
  simpa [origin] using congrArg TaskSession.taskSessionId h

end TaskSession

/-! ## What a later database keeps -/

namespace SessionStore

/-- The persisted deltas and the committed generations are only added to, and so is the timeline,
with events that meet `P`. -/
structure Grows (P : ContextUseEvent → Prop) (s s' : SessionStore) : Prop where
  events : Table.Extends P s.contextUseEvent s'.contextUseEvent
  deltas : ∀ row ∈ s.deltas.generationDelta, row ∈ s'.deltas.generationDelta
  committed : ∀ g ∈ s.catalogue.indexGeneration, g.state = .committed →
    g ∈ s'.catalogue.indexGeneration

/-- A later database, whose rows of sessions are related to the rows before. -/
structure Follows (R : TaskSession → TaskSession → Prop) (P : ContextUseEvent → Prop)
    (s s' : SessionStore) : Prop extends Grows P s s' where
  kept : ∀ ts ∈ s.taskSession, ∃ ts' ∈ s'.taskSession, R ts ts'
  sources : ∀ ts' ∈ s'.taskSession, ∃ ts, (ts ∈ s.taskSession ∨ ts.IsNew) ∧ R ts ts'

variable {R R' : TaskSession → TaskSession → Prop} {P P' : ContextUseEvent → Prop}
  {s s' s'' : SessionStore}
  {p : TaskSession → Bool} {f : Table.Update TaskSession} {taskSessionId : String}
  {ts : TaskSession}

lemma Follows.refl [Std.Refl R] (s : SessionStore) : Follows R P s s :=
  ⟨⟨.refl _ _, fun _ => id, fun _ hg _ => hg⟩, fun ts hts => ⟨ts, hts, Std.Refl.refl ts⟩,
    fun ts hts => ⟨ts, Or.inl hts, Std.Refl.refl ts⟩⟩

lemma Follows.trans [IsTrans TaskSession R] (h : Follows R P s s') (h' : Follows R P s' s'') :
    Follows R P s s'' where
  kept ts hts := by
    obtain ⟨ts', hts', hone⟩ := h.kept ts hts
    obtain ⟨ts'', hts'', htwo⟩ := h'.kept ts' hts'
    exact ⟨ts'', hts'', IsTrans.trans ts ts' ts'' hone htwo⟩
  sources ts'' hts'' := by
    obtain ⟨ts', hts' | hnew, htwo⟩ := h'.sources ts'' hts''
    · obtain ⟨ts, hts, hone⟩ := h.sources ts' hts'
      exact ⟨ts, hts, IsTrans.trans ts ts' ts'' hone htwo⟩
    · exact ⟨ts', Or.inr hnew, htwo⟩
  events := h.events.trans h'.events
  deltas row hrow := h'.deltas row (h.deltas row hrow)
  committed g hg hstate := h'.committed g (h.committed g hg hstate) hstate

lemma Follows.mono (hR : ∀ {a b}, R a b → R' a b) (h : Follows R P s s') : Follows R' P s s' where
  toGrows := h.toGrows
  kept ts hts := by
    obtain ⟨ts', hts', hone⟩ := h.kept ts hts
    exact ⟨ts', hts', hR hone⟩
  sources ts' hts' := by
    obtain ⟨ts, hts, hone⟩ := h.sources ts' hts'
    exact ⟨ts, hts, hR hone⟩

lemma Follows.imp (hP : ∀ e, P e → P' e) (h : Follows R P s s') : Follows R P' s s' where
  events := h.events.imp hP
  deltas := h.deltas
  committed := h.committed
  kept := h.kept
  sources := h.sources

/-- An update of sessions. -/
lemma follows_updateSessions [Std.Refl R]
    (hf : ∀ ts ∈ s.taskSession, p ts = true → R ts (f ts)) :
    Follows R P s (s.updateSessions p f) where
  kept ts hts := by
    cases hp : p ts with
    | true => exact ⟨f ts, Table.mem_update_of_mem hts hp, hf ts hts hp⟩
    | false => exact ⟨ts, Table.mem_update_of_not hts hp, Std.Refl.refl ts⟩
  sources ts' hts' := by
    obtain ⟨ts, hts, rfl⟩ := Table.mem_update.mp hts'
    refine ⟨ts, Or.inl hts, ?_⟩
    split
    next hp => exact hf ts hts hp
    next => exact Std.Refl.refl ts
  events := .refl _ _
  deltas _ := id
  committed _ hg _ := hg

/-- Changes of other tables. -/
lemma follows_of_taskSession_eq [Std.Refl R] (hsession : s'.taskSession = s.taskSession)
    (hevents : Table.Extends P s.contextUseEvent s'.contextUseEvent)
    (hdeltas : ∀ row ∈ s.deltas.generationDelta, row ∈ s'.deltas.generationDelta)
    (hcommitted : ∀ g ∈ s.catalogue.indexGeneration, g.state = .committed →
      g ∈ s'.catalogue.indexGeneration) : Follows R P s s' where
  kept ts hts := ⟨ts, hsession ▸ hts, Std.Refl.refl ts⟩
  sources ts hts := ⟨ts, Or.inl (hsession ▸ hts), Std.Refl.refl ts⟩
  events := hevents
  deltas := hdeltas
  committed := hcommitted

/-! ## One lemma for each operation -/

lemma mem_of_session {e : AtlasError} (h : s.session taskSessionId e = .ok ts) :
    ts ∈ s.taskSession ∧ ts.taskSessionId = taskSessionId := by
  unfold session loadTaskSession at h
  cases hfind : s.taskSession.find? fun ts => ts.taskSessionId = taskSessionId with
  | none => simp [hfind] at h
  | some found =>
    rw [hfind] at h
    obtain rfl := Except.ok.inj h
    have hid := Table.find?_some hfind
    exact ⟨Table.mem_of_find? hfind, by simpa using hid⟩

lemma changeSession_ok {message : String} (h : s.changeSession p f message = .ok s') :
    (∃ ts ∈ s.taskSession, p ts = true) ∧ s' = s.updateSessions p f := by
  unfold changeSession at h
  split at h
  next hcount =>
    refine ⟨?_, (Except.ok.inj h).symm⟩
    by_contra hnone
    have hzero : s.taskSession.count p = 0 := Table.count_eq_zero.mpr fun ts hts =>
      Bool.eq_false_of_not_eq_true fun hp => hnone ⟨ts, hts, hp⟩
    omega
  next => exact absurd h (by simp)

lemma isIn_iff {state : TaskSessionState} :
    isIn taskSessionId state ts = true ↔ ts.taskSessionId = taskSessionId ∧ ts.state = state := by
  simp [isIn]

lemma follows_advance {applies : Bool} {current target : TaskSessionState}
    (hvalid : isValidTransition current target = true) (hopen : target.isTerminal = false)
    (h : s.advance taskSessionId applies current target = .ok s') :
    Follows TaskSession.Moves P s s' := by
  unfold advance at h
  split at h
  next =>
    obtain ⟨-, rfl⟩ := changeSession_ok h
    refine follows_updateSessions fun ts hts hp => ?_
    refine TaskSession.moves_setState ?_ hopen
    rw [(isIn_iff.mp hp).2]
    exact hvalid
  next =>
    obtain rfl := Except.ok.inj h
    exact .refl s

lemma follows_activateValidated {workspaceId : Option String}
    {identity : Option LegacyTaskSessionIdentity}
    (h : s.activateValidatedLegacySession taskSessionId workspaceId identity = .ok s') :
    Follows TaskSession.Moves P s s' := by
  obtain ⟨state, -, hrest⟩ := bind_ok.mp h
  obtain ⟨mid, hfirst, hsecond⟩ := bind_ok.mp hrest
  exact .trans (follows_advance (by decide) (by decide) hfirst)
    (follows_advance (by decide) (by decide) hsecond)

lemma follows_activate {identity : LegacyTaskSessionIdentity}
    (h : s.activateLegacyTaskSession taskSessionId identity = .ok s') :
    Follows TaskSession.Moves P s s' := by
  obtain ⟨state, -, hrest⟩ := bind_ok.mp h
  split at hrest
  next => exact follows_activateValidated hrest
  next =>
    obtain rfl := Except.ok.inj hrest
    exact .refl s

lemma insertEvent_ok {event : ContextUse} (h : s.insertEvent taskSessionId event = .ok s') :
    ∃ events, s.contextUseEvent.insert? (event.row taskSessionId) = some events ∧
      s' = { s with contextUseEvent := events } := by
  obtain ⟨⟨⟩, -, hrest⟩ := bind_ok.mp h
  obtain ⟨⟨⟩, -, hinsert⟩ := bind_ok.mp hrest
  obtain ⟨events, hevents, hforeign⟩ := bind_ok.mp hinsert
  obtain ⟨⟨⟩, -, hret⟩ := bind_ok.mp hforeign
  refine ⟨events, ?_, (Except.ok.inj hret).symm⟩
  cases hrow : s.contextUseEvent.insert? (event.row taskSessionId) with
  | none => simp [hrow] at hevents
  | some rows =>
    rw [hrow] at hevents
    rw [Except.ok.inj hevents]

lemma follows_insertEvent {event : ContextUse} (hP : P (event.row taskSessionId))
    (h : s.insertEvent taskSessionId event = .ok s') : Follows TaskSession.Moves P s s' ∧
      event.row taskSessionId ∈ s'.contextUseEvent := by
  obtain ⟨events, hinsert, rfl⟩ := insertEvent_ok h
  refine ⟨follows_of_taskSession_eq rfl (Table.extends_insert? hinsert hP) (fun _ => id)
    fun _ hg _ => hg, ?_⟩
  exact (Table.mem_of_insert? hinsert).mpr (Or.inr rfl)

lemma follows_recordContextUseEvent {event : ContextUse} (hP : P (event.row taskSessionId))
    (h : s.recordContextUseEvent taskSessionId event = .ok s') :
    Follows TaskSession.Moves P s s' ∧ event.row taskSessionId ∈ s'.contextUseEvent := by
  unfold recordContextUseEvent at h
  split at h
  next =>
    obtain ⟨state, -, hrest⟩ := bind_ok.mp h
    obtain ⟨mid, hinsert, hactivate⟩ := bind_ok.mp hrest
    obtain ⟨hmid, hrow⟩ := follows_insertEvent hP hinsert
    have hlast := follows_activateValidated (P := P) hactivate
    exact ⟨hmid.trans hlast, hlast.events.mem hrow⟩
  next => exact follows_insertEvent hP h

lemma follows_recordEvents {events : List ContextUse}
    (hP : ∀ event ∈ events, P (event.row taskSessionId))
    (h : events.foldlM (fun s event => s.recordContextUseEvent taskSessionId event) s = .ok s') :
    Follows TaskSession.Moves P s s' ∧
      ∀ event ∈ events, event.row taskSessionId ∈ s'.contextUseEvent := by
  induction events generalizing s with
  | nil =>
    obtain rfl := Except.ok.inj h
    exact ⟨.refl s, by simp⟩
  | cons event events ih =>
    obtain ⟨mid, hfirst, hrest⟩ := foldlM_cons_ok.mp h
    obtain ⟨hmid, hrow⟩ := follows_recordContextUseEvent (hP event (by simp)) hfirst
    obtain ⟨hlast, hrows⟩ := ih (fun e he => hP e (by simp [he])) hrest
    refine ⟨hmid.trans hlast, fun e he => ?_⟩
    rcases List.mem_cons.mp he with rfl | he
    · exact hlast.events.mem hrow
    · exact hrows e he

lemma follows_recordExactSource {H : Hasher} {workspaceId occurredAt : String}
    {request : ExactSourceRequest}
    (hP : ∀ n, P ((exactSourceEvent H taskSessionId request n occurredAt).row taskSessionId))
    (h : s.recordExactSourceRequest H workspaceId taskSessionId request occurredAt = .ok s') :
    Follows TaskSession.Moves P s s' := by
  obtain ⟨⟨⟩, -, hrest⟩ := bind_ok.mp h
  obtain ⟨ts, -, hrest⟩ := bind_ok.mp hrest
  obtain ⟨⟨⟩, -, hrecord⟩ := bind_ok.mp hrest
  exact (follows_recordContextUseEvent (hP _) hrecord).1

lemma follows_insertSession (hnew : ts.IsNew) (h : s.insertSession ts = .ok s') :
    Follows TaskSession.Moves P s s' := by
  unfold insertSession at h
  split at h
  next =>
    obtain rfl := Except.ok.inj h
    exact .refl s
  next sessions hinsert =>
    obtain ⟨⟨⟩, -, hret⟩ := bind_ok.mp h
    obtain rfl := Except.ok.inj hret
    refine ⟨⟨.refl _ _, fun _ => id, fun _ hg _ => hg⟩, fun x hx => ?_, fun x hx => ?_⟩
    · exact ⟨x, (Table.mem_of_insert? hinsert).mpr (Or.inl hx), .refl x⟩
    · rcases (Table.mem_of_insert? hinsert).mp hx with hx | rfl
      · exact ⟨x, Or.inl hx, .refl x⟩
      · exact ⟨x, Or.inr hnew, .refl x⟩

lemma follows_create {H : Hasher} {D : Text.DebugFormat} {task : NewTask} {now : Timestamp}
    (h : s.createClassifiedTaskSession H D task now = .ok (ts, s')) :
    Follows TaskSession.Moves P s s' ∧ ts ∈ s'.taskSession := by
  obtain ⟨⟨⟩, -, hrest⟩ := bind_ok.mp h
  obtain ⟨⟨⟩, -, hrest⟩ := bind_ok.mp hrest
  obtain ⟨mid, hinsert, hrest⟩ := bind_ok.mp hrest
  obtain ⟨found, hfound, hret⟩ := bind_ok.mp hrest
  obtain ⟨rfl, rfl⟩ := Prod.mk.inj (Except.ok.inj hret)
  exact ⟨follows_insertSession TaskSession.isNew_row hinsert, (mem_of_session hfound).1⟩

lemma follows_start {H : Hasher} {D : Text.DebugFormat} {workspaceId : String}
    {request : LegacyTaskStartRequest} {now : Timestamp}
    (h : s.startSession H D workspaceId request now = .ok (ts, s')) :
    Follows TaskSession.Moves P s s' := by
  obtain ⟨⟨generationId, startTreeHash⟩, -, hrest⟩ := bind_ok.mp h
  obtain ⟨⟨created, mid⟩, hcreate, hrest⟩ := bind_ok.mp hrest
  obtain ⟨⟨⟩, -, hrest⟩ := bind_ok.mp hrest
  obtain ⟨found, -, hrest⟩ := bind_ok.mp hrest
  obtain ⟨⟨⟩, -, hret⟩ := bind_ok.mp hrest
  obtain ⟨-, rfl⟩ := Prod.mk.inj (Except.ok.inj hret)
  refine (follows_create hcreate).1.trans ?_
  refine follows_updateSessions fun x _ hp => ?_
  simp only [Bool.decide_and, Bool.and_eq_true, decide_eq_true_eq] at hp
  exact TaskSession.moves_setStartTree hp.2

lemma follows_transition {target : TaskSessionState}
    (h : s.transitionTaskSession taskSessionId target = .ok s') :
    Follows TaskSession.Advances P s s' := by
  obtain ⟨ts, hsession, hrest⟩ := bind_ok.mp h
  obtain ⟨⟨⟩, hcheck, hret⟩ := bind_ok.mp hrest
  obtain rfl := Except.ok.inj hret
  have hvalid := ensure_eq_ok.mp hcheck
  obtain ⟨hts, hid⟩ := mem_of_session hsession
  refine follows_updateSessions fun x hx hp => ?_
  -- there is one session of the id, and its state was checked
  obtain rfl : x = ts := Table.eq_of_clash hx hts
    ((of_decide_eq_true hp : x.taskSessionId = taskSessionId).trans hid.symm)
  refine ⟨rfl, .single hvalid, fun hend => ?_, fun _ => id⟩
  rw [isValidTransition, if_pos hend] at hvalid
  exact absurd hvalid (by simp)

lemma persist_kept {H : Hasher} {store store' : Delta.DeltaStore} {delta : Delta.GenerationDelta}
    (h : Delta.persistGenerationDelta H store delta = .ok store') :
    ∀ row ∈ store.generationDelta, row ∈ store'.generationDelta := by
  obtain ⟨-, rfl | ⟨rows, items, hinsert, -, rfl⟩⟩ := Delta.persist_cases h
  · exact fun _ => id
  · exact fun row hrow => (Table.mem_of_insert? hinsert).mpr (Or.inl hrow)

lemma follows_persist {H : Hasher} {deltas : Delta.DeltaStore} {delta : Delta.GenerationDelta}
    (h : Delta.persistGenerationDelta H s.deltas delta = .ok deltas) :
    Follows TaskSession.Moves P s { s with deltas := deltas } :=
  follows_of_taskSession_eq rfl (.refl _ _) (persist_kept h) fun _ hg _ => hg

/-- What a completion sets and tells. -/
structure Completion where
  delta : Delta.GenerationDelta
  outcome : Outcome
  endTreeHash : String
  completedAt : Timestamp

/-- The columns of a session that was completed. -/
def Completion.ending (c : Completion) : Option String × Option Bool × Option Bool ×
    Option String × Option String × Option Timestamp :=
  (some c.delta.toGenerationId, some c.outcome.accepted, c.outcome.testsPassed,
    some c.outcome.outcomeCode, some c.endTreeHash, some c.completedAt)

/-- The events of a completion. -/
def Completion.events (H : Hasher) (taskSessionId : String) (c : Completion) : List ContextUse :=
  let occurredAt := (stampText c.completedAt).getD ""
  artifactChangeEvents H taskSessionId c.delta occurredAt ++
    [outcomeEvent H taskSessionId c.delta c.outcome c.endTreeHash occurredAt]

lemma exists_of_isEndGeneration {workspaceId generationId endTreeHash : String}
    (h : s.isEndGeneration workspaceId generationId endTreeHash = true) :
    ∃ g ∈ s.catalogue.indexGeneration, g.generationId = generationId ∧
      g.workspaceId = workspaceId ∧ g.state = .committed ∧ g.sourceTreeHash = some endTreeHash := by
  obtain ⟨g, hg, his⟩ := List.any_eq_true.mp h
  simp only [decide_eq_true_eq] at his
  exact ⟨g, hg, his.1, his.2.1, his.2.2.1, his.2.2.2.1⟩

lemma exists_persisted {H : Hasher} {deltas : Delta.DeltaStore}
    {delta : Delta.GenerationDelta}
    (h : Delta.persistGenerationDelta H s.deltas delta = .ok deltas) :
    ∃ row ∈ deltas.generationDelta, row.deltaId = delta.deltaId ∧
      row.deltaHash = some delta.deltaHash := by
  have hhash := Delta.Live.hash_of_persist h
  obtain ⟨row, hfind, hrow⟩ := Option.bind_eq_some_iff.mp hhash
  have hid := Table.find?_some hfind
  exact ⟨row, Table.mem_of_find? hfind, by simpa using hid, hrow⟩

/-- An event that a completion records. -/
def IsOfCompletion (e : ContextUseEvent) : Prop :=
  e.eventType = .artifactChanged ∨ e.eventType = .outcomeRecorded

lemma isOfCompletion_artifact {H : Hasher} {delta : Delta.GenerationDelta} {occurredAt : String}
    {event : ContextUse} (h : event ∈ artifactChangeEvents H taskSessionId delta occurredAt) :
    IsOfCompletion (event.row taskSessionId) := by
  obtain ⟨change, -, rfl⟩ := List.mem_map.mp h
  exact Or.inl rfl

/-- A completion that is not a replay: what is told first, and then the update of the session. -/
lemma finish_ok {H : Hasher} {c : Completion}
    (h : s.finish H ts c.delta c.outcome c.endTreeHash c.completedAt = .ok s') :
    ts.state = .reconciled ∧
      (ts.workspaceId = c.delta.workspaceId ∧ ts.startGenerationId = c.delta.fromGenerationId) ∧
      s.isEndGeneration ts.workspaceId c.delta.toGenerationId c.endTreeHash = true ∧
      ∃ deltas told, Delta.persistGenerationDelta H s.deltas c.delta = .ok deltas ∧
        Follows TaskSession.Moves IsOfCompletion { s with deltas := deltas } told ∧
        (∀ event ∈ c.events H ts.taskSessionId, event.row ts.taskSessionId ∈ told.contextUseEvent) ∧
        told.changeSession (isIn ts.taskSessionId .reconciled)
          (setCompleted c.delta.toGenerationId c.outcome.accepted c.outcome.testsPassed
            c.outcome.outcomeCode c.endTreeHash c.completedAt)
          ("task_session " ++ ts.taskSessionId ++ " changed during completion") = .ok s' := by
  obtain ⟨⟨⟩, hstate, hrest⟩ := bind_ok.mp h
  obtain ⟨⟨⟩, hspans, hrest⟩ := bind_ok.mp hrest
  obtain ⟨⟨⟩, hend, hrest⟩ := bind_ok.mp hrest
  obtain ⟨deltas, hpersist, hrest⟩ := bind_ok.mp hrest
  obtain ⟨mid, hchanges, hrest⟩ := bind_ok.mp hrest
  obtain ⟨told, houtcome, hlast⟩ := bind_ok.mp hrest
  obtain ⟨hmid, hchangeRows⟩ := follows_recordEvents
    (fun event he => isOfCompletion_artifact he) hchanges
  obtain ⟨htold, houtcomeRow⟩ := follows_recordContextUseEvent
    (P := IsOfCompletion) (Or.inr rfl) houtcome
  refine ⟨ensure_eq_ok.mp hstate, ensure_eq_ok.mp hspans, ensure_eq_ok.mp hend, deltas, told,
    hpersist, hmid.trans htold, fun event he => ?_, hlast⟩
  rcases List.mem_append.mp he with he | he
  · exact htold.events.mem (hchangeRows event he)
  · rw [List.mem_singleton.mp he]
    exact houtcomeRow

lemma follows_finish {H : Hasher} {c : Completion} (hP : ∀ e, IsOfCompletion e → P e)
    (h : s.finish H ts c.delta c.outcome c.endTreeHash c.completedAt = .ok s') :
    Follows TaskSession.Advances P s s' := by
  obtain ⟨-, -, -, deltas, told, hpersist, hfollows, -, hchange⟩ := finish_ok h
  have hmoves := ((follows_persist hpersist).trans hfollows).imp hP
  refine (hmoves.mono TaskSession.Moves.advances).trans ?_
  obtain ⟨-, rfl⟩ := changeSession_ok hchange
  refine follows_updateSessions fun x _ hp => ?_
  exact TaskSession.advances_setCompleted (isIn_iff.mp hp).2

lemma replayCompletion_ok {delta : Delta.GenerationDelta} {outcome : Outcome}
    {endTreeHash : String} (h : s.replayCompletion ts delta outcome endTreeHash = .ok s') :
    s' = s := by
  simp only [replayCompletion] at h
  split at h
  next => exact (Except.ok.inj h).symm
  next => exact absurd h (by simp)

lemma follows_completeTaskSession {H : Hasher} {c : Completion}
    (hP : ∀ e, IsOfCompletion e → P e)
    (h : s.completeTaskSession H taskSessionId c.delta c.outcome c.endTreeHash c.completedAt =
      .ok s') :
    Follows TaskSession.Advances P s s' := by
  obtain ⟨⟨⟩, -, hrest⟩ := bind_ok.mp h
  obtain ⟨⟨⟩, -, hrest⟩ := bind_ok.mp hrest
  obtain ⟨ts, -, hrest⟩ := bind_ok.mp hrest
  split at hrest
  next =>
    obtain rfl := replayCompletion_ok hrest
    exact .refl _
  next => exact follows_finish hP hrest

lemma mapError_ok {α ε ε' : Type} {f : ε → ε'} {r : Except ε α} {a : α} :
    r.mapError f = .ok a ↔ r = .ok a := by
  cases r <;> simp [Except.mapError]

/-- An abandonment that is replayed, or the update of the session. -/
lemma abandon_ok {workspaceId : String} {request : LegacyTaskAbandonRequest} {now : Timestamp}
    (h : s.abandonLegacyTaskSession workspaceId taskSessionId request now = .ok (ts, s')) :
    s' = s ∨ s' = s.updateSessions
      (fun ts => ts.taskSessionId = taskSessionId ∧ (ts.state = .active ∨ ts.state = .reconciled))
      (setAbandoned request.reason.asStr now) := by
  obtain ⟨⟨⟩, -, hrest⟩ := bind_ok.mp h
  obtain ⟨found, -, hrest⟩ := bind_ok.mp hrest
  obtain ⟨⟨⟩, -, hrest⟩ := bind_ok.mp hrest
  split at hrest
  next =>
    split at hrest
    next => exact Or.inl (Prod.mk.inj (Except.ok.inj hrest)).2.symm
    next => exact absurd hrest (by simp)
  next =>
    obtain ⟨⟨⟩, -, hrest⟩ := bind_ok.mp hrest
    obtain ⟨mid, hchange, hrest⟩ := bind_ok.mp hrest
    obtain ⟨found', -, hret⟩ := bind_ok.mp hrest
    obtain ⟨-, rfl⟩ := Prod.mk.inj (Except.ok.inj hret)
    exact Or.inr (changeSession_ok (mapError_ok.mp hchange)).2

lemma follows_abandon {workspaceId : String} {request : LegacyTaskAbandonRequest}
    {now : Timestamp}
    (h : s.abandonLegacyTaskSession workspaceId taskSessionId request now = .ok (ts, s')) :
    Follows TaskSession.Advances P s s' := by
  rcases abandon_ok h with rfl | rfl
  · exact .refl _
  refine follows_updateSessions fun x _ hp => ?_
  simp only [Bool.decide_and, Bool.and_eq_true, decide_eq_true_eq] at hp
  exact TaskSession.advances_setAbandoned hp.2

/-! ## Generations -/

/-- A database with another catalogue. -/
def withCatalogue (s : SessionStore) (c : Catalogue) : SessionStore := { s with catalogue := c }

/-- An update of candidates. -/
lemma committed_kept {c : Catalogue} {generationId : String} {f : Table.Update IndexGeneration}
    {g : IndexGeneration} (hg : g ∈ c.indexGeneration) (hstate : g.state = .committed) :
    g ∈ c.indexGeneration.update (isCandidate generationId) f :=
  Table.mem_update_of_not hg (by simp [isCandidate, hstate])

lemma follows_begin {H : Hasher} {c : Catalogue} {workspaceId providerSetHash schemaVersion : String}
    {triggerKind : TriggerKind} {now : Timestamp} {record : GenerationRecord}
    (h : beginCandidate H s.catalogue workspaceId triggerKind providerSetHash schemaVersion now =
      .ok (c, record)) : Follows TaskSession.Moves P s (s.withCatalogue c) := by
  obtain ⟨-, -, generations, hinsert, rfl⟩ := insertCandidate_ok h
  exact follows_of_taskSession_eq rfl (.refl _ _) (fun _ => id)
    fun g hg _ => (Table.mem_of_insert? hinsert).mpr (Or.inl hg)

lemma follows_leave {c : Catalogue} {generationId : String} {f : Table.Update IndexGeneration}
    (h : leaveCandidate s.catalogue generationId f = .ok c) :
    Follows TaskSession.Moves P s (s.withCatalogue c) := by
  obtain ⟨-, rfl⟩ := leaveCandidate_ok h
  exact follows_of_taskSession_eq rfl (.refl _ _) (fun _ => id)
    fun g hg hstate => committed_kept hg hstate

lemma isReconcilable_state {c : Catalogue} {workspaceId : String} {n : ℕ}
    (h : isReconcilable c workspaceId n ts = true) : ts.state = .active := by
  simp only [isReconcilable, Bool.decide_and, Bool.and_eq_true, decide_eq_true_eq] at h
  exact h.2.2.1

lemma moves_setReconciled (h : ts.state = .active) : ts.Moves (setReconciled ts) :=
  TaskSession.moves_setState (by rw [h]; rfl) rfl

/-- An activation moves the active sessions on that started before. -/
lemma follows_activateCandidate {c : Catalogue} {workspaceId generationId : String}
    {sourceTreeHash : Option String} {now : Timestamp}
    (h : activateCandidate s.catalogue workspaceId generationId sourceTreeHash now = .ok c) :
    Follows TaskSession.Moves P s (s.withCatalogue c) := by
  obtain ⟨g, hg, -, -, -, rfl⟩ := activateCandidate_ok h
  have hupdate := follows_updateSessions (s := s) (P := P)
    (p := isReconcilable s.catalogue g.workspaceId g.sequenceNo) (f := setReconciled)
    fun ts _ hp => moves_setReconciled (isReconcilable_state hp)
  exact ⟨⟨hupdate.events, hupdate.deltas, fun g hg hstate => committed_kept hg hstate⟩,
    hupdate.kept, hupdate.sources⟩

end SessionStore

end WorkspaceAtlas
