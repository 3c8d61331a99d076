/-
# The generation state machine

`begin_candidate`, `activate_candidate`, `fail_candidate` and `abandon_candidate` of
`generation.rs`, each with the transactions it makes.  `begin_candidate` reads the parent and
the highest sequence number before its transaction starts, so it is three steps in a run
with other writers; the others are one transaction each.
-/
import WorkspaceAtlas.Catalogue.Ids
import WorkspaceAtlas.Catalogue.Schema

namespace WorkspaceAtlas

open Relational

/-- The active generation of a workspace. -/
def activeGeneration? (c : Catalogue) (workspaceId : String) : Option String :=
  (c.workspace.find? fun w => w.workspaceId = workspaceId).bind Workspace.activeGenerationId

/-! ## Beginning a candidate -/

/-- `GenerationRecord`, the reply of `begin_candidate`. -/
structure GenerationRecord where
  generationId : String
  workspaceId : String
  parentGenerationId : Option String
  sequenceNo : ℕ
  state : GenerationState
  triggerKind : TriggerKind
  providerSetHash : String
  schemaVersion : String
  createdAt : Timestamp
  deriving DecidableEq, Repr

/-- The condition of the query for the parent of a new candidate. -/
def isCommittedOf (workspaceId : String) (g : IndexGeneration) : Bool :=
  g.workspaceId = workspaceId ∧ g.state = .committed

/-- The committed generation of a workspace with the highest sequence number: the row from
which `begin_candidate` takes the parent. -/
def highestCommitted (c : Catalogue) (workspaceId : String) : Option IndexGeneration :=
  c.indexGeneration.greatest? (isCommittedOf workspaceId) IndexGeneration.sequenceNo

/-- The parent that `begin_candidate` reads. -/
def candidateParent (c : Catalogue) (workspaceId : String) : Option String :=
  (highestCommitted c workspaceId).map IndexGeneration.generationId

/-- `COALESCE(MAX(sequence_no), 0)` over every generation of the workspace. -/
def maxSequence (c : Catalogue) (workspaceId : String) : ℕ :=
  ((c.indexGeneration.greatest? (fun g => g.workspaceId = workspaceId)
    IndexGeneration.sequenceNo).map IndexGeneration.sequenceNo).getD 0

/-- The row that `begin_candidate` inserts. -/
def candidateRow (H : Hasher) (workspaceId : String) (parent : Option String)
    (sequenceNo : ℕ) (triggerKind : TriggerKind) (providerSetHash schemaVersion : String)
    (now : Timestamp) : IndexGeneration where
  generationId := generationId H workspaceId sequenceNo
  workspaceId := workspaceId
  parentGenerationId := parent
  sequenceNo := sequenceNo
  state := .candidate
  triggerKind := triggerKind
  sourceTreeHash := none
  providerSetHash := providerSetHash
  schemaVersion := schemaVersion
  createdAt := now
  committedAt := none
  failureCode := none
  failureMessage := none
  counts := .zero

/-- The transaction of `begin_candidate`, with the parent and the sequence number it has
read before. -/
def insertCandidate (H : Hasher) (c : Catalogue) (workspaceId : String)
    (parent : Option String) (sequenceNo : ℕ) (triggerKind : TriggerKind)
    (providerSetHash schemaVersion : String) (now : Timestamp) :
    Except AtlasError (Catalogue × GenerationRecord) :=
  let row := candidateRow H workspaceId parent sequenceNo triggerKind providerSetHash
    schemaVersion now
  if ¬ c.hasWorkspace workspaceId ∨ ¬ (parent.all c.hasGeneration) then
    .error (.sqlite (.foreignKey "index_generation"))
  else
    match c.indexGeneration.insert? row with
    | none => .error (.sqlite (.constraint "index_generation"))
    | some generations =>
      .ok ({ c with indexGeneration := generations },
        ⟨row.generationId, workspaceId, parent, sequenceNo, .candidate, triggerKind,
          providerSetHash, schemaVersion, now⟩)

/-- `begin_candidate`, run without interruption. -/
def beginCandidate (H : Hasher) (c : Catalogue) (workspaceId : String)
    (triggerKind : TriggerKind) (providerSetHash schemaVersion : String) (now : Timestamp) :
    Except AtlasError (Catalogue × GenerationRecord) :=
  insertCandidate H c workspaceId (candidateParent c workspaceId)
    (maxSequence c workspaceId + 1) triggerKind providerSetHash schemaVersion now

/-! ## Sessions that an activation reconciles -/

/-- `LEGACY_LIFECYCLE_CONTRACT_VERSION`. -/
def legacyLifecycleContractVersion : String := "1.0.0"

/-- The condition of the query of `reconcile_active_legacy_sessions`. -/
def isReconcilable (c : Catalogue) (workspaceId : String) (candidateSequence : ℕ)
    (ts : TaskSession) : Bool :=
  ts.workspaceId = workspaceId ∧ ts.contextIrVersion = legacyLifecycleContractVersion ∧
    ts.state = .active ∧
    (c.indexGeneration.rows.any fun start =>
      start.generationId = ts.startGenerationId ∧ start.sequenceNo < candidateSequence)

/-- `SET state = 'reconciled'`. -/
def setReconciled : Table.Update TaskSession where
  toFun ts := { ts with state := .reconciled }
  clash_left _ _ := Iff.rfl

@[simp] lemma setReconciled_taskSessionId (ts : TaskSession) :
    (setReconciled ts).taskSessionId = ts.taskSessionId := rfl

/-- `UPDATE task_session SET state = 'reconciled' WHERE task_session_id = ?1 AND state =
'active'`, and its row count. -/
def reconcileSession (c : Catalogue) (taskSessionId : String) :
    Except AtlasError Catalogue :=
  let p : TaskSession → Bool := fun ts => ts.taskSessionId = taskSessionId ∧ ts.state = .active
  if c.taskSession.count p = 1 then
    .ok { c with
      taskSession := c.taskSession.update p setReconciled }
  else
    .error (.other s!"task_session {taskSessionId} changed during reconciliation")

/-- `reconcile_active_legacy_sessions`. -/
def reconcileActiveLegacySessions (c : Catalogue) (workspaceId candidateGenerationId : String) :
    Except AtlasError Catalogue :=
  match c.indexGeneration.find? fun g =>
      g.generationId = candidateGenerationId ∧ g.workspaceId = workspaceId with
  | none => .error (.sqlite .queryReturnedNoRows)
  | some g =>
    -- the updates are of different rows, so the order of the query does not matter
    let sessionIds := (c.taskSession.rows.filter
      (isReconcilable c workspaceId g.sequenceNo)).map TaskSession.taskSessionId
    sessionIds.foldlM reconcileSession c

/-! ## Leaving the candidate state -/

/-- `verify_candidate_committable`. -/
def verifyCandidateCommittable (c : Catalogue) (workspaceId candidateGenerationId : String) :
    Except AtlasError Unit :=
  match c.indexGeneration.find? fun g => g.generationId = candidateGenerationId with
  | none => .error (.generationStateInvalid "<missing>" "candidate")
  | some g =>
    if g.workspaceId ≠ workspaceId then
      .error (.generationStateInvalid s!"workspace {g.workspaceId}" s!"workspace {workspaceId}")
    else if g.state ≠ .candidate then
      .error (.generationStateInvalid g.state.asStr "candidate")
    else .ok ()

/-- The candidate row of an id, as the updates select it. -/
def isCandidate (generationId : String) (g : IndexGeneration) : Bool :=
  g.generationId = generationId ∧ g.state = .candidate

/-- The trigger `validate_active_generation_update`: the pointer may only name a committed
generation of the workspace. -/
def activePointerAllowed (c : Catalogue) (workspaceId generationId : String) : Bool :=
  c.indexGeneration.rows.any fun g =>
    g.generationId = generationId ∧ g.workspaceId = workspaceId ∧ g.state = .committed

/-- The update that marks a candidate committed. -/
def markCommitted (sourceTreeHash : Option String) (now : Timestamp) :
    Table.Update IndexGeneration where
  toFun g :=
    { g with
      state := .committed
      committedAt := some now
      sourceTreeHash := sourceTreeHash.or g.sourceTreeHash }
  clash_left _ _ := Iff.rfl

@[simp] lemma markCommitted_sequenceNo (tree : Option String) (now : Timestamp)
    (g : IndexGeneration) : (markCommitted tree now g).sequenceNo = g.sequenceNo := rfl

/-- `SET active_generation_id = ?2`. -/
def pointTo (generationId : String) : Table.Update Workspace where
  toFun w := { w with activeGenerationId := some generationId }
  clash_left _ _ := Iff.rfl

/-- `UPDATE workspace SET active_generation_id`, behind its trigger. -/
def setActiveGeneration (c : Catalogue) (workspaceId generationId : String) :
    Except AtlasError Catalogue :=
  if c.hasWorkspace workspaceId ∧ ¬ activePointerAllowed c workspaceId generationId then
    .error (.sqlite (.trigger "active generation must be committed and belong to workspace"))
  else
    .ok { c with
      workspace := c.workspace.update (fun w => w.workspaceId = workspaceId)
        (pointTo generationId) }

/-- `activate_candidate`. -/
def activateCandidate (c : Catalogue) (workspaceId candidateGenerationId : String)
    (sourceTreeHash : Option String) (now : Timestamp) : Except AtlasError Catalogue := do
  verifyCandidateCommittable c workspaceId candidateGenerationId
  let committed := { c with
    indexGeneration := c.indexGeneration.update (isCandidate candidateGenerationId)
      (markCommitted sourceTreeHash now) }
  let pointed ← setActiveGeneration committed workspaceId candidateGenerationId
  reconcileActiveLegacySessions pointed workspaceId candidateGenerationId

/-- The update of `fail_candidate` or `abandon_candidate`, refused when it meets no
candidate. -/
def leaveCandidate (c : Catalogue) (generationId : String)
    (f : Table.Update IndexGeneration) : Except AtlasError Catalogue :=
  if c.indexGeneration.count (isCandidate generationId) = 0 then
    .error (.generationStateInvalid "<not candidate>" "candidate")
  else
    .ok { c with
      indexGeneration := c.indexGeneration.update (isCandidate generationId) f }

/-- What `fail_candidate` sets. -/
def markFailed (failureCode failureMessage : String) : Table.Update IndexGeneration where
  toFun g :=
    { g with
      state := .failed
      failureCode := some failureCode
      failureMessage := some failureMessage }
  clash_left _ _ := Iff.rfl

/-- `fail_candidate`. -/
def failCandidate (c : Catalogue) (candidateGenerationId failureCode failureMessage : String) :
    Except AtlasError Catalogue :=
  leaveCandidate c candidateGenerationId (markFailed failureCode failureMessage)

/-- What `abandon_candidate` sets. -/
def markAbandoned : Table.Update IndexGeneration where
  toFun g := { g with state := .abandoned }
  clash_left _ _ := Iff.rfl

/-- `abandon_candidate`. -/
def abandonCandidate (c : Catalogue) (candidateGenerationId : String) :
    Except AtlasError Catalogue :=
  leaveCandidate c candidateGenerationId markAbandoned

/-! ## Updates that keep the number of a generation -/

/-- An update that rewrites neither the id nor the sequence number of a generation. -/
structure KeepsNumber (f : Table.Update IndexGeneration) : Prop where
  generationId : ∀ g, (f g).generationId = g.generationId
  workspaceId : ∀ g, (f g).workspaceId = g.workspaceId
  sequenceNo : ∀ g, (f g).sequenceNo = g.sequenceNo

lemma keepsNumber_markCommitted (tree : Option String) (now : Timestamp) :
    KeepsNumber (markCommitted tree now) :=
  ⟨fun _ => rfl, fun _ => rfl, fun _ => rfl⟩

lemma keepsNumber_markFailed (code message : String) : KeepsNumber (markFailed code message) :=
  ⟨fun _ => rfl, fun _ => rfl, fun _ => rfl⟩

lemma keepsNumber_markAbandoned : KeepsNumber markAbandoned :=
  ⟨fun _ => rfl, fun _ => rfl, fun _ => rfl⟩

/-! ## Specifications -/

section Spec

variable {H : Hasher} {c c' : Catalogue} {ws gid : String} {g : IndexGeneration}
  {tree : Option String} {now : Timestamp}

lemma hasWorkspace_iff : c.hasWorkspace ws = true ↔ ∃ w ∈ c.workspace, w.workspaceId = ws := by
  simp [Catalogue.hasWorkspace, Table.mem_def]

lemma hasWorkspace_registered {ids : List String} (hws : ws ∈ ids) :
    (Catalogue.registered ids).hasWorkspace ws = true := by
  suffices h : ∀ (ids : List String) (t : Table Workspace),
      (ws ∈ ids ∨ ∃ w ∈ t, w.workspaceId = ws) →
      ∃ w ∈ ids.foldl (fun t id => t.insertOrIgnore ⟨id, none⟩) t, w.workspaceId = ws from
    hasWorkspace_iff.mpr (h ids .empty (Or.inl hws))
  intro ids
  induction ids with
  | nil => exact fun t h => h.resolve_left (by simp)
  | cons id ids ih =>
    intro t h
    refine ih _ ?_
    by_cases hlater : ws ∈ ids
    · exact Or.inl hlater
    right
    by_cases hrow : ∃ w ∈ t, w.workspaceId = ws
    · obtain ⟨w, hw, hid⟩ := hrow
      exact ⟨w, Table.mem_insertOrIgnore_of_mem hw, hid⟩
    · have hfirst : ws = id := by
        rcases h with h | h
        · exact (List.mem_cons.mp h).resolve_right hlater
        · exact absurd h hrow
      refine ⟨⟨id, none⟩, Table.mem_insertOrIgnore.mpr (Or.inr ⟨rfl, ?_⟩), hfirst.symm⟩
      exact fun w hw hclash => hrow ⟨w, hw, hclash.trans hfirst.symm⟩

lemma find?_workspace_eq_some {w : Workspace} :
    (c.workspace.find? fun w => w.workspaceId = ws) = some w ↔
      w ∈ c.workspace ∧ w.workspaceId = ws := by
  rw [Table.find?_eq_some_iff]
  · simp
  · intro x _ y _ hx hy
    simp only [decide_eq_true_eq] at hx hy
    exact hx.trans hy.symm

lemma find?_generation_eq_some :
    (c.indexGeneration.find? fun g => g.generationId = gid) = some g ↔
      g ∈ c.indexGeneration ∧ g.generationId = gid := by
  rw [Table.find?_eq_some_iff]
  · simp
  · intro x _ y _ hx hy
    simp only [decide_eq_true_eq] at hx hy
    exact Or.inl (hx.trans hy.symm)

lemma generation_ext {g₁ g₂ : IndexGeneration} (h₁ : g₁ ∈ c.indexGeneration)
    (h₂ : g₂ ∈ c.indexGeneration) (hid : g₁.generationId = g₂.generationId) : g₁ = g₂ :=
  Table.eq_of_clash h₁ h₂ (Or.inl hid)

lemma le_maxSequence (hg : g ∈ c.indexGeneration) :
    g.sequenceNo ≤ maxSequence c g.workspaceId := by
  unfold maxSequence
  cases hmax : c.indexGeneration.greatest? (fun r => r.workspaceId = g.workspaceId)
      IndexGeneration.sequenceNo with
  | none =>
    have := Table.greatest?_eq_none.mp hmax g hg
    exact absurd this (by simp)
  | some m => simpa using Table.le_of_greatest? hmax hg (by simp)

lemma maxSequence_le {n : ℕ}
    (h : ∀ g ∈ c.indexGeneration, g.workspaceId = ws → g.sequenceNo ≤ n) :
    maxSequence c ws ≤ n := by
  unfold maxSequence
  cases hmax : c.indexGeneration.greatest? (fun r => r.workspaceId = ws)
      IndexGeneration.sequenceNo with
  | none => simp
  | some m =>
    obtain ⟨hm, hws⟩ := Table.mem_of_greatest? hmax
    simpa using h m hm (by simpa using hws)

lemma insertCandidate_ok {parent : Option String} {seq : ℕ} {trigger : TriggerKind}
    {providerSet schema : String} {record : GenerationRecord}
    (hok : insertCandidate H c ws parent seq trigger providerSet schema now =
      .ok (c', record)) :
    c.hasWorkspace ws = true ∧ record.generationId = generationId H ws seq ∧
      ∃ generations, c.indexGeneration.insert?
          (candidateRow H ws parent seq trigger providerSet schema now) = some generations ∧
        c' = { c with indexGeneration := generations } := by
  simp only [insertCandidate] at hok
  split at hok
  · exact absurd hok (by simp)
  next hfk =>
    split at hok
    · exact absurd hok (by simp)
    next generations hins =>
      simp only [Except.ok.injEq, Prod.mk.injEq] at hok
      obtain ⟨rfl, rfl⟩ := hok
      push Not at hfk
      exact ⟨hfk.1, rfl, generations, hins, rfl⟩

lemma verifyCandidateCommittable_ok :
    verifyCandidateCommittable c ws gid = .ok () ↔
      ∃ g ∈ c.indexGeneration, g.generationId = gid ∧ g.workspaceId = ws ∧
        g.state = .candidate := by
  unfold verifyCandidateCommittable
  split
  next hnone =>
    refine iff_of_false (by simp) ?_
    rintro ⟨g, hg, hid, -⟩
    exact absurd (Table.find?_eq_none.mp hnone g hg) (by simp [hid])
  next g hsome =>
    obtain ⟨hg, hid⟩ := find?_generation_eq_some.mp hsome
    have huniq : ∀ g' ∈ c.indexGeneration, g'.generationId = gid → g' = g :=
      fun g' hg' hid' => generation_ext hg' hg (hid'.trans hid.symm)
    split
    next hws =>
      refine iff_of_false (by simp) ?_
      rintro ⟨g', hg', hid', hws', -⟩
      exact hws (huniq g' hg' hid' ▸ hws')
    next hws =>
      split
      next hst =>
        refine iff_of_false (by simp) ?_
        rintro ⟨g', hg', hid', -, hst'⟩
        exact hst (huniq g' hg' hid' ▸ hst')
      next hst => exact iff_of_true rfl ⟨g, hg, hid, not_not.mp hws, not_not.mp hst⟩

/-- The sessions of a list of ids, all active, reconciled one after the other. -/
lemma foldlM_reconcileSession {ids : List String} (hnodup : ids.Nodup)
    (hactive : ∀ id ∈ ids, ∃ ts ∈ c.taskSession, ts.taskSessionId = id ∧ ts.state = .active) :
    ids.foldlM reconcileSession c = .ok { c with
      taskSession := c.taskSession.update (fun ts => ts.taskSessionId ∈ ids)
        setReconciled } := by
  induction ids generalizing c with
  | nil =>
    have hself : c.taskSession.update (fun ts => ts.taskSessionId ∈ ([] : List String))
        setReconciled = c.taskSession :=
      Table.update_eq_self (by simp)
    rw [hself]
    rfl
  | cons id ids ih =>
    obtain ⟨hid, hids⟩ := List.nodup_cons.mp hnodup
    obtain ⟨ts, hts, rfl, hstate⟩ := hactive id (by simp)
    have huniq : ∀ x ∈ c.taskSession, x.taskSessionId = ts.taskSessionId → x = ts :=
      fun x hx h => Table.eq_of_clash hx hts h
    have hone : c.taskSession.count
        (fun x => x.taskSessionId = ts.taskSessionId ∧ x.state = .active) = 1 :=
      Table.count_eq_one hts (by simp [hstate]) (by simp +contextual [Clash])
    rw [List.foldlM_cons, reconcileSession, if_pos hone]
    refine (ih hids ?_).trans ?_
    · -- the other sessions are untouched
      intro id' hid'
      obtain ⟨ts', hts', rfl, hstate'⟩ := hactive id' (by simp [hid'])
      refine ⟨ts', Table.mem_update_of_not hts' ?_, rfl, hstate'⟩
      have hne : ts'.taskSessionId ≠ ts.taskSessionId := fun h => hid (h ▸ hid')
      simp [hne]
    · congr 2
      ext1
      simp only [Table.update, List.map_map]
      refine List.map_congr_left fun x hx => ?_
      by_cases hx' : x.taskSessionId = ts.taskSessionId
      · obtain rfl := huniq x hx hx'
        simp [hstate, hid]
      · simp [hx']

/-- The catalogue after the activation of the candidate `g`. -/
def activated (c : Catalogue) (g : IndexGeneration) (tree : Option String) (now : Timestamp) :
    Catalogue :=
  { c with
    indexGeneration := c.indexGeneration.update (isCandidate g.generationId)
      (markCommitted tree now)
    workspace := c.workspace.update (fun w => w.workspaceId = g.workspaceId)
      (pointTo g.generationId)
    taskSession := c.taskSession.update (isReconcilable c g.workspaceId g.sequenceNo)
      setReconciled }

/-- The pointer after an activation. -/
lemma activeGeneration?_activated (hws : c.hasWorkspace g.workspaceId = true) :
    activeGeneration? (activated c g tree now) g.workspaceId = some g.generationId := by
  obtain ⟨w, hw, hid⟩ := hasWorkspace_iff.mp hws
  have hpointed : pointTo g.generationId w ∈ (activated c g tree now).workspace :=
    Table.mem_update_of_mem hw (by simp [hid])
  rw [activeGeneration?, find?_workspace_eq_some.mpr ⟨hpointed, hid⟩]
  rfl

lemma isReconcilable_update {workspace : Table Workspace} {n : ℕ} :
    isReconcilable { c with
      indexGeneration := c.indexGeneration.update (isCandidate gid) (markCommitted tree now)
      workspace := workspace } ws n = isReconcilable c ws n := by
  funext ts
  have hcols : ∀ x : IndexGeneration,
      (if isCandidate gid x = true then markCommitted tree now x else x).generationId =
          x.generationId ∧
        (if isCandidate gid x = true then markCommitted tree now x else x).sequenceNo =
          x.sequenceNo := by
    intro x
    split <;> exact ⟨rfl, rfl⟩
  simp [isReconcilable, Table.update, List.any_map, Function.comp_def, hcols]

/-- A candidate of the workspace can be activated. -/
lemma activateCandidate_of_candidate (hg : g ∈ c.indexGeneration)
    (hstate : g.state = .candidate) :
    activateCandidate c g.workspaceId g.generationId tree now = .ok (activated c g tree now) := by
  have hverify : verifyCandidateCommittable c g.workspaceId g.generationId = .ok () :=
    verifyCandidateCommittable_ok.mpr ⟨g, hg, rfl, rfl, hstate⟩
  have hmarked : markCommitted tree now g ∈ c.indexGeneration.update
      (isCandidate g.generationId) (markCommitted tree now) :=
    Table.mem_update_of_mem hg (by simp [isCandidate, hstate])
  have hallowed : activePointerAllowed { c with
      indexGeneration := c.indexGeneration.update (isCandidate g.generationId)
        (markCommitted tree now) } g.workspaceId g.generationId = true :=
    List.any_eq_true.mpr ⟨_, hmarked, by simp [markCommitted]⟩
  simp only [activateCandidate, hverify, setActiveGeneration, hallowed, not_true_eq_false,
    and_false, if_false, bind, Except.bind]
  unfold reconcileActiveLegacySessions
  have hfind : ((c.indexGeneration.update (isCandidate g.generationId)
      (markCommitted tree now)).find? fun r =>
        r.generationId = g.generationId ∧ r.workspaceId = g.workspaceId) =
      some (markCommitted tree now g) := by
    rw [Table.find?_eq_some_iff]
    · exact ⟨hmarked, by simp [markCommitted]⟩
    · intro x _ y _ hx hy
      simp only [decide_eq_true_eq] at hx hy
      exact Or.inl (hx.1.trans hy.1.symm)
  rw [hfind]
  simp only [isReconcilable_update, markCommitted_sequenceNo]
  rw [foldlM_reconcileSession]
  · congr 1
    simp only [activated]
    congr 1
    ext1
    refine List.map_congr_left fun ts hts => ?_
    have hmem : ts.taskSessionId ∈ (c.taskSession.rows.filter
        (isReconcilable c g.workspaceId g.sequenceNo)).map TaskSession.taskSessionId ↔
        isReconcilable c g.workspaceId g.sequenceNo ts = true := by
      simp only [List.mem_map, List.mem_filter]
      constructor
      · rintro ⟨ts', ⟨hts', hrec⟩, hid⟩
        obtain rfl : ts' = ts := Table.eq_of_clash hts' hts hid
        exact hrec
      · exact fun h => ⟨ts, ⟨hts, h⟩, rfl⟩
    simp only [decide_eq_true_eq]
    by_cases hrec : isReconcilable c g.workspaceId g.sequenceNo ts = true
    · rw [if_pos (hmem.mpr hrec), if_pos hrec]
    · rw [if_neg (fun h => hrec (hmem.mp h)), if_neg hrec]
  · refine (List.nodup_map_iff_inj_on (Table.nodup_rows.filter _)).mpr ?_
    intro x hx y hy hxy
    exact Table.eq_of_clash (List.mem_filter.mp hx).1 (List.mem_filter.mp hy).1 hxy
  · intro id hid
    obtain ⟨ts, hts, rfl⟩ := List.mem_map.mp hid
    obtain ⟨hts, hrec⟩ := List.mem_filter.mp hts
    simp only [isReconcilable, Bool.decide_and, Bool.and_eq_true, decide_eq_true_eq] at hrec
    exact ⟨ts, hts, rfl, hrec.2.2.1⟩

lemma activateCandidate_ok (hok : activateCandidate c ws gid tree now = .ok c') :
    ∃ g ∈ c.indexGeneration, g.generationId = gid ∧ g.workspaceId = ws ∧
      g.state = .candidate ∧ c' = activated c g tree now := by
  have hverify : verifyCandidateCommittable c ws gid = .ok () := by
    cases h : verifyCandidateCommittable c ws gid with
    | ok u => rfl
    | error e =>
      rw [activateCandidate, h] at hok
      exact absurd hok (by simp [bind, Except.bind])
  obtain ⟨g, hg, rfl, rfl, hstate⟩ := verifyCandidateCommittable_ok.mp hverify
  rw [activateCandidate_of_candidate hg hstate] at hok
  exact ⟨g, hg, rfl, rfl, hstate, (Except.ok.inj hok).symm⟩

lemma leaveCandidate_ok {f : Table.Update IndexGeneration}
    (hok : leaveCandidate c gid f = .ok c') :
    (∃ g ∈ c.indexGeneration, isCandidate gid g = true) ∧
      c' = { c with indexGeneration := c.indexGeneration.update (isCandidate gid) f } := by
  unfold leaveCandidate at hok
  split at hok
  · exact absurd hok (by simp)
  next hcount =>
    rw [Table.count_eq_zero] at hcount
    push Not at hcount
    obtain ⟨g, hg, hcand⟩ := hcount
    exact ⟨⟨g, hg, by simpa using hcand⟩, (Except.ok.inj hok).symm⟩

end Spec

end WorkspaceAtlas
