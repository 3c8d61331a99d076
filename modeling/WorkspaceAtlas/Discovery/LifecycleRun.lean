/-
# The lifecycle records of a run

Snapshots of one workspace are reconciled one after the other; a candidate whose required
provider fails is not activated.  Events and tombstones are written with the facts of a
candidate, the state of an identity is never set back to current, and a path takes the first
identity with its name.  As long as no candidate with renames or deletions fails, every
rename finds its identity and no deleted identity is found again, the records follow the
generations that were activated.
-/
import WorkspaceAtlas.Catalogue.GenerationRun
import WorkspaceAtlas.Discovery.Failure
import WorkspaceAtlas.Discovery.LifecycleRecords
import WorkspaceAtlas.Discovery.Snapshots
import WorkspaceAtlas.Query.History

namespace WorkspaceAtlas

open Relational Transition

namespace LifecycleRun

/-! ## The system -/

/-- A snapshot to reconcile, and the providers to run. -/
structure Call (env : Environment) extends Snapshots.Snapshot env where
  plans : List SemanticPlan

/-- What the call meets: no failure besides those of its providers. -/
def Call.input {env : Environment} (call : Call env) : ReconcileInput :=
  ⟨.ok call.files, call.policy, call.plans, .none, call.now⟩

/-- The catalogue, and the generations that were activated, the last one first. -/
structure HistoryState where
  catalogue : Catalogue
  activated : List String

/-- Some registered workspaces. -/
def HistoryState.start (workspaceIds : List String) : HistoryState :=
  ⟨Catalogue.registered workspaceIds, []⟩

/-- The activated generations after a call with this result. -/
def noteActivation (activated : List String) :
    Except AtlasError ReconcileReport → List String
  | .ok report =>
    if report.activated then report.candidateGenerationId :: activated else activated
  | .error _ => activated

/-- One reconcile. -/
def step (env : Environment) (ws : String) (s : HistoryState) (call : Call env) :
    HistoryState :=
  let outcome := reconcile env s.catalogue (Snapshots.workspaceRecord s.catalogue ws) call.input
  ⟨outcome.1, noteActivation s.activated outcome.2⟩

/-- The call meets no key conflict. -/
def Succeeds (env : Environment) (ws : String) (s : HistoryState) (call : Call env) : Prop :=
  ∃ report, (reconcile env s.catalogue (Snapshots.workspaceRecord s.catalogue ws)
    call.input).2 = .ok report

/-! ## The law -/

/-- The events of a type that `history` returns. -/
def returnedEvents (c : Catalogue) (ws : String) (limit : ℤ) (type : LifecycleEventType) :
    Set LifecycleEvent :=
  {e | (∃ h ∈ (history c ws none limit).events, h.event = e) ∧ e.eventType = type}

/-- The lifecycle records follow the activated generations. -/
structure FollowsHistory (ws : String) (s : HistoryState) : Prop where
  /-- An identity is current exactly when the active generation has its file. -/
  states : ∀ gid, activeGeneration? s.catalogue ws = some gid →
    ∀ i ∈ s.catalogue.fileIdentity, (∃ g ∈ s.activated, PresentIn s.catalogue g i.fileId) →
      (i.lifecycleState = .current ↔ PresentIn s.catalogue gid i.fileId) ∧
        (¬ PresentIn s.catalogue gid i.fileId → i.lifecycleState = .deleted)
  renames : ∀ limit : ℤ, (history s.catalogue ws none limit).totalMatched ≤ limit →
    OneToOne RecordsRename (returnedEvents s.catalogue ws limit .renamed)
      {r | r.Happened s.catalogue s.activated}
  deletions : ∀ limit : ℤ, (history s.catalogue ws none limit).totalMatched ≤ limit →
    OneToOne RecordsDeletion (returnedEvents s.catalogue ws limit .deleted)
      {d | d.Happened s.catalogue s.activated}
  tombstones : OneToOne (RecordsLast s.catalogue)
    {t | t ∈ s.catalogue.tombstone ∧ t.workspaceId = ws} {d | d.Happened s.catalogue s.activated}

/-! ## The condition -/

/-- What the call walks can be traced. -/
def KeepsTrack (env : Environment) (ws : String) (s : HistoryState) (call : Call env) : Prop :=
  ∀ walked, call.files.mapM (hashWalked env call.policy) = .ok walked →
    Traceable s.catalogue ws walked call.plans call.now

/-! ## The invariant -/

/-- What the calls that can be traced keep. -/
structure Inv (ws : String) (s : HistoryState) : Prop where
  pointer : activeGeneration? s.catalogue ws = s.activated.head?
  members : PerPath.MembersRefer s.catalogue
  generations : ∀ g ∈ s.activated, s.catalogue.hasGeneration g = true
  tracked : Tracked ws (activeGeneration? s.catalogue ws) s.catalogue
  records : Records ws s.activated s.catalogue

section Lemmas

variable {env : Environment} {s : HistoryState} {c : Catalogue} {ws gid : String}

lemma inv_start (workspaceIds : List String) (ws : String) : Inv ws (.start workspaceIds) where
  pointer := Generations.activeGeneration?_registered workspaceIds ws
  members := PerPath.membersRefer_registered workspaceIds
  generations _ hg := absurd hg (by simp [HistoryState.start])
  tracked :=
    ⟨fun _ hgf => absurd hgf Table.not_mem_empty, fun _ hgf => absurd hgf Table.not_mem_empty,
      fun _ hi => absurd hi Table.not_mem_empty, fun _ hgf => absurd hgf Table.not_mem_empty⟩
  records := by
    have hevents : ∀ type, eventsOf (Catalogue.registered workspaceIds) ws type = ∅ := fun type =>
      Set.eq_empty_of_forall_notMem fun e he => Table.not_mem_empty he.1.1
    have hsucc : ∀ {new old}, ¬ Successive [] new old := fun h => by simpa using h.mem.1
    have hrenames : {r : FileRename | r.Happened (Catalogue.registered workspaceIds) []} = ∅ :=
      Set.eq_empty_of_forall_notMem fun r ⟨_, h, _⟩ => hsucc h
    have hgone : {d : Disappearance | d.Happened (Catalogue.registered workspaceIds) []} = ∅ :=
      Set.eq_empty_of_forall_notMem fun d ⟨_, h, _⟩ => hsucc h
    have htombs : {t | t ∈ (Catalogue.registered workspaceIds).tombstone ∧
        t.workspaceId = ws} = ∅ :=
      Set.eq_empty_of_forall_notMem fun t ht => Table.not_mem_empty ht.1
    refine ⟨fun _ hi => absurd hi Table.not_mem_empty, ?_, ?_, ?_⟩
    · show OneToOne _ _ {r : FileRename | r.Happened (Catalogue.registered workspaceIds) []}
      rw [hrenames]
      show OneToOne _ (eventsOf (Catalogue.registered workspaceIds) ws .renamed) _
      rw [hevents]
      exact .empty
    · show OneToOne _ _ {d : Disappearance | d.Happened (Catalogue.registered workspaceIds) []}
      rw [hgone]
      show OneToOne _ (eventsOf (Catalogue.registered workspaceIds) ws .deleted) _
      rw [hevents]
      exact .empty
    · show OneToOne _ {t | t ∈ (Catalogue.registered workspaceIds).tombstone ∧
        t.workspaceId = ws} {d : Disappearance | d.Happened (Catalogue.registered workspaceIds) []}
      rw [hgone, htombs]
      exact .empty

/-- The law follows from the invariant. -/
lemma Inv.followsHistory (h : Inv ws s) : FollowsHistory ws s := by
  have hreturned : ∀ limit : ℤ, (history s.catalogue ws none limit).totalMatched ≤ limit →
      ∀ type, returnedEvents s.catalogue ws limit type = eventsOf s.catalogue ws type :=
    fun limit hlimit type => Set.ext fun e => and_congr_left fun _ => mem_history hlimit
  constructor
  · intro gid hact i hi hever
    have hgone : ¬ PresentIn s.catalogue gid i.fileId → i.lifecycleState = .deleted :=
      h.records.gone i hi hever gid (h.pointer.symm.trans hact)
    refine ⟨⟨fun hcurrent => ?_, ?_⟩, hgone⟩
    · by_contra hnot
      exact absurd ((hgone hnot).symm.trans hcurrent) (by simp)
    · rintro ⟨p, gf, hgf, rfl, hpres, hfile, -⟩
      exact (h.tracked.lastKnownPath_eq hgf hact hpres hi hfile.symm).2.2
  · intro limit hlimit
    rw [hreturned limit hlimit]
    exact h.records.renames
  · intro limit hlimit
    rw [hreturned limit hlimit]
    exact h.records.deletions
  · exact h.records.tombstones

/-- A candidate is activated exactly when no required provider failed. -/
lemma activateOrFail_isNone {semantic : SemanticOutcome} {tree : String} {g : IndexGeneration}
    {now : Timestamp} (hg : g ∈ c.indexGeneration) (hid : g.generationId = gid)
    (hws : g.workspaceId = ws) (hstate : g.state = .candidate) :
    (activateOrFail .none c ws gid semantic tree now).2.isNone = true ↔
      semantic.requiredFailure = false := by
  subst hid hws
  constructor
  · intro h
    unfold activateOrFail at h
    split at h
    next => exact absurd h (by simp)
    next hreq => simpa using hreq
  · intro hreq
    rw [Snapshots.activateOrFail_of_candidate rfl hreq hg hstate]
    rfl

/-- The invariant after the activation or the failure of the candidate. -/
lemma inv_settled {recorded fin : Catalogue} {activated : List String}
    {active : Option String} {workspaces : Table Workspace} {generations : Table IndexGeneration}
    {sessions : Table TaskSession}
    (hframe : fin = { recorded with
      workspace := workspaces
      indexGeneration := generations
      taskSession := sessions })
    (hactive : activeGeneration? fin ws = active) (hhead : active = activated.head?)
    (htracked : Tracked ws active recorded) (hrecords : Records ws activated recorded)
    (hmembers : PerPath.MembersRefer fin)
    (hgens : ∀ g ∈ activated, fin.hasGeneration g = true) : Inv ws ⟨fin, activated⟩ where
  pointer := hactive.trans hhead
  members := hmembers
  generations := hgens
  tracked := by
    show Tracked ws (activeGeneration? fin ws) fin
    rw [hactive, hframe]
    exact ⟨htracked.files, htracked.revisions, htracked.states, htracked.known⟩
  records := by
    show Records ws activated fin
    rw [hframe]
    exact ⟨hrecords.gone, hrecords.renames, hrecords.deletions, hrecords.tombstones⟩

/-- Every call that can be traced keeps the invariant. -/
lemma inv_step (hH : env.hasher.Injective) {call : Call env} (h : Inv ws s)
    (hok : Succeeds env ws s call) (hcall : KeepsTrack env ws s call) :
    Inv ws (step env ws s call) := by
  obtain ⟨c, gens⟩ := s
  let perPath : PerPath.Call :=
    ⟨Snapshots.workspaceRecord c ws, call.input, fun files hf => by
      obtain rfl : call.files = files := Except.ok.inj hf
      exact call.distinct⟩
  have hmembers : PerPath.MembersRefer
      (reconcile env c (Snapshots.workspaceRecord c ws) call.input).1 :=
    @PerPath.membersRefer_step env c perPath h.members
  have hend := reconcile_ending env c (Snapshots.workspaceRecord c ws) call.input
  obtain ⟨report, hok⟩ := hok
  unfold step
  change (reconcile env c (Snapshots.workspaceRecord c ws) call.input).2 = .ok report at hok
  show Inv ws ⟨(reconcile env c (Snapshots.workspaceRecord c ws) call.input).1,
    noteActivation gens (reconcile env c (Snapshots.workspaceRecord c ws) call.input).2⟩
  generalize reconcile env c (Snapshots.workspaceRecord c ws) call.input = res
    at hend hok hmembers ⊢
  obtain ⟨c', r⟩ := res
  cases hend with
  | notBegun e hnot => exact absurd hok (by simp)
  | stopped e hfiles hbegin hnot => exact absurd hok (by simp)
  | @finished begun recorded candidate files walked facts report' hfiles hbegin hwalked hfacts
      hreport =>
    obtain rfl : call.files = files := Except.ok.inj hfiles
    obtain ⟨-, hbegin⟩ := withFault_ok.mp hbegin
    obtain ⟨-, hfacts⟩ := withFault_ok.mp hfacts
    obtain ⟨hregistered, -⟩ := beginCandidate_ok hbegin
    obtain ⟨b⟩ := beginCandidate_begun hbegin
    obtain ⟨st, hst, hsemantic⟩ := factsTransaction_ok hfacts
    have hall : AllPresent walked :=
      ⟨(PerPath.map_relStr hwalked) ▸ call.distinct, call.present_of_walked hwalked⟩
    have eff : CallEffect env ws candidate.generationId call.now c walked recorded :=
      callEffect_of_stages hH h.members b hall.distinct hall.present st hst
    have tr : Traceable c ws walked call.plans call.now := hcall walked hwalked
    have hnew : candidate.generationId ∉ gens := by
      intro hmem
      exact absurd ((h.generations _ hmem).symm.trans b.fresh) (by simp)
    obtain ⟨hworkspace, ⟨f, hf, -, hgens⟩, -⟩ := st.committed_rows hst
    obtain ⟨g, hg, hgid, hgws, hstate⟩ := st.candidate_mem b hst
    have hbegunW : begun.workspace = c.workspace := by rw [b.begun_eq]
    have hrecordedW : recorded.workspace = c.workspace := hworkspace.trans hbegunW
    have hrequired : facts.semantic.requiredFailure = true ↔ RequiredFailure call.plans := by
      rw [hsemantic]
      exact runSemanticReconcile_requiredFailure st.semantic_ok
    obtain ⟨workspaces, p, f', sessions, hf', hframe⟩ := activateOrFail_frame call.input.faults
      recorded ws candidate.generationId facts.semantic
      (sourceTreeHash env.hasher (walked.filterMap Walked.presentHash?)) call.now
    have hisNone := @activateOrFail_isNone recorded ws candidate.generationId facts.semantic
      (sourceTreeHash env.hasher (walked.filterMap Walked.presentHash?)) g call.now hg hgid hgws
      hstate
    have hhas : ∀ id, c.hasGeneration id = true ∨ id = candidate.generationId →
        (activateOrFail call.input.faults recorded ws candidate.generationId facts.semantic
          (sourceTreeHash env.hasher (walked.filterMap Walked.presentHash?))
          call.now).1.hasGeneration id = true := by
      intro id hid
      rw [hframe, hasGeneration_update hf'.generationId rfl,
        hasGeneration_update hf.generationId hgens]
      exact b.hasGeneration_iff.mpr hid
    have hactivated := hreport.2
    have hcandidate := hreport.1
    show Inv ws ⟨_, if report'.activated then report'.candidateGenerationId :: gens else gens⟩
    change PerPath.MembersRefer (activateOrFail call.input.faults recorded ws
      candidate.generationId facts.semantic
      (sourceTreeHash env.hasher (walked.filterMap Walked.presentHash?)) call.now).1 at hmembers
    change report'.activated = (activateOrFail call.input.faults recorded ws
      candidate.generationId facts.semantic
      (sourceTreeHash env.hasher (walked.filterMap Walked.presentHash?)) call.now).2.isNone
      at hactivated
    by_cases hreq : RequiredFailure call.plans
    · -- the candidate is failed, and nothing was detected
      obtain ⟨hren, hdel⟩ := tr.failing hreq
      have hnone : (activateOrFail call.input.faults recorded ws candidate.generationId
          facts.semantic (sourceTreeHash env.hasher (walked.filterMap Walked.presentHash?))
          call.now).2.isNone = false := by
        rw [Bool.eq_false_iff]
        intro hact
        exact absurd ((hrequired.mpr hreq).symm.trans (hisNone.mp hact)) (by simp)
      obtain ⟨code, message, hfail⟩ := Failure.activateOrFail_refused hnone
      rw [hactivated, hnone, if_neg (by simp)]
      have hpointer : activeGeneration? (activateOrFail call.input.faults recorded ws
          candidate.generationId facts.semantic
          (sourceTreeHash env.hasher (walked.filterMap Walked.presentHash?)) call.now).1 ws =
          activeGeneration? c ws := by
        rw [hfail, Failure.failCandidateOrIgnore_eq hg hgid hstate]
        show activeGeneration? { recorded with indexGeneration := _ } ws = _
        rw [activeGeneration?, activeGeneration?]
        show (recorded.workspace.find? _).bind _ = _
        rw [hrecordedW]
      have hne : activeGeneration? c ws ≠ some candidate.generationId := by
        intro hact
        exact hnew (List.mem_of_mem_head? (h.pointer.symm.trans hact))
      exact inv_settled hframe hpointer h.pointer (h.tracked.frame hall eff hne hren hdel)
        (h.records.frame eff h.tracked hnew hren hdel) hmembers
        fun g hg => hhas g (Or.inl (h.generations g hg))
    · have hrequired' : facts.semantic.requiredFailure = false := by
        rw [Bool.eq_false_iff]
        exact fun h => hreq (hrequired.mp h)
      have hnone := hisNone.mpr hrequired'
      change (activateOrFail call.input.faults recorded ws candidate.generationId facts.semantic
        (sourceTreeHash env.hasher (walked.filterMap Walked.presentHash?))
        call.now).2.isNone = true at hnone
      rw [hactivated, hnone, if_pos rfl, hcandidate]
      have hpointer : activeGeneration? (activateOrFail call.input.faults recorded ws
          candidate.generationId facts.semantic
          (sourceTreeHash env.hasher (walked.filterMap Walked.presentHash?)) call.now).1 ws =
          some candidate.generationId := by
        obtain ⟨g', hg', hid', hws', -, hact⟩ :=
          activateCandidate_ok (activateOrFail_activated hnone)
        rw [hact, ← hid', ← hws']
        refine activeGeneration?_activated ?_
        rw [hws', Catalogue.hasWorkspace, hrecordedW]
        exact hregistered
      refine inv_settled hframe hpointer rfl (h.tracked.candidate hall eff tr hreq)
        (h.records.candidate hall eff h.tracked tr hnew h.pointer) hmembers fun g hg => hhas g ?_
      rcases List.mem_cons.mp hg with rfl | hg
      · exact Or.inr rfl
      · exact Or.inl (h.generations g hg)

end Lemmas

/-- **The records follow the history.**  In every run of reconciles that meet no key
conflict, if no candidate with renames or deletions fails, every rename finds its identity,
no activated path finds a deleted identity and the newest revision of a deleted file with its
last content is its last revision, then after every call the identities, the events that
`history` returns and the tombstones are those of the activated generations. -/
theorem followsHistory_of_keepsTrack (env : Environment) (hH : env.hasher.Injective)
    (workspaceIds : List String) (ws : String) (calls : List (Call env))
    (hsucceeds : AllSteps (step env ws) (Succeeds env ws) (.start workspaceIds) calls)
    (htrack : AllSteps (step env ws) (KeepsTrack env ws) (.start workspaceIds) calls) :
    AllStates (step env ws) (FollowsHistory ws) (.start workspaceIds) calls :=
  allStates_of_allSteps (I := Inv ws) (inv_start workspaceIds ws) (hsucceeds.and htrack)
    (fun _ _ h hcall => inv_step hH h hcall.1 hcall.2) fun _ h => h.followsHistory

/-! ## Two runs -/

section Tests

variable {env : Environment} {ws : String} {s : HistoryState} {snap : Snapshots.Snapshot env}

/-- A call without providers reconciles its snapshot. -/
lemma step_catalogue : (step env ws s ⟨snap, []⟩).catalogue =
    Snapshots.step env ws s.catalogue snap := rfl

/-- It activates the snapshot if its ids are free. -/
lemma activates_of_idsFree (hH : env.hasher.Injective)
    (hc : Snapshots.Sound env.hasher ws s.catalogue)
    (hfree : Snapshots.IdsFree env ws s.catalogue snap) :
    Succeeds env ws s ⟨snap, []⟩ ∧ ∃ gid,
      activeGeneration? (step env ws s ⟨snap, []⟩).catalogue ws = some gid ∧
      (step env ws s ⟨snap, []⟩).activated = gid :: s.activated := by
  obtain ⟨⟨report, ⟨hok, hact⟩, hpointer⟩, -⟩ := Snapshots.activates_of_idsFree hH hc hfree
  change (reconcile env s.catalogue (Snapshots.workspaceRecord s.catalogue ws)
    (Call.input ⟨snap, []⟩)).2 = .ok report at hok
  refine ⟨⟨report, hok⟩, report.candidateGenerationId, hpointer, ?_⟩
  show noteActivation s.activated (reconcile env s.catalogue
    (Snapshots.workspaceRecord s.catalogue ws) (Call.input ⟨snap, []⟩)).2 = _
  rw [hok]
  exact if_pos hact

/-- A file that is not walked any more is deleted. -/
lemma deleted_step (snap : Snapshots.Snapshot env) (hH : env.hasher.Injective)
    {i : FileIdentity} {hash : String} (h : Snapshots.HasOnly env.hasher ws i hash s.catalogue)
    (hwalked : snap.files.mapM (hashWalked env snap.policy) = .ok []) :
    Snapshots.Sound env.hasher ws (step env ws s ⟨snap, []⟩).catalogue ∧
      snapshotPreviousPresent (step env ws s ⟨snap, []⟩).catalogue ws = [] ∧
      (step env ws s ⟨snap, []⟩).catalogue.fileIdentity.rows = [markDeleted snap.now i] :=
  h.deleted snap hH hwalked

/-- A deleted file that comes back is active, and its identity is still deleted. -/
lemma not_followsHistory_of_found_again (snap : Snapshots.Snapshot env)
    (hH : env.hasher.Injective) (hc : Snapshots.Sound env.hasher ws s.catalogue)
    (hprevious : snapshotPreviousPresent s.catalogue ws = []) {i : FileIdentity}
    (hrows : s.catalogue.fileIdentity.rows = [i]) (hws : i.workspaceId = ws)
    (hdeleted : i.lifecycleState = .deleted) {content : HashedContent} {text : Option String}
    (hwalked : snap.files.mapM (hashWalked env snap.policy) =
      .ok [.present i.lastKnownPath content text]) :
    Succeeds env ws s ⟨snap, []⟩ ∧ ¬ FollowsHistory ws (step env ws s ⟨snap, []⟩) := by
  obtain ⟨hfree, hi, gid, hact, hpresent⟩ :=
    Snapshots.found_again snap hH hc hprevious hrows hws hwalked
  obtain ⟨hsucceeds, gid', hact', hactivated⟩ := activates_of_idsFree hH hc hfree
  obtain rfl : gid' = gid := Option.some.inj (hact'.symm.trans hact)
  refine ⟨hsucceeds, fun h => ?_⟩
  have hmem : gid' ∈ (step env ws s ⟨snap, []⟩).activated := hactivated ▸ List.mem_cons_self
  have hcurrent := ((h.states gid' hact i hi ⟨gid', hmem, hpresent⟩).1).mpr hpresent
  exact absurd (hdeleted.symm.trans hcurrent) (by simp)

end Tests

/-- Some readable files, and no providers. -/
def Call.ofFiles (files : List (String × List UInt8)) (hnodup : (files.map Prod.fst).Nodup)
    (hcls : ∀ file ∈ files,
      classify Environment.plain.isMatch file.1 .none = .present) : Call .plain :=
  ⟨.ofFiles files hnodup hcls, []⟩

/-- The catalogue after the first reconcile of a file. -/
lemma hasOnly_created : Snapshots.HasOnly Environment.plain.hasher "ws"
    (createdIdentity Environment.plain.hasher "ws" "a" 0) (contentHashOfBytes Hasher.plain [1])
    (step .plain "ws" (.start ["ws"])
      (.ofFiles [("a", [1])] (by decide) (by decide))).catalogue := by
  rw [Call.ofFiles, step_catalogue]
  refine Snapshots.hasOnly_first (.ofFiles [("a", [1])] (by decide) (by decide))
    Hasher.plain_injective (List.mem_singleton_self "ws") rfl ?_
  rfl

/-- A file, and the same file under another path. -/
def renamedFile : List (Call .plain) :=
  [.ofFiles [("a", [1])] (by decide) (by decide), .ofFiles [("b", [1])] (by decide) (by decide)]

theorem followsHistory_renamedFile :
    AllStates (step .plain "ws") (FollowsHistory "ws") (.start ["ws"]) renamedFile := by
  have hfirst := activates_of_idsFree (s := .start ["ws"]) Hasher.plain_injective
    (Snapshots.sound_registered Hasher.plain (List.mem_singleton_self "ws"))
    (Snapshots.idsFree_registered .plain ["ws"] "ws"
      (.ofFiles [("a", [1])] (by decide) (by decide)))
  have hsecond := activates_of_idsFree Hasher.plain_injective hasOnly_created.sound
    (hasOnly_created.idsFree_renamed (.ofFiles [("b", [1])] (by decide) (by decide)) rfl
      (by decide) rfl)
  refine followsHistory_of_keepsTrack .plain Hasher.plain_injective ["ws"] "ws" renamedFile
    ⟨hfirst.1, hsecond.1, trivial⟩ ⟨?_, ?_, trivial⟩
  · exact fun walked _ => Snapshots.traceable_registered ["ws"] "ws" walked _
  · intro walked hwalked
    obtain rfl := Except.ok.inj hwalked
    exact hasOnly_created.traceable_renamed (by decide) rfl rfl _

/-- A file, no file, and the file again. -/
def recreatedFile : List (Call .plain) :=
  [.ofFiles [("a", [1])] (by decide) (by decide), .ofFiles [] (by decide) (by decide),
    .ofFiles [("a", [1])] (by decide) (by decide)]

/-- The file is in the active generation, and its identity is still deleted. -/
theorem recreatedFile_not_followsHistory :
    AllSteps (step .plain "ws") (Succeeds .plain "ws") (.start ["ws"]) recreatedFile ∧
      ¬ AllStates (step .plain "ws") (FollowsHistory "ws") (.start ["ws"]) recreatedFile := by
  have hfirst := activates_of_idsFree (s := .start ["ws"]) Hasher.plain_injective
    (Snapshots.sound_registered Hasher.plain (List.mem_singleton_self "ws"))
    (Snapshots.idsFree_registered .plain ["ws"] "ws"
      (.ofFiles [("a", [1])] (by decide) (by decide)))
  have hsecond := activates_of_idsFree Hasher.plain_injective hasOnly_created.sound
    (hasOnly_created.idsFree_deleted (.ofFiles [] (by decide) (by decide)) rfl)
  obtain ⟨hsound, hprevious, hrows⟩ := deleted_step (.ofFiles [] (by decide) (by decide))
    Hasher.plain_injective hasOnly_created rfl
  have hthird := not_followsHistory_of_found_again
    (.ofFiles [("a", [1])] (by decide) (by decide)) Hasher.plain_injective hsound hprevious hrows
    rfl rfl rfl
  refine ⟨⟨hfirst.1, hsecond.1, hthird.1, trivial⟩, fun hall => hthird.2 ?_⟩
  have hend := hall.at_end
  simp only [recreatedFile, run_cons, run_nil] at hend
  exact hend

end LifecycleRun

end WorkspaceAtlas
