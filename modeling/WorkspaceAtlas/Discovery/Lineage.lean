/-
# Reconciles that overlap

Any number of reconciles of one workspace run at once, one transaction after the other in any
order: each begins its candidate, records its facts, and activates or fails it.  The parent
is read when the candidate is begun, the previous files are read with the facts, and the
activation looks at the candidate only.  So an activation replaces the generation that its
reconcile saw exactly when no other candidate was activated since it began.
-/
import WorkspaceAtlas.Catalogue.GenerationRun
import WorkspaceAtlas.Discovery.Stages

namespace WorkspaceAtlas

open Relational Transition

namespace Lineage

/-! ## The system -/

/-- How far a reconcile has got: `activations` counts those before it began its candidate,
`against` is the generation whose files the renames and the deletions were detected from. -/
inductive Progress where
  | idle
  | begun (generationId : String) (activations : ℕ)
  | recorded (generationId : String) (activations : ℕ) (against : Option String)
  deriving DecidableEq

/-- One transaction of some reconcile. -/
inductive Call where
  | begin (run : ℕ) (now : Timestamp)
  | facts (run : ℕ) (walked : List Walked) (plans : List SemanticPlan) (now : Timestamp)
  | activate (run : ℕ) (sourceTreeHash : Option String) (now : Timestamp)
  | fail (run : ℕ) (failureCode failureMessage : String)

/-- The catalogue, the reconciles, and the generations that were activated, the last one
first. -/
structure LineageState where
  catalogue : Catalogue
  runs : ℕ → Progress
  activated : List String

namespace LineageState

/-- Some registered workspaces, and no reconcile. -/
def start (workspaceIds : List String) : LineageState :=
  ⟨Catalogue.registered workspaceIds, fun _ => .idle, []⟩

/-- A reconcile gets on. -/
def setRun (s : LineageState) (run : ℕ) (p : Progress) : LineageState :=
  { s with runs := Function.update s.runs run p }

end LineageState

/-- One transaction; an `Err` ends the reconcile, unless it is the refusal of an activation,
after which the candidate is failed. -/
def step (env : Environment) (ws : String) (s : LineageState) : Call → LineageState
  | .begin run now =>
    match s.runs run with
    | .idle =>
      match beginCandidate env.hasher s.catalogue ws .reconcile "p_reconcile_v1" "1.3.0" now with
      | .ok (c, candidate) =>
        { s with catalogue := c }.setRun run (.begun candidate.generationId s.activated.length)
      | .error _ => s
    | _ => s
  | .facts run walked plans now =>
    match s.runs run with
    | .begun gid n =>
      match factsTransaction env s.catalogue ws gid walked plans now with
      | .ok (c, _) =>
        { s with catalogue := c }.setRun run (.recorded gid n (activeGeneration? s.catalogue ws))
      | .error _ => s.setRun run .idle
    | _ => s
  | .activate run tree now =>
    match s.runs run with
    | .recorded gid _ _ =>
      match activateCandidate s.catalogue ws gid tree now with
      | .ok c => { s with catalogue := c, activated := gid :: s.activated }.setRun run .idle
      | .error _ => s
    | _ => s
  | .fail run code message =>
    match s.runs run with
    | .recorded gid _ _ =>
      match failCandidate s.catalogue gid code message with
      | .ok c => { s with catalogue := c }.setRun run .idle
      | .error _ => s.setRun run .idle
    | _ => s

/-! ## The laws -/

/-- Following the parents from `p` visits the generations `gids` and no other. -/
def Linked (c : Catalogue) : Option String → List String → Prop
  | p, [] => p = none
  | p, gid :: gids => p = some gid ∧
    ∃ g ∈ c.indexGeneration, g.generationId = gid ∧ Linked c g.parentGenerationId gids

/-- An activation that takes place replaces the generation that is the parent of the
candidate, and from whose files its renames and deletions were detected. -/
def ReplacesWhatItSaw (ws : String) (s : LineageState) : Call → Prop
  | .activate run tree now => ∀ gid n against, s.runs run = .recorded gid n against →
    ∀ c, activateCandidate s.catalogue ws gid tree now = .ok c →
      against = activeGeneration? s.catalogue ws ∧
        ∀ g ∈ s.catalogue.indexGeneration, g.generationId = gid →
          g.parentGenerationId = activeGeneration? s.catalogue ws
  | _ => True

/-- No activation is lost: the step replaces what it saw, and the parents of the active
generation are the generations that were ever active. -/
def NothingLost (env : Environment) (ws : String) (s : LineageState) (call : Call) : Prop :=
  ReplacesWhatItSaw ws s call ∧
    Linked (step env ws s call).catalogue (activeGeneration? (step env ws s call).catalogue ws)
      (step env ws s call).activated

/-- When a reconcile activates its candidate, no other candidate was activated since it
began. -/
def Undisturbed (ws : String) (s : LineageState) : Call → Prop
  | .activate run _ _ => ∀ gid n against, s.runs run = .recorded gid n against →
    ∀ g ∈ s.catalogue.indexGeneration, g.generationId = gid → g.workspaceId = ws →
      g.state = .candidate → s.activated.length = n
  | _ => True

/-! ## The invariant -/

/-- The candidate of a reconcile that began after `n` activations. -/
structure RunInv (ws : String) (c : Catalogue) (activated : List String) (gid : String)
    (n : ℕ) : Prop where
  registered : c.hasWorkspace ws = true
  le : n ≤ activated.length
  candidate : ∃ g ∈ c.indexGeneration, g.generationId = gid ∧ g.workspaceId = ws ∧
    (∀ p, g.parentGenerationId = some p →
      ∃ q ∈ c.indexGeneration, q.generationId = p ∧ q.state = .committed) ∧
    (n = activated.length → g.parentGenerationId = activated.head? ∧
      ∀ x ∈ c.indexGeneration, x.workspaceId = ws → x.state = .committed →
        x.sequenceNo < g.sequenceNo) ∧
    (n < activated.length → g.parentGenerationId ≠ activated.head?)

/-- The generation activated last is the committed one with the highest number. -/
def Highest (ws : String) (c : Catalogue) : List String → Prop
  | [] => ∀ x ∈ c.indexGeneration, x.workspaceId = ws → x.state ≠ .committed
  | gid :: _ => ∃ g ∈ c.indexGeneration, g.generationId = gid ∧ g.workspaceId = ws ∧
    g.state = .committed ∧ ∀ x ∈ c.indexGeneration, x.workspaceId = ws →
      x.state = .committed → x.sequenceNo ≤ g.sequenceNo

/-- What the steps keep as long as no reconcile is disturbed. -/
structure Inv (ws : String) (s : LineageState) : Prop where
  pointer : activeGeneration? s.catalogue ws = s.activated.head?
  linked : Linked s.catalogue s.activated.head? s.activated
  highest : Highest ws s.catalogue s.activated
  begun : ∀ run gid n, s.runs run = .begun gid n → RunInv ws s.catalogue s.activated gid n
  recorded : ∀ run gid n against, s.runs run = .recorded gid n against →
    RunInv ws s.catalogue s.activated gid n ∧
      (n = s.activated.length → against = s.activated.head?)

section Lemmas

variable {env : Environment} {s : LineageState} {c c' : Catalogue} {ws gid : String}
  {g g' : IndexGeneration} {activated : List String} {n run : ℕ} {now : Timestamp}

/-- The generations have the same place in the lineage. -/
structure SamePlace (g g' : IndexGeneration) : Prop where
  generationId : g'.generationId = g.generationId
  workspaceId : g'.workspaceId = g.workspaceId
  parentGenerationId : g'.parentGenerationId = g.parentGenerationId
  sequenceNo : g'.sequenceNo = g.sequenceNo
  committed : g'.state = .committed ↔ g.state = .committed

lemma SamePlace.refl (g : IndexGeneration) : SamePlace g g :=
  ⟨rfl, rfl, rfl, rfl, Iff.rfl⟩

/-- A change that commits nothing and moves no pointer. -/
structure CommitsNothing (c c' : Catalogue) : Prop where
  workspace : c'.workspace = c.workspace
  keeps : ∀ g ∈ c.indexGeneration, ∃ g' ∈ c'.indexGeneration, SamePlace g g'
  committed : ∀ g' ∈ c'.indexGeneration, g'.state = .committed →
    ∃ g ∈ c.indexGeneration, SamePlace g g'

/-- An update that keeps the places. -/
lemma commitsNothing_update {p : IndexGeneration → Bool} {f : Table.Update IndexGeneration}
    (hf : ∀ g ∈ c.indexGeneration, p g = true → SamePlace g (f g))
    (hws : c'.workspace = c.workspace)
    (hgens : c'.indexGeneration = c.indexGeneration.update p f) : CommitsNothing c c' := by
  have hplace : ∀ g ∈ c.indexGeneration, SamePlace g (if p g = true then f g else g) := by
    intro g hg
    split
    next hp => exact hf g hg hp
    next => exact .refl g
  refine ⟨hws, fun g hg => ?_, fun g' hg' _ => ?_⟩
  · rw [hgens]
    exact ⟨_, Table.mem_update.mpr ⟨g, hg, rfl⟩, hplace g hg⟩
  · rw [hgens] at hg'
    obtain ⟨g, hg, rfl⟩ := Table.mem_update.mp hg'
    exact ⟨g, hg, hplace g hg⟩

lemma Linked.mono {p : Option String} {gids : List String} (h : Linked c p gids)
    (hkeeps : ∀ g ∈ c.indexGeneration, ∃ g' ∈ c'.indexGeneration,
      g'.generationId = g.generationId ∧ g'.parentGenerationId = g.parentGenerationId) :
    Linked c' p gids := by
  induction gids generalizing p with
  | nil => exact h
  | cons gid gids ih =>
    obtain ⟨hp, g, hg, hid, hrest⟩ := h
    obtain ⟨g', hg', hid', hparent⟩ := hkeeps g hg
    exact ⟨hp, g', hg', hid'.trans hid, hparent ▸ ih hrest⟩

lemma RunInv.commitsNothing (h : RunInv ws c activated gid n) (hc : CommitsNothing c c') :
    RunInv ws c' activated gid n := by
  obtain ⟨g, hg, hid, hws, hparent, hcurrent, hbehind⟩ := h.candidate
  obtain ⟨g', hg', hplace⟩ := hc.keeps g hg
  have hregistered : c'.hasWorkspace ws = true := by
    rw [Catalogue.hasWorkspace, hc.workspace]
    exact h.registered
  refine ⟨hregistered, h.le, g', hg', hplace.generationId.trans hid,
    hplace.workspaceId.trans hws, ?_, ?_, ?_⟩
  · intro p hp
    obtain ⟨q, hq, hqid, hqstate⟩ := hparent p (hplace.parentGenerationId ▸ hp)
    obtain ⟨q', hq', hqplace⟩ := hc.keeps q hq
    exact ⟨q', hq', hqplace.generationId.trans hqid, hqplace.committed.mpr hqstate⟩
  · intro hn
    obtain ⟨hhead, hlt⟩ := hcurrent hn
    refine ⟨hplace.parentGenerationId.trans hhead, fun x hx hxws hxstate => ?_⟩
    obtain ⟨y, hy, hyplace⟩ := hc.committed x hx hxstate
    rw [hyplace.sequenceNo, hplace.sequenceNo]
    exact hlt y hy (hyplace.workspaceId ▸ hxws) (hyplace.committed.mp hxstate)
  · intro hn
    rw [hplace.parentGenerationId]
    exact hbehind hn

lemma Highest.commitsNothing (h : Highest ws c activated) (hc : CommitsNothing c c') :
    Highest ws c' activated := by
  cases activated with
  | nil =>
    intro x hx hxws hxstate
    obtain ⟨y, hy, hyplace⟩ := hc.committed x hx hxstate
    exact h y hy (hyplace.workspaceId ▸ hxws) (hyplace.committed.mp hxstate)
  | cons gid rest =>
    obtain ⟨g, hg, hid, hws, hstate, hle⟩ := h
    obtain ⟨g', hg', hplace⟩ := hc.keeps g hg
    refine ⟨g', hg', hplace.generationId.trans hid, hplace.workspaceId.trans hws,
      hplace.committed.mpr hstate, fun x hx hxws hxstate => ?_⟩
    obtain ⟨y, hy, hyplace⟩ := hc.committed x hx hxstate
    rw [hyplace.sequenceNo, hplace.sequenceNo]
    exact hle y hy (hyplace.workspaceId ▸ hxws) (hyplace.committed.mp hxstate)

/-- A step that commits nothing keeps the invariant, if the reconcile that made it has got
to a state that has it. -/
lemma Inv.commitsNothing (h : Inv ws s) (hc : CommitsNothing s.catalogue c) {p : Progress}
    (hbegun : ∀ gid n, p = .begun gid n → RunInv ws c s.activated gid n)
    (hrecorded : ∀ gid n against, p = .recorded gid n against →
      RunInv ws c s.activated gid n ∧ (n = s.activated.length → against = s.activated.head?)) :
    Inv ws ({ s with catalogue := c }.setRun run p) := by
  have hruns : ∀ r q, ({ s with catalogue := c }.setRun run p).runs r = q →
      r = run ∧ p = q ∨ s.runs r = q := by
    intro r q hq
    by_cases hr : r = run
    · subst hr
      left
      simpa [LineageState.setRun] using hq
    · right
      simpa [LineageState.setRun, hr] using hq
  constructor
  · show activeGeneration? c ws = s.activated.head?
    rw [← h.pointer, activeGeneration?, activeGeneration?, hc.workspace]
  · refine h.linked.mono fun g hg => ?_
    obtain ⟨g', hg', hplace⟩ := hc.keeps g hg
    exact ⟨g', hg', hplace.generationId, hplace.parentGenerationId⟩
  · exact h.highest.commitsNothing hc
  · intro r gid n hr
    rcases hruns r _ hr with ⟨rfl, hp⟩ | hold
    · exact hbegun gid n hp
    · exact (h.begun r gid n hold).commitsNothing hc
  · intro r gid n against hr
    rcases hruns r _ hr with ⟨rfl, hp⟩ | hold
    · exact hrecorded gid n against hp
    · obtain ⟨hrun, hagainst⟩ := h.recorded r gid n against hold
      exact ⟨hrun.commitsNothing hc, hagainst⟩

/-! ### Beginning, recording, failing -/

lemma Highest.candidateParent_eq (h : Highest ws c activated) :
    candidateParent c ws = activated.head? := by
  cases activated with
  | nil =>
    have hnone : highestCommitted c ws = none := by
      rw [Generations.highestCommitted_eq_none]
      intro x hx
      rw [Bool.eq_false_iff]
      intro hcommitted
      obtain ⟨hxws, hxstate⟩ := Generations.isCommittedOf_iff.mp hcommitted
      exact h x hx hxws hxstate
    rw [candidateParent, hnone]
    rfl
  | cons gid rest =>
    obtain ⟨g, hg, rfl, hws, hstate, hle⟩ := h
    refine Generations.candidateParent_eq_some hg
      (Generations.isCommittedOf_iff.mpr ⟨hws, hstate⟩) fun x hx hcommitted => ?_
    obtain ⟨hxws, hxstate⟩ := Generations.isCommittedOf_iff.mp hcommitted
    exact hle x hx hxws hxstate

/-- A candidate that is begun has the generation activated last as its parent. -/
lemma begin_spec {candidate : GenerationRecord} (h : Highest ws c activated)
    (hbegin : beginCandidate env.hasher c ws .reconcile "p_reconcile_v1" "1.3.0" now =
      .ok (c', candidate)) :
    CommitsNothing c c' ∧ RunInv ws c' activated candidate.generationId activated.length := by
  obtain ⟨hregistered, hgid, generations, hins, rfl⟩ := beginCandidate_ok hbegin
  have hmem := fun x => Table.mem_of_insert? (x := x) hins
  have hold : ∀ x ∈ generations, x.state = .committed → x ∈ c.indexGeneration := by
    intro x hx hstate
    rcases (hmem x).mp hx with hx | rfl
    · exact hx
    · exact absurd hstate (by simp [candidateRow])
  refine ⟨⟨rfl, fun g hg => ⟨g, (hmem g).mpr (Or.inl hg), .refl g⟩, fun g hg hstate =>
    ⟨g, hold g hg hstate, .refl g⟩⟩, hregistered, le_rfl, _, (hmem _).mpr (Or.inr rfl), hgid.symm, rfl, ?_,
    fun _ => ⟨h.candidateParent_eq, fun x hx hxws hxstate => ?_⟩,
    fun hlt => absurd hlt (lt_irrefl _)⟩
  · intro p hp
    have hhead : activated.head? = some p := h.candidateParent_eq.symm.trans hp
    cases activated with
    | nil => exact absurd hhead (by simp)
    | cons gid rest =>
      obtain rfl := Option.some.inj hhead
      obtain ⟨g, hg, hid, -, hstate, -⟩ := h
      exact ⟨g, (hmem g).mpr (Or.inl hg), hid, hstate⟩
  · show x.sequenceNo < maxSequence c ws + 1
    have hle := le_maxSequence (hold x hx hxstate)
    rw [hxws] at hle
    omega

/-- The facts change no more than the counters of a generation. -/
lemma factsTransaction_generations {walked : List Walked} {plans : List SemanticPlan}
    {report : FactsReport}
    (h : factsTransaction env c ws gid walked plans now = .ok (c', report)) :
    c'.workspace = c.workspace ∧ ∃ eligible indexed excluded unsupported failed,
      c'.indexGeneration = c.indexGeneration.update (fun g => g.generationId = gid)
        (setCounts eligible indexed excluded unsupported failed) := by
  simp only [factsTransaction, recordDeletions, bind_ok, Prod.exists] at h
  obtain ⟨renamed, hren, recorded, parsed, hwalk, deleted, count, ⟨deleted', hdel, hpair⟩, facts,
    semantic, hsem, hrest⟩ := h
  obtain ⟨rfl, -⟩ := Prod.mk.inj (Except.ok.inj hpair)
  obtain ⟨rfl, -⟩ := Prod.mk.inj (Except.ok.inj hrest)
  obtain ⟨-, events, -, rfl⟩ := recordRenames_ok.mp hren
  obtain ⟨hws, hgens, -⟩ := walk_frame hwalk
  obtain ⟨-, events', tombstones, -, -, rfl⟩ := recordDeletionLoop_ok.mp hdel
  have hgens : recorded.indexGeneration = c.indexGeneration := hgens
  rw [← hgens]
  exact ⟨hws, _, _, _, _, _, rfl⟩

lemma facts_spec {walked : List Walked} {plans : List SemanticPlan} {report : FactsReport}
    (h : factsTransaction env c ws gid walked plans now = .ok (c', report)) :
    CommitsNothing c c' := by
  obtain ⟨hws, eligible, indexed, excluded, unsupported, failed, hgens⟩ :=
    factsTransaction_generations h
  exact commitsNothing_update (fun _ _ _ => ⟨rfl, rfl, rfl, rfl, Iff.rfl⟩) hws hgens

lemma fail_spec {code message : String} (h : failCandidate c gid code message = .ok c') :
    CommitsNothing c c' := by
  obtain ⟨-, rfl⟩ := leaveCandidate_ok h
  refine commitsNothing_update (fun g _ hcand => ?_) rfl rfl
  simp only [isCandidate, Bool.decide_and, Bool.and_eq_true, decide_eq_true_eq] at hcand
  exact ⟨rfl, rfl, rfl, rfl, iff_of_false (by simp [markFailed]) (by simp [hcand.2])⟩

/-! ### Activation -/

/-- The other rows stay, the candidate becomes committed. -/
lemma mem_activated {tree : Option String} {x : IndexGeneration}
    (hx : x ∈ (WorkspaceAtlas.activated c g tree now).indexGeneration) :
    x ∈ c.indexGeneration ∨
      ∃ y ∈ c.indexGeneration, isCandidate g.generationId y = true ∧
        x = markCommitted tree now y := by
  obtain ⟨y, hy, rfl⟩ := Table.mem_update.mp hx
  by_cases hcand : isCandidate g.generationId y = true
  · exact Or.inr ⟨y, hy, hcand, if_pos hcand⟩
  · left
    rw [if_neg hcand]
    exact hy

lemma keeps_activated (tree : Option String) (now : Timestamp) (hg' : g' ∈ c.indexGeneration) :
    ∃ x ∈ (WorkspaceAtlas.activated c g tree now).indexGeneration,
      x.generationId = g'.generationId ∧ x.workspaceId = g'.workspaceId ∧
        x.parentGenerationId = g'.parentGenerationId ∧ x.sequenceNo = g'.sequenceNo := by
  refine ⟨_, Table.mem_update.mpr ⟨g', hg', rfl⟩, ?_⟩
  split
  · exact ⟨rfl, rfl, rfl, rfl⟩
  · exact ⟨rfl, rfl, rfl, rfl⟩

lemma hasWorkspace_activated {tree : Option String} (h : c.hasWorkspace ws = true) :
    (WorkspaceAtlas.activated c g tree now).hasWorkspace ws = true := by
  obtain ⟨w, hw, hid⟩ := hasWorkspace_iff.mp h
  refine hasWorkspace_iff.mpr ⟨_, Table.mem_update.mpr ⟨w, hw, rfl⟩, ?_⟩
  split
  · exact hid
  · exact hid

/-- After the activation of `g`, every reconcile that is under way is behind. -/
lemma RunInv.activate {tree : Option String} (h : RunInv ws c activated gid n)
    (hg : g ∈ c.indexGeneration) (hstate : g.state = .candidate) :
    RunInv ws (WorkspaceAtlas.activated c g tree now) (g.generationId :: activated) gid n := by
  have hle := h.le
  obtain ⟨r, hr, hid, hws, hparent, -, -⟩ := h.candidate
  obtain ⟨x, hx, hxid, hxws, hxparent, -⟩ := keeps_activated (g := g) tree now hr
  refine ⟨hasWorkspace_activated h.registered, by simp only [List.length_cons]; omega, x, hx,
    hxid.trans hid, hxws.trans hws, ?_, ?_, ?_⟩
  · intro p hp
    obtain ⟨q, hq, hqid, hqstate⟩ := hparent p (hxparent ▸ hp)
    exact ⟨q, Generations.mem_update_of_settled hq (by simp [hqstate]), hqid, hqstate⟩
  · intro hn
    simp only [List.length_cons] at hn
    omega
  · intro _ heq
    rw [hxparent] at heq
    -- a parent is committed, and the candidate was not
    obtain ⟨q, hq, hqid, hqstate⟩ := hparent g.generationId heq
    rw [generation_ext hq hg hqid, hstate] at hqstate
    exact absurd hqstate (by simp)

/-- The activation of a candidate that saw the last activation. -/
lemma Inv.activate {tree : Option String} {against : Option String} (h : Inv ws s)
    (hrun : s.runs run = .recorded gid n against) (hn : s.activated.length = n)
    (hg : g ∈ s.catalogue.indexGeneration) (hid : g.generationId = gid)
    (hws : g.workspaceId = ws) (hstate : g.state = .candidate) :
    Inv ws ({ s with
      catalogue := WorkspaceAtlas.activated s.catalogue g tree now
      activated := gid :: s.activated }.setRun run .idle) := by
  obtain ⟨⟨hregistered, -, r, hr, hrid, -, -, hcurrent, -⟩, -⟩ := h.recorded run gid n against hrun
  obtain rfl : r = g := generation_ext hr hg (hrid.trans hid.symm)
  obtain ⟨hparent, hlt⟩ := hcurrent hn.symm
  have hcommitted : markCommitted tree now r ∈
      (WorkspaceAtlas.activated s.catalogue r tree now).indexGeneration :=
    Table.mem_update_of_mem hr (by simp [isCandidate, hstate])
  have hruns : ∀ m q, q ≠ .idle → ({ s with
      catalogue := WorkspaceAtlas.activated s.catalogue r tree now
      activated := gid :: s.activated }.setRun run .idle).runs m = q → s.runs m = q := by
    intro m q hq hm
    by_cases hmrun : m = run
    · subst hmrun
      exact absurd hm (by simpa [LineageState.setRun] using hq.symm)
    · simpa [LineageState.setRun, hmrun] using hm
  constructor
  · obtain ⟨w, hw, hwid⟩ := hasWorkspace_iff.mp hregistered
    have hpointed : pointTo r.generationId w ∈
        (WorkspaceAtlas.activated s.catalogue r tree now).workspace :=
      Table.mem_update_of_mem hw (by simp [hwid, hws])
    show activeGeneration? (WorkspaceAtlas.activated s.catalogue r tree now) ws = some gid
    rw [activeGeneration?, find?_workspace_eq_some.mpr ⟨hpointed, hwid⟩, ← hid]
    rfl
  · refine ⟨rfl, _, hcommitted, hid, ?_⟩
    show Linked _ r.parentGenerationId s.activated
    rw [hparent]
    refine h.linked.mono fun x hx => ?_
    obtain ⟨y, hy, hyid, -, hyparent, -⟩ := keeps_activated (g := r) tree now hx
    exact ⟨y, hy, hyid, hyparent⟩
  · refine ⟨_, hcommitted, hid, hws, rfl, fun x hx hxws hxstate => ?_⟩
    show x.sequenceNo ≤ r.sequenceNo
    rcases mem_activated hx with hx | ⟨y, hy, hcand, rfl⟩
    · exact (hlt x hx hxws hxstate).le
    · simp only [isCandidate, Bool.decide_and, Bool.and_eq_true, decide_eq_true_eq] at hcand
      obtain rfl : y = r := generation_ext hy hr hcand.1
      exact le_rfl
  · intro m gid' k hm
    have hold := h.begun m gid' k (hruns m _ (by simp) hm)
    exact hid ▸ hold.activate hr hstate
  · intro m gid' k against' hm
    obtain ⟨hold, -⟩ := h.recorded m gid' k against' (hruns m _ (by simp) hm)
    refine ⟨hid ▸ hold.activate hr hstate, fun hk => ?_⟩
    have hle := hold.le
    change k = (gid :: s.activated).length at hk
    simp only [List.length_cons] at hk
    omega

/-! ### The steps -/

lemma CommitsNothing.refl (c : Catalogue) : CommitsNothing c c :=
  ⟨rfl, fun g hg => ⟨g, hg, .refl g⟩, fun g hg _ => ⟨g, hg, .refl g⟩⟩

/-- A reconcile that ends leaves the others as they are. -/
lemma Inv.ends (h : Inv ws s) (hc : CommitsNothing s.catalogue c) (run : ℕ) :
    Inv ws ({ s with catalogue := c }.setRun run .idle) :=
  h.commitsNothing hc (fun _ _ hp => absurd hp (by simp)) fun _ _ _ hp => absurd hp (by simp)

/-- **Step lemma.**  The transactions keep the invariant while no reconcile is disturbed. -/
lemma inv_step (call : Call) (h : Inv ws s) (hcall : Undisturbed ws s call) :
    Inv ws (step env ws s call) := by
  cases call with
  | begin run now =>
    cases hrun : s.runs run with
    | idle =>
      cases hbegin : beginCandidate env.hasher s.catalogue ws .reconcile "p_reconcile_v1" "1.3.0"
          now with
      | error e =>
        simp only [step, hrun, hbegin]
        exact h
      | ok res =>
        simp only [step, hrun, hbegin]
        obtain ⟨hc, hrunInv⟩ := begin_spec h.highest hbegin
        refine h.commitsNothing hc ?_ fun _ _ _ hp => absurd hp (by simp)
        rintro gid n ⟨⟩
        exact hrunInv
    | begun gid n =>
      simp only [step, hrun]
      exact h
    | recorded gid n against =>
      simp only [step, hrun]
      exact h
  | facts run walked plans now =>
    cases hrun : s.runs run with
    | idle =>
      simp only [step, hrun]
      exact h
    | begun gid n =>
      cases hfacts : factsTransaction env s.catalogue ws gid walked plans now with
      | error e =>
        simp only [step, hrun, hfacts]
        exact h.ends (.refl _) run
      | ok res =>
        simp only [step, hrun, hfacts]
        have hc := facts_spec hfacts
        refine h.commitsNothing hc (fun _ _ hp => absurd hp (by simp)) ?_
        rintro gid' n' against ⟨⟩
        exact ⟨(h.begun run gid n hrun).commitsNothing hc, fun _ => h.pointer⟩
    | recorded gid n against =>
      simp only [step, hrun]
      exact h
  | activate run tree now =>
    cases hrun : s.runs run with
    | idle =>
      simp only [step, hrun]
      exact h
    | begun gid n =>
      simp only [step, hrun]
      exact h
    | recorded gid n against =>
      cases hact : activateCandidate s.catalogue ws gid tree now with
      | error e =>
        simp only [step, hrun, hact]
        exact h
      | ok c =>
        simp only [step, hrun, hact]
        obtain ⟨g, hg, hid, hws, hstate, rfl⟩ := activateCandidate_ok hact
        have hn := hcall gid n against hrun g hg hid hws hstate
        exact h.activate hrun hn hg hid hws hstate
  | fail run code message =>
    cases hrun : s.runs run with
    | idle =>
      simp only [step, hrun]
      exact h
    | begun gid n =>
      simp only [step, hrun]
      exact h
    | recorded gid n against =>
      cases hfail : failCandidate s.catalogue gid code message with
      | error e =>
        simp only [step, hrun, hfail]
        exact h.ends (.refl _) run
      | ok c =>
        simp only [step, hrun, hfail]
        exact h.ends (fail_spec hfail) run

/-- What a step replaces is what it saw exactly when it is undisturbed. -/
lemma replacesWhatItSaw_iff (call : Call) (h : Inv ws s) :
    ReplacesWhatItSaw ws s call ↔ Undisturbed ws s call := by
  cases call with
  | activate run tree now =>
    constructor
    · intro hsaw gid n against hrun g hg hid hws hstate
      subst hid hws
      obtain ⟨-, hparent⟩ := hsaw _ n against hrun _ (activateCandidate_of_candidate hg hstate)
      obtain ⟨⟨-, hle, r, hr, hrid, -, -, -, hbehind⟩, -⟩ := h.recorded run _ n against hrun
      obtain rfl : r = g := generation_ext hr hg hrid
      by_contra hne
      exact hbehind (by omega) ((hparent r hr rfl).trans h.pointer)
    · intro hun gid n against hrun c hact
      obtain ⟨g, hg, hid, hws, hstate, -⟩ := activateCandidate_ok hact
      have hn := hun gid n against hrun g hg hid hws hstate
      obtain ⟨⟨-, -, r, hr, hrid, -, -, hcurrent, -⟩, hagainst⟩ := h.recorded run gid n against hrun
      rw [h.pointer]
      refine ⟨hagainst hn.symm, fun x hx hxid => ?_⟩
      obtain rfl : x = r := generation_ext hx hr (hxid.trans hrid.symm)
      exact (hcurrent hn.symm).1
  | begin run now => exact Iff.rfl
  | facts run walked plans now => exact Iff.rfl
  | fail run code message => exact Iff.rfl

lemma nothingLost_iff (call : Call) (h : Inv ws s) :
    NothingLost env ws s call ↔ Undisturbed ws s call := by
  constructor
  · exact fun hlost => (replacesWhatItSaw_iff call h).mp hlost.1
  · intro hun
    have hinv : Inv ws (step env ws s call) := inv_step call h hun
    exact ⟨(replacesWhatItSaw_iff call h).mpr hun, hinv.pointer ▸ hinv.linked⟩

lemma inv_start (workspaceIds : List String) : Inv ws (.start workspaceIds) where
  pointer := Generations.activeGeneration?_registered workspaceIds ws
  linked := rfl
  highest _ hx := absurd hx Table.not_mem_empty
  begun _ _ _ hr := absurd hr (by simp [LineageState.start])
  recorded _ _ _ _ hr := absurd hr (by simp [LineageState.start])

end Lemmas

/-- **No activation is lost.**  In every interleaving of the transactions of any number of
reconciles, every activation replaces what its reconcile saw, and the parents of the active
generation are the generations that were ever active, exactly when no candidate is activated
after another one was since its reconcile began. -/
theorem nothingLost_iff_undisturbed (env : Environment) (workspaceIds : List String)
    (ws : String) (calls : List Call) :
    AllSteps (step env ws) (NothingLost env ws) (.start workspaceIds) calls ↔
      AllSteps (step env ws) (Undisturbed ws) (.start workspaceIds) calls :=
  allSteps_congr (I := Inv ws) (inv_start workspaceIds)
    (fun _ call h hcall => inv_step call h hcall) fun _ call h => nothingLost_iff call h

/-- Two reconciles begin, and both activate. -/
def overlapping : List Call :=
  [.begin 0 0, .begin 1 0, .facts 0 [] [] 0, .activate 0 none 0, .facts 1 [] [] 0,
    .activate 1 none 0]

/-- The parent of the second candidate is not the generation it replaces. -/
theorem overlapping_lost :
    ¬ AllSteps (step .plain "ws") (NothingLost .plain "ws") (.start ["ws"]) overlapping := by
  intro hall
  have hsaw : ReplacesWhatItSaw "ws" (run (step .plain "ws") (.start ["ws"]) overlapping.dropLast)
      (.activate 1 none 0) := (AllSteps.at_prefix overlapping.dropLast [] hall).1
  have hrecorded : (run (step .plain "ws") (.start ["ws"]) overlapping.dropLast).runs 1 =
      .recorded (generationId .plain "ws" 2) 0 (some (generationId .plain "ws" 1)) := by
    decide
  have hcandidate : ∃ g ∈ (run (step .plain "ws") (.start ["ws"])
      overlapping.dropLast).catalogue.indexGeneration.rows,
      g.generationId = generationId .plain "ws" 2 ∧ g.workspaceId = "ws" ∧
        g.state = .candidate ∧ g.parentGenerationId ≠ activeGeneration? (run (step .plain "ws")
          (.start ["ws"]) overlapping.dropLast).catalogue "ws" := by
    decide
  obtain ⟨g, hg, hid, hws, hstate, hparent⟩ := hcandidate
  have hact : activateCandidate _ g.workspaceId g.generationId none 0 = .ok _ :=
    activateCandidate_of_candidate hg hstate
  rw [hid, hws] at hact
  exact hparent ((hsaw _ 0 _ hrecorded _ hact).2 g hg hid)

end Lineage

end WorkspaceAtlas
