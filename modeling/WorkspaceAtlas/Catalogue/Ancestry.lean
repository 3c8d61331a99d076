/-
# Parents of generations

A generation names the committed generation that was the highest one of its workspace when its
candidate was begun.  Whatever the other writers do in between, that parent stays committed and
has a smaller sequence number, so the links from an active generation run through committed
generations of its workspace and come to an end.
-/
import Mathlib.Logic.Relation
import WorkspaceAtlas.Catalogue.GenerationRun

namespace WorkspaceAtlas

open Relational Transition

/-- A generation names another one as its parent. -/
def ParentLink (t : Table IndexGeneration) (a b : String) : Prop :=
  ∃ g ∈ t, g.generationId = a ∧ g.parentGenerationId = some b

namespace Generations

/-- A committed generation of a workspace with a smaller sequence number. -/
def CommittedBelow (t : Table IndexGeneration) (ws gid : String) (n : ℕ) : Prop :=
  ∃ g ∈ t, g.generationId = gid ∧ g.workspaceId = ws ∧ g.state = .committed ∧ g.sequenceNo < n

/-- Every parent is a committed generation of the workspace with a smaller sequence number. -/
def ParentsCommitted (t : Table IndexGeneration) : Prop :=
  ∀ g ∈ t, ∀ p, g.parentGenerationId = some p → CommittedBelow t g.workspaceId p g.sequenceNo

/-- What the steps of the writers keep about parents and pointers. -/
structure Ancestry (s : GenerationState) : Prop where
  parent : ParentsCommitted s.catalogue.indexGeneration
  active : ∀ w ∈ s.catalogue.workspace, ∀ gid, w.activeGenerationId = some gid →
    ∃ g ∈ s.catalogue.indexGeneration, g.generationId = gid ∧ g.workspaceId = w.workspaceId ∧
      g.state = .committed
  parentRead : ∀ writer ws p, s.writers writer = .parentRead ws (some p) →
    ∃ n, CommittedBelow s.catalogue.indexGeneration ws p n
  sequenceRead : ∀ writer ws p n, s.writers writer = .sequenceRead ws (some p) n →
    CommittedBelow s.catalogue.indexGeneration ws p n

section Lemmas

variable {H : Hasher} {s : GenerationState} {c c' : Catalogue} {ws gid : String} {n : ℕ}
  {g : IndexGeneration} {f : Table.Update IndexGeneration} {t t' : Table IndexGeneration}

lemma CommittedBelow.mono (h : CommittedBelow t ws gid n)
    (hkeep : ∀ g ∈ t, g.state = .committed → g ∈ t') : CommittedBelow t' ws gid n := by
  obtain ⟨g, hg, hid, hws, hst, hlt⟩ := h
  exact ⟨g, hkeep g hg hst, hid, hws, hst, hlt⟩

/-- The parent that is read is committed. -/
lemma committedBelow_candidateParent (h : candidateParent c ws = some gid) :
    ∃ n, CommittedBelow c.indexGeneration ws gid n := by
  obtain ⟨g, hg, rfl⟩ := Option.map_eq_some_iff.mp h
  obtain ⟨hmem, hcommitted, -⟩ := highestCommitted_eq_some.mp hg
  obtain ⟨hws, hst⟩ := isCommittedOf_iff.mp hcommitted
  exact ⟨g.sequenceNo + 1, g, hmem, rfl, hws, hst, Nat.lt_succ_self _⟩

/-- The number that is read after it is larger than that of the parent. -/
lemma CommittedBelow.maxSequence (h : CommittedBelow c.indexGeneration ws gid n) :
    CommittedBelow c.indexGeneration ws gid (maxSequence c ws + 1) := by
  obtain ⟨g, hg, hid, rfl, hst, -⟩ := h
  exact ⟨g, hg, hid, rfl, hst, Nat.lt_succ_of_le (le_maxSequence hg)⟩

lemma Ancestry.setWriter {writer : ℕ} {b : Beginning} (h : Ancestry s)
    (hread : ∀ ws p, b = .parentRead ws (some p) → ∃ n, CommittedBelow s.catalogue.indexGeneration ws p n)
    (hsequence : ∀ ws p n, b = .sequenceRead ws (some p) n →
      CommittedBelow s.catalogue.indexGeneration ws p n) :
    Ancestry (s.setWriter writer b) := by
  have hwriter : ∀ w, (s.setWriter writer b).writers w = if w = writer then b else s.writers w := by
    intro w
    by_cases hw : w = writer
    · subst hw
      simp [GenerationState.setWriter]
    · simp [GenerationState.setWriter, hw]
  refine ⟨h.parent, h.active, fun w ws p hw => ?_, fun w ws p n hw => ?_⟩
  · rw [hwriter] at hw
    split_ifs at hw
    · exact hread ws p hw
    · exact h.parentRead w ws p hw
  · rw [hwriter] at hw
    split_ifs at hw
    · exact hsequence ws p n hw
    · exact h.sequenceRead w ws p n hw

/-- A writer that has inserted or given up has read nothing. -/
lemma Ancestry.setIdle (h : Ancestry s) (writer : ℕ) : Ancestry (s.setWriter writer .idle) :=
  h.setWriter (fun _ _ hb => absurd hb (by simp)) fun _ _ _ hb => absurd hb (by simp)

/-- Candidates change, and the pointer may move to a committed generation. -/
lemma Ancestry.commit (h : Ancestry s)
    (hkeep : ∀ g ∈ s.catalogue.indexGeneration, g.state = .committed → g ∈ c'.indexGeneration)
    (hrows : ∀ g ∈ c'.indexGeneration, ∀ p, g.parentGenerationId = some p →
      CommittedBelow s.catalogue.indexGeneration g.workspaceId p g.sequenceNo)
    (hactive : ∀ w ∈ c'.workspace, ∀ gid, w.activeGenerationId = some gid →
      w ∈ s.catalogue.workspace ∨ ∃ g ∈ c'.indexGeneration, g.generationId = gid ∧
        g.workspaceId = w.workspaceId ∧ g.state = .committed) :
    Ancestry { s with catalogue := c' } where
  parent g hg p hp := (hrows g hg p hp).mono hkeep
  active w hw gid hgid := by
    rcases hactive w hw gid hgid with hw | hnew
    · obtain ⟨g, hg, hid, hws, hst⟩ := h.active w hw gid hgid
      exact ⟨g, hkeep g hg hst, hid, hws, hst⟩
    · exact hnew
  parentRead w ws p hw := (h.parentRead w ws p hw).imp fun _ hn => hn.mono hkeep
  sequenceRead w ws p n hw := (h.sequenceRead w ws p n hw).mono hkeep

/-- A candidate that is updated keeps its parent and its number. -/
lemma Ancestry.parent_update (h : Ancestry s) (hk : KeepsNumber f)
    (hparent : ∀ g, (f g).parentGenerationId = g.parentGenerationId) :
    ∀ g ∈ s.catalogue.indexGeneration.update (isCandidate gid) f, ∀ p,
      g.parentGenerationId = some p →
        CommittedBelow s.catalogue.indexGeneration g.workspaceId p g.sequenceNo := by
  intro g hg p hp
  obtain ⟨y, hy, rfl⟩ := Table.mem_update.mp hg
  split
  next hcandidate =>
    rw [if_pos hcandidate, hparent] at hp
    rw [hk.workspaceId, hk.sequenceNo]
    exact h.parent y hy p hp
  next hcandidate =>
    rw [if_neg hcandidate] at hp
    exact h.parent y hy p hp

lemma Ancestry.leave (h : Ancestry s) (hk : KeepsNumber f)
    (hparent : ∀ g, (f g).parentGenerationId = g.parentGenerationId) :
    Ancestry (s.commit (leaveCandidate s.catalogue gid f)) := by
  cases hleave : leaveCandidate s.catalogue gid f with
  | error e => exact h
  | ok c' =>
    obtain ⟨-, rfl⟩ := leaveCandidate_ok hleave
    exact h.commit (fun g hg hst => mem_update_of_settled hg (by simp [hst]))
      (h.parent_update hk hparent) fun w hw _ _ => Or.inl hw

lemma Ancestry.activate {tree : Option String} {now : Timestamp} (h : Ancestry s)
    (hg : g ∈ s.catalogue.indexGeneration) (hst : g.state = .candidate) :
    Ancestry { s with catalogue := activated s.catalogue g tree now } := by
  refine h.commit (fun x hx hxst => mem_update_of_settled hx (by simp [hxst]))
    (h.parent_update (keepsNumber_markCommitted tree now) fun _ => rfl) fun w hw gid hgid => ?_
  obtain ⟨w₀, hw₀, rfl⟩ := Table.mem_update.mp hw
  split at hgid
  next hws =>
    rw [if_pos hws]
    refine Or.inr ⟨markCommitted tree now g, ?_, Option.some.inj hgid, ?_, rfl⟩
    · exact Table.mem_update_of_mem hg (by simp [isCandidate, hst])
    · exact (by simpa using hws : w₀.workspaceId = g.workspaceId).symm
  next hws =>
    rw [if_neg hws]
    exact Or.inl hw₀

/-- **One step** keeps what holds about parents and pointers. -/
lemma Ancestry.step (h : Ancestry s) (call : Call) : Ancestry (step H s call) := by
  cases call with
  | readParent writer ws =>
    refine h.setWriter (fun ws' p hp => ?_) (by simp)
    obtain ⟨rfl, hparent⟩ := Beginning.parentRead.inj hp
    exact committedBelow_candidateParent hparent
  | readSequence writer =>
    simp only [Generations.step]
    split
    next ws parent hw =>
      refine h.setWriter (by simp) fun ws' p n hp => ?_
      obtain ⟨rfl, rfl, rfl⟩ := Beginning.sequenceRead.inj hp
      obtain ⟨n, hn⟩ := h.parentRead writer ws p hw
      exact hn.maxSequence
    · exact h
  | insertCandidate writer trigger providerSet schema now =>
    simp only [Generations.step]
    split
    next ws parent seq hw =>
      cases hins : insertCandidate H s.catalogue ws parent seq trigger providerSet schema now with
      | error e => exact h.setIdle writer
      | ok res =>
        obtain ⟨c', record⟩ := res
        obtain ⟨-, -, generations, hrow, rfl⟩ := insertCandidate_ok hins
        refine Ancestry.setIdle (s := { s with catalogue := { s.catalogue with
          indexGeneration := generations } }) ?_ writer
        refine h.commit (fun g hg _ => (Table.mem_of_insert? hrow).mpr (Or.inl hg))
          (fun g hg p hp => ?_) fun w hw' _ _ => Or.inl hw'
        rcases (Table.mem_of_insert? hrow).mp hg with hg | rfl
        · exact h.parent g hg p hp
        · obtain rfl : parent = some p := hp
          exact h.sequenceRead writer ws p seq hw
    · exact h
  | activate ws gid tree now =>
    simp only [Generations.step]
    cases hact : activateCandidate s.catalogue ws gid tree now with
    | error e => exact h
    | ok c' =>
      obtain ⟨g, hg, rfl, rfl, hst, rfl⟩ := activateCandidate_ok hact
      exact h.activate hg hst
  | fail gid code message => exact h.leave (keepsNumber_markFailed code message) fun _ => rfl
  | abandon gid => exact h.leave keepsNumber_markAbandoned fun _ => rfl

lemma ancestry_start (workspaceIds : List String) :
    Ancestry (GenerationState.start workspaceIds) where
  parent _ hg := absurd hg Table.not_mem_empty
  active w hw gid hgid := by
    rw [registered_workspace workspaceIds w hw] at hgid
    exact absurd hgid (by simp)
  parentRead _ _ _ hw := absurd hw (by simp [GenerationState.start])
  sequenceRead _ _ _ _ hw := absurd hw (by simp [GenerationState.start])

/-- **Parents over runs**: in every state of every run the parent of a generation is a committed
one of its workspace with a smaller sequence number. -/
theorem ancestry_run (H : Hasher) (workspaceIds : List String) (calls : List Call) :
    Ancestry (run (step H) (GenerationState.start workspaceIds) calls) :=
  run_invariant (ancestry_start workspaceIds) fun _ call h => h.step call

/-- The links from a generation lead to committed ones of its workspace, and downwards. -/
lemma ParentsCommitted.of_links (h : ParentsCommitted t) (hg : g ∈ t)
    (hlinks : Relation.TransGen (ParentLink t) g.generationId gid) :
    CommittedBelow t g.workspaceId gid g.sequenceNo := by
  induction hlinks with
  | single hlink =>
    obtain ⟨x, hx, hid, hparent⟩ := hlink
    obtain rfl : x = g := Table.eq_of_clash hx hg (Or.inl hid)
    exact h x hx _ hparent
  | tail _ hlink ih =>
    obtain ⟨y, hy, hyid, hyws, -, hlt⟩ := ih
    obtain ⟨x, hx, hid, hparent⟩ := hlink
    obtain rfl : x = y := Table.eq_of_clash hx hy (Or.inl (hid.trans hyid.symm))
    obtain ⟨z, hz, hzid, hzws, hst, hlt'⟩ := h x hx _ hparent
    exact ⟨z, hz, hzid, hzws.trans hyws, hst, hlt'.trans hlt⟩

end Lemmas

end Generations

end WorkspaceAtlas
