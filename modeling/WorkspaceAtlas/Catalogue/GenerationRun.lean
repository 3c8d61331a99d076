/-
# Generations over runs

Any number of writers begin, activate, fail and abandon candidates of any number of
workspaces, in any order.  A writer that begins a candidate reads the parent and the highest
sequence number before it inserts, and the steps of the other writers may fall in between.

Sequence numbers, settled states and the active pointer are safe in every run.  The active
generation is the committed one with the highest sequence number exactly as long as every
activation moves the pointer forward.
-/
import WorkspaceAtlas.Catalogue.Generation
import WorkspaceAtlas.Transition.Iteration

namespace WorkspaceAtlas

open Relational Transition

namespace Generations

/-! ## The system -/

/-- How far a writer's `begin_candidate` has got. -/
inductive Beginning where
  | idle
  | parentRead (workspaceId : String) (parent : Option String)
  | sequenceRead (workspaceId : String) (parent : Option String) (sequenceNo : ℕ)
  deriving DecidableEq

/-- One step of some writer. -/
inductive Call where
  | readParent (writer : ℕ) (workspaceId : String)
  | readSequence (writer : ℕ)
  | insertCandidate (writer : ℕ) (triggerKind : TriggerKind)
      (providerSetHash schemaVersion : String) (now : Timestamp)
  | activate (workspaceId generationId : String) (sourceTreeHash : Option String)
      (now : Timestamp)
  | fail (generationId failureCode failureMessage : String)
  | abandon (generationId : String)
  deriving DecidableEq

/-- The catalogue and the writers. -/
structure GenerationState where
  catalogue : Catalogue
  writers : ℕ → Beginning

/-- Some registered workspaces, and nobody has begun anything. -/
def GenerationState.start (workspaceIds : List String) : GenerationState :=
  ⟨Catalogue.registered workspaceIds, fun _ => .idle⟩

/-- A call that returns `Err` leaves the catalogue as it was. -/
def GenerationState.commit (s : GenerationState) (r : Except AtlasError Catalogue) :
    GenerationState :=
  match r with
  | .ok c => { s with catalogue := c }
  | .error _ => s

/-- A writer gets on with its `begin_candidate`. -/
def GenerationState.setWriter (s : GenerationState) (writer : ℕ) (b : Beginning) :
    GenerationState :=
  { s with writers := Function.update s.writers writer b }

/-- One step. -/
def step (H : Hasher) (s : GenerationState) : Call → GenerationState
  | .readParent writer ws =>
    s.setWriter writer (.parentRead ws (candidateParent s.catalogue ws))
  | .readSequence writer =>
    match s.writers writer with
    | .parentRead ws parent =>
      s.setWriter writer (.sequenceRead ws parent (maxSequence s.catalogue ws + 1))
    | _ => s
  | .insertCandidate writer trigger providerSet schema now =>
    match s.writers writer with
    | .sequenceRead ws parent seq =>
      (s.commit ((insertCandidate H s.catalogue ws parent seq trigger providerSet schema
        now).map Prod.fst)).setWriter writer .idle
    | _ => s
  | .activate ws gid tree now => s.commit (activateCandidate s.catalogue ws gid tree now)
  | .fail gid code message => s.commit (failCandidate s.catalogue gid code message)
  | .abandon gid => s.commit (abandonCandidate s.catalogue gid)

/-! ## The laws -/

/-- What holds in every state. -/
structure Law (c : Catalogue) : Prop where
  /-- The pointer is null or names a committed generation of its workspace. -/
  active_committed : ∀ w ∈ c.workspace, ∀ gid, w.activeGenerationId = some gid →
    ∃ g ∈ c.indexGeneration, g.generationId = gid ∧ g.workspaceId = w.workspaceId ∧
      g.state = .committed
  /-- Sequence numbers are distinct within a workspace. -/
  sequence_distinct : ∀ g₁ ∈ c.indexGeneration, ∀ g₂ ∈ c.indexGeneration,
    g₁.workspaceId = g₂.workspaceId → g₁.sequenceNo = g₂.sequenceNo → g₁ = g₂
  /-- The active generation is the committed one with the highest sequence number, which is
  the parent that `begin_candidate` records. -/
  active_highest : ∀ w ∈ c.workspace,
    w.activeGenerationId = candidateParent c w.workspaceId

/-- What holds of every step. -/
structure StepLaw (call : Call) (c c' : Catalogue) : Prop where
  /-- A generation that has left `candidate` stays as it is. -/
  settled : ∀ g ∈ c.indexGeneration, g.state ≠ .candidate → g ∈ c'.indexGeneration
  /-- A new generation has a larger sequence number than all earlier ones. -/
  newest : ∀ g' ∈ c'.indexGeneration,
    (∀ g ∈ c.indexGeneration, g.generationId ≠ g'.generationId) →
    ∀ g ∈ c.indexGeneration, g.workspaceId = g'.workspaceId → g.sequenceNo < g'.sequenceNo
  /-- Only an activation moves a pointer. -/
  pointer : (∀ ws gid tree now, call ≠ .activate ws gid tree now) →
    c'.workspace = c.workspace
  /-- A refused activation changes nothing. -/
  refused : ∀ ws gid tree now e, call = .activate ws gid tree now →
    activateCandidate c ws gid tree now = .error e → c' = c

/-- An activation that is not refused activates a candidate with a larger sequence number
than the active generation has. -/
def ActivatesNewer (s : GenerationState) : Call → Prop
  | .activate ws gid _ _ =>
    ∀ g ∈ s.catalogue.indexGeneration, g.generationId = gid → g.workspaceId = ws →
      g.state = .candidate →
      ∀ w ∈ s.catalogue.workspace, w.workspaceId = ws →
      ∀ a ∈ s.catalogue.indexGeneration, w.activeGenerationId = some a.generationId →
      a.sequenceNo < g.sequenceNo
  | _ => True

/-! ## The invariant -/

/-- The sequence numbers of a workspace are an initial segment of `1, 2, ..`. -/
structure Dense (c : Catalogue) : Prop where
  pos : ∀ g ∈ c.indexGeneration, 1 ≤ g.sequenceNo
  filled : ∀ g ∈ c.indexGeneration, ∀ n, 1 ≤ n → n ≤ g.sequenceNo →
    ∃ g' ∈ c.indexGeneration, g'.workspaceId = g.workspaceId ∧ g'.sequenceNo = n

/-- A sequence number that was the next one when it was read. -/
def WasNext (c : Catalogue) (ws : String) (n : ℕ) : Prop :=
  n = 1 ∨ 1 < n ∧ ∃ g ∈ c.indexGeneration, g.workspaceId = ws ∧ g.sequenceNo = n - 1

/-- What the steps of the writers keep. -/
structure Inv (s : GenerationState) : Prop where
  dense : Dense s.catalogue
  wasNext : ∀ writer ws parent n, s.writers writer = .sequenceRead ws parent n →
    WasNext s.catalogue ws n

section Lemmas

variable {H : Hasher} {s : GenerationState} {c c' : Catalogue} {ws gid : String} {n : ℕ}
  {g : IndexGeneration} {f : Table.Update IndexGeneration}

lemma distinct_sequence (c : Catalogue) : ∀ g₁ ∈ c.indexGeneration,
    ∀ g₂ ∈ c.indexGeneration, g₁.workspaceId = g₂.workspaceId →
      g₁.sequenceNo = g₂.sequenceNo → g₁ = g₂ :=
  fun _ h₁ _ h₂ hws hseq => Table.eq_of_clash h₁ h₂ (Or.inr ⟨hws, hseq⟩)

lemma isCommittedOf_iff :
    isCommittedOf ws g = true ↔ g.workspaceId = ws ∧ g.state = .committed := by
  simp [isCommittedOf]

lemma highestCommitted_eq_some :
    highestCommitted c ws = some g ↔ g ∈ c.indexGeneration ∧ isCommittedOf ws g = true ∧
      ∀ x ∈ c.indexGeneration, isCommittedOf ws x = true → x.sequenceNo ≤ g.sequenceNo := by
  refine Table.greatest?_eq_some_iff ?_
  intro x hx y hy hpx hpy hseq
  exact distinct_sequence c x hx y hy
    ((isCommittedOf_iff.mp hpx).1.trans (isCommittedOf_iff.mp hpy).1.symm) hseq

lemma highestCommitted_eq_none :
    highestCommitted c ws = none ↔ ∀ x ∈ c.indexGeneration, isCommittedOf ws x = false :=
  Table.greatest?_eq_none

/-- The parent depends on the committed generations of the workspace only. -/
lemma candidateParent_congr (h : ∀ x, isCommittedOf ws x = true →
    (x ∈ c'.indexGeneration ↔ x ∈ c.indexGeneration)) :
    candidateParent c' ws = candidateParent c ws := by
  unfold candidateParent
  congr 1
  ext g
  rw [highestCommitted_eq_some, highestCommitted_eq_some]
  constructor
  · rintro ⟨hg, hp, hle⟩
    exact ⟨(h g hp).mp hg, hp, fun x hx hpx => hle x ((h x hpx).mpr hx) hpx⟩
  · rintro ⟨hg, hp, hle⟩
    exact ⟨(h g hp).mpr hg, hp, fun x hx hpx => hle x ((h x hpx).mp hx) hpx⟩

lemma candidateParent_eq_some (hg : g ∈ c.indexGeneration) (hp : isCommittedOf ws g = true)
    (hle : ∀ x ∈ c.indexGeneration, isCommittedOf ws x = true → x.sequenceNo ≤ g.sequenceNo) :
    candidateParent c ws = some g.generationId := by
  rw [candidateParent, highestCommitted_eq_some.mpr ⟨hg, hp, hle⟩, Option.map_some]

/-- A number that was the next one and is not taken is the next one. -/
lemma Dense.lt_of_wasNext (hd : Dense c) (hn : WasNext c ws n)
    (hfree : ∀ x ∈ c.indexGeneration, x.workspaceId = ws → x.sequenceNo ≠ n)
    (hg : g ∈ c.indexGeneration) (hws : g.workspaceId = ws) : g.sequenceNo < n := by
  by_contra hle
  have hn1 : 1 ≤ n := by
    rcases hn with rfl | ⟨hlt, -⟩ <;> omega
  obtain ⟨x, hx, hxws, hxn⟩ := hd.filled g hg n hn1 (by omega)
  exact hfree x hx (hxws.trans hws) hxn

lemma wasNext_maxSequence (hd : Dense c) : WasNext c ws (maxSequence c ws + 1) := by
  unfold maxSequence
  cases hmax : c.indexGeneration.greatest? (fun r => r.workspaceId = ws)
      IndexGeneration.sequenceNo with
  | none => exact Or.inl rfl
  | some m =>
    obtain ⟨hm, hws⟩ := Table.mem_of_greatest? hmax
    have hpos := hd.pos m hm
    refine Or.inr ⟨?_, m, hm, by simpa using hws, ?_⟩
    · simp only [Option.map_some, Option.getD_some]
      omega
    · simp

lemma WasNext.mono (hn : WasNext c ws n)
    (hmono : ∀ x ∈ c.indexGeneration, ∃ x' ∈ c'.indexGeneration,
      x'.workspaceId = x.workspaceId ∧ x'.sequenceNo = x.sequenceNo) : WasNext c' ws n := by
  rcases hn with rfl | ⟨hlt, x, hx, hws, hseq⟩
  · exact Or.inl rfl
  · obtain ⟨x', hx', hws', hseq'⟩ := hmono x hx
    exact Or.inr ⟨hlt, x', hx', hws'.trans hws, hseq'.trans hseq⟩

/-! ### Changes of candidates -/

lemma mem_update_isCandidate (hk : KeepsNumber f) {x : IndexGeneration}
    (hx : x ∈ c.indexGeneration.update (isCandidate gid) f) :
    ∃ y ∈ c.indexGeneration, x.generationId = y.generationId ∧
      x.workspaceId = y.workspaceId ∧ x.sequenceNo = y.sequenceNo := by
  obtain ⟨y, hy, rfl⟩ := Table.mem_update.mp hx
  refine ⟨y, hy, ?_⟩
  split
  · exact ⟨hk.generationId y, hk.workspaceId y, hk.sequenceNo y⟩
  · exact ⟨rfl, rfl, rfl⟩

lemma exists_mem_update (gid : String) (hk : KeepsNumber f) (hg : g ∈ c.indexGeneration) :
    ∃ x ∈ c.indexGeneration.update (isCandidate gid) f,
      x.workspaceId = g.workspaceId ∧ x.sequenceNo = g.sequenceNo := by
  refine ⟨_, Table.mem_update.mpr ⟨g, hg, rfl⟩, ?_⟩
  split
  · exact ⟨hk.workspaceId g, hk.sequenceNo g⟩
  · exact ⟨rfl, rfl⟩

lemma mem_update_of_settled (hg : g ∈ c.indexGeneration) (hst : g.state ≠ .candidate) :
    g ∈ c.indexGeneration.update (isCandidate gid) f :=
  Table.mem_update_of_not hg (by simp [isCandidate, hst])

lemma Dense.update (hd : Dense c) (hk : KeepsNumber f)
    (hgen : c'.indexGeneration = c.indexGeneration.update (isCandidate gid) f) :
    Dense c' := by
  constructor
  · intro x hx
    rw [hgen] at hx
    obtain ⟨y, hy, -, -, hseq⟩ := mem_update_isCandidate hk hx
    exact hseq ▸ hd.pos y hy
  · intro x hx n h1 hn
    rw [hgen] at hx ⊢
    obtain ⟨y, hy, -, hws, hseq⟩ := mem_update_isCandidate hk hx
    obtain ⟨z, hz, hzws, hzn⟩ := hd.filled y hy n h1 (hseq ▸ hn)
    obtain ⟨z', hz', hz'ws, hz'n⟩ := exists_mem_update gid hk hz
    exact ⟨z', hz', by rw [hz'ws, hzws, hws], hz'n.trans hzn⟩

lemma stepLaw_update {call : Call} (hk : KeepsNumber f)
    (hgen : c'.indexGeneration = c.indexGeneration.update (isCandidate gid) f)
    (hpointer : (∀ ws gid tree now, call ≠ .activate ws gid tree now) →
      c'.workspace = c.workspace)
    (hrefused : ∀ ws gid tree now e, call = .activate ws gid tree now →
      activateCandidate c ws gid tree now = .error e → c' = c) : StepLaw call c c' where
  settled g hg hst := hgen ▸ mem_update_of_settled hg hst
  newest x hx hnew := by
    rw [hgen] at hx
    obtain ⟨y, hy, hid, -⟩ := mem_update_isCandidate hk hx
    exact absurd hid.symm (hnew y hy)
  pointer := hpointer
  refused := hrefused

lemma stepLaw_refl (call : Call) (c : Catalogue) : StepLaw call c c where
  settled _ hg _ := hg
  newest x hx hnew := absurd rfl (hnew x hx)
  pointer _ := rfl
  refused _ _ _ _ _ _ _ := rfl

/-! ### The steps -/

/-- The committed generations are the same, and so is every pointer. -/
lemma Law.congr (hl : Law c) (hws : c'.workspace = c.workspace)
    (hcommitted : ∀ x, x.state = .committed →
      (x ∈ c'.indexGeneration ↔ x ∈ c.indexGeneration)) : Law c' where
  active_committed w hw gid hgid := by
    rw [hws] at hw
    obtain ⟨g, hg, hid, hgws, hst⟩ := hl.active_committed w hw gid hgid
    exact ⟨g, (hcommitted g hst).mpr hg, hid, hgws, hst⟩
  sequence_distinct := distinct_sequence c'
  active_highest w hw := by
    rw [hws] at hw
    rw [hl.active_highest w hw]
    exact (candidateParent_congr fun x hx => hcommitted x (isCommittedOf_iff.mp hx).2).symm

/-- A candidate that fails or is abandoned. -/
lemma Law.leave (hl : Law c) (hst : ∀ g, (f g).state ≠ .committed) :
    Law { c with indexGeneration := c.indexGeneration.update (isCandidate gid) f } := by
  refine hl.congr rfl fun x hx => ⟨fun hmem => ?_, fun hmem => ?_⟩
  · obtain ⟨y, hy, hxy⟩ := Table.mem_update.mp hmem
    split at hxy
    · exact absurd (hxy ▸ hx) (hst y)
    · exact hxy ▸ hy
  · exact mem_update_of_settled hmem (by simp [hx])

lemma Law.insertCandidate {generations : Table IndexGeneration} {row : IndexGeneration}
    (hl : Law c) (hins : c.indexGeneration.insert? row = some generations)
    (hrow : row.state = .candidate) : Law { c with indexGeneration := generations } := by
  refine hl.congr rfl fun x hx => ?_
  rw [Table.mem_of_insert? hins]
  refine or_iff_left ?_
  rintro rfl
  exact absurd (hx.symm.trans hrow) (by simp)

/-- The free number that a candidate takes is the next one. -/
lemma lt_of_insert? {generations : Table IndexGeneration} {row : IndexGeneration}
    (hd : Dense c) (hn : WasNext c row.workspaceId row.sequenceNo)
    (hins : c.indexGeneration.insert? row = some generations) :
    ∀ g ∈ c.indexGeneration, g.workspaceId = row.workspaceId →
      g.sequenceNo < row.sequenceNo := by
  intro g hg hws
  refine hd.lt_of_wasNext hn (fun x hx hxws hseq => ?_) hg hws
  exact Table.not_clash_of_insert? hins x hx (Or.inr ⟨hxws, hseq⟩)

lemma Dense.insert? {generations : Table IndexGeneration} {row : IndexGeneration}
    (hd : Dense c) (hn : WasNext c row.workspaceId row.sequenceNo)
    (hins : c.indexGeneration.insert? row = some generations) :
    Dense { c with indexGeneration := generations } := by
  have hmem := fun x => Table.mem_of_insert? (x := x) hins
  constructor
  · intro g hg
    rcases (hmem g).mp hg with hg | rfl
    · exact hd.pos g hg
    · rcases hn with h1 | ⟨h1, -⟩ <;> omega
  · intro g hg n h1 hle
    rcases (hmem g).mp hg with hg | rfl
    · obtain ⟨x, hx, hws, hseq⟩ := hd.filled g hg n h1 hle
      exact ⟨x, (hmem x).mpr (Or.inl hx), hws, hseq⟩
    · rcases hle.lt_or_eq with hlt | rfl
      · -- below the new number: the candidate that made it the next one fills the rest
        rcases hn with hone | ⟨-, m, hm, hmws, hmseq⟩
        · omega
        · obtain ⟨x, hx, hws, hseq⟩ := hd.filled m hm n h1 (by omega)
          exact ⟨x, (hmem x).mpr (Or.inl hx), hws.trans hmws, hseq⟩
      · exact ⟨g, hg, rfl, rfl⟩

/-- After an activation the laws hold exactly when it moved the pointer forward. -/
lemma law_activated_iff {tree : Option String} {now : Timestamp} (hl : Law c)
    (hg : g ∈ c.indexGeneration) (hst : g.state = .candidate) :
    Law (activated c g tree now) ↔
      ∀ w ∈ c.workspace, w.workspaceId = g.workspaceId → ∀ a ∈ c.indexGeneration,
        w.activeGenerationId = some a.generationId → a.sequenceNo < g.sequenceNo := by
  have hmarked : markCommitted tree now g ∈ (activated c g tree now).indexGeneration :=
    Table.mem_update_of_mem hg (by simp [isCandidate, hst])
  have hold : ∀ a ∈ c.indexGeneration, a.state = .committed →
      a ∈ (activated c g tree now).indexGeneration :=
    fun a ha hast => mem_update_of_settled ha (by simp [hast])
  have hnew : ∀ x ∈ (activated c g tree now).indexGeneration, x.state = .committed →
      x = markCommitted tree now g ∨ x ∈ c.indexGeneration := by
    intro x hx hxst
    obtain ⟨y, hy, rfl⟩ := Table.mem_update.mp hx
    split
    next hcand =>
      simp only [isCandidate, Bool.decide_and, Bool.and_eq_true, decide_eq_true_eq] at hcand
      rw [generation_ext hy hg hcand.1]
      exact Or.inl rfl
    next => exact Or.inr hy
  constructor
  · intro hl' w hw hws a ha hactive
    obtain ⟨b, hb, hid, hbws, hbst⟩ := hl.active_committed w hw _ hactive
    obtain rfl := generation_ext hb ha hid
    have hw' := hl'.active_highest _ (Table.mem_update_of_mem hw
      (decide_eq_true hws))
    -- the new pointer names the highest committed generation, which `b` is not above
    obtain ⟨m, hm, hmid⟩ := Option.map_eq_some_iff.mp hw'.symm
    obtain ⟨hmem, hmc, hmax⟩ := highestCommitted_eq_some.mp hm
    obtain rfl : m = markCommitted tree now g :=
      generation_ext hmem hmarked hmid
    have hle := hmax b (hold b hb hbst) (isCommittedOf_iff.mpr ⟨hbws, hbst⟩)
    refine lt_of_le_of_ne hle fun hseq => ?_
    have hbg := distinct_sequence c b hb g hg (hbws.trans hws) hseq
    exact absurd (hbst.symm.trans (hbg ▸ hst)) (by simp)
  · intro hnewer
    refine ⟨?_, distinct_sequence _, ?_⟩
    · intro w hw gid hgid
      obtain ⟨w₀, hw₀, rfl⟩ := Table.mem_update.mp hw
      split at hgid
      next hws =>
        have hgid : g.generationId = gid := Option.some.inj hgid
        rw [if_pos hws]
        exact ⟨_, hmarked, hgid, (by simpa using hws : w₀.workspaceId = g.workspaceId).symm,
          rfl⟩
      next hws =>
        rw [if_neg hws]
        obtain ⟨a, ha, haid, haws, hast⟩ := hl.active_committed w₀ hw₀ gid hgid
        exact ⟨a, hold a ha hast, haid, haws, hast⟩
    · intro w hw
      obtain ⟨w₀, hw₀, rfl⟩ := Table.mem_update.mp hw
      split
      next hws =>
        have hws : w₀.workspaceId = g.workspaceId := by simpa using hws
        refine (candidateParent_eq_some hmarked
          (isCommittedOf_iff.mpr ⟨hws.symm, rfl⟩) fun x hx hxc => ?_).symm
        obtain ⟨hxws, hxst⟩ := isCommittedOf_iff.mp hxc
        rcases hnew x hx hxst with rfl | hx
        · exact le_rfl
        · -- every other committed generation is at most the old active one
          have hpar := hl.active_highest w₀ hw₀
          cases hh : highestCommitted c w₀.workspaceId with
          | none =>
            have := highestCommitted_eq_none.mp hh x hx
            exact absurd this (by simp [isCommittedOf_iff.mpr ⟨hxws, hxst⟩])
          | some a =>
            obtain ⟨ha, -, hmax⟩ := highestCommitted_eq_some.mp hh
            rw [candidateParent, hh, Option.map_some] at hpar
            have hlt := hnewer w₀ hw₀ hws a ha hpar
            exact (hmax x hx (isCommittedOf_iff.mpr ⟨hxws, hxst⟩)).trans hlt.le
      next hws =>
        have hws : w₀.workspaceId ≠ g.workspaceId := by simpa using hws
        rw [hl.active_highest w₀ hw₀]
        refine (candidateParent_congr fun x hx => ?_).symm
        obtain ⟨hxws, hxst⟩ := isCommittedOf_iff.mp hx
        refine ⟨fun hmem => ?_, fun hmem => hold x hmem hxst⟩
        rcases hnew x hmem hxst with rfl | hmem
        · exact absurd hxws.symm hws
        · exact hmem

end Lemmas

/-! ## Steps and runs -/

section Steps

variable {H : Hasher} {s : GenerationState} {r : Except AtlasError Catalogue}

/-- The condition of a call on the state it starts in and the laws of the step it makes. -/
def Lawful (H : Hasher) (s : GenerationState) (call : Call) : Prop :=
  StepLaw call s.catalogue (step H s call).catalogue ∧ Law (step H s call).catalogue

lemma Inv.setWriter {writer : ℕ} {b : Beginning} (hi : Inv s)
    (hb : ∀ ws parent n, b = .sequenceRead ws parent n → WasNext s.catalogue ws n) :
    Inv (s.setWriter writer b) := by
  refine ⟨hi.dense, fun w ws parent n hw => ?_⟩
  by_cases hww : w = writer
  · subst hww
    exact hb ws parent n (by simpa [GenerationState.setWriter] using hw)
  · exact hi.wasNext w ws parent n (by simpa [GenerationState.setWriter, hww] using hw)

/-- A writer that has inserted or given up is idle again. -/
lemma Inv.commit {c' : Catalogue} (hi : Inv s) (hd : Dense c')
    (hmono : ∀ x ∈ s.catalogue.indexGeneration, ∃ x' ∈ c'.indexGeneration,
      x'.workspaceId = x.workspaceId ∧ x'.sequenceNo = x.sequenceNo) :
    Inv { s with catalogue := c' } :=
  ⟨hd, fun w ws parent n hw => (hi.wasNext w ws parent n hw).mono hmono⟩

/-- What a call has to meet to keep the laws, and what it keeps in any case. -/
structure StepSpec (H : Hasher) (s : GenerationState) (call : Call) : Prop where
  inv : Inv (step H s call)
  lawful_iff : Lawful H s call ↔ ActivatesNewer s call

lemma step_readParent (hi : Inv s) (hl : Law s.catalogue) (writer : ℕ) (ws : String) :
    StepSpec H s (.readParent writer ws) :=
  ⟨hi.setWriter (by simp), iff_of_true ⟨stepLaw_refl _ _, hl⟩ trivial⟩

lemma step_readSequence (hi : Inv s) (hl : Law s.catalogue) (writer : ℕ) :
    StepSpec H s (.readSequence writer) := by
  constructor
  · simp only [step]
    split
    next ws parent _ =>
      refine hi.setWriter ?_
      simp only [Beginning.sequenceRead.injEq]
      rintro _ _ _ ⟨rfl, -, rfl⟩
      exact wasNext_maxSequence hi.dense
    · exact hi
  · have hsame : (step H s (.readSequence writer)).catalogue = s.catalogue := by
      simp only [step]
      split <;> rfl
    rw [Lawful, hsame]
    exact iff_of_true ⟨stepLaw_refl _ _, hl⟩ trivial

lemma step_insertCandidate (hi : Inv s) (hl : Law s.catalogue) (writer : ℕ)
    (trigger : TriggerKind) (providerSet schema : String) (now : Timestamp) :
    StepSpec H s (.insertCandidate writer trigger providerSet schema now) := by
  suffices hboth : Inv (step H s (.insertCandidate writer trigger providerSet schema now)) ∧
      Lawful H s (.insertCandidate writer trigger providerSet schema now) from
    ⟨hboth.1, iff_of_true hboth.2 trivial⟩
  unfold Lawful
  simp only [step]
  split
  next ws parent seq hw =>
    cases hins : insertCandidate H s.catalogue ws parent seq trigger providerSet schema now with
    | error e => exact ⟨hi.setWriter (by simp), stepLaw_refl _ _, hl⟩
    | ok res =>
      obtain ⟨c', record⟩ := res
      obtain ⟨-, -, generations, hrow, rfl⟩ := insertCandidate_ok hins
      have hnext : WasNext s.catalogue ws seq := hi.wasNext writer ws parent seq hw
      have hmem := fun x => Table.mem_of_insert? (x := x) hrow
      refine ⟨Inv.setWriter (hi.commit (hi.dense.insert? hnext hrow) fun x hx =>
        ⟨x, (hmem x).mpr (Or.inl hx), rfl, rfl⟩) (by simp), ?_, hl.insertCandidate hrow rfl⟩
      refine ⟨fun g hg _ => (hmem g).mpr (Or.inl hg), fun x hx hnew => ?_, fun _ => rfl,
        by simp⟩
      rcases (hmem x).mp hx with hx | rfl
      · exact absurd rfl (hnew x hx)
      · exact lt_of_insert? hi.dense hnext hrow
  · exact ⟨hi, stepLaw_refl _ _, hl⟩

/-- `fail_candidate` and `abandon_candidate`. -/
lemma step_leave {call : Call} {gid : String} {f : Table.Update IndexGeneration} (hi : Inv s)
    (hl : Law s.catalogue) (hcall : ∀ ws gid tree now, call ≠ .activate ws gid tree now)
    (hstep : step H s call = s.commit (leaveCandidate s.catalogue gid f))
    (hk : KeepsNumber f) (hst : ∀ g, (f g).state ≠ .committed) : StepSpec H s call := by
  suffices hboth : Inv (step H s call) ∧ Lawful H s call by
    refine ⟨hboth.1, iff_of_true hboth.2 ?_⟩
    cases call with
    | activate ws gid tree now => exact absurd rfl (hcall ws gid tree now)
    | _ => trivial
  unfold Lawful
  rw [hstep]
  cases hleave : leaveCandidate s.catalogue gid f with
  | error e => exact ⟨hi, stepLaw_refl _ _, hl⟩
  | ok c' =>
    obtain ⟨-, rfl⟩ := leaveCandidate_ok hleave
    exact ⟨hi.commit (hi.dense.update hk rfl) fun x hx => exists_mem_update gid hk hx,
      stepLaw_update hk rfl (fun _ => rfl) fun ws gid tree now e hact =>
        absurd hact (hcall ws gid tree now),
      hl.leave hst⟩

lemma step_activate (hi : Inv s) (hl : Law s.catalogue) (ws gid : String)
    (tree : Option String) (now : Timestamp) :
    StepSpec H s (.activate ws gid tree now) := by
  cases hact : activateCandidate s.catalogue ws gid tree now with
  | error e =>
    have hsame : step H s (.activate ws gid tree now) = s := by
      simp only [step, hact, GenerationState.commit]
    refine ⟨by rw [hsame]; exact hi, iff_of_true ?_ ?_⟩
    · rw [Lawful, hsame]
      exact ⟨stepLaw_refl _ _, hl⟩
    · -- a refused activation has no candidate to compare
      rintro g hg rfl rfl hst
      rw [activateCandidate_of_candidate hg hst] at hact
      exact absurd hact (by simp)
  | ok c' =>
    obtain ⟨g, hg, rfl, rfl, hst, rfl⟩ := activateCandidate_ok hact
    have hstep : step H s (.activate g.workspaceId g.generationId tree now) =
        { s with catalogue := activated s.catalogue g tree now } := by
      simp only [step, hact, GenerationState.commit]
    have hk := keepsNumber_markCommitted tree now
    constructor
    · rw [hstep]
      exact hi.commit (hi.dense.update hk rfl) fun x hx => exists_mem_update _ hk hx
    · have hlaw : StepLaw (.activate g.workspaceId g.generationId tree now) s.catalogue
          (activated s.catalogue g tree now) := by
        refine stepLaw_update hk rfl (fun hne => absurd rfl (hne _ _ _ _)) ?_
        rintro _ _ _ _ e ⟨⟩ herr
        exact absurd (hact.symm.trans herr) (by simp)
      rw [Lawful, hstep, law_activated_iff hl hg hst]
      constructor
      · rintro ⟨-, hnewer⟩ g' hg' hid - -
        rw [generation_ext hg' hg hid]
        exact hnewer
      · exact fun hnewer => ⟨hlaw, hnewer g hg rfl rfl hst⟩

lemma step_spec (hi : Inv s) (hl : Law s.catalogue) (call : Call) : StepSpec H s call := by
  cases call with
  | readParent writer ws => exact step_readParent hi hl writer ws
  | readSequence writer => exact step_readSequence hi hl writer
  | insertCandidate writer trigger providerSet schema now =>
    exact step_insertCandidate hi hl writer trigger providerSet schema now
  | activate ws gid tree now => exact step_activate hi hl ws gid tree now
  | fail gid code message =>
    exact step_leave hi hl (by simp) rfl (keepsNumber_markFailed code message)
      (by simp [markFailed])
  | abandon gid =>
    exact step_leave hi hl (by simp) rfl keepsNumber_markAbandoned (by simp [markAbandoned])

lemma registered_indexGeneration (ids : List String) :
    (Catalogue.registered ids).indexGeneration = .empty := rfl

lemma registered_workspace (ids : List String) :
    ∀ w ∈ (Catalogue.registered ids).workspace, w.activeGenerationId = none := by
  suffices h : ∀ t : Table Workspace, (∀ w ∈ t, w.activeGenerationId = none) →
      ∀ w ∈ ids.foldl (fun t id => t.insertOrIgnore ⟨id, none⟩) t,
        w.activeGenerationId = none from h .empty (by simp)
  induction ids with
  | nil => exact fun t ht => ht
  | cons id ids ih =>
    intro t ht
    refine ih _ fun w hw => ?_
    rcases Table.mem_insertOrIgnore.mp hw with hw | ⟨rfl, -⟩
    · exact ht w hw
    · rfl

/-- No workspace starts with an active generation. -/
lemma activeGeneration?_registered (workspaceIds : List String) (ws : String) :
    activeGeneration? (Catalogue.registered workspaceIds) ws = none := by
  unfold activeGeneration?
  cases hfind : (Catalogue.registered workspaceIds).workspace.find?
      fun w => w.workspaceId = ws with
  | none => rfl
  | some w => exact registered_workspace workspaceIds w (Table.mem_of_find? hfind)

lemma law_registered (ids : List String) : Law (Catalogue.registered ids) where
  active_committed w hw gid hgid := by
    rw [registered_workspace ids w hw] at hgid
    exact absurd hgid (by simp)
  sequence_distinct := distinct_sequence _
  active_highest w hw := by
    rw [registered_workspace ids w hw]
    rfl

lemma inv_start (ids : List String) : Inv (GenerationState.start ids) where
  dense := ⟨fun g hg => absurd hg Table.not_mem_empty,
    fun g hg => absurd hg Table.not_mem_empty⟩
  wasNext _ _ _ _ hw := absurd hw (by simp [GenerationState.start])

/-- **Life cycle of the generations.**  For any workspaces and every interleaving of the
writers' steps, every step and every state of the run obey the laws exactly when every
activation that is not refused moves the pointer to a candidate with a larger sequence
number. -/
theorem lawful_iff_activatesNewer (H : Hasher) (workspaceIds : List String)
    (calls : List Call) :
    AllSteps (step H) (Lawful H) (GenerationState.start workspaceIds) calls ↔
      AllSteps (step H) ActivatesNewer (GenerationState.start workspaceIds) calls :=
  allSteps_congr (I := fun s => Inv s ∧ Law s.catalogue)
    ⟨inv_start workspaceIds, law_registered workspaceIds⟩
    (fun _ call h hnewer =>
      have spec := step_spec h.1 h.2 call
      ⟨spec.inv, (spec.lawful_iff.mpr hnewer).2⟩)
    fun _ call h => (step_spec h.1 h.2 call).lawful_iff

/-- Two candidates of one workspace, the later one activated first. -/
def lateActivation : List Call :=
  [.readParent 0 "ws", .readSequence 0, .insertCandidate 0 .baseline "" "" 0,
    .readParent 1 "ws", .readSequence 1, .insertCandidate 1 .reconcile "" "" 0,
    .activate "ws" (generationId .plain "ws" 2) none 0,
    .activate "ws" (generationId .plain "ws" 1) none 0]

/-- The second activation moves the pointer back: the active generation is the first one,
while the next candidate would name the second one as its parent. -/
theorem lateActivation_not_lawful :
    ¬ AllSteps (step .plain) (Lawful .plain) (GenerationState.start ["ws"]) lateActivation ∧
      ∃ c, (run (step .plain) (GenerationState.start ["ws"]) lateActivation).catalogue = c ∧
        c.workspace.rows = [⟨"ws", some (generationId .plain "ws" 1)⟩] ∧
        candidateParent c "ws" = some (generationId .plain "ws" 2) := by
  have hrows : (run (step .plain) (GenerationState.start ["ws"])
      lateActivation).catalogue.workspace.rows =
        [⟨"ws", some (generationId .plain "ws" 1)⟩] := by decide
  have hparent : candidateParent (run (step .plain) (GenerationState.start ["ws"])
      lateActivation).catalogue "ws" = some (generationId .plain "ws" 2) := by decide
  refine ⟨fun hall => ?_, _, rfl, hrows, hparent⟩
  have hlast := (AllSteps.at_prefix lateActivation.dropLast [] hall).2
  have := hlast.active_highest ⟨"ws", some (generationId .plain "ws" 1)⟩ (by decide)
  exact absurd (this.trans hparent) (by decide)

end Steps

end Generations

end WorkspaceAtlas
