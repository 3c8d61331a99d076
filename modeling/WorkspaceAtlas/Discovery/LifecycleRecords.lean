/-
# Events and tombstones of the activated generations

The renames and the disappearances between successive activated generations, and what an
event or a tombstone records of them.  A call that is activated adds exactly the records of
the generation it activates; a call that fails adds none if it detects nothing.
-/
import WorkspaceAtlas.Discovery.ActiveFiles
import WorkspaceAtlas.Relational.Correspondence

namespace WorkspaceAtlas

open Relational Transition

namespace LifecycleRun

/-! ## What the activated generations say -/

/-- `new` replaced `old` as the active generation. -/
def Successive (activated : List String) (new old : String) : Prop := [new, old] <:+: activated

/-- A file whose path changed when `generationId` was activated. -/
structure FileRename where
  generationId : String
  fileId : String
  oldPath : String
  newPath : String

/-- The file is in both generations, under the two paths. -/
def FileRename.Happened (c : Catalogue) (activated : List String) (r : FileRename) : Prop :=
  ∃ previous, Successive activated r.generationId previous ∧
    PresentAt c previous r.fileId r.oldPath ∧ PresentAt c r.generationId r.fileId r.newPath ∧
    r.oldPath ≠ r.newPath

/-- A file that was gone when `generationId` was activated. -/
structure Disappearance where
  generationId : String
  fileId : String
  path : String
  revisionId : String
  contentHash : String

/-- The file is in the previous generation and not in this one. -/
def Disappearance.Happened (c : Catalogue) (activated : List String) (d : Disappearance) :
    Prop :=
  ∃ previous, Successive activated d.generationId previous ∧
    PresentAs c previous d.fileId d.path d.revisionId d.contentHash ∧
    ¬ PresentIn c d.generationId d.fileId

/-! ## What the records say -/

/-- The event records the rename. -/
def RecordsRename (e : LifecycleEvent) (r : FileRename) : Prop :=
  e.generationId = r.generationId ∧ e.fileId = some r.fileId ∧ e.oldPath = some r.oldPath ∧
    e.newPath = some r.newPath

/-- The event records the disappearance. -/
def RecordsDeletion (e : LifecycleEvent) (d : Disappearance) : Prop :=
  e.generationId = d.generationId ∧ e.fileId = some d.fileId ∧ e.oldPath = some d.path ∧
    e.newPath = none ∧ e.oldContentHash = some d.contentHash

/-- The tombstone records the disappearance. -/
def RecordsLast (c : Catalogue) (t : Tombstone) (d : Disappearance) : Prop :=
  (∃ e ∈ c.lifecycleEvent, e.eventId = t.deletionEventId ∧ e.generationId = d.generationId) ∧
    t.fileId = d.fileId ∧ t.lastPath = d.path ∧ t.lastContentHash = d.contentHash ∧
    t.lastRevisionId = some d.revisionId

section Lemmas

variable {env : Environment} {c c' : Catalogue} {ws gid : String} {walked : List Walked}
  {plans : List SemanticPlan} {now : Timestamp}

/-! ## What a call adds -/

/-- The events of a type. -/
def eventsOf (c : Catalogue) (ws : String) (type : LifecycleEventType) : Set LifecycleEvent :=
  {e | (e ∈ c.lifecycleEvent ∧ e.workspaceId = ws) ∧ e.eventType = type}

lemma successive_cons {activated : List String} {new old : String} :
    Successive (gid :: activated) new old ↔
      new = gid ∧ activated.head? = some old ∨ Successive activated new old := by
  unfold Successive
  rw [List.infix_cons_iff, List.cons_prefix_cons]
  refine or_congr_left (and_congr_right fun _ => ?_)
  cases activated with
  | nil => simp
  | cons g rest => simp [eq_comm]

lemma Successive.mem {activated : List String} {new old : String}
    (h : Successive activated new old) : new ∈ activated ∧ old ∈ activated :=
  ⟨h.subset (by simp), h.subset (by simp)⟩

variable (hwalked : AllPresent walked) (eff : CallEffect env ws gid now c walked c')

include eff in
lemma mem_eventsOf_renamed {e : LifecycleEvent} : e ∈ eventsOf c' ws .renamed ↔
    e ∈ eventsOf c ws .renamed ∨
      ∃ r ∈ detectedRenames c ws walked, renamedEvent env.hasher ws gid now r = e := by
  have hmem : e ∈ c'.lifecycleEvent ↔ (e ∈ c.lifecycleEvent ∨
      ∃ r ∈ detectedRenames c ws walked, renamedEvent env.hasher ws gid now r = e) ∨
      ∃ old ∈ detectedDeletions c ws walked,
        deletedEvent env.hasher ws gid now old.1 old.2 = e := by
    rw [Table.mem_def, eff.events, List.mem_append, List.mem_append, List.mem_map, List.mem_map]
    exact Iff.rfl
  constructor
  · rintro ⟨⟨he, hws⟩, htype⟩
    rcases hmem.mp he with (he | hr) | ⟨old, -, rfl⟩
    · exact Or.inl ⟨⟨he, hws⟩, htype⟩
    · exact Or.inr hr
    · exact absurd htype (by simp [deletedEvent])
  · rintro (⟨⟨he, hws⟩, htype⟩ | ⟨r, hr, rfl⟩)
    · exact ⟨⟨hmem.mpr (Or.inl (Or.inl he)), hws⟩, htype⟩
    · exact ⟨⟨hmem.mpr (Or.inl (Or.inr ⟨r, hr, rfl⟩)), rfl⟩, rfl⟩

include eff in
lemma mem_eventsOf_deleted {e : LifecycleEvent} : e ∈ eventsOf c' ws .deleted ↔
    e ∈ eventsOf c ws .deleted ∨ ∃ old ∈ detectedDeletions c ws walked,
      deletedEvent env.hasher ws gid now old.1 old.2 = e := by
  have hmem : e ∈ c'.lifecycleEvent ↔ (e ∈ c.lifecycleEvent ∨
      ∃ r ∈ detectedRenames c ws walked, renamedEvent env.hasher ws gid now r = e) ∨
      ∃ old ∈ detectedDeletions c ws walked,
        deletedEvent env.hasher ws gid now old.1 old.2 = e := by
    rw [Table.mem_def, eff.events, List.mem_append, List.mem_append, List.mem_map, List.mem_map]
    exact Iff.rfl
  constructor
  · rintro ⟨⟨he, hws⟩, htype⟩
    rcases hmem.mp he with (he | ⟨r, -, rfl⟩) | hold
    · exact Or.inl ⟨⟨he, hws⟩, htype⟩
    · exact absurd htype (by simp [renamedEvent])
    · exact Or.inr hold
  · rintro (⟨⟨he, hws⟩, htype⟩ | ⟨old, hold, rfl⟩)
    · exact ⟨⟨hmem.mpr (Or.inl (Or.inl he)), hws⟩, htype⟩
    · exact ⟨⟨hmem.mpr (Or.inr ⟨old, hold, rfl⟩), rfl⟩, rfl⟩

include eff in
lemma rename_happened_other {activated : List String} (hnew : gid ∉ activated)
    {x : FileRename} : x.Happened c' activated ↔ x.Happened c activated := by
  unfold FileRename.Happened
  refine exists_congr fun previous => and_congr_right fun hsucc => ?_
  have hne : x.generationId ≠ gid := fun h => hnew (h ▸ hsucc.mem.1)
  have hne' : previous ≠ gid := fun h => hnew (h ▸ hsucc.mem.2)
  rw [presentAt_other eff hne, presentAt_other eff hne']

include eff in
lemma presentIn_other {g fileId : String} (hne : g ≠ gid) :
    PresentIn c' g fileId ↔ PresentIn c g fileId :=
  exists_congr fun _ => presentAt_other eff hne

include eff in
lemma Tracked.disappearance_happened_other (hc : Tracked ws (activeGeneration? c ws) c)
    {activated : List String} (hnew : gid ∉ activated) {d : Disappearance} :
    d.Happened c' activated ↔ d.Happened c activated := by
  unfold Disappearance.Happened
  refine exists_congr fun previous => and_congr_right fun hsucc => ?_
  have hne : d.generationId ≠ gid := fun h => hnew (h ▸ hsucc.mem.1)
  have hne' : previous ≠ gid := fun h => hnew (h ▸ hsucc.mem.2)
  rw [presentIn_other eff hne, presentAs_other eff hc hne']

/-- The rename that is recorded of a detected one. -/
def renameTo (gid : String) (r : RenamePair) : FileRename := ⟨gid, r.fileId, r.oldPath, r.newPath⟩

/-- The disappearance that is recorded of a detected deletion. -/
def disappearanceAt (c : Catalogue) (gid : String) (old : String × PrevFile) : Disappearance :=
  ⟨gid, old.2.fileId, old.1, ((lastRevision c old.2).map FileRevision.revisionId).getD "",
    old.2.contentHash⟩

include hwalked eff in
lemma Tracked.rename_happened (hc : Tracked ws (activeGeneration? c ws) c)
    (tr : Traceable c ws walked plans now) {activated : List String} (hnew : gid ∉ activated)
    (hpointer : activeGeneration? c ws = activated.head?) {x : FileRename} :
    x.Happened c' (gid :: activated) ↔ x.Happened c activated ∨
      ∃ r ∈ detectedRenames c ws walked, renameTo gid r = x := by
  rw [← rename_happened_other eff hnew]
  have hfirst : (∃ previous, (x.generationId = gid ∧ activated.head? = some previous) ∧
      PresentAt c' previous x.fileId x.oldPath ∧ PresentAt c' x.generationId x.fileId x.newPath ∧
        x.oldPath ≠ x.newPath) ↔ ∃ r ∈ detectedRenames c ws walked, renameTo gid r = x := by
    constructor
    · rintro ⟨previous, ⟨hgen, hhead⟩, hold, hcand, hne⟩
      have hprev : previous ≠ gid := fun h => hnew (h ▸ List.mem_of_mem_head? hhead)
      obtain ⟨r, hr, hid, hp, hq⟩ := (hc.rename_iff hwalked eff tr).mp ⟨previous,
        hpointer.trans hhead, (presentAt_other eff hprev).mp hold, hgen ▸ hcand, hne⟩
      refine ⟨r, hr, ?_⟩
      rw [renameTo, hid, hp, hq, ← hgen]
    · rintro ⟨r, hr, rfl⟩
      obtain ⟨g, hact, hold, hcand, hne⟩ := (hc.rename_iff hwalked eff tr).mpr
        ⟨r, hr, rfl, rfl, rfl⟩
      have hhead : activated.head? = some g := hpointer.symm.trans hact
      have hprev : g ≠ gid := fun h => hnew (h ▸ List.mem_of_mem_head? hhead)
      exact ⟨g, ⟨rfl, hhead⟩, (presentAt_other eff hprev).mpr hold, hcand, hne⟩
  rw [← hfirst]
  simp only [FileRename.Happened, successive_cons, or_and_right, exists_or]
  exact or_comm

include hwalked eff in
lemma Tracked.disappearance_happened (hc : Tracked ws (activeGeneration? c ws) c)
    (tr : Traceable c ws walked plans now) {activated : List String} (hnew : gid ∉ activated)
    (hpointer : activeGeneration? c ws = activated.head?) {d : Disappearance} :
    d.Happened c' (gid :: activated) ↔ d.Happened c activated ∨
      ∃ old ∈ detectedDeletions c ws walked, disappearanceAt c gid old = d := by
  rw [← hc.disappearance_happened_other eff hnew]
  have hfirst : (∃ previous, (d.generationId = gid ∧ activated.head? = some previous) ∧
      PresentAs c' previous d.fileId d.path d.revisionId d.contentHash ∧
        ¬ PresentIn c' d.generationId d.fileId) ↔
      ∃ old ∈ detectedDeletions c ws walked, disappearanceAt c gid old = d := by
    constructor
    · rintro ⟨previous, ⟨hgen, hhead⟩, hold, hnot⟩
      have hprev : previous ≠ gid := fun h => hnew (h ▸ List.mem_of_mem_head? hhead)
      obtain ⟨old, hmem, hid, hp, hhash, hlast⟩ := (hc.disappearance_iff hwalked eff tr).mp
        ⟨previous, hpointer.trans hhead, (presentAs_other eff hc hprev).mp hold, hgen ▸ hnot⟩
      refine ⟨old, hmem, ?_⟩
      rw [disappearanceAt, hid, hp, hhash, hlast, ← hgen]
      rfl
    · rintro ⟨old, hmem, rfl⟩
      obtain ⟨g, rid, hact, gf, hgf, hgen, hpres, hfile, -, hrid, -⟩ :=
        mem_snapshot_iff.mp (List.mem_filter.mp hmem).1
      have hlast := (tr.deletions old hmem gf hgf (hgen ▸ hact) hpres hfile).trans hrid
      obtain ⟨g', hact', has, hnot⟩ := (hc.disappearance_iff hwalked eff tr).mpr
        ⟨old, hmem, rfl, rfl, rfl, hlast⟩
      have hhead : activated.head? = some g' := hpointer.symm.trans hact'
      have hprev : g' ≠ gid := fun h => hnew (h ▸ List.mem_of_mem_head? hhead)
      refine ⟨g', ⟨rfl, hhead⟩, (presentAs_other eff hc hprev).mpr ?_, hnot⟩
      show PresentAs c g' old.2.fileId old.1
        (((lastRevision c old.2).map FileRevision.revisionId).getD "") old.2.contentHash
      rw [hlast]
      exact has
  rw [← hfirst]
  simp only [Disappearance.Happened, successive_cons, or_and_right, exists_or]
  exact or_comm

/-- The records follow the generations that were activated. -/
structure Records (ws : String) (activated : List String) (c : Catalogue) : Prop where
  gone : ∀ i ∈ c.fileIdentity, (∃ g ∈ activated, PresentIn c g i.fileId) →
    ∀ gid, activated.head? = some gid → ¬ PresentIn c gid i.fileId → i.lifecycleState = .deleted
  renames : OneToOne RecordsRename (eventsOf c ws .renamed) {r | r.Happened c activated}
  deletions : OneToOne RecordsDeletion (eventsOf c ws .deleted) {d | d.Happened c activated}
  tombstones : OneToOne (RecordsLast c) {t | t ∈ c.tombstone ∧ t.workspaceId = ws}
    {d | d.Happened c activated}

include eff in
/-- An identity of a recorded file is what the call makes of the one before. -/
lemma Tracked.identity_eq (hc : Tracked ws (activeGeneration? c ws) c) {j : FileIdentity}
    (hj : j ∈ c'.fileIdentity) {g : String} (hin : PresentIn c g j.fileId) :
    ∃ i ∈ c.fileIdentity, i.fileId = j.fileId ∧ j = deletedRow (detectedDeletions c ws walked) now
      (movedRow (detectedRenames c ws walked) now i) := by
  obtain ⟨-, gf, hgf, -, -, hfile, -⟩ := hin
  obtain ⟨i, hi, hid⟩ := hc.files gf hgf
  have hkept := eff.kept _ (mem_afterRenames.mpr ⟨i, hi, rfl⟩)
  obtain ⟨hmoved, -⟩ := movedRow_spec (detectedRenames c ws walked) now i
  obtain ⟨hdel, -⟩ := deletedRow_spec (detectedDeletions c ws walked) now
    (movedRow (detectedRenames c ws walked) now i)
  refine ⟨i, hi, hid.trans hfile, Table.eq_of_clash hj hkept ?_⟩
  exact (hdel.trans (hmoved.trans (hid.trans hfile))).symm

include hwalked eff in
/-- Identities that were ever present and are not in the candidate are deleted. -/
lemma Records.gone_candidate (hc : Tracked ws (activeGeneration? c ws) c)
    (tr : Traceable c ws walked plans now) {activated : List String}
    (h : Records ws activated c) (hpointer : activeGeneration? c ws = activated.head?)
    {j : FileIdentity} (hj : j ∈ c'.fileIdentity) (hever : ∃ g ∈ activated, PresentIn c g j.fileId)
    (hnot : ¬ PresentIn c' gid j.fileId) : j.lifecycleState = .deleted := by
  obtain ⟨g, hg, hin⟩ := hever
  obtain ⟨i, hi, hid, rfl⟩ := hc.identity_eq eff hj hin
  obtain ⟨hmoved, -, hstate, -⟩ := movedRow_spec (detectedRenames c ws walked) now i
  obtain ⟨hdel, -, -, hrow⟩ := deletedRow_spec (detectedDeletions c ws walked) now
    (movedRow (detectedRenames c ws walked) now i)
  rcases hrow with ⟨hsame, hnone⟩ | ⟨hdeleted, -⟩
  · rw [hsame, hstate]
    obtain ⟨head, hhead⟩ : ∃ head, activated.head? = some head := by
      cases activated with
      | nil => exact absurd hg (by simp)
      | cons head rest => exact ⟨head, rfl⟩
    refine h.gone i hi ⟨g, hg, hid ▸ hin⟩ head hhead ?_
    -- a file of the active generation that is not in the candidate is deleted
    rintro ⟨p, gf, hgf, rfl, hpres, hfile, -⟩
    have hact := hpointer.trans hhead
    obtain ⟨old, hold, -, holdid⟩ := hc.mem_snapshot hgf hact hpres
    have hfile' : gf.fileId = (movedRow (detectedRenames c ws walked) now i).fileId :=
      hfile.trans hmoved.symm
    rcases hc.presentIn_or_deleted hwalked eff tr hgf hact hpres with ⟨hpresent, -⟩ | ⟨-, hgone⟩
    · exact hnot ⟨_, hdel ▸ hfile' ▸ hpresent⟩
    · exact hnone old (hgone old hold holdid) (holdid.trans hfile')
  · exact hdeleted

include hwalked eff in
lemma Records.renames_candidate (hc : Tracked ws (activeGeneration? c ws) c)
    (tr : Traceable c ws walked plans now) {activated : List String} (hnew : gid ∉ activated)
    (hpointer : activeGeneration? c ws = activated.head?) (h : Records ws activated c) :
    OneToOne RecordsRename (eventsOf c' ws .renamed) {r | r.Happened c' (gid :: activated)} := by
  have hfresh : OneToOne RecordsRename
      {e | ∃ r ∈ detectedRenames c ws walked, renamedEvent env.hasher ws gid now r = e}
      {x | ∃ r ∈ detectedRenames c ws walked, renameTo gid r = x} := by
    refine OneToOne.of_list fun r hr r' hr' => ⟨fun hrec => ?_, ?_⟩
    · exact eq_of_mem_renames hr hr' (Option.some.inj hrec.2.1)
    · rintro rfl
      exact ⟨rfl, rfl, rfl, rfl⟩
  refine (h.renames.union hfresh ?_ ?_).congr (fun e => mem_eventsOf_renamed eff)
    fun x => hc.rename_happened hwalked eff tr hnew hpointer
  · rintro e he _ ⟨r, -, rfl⟩ hrec
    obtain ⟨x, ⟨⟨_, hsucc, -⟩, hrec'⟩, -⟩ := h.renames.right e he
    have hgen : x.generationId = gid := hrec'.1.symm.trans hrec.1
    exact hnew (hgen ▸ hsucc.mem.1)
  · rintro _ ⟨r, -, rfl⟩ x ⟨_, hsucc, -⟩ hrec
    have hgen : gid = x.generationId := hrec.1
    exact hnew (hgen ▸ hsucc.mem.1)

include hwalked eff in
lemma Records.deletions_candidate (hc : Tracked ws (activeGeneration? c ws) c)
    (tr : Traceable c ws walked plans now) {activated : List String} (hnew : gid ∉ activated)
    (hpointer : activeGeneration? c ws = activated.head?) (h : Records ws activated c) :
    OneToOne RecordsDeletion (eventsOf c' ws .deleted)
      {d | d.Happened c' (gid :: activated)} := by
  have hfresh : OneToOne RecordsDeletion
      {e | ∃ old ∈ detectedDeletions c ws walked,
        deletedEvent env.hasher ws gid now old.1 old.2 = e}
      {d | ∃ old ∈ detectedDeletions c ws walked, disappearanceAt c gid old = d} := by
    refine OneToOne.of_list fun old hold old' hold' => ⟨fun hrec => ?_, ?_⟩
    · exact eq_of_mem_deletions hold hold' (Option.some.inj hrec.2.1)
    · rintro rfl
      exact ⟨rfl, rfl, rfl, rfl, rfl⟩
  refine (h.deletions.union hfresh ?_ ?_).congr (fun e => mem_eventsOf_deleted eff)
    fun d => hc.disappearance_happened hwalked eff tr hnew hpointer
  · rintro e he _ ⟨old, -, rfl⟩ hrec
    obtain ⟨d, ⟨⟨_, hsucc, -⟩, hrec'⟩, -⟩ := h.deletions.right e he
    have hgen : d.generationId = gid := hrec'.1.symm.trans hrec.1
    exact hnew (hgen ▸ hsucc.mem.1)
  · rintro _ ⟨old, -, rfl⟩ d ⟨_, hsucc, -⟩ hrec
    have hgen : gid = d.generationId := hrec.1
    exact hnew (hgen ▸ hsucc.mem.1)

include hwalked eff in
lemma Records.tombstones_candidate (hc : Tracked ws (activeGeneration? c ws) c)
    (tr : Traceable c ws walked plans now) {activated : List String} (hnew : gid ∉ activated)
    (hpointer : activeGeneration? c ws = activated.head?) (h : Records ws activated c) :
    OneToOne (RecordsLast c') {t | t ∈ c'.tombstone ∧ t.workspaceId = ws}
      {d | d.Happened c' (gid :: activated)} := by
  obtain ⟨recorded, hrevs, hrows⟩ := eff.tombstones
  have hevent : ∀ e ∈ c.lifecycleEvent, e ∈ c'.lifecycleEvent := by
    intro e he
    rw [Table.mem_def, eff.events]
    exact List.mem_append_left _ (List.mem_append_left _ he)
  have hnewEvent : ∀ old ∈ detectedDeletions c ws walked,
      deletedEvent env.hasher ws gid now old.1 old.2 ∈ c'.lifecycleEvent := fun old hold =>
    ((mem_eventsOf_deleted eff).mpr (Or.inr ⟨old, hold, rfl⟩)).1.1
  have hlast : ∀ old ∈ detectedDeletions c ws walked, ∃ rid,
      (lastRevision recorded old.2).map FileRevision.revisionId = some rid ∧
        (disappearanceAt c gid old).revisionId = rid := by
    intro old hold
    obtain ⟨g, rid, hact, gf, hgf, hgen, hpres, hfile, -, hrid, -⟩ :=
      mem_snapshot_iff.mp (List.mem_filter.mp hold).1
    have hrow := (tr.deletions old hold gf hgf (hgen ▸ hact) hpres hfile).trans hrid
    rw [hc.lastRevision_eq hwalked eff tr hrevs hold]
    exact ⟨rid, hrow, by rw [disappearanceAt, hrow]; rfl⟩
  -- the older tombstones still record the same
  have hold : OneToOne (RecordsLast c') {t | t ∈ c.tombstone ∧ t.workspaceId = ws}
      {d | d.Happened c activated} := by
    refine h.tombstones.congr_rel fun t ht d _ => and_congr_left fun _ => ?_
    constructor
    · rintro ⟨e, he, hid, hgen⟩
      obtain ⟨d', ⟨-, ⟨e', he', hid', -⟩, -⟩, -⟩ := h.tombstones.right t ht
      obtain rfl : e = e' := Table.eq_of_clash he (hevent e' he') (hid.trans hid'.symm)
      exact ⟨e, he', hid, hgen⟩
    · rintro ⟨e, he, hrest⟩
      exact ⟨e, hevent e he, hrest⟩
  have hfresh : OneToOne (RecordsLast c')
      {t | ∃ old ∈ detectedDeletions c ws walked,
        tombstoneRow env.hasher ws gid now recorded old.1 old.2 = t}
      {d | ∃ old ∈ detectedDeletions c ws walked, disappearanceAt c gid old = d} := by
    refine OneToOne.of_list fun old hold old' hold' => ⟨fun hrec => ?_, ?_⟩
    · exact eq_of_mem_deletions hold hold' hrec.2.1
    · rintro rfl
      obtain ⟨rid, hrid, hrid'⟩ := hlast old hold
      exact ⟨⟨_, hnewEvent old hold, rfl, rfl⟩, rfl, rfl, rfl, hrid'.symm ▸ hrid⟩
  refine (hold.union hfresh ?_ ?_).congr (fun t => ?_)
    fun d => hc.disappearance_happened hwalked eff tr hnew hpointer
  · rintro t ht _ ⟨old, -, rfl⟩ ⟨⟨e, he, hid, hgen⟩, -⟩
    obtain ⟨d, ⟨⟨_, hsucc, -⟩, ⟨e', he', hid', hgen'⟩, -⟩, -⟩ := h.tombstones.right t ht
    obtain rfl : e = e' := Table.eq_of_clash he (hevent e' he') (hid.trans hid'.symm)
    have hsame : d.generationId = gid := hgen'.symm.trans hgen
    exact hnew (hsame ▸ hsucc.mem.1)
  · rintro _ ⟨old, holdmem, rfl⟩ d ⟨_, hsucc, -⟩ ⟨⟨e, he, hid, hgen⟩, -⟩
    obtain rfl : e = _ := Table.eq_of_clash he (hnewEvent old holdmem) hid
    have hsame : gid = d.generationId := hgen
    exact hnew (hsame ▸ hsucc.mem.1)
  · show t ∈ c'.tombstone ∧ t.workspaceId = ws ↔ _
    rw [Table.mem_def, hrows, List.mem_append, List.mem_map]
    constructor
    · rintro ⟨ht | ht, hws⟩
      · exact Or.inl ⟨ht, hws⟩
      · exact Or.inr ht
    · rintro (⟨ht, hws⟩ | ⟨old, holdmem, rfl⟩)
      · exact ⟨Or.inl ht, hws⟩
      · exact ⟨Or.inr ⟨old, holdmem, rfl⟩, rfl⟩

include hwalked eff in
/-- **Activation.**  The records follow the candidate. -/
lemma Records.candidate (hc : Tracked ws (activeGeneration? c ws) c)
    (tr : Traceable c ws walked plans now) {activated : List String} (hnew : gid ∉ activated)
    (hpointer : activeGeneration? c ws = activated.head?) (h : Records ws activated c) :
    Records ws (gid :: activated) c' where
  gone j hj hever g hg hnot := by
    obtain rfl : gid = g := Option.some.inj hg
    refine h.gone_candidate hwalked eff hc tr hpointer hj ?_ hnot
    obtain ⟨g, hg, hin⟩ := hever
    rcases List.mem_cons.mp hg with rfl | hg
    · exact absurd hin hnot
    · exact ⟨g, hg, (presentIn_other eff fun heq => hnew (heq ▸ hg)).mp hin⟩
  renames := h.renames_candidate hwalked eff hc tr hnew hpointer
  deletions := h.deletions_candidate hwalked eff hc tr hnew hpointer
  tombstones := h.tombstones_candidate hwalked eff hc tr hnew hpointer

include eff in
/-- **Failure.**  A candidate without renames and deletions adds no record. -/
lemma Records.frame (hc : Tracked ws (activeGeneration? c ws) c) {activated : List String}
    (hnew : gid ∉ activated) (h : Records ws activated c)
    (hren : detectedRenames c ws walked = []) (hdel : detectedDeletions c ws walked = []) :
    Records ws activated c' := by
  have hevents : c'.lifecycleEvent = c.lifecycleEvent := by
    ext1
    rw [eff.events, hren, hdel]
    simp
  have htombs : c'.tombstone = c.tombstone := by
    obtain ⟨recorded, -, hrows⟩ := eff.tombstones
    ext1
    rw [hrows, hdel]
    simp
  have hkept : ∀ type, eventsOf c' ws type = eventsOf c ws type := by
    intro type
    rw [eventsOf, hevents]
    rfl
  constructor
  · rintro j hj ⟨g, hg, hin⟩ head hhead hnot
    have hne : ∀ g ∈ activated, g ≠ gid := fun g hg heq => hnew (heq ▸ hg)
    have hin' := (presentIn_other eff (hne g hg)).mp hin
    obtain ⟨i, hi, hid, rfl⟩ := hc.identity_eq eff hj hin'
    rw [hren, hdel] at hnot hin' ⊢
    refine h.gone i hi ⟨g, hg, hid ▸ hin'⟩ head hhead fun hpres => hnot ?_
    exact (presentIn_other eff (hne head (List.mem_of_mem_head? hhead))).mpr hpres
  · refine h.renames.congr (fun e => ?_) fun x => rename_happened_other eff hnew
    rw [hkept]
  · refine h.deletions.congr (fun e => ?_) fun d => hc.disappearance_happened_other eff hnew
    rw [hkept]
  · have hrel : RecordsLast c' = RecordsLast c := by
      funext t d
      rw [RecordsLast, hevents]
      rfl
    rw [hrel]
    refine h.tombstones.congr (fun t => ?_) fun d => hc.disappearance_happened_other eff hnew
    rw [htombs]

end Lemmas

end LifecycleRun

end WorkspaceAtlas
