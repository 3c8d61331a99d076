/-
# Renames as a matching

`detect_renames` groups what disappeared and what appeared by content hash and visits the
groups in the order of a hash map.  Whatever that order is, the renames are the unambiguous
pairs of equal content, and with the deletions of `record_deletions` they account for every
file of the previous generation.
-/
import WorkspaceAtlas.Discovery.Records

namespace WorkspaceAtlas

open Relational Transition

/-! ## The only element with a key -/

section Singleton

variable {α κ : Type*} [DecidableEq κ] {key : α → κ} {l : List α}

/-- In a list without repetitions a group with one element is an element without rivals. -/
lemma filter_key_eq_singleton (hl : l.Nodup) {k : κ} {a : α} :
    l.filter (fun b => key b = k) = [a] ↔
      a ∈ l ∧ key a = k ∧ ∀ b ∈ l, key b = k → b = a := by
  constructor
  · intro h
    have hmem : ∀ b, b ∈ l ∧ key b = k ↔ b = a := by
      intro b
      have hb : b ∈ l.filter (fun b => key b = k) ↔ b ∈ [a] := by rw [h]
      simpa using hb
    obtain ⟨ha, hkey⟩ := (hmem a).mpr rfl
    exact ⟨ha, hkey, fun b hb hbk => (hmem b).mp ⟨hb, hbk⟩⟩
  · rintro ⟨ha, hkey, honly⟩
    refine List.perm_singleton.mp ((List.perm_ext_iff_of_nodup (hl.filter _) ?_).mpr ?_)
    · exact List.nodup_singleton a
    · intro b
      simp only [List.mem_filter, decide_eq_true_eq, List.mem_singleton]
      constructor
      · rintro ⟨hb, hbk⟩
        exact honly b hb hbk
      · rintro rfl
        exact ⟨ha, hkey⟩

/-- A key that no two elements share is counted once or not at all. -/
lemma countP_key_eq_ite (h : l.Pairwise fun a b => key a ≠ key b) (k : κ) :
    l.countP (fun a => key a = k) = if k ∈ l.map key then 1 else 0 := by
  have hcount : l.countP (fun a => key a = k) = (l.map key).count k := by
    rw [List.count, List.countP_map]
    exact List.countP_congr fun a _ => by simp
  have hnodup : (l.map key).Nodup := List.pairwise_map.mpr h
  rw [hcount, hnodup.count]

end Singleton

/-! ## The groups of the source -/

/-- `disappeared_by_hash[hash]`. -/
def disappearedByHash (olds : List (String × PrevFile)) (hash : String) :
    List (String × PrevFile) :=
  olds.filter fun old => old.2.contentHash = hash

/-- `appeared_by_hash[hash]`, empty where the map has no such key. -/
def appearedByHash (news : List (String × String)) (hash : String) : List String :=
  (news.filter fun new => new.2 = hash).map Prod.fst

/-- The body of the loop over `disappeared_by_hash`. -/
def renameOfGroup (olds : List (String × PrevFile)) (news : List (String × String))
    (hash : String) : Option RenamePair :=
  match disappearedByHash olds hash, appearedByHash news hash with
  | [old], [newPath] => some ⟨old.1, newPath, old.2.fileId, old.2.contentHash⟩
  | _, _ => none

/-- `detect_renames`, when the keys of `disappeared_by_hash` are visited in the order
`order`. -/
def detectRenamesIn (order : List String) (prevPresent : List (String × PrevFile))
    (walkedPaths : List String) (newPresentHashes : List (String × String)) :
    List RenamePair :=
  order.filterMap
    (renameOfGroup (disappeared prevPresent walkedPaths)
      (appeared prevPresent newPresentHashes))

/-- An order of the keys of `disappeared_by_hash`. -/
structure GroupOrder (olds : List (String × PrevFile)) (order : List String) : Prop where
  nodup : order.Nodup
  mem_iff : ∀ hash, hash ∈ order ↔ ∃ old ∈ olds, old.2.contentHash = hash

/-- What the comparison reads: two hash maps and a hash set, each listed in the order in
which it is visited. -/
structure WalkComparison where
  prevPresent : List (String × PrevFile)
  walkedPaths : List String
  newPresentHashes : List (String × String)
  prevPresent_nodup : (prevPresent.map Prod.fst).Nodup
  newPresentHashes_nodup : (newPresentHashes.map Prod.fst).Nodup

namespace WalkComparison

variable {m m' : WalkComparison} {order order' : List String} {r s : RenamePair}

/-- The files that disappeared. -/
def olds (m : WalkComparison) : List (String × PrevFile) :=
  disappeared m.prevPresent m.walkedPaths

/-- The files that appeared. -/
def news (m : WalkComparison) : List (String × String) :=
  appeared m.prevPresent m.newPresentHashes

/-- `detect_renames`. -/
def renames (m : WalkComparison) (order : List String) : List RenamePair :=
  detectRenamesIn order m.prevPresent m.walkedPaths m.newPresentHashes

/-- The same maps and the same set, visited in other orders. -/
structure Reordered (m m' : WalkComparison) : Prop where
  prevPresent : m.prevPresent.Perm m'.prevPresent
  walkedPaths : ∀ path, path ∈ m.walkedPaths ↔ path ∈ m'.walkedPaths
  newPresentHashes : m.newPresentHashes.Perm m'.newPresentHashes

/-- The old path of `r` is gone, its new path is new, both have the same content, and no
other path that disappeared or appeared has that content. -/
structure IsRename (m : WalkComparison) (r : RenamePair) : Prop where
  old : (r.oldPath, ⟨r.fileId, r.contentHash⟩) ∈ m.prevPresent
  gone : r.oldPath ∉ m.walkedPaths
  new : (r.newPath, r.contentHash) ∈ m.newPresentHashes
  fresh : r.newPath ∉ m.prevPresent.map Prod.fst
  only_old : ∀ old ∈ m.prevPresent, old.1 ∉ m.walkedPaths →
    old.2.contentHash = r.contentHash → old.1 = r.oldPath
  only_new : ∀ new ∈ m.newPresentHashes, new.1 ∉ m.prevPresent.map Prod.fst →
    new.2 = r.contentHash → new.1 = r.newPath

lemma mem_olds {old : String × PrevFile} :
    old ∈ m.olds ↔ old ∈ m.prevPresent ∧ old.1 ∉ m.walkedPaths := by
  simp [olds, disappeared]

lemma mem_news {new : String × String} :
    new ∈ m.news ↔ new ∈ m.newPresentHashes ∧ new.1 ∉ m.prevPresent.map Prod.fst := by
  simp [news, appeared]

lemma nodup_olds (m : WalkComparison) : m.olds.Nodup :=
  (List.Nodup.of_map _ m.prevPresent_nodup).filter _

lemma nodup_news (m : WalkComparison) : m.news.Nodup :=
  (List.Nodup.of_map _ m.newPresentHashes_nodup).filter _

/-- A key of a hash map has one value. -/
lemma old_ext {old old' : String × PrevFile} (h : old ∈ m.prevPresent)
    (h' : old' ∈ m.prevPresent) (heq : old.1 = old'.1) : old = old' :=
  List.inj_on_of_nodup_map m.prevPresent_nodup h h' heq

lemma new_ext {new new' : String × String} (h : new ∈ m.newPresentHashes)
    (h' : new' ∈ m.newPresentHashes) (heq : new.1 = new'.1) : new = new' :=
  List.inj_on_of_nodup_map m.newPresentHashes_nodup h h' heq

lemma disappearedByHash_eq_singleton {hash : String} {old : String × PrevFile} :
    disappearedByHash m.olds hash = [old] ↔
      old ∈ m.olds ∧ old.2.contentHash = hash ∧
        ∀ o ∈ m.olds, o.2.contentHash = hash → o = old :=
  filter_key_eq_singleton m.nodup_olds

lemma appearedByHash_eq_singleton {hash path : String} :
    appearedByHash m.news hash = [path] ↔
      ∃ new ∈ m.news, new.1 = path ∧ new.2 = hash ∧ ∀ n ∈ m.news, n.2 = hash → n = new := by
  have hsingle : ∀ new, m.news.filter (fun n => n.2 = hash) = [new] ↔
      new ∈ m.news ∧ new.2 = hash ∧ ∀ n ∈ m.news, n.2 = hash → n = new :=
    fun new => filter_key_eq_singleton m.nodup_news
  simp only [appearedByHash, List.map_eq_singleton_iff, hsingle]
  constructor
  · rintro ⟨new, ⟨hmem, hhash, honly⟩, hpath⟩
    exact ⟨new, hmem, hpath, hhash, honly⟩
  · rintro ⟨new, hmem, hpath, hhash, honly⟩
    exact ⟨new, ⟨hmem, hhash, honly⟩, hpath⟩

/-- The rename of a group is the unambiguous pair with the content of the group. -/
lemma renameOfGroup_eq_some {hash : String} :
    renameOfGroup m.olds m.news hash = some r ↔ m.IsRename r ∧ r.contentHash = hash := by
  constructor
  · intro h
    unfold renameOfGroup at h
    split at h
    next old newPath holds hnews =>
      obtain rfl := Option.some.inj h
      obtain ⟨hmem, hhash, honly⟩ := disappearedByHash_eq_singleton.mp holds
      obtain ⟨new, hmem', rfl, hhash', honly'⟩ := appearedByHash_eq_singleton.mp hnews
      obtain ⟨hprev, hgone⟩ := mem_olds.mp hmem
      obtain ⟨hpresent, hfresh⟩ := mem_news.mp hmem'
      refine ⟨⟨hprev, hgone, ?_, hfresh, ?_, ?_⟩, hhash⟩
      · have hcontent : new.2 = old.2.contentHash := hhash'.trans hhash.symm
        rw [← hcontent]
        exact hpresent
      · intro o ho hno heq
        rw [honly o (mem_olds.mpr ⟨ho, hno⟩) (heq.trans hhash)]
      · intro n hn hnn heq
        rw [honly' n (mem_news.mpr ⟨hn, hnn⟩) (heq.trans hhash)]
    next => exact absurd h (by simp)
  · rintro ⟨h, rfl⟩
    have holds : disappearedByHash m.olds r.contentHash =
        [(r.oldPath, ⟨r.fileId, r.contentHash⟩)] := by
      refine disappearedByHash_eq_singleton.mpr ⟨mem_olds.mpr ⟨h.old, h.gone⟩, rfl, ?_⟩
      intro o ho heq
      obtain ⟨hprev, hgone⟩ := mem_olds.mp ho
      exact old_ext hprev h.old (h.only_old o hprev hgone heq)
    have hnews : appearedByHash m.news r.contentHash = [r.newPath] := by
      refine appearedByHash_eq_singleton.mpr
        ⟨(r.newPath, r.contentHash), mem_news.mpr ⟨h.new, h.fresh⟩, rfl, rfl, ?_⟩
      intro n hn heq
      obtain ⟨hpresent, hfresh⟩ := mem_news.mp hn
      exact new_ext hpresent h.new (h.only_new n hpresent hfresh heq)
    rw [renameOfGroup, holds, hnews]

/-- Every group is visited, so every unambiguous pair is found. -/
lemma mem_renames (horder : GroupOrder m.olds order) : r ∈ m.renames order ↔ m.IsRename r := by
  rw [renames, detectRenamesIn, List.mem_filterMap]
  constructor
  · rintro ⟨hash, -, h⟩
    exact (renameOfGroup_eq_some.mp h).1
  · intro h
    refine ⟨r.contentHash, (horder.mem_iff _).mpr ?_, renameOfGroup_eq_some.mpr ⟨h, rfl⟩⟩
    exact ⟨_, mem_olds.mpr ⟨h.old, h.gone⟩, rfl⟩

/-! ## A partial bijection -/

lemma IsRename.ext (h : m.IsRename r) (h' : m.IsRename s)
    (heq : r.contentHash = s.contentHash) : r = s := by
  have hold : r.oldPath = s.oldPath := h'.only_old _ h.old h.gone heq
  have hnew : r.newPath = s.newPath := h'.only_new _ h.new h.fresh heq
  have hprev := old_ext h.old h'.old hold
  obtain ⟨o, n, f, k⟩ := r
  obtain ⟨o', n', f', k'⟩ := s
  simp_all

/-- The old side determines the rename. -/
lemma IsRename.eq_of_oldPath (h : m.IsRename r) (h' : m.IsRename s)
    (heq : r.oldPath = s.oldPath) : r = s := by
  have hprev := old_ext h.old h'.old heq
  exact h.ext h' (congrArg (fun old : String × PrevFile => old.2.contentHash) hprev)

/-- The new side determines the rename. -/
lemma IsRename.eq_of_newPath (h : m.IsRename r) (h' : m.IsRename s)
    (heq : r.newPath = s.newPath) : r = s :=
  h.ext h' (congrArg Prod.snd (new_ext h.new h'.new heq))

lemma nodup_renames (horder : GroupOrder m.olds order) : (m.renames order).Nodup := by
  refine List.Nodup.filterMap ?_ horder.nodup
  intro hash hash' r hr hr'
  rw [← (renameOfGroup_eq_some.mp hr).2, ← (renameOfGroup_eq_some.mp hr').2]

lemma renames_pairwise (horder : GroupOrder m.olds order) :
    (m.renames order).Pairwise fun r s => r.oldPath ≠ s.oldPath ∧ r.newPath ≠ s.newPath := by
  refine (nodup_renames horder).pairwise_of_forall_ne ?_
  intro r hr s hs hne
  have hr := (mem_renames horder).mp hr
  have hs := (mem_renames horder).mp hs
  exact ⟨fun heq => hne (hr.eq_of_oldPath hs heq), fun heq => hne (hr.eq_of_newPath hs heq)⟩

/-! ## The order of the maps -/

lemma Reordered.symm (h : Reordered m m') : Reordered m' m :=
  ⟨h.prevPresent.symm, fun path => (h.walkedPaths path).symm, h.newPresentHashes.symm⟩

lemma Reordered.isRename (h : Reordered m m') (hr : m.IsRename r) : m'.IsRename r where
  old := h.prevPresent.mem_iff.mp hr.old
  gone hmem := hr.gone ((h.walkedPaths _).mpr hmem)
  new := h.newPresentHashes.mem_iff.mp hr.new
  fresh hmem := hr.fresh ((h.prevPresent.map Prod.fst).mem_iff.mpr hmem)
  only_old old hold hgone :=
    hr.only_old old (h.prevPresent.mem_iff.mpr hold) fun hmem =>
      hgone ((h.walkedPaths _).mp hmem)
  only_new new hnew hfresh :=
    hr.only_new new (h.newPresentHashes.mem_iff.mpr hnew) fun hmem =>
      hfresh ((h.prevPresent.map Prod.fst).mem_iff.mp hmem)

/-- The same renames are found in every order of the groups and of the maps. -/
lemma renames_perm (h : Reordered m m') (horder : GroupOrder m.olds order)
    (horder' : GroupOrder m'.olds order') : (m.renames order).Perm (m'.renames order') := by
  refine (List.perm_ext_iff_of_nodup (nodup_renames horder) (nodup_renames horder')).mpr ?_
  intro r
  rw [mem_renames horder, mem_renames horder']
  exact ⟨h.isRename, h.symm.isRename⟩

/-- The version that visits the files instead of the groups finds the same renames. -/
lemma detectRenames_perm (horder : GroupOrder m.olds order) :
    (detectRenames m.prevPresent m.walkedPaths m.newPresentHashes).Perm
      (m.renames order) := by
  have heach : ∀ old ∈ m.olds,
      renameOf? m.olds m.news old = renameOfGroup m.olds m.news old.2.contentHash := by
    intro old hold
    unfold renameOf? renameOfGroup appearedByHash disappearedByHash
    rcases hnews : m.news.filter (fun n => n.2 = old.2.contentHash) with _ | ⟨new, _ | _⟩ <;>
      rcases holds : m.olds.filter (fun o => o.2.contentHash = old.2.contentHash) with
        _ | ⟨o, _ | _⟩ <;> simp only [hnews, holds, List.map_cons, List.map_nil]
    -- a group with one file is the group of that file
    obtain ⟨-, -, honly⟩ := disappearedByHash_eq_singleton.mp holds
    rw [honly old hold rfl]
  have hnodup : (detectRenames m.prevPresent m.walkedPaths m.newPresentHashes).Nodup := by
    have hold : (detectRenames m.prevPresent m.walkedPaths m.newPresentHashes).Pairwise
        fun r s => r.oldPath ≠ s.oldPath := by
      refine List.Pairwise.filterMap _ ?_
        ((List.pairwise_map.mp m.prevPresent_nodup).sublist List.filter_sublist)
      intro old old' hne r hr r' hr'
      rw [(renameOf?_eq_some hr).1, (renameOf?_eq_some hr').1]
      exact hne
    exact hold.imp fun hne heq => hne (congrArg RenamePair.oldPath heq)
  refine (List.perm_ext_iff_of_nodup hnodup (nodup_renames horder)).mpr ?_
  intro r
  rw [mem_renames horder]
  constructor
  · intro h
    obtain ⟨old, hold, hr⟩ := List.mem_filterMap.mp h
    exact (renameOfGroup_eq_some.mp ((heach old hold).symm.trans hr)).1
  · intro h
    have hold := mem_olds.mpr ⟨h.old, h.gone⟩
    exact List.mem_filterMap.mpr
      ⟨_, hold, (heach _ hold).trans (renameOfGroup_eq_some.mpr ⟨h, rfl⟩)⟩

/-! ## The deletions -/

/-- The files that `record_deletions` deletes after the renames. -/
def deletions (m : WalkComparison) (order : List String) : List (String × PrevFile) :=
  deletedFiles m.prevPresent m.walkedPaths ((m.renames order).map RenamePair.oldPath)

lemma mem_deletions (horder : GroupOrder m.olds order) {old : String × PrevFile} :
    old ∈ m.deletions order ↔ old ∈ m.prevPresent ∧ old.1 ∉ m.walkedPaths ∧
      ∀ r, m.IsRename r → r.oldPath ≠ old.1 := by
  simp only [deletions, deletedFiles, List.mem_filter, List.mem_map, mem_renames horder,
    decide_not, Bool.not_eq_true', decide_eq_false_iff_not, not_or, not_exists, not_and]

/-- How many times a file of the previous generation is accounted for: as a file that was
walked, as the old side of a rename and by a tombstone. -/
def accounts (m : WalkComparison) (order : List String) (tombstones : List Tombstone)
    (path : String) : ℕ :=
  (if path ∈ m.walkedPaths then 1 else 0) +
    (m.renames order).countP (fun r => r.oldPath = path) +
      tombstones.countP fun t => t.lastPath = path

/-- A file that is not walked is the old side of a rename or deleted, never both. -/
lemma accounts_eq_one (horder : GroupOrder m.olds order) (H : Hasher) (ws gid : String)
    (now : Timestamp) (c : Catalogue) {old : String × PrevFile} (hold : old ∈ m.prevPresent) :
    m.accounts order
      ((m.deletions order).map fun old => tombstoneRow H ws gid now c old.1 old.2) old.1 = 1 := by
  have hrenames := countP_key_eq_ite ((renames_pairwise horder).imp And.left) old.1
  have hpaths : (m.deletions order).Pairwise fun a b => a.1 ≠ b.1 :=
    (List.pairwise_map.mp m.prevPresent_nodup).sublist List.filter_sublist
  have htombstones : ((m.deletions order).map fun old =>
      tombstoneRow H ws gid now c old.1 old.2).countP (fun t => t.lastPath = old.1) =
        if old.1 ∈ (m.deletions order).map Prod.fst then 1 else 0 := by
    rw [List.countP_map]
    exact countP_key_eq_ite hpaths old.1
  have hdeleted : old.1 ∈ (m.deletions order).map Prod.fst ↔
      old.1 ∉ m.walkedPaths ∧ ∀ r, m.IsRename r → r.oldPath ≠ old.1 := by
    rw [List.mem_map]
    constructor
    · rintro ⟨old', hold', heq⟩
      obtain ⟨-, hgone, hnone⟩ := (mem_deletions horder).mp hold'
      exact ⟨heq ▸ hgone, fun r hr => heq ▸ hnone r hr⟩
    · intro h
      exact ⟨old, (mem_deletions horder).mpr ⟨hold, h⟩, rfl⟩
  have hrenamed : old.1 ∈ (m.renames order).map RenamePair.oldPath ↔
      ∃ r, m.IsRename r ∧ r.oldPath = old.1 := by
    simp only [List.mem_map, mem_renames horder]
  rw [accounts, hrenames, htombstones]
  by_cases hwalked : old.1 ∈ m.walkedPaths
  · -- a rename has an old side that is not walked
    have hnone : ¬ ∃ r, m.IsRename r ∧ r.oldPath = old.1 := by
      rintro ⟨r, hr, heq⟩
      exact hr.gone (heq ▸ hwalked)
    rw [if_pos hwalked, if_neg fun h => hnone (hrenamed.mp h),
      if_neg fun h => (hdeleted.mp h).1 hwalked]
  · by_cases hsome : ∃ r, m.IsRename r ∧ r.oldPath = old.1
    · obtain ⟨r, hr, heq⟩ := hsome
      rw [if_neg hwalked, if_pos (hrenamed.mpr ⟨r, hr, heq⟩),
        if_neg fun h => (hdeleted.mp h).2 r hr heq]
    · have hnone : ∀ r, m.IsRename r → r.oldPath ≠ old.1 :=
        fun r hr heq => hsome ⟨r, hr, heq⟩
      rw [if_neg hwalked, if_neg fun h => hsome (hrenamed.mp h),
        if_pos (hdeleted.mpr ⟨hwalked, hnone⟩)]

/-- The renames are the unambiguous pairs of equal content, a partial bijection that no order
of the maps changes, and the deletions account for the rest of the previous generation. -/
theorem renames_and_deletions_exact (m : WalkComparison) {order : List String}
    (horder : GroupOrder m.olds order) :
    (∀ r, r ∈ m.renames order ↔ m.IsRename r) ∧
    (m.renames order).Pairwise (fun r s => r.oldPath ≠ s.oldPath ∧ r.newPath ≠ s.newPath) ∧
    (∀ m' order', Reordered m m' → GroupOrder m'.olds order' →
      (m.renames order).Perm (m'.renames order')) ∧
    ∀ (H : Hasher) (ws gid : String) (now : Timestamp) (c c' : Catalogue) (n : ℕ),
      recordDeletions H ws gid now c m.prevPresent m.walkedPaths
        ((m.renames order).map RenamePair.oldPath) = .ok (c', n) →
      ∃ gone : List (String × PrevFile),
        (∀ old, old ∈ gone ↔ old ∈ m.prevPresent ∧ old.1 ∉ m.walkedPaths ∧
          ∀ r, m.IsRename r → r.oldPath ≠ old.1) ∧
        n = gone.length ∧
        c'.fileIdentity = markedDeleted c.fileIdentity gone now ∧
        c'.lifecycleEvent.rows = c.lifecycleEvent.rows ++
          gone.map (fun old => deletedEvent H ws gid now old.1 old.2) ∧
        c'.tombstone.rows = c.tombstone.rows ++
          gone.map (fun old => tombstoneRow H ws gid now c old.1 old.2) ∧
        ∀ old ∈ m.prevPresent,
          m.accounts order (gone.map fun old => tombstoneRow H ws gid now c old.1 old.2)
            old.1 = 1 := by
  refine ⟨fun r => mem_renames horder, renames_pairwise horder,
    fun m' order' h h' => renames_perm h horder h', ?_⟩
  intro H ws gid now c c' n h
  simp only [recordDeletions, bind_ok] at h
  obtain ⟨c₁, hloop, h⟩ := h
  obtain ⟨rfl, rfl⟩ := Prod.mk.inj (Except.ok.inj h)
  obtain ⟨-, events, tombstones, hevents, htombs, rfl⟩ := recordDeletionLoop_ok.mp hloop
  exact ⟨m.deletions order, fun old => mem_deletions horder, rfl, rfl, hevents, htombs,
    fun old hold => accounts_eq_one horder H ws gid now c hold⟩

/-! ## A walk with a rename and two ambiguous files -/

/-- The file `a` moved to `b`, `k` stayed, and one of `c` and `d` may have moved to `e`. -/
def oneMoved : WalkComparison where
  prevPresent := [("a", ⟨"fa", "1"⟩), ("c", ⟨"fc", "2"⟩), ("d", ⟨"fd", "2"⟩), ("k", ⟨"fk", "3"⟩)]
  walkedPaths := ["b", "e", "k"]
  newPresentHashes := [("b", "1"), ("e", "2"), ("k", "3")]
  prevPresent_nodup := by decide
  newPresentHashes_nodup := by decide

/-- The catalogue of the files that are gone. -/
def oneMovedCatalogue : Catalogue :=
  { Catalogue.registered ["ws"] with
    indexGeneration := Table.empty.insertOrIgnore
      ⟨"g", "ws", none, 1, .committed, .baseline, none, "", "1", 0, some 0, none, none, .zero⟩
    fileIdentity := (Table.empty.insertOrIgnore
      ⟨"fc", "ws", .created, 0, 0, .current, "c"⟩).insertOrIgnore
      ⟨"fd", "ws", .created, 0, 0, .current, "d"⟩ }

lemma groupOrder_oneMoved : GroupOrder oneMoved.olds ["2", "1"] where
  nodup := by decide
  mem_iff hash := by
    have holds : oneMoved.olds = [("a", ⟨"fa", "1"⟩), ("c", ⟨"fc", "2"⟩), ("d", ⟨"fd", "2"⟩)] := by
      decide
    simp [holds, eq_comm, or_comm]

theorem renames_and_deletions_exact_oneMoved :
    oneMoved.IsRename ⟨"a", "b", "fa", "1"⟩ ∧
      ∃ (c' : Catalogue) (gone : List (String × PrevFile)),
        recordDeletions Hasher.plain "ws" "g" 0 oneMovedCatalogue oneMoved.prevPresent
          oneMoved.walkedPaths ["a"] = .ok (c', 2) ∧
        gone.length = 2 ∧
        ∀ old ∈ oneMoved.prevPresent,
          oneMoved.accounts ["2", "1"] (gone.map fun old =>
            tombstoneRow Hasher.plain "ws" "g" 0 oneMovedCatalogue old.1 old.2) old.1 = 1 := by
  have hrenames : oneMoved.renames ["2", "1"] = [⟨"a", "b", "fa", "1"⟩] := by decide
  obtain ⟨hexact, -, -, hdeletions⟩ :=
    renames_and_deletions_exact oneMoved groupOrder_oneMoved
  obtain ⟨c', hrun⟩ : ∃ c', recordDeletions Hasher.plain "ws" "g" 0 oneMovedCatalogue
      oneMoved.prevPresent oneMoved.walkedPaths ["a"] = .ok (c', 2) := ⟨_, rfl⟩
  have hpaths : (oneMoved.renames ["2", "1"]).map RenamePair.oldPath = ["a"] := by
    rw [hrenames]
    rfl
  obtain ⟨gone, -, hlength, -, -, -, haccounts⟩ :=
    hdeletions Hasher.plain "ws" "g" 0 oneMovedCatalogue c' 2 (by rw [hpaths, hrun])
  exact ⟨(hexact _).mp (by simp [hrenames]), c', gone, hrun, hlength.symm, haccounts⟩

end WalkComparison

end WorkspaceAtlas
