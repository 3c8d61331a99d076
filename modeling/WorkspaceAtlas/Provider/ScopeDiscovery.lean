/-
# The scopes that are found

The scopes that are found are those of the directories that hold a marker file and are not below
one that is skipped, one for each of them.  So they depend on the files and their paths only, not
on the order in which the file system lists them.
-/
import WorkspaceAtlas.Provider.ProjectScope

namespace WorkspaceAtlas

open Relational Text Transition

namespace ProjectScopes

/-! ## The files of a workspace -/

/-- The directories below a directory that are not skipped. -/
def below : List String → Folder → List Place
  | _, .nil => []
  | path, .file _ _ rest => below path rest
  | path, .dir name entries rest =>
    (if name ∈ skipDirNames then []
      else (path ++ [name], entries) :: below (path ++ [name]) entries) ++ below path rest

/-- A directory and those below it. -/
def places (place : Place) : List Place := place :: below place.1 place.2

/-- A workspace: its root, and what the file system has there. -/
structure Workspace where
  root : List String
  tree : Folder
  rootNames : ∀ name ∈ root, Folder.IsEntryName name
  proper : tree.Proper

/-- The files in some directories, with their paths. -/
def filesOf (ps : List Place) : List (List String × Content) :=
  ps.flatMap fun place => place.2.files.map fun f => (place.1 ++ [f.1], f.2)

/-- The files that are not below a directory that is skipped. -/
def Workspace.files (w : Workspace) : List (List String × Content) :=
  filesOf (places (w.root, w.tree))

/-- `discover_project_scopes`, of a workspace. -/
def Workspace.discover (H : Hasher) (w : Workspace) (markers : List MarkerRule) :
    Except AtlasError (List ProjectScope) :=
  discoverProjectScopes H w.root w.tree markers

/-! ## The scopes -/

/-- There is a file at a path. -/
def holds (files : List (List String × Content)) (path : List String) : Bool :=
  files.any fun f => f.1 = path

/-- The rule that a directory matches. -/
def ruleAt (markers : List MarkerRule) (files : List (List String × Content))
    (dir : List String) : Option MarkerRule :=
  markers.find? fun rule => holds files (dir ++ [rule.fileName])

/-- What a rule makes of its directory, in terms of the files of the workspace. -/
structure Describes (H : Hasher) (files : List (List String × Content)) (rule : MarkerRule)
    (scope : ProjectScope) : Prop where
  kind : scope.scopeKind = rule.scopeKind
  language : scope.languageFamily = rule.languageFamily
  policy : scope.owningPolicyVersion = scopePolicyVersion
  manifest : scope.primaryManifestPath = scope.canonicalRoot ++ [rule.fileName]
  manifestHash : ∃ bytes, (scope.canonicalRoot ++ [rule.fileName], .ok bytes) ∈ files ∧
    scope.primaryManifestHash = contentHashOfBytes H bytes
  sorted : scope.relevantConfigHashes.Pairwise fun a b => a.1 < b.1
  relevant : ∀ sibling hash, (sibling, hash) ∈ scope.relevantConfigHashes ↔
    sibling ∈ siblingNames ∧ sibling ≠ rule.fileName ∧
      ∃ bytes, (scope.canonicalRoot ++ [sibling], .ok bytes) ∈ files ∧
        hash = contentHashOfBytes H bytes

/-- The scope of a directory that matches a rule. -/
def IsScope (H : Hasher) (markers : List MarkerRule) (files : List (List String × Content))
    (scope : ProjectScope) : Prop :=
  ∃ rule, ruleAt markers files scope.canonicalRoot = some rule ∧ Describes H files rule scope

/-- A file that takes part in the identity of a scope cannot be read. -/
def Unreadable (markers : List MarkerRule) (files : List (List String × Content))
    (message : String) : Prop :=
  ∃ dir rule name, ruleAt markers files dir = some rule ∧
    (name = rule.fileName ∨ name ∈ siblingNames) ∧ (dir ++ [name], .error message) ∈ files

section Lemmas

variable {H : Hasher} {markers : List MarkerRule} {path : List String} {f : Folder}
  {place place' : Place} {ps : List Place} {name : String} {content : Content} {w w' : Workspace}

/-! ## The walk -/

lemma below_eq : ∀ (path : List String) (f : Folder),
    below path f = (entered id (path, f)).flatMap places
  | _, .nil => rfl
  | path, .file _ _ rest => below_eq path rest
  | path, .dir name entries rest => by
    have hrest := below_eq path rest
    rw [below, hrest]
    by_cases hskip : name ∈ skipDirNames
    · rw [if_pos hskip, List.nil_append]
      simp only [entered, Folder.dirs, id_eq]
      rw [List.filter_cons_of_neg (by simpa using hskip)]
    · rw [if_neg hskip]
      simp only [entered, Folder.dirs, id_eq]
      rw [List.filter_cons_of_pos (by simpa using hskip)]
      rfl

/-- The walk visits the directories that are not skipped, whatever order they are pushed in. -/
lemma walk_enumerates {order : List (String × Folder) → List (String × Folder)}
    (h : ∀ l, (order l).Perm l) : (walk order h).Enumerates places := by
  intro place
  rw [places, below_eq]
  refine List.Perm.cons _ (List.Perm.flatMap_right _ ?_)
  show (entered id place).Perm (entered order place)
  exact (((h _).symm).filter _).map _

/-- Paths below a directory go on with the name of one of its entries. -/
lemma path_of_mem_below : ∀ {path : List String} {f : Folder}, place ∈ below path f →
    ∃ name ∈ f.names, ∃ rest, place.1 = path ++ name :: rest
  | _, .nil, h => absurd h List.not_mem_nil
  | path, .file _ _ rest, h => by
    obtain ⟨name, hname, tail, heq⟩ := path_of_mem_below (f := rest) h
    exact ⟨name, List.mem_cons_of_mem _ hname, tail, heq⟩
  | path, .dir name entries rest, h => by
    rcases List.mem_append.mp h with h | h
    · split at h
      · exact absurd h List.not_mem_nil
      · rcases List.mem_cons.mp h with rfl | h
        · exact ⟨name, List.mem_cons_self, [], rfl⟩
        · obtain ⟨_, _, tail, heq⟩ := path_of_mem_below h
          exact ⟨name, List.mem_cons_self, _, by rw [heq, List.append_assoc]; rfl⟩
    · obtain ⟨name', hname, tail, heq⟩ := path_of_mem_below h
      exact ⟨name', List.mem_cons_of_mem _ hname, tail, heq⟩

lemma ne_of_mem_below (h : place ∈ below path f) : place.1 ≠ path := by
  obtain ⟨name, -, rest, heq⟩ := path_of_mem_below h
  rw [heq]
  simp

/-- No two directories have the same path. -/
lemma nodup_below : ∀ {path : List String} {f : Folder}, f.Proper →
    ((below path f).map Prod.fst).Nodup
  | _, .nil, _ => List.nodup_nil
  | _, .file _ _ rest, h => nodup_below (f := rest) h.2.2
  | path, .dir name entries rest, h => by
    have hrest : ((below path rest).map Prod.fst).Nodup := nodup_below h.2.2.2
    rw [below, List.map_append]
    split
    · exact hrest
    · refine List.Nodup.append ?_ hrest ?_
      · rw [List.map_cons, List.nodup_cons]
        refine ⟨fun hmem => ?_, nodup_below h.2.2.1⟩
        obtain ⟨place, hplace, heq⟩ := List.mem_map.mp hmem
        exact ne_of_mem_below hplace heq
      · -- the paths on the left go on with `name`, which is no name of the rest
        intro p hleft hright
        obtain ⟨place, hplace, rfl⟩ := List.mem_map.mp hright
        obtain ⟨name', hname', tail', heq'⟩ := path_of_mem_below hplace
        obtain ⟨place', hplace', heq⟩ := List.mem_map.mp hleft
        have hname : ∃ tail, place'.1 = path ++ name :: tail := by
          rcases List.mem_cons.mp hplace' with rfl | hbelow
          · exact ⟨[], rfl⟩
          · obtain ⟨_, _, tail, hpath⟩ := path_of_mem_below hbelow
            exact ⟨_, by rw [hpath, List.append_assoc]; rfl⟩
        obtain ⟨tail, hpath⟩ := hname
        rw [← heq, hpath] at heq'
        obtain ⟨rfl, -⟩ := List.cons.inj (List.append_cancel_left heq')
        exact h.2.1 hname'

lemma nodup_places (place : Place) (h : place.2.Proper) : ((places place).map Prod.fst).Nodup := by
  rw [places, List.map_cons, List.nodup_cons]
  refine ⟨fun hmem => ?_, nodup_below h⟩
  obtain ⟨place', hplace', heq⟩ := List.mem_map.mp hmem
  exact ne_of_mem_below hplace' heq

lemma proper_of_mem_below : ∀ {path : List String} {f : Folder}, f.Proper →
    place ∈ below path f → place.2.Proper
  | _, .nil, _, h => absurd h List.not_mem_nil
  | _, .file _ _ rest, hproper, h => proper_of_mem_below (f := rest) hproper.2.2 h
  | path, .dir name entries rest, hproper, h => by
    rcases List.mem_append.mp h with h | h
    · split at h
      · exact absurd h List.not_mem_nil
      · rcases List.mem_cons.mp h with rfl | h
        · exact hproper.2.2.1
        · exact proper_of_mem_below hproper.2.2.1 h
    · exact proper_of_mem_below hproper.2.2.2 h

lemma proper_of_mem_places (place : Place) (h : place.2.Proper) (hmem : place' ∈ places place) :
    place'.2.Proper := by
  rcases List.mem_cons.mp hmem with rfl | hmem
  · exact h
  · exact proper_of_mem_below h hmem

/-- The names below a directory can be those of entries. -/
lemma entryName_of_mem_below : ∀ {path : List String} {f : Folder}, f.Proper →
    (∀ name ∈ path, Folder.IsEntryName name) → place ∈ below path f →
      ∀ name ∈ place.1, Folder.IsEntryName name
  | _, .nil, _, _, h => absurd h List.not_mem_nil
  | _, .file _ _ rest, hproper, hpath, h =>
    entryName_of_mem_below (f := rest) hproper.2.2 hpath h
  | path, .dir name entries rest, hproper, hpath, h => by
    have hnext : ∀ name' ∈ path ++ [name], Folder.IsEntryName name' := by
      intro name' hname'
      rcases List.mem_append.mp hname' with hname' | hname'
      · exact hpath name' hname'
      · exact List.mem_singleton.mp hname' ▸ hproper.1
    rcases List.mem_append.mp h with h | h
    · split at h
      · exact absurd h List.not_mem_nil
      · rcases List.mem_cons.mp h with rfl | h
        · exact hnext
        · exact entryName_of_mem_below hproper.2.2.1 hnext h
    · exact entryName_of_mem_below hproper.2.2.2 hpath h

lemma mem_names_of_mem_files : ∀ {f : Folder}, (name, content) ∈ f.files → name ∈ f.names
  | .nil, h => absurd h List.not_mem_nil
  | .file _ _ rest, h => by
    rcases List.mem_cons.mp h with h | h
    · obtain ⟨rfl, -⟩ := Prod.mk.inj h
      exact List.mem_cons_self
    · exact List.mem_cons_of_mem _ (mem_names_of_mem_files h)
  | .dir _ _ rest, h => List.mem_cons_of_mem _ (mem_names_of_mem_files (f := rest) h)

/-- Looking a file up by its name. -/
lemma lookup_files_iff : ∀ {f : Folder}, f.Proper →
    (f.files.lookup name = some content ↔ (name, content) ∈ f.files)
  | .nil, _ => by simp [Folder.files]
  | .dir _ _ rest, h => lookup_files_iff (f := rest) h.2.2.2
  | .file name' content' rest, h => by
    rw [Folder.files, List.lookup_cons]
    by_cases heq : name = name'
    · subst heq
      have hnot : (name, content) ∉ rest.files := fun hmem => h.2.1 (mem_names_of_mem_files hmem)
      simp only [beq_self_eq_true, Option.some_inj, List.mem_cons, Prod.mk.injEq, true_and, hnot,
        or_false]
      exact eq_comm
    · rw [beq_eq_false_iff_ne.mpr heq]
      simp only [List.mem_cons, Prod.mk.injEq, heq, false_and, false_or]
      exact lookup_files_iff h.2.2

/-- A file is in the directory of its path. -/
lemma mem_filesOf_iff (hnodup : (ps.map Prod.fst).Nodup) (hplace : place ∈ ps) :
    (place.1 ++ [name], content) ∈ filesOf ps ↔ (name, content) ∈ place.2.files := by
  simp only [filesOf, List.mem_flatMap, List.mem_map, Prod.mk.injEq, Prod.exists]
  constructor
  · rintro ⟨path, f, hmem, name', content', hfile, hpath, rfl⟩
    obtain ⟨rfl, hname⟩ := List.append_inj' hpath rfl
    obtain ⟨rfl, -⟩ := List.cons.inj hname
    have heq := List.inj_on_of_nodup_map hnodup hmem hplace rfl
    rw [← heq]
    exact hfile
  · intro hfile
    exact ⟨place.1, place.2, hplace, name, content, hfile, rfl, rfl⟩

/-! ## The scope of a directory -/

lemma map_eq_ok {α β ε : Type} {g : α → β} {r : Except ε α} {b : β} :
    r.map g = .ok b ↔ ∃ a, r = .ok a ∧ g a = b := by
  cases r with
  | error e => simp [Except.map]
  | ok a => simp [Except.map]

lemma map_eq_error {α β ε : Type} {g : α → β} {r : Except ε α} {e : ε} :
    r.map g = .error e ↔ r = .error e := by
  cases r with
  | error e => simp [Except.map]
  | ok a => simp [Except.map]

/-- A list whose items cannot all be mapped has one that cannot be. -/
lemma mapM_eq_error {α β ε : Type} {g : α → Except ε β} {l : List α} {e : ε}
    (h : l.mapM g = .error e) : ∃ a ∈ l, g a = .error e := by
  induction l with
  | nil => nomatch h
  | cons a l ih =>
    rw [List.mapM_cons] at h
    cases ha : g a with
    | error e' =>
      rw [ha] at h
      obtain rfl := Except.error.inj h
      exact ⟨a, List.mem_cons_self, ha⟩
    | ok b =>
      cases hrest : l.mapM g with
      | error e' =>
        simp only [ha, hrest, bind, Except.bind, Except.error.injEq] at h
        obtain ⟨a', hmem, ha'⟩ := ih (h ▸ hrest)
        exact ⟨a', List.mem_cons_of_mem _ hmem, ha'⟩
      | ok bs =>
        simp only [ha, hrest, bind, Except.bind] at h
        nomatch h

lemma contentHashOfFile_eq_ok (h : f.Proper) {hash : String} :
    contentHashOfFile H f.files name = .ok hash ↔
      ∃ bytes, (name, .ok bytes) ∈ f.files ∧ hash = contentHashOfBytes H bytes := by
  have hlookup : ∀ content, f.files.lookup name = some content ↔ (name, content) ∈ f.files :=
    fun _ => lookup_files_iff h
  rw [contentHashOfFile]
  cases heq : f.files.lookup name with
  | none =>
    refine ⟨nofun, fun ⟨bytes, hmem, _⟩ => ?_⟩
    rw [← hlookup, heq] at hmem
    nomatch hmem
  | some content =>
    have hmem := (hlookup content).mp heq
    cases content with
    | error message =>
      refine ⟨nofun, fun ⟨bytes, hmem', _⟩ => ?_⟩
      rw [← hlookup, heq] at hmem'
      nomatch hmem'
    | ok bytes =>
      constructor
      · intro hok
        exact ⟨bytes, hmem, (Except.ok.inj hok).symm⟩
      · rintro ⟨bytes', hmem', rfl⟩
        rw [← hlookup, heq] at hmem'
        obtain rfl := Except.ok.inj (Option.some.inj hmem')
        rfl

/-- A file that is there and cannot be hashed cannot be read. -/
lemma contentHashOfFile_eq_error (h : f.Proper) (hfile : hasFile f.files name = true)
    {e : AtlasError} (herror : contentHashOfFile H f.files name = .error e) :
    ∃ message, (name, .error message) ∈ f.files ∧ e = .io message := by
  obtain ⟨⟨name', content⟩, hmem, heq⟩ := List.any_eq_true.mp hfile
  obtain rfl : name' = name := of_decide_eq_true heq
  have hlookup := (lookup_files_iff h).mpr hmem
  rw [contentHashOfFile, hlookup] at herror
  cases content with
  | error message => exact ⟨message, hmem, (Except.error.inj herror).symm⟩
  | ok bytes => nomatch herror

lemma hasFile_of_ok (h : f.Proper) {hash : String}
    (hok : contentHashOfFile H f.files name = .ok hash) : hasFile f.files name = true := by
  obtain ⟨bytes, hmem, -⟩ := (contentHashOfFile_eq_ok h).mp hok
  exact List.any_eq_true.mpr ⟨_, hmem, decide_eq_true rfl⟩

/-- The files next to a manifest are hashed, in the order of their names. -/
lemma relevantConfigs_eq_ok (h : f.Proper) {manifest : String} {relevant : List (String × String)}
    (hok : relevantConfigs H f.files manifest = .ok relevant) :
    relevant.Pairwise (fun a b => a.1 < b.1) ∧ ∀ sibling hash, (sibling, hash) ∈ relevant ↔
      sibling ∈ siblingNames ∧ sibling ≠ manifest ∧
        contentHashOfFile H f.files sibling = .ok hash := by
  obtain ⟨hashed, hmapM, rfl⟩ := map_eq_ok.mp hok
  have hall := mapM_ok_iff.mp hmapM
  have hnames : hashed.map Prod.fst =
      siblingNames.filter fun sibling => sibling ≠ manifest ∧ hasFile f.files sibling = true := by
    refine Eq.symm (List.forall₂_eq_eq_eq ▸ List.forall₂_map_right_iff.mpr (hall.imp ?_))
    intro sibling config hconfig
    obtain ⟨_, -, rfl⟩ := map_eq_ok.mp hconfig
    rfl
  have hnodup : (hashed.map Prod.fst).Nodup := by
    rw [hnames]
    exact (show siblingNames.Nodup by decide).filter _
  refine ⟨pairwise_lt_orderBy hnodup.of_map fun a ha b hb heq =>
    List.inj_on_of_nodup_map hnodup ha hb heq, fun sibling hash => ?_⟩
  rw [mem_orderBy]
  constructor
  · intro hmem
    obtain ⟨sibling', hsibling', hconfig⟩ := exists_left_of_forall₂ hall hmem
    obtain ⟨hash', hhash, heq⟩ := map_eq_ok.mp hconfig
    obtain ⟨rfl, rfl⟩ := Prod.mk.inj heq
    obtain ⟨hin, hcond⟩ := List.mem_filter.mp hsibling'
    exact ⟨hin, (of_decide_eq_true hcond).1, hhash⟩
  · rintro ⟨hin, hne, hhash⟩
    have hmem : sibling ∈ siblingNames.filter
        fun sibling => sibling ≠ manifest ∧ hasFile f.files sibling = true :=
      List.mem_filter.mpr ⟨hin, decide_eq_true ⟨hne, hasFile_of_ok h hhash⟩⟩
    obtain ⟨config, hconfig, heq⟩ := exists_right_of_forall₂ hall hmem
    rw [hhash] at heq
    obtain rfl := Except.ok.inj heq
    exact hconfig

/-- A sibling that is there is hashed. -/
lemma hashed_of_relevantConfigs {manifest : String} {relevant : List (String × String)}
    (hok : relevantConfigs H f.files manifest = .ok relevant) (hsibling : name ∈ siblingNames)
    (hne : name ≠ manifest) (hfile : hasFile f.files name = true) :
    ∃ hash, contentHashOfFile H f.files name = .ok hash := by
  obtain ⟨hashed, hmapM, -⟩ := map_eq_ok.mp hok
  have hmem : name ∈ siblingNames.filter
      fun sibling => sibling ≠ manifest ∧ hasFile f.files sibling = true :=
    List.mem_filter.mpr ⟨hsibling, decide_eq_true ⟨hne, hfile⟩⟩
  obtain ⟨config, -, heq⟩ := exists_right_of_forall₂ (mapM_ok_iff.mp hmapM) hmem
  obtain ⟨hash, hhash, -⟩ := map_eq_ok.mp heq
  exact ⟨hash, hhash⟩

/-! ## The scopes of a workspace -/

lemma holds_iff {files : List (List String × Content)} :
    holds files path = true ↔ ∃ content, (path, content) ∈ files := by
  rw [holds, List.any_eq_true]
  constructor
  · rintro ⟨⟨path', content⟩, hmem, heq⟩
    obtain rfl : path' = path := of_decide_eq_true heq
    exact ⟨content, hmem⟩
  · rintro ⟨content, hmem⟩
    exact ⟨_, hmem, decide_eq_true rfl⟩

lemma hasFile_iff {files : List (String × Content)} :
    hasFile files name = true ↔ ∃ content, (name, content) ∈ files := by
  rw [hasFile, List.any_eq_true]
  constructor
  · rintro ⟨⟨name', content⟩, hmem, heq⟩
    obtain rfl : name' = name := of_decide_eq_true heq
    exact ⟨content, hmem⟩
  · rintro ⟨content, hmem⟩
    exact ⟨_, hmem, decide_eq_true rfl⟩

namespace Workspace

lemma mem_files_iff (hplace : place ∈ places (w.root, w.tree)) :
    (place.1 ++ [name], content) ∈ w.files ↔ (name, content) ∈ place.2.files :=
  mem_filesOf_iff (nodup_places (w.root, w.tree) w.proper) hplace

lemma proper_of_mem (hplace : place ∈ places (w.root, w.tree)) : place.2.Proper :=
  proper_of_mem_places (w.root, w.tree) w.proper hplace

lemma entryName_of_mem (hplace : place ∈ places (w.root, w.tree)) :
    ∀ name ∈ place.1, Folder.IsEntryName name := by
  rcases List.mem_cons.mp hplace with rfl | hplace
  · exact w.rootNames
  · exact entryName_of_mem_below w.proper w.rootNames hplace

/-- The directory of a file. -/
lemma exists_place (h : (path, content) ∈ w.files) :
    ∃ place ∈ places (w.root, w.tree), ∃ name, path = place.1 ++ [name] ∧
      (name, content) ∈ place.2.files := by
  obtain ⟨place, hplace, hmem⟩ := List.mem_flatMap.mp h
  obtain ⟨⟨name, content'⟩, hfile, heq⟩ := List.mem_map.mp hmem
  obtain ⟨rfl, rfl⟩ := Prod.mk.inj heq
  exact ⟨place, hplace, name, rfl, hfile⟩

/-- A path is that of one file. -/
lemma content_unique {content' : Content} (h : (path, content) ∈ w.files)
    (h' : (path, content') ∈ w.files) : content = content' := by
  obtain ⟨place, hplace, name, rfl, hfile⟩ := exists_place h
  have hlookup := (lookup_files_iff (proper_of_mem hplace)).mpr hfile
  have hlookup' := (lookup_files_iff (proper_of_mem hplace)).mpr ((mem_files_iff hplace).mp h')
  exact Option.some.inj (hlookup.symm.trans hlookup')

lemma ruleAt_eq (hplace : place ∈ places (w.root, w.tree)) :
    ruleAt markers w.files place.1 =
      markers.find? fun rule => hasFile place.2.files rule.fileName := by
  rw [ruleAt]
  congr 1
  funext rule
  rw [Bool.eq_iff_iff, holds_iff, hasFile_iff]
  exact exists_congr fun _ => mem_files_iff hplace

/-- A directory that matches a rule is one of those that are visited. -/
lemma place_of_ruleAt {rule : MarkerRule} (h : ruleAt markers w.files path = some rule) :
    ∃ place ∈ places (w.root, w.tree), place.1 = path := by
  have hholds := List.find?_some (p := fun rule : MarkerRule =>
    holds w.files (path ++ [rule.fileName])) h
  obtain ⟨content, hmem⟩ := holds_iff.mp hholds
  obtain ⟨place, hplace, name, heq, -⟩ := exists_place hmem
  exact ⟨place, hplace, (List.append_inj_left' heq rfl).symm⟩

/-- A rule makes one scope of a directory. -/
lemma describes_unique {rule : MarkerRule} {scope scope' : ProjectScope}
    (h : Describes H w.files rule scope) (h' : Describes H w.files rule scope')
    (heq : scope.canonicalRoot = scope'.canonicalRoot) : scope = scope' := by
  obtain ⟨bytes, hbytes, hhash⟩ := h.manifestHash
  obtain ⟨bytes', hbytes', hhash'⟩ := h'.manifestHash
  rw [heq] at hbytes
  obtain rfl := Except.ok.inj (content_unique hbytes hbytes')
  have hmem : ∀ config, config ∈ scope.relevantConfigHashes ↔
      config ∈ scope'.relevantConfigHashes := by
    rintro ⟨sibling, hash⟩
    rw [h.relevant, h'.relevant, heq]
  have hrelevant : scope.relevantConfigHashes = scope'.relevantConfigHashes := by
    refine List.Perm.eq_of_pairwise (fun a b _ _ hab hba => ?_) h.sorted h'.sorted
      ((List.perm_ext_iff_of_nodup (h.sorted.imp fun hlt heq => ?_)
        (h'.sorted.imp fun hlt heq => ?_)).mpr hmem)
    · exact absurd hba hab.not_gt
    · exact absurd hlt (heq ▸ lt_irrefl _)
    · exact absurd hlt (heq ▸ lt_irrefl _)
  cases scope
  cases scope'
  simp only [ProjectScope.mk.injEq]
  exact ⟨heq, h.kind.trans h'.kind.symm,
    h.manifest.trans ((congrArg (· ++ [rule.fileName]) heq).trans h'.manifest.symm),
    hhash.trans hhash'.symm, hrelevant, h.language.trans h'.language.symm,
    h.policy.trans h'.policy.symm⟩

/-- What is found in a directory. -/
lemma scopesAt_eq_ok (hplace : place ∈ places (w.root, w.tree)) {scopes : List ProjectScope}
    (h : scopesAt H markers place = .ok scopes) :
    scopes.length ≤ 1 ∧ (∀ scope, scope ∈ scopes ↔
      scope.canonicalRoot = place.1 ∧ IsScope H markers w.files scope) ∧
      ∀ rule name message, ruleAt markers w.files place.1 = some rule →
        (name = rule.fileName ∨ name ∈ siblingNames) →
          (place.1 ++ [name], .error message) ∉ w.files := by
  have hrule : ruleAt markers w.files place.1 =
      markers.find? fun rule => hasFile place.2.files rule.fileName := ruleAt_eq hplace
  have hproper := proper_of_mem hplace
  rw [scopesAt, ← hrule] at h
  cases hfind : ruleAt markers w.files place.1 with
  | none =>
    rw [hfind] at h
    obtain rfl := Except.ok.inj h
    refine ⟨Nat.zero_le _, fun scope => ⟨fun hmem => absurd hmem List.not_mem_nil, ?_⟩, nofun⟩
    rintro ⟨heq, rule, hsome, -⟩
    rw [heq, hfind] at hsome
    nomatch hsome
  | some rule =>
    rw [hfind] at h
    obtain ⟨scope, hunder, rfl⟩ := map_eq_ok.mp h
    obtain ⟨manifestHash, hmanifest, hrest⟩ := bind_ok.mp hunder
    obtain ⟨relevant, hrelevant, hscope⟩ := bind_ok.mp hrest
    obtain ⟨bytes, hbytes, rfl⟩ := (contentHashOfFile_eq_ok hproper).mp hmanifest
    obtain ⟨hsorted, hiff⟩ := relevantConfigs_eq_ok hproper hrelevant
    have hdescribes : Describes H w.files rule scope := by
      obtain rfl := Except.ok.inj hscope
      refine ⟨rfl, rfl, rfl, rfl, ⟨bytes, (mem_files_iff hplace).mpr hbytes, rfl⟩, hsorted,
        fun sibling hash => ?_⟩
      rw [hiff, contentHashOfFile_eq_ok hproper]
      simp only [mem_files_iff hplace]
    have hroot : scope.canonicalRoot = place.1 := by
      obtain rfl := Except.ok.inj hscope
      rfl
    refine ⟨le_rfl, fun scope' => ?_, fun rule' name message hsome hname herror => ?_⟩
    · rw [List.mem_singleton]
      constructor
      · rintro rfl
        exact ⟨hroot, rule, hroot ▸ hfind, hdescribes⟩
      · rintro ⟨heq, rule', hsome, hdescribes'⟩
        rw [heq, hfind] at hsome
        obtain rfl := Option.some.inj hsome
        exact describes_unique hdescribes' hdescribes (heq.trans hroot.symm)
    · obtain rfl := Option.some.inj hsome
      have herror' := (mem_files_iff hplace).mp herror
      by_cases heq : name = rule.fileName
      · subst heq
        have hboth := content_unique herror ((mem_files_iff hplace).mpr hbytes)
        nomatch hboth
      · obtain ⟨hash, hhash⟩ := hashed_of_relevantConfigs hrelevant (hname.resolve_left heq) heq
          (hasFile_iff.mpr ⟨_, herror'⟩)
        obtain ⟨bytes', hbytes', -⟩ := (contentHashOfFile_eq_ok hproper).mp hhash
        have hboth := content_unique herror ((mem_files_iff hplace).mpr hbytes')
        nomatch hboth

lemma relevantConfigs_eq_error (h : f.Proper) {manifest : String} {e : AtlasError}
    (herror : relevantConfigs H f.files manifest = .error e) :
    ∃ sibling ∈ siblingNames, ∃ message, (sibling, .error message) ∈ f.files ∧
      e = .io message := by
  obtain ⟨sibling, hmem, hhash⟩ := mapM_eq_error (map_eq_error.mp herror)
  obtain ⟨hsibling, hcond⟩ := List.mem_filter.mp hmem
  obtain ⟨message, hmessage, rfl⟩ :=
    contentHashOfFile_eq_error h (of_decide_eq_true hcond).2 (map_eq_error.mp hhash)
  exact ⟨sibling, hsibling, message, hmessage, rfl⟩

/-- A directory in which the search fails has a file that cannot be read. -/
lemma scopesAt_eq_error (hplace : place ∈ places (w.root, w.tree)) {e : AtlasError}
    (h : scopesAt H markers place = .error e) :
    ∃ message, e = .io message ∧ Unreadable markers w.files message := by
  have hrule : ruleAt markers w.files place.1 =
      markers.find? fun rule => hasFile place.2.files rule.fileName := ruleAt_eq hplace
  have hproper := proper_of_mem hplace
  rw [scopesAt, ← hrule] at h
  cases hfind : ruleAt markers w.files place.1 with
  | none =>
    rw [hfind] at h
    nomatch h
  | some rule =>
    rw [hfind] at h
    have hunder := map_eq_error.mp h
    have hfile : hasFile place.2.files rule.fileName = true := by
      rw [hfind] at hrule
      exact List.find?_some (p := fun rule : MarkerRule =>
        hasFile place.2.files rule.fileName) hrule.symm
    rw [scopeUnder] at hunder
    cases hmanifest : contentHashOfFile H place.2.files rule.fileName with
    | error e' =>
      rw [hmanifest] at hunder
      obtain rfl := Except.error.inj hunder
      obtain ⟨message, hmessage, rfl⟩ := contentHashOfFile_eq_error hproper hfile hmanifest
      exact ⟨message, rfl, place.1, rule, _, hfind, Or.inl rfl, (mem_files_iff hplace).mpr hmessage⟩
    | ok hash =>
      rw [hmanifest] at hunder
      cases hrelevant : relevantConfigs H place.2.files rule.fileName with
      | ok relevant =>
        simp only [bind, Except.bind, hrelevant] at hunder
        nomatch hunder
      | error e' =>
        simp only [bind, Except.bind, hrelevant] at hunder
        obtain rfl := Except.error.inj hunder
        obtain ⟨sibling, hsibling, message, hmessage, rfl⟩ :=
          relevantConfigs_eq_error hproper hrelevant
        exact ⟨message, rfl, place.1, rule, sibling, hfind, Or.inr hsibling,
          (mem_files_iff hplace).mpr hmessage⟩

/-- One scope at most is found in a directory, with its path. -/
lemma sublist_roots {ps : List Place} (hps : ∀ place ∈ ps, place ∈ places (w.root, w.tree))
    (hok : ∀ place ∈ ps, ∃ l, scopesAt H markers place = .ok l) :
    ((ps.flatMap (Branching.found (scopesAt H markers))).map ProjectScope.canonicalRoot).Sublist
      (ps.map Prod.fst) := by
  induction ps with
  | nil => exact .slnil
  | cons place ps ih =>
    obtain ⟨scopes, hscopes⟩ := hok place List.mem_cons_self
    obtain ⟨hlength, hmem, -⟩ := scopesAt_eq_ok (hps place List.mem_cons_self) hscopes
    have hrest := ih (fun p hp => hps p (List.mem_cons_of_mem _ hp))
      fun p hp => hok p (List.mem_cons_of_mem _ hp)
    rw [List.flatMap_cons, List.map_append, Branching.found_eq hscopes, List.map_cons]
    have hone : (scopes.map ProjectScope.canonicalRoot).Sublist [place.1] := by
      cases scopes with
      | nil => exact List.nil_sublist _
      | cons scope rest =>
        obtain rfl : rest = [] := List.eq_nil_of_length_eq_zero (by simpa using hlength)
        rw [List.map_singleton, ((hmem scope).mp List.mem_cons_self).1]
    exact hone.append hrest

/-- Two lists that are sorted strictly and have the same scopes are the same. -/
lemma eq_of_sorted {scopes scopes' : List ProjectScope}
    (h : scopes.Pairwise fun a b => a.canonicalRoot < b.canonicalRoot)
    (h' : scopes'.Pairwise fun a b => a.canonicalRoot < b.canonicalRoot)
    (hmem : ∀ scope, scope ∈ scopes ↔ scope ∈ scopes') : scopes = scopes' := by
  have hnodup : ∀ l : List ProjectScope,
      (l.Pairwise fun a b => a.canonicalRoot < b.canonicalRoot) → l.Nodup :=
    fun l hl => hl.imp fun hlt => ne_of_apply_ne _ hlt.ne
  refine List.Perm.eq_of_pairwise (fun a b _ _ hab hba => absurd hba hab.not_gt) h h' ?_
  exact (List.perm_ext_iff_of_nodup (hnodup _ h) (hnodup _ h')).mpr hmem

lemma discover_ok {scopes : List ProjectScope} (h : w.discover H markers = .ok scopes) :
    (¬ ∃ message, Unreadable markers w.files message) ∧
      (scopes.Pairwise fun a b => a.canonicalRoot < b.canonicalRoot) ∧
        ∀ scope, scope ∈ scopes ↔ IsScope H markers w.files scope := by
  obtain ⟨out, hdrain, rfl⟩ := map_eq_ok.mp h
  have hplaces : [(w.root, w.tree)].flatMap places = places (w.root, w.tree) := by simp
  obtain ⟨hok, hperm⟩ := Branching.drain_ok (walk_enumerates _) hdrain
  rw [hplaces] at hok hperm
  have hnodup : (out.map ProjectScope.canonicalRoot).Nodup := by
    refine (hperm.map _).nodup_iff.mpr ?_
    exact (nodup_places (w.root, w.tree) w.proper).sublist
      (sublist_roots (fun _ hplace => hplace) hok)
  refine ⟨?_, pairwise_lt_orderBy hnodup.of_map fun a ha b hb heq =>
    List.inj_on_of_nodup_map hnodup ha hb heq, fun scope => ?_⟩
  · rintro ⟨message, dir, rule, name, hrule, hname, herror⟩
    obtain ⟨place, hplace, rfl⟩ := place_of_ruleAt hrule
    obtain ⟨scopes, hscopes⟩ := hok place hplace
    exact (scopesAt_eq_ok hplace hscopes).2.2 rule name message hrule hname herror
  · rw [mem_orderBy, hperm.mem_iff, List.mem_flatMap]
    constructor
    · rintro ⟨place, hplace, hmem⟩
      obtain ⟨scopes, hscopes⟩ := hok place hplace
      rw [Branching.found_eq hscopes] at hmem
      exact (((scopesAt_eq_ok hplace hscopes).2.1 scope).mp hmem).2
    · intro hscope
      have ⟨rule, hrule, _⟩ := hscope
      obtain ⟨place, hplace, heq⟩ := place_of_ruleAt hrule
      obtain ⟨scopes, hscopes⟩ := hok place hplace
      refine ⟨place, hplace, ?_⟩
      rw [Branching.found_eq hscopes]
      exact ((scopesAt_eq_ok hplace hscopes).2.1 scope).mpr ⟨heq.symm, hscope⟩

/-- A directory that matches a rule has a scope. -/
lemma exists_scope {scopes : List ProjectScope} (h : w.discover H markers = .ok scopes)
    (hrule : ruleAt markers w.files path ≠ none) :
    ∃ scope ∈ scopes, scope.canonicalRoot = path := by
  obtain ⟨rule, hrule⟩ := Option.ne_none_iff_exists'.mp hrule
  obtain ⟨place, hplace, rfl⟩ := place_of_ruleAt hrule
  obtain ⟨out, hdrain, -⟩ := map_eq_ok.mp h
  obtain ⟨hok, -⟩ := Branching.drain_ok (walk_enumerates _) hdrain
  obtain ⟨found, hfound⟩ := hok place (by simpa using hplace)
  have hmem := (scopesAt_eq_ok hplace hfound).2.1
  rw [scopesAt, ← ruleAt_eq hplace, hrule] at hfound
  obtain ⟨scope, -, rfl⟩ := map_eq_ok.mp hfound
  obtain ⟨hroot, hscope⟩ := (hmem scope).mp List.mem_cons_self
  exact ⟨scope, ((discover_ok h).2.2 scope).mpr hscope, hroot⟩

/-- The error of a search is that of a file that takes part in the identity of a scope. -/
lemma discover_error {e : AtlasError} (h : w.discover H markers = .error e) :
    ∃ message, e = .io message ∧ Unreadable markers w.files message := by
  obtain ⟨place, hplace, hvisit⟩ :=
    Branching.drain_error (walk_enumerates _) (map_eq_error.mp h)
  have hmem : place ∈ places (w.root, w.tree) := by simpa using hplace
  exact scopesAt_eq_error hmem hvisit

/-- **The scopes of a workspace.**  The search succeeds unless a file that takes part in the
identity of a scope cannot be read.  It finds, in the order of their paths, exactly the scopes of
the directories that hold a marker file and are not skipped, each with the first rule that it
matches. -/
theorem discover_ok_iff {scopes : List ProjectScope} :
    w.discover H markers = .ok scopes ↔
      (¬ ∃ message, Unreadable markers w.files message) ∧
        (scopes.Pairwise fun a b => a.canonicalRoot < b.canonicalRoot) ∧
          ∀ scope, scope ∈ scopes ↔ IsScope H markers w.files scope := by
  refine ⟨discover_ok, fun ⟨hreadable, hsorted, hmem⟩ => ?_⟩
  cases hdiscover : w.discover H markers with
  | error e =>
    obtain ⟨message, -, hunreadable⟩ := discover_error hdiscover
    exact absurd ⟨message, hunreadable⟩ hreadable
  | ok scopes' =>
    obtain ⟨-, hsorted', hmem'⟩ := discover_ok hdiscover
    congr 1
    exact eq_of_sorted hsorted' hsorted fun scope => (hmem' scope).trans (hmem scope).symm

end Workspace

end Lemmas

end ProjectScopes

end WorkspaceAtlas
