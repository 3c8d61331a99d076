/-
# The scope that owns a file

The owner of a file is the scope of its deepest ancestor.  Scopes can only tie if their roots are
the same, so among the scopes of one search none do: the owner is the nearest directory above the
file that holds a marker.
-/
import WorkspaceAtlas.Provider.ScopeDiscovery

namespace WorkspaceAtlas

open Relational Text Transition

namespace ProjectScopes

/-- What the loop has found among some scopes: nothing, or the depth of the deepest ancestors and
the indices of all of them. -/
inductive Deepest (filePath : List String) (entries : List (ProjectScope × ℕ)) :
    Option ℕ × List ℕ → Prop
  | noScope (h : ∀ e ∈ entries, ¬ e.1.canonicalRoot <+: filePath) :
      Deepest filePath entries (none, [])
  | above (root : List String) (hroot : root <+: filePath)
      (hmem : ∃ e ∈ entries, e.1.canonicalRoot = root)
      (hdeepest : ∀ e ∈ entries, e.1.canonicalRoot <+: filePath → e.1.canonicalRoot <+: root) :
      Deepest filePath entries (some (root.length + 1),
        (entries.filter fun e => e.1.canonicalRoot = root).map Prod.snd)

section Lemmas

variable {filePath : List String} {entries : List (ProjectScope × ℕ)} {e : ProjectScope × ℕ}
  {best : Option ℕ × List ℕ} {scopes : List ProjectScope}

/-- Of two ancestors the shorter one is above the other. -/
lemma prefix_of_length_le {p q : List String} (hp : p <+: filePath) (hq : q <+: filePath)
    (h : p.length ≤ q.length) : p <+: q :=
  List.prefix_of_prefix_length_le hp hq h

/-- The root stays the deepest one. -/
lemma Deepest.append_some {root : List String} (hroot : root <+: filePath)
    (hmem : ∃ e ∈ entries, e.1.canonicalRoot = root)
    (hdeepest : ∀ e ∈ entries, e.1.canonicalRoot <+: filePath → e.1.canonicalRoot <+: root)
    (he : e.1.canonicalRoot <+: filePath → e.1.canonicalRoot <+: root) :
    Deepest filePath (entries ++ [e]) (some (root.length + 1),
      ((entries ++ [e]).filter fun e => e.1.canonicalRoot = root).map Prod.snd) := by
  obtain ⟨e₀, he₀, hroot₀⟩ := hmem
  refine .above root hroot ⟨e₀, List.mem_append_left _ he₀, hroot₀⟩ fun e' he' hup => ?_
  rcases List.mem_append.mp he' with he' | he'
  · exact hdeepest e' he' hup
  · obtain rfl := List.mem_singleton.mp he'
    exact he hup

/-- The root of the new scope takes the place of the others. -/
lemma Deepest.append_new (hup : e.1.canonicalRoot <+: filePath)
    (hall : ∀ e' ∈ entries, e'.1.canonicalRoot <+: filePath →
      e'.1.canonicalRoot <+: e.1.canonicalRoot ∧ e'.1.canonicalRoot ≠ e.1.canonicalRoot) :
    Deepest filePath (entries ++ [e]) (some (e.1.canonicalRoot.length + 1), [e.2]) := by
  have hfilter : (entries ++ [e]).filter (fun e' => e'.1.canonicalRoot = e.1.canonicalRoot) =
      [e] := by
    rw [List.filter_append, List.filter_eq_nil_iff.mpr, List.nil_append]
    · simp
    · intro e' he' heq
      have hroot : e'.1.canonicalRoot = e.1.canonicalRoot := of_decide_eq_true heq
      exact (hall e' he' (hroot ▸ hup)).2 hroot
  have hdeepest : Deepest filePath (entries ++ [e]) (some (e.1.canonicalRoot.length + 1),
      ((entries ++ [e]).filter fun e' => e'.1.canonicalRoot = e.1.canonicalRoot).map Prod.snd) :=
    .above e.1.canonicalRoot hup ⟨e, by simp, rfl⟩ fun e' he' hup' => by
      rcases List.mem_append.mp he' with he' | he'
      · exact (hall e' he' hup').1
      · rw [List.mem_singleton.mp he']
  rw [hfilter] at hdeepest
  exact hdeepest

/-- One scope. -/
lemma Deepest.step (h : Deepest filePath entries best) :
    Deepest filePath (entries ++ [e]) (deepen filePath best e) := by
  by_cases hup : e.1.canonicalRoot <+: filePath
  · rw [deepen, if_pos hup]
    cases h with
    | noScope hnone =>
      exact .append_new hup fun e' he' hup' => absurd hup' (hnone e' he')
    | above root hroot hmem hdeepest =>
      dsimp only
      rcases lt_trichotomy root.length e.1.canonicalRoot.length with hlt | heq | hgt
      · rw [if_pos (by omega)]
        refine .append_new hup fun e' he' hup' => ?_
        have habove := hdeepest e' he' hup'
        refine ⟨habove.trans (prefix_of_length_le hroot hup hlt.le), fun hsame => ?_⟩
        exact absurd habove.length_le (Nat.not_le.mpr (hsame ▸ hlt))
      · -- an ancestor of the same depth has the same root
        have hsame : e.1.canonicalRoot = root :=
          (prefix_of_length_le hup hroot heq.ge).eq_of_length heq.symm
        have hnew := Deepest.append_some (e := e) hroot hmem hdeepest
          fun _ => hsame ▸ List.prefix_rfl
        rw [List.filter_append, List.map_append,
          List.filter_cons_of_pos (by simpa using hsame), List.filter_nil] at hnew
        rw [if_neg (by omega), if_pos (by omega)]
        exact hnew
      · have hother : e.1.canonicalRoot ≠ root := fun heq => absurd hgt (heq ▸ lt_irrefl _)
        have hnew := Deepest.append_some (e := e) hroot hmem hdeepest
          fun _ => prefix_of_length_le hup hroot hgt.le
        rw [List.filter_append, List.filter_cons_of_neg (by simpa using hother), List.filter_nil,
          List.append_nil] at hnew
        rw [if_neg (by omega), if_neg (by omega)]
        exact hnew
  · -- what is no ancestor changes nothing
    rw [deepen, if_neg hup]
    cases h with
    | noScope hnone =>
      refine .noScope fun e' he' => ?_
      rcases List.mem_append.mp he' with he' | he'
      · exact hnone e' he'
      · exact List.mem_singleton.mp he' ▸ hup
    | above root hroot hmem hdeepest =>
      have hother : e.1.canonicalRoot ≠ root := fun heq => hup (heq ▸ hroot)
      have hnew := Deepest.append_some (e := e) hroot hmem hdeepest fun h => absurd h hup
      rw [List.filter_append, List.filter_cons_of_neg (by simpa using hother), List.filter_nil,
        List.append_nil] at hnew
      exact hnew

/-- The whole loop. -/
lemma deepest_foldl : Deepest filePath entries (entries.foldl (deepen filePath) (none, [])) := by
  induction entries using List.reverseRecOn with
  | nil => exact .noScope fun e he => absurd he List.not_mem_nil
  | append_singleton entries e ih =>
    rw [List.foldl_append]
    exact ih.step

/-- The indices of the scopes with a root. -/
def withRoot (scopes : List ProjectScope) (root : List String) : List ℕ :=
  (scopes.zipIdx.filter fun e => e.1.canonicalRoot = root).map Prod.snd

lemma mem_withRoot {root : List String} {i : ℕ} : i ∈ withRoot scopes root ↔
    ∃ scope, scopes[i]? = some scope ∧ scope.canonicalRoot = root := by
  simp only [withRoot, List.mem_map, List.mem_filter, Prod.exists, decide_eq_true_eq]
  constructor
  · rintro ⟨scope, i, ⟨hmem, hroot⟩, rfl⟩
    exact ⟨scope, List.mk_mem_zipIdx_iff_getElem?.mp hmem, hroot⟩
  · rintro ⟨scope, hget, hroot⟩
    exact ⟨scope, i, ⟨List.mk_mem_zipIdx_iff_getElem?.mpr hget, hroot⟩, rfl⟩

lemma pairwise_withRoot {root : List String} : (withRoot scopes root).Pairwise (· < ·) := by
  have hindices : (scopes.zipIdx.map Prod.snd).Pairwise (· < ·) := by
    rw [List.zipIdx_map_snd]
    exact List.pairwise_lt_range'
  exact hindices.sublist (List.filter_sublist.map _)

/-- **The owner of a file.**  If no scope has a root above the file, it has no owner.  Else the
scopes whose root is the deepest of those above it are its owner, or are reported as a tie. -/
theorem resolveOwningScope_cases (filePath : List String) (scopes : List ProjectScope) :
    (resolveOwningScope filePath scopes = .noScope ∧
      ∀ scope ∈ scopes, ¬ scope.canonicalRoot <+: filePath) ∨
    ∃ root, root <+: filePath ∧ (∃ scope ∈ scopes, scope.canonicalRoot = root) ∧
      (∀ scope ∈ scopes, scope.canonicalRoot <+: filePath → scope.canonicalRoot <+: root) ∧
      ((∃ i, withRoot scopes root = [i] ∧ resolveOwningScope filePath scopes = .owned i) ∨
        2 ≤ (withRoot scopes root).length ∧
          resolveOwningScope filePath scopes = .ambiguous (withRoot scopes root)) := by
  have hmem : ∀ scope, scope ∈ scopes ↔ ∃ i, (scope, i) ∈ scopes.zipIdx := by
    intro scope
    rw [List.mem_iff_getElem?]
    exact exists_congr fun _ => List.mk_mem_zipIdx_iff_getElem?.symm
  have hloop : Deepest filePath scopes.zipIdx
      (scopes.zipIdx.foldl (deepen filePath) (none, [])) := deepest_foldl
  rw [resolveOwningScope]
  cases hbest : scopes.zipIdx.foldl (deepen filePath) (none, []) with
  | mk depth indices =>
    rw [hbest] at hloop
    cases hloop with
    | noScope hnone =>
      refine Or.inl ⟨rfl, fun scope hscope => ?_⟩
      obtain ⟨i, hi⟩ := (hmem scope).mp hscope
      exact hnone _ hi
    | above root hroot hexists hdeepest =>
      obtain ⟨⟨scope, i⟩, hi, heq⟩ := hexists
      have hin : i ∈ withRoot scopes root :=
        mem_withRoot.mpr ⟨scope, List.mk_mem_zipIdx_iff_getElem?.mp hi, heq⟩
      refine Or.inr ⟨root, hroot, ⟨scope, (hmem scope).mpr ⟨i, hi⟩, heq⟩,
        fun scope' hscope' hup => ?_, ?_⟩
      · obtain ⟨j, hj⟩ := (hmem scope').mp hscope'
        exact hdeepest _ hj hup
      · have htied : (scopes.zipIdx.filter fun e => decide (e.1.canonicalRoot = root)).map
            Prod.snd = withRoot scopes root := rfl
        rw [htied]
        cases hindices : withRoot scopes root with
        | nil =>
          rw [hindices] at hin
          exact absurd hin List.not_mem_nil
        | cons j rest =>
          cases rest with
          | nil => exact Or.inl ⟨j, rfl, rfl⟩
          | cons k rest => exact Or.inr ⟨by simp, rfl⟩

/-- Scopes with different roots do not tie. -/
lemma withRoot_unique (h : scopes.Pairwise fun a b => a.canonicalRoot < b.canonicalRoot)
    (root : List String) : (withRoot scopes root).length ≤ 1 := by
  rw [withRoot, List.length_map]
  have hzip : scopes.zipIdx.Pairwise fun a b => a.1.canonicalRoot < b.1.canonicalRoot := by
    have hmap : (scopes.zipIdx.map Prod.fst).Pairwise
        fun a b => a.canonicalRoot < b.canonicalRoot := by
      rw [List.zipIdx_map_fst]
      exact h
    exact (List.pairwise_map (R := fun a b : ProjectScope => a.canonicalRoot < b.canonicalRoot)).mp
      hmap
  have hfilter := hzip.filter fun e => decide (e.1.canonicalRoot = root)
  cases hcase : scopes.zipIdx.filter fun e => decide (e.1.canonicalRoot = root) with
  | nil => exact Nat.zero_le _
  | cons a rest =>
    cases rest with
    | nil => exact le_rfl
    | cons b rest =>
      -- two members of the list would have one root
      have hmem : ∀ e ∈ a :: b :: rest, e.1.canonicalRoot = root := by
        intro e he
        rw [← hcase] at he
        exact of_decide_eq_true (List.mem_filter.mp he).2
      rw [hcase] at hfilter
      have hlt := (List.pairwise_cons.mp hfilter).1 b List.mem_cons_self
      rw [hmem a List.mem_cons_self, hmem b (by simp)] at hlt
      exact absurd hlt (lt_irrefl _)

end Lemmas

/-- **The nearest marker.**  Among the scopes that a search finds no two tie.  The owner of a file
is the scope of the nearest directory above it that holds a marker and is not skipped, and there
is none exactly if there is no such directory. -/
theorem owner_of_discover {H : Hasher} {markers : List MarkerRule} {w : Workspace}
    {scopes : List ProjectScope} (h : w.discover H markers = .ok scopes) (filePath : List String) :
    (resolveOwningScope filePath scopes = .noScope ∧
      ∀ dir, dir <+: filePath → ruleAt markers w.files dir = none) ∨
    ∃ i scope, resolveOwningScope filePath scopes = .owned i ∧ scopes[i]? = some scope ∧
      scope.canonicalRoot <+: filePath ∧ IsScope H markers w.files scope ∧
        ∀ dir, dir <+: filePath → scope.canonicalRoot <+: dir → dir ≠ scope.canonicalRoot →
          ruleAt markers w.files dir = none := by
  obtain ⟨hreadable, hsorted, hmem⟩ := Workspace.discover_ok h
  have hscope : ∀ dir, ruleAt markers w.files dir ≠ none →
      ∃ scope ∈ scopes, scope.canonicalRoot = dir := by
    intro dir hdir
    exact Workspace.exists_scope h hdir
  rcases resolveOwningScope_cases filePath scopes with ⟨hnone, hall⟩ |
    ⟨root, hroot, -, hdeepest, ⟨i, hi, howned⟩ | ⟨hlength, -⟩⟩
  · refine Or.inl ⟨hnone, fun dir hdir => ?_⟩
    by_contra hrule
    obtain ⟨scope, hin, rfl⟩ := hscope dir hrule
    exact hall scope hin hdir
  · have hin : i ∈ withRoot scopes root := hi ▸ List.mem_singleton_self i
    obtain ⟨scope, hget, rfl⟩ := mem_withRoot.mp hin
    refine Or.inr ⟨i, scope, howned, hget, hroot, (hmem scope).mp (List.mem_of_getElem? hget),
      fun dir hdir habove hne => ?_⟩
    by_contra hrule
    obtain ⟨scope', hin', rfl⟩ := hscope dir hrule
    have hback := hdeepest scope' hin' hdir
    exact hne (hback.eq_of_length (le_antisymm hback.length_le habove.length_le))
  · have hle := withRoot_unique hsorted root
    omega

/-! ## A nested package -/

/-- A workspace with a package, and a crate below it. -/
def nestedWorkspace : Workspace where
  root := ["ws"]
  tree := .file "package.json" (.ok [1]) (.dir "crates" (.dir "app"
    (.file "Cargo.toml" (.ok [2]) (.file "Cargo.lock" (.ok [3]) .nil)) .nil) .nil)
  rootNames := by simp [Folder.IsEntryName]
  proper := by simp [Folder.Proper, Folder.IsEntryName, Folder.names]

lemma nestedWorkspace_readable (markers : List MarkerRule) (message : String) :
    ¬ Unreadable markers nestedWorkspace.files message := by
  have hok : ∀ f ∈ nestedWorkspace.files, f.2.isOk = true := by decide
  rintro ⟨dir, rule, name, -, -, hmem⟩
  exact absurd (hok _ hmem) (by simp [Except.isOk, Except.toBool])

theorem owner_of_discover_nested : ∃ scopes,
    nestedWorkspace.discover .plain defaultProjectMarkers = .ok scopes ∧
    ((resolveOwningScope ["ws", "crates", "app", "main.rs"] scopes = .noScope ∧
      ∀ dir, dir <+: ["ws", "crates", "app", "main.rs"] →
        ruleAt defaultProjectMarkers nestedWorkspace.files dir = none) ∨
    ∃ i scope, resolveOwningScope ["ws", "crates", "app", "main.rs"] scopes = .owned i ∧
      scopes[i]? = some scope ∧ scope.canonicalRoot <+: ["ws", "crates", "app", "main.rs"] ∧
        IsScope .plain defaultProjectMarkers nestedWorkspace.files scope ∧
          ∀ dir, dir <+: ["ws", "crates", "app", "main.rs"] → scope.canonicalRoot <+: dir →
            dir ≠ scope.canonicalRoot →
              ruleAt defaultProjectMarkers nestedWorkspace.files dir = none) := by
  cases hdiscover : nestedWorkspace.discover .plain defaultProjectMarkers with
  | error e =>
    obtain ⟨message, -, hunreadable⟩ := Workspace.discover_error hdiscover
    exact absurd hunreadable (nestedWorkspace_readable _ message)
  | ok scopes => exact ⟨scopes, rfl, owner_of_discover hdiscover _⟩

end ProjectScopes

end WorkspaceAtlas
