/-
# What a fingerprint tells

The fingerprint of an execution determines everything that the provider is run on: the scope with
its manifest and its lock files, the sources in its languages, the provider with its executable
and its configuration.  So an execution that is reused was run on the same inputs.
-/
import WorkspaceAtlas.Provider.OwningScope
import WorkspaceAtlas.Semantic.Recorded

namespace WorkspaceAtlas

open Relational Text Transition

namespace ProjectScopes

/-- What the identity of a scope tells of it. -/
structure SameScope (s t : ProjectScope) : Prop where
  root : pathText s.canonicalRoot = pathText t.canonicalRoot
  kind : s.scopeKind = t.scopeKind
  policy : s.owningPolicyVersion = t.owningPolicyVersion
  manifest : s.primaryManifestPath.getLast?.getD "" = t.primaryManifestPath.getLast?.getD ""
  manifestHash : s.primaryManifestHash = t.primaryManifestHash
  relevant : s.relevantConfigHashes = t.relevantConfigHashes

/-- What the fingerprint of a descriptor tells of the provider. -/
structure SameProvider (p q : SemanticExecution) : Prop where
  name : p.providerName = q.providerName
  version : p.providerVersion = q.providerVersion
  command : p.command = q.command
  arguments : p.arguments = q.arguments
  languages : p.languages = q.languages
  markers : p.projectMarkers = q.projectMarkers
  configuration : p.configuration = q.configuration

section Lemmas

variable {H : Hasher} {w w' : Workspace} {markers markers' : List MarkerRule}
  {s t : ProjectScope} {p q : SemanticExecution}

/-! ## Fingerprints -/

lemma hashOfJson_injective (hH : H.Injective) : Function.Injective (hashOfJson H) :=
  fun _ _ h => canonicalJsonBytes_injective (contentHashOfBytes_injective hH h)

lemma str_injective : Function.Injective Json.str := fun _ _ h => Json.str.inj h

lemma textsJson_injective : Function.Injective textsJson := fun _ _ h =>
  (List.map_injective_iff.mpr str_injective) (Json.arr.inj h)

lemma pairsJson_injective : Function.Injective pairsJson := by
  refine fun _ _ h => List.map_injective_iff.mpr ?_ (Json.arr.inj h)
  rintro ⟨a, b⟩ ⟨c, d⟩ heq
  simp only [Json.arr.injEq, List.cons.injEq, Json.str.injEq, and_true] at heq
  exact Prod.ext heq.1 heq.2

lemma ScopeKind.asStr_injective : Function.Injective ScopeKind.asStr := by
  intro a b
  cases a <;> cases b <;> decide

lemma projectInputManifestHash_eq_iff (hH : H.Injective) :
    projectInputManifestHash H s = projectInputManifestHash H t ↔ SameScope s t := by
  rw [projectInputManifestHash, projectInputManifestHash, (hashOfJson_injective hH).eq_iff]
  simp only [Json.obj.injEq, List.cons.injEq, Prod.mk.injEq, Json.str.injEq, true_and, and_true,
    pairsJson_injective.eq_iff, ScopeKind.asStr_injective.eq_iff]
  constructor
  · rintro ⟨hroot, hpolicy, hhash, hmanifest, hrelevant, hkind⟩
    exact ⟨hroot, hkind, hpolicy, hmanifest, hhash, hrelevant⟩
  · rintro ⟨hroot, hkind, hpolicy, hmanifest, hhash, hrelevant⟩
    exact ⟨hroot, hpolicy, hhash, hmanifest, hrelevant, hkind⟩

lemma elim_str_injective : Function.Injective fun x : Option String => x.elim Json.null .str := by
  intro x y h
  cases x with
  | none =>
    cases y with
    | none => rfl
    | some b => nomatch h
  | some a =>
    cases y with
    | none => nomatch h
    | some b => exact congrArg some (Json.str.inj h)

lemma descriptorFingerprint_eq_iff (hH : H.Injective) {x y : Option String} :
    descriptorFingerprint H p x = descriptorFingerprint H q y ↔ SameProvider p q ∧ x = y := by
  rw [descriptorFingerprint, descriptorFingerprint, (hashOfJson_injective hH).eq_iff]
  simp only [Json.obj.injEq, List.cons.injEq, Prod.mk.injEq, Json.str.injEq, true_and, and_true,
    textsJson_injective.eq_iff, elim_str_injective.eq_iff]
  constructor
  · rintro ⟨hconfiguration, ⟨⟨harguments, hcommand⟩, hlanguages, hname, hmarkers, hversion⟩, hx, -⟩
    exact ⟨⟨hname, hversion, hcommand, harguments, hlanguages, hmarkers, hconfiguration⟩, hx⟩
  · rintro ⟨⟨hname, hversion, hcommand, harguments, hlanguages, hmarkers, hconfiguration⟩, hx⟩
    exact ⟨hconfiguration, ⟨⟨harguments, hcommand⟩, hlanguages, hname, hmarkers, hversion⟩, hx,
      by rw [hname]⟩

/-- **What the fingerprint of an execution tells.** -/
lemma inputFingerprint_eq_iff (hH : H.Injective) {ws ws' : String} {x y : Option String}
    {files files' : List (String × String)} :
    inputFingerprint H ws p x files = inputFingerprint H ws' q y files' ↔
      ws = ws' ∧ SameProvider p q ∧ x = y ∧ SameScope p.scope q.scope ∧ files = files' := by
  rw [inputFingerprint, inputFingerprint, executionInputFingerprint, executionInputFingerprint,
    (hashOfJson_injective hH).eq_iff]
  simp only [Json.obj.injEq, List.cons.injEq, Prod.mk.injEq, Json.str.injEq, true_and, and_true,
    pairsJson_injective.eq_iff, (hashOfJson_injective hH).eq_iff,
    projectInputManifestHash_eq_iff hH, descriptorFingerprint_eq_iff hH]
  constructor
  · rintro ⟨-, -, ⟨hprovider, hx⟩, hfiles, hscope, hws⟩
    exact ⟨hws, hprovider, hx, hscope, hfiles⟩
  · rintro ⟨hws, hprovider, hx, hscope, hfiles⟩
    exact ⟨by rw [hprovider.name], hprovider.configuration, ⟨hprovider, hx⟩, hfiles, hscope, hws⟩

/-! ## The files behind the hashes -/

/-- The text of a path shows its names. -/
lemma pathText_inj {a b : List String} (ha : ∀ name ∈ a, Folder.IsEntryName name)
    (hb : ∀ name ∈ b, Folder.IsEntryName name) (h : pathText a = pathText b) : a = b := by
  have htext : ['/'].intercalate (a.map String.toList) = ['/'].intercalate (b.map String.toList) :=
    (List.cons.inj (String.ofList_injective h)).2
  have hslash : ∀ l : List String, (∀ name ∈ l, Folder.IsEntryName name) →
      ∀ chars ∈ l.map String.toList, '/' ∉ chars := by
    intro l hl chars hchars
    obtain ⟨name, hname, rfl⟩ := List.mem_map.mp hchars
    exact (hl name hname).2
  have hempty : ∀ l : List String, (∀ name ∈ l, Folder.IsEntryName name) →
      ['/'].intercalate (l.map String.toList) = [] → l = [] := by
    intro l hl heq
    cases l with
    | nil => rfl
    | cons name l =>
      have hname := (hl name List.mem_cons_self).1
      obtain ⟨tail, htail⟩ := Path.intercalate_cons_eq name.toList (l.map String.toList)
      rw [List.map_cons, htail] at heq
      exact absurd (String.toList_eq_nil_iff.mp (List.append_eq_nil_iff.mp heq).1) hname
  by_cases hnil : a = []
  · subst hnil
    exact (hempty b hb htext.symm).symm
  · have hnil' : b ≠ [] := fun hnil' => hnil (hempty a ha (by rw [htext, hnil']; rfl))
    have hsplit := congrArg (List.splitOn '/') htext
    rw [List.splitOn_intercalate _ (hslash a ha) (by simpa using hnil),
      List.splitOn_intercalate _ (hslash b hb) (by simpa using hnil')] at hsplit
    exact List.map_injective_iff.mpr (fun _ _ => String.toList_inj.mp) hsplit

/-- A scope has the path of a directory. -/
lemma entryName_of_isScope (h : IsScope H markers w.files s) :
    ∀ name ∈ s.canonicalRoot, Folder.IsEntryName name := by
  obtain ⟨rule, hrule, -⟩ := h
  obtain ⟨place, hplace, heq⟩ := Workspace.place_of_ruleAt hrule
  exact heq ▸ Workspace.entryName_of_mem hplace

/-- The default rules are told apart by their file names. -/
lemma rule_unique {r r' : MarkerRule} (hr : r ∈ defaultProjectMarkers)
    (hr' : r' ∈ defaultProjectMarkers) (h : r.fileName = r'.fileName) : r = r' := by
  have hall : ∀ r ∈ defaultProjectMarkers, ∀ r' ∈ defaultProjectMarkers,
      r.fileName = r'.fileName → r = r' := by decide
  exact hall r hr r' hr' h

/-- **Scopes with one identity** are the same, and the files that make up their identity have the
same bytes. -/
lemma same_of_sameScope (hH : H.Injective) (hmarkers : ∀ r ∈ markers, r ∈ defaultProjectMarkers)
    (hmarkers' : ∀ r ∈ markers', r ∈ defaultProjectMarkers)
    (hs : IsScope H markers w.files s) (ht : IsScope H markers' w'.files t) (h : SameScope s t) :
    s = t ∧ ∀ name, [name] <:+ s.primaryManifestPath ∨ name ∈ siblingNames → ∀ bytes,
      ((s.canonicalRoot ++ [name], .ok bytes) ∈ w.files ↔
        (s.canonicalRoot ++ [name], .ok bytes) ∈ w'.files) := by
  have hroot := pathText_inj (entryName_of_isScope hs) (entryName_of_isScope ht) h.root
  obtain ⟨rule, hrule, hdescribes⟩ := hs
  obtain ⟨rule', hrule', hdescribes'⟩ := ht
  have hname : rule.fileName = rule'.fileName := by
    have hmanifest := h.manifest
    rw [hdescribes.manifest, hdescribes'.manifest] at hmanifest
    simpa using hmanifest
  obtain rfl := rule_unique (hmarkers _ (List.mem_of_find?_eq_some hrule))
    (hmarkers' _ (List.mem_of_find?_eq_some hrule')) hname
  have hst : s = t := by
    cases s
    cases t
    simp only [ProjectScope.mk.injEq]
    exact ⟨hroot, h.kind, hdescribes.manifest.trans
      ((congrArg (· ++ [rule.fileName]) hroot).trans hdescribes'.manifest.symm),
      h.manifestHash, h.relevant, hdescribes.language.trans hdescribes'.language.symm, h.policy⟩
  subst hst
  refine ⟨rfl, fun name hname' bytes => ?_⟩
  by_cases heq : name = rule.fileName
  · subst heq
    obtain ⟨b, hb, hhash⟩ := hdescribes.manifestHash
    obtain ⟨b', hb', hhash'⟩ := hdescribes'.manifestHash
    obtain rfl := contentHashOfBytes_injective hH (hhash.symm.trans hhash')
    constructor
    · intro hmem
      obtain rfl := Except.ok.inj (Workspace.content_unique hmem hb)
      exact hb'
    · intro hmem
      obtain rfl := Except.ok.inj (Workspace.content_unique hmem hb')
      exact hb
  · have hsibling : name ∈ siblingNames := by
      refine hname'.resolve_left fun hsuffix => heq ?_
      rw [hdescribes.manifest] at hsuffix
      have hlast := List.singleton_suffix_iff_getLast?_eq_some.mp hsuffix
      simpa using hlast.symm
    -- the hashes of the siblings are those of the other workspace
    have hiff := hdescribes.relevant name (contentHashOfBytes H bytes)
    have hiff' := hdescribes'.relevant name (contentHashOfBytes H bytes)
    have hread : ∀ files : List (List String × Content),
        (∃ b, (s.canonicalRoot ++ [name], .ok b) ∈ files ∧
          contentHashOfBytes H bytes = contentHashOfBytes H b) ↔
            (s.canonicalRoot ++ [name], .ok bytes) ∈ files := by
      intro files
      constructor
      · rintro ⟨b, hb, hhash⟩
        obtain rfl := contentHashOfBytes_injective hH hhash
        exact hb
      · exact fun hmem => ⟨bytes, hmem, rfl⟩
    rw [hread] at hiff hiff'
    constructor
    · exact fun hmem => (hiff'.mp (hiff.mpr ⟨hsibling, heq, hmem⟩)).2.2
    · exact fun hmem => (hiff.mp (hiff'.mpr ⟨hsibling, heq, hmem⟩)).2.2

/-- The files of a scope in some languages, with their bytes. -/
def relevantContents (folder : Folder) (languages : List String) :
    List (String × List UInt8) :=
  (places ([], folder)).flatMap fun place => place.2.files.filterMap fun f =>
    if (extension f.1).any (· ∈ extensionsOf languages) then
      f.2.toOption.map fun bytes => (relStrOf String.toList (place.1 ++ [f.1]), bytes)
    else none

lemma listRelevantFiles_cases (H : Hasher) (folder : Folder) (languages : List String) :
    ∃ files, listRelevantFiles H folder languages = .ok files ∧
      files.Perm ((relevantContents folder languages).map fun f =>
        (f.1, contentHashOfBytes H f.2)) := by
  have hplaces : [([], folder)].flatMap places = places ([], folder) := by simp
  rcases Branching.drain_cases (ε := AtlasError) (walk_enumerates fun l => .refl l)
    (fun place => .ok (relevantAt H (extensionsOf languages) place)) [([], folder)] with
    ⟨out, hdrain, -, hperm⟩ | ⟨e, -, place, -, herror⟩
  · refine ⟨orderBy toLex out, ?_, (perm_orderBy.trans hperm).trans (.of_eq ?_)⟩
    · have hmap := congrArg (Except.map (orderBy toLex)) hdrain
      exact hmap
    · rw [hplaces, relevantContents, List.map_flatMap]
      congr 1
      funext place
      show relevantAt H (extensionsOf languages) place = _
      rw [relevantAt, List.map_filterMap]
      congr 1
      funext f
      split
      · rw [Option.map_map]
        rfl
      · rfl
  · nomatch herror

/-- Equal hashes come from the same files. -/
lemma relevantContents_perm (hH : H.Injective) {folder folder' : Folder}
    {languages : List String} {files : List (String × String)}
    (h : listRelevantFiles H folder languages = .ok files)
    (h' : listRelevantFiles H folder' languages = .ok files) :
    (relevantContents folder languages).Perm (relevantContents folder' languages) := by
  obtain ⟨files₁, hfiles₁, hperm₁⟩ := listRelevantFiles_cases H folder languages
  obtain ⟨files₂, hfiles₂, hperm₂⟩ := listRelevantFiles_cases H folder' languages
  obtain rfl := Except.ok.inj (h.symm.trans hfiles₁)
  obtain rfl := Except.ok.inj (h'.symm.trans hfiles₂)
  refine (List.map_perm_map_iff ?_).mp (hperm₁.symm.trans hperm₂)
  rintro ⟨a, b⟩ ⟨c, d⟩ heq
  obtain ⟨hpath, hhash⟩ := Prod.mk.inj heq
  exact Prod.ext hpath (contentHashOfBytes_injective hH hhash)

/-! ## Plans -/

lemma markers_of_entry (entry : ProviderConfigEntry) :
    ∀ rule ∈ entry.markers, rule ∈ defaultProjectMarkers := by
  intro rule hrule
  rw [ProviderConfigEntry.markers] at hrule
  split at hrule
  · exact List.mem_of_mem_filter hrule
  · obtain ⟨marker, -, hfind⟩ := List.mem_filterMap.mp hrule
    exact List.mem_of_find?_eq_some hfind

/-- The scope of a plan is one of the workspace. -/
lemma isScope_of_plan {providers : List ProviderConfigEntry}
    (h : p ∈ discoverSemanticPlans H w.root w.tree providers) :
    ∃ markers, (∀ rule ∈ markers, rule ∈ defaultProjectMarkers) ∧
      IsScope H markers w.files p.scope := by
  obtain ⟨entry, -, hp⟩ := List.mem_flatMap.mp h
  rw [ProviderConfigEntry.plans] at hp
  split at hp
  · exact absurd hp List.not_mem_nil
  · split at hp
    · split at hp
      next scopes hdiscover =>
        obtain ⟨scope, hscope, rfl⟩ := List.mem_map.mp hp
        exact ⟨entry.markers, markers_of_entry entry,
          ((Workspace.discover_ok hdiscover).2.2 scope).mp hscope⟩
      next => exact absurd hp List.not_mem_nil
    · exact absurd hp List.not_mem_nil

end Lemmas

/-! ## Reuse -/

/-- A call of `run_one_plan`: the workspace in which its scope was found, the directory of the
scope when its files were listed, and what the probe, the provider and its output came to. -/
structure Attempt (H : Hasher) where
  generationId : String
  workspace : Workspace
  providers : List ProviderConfigEntry
  execution : SemanticExecution
  planned : execution ∈ discoverSemanticPlans H workspace.root workspace.tree providers
  folder : Folder
  executableHash : Option String
  probeAvailable : Bool
  spawn : Except AtlasError SpawnOutcome
  output : ProviderOutput

namespace Attempt

variable {H : Hasher} {a b : Attempt H}

/-- The plan, with its key and its fingerprint. -/
def plan (workspaceId : String) (a : Attempt H) : PlannedExecution where
  providerName := a.execution.providerName
  providerVersion := a.execution.providerVersion
  configurationHash := hashOfJson H a.execution.configuration
  required := a.execution.required
  enabled := a.execution.enabled
  providerKey := providerKey H a.execution a.executableHash
  scopeKey := "project:" ++ a.execution.scope.primaryManifestPath.getLast?.getD ""
  mappingPolicyVersion := mappingPolicyVersionFor a.execution.providerName
  probeAvailable := a.probeAvailable
  inputFingerprint := (listRelevantFiles H a.folder a.execution.languages).map
    (inputFingerprint H workspaceId a.execution a.executableHash)
  spawn := a.spawn
  output := a.output

/-- The call. -/
def call (workspaceId : String) (a : Attempt H) : Execution.Call :=
  (a.generationId, a.plan workspaceId)

/-- Two calls whose provider is given the same. -/
structure SameInputs (a b : Attempt H) : Prop where
  scope : a.execution.scope = b.execution.scope
  provider : SameProvider a.execution b.execution
  executable : a.executableHash = b.executableHash
  manifests : ∀ name, [name] <:+ a.execution.scope.primaryManifestPath ∨ name ∈ siblingNames →
    ∀ bytes, ((a.execution.scope.canonicalRoot ++ [name], .ok bytes) ∈ a.workspace.files ↔
      (a.execution.scope.canonicalRoot ++ [name], .ok bytes) ∈ b.workspace.files)
  sources : (relevantContents a.folder a.execution.languages).Perm
    (relevantContents b.folder a.execution.languages)

/-- Equal fingerprints are those of the same inputs. -/
lemma sameInputs_of_fingerprint (hH : H.Injective) {ws fp : String}
    (ha : (a.plan ws).inputFingerprint = .ok fp) (hb : (b.plan ws).inputFingerprint = .ok fp) :
    a.SameInputs b := by
  obtain ⟨files, hfiles, hfp⟩ := map_eq_ok.mp ha
  obtain ⟨files', hfiles', hfp'⟩ := map_eq_ok.mp hb
  obtain ⟨-, hprovider, hexecutable, hscope, rfl⟩ :=
    (inputFingerprint_eq_iff hH).mp (hfp.trans hfp'.symm)
  obtain ⟨markers, hmarkers, hisScope⟩ := isScope_of_plan a.planned
  obtain ⟨markers', hmarkers', hisScope'⟩ := isScope_of_plan b.planned
  obtain ⟨hsame, hmanifests⟩ :=
    same_of_sameScope hH hmarkers hmarkers' hisScope hisScope' hscope
  rw [← hprovider.languages] at hfiles'
  exact ⟨hsame, hprovider, hexecutable, hmanifests, relevantContents_perm hH hfiles hfiles'⟩

/-- **Reuse is sound.**  If a call reuses an execution, then an earlier call was given the same
inputs: the same provider with the same executable and configuration, on the same scope with the
same manifest and lock files and the same sources.  It ran its provider, which ended well. -/
theorem reused_sameInputs (hH : H.Injective) {ws : String} {calls : List (Attempt H)}
    {next : Attempt H} {s : ExecutionTables}
    (h : Execution.runOnePlan H ws next.generationId (Execution.history H ws
      (calls.map (call ws))) (next.plan ws) = .ok (s, .reused)) :
    ∃ earlier ∈ calls, earlier.SameInputs next ∧ ∃ k o,
      Execution.attempted ws (earlier.plan ws) = some (k, o) ∧ o.isReusable = true := by
  cases Execution.runOnePlan_ended h with
  | reused fp e hprobe hfp hfind =>
    obtain ⟨he, hk, hstatus⟩ := Execution.findReusableExecution_some hfind
    obtain ⟨-, hrecorded⟩ := @Execution.recorded_history H ws (calls.map (call ws))
      e.providerExecutionId
    rw [Execution.recorded_of_mem he, Execution.firstAttempt] at hrecorded
    obtain ⟨c, hc, hattempt⟩ := List.exists_of_findSome?_eq_some hrecorded.symm
    obtain ⟨earlier, hearlier, rfl⟩ := List.mem_map.mp hc
    obtain ⟨hrun, -⟩ := Option.filter_eq_some_iff.mp hattempt
    obtain ⟨files, hfiles, -⟩ :=
      listRelevantFiles_cases H earlier.folder earlier.execution.languages
    have hfp' : (earlier.plan ws).inputFingerprint =
        .ok (inputFingerprint H ws earlier.execution earlier.executableHash files) :=
      congrArg (Except.map _) hfiles
    -- the row was recorded under the identity of the earlier call
    have hidentity := Execution.attempted_identity hrun hfp'
    have hsame := congrArg ExecutionIdentity.inputFingerprint (hk.symm.trans hidentity)
    refine ⟨earlier, hearlier, sameInputs_of_fingerprint hH hfp' ?_, _, _, hrun, hstatus⟩
    rw [hfp]
    exact congrArg Except.ok hsame

end Attempt

/-! ## A crate that is indexed twice -/

/-- A provider for Rust. -/
def rustProvider : ProviderConfigEntry :=
  ⟨"rust-analyzer", "external_scip", "project", true, false, ["rust"], [], some "1.0.0",
    some "rust-analyzer", ["scip", "."], .obj []⟩

/-- The crate of the workspace has a plan. -/
lemma exists_nestedPlan : ∃ execution, execution ∈ discoverSemanticPlans .plain
    nestedWorkspace.root nestedWorkspace.tree [rustProvider] := by
  cases hdiscover : nestedWorkspace.discover .plain rustProvider.markers with
  | error e =>
    obtain ⟨message, -, hunreadable⟩ := Workspace.discover_error hdiscover
    exact absurd hunreadable (nestedWorkspace_readable _ message)
  | ok scopes =>
    have hrule : ruleAt rustProvider.markers nestedWorkspace.files ["ws", "crates", "app"] ≠
        none := by decide
    obtain ⟨scope, hscope, -⟩ := Workspace.exists_scope hdiscover hrule
    refine ⟨rustProvider.plan "1.0.0" "rust-analyzer" scope,
      List.mem_flatMap.mpr ⟨rustProvider, List.mem_singleton_self _, ?_⟩⟩
    have hdiscovered : discoverProjectScopes .plain nestedWorkspace.root nestedWorkspace.tree
        rustProvider.markers = .ok scopes := hdiscover
    rw [ProviderConfigEntry.plans, if_neg (by decide), hdiscovered]
    exact List.mem_map_of_mem hscope

/-- A call that succeeds is reused by the next one. -/
lemma reused_of_complete {p : PlannedExecution} {fp : String} (hprobe : p.probeAvailable = true)
    (hfp : p.inputFingerprint = .ok fp) (hspawn : p.spawn = .ok (.exited (some 0)))
    (houtput : p.output = .decoded []) :
    ∃ s, Execution.runOnePlan .plain "ws" "gen" (Execution.history .plain "ws" [("gen", p)]) p =
      .ok (s, .reused) := by
  have hstatus : SpawnOutcome.status (.exited (some 0)) = .complete := rfl
  have hfirst : Execution.runOnePlan .plain "ws" "gen" .empty p =
      .ok (Execution.recordExecution .plain .empty "gen" (p.identity "ws" fp) .complete,
        .executed []) := by
    have hnone : findReusableExecution ExecutionTables.empty.providerExecution
        (p.identity "ws" fp) = none := rfl
    simp only [Execution.runOnePlan, hprobe, hfp, hnone, hspawn, hstatus, houtput,
      not_true_eq_false, ne_eq, if_false]
    rfl
  have hhistory : Execution.history .plain "ws" [("gen", p)] =
      Execution.recordExecution .plain .empty "gen" (p.identity "ws" fp) .complete := by
    simp only [Execution.history, List.foldl_cons, List.foldl_nil, Execution.step, hfirst]
  have hrow : (⟨(p.identity "ws" fp).id .plain, p.identity "ws" fp, "gen", .complete⟩ :
      ProviderExecution) ∈ (Execution.history .plain "ws" [("gen", p)]).providerExecution := by
    rw [hhistory]
    refine Table.mem_insertOrIgnore.mpr (Or.inr ⟨rfl, fun _ hrow => ?_⟩)
    exact absurd hrow List.not_mem_nil
  have hfind := Execution.findReusableExecution_of_mem hrow rfl rfl
  simp only [Execution.runOnePlan, hprobe, hfp, hfind, not_true_eq_false, if_false]
  exact ⟨_, rfl⟩

theorem Attempt.reused_sameInputs_nested : ∃ a : Attempt .plain,
    ∃ earlier ∈ [a], earlier.SameInputs a ∧ ∃ k o,
      Execution.attempted "ws" (earlier.plan "ws") = some (k, o) ∧ o.isReusable = true := by
  obtain ⟨execution, hexecution⟩ := exists_nestedPlan
  let a : Attempt .plain := ⟨"gen", nestedWorkspace, [rustProvider], execution, hexecution, .nil,
    none, true, .ok (.exited (some 0)), .decoded []⟩
  obtain ⟨files, hfiles, -⟩ := listRelevantFiles_cases .plain a.folder execution.languages
  have hfp : (a.plan "ws").inputFingerprint =
      .ok (inputFingerprint .plain "ws" execution none files) := congrArg (Except.map _) hfiles
  obtain ⟨s, hs⟩ := reused_of_complete (p := a.plan "ws") rfl hfp rfl rfl
  have hreused : Execution.runOnePlan .plain "ws" a.generationId
      (Execution.history .plain "ws" ([a].map (Attempt.call "ws"))) (a.plan "ws") =
        .ok (s, .reused) := hs
  exact ⟨a, Attempt.reused_sameInputs Hasher.plain_injective hreused⟩

end ProjectScopes

end WorkspaceAtlas
