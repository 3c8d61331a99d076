/-
# Display names

The last rule of `resolve_relationship` looks the target's display name up in an index that
`run_resolution_pass` has filed the keys in.  Part one shows that nothing but this rule reads
the index and that the rule resolves nothing.  Part two compares the name that a key is filed
under with the name that is looked up, which the one takes from the key as it stands and the
other from the key without the suffix of its last descriptor.
-/
import Mathlib.Algebra.Order.BigOperators.Group.List
import Mathlib.Data.List.TakeWhile
import WorkspaceAtlas.Semantic.Resolution

namespace WorkspaceAtlas

open Text

/-! ## What the index decides -/

/-- The universes differ in `by_display_name` at most. -/
structure SymbolUniverse.SameButNames (u v : SymbolUniverse) : Prop where
  globallyDefined : u.globallyDefined = v.globallyDefined
  thisExecution : u.thisExecution = v.thisExecution
  knownFiles : u.knownFiles = v.knownFiles

/-- The outcomes resolve the same, and differ in status at most as ambiguous and unresolved
do. -/
structure ResolutionOutcome.ResolvesAlike (a b : ResolutionOutcome) : Prop where
  resolved : a.resolved = b.resolved
  confidence : a.confidence = b.confidence
  status : a.status = b.status ∨
    a.status ∈ [.ambiguous, .unresolved] ∧ b.status ∈ [.ambiguous, .unresolved]

/-- The relationship comes to the last rule: its target is internal, no rule before it
names it. -/
structure LeftToNames (rel : MappedRelationship) (u : SymbolUniverse) : Prop where
  not_defines : ¬ u.Defines rel.targetRefValue
  notMem_thisExecution : rel.targetRefValue ∉ u.thisExecution
  notMem_knownFiles : rel.targetRefValue ∉ u.knownFiles
  not_explicit : rel.relationshipType.isExplicit = false
  not_external : rel.targetRefKind ≠ .externalSymbol

/-- What allows a relationship to be resolved to a symbol. -/
def SymbolUniverse.Licenses (u : SymbolUniverse) (rel : MappedRelationship) (value : String) :
    Prop :=
  value ∈ u.thisExecution ∨ u.Defines value ∨
    rel.relationshipType.isExplicit = true ∧ rel.targetRefKind ≠ .externalSymbol ∧
      value = rel.targetRefValue

section Index

variable {rel : MappedRelationship} {u v : SymbolUniverse}

lemma resolveRelationship_of_leftToNames (h : LeftToNames rel u) :
    resolveRelationship rel u = resolveByDisplayName rel.targetRefValue u := by
  obtain ⟨hdef, hthis, hfile, hexplicit, hexternal⟩ := h
  simp [resolveRelationship, hdef, hthis, hfile, hexplicit, hexternal]

/-- Before the last rule, a relationship is resolved without the index. -/
lemma resolveRelationship_eq_of_not_leftToNames (huv : u.SameButNames v)
    (h : ¬ LeftToNames rel u) : resolveRelationship rel u = resolveRelationship rel v := by
  obtain ⟨defined, this, names, files⟩ := u
  obtain ⟨defined', this', names', files'⟩ := v
  obtain ⟨hdefined, hthis, hfiles⟩ := huv
  dsimp only at hdefined hthis hfiles
  subst hdefined hthis hfiles
  -- the rules read the same fields, so both runs take the same branch
  have hdef : (SymbolUniverse.mk defined this names files).Defines rel.targetRefValue ↔
      (SymbolUniverse.mk defined this names' files).Defines rel.targetRefValue := Iff.rfl
  unfold resolveRelationship
  simp only [← hdef]
  split_ifs with h₁ h₂ h₃ h₄ h₅ h₆
  · rfl
  · rfl
  · rfl
  · rfl
  · rfl
  · rfl
  · refine absurd ⟨h₃, h₂, h₅, ?_, h₆⟩ h
    by_contra hexplicit
    exact h₄ ⟨by simpa using hexplicit, h₆⟩

/-- **The last rule resolves nothing**, whatever the index holds. -/
lemma resolveByDisplayName_open (target : String) (u : SymbolUniverse) : (resolveByDisplayName target u).resolved = none ∧
    (resolveByDisplayName target u).confidence = 0 ∧
      (resolveByDisplayName target u).status ∈ [.ambiguous, .unresolved] := by
  unfold resolveByDisplayName
  dsimp only
  split
  · simp
  · split
    · simp
    · simp

lemma SymbolUniverse.SameButNames.leftToNames (huv : u.SameButNames v)
    (h : LeftToNames rel u) : LeftToNames rel v where
  not_defines := by
    have := h.not_defines
    rwa [SymbolUniverse.Defines, huv.globallyDefined] at this
  notMem_thisExecution := huv.thisExecution ▸ h.notMem_thisExecution
  notMem_knownFiles := huv.knownFiles ▸ h.notMem_knownFiles
  not_explicit := h.not_explicit
  not_external := h.not_external

lemma resolvesAlike_of_sameButNames (huv : u.SameButNames v) :
    (resolveRelationship rel u).ResolvesAlike (resolveRelationship rel v) := by
  by_cases hleft : LeftToNames rel u
  · rw [resolveRelationship_of_leftToNames hleft,
      resolveRelationship_of_leftToNames (huv.leftToNames hleft)]
    obtain ⟨hnone, hzero, hopen⟩ := resolveByDisplayName_open rel.targetRefValue u
    obtain ⟨hnone', hzero', hopen'⟩ := resolveByDisplayName_open rel.targetRefValue v
    exact ⟨hnone.trans hnone'.symm, hzero.trans hzero'.symm, .inr ⟨hopen, hopen'⟩⟩
  · rw [resolveRelationship_eq_of_not_leftToNames huv hleft]
    exact ⟨rfl, rfl, .inl rfl⟩

lemma licenses_of_resolved {value : String}
    (h : (resolveRelationship rel u).resolved = some (.symbol value)) :
    u.Licenses rel value := by
  unfold resolveRelationship at h
  dsimp only at h
  split_ifs at h with h₁ h₂ h₃ h₄ h₅ h₆
  · obtain rfl : rel.targetRefValue = value := by simpa using h
    exact h₁.2.elim (.inr ∘ .inl) .inl
  · obtain rfl : rel.targetRefValue = value := by simpa using h
    exact .inl h₂
  · obtain rfl : rel.targetRefValue = value := by simpa using h
    exact .inr (.inl h₃)
  · obtain rfl : rel.targetRefValue = value := by simpa using h
    exact .inr (.inr ⟨h₄.1, h₄.2, rfl⟩)
  · exact absurd h (by simp)
  · exact absurd h (by simp)
  · rw [(resolveByDisplayName_open _ _).1] at h
    exact absurd h (by simp)

end Index

/-- **A display name never decides a resolution**: two universes that differ in the index of
display names resolve every relationship alike, and what is resolved to a symbol is so by a
defined key or by an explicit relationship. -/
theorem displayName_never_decides (rel : MappedRelationship) (u : SymbolUniverse) :
    (∀ v, u.SameButNames v →
      (resolveRelationship rel u).ResolvesAlike (resolveRelationship rel v)) ∧
    ∀ value, (resolveRelationship rel u).resolved = some (.symbol value) →
      u.Licenses rel value :=
  ⟨fun _ huv => resolvesAlike_of_sameButNames huv, fun _ => licenses_of_resolved⟩

/-- Two keys that share the display name `run`. -/
def runKeys : List (String × String) := [("scip:p a/run", "a.rs"), ("scip:p b/run", "b.rs")]

/-- An internal target that no key of `runKeys` is. -/
def runReference : MappedRelationship where
  relationshipType := .references
  sourceCanonicalDocumentPath := "c.rs"
  sourceStartLine := 0
  sourceStartColumn := 0
  sourceEndLine := 0
  sourceEndColumn := 0
  targetRefKind := .symbol
  targetRefValue := "scip:p c/run"
  providerSymbolId := "p c/run"
  confidence := 1
  reasonCode := "scip_occurrence"

lemma displayName_never_decides_run :
    ((resolveRelationship runReference (.ofRows runKeys)).status = .ambiguous ∧
      (resolveRelationship runReference
        { SymbolUniverse.ofRows runKeys with byDisplayName := fun _ => [] }).status =
          .unresolved) ∧
    (resolveRelationship runReference (.ofRows runKeys)).ResolvesAlike
      (resolveRelationship runReference
        { SymbolUniverse.ofRows runKeys with byDisplayName := fun _ => [] }) :=
  ⟨by decide,
    (displayName_never_decides runReference (.ofRows runKeys)).1 _ ⟨rfl, rfl, rfl⟩⟩

/-! ## The two names of a key -/

/-- The name that `run_resolution_pass` files a key under. -/
def filedName (key : String) : String :=
  String.ofList (afterLastOf ['/', '#', '.', ' '] key.toList)

/-- The key ends in a character that `extract_display_name` cuts off. -/
def EndsInSuffix (key : String) : Prop :=
  ∃ ch ∈ key.toList.getLast?, ch ∈ ['.', '#', '(', ')', ':', '!']

/-- The stored keys that have a display name, one for each row. -/
def keysNamed (rows : List (String × String)) (name : String) : List String :=
  (rows.map Prod.fst).filter fun key => extractDisplayName key = some name

section Names

variable {rows : List (String × String)} {key name : String}

lemma byDisplayName_ofRows :
    (SymbolUniverse.ofRows rows).byDisplayName name =
      (rows.map Prod.fst).filter fun key => filedName key = name := by
  rw [SymbolUniverse.ofRows, List.filter_map]
  rfl

/-- What follows the last separator ends as the text does. -/
lemma getLast?_afterLastOf {seps s : List Char} (h : afterLastOf seps s ≠ []) :
    (afterLastOf seps s).getLast? = s.getLast? := by
  rw [afterLastOf, List.getLast?_reverse]
  rw [afterLastOf, Ne, List.reverse_eq_nil_iff] at h
  rw [← List.head?_reverse]
  cases hrev : s.reverse with
  | nil => exact absurd (by rw [hrev]; rfl) h
  | cons ch rest =>
    rw [hrev, List.takeWhile_cons] at h
    split at h
    next hch => rw [List.takeWhile_cons, if_pos hch]; rfl
    next => exact absurd rfl h

/-- The display name of a key: what follows the last separator once the suffix is cut off. -/
lemma extractDisplayName_eq_some : extractDisplayName key = some name ↔
    name.toList ≠ [] ∧ name.toList = afterLastOf ['/', '#', '.', ' ']
      (trimEndMatches (fun ch => ch ∈ ['.', '#', '(', ')', ':', '!']) key.toList) := by
  unfold extractDisplayName
  dsimp only
  generalize afterLastOf _ _ = last
  cases last with
  | nil => simp
  | cons ch rest =>
    simp only [List.isEmpty_cons, Bool.false_eq_true, if_false, Option.some.injEq]
    constructor
    · rintro rfl
      simp
    · rintro ⟨-, h⟩
      rw [← h, String.ofList_toList]

lemma notMem_of_mem_afterLastOf {seps s : List Char} {ch : Char}
    (h : ch ∈ afterLastOf seps s) : ch ∉ seps := by
  rw [afterLastOf, List.mem_reverse] at h
  have hch := List.mem_takeWhile_imp h
  exact of_decide_eq_true hch

lemma afterLastOf_append_cons {seps before after : List Char} {sep : Char} (hsep : sep ∈ seps)
    (h : ∀ ch ∈ after, ch ∉ seps) : afterLastOf seps (before ++ sep :: after) = after := by
  rw [afterLastOf, List.reverse_append, List.reverse_cons, List.append_assoc,
    List.takeWhile_append_of_pos (by simpa using h), List.singleton_append, List.takeWhile_cons,
    if_neg (by simpa using hsep), List.append_nil, List.reverse_reverse]

/-- **The two names of a key agree** exactly when the key ends in no suffix: what is cut off
for the one is the end of the other. -/
lemma filedName_eq_iff (h : extractDisplayName key = some name) :
    filedName key = name ↔ ¬ EndsInSuffix key := by
  obtain ⟨hne, hname⟩ := extractDisplayName_eq_some.mp h
  constructor
  · rintro hfiled ⟨ch, hch, hsuffix⟩
    have hlast : name.toList = afterLastOf ['/', '#', '.', ' '] key.toList := by
      rw [← hfiled, filedName, String.toList_ofList]
    have hfiledLast : ch ∈ name.toList.getLast? := by
      rw [hlast, getLast?_afterLastOf (hlast ▸ hne)]
      exact hch
    -- the looked-up name ends as the trimmed key does
    rw [hname, getLast?_afterLastOf (hname ▸ hne)] at hfiledLast
    simpa [hsuffix] using not_of_mem_getLast?_trimEndMatches hfiledLast
  · intro hsuffix
    have htrim : trimEndMatches (fun ch => ch ∈ ['.', '#', '(', ')', ':', '!']) key.toList =
        key.toList :=
      trimEndMatches_eq_self fun ch hch => by
        by_contra hcut
        exact hsuffix ⟨ch, hch, of_decide_eq_true (Bool.of_not_eq_false hcut)⟩
    rw [filedName, ← htrim, ← hname, String.ofList_toList]

/-- A display name ends in nothing that is cut off and holds no separator, so that it is the
display name of every text that ends with it behind a separator. -/
lemma extractDisplayName_append_slash (h : extractDisplayName key = some name)
    (before : String) : extractDisplayName (before ++ "/" ++ name) = some name := by
  obtain ⟨hne, hname⟩ := extractDisplayName_eq_some.mp h
  have hsep : ∀ ch ∈ name.toList, ch ∉ ['/', '#', '.', ' '] := by
    intro ch hch
    rw [hname] at hch
    exact notMem_of_mem_afterLastOf hch
  have hlast : ∀ ch ∈ name.toList.getLast?,
      (decide (ch ∈ ['.', '#', '(', ')', ':', '!'])) = false := by
    intro ch hch
    rw [hname, getLast?_afterLastOf (hname ▸ hne)] at hch
    exact not_of_mem_getLast?_trimEndMatches hch
  refine extractDisplayName_eq_some.mpr ⟨hne, ?_⟩
  have htoList : (before ++ "/" ++ name).toList = before.toList ++ '/' :: name.toList := by
    simp [String.toList_append]
  rw [htoList, trimEndMatches_eq_self, afterLastOf_append_cons (by simp) hsep]
  intro ch hch
  refine hlast ch ?_
  rwa [List.getLast?_append_of_ne_nil _ (by simp), List.getLast?_cons_of_ne_nil hne] at hch

end Names

/-! ## The candidates of an ambiguous name -/

/-- The index and the lookup agree: a key with a display name is filed under it, and an internal
target with the display name of two keys or more is ambiguous between them, of which sixteen
are named. -/
structure NamesAgree (rows : List (String × String)) : Prop where
  filed : ∀ key ∈ rows.map Prod.fst, ∀ name, extractDisplayName key = some name → ∀ other,
    key ∈ (SymbolUniverse.ofRows rows).byDisplayName other ↔ other = name
  ambiguous : ∀ rel, LeftToNames rel (.ofRows rows) → ∀ name,
    extractDisplayName rel.targetRefValue = some name →
    1 < (keysNamed rows name).dedup.length →
      (resolveRelationship rel (.ofRows rows)).status = .ambiguous ∧
      (∀ c ∈ (resolveRelationship rel (.ofRows rows)).candidates,
        c.value ∈ keysNamed rows name) ∧
      (resolveRelationship rel (.ofRows rows)).candidates.length ≤ 16 ∧
      ((resolveRelationship rel (.ofRows rows)).candidates.map Candidate.value).dedup.length =
        min 16 (keysNamed rows name).dedup.length

/-- No stored key with a display name ends in a suffix. -/
def NoSuffixes (rows : List (String × String)) : Prop :=
  ∀ key ∈ rows.map Prod.fst, (extractDisplayName key).isSome → ¬ EndsInSuffix key

/-- The first sixteen rows of a name that keys share hold as many of the keys as they can: a
key that several documents define has a row for each. -/
def FirstRowsSuffice (rows : List (String × String)) : Prop :=
  ∀ name, 1 < (keysNamed rows name).dedup.length →
    ((keysNamed rows name).take 16).dedup.length = min 16 (keysNamed rows name).dedup.length

section Agree

variable {rows : List (String × String)} {key name : String} {rel : MappedRelationship}

lemma mem_keysNamed : key ∈ keysNamed rows name ↔
    key ∈ rows.map Prod.fst ∧ extractDisplayName key = some name := by
  simp only [keysNamed, List.mem_filter, decide_eq_true_eq]

lemma filed_iff : (∀ key ∈ rows.map Prod.fst, ∀ name, extractDisplayName key = some name →
      ∀ other, key ∈ (SymbolUniverse.ofRows rows).byDisplayName other ↔ other = name) ↔
    NoSuffixes rows := by
  have hmem : ∀ key ∈ rows.map Prod.fst, ∀ other,
      key ∈ (SymbolUniverse.ofRows rows).byDisplayName other ↔ filedName key = other := by
    intro key hkey other
    rw [byDisplayName_ofRows, List.mem_filter, decide_eq_true_eq, and_iff_right hkey]
  constructor
  · intro h key hkey hsome
    obtain ⟨name, hname⟩ := Option.isSome_iff_exists.mp hsome
    have hfiled := (h key hkey name hname (filedName key)).mp ((hmem key hkey _).mpr rfl)
    exact (filedName_eq_iff hname).mp hfiled
  · intro h key hkey name hname other
    have hfiled := (filedName_eq_iff hname).mpr (h key hkey (by rw [hname]; rfl))
    rw [hmem key hkey, hfiled, eq_comm]

/-- What is filed under a display name has it, if it ends in no suffix. -/
lemma extractDisplayName_of_filedName {other : String}
    (hother : extractDisplayName other = some name) (h : filedName key = name) :
    extractDisplayName key = some name := by
  obtain ⟨hne, hname⟩ := extractDisplayName_eq_some.mp hother
  have hlast : name.toList = afterLastOf ['/', '#', '.', ' '] key.toList := by
    rw [← h, filedName, String.toList_ofList]
  refine extractDisplayName_eq_some.mpr ⟨hne, ?_⟩
  rw [trimEndMatches_eq_self, hlast]
  intro ch hch
  rw [← getLast?_afterLastOf (hlast ▸ hne), ← hlast, hname,
    getLast?_afterLastOf (hname ▸ hne)] at hch
  exact not_of_mem_getLast?_trimEndMatches hch

/-- Where no key ends in a suffix, a display name finds the keys that have it. -/
lemma byDisplayName_eq_keysNamed (h : NoSuffixes rows)
    (hname : extractDisplayName key = some name) :
    (SymbolUniverse.ofRows rows).byDisplayName name = keysNamed rows name := by
  rw [byDisplayName_ofRows, keysNamed]
  refine List.filter_congr fun other hother => decide_eq_decide.mpr ⟨?_, fun hsome => ?_⟩
  · exact extractDisplayName_of_filedName hname
  · exact (filedName_eq_iff hsome).mpr (h other hother (by rw [hsome]; rfl))

/-- The last rule on a name that several rows are filed under. -/
lemma resolveByDisplayName_of_shared (hname : extractDisplayName key = some name)
    {u : SymbolUniverse} (h : 1 < (u.byDisplayName name).length) :
    (resolveByDisplayName key u).status = .ambiguous ∧
      (resolveByDisplayName key u).candidates.map Candidate.value =
        (u.byDisplayName name).take 16 := by
  rw [resolveByDisplayName, hname]
  dsimp only
  rw [if_pos h]
  simp [Function.comp_def]

/-- A target that no finite list of texts holds, with a given display name. -/
lemma exists_fresh_target (hname : extractDisplayName key = some name) (taken : List String) :
    ∃ target, target ∉ taken ∧ extractDisplayName target = some name := by
  obtain ⟨bound, hbound⟩ : ∃ bound, ∀ text ∈ taken, text.length ≤ bound :=
    ⟨(taken.map String.length).sum, fun text htext =>
      List.single_le_sum (by simp) _ (List.mem_map_of_mem htext)⟩
  refine ⟨String.ofList (List.replicate bound 'x') ++ "/" ++ name, fun htaken => ?_,
    extractDisplayName_append_slash hname _⟩
  have hlong := hbound _ htaken
  simp only [String.length_append, String.length_ofList, List.length_replicate] at hlong
  have : "/".length = 1 := rfl
  omega

/-- There is an internal relationship with any display name that comes to the last rule. -/
lemma exists_leftToNames (hname : extractDisplayName key = some name)
    (rows : List (String × String)) :
    ∃ rel, LeftToNames rel (.ofRows rows) ∧ extractDisplayName rel.targetRefValue = some name := by
  obtain ⟨target, hfresh, htarget⟩ :=
    exists_fresh_target hname (rows.map Prod.fst ++ rows.map Prod.snd)
  rw [List.mem_append, not_or] at hfresh
  refine ⟨{ runReference with targetRefValue := target },
    ⟨?_, List.not_mem_nil, hfresh.2, rfl, ScipRefKind.noConfusion⟩, htarget⟩
  rintro ⟨row, hrow, rfl⟩
  exact hfresh.1 (List.mem_map_of_mem hrow)

lemma candidates_of_noSuffixes (h : NoSuffixes rows) (hleft : LeftToNames rel (.ofRows rows))
    (hname : extractDisplayName rel.targetRefValue = some name)
    (hshared : 1 < (keysNamed rows name).dedup.length) :
    (resolveRelationship rel (.ofRows rows)).status = .ambiguous ∧
      (resolveRelationship rel (.ofRows rows)).candidates.map Candidate.value =
        (keysNamed rows name).take 16 := by
  have hlength := (List.dedup_sublist (keysNamed rows name)).length_le
  rw [resolveRelationship_of_leftToNames hleft, ← byDisplayName_eq_keysNamed h hname]
  refine resolveByDisplayName_of_shared hname ?_
  rw [byDisplayName_eq_keysNamed h hname]
  omega

end Agree

/-- **The index and the lookup agree exactly when** no stored key with a display name ends in a
suffix that the lookup cuts off, and no name that keys share spends its sixteen rows on a key
that several documents define. -/
theorem namesAgree_iff (rows : List (String × String)) :
    NamesAgree rows ↔ NoSuffixes rows ∧ FirstRowsSuffice rows := by
  constructor
  · rintro ⟨hfiled, hambiguous⟩
    have hsuffix := filed_iff.mp hfiled
    refine ⟨hsuffix, fun name hshared => ?_⟩
    obtain ⟨key, hkey⟩ := List.exists_mem_of_length_pos (Nat.zero_lt_of_lt hshared)
    rw [List.mem_dedup, mem_keysNamed] at hkey
    obtain ⟨rel, hleft, hname⟩ := exists_leftToNames hkey.2 rows
    rw [← (candidates_of_noSuffixes hsuffix hleft hname hshared).2]
    exact (hambiguous rel hleft name hname hshared).2.2.2
  · rintro ⟨hsuffix, hfirst⟩
    refine ⟨filed_iff.mpr hsuffix, fun rel hleft name hname hshared => ?_⟩
    obtain ⟨hstatus, hvalues⟩ := candidates_of_noSuffixes hsuffix hleft hname hshared
    refine ⟨hstatus, fun c hc => ?_, ?_, ?_⟩
    · have hvalue : c.value ∈ _ := List.mem_map_of_mem hc
      rw [hvalues] at hvalue
      exact List.mem_of_mem_take hvalue
    · rw [← List.length_map Candidate.value, hvalues]
      exact List.length_take_le _ _
    · rw [hvalues]
      exact hfirst name hshared

/-- Two methods of one name, as a SCIP index spells them. -/
def methodKeys : List (String × String) :=
  [("scip:p a/Foo#run().", "a.rs"), ("scip:p b/Bar#run().", "b.rs")]

/-- The methods are filed under an empty name, so that a third one is not found to have
theirs. -/
theorem methodKeys_not_namesAgree : ¬ NamesAgree methodKeys := by
  intro h
  have hambiguous := (h.ambiguous { runReference with targetRefValue := "scip:p c/Baz#run()." }
    ⟨by decide, by decide, by decide, rfl, ScipRefKind.noConfusion⟩
    "run" (by decide) (by decide)).1
  exact absurd hambiguous (by decide)

end WorkspaceAtlas
