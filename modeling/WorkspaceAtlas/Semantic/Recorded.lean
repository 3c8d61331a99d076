/-
# What is recorded of executions

Of the executions with one id the first that is recorded stays, whatever becomes of the later
ones.  So a provider that failed and then succeeds with the same inputs stays recorded as
failed, and is run again and again.  Of the scopes of a provider the first one decides what
coverage is recorded for it.
-/
import WorkspaceAtlas.Semantic.Execution

namespace WorkspaceAtlas

open Relational Transition Text

namespace Execution

/-! ## Runs -/

/-- A call of `run_one_plan`: its generation and its plan. -/
abbrev Call := String × PlannedExecution

/-- A call; one that ends with an error is rolled back.  A call whose facts cannot be stored is one
of these, as is one whose output cannot be read. -/
def step (H : Hasher) (workspaceId : String) (s : ExecutionTables) (c : Call) : ExecutionTables :=
  match runOnePlan H workspaceId c.1 s c.2 with
  | .ok (s', _) => s'
  | .error _ => s

/-- The tables after some calls. -/
def history (H : Hasher) (workspaceId : String) (calls : List Call) : ExecutionTables :=
  calls.foldl (step H workspaceId) .empty

/-- What is recorded under an id, if the call runs its provider. -/
def recordedAs (H : Hasher) (workspaceId : String) (id : String) (c : Call) :
    Option (ExecutionIdentity × ProviderOutcome) :=
  (attempted workspaceId c.2).filter fun a => a.1.id H = id

/-- The first of some calls that would be recorded under an id. -/
def firstAttempt (H : Hasher) (workspaceId : String) (calls : List Call) (id : String) :
    Option (ExecutionIdentity × ProviderOutcome) :=
  calls.findSome? (recordedAs H workspaceId id)

/-- A later call with the same inputs. -/
structure SameInputs (workspaceId : String) (c next : Call) : Prop where
  probe : next.2.probeAvailable = true
  identity_eq : ∃ fp fp', c.2.inputFingerprint = .ok fp ∧ next.2.inputFingerprint = .ok fp' ∧
    next.2.identity workspaceId fp' = c.2.identity workspaceId fp

/-- Whenever a provider was run and ended with documents, its row has the status that it ended
with, and a call with the same inputs does not run it again. -/
def Truthful (H : Hasher) (workspaceId : String) (calls : List Call) : Prop :=
  ∀ pre c post, calls = pre ++ c :: post → ∀ fp s' documents, c.2.inputFingerprint = .ok fp →
    runOnePlan H workspaceId c.1 (history H workspaceId pre) c.2 = .ok (s', .executed documents) →
      (∃ row ∈ s'.providerExecution, row.identity = c.2.identity workspaceId fp ∧
        row.status = finalStatus documents) ∧
        ∀ next, SameInputs workspaceId c next →
          ∃ s'', runOnePlan H workspaceId next.1 s' next.2 = .ok (s'', .reused)

/-- If a call can succeed, the first one that can be recorded under its id has the same inputs
and can succeed, too. -/
def FirstTrySucceeds (H : Hasher) (workspaceId : String) (calls : List Call) : Prop :=
  ∀ pre c post, calls = pre ++ c :: post → ∀ k o, attempted workspaceId c.2 = some (k, o) →
    o.isReusable = true → ∀ k' o', firstAttempt H workspaceId pre (k.id H) = some (k', o') →
      k' = k ∧ o'.isReusable = true

section Lemmas

variable {H : Hasher} {ws gid : String} {s s' : ExecutionTables} {p : PlannedExecution}
  {r : PlanResult} {k : ExecutionIdentity} {o : ProviderOutcome} {c : Call} {calls : List Call}
  {id : String}

/-- The ids of the rows are hashed from their identities. -/
def HashedIds (H : Hasher) (s : ExecutionTables) : Prop :=
  ∀ e ∈ s.providerExecution, e.providerExecutionId = e.identity.id H

/-- What is recorded under an id. -/
def recorded (s : ExecutionTables) (id : String) : Option (ExecutionIdentity × ProviderOutcome) :=
  (s.providerExecution.find? fun e => e.providerExecutionId = id).map fun e =>
    (e.identity, e.status)

lemma recorded_of_mem {e : ProviderExecution} (he : e ∈ s.providerExecution) :
    recorded s e.providerExecutionId = some (e.identity, e.status) := by
  have hfind : (s.providerExecution.find? fun x =>
      x.providerExecutionId = e.providerExecutionId) = some e := by
    refine (Table.find?_eq_some_iff fun x _ y _ hx hy => ?_).mpr ⟨he, decide_eq_true rfl⟩
    exact Or.inl ((of_decide_eq_true hx).trans (of_decide_eq_true hy).symm)
  rw [recorded, hfind]
  rfl

/-- A record stays, and a new one is added if there is none with its id. -/
lemma recorded_recordExecution (hs : HashedIds H s) :
    HashedIds H (recordExecution H s gid k o) ∧
      recorded (recordExecution H s gid k o) id =
        (recorded s id).or (if k.id H = id then some (k, o) else none) := by
  constructor
  · intro e he
    rcases Table.mem_insertOrIgnore.mp he with he | ⟨rfl, -⟩
    · exact hs e he
    · rfl
  · have hfind := @Table.find?_insertOrIgnore _ _ s.providerExecution ⟨k.id H, k, gid, o⟩
      (fun e => decide (e.providerExecutionId = id)) (by
        rintro x hx (hid | hidentity)
        · rw [hid]
        · rw [hs x hx, hidentity])
    show Option.map _ (Table.find? (Table.insertOrIgnore _ _) _) = _
    rw [hfind, Option.map_or, recorded]
    refine congrArg (Option.or _) ?_
    by_cases hid : k.id H = id
    · rw [if_pos hid, if_pos (decide_eq_true hid)]
      rfl
    · rw [if_neg hid, if_neg (by simpa using hid)]
      rfl

/-- A call that ends with an error would not have been recorded. -/
lemma attempted_of_error {e : AtlasError} (h : runOnePlan H ws gid s p = .error e) :
    attempted ws p = none ∨ ∃ fp, p.inputFingerprint = .ok fp ∧
      (findReusableExecution s.providerExecution (p.identity ws fp)).isSome = true := by
  rw [runOnePlan] at h
  by_cases hprobe : p.probeAvailable = true
  · rw [if_neg (by simp [hprobe])] at h
    cases hfp : p.inputFingerprint with
    | error e => exact Or.inl (by simp [attempted, hprobe, hfp])
    | ok fp =>
      rw [hfp] at h
      dsimp only at h
      cases hfind : findReusableExecution s.providerExecution (p.identity ws fp) with
      | some e => exact Or.inr ⟨fp, rfl, by rw [hfind]; rfl⟩
      | none =>
        rw [hfind] at h
        dsimp only at h
        cases hspawn : p.spawn with
        | error e => exact Or.inl (by simp [attempted, hprobe, hfp, hspawn])
        | ok o =>
          rw [hspawn] at h
          dsimp only at h
          split at h
          · exact absurd h (by simp)
          next ho =>
            cases hout : p.output with
            | unreadable e => exact Or.inl (by simp_all [attempted])
            | _ => simp [hout] at h
  · exact Or.inl (by simp [attempted, hprobe])

lemma attempted_identity {a : ExecutionIdentity × ProviderOutcome} {fp : String}
    (h : attempted ws p = some a) (hfp : p.inputFingerprint = .ok fp) :
    a.1 = p.identity ws fp := by
  rw [attempted] at h
  split at h
  next fp' o hp hfp' ho =>
    obtain rfl : fp = fp' := Except.ok.inj (hfp.symm.trans hfp')
    split at h
    · exact (Option.some.inj h) ▸ rfl
    · split at h
      · exact (Option.some.inj h) ▸ rfl
      · exact absurd h (by simp)
      · exact (Option.some.inj h) ▸ rfl
      · exact (Option.some.inj h) ▸ rfl
  · exact absurd h (by simp)

/-- A call adds what it would be recorded as, if nothing is recorded under its id. -/
lemma recorded_step (hs : HashedIds H s) : HashedIds H (step H ws s c) ∧
    recorded (step H ws s c) id = (recorded s id).or (recordedAs H ws id c) := by
  -- what can be recorded only under an id that is taken is not
  have htaken : ∀ fp, c.2.inputFingerprint = .ok fp →
      (findReusableExecution s.providerExecution (c.2.identity ws fp)).isSome = true →
        (recorded s id).or (recordedAs H ws id c) = recorded s id := by
    intro fp hfp hsome
    obtain ⟨e, hfind⟩ := Option.isSome_iff_exists.mp hsome
    obtain ⟨hmem, hidentity, -⟩ := findReusableExecution_some hfind
    cases hrec : recorded s id with
    | some a => rfl
    | none =>
      rw [Option.none_or]
      cases hatt : recordedAs H ws id c with
      | none => rfl
      | some a =>
        obtain ⟨hatt, hid⟩ := Option.filter_eq_some_iff.mp hatt
        have hown : a.1 = c.2.identity ws fp := attempted_identity hatt hfp
        have hrow := recorded_of_mem hmem
        rw [hs e hmem, hidentity, ← hown, of_decide_eq_true hid, hrec] at hrow
        exact absurd hrow (by simp)
  rw [step]
  cases h : runOnePlan H ws c.1 s c.2 with
  | error e =>
    dsimp only
    refine ⟨hs, ?_⟩
    rcases attempted_of_error h with hnone | ⟨fp, hfp, hsome⟩
    · rw [recordedAs, hnone, Option.filter_none, Option.or_none]
    · exact (htaken fp hfp hsome).symm
  | ok res =>
    obtain ⟨s', r⟩ := res
    dsimp only
    have hended := runOnePlan_ended h
    cases hended with
    | unavailable hprobe =>
      refine ⟨hs, ?_⟩
      rw [recordedAs, attempted, hprobe, Option.filter_none, Option.or_none]
      rfl
    | reused fp e hprobe hfp hfind =>
      refine ⟨hs, ?_⟩
      rw [htaken fp hfp (by rw [hfind]; rfl)]
      rfl
    | failed fp o hprobe hfp hfind hrun hfail =>
      obtain ⟨hhashed, hrec⟩ := @recorded_recordExecution H c.1 s (c.2.identity ws fp) o id hs
      refine ⟨hhashed, hrec.trans (congrArg (Option.or _) ?_)⟩
      rw [recordedAs, hrun, Option.filter_some]
      simp
    | executed fp documents hprobe hfp hfind hrun =>
      obtain ⟨hhashed, hrec⟩ := @recorded_recordExecution H c.1 s (c.2.identity ws fp)
        (finalStatus documents) id hs
      refine ⟨hhashed, hrec.trans (congrArg (Option.or _) ?_)⟩
      rw [recordedAs, hrun, Option.filter_some]
      simp

/-- Under every id the first call that would be recorded is. -/
lemma recorded_history : HashedIds H (history H ws calls) ∧
    recorded (history H ws calls) id = firstAttempt H ws calls id := by
  have hgen : ∀ s, HashedIds H s → HashedIds H (calls.foldl (step H ws) s) ∧
      recorded (calls.foldl (step H ws) s) id =
        (recorded s id).or (firstAttempt H ws calls id) := by
    induction calls with
    | nil => exact fun s hs => ⟨hs, Option.or_none.symm⟩
    | cons c calls ih =>
      intro s hs
      obtain ⟨hstep, hrec⟩ := @recorded_step H ws s c id hs
      obtain ⟨hhashed, hrest⟩ := ih (step H ws s c) hstep
      refine ⟨hhashed, hrest.trans ?_⟩
      rw [hrec, Option.or_assoc, firstAttempt, firstAttempt, List.findSome?_cons]
      cases recordedAs H ws id c <;> rfl
  exact hgen .empty fun e he => absurd he Table.not_mem_empty

lemma exists_of_recorded (h : recorded s id = some (k, o)) :
    ∃ e ∈ s.providerExecution, e.identity = k ∧ e.status = o := by
  obtain ⟨e, hfind, he⟩ := Option.map_eq_some_iff.mp h
  obtain ⟨hk, ho⟩ := Prod.mk.inj he
  exact ⟨e, Table.mem_of_find? hfind, hk, ho⟩

lemma finalStatus_isReusable {documents : List ProviderDocument} :
    (finalStatus documents).isReusable = true := by
  rw [finalStatus]
  split <;> rfl

/-- What would end well is reused, or it is run and ends with documents. -/
lemma runOnePlan_of_attempted (hrun : attempted ws p = some (k, o)) (ho : o.isReusable = true) :
    (∃ e, findReusableExecution s.providerExecution k = some e) ∨
      ∃ fp s' documents, p.inputFingerprint = .ok fp ∧ k = p.identity ws fp ∧
        o = finalStatus documents ∧ runOnePlan H ws gid s p = .ok (s', .executed documents) := by
  cases hrun' : runOnePlan H ws gid s p with
  | error e =>
    rcases attempted_of_error hrun' with hnone | ⟨fp, hfp, hsome⟩
    · exact absurd (hrun.symm.trans hnone) (by simp)
    · obtain ⟨e, hfind⟩ := Option.isSome_iff_exists.mp hsome
      have hk : k = p.identity ws fp := attempted_identity hrun hfp
      exact Or.inl ⟨e, hk ▸ hfind⟩
  | ok res =>
    obtain ⟨s', r⟩ := res
    cases runOnePlan_ended hrun' with
    | unavailable hprobe => simp [attempted, hprobe] at hrun
    | reused fp e hprobe hfp hfind =>
      have hk : k = p.identity ws fp := attempted_identity hrun hfp
      exact Or.inl ⟨e, hk ▸ hfind⟩
    | failed fp o' hprobe hfp hfind hrun'' hfail =>
      obtain ⟨-, rfl⟩ := Prod.mk.inj (Option.some.inj (hrun.symm.trans hrun''))
      exact absurd ho (by simp [hfail])
    | executed fp documents hprobe hfp hfind hrun'' =>
      obtain ⟨hk, ho'⟩ := Prod.mk.inj (Option.some.inj (hrun.symm.trans hrun''))
      exact Or.inr ⟨fp, _, documents, hfp, hk, ho', rfl⟩

/-- What is recorded of a call that is run is what the call comes to, if no earlier one has the
id. -/
lemma recorded_executed {documents : List ProviderDocument} {fp : String}
    (hfp : p.inputFingerprint = .ok fp)
    (hrun : runOnePlan H ws gid (history H ws calls) p = .ok (s', .executed documents)) :
    attempted ws p = some (p.identity ws fp, finalStatus documents) ∧
      findReusableExecution (history H ws calls).providerExecution (p.identity ws fp) = none ∧
      recorded s' ((p.identity ws fp).id H) =
        (firstAttempt H ws calls ((p.identity ws fp).id H)).or
          (some (p.identity ws fp, finalStatus documents)) := by
  cases runOnePlan_ended hrun with
  | executed fp' _ hprobe hfp' hfind hrun' =>
    obtain rfl : fp = fp' := Except.ok.inj (hfp.symm.trans hfp')
    obtain ⟨hhashed, hrec⟩ := @recorded_history H ws calls ((p.identity ws fp).id H)
    refine ⟨hrun', hfind, ?_⟩
    rw [(recorded_recordExecution hhashed).2, hrec, if_pos rfl]

/-- The rows are truthful, and what ended well is reused, if and only if of the calls with one id
that can be recorded the first one has the same inputs as the one that succeeds, and succeeds. -/
theorem truthful_iff_firstTrySucceeds (H : Hasher) (ws : String) (calls : List Call) :
    Truthful H ws calls ↔ FirstTrySucceeds H ws calls := by
  constructor
  · intro htrue pre c post hcalls k o hrun ho k' o' hfirst
    obtain ⟨hhashed, hrec⟩ := @recorded_history H ws pre (k.id H)
    rw [hfirst] at hrec
    rcases @runOnePlan_of_attempted H ws c.1 (history H ws pre) c.2 k o hrun ho with
      ⟨e, hfind⟩ | ⟨fp, s', documents, hfp, rfl, rfl, hexec⟩
    · -- a row with these inputs is reused, and it is the one that is recorded
      obtain ⟨he, hk, hs⟩ := findReusableExecution_some hfind
      have hrow := recorded_of_mem he
      rw [hhashed e he, hk, hrec] at hrow
      obtain ⟨rfl, rfl⟩ := Prod.mk.inj (Option.some.inj hrow)
      exact ⟨rfl, hs⟩
    · -- the row that it finds after its run is the one that was recorded first
      obtain ⟨⟨row, hrow, hk, hstatus⟩, -⟩ := htrue pre c post hcalls fp s' documents hfp hexec
      obtain ⟨-, -, hafter⟩ := recorded_executed hfp hexec
      have hhashed' : HashedIds H s' := by
        have hstep := (@recorded_step H ws (history H ws pre) c "" hhashed).1
        rwa [step, hexec] at hstep
      have hrec' := recorded_of_mem hrow
      rw [hhashed' row hrow, hk, hafter, hfirst, hstatus] at hrec'
      obtain ⟨rfl, rfl⟩ := Prod.mk.inj (Option.some.inj hrec')
      exact ⟨rfl, ho⟩
  · intro hfirst pre c post hcalls fp s' documents hfp hexec
    obtain ⟨hrun, hfind, hafter⟩ := recorded_executed hfp hexec
    -- no earlier call is recorded under the id: it would have been reused
    have hnone : firstAttempt H ws pre ((c.2.identity ws fp).id H) = none := by
      cases hearlier : firstAttempt H ws pre ((c.2.identity ws fp).id H) with
      | none => rfl
      | some a =>
        obtain ⟨hk, ho⟩ := hfirst pre c post hcalls _ _ hrun finalStatus_isReusable _ _ hearlier
        obtain ⟨e, he, hek, heo⟩ := exists_of_recorded (recorded_history.2.trans hearlier)
        rw [findReusableExecution_of_mem he (hek.trans hk) (heo ▸ ho)] at hfind
        exact absurd hfind (by simp)
    rw [hnone, Option.none_or] at hafter
    obtain ⟨e, he, hek, heo⟩ := exists_of_recorded hafter
    refine ⟨⟨e, he, hek, heo⟩, ?_⟩
    rintro next ⟨hprobe, fp₀, fp', hfp₀, hfp', hsame⟩
    obtain rfl : fp = fp₀ := Except.ok.inj (hfp.symm.trans hfp₀)
    have hreuse := findReusableExecution_of_mem he hek (heo ▸ finalStatus_isReusable)
    refine ⟨recordProviderCoverage H s' next.1 next.2.providerKey e.status, ?_⟩
    rw [runOnePlan, if_neg (by simp [hprobe]), hfp']
    dsimp only
    rw [hsame, hreuse]

end Lemmas

/-! ## A provider that times out once -/

/-- A plan whose provider comes to an outcome, with some documents. -/
def tried (spawn : SpawnOutcome) (scopeKey : String) (documents : List ProviderDocument) :
    PlannedExecution where
  providerName := "scip-rust"
  providerVersion := "1"
  configurationHash := ""
  required := false
  enabled := true
  providerKey := "pk"
  scopeKey := scopeKey
  mappingPolicyVersion := "1"
  probeAvailable := true
  inputFingerprint := .ok "fp"
  spawn := .ok spawn
  output := .decoded documents

/-- The provider times out, and then it ends well with the same inputs. -/
def retried : List Call :=
  [("g₁", tried .timedOut "s" []), ("g₂", tried (.exited (some 0)) "s" [])]

/-- The row of the provider that ended well has the status `timed_out`. -/
theorem retried_not_truthful : ¬ Truthful Hasher.plain "ws" retried := by
  intro htrue
  have hrun : (runOnePlan Hasher.plain "ws" "g₂" (history Hasher.plain "ws" [retried[0]])
      (tried (.exited (some 0)) "s" [])).toOption.map
        (fun res => (res.2, res.1.providerExecution.rows.map ProviderExecution.status)) =
      some (.executed [], [.timedOut]) := by
    decide
  obtain ⟨⟨s', r⟩, hok, hres⟩ := Option.map_eq_some_iff.mp hrun
  obtain ⟨rfl, hrows⟩ := Prod.mk.inj hres
  obtain ⟨⟨row, hrow, -, hstatus⟩, -⟩ :=
    htrue [retried[0]] _ [] rfl "fp" s' [] rfl (ok_of_toOption hok)
  have hmem := List.mem_map_of_mem (f := ProviderExecution.status) hrow
  rw [hstatus, hrows] at hmem
  exact absurd hmem (by decide)

/-! ## Coverage of a generation -/

/-- How a scope ended: as its provider did, or as the execution that is reused did. -/
def endedAs (workspaceId : String) (s : ExecutionTables) (p : PlannedExecution) :
    PlanResult → Option ProviderOutcome
  | .error _ => none
  | .failure o => some o
  | .executed documents => some (finalStatus documents)
  | .reused =>
    match p.inputFingerprint with
    | .ok fp =>
      (findReusableExecution s.providerExecution (p.identity workspaceId fp)).map
        ProviderExecution.status
    | .error _ => none

/-- The providers of the scopes of some plans, and how the scopes ended. -/
def scopeOutcomes (H : Hasher) (workspaceId generationId : String) :
    ExecutionTables → List PlannedExecution → List (String × ProviderOutcome)
  | _, [] => []
  | s, p :: plans =>
    if ¬ p.enabled then scopeOutcomes H workspaceId generationId s plans
    else
      match runOnePlan H workspaceId generationId s p with
      | .ok (s', r) =>
        (endedAs workspaceId s p r).toList.map (Prod.mk p.providerKey) ++
          scopeOutcomes H workspaceId generationId s' plans
      | .error _ => []

/-- A provider whose coverage in a generation is complete ended all of its scopes complete. -/
def NotOverstated (generationId : String) (s : ExecutionTables)
    (outcomes : List (String × ProviderOutcome)) : Prop :=
  ∀ row ∈ s.coverageRecord, row.generationId = generationId → row.scopeKind = .provider →
    row.status = .complete → ∀ o, (row.scopeKey, o) ∈ outcomes → o = .complete

/-- A provider that ended its first scope complete ended all of them complete. -/
def FirstDecides (outcomes : List (String × ProviderOutcome)) : Prop :=
  ∀ key, outcomes.find? (fun a => a.1 = key) = some (key, .complete) →
    ∀ o, (key, o) ∈ outcomes → o = .complete

/-- No coverage of a provider in the generation is recorded yet. -/
structure FreshCoverage (H : Hasher) (generationId : String) (s : ExecutionTables) : Prop where
  plain : '\x1f' ∉ generationId.toList
  rows_plain : ∀ row ∈ s.coverageRecord, '\x1f' ∉ row.generationId.toList
  rows_hashed : ∀ row ∈ s.coverageRecord,
    row.coverageId = coverageId H row.generationId row.scopeKind row.scopeKey
  unused : ∀ row ∈ s.coverageRecord, row.generationId = generationId → row.scopeKind ≠ .provider

/-- The coverage that is recorded for a scope. -/
def coverageRow (H : Hasher) (generationId : String) (a : String × ProviderOutcome) :
    ScopedCoverage :=
  ⟨⟨coverageId H generationId .provider a.1, generationId, none, .provider,
    coverageStatusForOutcome a.2⟩, a.1⟩

section Coverage

variable {H : Hasher} {ws gid : String} {s s' : ExecutionTables} {p : PlannedExecution}
  {r : PlanResult} {outcomes : List (String × ProviderOutcome)} {key : String}
  {revisions : Table FileRevision} {files : Table GenerationFile} {now : Timestamp}
  {plans : List PlannedExecution}

lemma coverageStatusForOutcome_eq_complete {o : ProviderOutcome} :
    coverageStatusForOutcome o = .complete ↔ o = .complete := by
  cases o <;> decide

lemma not_mem_asStr (kind : CoverageScope) : '\x1f' ∉ kind.asStr.toList := by
  cases kind <;> decide

lemma coverageId_inj (hH : H.Injective) {gid₁ gid₂ key₁ key₂ : String} {kind₁ kind₂ : CoverageScope}
    (h₁ : '\x1f' ∉ gid₁.toList) (h₂ : '\x1f' ∉ gid₂.toList)
    (h : coverageId H gid₁ kind₁ key₁ = coverageId H gid₂ kind₂ key₂) :
    gid₁ = gid₂ ∧ kind₁.asStr = kind₂.asStr ∧ key₁ = key₂ := by
  have htext := (deterministicId_eq_iff hH).mp h
  simp only [List.flatMap_cons, List.flatMap_nil, List.append_nil, List.append_assoc] at htext
  obtain ⟨hgid, htext⟩ := append_sep_inj h₁ h₂ htext
  obtain ⟨hkind, htext⟩ := append_sep_inj (not_mem_asStr kind₁) (not_mem_asStr kind₂) htext
  exact ⟨String.toList_inj.mp hgid, String.toList_inj.mp hkind,
    String.toList_inj.mp (List.append_cancel_right htext)⟩

/-- A plan records the coverage of its scope. -/
lemma coverageRecord_runOnePlan (h : runOnePlan H ws gid s p = .ok (s', r)) :
    ∃ o, endedAs ws s p r = some o ∧
      s'.coverageRecord = s.coverageRecord.insertOrIgnore (coverageRow H gid (p.providerKey, o)) := by
  cases runOnePlan_ended h with
  | unavailable hprobe => exact ⟨.unavailable, rfl, rfl⟩
  | reused fp e hprobe hfp hfind => exact ⟨e.status, by rw [endedAs, hfp]; simp [hfind], rfl⟩
  | failed fp o hprobe hfp hfind hrun hfail => exact ⟨o, rfl, rfl⟩
  | executed fp documents hprobe hfp hfind hrun => exact ⟨finalStatus documents, rfl, rfl⟩

/-- Some plans record the coverage of their scopes. -/
lemma coverageRecord_runSemanticReconcile {t t' : SemanticState}
    (h : plans.foldlM (reconcilePlan H revisions files ws gid now) (s, t) = .ok (s', t')) :
    s'.coverageRecord =
      ((scopeOutcomes H ws gid s plans).map (coverageRow H gid)).foldl Table.insertOrIgnore
        s.coverageRecord := by
  induction plans generalizing s t with
  | nil =>
    obtain ⟨rfl, -⟩ := Prod.mk.inj (Except.ok.inj h)
    rfl
  | cons p plans ih =>
    obtain ⟨⟨s₁, t₁⟩, hstep, hrest⟩ := foldlM_cons_ok.mp h
    rw [ih hrest, scopeOutcomes]
    rw [reconcilePlan] at hstep
    by_cases henabled : p.enabled = true
    · rw [if_neg (by simp [henabled])] at hstep ⊢
      obtain ⟨⟨s₂, r⟩, hplan, hstep⟩ := bind_ok.mp hstep
      obtain ⟨t₂, hfacts, hstep⟩ := bind_ok.mp hstep
      obtain ⟨rfl, -⟩ := Prod.mk.inj (Except.ok.inj hstep)
      obtain ⟨o, hended, hrow⟩ := coverageRecord_runOnePlan hplan
      rw [hplan]
      dsimp only
      rw [hended, hrow]
      rfl
    · rw [if_pos (by simpa using henabled)] at hstep ⊢
      obtain ⟨rfl, -⟩ := Prod.mk.inj (Except.ok.inj hstep)
      rfl

/-- The coverage of a provider is that of the first of its scopes. -/
lemma find?_coverage (hH : H.Injective) (hfresh : FreshCoverage H gid s)
    (hs' : s'.coverageRecord =
      (outcomes.map (coverageRow H gid)).foldl Table.insertOrIgnore s.coverageRecord) :
    s'.coverageRecord.find? (fun row => row.coverageId = coverageId H gid .provider key) =
      (outcomes.find? fun a => a.1 = key).map (coverageRow H gid) := by
  have hnone : s.coverageRecord.find?
      (fun row => row.coverageId = coverageId H gid .provider key) = none := by
    refine Table.find?_eq_none.mpr fun row hrow => decide_eq_false fun hid => ?_
    rw [hfresh.rows_hashed row hrow] at hid
    obtain ⟨hgid, hkind, -⟩ := coverageId_inj hH (hfresh.rows_plain row hrow) hfresh.plain hid
    refine hfresh.unused row hrow hgid ?_
    cases hk : row.scopeKind with
    | provider => rfl
    | _ => rw [hk] at hkind; exact absurd hkind (by decide)
  have hsame : ∀ x y : ScopedCoverage, Keyed.Clash x y →
      decide (x.coverageId = coverageId H gid .provider key) =
        decide (y.coverageId = coverageId H gid .provider key) := by
    intro x y hclash
    rw [show x.coverageId = y.coverageId from hclash]
  rw [hs', Table.find?_foldl_insertOrIgnore hsame, hnone, Option.none_or, List.find?_map]
  refine congrArg (Option.map _) (congrArg (List.find? · outcomes) (funext fun a => ?_))
  refine decide_eq_decide.mpr ⟨fun h => ?_, fun h => ?_⟩
  · exact (coverageId_inj hH hfresh.plain hfresh.plain h).2.2
  · exact congrArg (coverageId H gid .provider) h

/-- No coverage is overstated if and only if of every provider that ended its first scope complete
no scope ended otherwise. -/
theorem notOverstated_iff_firstDecides (H : Hasher) (hH : H.Injective)
    (revisions : Table FileRevision) (files : Table GenerationFile) (s s' : ExecutionTables)
    (t : FactTables) (t' : SemanticState) (ws gid : String) (plans : List PlannedExecution)
    (now : Timestamp) (hfresh : FreshCoverage H gid s)
    (hok : runSemanticReconcile H revisions files s t ws gid plans now = .ok (s', t')) :
    NotOverstated gid s' (scopeOutcomes H ws gid s plans) ↔
      FirstDecides (scopeOutcomes H ws gid s plans) := by
  have hs' := coverageRecord_runSemanticReconcile hok
  constructor
  · intro hnot key hfirst o ho
    have hfind := @find?_coverage H gid s s' _ key hH hfresh hs'
    rw [hfirst] at hfind
    have hmem := Table.mem_of_find? hfind
    exact hnot _ hmem rfl rfl rfl o ho
  · intro hfirst row hrow hgid hkind hcomplete o ho
    -- the row was not there before, and so it is that of the first scope
    have hid : row.coverageId = coverageId H gid .provider row.scopeKey := by
      rw [hs'] at hrow
      rcases Table.mem_of_mem_foldl_insertOrIgnore hrow with hrow | hrow
      · exact absurd hkind (hfresh.unused row hrow hgid)
      · obtain ⟨a, -, rfl⟩ := List.mem_map.mp hrow
        rfl
    have hfind : s'.coverageRecord.find?
        (fun x => x.coverageId = coverageId H gid .provider row.scopeKey) = some row := by
      refine (Table.find?_eq_some_iff fun x _ y _ hx hy => ?_).mpr ⟨hrow, decide_eq_true hid⟩
      exact (of_decide_eq_true hx).trans (of_decide_eq_true hy).symm
    rw [find?_coverage hH hfresh hs'] at hfind
    obtain ⟨a, ha, rfl⟩ := Option.map_eq_some_iff.mp hfind
    refine hfirst a.1 (ha.trans (congrArg some (Prod.ext rfl ?_))) o ho
    exact coverageStatusForOutcome_eq_complete.mp hcomplete

end Coverage

/-! ## A provider with two scopes -/

/-- The first scope of the provider ends well, and the second one times out. -/
def twoScopes : List PlannedExecution :=
  [tried (.exited (some 0)) "s₁" [], tried .timedOut "s₂" []]

lemma empty_freshCoverage : FreshCoverage Hasher.plain "g" .empty where
  plain := by decide
  rows_plain _ hx := absurd hx Table.not_mem_empty
  rows_hashed _ hx := absurd hx Table.not_mem_empty
  unused _ hx := absurd hx Table.not_mem_empty

lemma twoScopes_ok : ∃ s' t', runSemanticReconcile Hasher.plain .empty .empty .empty .empty "ws" "g"
    twoScopes 1 = .ok (s', t') ∧ s'.coverageRecord.rows = [coverageRow Hasher.plain "g"
      ("pk", .complete)] := by
  have hrun : (runSemanticReconcile Hasher.plain .empty .empty .empty .empty "ws" "g"
      twoScopes 1).toOption.map (fun r => r.1.coverageRecord.rows) =
        some [coverageRow Hasher.plain "g" ("pk", .complete)] := by
    decide
  obtain ⟨⟨s', t'⟩, hok, hrows⟩ := Option.map_eq_some_iff.mp hrun
  exact ⟨s', t', ok_of_toOption hok, hrows⟩

theorem firstDecides_iff_twoScopes : ∃ s' t', runSemanticReconcile Hasher.plain .empty .empty
    .empty .empty "ws" "g" twoScopes 1 = .ok (s', t') ∧
      (NotOverstated "g" s' (scopeOutcomes Hasher.plain "ws" "g" .empty twoScopes) ↔
        FirstDecides (scopeOutcomes Hasher.plain "ws" "g" .empty twoScopes)) := by
  obtain ⟨s', t', hok, -⟩ := twoScopes_ok
  exact ⟨s', t', hok, notOverstated_iff_firstDecides Hasher.plain Hasher.plain_injective .empty
    .empty .empty s' .empty t' "ws" "g" twoScopes 1 empty_freshCoverage hok⟩

/-- The coverage of the provider is complete, and its second scope timed out. -/
theorem twoScopes_overstated : ∃ s' t', runSemanticReconcile Hasher.plain .empty .empty
    .empty .empty "ws" "g" twoScopes 1 = .ok (s', t') ∧
      ¬ NotOverstated "g" s' (scopeOutcomes Hasher.plain "ws" "g" .empty twoScopes) := by
  obtain ⟨s', t', hok, hrows⟩ := twoScopes_ok
  refine ⟨s', t', hok, fun hnot => ?_⟩
  have hrow : coverageRow Hasher.plain "g" ("pk", .complete) ∈ s'.coverageRecord := by
    rw [Table.mem_def, hrows]
    exact List.mem_singleton_self _
  have htimedOut : ("pk", .timedOut) ∈ scopeOutcomes Hasher.plain "ws" "g" .empty twoScopes := by
    decide
  exact absurd (hnot _ hrow rfl rfl rfl _ htimedOut) (by decide)

end Execution

end WorkspaceAtlas
