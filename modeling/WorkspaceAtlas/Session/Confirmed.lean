/-
# What compaction deletes was confirmed

A manifest lists finished sessions of its workspace and metrics without a session, each of them
once and with the counts of what is deleted with it.  Whoever confirms the digest of a manifest
has confirmed its entries, and nothing else is deleted.  What an entry lists is there to be
deleted, so that every round leaves fewer rows and a last one leaves nothing to list.
-/
import WorkspaceAtlas.Session.Compaction

namespace WorkspaceAtlas

open Relational

namespace SessionStore

variable {s : SessionStore} {workspaceId : String} {asOf : Instant}
  {entries : List PrivacyCompactionEntry} {e : PrivacyCompactionEntry} {c : CompletedSession}

/-! ## The entries of a manifest -/

/-- A session that compaction may affect. -/
def IsAffected (s : SessionStore) (workspaceId : String) (asOf : Instant) (id : String) : Prop :=
  ∃ ts ∈ s.taskSession, ts.taskSessionId = id ∧ ts.workspaceId = workspaceId ∧
    (ts.state = .completed ∨ ts.state = .abandoned ∨ ts.state = .failed) ∧
    ∃ c, completedSession ts = some c ∧
      ((c.completedAt : ℤ) < cutoffMillis structuredRetentionDays asOf ∨
        maxCompletedSessions ≤
          (s.completedSessions workspaceId).countP fun d => rankKey d < rankKey c)

lemma cutoffMillis_summary_le : cutoffMillis summaryRetentionDays asOf ≤
    cutoffMillis structuredRetentionDays asOf := by
  rw [cutoffMillis_eq, cutoffMillis_eq, summaryRetentionDays, structuredRetentionDays]
  omega

lemma isAffected_of_expired (h : c ∈ s.expiredSessions workspaceId asOf) :
    s.IsAffected workspaceId asOf c.taskSessionId := by
  obtain ⟨rank, hranked, hexpired⟩ := mem_expiredSessions h
  obtain ⟨hc, hrank⟩ := mem_rankedSessions hranked
  obtain ⟨ts, hts, hws, hcompleted⟩ := mem_completedSessions.mp hc
  obtain ⟨hstate, -, hid, -⟩ := completedSession_eq_some hcompleted
  refine ⟨ts, hts, hid, hws, hstate, c, hcompleted, ?_⟩
  simp only [isExpired, Bool.or_eq_true, Bool.and_eq_true, decide_eq_true_eq] at hexpired
  rcases hexpired with hsummary | ⟨hstructured | hbeyond, -⟩
  · exact Or.inl (hsummary.trans_le cutoffMillis_summary_le)
  · exact Or.inl hstructured
  · refine Or.inr ?_
    dsimp only at hrank
    omega

lemma isCounted_of_mem (h : e ∈ s.manifestEntries workspaceId asOf) :
    s.IsCounted workspaceId e := by
  rcases mem_manifestEntries.mp h with ⟨c, hc, rfl⟩ | ⟨m, hm, rfl⟩
  · have hne : (s.sessionEntry asOf c).action ≠ .deleteMetric := action_sessionEntry_ne c
    refine ⟨by rw [if_neg hne]; rfl, by rw [if_neg hne]; rfl, by rw [if_neg hne]; rfl,
      fun _ => ?_, fun h => absurd h hne⟩
    obtain ⟨ts, hts, hws, hcompleted⟩ := mem_completedSessions.mp (mem_completed_of_expired hc)
    have hid := (completedSession_eq_some hcompleted).2.2.1
    refine Table.count_eq_one hts (decide_eq_true ⟨hid, hws⟩) fun x _ hx => ?_
    exact (of_decide_eq_true hx).1.trans hid.symm
  · obtain ⟨hmem, hws, hnone, -⟩ := mem_expiredMetrics hm
    refine ⟨rfl, rfl, Eq.symm ?_, fun h => absurd rfl h, fun _ x hx hid => ?_⟩
    · refine Table.count_eq_one hmem (decide_eq_true ⟨rfl, hws⟩) fun x _ hx => ?_
      exact (of_decide_eq_true hx).1
    · rw [Table.eq_of_clash hx hmem hid]
      exact hnone

lemma pairwise_areApart : (s.manifestEntries workspaceId asOf).Pairwise AreApart := by
  refine (nodup_manifestEntries.imp_of_mem fun {e e'} he he' hne => ?_)
  intro hsame hid
  refine hne ?_
  rcases mem_manifestEntries.mp he with ⟨c, hc, rfl⟩ | ⟨m, hm, rfl⟩
  · rcases mem_manifestEntries.mp he' with ⟨d, hd, rfl⟩ | ⟨m', -, rfl⟩
    · rw [eq_of_taskSessionId (mem_completed_of_expired hc) (mem_completed_of_expired hd) hid]
    · exact absurd (hsame.mpr rfl) (action_sessionEntry_ne c)
  · rcases mem_manifestEntries.mp he' with ⟨d, -, rfl⟩ | ⟨m', hm', rfl⟩
    · exact absurd (hsame.mp rfl) (action_sessionEntry_ne d)
    · rw [Table.eq_of_clash (mem_expiredMetrics hm).1 (mem_expiredMetrics hm').1 hid]

/-! ## Nothing is listed for ever -/

lemma hasDerived_cases (h : s.hasDerived c = true) : c.rawTask.isSome = true ∨
    (∃ x ∈ s.contextIr, x.taskSessionId = c.taskSessionId) ∨
    (∃ x ∈ s.contextUseEvent, x.taskSessionId = c.taskSessionId) ∨
    ∃ x ∈ s.queryStageMetric, x.taskSessionId = some c.taskSessionId := by
  simpa [hasDerived, Table.mem_def, or_assoc] using h

/-- A session that is listed though its summary is kept has something to delete. -/
lemma hasDerived_of_expired (h : c ∈ s.expiredSessions workspaceId asOf)
    (haction : (s.sessionEntry asOf c).action = .deleteDerived) : s.hasDerived c = true := by
  obtain ⟨rank, -, hexpired⟩ := mem_expiredSessions h
  simp only [isExpired, Bool.or_eq_true, Bool.and_eq_true, decide_eq_true_eq] at hexpired
  rcases hexpired with hsummary | ⟨-, hderived⟩
  · have hdelete : (s.sessionEntry asOf c).action = .deleteSession :=
      (action_eq_deleteSession_iff c).mpr (lt_cutoff_of_lt_cutoffMillis hsummary)
    exact absurd (haction.symm.trans hdelete) (by simp)
  · exact hderived

/-- The number of rows, and of raw tasks, that compaction can delete. -/
def deletable (s : SessionStore) : ℕ :=
  s.taskSession.rows.length + s.taskSession.count (fun ts => ts.rawTask.isSome) +
    s.contextIr.rows.length + s.contextUseEvent.rows.length + s.queryStageMetric.rows.length

section Rows

variable (s workspaceId entries)

/-- The raw tasks that are left. -/
lemma count_rawTask_compacted :
    (s.compacted workspaceId entries).taskSession.count (fun ts => ts.rawTask.isSome) =
      s.taskSession.rows.countP fun ts => (if namesAs workspaceId entries .deleteDerived ts = true
        then clearRawTask ts else ts).rawTask.isSome &&
          !namesAs workspaceId entries .deleteSession ts := by
  rw [Table.count]
  show ((s.taskSession.rows.filter _).map _).countP _ = _
  rw [List.countP_map, List.countP_filter]
  rfl

lemma count_rawTask_compacted_le :
    (s.compacted workspaceId entries).taskSession.count (fun ts => ts.rawTask.isSome) ≤
      s.taskSession.count fun ts => ts.rawTask.isSome := by
  rw [count_rawTask_compacted]
  refine List.countP_mono_left fun ts _ hts => ?_
  obtain ⟨hraw, -⟩ := Bool.and_eq_true_iff.mp hts
  split at hraw
  · exact absurd hraw (by simp [clearRawTask])
  · exact hraw

end Rows

lemma count_rawTask_compacted_lt {ts : TaskSession} (hts : ts ∈ s.taskSession)
    (hraw : ts.rawTask.isSome = true) (hnamed : namesAs workspaceId entries .deleteDerived ts = true) :
    (s.compacted workspaceId entries).taskSession.count (fun ts => ts.rawTask.isSome) <
      s.taskSession.count fun ts => ts.rawTask.isSome := by
  refine lt_of_le_of_ne (count_rawTask_compacted_le s workspaceId entries) fun heq => ?_
  rw [count_rawTask_compacted] at heq
  have hback := imp_of_countP_eq heq (fun ts _ hts => ?_) ts hts hraw
  · rw [if_pos hnamed] at hback
    exact absurd hback (by simp [clearRawTask])
  · obtain ⟨hraw, -⟩ := Bool.and_eq_true_iff.mp hts
    split at hraw
    · exact absurd hraw (by simp [clearRawTask])
    · exact hraw

/-- Compaction leaves no more rows in any table, and fewer in one if what an entry lists is
there. -/
lemma deletable_compacted_lt (he : e ∈ s.manifestEntries workspaceId asOf) :
    (s.compacted workspaceId (s.manifestEntries workspaceId asOf)).deletable < s.deletable := by
  generalize hentries : s.manifestEntries workspaceId asOf = entries at he
  have hsessions : (s.compacted workspaceId entries).taskSession.rows.length ≤
      s.taskSession.rows.length := Table.length_update.trans_le Table.length_delete_le
  have hraw := count_rawTask_compacted_le s workspaceId entries
  have hcontexts : (s.compacted workspaceId entries).contextIr.rows.length ≤
      s.contextIr.rows.length := Table.length_delete_le
  have hevents : (s.compacted workspaceId entries).contextUseEvent.rows.length ≤
      s.contextUseEvent.rows.length := Table.length_update.trans_le Table.length_delete_le
  have hmetrics : (s.compacted workspaceId entries).queryStageMetric.rows.length ≤
      s.queryStageMetric.rows.length := Table.length_update.trans_le Table.length_delete_le
  rw [deletable, deletable]
  rcases mem_manifestEntries.mp (hentries ▸ he) with ⟨c, hc, rfl⟩ | ⟨m, hm, rfl⟩
  · obtain ⟨ts, hts, hws, hcompleted⟩ := mem_completedSessions.mp (mem_completed_of_expired hc)
    obtain ⟨-, -, hid, hrawTask⟩ := completedSession_eq_some hcompleted
    have hnamed : namesSession entries c.taskSessionId = true :=
      List.any_eq_true.mpr ⟨_, he, decide_eq_true ⟨action_sessionEntry_ne c, rfl⟩⟩
    have hnamedAs : ∀ action, (s.sessionEntry asOf c).action = action →
        namesAs workspaceId entries action ts = true := by
      intro action haction
      rw [namesAs, hws, decide_eq_true rfl, Bool.true_and, hid]
      exact List.any_eq_true.mpr ⟨_, he, decide_eq_true ⟨haction, rfl⟩⟩
    cases haction : (s.sessionEntry asOf c).action with
    | deleteMetric => exact absurd haction (action_sessionEntry_ne c)
    | deleteSession =>
      have hlt : (s.compacted workspaceId entries).taskSession.rows.length <
          s.taskSession.rows.length :=
        Table.length_update.trans_lt (Table.length_delete_lt hts (hnamedAs _ haction))
      omega
    | deleteDerived =>
      -- the query lists a session whose summary is kept only for what was derived for it
      rcases hasDerived_cases (hasDerived_of_expired hc haction) with h | h | h | h
      · have hlt := count_rawTask_compacted_lt hts (hrawTask ▸ h) (hnamedAs _ haction)
        omega
      · obtain ⟨x, hx, hxid⟩ := h
        have hlt : (s.compacted workspaceId entries).contextIr.rows.length <
            s.contextIr.rows.length := Table.length_delete_lt hx (hxid ▸ hnamed)
        omega
      · obtain ⟨x, hx, hxid⟩ := h
        have hlt : (s.compacted workspaceId entries).contextUseEvent.rows.length <
            s.contextUseEvent.rows.length :=
          Table.length_update.trans_lt (Table.length_delete_lt hx (hxid ▸ hnamed))
        omega
      · obtain ⟨x, hx, hxid⟩ := h
        have hmetric : namesMetric workspaceId entries x = true :=
          (namesMetric_eq_true_iff x).mpr (Or.inl ⟨_, hxid, hnamed⟩)
        have hlt : (s.compacted workspaceId entries).queryStageMetric.rows.length <
            s.queryStageMetric.rows.length := Table.length_update.trans_lt (Table.length_delete_lt hx hmetric)
        omega
  · obtain ⟨hmem, hws, -, -⟩ := mem_expiredMetrics hm
    have hnamed : namesMetric workspaceId entries m = true :=
      (namesMetric_eq_true_iff m).mpr (Or.inr ⟨hws, _, he, rfl, rfl⟩)
    have hlt : (s.compacted workspaceId entries).queryStageMetric.rows.length <
        s.queryStageMetric.rows.length := Table.length_update.trans_lt (Table.length_delete_lt hmem hnamed)
    omega

end SessionStore

/-! ## Confirmed deletions -/

section Apply

variable {H : Hasher} {faults : SqliteFaults} {file : CatalogueFile} {s : SessionStore}
  {workspaceId : String} {asOf : Instant} {digest confirmation : String}
  {fault : PrivacyCompactionFault} {entries : List PrivacyCompactionEntry}

open SessionStore

/-- What the entries of a manifest name is deleted, it is counted right, and nothing else of the
database changes. -/
structure Deletes (s : SessionStore) (workspaceId : String) (entries : List PrivacyCompactionEntry)
    (r : PrivacyCompactionResult) (s' : SessionStore) : Prop where
  rows : s' = s.compacted workspaceId entries
  catalogue : s'.catalogue = { s.catalogue with taskSession := s'.taskSession }
  deltas : s'.deltas = s.deltas
  sessions : r.deletedSessions = entries.countP fun e => e.action = .deleteSession
  contexts : r.deletedContexts = (entries.map PrivacyCompactionEntry.contextCount).sum
  events : r.deletedEvents = (entries.map PrivacyCompactionEntry.eventCount).sum
  metrics : r.deletedMetrics = (entries.map PrivacyCompactionEntry.metricCount).sum

lemma deletes_of_applyEntries {acc : PrivacyCompactionResult × SessionStore}
    (h : applyEntries faults workspaceId (s.manifestEntries workspaceId asOf)
      (⟨0, 0, 0, 0⟩, s) = .ok acc) :
    Deletes s workspaceId (s.manifestEntries workspaceId asOf) acc.1 acc.2 := by
  have hrows := applyEntries_snd h
  have htotals := applyEntries_fst h (fun _ => isCounted_of_mem) pairwise_areApart
  rw [foldl_addEntry] at htotals
  rw [hrows, htotals]
  exact ⟨rfl, rfl, rfl, Nat.zero_add _, Nat.zero_add _, Nat.zero_add _, Nat.zero_add _⟩

/-- The body of the transaction succeeds only with a manifest of the confirmed digest. -/
lemma compactionBody_ok {acc : PrivacyCompactionResult × SessionStore}
    (h : compactionBody H faults file s workspaceId asOf digest fault = .ok acc) :
    ∃ entries, privacyCompactionManifest H file s workspaceId asOf = .ok (entries, digest) ∧
      applyEntries faults workspaceId entries (⟨0, 0, 0, 0⟩, s) = .ok acc := by
  rw [compactionBody] at h
  split at h
  · exact absurd h (by simp)
  split at h
  · exact absurd h (by simp)
  next entries found hmanifest =>
    split at h
    · exact absurd h (by simp)
    next hdigest =>
      obtain rfl := not_not.mp hdigest
      refine ⟨entries, hmanifest, ?_⟩
      split at h
      · exact absurd h (by simp)
      next hacc =>
        split at h
        · exact absurd h (by simp)
        split at h
        · exact absurd h (by simp)
        · obtain rfl := Except.ok.inj h
          exact hacc

lemma applyPrivacyCompactionInner_error {e : PrivacyCompactionApplyError}
    (h : (applyPrivacyCompactionInner H faults file s workspaceId asOf digest confirmation
      fault).1 = .error e) :
    (applyPrivacyCompactionInner H faults file s workspaceId asOf digest confirmation
      fault).2 = s := by
  rw [applyPrivacyCompactionInner] at h ⊢
  split
  · rfl
  next hconfirmed =>
    rw [if_neg hconfirmed] at h
    exact transaction_error h

lemma applyPrivacyCompactionInner_ok {r : PrivacyCompactionResult}
    (h : (applyPrivacyCompactionInner H faults file s workspaceId asOf digest confirmation
      fault).1 = .ok r) :
    ∃ entries, privacyCompactionManifest H file s workspaceId asOf = .ok (entries, digest) ∧
      applyEntries faults workspaceId entries (⟨0, 0, 0, 0⟩, s) =
        .ok (r, (applyPrivacyCompactionInner H faults file s workspaceId asOf digest confirmation
          fault).2) := by
  rw [applyPrivacyCompactionInner] at h ⊢
  split at h
  · exact absurd h (by simp)
  next hconfirmed =>
    rw [if_neg hconfirmed]
    exact compactionBody_ok (transaction_ok h)

/-- A preview and an apply of its digest. -/
def compactionRound (H : Hasher) (file : CatalogueFile) (workspaceId : String) (asOf : Instant)
    (s : SessionStore) : SessionStore :=
  match privacyCompactionManifest H file s workspaceId asOf with
  | .error _ => s
  | .ok (_, digest) =>
    (applyPrivacyCompactionInner H .none file s workspaceId asOf digest
      privacyDeletionConfirmation .none).2

lemma applyEntries_none (acc : PrivacyCompactionResult × SessionStore) :
    ∃ acc', applyEntries .none workspaceId entries acc = .ok acc' := by
  induction entries generalizing acc with
  | nil => exact ⟨acc, rfl⟩
  | cons e entries ih => exact ih (applyEntry workspaceId acc e)

/-- A round deletes what the manifest lists. -/
lemma compactionRound_eq
    (h : privacyCompactionManifest H file s workspaceId asOf = .ok (entries, digest)) :
    compactionRound H file workspaceId asOf s = s.compacted workspaceId entries := by
  obtain ⟨acc, hacc⟩ : ∃ acc, applyEntries .none workspaceId entries (⟨0, 0, 0, 0⟩, s) = .ok acc :=
    applyEntries_none _
  have hbody : compactionBody H .none file s workspaceId asOf digest .none = .ok acc := by
    rw [compactionBody, h]
    simp only [SqliteFaults.none] at hacc ⊢
    simp [hacc]
  rw [compactionRound, h]
  show (applyPrivacyCompactionInner H .none file s workspaceId asOf digest
    privacyDeletionConfirmation .none).2 = _
  rw [applyPrivacyCompactionInner, if_neg (not_not.mpr rfl), hbody]
  exact applyEntries_snd hacc

/-- Rounds with one instant reach an empty manifest. -/
lemma exists_round_empty
    (h : privacyCompactionManifest H file s workspaceId asOf = .ok (entries, digest)) :
    ∃ n digest', privacyCompactionManifest H file ((compactionRound H file workspaceId asOf)^[n] s)
      workspaceId asOf = .ok ([], digest') := by
  induction hsize : s.deletable using Nat.strongRecOn generalizing s entries digest with
  | _ size ih =>
    cases hentries : entries with
    | nil => exact ⟨0, digest, hentries ▸ h⟩
    | cons e rest =>
      obtain ⟨path, hid, hagain, hws, heq, -⟩ := privacyCompactionManifest_eq_ok_iff.mp h
      have hround := compactionRound_eq h
      have he : e ∈ s.manifestEntries workspaceId asOf := by
        rw [← heq, hentries]
        exact List.mem_cons_self
      have hless := deletable_compacted_lt he
      rw [← heq, ← hround, hsize] at hless
      obtain ⟨n, digest', hn⟩ := ih _ hless
        (privacyCompactionManifest_eq_ok_iff.mpr ⟨path, hid, hagain, hround ▸ hws, rfl, rfl⟩) rfl
      exact ⟨n + 1, digest', hn⟩

end Apply

namespace Compaction

/-- Compaction either fails and changes nothing, or it deletes what the one manifest with the
confirmed digest lists, all of it finished sessions of the workspace that are old or beyond the
rank, and metrics; and rounds of preview and apply come to an empty manifest. -/
theorem deletes_what_was_confirmed {H : Hasher} (hH : H.Injective) (faults : SqliteFaults)
    (file : CatalogueFile) (s : SessionStore) (workspaceId : String) (asOf : Instant)
    (digest confirmation : String) (fault : PrivacyCompactionFault) :
    let applied := applyPrivacyCompactionInner H faults file s workspaceId asOf digest confirmation
      fault
    (∀ e, applied.1 = .error e → applied.2 = s) ∧
    (∀ r, applied.1 = .ok r → ∃ entries,
      privacyCompactionManifest H file s workspaceId asOf = .ok (entries, digest) ∧
      (∀ file₀ s₀ workspaceId₀ asOf₀ entries₀,
        privacyCompactionManifest H file₀ s₀ workspaceId₀ asOf₀ = .ok (entries₀, digest) →
          entries₀ = entries) ∧
      Deletes s workspaceId entries r applied.2 ∧
      ∀ e ∈ entries, e.action ≠ .deleteMetric → s.IsAffected workspaceId asOf e.recordId) ∧
    ((∃ manifest, privacyCompactionManifest H file s workspaceId asOf = .ok manifest) →
      ∃ n digest', privacyCompactionManifest H file
        ((compactionRound H file workspaceId asOf)^[n] s) workspaceId asOf = .ok ([], digest')) := by
  refine ⟨fun e => applyPrivacyCompactionInner_error, fun r hr => ?_, ?_⟩
  · obtain ⟨entries, hmanifest, hacc⟩ := applyPrivacyCompactionInner_ok hr
    obtain ⟨path, -, -, -, rfl, hdigest⟩ := privacyCompactionManifest_eq_ok_iff.mp hmanifest
    refine ⟨_, hmanifest, ?_, deletes_of_applyEntries hacc, fun e he hne => ?_⟩
    · intro file₀ s₀ workspaceId₀ asOf₀ entries₀ h
      obtain ⟨path₀, -, -, -, -, hdigest₀⟩ := privacyCompactionManifest_eq_ok_iff.mp h
      exact (manifestDigest_inj hH (hdigest₀.symm.trans hdigest)).2.2
    · rcases SessionStore.mem_manifestEntries.mp he with ⟨c, hc, rfl⟩ | ⟨m, -, rfl⟩
      · exact SessionStore.isAffected_of_expired hc
      · exact absurd rfl hne
  · rintro ⟨⟨entries, found⟩, hmanifest⟩
    exact exists_round_empty hmanifest

/-- A session that was completed at some time, with one event. -/
def oneSession (completedAt : Timestamp) : SessionStore :=
  let s := (SessionStore.ofCatalogue (.registered ["ws"])).withSessions (.insertOrIgnore .empty
    ⟨"task", "ws", "g₁", some "g₁", "th", "gh", .none, none, .unknown, .unknown, none, "p", "1.0.0",
      .completed, some true, some true, some "done", none, none, 0, some completedAt⟩)
  { s with
    contextUseEvent := .insertOrIgnore .empty
      ⟨"event", "task", none, none, none, .outcomeRecorded, .operatorReported, none, "{}",
        "2026-01-01T00:00:00.000Z"⟩ }

/-- An instant in August 2026. -/
def august : Instant := ⟨1785542400000000000, by omega⟩

theorem oneSession_emptied : ∃ n digest',
    privacyCompactionManifest Hasher.plain ⟨.ok "atlas.sqlite", .ok "atlas.sqlite"⟩
      ((compactionRound Hasher.plain ⟨.ok "atlas.sqlite", .ok "atlas.sqlite"⟩ "ws" august)^[n]
        (oneSession 0)) "ws" august = .ok ([], digest') :=
  (deletes_what_was_confirmed Hasher.plain_injective .none ⟨.ok "atlas.sqlite", .ok "atlas.sqlite"⟩
    (oneSession 0) "ws" august "" privacyDeletionConfirmation .none).2.2
      ⟨_, privacyCompactionManifest_eq_ok_iff.mpr ⟨"atlas.sqlite", rfl, rfl, by decide, rfl, rfl⟩⟩

end Compaction

end WorkspaceAtlas
