/-
# The retention manifest

`privacy_compaction_manifest`: what is kept of finished sessions for a limited time only.  After
the structured retention, or when there are too many newer sessions, a session loses what was
derived for it; after the summary retention the session is deleted itself.  Timings that belong
to no session are deleted after the structured retention.

The catalogue stamps completions in whole milliseconds, and the cut-offs of the queries are whole
milliseconds too; only the action of an entry is decided by the instant as the caller gave it.
-/
import Mathlib.Order.OrderDual
import WorkspaceAtlas.Relational.Query
import WorkspaceAtlas.Session.Tables

namespace WorkspaceAtlas

open Relational Text

/-! ## Instants -/

/-- An instant in nanoseconds since the epoch, in a year that RFC 3339 can write. -/
@[ext] structure Instant where
  nanos : ℕ
  isFourDigitYear : nanos < 253402300800000000000
  deriving DecidableEq, Repr

namespace Instant

/-- The whole milliseconds of an instant. -/
def millis (t : Instant) : Timestamp := iso8601 t.nanos

/-- An instant as a text with milliseconds gives it. -/
def truncated (t : Instant) : Instant where
  nanos := t.millis * 1000000
  isFourDigitYear := (Nat.div_mul_le_self _ _).trans_lt t.isFourDigitYear

lemma millis_truncated (t : Instant) : t.truncated.millis = t.millis :=
  Nat.mul_div_cancel _ (by omega)

lemma truncated_truncated (t : Instant) : t.truncated.truncated = t.truncated := by
  ext1
  exact congrArg (· * 1000000) (millis_truncated t)

end Instant

/-- `as_of - Duration::days(days)`, in nanoseconds. -/
def cutoff (days : ℕ) (asOf : Instant) : ℤ := asOf.nanos - days * 86400000000000

/-- The same in whole milliseconds, as it is bound to a query. -/
def cutoffMillis (days : ℕ) (asOf : Instant) : ℤ := cutoff days asOf / 1000000

/-- `STRUCTURED_RETENTION_DAYS`. -/
def structuredRetentionDays : ℕ := 30

/-- `SUMMARY_RETENTION_DAYS`. -/
def summaryRetentionDays : ℕ := 180

/-- `MAX_COMPLETED_SESSIONS`. -/
def maxCompletedSessions : ℕ := 1000

/-- `MAX_EXPIRED_SESSIONS_PER_COMPACTION`. -/
def maxExpiredSessionsPerCompaction : ℕ := 100

lemma cutoffMillis_eq (days : ℕ) (asOf : Instant) :
    cutoffMillis days asOf = asOf.millis - days * 86400000 := by
  rw [cutoffMillis, cutoff, Instant.millis, iso8601]
  omega

lemma cutoffMillis_truncated (days : ℕ) (asOf : Instant) :
    cutoffMillis days asOf.truncated = cutoffMillis days asOf := by
  rw [cutoffMillis_eq, cutoffMillis_eq, Instant.millis_truncated]

lemma cutoff_truncated (days : ℕ) (asOf : Instant) :
    cutoff days asOf.truncated = cutoffMillis days asOf * 1000000 := by
  rw [cutoffMillis_eq, cutoff, Instant.truncated]
  push_cast
  ring

/-- A stamp before the cut-off of a query is before the cut-off. -/
lemma lt_cutoff_of_lt_cutoffMillis {days : ℕ} {asOf : Instant} {stamp : Timestamp}
    (h : (stamp : ℤ) < cutoffMillis days asOf) : (stamp : ℤ) * 1000000 < cutoff days asOf := by
  rw [cutoffMillis] at h
  omega

/-! ## Entries -/

/-- `PrivacyCompactionAction`. -/
inductive PrivacyCompactionAction where
  | deleteDerived
  | deleteSession
  | deleteMetric
  deriving DecidableEq, Repr

/-- The name of an action in a manifest. -/
def PrivacyCompactionAction.asStr : PrivacyCompactionAction → String
  | deleteDerived => "delete_derived"
  | deleteSession => "delete_session"
  | deleteMetric => "delete_metric"

/-- `retention_action_discriminator`. -/
def retentionActionDiscriminator : PrivacyCompactionAction → String
  | .deleteDerived => "0_delete_derived"
  | .deleteSession => "1_delete_session"
  | .deleteMetric => "2_delete_metric"

/-- `PrivacyCompactionEntry`. -/
structure PrivacyCompactionEntry where
  recordId : String
  action : PrivacyCompactionAction
  contextCount : ℕ
  eventCount : ℕ
  metricCount : ℕ
  deriving DecidableEq, Repr

/-- An entry as canonical JSON. -/
def PrivacyCompactionEntry.json (e : PrivacyCompactionEntry) : Json :=
  .obj [("action", .str e.action.asStr), ("context_count", .num e.contextCount),
    ("event_count", .num e.eventCount), ("metric_count", .num e.metricCount),
    ("record_id", .str e.recordId)]

/-- `retention_entry_key`. -/
def retentionEntryKey (e : PrivacyCompactionEntry) : Lex (String × String) :=
  toLex (retentionActionDiscriminator e.action, e.recordId)

/-! ## What has expired -/

/-- What is read of a finished session. -/
structure CompletedSession where
  taskSessionId : String
  completedAt : Timestamp
  rawTask : Option String
  deriving DecidableEq, Repr

/-- A session that is finished. -/
def completedSession (ts : TaskSession) : Option CompletedSession :=
  if ts.state = .completed ∨ ts.state = .abandoned ∨ ts.state = .failed then
    ts.completedAt.map fun completedAt => ⟨ts.taskSessionId, completedAt, ts.rawTask⟩
  else none

/-- The order in which finished sessions are ranked, the newest first. -/
def rankKey (c : CompletedSession) : Lex (ℕᵒᵈ × String) :=
  toLex (OrderDual.toDual c.completedAt, c.taskSessionId)

/-- The order in which finished sessions expire. -/
def expiryKey (c : CompletedSession) : Lex (ℕ × String) := toLex (c.completedAt, c.taskSessionId)

/-- What is read of a file's identity: before a manifest is computed, and after it. -/
structure CatalogueFile where
  identity : Except AtlasError String
  revalidated : Except AtlasError String

namespace SessionStore

section Expired

variable (s : SessionStore) (workspaceId : String) (asOf : Instant)

/-- The finished sessions of a workspace. -/
def completedSessions : List CompletedSession :=
  (s.taskSession.rows.filter fun ts => ts.workspaceId = workspaceId).filterMap completedSession

/-- The finished sessions with their ranks. -/
def rankedSessions : List (CompletedSession × ℕ) :=
  (orderBy rankKey (s.completedSessions workspaceId)).zipIdx 1

/-- Something is stored that was derived for a session. -/
def hasDerived (c : CompletedSession) : Bool :=
  c.rawTask.isSome || s.contextIr.rows.any (fun x => x.taskSessionId = c.taskSessionId) ||
    s.contextUseEvent.rows.any (fun x => x.taskSessionId = c.taskSessionId) ||
    s.queryStageMetric.rows.any fun x => x.taskSessionId = some c.taskSessionId

/-- A ranked session is selected. -/
def isExpired (row : CompletedSession × ℕ) : Bool :=
  decide ((row.1.completedAt : ℤ) < cutoffMillis summaryRetentionDays asOf) ||
    (decide ((row.1.completedAt : ℤ) < cutoffMillis structuredRetentionDays asOf ∨
      maxCompletedSessions < row.2) && s.hasDerived row.1)

/-- The sessions that a manifest lists. -/
def expiredSessions : List CompletedSession :=
  (orderBy expiryKey (((s.rankedSessions workspaceId).filter (s.isExpired asOf)).map
    Prod.fst)).take maxExpiredSessionsPerCompaction

/-- The entry of a session. -/
def sessionEntry (c : CompletedSession) : PrivacyCompactionEntry where
  recordId := c.taskSessionId
  action :=
    if (c.completedAt : ℤ) * 1000000 < cutoff summaryRetentionDays asOf then .deleteSession
    else .deleteDerived
  contextCount := s.contextIr.count fun x => x.taskSessionId = c.taskSessionId
  eventCount := s.contextUseEvent.count fun x => x.taskSessionId = c.taskSessionId
  metricCount := s.queryStageMetric.count fun x => x.taskSessionId = some c.taskSessionId

/-- A metric without a session is selected. -/
def isExpiredMetric (m : QueryStageMetric) : Bool :=
  m.workspaceId = workspaceId ∧ m.taskSessionId = none ∧
    (m.createdAt : ℤ) < cutoffMillis structuredRetentionDays asOf

/-- The metrics that a manifest lists. -/
def expiredMetrics : List QueryStageMetric :=
  (orderBy (fun m : QueryStageMetric => toLex (m.createdAt, m.metricId))
    (s.queryStageMetric.rows.filter (isExpiredMetric workspaceId asOf))).take
      maxExpiredSessionsPerCompaction

/-- The entry of a metric. -/
def metricEntry (m : QueryStageMetric) : PrivacyCompactionEntry where
  recordId := m.metricId
  action := .deleteMetric
  contextCount := 0
  eventCount := 0
  metricCount := 1

/-- The entries of a manifest. -/
def manifestEntries : List PrivacyCompactionEntry :=
  orderBy retentionEntryKey ((s.expiredSessions workspaceId asOf).map (s.sessionEntry asOf) ++
    (s.expiredMetrics workspaceId asOf).map metricEntry)

end Expired

end SessionStore

/-! ## The manifest -/

/-- `PrivacyCompactionIdentity`. -/
def privacyCompactionIdentity (catalogueIdentity workspaceId : String)
    (entries : List PrivacyCompactionEntry) : Json :=
  .obj [("catalogue_identity", .str catalogueIdentity),
    ("entries", .arr (entries.map PrivacyCompactionEntry.json)),
    ("schema", .str "privacy-compaction-manifest-v2"), ("workspace_id", .str workspaceId)]

/-- The digest of a manifest. -/
def manifestDigest (H : Hasher) (catalogueIdentity workspaceId : String)
    (entries : List PrivacyCompactionEntry) : String :=
  contentHashOfBytes H
    (canonicalJsonBytes (privacyCompactionIdentity catalogueIdentity workspaceId entries))

/-- Two neighbours have one key. -/
def hasDuplicateKey (entries : List PrivacyCompactionEntry) : Bool :=
  (entries.zip entries.tail).any fun (left, right) =>
    left.action = right.action ∧ left.recordId = right.recordId

/-- `privacy_compaction_manifest`. -/
def privacyCompactionManifest (H : Hasher) (file : CatalogueFile) (s : SessionStore)
    (workspaceId : String) (asOf : Instant) :
    Except AtlasError (List PrivacyCompactionEntry × String) :=
  match file.identity with
  | .error e => .error e
  | .ok catalogueIdentity =>
    if s.catalogue.hasWorkspace workspaceId = false then .error (.workspaceNotFound workspaceId)
    else
      let entries := s.manifestEntries workspaceId asOf
      if hasDuplicateKey entries = true then
        .error (.other "privacy compaction manifest contains a duplicate ordering key")
      else
        match file.revalidated with
        | .error e => .error e
        | .ok revalidated =>
          if revalidated ≠ catalogueIdentity then
            .error (.other "privacy compaction catalogue identity changed")
          else .ok (entries, manifestDigest H catalogueIdentity workspaceId entries)

/-! ## What a manifest lists -/

namespace SessionStore

variable {s : SessionStore} {workspaceId : String} {asOf : Instant} {c : CompletedSession}

lemma completedSession_eq_some {ts : TaskSession} (h : completedSession ts = some c) :
    (ts.state = .completed ∨ ts.state = .abandoned ∨ ts.state = .failed) ∧
      ts.completedAt = some c.completedAt ∧ ts.taskSessionId = c.taskSessionId ∧
      ts.rawTask = c.rawTask := by
  rw [completedSession] at h
  split at h
  next hstate =>
    obtain ⟨completedAt, hat, rfl⟩ := Option.map_eq_some_iff.mp h
    exact ⟨hstate, hat, rfl, rfl⟩
  · exact absurd h (by simp)

lemma mem_completedSessions : c ∈ s.completedSessions workspaceId ↔
    ∃ ts ∈ s.taskSession, ts.workspaceId = workspaceId ∧ completedSession ts = some c := by
  simp [completedSessions, Table.mem_def, and_assoc]

/-- A finished session is known by its id. -/
lemma eq_of_taskSessionId {d : CompletedSession} (hc : c ∈ s.completedSessions workspaceId)
    (hd : d ∈ s.completedSessions workspaceId) (h : c.taskSessionId = d.taskSessionId) : c = d := by
  obtain ⟨ts, hts, -, hc⟩ := mem_completedSessions.mp hc
  obtain ⟨ts', hts', -, hd⟩ := mem_completedSessions.mp hd
  have hid : ts.taskSessionId = ts'.taskSessionId := by
    rw [(completedSession_eq_some hc).2.2.1, (completedSession_eq_some hd).2.2.1, h]
  obtain rfl := Table.eq_of_clash hts hts' hid
  exact Option.some.inj (hc.symm.trans hd)

lemma nodup_completedSessions : (s.completedSessions workspaceId).Nodup := by
  refine List.Pairwise.filterMap _ (fun ts ts' hne c hc d hd hcd => ?_)
    (s.taskSession.unique.filter _)
  refine hne ?_
  show ts.taskSessionId = ts'.taskSessionId
  rw [(completedSession_eq_some hc).2.2.1, (completedSession_eq_some hd).2.2.1, hcd]

lemma rankKey_injOn : ∀ c ∈ s.completedSessions workspaceId,
    ∀ d ∈ s.completedSessions workspaceId, rankKey c = rankKey d → c = d := fun _ hc _ hd h =>
  eq_of_taskSessionId hc hd (congrArg Prod.snd (toLex.injective h))

/-- The rank of a session is the number of newer sessions, counted from one. -/
lemma mem_rankedSessions {row : CompletedSession × ℕ} (h : row ∈ s.rankedSessions workspaceId) :
    row.1 ∈ s.completedSessions workspaceId ∧ row.2 =
      1 + (s.completedSessions workspaceId).countP fun d => rankKey d < rankKey row.1 := by
  obtain ⟨c, rank⟩ := row
  refine ⟨?_, number_of_mem_zipIdx nodup_completedSessions rankKey_injOn h⟩
  have hmem := List.mem_map_of_mem (f := Prod.fst) h
  rw [rankedSessions, List.zipIdx_map_fst] at hmem
  exact mem_orderBy.mp hmem

lemma mem_expiredSessions (h : c ∈ s.expiredSessions workspaceId asOf) :
    ∃ rank, (c, rank) ∈ s.rankedSessions workspaceId ∧ s.isExpired asOf (c, rank) = true := by
  obtain ⟨row, hrow, rfl⟩ := List.mem_map.mp (mem_orderBy.mp (List.mem_of_mem_take h))
  obtain ⟨hranked, hexpired⟩ := List.mem_filter.mp hrow
  exact ⟨row.2, hranked, hexpired⟩

lemma mem_completed_of_expired (h : c ∈ s.expiredSessions workspaceId asOf) :
    c ∈ s.completedSessions workspaceId := by
  obtain ⟨rank, hranked, -⟩ := mem_expiredSessions h
  exact (mem_rankedSessions hranked).1

lemma nodup_expiredSessions : (s.expiredSessions workspaceId asOf).Nodup := by
  refine List.Nodup.sublist (List.take_sublist _ _) (perm_orderBy.nodup_iff.mpr ?_)
  refine List.Nodup.sublist (List.filter_sublist.map Prod.fst) ?_
  rw [rankedSessions, List.zipIdx_map_fst]
  exact perm_orderBy.nodup_iff.mpr nodup_completedSessions

lemma mem_expiredMetrics {m : QueryStageMetric} (h : m ∈ s.expiredMetrics workspaceId asOf) :
    m ∈ s.queryStageMetric ∧ m.workspaceId = workspaceId ∧ m.taskSessionId = none ∧
      (m.createdAt : ℤ) < cutoffMillis structuredRetentionDays asOf := by
  obtain ⟨hm, hexpired⟩ := List.mem_filter.mp (mem_orderBy.mp (List.mem_of_mem_take h))
  exact ⟨hm, by simpa [isExpiredMetric] using hexpired⟩

lemma nodup_expiredMetrics : (s.expiredMetrics workspaceId asOf).Nodup :=
  List.Nodup.sublist (List.take_sublist _ _)
    (perm_orderBy.nodup_iff.mpr (s.queryStageMetric.nodup_rows.filter _))

lemma mem_manifestEntries {e : PrivacyCompactionEntry} :
    e ∈ s.manifestEntries workspaceId asOf ↔
      (∃ c ∈ s.expiredSessions workspaceId asOf, s.sessionEntry asOf c = e) ∨
        ∃ m ∈ s.expiredMetrics workspaceId asOf, metricEntry m = e := by
  rw [manifestEntries, mem_orderBy, List.mem_append, List.mem_map, List.mem_map]

lemma action_sessionEntry_ne (c : CompletedSession) :
    (s.sessionEntry asOf c).action ≠ .deleteMetric := by
  rw [sessionEntry]
  dsimp only
  split <;> simp

/-- A session is deleted if its summary has expired. -/
lemma action_eq_deleteSession_iff (c : CompletedSession) :
    (s.sessionEntry asOf c).action = .deleteSession ↔
      (c.completedAt : ℤ) * 1000000 < cutoff summaryRetentionDays asOf := by
  rw [sessionEntry]
  dsimp only
  split
  next h => simpa using h
  next h => simpa using h

lemma retentionActionDiscriminator_injective :
    Function.Injective retentionActionDiscriminator := by
  intro a b h
  cases a <;> cases b <;> first | rfl | exact absurd h (by decide)

lemma retentionEntryKey_eq_iff {e e' : PrivacyCompactionEntry} :
    retentionEntryKey e = retentionEntryKey e' ↔ e.action = e'.action ∧ e.recordId = e'.recordId := by
  rw [retentionEntryKey, retentionEntryKey, toLex_inj, Prod.mk.injEq,
    retentionActionDiscriminator_injective.eq_iff]

/-- The entries of a manifest are known by their keys. -/
lemma eq_of_retentionEntryKey {e e' : PrivacyCompactionEntry}
    (he : e ∈ s.manifestEntries workspaceId asOf) (he' : e' ∈ s.manifestEntries workspaceId asOf)
    (h : retentionEntryKey e = retentionEntryKey e') : e = e' := by
  obtain ⟨haction, hid⟩ := retentionEntryKey_eq_iff.mp h
  rcases mem_manifestEntries.mp he with ⟨c, hc, rfl⟩ | ⟨m, hm, rfl⟩
  · rcases mem_manifestEntries.mp he' with ⟨d, hd, rfl⟩ | ⟨m', -, rfl⟩
    · rw [eq_of_taskSessionId (mem_completed_of_expired hc) (mem_completed_of_expired hd) hid]
    · exact absurd haction (action_sessionEntry_ne c)
  · rcases mem_manifestEntries.mp he' with ⟨d, -, rfl⟩ | ⟨m', hm', rfl⟩
    · exact absurd haction.symm (action_sessionEntry_ne d)
    · rw [Table.eq_of_clash (mem_expiredMetrics hm).1 (mem_expiredMetrics hm').1 hid]

lemma nodup_manifestEntries : (s.manifestEntries workspaceId asOf).Nodup := by
  refine perm_orderBy.nodup_iff.mpr (List.nodup_append.mpr ⟨?_, ?_, ?_⟩)
  · refine List.Nodup.map_on (fun c hc d hd h => ?_) nodup_expiredSessions
    exact eq_of_taskSessionId (mem_completed_of_expired hc) (mem_completed_of_expired hd)
      (congrArg PrivacyCompactionEntry.recordId h)
  · refine List.Nodup.map_on (fun m hm m' hm' h => ?_) nodup_expiredMetrics
    exact Table.eq_of_clash (mem_expiredMetrics hm).1 (mem_expiredMetrics hm').1
      (congrArg PrivacyCompactionEntry.recordId h)
  · rintro e he e' he' rfl
    obtain ⟨c, -, rfl⟩ := List.mem_map.mp he
    obtain ⟨m, -, h⟩ := List.mem_map.mp he'
    exact action_sessionEntry_ne c (congrArg PrivacyCompactionEntry.action h).symm

/-- The entries are sorted, and no two have one key. -/
lemma pairwise_manifestEntries : (s.manifestEntries workspaceId asOf).Pairwise
    fun e e' => retentionEntryKey e < retentionEntryKey e' := by
  have hmem : ∀ e, e ∈ (s.expiredSessions workspaceId asOf).map (s.sessionEntry asOf) ++
      (s.expiredMetrics workspaceId asOf).map metricEntry →
        e ∈ s.manifestEntries workspaceId asOf := fun _ => mem_orderBy.mpr
  exact pairwise_lt_orderBy (perm_orderBy.nodup_iff.mp nodup_manifestEntries)
    fun e he e' he' => eq_of_retentionEntryKey (hmem e he) (hmem e' he')

lemma hasDuplicateKey_eq_false {entries : List PrivacyCompactionEntry}
    (h : entries.Pairwise fun e e' => retentionEntryKey e < retentionEntryKey e') :
    hasDuplicateKey entries = false := by
  induction entries with
  | nil => rfl
  | cons e entries ih =>
    cases entries with
    | nil => rfl
    | cons e' entries =>
      have hne : ¬ (e.action = e'.action ∧ e.recordId = e'.recordId) := fun hkey =>
        ((List.pairwise_cons.mp h).1 e' List.mem_cons_self).ne (retentionEntryKey_eq_iff.mpr hkey)
      have htail := ih h.of_cons
      simp only [hasDuplicateKey, List.tail_cons] at htail
      simp only [hasDuplicateKey, List.tail_cons, List.zip_cons_cons, List.any_cons, htail,
        decide_eq_false hne, Bool.false_or]

end SessionStore

/-! ## Manifests and their digests -/

section Manifest

variable {H : Hasher} {file : CatalogueFile} {s : SessionStore} {workspaceId : String}
  {asOf : Instant} {entries : List PrivacyCompactionEntry} {digest : String}

/-- A manifest is computed if the file keeps its identity and the workspace is there. -/
lemma privacyCompactionManifest_eq_ok_iff :
    privacyCompactionManifest H file s workspaceId asOf = .ok (entries, digest) ↔
      ∃ path, file.identity = .ok path ∧ file.revalidated = .ok path ∧
        s.catalogue.hasWorkspace workspaceId = true ∧
        entries = s.manifestEntries workspaceId asOf ∧
        digest = manifestDigest H path workspaceId entries := by
  have hkeys : hasDuplicateKey (s.manifestEntries workspaceId asOf) = false :=
    SessionStore.hasDuplicateKey_eq_false SessionStore.pairwise_manifestEntries
  rw [privacyCompactionManifest]
  cases hidentity : file.identity with
  | error e => simp
  | ok path =>
    cases hws : s.catalogue.hasWorkspace workspaceId with
    | false => simp
    | true =>
      cases hagain : file.revalidated with
      | error e => simp [hkeys]
      | ok path' =>
        by_cases hpath : path' = path
        · subst hpath
          simp only [hkeys, Bool.true_eq_false, Bool.false_eq_true, if_false, ne_eq,
            not_true, Except.ok.injEq, Prod.mk.injEq, true_and, exists_eq_left']
          constructor
          · rintro ⟨rfl, rfl⟩
            exact ⟨rfl, rfl⟩
          · rintro ⟨rfl, rfl⟩
            exact ⟨rfl, rfl⟩
        · simp [hkeys, hpath]

lemma entry_json_injective : Function.Injective PrivacyCompactionEntry.json := by
  rintro ⟨id, action, contexts, events, metrics⟩ ⟨id', action', contexts', events', metrics'⟩ h
  simp only [PrivacyCompactionEntry.json, Json.obj.injEq, List.cons.injEq, Prod.mk.injEq,
    Json.str.injEq, Json.num.injEq, Nat.cast_inj, true_and, and_true] at h
  obtain ⟨haction, rfl, rfl, rfl, rfl⟩ := h
  cases action <;> cases action' <;> first | rfl | exact absurd haction (by decide)

/-- A digest determines the catalogue, the workspace and the entries. -/
lemma manifestDigest_inj (hH : H.Injective) {path path' workspaceId' : String}
    {entries' : List PrivacyCompactionEntry}
    (h : manifestDigest H path workspaceId entries = manifestDigest H path' workspaceId' entries') :
    path = path' ∧ workspaceId = workspaceId' ∧ entries = entries' := by
  have hjson := canonicalJsonBytes_injective (contentHashOfBytes_injective hH h)
  simp only [privacyCompactionIdentity, Json.obj.injEq, List.cons.injEq, Prod.mk.injEq,
    Json.str.injEq, Json.arr.injEq, true_and, and_true] at hjson
  obtain ⟨hpath, hentries, hws⟩ := hjson
  exact ⟨hpath, hws, entry_json_injective.list_map hentries⟩

end Manifest

end WorkspaceAtlas
