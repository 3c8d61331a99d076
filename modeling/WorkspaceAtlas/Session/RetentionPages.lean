/-
# Pages of a retention manifest

`application_privacy_page`: the status and the preview of a compaction hand out a manifest page by
page.  The manifest is computed again for every page, for the instant that the first page was
asked for; the cursor carries that instant as a text with milliseconds.  What is selected does not
depend on the rest of the instant, but the action of a session does: one that was completed in the
millisecond of the summary cut-off is deleted by the first page and stripped by the others.
-/
import WorkspaceAtlas.Relational.Paging
import WorkspaceAtlas.Session.ApplicationCursor
import WorkspaceAtlas.Session.Retention

namespace WorkspaceAtlas

open Relational Relational.Paging Text

/-- `chrono`: how an instant is written with milliseconds, and how a text is read. -/
structure Chrono where
  toRfc3339Millis : Timestamp → String
  parseFromRfc3339 : String → Option Instant

/-- What `chrono` writes of the millisecond of an instant is read as its start. -/
def Chrono.ReadsBack (chrono : Chrono) (asOf : Instant) : Prop :=
  chrono.parseFromRfc3339 (chrono.toRfc3339Millis asOf.millis) = some asOf.truncated

/-! ## Cursors -/

/-- `RetentionCursorState`. -/
structure RetentionCursorState where
  asOf : String
  manifestDigest : String
  prefixDigest : String
  deriving DecidableEq, Repr

namespace RetentionCursorState

/-- The text of a state, its fields as they are declared. -/
def text (state : RetentionCursorState) : String :=
  String.ofList (Json.obj [("as_of", .str state.asOf), ("manifest_digest", .str state.manifestDigest),
    ("prefix_digest", .str state.prefixDigest)]).write

/-- The state that a text written by `text` stands for. -/
def ofText (s : String) : Option RetentionCursorState := do
  match ← (← Json.read s).fieldsOf ["as_of", "manifest_digest", "prefix_digest"] with
  | [asOf, manifestDigest, prefixDigest] =>
    return ⟨← asOf.asString, ← manifestDigest.asString, ← prefixDigest.asString⟩
  | _ => none

lemma ofText_text (state : RetentionCursorState) : ofText state.text = some state := by
  rw [ofText, text, Json.read_eq_some_iff.mpr (String.toList_ofList).symm]
  rfl

end RetentionCursorState

/-- `RetentionOrderingKey`, as `retention_entry_key` gives it. -/
abbrev RetentionOrderingKey := Lex (String × String)

namespace RetentionOrderingKey

/-- The text of a key. -/
def text (k : RetentionOrderingKey) : String :=
  String.ofList (Json.obj [("action", .str (ofLex k).1), ("record_id", .str (ofLex k).2)]).write

/-- The key that a text written by `text` stands for. -/
def ofText (s : String) : Option RetentionOrderingKey := do
  match ← (← Json.read s).fieldsOf ["action", "record_id"] with
  | [action, recordId] => return toLex (← action.asString, ← recordId.asString)
  | _ => none

lemma ofText_text (k : RetentionOrderingKey) : ofText (text k) = some k := by
  rw [ofText, text, Json.read_eq_some_iff.mpr (String.toList_ofList).symm]
  rfl

end RetentionOrderingKey

/-- The entries up to the first one with a key. -/
def entriesThrough (entries : List PrivacyCompactionEntry) (through : RetentionOrderingKey) :
    Option (List PrivacyCompactionEntry) :=
  match entries with
  | [] => none
  | e :: entries =>
    if retentionEntryKey e = through then some [e]
    else (entriesThrough entries through).map (e :: ·)

/-- `retention_prefix_digest`. -/
def retentionPrefixDigest (H : Hasher) (entries : List PrivacyCompactionEntry)
    (through : RetentionOrderingKey) : Option String :=
  (entriesThrough entries through).map fun front =>
    applicationSnapshotDigest H "retention-manifest-prefix" (front.map PrivacyCompactionEntry.json)

/-! ## The page -/

/-- `ApplicationPrivacyCompactionPage`. -/
structure ApplicationPrivacyCompactionPage where
  workspaceId : String
  manifestDigest : String
  totalEntries : ℕ
  entries : List PrivacyCompactionEntry
  nextCursor : Option String
  deriving DecidableEq, Repr

/-- What a page is resumed from. -/
structure RetentionResume where
  asOf : Instant
  captured : Option (RetentionCursorState × RetentionOrderingKey)

/-- `MAX_APPLICATION_PAGE_LIMIT`. -/
def maxApplicationPageLimit : ℕ := 200

section Page

variable (H : Hasher) (chrono : Chrono) (ctx : CatalogueContext) (file : CatalogueFile)
  (s : SessionStore) (requestedAsOf : Instant) (operation : ApplicationCursorOperation)

/-- The binding of a retention cursor. -/
def retentionBinding (capturedState : String) : ApplicationCursorBinding :=
  ⟨ctx.workspaceId, operation, Delta.contextSchemaVersion, .retention, capturedState⟩

/-- The state and the key of a cursor, or the instant that was asked for. -/
def retentionResume : Option String → Except ApplicationCursorError RetentionResume
  | none => .ok ⟨requestedAsOf, none⟩
  | some token =>
    match decodeApplicationCursorSnapshot H ctx (retentionBinding ctx operation "") token with
    | .error e => .error e
    | .ok decoded =>
      match RetentionCursorState.ofText decoded.capturedState,
          RetentionOrderingKey.ofText decoded.orderingKey with
      | some state, some ordering =>
        match chrono.parseFromRfc3339 state.asOf with
        | some asOf => .ok ⟨asOf, some (state, ordering)⟩
        | none => .error .invalid
      | _, _ => .error .invalid

/-- The cursor behind an entry. -/
def retentionNextCursor (asOf : Instant) (entries : List PrivacyCompactionEntry) (digest : String)
    (last : PrivacyCompactionEntry) : Except ApplicationCursorError String :=
  match retentionPrefixDigest H entries (retentionEntryKey last) with
  | none => .error .stale
  | some prefixDigest =>
    encodeApplicationCursor H ctx
      (retentionBinding ctx operation
        (RetentionCursorState.text ⟨chrono.toRfc3339Millis asOf.millis, digest, prefixDigest⟩))
      (RetentionOrderingKey.text (retentionEntryKey last))

/-- `application_privacy_page`. -/
def applicationPrivacyPage (limit : ℕ) (cursor : Option String) :
    Except ApplicationCursorError ApplicationPrivacyCompactionPage :=
  if ¬ (1 ≤ limit ∧ limit ≤ maxApplicationPageLimit) then
    .error (.atlas (.invalidConfig "limit must be within 1..=200"))
  else
    match retentionResume H chrono ctx requestedAsOf operation cursor with
    | .error e => .error e
    | .ok ⟨asOf, captured⟩ =>
      match privacyCompactionManifest H file s ctx.workspaceId asOf with
      | .error e => .error (.atlas e)
      | .ok (entries, digest) =>
        if captured.any (fun c => c.1.manifestDigest ≠ digest) = true then .error .stale
        else if captured.any (fun c =>
            retentionPrefixDigest H entries c.2 ≠ some c.1.prefixDigest) = true then .error .stale
        else
          let found := (entries.filter fun e =>
            captured.all fun c => c.2 < retentionEntryKey e).take (limit + 1)
          let page := found.take limit
          if limit < found.length then
            match page.getLast? with
            | none => .error (.atlas (.invalidConfig "cursor_invalid"))
            | some last =>
              match retentionNextCursor H chrono ctx operation asOf entries digest last with
              | .error e => .error e
              | .ok token => .ok ⟨ctx.workspaceId, digest, entries.length, page, some token⟩
          else .ok ⟨ctx.workspaceId, digest, entries.length, page, none⟩

/-- A page as a client gets it. -/
def retentionReply (limit : ℕ) (cursor : Option String) :
    Except ApplicationCursorError (Reply String PrivacyCompactionEntry) :=
  match applicationPrivacyPage H chrono ctx file s requestedAsOf operation limit cursor with
  | .error e => .error e
  | .ok page => .ok ⟨page.entries, page.nextCursor⟩

end Page

/-! ## Two instants of one millisecond -/

namespace SessionStore

variable {s : SessionStore} {workspaceId : String} {asOf : Instant}

lemma expiredSessions_truncated :
    s.expiredSessions workspaceId asOf.truncated = s.expiredSessions workspaceId asOf := by
  have hexpired : s.isExpired asOf.truncated = s.isExpired asOf := by
    ext row
    rw [isExpired, isExpired, cutoffMillis_truncated, cutoffMillis_truncated]
  rw [expiredSessions, expiredSessions, hexpired]

lemma expiredMetrics_truncated :
    s.expiredMetrics workspaceId asOf.truncated = s.expiredMetrics workspaceId asOf := by
  have hexpired : isExpiredMetric workspaceId asOf.truncated = isExpiredMetric workspaceId asOf := by
    ext m
    rw [isExpiredMetric, isExpiredMetric, cutoffMillis_truncated]
  rw [expiredMetrics, expiredMetrics, hexpired]

/-- No listed session was completed between the summary cut-off and the millisecond that it is
in. -/
def NoneInLostFraction (s : SessionStore) (workspaceId : String) (asOf : Instant) : Prop :=
  ∀ c ∈ s.expiredSessions workspaceId asOf,
    (c.completedAt : ℤ) * 1000000 < cutoff summaryRetentionDays asOf →
      (c.completedAt : ℤ) < cutoffMillis summaryRetentionDays asOf

lemma sessionEntry_truncated_iff (s : SessionStore) (c : CompletedSession) :
    s.sessionEntry asOf.truncated c = s.sessionEntry asOf c ↔
      ((c.completedAt : ℤ) * 1000000 < cutoff summaryRetentionDays asOf →
        (c.completedAt : ℤ) < cutoffMillis summaryRetentionDays asOf) := by
  have hcut : (c.completedAt : ℤ) * 1000000 < cutoff summaryRetentionDays asOf.truncated ↔
      (c.completedAt : ℤ) < cutoffMillis summaryRetentionDays asOf := by
    rw [cutoff_truncated]
    omega
  have hup : (c.completedAt : ℤ) < cutoffMillis summaryRetentionDays asOf →
      (c.completedAt : ℤ) * 1000000 < cutoff summaryRetentionDays asOf := lt_cutoff_of_lt_cutoffMillis
  rw [sessionEntry, sessionEntry, PrivacyCompactionEntry.mk.injEq, if_congr hcut rfl rfl]
  simp only [true_and, and_true]
  by_cases hmillis : (c.completedAt : ℤ) < cutoffMillis summaryRetentionDays asOf
  · rw [if_pos hmillis, if_pos (hup hmillis)]
    exact iff_of_true rfl fun _ => hmillis
  · rw [if_neg hmillis]
    by_cases hnanos : (c.completedAt : ℤ) * 1000000 < cutoff summaryRetentionDays asOf
    · rw [if_pos hnanos]
      exact iff_of_false (by simp) fun h => hmillis (h hnanos)
    · rw [if_neg hnanos]
      exact iff_of_true rfl fun h => absurd h hnanos

/-- The manifest for the millisecond of an instant is the one for the instant exactly when no
session is in between. -/
lemma manifestEntries_truncated_iff :
    s.manifestEntries workspaceId asOf.truncated = s.manifestEntries workspaceId asOf ↔
      s.NoneInLostFraction workspaceId asOf := by
  constructor
  · intro h c hc
    refine (sessionEntry_truncated_iff s c).mp ?_
    have hmem : s.sessionEntry asOf c ∈ s.manifestEntries workspaceId asOf.truncated :=
      h ▸ mem_manifestEntries.mpr (Or.inl ⟨c, hc, rfl⟩)
    rcases mem_manifestEntries.mp hmem with ⟨d, hd, heq⟩ | ⟨m, -, heq⟩
    · rw [expiredSessions_truncated] at hd
      have hid : d.taskSessionId = c.taskSessionId := congrArg PrivacyCompactionEntry.recordId heq
      obtain rfl := eq_of_taskSessionId (mem_completed_of_expired hd) (mem_completed_of_expired hc) hid
      exact heq
    · exact absurd (congrArg PrivacyCompactionEntry.action heq).symm (action_sessionEntry_ne c)
  · intro h
    have hmap : (s.expiredSessions workspaceId asOf).map (s.sessionEntry asOf.truncated) =
        (s.expiredSessions workspaceId asOf).map (s.sessionEntry asOf) :=
      List.map_congr_left fun c hc => (sessionEntry_truncated_iff s c).mpr (h c hc)
    rw [manifestEntries, manifestEntries, expiredSessions_truncated, expiredMetrics_truncated, hmap]

end SessionStore

/-! ## Pages of one manifest -/

section Pages

variable {H : Hasher} {chrono : Chrono} {ctx : CatalogueContext} {file : CatalogueFile}
  {s : SessionStore} {asOf requestedAsOf : Instant} {operation : ApplicationCursorOperation}
  {entries todo front back : List PrivacyCompactionEntry} {last : PrivacyCompactionEntry}
  {digest token path : String} {limit : ℕ} {cursor : Option String}

lemma entriesThrough_append (hsorted : (front ++ last :: back).Pairwise
    fun e e' => retentionEntryKey e < retentionEntryKey e') :
    entriesThrough (front ++ last :: back) (retentionEntryKey last) = some (front ++ [last]) := by
  induction front with
  | nil => exact if_pos rfl
  | cons e front ih =>
    have hne : retentionEntryKey e ≠ retentionEntryKey last :=
      ((List.pairwise_cons.mp hsorted).1 last (by simp)).ne
    rw [List.cons_append, entriesThrough, if_neg hne, ih hsorted.of_cons]
    rfl

/-- The state in a cursor behind some entries. -/
def cursorState (H : Hasher) (chrono : Chrono) (asOf : Instant) (digest : String)
    (front : List PrivacyCompactionEntry) : RetentionCursorState where
  asOf := chrono.toRfc3339Millis asOf.millis
  manifestDigest := digest
  prefixDigest :=
    applicationSnapshotDigest H "retention-manifest-prefix" (front.map PrivacyCompactionEntry.json)

/-- An entry whose key can be put in a cursor. -/
def HasCursor (H : Hasher) (chrono : Chrono) (ctx : CatalogueContext)
    (operation : ApplicationCursorOperation) (asOf : Instant)
    (entries : List PrivacyCompactionEntry) (digest : String) (last : PrivacyCompactionEntry) :
    Prop :=
  ∃ front back, entries = front ++ last :: back ∧
    CursorFits H ctx
      (retentionBinding ctx operation (cursorState H chrono asOf digest (front ++ [last])).text)
      (RetentionOrderingKey.text (retentionEntryKey last))

lemma text_ne_empty (k : RetentionOrderingKey) : RetentionOrderingKey.text k ≠ "" := by
  intro h
  have hlist := congrArg String.toList h
  rw [RetentionOrderingKey.text, String.toList_ofList] at hlist
  exact Json.write_ne_nil _ hlist

/-- The front of sorted entries up to one of them is determined. -/
lemma front_unique {front' back' : List PrivacyCompactionEntry}
    (hsorted : (front ++ last :: back).Pairwise
      fun e e' => retentionEntryKey e < retentionEntryKey e')
    (h : front ++ last :: back = front' ++ last :: back') : front = front' ∧ back = back' := by
  have hfront := entriesThrough_append hsorted
  rw [h] at hsorted hfront
  have heq := Option.some.inj ((entriesThrough_append hsorted).symm.trans hfront)
  obtain rfl := List.append_cancel_right heq
  exact ⟨rfl, (List.cons.inj (List.append_cancel_left h)).2⟩

/-- The token behind an entry. -/
lemma retentionNextCursor_append (hsorted : (front ++ last :: back).Pairwise
      fun e e' => retentionEntryKey e < retentionEntryKey e') :
    retentionNextCursor H chrono ctx operation asOf (front ++ last :: back) digest last =
      encodeApplicationCursor H ctx
        (retentionBinding ctx operation (cursorState H chrono asOf digest (front ++ [last])).text)
        (RetentionOrderingKey.text (retentionEntryKey last)) := by
  rw [retentionNextCursor, retentionPrefixDigest, entriesThrough_append hsorted]
  rfl

/-- A token is resumed at the millisecond of the instant, with the state and the key. -/
lemma retentionResume_token (hclock : chrono.ReadsBack asOf)
    (h : encodeApplicationCursor H ctx
      (retentionBinding ctx operation (cursorState H chrono asOf digest (front ++ [last])).text)
      (RetentionOrderingKey.text (retentionEntryKey last)) = .ok token) :
    retentionResume H chrono ctx requestedAsOf operation (some token) =
      .ok ⟨asOf.truncated, some (cursorState H chrono asOf digest (front ++ [last]),
        retentionEntryKey last)⟩ := by
  have hdecode : decodeApplicationCursorSnapshot H ctx (retentionBinding ctx operation "") token =
      .ok ⟨_, _⟩ := decode_of_encode h ""
  rw [retentionResume, hdecode]
  simp only [RetentionOrderingKey.ofText_text, retentionBinding, RetentionCursorState.ofText_text]
  have hread : chrono.parseFromRfc3339 (cursorState H chrono asOf digest (front ++ [last])).asOf =
      some asOf.truncated := hclock
  rw [hread]

/-- A page of a manifest, from what its cursor is resumed with. -/
lemma retentionReply_of_resume {t : Instant}
    {captured : Option (RetentionCursorState × RetentionOrderingKey)}
    (hlimit : 1 ≤ limit ∧ limit ≤ maxApplicationPageLimit)
    (hresume : retentionResume H chrono ctx requestedAsOf operation cursor = .ok ⟨t, captured⟩)
    (hmanifest : privacyCompactionManifest H file s ctx.workspaceId t = .ok (entries, digest))
    (hcaptured : ∀ c ∈ captured, c.1.manifestDigest = digest ∧
      retentionPrefixDigest H entries c.2 = some c.1.prefixDigest)
    (htodo : (entries.filter fun e => captured.all fun c => c.2 < retentionEntryKey e) = todo) :
    retentionReply H chrono ctx file s requestedAsOf operation limit cursor =
      if limit < todo.length then
        match (todo.take limit).getLast? with
        | none => .error (.atlas (.invalidConfig "cursor_invalid"))
        | some last =>
          match retentionNextCursor H chrono ctx operation t entries digest last with
          | .error e => .error e
          | .ok token => .ok ⟨todo.take limit, some token⟩
      else .ok ⟨todo, none⟩ := by
  have hdigest : captured.any (fun c => c.1.manifestDigest ≠ digest) = false := by
    cases captured with
    | none => rfl
    | some c => simp [(hcaptured c rfl).1]
  have hprefix : captured.any (fun c =>
      retentionPrefixDigest H entries c.2 ≠ some c.1.prefixDigest) = false := by
    cases captured with
    | none => rfl
    | some c => simp [(hcaptured c rfl).2]
  have hfound : limit < (todo.take (limit + 1)).length ↔ limit < todo.length := by
    rw [List.length_take]
    omega
  have hpage : (todo.take (limit + 1)).take limit = todo.take limit := by
    rw [List.take_take, min_eq_left (by omega)]
  rw [retentionReply, applicationPrivacyPage, if_neg (not_not.mpr hlimit), hresume]
  dsimp only
  rw [hmanifest]
  dsimp only
  rw [hdigest, hprefix, if_neg Bool.false_ne_true, if_neg Bool.false_ne_true, htodo, hpage]
  by_cases hlt : limit < todo.length
  · rw [if_pos hlt, if_pos (hfound.mpr hlt)]
    cases (todo.take limit).getLast? with
    | none => rfl
    | some last =>
      dsimp only
      cases retentionNextCursor H chrono ctx operation t entries digest last <;> rfl
  · rw [if_neg hlt, if_neg (fun h => hlt (hfound.mp h)), List.take_of_length_le (by omega)]

/-- What is left behind a token of a manifest. -/
def Stands (H : Hasher) (chrono : Chrono) (ctx : CatalogueContext)
    (operation : ApplicationCursorOperation) (asOf : Instant)
    (entries : List PrivacyCompactionEntry) (digest : String) (cursor : Option String)
    (todo : List PrivacyCompactionEntry) : Prop :=
  match cursor with
  | none => todo = entries
  | some token => ∃ front last, entries = front ++ last :: todo ∧
    encodeApplicationCursor H ctx
      (retentionBinding ctx operation (cursorState H chrono asOf digest (front ++ [last])).text)
      (RetentionOrderingKey.text (retentionEntryKey last)) = .ok token

section OneManifest

variable (hclock : chrono.ReadsBack asOf)
  (hfirst : privacyCompactionManifest H file s ctx.workspaceId asOf = .ok (entries, digest))
  (hothers : privacyCompactionManifest H file s ctx.workspaceId asOf.truncated =
    .ok (entries, digest))
  (hsorted : entries.Pairwise fun e e' => retentionEntryKey e < retentionEntryKey e')

include hclock hfirst hothers hsorted

/-- A page of what is left. -/
lemma retentionReply_of_stands (hlimit : 1 ≤ limit ∧ limit ≤ maxApplicationPageLimit)
    (hstands : Stands H chrono ctx operation asOf entries digest cursor todo) :
    retentionReply H chrono ctx file s asOf operation limit cursor =
      if limit < todo.length then
        match (todo.take limit).getLast? with
        | none => .error (.atlas (.invalidConfig "cursor_invalid"))
        | some last =>
          match retentionNextCursor H chrono ctx operation asOf entries digest last with
          | .error e => .error e
          | .ok token => .ok ⟨todo.take limit, some token⟩
      else .ok ⟨todo, none⟩ := by
  cases cursor with
  | none =>
    obtain rfl : todo = entries := hstands
    exact retentionReply_of_resume hlimit rfl hfirst (by simp)
      (List.filter_eq_self.mpr fun _ _ => rfl)
  | some token =>
    obtain ⟨front, last, rfl, htoken⟩ := hstands
    have hcaptured := entriesThrough_append hsorted
    have hsame : ∀ r, retentionNextCursor H chrono ctx operation asOf.truncated
        (front ++ last :: todo) digest r =
          retentionNextCursor H chrono ctx operation asOf (front ++ last :: todo) digest r := by
      intro r
      rw [retentionNextCursor, retentionNextCursor, Instant.millis_truncated]
    refine (retentionReply_of_resume hlimit (retentionResume_token hclock htoken)
      hothers ?_ (remaining_last hsorted)).trans ?_
    · intro c hc
      obtain rfl := Option.some.inj hc
      refine ⟨rfl, ?_⟩
      rw [retentionPrefixDigest, hcaptured]
      rfl
    · simp only [hsame]

end OneManifest

/-- Where a page ends, in all entries. -/
lemma append_of_stands (hstands : Stands H chrono ctx operation asOf entries digest cursor todo) :
    ∃ front, entries = front ++ todo := by
  cases cursor with
  | none => exact ⟨[], (show todo = entries from hstands).symm⟩
  | some token =>
    obtain ⟨front, last, rfl, -⟩ := hstands
    exact ⟨front ++ [last], by simp⟩

lemma split_at_page {α : Type*} {todo : List α} {r : α} (hpos : 0 < limit)
    (hr : todo[limit - 1]? = some r) :
    (todo.take limit).getLast? = some r ∧ todo = todo.take (limit - 1) ++ r :: todo.drop limit := by
  obtain ⟨hlt, hget⟩ := List.getElem?_eq_some_iff.mp hr
  constructor
  · rw [List.getLast?_take, if_neg (by omega), hr]
    rfl
  · have hdrop := List.drop_eq_getElem_cons hlt
    rw [hget, Nat.sub_add_cancel hpos] at hdrop
    rw [← hdrop, List.take_append_drop]

/-- A client gets the manifest of the first page, if it is the manifest of every page, exactly
when all pages but the last one can end where they do. -/
lemma exists_follow_iff_of_manifest (hclock : chrono.ReadsBack asOf)
    (hfirst : privacyCompactionManifest H file s ctx.workspaceId asOf = .ok (entries, digest))
    (hothers : privacyCompactionManifest H file s ctx.workspaceId asOf.truncated =
      .ok (entries, digest))
    (hsorted : entries.Pairwise fun e e' => retentionEntryKey e < retentionEntryKey e')
    {limits : ℕ → ℕ} (hlimits : ∀ i, 1 ≤ limits i ∧ limits i ≤ maxApplicationPageLimit) :
    (∃ n, follow (retentionReply H chrono ctx file s asOf operation) ((List.range n).map limits)
      none = .done entries) ↔
      ∀ e, EndsPage limits entries e →
        HasCursor H chrono ctx operation asOf entries digest e := by
  -- where a page ends before the last entry, and the token there
  have hend : ∀ limit token todo e, 1 ≤ limit ∧ limit ≤ maxApplicationPageLimit →
      Stands H chrono ctx operation asOf entries digest token todo → limit < todo.length →
      todo[limit - 1]? = some e → ∃ front, entries = front ++ e :: todo.drop limit ∧
        retentionReply H chrono ctx file s asOf operation limit token =
          match encodeApplicationCursor H ctx
            (retentionBinding ctx operation (cursorState H chrono asOf digest (front ++ [e])).text)
            (RetentionOrderingKey.text (retentionEntryKey e)) with
          | .error e => .error e
          | .ok token => .ok ⟨todo.take limit, some token⟩ := by
    intro limit token todo e hlimit hstands hlt he
    obtain ⟨front, hfront⟩ := append_of_stands hstands
    obtain ⟨hlast, hsplit⟩ := split_at_page hlimit.1 he
    have hentries : entries = (front ++ todo.take (limit - 1)) ++ e :: todo.drop limit := by
      rw [List.append_assoc, ← hsplit, hfront]
    refine ⟨_, hentries, ?_⟩
    rw [retentionReply_of_stands hclock hfirst hothers hsorted hlimit hstands, if_pos hlt, hlast]
    dsimp only
    conv_lhs => rw [hentries]
    rw [retentionNextCursor_append (hentries ▸ hsorted)]
  refine @exists_follow_eq_done_iff _ _ _ _ (Stands H chrono ctx operation asOf entries digest)
    (HasCursor H chrono ctx operation asOf entries digest)
    {limit | 1 ≤ limit ∧ limit ≤ maxApplicationPageLimit} ?_ ?_ ?_ _ (fun i => (hlimits i).1)
    hlimits _ _ rfl
  · intro limit token todo hlimit hstands hle
    rw [retentionReply_of_stands hclock hfirst hothers hsorted hlimit hstands, if_neg (by omega)]
  · intro limit token todo e hlimit hstands hlt he ⟨front', back', hentries', hfits⟩
    obtain ⟨front, hentries, hreply⟩ := hend limit token todo e hlimit hstands hlt he
    obtain ⟨rfl, -⟩ := front_unique (hentries ▸ hsorted) (hentries.symm.trans hentries')
    have htoken := (encode_eq_ok_iff rfl (text_ne_empty _)).mpr ⟨hfits, rfl⟩
    rw [htoken] at hreply
    exact ⟨_, hreply, front, e, hentries, htoken⟩
  · intro limit token todo e hlimit hstands hlt he hcursor
    obtain ⟨front, hentries, hreply⟩ := hend limit token todo e hlimit hstands hlt he
    rw [encode_error_of_not_fits fun hfits => hcursor ⟨front, _, hentries, hfits⟩] at hreply
    exact ⟨_, hreply⟩

/-- If the manifest for the millisecond of the instant is another one, the second page is
refused. -/
lemma retentionReply_stale {entries' : List PrivacyCompactionEntry} {digest' : String}
    (hclock : chrono.ReadsBack asOf)
    (hlimit : 1 ≤ limit ∧ limit ≤ maxApplicationPageLimit)
    (hothers : privacyCompactionManifest H file s ctx.workspaceId asOf.truncated =
      .ok (entries', digest')) (hne : digest ≠ digest')
    (htoken : encodeApplicationCursor H ctx
      (retentionBinding ctx operation (cursorState H chrono asOf digest (front ++ [last])).text)
      (RetentionOrderingKey.text (retentionEntryKey last)) = .ok token) :
    retentionReply H chrono ctx file s asOf operation limit (some token) = .error .stale := by
  rw [retentionReply, applicationPrivacyPage, if_neg (not_not.mpr hlimit),
    retentionResume_token hclock htoken]
  dsimp only
  rw [hothers]
  dsimp only
  rw [if_pos]
  simpa [cursorState] using hne

/-- The first page, if others follow. -/
lemma retentionReply_first (hlimit : 1 ≤ limit ∧ limit ≤ maxApplicationPageLimit)
    (hmanifest : privacyCompactionManifest H file s ctx.workspaceId asOf = .ok (entries, digest))
    (hsorted : entries.Pairwise fun e e' => retentionEntryKey e < retentionEntryKey e')
    (hlt : limit < entries.length) (hget : entries[limit - 1]? = some last) :
    retentionReply H chrono ctx file s asOf operation limit none =
      match encodeApplicationCursor H ctx (retentionBinding ctx operation
        (cursorState H chrono asOf digest (entries.take (limit - 1) ++ [last])).text)
        (RetentionOrderingKey.text (retentionEntryKey last)) with
      | .error e => .error e
      | .ok token => .ok ⟨entries.take limit, some token⟩ := by
  obtain ⟨hlast, hsplit⟩ := split_at_page hlimit.1 hget
  have hreply : retentionReply H chrono ctx file s asOf operation limit none = _ :=
    retentionReply_of_resume hlimit rfl hmanifest (by simp)
      (List.filter_eq_self.mpr fun _ _ => rfl)
  have hnext : retentionNextCursor H chrono ctx operation asOf entries digest last =
      encodeApplicationCursor H ctx (retentionBinding ctx operation
        (cursorState H chrono asOf digest (entries.take (limit - 1) ++ [last])).text)
        (RetentionOrderingKey.text (retentionEntryKey last)) :=
    (congrArg (fun l => retentionNextCursor H chrono ctx operation asOf l digest last) hsplit).trans
      (retentionNextCursor_append (by rw [← hsplit]; exact hsorted))
  rw [hreply, if_pos hlt, hlast]
  dsimp only
  rw [hnext]

/-- Two calls, the second one refused. -/
lemma follow_stale {entries' : List PrivacyCompactionEntry} {digest' : String} {limit' : ℕ}
    (hclock : chrono.ReadsBack asOf)
    (hlimit : 1 ≤ limit ∧ limit ≤ maxApplicationPageLimit)
    (hlimit' : 1 ≤ limit' ∧ limit' ≤ maxApplicationPageLimit)
    (hmanifest : privacyCompactionManifest H file s ctx.workspaceId asOf = .ok (entries, digest))
    (hothers : privacyCompactionManifest H file s ctx.workspaceId asOf.truncated =
      .ok (entries', digest')) (hne : digest ≠ digest')
    (hsorted : entries.Pairwise fun e e' => retentionEntryKey e < retentionEntryKey e')
    (hlt : limit < entries.length) (hget : entries[limit - 1]? = some last)
    (hfits : CursorFits H ctx (retentionBinding ctx operation
      (cursorState H chrono asOf digest (entries.take (limit - 1) ++ [last])).text)
      (RetentionOrderingKey.text (retentionEntryKey last))) :
    follow (retentionReply H chrono ctx file s asOf operation) [limit, limit'] none =
      .failed .stale := by
  have htoken := (encode_eq_ok_iff rfl (text_ne_empty _)).mpr ⟨hfits, rfl⟩
  have hfirst := @retentionReply_first H chrono ctx file s asOf operation _ _ _ _ hlimit hmanifest
    hsorted hlt hget
  rw [htoken] at hfirst
  rw [follow, hfirst]
  dsimp only
  rw [follow, retentionReply_stale hclock hlimit' hothers hne htoken]
  rfl

end Pages

namespace RetentionPages

/-- A client that follows the cursors over an unchanged catalogue gets the manifest of the first
page exactly when that is the only page, or no listed session was completed in the fraction of a
millisecond that the cursors lose and every page but the last ends with a key that fits. -/
theorem manifest_exact_iff {H : Hasher} (hH : H.Injective) (chrono : Chrono) (ctx : CatalogueContext)
    (file : CatalogueFile) (s : SessionStore) (operation : ApplicationCursorOperation)
    (asOf : Instant) (hclock : chrono.ReadsBack asOf) (entries : List PrivacyCompactionEntry)
    (digest : String)
    (hmanifest : privacyCompactionManifest H file s ctx.workspaceId asOf = .ok (entries, digest))
    (limits : ℕ → ℕ) (hlimits : ∀ i, 1 ≤ limits i ∧ limits i ≤ maxApplicationPageLimit) :
    (∃ n, follow (retentionReply H chrono ctx file s asOf operation) ((List.range n).map limits)
      none = .done entries) ↔
      entries.length ≤ limits 0 ∨
        s.NoneInLostFraction ctx.workspaceId asOf ∧
          ∀ e, EndsPage limits entries e →
            HasCursor H chrono ctx operation asOf entries digest e := by
  obtain ⟨path, hid, hagain, hws, hentries, hdigest⟩ := privacyCompactionManifest_eq_ok_iff.mp hmanifest
  have hsorted : entries.Pairwise fun e e' => retentionEntryKey e < retentionEntryKey e' :=
    hentries ▸ SessionStore.pairwise_manifestEntries
  have hothers : privacyCompactionManifest H file s ctx.workspaceId asOf.truncated =
      .ok (_, _) := privacyCompactionManifest_eq_ok_iff.mpr ⟨path, hid, hagain, hws, rfl, rfl⟩
  by_cases hshort : entries.length ≤ limits 0
  · refine iff_of_true ⟨1, ?_⟩ (Or.inl hshort)
    have hreply : retentionReply H chrono ctx file s asOf operation (limits 0) none = _ :=
      retentionReply_of_resume (hlimits 0) rfl hmanifest (by simp)
        (List.filter_eq_self.mpr fun _ _ => rfl)
    rw [if_neg (by omega)] at hreply
    show follow _ [limits 0] none = _
    rw [follow, hreply]
  by_cases hnone : s.NoneInLostFraction ctx.workspaceId asOf
  · rw [SessionStore.manifestEntries_truncated_iff.mpr hnone, ← hentries, ← hdigest] at hothers
    rw [exists_follow_iff_of_manifest hclock hmanifest hothers hsorted hlimits]
    simp [hshort, hnone]
  · refine iff_of_false ?_ fun h => h.elim hshort fun h => hnone h.1
    have hne : digest ≠ manifestDigest H path ctx.workspaceId
        (s.manifestEntries ctx.workspaceId asOf.truncated) := by
      intro heq
      rw [hdigest] at heq
      have := (manifestDigest_inj hH heq).2.2
      exact hnone (SessionStore.manifestEntries_truncated_iff.mp (this.symm.trans hentries))
    rintro ⟨n, hn⟩
    cases n with
    | zero => exact absurd hn (by simp [follow])
    | succ n =>
      obtain ⟨last, hget⟩ : ∃ last, entries[limits 0 - 1]? = some last :=
        ⟨_, List.getElem?_eq_getElem (by omega)⟩
      rw [List.range_succ_eq_map, List.map_cons, follow,
        retentionReply_first (hlimits 0) hmanifest hsorted (Nat.not_le.mp hshort) hget] at hn
      cases htoken : encodeApplicationCursor H ctx (retentionBinding ctx operation
          (cursorState H chrono asOf digest (entries.take (limits 0 - 1) ++ [last])).text)
          (RetentionOrderingKey.text (retentionEntryKey last)) with
      | error error =>
        rw [htoken] at hn
        exact absurd hn (by simp)
      | ok token =>
        rw [htoken] at hn
        obtain ⟨rest, hrest, -⟩ := behind_eq_done_iff.mp hn
        cases n with
        | zero => exact absurd hrest (by simp [follow])
        | succ n =>
          -- the second page is refused
          rw [List.range_succ_eq_map, List.map_cons, List.map_cons, follow,
            retentionReply_stale hclock (hlimits _) hothers hne htoken] at hrest
          exact absurd hrest (by simp)

/-! ## Two sessions -/

/-- A digest of one byte, for runs on concrete values. -/
def checksum : Hasher :=
  let sum (bytes : List UInt8) := [UInt8.ofNat (bytes.map UInt8.toNat).sum]
  ⟨sum, fun values => sum (frame values), sum⟩

/-- A nanosecond after the start of August 2026. -/
def august : Instant := ⟨1785542400000000001, by omega⟩

/-- `chrono` for the texts of that millisecond. -/
def augustChrono : Chrono where
  toRfc3339Millis _ := "2026-08-01T00:00:00.000Z"
  parseFromRfc3339 text := if text = "2026-08-01T00:00:00.000Z" then some august.truncated else none

lemma augustChrono_readsBack : augustChrono.ReadsBack august := rfl

/-- A session that was completed at some time. -/
def finished (id : String) (completedAt : Timestamp) : TaskSession :=
  ⟨id, "ws", "g₁", some "g₁", "th", "gh", .none, none, .unknown, .unknown, none, "p", "1.0.0",
    .completed, some true, some true, some "done", none, none, 0, some completedAt⟩

/-- Two sessions with an event each; the first was completed in the millisecond of the summary
cut-off of `august`, the second an hour earlier. -/
def twoSessions : SessionStore :=
  let s := (SessionStore.ofCatalogue (.registered ["ws"])).withSessions
    ((Table.empty.insertOrIgnore (finished "a" 1769990400000)).insertOrIgnore
      (finished "b" 1769986800000))
  { s with
    contextUseEvent :=
      (Table.empty.insertOrIgnore ⟨"ea", "a", none, none, none, .outcomeRecorded,
        .operatorReported, none, "\x7b\x7d", "2026-02-02T00:00:00.000Z"⟩).insertOrIgnore
        ⟨"eb", "b", none, none, none, .outcomeRecorded, .operatorReported, none, "\x7b\x7d",
          "2026-02-01T23:00:00.000Z"⟩ }

/-- The file of the catalogue. -/
def atlasFile : CatalogueFile := ⟨.ok "atlas.sqlite", .ok "atlas.sqlite"⟩

lemma twoSessions_manifest : twoSessions.manifestEntries "ws" august =
    [⟨"a", .deleteSession, 0, 1, 0⟩, ⟨"b", .deleteSession, 0, 1, 0⟩] := by decide

lemma twoSessions_truncated : twoSessions.manifestEntries "ws" august.truncated =
    [⟨"a", .deleteDerived, 0, 1, 0⟩, ⟨"b", .deleteSession, 0, 1, 0⟩] := by decide

theorem manifest_exact_iff_twoSessions :
    (∃ n, follow (retentionReply Hasher.plain augustChrono ⟨"ws", "atlas.sqlite", none⟩ atlasFile
        twoSessions august .retentionStatus) ((List.range n).map fun _ => 50) none =
          .done (twoSessions.manifestEntries "ws" august)) ↔
      (twoSessions.manifestEntries "ws" august).length ≤ 50 ∨
        twoSessions.NoneInLostFraction "ws" august ∧
          ∀ e, EndsPage (fun _ => 50) (twoSessions.manifestEntries "ws" august) e →
            HasCursor Hasher.plain augustChrono ⟨"ws", "atlas.sqlite", none⟩ .retentionStatus august
              (twoSessions.manifestEntries "ws" august)
              (manifestDigest Hasher.plain "atlas.sqlite" "ws"
                (twoSessions.manifestEntries "ws" august)) e :=
  manifest_exact_iff Hasher.plain_injective augustChrono ⟨"ws", "atlas.sqlite", none⟩ atlasFile twoSessions
    .retentionStatus august augustChrono_readsBack _ _
    (privacyCompactionManifest_eq_ok_iff.mpr ⟨"atlas.sqlite", rfl, rfl, by decide, rfl, rfl⟩)
    (fun _ => 50) fun _ => ⟨by omega, by decide⟩

/-- The first page ends with a session whose action is another one for the second page. -/
theorem twoSessions_stale :
    follow (retentionReply checksum augustChrono ⟨"ws", "atlas.sqlite", none⟩ atlasFile twoSessions
      august .retentionStatus) [1, 1] none = .failed .stale := by
  have hmanifest : privacyCompactionManifest checksum atlasFile twoSessions "ws" august =
      .ok (_, _) :=
    privacyCompactionManifest_eq_ok_iff.mpr ⟨"atlas.sqlite", rfl, rfl, by decide, rfl, rfl⟩
  have hothers : privacyCompactionManifest checksum atlasFile twoSessions "ws" august.truncated =
      .ok (_, _) :=
    privacyCompactionManifest_eq_ok_iff.mpr ⟨"atlas.sqlite", rfl, rfl, by decide, rfl, rfl⟩
  have hsorted : (twoSessions.manifestEntries "ws" august).Pairwise
      fun e e' => retentionEntryKey e < retentionEntryKey e' :=
    SessionStore.pairwise_manifestEntries
  rw [twoSessions_manifest] at hmanifest hsorted
  rw [twoSessions_truncated] at hothers
  have hne : manifestDigest checksum "atlas.sqlite" "ws"
      [⟨"a", .deleteSession, 0, 1, 0⟩, ⟨"b", .deleteSession, 0, 1, 0⟩] ≠
        manifestDigest checksum "atlas.sqlite" "ws"
          [⟨"a", .deleteDerived, 0, 1, 0⟩, ⟨"b", .deleteSession, 0, 1, 0⟩] := by
    simp only [manifestDigest, contentHashOfBytes, canonicalJsonBytes, utf8_ofList]
    decide +kernel
  have hfits : CursorFits checksum ⟨"ws", "atlas.sqlite", none⟩
      (retentionBinding ⟨"ws", "atlas.sqlite", none⟩ .retentionStatus
        (cursorState checksum augustChrono august (manifestDigest checksum "atlas.sqlite" "ws"
          [⟨"a", .deleteSession, 0, 1, 0⟩, ⟨"b", .deleteSession, 0, 1, 0⟩])
            [⟨"a", .deleteSession, 0, 1, 0⟩]).text)
      (RetentionOrderingKey.text (retentionEntryKey ⟨"a", .deleteSession, 0, 1, 0⟩)) := by
    refine ⟨by decide, by decide, ?_⟩
    rw [utf8ByteSize_token]
    simp only [cursorState, applicationSnapshotDigest, manifestDigest, contentHashOfBytes,
      frameRecords, canonicalJsonBytes, utf8_ofList]
    decide +kernel
  exact follow_stale augustChrono_readsBack (by decide) (by decide) hmanifest hothers hne hsorted
    (by decide) rfl hfits

end RetentionPages

end WorkspaceAtlas
