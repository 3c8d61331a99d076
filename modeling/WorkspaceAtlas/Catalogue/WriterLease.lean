/-
# The writer lease

`acquire_writer_lease`, `heartbeat_writer_lease` and `release_writer_lease` of
`catalogue.rs`, over any interleaving of calls by any holders.  The lease row names the
holder that the calls are checked against; who the lease was last granted to is what the
replies of the calls say.  The two agree until a stale lease is taken over: the
`ON CONFLICT` clause of the acquiring statement does not rewrite `holder_id`.
-/
import WorkspaceAtlas.Catalogue.Schema
import WorkspaceAtlas.Transition.Iteration

namespace WorkspaceAtlas

open Relational Transition

namespace Lease

/-! ## The calls -/

/-- The nanoseconds of the longest `chrono::Duration`. -/
def maxDuration : ℕ := 9223372036854775807 * 1000000

/-- `chrono::Duration::from_std(stale_after)`, or a minute when that is out of range. -/
def staleLimit (staleAfter : ℕ) : ℕ :=
  if staleAfter ≤ maxDuration then staleAfter else 60 * 1000000000

/-- `iso8601_age_seconds`: whether a stamp is older than the stale limit at the instant
`now`, in nanoseconds. -/
def iso8601AgeSeconds (stamp : Timestamp) (staleAfter now : ℕ) : Bool :=
  (staleLimit staleAfter : ℤ) < (now : ℤ) - (stamp : ℤ) * 1000000

/-- The nanoseconds a `SystemTime` can be away from the epoch. -/
def maxSystemTime : ℕ := 9223372036854775807 * 1000000000 + 999999999

/-- `now_plus_iso8601`: `now` itself when the sum is out of range. -/
def nowPlusIso8601 (now duration : ℕ) : Timestamp :=
  iso8601 (if now + duration ≤ maxSystemTime then now + duration else now)

/-- `DEFAULT_LEASE_DURATION`, in nanoseconds. -/
def defaultLeaseDuration : ℕ := 300 * 1000000000

/-- `WriterLeaseGuard`, the reply of a successful acquisition. -/
structure WriterLeaseGuard where
  holderId : String
  workspaceId : String
  acquiredAt : Timestamp
  expiresAt : Timestamp
  deriving DecidableEq, Repr

/-- The columns the `ON CONFLICT(workspace_id) DO UPDATE` clause rewrites. -/
def refresh (now expires : Timestamp) : Table.Update WriterLease where
  toFun row :=
    { row with
      acquiredAt := now
      expiresAt := expires
      heartbeatAt := now
      schemaWriterVersion := some 4 }
  clash_left _ _ := Iff.rfl

/-- The columns that a heartbeat rewrites. -/
def beat (now expires : Timestamp) : Table.Update WriterLease where
  toFun row :=
    { row with
      heartbeatAt := now
      expiresAt := expires }
  clash_left _ _ := Iff.rfl

section

variable (now expires : Timestamp) (row : WriterLease)

@[simp] lemma refresh_holderId : (refresh now expires row).holderId = row.holderId := rfl

@[simp] lemma refresh_heartbeatAt : (refresh now expires row).heartbeatAt = now := rfl

@[simp] lemma beat_holderId : (beat now expires row).holderId = row.holderId := rfl

@[simp] lemma beat_heartbeatAt : (beat now expires row).heartbeatAt = now := rfl

end

/-- The lease row of a workspace. -/
def leaseOf (c : Catalogue) (workspaceId : String) : Option WriterLease :=
  c.writerLease.find? fun r => r.workspaceId = workspaceId

/-- `acquire_writer_lease`. -/
def acquireWriterLease (c : Catalogue) (workspaceId holderId : String)
    (duration heartbeatStale now : ℕ) : Except AtlasError (Catalogue × WriterLeaseGuard) :=
  let guard : WriterLeaseGuard :=
    ⟨holderId, workspaceId, iso8601 now, nowPlusIso8601 now duration⟩
  match leaseOf c workspaceId with
  | none =>
    if c.hasWorkspace workspaceId then
      match c.writerLease.insert? ⟨workspaceId, holderId, iso8601 now,
          nowPlusIso8601 now duration, iso8601 now, some 4⟩ with
      | some leases => .ok ({ c with writerLease := leases }, guard)
      | none => .error (.sqlite (.constraint "writer_lease"))
    else .error (.sqlite (.foreignKey "writer_lease"))
  | some existing =>
    if existing.holderId = holderId ∨
        iso8601AgeSeconds existing.heartbeatAt heartbeatStale now = true then
      -- the conflict target is met, so the statement updates the row it found
      .ok ({ c with
        writerLease := c.writerLease.update (fun r => r.workspaceId = workspaceId)
          (refresh (iso8601 now) (nowPlusIso8601 now duration)) }, guard)
    else .error (.writerLeaseHeld existing.holderId)

/-- The condition of the statements of `heartbeat_writer_lease` and
`release_writer_lease`. -/
def ownRow (workspaceId holderId : String) (r : WriterLease) : Bool :=
  r.workspaceId = workspaceId ∧ r.holderId = holderId

/-- `heartbeat_writer_lease`. -/
def heartbeatWriterLease (c : Catalogue) (workspaceId holderId : String) (now : ℕ) :
    Except AtlasError Catalogue :=
  if c.writerLease.count (ownRow workspaceId holderId) = 0 then
    .error (.writerLeaseExpired 0)
  else
    .ok { c with
      writerLease := c.writerLease.update (ownRow workspaceId holderId)
        (beat (iso8601 now) (nowPlusIso8601 now defaultLeaseDuration)) }

/-- `release_writer_lease`: `Ok` also when no row is deleted. -/
def releaseWriterLease (c : Catalogue) (workspaceId holderId : String) :
    Except AtlasError Catalogue :=
  .ok { c with writerLease := c.writerLease.delete (ownRow workspaceId holderId) }

/-! ## What the calls do to the row of a workspace -/

section Rows

variable {c c' : Catalogue} {ws ws' h : String} {d stale now : ℕ} {row : WriterLease}
  {g : WriterLeaseGuard}

lemma leaseOf_eq_some :
    leaseOf c ws = some row ↔ row ∈ c.writerLease ∧ row.workspaceId = ws := by
  unfold leaseOf
  rw [Table.find?_eq_some_iff]
  · simp
  · intro x _ y _ hx hy
    simp only [decide_eq_true_eq] at hx hy
    exact hx.trans hy.symm

lemma workspaceId_of_leaseOf (hrow : leaseOf c ws = some row) : row.workspaceId = ws :=
  (leaseOf_eq_some.mp hrow).2

lemma leaseOf_update (p : WriterLease → Bool) (f : Table.Update WriterLease) :
    leaseOf { c with writerLease := c.writerLease.update p f } ws =
      (leaseOf c ws).map fun r => if p r = true then f r else r := by
  refine Table.find?_update fun r => ?_
  have hws : (f r).workspaceId = r.workspaceId := (f.clash_left r r).mpr rfl
  rw [hws]

lemma acquireWriterLease_ok (hok : acquireWriterLease c ws h d stale now = .ok (c', g)) :
    g.workspaceId = ws ∧ g.holderId = h ∧ (∀ ws' ≠ ws, leaseOf c' ws' = leaseOf c ws') ∧
      ∃ row', leaseOf c' ws = some row' ∧ row'.heartbeatAt = iso8601 now ∧
        ((leaseOf c ws = none ∧ row'.holderId = h) ∨
          ∃ row, leaseOf c ws = some row ∧ row'.holderId = row.holderId ∧
            (row.holderId = h ∨ iso8601AgeSeconds row.heartbeatAt stale now = true)) := by
  unfold acquireWriterLease at hok
  split at hok
  next hnone =>
    split at hok
    · split at hok
      next leases hins =>
        simp only [Except.ok.injEq, Prod.mk.injEq] at hok
        obtain ⟨rfl, rfl⟩ := hok
        have hfind : ∀ ws', leaseOf { c with writerLease := leases } ws' =
            (leaseOf c ws').or (if ws = ws' then some ⟨ws, h, iso8601 now,
              nowPlusIso8601 now d, iso8601 now, some 4⟩ else none) := by
          intro ws'
          have := Table.find?_of_insert? (p := fun r => decide (r.workspaceId = ws')) hins
          simpa [leaseOf] using this
        refine ⟨rfl, rfl, fun ws' hne => ?_, ⟨ws, h, iso8601 now, nowPlusIso8601 now d,
          iso8601 now, some 4⟩, ?_, rfl, Or.inl ⟨hnone, rfl⟩⟩
        · rw [hfind, if_neg (Ne.symm hne), Option.or_none]
        · rw [hfind, hnone, if_pos rfl, Option.none_or]
      · exact absurd hok (by simp)
    · exact absurd hok (by simp)
  next existing hsome =>
    split at hok
    next hcond =>
      simp only [Except.ok.injEq, Prod.mk.injEq] at hok
      obtain ⟨rfl, rfl⟩ := hok
      refine ⟨rfl, rfl, fun ws' hne => ?_, refresh (iso8601 now) (nowPlusIso8601 now d) existing,
        ?_, refresh_heartbeatAt _ _ existing,
        Or.inr ⟨existing, hsome, refresh_holderId _ _ existing, hcond⟩⟩
      · rw [leaseOf_update]
        cases hrow : leaseOf c ws' with
        | none => rfl
        | some r =>
          have hr := workspaceId_of_leaseOf hrow
          simp [hr, hne]
      · rw [leaseOf_update, hsome]
        simp [workspaceId_of_leaseOf hsome]
    · exact absurd hok (by simp)

lemma acquireWriterLease_held (hrow : leaseOf c ws = some row) (hne : row.holderId ≠ h)
    (hfresh : iso8601AgeSeconds row.heartbeatAt stale now = false) :
    acquireWriterLease c ws h d stale now = .error (.writerLeaseHeld row.holderId) := by
  simp [acquireWriterLease, hrow, hne, hfresh]

lemma acquireWriterLease_stale (hrow : leaseOf c ws = some row)
    (hstale : iso8601AgeSeconds row.heartbeatAt stale now = true) :
    ∃ c' g, acquireWriterLease c ws h d stale now = .ok (c', g) := by
  unfold acquireWriterLease
  rw [hrow]
  exact ⟨_, _, if_pos (Or.inr hstale)⟩

lemma count_ownRow_eq_zero :
    c.writerLease.count (ownRow ws h) = 0 ↔ ∀ row, leaseOf c ws = some row → row.holderId ≠ h := by
  rw [Table.count_eq_zero]
  constructor
  · intro hall row hrow hh
    obtain ⟨hmem, hws⟩ := leaseOf_eq_some.mp hrow
    exact absurd (hall row hmem) (by simp [ownRow, hws, hh])
  · intro hall row hmem
    have := hall row
    by_contra hown
    simp only [ownRow, Bool.decide_and, Bool.not_eq_false, Bool.and_eq_true,
      decide_eq_true_eq] at hown
    exact this (leaseOf_eq_some.mpr ⟨hmem, hown.1⟩) hown.2

lemma heartbeatWriterLease_ok (hok : heartbeatWriterLease c ws h now = .ok c') :
    ∃ row, leaseOf c ws = some row ∧ row.holderId = h ∧
      (∀ ws' ≠ ws, leaseOf c' ws' = leaseOf c ws') ∧
      ∃ row', leaseOf c' ws = some row' ∧ row'.holderId = h ∧
        row'.heartbeatAt = iso8601 now := by
  unfold heartbeatWriterLease at hok
  split at hok
  · exact absurd hok (by simp)
  next hcount =>
    rw [count_ownRow_eq_zero] at hcount
    push Not at hcount
    obtain ⟨row, hrow, hh⟩ := hcount
    obtain rfl := Except.ok.inj hok
    refine ⟨row, hrow, hh, fun ws' hne => ?_, beat (iso8601 now)
      (nowPlusIso8601 now defaultLeaseDuration) row, ?_,
      (beat_holderId _ _ row).trans hh, beat_heartbeatAt _ _ row⟩
    · rw [leaseOf_update]
      cases hrow' : leaseOf c ws' with
      | none => rfl
      | some r => simp [ownRow, workspaceId_of_leaseOf hrow', hne]
    · rw [leaseOf_update, hrow, Option.map_some,
        if_pos (by simp [ownRow, workspaceId_of_leaseOf hrow, hh])]

lemma heartbeatWriterLease_of_holder (hrow : leaseOf c ws = some row) :
    ∃ c', heartbeatWriterLease c ws row.holderId now = .ok c' := by
  have hcount : c.writerLease.count (ownRow ws row.holderId) ≠ 0 := by
    rw [Ne, count_ownRow_eq_zero]
    push Not
    exact ⟨row, hrow, rfl⟩
  simp [heartbeatWriterLease, hcount]

lemma heartbeatWriterLease_of_ne (hrow : leaseOf c ws = some row) (hne : row.holderId ≠ h) :
    heartbeatWriterLease c ws h now = .error (.writerLeaseExpired 0) := by
  have hcount : c.writerLease.count (ownRow ws h) = 0 := by
    rw [count_ownRow_eq_zero]
    rintro r hr
    obtain rfl : row = r := Option.some.inj (hrow.symm.trans hr)
    exact hne
  simp [heartbeatWriterLease, hcount]

lemma leaseOf_releaseWriterLease (hok : releaseWriterLease c ws h = .ok c') :
    leaseOf c' ws' = (leaseOf c ws').filter fun r => !ownRow ws h r := by
  obtain rfl := Except.ok.inj hok
  refine Table.find?_delete ?_
  intro x _ y _ hx hy
  simp only [decide_eq_true_eq] at hx hy
  exact hx.trans hy.symm

lemma releaseWriterLease_of_ne (hrow : leaseOf c ws = some row) (hne : row.holderId ≠ h) :
    releaseWriterLease c ws h = .ok c := by
  have hself : c.writerLease.delete (ownRow ws h) = c.writerLease := by
    refine Table.delete_eq_self fun r hr => ?_
    by_contra hown
    simp only [ownRow, Bool.decide_and, Bool.not_eq_false, Bool.and_eq_true,
      decide_eq_true_eq] at hown
    have := leaseOf_eq_some.mpr ⟨hr, hown.1⟩
    obtain rfl : row = r := Option.some.inj (hrow.symm.trans this)
    exact hne hown.2
  simp [releaseWriterLease, hself]

end Rows

/-! ## Runs of calls -/

/-- A call by some holder, made at an instant `now`. -/
inductive Call where
  | acquire (workspaceId holderId : String) (duration heartbeatStale now : ℕ)
  | heartbeat (workspaceId holderId : String) (now : ℕ)
  | release (workspaceId holderId : String)
  deriving DecidableEq

/-- A lease as the replies granted it: to whom, and when it was last stamped. -/
structure Grant where
  holderId : String
  lastHeartbeat : Timestamp
  deriving DecidableEq

/-- The catalogue, and for every workspace the grant that the replies of the calls made so
far leave in force. -/
structure LeaseState where
  catalogue : Catalogue
  grant : String → Option Grant

/-- The state before the first call. -/
def LeaseState.start (c : Catalogue) : LeaseState := ⟨c, fun _ => none⟩

/-- One call, and what its reply says about who holds the lease. -/
def step (s : LeaseState) : Call → LeaseState
  | .acquire ws h duration stale now =>
    match acquireWriterLease s.catalogue ws h duration stale now with
    | .ok (c, g) =>
      ⟨c, Function.update s.grant g.workspaceId (some ⟨g.holderId, iso8601 now⟩)⟩
    | .error _ => s
  | .heartbeat ws h now =>
    match heartbeatWriterLease s.catalogue ws h now with
    | .ok c =>
      ⟨c, Function.update s.grant ws <| (s.grant ws).map fun g =>
        if g.holderId = h then ⟨h, iso8601 now⟩ else g⟩
    | .error _ => s
  | .release ws h =>
    match releaseWriterLease s.catalogue ws h with
    | .ok c =>
      ⟨c, Function.update s.grant ws <| (s.grant ws).filter fun g => g.holderId ≠ h⟩
    | .error _ => s

/-- What a grant promises its holder. -/
structure Honoured (c : Catalogue) (ws : String) (g : Grant) : Prop where
  /-- The lease row names the holder and carries its last stamp. -/
  named : ∃ row, leaseOf c ws = some row ∧ row.holderId = g.holderId ∧
    row.heartbeatAt = g.lastHeartbeat
  /-- The holder's heartbeat succeeds. -/
  heartbeats : ∀ now, ∃ c', heartbeatWriterLease c ws g.holderId now = .ok c'
  /-- The holder's release frees the lease. -/
  frees : ∀ c', releaseWriterLease c ws g.holderId = .ok c' → leaseOf c' ws = none
  /-- Every other holder is refused, unless it observes the last stamp to be stale. -/
  excludes : ∀ h ≠ g.holderId, ∀ duration stale now,
    iso8601AgeSeconds g.lastHeartbeat stale now = false →
    acquireWriterLease c ws h duration stale now = .error (.writerLeaseHeld g.holderId)
  /-- Nobody else, a superseded holder included, can heartbeat the lease. -/
  refusesHeartbeat : ∀ h ≠ g.holderId, ∀ now,
    heartbeatWriterLease c ws h now = .error (.writerLeaseExpired 0)
  /-- Nobody else, a superseded holder included, can release the lease. -/
  ignoresRelease : ∀ h ≠ g.holderId, releaseWriterLease c ws h = .ok c

/-- Mutual exclusion: every grant in force is honoured. -/
def LeaseExclusive (s : LeaseState) : Prop :=
  ∀ ws g, s.grant ws = some g → Honoured s.catalogue ws g

/-- The call takes over a lease whose row names another holder and is stale. -/
def Takeover (s : LeaseState) : Call → Prop
  | .acquire ws h _ stale now => ∃ row, leaseOf s.catalogue ws = some row ∧
      row.holderId ≠ h ∧ iso8601AgeSeconds row.heartbeatAt stale now = true
  | .heartbeat _ _ _ => False
  | .release _ _ => False

/-- The lease row of the workspace is the one of the grant. -/
def Named (c : Catalogue) (ws : String) (g : Grant) : Prop :=
  ∃ row, leaseOf c ws = some row ∧ row.holderId = g.holderId ∧
    row.heartbeatAt = g.lastHeartbeat

/-- The row decides every later call, so a grant is honoured when the row is its own. -/
lemma honoured_iff {c : Catalogue} {ws : String} {g : Grant} :
    Honoured c ws g ↔ Named c ws g := by
  constructor
  · exact Honoured.named
  · rintro ⟨row, hrow, hh, hstamp⟩
    have hne : ∀ h, h ≠ g.holderId → row.holderId ≠ h := fun h hne he => hne (he ▸ hh)
    refine ⟨⟨row, hrow, hh, hstamp⟩, ?_, ?_, ?_, ?_, ?_⟩
    · exact fun now => hh ▸ heartbeatWriterLease_of_holder hrow
    · intro c' hok
      rw [leaseOf_releaseWriterLease hok, hrow]
      simp [ownRow, workspaceId_of_leaseOf hrow, hh]
    · intro h hne' d stale now hfresh
      rw [acquireWriterLease_held hrow (hne h hne') (by rw [hstamp, hfresh]), hh]
    · exact fun h hne' now => heartbeatWriterLease_of_ne hrow (hne h hne')
    · exact fun h hne' => releaseWriterLease_of_ne hrow (hne h hne')

section Steps

variable {s : LeaseState} {ws h : String} {d stale now : ℕ}

lemma Named.congr {c c' : Catalogue} {g : Grant} (heq : leaseOf c' ws = leaseOf c ws) :
    Named c' ws g ↔ Named c ws g := by
  simp only [Named, heq]

lemma leaseExclusive_iff : LeaseExclusive s ↔ ∀ ws g, s.grant ws = some g →
    Named s.catalogue ws g := by
  simp only [LeaseExclusive, honoured_iff]

/-- After a change of one workspace's row and grant, only that workspace can break the
exclusion. -/
lemma leaseExclusive_update {c : Catalogue} {og : Option Grant} (hs : LeaseExclusive s)
    (hother : ∀ ws' ≠ ws, leaseOf c ws' = leaseOf s.catalogue ws') :
    LeaseExclusive ⟨c, Function.update s.grant ws og⟩ ↔ ∀ g, og = some g → Named c ws g := by
  rw [leaseExclusive_iff]
  constructor
  · intro hall g hg
    exact hall ws g (by simp [hg])
  · intro hws ws' g hg
    by_cases hne : ws' = ws
    · subst hne
      exact hws g (by simpa using hg)
    · rw [Named.congr (hother ws' hne)]
      exact leaseExclusive_iff.mp hs ws' g (by simpa [hne] using hg)

lemma step_acquire (hs : LeaseExclusive s) :
    LeaseExclusive (step s (.acquire ws h d stale now)) ↔
      ¬ Takeover s (.acquire ws h d stale now) := by
  simp only [step]
  cases hacq : acquireWriterLease s.catalogue ws h d stale now with
  | error e =>
    refine iff_of_true hs ?_
    rintro ⟨row, hrow, -, hstale⟩
    obtain ⟨c', g, hok⟩ := acquireWriterLease_stale (h := h) (d := d) hrow hstale
    exact absurd (hacq.symm.trans hok) (by simp)
  | ok r =>
    obtain ⟨c', g⟩ := r
    obtain ⟨rfl, rfl, hother, row', hrow', hstamp, hcase⟩ := acquireWriterLease_ok hacq
    simp only
    rw [leaseExclusive_update hs hother]
    constructor
    · rintro hnamed ⟨row, hrow, hne, -⟩
      obtain ⟨row₁, hrow₁, hh, -⟩ := hnamed _ rfl
      obtain rfl : row' = row₁ := Option.some.inj (hrow'.symm.trans hrow₁)
      rcases hcase with ⟨hnone, -⟩ | ⟨row₂, hrow₂, hsame, -⟩
      · exact absurd (hnone.symm.trans hrow) (by simp)
      · obtain rfl : row = row₂ := Option.some.inj (hrow.symm.trans hrow₂)
        exact hne (hsame.symm.trans hh)
    · rintro hno g' hg'
      obtain rfl := Option.some.inj hg'
      refine ⟨row', hrow', ?_, hstamp⟩
      rcases hcase with ⟨-, hh⟩ | ⟨row, hrow, hsame, hcond⟩
      · exact hh
      · by_contra hne
        rw [hsame] at hne
        exact hno ⟨row, hrow, hne, hcond.resolve_left hne⟩

lemma step_heartbeat (hs : LeaseExclusive s) :
    LeaseExclusive (step s (.heartbeat ws h now)) := by
  simp only [step]
  cases hbeat : heartbeatWriterLease s.catalogue ws h now with
  | error e => exact hs
  | ok c' =>
    obtain ⟨row, hrow, hh, hother, row', hrow', hh', hstamp⟩ := heartbeatWriterLease_ok hbeat
    refine (leaseExclusive_update hs hother).mpr fun g hg => ?_
    -- the row named the caller, so the grant in force, if any, is the caller's
    obtain ⟨g₀, hg₀, rfl⟩ := Option.map_eq_some_iff.mp hg
    obtain ⟨row₀, hrow₀, hnamed, -⟩ := leaseExclusive_iff.mp hs ws g₀ hg₀
    obtain rfl : row = row₀ := Option.some.inj (hrow.symm.trans hrow₀)
    rw [if_pos (hnamed.symm.trans hh)]
    exact ⟨row', hrow', hh', hstamp⟩

lemma step_release (hs : LeaseExclusive s) : LeaseExclusive (step s (.release ws h)) := by
  simp only [step]
  cases hrel : releaseWriterLease s.catalogue ws h with
  | error e => exact hs
  | ok c' =>
    simp only
    rw [leaseExclusive_update hs]
    · intro g hg
      obtain ⟨hg, hne⟩ := Option.filter_eq_some_iff.mp hg
      obtain ⟨row, hrow, hnamed, hstamp⟩ := leaseExclusive_iff.mp hs ws g hg
      refine ⟨row, ?_, hnamed, hstamp⟩
      rw [leaseOf_releaseWriterLease hrel, hrow]
      have hkeep : ownRow ws h row = false := by
        simpa [ownRow, hnamed] using fun _ => hne
      simp [hkeep]
    · intro ws' hne
      rw [leaseOf_releaseWriterLease hrel]
      cases hrow : leaseOf s.catalogue ws' with
      | none => rfl
      | some r => simp [ownRow, workspaceId_of_leaseOf hrow, hne]

/-- A call keeps the exclusion exactly when it is not a takeover. -/
lemma step_leaseExclusive_iff (hs : LeaseExclusive s) (call : Call) :
    LeaseExclusive (step s call) ↔ ¬ Takeover s call := by
  cases call with
  | acquire ws h d stale now => exact step_acquire hs
  | heartbeat ws h now => exact iff_of_true (step_heartbeat hs) id
  | release ws h => exact iff_of_true (step_release hs) id

end Steps

/-- **Mutual exclusion of the writer lease.**  For every catalogue, every set of holders and
every interleaving of their calls, the lease is exclusive in every state exactly when no
call takes over a stale lease whose row names another holder. -/
theorem leaseExclusive_iff_no_takeover (c : Catalogue) (calls : List Call) :
    AllStates step LeaseExclusive (LeaseState.start c) calls ↔
      AllSteps step (fun s call => ¬ Takeover s call) (LeaseState.start c) calls :=
  allStates_iff_allSteps (I := fun _ => True) trivial
    (fun ws g hg => absurd hg (by simp [LeaseState.start]))
    (fun _ _ _ _ _ => trivial)
    (fun _ call _ hs => step_leaseExclusive_iff hs call)

/-- `B` takes over the lease of `A` when its stamp is two minutes old. -/
def takeoverCalls : List Call :=
  [.acquire "ws" "A" 1 60000000000 0, .acquire "ws" "B" 1 60000000000 120000000000]

/-- After the takeover the row still names `A`: `B`'s own heartbeat is refused, and `A` is
let in again. -/
theorem takeover_keeps_old_holder :
    ¬ AllStates step LeaseExclusive (LeaseState.start (Catalogue.registered ["ws"]))
        takeoverCalls ∧
      ∃ c, (run step (LeaseState.start (Catalogue.registered ["ws"])) takeoverCalls).catalogue
          = c ∧
        heartbeatWriterLease c "ws" "B" 120000000001 = .error (.writerLeaseExpired 0) ∧
        ∃ r, acquireWriterLease c "ws" "A" 1 60000000000 120000000002 = .ok r := by
  have hbeat : heartbeatWriterLease (run step (LeaseState.start
      (Catalogue.registered ["ws"])) takeoverCalls).catalogue "ws" "B" 120000000001 =
      .error (.writerLeaseExpired 0) := by decide
  refine ⟨fun hall => ?_, _, rfl, hbeat, _, rfl⟩
  -- the last state of the run has granted the lease to `B`
  obtain ⟨c', hok⟩ := (hall.2.2 "ws" ⟨"B", 120000⟩ (by decide)).heartbeats 120000000001
  exact absurd (hbeat.symm.trans hok) (by simp)

end Lease

end WorkspaceAtlas
