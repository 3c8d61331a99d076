/-
# The loop of a message decoder

Every message decoder of `scip_decoder.rs` is the same loop over the fields of its message
around a `match` of its own.  The arms of such a `match` are of four kinds.  The loop is
the fold of the arms over the fields that the bytes spell.
-/
import WorkspaceAtlas.Scip.Reader

namespace WorkspaceAtlas.ScipDecoder

open Protobuf Transition

variable {σ : Type}

/-- An arm of the `match` of a message decoder. -/
inductive FieldAction (σ : Type) where
  /-- `r.skip_field(wt, max)?`. -/
  | skip (max : ℕ)
  /-- `r.read_varint()?` and what becomes of the message. -/
  | varint (k : ℕ → σ)
  /-- `r.read_length_delimited(max)?` and what becomes of the message. -/
  | bytes (max : ℕ) (k : Bytes → DResult σ)
  /-- A list that may not grow further. -/
  | full (limit : String) (len max : ℕ)

/-- The arms of a `match`: by the message so far, the field number and the wire type. -/
abbrev Arms (σ : Type) := σ → ℕ → ℕ → FieldAction σ

/-- An arm is executed. -/
def FieldAction.run (s : σ) (wireType : ℕ) : FieldAction σ → Decode σ
  | skip max => fun r => do
    let (_, r) ← skipField wireType max r
    pure (s, r)
  | varint k => fun r => do
    let (v, r) ← readVarint r
    pure (k v, r)
  | bytes max k => fun r => do
    let (sub, r) ← readLengthDelimited max r
    let s ← k sub
    pure (s, r)
  | full limit len max => fun _ => do
    let value ← usizeAdd len 1
    throw (.error (.limitExceeded limit value max))

/-- One round of the loop; `none` at the end of the message. -/
def readField (arms : Arms σ) (s : σ) : Decode (Option σ) := fun r => do
  match ← readTag r with
  | (none, r) => pure (none, r)
  | (some (number, wireType), r) => do
    let (s, r) ← (arms s number wireType).run s wireType r
    pure (some s, r)

/-- `while let Some((field, wire_type)) = r.read_tag()? { match (field, wire_type) { … } }`. -/
def readFields (arms : Arms σ) : ℕ → σ → Decode σ
  | 0, _ => throw (.fault .endlessLoop)
  | n + 1, s => fun r => do
    match ← readField arms s r with
    | (none, r) => pure (s, r)
    | (some s, r) => readFields arms n s r

/-- A decoder from its first message and its arms.  The loop has as many rounds as there are
bytes, and one to see that they are used up. -/
def decodeMessage (arms : Arms σ) (init : σ) (bytes : Bytes) : DResult σ := do
  let (s, _) ← readFields arms (bytes.length + 1) init ⟨bytes, 0⟩
  pure s

/-! ## The fold over the fields -/

/-- The arm reads values of its wire type. -/
def FieldAction.Fits (wireType : ℕ) : FieldAction σ → Prop
  | skip _ => True
  | varint _ => wireType = 0
  | bytes _ _ => wireType = 2
  | full _ _ _ => True

/-- What an arm makes of a value. -/
def FieldAction.apply (s : σ) : FieldAction σ → WireValue → DResult σ
  | skip max, v =>
    if v.payloadLength ≤ max then pure s
    else throw (.error (.limitExceeded "length_delimited_field_bytes" v.payloadLength max))
  | varint k, .varint v => pure (k v)
  | varint _, v => throw (.error (.invalidWireType v.wireType 0))
  | bytes max k, .len payload =>
    if payload.length ≤ max then k payload
    else throw (.error (.limitExceeded "length_delimited_field_bytes" payload.length max))
  | bytes _ _, v => throw (.error (.invalidWireType v.wireType 0))
  | full limit len max, _ => throw (.error (.limitExceeded limit (len + 1) max))

/-- What the arms make of a field. -/
def applyField (arms : Arms σ) (s : σ) (f : Field) : DResult σ :=
  (arms s (f.number % 2 ^ 32) f.value.wireType).apply s f.value

variable {arms : Arms σ} {s s' : σ} {r r' : Reader} {bs : Bytes}

lemma apply_skip_ok {max : ℕ} {v : WireValue} :
    (FieldAction.skip max).apply s v = .ok s' ↔ v.payloadLength ≤ max ∧ s' = s := by
  rw [FieldAction.apply]
  split
  next h => exact ⟨fun hok => ⟨h, (Except.ok.inj hok).symm⟩, fun hok => congrArg _ hok.2.symm⟩
  next h => exact ⟨fun hok => absurd hok (by simp [throw, throwThe, MonadExceptOf.throw]),
    fun hok => absurd hok.1 h⟩

lemma apply_bytes_ok {max : ℕ} {k : Bytes → DResult σ} {v : WireValue} :
    (FieldAction.bytes max k).apply s v = .ok s' ↔
      ∃ payload, v = .len payload ∧ payload.length ≤ max ∧ k payload = .ok s' := by
  cases v with
  | len payload =>
    rw [FieldAction.apply]
    split
    next h => simp [h]
    next h => simp [h, throw, throwThe, MonadExceptOf.throw]
  | varint _ => simp [FieldAction.apply, throw, throwThe, MonadExceptOf.throw]
  | fixed64 _ => simp [FieldAction.apply, throw, throwThe, MonadExceptOf.throw]
  | fixed32 _ => simp [FieldAction.apply, throw, throwThe, MonadExceptOf.throw]

lemma apply_varint_ok {k : ℕ → σ} {v : WireValue} :
    (FieldAction.varint k).apply s v = .ok s' ↔ ∃ n, v = .varint n ∧ s' = k n := by
  cases v with
  | varint n => simp [FieldAction.apply, pure, Except.pure, eq_comm]
  | len _ => simp [FieldAction.apply, throw, throwThe, MonadExceptOf.throw]
  | fixed64 _ => simp [FieldAction.apply, throw, throwThe, MonadExceptOf.throw]
  | fixed32 _ => simp [FieldAction.apply, throw, throwThe, MonadExceptOf.throw]

lemma apply_full_ok {limit : String} {len max : ℕ} {v : WireValue} :
    ¬ (FieldAction.full limit len max).apply s v = .ok s' := by
  simp [FieldAction.apply, throw, throwThe, MonadExceptOf.throw]

/-- An arm takes a value of its wire type and makes of it what `apply` says. -/
theorem run_reads {action : FieldAction σ} {wireType : ℕ} (hfits : action.Fits wireType) :
    Reads (action.run s wireType) fun bs s' =>
      ∃ v, v.wireType = wireType ∧ ValueBytes v bs ∧ action.apply s v = .ok s' := by
  intro r r' s' hr
  cases action with
  | skip max =>
    rw [FieldAction.run, bind_ok]
    constructor
    · rintro ⟨⟨_, r₁⟩, hskip, h⟩
      obtain ⟨rfl, rfl⟩ := Prod.mk.inj (Except.ok.inj h)
      obtain ⟨bs, ⟨v, htype, hmax, hv⟩, htakes⟩ := (skipField_reads wireType max hr).mp hskip
      exact ⟨bs, ⟨v, htype, hv, apply_skip_ok.mpr ⟨hmax, rfl⟩⟩, htakes⟩
    · rintro ⟨bs, ⟨v, htype, hv, happly⟩, htakes⟩
      obtain ⟨hmax, rfl⟩ := apply_skip_ok.mp happly
      exact ⟨((), r'), (skipField_reads wireType max hr).mpr ⟨bs, ⟨v, htype, hmax, hv⟩, htakes⟩,
        rfl⟩
  | varint k =>
    obtain rfl : wireType = 0 := hfits
    rw [FieldAction.run, bind_ok]
    constructor
    · rintro ⟨⟨n, r₁⟩, hread, h⟩
      obtain ⟨rfl, rfl⟩ := Prod.mk.inj (Except.ok.inj h)
      obtain ⟨bs, ⟨hbs, rfl⟩, htakes⟩ := (readVarint_reads hr).mp hread
      exact ⟨bs, ⟨_, rfl, .varint hbs, rfl⟩, htakes⟩
    · rintro ⟨bs, ⟨v, _, hv, happly⟩, htakes⟩
      obtain ⟨n, rfl, rfl⟩ := apply_varint_ok.mp happly
      cases hv with
      | varint hbs => exact ⟨_, readVarint_of_takes hbs hr htakes, rfl⟩
  | bytes max k =>
    obtain rfl : wireType = 2 := hfits
    rw [FieldAction.run, bind_ok]
    constructor
    · rintro ⟨⟨payload, r₁⟩, hread, h⟩
      obtain ⟨t, hk, h⟩ := bind_ok.mp h
      obtain ⟨rfl, rfl⟩ := Prod.mk.inj (Except.ok.inj h)
      obtain ⟨bs, ⟨hmax, hv⟩, htakes⟩ := (readLengthDelimited_reads max hr).mp hread
      exact ⟨bs, ⟨_, rfl, hv, apply_bytes_ok.mpr ⟨payload, rfl, hmax, hk⟩⟩, htakes⟩
    · rintro ⟨bs, ⟨v, _, hv, happly⟩, htakes⟩
      obtain ⟨payload, rfl, hmax, hk⟩ := apply_bytes_ok.mp happly
      refine ⟨(payload, r'), (readLengthDelimited_reads max hr).mpr ⟨bs, ⟨hmax, hv⟩, htakes⟩, ?_⟩
      exact bind_ok.mpr ⟨s', hk, rfl⟩
  | full limit len max =>
    constructor
    · intro h
      obtain ⟨value, _, h⟩ := bind_ok.mp h
      exact absurd h (by simp [throw, throwThe, MonadExceptOf.throw])
    · rintro ⟨bs, ⟨v, _, _, happly⟩, _⟩
      exact absurd happly apply_full_ok

/-- A round that goes on takes one field. -/
theorem readField_some (hfits : ∀ s n wt, (arms s n wt).Fits wt) (hr : r.Valid) :
    readField arms s r = .ok (some s', r') ↔
      ∃ f fb, FieldBytes f fb ∧ r.Takes fb r' ∧ applyField arms s f = .ok s' := by
  rw [readField, bind_ok]
  constructor
  · rintro ⟨⟨tag, r₁⟩, htag, h⟩
    obtain - | ⟨number, wireType⟩ := tag
    · obtain ⟨hnone, _⟩ := Prod.mk.inj (Except.ok.inj h)
      exact absurd hnone (by simp)
    · obtain ⟨⟨t, r₂⟩, hrun, h⟩ := bind_ok.mp h
      obtain ⟨hsome, rfl⟩ := Prod.mk.inj (Except.ok.inj h)
      obtain rfl := Option.some.inj hsome
      obtain ⟨tb, htb, htakes, hnumber, hwire⟩ := (readTag_some hr).mp htag
      obtain ⟨vb, ⟨v, htype, hvb, happly⟩, htakes'⟩ :=
        (run_reads (hfits s number wireType) (htakes.valid hr)).mp hrun
      refine ⟨⟨varintValue tb % 2 ^ 64 / 8, v⟩, tb ++ vb, .mk htb ?_ hvb, htakes.trans htakes', ?_⟩
      · dsimp only
        omega
      · rw [applyField, htype, ← hnumber]
        exact happly
  · rintro ⟨f, _, ⟨htb, hvalue, hvb⟩, htakes, happly⟩
    rename_i tb vb
    have hlt := f.value.wireType_lt
    have hfirst := Reader.takes_of_rest (htakes.rest_eq.trans (List.append_assoc _ _ _))
    have hsecond : (r.advance tb.length).Takes vb r' := hfirst.cancel htakes
    refine ⟨(some (f.number % 2 ^ 32, f.value.wireType), r.advance tb.length),
      (readTag_some hr).mpr ⟨tb, htb, hfirst, by omega, by omega⟩, ?_⟩
    refine bind_ok.mpr ⟨(s', r'), ?_, rfl⟩
    exact (run_reads (hfits _ _ _) (hfirst.valid hr)).mpr ⟨vb, ⟨_, rfl, hvb, happly⟩, hsecond⟩

lemma readField_of_nil (h : r.rest = []) : readField arms s r = .ok (none, r) := by
  rw [readField, readTag_of_nil h]
  rfl

lemma rest_of_readField_none (h : readField arms s r = .ok (none, r')) :
    r.rest = [] := by
  rw [readField] at h
  obtain ⟨⟨tag, r₁⟩, htag, h⟩ := bind_ok.mp h
  obtain - | ⟨number, wireType⟩ := tag
  · rw [r.rest_eq_nil_iff]
    intro hpos
    rw [readTag, if_pos hpos] at htag
    obtain ⟨_, _, htag⟩ := bind_ok.mp htag
    exact absurd (Prod.mk.inj (Except.ok.inj htag)).1 (by simp)
  · obtain ⟨_, _, h⟩ := bind_ok.mp h
    exact absurd (Prod.mk.inj (Except.ok.inj h)).1 (by simp)

/-- The loop ends well exactly if the bytes spell fields and the arms accept them in turn. -/
theorem readFields_ok (hfits : ∀ s n wt, (arms s n wt).Fits wt) {n : ℕ} (hr : r.Valid)
    (hn : r.rest.length < n) :
    (∃ r', readFields arms n s r = .ok (s', r')) ↔
      ∃ fs, Body fs r.rest ∧ fs.foldlM (applyField arms) s = .ok s' := by
  induction n generalizing s r with
  | zero => omega
  | succ n ih =>
    constructor
    · rintro ⟨r', h⟩
      rw [readFields] at h
      obtain ⟨⟨round, r₁⟩, hround, h⟩ := bind_ok.mp h
      obtain - | t := round
      · obtain ⟨rfl, rfl⟩ := Prod.mk.inj (Except.ok.inj h)
        rw [rest_of_readField_none hround]
        exact ⟨[], .nil, rfl⟩
      · obtain ⟨f, fb, hf, htakes, happly⟩ := (readField_some hfits hr).mp hround
        have hpos := List.length_pos_of_ne_nil hf.ne_nil
        have hlen := congrArg List.length htakes.rest_eq
        rw [List.length_append] at hlen
        obtain ⟨fs, hfs, hfold⟩ := (ih (htakes.valid hr) (by omega)).mp ⟨r', h⟩
        refine ⟨f :: fs, ?_, foldlM_cons_ok.mpr ⟨t, happly, hfold⟩⟩
        rw [htakes.rest_eq]
        exact .cons hf hfs
    · rintro ⟨fs, hbody, hfold⟩
      cases fs with
      | nil =>
        obtain rfl := Except.ok.inj hfold
        refine ⟨r, ?_⟩
        rw [readFields]
        exact bind_ok.mpr ⟨(none, r), readField_of_nil hbody.bytes_eq_nil, rfl⟩
      | cons f fs =>
        obtain ⟨t, happly, hfold⟩ := foldlM_cons_ok.mp hfold
        obtain ⟨fb, bs, hf, hfs, hrest⟩ := hbody.uncons
        have htakes := Reader.takes_of_rest hrest
        have hbs : (r.advance fb.length).rest = bs :=
          List.append_cancel_left (htakes.rest_eq.symm.trans hrest)
        have hpos := List.length_pos_of_ne_nil hf.ne_nil
        have hlen := congrArg List.length hrest
        rw [List.length_append] at hlen
        obtain ⟨r', h⟩ := (ih (s := t) (htakes.valid hr) (by rw [hbs]; omega)).mpr
          ⟨fs, by rw [hbs]; exact hfs, hfold⟩
        refine ⟨r', ?_⟩
        rw [readFields]
        exact bind_ok.mpr ⟨(some t, r.advance fb.length),
          (readField_some hfits hr).mpr ⟨f, fb, hf, htakes, happly⟩, h⟩

/-- **What a message decoder computes.** -/
theorem decodeMessage_ok (hfits : ∀ s n wt, (arms s n wt).Fits wt) (hlen : bs.length < 2 ^ 63) :
    decodeMessage arms s bs = .ok s' ↔
      ∃ fs, Body fs bs ∧ fs.foldlM (applyField arms) s = .ok s' := by
  have hr : Reader.Valid ⟨bs, 0⟩ := ⟨Nat.zero_le _, hlen⟩
  have hrest : Reader.rest ⟨bs, 0⟩ = bs := List.drop_zero
  have hloop : (∃ r', readFields arms (bs.length + 1) s ⟨bs, 0⟩ = .ok (s', r')) ↔ _ :=
    readFields_ok hfits hr (by rw [hrest]; omega)
  rw [hrest] at hloop
  rw [← hloop, decodeMessage, bind_ok]
  constructor
  · rintro ⟨⟨t, r'⟩, h, hpure⟩
    obtain rfl := Except.ok.inj hpure
    exact ⟨r', h⟩
  · rintro ⟨r', h⟩
    exact ⟨(s', r'), h, rfl⟩

/-- The fields are determined by the bytes. -/
lemma decodeMessage_of_body (hfits : ∀ s n wt, (arms s n wt).Fits wt) (hlen : bs.length < 2 ^ 63)
    {fs : List Field} (hbody : Body fs bs) :
    decodeMessage arms s bs = .ok s' ↔ fs.foldlM (applyField arms) s = .ok s' := by
  rw [decodeMessage_ok hfits hlen]
  constructor
  · rintro ⟨fs', hbody', hfold⟩
    rwa [hbody.unique hbody']
  · exact fun hfold => ⟨fs, hbody, hfold⟩

end WorkspaceAtlas.ScipDecoder
