/-
# The wire-format reader of the SCIP decoder

`Reader` of `scip_decoder.rs`.  Where the source would panic, a slice out of range or an
arithmetic overflow, the model stops with a `Fault`; a loop that would not end does so as well.
Each read is described by the bytes it takes from the front of what is left.
-/
import WorkspaceAtlas.Protobuf.Wire
import WorkspaceAtlas.Transition.Loop

namespace WorkspaceAtlas.ScipDecoder

open Protobuf Transition

/-- `DecodeLimits`. -/
structure DecodeLimits where
  maxDocuments : ℕ
  maxOccurrencesPerDocument : ℕ
  maxSymbolsPerDocument : ℕ
  maxExternalSymbols : ℕ
  maxRelationshipsPerSymbol : ℕ
  maxDocumentationEntriesPerSymbol : ℕ
  maxStringBytes : ℕ
  maxMessageBytes : ℕ
  deriving DecidableEq, Repr

/-- `DecodeLimits::default`. -/
def DecodeLimits.default : DecodeLimits where
  maxDocuments := 200000
  maxOccurrencesPerDocument := 2000000
  maxSymbolsPerDocument := 500000
  maxExternalSymbols := 2000000
  maxRelationshipsPerSymbol := 10000
  maxDocumentationEntriesPerSymbol := 1000
  maxStringBytes := 4 * 1024 * 1024
  maxMessageBytes := 512 * 1024 * 1024

/-- `ScipDecodeError`. -/
inductive ScipDecodeError where
  | truncated (pos : ℕ)
  | invalidVarint (pos : ℕ)
  | invalidWireType (wireType : ℕ) (pos : ℕ)
  | invalidUtf8 (field : String)
  | limitExceeded (limit : String) (value max : ℕ)
  deriving DecidableEq, Repr

/-- What the source would not return from. -/
inductive Fault where
  | shiftOverflow
  | arithmeticOverflow
  | sliceOutOfRange
  | endlessLoop
  deriving DecidableEq, Repr

/-- Why a decoder stops early. -/
inductive Stop where
  | error (e : ScipDecodeError)
  | fault (f : Fault)
  deriving DecidableEq, Repr

/-- `DResult`. -/
abbrev DResult := Except Stop

/-- `Reader`. -/
structure Reader where
  buf : Bytes
  pos : ℕ
  deriving DecidableEq, Repr

/-- A function that moves a reader. -/
abbrev Decode := StateT Reader DResult

/-- An addition of two `usize`. -/
def usizeAdd (m n : ℕ) : DResult ℕ :=
  if m + n < 2 ^ 64 then pure (m + n) else throw (.fault .arithmeticOverflow)

/-- `u64::from(byte & 0x7F) << shift`. -/
def shiftLeft (byte : UInt8) (shift : ℕ) : DResult ℕ :=
  if shift < 64 then pure ((byte.toNat % 128) <<< shift % 2 ^ 64)
  else throw (.fault .shiftOverflow)

/-- `&buf[start..end]`. -/
def slice (buf : Bytes) (start stop : ℕ) : DResult Bytes :=
  if start ≤ stop ∧ stop ≤ buf.length then pure ((buf.drop start).take (stop - start))
  else throw (.fault .sliceOutOfRange)

/-! ## The reads -/

/-- `read_byte`. -/
def readByte : Decode UInt8 := fun r =>
  match r.buf[r.pos]? with
  | none => throw (.error (.truncated r.pos))
  | some b => do
    let pos ← usizeAdd r.pos 1
    pure (b, { r with pos := pos })

/-- The loop of `read_varint`, which ends in the eleventh round at the latest. -/
def readVarintLoop : ℕ → ℕ → ℕ → Decode ℕ
  | 0, _, _ => throw (.fault .endlessLoop)
  | n + 1, result, shift => fun r =>
    if 70 ≤ shift then throw (.error (.invalidVarint r.pos))
    else do
      let (byte, r) ← readByte r
      let bits ← shiftLeft byte shift
      if byte.toNat < 128 then pure (result ||| bits, r)
      else readVarintLoop n (result ||| bits) (shift + 7) r

/-- `read_varint`. -/
def readVarint : Decode ℕ := readVarintLoop 11 0 0

/-- `read_tag`.  The number of the field is cut to 32 bits. -/
def readTag : Decode (Option (ℕ × ℕ)) := fun r =>
  if r.pos < r.buf.length then do
    let (tag, r) ← readVarint r
    pure (some (tag / 8 % 2 ^ 32, tag % 8), r)
  else pure (none, r)

/-- `read_length_delimited`. -/
def readLengthDelimited (maxStringBytes : ℕ) : Decode Bytes := fun r => do
  let (len, r) ← readVarint r
  if maxStringBytes < len then
    throw (.error (.limitExceeded "length_delimited_field_bytes" len maxStringBytes))
  else if 2 ^ 64 ≤ r.pos + len then throw (.error (.truncated r.pos))
  else if r.buf.length < r.pos + len then throw (.error (.truncated r.pos))
  else do
    let payload ← slice r.buf r.pos (r.pos + len)
    pure (payload, { r with pos := r.pos + len })

/-- `read_fixed32` and `read_fixed64`, whose numbers nothing uses. -/
def readFixed (size : ℕ) : Decode Bytes := fun r => do
  let stop ← usizeAdd r.pos size
  if r.buf.length < stop then throw (.error (.truncated r.pos))
  else do
    let bytes ← slice r.buf r.pos stop
    pure (bytes, { r with pos := stop })

/-- `skip_field`. -/
def skipField (wireType maxStringBytes : ℕ) : Decode Unit := fun r =>
  match wireType with
  | 0 => do
    let (_, r) ← readVarint r
    pure ((), r)
  | 1 => do
    let (_, r) ← readFixed 8 r
    pure ((), r)
  | 2 => do
    let (_, r) ← readLengthDelimited maxStringBytes r
    pure ((), r)
  | 5 => do
    let (_, r) ← readFixed 4 r
    pure ((), r)
  | other => throw (.error (.invalidWireType other r.pos))

/-! ## What a read takes -/

/-- The reader lies in its buffer, which is no longer than memory allows. -/
structure Reader.Valid (r : Reader) : Prop where
  pos_le : r.pos ≤ r.buf.length
  length_lt : r.buf.length < 2 ^ 63

/-- What is left to read. -/
def Reader.rest (r : Reader) : Bytes := r.buf.drop r.pos

/-- The reader after some bytes. -/
def Reader.advance (r : Reader) (n : ℕ) : Reader := { r with pos := r.pos + n }

@[simp] lemma Reader.buf_advance (r : Reader) (n : ℕ) : (r.advance n).buf = r.buf := rfl

@[simp] lemma Reader.pos_advance (r : Reader) (n : ℕ) : (r.advance n).pos = r.pos + n := rfl

/-- From one reader to the next, over the given bytes. -/
structure Reader.Takes (r : Reader) (bs : Bytes) (r' : Reader) : Prop where
  rest_eq : r.rest = bs ++ r'.rest
  eq_advance : r' = r.advance bs.length

namespace Reader

variable {r r' r'' : Reader} {bs bs' : Bytes}

lemma length_rest (r : Reader) : r.rest.length = r.buf.length - r.pos := by
  rw [rest, List.length_drop]

lemma takes_of_rest {tail : Bytes} (h : r.rest = bs ++ tail) :
    r.Takes bs (r.advance bs.length) where
  rest_eq := by
    have hdrop : (r.advance bs.length).rest = r.rest.drop bs.length := by
      simp [rest, List.drop_drop]
    rw [hdrop, h, List.drop_left]
  eq_advance := rfl

lemma Takes.refl (r : Reader) : r.Takes [] r := ⟨rfl, rfl⟩

lemma Takes.trans (h : r.Takes bs r') (h' : r'.Takes bs' r'') : r.Takes (bs ++ bs') r'' where
  rest_eq := by rw [h.rest_eq, h'.rest_eq, List.append_assoc]
  eq_advance := by
    rw [h'.eq_advance, h.eq_advance, advance, advance, advance, List.length_append, Nat.add_assoc]

/-- What is taken after a first part. -/
lemma Takes.cancel (h : r.Takes bs r') (h' : r.Takes (bs ++ bs') r'') : r'.Takes bs' r'' where
  rest_eq := by
    have heq := h.rest_eq.symm.trans h'.rest_eq
    rw [List.append_assoc] at heq
    exact List.append_cancel_left heq
  eq_advance := by
    rw [h'.eq_advance, h.eq_advance, advance, advance, advance, List.length_append, Nat.add_assoc]

lemma Takes.valid (h : r.Takes bs r') (hr : r.Valid) : r'.Valid := by
  have hlen := congrArg List.length h.rest_eq
  rw [List.length_append, length_rest] at hlen
  obtain rfl := h.eq_advance
  refine ⟨?_, hr.length_lt⟩
  have := hr.pos_le
  rw [buf_advance, pos_advance]
  omega

lemma Takes.pos_eq (h : r.Takes bs r') : r'.pos = r.pos + bs.length := by
  rw [h.eq_advance, pos_advance]

lemma Takes.buf_eq (h : r.Takes bs r') : r'.buf = r.buf := by
  rw [h.eq_advance, buf_advance]

lemma rest_eq_nil_iff (r : Reader) : r.rest = [] ↔ ¬ r.pos < r.buf.length := by
  rw [rest, List.drop_eq_nil_iff]
  omega

lemma getElem?_pos_eq (r : Reader) : r.buf[r.pos]? = r.rest.head? := by
  rw [rest, List.head?_drop]

lemma Takes.slice_eq {stop : ℕ} (h : r.Takes bs r') (hr : r.Valid)
    (hstop : stop = r.pos + bs.length) : slice r.buf r.pos stop = .ok bs := by
  have hlen := congrArg List.length h.rest_eq
  have hpos := hr.pos_le
  have htake : r.rest.take bs.length = bs := by rw [h.rest_eq, List.take_left]
  rw [List.length_append, length_rest] at hlen
  rw [rest] at htake
  rw [slice, if_pos (by omega), hstop, Nat.add_sub_cancel_left, htake]
  rfl

/-- As many bytes as are left can be taken. -/
lemma exists_takes {n : ℕ} (h : n ≤ r.rest.length) :
    ∃ bs, bs.length = n ∧ r.Takes bs (r.advance n) := by
  have hlen : (r.rest.take n).length = n := by rw [List.length_take]; omega
  refine ⟨r.rest.take n, hlen, ?_⟩
  have := takes_of_rest (List.take_append_drop n r.rest).symm
  rwa [hlen] at this

end Reader

/-- The decoder succeeds on the byte strings that the relation names, takes them, and returns
what the relation names with them. -/
def Reads {α : Type} (p : Decode α) (R : Bytes → α → Prop) : Prop :=
  ∀ ⦃r r' : Reader⦄ ⦃a : α⦄, r.Valid → (p r = .ok (a, r') ↔ ∃ bs, R bs a ∧ r.Takes bs r')

/-- The result is no fault. -/
def NoFault {α : Type} (x : DResult α) : Prop := ∀ f, x ≠ .error (.fault f)

section NoFault

variable {α β : Type}

@[simp] lemma noFault_pure (a : α) : NoFault (pure a : DResult α) := by
  intro f h
  exact absurd h (by simp [pure, Except.pure])

@[simp] lemma noFault_error (e : ScipDecodeError) :
    NoFault (throw (.error e) : DResult α) := by
  intro f h
  exact absurd h (by simp [throw, throwThe, MonadExceptOf.throw])

lemma NoFault.bind {x : DResult α} {k : α → DResult β} (hx : NoFault x)
    (hk : ∀ a, x = .ok a → NoFault (k a)) : NoFault (x >>= k) := by
  intro f h
  cases hxa : x with
  | error e =>
    rw [hxa] at h
    exact hx f (hxa.trans (congrArg Except.error (Except.error.inj h)))
  | ok a =>
    rw [hxa] at h
    exact hk a hxa f h

end NoFault

/-! ## Varints -/

section Varint

variable {r r' : Reader} {bs : Bytes} {result shift : ℕ}

/-- Bits above those that are there are added. -/
lemma or_shiftLeft {bits : ℕ} (hshift : shift < 64) (hresult : result < 2 ^ shift) :
    result ||| bits <<< shift % 2 ^ 64 = (result + 2 ^ shift * bits) % 2 ^ 64 := by
  obtain ⟨k, hk⟩ : ∃ k, 2 ^ 64 = 2 ^ shift * 2 ^ k := by
    refine ⟨64 - shift, ?_⟩
    rw [← Nat.pow_add]
    congr 1
    omega
  have hsplit : bits = 2 ^ k * (bits / 2 ^ k) + bits % 2 ^ k := (Nat.div_add_mod _ _).symm
  have hlt : bits % 2 ^ k < 2 ^ k := Nat.mod_lt _ (Nat.two_pow_pos k)
  have hsum : result + 2 ^ shift * (bits % 2 ^ k) < 2 ^ shift * 2 ^ k := by
    calc result + 2 ^ shift * (bits % 2 ^ k)
        < 2 ^ shift + 2 ^ shift * (bits % 2 ^ k) := by omega
      _ = 2 ^ shift * (bits % 2 ^ k + 1) := by rw [Nat.mul_add, Nat.mul_one, Nat.add_comm]
      _ ≤ 2 ^ shift * 2 ^ k := Nat.mul_le_mul_left _ hlt
  have hmul : result + 2 ^ shift * bits =
      result + 2 ^ shift * (bits % 2 ^ k) + 2 ^ shift * 2 ^ k * (bits / 2 ^ k) := by
    conv_lhs => rw [hsplit]
    rw [Nat.mul_add, Nat.mul_assoc]
    omega
  rw [hk, hmul, Nat.add_mul_mod_self_left, Nat.mod_eq_of_lt hsum, Nat.shiftLeft_eq,
    Nat.mul_comm bits, Nat.mul_mod_mul_left, Nat.or_comm,
    ← Nat.two_pow_add_eq_or_of_lt hresult, Nat.add_comm]

lemma readByte_of_takes {b : UInt8} (hr : r.Valid) (h : r.Takes [b] r') :
    readByte r = .ok (b, r') := by
  have hhead : r.buf[r.pos]? = some b := by
    rw [r.getElem?_pos_eq, h.rest_eq, List.singleton_append, List.head?_cons]
  have := hr.pos_le
  have := hr.length_lt
  rw [readByte, hhead]
  dsimp only
  rw [usizeAdd, if_pos (by omega), h.eq_advance]
  rfl

lemma readByte_of_nil (h : r.rest = []) : readByte r = .error (.error (.truncated r.pos)) := by
  have hhead : r.buf[r.pos]? = none := by rw [r.getElem?_pos_eq, h, List.head?_nil]
  rw [readByte, hhead]
  rfl

/-- One round of the loop. -/
lemma readVarintLoop_step {b : UInt8} {n : ℕ} (hr : r.Valid) (h : r.Takes [b] r')
    (hshift : shift < 64) (hresult : result < 2 ^ shift) :
    readVarintLoop (n + 1) result shift r =
      if b.toNat < 128 then .ok ((result + 2 ^ shift * (b.toNat % 128)) % 2 ^ 64, r')
      else readVarintLoop n ((result + 2 ^ shift * (b.toNat % 128)) % 2 ^ 64) (shift + 7) r' := by
  rw [readVarintLoop]
  dsimp only
  rw [if_neg (by omega), readByte_of_takes hr h, ← or_shiftLeft hshift hresult]
  simp only [shiftLeft, if_pos hshift]
  rfl

/-- The bits that a round adds stay below those of the next. -/
lemma round_lt {bits : ℕ} (hbits : bits < 128) (hresult : result < 2 ^ shift) :
    (result + 2 ^ shift * bits) % 2 ^ 64 < 2 ^ (shift + 7) := by
  calc (result + 2 ^ shift * bits) % 2 ^ 64
      ≤ result + 2 ^ shift * bits := Nat.mod_le _ _
    _ < 2 ^ shift + 2 ^ shift * bits := by omega
    _ = 2 ^ shift * (bits + 1) := by rw [Nat.mul_add, Nat.mul_one, Nat.add_comm]
    _ ≤ 2 ^ shift * 2 ^ 7 := Nat.mul_le_mul_left _ (by omega)
    _ = 2 ^ (shift + 7) := (Nat.pow_add _ _ _).symm

lemma readVarintLoop_of_takes {n : ℕ} (hbs : Continued bs) (hr : r.Valid) (h : r.Takes bs r')
    (hn : shift + 7 * n = 77) (hlen : bs.length < n) (hresult : result < 2 ^ shift) :
    readVarintLoop n result shift r =
      .ok ((result + 2 ^ shift * varintValue bs) % 2 ^ 64, r') := by
  induction hbs generalizing r n result shift with
  | @last b hb =>
    obtain ⟨n, rfl⟩ : ∃ m, n = m + 1 := ⟨n - 1, by omega⟩
    simp only [List.length_singleton] at hlen
    rw [readVarintLoop_step hr h (by omega) hresult, if_pos hb, varintValue, varintValue,
      Nat.mul_zero, Nat.add_zero]
  | @more b bs hb _ ih =>
    obtain ⟨n, rfl⟩ : ∃ m, n = m + 1 := ⟨n - 1, by omega⟩
    rw [List.length_cons] at hlen
    have hfirst : r.Takes [b] (r.advance 1) := Reader.takes_of_rest h.rest_eq
    have hrest : (r.advance 1).Takes bs r' := hfirst.cancel h
    have hbits : b.toNat % 128 < 128 := Nat.mod_lt _ (by omega)
    rw [readVarintLoop_step hr hfirst (by omega) hresult, if_neg (by omega),
      ih (hfirst.valid hr) hrest (by omega) (by omega) (round_lt hbits hresult), varintValue,
      Nat.mod_add_mod, Nat.pow_add]
    congr 3
    rw [Nat.mul_add, ← Nat.add_assoc, ← Nat.mul_assoc]

/-- The loop ends with a varint taken or with an error. -/
lemma readVarintLoop_outcome {n : ℕ} (hr : r.Valid) (hn : shift + 7 * n = 77) (hpos : 0 < n)
    (hresult : result < 2 ^ shift) :
    (∃ bs, Continued bs ∧ bs.length < n ∧ r.Takes bs (r.advance bs.length)) ∨
      ∃ e, readVarintLoop n result shift r = .error (.error e) := by
  induction n generalizing r result shift with
  | zero => omega
  | succ n ih =>
    by_cases hshift : 70 ≤ shift
    · right
      rw [readVarintLoop]
      exact ⟨_, if_pos hshift⟩
    · cases hrest : r.rest with
      | nil =>
        right
        refine ⟨.truncated r.pos, ?_⟩
        rw [readVarintLoop]
        dsimp only
        rw [if_neg hshift, readByte_of_nil hrest]
        rfl
      | cons b tail =>
        have hfirst : r.Takes [b] (r.advance 1) := Reader.takes_of_rest hrest
        have hbits : b.toNat % 128 < 128 := Nat.mod_lt _ (by omega)
        by_cases hb : b.toNat < 128
        · exact .inl ⟨[b], .last hb, by simp; omega, hfirst⟩
        · rw [readVarintLoop_step hr hfirst (by omega) hresult, if_neg hb]
          obtain ⟨bs, hbs, hlen, htakes⟩ | ⟨e, he⟩ :=
            ih (hfirst.valid hr) (by omega) (by omega) (round_lt hbits hresult)
          · refine .inl ⟨b :: bs, .more (by omega) hbs, by simp; omega, ?_⟩
            exact Reader.takes_of_rest (hfirst.trans htakes).rest_eq
          · exact .inr ⟨e, he⟩

lemma readVarint_of_takes (hbs : IsVarint bs) (hr : r.Valid) (h : r.Takes bs r') :
    readVarint r = .ok (varintValue bs % 2 ^ 64, r') := by
  have hlen := hbs.length_le
  have : readVarintLoop 11 0 0 r = _ := readVarintLoop_of_takes hbs.continued hr h rfl
    (by omega) (by omega)
  rwa [Nat.zero_add, Nat.pow_zero, Nat.one_mul] at this

lemma readVarint_outcome (hr : r.Valid) :
    (∃ bs, IsVarint bs ∧ r.Takes bs (r.advance bs.length)) ∨
      ∃ e, readVarint r = .error (.error e) := by
  obtain ⟨bs, hbs, hlen, htakes⟩ | ⟨e, he⟩ : _ ∨ ∃ e, readVarintLoop 11 0 0 r = _ :=
    readVarintLoop_outcome hr rfl (by omega) (by omega)
  · exact .inl ⟨bs, ⟨hbs, by omega⟩, htakes⟩
  · exact .inr ⟨e, he⟩

/-- `read_varint` takes a varint and returns its value. -/
theorem readVarint_reads :
    Reads readVarint fun bs v => IsVarint bs ∧ v = varintValue bs % 2 ^ 64 := by
  intro r r' v hr
  constructor
  · intro h
    obtain ⟨bs, hbs, htakes⟩ | ⟨e, he⟩ := readVarint_outcome hr
    · rw [readVarint_of_takes hbs hr htakes] at h
      obtain ⟨rfl, rfl⟩ := Prod.mk.inj (Except.ok.inj h)
      exact ⟨bs, ⟨hbs, rfl⟩, htakes⟩
    · exact absurd (he.symm.trans h) (by simp)
  · rintro ⟨bs, ⟨hbs, rfl⟩, htakes⟩
    exact readVarint_of_takes hbs hr htakes

lemma readVarint_noFault (hr : r.Valid) : NoFault (readVarint r) := by
  intro f h
  obtain ⟨bs, hbs, htakes⟩ | ⟨e, he⟩ := readVarint_outcome hr
  · exact absurd ((readVarint_of_takes hbs hr htakes).symm.trans h) (by simp)
  · exact absurd (he.symm.trans h) (by simp)

end Varint

/-! ## Payloads, skipped fields and tags -/

section Fields

variable {r r' : Reader}

/-- `read_length_delimited` takes a length within the limit and that many bytes. -/
theorem readLengthDelimited_reads (max : ℕ) :
    Reads (readLengthDelimited max) fun bs payload =>
      payload.length ≤ max ∧ ValueBytes (.len payload) bs := by
  intro r r' payload hr
  constructor
  · intro h
    obtain ⟨⟨len, r₁⟩, hlen, h⟩ := bind_ok.mp h
    obtain ⟨size, ⟨hsize, rfl⟩, htakes⟩ := (readVarint_reads hr).mp hlen
    dsimp only at h
    split at h
    · exact absurd h (by simp [throw, throwThe, MonadExceptOf.throw])
    · split at h
      · exact absurd h (by simp [throw, throwThe, MonadExceptOf.throw])
      · split at h
        · exact absurd h (by simp [throw, throwThe, MonadExceptOf.throw])
        · obtain ⟨bytes, hbytes, h⟩ := bind_ok.mp h
          obtain ⟨rfl, rfl⟩ := Prod.mk.inj (Except.ok.inj h)
          have hr₁ := htakes.valid hr
          have hpos := hr₁.pos_le
          obtain ⟨bs, hbs, htakes₁⟩ := Reader.exists_takes (r := r₁)
            (n := varintValue size % 2 ^ 64) (by rw [Reader.length_rest]; omega)
          rw [htakes₁.slice_eq hr₁ (by omega)] at hbytes
          obtain rfl := Except.ok.inj hbytes
          exact ⟨size ++ bs, ⟨by omega, .len hsize hbs.symm⟩, htakes.trans htakes₁⟩
  · rintro ⟨bs, ⟨hmax, hbytes⟩, htakes⟩
    generalize hvalue : WireValue.len payload = value at hbytes
    cases hbytes with
    | @len size bytes hsize hlen =>
      obtain rfl := WireValue.len.inj hvalue
      have hfirst := Reader.takes_of_rest (htakes.rest_eq.trans (List.append_assoc _ _ _))
      have hr₁ := hfirst.valid hr
      have hsecond : (r.advance size.length).Takes payload r' := hfirst.cancel htakes
      have hr' := (hsecond.valid hr₁).pos_le
      have hlt := hr₁.length_lt
      rw [hsecond.buf_eq, hsecond.pos_eq] at hr'
      unfold readLengthDelimited
      rw [readVarint_of_takes hsize hr hfirst, hlen]
      refine (if_neg (by omega)).trans ((if_neg (by omega)).trans ((if_neg (by omega)).trans ?_))
      rw [hsecond.slice_eq hr₁ rfl, hsecond.eq_advance]
      rfl
    | varint _ => exact absurd hvalue (by simp)
    | fixed64 _ => exact absurd hvalue (by simp)
    | fixed32 _ => exact absurd hvalue (by simp)

lemma readLengthDelimited_noFault (max : ℕ) (hr : r.Valid) :
    NoFault (readLengthDelimited max r) := by
  refine (readVarint_noFault hr).bind fun ⟨len, r₁⟩ hlen => ?_
  obtain ⟨size, ⟨_, rfl⟩, htakes⟩ := (readVarint_reads hr).mp hlen
  have hpos := (htakes.valid hr).pos_le
  dsimp only
  split
  · exact noFault_error _
  · split
    · exact noFault_error _
    · split
      · exact noFault_error _
      · rw [slice, if_pos (by omega)]
        exact noFault_pure _

/-- `read_fixed32` and `read_fixed64` take as many bytes as their names say. -/
theorem readFixed_reads {size : ℕ} (hsize : size ≤ 8) :
    Reads (readFixed size) fun bs bytes => bytes = bs ∧ bs.length = size := by
  intro r r' bytes hr
  have hpos := hr.pos_le
  have hlt := hr.length_lt
  rw [readFixed, usizeAdd, if_pos (by omega)]
  change (if r.buf.length < r.pos + size then _ else _) = _ ↔ _
  constructor
  · intro h
    split at h
    · exact absurd h (by simp [throw, throwThe, MonadExceptOf.throw])
    · obtain ⟨bytes', hbytes, h⟩ := bind_ok.mp h
      obtain ⟨rfl, rfl⟩ := Prod.mk.inj (Except.ok.inj h)
      obtain ⟨bs, hbs, htakes⟩ := Reader.exists_takes (r := r) (n := size)
        (by rw [Reader.length_rest]; omega)
      rw [htakes.slice_eq hr (by omega)] at hbytes
      obtain rfl := Except.ok.inj hbytes
      exact ⟨bs, ⟨rfl, hbs⟩, htakes⟩
  · rintro ⟨bs, ⟨rfl, rfl⟩, htakes⟩
    have hr' := (htakes.valid hr).pos_le
    rw [htakes.buf_eq, htakes.pos_eq] at hr'
    rw [if_neg (by omega), htakes.slice_eq hr rfl, htakes.eq_advance]
    rfl

lemma readFixed_noFault {size : ℕ} (hsize : size ≤ 8) (hr : r.Valid) :
    NoFault (readFixed size r) := by
  have hpos := hr.pos_le
  have hlt := hr.length_lt
  rw [readFixed, usizeAdd, if_pos (by omega)]
  change NoFault (if r.buf.length < r.pos + size then _ else _)
  split
  · exact noFault_error _
  · rw [slice, if_pos (by omega)]
    exact noFault_pure _

/-- `skip_field` takes a value of the wire type, of any length within the limit. -/
theorem skipField_reads (wireType max : ℕ) :
    Reads (skipField wireType max) fun bs _ =>
      ∃ v, v.wireType = wireType ∧ v.payloadLength ≤ max ∧ ValueBytes v bs := by
  intro r r' _ hr
  unfold skipField
  split
  · -- a varint
    rw [bind_ok]
    constructor
    · rintro ⟨⟨v, r₁⟩, hread, h⟩
      obtain ⟨bs, ⟨hbs, rfl⟩, htakes⟩ := (readVarint_reads hr).mp hread
      obtain ⟨_, rfl⟩ := Prod.mk.inj (Except.ok.inj h)
      exact ⟨bs, ⟨_, rfl, Nat.zero_le _, .varint hbs⟩, htakes⟩
    · rintro ⟨bs, ⟨v, htype, _, hbytes⟩, htakes⟩
      obtain ⟨hbs⟩ | _ | _ | _ := hbytes
      · exact ⟨_, readVarint_of_takes hbs hr htakes, rfl⟩
      all_goals simp [WireValue.wireType] at htype
  · -- eight bytes
    rw [bind_ok]
    constructor
    · rintro ⟨⟨v, r₁⟩, hread, h⟩
      obtain ⟨bs, ⟨rfl, hbs⟩, htakes⟩ := (readFixed_reads (by omega) hr).mp hread
      obtain ⟨_, rfl⟩ := Prod.mk.inj (Except.ok.inj h)
      exact ⟨v, ⟨_, rfl, Nat.zero_le _, .fixed64 hbs⟩, htakes⟩
    · rintro ⟨bs, ⟨v, htype, _, hbytes⟩, htakes⟩
      obtain _ | hbs | _ | _ := hbytes
      · simp [WireValue.wireType] at htype
      · exact ⟨_, (readFixed_reads (by omega) hr).mpr ⟨bs, ⟨rfl, hbs⟩, htakes⟩, rfl⟩
      all_goals simp [WireValue.wireType] at htype
  · -- a payload
    rw [bind_ok]
    constructor
    · rintro ⟨⟨payload, r₁⟩, hread, h⟩
      obtain ⟨bs, ⟨hmax, hbytes⟩, htakes⟩ := (readLengthDelimited_reads max hr).mp hread
      obtain ⟨_, rfl⟩ := Prod.mk.inj (Except.ok.inj h)
      exact ⟨bs, ⟨.len payload, rfl, hmax, hbytes⟩, htakes⟩
    · rintro ⟨bs, ⟨v, htype, hmax, hbytes⟩, htakes⟩
      cases v with
      | len payload =>
        exact ⟨_, (readLengthDelimited_reads max hr).mpr ⟨bs, ⟨hmax, hbytes⟩, htakes⟩, rfl⟩
      | varint _ => simp [WireValue.wireType] at htype
      | fixed64 _ => simp [WireValue.wireType] at htype
      | fixed32 _ => simp [WireValue.wireType] at htype
  · -- four bytes
    rw [bind_ok]
    constructor
    · rintro ⟨⟨v, r₁⟩, hread, h⟩
      obtain ⟨bs, ⟨rfl, hbs⟩, htakes⟩ := (readFixed_reads (by omega) hr).mp hread
      obtain ⟨_, rfl⟩ := Prod.mk.inj (Except.ok.inj h)
      exact ⟨v, ⟨_, rfl, Nat.zero_le _, .fixed32 hbs⟩, htakes⟩
    · rintro ⟨bs, ⟨v, htype, _, hbytes⟩, htakes⟩
      obtain _ | _ | _ | hbs := hbytes
      · simp [WireValue.wireType] at htype
      · simp [WireValue.wireType] at htype
      · simp [WireValue.wireType] at htype
      · exact ⟨_, (readFixed_reads (by omega) hr).mpr ⟨bs, ⟨rfl, hbs⟩, htakes⟩, rfl⟩
  · -- no value has one of the other wire types
    next h₀ h₁ h₂ h₅ =>
    constructor
    · intro h
      exact absurd h (by simp [throw, throwThe, MonadExceptOf.throw])
    · rintro ⟨bs, ⟨v, rfl, _, _⟩, _⟩
      cases v with
      | varint _ => exact absurd rfl h₀
      | fixed64 _ => exact absurd rfl h₁
      | len _ => exact absurd rfl h₂
      | fixed32 _ => exact absurd rfl h₅

lemma skipField_noFault (wireType max : ℕ) (hr : r.Valid) :
    NoFault (skipField wireType max r) := by
  unfold skipField
  split
  · exact (readVarint_noFault hr).bind fun _ _ => noFault_pure _
  · exact (readFixed_noFault (by omega) hr).bind fun _ _ => noFault_pure _
  · exact (readLengthDelimited_noFault max hr).bind fun _ _ => noFault_pure _
  · exact (readFixed_noFault (by omega) hr).bind fun _ _ => noFault_pure _
  · exact noFault_error _

lemma readTag_of_nil (h : r.rest = []) : readTag r = .ok (none, r) := by
  rw [readTag, if_neg (r.rest_eq_nil_iff.mp h)]
  rfl

/-- `read_tag` takes a varint and splits it, unless nothing is left. -/
theorem readTag_some {number wireType : ℕ} (hr : r.Valid) :
    readTag r = .ok (some (number, wireType), r') ↔
      ∃ bs, IsVarint bs ∧ r.Takes bs r' ∧ number = varintValue bs % 2 ^ 64 / 8 % 2 ^ 32 ∧
        wireType = varintValue bs % 2 ^ 64 % 8 := by
  rw [readTag]
  constructor
  · intro h
    split at h
    · obtain ⟨⟨tag, r₁⟩, htag, h⟩ := bind_ok.mp h
      obtain ⟨bs, ⟨hbs, rfl⟩, htakes⟩ := (readVarint_reads hr).mp htag
      obtain ⟨hpair, rfl⟩ := Prod.mk.inj (Except.ok.inj h)
      obtain ⟨rfl, rfl⟩ := Prod.mk.inj (Option.some.inj hpair)
      exact ⟨bs, hbs, htakes, rfl, rfl⟩
    · obtain ⟨hpair, _⟩ := Prod.mk.inj (Except.ok.inj h)
      exact absurd hpair (by simp)
  · rintro ⟨bs, hbs, htakes, rfl, rfl⟩
    have hrest : r.rest ≠ [] := by
      rw [htakes.rest_eq]
      exact List.append_ne_nil_of_left_ne_nil hbs.continued.ne_nil _
    have hpos : r.pos < r.buf.length := by
      by_contra hpos
      exact hrest (r.rest_eq_nil_iff.mpr hpos)
    rw [if_pos hpos, readVarint_of_takes hbs hr htakes]
    rfl

lemma readTag_noFault (hr : r.Valid) : NoFault (readTag r) := by
  rw [readTag]
  split
  · exact (readVarint_noFault hr).bind fun _ _ => noFault_pure _
  · exact noFault_pure _

end Fields

end WorkspaceAtlas.ScipDecoder
