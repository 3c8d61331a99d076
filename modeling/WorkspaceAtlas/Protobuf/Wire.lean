/-
# The wire format of protocol buffers

A message is a sequence of fields; a field is a tag, which is a varint made of the number of
the field and of the type of its value, followed by the value.  This file says which byte
strings spell which varints, values, fields and sequences of fields, with no canonical form
asked for, and shows that a byte string spells at most one sequence of fields.
-/
import Mathlib.Algebra.Order.Ring.Nat
import Mathlib.Data.List.Basic
import Mathlib.Data.List.Infix
import Mathlib.Data.Nat.Notation
import Mathlib.Tactic.Common

namespace Protobuf

/-- Bytes in the order in which they are read. -/
abbrev Bytes := List UInt8

/-! ## Varints -/

/-- What the low seven bits of the bytes spell, lowest byte first. -/
def varintValue : Bytes → ℕ
  | [] => 0
  | b :: bs => b.toNat % 128 + 128 * varintValue bs

/-- Every byte but the last announces another one. -/
inductive Continued : Bytes → Prop where
  | last {b : UInt8} (h : b.toNat < 128) : Continued [b]
  | more {b : UInt8} {bs : Bytes} (h : 128 ≤ b.toNat) (rest : Continued bs) : Continued (b :: bs)

/-- A byte string that is one varint.  It need not be the shortest one for its value. -/
structure IsVarint (bs : Bytes) : Prop where
  continued : Continued bs
  length_le : bs.length ≤ 10

/-- The shortest varint for a value, of at most the given number of bytes. -/
def encodeVarintLoop : ℕ → ℕ → Bytes
  | 0, _ => []
  | n + 1, v =>
    if v < 128 then [UInt8.ofNat v]
    else UInt8.ofNat (v % 128 + 128) :: encodeVarintLoop n (v / 128)

/-- The shortest varint for a value. -/
def encodeVarint (v : ℕ) : Bytes := encodeVarintLoop 10 v

lemma Continued.ne_nil {bs : Bytes} (h : Continued bs) : bs ≠ [] := by
  cases h <;> simp

lemma Continued.append_inj {bs bs' rest rest' : Bytes} (h : Continued bs) (h' : Continued bs')
    (heq : bs ++ rest = bs' ++ rest') : bs = bs' ∧ rest = rest' := by
  induction h generalizing bs' with
  | last hb =>
    cases h' with
    | last _ =>
      obtain ⟨rfl, rfl⟩ := List.cons.inj heq
      exact ⟨rfl, rfl⟩
    | more hb' _ =>
      obtain ⟨rfl, _⟩ := List.cons.inj heq
      omega
  | more hb _ ih =>
    cases h' with
    | last hb' =>
      obtain ⟨rfl, _⟩ := List.cons.inj heq
      omega
    | more _ hrest' =>
      obtain ⟨rfl, htail⟩ := List.cons.inj heq
      obtain ⟨rfl, rfl⟩ := ih hrest' htail
      exact ⟨rfl, rfl⟩

lemma continued_encodeVarintLoop : ∀ {n v : ℕ}, 0 < n → v < 128 ^ n →
    Continued (encodeVarintLoop n v) := by
  intro n
  induction n with
  | zero => intro v hn; omega
  | succ n ih =>
    intro v _ hv
    rw [encodeVarintLoop]
    by_cases hlt : v < 128
    · rw [if_pos hlt]
      exact .last (by rw [UInt8.toNat_ofNat']; omega)
    · rw [if_neg hlt]
      refine .more (by rw [UInt8.toNat_ofNat']; omega) (ih ?_ ?_)
      · rcases n with - | n
        · omega
        · omega
      · rw [Nat.pow_succ] at hv
        exact Nat.div_lt_of_lt_mul (by omega)

lemma varintValue_encodeVarintLoop : ∀ {n v : ℕ}, v < 128 ^ n →
    varintValue (encodeVarintLoop n v) = v := by
  intro n
  induction n with
  | zero => intro v hv; simp [encodeVarintLoop, varintValue]; omega
  | succ n ih =>
    intro v hv
    rw [encodeVarintLoop]
    by_cases hlt : v < 128
    · rw [if_pos hlt, varintValue, varintValue, UInt8.toNat_ofNat']
      omega
    · have hdiv : v / 128 < 128 ^ n := by
        rw [Nat.pow_succ] at hv
        exact Nat.div_lt_of_lt_mul (by omega)
      rw [if_neg hlt, varintValue, ih hdiv, UInt8.toNat_ofNat']
      omega

lemma length_encodeVarintLoop_le (n v : ℕ) : (encodeVarintLoop n v).length ≤ n := by
  induction n generalizing v with
  | zero => simp [encodeVarintLoop]
  | succ n ih =>
    rw [encodeVarintLoop]
    split
    · simp
    · simpa using ih (v / 128)

lemma isVarint_encodeVarint {v : ℕ} (h : v < 2 ^ 64) : IsVarint (encodeVarint v) where
  continued := continued_encodeVarintLoop (by omega) (by omega)
  length_le := length_encodeVarintLoop_le 10 v

lemma varintValue_encodeVarint {v : ℕ} (h : v < 2 ^ 64) : varintValue (encodeVarint v) = v :=
  varintValue_encodeVarintLoop (by omega)

/-! ## Values -/

/-- The value of a field, as far as its wire type tells. -/
inductive WireValue where
  | varint (v : ℕ)
  | fixed64 (bytes : Bytes)
  | len (payload : Bytes)
  | fixed32 (bytes : Bytes)
  deriving DecidableEq, Repr

/-- The wire type in the tag of a field. -/
def WireValue.wireType : WireValue → ℕ
  | varint _ => 0
  | fixed64 _ => 1
  | len _ => 2
  | fixed32 _ => 5

/-- The length of a length-delimited payload. -/
def WireValue.payloadLength : WireValue → ℕ
  | len payload => payload.length
  | varint _ => 0
  | fixed64 _ => 0
  | fixed32 _ => 0

/-- The bytes spell the value.  What a varint has beyond its 64th bit is dropped. -/
inductive ValueBytes : WireValue → Bytes → Prop where
  | varint {bs : Bytes} (h : IsVarint bs) : ValueBytes (.varint (varintValue bs % 2 ^ 64)) bs
  | fixed64 {bs : Bytes} (h : bs.length = 8) : ValueBytes (.fixed64 bs) bs
  | len {size payload : Bytes} (h : IsVarint size)
      (hlen : varintValue size % 2 ^ 64 = payload.length) :
      ValueBytes (.len payload) (size ++ payload)
  | fixed32 {bs : Bytes} (h : bs.length = 4) : ValueBytes (.fixed32 bs) bs

lemma WireValue.wireType_lt (v : WireValue) : v.wireType < 8 := by
  cases v <;> simp [wireType]

lemma ValueBytes.ne_nil {v : WireValue} {bs : Bytes} (h : ValueBytes v bs) : bs ≠ [] := by
  rcases h with ⟨h⟩ | ⟨h⟩ | ⟨h, _⟩ | ⟨h⟩
  · exact h.continued.ne_nil
  · exact List.ne_nil_of_length_pos (by omega)
  · exact List.append_ne_nil_of_left_ne_nil h.continued.ne_nil _
  · exact List.ne_nil_of_length_pos (by omega)

/-- With its wire type known, a value can be read off in one way only. -/
lemma ValueBytes.append_inj {v v' : WireValue} {bs bs' rest rest' : Bytes}
    (h : ValueBytes v bs) (h' : ValueBytes v' bs') (htype : v.wireType = v'.wireType)
    (heq : bs ++ rest = bs' ++ rest') : v = v' ∧ bs = bs' ∧ rest = rest' := by
  cases h with
  | varint hb =>
    obtain hb' | _ | _ | _ := h'
    · obtain ⟨rfl, rfl⟩ := hb.continued.append_inj hb'.continued heq
      exact ⟨rfl, rfl, rfl⟩
    all_goals simp [WireValue.wireType] at htype
  | fixed64 hb =>
    obtain _ | hb' | _ | _ := h'
    · simp [WireValue.wireType] at htype
    · obtain ⟨rfl, rfl⟩ := List.append_inj heq (by omega)
      exact ⟨rfl, rfl, rfl⟩
    all_goals simp [WireValue.wireType] at htype
  | len hb hlen =>
    obtain _ | _ | ⟨hb', hlen'⟩ | _ := h'
    · simp [WireValue.wireType] at htype
    · simp [WireValue.wireType] at htype
    · rw [List.append_assoc, List.append_assoc] at heq
      obtain ⟨rfl, htail⟩ := hb.continued.append_inj hb'.continued heq
      obtain ⟨rfl, rfl⟩ := List.append_inj htail (by omega)
      exact ⟨rfl, rfl, rfl⟩
    · simp [WireValue.wireType] at htype
  | fixed32 hb =>
    obtain _ | _ | _ | hb' := h'
    · simp [WireValue.wireType] at htype
    · simp [WireValue.wireType] at htype
    · simp [WireValue.wireType] at htype
    · obtain ⟨rfl, rfl⟩ := List.append_inj heq (by omega)
      exact ⟨rfl, rfl, rfl⟩

/-! ## Fields and messages -/

/-- One field of a message. -/
structure Field where
  number : ℕ
  value : WireValue
  deriving DecidableEq, Repr

/-- The bytes spell the field. -/
inductive FieldBytes (f : Field) : Bytes → Prop where
  | mk {tag bs : Bytes} (htag : IsVarint tag)
      (hvalue : varintValue tag % 2 ^ 64 = 8 * f.number + f.value.wireType)
      (hbytes : ValueBytes f.value bs) : FieldBytes f (tag ++ bs)

/-- The bytes spell the fields, one after the other. -/
inductive Body : List Field → Bytes → Prop where
  | nil : Body [] []
  | cons {f : Field} {fs : List Field} {fb bs : Bytes} (hf : FieldBytes f fb)
      (hfs : Body fs bs) : Body (f :: fs) (fb ++ bs)

variable {f : Field} {fs fs' : List Field} {fb bs bs' : Bytes}

lemma FieldBytes.ne_nil (h : FieldBytes f fb) : fb ≠ [] := by
  obtain ⟨htag, _, _⟩ := h
  exact List.append_ne_nil_of_left_ne_nil htag.continued.ne_nil _

lemma FieldBytes.append_inj {f' : Field} {fb' rest rest' : Bytes} (h : FieldBytes f fb)
    (h' : FieldBytes f' fb') (heq : fb ++ rest = fb' ++ rest') :
    f = f' ∧ fb = fb' ∧ rest = rest' := by
  obtain ⟨htag, hvalue, hbytes⟩ := h
  obtain ⟨htag', hvalue', hbytes'⟩ := h'
  rw [List.append_assoc, List.append_assoc] at heq
  obtain ⟨rfl, htail⟩ := htag.continued.append_inj htag'.continued heq
  have hlt := f.value.wireType_lt
  have hlt' := f'.value.wireType_lt
  obtain ⟨hval, rfl, rfl⟩ := hbytes.append_inj hbytes' (by omega) htail
  have hnumber : f.number = f'.number := by
    rw [hval] at hvalue
    omega
  refine ⟨?_, rfl, rfl⟩
  cases f
  cases f'
  exact congrArg₂ Field.mk hnumber hval

lemma Body.append (h : Body fs bs) (h' : Body fs' bs') : Body (fs ++ fs') (bs ++ bs') := by
  induction h with
  | nil => exact h'
  | cons hf _ ih =>
    rw [List.append_assoc]
    exact .cons hf ih

lemma Body.singleton (h : FieldBytes f fb) : Body [f] fb := by
  simpa using Body.cons h .nil

/-- A sequence of fields that starts as another one is spelt goes on after it. -/
lemma Body.split {first : Bytes} (hfirst : Body fs first) :
    ∀ {all : List Field}, Body all (first ++ bs) → ∃ rest, all = fs ++ rest ∧ Body rest bs := by
  induction hfirst with
  | nil => exact fun {all} h => ⟨all, rfl, h⟩
  | @cons f fs fb first hf _ ih =>
    intro all h
    rw [List.append_assoc] at h
    generalize hbytes : fb ++ (first ++ bs) = bytes at h
    cases h with
    | nil => exact absurd hbytes (List.append_ne_nil_of_left_ne_nil hf.ne_nil _)
    | cons hf' hrest =>
      obtain ⟨rfl, rfl, rfl⟩ := hf.append_inj hf' hbytes
      obtain ⟨rest, rfl, hbody⟩ := ih hrest
      exact ⟨rest, rfl, hbody⟩

lemma Body.eq_nil (h : Body fs []) : fs = [] := by
  generalize hbytes : ([] : Bytes) = bytes at h
  cases h with
  | nil => rfl
  | cons hf _ => exact absurd hbytes.symm (List.append_ne_nil_of_left_ne_nil hf.ne_nil _)

lemma Body.uncons (h : Body (f :: fs) bs) :
    ∃ fb rest, FieldBytes f fb ∧ Body fs rest ∧ bs = fb ++ rest := by
  cases h with
  | cons hf hfs => exact ⟨_, _, hf, hfs, rfl⟩

lemma Body.bytes_eq_nil (h : Body [] bs) : bs = [] := by
  cases h
  rfl

/-- A byte string spells at most one sequence of fields. -/
theorem Body.unique (h : Body fs bs) (h' : Body fs' bs) : fs = fs' := by
  rw [← List.append_nil bs] at h'
  obtain ⟨rest, rfl, hrest⟩ := h.split h'
  rw [hrest.eq_nil, List.append_nil]

lemma ValueBytes.payloadLength_le {v : WireValue} (h : ValueBytes v bs) :
    v.payloadLength ≤ bs.length := by
  cases h with
  | len _ _ => simp [WireValue.payloadLength]
  | varint _ => exact Nat.zero_le _
  | fixed64 _ => exact Nat.zero_le _
  | fixed32 _ => exact Nat.zero_le _

/-- A payload lies in the bytes of its message. -/
lemma Body.payloadLength_le (h : Body fs bs) (hf : f ∈ fs) :
    f.value.payloadLength ≤ bs.length := by
  induction h with
  | nil => exact absurd hf List.not_mem_nil
  | cons hfb _ ih =>
    rw [List.length_append]
    rcases List.mem_cons.mp hf with rfl | hf
    · obtain ⟨_, _, hvalue⟩ := hfb
      have := hvalue.payloadLength_le
      rw [List.length_append]
      omega
    · have := ih hf
      omega

lemma Body.length_le (h : Body fs bs) : fs.length ≤ bs.length := by
  induction h with
  | nil => simp
  | cons hf _ ih =>
    have := List.length_pos_of_ne_nil hf.ne_nil
    simp only [List.length_cons, List.length_append]
    omega

end Protobuf
