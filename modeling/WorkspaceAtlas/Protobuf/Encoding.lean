/-
# How a message is written

The fields of a message may be written in any order, as long as the values of a repeated field
keep theirs.  So an encoding is described by the values that stand under each number.  The
description is relative to what is there already, so that it can be followed field by field.
-/
import WorkspaceAtlas.Protobuf.Wire
import Mathlib.Algebra.Order.BigOperators.Group.List
import Mathlib.Algebra.Order.Ring.Nat
import Mathlib.Data.List.Forall2

namespace Protobuf

variable {α γ : Type*} {f : Field} {fs : List Field} {n : ℕ}

/-- The values that are written under a number, in their order. -/
def valuesOf (n : ℕ) (fs : List Field) : List WireValue :=
  (fs.filter fun f => f.number = n).map Field.value

@[simp] lemma valuesOf_nil (n : ℕ) : valuesOf n [] = [] := rfl

lemma valuesOf_cons_eq (h : f.number = n) (fs : List Field) :
    valuesOf n (f :: fs) = f.value :: valuesOf n fs := by
  simp [valuesOf, h]

lemma valuesOf_cons_ne (h : f.number ≠ n) (fs : List Field) :
    valuesOf n (f :: fs) = valuesOf n fs := by
  simp [valuesOf, h]

lemma mem_valuesOf (h : f ∈ fs) : f.value ∈ valuesOf f.number fs := by
  simp only [valuesOf, List.mem_map, List.mem_filter, decide_eq_true_eq]
  exact ⟨f, ⟨h, rfl⟩, rfl⟩

/-- All fields have one of the numbers. -/
def Numbered (ns : List ℕ) (fs : List Field) : Prop := ∀ f ∈ fs, f.number ∈ ns

lemma Numbered.head {ns : List ℕ} (h : Numbered ns (f :: fs)) : f.number ∈ ns := h f (by simp)

lemma Numbered.tail {ns : List ℕ} (h : Numbered ns (f :: fs)) : Numbered ns fs :=
  fun f' hf' => h f' (by simp [hf'])

/-- Fields are counted by their numbers. -/
lemma Numbered.length_le {ns : List ℕ} (h : Numbered ns fs) :
    fs.length ≤ (ns.map fun n => (valuesOf n fs).length).sum := by
  induction fs with
  | nil => exact Nat.zero_le _
  | cons f fs ih =>
    have hgrow : ∀ n, (valuesOf n fs).length ≤ (valuesOf n (f :: fs)).length := by
      intro n
      by_cases hn : f.number = n
      · rw [valuesOf_cons_eq hn, List.length_cons]
        omega
      · rw [valuesOf_cons_ne hn]
    have hlt : (ns.map fun n => (valuesOf n fs).length).sum <
        (ns.map fun n => (valuesOf n (f :: fs)).length).sum := by
      refine List.sum_lt_sum _ _ (fun n _ => hgrow n) ⟨f.number, h.head, ?_⟩
      rw [valuesOf_cons_eq rfl, List.length_cons]
      omega
    have := ih h.tail
    rw [List.length_cons]
    omega

/-- A field that is written once and takes a component of the message to its target, or is left
out where the component is there already. -/
def Singular (n : ℕ) (R : WireValue → Prop) (cur target : γ) (fs : List Field) : Prop :=
  (∃ v, R v ∧ valuesOf n fs = [v]) ∨ (valuesOf n fs = [] ∧ cur = target)

/-- A repeated field, whose values take a list to its target. -/
def Repeated (n max : ℕ) (R : α → WireValue → Prop) (cur target : List α) (fs : List Field) :
    Prop :=
  target.length ≤ max ∧ ∃ more, target = cur ++ more ∧ List.Forall₂ R more (valuesOf n fs)

namespace Singular

variable {R : WireValue → Prop} {cur target : γ}

lemma nil (h : Singular n R cur target []) : cur = target := by
  obtain ⟨v, _, hv⟩ | ⟨_, h⟩ := h
  · exact absurd hv (by simp)
  · exact h

lemma cons_ne (h : Singular n R cur target (f :: fs)) (hn : f.number ≠ n) :
    Singular n R cur target fs := by
  rwa [Singular, valuesOf_cons_ne hn] at h

lemma cons_eq (h : Singular n R cur target (f :: fs)) (hn : f.number = n) :
    R f.value ∧ Singular n R target target fs := by
  rw [Singular, valuesOf_cons_eq hn] at h
  obtain ⟨v, hR, hv⟩ | ⟨hv, _⟩ := h
  · obtain ⟨rfl, hnil⟩ := List.cons.inj hv
    exact ⟨hR, .inr ⟨hnil, rfl⟩⟩
  · exact absurd hv (by simp)

lemma mono {R' : WireValue → Prop} (h : Singular n R cur target fs) (hR : ∀ v, R v → R' v) :
    Singular n R' cur target fs := by
  obtain ⟨v, hv, hval⟩ | h := h
  · exact .inl ⟨v, hR v hv, hval⟩
  · exact .inr h

lemma length_le (h : Singular n R cur target fs) : (valuesOf n fs).length ≤ 1 := by
  obtain ⟨v, _, hval⟩ | ⟨hval, _⟩ := h
  · rw [hval, List.length_singleton]
  · rw [hval]
    exact Nat.zero_le _

lemma of_mem {v : WireValue} (h : Singular n R cur target fs) (hv : v ∈ valuesOf n fs) : R v := by
  obtain ⟨v', hv', hval⟩ | ⟨hval, _⟩ := h
  · rw [hval] at hv
    rwa [List.mem_singleton.mp hv]
  · rw [hval] at hv
    exact absurd hv List.not_mem_nil

end Singular

namespace Repeated

variable {max : ℕ} {R R' : α → WireValue → Prop} {cur target : List α}

lemma nil (h : Repeated n max R cur target []) : cur = target := by
  obtain ⟨_, more, rfl, hmore⟩ := h
  obtain rfl := List.forall₂_nil_right_iff.mp hmore
  exact (List.append_nil cur).symm

lemma cons_ne (h : Repeated n max R cur target (f :: fs)) (hn : f.number ≠ n) :
    Repeated n max R cur target fs := by
  rwa [Repeated, valuesOf_cons_ne hn] at h

lemma cons_eq (h : Repeated n max R cur target (f :: fs)) (hn : f.number = n) :
    ∃ a, R a f.value ∧ cur.length < max ∧ Repeated n max R (cur ++ [a]) target fs := by
  rw [Repeated, valuesOf_cons_eq hn] at h
  obtain ⟨hmax, more, rfl, hmore⟩ := h
  obtain ⟨a, more, ha, hrest, rfl⟩ := List.forall₂_cons_right_iff.mp hmore
  refine ⟨a, ha, ?_, hmax, more, by simp, hrest⟩
  rw [List.length_append, List.length_cons] at hmax
  omega

lemma mono (h : Repeated n max R cur target fs) (hR : ∀ a v, R a v → R' a v) :
    Repeated n max R' cur target fs := by
  obtain ⟨hmax, more, heq, hmore⟩ := h
  exact ⟨hmax, more, heq, hmore.imp hR⟩

/-- Where each entry is written as another one that may or may not be the same, so is the whole
list, and it is the same exactly if all entries are. -/
lemma transfer {K : α → WireValue → Prop} (h : Repeated n max R [] target fs)
    (hR : ∀ a v, R a v → ∃ a', R' a' v ∧ (a' = a ↔ K a v)) :
    ∃ target', Repeated n max R' [] target' fs ∧
      (target' = target ↔ Repeated n max K [] target fs) := by
  obtain ⟨hmax, more, heq, hmore⟩ := h
  obtain rfl : target = more := heq
  suffices hlist : ∃ target', target'.length = target.length ∧
      List.Forall₂ R' target' (valuesOf n fs) ∧
      (target' = target ↔ List.Forall₂ K target (valuesOf n fs)) by
    obtain ⟨target', hlen, hmore', hiff⟩ := hlist
    refine ⟨target', ⟨by omega, target', rfl, hmore'⟩,
      hiff.trans ⟨fun hK => ⟨hmax, target, rfl, hK⟩, ?_⟩⟩
    rintro ⟨_, more, heq, hK⟩
    obtain rfl : target = more := heq
    exact hK
  clear hmax
  generalize valuesOf n fs = vs at hmore ⊢
  induction hmore with
  | nil => exact ⟨[], rfl, .nil, by simp⟩
  | @cons a v more vs ha _ ih =>
    obtain ⟨a', ha', hiff⟩ := hR a v ha
    obtain ⟨more', hlen, hmore', hiff'⟩ := ih
    refine ⟨a' :: more', by simp [hlen], .cons ha' hmore', ?_⟩
    rw [List.cons.injEq, List.forall₂_cons, hiff, hiff']

end Repeated

/-- The payload of a packed repeated field: varints one after the other. -/
inductive PackedVarints : List ℕ → Bytes → Prop where
  | nil : PackedVarints [] []
  | cons {b bs : Bytes} {vs : List ℕ} (hb : IsVarint b) (rest : PackedVarints vs bs) :
      PackedVarints (varintValue b % 2 ^ 64 :: vs) (b ++ bs)

/-! ## A canonical encoding -/

/-- The bytes of a value with shortest varints. -/
def encodeValue : WireValue → Bytes
  | .varint v => encodeVarint v
  | .fixed64 bs => bs
  | .len payload => encodeVarint payload.length ++ payload
  | .fixed32 bs => bs

/-- The value has the size that its wire type asks for. -/
def WireValue.Sized : WireValue → Prop
  | varint v => v < 2 ^ 64
  | fixed64 bs => bs.length = 8
  | len payload => payload.length < 2 ^ 64
  | fixed32 bs => bs.length = 4

instance : DecidablePred WireValue.Sized
  | .varint _ => inferInstanceAs (Decidable (_ < _))
  | .fixed64 _ => inferInstanceAs (Decidable (_ = _))
  | .len _ => inferInstanceAs (Decidable (_ < _))
  | .fixed32 _ => inferInstanceAs (Decidable (_ = _))

/-- The bytes of a field with shortest varints. -/
def encodeField (f : Field) : Bytes :=
  encodeVarint (8 * f.number + f.value.wireType) ++ encodeValue f.value

/-- The bytes of a message with shortest varints. -/
def encodeFields (fs : List Field) : Bytes := fs.flatMap encodeField

lemma valueBytes_encodeValue {v : WireValue} (h : v.Sized) : ValueBytes v (encodeValue v) := by
  cases v with
  | varint v =>
    have hv : v < 2 ^ 64 := h
    have := ValueBytes.varint (isVarint_encodeVarint hv)
    rwa [varintValue_encodeVarint hv, Nat.mod_eq_of_lt hv] at this
  | fixed64 bs => exact .fixed64 h
  | len payload =>
    have hlen : payload.length < 2 ^ 64 := h
    refine .len (isVarint_encodeVarint hlen) ?_
    rw [varintValue_encodeVarint hlen, Nat.mod_eq_of_lt hlen]
  | fixed32 bs => exact .fixed32 h

lemma fieldBytes_encodeField (hn : f.number < 2 ^ 61) (h : f.value.Sized) :
    FieldBytes f (encodeField f) := by
  have htag : 8 * f.number + f.value.wireType < 2 ^ 64 := by
    have := f.value.wireType_lt
    omega
  refine .mk (isVarint_encodeVarint htag) ?_ (valueBytes_encodeValue h)
  rw [varintValue_encodeVarint htag, Nat.mod_eq_of_lt htag]

lemma length_encodeField_le (h : f.value.Sized) :
    (encodeField f).length ≤ 20 + f.value.payloadLength := by
  have htag := length_encodeVarintLoop_le 10 (8 * f.number + f.value.wireType)
  rw [encodeField, List.length_append, encodeVarint]
  generalize hv : f.value = v at h htag ⊢
  cases v with
  | varint v =>
    have := length_encodeVarintLoop_le 10 v
    rw [encodeValue, encodeVarint]
    omega
  | fixed64 bs =>
    have hlen : bs.length = 8 := h
    rw [encodeValue]
    omega
  | len payload =>
    have := length_encodeVarintLoop_le 10 payload.length
    rw [encodeValue, encodeVarint, List.length_append, WireValue.payloadLength]
    omega
  | fixed32 bs =>
    have hlen : bs.length = 4 := h
    rw [encodeValue]
    omega

lemma packedVarints_encode {vs : List ℕ} (h : ∀ v ∈ vs, v < 2 ^ 64) :
    PackedVarints vs (vs.flatMap encodeVarint) := by
  induction vs with
  | nil => exact .nil
  | cons v vs ih =>
    have hv := h v (by simp)
    have := PackedVarints.cons (isVarint_encodeVarint hv) (ih fun v' hv' => h v' (by simp [hv']))
    rwa [varintValue_encodeVarint hv, Nat.mod_eq_of_lt hv] at this

lemma body_encodeFields (h : ∀ f ∈ fs, f.number < 2 ^ 61 ∧ f.value.Sized) :
    Body fs (encodeFields fs) := by
  induction fs with
  | nil => exact .nil
  | cons f fs ih =>
    have hf := h f (by simp)
    exact .cons (fieldBytes_encodeField hf.1 hf.2) (ih fun f' hf' => h f' (by simp [hf']))

end Protobuf
