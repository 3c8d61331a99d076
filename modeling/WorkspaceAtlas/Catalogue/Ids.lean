/-
# Identifiers

`ids.rs`, `hashing.rs` and `resolution::deterministic_id`: every id of the catalogue is a
digest of the values that determine it.  The digest functions themselves are parameters; an
argument that needs ids to be distinct assumes them injective.
-/
import Mathlib.Data.List.Sort
import Mathlib.Data.Nat.Log
import Mathlib.Data.Nat.Digits.Lemmas
import Mathlib.Logic.Function.Basic
import Mathlib.Tactic.Ring
import WorkspaceAtlas.Text.Json

namespace WorkspaceAtlas

/-- The digest functions. -/
structure Hasher where
  /-- The first 16 bytes of the BLAKE3 digest of some bytes. -/
  blake3Short : List UInt8 → List UInt8
  /-- The BLAKE3 digest of the bytes of the values, each behind its length as a `u64`: a
  function of the values, since a string in memory has fewer than `2 ^ 64` bytes and values
  framed so can be read back. -/
  blake3Framed : List String → List UInt8
  /-- The SHA-256 digest. -/
  sha256 : List UInt8 → List UInt8

/-- The digests are taken as injective. -/
structure Hasher.Injective (H : Hasher) : Prop where
  blake3Short : Function.Injective H.blake3Short
  blake3Framed : Function.Injective H.blake3Framed
  sha256 : Function.Injective H.sha256

/-! ## Bytes -/

/-- `str::as_bytes`. -/
def utf8 (s : String) : List UInt8 := s.toByteArray.data.toList

lemma utf8_injective : Function.Injective utf8 := by
  intro s t h
  apply String.toByteArray_inj.mp
  apply ByteArray.ext
  exact Array.toList_inj.mp h

lemma utf8_append (s t : String) : utf8 (s ++ t) = utf8 s ++ utf8 t := by
  rw [utf8, String.toByteArray_append]
  exact ByteArray.toList_data_append

lemma utf8_cons (c : Char) (s : List Char) :
    utf8 (String.ofList (c :: s)) = String.utf8EncodeChar c ++ utf8 (String.ofList s) := by
  have h : String.ofList (c :: s) = String.ofList [c] ++ String.ofList s := by
    rw [← String.ofList_append]
    rfl
  rw [h, utf8_append]
  congr 1
  simp [utf8, List.utf8Encode_singleton]

lemma utf8_ofList (l : List Char) : utf8 (String.ofList l) = l.flatMap String.utf8EncodeChar := by
  induction l with
  | nil => rfl
  | cons c l ih => rw [utf8_cons, ih, List.flatMap_cons]

/-- The first character is read off the bytes. -/
lemma head_utf8 {c d : Char} {x y : List UInt8}
    (h : String.utf8EncodeChar c ++ x = String.utf8EncodeChar d ++ y) : c = d := by
  have hdecode : ∀ (c : Char) (x : List UInt8),
      (String.utf8EncodeChar c ++ x).toByteArray.utf8DecodeChar? 0 = some c := by
    intro c x
    rw [List.toByteArray_append]
    exact ByteArray.utf8DecodeChar?_utf8EncodeChar_append
  have hc := hdecode c x
  rw [h, hdecode] at hc
  exact (Option.some.inj hc).symm

/-- Of two texts that start the same bytes, one starts the other. -/
lemma prefix_of_utf8 {s t : List Char} {x y : List UInt8}
    (h : utf8 (String.ofList s) ++ x = utf8 (String.ofList t) ++ y) : s <+: t ∨ t <+: s := by
  induction s generalizing t with
  | nil => exact Or.inl List.nil_prefix
  | cons c s ih =>
    cases t with
    | nil => exact Or.inr List.nil_prefix
    | cons d t =>
      rw [utf8_cons, utf8_cons, List.append_assoc, List.append_assoc] at h
      obtain rfl := head_utf8 h
      rw [List.append_cancel_left_eq] at h
      exact (ih h).imp (List.prefix_cons_inj c).mpr (List.prefix_cons_inj c).mpr

/-- The `k` lowest base-256 digits of `n`, the lowest first. -/
def leDigits : ℕ → ℕ → List UInt8
  | 0, _ => []
  | k + 1, n => UInt8.ofNat n :: leDigits k (n / 256)

/-- `to_le_bytes`: eight bytes, and more only for numbers no 64-bit integer holds. -/
def toLeBytes (n : ℕ) : List UInt8 := leDigits (max 8 (n.log2 / 8 + 1)) n

lemma length_leDigits (k n : ℕ) : (leDigits k n).length = k := by
  induction k generalizing n with
  | zero => rfl
  | succ k ih => rw [leDigits, List.length_cons, ih]

lemma leDigits_injOn {k m n : ℕ} (hm : m < 256 ^ k) (hn : n < 256 ^ k)
    (h : leDigits k m = leDigits k n) : m = n := by
  induction k generalizing m n with
  | zero => omega
  | succ k ih =>
    simp only [leDigits, List.cons.injEq] at h
    obtain ⟨hlow, hhigh⟩ := h
    have hdiv : m / 256 = n / 256 := by
      refine ih ?_ ?_ hhigh
      · rw [pow_succ] at hm
        exact Nat.div_lt_of_lt_mul (by rw [mul_comm]; exact hm)
      · rw [pow_succ] at hn
        exact Nat.div_lt_of_lt_mul (by rw [mul_comm]; exact hn)
    have hmod : m % 256 = n % 256 := by
      have := congrArg UInt8.toNat hlow
      simpa using this
    omega

lemma lt_pow_of_log2 (n : ℕ) : n < 256 ^ (n.log2 / 8 + 1) := by
  have h : n < 2 ^ (n.log2 + 1) := Nat.lt_log2_self
  refine h.trans_le ?_
  rw [show (256 : ℕ) = 2 ^ 8 from rfl, ← pow_mul]
  exact Nat.pow_le_pow_right (by omega) (by omega)

lemma toLeBytes_injective : Function.Injective toLeBytes := by
  intro m n h
  have hlen : max 8 (m.log2 / 8 + 1) = max 8 (n.log2 / 8 + 1) := by
    have := congrArg List.length h
    simpa only [toLeBytes, length_leDigits] using this
  have hle : ∀ i : ℕ, i < 256 ^ max 8 (i.log2 / 8 + 1) := fun i =>
    (lt_pow_of_log2 i).trans_le (Nat.pow_le_pow_right (by omega) (le_max_right _ _))
  refine leDigits_injOn (hle m) (hlen ▸ hle n) ?_
  rw [toLeBytes, toLeBytes, ← hlen] at h
  exact h

/-! ## Hex -/

/-- A number below 16 as a hex digit. -/
def hexDigit (n : ℕ) : Char :=
  ['0', '1', '2', '3', '4', '5', '6', '7', '8', '9', 'a', 'b', 'c', 'd', 'e', 'f'].getD n '0'

/-- The digits of some bytes, the high digit of each byte first. -/
def hexDigits (bytes : List UInt8) : List Char :=
  bytes.flatMap fun b => [hexDigit (b.toNat / 16), hexDigit (b.toNat % 16)]

/-- `to_hex` and `hex::encode`. -/
def toHex (bytes : List UInt8) : String := String.ofList (hexDigits bytes)

lemma hexDigit_inj {m n : ℕ} (hm : m < 16) (hn : n < 16) (h : hexDigit m = hexDigit n) :
    m = n := by
  have hall : ∀ a b : Fin 16, hexDigit a = hexDigit b → a = b := by decide
  exact congrArg Fin.val (hall ⟨m, hm⟩ ⟨n, hn⟩ h)

lemma hexDigits_injective : Function.Injective hexDigits := by
  intro as
  induction as with
  | nil =>
    intro bs h
    cases bs with
    | nil => rfl
    | cons b bs => simp [hexDigits] at h
  | cons a as ih =>
    intro bs h
    cases bs with
    | nil => simp [hexDigits] at h
    | cons b bs =>
      simp only [hexDigits, List.flatMap_cons, List.cons_append, List.nil_append,
        List.cons.injEq] at h
      obtain ⟨hhigh, hlow, hrest⟩ := h
      have ha := a.toNat_lt
      have hb := b.toNat_lt
      have h₁ := hexDigit_inj (by omega) (by omega) hhigh
      have h₂ := hexDigit_inj (by omega) (by omega) hlow
      have hab : a = b := UInt8.toNat_inj.mp (by omega)
      rw [hab, ih hrest]

lemma toHex_injective : Function.Injective toHex :=
  fun _ _ h => hexDigits_injective (String.ofList_inj.mp h)

lemma utf8Size_hexDigit (n : ℕ) (h : n < 16) : (hexDigit n).utf8Size = 1 := by
  have hall : ∀ n : Fin 16, (hexDigit n).utf8Size = 1 := by decide
  exact hall ⟨n, h⟩

/-- The text of some bytes has two bytes for each of them. -/
lemma utf8ByteSize_toHex (bytes : List UInt8) : (toHex bytes).utf8ByteSize = 2 * bytes.length := by
  have hsize : (toHex bytes).utf8ByteSize = (utf8 (toHex bytes)).length := Array.length_toList.symm
  rw [hsize, toHex, utf8_ofList]
  induction bytes with
  | nil => rfl
  | cons b bytes ih =>
    have hb := b.toNat_lt
    have hhigh := utf8Size_hexDigit (b.toNat / 16) (by omega)
    have hlow := utf8Size_hexDigit (b.toNat % 16) (by omega)
    rw [hexDigits, List.flatMap_cons, ← hexDigits, List.flatMap_append, List.length_append, ih rfl,
      List.length_cons]
    simp only [List.flatMap_cons, List.flatMap_nil, List.append_nil, List.length_append,
      String.length_utf8EncodeChar, hhigh, hlow]
    omega

/-- What is no hexadecimal digit is not in the text of a digest. -/
lemma notMem_toHex {c : Char} (hc : ∀ n < 16, hexDigit n ≠ c) (bytes : List UInt8) :
    c ∉ (toHex bytes).toList := by
  simp only [toHex, String.toList_ofList, hexDigits, List.mem_flatMap, List.mem_cons,
    List.not_mem_nil, or_false, not_exists, not_and]
  rintro b - (h | h)
  · have hb := b.toNat_lt
    exact hc _ (by omega) h.symm
  · exact hc _ (by omega) h.symm

lemma at_not_mem_toHex (bytes : List UInt8) : '@' ∉ (toHex bytes).toList :=
  notMem_toHex (by decide) bytes

lemma separator_notMem_toHex (bytes : List UInt8) : '\x1f' ∉ (toHex bytes).toList :=
  notMem_toHex (by decide) bytes

/-! ## Digests that return their input -/

/-- The values one after the other, each byte marked and each value closed. -/
def frame (values : List String) : List UInt8 :=
  values.flatMap fun v => (utf8 v).flatMap (fun b => [1, b]) ++ [0]

/-- Digests that return their input, for runs on concrete values. -/
def Hasher.plain : Hasher where
  blake3Short bytes := bytes
  blake3Framed values := frame values
  sha256 bytes := bytes

lemma frame_injective : Function.Injective frame := by
  have hvalue : ∀ s t l m : List UInt8,
      s.flatMap (fun b => [1, b]) ++ 0 :: l = t.flatMap (fun b => [1, b]) ++ 0 :: m →
        s = t ∧ l = m := by
    intro s
    induction s with
    | nil =>
      intro t l m h
      cases t with
      | nil => simpa using h
      | cons b t => simp at h
    | cons a s ih =>
      intro t l m h
      cases t with
      | nil => simp at h
      | cons b t =>
        simp only [List.flatMap_cons, List.cons_append, List.nil_append, List.cons.injEq,
          true_and] at h
        obtain ⟨rfl, h⟩ := h
        obtain ⟨rfl, rfl⟩ := ih t l m h
        exact ⟨rfl, rfl⟩
  intro vs
  induction vs with
  | nil =>
    intro ws h
    cases ws with
    | nil => rfl
    | cons w ws => simp [frame] at h
  | cons v vs ih =>
    intro ws h
    cases ws with
    | nil => simp [frame] at h
    | cons w ws =>
      simp only [frame, List.flatMap_cons, List.append_assoc, List.cons_append,
        List.nil_append] at h
      obtain ⟨hv, hrest⟩ := hvalue _ _ _ _ h
      rw [utf8_injective hv, ih hrest]

lemma Hasher.plain_injective : Hasher.plain.Injective where
  blake3Short _ _ h := h
  blake3Framed _ _ h := frame_injective h
  sha256 _ _ h := h

/-! ## Ids -/

/-- `generation_id`. -/
def generationId (H : Hasher) (workspaceId : String) (sequenceNo : ℕ) : String :=
  "gen_" ++ toHex (H.blake3Short (utf8 workspaceId ++ [0x1f] ++ toLeBytes sequenceNo))

/-- `file_id_from_path`. -/
def fileIdFromPath (H : Hasher) (workspaceId canonicalRelativePath : String) : String :=
  "file_" ++ toHex (H.blake3Short (utf8 workspaceId ++ [0x1f] ++ utf8 canonicalRelativePath))

/-- `deterministic_id`. -/
def deterministicId (H : Hasher) (stem : String) (parts : List String) : String :=
  stem ++ "_" ++ toHex (H.blake3Short (parts.flatMap fun p => utf8 p ++ [0x1f]))

/-- `content_hash_of_bytes`. -/
def contentHashOfBytes (H : Hasher) (bytes : List UInt8) : String :=
  toHex (H.sha256 bytes)

/-- `canonical_json_bytes`; the fields of an object are given sorted by their names. -/
def canonicalJsonBytes (v : Text.Json) : List UInt8 := utf8 (String.ofList v.write)

/-- `to_be_bytes` of a 64-bit number. -/
def toBeBytes (n : ℕ) : List UInt8 := (leDigits 8 n).reverse

/-- The bytes of some records of `ApplicationSnapshotHasher`, each behind its length. -/
def frameRecords (records : List Text.Json) : List UInt8 :=
  records.flatMap fun r => toBeBytes (canonicalJsonBytes r).length ++ canonicalJsonBytes r

/-- `ApplicationSnapshotHasher`: the digest of some records in a domain. -/
def applicationSnapshotDigest (H : Hasher) (domain : String) (records : List Text.Json) :
    String :=
  toHex (H.sha256 (utf8 "workspace-atlas/application-snapshot-v1\x00" ++
    toBeBytes (utf8 domain).length ++ utf8 domain ++ frameRecords records))

/-- `source_tree_hash`: over the paths and content hashes sorted by path. -/
def sourceTreeHash (H : Hasher) (entries : List (String × String)) : String :=
  toHex (H.sha256 ((entries.insertionSort fun a b => a.1 ≤ b.1).flatMap fun entry =>
    utf8 entry.1 ++ [0x1f] ++ utf8 entry.2 ++ [0x1e]))

/-- `FileRevisionIdentity`, the values that determine a revision. -/
structure FileRevisionIdentity where
  fileId : String
  contentHash : String
  artifactClass : String
  language : Option String
  isGenerated : Bool
  isTest : Bool
  deriving DecidableEq, Repr

/-- The seven values that `file_revision_id` hashes. -/
def FileRevisionIdentity.values (identity : FileRevisionIdentity) : List String :=
  ["file-revision-identity-v2.0.0", identity.fileId, identity.contentHash,
    identity.artifactClass, identity.language.getD "",
    if identity.isGenerated then "1" else "0", if identity.isTest then "1" else "0"]

/-- `file_revision_id`. -/
def fileRevisionId (H : Hasher) (identity : FileRevisionIdentity) : String :=
  "rev_" ++ toHex (H.blake3Framed identity.values)

section Injective

variable {H : Hasher}

lemma stem_append_inj {a s t : String} : a ++ s = a ++ t ↔ s = t := by
  constructor
  · intro h
    have := congrArg String.toList h
    simp only [String.toList_append, List.append_cancel_left_eq] at this
    exact String.toList_inj.mp this
  · rintro rfl
    rfl

lemma generationId_injective (hH : H.Injective) (ws : String) :
    Function.Injective (generationId H ws) := by
  intro m n h
  have := hH.blake3Short (toHex_injective (stem_append_inj.mp h))
  exact toLeBytes_injective (List.append_cancel_left this)

lemma at_not_mem_generationId (ws : String) (n : ℕ) : '@' ∉ (generationId H ws n).toList := by
  rw [generationId, String.toList_append, List.mem_append]
  rintro (h | h)
  · exact absurd h (by decide)
  · exact at_not_mem_toHex _ h

lemma fileIdFromPath_injective (hH : H.Injective) (ws : String) :
    Function.Injective (fileIdFromPath H ws) := by
  intro p q h
  have := hH.blake3Short (toHex_injective (stem_append_inj.mp h))
  exact utf8_injective (List.append_cancel_left this)

/-- What an id is hashed from: the texts of the parts, each with the separator behind it. -/
lemma deterministicId_eq_hash {stem : String} (parts : List String) :
    deterministicId H stem parts = stem ++ "_" ++ toHex (H.blake3Short (utf8
      (String.ofList (parts.flatMap fun p => p.toList ++ ['\x1f'])))) := by
  have hbytes : (parts.flatMap fun p => utf8 p ++ [0x1f]) =
      utf8 (String.ofList (parts.flatMap fun p => p.toList ++ ['\x1f'])) := by
    induction parts with
    | nil => rfl
    | cons p parts ih =>
      have hsep : utf8 (String.ofList ['\x1f']) = [0x1f] := by decide
      rw [List.flatMap_cons, List.flatMap_cons, ih, String.ofList_append, String.ofList_append,
        utf8_append, utf8_append, hsep, String.ofList_toList]
  rw [deterministicId, hbytes]

/-- Ids are told apart by these texts. -/
lemma deterministicId_eq_iff (hH : H.Injective) {stem : String} {ps qs : List String} :
    deterministicId H stem ps = deterministicId H stem qs ↔
      (ps.flatMap fun p => p.toList ++ ['\x1f']) = qs.flatMap fun p => p.toList ++ ['\x1f'] := by
  rw [deterministicId_eq_hash, deterministicId_eq_hash]
  constructor
  · intro h
    have htext := utf8_injective (hH.blake3Short (toHex_injective (stem_append_inj.mp h)))
    exact String.ofList_injective htext
  · intro h
    rw [h]

lemma contentHashOfBytes_injective (hH : H.Injective) :
    Function.Injective (contentHashOfBytes H) := fun _ _ h => hH.sha256 (toHex_injective h)

lemma canonicalJsonBytes_injective : Function.Injective canonicalJsonBytes := by
  intro v w h
  have htext := congrArg String.toList (utf8_injective h)
  rw [String.toList_ofList, String.toList_ofList] at htext
  exact Text.Json.write_injective htext

/-- The text of anything but a number shows where it ends, so records can be told apart without
looking at their lengths. -/
lemma frameRecords_inj {as bs : List Text.Json} (has : ∀ a ∈ as, ∀ n, a ≠ .num n)
    (hbs : ∀ b ∈ bs, ∀ n, b ≠ .num n) (h : frameRecords as = frameRecords bs) : as = bs := by
  have hlength : ∀ n, (toBeBytes n).length = 8 := fun n => by
    rw [toBeBytes, List.length_reverse, length_leDigits]
  have hself : ∀ {a b : Text.Json} {z : List Char}, (∀ n, a ≠ .num n) → (∀ n, b ≠ .num n) →
      b.write = a.write ++ z → a = b := by
    intro a b z ha hb h
    rw [← List.append_nil b.write] at h
    obtain ⟨heq, -⟩ := Text.Json.write_append_inj _ _ (fun ⟨n, hn⟩ => absurd hn (hb n))
      (fun ⟨n, hn⟩ => absurd hn (ha n)) h
    exact heq.symm
  have hne : ∀ (b : Text.Json) (bs : List Text.Json), frameRecords (b :: bs) ≠ [] := by
    intro b bs h
    have hzero := congrArg List.length h
    simp only [frameRecords, List.flatMap_cons, List.length_append, hlength, List.length_nil]
      at hzero
    omega
  induction as generalizing bs with
  | nil =>
    cases bs with
    | nil => rfl
    | cons b bs => exact absurd h.symm (hne b bs)
  | cons a as ih =>
    cases bs with
    | nil => exact absurd h (hne a as)
    | cons b bs =>
      simp only [frameRecords, List.flatMap_cons, List.append_assoc] at h
      obtain ⟨-, hrest⟩ := List.append_inj h (by rw [hlength, hlength])
      have ha := has a List.mem_cons_self
      have hb := hbs b List.mem_cons_self
      obtain rfl : a = b := by
        rcases prefix_of_utf8 hrest with ⟨z, hz⟩ | ⟨z, hz⟩
        · exact hself ha hb hz.symm
        · exact (hself hb ha hz.symm).symm
      rw [ih (fun x hx => has x (List.mem_cons_of_mem a hx))
        (fun x hx => hbs x (List.mem_cons_of_mem a hx)) (List.append_cancel_left hrest)]

lemma applicationSnapshotDigest_inj (hH : H.Injective) {domain : String} {as bs : List Text.Json}
    (has : ∀ a ∈ as, ∀ n, a ≠ .num n) (hbs : ∀ b ∈ bs, ∀ n, b ≠ .num n)
    (h : applicationSnapshotDigest H domain as = applicationSnapshotDigest H domain bs) : as = bs :=
  frameRecords_inj has hbs (List.append_cancel_left (hH.sha256 (toHex_injective h)))

lemma values_of_fileRevisionId (hH : H.Injective) {a b : FileRevisionIdentity}
    (h : fileRevisionId H a = fileRevisionId H b) : a.values = b.values :=
  hH.blake3Framed (toHex_injective (stem_append_inj.mp h))

end Injective

end WorkspaceAtlas
