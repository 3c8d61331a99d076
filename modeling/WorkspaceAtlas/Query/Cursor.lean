/-
# Cursors

`QueryCursor`: an opaque token that says where a query goes on.  It is the hexadecimal text of
five fields with a separator between them; the last one is a path, which may have the separator
in it.
-/
import WorkspaceAtlas.Catalogue.Ids
import WorkspaceAtlas.Text.Debug
import Mathlib.Data.String.Basic

namespace WorkspaceAtlas

open Text

/-! ## Hex -/

/-- The value of a hexadecimal digit of either case. -/
def hexValue (c : Char) : Option ℕ :=
  if '0' ≤ c ∧ c ≤ '9' then some (c.toNat - '0'.toNat)
  else if 'a' ≤ c ∧ c ≤ 'f' then some (c.toNat - 'a'.toNat + 10)
  else if 'A' ≤ c ∧ c ≤ 'F' then some (c.toNat - 'A'.toNat + 10)
  else none

/-- `hex::decode`. -/
def hexDecode : List Char → Option (List UInt8)
  | [] => some []
  | [_] => none
  | high :: low :: rest => do
    let h ← hexValue high
    let l ← hexValue low
    let bytes ← hexDecode rest
    return UInt8.ofNat (16 * h + l) :: bytes

lemma hexValue_hexDigit {n : ℕ} (hn : n < 16) : hexValue (hexDigit n) = some n := by
  have hall : ∀ n : Fin 16, hexValue (hexDigit n) = some n.val := by decide
  exact hall ⟨n, hn⟩

lemma hexDecode_hexDigits (bytes : List UInt8) : hexDecode (hexDigits bytes) = some bytes := by
  induction bytes with
  | nil => rfl
  | cons b bytes ih =>
    have hb := b.toNat_lt
    have hbyte : UInt8.ofNat (16 * (b.toNat / 16) + b.toNat % 16) = b := by
      rw [Nat.div_add_mod]
      exact UInt8.ofNat_toNat
    show hexDecode (hexDigit (b.toNat / 16) :: hexDigit (b.toNat % 16) :: hexDigits bytes) = _
    rw [hexDecode, hexValue_hexDigit (by omega), hexValue_hexDigit (by omega), ih]
    exact congrArg some (by rw [hbyte])

/-! ## The cursor -/

/-- `QueryCursor`. -/
structure QueryCursor where
  workspaceId : String
  generationId : String
  queryHash : String
  orderingVersion : String
  lastSortKey : String
  deriving DecidableEq, Repr

namespace QueryCursor

/-- The text of a token. -/
def raw (c : QueryCursor) : List Char :=
  ['\x1f'].intercalate [c.workspaceId.toList, c.generationId.toList, c.queryHash.toList,
    c.orderingVersion.toList, c.lastSortKey.toList]

/-- `encode`. -/
def encode (c : QueryCursor) : String := toHex (utf8 (String.ofList c.raw))

/-- `decode`: what follows a separator in the last field is ignored. -/
def decode (token : String) : Option QueryCursor := do
  let bytes ← hexDecode token.toList
  let raw ← String.fromUTF8? ⟨bytes.toArray⟩
  match raw.toList.splitOn '\x1f' with
  | workspaceId :: generationId :: queryHash :: orderingVersion :: lastSortKey :: _ =>
    some ⟨String.ofList workspaceId, String.ofList generationId, String.ofList queryHash,
      String.ofList orderingVersion, String.ofList lastSortKey⟩
  | _ => none

/-- `is_valid_for`. -/
def isValidFor (c : QueryCursor) (workspaceId generationId queryHash orderingVersion : String) :
    Bool :=
  c.workspaceId = workspaceId ∧ c.generationId = generationId ∧ c.queryHash = queryHash ∧
    c.orderingVersion = orderingVersion

/-- What a token keeps of a key. -/
def keptKey (key : String) : String :=
  String.ofList ((key.toList.splitOn '\x1f').head (List.splitOn_ne_nil _ _))

lemma keptKey_of_notMem {key : String} (h : '\x1f' ∉ key.toList) : keptKey key = key := by
  simp only [keptKey, List.splitOn_eq_singleton h, List.head_cons, String.ofList_toList]

/-- A token keeps the start of a key, and loses the separator. -/
lemma keptKey_spec (key : String) :
    (keptKey key).toList <+: key.toList ∧ '\x1f' ∉ (keptKey key).toList := by
  by_cases h : '\x1f' ∈ key.toList
  · obtain ⟨a, b, hkey, ha⟩ := List.eq_append_cons_of_mem h
    have hkept : (keptKey key).toList = a := by
      rw [keptKey, String.toList_ofList]
      simp only [hkey, List.splitOn_append_cons_self_of_not_mem ha, List.head_cons]
    rw [hkept]
    exact ⟨hkey ▸ List.prefix_append _ _, ha⟩
  · rw [keptKey_of_notMem h]
    exact ⟨List.prefix_rfl, h⟩

lemma keptKey_le (key : String) : keptKey key ≤ key :=
  not_lt.mp fun hlt => (keptKey_spec key).1.le (String.lt_iff_toList_lt.mp hlt)

lemma keptKey_eq_iff {key : String} : keptKey key = key ↔ '\x1f' ∉ key.toList :=
  ⟨fun h => h ▸ (keptKey_spec key).2, keptKey_of_notMem⟩

/-- A token gives the cursor back, up to the separators of its key. -/
lemma decode_encode {c : QueryCursor} (hws : '\x1f' ∉ c.workspaceId.toList)
    (hgid : '\x1f' ∉ c.generationId.toList) (hhash : '\x1f' ∉ c.queryHash.toList)
    (hversion : '\x1f' ∉ c.orderingVersion.toList) :
    decode c.encode = some { c with lastSortKey := keptKey c.lastSortKey } := by
  have hutf8 : String.fromUTF8? ⟨(utf8 (String.ofList c.raw)).toArray⟩ =
      some (String.ofList c.raw) := by
    have hbytes : (⟨(utf8 (String.ofList c.raw)).toArray⟩ : ByteArray) =
        (String.ofList c.raw).toByteArray := rfl
    rw [hbytes, String.fromUTF8?, dif_pos (String.ofList c.raw).isValidUTF8]
    rfl
  have hsplit : c.raw.splitOn '\x1f' = c.workspaceId.toList :: c.generationId.toList ::
      c.queryHash.toList :: c.orderingVersion.toList :: c.lastSortKey.toList.splitOn '\x1f' := by
    simp only [raw, List.intercalate_cons_cons, List.intercalate_singleton, List.append_assoc,
      List.singleton_append, List.splitOn_append_cons_self_of_not_mem hws,
      List.splitOn_append_cons_self_of_not_mem hgid,
      List.splitOn_append_cons_self_of_not_mem hhash,
      List.splitOn_append_cons_self_of_not_mem hversion]
  obtain ⟨kept, rest, hkept⟩ :=
    List.exists_cons_of_ne_nil (List.splitOn_ne_nil '\x1f' c.lastSortKey.toList)
  rw [decode, encode, toHex, String.toList_ofList, hexDecode_hexDigits]
  simp only [Option.bind_eq_bind, Option.bind_some, hutf8, String.toList_ofList, hsplit, hkept,
    String.ofList_toList]
  simp only [keptKey, hkept, List.head_cons]

end QueryCursor

end WorkspaceAtlas
