/-
# The bytes of a text

A byte below 128 is a character of its own, so that the places of such bytes are boundaries between
characters.
-/
import WorkspaceAtlas.Text.Bytes

namespace Text

variable {a b r s t : List Char} {c : Char} {u : UInt8} {i n : ℕ}

/-- `str::as_bytes`. -/
def bytesOf (s : List Char) : List UInt8 := s.flatMap String.utf8EncodeChar

/-- `str::is_char_boundary`, for offsets in the text. -/
def OnBoundary (s : List Char) (n : ℕ) : Prop := ∃ a b, s = a ++ b ∧ byteLen a = n

lemma bytesOf_append (a b : List Char) : bytesOf (a ++ b) = bytesOf a ++ bytesOf b :=
  List.flatMap_append

lemma bytesOf_cons (c : Char) (s : List Char) :
    bytesOf (c :: s) = String.utf8EncodeChar c ++ bytesOf s :=
  List.flatMap_cons

lemma length_bytesOf (s : List Char) : (bytesOf s).length = byteLen s := by
  induction s with
  | nil => rfl
  | cons c s ih =>
    rw [bytesOf_cons, List.length_append, String.length_utf8EncodeChar, ih, byteLen_head]

/-- A byte below 128 of a character is all of it. -/
lemma encodeChar_ascii (hu : u ∈ String.utf8EncodeChar c) (hlt : u.toNat < 128) :
    String.utf8EncodeChar c = [u] ∧ c.toNat = u.toNat := by
  have hbyte : ∀ n, n < 256 → (UInt8.ofNat n).toNat = n := fun n hn => by
    rw [UInt8.toNat_ofNat', Nat.mod_eq_of_lt hn]
  rw [String.utf8EncodeChar] at hu ⊢
  by_cases hone : c.val.toNat ≤ 0x7f
  · rw [if_pos hone] at hu ⊢
    obtain rfl := List.mem_singleton.mp hu
    exact ⟨rfl, (hbyte c.val.toNat (by omega)).symm⟩
  · -- the bytes of a longer code are all greater
    rw [if_neg hone] at hu
    split_ifs at hu
    all_goals
      simp only [List.mem_cons, List.not_mem_nil, or_false] at hu
    · rcases hu with rfl | rfl <;> rw [hbyte _ (by omega)] at hlt <;> omega
    · rcases hu with rfl | rfl | rfl <;> rw [hbyte _ (by omega)] at hlt <;> omega
    · rcases hu with rfl | rfl | rfl | rfl <;> rw [hbyte _ (by omega)] at hlt <;> omega

/-- **Boundaries.**  Where a byte below 128 stands, a character starts that is this byte. -/
lemma exists_of_getElem? (h : (bytesOf s)[i]? = some u) (hlt : u.toNat < 128) :
    ∃ a c r, s = a ++ c :: r ∧ byteLen a = i ∧ c.utf8Size = 1 ∧ c.toNat = u.toNat := by
  induction s generalizing i with
  | nil => exact absurd h (by simp [bytesOf])
  | cons c s ih =>
    rw [bytesOf_cons] at h
    rcases Nat.lt_or_ge i (String.utf8EncodeChar c).length with hin | hout
    · rw [List.getElem?_append_left hin] at h
      obtain ⟨henc, hc⟩ := encodeChar_ascii (List.mem_of_getElem? h) hlt
      have hsize : c.utf8Size = 1 := by
        rw [← String.length_utf8EncodeChar, henc]
        rfl
      rw [String.length_utf8EncodeChar, hsize] at hin
      obtain rfl : i = 0 := by omega
      exact ⟨[], c, s, rfl, rfl, hsize, hc⟩
    · rw [List.getElem?_append_right hout] at h
      obtain ⟨a, d, r, rfl, hlen, hd⟩ := ih h
      refine ⟨c :: a, d, r, rfl, ?_, hd⟩
      rw [String.length_utf8EncodeChar] at hout hlen
      rw [byteLen_head, hlen]
      omega

lemma onBoundary_append (a b : List Char) : OnBoundary (a ++ b) (byteLen a) := ⟨a, b, rfl, rfl⟩

lemma onBoundary_byteLen (s : List Char) : OnBoundary s (byteLen s) :=
  ⟨s, [], (List.append_nil s).symm, rfl⟩

lemma OnBoundary.le (h : OnBoundary s n) : n ≤ byteLen s := by
  obtain ⟨a, b, rfl, rfl⟩ := h
  rw [byteLen_add]
  omega

/-- A byte below 128 has a boundary before it and one behind it. -/
lemma onBoundary_of_getElem? (h : (bytesOf s)[i]? = some u) (hlt : u.toNat < 128) :
    OnBoundary s i ∧ OnBoundary s (i + 1) := by
  obtain ⟨a, c, r, rfl, rfl, hsize, -⟩ := exists_of_getElem? h hlt
  refine ⟨onBoundary_append _ _, ?_⟩
  have hbehind := onBoundary_append (a ++ [c]) r
  rw [byteLen_add, byteLen_head, hsize, List.append_assoc] at hbehind
  exact hbehind

/-- A byte below 128 of a text is a character of it. -/
lemma exists_of_mem_bytesOf (h : u ∈ bytesOf s) (hlt : u.toNat < 128) :
    ∃ c ∈ s, c.toNat = u.toNat := by
  obtain ⟨i, hi⟩ := List.mem_iff_getElem?.mp h
  obtain ⟨a, c, r, rfl, -, -, hc⟩ := exists_of_getElem? hi hlt
  exact ⟨c, List.mem_append_right a List.mem_cons_self, hc⟩

end Text
