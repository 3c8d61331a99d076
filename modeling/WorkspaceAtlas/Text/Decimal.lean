/-
# Decimals of a fixed width

Numbers are written with zeros in front up to a width.  Those that fit the width are read back
from it, and of two of them the smaller one comes first as a text; so do records of such numbers
that are written one behind the other.
-/
import Mathlib.Algebra.Order.Ring.Nat
import Mathlib.Data.List.Lex
import Mathlib.Tactic.Common

namespace Text

/-- The last `w` digits of a number. -/
def decimal : ℕ → ℕ → List Char
  | 0, _ => []
  | w + 1, n => decimal w (n / 10) ++ [Nat.digitChar (n % 10)]

/-- The number with zeros in front up to the width. -/
def padded (w n : ℕ) : List Char :=
  List.replicate (w - (Nat.toDigits 10 n).length) '0' ++ Nat.toDigits 10 n

/-- The number that digits are for. -/
def ofDigits (l : List Char) : ℕ := l.foldl (fun n c => 10 * n + (c.toNat - 48)) 0

variable {w n a b : ℕ} {l l' : List Char}

@[simp] lemma length_decimal (w n : ℕ) : (decimal w n).length = w := by
  induction w generalizing n with
  | zero => rfl
  | succ w ih => rw [decimal, List.length_append, ih, List.length_singleton]

lemma decimal_zero (w : ℕ) : decimal w 0 = List.replicate w '0' := by
  induction w with
  | zero => rfl
  | succ w ih => rw [decimal, Nat.zero_div, ih, List.replicate_succ']; rfl

/-- A number that fits the width is written with the digits it has. -/
lemma padded_eq_decimal (hw : 0 < w) (h : n < 10 ^ w) : padded w n = decimal w n := by
  induction w generalizing n with
  | zero => exact absurd hw (lt_irrefl 0)
  | succ w ih =>
    rw [Nat.pow_succ] at h
    rcases lt_or_ge n 10 with hn | hn
    · rw [padded, decimal, Nat.toDigits_of_lt_base hn, Nat.div_eq_of_lt hn, decimal_zero,
        Nat.mod_eq_of_lt hn]
      rfl
    · have hw : 0 < w := by
        rcases Nat.eq_zero_or_pos w with rfl | hw
        · omega
        · exact hw
      have hdigits : Nat.toDigits 10 n = Nat.toDigits 10 (n / 10) ++ [Nat.digitChar (n % 10)] := by
        have happend := Nat.toDigits_append_toDigits (b := 10) (n := n / 10) (d := n % 10)
          (by omega) (by omega) (by omega)
        rw [Nat.toDigits_of_lt_base (Nat.mod_lt n (by omega)), Nat.div_add_mod] at happend
        exact happend.symm
      rw [decimal, ← ih hw (by omega), padded, padded, hdigits, List.length_append,
        List.length_singleton, Nat.add_sub_add_right, List.append_assoc]

lemma toNat_digitChar_sub (n : ℕ) : (Nat.digitChar (n % 10)).toNat - 48 = n % 10 :=
  Nat.toNat_digitChar_sub_48_of_lt_ten (by omega)

/-- **Reading back.** -/
lemma ofDigits_decimal (h : n < 10 ^ w) : ofDigits (decimal w n) = n := by
  induction w generalizing n with
  | zero => exact (Nat.lt_one_iff.mp h).symm
  | succ w ih =>
    rw [Nat.pow_succ] at h
    have hfront := ih (n := n / 10) (by omega)
    rw [ofDigits] at hfront
    rw [ofDigits, decimal, List.foldl_append, hfront, List.foldl_cons, List.foldl_nil,
      toNat_digitChar_sub]
    omega

/-! ## Order -/

lemma append_lt_append_of_length (hlen : l.length = l'.length) (h : l < l') (r r' : List Char) :
    l ++ r < l' ++ r' := by
  induction l generalizing l' with
  | nil =>
    rw [List.eq_nil_of_length_eq_zero hlen.symm] at h
    exact absurd h (List.not_lt_nil _)
  | cons c l ih =>
    cases l' with
    | nil => exact absurd h (List.not_lt_nil _)
    | cons c' l' =>
      rw [List.cons_append, List.cons_append, List.cons_lt_cons_iff]
      rcases List.cons_lt_cons_iff.mp h with hc | ⟨rfl, hl⟩
      · exact .inl hc
      · exact .inr ⟨rfl, ih (Nat.succ.inj hlen) hl⟩

lemma digitChar_lt (h : a % 10 < b % 10) : Nat.digitChar (a % 10) < Nat.digitChar (b % 10) := by
  have hall : ∀ i < 10, ∀ j < i, Nat.digitChar j < Nat.digitChar i := by decide
  exact hall _ (by omega) _ h

/-- The smaller number comes first. -/
lemma decimal_lt (h : a < b) (hb : b < 10 ^ w) : decimal w a < decimal w b := by
  induction w generalizing a b with
  | zero => exact absurd (Nat.lt_one_iff.mp hb) (by omega)
  | succ w ih =>
    rw [Nat.pow_succ] at hb
    rw [decimal, decimal]
    rcases lt_or_ge (a / 10) (b / 10) with hfront | hfront
    · exact append_lt_append_of_length (by simp) (ih hfront (by omega)) _ _
    · have heq : a / 10 = b / 10 := by omega
      rw [heq]
      exact List.append_left_lt (List.cons_lt_cons_iff.mpr (.inl (digitChar_lt (by omega))))

/-! ## Records -/

/-- Numbers one behind the other, each with its width and the character behind it. -/
def record : List (ℕ × Char) → List ℕ → List Char
  | (w, c) :: layout, n :: ns => decimal w n ++ c :: record layout ns
  | _, _ => []

/-- The numbers of a record. -/
def readRecord : List (ℕ × Char) → List Char → List ℕ
  | [], _ => []
  | (w, _) :: layout, l => ofDigits (l.take w) :: readRecord layout (l.drop (w + 1))

/-- The numbers fit their widths. -/
def Fits : List (ℕ × Char) → List ℕ → Prop
  | [], [] => True
  | (w, _) :: layout, n :: ns => n < 10 ^ w ∧ Fits layout ns
  | _, _ => False

variable {layout : List (ℕ × Char)} {ns ns' : List ℕ}

/-- **Reading back** a record. -/
lemma readRecord_record (h : Fits layout ns) : readRecord layout (record layout ns) = ns := by
  induction layout generalizing ns with
  | nil =>
    cases ns with
    | nil => rfl
    | cons n ns => exact h.elim
  | cons p layout ih =>
    cases ns with
    | nil => exact h.elim
    | cons n ns =>
      obtain ⟨hn, hns⟩ := h
      have htake : (decimal p.1 n ++ p.2 :: record layout ns).take p.1 = decimal p.1 n :=
        List.take_left' (length_decimal p.1 n)
      have hdrop : (decimal p.1 n ++ p.2 :: record layout ns).drop (p.1 + 1) =
          record layout ns := by
        rw [← List.drop_drop, List.drop_left' (length_decimal p.1 n)]
        rfl
      rw [record, readRecord, htake, hdrop, ofDigits_decimal hn, ih hns]

/-- **Order.**  Records come in the order of their numbers. -/
lemma record_lt (h : Fits layout ns) (h' : Fits layout ns') (hlt : ns < ns') :
    record layout ns < record layout ns' := by
  induction layout generalizing ns ns' with
  | nil =>
    cases ns' with
    | nil => exact absurd hlt (List.not_lt_nil _)
    | cons n' ns' => exact h'.elim
  | cons p layout ih =>
    cases ns with
    | nil => exact h.elim
    | cons n ns =>
      cases ns' with
      | nil => exact h'.elim
      | cons n' ns' =>
        rw [record, record]
        rcases List.cons_lt_cons_iff.mp hlt with hn | ⟨rfl, hns⟩
        · exact append_lt_append_of_length (by simp) (decimal_lt hn h'.1) _ _
        · exact List.append_left_lt (List.cons_lt_cons_iff.mpr (.inr ⟨rfl, ih h.2 h'.2 hns⟩))

end Text
