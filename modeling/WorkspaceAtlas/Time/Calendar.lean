/-
# The calendar

The proleptic Gregorian calendar from 1970 on, by its rules for leap years and the lengths of
months.  A moment is given by fields in their ranges, and what has passed before it is counted by
adding up the years and the months.
-/
import Mathlib.Algebra.BigOperators.Intervals
import Mathlib.Algebra.Order.BigOperators.Group.Finset
import Mathlib.Data.List.Lex

namespace Time

open Finset

/-! ## Years and months -/

/-- The leap years. -/
def IsLeap (y : ℕ) : Prop := 4 ∣ y ∧ (100 ∣ y → 400 ∣ y)

instance (y : ℕ) : Decidable (IsLeap y) := inferInstanceAs (Decidable (_ ∧ _))

def yearLength (y : ℕ) : ℕ := if IsLeap y then 366 else 365

def monthLength (y m : ℕ) : ℕ :=
  match m with
  | 2 => if IsLeap y then 29 else 28
  | 4 | 6 | 9 | 11 => 30
  | _ => 31

/-- The days of the years from 1970 to the one before `y`. -/
def daysBeforeYear (y : ℕ) : ℕ := ∑ k ∈ Ico 1970 y, yearLength k

/-- The days of the months of the year `y` before `m`. -/
def daysBeforeMonth (y m : ℕ) : ℕ := ∑ k ∈ Ico 1 m, monthLength y k

lemma daysBeforeYear_succ {y : ℕ} (h : 1970 ≤ y) :
    daysBeforeYear (y + 1) = daysBeforeYear y + yearLength y :=
  sum_Ico_succ_top h _

lemma daysBeforeYear_mono : Monotone daysBeforeYear := fun _ _ h =>
  sum_le_sum_of_subset (Ico_subset_Ico_right h)

lemma daysBeforeMonth_succ (y : ℕ) {m : ℕ} (h : 1 ≤ m) :
    daysBeforeMonth y (m + 1) = daysBeforeMonth y m + monthLength y m :=
  sum_Ico_succ_top h _

lemma daysBeforeMonth_mono (y : ℕ) : Monotone (daysBeforeMonth y) := fun _ _ h =>
  sum_le_sum_of_subset (Ico_subset_Ico_right h)

/-- The twelve months make up the year. -/
lemma daysBeforeMonth_thirteen (y : ℕ) : daysBeforeMonth y 13 = yearLength y := by
  simp only [daysBeforeMonth, yearLength, monthLength, sum_Ico_succ_top, Ico_self, sum_empty,
    Nat.reduceLeDiff]
  split_ifs <;> rfl

/-- The leap years are counted by three divisions. -/
lemma daysBeforeYear_eq {y : ℕ} (h : 1970 ≤ y) :
    (daysBeforeYear y : ℤ) =
      365 * (y - 1970) + ((y - 1) / 4 - (y - 1) / 100 + (y - 1) / 400) - 477 := by
  induction y, h using Nat.le_induction with
  | base => rfl
  | succ y h ih =>
    rw [daysBeforeYear_succ h, Int.natCast_add, ih, yearLength]
    split_ifs with hleap
    · rw [IsLeap] at hleap
      push_cast
      omega
    · rw [IsLeap] at hleap
      push_cast
      omega

/-! ## Moments -/

/-- A moment with milliseconds, whose fields are in their ranges. -/
structure Moment where
  year : ℕ
  month : ℕ
  day : ℕ
  hour : ℕ
  minute : ℕ
  second : ℕ
  milli : ℕ
  year_ge : 1970 ≤ year
  month_mem : 1 ≤ month ∧ month ≤ 12
  day_mem : 1 ≤ day ∧ day ≤ monthLength year month
  hour_lt : hour < 24
  minute_lt : minute < 60
  second_lt : second < 60
  milli_lt : milli < 1000

namespace Moment

variable {a b : Moment}

/-- The fields from the longest unit to the shortest. -/
def fields (a : Moment) : List ℕ :=
  [a.year, a.month, a.day, a.hour, a.minute, a.second, a.milli]

/-- The days before the one of the moment. -/
def days (a : Moment) : ℕ :=
  daysBeforeYear a.year + daysBeforeMonth a.year a.month + (a.day - 1)

/-- The milliseconds since the start of 1970. -/
def millis (a : Moment) : ℕ :=
  (((a.days * 24 + a.hour) * 60 + a.minute) * 60 + a.second) * 1000 + a.milli

lemma ext_fields (h : a.fields = b.fields) : a = b := by
  cases a
  cases b
  simp only [fields, List.cons.injEq, and_true] at h
  obtain ⟨rfl, rfl, rfl, rfl, rfl, rfl, rfl⟩ := h
  rfl

/-- A day comes before the end of its month. -/
lemma days_lt_month (a : Moment) :
    a.days < daysBeforeYear a.year + daysBeforeMonth a.year (a.month + 1) := by
  have hday := a.day_mem
  rw [days, daysBeforeMonth_succ _ a.month_mem.1]
  omega

/-- A day comes before the end of its year. -/
lemma days_lt_year (a : Moment) : a.days < daysBeforeYear (a.year + 1) := by
  have hmonth := daysBeforeMonth_mono a.year (Nat.succ_le_succ a.month_mem.2)
  rw [daysBeforeMonth_thirteen] at hmonth
  rw [daysBeforeYear_succ a.year_ge]
  exact a.days_lt_month.trans_le (Nat.add_le_add_left hmonth _)

lemma days_lt_of_year (h : a.year < b.year) : a.days < b.days :=
  calc a.days < daysBeforeYear (a.year + 1) := a.days_lt_year
    _ ≤ daysBeforeYear b.year := daysBeforeYear_mono h
    _ ≤ b.days := (Nat.le_add_right _ _).trans (Nat.le_add_right _ _)

lemma days_lt_of_month (hyear : a.year = b.year) (h : a.month < b.month) : a.days < b.days :=
  calc a.days < daysBeforeYear a.year + daysBeforeMonth a.year (a.month + 1) := a.days_lt_month
    _ ≤ daysBeforeYear b.year + daysBeforeMonth b.year b.month := by
      rw [hyear]
      exact Nat.add_le_add_left (daysBeforeMonth_mono _ h) _
    _ ≤ b.days := Nat.le_add_right _ _

lemma days_lt_of_day (hyear : a.year = b.year) (hmonth : a.month = b.month) (h : a.day < b.day) :
    a.days < b.days := by
  have ha := a.day_mem
  rw [days, days, hyear, hmonth]
  omega

lemma millis_lt_of_days (h : a.days < b.days) : a.millis < b.millis := by
  have hhour := a.hour_lt
  have hminute := a.minute_lt
  have hsecond := a.second_lt
  have hmilli := a.milli_lt
  rw [millis, millis]
  omega

/-- What comes later by the fields comes later. -/
lemma millis_lt_of_fields (h : a.fields < b.fields) : a.millis < b.millis := by
  have hminute := a.minute_lt
  have hsecond := a.second_lt
  have hmilli := a.milli_lt
  simp only [fields, List.cons_lt_cons_iff, List.not_lt_nil, and_false, or_false] at h
  rcases h with h | ⟨hyear, h | ⟨hmonth, h | ⟨hday, h⟩⟩⟩
  · exact millis_lt_of_days (days_lt_of_year h)
  · exact millis_lt_of_days (days_lt_of_month hyear h)
  · exact millis_lt_of_days (days_lt_of_day hyear hmonth h)
  · -- one day: the fields of the time
    have hdays : a.days = b.days := by rw [days, days, hyear, hmonth, hday]
    rw [millis, millis, hdays]
    omega

/-- **Order.**  Moments are ordered as their fields are. -/
theorem fields_lt_iff : a.fields < b.fields ↔ a.millis < b.millis := by
  refine ⟨millis_lt_of_fields, fun h => ?_⟩
  rcases lt_trichotomy a.fields b.fields with hlt | heq | hgt
  · exact hlt
  · exact absurd h (by rw [ext_fields heq]; exact lt_irrefl _)
  · exact absurd h (millis_lt_of_fields hgt).not_gt

end Moment

end Time
