/-
# Stamps as texts

`iso8601_now` and `now_plus_iso8601`: the text of a number of milliseconds, by the arithmetic of
eras.  Every operation on `i64` is checked.  Until the end of the year 9999 none overflows, the
text is the date and the time of the calendar, and texts come in the order of their instants.
-/
import Mathlib.Data.String.Basic
import Mathlib.Tactic.IntervalCases
import WorkspaceAtlas.Catalogue.WriterLease
import WorkspaceAtlas.Text.Decimal
import WorkspaceAtlas.Time.Calendar

namespace WorkspaceAtlas

open Text Time

/-! ## The code -/

/-- The result of an operation on `i64`, if it does not overflow. -/
def i64 (n : ℤ) : Option ℤ :=
  if -9223372036854775808 ≤ n ∧ n ≤ 9223372036854775807 then some n else none

/-- `n as i64`. -/
def asI64 (n : ℕ) : ℤ := (n : ℤ).bmod 18446744073709551616

/-- `{:0w}` of an integer. -/
def zeroPadded (w : ℕ) (n : ℤ) : List Char :=
  if n < 0 then '-' :: padded (w - 1) n.natAbs else padded w n.natAbs

/-- The year of an era: `yoe` of `doe`. -/
def yearOfEra (doe : ℤ) : Option ℤ := do
  let a ← i64 (doe - (← i64 (doe.tdiv 1460)))
  let b ← i64 (a + (← i64 (doe.tdiv 36524)))
  let c ← i64 (b - (← i64 (doe.tdiv 146096)))
  i64 (c.tdiv 365)

/-- The day of the year that starts in March: `doy` of `doe` and `yoe`. -/
def dayOfYear (doe yoe : ℤ) : Option ℤ := do
  let a ← i64 ((← i64 (365 * yoe)) + (← i64 (yoe.tdiv 4)))
  let b ← i64 (a - (← i64 (yoe.tdiv 100)))
  i64 (doe - b)

/-- The month of that year and the day in it: `mp` and `d` of `doy`. -/
def monthAndDay (doy : ℤ) : Option (ℤ × ℤ) := do
  let mp ← i64 ((← i64 ((← i64 (5 * doy)) + 2)).tdiv 153)
  let start ← i64 ((← i64 ((← i64 (153 * mp)) + 2)).tdiv 5)
  let d ← i64 ((← i64 (doy - start)) + 1)
  return (mp, d)

/-- Civil from days. -/
def civilFromDays (days : ℤ) : Option (ℤ × ℤ × ℤ) := do
  let z ← i64 (days + 719468)
  let era ← i64 (z / 146097)
  let doe ← i64 (z % 146097)
  let yoe ← yearOfEra doe
  let y ← i64 (yoe + (← i64 (era * 400)))
  let doy ← dayOfYear doe yoe
  let (mp, d) ← monthAndDay doy
  let m ← if mp < 10 then i64 (mp + 3) else i64 (mp - 9)
  let y ← if m ≤ 2 then i64 (y + 1) else some y
  return (y, m, d)

/-- The text that both functions build of the milliseconds since the epoch. -/
def stampText (totalMs : ℕ) : Option String := do
  let secs := asI64 (totalMs / 1000)
  let ms := totalMs % 1000 % 2 ^ 32
  let days ← i64 (secs / 86400)
  let secsOfDay ← i64 (secs % 86400)
  let hour ← i64 (secsOfDay.tdiv 3600)
  let minute ← i64 ((← i64 (secsOfDay.tmod 3600)).tdiv 60)
  let second ← i64 (secsOfDay.tmod 60)
  let (y, m, d) ← civilFromDays days
  return String.ofList (zeroPadded 4 y ++ '-' :: (zeroPadded 2 m ++ '-' :: (zeroPadded 2 d ++
    'T' :: (zeroPadded 2 hour ++ ':' :: (zeroPadded 2 minute ++ ':' :: (zeroPadded 2 second ++
      '.' :: (padded 3 ms ++ ['Z'])))))))

/-- `iso8601_now`, at an instant in nanoseconds since the epoch. -/
def iso8601Now (now : ℕ) : Option String := stampText (iso8601 now)

/-- `now_plus_iso8601`. -/
def nowPlusIso8601Text (now duration : ℕ) : Option String :=
  stampText (Lease.nowPlusIso8601 now duration)

/-! ## Checked arithmetic -/

section Checked

variable {n k : ℤ}

lemma i64_eq (h : -9223372036854775808 ≤ n) (h' : n ≤ 9223372036854775807) : i64 n = some n :=
  if_pos ⟨h, h'⟩

lemma i64_tdiv (h : 0 ≤ n) (h' : n ≤ 9223372036854775807) (hk : 0 < k) :
    i64 (n.tdiv k) = some (n / k) := by
  have hle : n / k ≤ n := Int.ediv_le_self k h
  have hge : 0 ≤ n / k := Int.ediv_nonneg h hk.le
  rw [Int.tdiv_eq_ediv_of_nonneg h]
  exact i64_eq (by omega) (by omega)

lemma i64_tmod (h : 0 ≤ n) (h' : n ≤ 9223372036854775807) (hk : 0 < k) :
    i64 (n.tmod k) = some (n % k) := by
  have hle : n % k ≤ n := by
    have hdiv := Int.mul_ediv_add_emod n k
    have hmul := Int.mul_nonneg hk.le (Int.ediv_nonneg h hk.le)
    omega
  have hge : 0 ≤ n % k := Int.emod_nonneg n hk.ne'
  rw [Int.tmod_eq_emod_of_nonneg h]
  exact i64_eq (by omega) (by omega)

lemma asI64_eq {n : ℕ} (h : n ≤ 9223372036854775807) : asI64 n = n := by
  unfold asI64
  generalize hm : 18446744073709551616 = m
  exact Int.bmod_eq_of_le (by omega) (by omega)

end Checked

/-! ## Eras -/

section Eras

variable {q p s r doe yoe mp : ℤ}

/-- A day of an era of 400 years: its century, its four years, its year, and the day of a year that
starts in March.  Only a leap year has a day 365. -/
structure OfEra (doe q p s r : ℤ) : Prop where
  century : 0 ≤ q ∧ q ≤ 3
  cycle : 0 ≤ p ∧ p ≤ 24
  year : 0 ≤ s ∧ s ≤ 3
  day : 0 ≤ r ∧ r ≤ 365
  leap : r = 365 → s = 3 ∧ (p < 24 ∨ q = 3)
  sum : doe = 36524 * q + 1461 * p + 365 * s + r

lemma exists_ofEra (h : 0 ≤ doe) (h' : doe < 146097) : ∃ q p s r, OfEra doe q p s r := by
  have hq : ∃ q rest : ℤ, (0 ≤ q ∧ q ≤ 3) ∧ (0 ≤ rest ∧ (rest < 36524 ∨ q = 3 ∧ rest = 36524)) ∧
      doe = 36524 * q + rest := by
    rcases lt_or_ge doe 146096 with hlt | hge
    · exact ⟨doe / 36524, doe % 36524, by omega, by omega, by omega⟩
    · exact ⟨3, 36524, by omega, by omega, by omega⟩
  obtain ⟨q, rest, hq, hrest, rfl⟩ := hq
  have hs : ∃ s r : ℤ, (0 ≤ s ∧ s ≤ 3) ∧ (0 ≤ r ∧ r ≤ 365) ∧ (r = 365 → s = 3) ∧
      rest % 1461 = 365 * s + r := by
    rcases lt_or_ge (rest % 1461) 1460 with hlt | hge
    · exact ⟨rest % 1461 / 365, rest % 1461 % 365, by omega, by omega, by omega, by omega⟩
    · exact ⟨3, 365, by omega, by omega, by omega, by omega⟩
  obtain ⟨s, r, hs, hr, hleap, hsum⟩ := hs
  exact ⟨q, rest / 1461, s, r, hq, by omega, hs, hr, fun h => ⟨hleap h, by omega⟩, by omega⟩

/-- The three corrections leave the days of whole years of 365 days. -/
lemma OfEra.year_eq (h : OfEra doe q p s r) :
    (doe - doe / 1460 + doe / 36524 - doe / 146096) / 365 = 100 * q + 4 * p + s := by
  obtain ⟨hq, hp, hs, hr, hleap, hsum⟩ := h
  by_cases hlast : r = 365 ∧ p = 24
  · -- the last day of the era
    obtain ⟨rfl, rfl⟩ := hlast
    obtain ⟨rfl, hq'⟩ := hleap rfl
    have ha : doe / 1460 = 25 * q + 25 := by omega
    have hb : doe / 36524 = q + 1 := by omega
    have hc : doe / 146096 = 1 := by omega
    rw [ha, hb, hc]
    omega
  · have hb : doe / 36524 = q := by omega
    have hc : doe / 146096 = 0 := by omega
    rcases lt_or_ge (24 * q + p + 365 * s + r) 1460 with hlt | hge
    · have ha : doe / 1460 = 25 * q + p := by omega
      rw [ha, hb, hc]
      omega
    · have ha : doe / 1460 = 25 * q + p + 1 := by omega
      rw [ha, hb, hc]
      omega

lemma OfEra.yearOfEra (h : OfEra doe q p s r) : yearOfEra doe = some (100 * q + 4 * p + s) := by
  have hdoe : 0 ≤ doe ∧ doe < 146097 := by
    obtain ⟨hq, hp, hs, hr, -, hsum⟩ := h
    omega
  have hdiv : ∀ k : ℤ, 0 < k → i64 (doe.tdiv k) = some (doe / k) := fun k hk =>
    i64_tdiv hdoe.1 (by omega) hk
  have ha : i64 (doe - doe / 1460) = some (doe - doe / 1460) := i64_eq (by omega) (by omega)
  have hb : i64 (doe - doe / 1460 + doe / 36524) = some (doe - doe / 1460 + doe / 36524) :=
    i64_eq (by omega) (by omega)
  have hc : i64 (doe - doe / 1460 + doe / 36524 - doe / 146096) =
      some (doe - doe / 1460 + doe / 36524 - doe / 146096) := i64_eq (by omega) (by omega)
  have hd : i64 ((doe - doe / 1460 + doe / 36524 - doe / 146096).tdiv 365) =
      some (100 * q + 4 * p + s) := by
    rw [← h.year_eq]
    exact i64_tdiv (by omega) (by omega) (by omega)
  simp only [WorkspaceAtlas.yearOfEra, hdiv 1460 (by omega), hdiv 36524 (by omega),
    hdiv 146096 (by omega), Option.bind_eq_bind, Option.bind_some, ha, hb, hc, hd]

lemma OfEra.dayOfYear (h : OfEra doe q p s r) : dayOfYear doe (100 * q + 4 * p + s) = some r := by
  obtain ⟨hq, hp, hs, hr, -, hsum⟩ := h
  generalize hyoe : 100 * q + 4 * p + s = yoe
  have ha : i64 (365 * yoe) = some (365 * yoe) := i64_eq (by omega) (by omega)
  have hb : i64 (yoe.tdiv 4) = some (25 * q + p) :=
    (i64_tdiv (by omega) (by omega) (by omega)).trans (congrArg some (by omega))
  have hc : i64 (yoe.tdiv 100) = some q :=
    (i64_tdiv (by omega) (by omega) (by omega)).trans (congrArg some (by omega))
  have hd : i64 (365 * yoe + (25 * q + p)) = some (365 * yoe + (25 * q + p)) :=
    i64_eq (by omega) (by omega)
  have he : i64 (365 * yoe + (25 * q + p) - q) = some (365 * yoe + (25 * q + p) - q) :=
    i64_eq (by omega) (by omega)
  have hf : i64 (doe - (365 * yoe + (25 * q + p) - q)) = some r :=
    (i64_eq (by omega) (by omega)).trans (congrArg some (by omega))
  simp only [WorkspaceAtlas.dayOfYear, ha, hb, hc, hd, he, hf, Option.bind_eq_bind,
    Option.bind_some]

lemma monthAndDay_eq (hr : 0 ≤ r ∧ r ≤ 365) : monthAndDay r =
    some ((5 * r + 2) / 153, r - (153 * ((5 * r + 2) / 153) + 2) / 5 + 1) := by
  have ha : i64 (5 * r) = some (5 * r) := i64_eq (by omega) (by omega)
  have hb : i64 (5 * r + 2) = some (5 * r + 2) := i64_eq (by omega) (by omega)
  have hc : i64 ((5 * r + 2).tdiv 153) = some ((5 * r + 2) / 153) :=
    i64_tdiv (by omega) (by omega) (by omega)
  simp only [monthAndDay, ha, hb, hc, Option.bind_eq_bind, Option.bind_some]
  generalize hmp : (5 * r + 2) / 153 = mp
  have hd : i64 (153 * mp) = some (153 * mp) := i64_eq (by omega) (by omega)
  have he : i64 (153 * mp + 2) = some (153 * mp + 2) := i64_eq (by omega) (by omega)
  have hf : i64 ((153 * mp + 2).tdiv 5) = some ((153 * mp + 2) / 5) :=
    i64_tdiv (by omega) (by omega) (by omega)
  have hg : i64 (r - (153 * mp + 2) / 5) = some (r - (153 * mp + 2) / 5) :=
    i64_eq (by omega) (by omega)
  have hh : i64 (r - (153 * mp + 2) / 5 + 1) = some (r - (153 * mp + 2) / 5 + 1) :=
    i64_eq (by omega) (by omega)
  simp only [hd, he, hf, hg, hh, Option.bind_some, Option.pure_def]

/-! ## Years that start in March -/

/-- The months from March on, five of which have 153 days. -/
lemma daysBeforeMonth_march (y : ℕ) {k : ℕ} (hk : k ≤ 10) :
    daysBeforeMonth y (k + 3) = daysBeforeMonth y 3 + (153 * k + 2) / 5 := by
  induction k with
  | zero => rfl
  | succ k ih =>
    have hlength : monthLength y (k + 3) = (153 * (k + 1) + 2) / 5 - (153 * k + 2) / 5 := by
      have hk' : k ≤ 9 := by omega
      clear hk ih
      interval_cases k <;> rfl
    rw [Nat.add_right_comm, daysBeforeMonth_succ y (by omega), ih (by omega), hlength]
    omega

/-- What is left of a year from March on. -/
lemma daysBeforeYear_march {y : ℕ} (h : 1970 ≤ y) :
    daysBeforeYear (y + 1) = daysBeforeYear y + daysBeforeMonth y 3 + 306 := by
  have hend := daysBeforeMonth_march y (k := 10) le_rfl
  rw [daysBeforeYear_succ h, ← daysBeforeMonth_thirteen, hend]
  omega

/-- The days up to a day of an era. -/
lemma OfEra.days_eq {y days : ℕ} {era : ℤ} (h : OfEra doe q p s r) (hy : 1969 ≤ y)
    (hyear : (y : ℤ) = 400 * era + (100 * q + 4 * p + s))
    (hdays : (days : ℤ) + 719468 = 146097 * era + doe) :
    (days : ℤ) + 306 = daysBeforeYear (y + 1) + r := by
  obtain ⟨hq, hp, hs, hr, -, hsum⟩ := h
  rw [daysBeforeYear_eq (by omega)]
  push_cast
  omega

/-- A date of the calendar, `days` days after the start of 1970. -/
structure IsDate (days y m d : ℕ) : Prop where
  year_ge : 1970 ≤ y
  month_mem : 1 ≤ m ∧ m ≤ 12
  day_mem : 1 ≤ d ∧ d ≤ monthLength y m
  sum : daysBeforeYear y + daysBeforeMonth y m + (d - 1) = days

/-- From March to December. -/
lemma isDate_march {y days k r : ℕ} (hdays : days + 306 = daysBeforeYear (y + 1) + r)
    (hy : 1969 ≤ y) (hk : k = (5 * r + 2) / 153) (hlt : k < 10) :
    IsDate days y (k + 3) (r - (153 * k + 2) / 5 + 1) := by
  have hyear : 1970 ≤ y := by
    rcases Nat.eq_or_lt_of_le hy with rfl | h
    · rw [show daysBeforeYear (1969 + 1) = 0 from rfl] at hdays
      omega
    · exact h
  have hstart := daysBeforeMonth_march y (k := k) (by omega)
  have hnext := daysBeforeMonth_march y (k := k + 1) (by omega)
  rw [Nat.add_right_comm, daysBeforeMonth_succ y (by omega), hstart] at hnext
  rw [daysBeforeYear_march hyear] at hdays
  refine ⟨hyear, by omega, ⟨by omega, by omega⟩, ?_⟩
  rw [hstart]
  omega

/-- January and February. -/
lemma isDate_january {y days k r : ℕ} (hdays : days + 306 = daysBeforeYear (y + 1) + r)
    (hy : 1969 ≤ y) (hr : r ≤ 365) (hleap : r = 365 → IsLeap (y + 1))
    (hk : k = (5 * r + 2) / 153) (hge : 10 ≤ k) :
    IsDate days (y + 1) (k - 9) (r - (153 * k + 2) / 5 + 1) := by
  rcases Nat.eq_or_lt_of_le hge with h | h
  · -- January
    obtain rfl : k = 10 := h.symm
    have hlength : monthLength (y + 1) 1 = 31 := rfl
    have hstart : daysBeforeMonth (y + 1) 1 = 0 := rfl
    refine ⟨by omega, by omega, ⟨by omega, ?_⟩, ?_⟩
    · rw [hlength]
      omega
    · rw [hstart]
      omega
  · -- February
    obtain rfl : k = 11 := by omega
    have hlength : monthLength (y + 1) 2 = if IsLeap (y + 1) then 29 else 28 := rfl
    have hstart : daysBeforeMonth (y + 1) 2 = 31 := rfl
    refine ⟨by omega, by omega, ⟨by omega, ?_⟩, ?_⟩
    · rw [hlength]
      split_ifs with hcase
      · omega
      · have hne : r ≠ 365 := fun h => hcase (hleap h)
        omega
    · rw [hstart]
      omega

/-- The day, the month and the year that are computed of a day of an era. -/
lemma OfEra.civilFromDays {days era : ℤ} {y k r : ℕ} (h : OfEra doe q p s r)
    (hdays : 0 ≤ days ∧ days ≤ 4000000000) (hera : days + 719468 = 146097 * era + doe)
    (hdoe : 0 ≤ doe ∧ doe < 146097) (hyear : (y : ℤ) = 400 * era + (100 * q + 4 * p + s))
    (hk : k = (5 * r + 2) / 153) :
    civilFromDays days = some (if k < 10 then (↑y, ↑(k + 3), ↑(r - (153 * k + 2) / 5 + 1))
      else (↑(y + 1), ↑(k - 9), ↑(r - (153 * k + 2) / 5 + 1))) := by
  have hr := h.day
  have hbound : y ≤ 20000000 ∧ 0 ≤ era ∧ era ≤ 100000 := by
    obtain ⟨hq, hp, hs, -, -, -⟩ := h
    omega
  have hz : i64 (days + 719468) = some (days + 719468) := i64_eq (by omega) (by omega)
  have hediv : (days + 719468) / 146097 = era := by omega
  have hemod : (days + 719468) % 146097 = doe := by omega
  have he : i64 era = some era := i64_eq (by omega) (by omega)
  have hd : i64 doe = some doe := i64_eq (by omega) (by omega)
  have hm : i64 (era * 400) = some (era * 400) := i64_eq (by omega) (by omega)
  have hs : i64 (100 * q + 4 * p + s + era * 400) = some (y : ℤ) := by
    have heq : 100 * q + 4 * p + s + era * 400 = y := by omega
    rw [heq]
    exact i64_eq (by omega) (by omega)
  have hk' : (5 * (r : ℤ) + 2) / 153 = k := by omega
  have hday : (r : ℤ) - (153 * (k : ℤ) + 2) / 5 + 1 = ((r - (153 * k + 2) / 5 + 1 : ℕ) : ℤ) := by
    omega
  simp only [WorkspaceAtlas.civilFromDays, hz, hediv, hemod, he, hd, hm, hs, h.yearOfEra,
    h.dayOfYear, monthAndDay_eq hr, hk', hday, Option.bind_eq_bind, Option.bind_some,
    Option.pure_def]
  rcases lt_or_ge k 10 with hlt | hge
  · rw [if_pos hlt, if_pos (by omega), i64_eq (by omega) (by omega), Option.bind_some,
      if_neg (by omega)]
    push_cast
    rfl
  · have hmonth : (k : ℤ) - 9 = ((k - 9 : ℕ) : ℤ) := by omega
    rw [if_neg (by omega), if_neg (by omega), i64_eq (by omega) (by omega), Option.bind_some,
      if_pos (by omega), i64_eq (by omega) (by omega), Option.bind_some, hmonth]
    push_cast
    rfl

/-- **Civil from days** is the date of the calendar. -/
lemma civilFromDays_eq (days : ℕ) (h : days ≤ 4000000000) :
    ∃ y m d : ℕ, civilFromDays days = some (↑y, ↑m, ↑d) ∧ IsDate days y m d := by
  have hdoe : 0 ≤ ((days : ℤ) + 719468) % 146097 ∧ ((days : ℤ) + 719468) % 146097 < 146097 := by
    omega
  have hsplit : (days : ℤ) + 719468 =
      146097 * (((days : ℤ) + 719468) / 146097) + ((days : ℤ) + 719468) % 146097 := by
    omega
  have hpos : 4 ≤ ((days : ℤ) + 719468) / 146097 := by omega
  generalize ((days : ℤ) + 719468) / 146097 = era at hsplit hpos
  generalize ((days : ℤ) + 719468) % 146097 = doe at hsplit hdoe
  obtain ⟨q, p, s, r, hera⟩ := exists_ofEra hdoe.1 hdoe.2
  have hr := hera.day
  obtain ⟨r, rfl⟩ := Int.eq_ofNat_of_zero_le hr.1
  obtain ⟨y, hy⟩ : ∃ y : ℕ, (y : ℤ) = 400 * era + (100 * q + 4 * p + s) := by
    obtain ⟨hq, hp, hs, -, -, -⟩ := hera
    exact ⟨(400 * era + (100 * q + 4 * p + s)).toNat, by omega⟩
  have hge : 1969 ≤ y := by
    obtain ⟨hq, hp, hs, -, -, hsum⟩ := hera
    omega
  have hdays : days + 306 = daysBeforeYear (y + 1) + r := by
    exact_mod_cast hera.days_eq hge hy hsplit
  have hleap : r = 365 → IsLeap (y + 1) := by
    intro h365
    obtain ⟨hq, hp, hs, -, hleap, -⟩ := hera
    obtain ⟨rfl, hcase⟩ := hleap (by omega)
    rw [IsLeap]
    omega
  obtain ⟨k, hk⟩ : ∃ k : ℕ, k = (5 * r + 2) / 153 := ⟨_, rfl⟩
  have hcode := hera.civilFromDays ⟨by omega, by omega⟩ hsplit hdoe hy hk
  rcases lt_or_ge k 10 with hlt | hge'
  · rw [if_pos hlt] at hcode
    exact ⟨_, _, _, hcode, isDate_march hdays hge hk hlt⟩
  · rw [if_neg (by omega)] at hcode
    exact ⟨_, _, _, hcode, isDate_january hdays hge (by omega) hleap hk hge'⟩

end Eras

/-! ## Texts -/

/-- The first millisecond of the year 10000. -/
def endOfYear9999 : ℕ := 253402300800000

/-- `{:04}-{:02}-{:02}T{:02}:{:02}:{:02}.{:03}Z`. -/
def stampLayout : List (ℕ × Char) :=
  [(4, '-'), (2, '-'), (2, 'T'), (2, ':'), (2, ':'), (2, '.'), (3, 'Z')]

/-- The fields of a text, read back. -/
def readStamp (s : String) : List ℕ := readRecord stampLayout s.toList

/-- The date and the time of the calendar, as a text. -/
def stampOf (a : Moment) : String := String.ofList (record stampLayout a.fields)

section Texts

variable {a b : Moment} {t w n : ℕ}

lemma zeroPadded_natCast (hw : 0 < w) (h : n < 10 ^ w) : zeroPadded w n = decimal w n := by
  rw [zeroPadded, if_neg (by omega), Int.natAbs_natCast, padded_eq_decimal hw h]

/-- Until the end of the year 9999 a year has four digits. -/
lemma year_lt (h : a.millis < endOfYear9999) : a.year < 10000 := by
  by_contra hge
  have hmono := daysBeforeYear_mono (Nat.le_of_not_lt hge)
  have hend : daysBeforeYear 10000 = 2932897 := by
    have heq := daysBeforeYear_eq (y := 10000) (by omega)
    push_cast at heq
    omega
  rw [Moment.millis, Moment.days, endOfYear9999] at h
  omega

lemma monthLength_le (y m : ℕ) : monthLength y m ≤ 31 := by
  unfold monthLength
  split
  · split_ifs
    · omega
    · omega
  all_goals omega

/-- The fields fit their widths. -/
lemma fits_fields (h : a.year < 10000) : Fits stampLayout a.fields := by
  have hmonth := a.month_mem.2
  have hday := a.day_mem.2.trans (monthLength_le _ _)
  have hhour := a.hour_lt
  have hminute := a.minute_lt
  have hsecond := a.second_lt
  have hmilli := a.milli_lt
  refine ⟨h, ?_, ?_, ?_, ?_, ?_, hmilli, trivial⟩
  all_goals omega

/-- The text of a date and of the time of the day. -/
lemma stampText_eq {y m d : ℕ} (h : t < 253402300800000)
    (hcivil : civilFromDays ((t / 86400000 : ℕ) : ℤ) = some (↑y, ↑m, ↑d)) (hy : y < 10 ^ 4)
    (hm : m < 10 ^ 2) (hd : d < 10 ^ 2) :
    stampText t = some (String.ofList (record stampLayout
      [y, m, d, t / 3600000 % 24, t / 60000 % 60, t / 1000 % 60, t % 1000])) := by
  have hsecs : asI64 (t / 1000) = ((t / 1000 : ℕ) : ℤ) := asI64_eq (by omega)
  have hmilli : t % 1000 % 2 ^ 32 = t % 1000 := Nat.mod_eq_of_lt (by omega)
  have hday : i64 (((t / 1000 : ℕ) : ℤ) / 86400) = some ((t / 86400000 : ℕ) : ℤ) :=
    (i64_eq (by omega) (by omega)).trans (congrArg some (by omega))
  have hofday : i64 (((t / 1000 : ℕ) : ℤ) % 86400) = some ((t / 1000 % 86400 : ℕ) : ℤ) :=
    (i64_eq (by omega) (by omega)).trans (congrArg some (by omega))
  have hhour : i64 (((t / 1000 % 86400 : ℕ) : ℤ).tdiv 3600) = some ((t / 3600000 % 24 : ℕ) : ℤ) :=
    (i64_tdiv (by omega) (by omega) (by omega)).trans (congrArg some (by omega))
  have hrest : i64 (((t / 1000 % 86400 : ℕ) : ℤ).tmod 3600) = some ((t / 1000 % 3600 : ℕ) : ℤ) :=
    (i64_tmod (by omega) (by omega) (by omega)).trans (congrArg some (by omega))
  have hminute : i64 (((t / 1000 % 3600 : ℕ) : ℤ).tdiv 60) = some ((t / 60000 % 60 : ℕ) : ℤ) :=
    (i64_tdiv (by omega) (by omega) (by omega)).trans (congrArg some (by omega))
  have hsecond : i64 (((t / 1000 % 86400 : ℕ) : ℤ).tmod 60) = some ((t / 1000 % 60 : ℕ) : ℤ) :=
    (i64_tmod (by omega) (by omega) (by omega)).trans (congrArg some (by omega))
  simp -implicitDefEqProofs only [stampText, hsecs, hday, hofday, hhour, hrest, hminute, hsecond,
    hcivil, hmilli, Option.bind_eq_bind, Option.bind_some, Option.pure_def,
    zeroPadded_natCast (by omega) hy,
    zeroPadded_natCast (by omega) hm, zeroPadded_natCast (by omega) hd,
    zeroPadded_natCast (w := 2) (n := t / 3600000 % 24) (by omega) (by omega),
    zeroPadded_natCast (w := 2) (n := t / 60000 % 60) (by omega) (by omega),
    zeroPadded_natCast (w := 2) (n := t / 1000 % 60) (by omega) (by omega),
    padded_eq_decimal (w := 3) (n := t % 1000) (by omega) (by omega)]
  rfl

/-- **Every text** is the one of the moment. -/
lemma exists_stampOf (h : t < endOfYear9999) :
    ∃ a : Moment, stampText t = some (stampOf a) ∧ a.millis = t := by
  rw [endOfYear9999] at h
  obtain ⟨y, m, d, hcivil, hdate⟩ := civilFromDays_eq (t / 86400000) (by omega)
  let a : Moment := ⟨y, m, d, t / 3600000 % 24, t / 60000 % 60, t / 1000 % 60, t % 1000,
    hdate.year_ge, hdate.month_mem, hdate.day_mem, by omega, by omega, by omega, by omega⟩
  have hdays : a.days = t / 86400000 := hdate.sum
  have hmillis : a.millis = t := by
    show (((a.days * 24 + t / 3600000 % 24) * 60 + t / 60000 % 60) * 60 + t / 1000 % 60) * 1000 +
      t % 1000 = t
    rw [hdays]
    omega
  have hfits := fits_fields (year_lt (a := a) (by rw [hmillis, endOfYear9999]; exact h))
  exact ⟨a, stampText_eq h hcivil hfits.1 hfits.2.1 hfits.2.2.1, hmillis⟩

/-- Texts of moments come in the order of the moments. -/
lemma stampOf_lt (h : a.millis < b.millis) (hb : b.millis < endOfYear9999) :
    stampOf a < stampOf b := by
  rw [String.lt_iff_toList_lt, stampOf, stampOf, String.toList_ofList, String.toList_ofList]
  exact record_lt (fits_fields (year_lt (h.trans hb))) (fits_fields (year_lt hb))
    (Moment.fields_lt_iff.mpr h)

/-- The text is built without an overflow; it is the date and the time of the calendar for the
milliseconds, and it is read back as its fields. -/
structure IsStamp (text : Option String) (t : ℕ) (a : Moment) : Prop where
  built : text = some (stampOf a)
  read : readStamp (stampOf a) = a.fields
  counted : a.millis = t

lemma exists_isStamp (h : t < endOfYear9999) : ∃ a, IsStamp (stampText t) t a := by
  obtain ⟨a, hbuilt, hmillis⟩ := exists_stampOf h
  have hfits := fits_fields (year_lt (a := a) (by rw [hmillis]; exact h))
  refine ⟨a, hbuilt, ?_, hmillis⟩
  rw [readStamp, stampOf, String.toList_ofList, readRecord_record hfits]

end Texts

/-- **Stamps are faithful and ordered** until the end of the year 9999. -/
theorem stamps_faithful_ordered :
    (∀ now, iso8601 now < endOfYear9999 → ∃ a, IsStamp (iso8601Now now) (iso8601 now) a) ∧
      (∀ now duration, Lease.nowPlusIso8601 now duration < endOfYear9999 →
        ∃ a, IsStamp (nowPlusIso8601Text now duration) (Lease.nowPlusIso8601 now duration) a) ∧
      (∀ t < endOfYear9999, ∃ a, IsStamp (stampText t) t a) ∧
      ∀ t₁ t₂, t₁ < t₂ → t₂ < endOfYear9999 →
        ∃ s₁ s₂, stampText t₁ = some s₁ ∧ stampText t₂ = some s₂ ∧ s₁ < s₂ := by
  refine ⟨fun _ => exists_isStamp, fun _ _ => exists_isStamp, fun _ => exists_isStamp,
    fun t₁ t₂ hlt hend => ?_⟩
  obtain ⟨a, hbuilt, -, rfl⟩ := exists_isStamp (hlt.trans hend)
  obtain ⟨b, hbuilt', -, rfl⟩ := exists_isStamp hend
  exact ⟨_, _, hbuilt, hbuilt', stampOf_lt hlt hend⟩

/-- The last millisecond of a leap day. -/
theorem stamps_faithful_ordered_leap :
    ∃ a, IsStamp (stampText 951868799999) 951868799999 a := by
  have hend : 951868799999 < endOfYear9999 := by
    rw [endOfYear9999]
    omega
  exact stamps_faithful_ordered.2.2.1 951868799999 hend

example : stampText 951868799999 = some "2000-02-29T23:59:59.999Z" := by decide +kernel

end WorkspaceAtlas
