import Mathlib.Algebra.Order.Ring.Int
import Mathlib.Tactic.IntervalCases
import Mathlib.Tactic.Ring

namespace Lib.Calendar

def dayFromYear (y : ℤ) : ℤ :=
  365 * (y - 1970) + (y - 1969) / 4 - (y - 1901) / 100 + (y - 1601) / 400

/-- One in a leap year. -/
def leapDay (y : ℤ) : ℤ :=
  if y % 4 = 0 ∧ (y % 100 ≠ 0 ∨ y % 400 = 0) then 1 else 0

/-- The days of a year before one of its months. -/
def daysBefore (leap m : ℤ) : ℤ :=
  if m = 0 then 0
  else if m = 1 then 31
  else if m = 2 then 59 + leap
  else if m = 3 then 90 + leap
  else if m = 4 then 120 + leap
  else if m = 5 then 151 + leap
  else if m = 6 then 181 + leap
  else if m = 7 then 212 + leap
  else if m = 8 then 243 + leap
  else if m = 9 then 273 + leap
  else if m = 10 then 304 + leap
  else 334 + leap

/-- The first day of a month. Month `k` is month `k % 12` of the year `k / 12`, January being 0,
and day 0 is the first of January 1970. -/
def monthDay (k : ℤ) : ℤ :=
  dayFromYear (k / 12) + daysBefore (leapDay (k / 12)) (k % 12)

/-- The year of a day: that of its share of 400 years, or one next to it. -/
def yearFromDay (d : ℤ) : ℤ :=
  let y := 1970 + d * 400 / 146097
  if d < dayFromYear y then y - 1
  else if dayFromYear (y + 1) ≤ d then y + 1
  else y

/-- The month of a day of the year. -/
def monthFromDay (leap n : ℤ) : ℤ :=
  if n < 31 then 0
  else if n < 59 + leap then 1
  else if n < 90 + leap then 2
  else if n < 120 + leap then 3
  else if n < 151 + leap then 4
  else if n < 181 + leap then 5
  else if n < 212 + leap then 6
  else if n < 243 + leap then 7
  else if n < 273 + leap then 8
  else if n < 304 + leap then 9
  else if n < 334 + leap then 10
  else 11

/-- The month of a day. -/
def monthOf (d : ℤ) : ℤ :=
  let y := yearFromDay d
  12 * y + monthFromDay (leapDay y) (d - dayFromYear y)

variable {y m d n j k : ℤ}

theorem leapDay_cases (y : ℤ) : leapDay y = 0 ∨ leapDay y = 1 := by
  unfold leapDay
  split
  · exact .inr rfl
  · exact .inl rfl

theorem dayFromYear_succ (y : ℤ) : dayFromYear (y + 1) = dayFromYear y + 365 + leapDay y := by
  unfold dayFromYear leapDay
  split <;> omega

theorem yearFromDay_spec (d : ℤ) :
    dayFromYear (yearFromDay d) ≤ d ∧ d < dayFromYear (yearFromDay d + 1) := by
  have hnear : dayFromYear (1970 + d * 400 / 146097 - 1) ≤ d ∧
      d < dayFromYear (1970 + d * 400 / 146097 + 2) := by
    unfold dayFromYear
    omega
  unfold yearFromDay
  dsimp only
  split
  · rename_i hlow
    rw [sub_add_cancel]
    exact ⟨hnear.1, hlow⟩
  · rename_i hlow
    split
    · rename_i hhigh
      have hlast := hnear.2
      exact ⟨hhigh, by rwa [add_assoc]⟩
    · rename_i hhigh
      exact ⟨not_lt.mp hlow, not_le.mp hhigh⟩

theorem monthFromDay_bounds (leap n : ℤ) :
    0 ≤ monthFromDay leap n ∧ monthFromDay leap n < 12 := by
  fun_cases monthFromDay leap n <;> omega

theorem daysBefore_succ {leap : ℤ} (hleap : 0 ≤ leap) (hm : 0 ≤ m) (hm' : m < 11) :
    daysBefore leap m + 28 ≤ daysBefore leap (m + 1) := by
  interval_cases m <;> simp [daysBefore] <;> omega

theorem monthDay_year (hm : 0 ≤ m) (hm' : m < 12) :
    monthDay (12 * y + m) = dayFromYear y + daysBefore (leapDay y) m := by
  have hdiv : (12 * y + m) / 12 = y := by omega
  have hmod : (12 * y + m) % 12 = m := by omega
  rw [monthDay, hdiv, hmod]

/-- No month is shorter than 28 days. -/
theorem monthDay_succ (k : ℤ) : monthDay k + 28 ≤ monthDay (k + 1) := by
  have hk : k = 12 * (k / 12) + k % 12 := by omega
  have h0 : 0 ≤ k % 12 := by omega
  have h12 : k % 12 < 12 := by omega
  generalize k / 12 = y at hk
  generalize k % 12 = m at hk h0 h12
  subst hk
  have hleap := leapDay_cases y
  by_cases hlast : m = 11
  · subst hlast
    have hnext : 12 * y + 11 + 1 = 12 * (y + 1) + 0 := by ring
    rw [hnext, monthDay_year h0 h12, monthDay_year le_rfl (by omega), dayFromYear_succ]
    simp [daysBefore]
    omega
  · have hstep : daysBefore (leapDay y) m + 28 ≤ daysBefore (leapDay y) (m + 1) :=
      daysBefore_succ (by omega) h0 (by omega)
    rw [add_assoc, monthDay_year h0 h12, monthDay_year (by omega) (by omega)]
    omega

theorem monthDay_lt (h : j < k) : monthDay j + 28 ≤ monthDay k := by
  obtain ⟨n, rfl⟩ := Int.le.dest h
  induction n with
  | zero => simpa using monthDay_succ j
  | succ n ih =>
    have hlt : j < j + 1 + n := by omega
    have hstep := monthDay_succ (j + 1 + n)
    have hcast : j + 1 + ((n + 1 : ℕ) : ℤ) = j + 1 + n + 1 := by push_cast; ring
    rw [hcast]
    have := ih hlt
    omega

/-- Two months less than 28 days apart are one. -/
theorem month_unique (h : monthDay j < monthDay k + 28) (h' : monthDay k < monthDay j + 28) :
    j = k := by
  rcases lt_trichotomy j k with hlt | heq | hgt
  · have := monthDay_lt hlt
    omega
  · exact heq
  · have := monthDay_lt hgt
    omega

end Lib.Calendar
