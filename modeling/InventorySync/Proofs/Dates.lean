import InventorySync.Calendar
import Mathlib.Tactic.IntervalCases

/-!
# Dates and their numbers

The calendar repeats after four centuries. A day is told by its cycle, the year of the cycle and
the day of that year, all counted from March, so that a leap day is the last day of its year, its
group of four years, its century and its cycle.

## Key results

- `year_of_day`, `exists_year_of_day`: the days of a cycle, and the formula of `dateOf` for the year
- `Date.FromMarch`: a date told in this way, with the number that `dayNumber` gives it
- `dateOf_dayNumber`, `dayNumber_dateOf`, `valid_dateOf`: dates and numbers are each other's
-/

namespace InventorySync.Calendar

/-! ## The years of a cycle -/

/-- The days of a cycle before its year `y`. -/
def daysBeforeYear (y : Int) : Int := 365 * y + y / 4 - y / 100

/-- The days of year `y` of a cycle, whose February is that of the calendar year after it. -/
def daysInYear (y : Int) : Int := if isLeap (y + 1) then 366 else 365

theorem isLeap_iff (year : Int) :
    isLeap year = true ↔ year % 4 = 0 ∧ (year % 100 ≠ 0 ∨ year % 400 = 0) := by
  simp [isLeap]

theorem isLeap_add_cycles (k year : Int) : isLeap (k * 400 + year) = isLeap year := by
  rw [Bool.eq_iff_iff, isLeap_iff, isLeap_iff]
  omega

theorem daysInYear_le (y : Int) : daysInYear y ≤ 366 := by
  unfold daysInYear
  split <;> omega

/-- A year of a cycle is year `t` of group `q` of century `c`. -/
theorem exists_year_parts {y : Int} (hy : 0 ≤ y) (hy' : y < 400) : ∃ c q t : Int,
    0 ≤ c ∧ c ≤ 3 ∧ 0 ≤ q ∧ q ≤ 24 ∧ 0 ≤ t ∧ t ≤ 3 ∧ y = 100 * c + 4 * q + t :=
  ⟨y / 100, y % 100 / 4, y % 4, by omega, by omega, by omega, by omega, by omega, by omega,
    by omega⟩

theorem daysBeforeYear_eq {c q t : Int} (hq : 0 ≤ q) (hq' : q ≤ 24) (ht : 0 ≤ t) (ht' : t ≤ 3) :
    daysBeforeYear (100 * c + 4 * q + t) = 36524 * c + 1461 * q + 365 * t := by
  unfold daysBeforeYear
  omega

/-- The year `100 * c + 4 * q + t + 1` is `isLeap` if it is the last of its group of four, but for
the groups at the end of the first three centuries. -/
theorem isLeap_succ_iff {c q t : Int} (hc : 0 ≤ c) (hc' : c ≤ 3) (hq : 0 ≤ q) (hq' : q ≤ 24)
    (ht : 0 ≤ t) (ht' : t ≤ 3) :
    isLeap (100 * c + 4 * q + t + 1) = true ↔ t = 3 ∧ (q = 24 → c = 3) := by
  rw [isLeap_iff]
  omega

/-- The formula of `dateOf` for the year: every 1460 days one leap day too many is taken off, and
the ends of centuries are put right. -/
theorem year_of_day {y n : Int} (hy : 0 ≤ y) (hy' : y < 400) (hn : 0 ≤ n) (hn' : n < daysInYear y)
    {w : Int} (hw : w = daysBeforeYear y + n) :
    (0 ≤ w ∧ w < 146097) ∧ (w - w / 1460 + w / 36524 - w / 146096) / 365 = y := by
  obtain ⟨c, q, t, hc, hc', hq, hq', ht, ht', rfl⟩ := exists_year_parts hy hy'
  rw [daysBeforeYear_eq hq hq' ht ht'] at hw
  have hleap := isLeap_succ_iff hc hc' hq hq' ht ht'
  -- The last day of a leap year is the only one with a number above 364.
  have hlast : n ≤ 364 ∨ n = 365 ∧ t = 3 ∧ (q = 24 → c = 3) := by
    unfold daysInYear at hn'
    split at hn'
    next h =>
      obtain ⟨h3, h24⟩ := hleap.mp h
      by_cases hn364 : n ≤ 364
      · exact Or.inl hn364
      · exact Or.inr ⟨by omega, h3, h24⟩
    next => omega
  -- Only the last day of the cycle lies after four whole centuries.
  have hcentury : c = 3 ∧ w = 146096 ∨ 1461 * q + 365 * t + n < 36524 := by
    obtain h | ⟨h, h3, h24⟩ := hlast
    · omega
    · by_cases hq24 : q = 24
      · have := h24 hq24
        omega
      · omega
  have hdays : w / 36524 - w / 146096 = c := by
    obtain ⟨h3, hw146⟩ | h := hcentury
    · omega
    · have h36 : w / 36524 = c := by omega
      have h146 : w / 146096 = 0 := by omega
      omega
  have hgroup : w / 1460 = 25 * c + q ∨
      (w / 1460 = 25 * c + q + 1 ∧ 1460 ≤ 24 * c + q + 365 * t + n) := by
    omega
  refine ⟨?_, ?_⟩
  · obtain ⟨h3, hw146⟩ | h := hcentury <;> omega
  · omega

/-- Every day of a cycle is a day of one of its years, of which `daysBeforeYear` are gone. -/
theorem exists_year_of_day {w : Int} (hw : 0 ≤ w) (hw' : w < 146097) : ∃ y n : Int,
    0 ≤ y ∧ y < 400 ∧ 0 ≤ n ∧ n < daysInYear y ∧ w = daysBeforeYear y + n := by
  -- The last day of the cycle and of a group belong to the century and the year before them.
  obtain ⟨c, r, hc, hc', hr, hr', hcr, hlast⟩ : ∃ c r : Int, 0 ≤ c ∧ c ≤ 3 ∧ 0 ≤ r ∧ r ≤ 36524 ∧
      w = 36524 * c + r ∧ (r = 36524 → c = 3) := by
    by_cases h : w = 146096
    · exact ⟨3, 36524, by omega⟩
    · exact ⟨w / 36524, w % 36524, by omega⟩
  obtain ⟨t, n, ht, ht', hn, hn', htn, hleap⟩ : ∃ t n : Int, 0 ≤ t ∧ t ≤ 3 ∧ 0 ≤ n ∧ n ≤ 365 ∧
      r % 1461 = 365 * t + n ∧ (n = 365 → t = 3) := by
    by_cases h : r % 1461 = 1460
    · exact ⟨3, 365, by omega⟩
    · exact ⟨r % 1461 / 365, r % 1461 % 365, by omega⟩
  refine ⟨100 * c + 4 * (r / 1461) + t, n, by omega, by omega, hn, ?_, ?_⟩
  · unfold daysInYear
    split
    next => omega
    next h =>
      rw [isLeap_succ_iff hc hc' (by omega) (by omega) ht ht'] at h
      by_cases hn365 : n = 365
      · exact absurd ⟨hleap hn365, fun h24 => hlast (by omega)⟩ h
      · omega
  · rw [daysBeforeYear_eq (by omega) (by omega) ht ht']
    omega

/-! ## The months of a year -/

/-- The month of a calendar year that is number `m` from March on. -/
def monthFromMarch (m : Nat) : Nat := if m < 10 then m + 3 else m - 9

theorem monthFromMarch_le_two_iff {m : Nat} (hm : m ≤ 11) : monthFromMarch m ≤ 2 ↔ 10 ≤ m := by
  unfold monthFromMarch
  split <;> omega

/-- From March on, five months have 153 days by `daysInMonth`, and February, the last month, has
what is left of the year. -/
theorem daysInMonth_monthFromMarch (year : Int) {m : Nat} (hm : m ≤ 11) :
    daysInMonth year (monthFromMarch m) =
      if m = 11 then if isLeap year then 29 else 28
      else (153 * (m + 1) + 2) / 5 - (153 * m + 2) / 5 := by
  interval_cases m <;> rfl

theorem daysBeforeMonth_monthFromMarch {m : Nat} (hm : m ≤ 11) :
    daysBeforeMonth (monthFromMarch m) = (153 * m + 2) / 5 := by
  unfold daysBeforeMonth monthFromMarch
  split <;> omega

theorem daysInMonth_le (year : Int) (month : Nat) : daysInMonth year month ≤ 31 := by
  unfold daysInMonth
  split
  · split <;> omega
  · split
    · omega
    · split <;> omega

/-! ## Dates told from March -/

/-- `dateOf` on a day told by its cycle, year and day. -/
theorem dateOf_eq {k y : Int} {n : Nat} (hy : 0 ≤ y) (hy' : y < 400) (hn : n < daysInYear y) :
    dateOf (k * 146097 + (daysBeforeYear y + n) - 719468) =
      ⟨k * 400 + y + (if monthFromMarch ((5 * n + 2) / 153) ≤ 2 then 1 else 0),
        monthFromMarch ((5 * n + 2) / 153), n - (153 * ((5 * n + 2) / 153) + 2) / 5 + 1⟩ := by
  obtain ⟨⟨hw, hw'⟩, hyear⟩ := year_of_day hy hy' (by omega) hn rfl
  have hdays : k * 146097 + (daysBeforeYear y + n) - 719468 + 719468 =
      k * 146097 + (daysBeforeYear y + n) := by omega
  have hdiv : (k * 146097 + (daysBeforeYear y + n)) / 146097 = k := by omega
  have hmod : (k * 146097 + (daysBeforeYear y + n)) % 146097 = daysBeforeYear y + n := by omega
  have hrest : (daysBeforeYear y + n - (365 * y + y / 4 - y / 100)).toNat = n := by
    unfold daysBeforeYear
    omega
  simp only [dateOf, cycle, hdays, hdiv, hmod, hyear, hrest]
  rfl

/-- `dayNumber` of a date told by its cycle and year. -/
theorem dayNumber_eq (d : Date) (k y : Int) (hy : 0 ≤ y) (hy' : y < 400)
    (hd : (if d.month ≤ 2 then d.year - 1 else d.year) = k * 400 + y) :
    dayNumber d =
      k * 146097 + (daysBeforeYear y + (daysBeforeMonth d.month + d.day - 1)) - 719468 := by
  have hdiv : (k * 400 + y) / 400 = k := by omega
  have hmod : (k * 400 + y) % 400 = y := by omega
  simp only [dayNumber, cycle, hd, hdiv, hmod, daysBeforeYear]
  omega

/-- The calendar has the date: its month is one of the twelve and its day one of the `daysInMonth`.
-/
structure Date.Valid (d : Date) : Prop where
  month : 1 ≤ d.month ∧ d.month ≤ 12
  day : 1 ≤ d.day ∧ d.day ≤ daysInMonth d.year d.month

/-- A date told by its cycle `k`, the year `y` of the cycle and the day `n` of that year, all
counted from March. -/
structure Date.FromMarch (d : Date) (k y : Int) (n : Nat) : Prop where
  year_nonneg : 0 ≤ y
  year_lt : y < 400
  day_lt : n < daysInYear y
  eq : d = ⟨k * 400 + y + (if monthFromMarch ((5 * n + 2) / 153) ≤ 2 then 1 else 0),
    monthFromMarch ((5 * n + 2) / 153), n - (153 * ((5 * n + 2) / 153) + 2) / 5 + 1⟩

/-- The day of its year that a day of month `m` is: for February the last ones, and the very last
one in a leap year alone. -/
theorem day_of_year {year : Int} {m day : Nat} (hm : m ≤ 11) (hday : 1 ≤ day)
    (hday' : day ≤ daysInMonth year (monthFromMarch m)) :
    (5 * ((153 * m + 2) / 5 + day - 1) + 2) / 153 = m ∧
      ((153 * m + 2) / 5 + day - 1 < 365 ∨
        m = 11 ∧ (153 * m + 2) / 5 + day - 1 = 365 ∧ isLeap year = true) := by
  rw [daysInMonth_monthFromMarch year hm] at hday'
  split at hday'
  next h11 =>
    subst h11
    split at hday'
    next hleap =>
      by_cases h28 : day ≤ 28
      · exact ⟨by omega, Or.inl (by omega)⟩
      · exact ⟨by omega, Or.inr ⟨rfl, by omega, hleap⟩⟩
    next => exact ⟨by omega, Or.inl (by omega)⟩
  next => exact ⟨by omega, Or.inl (by omega)⟩

/-- Every date that is `Valid` is told `FromMarch`. -/
theorem Date.Valid.exists_fromMarch {d : Date} (h : d.Valid) : ∃ k y n, d.FromMarch k y n := by
  obtain ⟨year, month, day⟩ := d
  obtain ⟨⟨hmonth, hmonth'⟩, hday, hday'⟩ := h
  dsimp only at hmonth hmonth' hday hday'
  obtain ⟨m, hm, rfl⟩ : ∃ m ≤ 11, monthFromMarch m = month := by
    refine ⟨(month + 9) % 12, by omega, ?_⟩
    unfold monthFromMarch
    split <;> omega
  obtain ⟨hindex, hend⟩ := day_of_year hm hday hday'
  -- January and February belong to the year that began in the March before.
  let before : Int := year - (if monthFromMarch m ≤ 2 then 1 else 0)
  have hyear : year =
      before / 400 * 400 + before % 400 + (if monthFromMarch m ≤ 2 then 1 else 0) := by
    simp only [before]
    omega
  have hlt : (((153 * m + 2) / 5 + day - 1 : Nat) : Int) < daysInYear (before % 400) := by
    unfold daysInYear
    obtain hlt | ⟨h11, h365, hleap⟩ := hend
    · split <;> omega
    · rw [hyear, if_pos ((monthFromMarch_le_two_iff hm).mpr (by omega)), Int.add_assoc,
        isLeap_add_cycles] at hleap
      rw [if_pos hleap]
      omega
  refine ⟨before / 400, before % 400, (153 * m + 2) / 5 + day - 1, by omega, by omega, hlt, ?_⟩
  rw [hindex, ← hyear]
  congr 1
  omega

/-- A date that is told `FromMarch` has the `dayNumber` that it is told by. -/
theorem Date.FromMarch.dayNumber {d : Date} {k y : Int} {n : Nat} (h : d.FromMarch k y n) :
    dayNumber d = k * 146097 + (daysBeforeYear y + n) - 719468 := by
  have hn := daysInYear_le y
  have hlt := h.day_lt
  rw [dayNumber_eq d k y h.year_nonneg h.year_lt, h.eq]
  · dsimp only
    rw [daysBeforeMonth_monthFromMarch (by omega)]
    omega
  · rw [h.eq]
    dsimp only
    split <;> omega

/-- A date that is told `FromMarch` is `Valid`. -/
theorem Date.FromMarch.valid {d : Date} {k y : Int} {n : Nat} (h : d.FromMarch k y n) :
    d.Valid := by
  have hlt := h.day_lt
  have hle := daysInYear_le y
  have hm : (5 * n + 2) / 153 ≤ 11 := by omega
  rw [h.eq]
  refine ⟨?_, Nat.succ_pos _, ?_⟩
  · unfold monthFromMarch
    dsimp only
    split <;> omega
  · dsimp only
    rw [daysInMonth_monthFromMarch _ hm]
    split
    -- February comes last, and its last day is there in a leap year alone, as in `daysInYear`.
    next h11 =>
      have hfebruary : monthFromMarch 11 ≤ 2 := by decide
      rw [h11, if_pos hfebruary, Int.add_assoc, isLeap_add_cycles]
      unfold daysInYear at hlt
      split at hlt
      next hleap =>
        rw [if_pos hleap]
        omega
      next => split <;> omega
    next => omega

/-! ## Dates and numbers -/

/-- `dateOf` inverts `dayNumber` on the dates of the calendar. -/
theorem dateOf_dayNumber {d : Date} (h : d.Valid) : dateOf (dayNumber d) = d := by
  obtain ⟨k, y, n, hd⟩ := h.exists_fromMarch
  rw [hd.dayNumber, dateOf_eq hd.year_nonneg hd.year_lt hd.day_lt, ← hd.eq]

example : dateOf (dayNumber ⟨2024, 2, 29⟩) = ⟨2024, 2, 29⟩ := by decide

theorem exists_fromMarch_dateOf (number : Int) : ∃ k y n, (dateOf number).FromMarch k y n ∧
    number = k * 146097 + (daysBeforeYear y + n) - 719468 := by
  obtain ⟨y, n, hy, hy', hn, hn', hw⟩ := exists_year_of_day
    (w := (number + 719468) % 146097) (by omega) (by omega)
  obtain ⟨n, rfl⟩ := Int.eq_ofNat_of_zero_le hn
  have hnumber : number =
      (number + 719468) / 146097 * 146097 + (daysBeforeYear y + n) - 719468 := by
    omega
  refine ⟨(number + 719468) / 146097, y, n, ⟨hy, hy', hn', ?_⟩, hnumber⟩
  rw [← dateOf_eq hy hy' hn', ← hnumber]

/-- `dateOf` gives dates of the calendar. -/
theorem valid_dateOf (number : Int) : (dateOf number).Valid := by
  obtain ⟨k, y, n, hd, -⟩ := exists_fromMarch_dateOf number
  exact hd.valid

/-- `dayNumber` inverts `dateOf`. -/
theorem dayNumber_dateOf (number : Int) : dayNumber (dateOf number) = number := by
  obtain ⟨k, y, n, hd, hnumber⟩ := exists_fromMarch_dateOf number
  rw [hd.dayNumber, ← hnumber]

example : dateOf (-1) = ⟨1969, 12, 31⟩ := by decide

end InventorySync.Calendar
