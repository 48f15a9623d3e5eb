import ChainClient.Time.Calendar

/-!
# The date of a day

Dates come from days by a formula that counts years from March. It is exact: the date that it gives
is one of the calendar, and that date is as many days after the first of January 1970. Everything
repeats after four hundred years, so that what depends on the year is settled for the years of one
cycle; between the first days of two years the formula can only grow.
-/

namespace ChainClient.Calendar

/-! ## Years -/

def leapDays (year : Nat) : Nat := if isLeap year then 1 else 0

/-- From the first of March of the year zero to that of the year. -/
def daysBeforeMarch (year : Nat) : Nat := 365 * year + year / 4 - year / 100 + year / 400

section Cycles

variable (cycle year : Nat)

theorem isLeap_cycle : isLeap (400 * cycle + year) = isLeap year := by
  have hfour : (400 * cycle + year) % 4 = year % 4 := by omega
  have hhundred : (400 * cycle + year) % 100 = year % 100 := by omega
  have hcycle : (400 * cycle + year) % 400 = year % 400 := by omega
  unfold isLeap
  rw [hfour, hhundred, hcycle]

theorem leapDays_cycle : leapDays (400 * cycle + year) = leapDays year := by
  unfold leapDays
  rw [isLeap_cycle]

theorem daysBeforeMarch_cycle :
    daysBeforeMarch (400 * cycle + year) = 146097 * cycle + daysBeforeMarch year := by
  unfold daysBeforeMarch
  omega

theorem daysBeforeYear_cycle :
    daysBeforeYear (400 * cycle + year) = 146097 * cycle + daysBeforeYear year := by
  unfold daysBeforeYear
  omega

end Cycles

/-- January and February come before March. -/
theorem daysBeforeYear_eq (year : Nat) :
    daysBeforeYear year + 59 + leapDays year = daysBeforeMarch year + 60 := by
  have hcycle : ∀ y < 400, daysBeforeYear y + 59 + leapDays y = daysBeforeMarch y + 60 := by
    decide +kernel
  have h := hcycle (year % 400) (Nat.mod_lt year (by decide))
  rw [← Nat.div_add_mod year 400, daysBeforeYear_cycle, leapDays_cycle, daysBeforeMarch_cycle]
  omega

theorem daysBeforeYear_succ (year : Nat) :
    daysBeforeYear (year + 1) = daysBeforeMarch year + 366 := by
  unfold daysBeforeYear daysBeforeMarch
  omega

/-- A year from March to March has its leap day at the end. -/
theorem daysBeforeMarch_succ (year : Nat) :
    daysBeforeMarch (year + 1) = daysBeforeMarch year + 365 + leapDays (year + 1) := by
  have h := daysBeforeYear_eq (year + 1)
  rw [daysBeforeYear_succ] at h
  omega

/-! ## The year of a day -/

/-- The year within its cycle, counted from March, of a day of the cycle. -/
def yearOfCycle (day : Nat) : Nat := (day - day / 1460 + day / 36524 - day / 146096) / 365

theorem yearOfCycle_mono {day day' : Nat} (h : day ≤ day') :
    yearOfCycle day ≤ yearOfCycle day' := by
  have hfour : day - day / 1460 ≤ day' - day' / 1460 := by omega
  have hcentury : day / 36524 - day / 36524 / 4 ≤ day' / 36524 - day' / 36524 / 4 := by
    have := Nat.div_le_div_right (c := 36524) h
    omega
  unfold yearOfCycle
  apply Nat.div_le_div_right
  rw [Nat.div_div_eq_div_mul, Nat.div_div_eq_div_mul] at hcentury
  omega

/-- The year of a day within a cycle is found without counting years. -/
theorem yearOfCycle_eq {day year : Nat} (hyear : year < 400) (hfirst : daysBeforeMarch year ≤ day)
    (hlast : day < daysBeforeMarch (year + 1)) : yearOfCycle day = year := by
  have hends : ∀ y < 400, yearOfCycle (daysBeforeMarch y) = y ∧
      yearOfCycle (daysBeforeMarch (y + 1) - 1) = y := by
    decide +kernel
  obtain ⟨hstart, hend⟩ := hends year hyear
  have hge := yearOfCycle_mono hfirst
  have hle := yearOfCycle_mono (Nat.le_sub_one_of_lt hlast)
  omega

/-- Every day lies in one year. -/
theorem exists_year {day bound : Nat} (h : day < daysBeforeMarch bound) :
    ∃ year < bound, daysBeforeMarch year ≤ day ∧ day < daysBeforeMarch (year + 1) := by
  induction bound with
  | zero => cases h
  | succ bound ih =>
    by_cases hday : day < daysBeforeMarch bound
    · obtain ⟨year, hyear, hdays⟩ := ih hday
      exact ⟨year, Nat.lt_succ_of_lt hyear, hdays⟩
    · exact ⟨bound, Nat.lt_succ_self bound, Nat.le_of_not_lt hday, h⟩

/-! ## The month of a day -/

/-- The date so many days after the first of March of the year. -/
def dateFromMarch (year day : Nat) : Date :=
  let monthFromMarch := (5 * day + 2) / 153
  let month := if monthFromMarch < 10 then monthFromMarch + 3 else monthFromMarch - 9
  { year := year + (if month ≤ 2 then 1 else 0)
    month
    day := day - (153 * monthFromMarch + 2) / 5 + 1 }

/-- From the first day of the year zero to the date. -/
def Date.dayNumber (date : Date) : Nat :=
  daysBeforeYear date.year + daysOfMonths date.year (date.month - 1) + (date.day - 1)

theorem ite_isLeap (year : Nat) : (if isLeap year then 29 else 28) = 28 + leapDays year := by
  unfold leapDays
  split <;> rfl

/-- A month of a year that begins in March begins on the day that the formula gives. -/
theorem dateFromMarch_exact {year day : Nat} (h : day < 365 + leapDays (year + 1)) :
    (dateFromMarch year day).isValid = true ∧
      (dateFromMarch year day).dayNumber = daysBeforeMarch year + day + 60 := by
  have hleap : leapDays (year + 1) ≤ 1 := by
    unfold leapDays
    split <;> decide
  have hyear := daysBeforeYear_eq year
  have hnext := daysBeforeYear_succ year
  have hmonth : (5 * day + 2) / 153 < 12 := by omega
  obtain ⟨month, hday⟩ : ∃ month, (5 * day + 2) / 153 = month := ⟨_, rfl⟩
  rw [hday] at hmonth
  unfold dateFromMarch Date.isValid Date.dayNumber
  rw [hday]
  match month, hmonth with
  | 0, _ | 1, _ | 2, _ | 3, _ | 4, _ | 5, _ | 6, _ | 7, _ | 8, _ | 9, _ =>
    simp [daysOfMonths, monthLength, ite_isLeap]
    omega
  | 10, _ | 11, _ =>
    simp [daysOfMonths, monthLength, ite_isLeap]
    omega

/-! ## Dates and days -/

/-- The date of a day is counted from March of its year. -/
theorem exists_ofDays_eq (days : Nat) : ∃ year day, Date.ofDays days = dateFromMarch year day ∧
    day < 365 + leapDays (year + 1) ∧ daysBeforeMarch year + day = days + 719468 := by
  have hdivision := Nat.div_add_mod (days + 719468) 146097
  have hcycle : (days + 719468) % 146097 < daysBeforeMarch 400 := Nat.mod_lt _ (by decide)
  obtain ⟨year, hyear, hfirst, hlast⟩ := exists_year hcycle
  have hformula : 365 * year + year / 4 - year / 100 = daysBeforeMarch year := by
    unfold daysBeforeMarch
    omega
  have hdate : Date.ofDays days = dateFromMarch (400 * ((days + 719468) / 146097) + year)
      ((days + 719468) % 146097 - daysBeforeMarch year) := by
    rw [← hformula, ← yearOfCycle_eq hyear hfirst hlast]
    rfl
  refine ⟨_, _, hdate, ?_, ?_⟩
  · rw [Nat.add_assoc, leapDays_cycle]
    rw [daysBeforeMarch_succ] at hlast
    omega
  · rw [daysBeforeMarch_cycle]
    omega

/-- Every count of days gives a date of the calendar. -/
theorem isValid_ofDays (days : Nat) : (Date.ofDays days).isValid = true := by
  obtain ⟨year, day, hdate, hday, -⟩ := exists_ofDays_eq days
  rw [hdate]
  exact (dateFromMarch_exact hday).1

/-- The date of a day has the number of that day. -/
theorem dayNumber_ofDays (days : Nat) : (Date.ofDays days).dayNumber = days + epochDays := by
  obtain ⟨year, day, hdate, hday, hdays⟩ := exists_ofDays_eq days
  rw [hdate, (dateFromMarch_exact hday).2, hdays]
  rfl

/-- The date of a day is as many days after the first of January 1970. -/
theorem toDays_ofDays (days : Nat) : (Date.ofDays days).toDays = days := by
  have hday := dayNumber_ofDays days
  calc
    (Date.ofDays days).toDays = ((Date.ofDays days).dayNumber : Int) - epochDays := rfl
    _ = days := by
      rw [hday]
      omega

theorem monthLength_le (year month : Nat) : monthLength year month ≤ 31 := by
  unfold monthLength
  repeat' split
  all_goals decide

theorem Date.month_le_and_day_le {date : Date} (h : date.isValid = true) :
    date.month ≤ 12 ∧ date.day ≤ 31 := by
  simp only [Date.isValid, Bool.and_eq_true, decide_eq_true_eq] at h
  have := monthLength_le date.year date.month
  omega

/-! ## The days of a year -/

theorem daysOfMonths_mono (year : Nat) {months months' : Nat} (h : months ≤ months') :
    daysOfMonths year months ≤ daysOfMonths year months' := by
  induction h with
  | refl => exact Nat.le_refl _
  | step _ ih => exact Nat.le_trans ih (Nat.le_add_right _ _)

/-- The twelve months make up the year. -/
theorem daysBeforeYear_add_daysOfMonths (year : Nat) :
    daysBeforeYear year + daysOfMonths year 12 = daysBeforeYear (year + 1) := by
  have hmarch := daysBeforeYear_eq year
  have hnext := daysBeforeYear_succ year
  simp only [daysOfMonths, monthLength, ite_isLeap]
  omega

theorem daysBeforeYear_mono {year year' : Nat} (h : year ≤ year') :
    daysBeforeYear year ≤ daysBeforeYear year' := by
  induction h with
  | refl => exact Nat.le_refl _
  | @step last _ ih =>
    rw [← daysBeforeYear_add_daysOfMonths last]
    exact Nat.le_trans ih (Nat.le_add_right _ _)

/-- A date comes before the next year. -/
theorem Date.dayNumber_lt {date : Date} (h : date.isValid = true) :
    date.dayNumber < daysBeforeYear (date.year + 1) := by
  have hmonths := daysBeforeYear_add_daysOfMonths date.year
  simp only [Date.isValid, Bool.and_eq_true, decide_eq_true_eq] at h
  obtain ⟨⟨⟨hfirst, hlast⟩, hpos⟩, hday⟩ := h
  have hmono := daysOfMonths_mono date.year hlast
  obtain ⟨before, hbefore⟩ := Nat.exists_eq_add_of_le' hfirst
  rw [hbefore, daysOfMonths] at hmono
  rw [hbefore] at hday
  unfold Date.dayNumber
  rw [hbefore, Nat.add_sub_cancel]
  omega

/-- The year of a date is decided by the number of its day. -/
theorem Date.year_le_iff {date : Date} (h : date.isValid = true) {year : Nat} :
    date.year ≤ year ↔ date.dayNumber < daysBeforeYear (year + 1) := by
  have hlast := date.dayNumber_lt h
  have hfirst : daysBeforeYear date.year ≤ date.dayNumber := by
    unfold Date.dayNumber
    omega
  constructor
  · intro hyear
    exact Nat.lt_of_lt_of_le hlast (daysBeforeYear_mono (Nat.succ_le_succ hyear))
  · intro hday
    refine Nat.le_of_not_lt fun hyear ↦ ?_
    exact Nat.not_le_of_lt hday (Nat.le_trans (daysBeforeYear_mono hyear) hfirst)

/-- The year of a count of days is decided by comparing it with the start of the next year. -/
theorem year_ofDays_le_iff {days year : Nat} :
    (Date.ofDays days).year ≤ year ↔ days + epochDays < daysBeforeYear (year + 1) := by
  rw [Date.year_le_iff (isValid_ofDays days), dayNumber_ofDays]

end ChainClient.Calendar
