import ChainClient.Proofs.Json.Arrangement
import ChainClient.Proofs.Text.Digits
import ChainClient.Proofs.Time.Calendar
import ChainClient.Time.Timestamp

/-!
# The texts of timestamps

The text of a moment up to the year 9999 has a fixed width for every part, so that its reader finds
each part where it was written. From the year 10000 on the text begins with a plus sign, which the
reader does not take; behind the last year of the calendar it is a bare count, which the reader
takes again.
-/

namespace ChainClient.Timestamp

open Text (Stops)
open Text.Decimal (padded)

/-! ## The parts of a text -/

section Parts

variable {n width : Nat} {rest : List Char}

/-- A number of a fixed width reads back in front of anything. -/
theorem fixedNumber?_padded (hwidth : 0 < width) (h : n < 10 ^ width) :
    fixedNumber? width (padded width n ++ rest) = some (n, rest) := by
  have hlength := Text.Decimal.length_padded hwidth h
  have hshort : ¬ (padded width n ++ rest).length < width := by
    rw [List.length_append]
    omega
  rw [fixedNumber?, if_neg hshort, List.take_left' hlength, List.drop_left' hlength,
    Text.Decimal.numeral?_padded]
  rfl

theorem sign?_cons {accepted : List Char} {c : Char} (h : c ∈ accepted) :
    sign? accepted (c :: rest) = some rest := if_pos h

/-- Three digits of a fraction are milliseconds. -/
theorem fractionMillis?_padded (h : n < 1000) :
    fractionMillis? ('.' :: (padded 3 n ++ ['Z'])) = some (n, ['Z']) := by
  have hlength : (padded 3 n).length = 3 := Text.Decimal.length_padded (by decide) h
  have hdigits : ∀ c ∈ padded 3 n, Text.Decimal.isDigit c = true :=
    fun c hc ↦ Text.Decimal.isDigit_of_mem_padded hc
  have hstops : Stops Text.Decimal.isDigit ['Z'] := Text.stops_cons rfl
  rw [fractionMillis?, Text.takeWhile_run hdigits hstops, Text.dropWhile_run hdigits hstops]
  split
  case h_1 hnil =>
    rw [hnil] at hlength
    cases hlength
  case h_2 =>
    rw [List.take_left' hlength, Text.Decimal.numeral?_padded]
    rfl

/-! One step of the reader, for a number and for a sign. -/

theorem bind_fixedNumber? {next : Nat × List Char → Option Int} {result : Int}
    (hwidth : 0 < width) (h : n < 10 ^ width) (hnext : next (n, rest) = some result) :
    (fixedNumber? width (padded width n ++ rest)).bind next = some result :=
  Option.bind_eq_some_iff.2 ⟨_, fixedNumber?_padded hwidth h, hnext⟩

theorem bind_sign? {accepted : List Char} {c : Char} {next : List Char → Option Int}
    {result : Int} (h : c ∈ accepted) (hnext : next rest = some result) :
    (sign? accepted (c :: rest)).bind next = some result :=
  Option.bind_eq_some_iff.2 ⟨_, sign?_cons h, hnext⟩

end Parts

/-- The text of a moment, given by its date and its time of day. -/
def dateTimeChars (date : Calendar.Date) (hour minute second millis : Nat) : List Char :=
  padded 4 date.year ++ '-' :: (padded 2 date.month ++ '-' :: (padded 2 date.day ++
    'T' :: (padded 2 hour ++ ':' :: (padded 2 minute ++ ':' :: (padded 2 second ++
      '.' :: (padded 3 millis ++ ['Z']))))))

/-- A date and time of the calendar reads back if its year has four digits. -/
theorem dateTime?_dateTimeChars {date : Calendar.Date} {hour minute second millis : Nat}
    (hyear : date.year ≤ 9999) (hvalid : date.isValid = true) (hhour : hour < 24)
    (hminute : minute < 60) (hsecond : second < 60) (hmillis : millis < 1000) :
    dateTime? (dateTimeChars date hour minute second millis) =
      some (date.toDays * 86400000 + (hour * 60 + minute) * 60000 + second * 1000 + millis) := by
  obtain ⟨hmonth, hday⟩ := Calendar.Date.month_le_and_day_le hvalid
  have hinside : date.isValid = true ∧ hour < 24 ∧ minute < 60 ∧ second ≤ 60 :=
    ⟨hvalid, hhour, hminute, Nat.le_of_lt hsecond⟩
  unfold dateTimeChars dateTime?
  -- One step for each part, in the order of the text.
  refine bind_fixedNumber? (by decide) (by omega) ?_
  refine bind_sign? List.mem_cons_self ?_
  refine bind_fixedNumber? (by decide) (by omega) ?_
  refine bind_sign? List.mem_cons_self ?_
  refine bind_fixedNumber? (by decide) (by omega) ?_
  refine bind_sign? List.mem_cons_self ?_
  refine bind_fixedNumber? (by decide) (by omega) ?_
  refine bind_sign? List.mem_cons_self ?_
  refine bind_fixedNumber? (by decide) (by omega) ?_
  refine bind_sign? List.mem_cons_self ?_
  refine bind_fixedNumber? (by decide) (by omega) ?_
  refine Option.bind_eq_some_iff.2 ⟨_, fractionMillis?_padded hmillis, ?_⟩
  refine Option.bind_eq_some_iff.2 ⟨0, rfl, ?_⟩
  exact (if_pos hinside).trans (by rw [Int.sub_zero])

/-- A date and time is no bare count. -/
theorem countDigits?_calendarChars (n : Nat) : countDigits? (calendarChars n) = none := by
  rw [calendarChars, countDigits?, List.reverse_append]
  rfl

/-- A bare count is no date and time. -/
theorem ofChars_ofNat {n : Nat} (h : n < UInt64.size) :
    ofChars (Text.Decimal.ofNat n ++ ['m', 's']) = .ok ⟨UInt64.ofNat n⟩ := by
  have hdigits : (Text.Decimal.ofNat n).reverse.all Text.Decimal.isDigit = true :=
    List.all_eq_true.2 fun c hc ↦ Text.Decimal.isDigit_of_mem_ofNat (List.mem_reverse.1 hc)
  have hne : (Text.Decimal.ofNat n).reverse ≠ [] :=
    mt List.reverse_eq_nil_iff.1 (Text.Decimal.ofNat_ne_nil n)
  have hcount :
      countDigits? (Text.Decimal.ofNat n ++ ['m', 's']) = some (Text.Decimal.ofNat n) := by
    have hstrip : Text.stripLabel? ['s', 'm'] (Text.Decimal.ofNat n ++ ['m', 's']).reverse =
        some (Text.Decimal.ofNat n).reverse := by
      rw [List.reverse_append]
      exact Text.stripLabel?_append _ _
    refine Option.bind_eq_some_iff.2 ⟨_, hstrip, ?_⟩
    rw [if_pos ⟨hne, hdigits⟩, List.reverse_reverse]
  rw [ofChars, hcount]
  simp only [Text.Decimal.numeral?_ofNat, if_pos h]

/-- Only digits are taken where the year begins. -/
theorem dateTime?_plus (cs : List Char) : dateTime? ('+' :: cs) = none := by
  have hyear : fixedNumber? 4 ('+' :: cs) = none := by
    unfold fixedNumber?
    split
    case isTrue => rfl
    case isFalse => rfl
  rw [dateTime?, hyear]
  rfl

/-! ## Timestamps -/

/-- The date on which the moment falls. -/
def date (t : Timestamp) : Calendar.Date := .ofDays (t.millis.toNat / 86400000)

/-- The year of a timestamp is decided by the number of its day. -/
theorem year_le_iff {t : Timestamp} {year : Nat} : t.date.year ≤ year ↔
    t.millis.toNat / 86400000 + Calendar.epochDays < Calendar.daysBeforeYear (year + 1) :=
  Calendar.year_ofDays_le_iff

/-- The first millisecond of the year 10000 is the 253402300800000th. -/
theorem year_le_9999_iff {t : Timestamp} :
    t.date.year ≤ 9999 ↔ t.millis.toNat < 253402300800000 := by
  rw [year_le_iff, Calendar.epochDays, Calendar.daysBeforeYear]
  omega

/-- The last year of the calendar ends at a known millisecond. -/
theorem year_le_262142_iff {t : Timestamp} :
    t.date.year ≤ 262142 ↔ t.millis.toNat ≤ lastCalendarMillis := by
  rw [year_le_iff, Calendar.epochDays, Calendar.daysBeforeYear, lastCalendarMillis]
  omega

/-- The four digits of the year, and what the text goes on with. -/
theorem yearChars_append {date : Calendar.Date} (h : date.year ≤ 9999) (rest : Nat) :
    yearChars date.year ++ '-' :: padded 2 date.month ++ '-' :: padded 2 date.day ++
        'T' :: padded 2 (rest / 3600000) ++ ':' :: padded 2 (rest / 60000 % 60) ++
        ':' :: padded 2 (rest / 1000 % 60) ++ '.' :: padded 3 (rest % 1000) ++ ['Z'] =
      dateTimeChars date (rest / 3600000) (rest / 60000 % 60) (rest / 1000 % 60) (rest % 1000) := by
  rw [yearChars, if_pos h, dateTimeChars]
  simp only [List.append_assoc, List.cons_append]

/-- Up to the year 9999 the text is date and time with milliseconds. -/
theorem chars_eq {t : Timestamp} (h : t.date.year ≤ 9999) :
    t.chars = dateTimeChars t.date (t.millis.toNat % 86400000 / 3600000)
      (t.millis.toNat % 86400000 / 60000 % 60) (t.millis.toNat % 86400000 / 1000 % 60)
      (t.millis.toNat % 86400000 % 1000) :=
  calc
    t.chars = calendarChars t.millis.toNat :=
      if_pos (year_le_262142_iff.1 (Nat.le_trans h (by decide)))
    _ = _ := yearChars_append h _

/-- The time of day and the day make up the moment again. -/
theorem dateTime?_chars {t : Timestamp} (h : t.date.year ≤ 9999) :
    dateTime? t.chars = some (t.millis.toNat : Int) := by
  have hdays := Calendar.toDays_ofDays (t.millis.toNat / 86400000)
  change t.date.toDays = _ at hdays
  rw [chars_eq h, dateTime?_dateTimeChars h (Calendar.isValid_ofDays _) (by omega) (by omega)
    (by omega) (by omega), hdays]
  congr 1
  omega

/-- What is written of a moment up to the year 9999 is read back. -/
theorem ofText_text {t : Timestamp} (h : t.date.year ≤ 9999) : ofText t.text = .ok t := by
  have hcount : countDigits? t.chars = none := by
    rw [chars, if_pos (year_le_262142_iff.1 (Nat.le_trans h (by decide)))]
    exact countDigits?_calendarChars _
  rw [ofText, text, String.toList_ofList, ofChars, hcount, dateTime?_chars h]
  exact congrArg (fun millis ↦ Except.ok (Timestamp.mk millis)) UInt64.ofNat_toNat

/-- A timestamp survives as its text up to the year 9999. -/
theorem readsBack {t : Timestamp} (h : t.date.year ≤ 9999) : ReadsBack t :=
  Json.readsBack_text (ofText_text h)

/-- The text starts with the year. -/
theorem exists_calendarChars_eq (n : Nat) : ∃ rest,
    calendarChars n = yearChars (Calendar.Date.ofDays (n / 86400000)).year ++ rest := by
  simp only [calendarChars, List.append_assoc]
  exact ⟨_, rfl⟩

/-- What is written of a moment of a later year of the calendar begins with a plus sign. -/
theorem ofText_text_of_long_year {t : Timestamp} (hlong : 9999 < t.date.year)
    (hyear : t.date.year ≤ 262142) : ofText t.text = .error .badDateTime := by
  have hplus : yearChars t.date.year = '+' :: Text.Decimal.ofNat t.date.year :=
    if_neg (Nat.not_le_of_lt hlong)
  have hchars : t.chars = calendarChars t.millis.toNat := if_pos (year_le_262142_iff.1 hyear)
  obtain ⟨rest, hrest⟩ := exists_calendarChars_eq t.millis.toNat
  have hcount := countDigits?_calendarChars t.millis.toNat
  rw [hrest, ← date, hplus, List.cons_append] at hcount
  rw [hrest, ← date, hplus, List.cons_append] at hchars
  rw [ofText, text, String.toList_ofList, hchars, ofChars, hcount, dateTime?_plus]

/-- After the last year of the calendar the text is a number, which reads back. -/
theorem ofText_text_of_late {t : Timestamp} (h : 262142 < t.date.year) :
    ofText t.text = .ok t := by
  have hlate : ¬t.millis.toNat ≤ lastCalendarMillis := by
    rw [← year_le_262142_iff]
    exact Nat.not_le_of_lt h
  rw [ofText, text, String.toList_ofList, chars, if_neg hlate, ofChars_ofNat t.millis.toNat_lt,
    UInt64.ofNat_toNat]

/-- What is written of a moment is read back, unless its year has more than four digits and is one
of the calendar; then it is refused. -/
theorem reads_back_unless_long_year (t : Timestamp) :
    (ofText t.text =
      if 9999 < t.date.year ∧ t.date.year ≤ 262142 then .error .badDateTime else .ok t) ∧
    (9999 < t.date.year ∧ t.date.year ≤ 262142 ↔
      253402300800000 ≤ t.millis.toNat ∧ t.millis.toNat ≤ 8210266876799999) := by
  constructor
  · split
    case isTrue h => exact ofText_text_of_long_year h.1 h.2
    case isFalse h =>
      rcases Nat.lt_or_ge 9999 t.date.year with hlong | hshort
      · exact ofText_text_of_late (Nat.lt_of_not_le fun hyear ↦ h ⟨hlong, hyear⟩)
      · exact ofText_text hshort
  · rw [← Nat.not_le, year_le_9999_iff, year_le_262142_iff, Nat.not_lt]
    exact Iff.rfl

/-- The first millisecond of the year 10000. -/
theorem not_forall_ofText_text : ¬∀ millis : UInt64, ofText (text ⟨millis⟩) = .ok ⟨millis⟩ := by
  intro h
  have hlong : 9999 < (date ⟨253402300800000⟩).year :=
    Nat.lt_of_not_le fun hyear ↦ absurd (year_le_9999_iff.1 hyear) (by decide)
  have hyear : (date ⟨253402300800000⟩).year ≤ 262142 := year_le_262142_iff.2 (by decide)
  have hrefused := ofText_text_of_long_year hlong hyear
  rw [h] at hrefused
  cases hrefused

end ChainClient.Timestamp
