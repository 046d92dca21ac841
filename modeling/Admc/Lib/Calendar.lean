import Mathlib.Data.Int.Notation
import Mathlib.Tactic.Common
import Mathlib.Tactic.IntervalCases

/-!
# The Gregorian calendar

Dates of the calendar, extended to all years, and the number of days up to a date.
Years are counted from March here, so that a leap day is the last one of its year:
`Date.dayNumber` adds the days of the years, of the months and of the month, and
`Date.ofDayNumber` takes them apart again, by centuries, years and months.

* `Date.ofDayNumber_dayNumber`, `Date.dayNumber_ofDayNumber`: the two are inverse;
* `Moment.ofInstant_instant`, `Moment.instant_ofInstant`: so are those for a date with
  a time of day, which is counted in milliseconds.
-/

namespace Calendar

/-- A year with a leap day. -/
def IsLeapYear (year : ℤ) : Prop := year % 4 = 0 ∧ (year % 100 ≠ 0 ∨ year % 400 = 0)

instance (year : ℤ) : Decidable (IsLeapYear year) := inferInstanceAs (Decidable (_ ∧ _))

/-- The number of days of a month. -/
def daysInMonth (year month : ℤ) : ℤ :=
  if month = 2 then if IsLeapYear year then 29 else 28
  else if month = 4 ∨ month = 6 ∨ month = 9 ∨ month = 11 then 30 else 31

/-- A date of the calendar. -/
@[ext] structure Date where
  year : ℤ
  month : ℤ
  day : ℤ
  month_pos : 1 ≤ month
  month_le : month ≤ 12
  day_pos : 1 ≤ day
  day_le : day ≤ daysInMonth year month
  deriving DecidableEq

/-! ## Years from March -/

/-- The days before a year that starts in March. -/
def daysBeforeYear (y : ℤ) : ℤ := 365 * y + y / 4 - y / 100 + y / 400

/-- The days before a month, counted from March on. -/
def daysBeforeMonth (m : ℤ) : ℤ := (153 * m + 2) / 5

/-- The month, counted from March on. -/
def marchMonth (month : ℤ) : ℤ := month + 12 * ((14 - month) / 12) - 3

/-- The number of days up to a date, from March of the year zero on. -/
def Date.dayNumber (date : Date) : ℤ :=
  daysBeforeYear (date.year - (14 - date.month) / 12) +
    (daysBeforeMonth (marchMonth date.month) + (date.day - 1))

/-- The century of a day, with the day in it. -/
def splitCentury (n : ℤ) : ℤ × ℤ :=
  let b := (4 * n + 3) / 146097
  (b, n - 146097 * b / 4)

/-- The year of a day of a century, with the day in it. -/
def splitYear (c : ℤ) : ℤ × ℤ :=
  let d := (4 * c + 3) / 1461
  (d, c - 1461 * d / 4)

/-- The month of a day of a year, with the day in it. -/
def splitMonth (e : ℤ) : ℤ × ℤ :=
  let m := (5 * e + 2) / 153
  (m, e - daysBeforeMonth m)

/-- A day of a century is in it: the last day only if the century has it. -/
theorem splitCentury_eq {b c : ℤ} (hc : 0 ≤ c) (hle : c ≤ 36524)
    (hlast : c = 36524 → b % 4 = 3) : splitCentury (146097 * b / 4 + c) = (b, c) := by
  have hb : (4 * (146097 * b / 4 + c) + 3) / 146097 = b := by omega
  rw [splitCentury, hb, Prod.mk.injEq]
  exact ⟨rfl, by omega⟩

/-- A day of a year is in it: the leap day only if the year has it. -/
theorem splitYear_eq {d e : ℤ} (he : 0 ≤ e) (hle : e ≤ 365) (hlast : e = 365 → d % 4 = 3) :
    splitYear (1461 * d / 4 + e) = (d, e) := by
  have hd : (4 * (1461 * d / 4 + e) + 3) / 1461 = d := by omega
  rw [splitYear, hd, Prod.mk.injEq]
  exact ⟨rfl, by omega⟩

/-- A day of a month is in it. -/
theorem splitMonth_eq {m f : ℤ} (hf : 0 ≤ f)
    (hlt : f < daysBeforeMonth (m + 1) - daysBeforeMonth m) :
    splitMonth (daysBeforeMonth m + f) = (m, f) := by
  rw [daysBeforeMonth, daysBeforeMonth] at hlt
  have hm : (5 * (daysBeforeMonth m + f) + 2) / 153 = m := by
    rw [daysBeforeMonth]
    omega
  rw [splitMonth, hm, Prod.mk.injEq]
  exact ⟨rfl, by omega⟩

theorem daysBeforeYear_eq (b d : ℤ) (hd : 0 ≤ d) (hlt : d < 100) :
    daysBeforeYear (100 * b + d) = 146097 * b / 4 + 1461 * d / 4 := by
  have hquarter : (100 * b + d) / 4 = 25 * b + d / 4 := by omega
  have hcentury : (100 * b + d) / 100 = b := by omega
  have hcycle : (100 * b + d) / 400 = b / 4 := by omega
  have hb : 146097 * b / 4 = 36524 * b + b / 4 := by omega
  have hd' : 1461 * d / 4 = 365 * d + d / 4 := by omega
  rw [daysBeforeYear, hquarter, hcentury, hcycle, hb, hd']
  omega

/-- Where a day of a century is. -/
theorem splitCentury_spec (n : ℤ) : n = 146097 * (splitCentury n).1 / 4 + (splitCentury n).2 ∧
    0 ≤ (splitCentury n).2 ∧ (splitCentury n).2 ≤ 36524 ∧
      ((splitCentury n).2 = 36524 → (splitCentury n).1 % 4 = 3) := by
  obtain ⟨b, hb⟩ : ∃ b, (4 * n + 3) / 146097 = b := ⟨_, rfl⟩
  have hsplit : splitCentury n = (b, n - 146097 * b / 4) := by rw [splitCentury, hb]
  rw [hsplit]
  dsimp only
  have hquarter : 146097 * b / 4 = 36524 * b + b / 4 := by omega
  omega

/-- Where a day of a year is, in a century. -/
theorem splitYear_spec {c : ℤ} (hc : 0 ≤ c) (hle : c ≤ 36524) :
    c = 1461 * (splitYear c).1 / 4 + (splitYear c).2 ∧
      0 ≤ (splitYear c).1 ∧ (splitYear c).1 < 100 ∧ 0 ≤ (splitYear c).2 ∧ (splitYear c).2 ≤ 365 ∧
        ((splitYear c).2 = 365 → (splitYear c).1 % 4 = 3 ∧ ((splitYear c).1 = 99 → c = 36524)) := by
  simp only [splitYear]
  omega

/-- Where a day of a month is, in a year. -/
theorem splitMonth_spec {e : ℤ} (he : 0 ≤ e) (hle : e ≤ 365) :
    e = daysBeforeMonth (splitMonth e).1 + (splitMonth e).2 ∧
      0 ≤ (splitMonth e).1 ∧ (splitMonth e).1 ≤ 11 ∧ 0 ≤ (splitMonth e).2 ∧
        (splitMonth e).2 <
          daysBeforeMonth ((splitMonth e).1 + 1) - daysBeforeMonth (splitMonth e).1 := by
  simp only [splitMonth, daysBeforeMonth]
  omega

/-! ## Dates -/

/-- The months do not have more days than come before the next one. -/
theorem daysInMonth_le {year month : ℤ} (hpos : 1 ≤ month) (hle : month ≤ 12) :
    daysInMonth year month ≤ daysBeforeMonth (marchMonth month + 1) -
      daysBeforeMonth (marchMonth month) := by
  simp only [daysInMonth, daysBeforeMonth, marchMonth]
  split_ifs with hfeb _ hshort
  · subst hfeb
    omega
  · subst hfeb
    omega
  · rcases hshort with rfl | rfl | rfl | rfl <;> omega
  · interval_cases month <;> omega

/-- But for February, they have as many. -/
theorem daysInMonth_eq {year month : ℤ} (hpos : 1 ≤ month) (hle : month ≤ 12) (hne : month ≠ 2) :
    daysInMonth year month = daysBeforeMonth (marchMonth month + 1) -
      daysBeforeMonth (marchMonth month) := by
  simp only [daysInMonth, daysBeforeMonth, marchMonth, hne, if_false]
  split_ifs with hshort
  · rcases hshort with rfl | rfl | rfl | rfl <;> omega
  · interval_cases month <;> omega

/-- The month of which a month is so many after March. -/
def ofMarchMonth (m : ℤ) : ℤ := m + 3 - 12 * (m / 10)

theorem marchMonth_ofMarchMonth {m : ℤ} (hm : 0 ≤ m) (hle : m ≤ 11) :
    marchMonth (ofMarchMonth m) = m := by
  rw [marchMonth, ofMarchMonth]
  omega

/-- A day of a century, by its year from March on, the month and the day of the month. -/
structure IsDay (b d m f : ℤ) : Prop where
  year_nonneg : 0 ≤ d
  year_lt : d < 100
  month_nonneg : 0 ≤ m
  month_le : m ≤ 11
  day_nonneg : 0 ≤ f
  day_lt : f < daysBeforeMonth (m + 1) - daysBeforeMonth m
  le_lastDay : daysBeforeMonth m + f ≤ 365
  lastDay : daysBeforeMonth m + f = 365 → d % 4 = 3 ∧ (d = 99 → b % 4 = 3)

theorem IsDay.day_le {b d m f : ℤ} (h : IsDay b d m f) :
    f + 1 ≤ daysInMonth (100 * b + d + m / 10) (ofMarchMonth m) := by
  have hlast := h.le_lastDay
  have hm := h.month_nonneg
  have hle := h.month_le
  have hf := h.day_lt
  by_cases hfeb : m = 11
  · have hleap := h.lastDay
    have hd := h.year_nonneg
    have hlt := h.year_lt
    subst hfeb
    simp only [daysBeforeMonth] at hlast hleap
    rw [daysInMonth, if_pos (by rw [ofMarchMonth]; omega)]
    split_ifs with hyear
    · omega
    · rw [IsLeapYear] at hyear
      omega
  · rw [daysInMonth_eq (by rw [ofMarchMonth]; omega) (by rw [ofMarchMonth]; omega)
      (by rw [ofMarchMonth]; omega), marchMonth_ofMarchMonth hm hle]
    omega

/-- The date of a day of a century. -/
def IsDay.date {b d m f : ℤ} (h : IsDay b d m f) : Date where
  year := 100 * b + d + m / 10
  month := ofMarchMonth m
  day := f + 1
  month_pos := by
    have := h.month_nonneg
    have := h.month_le
    rw [ofMarchMonth]
    omega
  month_le := by
    have := h.month_nonneg
    have := h.month_le
    rw [ofMarchMonth]
    omega
  day_pos := by
    have := h.day_nonneg
    omega
  day_le := h.day_le

theorem isDay_split (n : ℤ) : IsDay (splitCentury n).1 (splitYear (splitCentury n).2).1
    (splitMonth (splitYear (splitCentury n).2).2).1
    (splitMonth (splitYear (splitCentury n).2).2).2 := by
  rcases splitCentury_spec n with ⟨-, hc, hcle, hcentury⟩
  rcases splitYear_spec hc hcle with ⟨-, hd, hdlt, he, hele, hyear⟩
  rcases splitMonth_spec he hele with ⟨hmonth, hm, hmle, hf, hflt⟩
  exact ⟨hd, hdlt, hm, hmle, hf, hflt, hmonth ▸ hele, fun hlast =>
    (hyear (hmonth.trans hlast)).imp_right fun h hd => hcentury (h hd)⟩

/-- The date of a day. -/
def Date.ofDayNumber (n : ℤ) : Date := (isDay_split n).date

theorem IsDay.dayNumber_date {b d m f : ℤ} (h : IsDay b d m f) :
    h.date.dayNumber = 146097 * b / 4 + (1461 * d / 4 + (daysBeforeMonth m + f)) := by
  have hmarch : (14 - ofMarchMonth m) / 12 = m / 10 := by
    have := h.month_nonneg
    have := h.month_le
    rw [ofMarchMonth]
    omega
  simp only [Date.dayNumber, IsDay.date, hmarch,
    marchMonth_ofMarchMonth h.month_nonneg h.month_le, Int.add_sub_cancel,
    daysBeforeYear_eq _ _ h.year_nonneg h.year_lt]
  exact Int.add_assoc ..

/-- A day is that of its date. -/
theorem Date.dayNumber_ofDayNumber (n : ℤ) : (ofDayNumber n).dayNumber = n := by
  rcases splitCentury_spec n with ⟨hn, hc, hcle, -⟩
  rcases splitYear_spec hc hcle with ⟨hyear, -, -, he, hele, -⟩
  rcases splitMonth_spec he hele with ⟨hmonth, -⟩
  rw [ofDayNumber, IsDay.dayNumber_date, ← hmonth, ← hyear, ← hn]

/-- A date, as a day of a century. -/
theorem Date.isDay (date : Date) : IsDay ((date.year - (14 - date.month) / 12) / 100)
    ((date.year - (14 - date.month) / 12) % 100) (marchMonth date.month) (date.day - 1) := by
  have hpos := date.month_pos
  have hle := date.month_le
  have hday := date.day_pos
  have hdays := date.day_le
  have hmonth := @daysInMonth_le date.year date.month hpos hle
  have hfeb : 365 ≤ daysBeforeMonth (marchMonth date.month) + (date.day - 1) →
      date.month = 2 ∧ date.day = 29 ∧ IsLeapYear date.year := by
    intro hlast
    have hfeb : date.month = 2 := by
      by_contra hne
      have hbefore : daysBeforeMonth (marchMonth date.month + 1) ≤ 337 := by
        rw [daysBeforeMonth, marchMonth]
        omega
      omega
    rw [daysInMonth, if_pos hfeb] at hdays
    rw [hfeb, daysBeforeMonth, marchMonth] at hlast
    split_ifs at hdays with hleap
    · exact ⟨hfeb, by omega, hleap⟩
    · omega
  refine ⟨by omega, by omega, ?_, ?_, by omega, by omega, ?_, fun hlast => ?_⟩
  · rw [marchMonth]
    omega
  · rw [marchMonth]
    omega
  · by_contra hlast
    rcases hfeb (by omega) with ⟨hfeb, hday, -⟩
    rw [hfeb, hday, daysBeforeMonth, marchMonth] at hlast
    omega
  · rcases hfeb hlast.ge with ⟨hfeb, -, hleap⟩
    rw [IsLeapYear] at hleap
    rw [hfeb]
    omega

/-- The parts of a day are found again. -/
theorem IsDay.ofDayNumber {b d m f : ℤ} (h : IsDay b d m f) :
    Date.ofDayNumber (146097 * b / 4 + (1461 * d / 4 + (daysBeforeMonth m + f))) = h.date := by
  have hd := h.year_nonneg
  have hlt := h.year_lt
  have hlast := h.le_lastDay
  have hleap := h.lastDay
  have he : 0 ≤ daysBeforeMonth m + f := by
    have := h.month_nonneg
    have := h.day_nonneg
    rw [daysBeforeMonth]
    omega
  have hcentury := splitCentury_eq (b := b) (c := 1461 * d / 4 + (daysBeforeMonth m + f))
    (by omega) (by omega) (by omega)
  have hyear := splitYear_eq he hlast fun hlast => (hleap hlast).1
  have hmonth := splitMonth_eq h.day_nonneg h.day_lt
  ext <;> simp only [Date.ofDayNumber, IsDay.date, hcentury, hyear, hmonth]

/-- A date is that of its day. -/
theorem Date.ofDayNumber_dayNumber (date : Date) : ofDayNumber date.dayNumber = date := by
  have hpos := date.month_pos
  have hle := date.month_le
  have hyear := daysBeforeYear_eq ((date.year - (14 - date.month) / 12) / 100) _
    date.isDay.year_nonneg date.isDay.year_lt
  rw [Int.mul_ediv_add_emod] at hyear
  rw [dayNumber, hyear, Int.add_assoc, date.isDay.ofDayNumber]
  ext
  · simp only [IsDay.date, marchMonth]
    omega
  · simp only [IsDay.date, marchMonth, ofMarchMonth]
    omega
  · exact Int.sub_add_cancel ..

theorem daysBeforeYear_lt {y y' : ℤ} (h : y < y') :
    daysBeforeYear y + 365 ≤ daysBeforeYear y' := by
  simp only [daysBeforeYear]
  omega

/-- The dates of a year, and those before, come before the first day of the next one. -/
theorem Date.dayNumber_lt_iff {date : Date} {year : ℤ} :
    date.dayNumber < daysBeforeYear year + 306 ↔ date.year ≤ year := by
  have hpos := date.month_pos
  have hle := date.month_le
  have hf := date.isDay.day_nonneg
  have hlast := date.isDay.le_lastDay
  have hday := date.isDay.day_lt
  by_cases hmonth : date.month ≤ 2
  · -- January and February are the last months of a year from March on
    have hyear : date.year - (14 - date.month) / 12 = date.year - 1 := by omega
    have hstart : 306 ≤ daysBeforeMonth (marchMonth date.month) := by
      rw [daysBeforeMonth, marchMonth]
      omega
    rw [dayNumber, hyear]
    rcases lt_trichotomy (date.year - 1) year with hlt | heq | hgt
    · have := daysBeforeYear_lt hlt
      omega
    · rw [heq]
      omega
    · have := daysBeforeYear_lt hgt
      omega
  · have hyear : date.year - (14 - date.month) / 12 = date.year := by omega
    have hend : daysBeforeMonth (marchMonth date.month + 1) ≤ 306 := by
      rw [daysBeforeMonth, marchMonth]
      omega
    have hstart : 0 ≤ daysBeforeMonth (marchMonth date.month) := by
      rw [daysBeforeMonth, marchMonth]
      omega
    rw [dayNumber, hyear]
    rcases lt_trichotomy date.year year with hlt | heq | hgt
    · have := daysBeforeYear_lt hlt
      omega
    · rw [heq]
      omega
    · have := daysBeforeYear_lt hgt
      omega

/-! ## Moments -/

/-- A time of day, to the millisecond. -/
@[ext] structure Time where
  hour : ℤ
  minute : ℤ
  second : ℤ
  msec : ℤ
  hour_mem : 0 ≤ hour ∧ hour < 24
  minute_mem : 0 ≤ minute ∧ minute < 60
  second_mem : 0 ≤ second ∧ second < 60
  msec_mem : 0 ≤ msec ∧ msec < 1000
  deriving DecidableEq

/-- The milliseconds of a day up to a time. -/
def Time.msecs (time : Time) : ℤ :=
  3600000 * time.hour + 60000 * time.minute + 1000 * time.second + time.msec

/-- The time of day after so many milliseconds. -/
def Time.ofMsecs (n : ℤ) : Time where
  hour := n % 86400000 / 3600000
  minute := n % 3600000 / 60000
  second := n % 60000 / 1000
  msec := n % 1000
  hour_mem := by omega
  minute_mem := by omega
  second_mem := by omega
  msec_mem := by omega

theorem Time.ofMsecs_msecs (time : Time) (n : ℤ) : ofMsecs (86400000 * n + time.msecs) = time := by
  have hhour := time.hour_mem
  have hminute := time.minute_mem
  have hsecond := time.second_mem
  have hmsec := time.msec_mem
  ext <;> simp only [ofMsecs, msecs] <;> omega

theorem Time.msecs_ofMsecs (n : ℤ) : (ofMsecs n).msecs = n % 86400000 := by
  simp only [ofMsecs, msecs]
  omega

theorem Time.msecs_mem (time : Time) : 0 ≤ time.msecs ∧ time.msecs < 86400000 := by
  have hhour := time.hour_mem
  have hminute := time.minute_mem
  have hsecond := time.second_mem
  have hmsec := time.msec_mem
  rw [msecs]
  omega

/-- A date and a time of day. -/
@[ext] structure Moment where
  date : Date
  time : Time
  deriving DecidableEq

/-- The day from which instants are counted, the first one of 1970. -/
def epochDay : ℤ := 719468

/-- The milliseconds up to a moment. -/
def Moment.instant (moment : Moment) : ℤ :=
  86400000 * (moment.date.dayNumber - epochDay) + moment.time.msecs

/-- The moment of an instant. -/
def Moment.ofInstant (n : ℤ) : Moment :=
  ⟨Date.ofDayNumber (n / 86400000 + epochDay), Time.ofMsecs n⟩

/-- A moment is that of its instant. -/
theorem Moment.ofInstant_instant (moment : Moment) : ofInstant moment.instant = moment := by
  have htime := moment.time.msecs_mem
  have hday : moment.instant / 86400000 + epochDay = moment.date.dayNumber := by
    rw [instant]
    omega
  rw [ofInstant, hday, Date.ofDayNumber_dayNumber, instant, Time.ofMsecs_msecs]

/-- An instant is that of its moment. -/
theorem Moment.instant_ofInstant (n : ℤ) : (ofInstant n).instant = n := by
  rw [instant, ofInstant, Date.dayNumber_ofDayNumber, Time.msecs_ofMsecs]
  omega

/-- The moments of a year, and those before, come before the next one. -/
theorem Moment.instant_lt_iff {moment : Moment} {year : ℤ} :
    moment.instant < 86400000 * (daysBeforeYear year + 306 - epochDay) ↔
      moment.date.year ≤ year := by
  have htime := moment.time.msecs_mem
  rw [← Date.dayNumber_lt_iff, instant]
  omega

example : (Moment.ofInstant 951782400000).date = ⟨2000, 2, 29, by decide, by decide, by decide,
    by decide⟩ := by
  decide

end Calendar
