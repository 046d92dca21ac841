import Admc.Text

/-!
# Time spans

A time span is kept as a negative number of units of a hundred nanoseconds. It is
shown in days, hours, minutes and seconds (`timespanDisplayValue`), and the text
is read again by the dialog that edits it (`getValueList`).

* `readSeconds_clockText`: the seconds in a text are those it was made of;
* `getValueList_ne`: still, no time span is read as it was, since the dialog
  takes a second for a hundred units, and not for ten millions.
-/

namespace Admc

/-- `LLONG_MIN`. -/
def llongMin : ℤ := -2 ^ 63

/-- `DAYS_TO_SECONDS`. -/
def daysToSeconds : ℤ := 86400

/-- `HOURS_TO_SECONDS`. -/
def hoursToSeconds : ℤ := 3600

/-- `MINUTES_TO_SECONDS`. -/
def minutesToSeconds : ℤ := 60

/-- `SECONDS_TO_MILLIS`. -/
def secondsToMillis : ℤ := 1000

/-- `MILLIS_TO_100_NANOS`. -/
def millisTo100Nanos : ℤ := 10000

/-! ## Showing -/

/-- `get_seconds_total`. -/
def getSecondsTotal (hundredNanosNegative : ℤ) : ℤ :=
  let hundredNanos := -hundredNanosNegative
  let millis := hundredNanos.tdiv millisTo100Nanos
  millis.tdiv secondsToMillis

/-- `time_unit_to_string`: two digits. -/
def timeUnitToString (time : ℤ) : QString :=
  let time := if 99 < time then 99 else time
  let timeString := number time
  if time = 0 then "00".toList else if time < 10 then '0' :: timeString else timeString

/-- The text of so many seconds in `timespan_display_value`. -/
def clockText (secondsTotal : ℤ) : QString :=
  let days := secondsTotal.tdiv daysToSeconds
  let secondsTotal := secondsTotal - days * daysToSeconds
  let hours := secondsTotal.tdiv hoursToSeconds
  let secondsTotal := secondsTotal - hours * hoursToSeconds
  let minutes := secondsTotal.tdiv minutesToSeconds
  let secondsTotal := secondsTotal - minutes * minutesToSeconds
  [':'].intercalate
    [number days, timeUnitToString hours, timeUnitToString minutes, timeUnitToString secondsTotal]

/-- `timespan_display_value`. -/
def timespanDisplayValue (bytes : QString) : QString :=
  let hundredNanosNegative := toLongLong bytes
  if hundredNanosNegative = llongMin then "(never)".toList
  else if hundredNanosNegative = 0 then "(none)".toList
  else clockText (getSecondsTotal hundredNanosNegative)

/-! ## Reading -/

/-- The expression for the seconds in `TimeSpanAttributeDialog::get_value_list`: they are
    negated. -/
def readSeconds (d hh mm ss : QString) : ℤ :=
  -toLongLong d * daysToSeconds + -toLongLong hh * hoursToSeconds +
    -toLongLong mm * minutesToSeconds - toLongLong ss

/-- `TimeSpanAttributeDialog::get_value_list`, from the text of the edit. Numbers wrap around
    at 64 bits. -/
def getValueList (newValueString : QString) : List QString :=
  if newValueString = "(none)".toList then [number 0]
  else if newValueString = "(never)".toList then [number llongMin]
  else
    match newValueString.splitOn ':' with
    | [d, hh, mm, ss] =>
      let hundredNanos := Int.bmod (100 * readSeconds d hh mm ss) (2 ^ 64)
      [number hundredNanos]
    | _ => [number 0]

/-! ## Reading what is shown -/

theorem toLongLong_number {n : ℤ} (hmin : -2 ^ 63 ≤ n) (hmax : n < 2 ^ 63) :
    toLongLong (number n) = n := toInteger_number hmin hmax

/-- A leading zero changes nothing. -/
theorem digits_zero_cons {text : QString} {n : ℕ} (h : digits text = some n) :
    digits ('0' :: text) = some n := by
  rw [digits] at h ⊢
  split_ifs at h with hdigits
  rw [if_pos ⟨List.cons_ne_nil _ _, by rw [List.all_cons, hdigits.2]; rfl⟩, ← h,
    Nat.ofDigitChars_cons]
  rfl

/-- A unit of two digits is read as it was. -/
theorem toLongLong_timeUnitToString {time : ℤ} (hmin : 0 ≤ time) (hmax : time ≤ 99) :
    toLongLong (timeUnitToString time) = time := by
  have htime : (if 99 < time then 99 else time) = time := if_neg (by omega)
  rw [timeUnitToString, htime]
  split_ifs with hzero hten
  · rw [hzero]
    decide
  · have habs : (time.natAbs : ℤ) = time := by omega
    rw [number, if_neg (by omega), toLongLong,
      toInteger_of_digits (digits_zero_cons (digits_toDigits _)), habs, if_pos (by omega)]
  · exact toLongLong_number (by omega) (by omega)

theorem colon_not_mem_number (n : ℤ) : ':' ∉ number n := fun h => by
  rcases mem_number h with h | h <;> exact absurd h (by decide)

theorem colon_not_mem_timeUnitToString (time : ℤ) : ':' ∉ timeUnitToString time := by
  rw [timeUnitToString]
  split_ifs
  · decide
  · rw [List.mem_cons, not_or]
    exact ⟨by decide, colon_not_mem_number _⟩
  · exact colon_not_mem_number _
  · decide
  · rw [List.mem_cons, not_or]
    exact ⟨by decide, colon_not_mem_number _⟩
  · exact colon_not_mem_number _

/-- The text of so many seconds has four parts, whose seconds are as many, negated. -/
theorem readSeconds_clockText {n : ℤ} (hmin : 0 ≤ n) (hmax : n < 2 ^ 63) :
    ∃ d hh mm ss, (clockText n).splitOn ':' = [d, hh, mm, ss] ∧ readSeconds d hh mm ss = -n := by
  rw [clockText, daysToSeconds, hoursToSeconds, minutesToSeconds]
  rw [Int.tdiv_eq_ediv_of_nonneg hmin]
  have hhours : 0 ≤ n - n / 86400 * 86400 := by omega
  rw [Int.tdiv_eq_ediv_of_nonneg hhours]
  generalize hd : n / 86400 = d
  generalize hh : (n - d * 86400) / 3600 = h
  have hminutes : 0 ≤ n - d * 86400 - h * 3600 := by omega
  rw [Int.tdiv_eq_ediv_of_nonneg hminutes]
  generalize hm : (n - d * 86400 - h * 3600) / 60 = m
  refine ⟨_, _, _, _, List.splitOn_intercalate ':' ?_ (List.cons_ne_nil _ _), ?_⟩
  · simp [colon_not_mem_number, colon_not_mem_timeUnitToString]
  · rw [readSeconds, toLongLong_number (by omega) (by omega),
      toLongLong_timeUnitToString (by omega) (by omega),
      toLongLong_timeUnitToString (by omega) (by omega),
      toLongLong_timeUnitToString (by omega) (by omega), daysToSeconds, hoursToSeconds,
      minutesToSeconds]
    omega

/-- A text with a colon is not one of the two words. -/
theorem getValueList_clockText {n : ℤ} (hmin : 0 ≤ n) (hmax : n < 2 ^ 63) :
    getValueList (clockText n) = [number (Int.bmod (-(100 * n)) (2 ^ 64))] := by
  obtain ⟨d, hh, mm, ss, hsplit, hread⟩ := readSeconds_clockText hmin hmax
  have hword : ∀ word : QString, word.splitOn ':' = [word] → clockText n ≠ word := by
    rintro word hword rfl
    rw [hsplit] at hword
    exact absurd (congrArg List.length hword) (by simp)
  rw [getValueList, if_neg (hword _ (by decide)), if_neg (hword _ (by decide)), hsplit]
  dsimp only
  rw [hread, Int.mul_neg]

/-! ## The result -/

/-- Of a time span of some seconds, the dialog makes one of as many hundreds of units. -/
theorem getValueList_timespanDisplayValue {s : ℤ} (hs : 1 ≤ s) (hmax : s * 10 ^ 7 ≤ 2 ^ 63) :
    getValueList (timespanDisplayValue (number (-(s * 10 ^ 7)))) = [number (-(100 * s))] := by
  have hnever : -(s * 10 ^ 7) ≠ llongMin := by
    rw [llongMin]
    omega
  have htotal : getSecondsTotal (-(s * 10 ^ 7)) = s := by
    have hunits : 0 ≤ s * 10 ^ 7 := by omega
    have hmillis : 0 ≤ s * 10 ^ 7 / 10000 := by omega
    rw [getSecondsTotal, Int.neg_neg, millisTo100Nanos, secondsToMillis,
      Int.tdiv_eq_ediv_of_nonneg hunits, Int.tdiv_eq_ediv_of_nonneg hmillis]
    omega
  rw [timespanDisplayValue, toLongLong_number (by omega) (by omega), if_neg hnever, if_neg (by omega),
    htotal, getValueList_clockText (by omega) (by omega)]
  -- no wrap around
  rw [Int.bmod_eq_of_le (by omega) (by omega)]

/-- No time span of some seconds is left as it is. -/
theorem getValueList_ne {s : ℤ} (hs : 1 ≤ s) (hmax : s * 10 ^ 7 ≤ 2 ^ 63) :
    getValueList (timespanDisplayValue (number (-(s * 10 ^ 7)))) ≠ [number (-(s * 10 ^ 7))] := by
  rw [getValueList_timespanDisplayValue hs hmax]
  intro h
  have hread := congrArg toLongLong (List.cons.inj h).1
  rw [toLongLong_number (by omega) (by omega), toLongLong_number (by omega) (by omega)] at hread
  omega

/-- A minute. -/
theorem getValueList_ne_minute : getValueList (timespanDisplayValue (number (-(60 * 10 ^ 7)))) ≠
    [number (-(60 * 10 ^ 7))] := getValueList_ne (by decide) (by decide)

/-- A second, which is shown as "0:00:00:01", becomes a hundred units. -/
theorem not_lossless_second :
    timespanDisplayValue (number (-(1 * 10 ^ 7))) = "0:00:00:01".toList ∧
      getValueList (timespanDisplayValue (number (-(1 * 10 ^ 7)))) = ["-100".toList] ∧
      ["-100".toList] ≠ [number (-(1 * 10 ^ 7))] := by
  decide

end Admc
