import Admc.DatetimeDialog

/-!
# Values with a time, read and written again

A value is read as a time, and the time is written as a value again. A large integer in whole
milliseconds stays as it is. A text stays only if the fraction of its second is spelled as the
code spells it; and if its year has two digits, it must not be 29 February 2000, as the year that
is read, 1900, is not a leap year.

* `roundTrips_text_iff`: which texts stay as they are;
* `datetimeRoundTrip_iff`: which values of an attribute do.
-/

namespace Admc

open Calendar

/-- The fraction of a second that has no fraction: nothing, or a point or comma with zeros. -/
def IsZeroFraction (fraction : QString) : Prop :=
  fraction = [] ∨ ∃ point zeros, (point = '.' ∨ point = ',') ∧ 0 < zeros ∧
    fraction = point :: List.replicate zeros '0'

/-- The years of the texts of a format. -/
def TimeFormat.InYears (year : ℤ) : TimeFormat → Prop
  | .generalized => 1601 ≤ year ∧ year ≤ 9999
  | .utc => 1950 ≤ year ∧ year ≤ 2049

instance (format : TimeFormat) (year : ℤ) : Decidable (format.InYears year) :=
  match format with
  | .generalized => inferInstanceAs (Decidable (_ ∧ _))
  | .utc => inferInstanceAs (Decidable (_ ∧ _))

/-- The text for a moment in whole seconds, with a fraction that is zero. -/
def TimeFormat.wholeSeconds (format : TimeFormat) (moment : Moment) (fraction : QString) :
    QString :=
  format.secondsText moment ++ (fraction ++ ['Z'])

section
variable (rt : Runtime) (adconfig : Option AttributeSchemas) (attr : String)

/-- `datetime_qdatetime_to_string`, of a time that may be invalid: its text is empty, and no time
    has passed up to it. -/
def qdatetimeToString : Option ℤ → QString
  | some datetime => datetimeQdatetimeToString rt adconfig attr datetime
  | none =>
    match adconfig with
    | none => []
    | some schemas =>
      match schemas.getAttributeType rt attr with
      | .largeInteger => number 0
      | _ => []

/-- A value that is read and written stays as it is. -/
def RoundTrips (text : QString) : Prop :=
  qdatetimeToString rt adconfig attr (datetimeStringToQdatetime rt adconfig attr text) = text

end

/-- In 64 bits. -/
def FitsQint64 (n : ℤ) : Prop := -2 ^ 63 ≤ n ∧ n < 2 ^ 63

/-! ## Texts -/

section
variable {format : TimeFormat} {moment moment' : Moment} {fraction text : QString}

/-- What comes before the fraction has a length. -/
theorem TimeFormat.length_secondsText (h : 1 ≤ moment.date.year ∧ moment.date.year ≤ 9999) :
    (format.secondsText moment).length = format.yearDigits + 10 := by
  have htwo {n : ℤ} (hn : 0 ≤ n) (hlt : n < 100) : (zeroPad 2 n).length = 2 :=
    (zeroPad_spec (by decide) hn (by omega)).1
  have hyear : (zeroPad format.yearDigits (format.shortYear moment.date.year)).length =
      format.yearDigits := by
    cases format with
    | generalized => exact (zeroPad_spec (by decide) (by rw [shortYear]; omega)
        (by rw [shortYear, yearDigits]; omega)).1
    | utc => exact (zeroPad_spec (by decide) (by rw [shortYear]; omega)
        (by rw [shortYear, yearDigits]; omega)).1
  have hmonth := moment.date.month_pos
  have hmonth' := moment.date.month_le
  have hday := moment.date.day_pos
  have hday' := moment.date.day_le.trans (daysInMonth_le_31 _ _)
  have hhour := moment.time.hour_mem
  have hminute := moment.time.minute_mem
  have hsecond := moment.time.second_mem
  rw [secondsText, List.length_append, List.length_append, List.length_append, List.length_append,
    List.length_append, hyear, htwo (by omega) (by omega), htwo (by omega) (by omega),
    htwo (by omega) (by omega), htwo (by omega) (by omega), htwo (by omega) (by omega)]

theorem TimeFormat.InYears.mem (h : format.InYears moment.date.year) :
    1 ≤ moment.date.year ∧ moment.date.year ≤ 9999 := by
  cases format with
  | generalized => exact ⟨le_trans (by decide) h.1, h.2⟩
  | utc => exact ⟨le_trans (by decide) h.1, le_trans h.2 (by decide)⟩

theorem TimeFormat.HasYear.mem (h : format.HasYear moment.date.year) :
    1 ≤ moment.date.year ∧ moment.date.year ≤ 9999 := by
  cases format with
  | generalized => exact h
  | utc => exact ⟨le_trans (by decide) h.1, le_trans h.2 (by decide)⟩

/-- A text that is read, and whose fraction is short, has the fraction of the code. -/
theorem fraction_of_fromString (hyears : format.InYears moment.date.year)
    (hfraction : IsZeroFraction fraction)
    (hread : format.fromString (format.wholeSeconds moment fraction) = some moment')
    (hshort : ShortFraction (format.wholeSeconds moment fraction)) : fraction = ['.', '0'] := by
  obtain ⟨hyear, width, n, hwidth, -, hn, hlt, htext, -⟩ := TimeFormat.fromString_eq_some hread
  have hlength : (format.secondsText moment).length = (format.secondsText moment').length := by
    rw [TimeFormat.length_secondsText hyears.mem, TimeFormat.length_secondsText hyear.mem]
  have htail := (List.append_inj htext hlength).2
  rcases hfraction with rfl | ⟨point, zeros, -, hzeros, rfl⟩
  · exact absurd (List.cons.inj htail).1 (by decide)
  obtain ⟨rfl, hdigit⟩ := List.cons.inj htail
  have hpad := List.append_cancel_right hdigit
  -- the number is zero, so that it is written with one digit
  obtain ⟨hpadLength, -, hdigits⟩ := zeroPad_spec hwidth hn hlt
  have hzero : n = 0 := by
    rw [← hpad, digits] at hdigits
    split_ifs at hdigits
    rw [Option.some.injEq, Nat.ofDigitChars_replicate_zero, Nat.mul_zero, eq_comm] at hdigits
    exact Int.natAbs_eq_zero.1 hdigits
  rw [htext, shortFraction_iff hwidth hn hlt, hzero] at hshort
  have hone : width = 1 := hshort.resolve_right (not_not.2 rfl)
  rw [← hpad, List.length_replicate, hone] at hpadLength
  rw [hpadLength]
  rfl

/-- The text of a moment in whole seconds, with the fraction of the code, is what is written. -/
theorem TimeFormat.toString_of_msec (hmsec : moment.time.msec = 0) :
    format.toString moment = format.wholeSeconds moment ['.', '0'] := by
  rw [toString, wholeSeconds, hmsec]
  rfl

/-- The years of two digits have the days of the years that are meant, but for 2000. -/
theorem daysInMonth_utc {year month day : ℤ} (hyears : 1950 ≤ year ∧ year ≤ 2049)
    (hday : day ≤ daysInMonth year month) :
    day ≤ daysInMonth (1900 + year % 100) month ↔ ¬(year = 2000 ∧ month = 2 ∧ day = 29) := by
  simp only [daysInMonth, IsLeapYear] at hday ⊢
  split_ifs at hday ⊢ <;> omega

/-- What is read of what is written for a moment: the moment in the year that is meant, unless
    this is 29 February of a year without it. -/
theorem fromString_toString_iff (hyears : format.InYears moment.date.year) :
    (∃ moment', format.fromString (format.toString moment) = some moment' ∧
      format.toString moment' = format.toString moment) ↔
      ¬(format = .utc ∧ moment.date.year = 2000 ∧ moment.date.month = 2 ∧ moment.date.day = 29) := by
  have hmem := hyears.mem
  rw [TimeFormat.fromString_toString format hmem.1 hmem.2]
  cases format with
  | generalized =>
    rw [TimeFormat.shortYear, TimeFormat.fullYear, makeDateTime_fields hmem.1]
    exact iff_of_true ⟨moment, rfl, rfl⟩ fun h => TimeFormat.noConfusion h.1
  | utc =>
    have hyear : 1 ≤ 1900 + moment.date.year % 100 := by omega
    have hdays := daysInMonth_utc hyears moment.date.day_le
    rw [TimeFormat.shortYear, TimeFormat.fullYear, makeDateTime]
    split_ifs with hvalid
    · refine iff_of_true ⟨_, rfl, ?_⟩ fun h => hdays.1 hvalid.2.1.2.2.2 h.2
      have hshort : (1900 + moment.date.year % 100) % 100 = moment.date.year % 100 := by omega
      simp only [TimeFormat.toString, TimeFormat.secondsText, TimeFormat.shortYear, hshort]
    · refine iff_of_false (by simp) fun h => hvalid ⟨hyear, ?_⟩
      exact ⟨⟨moment.date.month_pos, moment.date.month_le, moment.date.day_pos,
        hdays.2 fun hdate => h ⟨rfl, hdate⟩⟩, moment.time.hour_mem, moment.time.minute_mem,
        moment.time.second_mem, moment.time.msec_mem⟩

/-- Of the texts for whole seconds, those are read and written as they are that have the fraction
    of the code, but for 29 February 2000 in two digits. -/
theorem roundTrips_text_iff (hyears : format.InYears moment.date.year)
    (hmsec : moment.time.msec = 0) (hfraction : IsZeroFraction fraction) :
    (∃ moment', format.fromString (format.wholeSeconds moment fraction) = some moment' ∧
      format.toString moment' = format.wholeSeconds moment fraction) ↔
      fraction = ['.', '0'] ∧ ¬(format = .utc ∧ moment.date.year = 2000 ∧
        moment.date.month = 2 ∧ moment.date.day = 29) := by
  rw [← fromString_toString_iff hyears, TimeFormat.toString_of_msec hmsec]
  constructor
  · rintro ⟨moment', hread, hwrite⟩
    have hshort := (TimeFormat.toString_eq_iff hread).1 hwrite
    have hzero := fraction_of_fromString hyears hfraction hread hshort
    exact ⟨hzero, moment', hzero ▸ hread, hzero ▸ hwrite⟩
  · rintro ⟨rfl, h⟩
    exact h

end

/-! ## Attributes -/

/-- The type of the attributes with texts of a format. -/
def TimeFormat.type : TimeFormat → AttributeType
  | .generalized => .generalizedTime
  | .utc => .utcTime

section
variable {rt : Runtime} {schemas : AttributeSchemas} {attr : String} {text : QString} {n : ℤ}

theorem roundTrips_iff_of_type {format : TimeFormat}
    (htype : schemas.getAttributeType rt attr = format.type) (hne : text ≠ []) :
    RoundTrips rt (some schemas) attr text ↔
      ∃ moment, format.fromString text = some moment ∧ format.toString moment = text := by
  have hread : datetimeStringToQdatetime rt (some schemas) attr text =
      (format.fromString text).map Moment.instant := by
    rw [datetimeStringToQdatetime, attributeToDateTime, htype]
    cases format <;> rfl
  rw [RoundTrips, hread]
  cases hmoment : format.fromString text with
  | none =>
    rw [Option.map_none, qdatetimeToString, htype]
    have hempty : [] = text ↔ ∃ moment, none = some moment ∧ format.toString moment = text :=
      iff_of_false (Ne.symm hne) (by simp)
    cases format <;> exact hempty
  | some moment =>
    rw [Option.map_some, qdatetimeToString, datetimeQdatetimeToString, htype,
      Moment.ofInstant_instant]
    simp only [Option.some.injEq, exists_eq_left']
    cases format <;> exact Iff.rfl

/-- A large integer in whole milliseconds stays as it is, and its milliseconds and hundreds of
    nanoseconds have 64 bits. -/
theorem roundTrips_number (htype : schemas.getAttributeType rt attr = .largeInteger)
    (hsubtype : getAttributeLargeIntegerSubtype attr = .datetime) (hn : 0 ≤ n) (hlt : n < 2 ^ 63)
    (hdvd : millisTo100Nanos ∣ n) : RoundTrips rt (some schemas) attr (number n) ∧
      ∀ datetime, datetimeStringToQdatetime rt (some schemas) attr (number n) = some datetime →
        FitsQint64 (datetime - ntfsEpoch.instant) ∧
          FitsQint64 ((datetime - ntfsEpoch.instant) * millisTo100Nanos) := by
  obtain ⟨millis, rfl⟩ := hdvd
  have hread : datetimeStringToQdatetime rt (some schemas) attr
      (number (millisTo100Nanos * millis)) = some (ntfsEpoch.instant + millis) := by
    rw [datetimeStringToQdatetime, attributeToDateTime, htype]
    simp only [hsubtype, if_true, Option.map_some]
    rw [toLongLong_number (by omega) hlt, Int.mul_tdiv_cancel_left _ (by decide),
      Moment.instant_ofInstant]
  have hmillis : ntfsEpoch.instant + millis - ntfsEpoch.instant = millis := by omega
  constructor
  · rw [RoundTrips, hread, qdatetimeToString, datetimeQdatetimeToString, htype]
    simp only [hmillis]
    rw [Int.mul_comm]
  · intro datetime hdatetime
    obtain rfl := Option.some.inj (hread.symm.trans hdatetime)
    rw [millisTo100Nanos] at hn hlt
    rw [hmillis, millisTo100Nanos, FitsQint64, FitsQint64]
    omega

/-- Large integers in whole milliseconds stay as they are. The texts for whole seconds do so if
    they have the fraction of the code, and are not those of 29 February 2000 in two digits. -/
theorem datetimeRoundTrip_iff (rt : Runtime) (schemas : AttributeSchemas) (attr : String) :
    (schemas.getAttributeType rt attr = .largeInteger →
      getAttributeLargeIntegerSubtype attr = .datetime →
      ∀ n : ℤ, 0 ≤ n → n < 2 ^ 63 → millisTo100Nanos ∣ n →
        RoundTrips rt (some schemas) attr (number n) ∧
          ∀ datetime, datetimeStringToQdatetime rt (some schemas) attr (number n) =
            some datetime → FitsQint64 (datetime - ntfsEpoch.instant) ∧
              FitsQint64 ((datetime - ntfsEpoch.instant) * millisTo100Nanos)) ∧
    ∀ format : TimeFormat, schemas.getAttributeType rt attr = format.type →
      ∀ moment fraction, format.InYears moment.date.year → moment.time.msec = 0 →
        IsZeroFraction fraction →
          (RoundTrips rt (some schemas) attr (format.wholeSeconds moment fraction) ↔
            fraction = ['.', '0'] ∧ ¬(format = .utc ∧ moment.date.year = 2000 ∧
              moment.date.month = 2 ∧ moment.date.day = 29)) := by
  refine ⟨fun htype hsubtype n => roundTrips_number htype hsubtype,
    fun format htype moment fraction hyears hmsec hfraction => ?_⟩
  have hne : format.wholeSeconds moment fraction ≠ [] := by
    rw [TimeFormat.wholeSeconds, ← List.append_assoc]
    exact List.concat_ne_nil _ _
  rw [roundTrips_iff_of_type htype hne, roundTrips_text_iff hyears hmsec hfraction]

end

/-- The schema of an attribute with two digits for the year. -/
def utcSchemas : AttributeSchemas :=
  [("utcTime", ⟨"", [("attributeSyntax", [toUtf8 "2.5.5.11"]), ("oMSyntax", [toUtf8 "23"])]⟩)]

theorem getAttributeType_utcTime :
    utcSchemas.getAttributeType zeroRuntime "utcTime" = TimeFormat.utc.type :=
  (getAttributeType_syntaxSchemas "utcTime" "2.5.5.11" "23").trans (by decide)

/-- The leap day of 2000, at noon. -/
def leapDay2000 : Moment :=
  ⟨⟨2000, 2, 29, by decide, by decide, by decide, by decide⟩, .ofMsecs 43200000⟩

/-- The day after it. -/
def march2000 : Moment := ⟨.ofDayNumber (leapDay2000.date.dayNumber + 1), leapDay2000.time⟩

theorem isZeroFraction_code : IsZeroFraction ['.', '0'] :=
  .inr ⟨'.', 1, .inl rfl, by decide, rfl⟩

open DatetimeAttributeDialog (accountExpiresSchemas) in
/-- A large integer for 2025, and the text of a day of 2000. -/
theorem datetimeRoundTrip_iff_march2000 :
    RoundTrips zeroRuntime (some accountExpiresSchemas) "accountExpires"
        (number 133801632000000000) ∧
      RoundTrips zeroRuntime (some utcSchemas) "utcTime"
        (TimeFormat.utc.wholeSeconds march2000 ['.', '0']) :=
  ⟨((datetimeRoundTrip_iff zeroRuntime accountExpiresSchemas "accountExpires").1
      DatetimeAttributeDialog.getAttributeType_accountExpires (by decide) _ (by decide) (by decide)
      (by decide)).1,
    ((datetimeRoundTrip_iff zeroRuntime utcSchemas "utcTime").2 .utc getAttributeType_utcTime
      march2000 _ (by decide) rfl isZeroFraction_code).2 ⟨rfl, by decide⟩⟩

/-- The leap day of 2000 is lost. -/
theorem not_roundTrips_leapDay2000 : ¬∀ (rt : Runtime) (schemas : AttributeSchemas)
    (attr : String) (format : TimeFormat), schemas.getAttributeType rt attr = format.type →
      ∀ moment, format.InYears moment.date.year → moment.time.msec = 0 →
        RoundTrips rt (some schemas) attr (format.wholeSeconds moment ['.', '0']) := by
  intro hall
  have hround := hall zeroRuntime utcSchemas "utcTime" .utc getAttributeType_utcTime leapDay2000
    (by decide) rfl
  have hlost : datetimeStringToQdatetime zeroRuntime (some utcSchemas) "utcTime"
      (TimeFormat.utc.wholeSeconds leapDay2000 ['.', '0']) = none := by
    rw [datetimeStringToQdatetime, attributeToDateTime, getAttributeType_utcTime]
    decide
  rw [RoundTrips, hlost, qdatetimeToString, getAttributeType_utcTime] at hround
  exact absurd hround (by decide)

end Admc
