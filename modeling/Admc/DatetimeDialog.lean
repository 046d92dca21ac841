import Admc.Lib.Calendar
import Admc.Schema
import Admc.TimeSpan

/-!
# Editing a time

The dialog that edits an attribute with a time (`DatetimeAttributeDialog`): the stored
value is read (`datetimeStringToQdatetime`) and put into the edit of Qt, and what the edit
shows is written as a value again (`datetimeQdatetimeToString`). Large integers count a
hundred nanoseconds from 1601 on, and the other values are texts of the fields of a time.

The edit always shows some time, in a range, to the millisecond. So a value that is not
set, or that is none that the formats write, does not stay as it is when the dialog is
accepted.

* `fromString_toString_of_hasYear`: what a format writes, it reads again;
* `toString_eq_iff`: what it reads, it writes again if the fraction is short;
* `getValueList_eq_iff`: which values stay as they are.
-/

namespace Admc

open Calendar

/-! ## Texts of times -/

/-- `GENERALIZED_TIME_FORMAT_STRING`, which is "yyyyMMddhhmmss.zZ", and
    `UTC_TIME_FORMAT_STRING`, which is "yyMMddhhmmss.zZ". -/
inductive TimeFormat
  | generalized
  | utc
  deriving DecidableEq, Repr

/-- A number with zeros before it. -/
def zeroPad (width : ℕ) (n : ℤ) : QString :=
  let text := Nat.toDigits 10 n.natAbs
  let padded := List.replicate (width - text.length) '0' ++ text
  if n < 0 then '-' :: padded else padded

/-- The part "z" of a format: the milliseconds as the fraction of a second, without zeros at
    the end. -/
def fractionText (msec : ℤ) : QString :=
  if msec % 100 = 0 then zeroPad 1 (msec / 100)
  else if msec % 10 = 0 then zeroPad 2 (msec / 10)
  else zeroPad 3 msec

/-- The digits of the part "yyyy" or "yy" of a format. -/
def TimeFormat.yearDigits : TimeFormat → ℕ
  | .generalized => 4
  | .utc => 2

theorem TimeFormat.yearDigits_pos (format : TimeFormat) : 0 < format.yearDigits := by
  cases format <;> decide

/-- The number that is written for a year. -/
def TimeFormat.shortYear (year : ℤ) : TimeFormat → ℤ
  | .generalized => year
  | .utc => year % 100

/-- The parts of a format up to the second. -/
def TimeFormat.secondsText (format : TimeFormat) (moment : Moment) : QString :=
  zeroPad format.yearDigits (format.shortYear moment.date.year) ++
    (zeroPad 2 moment.date.month ++ (zeroPad 2 moment.date.day ++ (zeroPad 2 moment.time.hour ++
      (zeroPad 2 moment.time.minute ++ zeroPad 2 moment.time.second))))

/-- `QDateTime::toString`. -/
def TimeFormat.toString (format : TimeFormat) (moment : Moment) : QString :=
  format.secondsText moment ++ '.' :: (fractionText moment.time.msec ++ ['Z'])

/-- A number of so many digits, and the rest of the text. -/
def readNumber (width : ℕ) (text : QString) : Option (ℤ × QString) :=
  if width ≤ text.length then
    (digits (text.take width)).map fun n : ℕ => ((n : ℤ), text.drop width)
  else none

/-- The milliseconds, from up to three digits of a fraction, and the rest of the text. -/
def readFraction (text : QString) : Option (ℤ × QString) :=
  let fraction := (text.take 3).takeWhile Char.isDigit
  (digits fraction).map fun n : ℕ =>
    ((n * 10 ^ (3 - fraction.length) : ℤ), text.drop fraction.length)

/-- The rest of a text that starts with a character. -/
def readChar (c : Char) : QString → Option QString
  | [] => none
  | c' :: text => if c' = c then some text else none

theorem eq_cons_of_readChar {c : Char} {text rest : QString} (h : readChar c text = some rest) :
    text = c :: rest := by
  cases text with
  | nil => exact nomatch h
  | cons c' text =>
    rw [readChar] at h
    split_ifs at h with hc
    rw [hc, Option.some.inj h]

/-- `QDateTime(date, time)`, which is invalid if the date or the time is: there is no year
    zero. -/
def makeDateTime (year month day hour minute second msec : ℤ) : Option Moment :=
  if h : 1 ≤ year ∧ (1 ≤ month ∧ month ≤ 12 ∧ 1 ≤ day ∧ day ≤ daysInMonth year month) ∧
      (0 ≤ hour ∧ hour < 24) ∧ (0 ≤ minute ∧ minute < 60) ∧ (0 ≤ second ∧ second < 60) ∧
        0 ≤ msec ∧ msec < 1000 then
    some ⟨⟨year, month, day, h.2.1.1, h.2.1.2.1, h.2.1.2.2.1, h.2.1.2.2.2⟩,
      ⟨hour, minute, second, msec, h.2.2.1, h.2.2.2.1, h.2.2.2.2.1, h.2.2.2.2.2⟩⟩
  else none

/-- The year that is meant: two digits are those of a year from 1900 on. -/
def TimeFormat.fullYear (year : ℤ) : TimeFormat → ℤ
  | .generalized => year
  | .utc => 1900 + year

/-- `QDateTime::fromString`: none if the text is not in the format, or the time is invalid. -/
def TimeFormat.fromString (format : TimeFormat) (text : QString) : Option Moment := do
  let (year, text) ← readNumber format.yearDigits text
  let (month, text) ← readNumber 2 text
  let (day, text) ← readNumber 2 text
  let (hour, text) ← readNumber 2 text
  let (minute, text) ← readNumber 2 text
  let (second, text) ← readNumber 2 text
  let text ← readChar '.' text
  let (msec, text) ← readFraction text
  let text ← readChar 'Z' text
  if text = [] then makeDateTime (format.fullYear year) month day hour minute second msec
  else none

/-! ### What is written is read again -/

/-- A number that fits is padded to the width. -/
theorem zeroPad_spec {width : ℕ} (hwidth : 0 < width) {n : ℤ} (hn : 0 ≤ n)
    (hlt : n < 10 ^ width) : (zeroPad width n).length = width ∧
      (∀ c ∈ zeroPad width n, c.isDigit = true) ∧ digits (zeroPad width n) = some n.natAbs := by
  have hlength : (Nat.toDigits 10 n.natAbs).length ≤ width := by
    have habs : (n.natAbs : ℤ) < 10 ^ width := by rwa [Int.natAbs_of_nonneg hn]
    rw [Nat.length_toDigits_le_iff (by decide) hwidth]
    exact_mod_cast habs
  have hpad : zeroPad width n = List.replicate (width - (Nat.toDigits 10 n.natAbs).length) '0' ++
      Nat.toDigits 10 n.natAbs := if_neg (not_lt.2 hn)
  have hdigit : ∀ c ∈ zeroPad width n, c.isDigit = true := by
    intro c hc
    rw [hpad, List.mem_append] at hc
    rcases hc with hc | hc
    · rw [List.eq_of_mem_replicate hc]
      decide
    · exact isDigit_of_mem_toDigits hc
  have hlen : (zeroPad width n).length = width := by
    rw [hpad, List.length_append, List.length_replicate, Nat.sub_add_cancel hlength]
  refine ⟨hlen, hdigit, ?_⟩
  have hne := List.ne_nil_of_length_pos (hwidth.trans_eq hlen.symm)
  rw [digits, if_pos ⟨hne, List.all_eq_true.2 hdigit⟩, hpad,
    Nat.ofDigitChars_append, Nat.ofDigitChars_replicate_zero, Nat.mul_zero,
    Nat.ofDigitChars_ten_toDigits]

theorem readNumber_zeroPad {width : ℕ} (hwidth : 0 < width) {n : ℤ} (hn : 0 ≤ n)
    (hlt : n < 10 ^ width) (rest : QString) :
    readNumber width (zeroPad width n ++ rest) = some (n, rest) := by
  rcases zeroPad_spec hwidth hn hlt with ⟨hlength, -, hdigits⟩
  have habs : (n.natAbs : ℤ) = n := Int.natAbs_of_nonneg hn
  rw [readNumber, if_pos (by rw [List.length_append, hlength]; exact Nat.le_add_right _ _),
    List.take_left' hlength, List.drop_left' hlength, hdigits, Option.map_some, habs]

/-- A number of so many digits is below the power of ten. -/
theorem ofDigitChars_lt {text : QString} (hdigit : ∀ c ∈ text, c.isDigit = true) :
    Nat.ofDigitChars 10 text 0 < 10 ^ text.length := by
  induction text with
  | nil => exact Nat.one_pos
  | cons c text ih =>
    have hc : c.toNat - '0'.toNat ≤ 9 := by
      have hdigit := Char.isDigit_iff_toNat.1 (hdigit c List.mem_cons_self)
      exact Nat.sub_le_sub_right hdigit.2 _
    have hrest := ih fun c hc => hdigit c (List.mem_cons_of_mem _ hc)
    rw [Nat.ofDigitChars_cons, Nat.ofDigitChars_eq_ofDigitChars_zero, Nat.mul_zero, Nat.zero_add,
      List.length_cons, Nat.pow_succ]
    have hle := Nat.mul_le_mul_left (10 ^ text.length) hc
    omega

/-- Texts of as many digits are the same if they stand for the same number. -/
theorem ofDigitChars_injective {text text' : QString} (hdigit : ∀ c ∈ text, c.isDigit = true)
    (hdigit' : ∀ c ∈ text', c.isDigit = true) (hlength : text.length = text'.length)
    (h : Nat.ofDigitChars 10 text 0 = Nat.ofDigitChars 10 text' 0) : text = text' := by
  induction text generalizing text' with
  | nil => exact (List.eq_nil_of_length_eq_zero hlength.symm).symm
  | cons c text ih =>
    rcases text' with - | ⟨c', text'⟩
    · exact absurd hlength (Nat.succ_ne_zero _)
    have hlength : text.length = text'.length := Nat.succ.inj hlength
    have hrest : ∀ c ∈ text, c.isDigit = true := fun c hc => hdigit c (List.mem_cons_of_mem _ hc)
    have hrest' : ∀ c ∈ text', c.isDigit = true := fun c hc => hdigit' c (List.mem_cons_of_mem _ hc)
    have hlt := ofDigitChars_lt hrest
    have hlt' := ofDigitChars_lt hrest'
    rw [Nat.ofDigitChars_cons, Nat.ofDigitChars_cons, Nat.ofDigitChars_eq_ofDigitChars_zero,
      Nat.ofDigitChars_eq_ofDigitChars_zero (l := text'), Nat.mul_zero, Nat.zero_add, Nat.zero_add,
      ← hlength] at h
    rw [← hlength] at hlt'
    -- the first digit is the quotient, and the other digits are the remainder
    have hquot := congrArg (· / 10 ^ text.length) h
    have hrem := congrArg (· % 10 ^ text.length) h
    simp only [Nat.mul_add_div (Nat.pow_pos (by decide : 0 < 10)), Nat.div_eq_of_lt hlt,
      Nat.div_eq_of_lt hlt', Nat.mul_add_mod, Nat.mod_eq_of_lt hlt, Nat.mod_eq_of_lt hlt',
      Nat.add_zero] at hquot hrem
    have hc := Char.isDigit_iff_toNat.1 (hdigit c List.mem_cons_self)
    have hc' := Char.isDigit_iff_toNat.1 (hdigit' c' List.mem_cons_self)
    rw [ih hrest hrest' hlength hrem, Char.toNat_inj.1 (by omega : c.toNat = c'.toNat)]

/-- The digits that are read are those that are written. -/
theorem zeroPad_of_digits {text : QString} {n : ℕ} (h : digits text = some n) :
    zeroPad text.length n = text ∧ (n : ℤ) < 10 ^ text.length := by
  rw [digits] at h
  split_ifs at h with htext
  rw [Option.some.injEq] at h
  have hdigit := List.all_eq_true.1 htext.2
  have hlt : (n : ℤ) < 10 ^ text.length := mod_cast h ▸ ofDigitChars_lt hdigit
  rcases zeroPad_spec (List.length_pos_of_ne_nil htext.1) (Int.natCast_nonneg n) hlt with
    ⟨hlength, hdigit', hdigits⟩
  have hne : zeroPad text.length n ≠ [] := by
    rw [← List.length_pos_iff, hlength]
    exact List.length_pos_of_ne_nil htext.1
  rw [digits, if_pos ⟨hne, List.all_eq_true.2 hdigit'⟩, Option.some.injEq,
    Int.natAbs_natCast] at hdigits
  exact ⟨ofDigitChars_injective hdigit' hdigit hlength (hdigits.trans h.symm), hlt⟩

/-- What is read as a number is what is written for it. -/
theorem readNumber_eq_some_iff {width : ℕ} (hwidth : 0 < width) {text rest : QString} {n : ℤ} :
    readNumber width text = some (n, rest) ↔
      0 ≤ n ∧ n < 10 ^ width ∧ text = zeroPad width n ++ rest := by
  constructor
  · intro h
    rw [readNumber] at h
    split_ifs at h with hlength
    obtain ⟨m, hm, heq⟩ := Option.map_eq_some_iff.1 h
    rw [Prod.mk.injEq] at heq
    rcases heq with ⟨rfl, rfl⟩
    have hm := zeroPad_of_digits hm
    rw [List.length_take_of_le hlength] at hm
    exact ⟨Int.natCast_nonneg m, hm.2, by rw [hm.1, List.take_append_drop]⟩
  · rintro ⟨hn, hlt, rfl⟩
    exact readNumber_zeroPad hwidth hn hlt rest

/-- The digits of a fraction end where another character comes. -/
theorem takeWhile_fraction {text rest : QString} (hdigit : ∀ c ∈ text, c.isDigit = true)
    (hlength : text.length ≤ 3) :
    ((text ++ 'Z' :: rest).take 3).takeWhile Char.isDigit = text := by
  rw [List.take_append, List.take_of_length_le hlength,
    List.takeWhile_append_of_pos hdigit]
  cases 3 - text.length with
  | zero => exact List.append_nil _
  | succ n => exact List.append_nil _

theorem readFraction_fractionText {msec : ℤ} (hmsec : 0 ≤ msec) (hlt : msec < 1000)
    (rest : QString) :
    readFraction (fractionText msec ++ 'Z' :: rest) = some (msec, 'Z' :: rest) := by
  have hread : ∀ (width : ℕ) (n : ℤ), 0 < width → width ≤ 3 → 0 ≤ n → n < 10 ^ width →
      readFraction (zeroPad width n ++ 'Z' :: rest) =
        some (n * 10 ^ (3 - width), 'Z' :: rest) := by
    intro width n hwidth hle hn hlt
    rcases zeroPad_spec hwidth hn hlt with ⟨hlength, hdigit, hdigits⟩
    have habs : (n.natAbs : ℤ) = n := Int.natAbs_of_nonneg hn
    rw [readFraction, takeWhile_fraction hdigit (hlength.le.trans hle), hdigits, Option.map_some,
      habs, hlength, List.drop_left' hlength]
  rw [fractionText]
  split_ifs with hhundred hten
  · rw [hread 1 _ (by decide) (by decide) (by omega) (by omega)]
    norm_num
    omega
  · rw [hread 2 _ (by decide) (by decide) (by omega) (by omega)]
    norm_num
    omega
  · rw [hread 3 _ (by decide) (by decide) hmsec hlt]
    norm_num

/-- The days of a month are two digits. -/
theorem daysInMonth_le_31 (year month : ℤ) : daysInMonth year month ≤ 31 := by
  rw [daysInMonth]
  split_ifs <;> decide

/-- A text that a format writes is read as the same time, in the year that is meant. -/
theorem TimeFormat.fromString_toString (format : TimeFormat) {moment : Moment}
    (hpos : 1 ≤ moment.date.year) (hle : moment.date.year ≤ 9999) :
    format.fromString (format.toString moment) =
      makeDateTime (format.fullYear (format.shortYear moment.date.year)) moment.date.month
        moment.date.day moment.time.hour moment.time.minute moment.time.second
        moment.time.msec := by
  have hyear : 0 < format.yearDigits ∧ 0 ≤ format.shortYear moment.date.year ∧
      format.shortYear moment.date.year < 10 ^ format.yearDigits := by
    cases format with
    | generalized =>
      exact ⟨by decide, by rw [shortYear]; omega, by rw [shortYear, yearDigits]; omega⟩
    | utc => exact ⟨by decide, by rw [shortYear]; omega, by rw [shortYear, yearDigits]; omega⟩
  have hmonth := moment.date.month_pos
  have hmonth' := moment.date.month_le
  have hday := moment.date.day_pos
  have hday' := moment.date.day_le.trans (daysInMonth_le_31 _ _)
  have hhour := moment.time.hour_mem
  have hminute := moment.time.minute_mem
  have hsecond := moment.time.second_mem
  have hmsec := moment.time.msec_mem
  have htwo : ∀ n : ℤ, 0 ≤ n → n < 100 → ∀ rest, readNumber 2 (zeroPad 2 n ++ rest) =
      some (n, rest) := fun n hn hlt rest => readNumber_zeroPad (by decide) hn (by omega) rest
  simp only [fromString, toString, secondsText, List.append_assoc, Option.bind_eq_bind,
    Option.bind_some,
    readNumber_zeroPad hyear.1 hyear.2.1 hyear.2.2,
    htwo moment.date.month (by omega) (by omega), htwo moment.date.day (by omega) (by omega),
    htwo moment.time.hour (by omega) (by omega), htwo moment.time.minute (by omega) (by omega),
    htwo moment.time.second (by omega) (by omega), readChar, if_true,
    readFraction_fractionText hmsec.1 hmsec.2]

/-- The fields of a time make it again. -/
theorem makeDateTime_fields {moment : Moment} (hpos : 1 ≤ moment.date.year) :
    makeDateTime moment.date.year moment.date.month moment.date.day moment.time.hour
      moment.time.minute moment.time.second moment.time.msec = some moment :=
  dif_pos ⟨hpos, ⟨moment.date.month_pos, moment.date.month_le, moment.date.day_pos,
    moment.date.day_le⟩, moment.time.hour_mem, moment.time.minute_mem, moment.time.second_mem,
    moment.time.msec_mem⟩

/-- The years that a format writes so that they are read again. -/
def TimeFormat.HasYear (format : TimeFormat) (year : ℤ) : Prop :=
  match format with
  | .generalized => 1 ≤ year ∧ year ≤ 9999
  | .utc => 1900 ≤ year ∧ year ≤ 1999

/-- What a format writes, it reads again. -/
theorem TimeFormat.fromString_toString_of_hasYear {format : TimeFormat} {moment : Moment}
    (h : format.HasYear moment.date.year) :
    format.fromString (format.toString moment) = some moment := by
  have hyear : 1 ≤ moment.date.year ∧ moment.date.year ≤ 9999 ∧
      format.fullYear (format.shortYear moment.date.year) = moment.date.year := by
    cases format with
    | generalized => exact ⟨h.1, h.2, rfl⟩
    | utc =>
      rcases h with ⟨hmin, hmax⟩
      rw [fullYear, shortYear]
      omega
  rw [fromString_toString format hyear.1 hyear.2.1, hyear.2.2, makeDateTime_fields hyear.1]

/-- A time that is made has the fields that are given. -/
theorem fields_of_makeDateTime {year month day hour minute second msec : ℤ} {moment : Moment}
    (h : makeDateTime year month day hour minute second msec = some moment) :
    1 ≤ year ∧ moment.date.year = year ∧ moment.date.month = month ∧ moment.date.day = day ∧
      moment.time.hour = hour ∧ moment.time.minute = minute ∧ moment.time.second = second ∧
        moment.time.msec = msec := by
  rw [makeDateTime] at h
  split_ifs at h with hvalid
  rw [Option.some.injEq] at h
  subst h
  exact ⟨hvalid.1, rfl, rfl, rfl, rfl, rfl, rfl, rfl⟩

/-- A fraction that is read is a number of one to three digits. -/
theorem readFraction_eq_some {text : QString} {msec : ℤ}
    (h : readFraction text = some (msec, ['Z'])) :
    ∃ (width : ℕ) (n : ℤ), 0 < width ∧ width ≤ 3 ∧ 0 ≤ n ∧ n < 10 ^ width ∧
      text = zeroPad width n ++ ['Z'] ∧ msec = n * 10 ^ (3 - width) := by
  rw [readFraction] at h
  obtain ⟨n, hn, heq⟩ := Option.map_eq_some_iff.1 h
  rw [Prod.mk.injEq] at heq
  rcases heq with ⟨hmsec, hrest⟩
  have hprefix : (text.take 3).takeWhile Char.isDigit <+: text :=
    (List.takeWhile_prefix _).trans (List.take_prefix 3 text)
  have hle : ((text.take 3).takeWhile Char.isDigit).length ≤ 3 :=
    (List.takeWhile_prefix _).length_le.trans (List.length_take_le 3 text)
  have hne : (text.take 3).takeWhile Char.isDigit ≠ [] := by
    rw [digits] at hn
    split_ifs at hn with hdigit
    exact hdigit.1
  rcases zeroPad_of_digits hn with ⟨hpad, hlt⟩
  refine ⟨_, n, List.length_pos_of_ne_nil hne, hle, Int.natCast_nonneg n, hlt, ?_, hmsec.symm⟩
  rw [hpad, ← hrest]
  exact List.prefix_iff_eq_append.1 hprefix |>.symm

/-- A text that is read is one that is written, but for zeros at the end of the fraction. -/
theorem TimeFormat.fromString_eq_some {format : TimeFormat} {text : QString} {moment : Moment}
    (h : format.fromString text = some moment) : format.HasYear moment.date.year ∧
      ∃ (width : ℕ) (n : ℤ), 0 < width ∧ width ≤ 3 ∧ 0 ≤ n ∧ n < 10 ^ width ∧
        text = format.secondsText moment ++ '.' :: (zeroPad width n ++ ['Z']) ∧
          moment.time.msec = n * 10 ^ (3 - width) := by
  simp only [fromString, Option.bind_eq_bind, Option.bind_eq_some_iff] at h
  obtain ⟨⟨year, _⟩, hyear, ⟨month, _⟩, hmonth, ⟨day, _⟩, hday, ⟨hour, _⟩, hhour, ⟨minute, _⟩,
    hminute, ⟨second, _⟩, hsecond, rest, hpoint, ⟨msec, _⟩, hmsec, _, hz, h⟩ := h
  split_ifs at h with hnil
  have htwo {n : ℤ} {text rest : QString} (h : readNumber 2 text = some (n, rest)) :
      text = zeroPad 2 n ++ rest := ((readNumber_eq_some_iff (by decide)).1 h).2.2
  rcases (readNumber_eq_some_iff format.yearDigits_pos).1 hyear with ⟨hpos, hlt, rfl⟩
  obtain rfl := htwo hmonth
  obtain rfl := htwo hday
  obtain rfl := htwo hhour
  obtain rfl := htwo hminute
  obtain rfl := htwo hsecond
  obtain rfl := eq_cons_of_readChar hpoint
  obtain rfl := eq_cons_of_readChar hz
  subst hnil
  obtain ⟨width, n, hwidth, hle, hn, hlt', rfl, rfl⟩ := readFraction_eq_some hmsec
  rcases fields_of_makeDateTime h with
    ⟨hone, hyear', hmonth', hday', hhour', hminute', hsecond', hmsec'⟩
  have hshort : format.HasYear moment.date.year ∧ format.shortYear moment.date.year = year := by
    rw [hyear']
    cases format with
    | generalized =>
      rw [yearDigits] at hlt
      rw [fullYear] at hone
      exact ⟨⟨hone, by rw [fullYear]; omega⟩, rfl⟩
    | utc =>
      rw [yearDigits] at hlt
      rw [HasYear, shortYear, fullYear]
      omega
  refine ⟨hshort.1, width, n, hwidth, hle, hn, hlt', ?_, hmsec'⟩
  simp only [secondsText, hshort.2, hmonth', hday', hhour', hminute', hsecond', List.append_assoc]

/-- The fraction of the second does not end with a zero, unless it is just a zero. -/
def ShortFraction (text : QString) : Prop := ['.', '0', 'Z'] <:+ text ∨ ¬['0', 'Z'] <:+ text

instance (text : QString) : Decidable (ShortFraction text) := inferInstanceAs (Decidable (_ ∨ _))

/-- The last digit of a number. -/
theorem zeroPad_eq_append {width : ℕ} {n : ℤ} (hwidth : 0 < width) (hn : 0 ≤ n)
    (hlt : n < 10 ^ width) :
    ∃ (text : QString) (c : Char), zeroPad width n = text ++ [c] ∧ text.length + 1 = width ∧
      (∀ c ∈ text, c.isDigit = true) ∧ (c = '0' ↔ n % 10 = 0) := by
  rcases zeroPad_spec hwidth hn hlt with ⟨hlength, hdigit, hdigits⟩
  rcases List.eq_nil_or_concat' (zeroPad width n) with hnil | ⟨text, c, htext⟩
  · exact absurd hwidth (by rw [← hlength, hnil]; decide)
  rw [htext] at hlength hdigit hdigits
  refine ⟨text, c, htext, by rw [← hlength, List.length_append]; rfl,
    fun c hc => hdigit c (List.mem_append_left _ hc), ?_⟩
  rw [digits] at hdigits
  split_ifs at hdigits with hall
  rw [Option.some.injEq, Nat.ofDigitChars_append, Nat.ofDigitChars_cons,
    Nat.ofDigitChars_nil] at hdigits
  have hc := Char.isDigit_iff_toNat.1 (hdigit c (List.mem_append_right _ List.mem_cons_self))
  have hzero : '0'.toNat = 48 := rfl
  have hnine : '9'.toNat = 57 := rfl
  rw [← Char.toNat_inj]
  omega

/-- What ends with as many characters ends with the same. -/
theorem append_suffix_iff {text rest rest' : QString} (h : rest.length = rest'.length) :
    rest' <:+ text ++ rest ↔ rest = rest' := by
  constructor
  · intro hsuffix
    exact (List.suffix_of_suffix_length_le (List.suffix_append _ _) hsuffix h.le).eq_of_length h
  · rintro rfl
    exact List.suffix_append _ _

theorem shortFraction_iff {front : QString} {width : ℕ} {n : ℤ} (hwidth : 0 < width)
    (hn : 0 ≤ n) (hlt : n < 10 ^ width) :
    ShortFraction (front ++ '.' :: (zeroPad width n ++ ['Z'])) ↔ width = 1 ∨ n % 10 ≠ 0 := by
  obtain ⟨text, c, htext, hlength, hdigit, hc⟩ := zeroPad_eq_append hwidth hn hlt
  have hsplit : front ++ '.' :: (zeroPad width n ++ ['Z']) =
      (front ++ '.' :: text) ++ [c, 'Z'] := by
    rw [htext, List.append_assoc, List.append_assoc]
    rfl
  have hzero : ['0', 'Z'] <:+ (front ++ '.' :: text) ++ [c, 'Z'] ↔ n % 10 = 0 := by
    rw [append_suffix_iff (show [c, 'Z'].length = ['0', 'Z'].length from rfl), List.cons.injEq, hc]
    exact and_iff_left rfl
  rw [ShortFraction, hsplit, hzero]
  rcases List.eq_nil_or_concat' text with rfl | ⟨text, d, rfl⟩
  · have hpoint : (front ++ ['.']) ++ [c, 'Z'] = front ++ ['.', c, 'Z'] := List.append_assoc ..
    rw [hpoint, append_suffix_iff (show ['.', c, 'Z'].length = ['.', '0', 'Z'].length from rfl),
      List.cons.injEq, List.cons.injEq, hc]
    have hone : width = 1 := hlength.symm
    exact iff_of_true ((em (n % 10 = 0)).imp_left fun hzero => ⟨rfl, hzero, rfl⟩) (.inl hone)
  · have hd : '.' ≠ d := fun hd =>
      absurd (hdigit d (List.mem_append_right _ List.mem_cons_self)) (hd ▸ by decide)
    have hlong : width ≠ 1 := by
      rw [← hlength, List.length_append]
      exact Nat.succ_succ_ne_one _
    have hpoint : (front ++ '.' :: (text ++ [d])) ++ [c, 'Z'] =
        (front ++ '.' :: text) ++ [d, c, 'Z'] := by
      rw [List.append_assoc, List.append_assoc, List.cons_append, List.cons_append,
        List.append_assoc]
      rfl
    rw [hpoint, append_suffix_iff (show [d, c, 'Z'].length = ['.', '0', 'Z'].length from rfl),
      List.cons.injEq]
    exact or_congr (iff_of_false (fun h => hd h.1.symm) hlong) Iff.rfl

theorem fractionText_eq_iff {width : ℕ} {n : ℤ} (hwidth : 0 < width) (hle : width ≤ 3)
    (hn : 0 ≤ n) (hlt : n < 10 ^ width) :
    fractionText (n * 10 ^ (3 - width)) = zeroPad width n ↔ width = 1 ∨ n % 10 ≠ 0 := by
  -- a shorter fraction is another text
  have hne : ∀ {width' : ℕ} {m : ℤ}, 0 < width' → width' < width → 0 ≤ m → m < 10 ^ width' →
      zeroPad width' m ≠ zeroPad width n := by
    intro width' m hwidth' hlt' hm hmlt heq
    have hlength := congrArg List.length heq
    rw [(zeroPad_spec hwidth' hm hmlt).1, (zeroPad_spec hwidth hn hlt).1] at hlength
    exact hlt'.ne hlength
  rw [fractionText]
  interval_cases width
  · have hdiv : n * 10 ^ (3 - 1) / 100 = n := by norm_num
    rw [if_pos (by norm_num), hdiv]
    exact iff_of_true rfl (.inl rfl)
  · have hdiv : n * 10 ^ (3 - 2) / 10 = n := by norm_num
    have hdiv' : n * 10 ^ (3 - 2) / 100 = n / 10 := by norm_num; omega
    rw [hdiv, hdiv']
    split_ifs with hhundred hten
    · exact iff_of_false (hne (by decide) (by decide) (by omega) (by omega))
        (by norm_num at *; omega)
    · exact iff_of_true rfl (.inr (by norm_num at *; omega))
    · exact absurd (by norm_num) hten
  · have hself : n * 10 ^ (3 - 3) = n := by norm_num
    rw [hself]
    split_ifs with hhundred hten
    · exact iff_of_false (hne (by decide) (by decide) (by omega) (by omega)) (by omega)
    · exact iff_of_false (hne (by decide) (by decide) (by omega) (by omega)) (by omega)
    · exact iff_of_true rfl (.inr hten)

/-- What a format reads, it writes again, if the fraction is short. -/
theorem TimeFormat.toString_eq_iff {format : TimeFormat} {text : QString} {moment : Moment}
    (h : format.fromString text = some moment) :
    format.toString moment = text ↔ ShortFraction text := by
  obtain ⟨-, width, n, hwidth, hle, hn, hlt, rfl, hmsec⟩ := fromString_eq_some h
  rw [shortFraction_iff hwidth hn hlt, ← fractionText_eq_iff hwidth hle hn hlt, toString, hmsec,
    List.append_cancel_left_eq, List.cons.injEq, List.append_cancel_right_eq]
  exact and_iff_right rfl

/-! ## Values and times -/

/-- `ntfs_epoch`. -/
def ntfsEpoch : Moment := ⟨⟨1601, 1, 1, by decide, by decide, by decide, by decide⟩, .ofMsecs 0⟩

section
variable (rt : Runtime) (adconfig : Option AttributeSchemas) (attr : String)

/-- `attribute_to_date_time`: the date and the time of day of a value, none if it is
    invalid. -/
def attributeToDateTime (schemas : AttributeSchemas) (rawValue : QString) : Option Moment :=
  match schemas.getAttributeType rt attr with
  | .largeInteger =>
    if getAttributeLargeIntegerSubtype attr = .datetime then
      let hundredNanos := toLongLong rawValue
      let millis := hundredNanos.tdiv millisTo100Nanos
      some (.ofInstant (ntfsEpoch.instant + millis))
    else none
  | .generalizedTime => TimeFormat.generalized.fromString rawValue
  | .utcTime => TimeFormat.utc.fromString rawValue
  | _ => none

/-- `datetime_string_to_qdatetime`: the instant at which it is this date and time in UTC. -/
def datetimeStringToQdatetime (rawValue : QString) : Option ℤ :=
  match adconfig with
  | none => none
  | some schemas => (attributeToDateTime rt attr schemas rawValue).map Moment.instant

/-- `datetime_qdatetime_to_string`, of an instant. -/
def datetimeQdatetimeToString (datetime : ℤ) : QString :=
  match adconfig with
  | none => []
  | some schemas =>
    match schemas.getAttributeType rt attr with
    | .largeInteger =>
      let millis := datetime - ntfsEpoch.instant
      let hundredNanos := millis * millisTo100Nanos
      number hundredNanos
    | .utcTime => TimeFormat.utc.toString (.ofInstant datetime)
    | .generalizedTime => TimeFormat.generalized.toString (.ofInstant datetime)
    | _ => []

end

/-! ## The edit -/

/-- The local time: how far it is ahead of UTC, at a local time. -/
structure LocalTime where
  offset : ℤ → ℤ
  lt_day : ∀ time, -86400000 < offset time ∧ offset time < 86400000

/-- The instant of a local time. -/
def LocalTime.instant (zone : LocalTime) (moment : Moment) : ℤ :=
  moment.instant - zone.offset moment.instant

/-- The local time of UTC. -/
def LocalTime.utc : LocalTime := ⟨fun _ => 0, fun _ => by decide⟩

/-- `QDateTimeEdit`: the instant that is shown, in a range. -/
structure QDateTimeEdit where
  minimum : ℤ
  maximum : ℤ
  dateTime : ℤ
  minimum_le : minimum ≤ dateTime
  le_maximum : dateTime ≤ maximum

/-- The first moment that an edit can show. -/
def editMinimum : Moment := ⟨⟨1752, 9, 14, by decide, by decide, by decide, by decide⟩, .ofMsecs 0⟩

/-- The last moment that an edit can show. -/
def editMaximum : Moment :=
  ⟨⟨9999, 12, 31, by decide, by decide, by decide, by decide⟩, .ofMsecs 86399999⟩

/-- The moment that an edit shows at first. -/
def editInitial : Moment := ⟨⟨2000, 1, 1, by decide, by decide, by decide, by decide⟩, .ofMsecs 0⟩

theorem instant_editMinimum : editMinimum.instant = -6857222400000 := by decide

theorem instant_editMaximum : editMaximum.instant = 253402300799999 := by decide

theorem instant_editInitial : editInitial.instant = 946684800000 := by decide

theorem instant_ntfsEpoch : ntfsEpoch.instant = -11644473600000 := by decide

namespace QDateTimeEdit

/-- `QDateTimeEdit::QDateTimeEdit`. -/
def new (zone : LocalTime) : QDateTimeEdit where
  minimum := zone.instant editMinimum
  maximum := zone.instant editMaximum
  dateTime := zone.instant editInitial
  minimum_le := by
    have hmin := zone.lt_day editMinimum.instant
    have hinit := zone.lt_day editInitial.instant
    rw [LocalTime.instant, LocalTime.instant]
    rw [instant_editMinimum] at *
    rw [instant_editInitial] at *
    omega
  le_maximum := by
    have hmax := zone.lt_day editMaximum.instant
    have hinit := zone.lt_day editInitial.instant
    rw [LocalTime.instant, LocalTime.instant]
    rw [instant_editMaximum] at *
    rw [instant_editInitial] at *
    omega

/-- `QDateTimeEdit::setDateTime`: an invalid time changes nothing, and others are taken into
    the range. -/
def setDateTime (edit : QDateTimeEdit) : Option ℤ → QDateTimeEdit
  | none => edit
  | some datetime =>
    { edit with
      dateTime := max edit.minimum (min edit.maximum datetime)
      minimum_le := le_max_left _ _
      le_maximum := max_le (edit.minimum_le.trans edit.le_maximum) (min_le_left _ _) }

/-- The range of an edit. -/
def InRange (edit : QDateTimeEdit) (datetime : ℤ) : Prop :=
  edit.minimum ≤ datetime ∧ datetime ≤ edit.maximum

instance (edit : QDateTimeEdit) (datetime : ℤ) : Decidable (edit.InRange datetime) :=
  inferInstanceAs (Decidable (_ ∧ _))

/-- Just the times in the range are shown as they are. -/
theorem dateTime_setDateTime_iff {edit : QDateTimeEdit} {datetime : ℤ} :
    (edit.setDateTime (some datetime)).dateTime = datetime ↔ edit.InRange datetime := by
  have hle := edit.minimum_le.trans edit.le_maximum
  simp only [setDateTime, InRange]
  omega

variable {zone : LocalTime}

theorem new_minimum :
    -6857308800000 < (new zone).minimum ∧ (new zone).minimum < -6857136000000 := by
  have hday := zone.lt_day editMinimum.instant
  have hnew : (new zone).minimum = editMinimum.instant - zone.offset editMinimum.instant := rfl
  rw [hnew, instant_editMinimum] at *
  omega

theorem new_maximum :
    253402214399999 < (new zone).maximum ∧ (new zone).maximum < 253402387199999 := by
  have hday := zone.lt_day editMaximum.instant
  have hnew : (new zone).maximum = editMaximum.instant - zone.offset editMaximum.instant := rfl
  rw [hnew, instant_editMaximum] at *
  omega

end QDateTimeEdit

/-! ### Texts that are shown -/

variable {zone : LocalTime} {format : TimeFormat} {moment : Moment}

/-- The years up to one, by the instant at which the next one starts. -/
theorem year_le_iff {year start : ℤ}
    (h : 86400000 * (daysBeforeYear year + 306 - epochDay) = start) :
    moment.date.year ≤ year ↔ moment.instant < start := by
  rw [← h, Moment.instant_lt_iff]

/-- The instants of the years of generalized times. -/
theorem hasYear_generalized_iff : TimeFormat.generalized.HasYear moment.date.year ↔
    -62135596800000 ≤ moment.instant ∧ moment.instant < 253402300800000 := by
  have hfirst : moment.date.year ≤ 0 ↔ moment.instant < -62135596800000 := year_le_iff (by decide)
  have hlast : moment.date.year ≤ 9999 ↔ moment.instant < 253402300800000 :=
    year_le_iff (by decide)
  rw [TimeFormat.HasYear, hlast]
  omega

/-- The instants of the years that two digits stand for. -/
theorem hasYear_utc_iff : TimeFormat.utc.HasYear moment.date.year ↔
    -2208988800000 ≤ moment.instant ∧ moment.instant < 946684800000 := by
  have hfirst : moment.date.year ≤ 1899 ↔ moment.instant < -2208988800000 :=
    year_le_iff (by decide)
  have hlast : moment.date.year ≤ 1999 ↔ moment.instant < 946684800000 := year_le_iff (by decide)
  rw [TimeFormat.HasYear, hlast]
  omega

/-- The moment that is shown at first is written as a text that is read. -/
theorem fromString_initial (zone : LocalTime) (format : TimeFormat) :
    ∃ moment, format.fromString
      (format.toString (.ofInstant (QDateTimeEdit.new zone).dateTime)) = some moment := by
  have hday := zone.lt_day editInitial.instant
  have hinit : (QDateTimeEdit.new zone).dateTime =
      editInitial.instant - zone.offset editInitial.instant := rfl
  rw [instant_editInitial] at hday hinit
  cases format with
  | generalized =>
    refine ⟨_, TimeFormat.fromString_toString_of_hasYear (hasYear_generalized_iff.2 ?_)⟩
    rw [Moment.instant_ofInstant]
    omega
  | utc =>
    rcases lt_or_ge (QDateTimeEdit.new zone).dateTime 946684800000 with hlt | hge
    · refine ⟨_, TimeFormat.fromString_toString_of_hasYear (hasYear_utc_iff.2 ?_)⟩
      rw [Moment.instant_ofInstant]
      omega
    · -- the first day of 2000 is read as that of 1900
      have hdate : (Moment.ofInstant (QDateTimeEdit.new zone).dateTime).date =
          editInitial.date := by
        have hnumber : (QDateTimeEdit.new zone).dateTime / 86400000 = 10957 := by omega
        have hfirst : Date.ofDayNumber (10957 + epochDay) = editInitial.date := by decide
        rw [Moment.ofInstant, hnumber]
        exact hfirst
      rw [TimeFormat.fromString_toString .utc (by rw [hdate]; decide) (by rw [hdate]; decide),
        hdate, makeDateTime]
      refine ⟨_, dif_pos ?_⟩
      exact ⟨by decide, by decide, Time.hour_mem _, Time.minute_mem _, Time.second_mem _,
        Time.msec_mem _⟩

/-- A time that is read is shown as one that is written so that it is read again. -/
theorem hasYear_setDateTime (h : format.HasYear moment.date.year) : format.HasYear
    (Moment.ofInstant ((QDateTimeEdit.new zone).setDateTime
      (some moment.instant)).dateTime).date.year := by
  have hmin := @QDateTimeEdit.new_minimum zone
  have hmax := @QDateTimeEdit.new_maximum zone
  cases format with
  | generalized =>
    rw [hasYear_generalized_iff] at h ⊢
    rw [Moment.instant_ofInstant, QDateTimeEdit.setDateTime]
    dsimp only
    omega
  | utc =>
    rw [hasYear_utc_iff] at h ⊢
    rw [Moment.instant_ofInstant, QDateTimeEdit.setDateTime]
    dsimp only
    omega

/-- What is read, shown and written stays the same if it is written in short and in the range. -/
theorem toString_setDateTime_iff {text : QString} :
    format.toString (.ofInstant ((QDateTimeEdit.new zone).setDateTime
      ((format.fromString text).map Moment.instant)).dateTime) = text ↔
      ∃ moment, format.fromString text = some moment ∧ ShortFraction text ∧
        (QDateTimeEdit.new zone).InRange moment.instant := by
  constructor
  · intro h
    rcases hread : format.fromString text with - | moment
    · obtain ⟨moment, hmoment⟩ := fromString_initial zone format
      rw [hread, Option.map_none, QDateTimeEdit.setDateTime] at h
      rw [h, hread] at hmoment
      exact nomatch hmoment
    · rw [hread, Option.map_some] at h
      have hagain := TimeFormat.fromString_toString_of_hasYear
        (@hasYear_setDateTime zone _ _ (TimeFormat.fromString_eq_some hread).1)
      rw [h, hread, Option.some.injEq] at hagain
      have hshown : ((QDateTimeEdit.new zone).setDateTime (some moment.instant)).dateTime =
          moment.instant :=
        (Moment.instant_ofInstant _).symm.trans (congrArg Moment.instant hagain).symm
      rw [hshown, Moment.ofInstant_instant] at h
      exact ⟨moment, rfl, (TimeFormat.toString_eq_iff hread).1 h,
        QDateTimeEdit.dateTime_setDateTime_iff.1 hshown⟩
  · rintro ⟨moment, hread, hshort, hrange⟩
    rw [hread, Option.map_some, QDateTimeEdit.dateTime_setDateTime_iff.2 hrange,
      Moment.ofInstant_instant]
    exact (TimeFormat.toString_eq_iff hread).2 hshort

/-! ## The dialog -/

/-- `class DatetimeAttributeDialog`. -/
structure DatetimeAttributeDialog where
  attr : String
  edit : QDateTimeEdit

namespace DatetimeAttributeDialog

variable (rt : Runtime) (gAdconfig : Option AttributeSchemas) (zone : LocalTime)

/-- `DatetimeAttributeDialog::DatetimeAttributeDialog`. -/
def new (valueList : List QByteArray) (attr : String) : DatetimeAttributeDialog :=
  let value := valueList.headD []
  let valueString := (rt.fromUtf8 value).toList
  let valueDatetime := datetimeStringToQdatetime rt gAdconfig attr valueString
  ⟨attr, (QDateTimeEdit.new zone).setDateTime valueDatetime⟩

/-- `DatetimeAttributeDialog::get_value_list`. -/
def getValueList (dialog : DatetimeAttributeDialog) : List QByteArray :=
  let valueDatetime := dialog.edit.dateTime
  let valueString := datetimeQdatetimeToString rt gAdconfig dialog.attr valueDatetime
  [toUtf8 (.ofList valueString)]

/-! ### Values that stay as they are -/

/-- The lists of at most one value that an attribute of a type can have. Large integers are
    not negative. -/
def IsStored (type : AttributeType) (valueList : List QByteArray) : Prop :=
  valueList = [] ∨ ∃ text : QString, valueList = [toUtf8 (.ofList text)] ∧
    (type = .largeInteger → ∃ n : ℕ, n < 2 ^ 63 ∧ text = number n)

/-- A time in whole milliseconds, or a text that is in the format and short, in the range of
    the edit. -/
def Stays (type : AttributeType) (text : QString) : Prop :=
  match type with
  | .largeInteger => millisTo100Nanos ∣ toLongLong text ∧
      (QDateTimeEdit.new zone).InRange (ntfsEpoch.instant + toLongLong text / millisTo100Nanos)
  | .generalizedTime => ∃ moment, TimeFormat.generalized.fromString text = some moment ∧
      ShortFraction text ∧ (QDateTimeEdit.new zone).InRange moment.instant
  | .utcTime => ∃ moment, TimeFormat.utc.fromString text = some moment ∧ ShortFraction text ∧
      (QDateTimeEdit.new zone).InRange moment.instant
  | _ => False

variable {rt zone} {schemas : AttributeSchemas} {attr : String}

theorem toUtf8_ofList_inj (hrt : rt.DecodesUtf8) {text text' : QString} :
    toUtf8 (.ofList text) = toUtf8 (.ofList text') ↔ text = text' := by
  constructor
  · intro h
    rw [← String.toList_ofList (l := text), ← hrt (.ofList text), h, hrt, String.toList_ofList]
  · exact congrArg fun text => toUtf8 (.ofList text)

/-- A value stays as it is if what is shown for it is written like it. -/
theorem getValueList_eq_singleton_iff (hrt : rt.DecodesUtf8) {text : QString} :
    (new rt (some schemas) zone [toUtf8 (.ofList text)] attr).getValueList rt (some schemas) =
        [toUtf8 (.ofList text)] ↔
      datetimeQdatetimeToString rt (some schemas) attr ((QDateTimeEdit.new zone).setDateTime
        (datetimeStringToQdatetime rt (some schemas) attr text)).dateTime = text := by
  simp only [getValueList, new, List.headD_cons, hrt (.ofList text), String.toList_ofList,
    List.cons.injEq, and_true, toUtf8_ofList_inj hrt]

/-- A large integer stays as it is if it is in whole milliseconds, and in the range. -/
theorem getValueList_largeInteger_iff (hrt : rt.DecodesUtf8)
    (htype : schemas.getAttributeType rt attr = .largeInteger)
    (hsubtype : getAttributeLargeIntegerSubtype attr = .datetime) {n : ℕ} (hn : n < 2 ^ 63) :
    (new rt (some schemas) zone [toUtf8 (.ofList (number n))] attr).getValueList rt
        (some schemas) = [toUtf8 (.ofList (number n))] ↔
      Stays zone .largeInteger (number n) := by
  have hread : toLongLong (number n) = n := toLongLong_number (by omega) (by omega)
  have hmin := @QDateTimeEdit.new_minimum zone
  have hmax := @QDateTimeEdit.new_maximum zone
  rw [getValueList_eq_singleton_iff hrt, datetimeStringToQdatetime, attributeToDateTime, htype]
  simp only [hsubtype, if_true, hread, Option.map_some, Moment.instant_ofInstant,
    datetimeQdatetimeToString, htype, Stays]
  rw [Int.tdiv_eq_ediv_of_nonneg (Int.natCast_nonneg n)]
  generalize hshown : ((QDateTimeEdit.new zone).setDateTime
    (some (ntfsEpoch.instant + (n : ℤ) / millisTo100Nanos))).dateTime = shown
  rw [← QDateTimeEdit.dateTime_setDateTime_iff, hshown]
  have hbound : -6857308800000 < shown ∧ shown < 253402387199999 := by
    rw [← hshown]
    exact ⟨hmin.1.trans_le (QDateTimeEdit.minimum_le _),
      (QDateTimeEdit.le_maximum _).trans_lt hmax.2⟩
  rw [instant_ntfsEpoch, millisTo100Nanos]
  constructor
  · intro h
    have hnumber := congrArg toLongLong h
    rw [hread, toLongLong_number (by omega) (by omega)] at hnumber
    omega
  · rintro ⟨hdvd, heq⟩
    congr 1
    omega

theorem getValueList_generalizedTime_iff (hrt : rt.DecodesUtf8)
    (htype : schemas.getAttributeType rt attr = .generalizedTime) {text : QString} :
    (new rt (some schemas) zone [toUtf8 (.ofList text)] attr).getValueList rt (some schemas) =
        [toUtf8 (.ofList text)] ↔
      Stays zone .generalizedTime text := by
  rw [getValueList_eq_singleton_iff hrt, datetimeStringToQdatetime, attributeToDateTime,
    datetimeQdatetimeToString]
  simp only [htype]
  exact toString_setDateTime_iff

theorem getValueList_utcTime_iff (hrt : rt.DecodesUtf8)
    (htype : schemas.getAttributeType rt attr = .utcTime) {text : QString} :
    (new rt (some schemas) zone [toUtf8 (.ofList text)] attr).getValueList rt (some schemas) =
        [toUtf8 (.ofList text)] ↔
      Stays zone .utcTime text := by
  rw [getValueList_eq_singleton_iff hrt, datetimeStringToQdatetime, attributeToDateTime,
    datetimeQdatetimeToString]
  simp only [htype]
  exact toString_setDateTime_iff

/-- Just the values in `Stays` are the same when the dialog is accepted as it is. -/
theorem getValueList_eq_iff (hrt : rt.DecodesUtf8) {type : AttributeType}
    (htype : schemas.getAttributeType rt attr = type)
    (hsubtype : type = .largeInteger → getAttributeLargeIntegerSubtype attr = .datetime)
    (hkind : type = .largeInteger ∨ type = .generalizedTime ∨ type = .utcTime)
    {valueList : List QByteArray} (hstored : IsStored type valueList) :
    (new rt (some schemas) zone valueList attr).getValueList rt (some schemas) = valueList ↔
      ∃ text, valueList = [toUtf8 (.ofList text)] ∧ Stays zone type text := by
  rcases hstored with rfl | ⟨text, rfl, hnumber⟩
  · exact iff_of_false (List.cons_ne_nil _ _) fun ⟨_, h, _⟩ => List.cons_ne_nil _ _ h.symm
  have hsame : (∃ text', [toUtf8 (.ofList text)] = [toUtf8 (.ofList text')] ∧
      Stays zone type text') ↔ Stays zone type text := by
    simp only [List.cons.injEq, and_true, toUtf8_ofList_inj hrt, exists_eq_left']
  rw [hsame]
  rcases hkind with rfl | rfl | rfl
  · obtain ⟨n, hn, rfl⟩ := hnumber rfl
    exact getValueList_largeInteger_iff hrt htype (hsubtype rfl) hn
  · exact getValueList_generalizedTime_iff hrt htype
  · exact getValueList_utcTime_iff hrt htype

/-- The schema of `accountExpires`. -/
def accountExpiresSchemas : AttributeSchemas :=
  [("accountExpires",
    ⟨"", [("attributeSyntax", [toUtf8 "2.5.5.16"]), ("oMSyntax", [toUtf8 "65"])]⟩)]

theorem getAttributeType_accountExpires :
    accountExpiresSchemas.getAttributeType zeroRuntime "accountExpires" = .largeInteger :=
  (getAttributeType_syntaxSchemas "accountExpires" "2.5.5.16" "65").trans (by decide)

/-- The start of 2025 stays as it is. -/
theorem getValueList_startOf2025 :
    (new zeroRuntime (some accountExpiresSchemas) .utc
        [toUtf8 (.ofList (number 133801632000000000))] "accountExpires").getValueList zeroRuntime
          (some accountExpiresSchemas) = [toUtf8 (.ofList (number 133801632000000000))] :=
  (getValueList_eq_iff decodesUtf8_zeroRuntime getAttributeType_accountExpires (fun _ => by decide)
    (.inl rfl) (.inr ⟨_, rfl, fun _ => ⟨133801632000000000, by decide, rfl⟩⟩)).2
      ⟨_, rfl, by decide, by decide⟩

/-- A time of expiry that means never becomes one in the past. -/
theorem not_getValueList_never :
    IsStored .largeInteger [toUtf8 (.ofList (number 0))] ∧
      (new zeroRuntime (some accountExpiresSchemas) .utc [toUtf8 (.ofList (number 0))]
        "accountExpires").getValueList zeroRuntime (some accountExpiresSchemas) ≠
          [toUtf8 (.ofList (number 0))] := by
  refine ⟨.inr ⟨_, rfl, fun _ => ⟨0, by decide, rfl⟩⟩, fun h => ?_⟩
  have hstays := (getValueList_largeInteger_iff (n := 0) decodesUtf8_zeroRuntime
    getAttributeType_accountExpires (by decide) (by decide)).1 h
  exact absurd hstays.2 (by decide)

end DatetimeAttributeDialog

end Admc
