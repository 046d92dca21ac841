import Admc.Lib.Pattern
import Admc.TimeSpan

/-!
# The format of time spans

What may be typed for a time span is given by a regular expression, beside the function that shows
a time span and the one that reads what has been typed. The three do not agree: the expression
has the two words with another character behind them, four digits of days at most, and no hours such
as 04 or 19; and what is read is too small by a factor of a hundred thousand.

* `isAcceptable_iff_isTimeSpan_iff`: which texts are accepted as the format says;
* `isAcceptable_timespanDisplayValue_iff`: which time spans are shown in an acceptable way;
* `getValueList_eq_ticks_iff`: which times are read as what they are.
-/

namespace Admc

open Pattern

/-! ## The validator -/

/-- The digits of the expression. -/
def digitPattern : Pattern := .range '0' '9'

/-- The expression of `line_edit_set_to_time_span_format`. -/
def timeSpanRegExp : Pattern :=
  .alt
    (.seq (.repeat digitPattern 1 4) (.seq (.ofText [':'])
      (.seq (.range '0' '2') (.seq (.range '0' '3') (.seq (.ofText [':'])
        (.seq (.range '0' '5') (.seq digitPattern (.seq (.ofText [':'])
          (.seq (.range '0' '5') digitPattern)))))))))
    (.alt (.seq .start (.seq (.ofText "(never)".toList) (.ofText ['&'])))
      (.seq .start (.seq (.ofText "(none)".toList) (.ofText ['&']))))

/-- The validator of `line_edit_set_to_time_span_format` finds a text acceptable. -/
def isAcceptable (text : QString) : Bool := timeSpanRegExp.accepts text

/-! ## The format -/

/-- Days, hours, minutes and seconds, as they are written. -/
structure ClockText where
  d : QString
  hh : QString
  mm : QString
  ss : QString
  days : ℕ
  hours : ℕ
  minutes : ℕ
  seconds : ℕ
  digits_d : digits d = some days
  digits_hh : digits hh = some hours
  digits_mm : digits mm = some minutes
  digits_ss : digits ss = some seconds
  length_hh : hh.length = 2
  length_mm : mm.length = 2
  length_ss : ss.length = 2
  hours_le : hours ≤ 23
  minutes_le : minutes ≤ 59
  seconds_le : seconds ≤ 59

namespace ClockText

variable (clock : ClockText)

/-- The text. -/
def text : QString := [':'].intercalate [clock.d, clock.hh, clock.mm, clock.ss]

/-- All in seconds. -/
def total : ℕ := clock.days * 86400 + clock.hours * 3600 + clock.minutes * 60 + clock.seconds

/-- The expression accepts so many digits of days, and such hours. -/
def Fits : Prop := clock.d.length ≤ 4 ∧ clock.hours % 10 ≤ 3

end ClockText

/-- The format: one of the two words, or days, hours, minutes and seconds. -/
def IsTimeSpan (text : QString) : Prop :=
  text = "(never)".toList ∨ text = "(none)".toList ∨ ∃ clock : ClockText, text = clock.text

/-! ## Digits -/

section
variable {c c' : Char} {text : QString} {n : ℕ}

/-- The number of a digit. -/
def digitValue (c : Char) : ℕ := c.toNat - '0'.toNat

theorem digitValue_le (h : c.isDigit = true) : digitValue c ≤ 9 := by
  rw [Char.isDigit, Bool.and_eq_true, decide_eq_true_iff, decide_eq_true_iff,
    UInt32.le_iff_toNat_le] at h
  have hle : c.toNat ≤ 57 := h.2
  rw [digitValue]
  exact Nat.sub_le_of_le_add hle

/-- The digits up to a last one. -/
theorem isIn_range_iff {last : Char} (hlast : last.isDigit = true) :
    (decide ('0' ≤ c) && decide (c ≤ last)) = true ↔
      c.isDigit = true ∧ digitValue c ≤ digitValue last := by
  have hdigit : ∀ d : Char, d.isDigit = true ↔ 48 ≤ d.toNat ∧ d.toNat ≤ 57 := by
    intro d
    rw [Char.isDigit, Bool.and_eq_true, decide_eq_true_iff, decide_eq_true_iff, ge_iff_le,
      UInt32.le_iff_toNat_le, UInt32.le_iff_toNat_le]
    exact Iff.rfl
  have hle : ∀ d d' : Char, d ≤ d' ↔ d.toNat ≤ d'.toNat := fun d d' => UInt32.le_iff_toNat_le
  have hzero : '0'.toNat = 48 := rfl
  rw [Bool.and_eq_true, decide_eq_true_iff, decide_eq_true_iff, hle, hle, hdigit, digitValue,
    digitValue, hzero]
  rw [hdigit] at hlast
  omega

theorem digits_pair_iff : digits [c, c'] = some n ↔
    c.isDigit = true ∧ c'.isDigit = true ∧ n = 10 * digitValue c + digitValue c' := by
  have hvalue : Nat.ofDigitChars 10 [c, c'] 0 = 10 * digitValue c + digitValue c' := by
    simp [Nat.ofDigitChars, digitValue]
  rw [digits, hvalue]
  simp only [ne_eq, List.cons_ne_nil, not_false_eq_true, List.all_cons, List.all_nil, Bool.and_true,
    Bool.and_eq_true, true_and]
  split_ifs with hall
  · rw [Option.some_inj, and_iff_right hall.1, and_iff_right hall.2]
    exact eq_comm
  · exact iff_of_false (by simp) fun h => hall ⟨h.1, h.2.1⟩

theorem isDigit_of_digits (h : digits text = some n) :
    text ≠ [] ∧ ∀ c ∈ text, c.isDigit = true := by
  rw [digits] at h
  split_ifs at h with hall
  exact ⟨hall.1, List.all_eq_true.1 hall.2⟩

theorem exists_digits (hne : text ≠ []) (h : ∀ c ∈ text, c.isDigit = true) :
    ∃ n, digits text = some n :=
  ⟨_, if_pos ⟨hne, List.all_eq_true.2 h⟩⟩

theorem colon_not_mem_of_digits (h : digits text = some n) : ':' ∉ text := fun hmem =>
  absurd ((isDigit_of_digits h).2 ':' hmem) (by decide)

/-- A number of two digits, with so many tens and ones at most. -/
def IsPair (tens ones : ℕ) (text : QString) : Prop :=
  text.length = 2 ∧ ∃ n, digits text = some n ∧ n / 10 ≤ tens ∧ n % 10 ≤ ones

theorem isPair_iff {last last' : Char} (hlast : last.isDigit = true)
    (hlast' : last'.isDigit = true) :
    IsPair (digitValue last) (digitValue last') text ↔ ∃ c c', text = [c, c'] ∧
      (decide ('0' ≤ c) && decide (c ≤ last)) = true ∧
      (decide ('0' ≤ c') && decide (c' ≤ last')) = true := by
  constructor
  · rintro ⟨hlength, n, hn, htens, hones⟩
    obtain ⟨c, c', rfl⟩ := List.length_eq_two.1 hlength
    obtain ⟨hc, hc', rfl⟩ := digits_pair_iff.1 hn
    have hle := digitValue_le hc'
    refine ⟨c, c', rfl, (isIn_range_iff hlast).2 ⟨hc, ?_⟩, (isIn_range_iff hlast').2 ⟨hc', ?_⟩⟩ <;>
      omega
  · rintro ⟨c, c', rfl, hc, hc'⟩
    obtain ⟨hc, htens⟩ := (isIn_range_iff hlast).1 hc
    obtain ⟨hc', hones⟩ := (isIn_range_iff hlast').1 hc'
    have hle := digitValue_le hc'
    refine ⟨rfl, _, digits_pair_iff.2 ⟨hc, hc', rfl⟩, ?_, ?_⟩ <;> omega

/-- Two digits, and more. -/
theorem matches_pair_seq_iff {last last' : Char} {q : Pattern} {atStart : Bool}
    (hlast : last.isDigit = true) (hlast' : last'.isDigit = true) :
    (seq (range '0' last) (.seq (range '0' last') q)).Matches atStart text ↔
      ∃ pair others, text = pair ++ others ∧ IsPair (digitValue last) (digitValue last') pair ∧
        q.Matches false others := by
  simp only [range, matches_char_seq_iff, isPair_iff hlast hlast']
  constructor
  · rintro ⟨c, _, rfl, hc, c', others, rfl, hc', hothers⟩
    exact ⟨[c, c'], others, rfl, ⟨c, c', rfl, hc, hc'⟩, hothers⟩
  · rintro ⟨_, others, rfl, ⟨c, c', rfl, hc, hc'⟩, hothers⟩
    exact ⟨c, c' :: others, rfl, hc, c', others, rfl, hc', hothers⟩

/-- Two digits. -/
theorem matches_pair_iff {last last' : Char} {atStart : Bool} (hlast : last.isDigit = true)
    (hlast' : last'.isDigit = true) :
    (seq (range '0' last) (range '0' last')).Matches atStart text ↔
      IsPair (digitValue last) (digitValue last') text := by
  rw [range, range, matches_char_seq_iff, isPair_iff hlast hlast']
  constructor
  · rintro ⟨c, _, rfl, hc, c', hc', rfl⟩
    exact ⟨c, c', rfl, hc, hc'⟩
  · rintro ⟨c, c', rfl, hc, hc'⟩
    exact ⟨c, [c'], rfl, hc, c', hc', rfl⟩

end

/-! ## What is acceptable -/

section
variable {text : QString} {clock clock' : ClockText}

namespace ClockText

theorem text_eq :
    clock.text = clock.d ++ ':' :: (clock.hh ++ ':' :: (clock.mm ++ ':' :: clock.ss)) := by
  simp [text, List.intercalate]

theorem splitOn_text : clock.text.splitOn ':' = [clock.d, clock.hh, clock.mm, clock.ss] := by
  refine List.splitOn_intercalate ':' ?_ (List.cons_ne_nil _ _)
  simp [colon_not_mem_of_digits clock.digits_d, colon_not_mem_of_digits clock.digits_hh,
    colon_not_mem_of_digits clock.digits_mm, colon_not_mem_of_digits clock.digits_ss]

/-- A text with a colon is no word. -/
theorem text_ne {word : QString} (hword : word.splitOn ':' = [word]) : clock.text ≠ word := by
  rintro rfl
  rw [splitOn_text] at hword
  exact absurd (congrArg List.length hword) (by simp)

/-- It depends on the text whether the expression accepts it. -/
theorem fits_congr (h : clock.text = clock'.text) : clock.Fits ↔ clock'.Fits := by
  have hparts := congrArg (List.splitOn ':') h
  rw [splitOn_text, splitOn_text] at hparts
  simp only [List.cons.injEq, and_true] at hparts
  obtain ⟨hd, hhh, -, -⟩ := hparts
  have hhours : clock.hours = clock'.hours := by
    rw [← Option.some_inj, ← clock.digits_hh, ← clock'.digits_hh, hhh]
  rw [Fits, Fits, hd, hhours]

end ClockText

/-- The part of the expression for days, hours, minutes and seconds. -/
theorem exists_clock_iff : (∃ clock : ClockText, text = clock.text ∧ clock.Fits) ↔
    ∃ d hh mm ss, text = d ++ ':' :: (hh ++ ':' :: (mm ++ ':' :: ss)) ∧
      (1 ≤ d.length ∧ d.length ≤ 4 ∧ ∀ c ∈ d, c.isDigit = true) ∧
      IsPair 2 3 hh ∧ IsPair 5 9 mm ∧ IsPair 5 9 ss := by
  constructor
  · rintro ⟨clock, rfl, hd, hhours⟩
    obtain ⟨hne, hall⟩ := isDigit_of_digits clock.digits_d
    have hle := clock.hours_le
    have hle' := clock.minutes_le
    have hle'' := clock.seconds_le
    refine ⟨clock.d, clock.hh, clock.mm, clock.ss, ClockText.text_eq,
      ⟨List.length_pos_iff.2 hne, hd, hall⟩, ⟨clock.length_hh, _, clock.digits_hh, ?_, hhours⟩,
      ⟨clock.length_mm, _, clock.digits_mm, ?_, ?_⟩,
      ⟨clock.length_ss, _, clock.digits_ss, ?_, ?_⟩⟩ <;>
      omega
  · rintro ⟨d, hh, mm, ss, rfl, ⟨hpos, hmax, hall⟩, ⟨hhh, hours, hhours, htens, hones⟩,
      ⟨hmm, minutes, hminutes, htens', hones'⟩, ⟨hss, seconds, hseconds, htens'', hones''⟩⟩
    obtain ⟨days, hdays⟩ := exists_digits (List.length_pos_iff.1 hpos) hall
    exact ⟨⟨d, hh, mm, ss, days, hours, minutes, seconds, hdays, hhours, hminutes, hseconds, hhh,
      hmm, hss, by omega, by omega, by omega⟩, by rw [ClockText.text_eq], hmax, hones⟩

/-- What the validator accepts. -/
theorem isAcceptable_iff : isAcceptable text = true ↔
    (∃ clock : ClockText, text = clock.text ∧ clock.Fits) ∨
      text = "(never)&".toList ∨ text = "(none)&".toList := by
  have hword : ∀ word : QString,
      (seq .start (.seq (.ofText word) (.ofText ['&']))).Matches true text ↔
        text = word ++ ['&'] := by
    intro word
    rw [matches_start_seq_iff, matches_ofText_seq_iff, and_iff_right rfl]
    simp only [matches_ofText_iff, exists_eq_right]
  have hdays : ∀ d : QString, (Pattern.repeat digitPattern 1 4).Matches true d ↔
      1 ≤ d.length ∧ d.length ≤ 4 ∧ ∀ c ∈ d, c.isDigit = true := by
    intro d
    rw [digitPattern, range, matches_repeat_char_iff]
    rfl
  rw [isAcceptable, accepts_iff, timeSpanRegExp]
  refine or_congr ?_ (or_congr (hword _) (hword _))
  rw [exists_clock_iff]
  constructor
  · rintro ⟨d, _, rfl, hd, hcolon⟩
    obtain ⟨_, rfl, hrest⟩ := matches_ofText_seq_iff.1 hcolon
    obtain ⟨hh, _, rfl, hhh, hcolon'⟩ := (matches_pair_seq_iff rfl rfl).1 hrest
    obtain ⟨_, rfl, hrest'⟩ := matches_ofText_seq_iff.1 hcolon'
    obtain ⟨mm, _, rfl, hmm, hcolon''⟩ := (matches_pair_seq_iff rfl rfl).1 hrest'
    obtain ⟨ss, rfl, hss⟩ := matches_ofText_seq_iff.1 hcolon''
    exact ⟨d, hh, mm, ss, rfl, (hdays d).1 hd, hhh, hmm, (matches_pair_iff rfl rfl).1 hss⟩
  · rintro ⟨d, hh, mm, ss, rfl, hd, hhh, hmm, hss⟩
    refine ⟨d, _, rfl, (hdays d).2 hd, matches_ofText_seq_iff.2 ⟨_, rfl, ?_⟩⟩
    refine (matches_pair_seq_iff rfl rfl).2 ⟨hh, _, rfl, hhh, matches_ofText_seq_iff.2 ⟨_, rfl, ?_⟩⟩
    refine (matches_pair_seq_iff rfl rfl).2 ⟨mm, _, rfl, hmm, matches_ofText_seq_iff.2 ⟨_, rfl, ?_⟩⟩
    exact (matches_pair_iff rfl rfl).2 hss

/-- The validator and the text of a time. -/
theorem isAcceptable_text_iff : isAcceptable clock.text = true ↔ clock.Fits := by
  have hwords : ¬ (clock.text = "(never)&".toList ∨ clock.text = "(none)&".toList) := by
    rintro (h | h) <;> exact ClockText.text_ne (by decide) h
  rw [isAcceptable_iff, or_iff_left hwords]
  constructor
  · rintro ⟨clock', h, hfits⟩
    exact (ClockText.fits_congr h).2 hfits
  · intro hfits
    exact ⟨clock, rfl, hfits⟩

/-! ## The validator and the format -/

/-- The texts that the expression has wrong. -/
def IsWord (text : QString) : Prop :=
  text = "(never)".toList ∨ text = "(none)".toList ∨ text = "(never)&".toList ∨
    text = "(none)&".toList

/-- The validator agrees with the format on a text that is none of these words, nor has too many
    digits or hours that the expression leaves out. -/
theorem isAcceptable_iff_isTimeSpan_iff : (isAcceptable text = true ↔ IsTimeSpan text) ↔
    ¬ IsWord text ∧ ∀ clock : ClockText, text = clock.text → clock.Fits := by
  by_cases hclock : ∃ clock : ClockText, text = clock.text
  · obtain ⟨clock, rfl⟩ := hclock
    have hword : ¬ IsWord clock.text := by
      rintro (h | h | h | h) <;> exact ClockText.text_ne (by decide) h
    have hspan : IsTimeSpan clock.text := .inr (.inr ⟨clock, rfl⟩)
    rw [iff_true_right hspan, isAcceptable_text_iff, and_iff_right hword]
    constructor
    · intro hfits clock' h
      exact (ClockText.fits_congr h).1 hfits
    · intro h
      exact h clock rfl
  · have hfits : ¬ ∃ clock : ClockText, text = clock.text ∧ clock.Fits :=
      fun ⟨clock, h, _⟩ => hclock ⟨clock, h⟩
    have hall : ∀ clock : ClockText, text = clock.text → clock.Fits :=
      fun clock h => absurd ⟨clock, h⟩ hclock
    rw [isAcceptable_iff, IsTimeSpan, or_iff_right hfits, or_iff_left hclock, and_iff_left hall,
      IsWord]
    -- the words that are accepted are others than those of the format
    constructor
    · rintro h (rfl | rfl | rfl | rfl)
      · exact absurd (h.2 (.inl rfl)) (by decide)
      · exact absurd (h.2 (.inr rfl)) (by decide)
      · exact absurd (h.1 (.inl rfl)) (by decide)
      · exact absurd (h.1 (.inr rfl)) (by decide)
    · intro h
      exact iff_of_false (fun h' => h (.inr (.inr h'))) fun h' => h (h'.imp_right .inl)

/-! ## What is shown -/

/-- A unit has two digits. -/
theorem digits_timeUnitToString {n : ℕ} (h : n ≤ 99) :
    digits (timeUnitToString n) = some n ∧ (timeUnitToString n).length = 2 := by
  have htime : (if 99 < (n : ℤ) then 99 else (n : ℤ)) = n := if_neg (by omega)
  have hnumber : number (n : ℤ) = Nat.toDigits 10 n := if_neg (by omega)
  rw [timeUnitToString, htime, hnumber]
  split_ifs with hzero hten
  · obtain rfl : n = 0 := by omega
    decide
  · have hlength : (Nat.toDigits 10 n).length ≤ 1 :=
      (Nat.length_toDigits_le_iff (by decide) (by decide)).2 (by omega)
    have hpos : 0 < (Nat.toDigits 10 n).length := List.length_pos_iff.2 Nat.toDigits_ne_nil
    refine ⟨digits_zero_cons (digits_toDigits n), ?_⟩
    rw [List.length_cons]
    omega
  · have hlength : (Nat.toDigits 10 n).length ≤ 2 :=
      (Nat.length_toDigits_le_iff (by decide) (by decide)).2 (by omega)
    have hlong : ¬ (Nat.toDigits 10 n).length ≤ 1 := fun h =>
      absurd ((Nat.length_toDigits_le_iff (by decide) (by decide)).1 h) (by omega)
    exact ⟨digits_toDigits n, by omega⟩

/-- So many seconds, in days, hours, minutes and seconds. -/
def ClockText.ofSeconds (n : ℕ) : ClockText where
  d := Nat.toDigits 10 (n / 86400)
  hh := timeUnitToString ↑(n % 86400 / 3600)
  mm := timeUnitToString ↑(n % 3600 / 60)
  ss := timeUnitToString ↑(n % 60)
  days := n / 86400
  hours := n % 86400 / 3600
  minutes := n % 3600 / 60
  seconds := n % 60
  digits_d := digits_toDigits _
  digits_hh := (digits_timeUnitToString (by omega)).1
  digits_mm := (digits_timeUnitToString (by omega)).1
  digits_ss := (digits_timeUnitToString (by omega)).1
  length_hh := (digits_timeUnitToString (by omega)).2
  length_mm := (digits_timeUnitToString (by omega)).2
  length_ss := (digits_timeUnitToString (by omega)).2
  hours_le := by omega
  minutes_le := by omega
  seconds_le := by omega

theorem clockText_eq (n : ℕ) : clockText n = (ClockText.ofSeconds n).text := by
  have hdays : number (n / 86400 : ℤ) = Nat.toDigits 10 (n / 86400) := if_neg (by omega)
  rw [clockText, daysToSeconds, hoursToSeconds, minutesToSeconds]
  have hn : (0 : ℤ) ≤ n := by omega
  rw [Int.tdiv_eq_ediv_of_nonneg hn]
  have hrest : (n : ℤ) - n / 86400 * 86400 = ↑(n % 86400) := by omega
  rw [hrest, Int.tdiv_eq_ediv_of_nonneg (Int.natCast_nonneg _)]
  have hrest' : ((n % 86400 : ℕ) : ℤ) - ↑(n % 86400) / 3600 * 3600 = ↑(n % 3600) := by omega
  rw [hrest', Int.tdiv_eq_ediv_of_nonneg (Int.natCast_nonneg _)]
  have hrest'' : ((n % 3600 : ℕ) : ℤ) - ↑(n % 3600) / 60 * 60 = ↑(n % 60) := by omega
  rw [hrest'', hdays]
  rfl

/-- All of a time span, in seconds. -/
def secondsOf (hundredNanosNegative : ℤ) : ℕ := (-hundredNanosNegative).toNat / 10 ^ 7

theorem getSecondsTotal_eq {n : ℤ} (h : n ≤ 0) : getSecondsTotal n = secondsOf n := by
  have hunits : 0 ≤ -n := by omega
  have hmillis : 0 ≤ -n / 10000 := by omega
  rw [getSecondsTotal, millisTo100Nanos, secondsToMillis, Int.tdiv_eq_ediv_of_nonneg hunits,
    Int.tdiv_eq_ediv_of_nonneg hmillis, secondsOf]
  omega

/-- A time span is shown in an acceptable way if it is no word, has less than ten thousand days, and
    hours whose second digit is 3 at most. -/
theorem isAcceptable_timespanDisplayValue_iff {bytes : QString} (h : toLongLong bytes ≤ 0) :
    isAcceptable (timespanDisplayValue bytes) = true ↔
      toLongLong bytes ≠ 0 ∧ toLongLong bytes ≠ llongMin ∧
        secondsOf (toLongLong bytes) / 86400 < 10000 ∧
        secondsOf (toLongLong bytes) % 86400 / 3600 % 10 ≤ 3 := by
  rw [timespanDisplayValue]
  split_ifs with hnever hnone
  · exact iff_of_false (by decide) fun hall => hall.2.1 hnever
  · exact iff_of_false (by decide) fun hall => hall.1 hnone
  · rw [and_iff_right hnone, and_iff_right hnever, getSecondsTotal_eq h, clockText_eq,
      isAcceptable_text_iff, ClockText.Fits]
    exact and_congr_left' (Nat.length_toDigits_le_iff (by decide) (by decide))

/-! ## What is read -/

/-- The dialog reads a time as a hundred units for each of its seconds. -/
theorem getValueList_text (h : clock.total * 10 ^ 7 ≤ 2 ^ 63) :
    getValueList clock.text = [number (-(100 * clock.total))] := by
  have hread : ∀ {part : QString} {n : ℕ}, digits part = some n → n ≤ clock.total →
      toLongLong part = n := by
    intro part n hpart hn
    rw [toLongLong, toInteger_of_digits hpart, if_pos]
    omega
  have hseconds : readSeconds clock.d clock.hh clock.mm clock.ss = -clock.total := by
    rw [readSeconds, hread clock.digits_d (by rw [ClockText.total]; omega),
      hread clock.digits_hh (by rw [ClockText.total]; omega),
      hread clock.digits_mm (by rw [ClockText.total]; omega),
      hread clock.digits_ss (by rw [ClockText.total]; omega), daysToSeconds, hoursToSeconds,
      minutesToSeconds, ClockText.total]
    omega
  rw [getValueList, if_neg (ClockText.text_ne (by decide)), if_neg (ClockText.text_ne (by decide)),
    ClockText.splitOn_text]
  dsimp only
  rw [hseconds, Int.mul_neg, Int.bmod_eq_of_le (by omega) (by omega)]

theorem getValueList_eq_ticks_iff (h : clock.total * 10 ^ 7 ≤ 2 ^ 63) :
    getValueList clock.text = [number (-(clock.total * 10 ^ 7))] ↔ clock.total = 0 := by
  rw [getValueList_text h]
  constructor
  · intro heq
    have hread := congrArg toLongLong (List.cons.inj heq).1
    rw [toLongLong_number (by omega) (by omega), toLongLong_number (by omega) (by omega)] at hread
    omega
  · intro hzero
    rw [hzero]
    rfl

end

/-! ## The result -/

/-- The validator, what is shown, and what is read. -/
theorem timeSpanFormat_iff (text bytes : QString) (clock : ClockText) :
    ((isAcceptable text = true ↔ IsTimeSpan text) ↔
      ¬ IsWord text ∧ ∀ clock : ClockText, text = clock.text → clock.Fits) ∧
    (toLongLong bytes ≤ 0 → (isAcceptable (timespanDisplayValue bytes) = true ↔
      toLongLong bytes ≠ 0 ∧ toLongLong bytes ≠ llongMin ∧
        secondsOf (toLongLong bytes) / 86400 < 10000 ∧
        secondsOf (toLongLong bytes) % 86400 / 3600 % 10 ≤ 3)) ∧
    (clock.total * 10 ^ 7 ≤ 2 ^ 63 →
      (getValueList clock.text = [number (-(clock.total * 10 ^ 7))] ↔ clock.total = 0)) :=
  ⟨isAcceptable_iff_isTimeSpan_iff, isAcceptable_timespanDisplayValue_iff,
    getValueList_eq_ticks_iff⟩

/-- Four hours are not shown in an acceptable way, and are read as too few units. -/
theorem timeSpanFormat_iff_hours :
    isAcceptable (timespanDisplayValue (number (-144000000000))) ≠ true ∧
      getValueList (ClockText.ofSeconds 14400).text ≠
        [number (-((ClockText.ofSeconds 14400).total * 10 ^ 7))] := by
  obtain ⟨-, hshown, hread⟩ :=
    timeSpanFormat_iff [] (number (-144000000000)) (ClockText.ofSeconds 14400)
  constructor
  · exact fun h => absurd ((hshown (by decide)).1 h).2.2.2 (by decide)
  · exact fun h => absurd ((hread (by decide)).1 h) (by decide)

/-- The word "(never)" is not accepted, but with an ampersand it is; nor is "0:04:00:00"; and a
    second is read as a hundred units. -/
theorem not_timeSpanFormat :
    (IsTimeSpan "(never)".toList ∧ isAcceptable "(never)".toList = false) ∧
    (¬ IsTimeSpan "(never)&".toList ∧ isAcceptable "(never)&".toList = true) ∧
    (timespanDisplayValue (number (-144000000000)) = "0:04:00:00".toList ∧
      isAcceptable "0:04:00:00".toList = false) ∧
    getValueList "0:00:00:01".toList = ["-100".toList] := by
  refine ⟨⟨.inl rfl, by decide⟩, ⟨?_, by decide⟩, ⟨by decide, by decide⟩, by decide⟩
  rintro (h | h | ⟨clock, h⟩)
  · exact absurd h (by decide)
  · exact absurd h (by decide)
  · exact ClockText.text_ne (by decide) h.symm

end Admc
