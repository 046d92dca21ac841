import Admc.Interface.Server
import Admc.Text
import Mathlib.Data.List.TakeWhile
import Mathlib.Data.Nat.Digits.Lemmas

/-!
# Octet strings

The bytes of an attribute are shown in one of four bases, as groups of digits of a fixed width
with blanks between them, and what is entered is read back byte by byte.

The texts that the check of a format accepts are those of bytes, and no others
(`isValid_iff`): the width of each group is checked, and where it would allow for more, so is the
range. The octal range is checked on the decimal reading of the digits, which has the same order.

* `octetStringToBytes_octetBytesToString`: what is shown is read back;
* `octetRoundTrip`: and what is accepted is shown again, in every format.
-/

namespace Admc

/-! ## The formats -/

/-- `enum OctetDisplayFormat`. -/
inductive OctetDisplayFormat
  | hexadecimal
  | binary
  | decimal
  | octal
  deriving DecidableEq, Repr

/-- `attribute_format_base`. -/
def attributeFormatBase : OctetDisplayFormat → ℕ
  | .hexadecimal => 16
  | .binary => 2
  | .decimal => 10
  | .octal => 8

/-- The `string_length` of the digits of a byte. -/
def OctetDisplayFormat.stringLength : OctetDisplayFormat → ℕ
  | .hexadecimal => 2
  | .binary => 8
  | .decimal | .octal => 3

/-! ## Writing -/

/-- The characters that `itoa` takes digits from: those of negative numbers come first. -/
def itoaTable : QString :=
  "zyxwvutsrqponmlkjihgfedcba9876543210123456789abcdefghijklmnopqrstuvwxyz".toList

/-- The loop of `itoa`, with the last digit first. -/
def itoaDigits (base : ℤ) : ℕ → ℤ → QString
  | 0, _ => []
  | fuel + 1, value =>
    let next := value.tdiv base
    itoaTable.getD (35 + (value - next * base)).toNat ' ' ::
      if next = 0 then [] else itoaDigits base fuel next

/-- `itoa`, whose loop ends before there are as many turns as the value. -/
def itoa (value base : ℤ) : QString :=
  if base < 2 ∨ base > 36 then []
  else
    let result := itoaDigits base (value.natAbs + 1) value
    (if value < 0 then result ++ ['-'] else result).reverse

/-- `QString::rightJustified`. -/
def rightJustified (text : QString) (width : ℕ) (fill : Char) : QString :=
  List.replicate (width - text.length) fill ++ text

/-- The digits of a byte in `octet_bytes_to_string`. -/
def byteString (format : OctetDisplayFormat) (byte : UInt8) : QString :=
  rightJustified (itoa byte.toNat (attributeFormatBase format)) format.stringLength '0'

/-- `octet_bytes_to_string`. -/
def octetBytesToString (bytes : QByteArray) (format : OctetDisplayFormat) : QString :=
  [' '].intercalate (bytes.map (byteString format))

/-! ## Reading -/

/-- `isspace`, in the locale "C". -/
def isCSpace (c : Char) : Bool := c = ' ' ∨ 0x09 ≤ c.toNat ∧ c.toNat ≤ 0x0d

/-- The value of a digit for `strtol`. -/
def strtolDigit (c : Char) : Option ℕ :=
  if '0' ≤ c ∧ c ≤ '9' then some (c.toNat - '0'.toNat)
  else if 'a' ≤ c ∧ c ≤ 'z' then some (c.toNat - 'a'.toNat + 10)
  else if 'A' ≤ c ∧ c ≤ 'Z' then some (c.toNat - 'A'.toNat + 10)
  else none

theorem strtolDigit_natDigitChar : ∀ d < 16, strtolDigit (Nat.digitChar d) = some d := by
  decide

/-- The digits that a text starts with. -/
def strtolDigits (base : ℕ) (text : QString) : List ℕ :=
  (text.map fun c => (strtolDigit c).getD base).takeWhile (· < base)

/-- The part of `strtol` after the sign: the prefix of hexadecimal numbers, if there is a digit
    after it, and the digits. -/
def strtolUnsigned (base : ℕ) (text : QString) : ℕ :=
  let text :=
    match base, text with
    | 16, '0' :: x :: c :: cs =>
      if (x = 'x' ∨ x = 'X') ∧ (strtolDigit c).getD base < base then c :: cs
      else '0' :: x :: c :: cs
    | _, text => text
  Nat.ofDigits base (strtolDigits base text).reverse

/-- `strtol`: numbers that are too large become the largest or smallest ones. -/
def strtol (text : QString) (base : ℕ) : ℤ :=
  let number : ℤ :=
    match text.dropWhile isCSpace with
    | '-' :: text => -(strtolUnsigned base text : ℤ)
    | '+' :: text => strtolUnsigned base text
    | text => strtolUnsigned base text
  max (-2 ^ 63) (min (2 ^ 63 - 1) number)

/-- The byte of a group of digits in `octet_string_to_bytes`, without the padding. Past the end
    of the group there is the null character. -/
def byteOfString (format : OctetDisplayFormat) (byteStringPadded : QString) : UInt8 :=
  let byteString := byteStringPadded.dropWhile (· = '0')
  let byteLi := strtol byteString (attributeFormatBase format)
  .ofNat (byteLi % 256).toNat

/-- `octet_string_to_bytes`. -/
def octetStringToBytes (string : QString) (format : OctetDisplayFormat) : QByteArray :=
  if string.isEmpty then [] else (string.splitOn ' ').map (byteOfString format)

/-! ## Checking -/

/-- A regular expression "^(X{n})$" for a class of characters, which matches up to a line break
    at the end. -/
def matchesGroup (n : ℕ) (isInClass : Char → Bool) (value : QString) : Bool :=
  (value.take n).length = n && (value.take n).all isInClass &&
    (value.drop n = [] || value.drop n = ['\n'])

/-- `attribute_validate_hexadecimal`. -/
def attributeValidateHexadecimal (value : QString) : Bool :=
  matchesGroup 2 (fun c => '0' ≤ c ∧ c ≤ '9' ∨ 'a' ≤ c ∧ c ≤ 'f') value

/-- `attribute_validate_binary`. -/
def attributeValidateBinary (value : QString) : Bool :=
  matchesGroup 8 (fun c => '0' ≤ c ∧ c ≤ '1') value

/-- `attribute_validate_decimal`. -/
def attributeValidateDecimal (value : QString) : Bool :=
  if !matchesGroup 3 (fun c => '0' ≤ c ∧ c ≤ '9') value then false
  else
    let number := toInt value
    if number < 0 ∨ number > 255 then false else true

/-- `attribute_validate_octal`. -/
def attributeValidateOctal (value : QString) : Bool :=
  if !matchesGroup 3 (fun c => '0' ≤ c ∧ c ≤ '7') value then false
  else
    let number := toInt value
    if number < 0 ∨ number > 377 then false else true

/-- `validators`. -/
def OctetDisplayFormat.isValid : OctetDisplayFormat → QString → Bool
  | .binary => attributeValidateBinary
  | .decimal => attributeValidateDecimal
  | .hexadecimal => attributeValidateHexadecimal
  | .octal => attributeValidateOctal

/-- `attribute_validate_input`. -/
def attributeValidateInput (format : OctetDisplayFormat) (input : QString) : Bool :=
  (input.splitOn ' ').all format.isValid

/-! ## Digits -/

/-- The character of a digit. -/
def digitChar (d : ℕ) : Char := itoaTable.getD (35 + d) ' '

/-- The numerals of a format, in the order they are read in. -/
def OctetDisplayFormat.numeral (format : OctetDisplayFormat) (byte : UInt8) : List ℕ :=
  (Nat.digitsAppend (attributeFormatBase format) format.stringLength byte.toNat).reverse

theorem strtolDigit_digitChar : ∀ d < 36, strtolDigit (digitChar d) = some d := by
  decide

/-- Digits start no blank, no sign and no prefix, and only zero is padding. -/
theorem digitChar_props : ∀ d < 36, isCSpace (digitChar d) = false ∧ digitChar d ≠ '-' ∧
    digitChar d ≠ '+' ∧ digitChar d ≠ ' ' ∧ digitChar d ≠ '\n' ∧ (digitChar d = '0' ↔ d = 0) := by
  decide

section
variable {base : ℕ} {ds : List ℕ}

/-- What the loop of `itoa` writes for a number that is not negative. -/
theorem itoaDigits_eq (hbase : 1 < base) {fuel n : ℕ} (hfuel : n < fuel) :
    itoaDigits base fuel n = (if n = 0 then [0] else Nat.digits base n).map digitChar := by
  induction fuel generalizing n with
  | zero => exact absurd hfuel (Nat.not_lt_zero n)
  | succ fuel ih =>
    have hnext : (n : ℤ).tdiv base = ((n / base : ℕ) : ℤ) := rfl
    have hdigit : (35 + ((n : ℤ) - ((n / base : ℕ) : ℤ) * base)).toNat = 35 + n % base := by
      have hdiv := Nat.div_add_mod n base
      have hmul : (((n / base : ℕ) : ℤ) * base) = ((base * (n / base) : ℕ) : ℤ) := by
        rw [mul_comm]
        exact (Int.natCast_mul _ _).symm
      omega
    simp only [itoaDigits, hnext, hdigit, Int.natCast_eq_zero]
    by_cases hn : n = 0
    · rw [hn, Nat.zero_div, if_pos rfl, if_pos rfl, Nat.zero_mod]
      rfl
    · rw [if_neg hn, Nat.digits_def' hbase (Nat.pos_of_ne_zero hn), List.map_cons]
      refine congrArg₂ _ rfl ?_
      split_ifs with hzero
      · rw [hzero, Nat.digits_zero, List.map_nil]
      · have hlt : n / base < fuel :=
          (Nat.div_lt_self (Nat.pos_of_ne_zero hn) hbase).trans_le (Nat.lt_succ_iff.1 hfuel)
        rw [ih hlt, if_neg hzero]

/-- A number that is written with zeros before it. -/
theorem rightJustified_itoa (hbase : 1 < base) (hmax : base ≤ 36) {width n : ℕ}
    (hwidth : 0 < width) :
    rightJustified (itoa n base) width '0' =
      (Nat.digitsAppend base width n).reverse.map digitChar := by
  have hitoa : itoa n base =
      ((if n = 0 then [0] else Nat.digits base n).map digitChar).reverse := by
    have hbounds : ¬((base : ℤ) < 2 ∨ (base : ℤ) > 36) := by omega
    have hpos : ¬(n : ℤ) < 0 := by omega
    rw [itoa, if_neg hbounds]
    dsimp only
    rw [if_neg hpos, Int.natAbs_natCast, itoaDigits_eq hbase (Nat.lt_succ_self n)]
  have hzero : ∀ k, List.replicate k '0' = (List.replicate k 0).map digitChar := fun k => by
    rw [List.map_replicate]
    rfl
  rw [rightJustified, hitoa, List.length_reverse, List.length_map, hzero, Nat.digitsAppend,
    List.reverse_append, List.reverse_replicate, List.map_append, ← List.map_reverse,
    ← List.map_append]
  split_ifs with hn
  · obtain ⟨k, rfl⟩ := Nat.exists_eq_succ_of_ne_zero hwidth.ne'
    rw [hn, Nat.digits_zero]
    simp [List.replicate_succ']
  · rw [← List.map_append]

end

theorem byteString_eq (format : OctetDisplayFormat) (byte : UInt8) :
    byteString format byte = (format.numeral byte).map digitChar := by
  rw [byteString, OctetDisplayFormat.numeral]
  cases format <;> exact rightJustified_itoa (by decide) (by decide) (by decide)

/-! ## What is written is read -/

section
variable {base : ℕ} {ds : List ℕ}

theorem strtolDigits_map (hbase : base ≤ 36) (hds : ∀ d ∈ ds, d < base) :
    strtolDigits base (ds.map digitChar) = ds := by
  have hmap : (ds.map digitChar).map (fun c => (strtolDigit c).getD base) = ds := by
    rw [List.map_map]
    refine (List.map_congr_left fun d hd => ?_).trans (List.map_id ds)
    rw [Function.comp_apply, strtolDigit_digitChar d ((hds d hd).trans_le hbase)]
    rfl
  rw [strtolDigits, hmap, List.takeWhile_eq_self_iff]
  exact fun d hd => decide_eq_true (hds d hd)

/-- Digits without zeros before them are read as their value, if it is not too large. -/
theorem strtol_map (hbase : base ≤ 36) (hds : ∀ d ∈ ds, d < base) (hhead : ds.head? ≠ some 0)
    (hmax : Nat.ofDigits base ds.reverse < 2 ^ 63) :
    strtol (ds.map digitChar) base = ((Nat.ofDigits base ds.reverse : ℕ) : ℤ) := by
  have hunsigned : strtolUnsigned base (ds.map digitChar) = Nat.ofDigits base ds.reverse := by
    unfold strtolUnsigned
    split
    · rename_i htext
      cases ds with
      | nil => exact nomatch htext
      | cons d ds =>
        have hd := (digitChar_props d ((hds d List.mem_cons_self).trans_le hbase)).2.2.2.2.2
        exact absurd (congrArg some (hd.1 (List.cons.inj htext).1)) hhead
    · dsimp only
      rw [strtolDigits_map hbase hds]
  have hnumber : ∀ n : ℕ, n < 2 ^ 63 → max (-2 ^ 63) (min (2 ^ 63 - 1) (n : ℤ)) = n := by omega
  rw [← hnumber _ hmax, strtol, ← hunsigned]
  cases ds with
  | nil => rfl
  | cons d ds =>
    obtain ⟨hspace, hminus, hplus, -⟩ :=
      digitChar_props d ((hds d List.mem_cons_self).trans_le hbase)
    rw [List.map_cons, List.dropWhile_cons_of_neg (by rw [hspace]; exact Bool.false_ne_true)]
    split
    · rename_i htext
      exact absurd (List.cons.inj htext).1 hminus
    · rename_i htext
      exact absurd (List.cons.inj htext).1 hplus
    · rfl

theorem ofDigits_reverse_dropWhile :
    Nat.ofDigits base (ds.dropWhile (· = 0)).reverse = Nat.ofDigits base ds.reverse := by
  induction ds with
  | nil => rfl
  | cons d ds ih =>
    rw [List.dropWhile_cons]
    split_ifs with hd
    · rw [ih, of_decide_eq_true hd, Nat.ofDigits_reverse_zero_cons]
    · rfl

end

/-- The groups of digits of a format that stand for bytes. -/
structure OctetDisplayFormat.IsNumeral (format : OctetDisplayFormat) (ds : List ℕ) : Prop where
  length_eq : ds.length = format.stringLength
  lt_base : ∀ d ∈ ds, d < attributeFormatBase format
  lt_size : Nat.ofDigits (attributeFormatBase format) ds.reverse < 256

namespace OctetDisplayFormat

variable {format : OctetDisplayFormat} {ds : List ℕ} {byte : UInt8}

theorem base_bounds (format : OctetDisplayFormat) :
    1 < attributeFormatBase format ∧ attributeFormatBase format ≤ 36 ∧
      256 ≤ attributeFormatBase format ^ format.stringLength := by
  cases format <;> decide

theorem ofDigits_numeral (format : OctetDisplayFormat) (byte : UInt8) :
    Nat.ofDigits (attributeFormatBase format) (format.numeral byte).reverse = byte.toNat := by
  rw [numeral, List.reverse_reverse, Nat.digitsAppend, Nat.ofDigits_append_replicate_zero,
    Nat.ofDigits_digits]

theorem isNumeral_numeral (format : OctetDisplayFormat) (byte : UInt8) :
    format.IsNumeral (format.numeral byte) := by
  obtain ⟨hone, -, hsize⟩ := format.base_bounds
  refine ⟨?_, fun d hd => ?_, ?_⟩
  · rw [numeral, List.length_reverse]
    exact Nat.length_digitsAppend hone _ (byte.toNat_lt.trans_le hsize)
  · exact Nat.lt_of_mem_digitsAppend hone _ _ (List.mem_reverse.1 hd)
  · rw [ofDigits_numeral]
    exact byte.toNat_lt

/-- Every numeral is that of its byte. -/
theorem IsNumeral.eq_numeral (h : format.IsNumeral ds) :
    ds = format.numeral (.ofNat (Nat.ofDigits (attributeFormatBase format) ds.reverse)) := by
  have hnumeral := format.isNumeral_numeral
    (.ofNat (Nat.ofDigits (attributeFormatBase format) ds.reverse))
  refine List.reverse_injective (Nat.ofDigits_inj_of_len_eq format.base_bounds.1 ?_ ?_ ?_ ?_)
  · rw [List.length_reverse, List.length_reverse, h.length_eq, hnumeral.length_eq]
  · exact fun d hd => h.lt_base d (List.mem_reverse.1 hd)
  · exact fun d hd => hnumeral.lt_base d (List.mem_reverse.1 hd)
  · rw [ofDigits_numeral, UInt8.toNat_ofNat_of_lt' h.lt_size]

/-- The byte of a numeral is read back. -/
theorem byteOfString_map (h : format.IsNumeral ds) :
    byteOfString format (ds.map digitChar) =
      .ofNat (Nat.ofDigits (attributeFormatBase format) ds.reverse) := by
  obtain ⟨hone, hbase, -⟩ := format.base_bounds
  have hstrip : ∀ ds : List ℕ, (∀ d ∈ ds, d < attributeFormatBase format) →
      (ds.map digitChar).dropWhile (· = '0') = (ds.dropWhile (· = 0)).map digitChar := by
    intro ds hds
    induction ds with
    | nil => rfl
    | cons d ds ih =>
      rw [List.forall_mem_cons] at hds
      have hzero := (digitChar_props d (hds.1.trans_le hbase)).2.2.2.2.2
      rw [List.map_cons, List.dropWhile_cons, List.dropWhile_cons, ih hds.2]
      simp only [hzero]
      split_ifs
      · rfl
      · rfl
  have hvalue := @ofDigits_reverse_dropWhile (attributeFormatBase format) ds
  have hhead : (ds.dropWhile (· = 0)).head? ≠ some 0 := by
    intro hhead
    have hnot := List.head?_dropWhile_not (fun d : ℕ => decide (d = 0)) ds
    rw [hhead] at hnot
    exact absurd hnot (by decide)
  have hread := strtol_map hbase
    (fun d hd => h.lt_base d ((List.dropWhile_sublist _).subset hd)) hhead
    (by rw [hvalue]; exact h.lt_size.trans (by decide))
  rw [byteOfString, hstrip ds h.lt_base, hread, hvalue]
  have hmod : (((Nat.ofDigits (attributeFormatBase format) ds.reverse : ℕ) : ℤ) % 256).toNat =
      Nat.ofDigits (attributeFormatBase format) ds.reverse := by
    have hlt := h.lt_size
    omega
  rw [hmod]

theorem byteOfString_byteString (format : OctetDisplayFormat) (byte : UInt8) :
    byteOfString format (byteString format byte) = byte := by
  rw [byteString_eq, byteOfString_map (format.isNumeral_numeral byte), ofDigits_numeral,
    UInt8.ofNat_toNat]

end OctetDisplayFormat

/-! ## What is accepted -/

section
variable {format : OctetDisplayFormat} {value : QString}

/-- A group of a class matches up to a line break. -/
theorem matchesGroup_iff {n : ℕ} {isInClass : Char → Bool} (h : '\n' ∉ value) :
    matchesGroup n isInClass value = true ↔
      value.length = n ∧ ∀ c ∈ value, isInClass c = true := by
  have hdrop : value.drop n ≠ ['\n'] := fun hdrop =>
    h (List.mem_of_mem_drop (hdrop ▸ List.mem_singleton_self '\n'))
  rw [matchesGroup, Bool.and_eq_true, Bool.and_eq_true, Bool.or_eq_true, decide_eq_true_iff,
    decide_eq_true_iff, decide_eq_true_iff, or_iff_left hdrop, List.drop_eq_nil_iff,
    List.length_take, List.all_eq_true]
  constructor
  · rintro ⟨⟨hmin, hall⟩, hle⟩
    rw [List.take_of_length_le hle] at hall
    exact ⟨by omega, hall⟩
  · rintro ⟨rfl, hall⟩
    rw [List.take_length]
    exact ⟨⟨min_self _, hall⟩, le_rfl⟩

/-- Digits are numbers, and then small letters. -/
theorem exists_digitChar_iff {base : ℕ} {c : Char} (hbase : base ≤ 36) :
    (∃ d < base, c = digitChar d) ↔
      48 ≤ c.toNat ∧ c.toNat < 58 ∧ c.toNat < 48 + base ∨ 97 ≤ c.toNat ∧ c.toNat < 87 + base := by
  have hnat : ∀ d < 36, (digitChar d).toNat = if d < 10 then 48 + d else 87 + d := by decide
  constructor
  · rintro ⟨d, hd, rfl⟩
    rw [hnat d (hd.trans_le hbase)]
    split_ifs <;> omega
  · have hchar : ∀ d < base, (if d < 10 then 48 + d else 87 + d) = c.toNat → c = digitChar d :=
      fun d hd h => Char.toNat_inj.1 (h.symm.trans (hnat d (hd.trans_le hbase)).symm)
    rintro (⟨hmin, hdigit, hmax⟩ | ⟨hmin, hmax⟩)
    · exact ⟨c.toNat - 48, by omega, hchar _ (by omega) (by rw [if_pos] <;> omega)⟩
    · exact ⟨c.toNat - 87, by omega, hchar _ (by omega) (by rw [if_neg] <;> omega)⟩

/-- The groups of the class of the digits of a base. -/
theorem matchesGroup_digits {base n : ℕ} (hbase : base ≤ 36) {isInClass : Char → Bool}
    (hclass : ∀ c, isInClass c = true ↔
      48 ≤ c.toNat ∧ c.toNat < 58 ∧ c.toNat < 48 + base ∨ 97 ≤ c.toNat ∧ c.toNat < 87 + base)
    (h : '\n' ∉ value) :
    matchesGroup n isInClass value = true ↔
      ∃ ds : List ℕ, ds.length = n ∧ (∀ d ∈ ds, d < base) ∧ value = ds.map digitChar := by
  have hdigit : ∀ c, isInClass c = true ↔ ∃ d < base, c = digitChar d := fun c =>
    (hclass c).trans (exists_digitChar_iff hbase).symm
  rw [matchesGroup_iff h]
  constructor
  · rintro ⟨rfl, hall⟩
    clear h
    induction value with
    | nil => exact ⟨[], rfl, nofun, rfl⟩
    | cons c value ih =>
      rw [List.forall_mem_cons, hdigit] at hall
      obtain ⟨⟨d, hd, rfl⟩, hall⟩ := hall
      obtain ⟨ds, hlength, hds, rfl⟩ := ih hall
      exact ⟨d :: ds, congrArg (· + 1) hlength, List.forall_mem_cons.2 ⟨hd, hds⟩, rfl⟩
  · rintro ⟨ds, rfl, hds, rfl⟩
    refine ⟨List.length_map _, fun c hc => ?_⟩
    obtain ⟨d, hd, rfl⟩ := List.mem_map.1 hc
    exact (hdigit _).2 ⟨d, hds d hd, rfl⟩

/-- Three digits are read as a decimal number, whatever the base of the format. -/
theorem toInt_three {a b c : ℕ} (ha : a < 10) (hb : b < 10) (hc : c < 10) :
    toInt ([a, b, c].map digitChar) = 100 * a + 10 * b + c := by
  have hchar : ∀ d < 10, (digitChar d).isDigit = true ∧ (digitChar d).toNat = 48 + d := by decide
  have hdigits : digits ([a, b, c].map digitChar) = some (100 * a + 10 * b + c) := by
    rw [digits, if_pos]
    · simp only [List.map_cons, List.map_nil, Nat.ofDigitChars, List.foldl_cons, List.foldl_nil,
        (hchar a ha).2, (hchar b hb).2, (hchar c hc).2]
      refine congrArg some ?_
      have hzero : '0'.toNat = 48 := rfl
      omega
    · simp only [List.map_cons, List.map_nil, List.all_cons, List.all_nil, (hchar a ha).1,
        (hchar b hb).1, (hchar c hc).1]
      exact ⟨List.cons_ne_nil _ _, rfl⟩
  rw [toInt, toInteger_of_digits hdigits, if_pos (by omega)]
  omega

/-- The check of a range after that of the group. -/
theorem validate_iff {matched : Bool} {n max : ℤ} :
    (if !matched then false else if n < 0 ∨ n > max then false else true) = true ↔
      matched = true ∧ 0 ≤ n ∧ n ≤ max := by
  cases matched
  · exact ⟨nofun, fun h => absurd h.1 Bool.false_ne_true⟩
  · rw [Bool.not_true, if_neg Bool.false_ne_true]
    split_ifs with h
    · exact ⟨nofun, fun h' => by omega⟩
    · exact ⟨fun _ => ⟨rfl, by omega⟩, fun _ => rfl⟩

variable (format) in
/-- The formats whose groups have no more values than a byte. -/
theorem matchesGroup_isNumeral {isInClass : Char → Bool}
    (hsize : attributeFormatBase format ^ format.stringLength = 256)
    (hclass : ∀ c, isInClass c = true ↔
      48 ≤ c.toNat ∧ c.toNat < 58 ∧ c.toNat < 48 + attributeFormatBase format ∨
        97 ≤ c.toNat ∧ c.toNat < 87 + attributeFormatBase format) (h : '\n' ∉ value) :
    matchesGroup format.stringLength isInClass value = true ↔
      ∃ ds, format.IsNumeral ds ∧ value = ds.map digitChar := by
  rw [matchesGroup_digits format.base_bounds.2.1 hclass h]
  constructor
  · rintro ⟨ds, hlength, hds, rfl⟩
    refine ⟨ds, ⟨hlength, hds, ?_⟩, rfl⟩
    rw [← hsize, ← hlength, ← List.length_reverse]
    exact Nat.ofDigits_lt_base_pow_length format.base_bounds.1
      fun d hd => hds d (List.mem_reverse.1 hd)
  · rintro ⟨ds, hds, rfl⟩
    exact ⟨ds, hds.length_eq, hds.lt_base, rfl⟩

variable (format) in
/-- Those whose groups have three digits, with a range that is checked on their decimal
    reading. -/
theorem range_isNumeral {isInClass : Char → Bool} {max : ℤ} (hlength : format.stringLength = 3)
    (hbase : attributeFormatBase format ≤ 10)
    (hmax : ∀ a b c : ℕ, a < attributeFormatBase format → b < attributeFormatBase format →
      c < attributeFormatBase format → ((100 * a + 10 * b + c : ℕ) ≤ max ↔
        Nat.ofDigits (attributeFormatBase format) [c, b, a] < 256))
    (hclass : ∀ c, isInClass c = true ↔
      48 ≤ c.toNat ∧ c.toNat < 58 ∧ c.toNat < 48 + attributeFormatBase format ∨
        97 ≤ c.toNat ∧ c.toNat < 87 + attributeFormatBase format) (h : '\n' ∉ value) :
    (matchesGroup 3 isInClass value = true ∧ 0 ≤ toInt value ∧ toInt value ≤ max) ↔
      ∃ ds, format.IsNumeral ds ∧ value = ds.map digitChar := by
  have hthree : ∀ ds : List ℕ, ds.length = 3 → (∀ d ∈ ds, d < attributeFormatBase format) →
      (0 ≤ toInt (ds.map digitChar) ∧ toInt (ds.map digitChar) ≤ max ↔
        Nat.ofDigits (attributeFormatBase format) ds.reverse < 256) := by
    intro ds hds hdigits
    obtain ⟨a, b, c, rfl⟩ := List.length_eq_three.1 hds
    simp only [List.forall_mem_cons] at hdigits
    obtain ⟨ha, hb, hc, -⟩ := hdigits
    have hreverse : [a, b, c].reverse = [c, b, a] := rfl
    rw [toInt_three (ha.trans_le hbase) (hb.trans_le hbase) (hc.trans_le hbase), hreverse,
      ← hmax a b c ha hb hc]
    exact and_iff_right (Int.natCast_nonneg _)
  rw [matchesGroup_digits format.base_bounds.2.1 hclass h]
  constructor
  · rintro ⟨⟨ds, hds, hdigits, rfl⟩, hrange⟩
    exact ⟨ds, ⟨hds.trans hlength.symm, hdigits, (hthree ds hds hdigits).1 hrange⟩, rfl⟩
  · rintro ⟨ds, hds, rfl⟩
    have hds' := hds.length_eq.trans hlength
    exact ⟨⟨ds, hds', hds.lt_base, rfl⟩, (hthree ds hds' hds.lt_base).2 hds.lt_size⟩

/-- The texts that a format accepts are its numerals. -/
theorem isValid_iff_isNumeral (h : '\n' ∉ value) :
    format.isValid value = true ↔ ∃ ds, format.IsNumeral ds ∧ value = ds.map digitChar := by
  cases format with
  | hexadecimal =>
    refine matchesGroup_isNumeral .hexadecimal rfl (fun c => ?_) h
    rw [decide_eq_true_iff]
    change 48 ≤ c.toNat ∧ c.toNat ≤ 57 ∨ 97 ≤ c.toNat ∧ c.toNat ≤ 102 ↔
      48 ≤ c.toNat ∧ c.toNat < 58 ∧ c.toNat < 48 + 16 ∨ 97 ≤ c.toNat ∧ c.toNat < 87 + 16
    omega
  | binary =>
    refine matchesGroup_isNumeral .binary rfl (fun c => ?_) h
    rw [decide_eq_true_iff]
    change 48 ≤ c.toNat ∧ c.toNat ≤ 49 ↔
      48 ≤ c.toNat ∧ c.toNat < 58 ∧ c.toNat < 48 + 2 ∨ 97 ≤ c.toNat ∧ c.toNat < 87 + 2
    omega
  | decimal =>
    refine validate_iff.trans
      (range_isNumeral .decimal rfl le_rfl (fun a b c _ _ _ => ?_) (fun c => ?_) h)
    · have hvalue : Nat.ofDigits 10 [c, b, a] = c + 10 * (b + 10 * (a + 10 * 0)) := rfl
      change _ ↔ Nat.ofDigits 10 [c, b, a] < 256
      omega
    · rw [decide_eq_true_iff]
      change 48 ≤ c.toNat ∧ c.toNat ≤ 57 ↔
        48 ≤ c.toNat ∧ c.toNat < 58 ∧ c.toNat < 48 + 10 ∨ 97 ≤ c.toNat ∧ c.toNat < 87 + 10
      omega
  | octal =>
    refine validate_iff.trans
      (range_isNumeral .octal rfl (by decide) (fun a b c ha hb hc => ?_) (fun c => ?_) h)
    · -- The first digit decides in both readings.
      have hvalue : Nat.ofDigits 8 [c, b, a] = c + 8 * (b + 8 * (a + 8 * 0)) := rfl
      change a < 8 at ha
      change b < 8 at hb
      change c < 8 at hc
      change _ ↔ Nat.ofDigits 8 [c, b, a] < 256
      omega
    · rw [decide_eq_true_iff]
      change 48 ≤ c.toNat ∧ c.toNat ≤ 55 ↔
        48 ≤ c.toNat ∧ c.toNat < 58 ∧ c.toNat < 48 + 8 ∨ 97 ≤ c.toNat ∧ c.toNat < 87 + 8
      omega

/-- The texts that a format accepts are those of bytes. -/
theorem isValid_iff (h : '\n' ∉ value) :
    format.isValid value = true ↔ ∃ byte, value = byteString format byte := by
  rw [isValid_iff_isNumeral h]
  constructor
  · rintro ⟨ds, hds, rfl⟩
    exact ⟨_, by rw [byteString_eq, ← hds.eq_numeral]⟩
  · rintro ⟨byte, rfl⟩
    exact ⟨_, format.isNumeral_numeral byte, byteString_eq format byte⟩

end

/-! ## Whole values -/

/-- There is nothing in the text of a byte but digits. -/
theorem not_mem_byteString (format : OctetDisplayFormat) (byte : UInt8) {c : Char}
    (hc : c = ' ' ∨ c = '\n') : c ∉ byteString format byte := by
  intro hmem
  rw [byteString_eq, List.mem_map] at hmem
  obtain ⟨d, hd, rfl⟩ := hmem
  have hlt := ((format.isNumeral_numeral byte).lt_base d hd).trans_le format.base_bounds.2.1
  obtain ⟨-, -, -, hblank, hbreak, -⟩ := digitChar_props d hlt
  exact hc.elim hblank hbreak

theorem byteString_ne_nil (format : OctetDisplayFormat) (byte : UInt8) :
    byteString format byte ≠ [] := by
  intro hnil
  have hlength := congrArg List.length (byteString_eq format byte)
  rw [hnil, List.length_map, (format.isNumeral_numeral byte).length_eq] at hlength
  cases format <;> exact absurd hlength (by decide)

/-- The groups of a text that is shown are those of its bytes. -/
theorem splitOn_octetBytesToString {bytes : QByteArray} (format : OctetDisplayFormat)
    (h : bytes ≠ []) :
    (octetBytesToString bytes format).splitOn ' ' = bytes.map (byteString format) := by
  refine List.splitOn_intercalate ' ' (fun value hvalue => ?_) (mt List.map_eq_nil_iff.1 h)
  obtain ⟨byte, -, rfl⟩ := List.mem_map.1 hvalue
  exact not_mem_byteString format byte (.inl rfl)

/-- What is shown is read back. -/
theorem octetStringToBytes_octetBytesToString (format : OctetDisplayFormat) (bytes : QByteArray) :
    octetStringToBytes (octetBytesToString bytes format) format = bytes := by
  by_cases h : bytes = []
  · rw [h]
    rfl
  · have hsplit := splitOn_octetBytesToString format h
    have hne : octetBytesToString bytes format ≠ [] := by
      intro hnil
      obtain ⟨byte, bytes, rfl⟩ := List.exists_cons_of_ne_nil h
      rw [hnil] at hsplit
      exact byteString_ne_nil format byte (List.cons.inj hsplit).1.symm
    rw [octetStringToBytes, if_neg (mt List.isEmpty_iff.1 hne), hsplit, List.map_map]
    have hread : ∀ byte ∈ bytes, (byteOfString format ∘ byteString format) byte = id byte :=
      fun byte _ => OctetDisplayFormat.byteOfString_byteString format byte
    rw [List.map_congr_left hread, List.map_id]

/-- Octet strings in every format: what is shown is read back and accepted, and what is accepted
    is shown again. -/
theorem octetRoundTrip (format : OctetDisplayFormat) :
    (∀ bytes, octetStringToBytes (octetBytesToString bytes format) format = bytes) ∧
    (∀ bytes, bytes ≠ [] → attributeValidateInput format (octetBytesToString bytes format) = true) ∧
    ∀ string, '\n' ∉ string → attributeValidateInput format string = true →
      octetBytesToString (octetStringToBytes string format) format = string := by
  refine ⟨octetStringToBytes_octetBytesToString format, fun bytes h => ?_,
    fun string h hvalid => ?_⟩
  · rw [attributeValidateInput, splitOn_octetBytesToString format h, List.all_eq_true]
    intro value hvalue
    obtain ⟨byte, -, rfl⟩ := List.mem_map.1 hvalue
    exact (isValid_iff (not_mem_byteString format byte (.inr rfl))).2 ⟨byte, rfl⟩
  · rw [attributeValidateInput, List.all_eq_true] at hvalid
    -- Every group is that of a byte.
    have hbyte : ∀ value ∈ string.splitOn ' ', ∃ byte, value = byteString format byte := by
      intro value hvalue
      have hcount := Path.count_le_of_mem_splitOn hvalue '\n'
      rw [List.count_eq_zero_of_not_mem h, Nat.le_zero, List.count_eq_zero] at hcount
      exact (isValid_iff hcount).1 (hvalid value hvalue)
    have hne : string ≠ [] := by
      rintro rfl
      obtain ⟨byte, hbyte⟩ := hbyte [] (List.mem_singleton_self [])
      exact byteString_ne_nil format byte hbyte.symm
    have hshown : ∀ value ∈ string.splitOn ' ',
        (byteString format ∘ byteOfString format) value = id value := by
      intro value hvalue
      obtain ⟨byte, rfl⟩ := hbyte value hvalue
      exact congrArg (byteString format) (OctetDisplayFormat.byteOfString_byteString format byte)
    rw [octetStringToBytes, if_neg (mt List.isEmpty_iff.1 hne), octetBytesToString, List.map_map,
      List.map_congr_left hshown, List.map_id, List.intercalate_splitOn]

/-- Octal digits, the largest ones that are accepted among them. -/
theorem octetRoundTrip_octal :
    octetBytesToString (octetStringToBytes "012 377".toList .octal) .octal = "012 377".toList :=
  (octetRoundTrip .octal).2.2 _ (by decide) (by decide +kernel)

end Admc
