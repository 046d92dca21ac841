import Admc.Lib.Path
import Mathlib.Data.List.Basic
import Mathlib.Data.List.Infix
import Mathlib.Algebra.Group.Int.Defs
import Mathlib.Algebra.Group.Nat.Defs
import Mathlib.Tactic.Common

/-!
# Texts

What the code does with texts: replacing and removing parts of them, changing
their letter case, and reading and writing numbers. Texts that are taken apart
are lists of characters.

* `replaceText_of_not_infix`: nothing is replaced in a text that does not contain
  what is looked for;
* `toInteger_number`: a number that is written is read again.
-/

namespace Admc

/-- The characters of a `QString`. -/
abbrev QString := List Char

instance instLawfulBEqQString : LawfulBEq QString := inferInstance

/-- What holds of the characters of a text is decided by going through the text, and not
    through all characters. -/
theorem forall_mem_of_all {P : Char → Prop} [DecidablePred P] {text : QString}
    (h : text.all (fun c => decide (P c)) = true) : ∀ c ∈ text, P c :=
  fun c hc => of_decide_eq_true (List.all_eq_true.1 h c hc)

/-! ## Replacing -/

section
variable {α : Type*} [DecidableEq α]

/-- The rest of a text, past the part of a match that is still to skip, in
    `QString::replace`. -/
def replaceFrom (before after : List α) : ℕ → List α → List α
  | _, [] => []
  | skip + 1, _ :: cs => replaceFrom before after skip cs
  | 0, c :: cs =>
    if before.isPrefixOf (c :: cs) then after ++ replaceFrom before after (before.length - 1) cs
    else c :: replaceFrom before after 0 cs

/-- `QString::replace`. -/
def replaceText (before after text : List α) : List α := replaceFrom before after 0 text

/-- `QString::remove`, of all occurrences of a text. -/
def removeText (before text : List α) : List α := replaceText before [] text

variable {before after text : List α}

theorem replaceFrom_eq_drop (skip : ℕ) :
    replaceFrom before after skip text = replaceText before after (text.drop skip) := by
  induction skip generalizing text with
  | zero => rfl
  | succ skip ih =>
    cases text with
    | nil => rfl
    | cons c cs => exact ih

theorem replaceText_cons_of_not_match {c : α} {cs : List α} (h : ¬before <+: c :: cs) :
    replaceText before after (c :: cs) = c :: replaceText before after cs := by
  rw [← List.isPrefixOf_iff_prefix] at h
  rw [replaceText, replaceFrom, if_neg h]
  rfl

/-- What is looked for is replaced where it comes first. -/
theorem replaceText_append (h : before ≠ []) :
    replaceText before after (before ++ text) = after ++ replaceText before after text := by
  obtain ⟨c, cs, rfl⟩ := List.exists_cons_of_ne_nil h
  have hprefix : (c :: cs).isPrefixOf (c :: (cs ++ text)) = true :=
    List.isPrefixOf_iff_prefix.2 (List.prefix_append (c :: cs) text)
  rw [replaceText, List.cons_append, replaceFrom, if_pos hprefix, replaceFrom_eq_drop,
    List.length_cons, Nat.add_sub_cancel, List.drop_left]

/-- Nothing is replaced where what is looked for cannot start. -/
theorem replaceText_append_of_not_mem {a : α} {s : List α} (h : a ∉ s) :
    replaceText (a :: before) after (s ++ text) = s ++ replaceText (a :: before) after text := by
  induction s with
  | nil => rfl
  | cons c s ih =>
    rw [List.mem_cons, not_or] at h
    rw [List.cons_append, replaceText_cons_of_not_match, ih h.2, List.cons_append]
    rw [List.cons_prefix_cons]
    exact fun hp => h.1 hp.1

/-- Nothing is replaced in a text that does not contain what is looked for. -/
theorem replaceText_of_not_infix (h : ¬before <:+: text) :
    replaceText before after text = text := by
  induction text with
  | nil => rfl
  | cons c cs ih =>
    rw [replaceText_cons_of_not_match fun hp => h hp.isInfix,
      ih fun hi => h (hi.trans (List.suffix_cons c cs).isInfix)]

theorem replaceText_singleton_nil {a : α} :
    replaceText [a] [] text = text.filter (· ≠ a) := by
  induction text with
  | nil => rfl
  | cons c cs ih =>
    by_cases hc : c = a
    · subst hc
      have hhead : replaceText [c] [] (c :: cs) = [] ++ replaceText [c] [] cs :=
        replaceText_append (List.cons_ne_nil c [])
      rw [hhead, ih, List.nil_append, List.filter_cons_of_neg (by simp)]
    · rw [replaceText_cons_of_not_match, ih, List.filter_cons_of_pos (by simpa using hc)]
      rw [List.cons_prefix_cons]
      exact fun h => hc h.1.symm

/-- The induction along a text: what is looked for comes first, or something else does. -/
theorem replaceText_induction {motive : List α → List α → Prop} (hne : before ≠ [])
    (nil : motive [] [])
    (append : ∀ rest, motive rest (replaceText before after rest) →
      motive (before ++ rest) (after ++ replaceText before after rest))
    (cons : ∀ c cs, ¬before <+: c :: cs → motive cs (replaceText before after cs) →
      motive (c :: cs) (c :: replaceText before after cs))
    (text : List α) : motive text (replaceText before after text) := by
  induction hn : text.length using Nat.strong_induction_on generalizing text with
  | _ n ih =>
    cases text with
    | nil => exact nil
    | cons c cs =>
      by_cases hp : before <+: c :: cs
      · obtain ⟨rest, hrest⟩ := hp
        have hlen := congrArg List.length hrest
        rw [List.length_append, hn] at hlen
        have hpos := List.length_pos_of_ne_nil hne
        rw [← hrest, replaceText_append hne]
        exact append rest (ih rest.length (by omega) rest rfl)
      · rw [replaceText_cons_of_not_match hp]
        exact cons c cs hp (ih cs.length (by rw [← hn]; exact Nat.lt_succ_self _) cs rfl)

theorem count_removeText_le (a : α) : (removeText before text).count a ≤ text.count a := by
  rcases eq_or_ne before [] with rfl | hne
  · induction text with
    | nil => exact le_rfl
    | cons c cs ih =>
      rw [List.count_cons]
      exact ih.trans (Nat.le_add_right _ _)
  · refine replaceText_induction (motive := fun text out => out.count a ≤ text.count a) hne
      (Nat.le_refl 0) (fun rest ih => ?_) (fun c cs _ ih => ?_) text
    · rw [List.nil_append, List.count_append]
      exact ih.trans (Nat.le_add_left _ _)
    · rw [List.count_cons, List.count_cons]
      exact Nat.add_le_add_right ih _

/-- Other elements stay as they are. -/
theorem count_replaceText {a : α} (hne : before ≠ []) (hbefore : a ∉ before) (hafter : a ∉ after) :
    (replaceText before after text).count a = text.count a := by
  refine replaceText_induction (motive := fun text out => out.count a = text.count a) hne
    rfl (fun rest ih => ?_) (fun c cs _ ih => ?_) text
  · rw [List.count_append, List.count_append, ih, List.count_eq_zero_of_not_mem hbefore,
      List.count_eq_zero_of_not_mem hafter]
  · rw [List.count_cons, List.count_cons, ih]

/-- Removing a text takes its characters from one that contains it. -/
theorem count_removeText_lt {a : α} (ha : a ∈ before) (h : before <:+: text) :
    (removeText before text).count a < text.count a := by
  have hne := List.ne_nil_of_mem ha
  induction text with
  | nil => exact absurd (List.infix_nil.1 h) hne
  | cons c cs ih =>
    by_cases hp : before <+: c :: cs
    · obtain ⟨rest, hrest⟩ := hp
      have hpos := List.count_pos_iff.2 ha
      have hle : (removeText before rest).count a ≤ rest.count a := count_removeText_le a
      rw [removeText] at hle
      rw [removeText, ← hrest, replaceText_append hne, List.nil_append, List.count_append]
      omega
    · rcases List.infix_cons_iff.1 h with h | h
      · exact absurd h hp
      · rw [removeText, replaceText_cons_of_not_match hp, List.count_cons, List.count_cons]
        exact Nat.add_lt_add_right (ih h) _

end

/-! ## Positions -/

section
variable {α : Type*} [DecidableEq α]

/-- `QList::indexOf` and `QString::indexOf`. -/
def indexOf (l : List α) (a : α) : ℤ :=
  if a ∈ l then l.idxOf a else -1

theorem indexOf_lt (l : List α) (a : α) :
    indexOf l a < l.length := by
  rw [indexOf]
  split_ifs with hmem
  · exact Int.ofNat_lt.2 (List.idxOf_lt_length_of_mem hmem)
  · omega

theorem indexOf_getElem {l : List α} (h : l.Nodup) {i : ℕ}
    (hi : i < l.length) : indexOf l l[i] = i := by
  rw [indexOf, if_pos (List.getElem_mem hi), h.idxOf_getElem]

theorem indexOf_cons_self (l : List α) (a : α) :
    indexOf (a :: l) a = 0 := by
  rw [indexOf, if_pos List.mem_cons_self, List.idxOf_cons_self]
  rfl

theorem eq_of_indexOf_cons_eq_zero {l : List α} {a b : α}
    (h : indexOf (a :: l) b = 0) : b = a := by
  rw [indexOf] at h
  split_ifs at h
  by_contra hne
  rw [List.idxOf_cons_ne _ (Ne.symm hne)] at h
  omega

theorem neg_one_le_indexOf (l : List α) (a : α) :
    -1 ≤ indexOf l a := by
  rw [indexOf]
  split_ifs <;> omega

theorem getElem?_indexOf {l : List α} {a b : α} (h : 0 ≤ indexOf l a)
    (hget : l[(indexOf l a).toNat]? = some b) : b = a := by
  rw [indexOf] at *
  split_ifs at * with hmem
  · rw [Int.toNat_natCast, List.getElem?_eq_getElem (List.idxOf_lt_length_of_mem hmem),
      List.getElem_idxOf] at hget
    exact (Option.some.inj hget).symm
  · exact absurd h (by decide)

theorem indexOf_nonneg {l : List α} {a : α} (h : a ∈ l) :
    0 ≤ indexOf l a := by
  rw [indexOf, if_pos h]
  exact Int.natCast_nonneg _

theorem indexOf_of_not_mem {l : List α} {a : α} (h : a ∉ l) : indexOf l a = -1 := by
  rw [indexOf, if_neg h]

/-- An element is where it comes first. -/
theorem indexOf_append_cons {l l' : List α} {a : α} (h : a ∉ l) :
    indexOf (l ++ a :: l') a = l.length := by
  rw [indexOf, if_pos (List.mem_append_right _ List.mem_cons_self),
    List.idxOf_append_of_notMem h, List.idxOf_cons_self, Nat.add_zero]

end

/-- `QString::mid`: up to the end if the length is negative. -/
def mid (text : QString) (position length : ℤ) : QString :=
  if length < 0 then text.drop position.toNat
  else (text.take (position + length).toNat).drop position.toNat

/-! ## Letter case -/

/-! ### The letters of ASCII -/

namespace Letter
variable {c : Char}

theorem isUpper_iff : c.isUpper = true ↔ 'A'.val ≤ c.val ∧ c.val ≤ 'Z'.val := decide_eq_true_iff

theorem isLower_iff : c.isLower = true ↔ 'a'.val ≤ c.val ∧ c.val ≤ 'z'.val :=
  Bool.and_eq_true_iff.trans (and_congr decide_eq_true_iff decide_eq_true_iff)

theorem isAlpha_eq_false : c.isAlpha = false ↔ ¬c.isUpper = true ∧ ¬c.isLower = true := by
  rw [← Bool.not_eq_true, ← not_or]
  exact not_congr Bool.or_eq_true_iff

theorem not_isUpper_of_isLower (h : c.isLower = true) : ¬c.isUpper = true := fun hupper =>
  absurd (UInt32.le_trans (isLower_iff.1 h).1 (isUpper_iff.1 hupper).2) (by decide)

theorem toLower_of_not_isUpper (h : ¬c.isUpper = true) : c.toLower = c :=
  dif_neg (mt isUpper_iff.2 h)

theorem toUpper_of_not_isLower (h : ¬c.isLower = true) : c.toUpper = c :=
  dif_neg (mt isLower_iff.2 h)

theorem isLower_toLower (h : c.isUpper = true) : c.toLower.isLower = true := by
  have hletters : ∀ n ∈ List.range' 65 26, (Char.ofNat n).toLower.isLower = true := by decide
  have hbounds := isUpper_iff.1 h
  have hletter := hletters c.toNat (List.mem_range'_1.2
    ⟨UInt32.le_iff_toNat_le.1 hbounds.1, Nat.lt_succ_of_le (UInt32.le_iff_toNat_le.1 hbounds.2)⟩)
  rwa [Char.ofNat_toNat] at hletter

theorem isUpper_toUpper (h : c.isLower = true) : c.toUpper.isUpper = true := by
  have hletters : ∀ n ∈ List.range' 97 26, (Char.ofNat n).toUpper.isUpper = true := by decide
  have hbounds := isLower_iff.1 h
  have hletter := hletters c.toNat (List.mem_range'_1.2
    ⟨UInt32.le_iff_toNat_le.1 hbounds.1, Nat.lt_succ_of_le (UInt32.le_iff_toNat_le.1 hbounds.2)⟩)
  rwa [Char.ofNat_toNat] at hletter

theorem toLower_toLower (c : Char) : c.toLower.toLower = c.toLower := by
  by_cases h : c.isUpper = true
  · exact toLower_of_not_isUpper (not_isUpper_of_isLower (isLower_toLower h))
  · rw [toLower_of_not_isUpper h, toLower_of_not_isUpper h]

/-- What a letter becomes is a letter. -/
theorem toLower_of_isAlpha_toLower (h : c.toLower.isAlpha = false) : c.toLower = c :=
  toLower_of_not_isUpper fun hupper => (isAlpha_eq_false.1 h).2 (isLower_toLower hupper)

theorem toUpper_of_isAlpha_toUpper (h : c.toUpper.isAlpha = false) : c.toUpper = c :=
  toUpper_of_not_isLower fun hlower => (isAlpha_eq_false.1 h).1 (isUpper_toUpper hlower)

end Letter

/-- What the characters become in lower and in upper case, from the tables of Unicode: those
    of ASCII as usual; what is in lower case stays; and nothing becomes an ASCII character
    other than a letter, unless it is one. -/
structure CaseTables where
  toLower : Char → QString
  toUpper : Char → QString
  toLower_ascii : ∀ c, c.val < 128 → toLower c = [c.toLower]
  toUpper_ascii : ∀ c, c.val < 128 → toUpper c = [c.toUpper]
  toLower_toLower : ∀ c, (toLower c).flatMap toLower = toLower c
  eq_of_mem_toLower : ∀ c, ∀ d ∈ toLower c, d.val < 128 → d.isAlpha = false → d = c
  eq_of_mem_toUpper : ∀ c, ∀ d ∈ toUpper c, d.val < 128 → d.isAlpha = false → d = c

namespace CaseTables

/-- Only the letters of ASCII have a letter case. -/
def ascii : CaseTables where
  toLower c := [c.toLower]
  toUpper c := [c.toUpper]
  toLower_ascii _ _ := rfl
  toUpper_ascii _ _ := rfl
  toLower_toLower c := congrArg (· :: []) (Letter.toLower_toLower c)
  eq_of_mem_toLower c d hd _ hletter := by
    rw [List.mem_singleton] at hd
    rw [hd] at hletter ⊢
    exact Letter.toLower_of_isAlpha_toLower hletter
  eq_of_mem_toUpper c d hd _ hletter := by
    rw [List.mem_singleton] at hd
    rw [hd] at hletter ⊢
    exact Letter.toUpper_of_isAlpha_toUpper hletter

variable (tables : CaseTables)

/-- `QString::toLower`. -/
def lower (text : QString) : QString := text.flatMap tables.toLower

/-- `QString::toUpper`. -/
def upper (text : QString) : QString := text.flatMap tables.toUpper

variable {tables} {text text' : QString}

@[simp] theorem lower_nil : tables.lower [] = [] := rfl

theorem lower_append : tables.lower (text ++ text') = tables.lower text ++ tables.lower text' :=
  List.flatMap_append

@[simp] theorem lower_lower (text : QString) :
    tables.lower (tables.lower text) = tables.lower text := by
  rw [lower, lower, List.flatMap_assoc]
  exact List.flatMap_congr fun c _ => tables.toLower_toLower c

/-- The characters of ASCII that are not letters have no letter case. -/
theorem toLower_of_not_letter {c : Char} (hascii : c.val < 128) (hletter : c.isAlpha = false) :
    tables.toLower c = [c] := by
  rw [tables.toLower_ascii c hascii,
    Letter.toLower_of_not_isUpper (Letter.isAlpha_eq_false.1 hletter).1]

theorem lower_of_ascii (h : ∀ c ∈ text, c.val < 128) :
    tables.lower text = text.map Char.toLower := by
  rw [List.map_eq_flatMap]
  exact List.flatMap_congr fun c hc => tables.toLower_ascii c (h c hc)

theorem ascii_of_toLower {c : Char} (h : c.toLower.val < 128) : c.val < 128 := by
  by_cases hupper : c.isUpper = true
  · exact UInt32.lt_of_le_of_lt (Letter.isUpper_iff.1 hupper).2 (by decide)
  · rwa [Letter.toLower_of_not_isUpper hupper] at h

/-- Texts of ASCII stay so in lower case. -/
theorem ascii_lower (h : ∀ c ∈ text, c.val < 128) : ∀ c ∈ tables.lower text, c.val < 128 := by
  have hchar : ∀ n < 128, (Char.ofNat n).toLower.val < 128 := by decide
  intro c hc
  obtain ⟨d, hd, hc⟩ := List.mem_flatMap.1 hc
  rw [tables.toLower_ascii d (h d hd), List.mem_singleton] at hc
  have hlower := hchar d.toNat (UInt32.lt_iff_toNat_lt.1 (h d hd))
  rwa [Char.ofNat_toNat, ← hc] at hlower

theorem lower_infix (tables : CaseTables) (h : text <:+: text') :
    tables.lower text <:+: tables.lower text' := by
  obtain ⟨s, t, rfl⟩ := h
  exact ⟨tables.lower s, tables.lower t, by rw [lower_append, lower_append]⟩

/-- A text has the same components in lower case, between such characters. -/
theorem splitOn_lower {c : Char} (hascii : c.val < 128) (hletter : c.isAlpha = false) :
    (tables.lower text).splitOn c = (text.splitOn c).map tables.lower :=
  Path.splitOn_flatMap (toLower_of_not_letter hascii hletter) (fun d hd hc =>
    hd (tables.eq_of_mem_toLower d c hc hascii hletter).symm) text

/-- A text has as many of such characters in lower case. -/
theorem count_lower {c : Char} (hascii : c.val < 128) (hletter : c.isAlpha = false) :
    (tables.lower text).count c = text.count c := by
  induction text with
  | nil => rfl
  | cons d text ih =>
    rw [← List.singleton_append, lower_append, List.count_append, List.count_append, ih]
    congr 1
    rw [lower, List.flatMap_singleton]
    by_cases hd : d = c
    · rw [hd, toLower_of_not_letter hascii hletter]
    · rw [List.count_eq_zero_of_not_mem, List.count_eq_zero_of_not_mem]
      · rw [List.mem_singleton]
        exact Ne.symm hd
      · exact fun hc => hd (tables.eq_of_mem_toLower d c hc hascii hletter).symm

theorem mem_lower {c : Char} (hascii : c.val < 128) (hletter : c.isAlpha = false) :
    c ∈ tables.lower text ↔ c ∈ text := by
  rw [← List.count_pos_iff, count_lower hascii hletter, List.count_pos_iff]

theorem toUpper_of_not_letter {c : Char} (hascii : c.val < 128) (hletter : c.isAlpha = false) :
    tables.toUpper c = [c] := by
  rw [tables.toUpper_ascii c hascii,
    Letter.toUpper_of_not_isLower (Letter.isAlpha_eq_false.1 hletter).2]

/-- A text has as many of such characters in upper case. -/
theorem count_upper {c : Char} (hascii : c.val < 128) (hletter : c.isAlpha = false) :
    (tables.upper text).count c = text.count c := by
  induction text with
  | nil => rfl
  | cons d text ih =>
    rw [← List.singleton_append, upper, List.flatMap_append, List.count_append, List.count_append]
    congr 1
    rw [List.flatMap_singleton]
    by_cases hd : d = c
    · rw [hd, toUpper_of_not_letter hascii hletter]
    · rw [List.count_eq_zero_of_not_mem, List.count_eq_zero_of_not_mem]
      · rw [List.mem_singleton]
        exact Ne.symm hd
      · exact fun hc => hd (tables.eq_of_mem_toUpper d c hc hascii hletter).symm

/-- Upper case is undone for texts of ASCII. -/
theorem lower_upper_of_ascii (h : ∀ c ∈ text, c.val < 128) :
    tables.lower (tables.upper text) = tables.lower text := by
  have hchar : ∀ n < 128, (Char.ofNat n).toUpper.val < 128 ∧
      (Char.ofNat n).toUpper.toLower = (Char.ofNat n).toLower := by decide
  rw [lower, upper, List.flatMap_assoc]
  refine List.flatMap_congr fun c hc => ?_
  obtain ⟨hupper, hlower⟩ := hchar c.toNat (UInt32.lt_iff_toNat_lt.1 (h c hc))
  rw [Char.ofNat_toNat] at hupper hlower
  rw [tables.toUpper_ascii c (h c hc), List.flatMap_singleton, tables.toLower_ascii _ hupper,
    tables.toLower_ascii c (h c hc), hlower]

/-- Upper case of what is in lower case, for texts of ASCII. -/
theorem upper_lower_of_ascii (h : ∀ c ∈ text, c.val < 128) :
    tables.upper (tables.lower text) = text.map fun c => c.toLower.toUpper := by
  rw [upper, lower, List.flatMap_assoc, List.map_eq_flatMap]
  refine List.flatMap_congr fun c hc => ?_
  have hlower : ∀ d ∈ tables.lower [c], d.val < 128 :=
    ascii_lower fun d hd => List.mem_singleton.1 hd ▸ h c hc
  rw [lower, List.flatMap_singleton, tables.toLower_ascii c (h c hc)] at hlower
  rw [tables.toLower_ascii c (h c hc), List.flatMap_singleton,
    tables.toUpper_ascii _ (hlower _ (List.mem_singleton_self _))]

end CaseTables

/-! ## Numbers -/

/-- The number a text of digits stands for. -/
def digits (text : QString) : Option ℕ :=
  if text ≠ [] ∧ text.all Char.isDigit then some (Nat.ofDigitChars 10 text 0) else none

/-- The number a text of digits stands for, with a sign before them or none. -/
def signedDigits : QString → Option ℤ
  | '-' :: text => (digits text).map fun n : ℕ => -(n : ℤ)
  | '+' :: text => (digits text).map fun n : ℕ => (n : ℤ)
  | text => (digits text).map fun n : ℕ => (n : ℤ)

/-- `QChar::isSpace`: the blanks of ASCII, those of Latin-1, and the separators of Unicode. -/
def isSpace (c : Char) : Bool :=
  c.toNat = 0x20 ∨ 0x09 ≤ c.toNat ∧ c.toNat ≤ 0x0d ∨ 0x2000 ≤ c.toNat ∧ c.toNat ≤ 0x200a ∨
    c.toNat ∈ [0x85, 0xa0, 0x1680, 0x2028, 0x2029, 0x202f, 0x205f, 0x3000]

/-- `QString::trimmed`. -/
def trimmed (text : QString) : QString :=
  ((text.dropWhile isSpace).reverse.dropWhile isSpace).reverse

/-- The number of so many bits that a text stands for, or zero if it stands for none. -/
def toInteger (bits : ℕ) (text : QString) : ℤ :=
  match signedDigits (trimmed text) with
  | some n => if -2 ^ (bits - 1) ≤ n ∧ n < 2 ^ (bits - 1) then n else 0
  | none => 0

/-- `QString::toInt`. -/
def toInt (text : QString) : ℤ := toInteger 32 text

/-- `QString::toLongLong`. -/
def toLongLong (text : QString) : ℤ := toInteger 64 text

/-- `QString::number`, and `QByteArray::number`. -/
def number (n : ℤ) : QString :=
  if n < 0 then '-' :: Nat.toDigits 10 n.natAbs else Nat.toDigits 10 n.natAbs

theorem isDigit_of_mem_toDigits {n : ℕ} {c : Char} (h : c ∈ Nat.toDigits 10 n) :
    c.isDigit = true :=
  Nat.isDigit_of_mem_toDigits (by decide) le_rfl h

theorem digits_toDigits (n : ℕ) : digits (Nat.toDigits 10 n) = some n := by
  rw [digits, if_pos ⟨Nat.toDigits_ne_nil, List.all_eq_true.2 fun c h => isDigit_of_mem_toDigits h⟩,
    Nat.ofDigitChars_ten_toDigits]

theorem trimmed_sublist {text : QString} : (trimmed text).Sublist text := by
  rw [trimmed, ← List.reverse_sublist, List.reverse_reverse]
  exact (List.dropWhile_sublist _).trans (List.reverse_sublist.2 (List.dropWhile_sublist _))

/-- A text without blanks is not trimmed. -/
theorem trimmed_of_all {text : QString} (h : ∀ c ∈ text, isSpace c = false) :
    trimmed text = text := by
  have hdrop : ∀ text : QString, (∀ c ∈ text, isSpace c = false) →
      text.dropWhile isSpace = text := by
    intro text h
    cases text with
    | nil => rfl
    | cons c cs => exact List.dropWhile_cons_of_neg (by rw [h c List.mem_cons_self]; exact nofun)
  rw [trimmed, hdrop text h, hdrop _ fun c hc => h c (List.mem_reverse.1 hc), List.reverse_reverse]

theorem isSpace_of_isDigit {c : Char} (h : c.isDigit = true) : isSpace c = false := by
  rw [Char.isDigit, Bool.and_eq_true, decide_eq_true_iff, decide_eq_true_iff, ge_iff_le,
    UInt32.le_iff_toNat_le, UInt32.le_iff_toNat_le] at h
  have hlow : 48 ≤ c.toNat := h.1
  have hhigh : c.toNat ≤ 57 := h.2
  rw [isSpace, decide_eq_false_iff_not]
  simp only [List.mem_cons, List.not_mem_nil, or_false]
  omega

theorem signedDigits_of_all {text : QString} (h : ∀ c ∈ text, c.isDigit = true) :
    signedDigits text = (digits text).map fun n : ℕ => (n : ℤ) := by
  unfold signedDigits
  split
  · exact absurd (h '-' List.mem_cons_self) (by decide)
  · exact absurd (h '+' List.mem_cons_self) (by decide)
  · rfl

/-- A text of digits is read as the number they stand for, if it has so many bits. -/
theorem toInteger_of_digits {bits n : ℕ} {text : QString} (h : digits text = some n) :
    toInteger bits text = if (n : ℤ) < 2 ^ (bits - 1) then (n : ℤ) else 0 := by
  have hall : ∀ c ∈ text, c.isDigit = true := by
    rw [digits] at h
    split_ifs at h with hd
    exact List.all_eq_true.1 hd.2
  have hpow : (0 : ℤ) ≤ 2 ^ (bits - 1) := Int.pow_nonneg (by decide)
  rw [toInteger, trimmed_of_all fun c hc => isSpace_of_isDigit (hall c hc),
    signedDigits_of_all hall, h, Option.map_some]
  exact if_congr (and_iff_right (by omega)) rfl rfl

theorem mem_number {n : ℤ} {c : Char} (h : c ∈ number n) : c = '-' ∨ c.isDigit = true := by
  rw [number] at h
  split_ifs at h
  · exact (List.mem_cons.1 h).imp_right isDigit_of_mem_toDigits
  · exact .inr (isDigit_of_mem_toDigits h)

/-- A number of so many bits that is written is read again. -/
theorem toInteger_number {bits : ℕ} {n : ℤ} (hmin : -2 ^ (bits - 1) ≤ n)
    (hmax : n < 2 ^ (bits - 1)) : toInteger bits (number n) = n := by
  by_cases hn : n < 0
  · have hblank : ∀ c ∈ number n, isSpace c = false := by
      rw [number, if_pos hn]
      intro c hc
      rcases List.mem_cons.1 hc with rfl | hc
      · rfl
      · exact isSpace_of_isDigit (isDigit_of_mem_toDigits hc)
    rw [toInteger, trimmed_of_all hblank, number, if_pos hn, signedDigits, digits_toDigits,
      Option.map_some]
    have habs : -(n.natAbs : ℤ) = n := by omega
    rw [habs]
    exact if_pos ⟨hmin, hmax⟩
  · have habs : (n.natAbs : ℤ) = n := by omega
    rw [number, if_neg hn, toInteger_of_digits (digits_toDigits _), habs, if_pos hmax]

end Admc
