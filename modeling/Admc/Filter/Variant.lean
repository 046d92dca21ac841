import Admc.Query.Storage

/-!
# The states of widgets

The widgets of filters save their states as variants, which are nests of hashes under the names of
what is in them. A state may also come from a file, and then it is any variant at all.

Filters that are typed in, or shown, are in edits of several lines: these change some characters of
the texts that are put into them (`plainText_eq_iff`).
-/

namespace Admc

/-! ## Variants -/

/-- A `QVariant` that a widget saves, or that is read from a file. -/
inductive StateVariant
  | invalid
  | bool (value : Bool)
  | int (value : ℤ)
  | string (text : QString)
  | stringList (texts : List QString)
  | list (values : List StateVariant)
  | hash (entries : List (String × StateVariant))
  /-- Another value, with what it is converted to. -/
  | other (number : ℤ) (truth : Bool) (text : QString) (texts : List QString)
      (values : List StateVariant) (entries : List (String × StateVariant))

namespace StateVariant

/-- `QVariant::toBool`. -/
def toBool : StateVariant → Bool
  | bool value => value
  | int value => value ≠ 0
  | string text => QVariant.isTrueText text
  | other _ truth _ _ _ _ => truth
  | _ => false

/-- `QVariant::toInt`: a text is read as a number of 64 bits, of which 32 bits stay. -/
def toInt : StateVariant → ℤ
  | bool value => value.toNat
  | int value => value
  | string text => (toLongLong text).bmod (2 ^ 32)
  | other number _ _ _ _ _ => number
  | _ => 0

/-- `QVariant::toString`. -/
def toString : StateVariant → QString
  | bool true => "true".toList
  | bool false => "false".toList
  | int value => number value
  | string text => text
  | stringList [text] => text
  | other _ _ text _ _ _ => text
  | _ => []

/-- `QVariant::toStringList`. -/
def toStringList : StateVariant → List QString
  | string text => [text]
  | stringList texts => texts
  | list values => values.map toString
  | other _ _ _ texts _ _ => texts
  | _ => []

/-- `QVariant::toList`. -/
def toList : StateVariant → List StateVariant
  | stringList texts => texts.map string
  | list values => values
  | other _ _ _ _ values _ => values
  | _ => []

/-- `QVariant::toHash`. -/
def toHash : StateVariant → QHash String StateVariant
  | hash entries => entries
  | other _ _ _ _ _ entries => entries
  | _ => []

/-- What a hash of states has under a name, which is invalid if there is nothing. -/
def field (state : QHash String StateVariant) (name : String) : StateVariant :=
  state.value name invalid

end StateVariant

/-! ## Edits of several lines -/

/-- What a document makes of a character: the ends of lines and paragraphs, and of frames, are line
    feeds, and a no-break space is a space. -/
def plainChar (c : Char) : Char :=
  if c.toNat ∈ [0x0d, 0x2028, 0x2029, 0xfdd0, 0xfdd1] then '\n'
  else if c.toNat = 0xa0 then ' ' else c

/-- `setPlainText`, and then `toPlainText`. -/
def plainText : QString → QString
  | [] => []
  | '\r' :: '\n' :: text => '\n' :: plainText text
  | c :: text => plainChar c :: plainText text

theorem plainChar_plainChar (c : Char) : plainChar (plainChar c) = plainChar c := by
  by_cases hend : c.toNat ∈ [0x0d, 0x2028, 0x2029, 0xfdd0, 0xfdd1]
  · have hplain : plainChar c = '\n' := if_pos hend
    rw [hplain]
    rfl
  by_cases hspace : c.toNat = 0xa0
  · have hplain : plainChar c = ' ' := (if_neg hend).trans (if_pos hspace)
    rw [hplain]
    rfl
  · have hplain : plainChar c = c := (if_neg hend).trans (if_neg hspace)
    rw [hplain, hplain]

/-- Exactly the texts without such characters are kept. -/
theorem plainText_eq_iff {text : QString} :
    plainText text = text ↔ ∀ c ∈ text, plainChar c = c := by
  fun_induction plainText text with
  | case1 => exact iff_of_true rfl nofun
  | case2 text ih =>
    refine iff_of_false (fun h => ?_) fun h => ?_
    · exact absurd (List.head_eq_of_cons_eq h) (by decide)
    · exact absurd (h '\r' List.mem_cons_self) (by decide)
  | case3 c text hne ih =>
    rw [List.cons_eq_cons, ih, List.forall_mem_cons]

theorem plainText_plainText (text : QString) : plainText (plainText text) = plainText text := by
  rw [plainText_eq_iff]
  fun_induction plainText text with
  | case1 => exact nofun
  | case2 text ih => exact List.forall_mem_cons.2 ⟨rfl, ih⟩
  | case3 c text hne ih => exact List.forall_mem_cons.2 ⟨plainChar_plainChar c, ih⟩

/-- The text of a `QPlainTextEdit`, or of a `QTextEdit`. -/
@[ext]
structure QTextEdit where
  text : QString
  plain : plainText text = text

namespace QTextEdit

/-- `QTextEdit::setPlainText`. -/
def setPlainText (text : QString) : QTextEdit := ⟨plainText text, plainText_plainText text⟩

/-- A text that has been in an edit is kept. -/
theorem setPlainText_text (edit : QTextEdit) : setPlainText edit.text = edit :=
  QTextEdit.ext edit.plain

end QTextEdit

end Admc
