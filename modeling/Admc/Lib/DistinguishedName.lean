import Admc.Lib.Path

/-!
# Distinguished names

Distinguished names (DN) as texts, in the grammar of RFC 4514: a sequence of
relative names (RDN) between commas, each of them one attribute or several with
"+" between them, an attribute being a type, "=" and a value. In a value, the
characters that separate names are escaped, by a backslash before them or as the
hexadecimal digits of their bytes.

The syntax is given by what the texts are made of (`Rdn`), with the conditions of
the grammar as fields, so that every DN is valid.
-/

namespace Dn

/-! ## Values -/

/-- The characters that are escaped everywhere in a value. -/
def escapedChars : List Char := ['"', '+', ',', ';', '<', '>']

/-- The characters that may stand for themselves. -/
def IsPlain (c : Char) : Prop := c ∉ '\x00' :: '\\' :: escapedChars

/-- The characters that may follow a backslash. -/
def IsSpecial (c : Char) : Prop := c ∈ '\\' :: ' ' :: '#' :: '=' :: escapedChars

/-- The digits of bytes. -/
def IsHexDigit (c : Char) : Prop := c ∈ "0123456789abcdefABCDEF".toList

instance : DecidablePred IsPlain := fun c => inferInstanceAs (Decidable (c ∉ _))
instance : DecidablePred IsSpecial := fun c => inferInstanceAs (Decidable (c ∈ _))
instance : DecidablePred IsHexDigit := fun c => inferInstanceAs (Decidable (c ∈ _))

/-- A character or a byte of a value, as it is written. -/
inductive Item
  | plain (c : Char) (h : IsPlain c)
  | pair (c : Char) (h : IsSpecial c)
  | hexpair (d d' : Char) (h : IsHexDigit d) (h' : IsHexDigit d')

namespace Item

/-- The text of an item. -/
def text : Item → List Char
  | plain c _ => [c]
  | pair c _ => ['\\', c]
  | hexpair d d' _ _ => ['\\', d, d']

/-- The character of an item that is not escaped. -/
def plain? : Item → Option Char
  | plain c _ => some c
  | _ => none

end Item

/-- The value of an attribute: a string, which does not start with a blank or "#" or end with
    a blank, unless they are escaped; or the bytes of an encoding. -/
inductive Value
  | string (items : List Item)
      (first : ∀ c, items.head?.bind Item.plain? = some c → c ≠ ' ' ∧ c ≠ '#')
      (last : ∀ c, items.getLast?.bind Item.plain? = some c → c ≠ ' ')
  | hexstring (digits : List (Char × Char)) (ne_nil : digits ≠ [])
      (valid : ∀ d ∈ digits, IsHexDigit d.1 ∧ IsHexDigit d.2)

/-- The value of a hexadecimal digit. -/
def hexDigit (d : Char) : ℕ :=
  if d.isDigit then d.toNat - '0'.toNat else d.toLower.toNat - 'a'.toNat + 10

/-- The bytes that an item stands for, in UTF-8. -/
def Item.bytes : Item → List UInt8
  | plain c _ => String.utf8EncodeChar c
  | pair c _ => String.utf8EncodeChar c
  | hexpair d d' _ _ => [UInt8.ofNat (16 * hexDigit d + hexDigit d')]

/-- The text of a value. -/
def Value.text : Value → List Char
  | string items _ _ => items.flatMap Item.text
  | hexstring digits _ _ => '#' :: digits.flatMap fun d => [d.1, d.2]

/-! ## Attributes -/

/-- A short name of a type. -/
def IsDescr (text : List Char) : Prop :=
  ∃ c cs, text = c :: cs ∧ c.isAlpha = true ∧ ∀ d ∈ cs, d.isAlphanum = true ∨ d = '-'

/-- A number without leading zeros. -/
def IsNumber (text : List Char) : Prop :=
  text = ['0'] ∨ ∃ d ds, text = d :: ds ∧ d ≠ '0' ∧ ∀ d' ∈ d :: ds, d'.isDigit = true

/-- The object identifier of a type. -/
def IsNumericOid (text : List Char) : Prop :=
  2 ≤ (text.splitOn '.').length ∧ ∀ number ∈ text.splitOn '.', IsNumber number

/-- The type of an attribute. -/
structure AttributeType where
  text : List Char
  valid : IsDescr text ∨ IsNumericOid text

/-- The type of common names. -/
def AttributeType.cn : AttributeType :=
  ⟨"CN".toList, .inl ⟨'C', ['N'], rfl, rfl, List.forall_mem_singleton.2 (by decide)⟩⟩

/-- The type of the components of domain names. -/
def AttributeType.dc : AttributeType :=
  ⟨"DC".toList, .inl ⟨'D', ['C'], rfl, rfl, List.forall_mem_singleton.2 (by decide)⟩⟩

/-- The characters of types. -/
theorem AttributeType.mem_text (type : AttributeType) {c : Char} (h : c ∈ type.text) :
    c.isAlphanum = true ∨ c = '-' ∨ c = '.' := by
  rcases type.valid with ⟨d, ds, htext, hd, hds⟩ | ⟨-, hnumbers⟩
  · rw [htext] at h
    rcases List.mem_cons.1 h with rfl | h
    · exact .inl (by rw [Char.isAlphanum, hd, Bool.true_or])
    · exact (hds c h).imp_right .inl
  · by_cases hc : c = '.'
    · exact .inr (.inr hc)
    · obtain ⟨number, hmem, hc⟩ := Path.exists_mem_splitOn h hc
      rcases hnumbers number hmem with rfl | ⟨d, ds, rfl, -, hdigits⟩
      · rw [List.mem_singleton] at hc
        exact .inl (hc ▸ rfl)
      · exact .inl (by rw [Char.isAlphanum, hdigits c hc, Bool.or_true])

/-- Types have none of the other characters of ASCII. -/
theorem AttributeType.not_mem_text (type : AttributeType) {c : Char}
    (hc : c.isAlphanum = false) (hminus : c ≠ '-') (hdot : c ≠ '.') : c ∉ type.text := by
  intro h
  rcases type.mem_text h with h | h | h
  · exact absurd (hc.symm.trans h) nofun
  · exact hminus h
  · exact hdot h

/-- An attribute with its value. -/
structure Attribute where
  type : AttributeType
  value : Value

/-- The text of an attribute. -/
def Attribute.text (attr : Attribute) : List Char := attr.type.text ++ '=' :: attr.value.text

/-! ## Names -/

/-- A relative name. -/
structure Rdn where
  attributes : List Attribute
  ne_nil : attributes ≠ []

/-- The text of a relative name. -/
def Rdn.text (rdn : Rdn) : List Char := ['+'].intercalate (rdn.attributes.map Attribute.text)

/-- The relative name of one attribute. -/
def Rdn.single (type : AttributeType) (value : Value) : Rdn where
  attributes := [⟨type, value⟩]
  ne_nil := List.cons_ne_nil _ _

/-- The text of a DN. -/
def text (rdns : List Rdn) : List Char := [','].intercalate (rdns.map Rdn.text)

@[simp] theorem text_nil : text [] = [] := rfl

theorem text_cons {first : Rdn} {rest : List Rdn} :
    text (first :: rest) = if rest = [] then first.text else first.text ++ ',' :: text rest := by
  cases rest with
  | nil => simp [text, List.intercalate]
  | cons second rest =>
    rw [if_neg (List.cons_ne_nil _ _), text, List.map_cons, List.map_cons,
      Path.intercalate_cons_cons]
    rfl

/-- A relative name starts with the type of its first attribute, and "=". -/
theorem Rdn.exists_text (rdn : Rdn) :
    ∃ (type : AttributeType) (value : List Char), rdn.text = type.text ++ '=' :: value := by
  obtain ⟨attr, attributes, h⟩ := List.exists_cons_of_ne_nil rdn.ne_nil
  cases attributes with
  | nil => exact ⟨attr.type, attr.value.text, by simp [Rdn.text, h, List.intercalate, Attribute.text]⟩
  | cons attr' attributes =>
    refine ⟨attr.type, attr.value.text ++
      '+' :: ['+'].intercalate ((attr' :: attributes).map Attribute.text), ?_⟩
    rw [Rdn.text, h, List.map_cons, List.map_cons, Path.intercalate_cons_cons, Attribute.text,
      List.append_assoc, List.cons_append]

/-- The text after the first type of a relative name. -/
def Rdn.valueText (rdn : Rdn) : List Char := (rdn.text.dropWhile (· ≠ '=')).tail

/-- What the only value of a relative name is made of, if it is a string. -/
def Rdn.items? (rdn : Rdn) : Option (List Item) :=
  match rdn.attributes with
  | [⟨_, .string items _ _⟩] => some items
  | _ => none

/-- The name that a relative name gives, in UTF-8: the string that is its only value. -/
def Rdn.name? (rdn : Rdn) : Option (List UInt8) :=
  rdn.items?.map fun items => items.flatMap Item.bytes

theorem Rdn.text_of_items? {rdn : Rdn} {items : List Item} (h : rdn.items? = some items) :
    ∃ type : AttributeType, rdn.text = type.text ++ '=' :: items.flatMap Item.text := by
  rw [Rdn.items?] at h
  split at h
  · rename_i type items' first last hattributes
    obtain rfl := Option.some.inj h
    refine ⟨type, ?_⟩
    rw [Rdn.text, hattributes, List.map_singleton, List.intercalate_singleton]
    rfl
  · exact absurd h nofun

theorem Rdn.text_ne_nil (rdn : Rdn) : rdn.text ≠ [] := by
  obtain ⟨type, value, h⟩ := rdn.exists_text
  rw [h]
  exact List.append_ne_nil_of_right_ne_nil _ (List.cons_ne_nil _ _)

/-! ## Where names end -/

/-- Whether the next character is escaped after a text, from whether its first one is; none if
    a comma in the text, which is not escaped, ends the name. -/
def escapedAfter : Bool → List Char → Option Bool
  | escaped, [] => some escaped
  | true, _ :: cs => escapedAfter false cs
  | false, c :: cs => if c = ',' then none else escapedAfter (c = '\\') cs

theorem escapedAfter_append {escaped : Bool} {s t : List Char} :
    escapedAfter escaped (s ++ t) =
      (escapedAfter escaped s).bind fun escaped => escapedAfter escaped t := by
  induction s generalizing escaped with
  | nil => rfl
  | cons c s ih =>
    cases escaped with
    | true => exact ih
    | false =>
      rw [List.cons_append, escapedAfter, escapedAfter]
      split_ifs
      · rfl
      · exact ih

theorem escapedAfter_of_not_mem {t : List Char} (h : ',' ∉ t ∧ '\\' ∉ t) :
    escapedAfter false t = some false := by
  induction t with
  | nil => rfl
  | cons c t ih =>
    rw [List.mem_cons, List.mem_cons, not_or, not_or] at h
    rw [escapedAfter, if_neg (Ne.symm h.1.1), decide_eq_false (Ne.symm h.2.1)]
    exact ih ⟨h.1.2, h.2.2⟩

/-- A text is closed if no name ends in it, and none of what follows is escaped by it. -/
def Closed (t : List Char) : Prop := escapedAfter false t = some false

instance : DecidablePred Closed := fun t =>
  inferInstanceAs (Decidable (escapedAfter false t = some false))

theorem Closed.escapedAfter_append {s t : List Char} (h : Closed s) :
    escapedAfter false (s ++ t) = escapedAfter false t := by
  rw [Dn.escapedAfter_append, h]
  rfl

theorem Closed.append {s t : List Char} (hs : Closed s) (ht : Closed t) : Closed (s ++ t) :=
  hs.escapedAfter_append.trans ht

theorem closed_flatMap {α : Type*} {f : α → List Char} {l : List α}
    (h : ∀ a ∈ l, Closed (f a)) : Closed (l.flatMap f) := by
  induction l with
  | nil => rfl
  | cons a l ih =>
    rw [List.forall_mem_cons] at h
    exact h.1.append (ih h.2)

theorem closed_intercalate {sep : Char} (hsep : Closed [sep]) {l : List (List Char)}
    (h : ∀ t ∈ l, Closed t) : Closed ([sep].intercalate l) := by
  match l with
  | [] => rfl
  | [t] => exact List.intercalate_singleton ▸ h t List.mem_cons_self
  | t :: t' :: l =>
    rw [List.forall_mem_cons] at h
    rw [Path.intercalate_cons_cons]
    exact h.1.append (Closed.append hsep (closed_intercalate hsep h.2))

theorem IsHexDigit.ne {c : Char} (h : IsHexDigit c) : c ≠ ',' ∧ c ≠ '\\' ∧ c ≠ '?' := by
  refine ⟨?_, ?_, ?_⟩ <;> rintro rfl <;> exact absurd h (by decide)

theorem IsPlain.ne {c : Char} (h : IsPlain c) : c ≠ ',' ∧ c ≠ '\\' := by
  constructor <;> rintro rfl <;> exact absurd h (by decide)

theorem Item.closed_text (item : Item) : Closed item.text := by
  cases item with
  | plain c h =>
    exact escapedAfter_of_not_mem (by
      simp only [text, List.mem_singleton]
      exact ⟨h.ne.1.symm, h.ne.2.symm⟩)
  | pair c h => rfl
  | hexpair d d' h h' =>
    have hclosed : Closed [d'] := escapedAfter_of_not_mem (by
      simp only [List.mem_singleton]
      exact ⟨h'.ne.1.symm, h'.ne.2.1.symm⟩)
    exact hclosed

theorem Value.closed_text (value : Value) : Closed value.text := by
  cases value with
  | string items first last => exact closed_flatMap fun item _ => item.closed_text
  | hexstring digits ne_nil valid =>
    refine Closed.append (s := ['#']) rfl (closed_flatMap fun d hd => escapedAfter_of_not_mem ?_)
    obtain ⟨hfirst, hsecond⟩ := valid d hd
    simp only [List.mem_cons, List.not_mem_nil, or_false, not_or]
    exact ⟨⟨hfirst.ne.1.symm, hsecond.ne.1.symm⟩, hfirst.ne.2.1.symm, hsecond.ne.2.1.symm⟩

theorem AttributeType.closed_text (type : AttributeType) : Closed type.text :=
  escapedAfter_of_not_mem ⟨type.not_mem_text (by decide) (by decide) (by decide),
    type.not_mem_text (by decide) (by decide) (by decide)⟩

/-- A relative name goes on to its end. -/
theorem Rdn.closed_text (rdn : Rdn) : Closed rdn.text := by
  have hplus : Closed ['+'] := rfl
  refine closed_intercalate hplus fun t ht => ?_
  obtain ⟨attr, -, rfl⟩ := List.mem_map.1 ht
  exact attr.type.closed_text.append (Closed.append (s := ['=']) rfl attr.value.closed_text)

end Dn
