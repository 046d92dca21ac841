import Admc.Lib.DistinguishedName
import Mathlib.Data.Bool.AllAny
import Mathlib.Data.List.Forall2

/-!
# Search filters

The string representation of search filters of LDAP, and what filters mean. Bytes of a value
are written as characters, or as a backslash and two hexadecimal digits; parentheses,
asterisks, backslashes and NUL are always written so.

* `SearchFilter.spells_inj`: a text is the representation of one filter at most, and so are
  the parts of a text that is made of filters.
* `Encodes.of_plain` and `Encodes.length_le`: values without such characters stand for
  themselves, and others do not.
-/

namespace SearchFilter

/-! ## Values -/

/-- Characters that are part of the syntax. -/
def IsSyntax (c : Char) : Prop := c = '\x00' ∨ c = '(' ∨ c = ')' ∨ c = '*' ∨ c = '\\'

instance decidableIsSyntax (c : Char) : Decidable (IsSyntax c) :=
  inferInstanceAs (Decidable (c = '\x00' ∨ c = '(' ∨ c = ')' ∨ c = '*' ∨ c = '\\'))

/-- The text of a value stands for bytes: characters for their bytes in UTF-8. -/
inductive Encodes : List Char → List UInt8 → Prop
  | nil : Encodes [] []
  | plain {c : Char} {text : List Char} {bytes : List UInt8} (hc : ¬IsSyntax c)
    (h : Encodes text bytes) : Encodes (c :: text) (String.utf8EncodeChar c ++ bytes)
  | hexpair {d d' : Char} {text : List Char} {bytes : List UInt8} (hd : Dn.IsHexDigit d)
    (hd' : Dn.IsHexDigit d') (h : Encodes text bytes) : Encodes ('\\' :: d :: d' :: text)
      (UInt8.ofNat (16 * Dn.hexDigit d + Dn.hexDigit d') :: bytes)

/-- The bytes of a text in UTF-8. -/
def textBytes (text : List Char) : List UInt8 := text.flatMap String.utf8EncodeChar

namespace Encodes

variable {text text' : List Char} {bytes bytes' : List UInt8}

/-- A text stands for one value. -/
theorem unique (h : Encodes text bytes) (h' : Encodes text bytes') : bytes = bytes' := by
  induction h generalizing bytes' with
  | nil => cases h' with | nil => rfl
  | plain hc h ih =>
    cases h' with
    | plain _ h' => rw [ih h']
    | hexpair => exact absurd (by decide) hc
  | hexpair hd hd' h ih =>
    cases h' with
    | plain hc => exact absurd (by decide) hc
    | hexpair _ _ h' => rw [ih h']

/-- Characters that are not part of the syntax stand for themselves. -/
theorem of_plain (h : ∀ c ∈ text, ¬IsSyntax c) : Encodes text (textBytes text) := by
  induction text with
  | nil => exact nil
  | cons c text ih =>
    rw [List.forall_mem_cons] at h
    exact plain h.1 (ih h.2)

theorem not_isSyntax_of_isHexDigit {c : Char} (h : Dn.IsHexDigit c) : ¬IsSyntax c := by
  have hall : ∀ d ∈ "0123456789abcdefABCDEF".toList, ¬IsSyntax d :=
    List.all_iff_forall_prop.1 (by decide)
  exact hall c h

/-- Of the characters of the syntax, the text of a value has backslashes only. -/
theorem not_isSyntax (h : Encodes text bytes) : ∀ c ∈ text, c ≠ '\\' → ¬IsSyntax c := by
  induction h with
  | nil => exact fun c hc => absurd hc List.not_mem_nil
  | plain hc h ih => exact List.forall_mem_cons.2 ⟨fun _ => hc, ih⟩
  | hexpair hd hd' h ih =>
    refine List.forall_mem_cons.2 ⟨fun hne => absurd rfl hne, ?_⟩
    exact List.forall_mem_cons.2 ⟨fun _ => not_isSyntax_of_isHexDigit hd,
      List.forall_mem_cons.2 ⟨fun _ => not_isSyntax_of_isHexDigit hd', ih⟩⟩

theorem append (h : Encodes text bytes) (h' : Encodes text' bytes') :
    Encodes (text ++ text') (bytes ++ bytes') := by
  induction h with
  | nil => exact h'
  | plain hc h ih =>
    rw [List.append_assoc]
    exact plain hc ih
  | hexpair hd hd' h ih => exact hexpair hd hd' ih

/-- A value is not longer than its text, and shorter if there is a backslash. -/
theorem length_le (h : Encodes text bytes) : bytes.length ≤ (textBytes text).length ∧
    ('\\' ∈ text → bytes.length < (textBytes text).length) := by
  have hpos : ∀ c : Char, 1 ≤ (String.utf8EncodeChar c).length := fun c => by
    rw [String.length_utf8EncodeChar]
    exact Char.utf8Size_pos c
  induction h with
  | nil => exact ⟨le_rfl, fun h => absurd h List.not_mem_nil⟩
  | @plain c text bytes hc h ih =>
    have hne : '\\' ≠ c := fun heq => hc (heq ▸ by decide)
    simp only [textBytes, List.flatMap_cons, List.length_append, List.mem_cons, hne, false_or]
      at ih ⊢
    exact ⟨by omega, fun hmem => by have := ih.2 hmem; omega⟩
  | @hexpair d d' text bytes hd hd' h ih =>
    have hlength := hpos d
    have hlength' := hpos d'
    have hbackslash := hpos '\\'
    simp only [textBytes, List.flatMap_cons, List.length_append, List.length_cons] at ih ⊢
    exact ⟨by omega, fun _ => by omega⟩

theorem exists_encodes_of_mem {pieces : List (List Char)} {values : List (List UInt8)}
    (h : pieces.Forall₂ Encodes values) (hmem : text ∈ pieces) : ∃ bytes, Encodes text bytes := by
  induction h with
  | nil => exact absurd hmem List.not_mem_nil
  | cons hencodes h ih =>
    rcases List.mem_cons.1 hmem with rfl | hmem
    · exact ⟨_, hencodes⟩
    · exact ih hmem

end Encodes

/-! ## Filters -/

/-- The characters of the description of an attribute. -/
def IsKeyChar (c : Char) : Prop := c.isAlphanum = true ∨ c = '-'

instance decidableIsKeyChar (c : Char) : Decidable (IsKeyChar c) :=
  inferInstanceAs (Decidable (c.isAlphanum = true ∨ c = '-'))

/-- The description of an attribute: its type, and options after semicolons. -/
structure AttributeDescription where
  text : List Char
  valid : ∃ (type : Dn.AttributeType) (options : List (List Char)),
    (∀ option ∈ options, option ≠ [] ∧ ∀ c ∈ option, IsKeyChar c) ∧
      text = type.text ++ options.flatMap (';' :: ·)

/-- A matching rule, which is not taken for the tag of the attributes of a DN. -/
structure MatchingRule where
  oid : Dn.AttributeType
  ne_dn : oid.text ≠ "dn".toList

/-- Comparisons other than for equality. -/
inductive Comparison
  | approx
  | greaterOrEqual
  | lessOrEqual
  deriving DecidableEq

/-- The sign of a comparison, before "=". -/
def Comparison.sign : Comparison → Char
  | approx => '~'
  | greaterOrEqual => '>'
  | lessOrEqual => '<'

/-- An item of a filter. What an attribute equals is given by the pieces between asterisks:
    there is one if there are no asterisks, and the attribute is present if there are two
    empty ones. -/
inductive Item
  | equal (attr : AttributeDescription) (pieces : List (List UInt8))
  | compare (type : Comparison) (attr : AttributeDescription) (value : List UInt8)
  | extensible (attr : Option AttributeDescription) (dnAttributes : Bool)
    (rule : Option MatchingRule) (value : List UInt8)

/-- What stands between colons in an item with a matching rule. -/
def tags (dnAttributes : Bool) (rule : Option MatchingRule) : List (List Char) :=
  (if dnAttributes then ["dn".toList] else []) ++ rule.toList.map fun rule => rule.oid.text

/-- The text represents the item. -/
def Item.Spells : Item → List Char → Prop
  | equal attr pieces, text => ∃ value, text = attr.text ++ '=' :: value ∧
    (value.splitOn '*').Forall₂ Encodes pieces
  | compare type attr bytes, text => ∃ value, text = attr.text ++ type.sign :: '=' :: value ∧
    Encodes value bytes
  | extensible attr dnAttributes rule bytes, text => (attr.isSome ∨ rule.isSome) ∧
    ∃ value, text = attr.elim [] AttributeDescription.text ++
      ((tags dnAttributes rule).flatMap (':' :: ·) ++ ':' :: '=' :: value) ∧ Encodes value bytes

end SearchFilter

/-- A search filter. -/
inductive SearchFilter
  | and (filters : List SearchFilter)
  | or (filters : List SearchFilter)
  | not (filter : SearchFilter)
  | item (item : SearchFilter.Item)

namespace SearchFilter

mutual

/-- The text represents the filter. -/
def Spells : SearchFilter → List Char → Prop
  | and filters, text => filters ≠ [] ∧
    ∃ body, SpellsAll filters body ∧ text = '(' :: '&' :: (body ++ [')'])
  | or filters, text => filters ≠ [] ∧
    ∃ body, SpellsAll filters body ∧ text = '(' :: '|' :: (body ++ [')'])
  | not filter, text => ∃ body, filter.Spells body ∧ text = '(' :: '!' :: (body ++ [')'])
  | item i, text => ∃ body, i.Spells body ∧ text = '(' :: (body ++ [')'])

/-- The text represents the filters, one after another. -/
def SpellsAll : List SearchFilter → List Char → Prop
  | [], text => text = []
  | filter :: filters, text => ∃ first rest, filter.Spells first ∧ SpellsAll filters rest ∧
    text = first ++ rest

end

/-! ## A text represents one filter -/

section
variable {α : Type} {P : α → Prop}

/-- What comes before the first delimiter. -/
theorem append_delimiter_inj {a a' rest rest' : List α} {d d' : α} (ha : ∀ c ∈ a, ¬P c)
    (ha' : ∀ c ∈ a', ¬P c) (hd : P d) (hd' : P d') (h : a ++ d :: rest = a' ++ d' :: rest') :
    a = a' ∧ d = d' ∧ rest = rest' := by
  induction a generalizing a' with
  | nil =>
    cases a' with
    | nil => exact ⟨rfl, List.cons.inj h⟩
    | cons c a' => exact absurd ((List.cons.inj h).1 ▸ hd) (ha' c List.mem_cons_self)
  | cons c a ih =>
    cases a' with
    | nil => exact absurd ((List.cons.inj h).1 ▸ hd') (ha c List.mem_cons_self)
    | cons c' a' =>
      obtain ⟨rfl, htail⟩ := List.cons.inj h
      rw [List.forall_mem_cons] at ha ha'
      obtain ⟨rfl, hrest⟩ := ih ha.2 ha'.2 htail
      exact ⟨rfl, hrest⟩

end

/-- Characters that end the description of an attribute. -/
def IsDelimiter (c : Char) : Prop := c ∈ ['=', '~', '>', '<', ':']

instance decidableIsDelimiter (c : Char) : Decidable (IsDelimiter c) :=
  inferInstanceAs (Decidable (c ∈ _))

theorem attributeType_text_ne_nil (type : Dn.AttributeType) : type.text ≠ [] := by
  intro hnil
  rcases type.valid with ⟨c, cs, htext, -⟩ | ⟨hlength, -⟩
  · exact List.cons_ne_nil c cs (htext.symm.trans hnil)
  · rw [hnil, List.splitOn_nil, List.length_singleton] at hlength
    exact absurd hlength (by decide)

namespace AttributeDescription

variable (attr : AttributeDescription)

theorem mem_text {c : Char} (h : c ∈ attr.text) : IsKeyChar c ∨ c = '.' ∨ c = ';' := by
  obtain ⟨type, options, hoptions, htext⟩ := attr.valid
  rw [htext, List.mem_append, List.mem_flatMap] at h
  rcases h with h | ⟨option, hoption, h⟩
  · rcases type.mem_text h with h | h | h
    · exact .inl (.inl h)
    · exact .inl (.inr h)
    · exact .inr (.inl h)
  · rcases List.mem_cons.1 h with h | h
    · exact .inr (.inr h)
    · exact .inl ((hoptions option hoption).2 c h)

/-- Descriptions of attributes have none of the other characters of ASCII. -/
theorem not_mem_text {c : Char} (hkey : ¬IsKeyChar c) (hdot : c ≠ '.') (hsemicolon : c ≠ ';') :
    c ∉ attr.text := by
  intro h
  rcases attr.mem_text h with h | h | h
  exacts [hkey h, hdot h, hsemicolon h]

theorem not_isDelimiter : ∀ c ∈ attr.text, ¬IsDelimiter c := by
  intro c hc hdelimiter
  have hall : ∀ d ∈ ['=', '~', '>', '<', ':'], ¬IsKeyChar d ∧ d ≠ '.' ∧ d ≠ ';' :=
    List.all_iff_forall_prop.1 (by decide)
  obtain ⟨hkey, hdot, hsemicolon⟩ := hall c hdelimiter
  exact attr.not_mem_text hkey hdot hsemicolon hc

theorem text_ne_nil : attr.text ≠ [] := by
  obtain ⟨type, options, -, htext⟩ := attr.valid
  rw [htext]
  exact List.append_ne_nil_of_left_ne_nil (attributeType_text_ne_nil type) _

theorem ext {attr attr' : AttributeDescription} (h : attr.text = attr'.text) : attr = attr' := by
  cases attr
  cases attr'
  cases h
  rfl

end AttributeDescription

/-! ### Items -/

section
variable {dnAttributes dnAttributes' : Bool} {rule rule' : Option MatchingRule}

/-- The characters of what stands between colons. -/
theorem tags_spec : ∀ tag ∈ tags dnAttributes rule,
    tag ≠ [] ∧ ∀ c, ¬IsKeyChar c → c ≠ '.' → c ∉ tag := by
  intro tag htag
  rcases List.mem_append.1 htag with htag | htag
  · cases dnAttributes with
    | false => exact absurd htag List.not_mem_nil
    | true =>
      rw [List.mem_singleton.1 htag]
      have hkeys : ∀ c ∈ "dn".toList, IsKeyChar c :=
        List.all_iff_forall_prop.1 (by decide)
      exact ⟨by decide, fun c hc _ hmem => hc (hkeys c hmem)⟩
  · obtain ⟨rule, -, rfl⟩ := List.mem_map.1 htag
    refine ⟨attributeType_text_ne_nil rule.oid, fun c hc hdot => ?_⟩
    obtain ⟨halnum, hminus⟩ := not_or.1 hc
    exact rule.oid.not_mem_text (eq_false_of_ne_true halnum) hminus hdot

theorem tags_inj (h : tags dnAttributes rule = tags dnAttributes' rule') :
    dnAttributes = dnAttributes' ∧ rule = rule' := by
  -- A rule is told by its identifier, which is not the other tag.
  have hrule : ∀ {rule rule' : Option MatchingRule},
      rule.toList.map (fun rule => rule.oid.text) = rule'.toList.map (fun rule => rule.oid.text) →
      rule = rule' := by
    intro rule rule' h
    match rule, rule', h with
    | none, none, _ => rfl
    | some ⟨⟨text, _⟩, _⟩, some ⟨⟨text', _⟩, _⟩, h =>
      obtain rfl : text = text' := (List.cons.inj h).1
      rfl
  have hdn : ∀ {rule : Option MatchingRule} {ts : List (List Char)},
      rule.toList.map (fun rule => rule.oid.text) ≠ "dn".toList :: ts := by
    intro rule ts h
    match rule, h with
    | some rule, h => exact rule.ne_dn (List.cons.inj h).1
  match dnAttributes, dnAttributes', h with
  | false, false, h => exact ⟨rfl, hrule h⟩
  | false, true, h => exact absurd h hdn
  | true, false, h => exact absurd h.symm hdn
  | true, true, h => exact ⟨rfl, hrule (List.cons.inj h).2⟩

/-- Tags and what follows them can be told apart. -/
theorem flatMap_tags_inj {ts ts' : List (List Char)} {value value' : List Char}
    (hts : ∀ tag ∈ ts, tag ≠ [] ∧ ∀ c, ¬IsKeyChar c → c ≠ '.' → c ∉ tag)
    (hts' : ∀ tag ∈ ts', tag ≠ [] ∧ ∀ c, ¬IsKeyChar c → c ≠ '.' → c ∉ tag)
    (h : ts.flatMap (':' :: ·) ++ ':' :: '=' :: value =
      ts'.flatMap (':' :: ·) ++ ':' :: '=' :: value') : ts = ts' ∧ value = value' := by
  -- After a tag there is a colon.
  have hcolon : ∀ (ts : List (List Char)) (value : List Char),
      ∃ rest, ts.flatMap (':' :: ·) ++ ':' :: '=' :: value = ':' :: rest := by
    intro ts value
    cases ts with
    | nil => exact ⟨_, rfl⟩
    | cons tag ts => exact ⟨_, rfl⟩
  -- A tag does not start with "=".
  have hequals : ∀ {tag rest value : List Char}, tag ≠ [] → '=' ∉ tag →
      tag ++ rest ≠ '=' :: value := by
    intro tag rest value hne hmem h
    obtain ⟨c, tag, rfl⟩ := List.exists_cons_of_ne_nil hne
    exact hmem ((List.cons.inj h).1 ▸ List.mem_cons_self)
  induction ts generalizing ts' with
  | nil =>
    cases ts' with
    | nil => exact ⟨rfl, (List.cons.inj (List.cons.inj h).2).2⟩
    | cons tag ts' =>
      obtain ⟨hne, hmem⟩ := hts' tag List.mem_cons_self
      rw [List.flatMap_cons, List.append_assoc] at h
      exact absurd (List.cons.inj h).2.symm (hequals hne (hmem '=' (by decide) (by decide)))
  | cons tag ts ih =>
    obtain ⟨⟨hne, hmem⟩, htail⟩ := List.forall_mem_cons.1 hts
    cases ts' with
    | nil =>
      rw [List.flatMap_cons, List.append_assoc] at h
      exact absurd (List.cons.inj h).2 (hequals hne (hmem '=' (by decide) (by decide)))
    | cons tag' ts' =>
      obtain ⟨⟨-, hmem'⟩, htail'⟩ := List.forall_mem_cons.1 hts'
      obtain ⟨rest, hrest⟩ := hcolon ts value
      obtain ⟨rest', hrest'⟩ := hcolon ts' value'
      rw [List.flatMap_cons, List.flatMap_cons, List.append_assoc, List.append_assoc, hrest,
        hrest'] at h
      obtain ⟨rfl, -, rfl⟩ := append_delimiter_inj (P := (· = ':'))
        (fun c hc heq => hmem ':' (by decide) (by decide) (heq ▸ hc))
        (fun c hc heq => hmem' ':' (by decide) (by decide) (heq ▸ hc)) rfl rfl
        (List.cons.inj h).2
      obtain ⟨rfl, hvalue⟩ := ih htail htail' (hrest.trans hrest'.symm)
      exact ⟨rfl, hvalue⟩

namespace Item

/-- The description of the attribute, if there is one. -/
def attrText : Item → List Char
  | equal attr _ => attr.text
  | compare _ attr _ => attr.text
  | extensible attr _ _ _ => attr.elim [] AttributeDescription.text

/-- What ends the description of the attribute. -/
def delimiter : Item → Char
  | equal _ _ => '='
  | compare type _ _ => type.sign
  | extensible _ _ _ _ => ':'

variable {i i' : Item} {text text' : List Char}

theorem not_isDelimiter_attrText : ∀ c ∈ i.attrText, ¬IsDelimiter c := by
  match i with
  | equal attr _ => exact attr.not_isDelimiter
  | compare _ attr _ => exact attr.not_isDelimiter
  | extensible none _ _ _ => exact nofun
  | extensible (some attr) _ _ _ => exact attr.not_isDelimiter

theorem isDelimiter_delimiter : IsDelimiter i.delimiter := by
  have hsign : ∀ type : Comparison, IsDelimiter type.sign := by
    intro type
    cases type
    all_goals decide
  cases i with
  | equal attr pieces => exact show IsDelimiter '=' by decide
  | compare type attr value => exact hsign type
  | extensible attr dnAttributes rule value => exact show IsDelimiter ':' by decide

/-- What follows the delimiter. -/
def SpellsRest : Item → List Char → Prop
  | equal _ pieces, rest => (rest.splitOn '*').Forall₂ Encodes pieces
  | compare _ _ bytes, rest => ∃ value, rest = '=' :: value ∧ Encodes value bytes
  | extensible attr dnAttributes rule bytes, rest => (attr.isSome ∨ rule.isSome) ∧
    ∃ value, ':' :: rest = (tags dnAttributes rule).flatMap (':' :: ·) ++ ':' :: '=' :: value ∧
      Encodes value bytes

theorem Spells.exists_rest (h : i.Spells text) :
    ∃ rest, text = i.attrText ++ i.delimiter :: rest ∧ i.SpellsRest rest := by
  cases i with
  | equal attr pieces => exact h
  | compare type attr bytes =>
    obtain ⟨value, htext, hvalue⟩ := h
    exact ⟨'=' :: value, htext, value, rfl, hvalue⟩
  | extensible attr dnAttributes rule bytes =>
    obtain ⟨hsome, value, htext, hvalue⟩ := h
    obtain ⟨rest, hrest⟩ : ∃ rest, (tags dnAttributes rule).flatMap (':' :: ·) ++
        ':' :: '=' :: value = ':' :: rest := by
      cases tags dnAttributes rule with
      | nil => exact ⟨_, rfl⟩
      | cons tag ts => exact ⟨_, rfl⟩
    exact ⟨rest, hrest ▸ htext, hsome, value, hrest.symm, hvalue⟩

/-- A text represents one item. -/
theorem spells_inj (h : i.Spells text) (h' : i'.Spells text) : i = i' := by
  obtain ⟨rest, rfl, hrest⟩ := h.exists_rest
  obtain ⟨rest', htext, hrest'⟩ := h'.exists_rest
  obtain ⟨hattr, hdelimiter, rfl⟩ := append_delimiter_inj not_isDelimiter_attrText
    not_isDelimiter_attrText isDelimiter_delimiter isDelimiter_delimiter htext
  clear htext h h'
  have hsign : ∀ type : Comparison, type.sign ≠ '=' ∧ type.sign ≠ ':' := by
    intro type
    cases type
    all_goals decide
  have hcolon : '=' ≠ ':' := by decide
  -- The delimiter tells which kind of an item it is.
  cases i with
  | equal attr pieces =>
    cases i' with
    | equal attr' pieces' =>
      obtain rfl := AttributeDescription.ext hattr
      rw [List.right_unique_forall₂' (fun _ _ _ h h' => h.unique h') hrest hrest']
    | compare type' => exact absurd hdelimiter.symm (hsign type').1
    | extensible => exact absurd hdelimiter hcolon
  | compare type attr bytes =>
    cases i' with
    | equal => exact absurd hdelimiter (hsign type).1
    | compare type' attr' bytes' =>
      obtain rfl := AttributeDescription.ext hattr
      obtain rfl : type = type' := by
        have hinj : ∀ type type' : Comparison, type.sign = type'.sign → type = type' := by
          intro type type'
          cases type <;> cases type' <;> decide
        exact hinj type type' hdelimiter
      obtain ⟨value, rfl, hvalue⟩ := hrest
      obtain ⟨value', heq, hvalue'⟩ := hrest'
      obtain rfl := (List.cons.inj heq).2
      rw [hvalue.unique hvalue']
    | extensible => exact absurd hdelimiter (hsign type).2
  | extensible attr dnAttributes rule bytes =>
    cases i' with
    | equal => exact absurd hdelimiter.symm hcolon
    | compare type' => exact absurd hdelimiter.symm (hsign type').2
    | extensible attr' dnAttributes' rule' bytes' =>
      obtain ⟨-, value, htags, hvalue⟩ := hrest
      obtain ⟨-, value', htags', hvalue'⟩ := hrest'
      obtain ⟨htags, rfl⟩ := flatMap_tags_inj tags_spec tags_spec (htags.symm.trans htags')
      obtain ⟨rfl, rfl⟩ := tags_inj htags
      obtain rfl : attr = attr' := by
        match attr, attr', hattr with
        | none, none, _ => rfl
        | none, some attr', h => exact absurd h.symm attr'.text_ne_nil
        | some attr, none, h => exact absurd h attr.text_ne_nil
        | some attr, some attr', h => exact congrArg some (AttributeDescription.ext h)
      rw [hvalue.unique hvalue']

theorem not_mem_attrText {c : Char} (hkey : ¬IsKeyChar c) (hdot : c ≠ '.')
    (hsemicolon : c ≠ ';') : c ∉ i.attrText := by
  match i with
  | equal attr _ => exact attr.not_mem_text hkey hdot hsemicolon
  | compare _ attr _ => exact attr.not_mem_text hkey hdot hsemicolon
  | extensible none _ _ _ => exact List.not_mem_nil
  | extensible (some attr) _ _ _ => exact attr.not_mem_text hkey hdot hsemicolon

/-- The text of an item has no parentheses. -/
theorem Spells.not_mem (h : i.Spells text) {c : Char} (hc : c = '(' ∨ c = ')') : c ∉ text := by
  have hall : ∀ d ∈ ['(', ')'], ¬IsKeyChar d ∧ d ≠ '.' ∧ d ≠ ';' ∧ ¬IsDelimiter d ∧ IsSyntax d ∧
      d ≠ '*' ∧ d ≠ '\\' ∧ d ≠ '=' ∧ d ≠ ':' := List.all_iff_forall_prop.1 (by decide)
  obtain ⟨hkey, hdot, hsemicolon, hdelimiter, hspecial, hasterisk, hbackslash, hequals, hcolon⟩ :=
    hall c (by simpa using hc)
  have hvalue : ∀ {value : List Char} {bytes : List UInt8}, Encodes value bytes → c ∉ value :=
    fun hencodes hmem => hencodes.not_isSyntax c hmem hbackslash hspecial
  obtain ⟨rest, rfl, hrest⟩ := h.exists_rest
  rw [List.mem_append, List.mem_cons]
  rintro (hmem | heq | hmem)
  · exact not_mem_attrText hkey hdot hsemicolon hmem
  · exact hdelimiter (heq ▸ isDelimiter_delimiter)
  · cases i with
    | equal attr pieces =>
      obtain ⟨piece, hpiece, hmem⟩ := Path.exists_mem_splitOn hmem hasterisk
      obtain ⟨bytes, hbytes⟩ := Encodes.exists_encodes_of_mem hrest hpiece
      exact hvalue hbytes hmem
    | compare type attr bytes =>
      obtain ⟨value, rfl, hencodes⟩ := hrest
      exact hvalue hencodes ((List.mem_cons.1 hmem).resolve_left hequals)
    | extensible attr dnAttributes rule bytes =>
      obtain ⟨-, value, htags, hencodes⟩ := hrest
      have hmem : c ∈ (tags dnAttributes rule).flatMap (':' :: ·) ++ ':' :: '=' :: value :=
        htags ▸ List.mem_cons_of_mem ':' hmem
      simp only [List.mem_append, List.mem_flatMap, List.mem_cons, hcolon, hequals,
        false_or] at hmem
      rcases hmem with ⟨tag, htag, hmem⟩ | hmem
      · exact (tags_spec tag htag).2 c hkey hdot hmem
      · exact hvalue hencodes hmem

/-- The text of an item does not start as another filter. -/
theorem Spells.head (h : i.Spells text) :
    ∃ c rest, text = c :: rest ∧ c ≠ '&' ∧ c ≠ '|' ∧ c ≠ '!' := by
  obtain ⟨rest, rfl, -⟩ := h.exists_rest
  cases hattr : i.attrText with
  | nil =>
    have hall : ∀ d ∈ ['=', '~', '>', '<', ':'], d ≠ '&' ∧ d ≠ '|' ∧ d ≠ '!' :=
      List.all_iff_forall_prop.1 (by decide)
    exact ⟨i.delimiter, rest, rfl, hall _ isDelimiter_delimiter⟩
  | cons c text =>
    have hne : ∀ d ∈ ['&', '|', '!'], c ≠ d := by
      have hall : ∀ d ∈ ['&', '|', '!'], ¬IsKeyChar d ∧ d ≠ '.' ∧ d ≠ ';' :=
        List.all_iff_forall_prop.1 (by decide)
      rintro d hd rfl
      obtain ⟨hkey, hdot, hsemicolon⟩ := hall c hd
      exact not_mem_attrText hkey hdot hsemicolon (hattr ▸ List.mem_cons_self)
    refine ⟨c, text ++ i.delimiter :: rest, rfl, ?_⟩
    simpa using hne

end Item

end

/-! ### Filters -/

theorem Spells.exists_cons {filter : SearchFilter} {text : List Char} (h : filter.Spells text) :
    ∃ rest, text = '(' :: rest := by
  cases filter with
  | and filters =>
    obtain ⟨-, body, -, rfl⟩ := h
    exact ⟨_, rfl⟩
  | or filters =>
    obtain ⟨-, body, -, rfl⟩ := h
    exact ⟨_, rfl⟩
  | not filter =>
    obtain ⟨body, -, rfl⟩ := h
    exact ⟨_, rfl⟩
  | item i =>
    obtain ⟨body, -, rfl⟩ := h
    exact ⟨_, rfl⟩

/-- What a filter is, by the character after its first parenthesis. -/
def kind : SearchFilter → Option Char
  | and _ => some '&'
  | or _ => some '|'
  | not _ => some '!'
  | item _ => none

/-- The body of a filter, between its parentheses and after the character for its kind. -/
def SpellsBody : SearchFilter → List Char → Prop
  | and filters, body => filters ≠ [] ∧ SpellsAll filters body
  | or filters, body => filters ≠ [] ∧ SpellsAll filters body
  | not filter, body => filter.Spells body
  | item i, body => i.Spells body

theorem Spells.exists_body {filter : SearchFilter} {text : List Char} (h : filter.Spells text) :
    ∃ body, filter.SpellsBody body ∧ text = '(' :: (filter.kind.toList ++ (body ++ [')'])) := by
  cases filter with
  | and filters =>
    obtain ⟨hne, body, hbody, rfl⟩ := h
    exact ⟨body, ⟨hne, hbody⟩, rfl⟩
  | or filters =>
    obtain ⟨hne, body, hbody, rfl⟩ := h
    exact ⟨body, ⟨hne, hbody⟩, rfl⟩
  | not filter => exact h
  | item i => exact h

/-- An item does not start with the character of another kind. -/
theorem item_ne_kind {filter filter' : SearchFilter} {body rest rest' : List Char} {c : Char}
    (h : filter.SpellsBody body) (hnone : filter.kind = none) (hsome : filter'.kind = some c) :
    body ++ rest ≠ c :: rest' := by
  intro heq
  cases filter with
  | item i =>
    obtain ⟨d, body, rfl, hand, hor, hnot⟩ := Item.Spells.head h
    obtain rfl : d = c := (List.cons.inj heq).1
    cases filter' with
    | and => exact hand (Option.some.inj hsome).symm
    | or => exact hor (Option.some.inj hsome).symm
    | not => exact hnot (Option.some.inj hsome).symm
    | item => exact absurd hsome nofun
  | _ => exact absurd hnone nofun

/-- The character after the parenthesis tells the kind of a filter. -/
theorem kind_eq {filter filter' : SearchFilter} {body body' rest rest' : List Char}
    (h : filter.SpellsBody body) (h' : filter'.SpellsBody body')
    (heq : filter.kind.toList ++ (body ++ rest) = filter'.kind.toList ++ (body' ++ rest')) :
    filter.kind = filter'.kind ∧ body ++ rest = body' ++ rest' := by
  cases hkind : filter.kind with
  | none =>
    cases hkind' : filter'.kind with
    | none =>
      rw [hkind, hkind'] at heq
      exact ⟨rfl, heq⟩
    | some c =>
      rw [hkind, hkind', Option.toList_none, List.nil_append] at heq
      exact absurd heq (item_ne_kind h hkind hkind')
  | some c =>
    cases hkind' : filter'.kind with
    | none =>
      rw [hkind, hkind', Option.toList_none, List.nil_append] at heq
      exact absurd heq.symm (item_ne_kind h' hkind' hkind)
    | some c' =>
      rw [hkind, hkind'] at heq
      obtain ⟨rfl, hrest⟩ := List.cons.inj heq
      exact ⟨rfl, hrest⟩

mutual

/-- A text that starts with a filter starts with no other one. -/
theorem spells_append_inj : ∀ {filter filter' : SearchFilter} {text text' rest rest' : List Char},
    filter.Spells text → filter'.Spells text' → text ++ rest = text' ++ rest' →
      filter = filter' ∧ text = text' ∧ rest = rest'
  | filter, filter', text, text', rest, rest', h, h', heq => by
    obtain ⟨body, hbody, rfl⟩ := h.exists_body
    obtain ⟨body', hbody', rfl⟩ := h'.exists_body
    simp only [List.cons_append, List.append_assoc, List.nil_append, List.cons.injEq,
      true_and] at heq
    obtain ⟨hkind, hrest⟩ := kind_eq hbody hbody' heq
    suffices hsame : filter = filter' ∧ body = body' ∧ rest = rest' by
      obtain ⟨rfl, rfl, rfl⟩ := hsame
      exact ⟨rfl, rfl, rfl⟩
    -- the kinds are the same, so that only one case is left for the other filter
    cases filter with
    | item i =>
      cases filter' with
      | item i' =>
        obtain ⟨rfl, -, rfl⟩ := append_delimiter_inj (P := (· = ')'))
          (fun c hc hp => hbody.not_mem (.inr hp) hc) (fun c hc hp => hbody'.not_mem (.inr hp) hc)
          rfl rfl hrest
        exact ⟨congrArg item (Item.spells_inj hbody hbody'), rfl, rfl⟩
      | _ => simp [kind] at hkind
    | and filters =>
      cases filter' with
      | and filters' =>
        obtain ⟨rfl, hsame⟩ := spellsAll_append_inj hbody.2 hbody'.2 hrest
        exact ⟨rfl, hsame⟩
      | _ => simp [kind] at hkind
    | or filters =>
      cases filter' with
      | or filters' =>
        obtain ⟨rfl, hsame⟩ := spellsAll_append_inj hbody.2 hbody'.2 hrest
        exact ⟨rfl, hsame⟩
      | _ => simp [kind] at hkind
    | not filter =>
      cases filter' with
      | not filter' =>
        obtain ⟨rfl, rfl, hsame⟩ := spells_append_inj hbody hbody' hrest
        exact ⟨rfl, rfl, (List.cons.inj hsame).2⟩
      | _ => simp [kind] at hkind

/-- Filters in parentheses are told apart. -/
theorem spellsAll_append_inj : ∀ {filters filters' : List SearchFilter}
    {text text' rest rest' : List Char}, SpellsAll filters text → SpellsAll filters' text' →
    text ++ ')' :: rest = text' ++ ')' :: rest' →
      filters = filters' ∧ text = text' ∧ rest = rest'
  | [], [], text, text', rest, rest', h, h', heq => by
    obtain rfl : text = [] := h
    obtain rfl : text' = [] := h'
    exact ⟨rfl, rfl, (List.cons.inj heq).2⟩
  | [], filter' :: filters', text, text', rest, rest', h, h', heq => by
    obtain rfl : text = [] := h
    obtain ⟨first, others, hfirst, -, rfl⟩ := h'
    obtain ⟨first, rfl⟩ := hfirst.exists_cons
    exact absurd (List.cons.inj heq).1 (by decide)
  | filter :: filters, [], text, text', rest, rest', h, h', heq => by
    obtain rfl : text' = [] := h'
    obtain ⟨first, others, hfirst, -, rfl⟩ := h
    obtain ⟨first, rfl⟩ := hfirst.exists_cons
    exact absurd (List.cons.inj heq).1 (by decide)
  | filter :: filters, filter' :: filters', text, text', rest, rest', h, h', heq => by
    obtain ⟨first, others, hfirst, hothers, rfl⟩ := h
    obtain ⟨first', others', hfirst', hothers', rfl⟩ := h'
    rw [List.append_assoc, List.append_assoc] at heq
    obtain ⟨rfl, rfl, htail⟩ := spells_append_inj hfirst hfirst' heq
    obtain ⟨rfl, rfl, rfl⟩ := spellsAll_append_inj hothers hothers' htail
    exact ⟨rfl, rfl, rfl⟩

end

/-- A text represents one filter. -/
theorem spells_inj {filter filter' : SearchFilter} {text : List Char} (h : filter.Spells text)
    (h' : filter'.Spells text) : filter = filter' :=
  (@spells_append_inj _ _ _ _ [] [] h h' rfl).1

/-! ## Which filter a text represents -/

section
variable {filter : SearchFilter} {attr : AttributeDescription} {value : List Char}

theorem Item.spells_equal_iff {i : Item} : i.Spells (attr.text ++ '=' :: value) ↔
    ∃ pieces, (value.splitOn '*').Forall₂ Encodes pieces ∧ i = .equal attr pieces := by
  constructor
  · intro h
    obtain ⟨rest, htext, hrest⟩ := h.exists_rest
    obtain ⟨hattr, hdelimiter, rfl⟩ := append_delimiter_inj attr.not_isDelimiter
      not_isDelimiter_attrText (by decide) isDelimiter_delimiter htext
    cases i with
    | equal attr' pieces => exact ⟨pieces, hrest, by rw [AttributeDescription.ext hattr]⟩
    | compare type => cases type <;> exact absurd hdelimiter nofun
    | extensible => exact absurd hdelimiter nofun
  · rintro ⟨pieces, hpieces, rfl⟩
    exact ⟨value, rfl, hpieces⟩

/-- The filter for an attribute that equals something. -/
theorem spells_equal_iff : filter.Spells ('(' :: (attr.text ++ '=' :: value ++ [')'])) ↔
    ∃ pieces, (value.splitOn '*').Forall₂ Encodes pieces ∧ filter = item (.equal attr pieces) := by
  constructor
  · intro h
    obtain ⟨body, hbody, htext⟩ := h.exists_body
    have hbodies := List.append_cancel_right
      ((List.cons.inj htext).2.trans (List.append_assoc _ body _).symm)
    cases filter with
    | item i =>
      obtain rfl : attr.text ++ '=' :: value = body := hbodies
      obtain ⟨pieces, hpieces, rfl⟩ := Item.spells_equal_iff.1 hbody
      exact ⟨pieces, hpieces, rfl⟩
    | _ =>
      -- The description of an attribute does not start with the character of a kind.
      obtain ⟨c, cs, hattr⟩ := List.exists_cons_of_ne_nil attr.text_ne_nil
      rw [hattr] at hbodies
      obtain rfl := (List.cons.inj hbodies).1
      have hmem := hattr ▸ @List.mem_cons_self _ _ cs
      exact absurd hmem (attr.not_mem_text (by decide) (by decide) (by decide))
  · rintro ⟨pieces, hpieces, rfl⟩
    exact ⟨_, Item.spells_equal_iff.2 ⟨pieces, hpieces, rfl⟩, rfl⟩

/-- The filter that does not match what another one matches. -/
theorem spells_not_iff {text : List Char} :
    filter.Spells ('(' :: '!' :: (text ++ [')'])) ↔ ∃ f, Spells f text ∧ filter = not f := by
  constructor
  · intro h
    obtain ⟨body, hbody, htext⟩ := h.exists_body
    have hbodies : '!' :: text = filter.kind.toList ++ body := List.append_cancel_right
      ((List.cons.inj htext).2.trans (List.append_assoc _ body _).symm)
    cases filter with
    | item i =>
      obtain ⟨c, cs, hhead, -, -, hnot⟩ := Item.Spells.head hbody
      exact absurd (List.cons.inj (hbodies.trans hhead)).1.symm hnot
    | not filter =>
      obtain rfl := (List.cons.inj hbodies).2
      exact ⟨filter, hbody, rfl⟩
    | and => exact absurd (List.cons.inj hbodies).1 (by decide)
    | or => exact absurd (List.cons.inj hbodies).1 (by decide)
  · rintro ⟨f, hf, rfl⟩
    exact ⟨text, hf, rfl⟩

end

/-! ## What filters mean -/

/-- The values of the attributes of an entry. -/
abbrev Entry := List Char → List (List UInt8)

/-- How values are compared: for equality, and with parts of others, after they have been
    prepared. -/
structure MatchingRules where
  prepare : List Char → List UInt8 → List UInt8
  prepare_nil : ∀ attr, prepare attr [] = []
  compares : Comparison → List Char → List UInt8 → List UInt8 → Prop
  extensible : Option (List Char) → Bool → Option (List Char) → List UInt8 → Entry → Prop

/-- A value consists of pieces, in this order, with anything between them. -/
def Glob : List (List UInt8) → List UInt8 → Prop
  | [], value => value = []
  | [piece], value => value = piece
  | piece :: piece' :: pieces, value =>
    ∃ gap rest, value = piece ++ (gap ++ rest) ∧ Glob (piece' :: pieces) rest

/-- An entry matches an item. -/
def Item.Matches (rules : MatchingRules) (entry : Entry) : Item → Prop
  | equal attr pieces => ∃ value ∈ entry attr.text,
    Glob (pieces.map (rules.prepare attr.text)) (rules.prepare attr.text value)
  | compare type attr bytes => ∃ value ∈ entry attr.text, rules.compares type attr.text value bytes
  | extensible attr dnAttributes rule bytes =>
    rules.extensible (attr.map AttributeDescription.text) dnAttributes
      (rule.map fun rule => rule.oid.text) bytes entry

mutual

/-- An entry matches a filter. -/
def Matches (rules : MatchingRules) (entry : Entry) : SearchFilter → Prop
  | and filters => MatchesAll rules entry filters
  | or filters => MatchesAny rules entry filters
  | not filter => ¬filter.Matches rules entry
  | item i => i.Matches rules entry

/-- An entry matches all filters. -/
def MatchesAll (rules : MatchingRules) (entry : Entry) : List SearchFilter → Prop
  | [] => True
  | filter :: filters => filter.Matches rules entry ∧ MatchesAll rules entry filters

/-- An entry matches some filter. -/
def MatchesAny (rules : MatchingRules) (entry : Entry) : List SearchFilter → Prop
  | [] => False
  | filter :: filters => filter.Matches rules entry ∨ MatchesAny rules entry filters

end

theorem matchesAll_iff {rules : MatchingRules} {entry : Entry} {filters : List SearchFilter} :
    MatchesAll rules entry filters ↔ ∀ filter ∈ filters, filter.Matches rules entry := by
  induction filters with
  | nil => exact iff_of_true trivial nofun
  | cons filter filters ih => rw [MatchesAll, ih, List.forall_mem_cons]

theorem matchesAny_iff {rules : MatchingRules} {entry : Entry} {filters : List SearchFilter} :
    MatchesAny rules entry filters ↔ ∃ filter ∈ filters, filter.Matches rules entry := by
  induction filters with
  | nil => exact iff_of_false id nofun
  | cons filter filters ih => rw [MatchesAny, ih, List.exists_mem_cons_iff]

section
variable {piece value : List UInt8}

theorem glob_iff_startsWith : Glob [piece, []] value ↔ piece <+: value := by
  constructor
  · rintro ⟨gap, rest, rfl, -⟩
    exact List.prefix_append _ _
  · rintro ⟨rest, rfl⟩
    exact ⟨rest, [], by rw [List.append_nil], rfl⟩

theorem glob_suffix : Glob [[], piece] value ↔ piece <:+ value := by
  constructor
  · rintro ⟨gap, rest, rfl, rfl⟩
    exact List.suffix_append _ _
  · rintro ⟨gap, rfl⟩
    exact ⟨gap, piece, rfl, rfl⟩

theorem glob_infix : Glob [[], piece, []] value ↔ piece <:+: value := by
  constructor
  · rintro ⟨gap, rest, rfl, hrest⟩
    exact (glob_iff_startsWith.1 hrest).isInfix.trans (List.suffix_append _ _).isInfix
  · rintro ⟨gap, rest, rfl⟩
    refine ⟨gap, piece ++ rest, List.append_assoc _ _ _, ?_⟩
    exact glob_iff_startsWith.2 (List.prefix_append _ _)

/-- Pieces without anything between them. -/
theorem glob_flatten {pieces : List (List UInt8)} : Glob pieces pieces.flatten := by
  induction pieces with
  | nil => rfl
  | cons piece pieces ih =>
    cases pieces with
    | nil => exact List.append_nil piece
    | cons piece' pieces => exact ⟨[], (piece' :: pieces).flatten, rfl, ih⟩

end

/-! ## Values and their pieces -/

theorem flatten_splitOn (sep : Char) (text : List Char) :
    (text.splitOn sep).flatten = text.filter (· ≠ sep) := by
  induction text with
  | nil => rfl
  | cons c text ih =>
    rw [List.splitOn_cons_eq_if_modifyHead]
    obtain ⟨piece, pieces, hsplit⟩ := List.exists_cons_of_ne_nil (List.splitOn_ne_nil sep text)
    rw [hsplit, List.flatten_cons] at ih
    by_cases hc : c = sep
    · rw [if_pos (beq_iff_eq.2 hc), hsplit, List.filter_cons_of_neg (by simpa using hc), ← ih]
      rfl
    · rw [if_neg (by simpa using hc), hsplit, List.filter_cons_of_pos (by simpa using hc), ← ih]
      rfl

/-- The pieces of a value, one after another, are the value without its asterisks. -/
theorem encodes_flatten {text : List Char} {pieces : List (List UInt8)}
    (h : (text.splitOn '*').Forall₂ Encodes pieces) :
    Encodes (text.filter (· ≠ '*')) pieces.flatten := by
  rw [← flatten_splitOn]
  generalize text.splitOn '*' = parts at h
  induction h with
  | nil => exact .nil
  | cons hencodes h ih => exact hencodes.append ih

theorem length_textBytes_filter (text : List Char) :
    (textBytes (text.filter (· ≠ '*'))).length ≤ (textBytes text).length ∧
      ('*' ∈ text → (textBytes (text.filter (· ≠ '*'))).length < (textBytes text).length) := by
  induction text with
  | nil => exact ⟨le_rfl, fun h => absurd h List.not_mem_nil⟩
  | cons c text ih =>
    by_cases hc : c = '*'
    · have hlength : (textBytes (c :: text)).length = 1 + (textBytes text).length := by
        rw [hc]
        exact List.length_append
      rw [List.filter_cons_of_neg (by simpa using hc), hlength]
      exact ⟨by omega, fun _ => by omega⟩
    · rw [List.filter_cons_of_pos (by simpa using hc)]
      simp only [textBytes, List.flatMap_cons, List.length_append, List.mem_cons, Ne.symm hc,
        false_or] at ih ⊢
      exact ⟨by omega, fun hmem => by have := ih.2 hmem; omega⟩

/-- If there are characters of the syntax in a text, the pieces of the value that it is taken
    for, with asterisks at its ends or without, are shorter. -/
theorem length_flatten_lt {text value : List Char} {pieces : List (List UInt8)}
    (hvalue : value.filter (· ≠ '*') = text.filter (· ≠ '*'))
    (h : (value.splitOn '*').Forall₂ Encodes pieces) (hspecial : ∃ c ∈ text, IsSyntax c) :
    pieces.flatten.length < (textBytes text).length := by
  obtain ⟨c, hmem, hc⟩ := hspecial
  have hencodes := hvalue ▸ encodes_flatten h
  have hlength := hencodes.length_le
  have hfilter := length_textBytes_filter text
  by_cases hasterisk : c = '*'
  · exact hlength.1.trans_lt (hfilter.2 (hasterisk ▸ hmem))
  · have hmem' : c ∈ text.filter (· ≠ '*') := List.mem_filter.2 ⟨hmem, by simpa using hasterisk⟩
    by_cases hbackslash : c = '\\'
    · exact (hlength.2 (hbackslash ▸ hmem')).trans_le hfilter.1
    · exact absurd hc (hencodes.not_isSyntax c hmem' hbackslash)

end SearchFilter
