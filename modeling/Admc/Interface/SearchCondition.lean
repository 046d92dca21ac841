import Admc.Interface.Naming
import Admc.Lib.SearchFilter

/-!
# Conditions of searches

A condition of a search is written as a filter by putting the attribute and the value into a
text for the kind of the condition. The value is put in as it is.

`matchesLiteral_iff`: the text is a filter for the comparison with the value exactly when the
value has no characters of the syntax of filters. Such values may be put into larger filters:
`spells_filterDnList` and `spells_filterMatchingRuleInChain`.
-/

namespace Admc

open SearchFilter

/-- `enum Condition`. -/
inductive Condition
  | contains
  | equals
  | notEquals
  | startsWith
  | endsWith
  | set
  | unset
  | count
  deriving DecidableEq

/-- `filter_CONDITION`. -/
def filterCondition (condition : Condition) (attr value : QString) : QString :=
  match condition with
  | .equals => '(' :: (attr ++ '=' :: value ++ [')'])
  | .notEquals => '(' :: '!' :: ('(' :: (attr ++ '=' :: value ++ [')']) ++ [')'])
  | .startsWith => '(' :: (attr ++ '=' :: (value ++ ['*']) ++ [')'])
  | .endsWith => '(' :: (attr ++ '=' :: '*' :: value ++ [')'])
  | .contains => '(' :: (attr ++ '=' :: '*' :: (value ++ ['*']) ++ [')'])
  | .set => '(' :: (attr ++ ['=', '*', ')'])
  | .unset => '(' :: '!' :: '(' :: (attr ++ ['=', '*', ')', ')'])
  | .count => []

/-- `filter_operation`. -/
def filterOperation (operation : Char) (subfiltersRaw : List QString) : QString :=
  match subfiltersRaw.filter (· ≠ []) with
  | [] => []
  | [subfilter] => subfilter
  | subfilters => '(' :: operation :: (subfilters.flatten ++ [')'])

/-- `filter_AND`. -/
def filterAnd (subfiltersRaw : List QString) : QString := filterOperation '&' subfiltersRaw

/-- `filter_OR`. -/
def filterOr (subfiltersRaw : List QString) : QString := filterOperation '|' subfiltersRaw

/-- `make_filter_list`. -/
def makeFilterList (condition : Condition) (attr : QString) (attributeList : List QString) :
    List QString := attributeList.map (filterCondition condition attr)

/-- `filter_attributes`. -/
def filterAttributes (filter : List QString → QString) (condition : Condition)
    (attr : QString) (attributeList : List QString) : QString :=
  filter (makeFilterList condition attr attributeList)

/-- `filter_dn_list`. -/
def filterDnList (dnList : List QString) : QString :=
  filterAttributes filterOr .equals "distinguishedName".toList dnList

/-- `filter_matching_rule_in_chain`. -/
def filterMatchingRuleInChain (attr dnValue : QString) : QString :=
  '(' :: (attr ++ ':' :: ("1.2.840.113556.1.4.1941".toList ++ ':' :: '=' :: dnValue) ++ [')'])

/-! ## The comparisons -/

/-- What a condition says of the values of an attribute, once they have been prepared. -/
def Condition.Compares (rules : MatchingRules) (entry : Entry) (attr value : QString) :
    Condition → Prop
  | equals => ∃ v ∈ entry attr, rules.prepare attr v = rules.prepare attr (utf8 value)
  | notEquals =>
    ¬∃ v ∈ entry attr, rules.prepare attr v = rules.prepare attr (utf8 value)
  | startsWith =>
    ∃ v ∈ entry attr, rules.prepare attr (utf8 value) <+: rules.prepare attr v
  | endsWith =>
    ∃ v ∈ entry attr, rules.prepare attr (utf8 value) <:+ rules.prepare attr v
  | contains =>
    ∃ v ∈ entry attr, rules.prepare attr (utf8 value) <:+: rules.prepare attr v
  | set => ∃ v, v ∈ entry attr
  | unset => ¬∃ v, v ∈ entry attr
  | count => False

/-- A condition that compares with a value. -/
def Condition.IsComparison (condition : Condition) : Prop :=
  condition ∈ [contains, equals, notEquals, startsWith, endsWith]

instance decidableIsComparison (condition : Condition) : Decidable condition.IsComparison :=
  inferInstanceAs (Decidable (condition ∈ _))

/-- The text of a condition is a filter, and it means the comparison with the value. -/
structure MatchesLiteral (condition : Condition) (attr value : QString) : Prop where
  wellFormed : ∃ filter, Spells filter (filterCondition condition attr value)
  meaning : ∀ filter, Spells filter (filterCondition condition attr value) →
    ∀ rules entry, filter.Matches rules entry ↔
      condition.Compares rules entry attr value

/-! ## Plain values -/

/-- What the value of a condition is put into. -/
def Condition.framed (condition : Condition) (value : QString) : QString :=
  match condition with
  | startsWith => value ++ ['*']
  | endsWith => '*' :: value
  | contains => '*' :: (value ++ ['*'])
  | _ => value

/-- The pieces of the value between asterisks. -/
def Condition.pieces (condition : Condition) (bytes : List UInt8) : List (List UInt8) :=
  match condition with
  | startsWith => [bytes, []]
  | endsWith => [[], bytes]
  | contains => [[], bytes, []]
  | _ => [bytes]

section
variable {condition : Condition} {attr : AttributeDescription} {value : QString}

theorem filterCondition_eq (h : condition.IsComparison) (hnot : condition ≠ .notEquals)
    (attr value : QString) : filterCondition condition attr value =
      '(' :: (attr ++ '=' :: condition.framed value ++ [')']) := by
  cases condition
  case notEquals => exact absurd rfl hnot
  case set => exact absurd h (by decide)
  case unset => exact absurd h (by decide)
  case count => exact absurd h (by decide)
  all_goals rfl

theorem filterCondition_notEquals (attr value : QString) :
    filterCondition .notEquals attr value =
      '(' :: '!' :: (filterCondition .equals attr value ++ [')']) := rfl

theorem filter_framed (condition : Condition) (value : QString) :
    (condition.framed value).filter (· ≠ '*') = value.filter (· ≠ '*') := by
  unfold Condition.framed
  split <;> simp

/-- A plain value is one piece. -/
theorem encodes_pieces (condition : Condition) (h : ∀ c ∈ value, ¬IsSyntax c) :
    ((condition.framed value).splitOn '*').Forall₂ Encodes (condition.pieces (utf8 value)) := by
  have hasterisk : '*' ∉ value := fun hmem => h '*' hmem (by decide)
  have hencodes : Encodes value (utf8 value) := .of_plain h
  have hfirst : ∀ text : QString, ('*' :: text).splitOn '*' = [] :: text.splitOn '*' := by
    intro text
    rw [List.splitOn_cons_eq_if_modifyHead]
    exact if_pos (beq_self_eq_true '*')
  unfold Condition.framed Condition.pieces
  split
  · rw [List.splitOn_append_cons_self_of_not_mem hasterisk, List.splitOn_nil]
    exact .cons hencodes (.cons .nil .nil)
  · rw [hfirst, List.splitOn_eq_singleton hasterisk]
    exact .cons .nil (.cons hencodes .nil)
  · rw [hfirst, List.splitOn_append_cons_self_of_not_mem hasterisk, List.splitOn_nil]
    exact .cons .nil (.cons hencodes (.cons .nil .nil))
  · rw [List.splitOn_eq_singleton hasterisk]
    exact .cons hencodes .nil

/-- What pieces mean. -/
theorem glob_pieces (h : condition.IsComparison) (hnot : condition ≠ .notEquals)
    (rules : MatchingRules) (entry : Entry) (attr value : QString) :
    (∃ v ∈ entry attr, Glob ((condition.pieces (utf8 value)).map (rules.prepare attr))
      (rules.prepare attr v)) ↔ condition.Compares rules entry attr value := by
  cases condition
  case notEquals => exact absurd rfl hnot
  case set => exact absurd h (by decide)
  case unset => exact absurd h (by decide)
  case count => exact absurd h (by decide)
  all_goals
    refine exists_congr fun v => and_congr_right fun _ => ?_
    simp only [Condition.pieces, List.map_cons, List.map_nil, rules.prepare_nil]
  · exact glob_infix
  · exact Iff.rfl
  · exact glob_iff_startsWith
  · exact glob_suffix

/-! ## Which conditions match the literal value -/

/-- Values are compared byte by byte. -/
def octetRules : MatchingRules where
  prepare _ value := value
  prepare_nil _ := rfl
  compares _ _ _ _ := False
  extensible _ _ _ _ _ := False

theorem length_le_of_compares (h : condition.IsComparison) (hnot : condition ≠ .notEquals)
    {bytes : List UInt8}
    (hcompares : condition.Compares octetRules (fun _ => [bytes]) attr.text value) :
    (utf8 value).length ≤ bytes.length := by
  cases condition
  case notEquals => exact absurd rfl hnot
  case set => exact absurd h (by decide)
  case unset => exact absurd h (by decide)
  case count => exact absurd h (by decide)
  all_goals
    obtain ⟨v, hv, hcompares⟩ := hcompares
    obtain rfl := List.mem_singleton.1 hv
  · exact hcompares.length_le
  · exact (congrArg List.length hcompares).ge
  · exact hcompares.length_le
  · exact hcompares.length_le

/-- Of the conditions that are not negated. -/
theorem matchesLiteral_framed_iff (h : condition.IsComparison) (hnot : condition ≠ .notEquals) :
    MatchesLiteral condition attr.text value ↔ ∀ c ∈ value, ¬IsSyntax c := by
  constructor
  · rintro ⟨⟨filter, hfilter⟩, hmeaning⟩
    by_contra hspecial
    push Not at hspecial
    have hmatches := hmeaning filter hfilter octetRules
    rw [filterCondition_eq h hnot, spells_equal_iff] at hfilter
    obtain ⟨pieces, hpieces, rfl⟩ := hfilter
    -- An entry with what is left of the value without its asterisks.
    have hlt := length_flatten_lt (filter_framed condition value) hpieces hspecial
    have hentry : (SearchFilter.item (.equal attr pieces)).Matches octetRules
        fun _ => [pieces.flatten] :=
      ⟨pieces.flatten, List.mem_singleton_self _, (List.map_id pieces).symm ▸ glob_flatten⟩
    exact absurd (length_le_of_compares h hnot ((hmatches _).1 hentry)) (not_le.2 hlt)
  · intro hplain
    have hpieces := encodes_pieces condition hplain
    have hspells : Spells (item (.equal attr (condition.pieces (utf8 value))))
        (filterCondition condition attr.text value) := by
      rw [filterCondition_eq h hnot]
      exact spells_equal_iff.2 ⟨_, hpieces, rfl⟩
    refine ⟨⟨_, hspells⟩, fun filter hfilter rules entry => ?_⟩
    rw [spells_inj hfilter hspells]
    exact glob_pieces h hnot rules entry attr.text value

/-- A condition that is negated. -/
theorem matchesLiteral_notEquals_iff :
    MatchesLiteral .notEquals attr.text value ↔ MatchesLiteral .equals attr.text value := by
  have hspells : ∀ filter, Spells filter (filterCondition .notEquals attr.text value) ↔
      ∃ f, Spells f (filterCondition .equals attr.text value) ∧ filter = .not f := by
    intro filter
    rw [filterCondition_notEquals, spells_not_iff]
  constructor
  · rintro ⟨⟨filter, hfilter⟩, hmeaning⟩
    obtain ⟨f, hf, rfl⟩ := (hspells _).1 hfilter
    refine ⟨⟨f, hf⟩, fun f' hf' rules entry => not_iff_not.1 ?_⟩
    exact hmeaning (.not f') ((hspells _).2 ⟨f', hf', rfl⟩) rules entry
  · rintro ⟨⟨f, hf⟩, hmeaning⟩
    refine ⟨⟨.not f, (hspells _).2 ⟨f, hf, rfl⟩⟩, fun filter hfilter rules entry => ?_⟩
    obtain ⟨f', hf', rfl⟩ := (hspells _).1 hfilter
    exact not_congr (hmeaning f' hf' rules entry)

end

/-- The text of a condition is a filter that compares the attribute with the literal value
    exactly when no character of the value is part of the syntax of filters. -/
theorem matchesLiteral_iff (condition : Condition) (attr : AttributeDescription)
    (value : QString) (h : condition.IsComparison) :
    MatchesLiteral condition attr.text value ↔ ∀ c ∈ value, ¬IsSyntax c := by
  by_cases hnot : condition = .notEquals
  · rw [hnot, matchesLiteral_notEquals_iff]
    exact matchesLiteral_framed_iff (by decide) (by decide)
  · exact matchesLiteral_framed_iff h hnot

/-! ## Larger filters -/

theorem spellsAll_flatten {filters : List SearchFilter} {texts : List QString}
    (h : filters.Forall₂ Spells texts) : SpellsAll filters texts.flatten := by
  induction h with
  | nil => rfl
  | cons hspells h ih => exact ⟨_, _, hspells, ih, rfl⟩

theorem filter_ne_nil {filters : List SearchFilter} {texts : List QString}
    (h : filters.Forall₂ Spells texts) : texts.filter (· ≠ []) = texts := by
  rw [List.filter_eq_self]
  induction h with
  | nil => exact nofun
  | cons hspells h ih =>
    obtain ⟨rest, rfl⟩ := hspells.exists_cons
    exact List.forall_mem_cons.2 ⟨rfl, ih⟩

/-- Some filters are combined to a filter with the meaning of the operation; if the one of an
    operation on a single filter is that of the filter, it may stand by itself. -/
theorem exists_spells_filterOperation {operation : Char} {combine : List SearchFilter → SearchFilter}
    (hspells : ∀ filters body, filters ≠ [] → SpellsAll filters body →
      Spells (combine filters) ('(' :: operation :: (body ++ [')'])))
    (hsingle : ∀ filter rules entry,
      (combine [filter]).Matches rules entry ↔ filter.Matches rules entry)
    {filters : List SearchFilter} {texts : List QString} (h : filters.Forall₂ Spells texts)
    (hne : texts ≠ []) : ∃ filter, Spells filter (filterOperation operation texts) ∧
      ∀ rules entry, filter.Matches rules entry ↔ (combine filters).Matches rules entry := by
  rw [filterOperation, filter_ne_nil h]
  cases h with
  | nil => exact absurd rfl hne
  | cons hfirst h =>
    cases h with
    | nil => exact ⟨_, hfirst, fun rules entry => (hsingle _ rules entry).symm⟩
    | cons hsecond h =>
      have hall := spellsAll_flatten (.cons hfirst (.cons hsecond h))
      exact ⟨_, hspells _ _ (List.cons_ne_nil _ _) hall, fun _ _ => Iff.rfl⟩

/-- A conjunction of filters is a filter, and so is a single one. -/
theorem spells_filterAnd {filters : List SearchFilter} {texts : List QString}
    (h : filters.Forall₂ Spells texts) (hne : texts ≠ []) :
    ∃ filter, Spells filter (filterAnd texts) ∧ ∀ rules entry,
      filter.Matches rules entry ↔ ∀ f ∈ filters, f.Matches rules entry := by
  obtain ⟨filter, hfilter, hmatches⟩ := @exists_spells_filterOperation '&' SearchFilter.and
    (fun _ body hne hall => ⟨hne, body, hall, rfl⟩) (fun _ _ _ => and_iff_left trivial) _ _ h hne
  exact ⟨filter, hfilter, fun rules entry => (hmatches rules entry).trans matchesAll_iff⟩

/-- A disjunction of filters is a filter, and so is a single one. -/
theorem spells_filterOr {filters : List SearchFilter} {texts : List QString}
    (h : filters.Forall₂ Spells texts) (hne : texts ≠ []) :
    ∃ filter, Spells filter (filterOr texts) ∧ ∀ rules entry,
      filter.Matches rules entry ↔ ∃ f ∈ filters, f.Matches rules entry := by
  obtain ⟨filter, hfilter, hmatches⟩ := @exists_spells_filterOperation '|' SearchFilter.or
    (fun _ body hne hall => ⟨hne, body, hall, rfl⟩) (fun _ _ _ => or_iff_left not_false) _ _ h hne
  exact ⟨filter, hfilter, fun rules entry => (hmatches rules entry).trans matchesAny_iff⟩

/-- The attribute for DNs. -/
def distinguishedName : AttributeDescription where
  text := "distinguishedName".toList
  valid := by
    have hkeys : ∀ c ∈ "istinguishedName".toList, IsKeyChar c :=
      List.all_iff_forall_prop.1 (by decide)
    exact ⟨⟨"distinguishedName".toList, .inl ⟨'d', "istinguishedName".toList, rfl, rfl, hkeys⟩⟩,
      [], nofun, rfl⟩

/-- The filter for a list of DNs without characters of the syntax. -/
theorem spells_filterDnList {dnList : List QString} (hne : dnList ≠ [])
    (hplain : ∀ dn ∈ dnList, ∀ c ∈ dn, ¬IsSyntax c) :
    ∃ filter, Spells filter (filterDnList dnList) ∧ ∀ rules entry, filter.Matches rules entry ↔
      ∃ dn ∈ dnList, Condition.equals.Compares rules entry "distinguishedName".toList dn := by
  have hspells : (dnList.map fun dn => item (.equal distinguishedName [utf8 dn])).Forall₂ Spells
      (makeFilterList .equals "distinguishedName".toList dnList) := by
    rw [makeFilterList, List.forall₂_map_left_iff, List.forall₂_map_right_iff, List.forall₂_same]
    intro dn hdn
    exact spells_equal_iff.2 ⟨_, encodes_pieces .equals (hplain dn hdn), rfl⟩
  have hlist : makeFilterList .equals "distinguishedName".toList dnList ≠ [] := by
    simpa [makeFilterList] using hne
  obtain ⟨filter, hfilter, hmatches⟩ := spells_filterOr hspells hlist
  refine ⟨filter, hfilter, fun rules entry => (hmatches rules entry).trans ?_⟩
  simp only [List.mem_map, exists_exists_and_eq_and]
  refine exists_congr fun dn => and_congr_right fun _ => ?_
  exact @glob_pieces .equals (by decide) (by decide) rules entry "distinguishedName".toList dn

/-- The rule that goes all the way to the root. -/
def matchingRuleInChain : MatchingRule where
  oid :=
    { text := "1.2.840.113556.1.4.1941".toList
      valid := by
        have hnumber : ∀ number ∈ ["1", "2", "840", "113556", "1", "4", "1941"],
            number.toList ≠ [] ∧ number.toList.head? ≠ some '0' ∧
              number.toList.all Char.isDigit = true := List.all_iff_forall_prop.1 (by decide)
        refine .inr ⟨by decide, fun number hmem => .inr ?_⟩
        have hsplit : "1.2.840.113556.1.4.1941".toList.splitOn '.' =
            ["1", "2", "840", "113556", "1", "4", "1941"].map String.toList := by decide
        rw [hsplit] at hmem
        obtain ⟨part, hpart, rfl⟩ := List.mem_map.1 hmem
        obtain ⟨hne, hzero, hall⟩ := hnumber part hpart
        have hdigits := List.all_eq_true.1 hall
        obtain ⟨d, ds, htext⟩ := List.exists_cons_of_ne_nil hne
        rw [htext] at hzero hdigits ⊢
        exact ⟨d, ds, rfl, fun h => hzero (congrArg some h), hdigits⟩ }
  ne_dn := by decide

/-- The filter for a chain of ancestry to a DN without characters of the syntax. -/
theorem spells_filterMatchingRuleInChain (attr : AttributeDescription) {dnValue : QString}
    (hplain : ∀ c ∈ dnValue, ¬IsSyntax c) :
    Spells (.item (.extensible (some attr) false (some matchingRuleInChain) (utf8 dnValue)))
      (filterMatchingRuleInChain attr.text dnValue) := by
  refine ⟨_, ⟨.inl rfl, dnValue, ?_, .of_plain hplain⟩, rfl⟩
  rfl

/-! ## A value with an asterisk -/

/-- The attribute for names. -/
def cnAttribute : AttributeDescription where
  text := "CN".toList
  valid := ⟨.cn, [], nofun, rfl⟩

theorem matchesLiteral_iff_name :
    MatchesLiteral .startsWith cnAttribute.text "user".toList ↔
      ∀ c ∈ "user".toList, ¬IsSyntax c :=
  matchesLiteral_iff .startsWith cnAttribute "user".toList (by decide)

/-- Everything is found by a search for what is exactly an asterisk. -/
theorem not_matchesLiteral : ¬∀ (condition : Condition) (attr : AttributeDescription)
    (value : QString), condition.IsComparison → MatchesLiteral condition attr.text value := by
  intro h
  have hasterisk := (matchesLiteral_framed_iff (by decide) (by decide)).1
    (h .equals cnAttribute ['*'] (by decide))
  exact hasterisk '*' (List.mem_singleton_self _) (by decide)

end Admc
