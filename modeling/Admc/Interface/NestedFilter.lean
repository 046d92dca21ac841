import Admc.Interface.SearchCondition

/-!
# Filters of filters

Filters are put together from conditions and from the texts of other filters, in any nesting.
A part with an empty text is left out.

* `Means.filterAnd` and `Means.filterOr`: the text of an operation means what it says;
* `FilterTree.spells_filter`: and so does that of any nesting.
-/

namespace Admc

open SearchFilter

/-! ## Operations -/

/-- The text of a filter is matched. -/
def TextMatches (rules : MatchingRules) (entry : Entry) (text : QString) : Prop :=
  ∃ filter, Spells filter text ∧ filter.Matches rules entry

/-- A text is empty if nothing is asked for, and else it is a filter with a meaning. -/
structure Means (text : QString) (blank : Prop) (meaning : MatchingRules → Entry → Prop) :
    Prop where
  eq_nil_iff : text = [] ↔ blank
  spells : ¬blank → ∃ filter, Spells filter text
  matches_iff : ∀ filter, Spells filter text → ∀ rules entry,
    filter.Matches rules entry ↔ meaning rules entry

/-- The text of a subfilter is empty, or a filter. -/
def IsSubfilter (text : QString) : Prop := text = [] ∨ ∃ filter, Spells filter text

section
variable {text : QString} {blank : Prop} {meaning : MatchingRules → Entry → Prop}

theorem IsSubfilter.means (h : IsSubfilter text) :
    Means text (text = []) fun rules entry => TextMatches rules entry text where
  eq_nil_iff := Iff.rfl
  spells hne := h.resolve_left hne
  matches_iff filter hfilter rules entry := by
    refine ⟨fun hmatches => ⟨filter, hfilter, hmatches⟩, ?_⟩
    rintro ⟨filter', hfilter', hmatches⟩
    exact spells_inj hfilter' hfilter ▸ hmatches

theorem Means.textMatches_iff (h : Means text blank meaning) (hblank : ¬blank)
    (rules : MatchingRules) (entry : Entry) :
    TextMatches rules entry text ↔ meaning rules entry := by
  obtain ⟨filter, hfilter⟩ := h.spells hblank
  refine ⟨fun ⟨f, hf, hmatches⟩ => (h.matches_iff f hf rules entry).1 hmatches, fun hmeaning => ?_⟩
  exact ⟨filter, hfilter, (h.matches_iff filter hfilter rules entry).2 hmeaning⟩

theorem means_nil (hblank : blank) : Means [] blank meaning where
  eq_nil_iff := iff_of_true rfl hblank
  spells h := absurd hblank h
  matches_iff filter hfilter := by
    obtain ⟨rest, hrest⟩ := hfilter.exists_cons
    exact absurd hrest (List.cons_ne_nil _ _).symm

/-- One filter gives the meaning. -/
theorem means_of_spells {filter : SearchFilter} (hfilter : Spells filter text) (hblank : ¬blank)
    (hmatches : ∀ rules entry, filter.Matches rules entry ↔ meaning rules entry) :
    Means text blank meaning where
  eq_nil_iff := by
    obtain ⟨rest, rfl⟩ := hfilter.exists_cons
    exact iff_of_false (List.cons_ne_nil _ _) hblank
  spells _ := ⟨filter, hfilter⟩
  matches_iff filter' hfilter' rules entry := spells_inj hfilter hfilter' ▸ hmatches rules entry

end

section
variable {ι : Type*} {text : ι → QString} {blank : ι → Prop}
  {meaning : ι → MatchingRules → Entry → Prop} {parts : List ι}

/-- The parts whose texts are not empty, with their filters. -/
theorem exists_filters (h : ∀ i ∈ parts, Means (text i) (blank i) (meaning i)) :
    ∃ filters : List SearchFilter, filters.Forall₂ Spells ((parts.map text).filter (· ≠ [])) ∧
      ∀ rules entry, ((∀ filter ∈ filters, filter.Matches rules entry) ↔
          ∀ i ∈ parts, ¬blank i → meaning i rules entry) ∧
        ((∃ filter ∈ filters, filter.Matches rules entry) ↔
          ∃ i ∈ parts, ¬blank i ∧ meaning i rules entry) := by
  induction parts with
  | nil => exact ⟨[], .nil, by simp⟩
  | cons i parts ih =>
    rw [List.forall_mem_cons] at h
    obtain ⟨filters, hspells, hmatches⟩ := ih h.2
    by_cases hblank : blank i
    · refine ⟨filters, ?_, fun rules entry => ?_⟩
      · rw [List.map_cons, (h.1.eq_nil_iff).2 hblank]
        exact hspells
      · simp [hmatches rules entry, hblank]
    · obtain ⟨filter, hfilter⟩ := h.1.spells hblank
      refine ⟨filter :: filters, ?_, fun rules entry => ?_⟩
      · rw [List.map_cons, List.filter_cons_of_pos]
        · exact .cons hfilter hspells
        · exact decide_eq_true (mt h.1.eq_nil_iff.1 hblank)
      · simp [hmatches rules entry, hblank, h.1.matches_iff filter hfilter]

theorem filter_eq_nil_iff (h : ∀ i ∈ parts, Means (text i) (blank i) (meaning i)) :
    (parts.map text).filter (· ≠ []) = [] ↔ ∀ i ∈ parts, blank i := by
  rw [List.filter_eq_nil_iff, List.forall_mem_map]
  refine forall₂_congr fun i hi => ?_
  rw [decide_eq_true_iff, not_not, (h i hi).eq_nil_iff]

/-- What is left of the texts that are given to an operation. -/
theorem filterOperation_filter (operation : Char) (texts : List QString) :
    filterOperation operation (texts.filter (· ≠ [])) = filterOperation operation texts := by
  rw [filterOperation, filterOperation, List.filter_filter]
  simp

/-- A conjunction means that all its parts are matched which are not empty. -/
theorem Means.filterAnd (h : ∀ i ∈ parts, Means (text i) (blank i) (meaning i)) :
    Means (Admc.filterAnd (parts.map text)) (∀ i ∈ parts, blank i) fun rules entry =>
      ∀ i ∈ parts, ¬blank i → meaning i rules entry := by
  rw [Admc.filterAnd, ← filterOperation_filter, ← Admc.filterAnd]
  by_cases hblank : ∀ i ∈ parts, blank i
  · rw [(filter_eq_nil_iff h).2 hblank]
    exact means_nil hblank
  · obtain ⟨filters, hspells, hmatches⟩ := exists_filters h
    obtain ⟨filter, hfilter, hall⟩ :=
      spells_filterAnd hspells (mt (filter_eq_nil_iff h).1 hblank)
    exact means_of_spells hfilter hblank fun rules entry =>
      (hall rules entry).trans (hmatches rules entry).1

/-- A disjunction means that one of its parts is matched which are not empty. -/
theorem Means.filterOr (h : ∀ i ∈ parts, Means (text i) (blank i) (meaning i)) :
    Means (Admc.filterOr (parts.map text)) (∀ i ∈ parts, blank i) fun rules entry =>
      ∃ i ∈ parts, ¬blank i ∧ meaning i rules entry := by
  rw [Admc.filterOr, ← filterOperation_filter, ← Admc.filterOr]
  by_cases hblank : ∀ i ∈ parts, blank i
  · rw [(filter_eq_nil_iff h).2 hblank]
    exact means_nil hblank
  · obtain ⟨filters, hspells, hmatches⟩ := exists_filters h
    obtain ⟨filter, hfilter, hany⟩ :=
      spells_filterOr hspells (mt (filter_eq_nil_iff h).1 hblank)
    exact means_of_spells hfilter hblank fun rules entry =>
      (hany rules entry).trans (hmatches rules entry).2

end

/-! ## Conditions -/

/-- A condition that compares with a plain value, or with none. -/
def Condition.IsPlain (condition : Condition) (value : QString) : Prop :=
  condition.IsComparison → ∀ c ∈ value, ¬IsSyntax c

section
variable {condition : Condition} {attr : AttributeDescription} {value : QString}

/-- What is set has any value. -/
theorem spells_filterCondition_set (attr : AttributeDescription) (value : QString) :
    Spells (.item (.equal attr [[], []])) (filterCondition .set attr.text value) := by
  have htext :
      filterCondition .set attr.text value = '(' :: (attr.text ++ '=' :: ['*'] ++ [')']) := by
    rw [List.append_assoc]
    rfl
  rw [htext, spells_equal_iff]
  exact ⟨_, .cons .nil (.cons .nil .nil), rfl⟩

theorem matches_set_iff (rules : MatchingRules) (entry : Entry) :
    (SearchFilter.item (.equal attr [[], []])).Matches rules entry ↔ ∃ v, v ∈ entry attr.text := by
  refine exists_congr fun v => and_iff_left ?_
  rw [List.map_cons, List.map_cons, List.map_nil, rules.prepare_nil, glob_iff_startsWith]
  exact List.nil_prefix

theorem means_set : Means (filterCondition .set attr.text value) (Condition.set = .count)
    fun rules entry => Condition.set.Compares rules entry attr.text value :=
  means_of_spells (spells_filterCondition_set attr value) nofun matches_set_iff

theorem means_unset : Means (filterCondition .unset attr.text value) (Condition.unset = .count)
    fun rules entry => Condition.unset.Compares rules entry attr.text value := by
  have htext : filterCondition .unset attr.text value =
      '(' :: '!' :: (filterCondition .set attr.text value ++ [')']) := by
    simp [filterCondition]
  have hspells : Spells (.not (.item (.equal attr [[], []])))
      (filterCondition .unset attr.text value) :=
    ⟨_, spells_filterCondition_set attr value, htext⟩
  exact means_of_spells hspells nofun fun rules entry => not_congr (matches_set_iff rules entry)

/-- A condition without characters of the syntax means its comparison; the last value of the
    enumeration is none. -/
theorem means_filterCondition (h : condition.IsPlain value) :
    Means (filterCondition condition attr.text value) (condition = .count) fun rules entry =>
      condition.Compares rules entry attr.text value := by
  have hliteral (hcomparison : condition.IsComparison) :
      MatchesLiteral condition attr.text value := by
    by_cases hnot : condition = .notEquals
    · rw [hnot, matchesLiteral_notEquals_iff, matchesLiteral_framed_iff (by decide) (by decide)]
      exact h hcomparison
    · exact (matchesLiteral_framed_iff hcomparison hnot).2 (h hcomparison)
  cases condition
  case set => exact means_set
  case unset => exact means_unset
  case count => exact means_nil rfl
  all_goals
    obtain ⟨⟨filter, hfilter⟩, hmeaning⟩ := hliteral (by decide)
    exact means_of_spells hfilter nofun (hmeaning filter hfilter)

end

/-! ## Nesting -/

/-- How a filter is put together. -/
inductive FilterTree
  | text (subfilter : QString)
  | condition (condition : Condition) (attr : AttributeDescription) (value : QString)
  | and (subfilters : List FilterTree)
  | or (subfilters : List FilterTree)

namespace FilterTree

mutual

/-- The text of the filter. -/
def filter : FilterTree → QString
  | text subfilter => subfilter
  | condition c attr value => filterCondition c attr.text value
  | and subfilters => filterAnd (filters subfilters)
  | or subfilters => filterOr (filters subfilters)

/-- The texts of the subfilters. -/
def filters : List FilterTree → List QString
  | [] => []
  | tree :: trees => tree.filter :: filters trees

end

mutual

/-- The texts in it are empty or filters, and the values of its conditions are plain. (What a
    condition with another value makes may be a filter as well, and is then given as a text.) -/
def WellFormed : FilterTree → Prop
  | text subfilter => IsSubfilter subfilter
  | condition c _ value => c.IsPlain value
  | and subfilters => AllWellFormed subfilters
  | or subfilters => AllWellFormed subfilters

def AllWellFormed : List FilterTree → Prop
  | [] => True
  | tree :: trees => tree.WellFormed ∧ AllWellFormed trees

end

mutual

/-- Nothing is asked for. -/
def IsBlank : FilterTree → Prop
  | text subfilter => subfilter = []
  | condition c _ _ => c = .count
  | and subfilters => AllBlank subfilters
  | or subfilters => AllBlank subfilters

def AllBlank : List FilterTree → Prop
  | [] => True
  | tree :: trees => tree.IsBlank ∧ AllBlank trees

end

mutual

/-- What is asked for: all of a conjunction, or one of a disjunction, of what is not blank. -/
def Matches (rules : MatchingRules) (entry : Entry) : FilterTree → Prop
  | text subfilter => TextMatches rules entry subfilter
  | condition c attr value => c.Compares rules entry attr.text value
  | and subfilters => MatchesAll rules entry subfilters
  | or subfilters => MatchesAny rules entry subfilters

def MatchesAll (rules : MatchingRules) (entry : Entry) : List FilterTree → Prop
  | [] => True
  | tree :: trees => (¬tree.IsBlank → tree.Matches rules entry) ∧ MatchesAll rules entry trees

def MatchesAny (rules : MatchingRules) (entry : Entry) : List FilterTree → Prop
  | [] => False
  | tree :: trees => ¬tree.IsBlank ∧ tree.Matches rules entry ∨ MatchesAny rules entry trees

end

variable {rules : MatchingRules} {entry : Entry} {trees : List FilterTree}

theorem filters_eq_map (trees : List FilterTree) : filters trees = trees.map filter := by
  induction trees with
  | nil => rfl
  | cons tree trees ih => rw [filters, ih, List.map_cons]

theorem allBlank_iff : AllBlank trees ↔ ∀ tree ∈ trees, tree.IsBlank := by
  induction trees with
  | nil => exact iff_of_true trivial nofun
  | cons tree trees ih => rw [AllBlank, ih, List.forall_mem_cons]

theorem matchesAll_iff : MatchesAll rules entry trees ↔
    ∀ tree ∈ trees, ¬tree.IsBlank → tree.Matches rules entry := by
  induction trees with
  | nil => exact iff_of_true trivial nofun
  | cons tree trees ih => rw [MatchesAll, ih, List.forall_mem_cons]

theorem matchesAny_iff : MatchesAny rules entry trees ↔
    ∃ tree ∈ trees, ¬tree.IsBlank ∧ tree.Matches rules entry := by
  induction trees with
  | nil => exact iff_of_false id nofun
  | cons tree trees ih => rw [MatchesAny, ih, List.exists_mem_cons_iff]

/-- The text of an operation is empty if nothing is asked for in its parts, and else it is a
    filter that asks for what it says. -/
theorem means_and (h : ∀ tree ∈ trees,
    Means tree.filter tree.IsBlank fun rules entry => tree.Matches rules entry) :
    Means (filter (and trees)) (and trees).IsBlank fun rules entry =>
      (and trees).Matches rules entry := by
  simp only [filter, filters_eq_map, IsBlank, Matches, allBlank_iff, matchesAll_iff]
  exact .filterAnd h

theorem means_or (h : ∀ tree ∈ trees,
    Means tree.filter tree.IsBlank fun rules entry => tree.Matches rules entry) :
    Means (filter (or trees)) (or trees).IsBlank fun rules entry =>
      (or trees).Matches rules entry := by
  simp only [filter, filters_eq_map, IsBlank, Matches, allBlank_iff, matchesAny_iff]
  exact .filterOr h

mutual

/-- By the structure of the nesting: a text and a condition mean what they mean by
    themselves, and an operation means that of its parts. -/
theorem means : ∀ (tree : FilterTree), tree.WellFormed →
    Means tree.filter tree.IsBlank fun rules entry => tree.Matches rules entry
  | text _, h => h.means
  | condition _ _ _, h => means_filterCondition h
  | and subfilters, h => means_and (all_means subfilters h)
  | or subfilters, h => means_or (all_means subfilters h)

theorem all_means : ∀ (trees : List FilterTree), AllWellFormed trees → ∀ tree ∈ trees,
    Means tree.filter tree.IsBlank fun rules entry => tree.Matches rules entry
  | [], _ => nofun
  | tree :: trees, h =>
    List.forall_mem_cons.2 ⟨means tree h.1, all_means trees h.2⟩

end

/-- The text of any nesting of operations, conditions and other filters is empty if nothing is
    asked for in it; and else it is a filter, which is matched just by the entries that are
    asked for. -/
theorem spells_filter (tree : FilterTree) (h : tree.WellFormed) :
    (tree.filter = [] ↔ tree.IsBlank) ∧ (¬tree.IsBlank → ∃ filter, Spells filter tree.filter ∧
      ∀ rules entry, filter.Matches rules entry ↔ tree.Matches rules entry) := by
  refine ⟨(means tree h).eq_nil_iff, fun hblank => ?_⟩
  obtain ⟨filter, hfilter⟩ := (means tree h).spells hblank
  exact ⟨filter, hfilter, (means tree h).matches_iff filter hfilter⟩

/-- An empty text in a conjunction with a disjunction. -/
def cnTree : FilterTree :=
  and [text [], or [condition .equals cnAttribute "user".toList, condition .set cnAttribute []]]

example : cnTree.filter = "(|(CN=user)(CN=*))".toList := by decide

theorem spells_filter_cnTree :
    (cnTree.filter = [] ↔ cnTree.IsBlank) ∧ (¬cnTree.IsBlank → ∃ filter,
      Spells filter cnTree.filter ∧
      ∀ rules entry, filter.Matches rules entry ↔ cnTree.Matches rules entry) :=
  spells_filter cnTree
    ⟨.inl rfl, ⟨fun _ => List.all_iff_forall_prop.1 (by decide), nofun, trivial⟩, trivial⟩

end FilterTree

end Admc
