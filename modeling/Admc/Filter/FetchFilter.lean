import Admc.Filter.ConsoleFilter
import Admc.Interface.NestedFilter

/-!
# What is shown below an object

When an object is fetched in the console, its children are searched with a filter that is put
together from the filter of the console, the classes of containers, and the setting for advanced
features.

* `fetch_iff`: what the filter of the search means, for any filter of the console;
* `fetch_of_dialog`: so after a dialog for the filter has been accepted, whatever is opened and
  cancelled and however often the program is restarted, a child is shown if it is what the dialog
  asks for or a container, and is not for advanced users only. A dialog that asks for nothing in
  particular, with no class or no condition, shows the containers only.
-/

namespace Admc

open SearchFilter

/-! ## The search -/

/-- What `ObjectImpl::fetch` reads of the configuration and of the settings. -/
structure FetchConfig where
  filterContainers : List QString
  domainDn : QString
  configurationDn : QString
  schemaDn : QString
  advancedFeatures : Bool
  devMode : Bool

/-- `is_container_filter`. -/
def isContainerFilter (config : FetchConfig) : QString := getClassesFilter config.filterContainers

/-- `advanced_features_filter`. -/
def advancedFeaturesFilter (config : FetchConfig) (filter : QString) : QString :=
  if !config.advancedFeatures then
    filterAnd [filter,
      filterCondition .notEquals "showInAdvancedViewOnly".toList "TRUE".toList]
  else filter

/-- `AdConfig::get_site_related_classes`. -/
def getSiteRelatedClasses : List String :=
  ["sitesContainer", "site", "interSiteTransportContainer", "interSiteTransport",
    "subnetContainer", "subnet", "serversContainer", "server", "nTDSSiteSettings", "siteLink",
    "siteLinkBridge", "nTDSDSA"]

/-- The objects that `dev_mode_search_results` adds. -/
def devModeSearchResults (config : FetchConfig) (base : QString) : List QString :=
  if !config.devMode then []
  else if base = config.domainDn then [config.configurationDn]
  else if base = config.configurationDn then [config.schemaDn]
  else []

/-- A search below an object: one level, after what is added in the dev mode. -/
structure FetchSearch where
  base : QString
  filter : QString
  devModeResults : List QString

/-- The class of the object is neither of sites nor the container of password settings. -/
def HidesAdvanced (fetchedObjClass : String) : Prop :=
  fetchedObjClass ∉ getSiteRelatedClasses ∧ fetchedObjClass ≠ "msDS-PasswordSettingsContainer"

instance (fetchedObjClass : String) : Decidable (HidesAdvanced fetchedObjClass) :=
  inferInstanceAs (Decidable (_ ∧ _))

/-- The filter of the console, or else containers, in `ObjectImpl::fetch`. -/
def objectsFilter (config : FetchConfig) (s : ConsoleFilter) : QString :=
  if s.objectFilterEnabled then
    let filter := filterOr [isContainerFilter config, []]
    filterOr [s.objectFilter, filter]
  else []

/-- `ObjectImpl::fetch`: nothing is searched below an object whose classes are not known. -/
def fetch (config : FetchConfig) (s : ConsoleFilter) (base : QString) (fetched : List String) :
    Option FetchSearch :=
  let filter := objectsFilter config s
  fetched.getLast?.map fun fetchedObjClass =>
    let filter :=
      if HidesAdvanced fetchedObjClass then advancedFeaturesFilter config filter else filter
    ⟨base, filter, devModeSearchResults config base⟩

/-- A search finds an entry. Without a filter, all entries are found. -/
def FetchSearch.Finds (search : FetchSearch) (rules : MatchingRules) (entry : Entry) : Prop :=
  search.filter = [] ∨ TextMatches rules entry search.filter

/-! ## What it means -/

section
variable (rules : MatchingRules) (entry : Entry)

/-- The entry is of a class. -/
def HasObjectClass (objectClass : QString) : Prop :=
  Condition.Compares rules entry "objectClass".toList objectClass .equals

/-- The entry is for advanced users only. -/
def IsAdvanced : Prop :=
  Condition.Compares rules entry "showInAdvancedViewOnly".toList "TRUE".toList .equals

end

section
variable {text text' : QString} {blank blank' : Prop}
  {meaning meaning' : MatchingRules → Entry → Prop}

theorem Means.congr (h : Means text blank meaning) (hblank : blank ↔ blank')
    (hmeaning : ∀ rules entry, meaning rules entry ↔ meaning' rules entry) :
    Means text blank' meaning' where
  eq_nil_iff := h.eq_nil_iff.trans hblank
  spells hnot := h.spells (mt hblank.1 hnot)
  matches_iff filter hfilter rules entry :=
    (h.matches_iff filter hfilter rules entry).trans (hmeaning rules entry)

/-- What a search with a text finds. -/
theorem Means.finds_iff (h : Means text blank meaning) (rules : MatchingRules) (entry : Entry) :
    (text = [] ∨ TextMatches rules entry text) ↔ (¬blank → meaning rules entry) := by
  by_cases hblank : blank
  · exact iff_of_true (.inl (h.eq_nil_iff.2 hblank)) fun hnot => absurd hblank hnot
  · rw [or_iff_right (mt h.eq_nil_iff.1 hblank), h.textMatches_iff hblank,
      forall_prop_of_true hblank]

/-- Two parts of a disjunction. -/
theorem Means.or (h : Means text blank meaning) (h' : Means text' blank' meaning') :
    Means (Admc.filterOr [text, text']) (blank ∧ blank') fun rules entry =>
      ¬blank ∧ meaning rules entry ∨ ¬blank' ∧ meaning' rules entry := by
  have hparts : ∀ i ∈ [false, true], Means (cond i text' text) (cond i blank' blank)
      (cond i meaning' meaning) := by
    intro i _
    cases i
    · exact h
    · exact h'
  exact (Means.filterOr hparts).congr (by simp) fun rules entry => by simp

/-- Two parts of a conjunction. -/
theorem Means.and (h : Means text blank meaning) (h' : Means text' blank' meaning') :
    Means (Admc.filterAnd [text, text']) (blank ∧ blank') fun rules entry =>
      (¬blank → meaning rules entry) ∧ (¬blank' → meaning' rules entry) := by
  have hparts : ∀ i ∈ [false, true], Means (cond i text' text) (cond i blank' blank)
      (cond i meaning' meaning) := by
    intro i _
    cases i
    · exact h
    · exact h'
  exact (Means.filterAnd hparts).congr (by simp) fun rules entry => by simp

end

/-- A name is an attribute without options. -/
theorem valid_of_isDescr {text : List Char} (h : Dn.IsDescr text) :
    ∃ (type : Dn.AttributeType) (options : List (List Char)),
      (∀ option ∈ options, option ≠ [] ∧ ∀ c ∈ option, IsKeyChar c) ∧
        text = type.text ++ options.flatMap (';' :: ·) :=
  ⟨⟨text, .inl h⟩, [], fun _ hmem => absurd hmem List.not_mem_nil, (List.append_nil text).symm⟩

/-- An attribute without options. -/
def plainAttribute (text : List Char) (h : Dn.IsDescr text) : AttributeDescription :=
  ⟨text, valid_of_isDescr h⟩

section
variable {classes : List QString} {rules : MatchingRules} {entry : Entry}

/-- The filter for some classes. -/
theorem means_getClassesFilter (h : ∀ objectClass ∈ classes, ∀ c ∈ objectClass, ¬IsSyntax c) :
    Means (getClassesFilter classes) (classes = []) fun rules entry =>
      ∃ objectClass ∈ classes, HasObjectClass rules entry objectClass := by
  let attr : AttributeDescription := plainAttribute "objectClass".toList
    ⟨'o', "bjectClass".toList, rfl, rfl, List.all_iff_forall_prop.1 (by decide)⟩
  have hparts : ∀ objectClass ∈ classes,
      Means (filterCondition .equals attr.text objectClass) (Condition.equals = .count)
        fun rules entry => Condition.equals.Compares rules entry attr.text objectClass :=
    fun objectClass hclass => means_filterCondition fun _ => h objectClass hclass
  refine (Means.filterOr hparts).congr ?_ fun rules entry => ?_
  · rw [List.eq_nil_iff_forall_not_mem]
    exact forall₂_congr fun _ _ => iff_of_false nofun not_false
  · simp [HasObjectClass, attr, plainAttribute]

theorem means_notAdvanced : Means
    (filterCondition .notEquals "showInAdvancedViewOnly".toList "TRUE".toList) False
    fun rules entry => ¬IsAdvanced rules entry := by
  let attr : AttributeDescription := plainAttribute "showInAdvancedViewOnly".toList
    ⟨'s', "howInAdvancedViewOnly".toList, rfl, rfl, List.all_iff_forall_prop.1 (by decide)⟩
  have hplain : Condition.notEquals.IsPlain "TRUE".toList :=
    fun _ => List.all_iff_forall_prop.1 (by decide)
  exact (@means_filterCondition .notEquals attr "TRUE".toList hplain).congr
    (iff_of_false nofun not_false) fun _ _ => Iff.rfl

/-- What is known of the classes of containers: there are some, and their names are plain. -/
structure FetchConfig.Regular (config : FetchConfig) : Prop where
  ne_nil : config.filterContainers ≠ []
  plain : ∀ objectClass ∈ config.filterContainers, ∀ c ∈ objectClass, ¬IsSyntax c

/-- The entry is a container. -/
def IsContainer (rules : MatchingRules) (entry : Entry) (config : FetchConfig) : Prop :=
  ∃ objectClass ∈ config.filterContainers, HasObjectClass rules entry objectClass

/-- The entry is what the filter of the console asks for. A filter without text asks for nothing. -/
def IsAskedFor (rules : MatchingRules) (entry : Entry) (s : ConsoleFilter) : Prop :=
  s.objectFilter ≠ [] ∧ TextMatches rules entry s.objectFilter

variable {config : FetchConfig} {s : ConsoleFilter}

theorem means_objectsFilter (hconfig : config.Regular)
    (hfilter : s.objectFilterEnabled = true → IsSubfilter s.objectFilter) :
    Means (objectsFilter config s) (s.objectFilterEnabled = false) fun rules entry =>
      IsAskedFor rules entry s ∨ IsContainer rules entry config := by
  rw [objectsFilter]
  cases henabled : s.objectFilterEnabled with
  | false => exact means_nil rfl
  | true =>
    have hcontainers := (means_getClassesFilter hconfig.plain).or
      (@means_nil True (fun _ _ => True) trivial)
    refine ((hfilter henabled).means.or hcontainers).congr ?_ fun rules entry => ?_
    · simp [hconfig.ne_nil]
    · simp [hconfig.ne_nil, IsAskedFor, IsContainer]

/-- What the filter of the search means, for any filter of the console. -/
theorem fetch_iff {base : QString} {fetched : List String} {search : FetchSearch}
    (hconfig : config.Regular)
    (hfilter : s.objectFilterEnabled = true → IsSubfilter s.objectFilter)
    (h : fetch config s base fetched = some search) :
    search.Finds rules entry ↔
      (s.objectFilterEnabled = true → IsAskedFor rules entry s ∨ IsContainer rules entry config) ∧
      (config.advancedFeatures = false →
        (∀ objectClass ∈ fetched.getLast?, HidesAdvanced objectClass) →
          ¬IsAdvanced rules entry) := by
  have hmeans := means_objectsFilter hconfig hfilter
  obtain ⟨fetchedObjClass, hclass, rfl⟩ := Option.map_eq_some_iff.1 h
  have hlast : (∀ objectClass ∈ fetched.getLast?, HidesAdvanced objectClass) ↔
      HidesAdvanced fetchedObjClass := by simp [hclass]
  rw [FetchSearch.Finds, hlast]
  dsimp only
  by_cases hadvanced : HidesAdvanced fetchedObjClass ∧ config.advancedFeatures = false
  · rw [if_pos hadvanced.1, advancedFeaturesFilter, hadvanced.2]
    exact ((hmeans.and means_notAdvanced).finds_iff rules entry).trans (by simp [hadvanced.1])
  · have hsame : (if HidesAdvanced fetchedObjClass then
        advancedFeaturesFilter config (objectsFilter config s) else objectsFilter config s) =
          objectsFilter config s := by
      split_ifs with hhides
      · have hon : config.advancedFeatures = true := by simpa [hhides] using hadvanced
        rw [advancedFeaturesFilter, hon]
        rfl
      · rfl
    rw [hsame, hmeans.finds_iff]
    refine (iff_of_eq (by simp)).trans (and_iff_left ?_).symm
    exact fun hoff hhides => absurd ⟨hhides, hoff⟩ hadvanced

end

/-! ## After a dialog -/

namespace ConsoleFilterDialog

variable (rules : MatchingRules) (entry : Entry) (d : ConsoleFilterDialog)

/-- The entry is what the dialog asks for. -/
def Asks : Prop :=
  match d.checkedButton with
  | .all => True
  | .classes => ∃ objectClass ∈ classListForWidget,
      d.classFilterWidget.checkboxMap objectClass = true ∧
        HasObjectClass rules entry objectClass.toList
  | .custom => d.customFilter ≠ [] ∧ TextMatches rules entry d.customFilter

variable {rules entry d}

theorem means_classFilterWidget (w : ClassFilterWidget classListForWidget) :
    Means w.getFilter (∀ objectClass ∈ classListForWidget, ¬w.checkboxMap objectClass = true)
      fun rules entry => ∃ objectClass ∈ classListForWidget,
        w.checkboxMap objectClass = true ∧ HasObjectClass rules entry objectClass.toList := by
  have hall : ∀ objectClass ∈ classListForWidget,
      (objectClass.toList.all fun c => ¬IsSyntax c) = true := by decide
  have hplain : ∀ objectClass ∈ (classListForWidget.filter w.checkboxMap).map String.toList,
      ∀ c ∈ objectClass, ¬IsSyntax c := by
    intro text htext
    obtain ⟨objectClass, hclass, rfl⟩ := List.mem_map.1 htext
    exact List.all_iff_forall_prop.1 (hall objectClass (List.mem_of_mem_filter hclass))
  refine (means_getClassesFilter hplain).congr ?_ fun rules entry => ?_
  · rw [List.map_eq_nil_iff, List.filter_eq_nil_iff]
  · constructor
    · rintro ⟨text, htext, hhas⟩
      obtain ⟨objectClass, hfilter, rfl⟩ := List.mem_map.1 htext
      obtain ⟨hclass, hchecked⟩ := List.mem_filter.1 hfilter
      exact ⟨objectClass, hclass, hchecked, hhas⟩
    · rintro ⟨objectClass, hclass, hchecked, hhas⟩
      exact ⟨_, List.mem_map_of_mem (List.mem_filter.2 ⟨hclass, hchecked⟩), hhas⟩

/-- What is accepted asks for what the dialog asks for. -/
theorem isAskedFor_accepted {config : FetchConfig} (names : ButtonStateNames) :
    ((ConsoleFilter.accepted names d).objectFilterEnabled = true →
      IsAskedFor rules entry (ConsoleFilter.accepted names d) ∨ IsContainer rules entry config) ↔
        d.Asks rules entry ∨ IsContainer rules entry config := by
  have henabled : (ConsoleFilter.accepted names d).objectFilterEnabled = d.getFilterEnabled := rfl
  have hfilter : (ConsoleFilter.accepted names d).objectFilter = d.getFilter := rfl
  rw [IsAskedFor, henabled, hfilter, getFilterEnabled, getFilter, Asks]
  cases d.checkedButton with
  | all => simp
  | classes =>
    have hmeans := means_classFilterWidget d.classFilterWidget
    rw [forall_prop_of_true (by decide)]
    refine or_congr_left ?_
    dsimp only
    rw [Ne, hmeans.eq_nil_iff]
    constructor
    · rintro ⟨hblank, hmatches⟩
      exact (hmeans.textMatches_iff hblank rules entry).1 hmatches
    · intro hasked
      have hblank : ¬∀ objectClass ∈ classListForWidget,
          ¬d.classFilterWidget.checkboxMap objectClass = true := by
        obtain ⟨objectClass, hclass, hchecked, -⟩ := hasked
        exact fun hnone => hnone objectClass hclass hchecked
      exact ⟨hblank, (hmeans.textMatches_iff hblank rules entry).2 hasked⟩
  | custom => simp

theorem isSubfilter_accepted (names : ButtonStateNames)
    (hcustom : d.checkedButton = .custom → IsSubfilter d.customFilter)
    (henabled : (ConsoleFilter.accepted names d).objectFilterEnabled = true) :
    IsSubfilter (ConsoleFilter.accepted names d).objectFilter := by
  have henabled' : decide (d.checkedButton ≠ .all) = true := henabled
  show IsSubfilter d.getFilter
  rw [getFilter]
  cases hbutton : d.checkedButton with
  | all => exact absurd hbutton (of_decide_eq_true henabled')
  | custom => exact hcustom hbutton
  | classes =>
    have hmeans := means_classFilterWidget d.classFilterWidget
    by_cases hnil : d.classFilterWidget.getFilter = []
    · exact .inl hnil
    · exact .inr (hmeans.spells (mt hmeans.eq_nil_iff.2 hnil))

end ConsoleFilterDialog

namespace ConsoleFilter

variable {names : ButtonStateNames} {s : ConsoleFilter}

/-- The filter in effect stays over restarts, and when dialogs are cancelled. -/
theorem foldl_handle_same {later : List ConsoleFilterEvent} (h : s.Stored)
    (hlater : ∀ event ∈ later, event = .restart ∨ ∃ changes, event = .dialog changes false) :
    (later.foldl (handle names) s).objectFilter = s.objectFilter ∧
      (later.foldl (handle names) s).objectFilterEnabled = s.objectFilterEnabled := by
  induction later generalizing s with
  | nil => exact ⟨rfl, rfl⟩
  | cons event later ih =>
    rw [List.forall_mem_cons] at hlater
    obtain ⟨hfilter, henabled⟩ := ih (@Stored.handle names s event h) hlater.2
    obtain rfl | ⟨changes, rfl⟩ := hlater.1
    · exact ⟨hfilter.trans h.objectFilter.symm, henabled.trans h.objectFilterEnabled.symm⟩
    · exact ⟨hfilter, henabled⟩

end ConsoleFilter

/-- After a dialog for the filter has been accepted, and until another one is, a fetch shows what
    the dialog asks for, and containers, but for what is for advanced users only. -/
theorem fetch_of_dialog (names : ButtonStateNames) (config : FetchConfig) (s : ConsoleFilter)
    (changes : List ConsoleFilterChange) (later : List ConsoleFilterEvent) (base : QString)
    (fetched : List String) (search : FetchSearch) (rules : MatchingRules) (entry : Entry)
    (hconfig : config.Regular)
    (hlater : ∀ event ∈ later, event = .restart ∨ ∃ changes, event = .dialog changes false)
    (hcustom : ((s.openDialog names).run changes).checkedButton = .custom →
      IsSubfilter ((s.openDialog names).run changes).customFilter)
    (h : fetch config (later.foldl (ConsoleFilter.handle names)
      (s.handle names (.dialog changes true))) base fetched = some search) :
    search.Finds rules entry ↔
      (((s.openDialog names).run changes).Asks rules entry ∨ IsContainer rules entry config) ∧
      (config.advancedFeatures = false →
        (∀ objectClass ∈ fetched.getLast?, HidesAdvanced objectClass) →
          ¬IsAdvanced rules entry) := by
  have hstored : (s.handle names (.dialog changes true)).Stored := ⟨rfl, rfl⟩
  obtain ⟨hfilter, henabled⟩ := @ConsoleFilter.foldl_handle_same names _ later hstored hlater
  rw [fetch_iff hconfig ?_ h, IsAskedFor, hfilter, henabled]
  · exact and_congr_left' (ConsoleFilterDialog.isAskedFor_accepted names)
  · rw [hfilter, henabled]
    exact ConsoleFilterDialog.isSubfilter_accepted names hcustom

/-- A domain with one class of containers. -/
def oneContainerClass : FetchConfig :=
  ⟨["domainDNS".toList], "DC=test".toList, [], [], false, false⟩

/-- The attributes of a user. -/
def userEntry : Entry := fun attr =>
  if attr = "objectClass".toList then [utf8 "user".toList] else []

/-- Users are asked for in a dialog, and another one is cancelled. -/
theorem fetch_of_dialog_users : ∃ search, fetch oneContainerClass
    ([.dialog [.check .all] false].foldl (ConsoleFilter.handle buttonsInOrder)
      (firstStart.handle buttonsInOrder (.dialog [.check .classes, .setClass "user" true] true)))
    "DC=test".toList ["top", "domainDNS"] = some search ∧ search.Finds octetRules userEntry := by
  have hconfig : oneContainerClass.Regular := by
    refine ⟨List.cons_ne_nil _ _, fun objectClass hclass => ?_⟩
    obtain rfl := List.mem_singleton.1 hclass
    exact List.all_iff_forall_prop.1 (by decide)
  have hlater : ∀ event ∈ [ConsoleFilterEvent.dialog [.check .all] false],
      event = .restart ∨ ∃ changes, event = .dialog changes false := by
    intro event hevent
    obtain rfl := List.mem_singleton.1 hevent
    exact .inr ⟨_, rfl⟩
  refine ⟨_, rfl, ?_⟩
  refine (fetch_of_dialog buttonsInOrder oneContainerClass firstStart
    [.check .classes, .setClass "user" true] [.dialog [.check .all] false] "DC=test".toList
    ["top", "domainDNS"] _ octetRules userEntry hconfig hlater ?_ rfl).2 ⟨.inl ?_, fun _ _ => ?_⟩
  · intro hcustom
    cases hcustom
  · refine ⟨"user", by decide, rfl, utf8 "user".toList, ?_, rfl⟩
    exact List.mem_singleton_self _
  · rintro ⟨v, hv, -⟩
    exact absurd hv (by simp [userEntry])

end Admc
