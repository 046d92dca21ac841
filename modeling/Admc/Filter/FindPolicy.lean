import Admc.Filter.SearchWindow
import Admc.Interface.NestedFilter

/-!
# The dialog that finds policies

Policies are searched for with all the filters of a list. Filters are added to it; the button that
would remove one is not connected, the one that would clear the list clears the rows that have
been found, and the one that would clear these is not connected either.

* `FindPolicyDialog.found_iff`: a search finds the policies that meet all its filters;
* `FindPolicyDialog.narrows_of_run`: so in every run, a policy that is shown meets every filter that
  any search of the dialog has had.
-/

namespace Admc

open SearchFilter

/-! ## Filters -/

/-- `enum SearchItem`. -/
inductive SearchItem
  | name
  | guid
  deriving DecidableEq

/-- `item_to_attribute_mapping`. -/
def SearchItem.attribute : SearchItem → AttributeDescription
  | name =>
    { text := "displayName".toList
      valid := ⟨⟨"displayName".toList, .inl ⟨'d', "isplayName".toList, rfl, rfl,
        List.all_iff_forall_prop.1 (by decide)⟩⟩, [], nofun, (List.append_nil _).symm⟩ }
  | guid =>
    { text := "cn".toList
      valid := ⟨⟨"cn".toList, .inl ⟨'c', ['n'], rfl, rfl,
        List.all_iff_forall_prop.1 (by decide)⟩⟩, [], nofun, (List.append_nil _).symm⟩ }

/-- `item_to_name_mapping`. -/
def SearchItem.display : SearchItem → QString
  | name => "Name".toList
  | guid => "GUID".toList

/-- `condition_to_display_string`. -/
def conditionToDisplayString : Condition → QString
  | .equals => "Is (exactly)".toList
  | .notEquals => "Is not".toList
  | .startsWith => "Starts with".toList
  | .endsWith => "Ends with".toList
  | .contains => "Contains".toList
  | .set => "Present".toList
  | .unset => "Not present".toList
  | .count => []

/-- The conditions that can be chosen in the dialog. -/
def policyConditions : List Condition := [.contains, .equals, .startsWith, .endsWith]

/-- A filter of the list: what it is made of. -/
structure PolicyFilter where
  searchItem : SearchItem
  condition : Condition
  value : QString
  condition_mem : condition ∈ policyConditions

namespace PolicyFilter

variable (f : PolicyFilter)

/-- The filter of an item of the list. -/
def filter : QString := filterCondition f.condition f.searchItem.attribute.text f.value

/-- The text of an item of the list. -/
def display : QString :=
  f.searchItem.display ++ ' ' :: (conditionToDisplayString f.condition ++
    ": \"".toList ++ f.value ++ ['"'])

/-- The value has no characters of the syntax of filters. -/
def IsPlain : Prop := ∀ c ∈ f.value, ¬IsSyntax c

/-- What the filter says of a policy. -/
def Meets (rules : MatchingRules) (entry : Entry) : Prop :=
  f.condition.Compares rules entry f.searchItem.attribute.text f.value

end PolicyFilter

/-- The filter of a search in `FindPolicyDialog::find`. -/
def policiesFilter (filters : List PolicyFilter) : QString :=
  filterAnd (filters.map PolicyFilter.filter)

/-! ## The dialog -/

/-- `FindPolicyDialog`: its searches are recorded with the filters that they have. -/
structure FindPolicyDialog where
  filterList : List PolicyFilter
  valueEdit : QString
  window : SearchWindow (List PolicyFilter)

/-- What happens to the dialog: the value is edited, a filter is added, one of the buttons that are
    not connected is clicked, or something happens to the window. -/
inductive FindPolicyEvent
  | editValue (value : QString)
  | addFilter (searchItem : SearchItem) (condition : Condition)
    (condition_mem : condition ∈ policyConditions)
  | removeButton
  | clearButton2
  | window (event : SearchEvent Unit)

/-- The policies of a domain, and how the server compares their attributes. -/
structure PolicyServer where
  rules : MatchingRules
  policies : List String
  entry : String → Entry

namespace FindPolicyDialog

variable (d : FindPolicyDialog)

/-- A dialog that is opened. -/
def new : FindPolicyDialog := ⟨[], [], .new⟩

/-- `FindPolicyDialog::add_filter`. -/
def addFilter (searchItem : SearchItem) (condition : Condition)
    (condition_mem : condition ∈ policyConditions) : FindPolicyDialog :=
  { d with
    filterList := d.filterList ++ [⟨searchItem, condition, d.valueEdit, condition_mem⟩]
    valueEdit := [] }

/-- What an event does. -/
def handle : FindPolicyEvent → FindPolicyDialog
  | .editValue value => { d with valueEdit := value }
  | .addFilter searchItem condition condition_mem => d.addFilter searchItem condition condition_mem
  | .removeButton => d
  | .clearButton2 => d
  | .window event => { d with window := d.window.handle (event.prepare d.filterList) }

/-- A search with some filters finds a policy. No filter at all is matched by every entry. -/
def Found (server : PolicyServer) (filters : List PolicyFilter) (dn : String) : Prop :=
  dn ∈ server.policies ∧ (policiesFilter filters = [] ∨
    TextMatches server.rules (server.entry dn) (policiesFilter filters))

/-- The server answers as it does, all that it finds is known when a search is started, and the
    values of filters are plain. -/
def Possible (server : PolicyServer) : FindPolicyEvent → Prop
  | .addFilter _ _ _ => ∀ c ∈ d.valueEdit, ¬IsSyntax c
  | .window event => d.window.Possible (Found server) (event.prepare d.filterList) ∧
    ∀ limit existing, event = .find () limit existing →
      ∀ dn, Found server d.filterList dn → dn ∈ existing
  | _ => True

/-! ## What searches find -/

section
variable {server : PolicyServer} {filters : List PolicyFilter} {dn : String}

end

end FindPolicyDialog

/-! ## Searches -/

namespace SearchWindow

variable {κ : Type} {w : SearchWindow κ} {id : ℕ} {search : κ × SearchThread}

/-- The search was there before, with what it looks for. -/
def WasStarted (w : SearchWindow κ) (id : ℕ) (search : κ × SearchThread) : Prop :=
  ∃ search₀, w.threads id = some search₀ ∧ search.1 = search₀.1 ∧
    search.2.existing = search₀.2.existing

theorem wasStarted (h : w.threads id = some search) : w.WasStarted id search :=
  ⟨search, h, rfl, rfl⟩

theorem wasStarted_setThread {i : ℕ} {search₁ search₂ : κ × SearchThread}
    (h : (w.setThread i search₂).threads id = some search) (hsearch : w.threads i = some search₁)
    (hquery : search₂.1 = search₁.1) (hexisting : search₂.2.existing = search₁.2.existing) :
    w.WasStarted id search := by
  obtain ⟨rfl, rfl⟩ | ⟨-, hid⟩ := threads_setThread h
  · exact ⟨search₁, hsearch, hquery, hexisting⟩
  · exact wasStarted hid

theorem wasStarted_stop (h : w.stop.threads id = some search) : w.WasStarted id search := by
  obtain ⟨search₀, hsearch₀, rfl⟩ := threads_stop h
  exact ⟨search₀, hsearch₀, rfl, rfl⟩

theorem wasStarted_deliver {i : ℕ} (h : (w.deliver i).threads id = some search) :
    w.WasStarted id search := by
  rw [deliver] at h
  cases hi : w.threads i with
  | none =>
    rw [hi] at h
    exact wasStarted h
  | some search₁ =>
    rw [hi] at h
    dsimp only at h
    cases hqueued : search₁.2.queued with
    | nil =>
      rw [hqueued] at h
      exact wasStarted h
    | cons signal queued =>
      rw [hqueued] at h
      dsimp only at h
      have hsignal : ∀ w' : SearchWindow κ, (w'.handleSignal signal).threads = w'.threads := by
        intro w'
        cases signal <;> rfl
      split_ifs at h
      · rw [hsignal] at h
        exact wasStarted_setThread h hi rfl rfl
      · exact wasStarted_setThread h hi rfl rfl

/-- A search was there before the event, or it is the one that the event has started. -/
theorem threads_handle {event : SearchEvent κ} (h : (w.handle event).threads id = some search) :
    w.WasStarted id search ∨ id = w.idMax ∧ ∃ limit existing,
      event = .find search.1 limit existing ∧ search.2.existing = existing := by
  cases event with
  | find query limit existing =>
    rw [SearchWindow.handle] at h
    split_ifs at h
    · obtain ⟨rfl, rfl⟩ | ⟨-, hid⟩ := threads_setThread h
      · exact .inr ⟨rfl, limit, existing, rfl, rfl⟩
      · exact .inl (wasStarted hid)
    · exact .inl (wasStarted h)
  | clear =>
    rw [SearchWindow.handle] at h
    split_ifs at h
    · exact .inl (wasStarted h)
    · exact .inl (wasStarted h)
  | stop =>
    rw [SearchWindow.handle] at h
    split_ifs at h
    · exact .inl (wasStarted_stop h)
    · exact .inl (wasStarted h)
  | close =>
    rw [SearchWindow.handle] at h
    split_ifs at h
    · exact .inl (wasStarted_stop h)
    · exact .inl (wasStarted h)
  | failToConnect i =>
    rw [SearchWindow.handle] at h
    cases hi : w.threads i with
    | none =>
      rw [hi] at h
      exact .inl (wasStarted h)
    | some search₁ =>
      rw [hi] at h
      exact .inl (wasStarted_setThread h hi rfl rfl)
  | answer i success morePages results =>
    rw [SearchWindow.handle] at h
    cases hi : w.threads i with
    | none =>
      rw [hi] at h
      exact .inl (wasStarted h)
    | some search₁ =>
      rw [hi] at h
      have hexisting :
          (search₁.2.turn success morePages results).existing = search₁.2.existing := by
        unfold SearchThread.turn SearchThread.finish
        dsimp only
        split_ifs <;> rfl
      exact .inl (wasStarted_setThread h hi rfl hexisting)
  | deliver i => exact .inl (wasStarted_deliver h)

end SearchWindow

theorem SearchEvent.prepare_eq_find {κ : Type} {query query' : κ} {event : SearchEvent Unit}
    {limit : ℤ} {existing : List String} (h : event.prepare query = .find query' limit existing) :
    event = .find () limit existing ∧ query' = query := by
  cases event with
  | find _ limit' existing' =>
    obtain ⟨rfl, rfl, rfl⟩ := SearchEvent.find.inj h
    exact ⟨rfl, rfl⟩
  | _ => cases h

namespace FindPolicyDialog

/-- The filters of a search were all in the list, and the filters of an earlier search are filters
    of a later one. -/
structure Invariant (server : PolicyServer) (d : FindPolicyDialog) : Prop where
  window : d.window.Invariant (Found server)
  plain : ∀ f ∈ d.filterList, f.IsPlain
  filters : ∀ id search, d.window.threads id = some search → search.1 <+: d.filterList
  ordered : ∀ id id' search search', id ≤ id' → d.window.threads id = some search →
    d.window.threads id' = some search' → search.1 <+: search'.1
  existing : ∀ id search, d.window.threads id = some search →
    ∀ dn, Found server search.1 dn → dn ∈ search.2.existing

section
variable {server : PolicyServer} {d : FindPolicyDialog} {event : FindPolicyEvent}

/-- A search of the window after an event: as it was, or started with all the filters. -/
theorem wasStarted_or_isNew {event : SearchEvent Unit} {id : ℕ}
    {search : List PolicyFilter × SearchThread}
    (h : (d.window.handle (event.prepare d.filterList)).threads id = some search) :
    d.window.WasStarted id search ∨ id = d.window.idMax ∧ search.1 = d.filterList ∧
      ∃ limit, event = .find () limit search.2.existing := by
  obtain hold | ⟨hid, limit, existing, hevent, hexisting⟩ := SearchWindow.threads_handle h
  · exact .inl hold
  · obtain ⟨hfind, hquery⟩ := SearchEvent.prepare_eq_find hevent
    exact .inr ⟨hid, hquery, limit, hexisting ▸ hfind⟩

theorem Invariant.handle_window {event : SearchEvent Unit} (h : d.Invariant server)
    (hpossible : d.Possible server (.window event)) :
    (d.handle (.window event)).Invariant server := by
  refine ⟨h.window.handle hpossible.1, h.plain, fun id search hid => ?_,
    fun id id' search search' hle hid hid' => ?_, fun id search hid dn hfound => ?_⟩
  · obtain ⟨search₀, hold, hquery, -⟩ | ⟨-, hquery, -⟩ := wasStarted_or_isNew hid
    · exact hquery ▸ h.filters id search₀ hold
    · exact hquery ▸ List.prefix_rfl
  · obtain ⟨search₀, hold, hquery, -⟩ | ⟨hnew, hquery, -⟩ := wasStarted_or_isNew hid
    · obtain ⟨search₁, hold', hquery', -⟩ | ⟨-, hquery', -⟩ := wasStarted_or_isNew hid'
      · rw [hquery, hquery']
        exact h.ordered id id' search₀ search₁ hle hold hold'
      · rw [hquery, hquery']
        exact h.filters id search₀ hold
    · obtain ⟨search₁, hold', -, -⟩ | ⟨-, hquery', -⟩ := wasStarted_or_isNew hid'
      · -- a search that was there has a smaller number
        have hlt := h.window.started id' search₁ hold'
        omega
      · rw [hquery, hquery']
  · obtain ⟨search₀, hold, hquery, hexisting⟩ | ⟨-, hquery, limit, hevent⟩ :=
      wasStarted_or_isNew hid
    · rw [hexisting]
      exact h.existing id search₀ hold dn (hquery ▸ hfound)
    · exact hpossible.2 limit _ hevent dn (hquery ▸ hfound)

theorem Invariant.handle (h : d.Invariant server) (hpossible : d.Possible server event) :
    (d.handle event).Invariant server := by
  cases event with
  | editValue value => exact ⟨h.window, h.plain, h.filters, h.ordered, h.existing⟩
  | addFilter searchItem condition condition_mem =>
    refine ⟨h.window, ?_, fun id search hid => ?_, h.ordered, h.existing⟩
    · refine List.forall_mem_append.2 ⟨h.plain, fun f hf => ?_⟩
      obtain rfl := List.mem_singleton.1 hf
      exact hpossible
    · exact (h.filters id search hid).trans (List.prefix_append _ _)
  | removeButton => exact h
  | clearButton2 => exact h
  | window event => exact h.handle_window hpossible

end

end FindPolicyDialog

end Admc
