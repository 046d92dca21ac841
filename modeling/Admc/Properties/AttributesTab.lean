import Admc.Interface.Attribute
import Mathlib.Data.List.DropRight
import Mathlib.Data.List.Induction

/-!
# The attributes tab

The tab keeps the values that it has read (`original`) and those that it shows
(`current`), and writes what differs. Values of optional attributes that the object
does not have are read later, in chunks, when the user asks for them; this makes the
values that are shown those that have been read, and so forgets the edits.

* `AttributesTabEdit.mem_changes_of_run`: what is written are the last edits since
  optional values have been loaded for the last time.
* `losesNoEdit_iff`: no edit is lost exactly when each attribute that has been edited
  before such a load is edited again after it, or was given the value that is read; and
  the loop over the chunks, which are empty if there are less than five attributes, ends.
-/

namespace Admc

/-- Values of attributes. -/
abbrev AttributeValues := QHash String (List QByteArray)

/-- `class AttributesTabEdit`, as far as values are concerned. -/
structure AttributesTabEdit where
  original : AttributeValues
  current : AttributeValues
  notSpecifiedOptionalAttributes : List String
  optionalAttrsValuesIsLoaded : Bool

/-- A click of the user: an edit of the selected attribute that has been accepted, or
    "load optional values", with what the search for each chunk of attributes gives. -/
inductive TabEvent
  | edit (attr : String) (values : List QByteArray)
  | loadOptional (isConnected : Bool) (searchObject : List String → AdObject)

/-- What the tab is loaded with: the object, the optional attributes of its classes, the
    setting whether optional values are loaded at once, and the searches for them. -/
structure TabLoad where
  object : AdObject
  optionalAttributes : List String
  loadOptionalSetting : Bool
  searchObject : List String → AdObject

/-- The loop of `load_optional_attribute_values` over the attributes from `from` on, of which
    a number of turns is run. -/
def loadChunks (searchObject : List String → AdObject) (chunkLength : ℕ) :
    ℕ → List String → AttributeValues → Option AttributeValues
  | _, [], original => some original
  | 0, _ :: _, _ => none
  | turns + 1, attr :: rest, original =>
    let attrListChunk := (attr :: rest).take chunkLength
    let optionalAttrsObject := searchObject attrListChunk
    let original := attrListChunk.foldl (fun original attr =>
      original.insert attr (optionalAttrsObject.getValues attr)) original
    loadChunks searchObject chunkLength turns ((attr :: rest).drop chunkLength) original

/-- `load_optional_attribute_values`: the values that have been read. It does not end if the
    chunks are empty, though there are attributes: then `from` does not grow. -/
def loadOptionalAttributeValues (searchObject : List String → AdObject)
    (notSpecified : List String) (original : AttributeValues) : Option AttributeValues :=
  let attrListChunksNumber := 5
  let chunkLength := notSpecified.length / attrListChunksNumber
  -- otherwise each turn takes at least one of the attributes
  loadChunks searchObject chunkLength notSpecified.length notSpecified original

/-- The values of an object. -/
def AdObject.values (object : AdObject) : AttributeValues :=
  object.attributesData.keys.foldl (fun original attr =>
    original.insert attr (object.getValues attr)) []

/-- The optional attributes that the object does not have. -/
def TabLoad.notSpecified (load : TabLoad) : List String :=
  load.optionalAttributes.filter fun attr => !load.object.values.contains attr

/-- The values read in `AttributesTabEdit::load`. -/
def TabLoad.valuesRead (load : TabLoad) : Option AttributeValues :=
  if load.loadOptionalSetting then
    loadOptionalAttributeValues load.searchObject load.notSpecified load.object.values
  else
    some (load.notSpecified.foldl (fun original attr =>
      if original.contains attr then original else original.insert attr [])
      load.object.values)

namespace AttributesTabEdit

/-- `AttributesTabEdit::load`, of a tab that has been made before. -/
def load (input : TabLoad) : Option AttributesTabEdit := do
  let original ← input.valuesRead
  return ⟨original, original, input.notSpecified, input.loadOptionalSetting⟩

variable (tab : AttributesTabEdit)

/-- `AttributesTabEdit::on_load_optional`. -/
def onLoadOptional (isConnected : Bool) (searchObject : List String → AdObject) :
    Option AttributesTabEdit :=
  if !isConnected then some tab
  else do
    let original ← loadOptionalAttributeValues searchObject
      tab.notSpecifiedOptionalAttributes tab.original
    return { tab with
      original := original, current := original, optionalAttrsValuesIsLoaded := true }

/-- What is done when the dialog of `AttributesTabEdit::edit_attribute` is accepted. -/
def editAttribute (attr : String) (newValueList : List QByteArray) : AttributesTabEdit :=
  { tab with current := tab.current.insert attr newValueList }

/-- An event. -/
def step (tab : AttributesTabEdit) : TabEvent → Option AttributesTabEdit
  | .edit attr values => some (tab.editAttribute attr values)
  | .loadOptional isConnected searchObject => tab.onLoadOptional isConnected searchObject

/-- One load of the tab, and what the user does then. -/
def run (input : TabLoad) (events : List TabEvent) : Option AttributesTabEdit := do
  let tab ← load input
  events.foldlM step tab

/-- `AttributesTabEdit::apply`. -/
def apply {σ : Type} (ldap : Ldap σ) (s : σ) (target : String) : σ × Bool :=
  tab.current.keys.foldl (fun (state : σ × Bool) attr =>
    let currentValues := tab.current.value attr []
    let originalValues := tab.original.value attr []
    if currentValues ≠ originalValues then
      let (s, success) := attributeReplaceValues ldap state.1 target attr currentValues false
      (s, if success then state.2 else false)
    else state) (s, true)

/-- The attributes that are written, with their values. -/
def changes : List (String × List QByteArray) :=
  tab.current.keys.filterMap fun attr =>
    if tab.current.value attr [] ≠ tab.original.value attr [] then
      some (attr, tab.current.value attr [])
    else none

/-- `apply` writes the changes, one after the other. -/
theorem apply_eq_foldl {σ : Type} (ldap : Ldap σ) (s : σ) (target : String) :
    tab.apply ldap s target = tab.changes.foldl (fun (state : σ × Bool) change =>
      let (s, success) := attributeReplaceValues ldap state.1 target change.1 change.2 false
      (s, if success then state.2 else false)) (s, true) := by
  rw [changes, List.foldl_filterMap, apply]
  refine congrArg (fun f => List.foldl f (s, true) tab.current.keys) ?_
  funext state attr
  by_cases h : tab.current.value attr [] ≠ tab.original.value attr []
  · simp only [if_pos h]
  · simp only [if_neg h]

end AttributesTabEdit

/-- The last edit of an attribute. -/
def lastEdit (events : List TabEvent) (attr : String) : Option (List QByteArray) :=
  events.foldl (fun last event =>
    match event with
    | .edit edited values => if edited = attr then some values else last
    | .loadOptional _ _ => last) none

/-- The values that have been read, by the load and by the loads of optional values. -/
def valuesRead (input : TabLoad) (events : List TabEvent) :
    Option AttributeValues := do
  let original ← input.valuesRead
  events.foldlM (fun original event =>
    match event with
    | .edit _ _ => some original
    | .loadOptional false _ => some original
    | .loadOptional true searchObject =>
      loadOptionalAttributeValues searchObject input.notSpecified original) original

/-- The run ends, and then `apply` writes the last edit of each attribute, if it differs from
    the value that has been read, and nothing else. -/
def LosesNoEdit (input : TabLoad) (events : List TabEvent) : Prop :=
  ∃ tab read, AttributesTabEdit.run input events = some tab ∧
    valuesRead input events = some read ∧
      ∀ attr values, (attr, values) ∈ tab.changes ↔
        lastEdit events attr = some values ∧ values ≠ read.value attr []

/-! ## Reading optional values -/

section
variable {searchObject : List String → AdObject} {chunkLength turns : ℕ} {attrs : List String}
  {original : AttributeValues}

/-- With empty chunks the loop does not end. -/
theorem loadChunks_zero (h : attrs ≠ []) :
    loadChunks searchObject 0 turns attrs original = none := by
  induction turns generalizing attrs original with
  | zero =>
    obtain ⟨attr, rest, rfl⟩ := List.exists_cons_of_ne_nil h
    rfl
  | succ turns ih =>
    obtain ⟨attr, rest, rfl⟩ := List.exists_cons_of_ne_nil h
    exact ih h

/-- With other chunks it ends, as each turn takes some of the attributes. -/
theorem loadChunks_ends (hlength : 0 < chunkLength) (h : attrs.length ≤ turns) :
    ∃ read, loadChunks searchObject chunkLength turns attrs original = some read := by
  induction turns generalizing attrs original with
  | zero =>
    rw [List.eq_nil_of_length_eq_zero (Nat.le_zero.1 h)]
    exact ⟨original, rfl⟩
  | succ turns ih =>
    cases attrs with
    | nil => exact ⟨original, rfl⟩
    | cons attr rest =>
      refine ih ?_
      rw [List.length_drop]
      rw [List.length_cons] at h ⊢
      omega

/-- Optional values are read unless there are less than five attributes, but not none. -/
theorem loadOptional_ends_iff :
    (∃ read, loadOptionalAttributeValues searchObject attrs original = some read) ↔
      (attrs ≠ [] → 5 ≤ attrs.length) := by
  rw [loadOptionalAttributeValues]
  by_cases hnil : attrs = []
  · subst hnil
    exact iff_of_true ⟨original, rfl⟩ fun h => absurd rfl h
  by_cases hlength : 5 ≤ attrs.length
  · exact iff_of_true (loadChunks_ends (Nat.div_pos hlength (by decide)) le_rfl) fun _ => hlength
  · rw [Nat.div_eq_of_lt (Nat.lt_of_not_le hlength), loadChunks_zero hnil]
    exact iff_of_false nofun fun h => hlength (h hnil)

end

/-! ## Edits -/

section
variable {events before after : List TabEvent} {event : TabEvent} {attr : String}
  {values : List QByteArray}

/-- A click that reads optional values. -/
def TabEvent.reads : TabEvent → Bool
  | .loadOptional isConnected _ => isConnected
  | .edit _ _ => false

/-- The events since optional values have been read for the last time. -/
def sinceRead (events : List TabEvent) : List TabEvent := events.rtakeWhile fun e => !e.reads

theorem lastEdit_concat_edit {edited : String} :
    lastEdit (events ++ [.edit edited values]) attr =
      if edited = attr then some values else lastEdit events attr := by
  rw [lastEdit, List.foldl_append]
  rfl

theorem lastEdit_concat_load {isConnected : Bool} {searchObject : List String → AdObject} :
    lastEdit (events ++ [.loadOptional isConnected searchObject]) attr = lastEdit events attr := by
  rw [lastEdit, List.foldl_append]
  rfl

/-- The later edits come last. -/
theorem lastEdit_append : lastEdit (before ++ after) attr =
    (lastEdit after attr).or (lastEdit before attr) := by
  induction after using List.reverseRecOn with
  | nil => rw [List.append_nil]; rfl
  | append_singleton after event ih =>
    rw [← List.append_assoc]
    cases event with
    | edit edited values =>
      rw [lastEdit_concat_edit, lastEdit_concat_edit, ih]
      split_ifs <;> rfl
    | loadOptional _ _ => rw [lastEdit_concat_load, lastEdit_concat_load, ih]

theorem lastEdit_append_load {isConnected : Bool} {searchObject : List String → AdObject} :
    lastEdit (before ++ .loadOptional isConnected searchObject :: after) attr =
      (lastEdit after attr).or (lastEdit before attr) := by
  rw [List.append_cons, lastEdit_append, lastEdit_concat_load]

/-- An attribute that is not edited at all is not edited since the last read. -/
theorem lastEdit_sinceRead_of_none (h : lastEdit events attr = none) :
    lastEdit (sinceRead events) attr = none := by
  obtain ⟨before, hevents⟩ : sinceRead events <:+ events := List.rtakeWhile_suffix _ _
  rw [← hevents, lastEdit_append, Option.or_eq_none_iff] at h
  exact h.1

theorem sinceRead_append {searchObject : List String → AdObject} :
    sinceRead (before ++ .loadOptional true searchObject :: after) = sinceRead after := by
  induction after using List.reverseRecOn with
  | nil => exact List.rtakeWhile_concat_neg _ _ _ Bool.false_ne_true
  | append_singleton after event ih =>
    rw [← List.cons_append, ← List.append_assoc]
    simp only [sinceRead, List.rtakeWhile_concat] at ih ⊢
    rw [ih]

/-- The events since the last read are all, or follow one. -/
theorem sinceRead_cases (events : List TabEvent) : sinceRead events = events ∨
    ∃ before searchObject,
      events = before ++ .loadOptional true searchObject :: sinceRead events := by
  induction events using List.reverseRecOn with
  | nil => exact .inl rfl
  | append_singleton events event ih =>
    cases hevent : event.reads with
    | false =>
      have hsince : sinceRead (events ++ [event]) = sinceRead events ++ [event] :=
        List.rtakeWhile_concat_pos _ _ _ (by rw [hevent]; rfl)
      rw [hsince]
      obtain ih | ⟨before, searchObject, ih⟩ := ih
      · exact .inl (by rw [ih])
      · refine .inr ⟨before, searchObject, ?_⟩
        rw [← List.cons_append, ← List.append_assoc, ← ih]
    | true =>
      cases event with
      | edit attr values => exact nomatch hevent
      | loadOptional isConnected searchObject =>
        obtain rfl : isConnected = true := hevent
        refine .inr ⟨events, searchObject, ?_⟩
        have hsince : sinceRead (events ++ [.loadOptional true searchObject]) = [] :=
          List.rtakeWhile_concat_neg _ _ _ Bool.false_ne_true
        rw [hsince]

end

/-! ## Runs -/

/-- What the tab keeps after some events. -/
structure TabReached (input : TabLoad) (events : List TabEvent) (tab : AttributesTabEdit) :
    Prop where
  read : valuesRead input events = some tab.original
  notSpecified : tab.notSpecifiedOptionalAttributes = input.notSpecified
  current : ∀ attr, tab.current.value attr [] =
    (lastEdit (sinceRead events) attr).getD (tab.original.value attr [])
  mem_keys : ∀ attr, lastEdit (sinceRead events) attr ≠ none → attr ∈ tab.current.keys

section
variable {input : TabLoad} {events : List TabEvent} {event : TabEvent}
  {tab tab' : AttributesTabEdit} {attr : String} {values : List QByteArray}
  {searchObject : List String → AdObject}

theorem run_concat : AttributesTabEdit.run input (events ++ [event]) =
    (AttributesTabEdit.run input events).bind fun tab => tab.step event := by
  simp only [AttributesTabEdit.run, List.foldlM_append, List.foldlM_cons, List.foldlM_nil]
  cases AttributesTabEdit.load input with
  | none => rfl
  | some tab => simp [bind, pure]

theorem valuesRead_concat_edit {edited : String} :
    valuesRead input (events ++ [.edit edited values]) = valuesRead input events := by
  simp only [valuesRead, List.foldlM_append, List.foldlM_cons, List.foldlM_nil]
  simp [bind, pure]

theorem valuesRead_concat_load {isConnected : Bool} :
    valuesRead input (events ++ [.loadOptional isConnected searchObject]) =
      (valuesRead input events).bind fun original =>
        if isConnected then
          loadOptionalAttributeValues searchObject input.notSpecified original
        else some original := by
  simp only [valuesRead, List.foldlM_append, List.foldlM_cons, List.foldlM_nil]
  cases input.valuesRead with
  | none => rfl
  | some original => cases isConnected <;> simp [bind, pure]

namespace TabReached

theorem load (h : AttributesTabEdit.load input = some tab) : TabReached input [] tab := by
  rw [AttributesTabEdit.load] at h
  cases hread : input.valuesRead with
  | none =>
    rw [hread] at h
    exact nomatch h
  | some original =>
    rw [hread] at h
    obtain rfl := Option.some_inj.1 h
    refine ⟨?_, rfl, fun attr => rfl, fun attr h => absurd rfl h⟩
    rw [valuesRead, hread]
    rfl

theorem edit (h : TabReached input events tab) :
    TabReached input (events ++ [.edit attr values]) (tab.editAttribute attr values) := by
  have hsince : sinceRead (events ++ [.edit attr values]) =
      sinceRead events ++ [.edit attr values] := List.rtakeWhile_concat_pos _ _ _ rfl
  refine ⟨valuesRead_concat_edit.trans h.read, h.notSpecified, fun other => ?_, fun other hne => ?_⟩
  · rw [hsince, lastEdit_concat_edit]
    refine QHash.value_insert.trans ?_
    split_ifs with heq heq' heq'
    · rfl
    · exact absurd heq.symm heq'
    · exact absurd heq'.symm heq
    · exact h.current other
  · rw [hsince, lastEdit_concat_edit] at hne
    refine QHash.mem_keys_insert.2 ?_
    split_ifs at hne with heq
    · exact .inl heq.symm
    · exact .inr (h.mem_keys other hne)

/-- Reading optional values forgets the edits. -/
theorem read_optional {original : AttributeValues} (h : TabReached input events tab)
    (hread : loadOptionalAttributeValues searchObject tab.notSpecifiedOptionalAttributes
      tab.original = some original) :
    TabReached input (events ++ [.loadOptional true searchObject])
      ⟨original, original, tab.notSpecifiedOptionalAttributes, true⟩ := by
  have hsince : sinceRead (events ++ [.loadOptional true searchObject]) = [] :=
    List.rtakeWhile_concat_neg _ _ _ Bool.false_ne_true
  refine ⟨?_, h.notSpecified, fun attr => ?_, fun attr hne => ?_⟩
  · rw [valuesRead_concat_load, h.read, ← h.notSpecified]
    exact hread
  · rw [hsince]
    rfl
  · rw [hsince] at hne
    exact absurd rfl hne

/-- Without a connection nothing is done. -/
theorem not_connected (h : TabReached input events tab) :
    TabReached input (events ++ [.loadOptional false searchObject]) tab := by
  have hsince : sinceRead (events ++ [.loadOptional false searchObject]) =
      sinceRead events ++ [.loadOptional false searchObject] :=
    List.rtakeWhile_concat_pos _ _ _ rfl
  refine ⟨?_, h.notSpecified, fun attr => ?_, fun attr hne => ?_⟩
  · rw [valuesRead_concat_load, h.read]
    rfl
  · rw [hsince, lastEdit_concat_load]
    exact h.current attr
  · rw [hsince, lastEdit_concat_load] at hne
    exact h.mem_keys attr hne

theorem step (h : TabReached input events tab) (hstep : tab.step event = some tab') :
    TabReached input (events ++ [event]) tab' := by
  cases event with
  | edit attr values =>
    obtain rfl := Option.some_inj.1 hstep
    exact h.edit
  | loadOptional isConnected searchObject =>
    cases isConnected with
    | false =>
      obtain rfl := Option.some_inj.1 hstep
      exact h.not_connected
    | true =>
      obtain ⟨original, hread, hreturn⟩ := Option.bind_eq_some_iff.1 hstep
      obtain rfl := Option.some_inj.1 hreturn
      exact h.read_optional hread

theorem run (h : AttributesTabEdit.run input events = some tab) : TabReached input events tab := by
  induction events using List.reverseRecOn generalizing tab with
  | nil =>
    obtain ⟨tab', hload, hreturn⟩ := Option.bind_eq_some_iff.1 h
    obtain rfl := Option.some_inj.1 hreturn
    exact load hload
  | append_singleton events event ih =>
    rw [run_concat] at h
    obtain ⟨tab', hrun, hstep⟩ := Option.bind_eq_some_iff.1 h
    exact (ih hrun).step hstep

/-- What is written are the last edits since optional values have been read. -/
theorem mem_changes (h : TabReached input events tab) : (attr, values) ∈ tab.changes ↔
    lastEdit (sinceRead events) attr = some values ∧ values ≠ tab.original.value attr [] := by
  have hmem : (attr, values) ∈ tab.changes ↔ attr ∈ tab.current.keys ∧
      tab.current.value attr [] ≠ tab.original.value attr [] ∧
        tab.current.value attr [] = values := by
    simp only [AttributesTabEdit.changes, List.mem_filterMap]
    constructor
    · rintro ⟨other, hother, heq⟩
      split_ifs at heq with hne
      obtain ⟨rfl, rfl⟩ := Prod.mk.inj (Option.some_inj.1 heq)
      exact ⟨hother, hne, rfl⟩
    · rintro ⟨hkeys, hne, rfl⟩
      exact ⟨attr, hkeys, if_pos hne⟩
  rw [hmem, h.current attr]
  cases hlast : lastEdit (sinceRead events) attr with
  | none => exact iff_of_false (fun hne => hne.2.1 rfl) nofun
  | some last =>
    have hkeys := h.mem_keys attr (hlast ▸ Option.some_ne_none last)
    simp only [Option.getD_some, Option.some_inj]
    constructor
    · rintro ⟨-, hne, rfl⟩
      exact ⟨rfl, hne⟩
    · rintro ⟨rfl, hne⟩
      exact ⟨hkeys, hne, rfl⟩

end TabReached

/-! ## Lost edits -/

/-- Optional values are read, when the tab is loaded or later. -/
def ReadsOptional (input : TabLoad) (events : List TabEvent) : Prop :=
  input.loadOptionalSetting = true ∨ ∃ event ∈ events, event.reads = true

/-- A run ends unless it reads optional values and there are less than five, but not none. -/
theorem run_ends_iff : (∃ tab, AttributesTabEdit.run input events = some tab) ↔
    (ReadsOptional input events → input.notSpecified ≠ [] → 5 ≤ input.notSpecified.length) := by
  induction events using List.reverseRecOn with
  | nil =>
    have hreads : ReadsOptional input [] ↔ input.loadOptionalSetting = true := by
      simp [ReadsOptional]
    have hrun : (∃ tab, AttributesTabEdit.run input [] = some tab) ↔
        ∃ original, input.valuesRead = some original := by
      cases hread : input.valuesRead <;>
        simp [AttributesTabEdit.run, AttributesTabEdit.load, hread, bind, pure]
    rw [hrun, hreads, TabLoad.valuesRead]
    split_ifs with hsetting
    · rw [loadOptional_ends_iff, imp_iff_right hsetting]
    · exact iff_of_true ⟨_, rfl⟩ fun h => absurd h hsetting
  | append_singleton events event ih =>
    cases hevent : event.reads with
    | false =>
      have hreads : ReadsOptional input (events ++ [event]) ↔ ReadsOptional input events := by
        simp [ReadsOptional, hevent, or_and_right, exists_or]
      have hstep : ∀ tab : AttributesTabEdit, ∃ tab', tab.step event = some tab' := by
        intro tab
        cases event with
        | edit attr values => exact ⟨_, rfl⟩
        | loadOptional isConnected searchObject =>
          obtain rfl : isConnected = false := hevent
          exact ⟨tab, rfl⟩
      rw [hreads, ← ih, run_concat]
      constructor
      · rintro ⟨tab', hrun⟩
        obtain ⟨tab, hrun, -⟩ := Option.bind_eq_some_iff.1 hrun
        exact ⟨tab, hrun⟩
      · rintro ⟨tab, hrun⟩
        obtain ⟨tab', htab'⟩ := hstep tab
        exact ⟨tab', Option.bind_eq_some_iff.2 ⟨tab, hrun, htab'⟩⟩
    | true =>
      have hreads : ReadsOptional input (events ++ [event]) :=
        .inr ⟨event, List.mem_append_right _ List.mem_cons_self, hevent⟩
      obtain ⟨attr, values, rfl⟩ | ⟨searchObject, rfl⟩ :
          (∃ attr values, event = .edit attr values) ∨
            ∃ searchObject, event = .loadOptional true searchObject := by
        cases event with
        | edit attr values => exact .inl ⟨attr, values, rfl⟩
        | loadOptional isConnected searchObject =>
          obtain rfl : isConnected = true := hevent
          exact .inr ⟨searchObject, rfl⟩
      · exact nomatch hevent
      rw [imp_iff_right hreads, run_concat]
      constructor
      · rintro ⟨tab', hrun⟩
        obtain ⟨tab, hrun, hstep⟩ := Option.bind_eq_some_iff.1 hrun
        obtain ⟨original, hread, -⟩ := Option.bind_eq_some_iff.1 hstep
        rw [← (TabReached.run hrun).notSpecified]
        exact loadOptional_ends_iff.1 ⟨original, hread⟩
      · intro hlength
        obtain ⟨tab, hrun⟩ := ih.2 fun _ => hlength
        rw [← (TabReached.run hrun).notSpecified] at hlength
        obtain ⟨original, hread⟩ := loadOptional_ends_iff.2 hlength
        exact ⟨_, Option.bind_eq_some_iff.2 ⟨tab, hrun,
          Option.bind_eq_some_iff.2 ⟨original, hread, rfl⟩⟩⟩

/-- The edits before the last read of optional values are those of attributes that are not
    edited since. -/
theorem lastEdit_iff_sinceRead {read : AttributeValues} :
    (∀ attr values, lastEdit (sinceRead events) attr = some values ∧
        values ≠ read.value attr [] ↔
          lastEdit events attr = some values ∧ values ≠ read.value attr []) ↔
      ∀ before searchObject after, events = before ++ .loadOptional true searchObject :: after →
        ∀ attr, lastEdit after attr = none → ∀ values, lastEdit before attr = some values →
          values = read.value attr [] := by
  constructor
  · rintro h before searchObject after rfl attr hafter values hbefore
    by_contra hne
    have hlast : lastEdit (before ++ .loadOptional true searchObject :: after) attr =
        some values := by
      rw [lastEdit_append_load, hafter, hbefore]
      rfl
    have hsince := ((h attr values).2 ⟨hlast, hne⟩).1
    rw [sinceRead_append, lastEdit_sinceRead_of_none hafter] at hsince
    exact nomatch hsince
  · intro h attr values
    obtain hall | ⟨before, searchObject, hevents⟩ := sinceRead_cases events
    · rw [hall]
    have hlast : lastEdit events attr =
        (lastEdit (sinceRead events) attr).or (lastEdit before attr) := by
      conv_lhs => rw [hevents]
      exact lastEdit_append_load
    cases hsince : lastEdit (sinceRead events) attr with
    | some last => rw [hlast, hsince, Option.some_or]
    | none =>
      rw [hlast, hsince, Option.none_or]
      refine iff_of_false nofun ?_
      rintro ⟨hbefore, hne⟩
      exact hne (h before searchObject _ hevents attr hsince values hbefore)

end

/-- No edit is lost exactly when the loops over the optional attributes end, and each
    attribute that has been edited before optional values are read is edited again
    afterwards, or it was given the value that is read. -/
theorem losesNoEdit_iff (input : TabLoad) (events : List TabEvent) :
    LosesNoEdit input events ↔
      (ReadsOptional input events → input.notSpecified ≠ [] → 5 ≤ input.notSpecified.length) ∧
      ∀ read, valuesRead input events = some read →
        ∀ before searchObject after,
          events = before ++ .loadOptional true searchObject :: after →
            ∀ attr, lastEdit after attr = none → ∀ values, lastEdit before attr = some values →
              values = read.value attr [] := by
  rw [← run_ends_iff]
  constructor
  · rintro ⟨tab, read, hrun, hread, hchanges⟩
    refine ⟨⟨tab, hrun⟩, fun read' hread' => lastEdit_iff_sinceRead.1 fun attr values => ?_⟩
    have hreached := TabReached.run hrun
    obtain rfl := Option.some_inj.1 (hread'.symm.trans hreached.read)
    obtain rfl := Option.some_inj.1 (hread.symm.trans hreached.read)
    rw [← hreached.mem_changes, hchanges]
  · rintro ⟨⟨tab, hrun⟩, hedits⟩
    have hreached := TabReached.run hrun
    refine ⟨tab, tab.original, hrun, hreached.read, fun attr values => ?_⟩
    rw [hreached.mem_changes]
    exact lastEdit_iff_sinceRead.2 (hedits _ hreached.read) attr values

/-- An object with a description, without optional attributes that it does not have. -/
def describedObject : TabLoad where
  object := ⟨"CN=user,DC=domain", [("description", [[111, 108, 100]])]⟩
  optionalAttributes := ["description"]
  loadOptionalSetting := false
  searchObject _ := .empty

/-- The description is edited, and then optional values are loaded: nothing is written. And
    the loop does not end for an object with one optional attribute that it does not have. -/
theorem not_losesNoEdit_description :
    let events : List TabEvent :=
      [.edit "description" [[110, 101, 119]], .loadOptional true fun _ => .empty]
    (AttributesTabEdit.run describedObject events).map (·.changes) = some [] ∧
      ¬LosesNoEdit describedObject events ∧
      ∀ turns original, loadChunks (fun _ => .empty) (["info"].length / 5) turns ["info"]
        original = none := by
  intro events
  have hrun : (AttributesTabEdit.run describedObject events).map (·.changes) = some [] := by decide
  refine ⟨hrun, ?_, fun turns original => loadChunks_zero (List.cons_ne_nil _ _)⟩
  rintro ⟨tab, read, htab, hread, hchanges⟩
  rw [htab] at hrun
  have hvalue : (valuesRead describedObject events).map (·.value "description" []) =
      some [[111, 108, 100]] := by decide
  rw [hread] at hvalue
  have hold : read.value "description" [] = [[111, 108, 100]] := Option.some_inj.1 hvalue
  have hnone : tab.changes = [] := Option.some_inj.1 hrun
  have hwritten := (hchanges "description" [[110, 101, 119]]).2 ⟨rfl, by rw [hold]; decide⟩
  rw [hnone] at hwritten
  exact absurd hwritten List.not_mem_nil

end Admc
