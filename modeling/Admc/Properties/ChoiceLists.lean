import Admc.Properties.SecurityTab

/-!
# Choices by their display names

Two combo boxes have an item for each class, or attribute, of a list. The display names are sorted,
and the name of each one is then looked up in a hash, where the last of several names with the same
display name stays.

* `value_namesByDisplay`: what is looked up has the display name;
* `choiceLists_iff`: all names are there just if no two of them have the same display name.
-/

namespace Admc

open AdConfigPrivate (utf16)

/-! ## The items -/

section
variable (display : String → String) (names : List String)

/-- The hash from display names to names: `text_class_map`, and `display_to_attribute`. -/
def namesByDisplay : QHash String String :=
  names.foldl (fun hash name => hash.insert (display name) name) []

/-- `std::sort`, of texts. -/
def sortedTexts (texts : List String) : List String :=
  texts.insertionSort fun text text' => utf16 text ≤ utf16 text'

/-- An item for each of some texts, with the name from the hash. -/
def itemsOf (texts : List String) : List (String × String) :=
  texts.map fun text => (text, (namesByDisplay display names).value text "")

/-- The items that `FilterWidgetNormalTab::update_attributes_combo` makes, of the attributes of a
    class. -/
def updateAttributesCombo : List (String × String) :=
  itemsOf display names (sortedTexts (names.map display))

/-- The display names of `SecurityTab::load_applied_objects_cmbbox`: those that are translated
    first. -/
def sortedClassNames : List String :=
  let translatedClassNames := (names.filter fun name => display name ≠ name).map display
  let notTranslatedClassNames := (names.filter fun name => display name = name).map display
  sortedTexts translatedClassNames ++ sortedTexts notTranslatedClassNames

/-- The items that `SecurityTab::load_applied_objects_cmbbox` makes for child classes, each with its
    text behind "Child objects: ". -/
def loadAppliedObjectsCmbbox (isAuxiliary : String → Bool) (inferiorClassList : List String) :
    List (String × String) :=
  let names := inferiorClassList.filter fun inferior => !isAuxiliary inferior
  itemsOf display names (sortedClassNames display names)

/-! ## What they should be -/

/-- Each name is the data of one item, under its own display name. -/
structure CarriesNames (items : List (String × String)) : Prop where
  data : (items.map Prod.snd).Perm names
  text : ∀ item ∈ items, item.1 = display item.2

/-- The items are in the order of their texts. -/
def IsSorted (items : List (String × String)) : Prop :=
  items.Pairwise fun item item' => utf16 item.1 ≤ utf16 item'.1

/-- A class whose display name is another text. -/
def IsTranslated (item : String × String) : Prop := item.1 ≠ item.2

/-- The items of translated names are first, each part in the order of the texts. -/
def IsSortedTranslated (items : List (String × String)) : Prop :=
  items.Pairwise fun item item' => (IsTranslated item' → IsTranslated item) ∧
    ((IsTranslated item ↔ IsTranslated item') → utf16 item.1 ≤ utf16 item'.1)

end

/-! ## The hash -/

section
variable {display : String → String} {names texts : List String} {text : String}

theorem value_foldl_insert (hash : QHash String String) (text : String) :
    (∃ name ∈ names, display name = text ∧ QHash.value (names.foldl (fun hash name =>
      hash.insert (display name) name) hash) text "" = name) ∨
    (∀ name ∈ names, display name ≠ text) ∧ QHash.value (names.foldl (fun hash name =>
      hash.insert (display name) name) hash) text "" = hash.value text "" := by
  induction names generalizing hash with
  | nil => exact .inr ⟨nofun, rfl⟩
  | cons name names ih =>
    rw [List.foldl_cons, List.forall_mem_cons]
    obtain ⟨name', hmem, htext, hvalue⟩ | ⟨hnone, hvalue⟩ := ih (hash.insert (display name) name)
    · exact .inl ⟨name', List.mem_cons_of_mem _ hmem, htext, hvalue⟩
    · rw [hvalue, QHash.value_insert]
      by_cases htext : text = display name
      · exact .inl ⟨name, List.mem_cons_self, htext.symm, if_pos htext⟩
      · exact .inr ⟨⟨Ne.symm htext, hnone⟩, if_neg htext⟩

/-- A display name gives a name that it is of. -/
theorem value_namesByDisplay (h : text ∈ names.map display) :
    (namesByDisplay display names).value text "" ∈ names ∧
      display ((namesByDisplay display names).value text "") = text := by
  obtain ⟨name, hname, rfl⟩ := List.mem_map.1 h
  obtain ⟨name', hmem, htext, hvalue⟩ | ⟨hnone, -⟩ :=
    @value_foldl_insert display names [] (display name)
  · rw [namesByDisplay, hvalue]
    exact ⟨hmem, htext⟩
  · exact absurd rfl (hnone name hname)

/-- The display names of different names are different. -/
def IsDistinct (display : String → String) (names : List String) : Prop :=
  ∀ name ∈ names, ∀ name' ∈ names, display name = display name' → name = name'

theorem value_display (h : IsDistinct display names) {name : String} (hname : name ∈ names) :
    (namesByDisplay display names).value (display name) "" = name := by
  obtain ⟨hmem, htext⟩ := value_namesByDisplay (List.mem_map_of_mem hname)
  exact h _ hmem name hname htext

/-- Items whose texts are the display names. -/
theorem carriesNames_iff (htexts : texts.Perm (names.map display)) :
    CarriesNames display names (itemsOf display names texts) ↔ IsDistinct display names := by
  have hdata : (itemsOf display names texts).map Prod.snd =
      texts.map fun text => (namesByDisplay display names).value text "" := by
    rw [itemsOf, List.map_map]
    rfl
  constructor
  · intro hcarries name hname name' hname' hsame
    -- the hash has one name for each text
    have hfound : ∀ name ∈ names,
        (namesByDisplay display names).value (display name) "" = name := by
      intro name hname
      have hmem := hcarries.data.mem_iff.2 hname
      rw [hdata] at hmem
      obtain ⟨text, htext, hvalue⟩ := List.mem_map.1 hmem
      have hdisplay := (value_namesByDisplay (htexts.mem_iff.1 htext)).2
      rw [hvalue] at hdisplay
      rw [hdisplay, hvalue]
    rw [← hfound name hname, hsame, hfound name' hname']
  · intro hdistinct
    refine ⟨?_, fun item hitem => ?_⟩
    · rw [hdata]
      refine (htexts.map _).trans (.of_eq ?_)
      rw [List.map_map]
      exact (List.map_congr_left fun name hname => value_display hdistinct hname).trans
        (List.map_id names)
    · obtain ⟨text, htext, rfl⟩ := List.mem_map.1 hitem
      exact (value_namesByDisplay (htexts.mem_iff.1 htext)).2.symm

/-! ## The order -/

theorem perm_sortedTexts (texts : List String) : (sortedTexts texts).Perm texts :=
  List.perm_insertionSort _ _

theorem pairwise_sortedTexts (texts : List String) :
    (sortedTexts texts).Pairwise fun text text' => utf16 text ≤ utf16 text' := by
  have : Std.Total fun text text' : String => utf16 text ≤ utf16 text' :=
    ⟨fun _ _ => le_total _ _⟩
  have : IsTrans String fun text text' => utf16 text ≤ utf16 text' := ⟨fun _ _ _ => le_trans⟩
  exact List.pairwise_insertionSort _ texts

theorem isSorted_updateAttributesCombo (display : String → String) (names : List String) :
    IsSorted (updateAttributesCombo display names) := by
  rw [IsSorted, updateAttributesCombo, itemsOf, List.pairwise_map]
  exact pairwise_sortedTexts _

theorem perm_sortedClassNames (display : String → String) (names : List String) :
    (sortedClassNames display names).Perm (names.map display) := by
  have hparts := List.filter_append_perm (fun name => decide (display name ≠ name)) names
  have hnot : ∀ name, (!decide (display name ≠ name)) = decide (display name = name) := by
    intro name
    simp
  simp only [hnot] at hparts
  refine ((perm_sortedTexts _).append (perm_sortedTexts _)).trans ?_
  rw [← List.map_append]
  exact hparts.map display

/-- The translated names are first, if the names can be told apart. -/
theorem isSortedTranslated_itemsOf (h : IsDistinct display names) :
    IsSortedTranslated (itemsOf display names (sortedClassNames display names)) := by
  have htext : ∀ {P : String → Bool} {text : String},
      text ∈ sortedTexts ((names.filter P).map display) →
        ∃ name, P name = true ∧ display name = text ∧
          (namesByDisplay display names).value text "" = name := by
    intro P text hmem
    obtain ⟨name, hname, rfl⟩ := List.mem_map.1 ((perm_sortedTexts _).mem_iff.1 hmem)
    exact ⟨name, (List.mem_filter.1 hname).2, rfl, value_display h (List.mem_filter.1 hname).1⟩
  have hfirst : ∀ text ∈ sortedTexts ((names.filter fun name => display name ≠ name).map display),
      IsTranslated (text, (namesByDisplay display names).value text "") := by
    intro text hmem
    obtain ⟨name, hname, rfl, hvalue⟩ := htext hmem
    rw [IsTranslated, hvalue]
    exact of_decide_eq_true hname
  have hsecond : ∀ text ∈ sortedTexts ((names.filter fun name => display name = name).map display),
      ¬ IsTranslated (text, (namesByDisplay display names).value text "") := by
    intro text hmem
    obtain ⟨name, hname, rfl, hvalue⟩ := htext hmem
    rw [IsTranslated, hvalue, not_not]
    exact of_decide_eq_true hname
  rw [IsSortedTranslated, itemsOf, List.pairwise_map, sortedClassNames, List.pairwise_append]
  refine ⟨?_, ?_, fun text hmem text' hmem' => ?_⟩
  · exact (pairwise_sortedTexts _).imp_of_mem fun hmem _ hle =>
      ⟨fun _ => hfirst _ hmem, fun _ => hle⟩
  · exact (pairwise_sortedTexts _).imp_of_mem fun _ hmem' hle =>
      ⟨fun h => absurd h (hsecond _ hmem'), fun _ => hle⟩
  · exact ⟨fun _ => hfirst _ hmem, fun hiff => absurd (hiff.1 (hfirst _ hmem)) (hsecond _ hmem')⟩

/-- The items for child classes. -/
theorem classItems_iff (isAuxiliary : String → Bool) (inferiorClassList : List String) :
    CarriesNames display (inferiorClassList.filter fun inferior => !isAuxiliary inferior)
        (loadAppliedObjectsCmbbox display isAuxiliary inferiorClassList) ∧
      IsSortedTranslated (loadAppliedObjectsCmbbox display isAuxiliary inferiorClassList) ↔
    IsDistinct display (inferiorClassList.filter fun inferior => !isAuxiliary inferior) := by
  constructor
  · rintro ⟨hcarries, -⟩
    exact (carriesNames_iff (perm_sortedClassNames _ _)).1 hcarries
  · intro hdistinct
    exact ⟨(carriesNames_iff (perm_sortedClassNames _ _)).2 hdistinct,
      isSortedTranslated_itemsOf hdistinct⟩

end

/-! ## The result -/

/-- Both combo boxes. -/
theorem choiceLists_iff (display : String → String) (isAuxiliary : String → Bool)
    (names : List String) :
    (CarriesNames display (names.filter fun name => !isAuxiliary name)
        (loadAppliedObjectsCmbbox display isAuxiliary names) ∧
      IsSortedTranslated (loadAppliedObjectsCmbbox display isAuxiliary names) ↔
        IsDistinct display (names.filter fun name => !isAuxiliary name)) ∧
    (CarriesNames display names (updateAttributesCombo display names) ∧
      IsSorted (updateAttributesCombo display names) ↔ IsDistinct display names) := by
  refine ⟨classItems_iff isAuxiliary names, ?_⟩
  rw [and_iff_left (isSorted_updateAttributesCombo display names)]
  exact carriesNames_iff (perm_sortedTexts _)

/-- The tab keeps the data of the items. -/
theorem childClassItems_eq (ctx : SecurityTabContext) (targetClass : String) :
    SecurityTab.childClassItems ctx targetClass =
      (loadAppliedObjectsCmbbox (fun name => ctx.classDisplayNames.value name name)
        (SecurityTab.classIsAuxiliary ctx)
        (ctx.g.adconfig.allInferiorsList targetClass)).map fun item =>
          (.childObjectClass, item.2) := by
  have hsame : ∀ (display : String → String) (names : List String),
      (names.filter fun name => display name = name).map display =
        names.filter fun name => display name = name := by
    intro display names
    refine (List.map_congr_left fun name hname => ?_).trans (List.map_id _)
    exact of_decide_eq_true (List.mem_filter.1 hname).2
  rw [SecurityTab.childClassItems, loadAppliedObjectsCmbbox, itemsOf, List.map_map,
    sortedClassNames, hsame]
  rfl

/-- Two classes with one display name: one of them is there twice. -/
theorem not_choiceLists : ¬ CarriesNames (fun _ => "User") ["user", "inetOrgPerson"]
      (loadAppliedObjectsCmbbox (fun _ => "User") (fun _ => false) ["user", "inetOrgPerson"]) ∧
    loadAppliedObjectsCmbbox (fun _ => "User") (fun _ => false) ["user", "inetOrgPerson"] =
      [("User", "inetOrgPerson"), ("User", "inetOrgPerson")] := by
  have hitems : loadAppliedObjectsCmbbox (fun _ => "User") (fun _ => false)
      ["user", "inetOrgPerson"] = [("User", "inetOrgPerson"), ("User", "inetOrgPerson")] := by
    decide
  refine ⟨fun hcarries => ?_, hitems⟩
  have hmem := hcarries.data.mem_iff.2 List.mem_cons_self
  rw [hitems] at hmem
  exact absurd hmem (by decide)

end Admc
