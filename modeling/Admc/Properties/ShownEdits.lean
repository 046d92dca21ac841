import Admc.Properties.SecurityTab

/-!
# What the security tab edits

Whether the check boxes of the tab are about what it shows: its descriptor, the trustee that is
selected, and the class that is chosen in the combo box. What the widgets keep is told to them
one by one; here it is told to all at once (`ToldTab`), which is what the loops over the widgets
come to.

* `tellsAll_run`: what the widgets keep is what the tab shows, in every run in which the
  previous descriptor is restored only if it has the selected trustee, or none;
* `appliableClass_delegation_run`: the delegation widget is never told of a class;
* `editsShown_run`: each check box edits what is shown, in every such run, but for those of the
  delegation widget, and as long as a trustee is selected.
-/

namespace Admc

open CommonPermissionsWidget (AppliedObjects)

/-! ## What the widgets are told -/

/-- What the tab is about, and what its widgets keep. -/
structure ToldTab extends SecurityTabView where
  caches : PermissionsKind → WidgetCache

namespace ToldTab

variable (told : ToldTab)

/-- Something is told to the widgets, each of which keeps it its own way. -/
def tell (f : PermissionsKind → WidgetCache → WidgetCache) : ToldTab :=
  { told with caches := fun kind => f kind (told.caches kind) }

/-- The trustee is told. -/
def tellTrustee (trustee : SidBytes) : ToldTab :=
  told.tell fun _ cache => { cache with trustee := trustee }

/-- The descriptor and the classes are told. -/
def tellSd (sd : Option ℕ) (targetClassList : List String) : ToldTab :=
  told.tell fun _ cache => { cache with sd := sd, targetClassList := targetClassList }

/-- The class of child objects is told, which the delegation widget does not heed. -/
def tellClass (childClass : String) : ToldTab :=
  told.tell fun kind cache =>
    if kind = .delegation then cache
    else { cache with
      appliableClass :=
        if childClass.isEmpty then cache.targetClassList.getLast?.getD "" else childClass }

/-- The trustee that is selected is told, if there is one. -/
def tellCurrent : ToldTab :=
  if told.getCurrentTrustee = .empty then told else told.tellTrustee told.getCurrentTrustee

/-- An item becomes the current one, which is told unless the signal is blocked. -/
def setCurrent (blocked : Bool) (item : Option TrusteeItem) : ToldTab :=
  if item = told.current then told
  else
    let told := { told with current := item }
    if blocked then told else told.tellCurrent

/-- The class of the object. -/
def ownClass : String := told.targetClassList.getLast?.getD ""

/-- The class that the check boxes of a widget are about. -/
def shownClass (kind : PermissionsKind) : String :=
  let childClass := told.currentAppliedObjects.2
  if kind = .delegation ∨ childClass.isEmpty then told.ownClass else childClass

/-- The class that the delegation widget keeps. -/
def delegationClass : String := (told.caches .delegation).appliableClass

/-- The widgets keep the descriptor of the tab, and the classes of its object. -/
def TellsSd : Prop :=
  ∀ kind, (told.caches kind).sd = told.sd ∧
    (told.caches kind).targetClassList = told.targetClassList

/-- The widgets keep the trustee that is selected, if there is one. -/
def TellsTrustee : Prop :=
  told.getCurrentTrustee ≠ .empty → ∀ kind, (told.caches kind).trustee = told.getCurrentTrustee

/-- The widgets keep the class that is shown, but for the delegation widget. -/
def TellsClass : Prop :=
  ∀ kind ≠ .delegation, (told.caches kind).appliableClass = told.shownClass kind

/-- What the widgets keep is what the tab shows. -/
structure TellsAll : Prop where
  sd : told.TellsSd
  trustee : told.TellsTrustee
  appliableClass : told.TellsClass

/-- The tab is about the same descriptor and class, and the widgets keep the same but for the
    trustee. -/
structure SameButTrustees (told told' : ToldTab) : Prop where
  sd : told'.sd = told.sd
  targetClassList : told'.targetClassList = told.targetClassList
  currentAppliedObjects : told'.currentAppliedObjects = told.currentAppliedObjects
  caches : ∀ kind, ∃ trustee, told'.caches kind = { told.caches kind with trustee := trustee }

section
variable {told : ToldTab} {told' told'' : ToldTab} {kind : PermissionsKind}

theorem SameButTrustees.trans (h : told.SameButTrustees told')
    (h' : told'.SameButTrustees told'') : told.SameButTrustees told'' where
  sd := h'.sd.trans h.sd
  targetClassList := h'.targetClassList.trans h.targetClassList
  currentAppliedObjects := h'.currentAppliedObjects.trans h.currentAppliedObjects
  caches kind := by
    obtain ⟨_, hcache⟩ := h.caches kind
    obtain ⟨trustee, hcache'⟩ := h'.caches kind
    exact ⟨trustee, by rw [hcache', hcache]⟩

theorem SameButTrustees.tellsSd (h : told.SameButTrustees told') (hsd : told.TellsSd) :
    told'.TellsSd := by
  intro kind
  obtain ⟨_, hcache⟩ := h.caches kind
  rw [hcache, h.sd, h.targetClassList]
  exact hsd kind

theorem SameButTrustees.shownClass (h : told.SameButTrustees told') :
    told'.shownClass kind = told.shownClass kind := by
  rw [ToldTab.shownClass, ToldTab.shownClass, ownClass, ownClass, h.targetClassList,
    h.currentAppliedObjects]

theorem SameButTrustees.tellsClass (h : told.SameButTrustees told') (hclass : told.TellsClass) :
    told'.TellsClass := by
  intro kind hkind
  obtain ⟨_, hcache⟩ := h.caches kind
  rw [hcache, h.shownClass]
  exact hclass kind hkind

theorem SameButTrustees.delegationClass (h : told.SameButTrustees told') :
    told'.delegationClass = told.delegationClass := by
  obtain ⟨_, hcache⟩ := h.caches .delegation
  rw [ToldTab.delegationClass, hcache]
  rfl

theorem sameButTrustees_setCurrent (blocked : Bool) (item : Option TrusteeItem) :
    told.SameButTrustees (told.setCurrent blocked item) := by
  have hsame : told.SameButTrustees told := ⟨rfl, rfl, rfl, fun kind => ⟨_, rfl⟩⟩
  have hcurrent : told.SameButTrustees { told with current := item } :=
    ⟨rfl, rfl, rfl, fun kind => ⟨_, rfl⟩⟩
  have htold : ∀ trustee,
      told.SameButTrustees (ToldTab.tellTrustee { told with current := item } trustee) :=
    fun trustee => ⟨rfl, rfl, rfl, fun kind => ⟨trustee, rfl⟩⟩
  rw [setCurrent]
  split_ifs
  · exact hsame
  · exact hcurrent
  · rw [tellCurrent]
    split_ifs
    · exact hcurrent
    · exact htold _

theorem current_setCurrent (blocked : Bool) (item : Option TrusteeItem) :
    (told.setCurrent blocked item).current = item := by
  rw [setCurrent]
  split_ifs with hitem
  · exact hitem.symm
  · rfl
  · rw [tellCurrent]
    split_ifs <;> rfl

theorem caches_setCurrent_blocked (item : Option TrusteeItem) :
    (told.setCurrent true item).caches = told.caches := by
  rw [setCurrent]
  by_cases hitem : item = told.current
  · rw [if_pos hitem]
  · rw [if_neg hitem]
    rfl

theorem tellsTrustee_of_current (h : told.current = none) : told.TellsTrustee := by
  intro hne
  exact absurd (by rw [SecurityTabView.getCurrentTrustee, h]) hne

theorem tellsTrustee_tellCurrent : told.tellCurrent.TellsTrustee := by
  rw [tellCurrent]
  split_ifs with hempty
  · exact fun hne => absurd hempty hne
  · exact fun _ _ => rfl

/-- When the signal is not blocked, the widgets are told of the trustee. -/
theorem TellsTrustee.setCurrent (h : told.TellsTrustee) (item : Option TrusteeItem) :
    (told.setCurrent false item).TellsTrustee := by
  rw [ToldTab.setCurrent]
  by_cases hitem : item = told.current
  · rw [if_pos hitem]
    exact h
  · rw [if_neg hitem]
    exact tellsTrustee_tellCurrent

theorem tellsSd_tellSd : (told.tellSd told.sd told.targetClassList).TellsSd := fun _ => ⟨rfl, rfl⟩

/-- The class is told, and nothing else. -/
theorem caches_tellClass (childClass : String) (kind : PermissionsKind) :
    ∃ objClass, (told.tellClass childClass).caches kind =
      { told.caches kind with appliableClass := objClass } := by
  change ∃ objClass, ite _ _ _ = _
  split_ifs
  · exact ⟨_, rfl⟩
  · exact ⟨_, rfl⟩
  · exact ⟨_, rfl⟩

theorem TellsSd.tellClass (h : told.TellsSd) (childClass : String) :
    (told.tellClass childClass).TellsSd := by
  intro kind
  obtain ⟨_, hcache⟩ := told.caches_tellClass childClass kind
  rw [hcache]
  exact h kind

theorem TellsTrustee.tellClass (h : told.TellsTrustee) (childClass : String) :
    (told.tellClass childClass).TellsTrustee := by
  intro hne kind
  obtain ⟨_, hcache⟩ := told.caches_tellClass childClass kind
  rw [hcache]
  exact h hne kind

/-- When the class of child objects is told, the widgets keep the class that is shown. -/
theorem TellsSd.tellsClass (h : told.TellsSd) :
    (told.tellClass told.currentAppliedObjects.2).TellsClass := by
  intro kind hkind
  have hcache : ((told.tellClass told.currentAppliedObjects.2).caches kind).appliableClass =
      if told.currentAppliedObjects.2.isEmpty then
        (told.caches kind).targetClassList.getLast?.getD ""
      else told.currentAppliedObjects.2 := by
    change (ite _ _ _ : WidgetCache).appliableClass = _
    rw [if_neg hkind]
  rw [hcache, (h kind).2, shownClass]
  simp only [hkind, false_or]
  rfl

end

end ToldTab

/-- What a tab is about, and what its widgets keep. -/
def SecurityTab.told (tab : SecurityTab) : ToldTab where
  toSecurityTabView := tab.toSecurityTabView
  caches kind := (tab.widgets kind).toWidgetCache

namespace SecurityTab

variable {ctx : SecurityTabContext} {tab tab' : SecurityTab} {kind : PermissionsKind}

/-! ## What the operations tell -/

theorem told_setDescriptor (sd : Option ℕ) (descriptor : SecurityDescriptor) :
    (tab.setDescriptor sd descriptor).told = tab.told := by
  cases sd <;> rfl

theorem told_freeDescriptor (sd : Option ℕ) : (tab.freeDescriptor sd).told = tab.told := by
  cases sd <;> rfl

theorem widgets_setWidget (w : PermissionsWidget) : (tab.setWidget kind w).widgets kind = w :=
  Function.update_self ..

/-- A widget is told something. -/
theorem told_setWidget_of {f : PermissionsKind → WidgetCache → WidgetCache} {w : PermissionsWidget}
    (h : w.toWidgetCache = f kind (tab.widgets kind).toWidgetCache) :
    (tab.setWidget kind w).told =
      { tab.told with
        caches := Function.update tab.told.caches kind (f kind (tab.told.caches kind)) } := by
  have hcaches : (tab.setWidget kind w).told.caches =
      Function.update tab.told.caches kind (f kind (tab.told.caches kind)) := by
    funext kind'
    by_cases hkind : kind' = kind
    · subst hkind
      simpa [told, setWidget] using h
    · simp [told, setWidget, Function.update_of_ne hkind]
  rw [told, ToldTab.mk.injEq]
  exact ⟨rfl, hcaches⟩

/-- A widget that is changed keeps what it kept. -/
theorem told_setWidget {w : PermissionsWidget}
    (h : w.toWidgetCache = (tab.widgets kind).toWidgetCache) :
    (tab.setWidget kind w).told = tab.told := by
  rw [told_setWidget_of (f := fun _ cache => cache) h, Function.update_eq_self]

theorem told_updateRows (h : updateRows ctx tab kind = .ok tab') : tab'.told = tab.told := by
  obtain ⟨rightsModel, -, h⟩ := Except.bind_eq_ok.1 h
  obtain rfl := Except.pure_eq_ok.1 h
  exact told_setWidget rfl

theorem told_updateCommon (h : updateCommon ctx tab = .ok tab') : tab'.told = tab.told := by
  rw [updateCommon] at h
  split at h
  · rw [Except.pure_eq_ok.1 h]
  · obtain ⟨sd, -, h⟩ := Except.bind_eq_ok.1 h
    obtain ⟨common, -, h⟩ := Except.bind_eq_ok.1 h
    obtain rfl := Except.pure_eq_ok.1 h
    rw [told_setWidget, told_setDescriptor]
    cases (tab.widgets .common).sd <;> rfl

theorem told_updateTasks (h : updateTasks ctx tab = .ok tab') : tab'.told = tab.told := by
  obtain ⟨tasks, -, h⟩ := Except.bind_eq_ok.1 h
  obtain rfl := Except.pure_eq_ok.1 h
  exact told_setWidget rfl

/-- The check boxes are updated, and nothing is told. -/
theorem told_updatePermissions (h : updatePermissions ctx tab kind = .ok tab') :
    tab'.told = tab.told := by
  cases kind with
  | common => exact told_updateCommon h
  | delegation => exact told_updateTasks h
  | extended | creationDeletion | readWrite => exact told_updateRows h

/-- A loop over the widgets in which each is told something tells it to all. -/
theorem told_forWidgets {f : PermissionsKind → WidgetCache → WidgetCache}
    {turn : SecurityTab → PermissionsKind → Except Fault SecurityTab}
    (hturn : ∀ t t' kind, turn t kind = .ok t' →
      t'.told = { t.told with
        caches := Function.update t.told.caches kind (f kind (t.told.caches kind)) })
    (h : tab.forWidgets turn = .ok tab') : tab'.told = tab.told.tell f := by
  -- what a turn does, of what is told
  let tellOne (told : ToldTab) (kind : PermissionsKind) : ToldTab :=
    { told with caches := Function.update told.caches kind (f kind (told.caches kind)) }
  have hloop : tab'.told = permissionsWidgets.foldl tellOne tab.told :=
    List.foldlM_refines (R := fun t told => t.told = told)
      (fun t t' told kind _ ht hR => by rw [hturn t t' kind ht, hR]) rfl h
  rw [hloop, ToldTab.tell]
  simp only [permissionsWidgets, List.foldl_cons, List.foldl_nil, tellOne, ToldTab.mk.injEq,
    true_and]
  funext kind
  cases kind <;> rfl

/-- A loop over the widgets in which nothing is told. -/
theorem told_forWidgets_eq {turn : SecurityTab → PermissionsKind → Except Fault SecurityTab}
    (hturn : ∀ t t' kind, turn t kind = .ok t' → t'.told = t.told)
    (h : tab.forWidgets turn = .ok tab') : tab'.told = tab.told :=
  List.foldlM_invariant (P := fun t => t.told = tab.told)
    (fun t t' kind _ ht hP => (hturn t t' kind ht).trans hP) rfl h

/-! ## Trustees -/

theorem told_setCurrentTrustee {trustee : SidBytes}
    (h : setCurrentTrustee ctx tab trustee kind = .ok tab') :
    tab'.told = { tab.told with
      caches := Function.update tab.told.caches kind
        { tab.told.caches kind with trustee := trustee } } := by
  rw [told_updatePermissions h]
  exact told_setWidget_of (f := fun _ cache => { cache with trustee := trustee }) rfl

theorem told_onCurrentChanged (h : onCurrentChanged ctx tab = .ok tab') :
    tab'.told = tab.told.tellCurrent := by
  rw [onCurrentChanged] at h
  rw [ToldTab.tellCurrent]
  split_ifs at h with hempty
  · rw [if_pos (by exact hempty), ← Except.pure_eq_ok.1 h]
  · rw [if_neg (by exact hempty)]
    exact told_forWidgets (fun _ _ _ ht => told_setCurrentTrustee ht) h

theorem told_setCurrentIndex {blocked : Bool} {item : Option TrusteeItem}
    (h : setCurrentIndex ctx tab blocked item = .ok tab') :
    tab'.told = tab.told.setCurrent blocked item := by
  rw [setCurrentIndex] at h
  rw [ToldTab.setCurrent]
  split_ifs at h with hitem hblocked
  · rw [if_pos (by exact hitem), ← Except.pure_eq_ok.1 h]
  · rw [if_neg (by exact hitem), if_pos hblocked, ← Except.pure_eq_ok.1 h]
    rfl
  · rw [if_neg (by exact hitem), if_neg hblocked, told_onCurrentChanged h]
    rfl

theorem told_removeTrustees {removedTrusteeList : List SidBytes}
    (h : removeTrustees ctx tab removedTrusteeList = .ok tab') : tab'.told = tab.told := by
  obtain ⟨sd, -, h⟩ := Except.bind_eq_ok.1 h
  obtain ⟨sd', -, h⟩ := Except.bind_eq_ok.1 h
  obtain rfl := Except.pure_eq_ok.1 h
  exact told_setDescriptor _ _

/-- The trustees that are loaded are those of the descriptor. -/
theorem perm_addTrustees (names : TrusteeNames) (trusteeList : List SidBytes) :
    ((addTrustees ctx { tab with trusteeModel := [] } names trusteeList).trusteeModel.map
      TrusteeItem.sid).Perm trusteeList := by
  refine ((List.perm_insertionSort _ _).map _).trans (.of_eq ?_)
  simp [Function.comp_def]

theorem selectedTrustee_nil (sid : SidBytes) : selectedTrustee sid [] = none := rfl

/-- A trustee that is still there is selected again. -/
theorem sid_selectedTrustee {sid : SidBytes} {items : List TrusteeItem}
    (h : sid ∈ items.map TrusteeItem.sid) :
    ∃ item, selectedTrustee sid items = some item ∧ item.sid = sid := by
  obtain ⟨item, hitem, hsid⟩ := List.mem_map.1 h
  have hmatch : item ∈ items.filter fun item => item.sid = sid :=
    List.mem_filter.2 ⟨hitem, decide_eq_true hsid⟩
  rw [selectedTrustee]
  cases hlist : items.filter fun item => item.sid = sid with
  | nil => simp [hlist] at hmatch
  | cons first rest =>
    have hfirst : first ∈ items.filter fun item => item.sid = sid := hlist ▸ List.mem_cons_self
    exact ⟨first, rfl, of_decide_eq_true (List.mem_filter.1 hfirst).2⟩

/-- What `load_sd` does: no item is the current one any more, trustees are loaded, and one of
    them is selected. -/
theorem told_loadSd {blocked : Bool} {names : TrusteeNames}
    (h : loadSd ctx tab blocked names = .ok tab') :
    ∃ (t : SecurityTab) (sd : SecurityDescriptor) (trusteeList : List SidBytes),
      setCurrentIndex ctx tab blocked none = .ok t ∧ t.descriptor t.sd = .ok sd ∧
      securityDescriptorGetTrusteeList ctx sd = .ok trusteeList ∧
      let loaded := addTrustees ctx { t with trusteeModel := [] } names trusteeList
      tab'.told = loaded.told.setCurrent blocked
        (selectedTrustee tab.getCurrentTrustee loaded.trusteeModel) := by
  obtain ⟨t, ht, h⟩ := Except.bind_eq_ok.1 h
  obtain ⟨sd, hsd, h⟩ := Except.bind_eq_ok.1 h
  obtain ⟨trusteeList, hlist, h⟩ := Except.bind_eq_ok.1 h
  exact ⟨t, sd, trusteeList, ht, hsd, hlist, told_setCurrentIndex h⟩

/-! ## Applied objects -/

theorem lastClass_eq_ok {classList : List String} {objClass : String}
    (h : lastClass classList = .ok objClass) : objClass = classList.getLast?.getD "" := by
  rw [lastClass] at h
  cases hlast : classList.getLast? with
  | none => simp [hlast] at h
  | some last =>
    rw [hlast, Except.ok.injEq] at h
    exact h.symm

theorem appliableClassFor_eq_ok {childClass objClass : String} {classList : List String}
    (h : appliableClassFor childClass classList = .ok objClass) :
    objClass = if childClass.isEmpty then classList.getLast?.getD "" else childClass := by
  rw [appliableClassFor] at h
  split_ifs at h ⊢
  · exact lastClass_eq_ok h
  · exact (Except.ok.inj h).symm

/-- All widgets but that for delegation heed the class of child objects. -/
theorem updatePermissionsFor_of_ne (hkind : kind ≠ .delegation) (appliedObjs : AppliedObjects)
    (childClass : String) :
    updatePermissionsFor ctx tab appliedObjs childClass kind =
      appliableClassFor childClass (tab.widgets kind).targetClassList >>= fun appliableClass =>
        updateRows ctx (tab.setWidget kind { tab.widgets kind with
          appliableClass := appliableClass
          rightsModel := (tab.widgets kind).rightsModel.map
            (kind.updateRow ctx.g appliedObjs childClass appliableClass) }) kind := by
  cases kind with
  | delegation => exact absurd rfl hkind
  | common | extended | creationDeletion | readWrite => rfl

theorem told_updatePermissionsFor {appliedObjs : AppliedObjects} {childClass : String}
    (h : updatePermissionsFor ctx tab appliedObjs childClass kind = .ok tab') :
    tab'.told = { tab.told with
      caches := Function.update tab.told.caches kind
        ((tab.told.tellClass childClass).caches kind) } := by
  by_cases hkind : kind = .delegation
  · subst hkind
    rw [← Except.pure_eq_ok.1 h]
    exact (congrArg _ (Function.update_eq_self _ _)).symm
  · rw [updatePermissionsFor_of_ne hkind] at h
    obtain ⟨appliableClass, hclass, h⟩ := Except.bind_eq_ok.1 h
    obtain rfl := appliableClassFor_eq_ok hclass
    rw [told_updateRows h, ToldTab.tellClass, ToldTab.tell]
    simp only [hkind, if_false]
    exact told_setWidget_of (f := fun _ cache => { cache with
      appliableClass := if childClass.isEmpty then cache.targetClassList.getLast?.getD ""
        else childClass }) rfl

theorem told_enableDelegation {appliedObjs : AppliedObjects}
    (h : enableDelegation ctx tab appliedObjs = .ok tab') : tab'.told = tab.told := by
  cases appliedObjs with
  | thisObject =>
    rw [← Except.pure_eq_ok.1 h]
    rfl
  | thisAndChildObjects | allChildObjects | childObjectClass =>
    simp only [enableDelegation] at h
    split_ifs at h
    · rw [told_updatePermissions h]
      rfl
    · rw [← Except.pure_eq_ok.1 h]
      rfl

/-- The class of child objects is told. -/
theorem told_onAppliedObjsCmbbox (h : onAppliedObjsCmbbox ctx tab = .ok tab') :
    tab'.told = tab.told.tellClass tab.currentAppliedObjects.2 := by
  obtain ⟨t, ht, h⟩ := Except.bind_eq_ok.1 h
  rw [← told_enableDelegation ht]
  exact told_forWidgets (fun _ _ _ ht => told_updatePermissionsFor ht) h

/-- The widgets keep the class that is chosen, then. -/
theorem tellsAll_onAppliedObjsCmbbox (hsd : tab.told.TellsSd) (htrustee : tab.told.TellsTrustee)
    (h : onAppliedObjsCmbbox ctx tab = .ok tab') : tab'.told.TellsAll := by
  rw [told_onAppliedObjsCmbbox h]
  exact ⟨hsd.tellClass _, htrustee.tellClass _, hsd.tellsClass⟩

theorem tellsAll_loadAppliedObjectsCmbbox (hsd : tab.told.TellsSd)
    (htrustee : tab.told.TellsTrustee) (h : loadAppliedObjectsCmbbox ctx tab = .ok tab') :
    tab'.told.TellsAll := by
  obtain ⟨t, ht, h⟩ := Except.bind_eq_ok.1 h
  obtain ⟨targetClass, -, h⟩ := Except.bind_eq_ok.1 h
  have htold := told_onAppliedObjsCmbbox ht
  obtain ⟨hsd, htrustee, hclass⟩ :=
    tellsAll_onAppliedObjsCmbbox (by exact hsd) (by exact htrustee) ht
  obtain rfl := Except.pure_eq_ok.1 h
  -- the first item is the current one, before and after the others are added
  have hindex : t.appliedObjectsIndex = some 0 :=
    congrArg (fun told : ToldTab => told.appliedObjectsIndex) htold
  have hitems : t.appliedObjectsCmbBox = [(.thisObject, "")] :=
    congrArg (fun told : ToldTab => told.appliedObjectsCmbBox) htold
  have hsame : t.told.SameButTrustees (SecurityTab.told { t with
      appliedObjectsCmbBox := [(.thisObject, ""), (.thisAndChildObjects, ""),
        (.allChildObjects, "")] ++ childClassItems ctx targetClass }) := by
    refine ⟨rfl, rfl, ?_, fun kind => ⟨_, rfl⟩⟩
    simp [SecurityTabView.currentAppliedObjects, told, hindex, hitems]
  exact ⟨hsd, htrustee, hsame.tellsClass hclass⟩

/-! ## Other steps -/

theorem told_onClearAll (h : onClearAll ctx tab = .ok tab') : tab'.told = tab.told := by
  rw [onClearAll] at h
  split_ifs at h
  · rw [← Except.pure_eq_ok.1 h]
  · obtain ⟨t, ht, h⟩ := Except.bind_eq_ok.1 h
    rw [told_forWidgets_eq (fun _ _ _ ht => told_updatePermissions ht) h, told_removeTrustees ht]

theorem told_switchTab (h : step ctx tab (.switchTab kind) = .ok tab') : tab'.told = tab.told := by
  rw [step] at h
  split_ifs at h
  · rw [← Except.pure_eq_ok.1 h]
  · rw [told_updatePermissions h]
    rfl

/-! ## Loading -/

/-- What `load_sd` is about stays the same. -/
theorem sameButTrustees_loadSd {blocked : Bool} {names : TrusteeNames}
    (h : loadSd ctx tab blocked names = .ok tab') : tab.told.SameButTrustees tab'.told := by
  obtain ⟨t, sd, trusteeList, ht, -, -, htold⟩ := told_loadSd h
  have hremoved : tab.told.SameButTrustees t.told := by
    rw [told_setCurrentIndex ht]
    exact ToldTab.sameButTrustees_setCurrent _ _
  have hloaded : t.told.SameButTrustees
      (addTrustees ctx { t with trusteeModel := [] } names trusteeList).told :=
    ⟨rfl, rfl, rfl, fun kind => ⟨_, rfl⟩⟩
  rw [htold]
  exact (hremoved.trans hloaded).trans (ToldTab.sameButTrustees_setCurrent _ _)

/-- The widgets are told of the trustee that is selected at last. -/
theorem tellsTrustee_loadSd {names : TrusteeNames} (h : loadSd ctx tab false names = .ok tab') :
    tab'.told.TellsTrustee := by
  obtain ⟨t, sd, trusteeList, ht, -, -, htold⟩ := told_loadSd h
  have hcurrent : t.told.current = none := by
    rw [told_setCurrentIndex ht]
    exact ToldTab.current_setCurrent _ _
  have hloaded :
      (addTrustees ctx { t with trusteeModel := [] } names trusteeList).told.TellsTrustee :=
    ToldTab.tellsTrustee_of_current hcurrent
  rw [htold]
  exact hloaded.setCurrent _

/-- When the signal is blocked, the widgets keep the trustee that was selected before. It is
    selected again if the descriptor has it, and none is if there are no trustees. -/
theorem tellsTrustee_loadSd_blocked {names : TrusteeNames} {sd : SecurityDescriptor}
    (htells : tab.told.TellsTrustee) (hsd : tab.descriptor tab.sd = .ok sd)
    (hrestored : ∀ trusteeList, securityDescriptorGetTrusteeList ctx sd = .ok trusteeList →
      trusteeList = [] ∨ tab.getCurrentTrustee ∈ trusteeList)
    (h : loadSd ctx tab true names = .ok tab') : tab'.told.TellsTrustee := by
  obtain ⟨t, sd', trusteeList, ht, hsd', hlist, htold⟩ := told_loadSd h
  -- only the current item has been taken away
  have hfields : t.descriptor t.sd = tab.descriptor tab.sd ∧ t.told.caches = tab.told.caches := by
    rw [setCurrentIndex] at ht
    split_ifs at ht <;> rw [← Except.pure_eq_ok.1 ht] <;> exact ⟨rfl, rfl⟩
  obtain rfl : sd = sd' := by simpa [hfields.1, hsd] using hsd'
  have hperm := @perm_addTrustees ctx t names trusteeList
  have hcaches : tab'.told.caches = tab.told.caches := by
    rw [htold, ToldTab.caches_setCurrent_blocked]
    exact hfields.2
  have hcurrent : tab'.told.current = _ :=
    (congrArg (fun told : ToldTab => told.current) htold).trans (ToldTab.current_setCurrent _ _)
  rcases hrestored trusteeList hlist with rfl | hmem
  · rw [List.map_eq_nil_iff.1 hperm.eq_nil, selectedTrustee_nil] at hcurrent
    exact ToldTab.tellsTrustee_of_current hcurrent
  · obtain ⟨item, hitem, hsid⟩ := sid_selectedTrustee (hperm.mem_iff.2 hmem)
    have hsame : tab'.told.getCurrentTrustee = tab.told.getCurrentTrustee := by
      rw [SecurityTabView.getCurrentTrustee, hcurrent, hitem]
      exact hsid
    intro hne kind
    rw [hcaches, hsame]
    exact htells (hsame ▸ hne) kind

theorem told_initWidget {targetClasses : List String} {sd : Option ℕ}
    (h : initWidget ctx tab targetClasses sd kind = .ok tab') :
    tab'.told = { tab.told with
      caches := Function.update tab.told.caches kind
        { tab.told.caches kind with sd := sd, targetClassList := targetClasses } } := by
  obtain ⟨targetClass, -, h⟩ := Except.bind_eq_ok.1 h
  obtain rfl := Except.pure_eq_ok.1 h
  exact told_setWidget_of
    (f := fun _ cache => { cache with sd := sd, targetClassList := targetClasses }) rfl

/-- The widgets are initialised. -/
theorem told_initWidgets {targetClasses : List String} {sd : Option ℕ}
    (h : tab.forWidgets (fun t kind => t.initWidget ctx targetClasses sd kind) = .ok tab') :
    tab'.told = tab.told.tellSd sd targetClasses :=
  told_forWidgets (fun _ _ _ ht => told_initWidget ht) h

/-- Whatever the tab was about: when an object is loaded, the widgets keep what is shown. -/
theorem tellsAll_load {names : TrusteeNames} {objectClass : List String}
    {descriptor : Option SecurityDescriptor}
    (h : load ctx tab names objectClass descriptor = .ok tab') : tab'.told.TellsAll := by
  obtain ⟨t, ht, h⟩ := Except.bind_eq_ok.1 h
  obtain ⟨t', ht', h⟩ := Except.bind_eq_ok.1 h
  have hinit : t.told.TellsSd := by
    rw [told_initWidgets ht]
    exact fun _ => ⟨rfl, rfl⟩
  have hsd := (sameButTrustees_loadSd ht').tellsSd hinit
  have htrustee := tellsTrustee_loadSd ht'
  split_ifs at h
  · exact tellsAll_loadAppliedObjectsCmbbox hsd htrustee h
  · exact tellsAll_onAppliedObjsCmbbox hsd htrustee h

/-- What can be read after some descriptor is freed is what was there before. -/
theorem descriptor_of_freeDescriptor {sd sd' : Option ℕ} {descriptor : SecurityDescriptor}
    (h : (tab.freeDescriptor sd).descriptor sd' = .ok descriptor) :
    tab.descriptor sd' = .ok descriptor := by
  cases sd with
  | none => exact h
  | some freed =>
    cases sd' with
    | none => exact h
    | some address =>
      by_cases hfreed : freed = address
      · subst hfreed
        have hnone : (tab.memory.set freed none)[freed]?.join = none := by
          rw [List.getElem?_set_self']
          cases tab.memory[freed]? <;> rfl
        exact absurd ((congrArg deref hnone).symm.trans h) (by simp [deref])
      · refine Eq.trans (congrArg deref ?_) h
        simp [freeDescriptor, List.getElem?_set_ne hfreed]

theorem descriptor_allocDescriptor (descriptor : SecurityDescriptor) :
    (tab.allocDescriptor (some descriptor)).descriptor (tab.newAddress (some descriptor)) =
      .ok descriptor := by
  simp [SecurityTab.descriptor, allocDescriptor, newAddress, deref]

theorem tellsAll_onRestorePreviousSd {names : TrusteeNames} (htells : tab.told.TellsAll)
    (hcareful : ∀ sd trusteeList, tab.descriptor tab.previousSd = .ok sd →
      securityDescriptorGetTrusteeList ctx sd = .ok trusteeList →
      trusteeList = [] ∨ tab.getCurrentTrustee ∈ trusteeList)
    (h : onRestorePreviousSd ctx tab names = .ok tab') : tab'.told.TellsAll := by
  rw [onRestorePreviousSd] at h
  split_ifs at h with hprevious
  · rw [← Except.pure_eq_ok.1 h]
    exact htells
  · obtain ⟨copy, hcopy, h⟩ := Except.bind_eq_ok.1 h
    obtain ⟨t, ht, h⟩ := Except.bind_eq_ok.1 h
    obtain ⟨t', ht', h⟩ := Except.bind_eq_ok.1 h
    have hfree : (tab.freeDescriptor tab.sd).told = tab.told := told_freeDescriptor _
    have hprevious : (tab.freeDescriptor tab.sd).previousSd = tab.previousSd :=
      congrArg (fun told : ToldTab => told.previousSd) hfree
    have hcurrent : (tab.freeDescriptor tab.sd).getCurrentTrustee = tab.getCurrentTrustee :=
      congrArg (fun told : ToldTab => told.getCurrentTrustee) hfree
    have htrustee : (tab.freeDescriptor tab.sd).told.TellsTrustee := hfree ▸ htells.trustee
    -- the selected trustee stays the one that the widgets keep
    have hloaded : t.told.TellsTrustee := by
      refine tellsTrustee_loadSd_blocked (by exact htrustee) (descriptor_allocDescriptor copy)
        (fun trusteeList hlist => ?_) ht
      have hrestored := hcareful copy trusteeList
        (descriptor_of_freeDescriptor (hprevious ▸ hcopy)) hlist
      exact hcurrent ▸ hrestored
    have hinit := told_initWidgets ht'
    have hsd : t'.told.TellsSd := hinit ▸ ToldTab.tellsSd_tellSd
    have htrustee' : t'.told.TellsTrustee := by
      rw [hinit]
      exact hloaded
    exact tellsAll_onAppliedObjsCmbbox hsd htrustee' h

/-! ## Toggling -/

theorem told_editRights {target : EditTarget} {allow checked : Bool} {rights : List SecurityRight}
    (h : rights.foldlM (editRight ctx target allow checked) tab = .ok tab') :
    tab'.told = tab.told := by
  refine List.foldlM_invariant (P := fun t => t.told = tab.told) ?_ rfl h
  intro t t' right _ ht htold
  obtain ⟨sd, -, ht⟩ := Except.bind_eq_ok.1 ht
  obtain ⟨sd', -, ht⟩ := Except.bind_eq_ok.1 ht
  rw [← Except.pure_eq_ok.1 ht, told_setDescriptor]
  exact htold

theorem told_onItemChanged {rights : List SecurityRight} {allow checked : Bool}
    (h : onItemChanged ctx tab kind rights allow checked = .ok tab') : tab'.told = tab.told := by
  obtain ⟨t, ht, h⟩ := Except.bind_eq_ok.1 h
  rw [told_updatePermissions h, told_editRights ht]

theorem told_toggleRight {row : ℕ} {item : PermissionRow} {allow : Bool}
    (h : toggleRight ctx tab kind row item allow = .ok tab') : tab'.told = tab.told := by
  rw [told_onItemChanged h]
  exact told_setWidget rfl

/-- When a check box is toggled, nothing is told. -/
theorem told_toggle {row : ℕ} {allow : Bool} (h : toggle ctx tab row allow = .ok tab') :
    tab'.told = tab.told := by
  rw [toggle.eq_def] at h
  split at h
  · split at h
    · split_ifs at h
      · rw [told_onItemChanged h]
        exact told_setWidget rfl
      · rw [Except.pure_eq_ok.1 h]
    · rw [Except.pure_eq_ok.1 h]
  · split at h
    · exact told_toggleRight h
    · rw [Except.pure_eq_ok.1 h]

/-! ## Tasks -/

theorem delegationClass_onAppliedObjsCmbbox (h : onAppliedObjsCmbbox ctx tab = .ok tab') :
    tab'.told.delegationClass = tab.told.delegationClass := by
  rw [told_onAppliedObjsCmbbox h]
  rfl

theorem delegationClass_loadAppliedObjectsCmbbox
    (h : loadAppliedObjectsCmbbox ctx tab = .ok tab') :
    tab'.told.delegationClass = tab.told.delegationClass := by
  obtain ⟨t, ht, h⟩ := Except.bind_eq_ok.1 h
  obtain ⟨targetClass, -, h⟩ := Except.bind_eq_ok.1 h
  have hclass := delegationClass_onAppliedObjsCmbbox ht
  rw [← Except.pure_eq_ok.1 h]
  exact hclass

theorem delegationClass_loadSd {blocked : Bool} {names : TrusteeNames}
    (h : loadSd ctx tab blocked names = .ok tab') :
    tab'.told.delegationClass = tab.told.delegationClass :=
  (sameButTrustees_loadSd h).delegationClass

theorem delegationClass_initWidgets {targetClasses : List String} {sd : Option ℕ}
    (h : tab.forWidgets (fun t kind => t.initWidget ctx targetClasses sd kind) = .ok tab') :
    tab'.told.delegationClass = tab.told.delegationClass := by
  rw [told_initWidgets h]
  rfl

theorem delegationClass_freeDescriptor (sd : Option ℕ) :
    (tab.freeDescriptor sd).told.delegationClass = tab.told.delegationClass := by
  rw [told_freeDescriptor]

theorem delegationClass_load {names : TrusteeNames} {objectClass : List String}
    {descriptor : Option SecurityDescriptor}
    (h : load ctx tab names objectClass descriptor = .ok tab') :
    tab'.told.delegationClass = tab.told.delegationClass := by
  obtain ⟨t, ht, h⟩ := Except.bind_eq_ok.1 h
  obtain ⟨t', ht', h⟩ := Except.bind_eq_ok.1 h
  have hloaded : t'.told.delegationClass = tab.told.delegationClass :=
    ((delegationClass_loadSd ht').trans (delegationClass_initWidgets ht)).trans
      (delegationClass_freeDescriptor _)
  split_ifs at h
  · exact (delegationClass_loadAppliedObjectsCmbbox h).trans hloaded
  · exact (delegationClass_onAppliedObjsCmbbox h).trans hloaded

theorem delegationClass_onRestorePreviousSd {names : TrusteeNames}
    (h : onRestorePreviousSd ctx tab names = .ok tab') :
    tab'.told.delegationClass = tab.told.delegationClass := by
  rw [onRestorePreviousSd] at h
  split_ifs at h
  · rw [← Except.pure_eq_ok.1 h]
  · obtain ⟨copy, -, h⟩ := Except.bind_eq_ok.1 h
    obtain ⟨t, ht, h⟩ := Except.bind_eq_ok.1 h
    obtain ⟨t', ht', h⟩ := Except.bind_eq_ok.1 h
    rw [delegationClass_onAppliedObjsCmbbox h, delegationClass_initWidgets ht',
      delegationClass_loadSd ht]
    exact delegationClass_freeDescriptor _

/-- The delegation widget is never told of a class. -/
theorem delegationClass_step {a : Action} (h : step ctx tab a = .ok tab') :
    tab'.told.delegationClass = tab.told.delegationClass := by
  cases a with
  | load names objectClass descriptor => exact delegationClass_load h
  | select item =>
    rw [step] at h
    split_ifs at h
    · rw [told_setCurrentIndex h]
      exact (ToldTab.sameButTrustees_setCurrent _ _).delegationClass
    · rw [← Except.pure_eq_ok.1 h]
  | addTrustees names sidList =>
    rw [← Except.pure_eq_ok.1 h]
    rfl
  | removeTrustee names =>
    obtain ⟨t, ht, h⟩ := Except.bind_eq_ok.1 h
    rw [delegationClass_loadSd h, told_removeTrustees ht]
  | clearAll => rw [told_onClearAll h]
  | restorePrevious names => exact delegationClass_onRestorePreviousSd h
  | chooseAppliedObjects index =>
    rw [step] at h
    split_ifs at h
    · rw [delegationClass_onAppliedObjsCmbbox h]
      rfl
    · rw [← Except.pure_eq_ok.1 h]
  | switchTab kind => rw [told_switchTab h]
  | toggle row allow => rw [told_toggle h]
  | apply target =>
    rw [← Except.pure_eq_ok.1 h]
    cases target with
    | none => rfl
    | some descriptor => exact delegationClass_freeDescriptor _

/-- So the class it edits with is empty, in every run. -/
theorem appliableClass_delegation_run {actions : List Action}
    (h : actions.foldlM (step ctx) new = .ok tab) :
    (tab.widgets .delegation).appliableClass = "" :=
  List.foldlM_invariant (P := fun t => t.told.delegationClass = "")
    (fun _ _ _ _ ht hempty => (delegationClass_step ht).trans hempty) rfl h

/-! ## Runs -/

/-- What is done with care: the previous descriptor is restored only if it has the trustee that
    is selected, or none, and check boxes are toggled only while a trustee is selected, and not
    those of tasks. -/
def Careful (ctx : SecurityTabContext) (tab : SecurityTab) : Action → Prop
  | .restorePrevious _ => ∀ sd trusteeList, tab.descriptor tab.previousSd = .ok sd →
    securityDescriptorGetTrusteeList ctx sd = .ok trusteeList →
    trusteeList = [] ∨ tab.getCurrentTrustee ∈ trusteeList
  | .toggle _ _ => tab.getCurrentTrustee ≠ .empty ∧ tab.currentTab ≠ .delegation
  | _ => True

/-- What the widgets keep stays what the tab shows. -/
theorem tellsAll_step {a : Action} (hcareful : Careful ctx tab a) (htells : tab.told.TellsAll)
    (h : step ctx tab a = .ok tab') : tab'.told.TellsAll := by
  cases a with
  | load names objectClass descriptor => exact tellsAll_load h
  | select item =>
    rw [step] at h
    split_ifs at h
    · have hsame : tab.told.SameButTrustees tab'.told := by
        rw [told_setCurrentIndex h]
        exact ToldTab.sameButTrustees_setCurrent _ _
      refine ⟨hsame.tellsSd htells.sd, ?_, hsame.tellsClass htells.appliableClass⟩
      rw [told_setCurrentIndex h]
      exact htells.trustee.setCurrent _
    · rw [← Except.pure_eq_ok.1 h]
      exact htells
  | addTrustees names sidList =>
    rw [← Except.pure_eq_ok.1 h]
    exact ⟨htells.sd, htells.trustee, htells.appliableClass⟩
  | removeTrustee names =>
    obtain ⟨t, ht, h⟩ := Except.bind_eq_ok.1 h
    have hsame := sameButTrustees_loadSd h
    rw [told_removeTrustees ht] at hsame
    exact ⟨hsame.tellsSd htells.sd, tellsTrustee_loadSd h, hsame.tellsClass htells.appliableClass⟩
  | clearAll =>
    rw [told_onClearAll h]
    exact htells
  | restorePrevious names => exact tellsAll_onRestorePreviousSd htells hcareful h
  | chooseAppliedObjects index =>
    rw [step] at h
    split_ifs at h
    · exact tellsAll_onAppliedObjsCmbbox (by exact htells.sd) (by exact htells.trustee) h
    · rw [← Except.pure_eq_ok.1 h]
      exact htells
  | switchTab kind =>
    rw [told_switchTab h]
    exact htells
  | toggle row allow =>
    rw [told_toggle h]
    exact htells
  | apply target =>
    rw [← Except.pure_eq_ok.1 h]
    cases target with
    | none => exact htells
    | some descriptor =>
      have hfree : (tab.freeDescriptor tab.previousSd).told.TellsAll := by
        rw [told_freeDescriptor]
        exact htells
      exact ⟨hfree.sd, hfree.trustee, hfree.appliableClass⟩

/-- What the widgets keep is what the tab shows, in every careful run. -/
theorem tellsAll_run {actions : List Action}
    (hcareful : actions.StepsMeet (Careful ctx) (step ctx) new)
    (h : actions.foldlM (step ctx) new = .ok tab) : tab.told.TellsAll := by
  have hnew : new.told.TellsAll := by
    refine ⟨fun _ => ⟨rfl, rfl⟩, ToldTab.tellsTrustee_of_current rfl, fun kind _ => ?_⟩
    cases kind <;> rfl
  exact hcareful.invariant (fun _ _ _ _ hmeets ht htells => tellsAll_step hmeets htells ht) hnew h

/-- What a check box of the current tab edits with. -/
def editTarget (tab : SecurityTab) : EditTarget := (tab.widgets tab.currentTab).toEditTarget

/-- What the tab shows: its descriptor, the trustee that is selected, and the class, which is
    that of the object for tasks. -/
def shownTarget (tab : SecurityTab) : EditTarget :=
  ⟨tab.sd, tab.getCurrentTrustee, tab.told.shownClass tab.currentTab⟩

/-- There is a check box in a row of the current tab. -/
def HasCheckBox (tab : SecurityTab) (row : ℕ) (allow : Bool) : Prop :=
  if tab.currentTab = .delegation then
    row < (tab.widgets .delegation).tasks.length ∧ allow = true
  else row < (tab.widgets tab.currentTab).rightsModel.length

instance (tab : SecurityTab) (row : ℕ) (allow : Bool) : Decidable (tab.HasCheckBox row allow) :=
  inferInstanceAs (Decidable (if tab.currentTab = .delegation then
    row < (tab.widgets .delegation).tasks.length ∧ allow = true
    else row < (tab.widgets tab.currentTab).rightsModel.length))

/-- The rights of a row are edited with what its widget keeps, whatever its check boxes show. -/
theorem exists_onItemChanged {w : PermissionsWidget} {rights : List SecurityRight}
    {allow checked : Bool} (h : w.toWidgetCache = (tab.widgets kind).toWidgetCache) :
    ∃ t : SecurityTab, t.told = tab.told ∧ t.memory = tab.memory ∧
      onItemChanged ctx (tab.setWidget kind w) kind rights allow checked =
        rights.foldlM (editRight ctx (tab.widgets kind).toEditTarget allow checked) t >>=
          fun t' => t'.updatePermissions ctx kind := by
  refine ⟨tab.setWidget kind w, told_setWidget h, rfl, ?_⟩
  rw [onItemChanged, widgets_setWidget, ← h]

/-- When a check box is toggled, the rights of its row are edited with the target of its tab, and
    the check boxes are updated. -/
theorem exists_toggle {row : ℕ} {allow : Bool} (h : tab.HasCheckBox row allow) :
    ∃ (rights : List SecurityRight) (checked : Bool) (t : SecurityTab),
      t.told = tab.told ∧ t.memory = tab.memory ∧
      toggle ctx tab row allow =
        rights.foldlM (editRight ctx tab.editTarget allow checked) t >>= fun t' =>
          t'.updatePermissions ctx tab.currentTab := by
  rw [HasCheckBox] at h
  rw [toggle.eq_def, editTarget]
  split_ifs at h with htask
  · obtain ⟨hrow, rfl⟩ := h
    simp only [htask, List.getElem?_eq_getElem hrow, if_true]
    exact ⟨_, _, exists_onItemChanged rfl⟩
  · split
    · exact absurd ‹_› htask
    · simp only [List.getElem?_eq_getElem h]
      exact ⟨_, _, exists_onItemChanged rfl⟩

/-- A check box edits what the tab shows, and nothing if no trustee is selected. -/
def EditsShown (ctx : SecurityTabContext) (tab : SecurityTab) (row : ℕ) (allow : Bool) : Prop :=
  tab.HasCheckBox row allow →
    if tab.getCurrentTrustee = .empty then
      ∀ tab', toggle ctx tab row allow = .ok tab' → tab'.memory = tab.memory
    else tab.editTarget = tab.shownTarget

/-- In every careful run, each check box that is toggled edits what the tab shows. -/
theorem editsShown_run {actions : List Action}
    (hcareful : actions.StepsMeet (Careful ctx) (step ctx) new)
    (h : actions.foldlM (step ctx) new = .ok tab) {row : ℕ} {allow : Bool}
    (htoggle : Careful ctx tab (.toggle row allow)) : EditsShown ctx tab row allow := by
  obtain ⟨hne, htask⟩ := htoggle
  have htells := tellsAll_run hcareful h
  intro _
  rw [if_neg hne]
  have hsd : tab.editTarget.sd = tab.sd := (htells.sd tab.currentTab).1
  have htrustee : tab.editTarget.trustee = tab.getCurrentTrustee :=
    htells.trustee hne tab.currentTab
  have hclass : tab.editTarget.appliableClass = tab.told.shownClass tab.currentTab :=
    htells.appliableClass tab.currentTab htask
  rw [shownTarget, ← hsd, ← htrustee, ← hclass]

/-- A setting to evaluate the tab in: nothing is configured, and identifiers are shown by their
    numbers. -/
def sampleContext : SecurityTabContext where
  g := .empty
  objectSidDisplayValue sid :=
    "-".intercalate ("S-1" :: sid.subAuths.map fun subAuth => toString subAuth.toNat)
  trusteeSetValues := List.dedup
  mem_trusteeSetValues _ _ := List.mem_dedup
  superiorKeys := CommonPermissionsWidget.objectTypedMasks
  superiorKeys_perm := .refl _
  classDisplayNames := []
  classCategories := []

/-- "Everyone" is added to the trustees of an object and selected, after the descriptor has been
    applied and loaded again. -/
def sampleActions : List Action :=
  [.load (fun _ => "") ["top", "container"] (some sampleDescriptor),
    .apply (some (some sampleDescriptor)),
    .load (fun _ => "") ["top", "container"] (some sampleDescriptor),
    .addTrustees (fun _ => "Everyone") [.ofStructure sidWorld],
    .select ⟨2, "Everyone", .ofStructure sidWorld⟩]

theorem editsShown_run_sample : ∃ tab, sampleActions.foldlM (step sampleContext) new = .ok tab ∧
    EditsShown sampleContext tab 0 true := by
  obtain ⟨tab, h, hne, htask⟩ : ∃ tab, sampleActions.foldlM (step sampleContext) new = .ok tab ∧
      tab.getCurrentTrustee ≠ .empty ∧ tab.currentTab ≠ .delegation := by
    decide +kernel
  refine ⟨tab, h, editsShown_run ?_ h ⟨hne, htask⟩⟩
  simp [sampleActions, List.StepsMeet, Careful]

/-- The descriptor that was applied, which does not have "Everyone", is restored then. -/
def rolledBackActions : List Action := sampleActions ++ [.restorePrevious fun _ => ""]

/-- When the descriptor is restored, "Self" is selected again, but "Everyone" is edited. -/
theorem not_editsShown_run :
    ¬∀ (ctx : SecurityTabContext) (actions : List Action) (tab : SecurityTab) (row : ℕ)
      (allow : Bool), actions.foldlM (step ctx) new = .ok tab → EditsShown ctx tab row allow := by
  intro hshown
  obtain ⟨tab, h, hrow, hne, htarget⟩ :
      ∃ tab, rolledBackActions.foldlM (step sampleContext) new = .ok tab ∧
        tab.HasCheckBox 0 true ∧ tab.getCurrentTrustee ≠ .empty ∧
        tab.editTarget ≠ tab.shownTarget := by
    decide +kernel
  have hedits := hshown sampleContext _ tab 0 true h hrow
  rw [if_neg hne] at hedits
  exact htarget hedits

end SecurityTab

end Admc
