import Admc.Interface.Naming
import Admc.Interface.Server
import Admc.Lib.Forest
import Mathlib.Data.List.Sort

/-!
# Moved and renamed objects in the console

An object may be shown in several trees of a console. When it gets another DN, its items are
deleted and added again in the tree of objects, updated in place in the tree of queries and
added and deleted in the tree of policies. What is found by a search in a dialog is a tree of
its own.

`noStaleDn_iff`: no item with an old DN is left exactly when no query shows an object more than
twice, the dialog shows none of the objects, neither does the tree of objects that is not
searched, and neither does the tree of policies, unless it has the new parent.
-/

namespace Admc

/-- `enum ItemType`, with the items of all trees. -/
inductive ConsoleItemType
  | unassigned
  | object
  | policyRoot
  | policyOu
  | allPoliciesFolder
  | policy
  | queryFolder
  | queryItem
  | findObject
  | findPolicy
  | foundPolicy
  | domainInfo
  | passwordSettings
  deriving DecidableEq, Repr

/-- An item of a console. The role for a DN has the same number for all items that have
    one. -/
structure ConsoleItem where
  type : ConsoleItemType
  dn : Option String
  wasFetched : Bool
  deriving DecidableEq

/-- A tree of a console: its root is the row on the ground. -/
abbrev ConsoleTree := Forest ConsoleItem

/-- `ConsoleWidget`: the trees with objects, as the functions for their roots find them. -/
structure ConsoleWidget where
  domainObjectTree : Option ConsoleTree
  sitesContainerTree : Option ConsoleTree
  queryTree : Option ConsoleTree
  findObjectTree : Option ConsoleTree
  policyTree : Option ConsoleTree

/-- The item is of a type and has a DN. -/
def ConsoleItem.matches (type : ConsoleItemType) (dn : String) (item : ConsoleItem) : Bool :=
  item.type = type ∧ item.dn = some dn

namespace ConsoleTree

variable (tree : ConsoleTree)

/-- The rows as they are shown: each before those below it. Identifiers grow along a branch
    and among the children of a row, so this is the order of the ways from the ground. -/
def displayed : List (Row ConsoleItem) :=
  tree.rows.insertionSort fun row row' =>
    (tree.chain row.id).reverse ≤ (tree.chain row'.id).reverse

/-- `ConsoleWidget::search_items`, from the root: it comes last. -/
def searchItems (dn : String) (type : ConsoleItemType) : List ℕ :=
  let allMatches := (displayed tree).filter fun row => row.data.matches type dn
  (allMatches.filter (·.parent ≠ 0) ++ allMatches.filter (·.parent = 0)).map Row.id

/-- `ConsoleWidget::search_item`. -/
def searchItem (dn : String) (type : ConsoleItemType) : Option ℕ := (searchItems tree dn type).head?

/-- `ConsoleWidget::delete_item`: nothing happens to an item that has been deleted. -/
def deleteItem (i : ℕ) : ConsoleTree := tree.remove i

/-- `ConsoleWidget::add_scope_item` and `ConsoleWidget::add_results_item`. -/
def addItem (type : ConsoleItemType) (parent : ℕ) (dn : String) : ConsoleTree :=
  if h : tree.Valid parent then tree.add ⟨type, some dn, false⟩ parent h else tree

/-- The parent is there, and its children have been loaded. -/
def wasFetched (parent : ℕ) : Bool := (tree.row? parent).any fun row => row.data.wasFetched

/-- `object_load`, as far as the DN is concerned. -/
def objectLoad (i : ℕ) (object : AdObject) : ConsoleTree :=
  match tree.row? i with
  | some row => tree.setData i { row.data with dn := some object.dn }
  | none => tree

end ConsoleTree

/-- `AdObject::is_class`. -/
def AdObject.isClass (object : AdObject) (rt : Runtime) (objectClass : String) : Bool :=
  object.getString rt "objectClass" = objectClass

/-- `ad_select_changed_dn`. -/
def adSelectChangedDn (map : QHash String String) : QHash String String :=
  map.keys.foldl (fun changedDn oldDn =>
    let newDn := map.value oldDn ""
    if newDn ≠ oldDn then changedDn.insert oldDn newDn else changedDn) []

/-- `ad_search_objects`, in a directory that does not change meanwhile. -/
def adSearchObjects (searchObject : String → AdObject) (list : List String) :
    QHash String AdObject :=
  list.foldl (fun objectMap dn => objectMap.insert dn (searchObject dn)) []

/-- `console_object_delete_dn_list`. -/
def consoleObjectDeleteDnList (tree : ConsoleTree) (dnList : List String) (type : ConsoleItemType) :
    ConsoleTree :=
  dnList.foldl (fun tree dn =>
    (ConsoleTree.searchItems tree dn type).foldl ConsoleTree.deleteItem tree) tree

/-- `add_objects_to_console`. -/
def addObjectsToConsole (tree : ConsoleTree) (objectList : List AdObject) (parent : Option ℕ) :
    ConsoleTree :=
  match parent with
  | none => tree
  | some parent =>
    if ¬ConsoleTree.wasFetched tree parent then tree
    else
      objectList.foldl (fun tree object =>
        if object.isEmpty then tree
        else ConsoleTree.addItem tree .object parent object.dn) tree

/-- `policy_ou_impl_add_objects_to_console`. -/
def policyOuImplAddObjectsToConsole (rt : Runtime) (tree : ConsoleTree)
    (objectList : List AdObject) (parent : ℕ) : ConsoleTree :=
  if ¬ConsoleTree.wasFetched tree parent then tree
  else
    objectList.foldl (fun tree object =>
      if object.isClass rt "organizationalUnit" then
        ConsoleTree.addItem tree .policyOu parent object.dn
      else if object.isClass rt "groupPolicyContainer" then
        ConsoleTree.addItem tree .policy parent object.dn
      else tree) tree

/-- The loop that fills `index_map`: the last item found with a DN is kept. -/
def itemIndexMap (tree : ConsoleTree) (oldDnList : List String) : QHash String ℕ :=
  oldDnList.foldl (fun indexMap oldDn =>
    (ConsoleTree.searchItems tree oldDn .object).foldl (fun indexMap index =>
      indexMap.insert oldDn index) indexMap) []

/-- The items with old DNs are updated, one for each DN. -/
def updateItems (tree : ConsoleTree) (oldToNewDnMap : QHash String String)
    (objectMap : QHash String AdObject) : ConsoleTree :=
  let indexMap := itemIndexMap tree oldToNewDnMap.keys
  indexMap.keys.foldl (fun tree oldDn =>
    let index := indexMap.value oldDn 0
    let newDn := oldToNewDnMap.value oldDn ""
    ConsoleTree.objectLoad tree index (objectMap.value newDn .empty)) tree

section
variable (rt : Runtime) (sitesContainerDn : String) (oldToNewDnMap : QHash String String)
  (newParentDn : String) (objectMap : QHash String AdObject)

/-- Whether the tree of sites is searched for the objects, rather than that of the domain. -/
def isInSites : Prop := sitesContainerDn.toList <:+: newParentDn.toList

instance : Decidable (isInSites sitesContainerDn newParentDn) :=
  inferInstanceAs (Decidable (sitesContainerDn.toList <:+: newParentDn.toList))

/-- The items of the objects are deleted and added again below the new parent. -/
def moveObjectItems (tree : ConsoleTree) : ConsoleTree :=
  let tree := consoleObjectDeleteDnList tree oldToNewDnMap.keys .object
  addObjectsToConsole tree objectMap.values (ConsoleTree.searchItem tree newParentDn .object)

/-- The items of the units are added below the new parent and deleted, if it is there. -/
def movePolicyItems (tree : ConsoleTree) : ConsoleTree :=
  match ConsoleTree.searchItem tree newParentDn .policyOu with
  | some newParentIndex =>
    consoleObjectDeleteDnList
      (policyOuImplAddObjectsToConsole rt tree objectMap.values newParentIndex)
      oldToNewDnMap.keys .policyOu
  | none => tree

/-- `apply_changes`, for one console. -/
def applyChanges (console : ConsoleWidget) : ConsoleWidget :=
  let console :=
    if isInSites sitesContainerDn newParentDn then
      { console with
        sitesContainerTree := console.sitesContainerTree.map
          (moveObjectItems oldToNewDnMap newParentDn objectMap) }
    else
      { console with
        domainObjectTree := console.domainObjectTree.map
          (moveObjectItems oldToNewDnMap newParentDn objectMap) }
  let console :=
    { console with
      queryTree := console.queryTree.map (updateItems · oldToNewDnMap objectMap) }
  -- what is meant for the tree of found objects goes to that of queries again
  let console :=
    { console with
      queryTree := console.queryTree.map (updateItems · oldToNewDnMap objectMap) }
  { console with
    policyTree := console.policyTree.map (movePolicyItems rt oldToNewDnMap newParentDn objectMap) }

/-- `console_object_move_and_rename`, as far as the consoles are concerned. -/
def consoleObjectMoveAndRename (searchObject : String → AdObject)
    (oldToNewDnMapArg : QHash String String) (consoleList : List ConsoleWidget) :
    List ConsoleWidget :=
  let oldToNewDnMap := adSelectChangedDn oldToNewDnMapArg
  let objectMap := adSearchObjects searchObject oldToNewDnMap.values
  consoleList.map (applyChanges rt sitesContainerDn oldToNewDnMap newParentDn objectMap)

end

/-! ## What each step does -/

/-- The number of items with a DN. -/
def itemCount (tree : Option ConsoleTree) (type : ConsoleItemType) (dn : String) : ℕ :=
  tree.elim 0 fun tree => tree.rows.countP fun row => row.data.matches type dn

section
variable {tree : ConsoleTree} {type : ConsoleItemType} {dn : String} {dnList : List String}
  {objectList : List AdObject} {parent i : ℕ} {row : Row ConsoleItem} {object : AdObject}

theorem ConsoleItem.matches_iff {item : ConsoleItem} :
    item.matches type dn = true ↔ item.type = type ∧ item.dn = some dn := decide_eq_true_iff

theorem itemCount_some_eq_zero :
    itemCount (some tree) type dn = 0 ↔ ∀ row ∈ tree.rows, ¬row.data.matches type dn = true :=
  List.countP_eq_zero

namespace ConsoleTree

theorem mem_searchItems : i ∈ searchItems tree dn type ↔
    ∃ row ∈ tree.rows, row.id = i ∧ row.data.matches type dn = true := by
  have hmem : ∀ row : Row ConsoleItem, row ∈ displayed tree ↔ row ∈ tree.rows := fun row =>
    (List.perm_insertionSort _ tree.rows).mem_iff
  simp only [searchItems, List.mem_map, List.mem_append, List.mem_filter, hmem,
    decide_eq_true_eq]
  constructor
  · rintro ⟨row, (⟨⟨hrow, hmatch⟩, -⟩ | ⟨⟨hrow, hmatch⟩, -⟩), hid⟩
    · exact ⟨row, hrow, hid, hmatch⟩
    · exact ⟨row, hrow, hid, hmatch⟩
  · rintro ⟨row, hrow, hid, hmatch⟩
    refine ⟨row, ?_, hid⟩
    by_cases hroot : row.parent = 0
    · exact .inr ⟨⟨hrow, hmatch⟩, hroot⟩
    · exact .inl ⟨⟨hrow, hmatch⟩, hroot⟩

theorem searchItems_eq_nil : searchItems tree dn type = [] ↔ itemCount (some tree) type dn = 0 := by
  rw [itemCount_some_eq_zero, List.eq_nil_iff_forall_not_mem]
  constructor
  · exact fun h row hrow hmatch => h row.id (mem_searchItems.2 ⟨row, hrow, rfl, hmatch⟩)
  · intro h i hi
    obtain ⟨row, hrow, -, hmatch⟩ := mem_searchItems.1 hi
    exact h row hrow hmatch

/-- An item that is added has the DN. -/
theorem mem_addItem (h : row ∈ (addItem tree type parent dn).rows) :
    row ∈ tree.rows ∨ row.data = ⟨type, some dn, false⟩ := by
  rw [addItem] at h
  split_ifs at h
  · rcases List.mem_cons.1 h with rfl | h
    · exact .inr rfl
    · exact .inl h
  · exact .inl h

theorem objectLoad_of_mem (h : row ∈ tree.rows) : objectLoad tree row.id object =
    tree.setData row.id { row.data with dn := some object.dn } := by
  rw [objectLoad, Forest.row?_of_mem h]

/-- One item gets another DN, and the others are left as they are. -/
theorem mem_objectLoad (h : row ∈ tree.rows) :
    { row with data := { row.data with dn := some object.dn } } ∈
      (objectLoad tree row.id object).rows ∧
    ∀ row' ∈ tree.rows, row' ≠ row → row' ∈ (objectLoad tree row.id object).rows := by
  obtain ⟨newer, older, hrows, hset⟩ :=
    Forest.exists_rows_setData h { row.data with dn := some object.dn }
  rw [objectLoad_of_mem h, hset]
  refine ⟨List.mem_append_right _ List.mem_cons_self, fun row' hrow' hne => ?_⟩
  rw [hrows, List.mem_append, List.mem_cons] at hrow'
  rw [List.mem_append, List.mem_cons]
  exact hrow'.imp_right fun hrow' => .inr (hrow'.resolve_left hne)

/-- An item that gets another DN is counted no more, and the other items are as before. -/
theorem itemCount_objectLoad (h : row ∈ tree.rows) (hdn : object.dn ≠ dn) :
    itemCount (some (objectLoad tree row.id object)) type dn =
      itemCount (some tree) type dn - if row.data.matches type dn then 1 else 0 := by
  obtain ⟨newer, older, hrows, hset⟩ :=
    Forest.exists_rows_setData h { row.data with dn := some object.dn }
  have hother : ¬({ row.data with dn := some object.dn } : ConsoleItem).matches type dn = true := by
    rw [ConsoleItem.matches_iff]
    exact fun hmatch => hdn (Option.some.inj hmatch.2)
  rw [objectLoad_of_mem h, itemCount, itemCount, Option.elim_some, Option.elim_some, hset, hrows,
    List.countP_append, List.countP_append, List.countP_cons, List.countP_cons, if_neg hother]
  split_ifs <;> omega

end ConsoleTree

/-- What is left when the items with some DNs are deleted: what is not at or below one. -/
theorem mem_deleteDnList_iff : row ∈ (consoleObjectDeleteDnList tree dnList type).rows ↔
    row ∈ tree.rows ∧ ¬∃ row' ∈ tree.rows, row'.id ∈ tree.chain row.id ∧
      ∃ dn ∈ dnList, row'.data.matches type dn = true := by
  induction dnList generalizing tree with
  | nil => simp [consoleObjectDeleteDnList]
  | cons dn dnList ih =>
    set rest : ConsoleTree := (ConsoleTree.searchItems tree dn type).foldl Forest.remove tree
    have hstep : consoleObjectDeleteDnList tree (dn :: dnList) type =
        consoleObjectDeleteDnList rest dnList type := rfl
    have hrest : ∀ {row}, row ∈ rest.rows ↔ row ∈ tree.rows ∧
        ∀ i ∈ ConsoleTree.searchItems tree dn type, i ∉ tree.chain row.id :=
      Forest.mem_rows_foldl_remove
    rw [hstep, ih]
    constructor
    · rintro ⟨hrow, hnone⟩
      obtain ⟨hmem, hdeleted⟩ := hrest.1 hrow
      refine ⟨hmem, ?_⟩
      rintro ⟨row', hrow', hchain, dn', hdn', hmatch⟩
      obtain rfl | hdn' := List.mem_cons.1 hdn'
      · exact hdeleted row'.id (ConsoleTree.mem_searchItems.2 ⟨row', hrow', rfl, hmatch⟩) hchain
      · -- What is above the row has not been deleted either.
        refine hnone ⟨row', hrest.2 ⟨hrow', fun i hi hchain' => ?_⟩, ?_, dn', hdn', hmatch⟩
        · exact hdeleted i hi (Forest.chain_trans hchain' hchain)
        · rwa [Forest.chain_foldl_remove hrow]
    · rintro ⟨hmem, hnone⟩
      have hrow : row ∈ rest.rows := hrest.2 ⟨hmem, fun i hi hchain => by
        obtain ⟨row', hrow', rfl, hmatch⟩ := ConsoleTree.mem_searchItems.1 hi
        exact hnone ⟨row', hrow', hchain, dn, List.mem_cons_self, hmatch⟩⟩
      refine ⟨hrow, ?_⟩
      rintro ⟨row', hrow', hchain, dn', hdn', hmatch⟩
      rw [Forest.chain_foldl_remove hrow] at hchain
      exact hnone ⟨row', (hrest.1 hrow').1, hchain, dn', List.mem_cons_of_mem _ hdn', hmatch⟩

theorem mem_deleteDnList (h : row ∈ (consoleObjectDeleteDnList tree dnList type).rows) :
    row ∈ tree.rows ∧ ∀ dn ∈ dnList, ¬row.data.matches type dn = true := by
  obtain ⟨hmem, hnone⟩ := mem_deleteDnList_iff.1 h
  have hself := Forest.mem_chain_self (Forest.valid_of_mem hmem)
  exact ⟨hmem, fun dn hdn hmatch => hnone ⟨row, hmem, hself, dn, hdn, hmatch⟩⟩

theorem mem_addObjectsToConsole {parent : Option ℕ}
    (h : row ∈ (addObjectsToConsole tree objectList parent).rows) :
    row ∈ tree.rows ∨ ∃ object ∈ objectList, row.data.dn = some object.dn := by
  unfold addObjectsToConsole at h
  split at h
  · exact .inl h
  · rename_i parent
    -- one object after another
    have hfold : ∀ {tree : ConsoleTree}, row ∈ (objectList.foldl (fun tree object =>
        if object.isEmpty then tree
        else ConsoleTree.addItem tree .object parent object.dn) tree).rows →
        row ∈ tree.rows ∨ ∃ object ∈ objectList, row.data.dn = some object.dn := by
      clear h
      induction objectList with
      | nil => exact .inl
      | cons object objectList ih =>
        intro tree h
        obtain hrow | ⟨object', hobject', hdn⟩ := ih h
        · dsimp only at hrow
          split_ifs at hrow
          · exact .inl hrow
          · obtain hrow | hdata := ConsoleTree.mem_addItem hrow
            · exact .inl hrow
            · exact .inr ⟨object, List.mem_cons_self, by rw [hdata]⟩
        · exact .inr ⟨object', List.mem_cons_of_mem _ hobject', hdn⟩
    split_ifs at h
    · exact hfold h
    · exact .inl h

end

/-! ## Items that are updated -/

section
variable {tree : ConsoleTree} {dn : String} {dnList : List String} {row : Row ConsoleItem}
  {oldToNewDnMap : QHash String String} {objectMap : QHash String AdObject}

/-- The last of some values is inserted for a key. -/
theorem foldl_insert_key {indexMap : QHash String ℕ} {key : String} {indexes : List ℕ} :
    (∀ key', key' ∈ (indexes.foldl (fun indexMap index => indexMap.insert key index)
        indexMap).keys ↔ key' ∈ indexMap.keys ∨ key' = key ∧ indexes ≠ []) ∧
    (∀ key' ≠ key, (indexes.foldl (fun (indexMap : QHash String ℕ) index =>
        indexMap.insert key index) indexMap).value key' 0 = indexMap.value key' 0) ∧
    (indexes ≠ [] → (indexes.foldl (fun (indexMap : QHash String ℕ) index =>
        indexMap.insert key index) indexMap).value key 0 ∈ indexes) ∧
    (indexMap.keys.Nodup → (indexes.foldl (fun (indexMap : QHash String ℕ) index =>
        indexMap.insert key index) indexMap).keys.Nodup) := by
  induction indexes generalizing indexMap with
  | nil => exact ⟨fun _ => by simp, fun _ _ => rfl, fun h => absurd rfl h, id⟩
  | cons index indexes ih =>
    obtain ⟨hkeys, hother, hlast, hnodup⟩ := @ih (indexMap.insert key index)
    refine ⟨fun key' => ?_, fun key' hne => ?_, fun _ => ?_, fun h => ?_⟩
    · rw [List.foldl_cons, hkeys, QHash.mem_keys_insert]
      by_cases hkey : key' = key
      · simp [hkey]
      · simp [hkey]
    · rw [List.foldl_cons, hother key' hne, QHash.value_insert, if_neg hne]
    · rw [List.foldl_cons]
      by_cases hnil : indexes = []
      · rw [hnil, List.foldl_nil, QHash.value_insert, if_pos rfl]
        exact List.mem_cons_self
      · exact List.mem_cons_of_mem _ (hlast hnil)
    · exact hnodup (QHash.nodup_keys_insert h)

/-- One item for each DN that items have. -/
structure Indexes (tree : ConsoleTree) (dnList : List String) (indexMap : QHash String ℕ) :
    Prop where
  nodup : indexMap.keys.Nodup
  mem_keys : ∀ dn, dn ∈ indexMap.keys ↔ dn ∈ dnList ∧ itemCount (some tree) .object dn ≠ 0
  value : ∀ dn ∈ indexMap.keys, ∃ row ∈ tree.rows,
    row.id = indexMap.value dn 0 ∧ row.data.matches .object dn = true

/-- The items that are updated are one for each DN. -/
theorem indexes_itemIndexMap : Indexes tree dnList (itemIndexMap tree dnList) := by
  induction dnList using List.reverseRecOn with
  | nil => exact ⟨List.nodup_nil, fun _ => iff_of_false List.not_mem_nil (by simp), nofun⟩
  | append_singleton dnList dn ih =>
    obtain ⟨hkeys, hother, hlast, hnodup⟩ := @foldl_insert_key (itemIndexMap tree dnList) dn
      (ConsoleTree.searchItems tree dn .object)
    rw [itemIndexMap, List.foldl_append, List.foldl_cons, List.foldl_nil, ← itemIndexMap]
    refine ⟨hnodup ih.nodup, fun dn' => ?_, fun dn' hdn' => ?_⟩
    · rw [hkeys, ih.mem_keys, List.mem_append, List.mem_singleton, ne_eq, ne_eq,
        ConsoleTree.searchItems_eq_nil]
      by_cases hdn : dn' = dn
      · rw [hdn]
        tauto
      · tauto
    · by_cases hdn : dn' = dn ∧ ConsoleTree.searchItems tree dn .object ≠ []
      · obtain ⟨rfl, hne⟩ := hdn
        obtain ⟨row, hrow, hid, hmatch⟩ := ConsoleTree.mem_searchItems.1 (hlast hne)
        exact ⟨row, hrow, hid, hmatch⟩
      · have hold := ((hkeys dn').1 hdn').resolve_right hdn
        by_cases heq : dn' = dn
        · -- nothing has been found
          have hnil : ConsoleTree.searchItems tree dn .object = [] := by
            by_contra hne
            exact hdn ⟨heq, hne⟩
          rw [hnil, List.foldl_nil]
          exact ih.value dn' hold
        · rw [hother dn' heq]
          exact ih.value dn' hold

/-- An item that has been updated, or has not. -/
def UpdatedRow (newDn : String → String) (dnList : List String) (row row' : Row ConsoleItem) :
    Prop :=
  row'.id = row.id ∧ (row' = row ∨
    ∃ dn ∈ dnList, row.data.matches .object dn = true ∧ row'.data.dn = some (newDn dn))

/-- Items with different DNs are updated, one after another. No new DN is one of the old ones. -/
theorem foldl_objectLoad {index : String → ℕ} {newObject : String → AdObject}
    {oldDns keys : List String} (hnodup : keys.Nodup) (hkeys : ∀ dn ∈ keys, dn ∈ oldDns)
    (hfresh : ∀ dn ∈ keys, (newObject dn).dn ∉ oldDns)
    (hindex : ∀ dn ∈ keys, ∃ row ∈ tree.rows, row.id = index dn ∧
      row.data.matches .object dn = true) :
    (∀ dn ∈ oldDns, itemCount (some (keys.foldl (fun tree dn =>
        ConsoleTree.objectLoad tree (index dn) (newObject dn)) tree)) .object dn =
      itemCount (some tree) .object dn - if dn ∈ keys then 1 else 0) ∧
    ∀ row ∈ tree.rows, ∃ row' ∈ (keys.foldl (fun tree dn =>
        ConsoleTree.objectLoad tree (index dn) (newObject dn)) tree).rows,
      UpdatedRow (fun dn => (newObject dn).dn) keys row row' := by
  induction keys generalizing tree with
  | nil =>
    refine ⟨fun dn _ => ?_, fun row hrow => ⟨row, hrow, rfl, .inl rfl⟩⟩
    rw [if_neg List.not_mem_nil, Nat.sub_zero]
    rfl
  | cons key keys ih =>
    rw [List.nodup_cons] at hnodup
    rw [List.forall_mem_cons] at hkeys hfresh hindex
    obtain ⟨⟨updated, hupdated, hid, hmatch⟩, hindex⟩ := hindex
    have hmatches : ∀ dn, updated.data.matches .object dn = true ↔ dn = key := fun dn => by
      rw [ConsoleItem.matches_iff] at hmatch ⊢
      rw [hmatch.1, hmatch.2, Option.some_inj]
      exact ⟨fun h => h.2.symm, fun h => ⟨rfl, h.symm⟩⟩
    obtain ⟨hself, hother⟩ := @ConsoleTree.mem_objectLoad tree _ (newObject key) hupdated
    rw [hid] at hself hother
    have hrest : ∀ dn ∈ keys, ∃ row ∈ (ConsoleTree.objectLoad tree (index key)
        (newObject key)).rows, row.id = index dn ∧ row.data.matches .object dn = true := by
      intro dn hdn
      obtain ⟨row, hrow, hrowId, hrowMatch⟩ := hindex dn hdn
      refine ⟨row, hother row hrow ?_, hrowId, hrowMatch⟩
      rintro rfl
      exact hnodup.1 ((hmatches dn).1 hrowMatch ▸ hdn)
    obtain ⟨hcount, hrows⟩ := ih hnodup.2 hkeys.2 hfresh.2 hrest
    rw [List.foldl_cons]
    refine ⟨fun dn hdn => ?_, fun row hrow => ?_⟩
    · have hne : (newObject key).dn ≠ dn := fun heq => hfresh.1 (heq ▸ hdn)
      rw [hcount dn hdn, ← hid, ConsoleTree.itemCount_objectLoad hupdated hne,
        if_congr (hmatches dn) rfl rfl, Nat.sub_sub]
      by_cases hkey : dn = key
      · rw [hkey, if_pos rfl, if_neg hnodup.1, if_pos List.mem_cons_self]
      · rw [if_neg hkey, Nat.zero_add, if_congr (List.mem_cons.trans (or_iff_right hkey)) rfl rfl]
    · by_cases heq : row = updated
      · obtain ⟨row', hrow', hrowId, hsame | ⟨dn, hdn, hagain, -⟩⟩ := hrows _ hself
        · rw [heq]
          exact ⟨row', hrow', hrowId.trans hid.symm,
            .inr ⟨key, List.mem_cons_self, hmatch, by rw [hsame]⟩⟩
        · -- the new DN would be an old one
          have hnew : (newObject key).dn = dn :=
            Option.some.inj (ConsoleItem.matches_iff.1 hagain).2
          exact absurd (hkeys.2 dn hdn) (hnew ▸ hfresh.1)
      · obtain ⟨row', hrow', hrowId, hsame | ⟨dn, hdn, hrowMatch, hnew⟩⟩ :=
          hrows row (hother row hrow heq)
        · exact ⟨row', hrow', hrowId, .inl hsame⟩
        · exact ⟨row', hrow', hrowId, .inr ⟨dn, List.mem_cons_of_mem _ hdn, hrowMatch, hnew⟩⟩

end

section
variable {tree : ConsoleTree} {row row' row'' : Row ConsoleItem} {newDn : String → String}
  {oldToNewDnMap : QHash String String} {objectMap : QHash String AdObject} {rt : Runtime}
  {newParentDn : String} {searchObject : String → AdObject}

/-- The new DNs are none of the old ones, as when objects are moved to one parent, or one
    object is renamed, and the objects are found by them. -/
structure NewDns (oldToNewDnMap : QHash String String) (objectMap : QHash String AdObject) :
    Prop where
  fresh : ∀ oldDn ∈ oldToNewDnMap.keys, oldToNewDnMap.value oldDn "" ∉ oldToNewDnMap.keys
  found : ∀ oldDn ∈ oldToNewDnMap.keys,
    (objectMap.value (oldToNewDnMap.value oldDn "") .empty).dn = oldToNewDnMap.value oldDn ""
  values : ∀ object ∈ objectMap.values, object.dn ∉ oldToNewDnMap.keys

/-- The items of a tree that had old DNs have the new ones. -/
def ItemsUpdated (oldToNewDnMap : QHash String String) (tree tree' : ConsoleTree) : Prop :=
  ∀ row ∈ tree.rows, ∃ row' ∈ tree'.rows,
    UpdatedRow (oldToNewDnMap.value · "") oldToNewDnMap.keys row row'

theorem updateItems_spec (h : NewDns oldToNewDnMap objectMap) :
    (∀ oldDn ∈ oldToNewDnMap.keys,
      itemCount (some (updateItems tree oldToNewDnMap objectMap)) .object oldDn =
        itemCount (some tree) .object oldDn - 1) ∧
    ItemsUpdated oldToNewDnMap tree (updateItems tree oldToNewDnMap objectMap) := by
  have hindexes := @indexes_itemIndexMap tree oldToNewDnMap.keys
  have hkeys : ∀ oldDn ∈ (itemIndexMap tree oldToNewDnMap.keys).keys,
      oldDn ∈ oldToNewDnMap.keys := fun oldDn hold => ((hindexes.mem_keys oldDn).1 hold).1
  obtain ⟨hcount, hrows⟩ := @foldl_objectLoad tree
    (fun oldDn => (itemIndexMap tree oldToNewDnMap.keys).value oldDn 0)
    (fun oldDn => objectMap.value (oldToNewDnMap.value oldDn "") .empty) oldToNewDnMap.keys _
    hindexes.nodup hkeys
    (fun oldDn hold => by
      rw [h.found oldDn (hkeys oldDn hold)]
      exact h.fresh oldDn (hkeys oldDn hold))
    hindexes.value
  refine ⟨fun oldDn hold => ?_, fun row hrow => ?_⟩
  · rw [updateItems, hcount oldDn hold]
    split_ifs with hkey
    · rfl
    · -- there is no such item
      have hzero : itemCount (some tree) .object oldDn = 0 := by
        by_contra hne
        exact hkey ((hindexes.mem_keys oldDn).2 ⟨hold, hne⟩)
      rw [hzero]
  · obtain ⟨row', hrow', hid, hsame | ⟨oldDn, hold, hmatch, hnew⟩⟩ := hrows row hrow
    · exact ⟨row', hrow', hid, .inl hsame⟩
    · exact ⟨row', hrow', hid, .inr ⟨oldDn, hkeys oldDn hold, hmatch,
        hnew.trans (congrArg some (h.found oldDn (hkeys oldDn hold)))⟩⟩

/-- An item that has a new DN is not updated again. -/
theorem ItemsUpdated.trans {tree' tree'' : ConsoleTree} (hnew : NewDns oldToNewDnMap objectMap)
    (h : ItemsUpdated oldToNewDnMap tree tree') (h' : ItemsUpdated oldToNewDnMap tree' tree'') :
    ItemsUpdated oldToNewDnMap tree tree'' := by
  intro row hrow
  obtain ⟨row', hrow', hid, hupdated⟩ := h row hrow
  obtain ⟨row'', hrow'', hid', hsame' | ⟨oldDn', hold', hmatch', hdn'⟩⟩ := h' row' hrow'
  · exact ⟨row'', hrow'', hid'.trans hid, by rwa [hsame']⟩
  · rcases hupdated with rfl | ⟨oldDn, hold, -, hdn⟩
    · exact ⟨row'', hrow'', hid', .inr ⟨oldDn', hold', hmatch', hdn'⟩⟩
    · have heq : oldToNewDnMap.value oldDn "" = oldDn' :=
        Option.some.inj (hdn.symm.trans (ConsoleItem.matches_iff.1 hmatch').2)
      exact absurd (heq ▸ hold') (hnew.fresh oldDn hold)

/-- No old DN is left in the tree of objects. -/
theorem itemCount_moveObjectItems (h : NewDns oldToNewDnMap objectMap) :
    ∀ oldDn ∈ oldToNewDnMap.keys, itemCount (some (moveObjectItems oldToNewDnMap newParentDn
      objectMap tree)) .object oldDn = 0 := by
  intro oldDn hold
  rw [itemCount_some_eq_zero]
  intro row hrow hmatch
  obtain hrow | ⟨object, hobject, hdn⟩ := mem_addObjectsToConsole hrow
  · exact (mem_deleteDnList hrow).2 oldDn hold hmatch
  · have heq : object.dn = oldDn :=
      Option.some.inj (hdn.symm.trans (ConsoleItem.matches_iff.1 hmatch).2)
    exact h.values object hobject (heq ▸ hold)

/-- No old DN is left in the tree of policies, if it has the new parent; otherwise nothing
    happens to it. -/
theorem itemCount_movePolicyItems :
    ∀ oldDn ∈ oldToNewDnMap.keys, itemCount (some (movePolicyItems rt oldToNewDnMap newParentDn
      objectMap tree)) .policyOu oldDn =
        if itemCount (some tree) .policyOu newParentDn = 0 then
          itemCount (some tree) .policyOu oldDn
        else 0 := by
  intro oldDn hold
  rw [movePolicyItems, ConsoleTree.searchItem]
  cases hsearch : ConsoleTree.searchItems tree newParentDn .policyOu with
  | nil =>
    rw [if_pos (ConsoleTree.searchItems_eq_nil.1 hsearch)]
    rfl
  | cons i indexes =>
    have hparent : itemCount (some tree) .policyOu newParentDn ≠ 0 := fun hzero =>
      List.cons_ne_nil _ _ (hsearch.symm.trans (ConsoleTree.searchItems_eq_nil.2 hzero))
    rw [if_neg hparent, itemCount_some_eq_zero]
    intro row hrow hmatch
    exact (mem_deleteDnList hrow).2 oldDn hold hmatch

end

/-! ## The DNs and the objects -/

section
variable {map : QHash String String} {searchObject : String → AdObject} {list : List String}
  {dn oldDn : String} {object : AdObject}

/-- The DNs that have changed, with the new ones. -/
structure ChangedDns (map : QHash String String) (oldDns : List String)
    (changedDn : QHash String String) : Prop where
  nodup : changedDn.keys.Nodup
  mem_keys : ∀ oldDn, oldDn ∈ changedDn.keys ↔ oldDn ∈ oldDns ∧ map.value oldDn "" ≠ oldDn
  value : ∀ oldDn ∈ changedDn.keys, changedDn.value oldDn "" = map.value oldDn ""

theorem changedDns_foldl (oldDns : List String) : ChangedDns map oldDns
    (oldDns.foldl (fun changedDn oldDn =>
      let newDn := map.value oldDn ""
      if newDn ≠ oldDn then changedDn.insert oldDn newDn else changedDn) []) := by
  induction oldDns using List.reverseRecOn with
  | nil => exact ⟨List.nodup_nil, fun _ => iff_of_false List.not_mem_nil (by simp), nofun⟩
  | append_singleton oldDns last ih =>
    rw [List.foldl_append, List.foldl_cons, List.foldl_nil]
    dsimp only at ih ⊢
    split_ifs with hchanged
    · refine ⟨QHash.nodup_keys_insert ih.nodup, fun oldDn => ?_, fun oldDn hold => ?_⟩
      · rw [QHash.mem_keys_insert, ih.mem_keys, List.mem_append, List.mem_singleton, or_and_right,
          or_comm]
        exact or_congr_right ⟨fun h => ⟨h, h ▸ hchanged⟩, fun h => h.1⟩
      · rw [QHash.value_insert]
        split_ifs with heq
        · rw [heq]
        · exact ih.value oldDn ((QHash.mem_keys_insert.1 hold).resolve_left heq)
    · refine ⟨ih.nodup, fun oldDn => ?_, ih.value⟩
      rw [ih.mem_keys, List.mem_append, List.mem_singleton, or_and_right, or_iff_left]
      rintro ⟨rfl, h⟩
      exact hchanged h

theorem changedDns_adSelectChangedDn : ChangedDns map map.keys (adSelectChangedDn map) :=
  changedDns_foldl map.keys

theorem value_adSearchObjects (h : dn ∈ list) :
    (adSearchObjects searchObject list).value dn .empty = searchObject dn := by
  induction list using List.reverseRecOn with
  | nil => exact absurd h List.not_mem_nil
  | append_singleton list last ih =>
    rw [adSearchObjects, List.foldl_append, List.foldl_cons, List.foldl_nil, ← adSearchObjects,
      QHash.value_insert]
    split_ifs with heq
    · rw [heq]
    · exact ih ((List.mem_append.1 h).resolve_right fun hmem => heq (List.mem_singleton.1 hmem))

theorem mem_values_adSearchObjects (h : object ∈ (adSearchObjects searchObject list).values) :
    ∃ dn ∈ list, object = searchObject dn := by
  induction list using List.reverseRecOn with
  | nil => exact absurd h List.not_mem_nil
  | append_singleton list last ih =>
    rw [adSearchObjects, List.foldl_append, List.foldl_cons, List.foldl_nil, ← adSearchObjects] at h
    obtain rfl | h := QHash.mem_values_insert h
    · exact ⟨last, List.mem_append_right _ List.mem_cons_self, rfl⟩
    · obtain ⟨dn, hdn, hobject⟩ := ih h
      exact ⟨dn, List.mem_append_left _ hdn, hobject⟩

/-- Objects that are found have their DNs. -/
theorem newDns_adSearchObjects
    (hfresh : ∀ oldDn ∈ (adSelectChangedDn map).keys,
      (adSelectChangedDn map).value oldDn "" ∉ (adSelectChangedDn map).keys)
    (hfound : ∀ dn ∈ (adSelectChangedDn map).values, (searchObject dn).dn = dn) :
    NewDns (adSelectChangedDn map)
      (adSearchObjects searchObject (adSelectChangedDn map).values) where
  fresh := hfresh
  found oldDn hold := by
    have hvalue := (QHash.mem_values "" changedDns_adSelectChangedDn.nodup).2
      ⟨oldDn, hold, rfl⟩
    rw [value_adSearchObjects hvalue, hfound _ hvalue]
  values object hobject := by
    obtain ⟨dn, hdn, rfl⟩ := mem_values_adSearchObjects hobject
    rw [hfound dn hdn]
    obtain ⟨oldDn, hold, rfl⟩ :=
      (QHash.mem_values "" changedDns_adSelectChangedDn.nodup).1 hdn
    exact hfresh oldDn hold

end

/-! ## Stale DNs -/

/-- The items of a tree that had old DNs have the new ones. -/
def HaveNewDns (oldToNewDnMap : QHash String String) (tree tree' : Option ConsoleTree) : Prop :=
  ∀ t ∈ tree, ∀ row ∈ t.rows, ∀ oldDn ∈ oldToNewDnMap.keys,
    row.data.matches .object oldDn = true → ∃ t' ∈ tree', ∃ row' ∈ t'.rows,
      row'.id = row.id ∧ row'.data.dn = some (oldToNewDnMap.value oldDn "")

/-- No item with an old DN is left, and the items in the trees of queries and of found objects
    that had one have the new one. -/
structure NoStaleDn (oldToNewDnMap : QHash String String) (console console' : ConsoleWidget) :
    Prop where
  domainObjectTree : ∀ oldDn ∈ oldToNewDnMap.keys,
    itemCount console'.domainObjectTree .object oldDn = 0
  sitesContainerTree : ∀ oldDn ∈ oldToNewDnMap.keys,
    itemCount console'.sitesContainerTree .object oldDn = 0
  queryTree : ∀ oldDn ∈ oldToNewDnMap.keys, itemCount console'.queryTree .object oldDn = 0
  findObjectTree : ∀ oldDn ∈ oldToNewDnMap.keys,
    itemCount console'.findObjectTree .object oldDn = 0
  policyTree : ∀ oldDn ∈ oldToNewDnMap.keys, itemCount console'.policyTree .policyOu oldDn = 0
  queryUpdated : HaveNewDns oldToNewDnMap console.queryTree console'.queryTree
  findObjectUpdated : HaveNewDns oldToNewDnMap console.findObjectTree console'.findObjectTree

/-- The tree of objects that is not searched, and that of found objects, have no items for the
    old DNs; queries have at most two for each; and if there are units with old DNs in the tree
    of policies, it has the new parent. -/
structure ShowsFew (sitesContainerDn : String) (oldToNewDnMap : QHash String String)
    (newParentDn : String) (console : ConsoleWidget) : Prop where
  otherTree : ∀ oldDn ∈ oldToNewDnMap.keys,
    itemCount (if isInSites sitesContainerDn newParentDn then console.domainObjectTree
      else console.sitesContainerTree) .object oldDn = 0
  queryTree : ∀ oldDn ∈ oldToNewDnMap.keys, itemCount console.queryTree .object oldDn ≤ 2
  findObjectTree : ∀ oldDn ∈ oldToNewDnMap.keys,
    itemCount console.findObjectTree .object oldDn = 0
  policyTree : ∀ oldDn ∈ oldToNewDnMap.keys, itemCount console.policyTree .policyOu oldDn = 0 ∨
    itemCount console.policyTree .policyOu newParentDn ≠ 0

section
variable {rt : Runtime} {sitesContainerDn newParentDn : String}
  {oldToNewDnMap : QHash String String} {objectMap : QHash String AdObject}
  {console : ConsoleWidget} {tree : Option ConsoleTree}

theorem itemCount_map_moveObjectItems (h : NewDns oldToNewDnMap objectMap) :
    ∀ oldDn ∈ oldToNewDnMap.keys, itemCount (tree.map (moveObjectItems oldToNewDnMap newParentDn
      objectMap)) .object oldDn = 0 := by
  cases tree with
  | none => exact fun _ _ => rfl
  | some tree => exact itemCount_moveObjectItems h

/-- Two items for each DN are updated. -/
theorem itemCount_map_updateItems (h : NewDns oldToNewDnMap objectMap) :
    ∀ oldDn ∈ oldToNewDnMap.keys,
      itemCount ((tree.map (updateItems · oldToNewDnMap objectMap)).map
        (updateItems · oldToNewDnMap objectMap)) .object oldDn =
        itemCount tree .object oldDn - 2 := by
  cases tree with
  | none => exact fun _ _ => rfl
  | some tree =>
    intro oldDn hold
    rw [Option.map_some, Option.map_some, (updateItems_spec h).1 oldDn hold,
      (updateItems_spec h).1 oldDn hold, Nat.sub_sub]

theorem itemCount_map_movePolicyItems :
    ∀ oldDn ∈ oldToNewDnMap.keys, itemCount (tree.map (movePolicyItems rt oldToNewDnMap newParentDn
      objectMap)) .policyOu oldDn = 0 ↔
        itemCount tree .policyOu oldDn = 0 ∨ itemCount tree .policyOu newParentDn ≠ 0 := by
  cases tree with
  | none => exact fun _ _ => iff_of_true rfl (.inl rfl)
  | some tree =>
    intro oldDn hold
    rw [Option.map_some, itemCount_movePolicyItems oldDn hold]
    split_ifs with hparent
    · rw [or_iff_left (not_not.2 hparent)]
    · exact iff_of_true rfl (.inr hparent)

/-- Where no old DN is left, the items that had one have the new one. -/
theorem haveNewDns_of_itemCount (h : NewDns oldToNewDnMap objectMap)
    (hnone : ∀ oldDn ∈ oldToNewDnMap.keys,
      itemCount ((tree.map (updateItems · oldToNewDnMap objectMap)).map
        (updateItems · oldToNewDnMap objectMap)) .object oldDn = 0) :
    HaveNewDns oldToNewDnMap tree ((tree.map (updateItems · oldToNewDnMap objectMap)).map
      (updateItems · oldToNewDnMap objectMap)) := by
  intro t ht row hrow oldDn hold hmatch
  subst ht
  have hupdated := (@updateItems_spec t _ _ h).2.trans h (updateItems_spec h).2
  obtain ⟨row', hrow', hid, hsame | ⟨oldDn', -, hmatch', hdn⟩⟩ := hupdated row hrow
  · -- the item would still have its old DN
    exact absurd (hsame ▸ hmatch) (itemCount_some_eq_zero.1 (hnone oldDn hold) row' hrow')
  · refine ⟨_, rfl, row', hrow', hid, ?_⟩
    have heq : oldDn' = oldDn := Option.some.inj
      ((ConsoleItem.matches_iff.1 hmatch').2.symm.trans (ConsoleItem.matches_iff.1 hmatch).2)
    rw [hdn, heq]

/-- In one console no old DN is left exactly when it shows few items with old DNs. -/
theorem noStaleDn_applyChanges_iff (h : NewDns oldToNewDnMap objectMap) :
    NoStaleDn oldToNewDnMap console
      (applyChanges rt sitesContainerDn oldToNewDnMap newParentDn objectMap console) ↔
      ShowsFew sitesContainerDn oldToNewDnMap newParentDn console := by
  have hmoved := @itemCount_map_moveObjectItems newParentDn oldToNewDnMap objectMap
  have hquery := @itemCount_map_updateItems oldToNewDnMap objectMap console.queryTree h
  have hpolicy := @itemCount_map_movePolicyItems rt newParentDn oldToNewDnMap objectMap
    console.policyTree
  rw [applyChanges]
  constructor
  · rintro ⟨hdomain, hsites, hquery', hfind, hpolicy', -, -⟩
    refine ⟨?_, fun oldDn hold => ?_, ?_, fun oldDn hold => ?_⟩
    · split_ifs at hdomain hsites ⊢
      · exact hdomain
      · exact hsites
    · have hzero := hquery' oldDn hold
      split_ifs at hzero <;> exact Nat.sub_eq_zero_iff_le.1 ((hquery oldDn hold).symm.trans hzero)
    · split_ifs at hfind <;> exact hfind
    · have hzero := hpolicy' oldDn hold
      split_ifs at hzero <;> exact (hpolicy oldDn hold).1 hzero
  · rintro ⟨hother, htwo, hfind, hpolicy'⟩
    have hzero : ∀ oldDn ∈ oldToNewDnMap.keys,
        itemCount ((console.queryTree.map (updateItems · oldToNewDnMap objectMap)).map
          (updateItems · oldToNewDnMap objectMap)) .object oldDn = 0 := fun oldDn hold => by
      rw [hquery oldDn hold]
      exact Nat.sub_eq_zero_of_le (htwo oldDn hold)
    have hupdated := haveNewDns_of_itemCount h hzero
    have hfound : HaveNewDns oldToNewDnMap console.findObjectTree console.findObjectTree := by
      intro t ht row hrow oldDn hold hmatch
      have hnone := hfind oldDn hold
      rw [Option.mem_def.1 ht] at hnone
      exact absurd hmatch (itemCount_some_eq_zero.1 hnone row hrow)
    split_ifs at hother ⊢
    · exact ⟨hother, hmoved h, hzero, hfind, fun oldDn hold =>
        (hpolicy oldDn hold).2 (hpolicy' oldDn hold), hupdated, hfound⟩
    · exact ⟨hmoved h, hother, hzero, hfind, fun oldDn hold =>
        (hpolicy oldDn hold).2 (hpolicy' oldDn hold), hupdated, hfound⟩

end

/-- In all consoles no old DN is left, and the items that are updated have the new ones, exactly
    when each console shows few items with old DNs. -/
theorem noStaleDn_iff (rt : Runtime) (sitesContainerDn newParentDn : String)
    (map : QHash String String) (searchObject : String → AdObject)
    (consoleList : List ConsoleWidget)
    (hfresh : ∀ oldDn ∈ (adSelectChangedDn map).keys,
      (adSelectChangedDn map).value oldDn "" ∉ (adSelectChangedDn map).keys)
    (hfound : ∀ dn ∈ (adSelectChangedDn map).values, (searchObject dn).dn = dn) :
    List.Forall₂ (NoStaleDn (adSelectChangedDn map)) consoleList
      (consoleObjectMoveAndRename rt sitesContainerDn newParentDn searchObject map consoleList) ↔
    ∀ console ∈ consoleList,
      ShowsFew sitesContainerDn (adSelectChangedDn map) newParentDn console := by
  have hnew := newDns_adSearchObjects hfresh hfound
  rw [consoleObjectMoveAndRename, List.forall₂_map_right_iff, List.forall₂_same]
  exact forall₂_congr fun console _ => noStaleDn_applyChanges_iff hnew

/-! ## The callers -/

/-- The map of `ObjectImpl::move`. -/
def objectImplMoveMap (oldDnList : List String) (newParentDn : String) : QHash String String :=
  oldDnList.foldl (fun oldToNewDnMap oldDn =>
    let newDn := String.ofList (dnMove oldDn.toList newParentDn.toList)
    oldToNewDnMap.insert oldDn newDn) []

theorem dnMove_dnMove (dn newParentDn : QString) :
    dnMove (dnMove dn newParentDn) newParentDn = dnMove dn newParentDn := by
  obtain ⟨p, t, hp, rfl, -⟩ := exists_commaTail dn
  rw [dnMove_commaTail hp]
  exact dnMove_commaTail (t := some newParentDn) hp newParentDn

theorem value_objectImplMoveMap {oldDnList : List String} {newParentDn oldDn : String}
    (h : oldDn ∈ (objectImplMoveMap oldDnList newParentDn).keys) :
    (objectImplMoveMap oldDnList newParentDn).value oldDn "" =
      String.ofList (dnMove oldDn.toList newParentDn.toList) := by
  induction oldDnList using List.reverseRecOn with
  | nil => exact absurd h List.not_mem_nil
  | append_singleton oldDnList last ih =>
    rw [objectImplMoveMap, List.foldl_append, List.foldl_cons, List.foldl_nil,
      ← objectImplMoveMap] at h ⊢
    rw [QHash.value_insert]
    split_ifs with heq
    · rw [heq]
    · exact ih ((QHash.mem_keys_insert.1 h).resolve_left heq)

/-- Objects that are moved to one parent get none of the old DNs. -/
theorem fresh_objectImplMoveMap (oldDnList : List String) (newParentDn : String) :
    ∀ oldDn ∈ (adSelectChangedDn (objectImplMoveMap oldDnList newParentDn)).keys,
      (adSelectChangedDn (objectImplMoveMap oldDnList newParentDn)).value oldDn "" ∉
        (adSelectChangedDn (objectImplMoveMap oldDnList newParentDn)).keys := by
  have hchanged := @changedDns_adSelectChangedDn (objectImplMoveMap oldDnList newParentDn)
  intro oldDn hold hnew
  obtain ⟨hkey, hne⟩ := (hchanged.mem_keys _).1 hnew
  rw [hchanged.value oldDn hold,
    value_objectImplMoveMap ((hchanged.mem_keys oldDn).1 hold).1] at hkey hne
  -- an object with the new DN would stay where it is
  refine hne ?_
  rw [value_objectImplMoveMap hkey, String.toList_ofList, dnMove_dnMove]

/-- An object that is renamed does not get its old DN. -/
theorem fresh_rename (oldDn newDn : String) :
    ∀ dn ∈ (adSelectChangedDn [(oldDn, newDn)]).keys,
      (adSelectChangedDn [(oldDn, newDn)]).value dn "" ∉
        (adSelectChangedDn [(oldDn, newDn)]).keys := by
  have hchanged := @changedDns_adSelectChangedDn [(oldDn, newDn)]
  intro dn hdn hnew
  obtain ⟨hmem, hne⟩ := (hchanged.mem_keys dn).1 hdn
  obtain ⟨hmem', -⟩ := (hchanged.mem_keys _).1 hnew
  rw [hchanged.value dn hdn] at hmem'
  exact hne ((List.mem_singleton.1 hmem').trans (List.mem_singleton.1 hmem).symm)

/-! ## A user is renamed -/

/-- A tree with items for a user below its root. -/
def userTree (n : ℕ) (root : ConsoleItemType) : ConsoleTree :=
  n.repeat (fun tree => ConsoleTree.addItem tree .object 1 "CN=a,DC=alt")
    (Forest.empty.add ⟨root, none, true⟩ 0 Forest.valid_zero)

/-- A console with items for a user: some in the tree of queries, some in that of found
    objects. -/
def userConsole (queries found : ℕ) : ConsoleWidget where
  domainObjectTree := none
  sitesContainerTree := none
  queryTree := some (userTree queries .queryFolder)
  findObjectTree := some (userTree found .findObject)
  policyTree := none

/-- A user with a DN. -/
def userObject (dn : String) : AdObject := ⟨dn, [("objectClass", [])]⟩

/-- The user is shown by two queries. -/
theorem noStaleDn_iff_two :
    List.Forall₂ (NoStaleDn (adSelectChangedDn [("CN=a,DC=alt", "CN=b,DC=alt")]))
      [userConsole 2 0] (consoleObjectMoveAndRename zeroRuntime "CN=Sites,DC=alt" "DC=alt"
        userObject [("CN=a,DC=alt", "CN=b,DC=alt")] [userConsole 2 0]) :=
  (noStaleDn_iff zeroRuntime "CN=Sites,DC=alt" "DC=alt" [("CN=a,DC=alt", "CN=b,DC=alt")] userObject
    [userConsole 2 0] (fresh_rename _ _) fun _ _ => rfl).2 fun console hconsole => by
      rw [List.mem_singleton.1 hconsole]
      exact ⟨by decide, by decide, by decide, by decide⟩

/-- The user has been found in the dialog, where the old DN stays. -/
theorem not_noStaleDn :
    ¬List.Forall₂ (NoStaleDn (adSelectChangedDn [("CN=a,DC=alt", "CN=b,DC=alt")]))
      [userConsole 0 1] (consoleObjectMoveAndRename zeroRuntime "CN=Sites,DC=alt" "DC=alt"
        userObject [("CN=a,DC=alt", "CN=b,DC=alt")] [userConsole 0 1]) := by
  intro h
  rw [consoleObjectMoveAndRename, List.forall₂_map_right_iff, List.forall₂_same] at h
  have hfound := (h _ (List.mem_singleton_self _)).findObjectTree "CN=a,DC=alt" (by decide)
  exact absurd hfound (by decide)

end Admc
