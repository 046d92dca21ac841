import Admc.Console.MoveAndRename

/-!
# Applied changes in the console

After properties have been applied, the objects are read again, and the rows that show them
are loaded: in the tree of the domain, in that of queries and in that of found objects, the
first row of each object.

`rowsShow_iff`: all rows of the objects show them exactly when each of the other rows did
before, and no attribute that is not set has a text in the rows that are loaded.
-/

namespace Admc

/-- A row of items: the first one has the data, and each one a text. -/
structure ShownItem where
  item : ConsoleItem
  texts : List String
  deriving DecidableEq

/-- A tree of a console with the texts of its rows. -/
abbrev ShownTree := Forest ShownItem

/-- The trees of a console with objects. -/
structure ShownConsole where
  domainObjectTree : Option ShownTree
  sitesContainerTree : Option ShownTree
  passwordSettingsTree : Option ShownTree
  queryTree : Option ShownTree
  findObjectTree : Option ShownTree

/-- `AdObject::contains`. -/
def AdObject.contains (object : AdObject) (attr : String) : Bool :=
  object.attributesData.contains attr

section
variable (columns : List String) (displayValue : AdObject → String → String)

/-- `object_load_attribute_columns`. -/
def objectLoadAttributeColumns (object : AdObject) (row : List String) : List String :=
  (List.range columns.length).foldl (fun row i =>
    if columns.length > row.length then row
    else
      let attr := columns.getD i ""
      if !object.contains attr then row else row.set i (displayValue object attr)) row

/-- `object_load`, for the DN and the texts. -/
def objectLoadRow (object : AdObject) (row : ShownItem) : ShownItem :=
  { item := { row.item with dn := some object.dn }
    texts := objectLoadAttributeColumns columns displayValue object row.texts }

/-- `ConsoleWidget::search_item`. -/
def searchShownItem (tree : ShownTree) (dn : String) (type : ConsoleItemType) : Option ℕ :=
  ConsoleTree.searchItem (tree.map ShownItem.item) dn type

/-- `ConsoleObjectTreeOperations::apply_changes_to_branch`. -/
def applyChangesToBranch (objectList : List AdObject) (itemType : ConsoleItemType)
    (tree : ShownTree) : ShownTree :=
  objectList.foldl (fun tree object =>
    match (searchShownItem tree object.dn itemType).bind tree.row? with
    | some row => tree.setData row.id (objectLoadRow columns displayValue object row.data)
    | none => tree) tree

/-- The part of `apply_changes` for rows of objects. -/
def applyObjectChanges (objectList : List AdObject) (console : ShownConsole) : ShownConsole :=
  let applyToTree := applyChangesToBranch columns displayValue objectList .object
  { console with
    domainObjectTree := console.domainObjectTree.map applyToTree
    queryTree := console.queryTree.map applyToTree
    findObjectTree := console.findObjectTree.map applyToTree }

/-- `on_object_properties_applied`. -/
def onObjectPropertiesApplied (searchObject : String → AdObject) (dnList : List String)
    (consoleList : List ShownConsole) : List ShownConsole :=
  let objectList := (dnList.map searchObject).filter fun object => !object.isEmpty
  consoleList.map (applyObjectChanges columns displayValue objectList)

/-! ## What rows show -/

/-- The row shows the object: each attribute column the value of its attribute, or nothing
    if it is not set. -/
def ShownItem.Shows (row : ShownItem) (object : AdObject) : Prop :=
  ∀ (i : ℕ) (text attr : String), row.texts[i]? = some text → columns[i]? = some attr →
    text = if object.contains attr then displayValue object attr else ""

/-- The row has no texts for attributes that are not set. -/
def ShownItem.BlankWhereUnset (row : ShownItem) (object : AdObject) : Prop :=
  ∀ (i : ℕ) (text attr : String), row.texts[i]? = some text → columns[i]? = some attr →
    object.contains attr = false → text = ""

/-- The trees in which rows are loaded. -/
def ShownConsole.loadedTrees (console : ShownConsole) : List ShownTree :=
  console.domainObjectTree.toList ++ console.queryTree.toList ++ console.findObjectTree.toList

/-- The other trees. -/
def ShownConsole.otherTrees (console : ShownConsole) : List ShownTree :=
  console.sitesContainerTree.toList ++ console.passwordSettingsTree.toList

/-- All rows of the objects show them. -/
def RowsShow (searchObject : String → AdObject) (dnList : List String)
    (consoleList : List ShownConsole) : Prop :=
  ∀ console ∈ consoleList, ∀ tree ∈ console.loadedTrees ++ console.otherTrees,
    ∀ row ∈ tree.rows, ∀ dn ∈ dnList, row.data.item.matches .object dn →
      row.data.Shows columns displayValue (searchObject dn)

/-- The row is the one that is loaded for its object, and has all columns. -/
def IsLoaded (tree : ShownTree) (row : Row ShownItem) (dn : String) : Prop :=
  searchShownItem tree dn .object = some row.id ∧ columns.length ≤ row.data.texts.length

/-- The rows of the objects that are loaded have no texts for attributes that are not set, and
    the other ones show the objects already. -/
def WillShow (searchObject : String → AdObject) (dnList : List String)
    (consoleList : List ShownConsole) : Prop :=
  ∀ console ∈ consoleList,
    (∀ tree ∈ console.loadedTrees, ∀ row ∈ tree.rows, ∀ dn ∈ dnList,
      row.data.item.matches .object dn →
        (IsLoaded columns tree row dn → row.data.BlankWhereUnset columns (searchObject dn)) ∧
        (¬IsLoaded columns tree row dn →
          row.data.Shows columns displayValue (searchObject dn))) ∧
    ∀ tree ∈ console.otherTrees, ∀ row ∈ tree.rows, ∀ dn ∈ dnList,
      row.data.item.matches .object dn → row.data.Shows columns displayValue (searchObject dn)

/-- The objects are there, and are found by their DNs. -/
def ReadsSucceed (searchObject : String → AdObject) (dnList : List String) : Prop :=
  ∀ dn ∈ dnList, (searchObject dn).isEmpty = false ∧ (searchObject dn).dn = dn

end

/-! ## What is loaded -/

section
variable {columns : List String} {displayValue : AdObject → String → String} {object : AdObject}
  {row : List String}

/-- What a loop over the columns has done to a row, up to a column. -/
theorem foldl_set_spec {wanted : ℕ → Bool} {value : ℕ → String} {count : ℕ}
    (h : count ≤ row.length) (n : ℕ) :
    let loaded := (List.range n).foldl (fun row i =>
      if count > row.length then row else if !wanted i then row else row.set i (value i)) row
    loaded.length = row.length ∧ ∀ i : ℕ, loaded[i]? =
      if i < n ∧ wanted i = true then row[i]?.map fun _ => value i else row[i]? := by
  induction n with
  | zero => exact ⟨rfl, fun i => by simp⟩
  | succ n ih =>
    simp only [List.range_succ, List.foldl_append, List.foldl_cons, List.foldl_nil] at ih ⊢
    generalize (List.range n).foldl _ row = loaded at ih ⊢
    obtain ⟨hlength, hloaded⟩ := ih
    rw [if_neg (by omega)]
    cases hwanted : wanted n with
    | false =>
      -- Nothing is done in this column.
      refine ⟨hlength, fun i => (hloaded i).trans ?_⟩
      by_cases hi : i = n
      · simp [hi, hwanted]
      · have hlt : i < n + 1 ↔ i < n := by omega
        simp [hlt]
    | true =>
      rw [if_neg (by decide)]
      refine ⟨(List.length_set).trans hlength, fun i => ?_⟩
      by_cases hi : i = n
      · subst hi
        rw [List.getElem?_set, hlength]
        by_cases hrow : i < row.length
        · simp [hwanted, hrow]
        · simp [hrow]
      · have hlt : i < n + 1 ↔ i < n := by omega
        rw [List.getElem?_set_ne (Ne.symm hi), hloaded]
        simp [hlt]

theorem objectLoadAttributeColumns_of_lt (h : row.length < columns.length) :
    objectLoadAttributeColumns columns displayValue object row = row := by
  rw [objectLoadAttributeColumns]
  generalize hrange : List.range columns.length = indexes
  clear hrange
  induction indexes with
  | nil => rfl
  | cons i indexes ih => rwa [List.foldl_cons, if_pos h]

theorem length_objectLoadAttributeColumns :
    (objectLoadAttributeColumns columns displayValue object row).length = row.length := by
  by_cases h : columns.length ≤ row.length
  · exact (@foldl_set_spec row (fun i => object.contains (columns.getD i ""))
      (fun i => displayValue object (columns.getD i "")) columns.length h columns.length).1
  · rw [objectLoadAttributeColumns_of_lt (not_le.1 h)]

/-- What the text of a column is replaced by: the value of its attribute, if it is set. -/
def loadedText (columns : List String) (displayValue : AdObject → String → String)
    (object : AdObject) (i : ℕ) (text : String) : String :=
  match columns[i]? with
  | some attr => if object.contains attr then displayValue object attr else text
  | none => text

theorem getElem?_objectLoadAttributeColumns (h : columns.length ≤ row.length) (i : ℕ) :
    (objectLoadAttributeColumns columns displayValue object row)[i]? =
      row[i]?.map (loadedText columns displayValue object i) := by
  have hspec := (@foldl_set_spec row (fun i => object.contains (columns.getD i ""))
    (fun i => displayValue object (columns.getD i "")) columns.length h columns.length).2 i
  refine hspec.trans ?_
  cases hattr : columns[i]? with
  | none =>
    have hi : ¬i < columns.length := not_lt.2 (List.getElem?_eq_none_iff.1 hattr)
    have hsame : loadedText columns displayValue object i = id := by
      funext text
      simp only [loadedText, hattr, id]
    rw [if_neg fun h => hi h.1, hsame, Option.map_id, id]
  | some attr =>
    have hi : i < columns.length := (List.getElem?_eq_some_iff.1 hattr).1
    have hcolumn : columns.getD i "" = attr := by simp [hattr]
    have htext : loadedText columns displayValue object i = fun text =>
        if object.contains attr then displayValue object attr else text := by
      funext text
      simp only [loadedText, hattr]
    rw [hcolumn, htext]
    cases hcontains : object.contains attr <;> cases row[i]? <;> simp [hi]

/-- What a row shows once an object has been loaded into it. -/
theorem shows_objectLoadRow {item : ShownItem} :
    (objectLoadRow columns displayValue object item).Shows columns displayValue object ↔
      (columns.length ≤ item.texts.length → item.BlankWhereUnset columns object) ∧
        (¬columns.length ≤ item.texts.length → item.Shows columns displayValue object) := by
  by_cases hlength : columns.length ≤ item.texts.length
  · rw [and_iff_left fun h => absurd hlength h, forall_prop_of_true hlength]
    constructor
    · intro h i text attr htext hattr hcontains
      have hloaded := @getElem?_objectLoadAttributeColumns columns displayValue object _ hlength i
      rw [htext, Option.map_some, loadedText, hattr] at hloaded
      simpa [hcontains] using h i _ attr hloaded hattr
    · intro h i text attr htext hattr
      have hloaded := @getElem?_objectLoadAttributeColumns columns displayValue object _ hlength i
      obtain ⟨old, hold, rfl⟩ := Option.map_eq_some_iff.1 (hloaded.symm.trans htext)
      rw [loadedText, hattr]
      dsimp only
      split_ifs with hcontains
      · rfl
      · exact h i old attr hold hattr (eq_false_of_ne_true hcontains)
  · rw [and_iff_right fun h => absurd h hlength, forall_prop_of_true hlength]
    have heq := @objectLoadAttributeColumns_of_lt columns displayValue object _ (not_le.1 hlength)
    unfold ShownItem.Shows objectLoadRow
    rw [heq]

/-- Loading an object twice is loading it once. -/
theorem objectLoadRow_objectLoadRow {item : ShownItem} :
    objectLoadRow columns displayValue object (objectLoadRow columns displayValue object item) =
      objectLoadRow columns displayValue object item := by
  have htext : ∀ (i : ℕ) (text : String), loadedText columns displayValue object i
      (loadedText columns displayValue object i text) =
        loadedText columns displayValue object i text := by
    intro i text
    unfold loadedText
    cases columns[i]? with
    | none => rfl
    | some attr =>
      dsimp only
      split_ifs <;> rfl
  have htexts : objectLoadAttributeColumns columns displayValue object
      (objectLoadAttributeColumns columns displayValue object item.texts) =
        objectLoadAttributeColumns columns displayValue object item.texts := by
    by_cases hlength : columns.length ≤ item.texts.length
    · refine List.ext_getElem? fun i => ?_
      rw [getElem?_objectLoadAttributeColumns (length_objectLoadAttributeColumns.symm ▸ hlength),
        getElem?_objectLoadAttributeColumns hlength, Option.map_map]
      exact congrArg (Option.map · item.texts[i]?) (funext fun text => htext i text)
    · have heq := @objectLoadAttributeColumns_of_lt columns displayValue object _
        (not_le.1 hlength)
      rw [heq, heq]
  rw [objectLoadRow, objectLoadRow, htexts]

end

/-! ## Which rows are loaded -/

section
variable {columns : List String} {displayValue : AdObject → String → String}

/-- A loop that does the same again if it does anything. -/
theorem foldl_same {α β : Type} {f : β → α → β} {p : α → Prop} [DecidablePred p] {l : List α}
    {a : α} {b : β} (hsame : ∀ x ∈ l, p x → x = a) (hf : f (f b a) a = f b a) :
    l.foldl (fun b x => if p x then f b x else b) b = if ∃ x ∈ l, p x then f b a else b := by
  -- Once it has been done, nothing changes.
  have hdone : ∀ l : List α, (∀ x ∈ l, p x → x = a) →
      l.foldl (fun b x => if p x then f b x else b) (f b a) = f b a := by
    intro l hsame
    induction l with
    | nil => rfl
    | cons x l ih =>
      rw [List.forall_mem_cons] at hsame
      rw [List.foldl_cons]
      split_ifs with hx
      · rw [hsame.1 hx, hf, ih hsame.2]
      · exact ih hsame.2
  induction l with
  | nil => simp
  | cons x l ih =>
    rw [List.forall_mem_cons] at hsame
    rw [List.foldl_cons]
    by_cases hx : p x
    · obtain rfl := hsame.1 hx
      rw [if_pos hx, hdone l hsame.2, if_pos ⟨x, List.mem_cons_self, hx⟩]
    · rw [if_neg hx, ih hsame.2]
      simp [hx]

variable {tree : ShownTree} {objectList : List AdObject} {type : ConsoleItemType}

/-- The row that is found for a DN has it. -/
theorem searchShownItem_eq_some {dn : String} {i : ℕ}
    (h : searchShownItem tree dn type = some i) :
    ∃ row ∈ tree.rows, row.id = i ∧ row.data.item.matches type dn = true := by
  have hmem := ConsoleTree.mem_searchItems.1 (List.mem_of_mem_head? h)
  obtain ⟨_, hrow, rfl, hmatch⟩ := hmem
  obtain ⟨row, hmem, rfl⟩ := List.mem_map.1 hrow
  exact ⟨row, hmem, rfl, hmatch⟩

/-- The data of a row once the objects have been loaded. -/
def loadedItem (columns : List String) (displayValue : AdObject → String → String)
    (tree : ShownTree) (type : ConsoleItemType) (objectList : List AdObject)
    (row : Row ShownItem) : ShownItem :=
  objectList.foldl (fun item object =>
    if searchShownItem tree object.dn type = some row.id then
      objectLoadRow columns displayValue object item
    else item) row.data

/-- One object is loaded into the row that is found for it. -/
def loadObject (columns : List String) (displayValue : AdObject → String → String)
    (type : ConsoleItemType) (tree : ShownTree) (object : AdObject) : ShownTree :=
  match (searchShownItem tree object.dn type).bind tree.row? with
  | some row => tree.setData row.id (objectLoadRow columns displayValue object row.data)
  | none => tree

/-- Loading an object changes the data of its row only. -/
theorem rows_loadObject (object : AdObject) :
    (loadObject columns displayValue type tree object).rows = tree.rows.map fun row =>
      if searchShownItem tree object.dn type = some row.id then
        { row with data := objectLoadRow columns displayValue object row.data }
      else row := by
  rw [loadObject]
  cases hsearch : searchShownItem tree object.dn type with
  | none => simp
  | some i =>
    obtain ⟨row, hrow, rfl, -⟩ := searchShownItem_eq_some hsearch
    rw [Option.bind_some, Forest.row?_of_mem hrow]
    refine List.map_congr_left fun row' hrow' => ?_
    by_cases hid : row'.id = row.id
    · rw [Forest.row_eq_of_id hrow' hrow hid, if_pos rfl, if_pos rfl]
    · rw [if_neg hid, if_neg fun h => hid (Option.some.inj h).symm]

/-- Loading an object does not change which rows are found. -/
theorem searchShownItem_loadObject (object : AdObject) (dn : String) :
    searchShownItem (loadObject columns displayValue type tree object) dn type =
      searchShownItem tree dn type := by
  have hnext : (loadObject columns displayValue type tree object).next = tree.next := by
    rw [loadObject]
    split <;> rfl
  have hmap : (loadObject columns displayValue type tree object).map ShownItem.item =
      tree.map ShownItem.item := by
    refine Forest.ext ?_ hnext
    rw [Forest.rows_map, Forest.rows_map, rows_loadObject, List.map_map]
    refine List.map_congr_left fun row hrow => ?_
    simp only [Function.comp]
    split_ifs with hfound
    · -- The row that is loaded has the DN of the object.
      obtain ⟨row', hrow', hid, hmatch⟩ := searchShownItem_eq_some hfound
      obtain rfl := Forest.row_eq_of_id hrow' hrow hid
      obtain ⟨-, hdn⟩ := ConsoleItem.matches_iff.1 hmatch
      simp only [objectLoadRow, ← hdn]
    · rfl
  rw [searchShownItem, hmap]
  rfl

/-- The objects are loaded, each into the row that is found for it. -/
theorem rows_applyChangesToBranch :
    (applyChangesToBranch columns displayValue objectList type tree).rows =
      tree.rows.map fun row =>
        { row with data := loadedItem columns displayValue tree type objectList row } := by
  have hfold : applyChangesToBranch columns displayValue objectList type tree =
      objectList.foldl (loadObject columns displayValue type) tree := rfl
  rw [hfold]
  clear hfold
  induction objectList generalizing tree with
  | nil => exact (List.map_id _).symm
  | cons object objectList ih =>
    rw [List.foldl_cons, ih, rows_loadObject, List.map_map]
    refine List.map_congr_left fun row _ => ?_
    have hsearch : ∀ dn,
        searchShownItem (loadObject columns displayValue type tree object) dn type =
          searchShownItem tree dn type := searchShownItem_loadObject object
    simp only [Function.comp, loadedItem, List.foldl_cons, hsearch]
    split_ifs <;> rfl

/-! ## Which rows show their objects -/

variable {searchObject : String → AdObject} {dnList : List String}

/-- Rows keep their types and DNs. -/
theorem item_loadedItem {row : Row ShownItem} (hrow : row ∈ tree.rows) :
    (loadedItem columns displayValue tree type objectList row).item = row.data.item := by
  have hfold : ∀ (objectList : List AdObject) (item : ShownItem), item.item = row.data.item →
      (objectList.foldl (fun item object =>
        if searchShownItem tree object.dn type = some row.id then
          objectLoadRow columns displayValue object item
        else item) item).item = row.data.item := by
    intro objectList
    induction objectList with
    | nil => exact fun item h => h
    | cons object objectList ih =>
      refine fun item h => ih _ ?_
      dsimp only
      split_ifs with hfound
      · obtain ⟨row', hrow', hid, hmatch⟩ := searchShownItem_eq_some hfound
        obtain rfl := Forest.row_eq_of_id hrow' hrow hid
        obtain ⟨-, hdn⟩ := ConsoleItem.matches_iff.1 hmatch
        rw [objectLoadRow, h, ← hdn]
      · exact h
  exact hfold objectList row.data rfl

/-- What a row of an edited object is once the objects have been loaded. -/
theorem loadedItem_eq (hreads : ReadsSucceed searchObject dnList) {row : Row ShownItem}
    (hrow : row ∈ tree.rows) {dn : String} (hdn : dn ∈ dnList)
    (hmatch : row.data.item.matches type dn = true) :
    loadedItem columns displayValue tree type (dnList.map searchObject) row =
      if searchShownItem tree dn type = some row.id then
        objectLoadRow columns displayValue (searchObject dn) row.data
      else row.data := by
  have hsame : ∀ dn' ∈ dnList,
      searchShownItem tree (searchObject dn').dn type = some row.id → dn' = dn := by
    intro dn' hdn' hfound
    obtain ⟨row', hrow', hid, hmatch'⟩ := searchShownItem_eq_some hfound
    obtain rfl := Forest.row_eq_of_id hrow' hrow hid
    rw [(hreads dn' hdn').2] at hmatch'
    exact Option.some.inj ((ConsoleItem.matches_iff.1 hmatch').2.symm.trans
      (ConsoleItem.matches_iff.1 hmatch).2)
  have hexists : (∃ dn' ∈ dnList, searchShownItem tree (searchObject dn').dn type = some row.id) ↔
      searchShownItem tree dn type = some row.id := by
    constructor
    · rintro ⟨dn', hdn', hfound⟩
      rw [hsame dn' hdn' hfound, (hreads dn hdn).2] at hfound
      exact hfound
    · exact fun hfound => ⟨dn, hdn, by rwa [(hreads dn hdn).2]⟩
  rw [loadedItem, List.foldl_map, foldl_same hsame objectLoadRow_objectLoadRow]
  exact if_congr hexists rfl rfl

/-- The rows of a tree in which the objects have been loaded. -/
theorem forall_rows_applyChangesToBranch (hreads : ReadsSucceed searchObject dnList) :
    (∀ row ∈ (applyChangesToBranch columns displayValue (dnList.map searchObject) .object
        tree).rows, ∀ dn ∈ dnList, row.data.item.matches .object dn →
          row.data.Shows columns displayValue (searchObject dn)) ↔
      ∀ row ∈ tree.rows, ∀ dn ∈ dnList, row.data.item.matches .object dn →
        (IsLoaded columns tree row dn → row.data.BlankWhereUnset columns (searchObject dn)) ∧
        (¬IsLoaded columns tree row dn →
          row.data.Shows columns displayValue (searchObject dn)) := by
  rw [rows_applyChangesToBranch, List.forall_mem_map]
  refine forall₂_congr fun row hrow => forall₂_congr fun dn hdn => ?_
  dsimp only
  rw [item_loadedItem hrow]
  refine forall_congr' fun hmatch => ?_
  rw [loadedItem_eq hreads hrow hdn hmatch]
  rw [IsLoaded]
  split_ifs with hfound
  · rw [shows_objectLoadRow]
    simp only [hfound, true_and]
  · simp only [hfound, false_and, false_imp_iff, not_false_eq_true, true_imp_iff, true_and]

/-- All rows of the objects show them exactly when the other rows did before, and the rows
    that are loaded have no texts for attributes that are not set. -/
theorem rowsShow_iff (columns : List String) (displayValue : AdObject → String → String)
    (searchObject : String → AdObject) (dnList : List String) (consoleList : List ShownConsole)
    (hreads : ReadsSucceed searchObject dnList) :
    RowsShow columns displayValue searchObject dnList
        (onObjectPropertiesApplied columns displayValue searchObject dnList consoleList) ↔
      WillShow columns displayValue searchObject dnList consoleList := by
  have hobjects : ((dnList.map searchObject).filter fun object => !object.isEmpty) =
      dnList.map searchObject := by
    refine List.filter_eq_self.2 (List.forall_mem_map.2 fun dn hdn => ?_)
    rw [(hreads dn hdn).1]
    rfl
  rw [RowsShow, WillShow, onObjectPropertiesApplied]
  rw [hobjects, List.forall_mem_map]
  refine forall₂_congr fun console _ => ?_
  have hloaded : (applyObjectChanges columns displayValue (dnList.map searchObject)
      console).loadedTrees = console.loadedTrees.map
        (applyChangesToBranch columns displayValue (dnList.map searchObject) .object) := by
    simp [ShownConsole.loadedTrees, applyObjectChanges, Option.toList_map]
  rw [List.forall_mem_append, hloaded, List.forall_mem_map]
  exact and_congr (forall₂_congr fun tree _ => forall_rows_applyChangesToBranch hreads) Iff.rfl

end

/-! ### A text that has been cleared -/

/-- A user without a description. -/
def clearedUser : AdObject := ⟨"CN=u,DC=alt", [("cn", [[117]])]⟩

/-- A console in which the user has been found, with texts in its row. -/
def consoleWithUser (texts : List String) : ShownConsole where
  domainObjectTree := none
  sitesContainerTree := none
  passwordSettingsTree := none
  queryTree := none
  findObjectTree :=
    some (Forest.empty.add ⟨⟨.object, some "CN=u,DC=alt", false⟩, texts⟩ 0 Forest.valid_zero)

theorem readsSucceed_clearedUser : ReadsSucceed (fun _ => clearedUser) ["CN=u,DC=alt"] :=
  List.forall_mem_singleton.2 (by decide)

theorem rowsShow_iff_blank :
    RowsShow ["cn", "description"] (fun _ _ => "u") (fun _ => clearedUser) ["CN=u,DC=alt"]
        (onObjectPropertiesApplied ["cn", "description"] (fun _ _ => "u") (fun _ => clearedUser)
          ["CN=u,DC=alt"] [consoleWithUser ["v", ""]]) ↔
      WillShow ["cn", "description"] (fun _ _ => "u") (fun _ => clearedUser) ["CN=u,DC=alt"]
        [consoleWithUser ["v", ""]] :=
  rowsShow_iff ["cn", "description"] (fun _ _ => "u") (fun _ => clearedUser) ["CN=u,DC=alt"]
    [consoleWithUser ["v", ""]] readsSucceed_clearedUser

/-- The description of the user has been cleared, and is still shown. -/
theorem not_rowsShow : ¬∀ (columns : List String) (displayValue : AdObject → String → String)
    (searchObject : String → AdObject) (dnList : List String) (consoleList : List ShownConsole),
    ReadsSucceed searchObject dnList → RowsShow columns displayValue searchObject dnList
      (onObjectPropertiesApplied columns displayValue searchObject dnList consoleList) := by
  intro h
  have hshow := h ["cn", "description"] (fun _ _ => "u") (fun _ => clearedUser) ["CN=u,DC=alt"]
    [consoleWithUser ["v", "old"]] readsSucceed_clearedUser _ (List.mem_singleton_self _)
  have hrow := hshow _ (List.mem_append_left _ (List.mem_singleton_self _)) _ List.mem_cons_self
    "CN=u,DC=alt" (List.mem_singleton_self _)
  exact absurd (hrow (by decide) 1 "old" "description" (by decide) rfl) (by decide)

end Admc
