import Admc.Interface.Server
import Admc.Lib.Forest
import Admc.Text

/-!
# The tree of saved queries

Query items and query folders in the console, with the objects that a query item
has fetched below it. The root folder is the ground of the forest (`Admc.Lib.Forest`),
and an index that persists is the identifier of a row.

An index that does not persist is a row of a parent (`ModelIndex`): it gives another
item, or none, when rows before it are removed.
-/

namespace Admc

/-! ## Items -/

/-- `enum ItemType`, for the items in the tree. -/
inductive ItemType
  | unassigned
  | object
  | queryFolder
  | queryItem
  deriving DecidableEq, Repr

/-- The data of a query item. -/
structure QueryItem where
  name : QString
  description : QString
  filter : QString
  filterState : QByteArray
  base : QString
  scopeIsChildren : Bool
  deriving DecidableEq

/-- An item of the tree, with its data. -/
inductive QueryNode
  | folder (name description : QString)
  | item (query : QueryItem)
  | object (name : QString)
  deriving DecidableEq

namespace QueryNode

/-- The type of an item. -/
def type : QueryNode → ItemType
  | folder _ _ => .queryFolder
  | item _ => .queryItem
  | object _ => .object

/-- The name of an item, which is displayed. -/
def name : QueryNode → QString
  | folder name _ => name
  | item query => query.name
  | object name => name

/-- A query item or a query folder. -/
def isQuery : QueryNode → Bool
  | object _ => false
  | _ => true

/-- A query folder. -/
def isFolder : QueryNode → Bool
  | folder _ _ => true
  | _ => false

end QueryNode

/-- The tree of saved queries, below its root folder. -/
abbrev QueryTree := Forest QueryNode

/-- A `QPersistentModelIndex`: the root folder, or the identifier of an item. -/
abbrev Index := ℕ

/-- A `QModelIndex`: the root folder, or a row of a parent. -/
inductive ModelIndex
  | root
  | row (parent : Index) (row : ℕ)
  deriving DecidableEq

/-- What the code runs into: the model of an invalid index, which is a null pointer; the
    columns of a row that is added where there is no item; and a loop that does not end. -/
inductive QueryFault
  | nullModel
  | noColumns
  | unfinished
  deriving DecidableEq, Repr

namespace QueryTree

variable (tree : QueryTree)

/-- `console_item_get_type`. -/
def itemType (index : Index) : ItemType :=
  if index = 0 then .queryFolder else ((tree.row? index).map (·.data.type)).getD .unassigned

/-- `QModelIndex::data` of an item, for the role of its name. -/
def displayName (index : Index) : QString := ((tree.row? index).map (·.data.name)).getD []

/-- The index of an item as one that does not persist. -/
def toModelIndex (index : Index) : ModelIndex :=
  if index = 0 then .root
  else .row (tree.parent index) ((tree.children (tree.parent index)).idxOf index)

/-- `QStandardItemModel::itemFromIndex`. -/
def itemFromIndex : ModelIndex → Option Index
  | .root => some 0
  | .row parent row => (tree.children parent)[row]?

/-- `ConsoleWidget::add_scope_item`: the new item has the data, and the columns of its
    parent. -/
def addScopeItem (node : QueryNode) : Option Index → Except QueryFault (QueryTree × Index)
  | none => .error .noColumns
  | some parent =>
    if h : tree.Valid parent then .ok (tree.add node parent h, tree.next) else .error .noColumns

/-! ## Names -/

/-- `get_sibling_name_list`. -/
def getSiblingNameList (parentIndex : Index) (indexToOmit : Option Index) : List QString :=
  ((tree.children parentIndex).filter fun sibling => some sibling ≠ indexToOmit).map
    tree.displayName

/-- `QueryFolderImpl::QUERY_ROOT`. -/
def queryRoot : QString := "QUERY_ROOT".toList

/-- The loop of `console_query_folder_path`: the names from below the root folder down to
    an item. -/
def pathSplit (index : Index) : List QString :=
  (((tree.chain index).filter (· ≠ 0)).map tree.displayName).reverse

/-- `console_query_folder_path`. -/
def consoleQueryFolderPath (index : Index) : QString :=
  (tree.pathSplit index).foldl (fun path part => path ++ '/' :: part) queryRoot

end QueryTree

/-- `console_query_or_folder_name_is_good`. -/
def consoleQueryOrFolderNameIsGood (name : QString) (siblingNames : List QString) : Bool :=
  if name = [] then false
  else
    let nameConflict := decide (name ∈ siblingNames)
    let nameContainsSlash := decide ('/' ∈ name)
    !nameConflict && !nameContainsSlash

/-- The root folder or a query folder. -/
def QueryTree.IsFolder (tree : QueryTree) (index : Index) : Prop :=
  index = 0 ∨ ∃ row ∈ tree.rows, row.id = index ∧ row.data.isFolder = true

/-- Query items and query folders are in folders, and the objects that have been fetched
    are elsewhere. -/
def QueryTree.Placed (tree : QueryTree) : Prop :=
  ∀ row ∈ tree.rows, row.data.isQuery = true ↔ tree.IsFolder row.parent

/-- No two query items or query folders in the same folder have the same name. -/
def QueryTree.UniqueNames (tree : QueryTree) : Prop :=
  ∀ row ∈ tree.rows, row.data.isQuery = true → ∀ row' ∈ tree.rows, row'.data.isQuery = true →
    row.parent = row'.parent → row.data.name = row'.data.name → row = row'

/-- The names of query items and query folders are free of slashes. -/
def QueryTree.SlashFree (tree : QueryTree) : Prop :=
  ∀ row ∈ tree.rows, row.data.isQuery = true → '/' ∉ row.data.name

/-- The names of query items and query folders are good ones. -/
structure GoodNames (tree : QueryTree) : Prop where
  ne_nil : ∀ row ∈ tree.rows, row.data.isQuery = true → row.data.name ≠ []
  slashFree : tree.SlashFree
  unique : tree.UniqueNames

/-- The root folder, or the index of a query item or a query folder. -/
def QueryTree.IsNode (tree : QueryTree) (index : Index) : Prop :=
  index = 0 ∨ ∃ row ∈ tree.rows, row.id = index ∧ row.data.isQuery = true

instance (tree : QueryTree) (index : Index) : Decidable (tree.IsFolder index) :=
  inferInstanceAs (Decidable (_ ∨ _))

instance (tree : QueryTree) : Decidable tree.Placed :=
  inferInstanceAs (Decidable (∀ row ∈ tree.rows, row.data.isQuery = true ↔ tree.IsFolder row.parent))

instance (tree : QueryTree) : Decidable tree.SlashFree :=
  inferInstanceAs (Decidable (∀ row ∈ tree.rows, row.data.isQuery = true → '/' ∉ row.data.name))

instance (tree : QueryTree) : Decidable tree.UniqueNames :=
  inferInstanceAs (Decidable (∀ row ∈ tree.rows, row.data.isQuery = true → ∀ row' ∈ tree.rows,
    row'.data.isQuery = true → row.parent = row'.parent → row.data.name = row'.data.name →
      row = row'))

theorem QueryNode.isQuery_of_isFolder {node : QueryNode} (h : node.isFolder = true) :
    node.isQuery = true := by
  cases node with
  | folder _ _ => rfl
  | item _ => rfl
  | object _ => exact h

section
variable {tree : QueryTree} {row : Row QueryNode} {name : QString} {siblingNames : List QString}

theorem nameIsGood_iff : consoleQueryOrFolderNameIsGood name siblingNames = true ↔
    name ≠ [] ∧ name ∉ siblingNames ∧ '/' ∉ name := by
  rw [consoleQueryOrFolderNameIsGood]
  split_ifs with h
  · simp [h]
  · simp [h]

theorem displayName_of_mem (h : row ∈ tree.rows) : tree.displayName row.id = row.data.name := by
  rw [QueryTree.displayName, Forest.row?_of_mem h]
  rfl

theorem itemType_of_mem (h : row ∈ tree.rows) : tree.itemType row.id = row.data.type := by
  rw [QueryTree.itemType, if_neg (Forest.id_pos h).ne', Forest.row?_of_mem h]
  rfl

theorem mem_getSiblingNameList {parent : Index} {indexToOmit : Option Index} :
    name ∈ tree.getSiblingNameList parent indexToOmit ↔
      ∃ row ∈ tree.rows, row.parent = parent ∧ some row.id ≠ indexToOmit ∧
        row.data.name = name := by
  simp only [QueryTree.getSiblingNameList, List.mem_map, List.mem_filter, decide_eq_true_eq,
    Forest.mem_children]
  constructor
  · rintro ⟨_, ⟨⟨row, hrow, rfl, hparent⟩, homit⟩, rfl⟩
    exact ⟨row, hrow, hparent, homit, (displayName_of_mem hrow).symm⟩
  · rintro ⟨row, hrow, hparent, homit, rfl⟩
    exact ⟨row.id, ⟨⟨row, hrow, rfl, hparent⟩, homit⟩, displayName_of_mem hrow⟩

/-- An item is found at its index, before anything is removed. -/
theorem itemFromIndex_toModelIndex {index : Index} (h : tree.Valid index) :
    tree.itemFromIndex (tree.toModelIndex index) = some index := by
  rw [QueryTree.toModelIndex]
  split_ifs with h0
  · rw [h0]
    rfl
  · obtain ⟨row, hrow, rfl⟩ := h.resolve_left h0
    have hmem : row.id ∈ tree.children (tree.parent row.id) :=
      Forest.mem_children.2 ⟨row, hrow, rfl, (Forest.parent_of_mem hrow).symm⟩
    exact List.getElem?_idxOf hmem

end

/-! ## Copies -/

/-- A copy of an item: its original, and its index and parent. -/
structure ItemCopy where
  original : Row QueryNode
  id : Index
  parent : Index

/-- The row of a copy. -/
def ItemCopy.row (copy : ItemCopy) : Row QueryNode := ⟨copy.id, copy.parent, copy.original.data⟩

/-! ## Paths -/

section
variable {tree : QueryTree} {row : Row QueryNode} {i j : Index}

theorem QueryTree.IsFolder.isNode (h : tree.IsFolder i) : tree.IsNode i := by
  refine h.imp_right ?_
  rintro ⟨row, hrow, hid, hfolder⟩
  exact ⟨row, hrow, hid, QueryNode.isQuery_of_isFolder hfolder⟩

theorem QueryTree.IsNode.valid (h : tree.IsNode i) : tree.Valid i := by
  refine h.imp_right ?_
  rintro ⟨row, hrow, hid, -⟩
  exact ⟨row, hrow, hid⟩

theorem consoleQueryFolderPath_zero :
    tree.consoleQueryFolderPath 0 = QueryTree.queryRoot := by
  rw [QueryTree.consoleQueryFolderPath, QueryTree.pathSplit, Forest.chain_zero]
  rfl

/-- The path of an item is that of its parent, with its name. -/
theorem consoleQueryFolderPath_of_mem (h : row ∈ tree.rows) :
    tree.consoleQueryFolderPath row.id =
      tree.consoleQueryFolderPath row.parent ++ '/' :: row.data.name := by
  have hsplit : tree.pathSplit row.id = tree.pathSplit row.parent ++ [row.data.name] := by
    rw [QueryTree.pathSplit, QueryTree.pathSplit, Forest.chain_of_mem h,
      List.filter_cons_of_pos (by simpa using (Forest.id_pos h).ne'), List.map_cons,
      List.reverse_cons, displayName_of_mem h]
  rw [QueryTree.consoleQueryFolderPath, hsplit, List.foldl_append]
  rfl

/-- Items without slashes in their names, which no siblings share, have different paths. -/
theorem consoleQueryFolderPath_injective (hplaced : tree.Placed) (hunique : tree.UniqueNames)
    (hslash : tree.SlashFree) (hi : tree.IsNode i) (hj : tree.IsNode j)
    (h : tree.consoleQueryFolderPath i = tree.consoleQueryFolderPath j) : i = j := by
  have hroot : ∀ row ∈ tree.rows, tree.consoleQueryFolderPath row.id ≠ QueryTree.queryRoot := by
    intro row hrow heq
    have hmem : '/' ∈ tree.consoleQueryFolderPath row.id := by
      rw [consoleQueryFolderPath_of_mem hrow]
      exact List.mem_append_right _ List.mem_cons_self
    rw [heq] at hmem
    exact absurd hmem (by decide)
  induction i, hi.valid using Forest.valid_induction generalizing j with
  | ground =>
    rw [consoleQueryFolderPath_zero] at h
    obtain rfl | ⟨row, hrow, rfl, -⟩ := hj
    · rfl
    · exact absurd h.symm (hroot row hrow)
  | step row hrow ih =>
    obtain hzero | ⟨row', hrow', hid, hquery⟩ := hi
    · exact absurd hzero (Forest.id_pos hrow).ne'
    obtain rfl := Forest.row_eq_of_id hrow' hrow hid
    obtain rfl | ⟨other, hother, rfl, hotherQuery⟩ := hj
    · rw [consoleQueryFolderPath_zero] at h
      exact absurd h (hroot row' hrow)
    -- the last slash of a path comes before the name
    rw [consoleQueryFolderPath_of_mem hrow, consoleQueryFolderPath_of_mem hother] at h
    obtain ⟨hparent, hname⟩ := Path.append_cons_inj (hslash row' hrow hquery)
      (hslash other hother hotherQuery) h
    have hparent := ih ((hplaced row' hrow).1 hquery).isNode
      ((hplaced other hother).1 hotherQuery).isNode hparent
    rw [hunique row' hrow hquery other hother hotherQuery hparent hname]

end

end Admc
