import Admc.Lib.Run
import Admc.Query.Names

/-!
# Operations on saved queries

The user creates, edits, imports, deletes, cuts, copies, pastes and drops saved queries. Each
operation checks the names that it is given against those of the siblings, before it changes
anything.

* `uniqueNames_run`: in any run, names of siblings stay unique, all paths differ and everything
  is saved, as long as no folder is given the name of a sibling with blanks around it, and
  indexes that are moved together have different names and are put where they were checked.
-/

namespace Admc

/-! ## The operations -/

section
variable (tree : QueryTree)

/-- `QueryFolderImpl::on_create_query_folder`, with the texts in the dialog. -/
def onCreateQueryFolder (nameEdit descriptionEdit : QString) (parentIndex : Index) :
    Except QueryFault QueryTree :=
  let siblingNameList := tree.getSiblingNameList parentIndex none
  let name := trimmed nameEdit
  if consoleQueryOrFolderNameIsGood name siblingNameList then do
    let (tree, _) ← QueryTree.addScopeItem tree (.folder name (trimmed descriptionEdit))
      (some parentIndex)
    return tree
  else .ok tree

/-- `QueryFolderImpl::on_create_query_item`, with the query in the dialog. -/
def onCreateQueryItem (edited : QueryItem) (parentIndex : Index) : Except QueryFault QueryTree :=
  let siblingNameList := tree.getSiblingNameList parentIndex none
  let name := trimmed edited.name
  if consoleQueryOrFolderNameIsGood name siblingNameList then do
    let (tree, _) ← QueryTree.addScopeItem tree (.item { edited with name := name })
      (some parentIndex)
    return tree
  else .ok tree

/-- `QueryFolderImpl::on_edit_query_folder`, with the texts in the dialog. -/
def onEditQueryFolder (nameEdit descriptionEdit : QString) (index : Index) : QueryTree :=
  let siblingNameList := tree.getSiblingNameList (tree.parent index) (some index)
  -- the name is checked without the blanks around it, and taken with them
  if consoleQueryOrFolderNameIsGood (trimmed nameEdit) siblingNameList then
    tree.setData index (.folder nameEdit descriptionEdit)
  else tree

/-- `QueryItemImpl::on_edit_query_item`, with the query in the dialog. What the item fetches
    again is left out. -/
def onEditQueryItem (edited : QueryItem) (index : Index) : QueryTree :=
  let siblingNameList := tree.getSiblingNameList (tree.parent index) (some index)
  let name := trimmed edited.name
  if consoleQueryOrFolderNameIsGood name siblingNameList then
    tree.setData index (.item { edited with name := name })
  else tree

/-- `QueryFolderImpl::on_import`, with the data of the files: a file that cannot be read has
    none. -/
def onImport (files : List (QHash String QVariant)) (parentIndex : Index) :
    Except QueryFault QueryTree :=
  files.foldlM (fun tree data => consoleQueryItemLoadHash tree data parentIndex) tree

/-- `query_action_delete`, when it is confirmed. -/
def queryActionDelete (indexList : List Index) : QueryTree := indexList.foldl Forest.remove tree

end

/-- The tree of saved queries, and what has been cut or copied. -/
structure QueryConsole where
  tree : QueryTree
  copied : CopiedList

/-- What the user does with saved queries. -/
inductive QueryOp
  | createFolder (nameEdit descriptionEdit : QString) (parent : Index)
  | createItem (edited : QueryItem) (parent : Index)
  | editFolder (nameEdit descriptionEdit : QString) (index : Index)
  | editItem (edited : QueryItem) (index : Index)
  | importFiles (files : List (QHash String QVariant)) (parent : Index)
  | delete (indexList : List Index)
  | cut (indexList : List Index)
  | copy (indexList : List Index)
  | paste (parent : Index)
  | drop (droppedList : List Index) (target : Index)

namespace QueryOp

variable (console : QueryConsole)

/-- The effect of an operation. -/
def run : QueryOp → Except QueryFault QueryConsole
  | createFolder nameEdit descriptionEdit parent => do
    let tree ← onCreateQueryFolder console.tree nameEdit descriptionEdit parent
    return { console with tree := tree }
  | createItem edited parent => do
    let tree ← onCreateQueryItem console.tree edited parent
    return { console with tree := tree }
  | editFolder nameEdit descriptionEdit index =>
    .ok { console with tree := onEditQueryFolder console.tree nameEdit descriptionEdit index }
  | editItem edited index => .ok { console with tree := onEditQueryItem console.tree edited index }
  | importFiles files parent => do
    let tree ← onImport console.tree files parent
    return { console with tree := tree }
  | delete indexList => .ok { console with tree := queryActionDelete console.tree indexList }
  | cut indexList => .ok { console with copied := ⟨indexList, true⟩ }
  | copy indexList => .ok { console with copied := ⟨indexList, false⟩ }
  | paste parent => do
    let tree ← queryFolderPaste console.tree console.copied parent
    return { console with tree := tree }
  | drop droppedList target => do
    let tree ← queryFolderDrop console.tree droppedList target
    return { console with tree := tree }

/-- The next state: there is none after a fault, and the last one is kept. -/
def step (op : QueryOp) : QueryConsole := (op.run console).toOption.getD console

/-- The user is offered an operation: new items and pasted ones go into folders, and each kind of
    item has its own dialog. -/
def Offered : QueryOp → Prop
  | createFolder _ _ parent | createItem _ parent | importFiles _ parent | paste parent =>
    console.tree.IsFolder parent
  | editFolder _ _ index =>
    ∃ row ∈ console.tree.rows, row.id = index ∧ row.data.type = .queryFolder
  | editItem _ index => ∃ row ∈ console.tree.rows, row.id = index ∧ row.data.type = .queryItem
  | delete _ | cut _ | copy _ => True
  | drop droppedList target =>
    console.tree.IsFolder target ∧ queryFolderCanDrop console.tree droppedList target = true

/-- An operation keeps names unique: a folder that is edited does not get the name of a sibling
    with blanks around it, and what is moved may be moved. -/
def KeepsNames : QueryOp → Prop
  | editFolder nameEdit _ index =>
    let siblingNameList := console.tree.getSiblingNameList (console.tree.parent index) (some index)
    consoleQueryOrFolderNameIsGood (trimmed nameEdit) siblingNameList = true →
      nameEdit ∉ siblingNameList
  | paste parent =>
    moveNamesAreGood console.tree console.copied.list parent = true →
      MoveKeepsNames console.tree console.copied.list parent console.copied.isCut
  | drop droppedList target =>
    moveNamesAreGood console.tree droppedList target = true →
      MoveKeepsNames console.tree droppedList target true
  | _ => True

end QueryOp

/-- A tree whose names are unique has become another one with unique names. -/
structure NamesKept (tree tree' : QueryTree) : Prop where
  placed : tree'.Placed
  unique : tree'.UniqueNames
  slashFree : tree.SlashFree → tree'.SlashFree

section
variable {tree tree' tree'' : QueryTree} {row : Row QueryNode} {index parent : Index}
  {name : QString}

/-! ## One operation -/

theorem QueryNode.isQuery_eq_of_type {node node' : QueryNode} (h : node.type = node'.type) :
    node.isQuery = node'.isQuery := by
  cases node <;> cases node' <;> first | rfl | exact nomatch h

theorem QueryNode.isFolder_eq_of_type {node node' : QueryNode} (h : node.type = node'.type) :
    node.isFolder = node'.isFolder := by
  cases node <;> cases node' <;> first | rfl | exact nomatch h

/-- The item with other data, and the others. -/
theorem mem_rows_setData (hrow : row ∈ tree.rows) {node : QueryNode} {other : Row QueryNode} :
    other ∈ (tree.setData row.id node).rows ↔
      other = { row with data := node } ∨ other ∈ tree.rows ∧ other.id ≠ row.id := by
  refine List.mem_map.trans ⟨?_, ?_⟩
  · rintro ⟨old, hold, rfl⟩
    split_ifs with hid
    · rw [Forest.row_eq_of_id hold hrow hid]
      exact .inl rfl
    · exact .inr ⟨hold, hid⟩
  · rintro (rfl | ⟨hold, hid⟩)
    · exact ⟨row, hrow, if_pos rfl⟩
    · exact ⟨other, hold, if_neg hid⟩

theorem isFolder_setData (hrow : row ∈ tree.rows) {node : QueryNode}
    (htype : node.type = row.data.type) :
    QueryTree.IsFolder (tree.setData row.id node) parent ↔ tree.IsFolder parent := by
  have hfolder := QueryNode.isFolder_eq_of_type htype
  refine or_congr_right ⟨?_, ?_⟩
  · rintro ⟨other, hother, hid, hisFolder⟩
    rcases (mem_rows_setData hrow).1 hother with rfl | hold
    · exact ⟨row, hrow, hid, hfolder ▸ hisFolder⟩
    · exact ⟨other, hold.1, hid, hisFolder⟩
  · rintro ⟨other, hother, hid, hisFolder⟩
    by_cases hsame : other.id = row.id
    · obtain rfl := Forest.row_eq_of_id hother hrow hsame
      exact ⟨_, (mem_rows_setData hrow).2 (.inl rfl), hid, hfolder ▸ hisFolder⟩
    · exact ⟨other, (mem_rows_setData hrow).2 (.inr ⟨hother, hsame⟩), hid, hisFolder⟩

namespace NamesKept

theorem refl (hplaced : tree.Placed) (hunique : tree.UniqueNames) : NamesKept tree tree :=
  ⟨hplaced, hunique, id⟩

theorem trans (h : NamesKept tree tree') (h' : NamesKept tree' tree'') : NamesKept tree tree'' :=
  ⟨h'.placed, h'.unique, fun hslash => h'.slashFree (h.slashFree hslash)⟩

/-- A new item with a good name in a folder. -/
theorem add (hplaced : tree.Placed) (hunique : tree.UniqueNames) {node : QueryNode}
    (hquery : node.isQuery = true) (hfolder : tree.IsFolder parent)
    (hgood : consoleQueryOrFolderNameIsGood node.name (tree.getSiblingNameList parent none) =
      true) : NamesKept tree (tree.add node parent hfolder.isNode.valid) := by
  obtain ⟨-, hnew, hslash⟩ := nameIsGood_iff.1 hgood
  have hother (row : Row QueryNode) (hrow : row ∈ tree.rows) (hparent : row.parent = parent) :
      row.data.name ≠ node.name := fun hname =>
    hnew (mem_getSiblingNameList.2 ⟨row, hrow, hparent, nofun, hname⟩)
  refine ⟨hplaced.of_old_or_new ?_ ?_, ?_, fun hfree => ?_⟩
  · exact List.forall_mem_cons.2 ⟨.inr le_rfl, fun row hrow => .inl hrow⟩
  · refine List.forall_mem_cons.2 ⟨fun _ => ⟨hquery, ?_⟩, fun row hrow hfresh => ?_⟩
    · refine hfolder.imp_right ?_
      rintro ⟨folder, hmem, hfolder⟩
      exact ⟨folder, List.mem_cons_of_mem _ hmem, hfolder⟩
    · exact absurd hfresh (not_le.2 (tree.lt_next row hrow))
  · intro row hrow hrowQuery row' hrow' hrowQuery' hparent hname
    rcases List.mem_cons.1 hrow with rfl | hold
    · rcases List.mem_cons.1 hrow' with rfl | hold'
      · rfl
      · exact absurd hname.symm (hother row' hold' hparent.symm)
    · rcases List.mem_cons.1 hrow' with rfl | hold'
      · exact absurd hname (hother row hold hparent)
      · exact hunique row hold hrowQuery row' hold' hrowQuery' hparent hname
  · exact List.forall_mem_cons.2 ⟨fun _ => hslash, hfree⟩

/-- The item is added if the name is good. -/
theorem addScopeItem (hplaced : tree.Placed) (hunique : tree.UniqueNames) (node : QueryNode)
    (hquery : node.isQuery = true) (hfolder : tree.IsFolder parent)
    (hgood : consoleQueryOrFolderNameIsGood node.name (tree.getSiblingNameList parent none) = true)
    (h : (QueryTree.addScopeItem tree node (some parent) >>= fun added => pure added.1) =
      .ok tree') : NamesKept tree tree' := by
  rw [addScopeItem_valid hfolder.isNode.valid, Except.ok_bind] at h
  obtain rfl := Except.pure_eq_ok.1 h
  exact add hplaced hunique hquery hfolder hgood

/-- Other data of the same kind, with a name that no sibling has. -/
theorem setData (hplaced : tree.Placed) (hunique : tree.UniqueNames) (hrow : row ∈ tree.rows)
    {node : QueryNode} (htype : node.type = row.data.type)
    (hnew : node.name ∉ tree.getSiblingNameList row.parent (some row.id))
    (hslash : '/' ∉ node.name) : NamesKept tree (tree.setData row.id node) := by
  have hmem (other : Row QueryNode) : other ∈ (tree.setData row.id node).rows ↔
      other = { row with data := node } ∨ other ∈ tree.rows ∧ other.id ≠ row.id :=
    mem_rows_setData hrow
  have hother {other : Row QueryNode} (hold : other ∈ tree.rows ∧ other.id ≠ row.id)
      (hparent : other.parent = row.parent) : other.data.name ≠ node.name := fun hname =>
    hnew (mem_getSiblingNameList.2
      ⟨other, hold.1, hparent, fun hid => hold.2 (Option.some_inj.1 hid), hname⟩)
  refine ⟨fun other hmem' => ?_, fun other hmem' hquery other' hmem'' hquery' hparent hname => ?_,
    fun hfree other hmem' hquery => ?_⟩
  · rw [isFolder_setData hrow htype]
    rcases (hmem other).1 hmem' with rfl | hold
    · rw [QueryNode.isQuery_eq_of_type htype]
      exact hplaced row hrow
    · exact hplaced other hold.1
  · rcases (hmem other).1 hmem' with rfl | hold
    · rcases (hmem other').1 hmem'' with rfl | hold'
      · rfl
      · exact absurd hname.symm (hother hold' hparent.symm)
    · rcases (hmem other').1 hmem'' with rfl | hold'
      · exact absurd hname (hother hold hparent)
      · exact hunique other hold.1 hquery other' hold'.1 hquery' hparent hname
  · rcases (hmem other).1 hmem' with rfl | hold
    · exact hslash
    · exact hfree other hold.1 hquery

/-- Items that are deleted. -/
theorem delete (hplaced : tree.Placed) (hunique : tree.UniqueNames) (indexList : List Index) :
    NamesKept tree (queryActionDelete tree indexList) := by
  have hold (row : Row QueryNode) (hrow : row ∈ (queryActionDelete tree indexList).rows) :
      row ∈ tree.rows := (Forest.mem_rows_foldl_remove.1 hrow).1
  refine ⟨hplaced.of_old_or_new (fun row hrow => .inl (hold row hrow)) fun row hrow hnew => ?_,
    hunique.mono hold, fun hslash row hrow => hslash row (hold row hrow)⟩
  exact absurd hnew (not_le.2 (tree.lt_next row (hold row hrow)))

/-- What a move leaves. -/
theorem of_namesAfter {deleteOldBranch : Bool} {moved : List Index}
    (h : NamesAfter tree parent deleteOldBranch moved tree') : NamesKept tree tree' where
  placed := h.placed
  unique := h.unique
  slashFree hslash row hrow hquery := by
    obtain ⟨old, hold, holdQuery, hname⟩ := h.name row hrow hquery
    exact hname ▸ hslash old hold holdQuery

end NamesKept

/-- Blanks are not slashes. -/
theorem slash_mem_trimmed {text : QString} (h : '/' ∈ text) : '/' ∈ trimmed text := by
  have hdrop {text : QString} (h : '/' ∈ text) : '/' ∈ text.dropWhile isSpace := by
    induction text with
    | nil => exact h
    | cons c text ih =>
      rw [List.dropWhile_cons]
      split_ifs with hc
      · rcases List.mem_cons.1 h with rfl | h
        · exact absurd hc (by decide)
        · exact ih h
      · exact h
  rw [trimmed, List.mem_reverse]
  exact hdrop (List.mem_reverse.2 (hdrop h))

theorem onCreateQueryFolder_names (hplaced : tree.Placed) (hunique : tree.UniqueNames)
    (hfolder : tree.IsFolder parent) {nameEdit descriptionEdit : QString}
    (h : onCreateQueryFolder tree nameEdit descriptionEdit parent = .ok tree') :
    NamesKept tree tree' := by
  rw [onCreateQueryFolder] at h
  split_ifs at h with hgood
  · exact .addScopeItem hplaced hunique (.folder _ _) rfl hfolder hgood h
  · exact Except.ok.inj h ▸ .refl hplaced hunique

theorem onCreateQueryItem_names (hplaced : tree.Placed) (hunique : tree.UniqueNames)
    (hfolder : tree.IsFolder parent) {edited : QueryItem}
    (h : onCreateQueryItem tree edited parent = .ok tree') : NamesKept tree tree' := by
  rw [onCreateQueryItem] at h
  split_ifs at h with hgood
  · exact .addScopeItem hplaced hunique (.item { edited with name := trimmed edited.name }) rfl
      hfolder hgood h
  · exact Except.ok.inj h ▸ .refl hplaced hunique

theorem onEditQueryFolder_names (hplaced : tree.Placed) (hunique : tree.UniqueNames)
    (hrow : row ∈ tree.rows) (htype : row.data.type = .queryFolder)
    {nameEdit descriptionEdit : QString}
    (hnew : consoleQueryOrFolderNameIsGood (trimmed nameEdit)
        (tree.getSiblingNameList (tree.parent row.id) (some row.id)) = true →
      nameEdit ∉ tree.getSiblingNameList (tree.parent row.id) (some row.id)) :
    NamesKept tree (onEditQueryFolder tree nameEdit descriptionEdit row.id) := by
  rw [onEditQueryFolder]
  split_ifs with hgood
  · have hslash := (nameIsGood_iff.1 hgood).2.2
    refine .setData hplaced hunique hrow htype.symm ?_ fun hmem => hslash (slash_mem_trimmed hmem)
    rw [← Forest.parent_of_mem hrow]
    exact hnew hgood
  · exact .refl hplaced hunique

theorem onEditQueryItem_names (hplaced : tree.Placed) (hunique : tree.UniqueNames)
    (hrow : row ∈ tree.rows) (htype : row.data.type = .queryItem) {edited : QueryItem} :
    NamesKept tree (onEditQueryItem tree edited row.id) := by
  rw [onEditQueryItem]
  split_ifs with hgood
  · obtain ⟨-, hnew, hslash⟩ := nameIsGood_iff.1 hgood
    rw [Forest.parent_of_mem hrow] at hnew
    exact .setData hplaced hunique hrow htype.symm hnew hslash
  · exact .refl hplaced hunique

/-- A file adds an item with a good name, or nothing. -/
theorem loadHash_cases (hfolder : tree.IsFolder parent) {data : QHash String QVariant}
    (h : consoleQueryItemLoadHash tree data parent = .ok tree') : tree' = tree ∨
      consoleQueryOrFolderNameIsGood (queryOfHash data).name
          (tree.getSiblingNameList parent none) = true ∧
        tree' = tree.add (.item (queryOfHash data)) parent hfolder.isNode.valid := by
  rw [consoleQueryItemLoadHash] at h
  dsimp only at h
  split_ifs at h with hempty hgood
  · exact .inl (Except.ok.inj h).symm
  · exact .inl (Except.ok.inj h).symm
  · rw [addScopeItem_valid hfolder.isNode.valid, Except.ok_bind] at h
    refine .inr ⟨?_, (Except.pure_eq_ok.1 h).symm⟩
    rwa [Bool.not_eq_true', Bool.not_eq_false] at hgood

/-- Each file is imported into the folder, which stays one. -/
theorem onImport_names (hplaced : tree.Placed) (hunique : tree.UniqueNames)
    (hfolder : tree.IsFolder parent) {files : List (QHash String QVariant)}
    (h : onImport tree files parent = .ok tree') : NamesKept tree tree' := by
  refine (List.foldlM_invariant (P := fun tree' : QueryTree => NamesKept tree tree' ∧
    tree'.IsFolder parent) ?_ ⟨.refl hplaced hunique, hfolder⟩ h).1
  rintro tree₁ tree₂ data - hload ⟨hkept, hfolder₁⟩
  rcases loadHash_cases hfolder₁ hload with rfl | ⟨hgood, rfl⟩
  · exact ⟨hkept, hfolder₁⟩
  · refine ⟨hkept.trans (.add hkept.placed hkept.unique rfl hfolder₁ hgood), ?_⟩
    refine hfolder₁.imp_right ?_
    rintro ⟨row, hrow, hisFolder⟩
    exact ⟨row, List.mem_cons_of_mem _ hrow, hisFolder⟩

theorem queryFolderPaste_names (hplaced : tree.Placed) (hunique : tree.UniqueNames)
    (hfolder : tree.IsFolder parent) {copied : CopiedList}
    (hsafe : moveNamesAreGood tree copied.list parent = true →
      MoveKeepsNames tree copied.list parent copied.isCut)
    (h : queryFolderPaste tree copied parent = .ok tree') : NamesKept tree tree' := by
  rw [queryFolderPaste] at h
  dsimp only at h
  split_ifs at h with hself hsame
  · exact Except.ok.inj h ▸ .refl hplaced hunique
  · exact Except.ok.inj h ▸ .refl hplaced hunique
  · have hother (hcopy : copied.isCut = false) (i : Index) (hi : i ∈ copied.list)
        (row : Row QueryNode) (hrow : row ∈ tree.rows) (hid : row.id = i) :
        row.parent ≠ parent := by
      subst hid
      rw [hcopy, Bool.not_false, Bool.true_and, List.any_eq_true] at hsame
      refine fun hparent => hsame ⟨row.id, hi, ?_⟩
      rw [Forest.row?_of_mem hrow, Option.any_some, decide_eq_true hparent]
    obtain ⟨moved, hmoved⟩ := consoleQueryMove_names hunique hplaced hfolder hother hsafe h
    exact .of_namesAfter hmoved

theorem queryFolderDrop_names (hplaced : tree.Placed) (hunique : tree.UniqueNames)
    (hfolder : tree.IsFolder parent) {droppedList : List Index}
    (hsafe : moveNamesAreGood tree droppedList parent = true →
      MoveKeepsNames tree droppedList parent true)
    (h : queryFolderDrop tree droppedList parent = .ok tree') : NamesKept tree tree' := by
  obtain ⟨moved, hmoved⟩ := consoleQueryMove_names hunique hplaced hfolder
    (fun hcopy => absurd hcopy.symm Bool.false_ne_true) hsafe h
  exact .of_namesAfter hmoved

/-- An operation keeps names unique. -/
theorem QueryOp.run_names {console console' : QueryConsole} {op : QueryOp}
    (hplaced : console.tree.Placed) (hunique : console.tree.UniqueNames)
    (hoffered : op.Offered console) (hkeeps : op.KeepsNames console)
    (h : op.run console = .ok console') : NamesKept console.tree console'.tree := by
  cases op with
  | createFolder nameEdit descriptionEdit parent =>
    obtain ⟨tree, hcreate, hreturn⟩ := Except.bind_eq_ok.1 h
    obtain rfl := Except.pure_eq_ok.1 hreturn
    exact onCreateQueryFolder_names hplaced hunique hoffered hcreate
  | createItem edited parent =>
    obtain ⟨tree, hcreate, hreturn⟩ := Except.bind_eq_ok.1 h
    obtain rfl := Except.pure_eq_ok.1 hreturn
    exact onCreateQueryItem_names hplaced hunique hoffered hcreate
  | editFolder nameEdit descriptionEdit index =>
    obtain rfl := Except.ok.inj h
    obtain ⟨row, hrow, rfl, htype⟩ := hoffered
    exact onEditQueryFolder_names hplaced hunique hrow htype hkeeps
  | editItem edited index =>
    obtain rfl := Except.ok.inj h
    obtain ⟨row, hrow, rfl, htype⟩ := hoffered
    exact onEditQueryItem_names hplaced hunique hrow htype
  | importFiles files parent =>
    obtain ⟨tree, himport, hreturn⟩ := Except.bind_eq_ok.1 h
    obtain rfl := Except.pure_eq_ok.1 hreturn
    exact onImport_names hplaced hunique hoffered himport
  | delete indexList =>
    obtain rfl := Except.ok.inj h
    exact .delete hplaced hunique indexList
  | cut indexList =>
    obtain rfl := Except.ok.inj h
    exact .refl hplaced hunique
  | copy indexList =>
    obtain rfl := Except.ok.inj h
    exact .refl hplaced hunique
  | paste parent =>
    obtain ⟨tree, hpaste, hreturn⟩ := Except.bind_eq_ok.1 h
    obtain rfl := Except.pure_eq_ok.1 hreturn
    exact queryFolderPaste_names hplaced hunique hoffered hkeeps hpaste
  | drop droppedList target =>
    obtain ⟨tree, hdrop, hreturn⟩ := Except.bind_eq_ok.1 h
    obtain rfl := Except.pure_eq_ok.1 hreturn
    exact queryFolderDrop_names hplaced hunique hoffered.1 hkeeps hdrop

theorem QueryOp.step_names {console : QueryConsole} {op : QueryOp}
    (hplaced : console.tree.Placed) (hunique : console.tree.UniqueNames)
    (hoffered : op.Offered console) (hkeeps : op.KeepsNames console) :
    NamesKept console.tree (op.step console).tree := by
  rw [step]
  cases hrun : op.run console with
  | error fault => exact .refl hplaced hunique
  | ok console' => exact run_names hplaced hunique hoffered hkeeps hrun

end

/-! ## Runs -/

/-- Every query item and query folder is found in what is saved, at its path. -/
def QueryTree.SavesEveryNode (tree : QueryTree) : Prop :=
  ∃ settings, consoleQueryTreeSave tree = .ok settings ∧
    ∃ done, SavedAt tree settings done ∧ ∀ i, tree.IsNode i → i ∈ done

/-- All is saved if names are unique and without slashes. -/
theorem savesEveryNode {tree : QueryTree} (hplaced : tree.Placed) (hunique : tree.UniqueNames)
    (hslash : tree.SlashFree) : tree.SavesEveryNode := by
  obtain ⟨settings, hsave, hsaved⟩ := saved_of_treeSave hplaced hunique hslash
  refine ⟨settings, hsave, _, hsaved, fun i hi => ?_⟩
  exact (Forest.mem_subtree_iff hi.valid).2 (Forest.zero_mem_chain hi.valid)

/-- In a run whose operations keep names unique, siblings never share a name; and if names are
    without slashes at the start, no two nodes ever share a path, and every node is saved. -/
theorem uniqueNames_run {start console : QueryConsole} (hplaced : start.tree.Placed)
    (hunique : start.tree.UniqueNames)
    (hrun : Run (· = start) (fun console op => op.Offered console ∧ op.KeepsNames console)
      QueryOp.step console) :
    console.tree.UniqueNames ∧ (start.tree.SlashFree →
      (∀ i j, console.tree.IsNode i → console.tree.IsNode j →
        console.tree.consoleQueryFolderPath i = console.tree.consoleQueryFolderPath j → i = j) ∧
      console.tree.SavesEveryNode) := by
  have hkept : NamesKept start.tree console.tree := by
    refine @Run.invariant _ _ _ _ _ console (fun console => NamesKept start.tree console.tree)
      ?_ ?_ hrun
    · rintro console rfl
      exact .refl hplaced hunique
    · rintro console op hkept ⟨hoffered, hkeeps⟩
      exact hkept.trans (op.step_names hkept.placed hkept.unique hoffered hkeeps)
  refine ⟨hkept.unique, fun hslash => ⟨fun i j hi hj hpath => ?_, ?_⟩⟩
  · exact consoleQueryFolderPath_injective hkept.placed hkept.unique (hkept.slashFree hslash) hi hj
      hpath
  · exact savesEveryNode hkept.placed hkept.unique (hkept.slashFree hslash)

/-- A folder is created. -/
theorem uniqueNames_run_create :
    let console := QueryOp.step ⟨Forest.empty, [], false⟩ (.createFolder ['A'] [] 0)
    console.tree.UniqueNames ∧ (QueryTree.SlashFree Forest.empty →
      (∀ i j, console.tree.IsNode i → console.tree.IsNode j →
        console.tree.consoleQueryFolderPath i = console.tree.consoleQueryFolderPath j → i = j) ∧
      console.tree.SavesEveryNode) :=
  @uniqueNames_run ⟨Forest.empty, [], false⟩ _ (by decide) (by decide)
    (.next (.start rfl) ⟨show QueryTree.IsFolder Forest.empty 0 from .inl rfl, trivial⟩)

/-- Folders X, T, W and Z in the root folder, and another folder Z in W. -/
def twoZ : QueryTree :=
  ((((Forest.empty.addGround (.folder ['X'] [])).addGround (.folder ['T'] [])).addGround
    (.folder ['W'] [])).addGround (.folder ['Z'] [])).add (.folder ['Z'] []) 3 (by decide)

/-- X and Z are dropped on T: when X is gone, the row of T gives W, where there is a folder Z. -/
theorem not_uniqueNames_run :
    ¬∀ start console : QueryConsole, start.tree.Placed → start.tree.UniqueNames →
      start.tree.SlashFree →
      Run (· = start) (fun console op => op.Offered console) QueryOp.step console →
        console.tree.UniqueNames := by
  intro h
  have hoffered : (QueryOp.drop [1, 4] 2).Offered ⟨twoZ, [], false⟩ := by
    refine ⟨?_, ?_⟩
    · decide
    · decide
  exact absurd (h ⟨twoZ, [], false⟩ _ (by decide) (by decide) (by decide)
    (.next (.start rfl) hoffered)) (by decide)

end Admc
