import Admc.Lib.StackLoop
import Admc.Query.Tree

/-!
# Moving saved queries

A move copies the branch of each index to the new parent, item by item, and then
deletes the branch at its old place.
-/

namespace Admc

/-! ## The move -/

/-- What `console_query_move` keeps while it copies a branch: the new parent of what is
    below an index, which may be invalid, and the items that it has created. -/
structure CopyState where
  tree : QueryTree
  newParentMap : QHash Index (Option Index)
  createdList : List Index

/-- The body of the loop of `console_query_move` over a branch: creates a copy of an item,
    and gives the children that come next. -/
def copyItem (state : CopyState) (index : Index) : Except QueryFault (CopyState × List Index) :=
  match state.tree.row? index with
  | none => .error .nullModel
  | some row => do
    let newParent := state.newParentMap.value row.parent none
    let state ← match row.data with
      | .item query => do
        let (tree, itemIndex) ← QueryTree.addScopeItem state.tree (.item query) newParent
        pure { state with tree := tree, createdList := state.createdList ++ [itemIndex] }
      | .folder name description => do
        let (tree, folderIndex) ←
          QueryTree.addScopeItem state.tree (.folder name description) newParent
        pure { tree := tree, createdList := state.createdList ++ [folderIndex],
               newParentMap := state.newParentMap.insert index (some folderIndex) }
      | .object _ => pure state
    -- the items that have been created in the move are left out
    let children := (state.tree.children index).filter (· ∉ state.createdList)
    return (state, children)

/-- The loop of `console_query_move` over a branch. -/
def copyBranch (tree : QueryTree) (oldIndex : Index) (newParent : Option Index) :
    Except QueryFault CopyState :=
  stackLoop .unfinished copyItem (tree.rows.length + 1)
    ⟨tree, [(tree.parent oldIndex, newParent)], []⟩ [oldIndex]

/-- One turn of the loop of `console_query_move` over the indexes. The new parent is found
    by its row, anew in each turn. -/
def moveIndex (newParentIndex : ModelIndex) (deleteOldBranch : Bool) (tree : QueryTree)
    (oldIndex : Index) : Except QueryFault QueryTree := do
  let state ← copyBranch tree oldIndex (tree.itemFromIndex newParentIndex)
  return if deleteOldBranch then state.tree.remove oldIndex else state.tree

/-- The check of `console_query_move` for name conflicts. -/
def moveNamesAreGood (tree : QueryTree) (indexList : List Index) (newParent : Index) : Bool :=
  indexList.all fun index => consoleQueryOrFolderNameIsGood (tree.displayName index)
    (tree.getSiblingNameList newParent (some index))

/-- `console_query_move`: nothing is done if there is a name conflict. -/
def consoleQueryMove (tree : QueryTree) (indexList : List Index) (newParent : Index)
    (deleteOldBranch : Bool) : Except QueryFault QueryTree :=
  if moveNamesAreGood tree indexList newParent then
    indexList.foldlM (moveIndex (tree.toModelIndex newParent) deleteOldBranch) tree
  else .ok tree

/-- `QueryFolderImpl::can_drop`. -/
def queryFolderCanDrop (tree : QueryTree) (droppedList : List Index) (target : Index) : Bool :=
  let droppedIsTarget := decide (target ∈ droppedList)
  if droppedIsTarget then false
  else (droppedList.map tree.itemType).all fun type => type = .queryItem || type = .queryFolder

/-- `QueryFolderImpl::drop`. -/
def queryFolderDrop (tree : QueryTree) (droppedList : List Index) (target : Index) :
    Except QueryFault QueryTree :=
  consoleQueryMove tree droppedList target true

/-- The indexes that have been cut or copied. -/
structure CopiedList where
  list : List Index
  isCut : Bool

/-- `QueryFolderImpl::paste`. -/
def queryFolderPaste (tree : QueryTree) (copied : CopiedList) (parentIndex : Index) :
    Except QueryFault QueryTree :=
  let recursiveCutAndPaste := copied.isCut && decide (parentIndex ∈ copied.list)
  if recursiveCutAndPaste then .ok tree
  else
    let parentIsSame := copied.list.any fun index =>
      (tree.row? index).any fun row => decide (row.parent = parentIndex)
    if !copied.isCut && parentIsSame then .ok tree
    else consoleQueryMove tree copied.list parentIndex copied.isCut

/-! ## Copying a branch -/

/-- The item with an index is a query item or a query folder. -/
def QueryTree.isQuery (tree : QueryTree) (index : Index) : Bool :=
  (tree.row? index).any (·.data.isQuery)

/-- After some indexes of a branch the copies, newest first, are those of the query items
    and query folders among them. -/
structure CopiesOf (tree : QueryTree) (top : Row QueryNode) (newParent : Option Index)
    (state : CopyState) (done : List Index) (copies : List ItemCopy) : Prop where
  rows : state.tree.rows = copies.map ItemCopy.row ++ tree.rows
  created : state.createdList = (copies.map ItemCopy.id).reverse
  fresh : ∀ copy ∈ copies, tree.next ≤ copy.id
  next_le : tree.next ≤ state.tree.next
  originals : copies.map (·.original.id) = (done.filter tree.isQuery).reverse
  original_mem : ∀ copy ∈ copies, copy.original ∈ tree.rows
  /-- The topmost copy is in the new parent, and any other in the copy of the folder that
      its original is in. -/
  parent : ∀ copy ∈ copies, copy.original = top ∧ newParent = some copy.parent ∨
    ∃ folder ∈ copies, folder.original.data.isFolder = true ∧
      folder.original.id = copy.original.parent ∧ folder.id = copy.parent
  map_top : state.newParentMap.value top.parent none = newParent
  map_mem : ∀ index parent, index ≠ top.parent →
    state.newParentMap.value index none = some parent →
      ∃ folder ∈ copies, folder.original.data.isFolder = true ∧
        folder.original.id = index ∧ folder.id = parent
  map_folder : ∀ folder ∈ copies, folder.original.data.isFolder = true →
    state.newParentMap.value folder.original.id none = some folder.id

section
variable {tree : QueryTree} {top row : Row QueryNode} {newParent : Option Index}
  {state : CopyState} {done : List Index} {copies : List ItemCopy} {index parent : Index}

theorem isQuery_of_mem (h : row ∈ tree.rows) : tree.isQuery row.id = row.data.isQuery := by
  rw [QueryTree.isQuery, Forest.row?_of_mem h]
  rfl

/-- The old children are those that have not been created. -/
theorem children_filter_created {new : QueryTree} {rows : List (Row QueryNode)}
    {created : List Index} (hrows : new.rows = rows ++ tree.rows)
    (hfresh : ∀ row ∈ rows, tree.next ≤ row.id) (hcreated : ∀ i, i ∈ created ↔ i ∈ rows.map Row.id) :
    (new.children index).filter (· ∉ created) = tree.children index := by
  have hnew : ((rows.filter fun row => row.parent = index).map Row.id).reverse.filter
      (· ∉ created) = [] := by
    refine List.filter_eq_nil_iff.2 fun i hi => ?_
    obtain ⟨row, hrow, rfl⟩ := List.mem_map.1 (List.mem_reverse.1 hi)
    simpa using (hcreated _).2 (List.mem_map_of_mem (List.mem_of_mem_filter hrow))
  have hold : (tree.children index).filter (· ∉ created) = tree.children index := by
    refine List.filter_eq_self.2 fun i hi => decide_eq_true fun hmem => ?_
    obtain ⟨row, hrow, rfl, -⟩ := Forest.mem_children.1 hi
    obtain ⟨row', hrow', hid⟩ := List.mem_map.1 ((hcreated _).1 hmem)
    exact absurd (hid ▸ hfresh row' hrow') (not_le.2 (tree.lt_next row hrow))
  rw [Forest.children, hrows, List.filter_append, List.map_append, List.reverse_append,
    List.filter_append, hnew, List.append_nil]
  exact hold

theorem addScopeItem_valid {node : QueryNode} (h : tree.Valid parent) :
    QueryTree.addScopeItem tree node (some parent) = .ok (tree.add node parent h, tree.next) :=
  dif_pos h

/-- A query item or a query folder is copied to the parent that the map gives. -/
theorem copyItem_query (hrow : state.tree.row? index = some row)
    (hquery : row.data.isQuery = true)
    (hparent : state.newParentMap.value row.parent none = some parent)
    (hvalid : state.tree.Valid parent) :
    copyItem state index = .ok (⟨state.tree.add row.data parent hvalid,
        if row.data.isFolder then state.newParentMap.insert index (some state.tree.next)
        else state.newParentMap, state.createdList ++ [state.tree.next]⟩,
      ((state.tree.add row.data parent hvalid).children index).filter
        (· ∉ state.createdList ++ [state.tree.next])) := by
  obtain ⟨id, rowParent, node⟩ := row
  cases node with
  | folder name description => simp [copyItem, hrow, hparent, addScopeItem_valid hvalid,
      QueryNode.isFolder, pure, Except.pure, bind, Except.bind]
  | item query => simp [copyItem, hrow, hparent, addScopeItem_valid hvalid, QueryNode.isFolder,
      pure, Except.pure, bind, Except.bind]
  | object name => exact absurd hquery nofun

theorem copyItem_error (hrow : state.tree.row? index = some row)
    (hquery : row.data.isQuery = true)
    (hparent : state.newParentMap.value row.parent none = none) :
    copyItem state index = .error .noColumns := by
  obtain ⟨id, rowParent, node⟩ := row
  cases node with
  | folder name description => simp [copyItem, hrow, hparent, QueryTree.addScopeItem, bind,
      Except.bind]
  | item query => simp [copyItem, hrow, hparent, QueryTree.addScopeItem, bind, Except.bind]
  | object name => exact absurd hquery nofun

/-- An object is not copied. -/
theorem copyItem_object (hrow : state.tree.row? index = some row)
    (hquery : row.data.isQuery = false) :
    copyItem state index =
      .ok (state, (state.tree.children index).filter (· ∉ state.createdList)) := by
  obtain ⟨id, rowParent, node⟩ := row
  cases node with
  | folder name description => exact absurd hquery nofun
  | item query => exact absurd hquery nofun
  | object name => simp [copyItem, hrow, pure, Except.pure, bind, Except.bind]

end

/-- A branch can be copied: there is a place for its topmost item, and below it the query
    items and query folders are in folders. -/
structure Copyable (tree : QueryTree) (top : Row QueryNode) (newParent : Option Index) : Prop where
  place : top.data.isQuery = true → newParent ≠ none
  below : ∀ row ∈ tree.rows, top.id ∈ tree.chain row.parent → row.data.isQuery = true →
    tree.IsFolder row.parent

section
variable {tree : QueryTree} {top row : Row QueryNode} {newParent : Option Index}
  {state : CopyState} {done : List Index} {copies : List ItemCopy} {index parent : Index}

namespace CopiesOf

theorem rows_mem (h : CopiesOf tree top newParent state done copies) (hrow : row ∈ tree.rows) :
    row ∈ state.tree.rows := by
  rw [h.rows]
  exact List.mem_append_right _ hrow

theorem copy_mem (h : CopiesOf tree top newParent state done copies) {copy : ItemCopy}
    (hcopy : copy ∈ copies) : copy.row ∈ state.tree.rows := by
  rw [h.rows]
  exact List.mem_append_left _ (List.mem_map_of_mem hcopy)

theorem valid (h : CopiesOf tree top newParent state done copies) (hvalid : tree.Valid index) :
    state.tree.Valid index := by
  refine hvalid.imp_right ?_
  rintro ⟨row, hrow, rfl⟩
  exact ⟨row, h.rows_mem hrow, rfl⟩

theorem done_of_mem (h : CopiesOf tree top newParent state done copies) {copy : ItemCopy}
    (hcopy : copy ∈ copies) : copy.original.id ∈ done := by
  have hmem : copy.original.id ∈ copies.map (·.original.id) := List.mem_map_of_mem hcopy
  rw [h.originals, List.mem_reverse] at hmem
  exact List.mem_of_mem_filter hmem

/-- What has been popped has been copied. -/
theorem exists_copy (h : CopiesOf tree top newParent state done copies) (hrow : row ∈ tree.rows)
    (hquery : row.data.isQuery = true) (hdone : row.id ∈ done) :
    ∃ copy ∈ copies, copy.original = row := by
  have hmem : row.id ∈ copies.map (·.original.id) := by
    rw [h.originals, List.mem_reverse, List.mem_filter, isQuery_of_mem hrow]
    exact ⟨hdone, hquery⟩
  obtain ⟨copy, hcopy, hid⟩ := List.mem_map.1 hmem
  exact ⟨copy, hcopy, Forest.row_eq_of_id (h.original_mem copy hcopy) hrow hid⟩

theorem children (h : CopiesOf tree top newParent state done copies) :
    (state.tree.children index).filter (· ∉ state.createdList) = tree.children index := by
  refine children_filter_created h.rows (List.forall_mem_map.2 h.fresh) fun i => ?_
  rw [h.created, List.mem_reverse, List.map_map]
  rfl

/-- An object adds nothing. -/
theorem object (h : CopiesOf tree top newParent state done copies) (hrow : row ∈ tree.rows)
    (hquery : row.data.isQuery = false) :
    CopiesOf tree top newParent state (done ++ [row.id]) copies :=
  { h with
    originals := by
      rw [List.filter_append, List.filter_cons, isQuery_of_mem hrow, hquery]
      simpa using h.originals }

/-- The copy of a query item or a query folder, in the parent that the map gives. -/
theorem query (h : CopiesOf tree top newParent state done copies) (htop : top ∈ tree.rows)
    (hrow : row ∈ tree.rows) (hquery : row.data.isQuery = true) (hnot : row.id ∉ done)
    (hbelow : row = top ∨ top.id ∈ tree.chain row.parent)
    (hparent : state.newParentMap.value row.parent none = some parent)
    (hvalid : state.tree.Valid parent) :
    CopiesOf tree top newParent ⟨state.tree.add row.data parent hvalid,
      if row.data.isFolder then state.newParentMap.insert row.id (some state.tree.next)
      else state.newParentMap, state.createdList ++ [state.tree.next]⟩ (done ++ [row.id])
      (⟨row, state.tree.next, parent⟩ :: copies) := by
  have hne : row.id ≠ top.parent := by
    have hlt := tree.parent_lt top htop
    obtain rfl | hbelow := hbelow
    · exact hlt.ne'
    · exact (hlt.trans_le ((Forest.le_of_mem_chain hbelow).trans
        (tree.parent_lt row hrow).le)).ne'
  have hvalue : ∀ i, (if row.data.isFolder = true then
      state.newParentMap.insert row.id (some state.tree.next) else state.newParentMap).value i
        none = if row.data.isFolder = true ∧ i = row.id then some state.tree.next
        else state.newParentMap.value i none := by
    intro i
    by_cases hfolder : row.data.isFolder = true
    · rw [if_pos hfolder, QHash.value_insert]
      simp only [hfolder, true_and]
    · rw [if_neg hfolder, if_neg fun h => hfolder h.1]
  exact
    { rows := by
        rw [List.map_cons, List.cons_append, ← h.rows]
        rfl
      created := by
        rw [List.map_cons, List.reverse_cons, ← h.created]
      fresh := List.forall_mem_cons.2 ⟨h.next_le, h.fresh⟩
      next_le := h.next_le.trans (Nat.le_succ _)
      originals := by
        rw [List.map_cons, h.originals, List.filter_append, List.filter_cons,
          isQuery_of_mem hrow, hquery, if_pos rfl, List.reverse_append]
        rfl
      original_mem := List.forall_mem_cons.2 ⟨hrow, h.original_mem⟩
      parent := by
        refine List.forall_mem_cons.2 ⟨?_, fun copy hcopy => ?_⟩
        · obtain rfl | hbelow := hbelow
          · exact .inl ⟨rfl, h.map_top.symm.trans hparent⟩
          · have hne' : row.parent ≠ top.parent := fun heq =>
              Forest.not_mem_chain_parent htop (heq ▸ hbelow)
            obtain ⟨folder, hfolder, hcopy⟩ := h.map_mem _ _ hne' hparent
            exact .inr ⟨folder, List.mem_cons_of_mem _ hfolder, hcopy⟩
        · refine (h.parent copy hcopy).imp_right ?_
          rintro ⟨folder, hfolder, hcopy⟩
          exact ⟨folder, List.mem_cons_of_mem _ hfolder, hcopy⟩
      map_top := by
        refine (hvalue _).trans ?_
        rw [if_neg fun heq => hne heq.2.symm]
        exact h.map_top
      map_mem := by
        intro i p hi hp
        rw [hvalue] at hp
        split_ifs at hp with hfolder
        · exact ⟨_, List.mem_cons_self, hfolder.1, hfolder.2.symm, Option.some_inj.1 hp⟩
        · obtain ⟨folder, hmem, hcopy⟩ := h.map_mem i p hi hp
          exact ⟨folder, List.mem_cons_of_mem _ hmem, hcopy⟩
      map_folder := by
        refine List.forall_mem_cons.2 ⟨fun hfolder => ?_, fun folder hmem hfolder => ?_⟩
        · exact (hvalue _).trans (if_pos ⟨hfolder, rfl⟩)
        · rw [hvalue]
          split_ifs with heq
          · refine absurd (h.done_of_mem hmem) ?_
            rwa [heq.2]
          · exact h.map_folder folder hmem hfolder }

/-- The items that are popped are in the branch. -/
theorem row_of_popsNext (htop : top ∈ tree.rows)
    (hpops : PopsNext tree.children tree.subtree [top.id] done index) :
    ∃ row ∈ tree.rows, row.id = index ∧
      (row = top ∨ top.id ∈ tree.chain row.parent ∧ row.parent ∈ done) := by
  have hmem := hpops.mem_subtree
  rw [List.flatMap_singleton] at hmem
  obtain rfl | ⟨row, hrow, rfl, hchain⟩ := Forest.mem_subtree.1 hmem
  · exact ⟨top, htop, rfl, .inl rfl⟩
  · refine ⟨row, hrow, rfl, .inr ⟨hchain, ?_⟩⟩
    obtain hstart | ⟨p, hp, hchild⟩ := hpops.parent
    · rw [Forest.row_eq_of_id hrow htop (List.mem_singleton.1 hstart)] at hchain
      exact absurd hchain (Forest.not_mem_chain_parent htop)
    · obtain ⟨row', hrow', hid, rfl⟩ := Forest.mem_children.1 hchild
      rwa [← Forest.row_eq_of_id hrow' hrow hid]

/-- A turn of the loop over a branch. -/
theorem step (h : CopiesOf tree top newParent state done copies) (htop : top ∈ tree.rows)
    (hvalid : ∀ parent, newParent = some parent → tree.Valid parent)
    (hpops : PopsNext tree.children tree.subtree [top.id] done index) :
    (copyItem state index).Yields (fun _ => ¬Copyable tree top newParent) fun r =>
      r.2 = tree.children index ∧
        ∃ copies, CopiesOf tree top newParent r.1 (done ++ [index]) copies := by
  obtain ⟨row, hrow, rfl, hcase⟩ := row_of_popsNext htop hpops
  have hrow? : state.tree.row? row.id = some row := Forest.row?_of_mem (h.rows_mem hrow)
  cases hquery : row.data.isQuery with
  | false =>
    rw [copyItem_object hrow? hquery]
    exact ⟨h.children, copies, h.object hrow hquery⟩
  | true =>
    have hbelow : row = top ∨ top.id ∈ tree.chain row.parent := hcase.imp_right And.left
    cases hparent : state.newParentMap.value row.parent none with
    | none =>
      rw [copyItem_error hrow? hquery hparent]
      intro hcopyable
      obtain rfl | ⟨hchain, hdone⟩ := hcase
      · exact hcopyable.place hquery (h.map_top.symm.trans hparent)
      · -- the parent is a folder, which has been copied
        obtain hzero | ⟨folder, hfolder, hid, hisFolder⟩ := hcopyable.below row hrow hchain hquery
        · have hle := Forest.le_of_mem_chain hchain
          exact absurd (hzero ▸ hle) (not_le.2 (Forest.id_pos htop))
        · obtain ⟨copy, hcopy, rfl⟩ := h.exists_copy hfolder
            (QueryNode.isQuery_of_isFolder hisFolder) (hid ▸ hdone)
          have hsome := h.map_folder copy hcopy hisFolder
          rw [hid, hparent] at hsome
          exact nomatch hsome
    | some parent =>
      have hvalid' : state.tree.Valid parent := by
        obtain rfl | ⟨hchain, -⟩ := hcase
        · exact h.valid (hvalid parent (h.map_top.symm.trans hparent))
        · have hne : row.parent ≠ top.parent := fun heq =>
            Forest.not_mem_chain_parent htop (heq ▸ hchain)
          obtain ⟨folder, hfolder, -, -, rfl⟩ := h.map_mem _ _ hne hparent
          exact Forest.valid_of_mem (h.copy_mem hfolder)
      rw [copyItem_query hrow? hquery hparent hvalid']
      have hnext := h.query htop hrow hquery hpops.not_mem hbelow hparent hvalid'
      exact ⟨hnext.children, _, hnext⟩

end CopiesOf

/-- Copying a branch that can be copied gives copies of all of it, and no other branch is
    copied without running into a fault. -/
theorem copyBranch_spec (htop : top ∈ tree.rows)
    (hvalid : ∀ parent, newParent = some parent → tree.Valid parent) :
    (copyBranch tree top.id newParent).Yields (fun _ => ¬Copyable tree top newParent)
      fun state => ∃ done copies, CopiesOf tree top newParent state done copies ∧
        done.Perm (tree.subtree top.id) := by
  have hflat : ([top.id].flatMap tree.subtree) = tree.subtree top.id := List.flatMap_singleton _ _
  have hstart : CopiesOf tree top newParent
      ⟨tree, [(tree.parent top.id, newParent)], []⟩ [] [] :=
    { rows := rfl
      created := rfl
      fresh := nofun
      next_le := le_rfl
      originals := rfl
      original_mem := nofun
      parent := nofun
      map_top := by
        rw [Forest.parent_of_mem htop, QHash.value_cons, if_pos rfl]
      map_mem := by
        intro i p hi hp
        rw [Forest.parent_of_mem htop, QHash.value_cons, if_neg hi] at hp
        exact nomatch hp
      map_folder := nofun }
  have hloop : (copyBranch tree top.id newParent).Yields (fun _ => ¬Copyable tree top newParent)
      fun state => ∃ done, (∃ copies, CopiesOf tree top newParent state done copies) ∧
        done.Perm ([top.id].flatMap tree.subtree) :=
    stackLoop_tree_yields (fun state done => ∃ copies, CopiesOf tree top newParent state done copies)
      tree.subtree_perm (fun state done i ⟨copies, h⟩ hpops => h.step htop hvalid hpops)
      (hflat ▸ Forest.nodup_subtree) ⟨[], hstart⟩ (hflat ▸ Forest.length_subtree_le)
  refine hloop.mono ?_
  rintro state ⟨done, ⟨copies, h⟩, hperm⟩
  exact ⟨done, copies, h, hflat ▸ hperm⟩

namespace CopiesOf

/-- A branch of which all has been copied is one that can be copied. -/
theorem copyable (h : CopiesOf tree top newParent state done copies) (htop : top ∈ tree.rows)
    (hperm : done.Perm (tree.subtree top.id)) : Copyable tree top newParent where
  place hquery hnone := by
    have hmem : top.id ∈ done := hperm.mem_iff.2 List.mem_cons_self
    obtain ⟨copy, hcopy, rfl⟩ := h.exists_copy htop hquery hmem
    obtain ⟨-, hsome⟩ | ⟨folder, hfolder, -, hid, -⟩ := h.parent copy hcopy
    · exact nomatch hnone.symm.trans hsome
    · have hsub := hperm.mem_iff.1 (h.done_of_mem hfolder)
      have hparent := Forest.valid_parent htop
      rw [hid, Forest.mem_subtree_iff hparent] at hsub
      exact Forest.not_mem_chain_parent htop hsub
  below row hrow hchain hquery := by
    have hmem : row.id ∈ done :=
      hperm.mem_iff.2 (Forest.mem_subtree.2 (.inr ⟨row, hrow, rfl, hchain⟩))
    obtain ⟨copy, hcopy, rfl⟩ := h.exists_copy hrow hquery hmem
    obtain ⟨heq, -⟩ | ⟨folder, hfolder, hisFolder, hid, -⟩ := h.parent copy hcopy
    · exact absurd (heq ▸ hchain) (Forest.not_mem_chain_parent htop)
    · exact .inr ⟨_, h.original_mem folder hfolder, hid, hisFolder⟩

/-- The originals are the query items and query folders of the branch. -/
theorem originals_perm (h : CopiesOf tree top newParent state done copies)
    (hperm : done.Perm (tree.subtree top.id)) :
    (copies.map ItemCopy.original).Perm
      ((tree.branch top.id).filter fun row => row.data.isQuery) := by
  have hids : (copies.map ItemCopy.original).map Row.id = (done.filter tree.isQuery).reverse := by
    rw [List.map_map]
    exact h.originals
  have hnodup : ((copies.map ItemCopy.original).map Row.id).Nodup := by
    rw [hids, List.nodup_reverse]
    exact (hperm.nodup_iff.2 Forest.nodup_subtree).filter _
  have hbranch : (tree.branch top.id).Nodup := Forest.nodup_rows.filter _
  refine (List.perm_ext_iff_of_nodup hnodup.of_map (hbranch.filter _)).2 fun row => ?_
  rw [List.mem_map, List.mem_filter, Forest.mem_branch]
  constructor
  · rintro ⟨copy, hcopy, rfl⟩
    have hrow := h.original_mem copy hcopy
    have hdone : copy.original.id ∈ done.filter tree.isQuery := by
      rw [← List.mem_reverse, ← hids, List.map_map]
      exact List.mem_map_of_mem hcopy
    rw [List.mem_filter, isQuery_of_mem hrow] at hdone
    have hsub := hperm.mem_iff.1 hdone.1
    exact ⟨⟨hrow, (Forest.mem_subtree_iff (Forest.valid_of_mem hrow)).1 hsub⟩, hdone.2⟩
  · rintro ⟨⟨hrow, hchain⟩, hquery⟩
    exact h.exists_copy hrow hquery
      (hperm.mem_iff.2 ((Forest.mem_subtree_iff (Forest.valid_of_mem hrow)).2 hchain))

/-- The old items have the same above them. -/
theorem chain_eq (h : CopiesOf tree top newParent state done copies)
    (hvalid : tree.Valid index) : state.tree.chain index = tree.chain index :=
  Forest.chain_of_append h.rows (List.forall_mem_map.2 h.fresh) hvalid.lt_next

/-- The copies are below the new parent. -/
theorem mem_chain_copy (h : CopiesOf tree top (some parent) state done copies)
    (htop : top ∈ tree.rows) (hvalid : tree.Valid parent) {copy : ItemCopy}
    (hcopy : copy ∈ copies) : top.id ∈ state.tree.chain copy.id ↔ top.id ∈ tree.chain parent := by
  suffices hall : ∀ i, state.tree.Valid i → ∀ copy ∈ copies, copy.id = i →
      (top.id ∈ state.tree.chain i ↔ top.id ∈ tree.chain parent) from
    hall _ (Forest.valid_of_mem (h.copy_mem hcopy)) copy hcopy rfl
  intro i hi
  induction i, hi using Forest.valid_induction with
  | ground =>
    intro copy hcopy hid
    exact absurd hid ((Nat.zero_lt_of_lt (tree.lt_next top htop)).trans_le
      (h.fresh copy hcopy)).ne'
  | step row hrow ih =>
    intro copy hcopy hid
    obtain rfl := Forest.row_eq_of_id (h.copy_mem hcopy) hrow hid
    have hne : top.id ≠ copy.row.id :=
      ((tree.lt_next top htop).trans_le (h.fresh copy hcopy)).ne
    rw [Forest.chain_of_mem hrow, List.mem_cons, or_iff_right hne]
    obtain ⟨-, hparent⟩ | ⟨folder, hfolder, -, -, hparent⟩ := h.parent copy hcopy
    · have hrowParent : copy.row.parent = parent := (Option.some_inj.1 hparent).symm
      rw [hrowParent, h.chain_eq hvalid]
    · exact ih folder hfolder hparent

end CopiesOf

end

/-! ## One turn -/

/-- The data of the query items and query folders of a tree. -/
def QueryTree.queries (tree : QueryTree) : List QueryNode :=
  (tree.rows.filter fun row => row.data.isQuery).map Row.data

section
variable {tree tree' : QueryTree} {top row : Row QueryNode} {state : CopyState}
  {done : List Index} {copies : List ItemCopy} {index parent : Index}

theorem queries_perm_of_rows {rows : List (Row QueryNode)} (h : rows.Perm tree.rows) :
    ((rows.filter fun row => row.data.isQuery).map Row.data).Perm tree.queries :=
  (h.filter _).map _

/-- The query items and query folders of a branch, and those that are left without it. -/
theorem queries_remove (tree : QueryTree) (index : Index) :
    (((tree.branch index).filter fun row => row.data.isQuery).map Row.data ++
      QueryTree.queries (tree.remove index)).Perm tree.queries := by
  rw [QueryTree.queries, ← List.map_append, ← List.filter_append]
  exact queries_perm_of_rows Forest.branch_append_perm

/-- Moving a branch to a place outside of it: the branch is gone, and there is a copy of it. -/
structure MovedTo (tree : QueryTree) (top : Row QueryNode) (parent : Index)
    (tree' : QueryTree) : Prop where
  mem_old : ∀ row ∈ tree.rows, row ∈ tree'.rows ↔ top.id ∉ tree.chain row.id
  old_or_new : ∀ row ∈ tree'.rows, row ∈ tree.rows ∨ tree.next ≤ row.id
  next_le : tree.next ≤ tree'.next
  children : ∀ index < tree.next, index ≠ parent →
    tree'.children index = (tree.children index).filter fun i => top.id ∉ tree.chain i
  placed : ∀ row ∈ tree'.rows, tree.next ≤ row.id → row.parent = parent ∨ tree'.IsFolder row.parent
  copy : ∃ row ∈ tree'.rows, tree.next ≤ row.id ∧ row.parent = parent ∧ row.data = top.data
  queries : tree'.queries.Perm tree.queries

namespace CopiesOf

/-- Deleting the old branch may also delete copies. -/
theorem remove_rows (h : CopiesOf tree top (some parent) state done copies) :
    (state.tree.remove top.id).rows = (copies.map ItemCopy.row).filter
      (fun row => top.id ∉ state.tree.chain row.id) ++ (tree.remove top.id).rows := by
  rw [Forest.rows_remove, h.rows, List.filter_append]
  refine congrArg _ (List.filter_congr fun row hrow => ?_)
  rw [h.chain_eq (Forest.valid_of_mem hrow)]

/-- It deletes none, if the new parent is not in the branch. -/
theorem remove_rows_outside (h : CopiesOf tree top (some parent) state done copies)
    (htop : top ∈ tree.rows) (hvalid : tree.Valid parent) (houtside : top.id ∉ tree.chain parent) :
    (state.tree.remove top.id).rows =
      copies.map ItemCopy.row ++ (tree.remove top.id).rows := by
  rw [h.remove_rows]
  refine congrArg (· ++ _) (List.filter_eq_self.2 (List.forall_mem_map.2 fun copy hcopy => ?_))
  exact decide_eq_true fun hmem => houtside ((h.mem_chain_copy htop hvalid hcopy).1 hmem)

/-- It deletes all of them, if the new parent is in the branch. -/
theorem remove_rows_inside (h : CopiesOf tree top (some parent) state done copies)
    (htop : top ∈ tree.rows) (hvalid : tree.Valid parent) (hinside : top.id ∈ tree.chain parent) :
    (state.tree.remove top.id).rows = (tree.remove top.id).rows := by
  rw [h.remove_rows]
  refine congrArg (· ++ _) (List.filter_eq_nil_iff.2 (List.forall_mem_map.2 fun copy hcopy hmem => ?_))
  exact of_decide_eq_true hmem ((h.mem_chain_copy htop hvalid hcopy).2 hinside)

/-- The copies have the data of the branch. -/
theorem copies_data (h : CopiesOf tree top (some parent) state done copies)
    (hperm : done.Perm (tree.subtree top.id)) :
    (((copies.map ItemCopy.row).filter fun row => row.data.isQuery).map Row.data).Perm
      (((tree.branch top.id).filter fun row => row.data.isQuery).map Row.data) := by
  have hquery : ∀ copy ∈ copies, copy.original.data.isQuery = true := by
    intro copy hcopy
    have hmem := (h.originals_perm hperm).mem_iff.1 (List.mem_map_of_mem hcopy)
    exact (List.mem_filter.1 hmem).2
  have hself : ((copies.map ItemCopy.row).filter fun row => row.data.isQuery) =
      copies.map ItemCopy.row :=
    List.filter_eq_self.2 (List.forall_mem_map.2 hquery)
  have hdata := (h.originals_perm hperm).map Row.data
  rw [List.map_map] at hdata
  rw [hself, List.map_map]
  exact hdata

theorem movedTo (h : CopiesOf tree top (some parent) state done copies) (htop : top ∈ tree.rows)
    (hquery : top.data.isQuery = true) (hperm : done.Perm (tree.subtree top.id))
    (hvalid : tree.Valid parent) (houtside : top.id ∉ tree.chain parent) :
    MovedTo tree top parent (state.tree.remove top.id) := by
  have hrows := h.remove_rows_outside htop hvalid houtside
  have hcopyParent : ∀ copy ∈ copies, copy.parent = parent ∨
      ∃ folder ∈ copies, folder.original.data.isFolder = true ∧ folder.id = copy.parent := by
    intro copy hcopy
    obtain ⟨-, hparent⟩ | ⟨folder, hfolder, hisFolder, -, hid⟩ := h.parent copy hcopy
    exacts [.inl (Option.some_inj.1 hparent).symm, .inr ⟨folder, hfolder, hisFolder, hid⟩]
  have hcopyMem : ∀ copy ∈ copies, copy.row ∈ (state.tree.remove top.id).rows := by
    intro copy hcopy
    rw [hrows]
    exact List.mem_append_left _ (List.mem_map_of_mem hcopy)
  refine ⟨fun row hrow => ?_, fun row hrow => ?_, h.next_le, fun index hlt hne => ?_,
    fun row hrow hlt => ?_, ?_, ?_⟩
  · rw [Forest.mem_rows_remove, h.chain_eq (Forest.valid_of_mem hrow),
      and_iff_right (h.rows_mem hrow)]
  · rw [hrows, List.mem_append] at hrow
    obtain hrow | hrow := hrow
    · obtain ⟨copy, hcopy, rfl⟩ := List.mem_map.1 hrow
      exact .inr (h.fresh copy hcopy)
    · exact .inl (Forest.mem_rows_remove.1 hrow).1
  · rw [← Forest.children_remove]
    refine Forest.children_of_append hrows (List.forall_mem_map.2 fun copy hcopy heq => ?_)
    obtain hparent | ⟨folder, hfolder, -, hid⟩ := hcopyParent copy hcopy
    · exact hne (heq.symm.trans hparent)
    · have hparent : folder.id = index := hid.trans heq
      exact absurd (hparent ▸ h.fresh folder hfolder) (not_le.2 hlt)
  · rw [hrows, List.mem_append] at hrow
    obtain hrow | hrow := hrow
    · obtain ⟨copy, hcopy, rfl⟩ := List.mem_map.1 hrow
      obtain hparent | ⟨folder, hfolder, hisFolder, hid⟩ := hcopyParent copy hcopy
      · exact .inl hparent
      · exact .inr (.inr ⟨folder.row, hcopyMem folder hfolder, hid, hisFolder⟩)
    · exact absurd hlt (not_le.2 (tree.lt_next row (Forest.mem_rows_remove.1 hrow).1))
  · obtain ⟨copy, hcopy, heq⟩ := h.exists_copy htop hquery
      (hperm.mem_iff.2 List.mem_cons_self)
    have hdata : copy.original.data = top.data := congrArg Row.data heq
    refine ⟨copy.row, hcopyMem copy hcopy, h.fresh copy hcopy, ?_, hdata⟩
    obtain ⟨-, hparent⟩ | ⟨folder, hfolder, -, hid, -⟩ := h.parent copy hcopy
    · exact (Option.some_inj.1 hparent).symm
    · -- the parent of the topmost item is not in the branch
      have hsub := hperm.mem_iff.1 (h.done_of_mem hfolder)
      rw [hid, heq, Forest.mem_subtree_iff (Forest.valid_parent htop)] at hsub
      exact absurd hsub (Forest.not_mem_chain_parent htop)
  · refine .trans ?_ (queries_remove tree top.id)
    rw [QueryTree.queries, hrows, List.filter_append, List.map_append]
    exact (h.copies_data hperm).append_right _

/-- If the new parent is in the branch, the branch is lost. -/
theorem lost (h : CopiesOf tree top (some parent) state done copies) (htop : top ∈ tree.rows)
    (hquery : top.data.isQuery = true) (hvalid : tree.Valid parent)
    (hinside : top.id ∈ tree.chain parent) :
    (QueryTree.queries (state.tree.remove top.id)).length < tree.queries.length := by
  have hrows := h.remove_rows_inside htop hvalid hinside
  have hmem : top ∈ (tree.branch top.id).filter fun row => row.data.isQuery :=
    List.mem_filter.2 ⟨Forest.mem_branch.2 ⟨htop, Forest.mem_chain_self (Forest.valid_of_mem htop)⟩,
      hquery⟩
  have hlength := (queries_remove tree top.id).length_eq
  rw [List.length_append, List.length_map] at hlength
  have hpos := List.length_pos_of_mem hmem
  rw [QueryTree.queries, hrows]
  rw [QueryTree.queries] at hlength
  omega

end CopiesOf

end

section
variable {tree tree' : QueryTree} {top : Row QueryNode} {newParentIndex : ModelIndex}
  {index parent : Index} {deleteOldBranch : Bool}

theorem valid_of_itemFromIndex (h : tree.itemFromIndex newParentIndex = some parent) :
    tree.Valid parent := by
  cases newParentIndex with
  | root =>
    obtain rfl := Option.some_inj.1 h
    exact Forest.valid_zero
  | row _ _ =>
    obtain ⟨row, hrow, rfl, -⟩ := Forest.mem_children.1 (List.mem_of_getElem? h)
    exact Forest.valid_of_mem hrow

/-- An index that is no longer valid has no model. -/
theorem moveIndex_of_none (h : tree.row? index = none) :
    moveIndex newParentIndex deleteOldBranch tree index = .error .nullModel := by
  have hcopy : ∀ map, copyItem ⟨tree, map, []⟩ index = .error .nullModel := by
    intro map
    simp only [copyItem, h]
  rw [moveIndex, copyBranch, stackLoop, hcopy]
  rfl

/-- A branch that cannot be copied is not moved. -/
theorem moveIndex_returns (htop : top ∈ tree.rows)
    (h : Copyable tree top (tree.itemFromIndex newParentIndex)) :
    ∃ tree', moveIndex newParentIndex deleteOldBranch tree top.id = .ok tree' := by
  have hspec := Except.yields_iff.1
    (copyBranch_spec htop fun _ => @valid_of_itemFromIndex _ newParentIndex _)
  cases hcopy : copyBranch tree top.id (tree.itemFromIndex newParentIndex) with
  | error fault => exact absurd h (hspec.2 fault hcopy)
  | ok state => exact ⟨_, by rw [moveIndex, hcopy]; rfl⟩

/-- A turn that cuts and returns: the branch could be copied, and it has been moved if the new
    parent is outside of it, and is lost if not. -/
theorem moveIndex_ok (htop : top ∈ tree.rows) (hquery : top.data.isQuery = true)
    (h : moveIndex newParentIndex true tree top.id = .ok tree') :
    ∃ parent, tree.itemFromIndex newParentIndex = some parent ∧
      Copyable tree top (some parent) ∧
      (top.id ∉ tree.chain parent ∧ MovedTo tree top parent tree' ∨
        top.id ∈ tree.chain parent ∧ tree'.queries.length < tree.queries.length ∧
          tree.next ≤ tree'.next ∧ ∀ row ∈ tree'.rows, row ∈ tree.rows) := by
  obtain ⟨state, hcopy, hreturn⟩ := Except.bind_eq_ok.1 h
  obtain rfl := Except.pure_eq_ok.1 hreturn
  have hspec := (Except.yields_iff.1 (copyBranch_spec htop fun _ =>
    @valid_of_itemFromIndex _ newParentIndex _)).1 state hcopy
  obtain ⟨done, copies, hcopies, hperm⟩ := hspec
  have hcopyable := hcopies.copyable htop hperm
  obtain ⟨parent, hparent⟩ := Option.ne_none_iff_exists'.1 (hcopyable.place hquery)
  have hvalid := valid_of_itemFromIndex hparent
  rw [hparent] at hcopies hcopyable
  refine ⟨parent, hparent, hcopyable, ?_⟩
  by_cases hinside : top.id ∈ tree.chain parent
  · refine .inr ⟨hinside, hcopies.lost htop hquery hvalid hinside, hcopies.next_le, ?_⟩
    intro row hrow
    rw [if_pos rfl, hcopies.remove_rows_inside htop hvalid hinside] at hrow
    exact (Forest.mem_rows_remove.1 hrow).1
  · exact .inl ⟨hinside, hcopies.movedTo htop hquery hperm hvalid hinside⟩

end

end Admc
