import Admc.Query.Storage

/-!
# Loading saved queries

`console_query_tree_init` makes the tree from the settings, folder by folder, with a
stack of the folders that it has made. From what `console_query_tree_save` has stored
it makes the same tree again (`treeInit_treeSave`), without the objects that query
items have fetched.

* `LoadedChildren`: what the loop over the paths in one folder makes;
* `Reloaded`: the invariant of the loop over the folders. What has been made are
  counterparts of items of the tree that was saved, and they are in the counterparts
  of the same folders.
-/

namespace Admc

/-! ## Loading -/

/-- The body of the loop of `console_query_tree_init` over the paths in a folder, with the
    folders that it pushes on the stack. -/
def initChild (settings : QuerySettings) (folderIndex : Index) (state : QueryTree × List Index)
    (path : QString) : Except QueryFault (QueryTree × List Index) :=
  if settings.itemList.contains path then do
    let tree ← consoleQueryItemLoadHash state.1 (settings.itemList.value path []) folderIndex
    return (tree, state.2)
  else if settings.folderList.contains path then do
    let data := settings.folderList.value path []
    let name := (data.value "name" .invalid).toString
    let description := (data.value "description" .invalid).toString
    let (tree, childIndex) ← QueryTree.addScopeItem state.1 (.folder name description)
      (some folderIndex)
    return (tree, state.2 ++ [childIndex])
  else .ok state

/-- The body of the loop of `console_query_tree_init` over the folders. -/
def initFolder (settings : QuerySettings) (tree : QueryTree) (folderIndex : Index) :
    Except QueryFault (QueryTree × List Index) :=
  let folderPath := tree.consoleQueryFolderPath folderIndex
  if !settings.folderList.contains folderPath then .ok (tree, [])
  else
    let folderData := settings.folderList.value folderPath []
    let childList := (folderData.value "child_list" .invalid).toStringList
    childList.foldlM (initChild settings folderIndex) (tree, [])

/-- `console_query_tree_init`, of which a number of turns is run: settings that have been
    written by something else may have it make folders for ever. -/
def consoleQueryTreeInit (turns : ℕ) (settings : QuerySettings) : Except QueryFault QueryTree :=
  stackLoop .unfinished (initFolder settings) turns Forest.empty [0]

/-! ## One folder -/

/-- The rows in a folder, in the order in which they have been added. -/
def QueryTree.childRows (tree : QueryTree) (index : Index) : List (Row QueryNode) :=
  (tree.rows.filter fun row => row.parent = index).reverse

/-- The counterparts that are made in a folder for some items, newest first. -/
structure LoadedChildren (parent : Index) (items : List (Row QueryNode)) (tree : QueryTree)
    (loaded : QueryTree × List Index) (new : List ItemCopy) : Prop where
  rows : loaded.1.rows = new.map ItemCopy.row ++ tree.rows
  originals : new.map ItemCopy.original = items.reverse
  parent : ∀ c ∈ new, c.parent = parent
  next_le : tree.next ≤ loaded.1.next
  fresh : ∀ c ∈ new, tree.next ≤ c.id
  pushed : loaded.2 = ((new.filter fun c => c.original.data.isFolder).map ItemCopy.id).reverse

section
variable {tree saved : QueryTree} {settings : QuerySettings} {done : List Index}
  {row : Row QueryNode} {i parent : Index}

theorem children_eq_childRows : tree.children i = (tree.childRows i).map Row.id := by
  rw [Forest.children, QueryTree.childRows, List.map_reverse]

theorem mem_childRows : row ∈ tree.childRows i ↔ row ∈ tree.rows ∧ row.parent = i := by
  rw [QueryTree.childRows, List.mem_reverse, List.mem_filter, decide_eq_true_iff]

/-- A query that is loaded with the data that has been saved for it. -/
theorem loadHash_saveHash {query : QueryItem}
    (hgood : consoleQueryOrFolderNameIsGood query.name (tree.getSiblingNameList parent none) = true)
    (hparent : tree.Valid parent) :
    consoleQueryItemLoadHash tree (consoleQueryItemSaveHash query) parent =
      .ok (tree.add (.item query) parent hparent) := by
  have hne : (consoleQueryItemSaveHash query).isEmpty = false := rfl
  simp only [consoleQueryItemLoadHash, hne, queryOfHash_saveHash, hgood, Bool.not_true,
    Bool.false_eq_true, if_false, QueryTree.addScopeItem, dif_pos hparent]
  rfl

/-- An item that has been saved is made again, in a folder where its name is new. -/
theorem initChild_of_saved (hsaved : SavedAt saved settings (saved.subtree 0))
    (hplaced : saved.Placed) (hnames : GoodNames saved) (hrow : row ∈ saved.rows)
    (hquery : row.data.isQuery = true) (hparent : tree.Valid parent)
    (hnew : ∀ other ∈ tree.rows, other.parent = parent → other.data.name ≠ row.data.name)
    (pushed : List Index) :
    initChild settings parent (tree, pushed) (saved.consoleQueryFolderPath row.id) =
      .ok (tree.add row.data parent hparent,
        if row.data.isFolder then pushed ++ [tree.next] else pushed) := by
  have hdone : row.id ∈ saved.subtree 0 :=
    (Forest.mem_subtree_iff (Forest.valid_of_mem hrow)).2
      (Forest.zero_mem_chain (Forest.valid_of_mem hrow))
  cases hdata : row.data with
  | object name =>
    rw [hdata] at hquery
    exact nomatch hquery
  | item query =>
    obtain ⟨hcontains, hvalue⟩ := hsaved.item row hrow hdone query hdata
    have hname : query.name = row.data.name := by rw [hdata]; rfl
    have hgood : consoleQueryOrFolderNameIsGood query.name
        (tree.getSiblingNameList parent none) = true := by
      rw [nameIsGood_iff, hname, mem_getSiblingNameList]
      refine ⟨hnames.ne_nil row hrow hquery, ?_, hnames.slashFree row hrow hquery⟩
      rintro ⟨other, hother, hotherParent, -, hotherName⟩
      exact hnew other hother hotherParent hotherName
    rw [initChild, if_pos hcontains, hvalue, loadHash_saveHash hgood hparent]
    rfl
  | folder name description =>
    have hfolder : saved.IsFolder row.id := .inr ⟨row, hrow, rfl, by rw [hdata]; rfl⟩
    obtain ⟨hcontains, hvalue⟩ := hsaved.folder row.id hdone hfolder
    have hnot : ¬settings.itemList.contains (saved.consoleQueryFolderPath row.id) = true := by
      intro hitem
      obtain ⟨other, hother, query, hotherData, hpath⟩ := hsaved.item_only _ hitem
      have hnode : saved.IsNode other.id := .inr ⟨other, hother, rfl, by rw [hotherData]; rfl⟩
      have hid := consoleQueryFolderPath_injective hplaced hnames.unique hnames.slashFree hnode
        hfolder.isNode hpath
      rw [Forest.row_eq_of_id hother hrow hid, hdata] at hotherData
      exact nomatch hotherData
    have hhash : folderHash saved row.id = [("name", .string name),
        ("description", .string description),
        ("child_list", .stringList ((saved.children row.id).map saved.consoleQueryFolderPath))] := by
      rw [folderHash, Forest.row?_of_mem hrow, Option.map_some, hdata]
    rw [initChild, if_neg hnot, if_pos hcontains, hvalue, hhash]
    simp [QVariant.toString, QueryTree.addScopeItem, dif_pos hparent, QueryNode.isFolder, pure,
      Except.pure, bind, Except.bind]

namespace LoadedChildren

variable {items : List (Row QueryNode)} {loaded : QueryTree} {pushed : List Index}
  {new : List ItemCopy}

theorem nil : LoadedChildren parent [] tree (tree, []) [] where
  rows := rfl
  originals := rfl
  parent := nofun
  next_le := le_rfl
  fresh := nofun
  pushed := rfl

theorem valid (h : LoadedChildren parent items tree (loaded, pushed) new) (hi : tree.Valid i) :
    loaded.Valid i := by
  refine hi.imp_right ?_
  rintro ⟨row, hrow, hid⟩
  exact ⟨row, h.rows ▸ List.mem_append_right _ hrow, hid⟩

/-- What is in the folder are the counterparts, if there was nothing before. -/
theorem mem_items (h : LoadedChildren parent items tree (loaded, pushed) new)
    (hempty : ∀ other ∈ tree.rows, other.parent ≠ parent) (hrow : row ∈ loaded.rows)
    (hparent : row.parent = parent) : ∃ item ∈ items, item.data = row.data := by
  rw [h.rows] at hrow
  obtain hrow | hrow := List.mem_append.1 hrow
  · obtain ⟨c, hc, rfl⟩ := List.mem_map.1 hrow
    refine ⟨c.original, ?_, rfl⟩
    rw [← List.mem_reverse, ← h.originals]
    exact List.mem_map_of_mem hc
  · exact absurd hparent (hempty row hrow)

/-- One more item. -/
theorem snoc (h : LoadedChildren parent items tree (loaded, pushed) new)
    (hparent : loaded.Valid parent) :
    LoadedChildren parent (items ++ [row]) tree (loaded.add row.data parent hparent,
      if row.data.isFolder then pushed ++ [loaded.next] else pushed)
      (⟨row, loaded.next, parent⟩ :: new) where
  rows := by
    rw [List.map_cons, List.cons_append, ← h.rows]
    rfl
  originals := by
    rw [List.map_cons, h.originals, List.reverse_append]
    rfl
  parent := List.forall_mem_cons.2 ⟨rfl, h.parent⟩
  next_le := h.next_le.trans (Nat.le_succ _)
  fresh := List.forall_mem_cons.2 ⟨h.next_le, h.fresh⟩
  pushed := by
    have hpushed : pushed =
        ((new.filter fun c => c.original.data.isFolder).map ItemCopy.id).reverse := h.pushed
    rw [List.filter_cons]
    split_ifs
    · rw [List.map_cons, List.reverse_cons, ← hpushed]
    · exact hpushed

end LoadedChildren

/-- The loop over the paths in a folder makes counterparts of all items in it. -/
theorem initChildren_of_saved (hsaved : SavedAt saved settings (saved.subtree 0))
    (hplaced : saved.Placed) (hnames : GoodNames saved) (hparent : tree.Valid parent)
    (hempty : ∀ other ∈ tree.rows, other.parent ≠ parent) {items : List (Row QueryNode)}
    (hrows : ∀ row ∈ items, row ∈ saved.rows ∧ row.data.isQuery = true)
    (hnodup : (items.map (·.data.name)).Nodup) :
    ∃ loaded new, (items.map fun row => saved.consoleQueryFolderPath row.id).foldlM
        (initChild settings parent) (tree, []) = .ok loaded ∧
      LoadedChildren parent items tree loaded new := by
  induction items using List.reverseRecOn with
  | nil => exact ⟨_, [], rfl, LoadedChildren.nil⟩
  | append_singleton items row ih =>
    rw [List.map_append, List.nodup_append] at hnodup
    obtain ⟨⟨loaded, pushed⟩, new, hloaded, h⟩ :=
      ih (fun row hrow => hrows row (List.mem_append_left _ hrow)) hnodup.1
    obtain ⟨hrow, hquery⟩ := hrows row (List.mem_append_right _ List.mem_cons_self)
    have hnew : ∀ other ∈ loaded.rows, other.parent = parent →
        other.data.name ≠ row.data.name := by
      intro other hother hotherParent
      obtain ⟨item, hitem, hdata⟩ := h.mem_items hempty hother hotherParent
      rw [← hdata]
      exact hnodup.2.2 _ (List.mem_map_of_mem hitem) _ List.mem_cons_self
    have hstep := initChild_of_saved hsaved hplaced hnames hrow hquery (h.valid hparent) hnew
      pushed
    refine ⟨_, _, ?_, h.snoc (h.valid hparent)⟩
    rw [List.map_append, List.foldlM_append, hloaded, Except.ok_bind, List.map_singleton,
      List.foldlM_cons, hstep]
    rfl

end

/-! ## All folders -/

/-- An item of the tree that was saved, and its counterpart. The root folders are counterparts. -/
def Corresponds (copies : List ItemCopy) (i j : Index) : Prop :=
  i = 0 ∧ j = 0 ∨ ∃ c ∈ copies, c.original.id = i ∧ c.id = j

/-- After some folders, with others that are still to come, the tree has the counterparts of
    what is in the folders. -/
structure Reloaded (saved : QueryTree) (tree : QueryTree) (done pending : List Index)
    (copies : List ItemCopy) : Prop where
  rows : tree.rows = copies.map ItemCopy.row
  original_mem : ∀ c ∈ copies, c.original ∈ saved.rows
  nodup : (copies.map (·.original.id)).Nodup
  exists_copy : ∀ row ∈ saved.rows, row.parent ∈ done → ∃ c ∈ copies, c.original = row
  parent_mem : ∀ c ∈ copies, c.original.parent ∈ done
  parent : ∀ c ∈ copies, Corresponds copies c.original.parent c.parent
  children : ∀ i ∈ done, ∀ j, Corresponds copies i j →
    List.Forall₂ (Corresponds copies) (saved.children i) (tree.children j)
  nodup_folders : (done ++ pending).Nodup
  folder : ∀ i, i ∈ done ++ pending ↔
    i = 0 ∨ ∃ c ∈ copies, c.original.data.isFolder = true ∧ c.original.id = i

section
variable {tree saved loaded : QueryTree} {settings : QuerySettings}
  {done pending pushed stack : List Index} {copies new : List ItemCopy} {row : Row QueryNode}
  {i i' j j' : Index}

theorem Corresponds.append (h : Corresponds copies i j) : Corresponds (new ++ copies) i j := by
  refine h.imp_right ?_
  rintro ⟨c, hc, hij⟩
  exact ⟨c, List.mem_append_right _ hc, hij⟩

/-- An item has one counterpart, and is that of one item. -/
theorem corresponds_unique (hrows : tree.rows = copies.map ItemCopy.row)
    (hmem : ∀ c ∈ copies, c.original ∈ saved.rows) (hnodup : (copies.map (·.original.id)).Nodup)
    (h : Corresponds copies i j) (h' : Corresponds copies i' j') : i = i' ↔ j = j' := by
  have hid : ∀ c ∈ copies, c.original.id ≠ 0 ∧ c.id ≠ 0 := by
    intro c hc
    have hrow : c.row ∈ tree.rows := hrows ▸ List.mem_map_of_mem hc
    exact ⟨(Forest.id_pos (hmem c hc)).ne', (Forest.id_pos hrow).ne'⟩
  have hnodup' : (copies.map ItemCopy.id).Nodup := by
    have hids := tree.nodup_ids
    rwa [hrows, List.map_map] at hids
  obtain ⟨rfl, rfl⟩ | ⟨c, hc, rfl, rfl⟩ := h
  · obtain ⟨rfl, rfl⟩ | ⟨c', hc', rfl, rfl⟩ := h'
    · exact iff_of_true rfl rfl
    · exact iff_of_false (hid c' hc').1.symm (hid c' hc').2.symm
  · obtain ⟨rfl, rfl⟩ | ⟨c', hc', rfl, rfl⟩ := h'
    · exact iff_of_false (hid c hc).1 (hid c hc).2
    · constructor
      · intro heq
        rw [List.inj_on_of_nodup_map hnodup hc hc' heq]
      · intro heq
        rw [List.inj_on_of_nodup_map hnodup' hc hc' heq]

namespace Reloaded

theorem empty : Reloaded saved Forest.empty [] [0] [] where
  rows := rfl
  original_mem := nofun
  nodup := .nil
  exists_copy := nofun
  parent_mem := nofun
  parent := nofun
  children := nofun
  nodup_folders := List.nodup_singleton 0
  folder i := by simp

theorem unique (h : Reloaded saved tree done pending copies) (hij : Corresponds copies i j)
    (hij' : Corresponds copies i' j') : i = i' ↔ j = j' :=
  corresponds_unique h.rows h.original_mem h.nodup hij hij'

theorem valid (h : Reloaded saved tree done pending copies) (hij : Corresponds copies i j) :
    tree.Valid j := by
  obtain ⟨-, rfl⟩ | ⟨c, hc, -, rfl⟩ := hij
  · exact Forest.valid_zero
  · have hrow : c.row ∈ tree.rows := h.rows ▸ List.mem_map_of_mem hc
    exact Forest.valid_of_mem hrow

/-- A counterpart has the path of the item. -/
theorem path_eq (h : Reloaded saved tree done pending copies) (hij : Corresponds copies i j) :
    tree.consoleQueryFolderPath j = saved.consoleQueryFolderPath i := by
  induction j, h.valid hij using Forest.valid_induction generalizing i with
  | ground =>
    rw [(h.unique hij (.inl ⟨rfl, rfl⟩)).2 rfl, consoleQueryFolderPath_zero,
      consoleQueryFolderPath_zero]
  | step row hrow ih =>
    obtain ⟨-, hzero⟩ | ⟨c, hc, rfl, hid⟩ := hij
    · exact absurd hzero (Forest.id_pos hrow).ne'
    · have hmem : c.row ∈ tree.rows := h.rows ▸ List.mem_map_of_mem hc
      obtain rfl := Forest.row_eq_of_id hmem hrow hid
      rw [consoleQueryFolderPath_of_mem hrow, consoleQueryFolderPath_of_mem (h.original_mem c hc),
        ih (h.parent c hc)]
      rfl

/-- The folders that are still to come are empty. -/
theorem parent_ne (h : Reloaded saved tree done pending copies) (hij : Corresponds copies i j)
    (hi : i ∉ done) : ∀ row ∈ tree.rows, row.parent ≠ j := by
  intro row hrow hparent
  rw [h.rows] at hrow
  obtain ⟨c, hc, rfl⟩ := List.mem_map.1 hrow
  have heq := (h.unique (h.parent c hc) hij).2 hparent
  exact hi (heq ▸ h.parent_mem c hc)

/-- The folders that have been made are folders. -/
theorem isFolder (h : Reloaded saved tree done pending copies) (hi : i ∈ done ++ pending) :
    saved.IsFolder i := by
  refine ((h.folder i).1 hi).imp_right ?_
  rintro ⟨c, hc, hfolder, hid⟩
  exact ⟨c.original, h.original_mem c hc, hid, hfolder⟩

end Reloaded

end

/-! ## The loop over the folders -/

section
variable {tree saved loaded : QueryTree} {settings : QuerySettings}
  {done pending pushed stack : List Index} {copies new : List ItemCopy} {row : Row QueryNode}
  {i i' j j' : Index}

namespace LoadedChildren

/-- What is made in a folder are counterparts of what is in it. -/
theorem original_mem (hl : LoadedChildren j (saved.childRows i) tree (loaded, pushed) new)
    {c : ItemCopy} (hc : c ∈ new) : c.original ∈ saved.rows ∧ c.original.parent = i := by
  have hmem : c.original ∈ new.map ItemCopy.original := List.mem_map_of_mem hc
  rw [hl.originals, List.mem_reverse] at hmem
  exact mem_childRows.1 hmem

/-- The children of the counterpart of a folder are counterparts of its children. -/
theorem corresponds (hl : LoadedChildren j (saved.childRows i) tree (loaded, pushed) new)
    (hempty : ∀ row ∈ tree.rows, row.parent ≠ j) :
    List.Forall₂ (Corresponds (new ++ copies)) (saved.children i) (loaded.children j) := by
  have hnew : (new.map ItemCopy.row).filter (fun row => row.parent = j) = new.map ItemCopy.row :=
    List.filter_eq_self.2 (List.forall_mem_map.2 fun c hc => decide_eq_true (hl.parent c hc))
  have hold : (tree.rows.filter fun row => row.parent = j) = [] :=
    List.filter_eq_nil_iff.2 fun row hrow => by simpa using hempty row hrow
  have hloaded : loaded.children j = new.reverse.map ItemCopy.id := by
    rw [Forest.children, hl.rows, List.filter_append, hnew, hold, List.append_nil, List.map_map,
      List.map_reverse]
    rfl
  have hsaved : saved.children i = new.reverse.map (·.original.id) := by
    rw [children_eq_childRows, ← List.reverse_reverse (saved.childRows i), ← hl.originals,
      ← List.map_reverse, List.map_map]
    rfl
  rw [hloaded, hsaved, List.forall₂_map_left_iff, List.forall₂_map_right_iff, List.forall₂_same]
  exact fun c hc => .inr ⟨c, List.mem_append_left _ (List.mem_reverse.1 hc), rfl, rfl⟩

end LoadedChildren

namespace Reloaded

theorem nodup_append (h : Reloaded saved tree done (i :: pending) copies)
    (hl : LoadedChildren j (saved.childRows i) tree (loaded, pushed) new) :
    ((new ++ copies).map (·.original.id)).Nodup := by
  rw [List.map_append]
  refine List.Nodup.append ?_ h.nodup fun k hk hk' => ?_
  · have hids : new.map (·.original.id) = (saved.children i).reverse := by
      rw [children_eq_childRows, ← List.map_reverse, ← hl.originals, List.map_map]
      rfl
    rw [hids, List.nodup_reverse]
    exact Forest.nodup_children
  · -- what has been made before is in folders that have been done
    obtain ⟨c, hc, rfl⟩ := List.mem_map.1 hk
    obtain ⟨c', hc', hid⟩ := List.mem_map.1 hk'
    obtain ⟨horiginal, hparent⟩ := hl.original_mem hc
    rw [← Forest.row_eq_of_id (h.original_mem c' hc') horiginal hid] at hparent
    exact (List.nodup_append.1 h.nodup_folders).2.2 i (hparent ▸ h.parent_mem c' hc') i
      List.mem_cons_self rfl

/-- What has been made for the next folder. -/
theorem step (h : Reloaded saved tree done (i :: pending) copies) (hij : Corresponds copies i j)
    (hl : LoadedChildren j (saved.childRows i) tree (loaded, pushed) new) :
    Reloaded saved loaded (done ++ [i])
      ((new.filter fun c => c.original.data.isFolder).map (·.original.id) ++ pending)
      (new ++ copies) := by
  have hi : i ∉ done := fun hmem =>
    (List.nodup_append.1 h.nodup_folders).2.2 i hmem i List.mem_cons_self rfl
  have hrows : loaded.rows = (new ++ copies).map ItemCopy.row := by
    rw [hl.rows, List.map_append, ← h.rows]
  have horiginal : ∀ c ∈ new ++ copies, c.original ∈ saved.rows := fun c hc =>
    (List.mem_append.1 hc).elim (fun hc => (hl.original_mem hc).1) (h.original_mem c)
  have hunique : ∀ {i j i' j'}, Corresponds (new ++ copies) i j →
      Corresponds (new ++ copies) i' j' → (i = i' ↔ j = j') :=
    corresponds_unique hrows horiginal (h.nodup_append hl)
  have hperm : (done ++ [i] ++ ((new.filter fun c => c.original.data.isFolder).map
      (·.original.id) ++ pending)).Perm ((new.filter fun c => c.original.data.isFolder).map
      (·.original.id) ++ (done ++ i :: pending)) := by
    rw [← List.append_assoc, ← List.append_assoc]
    refine List.perm_append_comm.append_right pending |>.trans ?_
    rw [List.append_assoc, List.append_assoc, List.append_assoc]
    rfl
  refine ⟨hrows, horiginal, h.nodup_append hl, fun row hrow hparent => ?_, fun c hc => ?_,
    fun c hc => ?_, fun i' hi' j' hij' => ?_, ?_, fun k => ?_⟩
  · obtain hparent | hparent := List.mem_append.1 hparent
    · obtain ⟨c, hc, heq⟩ := h.exists_copy row hrow hparent
      exact ⟨c, List.mem_append_right _ hc, heq⟩
    · have hmem : row ∈ saved.childRows i := mem_childRows.2 ⟨hrow, List.mem_singleton.1 hparent⟩
      rw [← List.mem_reverse, ← hl.originals] at hmem
      obtain ⟨c, hc, heq⟩ := List.mem_map.1 hmem
      exact ⟨c, List.mem_append_left _ hc, heq⟩
  · obtain hc | hc := List.mem_append.1 hc
    · rw [(hl.original_mem hc).2]
      exact List.mem_append_right _ List.mem_cons_self
    · exact List.mem_append_left _ (h.parent_mem c hc)
  · obtain hc | hc := List.mem_append.1 hc
    · rw [(hl.original_mem hc).2, hl.parent c hc]
      exact hij.append
    · exact (h.parent c hc).append
  · obtain hi' | hi' := List.mem_append.1 hi'
    · -- the folders that have been done before are left as they are
      have hold : Corresponds copies i' j' := by
        obtain rfl | ⟨c, hc, -, rfl⟩ := (h.folder i').1 (List.mem_append_left _ hi')
        · exact .inl ⟨rfl, (hunique (.inl ⟨rfl, rfl⟩) hij').1 rfl |>.symm⟩
        · have hcopy : Corresponds copies c.original.id c.id := .inr ⟨c, hc, rfl, rfl⟩
          rwa [← (hunique hcopy.append hij').1 rfl]
      have hne : j ≠ j' := fun heq => hi ((hunique hij.append hij').2 heq ▸ hi')
      have hchildren : loaded.children j' = tree.children j' :=
        Forest.children_of_append hl.rows
          (List.forall_mem_map.2 fun c hc heq => hne ((hl.parent c hc).symm.trans heq))
      rw [hchildren]
      exact (h.children i' hi' j' hold).imp fun _ _ => Corresponds.append
    · obtain rfl := List.mem_singleton.1 hi'
      rw [← (hunique hij.append hij').1 rfl]
      exact hl.corresponds (h.parent_ne hij hi)
  · rw [hperm.nodup_iff]
    have hnodup := h.nodup_append hl
    rw [List.map_append] at hnodup
    refine List.Nodup.append ?_ h.nodup_folders fun k hk hk' => ?_
    · exact hnodup.of_append_left.sublist (List.filter_sublist.map _)
    · obtain ⟨c, hc, rfl⟩ := List.mem_map.1 hk
      have hcnew := List.mem_of_mem_filter hc
      obtain hzero | ⟨c', hc', -, hid⟩ := (h.folder _).1 hk'
      · exact (Forest.id_pos (hl.original_mem hcnew).1).ne' hzero
      · exact (List.nodup_append.1 hnodup).2.2 _ (List.mem_map_of_mem hcnew) _
          (List.mem_map_of_mem hc') hid.symm
  · rw [hperm.mem_iff, List.mem_append, h.folder k, List.mem_map]
    constructor
    · rintro (⟨c, hc, rfl⟩ | hzero | ⟨c, hc, hfolder⟩)
      · rw [List.mem_filter] at hc
        exact .inr ⟨c, List.mem_append_left _ hc.1, hc.2, rfl⟩
      · exact .inl hzero
      · exact .inr ⟨c, List.mem_append_right _ hc, hfolder⟩
    · rintro (hzero | ⟨c, hc, hfolder, rfl⟩)
      · exact .inr (.inl hzero)
      · obtain hc | hc := List.mem_append.1 hc
        · exact .inl ⟨c, List.mem_filter.2 ⟨hc, hfolder⟩, rfl⟩
        · exact .inr (.inr ⟨c, hc, hfolder, rfl⟩)

end Reloaded

end

/-- The tree is the same, apart from the objects that query items have fetched: its query
    items and query folders are given by `image`, with the same data, and with the same order
    in each folder. -/
structure SameTree (saved tree : QueryTree) (image : Index → Index) : Prop where
  root : image 0 = 0
  data : ∀ row ∈ saved.rows, row.data.isQuery = true →
    ∃ row' ∈ tree.rows, row'.id = image row.id ∧ row'.data = row.data
  children : ∀ i, saved.IsFolder i → tree.children (image i) = (saved.children i).map image
  original : ∀ row' ∈ tree.rows, ∃ row ∈ saved.rows, row.data.isQuery = true ∧
    image row.id = row'.id
  injective : ∀ i j, saved.IsNode i → saved.IsNode j → image i = image j → i = j

section
variable {tree saved : QueryTree} {settings : QuerySettings} {done pending stack : List Index}
  {copies : List ItemCopy} {i j : Index}

/-- The folder that comes next is made from what has been saved for it. -/
theorem initFolder_of_saved (hsaved : SavedAt saved settings (saved.subtree 0))
    (hplaced : saved.Placed) (hnames : GoodNames saved)
    (h : Reloaded saved tree done (i :: pending) copies) (hij : Corresponds copies i j) :
    ∃ loaded new, initFolder settings tree j = .ok loaded ∧
      LoadedChildren j (saved.childRows i) tree loaded new := by
  have hfolder : saved.IsFolder i := h.isFolder (List.mem_append_right _ List.mem_cons_self)
  have hdone : i ∈ saved.subtree 0 :=
    (Forest.mem_subtree_iff hfolder.isNode.valid).2 (Forest.zero_mem_chain hfolder.isNode.valid)
  have hi : i ∉ done := fun hmem =>
    (List.nodup_append.1 h.nodup_folders).2.2 i hmem i List.mem_cons_self rfl
  have hrows : ∀ row ∈ saved.childRows i, row ∈ saved.rows ∧ row.data.isQuery = true := by
    intro row hrow
    obtain ⟨hmem, hparent⟩ := mem_childRows.1 hrow
    exact ⟨hmem, (hplaced row hmem).2 (hparent.symm ▸ hfolder)⟩
  have hnodup : ((saved.childRows i).map (·.data.name)).Nodup := by
    refine List.Nodup.map_on (fun row hrow row' hrow' hname => ?_) ?_
    · exact hnames.unique row (hrows row hrow).1 (hrows row hrow).2 row' (hrows row' hrow').1
        (hrows row' hrow').2 ((mem_childRows.1 hrow).2.trans (mem_childRows.1 hrow').2.symm) hname
    · exact List.nodup_reverse.2 (Forest.nodup_rows.filter _)
  have hchildList : (folderHash saved i).value "child_list" .invalid =
      .stringList ((saved.childRows i).map fun row => saved.consoleQueryFolderPath row.id) := by
    have hpaths : (saved.children i).map saved.consoleQueryFolderPath =
        (saved.childRows i).map fun row => saved.consoleQueryFolderPath row.id := by
      rw [children_eq_childRows, List.map_map]
      rfl
    rw [← hpaths, folderHash]
    split <;> simp
  obtain ⟨loaded, new, hloaded, hl⟩ := initChildren_of_saved hsaved hplaced hnames (h.valid hij)
    (h.parent_ne hij hi) hrows hnodup
  obtain ⟨hcontains, hvalue⟩ := hsaved.folder i hdone hfolder
  refine ⟨loaded, new, ?_, hl⟩
  simp only [← hloaded, initFolder, h.path_eq hij, hcontains, hvalue, hchildList, Bool.not_true,
    Bool.false_eq_true, if_false, QVariant.toStringList]

/-- A turn of the loop of `console_query_tree_init`, with the folders on the stack. -/
theorem initFolder_step (hsaved : SavedAt saved settings (saved.subtree 0))
    (hplaced : saved.Placed) (hnames : GoodNames saved)
    (h : Reloaded saved tree done (i :: pending) copies) (hij : Corresponds copies i j)
    (hstack : List.Forall₂ (Corresponds copies) pending stack) :
    (initFolder settings tree j).Yields (fun _ => False) fun r =>
      ∃ pending copies, Reloaded saved r.1 (done ++ [i]) pending copies ∧
        List.Forall₂ (Corresponds copies) pending (r.2.reverse ++ stack) := by
  obtain ⟨⟨loaded, pushed⟩, new, hinit, hl⟩ := initFolder_of_saved hsaved hplaced hnames h hij
  rw [hinit]
  refine ⟨_, _, h.step hij hl, ?_⟩
  have hpushed : pushed.reverse =
      (new.filter fun c => c.original.data.isFolder).map ItemCopy.id := by
    rw [← List.reverse_reverse (List.map _ _)]
    exact congrArg List.reverse hl.pushed
  rw [hpushed]
  refine List.rel_append ?_ (hstack.imp fun _ _ => Corresponds.append)
  rw [List.forall₂_map_left_iff, List.forall₂_map_right_iff, List.forall₂_same]
  exact fun c hc => .inr ⟨c, List.mem_append_left _ (List.mem_of_mem_filter hc), rfl, rfl⟩

namespace Reloaded

/-- There are no more folders than in the tree that was saved. -/
theorem length_lt (h : Reloaded saved tree done (i :: pending) copies) :
    done.length < saved.rows.length + 1 := by
  have hsub : done ++ i :: pending ⊆ 0 :: saved.rows.map Row.id := by
    intro k hk
    obtain rfl | ⟨c, hc, -, rfl⟩ := (h.folder k).1 hk
    · exact List.mem_cons_self
    · exact List.mem_cons_of_mem _ (List.mem_map_of_mem (h.original_mem c hc))
  have hlength := (List.subperm_of_subset h.nodup_folders hsub).length_le
  rw [List.length_append, List.length_cons, List.length_cons, List.length_map] at hlength
  omega

/-- In the end there are counterparts of all query items and query folders. -/
theorem exists_corresponds (h : Reloaded saved tree done [] copies) (hplaced : saved.Placed)
    (hi : saved.IsNode i) : ∃ j, Corresponds copies i j := by
  induction i, hi.valid using Forest.valid_induction with
  | ground => exact ⟨0, .inl ⟨rfl, rfl⟩⟩
  | step row hrow ih =>
    obtain hzero | ⟨row', hrow', hid, hquery⟩ := hi
    · exact absurd hzero (Forest.id_pos hrow).ne'
    obtain rfl := Forest.row_eq_of_id hrow' hrow hid
    have hfolder := (hplaced row' hrow).1 hquery
    have hdone : row'.parent ∈ done := by
      rw [← List.append_nil done, h.folder]
      obtain ⟨j, ⟨hzero, -⟩ | ⟨c, hc, hcid, -⟩⟩ := ih hfolder.isNode
      · exact .inl hzero
      · refine .inr ⟨c, hc, ?_, hcid⟩
        exact QueryTree.IsFolder.of_mem (hcid ▸ hfolder) (h.original_mem c hc)
    obtain ⟨c, hc, rfl⟩ := h.exists_copy row' hrow hdone
    exact ⟨c.id, .inr ⟨c, hc, rfl, rfl⟩⟩

/-- In the end the tree is the same. -/
theorem sameTree (h : Reloaded saved tree done [] copies) (hplaced : saved.Placed) :
    ∃ image, SameTree saved tree image := by
  choose! image himage using fun i (hi : saved.IsNode i) => h.exists_corresponds hplaced hi
  have hroot : image 0 = 0 := ((h.unique (.inl ⟨rfl, rfl⟩) (himage 0 (.inl rfl))).1 rfl).symm
  have hnode : ∀ c ∈ copies, saved.IsNode c.original.id := by
    intro c hc
    refine .inr ⟨c.original, h.original_mem c hc, rfl, ?_⟩
    refine (hplaced _ (h.original_mem c hc)).2 (h.isFolder ?_)
    exact List.mem_append_left _ (h.parent_mem c hc)
  have heq : ∀ i j, Corresponds copies i j → image i = j := by
    rintro i j (⟨rfl, rfl⟩ | ⟨c, hc, rfl, rfl⟩)
    · exact hroot
    · exact (h.unique (himage _ (hnode c hc)) (.inr ⟨c, hc, rfl, rfl⟩)).1 rfl
  refine ⟨image, hroot, fun row hrow hquery => ?_, fun i hi => ?_, fun row' hrow' => ?_,
    fun i j hi hj hij => (h.unique (himage i hi) (himage j hj)).2 hij⟩
  · obtain ⟨hzero, -⟩ | ⟨c, hc, hid, hcid⟩ := himage row.id (.inr ⟨row, hrow, rfl, hquery⟩)
    · exact absurd hzero (Forest.id_pos hrow).ne'
    · refine ⟨c.row, h.rows ▸ List.mem_map_of_mem hc, hcid, ?_⟩
      rw [← Forest.row_eq_of_id (h.original_mem c hc) hrow hid]
      rfl
  · have hdone : i ∈ done := by
      rw [← List.append_nil done, h.folder]
      obtain ⟨hzero, -⟩ | ⟨c, hc, hid, -⟩ := himage i hi.isNode
      · exact .inl hzero
      · exact .inr ⟨c, hc, QueryTree.IsFolder.of_mem (hid ▸ hi) (h.original_mem c hc), hid⟩
    have hchildren := h.children i hdone (image i) (himage i hi.isNode)
    have hmap := List.forall₂_map_left_iff.2 (hchildren.imp heq)
    rw [List.forall₂_eq_eq_eq] at hmap
    exact hmap.symm
  · rw [h.rows] at hrow'
    obtain ⟨c, hc, rfl⟩ := List.mem_map.1 hrow'
    obtain hzero | ⟨row, hrow, hid, hquery⟩ := hnode c hc
    · exact absurd hzero (Forest.id_pos (h.original_mem c hc)).ne'
    · refine ⟨row, hrow, hquery, ?_⟩
      rw [hid]
      exact heq _ _ (.inr ⟨c, hc, rfl, rfl⟩)

end Reloaded

end

/-- Saving the tree and loading it again gives the same tree, without the objects that query
    items have fetched. The loop comes to an end, after at most one turn for each item. -/
theorem treeInit_treeSave (saved : QueryTree) (hplaced : saved.Placed) (hnames : GoodNames saved) :
    ∃ settings, consoleQueryTreeSave saved = .ok settings ∧
      ∀ turns, saved.rows.length < turns →
        ∃ tree image, consoleQueryTreeInit turns settings = .ok tree ∧
          SameTree saved tree image := by
  obtain ⟨settings, hsave, hsaved⟩ :=
    saved_of_treeSave hplaced hnames.unique hnames.slashFree
  refine ⟨settings, hsave, fun turns hturns => ?_⟩
  have hyields : (consoleQueryTreeInit turns settings).Yields (fun _ => False) fun tree =>
      ∃ m done pending copies, Reloaded saved tree done pending copies ∧ done.length = m ∧
        List.Forall₂ (Corresponds copies) pending [] := by
    refine stackLoop_yields (fun tree m stack => ∃ done pending copies,
      Reloaded saved tree done pending copies ∧ done.length = m ∧
        List.Forall₂ (Corresponds copies) pending stack) ?_ ?_
      ⟨[], [0], [], .empty, rfl, .cons (.inl ⟨rfl, rfl⟩) .nil⟩
      (hturns.trans_eq (Nat.zero_add turns).symm)
    · rintro tree m j stack ⟨done, _, copies, h, rfl, hstack⟩
      obtain _ | ⟨hij, hstack⟩ := hstack
      refine (initFolder_step hsaved hplaced hnames h hij hstack).mono ?_
      rintro r ⟨pending, copies, h, hstack⟩
      exact ⟨_, pending, copies, h, List.length_append, hstack⟩
    · rintro tree m j stack ⟨done, _, copies, h, rfl, hstack⟩
      obtain _ | ⟨-, -⟩ := hstack
      exact h.length_lt
  cases hinit : consoleQueryTreeInit turns settings with
  | error fault =>
    rw [hinit] at hyields
    exact hyields.elim
  | ok tree =>
    rw [hinit] at hyields
    obtain ⟨_, done, _, copies, h, -, hnil⟩ := hyields
    cases hnil
    obtain ⟨image, hsame⟩ := h.sameTree hplaced
    exact ⟨tree, image, rfl, hsame⟩

/-- A folder with a query item in it, which has fetched an object, and another query item. -/
def fetchedTree : QueryTree :=
  (((Forest.empty.addGround (.folder ['F'] [])).add
    (.item ⟨['Q'], [], ['*'], [0, 255], [], true⟩) 1 (by decide)).add
      (.object ['a', '/', 'b']) 2 (by decide)).addGround (.item ⟨['Q'], [], [], [], [], false⟩)

theorem treeInit_treeSave_fetched :
    ∃ settings, consoleQueryTreeSave fetchedTree = .ok settings ∧
      ∀ turns, 4 < turns → ∃ tree image, consoleQueryTreeInit turns settings = .ok tree ∧
        SameTree fetchedTree tree image :=
  treeInit_treeSave fetchedTree (by decide) ⟨by decide, by decide, by decide⟩

end Admc
