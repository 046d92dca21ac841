import Admc.Query.Keeps
import Admc.Query.Storage

/-!
# Names in a move

A branch that is copied has the names that it had, in the same arrangement, and its topmost copy
is put beside what is in the new parent. So the names of siblings stay unique if the name of the
branch is not used there, or by the branch only, and it is deleted at its old place.

* `CopiesOf.unique`: copying a branch keeps the names unique, but for those of a branch and its
  copy in the same folder;
* `moveIndex_names`: so does a turn of a move.
-/

namespace Admc

section
variable {tree tree' : QueryTree} {top row row' : Row QueryNode} {newParent : Option Index}
  {state : CopyState} {done : List Index} {copies : List ItemCopy} {index parent : Index}

/-! ## Fewer and more items -/

theorem QueryTree.UniqueNames.mono (h : tree.UniqueNames)
    (hrows : ∀ row ∈ tree'.rows, row ∈ tree.rows) : tree'.UniqueNames :=
  fun row hrow hquery row' hrow' hquery' =>
    h row (hrows row hrow) hquery row' (hrows row' hrow') hquery'

/-- What is a folder among older items is one still, if it is there. -/
theorem QueryTree.isFolder_iff_of_old (hvalid : tree.Valid parent) (hvalid' : tree'.Valid parent)
    (hold : ∀ row ∈ tree'.rows, row ∈ tree.rows ∨ tree.next ≤ row.id) :
    tree'.IsFolder parent ↔ tree.IsFolder parent := by
  rcases hvalid' with rfl | ⟨row, hrow, rfl⟩
  · exact iff_of_true (.inl rfl) (.inl rfl)
  have hmem := (hold row hrow).resolve_right (not_le.2 hvalid.lt_next)
  refine or_congr_right ⟨?_, ?_⟩
  · rintro ⟨folder, hfolder, hid, hisFolder⟩
    obtain rfl := Forest.row_eq_of_id hfolder hrow hid
    exact ⟨folder, hmem, rfl, hisFolder⟩
  · rintro ⟨folder, hfolder, hid, hisFolder⟩
    obtain rfl := Forest.row_eq_of_id hfolder hmem hid
    exact ⟨folder, hrow, rfl, hisFolder⟩

theorem QueryTree.IsFolder.of_subset (h : tree.IsFolder parent) (hvalid : tree'.Valid parent)
    (hrows : ∀ row ∈ tree'.rows, row ∈ tree.rows) : tree'.IsFolder parent := by
  rcases hvalid with rfl | ⟨row, hrow, rfl⟩
  · exact .inl rfl
  · exact .inr ⟨row, hrow, rfl, IsFolder.of_mem h (hrows row hrow)⟩

/-- Items that are left, and new ones in folders, are where they belong. -/
theorem QueryTree.Placed.of_old_or_new (h : tree.Placed)
    (hold : ∀ row ∈ tree'.rows, row ∈ tree.rows ∨ tree.next ≤ row.id)
    (hnew : ∀ row ∈ tree'.rows, tree.next ≤ row.id →
      row.data.isQuery = true ∧ tree'.IsFolder row.parent) : tree'.Placed := by
  intro row hrow
  rcases hold row hrow with hmem | hfresh
  · rw [h row hmem,
      isFolder_iff_of_old (Forest.valid_parent hmem) (Forest.valid_parent hrow) hold]
  · exact iff_of_true (hnew row hrow hfresh).1 (hnew row hrow hfresh).2

/-! ## Copies -/

namespace CopiesOf

theorem original_isQuery (h : CopiesOf tree top newParent state done copies) {copy : ItemCopy}
    (hcopy : copy ∈ copies) : copy.original.data.isQuery = true := by
  have hmem : copy.original.id ∈ copies.map (·.original.id) := List.mem_map_of_mem hcopy
  rw [h.originals, List.mem_reverse, List.mem_filter,
    isQuery_of_mem (h.original_mem copy hcopy)] at hmem
  exact hmem.2

/-- Copies have indexes of their own, -/
theorem eq_of_id (h : CopiesOf tree top newParent state done copies) {copy copy' : ItemCopy}
    (hcopy : copy ∈ copies) (hcopy' : copy' ∈ copies) (hid : copy.id = copy'.id) :
    copy = copy' := by
  have hnodup := state.tree.nodup_ids
  rw [h.rows, List.map_append, List.map_map] at hnodup
  exact List.inj_on_of_nodup_map (List.nodup_append.1 hnodup).1 hcopy hcopy' hid

/-- and originals of their own. -/
theorem eq_of_original (h : CopiesOf tree top newParent state done copies) (hdone : done.Nodup)
    {copy copy' : ItemCopy} (hcopy : copy ∈ copies) (hcopy' : copy' ∈ copies)
    (hid : copy.original = copy'.original) : copy = copy' := by
  have hnodup : (copies.map (·.original.id)).Nodup := by
    rw [h.originals, List.nodup_reverse]
    exact hdone.filter _
  exact List.inj_on_of_nodup_map hnodup hcopy hcopy' (congrArg Row.id hid)

/-- A copy in an old item is that of the topmost one. -/
theorem top_of_parent_lt (h : CopiesOf tree top newParent state done copies) {copy : ItemCopy}
    (hcopy : copy ∈ copies) (hlt : copy.parent < tree.next) :
    copy.original = top ∧ newParent = some copy.parent := by
  rcases h.parent copy hcopy with htop | ⟨folder, hfolder, -, -, hparent⟩
  · exact htop
  · exact absurd (hparent ▸ h.fresh folder hfolder) (not_le.2 hlt)

theorem old_or_new (h : CopiesOf tree top newParent state done copies)
    (hrow : row ∈ state.tree.rows) :
    row ∈ tree.rows ∨ ∃ copy ∈ copies, copy.row = row := by
  rw [h.rows, List.mem_append, List.mem_map] at hrow
  exact hrow.symm

/-- Copies in the same folder with the same name are the same. -/
theorem copy_eq (h : CopiesOf tree top newParent state done copies) (hdone : done.Nodup)
    (hunique : tree.UniqueNames) (hvalid : ∀ parent, newParent = some parent → tree.Valid parent)
    {copy copy' : ItemCopy} (hcopy : copy ∈ copies) (hcopy' : copy' ∈ copies)
    (hparent : copy.parent = copy'.parent)
    (hname : copy.original.data.name = copy'.original.data.name) : copy = copy' := by
  refine h.eq_of_original hdone hcopy hcopy' ?_
  rcases h.parent copy hcopy with ⟨htop, hsome⟩ | ⟨folder, hfolder, -, hid, hcopyParent⟩
  · have hlt := (hvalid _ hsome).lt_next
    exact htop.trans (h.top_of_parent_lt hcopy' (hparent ▸ hlt)).1.symm
  rcases h.parent copy' hcopy' with ⟨-, hsome⟩ | ⟨folder', hfolder', -, hid', hcopyParent'⟩
  · have hlt := (hvalid _ hsome).lt_next
    rw [← hparent, ← hcopyParent] at hlt
    exact absurd (h.fresh folder hfolder) (not_le.2 hlt)
  · -- their originals are in the original of the folder
    obtain rfl := h.eq_of_id hfolder hfolder'
      (hcopyParent.trans (hparent.trans hcopyParent'.symm))
    exact hunique _ (h.original_mem copy hcopy) (h.original_isQuery hcopy) _
      (h.original_mem copy' hcopy') (h.original_isQuery hcopy') (hid.symm.trans hid') hname

/-- If the name of the branch is not used in the new parent but by itself, names stay unique but
    for the branch and its copy. -/
theorem unique (h : CopiesOf tree top newParent state done copies) (hdone : done.Nodup)
    (hunique : tree.UniqueNames) (hvalid : ∀ parent, newParent = some parent → tree.Valid parent)
    (hfree : ∀ row ∈ tree.rows, newParent = some row.parent → row.data.isQuery = true →
      row.data.name = top.data.name → row = top)
    (hrow : row ∈ state.tree.rows) (hquery : row.data.isQuery = true)
    (hrow' : row' ∈ state.tree.rows) (hquery' : row'.data.isQuery = true)
    (hparent : row.parent = row'.parent) (hname : row.data.name = row'.data.name) :
    row = row' ∨ newParent = some top.parent ∧ (row = top ∨ row' = top) := by
  have hmixed {copy : ItemCopy} (hcopy : copy ∈ copies) {row : Row QueryNode}
      (hrow : row ∈ tree.rows) (hquery : row.data.isQuery = true)
      (hparent : copy.parent = row.parent) (hname : copy.original.data.name = row.data.name) :
      row = top ∧ newParent = some top.parent := by
    have hlt : copy.parent < tree.next := hparent ▸ (Forest.valid_parent hrow).lt_next
    obtain ⟨htop, hsome⟩ := h.top_of_parent_lt hcopy hlt
    rw [hparent] at hsome
    obtain rfl := hfree row hrow hsome hquery (hname.symm.trans (by rw [htop]))
    exact ⟨rfl, hsome⟩
  rcases h.old_or_new hrow with hold | ⟨copy, hcopy, rfl⟩
  · rcases h.old_or_new hrow' with hold' | ⟨copy', hcopy', rfl⟩
    · exact .inl (hunique row hold hquery row' hold' hquery' hparent hname)
    · have htop := hmixed hcopy' hold hquery hparent.symm hname.symm
      exact .inr ⟨htop.2, .inl htop.1⟩
  · rcases h.old_or_new hrow' with hold' | ⟨copy', hcopy', rfl⟩
    · have htop := hmixed hcopy hold' hquery' hparent hname
      exact .inr ⟨htop.2, .inr htop.1⟩
    · exact .inl (congrArg ItemCopy.row (h.copy_eq hdone hunique hvalid hcopy hcopy' hparent hname))

/-- Copies are in folders. -/
theorem copy_isFolder (h : CopiesOf tree top newParent state done copies)
    (hfolder : ∀ parent, newParent = some parent → tree.IsFolder parent) {copy : ItemCopy}
    (hcopy : copy ∈ copies) : state.tree.IsFolder copy.parent := by
  rcases h.parent copy hcopy with ⟨-, hsome⟩ | ⟨folder, hmem, hisFolder, -, hparent⟩
  · refine (hfolder _ hsome).imp_right ?_
    rintro ⟨row, hrow, hid, hisFolder⟩
    exact ⟨row, h.rows_mem hrow, hid, hisFolder⟩
  · exact .inr ⟨folder.row, h.copy_mem hmem, hparent, hisFolder⟩

end CopiesOf

/-! ## One turn -/

/-- The branch may be moved to a new parent with names kept unique: its name is not used there,
    but by itself if it is deleted at its old place. -/
structure NameFree (tree : QueryTree) (top : Row QueryNode) (newParent : Index)
    (deleteOldBranch : Bool) : Prop where
  folder : tree.IsFolder newParent
  free : ∀ row ∈ tree.rows, row.parent = newParent → row.data.isQuery = true →
    row.data.name = top.data.name → row = top
  other : deleteOldBranch = false → top.parent ≠ newParent

/-- What a turn of a move leaves: names are unique, and in an old item, but the new parent, there
    is nothing new. -/
structure TurnNames (tree : QueryTree) (top : Row QueryNode) (newParent : Option Index)
    (deleteOldBranch : Bool) (tree' : QueryTree) : Prop where
  unique : tree'.UniqueNames
  placed : tree'.Placed
  next_le : tree.next ≤ tree'.next
  old_or_new : ∀ row ∈ tree'.rows, row ∈ tree.rows ∨ tree.next ≤ row.id
  name : ∀ row ∈ tree'.rows, row.data.isQuery = true →
    ∃ old ∈ tree.rows, old.data.isQuery = true ∧ old.data.name = row.data.name
  place : ∀ row ∈ tree'.rows, row.parent < tree.next →
    row ∈ tree.rows ∨ newParent = some row.parent ∧ row.data = top.data
  children : ∀ index < tree.next, newParent ≠ some index → tree'.children index =
    (tree.children index).filter fun i => !(deleteOldBranch && decide (top.id ∈ tree.chain i))

namespace CopiesOf

/-- What there is of a tree with copies, if names are unique in it. -/
theorem turnNames (h : CopiesOf tree top newParent state done copies) (hplaced : tree.Placed)
    (hfolder : ∀ parent, newParent = some parent → tree.IsFolder parent)
    (hrows : ∀ row ∈ tree'.rows, row ∈ state.tree.rows) (hnext : tree'.next = state.tree.next)
    (hunique : tree'.UniqueNames) {deleteOldBranch : Bool}
    (hchildren : ∀ index < tree.next, tree'.children index = (state.tree.children index).filter
      fun i => !(deleteOldBranch && decide (top.id ∈ state.tree.chain i))) :
    TurnNames tree top newParent deleteOldBranch tree' where
  unique := hunique
  placed := by
    refine hplaced.of_old_or_new (fun row hrow => ?_) fun row hrow hnew => ?_
    · refine (h.old_or_new (hrows row hrow)).imp_right ?_
      rintro ⟨copy, hcopy, rfl⟩
      exact h.fresh copy hcopy
    · rcases h.old_or_new (hrows row hrow) with hold | ⟨copy, hcopy, rfl⟩
      · exact absurd hnew (not_le.2 (tree.lt_next row hold))
      · exact ⟨h.original_isQuery hcopy,
          (h.copy_isFolder hfolder hcopy).of_subset (Forest.valid_parent hrow) hrows⟩
  next_le := hnext ▸ h.next_le
  old_or_new row hrow := by
    refine (h.old_or_new (hrows row hrow)).imp_right ?_
    rintro ⟨copy, hcopy, rfl⟩
    exact h.fresh copy hcopy
  name row hrow hquery := by
    rcases h.old_or_new (hrows row hrow) with hold | ⟨copy, hcopy, rfl⟩
    · exact ⟨row, hold, hquery, rfl⟩
    · exact ⟨copy.original, h.original_mem copy hcopy, hquery, rfl⟩
  place row hrow hlt := by
    refine (h.old_or_new (hrows row hrow)).imp_right ?_
    rintro ⟨copy, hcopy, rfl⟩
    obtain ⟨htop, hsome⟩ := h.top_of_parent_lt hcopy hlt
    refine ⟨hsome, ?_⟩
    rw [← htop]
    rfl
  children index hlt hne := by
    have hsame : state.tree.children index = tree.children index := by
      refine Forest.children_of_append h.rows (List.forall_mem_map.2 fun copy hcopy hparent => ?_)
      have hcopyParent : copy.parent = index := hparent
      exact hne (hcopyParent ▸ (h.top_of_parent_lt hcopy (hcopyParent ▸ hlt)).2)
    rw [hchildren index hlt, hsame]
    refine List.filter_congr fun i hi => ?_
    rw [h.chain_eq (Forest.valid_of_mem_chain (Forest.mem_chain_of_mem_children hi).1).2]

/-- Copying a branch beside other names. -/
theorem turnNames_copy (h : CopiesOf tree top newParent state done copies) (hdone : done.Nodup)
    (hunique : tree.UniqueNames) (hplaced : tree.Placed)
    (hfree : ∀ parent, newParent = some parent → NameFree tree top parent false) :
    TurnNames tree top newParent false state.tree := by
  refine h.turnNames hplaced (fun parent hsome => (hfree parent hsome).folder) (fun _ => id) rfl
    (fun row hrow hquery row' hrow' hquery' hparent hname => ?_) fun index _ => ?_
  · refine (h.unique hdone hunique (fun parent hsome => (hfree parent hsome).folder.isNode.valid)
      (fun row hrow hsome => (hfree _ hsome).free row hrow rfl) hrow hquery hrow' hquery' hparent
      hname).resolve_right fun hboth => (hfree _ hboth.1).other rfl rfl
  · exact (List.filter_eq_self.2 fun _ _ => rfl).symm

/-- Deleting it at its old place, too. -/
theorem turnNames_cut (h : CopiesOf tree top newParent state done copies) (hdone : done.Nodup)
    (hunique : tree.UniqueNames) (hplaced : tree.Placed) (htop : top ∈ tree.rows)
    (hfree : ∀ parent, newParent = some parent → NameFree tree top parent true) :
    TurnNames tree top newParent true (state.tree.remove top.id) := by
  have hne {row : Row QueryNode} (hrow : row ∈ (state.tree.remove top.id).rows) : row ≠ top := by
    rintro rfl
    exact (Forest.mem_rows_remove.1 hrow).2
      (Forest.mem_chain_self (h.valid (Forest.valid_of_mem htop)))
  refine h.turnNames hplaced (fun parent hsome => (hfree parent hsome).folder)
    (fun row hrow => (Forest.mem_rows_remove.1 hrow).1) rfl
    (fun row hrow hquery row' hrow' hquery' hparent hname => ?_) fun index _ => ?_
  · refine (h.unique hdone hunique (fun parent hsome => (hfree parent hsome).folder.isNode.valid)
      (fun row hrow hsome => (hfree _ hsome).free row hrow rfl) (Forest.mem_rows_remove.1 hrow).1
      hquery (Forest.mem_rows_remove.1 hrow').1 hquery' hparent hname).resolve_right ?_
    rintro ⟨-, heq | heq⟩
    · exact hne hrow heq
    · exact hne hrow' heq
  · rw [Forest.children_remove]
    simp only [Bool.true_and, decide_not]

end CopiesOf

/-- A turn of a move keeps names unique, if the name of the branch may be used. -/
theorem moveIndex_names {newParentIndex : ModelIndex} {deleteOldBranch : Bool}
    (hunique : tree.UniqueNames) (hplaced : tree.Placed) (htop : top ∈ tree.rows)
    (hfree : ∀ parent, tree.itemFromIndex newParentIndex = some parent →
      NameFree tree top parent deleteOldBranch)
    (h : moveIndex newParentIndex deleteOldBranch tree top.id = .ok tree') :
    TurnNames tree top (tree.itemFromIndex newParentIndex) deleteOldBranch tree' := by
  obtain ⟨state, hcopy, hreturn⟩ := Except.bind_eq_ok.1 h
  obtain rfl := Except.pure_eq_ok.1 hreturn
  have hspec := (Except.yields_iff.1 (copyBranch_spec htop fun _ =>
    @valid_of_itemFromIndex _ newParentIndex _)).1 state hcopy
  obtain ⟨done, copies, hcopies, hperm⟩ := hspec
  have hdone : done.Nodup := hperm.nodup_iff.2 Forest.nodup_subtree
  cases deleteOldBranch with
  | false => exact hcopies.turnNames_copy hdone hunique hplaced hfree
  | true => exact hcopies.turnNames_cut hdone hunique hplaced htop hfree

end

/-! ## All turns -/

/-- Indexes may be moved with names kept unique: no two of them have the same name, and if they
    are deleted at their old place, the row of the new parent gives it in each turn. -/
structure MoveKeepsNames (tree : QueryTree) (indexList : List Index) (newParent : Index)
    (deleteOldBranch : Bool) : Prop where
  names : (indexList.map tree.displayName).Nodup
  row : deleteOldBranch = true → ∀ before index after, indexList = before ++ index :: after →
    tree.rowAfter newParent before = some newParent

/-- What is left after some turns: in the new parent there are items of before and copies of
    those that have been moved, and beside it those that have not been moved, or none if the
    folder is gone. -/
structure NamesAfter (tree : QueryTree) (newParent : Index) (deleteOldBranch : Bool)
    (before : List Index) (tree' : QueryTree) : Prop where
  unique : tree'.UniqueNames
  placed : tree'.Placed
  next_le : tree.next ≤ tree'.next
  old_or_new : ∀ row ∈ tree'.rows, row ∈ tree.rows ∨ tree.next ≤ row.id
  name : ∀ row ∈ tree'.rows, row.data.isQuery = true →
    ∃ old ∈ tree.rows, old.data.isQuery = true ∧ old.data.name = row.data.name
  place : ∀ row ∈ tree'.rows, row.parent = newParent →
    row ∈ tree.rows ∨ row.data.name ∈ before.map tree.displayName
  siblings : newParent ≠ 0 → tree'.children (tree.parent newParent) = [] ∨
    tree'.children (tree.parent newParent) = (tree.children (tree.parent newParent)).filter
      fun i => !(deleteOldBranch && decide (i ∈ before))

section
variable {tree tree' tree'' : QueryTree} {top row : Row QueryNode} {newParent parent : Index}
  {deleteOldBranch : Bool} {before indexList : List Index}

theorem mem_children_parent (hvalid : tree.Valid newParent) (h0 : newParent ≠ 0) :
    newParent ∈ tree.children (tree.parent newParent) := by
  obtain ⟨row, hrow, rfl⟩ := hvalid.resolve_left h0
  exact Forest.mem_children.2 ⟨row, hrow, rfl, (Forest.parent_of_mem hrow).symm⟩

namespace NamesAfter

theorem nil (hunique : tree.UniqueNames) (hplaced : tree.Placed) :
    NamesAfter tree newParent deleteOldBranch [] tree where
  unique := hunique
  placed := hplaced
  next_le := le_rfl
  old_or_new _ hrow := .inl hrow
  name row hrow hquery := ⟨row, hrow, hquery, rfl⟩
  place _ hrow _ := .inl hrow
  siblings _ := .inr (List.filter_eq_self.2 fun i _ => by
    rw [decide_eq_false List.not_mem_nil, Bool.and_false, Bool.not_false]).symm

/-- An item that is there is one of before, with its index. -/
theorem row_of_id (h : NamesAfter tree newParent deleteOldBranch before tree')
    (htop : top ∈ tree.rows) (hrow : row ∈ tree'.rows) (hid : row.id = top.id) : row = top := by
  rcases h.old_or_new row hrow with hold | hnew
  · exact Forest.row_eq_of_id hold htop hid
  · exact absurd (hid ▸ hnew) (not_le.2 (tree.lt_next top htop))

/-- The row of the new parent gives it, or nothing. -/
theorem itemFromIndex (h : NamesAfter tree newParent deleteOldBranch before tree')
    (hvalid : tree.Valid newParent)
    (hrow : deleteOldBranch = true → tree.rowAfter newParent before = some newParent)
    (hparent : tree'.itemFromIndex (tree.toModelIndex newParent) = some parent) :
    parent = newParent := by
  rw [QueryTree.toModelIndex] at hparent
  split_ifs at hparent with h0
  · rw [h0]
    exact (Option.some_inj.1 hparent).symm
  rcases h.siblings h0 with hnone | hsiblings
  · rw [QueryTree.itemFromIndex, hnone] at hparent
    cases hparent
  rw [QueryTree.itemFromIndex, hsiblings] at hparent
  cases deleteOldBranch with
  | false =>
    have hall : (tree.children (tree.parent newParent)).filter
        (fun i => !(false && decide (i ∈ before))) = tree.children (tree.parent newParent) :=
      List.filter_eq_self.2 fun _ _ => rfl
    rw [hall, List.getElem?_idxOf (mem_children_parent hvalid h0)] at hparent
    exact (Option.some_inj.1 hparent).symm
  | true =>
    have hgiven := hrow rfl
    rw [QueryTree.rowAfter, if_neg h0] at hgiven
    simp only [Bool.true_and, ← decide_not] at hparent
    exact Option.some_inj.1 (hparent.symm.trans hgiven)

/-- The siblings that a turn leaves. -/
theorem siblings_step (h : NamesAfter tree newParent deleteOldBranch before tree')
    {place : Option Index} (hturn : TurnNames tree' top place deleteOldBranch tree'')
    (hvalid : tree.Valid newParent) (hplace : ∀ parent, place = some parent → parent = newParent)
    (h0 : newParent ≠ 0) : tree''.children (tree.parent newParent) = [] ∨
      tree''.children (tree.parent newParent) = (tree.children (tree.parent newParent)).filter
        fun i => !(deleteOldBranch && decide (i ∈ before ++ [top.id])) := by
  have hlt := (Forest.mem_chain_of_mem_children (mem_children_parent hvalid h0)).2
  have hchildren := hturn.children (tree.parent newParent)
    (hlt.trans (hvalid.lt_next.trans_le h.next_le)) fun heq => hlt.ne (hplace _ heq)
  rcases h.siblings h0 with hnone | hsiblings
  · rw [hnone] at hchildren
    exact .inl hchildren
  by_cases habove : deleteOldBranch = true ∧ top.id ∈ tree'.chain (tree.parent newParent)
  · -- the folder is gone, with all in it
    refine .inl (hchildren.trans (List.filter_eq_nil_iff.2 fun i hi => ?_))
    rw [habove.1, Bool.true_and, decide_eq_true
      (Forest.chain_trans habove.2 (Forest.mem_chain_of_mem_children hi).1), Bool.not_true]
    exact Bool.false_ne_true
  refine .inr (hchildren.trans ?_)
  have hself (i : Index) (hi : i ∈ tree'.children (tree.parent newParent)) :
      (!(deleteOldBranch && decide (top.id ∈ tree'.chain i))) =
        !(deleteOldBranch && decide (i = top.id)) := by
    cases hdelete : deleteOldBranch with
    | false => rfl
    | true =>
      obtain ⟨row, hrow, rfl, hparent⟩ := Forest.mem_children.1 hi
      rw [Forest.chain_of_mem hrow, hparent]
      simp only [List.mem_cons, or_iff_left fun hmem => habove ⟨hdelete, hmem⟩, eq_comm]
  rw [List.filter_congr hself, hsiblings, List.filter_filter]
  refine List.filter_congr fun i _ => ?_
  cases deleteOldBranch with
  | false => rfl
  | true =>
    rw [Bool.true_and, Bool.true_and, Bool.true_and, ← Bool.not_or, ← Bool.decide_or]
    simp only [List.mem_append, List.mem_singleton, or_comm]

/-- A turn of the move. -/
theorem step (h : NamesAfter tree newParent deleteOldBranch before tree')
    {place : Option Index} (hturn : TurnNames tree' top place deleteOldBranch tree'')
    (hvalid : tree.Valid newParent) (hplace : ∀ parent, place = some parent → parent = newParent)
    (htop : top ∈ tree.rows) :
    NamesAfter tree newParent deleteOldBranch (before ++ [top.id]) tree'' where
  unique := hturn.unique
  placed := hturn.placed
  next_le := h.next_le.trans hturn.next_le
  old_or_new row hrow := by
    rcases hturn.old_or_new row hrow with hold | hnew
    · exact h.old_or_new row hold
    · exact .inr (h.next_le.trans hnew)
  name row hrow hquery := by
    obtain ⟨old, hold, holdQuery, hname⟩ := hturn.name row hrow hquery
    obtain ⟨older, holder, holderQuery, hname'⟩ := h.name old hold holdQuery
    exact ⟨older, holder, holderQuery, hname'.trans hname⟩
  place row hrow hparent := by
    have hlt : row.parent < tree'.next := hparent ▸ hvalid.lt_next.trans_le h.next_le
    rw [List.map_append, List.mem_append]
    rcases hturn.place row hrow hlt with hold | ⟨-, hdata⟩
    · exact (h.place row hold hparent).imp_right .inl
    · refine .inr (.inr (List.mem_singleton.2 ?_))
      rw [displayName_of_mem htop, hdata]
  siblings h0 := h.siblings_step hturn hvalid hplace h0

/-- The name of the next branch may be used in the new parent. -/
theorem nameFree (h : NamesAfter tree newParent deleteOldBranch before tree')
    (htop : top ∈ tree.rows) (hnew : top.data.name ∉ before.map tree.displayName)
    (hgood : top.data.name ∉ tree.getSiblingNameList newParent (some top.id))
    (hother : deleteOldBranch = false → top.parent ≠ newParent)
    (hfolder : tree.IsFolder newParent) (hvalid : tree'.Valid newParent) :
    NameFree tree' top newParent deleteOldBranch where
  folder := (QueryTree.isFolder_iff_of_old hfolder.isNode.valid hvalid h.old_or_new).2 hfolder
  free row hrow hparent _ hname := by
    rcases h.place row hrow hparent with hold | hmoved
    · by_contra hne
      refine hgood (mem_getSiblingNameList.2 ⟨row, hold, hparent, fun hid => hne ?_, hname⟩)
      exact Forest.row_eq_of_id hold htop (Option.some_inj.1 hid)
    · exact absurd (hname ▸ hmoved) hnew
  other := hother

end NamesAfter

/-- Indexes with good names are those of items that are there. -/
theorem exists_row_of_namesAreGood (h : moveNamesAreGood tree indexList newParent = true)
    {i : Index} (hi : i ∈ indexList) : ∃ row ∈ tree.rows, row.id = i ∧
      row.data.name ∉ tree.getSiblingNameList newParent (some i) := by
  have hgood := nameIsGood_iff.1 (List.all_eq_true.1 h i hi)
  cases hrow : tree.row? i with
  | none => exact absurd (by rw [QueryTree.displayName, hrow]; rfl) hgood.1
  | some row =>
    obtain ⟨hmem, rfl⟩ := Forest.row?_eq_some.1 hrow
    exact ⟨row, hmem, rfl, displayName_of_mem hmem ▸ hgood.2.1⟩

/-- The remaining turns of a move keep names unique. -/
theorem names_run {after : List Index}
    (h : NamesAfter tree newParent deleteOldBranch before tree') (hfolder : tree.IsFolder newParent)
    (hlist : ∀ i ∈ after, ∃ row ∈ tree.rows, row.id = i ∧
      row.data.name ∉ tree.getSiblingNameList newParent (some i) ∧
      (deleteOldBranch = false → row.parent ≠ newParent))
    (hsafe : MoveKeepsNames tree (before ++ after) newParent deleteOldBranch)
    (hrun : after.foldlM (moveIndex (tree.toModelIndex newParent) deleteOldBranch) tree' =
      .ok tree'') : NamesAfter tree newParent deleteOldBranch (before ++ after) tree'' := by
  induction after generalizing before tree' with
  | nil =>
    obtain rfl := Except.ok.inj hrun
    rwa [List.append_nil]
  | cons i after ih =>
    rw [List.forall_mem_cons] at hlist
    obtain ⟨⟨top, htop, rfl, hgood, hother⟩, hrest⟩ := hlist
    obtain ⟨tree₁, hmove, hrun⟩ := Except.bind_eq_ok.1 hrun
    have hvalid := hfolder.isNode.valid
    have hplace (parent : Index)
        (hparent : tree'.itemFromIndex (tree.toModelIndex newParent) = some parent) :
        parent = newParent :=
      h.itemFromIndex hvalid (fun hdelete => hsafe.row hdelete before top.id after rfl) hparent
    have htop' : top ∈ tree'.rows := by
      cases hrow : tree'.row? top.id with
      | none =>
        rw [moveIndex_of_none hrow] at hmove
        exact nomatch hmove
      | some row =>
        obtain ⟨hmem, hid⟩ := Forest.row?_eq_some.1 hrow
        exact h.row_of_id htop hmem hid ▸ hmem
    have hnew : top.data.name ∉ before.map tree.displayName := by
      have hnodup := hsafe.names
      rw [List.map_append, List.map_cons, displayName_of_mem htop] at hnodup
      exact fun hmem => (List.nodup_append.1 hnodup).2.2 _ hmem _ List.mem_cons_self rfl
    have hturn := moveIndex_names h.unique h.placed htop' (fun parent hparent => by
      obtain rfl := hplace parent hparent
      exact h.nameFree htop hnew hgood hother hfolder (valid_of_itemFromIndex hparent)) hmove
    have hnext := h.step hturn hvalid hplace htop
    rw [List.append_cons] at hsafe ⊢
    exact ih hnext hrest hsafe hrun

/-- A move keeps names unique, if its indexes may be moved. -/
theorem consoleQueryMove_names (hunique : tree.UniqueNames) (hplaced : tree.Placed)
    (hfolder : tree.IsFolder newParent)
    (hother : deleteOldBranch = false → ∀ i ∈ indexList, ∀ row ∈ tree.rows, row.id = i →
      row.parent ≠ newParent)
    (hsafe : moveNamesAreGood tree indexList newParent = true →
      MoveKeepsNames tree indexList newParent deleteOldBranch)
    (h : consoleQueryMove tree indexList newParent deleteOldBranch = .ok tree') :
    ∃ moved, NamesAfter tree newParent deleteOldBranch moved tree' := by
  rw [consoleQueryMove] at h
  split_ifs at h with hgood
  · refine ⟨indexList, names_run (.nil hunique hplaced) hfolder (fun i hi => ?_) (hsafe hgood) h⟩
    obtain ⟨row, hrow, rfl, hname⟩ := exists_row_of_namesAreGood hgood hi
    exact ⟨row, hrow, rfl, hname, fun hcopy => hother hcopy row.id hi row hrow rfl⟩
  · obtain rfl := Except.ok.inj h
    exact ⟨[], .nil hunique hplaced⟩

end

end Admc
