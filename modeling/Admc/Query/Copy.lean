import Admc.Query.Names

/-!
# Copying saved queries

A branch that is copied stays where it is, with all that is in the tree, and what is created is an
image of it: an item for each query item and each query folder of the branch, with the same data,
arranged as their originals are. That the new parent may itself be in the branch makes no
difference, as the image is one of the branch as it was before.

* `CopiesOf.isBranchCopy`: what has been created once all of a branch has been copied;
* `consoleQueryMove_copy`: a copy of a branch returns, with the image of it in the new parent.
-/

namespace Admc

/-- Rows are an image of a branch below a new parent: the query items and query folders of the
    branch have got indexes that are not in the tree, each one of its own, and the same data, below
    the images of their parents. -/
structure IsBranchCopy (tree : QueryTree) (top newParent : Index) (copyOf : Index → Index)
    (rows : List (Row QueryNode)) : Prop where
  rows_perm : rows.Perm (((tree.branch top).filter fun row => row.data.isQuery).map fun row =>
    ⟨copyOf row.id, if row.id = top then newParent else copyOf row.parent, row.data⟩)
  fresh : ∀ row ∈ rows, tree.next ≤ row.id
  nodup : (rows.map Row.id).Nodup

section
variable {tree : QueryTree} {top : Row QueryNode} {newParent : Option Index} {state : CopyState}
  {done : List Index} {copies : List ItemCopy} {parent : Index}

/-- The index of the copy of an item. -/
def copyIndex (copies : List ItemCopy) (index : Index) : Index :=
  ((copies.find? fun copy => copy.original.id = index).map ItemCopy.id).getD 0

namespace CopiesOf

theorem copyIndex_original (h : CopiesOf tree top newParent state done copies)
    (hdone : done.Nodup) {copy : ItemCopy} (hcopy : copy ∈ copies) :
    copyIndex copies copy.original.id = copy.id := by
  rw [copyIndex]
  cases hfind : copies.find? fun other => decide (other.original.id = copy.original.id) with
  | none => exact absurd (decide_eq_true rfl) (List.find?_eq_none.1 hfind copy hcopy)
  | some other =>
    have hother := List.mem_of_find?_eq_some hfind
    have hid : other.original.id = copy.original.id := by simpa using List.find?_some hfind
    have heq := Forest.row_eq_of_id (h.original_mem other hother) (h.original_mem copy hcopy) hid
    rw [h.eq_of_original hdone hother hcopy heq]
    rfl

/-- What is above a branch has no copy. -/
theorem original_id_ne (h : CopiesOf tree top newParent state done copies)
    (htop : top ∈ tree.rows) (hperm : done.Perm (tree.subtree top.id)) {folder : ItemCopy}
    (hfolder : folder ∈ copies) : folder.original.id ≠ top.parent := by
  intro hid
  have hsub := hperm.mem_iff.1 (h.done_of_mem hfolder)
  rw [hid, Forest.mem_subtree_iff (Forest.valid_parent htop)] at hsub
  exact Forest.not_mem_chain_parent htop hsub

/-- The parent of a copy is the new parent, or the copy of the parent of its original. -/
theorem parent_eq (h : CopiesOf tree top (some parent) state done copies)
    (htop : top ∈ tree.rows) (hperm : done.Perm (tree.subtree top.id)) {copy : ItemCopy}
    (hcopy : copy ∈ copies) : copy.parent =
      if copy.original.id = top.id then parent else copyIndex copies copy.original.parent := by
  have hdone : done.Nodup := hperm.nodup_iff.2 Forest.nodup_subtree
  rcases h.parent copy hcopy with ⟨heq, hparent⟩ | ⟨folder, hfolder, -, hid, hparent⟩
  · rw [heq, if_pos rfl]
    -- the copy of the top of the branch
    exact (Option.some_inj.1 hparent).symm
  · have hne : copy.original.id ≠ top.id := by
      -- it is in the copy of a folder, which is not above the branch
      intro hcopyId
      have heq := Forest.row_eq_of_id (h.original_mem copy hcopy) htop hcopyId
      exact h.original_id_ne htop hperm hfolder (heq ▸ hid)
    rw [if_neg hne, ← hid, h.copyIndex_original hdone hfolder]
    exact hparent.symm

/-- What has been created is an image of the branch. -/
theorem isBranchCopy (h : CopiesOf tree top (some parent) state done copies)
    (htop : top ∈ tree.rows) (hperm : done.Perm (tree.subtree top.id)) :
    IsBranchCopy tree top.id parent (copyIndex copies) (copies.map ItemCopy.row) where
  rows_perm := by
    have hdone : done.Nodup := hperm.nodup_iff.2 Forest.nodup_subtree
    refine .trans (.of_eq ?_) ((h.originals_perm hperm).map _)
    rw [List.map_map]
    -- row by row, in the order in which the copies have been created
    refine List.map_congr_left fun copy hcopy => ?_
    rw [Function.comp_apply, h.copyIndex_original hdone hcopy, ← h.parent_eq htop hperm hcopy]
    rfl
  fresh := List.forall_mem_map.2 h.fresh
  nodup := by
    have hnodup := state.tree.nodup_ids
    rw [h.rows, List.map_append] at hnodup
    exact (List.nodup_append.1 hnodup).1

end CopiesOf

/-- A branch can be copied to a folder. -/
theorem QueryTree.Placed.copyable (h : tree.Placed) (top : Row QueryNode) (parent : Index) :
    Copyable tree top (some parent) where
  place _ := Option.some_ne_none parent
  below row hrow _ hquery := (h row hrow).1 hquery

/-- A branch that is copied to a folder, which may be in the branch, stays with all that is in the
    tree, and an image of it is created in the folder. -/
theorem consoleQueryMove_copy (hplaced : tree.Placed) (htop : top ∈ tree.rows)
    (hfolder : tree.IsFolder parent)
    (hgood : moveNamesAreGood tree [top.id] parent = true) :
    ∃ tree' copyOf rows, consoleQueryMove tree [top.id] parent false = .ok tree' ∧
      tree'.rows = rows ++ tree.rows ∧ IsBranchCopy tree top.id parent copyOf rows := by
  have hvalid := hfolder.isNode.valid
  have hspec := Except.yields_iff.1 (@copyBranch_spec tree top (some parent) htop
    fun _ hsome => Option.some_inj.1 hsome ▸ hvalid)
  cases hcopy : copyBranch tree top.id (some parent) with
  | error fault => exact absurd (hplaced.copyable top parent) (hspec.2 fault hcopy)
  | ok state =>
    obtain ⟨done, copies, hcopies, hperm⟩ := hspec.1 state hcopy
    -- all of the branch is done: `moveIndex` ends with it, as nothing is removed
    refine ⟨state.tree, copyIndex copies, copies.map ItemCopy.row, ?_, hcopies.rows,
      hcopies.isBranchCopy htop hperm⟩
    rw [consoleQueryMove, if_pos hgood, List.foldlM_cons, moveIndex,
      itemFromIndex_toModelIndex hvalid, hcopy]
    rfl

end

/-- A folder is copied to a folder in it. -/
theorem consoleQueryMove_copy_nested : ∃ tree' copyOf rows,
    consoleQueryMove nestedFolders [1] 2 false = .ok tree' ∧
      tree'.rows = rows ++ nestedFolders.rows ∧ IsBranchCopy nestedFolders 1 2 copyOf rows :=
  @consoleQueryMove_copy _ ⟨1, 0, .folder ['F'] []⟩ _ (by decide) (by decide) (by decide)
    (by decide)

end Admc
