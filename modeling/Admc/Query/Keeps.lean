import Admc.Query.Move

/-!
# What a move keeps

A move loses nothing exactly when each of its turns is safe (`move_keeps_iff`): the
branch does not contain the new parent, it is still there, and the row where the
target was gives an item that is outside of the branch, and a folder if it is moved
itself later on.

The row matters as the target is passed on as an index that does not persist: deleting a
branch above the target in its folder makes the index that of another item.
-/

namespace Admc

/-- The item in the row of the target, after some items are gone. -/
def QueryTree.rowAfter (tree : QueryTree) (target : Index) (gone : List Index) : Option Index :=
  if target = 0 then some 0
  else
    let siblings := tree.children (tree.parent target)
    (siblings.filter (· ∉ gone))[siblings.idxOf target]?

/-- An index is moved safely after others. -/
structure TurnSafe (tree : QueryTree) (target : Index) (before : List Index)
    (index : Index) : Prop where
  not_above : index ∉ tree.chain target
  not_gone : ∀ i ∈ before, i ∉ tree.chain index
  place : ∃ place, tree.rowAfter target before = some place ∧ place ≠ index
  /-- What is left of the branch is in folders, below its top. -/
  placed : ∀ row ∈ tree.rows, (∀ i ∈ before, i ∉ tree.chain row.id) →
    index ∈ tree.chain row.parent → row.data.isQuery = true → tree.IsFolder row.parent
  /-- If something has been moved into it, it is a folder. -/
  folder : ∀ gone i, gone ++ [i] <+: before → tree.rowAfter target gone = some index →
    tree.IsFolder index

/-- All indexes are moved safely, one after the other. -/
def MovesSafely (tree : QueryTree) (target : Index) (indexList : List Index) : Prop :=
  ∀ before index after, indexList = before ++ index :: after → TurnSafe tree target before index

/-- The query items and query folders are those that there were, with their data. -/
def KeepsQueries (tree : QueryTree) (outcome : Except QueryFault QueryTree) : Prop :=
  ∃ tree', outcome = .ok tree' ∧ tree'.queries.Perm tree.queries

/-- What is left after some branches have been moved safely. -/
structure AfterTurns (tree : QueryTree) (target : Index) (before : List Index)
    (tree' : QueryTree) : Prop where
  next_le : tree.next ≤ tree'.next
  not_above : ∀ i ∈ before, i ∉ tree.chain target
  mem_old : ∀ row ∈ tree.rows, row ∈ tree'.rows ↔ ∀ i ∈ before, i ∉ tree.chain row.id
  old_or_new : ∀ row ∈ tree'.rows, row ∈ tree.rows ∨ tree.next ≤ row.id
  children : target ≠ 0 → tree'.children (tree.parent target) =
    (tree.children (tree.parent target)).filter (· ∉ before)
  /-- What is new is in a folder, or it has been moved to where the row has led. -/
  placed : ∀ row ∈ tree'.rows, tree.next ≤ row.id → tree'.IsFolder row.parent ∨
    ∃ gone i, gone ++ [i] <+: before ∧ tree.rowAfter target gone = some row.parent
  /-- There is something where the row has led. -/
  copy : ∀ gone i place, gone ++ [i] <+: before → tree.rowAfter target gone = some place →
    tree'.Valid place → ∃ row ∈ tree'.rows, tree.next ≤ row.id ∧ row.data.isQuery = true ∧
      row.parent = place
  queries : tree'.queries.Perm tree.queries

section
variable {tree tree' tree'' : QueryTree} {target index place : Index} {before : List Index}
  {top row : Row QueryNode}

/-- The row of the target gives one of its siblings, or the root folder for itself. -/
theorem mem_of_rowAfter (h : tree.rowAfter target before = some place) :
    target = 0 ∧ place = 0 ∨
      target ≠ 0 ∧ place ∈ tree.children (tree.parent target) ∧ place ∉ before := by
  rw [QueryTree.rowAfter] at h
  split_ifs at h with h0
  · exact .inl ⟨h0, (Option.some_inj.1 h).symm⟩
  · have hmem := List.mem_of_getElem? h
    rw [List.mem_filter, decide_eq_true_iff] at hmem
    exact .inr ⟨h0, hmem⟩

theorem valid_of_rowAfter (h : tree.rowAfter target before = some place) : tree.Valid place := by
  obtain ⟨-, rfl⟩ | ⟨-, hmem, -⟩ := mem_of_rowAfter h
  · exact Forest.valid_zero
  · exact (Forest.valid_of_mem_chain (Forest.mem_chain_of_mem_children hmem).1).2

/-- Above the row of the target there is only what is above the target. -/
theorem mem_chain_of_rowAfter (htarget : tree.Valid target)
    (h : tree.rowAfter target before = some place) (hindex : index ∉ tree.chain target) :
    index ∈ tree.chain place ↔ index = place := by
  obtain ⟨rfl, rfl⟩ | ⟨h0, hmem, -⟩ := mem_of_rowAfter h
  · rw [Forest.chain_zero, List.mem_singleton]
  · obtain ⟨targetRow, htargetRow, rfl⟩ := htarget.resolve_left h0
    obtain ⟨row, hrow, rfl, hparent⟩ := Forest.mem_children.1 hmem
    rw [Forest.parent_of_mem htargetRow] at hparent
    rw [Forest.chain_of_mem htargetRow, List.mem_cons, not_or] at hindex
    rw [Forest.chain_of_mem hrow, hparent, List.mem_cons, or_iff_left hindex.2]

theorem afterTurns_nil : AfterTurns tree target [] tree where
  next_le := le_rfl
  not_above := nofun
  mem_old _ hrow := iff_of_true hrow nofun
  old_or_new _ hrow := .inl hrow
  children _ := (List.filter_eq_self.2 fun _ _ => rfl).symm
  placed row hrow hnew := absurd hnew (not_le.2 (tree.lt_next row hrow))
  copy _ _ _ hgone := absurd (List.prefix_nil.1 hgone)
    (List.append_ne_nil_of_right_ne_nil _ nofun)
  queries := .refl _

namespace AfterTurns

/-- What is left has the same above it. -/
theorem chain_eq (h : AfterTurns tree target before tree') (hvalid : tree.Valid index)
    (hgone : ∀ i ∈ before, i ∉ tree.chain index) : tree'.chain index = tree.chain index := by
  induction index, hvalid using Forest.valid_induction with
  | ground => rw [Forest.chain_zero, Forest.chain_zero]
  | step row hrow ih =>
    have hmem := (h.mem_old row hrow).2 hgone
    rw [Forest.chain_of_mem hrow] at hgone
    rw [Forest.chain_of_mem hmem, Forest.chain_of_mem hrow,
      ih fun i hi hchain => hgone i hi (List.mem_cons_of_mem _ hchain)]

/-- An old item that is there is one of before. -/
theorem row_of_id (h : AfterTurns tree target before tree') (hrow : row ∈ tree'.rows)
    (htop : top ∈ tree.rows) (hid : row.id = top.id) : row = top := by
  obtain hold | hnew := h.old_or_new row hrow
  · exact Forest.row_eq_of_id hold htop hid
  · exact absurd (hid ▸ hnew) (not_le.2 (tree.lt_next top htop))

/-- The row of the target, found anew. -/
theorem itemFromIndex (h : AfterTurns tree target before tree') :
    tree'.itemFromIndex (tree.toModelIndex target) = tree.rowAfter target before := by
  rw [QueryTree.toModelIndex, QueryTree.rowAfter]
  split_ifs with h0
  · rfl
  · rw [QueryTree.itemFromIndex, h.children h0]

/-- A folder that is the parent of something left is left. -/
theorem isFolder_of_movedTo (hmoved : MovedTo tree top place tree') (hrow : row ∈ tree'.rows)
    (hold : row ∈ tree.rows) (hfolder : tree.IsFolder row.parent) :
    tree'.IsFolder row.parent := by
  obtain hzero | ⟨folder, hmem, hid, hisFolder⟩ := hfolder
  · exact .inl hzero
  · have hlt : row.parent < tree.next := (Forest.valid_parent hold).lt_next
    obtain hzero | ⟨older, holder, hid'⟩ := Forest.valid_parent hrow
    · exact .inl hzero
    · obtain holder' | hnew := hmoved.old_or_new older holder
      · rw [Forest.row_eq_of_id holder' hmem (hid'.trans hid.symm)] at holder
        exact .inr ⟨folder, holder, hid, hisFolder⟩
      · exact absurd (hid' ▸ hnew) (not_le.2 hlt)

/-- The siblings of the target that are left: those that are not moved themselves. -/
theorem children_step (h : AfterTurns tree target before tree') (hsafe : index ∉ tree.chain target)
    (htarget : tree.Valid target) (h0 : target ≠ 0) :
    (tree'.children (tree.parent target)).filter (fun i => index ∉ tree'.chain i) =
      (tree.children (tree.parent target)).filter (· ∉ before ++ [index]) := by
  obtain ⟨targetRow, htargetRow, rfl⟩ := htarget.resolve_left h0
  rw [h.children h0, List.filter_filter, Forest.parent_of_mem htargetRow]
  refine List.filter_congr fun i hi => ?_
  obtain ⟨row, hrow, rfl, hparent⟩ := Forest.mem_children.1 hi
  -- nothing that has been moved is above the parent of the target
  have habove : ∀ j ∉ tree.chain targetRow.id, j ∈ tree.chain row.id ↔ j = row.id := by
    intro j hj
    rw [Forest.chain_of_mem htargetRow, List.mem_cons, not_or] at hj
    rw [Forest.chain_of_mem hrow, hparent, List.mem_cons, or_iff_left hj.2]
  rw [← Bool.decide_and, decide_eq_decide, List.mem_append, List.mem_singleton, not_or, and_comm]
  refine and_congr_right fun hbefore => not_congr ?_
  rw [h.chain_eq (Forest.valid_of_mem hrow) fun j hj hchain =>
    hbefore ((habove j (h.not_above j hj)).1 hchain ▸ hj)]
  exact (habove index hsafe).trans eq_comm

/-- A turn keeps what is said of those before. -/
theorem step (h : AfterTurns tree target before tree') (htop : top ∈ tree.rows)
    (hquery : top.data.isQuery = true) (htarget : tree.Valid target)
    (hsafe : TurnSafe tree target before top.id)
    (hplace : tree.rowAfter target before = some place) (hmoved : MovedTo tree' top place tree'') :
    AfterTurns tree target (before ++ [top.id]) tree'' where
  next_le := h.next_le.trans hmoved.next_le
  not_above := by
    rw [List.forall_mem_append, List.forall_mem_singleton]
    exact ⟨h.not_above, hsafe.not_above⟩
  mem_old row hrow := by
    rw [List.forall_mem_append, List.forall_mem_singleton, ← h.mem_old row hrow]
    by_cases hmem : row ∈ tree'.rows
    · rw [and_iff_right hmem, hmoved.mem_old row hmem, h.chain_eq (Forest.valid_of_mem hrow)
        ((h.mem_old row hrow).1 hmem)]
    · refine iff_of_false (fun hmem' => ?_) fun hand => hmem hand.1
      obtain hold | hnew := hmoved.old_or_new row hmem'
      · exact hmem hold
      · exact absurd (h.next_le.trans hnew) (not_le.2 (tree.lt_next row hrow))
  old_or_new row hrow := by
    obtain hold | hnew := hmoved.old_or_new row hrow
    · exact h.old_or_new row hold
    · exact .inr (h.next_le.trans hnew)
  children h0 := by
    obtain ⟨hzero, -⟩ | ⟨-, hmem, -⟩ := mem_of_rowAfter hplace
    · exact absurd hzero h0
    · obtain ⟨hchain, hlt⟩ := Forest.mem_chain_of_mem_children hmem
      have hvalid := (Forest.valid_of_mem_chain hchain).1
      rw [hmoved.children _ (hvalid.lt_next.trans_le h.next_le) hlt.ne]
      exact h.children_step hsafe.not_above htarget h0
  placed row hrow hnew := by
    obtain hold | hnew' := hmoved.old_or_new row hrow
    · refine (h.placed row hold hnew).imp (isFolder_of_movedTo hmoved hrow hold) ?_
      rintro ⟨gone, i, hgone, hrowAfter⟩
      exact ⟨gone, i, hgone.trans (List.prefix_append _ _), hrowAfter⟩
    · obtain hparent | hfolder := hmoved.placed row hrow hnew'
      · exact .inr ⟨before, top.id, List.prefix_rfl, hparent ▸ hplace⟩
      · exact .inl hfolder
  copy gone i place' hgone hrowAfter hvalid := by
    obtain heq | hgone := List.prefix_concat_iff.1 hgone
    · -- the copy of this turn
      obtain ⟨rfl, -⟩ := List.append_inj' heq rfl
      obtain rfl := Option.some_inj.1 (hrowAfter.symm.trans hplace)
      obtain ⟨row, hrow, hnew, hparent, hdata⟩ := hmoved.copy
      exact ⟨row, hrow, h.next_le.trans hnew, hdata ▸ hquery, hparent⟩
    · -- the place is left, and so is what has been moved there
      have hlt : place' < tree.next := (valid_of_rowAfter hrowAfter).lt_next
      have hplace' : tree'.Valid place' ∧ top.id ∉ tree'.chain place' := by
        obtain rfl | ⟨placeRow, hplaceRow, rfl⟩ := hvalid
        · refine ⟨Forest.valid_zero, ?_⟩
          rw [Forest.chain_zero, List.mem_singleton]
          exact (Forest.id_pos htop).ne'
        · obtain hold | hnew := hmoved.old_or_new placeRow hplaceRow
          · exact ⟨Forest.valid_of_mem hold, (hmoved.mem_old placeRow hold).1 hplaceRow⟩
          · exact absurd (h.next_le.trans hnew) (not_le.2 hlt)
      obtain ⟨row, hrow, hnew, hisQuery, rfl⟩ := h.copy gone i place' hgone hrowAfter hplace'.1
      refine ⟨row, (hmoved.mem_old row hrow).2 ?_, hnew, hisQuery, rfl⟩
      rw [Forest.chain_of_mem hrow, List.mem_cons, not_or]
      exact ⟨((tree.lt_next top htop).trans_le hnew).ne, hplace'.2⟩
  queries := hmoved.queries.trans h.queries

/-- Nothing has changed above the row of the target. -/
theorem chain_place (h : AfterTurns tree target before tree') (htarget : tree.Valid target)
    (hplace : tree.rowAfter target before = some place) :
    tree'.chain place = tree.chain place := by
  refine h.chain_eq (valid_of_rowAfter hplace) fun i hi hchain => ?_
  obtain rfl := (mem_chain_of_rowAfter htarget hplace (h.not_above i hi)).1 hchain
  obtain ⟨rfl, rfl⟩ | ⟨-, -, hbefore⟩ := mem_of_rowAfter hplace
  · exact h.not_above 0 hi (Forest.mem_chain_self htarget)
  · exact hbefore hi

/-- What is left has its parent, which is a folder as it was. -/
theorem isFolder_iff (h : AfterTurns tree target before tree') (hrow : row ∈ tree.rows)
    (hrow' : row ∈ tree'.rows) : tree'.IsFolder row.parent ↔ tree.IsFolder row.parent := by
  have hgone := (h.mem_old row hrow).1 hrow'
  rw [Forest.chain_of_mem hrow] at hgone
  refine or_congr_right ⟨?_, ?_⟩
  · rintro ⟨folder, hfolder, hid, hisFolder⟩
    obtain hold | hnew := h.old_or_new folder hfolder
    · exact ⟨folder, hold, hid, hisFolder⟩
    · exact absurd (hid ▸ hnew) (not_le.2 (Forest.valid_parent hrow).lt_next)
  · rintro ⟨folder, hfolder, hid, hisFolder⟩
    refine ⟨folder, (h.mem_old folder hfolder).2 fun i hi hchain => ?_, hid, hisFolder⟩
    exact hgone i hi (List.mem_cons_of_mem _ (hid ▸ hchain))

theorem chain_parent_eq (h : AfterTurns tree target before tree') (hrow : row ∈ tree.rows)
    (hrow' : row ∈ tree'.rows) : tree'.chain row.parent = tree.chain row.parent := by
  have hgone := (h.mem_old row hrow).1 hrow'
  have heq := h.chain_eq (Forest.valid_of_mem hrow) hgone
  rw [Forest.chain_of_mem hrow, Forest.chain_of_mem hrow'] at heq
  exact (List.cons.inj heq).2

/-- A branch that may be moved safely can be copied. -/
theorem copyable (h : AfterTurns tree target before tree') (htarget : tree.Valid target)
    (htop : top ∈ tree.rows) (htop' : top ∈ tree'.rows)
    (hsafe : TurnSafe tree target before top.id) : Copyable tree' top (some place) where
  place _ := nofun
  below row hrow hchain hisQuery := by
    obtain hold | hnew := h.old_or_new row hrow
    · rw [h.chain_parent_eq hold hrow] at hchain
      exact (h.isFolder_iff hold hrow).2
        (hsafe.placed row hold ((h.mem_old row hold).1 hrow) hchain hisQuery)
    obtain hfolder | ⟨gone, i, hgone, hrowAfter⟩ := h.placed row hrow hnew
    · exact hfolder
    · -- the row is in a place where the row of the target has led before
      have hvalid := valid_of_rowAfter hrowAfter
      have hchain' : top.id ∈ tree.chain row.parent := by
        obtain h0 | ⟨placeRow, hplaceRow, hid⟩ := Forest.valid_parent hrow
        · rw [h0, Forest.chain_zero] at hchain
          rw [h0, Forest.chain_zero]
          exact hchain
        · obtain hold | hnew := h.old_or_new placeRow hplaceRow
          · rwa [← hid, h.chain_eq (Forest.valid_of_mem hold)
              ((h.mem_old placeRow hold).1 hplaceRow), hid] at hchain
          · exact absurd (hid ▸ hnew) (not_le.2 hvalid.lt_next)
      have heq := (mem_chain_of_rowAfter htarget hrowAfter hsafe.not_above).1 hchain'
      rw [← heq] at hrowAfter ⊢
      obtain h0 | ⟨folder, hfolder, hid, hisFolder⟩ := hsafe.folder gone i hgone hrowAfter
      · exact absurd h0 (Forest.id_pos htop).ne'
      · rw [Forest.row_eq_of_id hfolder htop hid] at hisFolder
        exact .inr ⟨top, htop', rfl, hisFolder⟩

/-- A safe turn returns, and moves the branch. -/
theorem returns (h : AfterTurns tree target before tree') (htarget : tree.Valid target)
    (htop : top ∈ tree.rows) (hquery : top.data.isQuery = true)
    (hsafe : TurnSafe tree target before top.id) :
    ∃ tree'', moveIndex (tree.toModelIndex target) true tree' top.id = .ok tree'' ∧
      AfterTurns tree target (before ++ [top.id]) tree'' := by
  have htop' : top ∈ tree'.rows := (h.mem_old top htop).2 hsafe.not_gone
  obtain ⟨place, hplace, hne⟩ := hsafe.place
  have hindex := h.itemFromIndex.trans hplace
  obtain ⟨tree'', hmove⟩ := @moveIndex_returns tree' top (tree.toModelIndex target) true htop'
    (hindex ▸ h.copyable htarget htop htop' hsafe)
  obtain ⟨parent, hparent, -, hcase⟩ := moveIndex_ok htop' hquery hmove
  obtain rfl := Option.some_inj.1 (hparent.symm.trans hindex)
  obtain ⟨-, hmoved⟩ | ⟨hinside, -⟩ := hcase
  · exact ⟨tree'', hmove, h.step htop hquery htarget hsafe hplace hmoved⟩
  · rw [h.chain_place htarget hplace] at hinside
    exact absurd ((mem_chain_of_rowAfter htarget hplace hsafe.not_above).1 hinside).symm hne

/-- A turn that copies the branch to a place outside of it is safe. -/
theorem turnSafe (h : AfterTurns tree target before tree') (htarget : tree.Valid target)
    (htop : top ∈ tree.rows) (htop' : top ∈ tree'.rows) (hne : top.id ≠ target)
    (hgone : ∀ i ∈ before, i ∉ tree.chain top.id)
    (hplace : tree.rowAfter target before = some place)
    (hcopyable : Copyable tree' top (some place)) (houtside : top.id ∉ tree'.chain place) :
    TurnSafe tree target before top.id where
  not_above habove := by
    rw [h.chain_place htarget hplace] at houtside
    obtain ⟨rfl, -⟩ | ⟨h0, hmem, -⟩ := mem_of_rowAfter hplace
    · rw [Forest.chain_zero, List.mem_singleton] at habove
      exact hne habove
    · obtain ⟨targetRow, htargetRow, rfl⟩ := htarget.resolve_left h0
      rw [Forest.chain_of_mem htargetRow, List.mem_cons, or_iff_right hne] at habove
      rw [Forest.parent_of_mem htargetRow] at hmem
      exact houtside (Forest.chain_trans habove (Forest.mem_chain_of_mem_children hmem).1)
  not_gone := hgone
  place := by
    refine ⟨place, hplace, ?_⟩
    rintro rfl
    exact houtside (Forest.mem_chain_self (Forest.valid_of_mem htop'))
  placed row hrow hleft hchain hisQuery := by
    have hrow' := (h.mem_old row hrow).2 hleft
    rw [← h.isFolder_iff hrow hrow']
    exact hcopyable.below row hrow' (h.chain_parent_eq hrow hrow' ▸ hchain) hisQuery
  folder gone i hbefore hrowAfter := by
    obtain ⟨row, hrow, -, hisQuery, hparent⟩ :=
      h.copy gone i top.id hbefore hrowAfter (Forest.valid_of_mem htop')
    have hself := Forest.mem_chain_self (Forest.valid_of_mem htop')
    obtain h0 | ⟨folder, hfolder, hid, hisFolder⟩ :=
      hcopyable.below row hrow (hparent ▸ hself) hisQuery
    · exact .inl (hparent ▸ h0)
    · rw [h.row_of_id hfolder htop (hid.trans hparent)] at hisFolder
      exact .inr ⟨top, htop, rfl, hisFolder⟩

/-- A turn that is not safe fails, or loses something. -/
theorem loses (h : AfterTurns tree target before tree') (htarget : tree.Valid target)
    (htop : top ∈ tree.rows) (hquery : top.data.isQuery = true) (hne : top.id ≠ target)
    (hnot : ¬TurnSafe tree target before top.id)
    (hmove : moveIndex (tree.toModelIndex target) true tree' top.id = .ok tree'') :
    tree''.queries.length < tree.queries.length ∧ tree.next ≤ tree''.next ∧
      ∀ row ∈ tree''.rows, row ∈ tree.rows ∨ tree.next ≤ row.id := by
  by_cases hgone : ∀ i ∈ before, i ∉ tree.chain top.id
  · have htop' : top ∈ tree'.rows := (h.mem_old top htop).2 hgone
    obtain ⟨place, hplace, hcopyable, hcase⟩ := moveIndex_ok htop' hquery hmove
    rw [h.itemFromIndex] at hplace
    obtain ⟨houtside, -⟩ | ⟨-, hlength, hnext, hrows⟩ := hcase
    · exact absurd (h.turnSafe htarget htop htop' hne hgone hplace hcopyable houtside) hnot
    · rw [h.queries.length_eq] at hlength
      exact ⟨hlength, h.next_le.trans hnext, fun row hrow => h.old_or_new row (hrows row hrow)⟩
  · -- the branch is gone
    have hnone : tree'.row? top.id = none := Forest.row?_eq_none.2 fun row hrow hid =>
      hgone ((h.mem_old top htop).1 (h.row_of_id hrow htop hid ▸ hrow))
    rw [moveIndex_of_none hnone] at hmove
    exact nomatch hmove

end AfterTurns

/-! ## All turns -/

/-- What has been lost does not come back. -/
theorem loses_run {newParentIndex : ModelIndex} {indexList : List Index} {tree'' : QueryTree}
    (hlist : ∀ i ∈ indexList, ∃ row ∈ tree.rows, row.id = i ∧ row.data.isQuery = true)
    (hlost : tree'.queries.length < tree.queries.length ∧ tree.next ≤ tree'.next ∧
      ∀ row ∈ tree'.rows, row ∈ tree.rows ∨ tree.next ≤ row.id)
    (h : indexList.foldlM (moveIndex newParentIndex true) tree' = .ok tree'') :
    tree''.queries.length < tree.queries.length := by
  refine (List.foldlM_invariant (P := fun tree' : QueryTree =>
    tree'.queries.length < tree.queries.length ∧ tree.next ≤ tree'.next ∧
      ∀ row ∈ tree'.rows, row ∈ tree.rows ∨ tree.next ≤ row.id) ?_ hlost h).1
  rintro tree₁ tree₂ i hi hmove ⟨hlength, hnext, hrows⟩
  obtain ⟨top, htop, rfl, hquery⟩ := hlist i hi
  cases hrow : tree₁.row? top.id with
  | none =>
    rw [moveIndex_of_none hrow] at hmove
    exact nomatch hmove
  | some row =>
    obtain ⟨hmem, hid⟩ := Forest.row?_eq_some.1 hrow
    obtain rfl : row = top := (hrows row hmem).elim
      (fun hold => Forest.row_eq_of_id hold htop hid)
      fun hnew => absurd (hid ▸ hnew) (not_le.2 (tree.lt_next top htop))
    obtain ⟨place, -, -, ⟨-, hmoved⟩ | ⟨-, hlength', hnext', hrows'⟩⟩ :=
      moveIndex_ok hmem hquery hmove
    · refine ⟨hmoved.queries.length_eq ▸ hlength, hnext.trans hmoved.next_le, fun row hrow => ?_⟩
      obtain hold | hnew := hmoved.old_or_new row hrow
      exacts [hrows row hold, .inr (hnext.trans hnew)]
    · exact ⟨hlength'.trans hlength, hnext.trans hnext', fun row hrow => hrows row (hrows' row hrow)⟩

/-- The remaining turns lose nothing exactly when they are safe. -/
theorem keeps_run {after : List Index} (h : AfterTurns tree target before tree')
    (htarget : tree.Valid target)
    (hlist : ∀ i ∈ after, i ≠ target ∧ ∃ row ∈ tree.rows, row.id = i ∧ row.data.isQuery = true) :
    (∃ tree'', after.foldlM (moveIndex (tree.toModelIndex target) true) tree' = .ok tree'' ∧
      tree''.queries.Perm tree.queries) ↔
      ∀ gone i rest, after = gone ++ i :: rest → TurnSafe tree target (before ++ gone) i := by
  induction after generalizing before tree' with
  | nil =>
    refine iff_of_true ⟨tree', rfl, h.queries⟩ fun gone i rest heq => ?_
    exact absurd heq.symm (List.append_ne_nil_of_right_ne_nil _ nofun)
  | cons i rest ih =>
    rw [List.forall_mem_cons] at hlist
    obtain ⟨⟨hne, top, htop, rfl, hquery⟩, hrest⟩ := hlist
    have hsplit : (∀ gone j rest', top.id :: rest = gone ++ j :: rest' →
        TurnSafe tree target (before ++ gone) j) ↔ TurnSafe tree target before top.id ∧
          ∀ gone j rest', rest = gone ++ j :: rest' →
            TurnSafe tree target (before ++ [top.id] ++ gone) j := by
      constructor
      · intro hall
        refine ⟨by simpa using hall [] top.id rest rfl, fun gone j rest' heq => ?_⟩
        rw [List.append_assoc]
        exact hall (top.id :: gone) j rest' (congrArg _ heq)
      · rintro ⟨hsafe, hall⟩ gone j rest' heq
        cases gone with
        | nil =>
          obtain ⟨rfl, -⟩ := List.cons.inj heq
          rwa [List.append_nil]
        | cons i gone =>
          obtain ⟨rfl, htail⟩ := List.cons.inj heq
          rw [List.append_cons]
          exact hall gone j rest' htail
    rw [hsplit, List.foldlM_cons]
    by_cases hsafe : TurnSafe tree target before top.id
    · obtain ⟨tree'', hmove, hnext⟩ := h.returns htarget htop hquery hsafe
      rw [hmove, Except.ok_bind, and_iff_right hsafe]
      exact ih hnext hrest
    · refine iff_of_false ?_ fun hand => hsafe hand.1
      rintro ⟨final, hrun, hperm⟩
      obtain ⟨tree'', hmove, hrun⟩ := Except.bind_eq_ok.1 hrun
      have hlost := h.loses htarget htop hquery hne hsafe hmove
      exact absurd hperm.length_eq (loses_run (fun i hi => (hrest i hi).2) hlost hrun).ne

/-- The names of indexes that do not persist are empty, which is not good. -/
theorem row_of_nameIsGood {indexList : List Index} (h : moveNamesAreGood tree indexList target)
    (htype : ∀ i ∈ indexList, tree.itemType i ≠ .object) :
    ∀ i ∈ indexList, ∃ row ∈ tree.rows, row.id = i ∧ row.data.isQuery = true := by
  intro i hi
  have hname := (nameIsGood_iff.1 (List.all_eq_true.1 h i hi)).1
  cases hrow : tree.row? i with
  | none => exact absurd (by rw [QueryTree.displayName, hrow]; rfl) hname
  | some row =>
    obtain ⟨hmem, rfl⟩ := Forest.row?_eq_some.1 hrow
    refine ⟨row, hmem, rfl, ?_⟩
    have hobject := htype row.id hi
    rw [itemType_of_mem hmem] at hobject
    cases hdata : row.data with
    | folder _ _ => rfl
    | item _ => rfl
    | object _ => exact absurd (congrArg QueryNode.type hdata) hobject

theorem consoleQueryMove_keeps_iff {indexList : List Index} (htarget : tree.Valid target)
    (hne : target ∉ indexList) (htype : ∀ i ∈ indexList, tree.itemType i ≠ .object) :
    KeepsQueries tree (consoleQueryMove tree indexList target true) ↔
      moveNamesAreGood tree indexList target = false ∨ MovesSafely tree target indexList := by
  rw [consoleQueryMove]
  split_ifs with hnames
  · rw [hnames, or_iff_right Bool.noConfusion]
    refine keeps_run afterTurns_nil htarget fun i hi => ⟨?_, ?_⟩
    · exact fun heq => hne (heq ▸ hi)
    · exact row_of_nameIsGood hnames htype i hi
  · exact iff_of_true ⟨tree, rfl, .refl _⟩ (.inl (Bool.eq_false_of_not_eq_true hnames))

end

/-- Dropping query items and query folders, where it is permitted, and pasting them after
    they have been cut, loses nothing exactly when there is a name conflict, which prevents
    the move, or all turns of the move are safe. -/
theorem move_keeps_iff (tree : QueryTree) (target : Index) (htarget : tree.Valid target) :
    (∀ droppedList, queryFolderCanDrop tree droppedList target = true →
      (KeepsQueries tree (queryFolderDrop tree droppedList target) ↔
        moveNamesAreGood tree droppedList target = false ∨
          MovesSafely tree target droppedList)) ∧
    ∀ cutList : List Index, target ∉ cutList → (∀ i ∈ cutList, tree.itemType i ≠ .object) →
      (KeepsQueries tree (queryFolderPaste tree ⟨cutList, true⟩ target) ↔
        moveNamesAreGood tree cutList target = false ∨ MovesSafely tree target cutList) := by
  refine ⟨fun droppedList hdrop => ?_, fun cutList hne htype => ?_⟩
  · rw [queryFolderCanDrop] at hdrop
    split_ifs at hdrop with hmem
    refine consoleQueryMove_keeps_iff htarget
      (of_decide_eq_false (Bool.eq_false_of_not_eq_true hmem)) ?_
    intro i hi hobject
    have htype := List.all_eq_true.1 hdrop _ (List.mem_map_of_mem hi)
    rw [hobject] at htype
    exact absurd htype (by decide)
  · have hpaste : queryFolderPaste tree ⟨cutList, true⟩ target =
        consoleQueryMove tree cutList target true := by
      simp [queryFolderPaste, hne]
    rw [hpaste]
    exact consoleQueryMove_keeps_iff htarget hne htype

/-- A folder F with a folder G in it. -/
def nestedFolders : QueryTree :=
  (Forest.empty.add (.folder ['F'] []) 0 (by decide)).add (.folder ['G'] []) 1 (by decide)

/-- Folders X, T and Z in the root folder. -/
def threeFolders : QueryTree :=
  ((Forest.empty.add (.folder ['X'] []) 0 (by decide)).add (.folder ['T'] []) 0
    (by decide)).add (.folder ['Z'] []) 0 (by decide)

/-- Folders are dropped on the one between them. -/
theorem move_keeps_iff_three :
    threeFolders.Valid 2 ∧ queryFolderCanDrop threeFolders [1, 3] 2 = true ∧
      (KeepsQueries threeFolders (queryFolderDrop threeFolders [1, 3] 2) ↔
        moveNamesAreGood threeFolders [1, 3] 2 = false ∨ MovesSafely threeFolders 2 [1, 3]) :=
  ⟨by decide, by decide, (move_keeps_iff threeFolders 2 (by decide)).1 [1, 3] (by decide)⟩

/-- Dropping F on G, which is in it, loses both; and dropping X and Z on T, which is between
    them, loses Z. -/
theorem not_move_keeps :
    queryFolderCanDrop nestedFolders [1] 2 = true ∧
      (queryFolderDrop nestedFolders [1] 2).map QueryTree.queries = .ok [] ∧
      ¬KeepsQueries nestedFolders (queryFolderDrop nestedFolders [1] 2) ∧
      queryFolderCanDrop threeFolders [1, 3] 2 = true ∧
      (queryFolderDrop threeFolders [1, 3] 2).map QueryTree.queries =
        .ok [.folder ['X'] [], .folder ['T'] []] ∧
      ¬KeepsQueries threeFolders (queryFolderDrop threeFolders [1, 3] 2) := by
  have hlost : ∀ {tree : QueryTree} {outcome} {queries : List QueryNode},
      outcome.map QueryTree.queries = .ok queries → queries.length < tree.queries.length →
        ¬KeepsQueries tree outcome := by
    rintro tree _ queries houtcome hlength ⟨tree', rfl, hperm⟩
    rw [← Except.ok.inj houtcome, hperm.length_eq] at hlength
    exact lt_irrefl _ hlength
  have hnested : (queryFolderDrop nestedFolders [1] 2).map QueryTree.queries = .ok [] := by
    decide
  have hthree : (queryFolderDrop threeFolders [1, 3] 2).map QueryTree.queries =
      .ok [.folder ['X'] [], .folder ['T'] []] := by
    decide
  exact ⟨by decide, hnested, hlost hnested (by decide), by decide, hthree,
    hlost hthree (by decide)⟩

end Admc
