import Admc.Console.MoveAndRename
import Admc.Lib.Run
import Admc.Lib.StackLoop
import Mathlib.Data.List.Flatten

/-!
# Back and forward

The items that have been shown in a console are kept in two lists. Whenever another item is
shown the first list gets the one before it and the second one is cleared; going back and
forward put the lists right afterwards. Items that are about to be removed are taken out of
both.

`historyLaws_of_run`: in every state of a run the lists have items that exist, back and forward
undo each other, and showing another item records the one before it only.
-/

namespace Admc

/-- `ConsoleWidgetPrivate`, as far as navigation goes. An index that is not valid is 0 or the
    number of no row. -/
structure ConsoleNavigation where
  model : ConsoleTree
  currentScope : Option ℕ
  targetsPast : List ℕ
  targetsFuture : List ℕ

namespace ConsoleNavigation

variable (d : ConsoleNavigation)

/-- `ConsoleWidgetPrivate::on_current_scope_item_changed`. -/
def onCurrentScopeItemChanged (current previous : Option ℕ) : ConsoleNavigation :=
  if current.isNone then d
  else
    { d with
      targetsPast := d.targetsPast ++ if previous ≠ current then previous.toList else []
      targetsFuture := [] }

/-- `ConsoleWidget::set_current_scope`: there is no signal if the item is the current one. -/
def setCurrentScope (index : ℕ) : ConsoleNavigation :=
  let current := (d.model.row? index).map Row.id
  if current = d.currentScope then d
  else { d with currentScope := current }.onCurrentScopeItemChanged current d.currentScope

/-- `ConsoleWidgetPrivate::on_navigate_up`. -/
def onNavigateUp : ConsoleNavigation :=
  match d.currentScope with
  | none => d
  | some oldCurrent =>
    let newCurrent := d.model.parent oldCurrent
    if newCurrent ≠ 0 then d.setCurrentScope newCurrent else d

/-- `ConsoleWidgetPrivate::on_navigate_back`. -/
def onNavigateBack : ConsoleNavigation :=
  match d.currentScope, d.targetsPast.getLast? with
  | some oldCurrent, some newCurrent =>
    { d.setCurrentScope newCurrent with
      targetsPast := d.targetsPast.dropLast
      targetsFuture := oldCurrent :: d.targetsFuture }
  | _, _ => d

/-- `ConsoleWidgetPrivate::on_navigate_forward`. -/
def onNavigateForward : ConsoleNavigation :=
  match d.currentScope, d.targetsFuture.head? with
  | some oldCurrent, some newCurrent =>
    { d.setCurrentScope newCurrent with
      targetsPast := d.targetsPast ++ [oldCurrent]
      targetsFuture := d.targetsFuture.tail }
  | _, _ => d

/-- The loop of `ConsoleWidgetPrivate::on_scope_items_about_to_be_removed`. -/
def removedScopeItems (model : ConsoleTree) (rows : List ℕ) : List ℕ :=
  match stackLoop () (fun removed item => .ok (removed ++ [item], model.children item))
    (model.rows.length + 1) [] rows.reverse with
  | .ok removed => removed
  | .error _ => [] -- the loop ends: `mem_removedScopeItems`

/-- `ConsoleWidgetPrivate::on_scope_items_about_to_be_removed`. -/
def onScopeItemsAboutToBeRemoved (rows : List ℕ) : ConsoleNavigation :=
  (removedScopeItems d.model rows).foldl (fun d index =>
    { d with
      targetsPast := d.targetsPast.filter (· ≠ index)
      targetsFuture := d.targetsFuture.filter (· ≠ index) }) d

/-- The rows below an item, from one to another. -/
def rowsBetween (parent first last : ℕ) : List ℕ :=
  ((d.model.children parent).drop first).take (last + 1 - first)

/-- The item is at or below one of the rows. -/
def IsRemoved (model : ConsoleTree) (rows : List ℕ) (index : ℕ) : Prop :=
  ∃ row ∈ rows, row ∈ model.chain index

instance decidableIsRemoved (model : ConsoleTree) (rows : List ℕ) (index : ℕ) :
    Decidable (IsRemoved model rows index) :=
  inferInstanceAs (Decidable (∃ row ∈ rows, row ∈ model.chain index))

/-- Rows are removed from the model. If the current item is among them, or below one, the
    selection moves to the next one before. -/
def removeRows (parent first last next : ℕ) : ConsoleNavigation :=
  let rows := d.rowsBetween parent first last
  let moved := if d.currentScope.any fun current => IsRemoved d.model rows current
    then d.setCurrentScope next else d
  { moved.onScopeItemsAboutToBeRemoved rows with
    model := rows.foldl ConsoleTree.deleteItem d.model }

/-- `ConsoleWidget::delete_item`. -/
def deleteItem (index next : ℕ) : ConsoleNavigation :=
  if (d.model.row? index).isNone then d
  else
    let parent := d.model.parent index
    let row := (d.model.children parent).idxOf index
    let moved := if d.currentScope = some index then d.setCurrentScope parent else d
    moved.removeRows parent row row next

end ConsoleNavigation

/-- What happens in a console. -/
inductive NavigationEvent
  | select (index : ℕ)
  | up
  | back
  | forward
  | addItem (type : ConsoleItemType) (parent : ℕ) (dn : String)
  | removeRows (parent first last next : ℕ)
  | deleteItem (index next : ℕ)

namespace ConsoleNavigation

/-- An item of the model. -/
def IsItem (model : ConsoleTree) (index : ℕ) : Prop := ∃ row ∈ model.rows, row.id = index

instance decidableIsItem (model : ConsoleTree) (index : ℕ) : Decidable (IsItem model index) :=
  inferInstanceAs (Decidable (∃ row ∈ model.rows, row.id = index))

/-- The user selects a different item, and back and forward are offered only if there is
    something in their lists. The selection moves to an item that remains, if it moves. -/
def Offered (d : ConsoleNavigation) : NavigationEvent → Prop
  | .select index => IsItem d.model index ∧ d.currentScope ≠ some index
  | .up => True
  | .back => d.targetsPast ≠ []
  | .forward => d.targetsFuture ≠ []
  | .addItem .. => True
  | .removeRows parent first last next => ¬IsRemoved d.model (d.rowsBetween parent first last) next
  | .deleteItem index next => ¬IsRemoved d.model [index] next

/-- What an event does. -/
def handle (d : ConsoleNavigation) : NavigationEvent → ConsoleNavigation
  | .select index => d.setCurrentScope index
  | .up => d.onNavigateUp
  | .back => d.onNavigateBack
  | .forward => d.onNavigateForward
  | .addItem type parent dn => { d with model := ConsoleTree.addItem d.model type parent dn }
  | .removeRows parent first last next => d.removeRows parent first last next
  | .deleteItem index next => d.deleteItem index next

/-- A console starts with empty history. -/
def Starts (d : ConsoleNavigation) : Prop :=
  d.targetsPast = [] ∧ d.targetsFuture = [] ∧ ∀ index ∈ d.currentScope, IsItem d.model index

end ConsoleNavigation

/-! ## Removal -/

namespace ConsoleNavigation

section
variable {model : ConsoleTree} {rows : List ℕ} {index : ℕ}

/-- All items at and below the rows are found. -/
theorem mem_removedScopeItems {parent : ℕ} (hrows : rows.Sublist (model.children parent))
    (h : IsItem model index) :
    index ∈ removedScopeItems model rows ↔ IsRemoved model rows index := by
  -- The subtrees of the rows are parts of that of their parent.
  have hsublist : (rows.flatMap model.subtree).Sublist
      ((model.children parent).flatMap model.subtree) := hrows.flatMap _
  have hreverse : (rows.reverse.flatMap model.subtree).Perm (rows.flatMap model.subtree) :=
    (List.reverse_perm rows).flatMap_right _
  have hperm := Forest.subtree_perm (f := model) parent
  have hnodup : (rows.reverse.flatMap model.subtree).Nodup :=
    hreverse.nodup_iff.2 ((List.nodup_cons.1 (hperm.nodup_iff.1 Forest.nodup_subtree)).2.sublist
      hsublist)
  have hlength : (rows.reverse.flatMap model.subtree).length ≤ model.rows.length + 1 := by
    have hparent := (hperm.length_eq.symm.trans_le Forest.length_subtree_le)
    rw [List.length_cons] at hparent
    rw [hreverse.length_eq]
    exact hsublist.length_le.trans (Nat.le_of_succ_le hparent)
  have hloop : (stackLoop () (fun removed item => .ok (removed ++ [item], model.children item))
      (model.rows.length + 1) [] rows.reverse).Yields (fun _ => False) fun removed =>
        ∃ done, removed = done ∧ done.Perm (rows.reverse.flatMap model.subtree) :=
    stackLoop_tree_yields (fun removed done => removed = done) Forest.subtree_perm
      (fun removed done item h _ => by exact ⟨rfl, by rw [h]⟩) hnodup rfl hlength
  rw [removedScopeItems]
  split
  · rename_i removed hremoved
    rw [hremoved] at hloop
    obtain ⟨done, rfl, hdone⟩ := hloop
    have hvalid : model.Valid index := .inr h
    rw [(hdone.trans hreverse).mem_iff, List.mem_flatMap]
    exact exists_congr fun row => and_congr_right fun _ => Forest.mem_subtree_iff hvalid
  · rename_i hremoved
    rw [hremoved] at hloop
    exact hloop.elim

/-- What is left of the model. -/
theorem isItem_foldl_deleteItem : IsItem (rows.foldl ConsoleTree.deleteItem model) index ↔
    IsItem model index ∧ ¬IsRemoved model rows index := by
  rw [IsRemoved]
  constructor
  · rintro ⟨item, hitem, rfl⟩
    obtain ⟨hmem, hchain⟩ := Forest.mem_rows_foldl_remove.1 hitem
    exact ⟨⟨item, hmem, rfl⟩, fun ⟨row, hrow, habove⟩ => hchain row hrow habove⟩
  · rintro ⟨⟨item, hitem, rfl⟩, hnone⟩
    exact ⟨item, Forest.mem_rows_foldl_remove.2 ⟨hitem, fun row hrow habove =>
      hnone ⟨row, hrow, habove⟩⟩, rfl⟩

end

/-! ## What events do -/

section
variable {d : ConsoleNavigation} {index : ℕ}

/-- All items that the lists and the selection point to exist. -/
structure PointsToItems (d : ConsoleNavigation) : Prop where
  current : ∀ index ∈ d.currentScope, IsItem d.model index
  past : ∀ index ∈ d.targetsPast, IsItem d.model index
  future : ∀ index ∈ d.targetsFuture, IsItem d.model index

theorem model_setCurrentScope : (d.setCurrentScope index).model = d.model := by
  rw [setCurrentScope, onCurrentScopeItemChanged]
  dsimp only
  split_ifs <;> rfl

theorem currentScope_setCurrentScope :
    (d.setCurrentScope index).currentScope = (d.model.row? index).map Row.id := by
  rw [setCurrentScope, onCurrentScopeItemChanged]
  dsimp only
  split_ifs with hcurrent
  · exact hcurrent.symm
  all_goals rfl

theorem row?_of_isItem (h : IsItem d.model index) :
    (d.model.row? index).map Row.id = some index := by
  obtain ⟨row, hrow, rfl⟩ := h
  rw [Forest.row?_of_mem hrow]
  rfl

/-- Showing a different item records the one before it, and clears what is ahead. -/
theorem setCurrentScope_of_ne (h : IsItem d.model index) (hne : d.currentScope ≠ some index) :
    d.setCurrentScope index =
      ⟨d.model, some index, d.targetsPast ++ d.currentScope.toList, []⟩ := by
  rw [setCurrentScope, onCurrentScopeItemChanged]
  rw [row?_of_isItem h]
  dsimp only
  rw [if_neg hne.symm, if_neg (by simp), if_pos hne]

/-- What is done when another item is shown, or none. -/
theorem setCurrentScope_cases (index : ℕ) :
    d.setCurrentScope index = d ∨
    (¬IsItem d.model index ∧ d.setCurrentScope index = { d with currentScope := none }) ∨
    (IsItem d.model index ∧ d.setCurrentScope index =
      ⟨d.model, some index, d.targetsPast ++ d.currentScope.toList, []⟩) := by
  by_cases hitem : IsItem d.model index
  · by_cases hne : d.currentScope = some index
    · refine .inl ?_
      rw [setCurrentScope, row?_of_isItem hitem]
      exact if_pos hne.symm
    · exact .inr (.inr ⟨hitem, setCurrentScope_of_ne hitem hne⟩)
  · have hnone : d.model.row? index = none :=
      Forest.row?_eq_none.2 fun row hrow hid => hitem ⟨row, hrow, hid⟩
    rw [setCurrentScope, hnone]
    dsimp only [Option.map_none]
    split_ifs
    · exact .inl rfl
    · exact .inr (.inl ⟨hitem, rfl⟩)

theorem PointsToItems.setCurrentScope (h : d.PointsToItems) (index : ℕ) :
    (d.setCurrentScope index).PointsToItems := by
  obtain heq | ⟨-, heq⟩ | ⟨hitem, heq⟩ := d.setCurrentScope_cases index
  all_goals rw [heq]
  · exact h
  · exact ⟨nofun, h.past, h.future⟩
  · refine ⟨fun i hi => Option.mem_some.1 hi ▸ hitem, fun i hi => ?_, nofun⟩
    rcases List.mem_append.1 hi with hi | hi
    · exact h.past i hi
    · exact h.current i (Option.mem_toList.1 hi)

/-- The lists are put right after another item has been shown. -/
theorem PointsToItems.navigate (h : d.PointsToItems) (index : ℕ) {past future : List ℕ}
    (hpast : ∀ i ∈ past, IsItem d.model i) (hfuture : ∀ i ∈ future, IsItem d.model i) :
    PointsToItems
      { d.setCurrentScope index with targetsPast := past, targetsFuture := future } where
  current := (h.setCurrentScope index).current
  past := fun i hi => (@model_setCurrentScope d index).symm ▸ hpast i hi
  future := fun i hi => (@model_setCurrentScope d index).symm ▸ hfuture i hi

theorem PointsToItems.onNavigateBack (h : d.PointsToItems) : d.onNavigateBack.PointsToItems := by
  rw [ConsoleNavigation.onNavigateBack]
  split
  · rename_i oldCurrent newCurrent hold hnew
    refine h.navigate newCurrent (fun i hi => h.past i (List.dropLast_subset _ hi)) ?_
    exact List.forall_mem_cons.2 ⟨h.current oldCurrent hold, h.future⟩
  · exact h

theorem PointsToItems.onNavigateForward (h : d.PointsToItems) :
    d.onNavigateForward.PointsToItems := by
  rw [ConsoleNavigation.onNavigateForward]
  split
  · rename_i oldCurrent newCurrent hold hnew
    refine h.navigate newCurrent ?_ fun i hi => h.future i (List.mem_of_mem_tail hi)
    exact List.forall_mem_append.2 ⟨h.past,
      List.forall_mem_singleton.2 (h.current oldCurrent hold)⟩
  · exact h

theorem PointsToItems.onNavigateUp (h : d.PointsToItems) : d.onNavigateUp.PointsToItems := by
  rw [ConsoleNavigation.onNavigateUp]
  split
  · exact h
  · dsimp only
    split_ifs
    · exact h.setCurrentScope _
    · exact h

theorem onScopeItemsAboutToBeRemoved_eq (rows : List ℕ) :
    d.onScopeItemsAboutToBeRemoved rows =
      { d with
        targetsPast := d.targetsPast.filter (· ∉ removedScopeItems d.model rows)
        targetsFuture := d.targetsFuture.filter (· ∉ removedScopeItems d.model rows) } := by
  rw [onScopeItemsAboutToBeRemoved]
  induction removedScopeItems d.model rows generalizing d with
  | nil => simp
  | cons index removed ih =>
    rw [List.foldl_cons, ih]
    simp [List.filter_filter, Bool.and_comm]

theorem rowsBetween_sublist (parent first last : ℕ) :
    (d.rowsBetween parent first last).Sublist (d.model.children parent) :=
  (List.take_sublist _ _).trans (List.drop_sublist _ _)

/-- Rows are removed that the selection is not in. -/
theorem PointsToItems.remove (h : d.PointsToItems) {parent : ℕ} {rows : List ℕ}
    (hrows : rows.Sublist (d.model.children parent))
    (hcurrent : ∀ index ∈ d.currentScope, ¬IsRemoved d.model rows index) :
    PointsToItems { d.onScopeItemsAboutToBeRemoved rows with
      model := rows.foldl ConsoleTree.deleteItem d.model } := by
  -- What is taken out of a list is what does not remain.
  have hremain : ∀ {index : ℕ}, IsItem d.model index →
      index ∉ removedScopeItems d.model rows →
      IsItem (rows.foldl ConsoleTree.deleteItem d.model) index := fun hitem hremoved =>
    isItem_foldl_deleteItem.2 ⟨hitem, (mem_removedScopeItems hrows hitem).not.1 hremoved⟩
  rw [onScopeItemsAboutToBeRemoved_eq]
  refine ⟨fun index hindex => ?_, fun index hindex => ?_, fun index hindex => ?_⟩
  · exact isItem_foldl_deleteItem.2 ⟨h.current index hindex, hcurrent index hindex⟩
  · obtain ⟨hmem, hremoved⟩ := List.mem_filter.1 hindex
    exact hremain (h.past index hmem) (of_decide_eq_true hremoved)
  · obtain ⟨hmem, hremoved⟩ := List.mem_filter.1 hindex
    exact hremain (h.future index hmem) (of_decide_eq_true hremoved)

theorem PointsToItems.removeRows (h : d.PointsToItems) {parent first last next : ℕ}
    (hnext : ¬IsRemoved d.model (d.rowsBetween parent first last) next) :
    (d.removeRows parent first last next).PointsToItems := by
  unfold ConsoleNavigation.removeRows
  dsimp only
  split_ifs with hremoved
  · -- The selection moves away from what is removed.
    have hrows : (d.rowsBetween parent first last).Sublist
        ((d.setCurrentScope next).model.children parent) := by
      rw [model_setCurrentScope]
      exact rowsBetween_sublist parent first last
    have hstays : ∀ index ∈ (d.setCurrentScope next).currentScope,
        ¬IsRemoved (d.setCurrentScope next).model (d.rowsBetween parent first last) index := by
      intro index hindex
      rw [currentScope_setCurrentScope] at hindex
      obtain ⟨row, hrow, rfl⟩ := Option.map_eq_some_iff.1 hindex
      rw [model_setCurrentScope, (Forest.row?_eq_some.1 hrow).2]
      exact hnext
    have hpoints := (h.setCurrentScope next).remove hrows hstays
    rwa [model_setCurrentScope] at hpoints
  · refine h.remove (rowsBetween_sublist parent first last) fun index hindex hcurrent => ?_
    rw [Option.mem_def.1 hindex] at hremoved
    exact hremoved (decide_eq_true hcurrent)

/-- The row of an item among those below its parent. -/
theorem rowsBetween_idxOf {model : ConsoleTree} (hmodel : d.model = model)
    (h : IsItem model index) :
    d.rowsBetween (model.parent index) ((model.children (model.parent index)).idxOf index)
      ((model.children (model.parent index)).idxOf index) = [index] := by
  subst hmodel
  obtain ⟨row, hrow, rfl⟩ := h
  have hmem : row.id ∈ d.model.children (d.model.parent row.id) :=
    Forest.mem_children.2 ⟨row, hrow, rfl, (Forest.parent_of_mem hrow).symm⟩
  have hlt := List.idxOf_lt_length_iff.2 hmem
  rw [rowsBetween, Nat.add_sub_cancel_left, List.drop_eq_getElem_cons hlt, List.getElem_idxOf hlt]
  rfl

theorem PointsToItems.deleteItem (h : d.PointsToItems) {index next : ℕ}
    (hnext : ¬IsRemoved d.model [index] next) : (d.deleteItem index next).PointsToItems := by
  rw [ConsoleNavigation.deleteItem]
  dsimp only
  split_ifs with hnone hcurrent
  · exact h
  all_goals
    have hitem : IsItem d.model index := by
      obtain ⟨row, hrow⟩ := Option.ne_none_iff_exists'.1 (mt Option.isNone_iff_eq_none.2 hnone)
      exact ⟨row, Forest.row?_eq_some.1 hrow⟩
  · refine (h.setCurrentScope _).removeRows ?_
    rw [rowsBetween_idxOf model_setCurrentScope hitem, model_setCurrentScope]
    exact hnext
  · refine h.removeRows ?_
    rw [rowsBetween_idxOf rfl hitem]
    exact hnext

/-- Each event leaves the lists with items that exist. -/
theorem PointsToItems.handle (h : d.PointsToItems) {event : NavigationEvent}
    (hoffered : d.Offered event) : (d.handle event).PointsToItems := by
  cases event with
  | select index => exact h.setCurrentScope index
  | up => exact h.onNavigateUp
  | back => exact h.onNavigateBack
  | forward => exact h.onNavigateForward
  | addItem type parent dn =>
    have hadd : ∀ {index : ℕ}, IsItem d.model index →
        IsItem (ConsoleTree.addItem d.model type parent dn) index := by
      rintro index ⟨row, hrow, rfl⟩
      rw [ConsoleTree.addItem]
      split_ifs
      · exact ⟨row, List.mem_cons_of_mem _ hrow, rfl⟩
      · exact ⟨row, hrow, rfl⟩
    exact ⟨fun i hi => hadd (h.current i hi), fun i hi => hadd (h.past i hi),
      fun i hi => hadd (h.future i hi)⟩
  | removeRows parent first last next => exact h.removeRows hoffered
  | deleteItem index next => exact h.deleteItem hoffered

/-! ## The laws of a history -/

/-- Showing an item and putting the lists right. -/
theorem navigate_eq (h : IsItem d.model index) (past future : List ℕ) :
    { d.setCurrentScope index with targetsPast := past, targetsFuture := future } =
      (⟨d.model, some index, past, future⟩ : ConsoleNavigation) := by
  have hcurrent := @currentScope_setCurrentScope d index
  rw [row?_of_isItem h] at hcurrent
  dsimp only
  rw [hcurrent, model_setCurrentScope]

variable {model : ConsoleTree} {past future : List ℕ} {oldCurrent newCurrent : ℕ}

theorem onNavigateBack_eq (h : IsItem model newCurrent) :
    onNavigateBack ⟨model, some oldCurrent, past ++ [newCurrent], future⟩ =
      ⟨model, some newCurrent, past, oldCurrent :: future⟩ := by
  simp only [onNavigateBack, List.getLast?_concat, List.dropLast_concat]
  exact navigate_eq h past (oldCurrent :: future)

theorem onNavigateForward_eq (h : IsItem model newCurrent) :
    onNavigateForward ⟨model, some oldCurrent, past, newCurrent :: future⟩ =
      ⟨model, some newCurrent, past ++ [oldCurrent], future⟩ :=
  navigate_eq h (past ++ [oldCurrent]) future

theorem onNavigateForward_onNavigateBack (h : d.PointsToItems) (hpast : d.targetsPast ≠ []) :
    d.onNavigateBack.onNavigateForward = d := by
  obtain ⟨model, current, past, future⟩ := d
  obtain ⟨past, newCurrent, rfl⟩ := (List.eq_nil_or_concat' past).resolve_left hpast
  cases current with
  | none => rfl
  | some oldCurrent =>
    have hnew : IsItem model newCurrent :=
      h.past newCurrent (List.mem_append_right past (List.mem_singleton_self newCurrent))
    rw [onNavigateBack_eq hnew, onNavigateForward_eq (h.current oldCurrent rfl)]

theorem onNavigateBack_onNavigateForward (h : d.PointsToItems) (hfuture : d.targetsFuture ≠ []) :
    d.onNavigateForward.onNavigateBack = d := by
  obtain ⟨model, current, past, future⟩ := d
  obtain ⟨newCurrent, future, rfl⟩ := List.exists_cons_of_ne_nil hfuture
  cases current with
  | none => rfl
  | some oldCurrent =>
    have hnew : IsItem model newCurrent := h.future newCurrent List.mem_cons_self
    rw [onNavigateForward_eq hnew, onNavigateBack_eq (h.current oldCurrent rfl)]

/-- The lists have items that exist; back and then forward, or forward and then back, restore
    the state; showing a different item leaves nothing ahead, and records the item that was
    shown only. -/
structure HistoryLaws (d : ConsoleNavigation) : Prop where
  exist : ∀ index ∈ d.targetsPast ++ d.targetsFuture, IsItem d.model index
  forward_back : d.targetsPast ≠ [] → d.onNavigateBack.onNavigateForward = d
  back_forward : d.targetsFuture ≠ [] → d.onNavigateForward.onNavigateBack = d
  select : ∀ index, IsItem d.model index → d.currentScope ≠ some index →
    d.setCurrentScope index =
      ⟨d.model, some index, d.targetsPast ++ d.currentScope.toList, []⟩

/-- The laws hold in every state of a run. -/
theorem historyLaws_of_run (h : Run Starts Offered handle d) : d.HistoryLaws := by
  have hpoints : d.PointsToItems := by
    refine h.invariant (fun d hstarts => ?_) fun d event h hoffered => h.handle hoffered
    obtain ⟨hpast, hfuture, hcurrent⟩ := hstarts
    exact ⟨hcurrent, by rw [hpast]; exact nofun, by rw [hfuture]; exact nofun⟩
  exact
    { exist := List.forall_mem_append.2 ⟨hpoints.past, hpoints.future⟩
      forward_back := onNavigateForward_onNavigateBack hpoints
      back_forward := onNavigateBack_onNavigateForward hpoints
      select := fun index hitem hne => setCurrentScope_of_ne hitem hne }

/-- A domain, which is shown, with a unit. -/
def domainAndUnit : ConsoleNavigation where
  model := ConsoleTree.addItem (ConsoleTree.addItem Forest.empty .object 0 "DC=alt") .object 1
    "OU=a,DC=alt"
  currentScope := some 1
  targetsPast := []
  targetsFuture := []

theorem run_domainAndUnit : Run Starts Offered handle
    ((domainAndUnit.handle (.select 2)).handle .back) := by
  have hstarts : Starts domainAndUnit := by
    refine ⟨rfl, rfl, fun index hindex => ?_⟩
    rw [← Option.some.inj hindex]
    decide
  have hselect : domainAndUnit.Offered (.select 2) :=
    ⟨by decide, by decide⟩
  have hback : (domainAndUnit.handle (.select 2)).Offered .back :=
    show (domainAndUnit.handle (.select 2)).targetsPast ≠ [] by decide
  exact .next (.next (.start hstarts) hselect) hback

/-- The unit is selected, then the user goes back, and the unit is deleted. -/
theorem historyLaws_of_run_deleted :
    (((domainAndUnit.handle (.select 2)).handle .back).handle (.deleteItem 2 1)).HistoryLaws :=
  historyLaws_of_run (run_domainAndUnit.next
    (show ¬IsRemoved ((domainAndUnit.handle (.select 2)).handle .back).model [2] 1 by decide))

end

end ConsoleNavigation

end Admc
