import Admc.Console.MoveAndRename
import Admc.Interface.Deletion

/-!
# Deleted objects in the console

Each of the selected objects is deleted on the server, with all below it. After that, the rows
with the DNs of those whose deletion has been a success are deleted in all trees of the
consoles, with the rows below them.

`noRowOutlives_iff`: no row of an object is left that the deletions have taken, and no other
row is lost, exactly when the trees show the objects that have been taken at or below rows of
those that are selected and deleted, and nothing else there.
-/

namespace Admc

/-- The trees of a console in which the rows of objects are deleted. -/
structure DeletionConsole where
  domainObjectTree : Option ConsoleTree
  passwordSettingsTree : Option ConsoleTree
  sitesContainerTree : Option ConsoleTree
  queryTree : Option ConsoleTree
  findObjectTree : Option ConsoleTree
  policyTree : Option ConsoleTree

/-- The trees as `get_root_list` lists them and that of policies at last, each with the type of
    the rows that are deleted in it. -/
def DeletionConsole.trees (console : DeletionConsole) : List (ConsoleItemType × ConsoleTree) :=
  (console.domainObjectTree.toList ++ console.passwordSettingsTree.toList ++
      console.sitesContainerTree.toList ++ console.queryTree.toList ++
      console.findObjectTree.toList).map (Prod.mk .object) ++
    console.policyTree.toList.map (Prod.mk .policyOu)

/-- The rows with the DNs are deleted in a console. -/
def deleteRows (deletedList : List String) (console : DeletionConsole) : DeletionConsole :=
  let deleteObjects := fun tree => consoleObjectDeleteDnList tree deletedList .object
  { domainObjectTree := console.domainObjectTree.map deleteObjects
    passwordSettingsTree := console.passwordSettingsTree.map deleteObjects
    sitesContainerTree := console.sitesContainerTree.map deleteObjects
    queryTree := console.queryTree.map deleteObjects
    findObjectTree := console.findObjectTree.map deleteObjects
    policyTree := console.policyTree.map fun tree =>
      consoleObjectDeleteDnList tree deletedList .policyOu }

/-- What is read from a selected row: `dn_role` and `ObjectRole_ObjectClasses`. -/
structure SelectedObject where
  dn : String
  objClasses : List String

section
variable {σ : Type} (g : Globals) (ldap : Ldap σ) (ndr : Ndr)
  (objectUpdateDelete : σ → String → String → σ)

/-- One selected object is deleted on the server. What `object_update_delete` does there to the
    attributes of other objects is given. -/
def deleteSelected (state : σ × List String) (selected : SelectedObject) :
    Except Fault (σ × List String) := do
  let (s, success) ← objectDelete g ldap ndr state.1 selected.dn
  if success then
    return (objectUpdateDelete s (selected.objClasses.getLastD "") selected.dn,
      state.2 ++ [selected.dn])
  else return (s, state.2)

/-- `console_object_delete`, once it has been confirmed. -/
def consoleObjectDelete (consoleList : List DeletionConsole) (s : σ)
    (indexList : List SelectedObject) : Except Fault (σ × List DeletionConsole) := do
  let (s, deletedList) ← indexList.foldlM (deleteSelected g ldap ndr objectUpdateDelete) (s, [])
  return (s, consoleList.map (deleteRows deletedList))

/-- An object with the DN is selected, and the server's answers make its deletion a success. -/
def DeleteSucceeds (dn : String) : σ → List SelectedObject → Prop
  | _, [] => False
  | s, selected :: indexList =>
    match objectDelete g ldap ndr s selected.dn with
    | .ok (s, true) => selected.dn = dn ∨ DeleteSucceeds dn
        (objectUpdateDelete s (selected.objClasses.getLastD "") selected.dn) indexList
    | .ok (s, false) => DeleteSucceeds dn s indexList
    | .error _ => False

end

/-! ## Rows of objects -/

section
variable {ε : Type} (tree : EntryTree ε)

/-- The item is of type `ItemType_Object` or `ItemType_PolicyOU`, and has the DN of an entry. -/
def ConsoleItem.IsOf (item : ConsoleItem) (e : ε) : Prop :=
  (item.type = .object ∨ item.type = .policyOu) ∧
    ∃ dn, item.dn = some dn ∧ tree.resolve dn = some e

/-- A tree has no rows of objects that are not there any more, and has not lost the rows of
    those that are there. -/
def NoRowOutlives (present present' : Set ε) (before after : ConsoleTree) : Prop :=
  ∀ (e : ε) (row : Row ConsoleItem), row.data.IsOf tree e →
    (e ∈ present → e ∉ present' → row ∉ after.rows) ∧
    (e ∈ present' → row ∈ before.rows → row ∈ after.rows)

/-- The row is one that is looked for, or below one. -/
def IsAtOrBelow (rows : ConsoleTree) (type : ConsoleItemType) (deleted : String → Prop)
    (row : Row ConsoleItem) : Prop :=
  ∃ row' ∈ rows.rows, row'.id ∈ rows.chain row.id ∧
    ∃ dn, deleted dn ∧ row'.data.matches type dn = true

/-- The rows of the objects that have been taken are at or below those that are looked for, and
    the rows of the other objects are not. -/
def ShowsTakenBelow (present present' : Set ε) (deleted : String → Prop)
    (type : ConsoleItemType) (rows : ConsoleTree) : Prop :=
  ∀ row ∈ rows.rows, ∀ e, row.data.IsOf tree e →
    (e ∈ present → e ∉ present' → IsAtOrBelow rows type deleted row) ∧
    (e ∈ present' → ¬IsAtOrBelow rows type deleted row)

end

/-! ## What is deleted -/

section
variable {σ : Type} {g : Globals} {ldap : Ldap σ} {ndr : Ndr}
  {objectUpdateDelete : σ → String → String → σ} {indexList : List SelectedObject}
  {deletedList : List String}

/-- The rows that are looked for are those of the objects that are deleted. -/
theorem mem_deletedList {s s' : σ} {initial : List String} {dn : String}
    (h : indexList.foldlM (deleteSelected g ldap ndr objectUpdateDelete) (s, initial) =
      .ok (s', deletedList)) :
    dn ∈ deletedList ↔ dn ∈ initial ∨
      DeleteSucceeds g ldap ndr objectUpdateDelete dn s indexList := by
  induction indexList generalizing s initial with
  | nil =>
    obtain ⟨rfl, rfl⟩ := Prod.mk.inj (Except.ok.inj h)
    exact (or_iff_left id).symm
  | cons selected indexList ih =>
    rw [List.foldlM_cons, deleteSelected] at h
    rw [DeleteSucceeds]
    cases hdelete : objectDelete g ldap ndr s selected.dn with
    | error fault =>
      rw [hdelete] at h
      exact nomatch h
    | ok answer =>
      obtain ⟨state, success⟩ := answer
      rw [hdelete] at h
      cases success with
      | false => exact ih h
      | true =>
        refine (ih h).trans ?_
        rw [List.mem_append, List.mem_singleton, or_assoc, @eq_comm _ dn]

theorem trees_deleteRows {console : DeletionConsole} :
    (deleteRows deletedList console).trees = console.trees.map fun searched =>
      (searched.1, consoleObjectDeleteDnList searched.2 deletedList searched.1) := by
  simp [DeletionConsole.trees, deleteRows, Option.toList_map, Function.comp_def]

/-- What deleting rows does to one tree. -/
theorem noRowOutlives_deleteDnList {ε : Type} {tree : EntryTree ε} {present present' : Set ε}
    {rows : ConsoleTree} {type : ConsoleItemType} :
    NoRowOutlives tree present present' rows (consoleObjectDeleteDnList rows deletedList type) ↔
      ShowsTakenBelow tree present present' (· ∈ deletedList) type rows := by
  have hmem : ∀ {row}, row ∈ (consoleObjectDeleteDnList rows deletedList type).rows ↔
      row ∈ rows.rows ∧ ¬IsAtOrBelow rows type (· ∈ deletedList) row := mem_deleteDnList_iff
  constructor
  · intro h row hrow e he
    refine ⟨fun hpresent hgone => ?_, fun hleft => ?_⟩
    · by_contra hnot
      exact (h e row he).1 hpresent hgone (hmem.2 ⟨hrow, hnot⟩)
    · exact (hmem.1 ((h e row he).2 hleft hrow)).2
  · intro h e row he
    refine ⟨fun hpresent hgone hrow => ?_, fun hleft hrow => ?_⟩
    · obtain ⟨hrow, hnot⟩ := hmem.1 hrow
      exact hnot ((h row hrow e he).1 hpresent hgone)
    · exact hmem.2 ⟨hrow, (h row hrow e he).2 hleft⟩

/-- After a deletion no row outlives its object, and no other row is lost, exactly when in
    each tree the objects that have been taken on the server, and no others, are shown at or
    below rows of selected objects that have been deleted. -/
theorem noRowOutlives_iff {ε : Type} (tree : EntryTree ε) (present : σ → Set ε) (g : Globals)
    (ldap : Ldap σ) (ndr : Ndr) (objectUpdateDelete : σ → String → String → σ)
    (consoleList consoleList' : List DeletionConsole) (s s' : σ)
    (indexList : List SelectedObject)
    (hrun : consoleObjectDelete g ldap ndr objectUpdateDelete consoleList s indexList =
      .ok (s', consoleList')) :
    List.Forall₂ (fun console console' =>
        List.Forall₂ (fun searched searched' =>
            NoRowOutlives tree (present s) (present s') searched.2 searched'.2)
          console.trees console'.trees) consoleList consoleList' ↔
      ∀ console ∈ consoleList, ∀ searched ∈ console.trees,
        ShowsTakenBelow tree (present s) (present s')
          (DeleteSucceeds g ldap ndr objectUpdateDelete · s indexList) searched.1 searched.2 := by
  rw [consoleObjectDelete] at hrun
  cases hloop : indexList.foldlM (deleteSelected g ldap ndr objectUpdateDelete) (s, []) with
  | error fault =>
    rw [hloop] at hrun
    exact nomatch hrun
  | ok result =>
    obtain ⟨state, deletedList⟩ := result
    rw [hloop] at hrun
    obtain ⟨rfl, rfl⟩ := Prod.mk.inj (Except.ok.inj hrun)
    have hdeleted : (· ∈ deletedList) =
        (DeleteSucceeds g ldap ndr objectUpdateDelete · s indexList) := by
      funext dn
      exact propext ((mem_deletedList hloop).trans (or_iff_right List.not_mem_nil))
    rw [List.forall₂_map_right_iff, List.forall₂_same]
    refine forall₂_congr fun console _ => ?_
    rw [trees_deleteRows, List.forall₂_map_right_iff, List.forall₂_same]
    refine forall₂_congr fun searched _ => ?_
    rw [noRowOutlives_deleteDnList, hdeleted]

end

/-! ### A unit with a user that has been found -/

/-- A console in which the user below the unit has been found. -/
def consoleWithFoundUser : DeletionConsole where
  domainObjectTree := none
  passwordSettingsTree := none
  sitesContainerTree := none
  queryTree := none
  findObjectTree := some (ConsoleTree.addItem
    (Forest.empty.addGround ⟨.findObject, none, true⟩) .object 1 "CN=user,OU=unit")
  policyTree := none

/-- The unit is selected, and deleted with the user. -/
theorem consoleObjectDelete_unit :
    consoleObjectDelete unitGlobals unitLdap sampleNdr (fun s _ _ => s) [consoleWithFoundUser]
        (true, true) [⟨"OU=unit", ["top", "organizationalUnit"]⟩] =
      .ok ((false, false), [deleteRows ["OU=unit"] consoleWithFoundUser]) := by
  have hloop : [(⟨"OU=unit", ["top", "organizationalUnit"]⟩ : SelectedObject)].foldlM
      (deleteSelected unitGlobals unitLdap sampleNdr fun s _ _ => s) ((true, true), []) =
        .ok ((false, false), ["OU=unit"]) := by
    decide
  rw [consoleObjectDelete, hloop]
  rfl

theorem noRowOutlives_iff_unit :
    List.Forall₂ (fun console console' =>
        List.Forall₂ (fun searched searched' =>
            NoRowOutlives unitTree (unitPresent (true, true)) (unitPresent (false, false))
              searched.2 searched'.2)
          console.trees console'.trees)
        [consoleWithFoundUser] [deleteRows ["OU=unit"] consoleWithFoundUser] ↔
      ∀ console ∈ [consoleWithFoundUser], ∀ searched ∈ console.trees,
        ShowsTakenBelow unitTree (unitPresent (true, true)) (unitPresent (false, false))
          (DeleteSucceeds unitGlobals unitLdap sampleNdr (fun s _ _ => s) · (true, true)
            [⟨"OU=unit", ["top", "organizationalUnit"]⟩]) searched.1 searched.2 :=
  noRowOutlives_iff unitTree unitPresent unitGlobals unitLdap sampleNdr (fun s _ _ => s)
    [consoleWithFoundUser] [deleteRows ["OU=unit"] consoleWithFoundUser] (true, true)
    (false, false) [⟨"OU=unit", ["top", "organizationalUnit"]⟩] consoleObjectDelete_unit

/-- The user has been deleted with the unit, and is still shown as found. -/
theorem not_noRowOutlives : ∃ consoleList',
    consoleObjectDelete unitGlobals unitLdap sampleNdr (fun s _ _ => s) [consoleWithFoundUser]
        (true, true) [⟨"OU=unit", ["top", "organizationalUnit"]⟩] =
      .ok ((false, false), consoleList') ∧
    ¬List.Forall₂ (fun console console' =>
        List.Forall₂ (fun searched searched' =>
            NoRowOutlives unitTree (unitPresent (true, true)) (unitPresent (false, false))
              searched.2 searched'.2)
          console.trees console'.trees) [consoleWithFoundUser] consoleList' := by
  refine ⟨_, consoleObjectDelete_unit, fun h => ?_⟩
  obtain ⟨hconsole, -⟩ := List.forall₂_cons.1 h
  obtain ⟨htree, -⟩ := List.forall₂_cons.1 hconsole
  -- the second row of the tree of what has been found
  have hrow : (⟨2, 1, ⟨.object, some "CN=user,OU=unit", false⟩⟩ : Row ConsoleItem) ∈
      (consoleObjectDeleteDnList ((consoleWithFoundUser.findObjectTree).getD Forest.empty)
        ["OU=unit"] .object).rows := by
    decide
  refine (htree true _ ⟨.inl rfl, _, rfl, ?_⟩).1 rfl Bool.false_ne_true hrow
  rfl

end Admc
