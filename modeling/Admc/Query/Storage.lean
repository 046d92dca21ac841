import Admc.Config
import Admc.Lib.StackLoop
import Admc.Query.Tree

/-!
# Storing saved queries

The tree is stored in two hash tables, whose keys are the paths of the query folders
and of the query items. The table of the folders has the paths of what is in them, and
that of the items has the data of the queries, as it is also exported to files.

* `saved_of_treeSave`: each query item and each query folder is found at its path in
  what `console_query_tree_save` has stored.
-/

namespace Admc

/-! ## Values -/

/-- A `QVariant` in the data of a query. -/
inductive QVariant
  | invalid
  | string (text : QString)
  | byteArray (bytes : QByteArray)
  | bool (value : Bool)
  | stringList (texts : List QString)
  /-- Another value, with the text and the truth value that it is converted to. -/
  | other (text : QString) (truth : Bool)
  deriving DecidableEq

namespace QVariant

/-- `QString::fromUtf8`, of ASCII bytes, which are all that is stored. -/
def textOfBytes (bytes : QByteArray) : QString :=
  bytes.map fun b => if b < 128 then Char.ofNat b.toNat else Char.ofNat 0xFFFD

/-- `QVariant::toString`. -/
def toString : QVariant → QString
  | string text => text
  | byteArray bytes => textOfBytes bytes
  | bool true => "true".toList
  | bool false => "false".toList
  | stringList [text] => text
  | other text _ => text
  | _ => []

/-- The texts that are true. -/
def isTrueText (text : QString) : Bool :=
  text ≠ [] && text ≠ ['0'] && text.map Char.toLower ≠ "false".toList

/-- `QVariant::toBool`. -/
def toBool : QVariant → Bool
  | bool value => value
  | string text => isTrueText text
  | byteArray bytes => isTrueText (textOfBytes bytes)
  | other _ truth => truth
  | _ => false

/-- `QVariant::toStringList`. -/
def toStringList : QVariant → List QString
  | stringList texts => texts
  | string text => [text]
  | byteArray bytes => [textOfBytes bytes]
  | _ => []

end QVariant

/-! ## Bytes as texts -/

/-- The digits of `QByteArray::toHex`. -/
def hexDigit (n : ℕ) : UInt8 := if n < 10 then .ofNat (48 + n) else .ofNat (87 + n)

/-- `QByteArray::toHex`. -/
def QByteArray.toHex (bytes : QByteArray) : QByteArray :=
  bytes.flatMap fun b => [hexDigit (b.toNat / 16), hexDigit (b.toNat % 16)]

/-- The value of a digit, of either letter case. -/
def hexDigitValue (c : Char) : Option ℕ :=
  if '0' ≤ c ∧ c ≤ '9' then some (c.toNat - 48)
  else if 'a' ≤ c ∧ c ≤ 'f' then some (c.toNat - 87)
  else if 'A' ≤ c ∧ c ≤ 'F' then some (c.toNat - 55)
  else none

/-- The bytes of digits, from the last byte and its lower digit on. -/
def bytesOfDigits : List ℕ → List UInt8
  | [] => []
  | [low] => [.ofNat low]
  | low :: high :: digits => .ofNat (16 * high + low) :: bytesOfDigits digits

/-- `QByteArray::fromHex`: what is no digit is skipped. -/
def QByteArray.fromHex (text : QString) : QByteArray :=
  (bytesOfDigits (text.filterMap hexDigitValue).reverse).reverse

theorem textOfBytes_hexDigit : ∀ n < 16,
    (QVariant.textOfBytes [hexDigit n]).filterMap hexDigitValue = [n] := by
  decide

theorem bytesOfDigits_flatMap (bytes : QByteArray) :
    bytesOfDigits (bytes.flatMap fun b => [b.toNat % 16, b.toNat / 16]) = bytes := by
  induction bytes with
  | nil => rfl
  | cons b bytes ih =>
    rw [List.flatMap_cons, List.cons_append, List.cons_append, List.nil_append, bytesOfDigits, ih,
      Nat.div_add_mod, UInt8.ofNat_toNat]

/-- Bytes that are written as digits are read again. -/
theorem fromHex_toHex (bytes : QByteArray) :
    QByteArray.fromHex (QVariant.textOfBytes (QByteArray.toHex bytes)) = bytes := by
  have hdigits : (QVariant.textOfBytes (QByteArray.toHex bytes)).filterMap hexDigitValue =
      bytes.flatMap fun b => [b.toNat / 16, b.toNat % 16] := by
    induction bytes with
    | nil => rfl
    | cons b bytes ih =>
      have hdiv : b.toNat / 16 < 16 := Nat.div_lt_of_lt_mul b.toNat_lt
      have hmod : b.toNat % 16 < 16 := Nat.mod_lt _ (by decide)
      have hcons : QVariant.textOfBytes (QByteArray.toHex (b :: bytes)) =
          QVariant.textOfBytes [hexDigit (b.toNat / 16)] ++
            (QVariant.textOfBytes [hexDigit (b.toNat % 16)] ++
              QVariant.textOfBytes (QByteArray.toHex bytes)) := rfl
      rw [hcons, List.filterMap_append, List.filterMap_append, textOfBytes_hexDigit _ hdiv,
        textOfBytes_hexDigit _ hmod, ih]
      rfl
  rw [QByteArray.fromHex, hdigits, List.reverse_flatMap]
  exact (congrArg List.reverse (bytesOfDigits_flatMap bytes.reverse)).trans
    (List.reverse_reverse bytes)

/-! ## The data of a query -/

/-- `console_query_item_save_hash`. -/
def consoleQueryItemSaveHash (query : QueryItem) : QHash String QVariant :=
  [("name", .string query.name),
   ("description", .string query.description),
   ("base", .string query.base),
   ("filter", .string query.filter),
   ("filter_state", .byteArray (QByteArray.toHex query.filterState)),
   ("scope_is_children", .bool query.scopeIsChildren)]

/-- The data of a query in `console_query_item_load_hash`. -/
def queryOfHash (data : QHash String QVariant) : QueryItem where
  name := (data.value "name" .invalid).toString
  description := (data.value "description" .invalid).toString
  base := (data.value "base" .invalid).toString
  scopeIsChildren := (data.value "scope_is_children" .invalid).toBool
  filter := (data.value "filter" .invalid).toString
  filterState := QByteArray.fromHex (data.value "filter_state" .invalid).toString

/-- `console_query_item_load_hash`. -/
def consoleQueryItemLoadHash (tree : QueryTree) (data : QHash String QVariant)
    (parentIndex : Index) : Except QueryFault QueryTree :=
  if data.isEmpty then .ok tree
  else
    let query := queryOfHash data
    if !consoleQueryOrFolderNameIsGood query.name (tree.getSiblingNameList parentIndex none) then
      .ok tree
    else do
      let (tree, _) ← QueryTree.addScopeItem tree (.item query) (some parentIndex)
      return tree

theorem queryOfHash_saveHash (query : QueryItem) :
    queryOfHash (consoleQueryItemSaveHash query) = query := by
  simp [queryOfHash, consoleQueryItemSaveHash, QVariant.toString, QVariant.toBool, fromHex_toHex]

/-! ## Saving -/

/-- The settings of the saved queries, by the paths of the folders and of the items. -/
structure QuerySettings where
  folderList : QHash QString (QHash String QVariant)
  itemList : QHash QString (QHash String QVariant)

/-- The data of a folder in `console_query_tree_save`: the root folder is stored without a
    name and a description. -/
def folderHash (tree : QueryTree) (index : Index) : QHash String QVariant :=
  let childList := (tree.children index).map tree.consoleQueryFolderPath
  match (tree.row? index).map Row.data with
  | some (.folder name description) =>
    [("name", .string name), ("description", .string description),
     ("child_list", .stringList childList)]
  | _ => [("child_list", .stringList childList)]

/-- The body of the loop of `console_query_tree_save`. -/
def saveItem (tree : QueryTree) (settings : QuerySettings) (index : Index) :
    Except QueryFault (QuerySettings × List Index) :=
  let path := tree.consoleQueryFolderPath index
  let settings := match (tree.row? index).map Row.data with
    | some (.object _) => settings
    | some (.item query) =>
      { settings with itemList := settings.itemList.insert path (consoleQueryItemSaveHash query) }
    | _ =>
      { settings with folderList := settings.folderList.insert path (folderHash tree index) }
  .ok (settings, tree.children index)

/-- `console_query_tree_save`. -/
def consoleQueryTreeSave (tree : QueryTree) : Except QueryFault QuerySettings :=
  stackLoop .unfinished (saveItem tree) (tree.rows.length + 1) ⟨[], []⟩ [0]

/-- The folders and items among some indexes are found at their paths in the settings, and
    there are no other items in these. -/
structure SavedAt (tree : QueryTree) (settings : QuerySettings) (done : List Index) : Prop where
  folder : ∀ i ∈ done, tree.IsFolder i →
    settings.folderList.contains (tree.consoleQueryFolderPath i) = true ∧
      settings.folderList.value (tree.consoleQueryFolderPath i) [] = folderHash tree i
  item : ∀ row ∈ tree.rows, row.id ∈ done → ∀ query, row.data = .item query →
    settings.itemList.contains (tree.consoleQueryFolderPath row.id) = true ∧
      settings.itemList.value (tree.consoleQueryFolderPath row.id) [] =
        consoleQueryItemSaveHash query
  item_only : ∀ path, settings.itemList.contains path = true →
    ∃ row ∈ tree.rows, ∃ query, row.data = .item query ∧
      tree.consoleQueryFolderPath row.id = path

section
variable {tree : QueryTree} {settings : QuerySettings} {done : List Index} {row : Row QueryNode}
  {i : Index}

theorem QueryTree.IsFolder.of_mem (h : tree.IsFolder row.id) (hrow : row ∈ tree.rows) :
    row.data.isFolder = true := by
  obtain hzero | ⟨row', hrow', hid, hfolder⟩ := h
  · exact absurd hzero (Forest.id_pos hrow).ne'
  · rwa [Forest.row_eq_of_id hrow' hrow hid] at hfolder

/-- The root folder, and any folder, is stored in the table of the folders. -/
theorem saveItem_folder (h : tree.IsFolder i) : saveItem tree settings i =
    .ok (⟨settings.folderList.insert (tree.consoleQueryFolderPath i) (folderHash tree i),
      settings.itemList⟩, tree.children i) := by
  obtain rfl | ⟨⟨id, parent, node⟩, hrow, rfl, hfolder⟩ := h
  · have hnone : tree.row? 0 = none := Forest.row?_eq_none.2 fun row hrow => (Forest.id_pos hrow).ne'
    rw [saveItem, hnone]
    rfl
  · cases node with
    | folder name description =>
      rw [saveItem, Forest.row?_of_mem hrow]
      rfl
    | item query => exact absurd hfolder nofun
    | object name => exact absurd hfolder nofun

theorem saveItem_item {query : QueryItem} (hrow : row ∈ tree.rows)
    (hdata : row.data = .item query) : saveItem tree settings row.id =
    .ok (⟨settings.folderList, settings.itemList.insert (tree.consoleQueryFolderPath row.id)
      (consoleQueryItemSaveHash query)⟩, tree.children row.id) := by
  rw [saveItem, Forest.row?_of_mem hrow, Option.map_some, hdata]

/-- An object is not stored. -/
theorem saveItem_object (hrow : row ∈ tree.rows) (hquery : row.data.isQuery = false) :
    saveItem tree settings row.id = .ok (settings, tree.children row.id) := by
  obtain ⟨id, parent, node⟩ := row
  cases node with
  | folder name description => exact absurd hquery nofun
  | item query => exact absurd hquery nofun
  | object name =>
    rw [saveItem, Forest.row?_of_mem hrow]
    rfl

namespace SavedAt

theorem insert_folder (h : SavedAt tree settings done) (hplaced : tree.Placed)
    (hunique : tree.UniqueNames) (hslash : tree.SlashFree) (hfolder : tree.IsFolder i) :
    SavedAt tree ⟨settings.folderList.insert (tree.consoleQueryFolderPath i) (folderHash tree i),
      settings.itemList⟩ (done ++ [i]) where
  folder j hj hjfolder := by
    rw [QHash.contains_iff, QHash.mem_keys_insert, QHash.value_insert, ← QHash.contains_iff]
    split_ifs with heq
    · rw [consoleQueryFolderPath_injective hplaced hunique hslash hjfolder.isNode
        hfolder.isNode heq]
      exact ⟨.inl rfl, rfl⟩
    · have hdone : j ∈ done := (List.mem_append.1 hj).resolve_right fun hji =>
        heq (List.mem_singleton.1 hji ▸ rfl)
      exact (h.folder j hdone hjfolder).imp_left .inr
  item row hrow hmem query hdata := by
    refine h.item row hrow ((List.mem_append.1 hmem).resolve_right fun hri => ?_) query hdata
    have hrowFolder := QueryTree.IsFolder.of_mem (List.mem_singleton.1 hri ▸ hfolder) hrow
    rw [hdata] at hrowFolder
    exact nomatch hrowFolder
  item_only := h.item_only

theorem insert_item (h : SavedAt tree settings done) (hplaced : tree.Placed)
    (hunique : tree.UniqueNames) (hslash : tree.SlashFree) {query : QueryItem}
    (hrow : row ∈ tree.rows)
    (hdata : row.data = .item query) :
    SavedAt tree ⟨settings.folderList, settings.itemList.insert
      (tree.consoleQueryFolderPath row.id) (consoleQueryItemSaveHash query)⟩
      (done ++ [row.id]) where
  folder j hj hjfolder := by
    refine h.folder j ((List.mem_append.1 hj).resolve_right fun hji => ?_) hjfolder
    have hrowFolder := QueryTree.IsFolder.of_mem (List.mem_singleton.1 hji ▸ hjfolder) hrow
    rw [hdata] at hrowFolder
    exact nomatch hrowFolder
  item other hother hmem query' hdata' := by
    have hnode : ∀ row ∈ tree.rows, ∀ query, row.data = .item query → tree.IsNode row.id :=
      fun row hrow query hdata => .inr ⟨row, hrow, rfl, by rw [hdata]; rfl⟩
    rw [QHash.contains_iff, QHash.mem_keys_insert, QHash.value_insert, ← QHash.contains_iff]
    split_ifs with heq
    · have hid := consoleQueryFolderPath_injective hplaced hunique hslash
        (hnode other hother query' hdata') (hnode row hrow query hdata) heq
      rw [Forest.row_eq_of_id hother hrow hid, hdata] at hdata'
      exact ⟨.inl heq, congrArg _ (QueryNode.item.inj hdata')⟩
    · have hdone : other.id ∈ done := (List.mem_append.1 hmem).resolve_right fun hid =>
        heq (List.mem_singleton.1 hid ▸ rfl)
      exact (h.item other hother hdone query' hdata').imp_left .inr
  item_only path hpath := by
    rw [QHash.contains_iff, QHash.mem_keys_insert, ← QHash.contains_iff] at hpath
    obtain rfl | hpath := hpath
    · exact ⟨row, hrow, query, hdata, rfl⟩
    · exact h.item_only path hpath

/-- An object leaves the settings as they are. -/
theorem object (h : SavedAt tree settings done) (hrow : row ∈ tree.rows)
    (hquery : row.data.isQuery = false) : SavedAt tree settings (done ++ [row.id]) where
  folder j hj hjfolder := by
    refine h.folder j ((List.mem_append.1 hj).resolve_right fun hji => ?_) hjfolder
    have hrowFolder := QueryTree.IsFolder.of_mem (List.mem_singleton.1 hji ▸ hjfolder) hrow
    rw [QueryNode.isQuery_of_isFolder hrowFolder] at hquery
    exact nomatch hquery
  item other hother hmem query hdata := by
    refine h.item other hother ((List.mem_append.1 hmem).resolve_right fun hid => ?_) query hdata
    rw [← Forest.row_eq_of_id hother hrow (List.mem_singleton.1 hid), hdata] at hquery
    exact nomatch hquery
  item_only := h.item_only

/-- A turn of the loop of `console_query_tree_save`. -/
theorem step (h : SavedAt tree settings done) (hplaced : tree.Placed)
    (hunique : tree.UniqueNames) (hslash : tree.SlashFree) (hvalid : tree.Valid i) :
    (saveItem tree settings i).Yields (fun _ => False) fun r =>
      r.2 = tree.children i ∧ SavedAt tree r.1 (done ++ [i]) := by
  by_cases hfolder : tree.IsFolder i
  · rw [saveItem_folder hfolder]
    exact ⟨rfl, h.insert_folder hplaced hunique hslash hfolder⟩
  · obtain ⟨row, hrow, rfl⟩ := hvalid.resolve_left fun hzero => hfolder (.inl hzero)
    cases hdata : row.data with
    | folder name description =>
      exact absurd (.inr ⟨row, hrow, rfl, by rw [hdata]; rfl⟩) hfolder
    | item query =>
      rw [saveItem_item hrow hdata]
      exact ⟨rfl, h.insert_item hplaced hunique hslash hrow hdata⟩
    | object name =>
      have hquery : row.data.isQuery = false := by
        rw [hdata]
        rfl
      rw [saveItem_object hrow hquery]
      exact ⟨rfl, h.object hrow hquery⟩

end SavedAt

/-- Everything is stored. -/
theorem saved_of_treeSave (hplaced : tree.Placed) (hunique : tree.UniqueNames)
    (hslash : tree.SlashFree) :
    ∃ settings, consoleQueryTreeSave tree = .ok settings ∧
      SavedAt tree settings (tree.subtree 0) := by
  have hnil : SavedAt tree ⟨[], []⟩ [] := ⟨nofun, nofun, nofun⟩
  have hroot : [0].flatMap tree.subtree = tree.subtree 0 := List.flatMap_singleton ..
  have hyields : (consoleQueryTreeSave tree).Yields (fun _ => False) fun settings =>
      ∃ done, SavedAt tree settings done ∧ done.Perm ([0].flatMap tree.subtree) := by
    refine stackLoop_tree_yields (SavedAt tree) Forest.subtree_perm
      (fun settings done i h hpops => h.step hplaced hunique hslash ?_) ?_ hnil ?_
    · exact Forest.valid_of_mem_subtree Forest.valid_zero (hroot ▸ hpops.mem_subtree)
    · exact hroot ▸ Forest.nodup_subtree
    · exact hroot ▸ Forest.length_subtree_le
  cases hsave : consoleQueryTreeSave tree with
  | error fault =>
    rw [hsave] at hyields
    exact hyields.elim
  | ok settings =>
    rw [hsave, hroot] at hyields
    obtain ⟨done, hsaved, hperm⟩ := hyields
    exact ⟨settings, rfl, fun i hi => hsaved.folder i (hperm.mem_iff.2 hi),
      fun row hrow hmem => hsaved.item row hrow (hperm.mem_iff.2 hmem), hsaved.item_only⟩

end

end Admc
