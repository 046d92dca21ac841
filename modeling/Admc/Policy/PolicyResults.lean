import Admc.Policy.Coherence
import Admc.Policy.Refresh
import Admc.Properties.LostUpdates

/-!
# The units that a policy is linked to

`PolicyResultsWidget` shows the units that a policy is linked to, as `GPLinkManager` has them,
each with the text of its links and boxes for the options of the link. A box that is checked,
and a link that is deleted, is written from the text of the row; the manager is told only if
the unit has an item in the tree of policies.

`PolicyResults.keeps_toggle`: a box that is clicked changes its option in the current links,
and the rows stay those of the directory, whether or not the write is refused: the handler
changes the box back, and is called again to no effect.
-/

namespace Admc

/-- `enum PolicyResultsColumn`. -/
inductive PolicyResultsColumn
  | name
  | enforced
  | disabled
  | path
  deriving DecidableEq, Repr

/-- `column_to_option`, for the columns in `option_columns`. -/
def PolicyResultsColumn.option : PolicyResultsColumn → Option GplinkOption
  | enforced => some .enforced
  | disabled => some .disabled
  | _ => none

/-- A row: its unit and the text of its links, and the boxes. -/
structure PolicyResultsRow where
  ouDn : String
  gplinkString : QString
  isChecked : PolicyResultsColumn → Bool

/-- `class PolicyResultsWidget`, in the console. -/
structure PolicyResults (σ : Type) where
  console : LinkConsole σ
  gpo : QString
  rows : List PolicyResultsRow

namespace PolicyResults

section
variable {σ : Type} (tables : CaseTables) (ldap : Ldap σ) (isItem : String → Bool)
  (w : PolicyResults σ)

/-- The row of a unit in `PolicyResultsWidget::update`, given the text of its links. -/
def updateRow (gpo : QString) (ouDn : String) (gplinkString : QString) : PolicyResultsRow where
  ouDn := ouDn
  gplinkString := gplinkString
  isChecked column := column.option.any ((Gplink.ofString tables gplinkString).getOption tables gpo)

/-- `PolicyResultsWidget::update`: without a connection the rows stay those of the policy
    before. -/
def update (newGpo : QString) (connected : Bool) : PolicyResults σ :=
  let w := { w with gpo := newGpo }
  if !connected then w
  else
    let ouLinkedList := GPLinkManager.linkedOuList ⟨w.console.ouLinks, true, false⟩ tables w.gpo
    { w with rows := ouLinkedList.map fun ouDn =>
        updateRow tables w.gpo ouDn (w.console.ouLinks.value ouDn []) }

/-- `PolicyImpl::on_ou_gplink_changed`, as far as the manager is concerned: the unit is looked
    for in the tree. -/
def onOuGplinkChanged (ouDn : String) (gplink : Gplink) : PolicyResults σ :=
  if !isItem ouDn then w
  else { w with console := w.console.setGplink ouDn (gplink.toString tables) }

/-- The box of a row is checked, or cleared. -/
def setCheckState (i : ℕ) (column : PolicyResultsColumn) (checked : Bool) : PolicyResults σ :=
  { w with rows := w.rows.modify i fun row =>
      { row with isChecked := Function.update row.isChecked column checked } }

/-- `PolicyResultsWidget::on_item_changed`, given whether each call of it can connect. A write
    that fails changes the box back, with which the handler is called again. -/
def onItemChanged (i : ℕ) (column : PolicyResultsColumn) :
    (connections : List Bool) → PolicyResults σ → PolicyResults σ
  | [], w => w
  | connected :: connections, w =>
    match column.option, w.rows[i]? with
    | some option, some row =>
      let isChecked := row.isChecked column
      let gplink :=
        (Gplink.ofString tables row.gplinkString).setOption tables w.gpo option isChecked
      let updatedGplinkString := gplink.toString tables
      let gplinkDidntChange :=
        decide (updatedGplinkString = (Gplink.ofString tables row.gplinkString).toString tables)
      if gplinkDidntChange then w
      else if !connected then w
      else
        let (s, success) := replaceGplink ldap w.console.server row.ouDn updatedGplinkString
        let w := { w with console := { w.console with server := s } }
        if success then
          -- the handler is called for the first column, too, and does nothing
          { w with rows := w.rows.modify i fun row =>
              { row with gplinkString := updatedGplinkString } }.onOuGplinkChanged tables isItem
            row.ouDn gplink
        else onItemChanged i column connections (w.setCheckState i column !isChecked)
    | _, _ => w

/-- A box is clicked. -/
def toggle (i : ℕ) (column : PolicyResultsColumn) (connections : List Bool) : PolicyResults σ :=
  match w.rows[i]? with
  | some row => onItemChanged tables ldap isItem i column connections
      (w.setCheckState i column !row.isChecked column)
  | none => w

/-- The body of the loop of `PolicyResultsWidget::delete_link`, with `removed_indexes`. -/
def deleteLinkStep (loop : PolicyResults σ × List ℕ) (i : ℕ) : PolicyResults σ × List ℕ :=
  let (w, removedIndexes) := loop
  match w.rows[i]? with
  | some row =>
    let gplink := (Gplink.ofString tables row.gplinkString).remove tables w.gpo
    let updatedGplinkString := gplink.toString tables
    let gplinkDidntChange :=
      decide (updatedGplinkString = (Gplink.ofString tables row.gplinkString).toString tables)
    if gplinkDidntChange then loop
    else
      let (s, success) := replaceGplink ldap w.console.server row.ouDn updatedGplinkString
      let w := { w with console := { w.console with server := s } }
      if success then
        (w.onOuGplinkChanged tables isItem row.ouDn gplink, removedIndexes ++ [i])
      else (w, removedIndexes)
  | none => loop

/-- The rows without some of them. -/
def removeRows (rows : List PolicyResultsRow) (removedIndexes : List ℕ) : List PolicyResultsRow :=
  (rows.zipIdx.filter fun row => row.2 ∉ removedIndexes).map Prod.fst

/-- `PolicyResultsWidget::delete_link`. -/
def deleteLink (selected : List ℕ) (connected : Bool) : PolicyResults σ :=
  if !connected then w
  else
    let (w, removedIndexes) := selected.foldl (deleteLinkStep tables ldap isItem) (w, [])
    { w with rows := removeRows w.rows removedIndexes }

end

end PolicyResults

/-! ## Options of links -/

theorem GplinkOption.atom_bits {option : GplinkOption} (hoption : option ≠ .noOption) :
    Mask.Atom option.bits := by
  cases option with
  | noOption => exact absurd rfl hoption
  | disabled => exact ⟨0, by decide, rfl⟩
  | enforced => exact ⟨1, by decide, rfl⟩

theorem GplinkOption.bits_disjoint {option option' : GplinkOption} (hne : option ≠ option') :
    option.bits &&& option'.bits = 0 := by
  cases option <;> cases option' <;> first | rfl | exact absurd rfl hne

namespace Gplink

section
variable {tables : CaseTables} {gplink gplink' : Gplink} {gpo : QString} {option : GplinkOption}
  {value : Bool}

theorem contains_eq_lower :
    gplink.contains tables gpo = gplink.contains tables (tables.lower gpo) := by
  rw [contains, contains, CaseTables.lower_lower]

theorem Same.contains_eq (h : gplink.Same gplink') :
    gplink.contains tables gpo = gplink'.contains tables gpo := by
  rw [contains_eq_lower, h.contains, ← contains_eq_lower]

theorem Same.getOption (h : gplink.Same gplink') :
    gplink.getOption tables gpo option = gplink'.getOption tables gpo option := by
  rw [Gplink.getOption, Gplink.getOption]
  rw [h.contains, h.value]

theorem contains_setOption {gpo' : QString} :
    (gplink.setOption tables gpo option value).contains tables gpo' =
      gplink.contains tables gpo' := by
  unfold setOption
  dsimp only
  split_ifs with hcontains
  · rw [contains_lower] at hcontains
    rw [Bool.eq_iff_iff, contains, contains, QHash.contains_iff, QHash.contains_iff,
      QHash.mem_keys_insert, or_iff_right_of_imp]
    rintro heq
    exact heq ▸ hcontains
  · rfl

/-- The option in the links once an option is set, or cleared, for a policy that is linked. -/
theorem getOption_setOption {option' : GplinkOption}
    (hcontains : gplink.contains tables gpo = true) :
    (gplink.setOption tables gpo option value).getOption tables gpo option' =
      bitmaskIsSet (bitmaskSet (gplink.options.value (tables.lower gpo) 0) option.bits value)
        option'.bits := by
  rw [contains_eq_lower] at hcontains
  rw [getOption]
  rw [contains_setOption, hcontains, Bool.true_and, setOption]
  rw [if_neg (not_not.2 hcontains), QHash.value_insert, if_pos rfl]

theorem getOption_setOption_self (hoption : option ≠ .noOption)
    (hcontains : gplink.contains tables gpo = true) :
    (gplink.setOption tables gpo option value).getOption tables gpo option = value := by
  rw [getOption_setOption hcontains, bitmaskIsSet_bitmaskSet_self
    (GplinkOption.atom_bits hoption).ne_zero]

theorem getOption_setOption_of_ne {option' : GplinkOption} (hne : option ≠ option')
    (hcontains : gplink.contains tables gpo = true) :
    (gplink.setOption tables gpo option value).getOption tables gpo option' =
      gplink.getOption tables gpo option' := by
  rw [getOption_setOption hcontains,
    bitmaskIsSet_bitmaskSet_of_disjoint (GplinkOption.bits_disjoint hne), getOption]
  rw [contains_eq_lower] at hcontains
  rw [hcontains, Bool.true_and]

theorem bitmaskSet_bitmaskIsSet {number : BitVec 32} :
    bitmaskSet number option.bits (bitmaskIsSet number option.bits) = number := by
  cases hset : bitmaskIsSet number option.bits with
  | true => exact Mask.or_eq_left (bitmaskIsSet_iff.1 hset)
  | false =>
    have hincludes : ¬Mask.Includes number option.bits := by
      rw [← bitmaskIsSet_iff, hset]
      exact Bool.false_ne_true
    refine Mask.andNot_eq_left ((GplinkOption.atom_bits ?_).disjoint hincludes)
    rintro rfl
    exact hincludes BitVec.and_zero

/-- An option that is set to what it is leaves the text. -/
theorem toString_setOption_getOption :
    (gplink.setOption tables gpo option (gplink.getOption tables gpo option)).toString tables =
      gplink.toString tables := by
  rw [setOption, getOption]
  split_ifs with hcontains
  · rw [hcontains, Bool.true_and, bitmaskSet_bitmaskIsSet, toString, toString]
    refine congrArg List.flatten (List.map_congr_left fun gpo' _ => ?_)
    rw [QHash.value_insert]
    split_ifs with heq
    · rw [heq]
    · rfl
  · rfl

end

end Gplink

/-! ## Coherence -/

/-- The row has the links of its unit, among them that to the policy, and its boxes show the
    options. -/
structure PolicyResultsRow.Current (tables : CaseTables) (rt : Runtime) (s : LinkServer)
    (gpo : QString) (row : PolicyResultsRow) : Prop where
  same : (Gplink.ofString tables row.gplinkString).Same
    (Gplink.ofString tables (s.gplinkString rt row.ouDn))
  contains : (Gplink.ofString tables row.gplinkString).contains tables gpo = true
  isChecked : ∀ column, row.isChecked column =
    column.option.any ((Gplink.ofString tables row.gplinkString).getOption tables gpo)

/-- A row with other links, and with a box checked or cleared. -/
def PolicyResultsRow.edited (row : PolicyResultsRow) (text : QString)
    (column : PolicyResultsColumn) (checked : Bool) : PolicyResultsRow :=
  { row with
    gplinkString := text
    isChecked := Function.update row.isChecked column checked }

/-- The console is coherent, and so are the rows of the widget, but for some: they are those of
    different units, with their links. -/
structure PolicyResults.CoherentBut (tables : CaseTables) (rt : Runtime)
    (removedIndexes : List ℕ) (w : PolicyResults LinkServer) : Prop where
  console : w.console.Coherent tables rt
  keys : w.console.ouLinks.keys.Nodup
  nodup : (w.rows.map PolicyResultsRow.ouDn).Nodup
  rows : ∀ i row, w.rows[i]? = some row → i ∉ removedIndexes →
    row.Current tables rt w.console.server w.gpo

/-- The console and all rows are coherent. -/
abbrev PolicyResults.Coherent (tables : CaseTables) (rt : Runtime)
    (w : PolicyResults LinkServer) : Prop := w.CoherentBut tables rt []

section
variable {tables : CaseTables} {rt : Runtime} {outcomes : RequestOutcomes}
  {s s' : LinkServer} {ou : String} {edits : List GplinkEdit} {gplink : Gplink} {gpo : QString}
  {console : LinkConsole LinkServer} {row : PolicyResultsRow}

theorem PolicyResultsRow.Current.congr (h : row.Current tables rt s gpo)
    (hstored : s'.stored row.ouDn = s.stored row.ouDn) : row.Current tables rt s' gpo where
  same := gplinkString_congr hstored ▸ h.same
  contains := h.contains
  isChecked := h.isChecked

/-- The DNs in the links of a row are plain. -/
theorem PolicyResultsRow.Current.gpos (h : row.Current tables rt s gpo)
    (hplain : s.Plain tables rt) : ∀ gpo' ∈ (Gplink.ofString tables row.gplinkString).gpoList,
      tables.lower gpo' = gpo' ∧ Gplink.PlainDn tables gpo' := by
  intro gpo' hgpo'
  refine ⟨Gplink.lower_of_mem_ofString hgpo', hplain row.ouDn gpo' ?_⟩
  rw [LinkServer.links, ← h.same.gpoList]
  exact hgpo'

/-- The links of a unit that is not selected are edited, and what is written is kept. -/
theorem keeps_write (hrt : rt.DecodesUtf8) (hreads : ∀ n, outcomes.read n = .value)
    (h : console.Coherent tables rt)
    (hedits : ∀ gpo, .add gpo ∈ edits → Gplink.PlainDn tables gpo)
    (hsame : gplink.Same (Gplink.ofString tables (console.server.gplinkString rt ou)))
    (hou : console.scopeOu ≠ ou) :
    let text := (gplink.run tables edits).toString tables
    let (s, success) := console.server.replace outcomes ou text
    StepKeeps tables rt edits console
      (if success then { console with server := s }.setGplink ou text
      else { console with server := s }) := by
  intro text
  have hkept := @Kept.replace tables rt outcomes _ ou edits _ _ hrt hreads h.kept hedits hsame
  have hrequests := @replace_requests tables rt outcomes console.server ou edits _
    (hsame.run edits).toString
  dsimp only
  split_ifs with hsuccess
  · rw [if_pos hsuccess] at hkept
    exact ⟨⟨hkept, fun hscope => (h.shows hscope).congr (replace_stored_of_ne hou)⟩, hrequests⟩
  · rw [if_neg hsuccess] at hkept
    exact ⟨⟨hkept, fun hscope => (h.shows hscope).congr (replace_stored_of_ne hou)⟩, hrequests⟩

theorem keys_setGplink (h : console.ouLinks.keys.Nodup) {text : QString} :
    (console.setGplink ou text).ouLinks.keys.Nodup := QHash.nodup_keys_insert h

/-- An option that is changed changes the text. -/
theorem Gplink.toString_setOption_ne {option : GplinkOption} {value : Bool}
    (hkeys : ∀ gpo, gpo ∈ gplink.options.keys ↔ gpo ∈ gplink.gpoList)
    (hgpos : ∀ gpo ∈ gplink.gpoList, tables.lower gpo = gpo ∧ Gplink.PlainDn tables gpo)
    (hoption : option ≠ .noOption) (hcontains : gplink.contains tables gpo = true)
    (hvalue : value ≠ gplink.getOption tables gpo option) :
    (gplink.setOption tables gpo option value).toString tables ≠ gplink.toString tables := by
  intro heq
  have hplain := @plain_run tables _ [.setOption gpo option value] (by simp) hgpos
  have hset := same_ofString_toString (mem_keys_run hkeys [.setOption gpo option value]) hplain
  rw [run_setOption] at hset
  refine hvalue ?_
  rw [(same_ofString_toString hkeys hgpos).getOption, ← heq, ← hset.getOption,
    getOption_setOption_self hoption hcontains]

end

namespace PolicyResults

section
variable {tables : CaseTables} {rt : Runtime} {outcomes : RequestOutcomes}
  {isItem : String → Bool} {w : PolicyResults LinkServer} {removedIndexes : List ℕ} {i : ℕ}
  {row : PolicyResultsRow} {column : PolicyResultsColumn} {option : GplinkOption}

/-! ## Refreshes -/

theorem current_updateRow {s : LinkServer} {ouLinks : QHash String QString} {gpo : QString}
    {ou : String} (h : Kept tables rt s ouLinks)
    (hcontains : (Gplink.ofString tables (ouLinks.value ou [])).contains tables gpo = true) :
    (updateRow tables gpo ou (ouLinks.value ou [])).Current tables rt s gpo :=
  ⟨h.same ou, hcontains, fun _ => rfl⟩

theorem coherent_update {newGpo : QString} (hconsole : w.console.Coherent tables rt)
    (hkeys : w.console.ouLinks.keys.Nodup) :
    (w.update tables newGpo true).Coherent tables rt where
  console := hconsole
  keys := hkeys
  nodup := by
    rw [update]
    simp only [Bool.not_true, Bool.false_eq_true, if_false, List.map_map]
    exact (List.map_id _).symm ▸ hkeys.filter _
  rows i row hrow _ := by
    rw [update] at hrow
    simp only [Bool.not_true, Bool.false_eq_true, if_false, List.getElem?_map,
      Option.map_eq_some_iff] at hrow
    obtain ⟨ou, hou, rfl⟩ := hrow
    have hmem := List.mem_of_getElem? hou
    rw [GPLinkManager.linkedOuList, List.mem_filter] at hmem
    exact current_updateRow hconsole.kept hmem.2

/-! ## Boxes -/

theorem option_ne_noOption (h : column.option = some option) : option ≠ .noOption := by
  rintro rfl
  cases column <;> cases h

/-- The columns of different options are different. -/
theorem option_injective {column' : PolicyResultsColumn} (h : column.option = some option)
    (h' : column'.option = some option) : column = column' := by
  cases column <;> cases h <;> cases column' <;> first | rfl | cases h'

theorem getElem?_modify_self (hrow : w.rows[i]? = some row)
    (f : PolicyResultsRow → PolicyResultsRow) : (w.rows.modify i f)[i]? = some (f row) := by
  rw [List.getElem?_modify_eq, hrow]
  rfl

/-- The handler does nothing for a box that shows the option. -/
theorem onItemChanged_of_shown {connections : List Bool} {σ : Type} {ldap : Ldap σ}
    {w : PolicyResults σ} (hrow : w.rows[i]? = some row) (hoption : column.option = some option)
    (hshown : row.isChecked column =
      (Gplink.ofString tables row.gplinkString).getOption tables w.gpo option) :
    onItemChanged tables ldap isItem i column connections w = w := by
  cases connections with
  | nil => rfl
  | cons connected connections =>
    rw [onItemChanged, hoption, hrow]
    dsimp only
    rw [hshown, if_pos (decide_eq_true Gplink.toString_setOption_getOption)]

/-- The links of a row once an option is changed. -/
def editedText (tables : CaseTables) (row : PolicyResultsRow) (edits : List GplinkEdit) :
    QString :=
  ((Gplink.ofString tables row.gplinkString).run tables edits).toString tables

/-- The widget once a row has been written. -/
def written (w : PolicyResults LinkServer) (outcomes : RequestOutcomes)
    (row : PolicyResultsRow) (text : QString) : PolicyResults LinkServer :=
  { w with console := { w.console with
      server := (w.console.server.replace outcomes row.ouDn text).1 } }

theorem onItemChanged_eq {connections : List Bool} {value : Bool} (hrt : rt.DecodesUtf8)
    (hrow : w.rows[i]? = some row) (hoption : column.option = some option)
    (hvalue : row.isChecked column = value)
    (hne : editedText tables row [.setOption w.gpo option value] ≠
      (Gplink.ofString tables row.gplinkString).toString tables) :
    let text := editedText tables row [.setOption w.gpo option value]
    onItemChanged tables (linkLdap outcomes) isItem i column (true :: connections) w =
      if (w.console.server.replace outcomes row.ouDn text).2 then
        { w.written outcomes row text with
          rows := w.rows.modify i fun row => { row with gplinkString := text }
          }.onOuGplinkChanged tables isItem row.ouDn
            ((Gplink.ofString tables row.gplinkString).setOption tables w.gpo option value)
      else onItemChanged tables (linkLdap outcomes) isItem i column connections
        ((w.written outcomes row text).setCheckState i column !value) := by
  subst hvalue
  rw [onItemChanged, hoption, hrow]
  dsimp only
  rw [if_neg (by exact mt of_decide_eq_true hne), if_neg (by decide), replaceGplink_linkLdap hrt]
  rfl

theorem setCheckState_setCheckState {checked : Bool} (hrow : w.rows[i]? = some row) :
    (w.setCheckState i column checked).setCheckState i column (row.isChecked column) = w := by
  have hrows : w.rows.modify i (fun row' =>
      { row' with
        isChecked := Function.update (Function.update row'.isChecked column checked) column
          (row.isChecked column) }) = w.rows := by
    refine List.ext_getElem? fun j => ?_
    rw [List.getElem?_modify]
    split_ifs with hij
    · rw [← hij, hrow]
      simp
    · exact id_map _
  rw [setCheckState, setCheckState, List.modify_modify_eq]
  exact congrArg (fun rows => { w with rows := rows }) hrows

/-- A click writes the links with the option changed, or leaves the box as it was. -/
theorem toggle_eq {connections : List Bool} (hrt : rt.DecodesUtf8)
    (hrow : w.rows[i]? = some row) (hoption : column.option = some option)
    (hshown : row.isChecked column =
      (Gplink.ofString tables row.gplinkString).getOption tables w.gpo option)
    (hne : editedText tables row [.setOption w.gpo option (!row.isChecked column)] ≠
      (Gplink.ofString tables row.gplinkString).toString tables) :
    let text := editedText tables row [.setOption w.gpo option (!row.isChecked column)]
    w.toggle tables (linkLdap outcomes) isItem i column (true :: connections) =
      if (w.console.server.replace outcomes row.ouDn text).2 then
        { w.written outcomes row text with
          rows := w.rows.modify i (·.edited text column !row.isChecked column) }.onOuGplinkChanged
            tables isItem row.ouDn ((Gplink.ofString tables row.gplinkString).setOption tables w.gpo
              option (!row.isChecked column))
      else w.written outcomes row text := by
  intro text
  let clicked : PolicyResultsRow :=
    { row with isChecked := Function.update row.isChecked column !row.isChecked column }
  have hclicked : (w.setCheckState i column !row.isChecked column).rows[i]? = some clicked :=
    getElem?_modify_self hrow _
  have hvalue : clicked.isChecked column = !row.isChecked column := Function.update_self ..
  rw [toggle, hrow]
  dsimp only
  rw [onItemChanged_eq hrt hclicked hoption hvalue hne]
  refine if_congr Iff.rfl ?_ ?_
  · rw [setCheckState, List.modify_modify_eq]
    rfl
  · -- the write fails, and the box is changed back
    have hback : ((w.setCheckState i column !row.isChecked column).written outcomes clicked
        text).setCheckState i column (!!row.isChecked column) = w.written outcomes row text := by
      rw [Bool.not_not]
      exact @setCheckState_setCheckState (w.written outcomes row text) i row column _ hrow
    refine (congrArg (onItemChanged tables (linkLdap outcomes) isItem i column connections)
      hback).trans ?_
    exact onItemChanged_of_shown (w := w.written outcomes row text) hrow hoption hshown

/-- The box of a row that is current shows the option, and changing it changes the text. -/
theorem shown_of_current {s : LinkServer} {gpo : QString} (hplain : s.Plain tables rt)
    (h : row.Current tables rt s gpo) (hoption : column.option = some option) :
    row.isChecked column = (Gplink.ofString tables row.gplinkString).getOption tables gpo option ∧
    editedText tables row [.setOption gpo option (!row.isChecked column)] ≠
      (Gplink.ofString tables row.gplinkString).toString tables := by
  have hshown : row.isChecked column =
      (Gplink.ofString tables row.gplinkString).getOption tables gpo option := by
    rw [h.isChecked, hoption]
    rfl
  exact ⟨hshown, Gplink.toString_setOption_ne h.same.keys (h.gpos hplain)
    (option_ne_noOption hoption) h.contains (hshown ▸ by simp)⟩

/-! ## Rows that are written -/

/-- What is written is what is kept of the links, edited. -/
theorem same_written {edits : List GplinkEdit} (hrt : rt.DecodesUtf8)
    (hreads : ∀ n, outcomes.read n = .value) (hkept : Kept tables rt w.console.server
      w.console.ouLinks) (hcurrent : row.Current tables rt w.console.server w.gpo)
    (hedits : ∀ gpo, .add gpo ∈ edits → Gplink.PlainDn tables gpo)
    (hsuccess : (w.console.server.replace outcomes row.ouDn
      (editedText tables row edits)).2 = true) :
    let text := editedText tables row edits
    ((Gplink.ofString tables row.gplinkString).run tables edits).Same
      (Gplink.ofString tables text) ∧
    (w.console.server.replace outcomes row.ouDn text).1.gplinkString rt row.ouDn = text := by
  intro text
  have hstored := @replace_stored outcomes w.console.server row.ouDn text hreads
  rw [if_pos hsuccess] at hstored
  refine ⟨Gplink.same_ofString_toString (Gplink.mem_keys_run hcurrent.same.keys edits)
    (hkept.gpos hedits hcurrent.same), ?_⟩
  exact gplinkString_of_stored hrt (by rw [hstored, Function.update_self])

theorem ouDn_ne {j : ℕ} {row' : PolicyResultsRow}
    (hnodup : (w.rows.map PolicyResultsRow.ouDn).Nodup) (hrow : w.rows[i]? = some row)
    (hrow' : w.rows[j]? = some row') (hij : i ≠ j) : row'.ouDn ≠ row.ouDn := by
  intro heq
  have hlt : i < (w.rows.map PolicyResultsRow.ouDn).length := by
    rw [List.length_map]
    exact (List.getElem?_eq_some_iff.1 hrow).1
  refine hij ((List.getElem?_inj hlt hnodup).1 ?_)
  rw [List.getElem?_map, List.getElem?_map, hrow, hrow', Option.map_some, Option.map_some, heq]

theorem map_ouDn_modify {f : PolicyResultsRow → PolicyResultsRow}
    (hf : ∀ row, (f row).ouDn = row.ouDn) :
    (w.rows.modify i f).map PolicyResultsRow.ouDn = w.rows.map PolicyResultsRow.ouDn := by
  refine List.ext_getElem? fun j => ?_
  rw [List.getElem?_map, List.getElem?_map, List.getElem?_modify]
  split_ifs
  · rw [Option.map_eq_map, Option.map_map]
    exact congrArg (Option.map · _) (funext hf)
  · exact congrArg _ (id_map _)

/-- The rows and the console stay coherent, and the request is right. -/
structure StepKeeps (tables : CaseTables) (rt : Runtime) (edits : List GplinkEdit)
    (w w' : PolicyResults LinkServer) : Prop where
  coherent : w'.Coherent tables rt
  requests : RequestsRight tables rt edits w.console.server w'.console.server

/-- The other rows stay current when one is written. -/
theorem current_written {j : ℕ} {row' : PolicyResultsRow} {text : QString}
    (h : w.CoherentBut tables rt removedIndexes)
    (hrow : w.rows[i]? = some row) (hrow' : w.rows[j]? = some row') (hij : i ≠ j)
    (hj : j ∉ removedIndexes) :
    row'.Current tables rt (w.console.server.replace outcomes row.ouDn text).1 w.gpo :=
  (h.rows j row' hrow' hj).congr (replace_stored_of_ne (ouDn_ne h.nodup hrow hrow' hij))

/-- The row that is written is current. -/
theorem current_edited {s : LinkServer} {gpo text : QString} {checked : Bool}
    (hcurrent : row.Current tables rt s gpo) (hoption : column.option = some option)
    (hsame : ((Gplink.ofString tables row.gplinkString).setOption tables gpo option checked).Same
      (Gplink.ofString tables text))
    {s' : LinkServer} (hread : s'.gplinkString rt row.ouDn = text) :
    (row.edited text column checked).Current tables rt s' gpo where
  same := by
    rw [show (row.edited text column checked).ouDn = row.ouDn from rfl, hread]
    exact Gplink.same_ofString _
  contains := by
    refine hsame.contains_eq.symm.trans ?_
    rw [Gplink.contains_setOption]
    exact hcurrent.contains
  isChecked column' := by
    have hshown : ∀ option', (Gplink.ofString tables text).getOption tables gpo option' =
        ((Gplink.ofString tables row.gplinkString).setOption tables gpo option checked).getOption
          tables gpo option' := fun _ => hsame.getOption.symm
    change Function.update row.isChecked column checked column' =
      column'.option.any ((Gplink.ofString tables text).getOption tables gpo)
    by_cases hcolumn : column' = column
    · rw [hcolumn, Function.update_self, hoption, Option.any_some, hshown,
        Gplink.getOption_setOption_self (option_ne_noOption hoption) hcurrent.contains]
    · rw [Function.update_of_ne hcolumn, hcurrent.isChecked]
      cases hoption' : column'.option with
      | none => rfl
      | some option' =>
        rw [Option.any_some, Option.any_some, hshown, Gplink.getOption_setOption_of_ne _
          hcurrent.contains]
        rintro rfl
        exact hcolumn (option_injective hoption' hoption)

theorem onOuGplinkChanged_eq {gplink : Gplink} {ouDn : String} (hitem : isItem ouDn = true) :
    w.onOuGplinkChanged tables isItem ouDn gplink =
      { w with console := w.console.setGplink ouDn (gplink.toString tables) } := by
  rw [onOuGplinkChanged, hitem]
  rfl

theorem keeps_toggle {connections : List Bool} (hrt : rt.DecodesUtf8)
    (hreads : ∀ n, outcomes.read n = .value) (h : w.Coherent tables rt)
    (hrow : w.rows[i]? = some row) (hoption : column.option = some option)
    (hitem : isItem row.ouDn = true) (hscope : w.console.scopeOu ≠ row.ouDn) :
    StepKeeps tables rt [.setOption w.gpo option (!row.isChecked column)] w
      (w.toggle tables (linkLdap outcomes) isItem i column (true :: connections)) := by
  have hcurrent := h.rows i row hrow List.not_mem_nil
  have hkeeps := @Admc.keeps_write tables rt outcomes row.ouDn
    [.setOption w.gpo option (!row.isChecked column)] _ w.console hrt hreads h.console
    (by simp) hcurrent.same hscope
  rw [Gplink.run_setOption] at hkeeps
  have htext : editedText tables row [.setOption w.gpo option (!row.isChecked column)] =
      ((Gplink.ofString tables row.gplinkString).setOption tables w.gpo option
        (!row.isChecked column)).toString tables := rfl
  obtain ⟨hshown, hne⟩ := shown_of_current h.console.kept.plain hcurrent hoption
  rw [toggle_eq hrt hrow hoption hshown hne]
  dsimp only at hkeeps ⊢
  rw [← htext] at hkeeps
  split_ifs at hkeeps ⊢ with hsuccess
  · obtain ⟨hsame, hread⟩ := same_written hrt hreads h.console.kept hcurrent (by simp) hsuccess
    rw [Gplink.run_setOption] at hsame
    rw [onOuGplinkChanged_eq hitem]
    refine ⟨⟨hkeeps.coherent, keys_setGplink h.keys, ?_, fun j row' hrow' _ => ?_⟩, hkeeps.requests⟩
    · exact (congrArg List.Nodup (map_ouDn_modify (w := w) (i := i)
        (f := (·.edited _ column !row.isChecked column)) fun _ => rfl)).mpr h.nodup
    · replace hrow' := (List.getElem?_modify _ _ _ _).symm.trans hrow'
      split_ifs at hrow' with hij
      · -- the row that is written
        rw [← hij, hrow] at hrow'
        obtain rfl := Option.some.inj hrow'
        exact current_edited hcurrent hoption hsame hread
      · exact current_written h hrow ((id_map _).symm.trans hrow') hij List.not_mem_nil
  · refine ⟨⟨hkeeps.coherent, h.keys, h.nodup, fun j row' hrow' hj => ?_⟩, hkeeps.requests⟩
    refine (h.rows j row' hrow' hj).congr ?_
    exact congrFun ((@replace_stored outcomes w.console.server row.ouDn _ hreads).trans
      (if_neg hsuccess)) _

end

end PolicyResults

end Admc
