import Admc.Policy.PolicyResults

/-!
# Runs of the widget for the units of a policy

* `PolicyResults.run_right`: in every run of the widget and of the operations on links, each
  request replaces the current links, and the rows stay those of the directory, if at each
  step the console is connected, the units whose links are changed have items, and rows are
  not changed behind the widget;
* `PolicyResults.toggle_lost`: without an item, an option that is changed is shown as before
  after a refresh, and is lost when the other option is changed.
-/

namespace Admc

namespace PolicyResults

section
variable {tables : CaseTables} {rt : Runtime} {outcomes : RequestOutcomes}
  {isItem : String → Bool} {w : PolicyResults LinkServer} {removedIndexes : List ℕ} {i : ℕ}
  {row : PolicyResultsRow}

/-! ## Links that are deleted -/

/-- What a link that is deleted, or is not, leaves: the rows are the same, and they are coherent
    but for those that are removed afterwards. -/
structure DeleteKeeps (tables : CaseTables) (rt : Runtime) (w : PolicyResults LinkServer)
    (indexes removedIndexes : List ℕ) (loop : PolicyResults LinkServer × List ℕ) : Prop where
  coherent : loop.1.CoherentBut tables rt loop.2
  rows_eq : loop.1.rows = w.rows
  gpo_eq : loop.1.gpo = w.gpo
  scopeOu_eq : loop.1.console.scopeOu = w.console.scopeOu
  removed : ∀ i ∈ loop.2, i ∈ removedIndexes ∨ i ∈ indexes
  requests : RequestsRight tables rt [.remove w.gpo] w.console.server loop.1.console.server

theorem DeleteKeeps.refl {indexes : List ℕ} (h : w.CoherentBut tables rt removedIndexes) :
    DeleteKeeps tables rt w indexes removedIndexes (w, removedIndexes) :=
  ⟨h, rfl, rfl, rfl, fun _ => .inl, .refl⟩

theorem keeps_deleteLinkStep (hrt : rt.DecodesUtf8) (hreads : ∀ n, outcomes.read n = .value)
    (h : w.CoherentBut tables rt removedIndexes) (hi : i ∉ removedIndexes)
    (hrows : ∀ row, w.rows[i]? = some row →
      isItem row.ouDn = true ∧ w.console.scopeOu ≠ row.ouDn) :
    DeleteKeeps tables rt w [i] removedIndexes
      (deleteLinkStep tables (linkLdap outcomes) isItem (w, removedIndexes) i) := by
  rw [deleteLinkStep]
  cases hrow : w.rows[i]? with
  | none => exact .refl h
  | some row =>
    obtain ⟨hitem, hscope⟩ := hrows row hrow
    have hcurrent := h.rows i row hrow hi
    have hkeeps := @Admc.keeps_write tables rt outcomes row.ouDn [.remove w.gpo] _ w.console hrt
      hreads h.console (by simp) hcurrent.same hscope
    dsimp only at hkeeps ⊢
    rw [replaceGplink_linkLdap hrt]
    by_cases hdidnt : decide (((Gplink.ofString tables row.gplinkString).remove tables
        w.gpo).toString tables = (Gplink.ofString tables row.gplinkString).toString tables) = true
    · rw [if_pos hdidnt]
      exact .refl h
    rw [if_neg hdidnt]
    rw [show (Gplink.ofString tables row.gplinkString).run tables [.remove w.gpo] =
      (Gplink.ofString tables row.gplinkString).remove tables w.gpo from rfl] at hkeeps
    split_ifs at hkeeps ⊢ with hsuccess
    · rw [onOuGplinkChanged_eq hitem]
      refine ⟨⟨hkeeps.coherent, keys_setGplink h.keys, h.nodup, fun j row' hrow' hj => ?_⟩, rfl,
        rfl, rfl, fun j hj => ?_, hkeeps.requests⟩
      · rw [List.mem_append, List.mem_singleton, not_or] at hj
        exact current_written h hrow hrow' (Ne.symm hj.2) hj.1
      · exact List.mem_append.1 hj
    · refine ⟨⟨hkeeps.coherent, h.keys, h.nodup, fun j row' hrow' hj => ?_⟩, rfl, rfl, rfl,
        fun j => .inl, hkeeps.requests⟩
      refine (h.rows j row' hrow' hj).congr ?_
      exact congrFun ((@replace_stored outcomes w.console.server row.ouDn _ hreads).trans
        (if_neg hsuccess)) _

theorem keeps_foldl_deleteLinkStep {selected : List ℕ} (hrt : rt.DecodesUtf8)
    (hreads : ∀ n, outcomes.read n = .value) (h : w.CoherentBut tables rt removedIndexes)
    (hnodup : selected.Nodup) (hselected : ∀ i ∈ selected, i ∉ removedIndexes)
    (hrows : ∀ i ∈ selected, ∀ row, w.rows[i]? = some row →
      isItem row.ouDn = true ∧ w.console.scopeOu ≠ row.ouDn) :
    DeleteKeeps tables rt w selected removedIndexes
      (selected.foldl (deleteLinkStep tables (linkLdap outcomes) isItem) (w, removedIndexes)) := by
  induction selected generalizing w removedIndexes with
  | nil => exact .refl h
  | cons i selected ih =>
    rw [List.forall_mem_cons] at hselected hrows
    rw [List.nodup_cons] at hnodup
    have hstep := keeps_deleteLinkStep hrt hreads h hselected.1 hrows.1
    rw [List.foldl_cons]
    generalize deleteLinkStep tables (linkLdap outcomes) isItem (w, removedIndexes) i = loop
      at hstep
    obtain ⟨w', removedIndexes'⟩ := loop
    have hrest := ih hstep.coherent hnodup.2 (fun j hj hremoved => ?_) fun j hj row hrow => ?_
    · refine ⟨hrest.coherent, hrest.rows_eq.trans hstep.rows_eq, hrest.gpo_eq.trans hstep.gpo_eq,
        hrest.scopeOu_eq.trans hstep.scopeOu_eq, fun j hj => ?_, ?_⟩
      · rcases hrest.removed j hj with hj | hj
        · rcases hstep.removed j hj with hj | hj
          · exact .inl hj
          · exact .inr (List.mem_singleton.1 hj ▸ List.mem_cons_self)
        · exact .inr (List.mem_cons_of_mem _ hj)
      · have hrequests := hrest.requests
        rw [hstep.gpo_eq] at hrequests
        exact hstep.requests.trans hrequests
    · rcases hstep.removed j hremoved with hremoved | hremoved
      · exact hselected.2 j hj hremoved
      · exact hnodup.1 (List.mem_singleton.1 hremoved ▸ hj)
    · rw [hstep.scopeOu_eq]
      exact hrows.2 j hj row (hstep.rows_eq ▸ hrow)

theorem mem_removeRows {rows : List PolicyResultsRow} :
    row ∈ removeRows rows removedIndexes ↔
      ∃ i, rows[i]? = some row ∧ i ∉ removedIndexes := by
  simp [removeRows, List.mem_zipIdx_iff_getElem?]

theorem removeRows_sublist {rows : List PolicyResultsRow} :
    (removeRows rows removedIndexes).Sublist rows := by
  conv_rhs => rw [← List.zipIdx_map_fst 0 rows]
  exact List.filter_sublist.map _

theorem keeps_deleteLink {selected : List ℕ} (hrt : rt.DecodesUtf8)
    (hreads : ∀ n, outcomes.read n = .value) (h : w.Coherent tables rt) (hnodup : selected.Nodup)
    (hrows : ∀ i ∈ selected, ∀ row, w.rows[i]? = some row →
      isItem row.ouDn = true ∧ w.console.scopeOu ≠ row.ouDn) :
    StepKeeps tables rt [.remove w.gpo] w
      (w.deleteLink tables (linkLdap outcomes) isItem selected true) := by
  have hkeeps := keeps_foldl_deleteLinkStep hrt hreads h hnodup (fun _ _ => List.not_mem_nil) hrows
  rw [deleteLink]
  simp only [Bool.not_true, Bool.false_eq_true, if_false]
  refine ⟨⟨hkeeps.coherent.console, hkeeps.coherent.keys, ?_, fun j row hrow _ => ?_⟩,
    hkeeps.requests⟩
  · exact hkeeps.coherent.nodup.sublist (removeRows_sublist.map _)
  · obtain ⟨i, hrow, hi⟩ := mem_removeRows.1 (List.mem_of_getElem? hrow)
    exact hkeeps.coherent.rows i row hrow hi

end

end PolicyResults

/-! ## Other operations -/

/-- The units whose links an operation may change. -/
def LinkOp.units (console : LinkConsole LinkServer) : LinkOp → List String
  | addLinks _ _ ouList => ouList
  | removeLink ou _ => [ou]
  | linkGpo ou _ => [ou]
  | changeOption ou _ _ _ => [ou]
  | itemChanged _ _ _ => [console.widgetOu]
  | modify _ _ => [console.widgetOu]
  | selectScope _ => []

section
variable {tables : CaseTables} {rt : Runtime} {outcomes : RequestOutcomes}
  {console : LinkConsole LinkServer} {ou : String}

theorem edit_stored_of_ne {s : LinkServer} {ou' : String} {change : Gplink → Gplink}
    (hou : ou ≠ ou') :
    (s.edit tables rt outcomes ou' change).1.stored ou = s.stored ou :=
  (replace_stored_of_ne hou).trans rfl

theorem addLinks_stored_of_not_mem {s : LinkServer} {policies : List QString}
    {ouList : List String} (hou : ou ∉ ouList) :
    (s.addLinks tables rt outcomes policies ouList).stored ou = s.stored ou := by
  induction ouList generalizing s with
  | nil => rfl
  | cons ou' ouList ih =>
    rw [List.mem_cons, not_or] at hou
    exact (ih hou.2).trans (edit_stored_of_ne hou.1)

theorem updateWidget_ouLinks :
    (console.updateWidget tables rt (linkLdap outcomes) ou).ouLinks = console.ouLinks :=
  updateWidget_frame.1

theorem edit_keys {change : Gplink → Gplink} (h : console.ouLinks.keys.Nodup) :
    (console.edit tables rt outcomes ou change).ouLinks.keys.Nodup := by
  rw [LinkConsole.edit]
  dsimp only
  split_ifs
  · exact keys_setGplink h
  · exact h

/-- An operation changes the links of its units alone. -/
theorem LinkOp.run_stored {op : LinkOp} (hrt : rt.DecodesUtf8) (hou : ou ∉ op.units console) :
    (op.run tables rt (linkLdap outcomes) console).server.stored ou =
      console.server.stored ou := by
  cases op with
  | addLinks wasFetched policyList ouList =>
    rw [run, policyAddLinks, foldl_updateWidget_stored.1, foldl_policyAddLinksStep_server hrt]
    exact addLinks_stored_of_not_mem hou
  | removeLink ou' dnList =>
    rw [run, consolePolicyRemoveLink_eq hrt, edit_server]
    exact edit_stored_of_ne (List.ne_of_not_mem_cons hou)
  | linkGpo ou' gpoList =>
    rw [run, (linkGpoToOu_stored hrt).1]
    exact edit_stored_of_ne (List.ne_of_not_mem_cons hou)
  | changeOption ou' gpo option checked =>
    rw [run, onChangeGplinkOptionAction_server hrt]
    exact replace_stored_of_ne (List.ne_of_not_mem_cons hou)
  | itemChanged gpo option isChecked =>
    rw [run, onItemChanged]
    dsimp only
    rw [replaceGplink_linkLdap hrt]
    split_ifs <;> exact replace_stored_of_ne (List.ne_of_not_mem_cons hou)
  | modify modification selected =>
    rw [run, modifyGplink]
    dsimp only
    rw [replaceGplink_linkLdap hrt]
    exact replace_stored_of_ne (List.ne_of_not_mem_cons hou)
  | selectScope ou' => exact congrFun updateWidget_stored.1 ou

/-- The manager keeps one text of each unit. -/
theorem LinkOp.run_keys {op : LinkOp} (hrt : rt.DecodesUtf8)
    (h : console.ouLinks.keys.Nodup) :
    (op.run tables rt (linkLdap outcomes) console).ouLinks.keys.Nodup := by
  cases op with
  | addLinks wasFetched policyList ouList =>
    rw [run, policyAddLinks, foldl_updateWidget_frame.1]
    induction ouList generalizing console with
    | nil => exact h
    | cons ou ouList ih =>
      refine ih ?_
      rw [policyAddLinksStep_eq hrt]
      exact QHash.nodup_keys_insert h
  | removeLink ou dnList =>
    rw [run, consolePolicyRemoveLink_eq hrt]
    exact edit_keys h
  | linkGpo ou gpoList =>
    rw [run, linkGpoToOu_eq hrt]
    split_ifs
    · rw [updateWidget_ouLinks]
      exact edit_keys h
    · exact edit_keys h
  | changeOption ou gpo option checked =>
    rw [run, onChangeGplinkOptionAction]
    dsimp only
    split_ifs
    · exact keys_setGplink h
    · exact h
  | itemChanged gpo option isChecked =>
    rw [run, onItemChanged]
    dsimp only
    split_ifs
    · exact h
    · exact keys_setGplink h
  | modify modification selected => exact keys_setGplink h
  | selectScope ou =>
    rw [run, LinkConsole.selectScope, updateWidget_ouLinks]
    exact h

end

/-! ## Runs -/

/-- The operations of the widget, and those on links elsewhere, which may refresh it for a
    policy. -/
inductive PolicyResultsOp
  | toggle (i : ℕ) (column : PolicyResultsColumn) (connections : List Bool)
  | deleteLink (selected : List ℕ) (connected : Bool)
  | update (gpo : QString) (connected : Bool)
  | link (op : LinkOp) (shown : Option (QString × Bool))

namespace PolicyResultsOp

/-- The effect of an operation. -/
def run {σ : Type} (tables : CaseTables) (rt : Runtime) (ldap : Ldap σ) (isItem : String → Bool)
    (w : PolicyResults σ) : PolicyResultsOp → PolicyResults σ
  | toggle i column connections => w.toggle tables ldap isItem i column connections
  | deleteLink selected connected => w.deleteLink tables ldap isItem selected connected
  | update gpo connected => w.update tables gpo connected
  | link op shown =>
    let w := { w with console := op.run tables rt ldap w.console }
    match shown with
    | some (gpo, connected) => w.update tables gpo connected
    | none => w

/-- The edits of the links of a unit that an operation is asked for. -/
def edits {σ : Type} (w : PolicyResults σ) : PolicyResultsOp → List GplinkEdit
  | toggle i column _ =>
    match w.rows[i]?, column.option with
    | some row, some option => [.setOption w.gpo option (!row.isChecked column)]
    | _, _ => []
  | deleteLink _ _ => [.remove w.gpo]
  | update _ _ => []
  | link op _ => op.edits

/-- The links of the row may be changed in the widget: the tree has an item of the unit, which
    is not the one that is selected. -/
def MayWrite {σ : Type} (isItem : String → Bool) (w : PolicyResults σ) (i : ℕ) : Prop :=
  ∀ row, w.rows[i]? = some row → isItem row.ouDn = true ∧ w.console.scopeOu ≠ row.ouDn

/-- Where the rows stay those of the directory. The console is connected, and rows that change
    behind the widget are shown afresh. -/
def Meets (tables : CaseTables) (outcomes : RequestOutcomes) (isItem : String → Bool)
    (w : PolicyResults LinkServer) : PolicyResultsOp → Prop
  | toggle i column connections =>
    MayWrite isItem w i ∧ column.option ≠ none ∧ connections.head? = some true
  | deleteLink selected connected =>
    (∀ i ∈ selected, MayWrite isItem w i) ∧ selected.Nodup ∧ connected = true
  | update _ connected => connected = true
  | link op (some (_, connected)) => op.Meets tables outcomes w.console ∧ connected = true
  | link op none =>
    op.Meets tables outcomes w.console ∧ ∀ row ∈ w.rows, row.ouDn ∉ op.units w.console

end PolicyResultsOp

namespace PolicyResults

section
variable {tables : CaseTables} {rt : Runtime} {outcomes : RequestOutcomes}
  {isItem : String → Bool} {w : PolicyResults LinkServer}

theorem keeps_step {op : PolicyResultsOp} (hrt : rt.DecodesUtf8)
    (hreads : ∀ n, outcomes.read n = .value) (h : w.Coherent tables rt)
    (hmeets : op.Meets tables outcomes isItem w) :
    StepKeeps tables rt (op.edits w) w (op.run tables rt (linkLdap outcomes) isItem w) := by
  cases op with
  | toggle i column connections =>
    obtain ⟨hwrite, hcolumn, hconnected⟩ := hmeets
    obtain ⟨option, hoption⟩ := Option.ne_none_iff_exists'.1 hcolumn
    obtain ⟨rest, rfl⟩ := List.head?_eq_some_iff.1 hconnected
    cases hrow : w.rows[i]? with
    | none =>
      have hsame : w.toggle tables (linkLdap outcomes) isItem i column (true :: rest) = w := by
        rw [toggle, hrow]
      rw [PolicyResultsOp.run, hsame]
      exact ⟨h, .refl⟩
    | some row =>
      rw [PolicyResultsOp.edits, hrow, hoption]
      exact keeps_toggle hrt hreads h hrow hoption (hwrite row hrow).1 (hwrite row hrow).2
  | deleteLink selected connected =>
    obtain ⟨hwrite, hnodup, rfl⟩ := hmeets
    exact keeps_deleteLink hrt hreads h hnodup hwrite
  | update gpo connected =>
    cases hmeets
    exact ⟨coherent_update h.console h.keys, .refl⟩
  | link op shown =>
    cases shown with
    | none =>
      obtain ⟨hop, hrows⟩ := hmeets
      have hkeeps := Admc.keeps_step hrt hreads h.console hop
      refine ⟨⟨hkeeps.coherent, LinkOp.run_keys hrt h.keys, h.nodup, fun i row hrow hi => ?_⟩,
        hkeeps.requests⟩
      exact (h.rows i row hrow hi).congr
        (LinkOp.run_stored hrt (hrows row (List.mem_of_getElem? hrow)))
    | some shown =>
      obtain ⟨gpo, connected⟩ := shown
      obtain ⟨hop, rfl⟩ := hmeets
      have hkeeps := Admc.keeps_step hrt hreads h.console hop
      exact ⟨coherent_update hkeeps.coherent (LinkOp.run_keys hrt h.keys), hkeeps.requests⟩

end

/-- In every run whose steps meet the condition, each request replaces the links of a unit by
    what is asked for of the current ones, and the rows stay those of the directory. -/
theorem run_right (tables : CaseTables) (rt : Runtime) (outcomes : RequestOutcomes)
    (isItem : String → Bool) (w : PolicyResults LinkServer) (ops : List PolicyResultsOp)
    (hrt : rt.DecodesUtf8) (hreads : ∀ n, outcomes.read n = .value) (h : w.Coherent tables rt)
    (hmeets : EveryStep (PolicyResultsOp.run tables rt (linkLdap outcomes) isItem)
      (fun w op => op.Meets tables outcomes isItem w) w ops) :
    EveryStep (PolicyResultsOp.run tables rt (linkLdap outcomes) isItem)
      (fun w op =>
        RequestsRight tables rt (op.edits w) w.console.server
          (op.run tables rt (linkLdap outcomes) isItem w).console.server ∧
        (op.run tables rt (linkLdap outcomes) isItem w).Coherent tables rt) w ops := by
  induction ops generalizing w with
  | nil => trivial
  | cons op ops ih =>
    have hstep := keeps_step hrt hreads h hmeets.1
    exact ⟨⟨hstep.requests, hstep.coherent⟩, ih _ hstep.coherent hmeets.2⟩

/-! ## Units without an item -/

section
variable {tables : CaseTables} {rt : Runtime} {outcomes : RequestOutcomes}
  {isItem : String → Bool} {w : PolicyResults LinkServer} {i : ℕ} {row : PolicyResultsRow}
  {column : PolicyResultsColumn} {option : GplinkOption}

theorem onOuGplinkChanged_frame {ouDn : String} {gplink : Gplink} :
    (w.onOuGplinkChanged tables isItem ouDn gplink).console.server = w.console.server ∧
    (isItem ouDn = false →
      (w.onOuGplinkChanged tables isItem ouDn gplink).console.ouLinks = w.console.ouLinks) := by
  rw [onOuGplinkChanged]
  split_ifs with hitem
  · exact ⟨rfl, fun _ => rfl⟩
  · exact ⟨rfl, fun hnone => absurd (hnone ▸ rfl) hitem⟩

/-- A click that is written: the manager has the links only if the unit has an item. -/
theorem toggle_accepted {s : LinkServer} {connections : List Bool} (hrt : rt.DecodesUtf8)
    (hreads : ∀ n, outcomes.read n = .value) (haccepts : ∀ n, outcomes.accepts n = true)
    (hplain : s.Plain tables rt) (hcurrent : row.Current tables rt s w.gpo)
    (hrow : w.rows[i]? = some row) (hoption : column.option = some option) :
    let w' := w.toggle tables (linkLdap outcomes) isItem i column (true :: connections)
    (isItem row.ouDn = false → w'.console.ouLinks = w.console.ouLinks) ∧
    ((Gplink.ofString tables row.gplinkString).setOption tables w.gpo option
        (!row.isChecked column)).Same
      (Gplink.ofString tables (w'.console.server.gplinkString rt row.ouDn)) := by
  obtain ⟨hshown, hne⟩ := shown_of_current hplain hcurrent hoption
  have hsuccess := @replace_accepted outcomes w.console.server row.ouDn
    (editedText tables row [.setOption w.gpo option (!row.isChecked column)]) (haccepts _)
  have hstored := @replace_stored outcomes w.console.server row.ouDn
    (editedText tables row [.setOption w.gpo option (!row.isChecked column)]) hreads
  rw [if_pos hsuccess] at hstored
  intro w'
  have hw : w' = _ := toggle_eq hrt hrow hoption hshown hne
  rw [if_pos hsuccess] at hw
  rw [hw, onOuGplinkChanged_frame.1]
  refine ⟨onOuGplinkChanged_frame.2, ?_⟩
  have hread : (w.written outcomes row (editedText tables row
      [.setOption w.gpo option (!row.isChecked column)])).console.server.gplinkString rt row.ouDn =
      editedText tables row [.setOption w.gpo option (!row.isChecked column)] :=
    gplinkString_of_stored hrt (by rw [written, hstored, Function.update_self])
  rw [hread]
  let edits : List GplinkEdit := [.setOption w.gpo option (!row.isChecked column)]
  exact Gplink.same_ofString_toString (Gplink.mem_keys_run hcurrent.same.keys edits)
    (@Gplink.plain_run tables _ edits (by simp [edits]) (hcurrent.gpos hplain))

/-- Without a unit's item, the row of the unit is as before after a refresh. -/
theorem exists_row_update (hkept : Kept tables rt w.console.server w.console.ouLinks)
    (hcurrent : row.Current tables rt w.console.server w.gpo) {w' : PolicyResults LinkServer}
    (hlinks : w'.console.ouLinks = w.console.ouLinks) :
    ∃ (j : ℕ) (row' : PolicyResultsRow), (w'.update tables w.gpo true).rows[j]? = some row' ∧
      row'.ouDn = row.ouDn ∧ row'.Current tables rt w.console.server w.gpo := by
  have hsame := (hkept.same row.ouDn)
  have hcontains : (Gplink.ofString tables (w.console.ouLinks.value row.ouDn [])).contains tables
      w.gpo = true := by
    rw [hsame.contains_eq, ← hcurrent.same.contains_eq]
    exact hcurrent.contains
  have hmem : row.ouDn ∈ GPLinkManager.linkedOuList ⟨w.console.ouLinks, true, false⟩ tables w.gpo :=
    mem_linkedOuList.2 hcontains
  obtain ⟨j, hj⟩ := List.mem_iff_getElem?.1 hmem
  refine ⟨j, updateRow tables w.gpo row.ouDn (w.console.ouLinks.value row.ouDn []), ?_, rfl,
    current_updateRow hkept hcontains⟩
  rw [update]
  simp only [Bool.not_true, Bool.false_eq_true, if_false, List.getElem?_map, hlinks, hj,
    Option.map_some]

end

/-- Without an item of the unit, an option that has been changed is shown as before after a
    refresh, and is lost when the other option is changed. -/
theorem toggle_lost (tables : CaseTables) (rt : Runtime) (outcomes : RequestOutcomes)
    (isItem : String → Bool) (w : PolicyResults LinkServer) (i : ℕ) (row : PolicyResultsRow)
    (column column' : PolicyResultsColumn) (option option' : GplinkOption)
    (hrt : rt.DecodesUtf8) (hreads : ∀ n, outcomes.read n = .value)
    (haccepts : ∀ n, outcomes.accepts n = true) (h : w.Coherent tables rt)
    (hrow : w.rows[i]? = some row) (hitem : isItem row.ouDn = false)
    (hoption : column.option = some option) (hoption' : column'.option = some option')
    (hne : option ≠ option') :
    let w₁ := w.toggle tables (linkLdap outcomes) isItem i column [true]
    let w₂ := w₁.update tables w.gpo true
    (Gplink.ofString tables (w₁.console.server.gplinkString rt row.ouDn)).getOption tables w.gpo
      option = !row.isChecked column ∧
    ∃ (j : ℕ) (row' : PolicyResultsRow), w₂.rows[j]? = some row' ∧ row'.ouDn = row.ouDn ∧
      row'.isChecked column = row.isChecked column ∧
      let w₃ := w₂.toggle tables (linkLdap outcomes) isItem j column' [true]
      (Gplink.ofString tables (w₃.console.server.gplinkString rt row.ouDn)).getOption tables w.gpo
        option = row.isChecked column := by
  have hcurrent := h.rows i row hrow List.not_mem_nil
  have hplain := h.console.kept.plain
  obtain ⟨hlinks, hsame⟩ := @toggle_accepted tables rt outcomes isItem w i row column option
    _ [] hrt hreads haccepts hplain hcurrent hrow hoption
  obtain ⟨j, row', hrow', hou, hcurrent'⟩ :=
    exists_row_update h.console.kept hcurrent (hlinks hitem)
  have hshown : row'.isChecked column = row.isChecked column := by
    rw [hcurrent'.isChecked, hcurrent.isChecked, hoption, Option.any_some, Option.any_some,
      hcurrent'.same.getOption, hcurrent.same.getOption, hou]
  refine ⟨?_, j, row', hrow', hou, hshown, ?_⟩
  · rw [← hsame.getOption, Gplink.getOption_setOption_self (option_ne_noOption hoption)
      hcurrent.contains]
  · -- the row is written with the option that it has
    obtain ⟨-, hsame'⟩ := @toggle_accepted tables rt outcomes isItem
      ((w.toggle tables (linkLdap outcomes) isItem i column [true]).update tables w.gpo true) j row'
      column' option' _ [] hrt hreads haccepts hplain hcurrent' hrow' hoption'
    intro w₃
    rw [← hou, ← hshown, hcurrent'.isChecked, hoption, Option.any_some]
    exact hsame'.getOption.symm.trans
      (Gplink.getOption_setOption_of_ne hne.symm hcurrent'.contains)

/-- The policy that the unit is linked to. -/
def linkedGpo : QString := "cn={31b2},cn=policies,dc=alt".toList

/-- The widget shows the unit. -/
def oneRow : PolicyResults LinkServer :=
  ({ console := keptLink, gpo := [], rows := [] } : PolicyResults LinkServer).update .ascii
    linkedGpo true

theorem coherent_oneRow : oneRow.Coherent .ascii zeroRuntime :=
  coherent_update coherent_keptLink (by decide)

theorem rows_oneRow : oneRow.rows = [updateRow .ascii linkedGpo "OU=a"
    "[LDAP://CN={31B2},CN=Policies,DC=ALT;0]".toList] := by
  have hlinked : GPLinkManager.linkedOuList ⟨keptLink.ouLinks, true, false⟩ .ascii linkedGpo =
      ["OU=a"] := by decide
  rw [oneRow, update]
  simp only [Bool.not_true, Bool.false_eq_true, if_false, hlinked]
  rfl

/-- The link is enforced, the table is shown again, and the link is deleted. -/
theorem run_right_enforced :
    EveryStep (PolicyResultsOp.run .ascii zeroRuntime (linkLdap (writesBut none)) fun _ => true)
      (fun w op =>
        RequestsRight .ascii zeroRuntime (op.edits w) w.console.server
          (op.run .ascii zeroRuntime (linkLdap (writesBut none)) (fun _ => true) w).console.server ∧
        (op.run .ascii zeroRuntime (linkLdap (writesBut none)) (fun _ => true) w).Coherent .ascii
          zeroRuntime) oneRow [.toggle 0 .enforced [true], .update linkedGpo true] :=
  run_right .ascii zeroRuntime (writesBut none) (fun _ => true) oneRow _ decodesUtf8_zeroRuntime
    (fun _ => rfl) coherent_oneRow
    ⟨⟨fun row hrow => ⟨rfl, by
      rw [rows_oneRow] at hrow
      obtain rfl := Option.some.inj hrow
      decide⟩, by decide, rfl⟩, rfl, trivial⟩

/-- The unit has no item: the link is enforced, and no longer is when it is disabled. -/
theorem toggle_lost_enforced :
    let ldap := linkLdap (writesBut none)
    let w₁ := oneRow.toggle .ascii ldap (fun _ => false) 0 .enforced [true]
    let w₂ := w₁.update .ascii oneRow.gpo true
    (Gplink.ofString .ascii (w₁.console.server.gplinkString zeroRuntime "OU=a")).getOption .ascii
      oneRow.gpo .enforced = true ∧
    ∃ (j : ℕ) (row' : PolicyResultsRow), w₂.rows[j]? = some row' ∧ row'.ouDn = "OU=a" ∧
      row'.isChecked .enforced = false ∧
      let w₃ := w₂.toggle .ascii ldap (fun _ => false) j .disabled [true]
      (Gplink.ofString .ascii (w₃.console.server.gplinkString zeroRuntime "OU=a")).getOption .ascii
        oneRow.gpo .enforced = false := by
  have hunchecked : (updateRow .ascii linkedGpo "OU=a"
      "[LDAP://CN={31B2},CN=Policies,DC=ALT;0]".toList).isChecked .enforced = false := by decide
  have hlost := toggle_lost .ascii zeroRuntime (writesBut none) (fun _ => false) oneRow 0
    (updateRow .ascii linkedGpo "OU=a" "[LDAP://CN={31B2},CN=Policies,DC=ALT;0]".toList) .enforced
    .disabled .enforced .disabled decodesUtf8_zeroRuntime (fun _ => rfl) (fun _ => rfl)
    coherent_oneRow (by rw [rows_oneRow]; rfl) rfl rfl rfl (by decide)
  rw [hunchecked] at hlost
  exact hlost

end PolicyResults

end Admc
