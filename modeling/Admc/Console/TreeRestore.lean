import Admc.Console.MoveAndRename
import Admc.Console.TreeState
import Admc.Lib.Run

/-!
# Restoring the console tree

Nodes are expanded one after another, each once its row has been inserted. The rows below a node
are fetched when it is expanded: some at once, and others by a search whose results come later,
in any order, and in between those for other nodes. Each insertion is notified later.

While the next node is not there, only the notifications of one parent are looked at: the node
that has been expanded before. If the next node is below another one and its row comes after the
last notification of the awaited parent, it is never looked for again.

`restored_of_run`: while no row comes so late, all saved nodes are expanded once all rows have
been inserted. `stuck_of_late`: and no longer.
-/

namespace Admc

/-! ## The manager -/

/-- An item of the console. -/
structure ScopeItem where
  type : ConsoleItemType
  dn : QString
  deriving DecidableEq

/-- What is given of the items: the rows that are fetched for one, the types for which they are
    inserted at once, and whether an item is one of the scope. -/
structure ScopeSource where
  fetched : ScopeItem → List ScopeItem
  atOnce : ConsoleItemType → Bool
  isScope : ScopeItem → Bool

/-- `ExpandTask`. The callback is that of the policies: it expands the folder of all policies if
    that is saved as expanded. -/
structure ExpandTask where
  root : ℕ
  dnQueue : List QString
  itemType : ConsoleItemType
  onFinished : Option Bool
  deriving DecidableEq

/-- `TreeStateManager`, with the items of the console and of its view: those that have been
    fetched, those that are expanded, the rows that are still to be inserted, each with its
    parent, and the parents of the insertions that are still to be notified. The roots of the
    tasks whose callbacks have been run are recorded. -/
structure TreeStateManager where
  model : Forest ScopeItem
  wasFetched : List ℕ
  isExpanded : List ℕ
  toInsert : List (ℕ × ScopeItem)
  posted : List ℕ
  restoreTaskQueue : List ExpandTask
  restoreTaskActive : Bool
  waitingParent : Option ℕ
  callbacksRun : List ℕ

namespace TreeStateManager

/-- `ConsoleWidget::search_items`: the rows below the root as they are shown, then the root. -/
def searchItems (model : Forest ScopeItem) (root : ℕ) (p : ScopeItem → Bool) : List ℕ :=
  let shown := (model.branch root).insertionSort fun row row' =>
    (model.chain row.id).reverse ≤ (model.chain row'.id).reverse
  let allMatches := shown.filter fun row => p row.data
  (allMatches.filter (·.id ≠ root) ++ allMatches.filter (·.id = root)).map Row.id

/-- `ConsoleWidget::search_item`. -/
def searchItem (model : Forest ScopeItem) (root : ℕ) (p : ScopeItem → Bool) : Option ℕ :=
  (searchItems model root p).head?

section
variable (source : ScopeSource) (s : TreeStateManager)

/-- A row is inserted below its parent. -/
def insertRow (entry : ℕ × ScopeItem) : TreeStateManager :=
  if h : s.model.Valid entry.1 then
    { s with
      model := s.model.add entry.2 entry.1 h
      posted := s.posted ++ [entry.1] }
  else s

/-- `ConsoleWidgetPrivate::fetch_scope`. -/
def fetchScope (index : ℕ) : TreeStateManager :=
  match s.model.row? index with
  | none => s
  | some row =>
    if index ∈ s.wasFetched then s
    else
      let s := { s with wasFetched := index :: s.wasFetched }
      let rows := (source.fetched row.data).map (Prod.mk index)
      if source.atOnce row.data.type then rows.foldl insertRow s
      else { s with toInsert := s.toInsert ++ rows }

/-- `QTreeView::setExpanded`, with `ConsoleWidgetPrivate::on_scope_expanded`. -/
def setExpanded (index : ℕ) : TreeStateManager :=
  if index ∈ s.isExpanded then s
  else fetchScope source { s with isExpanded := index :: s.isExpanded } index

/-- Whether the proxy of the scope tree has the item. -/
def isInProxy (index : ℕ) : Bool := (s.model.row? index).any fun row => source.isScope row.data

/-- `TreeStateManager::continue_restore_task`, as it calls itself for one task: the DNs that are
    left in the queue. -/
def expandFound (root : ℕ) (itemType : ConsoleItemType) :
    List QString → TreeStateManager → List QString × TreeStateManager
  | [], s => ([], s)
  | dn :: dnQueue, s =>
    match searchItem s.model root fun item => item = ⟨itemType, dn⟩ with
    -- wait if no corresponding items are still fetched
    | none => (dn :: dnQueue, s)
    | some idx =>
      let s := { s with waitingParent := some idx }
      if !s.isInProxy source idx then (dn :: dnQueue, s)
      else
        let s := s.setExpanded source idx
        if dnQueue = [] ∨ idx ∈ s.wasFetched then expandFound root itemType dnQueue s
        else (dnQueue, s)

/-- The callback of a task. -/
def runCallback (task : ExpandTask) : TreeStateManager :=
  match task.onFinished with
  | none => s
  | some allPoliciesExpanded =>
    let s := { s with callbacksRun := s.callbacksRun ++ [task.root] }
    if !allPoliciesExpanded then s
    else
      match searchItem s.model task.root fun item => item.type = .allPoliciesFolder with
      | none => s
      | some idx => if s.isInProxy source idx then s.setExpanded source idx else s

/-- `TreeStateManager::continue_restore_task`, with `finish_current_restore_task` and
    `start_next_restore_task` for the tasks that follow. -/
def continueTasks : List ExpandTask → TreeStateManager → TreeStateManager
  | [], s => { s with restoreTaskQueue := [], restoreTaskActive := false }
  | task :: tasks, s =>
    let (dnQueue, s) := expandFound source task.root task.itemType task.dnQueue s
    if dnQueue = [] then
      let s := { s with restoreTaskActive := false, waitingParent := none }
      let s := s.runCallback source task
      continueTasks tasks { s with restoreTaskActive := true, waitingParent := none }
    else { s with restoreTaskQueue := { task with dnQueue := dnQueue } :: tasks }

/-- `TreeStateManager::start_next_restore_task`. -/
def startNextRestoreTask : TreeStateManager :=
  if s.restoreTaskActive ∨ s.restoreTaskQueue = [] then s
  else continueTasks source s.restoreTaskQueue
    { s with waitingParent := none, restoreTaskActive := true }

/-- `TreeStateManager::on_rows_inserted`. -/
def onRowsInserted (parent : ℕ) : TreeStateManager :=
  if s.restoreTaskActive then
    if s.waitingParent.isSome ∧ s.waitingParent ≠ some parent then s
    else continueTasks source s.restoreTaskQueue s
  else s

end

/-! ## What insertions and fetches keep -/

section
variable (source : ScopeSource)

/-- The rows that are there stay, with what is above them, and what has been fetched and
    expanded stays so. -/
structure Grows (s s' : TreeStateManager) : Prop where
  rows : ∀ row ∈ s.model.rows, row ∈ s'.model.rows
  chain : ∀ i, s.model.Valid i → s'.model.chain i = s.model.chain i
  wasFetched : ∀ i ∈ s.wasFetched, i ∈ s'.wasFetched
  isExpanded : ∀ i ∈ s.isExpanded, i ∈ s'.isExpanded

/-- What has been fetched is in the model, and the rows below it are there or are still to be
    inserted: they are awaited, or among the given entries. -/
structure Sound (s : TreeStateManager) (entries : List (ℕ × ScopeItem)) : Prop where
  valid : ∀ entry ∈ s.toInsert ++ entries, s.model.Valid entry.1
  valid_fetched : ∀ i ∈ s.wasFetched, s.model.Valid i
  complete : ∀ row ∈ s.model.rows, row.id ∈ s.wasFetched → ∀ item ∈ source.fetched row.data,
    (∃ child ∈ s.model.rows, child.parent = row.id ∧ child.data = item) ∨
      (row.id, item) ∈ s.toInsert ++ entries

/-- Only the tasks have changed. -/
structure SameItems (s s' : TreeStateManager) : Prop where
  model : s'.model = s.model
  wasFetched : s'.wasFetched = s.wasFetched
  isExpanded : s'.isExpanded = s.isExpanded
  toInsert : s'.toInsert = s.toInsert

/-- What is expanded has been fetched. -/
def ExpandedFetched (s : TreeStateManager) : Prop := ∀ i ∈ s.isExpanded, i ∈ s.wasFetched

end

section
variable {source : ScopeSource} {s s' s'' : TreeStateManager} {entry : ℕ × ScopeItem}
  {entries : List (ℕ × ScopeItem)} {index : ℕ} {row : Row ScopeItem}

theorem Grows.refl : Grows s s := ⟨fun _ h => h, fun _ _ => rfl, fun _ h => h, fun _ h => h⟩

theorem Grows.valid (h : Grows s s') {i : ℕ} (hi : s.model.Valid i) : s'.model.Valid i :=
  hi.imp_right fun ⟨row, hrow, hid⟩ => ⟨row, h.rows row hrow, hid⟩

theorem Grows.trans (h : Grows s s') (h' : Grows s' s'') : Grows s s'' where
  rows row hrow := h'.rows row (h.rows row hrow)
  chain i hi := (h'.chain i (h.valid hi)).trans (h.chain i hi)
  wasFetched i hi := h'.wasFetched i (h.wasFetched i hi)
  isExpanded i hi := h'.isExpanded i (h.isExpanded i hi)

theorem SameItems.grows (h : SameItems s s') : Grows s s' :=
  ⟨fun _ hrow => h.model ▸ hrow, fun _ _ => h.model ▸ rfl, fun _ hi => h.wasFetched ▸ hi,
    fun _ hi => h.isExpanded ▸ hi⟩

theorem Sound.of_sameItems (h : s.Sound source entries) (hitems : SameItems s s') :
    s'.Sound source entries := by
  obtain ⟨hvalid, hfetched, hcomplete⟩ := h
  rw [← hitems.model, ← hitems.toInsert] at hvalid
  rw [← hitems.model, ← hitems.wasFetched] at hfetched
  rw [← hitems.model, ← hitems.wasFetched, ← hitems.toInsert] at hcomplete
  exact ⟨hvalid, hfetched, hcomplete⟩

theorem grows_insertRow : Grows s (s.insertRow entry) := by
  rw [insertRow]
  split_ifs with hvalid
  · refine ⟨fun row hrow => List.mem_cons_of_mem _ hrow, fun i hi => ?_, fun _ h => h, fun _ h => h⟩
    refine @Forest.chain_of_append _ s.model (s.model.add entry.2 entry.1 hvalid) i
      [⟨s.model.next, entry.1, entry.2⟩] rfl ?_ hi.lt_next
    rw [List.forall_mem_singleton]
  · exact .refl

theorem grows_foldl_insertRow : Grows s (entries.foldl insertRow s) := by
  induction entries generalizing s with
  | nil => exact .refl
  | cons entry entries ih => exact grows_insertRow.trans ih

/-- A row that is inserted is not awaited any more. -/
theorem Sound.insertRow (h : s.Sound source (entry :: entries)) :
    (s.insertRow entry).Sound source entries := by
  have hentry := h.valid entry (List.mem_append_right _ List.mem_cons_self)
  have hgrows := @grows_insertRow s entry
  have hinsert : s.insertRow entry = { s with
      model := s.model.add entry.2 entry.1 hentry
      posted := s.posted ++ [entry.1] } := dif_pos hentry
  refine ⟨fun entry' hentry' => ?_, fun i hi => ?_, fun row hrow hfetched item hitem => ?_⟩
  · rw [hinsert] at hentry'
    refine hgrows.valid (h.valid entry' ?_)
    exact (List.mem_append.1 hentry').elim (List.mem_append_left _) fun hmem =>
      List.mem_append_right _ (List.mem_cons_of_mem _ hmem)
  · rw [hinsert] at hi
    exact hgrows.valid (h.valid_fetched i hi)
  · rw [hinsert] at hrow hfetched ⊢
    obtain rfl | hrow := List.mem_cons.1 hrow
    · -- the new row has not been fetched
      exact absurd (h.valid_fetched _ hfetched).lt_next (lt_irrefl _)
    · obtain ⟨child, hchild, hparent, hdata⟩ | hmem := h.complete row hrow hfetched item hitem
      · exact .inl ⟨child, List.mem_cons_of_mem _ hchild, hparent, hdata⟩
      · rcases List.mem_append.1 hmem with hmem | hmem
        · exact .inr (List.mem_append_left _ hmem)
        · rcases List.mem_cons.1 hmem with rfl | hmem
          · exact .inl ⟨_, List.mem_cons_self, rfl, rfl⟩
          · exact .inr (List.mem_append_right _ hmem)

theorem Sound.foldl_insertRow (h : s.Sound source entries) :
    (entries.foldl TreeStateManager.insertRow s).Sound source [] := by
  induction entries generalizing s with
  | nil => exact h
  | cons entry entries ih => exact ih h.insertRow

/-- What an insertion leaves as it is. -/
theorem insertRow_same : (s.insertRow entry).toInsert = s.toInsert ∧
    (s.insertRow entry).wasFetched = s.wasFetched ∧
    (s.insertRow entry).isExpanded = s.isExpanded ∧
    (s.insertRow entry).restoreTaskQueue = s.restoreTaskQueue ∧
    (s.insertRow entry).waitingParent = s.waitingParent ∧
    (s.insertRow entry).restoreTaskActive = s.restoreTaskActive ∧
    (s.insertRow entry).callbacksRun = s.callbacksRun := by
  rw [insertRow]
  split_ifs <;> exact ⟨rfl, rfl, rfl, rfl, rfl, rfl, rfl⟩

theorem foldl_insertRow_same : (entries.foldl insertRow s).toInsert = s.toInsert ∧
    (entries.foldl insertRow s).wasFetched = s.wasFetched ∧
    (entries.foldl insertRow s).isExpanded = s.isExpanded ∧
    (entries.foldl insertRow s).restoreTaskActive = s.restoreTaskActive ∧
    (entries.foldl insertRow s).callbacksRun = s.callbacksRun := by
  induction entries generalizing s with
  | nil => exact ⟨rfl, rfl, rfl, rfl, rfl⟩
  | cons entry entries ih =>
    obtain ⟨htoInsert', hfetched', hexpanded', -, -, hactive', hcallbacks'⟩ :=
      @insertRow_same s entry
    obtain ⟨htoInsert, hfetched, hexpanded, hactive, hcallbacks⟩ := @ih (s.insertRow entry)
    exact ⟨htoInsert.trans htoInsert', hfetched.trans hfetched', hexpanded.trans hexpanded',
      hactive.trans hactive', hcallbacks.trans hcallbacks'⟩

/-- What fetching or expanding an item does. -/
structure Reaches (source : ScopeSource) (s s' : TreeStateManager) : Prop where
  grows : Grows s s'
  sound : s'.Sound source []
  toInsert : ∀ entry ∈ s.toInsert, entry ∈ s'.toInsert
  active : s'.restoreTaskActive = s.restoreTaskActive
  callbacksRun : s'.callbacksRun = s.callbacksRun

theorem Reaches.refl (h : s.Sound source []) : Reaches source s s :=
  ⟨.refl, h, fun _ h => h, rfl, rfl⟩

theorem Reaches.trans (h : Reaches source s s') (h' : Reaches source s' s'') :
    Reaches source s s'' where
  grows := h.grows.trans h'.grows
  sound := h'.sound
  toInsert entry hentry := h'.toInsert entry (h.toInsert entry hentry)
  active := h'.active.trans h.active
  callbacksRun := h'.callbacksRun.trans h.callbacksRun

theorem reaches_fetchScope (h : s.Sound source []) (hrow : row ∈ s.model.rows) :
    Reaches source s (s.fetchScope source row.id) ∧
      row.id ∈ (s.fetchScope source row.id).wasFetched ∧
      (s.fetchScope source row.id).isExpanded = s.isExpanded := by
  rw [fetchScope]
  rw [Forest.row?_of_mem hrow]
  dsimp only
  split_ifs with hfetched hatOnce
  · exact ⟨.refl h, hfetched, rfl⟩
  all_goals
    set fetching : TreeStateManager := { s with wasFetched := row.id :: s.wasFetched }
    have hgrows : Grows s fetching :=
      ⟨fun _ h => h, fun _ _ => rfl, fun _ h => List.mem_cons_of_mem _ h, fun _ h => h⟩
    have hsound : fetching.Sound source ((source.fetched row.data).map (Prod.mk row.id)) := by
      refine ⟨fun entry hentry => ?_, fun i hi => ?_, fun row' hrow' hmem item hitem => ?_⟩
      · rcases List.mem_append.1 hentry with hentry | hentry
        · exact h.valid entry (List.mem_append_left _ hentry)
        · obtain ⟨item, -, rfl⟩ := List.mem_map.1 hentry
          exact Forest.valid_of_mem hrow
      · rcases List.mem_cons.1 hi with rfl | hi
        · exact Forest.valid_of_mem hrow
        · exact h.valid_fetched i hi
      · by_cases hid : row'.id = row.id
        · obtain rfl := Forest.row_eq_of_id hrow' hrow hid
          exact .inr (List.mem_append_right _ (List.mem_map_of_mem hitem))
        · have hold := (List.mem_cons.1 hmem).resolve_left hid
          exact (h.complete row' hrow' hold item hitem).imp_right fun hmem =>
            List.mem_append_left _ ((List.mem_append.1 hmem).resolve_right List.not_mem_nil)
  · have hsame := @foldl_insertRow_same fetching ((source.fetched row.data).map (Prod.mk row.id))
    refine ⟨⟨hgrows.trans grows_foldl_insertRow, hsound.foldl_insertRow, ?_,
      hsame.2.2.2.1, hsame.2.2.2.2⟩, ?_, hsame.2.2.1⟩
    · rw [hsame.1]
      exact fun _ h => h
    · rw [hsame.2.1]
      exact List.mem_cons_self
  · refine ⟨⟨⟨hgrows.rows, hgrows.chain, hgrows.wasFetched, hgrows.isExpanded⟩, ?_,
      fun _ h => List.mem_append_left _ h, rfl, rfl⟩, List.mem_cons_self, rfl⟩
    refine ⟨fun entry hentry => hsound.valid entry ?_, hsound.valid_fetched, ?_⟩
    · rwa [List.append_nil] at hentry
    · intro row' hrow' hmem item hitem
      rw [List.append_nil]
      exact hsound.complete row' hrow' hmem item hitem

theorem reaches_setExpanded (h : s.Sound source []) (hexpanded : s.ExpandedFetched)
    (hrow : row ∈ s.model.rows) :
    Reaches source s (s.setExpanded source row.id) ∧
      row.id ∈ (s.setExpanded source row.id).wasFetched ∧
      row.id ∈ (s.setExpanded source row.id).isExpanded ∧
      (s.setExpanded source row.id).ExpandedFetched := by
  rw [setExpanded]
  split_ifs with hmem
  · exact ⟨.refl h, hexpanded _ hmem, hmem, hexpanded⟩
  · have hsound : Sound source { s with isExpanded := row.id :: s.isExpanded } [] :=
      ⟨h.valid, h.valid_fetched, h.complete⟩
    obtain ⟨hreaches, hfetched, heq⟩ := reaches_fetchScope hsound hrow
    have hgrows : Grows s { s with isExpanded := row.id :: s.isExpanded } :=
      ⟨fun _ h => h, fun _ _ => rfl, fun _ h => h, fun _ h => List.mem_cons_of_mem _ h⟩
    refine ⟨⟨hgrows.trans hreaches.grows, hreaches.sound, hreaches.toInsert,
      hreaches.active, hreaches.callbacksRun⟩, hfetched, ?_, fun i hi => ?_⟩
    · rw [heq]
      exact List.mem_cons_self
    · rw [heq] at hi
      rcases List.mem_cons.1 hi with rfl | hi
      · exact hfetched
      · exact hreaches.grows.wasFetched i (hexpanded i hi)

end

/-! ## Tasks -/

section
variable (source : ScopeSource) (s : TreeStateManager) (root : ℕ)

/-- A row at or below the root shows the item. -/
def Shown (item : ScopeItem) : Prop :=
  ∃ row ∈ s.model.rows, root ∈ s.model.chain row.id ∧ row.data = item

/-- A row with the item is still to be inserted below the root. -/
def Awaited (item : ScopeItem) : Prop :=
  ∃ parent, (parent, item) ∈ s.toInsert ∧ root ∈ s.model.chain parent

/-- A row at or below the root shows the item, and is expanded. -/
def ShownExpanded (item : ScopeItem) : Prop :=
  ∃ row ∈ s.model.rows, root ∈ s.model.chain row.id ∧ row.data = item ∧ row.id ∈ s.isExpanded

/-- The root is there, and each DN in the queue is that of an item of the scope whose row is
    there, is still to be inserted, or will be fetched for an item with an earlier DN. -/
def Supplied (itemType : ConsoleItemType) (dnQueue : List QString) : Prop :=
  s.model.Valid root ∧ ∀ before dn after, dnQueue = before ++ dn :: after →
    source.isScope ⟨itemType, dn⟩ = true ∧
      (s.Shown root ⟨itemType, dn⟩ ∨ s.Awaited root ⟨itemType, dn⟩ ∨
        ∃ dn' ∈ before, ⟨itemType, dn⟩ ∈ source.fetched ⟨itemType, dn'⟩)

end

section
variable {source : ScopeSource} {s s' : TreeStateManager} {root i : ℕ} {item : ScopeItem}
  {itemType : ConsoleItemType} {dnQueue : List QString} {p : ScopeItem → Bool}

theorem mem_searchItems : i ∈ searchItems s.model root p ↔
    ∃ row ∈ s.model.rows, row.id = i ∧ root ∈ s.model.chain i ∧ p row.data = true := by
  simp only [searchItems, List.mem_map, List.mem_append, List.mem_filter, decide_eq_true_eq,
    (List.perm_insertionSort _ _).mem_iff, Forest.mem_branch]
  constructor
  · rintro ⟨row, ⟨⟨⟨hrow, hchain⟩, hp⟩, -⟩ | ⟨⟨⟨hrow, hchain⟩, hp⟩, -⟩, rfl⟩
    · exact ⟨row, hrow, rfl, hchain, hp⟩
    · exact ⟨row, hrow, rfl, hchain, hp⟩
  · rintro ⟨row, hrow, rfl, hchain, hp⟩
    refine ⟨row, ?_, rfl⟩
    by_cases hroot : row.id = root
    · exact .inr ⟨⟨⟨hrow, hchain⟩, hp⟩, hroot⟩
    · exact .inl ⟨⟨⟨hrow, hchain⟩, hp⟩, hroot⟩

theorem searchItem_eq_none :
    searchItem s.model root (fun item' => item' = item) = none ↔ ¬s.Shown root item := by
  rw [searchItem, List.head?_eq_none_iff, List.eq_nil_iff_forall_not_mem]
  constructor
  · rintro h ⟨row, hrow, hchain, hdata⟩
    exact h row.id (mem_searchItems.2 ⟨row, hrow, rfl, hchain, decide_eq_true hdata⟩)
  · intro h i hi
    obtain ⟨row, hrow, rfl, hchain, hdata⟩ := mem_searchItems.1 hi
    exact h ⟨row, hrow, hchain, of_decide_eq_true hdata⟩

theorem searchItem_eq_some (h : searchItem s.model root p = some i) :
    ∃ row ∈ s.model.rows, row.id = i ∧ root ∈ s.model.chain i ∧ p row.data = true :=
  mem_searchItems.1 (List.mem_of_mem_head? h)

theorem Shown.grows (h : s.Shown root item) (hgrows : Grows s s') : s'.Shown root item := by
  obtain ⟨row, hrow, hchain, hdata⟩ := h
  refine ⟨row, hgrows.rows row hrow, ?_, hdata⟩
  rwa [hgrows.chain _ (Forest.valid_of_mem hrow)]

theorem ShownExpanded.grows (h : s.ShownExpanded root item) (hgrows : Grows s s') :
    s'.ShownExpanded root item := by
  obtain ⟨row, hrow, hchain, hdata, hexpanded⟩ := h
  refine ⟨row, hgrows.rows row hrow, ?_, hdata, hgrows.isExpanded _ hexpanded⟩
  rwa [hgrows.chain _ (Forest.valid_of_mem hrow)]

theorem Awaited.grows (h : s.Awaited root item) (hgrows : Grows s s')
    (htoInsert : ∀ entry ∈ s.toInsert, entry ∈ s'.toInsert) : s'.Awaited root item := by
  obtain ⟨parent, hmem, hchain⟩ := h
  refine ⟨parent, htoInsert _ hmem, ?_⟩
  rwa [hgrows.chain _ (Forest.valid_of_mem_chain hchain).2]

theorem Supplied.grows (h : s.Supplied source root itemType dnQueue) (hgrows : Grows s s')
    (htoInsert : ∀ entry ∈ s.toInsert, entry ∈ s'.toInsert) :
    s'.Supplied source root itemType dnQueue := by
  refine ⟨hgrows.valid h.1, fun before dn after hqueue => ?_⟩
  obtain ⟨hscope, hsupply⟩ := h.2 before dn after hqueue
  exact ⟨hscope, hsupply.imp (·.grows hgrows) (Or.imp_left (·.grows hgrows htoInsert))⟩

/-- What is fetched for an item that has been fetched is there, or still to be inserted. -/
theorem Sound.supplied (h : s.Sound source []) {row : Row ScopeItem} (hrow : row ∈ s.model.rows)
    (hfetched : row.id ∈ s.wasFetched) (hroot : root ∈ s.model.chain row.id)
    (hitem : item ∈ source.fetched row.data) : s.Shown root item ∨ s.Awaited root item := by
  obtain ⟨child, hchild, hparent, hdata⟩ | hmem := h.complete row hrow hfetched item hitem
  · refine .inl ⟨child, hchild, ?_, hdata⟩
    rw [Forest.chain_of_mem hchild, hparent]
    exact List.mem_cons_of_mem _ hroot
  · rw [List.append_nil] at hmem
    exact .inr ⟨row.id, hmem, hroot⟩

/-- What is done for one task: the first DNs of the queue are those of items that are expanded
    now, and the next one, if there is any, has no row yet. -/
structure Expands (source : ScopeSource) (root : ℕ) (itemType : ConsoleItemType)
    (dnQueue : List QString) (s : TreeStateManager) (rest : List QString)
    (s' : TreeStateManager) : Prop where
  reaches : Reaches source s s'
  expandedFetched : s'.ExpandedFetched
  supplied : s'.Supplied source root itemType rest
  exists_done : ∃ done, dnQueue = done ++ rest ∧
    ∀ dn ∈ done, s'.ShownExpanded root ⟨itemType, dn⟩
  not_shown : ∀ dn after, rest = dn :: after → ¬s'.Shown root ⟨itemType, dn⟩

theorem expands_expandFound (h : s.Sound source []) (hexpanded : s.ExpandedFetched)
    (hsupplied : s.Supplied source root itemType dnQueue) :
    Expands source root itemType dnQueue s (expandFound source root itemType dnQueue s).1
      (expandFound source root itemType dnQueue s).2 := by
  induction dnQueue generalizing s with
  | nil => exact ⟨.refl h, hexpanded, hsupplied, ⟨[], rfl, nofun⟩, nofun⟩
  | cons dn dnQueue ih =>
    rw [expandFound]
    cases hsearch : searchItem s.model root fun item => item = ⟨itemType, dn⟩ with
    | none =>
      refine ⟨.refl h, hexpanded, hsupplied, ⟨[], rfl, nofun⟩, ?_⟩
      rintro _ _ ⟨⟩
      exact searchItem_eq_none.1 hsearch
    | some idx =>
      obtain ⟨row, hrow, rfl, hroot, hmatch⟩ := searchItem_eq_some hsearch
      have hdata : row.data = ⟨itemType, dn⟩ := of_decide_eq_true hmatch
      set found : TreeStateManager := { s with waitingParent := some row.id }
      have hitems : SameItems s found := ⟨rfl, rfl, rfl, rfl⟩
      have hfound := h.of_sameItems hitems
      have hscope : found.isInProxy source row.id = true := by
        rw [isInProxy, Forest.row?_of_mem hrow, Option.any_some, hdata]
        exact (hsupplied.2 [] dn dnQueue rfl).1
      obtain ⟨hreaches, hfetched, hmem, hexpanded'⟩ := reaches_setExpanded hfound hexpanded hrow
      have hgrows : Reaches source s (found.setExpanded source row.id) :=
        ⟨hitems.grows.trans hreaches.grows, hreaches.sound, hreaches.toInsert, hreaches.active,
          hreaches.callbacksRun⟩
      -- what is supplied by the item is there now, or awaited
      have hrest : (found.setExpanded source row.id).Supplied source root itemType dnQueue := by
        refine ⟨hgrows.grows.valid hsupplied.1, fun before dn' after hqueue => ?_⟩
        obtain ⟨hscope, hsupply⟩ := hsupplied.2 (dn :: before) dn' after (congrArg _ hqueue)
        refine ⟨hscope, ?_⟩
        obtain hshown | hawaited | ⟨earlier, hearlier, hitem⟩ := hsupply
        · exact .inl (hshown.grows hgrows.grows)
        · exact .inr (.inl (hawaited.grows hgrows.grows hgrows.toInsert))
        · obtain rfl | hearlier := List.mem_cons.1 hearlier
          · have hroot' : root ∈ (found.setExpanded source row.id).model.chain row.id := by
              rwa [hgrows.grows.chain _ (Forest.valid_of_mem hrow)]
            have hsupply := hgrows.sound.supplied (hgrows.grows.rows row hrow) hfetched hroot'
              (hdata ▸ hitem)
            exact hsupply.imp_right .inl
          · exact .inr (.inr ⟨earlier, hearlier, hitem⟩)
      dsimp only
      rw [hscope, if_neg (by decide), if_pos (.inr hfetched)]
      obtain ⟨hstep, hexpanded'', hsupplied', ⟨done, hdone, hall⟩, hnot⟩ :=
        ih hgrows.sound hexpanded' hrest
      refine ⟨hgrows.trans hstep, hexpanded'', hsupplied', ⟨dn :: done, ?_, ?_⟩, hnot⟩
      · rw [List.cons_append, ← hdone]
      · refine List.forall_mem_cons.2 ⟨?_, hall⟩
        have hshown : (found.setExpanded source row.id).ShownExpanded root ⟨itemType, dn⟩ := by
          refine ⟨row, hgrows.grows.rows row hrow, ?_, hdata, hmem⟩
          rwa [hgrows.grows.chain _ (Forest.valid_of_mem hrow)]
        exact hshown.grows hstep.grows

end

/-! ## Waiting -/

/-- The roots of the tasks that have callbacks. -/
def callbackRoots (tasks : List ExpandTask) : List ℕ :=
  (tasks.filter fun task => task.onFinished.isSome).map ExpandTask.root

/-- A notification that is looked at is posted, or a row is still to be inserted for which one
    will be posted. -/
def Triggered (s : TreeStateManager) : Prop :=
  match s.waitingParent with
  | none => s.posted ≠ []
  | some parent => parent ∈ s.posted ∨ ∃ item, (parent, item) ∈ s.toInsert

/-- The items of the first DNs of a task have been expanded, and a DN is the next one. If its
    row is there, a notification will come. -/
structure Waits (source : ScopeSource) (s : TreeStateManager) (current : ExpandTask)
    (later : List ExpandTask) (expanded : List QString) (dn : QString) (dnQueue : List QString) :
    Prop where
  split : current.dnQueue = expanded ++ dn :: dnQueue
  queue : s.restoreTaskQueue = { current with dnQueue := dn :: dnQueue } :: later
  active : s.restoreTaskActive = true
  expanded : ∀ dn' ∈ expanded, s.ShownExpanded current.root ⟨current.itemType, dn'⟩
  supplied : s.Supplied source current.root current.itemType (dn :: dnQueue)
  later : ∀ task ∈ later, s.Supplied source task.root task.itemType task.dnQueue
  triggered : s.Shown current.root ⟨current.itemType, dn⟩ → s.Triggered

/-- How far the tasks have been done: the callbacks of the first ones have been run, and their
    items expanded, and one of the others waits, if there are any. -/
structure Progress (source : ScopeSource) (tasks : List ExpandTask) (callbacks : List ℕ)
    (s : TreeStateManager) : Prop where
  sound : s.Sound source []
  expandedFetched : s.ExpandedFetched
  exists_done : ∃ done rest, tasks = done ++ rest ∧
    s.callbacksRun = callbacks ++ callbackRoots done ∧
    (∀ task ∈ done, ∀ dn ∈ task.dnQueue, s.ShownExpanded task.root ⟨task.itemType, dn⟩) ∧
    (rest = [] ∧ s.restoreTaskQueue = [] ∧ s.restoreTaskActive = false ∨
      ∃ current later expanded dn dnQueue, rest = current :: later ∧
        s.Waits source current later expanded dn dnQueue)

section
variable {source : ScopeSource} {s s' : TreeStateManager} {tasks done later : List ExpandTask}
  {task current : ExpandTask} {callbacks : List ℕ} {expanded dnQueue : List QString}

/-- Tasks that have been done before. -/
theorem Progress.append (h : Progress source tasks (callbacks ++ callbackRoots done) s)
    (hdone : ∀ task ∈ done, ∀ dn ∈ task.dnQueue, s.ShownExpanded task.root ⟨task.itemType, dn⟩) :
    Progress source (done ++ tasks) callbacks s := by
  obtain ⟨done', rest, rfl, hcallbacks, hdone', hrest⟩ := h.exists_done
  refine ⟨h.sound, h.expandedFetched, done ++ done', rest, by rw [List.append_assoc], ?_,
    List.forall_mem_append.2 ⟨hdone, hdone'⟩, hrest⟩
  rw [hcallbacks, callbackRoots, callbackRoots, callbackRoots, List.filter_append, List.map_append,
    List.append_assoc]

/-- A task whose first items have been expanded before. -/
theorem Progress.cons (h : Progress source ({ current with dnQueue := dnQueue } :: later)
      callbacks s) (hsplit : current.dnQueue = expanded ++ dnQueue)
    (hexpanded : ∀ dn ∈ expanded, s.ShownExpanded current.root ⟨current.itemType, dn⟩) :
    Progress source (current :: later) callbacks s := by
  obtain ⟨done, rest, htasks, hcallbacks, hdone, hrest⟩ := h.exists_done
  refine ⟨h.sound, h.expandedFetched, ?_⟩
  cases done with
  | nil =>
    obtain ⟨rfl, -⟩ | ⟨current', later', expanded', dn, dnQueue', rfl, hwaits⟩ := hrest
    · exact nomatch htasks
    · obtain ⟨rfl, rfl⟩ := List.cons.inj htasks
      refine ⟨[], _, rfl, hcallbacks, nofun, .inr ⟨current, later, expanded ++ expanded', dn,
        dnQueue', rfl, ?_, hwaits.queue, hwaits.active, ?_, hwaits.supplied, hwaits.later,
        hwaits.triggered⟩⟩
      · have hsplit' : dnQueue = expanded' ++ dn :: dnQueue' := hwaits.split
        rw [hsplit, hsplit', List.append_assoc]
      · exact List.forall_mem_append.2 ⟨hexpanded, hwaits.expanded⟩
  | cons task done =>
    obtain ⟨rfl, rfl⟩ := List.cons.inj htasks
    rw [List.forall_mem_cons] at hdone
    have hroots : callbackRoots ({ current with dnQueue := dnQueue } :: done) =
        callbackRoots (current :: done) := by
      simp only [callbackRoots, List.filter_cons]
      split_ifs <;> rfl
    rw [hroots] at hcallbacks
    refine ⟨current :: done, rest, rfl, hcallbacks, List.forall_mem_cons.2 ⟨?_, hdone.2⟩, hrest⟩
    rw [hsplit]
    exact List.forall_mem_append.2 ⟨hexpanded, hdone.1⟩

/-- What the callback of a task does. -/
theorem reaches_runCallback (h : s.Sound source []) (hexpanded : s.ExpandedFetched) :
    Grows s (s.runCallback source task) ∧ (s.runCallback source task).Sound source [] ∧
      (s.runCallback source task).ExpandedFetched ∧
      (∀ entry ∈ s.toInsert, entry ∈ (s.runCallback source task).toInsert) ∧
      (s.runCallback source task).callbacksRun = s.callbacksRun ++ callbackRoots [task] := by
  rw [runCallback]
  cases hcallback : task.onFinished with
  | none =>
    have hnone : callbackRoots [task] = [] := by simp [callbackRoots, hcallback]
    rw [hnone, List.append_nil]
    exact ⟨.refl, h, hexpanded, fun _ h => h, rfl⟩
  | some allPoliciesExpanded =>
    have hsome : callbackRoots [task] = [task.root] := by simp [callbackRoots, hcallback]
    rw [hsome]
    set called : TreeStateManager := { s with callbacksRun := s.callbacksRun ++ [task.root] }
    have hitems : SameItems s called := ⟨rfl, rfl, rfl, rfl⟩
    have hcalled := h.of_sameItems hitems
    have hgrows := hitems.grows
    have hsame : Grows s called ∧ called.Sound source [] ∧ called.ExpandedFetched ∧
        (∀ entry ∈ s.toInsert, entry ∈ called.toInsert) ∧
        called.callbacksRun = s.callbacksRun ++ [task.root] :=
      ⟨hgrows, hcalled, hexpanded, fun _ h => h, rfl⟩
    dsimp only
    split_ifs
    · exact hsame
    · cases hsearch : searchItem called.model task.root fun item =>
          item.type = .allPoliciesFolder with
      | none => exact hsame
      | some idx =>
        obtain ⟨row, hrow, rfl, -, -⟩ := searchItem_eq_some hsearch
        dsimp only
        split_ifs
        · obtain ⟨hreaches, -, -, hexpanded'⟩ := reaches_setExpanded hcalled hexpanded hrow
          exact ⟨hgrows.trans hreaches.grows, hreaches.sound, hexpanded', hreaches.toInsert,
            hreaches.callbacksRun⟩
        · exact hsame

/-- The tasks are done as far as their rows are there. -/
theorem progress_continueTasks (h : s.Sound source []) (hexpanded : s.ExpandedFetched)
    (hactive : s.restoreTaskActive = true)
    (htasks : ∀ task ∈ tasks, s.Supplied source task.root task.itemType task.dnQueue) :
    Progress source tasks s.callbacksRun (continueTasks source tasks s) ∧
      Grows s (continueTasks source tasks s) := by
  induction tasks generalizing s with
  | nil =>
    have hitems : SameItems s (continueTasks source [] s) := ⟨rfl, rfl, rfl, rfl⟩
    refine ⟨⟨h.of_sameItems hitems, hexpanded, [], [], rfl, ?_, nofun, .inl ⟨rfl, rfl, rfl⟩⟩,
      hitems.grows⟩
    exact (List.append_nil _).symm
  | cons task tasks ih =>
    rw [List.forall_mem_cons] at htasks
    have hfound := expands_expandFound h hexpanded htasks.1
    rw [continueTasks]
    dsimp only
    generalize expandFound source task.root task.itemType task.dnQueue s = found at hfound ⊢
    obtain ⟨dnQueue, found⟩ := found
    obtain ⟨expanded, hsplit, hdone⟩ := hfound.exists_done
    split_ifs with hempty
    · -- the task is finished, and the next one is started
      set finished : TreeStateManager :=
        { found with restoreTaskActive := false, waitingParent := none }
      obtain ⟨hgrows, hsound, hexpanded', htoInsert, hcallbacks⟩ :=
        @reaches_runCallback source finished task
          (hfound.reaches.sound.of_sameItems ⟨rfl, rfl, rfl, rfl⟩) hfound.expandedFetched
      set started : TreeStateManager :=
        { finished.runCallback source task with restoreTaskActive := true, waitingParent := none }
      have hstarted' : Grows found started :=
        ⟨hgrows.rows, hgrows.chain, hgrows.wasFetched, hgrows.isExpanded⟩
      have hstarted : Grows s started := hfound.reaches.grows.trans hstarted'
      have hlater : ∀ task ∈ tasks,
          started.Supplied source task.root task.itemType task.dnQueue := fun task htask =>
        (htasks.2 task htask).grows hstarted fun entry hentry =>
          htoInsert entry (hfound.reaches.toInsert entry hentry)
      obtain ⟨hprogress, hgrows'⟩ := @ih started
        (hsound.of_sameItems ⟨rfl, rfl, rfl, rfl⟩) hexpanded' rfl hlater
      have hroots : started.callbacksRun = s.callbacksRun ++ callbackRoots [task] := by
        rw [← hfound.reaches.callbacksRun]
        exact hcallbacks
      rw [hroots] at hprogress
      refine ⟨hprogress.append (List.forall_mem_singleton.2 ?_), hstarted.trans hgrows'⟩
      rw [hsplit, hempty, List.append_nil]
      intro dn hdn
      exact (hdone dn hdn).grows (hstarted'.trans hgrows')
    · -- the row of the next DN is not there
      obtain ⟨dn, dnQueue, rfl⟩ := List.exists_cons_of_ne_nil hempty
      set waiting : TreeStateManager :=
        { found with restoreTaskQueue := { task with dnQueue := dn :: dnQueue } :: tasks }
      have hitems : SameItems found waiting := ⟨rfl, rfl, rfl, rfl⟩
      have hwaiting := hfound.reaches.grows.trans hitems.grows
      have hsound := hfound.reaches.sound.of_sameItems hitems
      have hwaits : waiting.Waits source task tasks expanded dn dnQueue :=
        { split := hsplit
          queue := rfl
          active := hfound.reaches.active.trans hactive
          expanded := hdone
          supplied := hfound.supplied
          later := fun task htask => (htasks.2 task htask).grows hwaiting hfound.reaches.toInsert
          triggered := fun hshown => absurd hshown (hfound.not_shown dn dnQueue rfl) }
      refine ⟨⟨hsound, hfound.expandedFetched, [], _, rfl, ?_, nofun,
        .inr ⟨task, tasks, expanded, dn, dnQueue, rfl, hwaits⟩⟩, hwaiting⟩
      exact hfound.reaches.callbacksRun.trans (List.append_nil _).symm

end

/-! ## Events -/

/-- What happens while the tree is restored: a row is inserted, or the first insertion of those
    that are posted is notified. -/
inductive RestoreEvent
  | insert (entry : ℕ × ScopeItem)
  | notify

/-- What an event does. -/
def handle (source : ScopeSource) (s : TreeStateManager) : RestoreEvent → TreeStateManager
  | .insert entry => insertRow { s with toInsert := s.toInsert.erase entry } entry
  | .notify =>
    match s.posted with
    | [] => s
    | parent :: posted => onRowsInserted source { s with posted := posted } parent

/-- The rows that are inserted are those that are still to be inserted, in any order. -/
def Possible (s : TreeStateManager) : RestoreEvent → Prop
  | .insert entry => entry ∈ s.toInsert
  | .notify => s.posted ≠ []

/-- The row of the item that is waited for does not come below another parent than the one whose
    notifications are looked at when there are no more to come for this one. -/
def InTime (s : TreeStateManager) : RestoreEvent → Prop
  | .insert entry => ∀ task later, s.restoreTaskQueue = task :: later →
    task.dnQueue.head? = some entry.2.dn → task.itemType = entry.2.type →
    task.root ∈ s.model.chain entry.1 →
    ∀ parent, s.waitingParent = some parent → parent ≠ entry.1 → s.Triggered
  | .notify => True

section
variable {source : ScopeSource} {s s' : TreeStateManager} {tasks : List ExpandTask}
  {callbacks : List ℕ} {entry : ℕ × ScopeItem} {root : ℕ} {item : ScopeItem}
  {itemType : ConsoleItemType} {dnQueue : List QString} {event : RestoreEvent}

theorem Sound.erase (h : s.Sound source []) (hentry : entry ∈ s.toInsert) :
    Sound source { s with toInsert := s.toInsert.erase entry } [entry] := by
  have hmem : ∀ entry', entry' ∈ s.toInsert.erase entry ++ [entry] ↔ entry' ∈ s.toInsert := by
    intro entry'
    rw [List.mem_append, List.mem_singleton]
    constructor
    · rintro (hmem | rfl)
      exacts [List.mem_of_mem_erase hmem, hentry]
    · intro hmem
      by_cases heq : entry' = entry
      exacts [.inr heq, .inl ((List.mem_erase_of_ne heq).2 hmem)]
  refine ⟨fun entry' hentry' => ?_, h.valid_fetched, fun row hrow hfetched item hitem => ?_⟩
  · exact h.valid entry' (List.mem_append_left _ ((hmem entry').1 hentry'))
  · refine (h.complete row hrow hfetched item hitem).imp_right fun hmem' => (hmem _).2 ?_
    rwa [List.append_nil] at hmem'

/-- What the insertion of a row does. -/
theorem handle_insert (h : s.Sound source []) (hentry : entry ∈ s.toInsert) :
    s.handle source (.insert entry) =
      { s with
        toInsert := s.toInsert.erase entry
        model := s.model.add entry.2 entry.1 (h.valid entry (List.mem_append_left _ hentry))
        posted := s.posted ++ [entry.1] } :=
  dif_pos (h.valid entry (List.mem_append_left _ hentry))

theorem grows_handle_insert : Grows s (s.handle source (.insert entry)) := by
  have hgrows := @grows_insertRow { s with toInsert := s.toInsert.erase entry } entry
  exact ⟨hgrows.rows, hgrows.chain, hgrows.wasFetched, hgrows.isExpanded⟩

/-- An item that is shown after an insertion has been shown before, or it is inserted. -/
theorem Shown.of_insert (h : s.Sound source []) (hroot : s.model.Valid root)
    (hentry : entry ∈ s.toInsert) (hshown : (s.handle source (.insert entry)).Shown root item) :
    s.Shown root item ∨ entry.2 = item ∧ root ∈ s.model.chain entry.1 := by
  have hgrows := @grows_handle_insert source s entry
  obtain ⟨row, hrow, hchain, hdata⟩ := hshown
  have hrow' := hrow
  rw [handle_insert h hentry] at hrow'
  obtain rfl | hold := List.mem_cons.1 hrow'
  · refine .inr ⟨hdata, ?_⟩
    rw [Forest.chain_of_mem hrow] at hchain
    have hvalid := h.valid entry (List.mem_append_left _ hentry)
    rw [hgrows.chain _ hvalid] at hchain
    exact (List.mem_cons.1 hchain).resolve_left hroot.lt_next.ne
  · refine .inl ⟨row, hold, ?_, hdata⟩
    rwa [hgrows.chain _ (Forest.valid_of_mem hold)] at hchain

/-- A row that is inserted supplies what it has been awaited for. -/
theorem Supplied.insert (h : s.Sound source []) (hentry : entry ∈ s.toInsert)
    (hsupplied : s.Supplied source root itemType dnQueue) :
    (s.handle source (.insert entry)).Supplied source root itemType dnQueue := by
  have hgrows := @grows_handle_insert source s entry
  refine ⟨hgrows.valid hsupplied.1, fun before dn after hqueue => ?_⟩
  obtain ⟨hscope, hsupply⟩ := hsupplied.2 before dn after hqueue
  refine ⟨hscope, ?_⟩
  obtain hshown | ⟨parent, hmem, hchain⟩ | hearlier := hsupply
  · exact .inl (hshown.grows hgrows)
  · have hvalid := (Forest.valid_of_mem_chain hchain).2
    by_cases heq : (parent, ⟨itemType, dn⟩) = entry
    · -- the row that is inserted is this one
      subst heq
      rw [handle_insert h hentry]
      refine .inl ⟨_, List.mem_cons_self, ?_, rfl⟩
      rw [Forest.chain_of_mem List.mem_cons_self]
      refine List.mem_cons_of_mem _ ?_
      have hsame := hgrows.chain parent hvalid
      rw [handle_insert h hentry] at hsame
      rwa [hsame]
    · refine .inr (.inl ⟨parent, ?_, ?_⟩)
      · rw [handle_insert h hentry]
        exact (List.mem_erase_of_ne heq).2 hmem
      · rwa [hgrows.chain parent hvalid]
  · exact .inr (.inr hearlier)

theorem Triggered.insert (h : s.Sound source []) (hentry : entry ∈ s.toInsert)
    (htriggered : s.Triggered) : (s.handle source (.insert entry)).Triggered := by
  rw [handle_insert h hentry]
  rw [Triggered] at htriggered ⊢
  dsimp only
  cases hwaiting : s.waitingParent with
  | none => exact List.append_ne_nil_of_right_ne_nil _ (List.cons_ne_nil _ _)
  | some parent =>
    rw [hwaiting] at htriggered
    obtain hposted | ⟨item, hitem⟩ := htriggered
    · exact .inl (List.mem_append_left _ hposted)
    · by_cases heq : (parent, item) = entry
      · exact .inl (List.mem_append_right _ (by rw [← heq]; exact List.mem_singleton_self _))
      · exact .inr ⟨item, (List.mem_erase_of_ne heq).2 hitem⟩

/-- An insertion keeps what is known of the task that waits. -/
theorem Waits.insert {current : ExpandTask} {later : List ExpandTask} {expanded : List QString}
    {dn : QString} (h : s.Sound source []) (hentry : entry ∈ s.toInsert)
    (hinTime : s.InTime (.insert entry))
    (hwaits : s.Waits source current later expanded dn dnQueue) :
    (s.handle source (.insert entry)).Waits source current later expanded dn dnQueue := by
  have hgrows := @grows_handle_insert source s entry
  have hqueue : (s.handle source (.insert entry)).restoreTaskQueue = s.restoreTaskQueue := by
    rw [handle_insert h hentry]
  refine ⟨hwaits.split, hqueue.trans hwaits.queue, ?_,
    fun dn' hdn' => (hwaits.expanded dn' hdn').grows hgrows, hwaits.supplied.insert h hentry,
    fun task htask => (hwaits.later task htask).insert h hentry, fun hshown => ?_⟩
  · rw [handle_insert h hentry]
    exact hwaits.active
  · obtain hshown | ⟨hitem, hchain⟩ := hshown.of_insert h hwaits.supplied.1 hentry
    · exact (hwaits.triggered hshown).insert h hentry
    · -- the row that is waited for: its parent is looked at, or there is more to come
      by_cases hparent : ∃ parent, s.waitingParent = some parent ∧ parent ≠ entry.1
      · obtain ⟨parent, hwaiting, hne⟩ := hparent
        refine Triggered.insert h hentry ?_
        refine hinTime _ _ hwaits.queue ?_ ?_ hchain parent hwaiting hne
        · rw [hitem]
          rfl
        · rw [hitem]
      · rw [handle_insert h hentry]
        rw [Triggered]
        dsimp only
        cases hwaiting : s.waitingParent with
        | none => exact List.append_ne_nil_of_right_ne_nil _ (List.cons_ne_nil _ _)
        | some parent =>
          have heq : parent = entry.1 := by
            by_contra hne
            exact hparent ⟨parent, hwaiting, hne⟩
          exact .inl (List.mem_append_right _ (heq ▸ List.mem_singleton_self _))

theorem Progress.insert (h : Progress source tasks callbacks s) (hentry : entry ∈ s.toInsert)
    (hinTime : s.InTime (.insert entry)) :
    Progress source tasks callbacks (s.handle source (.insert entry)) := by
  have hgrows := @grows_handle_insert source s entry
  have hinsert := handle_insert h.sound hentry
  obtain ⟨done, rest, htasks, hcallbacks, hdone, hrest⟩ := h.exists_done
  refine ⟨(h.sound.erase hentry).insertRow, ?_, done, rest, htasks, ?_,
    fun task htask dn hdn => (hdone task htask dn hdn).grows hgrows, ?_⟩
  · rw [hinsert]
    exact h.expandedFetched
  · rw [hinsert]
    exact hcallbacks
  · obtain ⟨hnil, hqueue, hactive⟩ | ⟨current, later, expanded, dn, dnQueue, hcons, hwaits⟩ := hrest
    · rw [hinsert]
      exact .inl ⟨hnil, hqueue, hactive⟩
    · exact .inr ⟨current, later, expanded, dn, dnQueue, hcons,
        hwaits.insert h.sound hentry hinTime⟩

theorem Progress.notify (h : Progress source tasks callbacks s) :
    Progress source tasks callbacks (s.handle source .notify) := by
  rw [handle]
  cases hposted : s.posted with
  | nil => exact h
  | cons parent posted =>
    set notified : TreeStateManager := { s with posted := posted }
    have hitems : SameItems s notified := ⟨rfl, rfl, rfl, rfl⟩
    have hgrows := hitems.grows
    have hsound := h.sound.of_sameItems hitems
    obtain ⟨done, rest, rfl, hcallbacks, hdone, hrest⟩ := h.exists_done
    dsimp only
    rw [onRowsInserted]
    obtain ⟨rfl, hqueue, hactive⟩ | ⟨current, later, expanded, dn, dnQueue, rfl, hwaits⟩ := hrest
    · -- nothing is left to be done
      have hinactive : ¬notified.restoreTaskActive = true := by
        rw [show notified.restoreTaskActive = false from hactive]
        exact Bool.false_ne_true
      rw [if_neg hinactive]
      exact ⟨hsound, h.expandedFetched, done, [], rfl, hcallbacks, hdone,
        .inl ⟨rfl, hqueue, hactive⟩⟩
    · rw [if_pos (show notified.restoreTaskActive = true from hwaits.active)]
      split_ifs with hother
      · -- another parent is waited for
        refine ⟨hsound, h.expandedFetched, done, _, rfl, hcallbacks, hdone, .inr ⟨current, later,
          expanded, dn, dnQueue, rfl, hwaits.split, hwaits.queue, hwaits.active, hwaits.expanded,
          hwaits.supplied, hwaits.later, fun hshown => ?_⟩⟩
        obtain ⟨hsome, hne⟩ := hother
        have htriggered := hwaits.triggered hshown
        rw [Triggered] at htriggered ⊢
        obtain ⟨awaited, hawaited⟩ := Option.isSome_iff_exists.1 hsome
        have hawaited' : s.waitingParent = some awaited := hawaited
        rw [hawaited'] at htriggered
        rw [hawaited]
        refine htriggered.imp_left fun hmem => ?_
        rw [hposted] at hmem
        refine (List.mem_cons.1 hmem).resolve_left fun heq => hne ?_
        rw [hawaited, heq]
      · -- the search is made again
        have hqueue : notified.restoreTaskQueue =
            { current with dnQueue := dn :: dnQueue } :: later := hwaits.queue
        have hsupplied : ∀ task ∈ notified.restoreTaskQueue,
            notified.Supplied source task.root task.itemType task.dnQueue := by
          rw [hqueue]
          refine List.forall_mem_cons.2 ⟨?_, fun task htask => ?_⟩
          · exact hwaits.supplied.grows hgrows fun _ h => h
          · exact (hwaits.later task htask).grows hgrows fun _ h => h
        obtain ⟨hprogress, hgrows'⟩ :=
          progress_continueTasks hsound h.expandedFetched hwaits.active hsupplied
        rw [show notified.callbacksRun = callbacks ++ callbackRoots done from hcallbacks]
          at hprogress
        generalize continueTasks source notified.restoreTaskQueue notified = result
          at hprogress hgrows' ⊢
        rw [hqueue] at hprogress
        refine Progress.append ?_ fun task htask dn hdn =>
          (hdone task htask dn hdn).grows (hgrows.trans hgrows')
        exact hprogress.cons hwaits.split fun dn hdn =>
          (hwaits.expanded dn hdn).grows (hgrows.trans hgrows')

/-- What an event does to the tasks. -/
theorem Progress.handle (h : Progress source tasks callbacks s) (hpossible : s.Possible event)
    (hinTime : s.InTime event) : Progress source tasks callbacks (s.handle source event) := by
  cases event with
  | insert entry => exact h.insert hpossible hinTime
  | notify => exact h.notify

end

/-! ## The restoration -/

/-- What has been saved for a tree: the root, the DN from which on the DNs of nodes are made, the
    list of DNs, and the type of the items with a callback. -/
structure SavedSubtree where
  root : ℕ
  baseDn : QString
  nameList : List QString
  itemType : ConsoleItemType
  onFinished : Option Bool

/-- The task for a saved tree. -/
def SavedSubtree.task (subtree : SavedSubtree) : ExpandTask where
  root := subtree.root
  dnQueue := prepareRestoreDnQueue subtree.baseDn subtree.nameList
  itemType := subtree.itemType
  onFinished := subtree.onFinished

/-- `TreeStateManager::enqueue_restore_task`. -/
def enqueueRestoreTask (s : TreeStateManager) (subtree : SavedSubtree) : TreeStateManager :=
  { s with restoreTaskQueue := s.restoreTaskQueue ++ [subtree.task] }

/-- `TreeStateManager::restore`, for the trees whose states have been saved. -/
def restore (source : ScopeSource) (subtrees : List SavedSubtree) (s : TreeStateManager) :
    TreeStateManager :=
  startNextRestoreTask source (subtrees.foldl enqueueRestoreTask s)

section
variable (source : ScopeSource) (s : TreeStateManager)

/-- No task is there, and the rows that have been fetched are there or are still to be
    inserted. -/
structure IsIdle : Prop where
  queue : s.restoreTaskQueue = []
  active : s.restoreTaskActive = false
  sound : s.Sound source []
  expandedFetched : s.ExpandedFetched

/-- The nodes of a saved list exist: unless it is empty, the list has the DN of the base, whose
    row is there or is still to be inserted, and DNs below it; and each DN in the queue, which is
    made from the parts between commas, is that of an item of the scope, which is fetched for
    that of its parent. -/
structure NodesExist (subtree : SavedSubtree) : Prop where
  valid_root : s.model.Valid subtree.root
  base_ne_nil : subtree.baseDn ≠ []
  base_mem : subtree.nameList ≠ [] → subtree.baseDn ∈ subtree.nameList
  base_supplied : subtree.nameList ≠ [] →
    s.Shown subtree.root ⟨subtree.itemType, subtree.baseDn⟩ ∨
      s.Awaited subtree.root ⟨subtree.itemType, subtree.baseDn⟩
  below : ∀ dn ∈ subtree.nameList,
    dn = subtree.baseDn ∨ ∃ rdns, dn = rdns ++ ',' :: subtree.baseDn
  isScope : ∀ dn ∈ subtree.task.dnQueue, source.isScope ⟨subtree.itemType, dn⟩ = true
  fetched : ∀ dn ∈ subtree.task.dnQueue, dn ≠ subtree.baseDn →
    ⟨subtree.itemType, dn⟩ ∈ source.fetched ⟨subtree.itemType, parentDn dn⟩

/-- All saved nodes are expanded, and the callbacks have been run once, one after another. -/
structure Restored (subtrees : List SavedSubtree) (callbacks : List ℕ) : Prop where
  queue : s.restoreTaskQueue = []
  expanded : ∀ subtree ∈ subtrees, ∀ dn ∈ subtree.nameList,
    s.ShownExpanded subtree.root ⟨subtree.itemType, dn⟩
  callbacksRun : s.callbacksRun = callbacks ++ callbackRoots (subtrees.map SavedSubtree.task)

end

section
variable {source : ScopeSource} {s idle : TreeStateManager} {subtree : SavedSubtree}
  {subtrees : List SavedSubtree}

theorem NodesExist.supplied (h : s.NodesExist source subtree) :
    s.Supplied source subtree.root subtree.itemType subtree.task.dnQueue := by
  refine ⟨h.valid_root, fun before dn after hqueue => ?_⟩
  have hdn : dn ∈ subtree.task.dnQueue := hqueue ▸ List.mem_append_right _ List.mem_cons_self
  have hne : subtree.nameList ≠ [] := by
    intro hnil
    rw [SavedSubtree.task, hnil] at hdn
    simp [prepareRestoreDnQueue] at hdn
  refine ⟨h.isScope dn hdn, ?_⟩
  by_cases hbase : dn = subtree.baseDn
  · rw [hbase]
    exact (h.base_supplied hne).imp_right .inl
  · have hparents := parentsFirst_prepareRestoreDnQueue h.base_ne_nil (h.base_mem hne)
    have hparent := (hparents before dn after hqueue).resolve_left hbase
    exact .inr (.inr ⟨parentDn dn, hparent, h.fetched dn hdn hbase⟩)

theorem foldl_enqueueRestoreTask : subtrees.foldl enqueueRestoreTask s =
    { s with restoreTaskQueue := s.restoreTaskQueue ++ subtrees.map SavedSubtree.task } := by
  induction subtrees generalizing s with
  | nil => rw [List.map_nil, List.append_nil]; rfl
  | cons subtree subtrees ih =>
    rw [List.foldl_cons, ih, enqueueRestoreTask, List.map_cons, List.append_assoc]
    rfl

theorem IsIdle.progress_restore (h : idle.IsIdle source)
    (hexist : ∀ subtree ∈ subtrees, idle.NodesExist source subtree) :
    Progress source (subtrees.map SavedSubtree.task) idle.callbacksRun
      (idle.restore source subtrees) := by
  rw [restore, startNextRestoreTask]
  rw [foldl_enqueueRestoreTask, h.queue, List.nil_append]
  dsimp only
  split_ifs with hnone
  · obtain hactive | hnil := hnone
    · exact absurd (hactive.symm.trans h.active) (by decide)
    · refine ⟨h.sound.of_sameItems ⟨rfl, rfl, rfl, rfl⟩, h.expandedFetched, [], [], hnil,
        (List.append_nil _).symm, nofun, .inl ⟨rfl, hnil, h.active⟩⟩
  · set started : TreeStateManager :=
      { idle with
        restoreTaskQueue := subtrees.map SavedSubtree.task
        waitingParent := none
        restoreTaskActive := true } with hstarted
    have hitems : SameItems idle started := ⟨rfl, rfl, rfl, rfl⟩
    have htasks : ∀ task ∈ subtrees.map SavedSubtree.task,
        started.Supplied source task.root task.itemType task.dnQueue :=
      List.forall_mem_map.2 fun subtree hsubtree =>
        (hexist subtree hsubtree).supplied.grows hitems.grows fun _ h => h
    exact (progress_continueTasks (h.sound.of_sameItems hitems) h.expandedFetched rfl htasks).1

theorem IsIdle.progress_of_run (hidle : idle.IsIdle source)
    (hexist : ∀ subtree ∈ subtrees, idle.NodesExist source subtree)
    (h : Run (· = idle.restore source subtrees) (fun s event => s.Possible event ∧ s.InTime event)
      (handle source) s) :
    Progress source (subtrees.map SavedSubtree.task) idle.callbacksRun s := by
  refine h.invariant (fun s hs => ?_) fun s event h hevent => h.handle hevent.1 hevent.2
  rw [hs]
  exact hidle.progress_restore hexist

/-- Once all rows have been inserted and all insertions notified, the state of the tree has been
    restored, if each row that was waited for came in time. -/
theorem restored_of_run (source : ScopeSource) (subtrees : List SavedSubtree)
    (idle s : TreeStateManager) (hidle : idle.IsIdle source)
    (hexist : ∀ subtree ∈ subtrees, idle.NodesExist source subtree)
    (h : Run (· = idle.restore source subtrees) (fun s event => s.Possible event ∧ s.InTime event)
      (handle source) s)
    (hinserted : s.toInsert = []) (hnotified : s.posted = []) :
    s.Restored subtrees idle.callbacksRun := by
  have hprogress := hidle.progress_of_run hexist h
  obtain ⟨done, rest, htasks, hcallbacks, hdone, hrest⟩ := hprogress.exists_done
  obtain ⟨rfl, hqueue, -⟩ | ⟨current, later, expanded, dn, dnQueue, -, hwaits⟩ := hrest
  · rw [List.append_nil] at htasks
    rw [← htasks] at hcallbacks hdone
    refine ⟨hqueue, fun subtree hsubtree dn hdn => ?_, hcallbacks⟩
    have hnodes := hexist subtree hsubtree
    exact hdone subtree.task (List.mem_map_of_mem hsubtree) dn
      (mem_prepareRestoreDnQueue_of_below hnodes.base_ne_nil
        (hnodes.base_mem (List.ne_nil_of_mem hdn)) hnodes.below hdn)
  · -- what is waited for is there, and there is nothing left to notify
    exfalso
    obtain hshown | ⟨parent, hmem, -⟩ | ⟨dn', hdn', -⟩ :=
      (hwaits.supplied.2 [] dn dnQueue rfl).2
    · have htriggered := hwaits.triggered hshown
      rw [Triggered] at htriggered
      rw [hinserted, hnotified] at htriggered
      cases hwaiting : s.waitingParent with
      | none =>
        rw [hwaiting] at htriggered
        exact htriggered rfl
      | some parent =>
        rw [hwaiting] at htriggered
        obtain hmem | ⟨item, hmem⟩ := htriggered
        · exact List.not_mem_nil hmem
        · exact List.not_mem_nil hmem
    · rw [hinserted] at hmem
      exact List.not_mem_nil hmem
    · exact List.not_mem_nil hdn'

/-! ## Rows that come late -/

/-- Only the notifications of one parent are looked at, and there are none to come. -/
def Stuck (s : TreeStateManager) : Prop :=
  s.restoreTaskActive = true ∧ s.restoreTaskQueue ≠ [] ∧
    ∃ parent, s.waitingParent = some parent ∧ parent ∉ s.posted ∧
      ∀ item, (parent, item) ∉ s.toInsert

theorem Stuck.handle {event : RestoreEvent} (h : s.Stuck) (hpossible : s.Possible event) :
    (s.handle source event).Stuck := by
  obtain ⟨hactive, hqueue, parent, hwaiting, hposted, htoInsert⟩ := h
  cases event with
  | insert entry =>
    -- the row comes below another parent
    have hne : parent ≠ entry.1 := fun heq => htoInsert entry.2 (heq ▸ hpossible)
    have herase : ∀ item, (parent, item) ∉ s.toInsert.erase entry := fun item hmem =>
      htoInsert item (List.mem_of_mem_erase hmem)
    rw [TreeStateManager.handle, insertRow]
    dsimp only
    split_ifs
    · refine ⟨hactive, hqueue, parent, hwaiting, fun hmem => ?_, herase⟩
      rcases List.mem_append.1 hmem with hmem | hmem
      · exact hposted hmem
      · exact hne (List.mem_singleton.1 hmem)
    · exact ⟨hactive, hqueue, parent, hwaiting, hposted, herase⟩
  | notify =>
    rw [TreeStateManager.handle]
    cases hcons : s.posted with
    | nil => exact absurd hcons hpossible
    | cons notified posted =>
      rw [hcons, List.mem_cons, not_or] at hposted
      have hother : s.waitingParent.isSome ∧ s.waitingParent ≠ some notified := by
        rw [hwaiting]
        exact ⟨rfl, fun heq => hposted.1 (Option.some.inj heq)⟩
      dsimp only
      rw [onRowsInserted, if_pos (by exact hactive), if_pos (by exact hother)]
      exact ⟨hactive, hqueue, parent, hwaiting, hposted.2, htoInsert⟩

/-- Once the row that is waited for has come late, the tasks are never finished. -/
theorem stuck_of_late {event : RestoreEvent} {s' : TreeStateManager} (hidle : idle.IsIdle source)
    (hexist : ∀ subtree ∈ subtrees, idle.NodesExist source subtree)
    (h : Run (· = idle.restore source subtrees) (fun s event => s.Possible event ∧ s.InTime event)
      (handle source) s) (hlate : ¬s.InTime event)
    (h' : Run (· = s) Possible (handle source) s') : ¬s'.Restored subtrees idle.callbacksRun := by
  have hprogress := hidle.progress_of_run hexist h
  have hstuck : s.Stuck := by
    cases event with
    | notify => exact absurd trivial hlate
    | insert entry =>
      rw [InTime] at hlate
      push Not at hlate
      obtain ⟨task, later, hqueue, -, -, -, parent, hwaiting, -, hnot⟩ := hlate
      rw [Triggered] at hnot
      rw [hwaiting] at hnot
      push Not at hnot
      have hne : s.restoreTaskQueue ≠ [] := hqueue ▸ List.cons_ne_nil _ _
      obtain ⟨_, _, -, -, -, hrest⟩ := hprogress.exists_done
      obtain ⟨-, hnil, -⟩ | ⟨_, _, _, _, _, -, hwaits⟩ := hrest
      · exact absurd hnil hne
      · exact ⟨hwaits.active, hne, parent, hwaiting, hnot.1, hnot.2⟩
  have hstuck' : s'.Stuck := by
    refine h'.invariant (fun s hs => ?_) fun s event h hpossible => h.handle hpossible
    rw [hs]
    exact hstuck
  exact fun hrestored => hstuck'.2.1 hrestored.queue

end

/-! ## Two units -/

/-- A row that comes below the parent whose notifications are looked at comes in time. -/
theorem inTime_of_waitingParent {s : TreeStateManager} {entry : ℕ × ScopeItem}
    (h : s.waitingParent = some entry.1) : s.InTime (.insert entry) :=
  fun _ _ _ _ _ _ _ hparent hne => absurd (Option.some.inj (hparent.symm.trans h)) hne

/-- The item of an object. -/
def objectItem (dn : String) : ScopeItem := ⟨.object, dn.toList⟩

/-- A domain with two units, in which there is nothing. -/
def twoUnits : ScopeSource where
  fetched item :=
    if item = objectItem "DC=alt" then [objectItem "OU=a,DC=alt", objectItem "OU=b,DC=alt"] else []
  atOnce _ := false
  isScope _ := true

/-- The domain has not been fetched. -/
def collapsedDomain : TreeStateManager where
  model := Forest.empty.add (objectItem "DC=alt") 0 (.inl rfl)
  wasFetched := []
  isExpanded := []
  toInsert := []
  posted := []
  restoreTaskQueue := []
  restoreTaskActive := false
  waitingParent := none
  callbacksRun := []

/-- The domain and its units were expanded. -/
def savedUnits : SavedSubtree where
  root := 1
  baseDn := "DC=alt".toList
  nameList := ["DC=alt".toList, "OU=a,DC=alt".toList, "OU=b,DC=alt".toList]
  itemType := .object
  onFinished := none

/-- The domain has been expanded, and its units are fetched. -/
def fetchingUnits : TreeStateManager := collapsedDomain.restore twoUnits [savedUnits]

theorem isIdle_collapsedDomain : collapsedDomain.IsIdle twoUnits :=
  ⟨rfl, rfl, ⟨nofun, nofun, nofun⟩, nofun⟩

theorem nodesExist_collapsedDomain :
    ∀ subtree ∈ [savedUnits], collapsedDomain.NodesExist twoUnits subtree := by
  refine List.forall_mem_singleton.2 ?_
  have hroot : collapsedDomain.Shown 1 (objectItem "DC=alt") :=
    ⟨⟨1, 0, objectItem "DC=alt"⟩, List.mem_cons_self, by decide, rfl⟩
  have hbelow : ∀ dn ∈ savedUnits.nameList, dn = savedUnits.baseDn ∨
      ∃ rdns, dn = rdns ++ ',' :: savedUnits.baseDn := by
    refine List.forall_mem_cons.2 ⟨.inl rfl, List.forall_mem_cons.2 ⟨.inr ⟨"OU=a".toList, ?_⟩,
      List.forall_mem_singleton.2 (.inr ⟨"OU=b".toList, ?_⟩)⟩⟩ <;> decide
  exact ⟨.inr ⟨_, List.mem_cons_self, rfl⟩, by decide, fun _ => List.mem_cons_self,
    fun _ => .inl hroot, hbelow, fun _ _ => rfl, by decide⟩

/-- The rows of both units come before anything is notified. -/
def insertedUnits : TreeStateManager :=
  (fetchingUnits.handle twoUnits (.insert (1, objectItem "OU=a,DC=alt"))).handle twoUnits
    (.insert (1, objectItem "OU=b,DC=alt"))

theorem run_insertedUnits : Run (· = collapsedDomain.restore twoUnits [savedUnits])
    (fun s event => s.Possible event ∧ s.InTime event) (handle twoUnits) insertedUnits := by
  have hfirst : fetchingUnits.Possible (.insert (1, objectItem "OU=a,DC=alt")) :=
    show _ ∈ fetchingUnits.toInsert by decide
  have hsecond : (fetchingUnits.handle twoUnits (.insert (1, objectItem "OU=a,DC=alt"))).Possible
      (.insert (1, objectItem "OU=b,DC=alt")) := show _ ∈ TreeStateManager.toInsert _ by decide
  exact .next (.next (.start rfl) ⟨hfirst, inTime_of_waitingParent rfl⟩)
    ⟨hsecond, inTime_of_waitingParent rfl⟩

theorem restored_of_run_units :
    ((insertedUnits.handle twoUnits .notify).handle twoUnits .notify).Restored [savedUnits] [] := by
  have hfirst : insertedUnits.Possible .notify := show insertedUnits.posted ≠ [] by decide
  have hsecond : (insertedUnits.handle twoUnits .notify).Possible .notify :=
    show (insertedUnits.handle twoUnits .notify).posted ≠ [] by decide
  exact restored_of_run twoUnits [savedUnits] collapsedDomain _ isIdle_collapsedDomain
    nodesExist_collapsedDomain
    (.next (.next run_insertedUnits ⟨hfirst, trivial⟩) ⟨hsecond, trivial⟩) (by decide) (by decide)

/-- The row of the first unit comes, and is expanded; it has no children. Then the row of the
    second unit comes, which is not looked for. -/
theorem not_restored : ¬∀ (source : ScopeSource) (subtrees : List SavedSubtree)
    (idle s : TreeStateManager), idle.IsIdle source →
    (∀ subtree ∈ subtrees, idle.NodesExist source subtree) →
    Run (· = idle.restore source subtrees) Possible (handle source) s →
    s.toInsert = [] → s.posted = [] → s.Restored subtrees idle.callbacksRun := by
  intro h
  have hfirst : fetchingUnits.Possible (.insert (1, objectItem "OU=a,DC=alt")) :=
    show _ ∈ fetchingUnits.toInsert by decide
  set firstUnit := fetchingUnits.handle twoUnits (.insert (1, objectItem "OU=a,DC=alt"))
  have hnotify : firstUnit.Possible .notify := show firstUnit.posted ≠ [] by decide
  have hsecond : (firstUnit.handle twoUnits .notify).Possible
      (.insert (1, objectItem "OU=b,DC=alt")) := show _ ∈ TreeStateManager.toInsert _ by decide
  set bothUnits := (firstUnit.handle twoUnits .notify).handle twoUnits
    (.insert (1, objectItem "OU=b,DC=alt"))
  have hnotify' : bothUnits.Possible .notify := show bothUnits.posted ≠ [] by decide
  have hrestored := h twoUnits [savedUnits] collapsedDomain (bothUnits.handle twoUnits .notify)
    isIdle_collapsedDomain nodesExist_collapsedDomain
    (.next (.next (.next (.next (.start rfl) hfirst) hnotify) hsecond) hnotify')
    (by decide) (by decide)
  -- the second unit is still in the queue
  have hqueue : (bothUnits.handle twoUnits .notify).restoreTaskQueue ≠ [] := by decide
  exact hqueue hrestored.queue

end TreeStateManager

end Admc
