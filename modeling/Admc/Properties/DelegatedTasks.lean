import Admc.Properties.ShownEdits
import Admc.Security.TaskRights

/-!
# Delegated tasks

The check box of a task in the delegation widget stands for all rights of the task, which are
edited together when it is toggled. It is checked when all of them are allowed, by entries of
their own or by inherited ones.

* `delegatedTask_iff`: a task that is toggled is allowed as a whole, or not at all, exactly if the
  edits of its rights leave entries in the DACL, and its box always shows whether it is allowed;
* `updateTasks_shows`: what the boxes show once they are updated.
-/

namespace Admc

/-! ## The check box of a task -/

/-- The right is allowed, by entries of its own or by inherited ones. -/
def IsAllowed (sd : SecurityDescriptor) (trustee : DomSid) (right : SecurityRight) : Prop :=
  AllowState sd trustee .no right true ∨ AllowState sd trustee .yes right true

/-- The box of the task shows whether all of its rights are allowed. -/
def TaskRow.Shows (task : TaskRow) (sd : SecurityDescriptor) (trustee : DomSid) : Prop :=
  task.rights ≠ [] → (task.assigned = true ↔ ∀ right ∈ task.rights, IsAllowed sd trustee right)

/-- Updating the box of a task makes it show whether its rights are allowed. -/
theorem updateTaskCheckState_shows {sd : SecurityDescriptor} (hd : sd.dacl ≠ none)
    (trustee : DomSid) (task : TaskRow) :
    ∃ task', updateTaskCheckState sd trustee task = .ok task' ∧ task'.rights = task.rights ∧
      task'.Shows sd trustee := by
  choose state hstate using fun right => getRightState_isOk hd trustee right
  have hloop : (task.rights.mapM fun right => do
      let state ← securityDescriptorGetRightState sd trustee right
      return state.get .no .allow || state.get .yes .allow) =
        .ok (task.rights.map fun right =>
          (state right).get .no .allow || (state right).get .yes .allow) := by
    refine List.mapM_eq_map fun right _ => ?_
    rw [hstate]
    rfl
  have hallowed : ∀ right, IsAllowed sd trustee right ↔
      ((state right).get .no .allow || (state right).get .yes .allow) = true := by
    intro right
    simp only [IsAllowed, AllowState, hstate, Except.ok.injEq, exists_eq_left', Bool.or_eq_true]
  rw [updateTaskCheckState, hloop]
  refine ⟨_, rfl, rfl, fun hne => ?_⟩
  have hne : task.rights ≠ [] := hne
  simp [hallowed, hne]

namespace SecurityTab

/-! ## Descriptors in memory -/

section Memory
variable {tab : SecurityTab} {sd sd' : SecurityDescriptor} {address : Option ℕ}

theorem descriptor_eq_ok : tab.descriptor address = .ok sd ↔
    ∃ i, address = some i ∧ tab.memory[i]? = some (some sd) := by
  cases address with
  | none => simp [descriptor]
  | some i =>
    rw [descriptor, Option.bind_some]
    rcases htab : tab.memory[i]? with _ | _ | sd₁
    all_goals simp [htab]

theorem descriptor_setDescriptor (h : tab.descriptor address = .ok sd) :
    (tab.setDescriptor address sd').descriptor address = .ok sd' := by
  obtain ⟨i, rfl, hi⟩ := descriptor_eq_ok.1 h
  refine descriptor_eq_ok.2 ⟨i, rfl, ?_⟩
  exact List.getElem?_set_self (List.getElem?_eq_some_iff.1 hi).1

theorem setDescriptor_self (h : tab.descriptor address = .ok sd) :
    tab.setDescriptor address sd = tab := by
  obtain ⟨i, rfl, hi⟩ := descriptor_eq_ok.1 h
  obtain ⟨hlt, hi⟩ := List.getElem?_eq_some_iff.1 hi
  simp only [setDescriptor, ← hi, List.set_getElem_self]

theorem setDescriptor_setDescriptor (sd sd' : SecurityDescriptor) :
    (tab.setDescriptor address sd).setDescriptor address sd' = tab.setDescriptor address sd' := by
  cases address with
  | none => rfl
  | some i => simp [setDescriptor, List.set_set]

theorem widgets_setDescriptor (tab : SecurityTab) (address : Option ℕ) (sd : SecurityDescriptor) :
    (tab.setDescriptor address sd).widgets = tab.widgets := by
  cases address <;> rfl

end Memory

/-! ## Editing and updating -/

variable {ctx : SecurityTabContext} {tab : SecurityTab} {sd : SecurityDescriptor}

/-- The rights of a task are edited in the descriptor of the widget, one after the other. -/
theorem foldlM_editRight {target : EditTarget} {checked : Bool} {rights : List SecurityRight}
    (h : tab.descriptor target.sd = .ok sd) :
    rights.foldlM (editRight ctx target true checked) tab = (do
      let sd' ← rights.foldlM (editTaskRight ctx.g [target.appliableClass]
        (domSidFromBytes ctx.g.rt target.trustee) checked) sd
      return tab.setDescriptor target.sd sd') := by
  induction rights generalizing tab sd with
  | nil => exact congrArg Except.ok (setDescriptor_self h).symm
  | cons right rights ih =>
    have hedit : editRight ctx target true checked tab right = (do
        let sd' ← editTaskRight ctx.g [target.appliableClass]
          (domSidFromBytes ctx.g.rt target.trustee) checked sd right
        return tab.setDescriptor target.sd sd') := by
      rw [editRight, h]
      cases checked <;> rfl
    rw [List.foldlM_cons, List.foldlM_cons, hedit, bind_assoc, bind_assoc]
    refine bind_congr fun sd₁ => ?_
    rw [pure_bind, ih (descriptor_setDescriptor h)]
    simp only [setDescriptor_setDescriptor]

/-- What the boxes show once they are updated, and what the widget keeps. -/
theorem updateTasks_shows (hsd : tab.descriptor (tab.widgets .delegation).sd = .ok sd)
    (hd : sd.dacl ≠ none) : ∃ tab', updateTasks ctx tab = .ok tab' ∧
      tab'.descriptor (tab'.widgets .delegation).sd = .ok sd ∧
      ∀ (row : ℕ) (task : TaskRow), (tab.widgets .delegation).tasks[row]? = some task →
        ∃ task', (tab'.widgets .delegation).tasks[row]? = some task' ∧
          task'.rights = task.rights ∧
          task'.Shows sd (domSidFromBytes ctx.g.rt (tab.widgets .delegation).trustee) := by
  let trustee := domSidFromBytes ctx.g.rt (tab.widgets .delegation).trustee
  choose task' htask' hrights hshows using updateTaskCheckState_shows hd trustee
  have hloop : (tab.widgets .delegation).tasks.mapM (fun row => do
      let sd ← tab.descriptor (tab.widgets .delegation).sd
      updateTaskCheckState sd trustee row) = .ok ((tab.widgets .delegation).tasks.map task') := by
    refine List.mapM_eq_map fun task _ => ?_
    rw [hsd]
    exact htask' task
  have hupdate : updateTasks ctx tab = .ok (tab.setWidget .delegation
      { tab.widgets .delegation with tasks := (tab.widgets .delegation).tasks.map task' }) := by
    rw [updateTasks, hloop]
    rfl
  refine ⟨_, hupdate, ?_, fun row task hrow => ⟨task' task, ?_, hrights task, hshows task⟩⟩
  · rw [widgets_setWidget]
    exact hsd
  · rw [widgets_setWidget, List.getElem?_map, hrow]
    rfl

/-! ## Tasks -/

/-- A row of the delegation widget, with a common task that has rights, when the widget edits a
    descriptor with a DACL. -/
structure DelegatedTask (ctx : SecurityTabContext) (tab : SecurityTab) (row : ℕ) (task : TaskRow)
    (sd : SecurityDescriptor) : Prop where
  tasks_row : (tab.widgets .delegation).tasks[row]? = some task
  offered : ∃ commonTask, task.rights = ctx.g.commonTaskManager.commonTaskRights commonTask
  rights_ne_nil : task.rights ≠ []
  descriptor : tab.descriptor (tab.widgets .delegation).sd = .ok sd
  dacl_ne_none : sd.dacl ≠ none

/-- The trustee that tasks are delegated to. -/
def delegate (ctx : SecurityTabContext) (tab : SecurityTab) : DomSid :=
  domSidFromBytes ctx.g.rt (tab.widgets .delegation).trustee

/-- When the box of a task is toggled, then its rights are all allowed, and the box is checked,
    or no right is allowed, and the box is checked only if all are inherited. -/
def TogglesAsUnit (ctx : SecurityTabContext) (tab : SecurityTab) (row : ℕ) (task : TaskRow) :
    Prop :=
  ∃ tab' sd' task', toggleTask ctx tab row task = .ok tab' ∧
    tab'.descriptor (tab'.widgets .delegation).sd = .ok sd' ∧
    (tab'.widgets .delegation).tasks[row]? = some task' ∧
    (∀ right ∈ task.rights, AllowState sd' (delegate ctx tab) .no right (!task.assigned)) ∧
    (task'.assigned = true ↔ task.assigned = false ∨
      ∀ right ∈ task.rights, AllowState sd' (delegate ctx tab) .yes right true)

/-- When the boxes are updated, that of the task shows whether its rights are allowed. -/
def ShowsAllowed (ctx : SecurityTabContext) (tab : SecurityTab) (row : ℕ) (task : TaskRow)
    (sd : SecurityDescriptor) : Prop :=
  ∃ tab' task', updateTasks ctx tab = .ok tab' ∧
    (tab'.widgets .delegation).tasks[row]? = some task' ∧
    (task'.assigned = true ↔ ∀ right ∈ task.rights, IsAllowed sd (delegate ctx tab) right)

/-- The box in a row of the delegation widget, before the descriptor is edited. -/
def withTask (tab : SecurityTab) (row : ℕ) (task : TaskRow) : SecurityTab :=
  let w := tab.widgets .delegation
  tab.setWidget .delegation { w with tasks := w.tasks.set row task }

/-- The rights of a task that is toggled are edited, and the boxes are updated. -/
theorem toggleTask_eq {row : ℕ} {task : TaskRow}
    (hsd : tab.descriptor (tab.widgets .delegation).sd = .ok sd) :
    toggleTask ctx tab row task = (do
      let sd' ← task.rights.foldlM (editTaskRight ctx.g
        [(tab.widgets .delegation).appliableClass] (delegate ctx tab) !task.assigned) sd
      updateTasks ctx ((tab.withTask row { task with assigned := !task.assigned }).setDescriptor
        (tab.widgets .delegation).sd sd')) := by
  have hsd' : (tab.withTask row { task with assigned := !task.assigned }).descriptor
      (tab.widgets .delegation).toEditTarget.sd = .ok sd := hsd
  simp only [toggleTask, onItemChanged, widgets_setWidget]
  refine (congrArg (· >>= fun t => updatePermissions ctx t .delegation)
    (foldlM_editRight hsd')).trans ?_
  rw [bind_assoc]
  rfl

/-- Once the rights of a task are edited, the boxes are updated. -/
theorem toggleTask_returns {row : ℕ} {task : TaskRow} {sd' : SecurityDescriptor}
    (h : DelegatedTask ctx tab row task sd)
    (hrun : task.rights.foldlM (editTaskRight ctx.g [(tab.widgets .delegation).appliableClass]
      (delegate ctx tab) !task.assigned) sd = .ok sd') (hd : sd'.dacl ≠ none) :
    ∃ tab' task', toggleTask ctx tab row task = .ok tab' ∧
      tab'.descriptor (tab'.widgets .delegation).sd = .ok sd' ∧
      (tab'.widgets .delegation).tasks[row]? = some task' ∧
      (task'.assigned = true ↔ ∀ right ∈ task.rights, IsAllowed sd' (delegate ctx tab) right) := by
  let checkedTask := { task with assigned := !task.assigned }
  let edited := (tab.withTask row checkedTask).setDescriptor (tab.widgets .delegation).sd sd'
  have hwidget : edited.widgets .delegation = { tab.widgets .delegation with
      tasks := (tab.widgets .delegation).tasks.set row checkedTask } := by
    rw [widgets_setDescriptor, withTask, widgets_setWidget]
  have hrow : (edited.widgets .delegation).tasks[row]? = some checkedTask := by
    rw [hwidget]
    exact List.getElem?_set_self (List.getElem?_eq_some_iff.1 h.tasks_row).1
  have hsd' : edited.descriptor (edited.widgets .delegation).sd = .ok sd' := by
    rw [hwidget]
    exact @descriptor_setDescriptor (tab.withTask row checkedTask) _ _ _ h.descriptor
  obtain ⟨tab', hupdate, hdescriptor, hshows⟩ := @updateTasks_shows ctx _ _ hsd' hd
  obtain ⟨task', hrow', hrights, hshow⟩ := hshows row _ hrow
  refine ⟨tab', task', ?_, hdescriptor, hrow', ?_⟩
  · rw [toggleTask_eq h.descriptor, hrun]
    exact hupdate
  · have hiff := hshow (hrights ▸ h.rights_ne_nil)
    rw [hwidget, hrights] at hiff
    exact hiff

/-- A right that is not allowed by entries of its own is allowed if it is inherited. -/
theorem isAllowed_iff_of_not_explicit {trustee : DomSid} {right : SecurityRight}
    (h : AllowState sd trustee .no right false) :
    IsAllowed sd trustee right ↔ AllowState sd trustee .yes right true := by
  refine or_iff_right ?_
  rintro ⟨state, hstate, hset⟩
  obtain ⟨state', hstate', hclear⟩ := h
  rw [Except.ok.inj (hstate'.symm.trans hstate)] at hclear
  exact Bool.false_ne_true (hclear.symm.trans hset)

/-- A task whose rights can be edited is toggled as a unit. -/
theorem togglesAsUnit_of_run {row : ℕ} {task : TaskRow} {sd' : SecurityDescriptor}
    (h : DelegatedTask ctx tab row task sd)
    (hrun : task.rights.foldlM (editTaskRight ctx.g [(tab.widgets .delegation).appliableClass]
      (delegate ctx tab) !task.assigned) sd = .ok sd')
    (hstate : ∀ right ∈ task.rights,
      AllowState sd' (delegate ctx tab) .no right (!task.assigned)) :
    TogglesAsUnit ctx tab row task := by
  obtain ⟨right, hr⟩ := List.exists_mem_of_ne_nil _ h.rights_ne_nil
  obtain ⟨tab', task', htoggle, hsd', hrow, hshow⟩ :=
    toggleTask_returns h hrun (hstate right hr).dacl_ne_none
  refine ⟨tab', sd', task', htoggle, hsd', hrow, hstate, hshow.trans ?_⟩
  cases hassigned : task.assigned with
  | false =>
    rw [hassigned] at hstate
    exact iff_of_true (fun right hr => .inl (hstate right hr)) (.inl rfl)
  | true =>
    rw [hassigned] at hstate
    rw [or_iff_right (by decide)]
    exact forall₂_congr fun right hr => isAllowed_iff_of_not_explicit (hstate right hr)

/-- A task that is toggled is allowed as a whole, or not at all, exactly if the edits of its
    rights leave entries; and its box always shows whether it is allowed. -/
theorem delegatedTask_iff {row : ℕ} {task : TaskRow} (h : DelegatedTask ctx tab row task sd) :
    (TogglesAsUnit ctx tab row task ↔ TaskLeavesEntries ctx.g
      [(tab.widgets .delegation).appliableClass] (delegate ctx tab) (!task.assigned) sd
        task.rights) ∧ ShowsAllowed ctx tab row task sd := by
  obtain ⟨commonTask, hoffered⟩ := h.offered
  have htask : TaskRights task.rights := hoffered ▸ taskRights_commonTask _ commonTask
  obtain ⟨rightList, hR⟩ : ∃ rightList, adSecurityGetRightListForClass ctx.g
      [(tab.widgets .delegation).appliableClass] = .ok rightList := ⟨_, rfl⟩
  constructor
  · rw [← editTask_returns_iff hR htask]
    constructor
    · rintro ⟨tab', sd', task', htoggle, -⟩
      rw [toggleTask_eq h.descriptor, Except.bind_eq_ok] at htoggle
      obtain ⟨sd₁, hrun, -⟩ := htoggle
      exact ⟨sd₁, hrun⟩
    · rintro ⟨sd', hrun⟩
      exact togglesAsUnit_of_run h hrun (allowState_editTask hR htask hrun)
  · obtain ⟨tab', hupdate, -, hshows⟩ := @updateTasks_shows ctx _ _ h.descriptor h.dacl_ne_none
    obtain ⟨task', hrow, hrights, hshow⟩ := hshows row task h.tasks_row
    refine ⟨tab', task', hupdate, hrow, ?_⟩
    have hiff := hshow (hrights ▸ h.rights_ne_nil)
    rwa [hrights] at hiff

/-! ## Samples -/

/-- A configuration in which users are possible inferiors of organizational units. -/
def sampleUnitConfig : AdConfig :=
  { AdConfig.empty with
    guidToClassMap := [(some ⟨1⟩, "user")]
    classPossibleInferiorsMap := [("organizationalUnit", ["user"])] }

/-- A setting with the common tasks. -/
def sampleUnitContext : SecurityTabContext :=
  { sampleContext with g := ⟨zeroRuntime, sampleUnitConfig, .init sampleUnitConfig⟩ }

/-- A descriptor in which reading the properties of users is delegated to "Everyone", besides
    other entries. -/
def delegatedDescriptor (aces : List SecurityAce) : SecurityDescriptor :=
  .ofAces ((readAllChildrenClassInfoRights sampleUnitConfig "user").map (fun right =>
    makeSecurityAce zeroRuntime sidWorld right right.accessMask true) ++ aces)

/-- The tab is loaded with a descriptor of an organizational unit. -/
def loadUnit (sd : SecurityDescriptor) : Except Fault SecurityTab :=
  step sampleUnitContext new (.load (fun _ => "") ["top", "organizationalUnit"] (some sd))

/-- The task of reading all information about users. -/
def readAllTask : TaskRow :=
  ⟨readAllChildrenClassInfoRights sampleUnitConfig "user", true⟩

/-- What the tab has once it is loaded: the task, which is checked, and the descriptor. -/
theorem delegatedTask_loadUnit {tab : SecurityTab} {sd : SecurityDescriptor}
    (htask : (tab.widgets .delegation).tasks[2]? = some readAllTask)
    (hsd : tab.descriptor (tab.widgets .delegation).sd = .ok sd) (hd : sd.dacl ≠ none) :
    DelegatedTask sampleUnitContext tab 2 readAllTask sd where
  tasks_row := htask
  offered := ⟨.readAllUserInformation, rfl⟩
  rights_ne_nil := List.cons_ne_nil _ _
  descriptor := hsd
  dacl_ne_none := hd

/-- The task is taken back, and another entry is left. -/
theorem delegatedTask_iff_sample : ∃ tab sd, loadUnit (delegatedDescriptor
      [{ zeroAce with accessMask := secAdsGenericAll, trustee := sidNtSelf }]) = .ok tab ∧
    (TogglesAsUnit sampleUnitContext tab 2 readAllTask ↔ TaskLeavesEntries sampleUnitContext.g
      [(tab.widgets .delegation).appliableClass] (delegate sampleUnitContext tab) false sd
        readAllTask.rights) ∧ ShowsAllowed sampleUnitContext tab 2 readAllTask sd := by
  obtain ⟨tab, hload, htask, sd, hsd, hd⟩ : ∃ tab, loadUnit (delegatedDescriptor
        [{ zeroAce with accessMask := secAdsGenericAll, trustee := sidNtSelf }]) = .ok tab ∧
      (tab.widgets .delegation).tasks[2]? = some readAllTask ∧
      ∃ sd, tab.descriptor (tab.widgets .delegation).sd = .ok sd ∧ sd.dacl ≠ none := by
    decide +kernel
  exact ⟨tab, sd, hload, delegatedTask_iff (delegatedTask_loadUnit htask hsd hd)⟩

/-- The task is taken back, and no entry is left: its right is removed, and then the null DACL is
    to be sorted. -/
theorem not_togglesAsUnit_onlyEntry : ∃ tab sd, loadUnit (delegatedDescriptor []) = .ok tab ∧
    DelegatedTask sampleUnitContext tab 2 readAllTask sd ∧
    ¬TogglesAsUnit sampleUnitContext tab 2 readAllTask := by
  obtain ⟨tab, hload, htask, hfails, sd, hsd, hd⟩ : ∃ tab, loadUnit (delegatedDescriptor []) =
        .ok tab ∧ (tab.widgets .delegation).tasks[2]? = some readAllTask ∧
      (∀ tab', toggleTask sampleUnitContext tab 2 readAllTask = .ok tab' → False) ∧
      ∃ sd, tab.descriptor (tab.widgets .delegation).sd = .ok sd ∧ sd.dacl ≠ none := by
    decide +kernel
  refine ⟨tab, sd, hload, delegatedTask_loadUnit htask hsd hd, ?_⟩
  rintro ⟨tab', -, -, htoggle, -⟩
  exact hfails tab' htoggle

end SecurityTab

end Admc
