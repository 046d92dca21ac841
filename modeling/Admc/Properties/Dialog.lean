import Admc.Interface.Descriptor

/-!
# The properties dialog

The dialog applies the edits that the user has made, in the order in which they have been
made, and goes on after one that fails. If all are applied, the apply button loads every
widget anew, and the OK button closes the dialog; otherwise both leave the edits pending.
The warning at a switch to or from the attributes tab applies the edits too, but loads
every widget anew in any case.

* `applyAll_dialog`: applying edits changes no widget but the check box for unlocking.
* `keepsFailed_iff`: no failed edit is dropped exactly when none fails that is applied
  from the warning, and the one that unlocks the account does not fail otherwise: it
  clears its check box in any case.
-/

namespace Admc

/-- Applies edits one after the other, also after one that fails: whether none has failed.
    This is the loop of `AttributeEdit::apply`. -/
def applyAll {ε σ : Type} (apply : ε → σ → σ × Bool) : List ε → σ → σ × Bool
  | [], s => (s, true)
  | edit :: edits, s =>
    let applied := apply edit s
    let rest := applyAll apply edits applied.1
    (rest.1, applied.2 && rest.2)

/-- The edits that fail when they are applied one after the other. -/
def failedEdits {ε σ : Type} (apply : ε → σ → σ × Bool) : List ε → σ → List ε
  | [], _ => []
  | edit :: edits, s =>
    let applied := apply edit s
    let failed := failedEdits apply edits applied.1
    if applied.2 then failed else edit :: failed

/-- Verifies edits up to the first that is rejected, as `AttributeEdit::verify` does. -/
def verifyAll {ε σ : Type} (verify : ε → σ → σ × Bool) : List ε → σ → σ × Bool
  | [], s => (s, true)
  | edit :: edits, s =>
    let verified := verify edit s
    if verified.2 then verifyAll verify edits verified.1 else (verified.1, false)

section
variable {ε σ : Type} {apply : ε → σ → σ × Bool}

theorem failedEdits_subset (edits : List ε) (s : σ) : failedEdits apply edits s ⊆ edits := by
  induction edits generalizing s with
  | nil => exact List.Subset.refl _
  | cons edit edits ih =>
    simp only [failedEdits]
    split_ifs
    · exact List.subset_cons_of_subset _ (ih _)
    · exact List.cons_subset_cons _ (ih _)

/-- All edits are reported as applied when none of them fails. -/
theorem applyAll_snd (edits : List ε) (s : σ) :
    (applyAll apply edits s).2 = true ↔ failedEdits apply edits s = [] := by
  induction edits generalizing s with
  | nil => exact iff_of_true rfl rfl
  | cons edit edits ih =>
    simp only [applyAll, failedEdits, Bool.and_eq_true, ih]
    split_ifs with happlied
    · rw [and_iff_right happlied]
    · exact iff_of_false (fun h => happlied h.1) not_false

end

/-! ## The dialog -/

/-- `AttributeEdit`: the one that unlocks the account is the only one whose `apply` changes
    its widget. -/
inductive AttributeEdit (ε : Type)
  | unlock
  | other (edit : ε)
  deriving DecidableEq

/-- What the other edits do, given what their widgets show: `verify`, `apply` and `load`. -/
structure EditOps (ε ν σ : Type) where
  verify : ε → ν → (dn : String) → σ → σ × Bool
  apply : ε → ν → (dn : String) → σ → σ × Bool
  load : ε → AdObject → σ → σ × ν

/-- `class PropertiesDialog`. -/
structure PropertiesDialog (ε ν : Type) where
  target : String
  editList : List (AttributeEdit ε)
  applyList : List (AttributeEdit ε)
  /-- The check box for unlocking the account. -/
  unlockChecked : Bool
  /-- What the widgets of the other edits show. -/
  shown : ε → ν
  applyButtonEnabled : Bool
  resetButtonEnabled : Bool
  tabCount : ℕ
  /-- The position of the attributes tab, if there is one. -/
  attributesTab : Option ℕ
  currentTab : ℤ
  isOpen : Bool

section
variable {ε ν σ : Type} [DecidableEq ε]

/-- The handler of `AttributeEdit::edited`. -/
def PropertiesDialog.edited (dialog : PropertiesDialog ε ν) (edit : AttributeEdit ε) :
    PropertiesDialog ε ν :=
  { dialog with
    applyList :=
      if edit ∈ dialog.applyList then dialog.applyList else dialog.applyList ++ [edit]
    applyButtonEnabled := true
    resetButtonEnabled := true }

/-- `UnlockEdit::check`, set as `QCheckBox::setChecked` does it: a change is an edit. -/
def PropertiesDialog.setUnlockChecked (dialog : PropertiesDialog ε ν) (checked : Bool) :
    PropertiesDialog ε ν :=
  if dialog.unlockChecked = checked then dialog
  else { dialog with unlockChecked := checked }.edited .unlock

/-- `AdInterface::user_unlock`. -/
def userUnlock (ldap : Ldap σ) (s : σ) (dn : String) : σ × Bool :=
  attributeReplaceString ldap s dn "lockoutTime" "0"

variable (ldap : Ldap σ) (ops : EditOps ε ν σ)

/-- `AttributeEdit::verify` of one edit; `UnlockEdit` does not override it. -/
def AttributeEdit.verify (dialog : PropertiesDialog ε ν) : AttributeEdit ε → σ → σ × Bool
  | .unlock, s => (s, true)
  | .other edit, s => ops.verify edit (dialog.shown edit) dialog.target s

/-- `AttributeEdit::apply` of one edit, with the server and the dialog. -/
def AttributeEdit.apply :
    AttributeEdit ε → σ × PropertiesDialog ε ν → (σ × PropertiesDialog ε ν) × Bool
  | .unlock, (s, dialog) =>
    if dialog.unlockChecked then
      let unlocked := userUnlock ldap s dialog.target
      -- the box is cleared, whether the account has been unlocked or not
      ((unlocked.1, dialog.setUnlockChecked false), unlocked.2)
    else ((s, dialog), true)
  | .other edit, (s, dialog) =>
    let applied := ops.apply edit (dialog.shown edit) dialog.target s
    ((applied.1, dialog), applied.2)

/-- `AttributeEdit::load` of one edit. -/
def AttributeEdit.load (object : AdObject) (edit : AttributeEdit ε) :
    σ × PropertiesDialog ε ν → σ × PropertiesDialog ε ν
  | (s, dialog) =>
    match edit with
    | .unlock => (s, dialog.setUnlockChecked false)
    | .other edit =>
      let loaded := ops.load edit object s
      (loaded.1, { dialog with shown := Function.update dialog.shown edit loaded.2 })

/-- `PropertiesDialog::apply_internal`: whether all edits have been applied. -/
def applyInternal (st : σ × PropertiesDialog ε ν) : (σ × PropertiesDialog ε ν) × Bool :=
  let editsVerifySuccess := verifyAll (AttributeEdit.verify ops st.2) st.2.applyList st.1
  if !editsVerifySuccess.2 then ((editsVerifySuccess.1, st.2), false)
  else
    let applied := applyAll (AttributeEdit.apply ldap ops) st.2.applyList
      (editsVerifySuccess.1, st.2)
    if applied.2 then
      ((applied.1.1, { applied.1.2 with
        applyButtonEnabled := false, resetButtonEnabled := false }), true)
    else (applied.1, false)

/-- `PropertiesDialog::reset_internal`. -/
def resetInternal (object : AdObject) (st : σ × PropertiesDialog ε ν) :
    σ × PropertiesDialog ε ν :=
  let loaded := st.2.editList.foldl (fun st edit => edit.load ops object st) st
  (loaded.1, { loaded.2 with
    applyList := [], applyButtonEnabled := false, resetButtonEnabled := false })

/-- Loads the object of the dialog, and resets the dialog. -/
def reload (st : σ × PropertiesDialog ε ν) : σ × PropertiesDialog ε ν :=
  let found := adSearchObject ldap st.1 st.2.target [] false
  resetInternal ops found.2 (found.1, st.2)

variable (isConnected : Bool)

/-- `PropertiesDialog::reset`. -/
def reset (st : σ × PropertiesDialog ε ν) : σ × PropertiesDialog ε ν :=
  if isConnected then reload ldap ops st else st

/-- `PropertiesDialog::apply`. -/
def PropertiesDialog.apply (st : σ × PropertiesDialog ε ν) : σ × PropertiesDialog ε ν :=
  if !isConnected then st
  else
    let applied := applyInternal ldap ops st
    if applied.2 then reload ldap ops applied.1 else applied.1

/-- `PropertiesDialog::accept`. -/
def PropertiesDialog.accept (st : σ × PropertiesDialog ε ν) : σ × PropertiesDialog ε ν :=
  if !isConnected then st
  else
    let applied := applyInternal ldap ops st
    if applied.2 then (applied.1.1, { applied.1.2 with isOpen := false }) else applied.1

/-- The answer to the warning about the attributes tab. -/
inductive WarningAnswer
  | applied
  | discarded
  | rejected
  deriving DecidableEq

omit [DecidableEq ε] in
/-- `TabWidget::get_tab`: none is at a position that does not exist. -/
def PropertiesDialog.getTab (dialog : PropertiesDialog ε ν) (index : ℤ) : Option ℕ :=
  if 0 ≤ index ∧ index < dialog.tabCount then some index.toNat else none

omit [DecidableEq ε] in
/-- Whether the switch to another tab opens the warning. -/
def PropertiesDialog.needAttributesWarning (dialog : PropertiesDialog ε ν) (prev current : ℤ) :
    Bool :=
  let switchingToOrFromAttributes :=
    dialog.getTab prev = dialog.attributesTab ∨ dialog.getTab current = dialog.attributesTab
  switchingToOrFromAttributes && !dialog.applyList.isEmpty

/-- `PropertiesDialog::on_current_tab_changed`, with the answer to the warning. -/
def onCurrentTabChanged (prev current : ℤ) (answer : WarningAnswer)
    (st : σ × PropertiesDialog ε ν) : σ × PropertiesDialog ε ν :=
  if !st.2.needAttributesWarning prev current then (st.1, { st.2 with currentTab := current })
  else
    match answer with
    | .applied =>
      if !isConnected then st
      else
        let applied := applyInternal ldap ops st
        let loaded := reload ldap ops applied.1
        (loaded.1, { loaded.2 with currentTab := current })
    | .discarded =>
      let loaded := reset ldap ops isConnected st
      (loaded.1, { loaded.2 with currentTab := current })
    | .rejected => (st.1, { st.2 with currentTab := prev })

end

/-! ## What a failed edit leaves behind -/

section
variable {ε ν σ : Type} [DecidableEq ε]

@[simp] theorem edited_shown {dialog : PropertiesDialog ε ν} {edit : AttributeEdit ε} :
    (dialog.edited edit).shown = dialog.shown := rfl

@[simp] theorem edited_unlockChecked {dialog : PropertiesDialog ε ν} {edit : AttributeEdit ε} :
    (dialog.edited edit).unlockChecked = dialog.unlockChecked := rfl

/-- An edit that is pending is not added again. -/
theorem edited_applyList {dialog : PropertiesDialog ε ν} {edit : AttributeEdit ε}
    (hmem : edit ∈ dialog.applyList) : (dialog.edited edit).applyList = dialog.applyList :=
  if_pos hmem

@[simp] theorem setUnlockChecked_shown {dialog : PropertiesDialog ε ν} {checked : Bool} :
    (dialog.setUnlockChecked checked).shown = dialog.shown := by
  rw [PropertiesDialog.setUnlockChecked]
  split_ifs <;> rfl

@[simp] theorem setUnlockChecked_unlockChecked {dialog : PropertiesDialog ε ν}
    {checked : Bool} : (dialog.setUnlockChecked checked).unlockChecked = checked := by
  rw [PropertiesDialog.setUnlockChecked]
  split_ifs with h
  · exact h
  · rfl

theorem setUnlockChecked_applyList {dialog : PropertiesDialog ε ν} {checked : Bool}
    (hmem : .unlock ∈ dialog.applyList) :
    (dialog.setUnlockChecked checked).applyList = dialog.applyList := by
  rw [PropertiesDialog.setUnlockChecked]
  split_ifs
  · rfl
  · exact edited_applyList hmem

/-- Setting the check box once more changes nothing. -/
@[simp] theorem setUnlockChecked_idem {dialog : PropertiesDialog ε ν} {checked : Bool} :
    (dialog.setUnlockChecked checked).setUnlockChecked checked =
      dialog.setUnlockChecked checked :=
  if_pos setUnlockChecked_unlockChecked

variable {ldap : Ldap σ} {ops : EditOps ε ν σ}

/-- Applying an edit leaves the dialog as it is, but for the check box. -/
theorem apply_dialog (edit : AttributeEdit ε) (s : σ) (dialog : PropertiesDialog ε ν) :
    (edit.apply ldap ops (s, dialog)).1.2 =
      if edit = .unlock then dialog.setUnlockChecked false else dialog := by
  cases edit with
  | other edit => rfl
  | unlock =>
    rw [if_pos rfl, AttributeEdit.apply]
    split_ifs with hchecked
    · rfl
    · exact (if_pos (Bool.eq_false_of_not_eq_true hchecked)).symm

theorem applyAll_dialog (edits : List (AttributeEdit ε)) (s : σ)
    (dialog : PropertiesDialog ε ν) :
    (applyAll (AttributeEdit.apply ldap ops) edits (s, dialog)).1.2 =
      if .unlock ∈ edits then dialog.setUnlockChecked false else dialog := by
  induction edits generalizing s dialog with
  | nil => rfl
  | cons edit edits ih =>
    refine (ih (edit.apply ldap ops (s, dialog)).1.1 (edit.apply ldap ops (s, dialog)).1.2).trans ?_
    rw [apply_dialog]
    by_cases hunlock : edit = .unlock
    · rw [if_pos hunlock, setUnlockChecked_idem, ite_self,
        if_pos (hunlock ▸ List.mem_cons_self)]
    · simp only [if_neg hunlock, List.mem_cons, or_iff_right (Ne.symm hunlock)]

/-- The edit that unlocks the account fails only if its check box is checked. -/
theorem unlockChecked_of_failed {edits : List (AttributeEdit ε)} {s : σ}
    {dialog : PropertiesDialog ε ν}
    (hfailed : .unlock ∈ failedEdits (AttributeEdit.apply ldap ops) edits (s, dialog)) :
    dialog.unlockChecked = true := by
  induction edits generalizing s dialog with
  | nil => exact absurd hfailed List.not_mem_nil
  | cons edit edits ih =>
    have hrest : .unlock ∈ failedEdits (AttributeEdit.apply ldap ops) edits
        (edit.apply ldap ops (s, dialog)).1 → dialog.unlockChecked = true := by
      intro hmem
      have hchecked := ih (s := (edit.apply ldap ops (s, dialog)).1.1) hmem
      rw [apply_dialog] at hchecked
      split_ifs at hchecked with hunlock
      · rw [setUnlockChecked_unlockChecked] at hchecked
        exact nomatch hchecked
      · exact hchecked
    rw [failedEdits] at hfailed
    split_ifs at hfailed with happlied
    · exact hrest hfailed
    · obtain rfl | hmem := List.mem_cons.1 hfailed
      · by_contra hchecked
        exact happlied (by rw [AttributeEdit.apply, if_neg hchecked])
      · exact hrest hmem

end

section
variable {ε ν σ : Type} [DecidableEq ε]

/-- A step of the user that may apply the pending edits: one of the buttons, or a switch to
    another tab with the answer to the warning. -/
inductive DialogAction
  | apply
  | accept
  | switchTab (prev current : ℤ) (answer : WarningAnswer)

namespace DialogAction

/-- What the dialog does. -/
def run (ldap : Ldap σ) (ops : EditOps ε ν σ) (isConnected : Bool) (action : DialogAction)
    (st : σ × PropertiesDialog ε ν) : σ × PropertiesDialog ε ν :=
  match action with
  | .apply => PropertiesDialog.apply ldap ops isConnected st
  | .accept => PropertiesDialog.accept ldap ops isConnected st
  | .switchTab prev current answer =>
    onCurrentTabChanged ldap ops isConnected prev current answer st

/-- The user asks to apply the edits. -/
def Applies (dialog : PropertiesDialog ε ν) : DialogAction → Prop
  | .apply | .accept => True
  | .switchTab prev current answer =>
    dialog.needAttributesWarning prev current = true ∧ answer = .applied

/-- The user asks to discard the edits. -/
def Discards (dialog : PropertiesDialog ε ν) : DialogAction → Prop
  | .apply | .accept => False
  | .switchTab prev current answer =>
    dialog.needAttributesWarning prev current = true ∧ answer = .discarded

end DialogAction

/-- The widget of an edit shows what it showed before. -/
def SameWidget (dialog dialog' : PropertiesDialog ε ν) : AttributeEdit ε → Prop
  | .unlock => dialog'.unlockChecked = dialog.unlockChecked
  | .other edit => dialog'.shown edit = dialog.shown edit

section
variable (ldap : Ldap σ) (ops : EditOps ε ν σ)

/-- The pending edits pass the verification. -/
def Verifies (st : σ × PropertiesDialog ε ν) : Prop :=
  (verifyAll (AttributeEdit.verify ops st.2) st.2.applyList st.1).2 = true

instance (st : σ × PropertiesDialog ε ν) : Decidable (Verifies ops st) :=
  inferInstanceAs (Decidable (_ = _))

/-- The pending edits that cannot be applied: those that fail, or all of them if the
    verification rejects one. -/
def unapplied (st : σ × PropertiesDialog ε ν) : List (AttributeEdit ε) :=
  if Verifies ops st then
    failedEdits (AttributeEdit.apply ldap ops) st.2.applyList
      ((verifyAll (AttributeEdit.verify ops st.2) st.2.applyList st.1).1, st.2)
  else st.2.applyList

/-- An action drops no failed edit: each is still pending, with what its widget has shown,
    and pending edits are discarded only when all have been applied or the user asks for it. -/
structure KeepsFailed (isConnected : Bool) (action : DialogAction)
    (st : σ × PropertiesDialog ε ν) : Prop where
  failed : isConnected = true → action.Applies st.2 → ∀ edit ∈ unapplied ldap ops st,
    edit ∈ (action.run ldap ops isConnected st).2.applyList ∧
      SameWidget st.2 (action.run ldap ops isConnected st).2 edit
  discarded : (action.run ldap ops isConnected st).2.applyList ≠ st.2.applyList ∨
      (action.run ldap ops isConnected st).2.shown ≠ st.2.shown ∨
      (action.run ldap ops isConnected st).2.isOpen ≠ st.2.isOpen →
    action.Discards st.2 ∨
      isConnected = true ∧ action.Applies st.2 ∧ unapplied ldap ops st = []

end

variable {ldap : Ldap σ} {ops : EditOps ε ν σ} {st : σ × PropertiesDialog ε ν}

theorem unapplied_subset : unapplied ldap ops st ⊆ st.2.applyList := by
  rw [unapplied]
  split_ifs
  · exact failedEdits_subset _ _
  · exact List.Subset.refl _

@[simp] theorem setUnlockChecked_isOpen {dialog : PropertiesDialog ε ν} {checked : Bool} :
    (dialog.setUnlockChecked checked).isOpen = dialog.isOpen := by
  rw [PropertiesDialog.setUnlockChecked]
  split_ifs <;> rfl

/-- If the verification rejects an edit, nothing is applied. -/
theorem applyInternal_of_rejected (hrejected : ¬Verifies ops st) :
    (applyInternal ldap ops st).1.2 = st.2 ∧ (applyInternal ldap ops st).2 = false := by
  have hfalse : (verifyAll (AttributeEdit.verify ops st.2) st.2.applyList st.1).2 = false :=
    Bool.eq_false_of_not_eq_true hrejected
  simp only [applyInternal, hfalse, Bool.not_false, if_true, and_self]

section
variable (hverifies : Verifies ops st)
include hverifies

/-- Otherwise every edit is applied, and then the buttons may be disabled. -/
theorem applyInternal_of_verifies :
    let applied := applyAll (AttributeEdit.apply ldap ops) st.2.applyList
      ((verifyAll (AttributeEdit.verify ops st.2) st.2.applyList st.1).1, st.2)
    (applyInternal ldap ops st).2 = applied.2 ∧
      ((applyInternal ldap ops st).1.2 = applied.1.2 ∨
        (applyInternal ldap ops st).1.2 = { applied.1.2 with
          applyButtonEnabled := false, resetButtonEnabled := false }) := by
  intro applied
  have htrue : (verifyAll (AttributeEdit.verify ops st.2) st.2.applyList st.1).2 = true :=
    hverifies
  simp only [applyInternal, htrue, Bool.not_true, Bool.false_eq_true, if_false]
  split_ifs with happlied
  · exact ⟨happlied.symm, .inr rfl⟩
  · exact ⟨(Bool.eq_false_of_not_eq_true happlied).symm, .inl rfl⟩

/-- The check box is cleared if the edit that unlocks the account is pending. -/
theorem applyInternal_unlockChecked (hunlock : .unlock ∈ st.2.applyList) :
    (applyInternal ldap ops st).1.2.unlockChecked = false := by
  have hdialog := @applyAll_dialog ε ν σ _ ldap ops st.2.applyList
    (verifyAll (AttributeEdit.verify ops st.2) st.2.applyList st.1).1 st.2
  rw [if_pos hunlock] at hdialog
  obtain ⟨-, hsame | hsame⟩ := @applyInternal_of_verifies ε ν σ _ ldap ops st hverifies <;>
    rw [hsame, hdialog] <;> exact setUnlockChecked_unlockChecked

end

/-- `apply_internal` keeps the list and the widgets, but for the check box. -/
theorem applyInternal_keeps :
    (applyInternal ldap ops st).1.2.applyList = st.2.applyList ∧
      (applyInternal ldap ops st).1.2.shown = st.2.shown ∧
      (applyInternal ldap ops st).1.2.isOpen = st.2.isOpen := by
  by_cases hverifies : Verifies ops st
  · have hdialog := @applyAll_dialog ε ν σ _ ldap ops st.2.applyList
      (verifyAll (AttributeEdit.verify ops st.2) st.2.applyList st.1).1 st.2
    obtain ⟨-, hsame | hsame⟩ := @applyInternal_of_verifies ε ν σ _ ldap ops st hverifies <;>
      rw [hsame, hdialog] <;> split_ifs with hunlock
    · exact ⟨setUnlockChecked_applyList hunlock, setUnlockChecked_shown, setUnlockChecked_isOpen⟩
    · exact ⟨rfl, rfl, rfl⟩
    · exact ⟨setUnlockChecked_applyList hunlock, setUnlockChecked_shown, setUnlockChecked_isOpen⟩
    · exact ⟨rfl, rfl, rfl⟩
  · rw [(applyInternal_of_rejected hverifies).1]
    exact ⟨rfl, rfl, rfl⟩

/-- `apply_internal` succeeds when every pending edit is applied. -/
theorem applyInternal_snd :
    (applyInternal ldap ops st).2 = true ↔ unapplied ldap ops st = [] := by
  rw [unapplied]
  split_ifs with hverifies
  · rw [(applyInternal_of_verifies hverifies).1, applyAll_snd]
  · rw [(applyInternal_of_rejected hverifies).2]
    refine iff_of_false Bool.false_ne_true fun hnil => hverifies ?_
    -- an empty list is not rejected
    rw [Verifies, hnil]
    rfl

end

section
variable {ε ν σ : Type} [DecidableEq ε]
variable {ldap : Ldap σ} {ops : EditOps ε ν σ} {isConnected : Bool} {action : DialogAction}
  {st : σ × PropertiesDialog ε ν}

/-- An action after which the dialog is as before drops nothing. -/
theorem KeepsFailed.of_same (hlist : (action.run ldap ops isConnected st).2.applyList =
      st.2.applyList)
    (hshown : (action.run ldap ops isConnected st).2.shown = st.2.shown)
    (hopen : (action.run ldap ops isConnected st).2.isOpen = st.2.isOpen)
    (hunlock : isConnected = true → action.Applies st.2 → .unlock ∈ unapplied ldap ops st →
      (action.run ldap ops isConnected st).2.unlockChecked = st.2.unlockChecked) :
    KeepsFailed ldap ops isConnected action st where
  failed hconnected happlies edit hedit := by
    refine ⟨hlist ▸ unapplied_subset hedit, ?_⟩
    cases edit with
    | unlock => exact hunlock hconnected happlies hedit
    | other edit => exact congrFun hshown edit
  discarded := by
    rintro (h | h | h)
    · exact absurd hlist h
    · exact absurd hshown h
    · exact absurd hopen h

/-- A button whose failure leaves the dialog to `apply_internal` keeps the failed edits,
    unless it is the one that unlocks the account which fails. -/
theorem keepsFailed_button (happlies : action.Applies st.2)
    (hoff : isConnected = false → (action.run ldap ops isConnected st).2 = st.2)
    (hfails : isConnected = true → unapplied ldap ops st ≠ [] →
      (action.run ldap ops isConnected st).2 = (applyInternal ldap ops st).1.2) :
    KeepsFailed ldap ops isConnected action st ↔
      (isConnected = true → Verifies ops st → .unlock ∉ unapplied ldap ops st) := by
  constructor
  · intro h hconnected hverifies hunlock
    have hsame : (action.run ldap ops isConnected st).2.unlockChecked = st.2.unlockChecked :=
      (h.failed hconnected happlies .unlock hunlock).2
    rw [hfails hconnected (List.ne_nil_of_mem hunlock),
      applyInternal_unlockChecked hverifies (unapplied_subset hunlock)] at hsame
    rw [unapplied, if_pos hverifies] at hunlock
    exact absurd (hsame.trans (unlockChecked_of_failed hunlock)) Bool.false_ne_true
  · intro h
    cases isConnected with
    | false =>
      have hrun := hoff rfl
      exact .of_same (by rw [hrun]) (by rw [hrun]) (by rw [hrun]) (fun _ _ _ => by rw [hrun])
    | true =>
      by_cases hnil : unapplied ldap ops st = []
      · exact ⟨fun _ _ edit hedit => absurd (hnil ▸ hedit) List.not_mem_nil,
          fun _ => .inr ⟨rfl, happlies, hnil⟩⟩
      · have hrun := hfails rfl hnil
        obtain ⟨hlist, hshown, hopen⟩ := @applyInternal_keeps ε ν σ _ ldap ops st
        refine .of_same (by rw [hrun, hlist]) (by rw [hrun, hshown]) (by rw [hrun, hopen])
          fun _ _ hunlock => ?_
        -- the edit that unlocks the account is left only if nothing has been applied
        have hrejected : ¬Verifies ops st := fun hverifies => h rfl hverifies hunlock
        rw [hrun, (applyInternal_of_rejected hrejected).1]

theorem keepsFailed_apply : KeepsFailed ldap ops isConnected .apply st ↔
    (isConnected = true → Verifies ops st → .unlock ∉ unapplied ldap ops st) := by
  refine keepsFailed_button trivial (fun hoff => ?_) fun hconnected hnil => ?_
  · simp only [DialogAction.run, PropertiesDialog.apply, hoff, Bool.not_false, if_true]
  · have hfalse := Bool.eq_false_of_not_eq_true (mt applyInternal_snd.1 hnil)
    simp only [DialogAction.run, PropertiesDialog.apply, hconnected, hfalse, Bool.not_true,
      Bool.false_eq_true, if_false]

theorem keepsFailed_accept : KeepsFailed ldap ops isConnected .accept st ↔
    (isConnected = true → Verifies ops st → .unlock ∉ unapplied ldap ops st) := by
  refine keepsFailed_button trivial (fun hoff => ?_) fun hconnected hnil => ?_
  · simp only [DialogAction.run, PropertiesDialog.accept, hoff, Bool.not_false, if_true]
  · have hfalse := Bool.eq_false_of_not_eq_true (mt applyInternal_snd.1 hnil)
    simp only [DialogAction.run, PropertiesDialog.accept, hconnected, hfalse, Bool.not_true,
      Bool.false_eq_true, if_false]

theorem keepsFailed_switchTab {prev current : ℤ} {answer : WarningAnswer} :
    KeepsFailed ldap ops isConnected (.switchTab prev current answer) st ↔
      (answer = .applied → isConnected = true →
        st.2.needAttributesWarning prev current = true → unapplied ldap ops st = []) := by
  cases hneed : st.2.needAttributesWarning prev current with
  | false =>
    refine iff_of_true ?_ fun _ _ h => nomatch h
    have hrun : (DialogAction.switchTab prev current answer).run ldap ops isConnected st =
        (st.1, { st.2 with currentTab := current }) := by
      simp only [DialogAction.run, onCurrentTabChanged, hneed, Bool.not_false, if_true]
    exact .of_same (by rw [hrun]) (by rw [hrun]) (by rw [hrun]) (fun _ _ _ => by rw [hrun])
  | true =>
    have hrun : (DialogAction.switchTab prev current answer).run ldap ops isConnected st =
        match answer with
        | .applied =>
          if !isConnected then st
          else
            let loaded := reload ldap ops (applyInternal ldap ops st).1
            (loaded.1, { loaded.2 with currentTab := current })
        | .discarded =>
          let loaded := reset ldap ops isConnected st
          (loaded.1, { loaded.2 with currentTab := current })
        | .rejected => (st.1, { st.2 with currentTab := prev }) := by
      simp only [DialogAction.run, onCurrentTabChanged, hneed, Bool.not_true, Bool.false_eq_true,
        if_false]
    cases answer with
    | rejected =>
      refine iff_of_true ?_ fun h => nomatch h
      exact .of_same (by rw [hrun]) (by rw [hrun]) (by rw [hrun]) (fun _ _ _ => by rw [hrun])
    | discarded =>
      refine iff_of_true ⟨fun _ happlies => ?_, fun _ => .inl ⟨hneed, rfl⟩⟩ nofun
      exact nomatch happlies.2
    | applied =>
      cases isConnected with
      | false =>
        refine iff_of_true ?_ fun _ h => nomatch h
        exact .of_same (by rw [hrun]; rfl) (by rw [hrun]; rfl) (by rw [hrun]; rfl)
          (fun _ _ _ => by rw [hrun]; rfl)
      | true =>
        constructor
        · intro h _ _ _
          -- the list is cleared, whatever has failed
          by_contra hnil
          obtain ⟨edit, hedit⟩ := List.exists_mem_of_ne_nil _ hnil
          have hmem := (h.failed rfl ⟨hneed, rfl⟩ edit hedit).1
          rw [hrun] at hmem
          exact List.not_mem_nil hmem
        · intro h
          have hnil := h rfl rfl rfl
          exact ⟨fun _ _ edit hedit => absurd (hnil ▸ hedit) List.not_mem_nil,
            fun _ => .inr ⟨rfl, ⟨hneed, rfl⟩, hnil⟩⟩

end

/-- A failed edit is never dropped exactly when none fails that is applied from the warning
    at a switch of tabs, and the edit that unlocks the account does not fail when one of the
    buttons applies it. -/
theorem keepsFailed_iff {ε ν σ : Type} [DecidableEq ε] (ldap : Ldap σ) (ops : EditOps ε ν σ)
    (isConnected : Bool) (action : DialogAction) (st : σ × PropertiesDialog ε ν) :
    KeepsFailed ldap ops isConnected action st ↔
      (isConnected = true → action.Applies st.2 →
        match action with
        | .switchTab _ _ _ => unapplied ldap ops st = []
        | .apply | .accept => Verifies ops st → .unlock ∉ unapplied ldap ops st) := by
  cases action with
  | apply =>
    rw [keepsFailed_apply]
    exact ⟨fun h hconnected _ => h hconnected, fun h hconnected => h hconnected trivial⟩
  | accept =>
    rw [keepsFailed_accept]
    exact ⟨fun h hconnected _ => h hconnected, fun h hconnected => h hconnected trivial⟩
  | switchTab prev current answer =>
    rw [keepsFailed_switchTab]
    exact ⟨fun h hconnected happlies => h happlies.2 hconnected happlies.1,
      fun h happlied hconnected hneed => h hconnected ⟨hneed, happlied⟩⟩

/-- A server that refuses every write, asked by the edit of a description. -/
def refusedOps : EditOps Unit String Unit where
  verify _ _ _ _ := ((), true)
  apply _ _ _ _ := ((), false)
  load _ _ _ := ((), "old")

/-- A dialog with two tabs, of which the second is the attributes tab. -/
def editedDialog (edit : AttributeEdit Unit) : PropertiesDialog Unit String where
  target := "CN=user,DC=alt"
  editList := [.unlock, .other ()]
  applyList := [edit]
  unlockChecked := true
  shown _ := "new"
  applyButtonEnabled := true
  resetButtonEnabled := true
  tabCount := 2
  attributesTab := some 1
  currentTab := 0
  isOpen := true

/-- The switch to the attributes tab drops a description that could not be written; and the
    apply button clears the check box of an account that could not be unlocked. -/
theorem not_keepsFailed :
    ¬KeepsFailed silentLdap refusedOps true (.switchTab 0 1 .applied)
        ((), editedDialog (.other ())) ∧
      ¬KeepsFailed silentLdap refusedOps true .apply ((), editedDialog .unlock) := by
  refine ⟨fun h => ?_, fun h => ?_⟩
  · have hpending := (h.failed rfl ⟨by decide, rfl⟩ (.other ()) (by decide)).1
    exact absurd hpending List.not_mem_nil
  · have hchecked : (DialogAction.apply.run silentLdap refusedOps true
        ((), editedDialog .unlock)).2.unlockChecked = true :=
      (h.failed rfl trivial .unlock (by decide)).2
    exact absurd hchecked (by decide)

end Admc
