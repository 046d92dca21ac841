import Mathlib.Data.List.Nodup
import Mathlib.Tactic.Common

/-!
# The tabs of members and groups

The tab keeps two sets of DNs, of ordinary memberships and of those through a primary group,
each as they have been loaded and as they are now. Applying the edits asks the server for the
differences. The primary group comes first: the server makes the former one an ordinary group
then, and groups that are or were primary are left to it.

`applied_iff`: the user is in the groups that are shown exactly if the former primary group is
still among them.
-/

namespace Admc

/-! ## Sets -/

/-- `QSet`, with its elements in the order of iteration. -/
structure QSet (α : Type) where
  values : List α
  nodup : values.Nodup

namespace QSet

variable {α : Type} [DecidableEq α] (s t : QSet α)

/-- `QSet::contains`. -/
def contains (a : α) : Bool := decide (a ∈ s.values)

/-- `QSet::insert`. -/
def insert (a : α) : QSet α := ⟨s.values.insert a, s.nodup.insert⟩

/-- `QSet::remove`. -/
def remove (a : α) : QSet α := ⟨s.values.erase a, s.nodup.erase a⟩

/-- `QSet::unite`. -/
def unite : QSet α := t.values.foldl insert s

/-- A set of one element. -/
def single (a : α) : QSet α := ⟨[a], List.nodup_singleton a⟩

/-- `QSet::operator==`. -/
def equals : Bool := s.values.all t.contains && t.values.all s.contains

instance : Membership α (QSet α) := ⟨fun s a => a ∈ s.values⟩

instance (a : α) : Decidable (a ∈ s) := inferInstanceAs (Decidable (a ∈ s.values))

variable {s t} {a b : α}

@[simp] theorem contains_iff : s.contains a = true ↔ a ∈ s := decide_eq_true_iff

@[simp] theorem contains_eq_false : s.contains a = false ↔ a ∉ s := decide_eq_false_iff_not

@[simp] theorem mem_insert : a ∈ s.insert b ↔ a = b ∨ a ∈ s := List.mem_insert_iff

@[simp] theorem mem_remove : a ∈ s.remove b ↔ a ≠ b ∧ a ∈ s := s.nodup.mem_erase_iff

omit [DecidableEq α] in
@[simp] theorem mem_single : a ∈ single b ↔ a = b := List.mem_singleton

@[simp] theorem mem_unite : a ∈ s.unite t ↔ a ∈ s ∨ a ∈ t := by
  have hfold : ∀ l : List α, a ∈ l.foldl insert s ↔ a ∈ s ∨ a ∈ l := by
    intro l
    induction l generalizing s with
    | nil => simp
    | cons b l ih =>
      rw [List.foldl_cons, ih, mem_insert, List.mem_cons]
      tauto
  exact hfold t.values

theorem equals_iff : s.equals t = true ↔ ∀ a, a ∈ s ↔ a ∈ t := by
  rw [equals, Bool.and_eq_true, List.all_eq_true, List.all_eq_true]
  simp only [contains_iff]
  exact ⟨fun h a => ⟨h.1 a, h.2 a⟩, fun h => ⟨fun a => (h a).1, fun a => (h a).2⟩⟩

end QSet

/-! ## The server -/

/-- What the server has of a user or of a group: its ordinary memberships, and for a user its
    primary group. Whether it has accepted all requests is kept with it. -/
structure MembershipServer where
  memberships : QSet String
  primaryGroup : String
  accepted : Bool

namespace MembershipServer

variable (server : MembershipServer) (dn : String)

/-- `AdInterface::group_add_member`: a value that is present is refused. -/
def addMember : MembershipServer × Bool :=
  if server.memberships.contains dn then ({ server with accepted := false }, false)
  else ({ server with memberships := server.memberships.insert dn }, true)

/-- `AdInterface::group_remove_member`: a value that is absent is refused. -/
def removeMember : MembershipServer × Bool :=
  if !server.memberships.contains dn then ({ server with accepted := false }, false)
  else ({ server with memberships := server.memberships.remove dn }, true)

/-- The primary group is replaced by one that the user is in. The server makes the former one
    an ordinary group. -/
def replacePrimaryGroup : MembershipServer × Bool :=
  if !server.memberships.contains dn then ({ server with accepted := false }, false)
  else
    ({ server with
      memberships := (server.memberships.insert server.primaryGroup).remove dn
      primaryGroup := dn }, true)

/-- `AdInterface::user_set_primary_group`. -/
def userSetPrimaryGroup : MembershipServer × Bool :=
  let userIsInGroup := server.memberships.contains dn
  -- what adding the user comes to is not looked at
  let server := if !userIsInGroup then (server.addMember dn).1 else server
  server.replacePrimaryGroup dn

end MembershipServer

/-! ## The tab -/

/-- `enum MembershipTabType`. -/
inductive MembershipTabType
  | members
  | memberOf
  deriving DecidableEq

/-- `MembershipTabEdit`. -/
structure MembershipTabEdit where
  type : MembershipTabType
  originalValues : QSet String
  currentValues : QSet String
  originalPrimaryValues : QSet String
  currentPrimaryValues : QSet String

/-- The edits of the tab. -/
inductive MembershipEdit
  | add (values : List String)
  | remove (values : List String)
  | primary (groupDn : String)

namespace MembershipTabEdit

/-- `MembershipTabEdit::load`, for the memberships that are read. -/
def load (type : MembershipTabType) (values primaryValues : QSet String) : MembershipTabEdit :=
  ⟨type, values, values, primaryValues, primaryValues⟩

section
variable (d : MembershipTabEdit)

/-- `MembershipTabEdit::add_values`. -/
def addValues (values : List String) : MembershipTabEdit :=
  { d with currentValues := values.foldl QSet.insert d.currentValues }

/-- `MembershipTabEdit::remove_values`. -/
def removeValues (values : List String) : MembershipTabEdit :=
  { d with currentValues := values.foldl QSet.remove d.currentValues }

/-- `MembershipTabEdit::on_remove_button`, for the rows that are selected. -/
def onRemoveButton (removedValues : List String) : MembershipTabEdit :=
  let anySelectedArePrimary := removedValues.any d.currentPrimaryValues.contains
  if anySelectedArePrimary then d else d.removeValues removedValues

/-- `MembershipTabEdit::on_primary_button`. -/
def onPrimaryButton (groupDn : String) : MembershipTabEdit :=
  { d with
    -- the old primary group becomes normal, the new one stops being so
    currentValues := (d.currentValues.unite d.currentPrimaryValues).remove groupDn
    currentPrimaryValues := .single groupDn }

/-- `enable_primary_button_on_valid_selection`, for the row that is selected. -/
def primaryButtonEnabled (dn : String) : Bool := !d.currentPrimaryValues.contains dn

/-- An edit of the tab. -/
def edit : MembershipEdit → MembershipTabEdit
  | .add values => d.addValues values
  | .remove values => d.onRemoveButton values
  | .primary groupDn => if d.primaryButtonEnabled groupDn then d.onPrimaryButton groupDn else d

/-- `group_is_or_was_primary`, which has no part in the tab of members. -/
def groupIsOrWasPrimary (group : String) : Bool :=
  match d.type with
  | .members => false
  | .memberOf => d.originalPrimaryValues.contains group || d.currentPrimaryValues.contains group

/-- The body of the loop of `MembershipTabEdit::apply` over the original values. -/
def removeRemoved (state : MembershipServer × Bool) (dn : String) : MembershipServer × Bool :=
  if d.groupIsOrWasPrimary dn then state
  else
    let removed := !d.currentValues.contains dn
    if removed then
      let (server, success) := state.1.removeMember dn
      (server, state.2 && success)
    else state

/-- The body of the loop of `MembershipTabEdit::apply` over the current values. -/
def addAdded (state : MembershipServer × Bool) (dn : String) : MembershipServer × Bool :=
  if d.groupIsOrWasPrimary dn then state
  else
    let added := !d.originalValues.contains dn
    if added then
      let (server, success) := state.1.addMember dn
      (server, state.2 && success)
    else state

/-- The primary group is changed before everything else. -/
def changePrimary (server : MembershipServer) : MembershipServer × Bool :=
  match d.type with
  | .members => (server, true)
  | .memberOf =>
    if !d.currentPrimaryValues.equals d.originalPrimaryValues then
      let groupDn := d.currentPrimaryValues.values.headD ""
      server.userSetPrimaryGroup groupDn
    else (server, true)

/-- `MembershipTabEdit::apply`. -/
def apply (server : MembershipServer) : MembershipServer × Bool :=
  let state := d.changePrimary server
  let state := d.originalValues.values.foldl d.removeRemoved state
  d.currentValues.values.foldl d.addAdded state

end

/-! ## Applying -/

/-- All requests have been accepted, and the server has these memberships. -/
structure Succeeds (primaryGroup : String) (isMember : String → Prop)
    (state : MembershipServer × Bool) : Prop where
  accepted : state.1.accepted = true
  success : state.2 = true
  primaryGroup : state.1.primaryGroup = primaryGroup
  memberships : ∀ dn, dn ∈ state.1.memberships ↔ isMember dn

section
variable {d : MembershipTabEdit} {primaryGroup : String} {isMember : String → Prop}
  {state : MembershipServer × Bool} {dn : String}

/-- A membership is removed. -/
def Removes (d : MembershipTabEdit) (dn : String) : Prop :=
  d.groupIsOrWasPrimary dn = false ∧ dn ∉ d.currentValues

/-- A membership is added. -/
def Adds (d : MembershipTabEdit) (dn : String) : Prop :=
  d.groupIsOrWasPrimary dn = false ∧ dn ∉ d.originalValues

theorem Succeeds.congr {isMember' : String → Prop} (h : Succeeds primaryGroup isMember state)
    (hmember : ∀ dn, isMember dn ↔ isMember' dn) : Succeeds primaryGroup isMember' state :=
  ⟨h.accepted, h.success, h.primaryGroup, fun dn => (h.memberships dn).trans (hmember dn)⟩

theorem removeRemoved_pos (h : d.Removes dn) :
    d.removeRemoved state dn =
      ((state.1.removeMember dn).1, state.2 && (state.1.removeMember dn).2) := by
  have hremoved : (!d.currentValues.contains dn) = true := by simpa using h.2
  simp only [removeRemoved, h.1, hremoved, Bool.false_eq_true, if_false, if_true]

theorem removeRemoved_neg (h : ¬d.Removes dn) : d.removeRemoved state dn = state := by
  rw [removeRemoved]
  cases hprimary : d.groupIsOrWasPrimary dn with
  | true => rfl
  | false =>
    have hmem : dn ∈ d.currentValues := by_contra fun hnot => h ⟨hprimary, hnot⟩
    simp [hmem]

theorem addAdded_pos (h : d.Adds dn) :
    d.addAdded state dn = ((state.1.addMember dn).1, state.2 && (state.1.addMember dn).2) := by
  have hadded : (!d.originalValues.contains dn) = true := by simpa using h.2
  simp only [addAdded, h.1, hadded, Bool.false_eq_true, if_false, if_true]

theorem addAdded_neg (h : ¬d.Adds dn) : d.addAdded state dn = state := by
  rw [addAdded]
  cases hprimary : d.groupIsOrWasPrimary dn with
  | true => rfl
  | false =>
    have hmem : dn ∈ d.originalValues := by_contra fun hnot => h ⟨hprimary, hnot⟩
    simp [hmem]

theorem Succeeds.removeRemoved (h : Succeeds primaryGroup isMember state)
    (hdn : d.Removes dn → isMember dn) :
    Succeeds primaryGroup (fun dn' => isMember dn' ∧ ¬(dn' = dn ∧ d.Removes dn))
      (d.removeRemoved state dn) := by
  by_cases hremoves : d.Removes dn
  · have hmem := (h.memberships dn).2 (hdn hremoves)
    rw [removeRemoved_pos hremoves, MembershipServer.removeMember, if_neg (by simpa using hmem)]
    refine ⟨h.accepted, by simp [h.success], h.primaryGroup, fun dn' => ?_⟩
    rw [QSet.mem_remove, h.memberships, and_iff_left hremoves, and_comm]
  · rw [removeRemoved_neg hremoves]
    exact h.congr fun dn' => (and_iff_left fun hdn' => hremoves hdn'.2).symm

theorem Succeeds.addAdded (h : Succeeds primaryGroup isMember state)
    (hdn : d.Adds dn → ¬isMember dn) :
    Succeeds primaryGroup (fun dn' => isMember dn' ∨ dn' = dn ∧ d.Adds dn)
      (d.addAdded state dn) := by
  by_cases hadds : d.Adds dn
  · have hmem := mt (h.memberships dn).1 (hdn hadds)
    rw [addAdded_pos hadds, MembershipServer.addMember, if_neg (by simpa using hmem)]
    refine ⟨h.accepted, by simp [h.success], h.primaryGroup, fun dn' => ?_⟩
    rw [QSet.mem_insert, h.memberships, and_iff_left hadds, or_comm]
  · rw [addAdded_neg hadds]
    exact h.congr fun dn' => (or_iff_left fun hdn' => hadds hdn'.2).symm

/-- The loop over the original values removes those that are to be removed. -/
theorem Succeeds.removeLoop {dns : List String} (h : Succeeds primaryGroup isMember state)
    (hdns : dns.Nodup) (hmember : ∀ dn ∈ dns, d.Removes dn → isMember dn) :
    Succeeds primaryGroup (fun dn => isMember dn ∧ ¬(dn ∈ dns ∧ d.Removes dn))
      (dns.foldl d.removeRemoved state) := by
  induction dns generalizing state isMember with
  | nil => exact h.congr fun dn => (and_iff_left fun hdn => List.not_mem_nil hdn.1).symm
  | cons dn dns ih =>
    rw [List.nodup_cons] at hdns
    rw [List.forall_mem_cons] at hmember
    refine (ih (h.removeRemoved hmember.1) hdns.2 fun dn' hdn' hremoves => ?_).congr fun dn' => ?_
    · refine ⟨hmember.2 dn' hdn' hremoves, ?_⟩
      rintro ⟨rfl, -⟩
      exact hdns.1 hdn'
    · rw [List.mem_cons, and_assoc]
      refine and_congr_right fun _ => ⟨?_, ?_⟩
      · rintro ⟨hne, hnot⟩ ⟨rfl | hdn', hremoves⟩
        · exact hne ⟨rfl, hremoves⟩
        · exact hnot ⟨hdn', hremoves⟩
      · intro hnot
        refine ⟨?_, fun hdn' => hnot ⟨.inr hdn'.1, hdn'.2⟩⟩
        rintro ⟨rfl, hremoves⟩
        exact hnot ⟨.inl rfl, hremoves⟩

/-- The loop over the current values adds those that are to be added. -/
theorem Succeeds.addLoop {dns : List String} (h : Succeeds primaryGroup isMember state)
    (hdns : dns.Nodup) (hmember : ∀ dn ∈ dns, d.Adds dn → ¬isMember dn) :
    Succeeds primaryGroup (fun dn => isMember dn ∨ dn ∈ dns ∧ d.Adds dn)
      (dns.foldl d.addAdded state) := by
  induction dns generalizing state isMember with
  | nil => exact h.congr fun dn => (or_iff_left fun hdn => List.not_mem_nil hdn.1).symm
  | cons dn dns ih =>
    rw [List.nodup_cons] at hdns
    rw [List.forall_mem_cons] at hmember
    refine (ih (h.addAdded hmember.1) hdns.2 fun dn' hdn' hadds => ?_).congr fun dn' => ?_
    · rintro (hbefore | ⟨rfl, -⟩)
      · exact hmember.2 dn' hdn' hadds hbefore
      · exact hdns.1 hdn'
    · rw [List.mem_cons, or_assoc]
      refine or_congr_right ⟨?_, ?_⟩
      · rintro (⟨rfl, hadds⟩ | ⟨hdn', hadds⟩)
        · exact ⟨.inl rfl, hadds⟩
        · exact ⟨.inr hdn', hadds⟩
      · rintro ⟨rfl | hdn', hadds⟩
        · exact .inl ⟨rfl, hadds⟩
        · exact .inr ⟨hdn', hadds⟩

end

/-! ## Edits of the groups of a user -/

/-- A tab of the groups of a user, which has one primary group at any time. -/
structure IsEdited (values : QSet String) (primaryGroup : String) (d : MembershipTabEdit)
    (current : String) : Prop where
  type : d.type = .memberOf
  originalValues : d.originalValues = values
  originalPrimaryValues : d.originalPrimaryValues = .single primaryGroup
  currentPrimaryValues : d.currentPrimaryValues = .single current

/-- The server accepts all requests. Then the user is in the groups that are shown, with the
    primary group that is shown. -/
structure AppliedAsShown (d : MembershipTabEdit) (server : MembershipServer) : Prop where
  success : (d.apply server).2 = true
  accepted : (d.apply server).1.accepted = true
  groups : ∀ dn, dn ∈ (d.apply server).1.memberships ∨ dn = (d.apply server).1.primaryGroup ↔
    dn ∈ d.currentValues ∨ dn ∈ d.currentPrimaryValues
  primaryGroup : ∀ dn, dn ∈ d.currentPrimaryValues ↔ dn = (d.apply server).1.primaryGroup

section
variable {d : MembershipTabEdit} {values : QSet String} {primaryGroup current : String}

theorem IsEdited.edit (h : IsEdited values primaryGroup d current) (e : MembershipEdit) :
    ∃ current', IsEdited values primaryGroup (d.edit e) current' := by
  cases e with
  | add values => exact ⟨current, h.type, h.originalValues, h.originalPrimaryValues,
      h.currentPrimaryValues⟩
  | remove removedValues =>
    refine ⟨current, ?_⟩
    simp only [MembershipTabEdit.edit, onRemoveButton]
    split_ifs
    · exact h
    · exact ⟨h.type, h.originalValues, h.originalPrimaryValues, h.currentPrimaryValues⟩
  | primary groupDn =>
    simp only [MembershipTabEdit.edit]
    split_ifs
    · exact ⟨groupDn, h.type, h.originalValues, h.originalPrimaryValues, rfl⟩
    · exact ⟨current, h⟩

theorem IsEdited.edits (h : IsEdited values primaryGroup d current) (edits : List MembershipEdit) :
    ∃ current', IsEdited values primaryGroup (edits.foldl MembershipTabEdit.edit d) current' := by
  induction edits generalizing d current with
  | nil => exact ⟨current, h⟩
  | cons e edits ih =>
    obtain ⟨current', h'⟩ := h.edit e
    exact ih h'

theorem IsEdited.groupIsOrWasPrimary (h : IsEdited values primaryGroup d current) {dn : String} :
    d.groupIsOrWasPrimary dn = false ↔ dn ≠ primaryGroup ∧ dn ≠ current := by
  rw [MembershipTabEdit.groupIsOrWasPrimary, h.type, h.originalPrimaryValues,
    h.currentPrimaryValues, Bool.or_eq_false_iff]
  simp

/-- Setting a primary group that the user may have to be added to first. -/
theorem userSetPrimaryGroup_succeeds {server : MembershipServer} {dn : String}
    (haccepted : server.accepted = true) :
    Succeeds dn (fun dn' => dn' ≠ dn ∧ (dn' = server.primaryGroup ∨ dn' ∈ server.memberships))
      (server.userSetPrimaryGroup dn) := by
  rw [MembershipServer.userSetPrimaryGroup, MembershipServer.replacePrimaryGroup]
  by_cases hmem : dn ∈ server.memberships
  · simp only [QSet.contains_iff.2 hmem, Bool.not_true, Bool.false_eq_true, if_false]
    refine ⟨haccepted, rfl, rfl, fun dn' => ?_⟩
    rw [QSet.mem_remove, QSet.mem_insert]
  · have hadded : server.addMember dn =
        ({ server with memberships := server.memberships.insert dn }, true) :=
      if_neg (by simpa using hmem)
    have hmem' : (server.memberships.insert dn).contains dn = true := by simp
    simp only [QSet.contains_eq_false.2 hmem, Bool.not_false, if_true, hadded, hmem', Bool.not_true,
      Bool.false_eq_true, if_false]
    refine ⟨haccepted, rfl, rfl, fun dn' => ?_⟩
    rw [QSet.mem_remove, QSet.mem_insert, QSet.mem_insert]
    tauto

/-- Changing the primary group makes the former one an ordinary one. -/
theorem IsEdited.changePrimary (h : IsEdited values primaryGroup d current) :
    Succeeds current (fun dn => if current = primaryGroup then dn ∈ values
        else dn ≠ current ∧ (dn = primaryGroup ∨ dn ∈ values))
      (d.changePrimary ⟨values, primaryGroup, true⟩) := by
  have hequals : (QSet.single current).equals (.single primaryGroup) = true ↔
      current = primaryGroup := by
    rw [QSet.equals_iff]
    constructor
    · exact fun hall => QSet.mem_single.1 ((hall current).1 (QSet.mem_single.2 rfl))
    · rintro rfl
      exact fun _ => Iff.rfl
  rw [MembershipTabEdit.changePrimary, h.type, h.currentPrimaryValues, h.originalPrimaryValues]
  dsimp only
  by_cases heq : current = primaryGroup
  · rw [hequals.2 heq]
    refine ⟨rfl, rfl, heq.symm, fun dn => ?_⟩
    rw [if_pos heq]
    exact Iff.rfl
  · rw [Bool.eq_false_iff.2 (mt hequals.1 heq)]
    refine (userSetPrimaryGroup_succeeds rfl).congr fun dn => ?_
    rw [if_neg heq]

/-- Applying the edits gives the user the groups that are shown, and the former primary
    group. -/
theorem IsEdited.apply (h : IsEdited values primaryGroup d current) :
    ∃ isMember, Succeeds current isMember (d.apply ⟨values, primaryGroup, true⟩) ∧
      ∀ dn, isMember dn ∨ dn = current ↔
        dn ∈ d.currentValues ∨ dn = current ∨ dn = primaryGroup := by
  -- the groups that neither are nor were primary are as they have been loaded
  have hother : ∀ dn, d.groupIsOrWasPrimary dn = false →
      ((if current = primaryGroup then dn ∈ values
        else dn ≠ current ∧ (dn = primaryGroup ∨ dn ∈ values)) ↔ dn ∈ values) := by
    intro dn hprimary
    obtain ⟨hne, hne'⟩ := h.groupIsOrWasPrimary.1 hprimary
    split_ifs
    · rfl
    · simp [hne, hne']
  have hmem : ∀ dn, dn ∈ d.originalValues.values ↔ dn ∈ values := fun dn => by
    rw [h.originalValues]
    rfl
  have hremove := h.changePrimary.removeLoop d.originalValues.nodup fun dn hdn hremoves =>
    (hother dn hremoves.1).2 ((hmem dn).1 hdn)
  have hadd := hremove.addLoop d.currentValues.nodup fun dn _ hadds hdn =>
    hadds.2 ((hmem dn).2 ((hother dn hadds.1).1 hdn.1))
  refine ⟨_, hadd, fun dn => ?_⟩
  have hcurrent : dn ∈ d.currentValues.values ↔ dn ∈ d.currentValues := Iff.rfl
  have horiginal : dn ∈ d.originalValues ↔ dn ∈ values := hmem dn
  rw [hmem, hcurrent, Removes, Adds, horiginal]
  by_cases hprimary : d.groupIsOrWasPrimary dn = false
  · obtain ⟨hne, hne'⟩ := h.groupIsOrWasPrimary.1 hprimary
    rw [hother dn hprimary]
    tauto
  · have hor : dn = primaryGroup ∨ dn = current := by
      by_contra hnot
      exact hprimary (h.groupIsOrWasPrimary.2 (not_or.1 hnot))
    refine iff_of_true ?_ (.inr hor.symm)
    by_cases heq : dn = current
    · exact .inr heq
    · have hformer := hor.resolve_right heq
      refine .inl (.inl ⟨?_, fun hdn => hprimary hdn.2.1⟩)
      rw [if_neg fun hsame => heq (hformer.trans hsame.symm)]
      exact ⟨heq, .inl hformer⟩

end

/-- The user is in the groups that are shown exactly if the group that was primary is still
    among them. -/
theorem applied_iff (values : QSet String) (primaryGroup : String) (edits : List MembershipEdit) :
    let d := edits.foldl MembershipTabEdit.edit (load .memberOf values (.single primaryGroup))
    AppliedAsShown d ⟨values, primaryGroup, true⟩ ↔
      primaryGroup ∈ d.currentValues ∨ primaryGroup ∈ d.currentPrimaryValues := by
  intro d
  have hstart : IsEdited values primaryGroup
      (load .memberOf values (.single primaryGroup)) primaryGroup := ⟨rfl, rfl, rfl, rfl⟩
  obtain ⟨current, hedited⟩ : ∃ current, IsEdited values primaryGroup d current :=
    hstart.edits edits
  obtain ⟨isMember, hsucceeds, hgroups⟩ := hedited.apply
  have hcurrent : ∀ dn, dn ∈ d.currentPrimaryValues ↔ dn = current := fun dn => by
    rw [hedited.currentPrimaryValues, QSet.mem_single]
  have hshown : ∀ dn, dn ∈ (d.apply ⟨values, primaryGroup, true⟩).1.memberships ∨
      dn = (d.apply ⟨values, primaryGroup, true⟩).1.primaryGroup ↔
      dn ∈ d.currentValues ∨ dn ∈ d.currentPrimaryValues ∨ dn = primaryGroup := fun dn => by
    rw [hsucceeds.memberships, hsucceeds.primaryGroup, hgroups, hcurrent]
  constructor
  · intro happlied
    exact (happlied.groups primaryGroup).1 ((hshown primaryGroup).2 (.inr (.inr rfl)))
  · intro hstill
    refine ⟨hsucceeds.success, hsucceeds.accepted, fun dn => (hshown dn).trans ?_, fun dn => ?_⟩
    · rw [← or_assoc]
      refine or_iff_left_of_imp ?_
      rintro rfl
      exact hstill
    · rw [hcurrent, hsucceeds.primaryGroup]

/-- The primary group is changed, and the former one removed. -/
theorem not_appliedAsShown :
    ¬AppliedAsShown ([.primary "CN=b", .remove ["CN=a"]].foldl MembershipTabEdit.edit
      (load .memberOf (.single "CN=b") (.single "CN=a"))) ⟨.single "CN=b", "CN=a", true⟩ := by
  intro happlied
  exact absurd ((happlied.groups "CN=a").1 (by decide)) (by decide)

end MembershipTabEdit

end Admc
