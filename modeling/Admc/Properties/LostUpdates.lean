import Admc.Interface.Encoding
import Admc.Properties.PendingEdits

/-!
# Edits that overwrite each other

The pending edits of the properties dialog are applied in the order in which they have been
made. The check boxes that stand for entries of the descriptor, and the flags, are read anew
when they are written, and the other entries and flags are kept. But the security tab writes
the descriptor that was loaded when the dialog was opened, so that a check box that has been
set before it is lost; and a number that cannot be read counts as zero.

`requestsHold_iff`: once all edits have succeeded, the directory holds what they request
exactly when each takes effect (`PendingEdit.TakesEffect`), and the last of the later edits
that writes what it is about leaves it as requested (`PendingEdit.LeavesHeld`).
-/

namespace Admc

variable {σ : Type}

section
variable (g : Globals) (dir : OwnDirectory σ) (ndr : Ndr) (dn : String)

/-- The edit can do what it requests: "cannot change password" is not cleared where the right
    is denied otherwise. -/
def PendingEdit.TakesEffect (s : σ) : PendingEdit → Prop
  | .accountOption .cantChangePassword set => set = false → ∀ sd,
    storedDescriptor dir ndr dn s = some sd → ¬PasswordDeniedOtherwise g.adconfig sd.aces
  | _ => True

/-- Whether the directory holds a request after the edit, given whether it holds it before.
    The security tab writes the check boxes as they are in its descriptor, and an edit of a
    flag writes the others as they are in the number that it reads. -/
def PendingEdit.LeavesHeld (edit : PendingEdit) (s : σ) (request : PendingEdit) (before : Prop) :
    Prop :=
  match edit, request with
  | .security sd _, .protectDeletion enabled =>
    isDeleteProtectedForTrustee sd sidWorld = .ok enabled
  | .security sd _, .accountOption .cantChangePassword set => isPasswordChangeDenied g sd = .ok set
  | edit, request =>
    if edit.IsFlag ∧ edit.attribute = request.attribute then
      request.HoldsOf (edit.numberRead g dir dn s)
    else before

end

/-! ## Parts of a number -/

section
variable {w : ℕ} {number mask mask' : BitVec w} {isSet : Bool}

/-- Setting a mask makes no difference to one that has nothing in common with it. -/
theorem bitmaskIsSet_bitmaskSet_of_disjoint (hd : mask &&& mask' = 0) :
    bitmaskIsSet (bitmaskSet number mask isSet) mask' = bitmaskIsSet number mask' := by
  rw [Bool.eq_iff_iff, bitmaskIsSet_iff, bitmaskIsSet_iff, bitmaskSet]
  split_ifs
  · exact ⟨fun h => h.of_or hd, fun h => h.or_left mask⟩
  · exact ⟨fun h => h.of_andNot, fun h => h.andNot hd⟩

/-- A mask that is set is set, and one that is cleared is not. -/
theorem bitmaskIsSet_bitmaskSet_self (hmask : mask ≠ 0) :
    bitmaskIsSet (bitmaskSet number mask isSet) mask = isSet := by
  cases isSet with
  | true =>
    rw [bitmaskSet, if_pos rfl, bitmaskIsSet_iff]
    exact Mask.includes_or_right number mask
  | false =>
    rw [bitmaskSet, if_neg Bool.false_ne_true, bitmaskIsSet, Mask.andNot_and_self,
      decide_eq_false_iff_not]
    exact hmask.symm

end

theorem accountOptionBit_disjoint {option option' : AccountOption} (hne : option ≠ option') :
    accountOptionBit option &&& accountOptionBit option' = 0 := by
  cases option <;> cases option' <;> first | rfl | exact absurd rfl hne

theorem accountOptionBit_ne_zero {option : AccountOption} (hbit : option.IsBit) :
    accountOptionBit option ≠ 0 := by
  cases option with
  | cantChangePassword => exact absurd rfl hbit.1
  | passwordExpired => exact absurd rfl hbit.2
  | _ => decide

theorem groupTypeBitSecurity_disjoint (scope : GroupScope) :
    groupTypeBitSecurity &&& groupScopeBit scope = 0 := by
  cases scope <;> rfl

/-- Setting the type of a group makes no difference to its scope, -/
theorem groupScopeOf_bitmaskSet (number : BitVec 32) (isSet : Bool) :
    groupScopeOf (bitmaskSet number groupTypeBitSecurity isSet) = groupScopeOf number := by
  simp only [groupScopeOf, bitmaskIsSet_bitmaskSet_of_disjoint (groupTypeBitSecurity_disjoint _)]

/-- and setting the scope none to the type. -/
theorem isSet_withScope (number : BitVec 32) (scope : GroupScope) :
    bitmaskIsSet (withScope number scope) groupTypeBitSecurity =
      bitmaskIsSet number groupTypeBitSecurity := by
  have hdisjoint : ∀ scope, groupScopeBit scope &&& groupTypeBitSecurity = 0 := fun scope => by
    rw [BitVec.and_comm, groupTypeBitSecurity_disjoint]
  rw [withScope, bitmaskIsSet_bitmaskSet_of_disjoint (hdisjoint scope), groupScopes,
    List.foldl_cons, List.foldl_cons, List.foldl_cons, List.foldl_nil,
    bitmaskIsSet_bitmaskSet_of_disjoint (hdisjoint _),
    bitmaskIsSet_bitmaskSet_of_disjoint (hdisjoint _),
    bitmaskIsSet_bitmaskSet_of_disjoint (hdisjoint _)]

section
variable {edit request : PendingEdit} {number : BitVec 32}

theorem isBit_of_isFlag {option : AccountOption} {set : Bool}
    (h : (PendingEdit.accountOption option set).IsFlag) : option.IsBit := by
  constructor
  · rintro rfl
    exact not_isFlag_of_descriptor rfl h
  · rintro rfl
    exact not_isFlag_of_pwdLastSet rfl h

theorem attribute_ne_groupType {option : AccountOption} {set : Bool} :
    (PendingEdit.accountOption option set).attribute ≠ attributeGroupType := by
  cases option <;> simp only [PendingEdit.attribute] <;> decide

/-- The number with the part that is requested is as requested, -/
theorem holdsOf_change_self (hflag : edit.IsFlag) : edit.HoldsOf (edit.change number) := by
  cases edit with
  | security sd isPolicy => trivial
  | protectDeletion enabled => trivial
  | accountOption option set =>
    exact bitmaskIsSet_bitmaskSet_self (accountOptionBit_ne_zero (isBit_of_isFlag hflag))
  | groupType type => exact bitmaskIsSet_bitmaskSet_self (by decide)
  | groupScope scope => exact groupScopeOf_withScope number scope

/-- and no other part of it has changed. -/
theorem holdsOf_change_other (hflag : edit.IsFlag) (hattr : edit.attribute = request.attribute)
    (hsubject : edit.subject ≠ request.subject) :
    request.HoldsOf (edit.change number) ↔ request.HoldsOf number := by
  have hdescriptor : ∀ attr, attr = attributeUserAccountControl ∨ attr = attributeGroupType →
      attr ≠ attributeSecurityDescriptor := by
    rintro attr (rfl | rfl) <;> decide
  cases request with
  | security sd isPolicy => exact absurd hattr (hdescriptor _ hflag)
  | protectDeletion enabled => exact absurd hattr (hdescriptor _ hflag)
  | accountOption option' set' =>
    cases edit with
    | security sd isPolicy => exact absurd hflag (not_isFlag_of_descriptor rfl)
    | protectDeletion enabled => exact absurd hflag (not_isFlag_of_descriptor rfl)
    | accountOption option set =>
      have hne : option ≠ option' := fun h => hsubject (congrArg EditSubject.accountOption h)
      rw [PendingEdit.HoldsOf, PendingEdit.HoldsOf, PendingEdit.change,
        bitmaskIsSet_bitmaskSet_of_disjoint (accountOptionBit_disjoint hne)]
    | groupType type => exact absurd hattr.symm attribute_ne_groupType
    | groupScope scope => exact absurd hattr.symm attribute_ne_groupType
  | groupType type' =>
    cases edit with
    | security sd isPolicy => exact absurd hflag (not_isFlag_of_descriptor rfl)
    | protectDeletion enabled => exact absurd hflag (not_isFlag_of_descriptor rfl)
    | accountOption option set => exact absurd hattr attribute_ne_groupType
    | groupType type => exact absurd rfl hsubject
    | groupScope scope =>
      rw [PendingEdit.HoldsOf, PendingEdit.HoldsOf, PendingEdit.change, isSet_withScope]
  | groupScope scope' =>
    cases edit with
    | security sd isPolicy => exact absurd hflag (not_isFlag_of_descriptor rfl)
    | protectDeletion enabled => exact absurd hflag (not_isFlag_of_descriptor rfl)
    | accountOption option set => exact absurd hattr attribute_ne_groupType
    | groupType type =>
      rw [PendingEdit.HoldsOf, PendingEdit.HoldsOf, PendingEdit.change, groupScopeOf_bitmaskSet]
    | groupScope scope => exact absurd rfl hsubject

end

/-! ## One edit -/

section
variable {g : Globals} {dir : OwnDirectory σ} {ndr : Ndr} {dn : String} {s s' : σ}
  {edits : List PendingEdit} {edit request : PendingEdit}

/-- A request is about one attribute. -/
theorem holds_congr (h : dir.values s' dn request.attribute = dir.values s dn request.attribute) :
    request.Holds g dir ndr dn edits s' ↔ request.Holds g dir ndr dn edits s := by
  unfold PendingEdit.attribute at h
  cases request with
  | accountOption option set =>
    cases option <;> simp only [PendingEdit.Holds, storedDescriptor, storedNumber, h]
  | _ => simp only [PendingEdit.Holds, storedDescriptor, storedNumber, h]

/-- The request of a flag is about the number that is stored. -/
theorem holds_flag (hflag : request.IsFlag) : request.Holds g dir ndr dn edits s ↔
    request.HoldsOf (storedNumber g dir dn s request.attribute) := by
  cases request with
  | security sd isPolicy => exact absurd hflag (not_isFlag_of_descriptor rfl)
  | protectDeletion enabled => exact absurd hflag (not_isFlag_of_descriptor rfl)
  | accountOption option set =>
    obtain ⟨hpassword, hexpired⟩ := isBit_of_isFlag hflag
    cases option <;> first | rfl | exact absurd rfl hpassword | exact absurd rfl hexpired
  | groupType type => rfl
  | groupScope scope => rfl

/-- An edit that succeeds changes its attribute only. -/
theorem changesOnly_apply (hrt : g.rt.DecodesUtf8) (hndr : ndr.Keeps)
    (h : edit.apply g dir ndr dn s = .ok (s', true)) :
    ChangesOnly dir dn edit.attribute s s' := by
  by_cases hflag : edit.IsFlag
  · exact (apply_flag hrt hflag h).1
  cases edit with
  | security sd isPolicy => exact (apply_security hndr h).1
  | protectDeletion enabled => exact (apply_protectDeletion hndr h).1
  | accountOption option set =>
    cases option with
    | cantChangePassword => exact (apply_cantChangePassword hndr h).1
    | passwordExpired => exact (apply_passwordExpired hrt h).1
    | _ => exact absurd (.inl rfl) hflag
  | groupType type => exact absurd (.inr rfl) hflag
  | groupScope scope => exact absurd (.inr rfl) hflag

/-- An edit that succeeds does what it requests, if it can. -/
theorem holds_apply_self (hrt : g.rt.DecodesUtf8) (hndr : ndr.Keeps)
    (h : edit.apply g dir ndr dn s = .ok (s', true)) :
    edit.Holds g dir ndr dn edits s' ↔ edit.TakesEffect g dir ndr dn s := by
  by_cases hflag : edit.IsFlag
  · refine iff_of_true ?_ ?_
    · rw [holds_flag hflag, (apply_flag hrt hflag h).2]
      exact holdsOf_change_self hflag
    · cases edit with
      | accountOption option set =>
        obtain ⟨hpassword, -⟩ := isBit_of_isFlag hflag
        cases option <;> trivial
      | _ => trivial
  cases edit with
  | security sd isPolicy =>
    obtain ⟨-, sd', hstored, halike⟩ := apply_security hndr h
    exact iff_of_true ⟨sd', hstored, halike.dacl, halike.agreeOff _⟩ trivial
  | protectDeletion enabled =>
    obtain ⟨-, -, sd', -, hstored, -, -, hprotected⟩ := apply_protectDeletion hndr h
    exact iff_of_true ⟨sd', hstored, hprotected⟩ trivial
  | accountOption option set =>
    cases option with
    | cantChangePassword =>
      obtain ⟨-, sd, sd', hstored, hstored', -, -, hdenied⟩ := apply_cantChangePassword hndr h
      simp only [PendingEdit.Holds, PendingEdit.TakesEffect, hstored, hstored', Option.some_inj,
        exists_eq_left', forall_eq', hdenied]
    | passwordExpired => exact iff_of_true (apply_passwordExpired hrt h).2 trivial
    | _ => exact absurd (.inl rfl) hflag
  | groupType type => exact absurd (.inr rfl) hflag
  | groupScope scope => exact absurd (.inr rfl) hflag

/-- A check box that is set keeps the other permissions of the descriptor. -/
theorem holds_security_congr {sd sd₁ sd₂ : SecurityDescriptor} {isPolicy : Bool}
    (hstored : storedDescriptor dir ndr dn s = some sd₁)
    (hstored' : storedDescriptor dir ndr dn s' = some sd₂)
    (hdacl : sd₂.dacl = none ↔ sd₁.dacl = none) (hmem : edit ∈ edits)
    (hagree : AgreeOff (edit.StandsFor g) sd₁.aces sd₂.aces) :
    (PendingEdit.security sd isPolicy).Holds g dir ndr dn edits s' ↔
      (PendingEdit.security sd isPolicy).Holds g dir ndr dn edits s := by
  have hagree : AgreeOff (fun kind bit => ∃ edit ∈ edits, edit.StandsFor g kind bit) sd₁.aces
      sd₂.aces := hagree.mono fun kind bit hbit => ⟨edit, hmem, hbit⟩
  simp only [PendingEdit.Holds, hstored, hstored', Option.some_inj, exists_eq_left', hdacl]
  exact and_congr_right fun _ => ⟨fun h => h.trans hagree.symm, fun h => h.trans hagree⟩

theorem leavesHeld_of_ne {before : Prop} (hattr : edit.attribute ≠ request.attribute) :
    edit.LeavesHeld g dir dn s request before ↔ before := by
  unfold PendingEdit.LeavesHeld
  split
  · exact absurd rfl hattr
  · exact absurd rfl hattr
  · rw [if_neg fun h => hattr h.2]

theorem leavesHeld_of_isFlag {before : Prop} (hflag : edit.IsFlag)
    (hattr : edit.attribute = request.attribute) :
    edit.LeavesHeld g dir dn s request before ↔
      request.HoldsOf (edit.numberRead g dir dn s) := by
  unfold PendingEdit.LeavesHeld
  split
  · exact absurd hflag (not_isFlag_of_descriptor rfl)
  · exact absurd hflag (not_isFlag_of_descriptor rfl)
  · rw [if_pos ⟨hflag, hattr⟩]

/-- The edits that write the descriptor. -/
theorem cases_of_descriptor (h : request.attribute = attributeSecurityDescriptor) :
    (∃ sd isPolicy, request = .security sd isPolicy) ∨
      (∃ enabled, request = .protectDeletion enabled) ∨
      ∃ set, request = .accountOption .cantChangePassword set := by
  have hne : attributeGroupType ≠ attributeSecurityDescriptor ∧
      attributePwdLastSet ≠ attributeSecurityDescriptor ∧
      attributeUserAccountControl ≠ attributeSecurityDescriptor := by decide
  cases request with
  | security sd isPolicy => exact .inl ⟨sd, isPolicy, rfl⟩
  | protectDeletion enabled => exact .inr (.inl ⟨enabled, rfl⟩)
  | accountOption option set =>
    cases option with
    | cantChangePassword => exact .inr (.inr ⟨set, rfl⟩)
    | passwordExpired => exact absurd h hne.2.1
    | _ => exact absurd h hne.2.2
  | groupType type => exact absurd h hne.1
  | groupScope scope => exact absurd h hne.1

/-- The edit that writes when the password has been set. -/
theorem subject_of_pwdLastSet (h : request.attribute = attributePwdLastSet) :
    request.subject = .accountOption .passwordExpired := by
  have hne : attributeGroupType ≠ attributePwdLastSet ∧
      attributeSecurityDescriptor ≠ attributePwdLastSet ∧
      attributeUserAccountControl ≠ attributePwdLastSet := by decide
  cases request with
  | accountOption option set =>
    cases option with
    | cantChangePassword => exact absurd h hne.2.1
    | passwordExpired => rfl
    | _ => exact absurd h hne.2.2
  | groupType type => exact absurd h hne.1
  | groupScope scope => exact absurd h hne.1
  | _ => exact absurd h hne.2.1

/-- What the security tab makes of the other requests. -/
theorem holds_apply_security (hndr : ndr.Keeps) {sd : SecurityDescriptor} {isPolicy : Bool}
    (hattr : request.attribute = attributeSecurityDescriptor)
    (hsubject : request.subject ≠ .security)
    (h : (PendingEdit.security sd isPolicy).apply g dir ndr dn s = .ok (s', true)) :
    request.Holds g dir ndr dn edits s' ↔
      (PendingEdit.security sd isPolicy).LeavesHeld g dir dn s request
        (request.Holds g dir ndr dn edits s) := by
  obtain ⟨-, sd', hstored, halike⟩ := apply_security hndr h
  obtain ⟨sd, isPolicy, rfl⟩ | ⟨enabled, rfl⟩ | ⟨set, rfl⟩ := cases_of_descriptor hattr
  · exact absurd rfl hsubject
  · simp only [PendingEdit.Holds, PendingEdit.LeavesHeld, hstored, Option.some_inj,
      exists_eq_left', halike.isDeleteProtected_iff]
  · simp only [PendingEdit.Holds, PendingEdit.LeavesHeld, hstored, Option.some_inj,
      exists_eq_left', halike.isPasswordChangeDenied_iff]

/-- What the check box for the protection makes of the other requests. -/
theorem holds_apply_protectDeletion (hndr : ndr.Keeps) {enabled : Bool}
    (hmem : .protectDeletion enabled ∈ edits)
    (hattr : request.attribute = attributeSecurityDescriptor)
    (hsubject : request.subject ≠ .protectDeletion)
    (h : (PendingEdit.protectDeletion enabled).apply g dir ndr dn s = .ok (s', true)) :
    request.Holds g dir ndr dn edits s' ↔ request.Holds g dir ndr dn edits s := by
  obtain ⟨-, sd₁, sd₂, hstored, hstored', hdacl, hagree, -⟩ := apply_protectDeletion hndr h
  obtain ⟨sd, isPolicy, rfl⟩ | ⟨enabled, rfl⟩ | ⟨set, rfl⟩ := cases_of_descriptor hattr
  · exact holds_security_congr hstored hstored' hdacl hmem hagree
  · exact absurd rfl hsubject
  · simp only [PendingEdit.Holds, hstored, hstored', Option.some_inj, exists_eq_left',
      isPasswordChangeDenied_congr hdacl fun _ => hagree.denied_changePassRight_iff]

/-- What the check box for "cannot change password" makes of the other requests. -/
theorem holds_apply_cantChangePassword (hndr : ndr.Keeps) {set : Bool}
    (hmem : .accountOption .cantChangePassword set ∈ edits)
    (hattr : request.attribute = attributeSecurityDescriptor)
    (hsubject : request.subject ≠ .accountOption .cantChangePassword)
    (h : (PendingEdit.accountOption .cantChangePassword set).apply g dir ndr dn s =
      .ok (s', true)) :
    request.Holds g dir ndr dn edits s' ↔ request.Holds g dir ndr dn edits s := by
  obtain ⟨-, sd₁, sd₂, hstored, hstored', hdacl, hagree, -⟩ := apply_cantChangePassword hndr h
  obtain ⟨sd, isPolicy, rfl⟩ | ⟨enabled, rfl⟩ | ⟨set, rfl⟩ := cases_of_descriptor hattr
  · exact holds_security_congr hstored hstored' hdacl hmem hagree
  · simp only [PendingEdit.Holds, hstored, hstored', Option.some_inj, exists_eq_left',
      isDeleteProtected_congr hdacl fun _ hmask => hagree.denied_ofMask_iff hmask]
  · exact absurd rfl hsubject

/-- What an edit that succeeds makes of the other requests. -/
theorem holds_apply_other (hrt : g.rt.DecodesUtf8) (hndr : ndr.Keeps) (hmem : edit ∈ edits)
    (hsubject : edit.subject ≠ request.subject)
    (h : edit.apply g dir ndr dn s = .ok (s', true)) :
    request.Holds g dir ndr dn edits s' ↔
      edit.LeavesHeld g dir dn s request (request.Holds g dir ndr dn edits s) := by
  by_cases hattr : edit.attribute = request.attribute
  swap
  · rw [leavesHeld_of_ne hattr]
    exact holds_congr (changesOnly_apply hrt hndr h _ (Ne.symm hattr))
  by_cases hflag : edit.IsFlag
  · have hflag' : request.IsFlag := by
      rwa [PendingEdit.IsFlag, hattr] at hflag
    rw [leavesHeld_of_isFlag hflag hattr, holds_flag hflag', ← hattr, (apply_flag hrt hflag h).2]
    exact holdsOf_change_other hflag hattr hsubject
  have hleaves : edit.subject ≠ .security →
      (edit.LeavesHeld g dir dn s request (request.Holds g dir ndr dn edits s) ↔
        request.Holds g dir ndr dn edits s) := by
    intro hne
    unfold PendingEdit.LeavesHeld
    split
    · exact absurd rfl hne
    · exact absurd rfl hne
    · rw [if_neg fun h => hflag h.1]
  cases edit with
  | security sd isPolicy => exact holds_apply_security hndr hattr.symm hsubject.symm h
  | protectDeletion enabled =>
    rw [hleaves (by simp [PendingEdit.subject])]
    exact holds_apply_protectDeletion hndr hmem hattr.symm hsubject.symm h
  | accountOption option set =>
    rw [hleaves (by simp [PendingEdit.subject])]
    cases option with
    | cantChangePassword =>
      exact holds_apply_cantChangePassword hndr hmem hattr.symm hsubject.symm h
    | passwordExpired => exact absurd (subject_of_pwdLastSet hattr.symm).symm hsubject
    | _ => exact absurd (.inl rfl) hflag
  | groupType type => exact absurd (.inr rfl) hflag
  | groupScope scope => exact absurd (.inr rfl) hflag

end

/-! ## All edits -/

section
variable (g : Globals) (dir : OwnDirectory σ) (ndr : Ndr) (dn : String)

/-- The state after an edit. -/
def PendingEdit.next (edit : PendingEdit) (s : σ) : σ :=
  match edit.apply g dir ndr dn s with
  | .ok (s', _) => s'
  | .error _ => s

/-- Whether the directory holds a request once the later edits are applied, given whether it
    holds it before. The last of them that writes what the request is about decides. -/
def KeptBy (request : PendingEdit) : List PendingEdit → σ → Prop → Prop
  | [], _, before => before
  | edit :: edits, s, before =>
    KeptBy request edits (edit.next g dir ndr dn s) (edit.LeavesHeld g dir dn s request before)

/-- Each edit takes effect, or a later one sets right what it requests; and the last of the
    later edits that writes what it is about leaves it as requested. -/
def RequestsKept : List PendingEdit → σ → Prop
  | [], _ => True
  | edit :: edits, s =>
    KeptBy g dir ndr dn edit edits (edit.next g dir ndr dn s) (edit.TakesEffect g dir ndr dn s) ∧
      RequestsKept edits (edit.next g dir ndr dn s)

end

section
variable {g : Globals} {dir : OwnDirectory σ} {ndr : Ndr} {dn : String} {s s' : σ}
  {edits all : List PendingEdit} {edit request : PendingEdit}

theorem keptBy_congr {before before' : Prop} (h : before ↔ before') :
    KeptBy g dir ndr dn request edits s before ↔ KeptBy g dir ndr dn request edits s before' := by
  rw [propext h]

/-- Edits that all succeed do so one after the other. -/
theorem applyEdits_cons
    (h : applyEdits g dir ndr dn s (edit :: edits) = .ok (s', true)) :
    edit.apply g dir ndr dn s = .ok (edit.next g dir ndr dn s, true) ∧
      applyEdits g dir ndr dn (edit.next g dir ndr dn s) edits = .ok (s', true) := by
  simp only [applyEdits, Except.bind_eq_ok, Except.pure_eq_ok] at h
  obtain ⟨⟨s₁, applySuccess⟩, happly, ⟨s₂, success⟩, hrest, h⟩ := h
  obtain ⟨rfl, hsuccess⟩ := Prod.mk.inj h
  obtain ⟨rfl, rfl⟩ := Bool.and_eq_true_iff.1 hsuccess
  have hnext : edit.next g dir ndr dn s = s₁ := by
    rw [PendingEdit.next, happly]
  rw [hnext]
  exact ⟨happly, hrest⟩

/-- What later edits make of a request. -/
theorem holds_applyEdits (hrt : g.rt.DecodesUtf8) (hndr : ndr.Keeps) (hall : edits ⊆ all)
    (hsubject : request.subject ∉ edits.map PendingEdit.subject)
    (h : applyEdits g dir ndr dn s edits = .ok (s', true)) :
    request.Holds g dir ndr dn all s' ↔
      KeptBy g dir ndr dn request edits s (request.Holds g dir ndr dn all s) := by
  induction edits generalizing s with
  | nil =>
    obtain rfl := congrArg Prod.fst (Except.pure_eq_ok.1 h)
    rfl
  | cons edit edits ih =>
    rw [List.map_cons, List.mem_cons, not_or] at hsubject
    obtain ⟨happly, hrest⟩ := applyEdits_cons h
    rw [ih (List.subset_of_cons_subset hall) hsubject.2 hrest, KeptBy]
    exact keptBy_congr (holds_apply_other hrt hndr (hall List.mem_cons_self)
      (Ne.symm hsubject.1) happly)

theorem holds_applyEdits_iff (hrt : g.rt.DecodesUtf8) (hndr : ndr.Keeps) (hall : edits ⊆ all)
    (hedits : (edits.map PendingEdit.subject).Nodup)
    (h : applyEdits g dir ndr dn s edits = .ok (s', true)) :
    (∀ edit ∈ edits, edit.Holds g dir ndr dn all s') ↔ RequestsKept g dir ndr dn edits s := by
  induction edits generalizing s with
  | nil => exact iff_of_true (List.forall_mem_nil _) trivial
  | cons edit edits ih =>
    rw [List.map_cons, List.nodup_cons] at hedits
    obtain ⟨happly, hrest⟩ := applyEdits_cons h
    have hall' := List.subset_of_cons_subset hall
    rw [List.forall_mem_cons, ih hall' hedits.2 hrest,
      holds_applyEdits hrt hndr hall' hedits.1 hrest, RequestsKept]
    exact and_congr_left fun _ => keptBy_congr (holds_apply_self hrt hndr happly)

end

/-- Once the pending edits have all been applied with success, the directory holds what they
    request exactly when each takes effect, and the last of the later edits that writes what
    it is about leaves it as requested: the security tab has the check box as requested in its
    descriptor, and an edit of a flag has read the other as requested. -/
theorem requestsHold_iff (g : Globals) (dir : OwnDirectory σ) (ndr : Ndr) (dn : String)
    (s s' : σ) (edits : List PendingEdit) (hrt : g.rt.DecodesUtf8) (hndr : ndr.Keeps)
    (hedits : (edits.map PendingEdit.subject).Nodup)
    (h : applyEdits g dir ndr dn s edits = .ok (s', true)) :
    (∀ edit ∈ edits, edit.Holds g dir ndr dn edits s') ↔ RequestsKept g dir ndr dn edits s :=
  holds_applyEdits_iff hrt hndr (List.Subset.refl _) hedits h

/-! ## A user who is protected and given a permission -/

/-- A directory of one object, that accepts every request. -/
def objectDirectory : OwnDirectory (QHash String (List QByteArray)) where
  search s request := (s, [.page [(request.base, s)] false])
  createSdControl _ := .success
  createTreeDeleteControl _ := .success
  modifyReplace s _ attr new _ := (s.insert attr new, .success)
  delete s _ _ := (s, .failure)
  values s _ attr := s.value attr []
  spelling _ dn := dn
  values_search _ _ := rfl
  search_spelling _ _ _ entries morePages h entry hentry := by
    obtain ⟨rfl, -⟩ := PageAnswer.page.inj (List.mem_singleton.1 h)
    rw [List.mem_singleton.1 hentry]
  values_modifyReplace _ _ attr _ _ _ := by rw [QHash.value_insert, if_pos rfl]
  values_read _ _ _ entries morePages h entry hentry attr := by
    obtain ⟨rfl, -⟩ := PageAnswer.page.inj (List.mem_singleton.1 h)
    rw [List.mem_singleton.1 hentry]
    exact .inl rfl
  values_refused _ _ _ _ _ h := absurd rfl h
  values_other _ _ attr _ _ attr' hne := by rw [QHash.value_insert, if_neg hne]
  syncGpt s _ := pure (s, true)
  values_syncGpt s _ s' _ h := by
    rw [(Prod.mk.inj (Except.pure_eq_ok.1 h)).1]

theorem searchObject_objectDirectory (s : QHash String (List QByteArray)) (dn : String)
    (attributes : List String) (getSacl : Bool) :
    adSearchObject objectDirectory.toLdap s dn attributes getSacl = (s, ⟨dn, s⟩) := by
  simp [adSearchObject, adSearch, objectDirectory, searchResults, searchResultsFrom,
    QHash.value_insert]

theorem keeps_encodingNdr : encodingNdr.Keeps where
  pull_nil := rfl
  pull_push sd := ⟨sd, pull_encodingNdr sd, rfl, Iff.rfl⟩

section
variable {ndr : Ndr} (hpull : ∀ sd, ndr.pull (descriptorToBytes ndr sd) = some sd)
  (hnil : ndr.pull [] = none)
include hpull hnil

theorem replaceDescriptor_objectDirectory (s : QHash String (List QByteArray)) (dn : String)
    (sd : SecurityDescriptor) :
    adSecurityReplaceSecurityDescriptor objectDirectory.toLdap ndr s dn sd =
      (s.insert attributeSecurityDescriptor [descriptorToBytes ndr sd], true) := by
  have hbytes : descriptorToBytes ndr sd ≠ [] := fun h => by
    have hsd := hpull sd
    rw [h, hnil] at hsd
    exact nomatch hsd
  have hvalues : valueToList (descriptorToBytes ndr sd) = [descriptorToBytes ndr sd] :=
    if_neg (by rwa [List.isEmpty_iff])
  rw [adSecurityReplaceSecurityDescriptor, attributeReplaceValue, hvalues, attributeReplaceValues,
    searchObject_objectDirectory]
  simp [objectDirectory]

/-- A user is given a permission, and then protected. -/
theorem exists_applyEdits_objectDirectory :
    ∃ s', applyEdits .empty objectDirectory ndr "CN=user"
      [(attributeSecurityDescriptor, [descriptorToBytes ndr sampleDescriptor])]
      [.security (everyoneDescriptor secAdsReadProp) false, .protectDeletion true] =
        .ok (s', true) := by
  have hisEnabled : isDeleteProtectedForTrustee (everyoneDescriptor secAdsReadProp) sidWorld =
      .ok false := by decide
  have hprotect : ∃ sd, (protectAgainstDeletion zeroRuntime (everyoneDescriptor secAdsReadProp)
      true >>= securityDescriptorSortDacl zeroRuntime) = .ok sd ∧ True := by decide
  obtain ⟨sd, hsd, -⟩ := hprotect
  obtain ⟨sd₁, hsd₁, hsort⟩ := Except.bind_eq_ok.1 hsd
  have hread : AdObject.getSecurityDescriptor ndr ⟨"CN=user", QHash.insert
      [(attributeSecurityDescriptor, [descriptorToBytes ndr sampleDescriptor])]
      attributeSecurityDescriptor [descriptorToBytes ndr (everyoneDescriptor secAdsReadProp)]⟩ =
      some (everyoneDescriptor secAdsReadProp) := by
    rw [AdObject.getSecurityDescriptor, securityDescriptorMakeFromBytes, AdObject.getValue,
      AdObject.getValues, QHash.value_insert, if_pos rfl, List.headD_cons, hpull]
  have hrt : Globals.empty.rt = zeroRuntime := rfl
  refine ⟨QHash.insert (QHash.insert
    [(attributeSecurityDescriptor, [descriptorToBytes ndr sampleDescriptor])]
    attributeSecurityDescriptor [descriptorToBytes ndr (everyoneDescriptor secAdsReadProp)])
    attributeSecurityDescriptor [descriptorToBytes ndr sd], ?_⟩
  simp only [applyEdits, PendingEdit.apply, securityTabApply, searchObject_objectDirectory,
    replaceDescriptor_objectDirectory hpull hnil, adSecuritySetProtectedAgainstDeletion,
    adSecurityGetProtectedAgainstDeletion, hread, hisEnabled, deref_some, Except.ok_bind, hrt,
    hsd₁, hsort, List.isEmpty_cons, Bool.false_eq_true, if_false, Except.pure_eq_ok,
    Bool.and_true, pure_bind]

end

/-- The user who has been given a permission is protected in the same step. -/
theorem requestsHold_iff_after : ∃ s', applyEdits .empty objectDirectory encodingNdr "CN=user"
      [(attributeSecurityDescriptor, [descriptorToBytes encodingNdr sampleDescriptor])]
      [.security (everyoneDescriptor secAdsReadProp) false, .protectDeletion true] =
        .ok (s', true) ∧
    ∀ edit ∈ [.security (everyoneDescriptor secAdsReadProp) false, .protectDeletion true],
      PendingEdit.Holds .empty objectDirectory encodingNdr "CN=user"
        [.security (everyoneDescriptor secAdsReadProp) false, .protectDeletion true] s' edit := by
  obtain ⟨s', h⟩ := exists_applyEdits_objectDirectory pull_encodingNdr rfl
  refine ⟨s', h, (requestsHold_iff .empty objectDirectory encodingNdr "CN=user" _ s' _
    decodesUtf8_zeroRuntime keeps_encodingNdr (by decide) h).2 ?_⟩
  exact ⟨trivial, trivial, trivial⟩


/-- Bytes of two descriptors, and of all others. -/
def editedNdr : Ndr where
  pull bytes := if bytes = [0] then some sampleDescriptor
    else if bytes = [1] then some (everyoneDescriptor secAdsReadProp) else none
  push sd := if sd = sampleDescriptor then some [0]
    else if sd = everyoneDescriptor secAdsReadProp then some [1] else some [2]

/-- A user is protected against deletion and then given a permission, in the security tab: the
    descriptor that the tab has loaded before is written, and the user is not protected. -/
theorem not_requestsHold : ∃ s', applyEdits .empty objectDirectory editedNdr "CN=user"
      [(attributeSecurityDescriptor, [[0]])]
      [.protectDeletion true, .security (everyoneDescriptor secAdsReadProp) false] =
        .ok (s', true) ∧
    ¬(PendingEdit.protectDeletion true).Holds .empty objectDirectory editedNdr "CN=user"
      [.protectDeletion true, .security (everyoneDescriptor secAdsReadProp) false] s' := by
  refine ⟨[(attributeSecurityDescriptor, [[1]])], by decide, ?_⟩
  rintro ⟨sd, hstored, hprotected⟩
  obtain rfl : everyoneDescriptor secAdsReadProp = sd := Option.some.inj hstored
  exact absurd hprotected (by decide)

end Admc
