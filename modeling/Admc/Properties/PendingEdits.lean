import Admc.Interface.CheckBoxes
import Admc.Interface.Flags

/-!
# Edits of one object

The edits of the properties dialog that write attributes which other edits write too: the
security tab and the check boxes that stand for entries of the descriptor, the options of
an account, which are bits of one number but for two of them, and the type and scope of a
group, which are bits of another. The check boxes and the flags are read, changed and
written back; the security tab writes the descriptor that it has loaded and the user has
edited.

What an edit does when it succeeds is said once for each kind of edit: `apply_security`,
`apply_protectDeletion`, `apply_cantChangePassword`, `apply_passwordExpired`, `apply_flag`.
-/

namespace Admc

variable {σ : Type}

/-! ## The directory -/

/-- A directory that nobody else changes. A read of an object gives the values that are
    stored, or none; a write that is refused changes nothing, and one that is not, no other
    attribute of the object. -/
structure OwnDirectory (σ : Type) extends Directory σ where
  values_read : ∀ s request, request.scope = .object → ∀ entries morePages,
    .page entries morePages ∈ (search s request).2 → ∀ entry ∈ entries, ∀ attr,
      entry.2.value attr [] = values s request.base attr ∨ entry.2.value attr [] = []
  values_refused : ∀ s dn attr new sdControl,
    (modifyReplace s dn attr new sdControl).2 ≠ .success →
      values (modifyReplace s dn attr new sdControl).1 = values s
  values_other : ∀ s dn attr new sdControl attr', attr' ≠ attr →
    values (modifyReplace s dn attr new sdControl).1 dn attr' = values s dn attr'
  /-- What `AdInterface::gpo_sync_perms` does with the object of a policy: it writes to the
      share. -/
  syncGpt : σ → AdObject → Except Fault (σ × Bool)
  values_syncGpt : ∀ s object s' success, syncGpt s object = .ok (s', success) →
    values s' = values s

namespace OwnDirectory

variable (dir : OwnDirectory σ) {s : σ} {dn attr : String} {attributes : List String}
  {values : List QByteArray} {getSacl setDacl : Bool}

/-- What is read of an object. -/
theorem getValues_read :
    (adSearchObject dir.toLdap s dn attributes getSacl).2.getValues attr = dir.values s dn attr ∨
      (adSearchObject dir.toLdap s dn attributes getSacl).2.getValues attr = [] :=
  value_searchResults (P := fun object =>
      object.getValues attr = dir.values s dn attr ∨ object.getValues attr = [])
    (.inr rfl) (fun entries morePages hpage entry hentry =>
      dir.values_read s ⟨dn, .object, "", attributes, getSacl⟩ rfl entries morePages hpage entry
        hentry attr) dn

/-- A search changes nothing. -/
theorem values_searchObject :
    dir.values (adSearchObject dir.toLdap s dn attributes getSacl).1 = dir.values s :=
  dir.values_search s _

/-- Replacing values changes no other attribute. -/
theorem values_attributeReplaceValues_other {attr' : String} (hne : attr' ≠ attr) :
    dir.values (attributeReplaceValues dir.toLdap s dn attr values setDacl).1 dn attr' =
      dir.values s dn attr' := by
  have hsearched : dir.values (adSearchObject dir.toLdap s dn [attr] false).1 = dir.values s :=
    dir.values_searchObject
  rw [attributeReplaceValues]
  rw [← hsearched]
  dsimp only
  split_ifs
  · rfl
  · rfl
  · exact dir.values_other _ dn attr values setDacl attr' hne

/-- Replacing values with success stores them, unless there are none. -/
theorem values_attributeReplaceValues (hne : values ≠ [])
    (h : (attributeReplaceValues dir.toLdap s dn attr values setDacl).2 = true) :
    dir.values (attributeReplaceValues dir.toLdap s dn attr values setDacl).1 dn attr = values :=
  Directory.attributeReplaceValues_truth.2 (.inl hne) h

end OwnDirectory


/-! ## The edits -/

/-- An edit of the dialog, with the value that its widget requests. -/
inductive PendingEdit
  /-- `SecurityTabEdit`, with the descriptor of the tab. -/
  | security (sd : SecurityDescriptor) (isPolicy : Bool)
  /-- `ProtectDeletionEdit`. -/
  | protectDeletion (enabled : Bool)
  /-- `AccountOptionEdit`. -/
  | accountOption (option : AccountOption) (set : Bool)
  /-- `GroupTypeEdit`. -/
  | groupType (type : GroupType)
  /-- `GroupScopeEdit`. -/
  | groupScope (scope : GroupScope)

/-- What an edit is about. There is one widget for each of these. -/
inductive EditSubject
  | security
  | protectDeletion
  | accountOption (option : AccountOption)
  | groupType
  | groupScope
  deriving DecidableEq

/-- What the edit is about. -/
def PendingEdit.subject : PendingEdit → EditSubject
  | .security _ _ => .security
  | .protectDeletion _ => .protectDeletion
  | .accountOption option _ => .accountOption option
  | .groupType _ => .groupType
  | .groupScope _ => .groupScope

section
variable (g : Globals) (dir : OwnDirectory σ) (ndr : Ndr) (dn : String)

/-- `AdInterface::gpo_sync_perms`. -/
def gpoSyncPerms (s : σ) : Except Fault (σ × Bool) :=
  let (s, gpcObject) := adSearchObject dir.toLdap s dn [] true
  dir.syncGpt s gpcObject

/-- `SecurityTabEdit::apply`. -/
def securityTabApply (s : σ) (sd : SecurityDescriptor) (isPolicy : Bool) :
    Except Fault (σ × Bool) :=
  let (s, targetObject) := adSearchObject dir.toLdap s dn [attributeSecurityDescriptor] false
  -- without the object, for which the previous descriptor is kept, nothing is written
  if targetObject.attributesData.isEmpty then pure (s, false)
  else
    let (s, totalSuccess) := adSecurityReplaceSecurityDescriptor dir.toLdap ndr s dn sd
    if isPolicy && totalSuccess then gpoSyncPerms dir dn s else pure (s, totalSuccess)

/-- `AttributeEdit::apply` of one edit. -/
def PendingEdit.apply (s : σ) : PendingEdit → Except Fault (σ × Bool)
  | .security sd isPolicy => securityTabApply dir ndr dn s sd isPolicy
  | .protectDeletion enabled =>
    adSecuritySetProtectedAgainstDeletion g dir.toLdap ndr s dn enabled
  | .accountOption option set => userSetAccountOption g dir.toLdap ndr s dn option set
  | .groupType type => pure (groupSetType g dir.toLdap s dn type)
  | .groupScope scope => pure (groupSetScope g dir.toLdap s dn scope)

/-- `AttributeEdit::apply` of a list of edits, for an object. -/
def applyEdits (s : σ) : List PendingEdit → Except Fault (σ × Bool)
  | [] => pure (s, true)
  | edit :: edits => do
    let (s, applySuccess) ← edit.apply g dir ndr dn s
    let (s, success) ← applyEdits s edits
    return (s, applySuccess && success)

/-! ## What the directory holds -/

/-- The descriptor that is stored for the object. -/
def storedDescriptor (s : σ) : Option SecurityDescriptor :=
  ndr.pull ((dir.values s dn attributeSecurityDescriptor).headD [])

/-- The number that is stored for the object. -/
def storedNumber (s : σ) (attr : String) : BitVec 32 :=
  valuesNumber g.rt (dir.values s dn attr)

/-- The bits that a check box stands for. -/
def PendingEdit.StandsFor (edit : PendingEdit) (kind : AceKind) (bit : ℕ) : Prop :=
  match edit with
  | .protectDeletion _ => ProtectionBit kind bit
  | .accountOption .cantChangePassword _ => PasswordBit g.adconfig kind bit
  | _ => False

/-- The attribute that the edit writes. -/
def PendingEdit.attribute : PendingEdit → String
  | .security _ _ | .protectDeletion _ | .accountOption .cantChangePassword _ =>
    attributeSecurityDescriptor
  | .accountOption .passwordExpired _ => attributePwdLastSet
  | .accountOption _ _ => attributeUserAccountControl
  | .groupType _ | .groupScope _ => attributeGroupType

/-- The edit changes a part of a number. -/
def PendingEdit.IsFlag (edit : PendingEdit) : Prop :=
  edit.attribute = attributeUserAccountControl ∨ edit.attribute = attributeGroupType

instance (edit : PendingEdit) : Decidable edit.IsFlag := inferInstanceAs (Decidable (_ ∨ _))

/-- The part of the number is as the edit requests. -/
def PendingEdit.HoldsOf (number : BitVec 32) : PendingEdit → Prop
  | .accountOption option set => bitmaskIsSet number (accountOptionBit option) = set
  | .groupType type => bitmaskIsSet number groupTypeBitSecurity = decide (type = .security)
  | .groupScope scope => groupScopeOf number = scope
  | .security _ _ | .protectDeletion _ => True

/-- The number with the part that the edit requests. -/
def PendingEdit.change (number : BitVec 32) : PendingEdit → BitVec 32
  | .accountOption option set => bitmaskSet number (accountOptionBit option) set
  | .groupType type => bitmaskSet number groupTypeBitSecurity (type = .security)
  | .groupScope scope => withScope number scope
  | .security _ _ | .protectDeletion _ => number

/-- The directory holds what an edit requests. The security tab requests the permissions in
    its descriptor, but for those that check boxes among the pending edits stand for. -/
def PendingEdit.Holds (edits : List PendingEdit) (s : σ) : PendingEdit → Prop
  | .security sd _ => ∃ sd', storedDescriptor dir ndr dn s = some sd' ∧
    (sd'.dacl = none ↔ sd.dacl = none) ∧
      AgreeOff (fun kind bit => ∃ edit ∈ edits, edit.StandsFor g kind bit) sd.aces sd'.aces
  | .protectDeletion enabled => ∃ sd', storedDescriptor dir ndr dn s = some sd' ∧
    isDeleteProtectedForTrustee sd' sidWorld = .ok enabled
  | .accountOption .cantChangePassword set => ∃ sd', storedDescriptor dir ndr dn s = some sd' ∧
    isPasswordChangeDenied g sd' = .ok set
  | .accountOption .passwordExpired set =>
    (((dir.values s dn attributePwdLastSet).map g.rt.fromUtf8).headD "" == "0") = set
  | .accountOption option set =>
    (PendingEdit.accountOption option set).HoldsOf
      (storedNumber g dir dn s attributeUserAccountControl)
  | .groupType type =>
    (PendingEdit.groupType type).HoldsOf (storedNumber g dir dn s attributeGroupType)
  | .groupScope scope =>
    (PendingEdit.groupScope scope).HoldsOf (storedNumber g dir dn s attributeGroupType)

end


/-! ## What one edit does -/

theorem not_isFlag_of_descriptor {edit : PendingEdit}
    (h : edit.attribute = attributeSecurityDescriptor) : ¬edit.IsFlag := by
  rw [PendingEdit.IsFlag, h]
  decide

theorem not_isFlag_of_pwdLastSet {edit : PendingEdit} (h : edit.attribute = attributePwdLastSet) :
    ¬edit.IsFlag := by
  rw [PendingEdit.IsFlag, h]
  decide

/-- The options that are bits are in one number. -/
theorem attribute_of_isBit {option : AccountOption} {set : Bool} (hbit : option.IsBit) :
    (PendingEdit.accountOption option set).attribute = attributeUserAccountControl := by
  cases option with
  | cantChangePassword => exact absurd rfl hbit.1
  | passwordExpired => exact absurd rfl hbit.2
  | _ => rfl

/-- The same entries, in what an encoding keeps of them. -/
structure SecurityDescriptor.Alike (sd sd' : SecurityDescriptor) : Prop where
  entries : (sd'.aces.map fun ace => (ace.kind, ace.accessMask)) =
    sd.aces.map fun ace => (ace.kind, ace.accessMask)
  dacl : sd'.dacl = none ↔ sd.dacl = none

/-- The encoding keeps the entries of a descriptor, and no descriptor has no bytes. -/
structure Ndr.Keeps (ndr : Ndr) : Prop where
  pull_nil : ndr.pull [] = none
  pull_push : ∀ sd, ∃ sd', ndr.pull (descriptorToBytes ndr sd) = some sd' ∧ sd.Alike sd'

section
variable {sd sd' : SecurityDescriptor} {enabled : Bool} {g : Globals}

theorem SecurityDescriptor.Alike.agreeOff (h : sd.Alike sd') (C : AceKind → ℕ → Prop) :
    AgreeOff C sd.aces sd'.aces := fun _ _ _ => bitSet_congr h.entries

/-- What the check box for the protection shows depends on the rights it is about. -/
theorem isDeleteProtected_congr (hdacl : sd'.dacl = none ↔ sd.dacl = none)
    (h : ∀ mask ∈ protectDeletionMaskList,
      Denied sd'.aces sidWorld (.ofMask mask) ↔ Denied sd.aces sidWorld (.ofMask mask)) :
    isDeleteProtectedForTrustee sd' sidWorld = .ok enabled ↔
      isDeleteProtectedForTrustee sd sidWorld = .ok enabled := by
  rw [isDeleteProtected_eq_ok_iff, isDeleteProtected_eq_ok_iff, Ne, Ne, hdacl, forall₂_congr h]

/-- So does what the check box for "cannot change password" shows. -/
theorem isPasswordChangeDenied_congr (hdacl : sd'.dacl = none ↔ sd.dacl = none)
    (h : ∀ trustee, Denied sd'.aces trustee (changePassRight g.adconfig) ↔
      Denied sd.aces trustee (changePassRight g.adconfig)) :
    isPasswordChangeDenied g sd' = .ok enabled ↔ isPasswordChangeDenied g sd = .ok enabled := by
  simp only [isPasswordChangeDenied_eq_ok_iff, ne_eq, hdacl, h]

theorem SecurityDescriptor.Alike.isDeleteProtected_iff (h : sd.Alike sd') :
    isDeleteProtectedForTrustee sd' sidWorld = .ok enabled ↔
      isDeleteProtectedForTrustee sd sidWorld = .ok enabled :=
  isDeleteProtected_congr h.dacl fun _ _ =>
    (h.agreeOff fun _ _ => False).denied_iff fun _ _ _ => id

theorem SecurityDescriptor.Alike.isPasswordChangeDenied_iff (h : sd.Alike sd') :
    isPasswordChangeDenied g sd' = .ok enabled ↔ isPasswordChangeDenied g sd = .ok enabled :=
  isPasswordChangeDenied_congr h.dacl fun _ =>
    (h.agreeOff fun _ _ => False).denied_iff fun _ _ _ => id

end

section
variable {g : Globals} {dir : OwnDirectory σ} {ndr : Ndr} {dn : String} {s s' : σ}

/-- At most one attribute of the object is changed. -/
def ChangesOnly (dir : OwnDirectory σ) (dn attr : String) (s s' : σ) : Prop :=
  ∀ attr' ≠ attr, dir.values s' dn attr' = dir.values s dn attr'

/-- Writing a descriptor stores it, and changes no other attribute. -/
theorem replaceDescriptor_stores (hndr : ndr.Keeps) {sd : SecurityDescriptor}
    (h : adSecurityReplaceSecurityDescriptor dir.toLdap ndr s dn sd = (s', true)) :
    ChangesOnly dir dn attributeSecurityDescriptor s s' ∧
      ∃ sd', storedDescriptor dir ndr dn s' = some sd' ∧ sd.Alike sd' := by
  obtain ⟨sd', hpull, halike⟩ := hndr.pull_push sd
  have hbytes : descriptorToBytes ndr sd ≠ [] := fun hnil => by
    rw [hnil, hndr.pull_nil] at hpull
    exact nomatch hpull
  have hvalues : valueToList (descriptorToBytes ndr sd) = [descriptorToBytes ndr sd] :=
    if_neg (by rwa [List.isEmpty_iff])
  rw [adSecurityReplaceSecurityDescriptor, attributeReplaceValue, hvalues] at h
  obtain rfl := congrArg Prod.fst h
  refine ⟨fun attr hattr => dir.values_attributeReplaceValues_other hattr, sd', ?_, halike⟩
  rw [storedDescriptor, dir.values_attributeReplaceValues (List.cons_ne_nil _ _)
    (congrArg Prod.snd h)]
  exact hpull

/-- A descriptor that is read is the one that is stored. -/
theorem getSecurityDescriptor_read (hndr : ndr.Keeps) {attributes : List String}
    {sd : SecurityDescriptor}
    (h : (adSearchObject dir.toLdap s dn attributes false).2.getSecurityDescriptor ndr = some sd) :
    storedDescriptor dir ndr dn s = some sd := by
  rw [AdObject.getSecurityDescriptor, securityDescriptorMakeFromBytes, AdObject.getValue] at h
  have hread := @OwnDirectory.getValues_read _ dir s dn attributeSecurityDescriptor attributes false
  rcases hread with hread | hread
  · rwa [hread] at h
  · rw [hread, List.headD_nil, hndr.pull_nil] at h
    exact nomatch h

/-- What the security tab does. -/
theorem apply_security (hndr : ndr.Keeps) {sd : SecurityDescriptor} {isPolicy : Bool}
    (h : (PendingEdit.security sd isPolicy).apply g dir ndr dn s = .ok (s', true)) :
    ChangesOnly dir dn attributeSecurityDescriptor s s' ∧
      ∃ sd', storedDescriptor dir ndr dn s' = some sd' ∧ sd.Alike sd' := by
  rw [PendingEdit.apply, securityTabApply] at h
  generalize hread : adSearchObject dir.toLdap s dn [attributeSecurityDescriptor] false = read at h
  have hsearched : dir.values read.1 = dir.values s := hread ▸ dir.values_searchObject
  dsimp only at h
  split_ifs at h with hempty hpolicy
  · exact nomatch (Prod.mk.inj (Except.pure_eq_ok.1 h)).2
  · obtain ⟨-, hsuccess⟩ := Bool.and_eq_true_iff.1 hpolicy
    rw [gpoSyncPerms] at h
    have hsync := (dir.values_syncGpt _ _ _ _ h).trans dir.values_searchObject
    obtain ⟨hother, sd', hstored, halike⟩ := replaceDescriptor_stores hndr (Prod.ext rfl hsuccess)
    refine ⟨fun attr hattr => ?_, sd', ?_, halike⟩
    · rw [hsync, hother attr hattr, hsearched]
    · rwa [storedDescriptor, hsync]
  · obtain ⟨hother, hstored⟩ := replaceDescriptor_stores hndr (Except.pure_eq_ok.1 h)
    exact ⟨fun attr hattr => (hother attr hattr).trans (by rw [hsearched]), hstored⟩

/-- What the check box for the protection does. -/
theorem apply_protectDeletion (hndr : ndr.Keeps) {enabled : Bool}
    (h : (PendingEdit.protectDeletion enabled).apply g dir ndr dn s = .ok (s', true)) :
    ChangesOnly dir dn attributeSecurityDescriptor s s' ∧
      ∃ sd sd', storedDescriptor dir ndr dn s = some sd ∧
        storedDescriptor dir ndr dn s' = some sd' ∧ (sd'.dacl = none ↔ sd.dacl = none) ∧
        AgreeOff ProtectionBit sd.aces sd'.aces ∧
        isDeleteProtectedForTrustee sd' sidWorld = .ok enabled := by
  rw [PendingEdit.apply, adSecuritySetProtectedAgainstDeletion] at h
  have hsearched : dir.values (adSearchObject dir.toLdap s dn [] false).1 = dir.values s :=
    dir.values_searchObject
  cases hsd : (adSearchObject dir.toLdap s dn [] false).2.getSecurityDescriptor ndr with
  | none =>
    simp only [adSecurityGetProtectedAgainstDeletion, hsd] at h
    exact nomatch h
  | some sd =>
    have hstored := getSecurityDescriptor_read hndr hsd
    simp only [adSecurityGetProtectedAgainstDeletion, hsd, deref_some, Except.ok_bind,
      Except.bind_eq_ok] at h
    obtain ⟨isEnabled, hisEnabled, h⟩ := h
    have hd := (isDeleteProtected_eq_ok_iff.1 hisEnabled).1
    split_ifs at h with heq
    · -- there is nothing to change
      obtain ⟨rfl, -⟩ := Prod.mk.inj (Except.pure_eq_ok.1 h)
      refine ⟨fun attr _ => congrFun (congrFun hsearched dn) attr, sd, sd, hstored, ?_, Iff.rfl,
        agreeOff_refl _ _, heq ▸ hisEnabled⟩
      rwa [storedDescriptor, hsearched]
    · simp only [Except.bind_eq_ok] at h
      obtain ⟨sd₁, h₁, sd₂, h₂, h⟩ := h
      have hedit : setProtectedEdit g.rt sd enabled = .ok (some sd₂) := by
        simp only [setProtectedEdit, hisEnabled, Except.ok_bind, if_neg heq, h₁, h₂]
        rfl
      obtain ⟨hagree, -, hprotected⟩ := setProtectedEdit_spec hedit
      obtain ⟨hother, sd', hstored', halike⟩ :=
        replaceDescriptor_stores hndr (Except.pure_eq_ok.1 h)
      have hd' : sd'.dacl ≠ none := mt halike.dacl.1 (dacl_sortDacl_ne_none h₂)
      refine ⟨fun attr hattr => ?_, sd, sd', hstored, hstored', iff_of_false hd' hd,
        hagree.trans (halike.agreeOff _), halike.isDeleteProtected_iff.2 hprotected⟩
      rw [hother attr hattr, hsearched]

/-- What the check box for "cannot change password" does. -/
theorem apply_cantChangePassword (hndr : ndr.Keeps) {set : Bool}
    (h : (PendingEdit.accountOption .cantChangePassword set).apply g dir ndr dn s =
      .ok (s', true)) :
    ChangesOnly dir dn attributeSecurityDescriptor s s' ∧
      ∃ sd sd', storedDescriptor dir ndr dn s = some sd ∧
        storedDescriptor dir ndr dn s' = some sd' ∧ (sd'.dacl = none ↔ sd.dacl = none) ∧
        AgreeOff (PasswordBit g.adconfig) sd.aces sd'.aces ∧
        (isPasswordChangeDenied g sd' = .ok set ↔
          (set = false → ¬PasswordDeniedOtherwise g.adconfig sd.aces)) := by
  rw [PendingEdit.apply, userSetAccountOption] at h
  split_ifs at h with hdn
  · exact nomatch (Prod.mk.inj (Except.pure_eq_ok.1 h)).2
  rw [adSecuritySetUserCantChangePass] at h
  have hsearched : dir.values
      (adSearchObject dir.toLdap s dn [attributeSecurityDescriptor] false).1 = dir.values s :=
    dir.values_searchObject
  cases hsd : (adSearchObject dir.toLdap s dn [attributeSecurityDescriptor]
      false).2.getSecurityDescriptor ndr with
  | none =>
    simp only [hsd] at h
    exact nomatch h
  | some sd =>
    have hstored := getSecurityDescriptor_read hndr hsd
    simp only [hsd, deref_some, Except.ok_bind, Except.bind_eq_ok] at h
    obtain ⟨sd₁, h₁, sd₂, h₂, h⟩ := h
    obtain ⟨hagree, hd, hd₂, hdenied⟩ := setUserCantChangePass_spec h₁ h₂
    obtain ⟨hother, sd', hstored', halike⟩ := replaceDescriptor_stores hndr (Except.pure_eq_ok.1 h)
    refine ⟨fun attr hattr => ?_, sd, sd', hstored, hstored',
      iff_of_false (mt halike.dacl.1 hd₂) hd, hagree.trans (halike.agreeOff _),
      halike.isPasswordChangeDenied_iff.trans hdenied⟩
    rw [hother attr hattr, hsearched]

theorem changesOnly_searchObject {attr : String} {attributes : List String} :
    ChangesOnly dir dn attr s (adSearchObject dir.toLdap s dn attributes false).1 :=
  fun _ _ => by rw [dir.values_searchObject]

theorem ChangesOnly.trans {attr : String} {s₁ s₂ : σ} (h : ChangesOnly dir dn attr s s₁)
    (h' : ChangesOnly dir dn attr s₁ s₂) : ChangesOnly dir dn attr s s₂ :=
  fun attr' hattr => (h' attr' hattr).trans (h attr' hattr)

theorem changesOnly_replaceInt {attr : String} {value : BitVec 32} :
    ChangesOnly dir dn attr s (attributeReplaceInt dir.toLdap s dn attr value).1 :=
  fun _ hattr => dir.values_attributeReplaceValues_other hattr

/-- Writing a text stores it. -/
theorem values_replaceString {rt : Runtime} (hrt : rt.DecodesUtf8) {attr text : String}
    (hne : text ≠ "") (h : (attributeReplaceString dir.toLdap s dn attr text).2 = true) :
    dir.values (attributeReplaceString dir.toLdap s dn attr text).1 dn attr = [toUtf8 text] := by
  have hvalues : valueToList (toUtf8 text) = [toUtf8 text] :=
    if_neg (by rw [List.isEmpty_iff]; exact toUtf8_ne_nil hrt hne)
  rw [attributeReplaceString, attributeReplaceValue, hvalues] at h ⊢
  exact dir.values_attributeReplaceValues (List.cons_ne_nil _ _) h

/-- Writing a number stores it. -/
theorem storedNumber_replaceInt (hrt : g.rt.DecodesUtf8) {attr : String} {value : BitVec 32}
    (h : (attributeReplaceInt dir.toLdap s dn attr value).2 = true) :
    storedNumber g dir dn (attributeReplaceInt dir.toLdap s dn attr value).1 attr = value := by
  rw [attributeReplaceInt, attributeReplaceString, attributeReplaceValue,
    valueToList_number hrt] at h ⊢
  have hne : numberValues value ≠ [] := List.cons_ne_nil _ _
  rw [storedNumber, dir.values_attributeReplaceValues hne h, valuesNumber_numberValues hrt]

/-- Setting a scope changes the type of the group only, whether it succeeds or not. -/
theorem changesOnly_groupSetScope {scope : GroupScope} :
    ChangesOnly dir dn attributeGroupType s (groupSetScope g dir.toLdap s dn scope).1 := by
  have hbody : ∀ call : σ → GroupScope → σ × Bool,
      (∀ s scope, ChangesOnly dir dn attributeGroupType s (call s scope).1) → ∀ s scope,
        ChangesOnly dir dn attributeGroupType s
          (groupSetScopeBody g dir.toLdap call s dn scope).1 := by
    intro call hcall s scope
    rw [groupSetScopeBody]
    refine ChangesOnly.trans ?_ (changesOnly_searchObject.trans changesOnly_replaceInt)
    split_ifs
    · exact changesOnly_searchObject.trans (hcall _ _)
    · exact changesOnly_searchObject
  exact hbody _ (hbody _ fun _ _ _ _ => rfl) s scope

variable (g dir dn)

/-- Where the number is read that a scope is set in: the group may have become universal. -/
def scopeSearched (s : σ) (scope : GroupScope) : σ :=
  let (s, isNeeded) := isUniversalScopeNeeded g dir.toLdap s dn scope
  if isNeeded then (groupSetScope g dir.toLdap s dn .universal).1 else s

/-- The number that an edit reads, to change a part of it. -/
def PendingEdit.numberRead (s : σ) : PendingEdit → BitVec 32
  | .accountOption _ _ =>
    (adSearchObject dir.toLdap s dn [attributeUserAccountControl] false).2.getInt g.rt
      attributeUserAccountControl
  | .groupType _ =>
    (adSearchObject dir.toLdap s dn [attributeGroupType] false).2.getInt g.rt attributeGroupType
  | .groupScope scope =>
    (adSearchObject dir.toLdap (scopeSearched g dir dn s scope) dn [attributeGroupType]
      false).2.getInt g.rt attributeGroupType
  | .security _ _ | .protectDeletion _ => 0

variable {g dir dn}

/-- What an edit of a flag does: the number that is read is written with another part. -/
theorem apply_flag (hrt : g.rt.DecodesUtf8) {edit : PendingEdit} (hflag : edit.IsFlag)
    (h : edit.apply g dir ndr dn s = .ok (s', true)) :
    ChangesOnly dir dn edit.attribute s s' ∧
      storedNumber g dir dn s' edit.attribute = edit.change (edit.numberRead g dir dn s) := by
  cases edit with
  | security sd isPolicy => exact absurd hflag (not_isFlag_of_descriptor rfl)
  | protectDeletion enabled => exact absurd hflag (not_isFlag_of_descriptor rfl)
  | accountOption option set =>
    have hbit : option.IsBit := by
      constructor
      · rintro rfl
        exact not_isFlag_of_descriptor rfl hflag
      · rintro rfl
        exact not_isFlag_of_pwdLastSet rfl hflag
    have hattr : (PendingEdit.accountOption option set).attribute = attributeUserAccountControl :=
      attribute_of_isBit hbit
    rw [PendingEdit.apply] at h
    rw [hattr]
    by_cases hdn : dn = ""
    · unfold userSetAccountOption at h
      rw [if_pos hdn] at h
      exact nomatch (Prod.mk.inj (Except.pure_eq_ok.1 h)).2
    · rw [userSetAccountOption_of_isBit g dir.toLdap ndr s hdn hbit] at h
      have h := Except.ok.inj h
      obtain rfl := congrArg Prod.fst h
      exact ⟨changesOnly_searchObject.trans changesOnly_replaceInt,
        storedNumber_replaceInt hrt (congrArg Prod.snd h)⟩
  | groupType type =>
    rw [PendingEdit.apply, groupSetType_eq] at h
    have h := Except.pure_eq_ok.1 h
    obtain rfl := congrArg Prod.fst h
    exact ⟨changesOnly_searchObject.trans changesOnly_replaceInt,
      storedNumber_replaceInt hrt (congrArg Prod.snd h)⟩
  | groupScope scope =>
    rw [PendingEdit.apply] at h
    have h := Except.pure_eq_ok.1 h
    obtain rfl := congrArg Prod.fst h
    refine ⟨changesOnly_groupSetScope, ?_⟩
    rw [groupSetScope_eq, groupSetScopeBody] at h ⊢
    exact storedNumber_replaceInt hrt (congrArg Prod.snd h)

/-- What the option "password expired" does. -/
theorem apply_passwordExpired (hrt : g.rt.DecodesUtf8) {set : Bool}
    (h : (PendingEdit.accountOption .passwordExpired set).apply g dir ndr dn s = .ok (s', true)) :
    ChangesOnly dir dn attributePwdLastSet s s' ∧
      (((dir.values s' dn attributePwdLastSet).map g.rt.fromUtf8).headD "" == "0") = set := by
  rw [PendingEdit.apply, userSetAccountOption] at h
  by_cases hdn : dn = ""
  · rw [if_pos hdn] at h
    exact nomatch (Prod.mk.inj (Except.pure_eq_ok.1 h)).2
  · rw [if_neg hdn] at h
    have h := Except.pure_eq_ok.1 h
    obtain rfl := congrArg Prod.fst h
    have hsuccess := congrArg Prod.snd h
    refine ⟨fun attr hattr => dir.values_attributeReplaceValues_other hattr, ?_⟩
    cases set with
    | true =>
      rw [values_replaceString hrt (by decide) hsuccess, List.map_singleton, hrt]
      rfl
    | false =>
      rw [values_replaceString hrt (by decide) hsuccess, List.map_singleton, hrt]
      rfl

end

end Admc
