import Admc.Interface.Stores
import Admc.Properties.PasswordSettings

/-!
# Creating objects

The dialogs that create an object share a helper, which adds the object, applies the
edits of the dialog to it, and deletes it again if one of them fails: whatever the server
answers, there is an object with all edits applied, or none (`accept_atomic`).

Two dialogs do more than one helper does. That of a site creates two children with helpers
of their own, and keeps the site when these fail; that of a password settings object has no
helper, and does not look whether the object could be protected against deletion.
`allOrNothing_iff`: these are the only cases in which creating is not all or nothing.
-/

namespace Admc

/-! ## Names -/

/-- `NAME_BAD_CHARS`. -/
def nameBadChars : List Char := ",\\#+<>;\"=".toList

/-- `is_object_name_valid`. -/
def isObjectNameValid (name : QString) : Bool :=
  let someBadChars := name.any (nameBadChars.contains ·)
  let startsWithSpace := name.head? = some ' '
  let endsWithSpace := name.getLast? = some ' '
  let startsWithQuestionMark := name.head? = some '?'
  !(someBadChars || startsWithSpace || endsWithSpace || startsWithQuestionMark)

/-- `object_class_to_suffix`. -/
def objectClassToSuffix (objectClass : String) : QString :=
  if objectClass = "organizationalUnit" then "OU".toList else "CN".toList

/-- `dn_from_name_and_parent`. -/
def dnFromNameAndParent (name parent : QString) (objectClass : String) : String :=
  String.ofList (objectClassToSuffix objectClass ++ '=' :: escapeNameForDn name ++ ',' :: parent)

/-! ## The server -/

/-- A server that objects are created on: connecting to it, searches and changes of attributes
    leave the entries alone, and adding an object with success adds an entry that was not there,
    with nothing below it. -/
structure CreateServer (ε σ : Type) extends Ldap σ where
  tree : EntryTree ε
  present : σ → Set ε
  serves : tree.Serves toLdap present
  present_modifyReplace : ∀ s dn attr values sdControl,
    present (modifyReplace s dn attr values sdControl).1 = present s
  connect : σ → σ × Bool
  present_connect : ∀ s, present (connect s).1 = present s
  add : σ → String → QHash String (List String) → σ × Bool
  add_success : ∀ s dn attrsMap, (add s dn attrsMap).2 = true → ∃ e, tree.resolve dn = some e ∧
    e ∉ present s ∧ (∀ x ∈ present s, ¬tree.below x e) ∧
    present (add s dn attrsMap).1 = insert e (present s)
  add_failure : ∀ s dn attrsMap, (add s dn attrsMap).2 = false →
    present (add s dn attrsMap).1 = present s

variable {ε σ : Type}

/-- There is an object with a DN. -/
def CreateServer.Exists (server : CreateServer ε σ) (s : σ) (dn : String) : Prop :=
  ∃ e ∈ server.present s, server.tree.resolve dn = some e

/-- Replacing the values of an attribute leaves the entries alone. -/
theorem CreateServer.present_attributeReplaceValues (server : CreateServer ε σ) {s : σ}
    {dn attr : String} {values : List QByteArray} {setDacl : Bool} :
    server.present (attributeReplaceValues server.toLdap s dn attr values setDacl).1 =
      server.present s := by
  have hsearch : server.present (adSearchObject server.toLdap s dn [attr] false).1 =
      server.present s := server.serves.present_search _ _
  rw [attributeReplaceValues]
  dsimp only
  split_ifs
  exacts [hsearch, hsearch, (server.present_modifyReplace _ _ _ _ _).trans hsearch]

/-! ## Edits -/

/-- `AttributeEdit`: verifying and applying an edit add no objects and delete none. -/
structure CreateServer.AttributeEdit (server : CreateServer ε σ) where
  verify : σ → String → σ × Bool
  apply : σ → String → Except Fault (σ × Bool)
  present_verify : ∀ s dn, server.present (verify s dn).1 = server.present s
  present_apply : ∀ s dn s' success, apply s dn = .ok (s', success) →
    server.present s' = server.present s

namespace CreateServer.AttributeEdit

variable {server : CreateServer ε σ}

/-- `AttributeEdit::verify`, for a list: up to the first one that fails. -/
def verifyList (dn : String) : List server.AttributeEdit → σ → σ × Bool
  | [], s => (s, true)
  | edit :: editList, s =>
    let (s, verifySuccess) := edit.verify s dn
    if !verifySuccess then (s, false) else verifyList dn editList s

/-- `AttributeEdit::apply`, for a list: all of them, with the result of each. -/
def applyList (dn : String) : List server.AttributeEdit → σ → Except Fault (σ × List Bool)
  | [], s => return (s, [])
  | edit :: editList, s => do
    let (s, applySuccess) ← edit.apply s dn
    let (s, results) ← applyList dn editList s
    return (s, applySuccess :: results)

theorem present_verifyList {dn : String} {editList : List server.AttributeEdit} {s : σ} :
    server.present (verifyList dn editList s).1 = server.present s := by
  induction editList generalizing s with
  | nil => rfl
  | cons edit editList ih =>
    rw [verifyList]
    dsimp only
    split_ifs
    exacts [edit.present_verify s dn, ih.trans (edit.present_verify s dn)]

theorem present_applyList {dn : String} {editList : List server.AttributeEdit} {s s' : σ}
    {results : List Bool} (h : applyList dn editList s = .ok (s', results)) :
    server.present s' = server.present s ∧ results.length = editList.length := by
  induction editList generalizing s results with
  | nil =>
    rcases Prod.mk.inj (Except.ok.inj h) with ⟨rfl, rfl⟩
    exact ⟨rfl, rfl⟩
  | cons edit editList ih =>
    rcases Except.bind_eq_ok.1 h with ⟨⟨t, success⟩, hedit, h⟩
    rcases Except.bind_eq_ok.1 h with ⟨⟨t', results'⟩, hlist, h⟩
    rcases Prod.mk.inj (Except.ok.inj h) with ⟨rfl, rfl⟩
    have ih := ih hlist
    exact ⟨ih.1.trans (edit.present_apply _ _ _ _ hedit), congrArg (· + 1) ih.2⟩

end CreateServer.AttributeEdit

/-! ## The helper -/

/-- What comes of accepting a dialog: whether it is accepted, the results of its edits, and
    whether a clean-up has succeeded, if there was one. -/
structure Acceptance (σ : Type) where
  state : σ
  accepted : Bool
  editResults : List Bool
  cleanedUp : Bool
  deriving DecidableEq

/-- A dialog that stays open, without a clean-up. -/
def Acceptance.failed (s : σ) : Acceptance σ := ⟨s, false, [], true⟩

/-- `CreateObjectHelper`. -/
structure CreateObjectHelper (server : CreateServer ε σ) where
  nameEdit : QString
  editList : List server.AttributeEdit
  objectClass : String
  parentDn : QString

/-- `UAC_PASSWD_NOTREQD`. -/
def uacPasswdNotreqd : BitVec 32 := 0x00000020

/-- `UAC_WORKSTATION_TRUST_ACCOUNT`. -/
def uacWorkstationTrustAccount : BitVec 32 := 0x00001000

namespace CreateObjectHelper

variable {server : CreateServer ε σ} (g : Globals) (ndr : Ndr) (helper : CreateObjectHelper server)

/-- `CreateObjectHelper::get_created_name`. -/
def getCreatedName : QString := trimmed helper.nameEdit

/-- `CreateObjectHelper::get_created_dn`. -/
def getCreatedDn : String :=
  dnFromNameAndParent helper.getCreatedName helper.parentDn helper.objectClass

/-- The attributes that the object is added with. -/
def attrMap : QHash String (List String) :=
  if helper.objectClass = "volume" then
    [("objectClass", [helper.objectClass]), ("uNCName", ["placeholder"])]
  else [("objectClass", [helper.objectClass])]

/-- Setting the flags of a new account. -/
def setUac (s : σ) : σ × Bool :=
  let dn := helper.getCreatedDn
  if helper.objectClass = "user" ∨ helper.objectClass = "inetOrgPerson" then
    let (s, object) := adSearchObject server.toLdap s dn [attributeUserAccountControl] false
    let uac := object.getInt g.rt attributeUserAccountControl
    let updatedUac := bitmaskSet uac uacPasswdNotreqd false
    attributeReplaceInt server.toLdap s dn attributeUserAccountControl updatedUac
  else if helper.objectClass = "computer" then
    attributeReplaceInt server.toLdap s dn attributeUserAccountControl
      (uacPasswdNotreqd ||| uacWorkstationTrustAccount)
  else (s, true)

/-- `CreateObjectHelper::accept`. -/
def accept (s : σ) : Except Fault (Acceptance σ) := do
  let (s, connected) := server.connect s
  if !connected then return .failed s
  let dn := helper.getCreatedDn
  if !isObjectNameValid helper.getCreatedName then return .failed s
  let (s, verifySuccess) := CreateServer.AttributeEdit.verifyList dn helper.editList s
  if !verifySuccess then return .failed s
  let (s, addSuccess) := server.add s dn helper.attrMap
  if !addSuccess then return .failed s
  let (s, uacSuccess) := helper.setUac g s
  let (s, editResults) ← CreateServer.AttributeEdit.applyList dn helper.editList s
  if uacSuccess && editResults.all (· = true) then return ⟨s, true, editResults, true⟩
  let (s, deleted) ← objectDelete g server.toLdap ndr s dn
  return ⟨s, false, editResults, deleted⟩

variable {g ndr helper} {s : σ}

theorem present_setUac : server.present (helper.setUac g s).1 = server.present s := by
  have hsearch : ∀ dn attrs, server.present (adSearchObject server.toLdap s dn attrs false).1 =
      server.present s := fun dn attrs => server.serves.present_search _ _
  rw [setUac]
  dsimp only
  split_ifs
  exacts [server.present_attributeReplaceValues.trans (hsearch _ _),
    server.present_attributeReplaceValues, rfl]

/-- Deleting an entry that has been added without anything below it undoes this. -/
theorem insert_diff_subtree {tree : EntryTree ε} {entries : Set ε} {e : ε} (hnew : e ∉ entries)
    (hleaf : ∀ x ∈ entries, ¬tree.below x e) : insert e entries \ tree.subtree e = entries := by
  rw [Set.insert_sdiff_of_mem _ EntryTree.mem_subtree_self]
  refine sdiff_eq_left.2 (Set.disjoint_left.2 fun x hx hsub => ?_)
  rcases hsub with rfl | hbelow
  exacts [hnew hx, hleaf x hx hbelow]

/-- Whatever the server answers, a helper adds its object and applies all its edits, or there
    is nothing new when its clean-up has succeeded. -/
theorem accept_atomic {outcome : Acceptance σ} (h : helper.accept g ndr s = .ok outcome) :
    (outcome.accepted = true → (∃ e, server.tree.resolve helper.getCreatedDn = some e ∧
        e ∉ server.present s ∧ server.present outcome.state = insert e (server.present s)) ∧
      outcome.editResults = helper.editList.map fun _ => true) ∧
    (outcome.accepted = false → outcome.cleanedUp = true →
      server.present outcome.state = server.present s) := by
  have hconnect := server.present_connect s
  have hverify : server.present (CreateServer.AttributeEdit.verifyList helper.getCreatedDn
      helper.editList (server.connect s).1).1 = server.present s :=
    CreateServer.AttributeEdit.present_verifyList.trans hconnect
  rw [accept] at h
  dsimp only at h
  split_ifs at h with hconnected hname hverified hadd
  · obtain rfl := Except.ok.inj h
    exact ⟨nofun, fun _ _ => hconnect⟩
  · obtain rfl := Except.ok.inj h
    exact ⟨nofun, fun _ _ => hconnect⟩
  · obtain rfl := Except.ok.inj h
    exact ⟨nofun, fun _ _ => hverify⟩
  · obtain rfl := Except.ok.inj h
    have hadd := server.add_failure _ _ _ (by simpa using hadd)
    exact ⟨nofun, fun _ _ => hadd.trans hverify⟩
  · -- the object has been added: the edits are applied, and it stays or is deleted again
    rcases server.add_success _ _ _ (by simpa using hadd) with ⟨e, he, hnew, hleaf, hpresent⟩
    rw [hverify] at hnew hleaf hpresent
    rcases Except.bind_eq_ok.1 h with ⟨⟨s', results⟩, happly, h⟩
    rcases CreateServer.AttributeEdit.present_applyList happly with ⟨hpresent', hlength⟩
    rw [present_setUac, hpresent] at hpresent'
    dsimp only at h
    split_ifs at h with hsuccess
    · obtain rfl := Except.ok.inj h
      refine ⟨fun _ => ⟨⟨e, he, hnew, hpresent'⟩, ?_⟩, nofun⟩
      rw [Bool.and_eq_true, List.all_eq_true] at hsuccess
      rw [List.map_const', List.eq_replicate_iff]
      exact ⟨hlength, fun result hresult => by simpa using hsuccess.2 result hresult⟩
    · rcases Except.bind_eq_ok.1 h with ⟨⟨s'', deleted⟩, hdelete, h⟩
      obtain rfl := Except.ok.inj h
      refine ⟨nofun, fun _ hdeleted => ?_⟩
      obtain rfl : deleted = true := hdeleted
      have hgone := objectDelete_present server.serves he hdelete
      rw [hpresent'] at hgone
      exact hgone.trans (insert_diff_subtree hnew hleaf)

end CreateObjectHelper

/-! ## The dialogs -/

/-- The dialogs that create an object. -/
inductive CreateDialog (server : CreateServer ε σ)
  /-- The dialogs for users, groups, computers, units, contacts and shared folders. -/
  | object (helper : CreateObjectHelper server)
  /-- The dialog for sites, with the edit for the links of the site. -/
  | site (nameEdit : QString) (siteLinks : server.AttributeEdit) (sitesContainerDn : QString)
  /-- The dialog for password settings objects. -/
  | pso (widget : PSOEditWidget) (deletionEdit : server.AttributeEdit) (parentDn : QString)

namespace CreateDialog

variable {server : CreateServer ε σ} (g : Globals) (ndr : Ndr) (globalPasswordSettings : AdObject)

/-- `create_site_helper`. -/
def createSiteHelper (nameEdit : QString) (siteLinks : server.AttributeEdit)
    (sitesContainerDn : QString) : CreateObjectHelper server :=
  ⟨nameEdit, [siteLinks], "site", sitesContainerDn⟩

/-- `create_ntds_settings_helper`. -/
def createNtdsSettingsHelper (server : CreateServer ε σ) (siteDn : String) :
    CreateObjectHelper server :=
  ⟨"NTDS Site Settings".toList, [], "nTDSSiteSettings", siteDn.toList⟩

/-- `create_servers_container_helper`. -/
def createServersContainerHelper (server : CreateServer ε σ) (siteDn : String) :
    CreateObjectHelper server :=
  ⟨"Servers".toList, [], "serversContainer", siteDn.toList⟩

/-- `CreateSiteDialog::accept`. -/
def siteAccept (nameEdit : QString) (siteLinks : server.AttributeEdit)
    (sitesContainerDn : QString) (s : σ) : Except Fault (Acceptance σ) := do
  let helper := createSiteHelper nameEdit siteLinks sitesContainerDn
  let site ← helper.accept g ndr s
  if !site.accepted then return site
  let ntds ← (createNtdsSettingsHelper server helper.getCreatedDn).accept g ndr site.state
  if !ntds.accepted then return { ntds with editResults := site.editResults }
  let servers ← (createServersContainerHelper server helper.getCreatedDn).accept g ndr ntds.state
  return { servers with editResults := site.editResults }

/-- `CreatePSODialog::get_created_dn`. -/
def psoCreatedDn (widget : PSOEditWidget) (parentDn : QString) : String :=
  dnFromNameAndParent (trimmed widget.name.toList) parentDn "msDS-PasswordSettings"

/-- The attributes that a password settings object is added with. -/
def psoSettings (widget : PSOEditWidget) : QHash String (List String) :=
  let settings : QHash String (List String) :=
    widget.psoSettingsValues.map fun entry => (entry.1, entry.2.map g.rt.fromUtf8)
  let settings := settings.insert "objectClass" ["msDS-PasswordSettings"]
  if (settings.value attributePsoAppliesTo []).isEmpty then settings.remove attributePsoAppliesTo
  else settings

/-- `CreatePSODialog::accept`: what comes of the edit is not looked at. -/
def psoAccept (widget : PSOEditWidget) (deletionEdit : server.AttributeEdit)
    (parentDn : QString) (s : σ) : Except Fault (Acceptance σ) := do
  if !isObjectNameValid (trimmed widget.name.toList) then return .failed s
  let (s, connected) := server.connect s
  if !connected then return .failed s
  if widget.settingsAreDefault g.rt globalPasswordSettings then return .failed s
  let dn := psoCreatedDn widget parentDn
  let (s, addSuccess) := server.add s dn (psoSettings g widget)
  if !addSuccess then return .failed s
  let (s, applySuccess) ← deletionEdit.apply s dn
  return ⟨s, true, [applySuccess], true⟩

/-- Accepting a dialog. -/
def accept (s : σ) : CreateDialog server → Except Fault (Acceptance σ)
  | .object helper => helper.accept g ndr s
  | .site nameEdit siteLinks sitesContainerDn =>
    siteAccept g ndr nameEdit siteLinks sitesContainerDn s
  | .pso widget deletionEdit parentDn =>
    psoAccept g globalPasswordSettings widget deletionEdit parentDn s

/-- The objects that a dialog creates. -/
def createdDns : CreateDialog server → List String
  | .object helper => [helper.getCreatedDn]
  | .site nameEdit siteLinks sitesContainerDn =>
    let siteDn := (createSiteHelper nameEdit siteLinks sitesContainerDn).getCreatedDn
    [siteDn, (createNtdsSettingsHelper server siteDn).getCreatedDn,
      (createServersContainerHelper server siteDn).getCreatedDn]
  | .pso widget _ parentDn => [psoCreatedDn widget parentDn]

/-- The edits of a dialog. -/
def edits : CreateDialog server → List server.AttributeEdit
  | .object helper => helper.editList
  | .site _ siteLinks _ => [siteLinks]
  | .pso _ deletionEdit _ => [deletionEdit]

/-- Creating is all or nothing, if the deletions of the clean-up succeed: either all objects of
    the dialog are there and all its edits have been applied with success, or the directory has
    the same objects as before. -/
def AllOrNothing (dialog : CreateDialog server) (s : σ) : Prop :=
  ∀ outcome, dialog.accept g ndr globalPasswordSettings s = .ok outcome →
    outcome.cleanedUp = true →
    (outcome.accepted = true → (∀ dn ∈ dialog.createdDns, server.Exists outcome.state dn) ∧
      outcome.editResults = dialog.edits.map fun _ => true) ∧
    (outcome.accepted = false → server.present outcome.state = server.present s)

/-- The server is reached and adds the object of a helper. -/
def Adds (helper : CreateObjectHelper server) (s : σ) : Prop :=
  (server.connect s).2 = true ∧
    (server.add (server.connect s).1 helper.getCreatedDn helper.attrMap).2 = true

/-- The state of the server when it has been asked for the object of a helper. -/
def addedState (helper : CreateObjectHelper server) (s : σ) : σ :=
  (server.add (server.connect s).1 helper.getCreatedDn helper.attrMap).1

/-- Once a site has been created, its children are; and once a password settings object has
    been added, it is protected as asked for. -/
def CompletesCreation (s : σ) : CreateDialog server → Prop
  | .object _ => True
  | .site nameEdit siteLinks sitesContainerDn =>
    let helper := createSiteHelper nameEdit siteLinks sitesContainerDn
    let ntds := createNtdsSettingsHelper server helper.getCreatedDn
    ∀ site, helper.accept g ndr s = .ok site → site.accepted = true →
      Adds ntds site.state ∧
        Adds (createServersContainerHelper server helper.getCreatedDn) (addedState ntds site.state)
  | .pso widget deletionEdit parentDn =>
    isObjectNameValid (trimmed widget.name.toList) = true → (server.connect s).2 = true →
    widget.settingsAreDefault g.rt globalPasswordSettings = false →
    ∀ s', server.add (server.connect s).1 (psoCreatedDn widget parentDn) (psoSettings g widget) =
        (s', true) →
      ∀ s'', deletionEdit.apply s' (psoCreatedDn widget parentDn) ≠ .ok (s'', false)

section
variable {g ndr globalPasswordSettings} {s : σ}

/-- A helper without edits, for an object that is no account: it is accepted if the server adds
    the object. -/
theorem accept_of_adds {helper : CreateObjectHelper server} (hedits : helper.editList = [])
    (hname : isObjectNameValid helper.getCreatedName = true)
    (hclass : helper.objectClass ∉ ["user", "inetOrgPerson", "computer"])
    (hadds : Adds helper s) :
    helper.accept g ndr s = .ok ⟨addedState helper s, true, [], true⟩ := by
  simp only [List.mem_cons, List.not_mem_nil, or_false, not_or] at hclass
  simp only [CreateObjectHelper.accept, hadds.1, hname, hedits,
    CreateServer.AttributeEdit.verifyList, hadds.2, CreateObjectHelper.setUac, hclass,
    CreateServer.AttributeEdit.applyList, Bool.not_true, Bool.false_eq_true, if_false, or_self]
  rfl

/-- Otherwise nothing is created. -/
theorem accept_of_not_adds {helper : CreateObjectHelper server} (hedits : helper.editList = [])
    (hname : isObjectNameValid helper.getCreatedName = true) (hadds : ¬Adds helper s) :
    ∃ s', helper.accept g ndr s = .ok (.failed s') ∧ server.present s' = server.present s := by
  have hconnect := server.present_connect s
  by_cases hconnected : (server.connect s).2 = true
  · have hadd : (server.add (server.connect s).1 helper.getCreatedDn helper.attrMap).2 = false :=
      Bool.not_eq_true _ ▸ fun hadd => hadds ⟨hconnected, hadd⟩
    refine ⟨_, ?_, (server.add_failure _ _ _ hadd).trans hconnect⟩
    simp only [CreateObjectHelper.accept, hconnected, hname, hedits,
      CreateServer.AttributeEdit.verifyList, hadd, Bool.not_true, Bool.not_false,
      Bool.false_eq_true, if_false, if_true]
    rfl
  · refine ⟨_, ?_, hconnect⟩
    simp only [CreateObjectHelper.accept, hconnected, Bool.not_false, if_true]
    rfl

/-- The dialogs with one helper. -/
theorem allOrNothing_object (helper : CreateObjectHelper server) :
    AllOrNothing g ndr globalPasswordSettings (.object helper) s := by
  intro outcome h hclean
  rcases helper.accept_atomic h with ⟨haccepted, hfailed⟩
  refine ⟨fun haccept => ?_, fun hfail => hfailed hfail hclean⟩
  rcases haccepted haccept with ⟨⟨e, he, -, hpresent⟩, hresults⟩
  refine ⟨List.forall_mem_singleton.2 ⟨e, ?_, he⟩, hresults⟩
  rw [hpresent]
  exact Set.mem_insert _ _

/-- Adding an object keeps those that are there. -/
theorem present_addedState {helper : CreateObjectHelper server} (hadds : Adds helper s) :
    server.Exists (addedState helper s) helper.getCreatedDn ∧
      server.present s ⊆ server.present (addedState helper s) := by
  rcases server.add_success _ _ _ hadds.2 with ⟨e, he, -, -, hpresent⟩
  rw [server.present_connect] at hpresent
  have hpresent : server.present (addedState helper s) = insert e (server.present s) := hpresent
  rw [hpresent]
  exact ⟨⟨e, hpresent ▸ Set.mem_insert _ _, he⟩, Set.subset_insert _ _⟩

/-- A dialog that stays open with a new object left behind. -/
theorem not_allOrNothing {dialog : CreateDialog server} {outcome : Acceptance σ}
    (h : dialog.accept g ndr globalPasswordSettings s = .ok outcome)
    (hfailed : outcome.accepted = false) (hclean : outcome.cleanedUp = true) {e : ε}
    (hnew : e ∉ server.present s) (hleft : e ∈ server.present outcome.state) :
    ¬AllOrNothing g ndr globalPasswordSettings dialog s := fun hall =>
  hnew ((hall outcome h hclean).2 hfailed ▸ hleft)

/-- The dialog for sites, once the site has been created. -/
theorem allOrNothing_site_of_accepted {nameEdit sitesContainerDn : QString}
    {siteLinks : server.AttributeEdit} {site : Acceptance σ}
    (hsite : (createSiteHelper nameEdit siteLinks sitesContainerDn).accept g ndr s = .ok site)
    (haccepted : site.accepted = true) :
    AllOrNothing g ndr globalPasswordSettings (.site nameEdit siteLinks sitesContainerDn) s ↔
      CompletesCreation g ndr globalPasswordSettings s
        (.site nameEdit siteLinks sitesContainerDn) := by
  let siteDn := (createSiteHelper nameEdit siteLinks sitesContainerDn).getCreatedDn
  let ntds := createNtdsSettingsHelper server siteDn
  let servers := createServersContainerHelper server siteDn
  rcases (CreateObjectHelper.accept_atomic hsite).1 haccepted with
    ⟨⟨e, he, hnew, hpresent⟩, hresults⟩
  have he' : e ∈ server.present site.state := hpresent ▸ Set.mem_insert _ _
  have hsiteAccept : accept g ndr globalPasswordSettings s
      (.site nameEdit siteLinks sitesContainerDn) = (do
        let ntds ← ntds.accept g ndr site.state
        if !ntds.accepted then return { ntds with editResults := site.editResults }
        let servers ← servers.accept g ndr ntds.state
        return { servers with editResults := site.editResults }) := by
    rw [accept, siteAccept, hsite, Except.ok_bind, if_neg (by simp [haccepted])]
  have hcompletes : CompletesCreation g ndr globalPasswordSettings s
      (.site nameEdit siteLinks sitesContainerDn) ↔
        Adds ntds site.state ∧ Adds servers (addedState ntds site.state) := by
    refine ⟨fun h => h site hsite haccepted, fun h site' hsite' _ => ?_⟩
    obtain rfl := Except.ok.inj (hsite.symm.trans hsite')
    exact h
  rw [hcompletes]
  have hntdsName : isObjectNameValid ntds.getCreatedName = true :=
    (by decide : isObjectNameValid (trimmed "NTDS Site Settings".toList) = true)
  have hserversName : isObjectNameValid servers.getCreatedName = true :=
    (by decide : isObjectNameValid (trimmed "Servers".toList) = true)
  have hclass : "nTDSSiteSettings" ∉ ["user", "inetOrgPerson", "computer"] ∧
      "serversContainer" ∉ ["user", "inetOrgPerson", "computer"] := by decide
  by_cases hntds : Adds ntds site.state
  · rcases present_addedState hntds with ⟨hexists, hkept⟩
    rw [accept_of_adds rfl hntdsName hclass.1 hntds, Except.ok_bind,
      if_neg (by simp)] at hsiteAccept
    by_cases hservers : Adds servers (addedState ntds site.state)
    · rcases present_addedState hservers with ⟨hexists', hkept'⟩
      rw [accept_of_adds rfl hserversName hclass.2 hservers] at hsiteAccept
      refine iff_of_true (fun outcome h _ => ⟨fun _ => ?_, ?_⟩) ⟨hntds, hservers⟩
      · obtain rfl := Except.ok.inj (hsiteAccept.symm.trans h)
        refine ⟨?_, hresults⟩
        rw [createdDns, List.forall_mem_cons, List.forall_mem_cons, List.forall_mem_singleton]
        refine ⟨?_, ?_, ?_⟩
        · exact ⟨e, hkept' (hkept he'), he⟩
        · exact hexists.imp fun x hx => ⟨hkept' hx.1, hx.2⟩
        · exact hexists'
      · obtain rfl := Except.ok.inj (hsiteAccept.symm.trans h)
        exact nofun
    · -- the container of the servers is missing, and the site stays
      rcases accept_of_not_adds rfl hserversName hservers with ⟨s', hrefused, hleft⟩
      rw [hrefused] at hsiteAccept
      exact iff_of_false (not_allOrNothing hsiteAccept rfl rfl hnew (hleft ▸ hkept he'))
        fun h => hservers h.2
  · rcases accept_of_not_adds rfl hntdsName hntds with ⟨s', hrefused, hleft⟩
    rw [hrefused] at hsiteAccept
    exact iff_of_false (not_allOrNothing hsiteAccept rfl rfl hnew (hleft ▸ he')) fun h => hntds h.1

/-- The dialog for sites. -/
theorem allOrNothing_site {nameEdit sitesContainerDn : QString}
    {siteLinks : server.AttributeEdit} :
    AllOrNothing g ndr globalPasswordSettings (.site nameEdit siteLinks sitesContainerDn) s ↔
      CompletesCreation g ndr globalPasswordSettings s
        (.site nameEdit siteLinks sitesContainerDn) := by
  cases hsite : (createSiteHelper nameEdit siteLinks sitesContainerDn).accept g ndr s with
  | error fault =>
    refine iff_of_true (fun outcome h => ?_) fun site h => ?_
    · rw [accept, siteAccept, hsite] at h
      exact absurd h nofun
    · exact absurd (hsite.symm.trans h) nofun
  | ok site =>
    by_cases haccepted : site.accepted = true
    · exact allOrNothing_site_of_accepted hsite haccepted
    · refine iff_of_true (fun outcome h hclean => ?_) fun site' h haccepted' => ?_
      · rw [accept, siteAccept, hsite, Except.ok_bind, if_pos (by simpa using haccepted)] at h
        obtain rfl := Except.ok.inj h
        exact ⟨fun h => absurd h haccepted, fun hfail =>
          (CreateObjectHelper.accept_atomic hsite).2 hfail hclean⟩
      · obtain rfl := Except.ok.inj (hsite.symm.trans h)
        exact absurd haccepted' haccepted

/-- The dialog for password settings objects. -/
theorem allOrNothing_pso {widget : PSOEditWidget} {deletionEdit : server.AttributeEdit}
    {parentDn : QString} :
    AllOrNothing g ndr globalPasswordSettings (.pso widget deletionEdit parentDn) s ↔
      CompletesCreation g ndr globalPasswordSettings s (.pso widget deletionEdit parentDn) := by
  have hconnect := server.present_connect s
  rw [AllOrNothing, CompletesCreation, accept, psoAccept]
  dsimp only
  split_ifs with hname hconnected hdefault hadd
  · refine iff_of_true ?_ fun h => absurd h (by simpa using hname)
    rintro _ ⟨⟩ -
    exact ⟨nofun, fun _ => rfl⟩
  · refine iff_of_true ?_ fun _ h => absurd h (by simpa using hconnected)
    rintro _ ⟨⟩ -
    exact ⟨nofun, fun _ => hconnect⟩
  · refine iff_of_true ?_ fun _ _ h => absurd (h.symm.trans hdefault) Bool.false_ne_true
    rintro _ ⟨⟩ -
    exact ⟨nofun, fun _ => hconnect⟩
  · refine iff_of_true ?_ fun _ _ _ s' h => by simp [h] at hadd
    rintro _ ⟨⟩ -
    exact ⟨nofun, fun _ => (server.add_failure _ _ _ (by simpa using hadd)).trans hconnect⟩
  · -- the object has been added, and the dialog is accepted whatever comes of the edit
    have hsuccess : (server.add (server.connect s).1 (psoCreatedDn widget parentDn)
        (psoSettings g widget)).2 = true := by simpa using hadd
    rcases server.add_success _ _ _ hsuccess with ⟨e, he, -, -, hpresent⟩
    cases happly : deletionEdit.apply (server.add (server.connect s).1
        (psoCreatedDn widget parentDn) (psoSettings g widget)).1
          (psoCreatedDn widget parentDn) with
    | error fault =>
      refine iff_of_true nofun fun _ _ _ s' h s'' h' => ?_
      rw [h] at happly
      exact absurd (happly.symm.trans h') nofun
    | ok applied =>
      rcases applied with ⟨s', success⟩
      cases success with
      | true =>
        refine iff_of_true ?_ fun _ _ _ t h s'' h' => ?_
        · rintro _ ⟨⟩ -
          refine ⟨fun _ => ⟨List.forall_mem_singleton.2 ⟨e, ?_, he⟩, rfl⟩, nofun⟩
          rw [deletionEdit.present_apply _ _ _ _ happly, hpresent]
          exact Set.mem_insert _ _
        · rw [h] at happly
          exact absurd (Prod.mk.inj (Except.ok.inj (happly.symm.trans h'))).2 nofun
      | false =>
        refine iff_of_false (fun h => ?_) fun h => ?_
        · exact absurd ((h _ rfl rfl).1 rfl).2 (by simp [edits])
        · exact h (by simpa using hname) (by simpa using hconnected) (by simpa using hdefault) _
            (Prod.ext rfl hsuccess) s' happly

end

/-- Creating an object is all or nothing, whatever the server answers, exactly when the server
    adds the children of a site that has been created, and protects a password settings object
    that has been added. -/
theorem allOrNothing_iff (server : CreateServer ε σ) (g : Globals) (ndr : Ndr)
    (globalPasswordSettings : AdObject) (dialog : CreateDialog server) (s : σ) :
    AllOrNothing g ndr globalPasswordSettings dialog s ↔
      CompletesCreation g ndr globalPasswordSettings s dialog := by
  cases dialog with
  | object helper => exact iff_of_true (allOrNothing_object helper) trivial
  | site nameEdit siteLinks sitesContainerDn => exact allOrNothing_site
  | pso widget deletionEdit parentDn => exact allOrNothing_pso

/-! ## A site without servers -/

/-- Entries that are their own names. -/
def namedTree : EntryTree String where
  name := id
  resolve := some
  below x y := isBelow x y = true
  resolve_name _ := rfl
  below_trans x y z hxy hyz := by
    rcases List.isSuffixOf_iff_suffix.1 hxy with ⟨rdns, hx⟩
    rcases List.isSuffixOf_iff_suffix.1 hyz with ⟨rdns', hy⟩
    refine List.isSuffixOf_iff_suffix.2 ⟨rdns ++ ',' :: rdns', ?_⟩
    rw [← hx, ← hy, List.append_assoc, List.cons_append]
  name_of_below x y h := by
    rcases List.isSuffixOf_iff_suffix.1 h with ⟨rdns, hx⟩
    exact ⟨rdns, hx.symm⟩

/-- A server that finds nothing, and refuses to add objects of one class. -/
def refusingServer (objectClass : String) : CreateServer String (List String) where
  search s _ := (s, [.failure])
  createSdControl _ := .success
  createTreeDeleteControl _ := .success
  modifyReplace s _ _ _ _ := (s, .success)
  delete s dn treeDelete :=
    if dn ∉ s then (s, .failure)
    else if !treeDelete && s.any (isBelow · dn) then (s, .notAllowedOnNonleaf)
    else (s.filter fun x => x ≠ dn ∧ isBelow x dn = false, .success)
  tree := namedTree
  present s := {x | x ∈ s}
  serves := {
    present_search := fun _ _ => rfl
    keys_search := fun _ _ _ => .inl rfl
    delete_success := fun s dn treeDelete h => by
      dsimp only at h ⊢
      split_ifs at h ⊢ with hdn hleaf
      refine ⟨dn, hdn, rfl, fun htree x hx hbelow => hleaf ?_, ?_⟩
      · rw [htree]
        exact List.any_eq_true.2 ⟨x, hx, hbelow⟩
      · ext x
        simp [EntryTree.subtree, namedTree, not_or]
    delete_failure := fun s dn treeDelete h => by
      have hsame : (if dn ∉ s then (s, LdapResult.failure)
          else if !treeDelete && s.any (isBelow · dn) then (s, .notAllowedOnNonleaf)
          else (s.filter fun x => x ≠ dn ∧ isBelow x dn = false, .success)).1 = s := by
        dsimp only at h
        split_ifs at h ⊢ <;> first | rfl | exact absurd rfl h
      rw [hsame]
      exact ⟨subset_rfl, fun x hx hnot => absurd hx hnot⟩ }
  present_modifyReplace _ _ _ _ _ := rfl
  connect s := (s, true)
  present_connect _ := rfl
  add s dn attrsMap :=
    if dn ∈ s ∨ s.any (isBelow · dn) = true ∨ attrsMap = [("objectClass", [objectClass])] then
      (s, false)
    else (dn :: s, true)
  add_success s dn attrsMap h := by
    split_ifs at h ⊢ with hrefuses
    rw [not_or, not_or] at hrefuses
    refine ⟨dn, rfl, hrefuses.1, fun x hx hbelow => ?_, ?_⟩
    · exact hrefuses.2.1 (List.any_eq_true.2 ⟨x, hx, hbelow⟩)
    · ext x
      simp
  add_failure s dn attrsMap h := by
    split_ifs at h ⊢
    rfl

/-- An edit that always succeeds. -/
def silentEdit (server : CreateServer ε σ) : server.AttributeEdit where
  verify s _ := (s, true)
  apply s _ := .ok (s, true)
  present_verify _ _ := rfl
  present_apply _ _ _ _ h := by rw [(Prod.mk.inj (Except.ok.inj h)).1]

/-- The container of the servers of the site "Paris" is refused: the dialog stays open, and the
    site and its settings are there. -/
theorem not_allOrNothing_site :
    let server := refusingServer "serversContainer"
    let sitesContainerDn := "CN=Sites,CN=Configuration,DC=domain,DC=alt".toList
    ¬AllOrNothing .empty sampleNdr .empty
      (.site "Paris".toList (silentEdit server) sitesContainerDn) [] := by
  have hrun : accept .empty sampleNdr .empty [] (.site "Paris".toList
      (silentEdit (refusingServer "serversContainer"))
        "CN=Sites,CN=Configuration,DC=domain,DC=alt".toList) =
      .ok ⟨["CN=NTDS Site Settings,CN=Paris,CN=Sites,CN=Configuration,DC=domain,DC=alt",
        "CN=Paris,CN=Sites,CN=Configuration,DC=domain,DC=alt"], false, [true], true⟩ := by
    decide +kernel
  refine not_allOrNothing hrun rfl rfl List.not_mem_nil List.mem_cons_self

end CreateDialog

end Admc
