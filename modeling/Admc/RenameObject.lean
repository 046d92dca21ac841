import Admc.Interface.ObjectName
import Admc.Interface.SearchCondition
import Admc.Lib.Run

/-!
# Renaming objects

The dialogs that rename an object share a helper. When OK is pressed, it renames its target, and
then applies the edits of the dialog to the DN that the target should have got. If this fails, the
dialog stays open for another attempt, but the helper still has the old DN of its target.

* `GoesThrough`: an attempt does not end after the object has got another DN;
* `followed_of_run`: if all attempts are such, each request addresses the DN that the object has at
  that moment, and a change of the DN reaches the console.
-/

namespace Admc

/-! ## Servers -/

/-- A server with an object, and the texts that name it at a time. Only renames change its DN: it
    gets the new RDN, in front of the DN of its parent, or stays if it is not renamed. -/
structure RenameServer (σ : Type) extends Ldap σ where
  connect : σ → σ × Bool
  rename : σ → RenameRequest → σ × LdapResult
  names : σ → QString → Prop
  names_connect : ∀ s, names (connect s).1 = names s
  names_search : ∀ s request, names (search s request).1 = names s
  names_modifyReplace : ∀ s dn attr values sdControl,
    names (modifyReplace s dn attr values sdControl).1 = names s
  names_rename_failure : ∀ s request, (rename s request).2 ≠ .success →
    names (rename s request).1 = names s
  names_rename_success : ∀ s first rest newRdn, names s (Dn.text (first :: rest)) →
    (rename s ⟨Dn.text (first :: rest), newRdn, none⟩).2 = .success →
      names (rename s ⟨Dn.text (first :: rest), newRdn, none⟩).1
        (newRdn ++ commaTail (parentText rest))

/-! ## Edits -/

/-- The edits of the dialogs. -/
inductive RenameEdit
  /-- `StringEdit`. -/
  | string (attr : String) (text : QString)
  /-- `UpnEdit`. -/
  | upn (upnPrefix upnSuffix : QString)
  /-- `SamNameEdit`. -/
  | samName (text : QString)

/-- `UPN_BAD_CHARS`. -/
def upnBadChars : QString := "#,+\"\\<>".toList

/-- `SAM_NAME_BAD_CHARS`. -/
def samNameBadChars : QString := "@\"[]:;|=+*?<>/\\,".toList

/-- `string_contains_bad_chars`. -/
def stringContainsBadChars (string badChars : QString) : Bool :=
  string.any (badChars.contains ·)

/-- `sam_name_edit_verify`. -/
def samNameEditVerify (text : QString) : Bool :=
  let newValue := trimmed text
  let containsBadChars := stringContainsBadChars newValue samNameBadChars
  let endsWithDot : Bool := newValue.getLast? = some '.'
  !containsBadChars && !endsWithDot

namespace RenameEdit

variable {σ : Type} (server : RenameServer σ) (domainDn : String)

/-- The attribute of an edit, with its new value. -/
def newValue : RenameEdit → String × QString
  | string attr text => (attr, trimmed text)
  | upn upnPrefix upnSuffix => ("userPrincipalName", trimmed upnPrefix ++ '@' :: upnSuffix)
  | samName text => ("sAMAccountName", trimmed text)

/-- The filter for other objects with a user principal name. -/
def sameUpnFilter (newValue dn : QString) : QString :=
  filterAnd [filterCondition .equals "userPrincipalName".toList newValue,
    filterCondition .notEquals "distinguishedName".toList dn]

/-- `AttributeEdit::verify`. -/
def verify (dn : QString) (s : σ) (edit : RenameEdit) : σ × Bool :=
  match edit with
  | string _ _ => (s, true)
  | upn upnPrefix _ =>
    if stringContainsBadChars upnPrefix upnBadChars || upnPrefix.head? = some ' ' ||
        upnPrefix.getLast? = some ' ' then
      (s, false)
    else
      let filter := sameUpnFilter edit.newValue.2 dn
      let (s, results) := adSearch server.toLdap s domainDn .all (String.ofList filter) [] false
      (s, results.isEmpty)
  | samName text => (s, samNameEditVerify text)

/-- `AttributeEdit::apply`. -/
def apply (dn : QString) (s : σ) (edit : RenameEdit) : σ × Bool :=
  attributeReplaceString server.toLdap s (String.ofList dn) edit.newValue.1
    (String.ofList edit.newValue.2)

/-- `AttributeEdit::verify`, for a list: up to the first one that fails. -/
def verifyList (dn : QString) : List RenameEdit → σ → σ × Bool
  | [], s => (s, true)
  | edit :: editList, s =>
    let (s, verifySuccess) := edit.verify server domainDn dn s
    if !verifySuccess then (s, false) else verifyList dn editList s

/-- What comes of sending requests: those that address an object are recorded, each with the state
    that it is sent in. -/
structure Sent (σ : Type) where
  state : σ
  success : Bool
  addressed : List (σ × QString)

/-- `AttributeEdit::apply`, for a list: all of them. -/
def applyList (dn : QString) : List RenameEdit → σ → Sent σ
  | [], s => ⟨s, true, []⟩
  | edit :: editList, s =>
    let (s', applySuccess) := edit.apply server dn s
    let sent := applyList dn editList s'
    ⟨sent.state, applySuccess && sent.success, (s, dn) :: sent.addressed⟩

end RenameEdit

/-- The fields of a dialog, without the name. -/
inductive RenameFields
  | user (firstName lastName fullName upnPrefix upnSuffix samName : QString)
  | group (samName : QString)
  | other

/-- `edit_list`. -/
def RenameFields.editList : RenameFields → List RenameEdit
  | user firstName lastName fullName upnPrefix upnSuffix samName =>
    [.string "givenName" firstName, .string "sn" lastName, .string "displayName" fullName,
      .upn upnPrefix upnSuffix, .samName samName]
  | group samName => [.samName samName]
  | other => []

/-- What is in a dialog when OK is pressed. -/
structure OkPress where
  nameEdit : QString
  fields : RenameFields

/-! ## The helper -/

/-- What comes of pressing OK. -/
structure RenameAttempt (σ : Type) where
  sent : RenameEdit.Sent σ
  message : Option QString

namespace RenameObjectHelper

/-- `RenameObjectHelper::get_new_name`. -/
def getNewName (ok : OkPress) : QString := trimmed ok.nameEdit

/-- `RenameObjectHelper::get_new_dn`. -/
def getNewDn (target : QString) (ok : OkPress) : QString := dnRename target (getNewName ok)

/-- `RenameObjectHelper::success_msg`. -/
def successMsg (oldName : QString) : QString :=
  "Object ".toList ++ (oldName ++ " was renamed.".toList)

/-- `RenameObjectHelper::fail_msg`. -/
def failMsg (oldName : QString) : QString := "Failed to rename object ".toList ++ oldName

variable {σ : Type} (server : RenameServer σ) (domainDn : String) (target : QString)

/-- The part of `RenameObjectHelper::accept` before the rename, and whether there is one. -/
def verify (ok : OkPress) (s : σ) : σ × Bool :=
  let (s, connected) := server.connect s
  if !connected then (s, false)
  else if !isObjectNameValid (getNewName ok) then (s, false)
  else RenameEdit.verifyList server domainDn target ok.fields.editList s

/-- The rest of it: the rename, and then the edits. -/
def renameAndApply (ok : OkPress) (s : σ) : RenameEdit.Sent σ :=
  let newDn := getNewDn target ok
  let (s', renameSuccess) := objectRename server.rename s target (getNewName ok)
  if renameSuccess then
    let sent := RenameEdit.applyList server newDn ok.fields.editList s'
    { sent with addressed := (s, target) :: sent.addressed }
  else ⟨s', false, [(s, target)]⟩

/-- `RenameObjectHelper::accept`. -/
def accept (ok : OkPress) (s : σ) : RenameAttempt σ :=
  let oldName := dnGetName target
  let (s, verified) := verify server domainDn target ok s
  if !verified then ⟨⟨s, false, []⟩, none⟩
  else
    let sent := renameAndApply server target ok s
    ⟨sent, if sent.success then successMsg oldName else failMsg oldName⟩

end RenameObjectHelper

/-! ## The dialog -/

/-- A dialog: what the server has come to, the requests so far that address an object, and, once it
    is accepted, the new DN that the console is updated with. -/
structure RenameDialog (σ : Type) where
  state : σ
  addressed : List (σ × QString)
  newDn : Option QString

namespace RenameDialog

variable {σ : Type} (server : RenameServer σ) (domainDn : String) (target : QString)

/-- The `accept` of a dialog, which is closed when its helper has accepted. -/
def pressOk (dialog : RenameDialog σ) (ok : OkPress) : RenameDialog σ :=
  let attempt := RenameObjectHelper.accept server domainDn target ok dialog.state
  ⟨attempt.sent.state, dialog.addressed ++ attempt.sent.addressed,
    if attempt.sent.success then some (RenameObjectHelper.getNewDn target ok) else none⟩

/-- A dialog that has been opened for its target. -/
def Opened (dialog : RenameDialog σ) : Prop :=
  server.names dialog.state target ∧ dialog.addressed = [] ∧ dialog.newDn = none

/-- Each request has addressed the DN that the object had then; and if the object has another DN
    than that of the target, the console gets it. -/
structure Followed (dialog : RenameDialog σ) : Prop where
  addressed : ∀ request ∈ dialog.addressed, server.names request.1 request.2
  received : server.names dialog.state target ∨
    ∃ newDn, dialog.newDn = some newDn ∧ server.names dialog.state newDn

/-- If the server renames the object, then there is no comma in its old RDN; and no edit is refused
    unless the object has kept its DN. -/
def GoesThrough (first : Dn.Rdn) (rest : List Dn.Rdn) (dialog : RenameDialog σ) (ok : OkPress) :
    Prop :=
  let target := Dn.text (first :: rest)
  ∀ s s', RenameObjectHelper.verify server domainDn target ok dialog.state = (s, true) →
    objectRename server.rename s target (RenameObjectHelper.getNewName ok) = (s', true) →
      ',' ∉ first.text ∧ (server.names s' target ∨
        (RenameEdit.applyList server (RenameObjectHelper.getNewDn target ok) ok.fields.editList
          s').success = true)

/-- A dialog that is reached by pressing OK while it is open, if each attempt goes through. -/
def Reached (first : Dn.Rdn) (rest : List Dn.Rdn) : RenameDialog σ → Prop :=
  Run (Opened server (Dn.text (first :: rest)))
    (fun dialog ok => dialog.newDn = none ∧ GoesThrough server domainDn first rest dialog ok)
    (pressOk server domainDn (Dn.text (first :: rest)))

end RenameDialog

/-! ## One attempt -/

section
variable {σ : Type} {server : RenameServer σ} {domainDn : String} {target dn : QString} {s s' : σ}
  {ok : OkPress}

theorem names_adSearch {base filter : String} {scope : SearchScope} {attributes : List String}
    {getSacl : Bool} :
    server.names (adSearch server.toLdap s base scope filter attributes getSacl).1 =
      server.names s :=
  server.names_search s _

theorem RenameEdit.names_verify {edit : RenameEdit} :
    server.names (edit.verify server domainDn dn s).1 = server.names s := by
  cases edit with
  | string attr text => rfl
  | samName text => rfl
  | upn upnPrefix upnSuffix =>
    rw [RenameEdit.verify]
    split_ifs
    · rfl
    · exact names_adSearch

theorem RenameEdit.names_verifyList {editList : List RenameEdit} :
    server.names (RenameEdit.verifyList server domainDn dn editList s).1 = server.names s := by
  induction editList generalizing s with
  | nil => rfl
  | cons edit editList ih =>
    rw [RenameEdit.verifyList]
    dsimp only
    split_ifs
    · exact RenameEdit.names_verify
    · exact ih.trans RenameEdit.names_verify

/-- Nothing before the rename changes the DN of the object. -/
theorem RenameObjectHelper.names_verify :
    server.names (RenameObjectHelper.verify server domainDn target ok s).1 = server.names s := by
  rw [RenameObjectHelper.verify]
  dsimp only
  split_ifs
  · exact server.names_connect s
  · exact server.names_connect s
  · exact RenameEdit.names_verifyList.trans (server.names_connect s)

theorem RenameEdit.names_apply {edit : RenameEdit} :
    server.names (edit.apply server dn s).1 = server.names s := by
  rw [RenameEdit.apply, attributeReplaceString, attributeReplaceValue, attributeReplaceValues]
  dsimp only
  split_ifs
  · exact names_adSearch
  · exact names_adSearch
  · exact (server.names_modifyReplace _ _ _ _ _).trans names_adSearch

/-- The edits change no DN, and address the one that they get. -/
theorem RenameEdit.applyList_spec {editList : List RenameEdit} :
    server.names (RenameEdit.applyList server dn editList s).state = server.names s ∧
      ∀ request ∈ (RenameEdit.applyList server dn editList s).addressed,
        request.2 = dn ∧ server.names request.1 = server.names s := by
  induction editList generalizing s with
  | nil => exact ⟨rfl, nofun⟩
  | cons edit editList ih =>
    rw [RenameEdit.applyList]
    obtain ⟨hstate, haddressed⟩ := @ih (edit.apply server dn s).1
    refine ⟨hstate.trans RenameEdit.names_apply, List.forall_mem_cons.2 ⟨⟨rfl, rfl⟩, ?_⟩⟩
    intro request hrequest
    obtain ⟨hdn, hnames⟩ := haddressed request hrequest
    exact ⟨hdn, hnames.trans RenameEdit.names_apply⟩

/-- The new name is one that is accepted. -/
theorem RenameObjectHelper.isObjectNameValid_of_verify
    (h : RenameObjectHelper.verify server domainDn target ok s = (s', true)) :
    isObjectNameValid (RenameObjectHelper.getNewName ok) = true := by
  rw [RenameObjectHelper.verify] at h
  dsimp only at h
  split_ifs at h with hconnected hname
  · exact absurd (Prod.mk.inj h).2 Bool.false_ne_true
  · exact absurd (Prod.mk.inj h).2 Bool.false_ne_true
  · simpa using hname

/-- The object gets the DN that the helper expects, if there is no comma in its old RDN. -/
theorem RenameObjectHelper.names_getNewDn {first : Dn.Rdn} {rest : List Dn.Rdn}
    (hcomma : ',' ∉ first.text) (hname : ',' ∉ RenameObjectHelper.getNewName ok)
    (hnames : server.names s (Dn.text (first :: rest)))
    (h : objectRename server.rename s (Dn.text (first :: rest))
      (RenameObjectHelper.getNewName ok) = (s', true)) :
    server.names s' (RenameObjectHelper.getNewDn (Dn.text (first :: rest)) ok) := by
  obtain ⟨cut⟩ := exists_cut first
  have hdn : RenameObjectHelper.getNewDn (Dn.text (first :: rest)) ok =
      newRdn first (RenameObjectHelper.getNewName ok) ++ commaTail (parentText rest) := by
    rw [RenameObjectHelper.getNewDn, cut.dn_eq, cut.tail_eq_none.2 hcomma,
      dnRename_commaTail cut.equals_not_mem cut.comma_not_mem, cut.newRdn_eq]
    rfl
  rw [(objectRename_eq_iff first rest _).2 hname, sendRename] at h
  obtain ⟨rfl, hsuccess⟩ := Prod.mk.inj h
  rw [hdn]
  exact server.names_rename_success s first rest _ hnames (of_decide_eq_true hsuccess)

/-- A rename that fails changes no DN. -/
theorem names_objectRename_failure {newName : QString}
    (h : objectRename server.rename s target newName = (s', false)) :
    server.names s' = server.names s := by
  rw [objectRename, sendRename] at h
  obtain ⟨rfl, hfailure⟩ := Prod.mk.inj h
  exact server.names_rename_failure s _ (of_decide_eq_false hfailure)

/-- The rename addresses the object, and so do the edits after it. The object is left with its DN,
    or the edits have succeeded. -/
theorem RenameObjectHelper.renameAndApply_spec {first : Dn.Rdn} {rest : List Dn.Rdn}
    (hname : ',' ∉ RenameObjectHelper.getNewName ok)
    (hnames : server.names s (Dn.text (first :: rest)))
    (hthrough : ∀ s', objectRename server.rename s (Dn.text (first :: rest))
        (RenameObjectHelper.getNewName ok) = (s', true) →
      ',' ∉ first.text ∧ (server.names s' (Dn.text (first :: rest)) ∨
        (RenameEdit.applyList server (RenameObjectHelper.getNewDn (Dn.text (first :: rest)) ok)
          ok.fields.editList s').success = true)) :
    let sent := RenameObjectHelper.renameAndApply server (Dn.text (first :: rest)) ok s
    (∀ request ∈ sent.addressed, server.names request.1 request.2) ∧
      (server.names sent.state (Dn.text (first :: rest)) ∨
        sent.success = true ∧ server.names sent.state
          (RenameObjectHelper.getNewDn (Dn.text (first :: rest)) ok)) := by
  rw [RenameObjectHelper.renameAndApply]
  rcases hrename : objectRename server.rename s (Dn.text (first :: rest))
    (RenameObjectHelper.getNewName ok) with ⟨s', - | -⟩
  · refine ⟨List.forall_mem_singleton.2 hnames, .inl ?_⟩
    rwa [← names_objectRename_failure hrename] at hnames
  · obtain ⟨hcomma, hdone⟩ := hthrough s' hrename
    have hnewDn := names_getNewDn hcomma hname hnames hrename
    obtain ⟨hstate, haddressed⟩ := @RenameEdit.applyList_spec _ server
      (RenameObjectHelper.getNewDn (Dn.text (first :: rest)) ok) s' ok.fields.editList
    refine ⟨List.forall_mem_cons.2 ⟨hnames, fun request hrequest => ?_⟩, ?_⟩
    · obtain ⟨hdn, hsame⟩ := haddressed request hrequest
      rwa [hdn, hsame]
    · rw [← hstate] at hdone hnewDn
      exact hdone.imp_right fun hsuccess => ⟨hsuccess, hnewDn⟩

/-- So does an attempt that goes through. -/
theorem RenameObjectHelper.accept_spec {first : Dn.Rdn} {rest : List Dn.Rdn}
    {dialog : RenameDialog σ} (hnames : server.names dialog.state (Dn.text (first :: rest)))
    (hthrough : RenameDialog.GoesThrough server domainDn first rest dialog ok) :
    let attempt := RenameObjectHelper.accept server domainDn (Dn.text (first :: rest)) ok
      dialog.state
    (∀ request ∈ attempt.sent.addressed, server.names request.1 request.2) ∧
      (server.names attempt.sent.state (Dn.text (first :: rest)) ∨
        attempt.sent.success = true ∧ server.names attempt.sent.state
          (RenameObjectHelper.getNewDn (Dn.text (first :: rest)) ok)) := by
  have hsame := @names_verify _ server domainDn (Dn.text (first :: rest)) dialog.state ok
  rw [RenameObjectHelper.accept]
  rcases hverify : RenameObjectHelper.verify server domainDn (Dn.text (first :: rest)) ok
    dialog.state with ⟨s, - | -⟩
  · -- nothing is sent
    rw [hverify] at hsame
    rw [← hsame] at hnames
    exact ⟨nofun, .inl hnames⟩
  · rw [hverify] at hsame
    rw [← hsame] at hnames
    exact renameAndApply_spec (comma_not_mem_of_valid (isObjectNameValid_of_verify hverify)) hnames
      fun s' => hthrough s s' hverify

end

namespace RenameDialog

variable {σ : Type} {server : RenameServer σ} {domainDn : String} {first : Dn.Rdn}
  {rest : List Dn.Rdn} {dialog : RenameDialog σ} {ok : OkPress}

/-- An attempt that goes through keeps what has been sent right, and passes a new DN on. -/
theorem Followed.pressOk (h : Followed server (Dn.text (first :: rest)) dialog)
    (hopen : dialog.newDn = none) (hthrough : GoesThrough server domainDn first rest dialog ok) :
    Followed server (Dn.text (first :: rest))
      (pressOk server domainDn (Dn.text (first :: rest)) dialog ok) := by
  have hnames : server.names dialog.state (Dn.text (first :: rest)) := by
    refine h.received.resolve_right ?_
    rintro ⟨newDn, hnewDn, -⟩
    rw [hopen] at hnewDn
    exact absurd hnewDn nofun
  obtain ⟨haddressed, hreceived⟩ := RenameObjectHelper.accept_spec hnames hthrough
  refine ⟨fun request hrequest => ?_, hreceived.imp_right ?_⟩
  · rcases List.mem_append.1 hrequest with hrequest | hrequest
    · exact h.addressed request hrequest
    · exact haddressed request hrequest
  · rintro ⟨hsuccess, hnewDn⟩
    exact ⟨_, if_pos hsuccess, hnewDn⟩

/-- If all attempts go through, each request addresses the DN that the object has at that moment,
    and the console gets its new DN if it has another one. -/
theorem followed_of_run (h : Reached server domainDn first rest dialog) :
    Followed server (Dn.text (first :: rest)) dialog := by
  refine h.invariant (fun dialog hopened => ?_) fun dialog ok hfollowed hallowed => ?_
  · obtain ⟨hnames, haddressed, -⟩ := hopened
    refine ⟨fun request hrequest => ?_, .inl hnames⟩
    rw [haddressed] at hrequest
    exact absurd hrequest List.not_mem_nil
  · exact hfollowed.pressOk hallowed.1 hallowed.2

end RenameDialog

/-! ## A server that refuses the edits -/

/-- What has become of the object "CN=a,DC=x". -/
inductive SampleObject
  | kept
  | renamed (rdn : QString)
  deriving DecidableEq

/-- The RDN of one character. -/
def sampleRdn (type : Dn.AttributeType) (c : Char) (h : Dn.IsPlain c ∧ c ≠ ' ' ∧ c ≠ '#') :
    Dn.Rdn :=
  .single type (.string [.plain c h.1] (fun _ hc => Option.some.inj hc ▸ h.2)
    fun _ hc => Option.some.inj hc ▸ h.2.1)

/-- "CN=a,DC=x". -/
def sampleFirst : Dn.Rdn := sampleRdn .cn 'a' (by decide)
def sampleRest : List Dn.Rdn := [sampleRdn .dc 'x' (by decide)]

/-- A server that renames the object once, and gives one answer to all edits. -/
def sampleRenameServer (edits : LdapResult) : RenameServer SampleObject where
  search s _ := (s, [])
  createSdControl _ := .success
  createTreeDeleteControl _ := .success
  modifyReplace s _ _ _ _ := (s, edits)
  delete s _ _ := (s, .failure)
  connect s := (s, true)
  rename s request :=
    if s = .kept ∧ request.dn = Dn.text (sampleFirst :: sampleRest) ∧ request.newParent = none then
      (.renamed request.newRdn, .success)
    else (s, .failure)
  names s dn :=
    match s with
    | .kept => dn = Dn.text (sampleFirst :: sampleRest)
    | .renamed rdn => ∃ first rest, Dn.text (first :: rest) = Dn.text (sampleFirst :: sampleRest) ∧
        dn = rdn ++ commaTail (parentText rest)
  names_connect _ := rfl
  names_search _ _ := rfl
  names_modifyReplace _ _ _ _ _ := rfl
  names_rename_failure s request h := by
    split_ifs at h ⊢
    · exact absurd rfl h
    · rfl
  names_rename_success s first rest newRdn hnames h := by
    split_ifs at h ⊢ with hkept
    exact ⟨first, rest, hkept.2.1, rfl⟩

/-- A dialog for the object, as it is opened. -/
def sampleDialog : RenameDialog SampleObject := ⟨.kept, [], none⟩

/-- OK is pressed with "b" as the name and the logon name of a group. -/
def sampleOk : OkPress := ⟨['b'], .group ['b']⟩

/-- Pressing OK in it. -/
def pressSampleOk (edits : LdapResult) (dialog : RenameDialog SampleObject) :
    RenameDialog SampleObject :=
  dialog.pressOk (sampleRenameServer edits) "DC=x" (Dn.text (sampleFirst :: sampleRest)) sampleOk

/-- After a refused edit, the next attempt addresses a DN that the object has no more, and the
    console does not get the new one. -/
theorem RenameDialog.not_followed_refusedEdit : ∃ dialog,
    Run (Opened (sampleRenameServer .failure) (Dn.text (sampleFirst :: sampleRest)))
      (fun dialog _ => dialog.newDn = none)
      (pressOk (sampleRenameServer .failure) "DC=x" (Dn.text (sampleFirst :: sampleRest))) dialog ∧
    ¬(∀ request ∈ dialog.addressed, (sampleRenameServer .failure).names request.1 request.2) ∧
    ¬((sampleRenameServer .failure).names dialog.state (Dn.text (sampleFirst :: sampleRest)) ∨
      ∃ newDn, dialog.newDn = some newDn ∧
        (sampleRenameServer .failure).names dialog.state newDn) := by
  have hrenamed : ¬(sampleRenameServer .failure).names (.renamed ['C', 'N', '=', 'b'])
      (Dn.text (sampleFirst :: sampleRest)) := by
    rintro ⟨first, rest, -, h⟩
    have hname : some 'a' = some 'b' := congrArg (fun text => text[3]?) h
    exact absurd hname (by decide)
  have hopen : (pressSampleOk .failure sampleDialog).newDn = none := by decide
  have hopen' : (pressSampleOk .failure (pressSampleOk .failure sampleDialog)).newDn = none := by
    decide
  refine ⟨pressSampleOk .failure (pressSampleOk .failure sampleDialog),
    .next (.next (.start ⟨rfl, rfl, rfl⟩) rfl) hopen, fun haddressed => ?_, fun hreceived => ?_⟩
  · exact hrenamed (haddressed (.renamed ['C', 'N', '=', 'b'],
      Dn.text (sampleFirst :: sampleRest)) (by decide))
  · rcases hreceived with hnames | ⟨newDn, hnewDn, -⟩
    · exact hrenamed hnames
    · exact absurd (hopen'.symm.trans hnewDn) nofun

/-- With edits that succeed, the console gets the new DN. -/
theorem RenameDialog.followed_of_run_acceptedEdit :
    Followed (sampleRenameServer .success) (Dn.text (sampleFirst :: sampleRest))
      (pressSampleOk .success sampleDialog) := by
  refine @followed_of_run _ _ "DC=x" sampleFirst sampleRest _ (.next (.start ⟨rfl, rfl, rfl⟩) ?_)
  exact ⟨rfl, fun s s' _ _ => ⟨by decide, .inr rfl⟩⟩

end Admc
