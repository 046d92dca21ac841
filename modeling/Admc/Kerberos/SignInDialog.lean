import Admc.Kerberos.FailedKinit

/-!
# The sign-in dialog

The dialog signs in with a principal whose ticket is known, or asks for a ticket with a password.
The principal that is signed in is signed out first, and its credentials are destroyed unless it is
remembered; the same is done when the program ends.

Whatever is done, the client keeps a cache for no other principals than before, and for the one that
has been signed in.
-/

namespace Admc

/-! ## The dialog -/

/-- The states of `KrbAuthDialog`. -/
inductive KrbAuthState
  | authentication
  | passwordChange
  deriving DecidableEq

/-- `class KrbAuthDialog`, with the client and with the principals that are remembered by the
    settings. -/
structure KrbAuthDialog where
  client : Krb5Client
  remembered : List String
  text : String
  password : String
  newPassword : String
  confirm : String
  passwordVisible : Bool
  rememberChecked : Bool
  rememberDisabled : Bool
  useSystem : Bool
  state : KrbAuthState

/-- What is given when the dialog signs in: the answers to a password, whether the library selects
    a cache, what the box shows when the item of the principal that is signed out is removed,
    whether it has no items then, whether there is a connection; and whether a password can be
    encoded and is changed. -/
structure KrbAnswers where
  kdc : String → Bool → KinitAnswers
  setenvResult : ℤ
  shown : Option String
  comboEmpty : Bool
  connected : Bool
  encodes : Bool
  changes : Bool

namespace KrbAuthDialog

variable (krb : Krb5Library) (uid : ℕ) (d : KrbAuthDialog)

/-- `settings_are_creds_saved`. -/
def areCredsSaved (username : String) : Bool := username ≠ "" && d.remembered.contains username

/-- `KrbAuthDialog::hide_passwd_widgets`. -/
def hidePasswdWidgets (hide : Bool) : KrbAuthDialog := { d with passwordVisible := !hide }

/-- `KrbAuthDialog::switch_ui_to_authentication`. -/
def switchUiToAuthentication : KrbAuthDialog :=
  { d with password := "", newPassword := "", confirm := "", state := .authentication }

/-- `KrbAuthDialog::switch_ui_to_password_change`. -/
def switchUiToPasswordChange : KrbAuthDialog :=
  { d with newPassword := "", confirm := "", state := .passwordChange }

/-- `KrbAuthDialog::remember_principal`. -/
def rememberPrincipal (remember : Bool) : KrbAuthDialog :=
  let principal := d.text
  let remembered :=
    if remember ∧ principal ∉ d.remembered then d.remembered ++ [principal]
    else if ¬remember ∧ principal ∈ d.remembered then d.remembered.filter (· ≠ principal)
    else d.remembered
  { d with remembered, client := d.client.updateTempCaches remembered }

/-- `remember_checkbox->setChecked`, which tells `KrbAuthDialog::remember_principal`. -/
def setRememberChecked (checked : Bool) : KrbAuthDialog :=
  if checked = d.rememberChecked then d
  else { d with rememberChecked := checked }.rememberPrincipal checked

/-- `KrbAuthDialog::on_principal_selected`. -/
def onPrincipalSelected (principal : String) : KrbAuthDialog :=
  let d := (d.hidePasswdWidgets (d.client.TicketActive principal)).switchUiToAuthentication
  let checked := (principal ≠ "" && principal = d.client.sysPrincipal) || d.areCredsSaved principal
  { d.setRememberChecked checked with rememberDisabled := principal = d.client.sysPrincipal }

/-- The text of `principal_cmb_box` changes. -/
def setText (text : String) : KrbAuthDialog :=
  if text = d.text then d else { d with text }.onPrincipalSelected text

/-- `KrbAuthDialog::logout`. -/
def logout (deleteCreds : Bool) (shown : Option String) : KrbAuthDialog :=
  if ¬deleteCreds then d
  else
    match shown with
    | some text => (d.setText text).setText ""
    | none => d.setText ""

/-- `KrbAuthDialog::on_use_system_credentials`. -/
def onUseSystemCredentials (useSystem : Bool) : KrbAuthDialog :=
  let principal := if useSystem then d.client.sysPrincipal else d.client.currPrincipal
  let d := d.switchUiToAuthentication.hidePasswdWidgets (principal ≠ "")
  { d with useSystem }.setText principal

/-- `KrbAuthDialog::KrbAuthDialog`, when the first of the available principals, what the settings
    have for the credentials of the system and the default principal are given. -/
def new (client : Krb5Client) (remembered : List String) (first : String) (useSystem : Bool)
    (defaultPrincipal : Option String) : KrbAuthDialog :=
  let d : KrbAuthDialog :=
    { client, remembered, text := first, password := "", newPassword := "", confirm := "",
      passwordVisible := true, rememberChecked := false, rememberDisabled := false,
      useSystem := true, state := .authentication }
  let d := if useSystem then d else d.onUseSystemCredentials false
  let d := d.onUseSystemCredentials useSystem
  let principal := d.client.currPrincipal
  let checked := (d.client.sysPrincipal ≠ "" && principal = d.client.sysPrincipal) ||
    d.areCredsSaved principal
  let d := { d.setRememberChecked checked with
    rememberDisabled := principal = d.client.sysPrincipal }
  match defaultPrincipal with
  | some principal => d.setText principal
  | none => d

/-- `MainWindow::on_logout`. -/
def signOut (shown : Option String) : KrbAuthDialog :=
  let deleteCreds := !d.areCredsSaved d.client.currPrincipal
  let d := d.logout deleteCreds shown
  { d with client := d.client.logout deleteCreds }

/-- The end of the program, in `MainWindow::closeEvent`. -/
def closeMain : KrbAuthDialog :=
  { d with client := d.client.logout (!d.areCredsSaved d.client.currPrincipal) }

/-! ## Signing in -/

/-- `KrbAuthDialog::authenticate` shows a message at once. -/
def Refuses (principal : String) : Prop :=
  principal = "" ∨ principal = d.client.currPrincipal ∨ d.passwordVisible ∧ d.password = ""

instance decidableRefuses (principal : String) : Decidable (d.Refuses principal) :=
  inferInstanceAs (Decidable (_ ∨ _ ∨ _))

/-- The principal that is signed in is signed out. -/
def leaveCurrent (shown : Option String) : KrbAuthDialog :=
  if d.client.currPrincipal ≠ "" then d.signOut shown else d

/-- The attempts to get a ticket with the password. -/
def ask (principal : String) (kdc : String → Bool → KinitAnswers) : KrbAuthDialog × Bool :=
  match d.client.kinit krb uid principal false (kdc d.password false) with
  | (client, none) => ({ d with client }, true)
  | (client, some firstError) =>
    if firstError.errorCode = Krb5Client.krb5kdcErrKeyExp then
      ({ d with client }.switchUiToPasswordChange, false)
    else
      match client.kinit krb uid principal true (kdc d.password true) with
      | (client, none) => ({ d with client }, true)
      | (client, some secondError) =>
        if secondError.errorCode = Krb5Client.krb5kdcErrKeyExp then
          ({ d with client }.switchUiToPasswordChange, false)
        else ({ d with client }, false)

/-- A principal is selected, or a ticket is got for it. The first item of the box is shown. The
    error of a selection is not caught, so nothing follows it. -/
def getTicket (principal : String) (answers : KrbAnswers) : KrbAuthDialog × Bool :=
  if d.client.principalCacheMap.contains principal ∧ d.client.TicketActive principal then
    let (client, error) := d.client.setCurrentPrincipal krb principal answers.setenvResult
    ({ d with client }, error.isNone)
  else
    let (d, success) := d.ask krb uid principal answers.kdc
    (if success ∧ answers.comboEmpty then d.setText principal else d, success)

/-- `KrbAuthDialog::authenticate`, up to the signal that a principal has authenticated. -/
def trySignIn (principal : String) (answers : KrbAnswers) : KrbAuthDialog × Bool :=
  if d.Refuses principal then (d, false)
  else
    let (d, success) := (d.leaveCurrent answers.shown).getTicket krb uid principal answers
    (if success then d.rememberPrincipal d.rememberChecked else d, success)

/-- The signal `authenticated`, and the rest of `KrbAuthDialog::authenticate`. -/
def onAuthenticated (connected : Bool) : KrbAuthDialog :=
  let client := if connected then d.client else d.client.logout false
  { d with client, password := "", passwordVisible := false }

/-- `KrbAuthDialog::authenticate`. -/
def authenticate (principal : String) (answers : KrbAnswers) : KrbAuthDialog :=
  let (d, success) := d.trySignIn krb uid principal answers
  if success then d.onAuthenticated answers.connected else d

/-- `KrbAuthDialog::change_password`. -/
def changePassword (answers : KrbAnswers) : Bool :=
  d.newPassword ≠ "" && d.newPassword = d.confirm && answers.encodes &&
    d.newPassword ≠ d.password && answers.changes

/-- `KrbAuthDialog::on_sign_in`. -/
def onSignIn (answers : KrbAnswers) : KrbAuthDialog :=
  let principal := d.text
  match d.state with
  | .authentication => d.authenticate krb uid principal answers
  | .passwordChange =>
    if d.changePassword answers then
      ({ d with password := d.newPassword }.authenticate krb uid principal
        answers).switchUiToAuthentication
    else d

end KrbAuthDialog

/-- What is done in the dialog and the main window. -/
inductive KrbAuthEvent
  | enterText (text : String)
  | editPassword (password : String)
  | editNewPassword (password : String)
  | editConfirm (password : String)
  | tickRemember (checked : Bool)
  | tickUseSystem (checked : Bool)
  | signIn (answers : KrbAnswers)
  | closeDialog
  | signOut (shown : Option String)
  | closeMain

namespace KrbAuthDialog

/-- What an event does, if the widgets are enabled. -/
def handle (krb : Krb5Library) (uid : ℕ) (d : KrbAuthDialog) : KrbAuthEvent → KrbAuthDialog
  | .enterText text => if d.useSystem then d else d.setText text
  | .editPassword password => { d with password }
  | .editNewPassword newPassword => { d with newPassword }
  | .editConfirm confirm => { d with confirm }
  | .tickRemember checked => if d.rememberDisabled then d else d.setRememberChecked checked
  | .tickUseSystem checked => if checked = d.useSystem then d else d.onUseSystemCredentials checked
  | .signIn answers => d.onSignIn krb uid answers
  | .closeDialog => d.switchUiToAuthentication
  | .signOut shown => d.signOut shown
  | .closeMain => d.closeMain

/-! ## What the client keeps -/

end KrbAuthDialog

namespace Krb5Client

/-- What a client has after a ticket has been asked for: it keeps a cache for no other principal
    that it has kept none for, and has the principal signed in if that succeeds. -/
structure Asked (before : Krb5Client) (principal : String) (success : Bool)
    (after : Krb5Client) : Prop where
  sys : after.sysPrincipal = before.sysPrincipal
  current : after.currPrincipal = if success then principal else before.currPrincipal
  keys : ∀ key ∈ after.principalCacheMap.keys,
    key ∈ before.principalCacheMap.keys ∨ success = true ∧ key = principal

section
variable {krb : Krb5Library} {uid : ℕ} {client before between after : Krb5Client}
  {principal key : String} {success : Bool}

theorem Asked.trans (h : Asked before principal false between)
    (h' : Asked between principal success after) : Asked before principal success after where
  sys := h'.sys.trans h.sys
  current := by
    rw [h'.current, h.current]
    rfl
  keys key hkey := by
    refine (h'.keys key hkey).imp_left fun hbetween => ?_
    exact (h.keys key hbetween).resolve_right fun hsuccess => nomatch hsuccess.1

theorem sysPrincipal_destroyCache :
    (client.destroyCache principal).sysPrincipal = client.sysPrincipal := by
  rw [destroyCache]
  cases client.principalCacheMap.lookup principal <;> rfl

theorem mem_keys_destroyCache : key ∈ (client.destroyCache principal).principalCacheMap.keys ↔
    key ≠ principal ∧ key ∈ client.principalCacheMap.keys := by
  rw [principalCacheMap_destroyCache, QHash.mem_keys_remove]

theorem asked_destroyCache {content : CcacheContent} {ccache : Ccache} :
    Asked client principal false ((client.destroyCache principal).setContent ccache content) :=
  ⟨sysPrincipal_destroyCache, currPrincipal_destroyCache,
    fun _ hkey => .inl (mem_keys_destroyCache.1 hkey).2⟩

theorem isSystem_principalCcache : (principalCcache uid principal).isSystem = false := by
  have hfile : ¬"KEYRING".toList <:+: "FILE".toList := by decide
  exact decide_eq_false hfile

/-- What is loaded from the new cache is for the principal. -/
theorem asked_kinit (hnames : krb.KeepsNames) {enterprise : Bool} {answers : KinitAnswers} :
    Asked client principal (client.kinit krb uid principal enterprise answers).2.isNone
      (client.kinit krb uid principal enterprise answers).1 := by
  obtain ⟨-, error, heq⟩ | ⟨-, princ, creds, hparse, hcases⟩ :=
    @kinit_cases krb uid client principal enterprise answers
  · rw [heq]
    exact ⟨sysPrincipal_destroyCache, currPrincipal_destroyCache,
      fun _ hkey => .inl (mem_keys_destroyCache.1 hkey).2⟩
  · have hset := @asked_destroyCache client principal ⟨princ, creds⟩
      (principalCcache uid principal)
    obtain ⟨error, heq⟩ | ⟨-, heq⟩ := hcases
    · rw [heq]
      exact hset
    · rw [heq]
      set named : Krb5Client :=
        { (client.destroyCache principal).setContent (principalCcache uid principal)
            ⟨princ, creds⟩ with krb5ccname := some (principalCcache uid principal) }
      obtain hloaded | ⟨content, loaded, tgtData, hcontent, hname, -, hloaded⟩ :=
        @loadCacheData_cases krb named answers.toLoadAnswers (principalCcache uid principal)
          (principalCcache uid principal).isSystem
      · rw [hloaded]
        exact ⟨hset.sys, rfl, fun key hkey => .inl ((hset.keys key hkey).resolve_right nofun)⟩
      · have hnew : named.caches (principalCcache uid principal) = some ⟨princ, creds⟩ :=
          Function.update_self ..
        obtain rfl := Option.some.inj (hnew.symm.trans hcontent)
        obtain rfl : loaded = principal :=
          Except.ok.inj (hname.symm.trans (hnames _ _ _ hparse))
        rw [hloaded, isSystem_principalCcache]
        refine ⟨hset.sys, rfl, fun key hkey => ?_⟩
        obtain heq | hkey := QHash.mem_keys_insert.1 hkey
        · exact .inr ⟨rfl, heq⟩
        · exact .inl ((hset.keys key hkey).resolve_right nofun)

theorem asked_setCurrentPrincipal {setenvResult : ℤ} :
    Asked client principal (client.setCurrentPrincipal krb principal setenvResult).2.isNone
      (client.setCurrentPrincipal krb principal setenvResult).1 := by
  obtain ⟨error, heq⟩ | ⟨ccache, -, heq⟩ :=
    @setCurrentPrincipal_cases krb client principal setenvResult
  · rw [heq]
    exact ⟨rfl, rfl, fun _ hkey => .inl hkey⟩
  · rw [heq]
    exact ⟨rfl, rfl, fun _ hkey => .inl hkey⟩

theorem sysPrincipal_logout {deleteCreds : Bool} :
    (client.logout deleteCreds).sysPrincipal = client.sysPrincipal := by
  rw [logout]
  dsimp only
  split_ifs
  · exact sysPrincipal_destroyCache
  · rfl

theorem ticketActive_of_logout {deleteCreds : Bool}
    (h : (client.logout deleteCreds).TicketActive principal) : client.TicketActive principal := by
  rw [TicketActive, logout] at h
  dsimp only at h
  split_ifs at h
  · rw [principalTgtMap_destroyCache, QHash.lookup_remove] at h
    split_ifs at h
    · cases h
    · exact h
  · exact h

/-- The caches that are kept when the principal is signed out. -/
theorem mem_keys_logout {deleteCreds : Bool} :
    key ∈ (client.logout deleteCreds).principalCacheMap.keys ↔
      key ∈ client.principalCacheMap.keys ∧
        (deleteCreds = true ∧ client.currPrincipal ≠ client.sysPrincipal →
          key ≠ client.currPrincipal) := by
  rw [logout]
  dsimp only
  split_ifs with hdelete
  · rw [mem_keys_destroyCache, and_comm, imp_iff_right hdelete]
  · rw [and_iff_left fun h => absurd h hdelete]

end

/-- Nothing has changed but the temporary caches. -/
def SameCaches (before after : Krb5Client) : Prop :=
  ∃ krbTempCaches, after = { before with krbTempCaches }

section
variable {krb : Krb5Library} {uid : ℕ} {client client' between : Krb5Client} {principal : String}

theorem SameCaches.refl : SameCaches client client := ⟨client.krbTempCaches, rfl⟩

theorem SameCaches.trans (h : SameCaches client between) (h' : SameCaches between client') :
    SameCaches client client' := by
  obtain ⟨_, rfl⟩ := h
  obtain ⟨names, rfl⟩ := h'
  exact ⟨names, rfl⟩

theorem SameCaches.cacheMap (h : SameCaches client client') :
    client'.principalCacheMap = client.principalCacheMap := by
  obtain ⟨_, rfl⟩ := h
  rfl

theorem SameCaches.tgtMap (h : SameCaches client client') :
    client'.principalTgtMap = client.principalTgtMap := by
  obtain ⟨_, rfl⟩ := h
  rfl

theorem SameCaches.current (h : SameCaches client client') :
    client'.currPrincipal = client.currPrincipal := by
  obtain ⟨_, rfl⟩ := h
  rfl

theorem SameCaches.sys (h : SameCaches client client') :
    client'.sysPrincipal = client.sysPrincipal := by
  obtain ⟨_, rfl⟩ := h
  rfl

theorem SameCaches.destroyCache (h : SameCaches client client') :
    SameCaches (client.destroyCache principal) (client'.destroyCache principal) := by
  obtain ⟨names, rfl⟩ := h
  refine ⟨names, ?_⟩
  rw [Krb5Client.destroyCache, Krb5Client.destroyCache]
  cases client.principalCacheMap.lookup principal <;> rfl

theorem SameCaches.logout (h : SameCaches client client') {deleteCreds : Bool} :
    SameCaches (client.logout deleteCreds) (client'.logout deleteCreds) := by
  obtain ⟨names, rfl⟩ := h
  have hnamed : SameCaches { client with krb5ccname := some ⟨"MEMORY", "empty_ccache"⟩ }
      { client with krb5ccname := some ⟨"MEMORY", "empty_ccache"⟩, krbTempCaches := names } :=
    ⟨names, rfl⟩
  obtain ⟨names', hdestroyed⟩ := @SameCaches.destroyCache _ _ client.currPrincipal hnamed
  rw [Krb5Client.logout, Krb5Client.logout]
  dsimp only
  split_ifs
  · rw [hdestroyed]
    exact ⟨names', rfl⟩
  · exact ⟨names, rfl⟩

theorem SameCaches.setCurrentPrincipal (h : SameCaches client client') {setenvResult : ℤ} :
    SameCaches (client.setCurrentPrincipal krb principal setenvResult).1
      (client'.setCurrentPrincipal krb principal setenvResult).1 := by
  obtain ⟨names, rfl⟩ := h
  rw [Krb5Client.setCurrentPrincipal, Krb5Client.setCurrentPrincipal]
  dsimp only
  cases client.principalCacheMap.lookup principal with
  | none => exact ⟨names, rfl⟩
  | some ccache =>
    dsimp only
    split_ifs
    · exact ⟨names, rfl⟩
    · exact ⟨names, rfl⟩

theorem SameCaches.loadCacheData (h : SameCaches client client') {answers : LoadAnswers}
    {ccache : Ccache} {isSystem : Bool} :
    SameCaches (client.loadCacheData krb answers ccache isSystem)
      (client'.loadCacheData krb answers ccache isSystem) := by
  obtain ⟨names, rfl⟩ := h
  have hread : ({ client with krbTempCaches := names } : Krb5Client).ccGetPrincipal krb answers
      ccache = client.ccGetPrincipal krb answers ccache := rfl
  rw [Krb5Client.loadCacheData, Krb5Client.loadCacheData, hread]
  cases client.ccGetPrincipal krb answers ccache with
  | none => exact ⟨names, rfl⟩
  | some read =>
    dsimp only
    cases read.1.creds.find? fun creds => creds.server = krbtgt read.1.principal.realm with
    | none => exact ⟨names, rfl⟩
    | some creds => exact ⟨names, rfl⟩

theorem SameCaches.signedIn (h : SameCaches client client') :
    SameCaches { client with currPrincipal := principal }
      { client' with currPrincipal := principal } := by
  obtain ⟨names, rfl⟩ := h
  exact ⟨names, rfl⟩

/-- An authentication reads no temporary caches. -/
theorem SameCaches.kinit (h : SameCaches client client') {enterprise : Bool}
    {answers : KinitAnswers} :
    SameCaches (client.kinit krb uid principal enterprise answers).1
        (client'.kinit krb uid principal enterprise answers).1 ∧
      (client'.kinit krb uid principal enterprise answers).2 =
        (client.kinit krb uid principal enterprise answers).2 := by
  obtain ⟨names, hdestroyed⟩ := @SameCaches.destroyCache _ _ principal h
  rw [Krb5Client.kinit, Krb5Client.kinit, hdestroyed]
  dsimp only
  cases krb.parseName principal enterprise with
  | error res => exact ⟨⟨names, rfl⟩, rfl⟩
  | ok princ =>
    cases answers.initCreds with
    | error res => exact ⟨⟨names, rfl⟩, rfl⟩
    | ok creds =>
      cases answers.resolveError with
      | some res => exact ⟨⟨names, rfl⟩, rfl⟩
      | none =>
        cases answers.initializeError with
        | some res => exact ⟨⟨names, rfl⟩, rfl⟩
        | none =>
          cases answers.storeCredError with
          | some res => exact ⟨⟨names, rfl⟩, rfl⟩
          | none =>
            cases answers.setenvFails with
            | true => exact ⟨⟨names, rfl⟩, rfl⟩
            | false =>
              dsimp only
              rw [if_neg Bool.false_ne_true, if_neg Bool.false_ne_true]
              exact ⟨SameCaches.signedIn (SameCaches.loadCacheData ⟨names, rfl⟩), rfl⟩

theorem SameCaches.attempts (h : SameCaches client client') {signIn : SignIn} :
    SameCaches (client.attempts krb uid signIn) (client'.attempts krb uid signIn) := by
  obtain ⟨hfirst, herror⟩ :=
    @SameCaches.kinit krb uid _ _ signIn.principal h false signIn.first
  rw [Krb5Client.attempts, Krb5Client.attempts]
  generalize client.kinit krb uid signIn.principal false signIn.first = first at hfirst herror ⊢
  generalize client'.kinit krb uid signIn.principal false signIn.first = first' at hfirst herror ⊢
  obtain ⟨between, error⟩ := first
  obtain ⟨between', error'⟩ := first'
  dsimp only at hfirst herror
  obtain rfl := herror
  cases error' with
  | none => exact hfirst
  | some firstError =>
    dsimp only
    split_ifs
    · exact hfirst
    · exact hfirst.kinit.1

end

end Krb5Client

end Admc
