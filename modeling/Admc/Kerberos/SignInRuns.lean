import Admc.Kerberos.SignInDialog

/-!
# What outlives the sign-in

* `KrbAuthDialog.clean_of_run`: in every run of the dialog, credentials outlive the sign-in of
  principals that are remembered only, unless a principal that is not signed in is forgotten, or
  there is no connection after signing in;
* `KrbAuthDialog.clean_tickRemember_iff`: forgetting such a principal leaves its credentials;
* `KrbAuthDialog.sameCaches_trySignIn`: the dialog does to the client what `Krb5Client.signIn`
  does.
-/

namespace Admc

namespace KrbAuthDialog

/-! ## What is remembered -/

/-- The caches that are kept are those of principals that are remembered, of the principal that is
    signed in, and that of the system. -/
structure Clean (d : KrbAuthDialog) : Prop where
  named : "" ∉ d.client.principalCacheMap.keys
  kept : ∀ principal ∈ d.client.principalCacheMap.keys,
    principal = d.client.sysPrincipal ∨ principal = d.client.currPrincipal ∨
      principal ∈ d.remembered

/-- The principal whose name is in the box can be forgotten: no cache is kept for it, or it is
    that of the system, or the one that is signed in. -/
def IsForgettable (d : KrbAuthDialog) : Prop :=
  d.text ∈ d.client.principalCacheMap.keys →
    d.text = d.client.sysPrincipal ∨ d.text = d.client.currPrincipal

section
variable {krb : Krb5Library} {uid : ℕ} {d : KrbAuthDialog} {principal : String}

theorem sameCaches_setRememberChecked {checked : Bool} :
    d.client.SameCaches (d.setRememberChecked checked).client := by
  rw [setRememberChecked]
  split_ifs
  · exact .refl
  · exact ⟨_, rfl⟩

/-- What is shown of a principal only tells the client the temporary caches. -/
theorem sameCaches_setText {text : String} : d.client.SameCaches (d.setText text).client := by
  rw [setText]
  split_ifs
  · exact .refl
  · exact @sameCaches_setRememberChecked ({ d with text }.hidePasswdWidgets
      (d.client.TicketActive text)).switchUiToAuthentication _

theorem sameCaches_logout {deleteCreds : Bool} {shown : Option String} :
    d.client.SameCaches (d.logout deleteCreds shown).client := by
  rw [KrbAuthDialog.logout.eq_def]
  split_ifs
  · cases shown with
    | none => exact sameCaches_setText
    | some text => exact sameCaches_setText.trans sameCaches_setText
  · exact .refl

theorem mem_rememberPrincipal {remember : Bool} :
    principal ∈ (d.rememberPrincipal remember).remembered ↔
      if remember then principal ∈ d.remembered ∨ principal = d.text
      else principal ∈ d.remembered ∧ principal ≠ d.text := by
  rw [rememberPrincipal]
  cases remember with
  | false =>
    by_cases hmem : d.text ∈ d.remembered
    · simp [hmem]
    · simp only [Bool.false_eq_true, false_and, if_false, not_false_iff, true_and, hmem]
      exact ⟨fun h => ⟨h, fun heq => hmem (heq ▸ h)⟩, And.left⟩
  | true =>
    by_cases hmem : d.text ∈ d.remembered
    · simp only [true_and, hmem, not_true, if_false, if_true, false_and]
      exact ⟨.inl, fun h => h.elim id fun heq => heq ▸ hmem⟩
    · simp [hmem]

theorem Clean.rememberPrincipal {remember : Bool} (h : d.Clean)
    (hforget : remember = false → d.text ∈ d.remembered → d.IsForgettable) :
    (d.rememberPrincipal remember).Clean := by
  refine ⟨h.named, fun principal hprincipal => ?_⟩
  obtain hsys | hcurrent | hmem := h.kept principal hprincipal
  · exact .inl hsys
  · exact .inr (.inl hcurrent)
  · rw [mem_rememberPrincipal]
    cases remember with
    | true => exact .inr (.inr (.inl hmem))
    | false =>
      by_cases heq : principal = d.text
      · obtain rfl := heq
        exact (hforget rfl hmem hprincipal).imp_right .inl
      · exact .inr (.inr ⟨hmem, heq⟩)

theorem Clean.setRememberChecked {checked : Bool} (h : d.Clean)
    (hforget : checked = false → d.text ∈ d.remembered → d.IsForgettable) :
    (d.setRememberChecked checked).Clean := by
  rw [KrbAuthDialog.setRememberChecked]
  split_ifs
  · exact h
  · have hchecked : { d with rememberChecked := checked }.Clean := ⟨h.named, h.kept⟩
    exact hchecked.rememberPrincipal hforget

/-- A text that is entered forgets no principal: the box is ticked as the settings have it. -/
theorem Clean.onPrincipalSelected (h : d.Clean) :
    (d.onPrincipalSelected d.text).Clean := by
  have hui : ((d.hidePasswdWidgets
      (d.client.TicketActive d.text)).switchUiToAuthentication).Clean := ⟨h.named, h.kept⟩
  have hset := @Clean.setRememberChecked _
    ((d.text ≠ "" && d.text = d.client.sysPrincipal) || d.areCredsSaved d.text) hui ?_
  · exact ⟨hset.named, hset.kept⟩
  · intro hunchecked hmem hkeys
    have hunsaved : d.areCredsSaved d.text = false := (Bool.or_eq_false_iff.1 hunchecked).2
    have hempty : d.text = "" := by
      by_contra hne
      rw [areCredsSaved, decide_eq_true hne, Bool.true_and, List.contains_eq_mem] at hunsaved
      exact of_decide_eq_false hunsaved hmem
    exact absurd (hempty ▸ hkeys) h.named

theorem Clean.setText {text : String} (h : d.Clean) : (d.setText text).Clean := by
  rw [KrbAuthDialog.setText]
  split_ifs
  · exact h
  · have htext : { d with text }.Clean := ⟨h.named, h.kept⟩
    exact htext.onPrincipalSelected

theorem Clean.logout {deleteCreds : Bool} {shown : Option String} (h : d.Clean) :
    (d.logout deleteCreds shown).Clean := by
  rw [KrbAuthDialog.logout.eq_def]
  split_ifs
  · cases shown with
    | none => exact h.setText
    | some text => exact h.setText.setText
  · exact h

@[simp] theorem text_setRememberChecked {checked : Bool} :
    (d.setRememberChecked checked).text = d.text := by
  rw [setRememberChecked]
  split_ifs <;> rfl

@[simp] theorem text_setText {text : String} : (d.setText text).text = text := by
  rw [setText]
  split_ifs with heq
  · exact heq.symm
  · exact text_setRememberChecked

/-- The text is cleared if the credentials are destroyed. -/
theorem text_logout {deleteCreds : Bool} {shown : Option String} :
    (d.logout deleteCreds shown).text = if deleteCreds then "" else d.text := by
  rw [KrbAuthDialog.logout.eq_def]
  cases deleteCreds with
  | false => rfl
  | true =>
    cases shown with
    | none => exact text_setText
    | some text => exact text_setText

/-- The principal that is signed out is forgotten unless it is remembered. -/
theorem Clean.logoutClient {deleteCreds : Bool} (h : d.Clean)
    (hsaved : deleteCreds = false → d.client.currPrincipal ∈ d.remembered) :
    { d with client := d.client.logout deleteCreds }.Clean where
  named hnamed := h.named (Krb5Client.mem_keys_logout.1 hnamed).1
  kept principal hprincipal := by
    obtain ⟨hkeys, hdeleted⟩ := Krb5Client.mem_keys_logout.1 hprincipal
    rw [Krb5Client.sysPrincipal_logout]
    obtain hsys | rfl | hmem := h.kept principal hkeys
    · exact .inl hsys
    · by_cases hsys : d.client.currPrincipal = d.client.sysPrincipal
      · exact .inl hsys
      · cases deleteCreds with
        | true => exact absurd rfl (hdeleted ⟨rfl, hsys⟩)
        | false => exact .inr (.inr (hsaved rfl))
    · exact .inr (.inr hmem)

theorem mem_remembered_of_saved (h : (!d.areCredsSaved principal) = false) :
    principal ∈ d.remembered := by
  rw [Bool.not_eq_false', areCredsSaved, Bool.and_eq_true] at h
  exact List.contains_iff_mem.1 h.2

theorem Clean.signOut {shown : Option String} (h : d.Clean) : (d.signOut shown).Clean := by
  rw [KrbAuthDialog.signOut]
  refine h.logout.logoutClient fun hsaved => ?_
  have hmem := mem_remembered_of_saved hsaved
  rw [hsaved]
  exact hmem

theorem Clean.closeMain (h : d.Clean) : d.closeMain.Clean :=
  h.logoutClient mem_remembered_of_saved

/-! ## Signing in -/

theorem currPrincipal_leaveCurrent {shown : Option String} :
    (d.leaveCurrent shown).client.currPrincipal = "" := by
  rw [leaveCurrent]
  split_ifs with hcurrent
  · rfl
  · exact not_not.1 hcurrent

theorem Clean.leaveCurrent {shown : Option String} (h : d.Clean) :
    (d.leaveCurrent shown).Clean := by
  rw [KrbAuthDialog.leaveCurrent]
  split_ifs
  · exact h.signOut
  · exact h

/-- The principal is still in the box, or the box has been cleared. -/
theorem text_leaveCurrent {shown : Option String} :
    (d.leaveCurrent shown).text = d.text ∨ (d.leaveCurrent shown).text = "" := by
  rw [leaveCurrent]
  split_ifs
  · rw [signOut]
    dsimp only
    rw [text_logout]
    split_ifs
    · exact .inr rfl
    · exact .inl rfl
  · exact .inl rfl

/-- Nobody is signed in, and then the principal is, if a ticket is got for it. -/
theorem Clean.asked {client : Krb5Client} {success : Bool} (h : d.Clean)
    (hcurrent : d.client.currPrincipal = "") (hprincipal : principal ≠ "")
    (hasked : d.client.Asked principal success client) : { d with client }.Clean where
  named hnamed := (hasked.keys "" hnamed).elim h.named fun hnew => hprincipal hnew.2.symm
  kept key hkey := by
    rw [hasked.sys, hasked.current]
    obtain hkept | ⟨rfl, rfl⟩ := hasked.keys key hkey
    · obtain hsys | heq | hmem := h.kept key hkept
      · exact .inl hsys
      · rw [heq, hcurrent] at hkept
        exact absurd hkept h.named
      · exact .inr (.inr hmem)
    · exact .inr (.inl rfl)

/-- What the attempts to get a ticket leave of the dialog. -/
theorem ask_cases (hnames : krb.KeepsNames) {kdc : String → Bool → KinitAnswers} :
    ∃ client, d.client.Asked principal (d.ask krb uid principal kdc).2 client ∧
      ((d.ask krb uid principal kdc).1 = { d with client } ∨
        (d.ask krb uid principal kdc).1 = { d with client }.switchUiToPasswordChange) := by
  have hfirst := @Krb5Client.asked_kinit krb uid d.client principal hnames false
    (kdc d.password false)
  rw [ask]
  generalize d.client.kinit krb uid principal false (kdc d.password false) = first at hfirst ⊢
  obtain ⟨client, _ | firstError⟩ := first
  · exact ⟨client, hfirst, .inl rfl⟩
  · dsimp only
    split_ifs
    · exact ⟨client, hfirst, .inr rfl⟩
    · have hsecond := @Krb5Client.asked_kinit krb uid client principal hnames true
        (kdc d.password true)
      generalize client.kinit krb uid principal true (kdc d.password true) = second at hsecond ⊢
      obtain ⟨client', _ | secondError⟩ := second
      · exact ⟨client', hfirst.trans hsecond, .inl rfl⟩
      · dsimp only
        split_ifs
        · exact ⟨client', hfirst.trans hsecond, .inr rfl⟩
        · exact ⟨client', hfirst.trans hsecond, .inl rfl⟩

theorem Clean.ask (h : d.Clean) (hnames : krb.KeepsNames)
    {kdc : String → Bool → KinitAnswers} (hcurrent : d.client.currPrincipal = "")
    (hprincipal : principal ≠ "") :
    (d.ask krb uid principal kdc).1.Clean ∧
      (d.ask krb uid principal kdc).1.text = d.text ∧
      ((d.ask krb uid principal kdc).2 = true →
        (d.ask krb uid principal kdc).1.client.currPrincipal = principal) := by
  obtain ⟨client, hasked, heq | heq⟩ := @ask_cases krb uid d principal hnames kdc
  · rw [heq]
    exact ⟨h.asked hcurrent hprincipal hasked, rfl, fun hsuccess => by
      rw [hasked.current, hsuccess, if_pos rfl]⟩
  · rw [heq]
    have hclean := h.asked hcurrent hprincipal hasked
    exact ⟨⟨hclean.named, hclean.kept⟩, rfl, fun hsuccess => by
      rw [switchUiToPasswordChange, hasked.current, hsuccess, if_pos rfl]⟩

/-- What is there after a principal has been selected, or has got a ticket. -/
structure Got (d : KrbAuthDialog) (principal : String) : Prop where
  clean : d.Clean
  current : d.client.currPrincipal = principal
  text : d.text = principal ∨ d.text = ""

theorem Clean.getTicket (h : d.Clean) (hnames : krb.KeepsNames) {answers : KrbAnswers}
    (hcurrent : d.client.currPrincipal = "") (hprincipal : principal ≠ "")
    (htext : d.text = principal ∨ d.text = "") :
    (d.getTicket krb uid principal answers).1.Clean ∧
      ((d.getTicket krb uid principal answers).2 = true →
        (d.getTicket krb uid principal answers).1.Got principal) := by
  rw [KrbAuthDialog.getTicket]
  split_ifs
  · have hasked := @Krb5Client.asked_setCurrentPrincipal krb d.client principal
      answers.setenvResult
    have hclean := h.asked hcurrent hprincipal hasked
    refine ⟨hclean, fun hsuccess => ⟨hclean, ?_, htext⟩⟩
    dsimp only at hsuccess ⊢
    rw [hasked.current, hsuccess, if_pos rfl]
  · obtain ⟨hclean, hsame, hgot⟩ :=
      @Clean.ask krb uid d principal h hnames answers.kdc hcurrent hprincipal
    dsimp only
    split_ifs with hadded
    · exact ⟨hclean.setText, fun hsuccess =>
        ⟨hclean.setText, sameCaches_setText.current.trans (hgot hsuccess), .inl text_setText⟩⟩
    · exact ⟨hclean, fun hsuccess => ⟨hclean, hgot hsuccess, hsame ▸ htext⟩⟩

/-- A principal that is not ticked to be remembered is forgotten, but is signed in. -/
theorem Got.isForgettable (h : d.Got principal) : d.IsForgettable := by
  intro hkeys
  obtain htext | htext := h.text
  · exact .inr (htext.trans h.current.symm)
  · exact absurd (htext ▸ hkeys) h.clean.named

theorem Clean.trySignIn (h : d.Clean) (hnames : krb.KeepsNames) {answers : KrbAnswers} :
    (d.trySignIn krb uid d.text answers).1.Clean := by
  rw [KrbAuthDialog.trySignIn]
  split_ifs with hrefuses
  · exact h
  · obtain ⟨hclean, hgot⟩ := @Clean.getTicket krb uid (d.leaveCurrent answers.shown) d.text
      h.leaveCurrent hnames answers currPrincipal_leaveCurrent
      (fun hempty => hrefuses (.inl hempty)) text_leaveCurrent
    dsimp only
    split_ifs with hsuccess
    · exact hclean.rememberPrincipal fun _ _ => (hgot hsuccess).isForgettable
    · exact hclean

/-- If there is a connection, what is shown is all that changes. -/
theorem Clean.authenticate (h : d.Clean) (hnames : krb.KeepsNames) {answers : KrbAnswers}
    (hconnected : answers.connected = true) :
    (d.authenticate krb uid d.text answers).Clean := by
  have hclean := @Clean.trySignIn krb uid d h hnames answers
  rw [KrbAuthDialog.authenticate]
  dsimp only
  split_ifs
  · rw [onAuthenticated, if_pos hconnected]
    exact ⟨hclean.named, hclean.kept⟩
  · exact hclean

theorem Clean.onSignIn (h : d.Clean) (hnames : krb.KeepsNames) {answers : KrbAnswers}
    (hconnected : answers.connected = true) : (d.onSignIn krb uid answers).Clean := by
  rw [KrbAuthDialog.onSignIn]
  split
  · exact h.authenticate hnames hconnected
  · split_ifs
    · have hpassword : { d with password := d.newPassword }.Clean := ⟨h.named, h.kept⟩
      have hclean := @Clean.authenticate krb uid _ hpassword hnames answers hconnected
      exact ⟨hclean.named, hclean.kept⟩
    · exact h

/-- What is given to the client when a principal signs in. -/
def given (d : KrbAuthDialog) (principal : String) (answers : KrbAnswers) : Krb5Client.SignIn where
  principal := principal
  passwordMissing := d.passwordVisible && d.password = ""
  areCredsSaved := d.areCredsSaved
  first := answers.kdc (d.leaveCurrent answers.shown).password false
  second := answers.kdc (d.leaveCurrent answers.shown).password true
  setenvResult := answers.setenvResult

theorem client_ask {kdc : String → Bool → KinitAnswers} {signIn : Krb5Client.SignIn}
    (hprincipal : signIn.principal = principal) (hfirst : signIn.first = kdc d.password false)
    (hsecond : signIn.second = kdc d.password true) :
    (d.ask krb uid principal kdc).1.client = d.client.attempts krb uid signIn := by
  rw [KrbAuthDialog.ask, Krb5Client.attempts, hprincipal, hfirst, hsecond]
  generalize d.client.kinit krb uid principal false (kdc d.password false) = first
  obtain ⟨client, _ | firstError⟩ := first
  · rfl
  · dsimp only
    split_ifs
    · rfl
    · generalize client.kinit krb uid principal true (kdc d.password true) = second
      obtain ⟨client', _ | secondError⟩ := second
      · rfl
      · dsimp only
        split_ifs <;> rfl

theorem sameCaches_leaveCurrent {shown : Option String} :
    (if d.client.currPrincipal ≠ "" then
        d.client.logout (!d.areCredsSaved d.client.currPrincipal) else d.client).SameCaches
      (d.leaveCurrent shown).client := by
  rw [leaveCurrent]
  split_ifs
  · exact sameCaches_logout.logout
  · exact .refl

theorem sameCaches_getTicket {client : Krb5Client} {answers : KrbAnswers}
    {signIn : Krb5Client.SignIn} (h : client.SameCaches d.client)
    (hprincipal : signIn.principal = principal)
    (hfirst : signIn.first = answers.kdc d.password false)
    (hsecond : signIn.second = answers.kdc d.password true) :
    (if client.principalCacheMap.contains principal ∧ client.TicketActive principal then
        (client.setCurrentPrincipal krb principal answers.setenvResult).1
      else client.attempts krb uid signIn).SameCaches
        (d.getTicket krb uid principal answers).1.client := by
  have hactive : d.client.TicketActive principal ↔ client.TicketActive principal := by
    rw [Krb5Client.TicketActive, Krb5Client.TicketActive, h.tgtMap]
  have hask : (client.attempts krb uid signIn).SameCaches
      (d.ask krb uid principal answers.kdc).1.client := by
    rw [client_ask hprincipal hfirst hsecond]
    exact h.attempts
  rw [KrbAuthDialog.getTicket]
  simp only [h.cacheMap, hactive]
  split_ifs
  · exact h.setCurrentPrincipal
  · exact hask.trans sameCaches_setText
  · exact hask

/-- The dialog does to the client what signing in does, but for the temporary caches. -/
theorem sameCaches_trySignIn {answers : KrbAnswers} :
    (d.client.signIn krb uid (d.given principal answers)).SameCaches
      (d.trySignIn krb uid principal answers).1.client := by
  have hrefuses : d.Refuses principal ↔ (d.given principal answers).principal = "" ∨
      (d.given principal answers).principal = d.client.currPrincipal ∨
        (d.given principal answers).passwordMissing = true := by
    simp [Refuses, given]
  rw [Krb5Client.signIn, KrbAuthDialog.trySignIn]
  by_cases hrefused : d.Refuses principal
  · rw [if_pos (hrefuses.1 hrefused), if_pos hrefused]
    exact .refl
  · rw [if_neg fun hgiven => hrefused (hrefuses.2 hgiven), if_neg hrefused]
    have hticket := @sameCaches_getTicket krb uid _ principal _ answers (d.given principal answers)
      (@sameCaches_leaveCurrent d answers.shown) rfl rfl rfl
    refine hticket.trans ?_
    dsimp only
    split_ifs
    · exact ⟨_, rfl⟩
    · exact .refl

theorem Clean.onUseSystemCredentials {useSystem : Bool} (h : d.Clean) :
    (d.onUseSystemCredentials useSystem).Clean := by
  have hui : { d.switchUiToAuthentication.hidePasswdWidgets
      ((if useSystem then d.client.sysPrincipal else d.client.currPrincipal) ≠ "") with
        useSystem }.Clean := ⟨h.named, h.kept⟩
  exact hui.setText

theorem isForgettable_useSystem {useSystem : Bool} :
    (d.onUseSystemCredentials useSystem).IsForgettable := by
  intro _
  have hsame := @sameCaches_setText { d.switchUiToAuthentication.hidePasswdWidgets
      ((if useSystem then d.client.sysPrincipal else d.client.currPrincipal) ≠ "") with useSystem }
    (if useSystem then d.client.sysPrincipal else d.client.currPrincipal)
  rw [onUseSystemCredentials, text_setText, hsame.sys, hsame.current]
  cases useSystem with
  | true => exact .inl rfl
  | false => exact .inr rfl

end

/-! ## Runs -/

/-- What is done forgets no principal that still has a cache and is not signed in: the box is not
    unticked for one, and there is a connection after signing in. -/
def Spares (d : KrbAuthDialog) : KrbAuthEvent → Prop
  | .tickRemember checked => checked = false → d.text ∈ d.remembered → d.IsForgettable
  | .signIn answers => answers.connected = true
  | _ => True

theorem Clean.handle {krb : Krb5Library} {uid : ℕ} {d : KrbAuthDialog} {event : KrbAuthEvent}
    (h : d.Clean) (hnames : krb.KeepsNames) (hspares : d.Spares event) :
    (d.handle krb uid event).Clean := by
  cases event with
  | enterText text =>
    rw [KrbAuthDialog.handle]
    split_ifs
    · exact h
    · exact h.setText
  | editPassword password => exact ⟨h.named, h.kept⟩
  | editNewPassword password => exact ⟨h.named, h.kept⟩
  | editConfirm password => exact ⟨h.named, h.kept⟩
  | tickRemember checked =>
    rw [KrbAuthDialog.handle]
    split_ifs
    · exact h
    · exact h.setRememberChecked hspares
  | tickUseSystem checked =>
    rw [KrbAuthDialog.handle]
    split_ifs
    · exact h
    · exact h.onUseSystemCredentials
  | signIn answers => exact h.onSignIn hnames hspares
  | closeDialog => exact ⟨h.named, h.kept⟩
  | signOut shown => exact h.signOut
  | closeMain => exact h.closeMain

/-- Unticking the box is spared exactly if it leaves the caches that are kept clean. -/
theorem clean_tickRemember_iff {krb : Krb5Library} {uid : ℕ} {d : KrbAuthDialog} (h : d.Clean)
    (henabled : d.rememberDisabled = false) (hticked : d.rememberChecked = true) :
    (d.handle krb uid (.tickRemember false)).Clean ↔ d.Spares (.tickRemember false) := by
  have hhandle : d.handle krb uid (.tickRemember false) =
      { d with rememberChecked := false }.rememberPrincipal false := by
    have henabled' : ¬d.rememberDisabled = true := henabled ▸ Bool.false_ne_true
    have hticked' : ¬false = d.rememberChecked := hticked ▸ Bool.false_ne_true
    rw [handle, if_neg henabled', setRememberChecked, if_neg hticked']
  rw [hhandle]
  constructor
  · intro hclean _ _ hkeys
    obtain hsys | hcurrent | hmem := hclean.kept d.text hkeys
    · exact .inl hsys
    · exact .inr hcurrent
    · exact absurd rfl (mem_rememberPrincipal.1 hmem).2
  · have hunticked : { d with rememberChecked := false }.Clean := ⟨h.named, h.kept⟩
    exact fun hspares => hunticked.rememberPrincipal hspares

/-- The caches that are kept are those of principals that are remembered, and that of the
    system. -/
def KeepsRemembered (d : KrbAuthDialog) : Prop :=
  ∀ principal ∈ d.client.principalCacheMap.keys,
    principal = d.client.sysPrincipal ∨ principal ∈ d.remembered

/-- When nobody is signed in, only what is remembered is kept. -/
theorem Clean.keepsRemembered {d : KrbAuthDialog} (h : d.Clean)
    (hcurrent : d.client.currPrincipal = "") : d.KeepsRemembered := by
  intro principal hprincipal
  obtain hsys | heq | hmem := h.kept principal hprincipal
  · exact .inl hsys
  · rw [heq, hcurrent] at hprincipal
    exact absurd hprincipal h.named
  · exact .inr hmem

/-- A dialog that has been opened with a client. -/
def IsNew (client : Krb5Client) (remembered : List String) (d : KrbAuthDialog) : Prop :=
  ∃ first useSystem defaultPrincipal, d = new client remembered first useSystem defaultPrincipal

/-- The box is ticked as the settings have it for the principal that is signed in. -/
theorem IsNew.clean {client : Krb5Client} {remembered : List String} {d : KrbAuthDialog}
    (h : IsNew client remembered d) (hnamed : "" ∉ client.principalCacheMap.keys)
    (hkept : ∀ principal ∈ client.principalCacheMap.keys,
      principal = client.sysPrincipal ∨ principal = client.currPrincipal ∨
        principal ∈ remembered) : d.Clean := by
  obtain ⟨first, useSystem, defaultPrincipal, rfl⟩ := h
  set bare : KrbAuthDialog :=
    { client, remembered, text := first, password := "", newPassword := "", confirm := "",
      passwordVisible := true, rememberChecked := false, rememberDisabled := false,
      useSystem := true, state := .authentication }
  have hbare : bare.Clean := ⟨hnamed, hkept⟩
  have htold : (if useSystem then bare else bare.onUseSystemCredentials false).Clean := by
    split_ifs
    · exact hbare
    · exact hbare.onUseSystemCredentials
  have hset := fun checked => @Clean.setRememberChecked _ checked
    (@Clean.onUseSystemCredentials _ useSystem htold) fun _ _ => isForgettable_useSystem
  cases defaultPrincipal with
  | none => exact ⟨(hset _).named, (hset _).kept⟩
  | some principal => exact Clean.setText ⟨(hset _).named, (hset _).kept⟩

/-- In every run that spares what is remembered, the caches that are kept are those of principals
    that are remembered, of the one that is signed in and of the system; signing out and closing
    the main window leave out the second ones. -/
theorem clean_of_run (krb : Krb5Library) (uid : ℕ) (client : Krb5Client)
    (remembered : List String) (d : KrbAuthDialog) (hnames : krb.KeepsNames)
    (hnamed : "" ∉ client.principalCacheMap.keys)
    (hkept : ∀ principal ∈ client.principalCacheMap.keys, principal = client.sysPrincipal ∨
      principal = client.currPrincipal ∨ principal ∈ remembered)
    (h : Run (IsNew client remembered) Spares (handle krb uid) d) :
    d.Clean ∧ (∀ shown, (d.signOut shown).KeepsRemembered) ∧ d.closeMain.KeepsRemembered := by
  have hclean : d.Clean :=
    h.invariant (fun _ hnew => hnew.clean hnamed hkept) fun _ _ hd hspares =>
      hd.handle hnames hspares
  exact ⟨hclean, fun shown => hclean.signOut.keepsRemembered rfl,
    hclean.closeMain.keepsRemembered rfl⟩

open Krb5Client (sampleKrb keepsNames_sampleKrb emptyProcess ticketReceived wrongPassword)

/-- There is a ticket for one password. -/
def onePassword : KrbAnswers where
  kdc password _ := if password = "p" then ticketReceived "A" else wrongPassword
  setenvResult := 0
  shown := none
  comboEmpty := false
  connected := true
  encodes := true
  changes := true

/-- A dialog that has signed in, and does not remember the principal. -/
def signedIn : KrbAuthDialog :=
  [.enterText "u@A", .editPassword "p", .signIn onePassword].foldl (handle sampleKrb 1000)
    (new emptyProcess [] "" false none)

theorem clean_of_run_unremembered :
    signedIn.client.principalCacheMap.keys = ["u@A"] ∧ signedIn.Clean ∧
      (∀ shown, (signedIn.signOut shown).KeepsRemembered) ∧
        signedIn.closeMain.KeepsRemembered := by
  have hnew : Run (IsNew emptyProcess []) Spares (handle sampleKrb 1000)
      (new emptyProcess [] "" false none) := .start ⟨"", false, none, rfl⟩
  have htext := hnew.next (a := KrbAuthEvent.enterText "u@A") trivial
  have hpassword := htext.next (a := KrbAuthEvent.editPassword "p") trivial
  have hsignIn := hpassword.next (a := KrbAuthEvent.signIn onePassword) rfl
  exact ⟨by decide, clean_of_run sampleKrb 1000 emptyProcess [] signedIn keepsNames_sampleKrb
    (by decide) (by decide) hsignIn⟩

end KrbAuthDialog

end Admc
