import Admc.Kerberos.SignInRuns

/-!
# Signing in as somebody else

Signing out clears what has been entered, if the principal that is signed in is not remembered, and
the dialog signs out before it asks for a ticket.

* `KrbAuthDialog.lost_of_unremembered`: so the password for the next principal is lost, with the
  credentials of the first.
-/

namespace Admc

namespace KrbAuthDialog

open Krb5Client (sampleKrb)

/-- Nobody is signed in. No cache is kept for the principal that was to be signed in, nor for the
    one that was signed in before, unless it is that of the system. -/
structure SignedOut (before after : KrbAuthDialog) : Prop where
  current : after.client.currPrincipal = ""
  password : after.password = ""
  keys : ∀ key ∈ after.client.principalCacheMap.keys,
    key ∈ before.client.principalCacheMap.keys ∧ key ≠ before.text ∧
      (key = before.client.currPrincipal → key = before.client.sysPrincipal)

section
variable {krb : Krb5Library} {uid : ℕ} {d : KrbAuthDialog} {principal text : String}
  {shown : Option String}

@[simp] theorem password_setRememberChecked {checked : Bool} :
    (d.setRememberChecked checked).password = d.password := by
  rw [setRememberChecked]
  split_ifs <;> rfl

/-- Another text clears the password. -/
theorem password_setText (h : text ≠ d.text) : (d.setText text).password = "" := by
  rw [setText, if_neg h]
  exact password_setRememberChecked

theorem setText_password (h : text ≠ d.text) (password : String) :
    { d with password }.setText text = d.setText text := by
  rw [setText, if_neg h, setText, if_neg h]
  rfl

theorem setText_self (h : d.text = text) : d.setText text = d := if_pos h.symm

theorem password_logout (h : d.text ≠ "") : (d.logout true shown).password = "" := by
  cases shown with
  | none => exact password_setText h.symm
  | some text =>
    change ((d.setText text).setText "").password = ""
    by_cases hempty : text = ""
    · -- the removal of the item has left no text
      rw [setText_self (text_setText.trans hempty)]
      exact password_setText (hempty.trans_ne h.symm)
    · refine password_setText ?_
      rw [text_setText]
      exact Ne.symm hempty

theorem logout_password (h : d.text ≠ "") (password : String) :
    { d with password }.logout true shown = d.logout true shown := by
  cases shown with
  | none => exact setText_password h.symm password
  | some text =>
    change ({ d with password }.setText text).setText "" = (d.setText text).setText ""
    by_cases hsame : d.text = text
    · have hkept : { d with password }.setText text = { d with password } := setText_self hsame
      rw [hkept, setText_self hsame]
      exact setText_password h.symm password
    · rw [setText_password (Ne.symm hsame)]

theorem leaveCurrent_of_unsaved (hcurrent : d.client.currPrincipal ≠ "")
    (hunsaved : d.areCredsSaved d.client.currPrincipal = false) :
    d.leaveCurrent shown =
      { d.logout true shown with client := (d.logout true shown).client.logout true } := by
  rw [leaveCurrent, if_pos hcurrent, signOut, hunsaved]
  rfl

/-- What has been entered as the password is lost. -/
theorem leaveCurrent_password (hcurrent : d.client.currPrincipal ≠ "")
    (hunsaved : d.areCredsSaved d.client.currPrincipal = false) (htext : d.text ≠ "")
    {password : String} : { d with password }.leaveCurrent shown = d.leaveCurrent shown := by
  have hunsaved' : { d with password }.areCredsSaved d.client.currPrincipal = false := hunsaved
  have hleave := @leaveCurrent_of_unsaved { d with password } shown hcurrent hunsaved'
  rw [hleave, leaveCurrent_of_unsaved hcurrent hunsaved, logout_password htext]

theorem password_leaveCurrent (hcurrent : d.client.currPrincipal ≠ "")
    (hunsaved : d.areCredsSaved d.client.currPrincipal = false) (htext : d.text ≠ "") :
    (d.leaveCurrent shown).password = "" := by
  rw [leaveCurrent_of_unsaved hcurrent hunsaved]
  exact password_logout htext

/-- The credentials of the principal that was signed in are lost. -/
theorem mem_keys_leaveCurrent {key : String} (hcurrent : d.client.currPrincipal ≠ "")
    (hunsaved : d.areCredsSaved d.client.currPrincipal = false)
    (hkey : key ∈ (d.leaveCurrent shown).client.principalCacheMap.keys) :
    key ∈ d.client.principalCacheMap.keys ∧
      (key = d.client.currPrincipal → key = d.client.sysPrincipal) := by
  have hsame := @sameCaches_logout d true shown
  rw [leaveCurrent_of_unsaved hcurrent hunsaved, Krb5Client.mem_keys_logout, hsame.cacheMap,
    hsame.current, hsame.sys] at hkey
  refine ⟨hkey.1, ?_⟩
  rintro rfl
  by_contra hne
  exact hkey.2 ⟨rfl, hne⟩ rfl

theorem ticketActive_of_leaveCurrent (hcurrent : d.client.currPrincipal ≠ "")
    (hunsaved : d.areCredsSaved d.client.currPrincipal = false)
    (h : (d.leaveCurrent shown).client.TicketActive principal) :
    d.client.TicketActive principal := by
  rw [leaveCurrent_of_unsaved hcurrent hunsaved] at h
  have hlogout := Krb5Client.ticketActive_of_logout h
  rwa [Krb5Client.TicketActive, (@sameCaches_logout d true shown).tgtMap] at hlogout

/-- A wrong password leaves less than there was. -/
theorem ask_of_wrongPassword {kdc : String → Bool → KinitAnswers}
    (h : ∀ enterprise, ∃ res, (kdc d.password enterprise).initCreds = .error res) :
    (d.ask krb uid principal kdc).2 = false ∧
      (d.ask krb uid principal kdc).1.password = d.password ∧
      (d.ask krb uid principal kdc).1.client.currPrincipal = d.client.currPrincipal ∧
      ∀ key ∈ (d.ask krb uid principal kdc).1.client.principalCacheMap.keys,
        key ≠ principal ∧ key ∈ d.client.principalCacheMap.keys := by
  obtain ⟨firstError, hfirst⟩ :=
    @Krb5Client.kinit_eq_destroyCache krb uid d.client principal _ _ (h false)
  obtain ⟨secondError, hsecond⟩ :=
    @Krb5Client.kinit_eq_destroyCache krb uid (d.client.destroyCache principal) principal _ _
      (h true)
  have hcurrent : ∀ client : Krb5Client,
      (client.destroyCache principal).currPrincipal = client.currPrincipal :=
    fun _ => Krb5Client.currPrincipal_destroyCache
  rw [ask, hfirst]
  dsimp only
  split_ifs
  · exact ⟨rfl, rfl, hcurrent _, fun key hkey => Krb5Client.mem_keys_destroyCache.1 hkey⟩
  · rw [hsecond]
    dsimp only
    have hkeys : ∀ key ∈ ((d.client.destroyCache principal).destroyCache
        principal).principalCacheMap.keys,
        key ≠ principal ∧ key ∈ d.client.principalCacheMap.keys := fun key hkey =>
      Krb5Client.mem_keys_destroyCache.1 (Krb5Client.mem_keys_destroyCache.1 hkey).2
    split_ifs
    · exact ⟨rfl, rfl, (hcurrent _).trans (hcurrent _), hkeys⟩
    · exact ⟨rfl, rfl, (hcurrent _).trans (hcurrent _), hkeys⟩

/-- If no ticket is got, nothing more is done. -/
theorem authenticate_eq_ask {answers : KrbAnswers} (hrefuses : ¬d.Refuses principal)
    (hticket : ¬((d.leaveCurrent answers.shown).client.principalCacheMap.contains principal ∧
      (d.leaveCurrent answers.shown).client.TicketActive principal))
    (hfails : ((d.leaveCurrent answers.shown).ask krb uid principal answers.kdc).2 = false) :
    d.authenticate krb uid principal answers =
      ((d.leaveCurrent answers.shown).ask krb uid principal answers.kdc).1 := by
  rw [authenticate, trySignIn, if_neg hrefuses, getTicket, if_neg hticket]
  dsimp only
  rw [hfails]
  rfl

end

/-- When a principal that is not remembered is signed in, a dialog that signs in with another one
    signs out the first and destroys its credentials, and has cleared the password before it asks
    for a ticket with it: which password has been entered makes no difference, and if the empty
    one is wrong, nobody is signed in any more. -/
theorem lost_of_unremembered (krb : Krb5Library) (uid : ℕ) (d : KrbAuthDialog)
    (answers : KrbAnswers) (hstate : d.state = .authentication) (hrefuses : ¬d.Refuses d.text)
    (hcurrent : d.client.currPrincipal ≠ "")
    (hunsaved : d.areCredsSaved d.client.currPrincipal = false) :
    (∀ password ≠ "", { d with password }.handle krb uid (.signIn answers) =
      d.handle krb uid (.signIn answers)) ∧
    (¬(d.client.principalCacheMap.contains d.text ∧ d.client.TicketActive d.text) →
      (∀ enterprise, ∃ res, (answers.kdc "" enterprise).initCreds = .error res) →
      d.SignedOut (d.handle krb uid (.signIn answers))) := by
  have htext : d.text ≠ "" := fun hempty => hrefuses (.inl hempty)
  have hsignIn : ∀ password, { d with password }.handle krb uid (.signIn answers) =
      { d with password }.authenticate krb uid d.text answers := by
    intro password
    rw [handle, onSignIn]
    dsimp only
    rw [hstate]
  constructor
  · intro password hpassword
    have hrefuses' : ¬{ d with password }.Refuses d.text := fun hrefused =>
      hrefuses (hrefused.imp_right (Or.imp_right fun hmissing => absurd hmissing.2 hpassword))
    refine (hsignIn password).trans (Eq.trans ?_ (hsignIn d.password).symm)
    rw [authenticate, trySignIn, if_neg hrefuses', authenticate, trySignIn, if_neg hrefuses,
      leaveCurrent_password hcurrent hunsaved htext]
  · intro hticket hempty
    have hpassword := @password_leaveCurrent d answers.shown hcurrent hunsaved htext
    obtain ⟨hfails, hasked, hnobody, hforgotten⟩ := @ask_of_wrongPassword krb uid
      (d.leaveCurrent answers.shown) d.text answers.kdc (hpassword ▸ hempty)
    have hauthenticate := authenticate_eq_ask hrefuses (fun hactive => hticket
      ⟨QHash.contains_iff.2 (mem_keys_leaveCurrent hcurrent hunsaved
        (QHash.contains_iff.1 hactive.1)).1,
      ticketActive_of_leaveCurrent hcurrent hunsaved hactive.2⟩) hfails
    rw [hsignIn d.password, hauthenticate]
    refine ⟨hnobody.trans currPrincipal_leaveCurrent, hasked.trans hpassword, fun key hkey => ?_⟩
    obtain ⟨hne, hkept⟩ := hforgotten key hkey
    obtain ⟨hbefore, hsystem⟩ := mem_keys_leaveCurrent hcurrent hunsaved hkept
    exact ⟨hbefore, hne, hsystem⟩

/-- The next principal has been entered, with the password. -/
def nextEntered : KrbAuthDialog :=
  [.enterText "v@A", .editPassword "p"].foldl (handle sampleKrb 1000) signedIn

theorem lost_of_unremembered_next :
    nextEntered.client.currPrincipal = "u@A" ∧
      nextEntered.SignedOut (nextEntered.handle sampleKrb 1000 (.signIn onePassword)) :=
  ⟨by decide, (lost_of_unremembered sampleKrb 1000 nextEntered onePassword (by decide) (by decide)
    (by decide) (by decide)).2 (by decide) fun enterprise => ⟨-1765328360, rfl⟩⟩

/-- If the first one is remembered, the next one is signed in. -/
example : ((signedIn.handle sampleKrb 1000 (.tickRemember true)).handle sampleKrb 1000
    (.enterText "v@A") |>.handle sampleKrb 1000 (.editPassword "p")
    |>.handle sampleKrb 1000 (.signIn onePassword)).client.currPrincipal = "v@A" := by
  decide

end KrbAuthDialog

end Admc
