import Admc.Kerberos.SelectedCache

/-!
# Authentications that fail

`Krb5ClientImpl::kinit` destroys the cache that it keeps for a principal, and forgets it, before
it asks for credentials. When a call fails after that, nothing is undone.

* `credentialsKept_iff`: a failed authentication leaves the credentials as they were exactly if
  nothing was kept for the principal, and no other content was in the file of its cache when
  that was initialized.
* `active_kept_of_wrongPassword`: the dialog does not authenticate a principal with a ticket that
  it knows to be active. With a wrong password, it takes no such ticket from any principal,
  unless two principals share a cache.
-/

namespace Admc

namespace Krb5Client

section
variable (krb : Krb5Library) (uid : ℕ) (client : Krb5Client) (principal : String)
  (enterprise : Bool) (answers : KinitAnswers)

/-- The principals that are known, the one that is used, and what is in the caches that were
    there, are as before. -/
structure CredentialsKept (before after : Krb5Client) : Prop where
  principalTgtMap : after.principalTgtMap = before.principalTgtMap
  principalCacheMap : after.principalCacheMap = before.principalCacheMap
  currPrincipal : after.currPrincipal = before.currPrincipal
  krb5ccname : after.krb5ccname = before.krb5ccname
  caches : ∀ ccache content, before.caches ccache = some content →
    after.caches ccache = some content

/-- What has been written to the cache of a principal when the authentication fails: nothing
    before the cache has been initialized, and credentials if these could be stored. -/
def writtenContent? : Option CcacheContent :=
  match krb.parseName principal enterprise, answers.initCreds, answers.resolveError,
    answers.initializeError with
  | .ok princ, .ok creds, none, none =>
    some ⟨princ, if answers.storeCredError.isSome then [] else [creds]⟩
  | _, _, _, _ => none

/-- Nothing is kept for the principal, and the file of its cache is not there when it is
    initialized, unless it has just what is written to it. -/
structure HasNothingToLose : Prop where
  cache : principal ∉ client.principalCacheMap.keys
  tgt : principal ∉ client.principalTgtMap.keys
  file : ∀ written ∈ writtenContent? krb principal enterprise answers,
    ∀ content, client.caches (principalCcache uid principal) = some content → content = written

end

section
variable {krb : Krb5Library} {uid : ℕ} {client : Krb5Client} {principal : String}
  {enterprise : Bool} {answers : KinitAnswers}

/-- The client after an authentication that failed. -/
theorem kinit_of_error {error : KerberosError}
    (h : (client.kinit krb uid principal enterprise answers).2 = some error) :
    (client.kinit krb uid principal enterprise answers).1 =
      match writtenContent? krb principal enterprise answers with
      | none => client.destroyCache principal
      | some content =>
        (client.destroyCache principal).setContent (principalCcache uid principal) content := by
  rw [kinit] at h ⊢
  rw [writtenContent?]
  dsimp only at h ⊢
  cases hparse : krb.parseName principal enterprise with
  | error res => rfl
  | ok princ =>
    cases hcreds : answers.initCreds with
    | error res => rfl
    | ok creds =>
      cases hresolve : answers.resolveError with
      | some res => rfl
      | none =>
        cases hinitialize : answers.initializeError with
        | some res => rfl
        | none =>
          rw [hparse, hcreds, hresolve, hinitialize] at h
          dsimp only at h ⊢
          cases hstore : answers.storeCredError with
          | some res => rfl
          | none =>
            rw [hstore] at h
            dsimp only at h ⊢
            -- only the environment can still refuse
            cases hsetenv : answers.setenvFails with
            | true =>
              rw [if_pos rfl, ccStoreCred_ccInitialize]
              rfl
            | false =>
              rw [hsetenv, if_neg Bool.false_ne_true] at h
              cases h

theorem remove_eq_self_iff {ν : Type} {hash : QHash String ν} :
    hash.remove principal = hash ↔ principal ∉ hash.keys := by
  rw [QHash.remove, List.filter_eq_self, QHash.keys, List.mem_map]
  constructor
  · rintro h ⟨entry, hmem, hkey⟩
    exact of_decide_eq_true (h entry hmem) hkey
  · exact fun h entry hmem => decide_eq_true fun hkey => h ⟨entry, hmem, hkey⟩

theorem principalTgtMap_destroyCache : (client.destroyCache principal).principalTgtMap =
    client.principalTgtMap.remove principal := by
  rw [destroyCache]
  cases client.principalCacheMap.lookup principal <;> rfl

theorem principalCacheMap_destroyCache : (client.destroyCache principal).principalCacheMap =
    client.principalCacheMap.remove principal := by
  rw [destroyCache]
  cases client.principalCacheMap.lookup principal <;> rfl

theorem currPrincipal_destroyCache :
    (client.destroyCache principal).currPrincipal = client.currPrincipal := by
  rw [destroyCache]
  cases client.principalCacheMap.lookup principal <;> rfl

theorem krb5ccname_destroyCache :
    (client.destroyCache principal).krb5ccname = client.krb5ccname := by
  rw [destroyCache]
  cases client.principalCacheMap.lookup principal <;> rfl

/-- Nothing is destroyed for a principal without a cache. -/
theorem caches_destroyCache_of_not_mem_keys (h : principal ∉ client.principalCacheMap.keys) :
    (client.destroyCache principal).caches = client.caches := by
  have hlookup : client.principalCacheMap.lookup principal = none := by
    rw [List.lookup_eq_none_iff]
    intro entry hmem
    refine bne_iff_ne.2 fun hkey => h ?_
    exact hkey ▸ List.mem_map_of_mem hmem
  rw [destroyCache, hlookup]

/-- The maps tell that the principal has been forgotten. -/
theorem CredentialsKept.not_mem_keys {after : Krb5Client} (h : CredentialsKept client after)
    (hcache : after.principalCacheMap = client.principalCacheMap.remove principal)
    (htgt : after.principalTgtMap = client.principalTgtMap.remove principal) :
    principal ∉ client.principalCacheMap.keys ∧ principal ∉ client.principalTgtMap.keys :=
  ⟨remove_eq_self_iff.1 (hcache.symm.trans h.principalCacheMap),
    remove_eq_self_iff.1 (htgt.symm.trans h.principalTgtMap)⟩

theorem credentialsKept_destroyCache_iff :
    CredentialsKept client (client.destroyCache principal) ↔
      principal ∉ client.principalCacheMap.keys ∧ principal ∉ client.principalTgtMap.keys where
  mp h := h.not_mem_keys principalCacheMap_destroyCache principalTgtMap_destroyCache
  mpr h :=
    { principalTgtMap := principalTgtMap_destroyCache.trans (remove_eq_self_iff.2 h.2)
      principalCacheMap := principalCacheMap_destroyCache.trans (remove_eq_self_iff.2 h.1)
      currPrincipal := currPrincipal_destroyCache
      krb5ccname := krb5ccname_destroyCache
      caches := fun ccache content hcontent => by
        rwa [caches_destroyCache_of_not_mem_keys h.1] }

theorem caches_setContent {ccache other : Ccache} {content : CcacheContent} :
    (client.setContent ccache content).caches other =
      if other = ccache then some content else client.caches other :=
  Function.update_apply _ _ _ _

theorem credentialsKept_setContent_iff {ccache : Ccache} {written : CcacheContent} :
    CredentialsKept client ((client.destroyCache principal).setContent ccache written) ↔
      (principal ∉ client.principalCacheMap.keys ∧ principal ∉ client.principalTgtMap.keys) ∧
        ∀ content, client.caches ccache = some content → content = written := by
  constructor
  · intro h
    refine ⟨h.not_mem_keys principalCacheMap_destroyCache principalTgtMap_destroyCache,
      fun content hcontent => ?_⟩
    have hcaches := h.caches ccache content hcontent
    rw [caches_setContent, if_pos rfl] at hcaches
    exact (Option.some.inj hcaches).symm
  · rintro ⟨hkeys, hwritten⟩
    have hkept := credentialsKept_destroyCache_iff.2 hkeys
    refine ⟨hkept.principalTgtMap, hkept.principalCacheMap, hkept.currPrincipal, hkept.krb5ccname,
      fun other content hcontent => ?_⟩
    rw [caches_setContent]
    split_ifs with hother
    · exact congrArg some (hwritten content (hother ▸ hcontent)).symm
    · exact hkept.caches other content hcontent

end

/-- A failed authentication leaves the credentials as they were exactly if there was nothing to
    lose: no cache or ticket of the principal is known, and no other content is overwritten. -/
theorem credentialsKept_iff (krb : Krb5Library) (uid : ℕ) (client : Krb5Client)
    (principal : String) (enterprise : Bool) (answers : KinitAnswers) (error : KerberosError)
    (h : (client.kinit krb uid principal enterprise answers).2 = some error) :
    CredentialsKept client (client.kinit krb uid principal enterprise answers).1 ↔
      client.HasNothingToLose krb uid principal enterprise answers := by
  rw [kinit_of_error h]
  cases hwritten : writtenContent? krb principal enterprise answers with
  | none =>
    refine credentialsKept_destroyCache_iff.trans ⟨fun hkeys => ⟨hkeys.1, hkeys.2, ?_⟩,
      fun hlose => ⟨hlose.cache, hlose.tgt⟩⟩
    rw [hwritten]
    exact nofun
  | some written =>
    refine credentialsKept_setContent_iff.trans ⟨fun hkept => ⟨hkept.1.1, hkept.1.2, ?_⟩,
      fun hlose => ⟨⟨hlose.cache, hlose.tgt⟩, hlose.file written hwritten⟩⟩
    rintro other hother
    obtain rfl := Option.some.inj (hwritten.symm.trans hother)
    exact hkept.2

/-- The password is wrong. -/
def wrongPassword : KinitAnswers := { ticketReceived "A" with initCreds := .error (-1765328360) }

/-- The first attempt of a principal. -/
theorem credentialsKept_iff_firstAttempt :
    CredentialsKept emptyProcess
      (emptyProcess.kinit sampleKrb 1000 "u@A" false wrongPassword).1 ↔
      emptyProcess.HasNothingToLose sampleKrb 1000 "u@A" false wrongPassword :=
  credentialsKept_iff sampleKrb 1000 emptyProcess "u@A" false wrongPassword
    ⟨"Authentication failed: ", -1765328360⟩ (by decide)

/-- A wrong password costs a user who has authenticated before the ticket. -/
theorem not_credentialsKept : ¬∀ (krb : Krb5Library) (uid : ℕ) (client : Krb5Client)
    (principal : String) (enterprise : Bool) (answers : KinitAnswers) (error : KerberosError),
    (client.kinit krb uid principal enterprise answers).2 = some error →
      CredentialsKept client (client.kinit krb uid principal enterprise answers).1 := by
  intro h
  have hkept := h sampleKrb 1000 clientOfA "u@A" false wrongPassword
    ⟨"Authentication failed: ", -1765328360⟩ (by decide)
  have hcontent : clientOfA.caches (principalCcache 1000 "u@A") =
      some ⟨⟨["u"], "A"⟩, [⟨krbtgt "A", 0, 36000, 604800⟩]⟩ := by
    decide
  have hlost : (clientOfA.kinit sampleKrb 1000 "u@A" false wrongPassword).1.caches
      (principalCcache 1000 "u@A") = none := by
    decide
  exact absurd (hlost.symm.trans (hkept.caches _ _ hcontent)) nofun

/-! ## Signing in -/

/-- `KRB5KDC_ERR_KEY_EXP`. -/
def krb5kdcErrKeyExp : ℤ := -1765328361

/-- What is given for signing in: what has been entered, the settings, and the answers to both
    attempts and to the selection of a principal. -/
structure SignIn where
  principal : String
  passwordMissing : Bool
  areCredsSaved : String → Bool
  first : KinitAnswers
  second : KinitAnswers
  setenvResult : ℤ

/-- The ticket of a principal is active, as far as the client knows. -/
def TicketActive (client : Krb5Client) (principal : String) : Prop :=
  (client.principalTgtMap.lookup principal).map Krb5TGTData.state = some .active

instance decidableTicketActive (client : Krb5Client) (principal : String) :
    Decidable (client.TicketActive principal) :=
  inferInstanceAs (Decidable (_ = _))

/-- The attempts to authenticate, the second one with the enterprise name. -/
def attempts (krb : Krb5Library) (uid : ℕ) (client : Krb5Client) (signIn : SignIn) : Krb5Client :=
  match client.kinit krb uid signIn.principal false signIn.first with
  | (client, none) => client
  | (client, some firstError) =>
    if firstError.errorCode = krb5kdcErrKeyExp then client
    else (client.kinit krb uid signIn.principal true signIn.second).1

/-- The client after `KrbAuthDialog::authenticate`. -/
def signIn (krb : Krb5Library) (uid : ℕ) (client : Krb5Client) (signIn : SignIn) : Krb5Client :=
  if signIn.principal = "" ∨ signIn.principal = client.currPrincipal ∨
      signIn.passwordMissing = true then client
  else
    let client := if client.currPrincipal ≠ "" then
        client.logout (!signIn.areCredsSaved client.currPrincipal)
      else client
    if client.principalCacheMap.contains signIn.principal ∧
        client.TicketActive signIn.principal then
      (client.setCurrentPrincipal krb signIn.principal signIn.setenvResult).1
    else client.attempts krb uid signIn

section
variable {krb : Krb5Library} {uid : ℕ} {client : Krb5Client} {principal : String}
  {enterprise : Bool} {answers : KinitAnswers}

/-- With a wrong password, an authentication only forgets the principal. -/
theorem kinit_eq_destroyCache (h : ∃ res, answers.initCreds = .error res) :
    ∃ error, client.kinit krb uid principal enterprise answers =
      (client.destroyCache principal, some error) := by
  obtain ⟨-, herror⟩ | ⟨⟨-, ⟨creds, hcreds⟩, -⟩, -⟩ :=
    @kinit_cases krb uid client principal enterprise answers
  · exact herror
  · obtain ⟨res, hres⟩ := h
    exact absurd (hcreds.symm.trans hres) nofun

theorem kinit_of_wrongPassword (h : ∃ res, answers.initCreds = .error res) :
    (client.kinit krb uid principal enterprise answers).1 = client.destroyCache principal := by
  obtain ⟨error, heq⟩ := @kinit_eq_destroyCache krb uid client principal enterprise answers h
  rw [heq]

/-- What the client knows and has of a principal. -/
structure TicketKept (before after : Krb5Client) (principal : String) (ccache : Ccache) : Prop where
  cache : after.principalCacheMap.lookup principal = before.principalCacheMap.lookup principal
  tgt : after.principalTgtMap.lookup principal = before.principalTgtMap.lookup principal
  content : after.caches ccache = before.caches ccache

theorem TicketKept.trans {before between after : Krb5Client} {ccache : Ccache}
    (h : TicketKept before between principal ccache)
    (h' : TicketKept between after principal ccache) :
    TicketKept before after principal ccache :=
  ⟨h'.cache.trans h.cache, h'.tgt.trans h.tgt, h'.content.trans h.content⟩

/-- Forgetting another principal leaves the ticket, if the cache is not the same. -/
theorem ticketKept_destroyCache {other : String} {ccache : Ccache} (hne : principal ≠ other)
    (h : client.principalCacheMap.lookup other ≠ some ccache) :
    TicketKept client (client.destroyCache other) principal ccache where
  cache := by rw [principalCacheMap_destroyCache, QHash.lookup_remove, if_neg hne]
  tgt := by rw [principalTgtMap_destroyCache, QHash.lookup_remove, if_neg hne]
  content := caches_destroyCache h

/-- With a wrong password, both attempts leave the tickets of the other principals in caches of
    their own. -/
theorem ticketKept_attempts {signIn : SignIn} {ccache : Ccache}
    (hfirst : ∃ res, signIn.first.initCreds = .error res)
    (hsecond : ∃ res, signIn.second.initCreds = .error res) (hne : principal ≠ signIn.principal)
    (h : client.principalCacheMap.lookup signIn.principal ≠ some ccache) :
    TicketKept client (client.attempts krb uid signIn) principal ccache := by
  have hkept := ticketKept_destroyCache hne h
  have hagain : TicketKept (client.destroyCache signIn.principal)
      ((client.destroyCache signIn.principal).destroyCache signIn.principal) principal ccache := by
    refine ticketKept_destroyCache hne ?_
    rw [lookup_destroyCache, if_pos rfl]
    exact nofun
  have hclient := @kinit_of_wrongPassword krb uid client signIn.principal false signIn.first hfirst
  rw [attempts]
  cases hkinit : client.kinit krb uid signIn.principal false signIn.first with
  | mk client' error =>
    rw [hkinit] at hclient
    obtain rfl := hclient
    cases error with
    | none => exact hkept
    | some firstError =>
      dsimp only
      split_ifs
      · exact hkept
      · rw [kinit_of_wrongPassword hsecond]
        exact hkept.trans hagain

theorem ticketKept_setCurrentPrincipal {other : String} {ccache : Ccache} {setenvResult : ℤ} :
    TicketKept client (client.setCurrentPrincipal krb other setenvResult).1 principal ccache := by
  obtain ⟨error, heq⟩ | ⟨ccache', -, heq⟩ :=
    @setCurrentPrincipal_cases krb client other setenvResult
  · rw [heq]
    exact ⟨rfl, rfl, rfl⟩
  · rw [heq]
    exact ⟨rfl, rfl, rfl⟩

/-- When nobody is signed in, signing in with a wrong password leaves each ticket that is known
    to be active and in a cache of its own, also that of the principal. -/
theorem active_kept_of_wrongPassword {signIn : SignIn} {ccache : Ccache}
    (hcurrent : client.currPrincipal = "")
    (hfirst : ∃ res, signIn.first.initCreds = .error res)
    (hsecond : ∃ res, signIn.second.initCreds = .error res)
    (hlookup : client.principalCacheMap.lookup principal = some ccache)
    (hactive : client.TicketActive principal)
    (hown : ∀ other ≠ principal, client.principalCacheMap.lookup other ≠ some ccache) :
    TicketKept client (client.signIn krb uid signIn) principal ccache := by
  rw [Krb5Client.signIn]
  dsimp only
  rw [if_neg (not_not.2 hcurrent)]
  split_ifs with hrefused hknown
  · exact ⟨rfl, rfl, rfl⟩
  · exact ticketKept_setCurrentPrincipal
  · have hne : principal ≠ signIn.principal := by
      rintro rfl
      refine hknown ⟨QHash.contains_iff.2 ?_, hactive⟩
      obtain ⟨before, after, hmap, -⟩ := List.lookup_eq_some_iff.1 hlookup
      rw [hmap, QHash.keys, List.map_append, List.map_cons]
      exact List.mem_append_right _ List.mem_cons_self
    exact ticketKept_attempts hfirst hsecond hne (hown _ hne.symm)

end

end Krb5Client

end Admc
