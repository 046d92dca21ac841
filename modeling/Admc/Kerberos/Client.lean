import Admc.Config
import Admc.Lib.Run
import Mathlib.Data.List.Infix
import Mathlib.Logic.Function.Basic

/-!
# The Kerberos client

`Krb5Client` keeps a credential cache for each principal: the default cache of the session, the
caches that earlier sessions have left, and those it creates when a principal authenticates.
Which of them is used is told to the Kerberos library with the variable `KRB5CCNAME`.

* The name of a cache denotes one store. What the calls of the library do to it is
  `Krb5Client.ccInitialize`, `Krb5Client.ccStoreCred` and `Krb5Client.ccDestroy`; whether they
  succeed is given with each operation, and a call that fails changes nothing.
* Each operation is a function on the state of the process, and may throw an error after it
  has changed something.
-/

namespace Admc

/-! ## The library -/

/-- `krb5_principal`. -/
structure KrbPrincipal where
  components : List String
  realm : String
  deriving DecidableEq

/-- `krb5_creds`: the server that they are for, with the times. -/
structure KrbCreds where
  server : KrbPrincipal
  starttime : ℤ
  endtime : ℤ
  renewTill : ℤ
  deriving DecidableEq

/-- `krb5_ccache`: the type of a cache, and the rest of its name. -/
structure Ccache where
  type : String
  name : String
  deriving DecidableEq

/-- What is in a cache: the principal, and its credentials. -/
structure CcacheContent where
  principal : KrbPrincipal
  creds : List KrbCreds
  deriving DecidableEq

/-- The functions of the library on names, and the texts of its errors. -/
structure Krb5Library where
  parseName : String → Bool → Except ℤ KrbPrincipal
  unparseName : KrbPrincipal → Except ℤ String
  errorMessage : ℤ → String

/-- Principals are not renamed: the name of a principal that is parsed is the one it has been
    parsed from. -/
def Krb5Library.KeepsNames (krb : Krb5Library) : Prop :=
  ∀ name enterprise principal, krb.parseName name enterprise = .ok principal →
    krb.unparseName principal = .ok name

/-- The principal of the service that grants tickets for a realm. -/
def krbtgt (realm : String) : KrbPrincipal := ⟨["krbtgt", realm], realm⟩

/-! ## The state of the client -/

/-- `Krb5TgtState`. -/
inductive Krb5TgtState
  | active
  | expired
  | outdated
  | invalid
  deriving DecidableEq

/-- `Krb5TGTData`. -/
structure Krb5TGTData where
  state : Krb5TgtState
  principal : String
  realm : String
  starts : ℤ
  expires : ℤ
  renewUntil : ℤ
  deriving DecidableEq

/-- `KerberosError`. -/
structure KerberosError where
  message : String
  errorCode : ℤ
  deriving DecidableEq

/-- The state of the process: the stores of all caches, the variable `KRB5CCNAME`, the static
    variables of the client and its fields. The caches that have been destroyed are recorded. -/
structure Krb5Client where
  caches : Ccache → Option CcacheContent
  krb5ccname : Option Ccache
  destroyed : List Ccache
  sysCcache : Option Ccache
  krbTempCaches : List String
  currPrincipal : String
  sysPrincipal : String
  principalTgtMap : QHash String Krb5TGTData
  principalCacheMap : QHash String Ccache

/-- `Krb5ClientImpl::throw_error`. -/
def Krb5Library.throwError (krb : Krb5Library) (error : String) (errCode : ℤ) : KerberosError :=
  ⟨if errCode ≠ 0 then error ++ ": " ++ krb.errorMessage errCode else error, errCode⟩

/-- `ccaches_path`. -/
def ccachesPath (uid : ℕ) : String := "/tmp/admc_uid" ++ toString uid ++ "/ccaches/"

/-- `ccache_name_prefix`. -/
def ccacheNamePrefix : String := "krb5cc_"

/-- The cache of a principal, which is named by what is before the first at sign. -/
def principalCcache (uid : ℕ) (principal : String) : Ccache :=
  ⟨"FILE", ccachesPath uid ++ ccacheNamePrefix ++
    String.ofList (principal.toList.takeWhile (· ≠ '@'))⟩

/-- `Krb5ClientImpl::cache_is_system`. -/
def Ccache.isSystem (ccache : Ccache) : Bool :=
  "KEYRING".toList <:+: ccache.type.toList

/-- `Krb5ClientImpl::tgt_state_from_creds`. -/
def tgtStateFromCreds (now : ℤ) (creds : KrbCreds) : Krb5TgtState :=
  if now > creds.renewTill then .outdated
  else if now > creds.endtime then .expired
  else .active

/-- A cache of the client: a file in the directory of caches. -/
def Ccache.IsOwn (uid : ℕ) (ccache : Ccache) : Prop :=
  ccache.type = "FILE" ∧ (ccachesPath uid).toList <+: ccache.name.toList

/-- What is given when caches are loaded: the time, and which caches can be read. -/
structure LoadAnswers where
  now : ℤ
  readable : Ccache → Bool

/-- What is given when the client is constructed: the default cache unless `KRB5CCNAME` names
    one, whether caches are resolved, and the files in the directory of caches whose names have
    the prefix. -/
structure ConstructAnswers extends LoadAnswers where
  configuredCcache : Ccache
  resolves : Ccache → Bool
  entryList : List String

/-- What is given when a principal authenticates: the credentials or an error, and the errors of
    the other calls. -/
structure KinitAnswers extends LoadAnswers where
  initCreds : Except ℤ KrbCreds
  resolveError : Option ℤ
  initializeError : Option ℤ
  storeCredError : Option ℤ
  setenvFails : Bool

namespace Krb5Client

variable (krb : Krb5Library) (uid : ℕ) (client : Krb5Client)

/-- `krb5_cc_destroy`. -/
def ccDestroy (ccache : Ccache) : Krb5Client :=
  { client with
    caches := Function.update client.caches ccache none
    destroyed := client.destroyed ++ [ccache] }

/-- `krb5_cc_initialize`. -/
def ccInitialize (ccache : Ccache) (principal : KrbPrincipal) : Krb5Client :=
  { client with caches := Function.update client.caches ccache (some ⟨principal, []⟩) }

/-- `krb5_cc_store_cred`. -/
def ccStoreCred (ccache : Ccache) (creds : KrbCreds) : Krb5Client :=
  { client with
    caches := Function.update client.caches ccache ((client.caches ccache).map fun content =>
      { content with creds := content.creds ++ [creds] }) }

/-- `krb5_cc_get_principal` and `krb5_unparse_name`. -/
def ccGetPrincipal (answers : LoadAnswers) (ccache : Ccache) : Option (CcacheContent × String) :=
  if answers.readable ccache then
    (client.caches ccache).bind fun content =>
      (krb.unparseName content.principal).toOption.map fun name => (content, name)
  else none

/-- `Krb5ClientImpl::principal_from_ccache`. -/
def principalFromCcache (answers : LoadAnswers) (ccache : Ccache) : String :=
  ((client.ccGetPrincipal krb answers ccache).map Prod.snd).getD ""

/-- `Krb5ClientImpl::load_cache_data`. -/
def loadCacheData (answers : LoadAnswers) (ccache : Ccache) (isSystem : Bool) : Krb5Client :=
  match client.ccGetPrincipal krb answers ccache with
  | none => client
  | some (content, principal) =>
    let realm := content.principal.realm
    match content.creds.find? fun creds => creds.server = krbtgt realm with
    | none => client
    | some creds =>
      let tgtData : Krb5TGTData :=
        { state := tgtStateFromCreds answers.now creds
          principal := principal
          realm := realm
          starts := creds.starttime
          expires := creds.endtime
          renewUntil := creds.renewTill }
      { client with
        sysPrincipal := if isSystem then principal else client.sysPrincipal
        principalTgtMap := client.principalTgtMap.insert principal tgtData
        principalCacheMap := client.principalCacheMap.insert principal ccache }

/-- One of the caches in the directory of caches is loaded. -/
def loadEntry (answers : LoadAnswers) (ccacheName : String) : Krb5Client :=
  let ccache : Ccache := ⟨"FILE", ccachesPath uid ++ ccacheName⟩
  let principal := client.principalFromCcache krb answers ccache
  if principal = "" ∨ client.principalCacheMap.contains principal then client
  else client.loadCacheData krb answers ccache false

/-- `krb5_cc_default`. -/
def ccDefault (answers : ConstructAnswers) : Ccache :=
  client.krb5ccname.getD answers.configuredCcache

/-- `Krb5ClientImpl::load_caches`. -/
def loadCaches (answers : ConstructAnswers) : Krb5Client :=
  let defCcache := client.sysCcache.getD (client.ccDefault answers)
  if ¬answers.resolves defCcache then client
  else
    let client := { client with sysCcache := if defCcache.isSystem then some defCcache
      else client.sysCcache }
    let client := client.loadCacheData krb answers.toLoadAnswers defCcache defCcache.isSystem
    let client := answers.entryList.foldl (loadEntry krb uid · answers.toLoadAnswers ·) client
    if client.currPrincipal = "" then { client with currPrincipal := client.sysPrincipal }
    else client

/-- `Krb5ClientImpl::Krb5ClientImpl`. -/
def construct (answers : ConstructAnswers) : Krb5Client :=
  loadCaches krb uid { client with
    currPrincipal := ""
    sysPrincipal := ""
    principalTgtMap := []
    principalCacheMap := [] } answers

/-- The cache that is kept for a principal is destroyed and forgotten. -/
def destroyCache (principal : String) : Krb5Client :=
  let client := match client.principalCacheMap.lookup principal with
    | some ccache => client.ccDestroy ccache
    | none => client
  { client with
    principalCacheMap := client.principalCacheMap.remove principal
    principalTgtMap := client.principalTgtMap.remove principal }

/-- `Krb5ClientImpl::kinit`. -/
def kinit (principal : String) (enterprise : Bool) (answers : KinitAnswers) :
    Krb5Client × Option KerberosError :=
  let client := client.destroyCache principal
  let error := "Authentication failed"
  match krb.parseName principal enterprise with
  | .error res => (client, some (krb.throwError error res))
  | .ok princ =>
    match answers.initCreds with
    | .error res => (client, some (krb.throwError error res))
    | .ok creds =>
      let ccache := principalCcache uid principal
      match answers.resolveError with
      | some res => (client, some (krb.throwError error res))
      | none =>
        match answers.initializeError with
        | some res => (client, some (krb.throwError error res))
        | none =>
          let client := client.ccInitialize ccache princ
          match answers.storeCredError with
          | some res => (client, some (krb.throwError error res))
          | none =>
            let client := client.ccStoreCred ccache creds
            -- set as the default for subsequent authentication via SASL
            if answers.setenvFails then
              (client, some (krb.throwError "Failed to set KRB5CCNAME" 0))
            else
              let client := { client with krb5ccname := some ccache }
              let client := client.loadCacheData krb answers.toLoadAnswers ccache ccache.isSystem
              ({ client with currPrincipal := principal }, none)

/-- `Krb5Client::set_current_principal`. -/
def setCurrentPrincipal (principal : String) (setenvResult : ℤ) :
    Krb5Client × Option KerberosError :=
  match client.principalCacheMap.lookup principal with
  | none => (client, some (krb.throwError "Principal is not found" 0))
  | some ccache =>
    if setenvResult ≠ 0 then
      (client, some (krb.throwError "Failed to switch principal" setenvResult))
    else ({ client with krb5ccname := some ccache, currPrincipal := principal }, none)

/-- `Krb5Client::logout`. -/
def logout (deleteCreds : Bool) : Krb5Client :=
  let client := { client with krb5ccname := some ⟨"MEMORY", "empty_ccache"⟩ }
  let credsNotSystem := client.currPrincipal ≠ client.sysPrincipal
  let client := if deleteCreds ∧ credsNotSystem then client.destroyCache client.currPrincipal
    else client
  { client with currPrincipal := "" }

/-- `Krb5Client::update_temp_caches`. -/
def updateTempCaches (rememberedPrincipals : List String) : Krb5Client :=
  let unremembered := client.principalCacheMap.keys.filter (· ∉ rememberedPrincipals)
  { client with
    krbTempCaches := unremembered.filterMap fun principal =>
      (client.principalCacheMap.lookup principal).map Ccache.name }

/-- `crash_handler`. -/
def crashHandler : Krb5Client :=
  { client with
    caches := fun ccache =>
      if ccache.type = "FILE" ∧ ccache.name ∈ client.krbTempCaches then none
      else client.caches ccache }

/-- A cache has credentials of a principal. -/
def HoldsCreds (ccache : Ccache) (principal : String) : Prop :=
  ∃ content, client.caches ccache = some content ∧
    krb.unparseName content.principal = .ok principal ∧ content.creds ≠ []

/-- The operations of a client, with what is given for each. -/
inductive Operation
  | authenticate (principal : String) (enterprise : Bool) (answers : KinitAnswers)
  | setCurrentPrincipal (principal : String) (setenvResult : ℤ)
  | logout (deleteCreds : Bool)
  | updateTempCaches (rememberedPrincipals : List String)

/-- What an operation does, and the error that it throws. -/
def perform : Operation → Krb5Client × Option KerberosError
  | .authenticate principal enterprise answers => client.kinit krb uid principal enterprise answers
  | .setCurrentPrincipal principal setenvResult =>
    client.setCurrentPrincipal krb principal setenvResult
  | .logout deleteCreds => (client.logout deleteCreds, none)
  | .updateTempCaches rememberedPrincipals => (client.updateTempCaches rememberedPrincipals, none)

/-- One operation after another. -/
def step (operation : Operation) : Krb5Client := (client.perform krb uid operation).1

/-! ## What the operations do -/

section
variable {krb uid client} {answers : LoadAnswers} {ccache : Ccache} {isSystem : Bool}
  {principal : String}

theorem ccGetPrincipal_eq_some {content : CcacheContent}
    (h : client.ccGetPrincipal krb answers ccache = some (content, principal)) :
    client.caches ccache = some content ∧ krb.unparseName content.principal = .ok principal := by
  rw [ccGetPrincipal] at h
  split_ifs at h
  obtain ⟨content', hcontent, hname⟩ := Option.bind_eq_some_iff.1 h
  obtain ⟨name, hunparse, heq⟩ := Option.map_eq_some_iff.1 hname
  obtain ⟨rfl, rfl⟩ := Prod.mk.inj heq
  refine ⟨hcontent, ?_⟩
  cases hresult : krb.unparseName content'.principal with
  | error res =>
    rw [hresult] at hunparse
    exact nomatch hunparse
  | ok name' =>
    rw [hresult] at hunparse
    exact congrArg Except.ok (Option.some.inj hunparse)

/-- A cache that is loaded is kept for the principal that it is of, and has credentials. -/
theorem loadCacheData_cases : client.loadCacheData krb answers ccache isSystem = client ∨
    ∃ content principal tgtData, client.caches ccache = some content ∧
      krb.unparseName content.principal = .ok principal ∧ content.creds ≠ [] ∧
      client.loadCacheData krb answers ccache isSystem =
        { client with
          sysPrincipal := if isSystem then principal else client.sysPrincipal
          principalTgtMap := client.principalTgtMap.insert principal tgtData
          principalCacheMap := client.principalCacheMap.insert principal ccache } := by
  rw [loadCacheData]
  cases hread : client.ccGetPrincipal krb answers ccache with
  | none => exact .inl rfl
  | some read =>
    obtain ⟨content, principal⟩ := read
    obtain ⟨hcontent, hname⟩ := ccGetPrincipal_eq_some hread
    dsimp only
    cases hfind : content.creds.find? fun creds =>
        creds.server = krbtgt content.principal.realm with
    | none => exact .inl rfl
    | some creds =>
      exact .inr ⟨content, principal, _, hcontent, hname,
        List.ne_nil_of_mem (List.mem_of_find?_eq_some hfind), rfl⟩

/-- What loading a cache leaves as it is. -/
theorem loadCacheData_same :
    (client.loadCacheData krb answers ccache isSystem).caches = client.caches ∧
    (client.loadCacheData krb answers ccache isSystem).krb5ccname = client.krb5ccname ∧
    (client.loadCacheData krb answers ccache isSystem).destroyed = client.destroyed ∧
    (client.loadCacheData krb answers ccache isSystem).krbTempCaches = client.krbTempCaches := by
  obtain h | ⟨content, principal, tgtData, -, -, -, h⟩ :=
    @loadCacheData_cases krb client answers ccache isSystem
  · rw [h]
    exact ⟨rfl, rfl, rfl, rfl⟩
  · rw [h]
    exact ⟨rfl, rfl, rfl, rfl⟩

/-- A cache that is loaded is still kept for each principal for which it has been. -/
theorem lookup_loadCacheData_of_kept
    (h : client.principalCacheMap.lookup principal = some ccache) :
    (client.loadCacheData krb answers ccache isSystem).principalCacheMap.lookup principal =
      some ccache := by
  obtain heq | ⟨content, loaded, tgtData, -, -, -, heq⟩ :=
    @loadCacheData_cases krb client answers ccache isSystem
  · rwa [heq]
  · rw [heq, QHash.lookup_insert]
    split_ifs
    · rfl
    · exact h

/-- The caches that are kept after one is forgotten. -/
theorem lookup_destroyCache {other : String} :
    (client.destroyCache principal).principalCacheMap.lookup other =
      if other = principal then none else client.principalCacheMap.lookup other := by
  have hmap : (client.destroyCache principal).principalCacheMap =
      client.principalCacheMap.remove principal := by
    rw [destroyCache]
    cases client.principalCacheMap.lookup principal <;> rfl
  rw [hmap, QHash.lookup_remove]

/-- Only the cache that is kept for the principal is destroyed. -/
theorem caches_destroyCache (h : client.principalCacheMap.lookup principal ≠ some ccache) :
    (client.destroyCache principal).caches ccache = client.caches ccache := by
  rw [destroyCache]
  cases hlookup : client.principalCacheMap.lookup principal with
  | none => rfl
  | some old =>
    have hne : ccache ≠ old := fun heq => h (heq ▸ hlookup)
    exact Function.update_of_ne hne none client.caches

theorem mem_destroyed_destroyCache : ccache ∈ (client.destroyCache principal).destroyed ↔
    ccache ∈ client.destroyed ∨ client.principalCacheMap.lookup principal = some ccache := by
  rw [destroyCache]
  cases client.principalCacheMap.lookup principal with
  | none => simp
  | some old => simp [ccDestroy, @eq_comm _ ccache]

/-- What holds of a client while it loads caches: it leaves them as they are, and those it
    keeps have credentials of the principals they are kept for. -/
structure Loaded (krb : Krb5Library) (uid : ℕ) (process : Krb5Client) (defCcache : Ccache)
    (client : Krb5Client) : Prop where
  caches : client.caches = process.caches
  destroyed : client.destroyed = process.destroyed
  krbTempCaches : client.krbTempCaches = process.krbTempCaches
  kept : ∀ principal ccache, client.principalCacheMap.lookup principal = some ccache →
    client.HoldsCreds krb ccache principal ∧ (ccache = defCcache ∨ ccache.IsOwn uid)

theorem Loaded.loadCacheData {process : Krb5Client} {defCcache : Ccache}
    (h : Loaded krb uid process defCcache client)
    (hccache : ccache = defCcache ∨ ccache.IsOwn uid) :
    Loaded krb uid process defCcache (client.loadCacheData krb answers ccache isSystem) := by
  obtain heq | ⟨content, principal, tgtData, hcontent, hname, hcreds, heq⟩ :=
    @loadCacheData_cases krb client answers ccache isSystem
  · rwa [heq]
  · rw [heq]
    refine ⟨h.caches, h.destroyed, h.krbTempCaches, fun principal' ccache' hlookup => ?_⟩
    rw [QHash.lookup_insert] at hlookup
    split_ifs at hlookup with hprincipal
    · obtain rfl := Option.some.inj hlookup
      obtain rfl := hprincipal
      exact ⟨⟨content, hcontent, hname, hcreds⟩, hccache⟩
    · exact h.kept principal' ccache' hlookup

theorem Loaded.loadEntry {process : Krb5Client} {defCcache : Ccache} {name : String}
    (h : Loaded krb uid process defCcache client) :
    Loaded krb uid process defCcache (client.loadEntry krb uid answers name) := by
  unfold Krb5Client.loadEntry
  dsimp only
  split_ifs
  · exact h
  · refine h.loadCacheData (.inr ⟨rfl, ?_⟩)
    rw [String.toList_append]
    exact List.prefix_append _ _

theorem Loaded.loadCaches {process : Krb5Client} {defCcache : Ccache} {answers : ConstructAnswers}
    (h : Loaded krb uid process defCcache client)
    (hdef : client.sysCcache.getD (client.ccDefault answers) = defCcache) :
    Loaded krb uid process defCcache (client.loadCaches krb uid answers) := by
  rw [Krb5Client.loadCaches]
  rw [hdef]
  dsimp only
  by_cases hresolves : answers.resolves defCcache = true
  · rw [if_neg (not_not.2 hresolves)]
    set system : Krb5Client := { client with
      sysCcache := if defCcache.isSystem then some defCcache else client.sysCcache }
    -- the default cache, and then those in the directory
    have hdefault : Loaded krb uid process defCcache
        (system.loadCacheData krb answers.toLoadAnswers defCcache defCcache.isSystem) :=
      Loaded.loadCacheData ⟨h.caches, h.destroyed, h.krbTempCaches, h.kept⟩ (.inl rfl)
    have hentries := List.foldlRecOn answers.entryList
      (Krb5Client.loadEntry krb uid · answers.toLoadAnswers ·) hdefault
      fun client hclient name _ => hclient.loadEntry
    split_ifs
    · exact ⟨hentries.caches, hentries.destroyed, hentries.krbTempCaches, hentries.kept⟩
    · exact hentries
  · rwa [if_pos hresolves]

/-- The construction of a client. -/
theorem loaded_construct {answers : ConstructAnswers} :
    Loaded krb uid client (client.sysCcache.getD (client.ccDefault answers))
      (client.construct krb uid answers) :=
  Loaded.loadCaches ⟨rfl, rfl, rfl, nofun⟩ rfl

/-- The calls up to the one that initializes the cache succeed. -/
def Initializes (krb : Krb5Library) (principal : String) (enterprise : Bool)
    (answers : KinitAnswers) : Prop :=
  (∃ princ, krb.parseName principal enterprise = .ok princ) ∧
    (∃ creds, answers.initCreds = .ok creds) ∧
    answers.resolveError = none ∧ answers.initializeError = none

/-- The cache of a principal has new content. -/
def setContent (client : Krb5Client) (ccache : Ccache) (content : CcacheContent) : Krb5Client :=
  { client with caches := Function.update client.caches ccache (some content) }

theorem ccStoreCred_ccInitialize {princ : KrbPrincipal} {creds : KrbCreds} :
    (client.ccInitialize ccache princ).ccStoreCred ccache creds =
      client.setContent ccache ⟨princ, [creds]⟩ := by
  simp [ccStoreCred, ccInitialize, setContent]

/-- An authentication fails before it initializes the cache, or after that, or not at all. -/
theorem kinit_cases {enterprise : Bool} {answers : KinitAnswers} :
    (¬Initializes krb principal enterprise answers ∧ ∃ error,
      client.kinit krb uid principal enterprise answers =
        (client.destroyCache principal, some error)) ∨
    Initializes krb principal enterprise answers ∧ ∃ princ creds,
      krb.parseName principal enterprise = .ok princ ∧
      ((∃ error, client.kinit krb uid principal enterprise answers =
        ((client.destroyCache principal).setContent (principalCcache uid principal)
          ⟨princ, creds⟩, some error)) ∨
      creds ≠ [] ∧ client.kinit krb uid principal enterprise answers =
        ({ ({ (client.destroyCache principal).setContent (principalCcache uid principal)
                ⟨princ, creds⟩ with
              krb5ccname := some (principalCcache uid principal) } : Krb5Client).loadCacheData krb
            answers.toLoadAnswers (principalCcache uid principal)
            (principalCcache uid principal).isSystem with
          currPrincipal := principal }, none)) := by
  rw [kinit, Initializes]
  dsimp only
  cases hparse : krb.parseName principal enterprise with
  | error res => exact .inl ⟨fun ⟨⟨_, h⟩, _⟩ => (nomatch h), _, rfl⟩
  | ok princ =>
    cases hcreds : answers.initCreds with
    | error res => exact .inl ⟨fun ⟨_, ⟨_, h⟩, _⟩ => (nomatch h), _, rfl⟩
    | ok creds =>
      cases hresolve : answers.resolveError with
      | some res => exact .inl ⟨fun ⟨_, _, h, _⟩ => (nomatch h), _, rfl⟩
      | none =>
        cases hinitialize : answers.initializeError with
        | some res => exact .inl ⟨fun ⟨_, _, _, h⟩ => (nomatch h), _, rfl⟩
        | none =>
          refine .inr ⟨⟨⟨princ, rfl⟩, ⟨creds, rfl⟩, rfl, rfl⟩, princ, ?_⟩
          dsimp only
          rw [ccStoreCred_ccInitialize]
          cases hstore : answers.storeCredError with
          | some res => exact ⟨[], rfl, .inl ⟨_, rfl⟩⟩
          | none =>
            cases hsetenv : answers.setenvFails with
            | true => exact ⟨[creds], rfl, .inl ⟨_, rfl⟩⟩
            | false => exact ⟨[creds], rfl, .inr ⟨List.cons_ne_nil _ _, rfl⟩⟩

/-- A principal is selected if its cache is kept, or nothing changes. -/
theorem setCurrentPrincipal_cases {setenvResult : ℤ} :
    (∃ error, client.setCurrentPrincipal krb principal setenvResult = (client, some error)) ∨
    ∃ ccache, client.principalCacheMap.lookup principal = some ccache ∧
      client.setCurrentPrincipal krb principal setenvResult =
        ({ client with krb5ccname := some ccache, currPrincipal := principal }, none) := by
  rw [setCurrentPrincipal]
  cases client.principalCacheMap.lookup principal with
  | none => exact .inl ⟨_, rfl⟩
  | some ccache =>
    dsimp only
    split_ifs
    · exact .inl ⟨_, rfl⟩
    · exact .inr ⟨ccache, rfl, rfl⟩

end

end Krb5Client

end Admc
