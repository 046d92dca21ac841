import Admc.Console.ServerMove

/-!
# Connections

An `AdInterface` connects by the static options of its class. These are loaded from the stored
settings, or from those of a dialog before they are stored. The host that is connected to is found
among those of the domain, unless it has been given on the command line.
-/

namespace Admc

/-! ## Options -/

/-- `enum CertStrategy`. -/
inductive CertStrategy
  | never
  | hard
  | demand
  | allow
  | tries
  deriving DecidableEq

/-- The texts of strategies, `CERT_STRATEGY_NEVER` and so on. -/
def CertStrategy.text : CertStrategy → String
  | never => "never"
  | hard => "hard"
  | demand => "demand"
  | allow => "allow"
  | tries => "try"

/-- `require_cert_list`, the items of the combo box. -/
def requireCertList : List CertStrategy := [.never, .hard, .demand, .allow, .tries]

/-- The strategy with a text: `cert_combo->findText`, and the keys of `cert_strategy_map`. -/
def CertStrategy.ofText? (text : String) : Option CertStrategy :=
  requireCertList.find? fun strategy => strategy.text = text

/-- The static options of `AdInterfacePrivate`. A custom DC that is not set is empty. -/
structure AdStatics where
  dc : String
  customDc : String
  domainIsDefault : Bool
  customDomain : String
  saslNocanon : Bool
  port : ℤ
  certStrat : CertStrategy

/-- The options before any are loaded. -/
def AdStatics.initial : AdStatics := ⟨"", "", true, "", true, 0, .never⟩

/-- The stored settings of connections, where they are stored. -/
structure ConnectionSettings where
  port : Option ℤ
  saslNocanon : Option Bool
  certStrategy : Option String
  host : Option String
  customDomain : Option String
  domainIsDefault : Option Bool

namespace ConnectionSettings

variable (settings : ConnectionSettings)

/-- Nothing has been stored. -/
def fresh : ConnectionSettings := ⟨none, none, none, none, none, none⟩

/-- `settings_get_variant`, with the values of `SETTINGS_DEFAULT_MAP`. -/
def getVariant : ConnectionSettings :=
  { settings with
    saslNocanon := some (settings.saslNocanon.getD true)
    certStrategy := some (settings.certStrategy.getD CertStrategy.never.text)
    host := some (settings.host.getD "") }

end ConnectionSettings

/-- `load_connection_options`, from some settings or from those that are stored. -/
def loadConnectionOptions (stored : ConnectionSettings) (settings : Option ConnectionSettings)
    (statics : AdStatics) : AdStatics :=
  let settings := settings.getD stored.getVariant
  { statics with
    domainIsDefault := settings.domainIsDefault.getD true
    customDomain := settings.customDomain.getD ""
    dc := settings.host.getD ""
    saslNocanon := settings.saslNocanon.getD true
    port := settings.port.getD 0
    certStrat := (CertStrategy.ofText? (settings.certStrategy.getD "")).getD .never }

/-! ## Connecting -/

/-- What is outside at some moment: the realm of the default principal, the hosts that are listed
    for a domain, and whether what is asked of the LDAP library and of SMB succeeds. -/
structure Network where
  realm : String
  domainHosts : String → List String
  binds : String → AdStatics → Bool

/-- `class AdInterface`, after it has been constructed. -/
structure AdInterface where
  domain : String
  dc : String
  isConnected : Bool

/-- `AdInterface::make_ldap_uri`. -/
def makeLdapUri (dc : String) (port : ℤ) : String :=
  if dc = "" then ""
  else if port > 0 then "ldap://" ++ dc ++ ":" ++ toString port
  else "ldap://" ++ dc

section
variable (network : Network) (statics : AdStatics)

/-- `AdInterface::ldap_init`, and the SMB context. -/
def ldapInit (dc : String) : Bool :=
  let uri := makeLdapUri dc statics.port
  uri ≠ "" && network.binds uri statics

/-- `AdInterface::find_domain_controller`. -/
def findDomainController (domain : String) : String :=
  match network.domainHosts domain with
  | [] => ""
  | first :: rest =>
    if statics.dc ≠ "" ∧ statics.dc ∈ first :: rest then statics.dc else first

/-- The domain of a connection. -/
def AdStatics.domain : String :=
  if statics.domainIsDefault then network.realm else statics.customDomain

/-- `AdInterface::AdInterface`: the host that has been found is remembered, if there was none. -/
def AdInterface.construct : AdStatics × AdInterface :=
  let domain := statics.domain network
  if domain = "" then (statics, ⟨domain, "", false⟩)
  else
    let dc :=
      if statics.customDc = "" then findDomainController network statics domain
      else statics.customDc
    let statics := if statics.dc = "" then { statics with dc } else statics
    (statics, ⟨domain, dc, ldapInit network statics dc⟩)

/-- `AdInterface::update_dc`. -/
def AdInterface.updateDc (ad : AdInterface) : AdInterface :=
  { ad with dc := statics.dc, isConnected := ldapInit network statics statics.dc }

end

/-- `fsmo_connect_host_with_role`. -/
def fsmoConnectHostWithRole (names : DomainNames) (dir : ReferringDirectory) (role : FSMORole)
    (network : Network) (settings : ConnectionSettings) (statics : AdStatics) (ad : AdInterface) :
    ConnectionSettings × AdStatics × AdInterface :=
  let currentMaster := fsmoCurrentMasterForRole names dir role
  let settings := { settings with host := some currentMaster }
  let statics := { statics with customDc := "", dc := currentMaster }
  (settings, statics, ad.updateDc network statics)

section
variable {network : Network} {statics : AdStatics} {stored : ConnectionSettings}

/-- An interface changes nothing but the host that is remembered, where there was none. -/
theorem construct_fst : ∃ dc, (AdInterface.construct network statics).1 =
    { statics with dc } ∧ (statics.dc ≠ "" → dc = statics.dc) := by
  unfold AdInterface.construct
  dsimp only
  by_cases hdomain : statics.domain network = ""
  · rw [if_pos hdomain]
    exact ⟨statics.dc, rfl, fun _ => rfl⟩
  · rw [if_neg hdomain]
    by_cases hdc : statics.dc = ""
    · exact ⟨_, if_pos hdc, fun hne => absurd hdc hne⟩
    · exact ⟨statics.dc, if_neg hdc, fun _ => rfl⟩

theorem domain_construct : (AdInterface.construct network statics).2.domain =
    statics.domain network := by
  unfold AdInterface.construct
  dsimp only
  split_ifs <;> rfl

/-- What is connected has a domain. -/
theorem domain_ne_of_isConnected
    (h : (AdInterface.construct network statics).2.isConnected = true) :
    statics.domain network ≠ "" := by
  intro hdomain
  unfold AdInterface.construct at h
  dsimp only at h
  rw [if_pos hdomain] at h
  cases h

/-- Without a host from the command line, the host that is connected is the one that is
    remembered, if it is listed. -/
theorem dc_of_isConnected (h : (AdInterface.construct network statics).2.isConnected = true)
    (hcustom : statics.customDc = "") (hdc : statics.dc ∈ network.domainHosts
      (statics.domain network)) (hne : statics.dc ≠ "") :
    (AdInterface.construct network statics).2.dc = statics.dc := by
  have hdomain := domain_ne_of_isConnected h
  unfold AdInterface.construct findDomainController
  dsimp only
  rw [if_neg hdomain, if_pos hcustom]
  cases hhosts : network.domainHosts (statics.domain network) with
  | nil =>
    rw [hhosts] at hdc
    exact absurd hdc List.not_mem_nil
  | cons first rest => exact if_pos ⟨hne, hhosts ▸ hdc⟩

end

/-- A strategy is read from its text. -/
@[simp] theorem CertStrategy.ofText?_text (strategy : CertStrategy) :
    CertStrategy.ofText? strategy.text = some strategy := by
  cases strategy <;> rfl

end Admc
