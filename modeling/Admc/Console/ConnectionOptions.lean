import Admc.Console.Connection
import Admc.Lib.Run

/-!
# The options of connections

The program loads the options of connections from its settings when it is started. A dialog edits
them: it loads what has been edited, tries to connect, and stores the options or loads what is
stored back. The role masters can be connected to as well, and each connection may remember the
host that it has found.

* `ConnectionProgram.inUse_of_run`: in every run, with any number of starts, the options in use are
  those that are stored, and what is known of the schema is from the domain that is in use;
* `ConnectionProgram.accepted_of_run`: the dialog that is accepted changes nothing, or it stores and
  uses what it shows, and connects to the host that it shows if this is listed still;
* `ConnectionProgram.shows_of_run`: the dialog is opened with the options in use just when some
  have been stored before.
-/

namespace Admc

/-! ## The dialog -/

/-- `class ConnectionOptionsDialog`. The button that asks for the hosts of a domain is shown, and
    the domain can be edited, while the domain is not the default one. -/
structure ConnectionOptionsDialog where
  portSpinbox : Fin 65536
  canonizeCheck : Bool
  certCombo : Option CertStrategy
  hostDefaultButton : Bool
  domainCustomEdit : String
  hostSelectList : List String
  currentItem : Option String
  isSelected : Bool
  hostWarning : Bool
  anyHostsAvailable : Bool
  defaultDomain : String
  defaultHostList : List String
  customDomain : String
  customHostList : List String

/-- `QSpinBox::setValue`, for ports. -/
def spinPort (port : ℤ) : Fin 65536 := ⟨min port.toNat 65535, by omega⟩

@[simp] theorem spinPort_val (port : Fin 65536) : spinPort port.val = port := by
  refine Fin.ext ?_
  rw [spinPort]
  exact Nat.min_eq_left (Nat.le_of_lt_succ port.isLt)

namespace ConnectionOptionsDialog

variable (d : ConnectionOptionsDialog)

/-- `host_select_list->setCurrentRow(0)`. -/
def selectFirst : ConnectionOptionsDialog :=
  { d with currentItem := d.hostSelectList.head?, isSelected := !d.hostSelectList.isEmpty }

/-- `ConnectionOptionsDialog::set_saved_host_current_item`. -/
def setSavedHostCurrentItem (stored : ConnectionSettings) : ConnectionOptionsDialog :=
  let savedHost := stored.getVariant.host.getD ""
  if savedHost ≠ "" then
    if savedHost ∈ d.hostSelectList then
      { d with currentItem := some savedHost, isSelected := true }
    else d
  else d.selectFirst

/-- The list is cleared and filled with some hosts. -/
def listHosts (hosts : List String) : ConnectionOptionsDialog :=
  { d with hostSelectList := hosts, currentItem := none, isSelected := false }

/-- The hosts of a domain are shown, in `ConnectionOptionsDialog::host_button_toggled` and in the
    constructor. -/
def showHosts (stored : ConnectionSettings) (isDefaultChecked : Bool) (domain : String)
    (hosts : List String) : ConnectionOptionsDialog :=
  let d :=
    { d.listHosts hosts with
      hostDefaultButton := isDefaultChecked
      domainCustomEdit := domain
      hostWarning := hosts.isEmpty }
  if hosts = [] then d else d.setSavedHostCurrentItem stored

/-- `ConnectionOptionsDialog::host_button_toggled`. -/
def hostButtonToggled (stored : ConnectionSettings) (isDefaultChecked : Bool) :
    ConnectionOptionsDialog :=
  if isDefaultChecked then d.showHosts stored true d.defaultDomain d.defaultHostList
  else d.showHosts stored false d.customDomain d.customHostList

/-- A button is checked, which is told if it was not. -/
def setDefaultChecked (stored : ConnectionSettings) (checked : Bool) : ConnectionOptionsDialog :=
  if checked = d.hostDefaultButton then d else d.hostButtonToggled stored checked

/-- `ConnectionOptionsDialog::get_hosts`. -/
def getHosts (network : Network) : ConnectionOptionsDialog :=
  let domain := d.domainCustomEdit
  let hosts := network.domainHosts domain
  if hosts = [] then { d.listHosts [] with hostWarning := true }
  else
    { d.listHosts hosts with
      hostWarning := false
      customDomain := domain
      customHostList := hosts }.selectFirst

/-- `ConnectionOptionsDialog::load_default_options`. -/
def loadDefaultOptions (stored : ConnectionSettings) : ConnectionOptionsDialog :=
  let d := { d with portSpinbox := 0, canonizeCheck := true, certCombo := some .never }
  if d.anyHostsAvailable then (d.setDefaultChecked stored true).selectFirst else d

/-- `ConnectionOptionsDialog::ConnectionOptionsDialog`. -/
def construct (stored : ConnectionSettings) (network : Network) : ConnectionOptionsDialog :=
  let settings := stored.getVariant
  let defaultDomain := network.realm
  let customDomain := settings.customDomain.getD ""
  let domainIsDefault := settings.domainIsDefault.getD false
  let domain := if domainIsDefault then defaultDomain else customDomain
  let hostList := network.domainHosts domain
  let d : ConnectionOptionsDialog :=
    { portSpinbox := spinPort (settings.port.getD 0)
      canonizeCheck := settings.saslNocanon.getD false
      certCombo := CertStrategy.ofText? (settings.certStrategy.getD "")
      hostDefaultButton := domainIsDefault
      domainCustomEdit := domain
      hostSelectList := []
      currentItem := none
      isSelected := false
      hostWarning := false
      anyHostsAvailable := !hostList.isEmpty
      defaultDomain := defaultDomain
      defaultHostList := network.domainHosts defaultDomain
      customDomain := customDomain
      customHostList := network.domainHosts customDomain }
  d.showHosts stored domainIsDefault domain hostList

/-- The settings that are stored if the dialog is accepted. -/
def settings : ConnectionSettings where
  port := some d.portSpinbox.val
  saslNocanon := some d.canonizeCheck
  certStrategy := some ((d.certCombo.map CertStrategy.text).getD "")
  host := some (d.currentItem.getD "")
  customDomain := some d.customDomain
  domainIsDefault := some d.hostDefaultButton

end ConnectionOptionsDialog

/-- What the user does in the dialog. -/
inductive ConnectionEdit
  | editPort (port : ℤ)
  | checkCanonize (checked : Bool)
  | chooseCert (strategy : CertStrategy)
  | checkDefault (checked : Bool)
  | editDomain (domain : String)
  | getHosts (network : Network)
  | selectHost (host : String)
  | deselectHost
  | focusHosts
  | restoreDefaults

namespace ConnectionOptionsDialog

variable (d : ConnectionOptionsDialog)

/-- What an edit does. A list that has the focus has a current item, which need not be selected. -/
def edit (stored : ConnectionSettings) : ConnectionEdit → ConnectionOptionsDialog
  | .editPort port => { d with portSpinbox := spinPort port }
  | .checkCanonize checked => { d with canonizeCheck := checked }
  | .chooseCert strategy => { d with certCombo := some strategy }
  | .checkDefault checked => d.setDefaultChecked stored checked
  | .editDomain domain =>
    if d.hostDefaultButton then d else { d with domainCustomEdit := domain }
  | .getHosts network => if d.hostDefaultButton then d else d.getHosts network
  | .selectHost host =>
    if host ∈ d.hostSelectList then { d with currentItem := some host, isSelected := true } else d
  | .deselectHost => { d with isSelected := false }
  | .focusHosts =>
    if d.currentItem = none then { d with currentItem := d.hostSelectList.head? } else d
  | .restoreDefaults => d.loadDefaultOptions stored

end ConnectionOptionsDialog

/-! ## The program -/

/-- What `g_adconfig` has been loaded from: a domain, and whether it was the default one. -/
structure ConfigSource where
  domainIsDefault : Bool
  domain : String

/-- The program: its settings, which stay when it ends, the options of connections, what
    `g_adconfig` has been loaded from, and the dialog if it is open. -/
structure ConnectionProgram where
  settings : ConnectionSettings
  statics : AdStatics
  config : Option ConfigSource
  dialog : Option ConnectionOptionsDialog

/-- What happens: the program is started, perhaps with a host; an interface is constructed, and
    perhaps what is known of the schema is loaded if it is connected; a role master is connected
    to by an interface that is connected; or something happens to the dialog. -/
inductive ConnectionEvent
  | main (dcOption : Option String) (network : Network)
  | construct (network : Network)
  | initOnConnect (network : Network)
  | connectHostWithRole (dir : ReferringDirectory) (role : FSMORole) (network : Network)
  | openDialog (network : Network)
  | edit (edit : ConnectionEdit)
  | accept (network : Network)
  | reject

namespace ConnectionProgram

variable (program : ConnectionProgram)

/-- A program that has never been run. -/
def new : ConnectionProgram := ⟨.fresh, .initial, none, none⟩

/-- `load_g_adconfig`. -/
def loadGAdconfig (ad : AdInterface) : ConnectionProgram :=
  { program with config := some ⟨program.statics.domainIsDefault, ad.domain⟩ }

/-- An interface, with which `g_adconfig` is loaded if it is connected. -/
def initOnConnect (network : Network) : ConnectionProgram :=
  let (statics, ad) := AdInterface.construct network program.statics
  let program := { program with statics }
  if ad.isConnected then program.loadGAdconfig ad else program

/-- The part of `main` that loads the options and connects. -/
def main (dcOption : Option String) (network : Network) : ConnectionProgram :=
  let settings :=
    match dcOption with
    | some customDc => { program.settings with host := some customDc }
    | none => program.settings
  let statics := loadConnectionOptions settings none .initial
  let statics := { statics with customDc := dcOption.getD "" }
  initOnConnect ⟨settings, statics, none, none⟩ network

/-- An interface by the settings of a dialog, without the host from the command line. -/
def tryOptions (network : Network) (d : ConnectionOptionsDialog) : AdStatics × AdInterface :=
  AdInterface.construct network (loadConnectionOptions program.settings (some d.settings)
    { program.statics with customDc := "" })

/-- `ConnectionOptionsDialog::accept`. -/
def accept (network : Network) (d : ConnectionOptionsDialog) : ConnectionProgram :=
  if d.anyHostsAvailable ∧ ¬d.isSelected then program
  else
    let stored := program.settings.getVariant
    let domainWasDefault := stored.domainIsDefault.getD false
    let customDomainChanged := stored.customDomain.getD "" ≠ d.customDomain
    let currentCustomDc := program.statics.customDc
    let (statics, ad) := program.tryOptions network d
    if ¬ad.isConnected then
      let statics := { statics with customDc := currentCustomDc }
      { program with statics := loadConnectionOptions program.settings none statics }
    else
      let program := { program with settings := d.settings, statics, dialog := none }
      if domainWasDefault ≠ d.hostDefaultButton ∨ customDomainChanged then program.loadGAdconfig ad
      else program

/-- What an event does. -/
def handle (names : DomainNames) : ConnectionEvent → ConnectionProgram
  | .main dcOption network => program.main dcOption network
  | .construct network =>
    { program with statics := (AdInterface.construct network program.statics).1 }
  | .initOnConnect network => program.initOnConnect network
  | .connectHostWithRole dir role network =>
    let (statics, ad) := AdInterface.construct network program.statics
    if ¬ad.isConnected then { program with statics }
    else
      let (settings, statics, _) :=
        fsmoConnectHostWithRole names dir role network program.settings statics ad
      { program with settings, statics }
  | .openDialog network =>
    { program with dialog := some (.construct program.settings network) }
  | .edit edit => { program with dialog := program.dialog.map (·.edit program.settings edit) }
  | .accept network =>
    match program.dialog with
    | none => program
    | some d => program.accept network d
  | .reject => { program with dialog := none }

end ConnectionProgram

/-- What is outside is listed as a relation says. -/
def Network.Lists (lists : String → List String → Prop) (network : Network) : Prop :=
  ∀ domain, lists domain (network.domainHosts domain)

/-- What is outside when an event happens is listed so. -/
def ConnectionEvent.Possible (lists : String → List String → Prop) : ConnectionEvent → Prop
  | main _ network => network.Lists lists
  | construct network => network.Lists lists
  | initOnConnect network => network.Lists lists
  | connectHostWithRole _ _ network => network.Lists lists
  | openDialog network => network.Lists lists
  | edit (.getHosts network) => network.Lists lists
  | edit _ => True
  | accept network => network.Lists lists
  | reject => True

/-! ## What the dialog lists -/

/-- The domain that is used if the dialog is accepted. -/
def ConnectionOptionsDialog.domain (d : ConnectionOptionsDialog) : String :=
  if d.hostDefaultButton then d.defaultDomain else d.customDomain

/-- The hosts that are shown have been listed for the domain that is used if the dialog is
    accepted, or there are none. -/
structure ConnectionOptionsDialog.Listed (lists : String → List String → Prop)
    (d : ConnectionOptionsDialog) : Prop where
  shown : d.hostSelectList = [] ∨ lists d.domain d.hostSelectList
  defaultHosts : lists d.defaultDomain d.defaultHostList
  customHosts : lists d.customDomain d.customHostList
  current : ∀ host, d.currentItem = some host → host ∈ d.hostSelectList
  selected : d.isSelected = true → d.currentItem.isSome = true
  warning : d.hostWarning = d.hostSelectList.isEmpty
  cert : d.certCombo.isSome = true

namespace ConnectionOptionsDialog

variable {lists : String → List String → Prop} {d : ConnectionOptionsDialog}
  {stored : ConnectionSettings} {network : Network}

theorem Listed.selectFirst (h : d.Listed lists) : d.selectFirst.Listed lists := by
  refine { h with current := fun host hhost => List.mem_of_mem_head? hhost, selected := ?_ }
  rw [ConnectionOptionsDialog.selectFirst]
  cases d.hostSelectList <;> simp

theorem Listed.setSavedHostCurrentItem (h : d.Listed lists) :
    (d.setSavedHostCurrentItem stored).Listed lists := by
  unfold ConnectionOptionsDialog.setSavedHostCurrentItem
  dsimp only
  split_ifs with hsaved hmem
  · refine { h with current := fun host hhost => ?_, selected := fun _ => rfl }
    obtain rfl := Option.some.inj hhost
    exact hmem
  · exact h
  · exact h.selectFirst

theorem listed_showHosts {checked : Bool} {domain : String} {hosts : List String}
    (hhosts : lists (if checked then d.defaultDomain else d.customDomain) hosts)
    (hdefault : lists d.defaultDomain d.defaultHostList)
    (hcustom : lists d.customDomain d.customHostList) (hcert : d.certCombo.isSome = true) :
    (d.showHosts stored checked domain hosts).Listed lists := by
  have hlisted : Listed lists
      { d.listHosts hosts with
        hostDefaultButton := checked
        domainCustomEdit := domain
        hostWarning := hosts.isEmpty } :=
    { shown := .inr hhosts
      defaultHosts := hdefault
      customHosts := hcustom
      current := fun host hhost => by cases hhost
      selected := fun hselected => by cases hselected
      warning := rfl
      cert := hcert }
  rw [showHosts]
  split_ifs
  · exact hlisted
  · exact hlisted.setSavedHostCurrentItem

theorem Listed.hostButtonToggled (h : d.Listed lists) (checked : Bool) :
    (d.hostButtonToggled stored checked).Listed lists := by
  cases checked with
  | false => exact listed_showHosts h.customHosts h.defaultHosts h.customHosts h.cert
  | true => exact listed_showHosts h.defaultHosts h.defaultHosts h.customHosts h.cert

theorem Listed.setDefaultChecked (h : d.Listed lists) (checked : Bool) :
    (d.setDefaultChecked stored checked).Listed lists := by
  rw [ConnectionOptionsDialog.setDefaultChecked]
  split_ifs
  · exact h
  · exact h.hostButtonToggled checked

theorem Listed.getHosts (h : d.Listed lists) (hnetwork : network.Lists lists)
    (hbutton : d.hostDefaultButton = false) : (d.getHosts network).Listed lists := by
  unfold ConnectionOptionsDialog.getHosts
  dsimp only
  split_ifs with hhosts
  · exact
      { shown := .inl rfl
        defaultHosts := h.defaultHosts
        customHosts := h.customHosts
        current := fun host hhost => by cases hhost
        selected := fun hselected => by cases hselected
        warning := rfl
        cert := h.cert }
  · refine Listed.selectFirst
      { shown := .inr ?_
        defaultHosts := h.defaultHosts
        customHosts := hnetwork d.domainCustomEdit
        current := fun host hhost => by cases hhost
        selected := fun hselected => by cases hselected
        warning := (List.isEmpty_eq_false_iff.2 hhosts).symm
        cert := h.cert }
    -- the domain that has been asked for is the one that is used from now on
    rw [ConnectionOptionsDialog.domain, ConnectionOptionsDialog.listHosts]
    dsimp only
    rw [hbutton, if_neg Bool.false_ne_true]
    exact hnetwork d.domainCustomEdit

theorem listed_construct (hnetwork : network.Lists lists)
    (hcert : (CertStrategy.ofText? (stored.getVariant.certStrategy.getD "")).isSome = true) :
    (construct stored network).Listed lists := by
  unfold construct
  dsimp only
  refine listed_showHosts ?_ (hnetwork _) (hnetwork _) hcert
  exact hnetwork _

/-- Which host is selected is all that depends on the host that is stored. -/
theorem setSavedHostCurrentItem_eq : ∃ currentItem isSelected,
    d.setSavedHostCurrentItem stored = { d with currentItem, isSelected } := by
  unfold setSavedHostCurrentItem
  dsimp only
  split_ifs
  · exact ⟨_, _, rfl⟩
  · exact ⟨d.currentItem, d.isSelected, rfl⟩
  · exact ⟨_, _, rfl⟩

theorem settings_showHosts {checked : Bool} {domain : String} {hosts : List String} :
    ∃ host, (d.showHosts stored checked domain hosts).settings =
      { d.settings with host := some host, domainIsDefault := some checked } := by
  rw [showHosts]
  split_ifs
  · exact ⟨"", rfl⟩
  · obtain ⟨currentItem, isSelected, hitem⟩ := @setSavedHostCurrentItem_eq
      { d.listHosts hosts with
        hostDefaultButton := checked
        domainCustomEdit := domain
        hostWarning := hosts.isEmpty } stored
    rw [hitem]
    exact ⟨_, rfl⟩

/-- The options of a dialog that is opened are those that are stored, but a domain that has not
    been stored is taken for a custom one. -/
theorem settings_construct : ∃ host, (construct stored network).settings =
    { port := some (spinPort (stored.port.getD 0)).val
      saslNocanon := some (stored.saslNocanon.getD true)
      certStrategy := some (((CertStrategy.ofText? (stored.getVariant.certStrategy.getD "")).map
        CertStrategy.text).getD "")
      host := some host
      customDomain := some (stored.customDomain.getD "")
      domainIsDefault := some (stored.domainIsDefault.getD false) } := by
  unfold construct
  dsimp only
  obtain ⟨host, hhost⟩ := @settings_showHosts _ stored _ _ _
  rw [hhost]
  exact ⟨host, rfl⟩

theorem Listed.edit (h : d.Listed lists) {edit : ConnectionEdit}
    (hpossible : (ConnectionEvent.edit edit).Possible lists) :
    (d.edit stored edit).Listed lists := by
  cases edit with
  | editPort port => exact { h with }
  | checkCanonize checked => exact { h with }
  | chooseCert strategy => exact { h with cert := rfl }
  | checkDefault checked => exact h.setDefaultChecked checked
  | editDomain domain =>
    rw [ConnectionOptionsDialog.edit]
    split_ifs
    · exact h
    · exact { h with }
  | getHosts network =>
    rw [ConnectionOptionsDialog.edit]
    split_ifs with hbutton
    · exact h
    · exact h.getHosts hpossible (Bool.eq_false_iff.2 hbutton)
  | selectHost host =>
    rw [ConnectionOptionsDialog.edit]
    split_ifs with hmem
    · refine { h with current := fun host' hhost => ?_, selected := fun _ => rfl }
      obtain rfl := Option.some.inj hhost
      exact hmem
    · exact h
  | deselectHost => exact { h with selected := fun hselected => by cases hselected }
  | focusHosts =>
    rw [ConnectionOptionsDialog.edit]
    split_ifs with hcurrent
    · refine { h with current := fun host hhost => List.mem_of_mem_head? hhost, selected := ?_ }
      intro hselected
      exact absurd (h.selected hselected) (by rw [hcurrent]; exact Bool.false_ne_true)
    · exact h
  | restoreDefaults =>
    have hset : Listed lists
        { d with portSpinbox := 0, canonizeCheck := true, certCombo := some .never } :=
      { h with cert := rfl }
    rw [ConnectionOptionsDialog.edit, ConnectionOptionsDialog.loadDefaultOptions]
    dsimp only
    split_ifs
    · exact (hset.setDefaultChecked true).selectFirst
    · exact hset

end ConnectionOptionsDialog

/-! ## Runs -/

namespace ConnectionSettings

variable (settings : ConnectionSettings)

/-- No settings have been stored by the dialog. -/
def IsFresh : Prop := settings = { fresh with host := settings.host }

/-- The settings have been stored by the dialog, and then perhaps another host. -/
def IsStored : Prop := ∃ d : ConnectionOptionsDialog, d.certCombo.isSome = true ∧
  settings = { d.settings with host := settings.host }

end ConnectionSettings

/-- The options in use are those that are stored, and what is known of the schema is from the
    domain that is in use. Only a host that has been found is used without being stored. -/
structure ConnectionProgram.Coherent (lists : String → List String → Prop)
    (program : ConnectionProgram) : Prop where
  options : loadConnectionOptions program.settings none program.statics =
    { program.statics with dc := program.settings.host.getD "" }
  host : program.settings.host.getD "" ≠ "" →
    program.statics.dc = program.settings.host.getD ""
  customDc : program.statics.customDc = "" ∨
    program.statics.customDc = program.settings.host.getD ""
  stored : program.settings.IsFresh ∨ program.settings.IsStored
  config : ∀ source, program.config = some source →
    source.domainIsDefault = program.statics.domainIsDefault ∧
      (source.domainIsDefault = false → source.domain = program.statics.customDomain)
  dialog : ∀ d, program.dialog = some d → d.Listed lists

section
variable {settings : ConnectionSettings} {statics : AdStatics}

/-- The options that are loaded do not depend on those that they replace, but for the host from
    the command line. -/
theorem load_congr {statics' : AdStatics} (h : statics.customDc = statics'.customDc)
    (given : Option ConnectionSettings) : loadConnectionOptions settings given statics =
      loadConnectionOptions settings given statics' := by
  unfold loadConnectionOptions
  rw [h]

/-- The strategy that is stored is one of the list. -/
theorem isSome_ofText_of_stored (h : settings.IsFresh ∨ settings.IsStored) :
    (CertStrategy.ofText? (settings.getVariant.certStrategy.getD "")).isSome = true := by
  obtain h | ⟨d, hcert, h⟩ := h
  · rw [h]
    rfl
  · obtain ⟨strategy, hstrategy⟩ := Option.isSome_iff_exists.1 hcert
    rw [h]
    simp [ConnectionSettings.getVariant, ConnectionOptionsDialog.settings, hstrategy]

theorem stored_setHost (h : settings.IsFresh ∨ settings.IsStored) (host : Option String) :
    ({ settings with host } : ConnectionSettings).IsFresh ∨
      ({ settings with host } : ConnectionSettings).IsStored := by
  obtain h | ⟨d, hcert, h⟩ := h
  · rw [h]
    exact .inl rfl
  · rw [h]
    exact .inr ⟨d, hcert, rfl⟩

end

namespace ConnectionProgram

variable {lists : String → List String → Prop} {names : DomainNames}
  {program : ConnectionProgram} {network : Network}

/-- The options have just been loaded from the settings. -/
theorem coherent_loaded {settings : ConnectionSettings} {statics : AdStatics}
    {dialog : Option ConnectionOptionsDialog} {config : Option ConfigSource}
    (hcustom : statics.customDc = "" ∨ statics.customDc = settings.host.getD "")
    (hstored : settings.IsFresh ∨ settings.IsStored)
    (hconfig : ∀ source, config = some source →
      source.domainIsDefault = settings.domainIsDefault.getD true ∧
        (source.domainIsDefault = false → source.domain = settings.customDomain.getD ""))
    (hdialog : ∀ d, dialog = some d → d.Listed lists) :
    Coherent lists ⟨settings, loadConnectionOptions settings none statics, config, dialog⟩ where
  options := rfl
  host _ := rfl
  customDc := hcustom
  stored := hstored
  config := hconfig
  dialog := hdialog

/-- Another host is remembered, where there was none. -/
theorem Coherent.construct (h : program.Coherent lists) (network : Network) :
    Coherent lists
      { program with statics := (AdInterface.construct network program.statics).1 } := by
  obtain ⟨dc, hdc, hkept⟩ := @construct_fst network program.statics
  rw [hdc]
  refine
    { options := ?_
      host := fun hne => ?_
      customDc := h.customDc
      stored := h.stored
      config := h.config
      dialog := h.dialog }
  · exact (load_congr rfl none).trans h.options
  · have hhost := h.host hne
    exact (hkept (hhost ▸ hne)).trans hhost

theorem Coherent.loadGAdconfig {ad : AdInterface} (h : program.Coherent lists)
    (network : Network) (hdomain : ad.domain = program.statics.domain network) :
    (program.loadGAdconfig ad).Coherent lists := by
  refine { h with config := fun source hsource => ?_ }
  obtain rfl := Option.some.inj hsource
  refine ⟨rfl, fun hdefault => hdomain.trans ?_⟩
  have hcustom : program.statics.domainIsDefault = false := hdefault
  rw [AdStatics.domain, hcustom, if_neg Bool.false_ne_true]
  rfl

theorem Coherent.initOnConnect (h : program.Coherent lists) (network : Network) :
    (program.initOnConnect network).Coherent lists := by
  have hconstruct := h.construct network
  unfold ConnectionProgram.initOnConnect
  dsimp only
  split_ifs with hconnected
  · refine hconstruct.loadGAdconfig network ?_
    obtain ⟨dc, hdc, -⟩ := @construct_fst network program.statics
    rw [domain_construct, hdc]
    rfl
  · exact hconstruct

theorem Coherent.main (h : program.Coherent lists) (dcOption : Option String)
    (network : Network) : (program.main dcOption network).Coherent lists := by
  unfold ConnectionProgram.main
  refine Coherent.initOnConnect ?_ network
  cases dcOption with
  | none =>
    exact @coherent_loaded lists program.settings .initial none none (.inl rfl) h.stored
      (fun source hsource => by cases hsource) fun d hd => by cases hd
  | some customDc =>
    exact @coherent_loaded lists { program.settings with host := some customDc }
      { AdStatics.initial with customDc } none none (.inr rfl) (stored_setHost h.stored _)
      (fun source hsource => by cases hsource) fun d hd => by cases hd

theorem Coherent.connectHostWithRole (h : program.Coherent lists) (host : String) :
    Coherent lists
      { program with
        settings := { program.settings with host := some host }
        statics := { program.statics with customDc := "", dc := host } } where
  options := congrArg (fun statics : AdStatics => { statics with customDc := "", dc := host })
    h.options
  host _ := rfl
  customDc := .inl rfl
  stored := stored_setHost h.stored _
  config := h.config
  dialog := h.dialog

/-- The domain of an interface that is connected has changed only if it is seen to. -/
theorem domain_kept {d : ConnectionOptionsDialog} (h : program.Coherent lists)
    (hdomain : (loadConnectionOptions d.settings none program.statics).domain network ≠ "")
    (hdefault : program.settings.domainIsDefault.getD false = d.hostDefaultButton)
    (hcustom : program.settings.customDomain.getD "" = d.customDomain) :
    program.statics.domainIsDefault = d.hostDefaultButton ∧
      program.statics.customDomain = d.customDomain := by
  have hoptions := h.options
  have hinuse : program.statics.domainIsDefault = program.settings.domainIsDefault.getD true :=
    (congrArg AdStatics.domainIsDefault hoptions).symm
  refine ⟨?_, (congrArg AdStatics.customDomain hoptions).symm.trans hcustom⟩
  obtain hfresh | ⟨d', -, hd'⟩ := h.stored
  · -- nothing has been stored, so the domain is the custom one, which is empty
    rw [hfresh] at hdefault hcustom
    refine absurd ?_ hdomain
    rw [AdStatics.domain]
    refine (if_neg ?_).trans ?_
    · exact fun hyes => Bool.false_ne_true (hdefault.trans hyes)
    · exact hcustom.symm
  · rw [hinuse, ← hdefault, hd']
    rfl

/-- What a dialog does that is accepted, and connects: its settings are stored and used, and the
    hosts that it shows have been listed for the domain; the one that is selected is connected to
    as long as it is listed. -/
structure Stores (lists : String → List String → Prop) (d : ConnectionOptionsDialog)
    (program : ConnectionProgram) : Prop where
  settings : program.settings = d.settings
  dialog : program.dialog = none
  coherent : program.Coherent lists
  customDc : program.statics.customDc = ""
  listed : ∀ host, d.currentItem = some host → ∃ hosts, lists d.domain hosts ∧ host ∈ hosts
  connects : ∀ (host : String) (network : Network), d.currentItem = some host → host ≠ "" →
    host ∈ network.domainHosts (program.statics.domain network) →
      (AdInterface.construct network program.statics).2.isConnected = true →
        (AdInterface.construct network program.statics).2.dc = host

theorem Coherent.stores {d : ConnectionOptionsDialog} (h : program.Coherent lists)
    (hlisted : d.Listed lists) (hsettings : program.settings = d.settings)
    (hdialog : program.dialog = none) (hcustom : program.statics.customDc = "") :
    program.Stores lists d where
  settings := hsettings
  dialog := hdialog
  coherent := h
  customDc := hcustom
  listed host hhost := by
    have hmem := hlisted.current host hhost
    obtain hnil | hlists := hlisted.shown
    · exact absurd (hnil ▸ hmem) List.not_mem_nil
    · exact ⟨d.hostSelectList, hlists, hmem⟩
  connects host network hhost hne hmem hconnected := by
    have hstored : program.settings.host.getD "" = host := by
      rw [hsettings, ConnectionOptionsDialog.settings, hhost]
      rfl
    have hdc : program.statics.dc = host := (h.host (hstored ▸ hne)).trans hstored
    rw [← hdc] at hmem hne ⊢
    exact dc_of_isConnected hconnected hcustom hmem hne

/-- The settings of a dialog have been loaded, and its interface is connected. -/
theorem Coherent.tryOptions {d : ConnectionOptionsDialog} {config : Option ConfigSource}
    (hlisted : d.Listed lists)
    (hconfig : ∀ source, config = some source → source.domainIsDefault = d.hostDefaultButton ∧
      (source.domainIsDefault = false → source.domain = d.customDomain)) :
    Coherent lists ⟨d.settings, (program.tryOptions network d).1, config, none⟩ :=
  (coherent_loaded (.inl rfl) (.inr ⟨d, hlisted.cert, rfl⟩) hconfig fun _ hd => by
    cases hd).construct network

/-- What becomes of a dialog that is accepted: it asks for a host and changes nothing; or there is
    no connection, and the stored options are loaded again; or it stores what it shows. -/
def Outcome (lists : String → List String → Prop) (network : Network)
    (d : ConnectionOptionsDialog) (program program' : ConnectionProgram) : Prop :=
  if d.anyHostsAvailable ∧ ¬d.isSelected then program' = program
  else if ¬(program.tryOptions network d).2.isConnected then
    program' =
      { program with statics := { program.statics with dc := program.settings.host.getD "" } }
  else program'.Stores lists d

theorem Coherent.outcome (h : program.Coherent lists) {d : ConnectionOptionsDialog}
    (hd : program.dialog = some d) (network : Network) :
    Outcome lists network d program (program.accept network d) := by
  have hlisted := h.dialog d hd
  obtain ⟨dc, hdc, -⟩ := @construct_fst network (loadConnectionOptions program.settings
    (some d.settings) { program.statics with customDc := "" })
  unfold Outcome ConnectionProgram.accept
  dsimp only
  by_cases hrefused : d.anyHostsAvailable = true ∧ ¬d.isSelected = true
  · rw [if_pos hrefused, if_pos hrefused]
  rw [if_neg hrefused, if_neg hrefused]
  by_cases hconnected : (program.tryOptions network d).2.isConnected = true
  · rw [if_neg (not_not.2 hconnected), if_neg (not_not.2 hconnected)]
    have hcustom : (program.tryOptions network d).1.customDc = "" :=
      congrArg AdStatics.customDc hdc
    split_ifs with hchanged
    · -- the schema is loaded again, whatever it has been loaded from
      refine Coherent.stores ?_ hlisted rfl rfl hcustom
      have hcoherent : Coherent lists ⟨d.settings, (program.tryOptions network d).1, none, none⟩ :=
        Coherent.tryOptions hlisted fun _ hsource => by cases hsource
      refine hcoherent.loadGAdconfig network ?_
      exact domain_construct.trans (congrArg (AdStatics.domain network) hdc).symm
    · obtain ⟨hdefault, hsame⟩ := not_or.1 hchanged
      have hne := domain_ne_of_isConnected hconnected
      obtain ⟨hinuse, hdomain⟩ := domain_kept h hne (not_not.1 hdefault) (not_not.1 hsame)
      refine Coherent.stores ?_ hlisted rfl rfl hcustom
      exact Coherent.tryOptions hlisted fun source hsource =>
        hinuse ▸ hdomain ▸ h.config source hsource
  · rw [if_pos hconnected, if_pos hconnected, ConnectionProgram.tryOptions, hdc]
    exact congrArg (fun statics => { program with statics }) h.options

theorem Coherent.of_outcome {d : ConnectionOptionsDialog} {program' : ConnectionProgram}
    (h : program.Coherent lists) (houtcome : Outcome lists network d program program') :
    program'.Coherent lists := by
  unfold Outcome at houtcome
  split_ifs at houtcome
  · exact houtcome ▸ h
  · exact houtcome.coherent
  · rw [houtcome]
    exact { h with host := fun _ => rfl, options := h.options }

/-- What each event keeps. -/
theorem Coherent.handle (h : program.Coherent lists) {event : ConnectionEvent}
    (hpossible : event.Possible lists) : (program.handle names event).Coherent lists := by
  cases event with
  | main dcOption network => exact h.main dcOption network
  | construct network => exact h.construct network
  | initOnConnect network => exact h.initOnConnect network
  | connectHostWithRole dir role network =>
    rw [ConnectionProgram.handle]
    dsimp only
    split_ifs
    · exact (h.construct network).connectHostWithRole _
    · exact h.construct network
  | openDialog network =>
    refine { h with dialog := fun d hd => ?_ }
    obtain rfl := Option.some.inj hd
    exact ConnectionOptionsDialog.listed_construct hpossible (isSome_ofText_of_stored h.stored)
  | edit edit =>
    refine { h with dialog := fun d hd => ?_ }
    obtain ⟨d₀, hd₀, rfl⟩ := Option.map_eq_some_iff.1 hd
    exact (h.dialog d₀ hd₀).edit hpossible
  | accept network =>
    rw [ConnectionProgram.handle]
    cases hd : program.dialog with
    | none => exact h
    | some d => exact h.of_outcome (h.outcome hd network)
  | reject => exact { h with dialog := fun d hd => by cases hd }

/-- The dialog shows the options in use: if they were loaded, no option would change. -/
def Shows (program : ConnectionProgram) (d : ConnectionOptionsDialog) : Prop :=
  { loadConnectionOptions program.settings (some d.settings) program.statics with
    dc := program.statics.dc } = program.statics

theorem coherent_new : Coherent lists new where
  options := rfl
  host hne := absurd rfl hne
  customDc := .inl rfl
  stored := .inl rfl
  config := fun source hsource => by cases hsource
  dialog := fun d hd => by cases hd

/-- A dialog that is opened shows the options in use just when some have been stored. -/
theorem Coherent.shows_construct (h : program.Coherent lists) :
    program.Shows (.construct program.settings network) ↔
      program.settings.domainIsDefault.isSome = true := by
  obtain ⟨host, hsettings⟩ := @ConnectionOptionsDialog.settings_construct program.settings network
  rw [Shows, hsettings]
  obtain hfresh | ⟨d, hcert, hd⟩ := h.stored
  · -- the dialog takes the domain for a custom one, but the default one is in use
    have hinuse := congrArg AdStatics.domainIsDefault h.options
    rw [hfresh] at hinuse ⊢
    refine iff_of_false (fun hshows => ?_) Bool.false_ne_true
    exact Bool.false_ne_true ((congrArg AdStatics.domainIsDefault hshows).trans hinuse.symm)
  · obtain ⟨strategy, hstrategy⟩ := Option.isSome_iff_exists.1 hcert
    have hoptions := congrArg (fun statics : AdStatics =>
      { statics with dc := program.statics.dc }) h.options
    refine iff_of_true (Eq.trans ?_ hoptions) (by rw [hd]; rfl)
    rw [hd]
    simp [loadConnectionOptions, ConnectionSettings.getVariant, ConnectionOptionsDialog.settings,
      hstrategy]

end ConnectionProgram

/-- In every run, with any number of starts, the options in use are those that are stored, and
    what is known of the schema is from the domain that is in use. -/
theorem ConnectionProgram.inUse_of_run (names : DomainNames)
    (lists : String → List String → Prop) (program : ConnectionProgram)
    (h : Run (· = new) (fun _ => ConnectionEvent.Possible lists) (handle · names) program) :
    program.Coherent lists := by
  refine h.invariant ?_ fun _ _ hcoherent hpossible => hcoherent.handle hpossible
  rintro program rfl
  exact coherent_new

/-- A domain with two hosts, which are connected to. -/
def twoHosts : Network where
  realm := "DOMAIN.ALT"
  domainHosts domain := if domain = "DOMAIN.ALT" then ["dc1.domain.alt", "dc2.domain.alt"] else []
  binds _ _ := true

/-- The hosts of each domain stay. -/
def StaysListed (domain : String) (hosts : List String) : Prop :=
  hosts = twoHosts.domainHosts domain

namespace ConnectionProgram

open ServerDnAttrsUpdater in
/-- The program is started for the first time, and the second host is chosen. -/
def secondChosen : ConnectionProgram :=
  [.main none twoHosts, .openDialog twoHosts, .edit (.checkDefault true),
    .edit (.selectHost "dc2.domain.alt")].foldl (handle · sampleNames) new

theorem run_secondChosen : Run (· = new) (fun _ => ConnectionEvent.Possible StaysListed)
    (handle · ServerDnAttrsUpdater.sampleNames) secondChosen := by
  have hlists : twoHosts.Lists StaysListed := fun _ => rfl
  have hnew : Run (· = new) (fun _ => ConnectionEvent.Possible StaysListed)
      (handle · ServerDnAttrsUpdater.sampleNames) new := .start rfl
  have hmain := hnew.next (a := ConnectionEvent.main none twoHosts) hlists
  have hopen := hmain.next (a := ConnectionEvent.openDialog twoHosts) hlists
  have hdefault := hopen.next (a := ConnectionEvent.edit (.checkDefault true)) trivial
  exact hdefault.next (a := ConnectionEvent.edit (.selectHost "dc2.domain.alt")) trivial

end ConnectionProgram

/-- The options of the first start are in use. -/
theorem ConnectionProgram.inUse_of_run_second :
    secondChosen.statics.dc = "dc1.domain.alt" ∧ secondChosen.Coherent StaysListed :=
  ⟨by decide, inUse_of_run ServerDnAttrsUpdater.sampleNames StaysListed secondChosen
    run_secondChosen⟩

/-- In every run, a dialog that is accepted asks for a host, or leaves the settings and the options
    in use as they were, or stores and uses what it shows; and which of these it does depends on
    whether a host is selected where there are any, and on whether there is a connection. -/
theorem ConnectionProgram.accepted_of_run (names : DomainNames)
    (lists : String → List String → Prop) (program : ConnectionProgram)
    (d : ConnectionOptionsDialog) (network : Network)
    (h : Run (· = new) (fun _ => ConnectionEvent.Possible lists) (handle · names) program)
    (hd : program.dialog = some d) :
    Outcome lists network d program (program.handle names (.accept network)) := by
  have haccept : program.handle names (.accept network) = program.accept network d := by
    rw [handle, hd]
  rw [haccept]
  exact (inUse_of_run names lists program h).outcome hd network

/-- The dialog in which the second host has been chosen. -/
def ConnectionOptionsDialog.secondChosen : ConnectionOptionsDialog :=
  ((ConnectionOptionsDialog.construct ConnectionProgram.secondChosen.settings twoHosts).edit
    ConnectionProgram.secondChosen.settings (.checkDefault true)).edit
      ConnectionProgram.secondChosen.settings (.selectHost "dc2.domain.alt")

open ServerDnAttrsUpdater in
/-- The second host is stored. -/
theorem ConnectionProgram.accepted_of_run_second :
    let program' := secondChosen.handle sampleNames (.accept twoHosts)
    program'.settings.host = some "dc2.domain.alt" ∧
      Outcome StaysListed twoHosts .secondChosen secondChosen program' :=
  ⟨rfl, accepted_of_run sampleNames StaysListed secondChosen .secondChosen twoHosts
    run_secondChosen rfl⟩

/-- In every run, a dialog that is opened shows the options in use just when some have been
    stored. -/
theorem ConnectionProgram.shows_of_run (names : DomainNames)
    (lists : String → List String → Prop) (program : ConnectionProgram) (network : Network)
    (h : Run (· = new) (fun _ => ConnectionEvent.Possible lists) (handle · names) program) :
    program.Shows (.construct program.settings network) ↔
      program.settings.domainIsDefault.isSome = true :=
  (inUse_of_run names lists program h).shows_construct

open ServerDnAttrsUpdater in
/-- At the first start, the dialog does not show the options in use; and it does once they have
    been stored. -/
theorem ConnectionProgram.shows_of_run_second :
    let stored := secondChosen.handle sampleNames (.accept twoHosts)
    ¬secondChosen.Shows (.construct secondChosen.settings twoHosts) ∧
      stored.Shows (.construct stored.settings twoHosts) := by
  have hstored := run_secondChosen.next (a := ConnectionEvent.accept twoHosts) fun _ => rfl
  constructor
  · intro hshows
    exact absurd ((shows_of_run sampleNames StaysListed secondChosen twoHosts run_secondChosen).1
      hshows) Bool.false_ne_true
  · exact (shows_of_run sampleNames StaysListed _ twoHosts hstored).2 rfl

end Admc
