import Admc.Console.ServerMove
import Admc.Lib.Run

/-!
# The owners of the FSMO roles

A role is named by the DN of an object, whose attribute names the settings of the server
that owns the role. The roles are shown in a table and on the tabs of a dialog, and both take
them over for the host that is connected; the dialog tells the table.

* `fsmoRoleFromDn_eq_some_iff`: a DN is read as the role whose object it names, in whatever
  letter case;
* `FsmoConsole.roles_of_run`: in every run the table and the tabs show the owners that the
  directory has, and no role changes its owner but the one that is taken over.
-/

namespace Admc

/-! ## The objects of roles -/

section
variable (tables : CaseTables) (names : DomainNames)

/-- A DN in lower case. -/
def lowerDn (dn : String) : QString := tables.lower dn.toList

/-- `fsmo_role_from_dn`. -/
def fsmoRoleFromDn (roleDn : String) : Option FSMORole :=
  let dnLower := lowerDn tables roleDn
  if dnLower = lowerDn tables names.domainDn then some .pdcEmulation
  else if dnLower = lowerDn tables names.schemaDn then some .schema
  else if dnLower = lowerDn tables names.partitionsDn then some .domainNaming
  else if dnLower = lowerDn tables ("cn=infrastructure,dc=domaindnszones," ++ names.domainDn) then
    some .domainDNS
  else if dnLower = lowerDn tables ("cn=infrastructure,dc=forestdnszones," ++ names.domainDn) then
    some .forestDNS
  else if dnLower = lowerDn tables ("cn=infrastructure," ++ names.domainDn) then
    some .infrastructure
  else if dnLower = lowerDn tables ("cn=rid manager$,cn=system," ++ names.domainDn) then
    some .ridAllocation
  else none

end

/-- The DNs of the domain and of the schema begin as they do in a directory. -/
structure DomainNames.Usual (tables : CaseTables) (names : DomainNames) : Prop where
  domainDn : "dc=".toList <+: lowerDn tables names.domainDn
  schemaDn : "cn=schema,".toList <+: lowerDn tables names.schemaDn

section
variable {tables : CaseTables} {names : DomainNames} {role role' : FSMORole} {roleDn : String}

theorem lowerDn_append {text : String} (hascii : ∀ c ∈ text.toList, c.val < 128) (dn : String) :
    lowerDn tables (text ++ dn) = text.toList.map Char.toLower ++ lowerDn tables dn := by
  rw [lowerDn, String.toList_append, CaseTables.lower_append, CaseTables.lower_of_ascii hascii]
  rfl

/-- How the DN of the object of a role begins, in lower case. -/
def fsmoDnPrefix : FSMORole → QString
  | .domainDNS => "cn=infrastructure,dc=domaindnszones,".toList
  | .forestDNS => "cn=infrastructure,dc=forestdnszones,".toList
  | .pdcEmulation => "dc=".toList
  | .schema => "cn=schema,".toList
  | .domainNaming => "cn=partitions,".toList
  | .infrastructure => "cn=infrastructure,".toList
  | .ridAllocation => "cn=rid manager$,cn=system,".toList

/-- The rest of the DN, where it is that of the domain. -/
theorem lowerDn_fsmoDnFromRole (hrole : role ≠ .pdcEmulation) (hschema : role ≠ .schema)
    (hnaming : role ≠ .domainNaming) : lowerDn tables (fsmoDnFromRole names role) =
      fsmoDnPrefix role ++ lowerDn tables names.domainDn := by
  cases role with
  | pdcEmulation => exact absurd rfl hrole
  | schema => exact absurd rfl hschema
  | domainNaming => exact absurd rfl hnaming
  | _ =>
    unfold fsmoDnFromRole fsmoDnPrefix
    dsimp only
    rw [lowerDn_append (by simp)]
    simp

theorem prefix_lowerDn (h : names.Usual tables) (role : FSMORole) :
    fsmoDnPrefix role <+: lowerDn tables (fsmoDnFromRole names role) := by
  cases role with
  | pdcEmulation => exact h.domainDn
  | schema => exact h.schemaDn
  | domainNaming =>
    unfold fsmoDnFromRole fsmoDnPrefix DomainNames.partitionsDn
    dsimp only
    rw [lowerDn_append (by simp)]
    simp
  | _ =>
    rw [lowerDn_fsmoDnFromRole (by decide) (by decide) (by decide)]
    exact List.prefix_append _ _

/-- Different roles have different objects. -/
theorem lowerDn_injective (h : names.Usual tables)
    (heq : lowerDn tables (fsmoDnFromRole names role) =
      lowerDn tables (fsmoDnFromRole names role')) : role = role' := by
  have hprefix := List.prefix_or_prefix_of_prefix (prefix_lowerDn h role)
    (heq ▸ prefix_lowerDn h role')
  have hlength := congrArg List.length heq
  -- the DNs of the infrastructure objects begin alike, but are of different lengths
  cases role <;> cases role' <;> first
    | rfl
    | exact absurd hprefix (by decide)
    | rw [lowerDn_fsmoDnFromRole (by decide) (by decide) (by decide),
        lowerDn_fsmoDnFromRole (by decide) (by decide) (by decide), List.length_append,
        List.length_append] at hlength
      exact absurd (Nat.add_right_cancel hlength) (by decide)

/-- The DN that is compared differs from that of the object in its letter case alone. -/
theorem lowerDn_compared {text : String} (hascii : ∀ c ∈ text.toList, c.val < 128)
    (htext : text.toList.map Char.toLower = fsmoDnPrefix role) (hrole : role ≠ .pdcEmulation)
    (hschema : role ≠ .schema) (hnaming : role ≠ .domainNaming) :
    lowerDn tables (text ++ names.domainDn) = lowerDn tables (fsmoDnFromRole names role) := by
  rw [lowerDn_append hascii, htext, lowerDn_fsmoDnFromRole hrole hschema hnaming]

theorem fsmoRoleFromDn_eq : fsmoRoleFromDn tables names roleDn =
    let dnLower := lowerDn tables roleDn
    let key role := lowerDn tables (fsmoDnFromRole names role)
    if dnLower = key .pdcEmulation then some .pdcEmulation
    else if dnLower = key .schema then some .schema
    else if dnLower = key .domainNaming then some .domainNaming
    else if dnLower = key .domainDNS then some .domainDNS
    else if dnLower = key .forestDNS then some .forestDNS
    else if dnLower = key .infrastructure then some .infrastructure
    else if dnLower = key .ridAllocation then some .ridAllocation
    else none := by
  have hdomain := @lowerDn_compared tables names .domainDNS
    "cn=infrastructure,dc=domaindnszones," (by simp) (by unfold fsmoDnPrefix; simp) (by decide)
    (by decide) (by decide)
  have hforest := @lowerDn_compared tables names .forestDNS
    "cn=infrastructure,dc=forestdnszones," (by simp) (by unfold fsmoDnPrefix; simp) (by decide)
    (by decide) (by decide)
  have hinfrastructure := @lowerDn_compared tables names .infrastructure
    "cn=infrastructure," (by simp) (by unfold fsmoDnPrefix; simp) (by decide) (by decide)
    (by decide)
  have hrid := @lowerDn_compared tables names .ridAllocation
    "cn=rid manager$,cn=system," (by simp) (by unfold fsmoDnPrefix; simp) (by decide) (by decide)
    (by decide)
  unfold fsmoRoleFromDn
  simp only [hdomain, hforest, hinfrastructure, hrid]
  rfl

/-- A DN is read as the role whose object it names, in whatever letter case. -/
theorem fsmoRoleFromDn_eq_some_iff (h : names.Usual tables) :
    fsmoRoleFromDn tables names roleDn = some role ↔
      lowerDn tables roleDn = lowerDn tables (fsmoDnFromRole names role) := by
  rw [fsmoRoleFromDn_eq]
  dsimp only
  constructor
  · intro hrole
    split_ifs at hrole <;> cases hrole <;> assumption
  · intro hdn
    have hinj : ∀ role', lowerDn tables (fsmoDnFromRole names role) =
        lowerDn tables (fsmoDnFromRole names role') ↔ role = role' := fun role' =>
      ⟨lowerDn_injective h, fun heq => heq ▸ rfl⟩
    simp only [hdn, hinj]
    cases role <;> rfl

end

/-! ## The table and the dialog -/

/-- What the root of the directory says of the host that is connected: the DNs of its server and
    of the settings of that. -/
structure RootDse where
  serverName : String
  dsServiceName : String

/-- A row of the table: the host, and whether the button says that it has captured the role, and
    is disabled. -/
structure FsmoRow where
  host : String
  isCaptured : Bool

/-- `class FsmoTableWidget`, after it has been updated. -/
structure FsmoTable where
  rows : FSMORole → FsmoRow
  currentDcDnsName : String
  dnDnsNameMap : QHash String String

/-- `class FSMOTab`. -/
structure FsmoTab where
  currentEdit : String
  newEdit : String

/-- The directory, the host that is connected, the table, and the tabs of the dialog if it is
    open. -/
structure FsmoConsole where
  dir : ReferringDirectory
  rootDse : RootDse
  table : Option FsmoTable
  tabs : FSMORole → Option FsmoTab

/-- `ad_current_dc_dns_host_name`. -/
def adCurrentDcDnsHostName (dir : ReferringDirectory) (rootDse : RootDse) : String :=
  (dir.searchObject rootDse.serverName).dnsHostName

section
variable (tables : CaseTables) (names : DomainNames) (rootDomainDn : String)

/-- `fsmo_set_master`, given whether the server accepts the request. -/
def fsmoSetMaster (dir : ReferringDirectory) (rootDse : RootDse) (roleDn : String)
    (accepted : Bool) : ReferringDirectory × Bool :=
  let newMasterService := rootDse.dsServiceName
  if newMasterService = "" ∧ (dir.searchObject roleDn).fsmoRoleOwner = "" then (dir, true)
  else if accepted ∧ roleDn ∈ dir.dns then
    (dir.modify roleDn fun entry => { entry with fsmoRoleOwner := newMasterService }, true)
  else (dir, false)

/-- The hosts that `DomainInfoResultsWidget::search_results` finds. -/
def hostsList (dir : ReferringDirectory) : List String :=
  let sitesContainerDn := "CN=Sites,CN=Configuration," ++ rootDomainDn
  (dir.search sitesContainerDn .children "site").flatMap fun siteDn =>
    dir.search ("CN=Servers," ++ siteDn) .children "server"

/-- `FsmoTableWidget::update`, from the hosts whose names are known. -/
def FsmoTable.update (dnDnsNameMap : QHash String String) (dir : ReferringDirectory)
    (rootDse : RootDse) (hosts : List String) : FsmoTable :=
  let currentDcDnsName := adCurrentDcDnsHostName dir rootDse
  { rows role :=
      let currentMaster := fsmoCurrentMasterForRole names dir role
      ⟨currentMaster, currentDcDnsName = currentMaster⟩
    currentDcDnsName := currentDcDnsName
    dnDnsNameMap := hosts.foldl (fun map dn => map.insert dn (dir.entry dn).dnsHostName)
      dnDnsNameMap }

/-- `FsmoTableWidget::update_role_owner`: a button is not enabled again. -/
def FsmoTable.updateRoleOwner (table : FsmoTable) (newMasterDn fsmoRoleDn : String) : FsmoTable :=
  let newMasterDnsName := table.dnDnsNameMap.value newMasterDn ""
  if newMasterDnsName = "" then table
  else
    match fsmoRoleFromDn tables names fsmoRoleDn with
    | none => table
    | some role =>
      let row : FsmoRow :=
        { host := newMasterDnsName
          isCaptured := (table.rows role).isCaptured ||
            decide (newMasterDnsName = table.currentDcDnsName) }
      { table with rows := Function.update table.rows role row }

/-- `FSMOTab::load`. -/
def FsmoTab.load (dir : ReferringDirectory) (rootDse : RootDse) (role : FSMORole) : FsmoTab :=
  ⟨fsmoCurrentMasterForRole names dir role, adCurrentDcDnsHostName dir rootDse⟩

namespace FsmoConsole

variable (console : FsmoConsole)

/-- `DomainInfoResultsWidget::update`. -/
def refresh (connected : Bool) : FsmoConsole :=
  if !connected then console
  else
    let known := (console.table.map FsmoTable.dnDnsNameMap).getD []
    { console with table := some (FsmoTable.update names known console.dir console.rootDse
        (hostsList rootDomainDn console.dir)) }

/-- `FsmoTableWidget::on_fsmo_capture`: a button that is disabled is not clicked. -/
def onFsmoCapture (role : FSMORole) (connected yes accepted : Bool) : FsmoConsole :=
  match console.table with
  | none => console
  | some table =>
    if (table.rows role).isCaptured then console
    else if !connected then console
    else if !yes then console
    else
      let (dir, success) :=
        fsmoSetMaster console.dir console.rootDse (fsmoDnFromRole names role) accepted
      let row : FsmoRow :=
        if success then ⟨table.currentDcDnsName, true⟩
        else { table.rows role with isCaptured := false }
      { console with
        dir := dir
        table := some { table with rows := Function.update table.rows role row } }

/-- `FSMODialog::FSMODialog`. -/
def openDialog : FsmoConsole :=
  { console with tabs := fun role => some (.load names console.dir console.rootDse role) }

/-- The dialog is closed. -/
def closeDialog : FsmoConsole := { console with tabs := fun _ => none }

/-- `FSMOTab::change_master`, with the handler of `master_changed`. -/
def changeMaster (role : FSMORole) (connected accepted : Bool) : FsmoConsole :=
  match console.tabs role with
  | none => console
  | some tab =>
    if !connected then console
    else if tab.currentEdit = tab.newEdit then console
    else
      let roleDn := fsmoDnFromRole names role
      let (dir, success) := fsmoSetMaster console.dir console.rootDse roleDn accepted
      if success then
        { console with
          dir := dir
          tabs := Function.update console.tabs role (some (.load names dir console.rootDse role))
          table := console.table.map
            (·.updateRoleOwner tables names console.rootDse.serverName roleDn) }
      else { console with dir := dir }

/-- Another host is connected, and the table is updated. -/
def connectTo (rootDse : RootDse) (connected : Bool) : FsmoConsole :=
  { console with rootDse := rootDse }.refresh names rootDomainDn connected

end FsmoConsole

/-- What is done to the roles. -/
inductive FsmoOp
  | refresh (connected : Bool)
  | capture (role : FSMORole) (connected yes accepted : Bool)
  | openDialog
  | closeDialog
  | changeMaster (role : FSMORole) (connected accepted : Bool)
  | connectTo (rootDse : RootDse) (connected : Bool)

namespace FsmoOp

/-- The effect of an operation. -/
def run (console : FsmoConsole) : FsmoOp → FsmoConsole
  | refresh connected => console.refresh names rootDomainDn connected
  | capture role connected yes accepted => console.onFsmoCapture names role connected yes accepted
  | openDialog => console.openDialog names
  | closeDialog => console.closeDialog
  | changeMaster role connected accepted =>
    console.changeMaster tables names role connected accepted
  | connectTo rootDse connected => console.connectTo names rootDomainDn rootDse connected

/-- The role that an operation takes over. -/
def role : FsmoOp → Option FSMORole
  | capture role _ _ _ => some role
  | changeMaster role _ _ => some role
  | _ => none

end FsmoOp

end

/-! ## What is shown -/

/-- The host is that of a server with a name, whose settings are below it. -/
structure RootDse.Hosts (dir : ReferringDirectory) (rootDse : RootDse) : Prop where
  parent : dnParent rootDse.dsServiceName = rootDse.serverName
  service : rootDse.dsServiceName ≠ ""
  host : adCurrentDcDnsHostName dir rootDse ≠ ""

/-- The table shows the owners of the roles, and which of them is connected. -/
structure FsmoTable.Shown (names : DomainNames) (dir : ReferringDirectory) (rootDse : RootDse)
    (table : FsmoTable) : Prop where
  host : ∀ role, (table.rows role).host = fsmoCurrentMasterForRole names dir role
  isCaptured : ∀ role,
    (table.rows role).isCaptured = true ↔ (table.rows role).host = table.currentDcDnsName
  current : table.currentDcDnsName = adCurrentDcDnsHostName dir rootDse
  known : table.dnDnsNameMap.value rootDse.serverName "" = adCurrentDcDnsHostName dir rootDse

/-- What is shown is what the directory has. -/
structure FsmoConsole.Shown (names : DomainNames) (console : FsmoConsole) : Prop where
  hosts : console.rootDse.Hosts console.dir
  table : ∀ table, console.table = some table → table.Shown names console.dir console.rootDse
  tabs : ∀ role tab, console.tabs role = some tab →
    tab = .load names console.dir console.rootDse role

/-- Where what is shown stays so. The dialog is modal; and when another host is connected, it is
    one of those that are found, and the table is updated. -/
def FsmoOp.Meets (rootDomainDn : String) (console : FsmoConsole) : FsmoOp → Prop
  | refresh connected =>
    connected = true → console.rootDse.serverName ∈ hostsList rootDomainDn console.dir
  | capture _ _ _ _ => ∀ role, console.tabs role = none
  | connectTo rootDse connected =>
    (∀ role, console.tabs role = none) ∧ connected = true ∧ rootDse.Hosts console.dir ∧
      rootDse.serverName ∈ hostsList rootDomainDn console.dir
  | _ => True

section
variable {tables : CaseTables} {names : DomainNames} {rootDomainDn : String}
  {dir dir' : ReferringDirectory} {rootDse : RootDse} {role role' : FSMORole} {accepted : Bool}
  {roleDn dn : String} {console : FsmoConsole} {table : FsmoTable}

/-! ## A role that is taken over -/

/-- Nothing but the owner of the role changes. -/
theorem searchObject_fsmoSetMaster :
    ((fsmoSetMaster dir rootDse roleDn accepted).1.searchObject dn).dnsHostName =
        (dir.searchObject dn).dnsHostName ∧
      (dn ≠ roleDn → (fsmoSetMaster dir rootDse roleDn accepted).1.searchObject dn =
        dir.searchObject dn) := by
  rw [fsmoSetMaster]
  split_ifs with hsame hdn
  · exact ⟨rfl, fun _ => rfl⟩
  · unfold ReferringDirectory.searchObject
    rw [ReferringDirectory.dns_modify, ReferringDirectory.entry_modify]
    split_ifs with hmem heq
    · exact ⟨heq.1 ▸ rfl, fun hne => absurd heq.1 hne⟩
    · exact ⟨rfl, fun _ => rfl⟩
    · exact ⟨rfl, fun _ => rfl⟩
  · exact ⟨rfl, fun _ => rfl⟩

theorem adCurrentDcDnsHostName_fsmoSetMaster :
    adCurrentDcDnsHostName (fsmoSetMaster dir rootDse roleDn accepted).1 rootDse =
      adCurrentDcDnsHostName dir rootDse := searchObject_fsmoSetMaster.1

theorem RootDse.Hosts.fsmoSetMaster (h : rootDse.Hosts dir) :
    rootDse.Hosts (fsmoSetMaster dir rootDse roleDn accepted).1 :=
  ⟨h.parent, h.service, fun hhost => h.host (adCurrentDcDnsHostName_fsmoSetMaster.symm.trans hhost)⟩

/-- The objects of different roles are different. -/
theorem fsmoDnFromRole_ne (hnames : names.Usual tables) (hne : role' ≠ role) :
    fsmoDnFromRole names role' ≠ fsmoDnFromRole names role := fun heq =>
  hne (lowerDn_injective hnames (congrArg (lowerDn tables) heq))

/-- The role goes to the host that is connected if it succeeds, and the others stay. -/
theorem fsmoCurrentMasterForRole_fsmoSetMaster (hnames : names.Usual tables)
    (hhosts : rootDse.Hosts dir) :
    let result := fsmoSetMaster dir rootDse (fsmoDnFromRole names role) accepted
    (∀ role', role' ≠ role → fsmoCurrentMasterForRole names result.1 role' =
      fsmoCurrentMasterForRole names dir role') ∧
    fsmoCurrentMasterForRole names result.1 role =
      if result.2 then adCurrentDcDnsHostName dir rootDse
      else fsmoCurrentMasterForRole names dir role := by
  intro result
  constructor
  · intro role' hne
    unfold fsmoCurrentMasterForRole adCurrentMasterForRoleDn
    dsimp only
    rw [searchObject_fsmoSetMaster.1,
      (@searchObject_fsmoSetMaster dir rootDse accepted _ _).2 (fsmoDnFromRole_ne hnames hne)]
  · unfold fsmoCurrentMasterForRole adCurrentMasterForRoleDn
    dsimp only
    rw [searchObject_fsmoSetMaster.1]
    have hresult : result = fsmoSetMaster dir rootDse (fsmoDnFromRole names role) accepted := rfl
    unfold fsmoSetMaster at hresult
    dsimp only at hresult
    rw [if_neg (fun h => hhosts.service h.1)] at hresult
    split_ifs at hresult with haccepted
    · have howner : (result.1.searchObject (fsmoDnFromRole names role)).fsmoRoleOwner =
          rootDse.dsServiceName := by
        rw [hresult, ReferringDirectory.searchObject, ReferringDirectory.dns_modify,
          if_pos haccepted.2, ReferringDirectory.entry_modify, if_pos ⟨rfl, haccepted.2⟩]
      rw [howner, hhosts.parent, hresult]
      rfl
    · rw [hresult]
      rfl

/-- The names of the hosts that are found are known. -/
theorem value_foldl_insertName {name : String → String} {hosts : List String}
    {known : QHash String String} (h : dn ∈ hosts ∨ known.value dn "" = name dn) :
    (hosts.foldl (fun map dn => map.insert dn (name dn)) known).value dn "" = name dn := by
  induction hosts generalizing known with
  | nil => exact h.resolve_left List.not_mem_nil
  | cons host hosts ih =>
    refine ih ?_
    by_cases heq : dn = host
    · exact .inr (by rw [heq, QHash.value_insert, if_pos rfl])
    · rw [QHash.value_insert, if_neg heq]
      exact h.imp_left fun hmem => (List.mem_cons.1 hmem).resolve_left heq

theorem dns_of_mem_hostsList (h : dn ∈ hostsList rootDomainDn dir) : dn ∈ dir.dns := by
  obtain ⟨siteDn, -, hdn⟩ := List.mem_flatMap.1 h
  exact List.mem_of_mem_filter hdn

theorem owners_fsmoSetMaster (hnames : names.Usual tables) (hhosts : rootDse.Hosts dir)
    (role' : FSMORole) :
    let dir' := (fsmoSetMaster dir rootDse (fsmoDnFromRole names role) accepted).1
    fsmoCurrentMasterForRole names dir' role' = fsmoCurrentMasterForRole names dir role' ∨
      some role = some role' ∧
        fsmoCurrentMasterForRole names dir' role' = adCurrentDcDnsHostName dir rootDse := by
  obtain ⟨hothers, hrole⟩ := @fsmoCurrentMasterForRole_fsmoSetMaster tables names dir rootDse role
    accepted hnames hhosts
  by_cases heq : role' = role
  · rw [heq]
    split_ifs at hrole
    · exact .inr ⟨rfl, hrole⟩
    · exact .inl hrole
  · exact .inl (hothers role' heq)

theorem FsmoTable.shown_update {known : QHash String String}
    (hmem : rootDse.serverName ∈ hostsList rootDomainDn dir) :
    (FsmoTable.update names known dir rootDse (hostsList rootDomainDn dir)).Shown names dir
      rootDse := by
  refine ⟨fun _ => rfl, fun role => decide_eq_true_iff.trans eq_comm, rfl, ?_⟩
  refine (value_foldl_insertName (.inl hmem)).trans ?_
  rw [adCurrentDcDnsHostName, ReferringDirectory.searchObject, if_pos (dns_of_mem_hostsList hmem)]

/-- The table shows a role with its new owner, the host that is connected. -/
theorem FsmoTable.Shown.setRow {row : FsmoRow} (h : table.Shown names dir rootDse)
    (hothers : ∀ role', role' ≠ role →
      fsmoCurrentMasterForRole names dir' role' = fsmoCurrentMasterForRole names dir role')
    (hcurrent : adCurrentDcDnsHostName dir' rootDse = adCurrentDcDnsHostName dir rootDse)
    (hrow : row.host = fsmoCurrentMasterForRole names dir' role)
    (hcaptured : row.isCaptured = true ↔ row.host = table.currentDcDnsName) :
    ({ table with rows := Function.update table.rows role row } : FsmoTable).Shown names dir'
      rootDse where
  host role' := by
    by_cases heq : role' = role
    · rw [heq]
      exact (congrArg FsmoRow.host (Function.update_self ..)).trans hrow
    · refine (congrArg FsmoRow.host (Function.update_of_ne heq _ _)).trans ?_
      rw [h.host, hothers role' heq]
  isCaptured role' := by
    dsimp only
    by_cases heq : role' = role
    · rw [heq, Function.update_self]
      exact hcaptured
    · rw [Function.update_of_ne heq]
      exact h.isCaptured role'
  current := h.current.trans hcurrent.symm
  known := h.known.trans hcurrent.symm

/-- The table is told that the host that is connected owns a role. -/
theorem FsmoTable.shown_updateRoleOwner (hnames : names.Usual tables) (hhosts : rootDse.Hosts dir)
    (h : table.Shown names dir rootDse)
    (hothers : ∀ role', role' ≠ role →
      fsmoCurrentMasterForRole names dir' role' = fsmoCurrentMasterForRole names dir role')
    (hrole : fsmoCurrentMasterForRole names dir' role = adCurrentDcDnsHostName dir rootDse)
    (hcurrent : adCurrentDcDnsHostName dir' rootDse = adCurrentDcDnsHostName dir rootDse) :
    (table.updateRoleOwner tables names rootDse.serverName (fsmoDnFromRole names role)).Shown names
      dir' rootDse := by
  have hread : fsmoRoleFromDn tables names (fsmoDnFromRole names role) = some role :=
    (fsmoRoleFromDn_eq_some_iff hnames).2 rfl
  rw [updateRoleOwner, h.known, if_neg hhosts.host, hread]
  refine h.setRow hothers hcurrent hrole.symm (iff_of_true ?_ h.current.symm)
  rw [h.current, decide_eq_true rfl, Bool.or_true]

/-! ## Runs -/

/-- What is shown stays what the directory has, and no role changes its owner but the one that
    is taken over, which goes to the host that is connected. -/
structure FsmoConsole.StepShown (names : DomainNames) (role : Option FSMORole)
    (console console' : FsmoConsole) : Prop where
  shown : console'.Shown names
  owners : ∀ role', fsmoCurrentMasterForRole names console'.dir role' =
      fsmoCurrentMasterForRole names console.dir role' ∨
    role = some role' ∧ fsmoCurrentMasterForRole names console'.dir role' =
      adCurrentDcDnsHostName console.dir console.rootDse

namespace FsmoConsole

theorem StepShown.refl {role : Option FSMORole} (h : console.Shown names) :
    console.StepShown names role console := ⟨h, fun _ => .inl rfl⟩

theorem stepShown_refresh {connected : Bool} (hhosts : console.rootDse.Hosts console.dir)
    (hmem : connected = true → console.rootDse.serverName ∈ hostsList rootDomainDn console.dir)
    (htabs : ∀ role tab, console.tabs role = some tab →
      tab = .load names console.dir console.rootDse role)
    (hshown : connected = false → console.Shown names) :
    (console.refresh names rootDomainDn connected).Shown names := by
  cases connected with
  | false => exact hshown rfl
  | true =>
    refine ⟨hhosts, fun table htable => ?_, htabs⟩
    obtain rfl := Option.some.inj htable
    exact FsmoTable.shown_update (hmem rfl)

theorem stepShown_capture {connected yes : Bool} (hnames : names.Usual tables)
    (h : console.Shown names) (hclosed : ∀ role, console.tabs role = none) :
    console.StepShown names (some role)
      (console.onFsmoCapture names role connected yes accepted) := by
  rw [onFsmoCapture]
  cases htable : console.table with
  | none => exact .refl h
  | some table =>
    have hshown := h.table table htable
    obtain ⟨hothers, hrole⟩ := @fsmoCurrentMasterForRole_fsmoSetMaster tables names console.dir
      console.rootDse role accepted hnames h.hosts
    dsimp only
    split_ifs with hcaptured hconnected hyes hsuccess
    · exact .refl h
    · exact .refl h
    · exact .refl h
    · -- the role goes to the host that is connected
      rw [if_pos hsuccess] at hrole
      refine ⟨⟨h.hosts.fsmoSetMaster, fun table' htable' => ?_, fun role' tab htab => ?_⟩,
        fun role' => ?_⟩
      · obtain rfl := Option.some.inj htable'
        exact hshown.setRow hothers adCurrentDcDnsHostName_fsmoSetMaster
          (hshown.current.trans hrole.symm) (iff_of_true rfl rfl)
      · exact absurd (hclosed role') (by rw [htab]; simp)
      · exact owners_fsmoSetMaster hnames h.hosts role'
    · -- the owner stays, and the button is as it was
      rw [if_neg hsuccess] at hrole
      refine ⟨⟨h.hosts.fsmoSetMaster, fun table' htable' => ?_, fun role' tab htab => ?_⟩,
        fun role' => ?_⟩
      · obtain rfl := Option.some.inj htable'
        refine hshown.setRow hothers adCurrentDcDnsHostName_fsmoSetMaster
          ((hshown.host role).trans hrole.symm) (iff_of_false Bool.false_ne_true ?_)
        exact mt (hshown.isCaptured role).2 hcaptured
      · exact absurd (hclosed role') (by rw [htab]; simp)
      · exact owners_fsmoSetMaster hnames h.hosts role'

theorem stepShown_changeMaster {connected : Bool} (hnames : names.Usual tables)
    (h : console.Shown names) :
    console.StepShown names (some role)
      (console.changeMaster tables names role connected accepted) := by
  rw [changeMaster]
  cases htab : console.tabs role with
  | none => exact .refl h
  | some tab =>
    obtain ⟨hothers, hrole⟩ := @fsmoCurrentMasterForRole_fsmoSetMaster tables names console.dir
      console.rootDse role accepted hnames h.hosts
    have htabs : ∀ role' tab, role' ≠ role → console.tabs role' = some tab →
        tab = .load names (fsmoSetMaster console.dir console.rootDse (fsmoDnFromRole names role)
          accepted).1 console.rootDse role' := by
      intro role' tab hne htab
      rw [h.tabs role' tab htab, FsmoTab.load, FsmoTab.load, hothers role' hne,
        adCurrentDcDnsHostName_fsmoSetMaster]
    dsimp only
    split_ifs with hconnected hsame hsuccess
    · exact .refl h
    · exact .refl h
    · rw [if_pos hsuccess] at hrole
      refine ⟨⟨h.hosts.fsmoSetMaster, fun table' htable' => ?_, fun role' tab' htab' => ?_⟩,
        fun role' => ?_⟩
      · obtain ⟨table, htable, rfl⟩ := Option.map_eq_some_iff.1 htable'
        exact FsmoTable.shown_updateRoleOwner hnames h.hosts (h.table table htable) hothers hrole
          adCurrentDcDnsHostName_fsmoSetMaster
      · dsimp only at htab'
        by_cases heq : role' = role
        · rw [heq, Function.update_self] at htab'
          rw [heq]
          exact (Option.some.inj htab').symm
        · rw [Function.update_of_ne heq] at htab'
          exact htabs role' tab' heq htab'
      · exact owners_fsmoSetMaster hnames h.hosts role'
    · rw [if_neg hsuccess] at hrole
      have hall : ∀ role', fsmoCurrentMasterForRole names (fsmoSetMaster console.dir
          console.rootDse (fsmoDnFromRole names role) accepted).1 role' =
            fsmoCurrentMasterForRole names console.dir role' := by
        intro role'
        by_cases heq : role' = role
        · rw [heq, hrole]
        · exact hothers role' heq
      refine ⟨⟨h.hosts.fsmoSetMaster, fun table htable => ?_, fun role' tab' htab' => ?_⟩,
        fun role' => .inl (hall role')⟩
      · have hshown := h.table table htable
        exact ⟨fun role' => (hshown.host role').trans (hall role').symm, hshown.isCaptured,
          hshown.current.trans adCurrentDcDnsHostName_fsmoSetMaster.symm,
          hshown.known.trans adCurrentDcDnsHostName_fsmoSetMaster.symm⟩
      · rw [h.tabs role' tab' htab', FsmoTab.load, FsmoTab.load, hall role',
          adCurrentDcDnsHostName_fsmoSetMaster]

theorem stepShown_run {op : FsmoOp} (hnames : names.Usual tables) (h : console.Shown names)
    (hmeets : op.Meets rootDomainDn console) :
    console.StepShown names op.role (op.run tables names rootDomainDn console) := by
  cases op with
  | refresh connected =>
    refine ⟨stepShown_refresh h.hosts hmeets h.tabs fun _ => h, fun role => .inl ?_⟩
    rw [FsmoOp.run, refresh]
    split_ifs <;> rfl
  | capture role connected yes accepted => exact stepShown_capture hnames h hmeets
  | openDialog =>
    refine ⟨⟨h.hosts, h.table, fun role tab htab => ?_⟩, fun _ => .inl rfl⟩
    exact (Option.some.inj htab).symm
  | closeDialog => exact ⟨⟨h.hosts, h.table, by rintro role tab ⟨⟩⟩, fun _ => .inl rfl⟩
  | changeMaster role connected accepted => exact stepShown_changeMaster hnames h
  | connectTo rootDse connected =>
    obtain ⟨hclosed, rfl, hhosts, hmem⟩ := hmeets
    have hrefresh := @stepShown_refresh names rootDomainDn { console with rootDse := rootDse } true
      hhosts (fun _ => hmem) (fun role tab htab => ?_) fun hno => absurd hno (by decide)
    · exact ⟨hrefresh, fun role => .inl rfl⟩
    · cases (hclosed role).symm.trans htab

end FsmoConsole

end

namespace FsmoConsole

/-- In every run that starts with what the directory has, this is what is shown; and a further
    operation changes no owner but that of the role that it takes over, which goes to the host
    that is connected. -/
theorem roles_of_run (tables : CaseTables) (names : DomainNames) (rootDomainDn : String)
    (console : FsmoConsole) (op : FsmoOp) (hnames : names.Usual tables)
    (h : Run (Shown names) (fun console op => FsmoOp.Meets rootDomainDn console op)
      (FsmoOp.run tables names rootDomainDn) console) (hop : op.Meets rootDomainDn console) :
    console.Shown names ∧
      console.StepShown names op.role (op.run tables names rootDomainDn console) := by
  have hshown : console.Shown names :=
    h.invariant (fun _ hstart => hstart) fun _ _ h hmeets => (stepShown_run hnames h hmeets).shown
  exact ⟨hshown, stepShown_run hnames hshown hop⟩

open ServerDnAttrsUpdater in
/-- Before the roles have been shown. -/
def sampleConsole : FsmoConsole where
  dir := sampleDirectory ""
  rootDse := ⟨serverIn "B", ntdsSettings (serverIn "B")⟩
  table := none
  tabs _ := none

/-- The table is filled, and the PDC role is captured. -/
theorem roles_of_run_pdc :
    let refresh : FsmoOp := .refresh true
    let capture : FsmoOp := .capture .pdcEmulation true true true
    let names := ServerDnAttrsUpdater.sampleNames
    let console := refresh.run .ascii names "DC=domain,DC=alt" sampleConsole
    console.Shown names ∧ console.StepShown names capture.role
      (capture.run .ascii names "DC=domain,DC=alt" console) :=
  roles_of_run .ascii ServerDnAttrsUpdater.sampleNames "DC=domain,DC=alt" _
    (.capture .pdcEmulation true true true) ⟨by decide, by decide⟩
    (.next (.start ⟨⟨by decide, by decide, by decide⟩, by rintro table ⟨⟩, by rintro role tab ⟨⟩⟩)
      fun _ => by decide) fun _ => rfl

end FsmoConsole

end Admc
