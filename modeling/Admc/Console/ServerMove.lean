import Admc.Interface.Stores
import Mathlib.Logic.Function.Basic

/-!
# References to a server that is moved

Three kinds of attributes name the "NTDS Settings" of a server: the replica locations of
the zones of the DNS, the owners of the FSMO roles, and the inter-site topology generators.
After a server has been moved to another site, `ServerDnAttrsUpdater` rewrites them.

* The new DN is appended to the replica locations of each zone, also if the server was not
  among them.
* The owner of a role is found by comparing the DN of the server with the DNS name of the
  host of the owner. These are never the same, so the owners stay.

`referencesFollow_iff`: the references follow a server exactly if it owns no role, and has
a replica of each zone.
-/

namespace Admc

/-! ## The directory -/

/-- What is stored of an object, as far as it is about the references to servers. -/
structure ReferringEntry where
  objectClass : String
  ncName : String
  replicaLocations : List String
  fsmoRoleOwner : String
  interSiteTopologyGenerator : String
  dnsHostName : String
  deriving DecidableEq

/-- What is read of an object that is not there. -/
def ReferringEntry.empty : ReferringEntry := ⟨"", "", [], "", "", ""⟩

/-- A directory: the DNs of its objects, and what is stored of them. -/
structure ReferringDirectory where
  dns : List String
  entry : String → ReferringEntry

namespace ReferringDirectory

variable (dir : ReferringDirectory)

/-- `AdInterface::search`, for the objects of a class. -/
def search (base : String) (scope : SearchScope) (objectClass : String) : List String :=
  dir.dns.filter fun dn =>
    scope.includes base dn && (dir.entry dn).objectClass = objectClass

/-- `AdInterface::search_object`. -/
def searchObject (dn : String) : ReferringEntry :=
  if dn ∈ dir.dns then dir.entry dn else .empty

/-- Changing an object that is there. -/
def modify (dn : String) (change : ReferringEntry → ReferringEntry) : ReferringDirectory :=
  if dn ∈ dir.dns then { dir with entry := Function.update dir.entry dn (change (dir.entry dn)) }
  else dir

@[simp] theorem dns_modify {dn : String} {change : ReferringEntry → ReferringEntry} :
    (dir.modify dn change).dns = dir.dns := by
  rw [modify]
  split_ifs <;> rfl

theorem entry_modify {dn objDn : String} {change : ReferringEntry → ReferringEntry} :
    (dir.modify dn change).entry objDn =
      if objDn = dn ∧ dn ∈ dir.dns then change (dir.entry dn) else dir.entry objDn := by
  rw [modify]
  by_cases hmem : dn ∈ dir.dns
  · simp only [hmem, if_true, and_true, Function.update_apply]
  · simp only [hmem, if_false, and_false]

end ReferringDirectory

/-! ## The configuration -/

/-- The names that `AdConfig` has of the domain. -/
structure DomainNames where
  domainDn : String
  schemaDn : String
  configurationDn : String

namespace DomainNames

variable (names : DomainNames)

/-- `AdConfig::sites_container_dn`. -/
def sitesContainerDn : String := "CN=Sites," ++ names.configurationDn

/-- `AdConfig::partitions_dn`. -/
def partitionsDn : String := "CN=Partitions," ++ names.configurationDn

end DomainNames

/-- `FSMORole`. -/
inductive FSMORole
  | domainDNS
  | forestDNS
  | pdcEmulation
  | schema
  | domainNaming
  | infrastructure
  | ridAllocation
  deriving DecidableEq

/-- The roles, in the order of their numbers. -/
def fsmoRoles : List FSMORole :=
  [.domainDNS, .forestDNS, .pdcEmulation, .schema, .domainNaming, .infrastructure,
    .ridAllocation]

/-- `fsmo_dn_from_role`. -/
def fsmoDnFromRole (names : DomainNames) : FSMORole → String
  | .domainDNS => "CN=Infrastructure,DC=DomainDnsZones," ++ names.domainDn
  | .forestDNS => "CN=Infrastructure,DC=ForestDnsZones," ++ names.domainDn
  | .pdcEmulation => names.domainDn
  | .schema => names.schemaDn
  | .domainNaming => names.partitionsDn
  | .infrastructure => "CN=Infrastructure," ++ names.domainDn
  | .ridAllocation => "CN=RID Manager$,CN=System," ++ names.domainDn

/-- `dn_get_parent`. -/
def dnParent (dn : String) : String := String.ofList (dnGetParent dn.toList)

/-- `ad_current_master_for_role_dn`: the DNS name of the host of the owner. -/
def adCurrentMasterForRoleDn (dir : ReferringDirectory) (roleDn : String) : String :=
  let masterSettingsDn := (dir.searchObject roleDn).fsmoRoleOwner
  let masterDn := dnParent masterSettingsDn
  (dir.searchObject masterDn).dnsHostName

/-- `fsmo_current_master_for_role`. -/
def fsmoCurrentMasterForRole (names : DomainNames) (dir : ReferringDirectory) (role : FSMORole) :
    String :=
  adCurrentMasterForRoleDn dir (fsmoDnFromRole names role)

/-! ## The updater -/

namespace ServerDnAttrsUpdater

variable (names : DomainNames) (dn newServerDn : String)

/-- The DN of the settings of a server. -/
def ntdsSettings (serverDn : String) : String := "CN=NTDS Settings," ++ serverDn

/-- `cleanup_missing_site_dn_values`. -/
def cleanupMissingSiteDnValues (serverSettsDnList actualSiteList : List String) : List String :=
  serverSettsDnList.filter fun serverSettsDn =>
    actualSiteList.contains (dnParent (dnParent (dnParent serverSettsDn)))

/-- `dns_zone_nc_names`. -/
def dnsZoneNcNames : List String :=
  ["DC=DomainDnsZones," ++ names.domainDn, "DC=ForestDnsZones," ++ names.domainDn]

/-- The values that are written to the replica locations of a zone. -/
def newReplicaLocations (dir : ReferringDirectory) (crossrefDn : String) : List String :=
  let actualSiteDnList := dir.search names.sitesContainerDn .children "site"
  let values := (dir.entry crossrefDn).replicaLocations
  let values := values.filter (· ≠ ntdsSettings dn)
  let values := cleanupMissingSiteDnValues values actualSiteDnList
  values ++ [ntdsSettings newServerDn]

/-- The cross references that `update_replica_locations` finds, those of the zones. -/
def foundCrossrefs (dir : ReferringDirectory) : List String :=
  let partitionsDn := "CN=Partitions,CN=Configuration," ++ names.domainDn
  (dir.search partitionsDn .children "crossRef").filter fun crossrefDn =>
    (dnsZoneNcNames names).contains (dir.entry crossrefDn).ncName

/-- `update_replica_locations`. -/
def updateReplicaLocations (dir : ReferringDirectory) : ReferringDirectory :=
  (foundCrossrefs names dir).foldl (fun dir' crossrefDn =>
    dir'.modify crossrefDn fun entry => { entry with
      replicaLocations := newReplicaLocations names dn newServerDn dir crossrefDn }) dir

/-- The roles that `update_fsmo_role_owner` finds. -/
def serverFsmoRoles (dir : ReferringDirectory) : List String :=
  (fsmoRoles.filter fun role => dn = fsmoCurrentMasterForRole names dir role).map
    (fsmoDnFromRole names)

/-- `update_fsmo_role_owner`. -/
def updateFsmoRoleOwner (dir : ReferringDirectory) : ReferringDirectory :=
  (serverFsmoRoles names dn dir).foldl (fun dir' roleDn =>
    dir'.modify roleDn fun entry => { entry with fsmoRoleOwner := newServerDn }) dir

/-- The settings of sites that `update_inter_site_topology_generator` finds. -/
def foundSiteSettings (dir : ReferringDirectory) : List String :=
  (dir.search names.sitesContainerDn .all "nTDSSiteSettings").filter fun objDn =>
    dn.toList <:+: (dir.entry objDn).interSiteTopologyGenerator.toList

/-- `update_inter_site_topology_generator`. -/
def updateInterSiteTopologyGenerator (dir : ReferringDirectory) : ReferringDirectory :=
  let dir := (foundSiteSettings names dn dir).foldl (fun dir' objDn =>
    dir'.modify objDn fun entry => { entry with interSiteTopologyGenerator := "" }) dir
  let parentSiteSettsDn := "CN=NTDS Site Settings," ++ dnParent (dnParent newServerDn)
  dir.modify parentSiteSettsDn fun entry =>
    { entry with interSiteTopologyGenerator := ntdsSettings newServerDn }

/-- `update_for_move`, with all modifications succeeding. -/
def updateForMove (dir : ReferringDirectory) : ReferringDirectory :=
  let dir := updateReplicaLocations names dn newServerDn dir
  let dir := updateFsmoRoleOwner names dn newServerDn dir
  updateInterSiteTopologyGenerator names dn newServerDn dir

/-! ## What is wanted -/

/-- The cross reference of one of the zones of the DNS. -/
def IsDnsZone (dir : ReferringDirectory) (crossrefDn : String) : Prop :=
  crossrefDn ∈ dir.dns ∧ (dir.entry crossrefDn).objectClass = "crossRef" ∧
    (dir.entry crossrefDn).ncName ∈ dnsZoneNcNames names

/-- The owner of a role. -/
def roleOwner (dir : ReferringDirectory) (role : FSMORole) : String :=
  (dir.searchObject (fsmoDnFromRole names role)).fsmoRoleOwner

/-- No reference names the settings of the server at its old place; the replica locations and
    the owners of roles that did name them at its new place, and no others begin to. -/
structure ReferencesFollow (before after : ReferringDirectory) : Prop where
  replicaLocations : ∀ crossrefDn, IsDnsZone names before crossrefDn →
    ntdsSettings dn ∉ (after.entry crossrefDn).replicaLocations ∧
    (ntdsSettings dn ∈ (before.entry crossrefDn).replicaLocations →
      ntdsSettings newServerDn ∈ (after.entry crossrefDn).replicaLocations) ∧
    (ntdsSettings dn ∉ (before.entry crossrefDn).replicaLocations →
      ntdsSettings newServerDn ∈ (after.entry crossrefDn).replicaLocations →
      ntdsSettings newServerDn ∈ (before.entry crossrefDn).replicaLocations)
  roleOwner : ∀ role, roleOwner names after role ≠ ntdsSettings dn ∧
    (roleOwner names before role = ntdsSettings dn →
      roleOwner names after role = ntdsSettings newServerDn) ∧
    (roleOwner names before role ≠ ntdsSettings dn →
      roleOwner names after role = ntdsSettings newServerDn →
      roleOwner names before role = ntdsSettings newServerDn)
  topologyGenerator : ∀ objDn ∈ before.dns,
    (after.entry objDn).interSiteTopologyGenerator ≠ ntdsSettings dn

/-- The server has a replica of the zones, or is among their replica locations already, and
    owns no role; and the references to it are where they are looked for. -/
structure ReplicatesWithoutRoles (dir : ReferringDirectory) : Prop where
  replicates : ∀ crossrefDn ∈ foundCrossrefs names dir,
    ntdsSettings dn ∈ (dir.entry crossrefDn).replicaLocations ∨
      ntdsSettings newServerDn ∈ (dir.entry crossrefDn).replicaLocations
  crossrefs : ∀ crossrefDn, IsDnsZone names dir crossrefDn →
    ntdsSettings dn ∈ (dir.entry crossrefDn).replicaLocations →
      crossrefDn ∈ foundCrossrefs names dir
  roles : ∀ role, roleOwner names dir role ≠ ntdsSettings dn
  siteSettings : ∀ objDn ∈ dir.dns,
    (dir.entry objDn).interSiteTopologyGenerator = ntdsSettings dn →
      objDn ∈ dir.search names.sitesContainerDn .all "nTDSSiteSettings" ∨
        objDn = "CN=NTDS Site Settings," ++ dnParent (dnParent newServerDn)

/-! ## The entries after a move -/

section
variable {names dn newServerDn} {dir : ReferringDirectory}

/-- Changing objects one after the other, each by the change that is meant for it. -/
theorem foldl_modify (dir : ReferringDirectory) (objDns : List String)
    (change : String → ReferringEntry → ReferringEntry)
    (hchange : ∀ objDn entry, change objDn (change objDn entry) = change objDn entry) :
    (objDns.foldl (fun dir objDn => dir.modify objDn (change objDn)) dir).dns = dir.dns ∧
      ∀ objDn, (objDns.foldl (fun dir objDn => dir.modify objDn (change objDn)) dir).entry objDn =
        if objDn ∈ objDns ∧ objDn ∈ dir.dns then change objDn (dir.entry objDn)
        else dir.entry objDn := by
  induction objDns generalizing dir with
  | nil => exact ⟨rfl, fun _ => by simp⟩
  | cons first objDns ih =>
    rcases ih (dir.modify first (change first)) with ⟨hdns, hentry⟩
    refine ⟨hdns.trans dir.dns_modify, fun objDn => ?_⟩
    rw [List.foldl_cons, hentry, dir.entry_modify, dir.dns_modify]
    by_cases hfirst : objDn = first
    · rw [hfirst]
      by_cases hmem : first ∈ dir.dns <;> simp [hmem, hchange]
    · simp only [hfirst, false_and, if_false, List.mem_cons, false_or]

theorem entry_updateReplicaLocations (names : DomainNames) (dn newServerDn : String)
    (dir : ReferringDirectory) :
    (updateReplicaLocations names dn newServerDn dir).dns = dir.dns ∧
      ∀ objDn, (updateReplicaLocations names dn newServerDn dir).entry objDn =
        if objDn ∈ foundCrossrefs names dir then { dir.entry objDn with
          replicaLocations := newReplicaLocations names dn newServerDn dir objDn }
        else dir.entry objDn := by
  rcases foldl_modify dir (foundCrossrefs names dir) (fun objDn entry => { entry with
      replicaLocations := newReplicaLocations names dn newServerDn dir objDn }) (fun _ _ => rfl)
    with ⟨hdns, hentry⟩
  refine ⟨hdns, fun objDn => (hentry objDn).trans ?_⟩
  refine if_congr (and_iff_left_of_imp fun h => ?_) rfl rfl
  exact List.mem_of_mem_filter (List.mem_of_mem_filter h)

/-- The owners of roles become the server itself, if they change. -/
theorem entry_updateFsmoRoleOwner (names : DomainNames) (dn newServerDn : String)
    (dir : ReferringDirectory) :
    (updateFsmoRoleOwner names dn newServerDn dir).dns = dir.dns ∧
      ∀ objDn, (updateFsmoRoleOwner names dn newServerDn dir).entry objDn = dir.entry objDn ∨
        (updateFsmoRoleOwner names dn newServerDn dir).entry objDn =
          { dir.entry objDn with fsmoRoleOwner := newServerDn } := by
  rcases foldl_modify dir (serverFsmoRoles names dn dir)
    (fun _ entry => { entry with fsmoRoleOwner := newServerDn }) (fun _ _ => rfl)
    with ⟨hdns, hentry⟩
  refine ⟨hdns, fun objDn => ?_⟩
  by_cases hmem : objDn ∈ serverFsmoRoles names dn dir ∧ objDn ∈ dir.dns
  exacts [.inr ((hentry objDn).trans (if_pos hmem)), .inl ((hentry objDn).trans (if_neg hmem))]

variable (names dn newServerDn dir) in
/-- The generator of a site after a move. -/
def movedTopologyGenerator (objDn : String) : String :=
  if objDn = "CN=NTDS Site Settings," ++ dnParent (dnParent newServerDn) then
    ntdsSettings newServerDn
  else if objDn ∈ foundSiteSettings names dn dir then ""
  else (dir.entry objDn).interSiteTopologyGenerator

/-- The generators that name the server are cleared, and that of the new site is the server. -/
theorem entry_updateInterSiteTopologyGenerator (names : DomainNames) (dn newServerDn : String)
    (dir : ReferringDirectory) :
    (updateInterSiteTopologyGenerator names dn newServerDn dir).dns = dir.dns ∧
      ∀ objDn ∈ dir.dns, (updateInterSiteTopologyGenerator names dn newServerDn dir).entry objDn =
        { dir.entry objDn with interSiteTopologyGenerator :=
          movedTopologyGenerator names dn newServerDn dir objDn } := by
  rcases foldl_modify dir (foundSiteSettings names dn dir)
    (fun _ entry => { entry with interSiteTopologyGenerator := "" }) (fun _ _ => rfl)
    with ⟨hdns, hentry⟩
  refine ⟨(ReferringDirectory.dns_modify _).trans hdns, fun objDn hobj => ?_⟩
  rw [updateInterSiteTopologyGenerator]
  dsimp only
  rw [ReferringDirectory.entry_modify, hdns, movedTopologyGenerator]
  by_cases hparent : objDn = "CN=NTDS Site Settings," ++ dnParent (dnParent newServerDn)
  · rw [← hparent, if_pos ⟨rfl, hobj⟩, if_pos rfl, hentry]
    split_ifs <;> rfl
  · rw [if_neg fun h => hparent h.1, if_neg hparent, hentry]
    simp only [hobj, and_true]
    split_ifs <;> rfl

theorem foundSiteSettings_congr (names : DomainNames) (dn : String) {dir' : ReferringDirectory}
    (hdns : dir'.dns = dir.dns)
    (hentry : ∀ objDn, (dir'.entry objDn).objectClass = (dir.entry objDn).objectClass ∧
      (dir'.entry objDn).interSiteTopologyGenerator =
        (dir.entry objDn).interSiteTopologyGenerator) :
    foundSiteSettings names dn dir' = foundSiteSettings names dn dir := by
  simp only [foundSiteSettings, ReferringDirectory.search, hdns, hentry]

/-- What is stored after a move. -/
structure Moved (names : DomainNames) (dn newServerDn : String)
    (before after : ReferringDirectory) : Prop where
  dns : after.dns = before.dns
  replicaLocations : ∀ objDn ∈ before.dns, (after.entry objDn).replicaLocations =
    if objDn ∈ foundCrossrefs names before then
      newReplicaLocations names dn newServerDn before objDn
    else (before.entry objDn).replicaLocations
  fsmoRoleOwner : ∀ objDn ∈ before.dns,
    (after.entry objDn).fsmoRoleOwner = (before.entry objDn).fsmoRoleOwner ∨
      (after.entry objDn).fsmoRoleOwner = newServerDn
  topologyGenerator : ∀ objDn ∈ before.dns, (after.entry objDn).interSiteTopologyGenerator =
    movedTopologyGenerator names dn newServerDn before objDn

theorem moved_updateForMove :
    Moved names dn newServerDn dir (updateForMove names dn newServerDn dir) := by
  rcases entry_updateReplicaLocations names dn newServerDn dir with ⟨hdns₁, hentry₁⟩
  rcases entry_updateFsmoRoleOwner names dn newServerDn
    (updateReplicaLocations names dn newServerDn dir) with ⟨hdns₂, hentry₂⟩
  rcases entry_updateInterSiteTopologyGenerator names dn newServerDn (updateFsmoRoleOwner names dn
    newServerDn (updateReplicaLocations names dn newServerDn dir)) with ⟨hdns₃, hentry₃⟩
  rw [hdns₂, hdns₁] at hdns₃ hentry₃
  have hsame : ∀ objDn, let entry := (updateFsmoRoleOwner names dn newServerDn
      (updateReplicaLocations names dn newServerDn dir)).entry objDn
      entry.objectClass = (dir.entry objDn).objectClass ∧
        entry.interSiteTopologyGenerator = (dir.entry objDn).interSiteTopologyGenerator := by
    intro objDn
    rcases hentry₂ objDn with h | h <;> rw [h, hentry₁] <;> split_ifs <;> exact ⟨rfl, rfl⟩
  have hfound := foundSiteSettings_congr names dn (hdns₂.trans hdns₁) hsame
  rw [updateForMove]
  refine ⟨hdns₃, fun objDn hobj => ?_, fun objDn hobj => ?_, fun objDn hobj => ?_⟩
  · refine (congrArg ReferringEntry.replicaLocations (hentry₃ objDn hobj)).trans ?_
    rcases hentry₂ objDn with h | h <;> rw [h, hentry₁] <;> split_ifs <;> rfl
  · have howner := congrArg ReferringEntry.fsmoRoleOwner (hentry₃ objDn hobj)
    refine (hentry₂ objDn).imp (fun h => howner.trans ?_) fun h => howner.trans ?_
    · rw [h, hentry₁]
      split_ifs <;> rfl
    · rw [h]
  · refine (congrArg ReferringEntry.interSiteTopologyGenerator (hentry₃ objDn hobj)).trans ?_
    simp only [movedTopologyGenerator, hfound, (hsame objDn).2]

/-- A server is moved to another place, which is not below it. -/
structure IsMove (dn newServerDn : String) : Prop where
  ne : newServerDn ≠ dn
  not_below : isBelow newServerDn dn = false

theorem toList_ntdsSettings (serverDn : String) :
    (ntdsSettings serverDn).toList = "CN=NTDS Settings,".toList ++ serverDn.toList :=
  String.toList_append

theorem IsMove.settings_ne (h : IsMove dn newServerDn) :
    ntdsSettings newServerDn ≠ ntdsSettings dn := by
  intro heq
  have heq := congrArg String.toList heq
  rw [toList_ntdsSettings, toList_ntdsSettings] at heq
  exact h.ne (String.toList_inj.1 (List.append_cancel_left heq))

theorem isBelow_ntdsSettings (serverDn : String) :
    isBelow (ntdsSettings serverDn) serverDn = true := by
  have hcomma : "CN=NTDS Settings,".toList = "CN=NTDS Settings".toList ++ [','] := by decide
  refine List.isSuffixOf_iff_suffix.2 ⟨"CN=NTDS Settings".toList, ?_⟩
  rw [toList_ntdsSettings, hcomma, List.append_assoc, List.singleton_append]

theorem IsMove.ne_settings (h : IsMove dn newServerDn) : newServerDn ≠ ntdsSettings dn := by
  rintro rfl
  exact Bool.false_ne_true (h.not_below.symm.trans (isBelow_ntdsSettings dn))

theorem ne_ntdsSettings (serverDn : String) : serverDn ≠ ntdsSettings serverDn :=
  (ne_of_isBelow (isBelow_ntdsSettings serverDn)).symm

theorem ne_empty_ntdsSettings (serverDn : String) : "" ≠ ntdsSettings serverDn := by
  intro heq
  have hnil := congrArg String.toList heq
  rw [toList_ntdsSettings] at hnil
  exact List.cons_ne_nil _ _ hnil.symm

/-- The replica locations that are written name the server at its new place only. -/
theorem mem_newReplicaLocations (names : DomainNames) (hmove : IsMove dn newServerDn)
    (dir : ReferringDirectory) (crossrefDn : String) :
    ntdsSettings dn ∉ newReplicaLocations names dn newServerDn dir crossrefDn ∧
      ntdsSettings newServerDn ∈ newReplicaLocations names dn newServerDn dir crossrefDn := by
  refine ⟨fun hmem => ?_, List.mem_append_right _ (List.mem_singleton_self _)⟩
  rcases List.mem_append.1 hmem with hmem | hmem
  · exact absurd rfl (of_decide_eq_true (List.mem_filter.1 (List.mem_filter.1 hmem).1).2)
  · exact hmove.settings_ne (List.mem_singleton.1 hmem).symm

theorem isDnsZone_of_found {crossrefDn : String} (h : crossrefDn ∈ foundCrossrefs names dir) :
    IsDnsZone names dir crossrefDn := by
  rcases List.mem_filter.1 h with ⟨hsearch, hname⟩
  rcases List.mem_filter.1 hsearch with ⟨hdns, hclass⟩
  rw [Bool.and_eq_true] at hclass
  exact ⟨hdns, of_decide_eq_true hclass.2, List.contains_iff_mem.1 hname⟩

/-- The owner of a role stays, or becomes the server itself. -/
theorem Moved.roleOwner {after : ReferringDirectory} (h : Moved names dn newServerDn dir after)
    (role : FSMORole) :
    roleOwner names after role = roleOwner names dir role ∨
      roleOwner names after role = newServerDn := by
  rw [ServerDnAttrsUpdater.roleOwner, ServerDnAttrsUpdater.roleOwner,
    ReferringDirectory.searchObject, ReferringDirectory.searchObject, h.dns]
  split_ifs with hmem
  exacts [h.fsmoRoleOwner _ hmem, .inl rfl]

/-- The settings of a site whose generator is the server are found, if they are among those that
    are searched. -/
theorem mem_foundSiteSettings {objDn : String}
    (h : (dir.entry objDn).interSiteTopologyGenerator = ntdsSettings dn) :
    objDn ∈ foundSiteSettings names dn dir ↔
      objDn ∈ dir.search names.sitesContainerDn .all "nTDSSiteSettings" := by
  refine List.mem_filter.trans (and_iff_left ?_)
  rw [h]
  refine decide_eq_true ⟨"CN=NTDS Settings,".toList, [], ?_⟩
  rw [toList_ntdsSettings, List.append_nil]

end

/-- Where references follow a server that has moved, it owned no role. -/
theorem Moved.roleOwner_ne {names : DomainNames} {dn newServerDn : String}
    {dir after : ReferringDirectory} (hmoved : Moved names dn newServerDn dir after)
    (hfollow : ReferencesFollow names dn newServerDn dir after) (role : FSMORole) :
    ServerDnAttrsUpdater.roleOwner names dir role ≠ ntdsSettings dn := by
  intro howner
  -- the owner is still the server at its old place, or the server itself
  rcases hmoved.roleOwner role with hsame | hserver
  · exact (hfollow.roleOwner role).1 (hsame.trans howner)
  · exact ne_ntdsSettings newServerDn (hserver.symm.trans ((hfollow.roleOwner role).2.1 howner))

/-- After a server has been moved, with all modifications succeeding, the references to it are
    those to its new place, and no others, exactly when it owns no role, has a replica of each
    zone or is among its replica locations already, and all references are found. -/
theorem referencesFollow_iff (names : DomainNames) (dn newServerDn : String)
    (hmove : IsMove dn newServerDn) (dir : ReferringDirectory) :
    ReferencesFollow names dn newServerDn dir (updateForMove names dn newServerDn dir) ↔
      ReplicatesWithoutRoles names dn newServerDn dir := by
  -- only what has moved matters, not how
  have hmoved := @moved_updateForMove names dn newServerDn dir
  generalize updateForMove names dn newServerDn dir = after at hmoved ⊢
  constructor
  · intro hfollow
    refine ⟨fun crossrefDn hfound => ?_, fun crossrefDn hzone hold => ?_, fun role howner => ?_,
      fun objDn hobj hgenerator => ?_⟩
    · have hzone := isDnsZone_of_found hfound
      have hnew := hmoved.replicaLocations crossrefDn hzone.1
      rw [if_pos hfound] at hnew
      by_contra hno
      rw [not_or] at hno
      refine hno.2 ((hfollow.replicaLocations crossrefDn hzone).2.2 hno.1 ?_)
      rw [hnew]
      exact (mem_newReplicaLocations names hmove dir crossrefDn).2
    · by_contra hfound
      have hkept := hmoved.replicaLocations crossrefDn hzone.1
      rw [if_neg hfound] at hkept
      exact (hfollow.replicaLocations crossrefDn hzone).1 (hkept ▸ hold)
    · exact hmoved.roleOwner_ne hfollow role howner
    · by_contra hno
      rw [not_or, ← mem_foundSiteSettings hgenerator] at hno
      refine hfollow.topologyGenerator objDn hobj ((hmoved.topologyGenerator objDn hobj).trans ?_)
      rw [movedTopologyGenerator, if_neg hno.2, if_neg hno.1, hgenerator]
  · intro hdir
    refine ⟨fun crossrefDn hzone => ?_, fun role => ?_, fun objDn hobj => ?_⟩
    · rw [hmoved.replicaLocations crossrefDn hzone.1]
      split_ifs with hfound
      · rcases mem_newReplicaLocations names hmove dir crossrefDn with ⟨hold, hnew⟩
        exact ⟨hold, fun _ => hnew, fun hno _ =>
          (hdir.replicates crossrefDn hfound).resolve_left hno⟩
      · have hold := fun h => hfound (hdir.crossrefs crossrefDn hzone h)
        exact ⟨hold, fun h => absurd h hold, fun _ h => h⟩
    · have howner := hdir.roles role
      rcases hmoved.roleOwner role with hsame | hserver
      · rw [hsame]
        exact ⟨howner, fun h => absurd h howner, fun _ h => h⟩
      · rw [hserver]
        exact ⟨hmove.ne_settings, fun h => absurd h howner,
          fun _ h => absurd h (ne_ntdsSettings newServerDn)⟩
    · rw [hmoved.topologyGenerator objDn hobj, movedTopologyGenerator]
      split_ifs with hparent hfound
      · exact hmove.settings_ne
      · exact ne_empty_ntdsSettings dn
      · intro hgenerator
        rcases hdir.siteSettings objDn hobj hgenerator with hsearch | hparent'
        exacts [hfound ((mem_foundSiteSettings hgenerator).2 hsearch), hparent hparent']

/-! ## A server with a role -/

/-- The names of a domain. -/
def sampleNames : DomainNames where
  domainDn := "DC=domain,DC=alt"
  schemaDn := "CN=Schema,CN=Configuration,DC=domain,DC=alt"
  configurationDn := "CN=Configuration,DC=domain,DC=alt"

/-- A server in a site. -/
def serverIn (site : String) : String :=
  "CN=DC1,CN=Servers,CN=" ++ site ++ ",CN=Sites,CN=Configuration,DC=domain,DC=alt"

/-- A domain with a zone, of which the server has a replica, and an owner of its PDC role. -/
def sampleDirectory (pdcOwner : String) : ReferringDirectory where
  dns := ["DC=domain,DC=alt",
    "CN=zone,CN=Partitions,CN=Configuration,DC=domain,DC=alt",
    "CN=A,CN=Sites,CN=Configuration,DC=domain,DC=alt",
    "CN=B,CN=Sites,CN=Configuration,DC=domain,DC=alt", serverIn "B"]
  entry dn :=
    if dn = "DC=domain,DC=alt" then { ReferringEntry.empty with fsmoRoleOwner := pdcOwner }
    else if dn = "CN=zone,CN=Partitions,CN=Configuration,DC=domain,DC=alt" then
      { ReferringEntry.empty with
        objectClass := "crossRef"
        ncName := "DC=DomainDnsZones,DC=domain,DC=alt"
        replicaLocations := [ntdsSettings (serverIn "A")] }
    else if dn = serverIn "B" then
      { ReferringEntry.empty with objectClass := "server", dnsHostName := "dc1.domain.alt" }
    else { ReferringEntry.empty with objectClass := "site" }

theorem isMove_sample : IsMove (serverIn "A") (serverIn "B") :=
  ⟨by decide, by decide⟩

/-- The references to a server without a role follow it. -/
theorem referencesFollow_replica :
    ReferencesFollow sampleNames (serverIn "A") (serverIn "B") (sampleDirectory "")
      (updateForMove sampleNames (serverIn "A") (serverIn "B") (sampleDirectory "")) := by
  have hfound : ∀ crossrefDn ∈ (sampleDirectory "").dns,
      ntdsSettings (serverIn "A") ∈ ((sampleDirectory "").entry crossrefDn).replicaLocations →
        crossrefDn ∈ foundCrossrefs sampleNames (sampleDirectory "") := by decide
  have hreplicates : ∀ crossrefDn ∈ foundCrossrefs sampleNames (sampleDirectory ""),
      ntdsSettings (serverIn "A") ∈
        ((sampleDirectory "").entry crossrefDn).replicaLocations := by decide
  have hgenerator : ∀ objDn ∈ (sampleDirectory "").dns,
      ((sampleDirectory "").entry objDn).interSiteTopologyGenerator ≠
        ntdsSettings (serverIn "A") := by decide
  refine (referencesFollow_iff sampleNames (serverIn "A") (serverIn "B") isMove_sample
    (sampleDirectory "")).2 ⟨fun crossrefDn h => .inl (hreplicates crossrefDn h),
      fun crossrefDn hzone => hfound crossrefDn hzone.1, fun role => ?_,
      fun objDn hobj h => absurd h (hgenerator objDn hobj)⟩
  cases role <;> decide

/-- The owner of the PDC role is named by its DN at the old place, after the move as before. -/
theorem not_referencesFollow_pdc :
    let before := sampleDirectory (ntdsSettings (serverIn "A"))
    ¬ReferencesFollow sampleNames (serverIn "A") (serverIn "B") before
      (updateForMove sampleNames (serverIn "A") (serverIn "B") before) :=
  fun hfollow => moved_updateForMove.roleOwner_ne hfollow .pdcEmulation (by decide)

end ServerDnAttrsUpdater

end Admc
