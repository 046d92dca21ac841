import Admc.Console.ServerMove
import Admc.Interface.NestedFilter

/-!
# References to a site that is renamed or deleted

The links between sites name the sites that they join, and the nodes of the DNS that a site
has announced carry its name. After a site has been renamed or deleted,
`SiteDnAttrsUpdater` rewrites the links and deletes the nodes. It finds both with filters, in
which the letter case does not matter.

* Of the values of a link only those are removed that are the old DN byte by byte, and the new
  DN is appended to every link that is found.
* The nodes are those with the name of the site between a dot and "._sites" anywhere in their
  names. They may be of another site, whose name ends with a dot and that of this one:
  `not_mem_updateDnsRecords_of_announces`.

`siteCleanedUp_iff`: exactly when the references of the site, and no others, are cleaned up.
-/

namespace Admc

open SearchFilter

/-! ## The directory -/

/-- The objects of a part of the directory: their DNs, and the values of their attributes. -/
structure Partition where
  dns : List QString
  entry : QString → Entry

/-- The parts of the directory that know of sites: the configuration, with the links between
    sites, and the zones of the DNS. -/
structure SiteDirectory where
  configuration : Partition
  dnsZones : Partition

/-- How a server searches: what a search goes over, how values are compared, and what the text
    of a filter finds, which is what it means. -/
structure SearchServer where
  includes : SearchScope → QString → QString → Bool
  rules : MatchingRules
  finds : QString → Entry → Bool
  finds_iff : ∀ text entry, finds text entry = true ↔ TextMatches rules entry text

namespace Partition

variable (objects : Partition)

/-- `AdInterface::search`. -/
def search (server : SearchServer) (base : QString) (scope : SearchScope) (filter : QString) :
    List QString :=
  objects.dns.filter fun dn =>
    server.includes scope base dn && server.finds filter (objects.entry dn)

/-- `AdInterface::attribute_replace_values`, which succeeds. -/
def attributeReplaceValues (dn : QString) (attr : List Char) (values : List (List UInt8)) :
    Partition :=
  { objects with
    entry := Function.update objects.entry dn (Function.update (objects.entry dn) attr values) }

/-- `AdInterface::object_delete`, which succeeds. -/
def objectDelete (dn : QString) : Partition := { objects with dns := objects.dns.filter (· ≠ dn) }

end Partition

/-- The names that `AdConfig` has of the domain, with its name in the DNS. -/
structure ZoneNames extends DomainNames where
  domain : QString

namespace ZoneNames

variable (names : ZoneNames)

/-- The container of the links between sites. -/
def intersiteTransportsDn : QString :=
  "CN=Inter-Site Transports,".toList ++ names.sitesContainerDn.toList

/-- The zone of the domain. -/
def domainZoneDn (tables : CaseTables) : QString :=
  "DC=".toList ++ (tables.lower names.domain ++
    (",CN=MicrosoftDNS,DC=DomainDnsZones,".toList ++ names.domainDn.toList))

/-- The zone of the forest. -/
def forestZoneDn (tables : CaseTables) : QString :=
  "DC=_msdcs.".toList ++ (tables.lower names.domain ++
    (",CN=MicrosoftDNS,DC=ForestDnsZones,".toList ++ names.domainDn.toList))

end ZoneNames

/-! ## The updater -/

namespace SiteDnAttrsUpdater

/-- `ATTRIBUTE_OBJECT_CLASS`. -/
def objectClass : List Char := "objectClass".toList

/-- `ATTRIBUTE_SITE_LIST`. -/
def siteList : List Char := "siteList".toList

/-- `ATTRIBUTE_DNS_RECORD_DC`. -/
def dnsRecordDc : List Char := "dc".toList

/-- `CLASS_SITE_LINK`. -/
def classSiteLink : QString := "siteLink".toList

/-- `CLASS_DNS_NODE`. -/
def classDnsNode : QString := "dnsNode".toList

/-- What follows the name of a site in the names of its nodes. -/
def sitesLabel : QString := "_sites".toList

/-- The filter of the links that name a DN. -/
def siteLinksFilter (dn : QString) : QString :=
  let filter1 := filterCondition .equals objectClass classSiteLink
  let filter2 := filterCondition .contains siteList dn
  filterAnd [filter1, filter2]

/-- The filter of the nodes of a site. -/
def siteNodesFilter (dn : QString) : QString :=
  let siteName := dnGetName dn
  let filter1 := filterCondition .contains dnsRecordDc ('.' :: (siteName ++ '.' :: sitesLabel))
  let filter2 := filterCondition .equals objectClass classDnsNode
  filterAnd [filter1, filter2]

section
variable (tables : CaseTables) (server : SearchServer) (names : ZoneNames) (dn : QString)

/-- The values that are written to a link. -/
def newSiteList (values : List (List UInt8)) (newSiteDn : QString) : List (List UInt8) :=
  let values := values.filter (· ≠ utf8 dn)
  if newSiteDn.isEmpty then values else values ++ [utf8 newSiteDn]

/-- `update_site_links`. -/
def updateSiteLinks (newSiteDn : QString) (objects : Partition) : Partition :=
  let res := objects.search server names.intersiteTransportsDn .all (siteLinksFilter dn)
  res.foldl (fun objects' sitelinkDn =>
    let values := newSiteList dn (objects.entry sitelinkDn siteList) newSiteDn
    objects'.attributeReplaceValues sitelinkDn siteList values) objects

/-- The zones that have the nodes of sites. -/
def dnsZoneDns : List QString := [names.domainZoneDn tables, names.forestZoneDn tables]

/-- `update_dns_records`. -/
def updateDnsRecords (objects : Partition) : Partition :=
  (dnsZoneDns tables names).foldl (fun objects dnsZoneDn =>
    let dnsNodes := objects.search server dnsZoneDn .children (siteNodesFilter dn)
    dnsNodes.foldl Partition.objectDelete objects) objects

/-- `update_for_delete`. -/
def updateForDelete (dir : SiteDirectory) : SiteDirectory where
  configuration := updateSiteLinks server names dn [] dir.configuration
  dnsZones := updateDnsRecords tables server names dn dir.dnsZones

/-- `update_for_rename`. -/
def updateForRename (newDn : QString) (dir : SiteDirectory) : SiteDirectory where
  configuration := updateSiteLinks server names dn newDn dir.configuration
  dnsZones := updateDnsRecords tables server names dn dir.dnsZones

end

/-- What becomes of a site: it is deleted, or gets a new DN, which is not empty. -/
inductive SiteChange
  | delete
  | rename (newDn : QString) (ne_nil : newDn ≠ [])

/-- The new DN. -/
def SiteChange.newDn? : SiteChange → Option QString
  | delete => none
  | rename newDn _ => some newDn

/-- The update for what becomes of a site. -/
def update (tables : CaseTables) (server : SearchServer) (names : ZoneNames) (dn : QString) :
    SiteChange → SiteDirectory → SiteDirectory
  | .delete => updateForDelete tables server names dn
  | .rename newDn _ => updateForRename tables server names dn newDn

/-! ## What is wanted -/

section
variable (server : SearchServer)

/-- A value is a DN, as the server compares them. -/
def Names (dn : QString) (value : List UInt8) : Prop :=
  server.rules.prepare siteList value = server.rules.prepare siteList (utf8 dn)

instance decidableNames (dn : QString) : DecidablePred (Names server dn) :=
  fun _ => inferInstanceAs (Decidable (_ = _))

/-- A link between sites. -/
def IsSiteLink (objects : Partition) (linkDn : QString) : Prop :=
  linkDn ∈ objects.dns ∧
    Condition.equals.Compares server.rules (objects.entry linkDn) objectClass classSiteLink

/-- Some value of a link is a DN. -/
def Mentions (dn : QString) (values : List (List UInt8)) : Prop :=
  ∃ value ∈ values, Names server dn value

/-- A value of a link is neither the old nor the new DN of the site. -/
def IsOfOther (dn : QString) (change : SiteChange) (value : List UInt8) : Prop :=
  ¬Names server dn value ∧ ∀ newDn ∈ change.newDn?, ¬Names server newDn value

instance decidableIsOfOther (dn : QString) (change : SiteChange) :
    DecidablePred (IsOfOther server dn change) :=
  fun _ => inferInstanceAs (Decidable (_ ∧ ∀ newDn ∈ change.newDn?, _))

/-- A link does not name the old DN; if it did, it names the new one, once, and the other sites
    that it did name; and else it is as it was. -/
structure LinkFollows (dn : QString) (change : SiteChange) (before after : List (List UInt8)) :
    Prop where
  forgotten : ¬Mentions server dn after
  named_once : Mentions server dn before →
    ∀ newDn ∈ change.newDn?, after.countP (Names server newDn ·) = 1
  others_kept : after.filter (IsOfOther server dn change ·) =
    before.filter (IsOfOther server dn change ·)
  unchanged : ¬Mentions server dn before → after = before

/-- A label is the one that follows the names of sites. -/
def IsSitesLabel (label : QString) : Prop :=
  server.rules.prepare dnsRecordDc (utf8 label) = server.rules.prepare dnsRecordDc (utf8 sitesLabel)

instance decidableIsSitesLabel : DecidablePred (IsSitesLabel server) :=
  fun _ => inferInstanceAs (Decidable (_ = _))

/-- The site that is announced by a node: what is between the labels of the service and the
    protocol and the first label "_sites". -/
def announcedSite (nodeName : QString) : Option QString :=
  match nodeName.splitOn '.' with
  | _service :: _protocol :: labels =>
    if labels.any (IsSitesLabel server ·) then
      some (['.'].intercalate (labels.takeWhile (¬IsSitesLabel server ·)))
    else none
  | _ => none

/-- A node announces the site with a name. -/
def Announces (entry : Entry) (siteName : List UInt8) : Prop :=
  ∃ nodeName, utf8 nodeName ∈ entry dnsRecordDc ∧
    ∃ site, announcedSite server nodeName = some site ∧
      server.rules.prepare dnsRecordDc (utf8 site) = server.rules.prepare dnsRecordDc siteName

end

section
variable (tables : CaseTables) (server : SearchServer) (names : ZoneNames)

/-- An object is in one of the zones. -/
def IsInZone (nodeDn : QString) : Prop :=
  ∃ dnsZoneDn ∈ dnsZoneDns tables names, server.includes .children dnsZoneDn nodeDn = true

/-- A node in one of the zones that announces a site. -/
def IsNodeOf (site : Dn.Rdn) (objects : Partition) (nodeDn : QString) : Prop :=
  IsInZone tables server names nodeDn ∧
    Condition.equals.Compares server.rules (objects.entry nodeDn) objectClass classDnsNode ∧
    ∃ siteName, site.name? = some siteName ∧ Announces server (objects.entry nodeDn) siteName

/-- The links follow the site, and just the nodes that announced it are deleted. -/
structure SiteCleanedUp (site : Dn.Rdn) (container : List Dn.Rdn) (change : SiteChange)
    (before after : SiteDirectory) : Prop where
  links : ∀ linkDn, IsSiteLink server before.configuration linkDn →
    LinkFollows server (Dn.text (site :: container)) change
      (before.configuration.entry linkDn siteList) (after.configuration.entry linkDn siteList)
  nodes : ∀ nodeDn ∈ before.dnsZones.dns,
    nodeDn ∉ after.dnsZones.dns ↔ IsNodeOf tables server names site before.dnsZones nodeDn

/-! ## When the references are told apart -/

/-- The filter finds an object among the links. -/
def FindsLink (dn : QString) (objects : Partition) (linkDn : QString) : Prop :=
  server.includes .all names.intersiteTransportsDn linkDn = true ∧
    TextMatches server.rules (objects.entry linkDn) (siteLinksFilter dn)

/-- A link that names the site is found, and spells its DN as it is given; and before a site is
    renamed, one that is found does name it, but not the new DN, which is another one. -/
structure LinkIsExact (dn : QString) (change : SiteChange) (objects : Partition)
    (linkDn : QString) : Prop where
  found : Mentions server dn (objects.entry linkDn siteList) →
    FindsLink server names dn objects linkDn
  spelled : ∀ value ∈ objects.entry linkDn siteList, Names server dn value → value = utf8 dn
  renamed : ∀ newDn ∈ change.newDn?, FindsLink server names dn objects linkDn →
    Mentions server dn (objects.entry linkDn siteList) ∧ ¬Names server dn (utf8 newDn) ∧
      ¬Mentions server newDn (objects.entry linkDn siteList)

/-- In the zones, the filter is matched by the nodes that announce the site, and by no others. -/
structure FilterTellsNodes (site : Dn.Rdn) (container : List Dn.Rdn) (objects : Partition) :
    Prop where
  of_node : ∀ nodeDn ∈ objects.dns, IsNodeOf tables server names site objects nodeDn →
    TextMatches server.rules (objects.entry nodeDn) (siteNodesFilter (Dn.text (site :: container)))
  node_of : ∀ nodeDn ∈ objects.dns, IsInZone tables server names nodeDn →
    TextMatches server.rules (objects.entry nodeDn)
      (siteNodesFilter (Dn.text (site :: container))) →
    IsNodeOf tables server names site objects nodeDn

end

/-! ## The links after the update -/

section
variable {server : SearchServer} {names : ZoneNames} {dn newSiteDn : QString}
  {objects : Partition} {linkDn : QString}

theorem mem_search {base filter objDn : QString} {scope : SearchScope} :
    objDn ∈ objects.search server base scope filter ↔ objDn ∈ objects.dns ∧
      server.includes scope base objDn = true ∧
        TextMatches server.rules (objects.entry objDn) filter := by
  rw [Partition.search, List.mem_filter, Bool.and_eq_true, server.finds_iff]

/-- Writing the values of one object after the other, each of them given beforehand. -/
theorem entry_foldl_attributeReplaceValues (attr : List Char)
    (values : QString → List (List UInt8)) (dns : List QString) (objects : Partition)
    (objDn : QString) :
    (dns.foldl (fun objects dn => objects.attributeReplaceValues dn attr (values dn))
      objects).entry objDn attr =
        if objDn ∈ dns then values objDn else objects.entry objDn attr := by
  induction dns generalizing objects with
  | nil => rfl
  | cons dn dns ih =>
    rw [List.foldl_cons, ih]
    by_cases hmem : objDn ∈ dns
    · rw [if_pos hmem, if_pos (List.mem_cons_of_mem _ hmem)]
    · rw [if_neg hmem, Partition.attributeReplaceValues]
      by_cases hdn : objDn = dn
      · rw [hdn, if_pos List.mem_cons_self]
        simp only [Function.update_self]
      · rw [if_neg (List.not_mem_cons_of_ne_of_not_mem hdn hmem)]
        simp only [Function.update_of_ne hdn]

/-- The values of a link after the update. -/
theorem entry_updateSiteLinks (newSiteDn : QString) (hmem : linkDn ∈ objects.dns) :
    (FindsLink server names dn objects linkDn →
      (updateSiteLinks server names dn newSiteDn objects).entry linkDn siteList =
        newSiteList dn (objects.entry linkDn siteList) newSiteDn) ∧
    (¬FindsLink server names dn objects linkDn →
      (updateSiteLinks server names dn newSiteDn objects).entry linkDn siteList =
        objects.entry linkDn siteList) := by
  rw [updateSiteLinks, entry_foldl_attributeReplaceValues siteList
    (fun linkDn => newSiteList dn (objects.entry linkDn siteList) newSiteDn)]
  have hiff : linkDn ∈ objects.search server names.intersiteTransportsDn .all (siteLinksFilter dn) ↔
      FindsLink server names dn objects linkDn := mem_search.trans (and_iff_right hmem)
  exact ⟨fun hfound => if_pos (hiff.2 hfound), fun hfound => if_neg (mt hiff.1 hfound)⟩

end

section
variable {server : SearchServer} {dn : QString} {change : SiteChange}
  {values : List (List UInt8)}

theorem names_utf8 (dn : QString) : Names server dn (utf8 dn) := rfl

theorem newSiteList_eq (dn : QString) (change : SiteChange) (values : List (List UInt8)) :
    newSiteList dn values (change.newDn?.getD []) =
      values.filter (· ≠ utf8 dn) ++ change.newDn?.toList.map utf8 := by
  cases change with
  | delete => exact (List.append_nil _).symm
  | rename newDn hne => exact if_neg fun h => hne (List.isEmpty_iff.1 h)

theorem mem_newSiteList {value : List UInt8} :
    value ∈ newSiteList dn values (change.newDn?.getD []) ↔
      (value ∈ values ∧ value ≠ utf8 dn) ∨ ∃ newDn ∈ change.newDn?, utf8 newDn = value := by
  rw [newSiteList_eq, List.mem_append, List.mem_filter, decide_eq_true_iff, List.mem_map]
  simp only [Option.mem_toList, Option.mem_def]

/-- Nothing is taken out of a link that does not name the DN. -/
theorem filter_eq_self_of_not_mentions (h : ¬Mentions server dn values) :
    values.filter (· ≠ utf8 dn) = values := by
  refine List.filter_eq_self.2 fun value hvalue => decide_eq_true ?_
  rintro rfl
  exact h ⟨_, hvalue, names_utf8 dn⟩

/-- A link that is not found stays as it is, which is right if it does not name the site. -/
theorem linkFollows_self_iff :
    LinkFollows server dn change values values ↔ ¬Mentions server dn values where
  mp h := h.forgotten
  mpr h := ⟨h, fun hmentions => absurd hmentions h, rfl, fun _ => rfl⟩

/-- Taking out the values that are the DN byte by byte. -/
theorem filter_isOfOther :
    (values.filter (· ≠ utf8 dn)).filter (IsOfOther server dn change ·) =
      values.filter (IsOfOther server dn change ·) := by
  rw [List.filter_filter]
  refine List.filter_congr fun value _ => ?_
  rw [Bool.and_eq_left_iff_imp, decide_eq_true_iff, decide_eq_true_iff]
  rintro hother rfl
  exact hother.1 (names_utf8 dn)

/-- A link that is found, if it spells the DN as it is given. -/
theorem linkFollows_newSiteList (hspelled : ∀ value ∈ values, Names server dn value →
      value = utf8 dn)
    (hrenamed : ∀ newDn ∈ change.newDn?, Mentions server dn values ∧
      ¬Names server dn (utf8 newDn) ∧ ¬Mentions server newDn values) :
    LinkFollows server dn change values (newSiteList dn values (change.newDn?.getD [])) where
  forgotten := by
    rintro ⟨value, hvalue, hnames⟩
    rcases mem_newSiteList.1 hvalue with ⟨hvalue, hne⟩ | ⟨newDn, hnew, rfl⟩
    · exact hne (hspelled value hvalue hnames)
    · exact (hrenamed newDn hnew).2.1 hnames
  named_once _ newDn hnew := by
    have hnone : (values.filter (· ≠ utf8 dn)).countP (Names server newDn ·) = 0 :=
      List.countP_eq_zero.2 fun value hvalue hnames =>
        (hrenamed newDn hnew).2.2 ⟨value, List.mem_of_mem_filter hvalue, of_decide_eq_true hnames⟩
    rw [newSiteList_eq, List.countP_append, hnone, Option.mem_def.1 hnew, Option.toList_some,
      List.map_singleton, List.countP_singleton, if_pos (decide_eq_true (names_utf8 newDn))]
  others_kept := by
    rw [newSiteList_eq, List.filter_append, filter_isOfOther, List.append_right_eq_self,
      List.filter_eq_nil_iff, List.forall_mem_map]
    intro newDn hnew hother
    exact (of_decide_eq_true hother).2 newDn (Option.mem_toList.1 hnew) (names_utf8 newDn)
  unchanged hmentions := by
    rw [newSiteList_eq, filter_eq_self_of_not_mentions hmentions, List.append_right_eq_self,
      List.map_eq_nil_iff]
    cases hnew : change.newDn? with
    | none => rfl
    | some newDn => exact absurd (hrenamed newDn hnew).1 hmentions

/-- What is wanted of a link that is found only holds if it spells the DN as it is given. -/
theorem linkFollows_newSiteList_iff :
    LinkFollows server dn change values (newSiteList dn values (change.newDn?.getD [])) ↔
      (∀ value ∈ values, Names server dn value → value = utf8 dn) ∧
      ∀ newDn ∈ change.newDn?, Mentions server dn values ∧
        ¬Names server dn (utf8 newDn) ∧ ¬Mentions server newDn values := by
  refine ⟨fun h => ⟨fun value hvalue hnames => ?_, fun newDn hnew => ?_⟩,
    fun h => linkFollows_newSiteList h.1 h.2⟩
  · by_contra hne
    exact h.forgotten ⟨value, mem_newSiteList.2 (.inl ⟨hvalue, hne⟩), hnames⟩
  · have hmentions : Mentions server dn values := by
      by_contra hmentions
      -- the new DN was appended
      have hlength := congrArg List.length (h.unchanged hmentions)
      rw [newSiteList_eq, filter_eq_self_of_not_mentions hmentions, Option.mem_def.1 hnew,
        List.length_append] at hlength
      exact absurd (Nat.add_eq_left.1 hlength) Nat.one_ne_zero
    have hother : ¬Names server dn (utf8 newDn) := fun hnames =>
      h.forgotten ⟨utf8 newDn, mem_newSiteList.2 (.inr ⟨newDn, hnew, rfl⟩), hnames⟩
    refine ⟨hmentions, hother, ?_⟩
    rintro ⟨value, hvalue, hnames⟩
    have hne : value ≠ utf8 dn := by
      rintro rfl
      exact hother hnames.symm
    -- another value and the one that was appended
    have hcount := h.named_once hmentions newDn hnew
    have hpos : 0 < (values.filter (· ≠ utf8 dn)).countP (Names server newDn ·) :=
      List.countP_pos_iff.2
        ⟨value, List.mem_filter.2 ⟨hvalue, decide_eq_true hne⟩, decide_eq_true hnames⟩
    have hnewDn := decide_eq_true (@names_utf8 server newDn)
    rw [newSiteList_eq, List.countP_append, Option.mem_def.1 hnew, Option.toList_some,
      List.map_singleton, List.countP_singleton, if_pos hnewDn] at hcount
    omega

end

/-! ## The nodes after the update -/

section
variable {tables : CaseTables} {server : SearchServer} {names : ZoneNames} {dn nodeDn : QString}
  {site : Dn.Rdn} {container : List Dn.Rdn} {change : SiteChange} {dir : SiteDirectory}

theorem entry_foldl_objectDelete (dns : List QString) (objects : Partition) :
    (dns.foldl Partition.objectDelete objects).entry = objects.entry := by
  induction dns generalizing objects with
  | nil => rfl
  | cons dn dns ih => exact ih (objects.objectDelete dn)

theorem mem_foldl_objectDelete {dns : List QString} {objects : Partition} :
    nodeDn ∈ (dns.foldl Partition.objectDelete objects).dns ↔
      nodeDn ∈ objects.dns ∧ nodeDn ∉ dns := by
  induction dns generalizing objects with
  | nil => exact (and_iff_left List.not_mem_nil).symm
  | cons dn dns ih =>
    rw [List.foldl_cons, ih, Partition.objectDelete, List.mem_filter, decide_eq_true_iff,
      List.mem_cons, not_or, and_assoc]

/-- What is left by the deletions in some zones, one after the other. -/
theorem mem_foldl_dnsZones {filter : QString} {zones : List QString} {objects : Partition} :
    nodeDn ∈ (zones.foldl (fun objects dnsZoneDn =>
      (objects.search server dnsZoneDn .children filter).foldl Partition.objectDelete objects)
      objects).dns ↔
      nodeDn ∈ objects.dns ∧
        ((∃ dnsZoneDn ∈ zones, server.includes .children dnsZoneDn nodeDn = true) →
          ¬TextMatches server.rules (objects.entry nodeDn) filter) := by
  induction zones generalizing objects with
  | nil => exact (and_iff_left fun ⟨_, h, _⟩ => absurd h List.not_mem_nil).symm
  | cons zone zones ih =>
    rw [List.foldl_cons, ih, mem_foldl_objectDelete, entry_foldl_objectDelete, mem_search,
      List.exists_mem_cons_iff, or_imp, not_and, not_and, and_assoc]
    exact and_congr_right fun hmem => and_congr_left' (imp_iff_right hmem)

/-- Just those nodes are deleted that are in a zone and match the filter. -/
theorem not_mem_updateDnsRecords {objects : Partition} (hmem : nodeDn ∈ objects.dns) :
    nodeDn ∉ (updateDnsRecords tables server names dn objects).dns ↔
      IsInZone tables server names nodeDn ∧
        TextMatches server.rules (objects.entry nodeDn) (siteNodesFilter dn) := by
  rw [updateDnsRecords, mem_foldl_dnsZones, not_and, imp_iff_right hmem, Classical.not_imp, not_not,
    IsInZone]

/-! ## The result -/

theorem configuration_update : (update tables server names dn change dir).configuration =
    updateSiteLinks server names dn (change.newDn?.getD []) dir.configuration := by
  cases change with
  | delete => rfl
  | rename newDn _ => rfl

theorem dnsZones_update : (update tables server names dn change dir).dnsZones =
    updateDnsRecords tables server names dn dir.dnsZones := by
  cases change with
  | delete => rfl
  | rename newDn _ => rfl

/-- A link follows the site just if it spells its DN exactly. -/
theorem linkFollows_iff {objects : Partition} {linkDn : QString} (hmem : linkDn ∈ objects.dns) :
    LinkFollows server dn change (objects.entry linkDn siteList)
      ((updateSiteLinks server names dn (change.newDn?.getD []) objects).entry linkDn siteList) ↔
      LinkIsExact server names dn change objects linkDn := by
  obtain ⟨hfound, hmissed⟩ :=
    @entry_updateSiteLinks server names dn objects linkDn (change.newDn?.getD []) hmem
  by_cases h : FindsLink server names dn objects linkDn
  · rw [hfound h, linkFollows_newSiteList_iff]
    exact ⟨fun ⟨hspelled, hrenamed⟩ =>
        ⟨fun _ => h, hspelled, fun newDn hnew _ => hrenamed newDn hnew⟩,
      fun hexact => ⟨hexact.spelled, fun newDn hnew => hexact.renamed newDn hnew h⟩⟩
  · rw [hmissed h, linkFollows_self_iff]
    refine ⟨fun hmentions => ⟨fun hnamed => absurd hnamed hmentions, ?_, fun _ _ hf => absurd hf h⟩,
      fun hexact => mt hexact.found h⟩
    exact fun value hvalue hnames => absurd ⟨value, hvalue, hnames⟩ hmentions

/-- Just the nodes of the site are deleted if the filter tells them. -/
theorem nodes_iff {objects : Partition} :
    (∀ nodeDn ∈ objects.dns,
      nodeDn ∉ (updateDnsRecords tables server names (Dn.text (site :: container)) objects).dns ↔
        IsNodeOf tables server names site objects nodeDn) ↔
      FilterTellsNodes tables server names site container objects := by
  constructor
  · intro h
    refine ⟨fun nodeDn hmem hnode => ?_, fun nodeDn hmem hzone hmatches => ?_⟩
    · exact ((not_mem_updateDnsRecords hmem).1 ((h nodeDn hmem).2 hnode)).2
    · exact (h nodeDn hmem).1 ((not_mem_updateDnsRecords hmem).2 ⟨hzone, hmatches⟩)
  · rintro ⟨hof, hto⟩ nodeDn hmem
    rw [not_mem_updateDnsRecords hmem]
    exact ⟨fun ⟨hzone, hmatches⟩ => hto nodeDn hmem hzone hmatches,
      fun hnode => ⟨hnode.1, hof nodeDn hmem hnode⟩⟩

end

/-- After a site has been renamed or deleted, its references are cleaned up, and no others,
    exactly if the links spell its DN as it is given, and the filter of the nodes is matched by
    those that announce it and by no others. -/
theorem siteCleanedUp_iff (tables : CaseTables) (server : SearchServer) (names : ZoneNames)
    (site : Dn.Rdn) (container : List Dn.Rdn) (change : SiteChange) (dir : SiteDirectory) :
    SiteCleanedUp tables server names site container change dir
      (update tables server names (Dn.text (site :: container)) change dir) ↔
    (∀ linkDn, IsSiteLink server dir.configuration linkDn →
      LinkIsExact server names (Dn.text (site :: container)) change dir.configuration linkDn) ∧
    FilterTellsNodes tables server names site container dir.dnsZones := by
  have hlinks : ∀ linkDn, IsSiteLink server dir.configuration linkDn → _ :=
    fun linkDn hlink => @linkFollows_iff server names (Dn.text (site :: container)) change
      dir.configuration linkDn hlink.1
  have hnodes := @nodes_iff tables server names site container dir.dnsZones
  rw [← @configuration_update tables] at hlinks
  rw [← @dnsZones_update _ _ _ _ change dir] at hnodes
  constructor
  · intro h
    exact ⟨fun linkDn hlink => (hlinks linkDn hlink).1 (h.links linkDn hlink), hnodes.1 h.nodes⟩
  · intro h
    exact ⟨fun linkDn hlink => (hlinks linkDn hlink).2 (h.1 linkDn hlink), hnodes.2 h.2⟩

/-! ## Plain names -/

/-- The attributes of the filters. -/
def descr (text : List Char) (h : Dn.IsDescr text) : AttributeDescription where
  text := text
  valid := ⟨⟨text, .inl h⟩, [], nofun, (List.append_nil text).symm⟩

def objectClassAttribute : AttributeDescription :=
  descr objectClass ⟨'o', "bjectClass".toList, rfl, rfl, List.all_iff_forall_prop.1 (by decide)⟩

def siteListAttribute : AttributeDescription :=
  descr siteList ⟨'s', "iteList".toList, rfl, rfl, List.all_iff_forall_prop.1 (by decide)⟩

def dcAttribute : AttributeDescription :=
  descr dnsRecordDc ⟨'d', ['c'], rfl, rfl, List.all_iff_forall_prop.1 (by decide)⟩

section
variable {tables : CaseTables} {server : SearchServer} {names : ZoneNames} {entry : Entry}

/-- The filter of two conditions without characters of the syntax. -/
theorem textMatches_filterAnd {first second : Condition} {attr attr' : AttributeDescription}
    {value value' : QString} (hfirst : first ≠ .count) (hsecond : second ≠ .count)
    (hvalue : first.IsPlain value) (hvalue' : second.IsPlain value') (rules : MatchingRules) :
    TextMatches rules entry (filterAnd [filterCondition first attr.text value,
      filterCondition second attr'.text value']) ↔
    first.Compares rules entry attr.text value ∧ second.Compares rules entry attr'.text value' := by
  have hmeans := FilterTree.means
    (.and [.condition first attr value, .condition second attr' value']) ⟨hvalue, hvalue', trivial⟩
  refine (hmeans.textMatches_iff (fun h => hfirst h.1) rules entry).trans ?_
  exact and_congr (imp_iff_right hfirst) ((and_iff_left trivial).trans (imp_iff_right hsecond))

/-- The links that are found: those with the DN in a value. -/
theorem matchesSiteLinks_iff {dn : QString} (hplain : ∀ c ∈ dn, ¬IsSyntax c)
    (rules : MatchingRules) : TextMatches rules entry (siteLinksFilter dn) ↔
      Condition.equals.Compares rules entry objectClass classSiteLink ∧
        Condition.contains.Compares rules entry siteList dn :=
  @textMatches_filterAnd entry .equals .contains objectClassAttribute siteListAttribute _ _
    nofun nofun (fun _ => List.all_iff_forall_prop.1 (by decide)) (fun _ => hplain) rules

/-- A link that names the site is found, if it is where the links are. -/
theorem findsLink_of_mentions {dn linkDn : QString} {objects : Partition}
    (hplain : ∀ c ∈ dn, ¬IsSyntax c) (hlink : IsSiteLink server objects linkDn)
    (hincludes : server.includes .all names.intersiteTransportsDn linkDn = true)
    (hmentions : Mentions server dn (objects.entry linkDn siteList)) :
    FindsLink server names dn objects linkDn := by
  obtain ⟨value, hvalue, hnames⟩ := hmentions
  exact ⟨hincludes, (matchesSiteLinks_iff hplain server.rules).2
    ⟨hlink.2, value, hvalue, hnames ▸ List.infix_rfl⟩⟩

/-- The part of the names of nodes that is looked for. -/
def nodeFragment (siteName : QString) : QString := '.' :: (siteName ++ '.' :: sitesLabel)

/-- The nodes that are found: those with the name of the site before "_sites". -/
theorem matchesSiteNodes_iff {dn : QString} (hplain : ∀ c ∈ dnGetName dn, ¬IsSyntax c)
    (rules : MatchingRules) : TextMatches rules entry (siteNodesFilter dn) ↔
      Condition.contains.Compares rules entry dnsRecordDc (nodeFragment (dnGetName dn)) ∧
        Condition.equals.Compares rules entry objectClass classDnsNode := by
  refine @textMatches_filterAnd entry .contains .equals dcAttribute objectClassAttribute _ _
    nofun nofun (fun _ => ?_) (fun _ => List.all_iff_forall_prop.1 (by decide)) rules
  have hlabel : ∀ c ∈ '.' :: sitesLabel, ¬IsSyntax c := List.all_iff_forall_prop.1 (by decide)
  refine List.forall_mem_cons.2 ⟨hlabel _ List.mem_cons_self, fun c hc => ?_⟩
  exact (List.mem_append.1 hc).elim (hplain c) (hlabel c)

/-- What comes around the site in the name of a node. -/
theorem exists_of_announcedSite {nodeName site : QString}
    (h : announcedSite server nodeName = some site) (hne : site ≠ []) :
    ∃ before label rest, IsSitesLabel server label ∧
      nodeName = before ++ '.' :: (site ++ '.' :: (label ++ rest)) := by
  rw [announcedSite] at h
  split at h
  · rename_i service protocol labels hsplit
    split_ifs at h with hany
    obtain ⟨label, hmem, hlabel⟩ := List.any_eq_true.1 hany
    obtain ⟨label, rest, hlabel, hrest⟩ := Path.exists_intercalate_takeWhile '.'
      ⟨label, hmem, decide_eq_false (not_not.2 (of_decide_eq_true hlabel))⟩
      (fun hnil => hne ((Option.some.inj h).symm.trans (by rw [hnil]; rfl)))
    rw [Option.some.inj h] at hrest
    refine ⟨service ++ '.' :: protocol, label, rest, not_not.1 (of_decide_eq_false hlabel), ?_⟩
    obtain ⟨c, cs, rfl⟩ := List.exists_cons_of_ne_nil (List.ne_nil_of_mem hmem)
    rw [← @List.intercalate_splitOn _ nodeName _ _ '.', hsplit, Path.intercalate_cons_cons,
      Path.intercalate_cons_cons, hrest, List.append_assoc, List.cons_append]
  · exact absurd h nofun

/-- Values are compared without regard to the letter case. -/
def IgnoresLetterCase (tables : CaseTables) (rules : MatchingRules) : Prop :=
  ∀ attr text, rules.prepare attr (utf8 text) = utf8 (tables.lower text)

theorem IgnoresLetterCase.prepare_append (h : IgnoresLetterCase tables server.rules)
    (attr : List Char) (text text' : QString) : server.rules.prepare attr (utf8 (text ++ text')) =
      server.rules.prepare attr (utf8 text) ++ server.rules.prepare attr (utf8 text') := by
  rw [h, h, h, CaseTables.lower_append]
  exact List.flatMap_append

theorem utf8_eq_nil {text : QString} (h : utf8 text = []) : text = [] := by
  cases text with
  | nil => rfl
  | cons c text =>
    have hpos := length_utf8_pos c
    rw [utf8_cons, List.append_eq_nil_iff] at h
    rw [h.1] at hpos
    exact absurd hpos (by decide)

/-- A node of a site has in its name what is looked for by the filter for the site, and by that
    for another one whose name is the end of the name of the site, after a dot. -/
theorem contains_of_announces {siteName name : QString}
    (hcase : IgnoresLetterCase tables server.rules) (hne : tables.lower siteName ≠ [])
    (hannounces : Announces server entry (utf8 siteName))
    (hname : name = siteName ∨ '.' :: name <:+ siteName) :
    Condition.contains.Compares server.rules entry dnsRecordDc (nodeFragment name) := by
  obtain ⟨nodeName, hmem, site, hsite, hprepare⟩ := hannounces
  have hsiteNe : site ≠ [] := by
    rintro rfl
    rw [hcase, hcase] at hprepare
    exact hne (utf8_eq_nil hprepare.symm)
  obtain ⟨before, label, rest, hlabel, rfl⟩ := exists_of_announcedSite hsite hsiteNe
  -- what is looked for, and the name of the node, by their parts
  have happend := hcase.prepare_append dnsRecordDc
  have hdot : ∀ text : QString, '.' :: text = ['.'] ++ text := fun _ => rfl
  have hbefore : ∃ z, server.rules.prepare dnsRecordDc (utf8 ['.']) ++
      server.rules.prepare dnsRecordDc (utf8 site) = z ++
        (server.rules.prepare dnsRecordDc (utf8 ['.']) ++
          server.rules.prepare dnsRecordDc (utf8 name)) := by
    rcases hname with rfl | ⟨y, rfl⟩
    · exact ⟨[], by rw [hprepare, List.nil_append]⟩
    · refine ⟨server.rules.prepare dnsRecordDc (utf8 ['.']) ++
        server.rules.prepare dnsRecordDc (utf8 y), ?_⟩
      rw [hprepare, happend, hdot name, happend, List.append_assoc]
  obtain ⟨z, hz⟩ := hbefore
  have hlabels : server.rules.prepare dnsRecordDc (utf8 label) =
      server.rules.prepare dnsRecordDc (utf8 sitesLabel) := hlabel
  refine ⟨_, hmem, server.rules.prepare dnsRecordDc (utf8 before) ++ z,
    server.rules.prepare dnsRecordDc (utf8 rest), ?_⟩
  rw [nodeFragment, hdot (site ++ _), hdot (name ++ _), hdot (label ++ rest), hdot sitesLabel]
  simp only [happend, hlabels]
  rw [← List.append_assoc _ (server.rules.prepare dnsRecordDc (utf8 site)), hz]
  simp only [List.append_assoc]

/-- A node of a site whose name ends with a dot and the name of the one that is renamed or deleted
    is deleted. -/
theorem not_mem_updateDnsRecords_of_announces {dn nodeDn siteName : QString} {objects : Partition}
    (hcase : IgnoresLetterCase tables server.rules) (hplain : ∀ c ∈ dnGetName dn, ¬IsSyntax c)
    (hmem : nodeDn ∈ objects.dns) (hzone : IsInZone tables server names nodeDn)
    (hclass : Condition.equals.Compares server.rules (objects.entry nodeDn) objectClass
      classDnsNode)
    (hne : tables.lower siteName ≠ [])
    (hannounces : Announces server (objects.entry nodeDn) (utf8 siteName))
    (hname : '.' :: dnGetName dn <:+ siteName) :
    nodeDn ∉ (updateDnsRecords tables server names dn objects).dns :=
  (not_mem_updateDnsRecords hmem).2 ⟨hzone, (matchesSiteNodes_iff hplain server.rules).2
    ⟨contains_of_announces hcase hne hannounces (.inr hname), hclass⟩⟩

/-- Of a site with a plain name that is read right, all nodes are found. The filter tells them
    just if the nodes with the name of the site in theirs do announce it. -/
theorem filterTellsNodes_iff {site : Dn.Rdn} {container : List Dn.Rdn} {objects : Partition}
    (hcase : IgnoresLetterCase tables server.rules) (hescapes : NameEscapesRight site)
    (hplain : ∀ c ∈ dnGetName (Dn.text (site :: container)), ¬IsSyntax c)
    (hne : tables.lower (dnGetName (Dn.text (site :: container))) ≠ []) :
    FilterTellsNodes tables server names site container objects ↔
      ∀ nodeDn ∈ objects.dns, IsInZone tables server names nodeDn →
        Condition.equals.Compares server.rules (objects.entry nodeDn) objectClass classDnsNode →
        Condition.contains.Compares server.rules (objects.entry nodeDn) dnsRecordDc
          (nodeFragment (dnGetName (Dn.text (site :: container)))) →
        Announces server (objects.entry nodeDn)
          (utf8 (dnGetName (Dn.text (site :: container)))) := by
  have hname := (name?_eq_some_iff site container).2 hescapes
  constructor
  · intro h nodeDn hmem hzone hclass hcontains
    obtain ⟨-, -, siteName, hsite, hannounces⟩ := h.node_of nodeDn hmem hzone
      ((matchesSiteNodes_iff hplain server.rules).2 ⟨hcontains, hclass⟩)
    rwa [← Option.some.inj (hname.symm.trans hsite)] at hannounces
  · intro h
    refine ⟨fun nodeDn hmem hnode => ?_, fun nodeDn hmem hzone hmatches => ?_⟩
    · obtain ⟨-, hclass, siteName, hsite, hannounces⟩ := hnode
      rw [← Option.some.inj (hname.symm.trans hsite)] at hannounces
      exact (matchesSiteNodes_iff hplain server.rules).2
        ⟨contains_of_announces hcase hne hannounces (.inl rfl), hclass⟩
    · obtain ⟨hcontains, hclass⟩ := (matchesSiteNodes_iff hplain server.rules).1 hmatches
      exact ⟨hzone, hclass, _, hname, h nodeDn hmem hzone hclass hcontains⟩

end

/-! ## Another letter case -/

/-- The bytes of the letters of ASCII, in lower case. -/
def lowerByte (b : UInt8) : UInt8 := if 65 ≤ b.toNat ∧ b.toNat ≤ 90 then b + 32 else b

/-- Values are compared without regard to the letter case of ASCII. -/
def asciiRules : MatchingRules where
  prepare _ value := value.map lowerByte
  prepare_nil _ := rfl
  compares _ _ _ _ := False
  extensible _ _ _ _ _ := False

theorem map_lowerByte_utf8EncodeChar (c : Char) :
    (String.utf8EncodeChar c).map lowerByte = String.utf8EncodeChar c.toLower := by
  by_cases hupper : 65 ≤ c.val.toNat ∧ c.val.toNat ≤ 90
  · have hletters : ∀ n ∈ List.range' 65 26, (String.utf8EncodeChar (Char.ofNat n)).map lowerByte =
        String.utf8EncodeChar (Char.ofNat n).toLower := by decide
    have hletter := hletters c.toNat (List.mem_range'_1.2 ⟨hupper.1, Nat.lt_succ_of_le hupper.2⟩)
    rwa [Char.ofNat_toNat] at hletter
  · have hlower : c.toLower = c := by
      refine Letter.toLower_of_not_isUpper fun h => ?_
      have hbounds := Letter.isUpper_iff.1 h
      exact hupper
        ⟨UInt32.le_iff_toNat_le.1 hbounds.1, UInt32.le_iff_toNat_le.1 hbounds.2⟩
    rw [hlower]
    refine (List.map_congr_left fun b hb => if_neg fun hletter => ?_).trans (List.map_id _)
    rcases toNat_of_mem_utf8EncodeChar hb with hval | hval
    · exact hupper (hval ▸ hletter)
    · exact absurd (hval.trans hletter.2) (by decide)

theorem ignoresLetterCase_asciiRules : IgnoresLetterCase .ascii asciiRules := by
  intro attr text
  induction text with
  | nil => rfl
  | cons c text ih =>
    have hhead := map_lowerByte_utf8EncodeChar c
    exact List.map_append.trans (congrArg₂ (· ++ ·) hhead ih)

/-- The name of one attribute without characters of the syntax of DNs. -/
def plainRdn (type : Dn.AttributeType) (text : List Char)
    (h : ∀ c ∈ text, Dn.IsPlain c ∧ c ≠ ' ' ∧ c ≠ '#') : Dn.Rdn :=
  have hitems : ∀ item ∈ text.pmap Dn.Item.plain fun c hc => (h c hc).1, ∀ c,
      item.plain? = some c → c ≠ ' ' ∧ c ≠ '#' := by
    intro item hitem c hc
    obtain ⟨c', hmem, rfl⟩ := List.mem_pmap.1 hitem
    exact Option.some.inj hc ▸ (h c' hmem).2
  .single type (.string (text.pmap Dn.Item.plain fun c hc => (h c hc).1)
    (fun c hc => by
      obtain ⟨item, hitem, hplain⟩ := Option.bind_eq_some_iff.1 hc
      exact hitems item (List.mem_of_head? hitem) c hplain)
    fun c hc => by
      obtain ⟨item, hitem, hplain⟩ := Option.bind_eq_some_iff.1 hc
      exact (hitems item (List.mem_of_getLast? hitem) c hplain).1)

/-- "CN=A,CN=Sites,CN=Configuration,DC=x". -/
def sampleSite : Dn.Rdn := plainRdn .cn ['A'] (List.all_iff_forall_prop.1 (by decide))
def sampleContainer : List Dn.Rdn :=
  [plainRdn .cn "Sites".toList (List.all_iff_forall_prop.1 (by decide)),
    plainRdn .cn "Configuration".toList (List.all_iff_forall_prop.1 (by decide)),
    plainRdn .dc ['x'] (List.all_iff_forall_prop.1 (by decide))]

/-- The DN of the site in another spelling, in the value of a link. -/
def sampleValue : List UInt8 := utf8 "CN=a,CN=Sites,CN=Configuration,DC=x".toList

/-- A link with this value, and no nodes. -/
def sampleDirectory : SiteDirectory where
  configuration := ⟨["CN=L,CN=IP,CN=Inter-Site Transports,CN=Sites,CN=Configuration,DC=x".toList],
    fun _ attr =>
      if attr = siteList then [sampleValue]
      else if attr = objectClass then [utf8 classSiteLink] else []⟩
  dnsZones := ⟨[], fun _ _ => []⟩

/-- A link that spells the DN of a site in another letter case still names it after the site has
    been deleted. -/
theorem not_siteCleanedUp : ¬∀ (tables : CaseTables) (server : SearchServer) (names : ZoneNames)
    (site : Dn.Rdn) (container : List Dn.Rdn) (change : SiteChange) (dir : SiteDirectory),
    IgnoresLetterCase tables server.rules →
    SiteCleanedUp tables server names site container change dir
      (update tables server names (Dn.text (site :: container)) change dir) := by
  intro h
  let server : SearchServer :=
    { includes := fun scope base dn => scope.includes (String.ofList (CaseTables.ascii.lower base))
        (String.ofList (CaseTables.ascii.lower dn))
      rules := asciiRules
      finds := fun text entry =>
        @decide (TextMatches asciiRules entry text) (Classical.propDecidable _)
      finds_iff := fun _ _ => @decide_eq_true_iff _ (Classical.propDecidable _) }
  have hcleaned := h .ascii server ⟨⟨"DC=x", "", "CN=Configuration,DC=x"⟩, ['x']⟩ sampleSite
    sampleContainer .delete sampleDirectory ignoresLetterCase_asciiRules
  have hlink : IsSiteLink server sampleDirectory.configuration
      "CN=L,CN=IP,CN=Inter-Site Transports,CN=Sites,CN=Configuration,DC=x".toList :=
    ⟨List.mem_singleton_self _, _, List.mem_singleton_self _, rfl⟩
  have hfollows := hcleaned.links _ hlink
  rw [configuration_update] at hfollows
  have hspelled := ((linkFollows_iff hlink.1).1 hfollows).spelled sampleValue
    (List.mem_singleton_self _) (by decide)
  exact absurd hspelled (by decide)

end SiteDnAttrsUpdater

end Admc
