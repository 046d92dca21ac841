import Admc.Properties.ChoiceEdits
import Admc.Properties.ListEdits
import Admc.Properties.UpnEdit

/-!
# Loading the edits

The properties dialogs and the result panes are made of edits, and load all of them with an object:
when they are opened or reset, or are used for another object. The pane of a manager is loaded with
the object of the manager. An edit should then show what a new one would. Some edits do not
overwrite all that they show: `EditKind.Overwrites` says when they do.

* `loadsWhen_edits`: after any loads of any objects and any edits by the user, a pane of edits shows
  what it is loaded with exactly if all its edits overwrite what they show;
* `loadsWhen_managedByTab`: the same for the pane of the manager.
-/

namespace Admc

section
variable {σ : Type} (ctx : EditContext σ)

/-! ## The edits -/

/-- The edits of the dialogs and panes, with the arguments of their constructors, and whether their
    widgets are enabled. -/
inductive EditKind
  | string (attr : String) (enabled : Bool)
  | stringList (attr : String)
  | stringOther (mainAttribute otherAttribute : String) (enabled : Bool)
  | country (enabled : Bool)
  | manager (managerAttribute : String) (enabled : Bool)
  | expiry (enabled : Bool)
  | datetime (attr : String)
  | lapsExpiry (attributeName : String)
  | upn (ad : AdConnection)
  | scheduleHours
  | logonComputers
  | groupScope
  | groupType
  | sitesLink (type : SitesLinkType) (hasPart : Bool)
  | subnetsList
  | membership (type : MembershipTabType)

namespace EditKind

/-- The edit of a kind. -/
def form : EditKind → Form Loading
  | string attr enabled => StringEdit.form ctx attr enabled
  | stringList attr => StringListEdit.form ctx attr
  | stringOther mainAttribute otherAttribute enabled =>
    StringOtherEdit.form ctx mainAttribute otherAttribute enabled
  | country enabled => CountryEdit.form ctx enabled
  | manager managerAttribute enabled => ManagerWidget.form ctx managerAttribute enabled
  | expiry enabled => ExpiryWidget.form ctx enabled
  | datetime attr => DateTimeEdit.form ctx attr
  | lapsExpiry attributeName => DateTimeEdit.form ctx attributeName
  | upn ad => UpnEdit.form ctx ad
  | scheduleHours => ScheduleHoursEdit.form ctx
  | logonComputers => LogonComputersEdit.form ctx
  | groupScope => groupScopeEditForm ctx
  | groupType => groupTypeEditForm ctx
  | sitesLink type hasPart => SitesLinkEdit.form ctx type hasPart
  | subnetsList => SubnetsListEdit.form ctx
  | membership type => MembershipWidgets.form ctx type

/-- What is shown before a load, and what is loaded, are such that the load shows it. -/
def Overwrites : (kind : EditKind) → (kind.form ctx).State → Loading → Prop
  | country _, d, loading => CountryEdit.Overwrites ctx d loading
  | expiry _, d, loading => ExpiryWidget.Overwrites ctx d loading
  | datetime attr, d, loading => DateTimeEdit.Overwrites ctx attr d loading
  | lapsExpiry attributeName, d, loading => DateTimeEdit.Overwrites ctx attributeName d loading
  | upn ad, d, loading => UpnEdit.Overwrites ctx ad d loading
  | groupScope, d, loading => GroupEdit.Overwrites ctx d loading
  | groupType, d, loading => GroupEdit.Overwrites ctx d loading
  | sitesLink _ hasPart, d, loading => SitesLinkEdit.Overwrites ctx hasPart d loading
  | subnetsList, d, loading => SubnetsListEdit.Overwrites d loading
  | membership type, d, loading => MembershipWidgets.Overwrites ctx type d loading
  -- the others overwrite all that they show
  | string _ _, _, _ | stringList _, _, _ | stringOther _ _ _, _, _ | manager _ _, _, _
  | scheduleHours, _, _ | logonComputers, _, _ => True

/-- Each edit shows what it is loaded with exactly if it overwrites what it shows. -/
theorem loadsWhen_form (kind : EditKind) : (kind.form ctx).LoadsWhen (kind.Overwrites ctx) := by
  cases kind with
  | string attr enabled => exact StringEdit.loadsWhen_form
  | stringList attr => exact StringListEdit.loadsWhen_form ctx attr
  | stringOther mainAttribute otherAttribute enabled => exact StringOtherEdit.loadsWhen_form
  | country enabled => exact CountryEdit.loadsWhen_form
  | manager managerAttribute enabled => exact ManagerWidget.loadsWhen_form
  | expiry enabled => exact ExpiryWidget.loadsWhen_form
  | datetime attr => exact DateTimeEdit.loadsWhen_form
  | lapsExpiry attributeName => exact DateTimeEdit.loadsWhen_form
  | upn ad => exact UpnEdit.loadsWhen_form
  | scheduleHours => exact ScheduleHoursEdit.loadsWhen_form ctx
  | logonComputers => exact LogonComputersEdit.loadsWhen_form ctx
  | groupScope => exact GroupEdit.loadsWhen_form
  | groupType => exact GroupEdit.loadsWhen_form
  | sitesLink type hasPart => exact SitesLinkEdit.loadsWhen_form
  | subnetsList => exact SubnetsListEdit.loadsWhen_form ctx
  | membership type => exact MembershipWidgets.loadsWhen_form

end EditKind

/-! ## Panes -/

section
variable {κ : Type} [DecidableEq κ]

/-- The edits of a dialog or of a pane, each of which is loaded with an object of its own. -/
def editPane (kind : κ → EditKind) (target : κ → Loading → Loading) : Form Loading :=
  Form.pane (fun k => (kind k).form ctx) target

/-- A pane of edits shows what it is loaded with exactly if all of them overwrite what they show,
    whatever has been loaded and edited before. -/
theorem loadsWhen_edits (kind : κ → EditKind) (target : κ → Loading → Loading) :
    (editPane ctx kind target).LoadsWhen fun d loading =>
      ∀ k, (kind k).Overwrites ctx (d k) (target k loading) :=
  Form.loadsWhen_pane fun k => (kind k).loadsWhen_form ctx

/-- What the edits of the manager are loaded with, as in `ManagedByTabEdit::load_manager_edits`. -/
def managerLoading (managerAttribute : String) (loading : Loading) : Loading :=
  let manager := loading.object.getString ctx.g.rt managerAttribute
  { loading with object := if manager ≠ "" then loading.ad.searchObject manager [] else .empty }

/-- `ManagedByTabEdit`: an edit for the manager, and those of the manager's object. -/
def managedByTab (kind : κ → EditKind) : Form Loading :=
  editPane ctx (fun k : Option κ => k.elim (.manager "managedBy" true) kind)
    fun k => k.elim id fun _ => managerLoading ctx "managedBy"

/-- The pane of the manager. -/
theorem loadsWhen_managedByTab (kind : κ → EditKind) :
    (managedByTab ctx kind).LoadsWhen fun d loading =>
      ∀ k, (kind k).Overwrites ctx (d (some k)) (managerLoading ctx "managedBy" loading) := by
  intro d hd loading
  have hpane := Form.loadsWhen_pane
    (fun k : Option κ => EditKind.loadsWhen_form ctx (k.elim (.manager "managedBy" true) kind))
    d hd loading
  -- the edit for the manager overwrites all that it shows
  exact hpane.trans (Option.forall.trans (and_iff_right trivial))

end

end

/-! ## A site -/

/-- A context to evaluate the edits in. -/
def sampleEditContext : EditContext Unit where
  g := .empty
  ldap := ⟨fun s _ => (s, []), fun _ => .success, fun _ => .success, fun s _ _ _ _ => (s, .success),
    fun s _ _ => (s, .success)⟩
  adconfig := { AdConfigPrivate.new with configurationDn := "CN=Configuration,DC=org" }
  tables := .ascii
  zone := .utc
  countries := ⟨[], [], [], [], .english, "en_US", false⟩
  translate := String.toList
  sidDisplayValue _ := []

/-- The DN of a site. -/
def sampleSiteDn : String := "CN=office,CN=Sites,CN=Configuration,DC=org"

/-- The site is loaded, which has one subnet. -/
def sampleSiteLoading : Loading where
  ad := ⟨"org", "", fun _ =>
    [("CN=10.0.0.0/24,CN=Subnets,CN=Sites,CN=Configuration,DC=org",
      ⟨"CN=10.0.0.0/24,CN=Subnets,CN=Sites,CN=Configuration,DC=org",
        [("name", [toUtf8 "10.0.0.0/24"]), ("siteObject", [toUtf8 sampleSiteDn])]⟩)]⟩
  isConnected := true
  object := ⟨sampleSiteDn, [("objectClass", [toUtf8 "site"])]⟩
  today := 20000

/-- The subnet is listed. -/
theorem subnetRows_sample : SubnetsListEdit.subnetRows sampleEditContext sampleSiteLoading =
    [("10.0.0.0/24".toList, "CN=10.0.0.0/24,CN=Subnets,CN=Sites,CN=Configuration,DC=org")] := by
  have hname : zeroRuntime.fromUtf8 (toUtf8 "10.0.0.0/24") = "10.0.0.0/24" :=
    decodesUtf8_zeroRuntime _
  have hsite : zeroRuntime.fromUtf8 (toUtf8 sampleSiteDn) = sampleSiteDn :=
    decodesUtf8_zeroRuntime _
  simp [SubnetsListEdit.subnetRows, AdConnection.search, sampleSiteLoading, sampleEditContext,
    Globals.empty, QHash.keys, QHash.value, AdObject.getString, AdObject.getStrings,
    AdObject.getValues, List.lookup_cons, hname, hsite]

/-- When the properties of the site are reset, the subnet is listed twice. -/
theorem not_loadsWhen_edits :
    ¬∀ kind : EditKind, (kind.form sampleEditContext).LoadsWhen fun _ _ => True := by
  intro h
  have hreached : (SubnetsListEdit.form sampleEditContext).Reached
      ((SubnetsListEdit.form sampleEditContext).load sampleSiteLoading ⟨[]⟩) :=
    Form.reached_new.load sampleSiteLoading
  have hshows := (h .subnetsList _ hreached sampleSiteLoading).2 trivial
  have hrows : [] ++ SubnetsListEdit.subnetRows sampleEditContext sampleSiteLoading = [] :=
    (SubnetsListEdit.loadsWhen_form sampleEditContext _ hreached sampleSiteLoading).1 hshows
  rw [subnetRows_sample] at hrows
  exact nomatch hrows

end Admc
