import Admc.Interface.Flags
import Admc.Policy.Links

/-!
# The operations on links

The links of an organizational unit are changed from several places of the console. Each
reads the links, changes them and writes them back, but takes them from elsewhere: some
read the attribute, one takes what `GPLinkManager` has kept of it, and the widget for the
links of a unit takes its own.

A read that fails gives no links, as one of an object without the attribute does.
-/

namespace Admc

/-- The console, as far as links are concerned. -/
structure LinkConsole (σ : Type) where
  server : σ
  /-- `GPLinkManager::ou_links`. -/
  ouLinks : QHash String QString
  /-- `LinkedPoliciesWidget::ou_dn`. -/
  widgetOu : String
  /-- `LinkedPoliciesWidget::gplink`. -/
  widgetGplink : Gplink
  /-- The DN of the unit that is selected in the scope tree, empty for other items. -/
  scopeOu : String

/-- What `modify_gplink` is called with. -/
inductive LinkModification
  | remove
  | moveUp
  | moveDown
  deriving DecidableEq

/-- The text of an attribute with links. -/
def AdObject.gplinkString (object : AdObject) (rt : Runtime) : QString :=
  (object.getString rt "gPLink").toList

section
variable {σ : Type} (tables : CaseTables) (rt : Runtime) (ldap : Ldap σ)

/-- The links of some policies are added. -/
def Gplink.addAll (gplink : Gplink) (policies : List QString) : Gplink :=
  policies.foldl (Gplink.add tables) gplink

/-- The links of some policies are removed. -/
def Gplink.removeAll (gplink : Gplink) (policies : List QString) : Gplink :=
  policies.foldl (Gplink.remove tables) gplink

/-- The effect of a modification on the links of some policies. -/
def Gplink.modifyAll (gplink : Gplink) (modification : LinkModification)
    (policies : List QString) : Gplink :=
  policies.foldl (fun gplink gpo =>
    match modification with
    | .remove => gplink.remove tables gpo
    | .moveUp => gplink.moveUp tables gpo
    | .moveDown => gplink.moveDown tables gpo) gplink

/-- Writes links to a unit. -/
def replaceGplink (s : σ) (ou : String) (gplinkString : QString) : σ × Bool :=
  attributeReplaceString ldap s ou "gPLink" (String.ofList gplinkString)

/-- `GPLinkManager::set_gplink`. -/
def LinkConsole.setGplink (console : LinkConsole σ) (ou : String) (gplinkString : QString) :
    LinkConsole σ :=
  { console with ouLinks := console.ouLinks.insert ou gplinkString }

/-- `LinkedPoliciesWidget::update`, for the unit of an item: other items have none. -/
def LinkConsole.updateWidget (console : LinkConsole σ) (ou : String) : LinkConsole σ :=
  if ou = "" then console
  else
    let (s, object) := adSearchObject ldap console.server ou [] false
    { console with
      server := s
      widgetOu := ou
      widgetGplink := Gplink.ofString tables (object.gplinkString rt) }

/-- An item is selected in the scope tree: the widget is shown for a unit. -/
def LinkConsole.selectScope (console : LinkConsole σ) (ou : String) : LinkConsole σ :=
  { console with scopeOu := ou }.updateWidget tables rt ldap ou

/-- The body of the first loop of `policy_add_links`. -/
def policyAddLinksStep (policyList : List QString) (console : LinkConsole σ) (ou : String) :
    LinkConsole σ :=
  let (s, results) := adSearch ldap console.server ou .object "" ["gPLink"] false
  let ouObject := results.value ou .empty
  let gplink := (Gplink.ofString tables (ouObject.gplinkString rt)).addAll tables policyList
  let gplinkStr := gplink.toString tables
  -- what the manager keeps does not depend on the result
  let (s, _) := replaceGplink ldap s ou gplinkStr
  { console with server := s }.setGplink ou gplinkStr

/-- `policy_add_links`: the units that have been fetched into the console are refreshed, and
    the widget with them. -/
def policyAddLinks (wasFetched : String → Bool) (policyList : List QString)
    (ouList : List String) (console : LinkConsole σ) : LinkConsole σ :=
  let console := ouList.foldl (policyAddLinksStep tables rt ldap policyList) console
  (ouList.filter wasFetched).foldl (LinkConsole.updateWidget tables rt ldap) console

/-- `console_policy_remove_link`, for policies that have been selected under a unit. -/
def consolePolicyRemoveLink (ou : String) (dnList : List QString) (console : LinkConsole σ) :
    LinkConsole σ :=
  let (s, parentObject) := adSearchObject ldap console.server ou [] false
  let gplink := (Gplink.ofString tables (parentObject.gplinkString rt)).removeAll tables dnList
  let gplinkNewString := gplink.toString tables
  let (s, replaceSuccess) := replaceGplink ldap s ou gplinkNewString
  if replaceSuccess then { console with server := s }.setGplink ou gplinkNewString
  else { console with server := s }

/-- `PolicyOUImpl::link_gpo_to_ou`. -/
def linkGpoToOu (ou : String) (gpoList : List QString) (console : LinkConsole σ) :
    LinkConsole σ :=
  let (s, targetObject) := adSearchObject ldap console.server ou [] false
  let originalGplink := Gplink.ofString tables (targetObject.gplinkString rt)
  let newGplink := originalGplink.addAll tables gpoList
  let newGplinkString := newGplink.toString tables
  let (s, success) := replaceGplink ldap s ou newGplinkString
  if !success then { console with server := s }
  else
    ({ console with server := s }.setGplink ou newGplinkString).updateWidget tables rt ldap
      console.scopeOu

/-- `PolicyImpl::on_change_gplink_option_action`, for a policy that is selected under a unit. -/
def onChangeGplinkOptionAction (ou : String) (gpo : QString) (option : GplinkOption)
    (checked : Bool) (console : LinkConsole σ) : LinkConsole σ :=
  let gplinkString := console.ouLinks.value ou []
  let gplink := (Gplink.ofString tables gplinkString).setOption tables gpo option checked
  let updatedGplinkString := gplink.toString tables
  let (s, success) := replaceGplink ldap console.server ou updatedGplinkString
  if success then { console with server := s }.setGplink ou updatedGplinkString
  else { console with server := s }

/-- `LinkedPoliciesWidget::on_item_changed`. -/
def onItemChanged (gpo : QString) (option : GplinkOption) (isChecked : Bool)
    (console : LinkConsole σ) : LinkConsole σ :=
  let gplinkModified := console.widgetGplink.setOption tables gpo option isChecked
  let gplinkString := gplinkModified.toString tables
  let (s, success) := replaceGplink ldap console.server console.widgetOu gplinkString
  if !success then { console with server := s }
  else
    { console with
      server := s
      widgetGplink := console.widgetGplink.setOption tables gpo option isChecked }.setGplink
        console.scopeOu gplinkString

/-- `LinkedPoliciesWidget::modify_gplink`, for the selected policies. -/
def modifyGplink (modification : LinkModification) (selected : List QString)
    (console : LinkConsole σ) : LinkConsole σ :=
  let gplink := console.widgetGplink.modifyAll tables modification selected
  let gplinkString := gplink.toString tables
  -- the links of the widget have changed, whatever the result
  let (s, _) := replaceGplink ldap console.server console.widgetOu gplinkString
  { console with server := s, widgetGplink := gplink }.setGplink console.scopeOu gplinkString

end

/-! ## What is added and removed -/

namespace Gplink

variable {tables : CaseTables} {gplink : Gplink} {policies : List QString} {gpo : QString}

theorem toString_eq_nil_iff : gplink.toString tables = [] ↔ gplink.gpoList = [] := by
  rw [toString, List.flatten_eq_nil_iff, ← List.reverse_eq_nil_iff, List.eq_nil_iff_forall_not_mem]
  constructor
  · intro h gpo hgpo
    exact List.cons_ne_nil _ _ (h _ (List.mem_map_of_mem hgpo))
  · intro h text htext
    obtain ⟨gpo, hgpo, -⟩ := List.mem_map.1 htext
    exact absurd hgpo (h gpo)

theorem mem_add {gpo gpo' : QString}
    (hkeys : ∀ gpo, gpo ∈ gplink.options.keys ↔ gpo ∈ gplink.gpoList) :
    gpo' ∈ (gplink.add tables gpo).gpoList ↔
      gpo' ∈ gplink.gpoList ∨ gpo' = tables.lower gpo := by
  unfold add
  dsimp only
  split_ifs with hcontains
  · rw [contains_lower, hkeys] at hcontains
    rw [or_iff_left_of_imp]
    rintro rfl
    exact hcontains
  · rw [List.mem_append, List.mem_singleton]

theorem mem_remove {gpo gpo' : QString}
    (hkeys : ∀ gpo, gpo ∈ gplink.options.keys ↔ gpo ∈ gplink.gpoList) :
    gpo' ∈ (gplink.remove tables gpo).gpoList ↔
      gpo' ∈ gplink.gpoList ∧ gpo' ≠ tables.lower gpo := by
  unfold remove
  dsimp only
  split_ifs with hcontains
  · rw [List.mem_filter, decide_eq_true_iff]
  · rw [contains_lower, hkeys] at hcontains
    rw [and_iff_left_of_imp]
    rintro hmem rfl
    exact hcontains hmem

/-- The edits keep the table in step with the list. -/
theorem mem_keys_edit (hkeys : ∀ gpo, gpo ∈ gplink.options.keys ↔ gpo ∈ gplink.gpoList)
    (e : GplinkEdit) :
    ∀ gpo, gpo ∈ (gplink.edit tables e).options.keys ↔ gpo ∈ (gplink.edit tables e).gpoList := by
  intro gpo'
  cases e with
  | add gpo =>
    rw [edit, mem_add hkeys, ← hkeys, add]
    split_ifs with hcontains
    · rw [contains_lower] at hcontains
      rw [or_iff_left_of_imp]
      rintro rfl
      exact hcontains
    · rw [QHash.mem_keys_insert, or_comm]
  | remove gpo =>
    rw [edit, mem_remove hkeys, ← hkeys, remove]
    split_ifs with hcontains
    · rw [QHash.mem_keys_remove, and_comm]
    · rw [contains_lower] at hcontains
      rw [and_iff_left_of_imp]
      rintro hmem rfl
      exact hcontains hmem
  | moveUp gpo => rw [edit, moveUp_options, hkeys, (moveUp_perm gpo).mem_iff]
  | moveDown gpo => rw [edit, moveDown_options, hkeys, (moveDown_perm gpo).mem_iff]
  | move fromOrder toOrder => rw [edit, move_options, hkeys, (move_perm _ _).mem_iff]
  | setOption gpo option value =>
    rw [edit, setOption]
    split_ifs with hcontains
    · rw [contains_lower] at hcontains
      rw [QHash.mem_keys_insert, ← hkeys, or_iff_right_of_imp]
      rintro rfl
      exact hcontains
    · exact hkeys gpo'

theorem mem_keys_run (hkeys : ∀ gpo, gpo ∈ gplink.options.keys ↔ gpo ∈ gplink.gpoList)
    (edits : List GplinkEdit) :
    ∀ gpo, gpo ∈ (gplink.run tables edits).options.keys ↔
      gpo ∈ (gplink.run tables edits).gpoList := by
  induction edits generalizing gplink with
  | nil => exact hkeys
  | cons e edits ih => exact ih (mem_keys_edit hkeys e)

theorem addAll_eq_run : gplink.addAll tables policies = gplink.run tables (policies.map .add) := by
  rw [addAll, run, List.foldl_map]
  rfl

theorem removeAll_eq_run :
    gplink.removeAll tables policies = gplink.run tables (policies.map .remove) := by
  rw [removeAll, run, List.foldl_map]
  rfl

theorem mem_addAll (hkeys : ∀ gpo, gpo ∈ gplink.options.keys ↔ gpo ∈ gplink.gpoList) :
    gpo ∈ (gplink.addAll tables policies).gpoList ↔
      gpo ∈ gplink.gpoList ∨ gpo ∈ policies.map tables.lower := by
  induction policies generalizing gplink with
  | nil => simp [addAll]
  | cons policy policies ih =>
    rw [addAll, List.foldl_cons, ← addAll,
      @ih (gplink.add tables policy) (mem_keys_edit hkeys (.add policy)), mem_add hkeys,
      List.map_cons, List.mem_cons, or_assoc]

theorem mem_removeAll (hkeys : ∀ gpo, gpo ∈ gplink.options.keys ↔ gpo ∈ gplink.gpoList) :
    gpo ∈ (gplink.removeAll tables policies).gpoList ↔
      gpo ∈ gplink.gpoList ∧ gpo ∉ policies.map tables.lower := by
  induction policies generalizing gplink with
  | nil => simp [removeAll]
  | cons policy policies ih =>
    rw [removeAll, List.foldl_cons, ← removeAll,
      @ih (gplink.remove tables policy) (mem_keys_edit hkeys (.remove policy)),
      mem_remove hkeys, List.map_cons, List.mem_cons, not_or, and_assoc]

end Gplink

/-! ## A server for links -/

/-- A request to replace the links of an object, with the values that it has. -/
structure LinkRequest where
  dn : String
  current : List QByteArray
  values : List QByteArray

/-- The attributes with links, by the DNs of their objects; the number of reads and writes so
    far and how the last two reads came out; the requests to replace links; and the objects
    whose links have been replaced, each with the outcome of the read before the last one: the
    last one is that of `attribute_replace_values`. -/
structure LinkServer where
  stored : String → List QByteArray
  reads : ℕ
  writes : ℕ
  beforeLast : ReadOutcome
  last : ReadOutcome
  requests : List LinkRequest
  replaced : List (String × ReadOutcome)

/-- A server on which requests come out so. -/
def linkLdap (outcomes : RequestOutcomes) : Ldap LinkServer where
  search s request :=
    ({ s with reads := s.reads + 1, beforeLast := s.last, last := outcomes.read s.reads },
      match outcomes.read s.reads with
      | .value => [.page [(request.base, [("gPLink", s.stored request.base)])] false]
      | .failure => [.failure]
      | .noObject => [.page [] false]
      | .noAttribute => [.page [(request.base, [])] false])
  createSdControl _ := .success
  createTreeDeleteControl _ := .success
  modifyReplace s dn _ values _ :=
    let requests := s.requests ++ [⟨dn, s.stored dn, values⟩]
    if outcomes.accepts s.writes then
      ({ s with
        stored := Function.update s.stored dn values
        writes := s.writes + 1
        requests := requests
        replaced := s.replaced ++ [(dn, s.beforeLast)] }, .success)
    else ({ s with writes := s.writes + 1, requests := requests }, .failure)
  delete s _ _ := (s, .failure)

/-- The text of the links that are stored for an object. -/
def LinkServer.gplinkString (s : LinkServer) (rt : Runtime) (ou : String) : QString :=
  (((s.stored ou).map rt.fromUtf8).headD "").toList

/-- The policies that an object has links to. -/
def LinkServer.links (s : LinkServer) (tables : CaseTables) (rt : Runtime) (ou : String) :
    List QString :=
  (Gplink.ofString tables (s.gplinkString rt ou)).gpoList

end Admc
