import Admc.Properties.Membership
import Admc.Properties.TextEdits

/-!
# Edits of lists

The edits of the properties dialogs that show lists of objects. That of site links loads nothing
without a connection, and overwrites all lists otherwise. The list of the subnets of a site is never
cleared: a load adds the subnets to those of former loads. The tab of memberships hides what is
about the primary group from the first object on that has none, and never shows it again.

* `SitesLinkEdit.loadsWhen_form`, `SubnetsListEdit.loadsWhen_form` and
  `MembershipWidgets.loadsWhen_form`: exactly when what is loaded shows, after any history.
-/

namespace Admc

/-- A row of a list, with the DN of its object. -/
abbrev ListRow := QString × String

/-- The row of an object, by the name in its DN. -/
def listRow (dn : String) : ListRow := (dnGetName dn.toList, dn)

section
variable {σ : Type} (ctx : EditContext σ)

/-- `AdConfig::sites_container_dn`. -/
def sitesContainerDn : String := "CN=Sites," ++ ctx.adconfig.configurationDn

/-! ## Site links -/

/-- `enum class SitesLinkType`. -/
inductive SitesLinkType
  | link
  | bridge
  deriving DecidableEq

/-- `SitesLinkPartWidget`, with the numbers of its spin boxes. -/
@[ext] structure SitesLinkPart where
  cost : ℤ
  replInterval : ℤ

/-- The number of a spin box up to 10000. -/
def spinBoxNumber (value : ℤ) : ℤ := max 0 (min 10000 value)

/-- `SitesLinkEdit`, of which only site links have numbers. -/
structure SitesLinkEdit where
  rightList : List ListRow
  leftList : List ListRow
  descriptionEdit : StringEdit
  part : Option SitesLinkPart

namespace SitesLinkEdit

variable (type : SitesLinkType) (part : Option SitesLinkPart)

/-- The attribute of the linked objects. -/
def linkAttr : String := if type = .link then "siteList" else "siteLinkList"

/-- `SitesLinkEdit::SitesLinkEdit`, with spin boxes at zero or without them. -/
def new (hasPart : Bool) : SitesLinkEdit :=
  ⟨[], [], .new ctx "description" true, if hasPart then some ⟨0, 0⟩ else none⟩

/-- `SitesLinkEdit::load` with a connection. -/
def loadConnected (loading : Loading) (d : SitesLinkEdit) : SitesLinkEdit :=
  let object := loading.object
  let linkedDnList := object.getStrings ctx.g.rt (linkAttr type)
  let searchCategory := if type = .link then "Site" else "Site-Link"
  let filter := filterCondition .equals "objectCategory".toList searchCategory.toList
  let searchRes := loading.ad.search (sitesContainerDn ctx) .children filter ["distinguishedName"]
  { rightList := linkedDnList.map listRow
    leftList := (searchRes.keys.filter (· ∉ linkedDnList)).map listRow
    descriptionEdit := d.descriptionEdit.load ctx "description" loading
    part := d.part.map fun _ => ⟨spinBoxNumber (object.getInt ctx.g.rt "cost").toInt,
      spinBoxNumber (object.getInt ctx.g.rt "replInterval").toInt⟩ }

/-- `SitesLinkEdit::load`. -/
def load (loading : Loading) (d : SitesLinkEdit) : SitesLinkEdit :=
  if !loading.isConnected then d else d.loadConnected ctx type loading

/-- The loop of `SitesLinkEdit::apply` over the values of the attributes. -/
def replaceEach (dn : String) : QHash String (List QByteArray) → σ → σ × Bool
  | [], s => (s, true)
  | (attr, values) :: rest, s =>
    let (s, success) := attributeReplaceValues ctx.ldap s dn attr values false
    if success then replaceEach dn rest s else (s, false)

/-- `SitesLinkEdit::apply`. -/
def apply (isConnected : Bool) (d : SitesLinkEdit) : Applies σ := fun s dn =>
  if !isConnected then (s, false)
  else
    let (s, success) := d.descriptionEdit.apply ctx "description" s dn
    if !success then (s, false)
    else
      let linkedDns := (d.rightList.map Prod.snd).filter (· ≠ "")
      let links := if linkedDns.isEmpty then [] else [(linkAttr type, linkedDns.map toUtf8)]
      let numbers :=
        match d.part with
        | some part => [("cost", [toUtf8 (.ofList (number part.cost))]),
            ("replInterval", [toUtf8 (.ofList (number part.replInterval))])]
        | none => []
      replaceEach ctx dn (links ++ numbers) s

/-- `move_selected_list_items`. -/
def moveSelectedListItems (selected : List ℕ) (fromList toList : List ListRow) :
    List ListRow × List ListRow :=
  let items := selected.filterMap (fromList[·]?)
  (fromList.diff items, toList ++ items)

/-- What the user does: the selected rows are moved, the description is typed, and numbers are
    set. -/
inductive Edit
  | add (selected : List ℕ)
  | remove (selected : List ℕ)
  | description (text : QString)
  | numbers (cost replInterval : ℤ)

/-- An edit by the user. -/
def edit : Edit → SitesLinkEdit → SitesLinkEdit
  | .add selected, d =>
    let (leftList, rightList) := moveSelectedListItems selected d.leftList d.rightList
    { d with leftList, rightList }
  | .remove selected, d =>
    let (rightList, leftList) := moveSelectedListItems selected d.rightList d.leftList
    { d with leftList, rightList }
  | .description text, d =>
    let edit := d.descriptionEdit.edit.setText text
    { d with descriptionEdit := { d.descriptionEdit with edit } }
  | .numbers cost replInterval, d =>
    { d with part := d.part.map fun _ => ⟨spinBoxNumber cost, spinBoxNumber replInterval⟩ }

/-- The edit. -/
def form (hasPart : Bool) : Form Loading where
  State := SitesLinkEdit
  Edit := Edit
  View := List ListRow × List ListRow × QString × Bool × Option SitesLinkPart ×
    (Bool → Applies σ)
  new := new ctx hasPart
  load := load ctx type
  edit := edit
  view d := (d.rightList, d.leftList, d.descriptionEdit.edit.text, d.descriptionEdit.enabled,
    d.part, fun isConnected => d.apply ctx type isConnected)

/-- There is a connection, or the edit shows what a new one shows. -/
def Overwrites (hasPart : Bool) (d : SitesLinkEdit) (loading : Loading) : Prop :=
  loading.isConnected = true ∨ d.rightList = [] ∧ d.leftList = [] ∧
    d.descriptionEdit.edit.text = (new ctx hasPart).descriptionEdit.edit.text ∧
      d.part = (new ctx hasPart).part

/-- What no load and no edit changes: the length and the state of the description, and whether
    there are numbers. -/
def fixedPart (d : SitesLinkEdit) : ℤ × Bool × Bool :=
  (d.descriptionEdit.edit.maxLength, d.descriptionEdit.enabled, d.part.isSome)

variable {ctx type} {hasPart : Bool} {d d' : SitesLinkEdit} {loading : Loading}

theorem load_of_not_connected (h : loading.isConnected = false) : d.load ctx type loading = d := by
  rw [load, h]
  rfl

theorem load_of_connected (h : loading.isConnected = true) :
    d.load ctx type loading = d.loadConnected ctx type loading := by
  rw [load, h]
  rfl

theorem fixedPart_load : (d.load ctx type loading).fixedPart = d.fixedPart := by
  cases hconnected : loading.isConnected with
  | false => rw [load_of_not_connected hconnected]
  | true =>
    rw [load_of_connected hconnected]
    exact congrArg (fun isSome => (_, _, isSome)) (Option.isSome_map ..)

theorem fixedPart_edit (e : Edit) : (d.edit e).fixedPart = d.fixedPart := by
  cases e with
  | add selected => rfl
  | remove selected => rfl
  | description text => rfl
  | numbers cost replInterval => simp only [fixedPart, edit, Option.isSome_map]

/-- With a connection, nothing is left of what the edit has shown. -/
theorem load_congr (h : d.fixedPart = d'.fixedPart) (hconnected : loading.isConnected = true) :
    d.load ctx type loading = d'.load ctx type loading := by
  simp only [fixedPart, Prod.mk.injEq] at h
  obtain ⟨hlength, henabled, hpart⟩ := h
  have hmap {f : SitesLinkPart} : d.part.map (fun _ => f) = d'.part.map fun _ => f := by
    cases hd : d.part <;> cases hd' : d'.part <;> simp_all
  rw [load_of_connected hconnected, load_of_connected hconnected]
  simp only [loadConnected, StringEdit.load_congr hlength henabled, hmap]

/-- What is written follows from what is shown. -/
theorem view_eq_iff : (form ctx type hasPart).view d = (form ctx type hasPart).view d' ↔
    d.rightList = d'.rightList ∧ d.leftList = d'.leftList ∧
      d.descriptionEdit.edit.text = d'.descriptionEdit.edit.text ∧
        d.descriptionEdit.enabled = d'.descriptionEdit.enabled ∧ d.part = d'.part := by
  simp only [form, Prod.mk.injEq]
  constructor
  · rintro ⟨hright, hleft, htext, henabled, hpart, -⟩
    exact ⟨hright, hleft, htext, henabled, hpart⟩
  · rintro ⟨hright, hleft, htext, henabled, hpart⟩
    refine ⟨hright, hleft, htext, henabled, hpart, ?_⟩
    funext isConnected s dn
    rw [apply, apply, StringEdit.apply, StringEdit.apply, hright, htext, hpart]

theorem showsLoaded_iff (h : d.fixedPart = (new ctx hasPart).fixedPart) :
    (form ctx type hasPart).ShowsLoaded d loading ↔ Overwrites ctx hasPart d loading := by
  rw [Overwrites]
  cases hconnected : loading.isConnected with
  | true =>
    exact iff_of_true (congrArg (form ctx type hasPart).view (load_congr h hconnected)) (.inl rfl)
  | false =>
    have hview : (form ctx type hasPart).ShowsLoaded d loading ↔
        (form ctx type hasPart).view d = (form ctx type hasPart).view (new ctx hasPart) := by
      simp only [Form.ShowsLoaded, form, load_of_not_connected hconnected]
    have henabled : d.descriptionEdit.enabled = (new ctx hasPart).descriptionEdit.enabled :=
      (Prod.mk.inj (Prod.mk.inj h).2).1
    rw [hview, view_eq_iff, or_iff_right Bool.false_ne_true, and_iff_right henabled]
    rfl

/-- A load with a connection shows the object. -/
theorem loadsWhen_form : (form ctx type hasPart).LoadsWhen (Overwrites ctx hasPart) :=
  Form.loadsWhen_of_constant fixedPart (fun _ _ => fixedPart_load) (fun e _ => fixedPart_edit e)
    fun _ hd _ => showsLoaded_iff hd

end SitesLinkEdit

/-! ## Subnets -/

/-- `SubnetsListEdit`, with its rows. -/
structure SubnetsListEdit where
  rows : List ListRow

namespace SubnetsListEdit

/-- The rows for the subnets of a site. -/
def subnetRows (loading : Loading) : List ListRow :=
  let filter := filterCondition .equals "objectClass".toList "subnet".toList
  let subnetObjMap := loading.ad.search (sitesContainerDn ctx) .all filter ["name", "siteObject"]
  let ofSite := subnetObjMap.keys.filter fun subnetDn =>
    loading.object.dn = (subnetObjMap.value subnetDn .empty).getString ctx.g.rt "siteObject"
  ofSite.map fun subnetDn =>
    (((subnetObjMap.value subnetDn .empty).getString ctx.g.rt "name").toList, subnetDn)

/-- `SubnetsListEdit::load`. -/
def load (loading : Loading) (d : SubnetsListEdit) : SubnetsListEdit :=
  ⟨d.rows ++ subnetRows ctx loading⟩

/-- The edit, which the user cannot edit, and which writes nothing. -/
def form : Form Loading where
  State := SubnetsListEdit
  Edit := Empty
  View := List ListRow × Applies σ
  new := ⟨[]⟩
  load := load ctx
  edit e := e.elim
  view d := (d.rows, fun s _ => (s, true))

/-- There are no rows yet. -/
def Overwrites (d : SubnetsListEdit) (_ : Loading) : Prop := d.rows = []

/-- Only the first load shows the object. -/
theorem loadsWhen_form : (form ctx).LoadsWhen Overwrites := by
  intro d _ loading
  have hview : (form ctx).ShowsLoaded d loading ↔
      d.rows ++ subnetRows ctx loading = [] ++ subnetRows ctx loading := by
    simp only [Form.ShowsLoaded, form, load, Prod.mk.injEq, and_true]
  exact hview.trans (List.append_left_inj _)

end SubnetsListEdit

/-! ## Memberships -/

/-- A set from a list. -/
def QSet.ofList (values : List String) : QSet String := values.foldl QSet.insert ⟨[], .nil⟩

/-- `extract_rid_from_sid`. -/
def extractRidFromSid (sid : QByteArray) : QString :=
  let sidString := ctx.sidDisplayValue sid
  mid sidString (lastIndexOf sidString '-' + 1) (-1)

/-- `MembershipTabEdit`, with its widgets. -/
structure MembershipWidgets where
  tab : MembershipTabEdit
  /-- The DNs of the rows, which are sorted by name. -/
  rows : List String
  selected : List String
  primaryGroupLabel : QString
  /-- The button and the label for the primary group are not hidden. -/
  primaryVisible : Bool

namespace MembershipWidgets

variable (type : MembershipTabType)

/-- `MembershipTabEdit::MembershipTabEdit`. -/
def new : MembershipWidgets where
  tab := .load type ⟨[], .nil⟩ ⟨[], .nil⟩
  rows := []
  selected := []
  primaryGroupLabel := []
  primaryVisible := type = .memberOf

/-- `MembershipTabEdit::get_membership_attribute`. -/
def getMembershipAttribute : String :=
  match type with
  | .members => "member"
  | .memberOf => "memberOf"

/-- `MembershipTabEdit::reload_model`, which clears the selection. -/
def reloadModel (d : MembershipWidgets) : MembershipWidgets :=
  { d with
    rows := (d.tab.currentValues.unite d.tab.currentPrimaryValues).values
    selected := []
    primaryGroupLabel :=
      match type with
      | .members => d.primaryGroupLabel
      | .memberOf =>
        let name :=
          match d.tab.currentPrimaryValues.values with
          | primaryGroupDn :: _ => dnGetName primaryGroupDn.toList
          | [] => []
        ctx.translate "Primary group: " ++ name }

/-- The object has no primary group. -/
def hidesPrimary (object : AdObject) : Bool :=
  let objCategory := object.getString ctx.g.rt "objectCategory"
  objCategory = "" || dnGetName objCategory.toList = "Group".toList

/-- The primary memberships that `MembershipTabEdit::load` looks for. -/
def loadedPrimaryValues (loading : Loading) : QSet String :=
  let object := loading.object
  let domainDn := ctx.adconfig.domainDn
  match type with
  | .members =>
    -- users with this group as primary group
    let groupRid := extractRidFromSid ctx (object.getValue "objectSid")
    let filter := filterCondition .equals "primaryGroupID".toList groupRid
    .ofList (loading.ad.search domainDn .all filter []).keys
  | .memberOf =>
    if hidesPrimary ctx object then .ofList []
    else
      -- the SID of the group is that of the user with another end
      let groupRid := object.getString ctx.g.rt "primaryGroupID"
      let userSidString := ctx.sidDisplayValue (object.getValue "objectSid")
      let cutIndex := lastIndexOf userSidString '-' + 1
      let groupSid := userSidString.take cutIndex.toNat ++ groupRid.toList
      let filter := filterCondition .equals "objectSid".toList groupSid
      .ofList (((loading.ad.search domainDn .all filter []).values.map AdObject.dn).take 1)

/-- `MembershipTabEdit::load`. -/
def load (loading : Loading) (d : MembershipWidgets) : MembershipWidgets :=
  let values := QSet.ofList (loading.object.getStrings ctx.g.rt (getMembershipAttribute type))
  let hides := type = .memberOf && hidesPrimary ctx loading.object
  reloadModel ctx type
    { d with
      tab := .load type values (loadedPrimaryValues ctx type loading)
      primaryVisible := d.primaryVisible && !hides }

/-- `enable_primary_button_on_valid_selection`. -/
def primaryEnabled (d : MembershipWidgets) : Bool :=
  match d.selected.dedup with
  | [dn] => d.tab.primaryButtonEnabled dn
  | _ => false

/-- What the user does: rows are selected, and buttons are clicked. -/
inductive Edit
  | select (dns : List String)
  | add (values : List String)
  | remove
  | primary

/-- An edit by the user. -/
def edit : Edit → MembershipWidgets → MembershipWidgets
  | .select dns, d => { d with selected := dns.filter (· ∈ d.rows) }
  | .add values, d => reloadModel ctx type { d with tab := d.tab.addValues values }
  | .remove, d =>
    if d.selected.isEmpty || d.selected.any d.tab.currentPrimaryValues.contains then d
    else reloadModel ctx type { d with tab := d.tab.removeValues d.selected }
  | .primary, d =>
    match d.selected.dedup with
    | [dn] =>
      if d.primaryEnabled then reloadModel ctx type { d with tab := d.tab.onPrimaryButton dn }
      else d
    | _ => d

/-- The edit. -/
def form : Form Loading where
  State := MembershipWidgets
  Edit := Edit
  View := List String × List String × QString × Bool × Bool × Bool ×
    (MembershipServer → MembershipServer × Bool)
  new := new type
  load := load ctx type
  edit := edit ctx type
  view d := (d.rows, d.selected, d.primaryGroupLabel, d.primaryVisible, !d.selected.isEmpty,
    d.primaryEnabled, d.tab.apply)

/-- The load hides what is about the primary group, or this is not hidden, or never shown. -/
def Overwrites (d : MembershipWidgets) (loading : Loading) : Prop :=
  type = .members ∨ hidesPrimary ctx loading.object = true ∨ d.primaryVisible = true

/-- What is never shown in the tab of members. -/
def fixedPart (d : MembershipWidgets) : Option (QString × Bool) :=
  match type with
  | .members => some (d.primaryGroupLabel, d.primaryVisible)
  | .memberOf => none

variable {ctx type} {d : MembershipWidgets} {loading : Loading}

theorem fixedPart_reloadModel : (reloadModel ctx type d).fixedPart type = d.fixedPart type := by
  cases type <;> rfl

theorem fixedPart_load : (d.load ctx type loading).fixedPart type = d.fixedPart type := by
  cases type with
  | members => simp [load, fixedPart, reloadModel]
  | memberOf => rfl

theorem fixedPart_edit (e : Edit) : (d.edit ctx type e).fixedPart type = d.fixedPart type := by
  cases type with
  | memberOf => rfl
  | members =>
    cases e with
    | select dns => rfl
    | add values => rfl
    | remove =>
      rw [edit]
      split_ifs
      · rfl
      · rfl
    | primary =>
      rw [edit]
      split
      · split_ifs
        · rfl
        · rfl
      · rfl

/-- What is visible after a load. -/
def visibleAfter (ctx : EditContext σ) (type : MembershipTabType) (loading : Loading)
    (d : MembershipWidgets) : Bool :=
  d.primaryVisible && !(type = .memberOf && hidesPrimary ctx loading.object)

/-- A load overwrites the edit but for what may be hidden. -/
theorem load_eq (h : d.fixedPart type = (new type).fixedPart type) :
    d.load ctx type loading =
      { (new type).load ctx type loading with
        primaryVisible := d.visibleAfter ctx type loading } := by
  cases type with
  | memberOf => rfl
  | members =>
    have hlabel : d.primaryGroupLabel = [] := (Prod.mk.inj (Option.some.inj h)).1
    simp only [load, reloadModel, hlabel, new, visibleAfter]

theorem showsLoaded_iff (h : d.fixedPart type = (new type).fixedPart type) :
    (form ctx type).ShowsLoaded d loading ↔ Overwrites ctx type d loading := by
  have hview : (form ctx type).ShowsLoaded d loading ↔
      d.visibleAfter ctx type loading = (new type).visibleAfter ctx type loading := by
    simp only [Form.ShowsLoaded, form, load_eq h, primaryEnabled, Prod.mk.injEq, true_and,
      and_true]
    rfl
  rw [hview, visibleAfter, visibleAfter, Overwrites]
  cases type with
  | members =>
    have hvisible : d.primaryVisible = false := (Prod.mk.inj (Option.some.inj h)).2
    rw [hvisible]
    exact iff_of_true rfl (.inl rfl)
  | memberOf =>
    cases hidesPrimary ctx loading.object <;> simp [new]

/-- A load shows the object, unless what is about the primary group has been hidden. -/
theorem loadsWhen_form : (form ctx type).LoadsWhen (Overwrites ctx type) :=
  Form.loadsWhen_of_constant (fixedPart type) (fun _ _ => fixedPart_load)
    (fun e _ => fixedPart_edit e) fun _ hd _ => showsLoaded_iff hd

end MembershipWidgets

end

end Admc
