import Admc.Config.Load
import Admc.Interface.Naming
import Admc.Lib.KeepFirst
import Admc.Policy.GpoCase
import Mathlib.Data.List.Sort

/-!
# Inherited policies

The widget that lists the policies which apply to an organizational unit: it climbs from the
unit to the domain, with the enforced links of each container put before those that are there
already, and the other ones after them, unless inheritance is blocked below.

* `exists_addEnabledPolicyItems_iff`: the climb only ends at a DN that is not found.
-/

namespace Admc

/-! ## The widget -/

/-- A row of the widget: what `load_item` sets, and the priority. -/
structure PolicyRow where
  priority : ℕ
  name : String
  location : String
  dn : String
  isEnforced : Bool
  deriving DecidableEq

/-- `make_item_row`. -/
def PolicyRow.empty : PolicyRow := ⟨0, "", "", "", false⟩

section
variable (rt : Runtime) (tables : CaseTables) (ad : AdConnection)

/-- The policy that is read in `InheritedPoliciesWidget::load_item`. -/
def policyObject (policyDn : QString) : AdObject :=
  ad.searchObject (.ofList policyDn) ["displayName"]

/-- `InheritedPoliciesWidget::load_item`. -/
def loadItem (row : PolicyRow) (ouName : String) (policyDn : QString) (isEnforced : Bool) :
    PolicyRow :=
  let gpo := policyObject ad policyDn
  if gpo.isEmpty then row
  else
    { row with
      dn := .ofList policyDn
      isEnforced
      name := gpo.getString rt "displayName"
      location := ouName }

/-- The container that is read in `InheritedPoliciesWidget::add_enabled_policy_items`. -/
def ouObject (ouDn : QString) : AdObject :=
  ad.searchObject (.ofList ouDn) ["name", "gPOptions", "gPLink"]

/-- The loop of `InheritedPoliciesWidget::add_enabled_policy_items`, for one link: the rows, and
    how many of them are enforced ones of this container. -/
def addPolicyItem (ouName : String) (gplink : Gplink) (inheritanceBlocked : Bool)
    (state : List PolicyRow × ℕ) (gpoDn : QString) : List PolicyRow × ℕ :=
  let (rows, enforcedPolicyRow) := state
  if gpoDn ∈ gplink.disabledGpoDnList tables then state
  else
    let policyIsEnforced : Bool := gpoDn ∈ gplink.enforcedGpoDnList tables
    if policyIsEnforced then
      let row := loadItem rt ad .empty ouName gpoDn policyIsEnforced
      (rows.insertIdx enforcedPolicyRow row, enforcedPolicyRow + 1)
    else if !inheritanceBlocked then
      let row := loadItem rt ad .empty ouName gpoDn policyIsEnforced
      (rows ++ [row], enforcedPolicyRow)
    else state

/-- `GPOPTIONS_BLOCK_INHERITANCE`. -/
def gpoptionsBlockInheritance : String := "1"

/-- `InheritedPoliciesWidget::add_enabled_policy_items`, if it ends in so many levels. -/
def addEnabledPolicyItems : ℕ → QString → Bool → List PolicyRow → Option (List PolicyRow)
  | 0, _, _, _ => none
  | n + 1, ouDn, inheritanceBlocked, rows =>
    let ouObj := ouObject ad ouDn
    if ouObj.isEmpty then some rows
    else
      let gplink := Gplink.ofString tables (ouObj.gplinkString rt)
      let (rows, _) := (gplink.getGpoList tables).foldl
        (addPolicyItem rt tables ad (ouObj.getString rt "name") gplink inheritanceBlocked) (rows, 0)
      let inheritanceIsBlocked :=
        ouObj.getString rt "gPOptions" = gpoptionsBlockInheritance || inheritanceBlocked
      addEnabledPolicyItems n (dnGetParent ouDn) inheritanceIsBlocked rows

/-- `InheritedPoliciesWidget::remove_link_duplicates`, with the DNs of the rows before. -/
def removeLinkDuplicates (dnList : List String) : List PolicyRow → List PolicyRow
  | [] => []
  | row :: rows =>
    if row.dn ∈ dnList then removeLinkDuplicates dnList rows
    else row :: removeLinkDuplicates (dnList ++ [row.dn]) rows

/-- `InheritedPoliciesWidget::set_priority_to_items`. -/
def setPriorityToItems (rows : List PolicyRow) : List PolicyRow :=
  rows.mapIdx fun row item => { item with priority := row + 1 }

/-- `InheritedPoliciesWidget::update`, if it ends in so many levels. -/
def updateInherited (n : ℕ) (ouDn : QString) : Option (List PolicyRow) :=
  (addEnabledPolicyItems rt tables ad n ouDn false []).map fun rows =>
    (setPriorityToItems (removeLinkDuplicates [] rows)).insertionSort fun row row' =>
      row.priority ≤ row'.priority

end

/-! ## The climb -/

/-- A DN without its first components. -/
def dnAncestor (dn : QString) (k : ℕ) : QString := [','].intercalate ((dn.splitOn ',').drop k)

theorem dnAncestor_zero (dn : QString) : dnAncestor dn 0 = dn := List.intercalate_splitOn ','

/-- The parents of a DN, one after the other: the last component is its own parent. -/
theorem iterate_dnGetParent (dn : QString) (k : ℕ) :
    dnGetParent^[k] dn = dnAncestor dn (min k (dn.count ',')) := by
  induction k generalizing dn with
  | zero => rw [Function.iterate_zero_apply, Nat.zero_min, dnAncestor_zero]
  | succ k ih =>
    rcases exists_commaTail dn with ⟨p, t, hp, rfl, -⟩
    rw [Function.iterate_succ_apply, dnGetParent_commaTail hp, ih]
    cases t with
    | none =>
      have hcount : p.count ',' = 0 := List.count_eq_zero_of_not_mem hp
      rw [Option.getD_none, commaTail, List.append_nil, hcount, Nat.min_zero, Nat.min_zero]
    | some t =>
      have hcount : (p ++ commaTail (some t)).count ',' = t.count ',' + 1 := by
        rw [List.count_append, List.count_eq_zero_of_not_mem hp, Nat.zero_add]
        exact List.count_cons_self
      rw [Option.getD_some, hcount, Nat.succ_min_succ, dnAncestor, dnAncestor,
        splitOn_commaTail hp]
      rfl

section
variable {rt : Runtime} {tables : CaseTables} {ad : AdConnection} {ouDn : QString}
  {inheritanceBlocked : Bool} {rows rows' : List PolicyRow} {n m : ℕ}

/-- The rows once the links of one container are added. -/
def containerRows (rt : Runtime) (tables : CaseTables) (ad : AdConnection) (ouDn : QString)
    (inheritanceBlocked : Bool) (rows : List PolicyRow) : List PolicyRow :=
  let ouObj := ouObject ad ouDn
  let gplink := Gplink.ofString tables (ouObj.gplinkString rt)
  ((gplink.getGpoList tables).foldl
    (addPolicyItem rt tables ad (ouObj.getString rt "name") gplink inheritanceBlocked) (rows, 0)).1

/-- A container blocks inheritance. -/
def blocksInheritance (rt : Runtime) (ad : AdConnection) (ouDn : QString) : Bool :=
  (ouObject ad ouDn).getString rt "gPOptions" = gpoptionsBlockInheritance

theorem addEnabledPolicyItems_of_isEmpty (h : (ouObject ad ouDn).isEmpty = true) :
    addEnabledPolicyItems rt tables ad (n + 1) ouDn inheritanceBlocked rows = some rows := by
  rw [addEnabledPolicyItems, h]
  rfl

theorem addEnabledPolicyItems_of_found (h : (ouObject ad ouDn).isEmpty = false) :
    addEnabledPolicyItems rt tables ad (n + 1) ouDn inheritanceBlocked rows =
      addEnabledPolicyItems rt tables ad n (dnGetParent ouDn)
        (blocksInheritance rt ad ouDn || inheritanceBlocked)
        (containerRows rt tables ad ouDn inheritanceBlocked rows) := by
  rw [addEnabledPolicyItems, h]
  rfl

/-- With more levels, a climb that ends is the same. -/
theorem addEnabledPolicyItems_mono (hnm : n ≤ m)
    (h : addEnabledPolicyItems rt tables ad n ouDn inheritanceBlocked rows = some rows') :
    addEnabledPolicyItems rt tables ad m ouDn inheritanceBlocked rows = some rows' := by
  induction n generalizing m ouDn inheritanceBlocked rows with
  | zero => exact nomatch h
  | succ n ih =>
    rcases Nat.exists_eq_add_of_le' hnm with ⟨k, rfl⟩
    cases hfound : (ouObject ad ouDn).isEmpty with
    | true =>
      rw [addEnabledPolicyItems_of_isEmpty hfound] at h
      exact (addEnabledPolicyItems_of_isEmpty hfound).trans h
    | false =>
      rw [addEnabledPolicyItems_of_found hfound] at h
      exact (addEnabledPolicyItems_of_found hfound).trans (ih (Nat.le_add_left n k) h)

/-- The climb ends just if some parent is not found. -/
theorem exists_addEnabledPolicyItems_iterate_iff :
    (∃ n rows', addEnabledPolicyItems rt tables ad n ouDn inheritanceBlocked rows =
      some rows') ↔ ∃ k, (ouObject ad (dnGetParent^[k] ouDn)).isEmpty = true := by
  constructor
  · rintro ⟨n, rows', h⟩
    induction n generalizing ouDn inheritanceBlocked rows with
    | zero => exact nomatch h
    | succ n ih =>
      cases hfound : (ouObject ad ouDn).isEmpty with
      | true => exact ⟨0, hfound⟩
      | false =>
        rw [addEnabledPolicyItems_of_found hfound] at h
        rcases ih h with ⟨k, hk⟩
        exact ⟨k + 1, hk⟩
  · rintro ⟨k, hk⟩
    induction k generalizing ouDn inheritanceBlocked rows with
    | zero => exact ⟨1, rows, addEnabledPolicyItems_of_isEmpty hk⟩
    | succ k ih =>
      cases hfound : (ouObject ad ouDn).isEmpty with
      | true => exact ⟨1, rows, addEnabledPolicyItems_of_isEmpty hfound⟩
      | false =>
        rcases @ih (dnGetParent ouDn) (blocksInheritance rt ad ouDn || inheritanceBlocked)
          (containerRows rt tables ad ouDn inheritanceBlocked rows) hk with ⟨n, rows', h⟩
        exact ⟨n + 1, rows', (addEnabledPolicyItems_of_found hfound).trans h⟩

/-- The climb ends just if one of the DNs is not found that are left of the first one when its
    components are cut off, down to the last one. -/
theorem exists_addEnabledPolicyItems_iff (rt : Runtime) (tables : CaseTables)
    (ad : AdConnection) (ouDn : QString) (inheritanceBlocked : Bool) (rows : List PolicyRow) :
    (∃ n rows', addEnabledPolicyItems rt tables ad n ouDn inheritanceBlocked rows =
      some rows') ↔
      ∃ k ≤ ouDn.count ',', (ouObject ad (dnAncestor ouDn k)).isEmpty = true := by
  rw [exists_addEnabledPolicyItems_iterate_iff]
  simp only [iterate_dnGetParent]
  constructor
  · rintro ⟨k, hk⟩
    exact ⟨min k (ouDn.count ','), Nat.min_le_right _ _, hk⟩
  · rintro ⟨k, hle, hk⟩
    exact ⟨k, by rwa [Nat.min_eq_left hle]⟩

/-- A directory with a domain of one component. -/
def corpDirectory : AdConnection where
  domain := "corp"
  clientUser := "user"
  results request :=
    if request.base = "DC=corp" then
      [("DC=corp", ⟨"DC=corp", [("name", ["corp".toUTF8.data.toList])]⟩)]
    else []

/-- The DN of a domain of one component is its own parent, so that the climb does not end. -/
theorem not_exists_addEnabledPolicyItems :
    ¬∀ (rt : Runtime) (tables : CaseTables) (ad : AdConnection) (ouDn : QString)
      (inheritanceBlocked : Bool) (rows : List PolicyRow), ∃ n rows',
        addEnabledPolicyItems rt tables ad n ouDn inheritanceBlocked rows = some rows' := by
  intro h
  have hclimb := h zeroRuntime .ascii corpDirectory "DC=corp".toList false []
  rw [exists_addEnabledPolicyItems_iterate_iff] at hclimb
  rcases hclimb with ⟨k, hk⟩
  have hparent : dnGetParent "DC=corp".toList = "DC=corp".toList := by decide
  have hfound : (ouObject corpDirectory "DC=corp".toList).isEmpty = false := by decide
  rw [Function.iterate_fixed hparent, hfound] at hk
  exact Bool.false_ne_true hk

end

end Admc
