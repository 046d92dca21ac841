import Admc.Interface.Server
import Mathlib.Data.List.Count

/-!
# Adding a site to a site link

Before a site is added to the sites of a link, those that have vanished are removed from the
list, in a loop over this list: its end is the end of the list as it was before. What follows a
removed site moves up, so that one of them is skipped, and the loop comes to places behind the end
of the list that is left. Such a read stops the model.

* `dropVanished_eq`: when the loop comes to its end, and with what;
* `addsSite_iff`: exactly when a site is added, and the other sites stay.
-/

namespace Admc

/-- What is requested by `SiteLinksTableEdit::apply`, or what it returns without a request. -/
inductive SiteLinkRequest
  | returned (result : Bool)
  | replaceValues (siteLinkDn : String) (values : List QByteArray)
  deriving DecidableEq

namespace SiteLinksTableEdit

/-- The loop of `apply` over the sites, from a place on, up to where the list ended before: the
    sites that are examined, and those that are left. -/
def removeLoop (siteExists : QByteArray → Bool) :
    ℕ → ℕ → List QByteArray → Option (List QByteArray × List QByteArray)
  | 0, _, values => some ([], values)
  | turns + 1, i, values =>
    match values[i]? with
    | none => none
    | some siteDnBytes =>
      let values := if siteExists siteDnBytes then values else values.filter (· ≠ siteDnBytes)
      (removeLoop siteExists turns (i + 1) values).map fun (examined, left) =>
        (siteDnBytes :: examined, left)

/-- The loop over all sites. -/
def dropVanished (siteExists : QByteArray → Bool) (values : List QByteArray) :
    Option (List QByteArray × List QByteArray) :=
  removeLoop siteExists values.length 0 values

section
variable (rt : Runtime) (searchObject : String → List String → AdObject)

/-- `SiteLinksTableEdit::site_exists`, of a DN in bytes, which are decoded. -/
def siteExists (siteDnBytes : QByteArray) : Bool :=
  !(searchObject (rt.fromUtf8 siteDnBytes) ["distinguishedName"]).isEmpty

/-- `SiteLinksTableEdit::apply`, given the DN in the selected row, if there is one. -/
def apply (selectedItem : Option String) (dn : String) : Option SiteLinkRequest :=
  match selectedItem with
  | none => some (.returned true)
  | some siteLinkDn =>
    if siteLinkDn.isEmpty then some (.returned false)
    else
      let siteLinkObj := searchObject siteLinkDn ["siteList"]
      if siteLinkObj.isEmpty then some (.returned false)
      else do
        let (_, values) ←
          dropVanished (siteExists rt searchObject) (siteLinkObj.getValues "siteList")
        return .replaceValues siteLinkDn (values ++ [toUtf8 dn])

/-- The values of the sites of a link. -/
def siteList (siteLinkDn : String) : List QByteArray :=
  (searchObject siteLinkDn ["siteList"]).getValues "siteList"

/-- A site is added to a link: each site of the link is examined once, nothing behind the end of
    the list is read, and what is written are the sites that exist and the DN, once. -/
def AddsSite (siteLinkDn dn : String) : Prop :=
  let sites := siteList searchObject siteLinkDn
  let written := sites.filter (siteExists rt searchObject) ++ [toUtf8 dn]
  ((dropVanished (siteExists rt searchObject) sites).map Prod.fst) = some sites ∧
    apply rt searchObject (some siteLinkDn) dn = some (.replaceValues siteLinkDn written) ∧
    written.count (toUtf8 dn) = 1

end

/-! ## The loop -/

section
variable {found : QByteArray → Bool} {passed rest values : List QByteArray} {site : QByteArray}
  {turns i : ℕ}

theorem removeLoop_succ (h : values[i]? = some site) :
    removeLoop found (turns + 1) i values =
      (removeLoop found turns (i + 1)
        (if found site then values else values.filter (· ≠ site))).map
        fun (examined, left) => (site :: examined, left) := by
  rw [removeLoop, h]

/-- Once the list has become shorter, the loop comes to a place behind its end. -/
theorem removeLoop_eq_none (hturns : 0 < turns) (h : values.length < i + turns) :
    removeLoop found turns i values = none := by
  induction turns generalizing i values with
  | zero => exact absurd hturns (Nat.lt_irrefl 0)
  | succ turns ih =>
    cases hsite : values[i]? with
    | none =>
      rw [removeLoop, hsite]
    | some site =>
      have hi := (List.getElem?_eq_some_iff.1 hsite).1
      have hleft : (if found site then values else values.filter (· ≠ site)).length ≤
          values.length := by
        split_ifs
        · exact Nat.le_refl _
        · exact List.length_filter_le _ _
      rw [removeLoop_succ hsite, ih (by omega) (by omega)]
      rfl

/-- Another site at the front, which exists. -/
theorem forall_dropLast_cons {site : QByteArray} (hfound : found site = true) :
    (∀ site' ∈ (site :: rest).dropLast, found site' = true) ↔
      ∀ site' ∈ rest.dropLast, found site' = true := by
  cases rest with
  | nil => exact Iff.rfl
  | cons next rest => rw [List.dropLast_cons_cons, List.forall_mem_cons, and_iff_right hfound]

/-- To remove the only site that has vanished is to keep those that exist. -/
theorem filter_ne_eq_filter {site : QByteArray} (hpassed : ∀ site ∈ passed, found site = true)
    (hfound : ¬found site = true) :
    (passed ++ [site]).filter (· ≠ site) = (passed ++ [site]).filter found := by
  refine List.filter_congr fun site' hsite' => ?_
  rcases List.mem_append.1 hsite' with hmem | hmem
  · rw [hpassed site' hmem]
    exact decide_eq_true fun heq => hfound (heq ▸ hpassed site' hmem)
  · rw [List.mem_singleton.1 hmem, Bool.eq_false_of_not_eq_true hfound]
    exact decide_eq_false fun hne => hne rfl

/-- The loop over the last places of a list, after places with sites that exist: it comes to its
    end exactly if none but the last one of the sites has vanished. -/
theorem removeLoop_append (hpassed : ∀ site ∈ passed, found site = true) :
    removeLoop found rest.length passed.length (passed ++ rest) =
      if ∀ site ∈ rest.dropLast, found site = true then some (rest, (passed ++ rest).filter found)
      else none := by
  induction rest generalizing passed with
  | nil =>
    rw [List.append_nil, List.filter_eq_self.2 hpassed, if_pos (by exact List.forall_mem_nil _)]
    rfl
  | cons site rest ih =>
    have hsite : (passed ++ site :: rest)[passed.length]? = some site := by
      rw [List.getElem?_append_right (Nat.le_refl _), Nat.sub_self]
      rfl
    rw [List.length_cons, removeLoop_succ hsite]
    by_cases hfound : found site = true
    · -- the next place has the next site
      have hnext : ∀ site' ∈ passed ++ [site], found site' = true := by
        intro site' hsite'
        rcases List.mem_append.1 hsite' with hmem | hmem
        · exact hpassed site' hmem
        · exact List.mem_singleton.1 hmem ▸ hfound
      have hloop := ih hnext
      rw [List.length_append, List.append_assoc] at hloop
      rw [if_pos hfound]
      simp only [forall_dropLast_cons hfound]
      refine (congrArg _ hloop).trans ?_
      split_ifs <;> rfl
    · rw [if_neg hfound]
      cases rest with
      | nil =>
        -- the end of the list has been reached
        rw [filter_ne_eq_filter hpassed hfound, if_pos (by exact List.forall_mem_nil _)]
        rfl
      | cons next rest =>
        have hshorter : ((passed ++ site :: next :: rest).filter (· ≠ site)).length <
            (passed ++ site :: next :: rest).length :=
          List.length_filter_lt_length_iff_exists.2
            ⟨site, List.mem_append_right _ List.mem_cons_self, by simp⟩
        rw [List.length_append, List.length_cons (a := site)] at hshorter
        have hnone : removeLoop found (next :: rest).length (passed.length + 1)
            ((passed ++ site :: next :: rest).filter (· ≠ site)) = none :=
          removeLoop_eq_none (Nat.succ_pos _) (by omega)
        rw [if_neg fun hall => hfound (hall site List.mem_cons_self), hnone]
        rfl

/-- The loop comes to its end exactly if none but the last one of the sites has vanished. Then it
    has examined them all, and those that exist are left. -/
theorem dropVanished_eq (found : QByteArray → Bool) (values : List QByteArray) :
    dropVanished found values =
      if ∀ site ∈ values.dropLast, found site = true then some (values, values.filter found)
      else none :=
  removeLoop_append (List.forall_mem_nil _)

end

/-! ## The link -/

section
variable {rt : Runtime} {searchObject : String → List String → AdObject} {siteLinkDn : String}

theorem apply_eq (hdn : siteLinkDn ≠ "")
    (hobject : (searchObject siteLinkDn ["siteList"]).isEmpty = false) (dn : String) :
    apply rt searchObject (some siteLinkDn) dn =
      (dropVanished (siteExists rt searchObject) (siteList searchObject siteLinkDn)).map
        fun (_, left) => .replaceValues siteLinkDn (left ++ [toUtf8 dn]) := by
  have hempty : siteLinkDn.isEmpty = false := by simpa using hdn
  simp only [apply, hempty, hobject, Bool.false_eq_true, if_false]
  rw [siteList]
  cases dropVanished (siteExists rt searchObject)
    ((searchObject siteLinkDn ["siteList"]).getValues "siteList") <;> rfl

/-- A site is added, and the other sites stay, exactly if none but the last one of the sites of
    the link has vanished, and the DN is not that of a site of the link that exists. -/
theorem addsSite_iff (hdn : siteLinkDn ≠ "")
    (hobject : (searchObject siteLinkDn ["siteList"]).isEmpty = false) (dn : String) :
    AddsSite rt searchObject siteLinkDn dn ↔
      (∀ site ∈ (siteList searchObject siteLinkDn).dropLast,
        siteExists rt searchObject site = true) ∧
      ¬(toUtf8 dn ∈ siteList searchObject siteLinkDn ∧
        siteExists rt searchObject (toUtf8 dn) = true) := by
  rw [AddsSite, apply_eq hdn hobject, dropVanished_eq]
  split_ifs with hvanished
  · have honce : ∀ sites : List QByteArray,
        (sites ++ [toUtf8 dn]).count (toUtf8 dn) = 1 ↔ toUtf8 dn ∉ sites := by
      intro sites
      rw [List.count_append, List.count_singleton_self, Nat.add_eq_right, List.count_eq_zero]
    simp only [Option.map_some, true_and, honce, List.mem_filter]
    exact (and_iff_right hvanished).symm
  · exact iff_of_false (fun h => nomatch h.1) fun h => hvanished h.1

end

/-- A directory with two links, one between CN=a, which has vanished, and CN=b, and one with these
    the other way round. -/
def sampleSearch (dn : String) (_ : List String) : AdObject :=
  if dn = "CN=l" then ⟨dn, [("siteList", [toUtf8 "CN=a", toUtf8 "CN=b"])]⟩
  else if dn = "CN=m" then ⟨dn, [("siteList", [toUtf8 "CN=b", toUtf8 "CN=a"])]⟩
  else if dn = "CN=b" then ⟨dn, [("distinguishedName", [toUtf8 dn])]⟩
  else .empty

theorem addsSite_iff_vanishedLast : AddsSite zeroRuntime sampleSearch "CN=m" "CN=c" :=
  (addsSite_iff (by decide) (by decide) "CN=c").2 (by decide +kernel)

/-- A link with a site that has vanished, before another one, cannot be given a site. -/
theorem not_addsSite : ¬∀ (rt : Runtime) (searchObject : String → List String → AdObject)
    (siteLinkDn dn : String), siteLinkDn ≠ "" →
      (searchObject siteLinkDn ["siteList"]).isEmpty = false →
        AddsSite rt searchObject siteLinkDn dn := by
  intro hall
  have hread : apply zeroRuntime sampleSearch (some "CN=l") "CN=c" = none := by decide +kernel
  have hadds := hall zeroRuntime sampleSearch "CN=l" "CN=c" (by decide) (by decide)
  exact nomatch hread.symm.trans hadds.2.1

end SiteLinksTableEdit

end Admc
