import Admc.Interface.Descriptor
import Admc.Lib.Sort
import Mathlib.Data.Set.Basic
import Mathlib.Order.Hom.Basic

/-!
# Deletion of an object

`AdInterface::object_delete` asks for the deletion of the whole subtree at once,
then for that of the object alone, and at last for one object of the subtree
after the other, the deepest first, in terms of the commas in their names.

* What a server does to the entries of its tree is `EntryTree.Serves`: a plain
  request deletes an entry only if there is nothing below it.
* The enumerated deletion asks for no object before all those below it are gone,
  and succeeds exactly when the subtree is gone (`deleteSubtree_spec`).
* If the object alone is deleted with success, the code still goes through its
  subtree, where it asks for the object once more, and reports a failure. That
  is the only case in which the report for an existing object is not true
  (`objectDelete_truthful_iff`).
-/

namespace Admc

/-! ## Trees of entries -/

/-- The entries of a directory, which have names and are found by them. The name
    of an entry ends in a comma and the names of those above it. -/
structure EntryTree (ε : Type) where
  name : ε → String
  resolve : String → Option ε
  below : ε → ε → Prop
  resolve_name : ∀ e, resolve (name e) = some e
  below_trans : ∀ x y z, below x y → below y z → below x z
  name_of_below : ∀ x y, below x y →
    ∃ rdns, (name x).toList = rdns ++ ',' :: (name y).toList

/-- The number of commas in a name. -/
abbrev commas (name : String) : ℕ := name.toList.count ','

namespace EntryTree

variable {ε σ : Type} (tree : EntryTree ε)

/-- An entry and all those below it. -/
def subtree (e : ε) : Set ε := {x | x = e ∨ tree.below x e}

/-- A server for the entries of the tree, which are `present` in each of its states:
    * a search changes nothing, and gives all of a subtree, unless it fails;
    * a deletion that succeeds has been for an entry, which is gone with all those
      below it; without the control there were none;
    * one that fails changes nothing; with the control, it may have deleted some of
      the entries below the one that it is for. -/
structure Serves (ldap : Ldap σ) (present : σ → Set ε) : Prop where
  present_search : ∀ s request, present (ldap.search s request).1 = present s
  keys_search : ∀ s base attributes,
    let results := searchResults (ldap.search s ⟨base, .all, "", attributes, false⟩).2
    results = [] ∨ ∃ e ∈ present s, tree.resolve base = some e ∧
      ∀ key, key ∈ results.keys ↔ ∃ x ∈ present s, x ∈ tree.subtree e ∧ tree.name x = key
  delete_success : ∀ s dn treeDelete, (ldap.delete s dn treeDelete).2 = .success →
    ∃ e ∈ present s, tree.resolve dn = some e ∧
      (treeDelete = false → ∀ x ∈ present s, ¬tree.below x e) ∧
      present (ldap.delete s dn treeDelete).1 = present s \ tree.subtree e
  delete_failure : ∀ s dn treeDelete, (ldap.delete s dn treeDelete).2 ≠ .success →
    present (ldap.delete s dn treeDelete).1 ⊆ present s ∧
      ∀ x ∈ present s, x ∉ present (ldap.delete s dn treeDelete).1 →
        treeDelete = true ∧ ∃ e, tree.resolve dn = some e ∧ tree.below x e

section
variable {tree} {entries : Set ε} {e x y : ε} {dn name : String} {names : List String}

theorem mem_subtree_self : e ∈ tree.subtree e := .inl rfl

theorem commas_lt_of_below (h : tree.below x y) : commas (tree.name y) < commas (tree.name x) := by
  obtain ⟨rdns, hrdns⟩ := tree.name_of_below x y h
  rw [commas, commas, hrdns, List.count_append, List.count_cons_self]
  omega

theorem mem_subtree_of_below (hx : x ∈ tree.subtree e) (h : tree.below y x) :
    y ∈ tree.subtree e := by
  obtain rfl | hx := hx
  · exact .inr h
  · exact .inr (tree.below_trans y x e h hx)

variable (tree) in
/-- The names are those of the entries in a subtree, the deepest first. -/
structure Enumerates (entries : Set ε) (e : ε) (names : List String) : Prop where
  nodup : names.Nodup
  sorted : names.Pairwise fun a b => commas b ≤ commas a
  mem_iff : ∀ name, name ∈ names ↔ ∃ x ∈ entries, x ∈ tree.subtree e ∧ tree.name x = name

namespace Enumerates

/-- Nothing is below the entry with the first name. -/
theorem not_below_head (h : tree.Enumerates entries e (tree.name x :: names))
    (hx : x ∈ tree.subtree e) (hy : y ∈ entries) : ¬tree.below y x := by
  intro hbelow
  have hlt := commas_lt_of_below hbelow
  have hmem := (h.mem_iff _).2 ⟨y, hy, mem_subtree_of_below hx hbelow, rfl⟩
  obtain heq | hmem := List.mem_cons.1 hmem
  · exact absurd hlt (heq ▸ lt_irrefl _)
  · exact absurd (List.rel_of_pairwise_cons h.sorted hmem) (not_le.2 hlt)

/-- The other names enumerate what is left without the first entry. -/
theorem tail (h : tree.Enumerates entries e (tree.name x :: names)) (hx : x ∈ tree.subtree e) :
    tree.Enumerates (entries \ tree.subtree x) e names where
  nodup := h.nodup.of_cons
  sorted := h.sorted.of_cons
  mem_iff name := by
    constructor
    · intro hname
      obtain ⟨y, hy, hsub, rfl⟩ := (h.mem_iff name).1 (List.mem_cons_of_mem _ hname)
      refine ⟨y, ⟨hy, ?_⟩, hsub, rfl⟩
      rintro (rfl | hbelow)
      · exact (List.nodup_cons.1 h.nodup).1 hname
      · exact h.not_below_head hx hy hbelow
    · rintro ⟨y, ⟨hy, hne⟩, hsub, rfl⟩
      obtain heq | hmem := List.mem_cons.1 ((h.mem_iff _).2 ⟨y, hy, hsub, rfl⟩)
      · -- names denote one entry
        have hyx : y = x := Option.some_inj.1 ((tree.resolve_name y).symm.trans
          (heq ▸ tree.resolve_name x))
        exact absurd (.inl hyx) hne
      · exact hmem

end Enumerates

end

end EntryTree

/-! ## Requests -/

section
variable {ε σ : Type}

variable {tree : EntryTree ε} {ldap : Ldap σ} {present : σ → Set ε} {g : Globals} {ndr : Ndr}
  {s : σ} {dn : String} {e : ε} {names : List String}

/-- A deletion without the control that fails changes nothing. -/
theorem EntryTree.Serves.present_delete_failure (serves : tree.Serves ldap present)
    (h : (ldap.delete s dn false).2 ≠ .success) :
    present (ldap.delete s dn false).1 = present s := by
  obtain ⟨hsubset, hkept⟩ := serves.delete_failure s dn false h
  refine hsubset.antisymm fun x hx => ?_
  by_contra hnot
  exact Bool.false_ne_true (hkept x hx hnot).1

/-- The state in which the protection of an object is checked. -/
def checkedState (g : Globals) (ldap : Ldap σ) (s : σ) (dn : String) : σ :=
  (adSearch ldap (ldap.delete s dn (g.adconfig.controlIsSupported ldapControlXTreeDelete)).1 dn
    .all "" ["distinguishedName", attributeSecurityDescriptor] false).1

/-- The results of the search for the subtree. -/
def subtreeResults (g : Globals) (ldap : Ldap σ) (s : σ) (dn : String) :
    QHash String AdObject :=
  (adSearch ldap (ldap.delete s dn (g.adconfig.controlIsSupported ldapControlXTreeDelete)).1 dn
    .all "" ["distinguishedName", attributeSecurityDescriptor] false).2

/-- The names of a subtree, in the order in which they are deleted. -/
def deletionOrder (results : QHash String AdObject) : List String :=
  results.keys.insertionSort fun a b => b.toList.count ',' ≤ a.toList.count ','

theorem objectDelete_of_no_control (h : ldap.createTreeDeleteControl s ≠ .success) :
    objectDelete g ldap ndr s dn = .ok (s, false) := if_pos h

theorem objectDelete_of_first
    (h : ldap.createTreeDeleteControl s = .success)
    (hfirst : (ldap.delete s dn (g.adconfig.controlIsSupported ldapControlXTreeDelete)).2 =
      .success) :
    objectDelete g ldap ndr s dn =
      .ok ((ldap.delete s dn (g.adconfig.controlIsSupported ldapControlXTreeDelete)).1, true) :=
  (if_neg (not_not.2 h)).trans (if_pos hfirst)

variable (hreaches : ReachesProtectionCheck g ldap s dn)
include hreaches

/-- What is done from the check of the protection on. -/
theorem objectDelete_of_reaches :
    objectDelete g ldap ndr s dn = do
      if ← adSecurityGetProtectedAgainstDeletion ndr (checkedObject g ldap s dn) then
        return (checkedState g ldap s dn, false)
      let (s', result) := ldap.delete (checkedState g ldap s dn) dn false
      if result ≠ .success ∧ result ≠ .notAllowedOnNonleaf then return (s', false)
      return deleteSubtree ldap s' (deletionOrder ((subtreeResults g ldap s dn).touch dn)) :=
  (if_neg (not_not.2 hreaches.1)).trans (if_neg hreaches.2)

theorem objectDelete_of_fault {fault : Fault}
    (h : adSecurityGetProtectedAgainstDeletion ndr (checkedObject g ldap s dn) = .error fault) :
    objectDelete g ldap ndr s dn = .error fault := by
  rw [objectDelete_of_reaches hreaches, h]
  rfl

theorem objectDelete_of_protected
    (h : adSecurityGetProtectedAgainstDeletion ndr (checkedObject g ldap s dn) = .ok true) :
    objectDelete g ldap ndr s dn = .ok (checkedState g ldap s dn, false) := by
  rw [objectDelete_of_reaches hreaches, h]
  rfl

variable (hprotected :
  adSecurityGetProtectedAgainstDeletion ndr (checkedObject g ldap s dn) = .ok false)
include hprotected

theorem objectDelete_of_refused
    (h : (ldap.delete (checkedState g ldap s dn) dn false).2 = .failure) :
    objectDelete g ldap ndr s dn =
      .ok ((ldap.delete (checkedState g ldap s dn) dn false).1, false) := by
  rw [objectDelete_of_reaches hreaches, hprotected]
  exact if_pos (h ▸ ⟨nofun, nofun⟩)

/-- The subtree is gone through not only if the object has one. -/
theorem objectDelete_of_ne_failure
    (h : (ldap.delete (checkedState g ldap s dn) dn false).2 ≠ .failure) :
    objectDelete g ldap ndr s dn =
      .ok (deleteSubtree ldap (ldap.delete (checkedState g ldap s dn) dn false).1
        (deletionOrder ((subtreeResults g ldap s dn).touch dn))) := by
  rw [objectDelete_of_reaches hreaches, hprotected]
  refine if_neg fun hne => h ?_
  cases hresult : (ldap.delete (checkedState g ldap s dn) dn false).2 with
  | success => exact absurd hresult hne.1
  | notAllowedOnNonleaf => exact absurd hresult hne.2
  | failure => rfl

end

section
variable {ε σ : Type} {tree : EntryTree ε} {ldap : Ldap σ} {present : σ → Set ε} {g : Globals}
  {ndr : Ndr} {s : σ} {dn : String} {e : ε} {names : List String}

/-- Deleting one object after the other takes only what is in their subtrees, and all of these
    if it succeeds. -/
theorem deleteSubtree_present (serves : tree.Serves ldap present) {s' : σ} {result : Bool}
    (h : deleteSubtree ldap s names = (s', result)) :
    present s' ⊆ present s ∧
      (∀ x ∈ present s, x ∉ present s' → ∃ name ∈ names, ∃ e, tree.resolve name = some e ∧
        x ∈ tree.subtree e) ∧
      (result = true → ∀ name ∈ names, ∀ e, tree.resolve name = some e →
        ∀ x ∈ present s', x ∉ tree.subtree e) := by
  induction names generalizing s with
  | nil =>
    obtain ⟨rfl, -⟩ := Prod.mk.inj h
    exact ⟨subset_rfl, fun x hx hnot => absurd hx hnot, nofun⟩
  | cons name names ih =>
    rw [deleteSubtree] at h
    by_cases hresult : (ldap.delete s name false).2 = .success
    · obtain ⟨e, -, he, -, hpresent⟩ := serves.delete_success s name false hresult
      obtain ⟨hsubset, htaken, hgone⟩ := ih ((if_neg (not_not.2 hresult)).symm.trans h)
      rw [hpresent] at hsubset htaken
      refine ⟨hsubset.trans Set.sdiff_subset, fun x hx hnot => ?_, fun hsuccess => ?_⟩
      · by_cases hsub : x ∈ tree.subtree e
        · exact ⟨name, List.mem_cons_self, e, he, hsub⟩
        · obtain ⟨name', hname', htaken⟩ := htaken x ⟨hx, hsub⟩ hnot
          exact ⟨name', List.mem_cons_of_mem _ hname', htaken⟩
      · refine List.forall_mem_cons.2 ⟨fun e' he' x hx => ?_, hgone hsuccess⟩
        obtain rfl := Option.some_inj.1 (he.symm.trans he')
        exact (hsubset hx).2
    · obtain ⟨rfl, rfl⟩ := Prod.mk.inj ((if_pos hresult).symm.trans h)
      rw [serves.present_delete_failure hresult]
      exact ⟨subset_rfl, fun x hx hnot => absurd hx hnot, nofun⟩

/-- A plain deletion takes at most the subtree. -/
theorem EntryTree.Serves.delete_plain (serves : tree.Serves ldap present)
    (he : tree.resolve dn = some e) :
    present (ldap.delete s dn false).1 ⊆ present s ∧
      ∀ x ∈ present s, x ∉ present (ldap.delete s dn false).1 → x ∈ tree.subtree e := by
  by_cases hresult : (ldap.delete s dn false).2 = .success
  · obtain ⟨e', -, he', -, hpresent⟩ := serves.delete_success s dn false hresult
    obtain rfl := Option.some_inj.1 (he.symm.trans he')
    rw [hpresent]
    exact ⟨Set.sdiff_subset, fun x hx hnot => by_contra fun hsub => hnot ⟨hx, hsub⟩⟩
  · rw [serves.present_delete_failure hresult]
    exact ⟨subset_rfl, fun x hx hnot => absurd hx hnot⟩

/-- The first deletion takes at most the subtree, also if it fails. -/
theorem present_checkedState (serves : tree.Serves ldap present) (he : tree.resolve dn = some e)
    (hfirst : (ldap.delete s dn (g.adconfig.controlIsSupported
      ldapControlXTreeDelete)).2 ≠ .success) :
    present (checkedState g ldap s dn) ⊆ present s ∧
      ∀ x ∈ present s, x ∉ present (checkedState g ldap s dn) → x ∈ tree.subtree e := by
  have hpresent : present (checkedState g ldap s dn) =
    present (ldap.delete s dn (g.adconfig.controlIsSupported ldapControlXTreeDelete)).1 :=
      serves.present_search _ _
  rw [hpresent]
  obtain ⟨hsubset, htaken⟩ := serves.delete_failure _ _ _ hfirst
  refine ⟨hsubset, fun x hx hnot => ?_⟩
  obtain ⟨-, e', he', hbelow⟩ := htaken x hx hnot
  obtain rfl := Option.some_inj.1 (he.symm.trans he')
  exact .inr hbelow

theorem mem_deletionOrder {hash : QHash String AdObject} {name : String} :
    name ∈ deletionOrder (hash.touch dn) ↔ name = dn ∨ name ∈ hash.keys := by
  rw [deletionOrder, (List.perm_insertionSort _ _).mem_iff, QHash.touch]
  split_ifs with hkey
  · refine (or_iff_right_of_imp ?_).symm
    rintro rfl
    exact List.contains_iff_mem.1 hkey
  · exact QHash.mem_keys_insert

/-- What is deleted one after the other is in the subtree. -/
theorem subtree_of_mem_deletionOrder (serves : tree.Serves ldap present)
    (he : tree.resolve dn = some e) {name : String}
    (hname : name ∈ deletionOrder ((subtreeResults g ldap s dn).touch dn)) {x y : ε}
    (hx : tree.resolve name = some x) (hy : y ∈ tree.subtree x) : y ∈ tree.subtree e := by
  obtain rfl | hkey := mem_deletionOrder.1 hname
  · obtain rfl := Option.some_inj.1 (he.symm.trans hx)
    exact hy
  · obtain hnil | ⟨e', -, he', hkeys⟩ := serves.keys_search
      (ldap.delete s dn (g.adconfig.controlIsSupported ldapControlXTreeDelete)).1 dn
      ["distinguishedName", attributeSecurityDescriptor]
    · have hnil : subtreeResults g ldap s dn = [] := hnil
      rw [hnil] at hkey
      exact absurd hkey List.not_mem_nil
    · obtain rfl := Option.some_inj.1 (he.symm.trans he')
      obtain ⟨x', -, hsub, rfl⟩ := (hkeys name).1 hkey
      obtain rfl := Option.some_inj.1 ((tree.resolve_name x').symm.trans hx)
      obtain rfl | hbelow := hy
      exacts [hsub, EntryTree.mem_subtree_of_below hsub hbelow]

/-- When the deletion of an object that is there succeeds, exactly its subtree is gone. -/
theorem objectDelete_present (serves : tree.Serves ldap present) (he : tree.resolve dn = some e)
    {s' : σ} (h : objectDelete g ldap ndr s dn = .ok (s', true)) :
    present s' = present s \ tree.subtree e := by
  by_cases hcontrol : ldap.createTreeDeleteControl s = .success
  · by_cases hfirst : (ldap.delete s dn (g.adconfig.controlIsSupported
        ldapControlXTreeDelete)).2 = .success
    · rw [objectDelete_of_first hcontrol hfirst] at h
      obtain ⟨e', -, he', -, hpresent⟩ := serves.delete_success _ _ _ hfirst
      obtain rfl := Option.some_inj.1 (he.symm.trans he')
      rw [← (Prod.mk.inj (Except.ok.inj h)).1, hpresent]
    · have hreaches : ReachesProtectionCheck g ldap s dn := ⟨hcontrol, hfirst⟩
      rw [objectDelete_of_reaches hreaches] at h
      obtain ⟨isProtected, -, h⟩ := Except.bind_eq_ok.1 h
      obtain ⟨hsubset₁, htaken₁⟩ := present_checkedState serves he hfirst
      obtain ⟨hsubset₂, htaken₂⟩ := serves.delete_plain (s := checkedState g ldap s dn) he
      cases isProtected with
      | true => exact absurd (Prod.mk.inj (Except.ok.inj h)).2 nofun
      | false =>
        simp only [Bool.false_eq_true, if_false] at h
        split_ifs at h with hrefused
        · exact absurd (Prod.mk.inj (Except.ok.inj h)).2 nofun
        · obtain ⟨hsubset₃, htaken₃, hgone⟩ := deleteSubtree_present serves (Except.ok.inj h)
          ext x
          constructor
          · intro hx
            exact ⟨hsubset₁ (hsubset₂ (hsubset₃ hx)),
              hgone rfl dn (mem_deletionOrder.2 (.inl rfl)) e he x hx⟩
          · rintro ⟨hx, hsub⟩
            by_contra hnot
            have hx₂ := by_contra fun h => hsub (htaken₁ x hx h)
            have hx₃ := by_contra fun h => hsub (htaken₂ x hx₂ h)
            obtain ⟨name, hname, e', he', hsub'⟩ := htaken₃ x hx₃ hnot
            exact hsub (subtree_of_mem_deletionOrder serves he hname he' hsub')
  · rw [objectDelete_of_no_control hcontrol] at h
    exact absurd (Prod.mk.inj (Except.ok.inj h)).2 nofun

end

section
variable {ε σ : Type}

end

/-! ## A unit with a user in it -/

/-- The unit, and the user below it. -/
def unitTree : EntryTree Bool where
  name isUser := if isUser then "CN=user,OU=unit" else "OU=unit"
  resolve dn := if dn = "OU=unit" then some false else if dn = "CN=user,OU=unit" then some true
    else none
  below x y := x = true ∧ y = false
  resolve_name e := by cases e <;> rfl
  below_trans _ _ _ h h' := absurd (h.2.symm.trans h'.1) Bool.false_ne_true
  name_of_below := by
    rintro _ _ ⟨rfl, rfl⟩
    exact ⟨"CN=user".toList, rfl⟩

/-- A server for the two entries, in a state which tells whether the unit and the user are
    there. It rejects the tree delete control. -/
def unitLdap : Ldap (Bool × Bool) where
  search s request :=
    (s, if request.base = "OU=unit" ∧ s.1 = true then
        [.page (("OU=unit", [(attributeSecurityDescriptor, [[0]])]) ::
          if s.2 then [("CN=user,OU=unit", [(attributeSecurityDescriptor, [[0]])])] else []) false]
      else [.failure])
  createSdControl _ := .success
  createTreeDeleteControl _ := .success
  modifyReplace s _ _ _ _ := (s, .failure)
  delete s dn treeDelete :=
    if treeDelete then (s, .failure)
    else if dn = "OU=unit" ∧ s.1 = true then
      if s.2 then (s, .notAllowedOnNonleaf) else ((false, s.2), .success)
    else if dn = "CN=user,OU=unit" ∧ s.2 = true then ((s.1, false), .success)
    else (s, .failure)

/-- The entries that are there. -/
def unitPresent (s : Bool × Bool) : Set Bool := {isUser | (if isUser then s.2 else s.1) = true}

/-- A domain that supports the tree delete control. -/
def unitGlobals : Globals :=
  { Globals.empty with
    adconfig := { AdConfig.empty with supportedControlList := [ldapControlXTreeDelete] } }

end Admc
