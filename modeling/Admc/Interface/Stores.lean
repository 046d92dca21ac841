import Admc.Interface.Deletion
import Admc.Interface.Gpo
import Admc.Interface.Naming

/-!
# A share and a directory

What a share and a directory store, with the requests that change it:

* `shareSmb`: the folders and files of a share. Deleting the folder of a policy, as
  `delete_gpt` does, leaves everything else and nothing of the folder, if there are
  only files and empty folders in it (`deleteGpt_shareSmb`).
* `entriesLdap`: the entries of a directory. When `object_delete` succeeds, exactly
  the subtree is gone (`objectDelete_entriesLdap`).
-/

namespace Admc

/-! ## The share -/

/-- What is at a path of a share. -/
inductive ShareEntry
  | folder
  | file (contents : QByteArray)
  deriving DecidableEq

/-- What a share stores, by path. -/
abbrev Share := List (String × ShareEntry)

/-- The name of a path in a folder, unless the path is not directly in it. -/
def childName (folder path : String) : Option String :=
  ((folder ++ "/").toList.isPrefixOf? path.toList).bind fun rest =>
    if '/' ∈ rest then none else some (String.ofList rest)

theorem childName_eq_some_iff {folder path name : String} :
    childName folder path = some name ↔ path = folder ++ "/" ++ name ∧ '/' ∉ name.toList := by
  rw [childName]
  simp only [Option.bind_eq_some_iff, List.isPrefixOf?_eq_some_iff_append_eq]
  constructor
  · rintro ⟨rest, hrest, h⟩
    split_ifs at h with hslash
    obtain rfl := Option.some.inj h
    refine ⟨String.toList_inj.1 ?_, by rwa [String.toList_ofList]⟩
    rw [← hrest]
    exact (String.toList_append.trans (by rw [String.toList_ofList])).symm
  · rintro ⟨rfl, hslash⟩
    exact ⟨name.toList, String.toList_append.symm, by rw [if_neg hslash, String.ofList_toList]⟩

/-- The names in a folder. -/
def Share.names (share : Share) (folder : String) : List String :=
  share.filterMap fun entry => childName folder entry.1

/-- The share without a path. -/
def Share.remove (share : Share) (path : String) : Share := share.filter (·.1 ≠ path)

/-- A server with a share: it deletes files, and folders that are empty. -/
def shareSmb : Smb Share where
  openDir share path :=
    (share, if share.lookup path = some .folder then some ("." :: ".." :: share.names path)
      else none)
  errnoIsSet _ := false
  stat share path := (share, (share.lookup path).map (· = .folder))
  rmdir share path :=
    if share.lookup path = some .folder ∧ share.names path = [] then (share.remove path, true)
    else (share, false)
  unlink share path :=
    match share.lookup path with
    | some (.file _) => (share.remove path, true)
    | _ => (share, false)
  openDir_names share path t' names h := by
    obtain ⟨-, h⟩ := Prod.mk.inj h
    split_ifs at h
    rw [← Option.some.inj h]
    intro name hname
    rw [List.mem_cons, List.mem_cons] at hname
    obtain rfl | rfl | hname := hname
    · decide
    · decide
    · obtain ⟨entry, -, hentry⟩ := List.mem_filterMap.1 hname
      exact (childName_eq_some_iff.1 hentry).2

/-- There is nothing at a path, and nothing below it. -/
def Share.Free (share : Share) (path : String) : Prop :=
  ∀ entry ∈ share, entry.1 ≠ path ∧ ¬(path ++ "/").toList <+: entry.1.toList

/-- A share with a folder of entries. -/
def Share.withFolder (share : Share) (path : String) (children : List (String × ShareEntry)) :
    Share :=
  children.map (fun child => (path ++ "/" ++ child.1, child.2)) ++ (path, .folder) :: share

/-- Different names that may stand in a folder. -/
structure ChildNames (children : List (String × ShareEntry)) : Prop where
  nodup : (children.map Prod.fst).Nodup
  no_slash : ∀ child ∈ children, '/' ∉ child.1.toList
  not_dots : ∀ child ∈ children, child.1 ≠ "." ∧ child.1 ≠ ".."

section
variable {share : Share} {path name : String} {children : List (String × ShareEntry)}
  {child : String × ShareEntry}

theorem childPath_ne : path ++ "/" ++ name ≠ path := by
  intro h
  have h := congrArg (fun s => s.toList.length) h
  simp at h

theorem childPath_inj {name' : String} (h : path ++ "/" ++ name = path ++ "/" ++ name') :
    name = name' := by
  have h := congrArg String.toList h
  simpa [String.toList_inj] using h

theorem Share.Free.ne_childPath (h : share.Free path) {entry : String × ShareEntry}
    (hentry : entry ∈ share) : entry.1 ≠ path ++ "/" ++ name := fun heq =>
  (h entry hentry).2 ⟨name.toList, heq ▸ String.toList_append.symm⟩

theorem lookup_withFolder_self : (share.withFolder path children).lookup path = some .folder := by
  rw [Share.withFolder]
  induction children with
  | nil => simp
  | cons child children ih =>
    rw [List.map_cons, List.cons_append, List.lookup_cons,
      beq_false_of_ne fun h => childPath_ne h.symm]
    exact ih

theorem lookup_withFolder_child (share : Share) (path : String)
    (hnodup : (children.map Prod.fst).Nodup) (h : child ∈ children) :
    (share.withFolder path children).lookup (path ++ "/" ++ child.1) = some child.2 := by
  rw [Share.withFolder]
  induction children with
  | nil => exact absurd h List.not_mem_nil
  | cons child' children ih =>
    rw [List.map_cons, List.nodup_cons] at hnodup
    rw [List.map_cons, List.cons_append, List.lookup_cons]
    obtain rfl | h := List.mem_cons.1 h
    · rw [beq_self_eq_true]
    · have hne : path ++ "/" ++ child.1 ≠ path ++ "/" ++ child'.1 := fun heq =>
        hnodup.1 (childPath_inj heq ▸ List.mem_map_of_mem h)
      rw [beq_false_of_ne hne]
      exact ih hnodup.2 h

/-- The names in the folder are those of its entries. -/
theorem names_withFolder_self (hfree : share.Free path)
    (hslash : ∀ child ∈ children, '/' ∉ child.1.toList) :
    (share.withFolder path children).names path = children.map Prod.fst := by
  have hself : childName path path = none := by
    refine Option.eq_none_iff_forall_ne_some.2 fun name h => ?_
    exact childPath_ne (childName_eq_some_iff.1 h).1.symm
  have hrest : share.filterMap (fun entry => childName path entry.1) = [] := by
    refine List.filterMap_eq_nil_iff.2 fun entry hentry => ?_
    refine Option.eq_none_iff_forall_ne_some.2 fun name h => ?_
    exact hfree.ne_childPath hentry (childName_eq_some_iff.1 h).1
  rw [Share.names, Share.withFolder]
  have hfolder : ((path, .folder) :: share).filterMap
      (fun entry => childName path entry.1) = [] := by
    simp only [List.filterMap_cons, hself, hrest]
  rw [List.filterMap_append, hfolder, List.append_nil, List.filterMap_map]
  rw [← List.filterMap_eq_map']
  refine List.filterMap_congr fun child hchild => ?_
  exact childName_eq_some_iff.2 ⟨rfl, hslash child hchild⟩

/-- There is nothing in the entries of the folder. -/
theorem names_withFolder_child (name : String) (hfree : share.Free path)
    (hslash : ∀ child ∈ children, '/' ∉ child.1.toList) :
    (share.withFolder path children).names (path ++ "/" ++ name) = [] := by
  refine List.filterMap_eq_nil_iff.2 fun entry hentry => ?_
  refine Option.eq_none_iff_forall_ne_some.2 fun name' h => ?_
  obtain ⟨h, -⟩ := childName_eq_some_iff.1 h
  obtain hentry | hentry := List.mem_append.1 hentry
  · obtain ⟨child, hchild, rfl⟩ := List.mem_map.1 hentry
    have h : path ++ "/" ++ child.1 = path ++ "/" ++ (name ++ "/" ++ name') := by
      simpa only [String.append_assoc] using h
    apply hslash child hchild
    rw [childPath_inj h]
    simp
  · obtain rfl | hentry := List.mem_cons.1 hentry
    · have h := congrArg (fun s => s.toList.length) h
      simp at h
    · have hne : entry.1 ≠ path ++ "/" ++ (name ++ "/" ++ name') := hfree.ne_childPath hentry
      exact hne (by simpa only [String.append_assoc] using h)

/-! ### Deleting a folder -/

/-- The paths of the entries of a folder. -/
def childPaths (path : String) (children : List (String × ShareEntry)) : List String :=
  children.map fun child => path ++ "/" ++ child.1

/-- The entries of a folder are all seen. -/
theorem exploreNames_withFolder (hchildren : ChildNames children)
    {explored : List (String × ShareEntry)} (hsub : explored ⊆ children)
    {exploreStack seenStack : List String} :
    exploreNames shareSmb path (share.withFolder path children) (explored.map Prod.fst)
        exploreStack seenStack =
      (share.withFolder path children,
        some ((childPaths path (explored.filter (·.2 = .folder))).reverse ++ exploreStack,
          seenStack ++ childPaths path explored)) := by
  induction explored generalizing exploreStack seenStack with
  | nil => simp [exploreNames, childPaths]
  | cons child explored ih =>
    rw [List.cons_subset] at hsub
    have hstat : shareSmb.stat (share.withFolder path children) (path ++ "/" ++ child.1) =
        (share.withFolder path children, some (decide (child.2 = .folder))) := by
      simp only [shareSmb, lookup_withFolder_child _ _ hchildren.nodup hsub.1, Option.map_some]
    have hdots := hchildren.not_dots child hsub.1
    simp only [List.map_cons, exploreNames, hdots, or_self, if_false, hstat, ih hsub.2]
    by_cases hfolder : child.2 = .folder <;> simp [hfolder, childPaths]

/-- In folders that are empty, nothing more is seen. -/
theorem exploreFrom_empty {exploreStack seenStack : List String} {fuel : ℕ}
    (hempty : ∀ path ∈ exploreStack, shareSmb.openDir share path = (share, some [".", ".."]))
    (hfuel : exploreStack.length ≤ fuel) :
    exploreFrom shareSmb fuel share exploreStack seenStack = some (share, some seenStack) := by
  induction exploreStack generalizing fuel with
  | nil => cases fuel <;> rfl
  | cons path exploreStack ih =>
    obtain ⟨hpath, hempty⟩ := List.forall_mem_cons.1 hempty
    cases fuel with
    | zero => simp at hfuel
    | succ fuel =>
      simp only [exploreFrom, hpath, exploreNames, true_or, or_true, if_true]
      exact ih hempty (Nat.le_of_succ_le_succ hfuel)

/-- The walk of a folder sees it and its entries. -/
theorem gpoGetGptContents_withFolder (hfree : share.Free path) (hchildren : ChildNames children)
    {fuel : ℕ} (hfuel : children.length ≤ fuel) :
    gpoGetGptContents shareSmb (fuel + 1) (share.withFolder path children) path =
      some (share.withFolder path children, some (path :: childPaths path children)) := by
  have hopen : shareSmb.openDir (share.withFolder path children) path =
      (share.withFolder path children, some ("." :: ".." :: children.map Prod.fst)) := by
    simp only [shareSmb, lookup_withFolder_self, if_true,
      names_withFolder_self hfree hchildren.no_slash]
  simp only [gpoGetGptContents, exploreFrom, hopen, exploreNames, true_or, or_true, if_true,
    exploreNames_withFolder hchildren (List.Subset.refl _), List.append_nil]
  refine exploreFrom_empty (fun path' hpath' => ?_) ?_
  · rw [List.mem_reverse] at hpath'
    obtain ⟨child, hchild, rfl⟩ := List.mem_map.1 hpath'
    obtain ⟨hchild, hfolder⟩ := List.mem_filter.1 hchild
    have hlookup := lookup_withFolder_child share path hchildren.nodup hchild
    simp only [shareSmb, hlookup, of_decide_eq_true hfolder, if_true,
      names_withFolder_child child.1 hfree hchildren.no_slash]
  · rw [List.length_reverse, childPaths, List.length_map]
    exact (List.length_filter_le _ _).trans hfuel

theorem ChildNames.of_sublist {children' : List (String × ShareEntry)} (h : ChildNames children)
    (hsub : children'.Sublist children) : ChildNames children' where
  nodup := h.nodup.sublist (hsub.map Prod.fst)
  no_slash child hchild := h.no_slash child (hsub.subset hchild)
  not_dots child hchild := h.not_dots child (hsub.subset hchild)

theorem remove_withFolder_self (hfree : share.Free path) :
    (share.withFolder path []).remove path = share := by
  refine List.filter_cons_of_neg (by simp) |>.trans (List.filter_eq_self.2 fun entry hentry => ?_)
  exact decide_eq_true (hfree entry hentry).1

theorem remove_withFolder_child (hfree : share.Free path)
    (hnodup : ((children ++ [child]).map Prod.fst).Nodup) :
    (share.withFolder path (children ++ [child])).remove (path ++ "/" ++ child.1) =
      share.withFolder path children := by
  have hrest : Share.remove ((path, .folder) :: share) (path ++ "/" ++ child.1) =
      (path, .folder) :: share := by
    refine List.filter_eq_self.2 fun entry hentry => decide_eq_true ?_
    obtain rfl | hentry := List.mem_cons.1 hentry
    exacts [childPath_ne.symm, hfree.ne_childPath hentry]
  rw [List.map_append, List.nodup_append] at hnodup
  have hchildren : Share.remove (children.map fun child => (path ++ "/" ++ child.1, child.2))
      (path ++ "/" ++ child.1) = children.map fun child => (path ++ "/" ++ child.1, child.2) := by
    refine List.filter_eq_self.2 fun entry hentry => decide_eq_true ?_
    obtain ⟨child', hchild', rfl⟩ := List.mem_map.1 hentry
    intro heq
    exact hnodup.2.2 _ (List.mem_map_of_mem hchild') _ (List.mem_singleton_self _)
      (childPath_inj heq)
  rw [Share.withFolder]
  rw [List.map_append, Share.remove, List.filter_append, List.filter_append]
  exact congrArg₂ _ ((congrArg₂ _ hchildren (by simp)).trans (List.append_nil _)) hrest

/-- The entries of a folder are deleted from the last to the first, and then the folder. -/
theorem deletePaths_withFolder (hfree : share.Free path) (hchildren : ChildNames children) :
    ∃ passed, deletePaths shareSmb (share.withFolder path children)
      (path :: childPaths path children).reverse = ⟨share, true, passed⟩ := by
  induction children using List.reverseRecOn with
  | nil =>
    have hnames : (share.withFolder path []).names path = [] :=
      names_withFolder_self hfree hchildren.no_slash
    refine ⟨[path], ?_⟩
    simp only [childPaths, List.map_nil, List.reverse_singleton, deletePaths, shareSmb,
      lookup_withFolder_self, Option.map_some, decide_true, if_true, hnames, and_self,
      remove_withFolder_self hfree]
  | append_singleton children child ih =>
    obtain ⟨passed, ih⟩ := ih (hchildren.of_sublist (List.sublist_append_left _ _))
    refine ⟨(path ++ "/" ++ child.1) :: passed, ?_⟩
    have hlookup := lookup_withFolder_child share path hchildren.nodup
      (List.mem_append_right children (List.mem_singleton_self child))
    have hnames := names_withFolder_child child.1 hfree hchildren.no_slash
    have hremove := remove_withFolder_child hfree hchildren.nodup
    have hpaths : (path :: childPaths path (children ++ [child])).reverse =
        (path ++ "/" ++ child.1) :: (path :: childPaths path children).reverse := by
      simp [childPaths]
    rw [hpaths, deletePaths]
    cases hentry : child.2 <;>
      simp only [shareSmb, hlookup, hentry, Option.map_some, decide_true, decide_false,
        reduceCtorEq, Bool.false_eq_true, if_true, if_false, hnames, and_self, hremove] <;>
      simp only [shareSmb] at ih <;> rw [ih]

/-- Deleting a folder of files and empty folders leaves nothing of it and all the rest. -/
theorem deleteGpt_shareSmb (hfree : share.Free path) (hchildren : ChildNames children) {fuel : ℕ}
    (hfuel : children.length ≤ fuel) :
    ∃ passed, deleteGpt shareSmb (fuel + 1) (share.withFolder path children) path =
      some ⟨share, true, passed⟩ := by
  obtain ⟨passed, h⟩ := deletePaths_withFolder hfree hchildren
  refine ⟨passed, ?_⟩
  simp only [deleteGpt, gpoGetGptContents_withFolder hfree hchildren hfuel, h]

end

/-! ## The directory -/

/-- What a directory stores, by DN. -/
abbrev Entries := List (String × QHash String (List QByteArray))

/-- A DN is that of an object below another. -/
def isBelow (dn parent : String) : Bool := (',' :: parent.toList).isSuffixOf dn.toList

theorem ne_of_isBelow {dn parent : String} (h : isBelow dn parent = true) : dn ≠ parent := by
  rintro rfl
  have h := (List.isSuffixOf_iff_suffix.1 h).length_le
  rw [List.length_cons] at h
  exact absurd h (Nat.not_succ_le_self _)

/-- The objects that a search goes over. -/
def SearchScope.includes : SearchScope → (base dn : String) → Bool
  | .object, base, dn => dn = base
  | .children, base, dn => dnGetParent dn.toList = base.toList
  | .descendants, base, dn => isBelow dn base
  | .all, base, dn => dn = base || isBelow dn base

namespace Entries

/-- The entries with the values of an attribute replaced. -/
def replace (entries : Entries) (dn attr : String) (values : List QByteArray) : Entries :=
  entries.map fun entry =>
    if entry.1 = dn then
      (entry.1, if values.isEmpty then entry.2.remove attr else entry.2.insert attr values)
    else entry

/-- There is no entry with a DN, or below it. -/
def Free (entries : Entries) (dn : String) : Prop :=
  ∀ entry ∈ entries, entry.1 ≠ dn ∧ isBelow entry.1 dn = false

end Entries

/-- A server with a directory, for requests without a filter. It may refuse to change an
    entry, and deletes entries with what is below them only if it is asked for that. -/
def entriesLdap (refuses : Bool) : Ldap Entries where
  search entries request :=
    (entries, [.page ((entries.filter fun entry => request.scope.includes request.base entry.1).map
      fun entry => (entry.1, entry.2.filter fun value =>
        request.attributes.isEmpty || value.1 ∈ request.attributes)) false])
  createSdControl _ := .success
  createTreeDeleteControl _ := .success
  modifyReplace entries dn attr values _ :=
    if refuses || !entries.any (·.1 = dn) then (entries, .failure)
    else (entries.replace dn attr values, .success)
  delete entries dn treeDelete :=
    if !entries.any (·.1 = dn) then (entries, .failure)
    else if treeDelete then
      (entries.filter fun entry => !(SearchScope.all.includes dn entry.1), .success)
    else if entries.any (isBelow ·.1 dn) then (entries, .notAllowedOnNonleaf)
    else (entries.filter (·.1 ≠ dn), .success)

section
variable {entries before created : Entries} {dn name : String} {names : List String}

/-- A deletion without the control that succeeds deletes an entry with nothing below it. -/
theorem delete_entriesLdap_eq_success
    (h : ((entriesLdap false).delete entries dn false).2 = .success) :
    ((entriesLdap false).delete entries dn false).1 = entries.filter (·.1 ≠ dn) ∧
      ∀ entry ∈ entries, isBelow entry.1 dn = false := by
  simp only [entriesLdap, Bool.false_eq_true, if_false] at h ⊢
  split_ifs at h ⊢ with hany hbelow
  refine ⟨rfl, fun entry hentry => ?_⟩
  by_contra hne
  exact hbelow (List.any_eq_true.2 ⟨entry, hentry, by simpa using hne⟩)

/-- A deletion of one object after the other that succeeds has deleted these objects, and
    there was nothing else below them. -/
theorem deleteSubtree_entriesLdap {entries' : Entries}
    (h : deleteSubtree (entriesLdap false) entries names = (entries', true)) :
    entries' = entries.filter (·.1 ∉ names) ∧
      ∀ dn ∈ names, ∀ entry ∈ entries', isBelow entry.1 dn = false := by
  induction names generalizing entries with
  | nil =>
    obtain rfl := (Prod.mk.inj h).1
    exact ⟨(List.filter_eq_self.2 (by simp)).symm, nofun⟩
  | cons name names ih =>
    rw [deleteSubtree] at h
    by_cases hdelete : ((entriesLdap false).delete entries name false).2 = .success
    · obtain ⟨hentries, hbelow⟩ := delete_entriesLdap_eq_success hdelete
      rw [← Prod.eta ((entriesLdap false).delete entries name false), hentries] at h
      simp only [hdelete, ne_eq, not_true_eq_false, if_false] at h
      obtain ⟨rfl, hnames⟩ := ih h
      refine ⟨?_, List.forall_mem_cons.2 ⟨fun entry hentry => ?_, hnames⟩⟩
      · rw [List.filter_filter]
        refine List.filter_congr fun entry _ => ?_
        rw [Bool.eq_iff_iff]
        simp [and_comm]
      · exact hbelow entry (List.mem_of_mem_filter (List.mem_of_mem_filter hentry))
    · simp [hdelete] at h

/-- Deleting a subtree leaves the rest. -/
def Entries.removeSubtree (entries : Entries) (dn : String) : Entries :=
  entries.filter fun entry => !(SearchScope.all.includes dn entry.1)

theorem removeSubtree_eq_of_leaf (h : ∀ entry ∈ entries, isBelow entry.1 dn = false) :
    entries.filter (·.1 ≠ dn) = entries.removeSubtree dn := by
  refine List.filter_congr fun entry hentry => ?_
  simp [SearchScope.includes, h entry hentry]

/-- What the search of a subtree finds is in it. -/
theorem mem_subtree_of_mem_keys {attributes : List String} {key : String}
    (h : key ∈ (adSearch (entriesLdap false) entries dn .all "" attributes false).2.keys) :
    SearchScope.all.includes dn key = true := by
  refine mem_keys_searchResults (P := fun key => SearchScope.all.includes dn key = true)
    (fun found morePages hpage entry hentry => ?_) key h
  obtain ⟨rfl, -⟩ := PageAnswer.page.inj (List.mem_singleton.1 hpage)
  obtain ⟨entry', hentry', rfl⟩ := List.mem_map.1 hentry
  exact (List.mem_filter.1 hentry').2

/-- A deletion that fails changes nothing. -/
theorem delete_entriesLdap_of_ne_success {treeDelete : Bool}
    (h : ((entriesLdap false).delete entries dn treeDelete).2 ≠ .success) :
    ((entriesLdap false).delete entries dn treeDelete).1 = entries := by
  simp only [entriesLdap] at h ⊢
  split_ifs at h ⊢ <;> first | rfl | exact absurd rfl h

theorem delete_entriesLdap_cases : ((entriesLdap false).delete entries dn false).1 = entries ∨
    ((entriesLdap false).delete entries dn false).1 = entries.filter (·.1 ≠ dn) := by
  by_cases h : ((entriesLdap false).delete entries dn false).2 = .success
  exacts [.inr (delete_entriesLdap_eq_success h).1, .inl (delete_entriesLdap_of_ne_success h)]

theorem includes_self : SearchScope.all.includes dn dn = true := by
  simp [SearchScope.includes]

/-- If the object is among those of its subtree that are deleted one after the other, there
    is nothing left of the subtree. -/
theorem deleteSubtree_eq_removeSubtree {entries₁ entries' : Entries}
    (hentries : entries₁ = entries ∨ entries₁ = entries.filter (·.1 ≠ dn)) (hdn : dn ∈ names)
    (hnames : ∀ name ∈ names, SearchScope.all.includes dn name = true)
    (h : deleteSubtree (entriesLdap false) entries₁ names = (entries', true)) :
    entries' = entries.removeSubtree dn := by
  obtain ⟨rfl, hbelow⟩ := deleteSubtree_entriesLdap h
  have hbelow := hbelow dn hdn
  have hrest : entries₁.filter (·.1 ∉ names) = entries.filter (·.1 ∉ names) := by
    obtain rfl | rfl := hentries
    · rfl
    · rw [List.filter_filter]
      refine List.filter_congr fun entry _ => ?_
      by_cases heq : entry.1 = dn <;> simp [heq, hdn]
  rw [hrest] at hbelow ⊢
  refine List.filter_congr fun entry hentry => ?_
  by_cases hname : entry.1 ∈ names
  · simp [hname, hnames]
  · have hbelow := hbelow entry (List.mem_filter.2 ⟨hentry, by simpa using hname⟩)
    have hne : entry.1 ≠ dn := fun heq => hname (heq ▸ hdn)
    simp [hname, SearchScope.includes, hbelow, hne]

/-- When the deletion of an object succeeds, exactly its subtree is gone. -/
theorem objectDelete_entriesLdap {g : Globals} {ndr : Ndr} {entries' : Entries}
    (h : objectDelete g (entriesLdap false) ndr entries dn = .ok (entries', true)) :
    entries' = entries.removeSubtree dn := by
  have hcontrol : (entriesLdap false).createTreeDeleteControl entries = .success := rfl
  by_cases hfirst : ((entriesLdap false).delete entries dn
      (g.adconfig.controlIsSupported ldapControlXTreeDelete)).2 = .success
  · rw [objectDelete_of_first hcontrol hfirst] at h
    obtain rfl := (Prod.mk.inj (Except.ok.inj h)).1
    cases htree : g.adconfig.controlIsSupported ldapControlXTreeDelete with
    | true =>
      rw [htree] at hfirst
      simp only [entriesLdap, if_true] at hfirst ⊢
      split_ifs at hfirst ⊢
      rfl
    | false =>
      rw [htree] at hfirst
      obtain ⟨hentries, hbelow⟩ := delete_entriesLdap_eq_success hfirst
      rw [hentries, removeSubtree_eq_of_leaf hbelow]
  · rw [objectDelete_of_reaches ⟨hcontrol, hfirst⟩] at h
    obtain ⟨isProtected, -, h⟩ := Except.bind_eq_ok.1 h
    have hstate : checkedState g (entriesLdap false) entries dn = entries :=
      delete_entriesLdap_of_ne_success hfirst
    rw [hstate] at h
    cases isProtected with
    | true => exact absurd (Prod.mk.inj (Except.ok.inj h)).2 nofun
    | false =>
      simp only [Bool.false_eq_true, if_false] at h
      split_ifs at h with hrefused
      · exact absurd (Prod.mk.inj (Except.ok.inj h)).2 nofun
      · refine deleteSubtree_eq_removeSubtree delete_entriesLdap_cases
          (mem_deletionOrder.2 (.inl rfl)) (fun name hname => ?_) (Except.ok.inj h)
        obtain rfl | hname := mem_deletionOrder.1 hname
        exacts [includes_self, mem_subtree_of_mem_keys hname]

/-- What has been added at a DN and below it is gone. -/
theorem removeSubtree_append (hfree : before.Free dn)
    (hcreated : ∀ entry ∈ created, SearchScope.all.includes dn entry.1 = true) :
    (created ++ before).removeSubtree dn = before := by
  have hnil : created.removeSubtree dn = [] := by
    refine List.filter_eq_nil_iff.2 fun entry hentry => ?_
    simp [hcreated entry hentry]
  have hbefore : before.removeSubtree dn = before := by
    refine List.filter_eq_self.2 fun entry hentry => ?_
    simp [SearchScope.includes, hfree entry hentry]
  exact (List.filter_append _ _).trans (congrArg₂ _ hnil hbefore)

/-- The other entries are left alone. -/
theorem replace_of_ne {attr : String} {values : List QByteArray}
    (h : ∀ entry ∈ entries, entry.1 ≠ dn) : entries.replace dn attr values = entries := by
  refine (List.map_congr_left fun entry hentry => ?_).trans (List.map_id entries)
  exact if_neg (h entry hentry)

/-- An object that is not there is not found. -/
theorem adSearchObject_free (hfree : entries.Free dn) (refuses : Bool) (attributes : List String) :
    adSearchObject (entriesLdap refuses) entries dn attributes false = (entries, .empty) := by
  have hnone : entries.filter (fun entry => SearchScope.object.includes dn entry.1) = [] := by
    refine List.filter_eq_nil_iff.2 fun entry hentry => ?_
    exact fun h => (hfree entry hentry).1 (of_decide_eq_true h)
  simp only [adSearchObject, adSearch, entriesLdap, hnone]
  rfl

end

end Admc
