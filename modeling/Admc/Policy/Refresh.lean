import Admc.Policy.FailedReads

/-!
# The refresh of the links that are kept

`GPLinkManager::update` searches for the units and the domain in a thread of its own, and
stores the links of each page of results as it comes.

`refreshed_iff`: afterwards the units are found under the policies that they have links to
exactly when this is so beforehand, for all objects but those that come with links on the
pages up to the limit of objects.
-/

namespace Admc

/-- `class GPLinkManager`. -/
structure GPLinkManager where
  ouLinks : QHash String QString
  isUpdated : Bool
  failedToUpdate : Bool

/-- The loop of `SearchThread::run`, from the number of results so far: the results that are
    emitted. -/
def searchThreadRun (objectDisplayLimit : ℤ) :
    (totalResultsCount : ℤ) → List PageAnswer → List (QHash String AdObject)
  | _, [] => []
  | totalResultsCount, .failure :: _ =>
    -- the results have been cleared
    if totalResultsCount > objectDisplayLimit then [] else [[]]
  | totalResultsCount, .page entries morePages :: answers =>
    let results := entries.foldl (fun (results : QHash String AdObject) entry =>
      results.insert entry.1 ⟨entry.1, entry.2⟩) []
    let totalResultsCount := totalResultsCount + results.length
    if totalResultsCount > objectDisplayLimit then []
    else
      results ::
        if morePages then searchThreadRun objectDisplayLimit totalResultsCount answers else []

namespace GPLinkManager

variable (rt : Runtime) (manager : GPLinkManager)

/-- `GPLinkManager::set_gplink`. -/
def setGplink (ouDn : String) (gplinkStr : QString) : GPLinkManager :=
  { manager with ouLinks := manager.ouLinks.insert ouDn gplinkStr }

/-- The handler of `results_ready`. -/
def onResultsReady (results : QHash String AdObject) : GPLinkManager :=
  results.keys.foldl (fun manager dn =>
    let gplinkStr := trimmed ((results.value dn .empty).gplinkString rt)
    if gplinkStr ≠ [] then
      manager.setGplink dn ((results.value dn .empty).gplinkString rt)
    else manager) manager

/-- The handler of `finished`. -/
def onFinished (failedToConnect : Bool) : GPLinkManager :=
  { manager with failedToUpdate := failedToConnect, isUpdated := true }

/-- `GPLinkManager::update`, with all that follows up to the end of the search, given the
    answers to it. -/
def update (isConnected : Bool) (objectDisplayLimit : ℤ) (answers : List PageAnswer) :
    GPLinkManager :=
  if ¬manager.isUpdated then manager
  else
    let emitted := if isConnected then searchThreadRun objectDisplayLimit 0 answers else []
    (emitted.foldl (onResultsReady rt) { manager with isUpdated := false }).onFinished
      (!isConnected)

/-- `GPLinkManager::linked_ou_list`. -/
def linkedOuList (tables : CaseTables) (policyDn : QString) : List String :=
  manager.ouLinks.keys.filter fun ouDn =>
    (Gplink.ofString tables (manager.ouLinks.value ouDn [])).contains tables policyDn

end GPLinkManager

/-! ## The directory -/

/-- A unit, or the domain, with the values of its links. -/
structure LinkedUnit where
  dn : String
  values : List QByteArray

/-- The units of a directory and the domain, on the pages on which a search finds them. -/
structure UnitPages where
  pages : List (List LinkedUnit)
  nodup : (pages.flatten.map LinkedUnit.dn).Nodup

/-- The text of the links of a unit. -/
def LinkedUnit.gplinkString (rt : Runtime) (linked : LinkedUnit) : QString :=
  ((linked.values.map rt.fromUtf8).headD "").toList

/-- The object that is found for a unit: it has no attribute without values. -/
def LinkedUnit.object (linked : LinkedUnit) : AdObject :=
  ⟨linked.dn, if linked.values = [] then [] else [("gPLink", linked.values)]⟩

/-- The answers to a search that finds these units. -/
def pageAnswers : List (List LinkedUnit) → List PageAnswer
  | [] => []
  | page :: pages =>
    .page (page.map fun linked => (linked.dn, linked.object.attributesData)) (pages ≠ []) ::
      pageAnswers pages

/-- The units on the pages with which the limit is not exceeded, from the number of results so
    far. -/
def unitsWithin (objectDisplayLimit : ℤ) :
    (totalResultsCount : ℤ) → List (List LinkedUnit) → List LinkedUnit
  | _, [] => []
  | totalResultsCount, page :: pages =>
    if totalResultsCount + page.length > objectDisplayLimit then []
    else page ++ unitsWithin objectDisplayLimit (totalResultsCount + page.length) pages

/-- A unit has a link to a policy. -/
def UnitPages.HasLink (tables : CaseTables) (rt : Runtime) (directory : UnitPages) (dn : String)
    (policyDn : QString) : Prop :=
  ∃ linked ∈ directory.pages.flatten, linked.dn = dn ∧
    (Gplink.ofString tables (linked.gplinkString rt)).contains tables policyDn = true

/-- The objects that come with links, on the pages up to the limit. -/
def UnitPages.refreshed (rt : Runtime) (directory : UnitPages) (objectDisplayLimit : ℤ) :
    List String :=
  ((unitsWithin objectDisplayLimit 0 directory.pages).filter fun linked =>
    trimmed (linked.gplinkString rt) ≠ []).map LinkedUnit.dn

/-! ## The results of a page -/

section
variable {tables : CaseTables} {rt : Runtime} {limit : ℤ} {linked : LinkedUnit}
  {page units : List LinkedUnit} {pages : List (List LinkedUnit)} {links : QHash String QString}
  {manager : GPLinkManager} {dn : String}

theorem gplinkString_object : linked.object.gplinkString rt = linked.gplinkString rt := by
  rw [AdObject.gplinkString, AdObject.getString, if_neg (by decide), AdObject.getStrings,
    AdObject.getValues, LinkedUnit.object, LinkedUnit.gplinkString]
  split_ifs with hvalues
  · rw [hvalues]
    rfl
  · rfl

/-- The results of a page. -/
def pageResults (page : List LinkedUnit) : QHash String AdObject :=
  page.map fun linked => (linked.dn, linked.object)

theorem keys_pageResults : (pageResults page).keys = page.map LinkedUnit.dn := by
  rw [QHash.keys, pageResults, List.map_map]
  rfl

/-- Entries with other keys are appended. -/
theorem foldl_insert_eq {results : QHash String AdObject}
    (h : (results.keys ++ page.map LinkedUnit.dn).Nodup) :
    (page.map fun linked => (linked.dn, linked.object.attributesData)).foldl
      (fun (results : QHash String AdObject) entry => results.insert entry.1 ⟨entry.1, entry.2⟩)
      results = results ++ pageResults page := by
  induction page generalizing results with
  | nil => exact (List.append_nil results).symm
  | cons linked page ih =>
    have hnew : linked.dn ∉ results.keys := fun hmem =>
      (List.nodup_append.1 h).2.2 _ hmem _ List.mem_cons_self rfl
    have hinsert : results.insert linked.dn ⟨linked.dn, linked.object.attributesData⟩ =
        results ++ [(linked.dn, linked.object)] := by
      rw [QHash.insert, if_neg]
      · rfl
      · intro hany
        obtain ⟨entry, hentry, hkey⟩ := List.any_eq_true.1 hany
        exact hnew (of_decide_eq_true hkey ▸ List.mem_map_of_mem hentry)
    rw [List.map_cons, List.foldl_cons, hinsert, ih, List.append_assoc]
    · rfl
    · rw [QHash.keys, List.map_append, List.append_assoc]
      exact h

theorem value_pageResults (hnodup : (page.map LinkedUnit.dn).Nodup) (h : linked ∈ page) :
    (pageResults page).value linked.dn .empty = linked.object := by
  rw [← keys_pageResults] at hnodup
  exact QHash.value_of_mem hnodup (List.mem_map_of_mem h)

/-- The pages are emitted up to the limit. -/
theorem searchThreadRun_pageAnswers {total : ℤ} (hnodup : (pages.flatten.map LinkedUnit.dn).Nodup) :
    ∃ emitted : List (List LinkedUnit), emitted.flatten = unitsWithin limit total pages ∧
      (∀ page ∈ emitted, (page.map LinkedUnit.dn).Nodup) ∧
      searchThreadRun limit total (pageAnswers pages) = emitted.map pageResults := by
  induction pages generalizing total with
  | nil => exact ⟨[], rfl, nofun, rfl⟩
  | cons page pages ih =>
    rw [List.flatten_cons, List.map_append, List.nodup_append] at hnodup
    have hpage := @foldl_insert_eq page [] hnodup.1
    rw [List.nil_append] at hpage
    rw [pageAnswers, searchThreadRun, unitsWithin, hpage, pageResults, List.length_map]
    split_ifs with hlimit hmore
    · exact ⟨[], rfl, nofun, rfl⟩
    · obtain ⟨emitted, hflatten, hpages, hrun⟩ := ih hnodup.2.1
      refine ⟨page :: emitted, ?_, ?_, ?_⟩
      · rw [List.flatten_cons, hflatten]
      · exact List.forall_mem_cons.2 ⟨hnodup.1, hpages⟩
      · rw [List.map_cons, hrun]
        rfl
    · -- the last page
      have hnil : pages = [] := by simpa using hmore
      refine ⟨[page], ?_, List.forall_mem_cons.2 ⟨hnodup.1, nofun⟩, rfl⟩
      rw [hnil]
      rfl

/-! ## What is stored -/

/-- What is stored of the links of a unit. -/
def storeUnit (rt : Runtime) (manager : GPLinkManager) (linked : LinkedUnit) : GPLinkManager :=
  if trimmed (linked.gplinkString rt) ≠ [] then
    manager.setGplink linked.dn (linked.gplinkString rt)
  else manager

theorem onResultsReady_pageResults (hnodup : (page.map LinkedUnit.dn).Nodup) :
    manager.onResultsReady rt (pageResults page) = page.foldl (storeUnit rt) manager := by
  rw [GPLinkManager.onResultsReady, keys_pageResults, List.foldl_map]
  refine List.foldl_ext _ _ _ fun manager linked hlinked => ?_
  rw [value_pageResults hnodup hlinked, gplinkString_object]
  rfl

theorem foldl_onResultsReady {emitted : List (List LinkedUnit)}
    (hnodup : ∀ page ∈ emitted, (page.map LinkedUnit.dn).Nodup) :
    (emitted.map pageResults).foldl (GPLinkManager.onResultsReady rt) manager =
      emitted.flatten.foldl (storeUnit rt) manager := by
  induction emitted generalizing manager with
  | nil => rfl
  | cons page emitted ih =>
    rw [List.forall_mem_cons] at hnodup
    rw [List.map_cons, List.foldl_cons, onResultsReady_pageResults hnodup.1, ih hnodup.2,
      List.flatten_cons, List.foldl_append]

/-- What is kept of an object is what has come for it, if it is not blank. -/
theorem value_foldl_storeUnit (hnodup : (units.map LinkedUnit.dn).Nodup) :
    (∀ linked ∈ units, trimmed (linked.gplinkString rt) ≠ [] →
      (units.foldl (storeUnit rt) manager).ouLinks.value linked.dn [] = linked.gplinkString rt) ∧
    ∀ dn, (∀ linked ∈ units, linked.dn = dn → trimmed (linked.gplinkString rt) = []) →
      (units.foldl (storeUnit rt) manager).ouLinks.value dn [] = manager.ouLinks.value dn [] := by
  induction units generalizing manager with
  | nil => exact ⟨nofun, fun _ _ => rfl⟩
  | cons first units ih =>
    rw [List.map_cons, List.nodup_cons] at hnodup
    obtain ⟨hcome, hother⟩ := @ih (storeUnit rt manager first) hnodup.2
    rw [List.foldl_cons]
    refine ⟨fun linked hlinked hblank => ?_, fun dn hdn => ?_⟩
    · rcases List.mem_cons.1 hlinked with rfl | hmem
      · -- no other unit has this DN
        have hunique : ∀ other ∈ units, other.dn = linked.dn →
            trimmed (other.gplinkString rt) = [] := fun other hmem heq =>
          absurd (heq ▸ List.mem_map_of_mem hmem) hnodup.1
        rw [hother _ hunique, storeUnit, if_pos hblank]
        exact QHash.value_insert.trans (if_pos rfl)
      · exact hcome linked hmem hblank
    · rw [List.forall_mem_cons] at hdn
      rw [hother dn hdn.2, storeUnit]
      split_ifs with hblank
      · exact QHash.value_insert.trans (if_neg fun heq => hblank (hdn.1 heq.symm))
      · rfl

end
/-! ## After a refresh -/

section
variable {tables : CaseTables} {rt : Runtime} {limit total : ℤ} {linked : LinkedUnit}
  {pages : List (List LinkedUnit)} {directory : UnitPages} {manager : GPLinkManager}
  {dn : String} {policyDn : QString}

theorem mem_linkedOuList : dn ∈ manager.linkedOuList tables policyDn ↔
    (Gplink.ofString tables (manager.ouLinks.value dn [])).contains tables policyDn = true := by
  rw [GPLinkManager.linkedOuList, List.mem_filter, and_iff_right_of_imp]
  intro hcontains
  by_contra hdn
  -- nothing is kept of the object
  rw [QHash.value_of_not_mem_keys hdn] at hcontains
  exact absurd hcontains (by simp [Gplink.ofString, Gplink.contains, Gplink.empty,
    QHash.contains, QHash.keys])

theorem unitsWithin_initial : unitsWithin limit total pages <+: pages.flatten := by
  induction pages generalizing total with
  | nil => exact List.nil_prefix
  | cons page pages ih =>
    rw [unitsWithin, List.flatten_cons]
    split_ifs
    · exact List.nil_prefix
    · exact (List.prefix_append_right_inj page).2 ih

/-- A unit has the links that its text gives. -/
theorem hasLink_iff (h : linked ∈ directory.pages.flatten) :
    directory.HasLink tables rt linked.dn policyDn ↔
      (Gplink.ofString tables (linked.gplinkString rt)).contains tables policyDn = true := by
  constructor
  · rintro ⟨other, hother, heq, hcontains⟩
    rwa [← List.inj_on_of_nodup_map directory.nodup hother h heq]
  · exact fun hcontains => ⟨linked, h, rfl, hcontains⟩

theorem update_ouLinks (h : manager.isUpdated = true) :
    (manager.update rt true limit (pageAnswers directory.pages)).ouLinks =
      ((unitsWithin limit 0 directory.pages).foldl (storeUnit rt)
        { manager with isUpdated := false }).ouLinks := by
  obtain ⟨emitted, hflatten, hpages, hrun⟩ :=
    @searchThreadRun_pageAnswers limit directory.pages 0 directory.nodup
  rw [GPLinkManager.update, if_neg (by rw [h]; decide)]
  dsimp only [GPLinkManager.onFinished]
  rw [if_pos rfl, hrun, foldl_onResultsReady hpages, hflatten]

/-- What is kept after a refresh gives the links of the objects that have been refreshed, and
    what was kept before those of the others. -/
theorem mem_linkedOuList_update (h : manager.isUpdated = true) :
    (dn ∈ directory.refreshed rt limit →
      (dn ∈ (manager.update rt true limit (pageAnswers directory.pages)).linkedOuList tables
        policyDn ↔ directory.HasLink tables rt dn policyDn)) ∧
    (dn ∉ directory.refreshed rt limit →
      (dn ∈ (manager.update rt true limit (pageAnswers directory.pages)).linkedOuList tables
        policyDn ↔ dn ∈ manager.linkedOuList tables policyDn)) := by
  have hinitial := @unitsWithin_initial limit 0 directory.pages
  have hnodup : ((unitsWithin limit 0 directory.pages).map LinkedUnit.dn).Nodup :=
    directory.nodup.sublist (hinitial.sublist.map _)
  obtain ⟨hcome, hother⟩ := @value_foldl_storeUnit rt _ { manager with isUpdated := false } hnodup
  constructor
  · intro hrefreshed
    obtain ⟨linked, hlinked, rfl⟩ := List.mem_map.1 hrefreshed
    rw [List.mem_filter, decide_eq_true_iff] at hlinked
    rw [mem_linkedOuList, update_ouLinks h, hcome linked hlinked.1 hlinked.2,
      hasLink_iff (hinitial.subset hlinked.1)]
  · intro hrefreshed
    rw [mem_linkedOuList, update_ouLinks h, mem_linkedOuList, hother dn]
    rintro linked hlinked rfl
    by_contra hblank
    refine hrefreshed (List.mem_map_of_mem (List.mem_filter.2 ⟨hlinked, ?_⟩))
    exact decide_eq_true hblank

end

/-- After a refresh the units are found under the policies that they have links to, exactly
    when this was so before it for all objects but those that have come with links. -/
theorem refreshed_iff (tables : CaseTables) (rt : Runtime) (limit : ℤ) (directory : UnitPages)
    (manager : GPLinkManager) (h : manager.isUpdated = true) :
    (∀ policyDn dn, dn ∈ (manager.update rt true limit
        (pageAnswers directory.pages)).linkedOuList tables policyDn ↔
      directory.HasLink tables rt dn policyDn) ↔
    ∀ dn ∉ directory.refreshed rt limit, ∀ policyDn,
      dn ∈ manager.linkedOuList tables policyDn ↔ directory.HasLink tables rt dn policyDn := by
  constructor
  · intro hall dn hdn policyDn
    rw [← hall policyDn dn, (mem_linkedOuList_update h).2 hdn]
  · intro hbefore policyDn dn
    by_cases hdn : dn ∈ directory.refreshed rt limit
    · exact (mem_linkedOuList_update h).1 hdn
    · rw [(mem_linkedOuList_update h).2 hdn]
      exact hbefore dn hdn policyDn

/-- A unit that has a link to a policy. -/
def unitWithLink : LinkedUnit :=
  ⟨"OU=a", textValues "[LDAP://CN={31B2},CN=Policies,DC=ALT;0]".toList⟩

/-- A directory with one unit. -/
def oneUnit (linked : LinkedUnit) : UnitPages where
  pages := [[linked]]
  nodup := List.nodup_singleton _

theorem gplinkString_of_values {rt : Runtime} {linked : LinkedUnit} {text : QString}
    (hrt : rt.DecodesUtf8) (h : linked.values = textValues text) :
    linked.gplinkString rt = text := by
  rw [LinkedUnit.gplinkString, h, headD_textValues hrt]

/-- A unit with links is refreshed. -/
theorem mem_refreshed_oneUnit {rt : Runtime} {limit : ℤ} {linked : LinkedUnit} (hlimit : 1 ≤ limit)
    (h : trimmed (linked.gplinkString rt) ≠ []) :
    linked.dn ∈ (oneUnit linked).refreshed rt limit := by
  refine List.mem_map_of_mem (List.mem_filter.2 ⟨?_, decide_eq_true h⟩)
  rw [oneUnit, unitsWithin, if_neg (by rw [List.length_singleton]; omega)]
  exact List.mem_append_left _ (List.mem_singleton_self _)

/-- Nothing has been kept, and the unit is found. -/
theorem refreshed_iff_first :
    "OU=a" ∈ ((⟨[], true, false⟩ : GPLinkManager).update zeroRuntime true 1000
        (pageAnswers (oneUnit unitWithLink).pages)).linkedOuList .ascii
          "CN={31B2},CN=Policies,DC=alt".toList ↔
      (oneUnit unitWithLink).HasLink .ascii zeroRuntime "OU=a"
        "CN={31B2},CN=Policies,DC=alt".toList := by
  have htext : unitWithLink.gplinkString zeroRuntime =
      "[LDAP://CN={31B2},CN=Policies,DC=ALT;0]".toList :=
    gplinkString_of_values decodesUtf8_zeroRuntime rfl
  refine (refreshed_iff .ascii zeroRuntime 1000 (oneUnit unitWithLink) ⟨[], true, false⟩ rfl).2
    (fun dn hdn policyDn => iff_of_false List.not_mem_nil ?_) _ _
  rintro ⟨linked, hlinked, rfl, -⟩
  have hlinked : linked = unitWithLink := List.mem_singleton.1 hlinked
  rw [hlinked] at hdn
  have hblank : trimmed (unitWithLink.gplinkString zeroRuntime) ≠ [] := by
    rw [htext]
    decide
  exact hdn (mem_refreshed_oneUnit (by decide) hblank)

/-- The links of a unit have been cleared, and those that were kept stay. -/
theorem not_refreshed :
    ¬∀ policyDn dn, dn ∈ ((⟨[("OU=a", "[LDAP://CN={31B2},CN=Policies,DC=ALT;0]".toList)], true,
        false⟩ : GPLinkManager).update zeroRuntime true 1000
          (pageAnswers (oneUnit ⟨"OU=a", []⟩).pages)).linkedOuList .ascii policyDn ↔
      (oneUnit ⟨"OU=a", []⟩).HasLink .ascii zeroRuntime dn policyDn := by
  intro h
  have hkept := (h "CN={31B2},CN=Policies,DC=alt".toList "OU=a").1 (by decide)
  obtain ⟨linked, hlinked, -, hcontains⟩ := hkept
  rw [List.mem_singleton.1 hlinked] at hcontains
  exact absurd hcontains (by decide)

end Admc
