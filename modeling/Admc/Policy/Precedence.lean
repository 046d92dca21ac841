import Admc.Policy.Inherited

/-!
# The precedence of policies

The order in which policies apply to a container (`precedence`): the enforced links, those
further up first, then the other ones, from the container up to the first one that blocks
inheritance; and each policy once.

* `addEnabledPolicyItems_containersFrom`: the rows that the climb adds;
* `PolicyChain.showsPrecedence_iff`: the widget shows this order just if the domain has more than one
  component, at which the climb ends, and each policy is found under the DN that is shown.
-/

namespace Admc

/-! ## Precedence -/

/-- A policy that applies, by a link of a container. -/
structure AppliedPolicy where
  gpo : QString
  location : String
  isEnforced : Bool

/-- A container: its links that are not disabled, and whether it blocks inheritance. -/
structure PolicyContainer where
  links : List AppliedPolicy
  blocks : Bool

/-- The enforced links of containers, of which each is in the next one. -/
def enforcedPolicies : List PolicyContainer → List AppliedPolicy
  | [] => []
  | container :: above => enforcedPolicies above ++ container.links.filter (·.isEnforced)

/-- The other links, up to the first container that blocks inheritance. -/
def inheritedPolicies : List PolicyContainer → List AppliedPolicy
  | [] => []
  | container :: above => container.links.filter (!·.isEnforced) ++
      if container.blocks then [] else inheritedPolicies above

/-- The links that apply, in order. -/
def appliedPolicies (containers : List PolicyContainer) : List AppliedPolicy :=
  enforcedPolicies containers ++ inheritedPolicies containers

/-- The policies that apply, in order. -/
def precedence (containers : List PolicyContainer) : List AppliedPolicy :=
  (appliedPolicies containers).keepFirst AppliedPolicy.gpo

section
variable (rt : Runtime) (tables : CaseTables) (ad : AdConnection)

/-- The links of a container. -/
def ouGplink (ouDn : QString) : Gplink :=
  Gplink.ofString tables ((ouObject ad ouDn).gplinkString rt)

/-- A link has an option. -/
def Gplink.hasOption (gplink : Gplink) (gpo : QString) (option : GplinkOption) : Bool :=
  bitmaskIsSet (gplink.options.value gpo 0) option.bits

/-- A link of a container. -/
def containerLink (ouDn gpo : QString) : AppliedPolicy where
  gpo
  location := (ouObject ad ouDn).getString rt "name"
  isEnforced := (ouGplink rt tables ad ouDn).hasOption gpo .enforced

/-- The links of some policies of a container that are not disabled. -/
def enabledLinks (ouDn : QString) (gpos : List QString) : List AppliedPolicy :=
  (gpos.filter fun gpo => !(ouGplink rt tables ad ouDn).hasOption gpo .disabled).map
    (containerLink rt tables ad ouDn)

/-- A container of the directory. -/
def policyContainer (ouDn : QString) : PolicyContainer where
  links := enabledLinks rt tables ad ouDn (ouGplink rt tables ad ouDn).gpoList
  blocks := blocksInheritance rt ad ouDn

/-- So many containers, from one on upwards. -/
def containersFrom : ℕ → QString → List PolicyContainer
  | 0, _ => []
  | n + 1, ouDn => policyContainer rt tables ad ouDn :: containersFrom n (dnGetParent ouDn)

/-- The DN of a policy of the directory, in lower case. -/
def IsGpo (gpo : QString) : Prop := ∃ guid domain, gpo = tables.lower (gpoDn guid domain)

/-- The DN of a domain. -/
def DomainDn.text (domain : DomainDn) : QString := [','].intercalate domain.rdns

/-- A container in a domain of the directory, with all that it is in, whose links are to
    policies. There is nothing outside of the domain. -/
structure PolicyChain where
  rdns : List QString
  domain : DomainDn
  plain : ∀ rdn ∈ rdns, ',' ∉ rdn
  found : ∀ k ≤ rdns.length,
    (ouObject ad (dnAncestor ([','].intercalate (rdns ++ domain.rdns)) k)).isEmpty = false
  outside : ∀ dn, ¬domain.text <:+ dn → (ouObject ad dn).isEmpty = true
  isGpo : ∀ k ≤ rdns.length,
    ∀ gpo ∈ (ouGplink rt tables ad
      (dnAncestor ([','].intercalate (rdns ++ domain.rdns)) k)).gpoList, IsGpo tables gpo

variable {rt tables ad}

/-- The DN of the container. -/
def PolicyChain.dn (chain : PolicyChain rt tables ad) : QString :=
  [','].intercalate (chain.rdns ++ chain.domain.rdns)

/-- The containers from the first one up to the domain. -/
def PolicyChain.containers (chain : PolicyChain rt tables ad) : List PolicyContainer :=
  containersFrom rt tables ad (chain.rdns.length + 1) chain.dn

variable (rt tables ad)

/-- The row that shows a policy. -/
def AppliedPolicy.row (policy : AppliedPolicy) : PolicyRow where
  priority := 0
  name := (policyObject ad (getGpoCase tables policy.gpo)).getString rt "displayName"
  location := policy.location
  dn := .ofList (getGpoCase tables policy.gpo)
  isEnforced := policy.isEnforced

/-- The widget shows the policies of a container in the order of precedence. -/
def PolicyChain.ShowsPrecedence {rt : Runtime} {tables : CaseTables} {ad : AdConnection}
    (chain : PolicyChain rt tables ad) : Prop :=
  ∃ n rows, updateInherited rt tables ad n chain.dn = some rows ∧
    rows = setPriorityToItems ((precedence chain.containers).map (·.row rt tables ad))

end

/-! ## One container -/

section
variable {rt : Runtime} {tables : CaseTables} {ad : AdConnection} {gpo gpo' : QString}

/-- Lower case undoes the letter case that is shown. -/
theorem IsGpo.lower (h : IsGpo tables gpo) : tables.lower (getGpoCase tables gpo) = gpo := by
  rcases h with ⟨guid, domain, rfl⟩
  exact lower_getGpoCase

theorem IsGpo.getGpoCase_inj (h : IsGpo tables gpo) (h' : IsGpo tables gpo') :
    getGpoCase tables gpo = getGpoCase tables gpo' ↔ gpo = gpo' :=
  ⟨fun heq => by rw [← h.lower, heq, h'.lower], congrArg (getGpoCase tables)⟩

theorem IsGpo.getGpoCase_ne_nil (h : IsGpo tables gpo) : getGpoCase tables gpo ≠ [] := by
  rcases h with ⟨guid, domain, rfl⟩
  intro hnil
  have hsplit := @splitOn_getGpoCase tables guid domain
  rw [hnil] at hsplit
  exact absurd (congrArg List.length hsplit) (by simp)

/-- The options of a link, by the DN that is shown. -/
theorem IsGpo.getOption (h : IsGpo tables gpo) {text : QString}
    (hmem : gpo ∈ (Gplink.ofString tables text).gpoList) (option : GplinkOption) :
    (Gplink.ofString tables text).getOption tables (getGpoCase tables gpo) option =
      (Gplink.ofString tables text).hasOption gpo option := by
  have hcontains : (Gplink.ofString tables text).contains tables gpo = true := by
    rw [Gplink.contains, QHash.contains_iff]
    rwa [← h.lower, CaseTables.lower_lower, h.lower, mem_keys_ofString]
  rw [Gplink.getOption, h.lower, hcontains, Bool.true_and, Gplink.hasOption]

theorem IsGpo.mem_disabledGpoDnList (h : IsGpo tables gpo) {text : QString}
    (hmem : gpo ∈ (Gplink.ofString tables text).gpoList) :
    getGpoCase tables gpo ∈ (Gplink.ofString tables text).disabledGpoDnList tables ↔
      (Gplink.ofString tables text).hasOption gpo .disabled = true := by
  have hshown : getGpoCase tables gpo ∈ (Gplink.ofString tables text).getGpoList tables :=
    List.mem_map_of_mem hmem
  rw [Gplink.disabledGpoDnList, List.mem_filter, h.getOption hmem, and_iff_right hshown]

theorem IsGpo.mem_enforcedGpoDnList (h : IsGpo tables gpo) {text : QString}
    (hmem : gpo ∈ (Gplink.ofString tables text).gpoList) :
    getGpoCase tables gpo ∈ (Gplink.ofString tables text).enforcedGpoDnList tables ↔
      (Gplink.ofString tables text).hasOption gpo .enforced = true := by
  have hshown : getGpoCase tables gpo ∈ (Gplink.ofString tables text).getGpoList tables :=
    List.mem_map_of_mem hmem
  rw [Gplink.enforcedGpoDnList, List.mem_filter, h.getOption hmem, and_iff_right hshown]

/-- The row that is loaded for a policy. -/
def AppliedPolicy.loaded (rt : Runtime) (tables : CaseTables) (ad : AdConnection)
    (policy : AppliedPolicy) : PolicyRow :=
  loadItem rt ad .empty policy.location (getGpoCase tables policy.gpo) policy.isEnforced

/-- A policy that is found is loaded, -/
theorem AppliedPolicy.loaded_of_found {policy : AppliedPolicy}
    (h : (policyObject ad (getGpoCase tables policy.gpo)).isEmpty = false) :
    policy.loaded rt tables ad = policy.row rt tables ad := by
  rw [loaded, loadItem, h]
  rfl

/-- and the row of another one is left blank. -/
theorem AppliedPolicy.loaded_of_isEmpty {policy : AppliedPolicy}
    (h : (policyObject ad (getGpoCase tables policy.gpo)).isEmpty = true) :
    policy.loaded rt tables ad = .empty := by
  rw [loaded, loadItem, h]
  rfl

variable {ouDn : QString} {inheritanceBlocked : Bool} {gpos : List QString}

theorem enabledLinks_cons_of_disabled
    (h : (ouGplink rt tables ad ouDn).hasOption gpo .disabled = true) :
    enabledLinks rt tables ad ouDn (gpo :: gpos) = enabledLinks rt tables ad ouDn gpos := by
  rw [enabledLinks, List.filter_cons_of_neg (by simpa using h), enabledLinks]

theorem enabledLinks_cons
    (h : ¬(ouGplink rt tables ad ouDn).hasOption gpo .disabled = true) :
    enabledLinks rt tables ad ouDn (gpo :: gpos) =
      containerLink rt tables ad ouDn gpo :: enabledLinks rt tables ad ouDn gpos := by
  rw [enabledLinks, List.filter_cons_of_pos (by simpa using h), List.map_cons, enabledLinks]

theorem insertIdx_length_append {α : Type*} (l l' : List α) (a : α) :
    (l ++ l').insertIdx l.length a = (l ++ [a]) ++ l' := by
  induction l with
  | nil => rfl
  | cons b l ih => exact congrArg (b :: ·) ih

/-- A link that is not disabled is added after the enforced ones, or at the end. -/
theorem addPolicyItem_eq (hgpo : IsGpo tables gpo)
    (hmem : gpo ∈ (ouGplink rt tables ad ouDn).gpoList) (enforced rows : List PolicyRow) :
    addPolicyItem rt tables ad ((ouObject ad ouDn).getString rt "name")
        (ouGplink rt tables ad ouDn) inheritanceBlocked (enforced ++ rows, enforced.length)
        (getGpoCase tables gpo) =
      if (ouGplink rt tables ad ouDn).hasOption gpo .disabled = true then
        (enforced ++ rows, enforced.length)
      else if (ouGplink rt tables ad ouDn).hasOption gpo .enforced = true then
        ((enforced ++ [(containerLink rt tables ad ouDn gpo).loaded rt tables ad]) ++ rows,
          enforced.length + 1)
      else if inheritanceBlocked = true then (enforced ++ rows, enforced.length)
      else (enforced ++ (rows ++ [(containerLink rt tables ad ouDn gpo).loaded rt tables ad]),
        enforced.length) := by
  have hdisabled := hgpo.mem_disabledGpoDnList hmem
  have henforced := hgpo.mem_enforcedGpoDnList hmem
  rw [← ouGplink] at hdisabled henforced
  have hloaded (isEnforced : Bool)
      (h : (ouGplink rt tables ad ouDn).hasOption gpo .enforced = isEnforced) :
      loadItem rt ad .empty ((ouObject ad ouDn).getString rt "name") (getGpoCase tables gpo)
        isEnforced = (containerLink rt tables ad ouDn gpo).loaded rt tables ad := by
    rw [AppliedPolicy.loaded, containerLink, h]
  rw [addPolicyItem]
  simp only [hdisabled, henforced]
  refine if_congr Iff.rfl rfl ?_
  cases hisEnforced : (ouGplink rt tables ad ouDn).hasOption gpo .enforced with
  | true =>
    rw [if_pos (decide_eq_true rfl), if_pos rfl, decide_eq_true rfl, hloaded true hisEnforced,
      insertIdx_length_append]
  | false =>
    rw [if_neg Bool.false_ne_true, decide_eq_false Bool.false_ne_true,
      if_neg Bool.false_ne_true, hloaded false hisEnforced]
    cases inheritanceBlocked with
    | true => rfl
    | false => exact congrArg (·, enforced.length) (List.append_assoc _ _ _)

/-- The loop adds the enforced links after those of the container that it has, and the other
    ones at the end. -/
theorem foldl_addPolicyItem
    (hmem : ∀ gpo ∈ gpos, gpo ∈ (ouGplink rt tables ad ouDn).gpoList)
    (hgpo : ∀ gpo ∈ gpos, IsGpo tables gpo) (enforced rows : List PolicyRow) :
    ((gpos.map (getGpoCase tables)).foldl (addPolicyItem rt tables ad
        ((ouObject ad ouDn).getString rt "name") (ouGplink rt tables ad ouDn) inheritanceBlocked)
      (enforced ++ rows, enforced.length)).1 =
    enforced ++ ((enabledLinks rt tables ad ouDn gpos).filter (·.isEnforced)).map
        (·.loaded rt tables ad) ++ rows ++
      (if inheritanceBlocked then [] else
        ((enabledLinks rt tables ad ouDn gpos).filter (!·.isEnforced)).map
          (·.loaded rt tables ad)) := by
  induction gpos generalizing enforced rows with
  | nil => simp [enabledLinks]
  | cons gpo gpos ih =>
    have ih := ih (fun gpo' h => hmem gpo' (List.mem_cons_of_mem _ h))
      fun gpo' h => hgpo gpo' (List.mem_cons_of_mem _ h)
    rw [List.map_cons, List.foldl_cons, addPolicyItem_eq (hgpo gpo List.mem_cons_self)
      (hmem gpo List.mem_cons_self)]
    by_cases hdisabled : (ouGplink rt tables ad ouDn).hasOption gpo .disabled = true
    · rw [if_pos hdisabled, ih, enabledLinks_cons_of_disabled hdisabled]
    rw [if_neg hdisabled, enabledLinks_cons hdisabled]
    by_cases henforced : (ouGplink rt tables ad ouDn).hasOption gpo .enforced = true
    · have hlink : (containerLink rt tables ad ouDn gpo).isEnforced = true := henforced
      have hlength : enforced.length + 1 =
          (enforced ++ [(containerLink rt tables ad ouDn gpo).loaded rt tables ad]).length := by
        rw [List.length_append, List.length_singleton]
      rw [if_pos henforced, hlength, ih]
      simp [hlink]
    have hlink : (containerLink rt tables ad ouDn gpo).isEnforced = false :=
      Bool.eq_false_of_not_eq_true henforced
    rw [if_neg henforced]
    -- what is not enforced goes to the end, if it may
    cases inheritanceBlocked with
    | true =>
      rw [if_pos rfl, ih]
      simp [hlink]
    | false =>
      rw [if_neg Bool.false_ne_true, ih]
      simp [hlink]

/-! ## The climb through a domain -/

/-- The rows of one container. -/
theorem containerRows_eq (hgpo : ∀ gpo ∈ (ouGplink rt tables ad ouDn).gpoList, IsGpo tables gpo)
    (rows : List PolicyRow) :
    containerRows rt tables ad ouDn inheritanceBlocked rows =
      ((policyContainer rt tables ad ouDn).links.filter (·.isEnforced)).map
          (·.loaded rt tables ad) ++ rows ++
        (if inheritanceBlocked then [] else
          ((policyContainer rt tables ad ouDn).links.filter (!·.isEnforced)).map
            (·.loaded rt tables ad)) :=
  foldl_addPolicyItem (fun _ => id) hgpo [] rows

/-- The rows of containers that are found: the enforced links come before those that are there,
    and the other ones after them. -/
theorem addEnabledPolicyItems_containersFrom {n : ℕ}
    (hfound : ∀ k < n, (ouObject ad (dnGetParent^[k] ouDn)).isEmpty = false)
    (hgpo : ∀ k < n, ∀ gpo ∈ (ouGplink rt tables ad (dnGetParent^[k] ouDn)).gpoList,
      IsGpo tables gpo)
    (hend : (ouObject ad (dnGetParent^[n] ouDn)).isEmpty = true) (rows : List PolicyRow) :
    addEnabledPolicyItems rt tables ad (n + 1) ouDn inheritanceBlocked rows =
      some ((enforcedPolicies (containersFrom rt tables ad n ouDn)).map (·.loaded rt tables ad) ++
        rows ++ (if inheritanceBlocked then [] else
          (inheritedPolicies (containersFrom rt tables ad n ouDn)).map
            (·.loaded rt tables ad))) := by
  induction n generalizing ouDn inheritanceBlocked rows with
  | zero =>
    have hend : (ouObject ad ouDn).isEmpty = true := hend
    rw [addEnabledPolicyItems_of_isEmpty hend]
    cases inheritanceBlocked <;> simp [containersFrom, enforcedPolicies, inheritedPolicies]
  | succ n ih =>
    have hhere : (ouObject ad ouDn).isEmpty = false := hfound 0 n.succ_pos
    have hlinks : ∀ gpo ∈ (ouGplink rt tables ad ouDn).gpoList, IsGpo tables gpo :=
      hgpo 0 n.succ_pos
    rw [addEnabledPolicyItems_of_found hhere, containerRows_eq hlinks,
      ih (fun k hk => hfound (k + 1) (Nat.succ_lt_succ hk))
        (fun k hk => hgpo (k + 1) (Nat.succ_lt_succ hk)) hend]
    have hblocks : (policyContainer rt tables ad ouDn).blocks = blocksInheritance rt ad ouDn := rfl
    -- inheritance is blocked further up if it is below, or by this container
    cases inheritanceBlocked <;> cases hblocked : blocksInheritance rt ad ouDn <;>
      simp [containersFrom, enforcedPolicies, inheritedPolicies, hblocks, hblocked]

theorem mem_links_of_mem_applied {containers : List PolicyContainer} {policy : AppliedPolicy}
    (h : policy ∈ appliedPolicies containers) :
    ∃ container ∈ containers, policy ∈ container.links := by
  induction containers with
  | nil => exact absurd h List.not_mem_nil
  | cons container above ih =>
    have hcases : policy ∈ container.links ∨ policy ∈ appliedPolicies above := by
      rw [appliedPolicies, enforcedPolicies, inheritedPolicies, List.mem_append, List.mem_append,
        List.mem_append, List.mem_filter, List.mem_filter] at h
      rcases h with (h | h) | h | h
      · exact .inr (List.mem_append_left _ h)
      · exact .inl h.1
      · exact .inl h.1
      · split_ifs at h
        · exact absurd h List.not_mem_nil
        · exact .inr (List.mem_append_right _ h)
    rcases hcases with h | h
    · exact ⟨container, List.mem_cons_self, h⟩
    · rcases ih h with ⟨container', hmem, h⟩
      exact ⟨container', List.mem_cons_of_mem _ hmem, h⟩

theorem exists_of_mem_containersFrom {n : ℕ} {container : PolicyContainer}
    (h : container ∈ containersFrom rt tables ad n ouDn) :
    ∃ k < n, container = policyContainer rt tables ad (dnGetParent^[k] ouDn) := by
  induction n generalizing ouDn with
  | zero => exact absurd h List.not_mem_nil
  | succ n ih =>
    rcases List.mem_cons.1 h with rfl | h
    · exact ⟨0, n.succ_pos, rfl⟩
    · rcases ih h with ⟨k, hk, rfl⟩
      exact ⟨k + 1, Nat.succ_lt_succ hk, rfl⟩

theorem DomainDn.not_mem_rdns {domain : DomainDn} {rdn : QString} (h : rdn ∈ domain.rdns) :
    ',' ∉ rdn := by
  rcases List.mem_map.1 h with ⟨label, hlabel, rfl⟩
  rw [List.mem_append, not_or]
  exact ⟨by decide, (domain.plain label hlabel).1⟩

theorem DomainDn.rdns_ne_nil (domain : DomainDn) : domain.rdns ≠ [] :=
  mt List.map_eq_nil_iff.1 domain.labels_ne_nil

/-- The DN above a domain is shorter. -/
theorem DomainDn.length_drop_lt {domain : DomainDn} (h : 2 ≤ domain.labels.length) :
    ([','].intercalate (domain.rdns.drop 1)).length < domain.text.length := by
  rw [text, rdns]
  rcases hlabels : domain.labels with _ | ⟨first, _ | ⟨second, labels⟩⟩
  · exact absurd hlabels domain.labels_ne_nil
  · rw [hlabels] at h
    exact absurd h (Nat.lt_irrefl 1)
  · rw [List.map_cons, List.map_cons, List.drop_one, List.tail_cons, Path.intercalate_cons_cons,
      List.length_append, List.length_cons]
    omega

namespace PolicyChain

variable (chain : PolicyChain rt tables ad)

theorem splitOn_dn : chain.dn.splitOn ',' = chain.rdns ++ chain.domain.rdns := by
  refine List.splitOn_intercalate ',' (fun rdn hrdn => ?_) ?_
  · rcases List.mem_append.1 hrdn with hrdn | hrdn
    · exact chain.plain rdn hrdn
    · exact chain.domain.not_mem_rdns hrdn
  · exact List.append_ne_nil_of_right_ne_nil _ chain.domain.rdns_ne_nil

theorem count_dn : chain.dn.count ',' + 1 = chain.rdns.length + chain.domain.labels.length := by
  rw [← Path.length_splitOn, splitOn_dn, List.length_append, DomainDn.rdns, List.length_map]

theorem found_dn {k : ℕ} (hk : k ≤ chain.rdns.length) :
    (ouObject ad (dnAncestor chain.dn k)).isEmpty = false := chain.found k hk

theorem iterate_dn {k : ℕ} (hk : k ≤ chain.rdns.length) :
    dnGetParent^[k] chain.dn = dnAncestor chain.dn k := by
  have hlabels := List.length_pos_iff.2 chain.domain.labels_ne_nil
  have hcount := chain.count_dn
  rw [iterate_dnGetParent, Nat.min_eq_left (by omega)]

theorem isGpo_of_mem {policy : AppliedPolicy} (h : policy ∈ appliedPolicies chain.containers) :
    IsGpo tables policy.gpo := by
  rcases mem_links_of_mem_applied h with ⟨container, hcontainer, hpolicy⟩
  rcases exists_of_mem_containersFrom hcontainer with ⟨k, hk, rfl⟩
  rcases List.mem_map.1 hpolicy with ⟨gpo, hgpo, rfl⟩
  rw [chain.iterate_dn (Nat.le_of_lt_succ hk)] at hgpo
  exact chain.isGpo k (Nat.le_of_lt_succ hk) gpo (List.mem_filter.1 hgpo).1

/-- The DN after that of the domain is not found, if there is one. -/
theorem isEmpty_above (h : 2 ≤ chain.domain.labels.length) :
    (ouObject ad (dnGetParent^[chain.rdns.length + 1] chain.dn)).isEmpty = true := by
  have hcount := chain.count_dn
  have habove : dnAncestor chain.dn (chain.rdns.length + 1) =
      [','].intercalate (chain.domain.rdns.drop 1) := by
    rw [dnAncestor, splitOn_dn, List.drop_length_add_append]
  rw [iterate_dnGetParent, Nat.min_eq_left (by omega), habove]
  refine chain.outside _ fun hsuffix => ?_
  exact absurd hsuffix.length_le (Nat.not_le.2 (chain.domain.length_drop_lt h))

/-- The rows of a container in a domain of more than one component. -/
theorem addEnabledPolicyItems_dn (h : 2 ≤ chain.domain.labels.length) :
    addEnabledPolicyItems rt tables ad (chain.rdns.length + 2) chain.dn false [] =
      some ((appliedPolicies chain.containers).map (·.loaded rt tables ad)) := by
  have hrows := @addEnabledPolicyItems_containersFrom rt tables ad chain.dn false
    (chain.rdns.length + 1) (fun k hk => ?_) (fun k hk => ?_) (chain.isEmpty_above h) []
  · rw [hrows, List.append_nil, if_neg Bool.false_ne_true, ← List.map_append]
    rfl
  · rw [chain.iterate_dn (Nat.le_of_lt_succ hk)]
    exact chain.found_dn (Nat.le_of_lt_succ hk)
  · rw [chain.iterate_dn (Nat.le_of_lt_succ hk)]
    exact chain.isGpo k (Nat.le_of_lt_succ hk)

/-- The climb does not end in a domain of one component. -/
theorem addEnabledPolicyItems_eq_none (h : chain.domain.labels.length < 2) {n : ℕ}
    {rows : List PolicyRow} :
    addEnabledPolicyItems rt tables ad n chain.dn inheritanceBlocked rows = none := by
  by_contra hne
  rcases Option.ne_none_iff_exists'.1 hne with ⟨rows', hrows⟩
  rcases exists_addEnabledPolicyItems_iterate_iff.1 ⟨n, rows', hrows⟩ with ⟨k, hk⟩
  have hcount := chain.count_dn
  have hle : min k (chain.dn.count ',') ≤ chain.rdns.length := by omega
  rw [iterate_dnGetParent, chain.found_dn hle] at hk
  exact Bool.false_ne_true hk

end PolicyChain

/-! ## The rows that are shown -/

theorem removeLinkDuplicates_eq (dnList : List String) (rows : List PolicyRow) :
    removeLinkDuplicates dnList rows = List.keepFirstFrom PolicyRow.dn dnList rows := by
  induction rows generalizing dnList with
  | nil => rfl
  | cons row rows ih => rw [removeLinkDuplicates, List.keepFirstFrom, ih, ih]

theorem removeLinkDuplicates_nil (rows : List PolicyRow) :
    removeLinkDuplicates [] rows = rows.keepFirst PolicyRow.dn := by
  rw [removeLinkDuplicates_eq, List.keepFirstFrom_eq, List.filter_eq_self]
  exact fun _ _ => decide_eq_true List.not_mem_nil

theorem pairwise_setPriorityToItems (rows : List PolicyRow) :
    (setPriorityToItems rows).Pairwise fun row row' => row.priority ≤ row'.priority := by
  rw [List.pairwise_iff_getElem]
  intro i j hi hj hij
  simp only [setPriorityToItems, List.getElem_mapIdx]
  exact Nat.succ_le_succ hij.le

theorem map_dn_setPriorityToItems (rows : List PolicyRow) :
    (setPriorityToItems rows).map PolicyRow.dn = rows.map PolicyRow.dn := by
  refine List.ext_getElem (by simp [setPriorityToItems]) fun i hi hi' => ?_
  simp only [setPriorityToItems, List.getElem_map, List.getElem_mapIdx]

/-- The widget shows the rows that are left, in order. -/
theorem updateInherited_of_eq_some {n : ℕ} {rows : List PolicyRow}
    (h : addEnabledPolicyItems rt tables ad n ouDn false [] = some rows) :
    updateInherited rt tables ad n ouDn =
      some (setPriorityToItems (rows.keepFirst PolicyRow.dn)) := by
  rw [updateInherited, h, Option.map_some, removeLinkDuplicates_nil,
    (pairwise_setPriorityToItems _).insertionSort_eq]

namespace PolicyChain

variable (chain : PolicyChain rt tables ad)

/-- What is shown in a domain of more than one component. -/
theorem showsPrecedence_iff_eq (h : 2 ≤ chain.domain.labels.length) : chain.ShowsPrecedence ↔
    setPriorityToItems (((appliedPolicies chain.containers).map
        (·.loaded rt tables ad)).keepFirst PolicyRow.dn) =
      setPriorityToItems ((precedence chain.containers).map (·.row rt tables ad)) := by
  have hshown := updateInherited_of_eq_some (chain.addEnabledPolicyItems_dn h)
  constructor
  · rintro ⟨n, rows, hrows, rfl⟩
    cases hclimb : addEnabledPolicyItems rt tables ad n chain.dn false [] with
    | none =>
      rw [updateInherited, hclimb] at hrows
      exact nomatch hrows
    | some rows' =>
      have hmax := addEnabledPolicyItems_mono (Nat.le_max_left n (chain.rdns.length + 2)) hclimb
      have hmax' := addEnabledPolicyItems_mono (Nat.le_max_right n (chain.rdns.length + 2))
        (chain.addEnabledPolicyItems_dn h)
      rw [updateInherited_of_eq_some hclimb, Option.some.inj (hmax.symm.trans hmax')] at hrows
      exact Option.some.inj hrows
  · intro heq
    exact ⟨_, _, hshown, heq⟩

/-- The policies of a container are shown in the order of precedence just if its domain has
    more than one component, and each policy is found by the DN that is guessed for it. -/
theorem showsPrecedence_iff :
    chain.ShowsPrecedence ↔ 2 ≤ chain.domain.labels.length ∧
      ∀ policy ∈ appliedPolicies chain.containers,
        (policyObject ad (getGpoCase tables policy.gpo)).isEmpty = false := by
  rcases Nat.lt_or_ge chain.domain.labels.length 2 with hdomain | hdomain
  · -- the climb does not end
    refine ⟨fun ⟨n, rows, hrows, _⟩ => ?_, fun h => absurd h.1 (Nat.not_le.2 hdomain)⟩
    rw [updateInherited, chain.addEnabledPolicyItems_eq_none hdomain] at hrows
    exact nomatch hrows
  rw [and_iff_right hdomain, chain.showsPrecedence_iff_eq hdomain]
  constructor
  · intro h policy hpolicy
    by_contra hfound
    -- its row is left blank, and each policy that is to be shown has a DN
    have hblank : "" ∈ (((appliedPolicies chain.containers).map
        (·.loaded rt tables ad)).keepFirst PolicyRow.dn).map PolicyRow.dn := by
      rw [List.mem_map_keepFirst, List.mem_map]
      refine ⟨_, List.mem_map_of_mem hpolicy, ?_⟩
      rw [AppliedPolicy.loaded_of_isEmpty (Bool.eq_true_of_not_eq_false hfound)]
      rfl
    rw [← map_dn_setPriorityToItems, h, map_dn_setPriorityToItems, List.map_map,
      List.mem_map] at hblank
    rcases hblank with ⟨policy', hpolicy', hdn⟩
    have hmem := (List.keepFirst_sublist AppliedPolicy.gpo _).subset hpolicy'
    exact (chain.isGpo_of_mem hmem).getGpoCase_ne_nil (String.ofList_injective hdn)
  · intro h
    have hrows : (appliedPolicies chain.containers).map (·.loaded rt tables ad) =
        (appliedPolicies chain.containers).map (·.row rt tables ad) :=
      List.map_congr_left fun policy hpolicy =>
        AppliedPolicy.loaded_of_found (h policy hpolicy)
    rw [hrows, precedence]
    refine congrArg setPriorityToItems (List.keepFirst_map ?_)
    intro policy hpolicy policy' hpolicy'
    rw [← (chain.isGpo_of_mem hpolicy).getGpoCase_inj (chain.isGpo_of_mem hpolicy')]
    exact ⟨fun h => String.ofList_injective h, congrArg String.ofList⟩

end PolicyChain

end

/-- A domain of one component. -/
def corpDomain : DomainDn := ⟨["corp".toList], List.cons_ne_nil _ _, by decide⟩

/-- It is in the directory, with no links. -/
def corpChain : PolicyChain zeroRuntime .ascii corpDirectory where
  rdns := []
  domain := corpDomain
  plain := nofun
  found k hk := by
    rw [Nat.le_zero.1 hk]
    decide
  outside dn hdn := by
    have hbase : String.ofList dn ≠ "DC=corp" := fun h => hdn <| by
      rw [String.ofList_injective (h.trans (by decide : "DC=corp" = .ofList corpDomain.text))]
    have hsearch : corpDirectory.search (.ofList dn) .object [] ["name", "gPOptions", "gPLink"] =
        [] := if_neg hbase
    rw [ouObject, AdConnection.searchObject, hsearch]
    rfl
  isGpo k hk := by
    have hlinks : (ouGplink zeroRuntime .ascii corpDirectory corpDomain.text).gpoList = [] := by
      decide
    rw [Nat.le_zero.1 hk, dnAncestor_zero]
    exact fun gpo hgpo => absurd (hlinks ▸ hgpo) List.not_mem_nil

/-- In a domain of one component nothing is shown. -/
theorem not_showsPrecedence : ¬∀ (rt : Runtime) (tables : CaseTables) (ad : AdConnection)
    (chain : PolicyChain rt tables ad), chain.ShowsPrecedence := by
  intro h
  rcases h zeroRuntime .ascii corpDirectory corpChain with ⟨n, rows, hrows, -⟩
  rw [updateInherited, corpChain.addEnabledPolicyItems_eq_none Nat.one_lt_two] at hrows
  exact nomatch hrows

end Admc
