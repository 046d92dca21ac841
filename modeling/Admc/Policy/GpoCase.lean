import Admc.Policy.LinkOps
import Mathlib.Data.Bool.AllAny

/-!
# The letter case of links

Links are kept in lower case, and `get_gpo_list` guesses the letter case of the directory:
attribute types and the GUID are in upper case, "System" and "Policies" start with a capital,
and all other values are in lower case.

* `mem_getGpoList_add_iff`: the DN of a policy is given back just if it is spelled so.
-/

namespace Admc

/-! ## The list of policies -/

section
variable (tables : CaseTables)

/-- The loop of `get_gpo_case`, for one component after the first: a malformed one is left. -/
def rdnGpoCase (rdn : QString) : QString :=
  match rdn.splitOn '=' with
  | [left, right] =>
    let right :=
      if right = "system".toList then "System".toList
      else if right = "policies".toList then "Policies".toList
      else right
    ['='].intercalate [tables.upper left, right]
  | _ => rdn

/-- `get_gpo_case`. -/
def getGpoCase (gpo : QString) : QString :=
  match gpo.splitOn ',' with
  | [] => gpo
  | guidRdn :: rdns => [','].intercalate (tables.upper guidRdn :: rdns.map (rdnGpoCase tables))

namespace Gplink

variable (gplink : Gplink)

/-- `Gplink::get_gpo_list`. -/
def getGpoList : List QString := gplink.gpoList.map (getGpoCase tables)

/-- `Gplink::enforced_gpo_dn_list`. -/
def enforcedGpoDnList : List QString :=
  (gplink.getGpoList tables).filter fun gpoDn => gplink.getOption tables gpoDn .enforced

/-- `Gplink::disabled_gpo_dn_list`. -/
def disabledGpoDnList : List QString :=
  (gplink.getGpoList tables).filter fun gpoDn => gplink.getOption tables gpoDn .disabled

end Gplink

end

/-! ## DNs of policies -/

/-- The digits of a GUID, with what separates them. -/
structure GpoGuid where
  text : QString
  mem_digits : ∀ c ∈ text, c ∈ "0123456789abcdefABCDEF-".toList

/-- The DN of a domain, by the values of its components. -/
structure DomainDn where
  labels : List QString
  labels_ne_nil : labels ≠ []
  plain : ∀ label ∈ labels, ',' ∉ label ∧ '=' ∉ label

/-- The first component of the DN of a policy. -/
def GpoGuid.rdn (guid : GpoGuid) : QString := "CN=".toList ++ '{' :: guid.text ++ ['}']

/-- The components of the DN of a domain. -/
def DomainDn.rdns (domain : DomainDn) : List QString := domain.labels.map ("DC=".toList ++ ·)

/-- The components of the DN of a policy. -/
def gpoRdns (guid : GpoGuid) (domain : DomainDn) : List QString :=
  guid.rdn :: "CN=Policies".toList :: "CN=System".toList :: domain.rdns

/-- The DN of a policy. -/
def gpoDn (guid : GpoGuid) (domain : DomainDn) : QString :=
  [','].intercalate (gpoRdns guid domain)

/-- A value of a domain is spelled as the code guesses. -/
def KeepsCase (tables : CaseTables) (label : QString) : Prop :=
  if tables.lower label = "system".toList then label = "System".toList
  else if tables.lower label = "policies".toList then label = "Policies".toList
  else tables.lower label = label

variable {tables : CaseTables} {guid : GpoGuid} {domain : DomainDn}

theorem not_mem_gpoRdns {rdn : QString} (h : rdn ∈ gpoRdns guid domain) : ',' ∉ rdn := by
  rcases List.mem_cons.1 h with rfl | h
  · rw [GpoGuid.rdn]
    have hguid : ',' ∉ guid.text := fun hmem => absurd (guid.mem_digits ',' hmem) (by decide)
    simp only [List.mem_append, List.mem_cons, hguid]
    decide
  rcases List.mem_cons.1 h with rfl | h
  · decide
  rcases List.mem_cons.1 h with rfl | h
  · decide
  · obtain ⟨label, hlabel, rfl⟩ := List.mem_map.1 h
    rw [List.mem_append, not_or]
    exact ⟨by decide, (domain.plain label hlabel).1⟩

theorem splitOn_gpoDn : (gpoDn guid domain).splitOn ',' = gpoRdns guid domain :=
  List.splitOn_intercalate ',' (fun _ => not_mem_gpoRdns) (List.cons_ne_nil _ _)

/-- A component with a type of ASCII letters. -/
theorem rdnGpoCase_lower {type value : QString} (hvalue : '=' ∉ value) (htype : '=' ∉ type) :
    rdnGpoCase tables (tables.lower (type ++ '=' :: value)) =
      tables.upper (tables.lower type) ++ '=' ::
        (if tables.lower value = "system".toList then "System".toList
        else if tables.lower value = "policies".toList then "Policies".toList
        else tables.lower value) := by
  have hequals : (tables.lower (type ++ '=' :: value)).splitOn '=' =
      [tables.lower type, tables.lower value] := by
    rw [CaseTables.splitOn_lower (by decide) (by decide), ← Path.intercalate_pair,
      List.splitOn_intercalate '=' (by simp [htype, hvalue]) (List.cons_ne_nil _ _)]
    rfl
  rw [rdnGpoCase, hequals]
  exact Path.intercalate_pair '=' _ _

/-- The value of a component comes out as it was just if it is spelled as the code guesses. -/
theorem rdnGpoCase_label {label : QString} (hlabel : '=' ∉ label) :
    rdnGpoCase tables (tables.lower ("DC=".toList ++ label)) = "DC=".toList ++ label ↔
      KeepsCase tables label := by
  have htype : tables.upper (tables.lower "DC".toList) = "DC".toList := by
    rw [CaseTables.upper_lower_of_ascii (forall_mem_of_all (by decide))]
    rfl
  have hrdn : "DC=".toList ++ label = "DC".toList ++ '=' :: label := rfl
  rw [hrdn, rdnGpoCase_lower hlabel (by decide), htype, List.append_cancel_left_eq,
    List.cons_eq_cons, and_iff_right rfl, KeepsCase]
  split_ifs
  · exact eq_comm
  · exact eq_comm
  · rfl

theorem ascii_guidRdn (guid : GpoGuid) : ∀ c ∈ guid.rdn, c.val < 128 := by
  have hdigits : ∀ c ∈ "0123456789abcdefABCDEF-".toList, c.val < 128 :=
    List.all_iff_forall_prop.1 (by decide)
  intro c hc
  rw [GpoGuid.rdn, List.append_assoc, List.cons_append, List.mem_append, List.mem_cons,
    List.mem_append, List.mem_singleton] at hc
  rcases hc with hc | rfl | hc | rfl
  · exact List.all_iff_forall_prop.1 (show "CN=".toList.all (·.val < 128) by decide) c hc
  · decide
  · exact hdigits c (guid.mem_digits c hc)
  · decide

/-- The GUID comes out as it was just if its digits are in upper case. -/
theorem upper_lower_guidRdn : tables.upper (tables.lower guid.rdn) = guid.rdn ↔
    ∀ c ∈ guid.text, c.isLower = false := by
  have hdigits : ∀ c ∈ "0123456789abcdefABCDEF-".toList,
      c.toLower.toUpper = c ↔ c.isLower = false := List.all_iff_forall_prop.1 (by decide)
  have hmap := @List.map_inj_left _ _ guid.rdn (fun c => c.toLower.toUpper) id
  rw [List.map_id] at hmap
  rw [CaseTables.upper_lower_of_ascii (ascii_guidRdn guid), hmap, GpoGuid.rdn]
  constructor
  · intro h c hc
    refine (hdigits c (guid.mem_digits c hc)).1 (h c ?_)
    exact List.mem_append_left _ (List.mem_append_right _ (List.mem_cons_of_mem _ hc))
  · intro h c hc
    rw [List.append_assoc, List.cons_append, List.mem_append, List.mem_cons, List.mem_append,
      List.mem_singleton] at hc
    rcases hc with hc | rfl | hc | rfl
    · exact List.all_iff_forall_prop.1
        (show "CN=".toList.all fun c => c.toLower.toUpper = c by decide) c hc
    · decide
    · exact (hdigits c (guid.mem_digits c hc)).2 (h c hc)
    · decide

theorem not_mem_rdnGpoCase {rdn : QString} (h : ',' ∉ rdn) : ',' ∉ rdnGpoCase tables rdn := by
  rw [rdnGpoCase]
  split
  · rename_i left right hsplit
    have hrdn : left ++ '=' :: right = rdn := by
      rw [← Path.intercalate_pair, ← hsplit, List.intercalate_splitOn]
    rw [← hrdn, List.mem_append, not_or, List.mem_cons, not_or] at h
    have hleft : ',' ∉ tables.upper left := by
      rw [← List.count_eq_zero, CaseTables.count_upper (by decide) (by decide)]
      exact List.count_eq_zero_of_not_mem h.1
    rw [Path.intercalate_pair, List.mem_append, not_or, List.mem_cons, not_or]
    refine ⟨hleft, by decide, ?_⟩
    split_ifs
    exacts [by decide, by decide, h.2.2]
  · exact h

/-- The components of the DN of a policy that comes out. -/
theorem splitOn_getGpoCase : (getGpoCase tables (tables.lower (gpoDn guid domain))).splitOn ',' =
    tables.upper (tables.lower guid.rdn) :: "CN=Policies".toList :: "CN=System".toList ::
      domain.rdns.map fun rdn => rdnGpoCase tables (tables.lower rdn) := by
  have hsplit : (tables.lower (gpoDn guid domain)).splitOn ',' =
      (gpoRdns guid domain).map tables.lower := by
    rw [CaseTables.splitOn_lower (by decide) (by decide), splitOn_gpoDn]
  have hcn : tables.upper (tables.lower "CN".toList) = "CN".toList := by
    rw [CaseTables.upper_lower_of_ascii (forall_mem_of_all (by decide))]
    rfl
  have hpolicies : rdnGpoCase tables (tables.lower "CN=Policies".toList) =
      "CN=Policies".toList := by
    have hlower : tables.lower "Policies".toList = "policies".toList :=
      CaseTables.lower_of_ascii (forall_mem_of_all (by decide))
    have hrdn : "CN=Policies".toList = "CN".toList ++ '=' :: "Policies".toList := rfl
    rw [hrdn, rdnGpoCase_lower (by decide) (by decide), hcn, hlower]
    rfl
  have hsystem : rdnGpoCase tables (tables.lower "CN=System".toList) = "CN=System".toList := by
    have hlower : tables.lower "System".toList = "system".toList :=
      CaseTables.lower_of_ascii (forall_mem_of_all (by decide))
    have hrdn : "CN=System".toList = "CN".toList ++ '=' :: "System".toList := rfl
    rw [hrdn, rdnGpoCase_lower (by decide) (by decide), hcn, hlower]
    rfl
  have hcase : ∀ rdn, ',' ∉ rdn → ',' ∉ tables.lower rdn := fun rdn h => by
    rwa [CaseTables.mem_lower (by decide) (by decide)]
  rw [getGpoCase, hsplit, gpoRdns, List.map_cons]
  dsimp only
  rw [List.map_cons, List.map_cons, List.map_cons, List.map_cons, hpolicies, hsystem,
    List.map_map, List.splitOn_intercalate ',' ?_ (List.cons_ne_nil _ _)]
  · rfl
  · intro rdn hrdn
    rcases List.mem_cons.1 hrdn with rfl | hrdn
    · rw [← List.count_eq_zero, CaseTables.count_upper (by decide) (by decide),
        List.count_eq_zero]
      exact hcase guid.rdn (@not_mem_gpoRdns guid domain _ List.mem_cons_self)
    rcases List.mem_cons.1 hrdn with rfl | hrdn
    · decide
    rcases List.mem_cons.1 hrdn with rfl | hrdn
    · decide
    · rcases List.mem_map.1 hrdn with ⟨rdn', hrdn', rfl⟩
      refine not_mem_rdnGpoCase (hcase rdn' (@not_mem_gpoRdns guid domain rdn' ?_))
      exact List.mem_cons_of_mem _ (List.mem_cons_of_mem _ (List.mem_cons_of_mem _ hrdn'))

/-- The DN of a policy comes out as it was just if it is spelled as the code guesses. -/
theorem getGpoCase_eq_iff : getGpoCase tables (tables.lower (gpoDn guid domain)) =
    gpoDn guid domain ↔
      (∀ c ∈ guid.text, c.isLower = false) ∧ ∀ label ∈ domain.labels, KeepsCase tables label := by
  have hsplit : getGpoCase tables (tables.lower (gpoDn guid domain)) = gpoDn guid domain ↔
      (getGpoCase tables (tables.lower (gpoDn guid domain))).splitOn ',' =
        gpoRdns guid domain := by
    constructor
    · intro h
      rw [h, splitOn_gpoDn]
    · intro h
      exact (List.intercalate_splitOn ',').symm.trans (congrArg [','].intercalate h)
  rw [hsplit, splitOn_getGpoCase, gpoRdns, List.cons_eq_cons, List.cons_eq_cons,
    List.cons_eq_cons, and_iff_right rfl, and_iff_right rfl, upper_lower_guidRdn, DomainDn.rdns,
    List.map_map]
  refine and_congr_right fun _ => List.map_inj_left.trans ?_
  exact forall₂_congr fun label hlabel => rdnGpoCase_label (domain.plain label hlabel).2

/-- Lower case undoes it, for a component, -/
theorem lower_rdnGpoCase_lower {type value : QString} (hvalue : '=' ∉ value) (htype : '=' ∉ type)
    (hascii : ∀ c ∈ type, c.val < 128) :
    tables.lower (rdnGpoCase tables (tables.lower (type ++ '=' :: value))) =
      tables.lower (type ++ '=' :: value) := by
  have hcons : ∀ text, tables.lower ('=' :: text) = '=' :: tables.lower text := fun text => by
    rw [CaseTables.lower, List.flatMap_cons,
      CaseTables.toLower_of_not_letter (by decide) (by decide)]
    rfl
  rw [rdnGpoCase_lower hvalue htype, CaseTables.lower_append, CaseTables.lower_append, hcons,
    hcons, CaseTables.lower_upper_of_ascii (CaseTables.ascii_lower hascii),
    CaseTables.lower_lower]
  split_ifs with hsystem hpolicies
  · have hlower : tables.lower "System".toList = "system".toList :=
      CaseTables.lower_of_ascii (forall_mem_of_all (by decide))
    rw [hlower, hsystem]
  · have hlower : tables.lower "Policies".toList = "policies".toList :=
      CaseTables.lower_of_ascii (forall_mem_of_all (by decide))
    rw [hlower, hpolicies]
  · rw [CaseTables.lower_lower]

/-- and for the DN of a policy. -/
theorem lower_getGpoCase : tables.lower (getGpoCase tables (tables.lower (gpoDn guid domain))) =
    tables.lower (gpoDn guid domain) := by
  have hsplit : (tables.lower (getGpoCase tables (tables.lower (gpoDn guid domain)))).splitOn ',' =
      (tables.lower (gpoDn guid domain)).splitOn ',' := by
    rw [CaseTables.splitOn_lower (by decide) (by decide), splitOn_getGpoCase,
      CaseTables.splitOn_lower (by decide) (by decide), splitOn_gpoDn, gpoRdns, List.map_cons,
      List.map_cons, List.map_cons, List.map_cons, List.map_cons, List.map_cons, List.map_map,
      CaseTables.lower_upper_of_ascii (CaseTables.ascii_lower (ascii_guidRdn guid)),
      CaseTables.lower_lower]
    refine congrArg (fun rdns => tables.lower guid.rdn :: tables.lower "CN=Policies".toList ::
      tables.lower "CN=System".toList :: rdns) (List.map_congr_left fun rdn hrdn => ?_)
    rcases List.mem_map.1 hrdn with ⟨label, hlabel, rfl⟩
    exact @lower_rdnGpoCase_lower tables "DC".toList label (domain.plain label hlabel).2
      (by decide) (forall_mem_of_all (by decide))
  have htext := congrArg [','].intercalate hsplit
  rwa [List.intercalate_splitOn, List.intercalate_splitOn] at htext

/-- The DN of a policy that is added is given back, whatever the links, just if the digits of
    its GUID are in upper case and the values of the domain are spelled as the code guesses. -/
theorem mem_getGpoList_add_iff (tables : CaseTables) (guid : GpoGuid) (domain : DomainDn) :
    (∀ (gplinkString : QString) (edits : List GplinkEdit), gpoDn guid domain ∈
      (((Gplink.ofString tables gplinkString).run tables edits).add tables
        (gpoDn guid domain)).getGpoList tables) ↔
      (∀ c ∈ guid.text, c.isLower = false) ∧ ∀ label ∈ domain.labels, KeepsCase tables label := by
  rw [← getGpoCase_eq_iff]
  constructor
  · intro h
    have hempty := h [] []
    have hlist : (((Gplink.ofString tables []).run tables []).add tables
        (gpoDn guid domain)).getGpoList tables =
          [getGpoCase tables (tables.lower (gpoDn guid domain))] := rfl
    rw [hlist, List.mem_singleton] at hempty
    exact hempty.symm
  · intro h gplinkString edits
    have hkeys := @Gplink.mem_keys_run tables _ (mem_keys_ofString tables gplinkString) edits
    exact List.mem_map.2 ⟨_, (Gplink.mem_add hkeys).2 (.inr rfl), h⟩

/-- A domain with a capital in its name. -/
def altDomain : DomainDn := ⟨["Alt".toList], List.cons_ne_nil _ _, by decide⟩

/-- The DN of a policy in a domain with a capital in its name is not given back. -/
theorem not_mem_getGpoList_add :
    ¬∀ (tables : CaseTables) (guid : GpoGuid) (domain : DomainDn) (gplinkString : QString)
      (edits : List GplinkEdit), gpoDn guid domain ∈
        (((Gplink.ofString tables gplinkString).run tables edits).add tables
          (gpoDn guid domain)).getGpoList tables := by
  intro h
  have hmem := h .ascii ⟨"6AC1786C-016F-11D2-945F-00C04FB984F9".toList,
    List.all_iff_forall_prop.1 (by decide)⟩ altDomain [] []
  revert hmem
  decide

end Admc
