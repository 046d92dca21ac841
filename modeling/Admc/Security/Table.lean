import Admc.Security.Edit

/-!
# A trustee's table of rights

The entries of a DACL for one trustee, of given flags and inherited object type,
as a table of masks (`view`). With flags that are not those of inherited
entries, the functions of the editor do on the table what the operations of
`Mask.Table` do:

* `view_removeRightBase`, `view_addRightBase`: the base functions are
  `Table.remove` and `Table.add`;
* `view_addRight`, `view_removeRight`: the edits of a right are `Table.addRight`
  and `Table.removeRight`, up to the order of the entries;
* `getRightState_view`: the non-inherited state of a right is `Table.IsSet`.
-/

namespace Admc

open Mask

/-- Where the entries of a table come from: a trustee, flags that are not those of
    an inherited entry, and an inherited object type. -/
structure Scope where
  trustee : DomSid
  flags : AceFlags
  inheritedObjectType : Option Guid
  not_inherited : bitmaskIsSet flags secAceFlagInheritedAce = false

namespace Scope

variable (sc : Scope)

/-- The entry is one of the scope, on the side `s` and of the object type `o`. -/
def Holds (s : Bool) (o : Option Guid) (ace : SecurityAce) : Prop :=
  ace.side = some s ∧ ace.flags = sc.flags ∧ ace.trustee = sc.trustee ∧
    ace.inheritedObjectType = sc.inheritedObjectType ∧ ace.objectType = o

instance (s : Bool) (o : Option Guid) (ace : SecurityAce) : Decidable (sc.Holds s o ace) :=
  inferInstanceAs (Decidable (_ ∧ _))

/-- The right has the flags and the inherited object type of the scope. -/
def Covers (right : SecurityRight) : Prop :=
  right.flags = sc.flags ∧ right.inheritedObjectType = sc.inheritedObjectType

theorem covers_appliedTo (right : SecurityRight) :
    sc.Covers (right.appliedTo sc.flags sc.inheritedObjectType) := ⟨rfl, rfl⟩

/-- The table of the entries of a list. -/
def viewAces (aces : List SecurityAce) : Table Guid 32 := fun s o =>
  (aces.filter fun ace => sc.Holds s o ace).map SecurityAce.accessMask

/-- The table of the entries of a descriptor. -/
def view (sd : SecurityDescriptor) : Table Guid 32 := sc.viewAces sd.aces

variable {sc}

theorem not_inheritedInheritable {flags : AceFlags}
    (h : bitmaskIsSet flags secAceFlagInheritedAce = false) :
    ¬SecurityAce.IsInheritedInheritable flags := fun hi =>
  Bool.eq_false_iff.1 h (bitmaskIsSet_iff.2 ((bitmaskIsSet_iff.1 hi).trans (by decide)))

/-- The entries the edits of a right of the scope match are those of the table. -/
theorem editMatch_iff_holds {right : SecurityRight} (hc : sc.Covers right) {ace : SecurityAce}
    {s : Bool} :
    aceMatchWithoutAccessMask ace sc.trustee right s editMatchFlags = true ↔
      sc.Holds s right.objectType ace := by
  rw [editMatch_iff, Holds, ← hc.1, ← hc.2]
  refine and_congr_right' (and_congr_right fun hf => and_congr_right' (and_congr_left' ?_))
  refine or_iff_left (hf ▸ not_inheritedInheritable ?_)
  exact hc.1 ▸ sc.not_inherited

theorem Holds.unique {s s' : Bool} {o o' : Option Guid} {ace : SecurityAce}
    (h : sc.Holds s o ace) (h' : sc.Holds s' o' ace) : s' = s ∧ o' = o :=
  ⟨Option.some.inj (h'.1.symm.trans h.1), h'.2.2.2.2.symm.trans h.2.2.2.2⟩

@[simp] theorem holds_setMask {s : Bool} {o : Option Guid} {ace : SecurityAce} {m : AccessMask} :
    sc.Holds s o { ace with accessMask := m } ↔ sc.Holds s o ace := Iff.rfl

theorem mem_view {sd : SecurityDescriptor} {s : Bool} {o : Option Guid} {M : AccessMask} :
    M ∈ sc.view sd s o ↔ ∃ ace ∈ sd.aces, sc.Holds s o ace ∧ ace.accessMask = M := by
  simp [view, viewAces, and_assoc]

/-! ## The base functions -/

/-- What is taken out of an entry, from the mask removed and the mask of the entry. -/
def unsetMask (m M : AccessMask) : AccessMask := getMaskToUnset M m

/-- The right in the table that a right of the editor is. -/
def key (right : SecurityRight) : Table.Right Guid 32 :=
  (right.objectType, adSecurityMapAccessMask right.accessMask)

@[simp] theorem key_fst (right : SecurityRight) : (key right).1 = right.objectType := rfl

@[simp] theorem key_snd (right : SecurityRight) :
    (key right).2 = adSecurityMapAccessMask right.accessMask := rfl

@[simp] theorem key_appliedTo (right : SecurityRight) (flags : AceFlags)
    (inheritedObjectType : Option Guid) :
    key (right.appliedTo flags inheritedObjectType) = key right := rfl

theorem viewAces_cons_of_holds {ace : SecurityAce} {s : Bool} {o : Option Guid}
    (h : sc.Holds s o ace) (aces : List SecurityAce) :
    sc.viewAces (ace :: aces) s o = ace.accessMask :: sc.viewAces aces s o := by
  simp [viewAces, h]

theorem viewAces_cons_of_not_holds {ace : SecurityAce} {s : Bool} {o : Option Guid}
    (h : ¬sc.Holds s o ace) (aces : List SecurityAce) :
    sc.viewAces (ace :: aces) s o = sc.viewAces aces s o := by
  simp [viewAces, h]

/-- What becomes of an entry that matches is what becomes of its mask. -/
theorem removeAccessRightsStep_of_holds {right : SecurityRight} (hc : sc.Covers right) {s : Bool}
    {ace : SecurityAce} (h : sc.Holds s right.objectType ace) :
    removeAccessRightsStep sc.trustee right s ace =
      (strip unsetMask (key right).2 ace.accessMask).map fun m => { ace with accessMask := m } := by
  rw [removeAccessRightsStep]
  rw [(editMatch_iff_holds hc).2 h, key_snd]
  simp only [Bool.true_and, bitmaskIsSet_iff, aceUnsetMask, bitmaskSet, Bool.false_eq_true,
    if_false]
  by_cases hi : Includes ace.accessMask (adSecurityMapAccessMask right.accessMask)
  · rw [strip_of_includes hi, if_pos hi]
    rw [unsetMask]
    split_ifs <;> rfl
  · rw [strip_of_not_includes hi, if_neg hi]
    rfl

theorem removeAccessRightsStep_of_not_holds {right : SecurityRight} (hc : sc.Covers right)
    {s : Bool} {ace : SecurityAce} (h : ¬sc.Holds s right.objectType ace) :
    removeAccessRightsStep sc.trustee right s ace = some ace := by
  rw [removeAccessRightsStep, Bool.eq_false_iff.2 fun hm => h ((editMatch_iff_holds hc).1 hm)]
  rfl

theorem viewAces_remove {right : SecurityRight} (hc : sc.Covers right) (s : Bool)
    (aces : List SecurityAce) :
    sc.viewAces (aces.filterMap (removeAccessRightsStep sc.trustee right s)) =
      (sc.viewAces aces).remove unsetMask s (key right).1 (key right).2 := by
  funext s' o'
  rw [Table.remove, Table.modify, key_fst]
  induction aces with
  | nil => split_ifs <;> rfl
  | cons ace aces ih =>
    by_cases hm : sc.Holds s right.objectType ace
    · -- the entry is one that the right is removed from
      rw [List.filterMap_cons, removeAccessRightsStep_of_holds hc hm]
      by_cases hso : s' = s ∧ o' = right.objectType
      · rw [if_pos hso] at ih ⊢
        obtain ⟨rfl, rfl⟩ := hso
        rw [viewAces_cons_of_holds hm, List.filterMap_cons]
        cases strip unsetMask (key right).2 ace.accessMask with
        | none => exact ih
        | some m => exact (viewAces_cons_of_holds (holds_setMask.2 hm) _).trans (congrArg _ ih)
      · rw [if_neg hso] at ih ⊢
        have hn : ¬sc.Holds s' o' ace := fun h => hso (hm.unique h)
        rw [viewAces_cons_of_not_holds hn]
        cases strip unsetMask (key right).2 ace.accessMask with
        | none => exact ih
        | some m => exact (viewAces_cons_of_not_holds (mt holds_setMask.1 hn) _).trans ih
    · rw [List.filterMap_cons, removeAccessRightsStep_of_not_holds hc hm]
      by_cases hh : sc.Holds s' o' ace
      · have hso : ¬(s' = s ∧ o' = right.objectType) := fun h => hm (h.1 ▸ h.2 ▸ hh)
        rw [if_neg hso] at ih ⊢
        rw [viewAces_cons_of_holds hh, viewAces_cons_of_holds hh, ih]
      · rw [viewAces_cons_of_not_holds hh, viewAces_cons_of_not_holds hh, ih]

theorem holds_makeSecurityAce {right : SecurityRight} (hc : sc.Covers right) (rt : Runtime)
    (m : AccessMask) (s : Bool) :
    sc.Holds s right.objectType (makeSecurityAce rt sc.trustee right m s) := by
  obtain ⟨hs, hf, ht, hi, ho⟩ := makeSecurityAce_parts rt sc.trustee right m s
  exact ⟨hs, hf.trans hc.1, ht, hi.trans hc.2, ho⟩

theorem viewAces_add {right : SecurityRight} (hc : sc.Covers right) (rt : Runtime) (s : Bool)
    (aces : List SecurityAce) :
    sc.viewAces (addRightAces rt sc.trustee right s aces) =
      (sc.viewAces aces).add s (key right).1 (key right).2 := by
  funext s' o'
  rw [Table.add, Table.modify, key_fst]
  induction aces with
  | nil =>
    have hh := holds_makeSecurityAce hc rt (key right).2 s
    by_cases hso : s' = s ∧ o' = right.objectType
    · rw [if_pos hso]
      obtain ⟨rfl, rfl⟩ := hso
      exact viewAces_cons_of_holds hh []
    · rw [if_neg hso]
      exact viewAces_cons_of_not_holds (fun h => hso (hh.unique h)) []
  | cons ace aces ih =>
    rw [addRightAces]
    by_cases hm : sc.Holds s right.objectType ace
    · rw [if_pos ((editMatch_iff_holds hc).2 hm)]
      by_cases hso : s' = s ∧ o' = right.objectType
      · rw [if_pos hso]
        obtain ⟨rfl, rfl⟩ := hso
        rw [viewAces_cons_of_holds hm]
        exact viewAces_cons_of_holds (holds_setMask.2 hm) aces
      · have hn : ¬sc.Holds s' o' ace := fun h => hso (hm.unique h)
        rw [if_neg hso, viewAces_cons_of_not_holds hn]
        exact viewAces_cons_of_not_holds (mt holds_setMask.1 hn) aces
    · rw [if_neg fun h => hm ((editMatch_iff_holds hc).1 h)]
      by_cases hh : sc.Holds s' o' ace
      · have hso : ¬(s' = s ∧ o' = right.objectType) := fun h => hm (h.1 ▸ h.2 ▸ hh)
        rw [if_neg hso] at ih ⊢
        rw [viewAces_cons_of_holds hh, viewAces_cons_of_holds hh, ih]
      · rw [viewAces_cons_of_not_holds hh, viewAces_cons_of_not_holds hh, ih]

variable {g : Globals} {sd sd' : SecurityDescriptor} {s : Bool}

theorem view_removeRightBase {right : SecurityRight} (hc : sc.Covers right)
    (h : securityDescriptorRemoveRightBase sd sc.trustee right s = .ok sd') :
    sc.view sd' = (sc.view sd).remove unsetMask s (key right).1 (key right).2 := by
  obtain ⟨-, rfl⟩ := removeRightBase_eq_ok.1 h
  rw [view, aces_replaceDacl, viewAces_remove hc, view]

theorem view_addRightBase {rt : Runtime} {right : SecurityRight} (hc : sc.Covers right)
    (h : securityDescriptorAddRightBase rt sd sc.trustee right s = .ok sd') :
    sc.view sd' = (sc.view sd).add s (key right).1 (key right).2 := by
  rw [view, aces_addRightBase h, viewAces_add hc, view]

theorem view_sortDacl {rt : Runtime} (h : securityDescriptorSortDacl rt sd = .ok sd') :
    (sc.view sd).Equiv (sc.view sd') := by
  obtain ⟨dacl, hd, rfl⟩ := sortDacl_eq_ok.1 h
  intro s o
  simp only [view, viewAces, SecurityDescriptor.aces, hd]
  exact (((sortAces_perm rt dacl.aces).symm.filter _).map _)

/-! ## The state of a right -/

theorem not_inherited_of_state {ace : SecurityAce} :
    bitmaskToInheritedState ace = .no ↔ bitmaskIsSet ace.flags secAceFlagInheritedAce = false := by
  rw [bitmaskToInheritedState]
  cases bitmaskIsSet ace.flags secAceFlagInheritedAce <;> simp

/-- Entries that carry the flag of inherited ones set no non-inherited state. -/
theorem get_no_of_inherited {right : SecurityRight}
    (hf : bitmaskIsSet right.flags secAceFlagInheritedAce = true) {trustee : DomSid}
    {state : SecurityRightState}
    (h : securityDescriptorGetRightState sd trustee right = .ok state)
    (type : SecurityRightStateType) : state.get .no type = false := by
  obtain ⟨allow, rfl⟩ : ∃ allow, type = .ofAllow allow := by
    cases type
    exacts [⟨true, rfl⟩, ⟨false, rfl⟩]
  rw [Bool.eq_false_iff, Ne, getRightState_get_iff h]
  rintro ⟨ace, -, hni, hm⟩
  rw [not_inherited_of_state] at hni
  obtain ⟨-, -, hi | hfl, -⟩ := aceMatch_iff.1 hm
  · exact not_inheritedInheritable hni hi
  · rw [hfl] at hni
    exact Bool.false_ne_true (hni.symm.trans hf)

/-- The non-inherited state of a right of the scope. -/
theorem getRightState_view {right : SecurityRight} (hc : sc.Covers right)
    {state : SecurityRightState}
    (h : securityDescriptorGetRightState sd sc.trustee right = .ok state) :
    state.get .no (.ofAllow s) = true ↔ (sc.view sd).IsSet s (key right).1 (key right).2 := by
  have hstate : ∀ ace, bitmaskToInheritedState ace = .no ∧ aceMatch ace sc.trustee right s = true ↔
      (sc.Holds s none ace ∨ sc.Holds s right.objectType ace) ∧
        Includes ace.accessMask (key right).2 := by
    intro ace
    rw [not_inherited_of_state, aceMatch_iff, bitmaskIsSet_iff, hc.1, hc.2]
    simp only [Holds, key]
    constructor
    · rintro ⟨hni, hm, hs, hf, ht, hi, ho⟩
      have hne := not_inheritedInheritable hni
      have hf := hf.resolve_left hne
      have hi := hi.resolve_right hne
      exact ⟨ho.imp (⟨hs, hf, ht, hi, ·⟩) (⟨hs, hf, ht, hi, ·⟩), hm⟩
    · rintro ⟨⟨hs, hf, ht, hi, ho⟩ | ⟨hs, hf, ht, hi, ho⟩, hm⟩
      · exact ⟨hf ▸ sc.not_inherited, hm, hs, .inr hf, ht, .inl hi, .inl ho⟩
      · exact ⟨hf ▸ sc.not_inherited, hm, hs, .inr hf, ht, .inl hi, .inr ho⟩
  rw [getRightState_get_iff h]
  simp only [hstate, Table.IsSet, mem_view]
  constructor
  · rintro ⟨ace, ha, hh, hm⟩
    exact ⟨_, hh.imp (⟨ace, ha, ·, rfl⟩) (⟨ace, ha, ·, rfl⟩), hm⟩
  · rintro ⟨_, ⟨ace, ha, hh, rfl⟩ | ⟨ace, ha, hh, rfl⟩, hm⟩
    · exact ⟨ace, ha, .inl hh, hm⟩
    · exact ⟨ace, ha, .inr hh, hm⟩

theorem isSuperiorSet_view {right : SecurityRight} (hc : sc.Covers right) {b : Bool}
    (h : isSuperiorSet sd sc.trustee right s = .ok b) :
    b = true ↔ (sc.view sd).IsSet s (key right).1 (key right).2 := by
  rw [isSuperiorSet, Except.bind_eq_ok] at h
  obtain ⟨state, hstate, hb⟩ := h
  rw [← getRightState_view hc hstate, Except.pure_eq_ok.1 hb]

/-! ## The edits -/

theorem view_addRightListBase {rights : List SecurityRight} (hc : ∀ right ∈ rights, sc.Covers right)
    (h : addRightListBase g sc.trustee s rights sd = .ok sd') :
    sc.view sd' = (sc.view sd).addAll s (rights.map key) := by
  rw [Table.addAll, List.foldl_map]
  refine List.foldlM_refines (R := fun sd T => sc.view sd = T) ?_ rfl h
  rintro sd sd' _ right hr h rfl
  exact view_addRightBase (hc right hr) h

theorem view_removeRightListBase {rights : List SecurityRight}
    (hc : ∀ right ∈ rights, sc.Covers right)
    (h : removeRightListBase sc.trustee s rights sd = .ok sd') :
    sc.view sd' = (sc.view sd).removeAll unsetMask s (rights.map key) := by
  rw [Table.removeAll, List.foldl_map]
  refine List.foldlM_refines (R := fun sd T => sc.view sd = T) ?_ rfl h
  rintro sd sd' _ right hr h rfl
  exact view_removeRightBase (hc right hr) h

theorem Covers.superior {right superior : SecurityRight} (hc : sc.Covers right)
    (h : superior ∈ adSecurityGetSuperiorRightList right) : sc.Covers superior := by
  rw [eq_withMask_of_mem_superior h]
  exact hc

theorem Covers.subordinate {rightList : List SecurityRight} {right subordinate : SecurityRight}
    (hc : sc.Covers right) (h : subordinate ∈ subordinatesIn rightList right) :
    sc.Covers subordinate := by
  obtain ⟨classRight, -, -, rfl⟩ := mem_subordinatesIn.1 h
  exact hc

/-- The superiors of a right, as the table breaks them up. -/
def superiorKeys (rightList : List SecurityRight) (right : SecurityRight) :
    List (AccessMask × List (Table.Right Guid 32)) :=
  (adSecurityGetSuperiorRightList right).map fun superior =>
    ((key superior).2, (subordinatesIn rightList superior).map key)

/-- The subordinates of a right, which it has if it has no object type. -/
def subordinateKeys (rightList : List SecurityRight) (right : SecurityRight) :
    List (Table.Right Guid 32) :=
  (if right.objectType = none then subordinatesIn rightList right else []).map key

variable {classList : List String} {rightList : List SecurityRight} {right : SecurityRight}

theorem view_breakUpSuperior (hR : adSecurityGetRightListForClass g classList = .ok rightList)
    (hc : sc.Covers right) (ho : right.objectType = none)
    (h : breakUpSuperior g classList sc.trustee s sd right = .ok sd') :
    sc.view sd' = (sc.view sd).breakUp unsetMask s (key right).2
      ((subordinatesIn rightList right).map key) := by
  simp only [breakUpSuperior, Except.bind_eq_ok] at h
  obtain ⟨b, hb, h⟩ := h
  have hset := isSuperiorSet_view hc hb
  rw [key_fst, ho] at hset
  rw [Table.breakUp]
  cases b with
  | false =>
    rw [if_neg fun hs => Bool.false_ne_true (hset.2 hs), Except.pure_eq_ok.1 h]
  | true =>
    simp only [Bool.not_true, Bool.false_eq_true, if_false, Except.bind_eq_ok,
      getSubordinateRightList_eq_ok hR, if_pos ho] at h
    obtain ⟨sd₁, h₁, _, rfl, h₂⟩ := h
    rw [if_pos (hset.1 rfl), view_addRightListBase (fun _ => hc.subordinate) h₂,
      view_removeRightBase hc h₁, key_fst, ho]

theorem view_breakUpSuperiors (hR : adSecurityGetRightListForClass g classList = .ok rightList)
    (hc : sc.Covers right)
    (h : (adSecurityGetSuperiorRightList right).foldlM
      (breakUpSuperior g classList sc.trustee s) sd = .ok sd') :
    sc.view sd' = (sc.view sd).breakUpAll unsetMask s (superiorKeys rightList right) := by
  rw [Table.breakUpAll, superiorKeys, List.foldl_map]
  refine List.foldlM_refines (R := fun sd T => sc.view sd = T) ?_ rfl h
  rintro sd sd' _ superior hs h rfl
  refine view_breakUpSuperior hR (hc.superior hs) ?_ h
  rw [eq_withMask_of_mem_superior hs]
  rfl

/-- Adding a right, on the table. -/
theorem view_addRight (hR : adSecurityGetRightListForClass g classList = .ok rightList)
    (hc : sc.Covers right)
    (h : securityDescriptorAddRight g sd classList sc.trustee right s = .ok sd') :
    Table.Equiv ((sc.view sd).addRight unsetMask s (superiorKeys rightList right) (key right)
      (subordinateKeys rightList right)) (sc.view sd') := by
  simp only [securityDescriptorAddRight, Except.bind_eq_ok, getSubordinateRightList_eq_ok hR] at h
  obtain ⟨sd₁, h₁, subs, hsubs, sd₂, h₂, sd₃, h₃, sd₄, h₄, sd₅, h₅, h₆⟩ := h
  have hcs : ∀ subordinate ∈ subs, sc.Covers subordinate := by
    intro subordinate hmem
    rw [← hsubs] at hmem
    split_ifs at hmem
    exacts [hc.subordinate hmem, absurd hmem List.not_mem_nil]
  have hsort := @view_sortDacl sc _ _ _ h₆
  rwa [view_addRightBase hc h₅, view_removeRightListBase hcs h₄, view_removeRightBase hc h₃,
    view_removeRightListBase hcs h₂, view_breakUpSuperiors hR hc h₁, ← hsubs] at hsort

/-- Removing a right, on the table. -/
theorem view_removeRight (hR : adSecurityGetRightListForClass g classList = .ok rightList)
    (hc : sc.Covers right)
    (h : securityDescriptorRemoveRight g sd classList sc.trustee right s = .ok sd') :
    Table.Equiv ((sc.view sd).removeRight unsetMask s (superiorKeys rightList right) (key right)
      (subordinateKeys rightList right)) (sc.view sd') := by
  simp only [securityDescriptorRemoveRight, Except.bind_eq_ok,
    getSubordinateRightList_eq_ok hR] at h
  obtain ⟨sd₁, h₁, sd₂, h₂, subs, hsubs, sd₃, h₃, h₄⟩ := h
  have hcs : ∀ subordinate ∈ subs, sc.Covers subordinate := by
    intro subordinate hmem
    rw [← hsubs] at hmem
    split_ifs at hmem
    exacts [hc.subordinate hmem, absurd hmem List.not_mem_nil]
  have hsort := @view_sortDacl sc _ _ _ h₄
  rwa [view_removeRightListBase hcs h₃, view_removeRightBase hc h₂,
    view_breakUpSuperiors hR hc h₁, ← hsubs] at hsort

end Scope

end Admc
