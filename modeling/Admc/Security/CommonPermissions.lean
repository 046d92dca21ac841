import Admc.Security.Permissions

/-!
# The widget of the common permissions

When a trustee is selected, the rows of the rights are updated. A right for which neither check
box is checked is added if all its subordinates are set. The check box is checked then, which
is taken for a click on it: the right is added again, and the rows are updated from within.

The loop over the subordinates looks at the beginning of a turn only whether both sides have
been ruled out, so that after the last turn it goes on to deny the right.

* `updatePermissions_updates`: what the calls do, all in all, whatever their depth;
* `updatePermissions_depth`: they are nested five levels deep at most;
* `viewsOnly_iff`: the widget adds rights only where all subordinates are set exactly when
  none is denied for the last one alone.
-/

namespace Admc

/-! ## The widget -/

/-- A row of the rights, with its check boxes. -/
structure PermissionRow where
  right : SecurityRight
  allowed : Bool
  denied : Bool
  deriving DecidableEq

/-- `CommonPermissionsWidget`, with the keys of `object_typed_superior_indexes` as they come. -/
structure CommonPermissionsWidget where
  sd : SecurityDescriptor
  trustee : DomSid
  appliableClass : String
  rightsModel : List PermissionRow
  objectTypedSuperiors : List AccessMask

namespace CommonPermissionsWidget

/-- `object_typed_masks`. -/
def objectTypedMasks : List AccessMask :=
  [secAdsCreateChild, secAdsDeleteChild, secAdsReadProp, secAdsWriteProp, secAdsControlAccess]

/-- `PermissionsWidget::update_row_check_state`. -/
def updateRowCheckState (sd : SecurityDescriptor) (trustee : DomSid) (row : PermissionRow) :
    Except Fault PermissionRow := do
  let state ← securityDescriptorGetRightState sd trustee row.right
  return { row with
    allowed := state.get .no .allow || state.get .yes .allow
    denied := state.get .no .deny || state.get .yes .deny }

/-- `PermissionsWidget::update_permissions`. -/
def updateRows (w : CommonPermissionsWidget) : Except Fault CommonPermissionsWidget := do
  let rightsModel ← w.rightsModel.mapM (updateRowCheckState w.sd w.trustee)
  return { w with rightsModel := rightsModel }

/-- The row of a right. -/
def row? (w : CommonPermissionsWidget) (accessMask : AccessMask) : Option PermissionRow :=
  w.rightsModel.find? fun row => row.right.accessMask = accessMask

/-- A check box is checked. -/
def setChecked (w : CommonPermissionsWidget) (accessMask : AccessMask) (allow : Bool) :
    CommonPermissionsWidget :=
  { w with
    rightsModel := w.rightsModel.map fun row =>
      if row.right.accessMask ≠ accessMask then row
      else if allow then { row with allowed := true } else { row with denied := true } }

/-- What becomes of the flag for a type when the state of a subordinate is looked at. -/
def keepsAllSet (state : SecurityRightState) (type : SecurityRightStateType) (allSet : Bool) :
    Bool :=
  if state.get .yes type then false else if !state.get .no type then false else allSet

/-- The loop of `CommonPermissionsWidget::update_object_typed_permission` over the
    subordinates: the two flags, unless it returns. -/
def allSubordinatesSet (sd : SecurityDescriptor) (trustee : DomSid) :
    List SecurityRight → Bool → Bool → Except Fault (Option (Bool × Bool))
  | [], allAllow, allDeny => return some (allAllow, allDeny)
  | right :: rights, allAllow, allDeny =>
    if !allAllow && !allDeny then return none
    else do
      let state ← securityDescriptorGetRightState sd trustee right
      allSubordinatesSet sd trustee rights (keepsAllSet state .allow allAllow)
        (keepsAllSet state .deny allDeny)

variable (g : Globals)

/-- `PermissionsWidget::on_item_changed`, for a check box that has been checked, with
    `update_permissions`. -/
def onItemChecked (update : CommonPermissionsWidget → Except Fault CommonPermissionsWidget)
    (w : CommonPermissionsWidget) (right : SecurityRight) (allow : Bool) :
    Except Fault CommonPermissionsWidget := do
  let sd ← securityDescriptorAddRight g w.sd [w.appliableClass] w.trustee right allow
  update { w with sd := sd }

/-- `CommonPermissionsWidget::update_object_typed_permission`. -/
def updateObjectTypedPermission
    (update : CommonPermissionsWidget → Except Fault CommonPermissionsWidget)
    (w : CommonPermissionsWidget) (superiorRight : SecurityRight) :
    Except Fault CommonPermissionsWidget := do
  let subordinates ← adSecurityGetSubordinateRightList g superiorRight [w.appliableClass]
  match ← allSubordinatesSet w.sd w.trustee subordinates true true with
  | none => return w
  | some (allAllow, allDeny) =>
    if allAllow && allDeny then return w
    else
      let sd ← securityDescriptorAddRight g w.sd [w.appliableClass] w.trustee superiorRight allAllow
      let state ← securityDescriptorGetRightState sd w.trustee superiorRight
      let w := { w with sd := sd }
      if state.get .no (.ofAllow allAllow) then
        onItemChecked g update (w.setChecked superiorRight.accessMask allAllow) superiorRight
          allAllow
      else return w

/-- The body of the loop of `CommonPermissionsWidget::update_permissions`. -/
def updateSuperior (update : CommonPermissionsWidget → Except Fault CommonPermissionsWidget)
    (w : CommonPermissionsWidget) (accessMask : AccessMask) :
    Except Fault CommonPermissionsWidget :=
  match w.row? accessMask with
  | none => return w
  | some row =>
    if !row.allowed && !row.denied then updateObjectTypedPermission g update w row.right
    else return w

/-- `CommonPermissionsWidget::update_permissions`, but for what calls from within do. -/
def updatePermissionsWith
    (update : CommonPermissionsWidget → Except Fault CommonPermissionsWidget)
    (w : CommonPermissionsWidget) : Except Fault CommonPermissionsWidget := do
  let w ← w.updateRows
  w.objectTypedSuperiors.foldlM (updateSuperior g update) w

/-- `CommonPermissionsWidget::update_permissions`, which is called from within, through the
    signals of check boxes, to some depth. -/
def updatePermissions : ℕ → CommonPermissionsWidget → Except Fault CommonPermissionsWidget
  | 0 => updatePermissionsWith g pure
  | depth + 1 => updatePermissionsWith g (updatePermissions depth)

end CommonPermissionsWidget

/-! ## States -/

/-- The state of a right is set, by an entry that is inherited or by one that is not. -/
def HasState (aces : List SecurityAce) (trustee : DomSid) (right : SecurityRight)
    (inherited : SecurityRightStateInherited) (allow : Bool) : Prop :=
  ∃ kind bit, right.accessMask.getLsbD bit = true ∧ BitSet aces kind bit ∧
    kind.MatchesState trustee right allow ∧ (inherited = .no ↔ ¬kind.IsInherited)

section
variable {aces aces' : List SecurityAce} {sd sd' : SecurityDescriptor} {trustee : DomSid}
  {right : SecurityRight} {inherited : SecurityRightStateInherited} {allow : Bool} {i : ℕ}

/-- The state of a right of one bit. -/
theorem get_iff_hasState (hbit : right.IsBit i) {state : SecurityRightState}
    (h : securityDescriptorGetRightState sd trustee right = .ok state) :
    state.get inherited (.ofAllow allow) = true ↔
      HasState sd.aces trustee right inherited allow := by
  have hinherited : ∀ ace, bitmaskToInheritedState ace = inherited ↔
      (inherited = .no ↔ ¬ace.kind.IsInherited) := by
    intro ace
    rw [← bitmaskToInheritedState_kind]
    cases bitmaskToInheritedState ace <;> cases inherited <;> simp
  rw [getRightState_get_iff h]
  simp only [aceMatch_kind, hinherited, hbit.map_eq, hbit.isSet_iff]
  constructor
  · rintro ⟨ace, hmem, hinherited, hset, hmatch⟩
    exact ⟨ace.kind, i, hbit.getLsbD_iff.2 rfl, ⟨ace, hmem, rfl, hset⟩, hmatch, hinherited⟩
  · rintro ⟨_, bit, hmask, ⟨ace, hmem, rfl, hset⟩, hmatch, hinherited⟩
    exact ⟨ace, hmem, hinherited, hbit.getLsbD_iff.1 hmask ▸ hset, hmatch⟩

/-- The state of a right depends on its own bits only. -/
theorem hasState_congr
    (h : ∀ kind bit, right.accessMask.getLsbD bit = true →
      kind.MatchesState trustee right allow → (inherited = .no ↔ ¬kind.IsInherited) →
      (BitSet aces' kind bit ↔ BitSet aces kind bit)) :
    HasState aces' trustee right inherited allow ↔ HasState aces trustee right inherited allow :=
  exists_congr fun kind => exists_congr fun bit => and_congr_right fun hmask =>
    and_congr_left fun hmatch => h kind bit hmask hmatch.1 hmatch.2

end

/-! ## The loop over the subordinates -/

/-- A right is set on a side, and not by an inherited entry. -/
def IsSetAlone (aces : List SecurityAce) (trustee : DomSid) (right : SecurityRight)
    (allow : Bool) : Prop :=
  HasState aces trustee right .no allow ∧ ¬HasState aces trustee right .yes allow

/-- The last one of the subordinates rules out what the others have not ruled out. -/
def RuledOutLast (aces : List SecurityAce) (trustee : DomSid) (subordinates : List SecurityRight) :
    Prop :=
  (∃ allow, ∀ right ∈ subordinates.dropLast, IsSetAlone aces trustee right allow) ∧
    ∀ allow, ¬∀ right ∈ subordinates, IsSetAlone aces trustee right allow

/-- The side on which a superior is added: that of allowing if all its subordinates are set
    there, and that of denying if they are set on that side or both are ruled out by the last
    one. -/
def Decides (aces : List SecurityAce) (trustee : DomSid) (subordinates : List SecurityRight)
    (allow : Bool) : Prop :=
  if allow then
    (∀ right ∈ subordinates, IsSetAlone aces trustee right true) ∧
      ¬∀ right ∈ subordinates, IsSetAlone aces trustee right false
  else
    (¬∀ right ∈ subordinates, IsSetAlone aces trustee right true) ∧
      ((∀ right ∈ subordinates, IsSetAlone aces trustee right false) ∨
        RuledOutLast aces trustee subordinates)

section
variable {aces aces' : List SecurityAce} {sd : SecurityDescriptor} {trustee : DomSid}
  {right : SecurityRight} {subordinates : List SecurityRight} {allow : Bool} {i : ℕ}

open CommonPermissionsWidget

theorem keepsAllSet_iff (hbit : right.IsBit i) {state : SecurityRightState}
    (h : securityDescriptorGetRightState sd trustee right = .ok state) {allSet : Bool} :
    keepsAllSet state (.ofAllow allow) allSet = true ↔
      allSet = true ∧ IsSetAlone sd.aces trustee right allow := by
  have hno := @get_iff_hasState sd trustee right .no allow i hbit state h
  have hyes := @get_iff_hasState sd trustee right .yes allow i hbit state h
  rw [IsSetAlone, ← hno, ← hyes, keepsAllSet]
  cases state.get .yes (.ofAllow allow) <;> cases state.get .no (.ofAllow allow) <;> simp

/-- The flag for a side. -/
def flagFor (flags : Bool × Bool) (allow : Bool) : Bool := if allow then flags.1 else flags.2

/-- What the loop gives from some flags: either both sides are ruled out before the last turn,
    or the flags for the sides on which all subordinates are set are left. -/
def LoopGives (aces : List SecurityAce) (trustee : DomSid) (subordinates : List SecurityRight)
    (flags : Bool × Bool) : Option (Bool × Bool) → Prop
  | none => subordinates ≠ [] ∧ ∀ allow, ¬(flagFor flags allow = true ∧
    ∀ right ∈ subordinates.dropLast, IsSetAlone aces trustee right allow)
  | some flags' =>
    (∀ allow, flagFor flags' allow = true ↔
      flagFor flags allow = true ∧ ∀ right ∈ subordinates, IsSetAlone aces trustee right allow) ∧
    (subordinates = [] ∨ ∃ allow, flagFor flags allow = true ∧
      ∀ right ∈ subordinates.dropLast, IsSetAlone aces trustee right allow)

theorem loopGives (hbits : ∀ right ∈ subordinates, right.IsBit i) {flags : Bool × Bool}
    {result : Option (Bool × Bool)}
    (h : allSubordinatesSet sd trustee subordinates flags.1 flags.2 = .ok result) :
    LoopGives sd.aces trustee subordinates flags result := by
  induction subordinates generalizing flags with
  | nil =>
    obtain rfl := Except.pure_eq_ok.1 h
    exact ⟨fun allow => by simp, .inl rfl⟩
  | cons right rights ih =>
    rw [List.forall_mem_cons] at hbits
    rw [allSubordinatesSet] at h
    split_ifs at h with hnone
    · -- both sides have been ruled out
      obtain rfl := Except.pure_eq_ok.1 h
      refine ⟨List.cons_ne_nil _ _, fun allow hflag => ?_⟩
      have hfalse : flagFor flags allow = false := by
        rw [flagFor]
        cases allow <;> simp_all
      exact Bool.false_ne_true (hfalse.symm.trans hflag.1)
    · obtain ⟨state, hstate, h⟩ := Except.bind_eq_ok.1 h
      set flags' := (keepsAllSet state .allow flags.1, keepsAllSet state .deny flags.2)
      have hturn : ∀ allow, flagFor flags' allow = true ↔
          flagFor flags allow = true ∧ IsSetAlone sd.aces trustee right allow := by
        intro allow
        rw [← keepsAllSet_iff hbits.1 hstate]
        cases allow <;> rfl
      have hrest := @ih hbits.2 flags' h
      obtain ⟨allow, hallow⟩ : ∃ allow, flagFor flags allow = true := by
        by_contra hno
        refine hnone ?_
        have hallow : flagFor flags true ≠ true := fun h => hno ⟨true, h⟩
        have hdeny : flagFor flags false ≠ true := fun h => hno ⟨false, h⟩
        rw [flagFor] at hallow hdeny
        simp_all
      cases rights with
      | nil =>
        -- the last turn
        obtain rfl := Except.pure_eq_ok.1 h
        refine ⟨fun allow => ?_, .inr ⟨allow, hallow, nofun⟩⟩
        rw [hturn, List.forall_mem_singleton]
      | cons right' rights =>
        rw [LoopGives.eq_def] at hrest ⊢
        rw [List.dropLast_cons_cons]
        cases result with
        | none =>
          refine ⟨List.cons_ne_nil _ _, fun allow hflag => hrest.2 allow ?_⟩
          rw [List.forall_mem_cons] at hflag
          exact ⟨(hturn allow).2 ⟨hflag.1, hflag.2.1⟩, hflag.2.2⟩
        | some result =>
          obtain ⟨hflags, hsome⟩ := hrest
          refine ⟨fun allow => ?_, .inr ?_⟩
          · rw [hflags, hturn, and_assoc]
            refine and_congr_right fun _ => ?_
            rw [@List.forall_mem_cons _ _ right]
          · obtain ⟨allow, hflag, hall⟩ := hsome.resolve_left (List.cons_ne_nil _ _)
            obtain ⟨hflag, hright⟩ := (hturn allow).1 hflag
            exact ⟨allow, hflag, List.forall_mem_cons.2 ⟨hright, hall⟩⟩

/-- A superior is added on the side that is decided, if any is. -/
theorem decides_iff (hbits : ∀ right ∈ subordinates, right.IsBit i)
    {result : Option (Bool × Bool)}
    (h : allSubordinatesSet sd trustee subordinates true true = .ok result) :
    Decides sd.aces trustee subordinates allow ↔
      ∃ allDeny, result = some (allow, allDeny) ∧ ¬(allow && allDeny) = true := by
  have hgives := @loopGives sd trustee subordinates i hbits (true, true) result h
  have htrue : ∀ allow, flagFor (true, true) allow = true := by decide
  cases result with
  | none =>
    -- neither side is left
    refine iff_of_false (fun hdecides => ?_) fun ⟨_, hnone, _⟩ => nomatch hnone
    have hnot : ∀ allow, ¬∀ right ∈ subordinates.dropLast,
        IsSetAlone sd.aces trustee right allow := fun allow hall =>
      hgives.2 allow ⟨htrue allow, hall⟩
    have hnot' : ∀ allow, ¬∀ right ∈ subordinates, IsSetAlone sd.aces trustee right allow :=
      fun allow hall => hnot allow fun right hright => hall right (List.dropLast_subset _ hright)
    rw [Decides] at hdecides
    split_ifs at hdecides
    · exact hnot' true hdecides.1
    · rcases hdecides.2 with hall | ⟨⟨allow, hall⟩, -⟩
      · exact hnot' false hall
      · exact hnot allow hall
  | some flags =>
    obtain ⟨allAllow, allDeny⟩ := flags
    obtain ⟨hflags, hsome⟩ := hgives
    have hallow : allAllow = true ↔
        ∀ right ∈ subordinates, IsSetAlone sd.aces trustee right true := by
      have hflag := hflags true
      rwa [and_iff_right (htrue true)] at hflag
    have hdeny : allDeny = true ↔
        ∀ right ∈ subordinates, IsSetAlone sd.aces trustee right false := by
      have hflag := hflags false
      rwa [and_iff_right (htrue false)] at hflag
    have hlast : allAllow = false → allDeny = false →
        RuledOutLast sd.aces trustee subordinates := by
      intro hno hno'
      have hnot : ∀ allow, ¬∀ right ∈ subordinates, IsSetAlone sd.aces trustee right allow := by
        rintro (- | -)
        · rw [← hdeny, hno']
          exact Bool.false_ne_true
        · rw [← hallow, hno]
          exact Bool.false_ne_true
      rcases hsome with rfl | ⟨allow, -, hall⟩
      · exact absurd nofun (hnot true)
      · exact ⟨⟨allow, hall⟩, hnot⟩
    rw [Decides]
    rw [← hallow, ← hdeny]
    cases allow with
    | true => cases allAllow <;> cases allDeny <;> simp
    | false =>
      cases allAllow with
      | true => simp
      | false =>
        cases allDeny with
        | true => simp
        | false => simpa using hlast rfl rfl

end

/-! ## Adding a superior -/

/-- An entry denies something to the trustee. -/
def HasDenying (aces : List SecurityAce) (trustee : DomSid) : Prop :=
  ∃ ace ∈ aces, ace.trustee = trustee ∧ ace.side = some false

instance {aces : List SecurityAce} {trustee : DomSid} : Decidable (HasDenying aces trustee) :=
  inferInstanceAs (Decidable (∃ ace ∈ aces, _))

section
variable {aces : List SecurityAce} {rt : Runtime} {sd sd' : SecurityDescriptor}
  {trustee trustee' : DomSid} {right right' : SecurityRight} {allow : Bool} {i : ℕ}

/-- A right that is denied has an entry for the trustee that denies. -/
theorem HasState.hasDenying {inherited : SecurityRightStateInherited}
    (h : HasState aces trustee right inherited false) : HasDenying aces trustee := by
  obtain ⟨_, bit, -, ⟨ace, hmem, rfl, -⟩, ⟨hside, -, htrustee, -⟩, -⟩ := h
  exact ⟨ace, hmem, htrustee, hside⟩

theorem HasDenying.of_removeRightBase (hdenying : HasDenying sd'.aces trustee')
    (h : securityDescriptorRemoveRightBase sd trustee right allow = .ok sd') :
    HasDenying sd.aces trustee' := by
  obtain ⟨-, rfl⟩ := removeRightBase_eq_ok.1 h
  rw [aces_replaceDacl] at hdenying
  obtain ⟨ace', hmem, htrustee, hside⟩ := hdenying
  obtain ⟨ace, hmem, hstep⟩ := List.mem_filterMap.1 hmem
  have hsame : ace.trustee = ace'.trustee ∧ ace.side = ace'.side := by
    rw [removeAccessRightsStep] at hstep
    dsimp only at hstep
    split_ifs at hstep <;> cases hstep <;> exact ⟨rfl, rfl⟩
  exact ⟨ace, hmem, hsame.1.trans htrustee, hsame.2.trans hside⟩

theorem HasDenying.of_addRightAces
    (hdenying : HasDenying (addRightAces rt trustee right allow aces) trustee') :
    HasDenying aces trustee' ∨ trustee' = trustee ∧ allow = false := by
  induction aces with
  | nil =>
    obtain ⟨ace, hmem, htrustee, hside⟩ := hdenying
    obtain rfl := List.mem_singleton.1 hmem
    have hparts := makeSecurityAce_parts rt trustee right
      (adSecurityMapAccessMask right.accessMask) allow
    exact .inr ⟨htrustee.symm.trans hparts.2.2.1, Option.some.inj (hparts.1.symm.trans hside)⟩
  | cons ace aces ih =>
    obtain ⟨ace', hmem, hace'⟩ := hdenying
    rw [addRightAces] at hmem
    split_ifs at hmem
    · -- the mask of an entry is changed
      rcases List.mem_cons.1 hmem with rfl | hmem
      · exact .inl ⟨ace, List.mem_cons_self, hace'⟩
      · exact .inl ⟨ace', List.mem_cons_of_mem _ hmem, hace'⟩
    · rcases List.mem_cons.1 hmem with rfl | hmem
      · exact .inl ⟨ace', List.mem_cons_self, hace'⟩
      · refine (ih ⟨ace', hmem, hace'⟩).imp_left ?_
        rintro ⟨ace'', hmem, hace''⟩
        exact ⟨ace'', List.mem_cons_of_mem _ hmem, hace''⟩

theorem HasDenying.of_sortDacl (hdenying : HasDenying sd'.aces trustee')
    (h : securityDescriptorSortDacl rt sd = .ok sd') : HasDenying sd.aces trustee' := by
  obtain ⟨dacl, hd, rfl⟩ := sortDacl_eq_ok.1 h
  obtain ⟨ace, hmem, hace⟩ := hdenying
  refine ⟨ace, ?_, hace⟩
  simp only [SecurityDescriptor.aces, hd, Option.map_some, Option.getD_some] at hmem ⊢
  exact (sortAces_perm rt dacl.aces).mem_iff.1 hmem

/-! ### Single rights on all objects -/

open CommonPermissionsWidget

/-- A right on all objects, whose row may be checked for its subordinates. -/
structure SecurityRight.IsSuperior (right : SecurityRight) : Prop where
  mask_mem : right.accessMask ∈ objectTypedMasks
  objectType : right.objectType = none
  not_inherited : ¬bitmaskIsSet right.flags secAceFlagInheritedAce = true

theorem exists_isBit (h : right.accessMask ∈ objectTypedMasks) : ∃ i, right.IsBit i := by
  have hmask : ∀ m ∈ objectTypedMasks, ∃ i < 32, m = BitVec.twoPow 32 i := by
    simp only [objectTypedMasks, List.forall_mem_cons]
    exact ⟨⟨0, by decide⟩, ⟨1, by decide⟩, ⟨4, by decide⟩, ⟨5, by decide⟩, ⟨8, by decide⟩, nofun⟩
  exact hmask _ h

/-- A single right has no superiors, and subordinates of its own mask only. -/
theorem SecurityRight.IsSuperior.relations (h : right.IsSuperior) :
    adSecurityGetSuperiorRightList right = [] ∧ ∀ {g classList subordinates},
      adSecurityGetSubordinateRightList g right classList = .ok subordinates →
      ∀ subordinate ∈ subordinates, subordinate.accessMask = right.accessMask ∧
        subordinate.flags = right.flags := by
  have hgeneric : ∀ m ∈ objectTypedMasks, m ≠ secAdsGenericRead ∧ m ≠ secAdsGenericWrite ∧
      ∀ m' present, isSubordinateRight m m' present = true → m' = m := by
    simp only [objectTypedMasks, List.forall_mem_cons]
    refine ⟨?_, ?_, ?_, ?_, ?_, nofun⟩
    all_goals
      refine ⟨by decide, by decide, fun m' present h => ?_⟩
      rw [isSubordinateRight] at h
      simp +decide only [if_false, if_true] at h
      exact (of_decide_eq_true h).1
  obtain ⟨hread, hwrite, hsubordinate⟩ := hgeneric _ h.mask_mem
  constructor
  · simp [adSecurityGetSuperiorRightList, h.objectType, hread, hwrite]
  · intro g classList subordinates hlist subordinate hmem
    obtain ⟨hsome, -⟩ | ⟨-, rightList, -, rfl⟩ := getSubordinateRightList_cases hlist
    · exact absurd h.objectType hsome
    · obtain ⟨classRight, -, hmask, rfl⟩ := mem_subordinatesIn.1 hmem
      exact ⟨hsubordinate _ _ hmask, rfl⟩

/-- Entries that an edit of the right may change. -/
def AceKind.IsOf (kind : AceKind) (bit : ℕ) (trustee : DomSid) (right : SecurityRight) : Prop :=
  right.accessMask.getLsbD bit = true ∧ kind.trustee = trustee ∧ kind.flags = right.flags

/-- Removing rights of the mask and the flags takes bits away. -/
theorem removeRightListBase_spec {rights : List SecurityRight} (hbit : right.IsBit i)
    (hrights : ∀ right' ∈ rights, right'.accessMask = right.accessMask ∧
      right'.flags = right.flags)
    (h : removeRightListBase trustee allow rights sd = .ok sd') :
    (∀ kind bit, BitSet sd'.aces kind bit → BitSet sd.aces kind bit) ∧
      AgreeOff (fun kind bit => kind.IsOf bit trustee right) sd.aces sd'.aces ∧
      ∀ trustee', HasDenying sd'.aces trustee' → HasDenying sd.aces trustee' := by
  refine List.foldlM_invariant (P := fun sd' =>
    (∀ kind bit, BitSet sd'.aces kind bit → BitSet sd.aces kind bit) ∧
      AgreeOff (fun kind bit => kind.IsOf bit trustee right) sd.aces sd'.aces ∧
      ∀ trustee', HasDenying sd'.aces trustee' → HasDenying sd.aces trustee')
    (fun sd₁ sd₂ right' hmem hstep h => ?_) ⟨fun _ _ h => h, agreeOff_refl _ _, fun _ h => h⟩ h
  obtain ⟨hmask, hflags⟩ := hrights right' hmem
  have hbit' : right'.IsBit i := ⟨hbit.1, hmask.trans hbit.2⟩
  refine ⟨fun kind bit hset => h.1 kind bit ((bitSet_removeRightBase hbit' hstep).1 hset).1,
    h.2.1.trans (agreeOff_removeRightBase hbit' (fun kind bit hstands => ?_) hstep),
    fun trustee' hdenying => h.2.2 trustee' (hdenying.of_removeRightBase hstep)⟩
  exact ⟨hmask ▸ hstands.1, hstands.2.2.2.1, hstands.2.2.1.trans hflags⟩

/-- What adding a superior does: its state is set on the one side and not on the other, and
    only its own bits of entries for the trustee are changed. -/
structure AddsSuperior (trustee : DomSid) (right : SecurityRight) (allow : Bool)
    (sd sd' : SecurityDescriptor) : Prop where
  hasState : HasState sd'.aces trustee right .no allow
  not_hasState : ¬HasState sd'.aces trustee right .no (!allow)
  agreeOff : AgreeOff (fun kind bit => kind.IsOf bit trustee right) sd.aces sd'.aces
  hasDenying : ∀ trustee', HasDenying sd'.aces trustee' →
    HasDenying sd.aces trustee' ∨ trustee' = trustee ∧ allow = false

theorem addsSuperior {g : Globals} {classList : List String} (hright : right.IsSuperior)
    (h : securityDescriptorAddRight g sd classList trustee right allow = .ok sd') :
    AddsSuperior trustee right allow sd sd' := by
  obtain ⟨i, hbit⟩ := exists_isBit hright.mask_mem
  obtain ⟨hsuperiors, hsubordinates⟩ := hright.relations
  rw [securityDescriptorAddRight] at h
  rw [hsuperiors, List.foldlM_nil] at h
  obtain ⟨_, hstart, subordinates, hlist, sd₁, h₁, sd₂, h₂, sd₃, h₃, sd₄, h₄, hsort⟩ :
      ∃ sd₀, (pure sd : Except Fault _) = .ok sd₀ ∧ ∃ subordinates,
        adSecurityGetSubordinateRightList g right classList = .ok subordinates ∧ ∃ sd₁,
        removeRightListBase trustee allow subordinates sd₀ = .ok sd₁ ∧ ∃ sd₂,
        securityDescriptorRemoveRightBase sd₁ trustee right (!allow) = .ok sd₂ ∧ ∃ sd₃,
        removeRightListBase trustee (!allow) subordinates sd₂ = .ok sd₃ ∧ ∃ sd₄,
        securityDescriptorAddRightBase g.rt sd₃ trustee right allow = .ok sd₄ ∧
        securityDescriptorSortDacl g.rt sd₄ = .ok sd' := by
    simpa only [Except.bind_eq_ok] using h
  obtain rfl := Except.pure_eq_ok.1 hstart
  obtain ⟨-, hagree₁, hdeny₁⟩ := removeRightListBase_spec hbit (hsubordinates hlist) h₁
  obtain ⟨hbits₃, hagree₃, hdeny₃⟩ := removeRightListBase_spec hbit (hsubordinates hlist) h₃
  have hof : ∀ (allow : Bool) (kind : AceKind) (bit : ℕ), kind.StandsFor bit trustee right allow →
      kind.IsOf bit trustee right := fun _ _ _ hstands =>
    ⟨hstands.1, hstands.2.2.2.1, hstands.2.2.1⟩
  have hagree₂ := agreeOff_removeRightBase hbit (hof (!allow)) h₂
  have hagree₄ := agreeOff_addRightBase hbit (hof allow) h₄
  obtain ⟨given, hgiven, hadd⟩ := bitSet_addRightBase hbit h₄
  have hnot : ¬given.IsInherited := by
    rw [AceKind.IsInherited, hgiven.2.1]
    exact hright.not_inherited
  refine ⟨⟨given, i, hbit.getLsbD_iff.2 rfl, ?_, hgiven.matchesState, iff_of_true rfl hnot⟩,
    ?_, ?_, fun trustee' hdenying => ?_⟩
  · rw [bitSet_sortDacl hsort, hadd]
    exact .inr ⟨rfl, rfl⟩
  · -- the right has been removed on the other side
    rintro ⟨kind, bit, hmask, hset, hmatch, hinherited⟩
    have hkind := hmatch.matchesEdit hright.objectType (hinherited.1 rfl)
    rw [bitSet_sortDacl hsort, hadd] at hset
    rcases hset with hset | ⟨rfl, -⟩
    · have hremoved := (bitSet_removeRightBase hbit h₂).1 (hbits₃ kind bit hset)
      exact hremoved.2 ⟨hkind, hbit.getLsbD_iff.1 hmask⟩
    · exact hgiven.matchesState.not_other hkind
  · exact hagree₁.trans (hagree₂.trans (hagree₃.trans (hagree₄.trans (agreeOff_sortDacl hsort))))
  · have hadded : HasDenying (addRightAces g.rt trustee right allow sd₃.aces) trustee' := by
      rw [← aces_addRightBase h₄]
      exact hdenying.of_sortDacl hsort
    exact hadded.of_addRightAces.imp_left fun h =>
      hdeny₁ _ ((hdeny₃ _ h).of_removeRightBase h₂)

end

/-! ## What is added -/

open CommonPermissionsWidget

/-- The state of a right is set, on either side. -/
def Shown (aces : List SecurityAce) (trustee : DomSid) (right : SecurityRight) : Prop :=
  ∃ inherited allow, HasState aces trustee right inherited allow

/-- The mask of a superior has its bits to itself. -/
theorem accessMask_eq_of_bit {m m' : AccessMask} (hm : m ∈ objectTypedMasks)
    (hm' : m' ∈ objectTypedMasks) {bit : ℕ} (h : m.getLsbD bit = true)
    (h' : m'.getLsbD bit = true) : m = m' := by
  obtain ⟨i, hi⟩ := @exists_isBit (.ofMask m) hm
  obtain ⟨i', hi'⟩ := @exists_isBit (.ofMask m') hm'
  have hbit : bit = i := hi.getLsbD_iff.1 h
  have hbit' : bit = i' := hi'.getLsbD_iff.1 h'
  exact hi.2.trans (hbit ▸ hbit' ▸ hi'.2.symm)

section
variable {sd sd' : SecurityDescriptor} {aces aces' : List SecurityAce} {trustee : DomSid}
  {right right' : SecurityRight} {subordinates : List SecurityRight} {allow : Bool}

/-- Adding a superior leaves the states of other masks as they are. -/
theorem AddsSuperior.hasState_iff (h : AddsSuperior trustee right allow sd sd')
    (hright : right.accessMask ∈ objectTypedMasks) (hright' : right'.accessMask ∈ objectTypedMasks)
    (hne : right'.accessMask ≠ right.accessMask) {inherited : SecurityRightStateInherited}
    {allow' : Bool} :
    HasState sd'.aces trustee right' inherited allow' ↔
      HasState sd.aces trustee right' inherited allow' :=
  hasState_congr fun _ _ hbit _ _ => h.agreeOff _ _ fun hof =>
    hne (accessMask_eq_of_bit hright' hright hbit hof.1)

theorem decides_congr (h : ∀ right ∈ subordinates, ∀ inherited allow,
    HasState aces' trustee right inherited allow ↔ HasState aces trustee right inherited allow) :
    Decides aces' trustee subordinates allow ↔ Decides aces trustee subordinates allow := by
  have halone : ∀ right ∈ subordinates, ∀ allow,
      (IsSetAlone aces' trustee right allow ↔ IsSetAlone aces trustee right allow) :=
    fun right hright allow => by rw [IsSetAlone, IsSetAlone, h right hright, h right hright]
  have hall : ∀ allow, (∀ right ∈ subordinates, IsSetAlone aces' trustee right allow) ↔
      ∀ right ∈ subordinates, IsSetAlone aces trustee right allow := fun allow =>
    forall₂_congr fun right hright => halone right hright allow
  have hlast : ∀ allow, (∀ right ∈ subordinates.dropLast, IsSetAlone aces' trustee right allow) ↔
      ∀ right ∈ subordinates.dropLast, IsSetAlone aces trustee right allow := fun allow =>
    forall₂_congr fun right hright => halone right (List.dropLast_subset _ hright) allow
  simp only [Decides, RuledOutLast, hall, hlast]

end

namespace CommonPermissionsWidget

/-- The widget as `init` and the choice of the applied objects leave it. -/
structure IsInitialised (w : CommonPermissionsWidget) : Prop where
  masks : w.rightsModel.map (fun row => row.right.accessMask) = commonRightsList
  right : ∀ row ∈ w.rightsModel, row.right.objectType = none ∧
    ¬bitmaskIsSet row.right.flags secAceFlagInheritedAce = true
  superiors : w.objectTypedSuperiors.Perm objectTypedMasks

/-- `CommonPermissionsWidget::init`, where a trustee and a class have been chosen: the masks are
    the keys of the hash in some order. -/
def init (sd : SecurityDescriptor) (trustee : DomSid) (appliableClass : String)
    (keys : List AccessMask) : CommonPermissionsWidget where
  sd := sd
  trustee := trustee
  appliableClass := appliableClass
  rightsModel := adSecurityGetCommonRights.map fun right => ⟨right, false, false⟩
  objectTypedSuperiors := keys

/-- `CommonPermissionsWidget::right_applies_to_class`. -/
def rightAppliesToClass (conf : AdConfig) (right : SecurityRight) (objClass : String) : Bool :=
  let parentRelatedAccessMasks := [secAdsDeleteTree, secAdsCreateChild, secAdsDeleteChild]
  if !parentRelatedAccessMasks.contains right.accessMask then true
  else !(conf.getPossibleInferiors objClass).isEmpty

/-- `enum AppliedObjects`. -/
inductive AppliedObjects
  | thisObject
  | thisAndChildObjects
  | allChildObjects
  | childObjectClass

/-- The flags that the rights are given for the applied objects. -/
def AppliedObjects.flags : AppliedObjects → AceFlags
  | thisObject => 0
  | thisAndChildObjects => secAceFlagContainerInherit
  | allChildObjects | childObjectClass => secAceFlagContainerInherit ||| secAceFlagInheritOnly

/-- What the right of a row becomes for the applied objects. -/
def applyRow (conf : AdConfig) (appliableClass : String) (flags : AceFlags)
    (inheritedObjectType : Option Guid) (row : PermissionRow) : PermissionRow :=
  if !rightAppliesToClass conf row.right appliableClass then row
  else { row with right := row.right.appliedTo flags inheritedObjectType }

/-- `PermissionsWidget::update_permissions`, for the applied objects that have been chosen. -/
def updatePermissionsFor (conf : AdConfig) (w : CommonPermissionsWidget)
    (targetClass : String) (appliedObjs : AppliedObjects) (appliableChildClass : String) :
    Except Fault CommonPermissionsWidget :=
  let appliableClass := if appliableChildClass.isEmpty then targetClass else appliableChildClass
  let inheritedObjectType :=
    match appliedObjs with
    | .childObjectClass => conf.guidFromClass appliableChildClass
    | _ => none
  updateRows { w with
    appliableClass := appliableClass
    rightsModel := w.rightsModel.map
      (applyRow conf appliableClass appliedObjs.flags inheritedObjectType) }

/-- The superiors among the rights of the rows. -/
def HasSuperior (w : CommonPermissionsWidget) (right : SecurityRight) : Prop :=
  right ∈ w.rightsModel.map PermissionRow.right ∧ right.accessMask ∈ objectTypedMasks

/-- The rows show the states of the superiors. -/
def RowsExact (w : CommonPermissionsWidget) : Prop :=
  ∀ row ∈ w.rightsModel, row.right.accessMask ∈ objectTypedMasks →
    ((row.allowed || row.denied) = true ↔ Shown w.sd.aces w.trustee row.right)

section
variable {w : CommonPermissionsWidget} {right right' : SecurityRight}

theorem IsInitialised.isSuperior (h : w.IsInitialised) (hright : w.HasSuperior right) :
    right.IsSuperior := by
  obtain ⟨hmem, hmask⟩ := hright
  obtain ⟨row, hrow, rfl⟩ := List.mem_map.1 hmem
  exact ⟨hmask, (h.right row hrow).1, (h.right row hrow).2⟩

/-- The rows have masks of their own. -/
theorem IsInitialised.right_eq (h : w.IsInitialised) (hright : right ∈ w.rightsModel.map (·.right))
    (hright' : right' ∈ w.rightsModel.map (·.right)) (heq : right.accessMask = right'.accessMask) :
    right = right' := by
  have hnodup : ((w.rightsModel.map (·.right)).map SecurityRight.accessMask).Nodup := by
    rw [List.map_map]
    exact h.masks ▸ by decide
  exact List.inj_on_of_nodup_map hnodup hright hright' heq

/-- The superiors have rows. -/
theorem HasSuperior.row?_ne (hright : w.HasSuperior right) :
    w.row? right.accessMask ≠ none := by
  obtain ⟨row, hrow, rfl⟩ := List.mem_map.1 hright.1
  exact fun hnone => List.find?_eq_none.1 hnone row hrow (decide_eq_true rfl)

theorem hasSuperior_of_row? {accessMask : AccessMask} (hmask : accessMask ∈ objectTypedMasks)
    {row : PermissionRow} (h : w.row? accessMask = some row) :
    row ∈ w.rightsModel ∧ row.right.accessMask = accessMask ∧ w.HasSuperior row.right := by
  rw [row?] at h
  have hmem := List.mem_of_find?_eq_some h
  have heq : row.right.accessMask = accessMask := by simpa using List.find?_some h
  exact ⟨hmem, heq, List.mem_map_of_mem hmem, heq ▸ hmask⟩

end

variable (g : Globals)

/-- A superior is not shown, and the loop over its subordinates decides on a side. -/
def Decided (w₀ : CommonPermissionsWidget) (right : SecurityRight) (allow : Bool) : Prop :=
  w₀.HasSuperior right ∧ ¬Shown w₀.sd.aces w₀.trustee right ∧ ∃ subordinates,
    adSecurityGetSubordinateRightList g right [w₀.appliableClass] = .ok subordinates ∧
      Decides w₀.sd.aces w₀.trustee subordinates allow

/-- A superior has been added on the side that is decided on. -/
def Added (w₀ : CommonPermissionsWidget) (sd : SecurityDescriptor) (right : SecurityRight)
    (allow : Bool) : Prop :=
  Decided g w₀ right allow ∧ HasState sd.aces w₀.trustee right .no allow ∧
    ¬HasState sd.aces w₀.trustee right .no (!allow)

/-- What becomes of a widget: superiors are added where the loop decides on a side, and no
    other bits are changed. -/
structure Edited (w₀ w : CommonPermissionsWidget) : Prop where
  trustee : w.trustee = w₀.trustee
  appliableClass : w.appliableClass = w₀.appliableClass
  rights : w.rightsModel.map PermissionRow.right = w₀.rightsModel.map PermissionRow.right
  objectTypedSuperiors : w.objectTypedSuperiors = w₀.objectTypedSuperiors
  bits : ∀ kind bit, (BitSet w.sd.aces kind bit ↔ BitSet w₀.sd.aces kind bit) ∨
    ∃ right allow, kind.IsOf bit w₀.trustee right ∧ Added g w₀ w.sd right allow
  sd : w.sd = w₀.sd ∨ ∃ right allow, Added g w₀ w.sd right allow
  hasDenying : HasDenying w.sd.aces w₀.trustee →
    HasDenying w₀.sd.aces w₀.trustee ∨ ∃ right, Added g w₀ w.sd right false

section
variable {g} {w₀ w : CommonPermissionsWidget} {sd sd' : SecurityDescriptor}
  {right right' : SecurityRight} {allow allow' : Bool}

/-- The loop decides on one side at most. -/
theorem Decided.allow_eq (h : Decided g w₀ right allow) (h' : Decided g w₀ right allow') :
    allow = allow' := by
  obtain ⟨-, -, subordinates, hlist, hdecides⟩ := h
  obtain ⟨-, -, _, hlist', hdecides'⟩ := h'
  obtain rfl := Except.ok.inj (hlist.symm.trans hlist')
  rw [Decides] at hdecides hdecides'
  cases allow <;> cases allow'
  · rfl
  · exact absurd hdecides'.1 hdecides.1
  · exact absurd hdecides.1 hdecides'.1
  · rfl

theorem Added.shown (h : Added g w₀ sd right allow) : Shown sd.aces w₀.trustee right :=
  ⟨.no, allow, h.2.1⟩

theorem Edited.refl (w₀ : CommonPermissionsWidget) : Edited g w₀ w₀ :=
  ⟨rfl, rfl, rfl, rfl, fun _ _ => .inl Iff.rfl, .inl rfl, .inl⟩

/-- What has been added stays so while the same and other superiors are added. -/
theorem Added.mono (hinit : w₀.IsInitialised) (hdecided : Decided g w₀ right allow)
    (hadds : AddsSuperior w₀.trustee right allow sd sd') (h : Added g w₀ sd right' allow') :
    Added g w₀ sd' right' allow' := by
  obtain ⟨hdecided', hstate, hnot⟩ := h
  by_cases hmask : right'.accessMask = right.accessMask
  · -- it is the superior itself
    obtain rfl := hinit.right_eq hdecided'.1.1 hdecided.1.1 hmask
    obtain rfl := hdecided'.allow_eq hdecided
    exact ⟨hdecided', hadds.hasState, hadds.not_hasState⟩
  · have hsame := fun allow =>
      @AddsSuperior.hasState_iff sd sd' _ right right' _ hadds hdecided.1.2 hdecided'.1.2 hmask
        .no allow
    exact ⟨hdecided', (hsame _).2 hstate, mt (hsame _).1 hnot⟩

/-- A superior that has not been added has the states that it had. -/
theorem Edited.hasState_iff (hinit : w₀.IsInitialised) (h : Edited g w₀ w)
    (hright : w₀.HasSuperior right) (hnot : ∀ allow, ¬Added g w₀ w.sd right allow)
    (hmask : right'.accessMask = right.accessMask) {inherited : SecurityRightStateInherited} :
    HasState w.sd.aces w₀.trustee right' inherited allow ↔
      HasState w₀.sd.aces w₀.trustee right' inherited allow := by
  refine hasState_congr fun kind bit hbit _ _ => (h.bits kind bit).resolve_right ?_
  rintro ⟨right'', allow', hof, hadded⟩
  rw [hmask] at hbit
  have heq := accessMask_eq_of_bit hadded.1.1.2 hright.2 hof.1 hbit
  exact hnot allow' (hinit.right_eq hadded.1.1.1 hright.1 heq ▸ hadded)

/-- Adding a superior on the side that is decided on. -/
theorem Edited.add (hinit : w₀.IsInitialised) (h : Edited g w₀ w)
    (hdecided : Decided g w₀ right allow)
    (hadds : AddsSuperior w₀.trustee right allow w.sd sd') :
    Edited g w₀ { w with sd := sd' } where
  trustee := h.trustee
  appliableClass := h.appliableClass
  rights := h.rights
  objectTypedSuperiors := h.objectTypedSuperiors
  bits kind bit := by
    by_cases hof : kind.IsOf bit w₀.trustee right
    · exact .inr ⟨right, allow, hof, hdecided, hadds.hasState, hadds.not_hasState⟩
    · refine (h.bits kind bit).imp (hadds.agreeOff kind bit hof).trans ?_
      rintro ⟨right', allow', hof', hadded⟩
      exact ⟨right', allow', hof', hadded.mono hinit hdecided hadds⟩
  sd := .inr ⟨right, allow, hdecided, hadds.hasState, hadds.not_hasState⟩
  hasDenying hdenying := by
    rcases hadds.hasDenying _ hdenying with hbefore | ⟨-, rfl⟩
    · refine (h.hasDenying hbefore).imp_right ?_
      rintro ⟨right', hadded⟩
      exact ⟨right', hadded.mono hinit hdecided hadds⟩
    · exact .inr ⟨right, hdecided, hadds.hasState, hadds.not_hasState⟩

/-! ## Updating the rows -/

/-- What an update makes of a widget. -/
structure Updates (g : Globals) (w₀ w w' : CommonPermissionsWidget) : Prop where
  edited : Edited g w₀ w'
  rowsExact : w'.RowsExact
  added : ∀ right allow, Added g w₀ w.sd right allow → Added g w₀ w'.sd right allow

theorem Updates.trans {w' w'' : CommonPermissionsWidget} (h : Updates g w₀ w w')
    (h' : Updates g w₀ w' w'') : Updates g w₀ w w'' :=
  ⟨h'.edited, h'.rowsExact, fun right allow hadded =>
    h'.added right allow (h.added right allow hadded)⟩

/-- Calls from within do what an update does. -/
def Keeps (g : Globals) (w₀ : CommonPermissionsWidget)
    (update : CommonPermissionsWidget → Except Fault CommonPermissionsWidget) : Prop :=
  ∀ w w', Edited g w₀ w → w.RowsExact → update w = .ok w' → Updates g w₀ w w'

/-- The state of a superior whose row is updated. -/
theorem shown_of_updateRowCheckState {trustee : DomSid} {row row' : PermissionRow}
    (h : updateRowCheckState sd trustee row = .ok row') : row'.right = row.right ∧
      (row'.right.accessMask ∈ objectTypedMasks →
        ((row'.allowed || row'.denied) = true ↔ Shown sd.aces trustee row'.right)) := by
  obtain ⟨state, hstate, hrow⟩ := Except.bind_eq_ok.1 h
  obtain rfl := Except.pure_eq_ok.1 hrow
  refine ⟨rfl, fun hmask => ?_⟩
  obtain ⟨i, hbit⟩ := exists_isBit hmask
  have hget : ∀ inherited allow, state.get inherited (.ofAllow allow) = true ↔
      HasState sd.aces trustee row.right inherited allow := fun _ _ => get_iff_hasState hbit hstate
  have hallow := fun inherited => hget inherited true
  have hdeny := fun inherited => hget inherited false
  simp only [Bool.or_eq_true]
  constructor
  · rintro ((h | h) | (h | h))
    · exact ⟨.no, true, (hallow .no).1 h⟩
    · exact ⟨.yes, true, (hallow .yes).1 h⟩
    · exact ⟨.no, false, (hdeny .no).1 h⟩
    · exact ⟨.yes, false, (hdeny .yes).1 h⟩
  · rintro ⟨_ | _, _ | _, h⟩
    · exact .inr (.inr ((hdeny .yes).2 h))
    · exact .inl (.inr ((hallow .yes).2 h))
    · exact .inr (.inl ((hdeny .no).2 h))
    · exact .inl (.inl ((hallow .no).2 h))

/-- Updating the rows changes the check boxes only, so that they show the states. -/
theorem updateRows_spec {w' : CommonPermissionsWidget} (h : w.updateRows = .ok w') :
    ∃ rightsModel, w' = { w with rightsModel := rightsModel } ∧
      rightsModel.map PermissionRow.right = w.rightsModel.map PermissionRow.right ∧
        w'.RowsExact := by
  obtain ⟨rightsModel, hmodel, hw'⟩ := Except.bind_eq_ok.1 h
  obtain rfl := Except.pure_eq_ok.1 hw'
  refine ⟨rightsModel, rfl, ?_,
    List.forall_of_mapM (fun _ _ hrow => (shown_of_updateRowCheckState hrow).2) hmodel⟩
  have hrights : List.Forall₂ (fun a b => a = b) (w.rightsModel.map PermissionRow.right)
      (rightsModel.map PermissionRow.right) := by
    rw [List.forall₂_map_left_iff, List.forall₂_map_right_iff]
    exact (List.mapM_eq_ok.1 hmodel).imp fun _ _ hrow => (shown_of_updateRowCheckState hrow).1.symm
  rw [List.forall₂_eq_eq_eq] at hrights
  exact hrights.symm

theorem updateRows_updates {w' : CommonPermissionsWidget} (h : Edited g w₀ w)
    (hrows : w.updateRows = .ok w') : Updates g w₀ w w' := by
  obtain ⟨rightsModel, rfl, hrights, hexact⟩ := updateRows_spec hrows
  exact ⟨⟨h.trustee, h.appliableClass, hrights.trans h.rights, h.objectTypedSuperiors, h.bits,
    h.sd, h.hasDenying⟩, hexact, fun _ _ hadded => hadded⟩

theorem Edited.setChecked {accessMask : AccessMask} (h : Edited g w₀ w) :
    Edited g w₀ (w.setChecked accessMask allow) where
  trustee := h.trustee
  appliableClass := h.appliableClass
  rights := by
    rw [← h.rights, CommonPermissionsWidget.setChecked, List.map_map]
    refine List.map_congr_left fun row _ => ?_
    rw [Function.comp_apply]
    split_ifs <;> rfl
  objectTypedSuperiors := h.objectTypedSuperiors
  bits := h.bits
  sd := h.sd
  hasDenying := h.hasDenying

/-- The rows after a superior has been added and its check box has been checked. -/
theorem rowsExact_setChecked (hinit : w₀.IsInitialised) (h : Edited g w₀ w) (hrows : w.RowsExact)
    (hright : w₀.HasSuperior right) (hstate : HasState sd.aces w₀.trustee right .no allow)
    (hsame : ∀ right', right'.accessMask ∈ objectTypedMasks →
      right'.accessMask ≠ right.accessMask → ∀ inherited allow,
      (HasState sd.aces w₀.trustee right' inherited allow ↔
        HasState w.sd.aces w₀.trustee right' inherited allow)) :
    ({ w.setChecked right.accessMask allow with sd := sd }).RowsExact := by
  intro row' hrow' hmask
  obtain ⟨row, hrow, rfl⟩ := List.mem_map.1 hrow'
  change _ ↔ Shown sd.aces w.trustee _
  rw [h.trustee]
  by_cases hne : row.right.accessMask = right.accessMask
  · -- the row of the superior
    have heq : row.right = right :=
      hinit.right_eq (h.rights ▸ List.mem_map_of_mem hrow) hright.1 hne
    rw [if_neg (not_not.2 hne)]
    refine iff_of_true (by cases allow <;> simp) ?_
    have hshown : Shown sd.aces w₀.trustee row.right := heq ▸ ⟨.no, allow, hstate⟩
    cases allow <;> exact hshown
  · rw [if_pos hne] at hmask ⊢
    rw [hrows row hrow hmask, h.trustee]
    exact exists_congr fun inherited => exists_congr fun allow =>
      (hsame row.right hmask hne inherited allow).symm

/-- The decision of the loop over the subordinates, for a superior that is not shown. -/
theorem Edited.decided_iff (hinit : w₀.IsInitialised) (h : Edited g w₀ w)
    (hright : w₀.HasSuperior right) (hunshown : ¬Shown w.sd.aces w₀.trustee right)
    {subordinates : List SecurityRight}
    (hlist : adSecurityGetSubordinateRightList g right [w₀.appliableClass] = .ok subordinates) :
    Decided g w₀ right allow ↔ Decides w.sd.aces w₀.trustee subordinates allow := by
  have hnot : ∀ allow, ¬Added g w₀ w.sd right allow := fun _ hadded => hunshown hadded.shown
  have hsame : ∀ right', right'.accessMask = right.accessMask → ∀ inherited allow,
      (HasState w.sd.aces w₀.trustee right' inherited allow ↔
        HasState w₀.sd.aces w₀.trustee right' inherited allow) :=
    fun _ hmask _ _ => h.hasState_iff hinit hright hnot hmask
  have hunshown₀ : ¬Shown w₀.sd.aces w₀.trustee right := fun ⟨inherited, allow, hstate⟩ =>
    hunshown ⟨inherited, allow, (hsame right rfl inherited allow).2 hstate⟩
  have hsubordinates := ((hinit.isSuperior hright).relations).2 hlist
  rw [decides_congr fun right' hmem => hsame right' (hsubordinates right' hmem).1]
  constructor
  · rintro ⟨-, -, _, hlist', hdecides⟩
    obtain rfl := Except.ok.inj (hlist.symm.trans hlist')
    exact hdecides
  · exact fun hdecides => ⟨hright, hunshown₀, subordinates, hlist, hdecides⟩

/-- What the widget does about a superior that is not shown: nothing, unless the superior is
    added on the side that is decided on. Then it is called from within. -/
theorem updateObjectTypedPermission_cases (hinit : w₀.IsInitialised) (hw : Edited g w₀ w)
    (hrows : w.RowsExact) (hright : w₀.HasSuperior right)
    (hunshown : ¬Shown w.sd.aces w₀.trustee right) :
    (∃ e, ∀ update, updateObjectTypedPermission g update w right = .error e) ∨
    ((∀ update, updateObjectTypedPermission g update w right = .ok w) ∧
      ∀ allow, ¬Decided g w₀ right allow) ∨
    ∃ w₁, (∀ update, updateObjectTypedPermission g update w right = update w₁) ∧
      Updates g w₀ w w₁ ∧ ∃ allow, Added g w₀ w₁.sd right allow := by
  simp only [updateObjectTypedPermission, onItemChecked]
  cases hlist : adSecurityGetSubordinateRightList g right [w.appliableClass] with
  | error e => exact .inl ⟨e, fun _ => rfl⟩
  | ok subordinates =>
  cases hresult : allSubordinatesSet w.sd w.trustee subordinates true true with
  | error e => exact .inl ⟨e, fun _ => by rw [Except.ok_bind, hresult]; rfl⟩
  | ok result =>
  rw [hw.appliableClass] at hlist
  have hsuperior := hinit.isSuperior hright
  obtain ⟨i, hbit⟩ := exists_isBit hsuperior.mask_mem
  have hbits : ∀ right' ∈ subordinates, right'.IsBit i := fun right' hmem =>
    ⟨hbit.1, ((hsuperior.relations).2 hlist right' hmem).1.trans hbit.2⟩
  have hdecided : ∀ allow, Decided g w₀ right allow ↔
      ∃ allDeny, result = some (allow, allDeny) ∧ ¬(allow && allDeny) = true := fun allow => by
    rw [hw.decided_iff hinit hright hunshown hlist, ← hw.trustee, decides_iff hbits hresult]
  simp only [Except.ok_bind, hresult]
  cases result with
  | none =>
    refine .inr (.inl ⟨fun _ => rfl, fun allow hallow => ?_⟩)
    obtain ⟨_, hnone, -⟩ := (hdecided allow).1 hallow
    exact nomatch hnone
  | some flags =>
    obtain ⟨allAllow, allDeny⟩ := flags
    dsimp only
    split_ifs with hboth
    · -- nothing rules out either side
      refine .inr (.inl ⟨fun _ => rfl, fun allow hallow => ?_⟩)
      obtain ⟨_, hflags, hnot⟩ := (hdecided allow).1 hallow
      cases hflags
      exact absurd hboth hnot
    · have hside : Decided g w₀ right allAllow := (hdecided allAllow).2 ⟨allDeny, rfl, hboth⟩
      cases h₁ : securityDescriptorAddRight g w.sd [w.appliableClass] w.trustee right allAllow with
      | error e => exact .inl ⟨e, fun _ => rfl⟩
      | ok sd₁ =>
      have hadds₁ := addsSuperior hsuperior h₁
      cases hstate : securityDescriptorGetRightState sd₁ w.trustee right with
      | error e => exact .inl ⟨e, fun _ => by rw [Except.ok_bind, hstate]; rfl⟩
      | ok state =>
      have hset := (get_iff_hasState hbit hstate).2 hadds₁.hasState
      simp only [Except.ok_bind, hstate, if_pos hset, CommonPermissionsWidget.setChecked]
      cases h₂ : securityDescriptorAddRight g sd₁ [w.appliableClass] w.trustee right allAllow with
      | error e => exact .inl ⟨e, fun _ => rfl⟩
      | ok sd₂ =>
      have hadds₂ := addsSuperior hsuperior h₂
      rw [hw.trustee] at hadds₁ hadds₂
      have hchecked : Edited g w₀
          (CommonPermissionsWidget.setChecked { w with sd := sd₁ } right.accessMask allAllow) :=
        (hw.add hinit hside hadds₁).setChecked
      have hedited := hchecked.add hinit hside hadds₂
      have hexact := rowsExact_setChecked hinit hw hrows hright hadds₂.hasState
        fun right' hmask hne inherited allow =>
          (hadds₂.hasState_iff hright.2 hmask hne).trans (hadds₁.hasState_iff hright.2 hmask hne)
      refine .inr (.inr ⟨_, fun _ => rfl, ⟨hedited, hexact, fun right' allow hadded => ?_⟩,
        allAllow, hside, hadds₂.hasState, hadds₂.not_hasState⟩)
      exact (hadded.mono hinit hside hadds₁).mono hinit hside hadds₂

/-- A turn of the loop over the superiors: nothing is done unless the superior is added. -/
theorem updateSuperior_cases (hinit : w₀.IsInitialised) (hw : Edited g w₀ w) (hrows : w.RowsExact)
    {accessMask : AccessMask} (hmask : accessMask ∈ objectTypedMasks) :
    (∃ e, ∀ update, updateSuperior g update w accessMask = .error e) ∨
    ((∀ update, updateSuperior g update w accessMask = .ok w) ∧
      ∀ right allow, right.accessMask = accessMask → Decided g w₀ right allow →
        Added g w₀ w.sd right allow) ∨
    ∃ w₁, (∀ update, updateSuperior g update w accessMask = update w₁) ∧ Updates g w₀ w w₁ ∧
      ∃ right allow, right.accessMask = accessMask ∧ Added g w₀ w₁.sd right allow := by
  have hsuperior : ∀ {right}, w.HasSuperior right ↔ w₀.HasSuperior right := fun {right} => by
    rw [HasSuperior, HasSuperior, hw.rights]
  simp only [updateSuperior]
  cases hrow : w.row? accessMask with
  | none =>
    refine .inr (.inl ⟨fun _ => rfl, ?_⟩)
    rintro right allow rfl hdecided
    exact absurd hrow (hsuperior.2 hdecided.1).row?_ne
  | some row =>
    dsimp only
    obtain ⟨hmem, hmask', hright⟩ := hasSuperior_of_row? hmask hrow
    have hshown := hrows row hmem hright.2
    rw [hw.trustee] at hshown
    rw [hsuperior] at hright
    have heq : ∀ {right allow}, right.accessMask = accessMask → Decided g w₀ right allow →
        right = row.right := fun hmask hdecided =>
      hinit.right_eq hdecided.1.1 hright.1 (hmask.trans hmask'.symm)
    split_ifs with hno
    · have hunshown : ¬Shown w.sd.aces w₀.trustee row.right := by
        rw [← hshown]
        simpa using hno
      obtain herror | ⟨hnothing, hnot⟩ | ⟨w₁, hcall, hupdates, allow, hadded⟩ :=
        updateObjectTypedPermission_cases hinit hw hrows hright hunshown
      · exact .inl herror
      · refine .inr (.inl ⟨hnothing, fun right allow hmask hdecided => ?_⟩)
        exact absurd (heq hmask hdecided ▸ hdecided) (hnot allow)
      · exact .inr (.inr ⟨w₁, hcall, hupdates, row.right, allow, hmask', hadded⟩)
    · -- the row is checked, from the beginning or since the superior has been added
      refine .inr (.inl ⟨fun _ => rfl, fun right allow hmask hdecided => ?_⟩)
      obtain rfl := heq hmask hdecided
      by_contra hnot
      have hnot' : ∀ allow', ¬Added g w₀ w.sd row.right allow' := fun allow' hadded =>
        hnot (hadded.1.allow_eq hdecided ▸ hadded)
      obtain ⟨inherited, allow', hstate⟩ : Shown w.sd.aces w₀.trustee row.right := by
        rw [← hshown]
        revert hno
        cases row.allowed <;> cases row.denied <;> simp
      exact hdecided.2.1 ⟨inherited, allow', (hw.hasState_iff hinit hright hnot' rfl).1 hstate⟩

theorem updateSuperior_updates (hinit : w₀.IsInitialised)
    {update : CommonPermissionsWidget → Except Fault CommonPermissionsWidget}
    (hupdate : Keeps g w₀ update) (hw : Edited g w₀ w) (hrows : w.RowsExact)
    {accessMask : AccessMask} (hmask : accessMask ∈ objectTypedMasks)
    {w' : CommonPermissionsWidget} (h : updateSuperior g update w accessMask = .ok w') :
    Updates g w₀ w w' ∧ ∀ right allow, right.accessMask = accessMask →
      Decided g w₀ right allow → Added g w₀ w'.sd right allow := by
  obtain ⟨e, herror⟩ | ⟨hnothing, hadded⟩ | ⟨w₁, hcall, hupdates, right, allow, rfl, hadded⟩ :=
    updateSuperior_cases hinit hw hrows hmask
  · exact nomatch (herror update).symm.trans h
  · obtain rfl := Except.ok.inj ((hnothing update).symm.trans h)
    exact ⟨⟨hw, hrows, fun _ _ hadded => hadded⟩, hadded⟩
  · have hrest := hupdate w₁ w' hupdates.edited hupdates.rowsExact ((hcall update).symm.trans h)
    refine ⟨hupdates.trans hrest, fun right' allow' hmask hdecided => ?_⟩
    obtain rfl := hinit.right_eq hdecided.1.1 hadded.1.1.1 hmask
    obtain rfl := hdecided.allow_eq hadded.1
    exact hrest.added _ _ hadded

/-- The loop over the superiors. -/
theorem foldlM_updates (hinit : w₀.IsInitialised)
    {update : CommonPermissionsWidget → Except Fault CommonPermissionsWidget}
    (hupdate : Keeps g w₀ update) {accessMasks : List AccessMask}
    (hmasks : ∀ accessMask ∈ accessMasks, accessMask ∈ objectTypedMasks)
    (hw : Edited g w₀ w) (hrows : w.RowsExact) {w' : CommonPermissionsWidget}
    (h : accessMasks.foldlM (updateSuperior g update) w = .ok w') :
    Updates g w₀ w w' ∧ ∀ right allow, right.accessMask ∈ accessMasks →
      Decided g w₀ right allow → Added g w₀ w'.sd right allow := by
  induction accessMasks generalizing w with
  | nil =>
    obtain rfl := Except.pure_eq_ok.1 h
    exact ⟨⟨hw, hrows, fun _ _ hadded => hadded⟩, nofun⟩
  | cons accessMask accessMasks ih =>
    rw [List.forall_mem_cons] at hmasks
    rw [List.foldlM_cons] at h
    obtain ⟨w₁, h₁, h⟩ := Except.bind_eq_ok.1 h
    obtain ⟨hfirst, hadded⟩ := updateSuperior_updates hinit hupdate hw hrows hmasks.1 h₁
    obtain ⟨hrest, hadded'⟩ := ih hmasks.2 hfirst.edited hfirst.rowsExact h
    refine ⟨hfirst.trans hrest, fun right allow hmem hdecided => ?_⟩
    rcases List.mem_cons.1 hmem with hmask | hmem
    · exact hrest.added _ _ (hadded right allow hmask hdecided)
    · exact hadded' right allow hmem hdecided

/-- One call, given what calls from within do. -/
theorem updatePermissionsWith_updates (hinit : w₀.IsInitialised)
    {update : CommonPermissionsWidget → Except Fault CommonPermissionsWidget}
    (hupdate : Keeps g w₀ update) (hw : Edited g w₀ w) {w' : CommonPermissionsWidget}
    (h : updatePermissionsWith g update w = .ok w') :
    Updates g w₀ w w' ∧ ∀ right allow, Decided g w₀ right allow →
      Added g w₀ w'.sd right allow := by
  obtain ⟨w₁, h₁, h⟩ := Except.bind_eq_ok.1 h
  have hfirst := updateRows_updates hw h₁
  have hperm := hinit.superiors
  rw [← hfirst.edited.objectTypedSuperiors] at hperm
  obtain ⟨hrest, hadded⟩ := foldlM_updates hinit hupdate (fun _ => hperm.mem_iff.1)
    hfirst.edited hfirst.rowsExact h
  exact ⟨hfirst.trans hrest, fun right allow hdecided =>
    hadded right allow (hperm.mem_iff.2 hdecided.1.2) hdecided⟩

/-- To any depth, the superiors are added for which the loop decides on a side. -/
theorem updatePermissions_updates (hinit : w₀.IsInitialised) (depth : ℕ) (hw : Edited g w₀ w)
    {w' : CommonPermissionsWidget} (h : updatePermissions g depth w = .ok w') :
    Updates g w₀ w w' ∧ ∀ right allow, Decided g w₀ right allow →
      Added g w₀ w'.sd right allow := by
  induction depth generalizing w w' with
  | zero =>
    refine updatePermissionsWith_updates hinit (fun w w' hw hrows h => ?_) hw h
    obtain rfl := Except.pure_eq_ok.1 h
    exact ⟨hw, hrows, fun _ _ hadded => hadded⟩
  | succ depth ih =>
    exact updatePermissionsWith_updates hinit (fun w w' hw _ h => (ih hw h).1) hw h

end

/-! ## Calls from within -/

section
variable {g} {w₀ w : CommonPermissionsWidget} {right : SecurityRight}

/-- Updates that agree where a superior has been added are as good as each other. -/
theorem foldlM_congr (hinit : w₀.IsInitialised)
    {update update' : CommonPermissionsWidget → Except Fault CommonPermissionsWidget}
    (hupdate : Keeps g w₀ update)
    (hagree : ∀ w, Edited g w₀ w → (∃ right allow, Added g w₀ w.sd right allow) →
      update w = update' w)
    {accessMasks : List AccessMask}
    (hmasks : ∀ accessMask ∈ accessMasks, accessMask ∈ objectTypedMasks)
    (hw : Edited g w₀ w) (hrows : w.RowsExact) :
    accessMasks.foldlM (updateSuperior g update) w =
      accessMasks.foldlM (updateSuperior g update') w := by
  induction accessMasks generalizing w with
  | nil => rfl
  | cons accessMask accessMasks ih =>
    rw [List.forall_mem_cons] at hmasks
    have hturn : updateSuperior g update w accessMask = updateSuperior g update' w accessMask := by
      obtain ⟨e, herror⟩ | ⟨hnothing, -⟩ | ⟨w₁, hcall, hupdates, right, allow, -, hadded⟩ :=
        updateSuperior_cases hinit hw hrows hmasks.1
      · rw [herror, herror]
      · rw [hnothing, hnothing]
      · rw [hcall, hcall, hagree w₁ hupdates.edited ⟨right, allow, hadded⟩]
    rw [List.foldlM_cons, List.foldlM_cons, ← hturn]
    cases h₁ : updateSuperior g update w accessMask with
    | error e => rfl
    | ok w₁ =>
      have hfirst := (updateSuperior_updates hinit hupdate hw hrows hmasks.1 h₁).1
      exact ih hmasks.2 hfirst.edited hfirst.rowsExact

theorem Edited.isInitialised (hinit : w₀.IsInitialised) (h : Edited g w₀ w) :
    w.IsInitialised := by
  have hmasks : ∀ w : CommonPermissionsWidget, w.rightsModel.map (fun row => row.right.accessMask) =
      (w.rightsModel.map PermissionRow.right).map SecurityRight.accessMask :=
    fun w => List.map_map.symm
  refine ⟨by rw [hmasks, h.rights, ← hmasks, hinit.masks], fun row hrow => ?_,
    h.objectTypedSuperiors ▸ hinit.superiors⟩
  have hmem : row.right ∈ w.rightsModel.map PermissionRow.right := List.mem_map_of_mem hrow
  rw [h.rights] at hmem
  obtain ⟨row₀, hrow₀, hright⟩ := List.mem_map.1 hmem
  exact hright ▸ hinit.right row₀ hrow₀

/-- A superior that is shown stays so. -/
theorem Edited.shown (hinit : w₀.IsInitialised) (h : Edited g w₀ w)
    (hright : w₀.HasSuperior right) (hshown : Shown w₀.sd.aces w₀.trustee right) :
    Shown w.sd.aces w₀.trustee right := by
  obtain ⟨inherited, allow, hstate⟩ := hshown
  have hnot : ∀ allow, ¬Added g w₀ w.sd right allow := fun _ hadded =>
    hadded.1.2.1 ⟨inherited, allow, hstate⟩
  exact ⟨inherited, allow, (h.hasState_iff hinit hright hnot rfl).2 hstate⟩

theorem updatePermissionsWith_congr (hinit : w.IsInitialised)
    {update update' : CommonPermissionsWidget → Except Fault CommonPermissionsWidget}
    (hupdate : Keeps g w update)
    (hagree : ∀ w₁, Edited g w w₁ → (∃ right allow, Added g w w₁.sd right allow) →
      update w₁ = update' w₁) :
    updatePermissionsWith g update w = updatePermissionsWith g update' w := by
  unfold updatePermissionsWith
  cases h : w.updateRows with
  | error e => rfl
  | ok w₁ =>
    have hrows := updateRows_updates (Edited.refl (g := g) w) h
    have hperm := hinit.superiors
    rw [← hrows.edited.objectTypedSuperiors] at hperm
    exact foldlM_congr hinit hupdate hagree (fun _ => hperm.mem_iff.1) hrows.edited hrows.rowsExact

/-- Calls are not nested deeper than there are superiors that are not shown. -/
theorem updatePermissions_succ {depth : ℕ} (unshown : List AccessMask)
    (hinit : w.IsInitialised) (hlength : unshown.length ≤ depth)
    (hunshown : ∀ right, w.HasSuperior right → ¬Shown w.sd.aces w.trustee right →
      right.accessMask ∈ unshown) :
    updatePermissions g (depth + 1) w = updatePermissions g depth w := by
  induction depth generalizing w unshown with
  | zero =>
    -- every superior is shown, so that there are no calls from within
    obtain rfl := List.length_eq_zero_iff.1 (Nat.le_zero.1 hlength)
    refine updatePermissionsWith_congr hinit (fun w₁ w' hw _ h =>
      (updatePermissions_updates hinit 0 hw h).1) fun w₁ _ ⟨right, allow, hadded⟩ => ?_
    exact absurd (hunshown right hadded.1.1 hadded.1.2.1) List.not_mem_nil
  | succ depth ih =>
    refine updatePermissionsWith_congr hinit (fun w₁ w' hw _ h =>
      (updatePermissions_updates hinit _ hw h).1) fun w₁ hw ⟨right, allow, hadded⟩ => ?_
    have hmem := hunshown right hadded.1.1 hadded.1.2.1
    refine ih (unshown.erase right.accessMask) (hw.isInitialised hinit) ?_ ?_
    · rw [List.length_erase_of_mem hmem]
      omega
    · intro right' hright' hnot
      have hsuperior : w.HasSuperior right' := by rwa [HasSuperior, ← hw.rights]
      rw [hw.trustee] at hnot
      have hne : right'.accessMask ≠ right.accessMask := fun heq =>
        hnot (hinit.right_eq hsuperior.1 hadded.1.1.1 heq ▸ hadded.shown)
      exact (List.mem_erase_of_ne hne).2
        (hunshown right' hsuperior fun hshown => hnot (hw.shown hinit hsuperior hshown))

/-- So five levels of calls are all there are. -/
theorem updatePermissions_depth {depth : ℕ} (hinit : w.IsInitialised) (hdepth : 5 ≤ depth) :
    updatePermissions g depth w = updatePermissions g 5 w := by
  induction depth, hdepth using Nat.le_induction with
  | base => rfl
  | succ depth hdepth ih =>
    rw [← ih]
    exact updatePermissions_succ objectTypedMasks hinit hdepth fun _ hright _ => hright.2

end

/-! ## Widgets that are initialised -/

theorem isInitialised_init (sd : SecurityDescriptor) (trustee : DomSid) (appliableClass : String)
    {keys : List AccessMask} (hkeys : keys.Perm objectTypedMasks) :
    (init sd trustee appliableClass keys).IsInitialised := by
  refine ⟨?_, fun row hrow => ?_, hkeys⟩
  · rw [init, List.map_map]
    exact List.map_map.trans (List.map_id' _)
  · obtain ⟨right, hright, rfl⟩ := List.mem_map.1 hrow
    obtain ⟨mask, -, rfl⟩ := List.mem_map.1 hright
    exact ⟨rfl, (by decide : ¬bitmaskIsSet (0 : AceFlags) secAceFlagInheritedAce = true)⟩

theorem applyRow_right {conf : AdConfig} {appliableClass : String} {flags : AceFlags}
    {inheritedObjectType : Option Guid} {row : PermissionRow} :
    (applyRow conf appliableClass flags inheritedObjectType row).right = row.right ∨
      (applyRow conf appliableClass flags inheritedObjectType row).right =
        row.right.appliedTo flags inheritedObjectType := by
  rw [applyRow]
  split_ifs
  · exact .inl rfl
  · exact .inr rfl

/-- Choosing the applied objects leaves a widget initialised. -/
theorem IsInitialised.updatePermissionsFor {conf : AdConfig} {w w' : CommonPermissionsWidget}
    {targetClass : String} {appliedObjs : AppliedObjects} {appliableChildClass : String}
    (hinit : w.IsInitialised)
    (h : w.updatePermissionsFor conf targetClass appliedObjs appliableChildClass = .ok w') :
    w'.IsInitialised := by
  obtain ⟨rightsModel, rfl, hrights, -⟩ := updateRows_spec h
  have hmasks : rightsModel.map (fun row => row.right.accessMask) =
      (rightsModel.map PermissionRow.right).map SecurityRight.accessMask := List.map_map.symm
  refine ⟨?_, fun row hrow => ?_, hinit.superiors⟩
  · rw [hmasks, hrights, List.map_map, List.map_map, ← hinit.masks]
    refine List.map_congr_left fun row _ => ?_
    simp only [Function.comp_apply]
    rcases applyRow_right with hright | hright <;> rw [hright]
    rfl
  · have hmem : row.right ∈ rightsModel.map PermissionRow.right := List.mem_map_of_mem hrow
    rw [hrights, List.map_map] at hmem
    obtain ⟨row₀, hrow₀, hright⟩ := List.mem_map.1 hmem
    rw [Function.comp_apply] at hright
    have hflags : ¬bitmaskIsSet appliedObjs.flags secAceFlagInheritedAce = true := by
      cases appliedObjs <;> decide
    rw [← hright]
    rcases applyRow_right with hright | hright <;> rw [hright]
    · exact hinit.right row₀ hrow₀
    · exact ⟨(hinit.right row₀ hrow₀).1, hflags⟩

/-! ## Viewing -/

/-- The subordinates of a right that is not shown have the state set on a side, and there are
    some. -/
def AllSet (w : CommonPermissionsWidget) (right : SecurityRight) (allow : Bool) : Prop :=
  ¬Shown w.sd.aces w.trustee right ∧ ∃ subordinates,
    adSecurityGetSubordinateRightList g right [w.appliableClass] = .ok subordinates ∧
      subordinates ≠ [] ∧
        ∀ right' ∈ subordinates, HasState w.sd.aces w.trustee right' .no allow

/-- A superior has become explicitly allowed or denied. -/
def Becomes (w w' : CommonPermissionsWidget) (right : SecurityRight) (allow : Bool) : Prop :=
  w.HasSuperior right ∧ HasState w'.sd.aces w.trustee right .no allow ∧
    ¬HasState w.sd.aces w.trustee right .no allow

/-- The descriptor is changed only by superiors that are allowed or denied as all their
    subordinates are. -/
structure ViewsOnly (w w' : CommonPermissionsWidget) : Prop where
  becomes : ∀ right allow, Becomes w w' right allow → AllSet g w right allow
  frame : ∀ kind bit, (∀ right allow, Becomes w w' right allow →
    ¬kind.IsOf bit w.trustee right) → (BitSet w'.sd.aces kind bit ↔ BitSet w.sd.aces kind bit)
  sd : (∀ right allow, w.HasSuperior right → ¬AllSet g w right allow) → w'.sd = w.sd
  hasDenying : HasDenying w'.sd.aces w.trustee → HasDenying w.sd.aces w.trustee

/-- No superior is denied for its last subordinate, which rules out what the others have left,
    unless all subordinates are denied. -/
def NoneDenied (w : CommonPermissionsWidget) : Prop :=
  ∀ right, w.HasSuperior right → ¬Shown w.sd.aces w.trustee right → ∀ subordinates,
    adSecurityGetSubordinateRightList g right [w.appliableClass] = .ok subordinates →
      RuledOutLast w.sd.aces w.trustee subordinates →
        ∀ right' ∈ subordinates, HasState w.sd.aces w.trustee right' .no false

section
variable {g} {w w' : CommonPermissionsWidget} {right : SecurityRight} {allow : Bool}

theorem Added.becomes (h : Added g w w'.sd right allow) : Becomes w w' right allow :=
  ⟨h.1.1, h.2.1, fun hstate => h.1.2.1 ⟨.no, allow, hstate⟩⟩

/-- A superior that becomes explicitly allowed or denied has been added on that side. -/
theorem Edited.added_of_becomes (hinit : w.IsInitialised) (h : Edited g w w')
    (hbecomes : Becomes w w' right allow) : Added g w w'.sd right allow := by
  obtain ⟨hright, hstate, hnot⟩ := hbecomes
  by_contra hadded
  by_cases hother : Added g w w'.sd right (!allow)
  · exact hother.2.2 ((Bool.not_not allow).symm ▸ hstate)
  · have hnone : ∀ allow', ¬Added g w w'.sd right allow' := fun allow' => by
      rcases Bool.eq_or_eq_not allow' allow with rfl | rfl
      · exact hadded
      · exact hother
    exact hnot ((h.hasState_iff hinit hright hnone rfl).1 hstate)

/-- What is decided is that all subordinates are set, unless a right is denied for the last
    one. -/
theorem Decided.allSet (hnone : NoneDenied g w) (h : Decided g w right allow) :
    AllSet g w right allow := by
  obtain ⟨hright, hunshown, subordinates, hlist, hdecides⟩ := h
  refine ⟨hunshown, subordinates, hlist, ?_⟩
  rw [Decides] at hdecides
  cases allow with
  | true =>
    obtain ⟨hall, hnot⟩ := (if_pos rfl).mp hdecides
    refine ⟨?_, fun right' hmem => (hall right' hmem).1⟩
    rintro rfl
    exact hnot nofun
  | false =>
    obtain ⟨hnot, hdeny⟩ := (if_neg Bool.false_ne_true).mp hdecides
    constructor
    · rintro rfl
      exact hnot nofun
    · rcases hdeny with hall | hlast
      · exact fun right' hmem => (hall right' hmem).1
      · exact hnone right hright hunshown subordinates hlist hlast

/-- A view changes nothing but what is allowed or denied with all subordinates exactly when no
    superior is denied for its last subordinate alone. -/
theorem viewsOnly_iff (hinit : w.IsInitialised) {depth : ℕ}
    (h : updatePermissions g depth w = .ok w') : ViewsOnly g w w' ↔ NoneDenied g w := by
  obtain ⟨hupdates, hadded⟩ := updatePermissions_updates hinit depth (.refl w) h
  have hedited := hupdates.edited
  constructor
  · intro hviews right hright hunshown subordinates hlist hlast
    have hdecided : Decided g w right false :=
      ⟨hright, hunshown, subordinates, hlist, hlast.2 true, .inr hlast⟩
    obtain ⟨-, _, hlist', -, hall⟩ :=
      hviews.becomes right false (hadded right false hdecided).becomes
    obtain rfl := Except.ok.inj (hlist.symm.trans hlist')
    exact hall
  · intro hnone
    refine ⟨fun right allow hbecomes => ?_, fun kind bit hkind => ?_, fun hno => ?_,
      fun hdenying => ?_⟩
    · exact (hedited.added_of_becomes hinit hbecomes).1.allSet hnone
    · refine (hedited.bits kind bit).resolve_right ?_
      rintro ⟨right, allow, hof, hadded⟩
      exact hkind right allow hadded.becomes hof
    · refine hedited.sd.resolve_right ?_
      rintro ⟨right, allow, hadded⟩
      exact hno right allow hadded.1.1 (hadded.1.allSet hnone)
    · rcases hedited.hasDenying hdenying with hbefore | ⟨right, hadded⟩
      · exact hbefore
      · -- a subordinate has been denied
        obtain ⟨-, subordinates, -, hne, hall⟩ := hadded.1.allSet hnone
        obtain ⟨right', hmem⟩ := List.exists_mem_of_ne_nil _ hne
        exact (hall right' hmem).hasDenying

end

/-- A class with a single permissionable attribute. -/
def sampleGlobals : Globals :=
  { Globals.empty with
    adconfig := { AdConfig.empty with
      classPermissionableAttributesMap := [("user", ["displayName"])]
      guidToAttributeMap := [(some ⟨1⟩, "displayName")] } }

/-- "Everyone" is selected, of which the descriptor says nothing. -/
def sampleWidget : CommonPermissionsWidget :=
  init sampleDescriptor sidWorld "user" objectTypedMasks

theorem viewsOnly_iff_sample : ∃ w', updatePermissions sampleGlobals 5 sampleWidget = .ok w' ∧
    (ViewsOnly sampleGlobals sampleWidget w' ↔ NoneDenied sampleGlobals sampleWidget) := by
  obtain ⟨w', h, -⟩ : ∃ w', updatePermissions sampleGlobals 5 sampleWidget = .ok w' ∧ True := by
    decide +kernel
  exact ⟨w', h, viewsOnly_iff (isInitialised_init _ _ _ (.refl _)) h⟩

/-- Properties are denied to "Everyone" when it is selected. -/
theorem not_viewsOnly_sample : ∃ w', updatePermissions sampleGlobals 5 sampleWidget = .ok w' ∧
    ¬ViewsOnly sampleGlobals sampleWidget w' := by
  obtain ⟨w', h, hdenying⟩ : ∃ w', updatePermissions sampleGlobals 5 sampleWidget = .ok w' ∧
      (HasDenying w'.sd.aces sidWorld ∧ ¬HasDenying sampleWidget.sd.aces sidWorld) := by
    decide +kernel
  exact ⟨w', h, fun hviews => hdenying.2 (hviews.hasDenying hdenying.1)⟩

end CommonPermissionsWidget

end Admc
