import Admc.Properties.LostUpdates

/-!
# Account options of several users

When several users are selected, their account options are set together: for each user, the
object is read, and the options whose check box differs from what was read are written, one by
one. The mark of an edit is cleared once this has succeeded for all users.

But an object that cannot be read has no option set, so that the options that should be cleared
are left as they are; and each write of a bit reads the number again, which counts as zero when
this fails. Neither is seen as a failure.

* `optionsMet_iff`: the options of a user are as checked, and no others have changed, exactly
  when what is not written was read as it is stored, and the last number that was read has the
  other bits as they should be;
* `usersMet_iff`: so it is for the list of users, each in the state that is reached;
* `accountOptionMulti_iff`: the edit, and the dialog that clears its mark.
-/

namespace Admc

variable {σ : Type}

/-! ## The edit -/

section
variable (g : Globals) (ndr : Ndr)

/-- `AdObject::get_account_option`. -/
def AdObject.getAccountOption (object : AdObject) : AccountOption → Except Fault Bool
  | .cantChangePassword => adSecurityGetUserCantChangePass g ndr object
  | .passwordExpired =>
    if object.attributesData.contains attributePwdLastSet then
      let pwdLastSetValue := object.getString g.rt attributePwdLastSet
      pure (pwdLastSetValue == "0")
    else pure false
  | option =>
    if object.attributesData.contains attributeUserAccountControl then
      let control := object.getInt g.rt attributeUserAccountControl
      let bit := accountOptionBit option
      pure (control &&& bit != 0)
    else pure false

/-- An option that is a bit is read from the account control, if there is one. -/
theorem AdObject.getAccountOption_of_isBit (object : AdObject) {option : AccountOption}
    (hbit : option.IsBit) :
    object.getAccountOption g ndr option =
      if object.attributesData.contains attributeUserAccountControl then
        .ok (object.getInt g.rt attributeUserAccountControl &&& accountOptionBit option != 0)
      else .ok false := by
  cases option with
  | cantChangePassword => exact absurd rfl hbit.1
  | passwordExpired => exact absurd rfl hbit.2
  | _ => rfl

variable (ldap : Ldap σ) (checkMap : QHash AccountOption Bool)

/-- The first loop of `AccountOptionMultiEdit::apply`: the options whose check box differs from
    what was read. -/
def optionChangeList (object : AdObject) : List AccountOption → Except Fault (List AccountOption)
  | [] => pure []
  | option :: options => do
    let currentOptionState ← object.getAccountOption g ndr option
    let newOptionState := checkMap.value option false
    let optionChangeList ← optionChangeList object options
    return if newOptionState ≠ currentOptionState then option :: optionChangeList
      else optionChangeList

/-- The second loop of `AccountOptionMultiEdit::apply`. -/
def setAccountOptions (target : String) (s : σ) : List AccountOption → Except Fault (σ × Bool)
  | [] => pure (s, true)
  | option :: options => do
    let optionIsSet := checkMap.value option false
    let (s, success) ← userSetAccountOption g ldap ndr s target option optionIsSet
    let (s, totalSuccess) ← setAccountOptions target s options
    return (s, success && totalSuccess)

/-- `AccountOptionMultiEdit::apply`, with the states of the check boxes. -/
def accountOptionMultiApply (s : σ) (target : String) : Except Fault (σ × Bool) := do
  let (s, object) := adSearchObject ldap s target [] false
  let options ← optionChangeList g ndr checkMap object checkMap.keys
  setAccountOptions g ndr ldap checkMap target s options

end

/-! ## The dialog -/

/-- An `AttributeEdit` of the dialog, with its check box that says whether to apply it. -/
structure MultiEdit (σ : Type) where
  applyCheck : Bool
  apply : σ → String → Except Fault (σ × Bool)

/-- The loop of `PropertiesMultiDialog::apply` over the targets. -/
def applyTargets (apply : σ → String → Except Fault (σ × Bool)) (s : σ) :
    List String → Except Fault (σ × Bool)
  | [] => pure (s, true)
  | target :: targetList => do
    let (s, thisSuccess) ← apply s target
    let (s, success) ← applyTargets apply s targetList
    return (s, thisSuccess && success)

/-- The loop of `PropertiesMultiDialog::apply` over the edits. -/
def applyMultiEdits (targetList : List String) (s : σ) :
    List (MultiEdit σ) → Except Fault (σ × List (MultiEdit σ) × Bool)
  | [] => pure (s, [], true)
  | edit :: editList => do
    let needToApply := edit.applyCheck
    if needToApply then
      let (s, success) ← applyTargets edit.apply s targetList
      let edit := if success then { edit with applyCheck := false } else edit
      let (s, editList, applySuccess) ← applyMultiEdits targetList s editList
      return (s, edit :: editList, success && applySuccess)
    else
      let (s, editList, applySuccess) ← applyMultiEdits targetList s editList
      return (s, edit :: editList, applySuccess)

/-- `PropertiesMultiDialog::apply`, when there is a connection or none. -/
def propertiesMultiDialogApply (adFailed : Bool) (targetList : List String) (s : σ)
    (editList : List (MultiEdit σ)) : Except Fault (σ × List (MultiEdit σ) × Bool) :=
  if adFailed then pure (s, editList, false) else applyMultiEdits targetList s editList

/-- An edit whose mark is cleared has been applied to all targets with success, in the state that
    the edits before it leave. -/
theorem applyTargets_of_cleared {targetList : List String} {s s' : σ}
    {before after editList' : List (MultiEdit σ)} {edit : MultiEdit σ} {success : Bool}
    (h : applyMultiEdits targetList s (before ++ edit :: after) = .ok (s', editList', success))
    (hmark : edit.applyCheck = true)
    (hcleared : (editList'[before.length]?.map MultiEdit.applyCheck) = some false) :
    ∃ s₁ s₂ before' success', applyMultiEdits targetList s before = .ok (s₁, before', success') ∧
      applyTargets edit.apply s₁ targetList = .ok (s₂, true) := by
  induction before generalizing s s' editList' success with
  | nil =>
    rw [List.nil_append, applyMultiEdits] at h
    simp only [hmark, if_true, Except.bind_eq_ok, Except.pure_eq_ok] at h
    obtain ⟨⟨s₂, thisSuccess⟩, happly, ⟨s₃, rest, restSuccess⟩, -, h⟩ := h
    obtain ⟨-, h⟩ := Prod.mk.inj h
    obtain ⟨rfl, -⟩ := Prod.mk.inj h
    refine ⟨s, s₂, [], true, rfl, ?_⟩
    cases thisSuccess with
    | true => exact happly
    | false =>
      -- the mark of an edit that fails stays
      rw [List.length_nil, List.getElem?_cons_zero, Option.map_some] at hcleared
      cases hmark.symm.trans (Option.some.inj hcleared)
  | cons first before ih =>
    rw [List.cons_append, applyMultiEdits] at h
    rw [applyMultiEdits]
    split_ifs at h ⊢ with hfirst
    · simp only [Except.bind_eq_ok, Except.pure_eq_ok] at h
      obtain ⟨⟨s₁, firstSuccess⟩, hfirstApply, ⟨s₂, rest, restSuccess⟩, hrest, h⟩ := h
      obtain ⟨-, h⟩ := Prod.mk.inj h
      obtain ⟨rfl, -⟩ := Prod.mk.inj h
      rw [List.length_cons, List.getElem?_cons_succ] at hcleared
      obtain ⟨s₃, s₄, before', success', hbefore, htargets⟩ := ih hrest hcleared
      refine ⟨s₃, s₄,
        (if firstSuccess then { first with applyCheck := false } else first) :: before',
        firstSuccess && success', ?_, htargets⟩
      rw [hfirstApply, Except.ok_bind]
      dsimp only
      rw [hbefore, Except.ok_bind]
      rfl
    · simp only [Except.bind_eq_ok, Except.pure_eq_ok] at h
      obtain ⟨⟨s₂, rest, restSuccess⟩, hrest, h⟩ := h
      obtain ⟨-, h⟩ := Prod.mk.inj h
      obtain ⟨rfl, -⟩ := Prod.mk.inj h
      rw [List.length_cons, List.getElem?_cons_succ] at hcleared
      obtain ⟨s₃, s₄, before', success', hbefore, htargets⟩ := ih hrest hcleared
      refine ⟨s₃, s₄, first :: before', success', ?_, htargets⟩
      rw [hbefore, Except.ok_bind]
      rfl

/-! ## One user -/

section
variable (g : Globals) (dir : OwnDirectory σ) (ndr : Ndr) (checkMap : QHash AccountOption Bool)
  (dn : String)

/-- What the check box of an option requests. -/
def optionRequest (option : AccountOption) : PendingEdit :=
  .accountOption option (checkMap.value option false)

/-- The option is stored in that state. -/
def HasOption (s : σ) (option : AccountOption) (set : Bool) : Prop :=
  (PendingEdit.accountOption option set).Holds g dir ndr dn [] s

/-- The options of the check boxes have their states, and the others are as they were. -/
def OptionsMet (s s' : σ) : Prop :=
  (∀ option ∈ checkMap.keys, HasOption g dir ndr dn s' option (checkMap.value option false)) ∧
    ∀ option ∉ checkMap.keys, ∀ set,
      HasOption g dir ndr dn s' option set ↔ HasOption g dir ndr dn s option set

/-- What is written takes effect, and is left by what is written later. An option that is not
    written, since it was read as its check box has it or has none, is stored so; and if bits
    are written, the last number that is read for one has it so. -/
def OptionsRead (s : σ) : Prop :=
  let (s₁, object) := adSearchObject dir.toLdap s dn [] false
  ∀ options, optionChangeList g ndr checkMap object checkMap.keys = .ok options →
    RequestsKept g dir ndr dn (options.map (optionRequest checkMap)) s₁ ∧
    (∀ option ∈ checkMap.keys, option ∉ options →
      KeptBy g dir ndr dn (optionRequest checkMap option) (options.map (optionRequest checkMap)) s₁
        (HasOption g dir ndr dn s option (checkMap.value option false))) ∧
    ∀ option ∉ checkMap.keys, ∀ set,
      KeptBy g dir ndr dn (.accountOption option set) (options.map (optionRequest checkMap)) s₁
        (HasOption g dir ndr dn s option set) ↔ HasOption g dir ndr dn s option set

end

section
variable {g : Globals} {dir : OwnDirectory σ} {ndr : Ndr} {checkMap : QHash AccountOption Bool}
  {dn : String} {s s' : σ} {option : AccountOption} {options : List AccountOption} {set : Bool}

theorem optionChangeList_sublist {object : AdObject} {all : List AccountOption}
    (h : optionChangeList g ndr checkMap object all = .ok options) : options.Sublist all := by
  induction all generalizing options with
  | nil => exact Except.pure_eq_ok.1 h ▸ .slnil
  | cons option all ih =>
    simp only [optionChangeList, Except.bind_eq_ok, Except.pure_eq_ok] at h
    obtain ⟨current, -, rest, hrest, rfl⟩ := h
    split_ifs
    · exact (ih hrest).cons_cons option
    · exact (ih hrest).cons option

/-- The options are written like the edits of one object. -/
theorem setAccountOptions_eq :
    setAccountOptions g ndr dir.toLdap checkMap dn s options =
      applyEdits g dir ndr dn s (options.map (optionRequest checkMap)) := by
  induction options generalizing s with
  | nil => rfl
  | cons option options ih =>
    rw [setAccountOptions, List.map_cons, applyEdits]
    simp only [ih]
    rfl

/-- The other edits say nothing about an option. -/
theorem holds_option {edits : List PendingEdit} :
    (PendingEdit.accountOption option set).Holds g dir ndr dn edits s ↔
      HasOption g dir ndr dn s option set := by
  cases option <;> exact Iff.rfl

theorem hasOption_congr (h : ∀ attr, dir.values s' dn attr = dir.values s dn attr) :
    HasOption g dir ndr dn s' option set ↔ HasOption g dir ndr dn s option set :=
  holds_congr (h _)

theorem map_subject_optionRequest :
    (options.map (optionRequest checkMap)).map PendingEdit.subject =
      options.map .accountOption := by
  rw [List.map_map]
  rfl

theorem subject_notMem (h : option ∉ options) (set : Bool) :
    (PendingEdit.accountOption option set).subject ∉
      (options.map (optionRequest checkMap)).map PendingEdit.subject := by
  rw [map_subject_optionRequest]
  intro hmem
  obtain ⟨option', hoption', heq⟩ := List.mem_map.1 hmem
  exact h (EditSubject.accountOption.inj heq ▸ hoption')

/-- What the edit has made of the options of a user when it reports success. -/
theorem optionsMet_iff (hrt : g.rt.DecodesUtf8) (hndr : ndr.Keeps)
    (hkeys : checkMap.keys.Nodup)
    (h : accountOptionMultiApply g ndr dir.toLdap checkMap s dn = .ok (s', true)) :
    OptionsMet g dir ndr checkMap dn s s' ↔ OptionsRead g dir ndr checkMap dn s := by
  rw [accountOptionMultiApply] at h
  rw [OptionsRead]
  have hsearched : dir.values (adSearchObject dir.toLdap s dn [] false).1 = dir.values s :=
    dir.values_searchObject
  generalize adSearchObject dir.toLdap s dn [] false = read at h hsearched ⊢
  obtain ⟨s₁, object⟩ := read
  obtain ⟨options, hoptions, h⟩ := Except.bind_eq_ok.1 h
  rw [setAccountOptions_eq] at h
  have hbefore : ∀ option set,
      HasOption g dir ndr dn s₁ option set ↔ HasOption g dir ndr dn s option set :=
    fun option set => hasOption_congr fun attr => by rw [hsearched]
  -- an option that is not written
  have hunwritten : ∀ option ∉ options, ∀ set, HasOption g dir ndr dn s' option set ↔
      KeptBy g dir ndr dn (.accountOption option set) (options.map (optionRequest checkMap)) s₁
        (HasOption g dir ndr dn s option set) := by
    intro option hoption set
    have hkept := holds_applyEdits hrt hndr (List.Subset.refl _) (subject_notMem hoption set) h
    rw [holds_option] at hkept
    exact hkept.trans (keptBy_congr (holds_option.trans (hbefore option set)))
  have hsub := optionChangeList_sublist hoptions
  have hsubjects : ((options.map (optionRequest checkMap)).map PendingEdit.subject).Nodup := by
    rw [map_subject_optionRequest]
    exact (hkeys.sublist hsub).map fun _ _ => EditSubject.accountOption.inj
  have hwritten := holds_applyEdits_iff hrt hndr (List.Subset.refl _) hsubjects h
  rw [List.forall_mem_map] at hwritten
  have hall : (∀ options', optionChangeList g ndr checkMap object checkMap.keys = .ok options' →
      OptionsMet g dir ndr checkMap dn s s') ↔ OptionsMet g dir ndr checkMap dn s s' :=
    ⟨fun hmet => hmet options hoptions, fun hmet _ _ => hmet⟩
  rw [← hall]
  refine forall_congr' fun options' => forall_congr' fun hoptions' => ?_
  obtain rfl := Except.ok.inj (hoptions'.symm.trans hoptions)
  rw [← hwritten, OptionsMet]
  constructor
  · rintro ⟨hmet, hother⟩
    refine ⟨fun option hoption => holds_option.2 (hmet option (hsub.subset hoption)),
      fun option hoption hnot => (hunwritten option hnot _).1 (hmet option hoption),
      fun option hoption set => ?_⟩
    rw [← hunwritten option (fun hmem => hoption (hsub.subset hmem)), hother option hoption set]
  · rintro ⟨hmet, hleft, hother⟩
    refine ⟨fun option hoption => ?_, fun option hoption set => ?_⟩
    · by_cases hmem : option ∈ options'
      · exact holds_option.1 (hmet option hmem)
      · exact (hunwritten option hmem _).2 (hleft option hoption hmem)
    · rw [hunwritten option fun hmem => hoption (hsub.subset hmem), hother option hoption set]

end

/-! ## Other users -/

/-- The DNs are those of different objects: what is written to one changes nothing of the
    other. -/
def ApartIn (dir : OwnDirectory σ) (dn dn' : String) : Prop :=
  ∀ s attr new sdControl,
    dir.values (dir.modifyReplace s dn attr new sdControl).1 dn' = dir.values s dn' ∧
      dir.values (dir.modifyReplace s dn' attr new sdControl).1 dn = dir.values s dn

section
variable {g : Globals} {dir : OwnDirectory σ} {ndr : Ndr} {checkMap : QHash AccountOption Bool}
  {dn dn' : String} {s s' : σ} {success : Bool}

theorem ApartIn.symm (h : ApartIn dir dn dn') : ApartIn dir dn' dn :=
  fun s attr new sdControl => (h s attr new sdControl).symm

theorem values_attributeReplaceValues_apart (h : ApartIn dir dn dn') {attr : String}
    {values : List QByteArray} {setDacl : Bool} :
    dir.values (attributeReplaceValues dir.toLdap s dn attr values setDacl).1 dn' =
      dir.values s dn' := by
  have hsearched : dir.values (adSearchObject dir.toLdap s dn [attr] false).1 = dir.values s :=
    dir.values_searchObject
  rw [attributeReplaceValues, ← hsearched]
  dsimp only
  split_ifs
  · rfl
  · rfl
  · exact (h _ attr values setDacl).1

/-- Setting an option of one user changes nothing of another, whether it succeeds or not. -/
theorem values_userSetAccountOption (h : ApartIn dir dn dn') {option : AccountOption} {set : Bool}
    (hset : userSetAccountOption g dir.toLdap ndr s dn option set = .ok (s', success)) :
    dir.values s' dn' = dir.values s dn' := by
  have hsearched : ∀ {attributes}, dir.values
      (adSearchObject dir.toLdap s dn attributes false).1 = dir.values s :=
    dir.values_searchObject
  by_cases hdn : dn = ""
  · unfold userSetAccountOption at hset
    rw [if_pos hdn] at hset
    obtain ⟨rfl, -⟩ := Prod.mk.inj (Except.pure_eq_ok.1 hset)
    rfl
  by_cases hbit : option.IsBit
  · rw [userSetAccountOption_of_isBit g dir.toLdap ndr s hdn hbit] at hset
    obtain rfl := congrArg Prod.fst (Except.ok.inj hset)
    exact (values_attributeReplaceValues_apart h).trans (by rw [hsearched])
  · cases option with
    | cantChangePassword =>
      rw [userSetAccountOption, if_neg hdn] at hset
      simp only [adSecuritySetUserCantChangePass, Except.bind_eq_ok, Except.pure_eq_ok] at hset
      obtain ⟨sd, -, sd₁, -, sd₂, -, hset⟩ := hset
      obtain rfl := congrArg Prod.fst hset
      exact (values_attributeReplaceValues_apart h).trans (by rw [hsearched])
    | passwordExpired =>
      rw [userSetAccountOption, if_neg hdn] at hset
      obtain rfl := congrArg Prod.fst (Except.pure_eq_ok.1 hset)
      exact values_attributeReplaceValues_apart h
    | _ => exact absurd (by simp [AccountOption.IsBit]) hbit

theorem values_accountOptionMultiApply (h : ApartIn dir dn dn')
    (happly : accountOptionMultiApply g ndr dir.toLdap checkMap s dn = .ok (s', success)) :
    dir.values s' dn' = dir.values s dn' := by
  have hset : ∀ {options : List AccountOption} {s s' : σ} {success : Bool},
      setAccountOptions g ndr dir.toLdap checkMap dn s options = .ok (s', success) →
        dir.values s' dn' = dir.values s dn' := by
    intro options
    induction options with
    | nil =>
      intro s s' success hset
      obtain ⟨rfl, -⟩ := Prod.mk.inj (Except.pure_eq_ok.1 hset)
      rfl
    | cons option options ih =>
      intro s s' success hset
      simp only [setAccountOptions, Except.bind_eq_ok, Except.pure_eq_ok] at hset
      obtain ⟨⟨s₁, _⟩, hfirst, ⟨s₂, _⟩, hrest, hset⟩ := hset
      obtain ⟨rfl, -⟩ := Prod.mk.inj hset
      rw [ih hrest, values_userSetAccountOption h hfirst]
  rw [accountOptionMultiApply] at happly
  obtain ⟨options, -, hoptions⟩ := Except.bind_eq_ok.1 happly
  exact (hset hoptions).trans (congrFun dir.values_searchObject dn')

/-- What is said of a user is about the values that are stored. -/
theorem optionsMet_congr {s₁ s₁' : σ} (h : dir.values s₁ dn = dir.values s dn)
    (h' : dir.values s₁' dn = dir.values s' dn) :
    OptionsMet g dir ndr checkMap dn s₁ s₁' ↔ OptionsMet g dir ndr checkMap dn s s' := by
  have hbefore : ∀ option set,
      HasOption g dir ndr dn s₁ option set ↔ HasOption g dir ndr dn s option set :=
    fun option set => hasOption_congr fun attr => by rw [h]
  have hafter : ∀ option set,
      HasOption g dir ndr dn s₁' option set ↔ HasOption g dir ndr dn s' option set :=
    fun option set => hasOption_congr fun attr => by rw [h']
  simp only [OptionsMet, hbefore, hafter]

end

/-! ## All users -/

section
variable (g : Globals) (dir : OwnDirectory σ) (ndr : Ndr) (checkMap : QHash AccountOption Bool)

/-- The state after the edit has been applied to a user. -/
def afterTarget (s : σ) (target : String) : σ :=
  match accountOptionMultiApply g ndr dir.toLdap checkMap s target with
  | .ok (s', _) => s'
  | .error _ => s

/-- Each user is read right, in the state that the users before leave. -/
def UsersRead : List String → σ → Prop
  | [], _ => True
  | target :: targetList, s =>
    OptionsRead g dir ndr checkMap target s ∧
      UsersRead targetList (afterTarget g dir ndr checkMap s target)

end

section
variable {g : Globals} {dir : OwnDirectory σ} {ndr : Ndr} {checkMap : QHash AccountOption Bool}
  {targetList : List String} {s s' : σ} {success : Bool}

theorem values_applyTargets {dn : String} (hapart : ∀ target ∈ targetList, ApartIn dir target dn)
    (h : applyTargets (accountOptionMultiApply g ndr dir.toLdap checkMap) s targetList =
      .ok (s', success)) : dir.values s' dn = dir.values s dn := by
  induction targetList generalizing s success with
  | nil =>
    obtain ⟨rfl, -⟩ := Prod.mk.inj (Except.pure_eq_ok.1 h)
    rfl
  | cons target targetList ih =>
    rw [List.forall_mem_cons] at hapart
    simp only [applyTargets, Except.bind_eq_ok, Except.pure_eq_ok] at h
    obtain ⟨⟨s₁, _⟩, hfirst, ⟨s₂, _⟩, hrest, h⟩ := h
    obtain ⟨rfl, -⟩ := Prod.mk.inj h
    rw [ih hapart.2 hrest, values_accountOptionMultiApply hapart.1 hfirst]

/-- What the edit has made of the options of all users when it reports success for each. -/
theorem usersMet_iff (hrt : g.rt.DecodesUtf8) (hndr : ndr.Keeps) (hkeys : checkMap.keys.Nodup)
    (hapart : targetList.Pairwise (ApartIn dir))
    (h : applyTargets (accountOptionMultiApply g ndr dir.toLdap checkMap) s targetList =
      .ok (s', true)) :
    (∀ target ∈ targetList, OptionsMet g dir ndr checkMap target s s') ↔
      UsersRead g dir ndr checkMap targetList s := by
  induction targetList generalizing s with
  | nil => exact iff_of_true (List.forall_mem_nil _) trivial
  | cons target targetList ih =>
    rw [List.pairwise_cons] at hapart
    simp only [applyTargets, Except.bind_eq_ok, Except.pure_eq_ok] at h
    obtain ⟨⟨s₁, thisSuccess⟩, hfirst, ⟨s₂, success⟩, hrest, h⟩ := h
    obtain ⟨rfl, hboth⟩ := Prod.mk.inj h
    obtain ⟨rfl, rfl⟩ := Bool.and_eq_true_iff.1 hboth
    have hafter : afterTarget g dir ndr checkMap s target = s₁ := by
      rw [afterTarget, hfirst]
    -- the users after this one leave it as it is, and it leaves them
    have hthis : OptionsMet g dir ndr checkMap target s s₂ ↔
        OptionsMet g dir ndr checkMap target s s₁ :=
      optionsMet_congr rfl (values_applyTargets (fun t ht => (hapart.1 t ht).symm) hrest)
    have hothers : ∀ t ∈ targetList, (OptionsMet g dir ndr checkMap t s s₂ ↔
        OptionsMet g dir ndr checkMap t s₁ s₂) := fun t ht =>
      optionsMet_congr (values_accountOptionMultiApply (hapart.1 t ht) hfirst).symm rfl
    rw [List.forall_mem_cons, forall₂_congr hothers, ih hapart.2 hrest, UsersRead, hafter]
    exact and_congr_left fun _ => hthis.trans (optionsMet_iff hrt hndr hkeys hfirst)

end

/-- The edit reports success for a user whose options are as checked, and no others changed,
    exactly when the user is read right; and when the dialog clears its mark, this holds of all
    users exactly when each of them is. -/
theorem accountOptionMulti_iff (g : Globals) (dir : OwnDirectory σ) (ndr : Ndr)
    (checkMap : QHash AccountOption Bool) (hrt : g.rt.DecodesUtf8) (hndr : ndr.Keeps)
    (hkeys : checkMap.keys.Nodup) :
    (∀ s s' target, accountOptionMultiApply g ndr dir.toLdap checkMap s target = .ok (s', true) →
      (OptionsMet g dir ndr checkMap target s s' ↔ OptionsRead g dir ndr checkMap target s)) ∧
    ∀ adFailed targetList, targetList.Pairwise (ApartIn dir) →
      ∀ before after s s' editList' applySuccess,
        propertiesMultiDialogApply adFailed targetList s
            (before ++ ⟨true, accountOptionMultiApply g ndr dir.toLdap checkMap⟩ :: after) =
          .ok (s', editList', applySuccess) →
        editList'[before.length]?.map MultiEdit.applyCheck = some false →
        ∃ s₁ s₂ before' success',
          applyMultiEdits targetList s before = .ok (s₁, before', success') ∧
          applyTargets (accountOptionMultiApply g ndr dir.toLdap checkMap) s₁ targetList =
            .ok (s₂, true) ∧
          ((∀ target ∈ targetList, OptionsMet g dir ndr checkMap target s₁ s₂) ↔
            UsersRead g dir ndr checkMap targetList s₁) := by
  refine ⟨fun s s' target h => optionsMet_iff hrt hndr hkeys h,
    fun adFailed targetList hapart before after s s' editList' applySuccess h hcleared => ?_⟩
  rw [propertiesMultiDialogApply] at h
  split_ifs at h
  · -- without a connection, the mark stays
    obtain ⟨-, h⟩ := Prod.mk.inj (Except.pure_eq_ok.1 h)
    obtain ⟨rfl, -⟩ := Prod.mk.inj h
    rw [List.getElem?_append_right le_rfl, Nat.sub_self, List.getElem?_cons_zero] at hcleared
    exact absurd (Option.some.inj hcleared) nofun
  · obtain ⟨s₁, s₂, before', success', hbefore, htargets⟩ :=
      applyTargets_of_cleared h rfl hcleared
    exact ⟨s₁, s₂, before', success', hbefore, htargets,
      usersMet_iff hrt hndr hkeys hapart htargets⟩

/-! ## A user who can be read, and one who cannot -/

theorem replaceInt_objectDirectory (s : QHash String (List QByteArray)) (dn attr : String)
    (value : BitVec 32) :
    attributeReplaceInt objectDirectory.toLdap s dn attr value =
      (s.insert attr (numberValues value), true) := by
  rw [attributeReplaceInt, attributeReplaceString, attributeReplaceValue,
    valueToList_number decodesUtf8_zeroRuntime, attributeReplaceValues,
    searchObject_objectDirectory]
  simp [objectDirectory, numberValues]

/-- The account control of a user. -/
def controlValues (value : BitVec 32) : QHash String (List QByteArray) :=
  [(attributeUserAccountControl, numberValues value)]

theorem getInt_controlValues (dn : String) (value : BitVec 32) :
    AdObject.getInt ⟨dn, controlValues value⟩ Globals.empty.rt attributeUserAccountControl =
      value := by
  rw [AdObject.getInt_eq]
  exact valuesNumber_numberValues decodesUtf8_zeroRuntime value

/-- What is stored of an option that is a bit. -/
theorem hasOption_controlValues {option : AccountOption} (hbit : option.IsBit)
    {dir : OwnDirectory (QHash String (List QByteArray))} {dn : String} {value : BitVec 32}
    {set : Bool}
    (hvalues : dir.values (controlValues value) dn attributeUserAccountControl =
      numberValues value) :
    HasOption .empty dir encodingNdr dn (controlValues value) option set ↔
      bitmaskIsSet value (accountOptionBit option) = set := by
  have hattr : (PendingEdit.accountOption option set).attribute = attributeUserAccountControl :=
    attribute_of_isBit hbit
  have hstored : storedNumber .empty dir dn (controlValues value) attributeUserAccountControl =
      value := by
    rw [storedNumber, hvalues]
    exact valuesNumber_numberValues decodesUtf8_zeroRuntime value
  rw [HasOption, holds_flag (.inl hattr), hattr, hstored]
  rfl

/-- A user who is disabled: the other options are as they were. -/
theorem accountOptionMulti_iff_disabled :
    ∃ s', accountOptionMultiApply .empty encodingNdr objectDirectory.toLdap [(.disabled, true)]
        (controlValues 0x200) "CN=user" = .ok (s', true) ∧
      OptionsMet .empty objectDirectory encodingNdr [(.disabled, true)] "CN=user"
        (controlValues 0x200) s' := by
  have hbit : AccountOption.disabled.IsBit := ⟨nofun, nofun⟩
  have hint := getInt_controlValues "CN=user" 0x200
  have hoptions : optionChangeList .empty encodingNdr [(.disabled, true)]
      ⟨"CN=user", controlValues 0x200⟩ (QHash.keys [(.disabled, true)]) = .ok [.disabled] := by
    have hkeys : QHash.keys [(AccountOption.disabled, true)] = [.disabled] := rfl
    have hcontains : (controlValues 0x200).contains attributeUserAccountControl = true := by
      simp [controlValues, QHash.contains, QHash.keys]
    rw [hkeys, optionChangeList, AdObject.getAccountOption_of_isBit _ _ _ hbit, if_pos hcontains,
      hint]
    rfl
  have happly : accountOptionMultiApply .empty encodingNdr objectDirectory.toLdap
      [(.disabled, true)] (controlValues 0x200) "CN=user" =
        .ok ((controlValues 0x200).insert attributeUserAccountControl (numberValues 0x202),
          true) := by
    rw [accountOptionMultiApply, searchObject_objectDirectory]
    dsimp only
    rw [hoptions, Except.ok_bind, setAccountOptions,
      userSetAccountOption_of_isBit _ _ _ _ (by decide) hbit, searchObject_objectDirectory,
      replaceInt_objectDirectory, hint]
    rfl
  refine ⟨_, happly, ((accountOptionMulti_iff .empty objectDirectory encodingNdr _
    decodesUtf8_zeroRuntime keeps_encodingNdr (by decide)).1 _ _ _ happly).2 ?_⟩
  rw [OptionsRead, searchObject_objectDirectory]
  intro options hoptions'
  obtain rfl := Except.ok.inj (hoptions'.symm.trans hoptions)
  refine ⟨⟨trivial, trivial⟩, fun option hoption hnot => absurd hoption hnot,
    fun option hoption set => ?_⟩
  rw [List.map_singleton, KeptBy, KeptBy]
  by_cases hother : option.IsBit
  · have hattr : (optionRequest [(.disabled, true)] .disabled).attribute =
        (PendingEdit.accountOption option set).attribute := (attribute_of_isBit hother).symm
    have hflag : (optionRequest [(.disabled, true)] .disabled).IsFlag := .inl rfl
    have hread : (optionRequest [(.disabled, true)] .disabled).numberRead .empty objectDirectory
        "CN=user" (controlValues 0x200) = 0x200 := by
      change (adSearchObject objectDirectory.toLdap _ _ _ _).2.getInt _ _ = _
      rw [searchObject_objectDirectory, hint]
    rw [leavesHeld_of_isFlag hflag hattr, hasOption_controlValues hother rfl, hread]
    rfl
  · have hne : attributeUserAccountControl ≠ attributeSecurityDescriptor ∧
        attributeUserAccountControl ≠ attributePwdLastSet := by decide
    refine leavesHeld_of_ne fun hattr => hother ⟨?_, ?_⟩
    · rintro rfl
      exact hne.1 hattr
    · rintro rfl
      exact hne.2 hattr

/-- A directory of one object that cannot be read. -/
def unreadableDirectory : OwnDirectory (QHash String (List QByteArray)) where
  __ := objectDirectory
  search s _ := (s, [.failure])
  values_search _ _ := rfl
  search_spelling _ _ _ _ _ h := nomatch List.mem_singleton.1 h
  values_read _ _ _ _ _ h := nomatch List.mem_singleton.1 h

/-- A user who needs a smart card, and should not: the object cannot be read, nothing is written,
    a success is reported, and the mark of the edit is cleared. -/
theorem not_accountOptionMulti :
    let apply := accountOptionMultiApply .empty encodingNdr unreadableDirectory.toLdap
      [(.smartcardRequired, false)]
    propertiesMultiDialogApply false ["CN=user"] (controlValues 0x40200) [⟨true, apply⟩] =
        .ok (controlValues 0x40200, [⟨false, apply⟩], true) ∧
      ¬OptionsMet .empty unreadableDirectory encodingNdr [(.smartcardRequired, false)] "CN=user"
        (controlValues 0x40200) (controlValues 0x40200) := by
  refine ⟨rfl, fun hmet => ?_⟩
  have hoption := hmet.1 .smartcardRequired (List.mem_singleton_self _)
  have hbit : AccountOption.smartcardRequired.IsBit := ⟨nofun, nofun⟩
  rw [hasOption_controlValues hbit rfl] at hoption
  exact absurd hoption (by decide)

end Admc
