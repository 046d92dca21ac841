import Admc.Config.Reload
import Admc.Lib.Guarded

/-!
# List accesses while loading

Loading takes values of the directory apart, and looks the parts up in lists by their number. It
is modelled once more, where a number past the end of a list stops the program. Each function is
guarded by a condition on the values that it reads:

* `guarded_tryGuidStringToBytes`: a text of a GUID is empty, or has two dashes;
* `guarded_tryLoadAttributeDisplayName`: a display name comes after a comma. Those of columns may
  have none, since the parts of these are counted;
* `tryLoad_isSome_iff`: for all of `AdConfig::load`, the condition is that of the values in the
  directory.
-/

namespace Admc

/-! ## Texts -/

/-- `std::reverse`, of an element of a list. -/
def reverseAt (i : ℕ) (out : List QByteArray) : Option (List QByteArray) :=
  out[i]?.map fun segment => out.set i segment.reverse

/-- `guid_string_to_segment_list`. -/
def tryGuidStringToSegmentList (guidString : QString) : Option (List QByteArray) := do
  let out := (guidString.splitOn '-').map fromHex
  let out ← reverseAt 0 out
  let out ← reverseAt 1 out
  reverseAt 2 out

/-- `guid_string_to_bytes`. -/
def tryGuidStringToBytes (guidString : String) : Option QByteArray :=
  if guidString = "" then some []
  else (tryGuidStringToSegmentList guidString.toList).map List.flatten

/-- The texts of GUIDs that have the segments which are reversed. -/
def HasSegments (guidString : String) : Prop := guidString = "" ∨ 2 ≤ guidString.toList.count '-'

/-- The pairs that have a display name. -/
def HasDisplayName (displayNamePair : String) : Prop := ',' ∈ displayNamePair.toList

theorem guarded_tryGuidStringToSegmentList (guidString : QString) :
    Guarded (tryGuidStringToSegmentList guidString) (2 ≤ guidString.count '-')
      (guidStringToSegmentList guidString) := by
  have hlength : ((guidString.splitOn '-').map fromHex).length = guidString.count '-' + 1 := by
    rw [List.length_map, Path.length_splitOn]
  rw [tryGuidStringToSegmentList, guidStringToSegmentList]
  generalize (guidString.splitOn '-').map fromHex = out at hlength
  constructor
  · intro h
    match out, hlength with
    | a :: b :: c :: out, _ => rfl
    | [_, _], hlength | [_], hlength | [], hlength =>
      simp only [List.length_cons, List.length_nil] at hlength
      omega
  · intro h
    match out, hlength with
    | a :: b :: c :: out, hlength =>
      simp only [List.length_cons] at hlength
      omega
    | [_, _], _ | [_], _ | [], _ => rfl

theorem guarded_tryGuidStringToBytes (guidString : String) :
    Guarded (tryGuidStringToBytes guidString) (HasSegments guidString)
      (guidStringToBytes guidString) := by
  rw [tryGuidStringToBytes, guidStringToBytes]
  split_ifs with h
  · exact (Guarded.pure []).congr (iff_of_true trivial (.inl h))
  · exact ((guarded_tryGuidStringToSegmentList guidString.toList).map List.flatten).congr
      (or_iff_right h).symm

theorem length_splitComma (text : String) :
    (splitComma text).length = text.toList.count ',' + 1 := by
  rw [splitComma, List.length_map, Path.length_splitOn]

/-- There is always a first part. -/
theorem guarded_splitComma_zero (text : String) :
    Guarded (splitComma text)[0]? True ((splitComma text).headD "") := by
  rw [List.headD_eq_head?_getD, List.head?_eq_getElem?, ← List.getD_eq_getElem?_getD]
  refine (Guarded.getElem? (splitComma text) 0 "").congr (iff_true_intro ?_)
  rw [length_splitComma]
  exact Nat.succ_pos _

theorem guarded_splitComma_one (text : String) :
    Guarded (splitComma text)[1]? (HasDisplayName text) ((splitComma text).getD 1 "") := by
  refine (Guarded.getElem? (splitComma text) 1 "").congr ?_
  rw [length_splitComma, HasDisplayName, ← List.count_pos_iff]
  omega

/-! ## Loaders -/

section
variable (rt : Runtime) (translate : String → String → String)
  (objectSidDisplayValue : QByteArray → String) (ad : AdConnection) (locale : QLocale)

namespace AdConfigPrivate

/-- `dn_to_object_class`. -/
def tryDnToObjectClass (dn : String) : Option String := do
  let rdn ← (splitComma dn)[0]?
  let out := removeIgnoringCase "CN=".toList 0 rdn.toList
  some (.ofList (removeText "-Display".toList out))

/-- `display_names_to_attributes`. -/
def tryDisplayNamesToAttributes (displayNames : List String) : Option (List String) :=
  displayNames.mapM fun displayNamePair => (splitComma displayNamePair)[0]?

/-- The inner loop of `AdConfig::load_display_names`, for one pair. -/
def tryLoadAttributeDisplayName (objectClass : String) (d : AdConfigPrivate)
    (displayNamePair : String) : Option AdConfigPrivate := do
  let split := splitComma displayNamePair
  let attributeName ← split[0]?
  let displayName ← split[1]?
  let names := d.attributeDisplayNames.value objectClass []
  some { d with
    attributeDisplayNames :=
      d.attributeDisplayNames.insert objectClass (names.insert attributeName displayName) }

/-- The loop of `AdConfig::load_display_names`, for one object. -/
def tryLoadDisplayName (d : AdConfigPrivate) (object : AdObject) : Option AdConfigPrivate := do
  let objectClass ← tryDnToObjectClass object.dn
  let d :=
    if object.attributesData.contains "classDisplayName" then
      { d with
        classDisplayNames :=
          d.classDisplayNames.insert objectClass (object.getString rt "classDisplayName") }
    else d
  if object.attributesData.contains "attributeDisplayNames" then
    let displayNames := object.getStrings rt "attributeDisplayNames"
    let d ← displayNames.foldlM (tryLoadAttributeDisplayName objectClass) d
    let attrs ← tryDisplayNamesToAttributes displayNames
    some { d with findAttributes := d.findAttributes.insert objectClass attrs }
  else some d

/-- The results of the search in `AdConfig::load_display_names`. -/
def displaySpecifierObjects (localeDir : String) : List AdObject :=
  (ad.search localeDir .children [] ["classDisplayName", "attributeDisplayNames"]).values

/-- `AdConfig::load_display_names`. -/
def tryLoadDisplayNames (localeDir : String) (d : AdConfigPrivate) : Option AdConfigPrivate :=
  (displaySpecifierObjects ad localeDir).foldlM (tryLoadDisplayName rt) d

/-- The loop of `AdConfig::load_columns`, for one value. -/
def tryLoadColumn (d : AdConfigPrivate) (value : String) : Option AdConfigPrivate :=
  let columnSplit := splitComma value
  if columnSplit.length < 2 then some d
  else do
    let attr ← columnSplit[0]?
    let attributeDisplayName ← columnSplit[1]?
    some { d with
      columns := d.columns ++ [attr]
      columnDisplayNames := d.columnDisplayNames.insert attr attributeDisplayName }

/-- `AdConfig::load_columns`. -/
def tryLoadColumns (localeDir : String) (d : AdConfigPrivate) : Option AdConfigPrivate := do
  let d ← (getColumnValues rt ad localeDir).foldlM tryLoadColumn d
  let d := d.addCustom "distinguishedName" (translate "AdConfig" "Distinguished name")
  let d := d.addCustom "description" (translate "AdConfig" "Description")
  let d := d.addCustom "objectClass" (translate "AdConfig" "Class")
  some (d.addCustom "name" (translate "AdConfig" "Name"))

/-- `AdConfig::get_applies_to_classes`. -/
def tryGetAppliesToClasses (d : AdConfigPrivate) (object : AdObject) : Option (List String) :=
  (object.getStrings rt "appliesTo").mapM fun classGuidString =>
    (tryGuidStringToBytes classGuidString).map d.guidToClass

/-- The loop of `AdConfig::load_extended_rights`, for one object. -/
def tryLoadExtendedRight (d : AdConfigPrivate) (object : AdObject) : Option AdConfigPrivate := do
  let cn := object.getString rt "cn"
  let guidString := object.getString rt "rightsGuid"
  let guid ← tryGuidStringToBytes guidString
  let displayName := object.getValue "displayName"
  let appliesTo ← tryGetAppliesToClasses rt d object
  let validAccesses := object.getInt rt "validAccesses"
  some { d with
    rightToGuidMap := d.rightToGuidMap.insert cn guid
    rightGuidToCnMap := d.rightGuidToCnMap.insert guid cn
    rightsGuidToNameMap := d.rightsGuidToNameMap.insert guid (rt.fromUtf8 displayName)
    rightsNameToGuidMap := d.rightsNameToGuidMap.insert cn guid
    rightsAppliesToMap := d.rightsAppliesToMap.insert guid appliesTo
    extendedRightsList := d.extendedRightsList ++ [cn]
    rightsValidAccessesMap := d.rightsValidAccessesMap.insert cn validAccesses }

/-- `AdConfig::load_extended_rights`. -/
def tryLoadExtendedRights (d : AdConfigPrivate) : Option AdConfigPrivate :=
  (extendedRightObjects ad d.configurationDn).foldlM (tryLoadExtendedRight rt) d

/-- `AdConfig::load` up to the last loader. -/
def tryLoadTables (d : AdConfigPrivate) : Option AdConfigPrivate := do
  let d := loadRootDse rt objectSidDisplayValue ad d
  let localeDir := d.getLocaleDir locale
  let d := loadAttributeSchemas rt ad d
  let d := loadClassSchemas rt ad d
  let d ← tryLoadDisplayNames rt ad localeDir d
  let d ← tryLoadColumns rt translate ad localeDir d
  let d := loadFilterContainers rt ad localeDir d
  tryLoadExtendedRights rt ad d

/-- `AdConfig::load`. The last loader looks at the first object that is found only if there is
    one. -/
def tryLoad (d : AdConfigPrivate) : Option (Option AdConfigPrivate) := do
  let d ← tryLoadTables rt translate objectSidDisplayValue ad locale d
  some (loadPermissionableAttributes rt ad (d.classPossibleInferiorsMap.values.flatten.length + 1)
    "domainDNS" d)

/-! ## Conditions -/

/-- The pairs of a display specifier have display names. -/
def HasDisplayNames (object : AdObject) : Prop :=
  object.attributesData.contains "attributeDisplayNames" = true →
    ∀ displayNamePair ∈ object.getStrings rt "attributeDisplayNames",
      HasDisplayName displayNamePair

/-- The GUIDs of an extended right have segments. -/
def HasGuids (object : AdObject) : Prop :=
  HasSegments (object.getString rt "rightsGuid") ∧
    ∀ classGuidString ∈ object.getStrings rt "appliesTo", HasSegments classGuidString

/-- The directory of the display specifiers. -/
def localeDirOf : String :=
  "CN=" ++ .ofList (lcidStringFromLocale locale) ++ ",CN=DisplaySpecifiers," ++
    ad.configurationDn rt

variable {rt translate objectSidDisplayValue ad locale} {d : AdConfigPrivate}

theorem guarded_tryDnToObjectClass (dn : String) :
    Guarded (tryDnToObjectClass dn) True (dnToObjectClass dn) :=
  Guarded.congr (Guarded.bind (guarded_splitComma_zero dn) fun _ => Guarded.pure _)
    (iff_of_eq (and_self True))

theorem guarded_tryDisplayNamesToAttributes (displayNames : List String) :
    Guarded (tryDisplayNamesToAttributes displayNames) True
      (displayNamesToAttributes displayNames) :=
  (Guarded.mapM fun displayNamePair _ => guarded_splitComma_zero displayNamePair).congr
    (iff_true_intro fun _ _ => trivial)

/-- A display name comes after a comma. -/
theorem guarded_tryLoadAttributeDisplayName (objectClass displayNamePair : String) :
    Guarded (tryLoadAttributeDisplayName objectClass d displayNamePair)
      (HasDisplayName displayNamePair)
      (loadAttributeDisplayName objectClass d displayNamePair) := by
  refine Guarded.congr (Guarded.bind (guarded_splitComma_zero displayNamePair) fun _ =>
    Guarded.bind (guarded_splitComma_one displayNamePair) fun _ => Guarded.pure _) ?_
  rw [true_and, and_true]

theorem guarded_tryLoadDisplayName (object : AdObject) :
    Guarded (tryLoadDisplayName rt d object) (HasDisplayNames rt object)
      (loadDisplayName rt d object) := by
  have hpairs : ∀ d : AdConfigPrivate, Guarded
      (do
        let d ← (object.getStrings rt "attributeDisplayNames").foldlM
          (tryLoadAttributeDisplayName (dnToObjectClass object.dn)) d
        let attrs ← tryDisplayNamesToAttributes (object.getStrings rt "attributeDisplayNames")
        some { d with
          findAttributes := d.findAttributes.insert (dnToObjectClass object.dn) attrs })
      (∀ displayNamePair ∈ object.getStrings rt "attributeDisplayNames",
        HasDisplayName displayNamePair) _ := fun d => by
    refine Guarded.congr (Guarded.bind (Guarded.foldlM (fun displayNamePair _ d =>
      guarded_tryLoadAttributeDisplayName _ displayNamePair) d) fun _ =>
        Guarded.bind (guarded_tryDisplayNamesToAttributes _) fun _ => Guarded.pure _) ?_
    rw [true_and, and_true]
  rw [tryLoadDisplayName, (guarded_tryDnToObjectClass object.dn).eq_some trivial, HasDisplayNames,
    loadDisplayName]
  dsimp only [Option.bind_eq_bind, Option.bind_some]
  split_ifs with hnames hclass hclass
  · exact (hpairs _).congr (imp_iff_right hnames).symm
  · exact (hpairs _).congr (imp_iff_right hnames).symm
  · exact (Guarded.pure _).congr (iff_of_true trivial fun h => absurd h hnames)
  · exact (Guarded.pure _).congr (iff_of_true trivial fun h => absurd h hnames)

/-- The parts of a column are counted. -/
theorem tryLoadColumn_eq (value : String) : tryLoadColumn d value = some (loadColumn d value) := by
  rw [tryLoadColumn, loadColumn]
  rcases splitComma value with _ | ⟨_, _ | _⟩ <;> rfl

theorem guarded_tryLoadColumns (localeDir : String) :
    Guarded (tryLoadColumns rt translate ad localeDir d) True
      (loadColumns rt translate ad localeDir d) := by
  have hcolumn : ∀ value ∈ getColumnValues rt ad localeDir, ∀ d,
      Guarded (tryLoadColumn d value) True (loadColumn d value) := fun value _ d => by
    rw [tryLoadColumn_eq]
    exact Guarded.pure _
  exact Guarded.congr (Guarded.bind (Guarded.foldlM hcolumn d) fun _ => Guarded.pure _)
    (iff_true_intro ⟨fun _ _ => trivial, trivial⟩)

theorem guarded_tryGetAppliesToClasses (object : AdObject) :
    Guarded (tryGetAppliesToClasses rt d object)
      (∀ classGuidString ∈ object.getStrings rt "appliesTo", HasSegments classGuidString)
      (getAppliesToClasses rt d object) :=
  Guarded.mapM fun classGuidString _ => (guarded_tryGuidStringToBytes classGuidString).map _

theorem guarded_tryLoadExtendedRight (object : AdObject) :
    Guarded (tryLoadExtendedRight rt d object) (HasGuids rt object)
      (loadExtendedRight rt d object) := by
  refine Guarded.congr (Guarded.bind (guarded_tryGuidStringToBytes _) fun _ =>
    Guarded.bind (guarded_tryGetAppliesToClasses object) fun _ => Guarded.pure _) ?_
  rw [and_true, HasGuids]

/-- The display specifiers are looked for where the root DSE says, and so are the rights. -/
theorem guarded_tryLoadTables :
    Guarded (tryLoadTables rt translate objectSidDisplayValue ad locale d)
      ((∀ object ∈ displaySpecifierObjects ad (localeDirOf rt ad locale),
        HasDisplayNames rt object) ∧ ∀ object ∈ ad.rightObjects rt, HasGuids rt object)
      (loadTables rt translate objectSidDisplayValue ad locale d) := by
  refine Guarded.congr (Guarded.bind (Guarded.foldlM (fun object _ _ =>
    guarded_tryLoadDisplayName object) _) fun _ => Guarded.bind (guarded_tryLoadColumns _) fun _ =>
      Guarded.foldlM (fun object _ _ => guarded_tryLoadExtendedRight object) _) ?_
  have hinput : loaderInput (loadFilterContainers rt ad (localeDirOf rt ad locale)
      (loadColumns rt translate ad (localeDirOf rt ad locale) (loadDisplayNames rt ad
        (localeDirOf rt ad locale) (loadClassSchemas rt ad (loadAttributeSchemas rt ad
          (loadRootDse rt objectSidDisplayValue ad d)))))) =
      (ad.schemaDn rt, ad.configurationDn rt, ad.attributeSchemas rt) := by
    rw [loaderInput_loadFilterContainers, loaderInput_loadColumns, loaderInput_loadDisplayNames,
      loaderInput_loadClassSchemas]
    exact loaderInput_loadAttributeSchemas
  have hdn : AdConfigPrivate.configurationDn _ = ad.configurationDn rt :=
    congrArg (fun input : String × String × AttributeSchemas => input.2.1) hinput
  rw [true_and, AdConnection.rightObjects, ← hdn]
  rfl

theorem guarded_tryLoad :
    Guarded (tryLoad rt translate objectSidDisplayValue ad locale d)
      ((∀ object ∈ displaySpecifierObjects ad (localeDirOf rt ad locale),
        HasDisplayNames rt object) ∧ ∀ object ∈ ad.rightObjects rt, HasGuids rt object)
      (load rt translate objectSidDisplayValue ad locale d) :=
  Guarded.congr (Guarded.bind guarded_tryLoadTables fun _ => Guarded.pure _)
    (iff_of_eq (and_true _))

end AdConfigPrivate

end

namespace AdConfigPrivate

/-- Loading looks nothing up past the end of a list just when the pairs of display names have
    commas, and the GUIDs of extended rights have segments. -/
theorem tryLoad_isSome_iff (rt : Runtime) (translate : String → String → String)
    (objectSidDisplayValue : QByteArray → String) (ad : AdConnection) (locale : QLocale)
    (d : AdConfigPrivate) :
    (tryLoad rt translate objectSidDisplayValue ad locale d).isSome = true ↔
      (∀ object ∈ displaySpecifierObjects ad (localeDirOf rt ad locale),
        HasDisplayNames rt object) ∧
      ∀ object ∈ ad.rightObjects rt, HasGuids rt object :=
  guarded_tryLoad.isSome_iff

/-- A directory with an extended right whose GUID has one segment. -/
def brokenDirectory : AdConnection where
  domain := "alt"
  clientUser := "user"
  results request :=
    if request.base = "" then
      [("", ⟨"", [("configurationNamingContext", [asciiBytes "CN=Configuration"])]⟩)]
    else if request.base = "CN=Extended-Rights,CN=Configuration" then
      [("CN=Broken,CN=Extended-Rights,CN=Configuration",
        ⟨"CN=Broken,CN=Extended-Rights,CN=Configuration",
          [("cn", [asciiBytes "Broken"]), ("rightsGuid", [asciiBytes "abc"])]⟩)]
    else []

/-- There are directories with which the program is stopped. -/
theorem not_tryLoad_brokenDirectory :
    ¬∀ (rt : Runtime) (translate : String → String → String)
      (objectSidDisplayValue : QByteArray → String) (ad : AdConnection) (locale : QLocale)
      (d : AdConfigPrivate),
      (tryLoad rt translate objectSidDisplayValue ad locale d).isSome = true := by
  intro h
  have hstopped : tryLoad asciiRuntime (fun _ text => text) (fun _ => "")
      brokenDirectory .english .new = none := rfl
  have hsome := h asciiRuntime (fun _ text => text) (fun _ => "") brokenDirectory .english .new
  rw [hstopped] at hsome
  exact Bool.false_ne_true hsome

end AdConfigPrivate

end Admc
