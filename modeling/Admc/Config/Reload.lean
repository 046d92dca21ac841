import Admc.Config.Kept

/-!
# Loading the configuration again

The answers of a configuration that is loaded again are those of a new one, if nothing
that was kept shows (`KeepsNothing`): no class or right that is gone, no extended right
in the list, as they are listed once more each time, and no class past which others are
not found.

* `sameAnswers_iff`: the answers are the same just then.
-/

namespace Admc

namespace AdConfigPrivate

variable (rt : Runtime) (translate : String → String → String) (ad : AdConnection)

/-! ## Answers -/

/-- Two configurations answer the same to all queries about names, rights, attributes and
    classes. -/
structure SameAnswers (d d' : AdConfigPrivate) : Prop where
  classDisplayName : ∀ objectClass,
    d.getClassDisplayName objectClass = d'.getClassDisplayName objectClass
  attributeDisplayName : ∀ attr objectClass,
    d.getAttributeDisplayName translate attr objectClass =
      d'.getAttributeDisplayName translate attr objectClass
  extendedRightsList : ∀ classList,
    d.getExtendedRightsList classList = d'.getExtendedRightsList classList
  rightName : ∀ guid language,
    d.getRightName translate guid language = d'.getRightName translate guid language
  rightsAppliesToClass : ∀ rightsCn classList,
    d.rightsAppliesToClass rightsCn classList = d'.rightsAppliesToClass rightsCn classList
  permissionableAttributes : ∀ objClass,
    d.getPermissionableAttributes objClass = d'.getPermissionableAttributes objClass
  possibleSuperiors : ∀ objectClasses,
    d.getPossibleSuperiors rt objectClasses = d'.getPossibleSuperiors rt objectClasses
  parentClass : ∀ objectClass, d.getParentClass objectClass = d'.getParentClass objectClass
  inheritChain : ∀ n objectClass,
    d.getInheritChain n objectClass = d'.getInheritChain n objectClass

/-- The class of a GUID: that in the schema, or else the one that is kept. -/
def className (p : AdConfigPrivate) (guid : QByteArray) : String :=
  QHash.lastOr (classGuidPairs rt (ad.classObjects rt)) p.guidToClassMap guid "<unknown class>"

/-- The classes that the object of a right says it applies to. -/
def appliesToClasses (p : AdConfigPrivate) (object : AdObject) : List String :=
  (object.getStrings rt "appliesTo").map fun classGuidString =>
    className rt ad p (guidStringToBytes classGuidString)

/-- The classes that a right applies to: those that the directory says, or else those that
    are kept, for the GUID that the directory says, or else the one that is kept. -/
def rightClasses (p : AdConfigPrivate) (rightsCn : String) : List String :=
  let guid := QHash.lastOr (rightPairs rt (rightsGuid rt) (ad.rightObjects rt))
    p.rightsNameToGuidMap rightsCn []
  QHash.lastOr (rightGuidPairs rt (appliesToClasses rt ad p) (ad.rightObjects rt))
    p.rightsAppliesToMap guid []

/-- Nothing that a configuration keeps shows when it is loaded. -/
structure KeepsNothing (p : AdConfigPrivate) : Prop where
  /-- Classes that are gone have no parents. -/
  parentClass : ∀ objectClass,
    objectClass ∉ (ad.classObjects rt).map (fun object => object.getString rt "lDAPDisplayName") →
      p.getParentClass objectClass = ""
  /-- Rights that are gone have no names. -/
  rightName : ∀ guid, guid ∉ (ad.rightObjects rt).map (rightsGuid rt) → ∀ language,
    p.getRightName translate guid language = translate "AdConfig" "<unknown rights>"
  /-- Rights apply to the same classes with what is kept as without. -/
  appliesTo : ∀ rightsCn objectClass, objectClass ∈ rightClasses rt ad p rightsCn ↔
    objectClass ∈ rightClasses rt ad new rightsCn
  /-- The rights that are listed already apply to no class. -/
  extendedRights : ∀ rightsCn ∈ p.extendedRightsList, rightClasses rt ad new rightsCn = []
  /-- A class that is passed over has the attributes that the directory says. -/
  passedOver : ∀ objClass, Found rt ad new objClass → ¬Found rt ad p objClass →
    p.getPermissionableAttributes objClass = (ad.classAttributes rt objClass).getD []
  /-- A class that is found just past inferiors that are kept has no attributes. -/
  foundAgain : ∀ objClass, Found rt ad p objClass → ¬Found rt ad new objClass →
    (ad.classAttributes rt objClass).getD [] = []
  /-- A class that is gone has no attributes. -/
  gone : ∀ objClass, ¬Found rt ad p objClass → ¬Found rt ad new objClass →
    p.getPermissionableAttributes objClass = []

/-! ## Each answer -/

variable {rt translate ad} {p : AdConfigPrivate}

/-- A configuration after it is loaded. -/
def loaded (rt : Runtime) (ad : AdConnection) (p d : AdConfigPrivate)
    (table : QHash String (List String)) : AdConfigPrivate :=
  (keeping (keptTables rt ad p) d).withAttributes table

variable {d : AdConfigPrivate} {table table' : QHash String (List String)}

theorem getParentClass_loaded (objectClass : String) :
    (loaded rt ad p d table).getParentClass objectClass =
      QHash.lastOr (classPairs rt (fun object => object.getString rt "subClassOf")
        (ad.classObjects rt)) p.subClassOfMap objectClass "" :=
  QHash.value_insertAll

theorem getParentClass_eq_iff : (∀ objectClass,
    (loaded rt ad p d table).getParentClass objectClass =
      (loaded rt ad new d table').getParentClass objectClass) ↔
    ∀ objectClass,
      objectClass ∉ (ad.classObjects rt).map (fun object => object.getString rt "lDAPDisplayName") →
        p.getParentClass objectClass = "" := by
  have hkeys : (classPairs rt (fun object => object.getString rt "subClassOf")
      (ad.classObjects rt)).map Prod.fst =
        (ad.classObjects rt).map fun object => object.getString rt "lDAPDisplayName" := by
    rw [classPairs, List.map_map]
    rfl
  simp only [getParentClass_loaded, ← hkeys]
  exact QHash.lastOr_eq_iff

theorem getInheritChain_congr {d' : AdConfigPrivate}
    (h : ∀ objectClass, d.getParentClass objectClass = d'.getParentClass objectClass) (n : ℕ)
    (objectClass : String) :
    d.getInheritChain n objectClass = d'.getInheritChain n objectClass := by
  induction n generalizing objectClass with
  | zero => rfl
  | succ n ih => rw [getInheritChain, getInheritChain, h, ih]

/-- A new configuration has no names of rights. -/
theorem getRightName_new (guid : QByteArray) (language : QLocale) :
    new.getRightName translate guid language = translate "AdConfig" "<unknown rights>" := by
  have hempty : (cnToMapRussian translate).contains "" = false := by
    have hpairs : ∃ pairs : List (String × String), cnToMapRussian translate =
        QHash.insertAll [] pairs ∧ "" ∉ pairs.map Prod.fst := by
      refine ⟨_, rfl, ?_⟩
      simp only [List.map_cons, List.map_nil]
      decide
    obtain ⟨pairs, hpairs, hmem⟩ := hpairs
    rw [hpairs, QHash.contains, decide_eq_false_iff_not, QHash.mem_keys_insertAll]
    exact fun h => h.elim hmem List.not_mem_nil
  simp [getRightName, new, QHash.value, hempty]

theorem keys_rightGuidPairs {ν : Type} (f : AdObject → ν) (objects : List AdObject) :
    (rightGuidPairs rt f objects).map Prod.fst = objects.map (rightsGuid rt) := by
  rw [rightGuidPairs, List.map_map]
  rfl

theorem getRightName_loaded (guid : QByteArray) (language : QLocale)
    (h : guid ∉ (ad.rightObjects rt).map (rightsGuid rt)) :
    (loaded rt ad p d table).getRightName translate guid language =
      p.getRightName translate guid language := by
  have hpairs : ∀ f : AdObject → String,
      guid ∉ (rightGuidPairs rt f (ad.rightObjects rt)).map Prod.fst := fun f => by
    rwa [keys_rightGuidPairs]
  have hcn : (loaded rt ad p d table).rightGuidToCnMap.value guid "" =
      p.rightGuidToCnMap.value guid "" :=
    QHash.value_insertAll.trans (QHash.lastOr_of_not_mem (hpairs _))
  have hname : ∀ name, (loaded rt ad p d table).rightsGuidToNameMap.value guid name =
      p.rightsGuidToNameMap.value guid name := fun _ =>
    QHash.value_insertAll.trans (QHash.lastOr_of_not_mem (hpairs _))
  rw [getRightName, getRightName, hcn, hname]

/-- The name of a right that is loaded does not depend on what is kept. -/
theorem getRightName_of_mem {guid : QByteArray} (language : QLocale)
    (h : guid ∈ (ad.rightObjects rt).map (rightsGuid rt)) :
    (loaded rt ad p d table).getRightName translate guid language =
      (loaded rt ad new d table').getRightName translate guid language := by
  have hpairs : ∀ f : AdObject → String,
      guid ∈ (rightGuidPairs rt f (ad.rightObjects rt)).map Prod.fst := fun f => by
    rwa [keys_rightGuidPairs]
  have hcn : (loaded rt ad p d table).rightGuidToCnMap.value guid "" =
      (loaded rt ad new d table').rightGuidToCnMap.value guid "" :=
    QHash.value_insertAll.trans ((QHash.lastOr_of_mem (hpairs _)).trans QHash.value_insertAll.symm)
  have hname : ∀ name, (loaded rt ad p d table).rightsGuidToNameMap.value guid name =
      (loaded rt ad new d table').rightsGuidToNameMap.value guid name := fun _ =>
    QHash.value_insertAll.trans ((QHash.lastOr_of_mem (hpairs _)).trans QHash.value_insertAll.symm)
  rw [getRightName, getRightName, hcn, hname]

theorem getRightName_eq_iff : (∀ guid language,
    (loaded rt ad p d table).getRightName translate guid language =
      (loaded rt ad new d table').getRightName translate guid language) ↔
    ∀ guid, guid ∉ (ad.rightObjects rt).map (rightsGuid rt) → ∀ language,
      p.getRightName translate guid language = translate "AdConfig" "<unknown rights>" := by
  constructor
  · intro h guid hguid language
    have hname := h guid language
    rwa [getRightName_loaded guid language hguid, getRightName_loaded guid language hguid,
      getRightName_new] at hname
  · intro h guid language
    by_cases hguid : guid ∈ (ad.rightObjects rt).map (rightsGuid rt)
    · exact getRightName_of_mem language hguid
    · rw [getRightName_loaded guid language hguid, getRightName_loaded guid language hguid,
        getRightName_new, h guid hguid language]

theorem any_contains_eq_iff {l l' : List String} :
    (∀ classList : List String, l.any classList.contains = l'.any classList.contains) ↔
      ∀ objectClass, objectClass ∈ l ↔ objectClass ∈ l' := by
  have hany : ∀ (l classList : List String),
      l.any classList.contains = true ↔ ∃ objectClass ∈ l, objectClass ∈ classList := by
    intro l classList
    rw [List.any_eq_true]
    simp only [List.contains_iff_mem]
  constructor
  · intro h objectClass
    have hone := Bool.eq_iff_iff.1 (h [objectClass])
    rw [hany, hany] at hone
    simpa using hone
  · intro h classList
    rw [Bool.eq_iff_iff, hany, hany]
    simp only [h]

theorem rightsAppliesToClass_loaded (rightsCn : String) (classList : List String) :
    (loaded rt ad p d table).rightsAppliesToClass rightsCn classList =
      (rightClasses rt ad p rightsCn).any classList.contains := by
  have hclasses : getAppliesToClasses rt (keptClassSchemas rt (ad.classObjects rt)
      (keptAttributeSchemas rt (attributeSchemaObjects ad (ad.schemaDn rt)) p)) =
        appliesToClasses rt ad p := by
    funext object
    exact List.map_congr_left fun _ _ => QHash.value_insertAll
  have hguid : (loaded rt ad p d table).rightsNameToGuidMap.value rightsCn [] =
      QHash.lastOr (rightPairs rt (rightsGuid rt) (ad.rightObjects rt)) p.rightsNameToGuidMap
        rightsCn [] := QHash.value_insertAll
  have happlies : ∀ guid, (loaded rt ad p d table).rightsAppliesToMap.value guid [] =
      QHash.lastOr (rightGuidPairs rt (appliesToClasses rt ad p) (ad.rightObjects rt))
        p.rightsAppliesToMap guid [] := fun _ => hclasses ▸ QHash.value_insertAll
  rw [rightsAppliesToClass, hguid, happlies, rightClasses]

theorem getExtendedRightsList_eq_iff (h : ∀ rightsCn classList,
    (loaded rt ad p d table).rightsAppliesToClass rightsCn classList =
      (loaded rt ad new d table').rightsAppliesToClass rightsCn classList) :
    (∀ classList, (loaded rt ad p d table).getExtendedRightsList classList =
      (loaded rt ad new d table').getExtendedRightsList classList) ↔
    ∀ rightsCn ∈ p.extendedRightsList, rightClasses rt ad new rightsCn = [] := by
  have happlies : ∀ classList, (loaded rt ad p d table).getExtendedRightsList classList =
      p.extendedRightsList.filter (fun rightsCn =>
        (rightClasses rt ad new rightsCn).any classList.contains) ++
      (loaded rt ad new d table').getExtendedRightsList classList := by
    intro classList
    have hlist : (loaded rt ad p d table).extendedRightsList =
        p.extendedRightsList ++ (loaded rt ad new d table').extendedRightsList := rfl
    rw [getExtendedRightsList, getExtendedRightsList, hlist, List.filter_append]
    simp only [h, rightsAppliesToClass_loaded]
  simp only [happlies, List.append_left_eq_self, List.filter_eq_nil_iff, List.any_eq_true,
    List.contains_iff_mem]
  constructor
  · intro hlist rightsCn hrights
    refine List.eq_nil_iff_forall_not_mem.2 fun objectClass hclass => ?_
    exact hlist [objectClass] rightsCn hrights ⟨objectClass, hclass, List.mem_singleton_self _⟩
  · rintro hclasses classList rightsCn hrights ⟨objectClass, hclass, -⟩
    rw [hclasses rightsCn hrights] at hclass
    exact List.not_mem_nil hclass

/-- The attributes of a class, after a load, are those of a new configuration just then. -/
theorem value_eq_iff {objClass : String}
    (h : (Found rt ad p objClass →
        table.value objClass [] = (ad.classAttributes rt objClass).getD []) ∧
      (¬Found rt ad p objClass →
        table.value objClass [] = p.getPermissionableAttributes objClass))
    (h' : (Found rt ad new objClass →
        table'.value objClass [] = (ad.classAttributes rt objClass).getD []) ∧
      (¬Found rt ad new objClass →
        table'.value objClass [] = new.getPermissionableAttributes objClass)) :
    table.value objClass [] = table'.value objClass [] ↔
      (Found rt ad new objClass → ¬Found rt ad p objClass →
        p.getPermissionableAttributes objClass = (ad.classAttributes rt objClass).getD []) ∧
      (Found rt ad p objClass → ¬Found rt ad new objClass →
        (ad.classAttributes rt objClass).getD [] = []) ∧
      (¬Found rt ad p objClass → ¬Found rt ad new objClass →
        p.getPermissionableAttributes objClass = []) := by
  have hnew : new.getPermissionableAttributes objClass = [] := rfl
  rw [hnew] at h'
  by_cases hp : Found rt ad p objClass <;> by_cases hn : Found rt ad new objClass
  · simp [h.1 hp, h'.1 hn, hp, hn]
  · simp [h.1 hp, h'.2 hn, hp, hn]
  · simp [h.2 hp, h'.1 hn, hp, hn]
  · simp [h.2 hp, h'.2 hn, hp, hn]

/-! ## All answers -/

variable {objectSidDisplayValue : QByteArray → String} {locale : QLocale}

/-- Loading a configuration, whatever is in it, gives the answers of a new one that is loaded
    just if nothing that it keeps shows. -/
theorem sameAnswers_iff (rt : Runtime) (translate : String → String → String)
    (objectSidDisplayValue : QByteArray → String) (ad : AdConnection) (locale : QLocale)
    (p : AdConfigPrivate) :
    ∃ d d', load rt translate objectSidDisplayValue ad locale p = some d ∧
      load rt translate objectSidDisplayValue ad locale new = some d' ∧
      (SameAnswers rt translate d d' ↔ KeepsNothing rt translate ad p) := by
  obtain ⟨table, hload, htable⟩ := @exists_load rt translate objectSidDisplayValue ad
    locale p
  obtain ⟨table', hload', htable'⟩ := @exists_load rt translate objectSidDisplayValue ad
    locale new
  let tables := loadTables rt translate objectSidDisplayValue ad locale new
  refine ⟨loaded rt ad p tables table, loaded rt ad new tables table', hload, hload', ?_⟩
  have hvalue := fun objClass => value_eq_iff (htable objClass) (htable' objClass)
  constructor
  · intro h
    have happlies := h.rightsAppliesToClass
    refine ⟨getParentClass_eq_iff.1 h.parentClass, getRightName_eq_iff.1 h.rightName, ?_,
      (getExtendedRightsList_eq_iff happlies).1 h.extendedRightsList, ?_, ?_, ?_⟩
    · intro rightsCn objectClass
      simp only [rightsAppliesToClass_loaded] at happlies
      exact any_contains_eq_iff.1 (happlies rightsCn) objectClass
    · exact fun objClass => ((hvalue objClass).1 (h.permissionableAttributes objClass)).1
    · exact fun objClass => ((hvalue objClass).1 (h.permissionableAttributes objClass)).2.1
    · exact fun objClass => ((hvalue objClass).1 (h.permissionableAttributes objClass)).2.2
  · intro h
    have happlies : ∀ rightsCn classList,
        (loaded rt ad p tables table).rightsAppliesToClass rightsCn classList =
          (loaded rt ad new tables table').rightsAppliesToClass rightsCn classList := by
      intro rightsCn
      simp only [rightsAppliesToClass_loaded]
      exact any_contains_eq_iff.2 (h.appliesTo rightsCn)
    have hparent : ∀ objectClass,
        (loaded rt ad p tables table).getParentClass objectClass =
          (loaded rt ad new tables table').getParentClass objectClass :=
      getParentClass_eq_iff.2 h.parentClass
    exact ⟨fun _ => rfl, fun _ _ => rfl,
      (getExtendedRightsList_eq_iff happlies).2 h.extendedRights,
      getRightName_eq_iff.2 h.rightName, happlies,
      fun objClass => (hvalue objClass).2
        ⟨h.passedOver objClass, h.foundAgain objClass, h.gone objClass⟩,
      fun _ => rfl, hparent, fun n objectClass => getInheritChain_congr hparent n objectClass⟩

/-! ## A right that is listed twice -/

/-- The bytes of a text of ASCII. -/
def asciiBytes (text : String) : QByteArray := text.toList.map fun c => .ofNat c.toNat

/-- A runtime for texts of ASCII. -/
def asciiRuntime : Runtime :=
  { zeroRuntime with fromUtf8 := fun bytes => .ofList (bytes.map fun byte => .ofNat byte.toNat) }

/-- A directory with a class, and with a right that applies to it. -/
def passwordDirectory : AdConnection where
  domain := "alt"
  clientUser := "user"
  results request :=
    if request.base = "" then
      [("", ⟨"", [("schemaNamingContext", [asciiBytes "CN=Schema"]),
        ("configurationNamingContext", [asciiBytes "CN=Configuration"])]⟩)]
    else if request.filter = "(objectClass=classSchema)" then
      [("CN=User,CN=Schema", ⟨"CN=User,CN=Schema", [("lDAPDisplayName", [asciiBytes "user"]),
        ("schemaIDGUID", [guidStringToBytes "bf967aba-0de6-11d0-a285-00aa003049e2"])]⟩)]
    else if request.base = "CN=Extended-Rights,CN=Configuration" then
      [("CN=User-Change-Password,CN=Extended-Rights,CN=Configuration",
        ⟨"CN=User-Change-Password,CN=Extended-Rights,CN=Configuration",
          [("cn", [asciiBytes "User-Change-Password"]),
            ("rightsGuid", [asciiBytes "ab721a53-1e2f-11d0-9819-00aa0040529b"]),
            ("appliesTo", [asciiBytes "bf967aba-0de6-11d0-a285-00aa003049e2"])]⟩)]
    else []

/-- A configuration that is loaded twice from one directory lists a right twice, and a new one
    lists it once. -/
theorem not_sameAnswers_passwordDirectory :
    ¬∀ (rt : Runtime) (translate : String → String → String)
      (objectSidDisplayValue : QByteArray → String) (ad ad' : AdConnection) (locale : QLocale)
      (p d d' : AdConfigPrivate),
      load rt translate objectSidDisplayValue ad locale new = some p →
      load rt translate objectSidDisplayValue ad' locale p = some d →
      load rt translate objectSidDisplayValue ad' locale new = some d' →
      SameAnswers rt translate d d' := by
  intro h
  have hrights : ∃ p d d',
      load asciiRuntime (fun _ text => text) (fun _ => "") passwordDirectory .english new =
        some p ∧
      load asciiRuntime (fun _ text => text) (fun _ => "") passwordDirectory .english p = some d ∧
      load asciiRuntime (fun _ text => text) (fun _ => "") passwordDirectory .english new =
        some d' ∧
      d.getExtendedRightsList ["user"] = ["User-Change-Password", "User-Change-Password"] ∧
      d'.getExtendedRightsList ["user"] = ["User-Change-Password"] :=
    ⟨_, _, _, rfl, rfl, rfl, by decide, by decide⟩
  obtain ⟨p, d, d', hp, hd, hd', htwice, honce⟩ := hrights
  have hsame := (h _ _ _ _ _ _ p d d' hp hd hd').extendedRightsList ["user"]
  rw [htwice, honce] at hsame
  exact absurd hsame (by decide)

end AdConfigPrivate

end Admc
