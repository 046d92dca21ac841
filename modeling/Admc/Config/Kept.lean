import Admc.Config.Load

/-!
# What loading the configuration keeps

What the tables of a configuration hold after it is loaded: for the tables that are
cleared, what the directory says, and for the others what it says or, for keys that are
not loaded, what they held before (`loadTables_eq`). The attributes of classes are loaded
by a depth-first walk, which passes over the classes that are kept.

* `exists_load`: loading comes to an end, and what its tables hold then.
-/

namespace Admc

/-! ## Tables that keep what they have -/

section
variable {κ ν : Type*} [DecidableEq κ] [BEq κ] [LawfulBEq κ] {hash : QHash κ ν}
  {pairs : List (κ × ν)} {key : κ} {default : ν}

/-- What is loaded last for a key, or else what was kept. -/
def QHash.lastOr (pairs : List (κ × ν)) (kept : QHash κ ν) (key : κ) (default : ν) : ν :=
  if key ∈ pairs.map Prod.fst then (QHash.ofPairs pairs).value key default
  else kept.value key default

theorem QHash.value_insertAll :
    (hash.insertAll pairs).value key default = lastOr pairs hash key default := by
  induction pairs generalizing hash with
  | nil => rfl
  | cons pair pairs ih =>
    have hcons : ∀ hash : QHash κ ν, (hash.insertAll (pair :: pairs)).value key default =
        lastOr pairs (hash.insert pair.1 pair.2) key default := fun _ => ih
    have hpairs : (QHash.ofPairs (pair :: pairs)).value key default =
        lastOr pairs (QHash.insert [] pair.1 pair.2) key default := hcons []
    rw [hcons, lastOr, lastOr, hpairs, lastOr, QHash.value_insert, QHash.value_insert]
    by_cases hkey : key ∈ pairs.map Prod.fst
    · simp [hkey]
    · by_cases hpair : key = pair.1 <;> simp [hkey, hpair]

omit [BEq κ] [LawfulBEq κ] in
theorem QHash.mem_keys_insertAll :
    key ∈ (hash.insertAll pairs).keys ↔ key ∈ pairs.map Prod.fst ∨ key ∈ hash.keys := by
  induction pairs generalizing hash with
  | nil => exact (or_iff_right List.not_mem_nil).symm
  | cons pair pairs ih =>
    rw [List.map_cons, List.mem_cons]
    refine (@ih (hash.insert pair.1 pair.2)).trans ?_
    rw [QHash.mem_keys_insert]
    exact or_left_comm.trans or_assoc.symm

theorem QHash.lastOr_of_mem {kept kept' : QHash κ ν} (h : key ∈ pairs.map Prod.fst) :
    lastOr pairs kept key default = lastOr pairs kept' key default := by
  rw [lastOr, lastOr, if_pos h, if_pos h]

theorem QHash.lastOr_of_not_mem {kept : QHash κ ν} (h : key ∉ pairs.map Prod.fst) :
    lastOr pairs kept key default = kept.value key default := if_neg h

/-- A table says what a new one would say, if nothing is kept for other keys. -/
theorem QHash.lastOr_eq_iff {kept : QHash κ ν} :
    (∀ key, lastOr pairs kept key default = lastOr pairs [] key default) ↔
      ∀ key ∉ pairs.map Prod.fst, kept.value key default = default := by
  constructor
  · intro h key hkey
    have hkept := h key
    rwa [lastOr_of_not_mem hkey, lastOr_of_not_mem hkey] at hkept
  · intro h key
    by_cases hkey : key ∈ pairs.map Prod.fst
    · exact lastOr_of_mem hkey
    · rw [lastOr_of_not_mem hkey, lastOr_of_not_mem hkey, h key hkey]
      rfl

theorem QHash.value_mem (hash : QHash κ ν) (key : κ) (default : ν) :
    hash.value key default = default ∨ hash.value key default ∈ hash.values := by
  induction hash with
  | nil => exact .inl rfl
  | cons entry hash ih =>
    rw [value_cons]
    split_ifs
    · exact .inr List.mem_cons_self
    · exact ih.imp_right (List.mem_cons_of_mem _)

end

namespace AdConfigPrivate

/-! ## What is kept -/

/-- A configuration with the tables of another that are not cleared. -/
def keeping (p d : AdConfigPrivate) : AdConfigPrivate :=
  { d with
    rightToGuidMap := p.rightToGuidMap
    rightGuidToCnMap := p.rightGuidToCnMap
    rightsGuidToNameMap := p.rightsGuidToNameMap
    rightsNameToGuidMap := p.rightsNameToGuidMap
    rightsAppliesToMap := p.rightsAppliesToMap
    extendedRightsList := p.extendedRightsList
    rightsValidAccessesMap := p.rightsValidAccessesMap
    guidToAttributeMap := p.guidToAttributeMap
    guidToClassMap := p.guidToClassMap
    subClassOfMap := p.subClassOfMap
    classPossibleInferiorsMap := p.classPossibleInferiorsMap
    classPermissionableAttributesMap := p.classPermissionableAttributesMap }

variable {rt : Runtime} {translate : String → String → String}
  {objectSidDisplayValue : QByteArray → String} {ad : AdConnection} {locale : QLocale}
  {p d : AdConfigPrivate} {localeDir : String}

theorem loadRootDse_eq : loadRootDse rt objectSidDisplayValue ad p =
    keeping p (loadRootDse rt objectSidDisplayValue ad new) := rfl

/-- The pairs of the table of attribute GUIDs, from the objects that are loaded. -/
def attributeGuidPairs (rt : Runtime) (objects : List AdObject) : List (QByteArray × String) :=
  objects.map fun object => (object.getValue "schemaIDGUID", object.getString rt "lDAPDisplayName")

/-- The pairs of a table of classes. -/
def classPairs {ν : Type} (rt : Runtime) (f : AdObject → ν) (objects : List AdObject) :
    List (String × ν) :=
  objects.map fun object => (object.getString rt "lDAPDisplayName", f object)

/-- The pairs of the table of class GUIDs. -/
def classGuidPairs (rt : Runtime) (objects : List AdObject) : List (QByteArray × String) :=
  objects.map fun object => (object.getValue "schemaIDGUID", object.getString rt "lDAPDisplayName")

/-- The GUID of a right. -/
def rightsGuid (rt : Runtime) (object : AdObject) : QByteArray :=
  guidStringToBytes (object.getString rt "rightsGuid")

/-- The pairs of a table of rights by their names. -/
def rightPairs {ν : Type} (rt : Runtime) (f : AdObject → ν) (objects : List AdObject) :
    List (String × ν) :=
  objects.map fun object => (object.getString rt "cn", f object)

/-- The pairs of a table of rights by their GUIDs. -/
def rightGuidPairs {ν : Type} (rt : Runtime) (f : AdObject → ν) (objects : List AdObject) :
    List (QByteArray × ν) :=
  objects.map fun object => (rightsGuid rt object, f object)

/-- What is kept when the attributes are loaded. -/
def keptAttributeSchemas (rt : Runtime) (objects : List AdObject) (p : AdConfigPrivate) :
    AdConfigPrivate :=
  { p with
    guidToAttributeMap := p.guidToAttributeMap.insertAll (attributeGuidPairs rt objects) }

/-- What is kept when the classes are loaded. -/
def keptClassSchemas (rt : Runtime) (objects : List AdObject) (p : AdConfigPrivate) :
    AdConfigPrivate :=
  { p with
    guidToClassMap := p.guidToClassMap.insertAll (classGuidPairs rt objects)
    subClassOfMap := p.subClassOfMap.insertAll
      (classPairs rt (fun object => object.getString rt "subClassOf") objects)
    classPossibleInferiorsMap := p.classPossibleInferiorsMap.insertAll
      (classPairs rt (fun object => object.getStrings rt "possibleInferiors") objects) }

/-- What is kept when the extended rights are loaded. -/
def keptExtendedRights (rt : Runtime) (objects : List AdObject) (p : AdConfigPrivate) :
    AdConfigPrivate :=
  { p with
    rightToGuidMap := p.rightToGuidMap.insertAll (rightPairs rt (rightsGuid rt) objects)
    rightGuidToCnMap := p.rightGuidToCnMap.insertAll
      (rightGuidPairs rt (fun object => object.getString rt "cn") objects)
    rightsGuidToNameMap := p.rightsGuidToNameMap.insertAll
      (rightGuidPairs rt (fun object => rt.fromUtf8 (object.getValue "displayName")) objects)
    rightsNameToGuidMap := p.rightsNameToGuidMap.insertAll (rightPairs rt (rightsGuid rt) objects)
    rightsAppliesToMap := p.rightsAppliesToMap.insertAll
      (rightGuidPairs rt (getAppliesToClasses rt p) objects)
    extendedRightsList :=
      p.extendedRightsList ++ objects.map fun object => object.getString rt "cn"
    rightsValidAccessesMap := p.rightsValidAccessesMap.insertAll
      (rightPairs rt (fun object => object.getInt rt "validAccesses") objects) }

theorem foldl_loadAttributeSchema {objects : List AdObject} :
    objects.foldl (loadAttributeSchema rt) (keeping p d) =
      keeping (keptAttributeSchemas rt objects p) (objects.foldl (loadAttributeSchema rt) d) := by
  induction objects generalizing p d with
  | nil => rfl
  | cons object objects ih =>
    exact ih (p := keptAttributeSchemas rt [object] p) (d := loadAttributeSchema rt d object)

theorem foldl_loadClassSchema {objects : List AdObject} :
    objects.foldl (loadClassSchema rt) (keeping p d) =
      keeping (keptClassSchemas rt objects p) (objects.foldl (loadClassSchema rt) d) := by
  induction objects generalizing p d with
  | nil => rfl
  | cons object objects ih =>
    exact ih (p := keptClassSchemas rt [object] p) (d := loadClassSchema rt d object)

theorem foldl_loadExtendedRight {objects : List AdObject} :
    objects.foldl (loadExtendedRight rt) (keeping p d) =
      keeping (keptExtendedRights rt objects p) (objects.foldl (loadExtendedRight rt) d) := by
  induction objects generalizing p d with
  | nil =>
    rw [keptExtendedRights, List.map_nil, List.append_nil]
    rfl
  | cons object objects ih =>
    have hkept : keptExtendedRights rt objects (keptExtendedRights rt [object] p) =
        keptExtendedRights rt (object :: objects) p := by
      rw [keptExtendedRights, keptExtendedRights, keptExtendedRights, List.map_cons,
        List.append_assoc]
      rfl
    exact hkept ▸ ih (p := keptExtendedRights rt [object] p) (d := loadExtendedRight rt d object)

theorem foldl_loadDisplayName {objects : List AdObject} :
    objects.foldl (loadDisplayName rt) (keeping p d) =
      keeping p (objects.foldl (loadDisplayName rt) d) := by
  refine List.foldl_hom (keeping p) fun d object => ?_
  let displayNames := object.getStrings rt "attributeDisplayNames"
  have hpairs : ∀ d : AdConfigPrivate,
      displayNames.foldl (loadAttributeDisplayName (dnToObjectClass object.dn)) (keeping p d) =
        keeping p (displayNames.foldl (loadAttributeDisplayName (dnToObjectClass object.dn)) d) :=
    fun _ => List.foldl_hom (keeping p) fun _ _ => rfl
  have hfind : ∀ d d' : AdConfigPrivate, d = keeping p d' →
      { d with
        findAttributes := d.findAttributes.insert (dnToObjectClass object.dn)
          (displayNamesToAttributes displayNames) } =
        keeping p { d' with
          findAttributes := d'.findAttributes.insert (dnToObjectClass object.dn)
            (displayNamesToAttributes displayNames) } := by
    rintro _ d' rfl
    rfl
  rw [loadDisplayName, loadDisplayName]
  split_ifs
  · exact hfind _ _ (hpairs { d with
      classDisplayNames := d.classDisplayNames.insert (dnToObjectClass object.dn)
        (object.getString rt "classDisplayName") })
  · exact hfind _ _ (hpairs d)
  · rfl
  · rfl

theorem loadAttributeSchemas_keeping : loadAttributeSchemas rt ad (keeping p d) =
    keeping (keptAttributeSchemas rt (attributeSchemaObjects ad d.schemaDn) p)
      (loadAttributeSchemas rt ad d) := foldl_loadAttributeSchema

theorem loadClassSchemas_keeping : loadClassSchemas rt ad (keeping p d) =
    keeping (keptClassSchemas rt (classSchemaObjects ad d.schemaDn) p)
      (loadClassSchemas rt ad d) := foldl_loadClassSchema

theorem loadExtendedRights_keeping : loadExtendedRights rt ad (keeping p d) =
    keeping (keptExtendedRights rt (extendedRightObjects ad d.configurationDn) p)
      (loadExtendedRights rt ad d) := foldl_loadExtendedRight

theorem loadDisplayNames_keeping : loadDisplayNames rt ad localeDir (keeping p d) =
    keeping p (loadDisplayNames rt ad localeDir d) := foldl_loadDisplayName

theorem addCustom_keeping {attr displayName : String} :
    (keeping p d).addCustom attr displayName = keeping p (d.addCustom attr displayName) := rfl

theorem loadColumns_keeping : loadColumns rt translate ad localeDir (keeping p d) =
    keeping p (loadColumns rt translate ad localeDir d) := by
  have hfold : (getColumnValues rt ad localeDir).foldl loadColumn (keeping p d) =
      keeping p ((getColumnValues rt ad localeDir).foldl loadColumn d) := by
    refine List.foldl_hom (keeping p) fun d value => ?_
    rw [loadColumn, loadColumn]
    split <;> rfl
  simp only [loadColumns, hfold, addCustom_keeping]

theorem loadFilterContainers_keeping : loadFilterContainers rt ad localeDir (keeping p d) =
    keeping p (loadFilterContainers rt ad localeDir d) := rfl

/-- What loaders read of a configuration: the DNs that they search at, and the attributes. -/
def loaderInput (d : AdConfigPrivate) : String × String × AttributeSchemas :=
  (d.schemaDn, d.configurationDn, d.attributeSchemas)

theorem loaderInput_foldl {α : Type} (step : AdConfigPrivate → α → AdConfigPrivate)
    (hstep : ∀ d a, loaderInput (step d a) = loaderInput d) (l : List α) (d : AdConfigPrivate) :
    loaderInput (l.foldl step d) = loaderInput d := by
  induction l generalizing d with
  | nil => rfl
  | cons a l ih => exact (ih _).trans (hstep d a)

theorem loaderInput_loadAttributeSchemas : loaderInput (loadAttributeSchemas rt ad d) =
    (d.schemaDn, d.configurationDn, d.attributeSchemas.insertAll
      (classPairs rt id (attributeSchemaObjects ad d.schemaDn))) := by
  have hfold : ∀ (objects : List AdObject) (d : AdConfigPrivate),
      loaderInput (objects.foldl (loadAttributeSchema rt) d) = (d.schemaDn, d.configurationDn,
        d.attributeSchemas.insertAll (classPairs rt id objects)) := by
    intro objects
    induction objects with
    | nil => exact fun _ => rfl
    | cons object objects ih => exact fun d => ih (loadAttributeSchema rt d object)
  exact hfold _ d

theorem loaderInput_loadClassSchemas : loaderInput (loadClassSchemas rt ad d) = loaderInput d :=
  loaderInput_foldl (loadClassSchema rt) (fun _ _ => rfl) _ d

theorem loaderInput_loadDisplayNames :
    loaderInput (loadDisplayNames rt ad localeDir d) = loaderInput d := by
  refine loaderInput_foldl (loadDisplayName rt) (fun d object => ?_) _ d
  have hpairs := loaderInput_foldl (loadAttributeDisplayName (dnToObjectClass object.dn))
    (fun _ _ => rfl) (object.getStrings rt "attributeDisplayNames")
  rw [loadDisplayName]
  split_ifs
  · exact hpairs { d with
      classDisplayNames := d.classDisplayNames.insert (dnToObjectClass object.dn)
        (object.getString rt "classDisplayName") }
  · exact hpairs d
  · rfl
  · rfl

theorem loaderInput_addCustom {attr displayName : String} :
    loaderInput (d.addCustom attr displayName) = loaderInput d := rfl

theorem loaderInput_loadColumns :
    loaderInput (loadColumns rt translate ad localeDir d) = loaderInput d := by
  have hfold := loaderInput_foldl loadColumn (fun d value => by rw [loadColumn]; split <;> rfl)
    (getColumnValues rt ad localeDir) d
  simp only [loadColumns, loaderInput_addCustom, hfold]

theorem loaderInput_loadFilterContainers :
    loaderInput (loadFilterContainers rt ad localeDir d) = loaderInput d := rfl

theorem loaderInput_loadExtendedRights :
    loaderInput (loadExtendedRights rt ad d) = loaderInput d :=
  loaderInput_foldl (loadExtendedRight rt) (fun _ _ => rfl) _ d

theorem configurationDn_eq {d' : AdConfigPrivate} (h : loaderInput d = loaderInput d') :
    d.configurationDn = d'.configurationDn := congrArg (fun input => input.2.1) h

end AdConfigPrivate

/-! ## What the directory says -/

namespace AdConnection

variable (ad : AdConnection) (rt : Runtime)

/-- The DN of the schema. -/
def schemaDn : String := (ad.searchObject "" []).getString rt "schemaNamingContext"

/-- The DN of the configuration. -/
def configurationDn : String := (ad.searchObject "" []).getString rt "configurationNamingContext"

/-- The classes of the schema. -/
def classObjects : List AdObject := AdConfigPrivate.classSchemaObjects ad (ad.schemaDn rt)

/-- The extended rights. -/
def rightObjects : List AdObject := AdConfigPrivate.extendedRightObjects ad (ad.configurationDn rt)

/-- The attributes of the schema. -/
def attributeSchemas : AttributeSchemas := .ofPairs
  (AdConfigPrivate.classPairs rt id (AdConfigPrivate.attributeSchemaObjects ad (ad.schemaDn rt)))

/-- The attributes of a class that permissions can be given for, if the class is found. -/
def classAttributes (objClass : String) : Option (List String) :=
  (AdConfigPrivate.permissionableObjects ad (ad.schemaDn rt) objClass).head?.map
    (AdConfigPrivate.permissionableAttrs rt (ad.attributeSchemas rt))

end AdConnection

namespace AdConfigPrivate

variable {rt : Runtime} {translate : String → String → String}
  {objectSidDisplayValue : QByteArray → String} {ad : AdConnection} {locale : QLocale}
  {p d : AdConfigPrivate}

/-- What is kept when the tables are loaded. -/
def keptTables (rt : Runtime) (ad : AdConnection) (p : AdConfigPrivate) : AdConfigPrivate :=
  let p := keptAttributeSchemas rt (attributeSchemaObjects ad (ad.schemaDn rt)) p
  let p := keptClassSchemas rt (ad.classObjects rt) p
  keptExtendedRights rt (ad.rightObjects rt) p

/-- The DNs that the loaders after the first one search at. -/
theorem dns_loadAttributeSchemas : (loadAttributeSchemas rt ad d).schemaDn = d.schemaDn ∧
    (loadAttributeSchemas rt ad d).configurationDn = d.configurationDn :=
  ⟨congrArg Prod.fst loaderInput_loadAttributeSchemas,
    congrArg (fun input => input.2.1) loaderInput_loadAttributeSchemas⟩

/-- Tables that are loaded are those of a new configuration, but for what is kept. -/
theorem loadTables_eq : loadTables rt translate objectSidDisplayValue ad locale p =
    keeping (keptTables rt ad p) (loadTables rt translate objectSidDisplayValue ad locale new) := by
  have hdir : ∀ d : AdConfigPrivate, (keeping p d).getLocaleDir locale = d.getLocaleDir locale :=
    fun _ => rfl
  have hconfiguration : ∀ localeDir d, (loadFilterContainers rt ad localeDir (loadColumns rt
      translate ad localeDir (loadDisplayNames rt ad localeDir (loadClassSchemas rt ad
        (loadAttributeSchemas rt ad d))))).configurationDn = d.configurationDn := by
    intro localeDir d
    refine Eq.trans (b := (loadAttributeSchemas rt ad d).configurationDn)
      (configurationDn_eq ?_) dns_loadAttributeSchemas.2
    rw [loaderInput_loadFilterContainers, loaderInput_loadColumns, loaderInput_loadDisplayNames,
      loaderInput_loadClassSchemas]
  rw [loadTables, loadTables, loadRootDse_eq (p := p)]
  simp only [hdir, loadAttributeSchemas_keeping, loadClassSchemas_keeping,
    loadDisplayNames_keeping, loadColumns_keeping, loadFilterContainers_keeping,
    loadExtendedRights_keeping, dns_loadAttributeSchemas.1, hconfiguration]
  rfl

/-- What the tables hold that is read by the last loader. -/
theorem loaderInput_loadTables :
    loaderInput (loadTables rt translate objectSidDisplayValue ad locale p) =
      (ad.schemaDn rt, ad.configurationDn rt, ad.attributeSchemas rt) := by
  simp only [loadTables, loaderInput_loadExtendedRights, loaderInput_loadFilterContainers,
    loaderInput_loadColumns, loaderInput_loadDisplayNames, loaderInput_loadClassSchemas]
  exact loaderInput_loadAttributeSchemas

/-! ## The walk over the classes -/

/-- A configuration with a table of permissionable attributes. -/
def withAttributes (d : AdConfigPrivate) (table : QHash String (List String)) : AdConfigPrivate :=
  { d with classPermissionableAttributesMap := table }

/-- Entering a class: its attributes are put into the table. -/
def enterClass (rt : Runtime) (ad : AdConnection) (objClass : String) :
    Option (QHash String (List String) → QHash String (List String)) :=
  (ad.classAttributes rt objClass).map fun attrs table => table.insert objClass attrs

theorem marks_enterClass (rt : Runtime) (ad : AdConnection) :
    DepthFirst.Marks QHash.contains (enterClass rt ad) := by
  intro objClass f hf table inferior
  obtain ⟨attrs, -, rfl⟩ := Option.map_eq_some_iff.1 hf
  rw [Bool.eq_iff_iff, QHash.contains_iff, QHash.mem_keys_insert, Bool.or_eq_true,
    decide_eq_true_iff, QHash.contains_iff]

/-- The recursion of the loader is a depth-first walk. -/
theorem loadPermissionableAttributes_eq (hschemaDn : d.schemaDn = ad.schemaDn rt)
    (hschemas : d.attributeSchemas = ad.attributeSchemas rt) (n : ℕ) (objClass : String)
    (table : QHash String (List String)) :
    loadPermissionableAttributes rt ad n objClass (d.withAttributes table) =
      (DepthFirst.walk QHash.contains (enterClass rt ad) d.getClassPossibleInferiors n table
        objClass).map d.withAttributes := by
  induction n generalizing objClass table with
  | zero => rfl
  | succ n ih =>
    have hobjects : permissionableObjects ad (d.withAttributes table).schemaDn objClass =
        permissionableObjects ad (ad.schemaDn rt) objClass := by rw [← hschemaDn]; rfl
    rw [loadPermissionableAttributes, DepthFirst.walk, hobjects, enterClass,
      AdConnection.classAttributes]
    rcases permissionableObjects ad (ad.schemaDn rt) objClass with - | ⟨object, objects⟩
    · rfl
    · have hfold : ∀ (inferiors : List String) (table : QHash String (List String)),
          table.contains objClass = true → inferiors.foldlM (fun d inferior =>
            if inferior = objClass || isPermissionable d inferior then some d
            else loadPermissionableAttributes rt ad n inferior d) (d.withAttributes table) =
          (inferiors.foldlM (fun (table : QHash String (List String)) inferior =>
            if table.contains inferior then some table
            else DepthFirst.walk QHash.contains (enterClass rt ad) d.getClassPossibleInferiors n
              table inferior) table).map d.withAttributes := by
        intro inferiors
        induction inferiors with
        | nil => exact fun _ _ => rfl
        | cons inferior inferiors ih' =>
          intro table htable
          have hseen : (decide (inferior = objClass) ||
              isPermissionable (d.withAttributes table) inferior) = table.contains inferior := by
            by_cases hinferior : inferior = objClass
            · rw [hinferior, htable]
              simp
            · simp [hinferior, isPermissionable, withAttributes]
          rw [List.foldlM_cons, List.foldlM_cons, hseen]
          split_ifs with hcontains
          · exact ih' table htable
          · rw [ih]
            rcases hwalk : DepthFirst.walk QHash.contains (enterClass rt ad)
              d.getClassPossibleInferiors n table inferior with - | table'
            · rfl
            · exact ih' table' (DepthFirst.seen_walk (marks_enterClass rt ad) hwalk htable)
      refine Eq.trans ?_ (hfold _ (table.insert objClass
        (permissionableAttrs rt (ad.attributeSchemas rt) object)) ?_)
      · rw [← hschemas]
        rfl
      · rw [QHash.contains_iff, QHash.mem_keys_insert]
        exact .inl rfl

theorem value_enterAll {order : List String} {table : QHash String (List String)} {c : String}
    (horder : ∀ c ∈ order, (enterClass rt ad c).isSome = true) :
    (DepthFirst.enterAll (enterClass rt ad) order table).value c [] =
      if c ∈ order then (ad.classAttributes rt c).getD [] else table.value c [] := by
  induction order generalizing table with
  | nil => rfl
  | cons a order ih =>
    obtain ⟨f, hf⟩ := Option.isSome_iff_exists.1 (horder a List.mem_cons_self)
    obtain ⟨attrs, hattrs, rfl⟩ := Option.map_eq_some_iff.1 hf
    have hfirst : DepthFirst.enterAll (enterClass rt ad) (a :: order) table =
        DepthFirst.enterAll (enterClass rt ad) order (table.insert a attrs) := by
      rw [DepthFirst.enterAll, List.foldl_cons, hf]
      rfl
    rw [hfirst, ih fun c hc => horder c (List.mem_cons_of_mem _ hc), QHash.value_insert]
    by_cases hc : c ∈ order
    · rw [if_pos hc, if_pos (List.mem_cons_of_mem _ hc)]
    · by_cases ha : c = a
      · subst ha
        simp [hc, hattrs]
      · simp [hc, ha]

/-- The possible inferiors of a class: those in the schema, or else those that are kept. -/
def possibleInferiors (rt : Runtime) (ad : AdConnection) (p : AdConfigPrivate) (objClass : String) :
    List String :=
  QHash.lastOr (classPairs rt (fun object => object.getStrings rt "possibleInferiors")
    (ad.classObjects rt)) p.classPossibleInferiorsMap objClass []

/-- A class is found from the domain, past no class that is kept. -/
def Found (rt : Runtime) (ad : AdConnection) (p : AdConfigPrivate) (objClass : String) : Prop :=
  DepthFirst.Reaches QHash.contains (enterClass rt ad) (possibleInferiors rt ad p)
    p.classPermissionableAttributesMap "domainDNS" objClass

/-- Loading comes to an end, with the attributes of the classes that are found. -/
theorem exists_load (p : AdConfigPrivate) : ∃ (table : QHash String (List String)),
    load rt translate objectSidDisplayValue ad locale p =
      some ((keeping (keptTables rt ad p) (loadTables rt translate objectSidDisplayValue ad locale
        new)).withAttributes table) ∧
    ∀ c, (Found rt ad p c → table.value c [] = (ad.classAttributes rt c).getD []) ∧
      (¬Found rt ad p c → table.value c [] = p.getPermissionableAttributes c) := by
  let d := loadTables rt translate objectSidDisplayValue ad locale p
  have hinput : loaderInput d = (ad.schemaDn rt, ad.configurationDn rt, ad.attributeSchemas rt) :=
    loaderInput_loadTables
  have hd : d = keeping (keptTables rt ad p)
    (loadTables rt translate objectSidDisplayValue ad locale new) := loadTables_eq
  have hnext : d.getClassPossibleInferiors = possibleInferiors rt ad p := by
    funext c
    rw [hd]
    exact QHash.value_insertAll
  have hwith : d = d.withAttributes p.classPermissionableAttributesMap := by
    rw [hd]
    rfl
  have hnodes : ∀ c, ∀ c' ∈ d.getClassPossibleInferiors c,
      c' ∈ d.classPossibleInferiorsMap.values.flatten := by
    intro c c' hc'
    rcases d.classPossibleInferiorsMap.value_mem c [] with hnil | hmem
    · rw [getClassPossibleInferiors, hnil] at hc'
      exact absurd hc' List.not_mem_nil
    · exact List.mem_flatten.2 ⟨_, hmem, hc'⟩
  obtain ⟨table, hwalk⟩ := DepthFirst.exists_walk (s := p.classPermissionableAttributesMap)
    (a := "domainDNS") (n := d.classPossibleInferiorsMap.values.flatten.length + 1)
    (marks_enterClass rt ad) hnodes
    (Nat.lt_succ_of_le (List.length_filter_le _ _))
  have hload : load rt translate objectSidDisplayValue ad locale p =
      some (d.withAttributes table) := by
    have heq := loadPermissionableAttributes_eq (congrArg Prod.fst hinput)
      (congrArg (fun input => input.2.2) hinput)
      (d.classPossibleInferiorsMap.values.flatten.length + 1) "domainDNS"
      p.classPermissionableAttributesMap
    rw [hwalk, ← hwith] at heq
    exact heq
  refine ⟨table, hd ▸ hload, fun c => ?_⟩
  obtain ⟨order, rfl, horder⟩ := DepthFirst.walk_spec (marks_enterClass rt ad) hwalk
  have hfound : c ∈ order ↔ Found rt ad p c := by
    rw [horder.mem_iff, hnext]
    rfl
  rw [value_enterAll fun c hc => (horder.reached c hc).isSome]
  exact ⟨fun h => if_pos (hfound.2 h), fun h => if_neg (mt hfound.1 h)⟩

end AdConfigPrivate

end Admc
