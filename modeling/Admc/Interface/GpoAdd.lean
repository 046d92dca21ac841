import Admc.Interface.Stores

/-!
# Creating a group policy

`AdInterface::gpo_add` creates the folder of a policy on the share, with two folders
and a file in it, and the object of the policy in the directory, with six attributes
and two containers below it. After a step that fails it deletes what there is of both.

The result of setting an attribute is looked at, but not when the last of these
attributes is set again, after each of the containers: this was meant for the
containers, but is done to the object of the policy once more. `undoneOrCreated_iff`:
no failing step is reported as a success, and a failure leaves both stores as they
were, exactly unless one of these two writes is the only kind of step that fails.
-/

namespace Admc

/-- The steps of `gpo_add` that may fail. -/
inductive GpoAddStep
  | mkdirGpt
  | mkdirMachine
  | mkdirUser
  | openIni
  | writeIni
  | addGpc
  | replace (attr : String)
  | addUser
  | replaceAfterUser
  | addMachine
  | replaceAfterMachine
  deriving DecidableEq

/-- The two stores. -/
structure GpoStores where
  share : Share
  entries : Entries
  deriving DecidableEq

/-- What a policy is created from: the controller of the domain, the name of the domain in
    lower case and its DN, the new UUID and the display name. -/
structure NewGpo where
  dc : String
  domain : String
  domainDn : String
  uuid : String
  displayName : String

namespace NewGpo

variable (gpo : NewGpo)

/-- `filesys_path`. -/
def filesysPath : String :=
  "\\\\" ++ gpo.domain ++ "\\sysvol\\" ++ gpo.domain ++ "\\Policies\\" ++ gpo.uuid

/-- `gpt_path`. -/
def gptPath : String := filesysPathToSmbPath gpo.dc gpo.filesysPath

/-- `gpc_dn`. -/
def gpcDn : String := "CN=" ++ gpo.uuid ++ ",CN=Policies,CN=System," ++ gpo.domainDn

/-- `attribute_value_map`. -/
def attributeValueMap : List (String × String) :=
  [("displayName", gpo.displayName), ("gPCFileSysPath", gpo.filesysPath), ("flags", "0"),
    ("versionNumber", "0"), ("showInAdvancedViewOnly", "TRUE"), ("gPCFunctionalityVersion", "2")]

/-- `ini_contents`. -/
def iniContents : String := "[General]\r\nVersion=0\r\n"

end NewGpo

/-- How the servers answer: which steps they refuse, and how much of the file they write. -/
structure GpoServers where
  refuses : GpoAddStep → Bool
  bytesWritten : ℕ

/-- The outcome of a step: an error with what is stored then, or what is stored. -/
abbrev GpoStepResult := Except (String × GpoStores) GpoStores

namespace GpoAdd

variable (g : Globals) (ndr : Ndr) (servers : GpoServers) (gpo : NewGpo)

/-- `smbc_mkdir`, and what `gpo_add` does if it fails. -/
def mkdir (step : GpoAddStep) (path error : String) (stores : GpoStores) : GpoStepResult :=
  if servers.refuses step then .error (error, stores)
  else .ok { stores with share := (path, .folder) :: stores.share }

/-- Writing the file of the policy: opening it creates it. -/
def writeIni (stores : GpoStores) : GpoStepResult :=
  let path := gpo.gptPath ++ "/GPT.INI"
  if servers.refuses .openIni then .error ("Failed to open GPT ini file.", stores)
  else if servers.refuses .writeIni then
    .error ("Failed to write GPT ini file.",
      { stores with share := (path, .file []) :: stores.share })
  else
    let contents := (toUtf8 NewGpo.iniContents).take servers.bytesWritten
    .ok { stores with share := (path, .file contents) :: stores.share }

/-- `AdInterface::object_add`, with the class of the object. -/
def objectAdd (step : GpoAddStep) (dn objectClass : String) (stores : GpoStores) :
    GpoStores × Bool :=
  if servers.refuses step then (stores, false)
  else ({ stores with entries := (dn, [("objectClass", [toUtf8 objectClass])]) :: stores.entries },
    true)

/-- Setting an attribute of the object of the policy. -/
def replaceAttribute (step : GpoAddStep) (attr value : String) (stores : GpoStores) :
    GpoStores × Bool :=
  let (entries, success) := attributeReplaceString (entriesLdap (servers.refuses step))
    stores.entries gpo.gpcDn attr value
  ({ stores with entries }, success)

/-- The loop over the attributes. -/
def setAttributes : List (String × String) → GpoStores → GpoStepResult
  | [], stores => .ok stores
  | (attr, value) :: attributes, stores =>
    match replaceAttribute servers gpo (.replace attr) attr value stores with
    | (stores, true) => setAttributes attributes stores
    | (stores, false) => .error ("Failed to set GPC attribute " ++ attr ++ ".", stores)

/-- Adding a container. The attribute is set on the object of the policy again, whatever
    comes of both. -/
def addContainer (step replaceStep : GpoAddStep) (name error : String) (stores : GpoStores) :
    GpoStepResult :=
  let (stores, resultAdd) := objectAdd servers step ("CN=" ++ name ++ "," ++ gpo.gpcDn) "container"
    stores
  let (stores, _) := replaceAttribute servers gpo replaceStep "showInAdvancedViewOnly" "TRUE" stores
  if !resultAdd then .error (error, stores) else .ok stores

/-- The steps of `gpo_add`, with the attributes in the order in which the hash table gives
    them. Permissions, which are set at the end whether this succeeds or not, are not part
    of the stores. -/
def createParts (attributes : List (String × String)) (stores : GpoStores) : GpoStepResult := do
  let stores ← mkdir servers .mkdirGpt gpo.gptPath "Failed to create GPT root dir." stores
  let stores ← mkdir servers .mkdirMachine (gpo.gptPath ++ "/Machine")
    "Failed to create GPT machine dir." stores
  let stores ← mkdir servers .mkdirUser (gpo.gptPath ++ "/User") "Failed to create GPT user dir."
    stores
  let stores ← writeIni servers gpo stores
  let (stores, resultAdd) := objectAdd servers .addGpc gpo.gpcDn "groupPolicyContainer" stores
  if !resultAdd then throw ("Failed to create GPC object.", stores)
  let stores ← setAttributes servers gpo attributes stores
  let stores ← addContainer servers gpo .addUser .replaceAfterUser "User"
    "Failed to create user folder object for GPO." stores
  addContainer servers gpo .addMachine .replaceAfterMachine "Machine"
    "Failed to create machine folder object for GPO." stores

/-- `cleanup`, in the directory, and whether what it has done has succeeded. -/
def cleanupGpc (entries : Entries) : Except Fault (Entries × Bool) :=
  let (entries, gpcObject) := adSearchObject (entriesLdap false) entries gpo.gpcDn [] false
  let gpcExists := !gpcObject.attributesData.isEmpty
  if gpcExists then objectDelete g (entriesLdap false) ndr entries gpo.gpcDn
  else .ok (entries, true)

/-- `cleanup`, on the share. None when the walk of the folder takes longer than `fuel`. -/
def cleanupGpt (fuel : ℕ) (share : Share) : Option (Share × Bool) :=
  match shareSmb.stat share gpo.gptPath with
  | (share, none) => some (share, true)
  | (share, some _) =>
    (deleteGpt shareSmb fuel share gpo.gptPath).map fun gpt => (gpt.state, gpt.success)

/-- `cleanup`. -/
def cleanup (fuel : ℕ) (stores : GpoStores) : Except Fault (Option (GpoStores × Bool)) := do
  let (entries, deletedGpc) ← cleanupGpc g ndr gpo stores.entries
  return (cleanupGpt gpo fuel stores.share).map fun (share, deletedGpt) =>
    (⟨share, entries⟩, deletedGpc && deletedGpt)

/-- What comes of creating a policy: what is stored, the returned value with the DN of the
    policy, the messages, and whether a clean-up has succeeded. -/
structure Result where
  stores : GpoStores
  success : Bool
  dnOut : Option String
  messages : List String
  cleanedUp : Bool

/-- `error_message` of `gpo_add`. -/
def errorMessages (isDomainAdmin : Bool) (error : String) : List String :=
  (if isDomainAdmin then [] else ["Warning: User is not domain administrator."]) ++
    ["Failed to create GPO.", error]

/-- `AdInterface::gpo_add`. -/
def gpoAdd (isDomainAdmin : Bool) (fuel : ℕ) (attributes : List (String × String))
    (stores : GpoStores) : Except Fault (Option Result) :=
  match createParts servers gpo attributes stores with
  | .ok stores => return some ⟨stores, true, some gpo.gpcDn, [], true⟩
  | .error (error, stores) => do
    let cleaned ← cleanup g ndr gpo fuel stores
    return cleaned.map fun (stores, cleanedUp) =>
      ⟨stores, false, none, errorMessages isDomainAdmin error, cleanedUp⟩

/-! ## What is wanted -/

/-- The steps whose outcome is looked at. -/
def isChecked : GpoAddStep → Bool
  | .replaceAfterUser | .replaceAfterMachine => false
  | _ => true

/-- A step fails if it is refused, but an attribute is not set at all to an empty value. -/
def Fails (step : GpoAddStep) : Prop :=
  servers.refuses step = true ∧
    ∀ attr, step = .replace attr → ∃ value ≠ "", (attr, value) ∈ gpo.attributeValueMap

/-- All parts of a policy are there. -/
structure AllParts (stores : GpoStores) : Prop where
  gpt : stores.share.lookup gpo.gptPath = some .folder
  machine : stores.share.lookup (gpo.gptPath ++ "/Machine") = some .folder
  user : stores.share.lookup (gpo.gptPath ++ "/User") = some .folder
  ini : ∃ contents, stores.share.lookup (gpo.gptPath ++ "/GPT.INI") = some (.file contents)
  gpc : ∃ attrs, stores.entries.lookup gpo.gpcDn = some attrs ∧
    attrs.value "objectClass" [] = [toUtf8 "groupPolicyContainer"] ∧
    ∀ attr value, (attr, value) ∈ gpo.attributeValueMap →
      attrs.value attr [] = valueToList (toUtf8 value)
  containers : ∀ name ∈ ["User", "Machine"],
    stores.entries.lookup ("CN=" ++ name ++ "," ++ gpo.gpcDn) =
      some [("objectClass", [toUtf8 "container"])]

/-- The new UUID names no policy. -/
structure IsNew (stores : GpoStores) : Prop where
  share : stores.share.Free gpo.gptPath
  entries : stores.entries.Free gpo.gpcDn

/-- If a step fails, creating a policy returns false; if it does, both stores are as before
    once what the clean-up does has succeeded; and else all parts are there. -/
def UndoneOrCreated (isDomainAdmin : Bool) (fuel : ℕ) (attributes : List (String × String))
    (stores : GpoStores) : Prop :=
  gpoAdd g ndr servers gpo isDomainAdmin fuel attributes stores ≠ .ok none ∧
    ∀ result, gpoAdd g ndr servers gpo isDomainAdmin fuel attributes stores = .ok (some result) →
      ((∃ step, Fails servers gpo step) → result.success = false) ∧
      (result.success = false → result.cleanedUp = true → result.stores = stores) ∧
      (result.success = true → AllParts gpo result.stores)

/-! ## What is stored on the way -/

/-- A directory with the object of a policy and containers below it. -/
def withGpc (entries : Entries) (containers : List String)
    (attrs : QHash String (List QByteArray)) : Entries :=
  containers.map (fun name =>
    ("CN=" ++ name ++ "," ++ gpo.gpcDn, [("objectClass", [toUtf8 "container"])])) ++
    (gpo.gpcDn, attrs) :: entries

/-- What is stored when only parts of the policy have been added. -/
structure Grown (before after : GpoStores) : Prop where
  share : after.share = before.share ∨ ∃ children, ChildNames children ∧ children.length ≤ 3 ∧
    after.share = before.share.withFolder gpo.gptPath children
  entries : after.entries = before.entries ∨ ∃ containers attrs, attrs ≠ [] ∧
    after.entries = withGpc gpo before.entries containers attrs

section
variable {g ndr servers gpo} {before : GpoStores} {containers : List String}
  {attrs : QHash String (List QByteArray)} {name attr value : String}

theorem isBelow_container : isBelow ("CN=" ++ name ++ "," ++ gpo.gpcDn) gpo.gpcDn = true := by
  refine List.isSuffixOf_iff_suffix.2 ⟨("CN=" ++ name).toList, ?_⟩
  simp

/-- The object of the policy is what the search for it finds. -/
theorem search_withGpc (hfree : before.entries.Free gpo.gpcDn) (refuses : Bool)
    (attributes : List String) :
    adSearchObject (entriesLdap refuses) (withGpc gpo before.entries containers attrs) gpo.gpcDn
        attributes false =
      (withGpc gpo before.entries containers attrs, ⟨gpo.gpcDn, attrs.filter fun value =>
        attributes.isEmpty || value.1 ∈ attributes⟩) := by
  have hcontainers : (containers.map fun name => ("CN=" ++ name ++ "," ++ gpo.gpcDn,
      [("objectClass", [toUtf8 "container"])])).filter
        (fun entry => SearchScope.object.includes gpo.gpcDn entry.1) = [] := by
    refine List.filter_eq_nil_iff.2 fun entry hentry => ?_
    obtain ⟨name, -, rfl⟩ := List.mem_map.1 hentry
    have hne : "CN=" ++ name ++ "," ++ gpo.gpcDn ≠ gpo.gpcDn := ne_of_isBelow isBelow_container
    exact fun h => hne (of_decide_eq_true h)
  have hbefore : before.entries.filter
      (fun entry => SearchScope.object.includes gpo.gpcDn entry.1) = [] := by
    refine List.filter_eq_nil_iff.2 fun entry hentry => ?_
    simpa [SearchScope.includes] using (hfree entry hentry).1
  have hself : SearchScope.object.includes gpo.gpcDn gpo.gpcDn = true := decide_eq_true rfl
  simp only [adSearchObject, adSearch, entriesLdap, withGpc, List.filter_append, hcontainers,
    List.filter_cons, hself, if_true, hbefore, List.nil_append, List.map_cons, List.map_nil]
  simp [searchResults, searchResultsFrom, QHash.insert, QHash.value]

/-- Only the object of the policy is changed. -/
theorem replace_withGpc (hfree : before.entries.Free gpo.gpcDn) {values : List QByteArray}
    (hvalues : values ≠ []) :
    (withGpc gpo before.entries containers attrs).replace gpo.gpcDn attr values =
      withGpc gpo before.entries containers (attrs.insert attr values) := by
  have hcontainers : Entries.replace (containers.map fun name =>
      ("CN=" ++ name ++ "," ++ gpo.gpcDn, [("objectClass", [toUtf8 "container"])])) gpo.gpcDn attr
        values = containers.map fun name =>
          ("CN=" ++ name ++ "," ++ gpo.gpcDn, [("objectClass", [toUtf8 "container"])]) := by
    refine replace_of_ne fun entry hentry => ?_
    obtain ⟨name, -, rfl⟩ := List.mem_map.1 hentry
    exact ne_of_isBelow isBelow_container
  have hbefore : before.entries.replace gpo.gpcDn attr values = before.entries :=
    replace_of_ne fun entry hentry => (hfree entry hentry).1
  have hself : Entries.replace ((gpo.gpcDn, attrs) :: before.entries) gpo.gpcDn attr values =
      (gpo.gpcDn, attrs.insert attr values) :: before.entries.replace gpo.gpcDn attr values := by
    simp [Entries.replace, hvalues]
  rw [hbefore] at hself
  exact (List.map_append ..).trans (congrArg₂ _ hcontainers hself)

theorem replaceAttribute_of_ne (hfree : before.entries.Free gpo.gpcDn) (hvalue : value ≠ "")
    (step : GpoAddStep) (share : Share) :
    replaceAttribute servers gpo step attr value
        ⟨share, withGpc gpo before.entries containers attrs⟩ =
      if servers.refuses step then
        (⟨share, withGpc gpo before.entries containers attrs⟩, false)
      else (⟨share, withGpc gpo before.entries containers (attrs.insert attr [toUtf8 value])⟩,
        true) := by
  have hbytes := toUtf8_ne_nil decodesUtf8_zeroRuntime hvalue
  have hlist : valueToList (toUtf8 value) = [toUtf8 value] := if_neg (by simpa using hbytes)
  have hany : (withGpc gpo before.entries containers attrs).any (·.1 = gpo.gpcDn) = true := by
    simp [withGpc]
  simp only [replaceAttribute, attributeReplaceString, attributeReplaceValue, hlist,
    attributeReplaceValues, search_withGpc hfree]
  cases hrefuses : servers.refuses step <;>
    simp [entriesLdap, hany, replace_withGpc hfree]

/-- No request is sent to set an attribute that is not there to an empty value. -/
theorem replaceAttribute_empty (hfree : before.entries.Free gpo.gpcDn) (hattr : attr ∉ attrs.keys)
    (step : GpoAddStep) (share : Share) :
    replaceAttribute servers gpo step attr "" ⟨share, withGpc gpo before.entries containers attrs⟩ =
      (⟨share, withGpc gpo before.entries containers attrs⟩, true) := by
  have hlist : valueToList (toUtf8 "") = [] := rfl
  simp only [replaceAttribute, attributeReplaceString, attributeReplaceValue, hlist,
    attributeReplaceValues, search_withGpc hfree]
  have hold : (AdObject.mk gpo.gpcDn (attrs.filter fun value =>
      [attr].isEmpty || value.1 ∈ [attr])).getValues attr = [] := by
    refine QHash.value_of_not_mem_keys fun hkey => hattr ?_
    obtain ⟨entry, hentry, rfl⟩ := List.mem_map.1 hkey
    exact List.mem_map_of_mem (List.mem_of_mem_filter hentry)
  rw [hold]
  rfl

/-! ## The steps -/

variable (servers gpo before) in
/-- What is known when a step ends the creation. -/
def Stopped (failure : String × GpoStores) : Prop :=
  (∃ step, isChecked step = true ∧ Fails servers gpo step) ∧ Grown gpo before failure.2

/-- Only the attributes with a value are inserted. -/
def insertValue (attrs : QHash String (List QByteArray)) (entry : String × String) :
    QHash String (List QByteArray) :=
  if entry.2 = "" then attrs else attrs.insert entry.1 [toUtf8 entry.2]

theorem insertValue_ne_nil {entry : String × String} (h : attrs ≠ []) :
    insertValue attrs entry ≠ [] := by
  rw [insertValue, QHash.insert]
  split_ifs
  exacts [h, fun hnil => h (List.map_eq_nil_iff.1 hnil), 
    List.append_ne_nil_of_right_ne_nil _ (List.cons_ne_nil _ _)]

theorem value_insertValue {entry : String × String} (h : entry.1 ∉ attrs.keys) (key : String) :
    (insertValue attrs entry).value key [] =
      if key = entry.1 then valueToList (toUtf8 entry.2) else attrs.value key [] := by
  rw [insertValue]
  split_ifs with hempty hkey hkey
  · rw [hkey, QHash.value_of_not_mem_keys h, hempty]
    rfl
  · rfl
  · rw [QHash.value_insert, if_pos hkey]
    exact (if_neg (by simpa using toUtf8_ne_nil decodesUtf8_zeroRuntime hempty)).symm
  · rw [QHash.value_insert, if_neg hkey]

theorem mem_keys_insertValue {entry : String × String} {key : String}
    (h : key ∈ (insertValue attrs entry).keys) : key = entry.1 ∨ key ∈ attrs.keys := by
  rw [insertValue] at h
  split_ifs at h
  exacts [.inr h, QHash.mem_keys_insert.1 h]

theorem keys_attributeValueMap : (gpo.attributeValueMap.map Prod.fst).Nodup := by
  simp [NewGpo.attributeValueMap]

/-- Setting an attribute fails if it is refused, and the attribute has a value. -/
theorem fails_replace_iff {entry : String × String} (h : entry ∈ gpo.attributeValueMap) :
    Fails servers gpo (.replace entry.1) ↔
      servers.refuses (.replace entry.1) = true ∧ entry.2 ≠ "" := by
  refine and_congr_right fun _ => ⟨fun hasked => ?_, fun hvalue attr hattr => ?_⟩
  · obtain ⟨value, hvalue, hmem⟩ := hasked _ rfl
    have heq := List.inj_on_of_nodup_map keys_attributeValueMap h hmem rfl
    rwa [heq]
  · exact ⟨entry.2, hvalue, GpoAddStep.replace.inj hattr ▸ h⟩

/-- Setting attributes that are not there: the loop stops at the first one that is refused. -/
theorem setAttributes_yields (hfree : before.entries.Free gpo.gpcDn)
    {children : List (String × ShareEntry)} (hchildren : ChildNames children)
    (hlength : children.length ≤ 3) {attributes : List (String × String)}
    (hmap : attributes ⊆ gpo.attributeValueMap) (hnodup : (attributes.map Prod.fst).Nodup)
    (hnew : ∀ entry ∈ attributes, entry.1 ∉ attrs.keys) (hattrs : attrs ≠ []) :
    (setAttributes servers gpo attributes
      ⟨before.share.withFolder gpo.gptPath children, withGpc gpo before.entries [] attrs⟩).Yields
      (Stopped servers gpo before) fun stores =>
        (∀ entry ∈ attributes, ¬Fails servers gpo (.replace entry.1)) ∧
        stores = ⟨before.share.withFolder gpo.gptPath children,
          withGpc gpo before.entries [] (attributes.foldl insertValue attrs)⟩ := by
  induction attributes generalizing attrs with
  | nil => exact ⟨nofun, rfl⟩
  | cons entry attributes ih =>
    obtain ⟨hentry, hmap⟩ := List.cons_subset.1 hmap
    obtain ⟨hattr, hnew⟩ := List.forall_mem_cons.1 hnew
    rw [List.map_cons, List.nodup_cons] at hnodup
    -- the attributes that follow are not there after this one either
    have hnext : ∀ entry' ∈ attributes, entry'.1 ∉ (insertValue attrs entry).keys := by
      intro entry' hentry' hkey
      obtain heq | hkey := mem_keys_insertValue hkey
      exacts [hnodup.1 (heq ▸ List.mem_map_of_mem hentry'), hnew entry' hentry' hkey]
    have ih := ih hmap hnodup.2 hnext (insertValue_ne_nil hattrs)
    have hfails : Fails servers gpo (.replace entry.1) ↔ _ := fails_replace_iff hentry
    by_cases hvalue : entry.2 = ""
    · have hset : replaceAttribute servers gpo (.replace entry.1) entry.1 ""
          ⟨before.share.withFolder gpo.gptPath children, withGpc gpo before.entries [] attrs⟩ = _ :=
        replaceAttribute_empty hfree hattr _ _
      rw [insertValue, if_pos hvalue] at ih
      simp only [setAttributes, hvalue, hset, List.foldl_cons, insertValue, if_true]
      exact ih.mono fun stores h =>
        ⟨List.forall_mem_cons.2 ⟨fun h => (hfails.1 h).2 hvalue, h.1⟩, h.2⟩
    · have hset : replaceAttribute servers gpo (.replace entry.1) entry.1 entry.2
          ⟨before.share.withFolder gpo.gptPath children, withGpc gpo before.entries [] attrs⟩ = _ :=
        replaceAttribute_of_ne hfree hvalue _ _
      rw [insertValue, if_neg hvalue] at ih
      simp only [setAttributes, hset, List.foldl_cons, insertValue, if_neg hvalue]
      cases hrefuses : servers.refuses (.replace entry.1) with
      | true =>
        refine ⟨⟨_, rfl, hfails.2 ⟨hrefuses, hvalue⟩⟩, .inr ⟨children, hchildren, hlength, rfl⟩,
          .inr ⟨[], attrs, hattrs, rfl⟩⟩
      | false =>
        refine ih.mono fun stores h => ⟨List.forall_mem_cons.2 ⟨fun h => ?_, h.1⟩, h.2⟩
        exact Bool.false_ne_true (hrefuses.symm.trans (hfails.1 h).1)

variable (gpo) in
/-- The values of the attributes of the object of a policy. -/
structure HasValues (attrs : QHash String (List QByteArray)) : Prop where
  objectClass : attrs.value "objectClass" [] = [toUtf8 "groupPolicyContainer"]
  value : ∀ entry ∈ gpo.attributeValueMap, attrs.value entry.1 [] = valueToList (toUtf8 entry.2)

theorem value_foldl_insertValue {attributes : List (String × String)}
    (hnodup : (attributes.map Prod.fst).Nodup)
    (hnew : ∀ entry ∈ attributes, entry.1 ∉ attrs.keys) :
    (∀ entry ∈ attributes, (attributes.foldl insertValue attrs).value entry.1 [] =
      valueToList (toUtf8 entry.2)) ∧
    ∀ key ∉ attributes.map Prod.fst,
      (attributes.foldl insertValue attrs).value key [] = attrs.value key [] := by
  induction attributes generalizing attrs with
  | nil => exact ⟨nofun, fun _ _ => rfl⟩
  | cons entry attributes ih =>
    obtain ⟨hattr, hnew⟩ := List.forall_mem_cons.1 hnew
    rw [List.map_cons, List.nodup_cons] at hnodup
    have hnext : ∀ entry' ∈ attributes, entry'.1 ∉ (insertValue attrs entry).keys := by
      intro entry' hentry' hkey
      obtain heq | hkey := mem_keys_insertValue hkey
      exacts [hnodup.1 (heq ▸ List.mem_map_of_mem hentry'), hnew entry' hentry' hkey]
    obtain ⟨hset, hkept⟩ := ih hnodup.2 hnext
    refine ⟨List.forall_mem_cons.2 ⟨?_, hset⟩, fun key hkey => ?_⟩
    · rw [List.foldl_cons, hkept _ hnodup.1, value_insertValue hattr, if_pos rfl]
    · rw [List.map_cons, List.mem_cons, not_or] at hkey
      rw [List.foldl_cons, hkept _ hkey.2, value_insertValue hattr, if_neg hkey.1]

/-- None of the attributes is there when the object is added. -/
theorem objectClass_notMem {attributes : List (String × String)}
    (hperm : attributes.Perm gpo.attributeValueMap) :
    "objectClass" ∉ attributes.map Prod.fst := by
  rw [(hperm.map Prod.fst).mem_iff]
  simp [NewGpo.attributeValueMap]

theorem notMem_keys_added {attributes : List (String × String)}
    (hperm : attributes.Perm gpo.attributeValueMap) :
    ∀ entry ∈ attributes, entry.1 ∉
      QHash.keys [("objectClass", [toUtf8 "groupPolicyContainer"])] := by
  intro entry hentry hkey
  have hkey : entry.1 = "objectClass" := List.mem_singleton.1 hkey
  exact objectClass_notMem hperm (hkey ▸ List.mem_map_of_mem hentry)

/-- After the loop, whatever the order, all attributes have their values. -/
theorem hasValues_foldl {attributes : List (String × String)}
    (hperm : attributes.Perm gpo.attributeValueMap) :
    HasValues gpo (attributes.foldl insertValue
      [("objectClass", [toUtf8 "groupPolicyContainer"])]) := by
  have hnodup : (attributes.map Prod.fst).Nodup :=
    (hperm.map Prod.fst).nodup_iff.2 keys_attributeValueMap
  obtain ⟨hset, hkept⟩ := value_foldl_insertValue hnodup (notMem_keys_added hperm)
  exact ⟨(hkept _ (objectClass_notMem hperm)).trans (by simp [QHash.value]), fun entry hentry =>
    hset entry (hperm.mem_iff.2 hentry)⟩

/-- Setting the attribute again changes nothing. -/
theorem HasValues.insert (h : HasValues gpo attrs) :
    HasValues gpo (attrs.insert "showInAdvancedViewOnly" [toUtf8 "TRUE"]) where
  objectClass := by
    rw [QHash.value_insert, if_neg (by decide)]
    exact h.objectClass
  value entry hentry := by
    rw [QHash.value_insert]
    split_ifs with hkey
    · have hmem : ("showInAdvancedViewOnly", "TRUE") ∈ gpo.attributeValueMap := by
        simp [NewGpo.attributeValueMap]
      rw [List.inj_on_of_nodup_map keys_attributeValueMap hentry hmem hkey]
      rfl
    · exact h.value entry hentry

theorem HasValues.ne_nil (h : HasValues gpo attrs) : attrs ≠ [] := by
  rintro rfl
  exact absurd h.objectClass nofun

/-- Adding a container, where the attribute that is set again changes nothing that matters. -/
theorem addContainer_yields (hfree : before.entries.Free gpo.gpcDn)
    {step replaceStep : GpoAddStep}
    (hstep : Fails servers gpo step ↔ servers.refuses step = true)
    (hchecked : isChecked step = true)
    {children : List (String × ShareEntry)} (hchildren : ChildNames children)
    (hlength : children.length ≤ 3) (hvalues : HasValues gpo attrs) (error : String) :
    (addContainer servers gpo step replaceStep name error
      ⟨before.share.withFolder gpo.gptPath children,
        withGpc gpo before.entries containers attrs⟩).Yields
      (Stopped servers gpo before) fun stores => ¬Fails servers gpo step ∧
        ∃ attrs', HasValues gpo attrs' ∧
          stores = ⟨before.share.withFolder gpo.gptPath children,
            withGpc gpo before.entries (name :: containers) attrs'⟩ := by
  have hset : ∀ containers, ∃ attrs', HasValues gpo attrs' ∧
      (replaceAttribute servers gpo replaceStep "showInAdvancedViewOnly" "TRUE"
        ⟨before.share.withFolder gpo.gptPath children,
          withGpc gpo before.entries containers attrs⟩).1 =
        ⟨before.share.withFolder gpo.gptPath children,
          withGpc gpo before.entries containers attrs'⟩ := by
    intro containers
    rw [replaceAttribute_of_ne hfree (by decide)]
    split_ifs
    exacts [⟨attrs, hvalues, rfl⟩, ⟨_, hvalues.insert, rfl⟩]
  rw [addContainer, objectAdd]
  split_ifs with hrefuses
  · obtain ⟨attrs', hvalues', hset⟩ := hset containers
    simp only [hset]
    exact ⟨⟨step, hchecked, hstep.2 hrefuses⟩, .inr ⟨children, hchildren, hlength, rfl⟩,
      .inr ⟨containers, attrs', hvalues'.ne_nil, rfl⟩⟩
  · obtain ⟨attrs', hvalues', hset⟩ := hset (name :: containers)
    have hcons : (("CN=" ++ name ++ "," ++ gpo.gpcDn, [("objectClass", [toUtf8 "container"])]) ::
        withGpc gpo before.entries containers attrs : Entries) =
          withGpc gpo before.entries (name :: containers) attrs := rfl
    simp only [hcons, hset]
    exact ⟨fun h => hrefuses (hstep.1 h), attrs', hvalues', rfl⟩

theorem fails_iff_of_ne {step : GpoAddStep} (h : ∀ attr, step ≠ .replace attr) :
    Fails servers gpo step ↔ servers.refuses step = true :=
  and_iff_left fun attr hattr => absurd hattr (h attr)

/-- The entries of the folder of a policy, with what is in its file. -/
def gptChildren (contents : QByteArray) : List (String × ShareEntry) :=
  [("GPT.INI", .file contents), ("User", .folder), ("Machine", .folder)]

theorem childNames_gptChildren (contents : QByteArray) : ChildNames (gptChildren contents) where
  nodup := by simp [gptChildren]
  no_slash := by simp [gptChildren]
  not_dots := by simp [gptChildren]

theorem withFolder_cons (share : Share) (path name : String) (entry : ShareEntry)
    (children : List (String × ShareEntry)) :
    ((path ++ ("/" ++ name), entry) :: share.withFolder path children : Share) =
      share.withFolder path ((name, entry) :: children) := by
  rw [← String.append_assoc]
  rfl

/-- Making a folder in the folder of the policy. -/
theorem mkdir_yields {step : GpoAddStep} (hstep : ∀ attr, step ≠ .replace attr)
    (hchecked : isChecked step = true) {stores after : GpoStores} {path : String} (error : String)
    (hgrown : Grown gpo before stores)
    (hafter : { stores with share := (path, .folder) :: stores.share } = after) :
    (mkdir servers step path error stores).Yields (Stopped servers gpo before) fun stores =>
      ¬Fails servers gpo step ∧ stores = after := by
  rw [mkdir]
  split_ifs with hrefuses
  · exact ⟨⟨step, hchecked, (fails_iff_of_ne hstep).2 hrefuses⟩, hgrown⟩
  · exact ⟨fun h => hrefuses h.1, hafter⟩

theorem grown_folder (contents : QByteArray) {children : List (String × ShareEntry)}
    (h : children.Sublist (gptChildren contents)) :
    Grown gpo before ⟨before.share.withFolder gpo.gptPath children, before.entries⟩ :=
  ⟨.inr ⟨children, (childNames_gptChildren contents).of_sublist h, h.length_le, rfl⟩, .inl rfl⟩

theorem writeIni_yields :
    (writeIni servers gpo ⟨before.share.withFolder gpo.gptPath
      [("User", .folder), ("Machine", .folder)], before.entries⟩).Yields
      (Stopped servers gpo before) fun stores =>
        (¬Fails servers gpo .openIni ∧ ¬Fails servers gpo .writeIni) ∧ ∃ contents, stores =
          ⟨before.share.withFolder gpo.gptPath (gptChildren contents), before.entries⟩ := by
  have hcons : ∀ contents, (gpo.gptPath ++ "/GPT.INI", .file contents) ::
      before.share.withFolder gpo.gptPath [("User", .folder), ("Machine", .folder)] =
        before.share.withFolder gpo.gptPath (gptChildren contents) := fun contents =>
    withFolder_cons _ _ "GPT.INI" _ _
  rw [writeIni]
  simp only [hcons]
  split_ifs with hopen hwrite
  · exact ⟨⟨_, rfl, (fails_iff_of_ne (by simp)).2 hopen⟩,
      grown_folder [] (List.sublist_cons_self _ _)⟩
  · exact ⟨⟨_, rfl, (fails_iff_of_ne (by simp)).2 hwrite⟩, grown_folder [] (List.Sublist.refl _)⟩
  · exact ⟨⟨fun h => hopen h.1, fun h => hwrite h.1⟩, _, rfl⟩

theorem lookup_container {other : String} (h : name ≠ other) :
    (withGpc gpo before.entries (other :: containers) attrs).lookup
        ("CN=" ++ name ++ "," ++ gpo.gpcDn) =
      (withGpc gpo before.entries containers attrs).lookup ("CN=" ++ name ++ "," ++ gpo.gpcDn) := by
  have hne : "CN=" ++ name ++ "," ++ gpo.gpcDn ≠ "CN=" ++ other ++ "," ++ gpo.gpcDn := by
    intro heq
    have heq := congrArg String.toList heq
    refine h (String.toList_inj.1 ?_)
    simpa using heq
  rw [withGpc, List.map_cons, List.cons_append, List.lookup_cons, beq_false_of_ne hne]
  rfl

theorem lookup_container_self :
    (withGpc gpo before.entries (name :: containers) attrs).lookup
        ("CN=" ++ name ++ "," ++ gpo.gpcDn) = some [("objectClass", [toUtf8 "container"])] := by
  rw [withGpc, List.map_cons, List.cons_append, List.lookup_cons, beq_self_eq_true]

/-- What is stored after all steps. -/
theorem allParts_of_hasValues (contents : QByteArray) (hvalues : HasValues gpo attrs) :
    AllParts gpo ⟨before.share.withFolder gpo.gptPath (gptChildren contents),
      withGpc gpo before.entries ["Machine", "User"] attrs⟩ := by
  have hchild : ∀ name entry, (name, entry) ∈ gptChildren contents →
      (before.share.withFolder gpo.gptPath (gptChildren contents)).lookup
        (gpo.gptPath ++ ("/" ++ name)) = some entry := by
    intro name entry hentry
    rw [← String.append_assoc]
    exact lookup_withFolder_child _ _ (childNames_gptChildren contents).nodup hentry
  have hgpc : ∀ name, gpo.gpcDn ≠ "CN=" ++ name ++ "," ++ gpo.gpcDn := fun name =>
    (ne_of_isBelow isBelow_container).symm
  refine ⟨lookup_withFolder_self, hchild "Machine" _ ?_, hchild "User" _ ?_,
    ⟨contents, hchild "GPT.INI" _ ?_⟩, ⟨attrs, ?_, hvalues.objectClass, fun attr value hmem =>
      hvalues.value (attr, value) hmem⟩, ?_⟩
  · simp [gptChildren]
  · simp [gptChildren]
  · simp [gptChildren]
  · simp only [withGpc, List.map_cons, List.map_nil, List.cons_append, List.lookup_cons,
      beq_false_of_ne (hgpc _), List.nil_append, beq_self_eq_true]
  · intro name hname
    rw [List.mem_cons, List.mem_singleton] at hname
    obtain rfl | rfl := hname
    · exact (lookup_container (by decide)).trans lookup_container_self
    · exact lookup_container_self

/-- The parts are all created, or the creation is stopped by a step whose outcome is looked
    at. -/
theorem createParts_yields (hnew : IsNew gpo before) {attributes : List (String × String)}
    (hperm : attributes.Perm gpo.attributeValueMap) :
    (createParts servers gpo attributes before).Yields (Stopped servers gpo before) fun stores =>
      (∀ step, isChecked step = true → ¬Fails servers gpo step) ∧ AllParts gpo stores := by
  rw [createParts]
  refine (mkdir_yields (by simp) rfl _ ⟨.inl rfl, .inl rfl⟩ rfl).bind ?_
  rintro _ ⟨hmkdirGpt, rfl⟩
  refine (mkdir_yields (by simp) rfl _ (grown_folder [] (by simp))
    (congrArg (GpoStores.mk · _)
      (withFolder_cons before.share gpo.gptPath "Machine" .folder []))).bind ?_
  rintro _ ⟨hmkdirMachine, rfl⟩
  refine (mkdir_yields (by simp) rfl _ (grown_folder [] (by simp [gptChildren]))
    (congrArg (GpoStores.mk · _) (withFolder_cons before.share gpo.gptPath "User" .folder
      [("Machine", .folder)]))).bind ?_
  rintro _ ⟨hmkdirUser, rfl⟩
  refine writeIni_yields.bind ?_
  rintro _ ⟨⟨hopenIni, hwriteIni⟩, contents, rfl⟩
  rw [objectAdd]
  split_ifs with haddGpc
  · exact ⟨⟨.addGpc, rfl, (fails_iff_of_ne (by simp)).2 haddGpc⟩,
      grown_folder contents (List.Sublist.refl _)⟩
  have hchildren := childNames_gptChildren contents
  refine (setAttributes_yields hnew.entries hchildren le_rfl hperm.subset
    ((hperm.map Prod.fst).nodup_iff.2 keys_attributeValueMap) (notMem_keys_added hperm)
      nofun).bind ?_
  rintro _ ⟨hreplace, rfl⟩
  refine (addContainer_yields hnew.entries (fails_iff_of_ne (by simp)) rfl hchildren le_rfl
    (hasValues_foldl hperm) _).bind ?_
  rintro _ ⟨haddUser, attrs, hvalues, rfl⟩
  refine (addContainer_yields hnew.entries (fails_iff_of_ne (by simp)) rfl hchildren le_rfl
    hvalues _).mono ?_
  rintro _ ⟨haddMachine, attrs, hvalues, rfl⟩
  refine ⟨fun step hchecked => ?_, allParts_of_hasValues contents hvalues⟩
  cases step with
  | replace attr =>
    rintro hfails
    obtain ⟨value, -, hmem⟩ := hfails.2 attr rfl
    exact hreplace _ (hperm.mem_iff.2 hmem) hfails
  | replaceAfterUser => exact absurd hchecked nofun
  | replaceAfterMachine => exact absurd hchecked nofun
  | addGpc => exact fun h => haddGpc h.1
  | _ => assumption

/-! ## The clean-up -/

/-- If the deletion of the object of the policy succeeds, the directory is as it was. -/
theorem cleanupGpc_grown (hnew : IsNew gpo before) {stores : GpoStores}
    (hgrown : Grown gpo before stores) {entries : Entries}
    (h : cleanupGpc g ndr gpo stores.entries = .ok (entries, true)) : entries = before.entries := by
  rw [cleanupGpc] at h
  obtain hentries | ⟨containers, attrs, hattrs, hentries⟩ := hgrown.entries
  · have hnone := adSearchObject_free hnew.entries false []
    rw [hentries] at h
    simp only [hnone] at h
    exact (Prod.mk.inj (Except.ok.inj h)).1.symm
  · rw [hentries] at h
    simp only [search_withGpc hnew.entries, List.isEmpty_nil, Bool.true_or, List.filter_true] at h
    rw [if_pos (by simpa using hattrs)] at h
    rw [objectDelete_entriesLdap h, withGpc, List.append_cons]
    refine removeSubtree_append hnew.entries fun entry hentry => ?_
    obtain hentry | hentry := List.mem_append.1 hentry
    · obtain ⟨name, -, rfl⟩ := List.mem_map.1 hentry
      exact Bool.or_eq_true_iff.2 (.inr isBelow_container)
    · rw [List.mem_singleton.1 hentry]
      exact includes_self

/-- The folder of the policy is deleted, and the rest of the share is as it was. -/
theorem cleanupGpt_grown (hnew : IsNew gpo before) {stores : GpoStores}
    (hgrown : Grown gpo before stores) {fuel : ℕ} (hfuel : 3 < fuel) :
    cleanupGpt gpo fuel stores.share = some (before.share, true) := by
  obtain ⟨fuel, rfl⟩ := Nat.exists_eq_succ_of_ne_zero (Nat.ne_zero_of_lt hfuel)
  rw [cleanupGpt]
  obtain hshare | ⟨children, hchildren, hlength, hshare⟩ := hgrown.share
  · have hnone : before.share.lookup gpo.gptPath = none :=
      List.lookup_eq_none_iff.2 fun entry hentry => by
        simpa using (hnew.share entry hentry).1.symm
    rw [hshare]
    simp only [shareSmb, hnone, Option.map_none]
  · obtain ⟨passed, hdelete⟩ := deleteGpt_shareSmb hnew.share hchildren
      (hlength.trans (Nat.le_of_lt_succ hfuel))
    have hstat : shareSmb.stat (before.share.withFolder gpo.gptPath children) gpo.gptPath =
        (before.share.withFolder gpo.gptPath children, some true) := by
      simp [shareSmb, lookup_withFolder_self]
    simp only [hshare, hstat, hdelete, Option.map_some]

end

/-- Creating a policy never reports a failing step as a success, leaves both stores as they
    were when it fails and its clean-up succeeds, and creates all parts when it succeeds,
    exactly when the server does not refuse, as the only steps, to set the attribute again
    after a container. -/
theorem undoneOrCreated_iff (g : Globals) (ndr : Ndr) (servers : GpoServers) (gpo : NewGpo)
    (isDomainAdmin : Bool) (fuel : ℕ) (hfuel : 3 < fuel) (attributes : List (String × String))
    (hperm : attributes.Perm gpo.attributeValueMap) (stores : GpoStores)
    (hnew : IsNew gpo stores) :
    UndoneOrCreated g ndr servers gpo isDomainAdmin fuel attributes stores ↔
      ((∀ step, isChecked step = true → ¬Fails servers gpo step) →
        ∀ step, ¬Fails servers gpo step) := by
  have hparts : (createParts servers gpo attributes stores).Yields (Stopped servers gpo stores) _ :=
    createParts_yields hnew hperm
  rw [UndoneOrCreated, gpoAdd]
  cases hcreate : createParts servers gpo attributes stores with
  | ok stores' =>
    rw [hcreate] at hparts
    obtain ⟨hchecked, hall⟩ := hparts
    constructor
    · rintro ⟨-, h⟩ - step hfails
      exact Bool.false_ne_true ((h _ rfl).1 ⟨step, hfails⟩).symm
    · refine fun h => ⟨nofun, ?_⟩
      rintro _ ⟨⟩
      exact ⟨fun ⟨step, hfails⟩ => absurd hfails (h hchecked step), nofun, fun _ => hall⟩
  | error failure =>
    rw [hcreate] at hparts
    obtain ⟨⟨step, hchecked, hfails⟩, hgrown⟩ := hparts
    refine iff_of_true ?_ fun h => absurd hfails (h step hchecked)
    have hgpt := cleanupGpt_grown hnew hgrown hfuel
    simp only [cleanup, hgpt, Option.map_some, Bool.and_true]
    cases hgpc : cleanupGpc g ndr gpo failure.2.entries with
    | error fault => exact ⟨nofun, nofun⟩
    | ok deletion =>
      refine ⟨nofun, ?_⟩
      rintro _ ⟨⟩
      refine ⟨fun _ => rfl, fun _ hcleanedUp => ?_, nofun⟩
      rw [← Prod.eta deletion, show deletion.2 = true from hcleanedUp] at hgpc
      exact congrArg (GpoStores.mk _) (cleanupGpc_grown hnew hgrown hgpc)

/-- A new policy of a domain. -/
def sampleGpo : NewGpo :=
  ⟨"dc", "domain.alt", "DC=domain,DC=alt", "{31B2F340}", "Proxy"⟩

/-- A server that refuses one kind of step. -/
def refusing (step : GpoAddStep) : GpoServers := ⟨(· = step), 23⟩

/-- The stores of a domain without policies. -/
def sampleStores : GpoStores :=
  ⟨[("smb://dc/sysvol/domain.alt/Policies", .folder)],
    [("CN=Policies,CN=System,DC=domain,DC=alt", [("objectClass", [toUtf8 "container"])])]⟩

theorem isNew_sample : IsNew sampleGpo sampleStores where
  share := List.forall_mem_singleton.2 (by decide)
  entries := List.forall_mem_singleton.2 (by decide)

/-- A policy whose second container is refused is not created, and nothing is left of it. -/
theorem undoneOrCreated_refusing_addMachine :
    UndoneOrCreated .empty sampleNdr (refusing .addMachine) sampleGpo true 4
      sampleGpo.attributeValueMap sampleStores :=
  (undoneOrCreated_iff .empty sampleNdr (refusing .addMachine) sampleGpo true 4 (by decide)
    sampleGpo.attributeValueMap (List.Perm.refl _) sampleStores isNew_sample).2
    fun h => absurd ⟨rfl, nofun⟩ (h .addMachine rfl)

/-- The attribute that is set again after a container is refused then, and the policy is
    reported to be created. -/
theorem not_undoneOrCreated_refusing_replaceAfterUser :
    ¬UndoneOrCreated .empty sampleNdr (refusing .replaceAfterUser) sampleGpo true 4
      sampleGpo.attributeValueMap sampleStores := by
  rintro ⟨-, h⟩
  have hparts : (createParts (refusing .replaceAfterUser) sampleGpo sampleGpo.attributeValueMap
    sampleStores).Yields _ _ := createParts_yields isNew_sample (List.Perm.refl _)
  rw [gpoAdd] at h
  cases hcreate : createParts (refusing .replaceAfterUser) sampleGpo sampleGpo.attributeValueMap
    sampleStores with
  | ok stores =>
    rw [hcreate] at h
    exact Bool.false_ne_true ((h _ rfl).1 ⟨.replaceAfterUser, rfl, nofun⟩).symm
  | error failure =>
    rw [hcreate] at hparts
    obtain ⟨⟨step, hchecked, hrefuses, -⟩, -⟩ := hparts
    obtain rfl := of_decide_eq_true hrefuses
    exact absurd hchecked nofun

end GpoAdd

end Admc
