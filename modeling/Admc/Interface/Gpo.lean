import Admc.Interface.Descriptor
import Admc.Lib.Path
import Admc.Text

/-!
# Deleting a group policy

A group policy is an object of the directory (its GPC) with a folder of the share
of the domain controller (its GPT), whose path is one of its attributes.
`AdInterface::gpo_delete` reads the path, deletes the object, and then walks the
folder and deletes what it has found there, from the bottom up.

The path of the folder is made from the attribute by text replacement, and the
attribute is empty if it cannot be read: then the walk starts at the root of the
server. `gpoDelete_inFolder_iff`: nothing outside the folder of the policy is
deleted, whatever the share and the directory answer, exactly when the policy is
critical, or its attribute leads into its folder (`LeadsInto`).
-/

namespace Admc

/-! ## The share -/

/-- The SMB library and the share behind it. The names in a folder have no slashes. -/
structure Smb (τ : Type) where
  /-- `smbc_opendir`, with the names that `smbc_readdir` then gives. -/
  openDir : τ → String → τ × Option (List String)
  /-- Whether `errno` is set when `smbc_readdir` gives no more names. -/
  errnoIsSet : τ → Bool
  /-- `smbc_stat`, with whether the path is a folder. -/
  stat : τ → String → τ × Option Bool
  rmdir : τ → String → τ × Bool
  unlink : τ → String → τ × Bool
  openDir_names : ∀ t path t' names, openDir t path = (t', some names) →
    ∀ name ∈ names, '/' ∉ name.toList

variable {τ : Type} (smb : Smb τ)

/-- The inner loop of `gpo_get_gpt_contents`, over the names in a folder: adds the paths
    to the ones seen, and those of folders to the ones to explore. -/
def exploreNames (path : String) :
    τ → List String → (exploreStack seenStack : List String) →
      τ × Option (List String × List String)
  | t, [], exploreStack, seenStack => (t, some (exploreStack, seenStack))
  | t, childName :: names, exploreStack, seenStack =>
    if childName = "." ∨ childName = ".." then
      exploreNames path t names exploreStack seenStack
    else
      let childPath := path ++ "/" ++ childName
      match smb.stat t childPath with
      | (t, none) => (t, none)
      | (t, some childIsDir) =>
        exploreNames path t names
          (if childIsDir then childPath :: exploreStack else exploreStack)
          (seenStack ++ [childPath])

/-- The outer loop of `gpo_get_gpt_contents`, the top of the stack first: the paths seen,
    if there was no error. None when the loop takes longer than `fuel`. -/
def exploreFrom : ℕ → τ → (exploreStack seenStack : List String) →
    Option (τ × Option (List String))
  | _, t, [], seenStack => some (t, some seenStack)
  | 0, _, _ :: _, _ => none
  | fuel + 1, t, path :: exploreStack, seenStack =>
    match smb.openDir t path with
    | (t, none) => some (t, none)
    | (t, some names) =>
      match exploreNames smb path t names exploreStack seenStack with
      | (t, none) => some (t, none)
      | (t, some (exploreStack, seenStack)) =>
        if smb.errnoIsSet t then some (t, none) else exploreFrom fuel t exploreStack seenStack

/-- `gpo_get_gpt_contents`. -/
def gpoGetGptContents (fuel : ℕ) (t : τ) (gptRootPath : String) :
    Option (τ × Option (List String)) :=
  exploreFrom smb fuel t [gptRootPath] [gptRootPath]

/-- What comes of deleting a folder: the paths that were passed to `smbc_rmdir` and
    `smbc_unlink` are recorded. -/
structure GptDeletion (τ : Type) where
  state : τ
  success : Bool
  passed : List String

/-- The loop of `delete_gpt`. -/
def deletePaths : τ → List String → GptDeletion τ
  | t, [] => ⟨t, true, []⟩
  | t, path :: pathList =>
    match smb.stat t path with
    | (t, none) => ⟨t, false, []⟩
    | (t, some isDir) =>
      match if isDir then smb.rmdir t path else smb.unlink t path with
      | (t, false) => ⟨t, false, [path]⟩
      | (t, true) =>
        let rest := deletePaths t pathList
        { rest with passed := path :: rest.passed }

/-- `delete_gpt`: the deepest paths first. -/
def deleteGpt (fuel : ℕ) (t : τ) (parentPath : String) : Option (GptDeletion τ) :=
  match gpoGetGptContents smb fuel t parentPath with
  | none => none
  | some (t, none) => some ⟨t, false, []⟩
  | some (t, some pathList) => some (deletePaths smb t pathList.reverse)

/-! ## The path of the folder -/

/-- `out.remove(0, out.indexOf(text))`: nothing is removed for the index `-1`. -/
def removeBefore (text out : List Char) : List Char :=
  (out.tails.find? text.isPrefixOf).getD out

/-- The path with "sysvol" in lower case, and with slashes. -/
def withSlashes (filesysPath : String) : List Char :=
  replaceText ['\\'] ['/'] (replaceText "\\SysVol\\".toList "\\sysvol\\".toList filesysPath.toList)

/-- `AdInterface::filesys_path_to_smb_path`. -/
def filesysPathToSmbPath (dc filesysPath : String) : String :=
  let out := removeBefore "/sysvol/".toList (withSlashes filesysPath)
  "smb://" ++ dc ++ String.ofList out

/-! ## The deletion -/

/-- What comes of deleting a policy: its GPT, and whether the object is deleted. -/
structure GpoDeletion (σ τ : Type) where
  state : σ
  gpt : GptDeletion τ
  deletedObject : Bool

/-- The attributes that `AdInterface::gpo_delete` reads. -/
def gpoAttributes : List String := ["gPCFileSysPath", "displayName", "isCriticalSystemObject"]

variable {σ : Type} (g : Globals) (ldap : Ldap σ) (ndr : Ndr)

/-- `AdInterface::gpo_delete`, up to the removal of the links to the policy, which are
    attributes of the directory: deletes the GPC and the GPT. None when the walk of the
    GPT takes longer than `fuel`. -/
def gpoDelete (dc : String) (fuel : ℕ) (s : σ) (t : τ) (dn : String) :
    Except Fault (Option (GpoDeletion σ τ)) := do
  let (s, object) := adSearchObject ldap s dn gpoAttributes false
  if object.getBool g.rt "isCriticalSystemObject" then return some ⟨s, ⟨t, false, []⟩, false⟩
  let filesysPath := object.getString g.rt "gPCFileSysPath"
  let smbPath := filesysPathToSmbPath dc filesysPath
  let (s, deleteGpcSuccess) ← objectDelete g ldap ndr s dn
  return (deleteGpt smb fuel t smbPath).map fun gpt => ⟨s, gpt, deleteGpcSuccess⟩

/-! ## Folders -/

/-- Where a component of a path leads. -/
def stepOf (component : List Char) : Path.Step (List Char) :=
  if component = [] ∨ component = ".".toList then .stay
  else if component = "..".toList then .up
  else .down component

/-- The names on the way from the root of the server to where components lead. -/
def leadsTo (components : List (List Char)) : List (List Char) :=
  Path.walk (components.map stepOf)

/-- The folder of a policy: `/sysvol/<domain>/Policies/<name>`. -/
def gptFolder (domain name : String) : List (List Char) :=
  ["sysvol".toList, domain.toList, "Policies".toList, name.toList]

/-- The path leads to the folder of the policy on the server, or below it. -/
def InFolder (dc domain name path : String) : Prop :=
  ∃ tail, path = "smb://" ++ dc ++ String.ofList ('/' :: tail) ∧
    gptFolder domain name <+: leadsTo (tail.splitOn '/')

/-- The components of a path, from the first one named "sysvol" that is between separators,
    lead to the folder of the policy, or below it. -/
def LeadsInto (domain name filesysPath : String) : Prop :=
  ∃ tail, Path.fromName "sysvol".toList ((withSlashes filesysPath).splitOn '/').tail = some tail ∧
    gptFolder domain name <+: leadsTo tail

section
variable {smb} {dc domain name filesysPath : String}

theorem smbPath_inj {out out' : List Char}
    (h : "smb://" ++ dc ++ String.ofList out = "smb://" ++ dc ++ String.ofList out') :
    out = out' := by
  have := congrArg String.toList h
  simpa using this

/-- A path two names deep goes down to the first name before its last component. -/
theorem fromName_ne_none {components : List (List Char)}
    (h : gptFolder domain name <+: leadsTo components) :
    Path.fromName "sysvol".toList components ≠ none := by
  rw [Ne, Path.fromName_eq_none, not_not]
  obtain ⟨names, h⟩ := h
  have hmem := Path.mem_dropLast_of_walk h.symm
  rw [← List.map_dropLast, List.mem_map] at hmem
  obtain ⟨component, hmem, hstep⟩ := hmem
  rw [stepOf] at hstep
  split_ifs at hstep
  exact Path.Step.down.inj hstep ▸ hmem

/-- The root of the deletion is in the folder exactly when the attribute leads into it. -/
theorem inFolder_root_iff : InFolder dc domain name (filesysPathToSmbPath dc filesysPath) ↔
    LeadsInto domain name filesysPath := by
  obtain ⟨first, rest, hsplit⟩ :=
    List.exists_cons_of_ne_nil (List.splitOn_ne_nil '/' (withSlashes filesysPath))
  have htext : "/sysvol/".toList = '/' :: ("sysvol".toList ++ ['/']) := by decide
  have hname : '/' ∉ "sysvol".toList := by decide
  rw [LeadsInto, InFolder, filesysPathToSmbPath, removeBefore]
  rw [hsplit, List.tail_cons, htext]
  obtain ⟨hfirst, ⟨rfl, hout⟩ | ⟨t, hout, rfl⟩⟩ := Path.exists_of_splitOn_eq_cons hsplit
  · -- a path without separators is not one of the server
    refine iff_of_false ?_ fun ⟨_, h, _⟩ => absurd h nofun
    rintro ⟨tail, h, -⟩
    have hnone := Path.find?_tails_append (p := "sysvol".toList ++ ['/']) (t := []) hfirst
    rw [List.append_nil] at hnone
    rw [hout, hnone] at h
    have h : first = '/' :: tail := smbPath_inj h
    exact hfirst (h ▸ List.mem_cons_self)
  · have hfind := Path.splitOn_find?_tails hname t
    rw [hout, Path.find?_tails_append hfirst]
    cases hf : ('/' :: t).tails.find? ('/' :: ("sysvol".toList ++ ['/'])).isPrefixOf with
    | none =>
      -- nothing is removed: the path is too short to lead into the folder
      rw [hf, Option.map_none] at hfind
      have hno : Path.fromName "sysvol".toList (t.splitOn '/') = none :=
        Option.map_eq_none_iff.1 hfind.symm
      refine iff_of_false ?_ fun ⟨_, h, _⟩ => absurd (hno ▸ h) nofun
      rintro ⟨tail, h, hprefix⟩
      have h := smbPath_inj h
      cases first with
      | nil =>
        rw [← (List.cons.inj h).2] at hprefix
        exact fromName_ne_none hprefix hno
      | cons c first => exact hfirst ((List.cons.inj h).1 ▸ List.mem_cons_self)
    | some out =>
      rw [hf, Option.map_some] at hfind
      obtain ⟨tail, htail, hcomponents⟩ := Option.map_eq_some_iff.1 hfind.symm
      obtain ⟨tail', rfl, hne⟩ := Path.fromName_eq_some htail
      obtain ⟨-, ⟨hnil, -⟩ | ⟨out, rfl, hout⟩⟩ := Path.exists_of_splitOn_eq_cons hcomponents.symm
      · exact absurd hnil (List.cons_ne_nil _ _)
      · rw [htail]
        constructor
        · rintro ⟨tail, h, hprefix⟩
          rw [← (List.cons.inj (smbPath_inj h)).2, hout] at hprefix
          exact ⟨_, rfl, hprefix⟩
        · rintro ⟨tail, h, hprefix⟩
          exact ⟨out, rfl, by rwa [hout, Option.some.inj h]⟩

/-- What is in a folder of the policy is in the folder of the policy. -/
theorem InFolder.child {path childName : String} (h : InFolder dc domain name path)
    (hslash : '/' ∉ childName.toList) (hup : childName ≠ "..") :
    InFolder dc domain name (path ++ "/" ++ childName) := by
  obtain ⟨tail, rfl, hprefix⟩ := h
  refine ⟨tail ++ '/' :: childName.toList, ?_, ?_⟩
  · apply String.toList_inj.1
    simp
  · rw [List.splitOn_append_cons_self, List.splitOn_eq_singleton hslash, leadsTo, List.map_append,
      List.map_singleton, Path.walk_append_singleton]
    rw [stepOf]
    split_ifs with hstay hparent
    · exact hprefix
    · exact absurd (String.toList_inj.1 hparent) hup
    · exact hprefix.trans (List.prefix_append _ _)

/-! ## The walk -/

variable {t t' : τ} {exploreStack seenStack : List String}

theorem exploreNames_inFolder {path : String} {names : List String}
    {result : List String × List String} (hpath : InFolder dc domain name path)
    (hnames : ∀ childName ∈ names, '/' ∉ childName.toList)
    (hexplore : ∀ path ∈ exploreStack, InFolder dc domain name path)
    (hseen : ∀ path ∈ seenStack, InFolder dc domain name path)
    (h : exploreNames smb path t names exploreStack seenStack = (t', some result)) :
    (∀ path ∈ result.1, InFolder dc domain name path) ∧
      ∀ path ∈ result.2, InFolder dc domain name path := by
  induction names generalizing t exploreStack seenStack with
  | nil =>
    obtain rfl := Option.some.inj (Prod.mk.inj h).2
    exact ⟨hexplore, hseen⟩
  | cons childName names ih =>
    have hnames' := fun name h => hnames name (List.mem_cons_of_mem _ h)
    rw [exploreNames] at h
    split_ifs at h with hdot
    · exact ih hnames' hexplore hseen h
    · have hchild := hpath.child (hnames _ List.mem_cons_self) fun h => hdot (.inr h)
      dsimp only at h
      split at h
      · exact absurd (Prod.mk.inj h).2 nofun
      · refine ih hnames' ?_ ?_ h
        · split_ifs
          · exact List.forall_mem_cons.2 ⟨hchild, hexplore⟩
          · exact hexplore
        · exact List.forall_mem_append.2 ⟨hseen, List.forall_mem_singleton.2 hchild⟩

theorem exploreFrom_inFolder {fuel : ℕ} {pathList : List String}
    (hexplore : ∀ path ∈ exploreStack, InFolder dc domain name path)
    (hseen : ∀ path ∈ seenStack, InFolder dc domain name path)
    (h : exploreFrom smb fuel t exploreStack seenStack = some (t', some pathList)) :
    ∀ path ∈ pathList, InFolder dc domain name path := by
  induction fuel generalizing t exploreStack seenStack with
  | zero =>
    cases exploreStack with
    | nil =>
      obtain rfl := Option.some.inj (Prod.mk.inj (Option.some.inj h)).2
      exact hseen
    | cons path exploreStack => exact absurd h nofun
  | succ fuel ih =>
    cases exploreStack with
    | nil =>
      obtain rfl := Option.some.inj (Prod.mk.inj (Option.some.inj h)).2
      exact hseen
    | cons path exploreStack =>
      rw [List.forall_mem_cons] at hexplore
      rw [exploreFrom] at h
      split at h
      · exact absurd (Prod.mk.inj (Option.some.inj h)).2 nofun
      · rename_i hopen
        split at h
        · exact absurd (Prod.mk.inj (Option.some.inj h)).2 nofun
        · rename_i hnames
          have hnext := exploreNames_inFolder hexplore.1 (smb.openDir_names _ _ _ _ hopen)
            hexplore.2 hseen hnames
          split_ifs at h
          · exact absurd (Prod.mk.inj (Option.some.inj h)).2 nofun
          · exact ih hnext.1 hnext.2 h

/-- Only paths of the list are passed on. -/
theorem mem_of_mem_passed {pathList : List String} {path : String}
    (h : path ∈ (deletePaths smb t pathList).passed) : path ∈ pathList := by
  induction pathList generalizing t with
  | nil => exact absurd h List.not_mem_nil
  | cons path' pathList ih =>
    rw [deletePaths] at h
    split at h
    · exact absurd h List.not_mem_nil
    · split at h
      · exact List.mem_cons.2 (.inl (List.mem_singleton.1 h))
      · exact (List.mem_cons.1 h).elim (fun h => List.mem_cons.2 (.inl h)) fun h =>
          List.mem_cons_of_mem _ (ih h)

theorem deleteGpt_inFolder {fuel : ℕ} {parentPath : String} {gpt : GptDeletion τ}
    (hparent : InFolder dc domain name parentPath)
    (h : deleteGpt smb fuel t parentPath = some gpt) :
    ∀ path ∈ gpt.passed, InFolder dc domain name path := by
  rw [deleteGpt, gpoGetGptContents] at h
  split at h
  · exact absurd h nofun
  · rw [← Option.some.inj h]
    exact fun _ h => absurd h List.not_mem_nil
  · rename_i hwalk
    rw [← Option.some.inj h]
    intro path hpath
    have hroot := List.forall_mem_singleton.2 hparent
    exact exploreFrom_inFolder hroot hroot hwalk path
      (List.mem_reverse.1 (mem_of_mem_passed hpath))

/-! ## What is deleted -/

/-- A server that answers every search with one object, and deletes everything. -/
def servingLdap (dn : String) (attributes : QHash String (List QByteArray)) : Ldap Unit where
  search _ _ := ((), [.page [(dn, attributes)] false])
  createSdControl _ := .success
  createTreeDeleteControl _ := .success
  modifyReplace _ _ _ _ _ := ((), .success)
  delete _ _ _ := ((), .success)

/-- A share with a folder of the given names at one path, and empty folders elsewhere. -/
def folderSmb (path : String) (names : List String)
    (hnames : ∀ name ∈ names, '/' ∉ name.toList) : Smb Unit where
  openDir _ path' := ((), some (if path' = path then names else []))
  errnoIsSet _ := false
  stat _ _ := ((), some true)
  rmdir _ _ := ((), true)
  unlink _ _ := ((), true)
  openDir_names _ _ _ _ h := by
    obtain rfl := Option.some.inj (Prod.mk.inj h).2
    split_ifs
    · exact hnames
    · exact fun _ h => absurd h List.not_mem_nil

/-- Deleting a policy passes no path outside of its folder to the share, whatever the
    answers of the share and the directory to anything but the read of the policy, exactly
    when the policy is critical or its attribute leads into its folder. -/
theorem gpoDelete_inFolder_iff (g : Globals) (ndr : Ndr) (dc domain name dn : String)
    (attributes : QHash String (List QByteArray)) :
    (∀ (σ τ : Type) (ldap : Ldap σ) (smb : Smb τ) fuel s t deletion,
      (adSearchObject ldap s dn gpoAttributes false).2.attributesData = attributes →
      gpoDelete smb g ldap ndr dc fuel s t dn = .ok (some deletion) →
      ∀ path ∈ deletion.gpt.passed, InFolder dc domain name path) ↔
    (AdObject.mk dn attributes).getBool g.rt "isCriticalSystemObject" = true ∨
      LeadsInto domain name ((AdObject.mk dn attributes).getString g.rt "gPCFileSysPath") := by
  rw [← @inFolder_root_iff dc]
  constructor
  · intro h
    by_contra hno
    rw [not_or, Bool.not_eq_true] at hno
    -- with everything served and deleted, the root of the deletion itself is passed on
    have hread : (adSearchObject (servingLdap dn attributes) () dn gpoAttributes false).2 =
        ⟨dn, attributes⟩ := by
      simp [adSearchObject, adSearch, servingLdap, searchResults, searchResultsFrom, QHash.insert,
        QHash.value]
    have hdelete : objectDelete g (servingLdap dn attributes) ndr () dn = .ok ((), true) := rfl
    refine hno.2 (h Unit Unit (servingLdap dn attributes) (folderSmb "" [] (by simp)) 1 () ()
      ⟨(), ⟨(), true, [filesysPathToSmbPath dc _]⟩, true⟩ (by rw [hread]) ?_ _
      (List.mem_singleton_self _))
    rw [gpoDelete]
    simp only [hread, hno.1, hdelete, Except.ok_bind, Bool.false_eq_true, if_false]
    simp [deleteGpt, gpoGetGptContents, exploreFrom, exploreNames, folderSmb, deletePaths]
  · intro h σ τ ldap smb fuel s t deletion hread hdelete
    have hbool : ∀ object : AdObject, object.attributesData = attributes →
        object.getBool g.rt = (AdObject.mk dn attributes).getBool g.rt ∧
          object.getString g.rt = (AdObject.mk dn attributes).getString g.rt := by
      rintro ⟨dn', attributes'⟩ rfl
      exact ⟨rfl, rfl⟩
    obtain ⟨hbool, hstring⟩ := hbool _ hread
    rw [gpoDelete] at hdelete
    simp only [hbool, hstring] at hdelete
    split_ifs at hdelete with hcritical
    · rw [← Option.some.inj (Except.ok.inj hdelete)]
      exact fun _ h => absurd h List.not_mem_nil
    · obtain ⟨⟨s', success⟩, -, hresult⟩ := Except.bind_eq_ok.1 hdelete
      obtain ⟨gpt, hgpt, rfl⟩ := Option.map_eq_some_iff.1 (Except.ok.inj hresult)
      exact deleteGpt_inFolder (h.resolve_left hcritical) hgpt

/-- The same server, whose searches fail. -/
def unreadableLdap : Ldap Unit := { servingLdap "" [] with search := fun _ _ => ((), [.failure]) }

/-- Deleting a policy that cannot be read passes on the root of the server, and a share
    found in it. -/
theorem not_gpoDelete_inFolder_unreadable :
    let smb := folderSmb "smb://dc" ["sysvol"] (by decide)
    (∃ deletion, gpoDelete smb .empty unreadableLdap sampleNdr "dc" 2 () ()
      "CN={31B2F340},CN=Policies,CN=System,DC=domain,DC=alt" = .ok (some deletion) ∧
      deletion.gpt.passed = ["smb://dc/sysvol", "smb://dc"]) ∧
    ¬InFolder "dc" "domain.alt" "{31B2F340}" "smb://dc" := by
  refine ⟨⟨⟨(), ⟨(), true, _⟩, true⟩, rfl, by decide⟩, ?_⟩
  rintro ⟨tail, h, -⟩
  have h := congrArg String.toList h
  simp at h

end

end Admc
