import Admc.Interface.GptWalk
import Admc.Interface.Stores
import Admc.Security.SdText

/-!
# Permissions of group policies

The descriptor of a GPT is derived from the one of the GPC. `AdInterface::gpo_sync_perms` sets it on
all that is in the GPT, and `AdInterface::gpo_check_perms` compares it with what the share gives for
the root. A share gets decimal masks and gives hexadecimal ones, in elements that may come in any
order and more than once (`StoresTexts`).

`gpoPermsAgree`: after a synchronisation that has succeeded, the check does too; and for whatever
descriptor is stored, the check tells whether it is the derived one, up to the order and the
multiplicity of its entries.
-/

namespace Admc

/-! ## The descriptor of a GPT -/

/-- `SEC_STD_SYNCHRONIZE`. -/
def secStdSynchronize : AccessMask := 0x00100000
/-- `SEC_DIR_*`. -/
def secDirList : AccessMask := 0x00000001
def secDirAddFile : AccessMask := 0x00000002
def secDirAddSubdir : AccessMask := 0x00000004
def secDirReadEa : AccessMask := 0x00000008
def secDirWriteEa : AccessMask := 0x00000010
def secDirTraverse : AccessMask := 0x00000020
def secDirDeleteChild : AccessMask := 0x00000040
def secDirReadAttribute : AccessMask := 0x00000080
def secDirWriteAttribute : AccessMask := 0x00000100

/-- `SEC_ACE_FLAG_OBJECT_INHERIT`. -/
def secAceFlagObjectInherit : AceFlags := 0x01

/-- `SID_BUILTIN_PREW2K` and `SID_CREATOR_OWNER`. -/
def sidBuiltinPrew2k : QString := "S-1-5-32-554".toList
def sidCreatorOwner : QString := "S-1-3-0".toList

/-- `gp_ads_to_dir_access_mask`. -/
def gpAdsToDirAccessMask (accessMask : AccessMask) : AccessMask :=
  -- the standard rights are copied
  let fsMask := accessMask &&& 0x001F0000
  let fsMask := if accessMask &&& secAdsReadProp ≠ 0 ∧ accessMask &&& secAdsList ≠ 0 then
      fsMask ||| (secStdSynchronize ||| secDirList ||| secDirReadAttribute ||| secDirReadEa |||
        secDirTraverse)
    else fsMask
  let fsMask := if accessMask &&& secAdsWriteProp ≠ 0 then
      fsMask ||| (secStdSynchronize ||| secDirWriteAttribute ||| secDirWriteEa ||| secDirAddFile |||
        secDirAddSubdir)
    else fsMask
  let fsMask := if accessMask &&& secAdsCreateChild ≠ 0 then
      fsMask ||| (secDirAddFile ||| secDirAddSubdir)
    else fsMask
  if accessMask &&& secAdsDeleteChild ≠ 0 then fsMask ||| secDirDeleteChild else fsMask

/-- The loop of `gp_create_gpt_security_descriptor` over the entries of the GPC. -/
def addGptAces (fsSd : SecurityDescriptor) : List SecurityAce → SecurityDescriptor
  | [] => fsSd
  | ace :: aces =>
    let trustee := domSidString ace.trustee
    if ace.type.code &&& SecurityAceType.accessAllowedObject.code = 0 ∧
        trustee = sidBuiltinPrew2k then
      addGptAces fsSd aces
    else
      let flags := ace.flags ||| (secAceFlagObjectInherit ||| secAceFlagContainerInherit)
      let flags := if trustee = sidCreatorOwner then flags ||| secAceFlagInheritOnly else flags
      let accessMask := gpAdsToDirAccessMask ace.accessMask
      -- an entry may become empty
      if accessMask = 0 then addGptAces fsSd aces
      else addGptAces (securityDescriptorDaclAdd fsSd { ace with flags, accessMask }) aces

/-- `gp_create_gpt_security_descriptor`: nothing without an owner or a SACL, and the DACL is read
    without a check. -/
def gpCreateGptSecurityDescriptor (dsSd : SecurityDescriptor) :
    Except Fault (Option SecurityDescriptor) :=
  match dsSd.ownerSid, dsSd.sacl with
  | some ownerSid, some sacl => do
    let aces ← securityDescriptorGetDacl dsSd
    -- the group is the owner, as objects of a domain have none
    return some (addGptAces
      { revision := dsSd.revision, type := dsSd.type, ownerSid := some ownerSid
        groupSid := some ownerSid, sacl := some sacl, dacl := some ⟨0, 0, []⟩ } aces)
  | _, _ => return none

/-! ## Its text -/

/-- `without_duplicates` of `get_gpt_sd_string`. -/
def withoutDuplicates (elements : List QString) : List QString :=
  elements.foldl (fun withoutDuplicates element =>
    if element ∈ withoutDuplicates then withoutDuplicates
    else withoutDuplicates ++ [element]) []

variable {σ τ : Type} (g : Globals) (ldap : Ldap σ) (ndr : Ndr) (smb : Smb τ)

/-- `get_gpt_sd_string`: empty on errors. -/
def getGptSdString (gpcObject : AdObject) (formatEnum : AceMaskFormat) : Except Fault QString :=
  match gpcObject.getSecurityDescriptor ndr with
  | none => return []
  | some gpcSd => do
    match ← gpCreateGptSecurityDescriptor gpcSd with
    | none => return []
    | some gptSd =>
      let gptSd ← securityDescriptorSortDacl g.rt gptSd
      return [','].intercalate (withoutDuplicates (sdElements formatEnum gptSd))

/-! ## Synchronising and checking -/

/-- An answer of `smbc_getxattr`: a text, an error because of the size of the buffer, or another
    one. -/
inductive XattrAnswer
  | text (text : QString)
  | erange
  | failed
  deriving DecidableEq

variable (setxattr : τ → String → String → τ × Bool) (getxattr : τ → String → ℕ → τ × XattrAnswer)

/-- The loop of `AdInterface::get_gpt_sd`. None when it takes longer than `fuel`. -/
def getGptSdFrom (smbPath : String) : ℕ → τ → ℕ → Option (τ × QString)
  | 0, _, _ => none
  | fuel + 1, t, bufferSize =>
    match getxattr t smbPath bufferSize with
    | (t, .text text) => some (t, text)
    | (t, .erange) => getGptSdFrom smbPath fuel t (2 * bufferSize)
    | (t, .failed) => some (t, [])

/-- `AdInterface::get_gpt_sd`. -/
def getGptSd (fuel : ℕ) (t : τ) (smbPath : String) : Option (τ × QString) :=
  getGptSdFrom getxattr smbPath fuel t 1024

/-- What comes of checking permissions. -/
structure GpoCheck (σ τ : Type) where
  state : σ
  share : τ
  result : Bool
  ok : Bool

/-- The path of the GPT. -/
def gptPath (dc : String) (gpcObject : AdObject) : String :=
  filesysPathToSmbPath dc (gpcObject.getString g.rt "gPCFileSysPath")

/-- `AdInterface::gpo_check_perms`. None when a loop takes longer than `fuel`. -/
def gpoCheckPerms (isDomainAdmin : Bool) (dc : String) (fuel : ℕ) (s : σ) (t : τ) (gpo : String)
    (ok : Bool) : Except Fault (Option (GpoCheck σ τ)) := do
  -- others have not enough rights to get all of the descriptor
  if !isDomainAdmin then return some ⟨s, t, true, ok⟩
  let (s, gpcObject) := adSearchObject ldap s gpo [] true
  let gpcSd ← getGptSdString g ndr gpcObject .hexadecimal
  return (getGptSd getxattr fuel t (gptPath g dc gpcObject)).map fun (t, gptSd) =>
    if gpcSd = [] ∨ gptSd = [] then ⟨s, t, false, false⟩
    else ⟨s, t, areSdListsMatch gptSd gpcSd, ok⟩

/-- `AdInterface::gpo_sync_perms`, with the share. None when a loop takes longer than `fuel`. -/
def Smb.gpoSyncPerms (dc : String) (fuel : ℕ) (s : σ) (t : τ) (dn : String) :
    Except Fault (Option (σ × GptSync τ)) := do
  let (s, gpcObject) := adSearchObject ldap s dn [] true
  let gptSdString ← getGptSdString g ndr gpcObject .decimal
  if gptSdString = [] then return some (s, ⟨t, false, []⟩)
  return (syncGpt smb setxattr (String.ofList gptSdString) fuel t (gptPath g dc gpcObject)).map
    fun sync => (s, sync)

/-! ## Shares that store texts -/

/-- "0x%08x" for a mask, which may have this form already. -/
def hexMask : QString → QString
  | '0' :: 'x' :: digits => '0' :: 'x' :: digits
  | mask => '0' :: 'x' :: hexDigits (.ofInt 32 (toInt mask))

/-- An element with the mask rewritten, if it has one. -/
def rewriteMask (element : QString) : QString :=
  match element.splitOn '/' with
  | [entry, flags, mask] => entry ++ '/' :: flags ++ '/' :: hexMask mask
  | _ => element

/-- What a share has stored is the text that was last given to `smbc_setxattr`, for the path or for
    one that stands for it. It comes back with its masks rewritten, in whatever order and however
    often, into a buffer that is large enough. -/
structure StoresTexts (stored : τ → String → Option QString) : Prop where
  set_self : ∀ {t path text t'}, setxattr t path text = (t', true) →
    stored t' path = some text.toList
  set_other : ∀ {t path text t'}, setxattr t path text = (t', true) → ∀ path',
    stored t' path' = some text.toList ∨ stored t' path' = stored t path'
  get_self : ∀ {t path size text storedText}, (getxattr t path size).2 = .text text →
    stored t path = some storedText →
      ∀ element, element ∈ text.splitOn ',' ↔ element ∈ (storedText.splitOn ',').map rewriteMask
  get_other : ∀ t path size, stored (getxattr t path size).1 = stored t
  reads : ∀ storedText, ∃ limit, ∀ t path, stored t path = some storedText → ∀ size,
    (getxattr t path size).2 ≠ .failed ∧ (limit ≤ size → (getxattr t path size).2 ≠ .erange)

/-- A text of a descriptor, in one of the formats. -/
def IsTextOf (text : QString) (sd : SecurityDescriptor) : Prop :=
  ∃ format, ∀ element, element ∈ text.splitOn ',' ↔ element ∈ sdElements format sd

/-- Two answers about a GPC have the same descriptor and lead to the same GPT. -/
def SameGpc (dc : String) (gpcObject gpcObject' : AdObject) : Prop :=
  gpcObject.getSecurityDescriptor ndr = gpcObject'.getSecurityDescriptor ndr ∧
    gptPath g dc gpcObject = gptPath g dc gpcObject'

/-! ## Texts -/

section
variable {g ldap ndr smb setxattr getxattr} {stored : τ → String → Option QString}
  {gpcObject : AdObject} {gpcSd gptSd sd : SecurityDescriptor} {format : AceMaskFormat}
  {t t' : τ} {path : String} {text storedText : QString}

theorem mem_withoutDuplicates {elements : List QString} {x : QString} :
    x ∈ withoutDuplicates elements ↔ x ∈ elements := by
  have hfold : ∀ l : List QString, x ∈ elements.foldl (fun withoutDuplicates element =>
      if element ∈ withoutDuplicates then withoutDuplicates
      else withoutDuplicates ++ [element]) l ↔ x ∈ l ∨ x ∈ elements := by
    induction elements with
    | nil => exact fun l => by simp
    | cons element elements ih =>
      intro l
      rw [List.foldl_cons, ih, List.mem_cons]
      split_ifs with hmem
      · exact ⟨fun h => h.imp_right .inr, fun h => h.elim .inl fun h => h.elim
          (fun h => .inl (h ▸ hmem)) .inr⟩
      · rw [List.mem_append, List.mem_singleton, or_assoc]
  rw [withoutDuplicates, hfold, or_iff_right List.not_mem_nil]

/-- The elements are read back from the text. -/
theorem mem_splitOn_text {x : QString} :
    x ∈ ([','].intercalate (withoutDuplicates (sdElements format sd))).splitOn ',' ↔
      x ∈ sdElements format sd := by
  have hne : withoutDuplicates (sdElements format sd) ≠ [] := fun h => by
    have hrevision : revisionLabel ++ number sd.revision.toNat ∈ sdElements format sd :=
      revision_mem_sdElements.2 rfl
    have hmem := mem_withoutDuplicates.2 hrevision
    rw [h] at hmem
    exact absurd hmem List.not_mem_nil
  rw [List.splitOn_intercalate ',' (fun _ h => not_mem_sdElements (mem_withoutDuplicates.1 h)) hne,
    mem_withoutDuplicates]

theorem dacl_addGptAces {fsSd : SecurityDescriptor} {aces : List SecurityAce}
    (h : fsSd.dacl ≠ none) : (addGptAces fsSd aces).dacl ≠ none := by
  induction aces generalizing fsSd with
  | nil => exact h
  | cons ace aces ih =>
    rw [addGptAces]
    dsimp only
    split_ifs
    · exact ih h
    · exact ih h
    · exact ih (dacl_daclAdd_ne_none _ _)
    · exact ih (dacl_daclAdd_ne_none _ _)

/-- A descriptor with an owner, a SACL and a DACL gives one for the GPT. -/
theorem exists_gpCreate (howner : gpcSd.ownerSid ≠ none) (hsacl : gpcSd.sacl ≠ none)
    (hdacl : gpcSd.dacl ≠ none) :
    ∃ gptSd, gpCreateGptSecurityDescriptor gpcSd = .ok (some gptSd) := by
  obtain ⟨ownerSid, howner⟩ := Option.ne_none_iff_exists'.1 howner
  obtain ⟨sacl, hsacl⟩ := Option.ne_none_iff_exists'.1 hsacl
  rw [gpCreateGptSecurityDescriptor, howner, hsacl, securityDescriptorGetDacl_eq_ok.2 ⟨hdacl, rfl⟩]
  exact ⟨_, rfl⟩

theorem dacl_gpCreate (h : gpCreateGptSecurityDescriptor gpcSd = .ok (some gptSd)) :
    gptSd.dacl ≠ none := by
  rw [gpCreateGptSecurityDescriptor] at h
  split at h
  · cases haces : securityDescriptorGetDacl gpcSd with
    | error fault => exact absurd (haces ▸ h) nofun
    | ok aces =>
      rw [haces] at h
      obtain rfl := Option.some.inj (Except.ok.inj h)
      exact dacl_addGptAces (Option.some_ne_none _)
  · exact absurd (Except.ok.inj h) nofun

/-- The text has the elements of the descriptor of the GPT. -/
theorem getGptSdString_spec (hobject : gpcObject.getSecurityDescriptor ndr = some gpcSd)
    (hcreate : gpCreateGptSecurityDescriptor gpcSd = .ok (some gptSd)) :
    ∃ text, getGptSdString g ndr gpcObject format = .ok text ∧ text ≠ [] ∧
      ∀ x, x ∈ text.splitOn ',' ↔ x ∈ sdElements format gptSd := by
  obtain ⟨dacl, hdacl⟩ := Option.ne_none_iff_exists'.1 (dacl_gpCreate hcreate)
  let sorted : SecurityDescriptor :=
    { gptSd with dacl := some { dacl with aces := sortAces g.rt dacl.aces } }
  have hsort : securityDescriptorSortDacl g.rt gptSd = .ok sorted := by
    rw [securityDescriptorSortDacl, hdacl]
  have hwritten : SameWritten sorted gptSd := by
    refine ⟨rfl, rfl, rfl, fun entry => ?_⟩
    have haces : gptSd.aces = dacl.aces := by rw [SecurityDescriptor.aces, hdacl]; rfl
    rw [haces]
    exact ((sortAces_perm g.rt dacl.aces).map _).mem_iff
  refine ⟨_, ?_, ?_, fun x => mem_splitOn_text.trans (sdElements_iff.2 hwritten x)⟩
  · rw [getGptSdString, hobject]
    dsimp only
    rw [hcreate]
    dsimp only [Bind.bind, Except.bind]
    rw [hsort]
    rfl
  · intro h
    have hrevision : revisionLabel ++ number sorted.revision.toNat ∈ sdElements format sorted :=
      revision_mem_sdElements.2 rfl
    have hmem := mem_splitOn_text.2 hrevision
    rw [h, List.splitOn_nil, List.mem_singleton] at hmem
    cases congrArg List.head? hmem

/-- A text that is not empty is that of such a descriptor. -/
theorem exists_of_getGptSdString (h : getGptSdString g ndr gpcObject format = .ok text)
    (hne : text ≠ []) : ∃ gpcSd gptSd, gpcObject.getSecurityDescriptor ndr = some gpcSd ∧
      gpCreateGptSecurityDescriptor gpcSd = .ok (some gptSd) := by
  rw [getGptSdString] at h
  split at h
  · exact absurd (Except.ok.inj h).symm hne
  · next gpcSd hobject =>
    cases hcreate : gpCreateGptSecurityDescriptor gpcSd with
    | error fault =>
      rw [hcreate] at h
      exact absurd h nofun
    | ok gptSd =>
      cases gptSd with
      | none =>
        rw [hcreate] at h
        exact absurd (Except.ok.inj h).symm hne
      | some gptSd => exact ⟨gpcSd, gptSd, hobject, hcreate⟩

/-! ## What comes back -/

theorem rewriteMask_of_not_mem (h : '/' ∉ text) : rewriteMask text = text := by
  rw [rewriteMask, List.splitOn_eq_singleton h]

theorem hexMask_accessMaskString {mask : AccessMask} :
    hexMask (accessMaskString format mask) = accessMaskString .hexadecimal mask := by
  cases format with
  | hexadecimal => rfl
  | decimal =>
    have hread : toInt (accessMaskString .decimal mask) = mask.toInt :=
      toInteger_number (BitVec.le_toInt mask) BitVec.toInt_lt
    rw [hexMask, hread, BitVec.ofInt_toInt]
    · rfl
    · -- a decimal number is not taken for a hexadecimal one
      intro digits h
      have hx : 'x' ∈ accessMaskString .decimal mask := by
        rw [h]
        exact .tail _ (.head _)
      exact absurd (mem_number hx) (by decide)

theorem rewriteMask_aceElement {ace : SecurityAce} :
    rewriteMask (aceElement format ace) = aceElement .hexadecimal ace := by
  have hentry : '/' ∉ aclLabel ++ domSidString ace.trustee ++ ':' :: number ace.type.code := by
    have hlabel : '/' ∉ aclLabel := by decide
    have htrustee : '/' ∉ domSidString ace.trustee := not_mem_domSidString (.inr (.inr rfl))
    have htype : '/' ∉ number ace.type.code := not_mem_number_natCast (.inr (.inr rfl))
    simp [hlabel, htrustee, htype]
  have hflags : '/' ∉ number ace.flags.toNat := not_mem_number_natCast (.inr (.inr rfl))
  rw [rewriteMask, aceElement_eq, List.splitOn_append_cons_self, List.splitOn_append_cons_self,
    List.splitOn_eq_singleton hentry, List.splitOn_eq_singleton hflags,
    List.splitOn_eq_singleton (not_mem_accessMaskString (.inr rfl))]
  dsimp only [List.append_eq, List.cons_append, List.nil_append]
  rw [hexMask_accessMaskString, aceElement_eq]

theorem map_rewriteMask_sdElements :
    (sdElements format sd).map rewriteMask = sdElements .hexadecimal sd := by
  have hlabel : ∀ label ∈ [revisionLabel, ownerLabel, groupLabel], '/' ∉ label := by
    decide
  simp only [List.forall_mem_cons] at hlabel
  have hsid : ∀ sid, '/' ∉ domSidString sid := fun sid => not_mem_domSidString (.inr (.inr rfl))
  have hnumber : '/' ∉ number sd.revision.toNat := not_mem_number_natCast (.inr (.inr rfl))
  rw [sdElements, List.map_cons, List.map_cons, List.map_cons, List.map_map, sdElements,
    rewriteMask_of_not_mem (by simp [hlabel, hnumber]),
    rewriteMask_of_not_mem (by simp [hlabel, hsid]),
    rewriteMask_of_not_mem (by simp [hlabel, hsid])]
  have haces : sd.aces.map (rewriteMask ∘ aceElement format) =
      sd.aces.map (aceElement .hexadecimal) :=
    List.map_congr_left fun ace _ => rewriteMask_aceElement
  rw [haces]

/-- What comes back of a text of a descriptor is another one. -/
theorem StoresTexts.mem_splitOn_get (h : StoresTexts setxattr getxattr stored)
    (hstored : stored t path = some storedText) (hsd : IsTextOf storedText sd) {size : ℕ}
    (hget : (getxattr t path size).2 = .text text) (x : QString) :
    x ∈ text.splitOn ',' ↔ x ∈ sdElements .hexadecimal sd := by
  obtain ⟨format, hsd⟩ := hsd
  have hmap : (sdElements format sd).map rewriteMask = sdElements .hexadecimal sd :=
    map_rewriteMask_sdElements
  rw [h.get_self hget hstored, ← hmap, List.mem_map, List.mem_map]
  simp only [hsd]

/-- With a buffer that is large enough at last, there is a text. -/
theorem StoresTexts.getGptSdFrom_spec (h : StoresTexts setxattr getxattr stored)
    (hstored : stored t path = some storedText) (hsd : IsTextOf storedText sd) :
    ∃ n, ∀ fuel ≥ n, ∃ t' text, getGptSd getxattr fuel t path = some (t', text) ∧
      ∀ x, x ∈ text.splitOn ',' ↔ x ∈ sdElements .hexadecimal sd := by
  obtain ⟨limit, hlimit⟩ := h.reads storedText
  have hfrom : ∀ fuel t size, stored t path = some storedText → 0 < size → limit ≤ size + fuel →
      ∃ t' text, getGptSdFrom getxattr path (fuel + 1) t size = some (t', text) ∧
        ∀ x, x ∈ text.splitOn ',' ↔ x ∈ sdElements .hexadecimal sd := by
    intro fuel
    induction fuel with
    | zero =>
      intro t size hstored _ hsize
      rw [getGptSdFrom]
      rcases hget : getxattr t path size with ⟨t', text | - | -⟩
      · exact ⟨t', text, rfl, h.mem_splitOn_get hstored hsd (congrArg Prod.snd hget)⟩
      · exact absurd (congrArg Prod.snd hget) ((hlimit t path hstored size).2 hsize)
      · exact absurd (congrArg Prod.snd hget) (hlimit t path hstored size).1
    | succ fuel ih =>
      intro t size hstored hpos hsize
      rw [getGptSdFrom]
      rcases hget : getxattr t path size with ⟨t', text | - | -⟩
      · exact ⟨t', text, rfl, h.mem_splitOn_get hstored hsd (congrArg Prod.snd hget)⟩
      · refine ih t' (2 * size) ?_ (by omega) (by omega)
        rw [← hstored, ← h.get_other t path size, hget]
      · exact absurd (congrArg Prod.snd hget) (hlimit t path hstored size).1
  refine ⟨limit + 1, fun fuel hfuel => ?_⟩
  obtain ⟨fuel, rfl⟩ := Nat.exists_eq_add_of_le' (show 1 ≤ fuel by omega)
  exact hfrom fuel t 1024 hstored (by decide) (by omega)

/-! ## What is set -/

/-- A text that is stored stays while it is set for other paths. -/
theorem StoresTexts.stored_setPaths (h : StoresTexts setxattr getxattr stored) {text : String}
    {pathList : List String} (hsuccess : (setPaths setxattr text t pathList).success = true)
    (hpath : path ∈ pathList ∨ stored t path = some text.toList) :
    stored (setPaths setxattr text t pathList).state path = some text.toList := by
  induction pathList generalizing t with
  | nil => exact hpath.resolve_left List.not_mem_nil
  | cons path' pathList ih =>
    rw [setPaths] at hsuccess ⊢
    rcases hset : setxattr t path' text with ⟨t', - | -⟩
    · rw [hset] at hsuccess
      exact absurd hsuccess Bool.false_ne_true
    · rw [hset] at hsuccess
      refine ih hsuccess ?_
      rcases hpath with hpath | hpath
      · rcases List.mem_cons.1 hpath with rfl | hpath
        · exact .inr (h.set_self hset)
        · exact .inl hpath
      · exact .inr ((h.set_other hset path).elim id fun hkept => hkept.trans hpath)

/-- What has been seen stays. -/
theorem mem_exploreNames {names exploreStack seenStack : List String}
    {result : List String × List String}
    (h : exploreNames smb path t names exploreStack seenStack = (t', some result)) :
    seenStack ⊆ result.2 := by
  induction names generalizing t exploreStack seenStack with
  | nil =>
    obtain rfl := Option.some.inj (Prod.mk.inj h).2
    exact List.Subset.refl _
  | cons childName names ih =>
    rw [exploreNames] at h
    split_ifs at h
    · exact ih h
    · dsimp only at h
      split at h
      · cases (Prod.mk.inj h).2
      · exact List.Subset.trans (List.subset_append_left _ _) (ih h)

theorem mem_exploreFrom {fuel : ℕ} {exploreStack seenStack pathList : List String}
    (h : exploreFrom smb fuel t exploreStack seenStack = some (t', some pathList)) :
    seenStack ⊆ pathList := by
  induction fuel generalizing t exploreStack seenStack with
  | zero =>
    cases exploreStack with
    | nil =>
      obtain rfl := Option.some.inj (Prod.mk.inj (Option.some.inj h)).2
      exact List.Subset.refl _
    | cons path exploreStack => cases h
  | succ fuel ih =>
    cases exploreStack with
    | nil =>
      obtain rfl := Option.some.inj (Prod.mk.inj (Option.some.inj h)).2
      exact List.Subset.refl _
    | cons path exploreStack =>
      rw [exploreFrom] at h
      split at h
      · cases (Prod.mk.inj (Option.some.inj h)).2
      · split at h
        · cases (Prod.mk.inj (Option.some.inj h)).2
        · next hnames =>
          split_ifs at h
          · cases (Prod.mk.inj (Option.some.inj h)).2
          · exact List.Subset.trans (mem_exploreNames hnames) (ih h)

/-- After a synchronisation that has succeeded, the root has the text. -/
theorem StoresTexts.stored_syncGpt (h : StoresTexts setxattr getxattr stored) {text : String}
    {fuel : ℕ} {sync : GptSync τ} (hsync : syncGpt smb setxattr text fuel t path = some sync)
    (hsuccess : sync.success = true) : stored sync.state path = some text.toList := by
  rw [syncGpt] at hsync
  split at hsync
  · cases hsync
  · obtain rfl := Option.some.inj hsync
    exact absurd hsuccess Bool.false_ne_true
  · next hcontents =>
    split_ifs at hsync
    · obtain rfl := Option.some.inj hsync
      exact absurd hsuccess Bool.false_ne_true
    · obtain rfl := Option.some.inj hsync
      exact h.stored_setPaths hsuccess (.inl (mem_exploreFrom hcontents List.mem_cons_self))

/-! ## Checking -/

/-- The check tells whether the stored descriptor is the derived one. -/
theorem StoresTexts.gpoCheckPerms_spec (h : StoresTexts setxattr getxattr stored) {dc dn : String}
    {s : σ} (hobject : (adSearchObject ldap s dn [] true).2.getSecurityDescriptor ndr = some gpcSd)
    (hcreate : gpCreateGptSecurityDescriptor gpcSd = .ok (some gptSd))
    (hstored : stored t (gptPath g dc (adSearchObject ldap s dn [] true).2) = some storedText)
    (hsd : IsTextOf storedText sd) (ok : Bool) :
    ∃ n, ∀ fuel ≥ n, ∃ check,
      gpoCheckPerms g ldap ndr getxattr true dc fuel s t dn ok = .ok (some check) ∧
        check.ok = ok ∧ (check.result = true ↔ SameWritten sd gptSd) := by
  obtain ⟨gpcText, hgpc, hne, hgpcText⟩ := getGptSdString_spec (g := g) hobject hcreate
  obtain ⟨n, hn⟩ := h.getGptSdFrom_spec hstored hsd
  refine ⟨n, fun fuel hfuel => ?_⟩
  obtain ⟨t', gptText, hgpt, hgptText⟩ := hn fuel hfuel
  have hgptNe : gptText ≠ [] := fun hnil => by
    have hrevision : revisionLabel ++ number sd.revision.toNat ∈ sdElements .hexadecimal sd :=
      revision_mem_sdElements.2 rfl
    rw [← hgptText, hnil, List.splitOn_nil, List.mem_singleton] at hrevision
    exact absurd (congrArg List.head? hrevision) nofun
  refine ⟨⟨(adSearchObject ldap s dn [] true).1, t', areSdListsMatch gptText gpcText, ok⟩, ?_, rfl,
    ?_⟩
  · rw [gpoCheckPerms]
    dsimp only [Bool.not_true, Bind.bind, Except.bind]
    rw [hgpc]
    dsimp only
    rw [hgpt, Option.map_some]
    exact congrArg (fun check => Except.ok (some check)) (if_neg (not_or.2 ⟨hne, hgptNe⟩))
  · have hmatch : (∀ x, x ∈ gptText.splitOn ',' ↔ x ∈ gpcText.splitOn ',') ↔
        ∀ x, x ∈ sdElements .hexadecimal sd ↔ x ∈ sdElements .hexadecimal gptSd := by
      simp only [hgptText, hgpcText]
    exact areSdListsMatch_iff.trans (hmatch.trans sdElements_iff)

end

/-- After the permissions of a policy have been synchronised, checking them succeeds. Whatever
    descriptor is stored, the check tells whether its revision, owner, group and set of entries are
    those of the descriptor that is derived from the GPC. -/
theorem gpoPermsAgree (stored : τ → String → Option QString)
    (hshare : StoresTexts setxattr getxattr stored) (dc dn : String) :
    (∀ fuel s t s' sync, Smb.gpoSyncPerms g ldap ndr smb setxattr dc fuel s t dn =
        .ok (some (s', sync)) → sync.success = true →
      ∀ s'', SameGpc g ndr dc (adSearchObject ldap s'' dn [] true).2
          (adSearchObject ldap s dn [] true).2 →
        ∀ ok, ∃ n, ∀ fuel' ≥ n, ∃ check,
          gpoCheckPerms g ldap ndr getxattr true dc fuel' s'' sync.state dn ok =
              .ok (some check) ∧ check.ok = ok ∧ check.result = true) ∧
    ∀ s t gpcSd, (adSearchObject ldap s dn [] true).2.getSecurityDescriptor ndr = some gpcSd →
      gpcSd.ownerSid ≠ none → gpcSd.sacl ≠ none → gpcSd.dacl ≠ none →
        ∃ gptSd, gpCreateGptSecurityDescriptor gpcSd = .ok (some gptSd) ∧
          ∀ storedText sd, stored t (gptPath g dc (adSearchObject ldap s dn [] true).2) =
              some storedText → IsTextOf storedText sd →
            ∀ ok, ∃ n, ∀ fuel ≥ n, ∃ check,
              gpoCheckPerms g ldap ndr getxattr true dc fuel s t dn ok = .ok (some check) ∧
                check.ok = ok ∧ (check.result = true ↔ SameWritten sd gptSd) := by
  constructor
  · intro fuel s t s' sync hsync hsuccess s'' hsame ok
    rw [Smb.gpoSyncPerms] at hsync
    dsimp only [Bind.bind, Except.bind] at hsync
    cases htext : getGptSdString g ndr (adSearchObject ldap s dn [] true).2 .decimal with
    | error fault => exact absurd (htext ▸ hsync) nofun
    | ok text =>
      rw [htext] at hsync
      dsimp only at hsync
      split_ifs at hsync with hempty
      · obtain ⟨-, rfl⟩ := Prod.mk.inj (Option.some.inj (Except.ok.inj hsync))
        exact absurd hsuccess Bool.false_ne_true
      · obtain ⟨sync', hsync', heq⟩ := Option.map_eq_some_iff.1 (Except.ok.inj hsync)
        obtain ⟨-, rfl⟩ := Prod.mk.inj heq
        obtain ⟨gpcSd, gptSd, hobject, hcreate⟩ := exists_of_getGptSdString htext hempty
        have hstored := hshare.stored_syncGpt hsync' hsuccess
        obtain ⟨text', htext', -, helements⟩ := getGptSdString_spec (g := g) hobject hcreate
        obtain rfl := Except.ok.inj (htext.symm.trans htext')
        rw [String.toList_ofList, ← hsame.2] at hstored
        obtain ⟨n, hn⟩ := hshare.gpoCheckPerms_spec (hsame.1.trans hobject) hcreate hstored
          ⟨.decimal, helements⟩ ok
        refine ⟨n, fun fuel' hfuel' => ?_⟩
        obtain ⟨check, hcheck, hok, hresult⟩ := hn fuel' hfuel'
        exact ⟨check, hcheck, hok, hresult.2 ⟨rfl, rfl, rfl, fun _ => .rfl⟩⟩
  · intro s t gpcSd hobject howner hsacl hdacl
    obtain ⟨gptSd, hcreate⟩ := exists_gpCreate howner hsacl hdacl
    exact ⟨gptSd, hcreate, fun storedText sd hstored hsd ok =>
      hshare.gpoCheckPerms_spec hobject hcreate hstored hsd ok⟩

/-! ## A share -/

/-- A share whose GPTs are empty folders. -/
def textShare : Smb (List (String × QString)) where
  openDir texts _ := (texts, some [])
  errnoIsSet _ := false
  stat texts _ := (texts, some false)
  rmdir texts _ := (texts, true)
  unlink texts _ := (texts, true)
  openDir_names texts path texts' names h name hname := by
    obtain rfl := Option.some.inj (Prod.mk.inj h).2
    exact absurd hname List.not_mem_nil

/-- It stores the texts by path, -/
def setText (texts : List (String × QString)) (path text : String) :
    List (String × QString) × Bool :=
  ((path, text.toList) :: texts, true)

/-- and gives them with hexadecimal masks. -/
def getText (texts : List (String × QString)) (path : String) (size : ℕ) :
    List (String × QString) × XattrAnswer :=
  (texts,
    match texts.lookup path with
    | none => .failed
    | some text =>
      let text := [','].intercalate ((text.splitOn ',').map rewriteMask)
      if text.length < size then .text text else .erange)

theorem not_mem_rewriteMask {element : QString} (h : ',' ∉ element) :
    ',' ∉ rewriteMask element := by
  rw [rewriteMask]
  split
  · next entry flags mask hsplit =>
    have hpart : ∀ part ∈ [entry, flags, mask], ',' ∉ part := by
      intro part hpart hcomma
      rw [← hsplit] at hpart
      have hcount := Path.count_le_of_mem_splitOn hpart ','
      exact h (List.count_pos_iff.1 ((List.count_pos_iff.2 hcomma).trans_le hcount))
    simp only [List.forall_mem_cons] at hpart
    have hmask : ',' ∉ hexMask mask := by
      rw [hexMask.eq_def]
      split
      · exact hpart.2.2.1
      · exact @not_mem_accessMaskString .hexadecimal _ ',' (.inl rfl)
    simp [hpart, hmask]
  · exact h

theorem storesTexts_textShare :
    StoresTexts setText getText fun texts path => texts.lookup path where
  set_self h := by
    obtain ⟨rfl, -⟩ := Prod.mk.inj h
    exact List.lookup_cons_self
  set_other h path' := by
    obtain ⟨rfl, -⟩ := Prod.mk.inj h
    rw [List.lookup_cons]
    split
    · exact .inl rfl
    · exact .inr rfl
  get_self hget hstored := by
    rw [getText, hstored] at hget
    dsimp only at hget
    split_ifs at hget
    obtain rfl := XattrAnswer.text.inj hget
    intro element
    rw [List.splitOn_intercalate]
    · intro element helement
      obtain ⟨element', helement', rfl⟩ := List.mem_map.1 helement
      exact not_mem_rewriteMask (Path.not_mem_of_mem_splitOn helement')
    · exact mt List.map_eq_nil_iff.1 (List.splitOn_ne_nil _ _)
  get_other _ _ _ := rfl
  reads storedText := by
    refine ⟨([','].intercalate ((storedText.splitOn ',').map rewriteMask)).length + 1,
      fun texts path hstored size => ?_⟩
    rw [getText, hstored]
    dsimp only
    split_ifs with hsize
    · exact ⟨nofun, fun _ => nofun⟩
    · exact ⟨nofun, fun h => absurd h hsize⟩

/-- A GPC whose administrators may read it, and read and write its properties. -/
def sampleGpcSd : SecurityDescriptor where
  revision := 1
  type := secDescDaclPresent
  ownerSid := some sidWorld
  groupSid := none
  sacl := some ⟨securityAclRevisionAds, 0, []⟩
  dacl := some ⟨securityAclRevisionAds, 0,
    [{ zeroAce with trustee := sidWorld, accessMask := 0x00020034 },
      { zeroAce with trustee := sidNtSelf, accessMask := 0x00000100 }]⟩

/-- The descriptor of its GPT, without the entry that has become empty. -/
def sampleGptSd : SecurityDescriptor where
  revision := 1
  type := secDescDaclPresent
  ownerSid := some sidWorld
  groupSid := some sidWorld
  sacl := some ⟨securityAclRevisionAds, 0, []⟩
  dacl := some ⟨0, 0,
    [{ zeroAce with trustee := sidWorld, flags := 0x03, accessMask := 0x001201bf }]⟩

/-- A directory with the GPC, -/
def sampleGpcs : Entries :=
  [("CN=gpo", [("nTSecurityDescriptor", [[1]]), ("gPCFileSysPath", [[]])])]

/-- whose descriptor has one byte. -/
def gpcNdr : Ndr where
  pull bytes := if bytes = [1] then some sampleGpcSd else none
  push sd := if sd = sampleGpcSd then some [1] else none

/-- A text of the descriptor of the GPT, in another order and with a repetition, is recognised. -/
theorem gpoPermsAgree_textShare : ∃ path, ∃ n, ∀ fuel ≥ n, ∃ check,
    gpoCheckPerms Globals.empty (entriesLdap false) gpcNdr getText true "dc" fuel sampleGpcs
        [(path, [','].intercalate ((sdElements .decimal sampleGptSd).reverse ++
          sdElements .decimal sampleGptSd))] "CN=gpo" true = .ok (some check) ∧
      check.result = true := by
  have hobject : (adSearchObject (entriesLdap false) sampleGpcs "CN=gpo" []
      true).2.getSecurityDescriptor gpcNdr = some sampleGpcSd := by decide
  have hcreate : gpCreateGptSecurityDescriptor sampleGpcSd = .ok (some sampleGptSd) := by decide
  have htext : IsTextOf ([','].intercalate ((sdElements .decimal sampleGptSd).reverse ++
      sdElements .decimal sampleGptSd)) sampleGptSd := by
    refine ⟨.decimal, fun element => ?_⟩
    rw [List.splitOn_intercalate ',' (fun element helement => ?_) (by simp [sdElements])]
    · simp
    · rw [List.mem_append, List.mem_reverse, or_self] at helement
      exact not_mem_sdElements helement
  obtain ⟨-, hcheck⟩ := gpoPermsAgree Globals.empty (entriesLdap false) gpcNdr textShare setText
    getText _ storesTexts_textShare "dc" "CN=gpo"
  obtain ⟨gptSd, hgptSd, hresult⟩ := hcheck sampleGpcs [(_, _)] sampleGpcSd hobject
    (Option.some_ne_none _) (Option.some_ne_none _) (Option.some_ne_none _)
  obtain rfl := Option.some.inj (Except.ok.inj (hcreate.symm.trans hgptSd))
  obtain ⟨n, hn⟩ := hresult _ _ List.lookup_cons_self htext true
  refine ⟨gptPath Globals.empty "dc"
    (adSearchObject (entriesLdap false) sampleGpcs "CN=gpo" [] true).2, n, fun fuel hfuel => ?_⟩
  obtain ⟨check, hrun, -, hresult⟩ := hn fuel hfuel
  exact ⟨check, hrun, hresult.2 ⟨rfl, rfl, rfl, fun _ => .rfl⟩⟩

end Admc
