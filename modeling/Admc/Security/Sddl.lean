import Admc.Lib.LetterCodes
import Admc.Security.Edit
import Admc.Security.Match
import Admc.Security.SidParse

/-!
# Descriptors as texts of letters

The security descriptor description language (SDDL): a descriptor as a text, with letter codes for
types, flags, rights and well-known identifiers, as `sddl.c` writes and reads it. A text that is
shown has up to four parts: the owner `O:`, the group `G:`, the DACL `D:` and the SACL `S:`.

The constants are those of the headers of Samba.
-/

namespace Admc

/-! ## Letter codes -/

/-- `struct flag_map`. -/
abbrev FlagMap := List (LetterCodes.Code Char 32)

/-- An entry of a `flag_map`. -/
def flagCode (name : String) (flag : BitVec 32) : LetterCodes.Code Char 32 := ⟨name.toList, flag⟩

/-- `isupper`. -/
def isUpperLetter (c : Char) : Bool := 'A' ≤ c ∧ c ≤ 'Z'

/-- `sddl_map_flag`: the flag of the first code that a text starts with, and what comes after it. -/
def sddlMapFlag (map : FlagMap) (str : QString) : Option (BitVec 32 × QString) :=
  (LetterCodes.lookup map str).map fun code => (code.flag, str.drop code.name.length)

/-- `sddl_map_flags`. -/
def sddlMapFlags (map : FlagMap) (str : QString) (unknownFlagIsPartOfNextThing : Bool) :
    Option (BitVec 32 × QString) :=
  let (flags, rest) := LetterCodes.read map isUpperLetter str.length 0 str
  if rest = [] ∨ unknownFlagIsPartOfNextThing then some (flags, rest) else none

/-- `sddl_flags_to_string`. -/
def sddlFlagsToString (map : FlagMap) (flags : BitVec 32) (checkAll : Bool) : Option QString :=
  match map.find? fun code => code.flag = flags with
  | some code => some code.name
  | none =>
    let (text, rest) := LetterCodes.write map flags
    if checkAll ∧ rest ≠ 0 then none else some text

/-- `ace_types`. -/
def aceTypes : FlagMap :=
  [flagCode "AU" 2, flagCode "AL" 3, flagCode "OA" 5, flagCode "OD" 6, flagCode "OU" 7,
    flagCode "OL" 8, flagCode "A" 0, flagCode "D" 1]

/-- `ace_flags`. -/
def aceFlags : FlagMap :=
  [flagCode "OI" 0x01, flagCode "CI" 0x02, flagCode "NP" 0x04, flagCode "IO" 0x08,
    flagCode "ID" 0x10, flagCode "SA" 0x40, flagCode "FA" 0x80]

/-- `ace_access_mask`. -/
def aceAccessMask : FlagMap :=
  [flagCode "CC" secAdsCreateChild, flagCode "DC" secAdsDeleteChild, flagCode "LC" secAdsList,
    flagCode "SW" secAdsSelfWrite, flagCode "RP" secAdsReadProp, flagCode "WP" secAdsWriteProp,
    flagCode "DT" secAdsDeleteTree, flagCode "LO" secAdsListObject,
    flagCode "CR" secAdsControlAccess, flagCode "SD" secStdDelete, flagCode "RC" secStdReadControl,
    flagCode "WD" secStdWriteDac, flagCode "WO" secStdWriteOwner, flagCode "GA" 0x10000000,
    flagCode "GX" 0x20000000, flagCode "GW" 0x40000000, flagCode "GR" 0x80000000]

/-- `decode_ace_access_mask`. -/
def decodeAceAccessMask : FlagMap :=
  [flagCode "FA" 0x001F01FF, flagCode "FR" 0x00120089, flagCode "FW" 0x00120116,
    flagCode "FX" 0x001200A0]

/-- `acl_flags`. -/
def aclFlags : FlagMap := [flagCode "P" 0x1000, flagCode "AR" 0x0100, flagCode "AI" 0x0400]

/-! ## Identifiers -/

/-- An entry of `sid_codes`. -/
structure SidCode where
  code : QString
  sid : Option QString
  machineRid : BitVec 32
  domainRid : BitVec 32
  forestRid : BitVec 32
  deriving DecidableEq

/-- The code of a well-known identifier. -/
def SidCode.ofSid (code sid : String) : SidCode := ⟨code.toList, some sid.toList, 0, 0, 0⟩

/-- The code of an identifier in a machine. -/
def SidCode.ofMachine (code : String) (rid : BitVec 32) : SidCode :=
  ⟨code.toList, none, rid, 0, 0⟩

/-- The code of an identifier in a domain. -/
def SidCode.ofDomain (code : String) (rid : BitVec 32) : SidCode :=
  ⟨code.toList, none, 0, rid, 0⟩

/-- The code of an identifier in the root domain of a forest. -/
def SidCode.ofForest (code : String) (rid : BitVec 32) : SidCode :=
  ⟨code.toList, none, 0, 0, rid⟩

/-- `sid_codes`. -/
def sidCodes : List SidCode :=
  [.ofSid "WD" "S-1-1-0",
    .ofSid "CO" "S-1-3-0", .ofSid "CG" "S-1-3-1", .ofSid "OW" "S-1-3-4",
    .ofSid "NU" "S-1-5-2", .ofSid "IU" "S-1-5-4", .ofSid "SU" "S-1-5-6", .ofSid "AN" "S-1-5-7",
    .ofSid "ED" "S-1-5-9", .ofSid "PS" "S-1-5-10", .ofSid "AU" "S-1-5-11",
    .ofSid "RC" "S-1-5-12", .ofSid "SY" "S-1-5-18", .ofSid "LS" "S-1-5-19",
    .ofSid "NS" "S-1-5-20", .ofSid "WR" "S-1-5-33",
    .ofSid "BA" "S-1-5-32-544", .ofSid "BU" "S-1-5-32-545", .ofSid "BG" "S-1-5-32-546",
    .ofSid "PU" "S-1-5-32-547", .ofSid "AO" "S-1-5-32-548", .ofSid "SO" "S-1-5-32-549",
    .ofSid "PO" "S-1-5-32-550", .ofSid "BO" "S-1-5-32-551", .ofSid "RE" "S-1-5-32-552",
    .ofSid "RU" "S-1-5-32-554", .ofSid "RD" "S-1-5-32-555", .ofSid "NO" "S-1-5-32-556",
    .ofSid "MU" "S-1-5-32-558", .ofSid "LU" "S-1-5-32-559", .ofSid "IS" "S-1-5-32-568",
    .ofSid "CY" "S-1-5-32-569", .ofSid "ER" "S-1-5-32-573", .ofSid "CD" "S-1-5-32-574",
    .ofSid "RA" "S-1-5-32-575", .ofSid "ES" "S-1-5-32-576", .ofSid "MS" "S-1-5-32-577",
    .ofSid "HA" "S-1-5-32-578", .ofSid "AA" "S-1-5-32-579", .ofSid "RM" "S-1-5-32-580",
    .ofSid "UD" "S-1-5-84-0-0-0-0-0",
    .ofSid "AC" "S-1-15-2-1",
    .ofSid "LW" "S-1-16-4096", .ofSid "ME" "S-1-16-8192", .ofSid "MP" "S-1-16-8448",
    .ofSid "HI" "S-1-16-12288", .ofSid "SI" "S-1-16-16384",
    .ofSid "AS" "S-1-18-1", .ofSid "SS" "S-1-18-2",
    .ofForest "RO" 498,
    .ofMachine "LA" 500, .ofMachine "LG" 501,
    .ofDomain "DA" 512, .ofDomain "DU" 513, .ofDomain "DG" 514, .ofDomain "DC" 515,
    .ofDomain "DD" 516, .ofDomain "CA" 517, .ofForest "SA" 518, .ofForest "EA" 519,
    .ofDomain "PA" 520,
    .ofDomain "CN" 522,
    .ofDomain "AP" 525, .ofDomain "KA" 526, .ofForest "EK" 527,
    .ofDomain "RS" 553]

/-- `dom_sid_in_domain`. -/
def domSidInDomain (domainSid sid : DomSid) : Bool :=
  if sid.subAuths.length < 2 then false
  else if domainSid.subAuths.length ≠ sid.subAuths.length - 1 then false
  else if domainSid.subAuths ≠ sid.subAuths.take domainSid.subAuths.length then false
  else domSidCompareAuth domainSid sid = 0

/-- `dom_sid_add_rid`. -/
def domSidAddRid (domainSid : DomSid) (rid : BitVec 32) : Option DomSid :=
  if h : domainSid.subAuths.length < 15 then
    some { domainSid with
      subAuths := domainSid.subAuths ++ [rid]
      subAuths_length := List.length_append.trans_le h }
  else none

/-- `dom_sid_str_buf`. -/
def domSidStrBuf (sid : DomSid) : QString :=
  if sid.string.length ≥ domSidStrBuflen then "(INVALID SID)".toList else sid.string

/-- `struct sddl_transition_state`. -/
structure SddlTransitionState where
  machineSid : DomSid
  domainSid : DomSid
  forestSid : DomSid

/-- The code stands for the identifier with this text, that ends with this RID. -/
def SidCode.matches (state : SddlTransitionState) (sid : DomSid) (sidstr : QString)
    (rid : BitVec 32) (entry : SidCode) : Bool :=
  match entry.sid with
  | some text => text = sidstr
  | none => rid ≠ 0 ∧
      (domSidInDomain state.machineSid sid ∧ entry.machineRid = rid ∨
        domSidInDomain state.domainSid sid ∧ entry.domainRid = rid ∨
        domSidInDomain state.forestSid sid ∧ entry.forestRid = rid)

/-- `sddl_encode_sid`. -/
def sddlEncodeSid (state : SddlTransitionState) (sid : DomSid) : QString :=
  let sidstr := domSidStrBuf sid
  let rid := if sid.subAuths.length > 1 then sid.subAuths.getLastD 0 else 0
  match sidCodes.find? (SidCode.matches state sid sidstr rid) with
  | some entry => entry.code
  | none => sidstr

/-- How reading a text fails. -/
inductive SddlError
  /-- A null pointer is returned. -/
  | badlyFormatted
  /-- An identifier is read past its end. -/
  | pastEnd
  deriving DecidableEq, Repr

/-- A null pointer is badly formatted. -/
def notNull {α : Type} (a : Option α) : Except SddlError α :=
  match a with
  | some a => .ok a
  | none => .error .badlyFormatted

/-- `sddl_decode_sid`, with what comes after the identifier. -/
def sddlDecodeSid (state : SddlTransitionState) (sddl : QString) :
    Except SddlError (DomSid × QString) :=
  if sddl.take 2 = ['S', '-'] then
    let len := ((sddl.drop 2).takeWhile (sidChars.contains ·)).length + 2
    if len < 5 then .error .badlyFormatted
    else
      -- the marker of a DACL starts with a hexadecimal digit
      let len := if sddl[len - 1]? = some 'D' ∧ sddl[len]? = some ':' then len - 1 else len
      match domSidParseEndp (sddl.take len) with
      | .parsed sid rest =>
        if rest ≠ [] then .error .badlyFormatted else .ok (sid, sddl.drop len)
      | .formatError => .error .badlyFormatted
      | .pastEnd => .error .pastEnd
  else do
    let entry ← notNull (sidCodes.find? fun entry => entry.code = sddl.take 2)
    let sid ← notNull
      (if entry.machineRid ≠ 0 then domSidAddRid state.machineSid entry.machineRid
      else if entry.domainRid ≠ 0 then domSidAddRid state.domainSid entry.domainRid
      else if entry.forestRid ≠ 0 then domSidAddRid state.forestSid entry.forestRid
      else domSidParse (entry.sid.getD []))
    return (sid, sddl.drop 2)

/-! ## GUIDs -/

/-- The bytes of a GUID in memory, the lowest one of the word first. -/
def Guid.byte (guid : Guid) (i : ℕ) : BitVec 8 := .ofNat 8 (guid.bytes.toNat / 256 ^ i)

/-- The GUID with these bytes in memory. -/
def Guid.ofMemory (bytes : List (BitVec 8)) : Guid :=
  ⟨.ofNat 128 (Nat.ofDigits 256 (bytes.map BitVec.toNat))⟩

/-- The places of the bytes in a text: numbers are written with their highest byte first, arrays
    in their order. -/
def guidSegments : List (List ℕ) :=
  [[3, 2, 1, 0], [5, 4], [7, 6], [8, 9], [10, 11, 12, 13, 14, 15]]

/-- "%02x". -/
def byteDigits (byte : BitVec 8) : QString :=
  [Nat.digitChar (byte.toNat / 16), Nat.digitChar (byte.toNat % 16)]

/-- `GUID_buf_string`. -/
def guidBufString (guid : Guid) : QString :=
  ['-'].intercalate
    (guidSegments.map fun segment => segment.flatMap fun i => byteDigits (guid.byte i))

/-- `hex_byte`, so many times. -/
def hexBytesOf : ℕ → QString → Option (List (BitVec 8) × QString)
  | n + 1, hi :: lo :: s =>
    match strtolDigit hi, strtolDigit lo with
    | some hi, some lo =>
      if hi < 16 ∧ lo < 16 then
        (hexBytesOf n s).map fun (bytes, s) => (.ofNat 8 (16 * hi + lo) :: bytes, s)
      else none
    | _, _ => none
  | 0, s => some ([], s)
  | _, _ => none

/-- `parse_guid_string`. -/
def parseGuidString (s : QString) : Option Guid := do
  let (timeLow, s) ← hexBytesOf 4 s
  let s ← afterChar '-' s
  let (timeMid, s) ← hexBytesOf 2 s
  let s ← afterChar '-' s
  let (timeHiAndVersion, s) ← hexBytesOf 2 s
  let s ← afterChar '-' s
  let (clockSeq, s) ← hexBytesOf 2 s
  let s ← afterChar '-' s
  let (node, _) ← hexBytesOf 6 s
  return .ofMemory
    (timeLow.reverse ++ timeMid.reverse ++ timeHiAndVersion.reverse ++ clockSeq ++ node)

/-- `sddl_decode_guid`. -/
def sddlDecodeGuid (str : QString) : Option Guid :=
  if str.length ≠ 36 then none else parseGuidString str

/-! ## Access masks -/

/-- `sddl_match_file_rights`. -/
def sddlMatchFileRights (flags : BitVec 32) : Option QString :=
  (decodeAceAccessMask.find? fun code => code.flag = flags).map LetterCodes.Code.name

/-- The loop of `sddl_decode_access`: there may be blanks before a code. -/
def sddlDecodeLetters : ℕ → BitVec 32 → QString → Option AccessMask
  | fuel + 1, mask, c :: cs =>
    if isUpperLetter c ∨ c = ' ' then
      let str := (c :: cs).dropWhile (· = ' ')
      if str = [] then none
      else
        match (sddlMapFlag decodeAceAccessMask str).or (sddlMapFlag aceAccessMask str) with
        | some (flags, str) => sddlDecodeLetters fuel (mask ||| flags) str
        | none => none
    else none
  | _, mask, str => if str = [] then some mask else none

/-- `sddl_decode_access`. -/
def sddlDecodeAccess (str : QString) : Option AccessMask :=
  match smbStrtoull str 0 with
  | some (numericMask, rest) =>
    if numericMask > 2 ^ 32 - 1 then none
    else if str.length - rest.length > "037777777777".length + 1 then none
    else if rest ≠ [] then none
    else some (.ofNat 32 numericMask)
  | none => sddlDecodeLetters str.length 0 str

/-- `sddl_mask` of `sddl_transition_encode_ace`. -/
def sddlMask (accessMask : AccessMask) : QString :=
  match sddlFlagsToString aceAccessMask accessMask true with
  | some text => text
  | none =>
    match sddlMatchFileRights accessMask with
    | some text => text
    | none => ['0', 'x'] ++ Nat.toDigits 16 accessMask.toNat

/-! ## Entries -/

/-- What comes before the next semicolon, and what after it. -/
def nextToken (str : QString) : Option (QString × QString) :=
  match str.dropWhile (· ≠ ';') with
  | _ :: rest => some (str.takeWhile (· ≠ ';'), rest)
  | [] => none

/-- A GUID of an entry, with the flag that tells that it is there. -/
def sddlDecodeObject (tok : QString) (present : BitVec 32) : Option (BitVec 32 × Guid) :=
  if tok = [] then some (0, ⟨0⟩) else (sddlDecodeGuid tok).map fun guid => (present, guid)

/-- `sddl_decode_ace`. -/
def sddlDecodeAce (state : SddlTransitionState) (str : QString) :
    Except SddlError SecurityAce := do
  let (tok0, str) ← notNull (nextToken str)
  let (tok1, str) ← notNull (nextToken str)
  let (tok2, str) ← notNull (nextToken str)
  let (tok3, str) ← notNull (nextToken str)
  let (tok4, tok5) ← notNull (nextToken str)
  let (type, garbage) ← notNull (sddlMapFlag aceTypes tok0)
  if garbage ≠ [] then .error .badlyFormatted
  else
    let (flags, _) ← notNull (sddlMapFlags aceFlags tok1 false)
    let accessMask ← notNull (sddlDecodeAccess tok2)
    let (typePresent, objectType) ← notNull (sddlDecodeObject tok3 secAceObjectTypePresent)
    let (inheritedPresent, inheritedType) ←
      notNull (sddlDecodeObject tok4 secAceInheritedObjectTypePresent)
    let (trustee, s) ← sddlDecodeSid state tok5
    if s ≠ [] then .error .badlyFormatted
    else
      return { zeroAce with
        type := .ofCode type.toNat
        flags := flags.setWidth 8
        accessMask := accessMask
        object := ⟨typePresent ||| inheritedPresent, objectType, inheritedType⟩
        trustee := trustee }

/-- The types of the entries whose objects `sddl_transition_encode_ace` writes. -/
def writesObject : SecurityAceType → Bool
  | .accessAllowedObject | .accessDeniedObject | .systemAuditObject | .systemAlarmObject => true
  | _ => false

/-- A GUID of an entry, if it is there. -/
def sddlObject (ace : SecurityAce) (present : BitVec 32) (guid : Guid) : QString :=
  if writesObject ace.type ∧ ace.object.flags &&& present ≠ 0 then guidBufString guid else []

/-- `sddl_transition_encode_ace`. -/
def sddlTransitionEncodeAce (state : SddlTransitionState) (ace : SecurityAce) :
    Option QString := do
  let sddlType ← sddlFlagsToString aceTypes (.ofNat 32 ace.type.code) true
  let sddlFlags ← sddlFlagsToString aceFlags (ace.flags.setWidth 32) true
  return [';'].intercalate [sddlType, sddlFlags, sddlMask ace.accessMask,
    sddlObject ace secAceObjectTypePresent ace.object.type,
    sddlObject ace secAceInheritedObjectTypePresent ace.object.inheritedType,
    sddlEncodeSid state ace.trustee]

/-! ## Lists and descriptors -/

/-- The loop for the entries of `sddl_decode_acl`. -/
def sddlDecodeAces (state : SddlTransitionState) :
    ℕ → QString → Except SddlError (List SecurityAce × QString)
  | fuel + 1, sddl =>
    match afterChar '(' sddl with
    | none => .ok ([], sddl)
    | some sddl =>
      match sddl.dropWhile (· ≠ ')') with
      | [] => .error .badlyFormatted
      | _ :: rest => do
        let ace ← sddlDecodeAce state (sddl.takeWhile (· ≠ ')'))
        let (aces, sddl) ← sddlDecodeAces state fuel rest
        return (ace :: aces, sddl)
  | 0, sddl => .ok ([], sddl)

/-- The text starts with the marker of a part. -/
def startsPart : QString → Bool
  | c :: colon :: _ => isUpperLetter c && colon = ':'
  | _ => false

/-- `sddl_decode_acl`, with the flags and what comes after the list. -/
def sddlDecodeAcl (state : SddlTransitionState) (sddl : QString) :
    Except SddlError (SecurityAcl × BitVec 32 × QString) :=
  if startsPart sddl then .ok (⟨securityAclRevisionAds, 0, []⟩, 0, sddl)
  else do
    let (flags, sddl) ← notNull (sddlMapFlags aclFlags sddl true)
    let (aces, sddl) ← sddlDecodeAces state sddl.length sddl
    return (⟨securityAclRevisionAds, 0, aces⟩, flags, sddl)

/-- `SEC_DESC_SACL_PRESENT`. -/
def secDescSaclPresent : BitVec 16 := 0x0010
/-- `SEC_DESC_SELF_RELATIVE`. -/
def secDescSelfRelative : BitVec 16 := 0x8000
/-- `SECURITY_DESCRIPTOR_REVISION_1`. -/
def securityDescriptorRevision1 : BitVec 8 := 1

/-- The loop of `sddl_decode`. Each turn that does not fail sets one of four parts that was not
    set, so there are at most four before the text is at its end. -/
def sddlDecodeParts (state : SddlTransitionState) :
    ℕ → SecurityDescriptor → QString → Except SddlError SecurityDescriptor
  | _, sd, [] => .ok sd
  | 0, _, _ :: _ => .error .badlyFormatted
  | fuel + 1, sd, c :: sddl => do
    let sddl ← notNull (afterChar ':' sddl)
    if c = 'D' then
      if sd.dacl ≠ none then .error .badlyFormatted
      else
        let (acl, flags, sddl) ← sddlDecodeAcl state sddl
        sddlDecodeParts state fuel { sd with
          dacl := some acl
          type := sd.type ||| (flags.setWidth 16 ||| secDescDaclPresent) } sddl
    else if c = 'S' then
      if sd.sacl ≠ none then .error .badlyFormatted
      else
        let (acl, flags, sddl) ← sddlDecodeAcl state sddl
        sddlDecodeParts state fuel { sd with
          sacl := some acl
          type := sd.type ||| ((flags <<< 1).setWidth 16 ||| secDescSaclPresent) } sddl
    else if c = 'O' then
      if sd.ownerSid ≠ none then .error .badlyFormatted
      else
        let (sid, sddl) ← sddlDecodeSid state sddl
        sddlDecodeParts state fuel { sd with ownerSid := some sid } sddl
    else if c = 'G' then
      if sd.groupSid ≠ none then .error .badlyFormatted
      else
        let (sid, sddl) ← sddlDecodeSid state sddl
        sddlDecodeParts state fuel { sd with groupSid := some sid } sddl
    else .error .badlyFormatted

/-- `sddl_decode`. -/
def sddlDecode (sddl : QString) (domainSid : DomSid) : Except SddlError SecurityDescriptor :=
  sddlDecodeParts ⟨domainSid, domainSid, domainSid⟩ 4
    ⟨securityDescriptorRevision1, secDescSelfRelative, none, none, none, none⟩ sddl

/-- `sddl_encode_acl`. -/
def sddlEncodeAcl (state : SddlTransitionState) (acl : SecurityAcl) (flags : BitVec 32) :
    Option QString := do
  let sddl ← sddlFlagsToString aclFlags flags false
  let aces ← acl.aces.mapM (sddlTransitionEncodeAce state)
  return sddl ++ aces.flatMap fun ace => '(' :: ace ++ [')']

/-- The text of a part that is not null. -/
def sddlPart {α : Type} (marker : Char) (encode : α → Option QString) : Option α → Option QString
  | none => some []
  | some a => (encode a).map fun text => marker :: ':' :: text

/-- `sddl_encode`. -/
def sddlEncode (sd : SecurityDescriptor) (domainSid : DomSid) : Option QString := do
  let state : SddlTransitionState := ⟨domainSid, domainSid, domainSid⟩
  let dacl := if sd.type &&& secDescDaclPresent ≠ 0 then sd.dacl else none
  let sacl := if sd.type &&& secDescSaclPresent ≠ 0 then sd.sacl else none
  let owner ← sddlPart 'O' (fun sid => some (sddlEncodeSid state sid)) sd.ownerSid
  let group ← sddlPart 'G' (fun sid => some (sddlEncodeSid state sid)) sd.groupSid
  let dacl ← sddlPart 'D' (fun acl => sddlEncodeAcl state acl (sd.type.setWidth 32)) dacl
  let sacl ← sddlPart 'S' (fun acl => sddlEncodeAcl state acl ((sd.type >>> 1).setWidth 32)) sacl
  return owner ++ group ++ dacl ++ sacl

end Admc
