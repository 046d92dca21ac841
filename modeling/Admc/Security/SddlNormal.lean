import Admc.Security.SddlRoundTrip

/-!
# One text for one descriptor

What a text keeps of a descriptor has the same text (`sddlEncode_expressed`), so descriptors have
the same text when what is kept of them is the same. Every text that is read comes from a
descriptor that has a text: flags, types and revisions are those that texts keep, and only an
object that a text gives to an entry of a type without objects is lost (`sddlDecode_ok`).
-/

namespace Admc

open LetterCodes (codesOf union)

/-! ## The text of what is kept -/

section
variable {state : SddlTransitionState} {ace : SecurityAce} {aces : List SecurityAce}
  {acl : SecurityAcl} {sd sd' : SecurityDescriptor}

/-- The type that letters are read as has the same letters. -/
theorem sddlFlagsToString_expressedType {code : BitVec 32} (h : code < 9) :
    sddlFlagsToString aceTypes (.ofNat 32 (expressedType code).code) true =
      sddlFlagsToString aceTypes code true := by
  have hall : ∀ n < 9, sddlFlagsToString aceTypes
      (.ofNat 32 (expressedType (.ofNat 32 n)).code) true =
        sddlFlagsToString aceTypes (.ofNat 32 n) true := by decide +kernel
  have hcode := hall code.toNat h
  rwa [BitVec.ofNat_toNat, BitVec.setWidth_eq] at hcode

/-- The types with objects are read as themselves. -/
theorem expressedType_of_writesObject (h : writesObject ace.type = true) :
    expressedType ace.typeCode = ace.type := by
  rw [SecurityAce.typeCode]
  cases htype : ace.type
  case accessAllowedObject => rfl
  case accessDeniedObject => rfl
  case systemAuditObject => rfl
  case systemAlarmObject => rfl
  all_goals
    rw [htype] at h
    exact absurd h (by simp [writesObject])

/-- The flags of the objects that a text keeps are those of the objects that are written. -/
theorem expressed_objectFlags (ace : SecurityAce) :
    (ace.expressed.object.flags &&& secAceObjectTypePresent ≠ 0 ↔
        writesObject ace.type = true ∧ ace.object.flags &&& secAceObjectTypePresent ≠ 0) ∧
      (ace.expressed.object.flags &&& secAceInheritedObjectTypePresent ≠ 0 ↔
        writesObject ace.type = true ∧
          ace.object.flags &&& secAceInheritedObjectTypePresent ≠ 0) := by
  simp only [SecurityAce.expressed, SecurityAce.expressedObject]
  split_ifs with hobject hinherited hinherited
  all_goals dsimp only
  · exact ⟨iff_of_true (by decide) hobject, iff_of_true (by decide) hinherited⟩
  · exact ⟨iff_of_true (by decide) hobject, iff_of_false (by decide) hinherited⟩
  · exact ⟨iff_of_false (by decide) hobject, iff_of_true (by decide) hinherited⟩
  · exact ⟨iff_of_false (by decide) hobject, iff_of_false (by decide) hinherited⟩

/-- The objects that a text keeps are those that it has. -/
theorem sddlObject_expressed (ace : SecurityAce) {present : BitVec 32} (guid guid' : Guid)
    (hflags : ace.expressed.object.flags &&& present ≠ 0 ↔
      writesObject ace.type = true ∧ ace.object.flags &&& present ≠ 0)
    (hguid : writesObject ace.type = true ∧ ace.object.flags &&& present ≠ 0 → guid' = guid) :
    sddlObject ace.expressed present guid' = sddlObject ace present guid := by
  rw [sddlObject, sddlObject]
  by_cases h : writesObject ace.type = true ∧ ace.object.flags &&& present ≠ 0
  · have htype : writesObject ace.expressed.type = true := by
      rw [SecurityAce.expressed, expressedType_of_writesObject h.1]
      exact h.1
    rw [if_pos h, if_pos ⟨htype, hflags.2 h⟩, hguid h]
  · rw [if_neg h, if_neg fun h' => h (hflags.1 h'.2)]

theorem sddlTransitionEncodeAce_expressed (h : ace.Readable) :
    sddlTransitionEncodeAce state ace.expressed = sddlTransitionEncodeAce state ace := by
  obtain ⟨hobjectFlags, hinheritedFlags⟩ := expressed_objectFlags ace
  have htype : sddlFlagsToString aceTypes (.ofNat 32 ace.expressed.type.code) true =
      sddlFlagsToString aceTypes (.ofNat 32 ace.type.code) true :=
    sddlFlagsToString_expressedType h
  have hobject := sddlObject_expressed ace ace.object.type ace.expressed.object.type
    hobjectFlags fun h => by
      rw [SecurityAce.expressed, SecurityAce.expressedObject, if_pos h]
  have hinherited := sddlObject_expressed ace ace.object.inheritedType
    ace.expressed.object.inheritedType hinheritedFlags fun h => by
      simp only [SecurityAce.expressed]
      rw [SecurityAce.expressedObject, if_pos h]
  rw [sddlTransitionEncodeAce, sddlTransitionEncodeAce, hobject, hinherited, htype]
  rfl

theorem mapM_expressed (h : ∀ ace ∈ aces, ace.Readable) :
    (aces.map SecurityAce.expressed).mapM (sddlTransitionEncodeAce state) =
      aces.mapM (sddlTransitionEncodeAce state) := by
  induction aces with
  | nil => rfl
  | cons ace aces ih =>
    obtain ⟨hace, haces⟩ := List.forall_mem_cons.1 h
    rw [List.map_cons, List.mapM_cons, List.mapM_cons, ih haces,
      sddlTransitionEncodeAce_expressed hace]

/-- The text of a list depends on the flags that have letters, and on what texts of entries keep. -/
theorem sddlEncodeAcl_expressed {flags flags' : BitVec 32} (h : ∀ ace ∈ acl.aces, ace.Readable)
    (hflags : flags &&& 0x1500 = flags' &&& 0x1500) :
    sddlEncodeAcl state acl.expressed flags = sddlEncodeAcl state acl flags' := by
  have hnever : ∀ flags : BitVec 32, ¬(false = true ∧ flags &&& ~~~union aclFlags ≠ 0) :=
    fun flags h => absurd h.1 Bool.false_ne_true
  have hunion : union aclFlags = 0x1500 := by decide
  have hcodes : codesOf aclFlags flags = codesOf aclFlags flags' :=
    LetterCodes.codesOf_congr (by rw [hunion, hflags])
  rw [sddlEncodeAcl, sddlEncodeAcl, sddlFlagsToString_eq aclFlags_plain, if_neg (hnever flags),
    sddlFlagsToString_eq aclFlags_plain, if_neg (hnever flags'), hcodes, SecurityAcl.expressed,
    mapM_expressed h]

/-- The bits of the flags of a descriptor that is kept, one part at a time. -/
theorem expressedFlags_and (dacl sacl : Option SecurityAcl) (daclFlags saclFlags : BitVec 16) :
    let kept := secDescSelfRelative |||
      expressedFlags dacl (daclFlags &&& 0x1500) secDescDaclPresent |||
      expressedFlags sacl (saclFlags &&& 0x2A00) secDescSaclPresent
    (kept &&& secDescDaclPresent = if dacl = none then 0 else secDescDaclPresent) ∧
      (kept &&& secDescSaclPresent = if sacl = none then 0 else secDescSaclPresent) ∧
      (dacl ≠ none → kept &&& 0x1500 = daclFlags &&& 0x1500) ∧
      (sacl ≠ none → kept &&& 0x2A00 = saclFlags &&& 0x2A00) := by
  simp only [expressedFlags, secDescSelfRelative, secDescDaclPresent, secDescSaclPresent]
  split_ifs with hdacl hsacl hsacl
  all_goals refine ⟨?_, ?_, fun h => ?_, fun h => ?_⟩
  all_goals first
    | exact absurd hdacl h
    | exact absurd hsacl h
    | refine BitVec.eq_of_getLsbD_eq fun i hi => ?_
      interval_cases i <;> simp

theorem shownDacl_expressed (sd : SecurityDescriptor) :
    sd.expressed.shownDacl = sd.shownDacl.map SecurityAcl.expressed := by
  have hbits := (expressedFlags_and sd.shownDacl sd.shownSacl sd.type sd.type).1
  rw [SecurityDescriptor.shownDacl, show sd.expressed.type &&& secDescDaclPresent = _ from hbits]
  cases h : sd.shownDacl with
  | none => simp
  | some acl => simp [SecurityDescriptor.expressed, h, secDescDaclPresent]

theorem shownSacl_expressed (sd : SecurityDescriptor) :
    sd.expressed.shownSacl = sd.shownSacl.map SecurityAcl.expressed := by
  have hbits := (expressedFlags_and sd.shownDacl sd.shownSacl sd.type sd.type).2.1
  rw [SecurityDescriptor.shownSacl, show sd.expressed.type &&& secDescSaclPresent = _ from hbits]
  cases h : sd.shownSacl with
  | none => simp
  | some acl => simp [SecurityDescriptor.expressed, h, secDescSaclPresent]

/-- The part of a list that is kept has the same text. -/
theorem sddlPart_expressed {marker : Char} {list : Option SecurityAcl} {flags flags' : BitVec 32}
    (h : ∀ ace ∈ acesOf list, ace.Readable)
    (hflags : list ≠ none → flags &&& 0x1500 = flags' &&& 0x1500) :
    sddlPart marker (fun acl => sddlEncodeAcl state acl flags) (list.map SecurityAcl.expressed) =
      sddlPart marker (fun acl => sddlEncodeAcl state acl flags') list := by
  cases list with
  | none => rfl
  | some acl =>
    rw [acesOf_some] at h
    rw [Option.map_some, sddlPart, sddlPart,
      sddlEncodeAcl_expressed h (hflags (Option.some_ne_none acl))]

/-- What the text of a descriptor keeps of it has the same text. -/
theorem sddlEncode_expressed (domainSid : DomSid) (h : ∀ ace ∈ sd.shownAces, ace.Readable) :
    sddlEncode sd.expressed domainSid = sddlEncode sd domainSid := by
  rw [shownAces_eq] at h
  obtain ⟨hdacl, hsacl⟩ := List.forall_mem_append.1 h
  have hbits := expressedFlags_and sd.shownDacl sd.shownSacl sd.type sd.type
  have hdaclFlags : sd.shownDacl ≠ none → sd.expressed.type.setWidth 32 &&& 0x1500 =
      sd.type.setWidth 32 &&& 0x1500 := by
    intro hne
    have hkept : sd.expressed.type &&& 0x1500 = sd.type &&& 0x1500 := hbits.2.2.1 hne
    have hwidth := congrArg (BitVec.setWidth 32) hkept
    rwa [BitVec.setWidth_and, BitVec.setWidth_and] at hwidth
  have hsaclFlags : sd.shownSacl ≠ none → (sd.expressed.type >>> 1).setWidth 32 &&& 0x1500 =
      (sd.type >>> 1).setWidth 32 &&& 0x1500 := by
    intro hne
    have hkept : sd.expressed.type &&& 0x2A00 = sd.type &&& 0x2A00 := hbits.2.2.2 hne
    have hwidth := congrArg (fun type : BitVec 16 => (type >>> 1).setWidth 32) hkept
    rwa [BitVec.ushiftRight_and_distrib, BitVec.ushiftRight_and_distrib, BitVec.setWidth_and,
      BitVec.setWidth_and] at hwidth
  rw [sddlEncode_eq, sddlEncode_eq, shownDacl_expressed, shownSacl_expressed,
    sddlPart_expressed hdacl hdaclFlags, sddlPart_expressed hsacl hsaclFlags]
  rfl

/-- Descriptors that have texts that are read have the same text when what is kept of them is the
    same. -/
theorem sddlEncode_eq_iff (domainSid : DomSid)
    (h : ∀ ace ∈ sd.shownAces, ace.HasText ∧ ace.Readable)
    (h' : ∀ ace ∈ sd'.shownAces, ace.HasText ∧ ace.Readable) :
    sddlEncode sd domainSid = sddlEncode sd' domainSid ↔ sd.expressed = sd'.expressed := by
  constructor
  · intro heq
    obtain ⟨text, htext, hread⟩ :=
      sddlDecode_encode_of_hasText domainSid fun ace hace => (h ace hace).1
    obtain ⟨text', htext', hread'⟩ :=
      sddlDecode_encode_of_hasText domainSid fun ace hace => (h' ace hace).1
    have hsame : text = text' := Option.some.inj (htext.symm.trans (heq.trans htext'))
    rw [readWhen, if_pos fun ace hace => (h ace hace).2] at hread
    rw [readWhen, if_pos fun ace hace => (h' ace hace).2, ← hsame] at hread'
    exact Except.ok.inj (hread.symm.trans hread')
  · intro heq
    rw [← sddlEncode_expressed domainSid fun ace hace => (h ace hace).2, heq,
      sddlEncode_expressed domainSid fun ace hace => (h' ace hace).2]

/-- The letters of a compound entry are those of an allowed object. -/
theorem sddlEncode_eq_iff_compound :
    sddlEncode (.ofAces [{ zeroAce with type := .allowedCompound }]) sidWorld =
      sddlEncode (.ofAces [{ zeroAce with type := .accessAllowedObject }]) sidWorld :=
  (sddlEncode_eq_iff sidWorld (by decide) (by decide)).2 (by decide)

end

/-! ## Texts that are read -/

/-- The entry without an object, if its type has none. -/
def SecurityAce.dropForeignObject (ace : SecurityAce) : SecurityAce :=
  if writesObject ace.type = true then ace else { ace with object := ⟨0, ⟨0⟩, ⟨0⟩⟩ }

/-- The descriptor without the objects of entries of types that have none. -/
def SecurityDescriptor.dropForeignObjects (sd : SecurityDescriptor) : SecurityDescriptor :=
  { sd with
    dacl := sd.dacl.map fun acl => { acl with aces := acl.aces.map SecurityAce.dropForeignObject }
    sacl := sd.sacl.map fun acl => { acl with aces := acl.aces.map SecurityAce.dropForeignObject } }

/-- An entry that is read: a text keeps all of it but an object that its type does not have. -/
structure SecurityAce.IsRead (ace : SecurityAce) : Prop where
  hasText : ace.HasText
  readable : ace.Readable
  expressed : ace.expressed = ace.dropForeignObject

/-- A list that is read. -/
structure SecurityAcl.IsRead (acl : SecurityAcl) : Prop where
  revision : acl.revision = securityAclRevisionAds
  size : acl.size = 0
  aces : ∀ ace ∈ acl.aces, ace.IsRead

/-- A descriptor that is read: its flags are those of the lists that it has. -/
structure SecurityDescriptor.IsRead (sd : SecurityDescriptor) (daclFlags saclFlags : BitVec 16) :
    Prop where
  revision : sd.revision = securityDescriptorRevision1
  type : sd.type = secDescSelfRelative ||| expressedFlags sd.dacl (daclFlags &&& 0x1500)
    secDescDaclPresent ||| expressedFlags sd.sacl (saclFlags &&& 0x2A00) secDescSaclPresent
  dacl : ∀ acl ∈ sd.dacl, acl.IsRead
  sacl : ∀ acl ∈ sd.sacl, acl.IsRead

section
variable {state : SddlTransitionState} {ace : SecurityAce} {sd sd' : SecurityDescriptor}
  {text : QString}

theorem notNull_eq_ok {α : Type} {a : Option α} {b : α} : notNull a = .ok b ↔ a = some b := by
  cases a with
  | none => simp [notNull]
  | some a => simp [notNull]

theorem sddlDecodeObject_eq_some {tok : QString} {present flags : BitVec 32} {guid : Guid}
    (h : sddlDecodeObject tok present = some (flags, guid)) :
    (flags = 0 ∧ guid = ⟨0⟩) ∨ flags = present := by
  rw [sddlDecodeObject] at h
  split_ifs at h with hnil
  · obtain ⟨rfl, rfl⟩ : 0 = flags ∧ (⟨0⟩ : Guid) = guid := by simpa using h
    exact .inl ⟨rfl, rfl⟩
  · obtain ⟨guid', -, heq⟩ := Option.map_eq_some_iff.1 h
    exact .inr (Prod.mk.inj heq).1.symm

/-- An entry of these parts is read as itself. -/
theorem isRead_of_parts {code : LetterCodes.Code Char 32} (flags : AceFlags)
    (accessMask : AccessMask) (trustee : DomSid) {present inheritedPresent : BitVec 32}
    {guid inheritedGuid : Guid}
    (hcode : code ∈ aceTypes) (hflags : flags &&& 0x20 = 0)
    (hobject : (present = 0 ∧ guid = ⟨0⟩) ∨ present = secAceObjectTypePresent)
    (hinherited : (inheritedPresent = 0 ∧ inheritedGuid = ⟨0⟩) ∨
      inheritedPresent = secAceInheritedObjectTypePresent) :
    SecurityAce.IsRead { zeroAce with
      type := .ofCode code.flag.toNat
      flags := flags
      accessMask := accessMask
      object := ⟨present ||| inheritedPresent, guid, inheritedGuid⟩
      trustee := trustee } := by
  have hall : ∀ code ∈ aceTypes,
      BitVec.ofNat 32 (SecurityAceType.ofCode code.flag.toNat).code < 9 ∧
        expressedType (.ofNat 32 (SecurityAceType.ofCode code.flag.toNat).code) =
          .ofCode code.flag.toNat := by
    decide +kernel
  obtain ⟨hlt, hexpressed⟩ := hall code hcode
  refine ⟨⟨BitVec.lt_def.2 ((BitVec.lt_def.1 hlt).trans (by decide)), hflags⟩, hlt, ?_⟩
  by_cases hwrites : writesObject (SecurityAceType.ofCode code.flag.toNat) = true
  · rcases hobject with ⟨rfl, rfl⟩ | rfl
    · rcases hinherited with ⟨rfl, rfl⟩ | rfl
      · simp [SecurityAce.expressed, SecurityAce.expressedObject, SecurityAce.dropForeignObject,
          SecurityAce.typeCode, hwrites, hexpressed]
      · simp [SecurityAce.expressed, SecurityAce.expressedObject, SecurityAce.dropForeignObject,
          SecurityAce.typeCode, hwrites, hexpressed, secAceObjectTypePresent,
          secAceInheritedObjectTypePresent]
    · rcases hinherited with ⟨rfl, rfl⟩ | rfl
      · simp [SecurityAce.expressed, SecurityAce.expressedObject, SecurityAce.dropForeignObject,
          SecurityAce.typeCode, hwrites, hexpressed, secAceObjectTypePresent,
          secAceInheritedObjectTypePresent]
      · simp [SecurityAce.expressed, SecurityAce.expressedObject, SecurityAce.dropForeignObject,
          SecurityAce.typeCode, hwrites, hexpressed, secAceObjectTypePresent,
          secAceInheritedObjectTypePresent]
  · simp [SecurityAce.expressed, SecurityAce.expressedObject, SecurityAce.dropForeignObject,
      SecurityAce.typeCode, hwrites, hexpressed]

theorem sddlMapFlags_and {map : FlagMap} {str rest : QString} {unknown : Bool} {flags : BitVec 32}
    (h : sddlMapFlags map str unknown = some (flags, rest)) : flags &&& ~~~union map = 0 := by
  have hand := @LetterCodes.read_fst_and _ _ map 0 str _ isUpperLetter str.length
  rw [sddlMapFlags] at h
  dsimp only at h
  split_ifs at h
  obtain ⟨rfl, -⟩ := Prod.mk.inj (Option.some.inj h)
  exact hand.trans BitVec.zero_and

theorem sddlDecodeAce_ok (h : sddlDecodeAce state text = .ok ace) : ace.IsRead := by
  rw [sddlDecodeAce] at h
  obtain ⟨⟨tok0, str⟩, -, h⟩ := Except.bind_eq_ok.1 h
  obtain ⟨⟨tok1, str⟩, -, h⟩ := Except.bind_eq_ok.1 h
  obtain ⟨⟨tok2, str⟩, -, h⟩ := Except.bind_eq_ok.1 h
  obtain ⟨⟨tok3, str⟩, -, h⟩ := Except.bind_eq_ok.1 h
  obtain ⟨⟨tok4, tok5⟩, -, h⟩ := Except.bind_eq_ok.1 h
  obtain ⟨⟨type, garbage⟩, htype, h⟩ := Except.bind_eq_ok.1 h
  dsimp only at htype h
  split_ifs at h
  obtain ⟨⟨flags, rest⟩, hflags, h⟩ := Except.bind_eq_ok.1 h
  obtain ⟨accessMask, -, h⟩ := Except.bind_eq_ok.1 h
  obtain ⟨⟨present, guid⟩, hobject, h⟩ := Except.bind_eq_ok.1 h
  obtain ⟨⟨inheritedPresent, inheritedGuid⟩, hinherited, h⟩ := Except.bind_eq_ok.1 h
  obtain ⟨⟨trustee, s⟩, -, h⟩ := Except.bind_eq_ok.1 h
  dsimp only at hflags h
  split_ifs at h
  obtain ⟨code, hfound, hcode⟩ := Option.map_eq_some_iff.1 (notNull_eq_ok.1 htype)
  obtain ⟨rfl, -⟩ := Prod.mk.inj hcode
  obtain rfl := Except.pure_eq_ok.1 h
  refine isRead_of_parts (flags.setWidth 8) accessMask trustee (List.mem_of_find?_eq_some hfound) ?_
    (sddlDecodeObject_eq_some (notNull_eq_ok.1 hobject))
    (sddlDecodeObject_eq_some (notNull_eq_ok.1 hinherited))
  -- the bit without a letter is in no flag that is read
  have hand := congrArg (BitVec.setWidth 8) (sddlMapFlags_and (notNull_eq_ok.1 hflags))
  rwa [BitVec.setWidth_and] at hand

theorem sddlDecodeAces_ok {fuel : ℕ} {aces : List SecurityAce} {rest : QString}
    (h : sddlDecodeAces state fuel text = .ok (aces, rest)) : ∀ ace ∈ aces, ace.IsRead := by
  induction fuel generalizing text aces rest with
  | zero =>
    obtain ⟨rfl, -⟩ := Prod.mk.inj (Except.ok.inj h)
    exact fun ace hace => absurd hace List.not_mem_nil
  | succ fuel ih =>
    rw [sddlDecodeAces] at h
    split at h
    · obtain ⟨rfl, -⟩ := Prod.mk.inj (Except.ok.inj h)
      exact fun ace hace => absurd hace List.not_mem_nil
    · split at h
      · exact absurd h (by simp)
      · obtain ⟨ace, hace, h⟩ := Except.bind_eq_ok.1 h
        obtain ⟨⟨aces', rest'⟩, haces, h⟩ := Except.bind_eq_ok.1 h
        obtain ⟨rfl, -⟩ := Prod.mk.inj (Except.pure_eq_ok.1 h)
        exact List.forall_mem_cons.2 ⟨sddlDecodeAce_ok hace, ih haces⟩

theorem sddlDecodeAcl_ok {acl : SecurityAcl} {flags : BitVec 32} {rest : QString}
    (h : sddlDecodeAcl state text = .ok (acl, flags, rest)) :
    acl.IsRead ∧ flags &&& ~~~union aclFlags = 0 := by
  rw [sddlDecodeAcl] at h
  split_ifs at h
  · obtain ⟨rfl, rfl, -⟩ : (⟨securityAclRevisionAds, 0, []⟩ : SecurityAcl) = acl ∧ 0 = flags ∧
        text = rest := by simpa using h
    exact ⟨⟨rfl, rfl, fun ace hace => absurd hace List.not_mem_nil⟩, BitVec.zero_and⟩
  · obtain ⟨⟨flags', rest'⟩, hflags, h⟩ := Except.bind_eq_ok.1 h
    obtain ⟨⟨aces, rest''⟩, haces, h⟩ := Except.bind_eq_ok.1 h
    obtain ⟨rfl, rfl, -⟩ : (⟨securityAclRevisionAds, 0, aces⟩ : SecurityAcl) = acl ∧
        flags' = flags ∧ rest'' = rest := by simpa using Except.pure_eq_ok.1 h
    exact ⟨⟨rfl, rfl, sddlDecodeAces_ok haces⟩, sddlMapFlags_and (notNull_eq_ok.1 hflags)⟩

/-- What a turn of the loop sets is read. -/
theorem SecurityDescriptor.IsRead.setDacl {daclFlags saclFlags : BitVec 16} {acl : SecurityAcl}
    {flags : BitVec 32} (h : sd.IsRead daclFlags saclFlags) (hsd : sd.dacl = none)
    (hacl : acl.IsRead) (hflags : flags &&& ~~~union aclFlags = 0) :
    (sd.setDacl (some acl) flags).IsRead (flags.setWidth 16) saclFlags := by
  have hkept : flags.setWidth 16 &&& 0x1500 = flags.setWidth 16 := by
    have hand := congrArg (BitVec.setWidth 16) (LetterCodes.and_union hflags)
    rwa [BitVec.setWidth_and] at hand
  have hor : secDescSelfRelative ||| 0 = secDescSelfRelative := BitVec.or_zero
  have htype := h.type
  rw [hsd, expressedFlags, if_pos rfl, hor] at htype
  refine ⟨h.revision, ?_, fun acl' hacl' => Option.some.inj hacl' ▸ hacl, h.sacl⟩
  rw [SecurityDescriptor.setDacl, hkept, htype, BitVec.or_assoc, BitVec.or_assoc]
  exact congrArg (secDescSelfRelative ||| ·) (BitVec.or_comm _ _)

theorem SecurityDescriptor.IsRead.setSacl {daclFlags saclFlags : BitVec 16} {acl : SecurityAcl}
    {flags : BitVec 32} (h : sd.IsRead daclFlags saclFlags) (hsd : sd.sacl = none)
    (hacl : acl.IsRead) (hflags : flags &&& ~~~union aclFlags = 0) :
    (sd.setSacl (some acl) flags).IsRead daclFlags ((flags <<< 1).setWidth 16) := by
  have hkept : (flags <<< 1).setWidth 16 &&& (0x2A00 : BitVec 16) = (flags <<< 1).setWidth 16 := by
    have hand := congrArg (fun flags : BitVec 32 => (flags <<< 1).setWidth 16)
      (LetterCodes.and_union hflags)
    rwa [BitVec.shiftLeft_and_distrib, BitVec.setWidth_and] at hand
  have hnone : expressedFlags none (saclFlags &&& 0x2A00) secDescSaclPresent = 0 := if_pos rfl
  have hor : ∀ type : BitVec 16, type ||| 0 = type := fun _ => BitVec.or_zero
  have htype := h.type
  rw [hsd, hnone, hor] at htype
  refine ⟨h.revision, ?_, h.dacl, fun acl' hacl' => Option.some.inj hacl' ▸ hacl⟩
  rw [SecurityDescriptor.setSacl, hkept, htype]

/-- The run of the loop: whatever is read is read. -/
theorem sddlDecodeParts_ok {fuel : ℕ} {daclFlags saclFlags : BitVec 16}
    (h : sddlDecodeParts state fuel sd text = .ok sd') (hsd : sd.IsRead daclFlags saclFlags) :
    ∃ daclFlags' saclFlags', sd'.IsRead daclFlags' saclFlags' := by
  induction fuel generalizing sd text daclFlags saclFlags with
  | zero =>
    cases text with
    | nil => exact ⟨daclFlags, saclFlags, Except.ok.inj h ▸ hsd⟩
    | cons c text => exact absurd h (by simp [sddlDecodeParts])
  | succ fuel ih =>
    cases text with
    | nil => exact ⟨daclFlags, saclFlags, Except.ok.inj h ▸ hsd⟩
    | cons c text =>
      obtain ⟨rest, rfl⟩ : ∃ rest, text = ':' :: rest := by
        obtain ⟨rest, hrest, -⟩ := Except.bind_eq_ok.1 h
        cases text with
        | nil => exact absurd hrest (by simp [afterChar, notNull])
        | cons colon text =>
          rw [notNull_eq_ok, afterChar] at hrest
          split_ifs at hrest with hcolon
          exact ⟨text, hcolon ▸ rfl⟩
      rw [sddlDecodeParts_marker] at h
      split_ifs at h with hD hdacl hS hsacl hO howner hG hgroup
      · obtain ⟨⟨acl, flags, rest'⟩, hacl, h⟩ := Except.bind_eq_ok.1 h
        obtain ⟨hread, hflags⟩ := sddlDecodeAcl_ok hacl
        exact ih h (hsd.setDacl (not_not.1 hdacl) hread hflags)
      · obtain ⟨⟨acl, flags, rest'⟩, hacl, h⟩ := Except.bind_eq_ok.1 h
        obtain ⟨hread, hflags⟩ := sddlDecodeAcl_ok hacl
        exact ih h (hsd.setSacl (not_not.1 hsacl) hread hflags)
      · obtain ⟨⟨sid, rest'⟩, -, h⟩ := Except.bind_eq_ok.1 h
        exact ih h ⟨hsd.revision, hsd.type, hsd.dacl, hsd.sacl⟩
      · obtain ⟨⟨sid, rest'⟩, -, h⟩ := Except.bind_eq_ok.1 h
        exact ih h ⟨hsd.revision, hsd.type, hsd.dacl, hsd.sacl⟩

/-- A descriptor that is read has its lists shown, and a text keeps all of it but the objects of
    entries of types that have none. -/
theorem SecurityDescriptor.IsRead.expressed {daclFlags saclFlags : BitVec 16}
    (h : sd.IsRead daclFlags saclFlags) :
    (∀ ace ∈ sd.shownAces, ace.IsRead) ∧ sd.expressed = sd.dropForeignObjects := by
  have hbits := expressedFlags_and sd.dacl sd.sacl daclFlags saclFlags
  dsimp only at hbits
  rw [← h.type] at hbits
  obtain ⟨hdaclBit, hsaclBit, hdaclFlags, hsaclFlags⟩ := hbits
  have hdacl : sd.shownDacl = sd.dacl := by
    rw [SecurityDescriptor.shownDacl, hdaclBit]
    cases sd.dacl with
    | none => simp
    | some acl => simp [secDescDaclPresent]
  have hsacl : sd.shownSacl = sd.sacl := by
    rw [SecurityDescriptor.shownSacl, hsaclBit]
    cases sd.sacl with
    | none => simp
    | some acl => simp [secDescSaclPresent]
  have hall : ∀ {list : Option SecurityAcl}, (∀ acl ∈ list, acl.IsRead) →
      (∀ ace ∈ acesOf list, ace.IsRead) ∧ list.map SecurityAcl.expressed =
        list.map fun acl => { acl with aces := acl.aces.map SecurityAce.dropForeignObject } := by
    intro list hlist
    cases list with
    | none => exact ⟨fun ace hace => absurd hace List.not_mem_nil, rfl⟩
    | some acl =>
      have hacl := hlist acl rfl
      have haces : acl.aces.map SecurityAce.expressed =
          acl.aces.map SecurityAce.dropForeignObject :=
        List.map_congr_left fun ace hace => (hacl.aces ace hace).expressed
      refine ⟨acesOf_some acl ▸ hacl.aces, congrArg some ?_⟩
      rw [SecurityAcl.expressed, haces, ← hacl.revision, ← hacl.size]
  obtain ⟨hdaclRead, hdaclMap⟩ := hall h.dacl
  obtain ⟨hsaclRead, hsaclMap⟩ := hall h.sacl
  have hflags : ∀ {list : Option SecurityAcl} {flags flags' : BitVec 16} (present : BitVec 16),
      (list ≠ none → flags = flags') →
        expressedFlags list flags present = expressedFlags list flags' present := by
    intro list flags flags' present heq
    cases list with
    | none => rfl
    | some acl => rw [heq (Option.some_ne_none acl)]
  refine ⟨?_, ?_⟩
  · rw [shownAces_eq, hdacl, hsacl]
    exact List.forall_mem_append.2 ⟨hdaclRead, hsaclRead⟩
  · rw [SecurityDescriptor.expressed, hdacl, hsacl, hflags secDescDaclPresent hdaclFlags,
      hflags secDescSaclPresent hsaclFlags, ← h.type, ← h.revision, hdaclMap, hsaclMap]
    rfl

/-- Whatever text is read, the descriptor that is read has a text of its own, of which it is read
    again, without the objects of entries of types that have none. -/
theorem sddlDecode_ok {domainSid : DomSid} (h : sddlDecode text domainSid = .ok sd) :
    ∃ text', sddlEncode sd domainSid = some text' ∧
      sddlDecode text' domainSid = .ok sd.dropForeignObjects ∧
      sddlEncode sd.dropForeignObjects domainSid = some text' := by
  have hor : secDescSelfRelative ||| 0 ||| 0 = secDescSelfRelative := by decide
  have hempty : SecurityDescriptor.IsRead
      ⟨securityDescriptorRevision1, secDescSelfRelative, none, none, none, none⟩ 0 0 :=
    ⟨rfl, hor.symm, by simp, by simp⟩
  obtain ⟨daclFlags, saclFlags, hread⟩ := sddlDecodeParts_ok h hempty
  obtain ⟨haces, hexpressed⟩ := hread.expressed
  obtain ⟨text', htext', hdecode⟩ :=
    sddlDecode_encode_of_hasText domainSid fun ace hace => (haces ace hace).hasText
  rw [readWhen, if_pos fun ace hace => (haces ace hace).readable, hexpressed] at hdecode
  have hencode := sddlEncode_expressed domainSid fun ace hace => (haces ace hace).readable
  exact ⟨text', htext', hdecode, hexpressed ▸ hencode.trans htext'⟩

/-- The object of an entry that is simply allowed is read and lost. -/
theorem sddlDecode_ok_object : ∃ sd text',
    sddlDecode "D:(A;;;bf967a86-0de6-11d0-a285-00aa003049e2;;WD)".toList sidWorld = .ok sd ∧
      sddlEncode sd sidWorld = some text' ∧
      sddlDecode text' sidWorld = .ok sd.dropForeignObjects := by
  have hread : ∃ sd, sddlDecode "D:(A;;;bf967a86-0de6-11d0-a285-00aa003049e2;;WD)".toList sidWorld =
      .ok sd := ⟨_, rfl⟩
  obtain ⟨sd, hsd⟩ := hread
  obtain ⟨text', htext', hdecode, -⟩ := sddlDecode_ok hsd
  exact ⟨sd, text', hsd, htext', hdecode⟩

end

end Admc
