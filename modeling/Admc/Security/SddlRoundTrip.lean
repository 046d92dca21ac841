import Admc.Security.SddlTokens

/-!
# Texts of descriptors read back

What a text of letters keeps of a descriptor, and how it is read back. The text of an entry keeps
its type, flags, mask, objects and trustee (`SecurityAce.expressed`); the text of a descriptor keeps
its owner, its group, and of each list that is marked as present the entries and the flags
(`SecurityDescriptor.expressed`). The letters of compound entries are those of allowed objects, and
the types that come after the objects have letters that are not read.

* `sddlDecode_sddlEncode`: which descriptors have a text, and what is read of it;
* `sddlEncode_eq_iff`: descriptors have the same text when what is kept of them is the same.
-/

namespace Admc

open LetterCodes (codesOf union)

/-! ## What a text keeps -/

/-- The code of a type, as the tables have it. -/
def SecurityAce.typeCode (ace : SecurityAce) : BitVec 32 := .ofNat 32 ace.type.code

/-- The type that is read of the letters of a type. -/
def expressedType (code : BitVec 32) : SecurityAceType :=
  .ofCode (if code = 4 then 5 else code).toNat

/-- What the text of an entry keeps of an object, with the flag that tells that it is there. -/
def SecurityAce.expressedObject (ace : SecurityAce) (present : BitVec 32) (guid : Guid) :
    BitVec 32 × Guid :=
  if writesObject ace.type = true ∧ ace.object.flags &&& present ≠ 0 then (present, guid)
  else (0, ⟨0⟩)

/-- What the text of an entry keeps of it. -/
def SecurityAce.expressed (ace : SecurityAce) : SecurityAce :=
  let object := ace.expressedObject secAceObjectTypePresent ace.object.type
  let inherited := ace.expressedObject secAceInheritedObjectTypePresent ace.object.inheritedType
  { zeroAce with
    type := expressedType ace.typeCode
    flags := ace.flags
    accessMask := ace.accessMask
    object := ⟨object.1 ||| inherited.1, object.2, inherited.2⟩
    trustee := ace.trustee }

/-- What the text of a list keeps of it. -/
def SecurityAcl.expressed (acl : SecurityAcl) : SecurityAcl :=
  ⟨securityAclRevisionAds, 0, acl.aces.map SecurityAce.expressed⟩

/-- The DACL that is written. -/
def SecurityDescriptor.shownDacl (sd : SecurityDescriptor) : Option SecurityAcl :=
  if sd.type &&& secDescDaclPresent ≠ 0 then sd.dacl else none

/-- The SACL that is written. -/
def SecurityDescriptor.shownSacl (sd : SecurityDescriptor) : Option SecurityAcl :=
  if sd.type &&& secDescSaclPresent ≠ 0 then sd.sacl else none

/-- The flags of a list that is written, with the one that tells that it is there. -/
def expressedFlags (acl : Option SecurityAcl) (flags present : BitVec 16) : BitVec 16 :=
  if acl = none then 0 else flags ||| present

/-- What the text of a descriptor keeps of it. -/
def SecurityDescriptor.expressed (sd : SecurityDescriptor) : SecurityDescriptor where
  revision := securityDescriptorRevision1
  type := secDescSelfRelative |||
    expressedFlags sd.shownDacl (sd.type &&& 0x1500) secDescDaclPresent |||
    expressedFlags sd.shownSacl (sd.type &&& 0x2A00) secDescSaclPresent
  ownerSid := sd.ownerSid
  groupSid := sd.groupSid
  sacl := sd.shownSacl.map SecurityAcl.expressed
  dacl := sd.shownDacl.map SecurityAcl.expressed

/-- The entries that are written. -/
def SecurityDescriptor.shownAces (sd : SecurityDescriptor) : List SecurityAce :=
  (sd.shownDacl.toList ++ sd.shownSacl.toList).flatMap SecurityAcl.aces

/-- The entry has a text: its type is one of the first sixteen, and its flags all have letters. -/
def SecurityAce.HasText (ace : SecurityAce) : Prop := ace.typeCode < 16 ∧ ace.flags &&& 0x20 = 0

/-- The text of the entry is read: its type is not one of those after the objects. -/
def SecurityAce.Readable (ace : SecurityAce) : Prop := ace.typeCode < 9

instance SecurityAce.decidableHasText (ace : SecurityAce) : Decidable ace.HasText :=
  inferInstanceAs (Decidable (_ ∧ _))

instance SecurityAce.decidableReadable (ace : SecurityAce) : Decidable ace.Readable :=
  inferInstanceAs (Decidable (_ < _))

/-! ## Entries -/

section
variable {state : SddlTransitionState} {ace : SecurityAce} {text tok rest : QString}

/-- The type that the letters of a token are read as. -/
def readType (tok : QString) : Option (BitVec 32) :=
  (sddlMapFlag aceTypes tok).bind fun found => if found.2 = [] then some found.1 else none

/-- The letters of the types. -/
theorem sddlFlagsToString_type {code : BitVec 32} (h : code < 16) :
    ∃ tok, sddlFlagsToString aceTypes code true = some tok ∧ IsToken tok ∧
      readType tok = if code < 9 then some (if code = 4 then 5 else code) else none := by
  have hall : ∀ n < 16, ((sddlFlagsToString aceTypes (.ofNat 32 n) true).map fun tok =>
      (decide (IsToken tok), readType tok)) =
        some (true, if BitVec.ofNat 32 n < 9 then
          some (if BitVec.ofNat 32 n = 4 then 5 else BitVec.ofNat 32 n) else none) := by
    decide +kernel
  have hcode := hall code.toNat h
  rw [BitVec.ofNat_toNat, BitVec.setWidth_eq] at hcode
  obtain ⟨tok, htok, heq⟩ := Option.map_eq_some_iff.1 hcode
  obtain ⟨htoken, hread⟩ := Prod.mk.inj heq
  exact ⟨tok, htok, of_decide_eq_true htoken, hread⟩

theorem sddlFlagsToString_type_none {code : BitVec 32} (h : ¬code < 16) :
    sddlFlagsToString aceTypes code true = none := by
  have hlarge : 16 ≤ code.toNat := Nat.le_of_not_lt h
  have hunion : union aceTypes = 15 := by decide
  have hfew : ∀ code' ∈ aceTypes, code'.flag.toNat < 16 := by decide
  have hfound : aceTypes.find? (fun code' => code'.flag = code) = none := by
    refine List.find?_eq_none.2 fun code' hcode' => ?_
    have hlt := hfew code' hcode'
    simp only [decide_eq_true_eq]
    rintro rfl
    omega
  have hrest : (LetterCodes.write aceTypes code).2 ≠ 0 := by
    intro hzero
    have hand : code &&& ~~~union aceTypes = 0 := by
      rw [← LetterCodes.write_snd_and, hzero]
      exact BitVec.zero_and
    have hmask := LetterCodes.and_union hand
    rw [hunion] at hmask
    have hle : code.toNat ≤ 15 := by
      rw [← hmask, BitVec.toNat_and]
      exact Nat.and_le_right
    omega
  rw [sddlFlagsToString, hfound]
  exact if_pos ⟨rfl, hrest⟩

/-- The letters of the flags, which have none for one bit. -/
theorem sddlFlagsToString_flags (flags : AceFlags) :
    sddlFlagsToString aceFlags (flags.setWidth 32) true =
      if flags &&& 0x20 = 0 then
        some ((codesOf aceFlags (flags.setWidth 32)).flatMap LetterCodes.Code.name)
      else none := by
  have hbit : ∀ flags : BitVec 8, flags.setWidth 32 &&& ~~~union aceFlags = 0 ↔
      flags &&& 0x20 = 0 := by decide +kernel
  rw [sddlFlagsToString_eq aceFlags_plain]
  by_cases h : flags &&& 0x20 = 0
  · rw [if_pos h, if_neg fun hne => hne.2 ((hbit flags).2 h)]
  · rw [if_neg h, if_pos ⟨rfl, mt (hbit flags).1 h⟩]

theorem sddlMapFlags_flags {flags : AceFlags} (h : flags &&& 0x20 = 0) :
    sddlMapFlags aceFlags ((codesOf aceFlags (flags.setWidth 32)).flatMap LetterCodes.Code.name)
      false = some (flags.setWidth 32, []) := by
  have hbit : ∀ flags : BitVec 8, flags &&& 0x20 = 0 →
      flags.setWidth 32 &&& ~~~union aceFlags = 0 := by decide +kernel
  have hread := @sddlMapFlags_codes aceFlags (flags.setWidth 32) [] aceFlags_plain
    (fun c hc => absurd hc (Option.not_mem_none c)) false (.inl rfl)
  rwa [List.append_nil, LetterCodes.and_union (hbit flags h)] at hread

theorem nextToken_append (h : ';' ∉ tok) : nextToken (tok ++ ';' :: rest) = some (tok, rest) := by
  have hall : ∀ c ∈ tok, decide (c ≠ ';') = true := by
    intro c hc
    refine decide_eq_true ?_
    rintro rfl
    exact h hc
  rw [nextToken, List.dropWhile_append_of_pos hall, List.takeWhile_append_of_pos hall,
    List.dropWhile_cons_of_neg (by simp), List.takeWhile_cons_of_neg (by simp), List.append_nil]

theorem sddlDecodeObject_object (ace : SecurityAce) (present : BitVec 32) (guid : Guid) :
    sddlDecodeObject (sddlObject ace present guid) present =
      some (ace.expressedObject present guid) := by
  by_cases h : writesObject ace.type = true ∧ ace.object.flags &&& present ≠ 0
  · have hne : guidBufString guid ≠ [] := by
      intro hnil
      exact absurd (hnil ▸ length_guidBufString guid) (by decide)
    rw [sddlObject, if_pos h, sddlDecodeObject, if_neg hne, sddlDecodeGuid_string,
      SecurityAce.expressedObject, if_pos h]
    rfl
  · rw [sddlObject, if_neg h, SecurityAce.expressedObject, if_neg h]
    rfl

theorem isToken_object (ace : SecurityAce) (present : BitVec 32) (guid : Guid) :
    IsToken (sddlObject ace present guid) := by
  rw [sddlObject]
  split_ifs
  · exact isToken_guid guid
  · exact fun c hc => absurd hc List.not_mem_nil

theorem IsToken.not_mem (h : IsToken tok) : ';' ∉ tok := fun hmem => (h ';' hmem).1 rfl

/-- The text of an entry that has one is read as what it keeps of the entry, if its type is. -/
theorem sddlDecodeAce_encode (h : ace.HasText) :
    ∃ text, sddlTransitionEncodeAce state ace = some text ∧ ')' ∉ text ∧
      sddlDecodeAce state text =
        if ace.Readable then .ok ace.expressed else .error .badlyFormatted := by
  obtain ⟨hcode, hflags⟩ := h
  obtain ⟨tok, htype, htoken, hread⟩ := sddlFlagsToString_type hcode
  have hletters : ∀ code ∈ aceFlags, IsToken code.name := by decide
  have hflagsToken := @isToken_codes aceFlags (ace.flags.setWidth 32) hletters
  have hmaskToken := isToken_mask ace.accessMask
  have hobjectToken := isToken_object ace secAceObjectTypePresent ace.object.type
  have hinheritedToken :=
    isToken_object ace secAceInheritedObjectTypePresent ace.object.inheritedType
  have hsid := @sddlDecodeSid_encode state ace.trustee [] (.inl rfl)
  rw [List.append_nil] at hsid
  have hflagsText := sddlFlagsToString_flags ace.flags
  rw [if_pos hflags] at hflagsText
  refine ⟨tok ++ ';' :: ((codesOf aceFlags (ace.flags.setWidth 32)).flatMap LetterCodes.Code.name ++
    ';' :: (sddlMask ace.accessMask ++ ';' ::
      (sddlObject ace secAceObjectTypePresent ace.object.type ++ ';' ::
        (sddlObject ace secAceInheritedObjectTypePresent ace.object.inheritedType ++ ';' ::
          sddlEncodeSid state ace.trustee)))), ?_, ?_, ?_⟩
  · rw [SecurityAce.typeCode] at htype
    rw [sddlTransitionEncodeAce, htype, hflagsText]
    simp [List.intercalate]
  · have hnot : ∀ tok, IsToken tok → ')' ∉ tok := fun tok htok hmem => (htok ')' hmem).2 rfl
    simp only [List.mem_append, List.mem_cons, not_or]
    exact ⟨hnot _ htoken, by decide, hnot _ hflagsToken, by decide, hnot _ hmaskToken, by decide,
      hnot _ hobjectToken, by decide, hnot _ hinheritedToken, by decide,
      hnot _ (isToken_sid state ace.trustee)⟩
  · simp only [sddlDecodeAce, nextToken_append htoken.not_mem, nextToken_append hflagsToken.not_mem,
      nextToken_append hmaskToken.not_mem, nextToken_append hobjectToken.not_mem,
      nextToken_append hinheritedToken.not_mem, sddlMapFlags_flags hflags, sddlDecodeAccess_mask,
      sddlDecodeObject_object, hsid, notNull, bind, Except.bind]
    rw [readType] at hread
    by_cases hreadable : ace.Readable
    · rw [if_pos (show ace.typeCode < 9 from hreadable)] at hread
      rw [if_pos hreadable]
      obtain ⟨⟨code, garbage⟩, hfound, hcode'⟩ := Option.bind_eq_some_iff.1 hread
      obtain ⟨rfl, rfl⟩ : garbage = [] ∧ code = if ace.typeCode = 4 then 5 else ace.typeCode := by
        simpa using hcode'
      have hwidth : (ace.flags.setWidth 32).setWidth 8 = ace.flags := by
        rw [BitVec.setWidth_setWidth_of_le _ (by decide), BitVec.setWidth_eq]
      simp only [hfound, hwidth]
      rfl
    · rw [if_neg (show ¬ace.typeCode < 9 from hreadable)] at hread
      rw [if_neg hreadable]
      cases hfound : sddlMapFlag aceTypes tok with
      | none => rfl
      | some found =>
        have hgarbage : found.2 ≠ [] := by
          intro hnil
          simp [hfound, hnil] at hread
        exact if_pos hgarbage

/-- An entry without a text. -/
theorem sddlTransitionEncodeAce_none (h : ¬ace.HasText) :
    sddlTransitionEncodeAce state ace = none := by
  rw [sddlTransitionEncodeAce, sddlFlagsToString_flags]
  by_cases hcode : ace.typeCode < 16
  · have hflags : ¬ace.flags &&& 0x20 = 0 := fun hflags => h ⟨hcode, hflags⟩
    rw [if_neg hflags]
    cases sddlFlagsToString aceTypes (.ofNat 32 ace.type.code) true with
    | none => rfl
    | some _ => rfl
  · rw [SecurityAce.typeCode] at hcode
    rw [sddlFlagsToString_type_none hcode]
    rfl

end

/-! ## Lists -/

/-- What is read of a text, or that it is not well formed. -/
def readWhen {α : Type} (readable : Prop) [Decidable readable] (a : α) : Except SddlError α :=
  if readable then .ok a else .error .badlyFormatted

section
variable {state : SddlTransitionState} {aces : List SecurityAce} {acl : SecurityAcl}
  {flags : BitVec 32} {rest : QString}

/-- The texts of entries, each between brackets. -/
def bracketed (texts : List QString) : QString := texts.flatMap fun text => '(' :: text ++ [')']

theorem bracketed_cons (text : QString) (texts : List QString) :
    bracketed (text :: texts) = '(' :: (text ++ ')' :: bracketed texts) := by simp [bracketed]

theorem length_le_bracketed (texts : List QString) :
    texts.length ≤ (bracketed texts).length := by
  induction texts with
  | nil => exact le_rfl
  | cons text texts ih =>
    simp only [bracketed_cons, List.length_cons, List.length_append]
    omega

theorem sddlDecodeAces_encode (h : ∀ ace ∈ aces, ace.HasText) (hrest : afterChar '(' rest = none) :
    ∃ texts, aces.mapM (sddlTransitionEncodeAce state) = some texts ∧
      texts.length = aces.length ∧ ∀ fuel, aces.length ≤ fuel →
        sddlDecodeAces state fuel (bracketed texts ++ rest) =
          readWhen (∀ ace ∈ aces, ace.Readable) (aces.map SecurityAce.expressed, rest) := by
  induction aces with
  | nil =>
    refine ⟨[], rfl, rfl, fun fuel _ => ?_⟩
    have hread : readWhen (∀ ace ∈ ([] : List SecurityAce), ace.Readable)
        (([] : List SecurityAce).map SecurityAce.expressed, rest) = .ok ([], rest) :=
      if_pos fun ace hace => absurd hace List.not_mem_nil
    rw [hread]
    cases fuel with
    | zero => rfl
    | succ fuel =>
      have hnil : bracketed [] ++ rest = rest := rfl
      rw [hnil, sddlDecodeAces, hrest]
  | cons ace aces ih =>
    obtain ⟨hace, haces⟩ := List.forall_mem_cons.1 h
    obtain ⟨texts, htexts, hlength, hread⟩ := ih haces
    obtain ⟨text, htext, hclose, hdecode⟩ := @sddlDecodeAce_encode state ace hace
    refine ⟨text :: texts, by rw [List.mapM_cons, htext, htexts]; rfl, by simp [hlength], ?_⟩
    intro fuel hfuel
    obtain _ | fuel := fuel
    · exact absurd hfuel (Nat.not_succ_le_zero _)
    · have hcons : bracketed (text :: texts) ++ rest =
          '(' :: (text ++ ')' :: (bracketed texts ++ rest)) := by simp [bracketed_cons]
      have hall : ∀ c ∈ text, decide (c ≠ ')') = true := by
        intro c hc
        refine decide_eq_true ?_
        rintro rfl
        exact hclose hc
      have hafter : afterChar '(' ('(' :: (text ++ ')' :: (bracketed texts ++ rest))) =
          some (text ++ ')' :: (bracketed texts ++ rest)) := by simp [afterChar]
      rw [hcons, sddlDecodeAces, hafter]
      dsimp only
      rw [List.dropWhile_append_of_pos hall, List.takeWhile_append_of_pos hall,
        List.dropWhile_cons_of_neg (by simp), List.takeWhile_cons_of_neg (by simp),
        List.append_nil, hdecode]
      dsimp only
      rw [hread fuel (Nat.le_of_succ_le_succ hfuel), readWhen, readWhen]
      by_cases hreadable : ace.Readable
      · by_cases hall : ∀ ace ∈ aces, ace.Readable
        · rw [if_pos hreadable, if_pos hall, if_pos (List.forall_mem_cons.2 ⟨hreadable, hall⟩)]
          rfl
        · rw [if_pos hreadable, if_neg hall, if_neg fun h => hall (List.forall_mem_cons.1 h).2]
          rfl
      · rw [if_neg hreadable, if_neg fun h => hreadable (List.forall_mem_cons.1 h).1]
        rfl

theorem mapM_encodeAce_none (h : ¬∀ ace ∈ aces, ace.HasText) :
    aces.mapM (sddlTransitionEncodeAce state) = none := by
  induction aces with
  | nil => exact absurd (fun ace hace => absurd hace List.not_mem_nil) h
  | cons ace aces ih =>
    rw [List.mapM_cons]
    by_cases hace : ace.HasText
    · rw [ih fun haces => h (List.forall_mem_cons.2 ⟨hace, haces⟩)]
      cases sddlTransitionEncodeAce state ace with
      | none => rfl
      | some _ => rfl
    · rw [sddlTransitionEncodeAce_none hace]
      rfl

/-- What a text of codes and entries starts with is no colon, whatever part comes after it. -/
theorem head_ne_colon (codes : FlagMap) (hcodes : ∀ code ∈ codes, code ∈ aclFlags)
    (texts : List QString) (hrest : EndsPart rest) :
    ∀ c ∈ (codes.flatMap LetterCodes.Code.name ++ (bracketed texts ++ rest)).head?, c ≠ ':' := by
  cases codes with
  | cons code codes =>
    have hhead : ∀ code ∈ aclFlags, ∀ rest c, c ∈ (code.name ++ rest).head? → c ≠ ':' := by
      simp [aclFlags, flagCode]
    have hcode := hhead code (hcodes code List.mem_cons_self)
    rw [List.flatMap_cons, List.append_assoc]
    exact hcode _
  | nil =>
    cases texts with
    | cons text texts => simp [bracketed]
    | nil =>
      rcases hrest with rfl | ⟨c, rest', rfl, hc⟩
      · simp [bracketed]
      · rcases hc with rfl | rfl | rfl
        · simp [bracketed]
        · simp [bracketed]
        · simp [bracketed]

/-- A list that is not empty does not look like a part that is. -/
theorem startsPart_eq_false {codes : FlagMap} (hcodes : ∀ code ∈ codes, code ∈ aclFlags)
    {texts : List QString} (hne : codes ≠ [] ∨ texts ≠ []) (hrest : EndsPart rest) :
    startsPart (codes.flatMap LetterCodes.Code.name ++ (bracketed texts ++ rest)) = false := by
  have hsecond : ∀ (c : Char) (text : QString), (∀ c ∈ text.head?, c ≠ ':') →
      startsPart (c :: text) = false := by
    intro c text htext
    cases text with
    | nil => rfl
    | cons c' text => simp [startsPart, htext c' rfl]
  cases codes with
  | cons code codes =>
    obtain ⟨hcode, hcodes⟩ := List.forall_mem_cons.1 hcodes
    have hnext := head_ne_colon codes hcodes texts hrest
    rw [List.flatMap_cons, List.append_assoc]
    simp only [aclFlags, flagCode, List.mem_cons, List.not_mem_nil, or_false] at hcode
    rcases hcode with rfl | rfl | rfl
    · exact hsecond 'P' _ hnext
    · exact hsecond 'A' ('R' :: _) (by simp)
    · exact hsecond 'A' ('I' :: _) (by simp)
  | nil =>
    obtain ⟨text, texts, rfl⟩ := List.exists_cons_of_ne_nil (hne.resolve_left (not_not.2 rfl))
    have hbracket : ∀ text : QString, startsPart ('(' :: text) = false := by
      intro text
      cases text with
      | nil => rfl
      | cons c text => simp [startsPart, isUpperLetter]
    simpa [bracketed] using hbracket _

/-- The text of a list is read as what it keeps of it, if all entries are, up to the next part. -/
theorem sddlDecodeAcl_encode (h : ∀ ace ∈ acl.aces, ace.HasText) (hrest : EndsPart rest) :
    ∃ text, sddlEncodeAcl state acl flags = some text ∧ sddlDecodeAcl state (text ++ rest) =
      readWhen (∀ ace ∈ acl.aces, ace.Readable) (acl.expressed, flags &&& 0x1500, rest) := by
  have hmarker : ∀ c ∈ rest.head?, isUpperLetter c = true → LetterCodes.lookup aclFlags rest = none
      := by
    intro c hc _
    rcases hrest with rfl | ⟨c', rest', rfl, hc'⟩
    · exact absurd hc (Option.not_mem_none c)
    · rcases hc' with rfl | rfl | rfl
      · simp [LetterCodes.lookup, aclFlags, flagCode]
      · simp [LetterCodes.lookup, aclFlags, flagCode]
      · simp [LetterCodes.lookup, aclFlags, flagCode]
  have hopen : afterChar '(' rest = none := by
    rcases hrest with rfl | ⟨c', rest', rfl, hc'⟩
    · rfl
    · rcases hc' with rfl | rfl | rfl
      · simp [afterChar]
      · simp [afterChar]
      · simp [afterChar]
  obtain ⟨texts, htexts, hlength, hread⟩ := @sddlDecodeAces_encode state acl.aces rest h hopen
  have hunion : union aclFlags = 0x1500 := by decide
  have hcodes : ∀ code ∈ codesOf aclFlags flags, code ∈ aclFlags := fun code hcode =>
    List.mem_of_mem_filter hcode
  refine ⟨(codesOf aclFlags flags).flatMap LetterCodes.Code.name ++ bracketed texts, ?_, ?_⟩
  · have hnever : ¬(false = true ∧ flags &&& ~~~union aclFlags ≠ 0) := fun h =>
      absurd h.1 Bool.false_ne_true
    rw [sddlEncodeAcl, sddlFlagsToString_eq aclFlags_plain, if_neg hnever, htexts]
    rfl
  · rw [List.append_assoc, sddlDecodeAcl]
    by_cases hempty : codesOf aclFlags flags = [] ∧ texts = []
    · obtain ⟨hcodesNil, rfl⟩ := hempty
      have haces : acl.aces = [] := List.length_eq_zero_iff.1 hlength.symm
      have hflags : flags &&& 0x1500 = 0 := by
        rw [← hunion, ← LetterCodes.union_codesOf aclFlags_plain.bits, hcodesNil]
        rfl
      have hall : ∀ ace ∈ acl.aces, ace.Readable := by simp [haces]
      have hexpressed : acl.expressed = ⟨securityAclRevisionAds, 0, []⟩ := by
        rw [SecurityAcl.expressed, haces]
        rfl
      rw [readWhen, if_pos hall, hexpressed, hflags, hcodesNil]
      rcases hrest with rfl | ⟨c, rest', rfl, hc⟩
      · rfl
      · rcases hc with rfl | rfl | rfl
        · rfl
        · rfl
        · rfl
    · have hne : codesOf aclFlags flags ≠ [] ∨ texts ≠ [] := not_and_or.1 hempty
      have hlookup : ∀ c ∈ (bracketed texts ++ rest).head?, isUpperLetter c = true →
          LetterCodes.lookup aclFlags (bracketed texts ++ rest) = none := by
        cases texts with
        | nil => exact hmarker
        | cons text texts =>
          intro c hc hupper
          obtain rfl : '(' = c := by simpa [bracketed] using hc
          exact absurd hupper (by decide)
      have hfuel : acl.aces.length ≤ (bracketed texts ++ rest).length := by
        rw [← hlength, List.length_append]
        exact Nat.le_add_right_of_le (length_le_bracketed texts)
      rw [startsPart_eq_false hcodes hne hrest, if_neg Bool.false_ne_true,
        sddlMapFlags_codes aclFlags_plain hlookup true (.inr rfl), hunion]
      dsimp only [notNull, bind, Except.bind]
      rw [hread _ hfuel, readWhen, readWhen]
      split_ifs
      · rfl
      · rfl

end

/-! ## Descriptors -/

section
variable {state : SddlTransitionState} {sd : SecurityDescriptor} {sid : Option DomSid}
  {acl : Option SecurityAcl} {flags : BitVec 32} {rest : QString}

/-- The text of a part that may not be there. -/
def IsPart (marker : Char) (text : QString) : Prop :=
  text = [] ∨ ∃ tail, text = marker :: ':' :: tail

theorem IsPart.endsPart {marker : Char} {text : QString} (h : IsPart marker text)
    (hmarker : marker = 'G' ∨ marker = 'D' ∨ marker = 'S') (hrest : EndsPart rest) :
    EndsPart (text ++ rest) := by
  rcases h with rfl | ⟨tail, rfl⟩
  · exact hrest
  · exact .inr ⟨marker, tail ++ rest, rfl, hmarker⟩

/-- The part of an identifier is read: a turn of the loop, if it is there, sets it. -/
theorem sddlDecodeParts_sid {marker : Char} (set : Option DomSid → SecurityDescriptor)
    (hnone : set none = sd)
    (hstep : ∀ fuel text, sddlDecodeParts state (fuel + 1) sd (marker :: ':' :: text) =
      (sddlDecodeSid state text).bind fun found =>
        sddlDecodeParts state fuel (set (some found.1)) found.2) (hrest : EndsPart rest) :
    ∃ text, sddlPart marker (fun sid => some (sddlEncodeSid state sid)) sid = some text ∧
      IsPart marker text ∧ ∀ fuel,
        sddlDecodeParts state (fuel + sid.toList.length) sd (text ++ rest) =
          sddlDecodeParts state fuel (set sid) rest := by
  cases sid with
  | none =>
    refine ⟨[], rfl, .inl rfl, fun fuel => ?_⟩
    rw [hnone]
    rfl
  | some sid =>
    refine ⟨marker :: ':' :: sddlEncodeSid state sid, rfl, .inr ⟨_, rfl⟩, fun fuel => ?_⟩
    have hsid : sddlDecodeSid state (sddlEncodeSid state sid ++ rest) = .ok (sid, rest) :=
      sddlDecodeSid_encode hrest
    have hturn := hstep fuel (sddlEncodeSid state sid ++ rest)
    rw [hsid] at hturn
    exact hturn

/-- The entries of a list that may not be there. -/
def acesOf (acl : Option SecurityAcl) : List SecurityAce := acl.toList.flatMap SecurityAcl.aces

theorem acesOf_some (acl : SecurityAcl) : acesOf (some acl) = acl.aces := by simp [acesOf]

/-- The part of a list is read: a turn of the loop, if it is there, sets it and its flags. -/
theorem sddlDecodeParts_acl {marker : Char}
    (set : Option SecurityAcl → BitVec 32 → SecurityDescriptor) (hnone : set none flags = sd)
    (hstep : ∀ fuel text, sddlDecodeParts state (fuel + 1) sd (marker :: ':' :: text) =
      (sddlDecodeAcl state text).bind fun found =>
        sddlDecodeParts state fuel (set (some found.1) found.2.1) found.2.2)
    (h : ∀ ace ∈ acesOf acl, ace.HasText) (hrest : EndsPart rest) :
    ∃ text, sddlPart marker (fun acl => sddlEncodeAcl state acl flags) acl = some text ∧
      IsPart marker text ∧ ∀ fuel,
        sddlDecodeParts state (fuel + acl.toList.length) sd (text ++ rest) =
          if ∀ ace ∈ acesOf acl, ace.Readable then
            sddlDecodeParts state fuel
              (set (acl.map SecurityAcl.expressed) (if acl = none then flags else flags &&& 0x1500))
              rest
          else .error .badlyFormatted := by
  cases acl with
  | none =>
    refine ⟨[], rfl, .inl rfl, fun fuel => ?_⟩
    have hall : ∀ ace ∈ acesOf none, ace.Readable := fun ace hace => absurd hace List.not_mem_nil
    rw [if_pos hall, if_pos rfl, Option.map_none, hnone]
    rfl
  | some acl =>
    rw [acesOf_some] at h ⊢
    obtain ⟨text, htext, hread⟩ := @sddlDecodeAcl_encode state acl flags rest h hrest
    refine ⟨marker :: ':' :: text, by rw [sddlPart, htext]; rfl, .inr ⟨_, rfl⟩, fun fuel => ?_⟩
    have hturn := hstep fuel (text ++ rest)
    rw [hread, readWhen] at hturn
    rw [if_neg (Option.some_ne_none acl)]
    refine hturn.trans ?_
    split_ifs
    · rfl
    · rfl

/-- The flags of a DACL and of a SACL, in their places in a descriptor. -/
theorem setWidth_daclFlags (type : BitVec 16) :
    (type.setWidth 32 &&& 0x1500).setWidth 16 = type &&& 0x1500 := by
  refine BitVec.eq_of_getLsbD_eq fun i hi => ?_
  interval_cases i <;> simp

theorem setWidth_saclFlags (type : BitVec 16) :
    (((type >>> 1).setWidth 32 &&& 0x1500) <<< 1).setWidth 16 = type &&& 0x2A00 := by
  refine BitVec.eq_of_getLsbD_eq fun i hi => ?_
  interval_cases i <;> simp

theorem shownAces_eq (sd : SecurityDescriptor) :
    sd.shownAces = acesOf sd.shownDacl ++ acesOf sd.shownSacl := List.flatMap_append

/-- A list with an entry that has no text has none. -/
theorem sddlPart_acl_none {marker : Char} (h : ¬∀ ace ∈ acesOf acl, ace.HasText) :
    sddlPart marker (fun acl => sddlEncodeAcl state acl flags) acl = none := by
  cases acl with
  | none => exact absurd (fun ace hace => absurd hace List.not_mem_nil) h
  | some acl =>
    rw [acesOf_some] at h
    have hnever : ¬(false = true ∧ flags &&& ~~~union aclFlags ≠ 0) := fun h =>
      absurd h.1 Bool.false_ne_true
    rw [sddlPart, sddlEncodeAcl, sddlFlagsToString_eq aclFlags_plain, if_neg hnever,
      mapM_encodeAce_none h]
    rfl

/-- What a turn for a DACL sets. -/
def SecurityDescriptor.setDacl (sd : SecurityDescriptor) (acl : Option SecurityAcl)
    (flags : BitVec 32) : SecurityDescriptor :=
  { sd with
    dacl := acl
    type := sd.type ||| expressedFlags acl (flags.setWidth 16) secDescDaclPresent }

/-- What a turn for a SACL sets. -/
def SecurityDescriptor.setSacl (sd : SecurityDescriptor) (acl : Option SecurityAcl)
    (flags : BitVec 32) : SecurityDescriptor :=
  { sd with
    sacl := acl
    type := sd.type ||| expressedFlags acl ((flags <<< 1).setWidth 16) secDescSaclPresent }

theorem sddlDecodeParts_marker {marker : Char} (fuel : ℕ) (text : QString) :
    sddlDecodeParts state (fuel + 1) sd (marker :: ':' :: text) =
      if marker = 'D' then
        if sd.dacl ≠ none then .error .badlyFormatted
        else (sddlDecodeAcl state text).bind fun found =>
          sddlDecodeParts state fuel (sd.setDacl (some found.1) found.2.1) found.2.2
      else if marker = 'S' then
        if sd.sacl ≠ none then .error .badlyFormatted
        else (sddlDecodeAcl state text).bind fun found =>
          sddlDecodeParts state fuel (sd.setSacl (some found.1) found.2.1) found.2.2
      else if marker = 'O' then
        if sd.ownerSid ≠ none then .error .badlyFormatted
        else (sddlDecodeSid state text).bind fun found =>
          sddlDecodeParts state fuel { sd with ownerSid := some found.1 } found.2
      else if marker = 'G' then
        if sd.groupSid ≠ none then .error .badlyFormatted
        else (sddlDecodeSid state text).bind fun found =>
          sddlDecodeParts state fuel { sd with groupSid := some found.1 } found.2
      else .error .badlyFormatted := by
  have hafter : afterChar ':' (':' :: text) = some text := by simp [afterChar]
  rw [sddlDecodeParts, hafter]
  rfl

theorem sddlDecodeParts_owner (hsd : sd.ownerSid = none) (hrest : EndsPart rest) :
    ∃ text, sddlPart 'O' (fun sid => some (sddlEncodeSid state sid)) sid = some text ∧
      IsPart 'O' text ∧ ∀ fuel,
        sddlDecodeParts state (fuel + sid.toList.length) sd (text ++ rest) =
          sddlDecodeParts state fuel { sd with ownerSid := sid } rest := by
  refine sddlDecodeParts_sid (fun sid => { sd with ownerSid := sid }) ?_ (fun fuel text => ?_) hrest
  · rw [← hsd]
  · simp [sddlDecodeParts_marker, hsd]

theorem sddlDecodeParts_group (hsd : sd.groupSid = none) (hrest : EndsPart rest) :
    ∃ text, sddlPart 'G' (fun sid => some (sddlEncodeSid state sid)) sid = some text ∧
      IsPart 'G' text ∧ ∀ fuel,
        sddlDecodeParts state (fuel + sid.toList.length) sd (text ++ rest) =
          sddlDecodeParts state fuel { sd with groupSid := sid } rest := by
  refine sddlDecodeParts_sid (fun sid => { sd with groupSid := sid }) ?_ (fun fuel text => ?_) hrest
  · rw [← hsd]
  · simp [sddlDecodeParts_marker, hsd]

theorem setDacl_none (hsd : sd.dacl = none) (flags : BitVec 32) : sd.setDacl none flags = sd := by
  have hor : sd.type ||| 0 = sd.type := BitVec.or_zero
  rw [SecurityDescriptor.setDacl, expressedFlags, if_pos rfl, hor, ← hsd]

theorem setSacl_none (hsd : sd.sacl = none) (flags : BitVec 32) : sd.setSacl none flags = sd := by
  have hor : sd.type ||| 0 = sd.type := BitVec.or_zero
  rw [SecurityDescriptor.setSacl, expressedFlags, if_pos rfl, hor, ← hsd]

theorem sddlDecodeParts_dacl (hsd : sd.dacl = none) (h : ∀ ace ∈ acesOf acl, ace.HasText)
    (hrest : EndsPart rest) :
    ∃ text, sddlPart 'D' (fun acl => sddlEncodeAcl state acl flags) acl = some text ∧
      IsPart 'D' text ∧ ∀ fuel,
        sddlDecodeParts state (fuel + acl.toList.length) sd (text ++ rest) =
          if ∀ ace ∈ acesOf acl, ace.Readable then
            sddlDecodeParts state fuel (sd.setDacl (acl.map SecurityAcl.expressed)
              (if acl = none then flags else flags &&& 0x1500)) rest
          else .error .badlyFormatted :=
  sddlDecodeParts_acl sd.setDacl (setDacl_none hsd flags)
    (fun fuel text => by simp [sddlDecodeParts_marker, hsd]) h hrest

theorem sddlDecodeParts_sacl (hsd : sd.sacl = none) (h : ∀ ace ∈ acesOf acl, ace.HasText)
    (hrest : EndsPart rest) :
    ∃ text, sddlPart 'S' (fun acl => sddlEncodeAcl state acl flags) acl = some text ∧
      IsPart 'S' text ∧ ∀ fuel,
        sddlDecodeParts state (fuel + acl.toList.length) sd (text ++ rest) =
          if ∀ ace ∈ acesOf acl, ace.Readable then
            sddlDecodeParts state fuel (sd.setSacl (acl.map SecurityAcl.expressed)
              (if acl = none then flags else flags &&& 0x1500)) rest
          else .error .badlyFormatted :=
  sddlDecodeParts_acl sd.setSacl (setSacl_none hsd flags)
    (fun fuel text => by simp [sddlDecodeParts_marker, hsd]) h hrest

/-- What the turns set, one after another, is what the text of a descriptor keeps of it. -/
theorem setDacl_setSacl_expressed (sd : SecurityDescriptor) :
    (SecurityDescriptor.setDacl ⟨securityDescriptorRevision1, secDescSelfRelative, sd.ownerSid,
        sd.groupSid, none, none⟩ (sd.shownDacl.map SecurityAcl.expressed)
        (if sd.shownDacl = none then sd.type.setWidth 32
        else sd.type.setWidth 32 &&& 0x1500)).setSacl (sd.shownSacl.map SecurityAcl.expressed)
        (if sd.shownSacl = none then (sd.type >>> 1).setWidth 32
        else (sd.type >>> 1).setWidth 32 &&& 0x1500) = sd.expressed := by
  have hflags : ∀ (acl : Option SecurityAcl) (flags flags' present : BitVec 16),
      (acl ≠ none → flags = flags') →
        expressedFlags (acl.map SecurityAcl.expressed) flags present =
          expressedFlags acl flags' present := by
    intro acl flags flags' present h
    cases acl with
    | none => rfl
    | some acl => rw [h (Option.some_ne_none acl)]; rfl
  have hdacl := hflags sd.shownDacl ((if sd.shownDacl = none then sd.type.setWidth 32
    else sd.type.setWidth 32 &&& 0x1500).setWidth 16) (sd.type &&& 0x1500) secDescDaclPresent
    (fun h => by rw [if_neg h, setWidth_daclFlags])
  have hsacl := hflags sd.shownSacl (((if sd.shownSacl = none then (sd.type >>> 1).setWidth 32
    else (sd.type >>> 1).setWidth 32 &&& 0x1500) <<< 1).setWidth 16) (sd.type &&& 0x2A00)
    secDescSaclPresent (fun h => by rw [if_neg h, setWidth_saclFlags])
  rw [SecurityDescriptor.setDacl, SecurityDescriptor.setSacl, SecurityDescriptor.expressed, hdacl,
    hsacl]

theorem sddlEncode_eq (sd : SecurityDescriptor) (domainSid : DomSid) : sddlEncode sd domainSid = do
    let owner ← sddlPart 'O'
      (fun sid => some (sddlEncodeSid ⟨domainSid, domainSid, domainSid⟩ sid)) sd.ownerSid
    let group ← sddlPart 'G'
      (fun sid => some (sddlEncodeSid ⟨domainSid, domainSid, domainSid⟩ sid)) sd.groupSid
    let dacl ← sddlPart 'D' (fun acl => sddlEncodeAcl ⟨domainSid, domainSid, domainSid⟩ acl
      (sd.type.setWidth 32)) sd.shownDacl
    let sacl ← sddlPart 'S' (fun acl => sddlEncodeAcl ⟨domainSid, domainSid, domainSid⟩ acl
      ((sd.type >>> 1).setWidth 32)) sd.shownSacl
    return owner ++ group ++ dacl ++ sacl := rfl

/-- The text of a descriptor, all of whose entries have one, is read as what it keeps of it, if all
    of them are. -/
theorem sddlDecode_encode_of_hasText (domainSid : DomSid) (h : ∀ ace ∈ sd.shownAces, ace.HasText) :
    ∃ text, sddlEncode sd domainSid = some text ∧ sddlDecode text domainSid =
      readWhen (∀ ace ∈ sd.shownAces, ace.Readable) sd.expressed := by
  rw [shownAces_eq] at h ⊢
  obtain ⟨hdacl, hsacl⟩ := List.forall_mem_append.1 h
  obtain ⟨saclText, hsaclText, hsaclPart, hsaclRead⟩ :=
    @sddlDecodeParts_sacl ⟨domainSid, domainSid, domainSid⟩
      (SecurityDescriptor.setDacl ⟨securityDescriptorRevision1, secDescSelfRelative, sd.ownerSid,
        sd.groupSid, none, none⟩ (sd.shownDacl.map SecurityAcl.expressed)
        (if sd.shownDacl = none then sd.type.setWidth 32 else sd.type.setWidth 32 &&& 0x1500))
      sd.shownSacl ((sd.type >>> 1).setWidth 32) [] rfl hsacl (.inl rfl)
  have hsaclEnd := hsaclPart.endsPart (.inr (.inr rfl)) (.inl rfl)
  obtain ⟨daclText, hdaclText, hdaclPart, hdaclRead⟩ :=
    @sddlDecodeParts_dacl ⟨domainSid, domainSid, domainSid⟩
      ⟨securityDescriptorRevision1, secDescSelfRelative, sd.ownerSid, sd.groupSid, none, none⟩
      sd.shownDacl (sd.type.setWidth 32) _ rfl hdacl hsaclEnd
  have hdaclEnd := hdaclPart.endsPart (.inr (.inl rfl)) hsaclEnd
  obtain ⟨groupText, hgroupText, hgroupPart, hgroupRead⟩ :=
    @sddlDecodeParts_group ⟨domainSid, domainSid, domainSid⟩
      ⟨securityDescriptorRevision1, secDescSelfRelative, sd.ownerSid, none, none, none⟩
      sd.groupSid _ rfl hdaclEnd
  have hgroupEnd := hgroupPart.endsPart (.inl rfl) hdaclEnd
  obtain ⟨ownerText, hownerText, -, hownerRead⟩ :=
    @sddlDecodeParts_owner ⟨domainSid, domainSid, domainSid⟩
      ⟨securityDescriptorRevision1, secDescSelfRelative, none, none, none, none⟩
      sd.ownerSid _ rfl hgroupEnd
  refine ⟨ownerText ++ (groupText ++ (daclText ++ (saclText ++ []))), ?_, ?_⟩
  · rw [sddlEncode_eq]
    simp only [hownerText, hgroupText, hdaclText, hsaclText, Option.bind_eq_bind, Option.bind_some,
      List.append_assoc, List.append_nil, Option.pure_def]
  · have hle : ∀ {α : Type} (o : Option α), o.toList.length ≤ 1 := by
      intro α o
      cases o with
      | none => exact Nat.zero_le 1
      | some a => exact le_rfl
    have howner := hle sd.ownerSid
    have hgroup := hle sd.groupSid
    have hdaclLe := hle sd.shownDacl
    have hsaclLe := hle sd.shownSacl
    obtain ⟨fuel, hfuel⟩ : ∃ fuel, fuel + sd.shownSacl.toList.length + sd.shownDacl.toList.length +
        sd.groupSid.toList.length + sd.ownerSid.toList.length = 4 :=
      ⟨4 - sd.shownSacl.toList.length - sd.shownDacl.toList.length - sd.groupSid.toList.length -
        sd.ownerSid.toList.length, by omega⟩
    rw [sddlDecode, ← hfuel, hownerRead, hgroupRead, hdaclRead, hsaclRead,
      setDacl_setSacl_expressed, readWhen]
    simp only [List.forall_mem_append]
    by_cases hd : ∀ ace ∈ acesOf sd.shownDacl, ace.Readable
    · by_cases hs : ∀ ace ∈ acesOf sd.shownSacl, ace.Readable
      · rw [if_pos hd, if_pos hs, if_pos ⟨hd, hs⟩]
        cases fuel with
        | zero => rfl
        | succ fuel => rfl
      · rw [if_pos hd, if_neg hs, if_neg fun h => hs h.2]
    · rw [if_neg hd, if_neg fun h => hd h.1]

theorem sddlEncode_none (domainSid : DomSid) (h : ¬∀ ace ∈ sd.shownAces, ace.HasText) :
    sddlEncode sd domainSid = none := by
  rw [shownAces_eq, List.forall_mem_append, not_and_or] at h
  have hsid : ∀ (marker : Char) (encode : DomSid → QString) (sid : Option DomSid),
      ∃ text, sddlPart marker (fun sid => some (encode sid)) sid = some text := by
    intro marker encode sid
    cases sid with
    | none => exact ⟨_, rfl⟩
    | some sid => exact ⟨_, rfl⟩
  obtain ⟨ownerText, hownerText⟩ :=
    hsid 'O' (sddlEncodeSid ⟨domainSid, domainSid, domainSid⟩) sd.ownerSid
  obtain ⟨groupText, hgroupText⟩ :=
    hsid 'G' (sddlEncodeSid ⟨domainSid, domainSid, domainSid⟩) sd.groupSid
  rcases h with h | h
  · have hnone := @sddlPart_acl_none ⟨domainSid, domainSid, domainSid⟩ _ (sd.type.setWidth 32) 'D' h
    rw [sddlEncode_eq]
    simp only [hownerText, hgroupText, hnone, Option.bind_eq_bind, Option.bind_none,
      Option.bind_fun_none]
  · have hnone :=
      @sddlPart_acl_none ⟨domainSid, domainSid, domainSid⟩ _ ((sd.type >>> 1).setWidth 32) 'S' h
    rw [sddlEncode_eq]
    simp only [hownerText, hgroupText, hnone, Option.bind_eq_bind, Option.bind_none,
      Option.bind_fun_none]

/-- Which descriptors have a text, and what is read of it: the entries that are shown have types
    and flags with letters, and what the text keeps of the descriptor is read, unless there is an
    entry of one of the types with letters that are not read. -/
theorem sddlDecode_sddlEncode (sd : SecurityDescriptor) (domainSid : DomSid) :
    (sddlEncode sd domainSid).map (sddlDecode · domainSid) =
      if ∀ ace ∈ sd.shownAces, ace.HasText then
        some (readWhen (∀ ace ∈ sd.shownAces, ace.Readable) sd.expressed)
      else none := by
  by_cases h : ∀ ace ∈ sd.shownAces, ace.HasText
  · obtain ⟨text, htext, hread⟩ := sddlDecode_encode_of_hasText domainSid h
    rw [htext, if_pos h, Option.map_some, hread]
  · rw [if_neg h, sddlEncode_none domainSid h]
    rfl

end

end Admc
