import Mathlib.Data.Bool.AllAny
import Admc.Security.Sddl

/-!
# The tokens of a text of letters

What `sddl_encode` writes for flags, masks, GUIDs and identifiers is read back, each one on its own:
flags up to a text that starts with no flag (`sddlMapFlags_codes`), masks and GUIDs as tokens of
their own (`sddlDecodeAccess_mask`, `sddlDecodeGuid_string`), and identifiers up to the end of the
text or the marker of a part (`sddlDecodeSid_encode`). None of them has a separator in it
(`IsToken`).
-/

namespace Admc

open LetterCodes (Bits PrefixFree codesOf union)

/-! ## Tables -/

/-- The codes are single bits, no code starts another one, and all of them start with a capital
    letter. -/
structure FlagMap.Plain (map : FlagMap) : Prop where
  bits : Bits map
  prefixFree : PrefixFree map
  letter : ∀ code ∈ map, ∃ c cs, code.name = c :: cs ∧ isUpperLetter c = true

/-- The text has no separator of tokens and no end of an entry. -/
def IsToken (text : QString) : Prop := ∀ c ∈ text, c ≠ ';' ∧ c ≠ ')'

-- The letters of the text are looked at one by one, and not all characters there are.
instance (text : QString) : Decidable (IsToken text) :=
  decidable_of_iff (text.all fun c => c ≠ ';' ∧ c ≠ ')') List.all_iff_forall_prop

section
variable {map : FlagMap} {flags : BitVec 32} {text rest : QString}

theorem letter_of_head {map : FlagMap}
    (h : ∀ code ∈ map, code.name.head?.any isUpperLetter = true) :
    ∀ code ∈ map, ∃ c cs, code.name = c :: cs ∧ isUpperLetter c = true := by
  intro code hcode
  have hhead := h code hcode
  cases hname : code.name with
  | nil => simp [hname] at hhead
  | cons c cs => exact ⟨c, cs, rfl, by simpa [hname] using hhead⟩

theorem aceFlags_plain : FlagMap.Plain aceFlags where
  bits := ⟨by unfold Mask.Atom; decide, by decide⟩
  prefixFree := by decide
  letter := letter_of_head (by decide)

theorem aclFlags_plain : FlagMap.Plain aclFlags where
  bits := ⟨by unfold Mask.Atom; decide, by decide⟩
  prefixFree := by decide
  letter := letter_of_head (by decide)

theorem aceAccessMask_plain : FlagMap.Plain aceAccessMask where
  bits := ⟨by unfold Mask.Atom; decide, by decide⟩
  prefixFree := by decide
  letter := letter_of_head (by decide)

/-- A mask is written bit by bit: a code that is the whole mask is its only bit. -/
theorem sddlFlagsToString_eq (h : map.Plain) (flags : BitVec 32) (checkAll : Bool) :
    sddlFlagsToString map flags checkAll =
      if checkAll = true ∧ flags &&& ~~~union map ≠ 0 then none
      else some ((codesOf map flags).flatMap LetterCodes.Code.name) := by
  rw [sddlFlagsToString]
  cases hfound : map.find? fun code => code.flag = flags with
  | none => simp [LetterCodes.write_eq h.bits]
  | some code =>
    have hcode : code ∈ map := List.mem_of_find?_eq_some hfound
    have hflag : code.flag = flags := by simpa using List.find?_some hfound
    have hnone : flags &&& ~~~union map = 0 := by
      refine BitVec.eq_of_getLsbD_eq fun i _ => ?_
      cases hi : flags.getLsbD i with
      | false => simp [hi]
      | true =>
        have hunion : (union map).getLsbD i = true :=
          LetterCodes.getLsbD_union.2 ⟨code, hcode, hflag ▸ hi⟩
        simp [hunion]
    rw [if_neg fun hne => hne.2 hnone, ← hflag, LetterCodes.codesOf_flag h.bits hcode]
    simp

/-- The codes of a mask are read back, up to a text that starts with no code. -/
theorem sddlMapFlags_codes (h : map.Plain)
    (hrest : ∀ c ∈ rest.head?, isUpperLetter c = true → LetterCodes.lookup map rest = none)
    (unknown : Bool) (hunknown : rest = [] ∨ unknown = true) :
    sddlMapFlags map ((codesOf map flags).flatMap LetterCodes.Code.name ++ rest) unknown =
      some (flags &&& union map, rest) := by
  rw [sddlMapFlags, LetterCodes.read_codesOf_append h.prefixFree h.bits h.letter le_rfl hrest]
  exact if_pos hunknown

theorem IsToken.append (h : IsToken text) (hrest : IsToken rest) : IsToken (text ++ rest) :=
  fun c hc => (List.mem_append.1 hc).elim (h c) (hrest c)

theorem isToken_codes (h : ∀ code ∈ map, IsToken code.name) :
    IsToken ((codesOf map flags).flatMap LetterCodes.Code.name) := by
  intro c hc
  obtain ⟨code, hcode, hmem⟩ := List.mem_flatMap.1 hc
  exact h code (List.mem_of_mem_filter hcode) c hmem

theorem isToken_sidChars (h : ∀ c ∈ text, c ∈ sidChars) : IsToken text := by
  have hchars : IsToken sidChars := by decide
  exact fun c hc => hchars c (h c hc)

end

/-! ## Identifiers -/

/-- The end of a text, or the marker of a part that is not the first one. -/
def EndsPart (rest : QString) : Prop :=
  rest = [] ∨ ∃ c rest', rest = c :: ':' :: rest' ∧ (c = 'G' ∨ c = 'D' ∨ c = 'S')

section
variable {state : SddlTransitionState} {sid domainSid : DomSid} {entry : SidCode} {rest : QString}

theorem DomSid.string_eq_cons (sid : DomSid) :
    ∃ tail, sid.string = 'S' :: '-' :: tail ∧ 3 ≤ tail.length ∧ ∀ c ∈ tail, c ∈ sidChars := by
  have hdigits : ∀ {b n : ℕ}, 1 < b → b ≤ 16 → ∀ c ∈ Nat.toDigits b n, c ∈ sidChars := by
    intro b n hb hle c hc
    obtain ⟨d, hd, rfl⟩ := exists_of_mem_toDigits hb hle hc
    exact (natDigitChar_props d (by omega)).2.2.2.2.1
  have hpos : ∀ b n, 0 < (Nat.toDigits b n).length := fun _ _ => Nat.length_toDigits_pos
  have hia : 0 < (iaString sid.ia).length := by
    rw [iaString]
    split_ifs
    · simp
    · exact hpos 10 sid.ia
  refine ⟨Nat.toDigits 10 sid.sidRevNum.toNat ++ ('-' :: (iaString sid.ia ++
    subAuthsString sid.subAuths)), by simp [DomSid.string, subAuthsString], ?_, ?_⟩
  · have hrev := hpos 10 sid.sidRevNum.toNat
    rw [List.length_append, List.length_cons, List.length_append]
    omega
  · intro c hc
    simp only [List.mem_append, List.mem_cons] at hc
    rcases hc with hc | rfl | hc | hc
    · exact hdigits (by decide) (by decide) c hc
    · decide
    · rcases mem_iaString hc with rfl | ⟨d, hd, rfl⟩
      · decide
      · exact (natDigitChar_props d hd).2.2.2.2.1
    · obtain ⟨subAuth, -, hmem⟩ := List.mem_flatMap.1 hc
      rcases List.mem_cons.1 hmem with rfl | hmem
      · decide
      · exact hdigits (by decide) (by decide) c hmem

theorem domSidStrBuf_eq (sid : DomSid) : domSidStrBuf sid = sid.string := by
  have hstring := domSidString_eq (some sid)
  rw [domSidString] at hstring
  split_ifs at hstring with hlong
  · obtain ⟨tail, htail, -⟩ := sid.string_eq_cons
    have hcons : "(SID ERR)".toList = 'S' :: '-' :: tail := hstring.trans htail
    exact absurd (List.cons.inj hcons).1 (by decide)
  · have hshort : ¬(sid.string.length + 1 > domSidStrBuflen) := hlong
    exact if_neg (by omega)

theorem domSidParse_string (sid : DomSid) : domSidParse sid.string = some sid := by
  have hend : EndsSid [] := fun c hc => absurd hc (Option.not_mem_none c)
  have h := domSidParseEndp_string sid hend
  rw [List.append_nil] at h
  rw [domSidParse, h]

/-- An identifier in numbers is read back. The marker of a DACL, that starts with a digit of
    hexadecimal numbers, is not taken for a part of it. -/
theorem sddlDecodeSid_string (hrest : EndsPart rest) :
    sddlDecodeSid state (sid.string ++ rest) = .ok (sid, rest) := by
  obtain ⟨tail, htail, hlength, hchars⟩ := sid.string_eq_cons
  have hcontains : ∀ c ∈ tail, sidChars.contains c = true := fun c hc =>
    List.contains_iff_mem.2 (hchars c hc)
  have hend : EndsSid [] := fun c hc => absurd hc (Option.not_mem_none c)
  have hparse := domSidParseEndp_string sid hend
  have hS : ('S' :: '-' :: (tail ++ rest)).take 2 = ['S', '-'] := rfl
  have hdrop : ('S' :: '-' :: (tail ++ rest)).drop 2 = tail ++ rest := rfl
  have htake : ('S' :: '-' :: (tail ++ rest)).take (tail.length + 2) = 'S' :: '-' :: tail := by simp
  have hleft : ('S' :: '-' :: (tail ++ rest)).drop (tail.length + 2) = rest := by simp
  rw [List.append_nil, htail] at hparse
  rw [htail, List.cons_append, List.cons_append, sddlDecodeSid, if_pos hS, hdrop,
    List.takeWhile_append_of_pos hcontains]
  dsimp only
  by_cases hdacl : ∃ rest', rest = 'D' :: ':' :: rest'
  · obtain ⟨rest', rfl⟩ := hdacl
    have hwhile : ('D' :: ':' :: rest').takeWhile (sidChars.contains ·) = ['D'] := by
      have hD : sidChars.contains 'D' = true := by decide
      rw [List.takeWhile_cons_of_pos hD, List.takeWhile_cons_of_neg (by decide)]
    have hlen : (tail ++ ['D']).length + 2 = tail.length + 3 := by simp
    have hmarker : ('S' :: '-' :: (tail ++ 'D' :: ':' :: rest'))[tail.length + 3 - 1]? = some 'D' ∧
        ('S' :: '-' :: (tail ++ 'D' :: ':' :: rest'))[tail.length + 3]? = some ':' := by simp
    rw [hwhile, hlen, if_neg (by omega), if_pos hmarker, Nat.add_sub_cancel (m := 1), htake, hleft,
      hparse]
    rfl
  · have hwhile : rest.takeWhile (sidChars.contains ·) = [] ∧ rest[0]? ≠ some ':' := by
      rcases hrest with rfl | ⟨c, rest', rfl, hc⟩
      · exact ⟨rfl, by simp⟩
      · have hnot : c ≠ 'D' := by
          rintro rfl
          exact hdacl ⟨rest', rfl⟩
        have hc : c = 'G' ∨ c = 'S' := by tauto
        rcases hc with rfl | rfl
        · exact ⟨List.takeWhile_cons_of_neg (by decide), by simp⟩
        · exact ⟨List.takeWhile_cons_of_neg (by decide), by simp⟩
    have hmarker : ('S' :: '-' :: (tail ++ rest))[tail.length + 2]? ≠ some ':' := by
      simpa [List.getElem?_append_right] using hwhile.2
    rw [hwhile.1, List.append_nil, if_neg (by omega), if_neg fun h => hmarker h.2, htake, hleft,
      hparse]
    rfl

/-- The codes are two letters each, no two of them the same, and each of them stands for one
    identifier. -/
theorem sidCodes_nodup : (sidCodes.map SidCode.code).Nodup := by decide +kernel

theorem sidCodes_letters : ∀ entry ∈ sidCodes, entry.code.length = 2 ∧
    ∀ c ∈ entry.code, isUpperLetter c = true := by
  have hall : ∀ entry ∈ sidCodes,
      entry.code.length = 2 ∧ entry.code.all isUpperLetter = true := by decide +kernel
  exact fun entry hentry => (hall entry hentry).imp_right List.all_eq_true.1

theorem sidCodes_one : ∀ entry ∈ sidCodes,
    (entry.machineRid = 0 ∨ entry.domainRid = 0 ∧ entry.forestRid = 0) ∧
      (entry.domainRid = 0 ∨ entry.forestRid = 0) ∧
      (entry.sid = none ∨ entry.machineRid = 0 ∧ entry.domainRid = 0 ∧ entry.forestRid = 0) := by
  decide +kernel

/-- A code is read as itself. -/
theorem find_code (hentry : entry ∈ sidCodes) :
    sidCodes.find? (fun entry' => entry'.code = entry.code) = some entry := by
  cases hfound : sidCodes.find? fun entry' => entry'.code = entry.code with
  | none => exact absurd (decide_eq_true rfl) (List.find?_eq_none.1 hfound entry hentry)
  | some entry' =>
    have hmem : entry' ∈ sidCodes := List.mem_of_find?_eq_some hfound
    have hcode : entry'.code = entry.code := by simpa using List.find?_some hfound
    rw [List.inj_on_of_nodup_map sidCodes_nodup hmem hentry hcode]

/-- An identifier in a domain is the one of the domain with its last sub-authority. -/
theorem domSidAddRid_of_inDomain (h : domSidInDomain domainSid sid = true) :
    domSidAddRid domainSid (sid.subAuths.getLastD 0) = some sid := by
  rw [domSidInDomain] at h
  split_ifs at h with hfew hlength htake
  have hauth : domSidCompareAuth domainSid sid = 0 := by simpa using h
  have hne : sid.subAuths ≠ [] := by
    intro hnil
    simp [hnil] at hfew
  have htake : domainSid.subAuths = sid.subAuths.dropLast := by
    rw [List.dropLast_eq_take, ← not_not.1 hlength]
    exact not_not.1 htake
  have hsubAuths : domainSid.subAuths ++ [sid.subAuths.getLastD 0] = sid.subAuths := by
    rw [htake, List.getLastD_eq_getLast?, List.getLast?_eq_some_getLast hne, Option.getD_some]
    exact List.dropLast_append_getLast hne
  have hroom : domainSid.subAuths.length < 15 := by
    have hle := sid.subAuths_length
    have hlength := congrArg List.length hsubAuths
    rw [List.length_append, List.length_singleton] at hlength
    omega
  rw [domSidAddRid, dif_pos hroom]
  obtain ⟨rev, idAuth, subAuths, hidAuth, hsub⟩ := sid
  obtain ⟨rev', idAuth', subAuths', hidAuth', hsub'⟩ := domainSid
  rw [domSidCompareAuth] at hauth
  split_ifs at hauth with hrev
  · exact absurd hauth (numericCmp_ne_zero hrev)
  · have hsame : idAuth' = idAuth := eq_of_compareFrom (hidAuth'.trans hidAuth.symm) hauth
    simp only [Option.some.injEq, DomSid.mk.injEq]
    exact ⟨not_not.1 hrev, hsame, hsubAuths⟩

/-- A code is read as the identifier it stands for. -/
theorem sddlDecodeSid_code (hentry : entry ∈ sidCodes)
    (hmatches : entry.matches state sid sid.string (sid.subAuths.getLastD 0) = true) :
    sddlDecodeSid state (entry.code ++ rest) = .ok (sid, rest) := by
  obtain ⟨hlength, hletters⟩ := sidCodes_letters entry hentry
  obtain ⟨hmachine, hdomain, hsid⟩ := sidCodes_one entry hentry
  have htake : (entry.code ++ rest).take 2 = entry.code := List.take_left' hlength
  have hdrop : (entry.code ++ rest).drop 2 = rest := List.drop_left' hlength
  have hdash : entry.code ≠ ['S', '-'] := by
    intro hcode
    exact absurd (hletters '-' (by simp [hcode])) (by decide)
  have hidentifier : (if entry.machineRid ≠ 0 then domSidAddRid state.machineSid entry.machineRid
      else if entry.domainRid ≠ 0 then domSidAddRid state.domainSid entry.domainRid
      else if entry.forestRid ≠ 0 then domSidAddRid state.forestSid entry.forestRid
      else domSidParse (entry.sid.getD [])) = some sid := by
    rw [SidCode.matches] at hmatches
    cases htext : entry.sid with
    | some text =>
      obtain ⟨hm, hd, hf⟩ := hsid.resolve_left (by simp [htext])
      have hstring : text = sid.string := by simpa [htext] using hmatches
      rw [if_neg (not_not.2 hm), if_neg (not_not.2 hd), if_neg (not_not.2 hf), Option.getD_some,
        hstring, domSidParse_string]
    | none =>
      rw [htext] at hmatches
      obtain ⟨hrid, hmatches⟩ := of_decide_eq_true hmatches
      rcases hmatches with ⟨hin, hm⟩ | ⟨hin, hd⟩ | ⟨hin, hf⟩
      · rw [if_pos (hm ▸ hrid), hm, domSidAddRid_of_inDomain hin]
      · have hm : entry.machineRid = 0 := hmachine.resolve_right fun h => hrid (hd ▸ h.1)
        rw [if_neg (not_not.2 hm), if_pos (hd ▸ hrid), hd, domSidAddRid_of_inDomain hin]
      · have hm : entry.machineRid = 0 := hmachine.resolve_right fun h => hrid (hf ▸ h.2)
        have hd : entry.domainRid = 0 := hdomain.resolve_right fun h => hrid (hf ▸ h)
        rw [if_neg (not_not.2 hm), if_neg (not_not.2 hd), if_pos (hf ▸ hrid), hf,
          domSidAddRid_of_inDomain hin]
  rw [sddlDecodeSid, htake, if_neg hdash, find_code hentry, hdrop]
  dsimp only [notNull, bind, Except.bind]
  rw [hidentifier]
  rfl

/-- What is written for an identifier is read back. -/
theorem sddlDecodeSid_encode (hrest : EndsPart rest) :
    sddlDecodeSid state (sddlEncodeSid state sid ++ rest) = .ok (sid, rest) := by
  rw [sddlEncodeSid, domSidStrBuf_eq]
  cases hfound : sidCodes.find? (SidCode.matches state sid sid.string
      (if sid.subAuths.length > 1 then sid.subAuths.getLastD 0 else 0)) with
  | none => exact sddlDecodeSid_string hrest
  | some entry =>
    have hentry : entry ∈ sidCodes := List.mem_of_find?_eq_some hfound
    have hmatches := List.find?_some hfound
    split_ifs at hmatches with hrid
    · exact sddlDecodeSid_code hentry hmatches
    · refine sddlDecodeSid_code hentry ?_
      -- without a RID, the code is one of a well-known identifier
      rw [SidCode.matches] at hmatches ⊢
      cases htext : entry.sid with
      | some text => simpa [htext] using hmatches
      | none => simp [htext] at hmatches

theorem isToken_sid (state : SddlTransitionState) (sid : DomSid) :
    IsToken (sddlEncodeSid state sid) := by
  rw [sddlEncodeSid, domSidStrBuf_eq]
  split
  · rename_i entry hfound
    intro c hc
    have hletter := (sidCodes_letters entry (List.mem_of_find?_eq_some hfound)).2 c hc
    constructor
    · rintro rfl
      exact absurd hletter (by decide)
    · rintro rfl
      exact absurd hletter (by decide)
  · obtain ⟨tail, htail, -, hchars⟩ := sid.string_eq_cons
    intro c hc
    rw [htail] at hc
    rcases List.mem_cons.1 hc with rfl | hc
    · decide
    · rcases List.mem_cons.1 hc with rfl | hc
      · decide
      · exact isToken_sidChars hchars c hc

end

/-! ## GUIDs -/

section
variable {guid : Guid} {rest : QString}

/-- The first digits of a number. -/
theorem ofDigits_range (b n k : ℕ) :
    Nat.ofDigits b ((List.range k).map fun i => n / b ^ i % b) = n % b ^ k := by
  induction k with
  | zero => simp [Nat.mod_one]
  | succ k ih =>
    rw [List.range_succ, List.map_append, Nat.ofDigits_append, ih, List.length_map,
      List.length_range, List.map_singleton, Nat.ofDigits_singleton, Nat.mod_pow_succ]

theorem ofMemory_byte (guid : Guid) : Guid.ofMemory ((List.range 16).map guid.byte) = guid := by
  have hbytes : ((List.range 16).map guid.byte).map BitVec.toNat =
      (List.range 16).map fun i => guid.bytes.toNat / 256 ^ i % 256 := by
    rw [List.map_map]
    rfl
  have hlt : guid.bytes.toNat < 256 ^ 16 := guid.bytes.isLt
  rw [Guid.ofMemory, hbytes, ofDigits_range, Nat.mod_eq_of_lt hlt, BitVec.ofNat_toNat,
    BitVec.setWidth_eq]

theorem hexBytesOf_append (bytes : List (BitVec 8)) :
    hexBytesOf bytes.length (bytes.flatMap byteDigits ++ rest) = some (bytes, rest) := by
  induction bytes with
  | nil => rfl
  | cons byte bytes ih =>
    have hlt := byte.isLt
    have hhi : byte.toNat / 16 < 16 := by omega
    have hlo : byte.toNat % 16 < 16 := Nat.mod_lt _ (by decide)
    have hbyte : BitVec.ofNat 8 (16 * (byte.toNat / 16) + byte.toNat % 16) = byte := by
      rw [Nat.div_add_mod, BitVec.ofNat_toNat, BitVec.setWidth_eq]
    have hcons : (byte :: bytes).flatMap byteDigits ++ rest =
        Nat.digitChar (byte.toNat / 16) :: Nat.digitChar (byte.toNat % 16) ::
          (bytes.flatMap byteDigits ++ rest) := rfl
    rw [hcons, List.length_cons, hexBytesOf, strtolDigit_natDigitChar _ hhi,
      strtolDigit_natDigitChar _ hlo]
    dsimp only
    rw [if_pos ⟨hhi, hlo⟩, ih, Option.map_some, hbyte]

theorem guidBufString_eq (guid : Guid) : guidBufString guid =
    ([3, 2, 1, 0].map guid.byte).flatMap byteDigits ++ '-' ::
      (([5, 4].map guid.byte).flatMap byteDigits ++ '-' ::
        (([7, 6].map guid.byte).flatMap byteDigits ++ '-' ::
          (([8, 9].map guid.byte).flatMap byteDigits ++ '-' ::
            ([10, 11, 12, 13, 14, 15].map guid.byte).flatMap byteDigits))) := by
  simp [guidBufString, guidSegments, List.intercalate]

theorem length_guidBufString (guid : Guid) : (guidBufString guid).length = 36 := by
  simp [guidBufString_eq, byteDigits]

/-- What is written for a GUID is read back. -/
theorem sddlDecodeGuid_string (guid : Guid) : sddlDecodeGuid (guidBufString guid) = some guid := by
  have hread : ∀ (is : List ℕ) (rest : QString),
      hexBytesOf is.length ((is.map guid.byte).flatMap byteDigits ++ rest) =
        some (is.map guid.byte, rest) := by
    intro is rest
    have h := @hexBytesOf_append rest (is.map guid.byte)
    rwa [List.length_map] at h
  have htimeLow := fun rest => hread [3, 2, 1, 0] rest
  have htimeMid := fun rest => hread [5, 4] rest
  have htimeHi := fun rest => hread [7, 6] rest
  have hclockSeq := fun rest => hread [8, 9] rest
  have hnode := hread [10, 11, 12, 13, 14, 15] []
  have hdash : ∀ rest, afterChar '-' ('-' :: rest) = some rest := fun rest => by
    simp [afterChar]
  rw [List.append_nil] at hnode
  rw [sddlDecodeGuid, if_neg (not_not.2 (length_guidBufString guid)), guidBufString_eq,
    parseGuidString]
  simp only [List.length_cons, List.length_nil] at htimeLow htimeMid htimeHi hclockSeq hnode
  simp only [htimeLow, htimeMid, htimeHi, hclockSeq, hnode, hdash, Option.bind_eq_bind,
    Option.bind_some]
  exact congrArg some (ofMemory_byte guid)

theorem isToken_guid (guid : Guid) : IsToken (guidBufString guid) := by
  refine isToken_sidChars fun c hc => ?_
  have hdigits : ∀ (bytes : List (BitVec 8)), ∀ c ∈ bytes.flatMap byteDigits, c ∈ sidChars := by
    intro bytes c hc
    obtain ⟨byte, -, hmem⟩ := List.mem_flatMap.1 hc
    have hlt := byte.isLt
    simp only [byteDigits, List.mem_cons, List.not_mem_nil, or_false] at hmem
    rcases hmem with rfl | rfl
    · exact (natDigitChar_props _ (by omega)).2.2.2.2.1
    · exact (natDigitChar_props _ (Nat.mod_lt _ (by decide))).2.2.2.2.1
  have hdash : '-' ∈ sidChars := by decide
  rw [guidBufString_eq] at hc
  simp only [List.mem_append, List.mem_cons] at hc
  rcases hc with hc | rfl | hc | rfl | hc | rfl | hc | rfl | hc
  all_goals first | exact hdash | exact hdigits _ c hc

end

/-! ## Access masks -/

/-- The codes that `sddl_decode_access` reads. -/
def accessCodes : FlagMap := decodeAceAccessMask ++ aceAccessMask

section
variable {mask : AccessMask} {codes : FlagMap} {text : QString}

theorem accessCodes_prefixFree : PrefixFree accessCodes := by decide

theorem accessCodes_letter :
    ∀ code ∈ accessCodes, ∃ c cs, code.name = c :: cs ∧ isUpperLetter c = true :=
  letter_of_head (by decide)

/-- Without blanks, the letters are those of a series of codes. -/
theorem sddlDecodeLetters_eq {fuel : ℕ} (h : ' ' ∉ text) : sddlDecodeLetters fuel mask text =
    if (LetterCodes.read accessCodes isUpperLetter fuel mask text).2 = [] then
      some (LetterCodes.read accessCodes isUpperLetter fuel mask text).1
    else none := by
  induction fuel generalizing mask text with
  | zero => rfl
  | succ fuel ih =>
    cases text with
    | nil => rfl
    | cons c cs =>
      have hblank : c ≠ ' ' := fun hc => h (hc ▸ List.mem_cons_self)
      have hdrop : (c :: cs).dropWhile (· = ' ') = c :: cs :=
        List.dropWhile_cons_of_neg (by simpa using hblank)
      have hor : (sddlMapFlag decodeAceAccessMask (c :: cs)).or
          (sddlMapFlag aceAccessMask (c :: cs)) = sddlMapFlag accessCodes (c :: cs) := by
        rw [sddlMapFlag, sddlMapFlag, sddlMapFlag, ← Option.map_or, LetterCodes.lookup,
          LetterCodes.lookup, LetterCodes.lookup, accessCodes, List.find?_append]
      rw [sddlDecodeLetters, LetterCodes.read, hdrop]
      dsimp only
      rw [hor, sddlMapFlag]
      by_cases hletter : isUpperLetter c = true
      · rw [if_pos (.inl hletter), if_pos hletter, if_neg (List.cons_ne_nil c cs)]
        cases LetterCodes.lookup accessCodes (c :: cs) with
        | none => simp
        | some code => exact ih fun hmem => h (List.mem_of_mem_drop hmem)
      · rw [if_neg (not_or.2 ⟨hletter, hblank⟩), if_neg hletter]
        simp

/-- A text of letters is no number. -/
theorem smbStrtoull_letters (h : ∀ c ∈ text.head?, isUpperLetter c = true) :
    smbStrtoull text 0 = none := by
  have hupper : ∀ c, isUpperLetter c = true → 65 ≤ c.toNat ∧ c.toNat ≤ 90 := by
    intro c hc
    exact of_decide_eq_true hc
  have hhead : ∀ c ∈ text.head?, isCSpace c = false ∧ c ≠ '-' ∧ c ≠ '+' := by
    intro c hc
    obtain ⟨hge, hle⟩ := hupper c (h c hc)
    refine ⟨decide_eq_false ?_, ?_, ?_⟩
    · rintro (rfl | hcontrol)
      · exact absurd hge (by decide)
      · omega
    · rintro rfl
      exact absurd hge (by decide)
    · rintro rfl
      exact absurd hge (by decide)
  have hten : baseOfText text = (10, text) := by
    unfold baseOfText
    split
    · exact absurd (h '0' rfl) (by decide)
    · exact absurd (h '0' rfl) (by decide)
    · rfl
  have hdigits : strtolDigits 10 text = [] := by
    cases text with
    | nil => rfl
    | cons c cs =>
      obtain ⟨hge, hle⟩ := hupper c (h c rfl)
      have hvalue : ¬(strtolDigit c).getD 10 < 10 := by
        rw [strtolDigit]
        split_ifs with h0 ha hA
        · have hle : c.toNat ≤ 57 := h0.2
          omega
        · rw [Option.getD_some]
          omega
        · rw [Option.getD_some]
          omega
        · exact lt_irrefl 10
      exact List.takeWhile_cons_of_neg (by simpa using hvalue)
  have hconversion : strtoull text 0 = ⟨0, false, text⟩ := by
    rw [strtoull, signOf_dropWhile hhead]
    dsimp only
    rw [if_pos rfl, hten]
    dsimp only
    rw [if_pos hdigits]
  simp [smbStrtoull, hconversion]

/-- A series of codes is read as the mask of all of them. -/
theorem sddlDecodeAccess_codes (h : ∀ code ∈ codes, code ∈ accessCodes) :
    sddlDecodeAccess (codes.flatMap LetterCodes.Code.name) = some (union codes) := by
  have hletters : ∀ code ∈ accessCodes, code.name.all isUpperLetter = true := by decide
  have hupper : ∀ c ∈ codes.flatMap LetterCodes.Code.name, isUpperLetter c = true := by
    intro c hc
    obtain ⟨code, hcode, hmem⟩ := List.mem_flatMap.1 hc
    exact List.all_eq_true.1 (hletters code (h code hcode)) c hmem
  have hblank : ' ' ∉ codes.flatMap LetterCodes.Code.name := fun hmem =>
    absurd (hupper ' ' hmem) (by decide)
  have hname : ∀ code ∈ codes, code.name ≠ [] := by
    intro code hcode
    obtain ⟨c, cs, hname, -⟩ := accessCodes_letter code (h code hcode)
    exact hname ▸ List.cons_ne_nil c cs
  have hread := @LetterCodes.read_flatMap_append _ _ accessCodes codes 0 [] _ isUpperLetter _
    accessCodes_prefixFree accessCodes_letter h (LetterCodes.length_le_flatMap hname)
    (fun c hc => absurd hc (Option.not_mem_none c))
  rw [List.append_nil] at hread
  rw [sddlDecodeAccess, smbStrtoull_letters fun c hc => hupper c (List.mem_of_mem_head? hc)]
  dsimp only
  rw [sddlDecodeLetters_eq hblank, hread, if_pos rfl]
  exact congrArg some BitVec.zero_or

/-- What is written for a mask is read back. -/
theorem sddlDecodeAccess_mask (mask : AccessMask) :
    sddlDecodeAccess (sddlMask mask) = some mask := by
  rw [sddlMask, sddlFlagsToString_eq aceAccessMask_plain]
  split_ifs with hbits
  · dsimp only
    rw [sddlMatchFileRights]
    cases hfound : decodeAceAccessMask.find? fun code => code.flag = mask with
    | some code =>
      -- the whole mask is one of the rights of files
      have hcode : code ∈ decodeAceAccessMask := List.mem_of_find?_eq_some hfound
      have hflag : code.flag = mask := by simpa using List.find?_some hfound
      have hmem : ∀ code' ∈ [code], code' ∈ accessCodes := by
        intro code' hcode'
        rw [List.mem_singleton.1 hcode']
        exact List.mem_append_left _ hcode
      have hread := sddlDecodeAccess_codes hmem
      simpa [hflag] using hread
    | none =>
      have hlt := mask.isLt
      have hfew : (Nat.toDigits 16 mask.toNat).length ≤ 8 :=
        (Nat.length_toDigits_le_iff (by decide) (by decide)).2 (hlt.trans_le (by decide))
      have hend : EndsNumber [] := endsNumber_nil
      have hnumber := @strtoull_hex mask.toNat [] (hlt.trans (by decide)) hend
      rw [List.append_nil] at hnumber
      have hdash : '-' ∉ Nat.toDigits 16 mask.toNat := by
        intro hmem
        obtain ⟨d, hd, heq⟩ := exists_of_mem_toDigits (by decide) le_rfl hmem
        exact (natDigitChar_props d hd).2.1 heq.symm
      have hread : smbStrtoull ('0' :: 'x' :: Nat.toDigits 16 mask.toNat) 0 =
          some (mask.toNat, []) := by
        rw [smbStrtoull, hnumber]
        simp [hdash]
      have hcons : ['0', 'x'] ++ Nat.toDigits 16 mask.toNat =
          '0' :: 'x' :: Nat.toDigits 16 mask.toNat := rfl
      have hlimit : "037777777777".length = 12 := rfl
      dsimp only [Option.map_none]
      rw [hcons, sddlDecodeAccess, hread]
      dsimp only
      have hshort : ¬(('0' :: 'x' :: Nat.toDigits 16 mask.toNat).length - ([] : QString).length >
          12 + 1) := by
        simp only [List.length_cons, List.length_nil]
        omega
      rw [if_neg (by omega), hlimit, if_neg hshort, if_neg (not_not.2 rfl), BitVec.ofNat_toNat,
        BitVec.setWidth_eq]
  · have hall : mask &&& ~~~union aceAccessMask = 0 := by simpa using hbits
    have hmem : ∀ code ∈ codesOf aceAccessMask mask, code ∈ accessCodes := fun code hcode =>
      List.mem_append_right _ (List.mem_of_mem_filter hcode)
    dsimp only
    rw [sddlDecodeAccess_codes hmem, LetterCodes.union_codesOf aceAccessMask_plain.bits,
      LetterCodes.and_union hall]

theorem isToken_mask (mask : AccessMask) : IsToken (sddlMask mask) := by
  rw [sddlMask, sddlFlagsToString_eq aceAccessMask_plain]
  split_ifs with hbits
  · dsimp only
    rw [sddlMatchFileRights]
    cases hfound : decodeAceAccessMask.find? fun code => code.flag = mask with
    | some code =>
      have hall : ∀ code ∈ decodeAceAccessMask, IsToken code.name := by decide
      exact hall code (List.mem_of_find?_eq_some hfound)
    | none =>
      refine IsToken.append (by decide) (isToken_sidChars fun c hc => ?_)
      obtain ⟨d, hd, rfl⟩ := exists_of_mem_toDigits (by decide) le_rfl hc
      exact (natDigitChar_props d hd).2.2.2.2.1
  · have hall : ∀ code ∈ aceAccessMask, IsToken code.name := by decide
    exact isToken_codes hall

end

end Admc
