import Admc.Lib.Path
import Admc.Security.Descriptor
import Admc.Text
import Mathlib.Tactic.NormNum

/-!
# Texts of descriptors

A share takes and gives descriptors as texts: elements with commas between them, one for the
revision, the owner and the group each, and one for each entry of the DACL. Masks are decimal
numbers in what is given to the share, and hexadecimal ones in what comes from it.

* `domSidString_injective`: identifiers have different texts, none of which is too long;
* `sdElements_iff`: the elements of two descriptors are the same exactly when they have the same
  revision, owner and group, and the same entries up to their order and multiplicity.
-/

namespace Admc

/-! ## Numbers -/

section
variable {b n : ℕ}

theorem digitChar_lt_sixteen : ∀ d < 16, ∀ d' < 16,
    Nat.digitChar d = Nat.digitChar d' → d = d' := by
  decide

/-- What is between numbers is no digit. -/
theorem digitChar_ne_separator : ∀ d < 16, Nat.digitChar d ≠ ',' ∧ Nat.digitChar d ≠ ':' ∧
    Nat.digitChar d ≠ '/' ∧ Nat.digitChar d ≠ '-' ∧ Nat.digitChar d ≠ 'x' := by
  decide

theorem toDigits_injective (hb : 1 < b) (hmax : b ≤ 16) : Function.Injective (Nat.toDigits b) := by
  intro n
  induction n using Nat.strong_induction_on with
  | _ n ih =>
    intro m h
    rw [Nat.toDigits_eq_if hb, Nat.toDigits_eq_if (n := m) hb] at h
    have hne : ∀ n, Nat.toDigits b n ≠ [] := fun n => Nat.toDigits_ne_nil
    have hmod : ∀ n, n % b < 16 := fun n => (Nat.mod_lt n (by omega)).trans_le hmax
    split_ifs at h with hn hm hm
    · exact digitChar_lt_sixteen n (by omega) m (by omega) (List.cons.inj h).1
    · exact absurd (List.append_eq_singleton_iff.1 h.symm) (by simp [hne])
    · exact absurd (List.append_eq_singleton_iff.1 h) (by simp [hne])
    · obtain ⟨hdiv, hdigit⟩ := List.append_inj' h rfl
      have hq : n / b = m / b := ih _ (Nat.div_lt_self (by omega) hb) hdiv
      have hr : n % b = m % b := digitChar_lt_sixteen _ (hmod n) _ (hmod m) (List.cons.inj hdigit).1
      rw [← Nat.div_add_mod n b, ← Nat.div_add_mod m b, hq, hr]

theorem exists_of_mem_toDigits (hb : 1 < b) (hmax : b ≤ 16) {c : Char}
    (h : c ∈ Nat.toDigits b n) : ∃ d < 16, c = Nat.digitChar d := by
  induction n using Nat.strong_induction_on with
  | _ n ih =>
    rw [Nat.toDigits_eq_if hb] at h
    split_ifs at h with hn
    · exact ⟨n, hn.trans_le hmax, List.mem_singleton.1 h⟩
    · rcases List.mem_append.1 h with h | h
      · exact ih _ (Nat.div_lt_self (by omega) hb) h
      · exact ⟨n % b, (Nat.mod_lt n (by omega)).trans_le hmax, List.mem_singleton.1 h⟩

theorem number_natCast (n : ℕ) : number n = Nat.toDigits 10 n := by
  rw [number, if_neg (by omega), Int.natAbs_natCast]

end

/-- "%08x". -/
def hexDigits (mask : AccessMask) : QString :=
  [7, 6, 5, 4, 3, 2, 1, 0].map fun i => Nat.digitChar (mask.toNat / 16 ^ i % 16)

theorem hexDigits_injective : Function.Injective hexDigits := by
  intro mask mask' h
  have hdigit : ∀ i ≤ 7, mask.toNat / 16 ^ i % 16 = mask'.toNat / 16 ^ i % 16 := fun i hi =>
    digitChar_lt_sixteen _ (Nat.mod_lt _ (by decide)) _ (Nat.mod_lt _ (by decide))
      (List.map_inj_left.1 h i (by simp only [List.mem_cons, List.not_mem_nil]; omega))
  -- so far, they agree up to so many digits
  have hmod : ∀ k ≤ 8, mask.toNat % 16 ^ k = mask'.toNat % 16 ^ k := by
    intro k hk
    induction k with
    | zero => rw [pow_zero, Nat.mod_one, Nat.mod_one]
    | succ k ih => rw [Nat.mod_pow_succ, Nat.mod_pow_succ, ih (by omega), hdigit k (by omega)]
  refine BitVec.eq_of_toNat_eq ?_
  rw [← Nat.mod_eq_of_lt mask.isLt, ← Nat.mod_eq_of_lt mask'.isLt]
  exact hmod 8 le_rfl

/-! ## Identifiers -/

/-- `ia` of `dom_sid_string_buf`: the bytes of the authority, the first one the highest. -/
def DomSid.ia (sid : DomSid) : ℕ := sid.idAuth.foldl (fun ia byte => 256 * ia + byte.toNat) 0

/-- The text of the authority. -/
def iaString (ia : ℕ) : QString :=
  if ia ≥ 2 ^ 32 - 1 then ['0', 'x'] ++ Nat.toDigits 16 ia else Nat.toDigits 10 ia

/-- `dom_sid_string_buf`, for an identifier that is not null. -/
def DomSid.string (sid : DomSid) : QString :=
  ['S', '-'] ++ Nat.toDigits 10 sid.sidRevNum.toNat ++ ['-'] ++ iaString sid.ia ++
    sid.subAuths.flatMap fun subAuth => ['-'] ++ Nat.toDigits 10 subAuth.toNat

/-- `dom_sid_string_buf`. -/
def domSidStringBuf (sid : Option DomSid) : QString :=
  (sid.map DomSid.string).getD "(NULL SID)".toList

/-- `DOM_SID_STR_BUFLEN`. -/
def domSidStrBuflen : ℕ := 15 * 11 + 25

/-- `dom_sid_string`. -/
def domSidString (sid : Option DomSid) : QString :=
  if (domSidStringBuf sid).length + 1 > domSidStrBuflen then "(SID ERR)".toList
  else domSidStringBuf sid

section
variable {sid sid' : DomSid}

theorem foldl_bytes_inj {l l' : List (BitVec 8)} (hlength : l.length = l'.length) {n n' : ℕ}
    (h : l.foldl (fun ia byte => 256 * ia + byte.toNat) n =
      l'.foldl (fun ia byte => 256 * ia + byte.toNat) n') : n = n' ∧ l = l' := by
  induction l generalizing l' n n' with
  | nil =>
    obtain rfl := List.length_eq_zero_iff.1 hlength.symm
    exact ⟨h, rfl⟩
  | cons byte l ih =>
    cases l' with
    | nil => exact absurd hlength (Nat.succ_ne_zero _)
    | cons byte' l' =>
      obtain ⟨hsum, rfl⟩ := ih (Nat.succ.inj hlength) h
      have hsum : 256 * n + byte.toNat = 256 * n' + byte'.toNat := hsum
      have hlt := byte.isLt
      have hlt' := byte'.isLt
      refine ⟨by omega, congrArg (· :: l) (BitVec.eq_of_toNat_eq ?_)⟩
      omega

theorem DomSid.ia_lt : sid.ia < 2 ^ 48 := by
  have hfoldl : ∀ (l : List (BitVec 8)) (n : ℕ),
      l.foldl (fun ia byte => 256 * ia + byte.toNat) n < 256 ^ l.length * (n + 1) := by
    intro l
    induction l with
    | nil => exact fun n => by simp
    | cons byte l ih =>
      intro n
      have hlt := byte.isLt
      refine (ih (256 * n + byte.toNat)).trans_le ?_
      rw [List.length_cons, pow_succ, mul_assoc]
      refine Nat.mul_le_mul_left _ ?_
      omega
  have h := hfoldl sid.idAuth 0
  rwa [sid.idAuth_length] at h

theorem iaString_injective : Function.Injective iaString := by
  have hhex : ∀ ia ia', ['0', 'x'] ++ Nat.toDigits 16 ia ≠ Nat.toDigits 10 ia' := by
    intro ia ia' h
    have hx : 'x' ∈ Nat.toDigits 10 ia' := h ▸ List.mem_append_left _ (by decide)
    obtain ⟨d, hd, heq⟩ := exists_of_mem_toDigits (by decide) (by decide) hx
    exact (digitChar_ne_separator d hd).2.2.2.2 heq.symm
  intro ia ia' h
  rw [iaString, iaString] at h
  split_ifs at h
  · exact toDigits_injective (by decide) le_rfl (List.append_cancel_left h)
  · exact absurd h (hhex ia ia')
  · exact absurd h.symm (hhex ia' ia)
  · exact toDigits_injective (by decide) (by decide) h

theorem mem_iaString {ia : ℕ} {c : Char} (h : c ∈ iaString ia) :
    c = 'x' ∨ ∃ d < 16, c = Nat.digitChar d := by
  rw [iaString] at h
  split_ifs at h
  · rcases List.mem_append.1 h with h | h
    · simp only [List.mem_cons, List.not_mem_nil, or_false] at h
      exact h.elim (fun h => .inr ⟨0, by decide, h⟩) .inl
    · exact .inr (exists_of_mem_toDigits (by decide) le_rfl h)
  · exact .inr (exists_of_mem_toDigits (by decide) (by decide) h)

/-- No text of an identifier is too long. -/
theorem domSidString_eq (sid : Option DomSid) : domSidString sid = domSidStringBuf sid := by
  refine if_neg ?_
  cases sid with
  | none => simp [domSidStringBuf, domSidStrBuflen]
  | some sid =>
    have hdigits : ∀ {b n k : ℕ}, 1 < b → 0 < k → n < b ^ k → (Nat.toDigits b n).length ≤ k :=
      fun hb hk h => (Nat.length_toDigits_le_iff hb hk).2 h
    have hrev : (Nat.toDigits 10 sid.sidRevNum.toNat).length ≤ 3 :=
      hdigits (by decide) (by decide) (sid.sidRevNum.isLt.trans (by decide))
    have hia : (iaString sid.ia).length ≤ 14 := by
      rw [iaString]
      split_ifs with hlarge
      · have h : (Nat.toDigits 16 sid.ia).length ≤ 12 :=
          hdigits (by decide) (by decide) (sid.ia_lt.trans_le (by decide))
        rw [List.length_append]
        exact Nat.add_le_add_left h 2
      · have hsmall : sid.ia < 10 ^ 10 := (Nat.lt_of_not_ge hlarge).trans (by norm_num)
        exact (hdigits (by decide) (by decide) hsmall).trans (by decide : 10 ≤ 14)
    have hsub : ∀ l : List (BitVec 32), (l.flatMap fun subAuth =>
        ['-'] ++ Nat.toDigits 10 subAuth.toNat).length ≤ 11 * l.length := by
      intro l
      induction l with
      | nil => exact le_rfl
      | cons subAuth l ih =>
        have h : (Nat.toDigits 10 subAuth.toNat).length ≤ 10 :=
          hdigits (by decide) (by decide) (subAuth.isLt.trans (by decide))
        rw [List.flatMap_cons, List.length_append, List.length_append, List.length_singleton,
          List.length_cons]
        omega
    have hall := hsub sid.subAuths
    have hfew := sid.subAuths_length
    simp only [domSidStringBuf, Option.map_some, Option.getD_some, DomSid.string, domSidStrBuflen,
      List.length_append, List.length_cons, List.length_nil]
    omega

/-- The parts of the text of an identifier. -/
def DomSid.parts (sid : DomSid) : List QString :=
  ['S'] :: Nat.toDigits 10 sid.sidRevNum.toNat :: iaString sid.ia ::
    sid.subAuths.map fun subAuth => Nat.toDigits 10 subAuth.toNat

theorem DomSid.string_eq : sid.string = ['-'].intercalate sid.parts := by
  have hflat : ∀ (l : List (BitVec 32)) (text : QString),
      ['-'].intercalate (text :: l.map fun subAuth => Nat.toDigits 10 subAuth.toNat) =
        text ++ l.flatMap fun subAuth => ['-'] ++ Nat.toDigits 10 subAuth.toNat := by
    intro l
    induction l with
    | nil => exact fun text => by simp
    | cons subAuth l ih =>
      intro text
      rw [List.map_cons, List.intercalate_cons_cons, ih, List.flatMap_cons, List.append_assoc]
      rfl
  rw [DomSid.parts, List.intercalate_cons_cons, List.intercalate_cons_cons, hflat]
  simp only [DomSid.string, List.append_assoc]
  rfl

theorem mem_parts {text : QString} (h : text ∈ sid.parts) {c : Char} (hc : c ∈ text) :
    c = 'S' ∨ c = 'x' ∨ ∃ d < 16, c = Nat.digitChar d := by
  simp only [DomSid.parts, List.mem_cons, List.mem_map] at h
  obtain rfl | rfl | rfl | ⟨subAuth, -, rfl⟩ := h
  · exact .inl (List.mem_singleton.1 hc)
  · exact .inr (.inr (exists_of_mem_toDigits (by decide) (by decide) hc))
  · exact .inr (mem_iaString hc)
  · exact .inr (.inr (exists_of_mem_toDigits (by decide) (by decide) hc))

theorem splitOn_string : sid.string.splitOn '-' = sid.parts := by
  rw [DomSid.string_eq]
  refine List.splitOn_intercalate '-' (fun text htext hdash => ?_) (List.cons_ne_nil _ _)
  obtain h | h | ⟨d, hd, h⟩ := mem_parts htext hdash
  · exact absurd h (by decide)
  · exact absurd h (by decide)
  · exact (digitChar_ne_separator d hd).2.2.2.1 h.symm

/-- An identifier is read off its text. -/
theorem domSidString_injective : Function.Injective domSidString := by
  have hnone : ∀ sid, domSidStringBuf none ≠ domSidStringBuf (some sid) := fun sid h =>
    absurd (congrArg List.head? h) (by simp [domSidStringBuf, DomSid.string])
  intro sid sid' h
  rw [domSidString_eq, domSidString_eq] at h
  cases sid with
  | none =>
    cases sid' with
    | none => rfl
    | some sid' => exact absurd h (hnone sid')
  | some sid =>
    cases sid' with
    | none => exact absurd h.symm (hnone sid)
    | some sid' =>
      have hparts : sid.parts = sid'.parts := by
        rw [← splitOn_string, ← splitOn_string]
        exact congrArg (List.splitOn '-') h
      simp only [DomSid.parts, List.cons.injEq, true_and] at hparts
      obtain ⟨hrev, hia, hsubs⟩ := hparts
      have hten := @toDigits_injective 10 (by decide) (by decide)
      obtain ⟨rev, idAuth, subAuths, hlength, _⟩ := sid
      obtain ⟨rev', idAuth', subAuths', hlength', _⟩ := sid'
      obtain rfl : rev = rev' := BitVec.eq_of_toNat_eq (hten hrev)
      obtain rfl : idAuth = idAuth' :=
        (foldl_bytes_inj (hlength.trans hlength'.symm) (iaString_injective hia)).2
      obtain rfl : subAuths = subAuths' :=
        List.map_injective_iff.2 (fun _ _ h => BitVec.eq_of_toNat_eq (hten h)) hsubs
      rfl

/-- The characters of the texts of identifiers. -/
theorem mem_domSidString {sid : Option DomSid} {c : Char} (h : c ∈ domSidString sid) :
    c ∈ "(NULL SID)-x".toList ∨ ∃ d < 16, c = Nat.digitChar d := by
  have hdash : ∀ {c}, c ∈ ['-'] → c ∈ "(NULL SID)-x".toList := by
    intro c hc
    rw [List.mem_singleton.1 hc]
    decide
  have hten : ∀ {n}, c ∈ Nat.toDigits 10 n → ∃ d < 16, c = Nat.digitChar d :=
    exists_of_mem_toDigits (by decide) (by decide)
  rw [domSidString_eq] at h
  cases sid with
  | none => exact .inl (List.mem_append_left ['-', 'x'] h)
  | some sid =>
    simp only [domSidStringBuf, Option.map_some, Option.getD_some, DomSid.string, List.mem_append,
      List.mem_flatMap, or_assoc] at h
    obtain h | h | h | h | ⟨subAuth, -, h | h⟩ := h
    · obtain rfl | rfl : c = 'S' ∨ c = '-' := by simpa using h
      · exact .inl (by decide)
      · exact .inl (by decide)
    · exact .inr (hten h)
    · exact .inl (hdash h)
    · refine (mem_iaString h).imp_left fun h => ?_
      rw [h]
      decide
    · exact .inl (hdash h)
    · exact .inr (hten h)

theorem not_mem_domSidString {sid : Option DomSid} {c : Char} (hc : c = ',' ∨ c = ':' ∨ c = '/') :
    c ∉ domSidString sid := by
  intro h
  rcases mem_domSidString h with h | ⟨d, hd, rfl⟩
  · rcases hc with rfl | rfl | rfl
    · exact absurd h (by decide)
    · exact absurd h (by decide)
    · exact absurd h (by decide)
  · have hne := digitChar_ne_separator d hd
    tauto

end

/-! ## Elements -/

/-- `enum AceMaskFormat`. -/
inductive AceMaskFormat
  | hexadecimal
  | decimal
  deriving DecidableEq, Repr

/-- The mask written in the format that `mask_format_to_string` gives, which is never longer than
    `ACCESS_MASK_STRING_LENGTH`. -/
def accessMaskString : AceMaskFormat → AccessMask → QString
  | .hexadecimal, accessMask => ['0', 'x'] ++ hexDigits accessMask
  | .decimal, accessMask => number accessMask.toInt

/-- What the elements start with. -/
def revisionLabel : QString := "REVISION:".toList
def ownerLabel : QString := "OWNER:".toList
def groupLabel : QString := "GROUP:".toList
def aclLabel : QString := "ACL:".toList

/-- The element of an entry in `get_gpt_sd_string`. -/
def aceElement (format : AceMaskFormat) (ace : SecurityAce) : QString :=
  aclLabel ++ domSidString ace.trustee ++ ':' :: number ace.type.code ++
    '/' :: number ace.flags.toNat ++ '/' :: accessMaskString format ace.accessMask

/-- `all_elements` of `get_gpt_sd_string`. -/
def sdElements (format : AceMaskFormat) (sd : SecurityDescriptor) : List QString :=
  (revisionLabel ++ number sd.revision.toNat) ::
    (ownerLabel ++ domSidString sd.ownerSid) ::
    (groupLabel ++ domSidString sd.groupSid) :: sd.aces.map (aceElement format)

/-- What the element of an entry tells. -/
def SecurityAce.written (ace : SecurityAce) : DomSid × SecurityAceType × AceFlags × AccessMask :=
  (ace.trustee, ace.type, ace.flags, ace.accessMask)

/-- The same revision, owner and group, and the same set of entries. -/
structure SameWritten (sd sd' : SecurityDescriptor) : Prop where
  revision : sd.revision = sd'.revision
  owner : sd.ownerSid = sd'.ownerSid
  group : sd.groupSid = sd'.groupSid
  aces : ∀ entry, entry ∈ sd.aces.map SecurityAce.written ↔ entry ∈ sd'.aces.map SecurityAce.written

section
variable {format : AceMaskFormat} {ace ace' : SecurityAce} {sd sd' : SecurityDescriptor}

/-- The types in the order of their codes. -/
def SecurityAceType.ofCode (code : ℕ) : SecurityAceType :=
  [.accessAllowed, .accessDenied, .systemAudit, .systemAlarm, .allowedCompound,
    .accessAllowedObject, .accessDeniedObject, .systemAuditObject, .systemAlarmObject,
    .accessAllowedCallback, .accessDeniedCallback, .accessAllowedCallbackObject,
    .accessDeniedCallbackObject, .systemAuditCallback, .systemAlarmCallback,
    .systemAuditCallbackObject, .systemAlarmCallbackObject, .systemMandatoryLabel,
    .systemResourceAttribute, .systemScopedPolicyId].getD code (.reserved (code - 0x14))

theorem SecurityAceType.code_injective : Function.Injective SecurityAceType.code := by
  have hcode : ∀ type, SecurityAceType.ofCode type.code = type := by
    intro type
    cases type with
    | reserved n =>
      rw [SecurityAceType.ofCode, SecurityAceType.code, List.getD_eq_getElem?_getD,
        List.getElem?_eq_none (by simp), Option.getD_none, Nat.add_sub_cancel_left]
    | _ => rfl
  exact Function.LeftInverse.injective hcode

/-- A mask has neither a comma nor a slash. -/
theorem not_mem_accessMaskString {mask : AccessMask} {c : Char} (hc : c = ',' ∨ c = '/') :
    c ∉ accessMaskString format mask := by
  intro h
  cases format with
  | hexadecimal =>
    rcases List.mem_append.1 h with h | h
    · rcases hc with rfl | rfl
      · exact absurd h (by decide)
      · exact absurd h (by decide)
    · obtain ⟨i, -, rfl⟩ := List.mem_map.1 h
      have hne := digitChar_ne_separator _ (Nat.mod_lt (mask.toNat / 16 ^ i) (by decide : 0 < 16))
      tauto
  | decimal =>
    rcases mem_number h with rfl | h
    · exact absurd hc (by decide)
    · rcases hc with rfl | rfl
      · exact absurd h (by decide)
      · exact absurd h (by decide)

theorem accessMaskString_injective : Function.Injective (accessMaskString format) := by
  intro mask mask' h
  cases format with
  | hexadecimal => exact hexDigits_injective (List.append_cancel_left h)
  | decimal =>
    have hint := congrArg toInt h
    rw [accessMaskString, accessMaskString, toInt, toInt,
      toInteger_number (BitVec.le_toInt mask) BitVec.toInt_lt,
      toInteger_number (BitVec.le_toInt mask') BitVec.toInt_lt] at hint
    exact BitVec.eq_of_toInt_eq hint

/-- A number has no separators. -/
theorem not_mem_number_natCast {n : ℕ} {c : Char} (hc : c = ',' ∨ c = ':' ∨ c = '/') :
    c ∉ number n := by
  intro h
  rw [number_natCast] at h
  obtain ⟨d, hd, rfl⟩ := exists_of_mem_toDigits (by decide) (by decide) h
  have hne := digitChar_ne_separator d hd
  tauto

theorem number_natCast_inj {n m : ℕ} (h : number n = number m) : n = m := by
  rw [number_natCast, number_natCast] at h
  exact toDigits_injective (by decide) (by decide) h

/-- The element of an entry, up to its mask. -/
theorem aceElement_eq : aceElement format ace =
    (((aclLabel ++ domSidString ace.trustee) ++ ':' :: number ace.type.code) ++
      '/' :: number ace.flags.toNat) ++ '/' :: accessMaskString format ace.accessMask := by
  rw [aceElement]

theorem aceElement_inj :
    aceElement format ace = aceElement format ace' ↔ ace.written = ace'.written := by
  constructor
  · intro h
    rw [aceElement_eq, aceElement_eq] at h
    obtain ⟨h, hmask⟩ := Path.append_cons_inj (not_mem_accessMaskString (.inr rfl))
      (not_mem_accessMaskString (.inr rfl)) h
    obtain ⟨h, hflags⟩ := Path.append_cons_inj (not_mem_number_natCast (.inr (.inr rfl)))
      (not_mem_number_natCast (.inr (.inr rfl))) h
    obtain ⟨h, htype⟩ := Path.append_cons_inj (not_mem_number_natCast (.inr (.inl rfl)))
      (not_mem_number_natCast (.inr (.inl rfl))) h
    have htrustee := Option.some.inj (domSidString_injective (List.append_cancel_left h))
    rw [SecurityAce.written, SecurityAce.written, htrustee,
      SecurityAceType.code_injective (number_natCast_inj htype),
      BitVec.eq_of_toNat_eq (number_natCast_inj hflags), accessMaskString_injective hmask]
  · intro h
    obtain ⟨htrustee, htype, hflags, hmask⟩ : ace.trustee = ace'.trustee ∧ ace.type = ace'.type ∧
        ace.flags = ace'.flags ∧ ace.accessMask = ace'.accessMask := by
      simpa [SecurityAce.written] using h
    rw [aceElement, aceElement, htrustee, htype, hflags, hmask]

theorem mem_sdElements {x : QString} : x ∈ sdElements format sd ↔
    x = revisionLabel ++ number sd.revision.toNat ∨ x = ownerLabel ++ domSidString sd.ownerSid ∨
      x = groupLabel ++ domSidString sd.groupSid ∨ ∃ ace ∈ sd.aces, aceElement format ace = x := by
  simp only [sdElements, List.mem_cons, List.mem_map]

/-- Elements have no commas. -/
theorem not_mem_sdElements {x : QString} (h : x ∈ sdElements format sd) : ',' ∉ x := by
  have hlabel : ∀ label ∈ [revisionLabel, ownerLabel, groupLabel, aclLabel], ',' ∉ label := by
    decide
  simp only [List.forall_mem_cons] at hlabel
  obtain ⟨hrevision, howner, hgroup, hacl, -⟩ := hlabel
  obtain rfl | rfl | rfl | ⟨ace, -, rfl⟩ := mem_sdElements.1 h
  · exact mt List.mem_append.1 (not_or.2 ⟨hrevision, not_mem_number_natCast (.inl rfl)⟩)
  · exact mt List.mem_append.1 (not_or.2 ⟨howner, not_mem_domSidString (.inl rfl)⟩)
  · exact mt List.mem_append.1 (not_or.2 ⟨hgroup, not_mem_domSidString (.inl rfl)⟩)
  · have hmask : ',' ∉ accessMaskString format ace.accessMask :=
      not_mem_accessMaskString (.inl rfl)
    have htrustee : ',' ∉ domSidString ace.trustee := not_mem_domSidString (.inl rfl)
    have hnumber : ∀ n : ℕ, ',' ∉ number n := fun n => not_mem_number_natCast (.inl rfl)
    rw [aceElement]
    simp [hacl, htrustee, hnumber, hmask]

/-- The kinds of elements are told apart by their first letters. -/
theorem revision_mem_sdElements {text : QString} :
    revisionLabel ++ text ∈ sdElements format sd ↔ text = number sd.revision.toNat := by
  rw [mem_sdElements]
  constructor
  · rintro (h | h | h | ⟨ace, -, h⟩)
    · exact List.append_cancel_left h
    · exact absurd (Option.some.inj (congrArg List.head? h)) (by decide : 'R' ≠ 'O')
    · exact absurd (Option.some.inj (congrArg List.head? h)) (by decide : 'R' ≠ 'G')
    · exact absurd (Option.some.inj (congrArg List.head? h)) (by decide : 'A' ≠ 'R')
  · rintro rfl
    exact .inl rfl

theorem owner_mem_sdElements {text : QString} :
    ownerLabel ++ text ∈ sdElements format sd ↔ text = domSidString sd.ownerSid := by
  rw [mem_sdElements]
  constructor
  · rintro (h | h | h | ⟨ace, -, h⟩)
    · exact absurd (Option.some.inj (congrArg List.head? h)) (by decide : 'O' ≠ 'R')
    · exact List.append_cancel_left h
    · exact absurd (Option.some.inj (congrArg List.head? h)) (by decide : 'O' ≠ 'G')
    · exact absurd (Option.some.inj (congrArg List.head? h)) (by decide : 'A' ≠ 'O')
  · rintro rfl
    exact .inr (.inl rfl)

theorem group_mem_sdElements {text : QString} :
    groupLabel ++ text ∈ sdElements format sd ↔ text = domSidString sd.groupSid := by
  rw [mem_sdElements]
  constructor
  · rintro (h | h | h | ⟨ace, -, h⟩)
    · exact absurd (Option.some.inj (congrArg List.head? h)) (by decide : 'G' ≠ 'R')
    · exact absurd (Option.some.inj (congrArg List.head? h)) (by decide : 'G' ≠ 'O')
    · exact List.append_cancel_left h
    · exact absurd (Option.some.inj (congrArg List.head? h)) (by decide : 'A' ≠ 'G')
  · rintro rfl
    exact .inr (.inr (.inl rfl))

theorem aceElement_mem_sdElements :
    aceElement format ace ∈ sdElements format sd ↔
      ace.written ∈ sd.aces.map SecurityAce.written := by
  rw [mem_sdElements, List.mem_map]
  constructor
  · rintro (h | h | h | ⟨ace', hace', h⟩)
    · exact absurd (Option.some.inj (congrArg List.head? h)) (by decide : 'A' ≠ 'R')
    · exact absurd (Option.some.inj (congrArg List.head? h)) (by decide : 'A' ≠ 'O')
    · exact absurd (Option.some.inj (congrArg List.head? h)) (by decide : 'A' ≠ 'G')
    · exact ⟨ace', hace', aceElement_inj.1 h⟩
  · rintro ⟨ace', hace', h⟩
    exact .inr (.inr (.inr ⟨ace', hace', aceElement_inj.2 h⟩))

/-- The elements of two descriptors are the same, up to their order and multiplicity, exactly
    when what is written of them is. -/
theorem sdElements_iff :
    (∀ x, x ∈ sdElements format sd ↔ x ∈ sdElements format sd') ↔ SameWritten sd sd' := by
  constructor
  · intro h
    have hrevision := (h (revisionLabel ++ number sd.revision.toNat)).1 (.head _)
    have howner := (h (ownerLabel ++ domSidString sd.ownerSid)).1 (.tail _ (.head _))
    have hgroup := (h (groupLabel ++ domSidString sd.groupSid)).1 (.tail _ (.tail _ (.head _)))
    refine ⟨?_, ?_, ?_, fun entry => ?_⟩
    · exact BitVec.eq_of_toNat_eq (number_natCast_inj (revision_mem_sdElements.1 hrevision))
    · exact domSidString_injective (owner_mem_sdElements.1 howner)
    · exact domSidString_injective (group_mem_sdElements.1 hgroup)
    · constructor
      · intro hentry
        obtain ⟨ace, -, rfl⟩ := List.mem_map.1 hentry
        exact aceElement_mem_sdElements.1 ((h _).1 (aceElement_mem_sdElements.2 hentry))
      · intro hentry
        obtain ⟨ace, -, rfl⟩ := List.mem_map.1 hentry
        exact aceElement_mem_sdElements.1 ((h _).2 (aceElement_mem_sdElements.2 hentry))
  · intro h x
    have haces : (∃ ace ∈ sd.aces, aceElement format ace = x) ↔
        ∃ ace ∈ sd'.aces, aceElement format ace = x := by
      constructor
      · rintro ⟨ace, hace, rfl⟩
        obtain ⟨ace', hace', heq⟩ := List.mem_map.1 ((h.aces _).1 (List.mem_map_of_mem hace))
        exact ⟨ace', hace', aceElement_inj.2 heq⟩
      · rintro ⟨ace, hace, rfl⟩
        obtain ⟨ace', hace', heq⟩ := List.mem_map.1 ((h.aces _).2 (List.mem_map_of_mem hace))
        exact ⟨ace', hace', aceElement_inj.2 heq⟩
    rw [mem_sdElements, mem_sdElements, h.revision, h.owner, h.group, haces]

end

/-! ## Matching -/

/-- `AdInterface::are_sd_lists_match`. -/
def areSdListsMatch (gptSd gpcSd : QString) : Bool :=
  let gptList := gptSd.splitOn ','
  let gpcList := gpcSd.splitOn ','
  gptList.all (fun line => gpcList.contains line) && gpcList.all fun line => gptList.contains line

theorem areSdListsMatch_iff {gptSd gpcSd : QString} : areSdListsMatch gptSd gpcSd = true ↔
    ∀ x, x ∈ gptSd.splitOn ',' ↔ x ∈ gpcSd.splitOn ',' := by
  simp only [areSdListsMatch, Bool.and_eq_true, List.all_eq_true, List.contains_iff_mem]
  exact ⟨fun h x => ⟨h.1 x, h.2 x⟩, fun h => ⟨fun x => (h x).1, fun x => (h x).2⟩⟩

end Admc
