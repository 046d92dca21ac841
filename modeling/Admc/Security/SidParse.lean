import Admc.Octet
import Admc.Security.SdText

/-!
# Reading identifiers

`dom_sid_parse_endp` reads an identifier off the start of a text, and gives what comes after it.
The checks of the numbers that Samba makes are left out in the sources of this repository: a
number that is too large becomes the largest one and is cut off, and the revision may be followed
by any character.

* `domSidParseEndp_string`: an identifier is read off its text, whatever comes after it that does
  not look like a part of it;
* `domSidParseEndp_pastEnd_iff`: the texts that end at the revision are those past whose end it
  reads.
-/

namespace Admc

/-! ## Numbers -/

/-- What `strtoull` makes of a text: the number, whether it is out of range, and the rest. -/
structure Conversion where
  value : ℕ
  outOfRange : Bool
  rest : QString
  deriving DecidableEq

/-- The base that `strtoull` takes for the base 0, and the text without the prefix of hexadecimal
    numbers. -/
def baseOfText : QString → ℕ × QString
  | '0' :: x :: c :: cs =>
    if (x = 'x' ∨ x = 'X') ∧ (strtolDigit c).getD 16 < 16 then (16, c :: cs)
    else (8, '0' :: x :: c :: cs)
  | '0' :: cs => (8, '0' :: cs)
  | text => (10, text)

/-- The sign of a number, and the rest of it. -/
def signOf : QString → Bool × QString
  | c :: cs => if c = '-' then (true, cs) else if c = '+' then (false, cs) else (false, c :: cs)
  | [] => (false, [])

/-- `strtoull`, for the bases 0 and 10. A text without digits is not converted: it is the rest. -/
def strtoull (text : QString) (base : ℕ) : Conversion :=
  let (negative, unsigned) := signOf (text.dropWhile isCSpace)
  let (base, unsigned) := if base = 0 then baseOfText unsigned else (base, unsigned)
  let digits := strtolDigits base unsigned
  if digits = [] then ⟨0, false, text⟩
  else
    let number := Nat.ofDigits base digits.reverse
    let rest := unsigned.drop digits.length
    if number ≥ 2 ^ 64 then ⟨2 ^ 64 - 1, true, rest⟩
    else ⟨if negative then (2 ^ 64 - number) % 2 ^ 64 else number, false, rest⟩

/-- `smb_strtoull` with `SMB_STR_STANDARD`: errors are numbers that are out of range, texts that
    are not converted, and signs. -/
def smbStrtoull (text : QString) (base : ℕ) : Option (ℕ × QString) :=
  let conversion := strtoull text base
  if conversion.outOfRange then none
  else if conversion.rest.length = text.length then none
  else if '-' ∈ text.take (text.length - conversion.rest.length) then none
  else some (conversion.value, conversion.rest)

/-! ## Identifiers -/

/-- `isdigit` of the character that a text starts with. -/
def startsWithDigit : QString → Bool
  | c :: _ => c.isDigit
  | [] => false

/-- Zeros before digits are passed over. -/
def skipZeros : QString → QString
  | '0' :: c :: cs => if c.isDigit then skipZeros (c :: cs) else '0' :: c :: cs
  | q => q

/-- What comes after a character that a text starts with. -/
def afterChar (a : Char) : QString → Option QString
  | c :: q => if c = a then some q else none
  | [] => none

/-- The loop for the sub-authorities in `dom_sid_parse_endp`, when there is room for so many. -/
def parseSubAuths : (room : ℕ) → QString →
    Option ({l : List (BitVec 32) // l.length ≤ room} × QString)
  | 0, _ => none
  | room + 1, q =>
    if startsWithDigit q = false then none
    else
      let conversion := strtoull (skipZeros q) 0
      let subAuth := BitVec.ofNat 32 conversion.value
      match afterChar '-' conversion.rest with
      | none => some (⟨[subAuth], Nat.succ_le_succ (Nat.zero_le room)⟩, conversion.rest)
      | some q => (parseSubAuths room q).map fun found =>
        (⟨subAuth :: found.1.1, Nat.succ_le_succ found.1.2⟩, found.2)

/-- The bytes of an authority, the first one the highest. -/
def idAuthBytes (conv : ℕ) : List (BitVec 8) :=
  [.ofNat 8 (conv / 2 ^ 40), .ofNat 8 (conv / 2 ^ 32), .ofNat 8 (conv / 2 ^ 24),
    .ofNat 8 (conv / 2 ^ 16), .ofNat 8 (conv / 2 ^ 8), .ofNat 8 conv]

/-- The identifier with a revision, the number of an authority, and sub-authorities. -/
def DomSid.ofParts (sidRevNum : BitVec 8) (conv : ℕ)
    (subAuths : {l : List (BitVec 32) // l.length ≤ 15}) : DomSid :=
  ⟨sidRevNum, idAuthBytes conv, subAuths.1, rfl, subAuths.2⟩

/-- What `dom_sid_parse_endp` comes to. -/
inductive SidParse
  /-- An identifier, and the rest of the text. -/
  | parsed (sid : DomSid) (rest : QString)
  /-- `format_error`, or too many sub-authorities. -/
  | formatError
  /-- The character after the end of the text is read. -/
  | pastEnd
  deriving DecidableEq

/-- The part of `dom_sid_parse_endp` after the revision. -/
def parseAuthority (sidRevNum : BitVec 8) (q : QString) : SidParse :=
  if startsWithDigit q = false then .formatError
  else
    let q := skipZeros q
    let identauth := strtoull q 0
    if identauth.value ≥ 2 ^ 48 ∨ q.length - identauth.rest.length > 15 then .formatError
    else
      match afterChar '-' identauth.rest with
      | none => .parsed (.ofParts sidRevNum identauth.value ⟨[], Nat.zero_le 15⟩) identauth.rest
      | some q =>
        match parseSubAuths 15 q with
        | none => .formatError
        | some (subAuths, rest) => .parsed (.ofParts sidRevNum identauth.value subAuths) rest

/-- `dom_sid_parse_endp`. -/
def domSidParseEndp : QString → SidParse
  | s :: dash :: p =>
    if ¬(s = 'S' ∨ s = 's') ∨ dash ≠ '-' ∨ startsWithDigit p = false then .formatError
    else
      let revision := strtoull p 10
      match revision.rest with
      | [] => .pastEnd
      -- whatever the character after the revision is
      | _ :: q => parseAuthority (.ofNat 8 revision.value) q
  | _ => .formatError

/-- `dom_sid_parse`, for texts that are not read past their end. -/
def domSidParse (sidstr : QString) : Option DomSid :=
  match domSidParseEndp sidstr with
  | .parsed sid _ => some sid
  | _ => none

/-- What identifiers are made of: the characters that `sddl_decode_sid` takes for a part of one. -/
def sidChars : QString := "-0123456789ABCDEFabcdefxX".toList

/-- The text does not look like a part of an identifier. -/
def EndsSid (rest : QString) : Prop := ∀ c ∈ rest.head?, c ∉ sidChars

/-! ## Digits -/

section
variable {b n : ℕ} {rest : QString}

theorem isDigit_iff (c : Char) : c.isDigit = true ↔ '0' ≤ c ∧ c ≤ '9' := by
  rw [Char.isDigit, Bool.and_eq_true, decide_eq_true_iff, decide_eq_true_iff]
  exact Iff.rfl

/-- Digits start no blank and no sign, and only zero is the start of a prefix. -/
theorem natDigitChar_props : ∀ d < 16, isCSpace (Nat.digitChar d) = false ∧
    Nat.digitChar d ≠ '-' ∧ Nat.digitChar d ≠ '+' ∧ (Nat.digitChar d = '0' → d = 0) ∧
    Nat.digitChar d ∈ sidChars ∧ (d < 10 → (Nat.digitChar d).isDigit = true) := by
  decide

/-- The digits of a number, the first of which is zero for zero only. -/
structure IsNumeral (b n : ℕ) (ds : List ℕ) : Prop where
  toDigits : Nat.toDigits b n = ds.map Nat.digitChar
  lt : ∀ d ∈ ds, d < b
  ofDigits : Nat.ofDigits b ds.reverse = n
  head : ∃ d ds', ds = d :: ds' ∧ (d = 0 → ds' = [] ∧ n = 0)

theorem exists_isNumeral (hb : 1 < b) (n : ℕ) : ∃ ds, IsNumeral b n ds := by
  induction n using Nat.strong_induction_on with
  | _ n ih =>
    by_cases hn : n < b
    · refine ⟨[n], Nat.toDigits_of_lt_base hn, ?_, Nat.ofDigits_singleton, n, [], rfl, ?_⟩
      · exact fun d hd => List.mem_singleton.1 hd ▸ hn
      · exact fun hzero => ⟨rfl, hzero⟩
    · obtain ⟨ds, hds⟩ := ih (n / b) (Nat.div_lt_self (by omega) hb)
      obtain ⟨d, ds', rfl, hzero⟩ := hds.head
      have hpos : 0 < n / b := Nat.div_pos (by omega) (by omega)
      refine ⟨d :: ds' ++ [n % b], ?_, ?_, ?_, d, ds' ++ [n % b], rfl, ?_⟩
      · rw [Nat.toDigits_of_base_le hb (by omega), hds.toDigits, List.map_append]
        rfl
      · intro d' hd'
        rcases List.mem_append.1 hd' with hd' | hd'
        · exact hds.lt d' hd'
        · exact List.mem_singleton.1 hd' ▸ Nat.mod_lt n (by omega)
      · rw [List.reverse_append, List.reverse_singleton, List.singleton_append,
          Nat.ofDigits_cons, hds.ofDigits]
        exact Nat.mod_add_div n b
      · exact fun hd => absurd (hzero hd).2 hpos.ne'

/-- No digit of a hexadecimal number comes next. -/
def EndsNumber (rest : QString) : Prop :=
  ∀ c ∈ rest.head?, 16 ≤ (strtolDigit c).getD 16 ∧ c ≠ 'x' ∧ c ≠ 'X'

theorem endsNumber_nil : EndsNumber [] := fun c hc => absurd hc (Option.not_mem_none c)

theorem endsNumber_dash : EndsNumber ('-' :: rest) := by
  intro c hc
  obtain rfl := Option.some.inj hc
  decide

theorem EndsSid.endsNumber (h : EndsSid rest) : EndsNumber rest := by
  intro c hc
  have hnot := h c hc
  refine ⟨?_, ?_, ?_⟩
  · by_contra hlt
    have hranges : 48 ≤ c.toNat ∧ c.toNat ≤ 57 ∨ 97 ≤ c.toNat ∧ c.toNat ≤ 102 ∨
        65 ≤ c.toNat ∧ c.toNat ≤ 70 := by
      have hnum : ('0'.toNat, 'a'.toNat, 'A'.toNat) = (48, 97, 65) := rfl
      rw [Prod.mk.injEq, Prod.mk.injEq] at hnum
      rw [strtolDigit, hnum.1, hnum.2.1, hnum.2.2] at hlt
      split_ifs at hlt with h0 ha hA
      · exact .inl h0
      · have : 97 ≤ c.toNat := ha.1
        simp only [Option.getD_some] at hlt
        omega
      · have : 65 ≤ c.toNat := hA.1
        simp only [Option.getD_some] at hlt
        omega
      · exact absurd le_rfl hlt
    have hmem : ∀ k < 103, 48 ≤ k ∧ k ≤ 57 ∨ 97 ≤ k ∧ k ≤ 102 ∨ 65 ≤ k ∧ k ≤ 70 →
        Char.ofNat k ∈ sidChars := by decide
    exact hnot (Char.ofNat_toNat c ▸ hmem c.toNat (by omega) hranges)
  · rintro rfl
    exact hnot (by decide)
  · rintro rfl
    exact hnot (by decide)

/-- The digits of a number are those that are read. -/
theorem IsNumeral.strtolDigits {ds : List ℕ} (h : IsNumeral b n ds) (hb : b ≤ 16)
    (hrest : EndsNumber rest) : strtolDigits b (Nat.toDigits b n ++ rest) = ds := by
  have hmap : (ds.map Nat.digitChar).map (fun c => (strtolDigit c).getD b) = ds := by
    rw [List.map_map, List.map_congr_left (g := id), List.map_id]
    intro d hd
    exact congrArg (Option.getD · b) (strtolDigit_natDigitChar d ((h.lt d hd).trans_le hb))
  have hend : (rest.map fun c => (strtolDigit c).getD b).takeWhile (· < b) = [] := by
    cases rest with
    | nil => rfl
    | cons c rest =>
      refine List.takeWhile_cons_of_neg ?_
      have hc := (hrest c rfl).1
      cases hdigit : strtolDigit c with
      | none => simp [hdigit]
      | some k =>
        rw [hdigit, Option.getD_some] at hc
        simpa [hdigit] using hb.trans hc
  have hall : ∀ d ∈ ds, decide (d < b) = true := fun d hd => decide_eq_true (h.lt d hd)
  rw [Admc.strtolDigits, h.toDigits, List.map_append, hmap, List.takeWhile_append_of_pos hall,
    hend, List.append_nil]

theorem signOf_dropWhile {text : QString}
    (h : ∀ c ∈ text.head?, isCSpace c = false ∧ c ≠ '-' ∧ c ≠ '+') :
    signOf (text.dropWhile isCSpace) = (false, text) := by
  cases text with
  | nil => rfl
  | cons c text =>
    obtain ⟨hspace, hminus, hplus⟩ := h c rfl
    rw [List.dropWhile_cons_of_neg (by simp [hspace]), signOf, if_neg hminus, if_neg hplus]

/-- A number without a sign and without blanks, in the base that its text is taken to have. -/
theorem strtoull_eq {text : QString} (digits : QString) {base : ℕ} {ds : List ℕ}
    (h : IsNumeral b n ds) (hn : n < 2 ^ 64)
    (hhead : ∀ c ∈ text.head?, isCSpace c = false ∧ c ≠ '-' ∧ c ≠ '+')
    (hbase : (if base = 0 then baseOfText text else (base, text)) = (b, digits))
    (hdigits : strtolDigits b digits = ds) (hdrop : digits.drop ds.length = rest) :
    strtoull text base = ⟨n, false, rest⟩ := by
  obtain ⟨d, ds', hds, -⟩ := h.head
  rw [strtoull, signOf_dropWhile hhead]
  dsimp only
  rw [hbase]
  dsimp only
  rw [hdigits, h.ofDigits, hdrop, if_neg (by rw [hds]; exact List.cons_ne_nil d ds'),
    if_neg (by omega)]
  rfl

theorem strtoull_toDigits {base : ℕ} (hbase : base = 0 ∨ base = 10) (hn : n < 2 ^ 64)
    (hrest : EndsNumber rest) : strtoull (Nat.toDigits 10 n ++ rest) base = ⟨n, false, rest⟩ := by
  obtain ⟨ds, h⟩ := exists_isNumeral (by decide : 1 < 10) n
  obtain ⟨d, ds', hds, hzero⟩ := h.head
  have hd : d < 10 := h.lt d (hds ▸ List.mem_cons_self)
  obtain ⟨hspace, hminus, hplus, hmark, -, -⟩ := natDigitChar_props d (by omega)
  have htext : Nat.toDigits 10 n ++ rest =
      Nat.digitChar d :: (ds'.map Nat.digitChar ++ rest) := by
    rw [h.toDigits, hds]
    rfl
  have hhead : ∀ c ∈ (Nat.toDigits 10 n ++ rest).head?,
      isCSpace c = false ∧ c ≠ '-' ∧ c ≠ '+' := by
    intro c hc
    rw [htext] at hc
    obtain rfl := Option.some.inj hc
    exact ⟨hspace, hminus, hplus⟩
  have hdrop : (Nat.toDigits 10 n ++ rest).drop ds.length = rest := by
    rw [h.toDigits]
    exact List.drop_left' (List.length_map _)
  by_cases hnumber : d = 0 ∧ base = 0
  · -- zero is taken to be octal
    obtain ⟨rfl, rfl⟩ := hnumber
    obtain ⟨rfl, rfl⟩ := hzero rfl
    have hzero : IsNumeral 8 0 [0] :=
      ⟨rfl, by simp, rfl, 0, [], rfl, fun _ => ⟨rfl, rfl⟩⟩
    refine strtoull_eq ('0' :: rest) hzero hn hhead ?_
      (hzero.strtolDigits (by decide) hrest) rfl
    have height : baseOfText ('0' :: rest) = (8, '0' :: rest) := by
      obtain _ | ⟨x, _ | ⟨c, cs⟩⟩ := rest
      · rfl
      · rfl
      · obtain ⟨-, hx, hX⟩ := hrest x rfl
        rw [baseOfText, if_neg (fun hmark => hmark.1.elim hx hX)]
    exact height
  · refine strtoull_eq _ h hn hhead ?_ (h.strtolDigits (by decide) hrest) hdrop
    rcases hbase with rfl | rfl
    · have hten : ∀ c cs, c ≠ '0' → baseOfText (c :: cs) = (10, c :: cs) := by
        intro c cs hc
        unfold baseOfText
        split
        · rename_i heq
          exact absurd (List.cons.inj heq).1 hc
        · rename_i heq
          exact absurd (List.cons.inj heq).1 hc
        · rfl
      rw [if_pos rfl, htext]
      exact hten _ _ fun hc => hnumber ⟨hmark hc, rfl⟩
    · rfl

theorem strtoull_hex (hn : n < 2 ^ 64) (hrest : EndsNumber rest) :
    strtoull ('0' :: 'x' :: (Nat.toDigits 16 n ++ rest)) 0 = ⟨n, false, rest⟩ := by
  obtain ⟨ds, h⟩ := exists_isNumeral (by decide : 1 < 16) n
  obtain ⟨d, ds', hds, -⟩ := h.head
  have hd : d < 16 := h.lt d (hds ▸ List.mem_cons_self)
  refine strtoull_eq (Nat.toDigits 16 n ++ rest) h hn ?_ ?_ (h.strtolDigits le_rfl hrest) ?_
  · intro c hc
    obtain rfl := Option.some.inj hc
    decide
  · have htext : Nat.toDigits 16 n ++ rest =
        Nat.digitChar d :: (ds'.map Nat.digitChar ++ rest) := by
      rw [h.toDigits, hds]
      rfl
    have hhex : (strtolDigit (Nat.digitChar d)).getD 16 < 16 := by
      rw [strtolDigit_natDigitChar d hd]
      exact hd
    rw [if_pos rfl, htext, baseOfText, if_pos ⟨.inl rfl, hhex⟩]
  · rw [h.toDigits]
    exact List.drop_left' (List.length_map _)

/-- Numbers have no zeros before them. -/
theorem skipZeros_toDigits (hrest : EndsNumber rest) :
    skipZeros (Nat.toDigits 10 n ++ rest) = Nat.toDigits 10 n ++ rest ∧
      startsWithDigit (Nat.toDigits 10 n ++ rest) = true := by
  obtain ⟨ds, h⟩ := exists_isNumeral (by decide : 1 < 10) n
  obtain ⟨d, ds', hds, hzero⟩ := h.head
  have hd : d < 10 := h.lt d (hds ▸ List.mem_cons_self)
  obtain ⟨-, -, -, hmark, -, hdigit⟩ := natDigitChar_props d (by omega)
  rw [h.toDigits, hds, List.map_cons, List.cons_append]
  refine ⟨?_, hdigit hd⟩
  unfold skipZeros
  split
  · rename_i c cs heq
    obtain ⟨hchar, htail⟩ := List.cons.inj heq
    obtain ⟨rfl, -⟩ := hzero (hmark hchar)
    -- what comes after a single zero is no digit
    have hc : strtolDigit c ≠ none → ¬(strtolDigit c).getD 16 < 10 := by
      intro _
      have hend := (hrest c (by rw [show rest = c :: cs from htail]; rfl)).1
      omega
    have hnot : c.isDigit = false := by
      by_contra hisDigit
      have hrange := (isDigit_iff c).1 (Bool.not_eq_false _ ▸ hisDigit)
      have hvalue : strtolDigit c = some (c.toNat - '0'.toNat) := if_pos hrange
      have hle : c.toNat ≤ 57 := hrange.2
      refine hc (by rw [hvalue]; exact Option.some_ne_none _) ?_
      rw [hvalue, Option.getD_some]
      have hzero : '0'.toNat = 48 := rfl
      omega
    rw [if_neg (by rw [hnot]; exact Bool.false_ne_true), hchar, htail]
  · rfl

end

/-! ## Identifiers -/

section
variable {sid : DomSid} {rest : QString}

/-- The sub-authorities in the text of an identifier. -/
def subAuthsString (subAuths : List (BitVec 32)) : QString :=
  subAuths.flatMap fun subAuth => ['-'] ++ Nat.toDigits 10 subAuth.toNat

theorem endsNumber_subAuthsString (hrest : EndsSid rest) (subAuths : List (BitVec 32)) :
    EndsNumber (subAuthsString subAuths ++ rest) := by
  cases subAuths with
  | nil => exact hrest.endsNumber
  | cons subAuth subAuths => exact endsNumber_dash

theorem afterChar_of_endsSid (hrest : EndsSid rest) : afterChar '-' rest = none := by
  cases rest with
  | nil => rfl
  | cons c rest =>
    refine if_neg ?_
    rintro rfl
    exact hrest '-' rfl (by decide)

theorem parseSubAuths_append {room : ℕ} {subAuth : BitVec 32} {subAuths : List (BitVec 32)}
    (hroom : (subAuth :: subAuths).length ≤ room) (hrest : EndsSid rest) :
    parseSubAuths room (Nat.toDigits 10 subAuth.toNat ++ (subAuthsString subAuths ++ rest)) =
      some (⟨subAuth :: subAuths, hroom⟩, rest) := by
  induction subAuths generalizing room subAuth with
  | nil =>
    obtain _ | room := room
    · exact absurd hroom (Nat.not_succ_le_zero _)
    · have hend : EndsNumber (subAuthsString [] ++ rest) := endsNumber_subAuthsString hrest []
      obtain ⟨hskip, hdigit⟩ := @skipZeros_toDigits subAuth.toNat _ hend
      have hdash : afterChar '-' (subAuthsString [] ++ rest) = none := afterChar_of_endsSid hrest
      rw [parseSubAuths, if_neg (by simp [hdigit]), hskip,
        strtoull_toDigits (.inl rfl) (subAuth.isLt.trans (by decide)) hend]
      dsimp only
      rw [hdash]
      simp [subAuthsString]
  | cons subAuth' subAuths ih =>
    obtain _ | room := room
    · exact absurd hroom (Nat.not_succ_le_zero _)
    · have hend := endsNumber_subAuthsString hrest (subAuth' :: subAuths)
      obtain ⟨hskip, hdigit⟩ := @skipZeros_toDigits subAuth.toNat _ hend
      have hdash : afterChar '-' (subAuthsString (subAuth' :: subAuths) ++ rest) =
          some (Nat.toDigits 10 subAuth'.toNat ++ (subAuthsString subAuths ++ rest)) := by
        simp [subAuthsString, afterChar]
      rw [parseSubAuths, if_neg (by simp [hdigit]), hskip,
        strtoull_toDigits (.inl rfl) (subAuth.isLt.trans (by decide)) hend]
      dsimp only
      rw [hdash]
      dsimp only
      rw [ih (Nat.le_of_succ_le_succ hroom)]
      simp

theorem length_iaString (sid : DomSid) : (iaString sid.ia).length ≤ 14 := by
  rw [iaString]
  split_ifs with hlarge
  · have h : (Nat.toDigits 16 sid.ia).length ≤ 12 :=
      (Nat.length_toDigits_le_iff (by decide) (by decide)).2 (sid.ia_lt.trans_le (by decide))
    rw [List.length_append]
    exact Nat.add_le_add_left h 2
  · have hsmall : sid.ia < 10 ^ 10 := (Nat.lt_of_not_ge hlarge).trans (by norm_num)
    have h : (Nat.toDigits 10 sid.ia).length ≤ 10 :=
      (Nat.length_toDigits_le_iff (by decide) (by decide)).2 hsmall
    exact h.trans (by decide)

/-- The authority is read off its text, which has no zeros before it. -/
theorem strtoull_iaString (hrest : EndsNumber rest) :
    skipZeros (iaString sid.ia ++ rest) = iaString sid.ia ++ rest ∧
      startsWithDigit (iaString sid.ia ++ rest) = true ∧
      strtoull (iaString sid.ia ++ rest) 0 = ⟨sid.ia, false, rest⟩ := by
  have hlt : sid.ia < 2 ^ 64 := sid.ia_lt.trans (by decide)
  rw [iaString]
  split_ifs with hlarge
  · exact ⟨rfl, rfl, strtoull_hex hlt hrest⟩
  · obtain ⟨hskip, hdigit⟩ := @skipZeros_toDigits sid.ia _ hrest
    exact ⟨hskip, hdigit, strtoull_toDigits (.inl rfl) hlt hrest⟩

theorem ofParts_ia (sid : DomSid) :
    DomSid.ofParts sid.sidRevNum sid.ia ⟨sid.subAuths, sid.subAuths_length⟩ = sid := by
  obtain ⟨rev, idAuth, subAuths, hlength, _⟩ := sid
  have hbytes : idAuthBytes (idAuth.foldl (fun ia byte => 256 * ia + byte.toNat) 0) = idAuth := by
    obtain _ | ⟨a, _ | ⟨b, _ | ⟨c, _ | ⟨d, _ | ⟨e, _ | ⟨f, _ | ⟨g, l⟩⟩⟩⟩⟩⟩⟩ := idAuth
    case cons.cons.cons.cons.cons.cons.nil =>
      have ha := a.isLt
      have hb := b.isLt
      have hc := c.isLt
      have hd := d.isLt
      have he := e.isLt
      have hf := f.isLt
      simp only [idAuthBytes, List.foldl_cons, List.foldl_nil, List.cons.injEq, and_true,
        ← BitVec.toNat_inj, BitVec.toNat_ofNat]
      omega
    all_goals exact absurd hlength (by simp)
  simp only [DomSid.ofParts, DomSid.ia, hbytes]

/-- An identifier is read off its text. -/
theorem domSidParseEndp_string (sid : DomSid) (hrest : EndsSid rest) :
    domSidParseEndp (sid.string ++ rest) = .parsed sid rest := by
  have hend := endsNumber_subAuthsString hrest sid.subAuths
  obtain ⟨hskip, hdigit, hia⟩ := @strtoull_iaString sid _ hend
  have hrevision : BitVec.ofNat 8 sid.sidRevNum.toNat = sid.sidRevNum := by
    rw [BitVec.ofNat_toNat, BitVec.setWidth_eq]
  have hlength : ¬((iaString sid.ia ++ (subAuthsString sid.subAuths ++ rest)).length -
      (subAuthsString sid.subAuths ++ rest).length > 15) := by
    have hle := length_iaString sid
    rw [List.length_append]
    omega
  have hauthority : parseAuthority sid.sidRevNum
      (iaString sid.ia ++ (subAuthsString sid.subAuths ++ rest)) = .parsed sid rest := by
    have hlt := sid.ia_lt
    rw [parseAuthority, if_neg (by simp [hdigit]), hskip]
    dsimp only
    rw [hia]
    dsimp only
    rw [if_neg (by omega)]
    have hsid := ofParts_ia sid
    have hfew := sid.subAuths_length
    cases hsubAuths : sid.subAuths with
    | nil =>
      have hdash : afterChar '-' (subAuthsString [] ++ rest) = none := afterChar_of_endsSid hrest
      simp only [hsubAuths] at hsid
      rw [hdash]
      dsimp only
      rw [hsid]
      rfl
    | cons subAuth subAuths =>
      have hdash : afterChar '-' (subAuthsString (subAuth :: subAuths) ++ rest) =
          some (Nat.toDigits 10 subAuth.toNat ++ (subAuthsString subAuths ++ rest)) := by
        simp [subAuthsString, afterChar]
      rw [hsubAuths] at hfew
      simp only [hsubAuths] at hsid
      rw [hdash]
      dsimp only
      rw [parseSubAuths_append hfew hrest]
      dsimp only
      rw [hsid]
  have htext : sid.string ++ rest = 'S' :: '-' :: (Nat.toDigits 10 sid.sidRevNum.toNat ++
      '-' :: (iaString sid.ia ++ (subAuthsString sid.subAuths ++ rest))) := by
    simp [DomSid.string, subAuthsString]
  have hdigit := (@skipZeros_toDigits sid.sidRevNum.toNat
    ('-' :: (iaString sid.ia ++ (subAuthsString sid.subAuths ++ rest))) endsNumber_dash).2
  rw [htext, domSidParseEndp, if_neg (by simp [hdigit]),
    strtoull_toDigits (.inr rfl) (sid.sidRevNum.isLt.trans (by decide)) endsNumber_dash]
  dsimp only
  rw [hrevision, hauthority]

/-! ## Past the end -/

/-- The rest of a text that `strtoull` reads decimal digits of. -/
theorem strtoull_ten_rest {text : QString} (h : startsWithDigit text = true) :
    (strtoull text 10).rest = text.dropWhile Char.isDigit := by
  have hvalue : ∀ c, decide ((strtolDigit c).getD 10 < 10) = c.isDigit := by
    intro c
    rw [Bool.eq_iff_iff, decide_eq_true_iff, isDigit_iff]
    have hnum : ('0'.toNat, 'a'.toNat, 'A'.toNat) = (48, 97, 65) := rfl
    rw [Prod.mk.injEq, Prod.mk.injEq] at hnum
    rw [strtolDigit, hnum.1, hnum.2.1, hnum.2.2]
    split_ifs with h0 ha hA
    · have : c.toNat ≤ 57 := h0.2
      exact ⟨fun _ => h0, fun _ => by rw [Option.getD_some]; omega⟩
    · exact ⟨fun hlt => absurd hlt (by rw [Option.getD_some]; omega), fun h => absurd h h0⟩
    · exact ⟨fun hlt => absurd hlt (by rw [Option.getD_some]; omega), fun h => absurd h h0⟩
    · exact ⟨fun hlt => absurd hlt (lt_irrefl 10), fun h => absurd h h0⟩
  have hdigits : ∀ text : QString,
      text.drop (strtolDigits 10 text).length = text.dropWhile Char.isDigit := by
    intro text
    rw [strtolDigits]
    induction text with
    | nil => rfl
    | cons c text ih =>
      rw [List.map_cons, List.takeWhile_cons, List.dropWhile_cons, hvalue]
      split
      · rw [List.length_cons, List.drop_succ_cons, ih]
      · rfl
  have hhead : ∀ c ∈ text.head?, isCSpace c = false ∧ c ≠ '-' ∧ c ≠ '+' := by
    intro c hc
    cases text with
    | nil => exact absurd hc (Option.not_mem_none c)
    | cons c' text =>
      obtain rfl := Option.some.inj hc
      have hdigit : c'.isDigit = true := h
      refine ⟨?_, ?_, ?_⟩
      · have hge : 48 ≤ c'.toNat := ((isDigit_iff c').1 hdigit).1
        refine decide_eq_false ?_
        rintro (rfl | hcontrol)
        · exact absurd hdigit (by decide)
        · omega
      · rintro rfl
        exact absurd hdigit (by decide)
      · rintro rfl
        exact absurd hdigit (by decide)
  rw [← hdigits, strtoull, signOf_dropWhile hhead]
  dsimp only
  rw [if_neg (by decide : ¬(10 = 0))]
  dsimp only
  split_ifs with hnone hlarge hsign
  · rw [hnone]
    rfl
  · rfl
  · rfl
  · rfl

/-- The texts that end at the revision are read past their end. -/
theorem domSidParseEndp_pastEnd_iff {sidstr : QString} : domSidParseEndp sidstr = .pastEnd ↔
    ∃ s digits, (s = 'S' ∨ s = 's') ∧ digits ≠ [] ∧ (∀ c ∈ digits, c.isDigit = true) ∧
      sidstr = s :: '-' :: digits := by
  have hauthority : ∀ sidRevNum q, parseAuthority sidRevNum q ≠ .pastEnd := by
    intro sidRevNum q
    rw [parseAuthority]
    dsimp only
    split_ifs
    · simp
    · simp
    · split
      · simp
      · split <;> simp
  have hdigit : ∀ digits : QString, (∀ c ∈ digits, c.isDigit = true) ↔
      digits.dropWhile Char.isDigit = [] := fun digits => List.dropWhile_eq_nil_iff.symm
  obtain _ | ⟨s, _ | ⟨dash, p⟩⟩ := sidstr
  · simp [domSidParseEndp]
  · simp [domSidParseEndp]
  · rw [domSidParseEndp]
    dsimp only
    split_ifs with hbad
    · refine iff_of_false (by simp) ?_
      rintro ⟨s', digits, hs, hne, hall, heq⟩
      obtain ⟨rfl, rfl, rfl⟩ : s = s' ∧ dash = '-' ∧ p = digits := by simpa using heq
      obtain ⟨c, cs, rfl⟩ := List.exists_cons_of_ne_nil hne
      have hc : startsWithDigit (c :: cs) = true := hall c List.mem_cons_self
      simp [hs, hc] at hbad
    · obtain ⟨hs, hdash, hp⟩ : (s = 'S' ∨ s = 's') ∧ dash = '-' ∧ startsWithDigit p = true := by
        obtain ⟨hs, hbad⟩ := not_or.1 hbad
        obtain ⟨hdash, hp⟩ := not_or.1 hbad
        exact ⟨not_not.1 hs, not_not.1 hdash, Bool.not_eq_false _ ▸ hp⟩
      rw [strtoull_ten_rest hp]
      constructor
      · intro h
        refine ⟨s, p, hs, ?_, (hdigit p).2 ?_, by rw [hdash]⟩
        · rintro rfl
          exact absurd hp Bool.false_ne_true
        · revert h
          cases p.dropWhile Char.isDigit with
          | nil => exact fun _ => rfl
          | cons c q => exact fun h => absurd h (hauthority _ q)
      · rintro ⟨s', digits, -, -, hall, heq⟩
        obtain ⟨rfl, rfl, rfl⟩ : s = s' ∧ dash = '-' ∧ p = digits := by simpa using heq
        rw [(hdigit p).1 hall]

/-- Every identifier is read off its text, up to a character that is no part of one, and only texts
    of a revision are read past their end. -/
theorem domSidParseEndp_reads :
    (∀ (sid : DomSid) (rest : QString), EndsSid rest →
      domSidParseEndp (sid.string ++ rest) = .parsed sid rest) ∧
    ∀ sidstr, domSidParseEndp sidstr = .pastEnd ↔
      ∃ s digits, (s = 'S' ∨ s = 's') ∧ digits ≠ [] ∧ (∀ c ∈ digits, c.isDigit = true) ∧
        sidstr = s :: '-' :: digits :=
  ⟨fun sid _ hrest => domSidParseEndp_string sid hrest, fun _ => domSidParseEndp_pastEnd_iff⟩

/-- An identifier before a semicolon, and a revision alone. -/
theorem domSidParseEndp_reads_world :
    domSidParseEndp (sidWorld.string ++ [';']) = .parsed sidWorld [';'] ∧
      domSidParseEndp "S-1".toList = .pastEnd := by
  have hend : EndsSid [';'] := by
    intro c hc
    obtain rfl := Option.some.inj hc
    decide
  exact ⟨domSidParseEndp_reads.1 sidWorld [';'] hend, (domSidParseEndp_reads.2 _).2
    ⟨'S', ['1'], .inl rfl, by simp, by simp, rfl⟩⟩

end

end Admc
