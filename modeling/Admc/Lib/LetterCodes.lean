import Admc.Lib.Mask
import Mathlib.Data.List.Infix

/-!
# Letter codes

Masks as texts: a table gives each of some codes a mask, and a mask is written as the codes of
its bits, one after another without separators. What is written is read back by taking the first
code of the table that the text starts with, as long as there is one.

* `write_eq`: what is written of a mask, and what is left of it, for a table of single bits;
* `read_flatMap_append`: codes none of which starts another one are read back (`PrefixFree`),
  up to a text that starts with no code;
* `read_codesOf_append`: so the codes of a mask are read back.
-/

universe u

namespace LetterCodes

/-- A code and its mask. -/
structure Code (α : Type u) (w : ℕ) where
  name : List α
  flag : BitVec w
  deriving DecidableEq

section
variable {α : Type u} {w : ℕ}

/-- Writes the codes of a mask, in the order of the table; what is written is taken out of the
    mask. -/
def write : List (Code α w) → BitVec w → List α × BitVec w
  | [], flags => ([], flags)
  | code :: table, flags =>
    if flags &&& code.flag ≠ 0 then
      let written := write table (flags &&& ~~~code.flag)
      (code.name ++ written.1, written.2)
    else write table flags

/-- The masks of some codes, together. -/
def union (codes : List (Code α w)) : BitVec w := codes.foldr (fun code m => code.flag ||| m) 0

/-- The codes of a mask. -/
def codesOf (table : List (Code α w)) (flags : BitVec w) : List (Code α w) :=
  table.filter fun code => decide (Mask.Includes flags code.flag)

/-- The codes are single bits, and no two of them the same one. -/
structure Bits (table : List (Code α w)) : Prop where
  atom : ∀ code ∈ table, Mask.Atom code.flag
  disjoint : table.Pairwise fun code code' => code.flag &&& code'.flag = 0

/-- No code starts another one. -/
def PrefixFree (table : List (Code α w)) : Prop :=
  ∀ code ∈ table, ∀ code' ∈ table, code.name <+: code'.name → code = code'

variable {table codes : List (Code α w)} {code : Code α w} {flags m : BitVec w} {text rest : List α}

/-! ## Masks -/

@[simp] theorem union_nil : union ([] : List (Code α w)) = 0 := rfl

@[simp] theorem union_cons : union (code :: codes) = code.flag ||| union codes := rfl

theorem getLsbD_union {i : ℕ} :
    (union codes).getLsbD i = true ↔ ∃ code ∈ codes, code.flag.getLsbD i = true := by
  induction codes with
  | nil => simp
  | cons code codes ih =>
    rw [union_cons, BitVec.getLsbD_or, Bool.or_eq_true, ih, List.exists_mem_cons_iff]

/-- What the codes of a mask have, together. -/
theorem union_codesOf (h : Bits table) (flags : BitVec w) :
    union (codesOf table flags) = flags &&& union table := by
  refine BitVec.eq_of_getLsbD_eq fun i _ => ?_
  rw [Bool.eq_iff_iff, BitVec.getLsbD_and, Bool.and_eq_true, getLsbD_union, getLsbD_union]
  constructor
  · rintro ⟨code, hcode, hi⟩
    obtain ⟨hcode, hflags⟩ := List.mem_filter.1 hcode
    exact ⟨Mask.includes_iff.1 (of_decide_eq_true hflags) i hi, code, hcode, hi⟩
  · rintro ⟨hflags, code, hcode, hi⟩
    refine ⟨code, List.mem_filter.2 ⟨hcode, decide_eq_true ?_⟩, hi⟩
    obtain ⟨j, hj, hbit⟩ := h.atom code hcode
    -- the bit of the code is the one that the mask has
    rw [hbit, BitVec.getLsbD_twoPow, Bool.and_eq_true, decide_eq_true_iff, decide_eq_true_iff] at hi
    rw [hbit, Mask.includes_twoPow hj, hi.2]
    exact hflags

theorem codesOf_congr {flags' : BitVec w} (h : flags &&& union table = flags' &&& union table) :
    codesOf table flags = codesOf table flags' := by
  refine List.filter_congr fun code hcode => decide_eq_decide.2 ?_
  have hbit : ∀ i, code.flag.getLsbD i = true → flags.getLsbD i = flags'.getLsbD i := by
    intro i hi
    have hunion : (union table).getLsbD i = true := getLsbD_union.2 ⟨code, hcode, hi⟩
    simpa [hunion] using congrArg (BitVec.getLsbD · i) h
  rw [Mask.includes_iff, Mask.includes_iff]
  exact forall_congr' fun i => ⟨fun h hi => hbit i hi ▸ h hi, fun h hi => hbit i hi ▸ h hi⟩

/-- The codes of a table have the whole of a mask when they leave nothing of it. -/
theorem and_union (h : flags &&& ~~~union table = 0) : flags &&& union table = flags := by
  refine BitVec.eq_of_getLsbD_eq fun i hi => ?_
  have hbit : (flags &&& ~~~union table).getLsbD i = false := by simp [h]
  rw [BitVec.getLsbD_and, BitVec.getLsbD_not, decide_eq_true hi, Bool.true_and] at hbit
  rw [BitVec.getLsbD_and]
  cases hflags : flags.getLsbD i with
  | false => rfl
  | true => simpa [hflags] using hbit

/-! ## Writing -/

theorem and_ne_zero (h : Mask.Atom m) : flags &&& m ≠ 0 ↔ Mask.Includes flags m := by
  constructor
  · exact fun hne => Decidable.byContradiction fun hnot => hne (h.disjoint hnot)
  · exact fun hincludes => hincludes.symm ▸ h.ne_zero

/-- Taking one bit out of a mask leaves the codes of the others. -/
theorem codesOf_andNot (h : ∀ code' ∈ table, code.flag &&& code'.flag = 0) (flags : BitVec w) :
    codesOf table (flags &&& ~~~code.flag) = codesOf table flags := by
  refine List.filter_congr fun code' hcode' => decide_eq_decide.2 ?_
  exact ⟨Mask.Includes.of_andNot, fun hflags => hflags.andNot (h code' hcode')⟩

theorem write_eq (h : Bits table) (flags : BitVec w) : write table flags =
    ((codesOf table flags).flatMap Code.name, flags &&& ~~~union table) := by
  induction table generalizing flags with
  | nil => simp [write, codesOf]
  | cons code table ih =>
    obtain ⟨hatom, hatoms⟩ := List.forall_mem_cons.1 h.atom
    obtain ⟨hdisjoint, hpairwise⟩ := List.pairwise_cons.1 h.disjoint
    have htable : Bits table := ⟨hatoms, hpairwise⟩
    have hunion : ~~~union (code :: table) = ~~~code.flag &&& ~~~union table := by
      rw [union_cons, BitVec.not_or]
    rw [write, hunion]
    split_ifs with hflag
    · have hincludes := (and_ne_zero hatom).1 hflag
      have hcodes : codesOf (code :: table) flags = code :: codesOf table flags :=
        List.filter_cons_of_pos (decide_eq_true hincludes)
      simp only [ih htable, codesOf_andNot hdisjoint, hcodes, List.flatMap_cons, BitVec.and_assoc]
    · have hincludes := mt (and_ne_zero hatom).2 hflag
      have hcodes : codesOf (code :: table) flags = codesOf table flags :=
        List.filter_cons_of_neg (by simpa using hincludes)
      have hclear : flags &&& ~~~code.flag = flags := by
        refine BitVec.eq_of_getLsbD_eq fun i hi => ?_
        have hbit : (flags &&& code.flag).getLsbD i = false := by simp [not_not.1 hflag]
        rw [BitVec.getLsbD_and] at hbit
        rw [BitVec.getLsbD_and, BitVec.getLsbD_not, decide_eq_true hi, Bool.true_and]
        cases hflags : flags.getLsbD i with
        | false => rfl
        | true => rw [hflags, Bool.true_and] at hbit; rw [hbit]; rfl
      rw [ih htable, hcodes, ← BitVec.and_assoc, hclear]

/-- A mask of the table is the only code that it has. -/
theorem codesOf_flag (h : Bits table) (hcode : code ∈ table) :
    codesOf table code.flag = [code] := by
  induction table with
  | nil => exact absurd hcode List.not_mem_nil
  | cons code' table ih =>
    obtain ⟨hatom, hatoms⟩ := List.forall_mem_cons.1 h.atom
    obtain ⟨hdisjoint, hpairwise⟩ := List.pairwise_cons.1 h.disjoint
    have hnone : ∀ {m n : BitVec w}, m &&& n = 0 → Mask.Atom n → ¬Mask.Includes m n :=
      fun hmn hn hincludes => hn.ne_zero (Mask.eq_zero_of_includes_of_disjoint hmn hincludes)
    rcases List.mem_cons.1 hcode with rfl | hmem
    · have hrest : codesOf table code.flag = [] := by
        refine List.filter_eq_nil_iff.2 fun code' hcode' => ?_
        simpa using hnone (hdisjoint code' hcode') (hatoms code' hcode')
      exact (List.filter_cons_of_pos (by simp)).trans (congrArg (code :: ·) hrest)
    · have hclear : code.flag &&& code'.flag = 0 := by
        rw [BitVec.and_comm]
        exact hdisjoint code hmem
      exact (List.filter_cons_of_neg (by simpa using hnone hclear hatom)).trans
        (ih ⟨hatoms, hpairwise⟩ hmem)

/-- What no code has is left, whatever the table. -/
theorem write_snd_and (table : List (Code α w)) (flags : BitVec w) :
    (write table flags).2 &&& ~~~union table = flags &&& ~~~union table := by
  induction table generalizing flags with
  | nil => rfl
  | cons code table ih =>
    have hunion : ~~~union (code :: table) = ~~~union table &&& ~~~code.flag := by
      rw [union_cons, BitVec.not_or, BitVec.and_comm]
    rw [write, hunion, ← BitVec.and_assoc, ← BitVec.and_assoc]
    split_ifs
    · rw [ih, BitVec.and_assoc, BitVec.and_assoc, BitVec.and_assoc,
        BitVec.and_comm (~~~union table), ← BitVec.and_assoc (~~~code.flag), BitVec.and_self]
    · rw [ih]

theorem length_le_flatMap (h : ∀ code ∈ codes, code.name ≠ []) :
    codes.length ≤ (codes.flatMap Code.name).length := by
  induction codes with
  | nil => exact le_rfl
  | cons code codes ih =>
    obtain ⟨hne, h⟩ := List.forall_mem_cons.1 h
    have hpos := List.length_pos_iff.2 hne
    have hle := ih h
    rw [List.flatMap_cons, List.length_append, List.length_cons]
    omega

/-! ## Reading -/

variable [DecidableEq α]

instance decidablePrefixFree (table : List (Code α w)) : Decidable (PrefixFree table) :=
  inferInstanceAs (Decidable (∀ code ∈ table, ∀ code' ∈ table, _ → _))

/-- The first code of a table that a text starts with. -/
def lookup (table : List (Code α w)) (text : List α) : Option (Code α w) :=
  table.find? fun code => code.name.isPrefixOf text

/-- Reads codes, as long as the text starts with a letter and a code. -/
def read (table : List (Code α w)) (isLetter : α → Bool) :
    ℕ → BitVec w → List α → BitVec w × List α
  | fuel + 1, flags, c :: cs =>
    if isLetter c then
      match lookup table (c :: cs) with
      | some code => read table isLetter fuel (flags ||| code.flag)
          ((c :: cs).drop code.name.length)
      | none => (flags, c :: cs)
    else (flags, c :: cs)
  | _, flags, text => (flags, text)

theorem lookup_append (h : PrefixFree table) (hcode : code ∈ table) (rest : List α) :
    lookup table (code.name ++ rest) = some code := by
  have hself : code.name.isPrefixOf (code.name ++ rest) = true :=
    List.isPrefixOf_iff_prefix.2 (List.prefix_append _ _)
  cases hfound : lookup table (code.name ++ rest) with
  | none => exact absurd hself (Bool.not_eq_true _ ▸ List.find?_eq_none.1 hfound code hcode)
  | some code' =>
    have hmem : code' ∈ table := List.mem_of_find?_eq_some hfound
    have hprefix : code'.name <+: code.name ++ rest :=
      List.isPrefixOf_iff_prefix.1 (by simpa using List.find?_some hfound)
    -- two codes that the text starts with start one another
    obtain hstarts | hstarts :=
      List.prefix_or_prefix_of_prefix (List.prefix_append code.name rest) hprefix
    · rw [h code hcode code' hmem hstarts]
    · rw [h code' hmem code hcode hstarts]

/-- What is read are masks of the table. -/
theorem read_fst_and {isLetter : α → Bool} {fuel : ℕ} :
    (read table isLetter fuel flags text).1 &&& ~~~union table = flags &&& ~~~union table := by
  induction fuel generalizing flags text with
  | zero => rfl
  | succ fuel ih =>
    cases text with
    | nil => rfl
    | cons c cs =>
      rw [read]
      split_ifs
      · cases hfound : lookup table (c :: cs) with
        | none => rfl
        | some code =>
          refine ih.trans (BitVec.eq_of_getLsbD_eq fun i _ => ?_)
          have hunion : code.flag.getLsbD i = true → (union table).getLsbD i = true := fun hi =>
            getLsbD_union.2 ⟨code, List.mem_of_find?_eq_some hfound, hi⟩
          rw [BitVec.getLsbD_and, BitVec.getLsbD_and, BitVec.getLsbD_or, BitVec.getLsbD_not]
          cases hi : code.flag.getLsbD i with
          | false => rw [Bool.or_false]
          | true => simp [hunion hi]
      · rfl

theorem read_of_lookup_eq_none {isLetter : α → Bool} {fuel : ℕ}
    (h : ∀ c ∈ rest.head?, isLetter c = true → lookup table rest = none) :
    read table isLetter fuel flags rest = (flags, rest) := by
  cases fuel with
  | zero => rfl
  | succ fuel =>
    cases rest with
    | nil => rfl
    | cons c cs =>
      rw [read]
      split_ifs with hletter
      · rw [h c rfl hletter]
      · rfl

/-- Codes that start with letters are read back. -/
theorem read_flatMap_append {isLetter : α → Bool} {fuel : ℕ} (h : PrefixFree table)
    (hletter : ∀ code ∈ table, ∃ c cs, code.name = c :: cs ∧ isLetter c = true)
    (hcodes : ∀ code ∈ codes, code ∈ table) (hfuel : codes.length ≤ fuel)
    (hrest : ∀ c ∈ rest.head?, isLetter c = true → lookup table rest = none) :
    read table isLetter fuel flags (codes.flatMap Code.name ++ rest) =
      (flags ||| union codes, rest) := by
  induction codes generalizing flags fuel with
  | nil => simp [read_of_lookup_eq_none hrest]
  | cons code codes ih =>
    obtain ⟨hcode, hcodes⟩ := List.forall_mem_cons.1 hcodes
    obtain ⟨c, cs, hname, hc⟩ := hletter code hcode
    obtain _ | fuel := fuel
    · exact absurd hfuel (Nat.not_succ_le_zero _)
    · have hlookup := lookup_append h hcode (codes.flatMap Code.name ++ rest)
      have hdrop : (code.name ++ (codes.flatMap Code.name ++ rest)).drop code.name.length =
          codes.flatMap Code.name ++ rest := List.drop_left
      rw [List.flatMap_cons, List.append_assoc]
      rw [hname, List.cons_append] at hlookup hdrop ⊢
      rw [read, if_pos hc, hlookup]
      dsimp only
      rw [hname, hdrop, ih hcodes (Nat.le_of_succ_le_succ hfuel), union_cons, BitVec.or_assoc]

/-- The codes of a mask are read back. -/
theorem read_codesOf_append {isLetter : α → Bool} {fuel : ℕ} (h : PrefixFree table)
    (hbits : Bits table)
    (hletter : ∀ code ∈ table, ∃ c cs, code.name = c :: cs ∧ isLetter c = true)
    (hfuel : ((codesOf table flags).flatMap Code.name ++ rest).length ≤ fuel)
    (hrest : ∀ c ∈ rest.head?, isLetter c = true → lookup table rest = none) :
    read table isLetter fuel 0 ((codesOf table flags).flatMap Code.name ++ rest) =
      (flags &&& union table, rest) := by
  have hcodes : ∀ code ∈ codesOf table flags, code ∈ table := fun code hcode =>
    List.mem_of_mem_filter hcode
  have hname : ∀ code ∈ codesOf table flags, code.name ≠ [] := by
    intro code hcode
    obtain ⟨c, cs, hname, -⟩ := hletter code (hcodes code hcode)
    exact hname ▸ List.cons_ne_nil c cs
  have hle : (codesOf table flags).length ≤ fuel :=
    (length_le_flatMap hname).trans ((List.length_append ▸ Nat.le_add_right _ _).trans hfuel)
  rw [read_flatMap_append h hletter hcodes hle hrest, union_codesOf hbits]
  exact congrArg (·, rest) BitVec.zero_or

end

end LetterCodes
