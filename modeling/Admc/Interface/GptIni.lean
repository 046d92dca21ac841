import Admc.Lib.Path
import Admc.Text
import Mathlib.Data.List.Forall2
import Mathlib.Data.List.TakeWhile

/-!
# The version in GPT.INI

The version of a policy is read from a text, line by line, with the section that the line is in.

* `gptIniGetVersion_reference`: it is that of the first entry for it in a section `General`,
  whatever comes beside it, and however the lines end.
-/

namespace Admc

/-- `QString::toInt`, with whether it has succeeded. -/
def toIntOk (text : QString) : Option ℤ :=
  (signedDigits (trimmed text)).filter fun n => -2 ^ 31 ≤ n ∧ n < 2 ^ 31

/-- The header of the section of the version. -/
def generalHeader : QString := "[General]".toList

/-- The key of the version. -/
def versionKey : QString := "Version".toList

/-- The loop of `gpt_ini_get_version` over the lines. -/
def gptIniLoop (inGeneralSection : Bool) : List QString → ℤ
  | [] => -1
  | rawLine :: lines =>
    let line := trimmed rawLine
    if line.head? = some '[' then gptIniLoop (decide (line = generalHeader)) lines
    else if !inGeneralSection then gptIniLoop inGeneralSection lines
    else
      let separator := indexOf line '='
      if separator < 0 ∨ trimmed (line.take separator.toNat) ≠ versionKey then
        gptIniLoop inGeneralSection lines
      else
        match toIntOk (trimmed (mid line (separator + 1) (-1))) with
        | some version => if 0 ≤ version then version else -1
        | none => -1

/-- `gpt_ini_get_version`. -/
def gptIniGetVersion (iniContents : QString) : ℤ := gptIniLoop false (iniContents.splitOn '\n')

/-! ## Entries -/

/-- The header of the section that comes after some lines. -/
def sectionHeader (before : List QString) : Option QString :=
  ((before.map trimmed).filter fun line => line.head? = some '[').getLast?

/-- The key and the value of a line that is an entry. -/
def iniEntry (line : QString) : Option (QString × QString) :=
  if (trimmed line).head? ≠ some '[' ∧ '=' ∈ line then
    some (trimmed (line.takeWhile (· ≠ '=')), trimmed (line.dropWhile (· ≠ '=')).tail)
  else none

/-- The value of a line, after other lines, that is an entry for the version. -/
def versionValue (before : List QString) (line : QString) : Option QString :=
  (iniEntry line).bind fun (key, value) =>
    if key = versionKey ∧ sectionHeader before = some generalHeader then some value else none

/-- The values of the entries for the version. -/
def versionValues (lines : List QString) : List QString :=
  (List.range lines.length).filterMap fun i => lines[i]?.bind (versionValue (lines.take i))

/-- A decimal number from 0 to 2^31 - 1, or else -1. -/
def decimalVersion (value : QString) : ℤ :=
  match signedDigits value with
  | some n => if 0 ≤ n ∧ n < 2 ^ 31 then n else -1
  | none => -1

/-- The version of the first entry for it, if there is one. -/
def referenceVersion (lines : List QString) : ℤ :=
  match (versionValues lines).head? with
  | some value => decimalVersion value
  | none => -1

/-- A line makes no difference after other lines: it is blank; or it is no header, and outside of
    the section `General`, or no entry for the version. -/
def IsIdleLine (before : List QString) (line : QString) : Prop :=
  trimmed line = [] ∨ (trimmed line).head? ≠ some '[' ∧
    (sectionHeader before ≠ some generalHeader ∨
      ∀ entry ∈ iniEntry line, entry.1 ≠ versionKey)

/-- A text has the lines of another one, but for carriage returns at their ends. -/
def SameButLineEnds (text text' : QString) : Prop :=
  List.Forall₂ (fun line line' => line' = line ∨ line' = line ++ ['\r']) (text.splitOn '\n')
    (text'.splitOn '\n')

/-! ## Trimming -/

section
variable {text blanks key value line : QString}

theorem trimmed_append_left (h : ∀ c ∈ blanks, isSpace c = true) :
    trimmed (blanks ++ text) = trimmed text := by
  rw [trimmed, trimmed, List.dropWhile_append_of_pos h]

theorem trimmed_append_right (h : ∀ c ∈ blanks, isSpace c = true) :
    trimmed (text ++ blanks) = trimmed text := by
  rw [trimmed, trimmed, List.dropWhile_append]
  split_ifs with hempty
  · rw [List.isEmpty_iff.1 hempty, List.dropWhile_eq_nil_iff.2 h]
  · rw [List.reverse_append,
      List.dropWhile_append_of_pos fun c hc => h c (List.mem_reverse.1 hc)]

/-- What is trimmed from a text is blank. -/
theorem exists_trimmed (text : QString) : ∃ before after : QString,
    text = before ++ (trimmed text ++ after) ∧ (∀ c ∈ before, isSpace c = true) ∧
      ∀ c ∈ after, isSpace c = true := by
  refine ⟨text.takeWhile isSpace, ((text.dropWhile isSpace).reverse.takeWhile isSpace).reverse,
    ?_, fun c hc => List.mem_takeWhile_imp hc,
    fun c hc => List.mem_takeWhile_imp (List.mem_reverse.1 hc)⟩
  rw [trimmed, ← List.reverse_append, List.takeWhile_append_dropWhile, List.reverse_reverse,
    List.takeWhile_append_dropWhile]

theorem trimmed_trimmed (text : QString) : trimmed (trimmed text) = trimmed text := by
  obtain ⟨before, after, htext, hbefore, hafter⟩ := exists_trimmed text
  have hsame := congrArg trimmed htext
  rw [trimmed_append_left hbefore, trimmed_append_right hafter] at hsame
  exact hsame.symm

/-- A text is cut at its first equals sign, -/
theorem cut_equals (h : '=' ∉ key) : (key ++ '=' :: value).takeWhile (· ≠ '=') = key ∧
    ((key ++ '=' :: value).dropWhile (· ≠ '=')).tail = value := by
  have hall : ∀ c ∈ key, decide (c ≠ '=') = true :=
    fun c hc => decide_eq_true fun heq => h (heq ▸ hc)
  constructor
  · rw [List.takeWhile_append_of_pos hall]
    exact List.append_nil _
  · rw [List.dropWhile_append_of_pos hall]
    rfl

/-- also by its position. -/
theorem cut_indexOf (h : '=' ∉ key) :
    (key ++ '=' :: value).take (indexOf (key ++ '=' :: value) '=').toNat = key ∧
      mid (key ++ '=' :: value) (indexOf (key ++ '=' :: value) '=' + 1) (-1) = value := by
  rw [indexOf_append_cons h, Int.toNat_natCast, mid, if_pos (by decide)]
  constructor
  · exact List.take_left
  · have hlength : ((key.length : ℤ) + 1).toNat = (key ++ ['=']).length := by
      rw [List.length_append]
      rfl
    rw [hlength, List.append_cons key '=' value]
    exact List.drop_left

/-- The entry of a line is that of the trimmed line. -/
theorem iniEntry_eq (line : QString) : iniEntry line =
    if (trimmed line).head? = some '[' ∨ indexOf (trimmed line) '=' < 0 then none
    else some (trimmed ((trimmed line).take (indexOf (trimmed line) '=').toNat),
      trimmed (mid (trimmed line) (indexOf (trimmed line) '=' + 1) (-1))) := by
  obtain ⟨before, after, hline, hbefore, hafter⟩ := exists_trimmed line
  have hne {blanks : QString} (hblanks : ∀ c ∈ blanks, isSpace c = true) : '=' ∉ blanks :=
    fun hmem => absurd (hblanks '=' hmem) (by decide)
  have hmem : '=' ∈ line ↔ '=' ∈ trimmed line := by
    conv_lhs => rw [hline]
    rw [List.mem_append, List.mem_append, or_iff_right (hne hbefore), or_iff_left (hne hafter)]
  have hindex : indexOf (trimmed line) '=' < 0 ↔ '=' ∉ trimmed line := by
    rw [indexOf]
    split_ifs with hequals
    · exact iff_of_false (Int.not_lt.2 (Int.natCast_nonneg _)) (not_not.2 hequals)
    · exact iff_of_true (by decide) hequals
  rw [iniEntry]
  simp only [hmem, hindex]
  by_cases hequals : '=' ∈ trimmed line
  · -- what is trimmed is before the key, and after the value
    obtain ⟨key, value, htrimmed, hkey⟩ := List.eq_append_cons_of_mem hequals
    have hkey' : '=' ∉ before ++ key := by
      rw [List.mem_append, not_or]
      exact ⟨hne hbefore, hkey⟩
    have hcut := @cut_equals (before ++ key) (value ++ after) hkey'
    have hsame : before ++ key ++ '=' :: (value ++ after) = line := by
      rw [hline, htrimmed]
      simp only [List.append_assoc, List.cons_append]
    rw [hsame] at hcut
    rw [hcut.1, hcut.2, trimmed_append_left hbefore, trimmed_append_right hafter, htrimmed,
      (cut_indexOf hkey).1, (cut_indexOf hkey).2]
    simp only [ne_eq, List.mem_append, List.mem_cons, true_or, or_true, and_true, not_true_eq_false,
      or_false, ite_not]
  · simp only [hequals, and_false, not_false_eq_true, or_true, if_true, if_false]

end

/-! ## The loop -/

section
variable {before lines lines' : List QString} {line : QString}

/-- Nothing but the trimmed lines is read. -/
theorem gptIniLoop_congr {inGeneralSection : Bool}
    (h : lines.map trimmed = lines'.map trimmed) :
    gptIniLoop inGeneralSection lines = gptIniLoop inGeneralSection lines' := by
  induction lines generalizing lines' inGeneralSection with
  | nil =>
    rw [List.map_nil, eq_comm, List.map_eq_nil_iff] at h
    rw [h]
  | cons line lines ih =>
    cases lines' with
    | nil => exact nomatch h
    | cons line' lines' =>
      obtain ⟨hline, hlines⟩ := List.cons.inj h
      simp only [gptIniLoop, hline, ih hlines]

theorem sectionHeader_concat : sectionHeader (before ++ [line]) =
    if (trimmed line).head? = some '[' then some (trimmed line) else sectionHeader before := by
  rw [sectionHeader, List.map_append, List.filter_append, List.map_singleton, List.filter_cons]
  by_cases hheader : (trimmed line).head? = some '['
  · rw [if_pos hheader, if_pos (decide_eq_true hheader), List.filter_nil, List.getLast?_concat]
  · rw [if_neg hheader, if_neg (by simpa using hheader), List.filter_nil, List.append_nil]
    rfl

/-- The version of the value of an entry. -/
theorem toIntOk_trimmed (value : QString) :
    (match toIntOk (trimmed value) with
      | some version => if 0 ≤ version then version else -1
      | none => -1) = decimalVersion (trimmed value) := by
  rw [toIntOk, trimmed_trimmed, decimalVersion]
  cases signedDigits (trimmed value) with
  | none => rfl
  | some n =>
    rw [Option.filter_some]
    by_cases hint : -2 ^ 31 ≤ n ∧ n < 2 ^ 31
    · rw [if_pos (decide_eq_true hint)]
      exact if_congr (and_iff_left hint.2).symm rfl rfl
    · rw [if_neg (by simpa using hint)]
      exact (if_neg (by omega)).symm

/-- One line: its value is returned if it is an entry for the version. -/
theorem gptIniLoop_cons :
    gptIniLoop (decide (sectionHeader before = some generalHeader)) (line :: lines) =
      match versionValue before line with
      | some value => decimalVersion value
      | none =>
        gptIniLoop (decide (sectionHeader (before ++ [line]) = some generalHeader)) lines := by
  rw [gptIniLoop, versionValue, iniEntry_eq, sectionHeader_concat]
  by_cases hheader : (trimmed line).head? = some '['
  -- a header, which is no entry
  · simp only [hheader, if_true, true_or, Option.bind_none, Option.some_inj]
  by_cases hgeneral : sectionHeader before = some generalHeader
  · by_cases hequals : indexOf (trimmed line) '=' < 0
    -- a line without an equals sign
    · simp only [hheader, hgeneral, hequals, if_false, decide_true, Bool.not_true,
        Bool.false_eq_true, true_or, if_true, or_true, Option.bind_none]
    · by_cases hkey : trimmed ((trimmed line).take (indexOf (trimmed line) '=').toNat) = versionKey
      · simp only [hheader, hgeneral, hequals, hkey, if_false, decide_true, Bool.not_true,
          Bool.false_eq_true, false_or, ne_eq, not_true_eq_false, Option.bind_some, true_and,
          if_true]
        exact toIntOk_trimmed _
      -- an entry with another key
      · simp only [hheader, hgeneral, hequals, hkey, if_false, decide_true, Bool.not_true,
          Bool.false_eq_true, false_or, ne_eq, not_false_eq_true, if_true, Option.bind_some,
          false_and]
  -- in another section an entry is not looked at, whatever its key
  · have hnone (entry : Option (QString × QString)) : (entry.bind fun (key, value) =>
        if key = versionKey ∧ sectionHeader before = some generalHeader then some value
        else none) = none := by
      cases entry with
      | none => rfl
      | some entry => exact if_neg fun h => hgeneral h.2
    rw [hnone]
    simp only [hheader, hgeneral, if_false, decide_false, Bool.not_false, if_true]

/-- The loop finds the first entry for the version. -/
theorem gptIniLoop_eq : gptIniLoop (decide (sectionHeader before = some generalHeader)) lines =
    match ((List.range lines.length).filterMap fun i =>
      lines[i]?.bind (versionValue (before ++ lines.take i))).head? with
    | some value => decimalVersion value
    | none => -1 := by
  induction lines generalizing before with
  | nil => rfl
  | cons line lines ih =>
    have hlater : ((List.range lines.length).map Nat.succ).filterMap (fun i =>
        (line :: lines)[i]?.bind (versionValue (before ++ (line :: lines).take i))) =
        (List.range lines.length).filterMap fun i =>
          lines[i]?.bind (versionValue (before ++ [line] ++ lines.take i)) := by
      rw [List.filterMap_map]
      refine List.filterMap_congr fun i _ => ?_
      rw [Function.comp_apply, List.getElem?_cons_succ, List.take_succ_cons, ← List.append_cons]
    rw [gptIniLoop_cons, List.length_cons, List.range_succ_eq_map, List.filterMap_cons, hlater,
      List.take_zero, List.append_nil, List.getElem?_cons_zero, Option.bind_some, ih]
    cases versionValue before line <;> rfl

/-- A line that makes no difference may be left out. -/
theorem gptIniLoop_idle {before' : List QString} (h : IsIdleLine (before' ++ before) line) :
    gptIniLoop (decide (sectionHeader before' = some generalHeader)) (before ++ line :: lines) =
      gptIniLoop (decide (sectionHeader before' = some generalHeader)) (before ++ lines) := by
  induction before generalizing before' with
  | nil =>
    rw [List.append_nil] at h
    have hidle : versionValue before' line = none ∧ (trimmed line).head? ≠ some '[' := by
      -- the line gives no value, and the section stays the same
      rw [versionValue]
      rcases h with hblank | ⟨hheader, hother⟩
      · have hequals : indexOf (trimmed line) '=' < 0 := by
          rw [hblank]
          decide
        rw [iniEntry_eq, if_pos (.inr hequals), hblank]
        exact ⟨rfl, nofun⟩
      · refine ⟨?_, hheader⟩
        cases hentry : iniEntry line with
        | none => rfl
        | some entry =>
          refine if_neg fun hversion => ?_
          exact hother.elim (· hversion.2) (· entry hentry hversion.1)
    rw [List.nil_append, gptIniLoop_cons, hidle.1, sectionHeader_concat, if_neg hidle.2]
    rfl
  | cons first before ih =>
    -- the first line does the same on both sides: it is returned, or the loop goes on after it
    rw [List.append_cons] at h
    rw [List.cons_append, List.cons_append, gptIniLoop_cons, gptIniLoop_cons, ih h]

/-- Carriage returns are trimmed. -/
theorem map_trimmed_eq
    (h : List.Forall₂ (fun line line' => line' = line ∨ line' = line ++ ['\r']) lines lines') :
    lines'.map trimmed = lines.map trimmed := by
  induction h with
  | nil => rfl
  | cons hline _ ih =>
    rw [List.map_cons, List.map_cons, ih]
    rcases hline with rfl | rfl
    · rfl
    · rw [trimmed_append_right (List.forall_mem_singleton.2 rfl)]

end

/-- The version is that of the first entry for it in a section `General`. Carriage returns at the
    ends of lines make no difference to it, and neither does a line that is blank, in another
    section or in none, or not an entry for the version. -/
theorem gptIniGetVersion_reference (text : QString) :
    gptIniGetVersion text = referenceVersion (text.splitOn '\n') ∧
      (∀ text', SameButLineEnds text text' → gptIniGetVersion text' = gptIniGetVersion text) ∧
      ∀ before line after, text.splitOn '\n' = before ++ line :: after → IsIdleLine before line →
        ∀ text', text'.splitOn '\n' = before ++ after →
          gptIniGetVersion text' = gptIniGetVersion text := by
  refine ⟨?_, fun text' h => gptIniLoop_congr (map_trimmed_eq h), ?_⟩
  · exact @gptIniLoop_eq [] (text.splitOn '\n')
  · intro before line after htext hidle text' htext'
    rw [gptIniGetVersion, gptIniGetVersion, htext, htext']
    exact (@gptIniLoop_idle before after line [] hidle).symm

example : gptIniGetVersion
    "[Other]\nVersion=1\n [General] \r\n;Version=2\n Version = 10 \n".toList = 10 := by
  decide

end Admc
