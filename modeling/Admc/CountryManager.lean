import Admc.Text

/-!
# The table of countries

The lines of the table are taken apart by a machine that reads a field in quotes or without them.
It never puts a quote into a field, and the last field is given only if it is not empty.

* `parseLineLoop_csvLine`: what is read of the fields that are written to a line;
* `countryManagerParseLine_iff`: which fields are read as they are written.
-/

namespace Admc

/-! ## Reading -/

/-- The states of `country_manager_parse_line`. -/
inductive CsvState
  | readField
  | readQuotedField
  deriving DecidableEq, Repr

/-- The result, with a field unless it is empty. -/
def appendNonEmpty (result : List QString) (field : QString) : List QString :=
  if field.isEmpty then result else result ++ [field]

/-- The loop of `country_manager_parse_line` over the characters. At the end of a line, the next
    character is left out. -/
def parseLineLoop : CsvState → (field : QString) → (result : List QString) → QString →
    List QString
  | _, field, result, [] => appendNonEmpty result field
  | .readField, field, result, ch :: line =>
    if ch = '"' then parseLineLoop .readQuotedField field result line
    else if ch = ',' then parseLineLoop .readField [] (result ++ [field]) line
    else if ch = '\r' ∨ ch = '\n' then
      match line with
      | [] => appendNonEmpty result field
      | _ :: line => parseLineLoop .readField [] (appendNonEmpty result field) line
    else parseLineLoop .readField (field ++ [ch]) result line
  | .readQuotedField, field, result, ch :: line =>
    if ch = '"' then parseLineLoop .readField field result line
    else parseLineLoop .readQuotedField (field ++ [ch]) result line

/-- `country_manager_parse_line`. -/
def countryManagerParseLine (line : QString) : List QString :=
  parseLineLoop .readField [] [] line

/-! ## Writing -/

/-- The characters of a field in quotes: the quotes are doubled. -/
def doubledQuotes (field : QString) : QString :=
  field.flatMap fun c => if c = '"' then ['"', '"'] else [c]

/-- A field as it is written: in quotes, if there is a comma or a quote in it. -/
def csvField (field : QString) : QString :=
  if ',' ∈ field ∨ '"' ∈ field then '"' :: (doubledQuotes field ++ ['"']) else field

/-- A line of fields. -/
def csvLine (fields : List QString) (lineEnd : QString) : QString :=
  [','].intercalate (fields.map csvField) ++ lineEnd

/-- The field without its quotes. -/
def withoutQuotes (field : QString) : QString := field.filter (· ≠ '"')

/-! ## What is read of a line -/

section
variable {field read : QString} {result fields : List QString} {line lineEnd : QString}

/-- A character outside of quotes that does not end the line. -/
theorem parseLineLoop_readField {ch : Char} (h : ¬(ch = '\r' ∨ ch = '\n')) :
    parseLineLoop .readField read result (ch :: line) =
      if ch = '"' then parseLineLoop .readQuotedField read result line
      else if ch = ',' then parseLineLoop .readField [] (result ++ [read]) line
      else parseLineLoop .readField (read ++ [ch]) result line := by
  cases line <;> simp only [parseLineLoop, h, if_false]

/-- In quotes, all but the quotes is read. -/
theorem parseLineLoop_doubledQuotes :
    parseLineLoop .readQuotedField read result (doubledQuotes field ++ line) =
      parseLineLoop .readQuotedField (read ++ withoutQuotes field) result line := by
  induction field generalizing read with
  | nil => rw [withoutQuotes, List.filter_nil, List.append_nil]; rfl
  | cons c field ih =>
    rw [doubledQuotes, List.flatMap_cons, List.append_assoc]
    by_cases hc : c = '"'
    · -- out of the quotes, and in again
      rw [if_pos hc, withoutQuotes, List.filter_cons_of_neg (by simpa using hc)]
      refine Eq.trans ?_ ih
      rw [List.cons_append, parseLineLoop, if_pos rfl, List.cons_append, List.nil_append,
        parseLineLoop_readField (by decide), if_pos rfl]
      rfl
    · rw [if_neg hc, withoutQuotes, List.filter_cons_of_pos (by simpa using hc),
        List.append_cons]
      refine Eq.trans ?_ ih
      rw [List.cons_append, List.nil_append, parseLineLoop, if_neg hc]
      rfl

/-- Without quotes, all of a field is read that has no comma in it. -/
theorem parseLineLoop_plain (hbreak : '\r' ∉ field ∧ '\n' ∉ field) (hcomma : ',' ∉ field)
    (hquote : '"' ∉ field) : parseLineLoop .readField read result (field ++ line) =
      parseLineLoop .readField (read ++ field) result line := by
  induction field generalizing read with
  | nil => rw [List.append_nil, List.nil_append]
  | cons c field ih =>
    simp only [List.mem_cons, not_or] at hbreak hcomma hquote
    have hend : ¬(c = '\r' ∨ c = '\n') := by
      rintro (rfl | rfl)
      · exact hbreak.1.1 rfl
      · exact hbreak.2.1 rfl
    rw [List.cons_append, parseLineLoop_readField hend, if_neg (Ne.symm hquote.1),
      if_neg (Ne.symm hcomma.1), ih ⟨hbreak.1.2, hbreak.2.2⟩ hcomma.2 hquote.2,
      List.append_assoc]
    rfl

/-- Of a field that is written, all but the quotes is read. -/
theorem parseLineLoop_csvField (hbreak : '\r' ∉ field ∧ '\n' ∉ field) :
    parseLineLoop .readField [] result (csvField field ++ line) =
      parseLineLoop .readField (withoutQuotes field) result line := by
  rw [csvField]
  split_ifs with hquoted
  -- the quotes around the field change the state, and are not read
  · have hopen : ('"' :: (doubledQuotes field ++ ['"'])) ++ line =
        '"' :: (doubledQuotes field ++ '"' :: line) := by
      rw [List.cons_append, List.append_assoc]
      rfl
    rw [hopen, parseLineLoop_readField (by decide), if_pos rfl, parseLineLoop_doubledQuotes,
      List.nil_append, parseLineLoop, if_pos rfl]
  · rw [not_or] at hquoted
    -- there is no quote in the field to lose
    have hsame : withoutQuotes field = field :=
      List.filter_eq_self.2 fun c hc => decide_eq_true fun heq => hquoted.2 (heq ▸ hc)
    rw [parseLineLoop_plain hbreak hquoted.1 hquoted.2, List.nil_append, hsame]

/-- The ends of a line. -/
def IsLineEnd (lineEnd : QString) : Prop :=
  lineEnd = [] ∨ lineEnd = ['\n'] ∨ lineEnd = ['\r', '\n']

theorem parseLineLoop_lineEnd (h : IsLineEnd lineEnd) :
    parseLineLoop .readField read result lineEnd = appendNonEmpty result read := by
  rcases h with rfl | rfl | rfl
  · rfl
  · rfl
  -- the line feed is left out after the carriage return
  · have hend : appendNonEmpty (appendNonEmpty result read) [] = appendNonEmpty result read := rfl
    exact hend

/-- Of the fields of a line, all but the quotes is read, and the last one only if it is not
    empty then. -/
theorem parseLineLoop_csvLine (hbreak : ∀ field ∈ fields, '\r' ∉ field ∧ '\n' ∉ field)
    (hlineEnd : IsLineEnd lineEnd) (field : QString) (hfield : '\r' ∉ field ∧ '\n' ∉ field) :
    parseLineLoop .readField [] result (csvLine (fields ++ [field]) lineEnd) =
      appendNonEmpty (result ++ fields.map withoutQuotes) (withoutQuotes field) := by
  induction fields generalizing result with
  | nil =>
    rw [csvLine, List.nil_append, List.map_singleton, List.intercalate_singleton,
      parseLineLoop_csvField hfield, parseLineLoop_lineEnd hlineEnd, List.map_nil,
      List.append_nil]
  | cons first fields ih =>
    rw [List.forall_mem_cons] at hbreak
    have hrest : (fields ++ [field]).map csvField ≠ [] := by
      rw [ne_eq, List.map_eq_nil_iff]
      exact List.concat_ne_nil _ _
    have hline : csvLine (first :: fields ++ [field]) lineEnd =
        csvField first ++ ',' :: csvLine (fields ++ [field]) lineEnd := by
      -- there is a comma since the line goes on
      rw [csvLine, List.cons_append, List.map_cons, List.intercalate_cons_of_ne_nil hrest,
        List.append_assoc, List.append_assoc]
      rfl
    -- the comma gives the field, be it empty or not
    rw [hline, parseLineLoop_csvField hbreak.1, parseLineLoop_readField (by decide),
      if_neg (by decide), if_pos rfl, ih hbreak.2, List.map_cons, List.append_assoc]
    rfl

/-- A field has no quotes if it is read as it is. -/
theorem withoutQuotes_eq_iff : withoutQuotes field = field ↔ '"' ∉ field := by
  rw [withoutQuotes, List.filter_eq_self]
  simp only [decide_eq_true_eq]
  exact ⟨fun h hmem => h _ hmem rfl, fun h c hc heq => h (heq ▸ hc)⟩

end

/-- The fields that are written to a line are read as they are just if there are no quotes in
    them, and the last one is not empty. -/
theorem countryManagerParseLine_iff {fields : List QString} (hne : fields ≠ [])
    (hbreak : ∀ field ∈ fields, '\r' ∉ field ∧ '\n' ∉ field) {lineEnd : QString}
    (hlineEnd : IsLineEnd lineEnd) :
    countryManagerParseLine (csvLine fields lineEnd) = fields ↔
      (∀ field ∈ fields, '"' ∉ field) ∧ fields.getLast hne ≠ [] := by
  obtain ⟨front, last, rfl⟩ := (List.eq_nil_or_concat' fields).resolve_left hne
  rw [List.forall_mem_append, List.forall_mem_singleton] at hbreak
  rw [countryManagerParseLine, parseLineLoop_csvLine hbreak.1 hlineEnd last hbreak.2,
    List.nil_append, List.getLast_append_singleton, List.forall_mem_append,
    List.forall_mem_singleton, appendNonEmpty]
  split_ifs with hempty
  · -- the last field is missing
    refine iff_of_false (fun h => ?_) fun h => h.2 ?_
    · have hlength := congrArg List.length h
      rw [List.length_append, List.length_map] at hlength
      exact absurd hlength (Nat.ne_of_lt (Nat.lt_succ_self _))
    · rwa [withoutQuotes_eq_iff.2 h.1.2, List.isEmpty_iff] at hempty
  · have hfront : front.map withoutQuotes = front ↔ ∀ field ∈ front, '"' ∉ field := by
      simp only [← withoutQuotes_eq_iff]
      conv_lhs => rw [← List.map_id front, List.map_map, List.map_inj_left]
      rfl
    rw [← hfront, ← withoutQuotes_eq_iff, and_assoc]
    constructor
    · intro h
      -- both sides have one last field
      obtain ⟨hfront, hlast⟩ := List.append_inj' h rfl
      have hlast := List.singleton_inj.1 hlast
      exact ⟨hfront, hlast, fun hnil => hempty (by rw [hlast, hnil]; rfl)⟩
    · rintro ⟨hfront, hlast, -⟩
      rw [hfront, hlast]

/-- A field with a comma, and an empty one. -/
theorem countryManagerParseLine_comma :
    countryManagerParseLine (csvLine [['a', ',', 'b'], [], ['c']] ['\r', '\n']) =
      [['a', ',', 'b'], [], ['c']] :=
  (countryManagerParseLine_iff (List.cons_ne_nil _ _) (by decide) (.inr (.inr rfl))).2 (by decide)

/-- A quote is lost, and so is an empty field at the end. -/
theorem not_countryManagerParseLine :
    countryManagerParseLine (csvLine [['a', '"', 'b']] ['\n']) = [['a', 'b']] ∧
      countryManagerParseLine (csvLine [['a'], []] ['\n']) = [['a']] ∧
      ¬∀ fields lineEnd, fields ≠ [] → (∀ field ∈ fields, '\r' ∉ field ∧ '\n' ∉ field) →
        IsLineEnd lineEnd → countryManagerParseLine (csvLine fields lineEnd) = fields := by
  refine ⟨by decide, by decide, fun hall => ?_⟩
  have hparse := hall [['a'], []] ['\n'] (List.cons_ne_nil _ _) (by decide) (.inr (.inl rfl))
  exact absurd hparse (by decide)

end Admc
