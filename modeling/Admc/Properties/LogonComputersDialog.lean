import Admc.Properties.TextEdits

/-!
# Computers to log on to

A user may log on to all computers, or to the computers of a list. Both are kept in one text, which
has the computers with commas between them, and is empty for all computers: so is the text of a list
without computers, and a comma that is typed into the name of a computer makes two of them.

* `LogonComputersDialog.separated_of_run`: the names have no commas unless some are typed;
* `LogonComputersDialog.readsBack_run_iff`: when a dialog shows again what it has been closed with,
  after any edits in it.
-/

namespace Admc

/-- The radio buttons of `LogonComputersDialog`, of which one is checked. -/
inductive LogonComputersMode
  | all
  | specified
  deriving DecidableEq

/-- `LogonComputersDialog`, with what is typed into its edit. -/
structure LogonComputersDialog where
  mode : LogonComputersMode
  list : List QString
  edit : QString
  deriving DecidableEq

namespace LogonComputersDialog

/-- `LogonComputersDialog::LogonComputersDialog`. -/
def new (value : QString) : LogonComputersDialog :=
  if !value.isEmpty then
    let valueList := value.splitOn ','
    ⟨.specified, valueList, []⟩
  else ⟨.all, [], []⟩

variable (d : LogonComputersDialog)

/-- `LogonComputersDialog::get`. -/
def get : QString := if d.mode = .all then [] else [','].intercalate d.list

/-- `LogonComputersDialog::on_add_button`. -/
def onAddButton : LogonComputersDialog :=
  let value := d.edit
  if value.isEmpty then d else { d with list := d.list ++ [value], edit := [] }

/-- `LogonComputersDialog::on_remove_button`, for the selected rows. -/
def onRemoveButton (selected : List ℕ) : LogonComputersDialog :=
  { d with list := (d.list.zipIdx.filter fun item => item.2 ∉ selected).map Prod.fst }

/-- What the user does: texts are typed, the buttons are clicked, the latter one with some rows
    selected, and a mode is chosen. -/
inductive Edit
  | type (text : QString)
  | add
  | remove (selected : List ℕ)
  | mode (mode : LogonComputersMode)

/-- An edit by the user. For all computers, only the radio buttons are enabled. -/
def step (d : LogonComputersDialog) : Edit → LogonComputersDialog
  | .type text => if d.mode = .specified then { d with edit := text } else d
  | .add => if d.mode = .specified then d.onAddButton else d
  | .remove selected => if d.mode = .specified then d.onRemoveButton selected else d
  | .mode mode => { d with mode }

/-- A dialog that is opened on a value, after some edits. -/
def run (value : QString) (edits : List Edit) : LogonComputersDialog := edits.foldl step (new value)

/-- A new dialog on what has been accepted has the same mode and the same computers. -/
def ReadsBack : Prop := (new d.get).mode = d.mode ∧ (new d.get).list = d.list

/-- Nothing is listed for all computers; or the list has computers, other than one without a name,
    and there are no commas in their names. -/
def IsReadable : Prop :=
  d.mode = .all ∧ d.list = [] ∨
    d.mode = .specified ∧ d.list ≠ [] ∧ d.list ≠ [[]] ∧ ∀ computer ∈ d.list, ',' ∉ computer

instance : Decidable d.ReadsBack := inferInstanceAs (Decidable (_ ∧ _))

instance : Decidable d.IsReadable := inferInstanceAs (Decidable (_ ∨ _))

/-! ## Runs -/

/-- No name has a comma, neither in the list nor in the edit. -/
def Separated : Prop := (∀ computer ∈ d.list, ',' ∉ computer) ∧ ',' ∉ d.edit

section
variable {d} {value : QString} {edits : List Edit}

theorem separated_new (value : QString) : (new value).Separated := by
  rw [new]
  split_ifs
  · exact ⟨fun computer hcomputer => Path.not_mem_of_mem_splitOn hcomputer, List.not_mem_nil⟩
  · exact ⟨List.forall_mem_nil _, List.not_mem_nil⟩

theorem Separated.onAddButton (h : d.Separated) : d.onAddButton.Separated := by
  rw [LogonComputersDialog.onAddButton]
  split_ifs
  · exact h
  · refine ⟨List.forall_mem_append.2 ⟨h.1, ?_⟩, List.not_mem_nil⟩
    exact List.forall_mem_singleton.2 h.2

theorem Separated.onRemoveButton (h : d.Separated) (selected : List ℕ) :
    (d.onRemoveButton selected).Separated := by
  refine ⟨fun computer hcomputer => ?_, h.2⟩
  obtain ⟨item, hitem, rfl⟩ := List.mem_map.1 hcomputer
  exact h.1 _ (List.fst_mem_of_mem_zipIdx (List.mem_of_mem_filter hitem))

/-- An edit puts no comma into the names, unless one is typed. -/
theorem Separated.step (h : d.Separated) {e : Edit} (he : ∀ text, e = .type text → ',' ∉ text) :
    (d.step e).Separated := by
  cases e with
  | type text =>
    rw [LogonComputersDialog.step]
    split_ifs
    · exact ⟨h.1, he text rfl⟩
    · exact h
  | add =>
    rw [LogonComputersDialog.step]
    split_ifs
    · exact h.onAddButton
    · exact h
  | remove selected =>
    rw [LogonComputersDialog.step]
    split_ifs
    · exact h.onRemoveButton selected
    · exact h
  | mode mode => exact h

/-- The names have no commas as long as none are typed. -/
theorem separated_of_run (hedits : ∀ text, .type text ∈ edits → ',' ∉ text) :
    (run value edits).Separated := by
  have hrun : ∀ d : LogonComputersDialog, d.Separated → (edits.foldl step d).Separated := by
    induction edits with
    | nil => exact fun d h => h
    | cons e edits ih =>
      intro d h
      have he : ∀ text, e = .type text → ',' ∉ text :=
        fun text htext => hedits text (htext ▸ List.mem_cons_self)
      exact ih (fun text htext => hedits text (List.mem_cons_of_mem _ htext)) _ (h.step he)
  exact hrun _ (separated_new value)

/-! ## The text -/

/-- Only a list with no names in it has the empty text. -/
theorem intercalate_eq_nil_iff {list : List QString} :
    [','].intercalate list = [] ↔ list = [] ∨ list = [[]] := by
  match list with
  | [] => exact iff_of_true rfl (.inl rfl)
  | [computer] => simp
  | first :: second :: rest => simp

/-- A user is stored as unrestricted also if the list of computers has no names in it. -/
theorem get_eq_nil_iff : d.get = [] ↔ d.mode = .all ∨ d.list = [] ∨ d.list = [[]] := by
  rw [get]
  split_ifs with hall
  · exact iff_of_true rfl (.inl hall)
  · rw [intercalate_eq_nil_iff, or_iff_right hall]

theorem readsBack_iff : d.ReadsBack ↔ d.IsReadable := by
  rw [ReadsBack, IsReadable, new]
  cases hmode : d.mode with
  | all =>
    have hget : d.get = [] := get_eq_nil_iff.2 (.inl hmode)
    simp only [hget, List.isEmpty_nil, Bool.not_true, Bool.false_eq_true, if_false, true_and,
      reduceCtorEq, false_and, or_false]
    exact eq_comm
  | specified =>
    have hjoin : d.get = [','].intercalate d.list := if_neg (by rw [hmode]; nofun)
    by_cases hnil : d.get = []
    · -- this is opened as all computers
      have hlist : d.list = [] ∨ d.list = [[]] := intercalate_eq_nil_iff.1 (hjoin ▸ hnil)
      refine iff_of_false (fun h => ?_) fun h => ?_
      · rw [hnil] at h
        exact nomatch h.1
      · rcases h with ⟨hall, -⟩ | ⟨-, hne, hne', -⟩
        · exact nomatch hall
        · exact hlist.elim hne hne'
    · have hlist : d.list ≠ [] ∧ d.list ≠ [[]] :=
        not_or.1 fun h => hnil (hjoin.trans (intercalate_eq_nil_iff.2 h))
      rw [if_pos (by simpa using hnil), hjoin]
      simp only [true_and, reduceCtorEq, false_and, false_or, ne_eq, hlist.1, hlist.2,
        not_false_eq_true]
      constructor
      · intro hsplit computer hcomputer
        rw [← hsplit] at hcomputer
        exact Path.not_mem_of_mem_splitOn hcomputer
      · exact fun hcommas => List.splitOn_intercalate ',' hcommas hlist.1

/-- A user with a list of computers stays restricted to them, as long as no commas are typed. -/
theorem readsBack_run_of_specified (hedits : ∀ text, .type text ∈ edits → ',' ∉ text)
    (hmode : (run value edits).mode = .specified)
    (hname : ∃ computer ∈ (run value edits).list, computer ≠ []) : (run value edits).ReadsBack := by
  refine readsBack_iff.2 (.inr ⟨hmode, ?_, ?_, (separated_of_run hedits).1⟩)
  · obtain ⟨computer, hcomputer, -⟩ := hname
    exact List.ne_nil_of_mem hcomputer
  · intro hlist
    obtain ⟨computer, hcomputer, hne⟩ := hname
    rw [hlist, List.mem_singleton] at hcomputer
    exact hne hcomputer

end

/-- After any edits of any value, a new dialog shows what has been accepted exactly if nothing is
    listed for all computers, or the list has names, and these have no commas. -/
theorem readsBack_run_iff (value : QString) (edits : List Edit) :
    (run value edits).ReadsBack ↔ (run value edits).IsReadable := readsBack_iff

/-- The only computer of a user is removed, and the user may log on to all computers. -/
theorem not_readsBack_run :
    (run ['p', 'c'] [.remove [0]]).mode = .specified ∧ (run ['p', 'c'] [.remove [0]]).get = [] ∧
      ¬∀ value edits, (run value edits).ReadsBack := by
  refine ⟨by decide, by decide, fun hall => ?_⟩
  have hreads := hall ['p', 'c'] [.remove [0]]
  exact absurd hreads (by decide)

end LogonComputersDialog

end Admc
