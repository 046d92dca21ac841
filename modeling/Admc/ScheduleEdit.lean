import Admc.ScheduleDialog

/-!
# Editing the hours of a site link

A schedule of a site link has a header, and a byte for each hour of the week with a bit for each
quarter. The dialog shows an hour as allowed if all its bits are set, and writes all hours back
as allowed or denied, after a header of its own, once a cell is changed.

* `changesOnly_get_iff`: an edit leaves the rest of the schedule as it was just if the header is
  that of the dialog, and all hours whose cells are not changed are allowed or denied.
-/

namespace Admc

/-! ## Hours of the payload -/

/-- The hour of the payload that is shown as an hour of the grid: shifts by more than a week are
    none. -/
def payloadHour (timeOffset : ℤ) (i : ℕ) : ℕ :=
  if timeOffset.natAbs > siteLinkScheduleDataSize then i
  else ((i - timeOffset) % siteLinkScheduleDataSize).toNat

section
variable {t : ℤ} {i k : ℕ} {list : List Bool}

theorem payloadHour_lt (hi : i < siteLinkScheduleDataSize) :
    payloadHour t i < siteLinkScheduleDataSize := by
  rw [payloadHour]
  split_ifs
  · exact hi
  · simp only [siteLinkScheduleDataSize]
    omega

/-- Each hour of the payload is shown. -/
theorem exists_payloadHour (t : ℤ) (hk : k < siteLinkScheduleDataSize) :
    ∃ i < siteLinkScheduleDataSize, payloadHour t i = k := by
  refine ⟨payloadHour (-t) k, payloadHour_lt hk, ?_⟩
  rw [payloadHour, payloadHour, Int.natAbs_neg]
  split_ifs
  · rfl
  · simp only [siteLinkScheduleDataSize] at *
    omega

/-- What is shown as an hour. -/
theorem getElem?_shiftList (hlist : list.length = siteLinkScheduleDataSize)
    (hi : i < siteLinkScheduleDataSize) : (shiftList list t)[i]? = list[payloadHour t i]? := by
  rw [payloadHour]
  split_ifs with ht
  · rw [shiftList, if_pos (hlist ▸ ht)]
  · have hindex : (i + (list.length - t).toNat) % list.length =
        ((i - t) % siteLinkScheduleDataSize).toNat := by
      rw [hlist]
      simp only [siteLinkScheduleDataSize] at ht hi ⊢
      omega
    rw [shiftList_eq_rotate (by omega), List.getElem?_rotate (hlist ▸ hi), hindex]

/-- A shift is undone by the one in the other direction, also if it is too long. -/
theorem shiftList_shiftList_neg_self (t : ℤ) : shiftList (shiftList list (-t)) t = list := by
  by_cases ht : t.natAbs ≤ list.length
  · exact shiftList_shiftList_neg ht
  · have hlong : shiftList list (-t) = list := by
      rw [shiftList, if_pos (by omega)]
    rw [hlong, shiftList, if_pos (by omega)]

end

namespace ScheduleHoursDialog

/-! ## Edits -/

/-- The cells of the grid. -/
def cells : List (ℕ × ℕ) :=
  (List.range daysInWeek).flatMap fun day => (List.range hoursInDay).map (day, ·)

/-- The user selects cells, and takes the selection of others away. -/
def editCells (d : ScheduleHoursDialog) (changed : List (ℕ × ℕ)) : ScheduleHoursDialog :=
  { d with
    selected := cells.filter fun index => decide (index ∈ d.selected) != decide (index ∈ changed) }

/-- The hour of the payload for a cell. -/
def cellHour (timeOffset : ℤ) (index : ℕ × ℕ) : ℕ :=
  payloadHour timeOffset (index.1 * hoursInDay + index.2)

/-- A schedule differs from another one in the payload bytes of some hours only. -/
structure ChangesOnly (hours : ℕ → Prop) (value result : List UInt8) : Prop where
  length : result.length = value.length
  same : ∀ i, (∀ hour, hours hour → i ≠ siteLinkScheduleHeaderSize + hour) →
    result[i]? = value[i]?

section
variable {bools : List (List Bool)} {day h : ℕ}

theorem hourOfWeek_lt (hday : day < daysInWeek) (hh : h < hoursInDay) :
    day * hoursInDay + h < siteLinkScheduleDataSize := by
  simp only [daysInWeek, hoursInDay, siteLinkScheduleDataSize] at *
  omega

/-- Each hour of the payload is that of a cell. -/
theorem exists_cellHour (t : ℤ) {hour : ℕ} (hhour : hour < siteLinkScheduleDataSize) :
    ∃ day h, day < daysInWeek ∧ h < hoursInDay ∧ cellHour t (day, h) = hour := by
  rcases exists_payloadHour t hhour with ⟨i, hi, rfl⟩
  refine ⟨i / hoursInDay, i % hoursInDay, ?_, Nat.mod_lt _ (by decide), ?_⟩
  · exact Nat.div_lt_of_lt_mul hi
  · exact congrArg (payloadHour t) (Nat.div_add_mod' i hoursInDay)

theorem mem_cells : (day, h) ∈ cells ↔ day < daysInWeek ∧ h < hoursInDay := by
  simp [cells]

/-- The cells of a grid, one day after the other. -/
theorem getElem?_flatten (hbools : IsWeek bools) (hday : day < daysInWeek) (hh : h < hoursInDay) :
    bools.flatten[day * hoursInDay + h]? = some (cell bools day h) := by
  have hday' : day < bools.length := hbools.1.symm ▸ hday
  have hh' : h < bools[day].length := (hbools.2 _ (List.getElem_mem hday')).symm ▸ hh
  rw [getElem?_flatten_of_length hbools.2 hh, List.getElem?_eq_getElem hday', Option.bind_some,
    List.getElem?_eq_getElem hh', cell, List.getD_eq_getElem _ _ hday',
    List.getD_eq_getElem _ _ hh']

end

section
variable {utcOffset : ℤ} {value : List UInt8} {bools : List (List Bool)}
  {d : ScheduleHoursDialog} {changed : List (ℕ × ℕ)} {day h : ℕ}

/-- The grid of the cells that are selected. -/
def selectedGrid (d : ScheduleHoursDialog) : List (List Bool) :=
  gridOf (List.replicate daysInWeek (List.replicate hoursInDay false)) d.selected

theorem selectedGrid_spec (d : ScheduleHoursDialog) : IsWeek (selectedGrid d) ∧
    ∀ day h, day < daysInWeek → h < hoursInDay →
      cell (selectedGrid d) day h = decide ((day, h) ∈ d.selected) := by
  have hempty : IsWeek (List.replicate daysInWeek (List.replicate hoursInDay false)) :=
    ⟨List.length_replicate, fun row hrow =>
      (List.eq_of_mem_replicate hrow) ▸ List.length_replicate⟩
  obtain ⟨hweek, hcells⟩ := cell_gridOf hempty d.selected
  refine ⟨hweek, fun day h hday hh => ?_⟩
  rw [selectedGrid, hcells day h hday hh, cell, List.getD_replicate _ hday,
    List.getD_replicate _ hh, Bool.false_or]

theorem get_siteLink (htype : d.type = .siteLink) : d.get utcOffset =
    if selectedGrid d = toBools .siteLink d.originalValue (d.getOffset utcOffset) then
      d.originalValue
    else sitelinkScheduleHeaderBytes ++
      boolsToSiteScheduleBytes (selectedGrid d) (d.getOffset utcOffset) := by
  rw [get, emptyGrid, htype]
  rfl

/-- What is written for an hour. -/
theorem getElem?_boolsToSiteScheduleBytes (hbools : IsWeek bools) (t : ℤ) (hday : day < daysInWeek)
    (hh : h < hoursInDay) : (boolsToSiteScheduleBytes bools t)[cellHour t (day, h)]? =
      some (if cell bools day h then siteLinkScheduleAllowed else siteLinkScheduleDenied) := by
  have hlength : (shiftList bools.flatten (-t)).length = siteLinkScheduleDataSize := by
    rw [length_shiftList, hbools.length_flatten]
    rfl
  have hhour := @getElem?_shiftList t _ _ hlength (hourOfWeek_lt hday hh)
  rw [shiftList_shiftList_neg_self, getElem?_flatten hbools hday hh] at hhour
  rw [boolsToSiteScheduleBytes, List.getElem?_map, cellHour, ← hhour]
  rfl

/-- What is shown for an hour. -/
theorem cell_toBools (hlength : value.length = siteLinkScheduleTotalSize) (t : ℤ)
    (hday : day < daysInWeek) (hh : h < hoursInDay) {byte : UInt8}
    (hbyte : value[siteLinkScheduleHeaderSize + cellHour t (day, h)]? = some byte) :
    cell (toBools .siteLink value t) day h = decide (byte = siteLinkScheduleAllowed) := by
  have hweek : IsWeek (toBools .siteLink value t) := isWeek_toBools
  have hpayload : ((value.drop siteLinkScheduleHeaderSize).take siteLinkScheduleDataSize).length =
      siteLinkScheduleDataSize := by
    rw [List.length_take, List.length_drop, hlength]
    rfl
  have hshifted : (shiftList (((value.drop siteLinkScheduleHeaderSize).take
      siteLinkScheduleDataSize).map fun byte => decide (byte = siteLinkScheduleAllowed)) t).length =
        daysInWeek * hoursInDay := by
    rw [length_shiftList, List.length_map, hpayload]
    rfl
  rw [cellHour] at hbyte
  have hcell := getElem?_flatten hweek hday hh
  rw [toBools, siteScheduleBytesToBools, if_pos hpayload, flatten_chunks (by decide),
    getElem?_shiftList (by rw [List.length_map, hpayload]) (hourOfWeek_lt hday hh),
    List.getElem?_map, List.getElem?_take_of_lt (payloadHour_lt (hourOfWeek_lt hday hh)),
    List.getElem?_drop, hbyte] at hcell
  rw [toBools, siteScheduleBytesToBools, if_pos hpayload]
  exact (Option.some.inj hcell).symm

/-- The dialog shows a whole schedule of a site link. -/
structure ShowsSchedule (utcOffset : ℤ) (value : List UInt8) (d : ScheduleHoursDialog) : Prop where
  type : d.type = .siteLink
  originalValue : d.originalValue = value
  length : value.length = siteLinkScheduleTotalSize
  selected : d.selected = selectedOf (toBools .siteLink value (d.getOffset utcOffset))

/-- Any toggles lead to a dialog that shows the schedule. -/
theorem showsSchedule_toggles (hlength : value.length = siteLinkScheduleTotalSize)
    (toggles : List Bool) : ShowsSchedule utcOffset value
      (toggles.foldl (onLocalTimeButtonToggled utcOffset) (opened utcOffset .siteLink value)) := by
  have hopened : Shows utcOffset value (opened utcOffset .siteLink value) := shows_load
  obtain ⟨hshows, htype⟩ := hopened.toggles toggles
  have hvalue : loadedValue .siteLink value = value := loadedValue_eq_iff.2 (.inr hlength.ge)
  have horiginal := hshows.originalValue
  have hselected := hshows.selected
  rw [htype] at horiginal hselected
  rw [horiginal] at hselected
  exact ⟨htype, horiginal.trans hvalue, hlength, hselected.trans (by rw [opened, load, hvalue])⟩

namespace ShowsSchedule

/-- The cells of the grid after an edit. -/
theorem cell_editCells (hd : ShowsSchedule utcOffset value d) (hday : day < daysInWeek)
    (hh : h < hoursInDay) : cell (selectedGrid (d.editCells changed)) day h =
      (cell (toBools .siteLink value (d.getOffset utcOffset)) day h !=
        decide ((day, h) ∈ changed)) := by
  have hmem : decide ((day, h) ∈ d.selected) =
      cell (toBools .siteLink value (d.getOffset utcOffset)) day h := by
    rw [hd.selected, Bool.eq_iff_iff, decide_eq_true_iff, mem_selectedOf, and_iff_right hday,
      and_iff_right hh]
  rw [(selectedGrid_spec _).2 day h hday hh, editCells, ← hmem, Bool.eq_iff_iff,
    decide_eq_true_iff, List.mem_filter, mem_cells, and_iff_right ⟨hday, hh⟩]

theorem get_eq (hd : ShowsSchedule utcOffset value d) :
    (d.editCells changed).get utcOffset =
      if selectedGrid (d.editCells changed) =
        toBools .siteLink value (d.getOffset utcOffset) then value
      else sitelinkScheduleHeaderBytes ++
        boolsToSiteScheduleBytes (selectedGrid (d.editCells changed)) (d.getOffset utcOffset) := by
  rw [get_siteLink (d := d.editCells changed) hd.type, ← hd.originalValue]
  rfl

/-- Nothing is written if no cell is changed, -/
theorem get_editCells_nil (hd : ShowsSchedule utcOffset value d) :
    (d.editCells []).get utcOffset = value := by
  rw [hd.get_eq, if_pos]
  refine isWeek_ext (selectedGrid_spec _).1 isWeek_toBools fun day h hday hh => ?_
  rw [hd.cell_editCells hday hh, decide_eq_false List.not_mem_nil, Bool.bne_false]

/-- and else all hours are written. -/
theorem get_editCells (hd : ShowsSchedule utcOffset value d)
    (hcells : ∀ index ∈ changed, index.1 < daysInWeek ∧ index.2 < hoursInDay)
    (hne : changed ≠ []) : (d.editCells changed).get utcOffset = sitelinkScheduleHeaderBytes ++
      boolsToSiteScheduleBytes (selectedGrid (d.editCells changed)) (d.getOffset utcOffset) := by
  obtain ⟨index, hindex⟩ := List.exists_mem_of_ne_nil _ hne
  rw [hd.get_eq, if_neg]
  intro hsame
  have hindex' := hcells index hindex
  have hcell := @cell_editCells _ _ _ changed _ _ hd hindex'.1 hindex'.2
  rw [hsame, decide_eq_true hindex, Bool.bne_true] at hcell
  exact (Bool.eq_not_self _).1 hcell

/-- An hour that is not changed is written as allowed or denied. -/
theorem getElem?_get (hd : ShowsSchedule utcOffset value d)
    (hcells : ∀ index ∈ changed, index.1 < daysInWeek ∧ index.2 < hoursInDay)
    (hne : changed ≠ []) {hour : ℕ} (hhour : hour < siteLinkScheduleDataSize)
    (hsame : ∀ index ∈ changed, cellHour (d.getOffset utcOffset) index ≠ hour) {byte : UInt8}
    (hbyte : value[siteLinkScheduleHeaderSize + hour]? = some byte) :
    ((d.editCells changed).get utcOffset)[siteLinkScheduleHeaderSize + hour]? =
      some (if byte = siteLinkScheduleAllowed then siteLinkScheduleAllowed
        else siteLinkScheduleDenied) := by
  rcases exists_cellHour (d.getOffset utcOffset) hhour with ⟨day, h, hday, hh, rfl⟩
  have hmem : (day, h) ∉ changed := fun hmem => hsame _ hmem rfl
  have hheader : siteLinkScheduleHeaderSize = sitelinkScheduleHeaderBytes.length := rfl
  rw [hd.get_editCells hcells hne, hheader,
    List.getElem?_append_right (Nat.le_add_right _ _), Nat.add_sub_cancel_left,
    getElem?_boolsToSiteScheduleBytes (selectedGrid_spec _).1 _ hday hh, hd.cell_editCells hday hh,
    cell_toBools hd.length _ hday hh hbyte, decide_eq_false hmem, Bool.bne_false]
  simp only [decide_eq_true_eq]

/-- An edit of some cells only changes their hours just if the header is that of the dialog and
    the other hours are allowed or denied. -/
theorem changesOnly_editCells_iff (hd : ShowsSchedule utcOffset value d)
    (hcells : ∀ index ∈ changed, index.1 < daysInWeek ∧ index.2 < hoursInDay)
    (hne : changed ≠ []) :
    ChangesOnly (fun hour => ∃ index ∈ changed, cellHour (d.getOffset utcOffset) index = hour) value
        ((d.editCells changed).get utcOffset) ↔
      value.take siteLinkScheduleHeaderSize = sitelinkScheduleHeaderBytes ∧
      ∀ hour < siteLinkScheduleDataSize,
        (∀ index ∈ changed, cellHour (d.getOffset utcOffset) index ≠ hour) →
        value[siteLinkScheduleHeaderSize + hour]? = some siteLinkScheduleAllowed ∨
          value[siteLinkScheduleHeaderSize + hour]? = some siteLinkScheduleDenied := by
  have hsize : value.length = siteLinkScheduleHeaderSize + siteLinkScheduleDataSize := hd.length
  have hhours {hour : ℕ} (hhour : hour < siteLinkScheduleDataSize)
      (hsame : ∀ index ∈ changed, cellHour (d.getOffset utcOffset) index ≠ hour) :
      ((d.editCells changed).get utcOffset)[siteLinkScheduleHeaderSize + hour]? =
          value[siteLinkScheduleHeaderSize + hour]? ↔
        value[siteLinkScheduleHeaderSize + hour]? = some siteLinkScheduleAllowed ∨
          value[siteLinkScheduleHeaderSize + hour]? = some siteLinkScheduleDenied := by
    have hbyte := List.getElem?_eq_getElem
      (show siteLinkScheduleHeaderSize + hour < value.length by omega)
    rw [hd.getElem?_get hcells hne hhour hsame hbyte, hbyte, Option.some.injEq, Option.some.injEq,
      Option.some.injEq]
    split_ifs with hallowed
    · exact iff_of_true hallowed.symm (.inl hallowed)
    · rw [or_iff_right hallowed, eq_comm]
  have hheader (i : ℕ) (hi : i < siteLinkScheduleHeaderSize) :
      ((d.editCells changed).get utcOffset)[i]? = sitelinkScheduleHeaderBytes[i]? := by
    rw [hd.get_editCells hcells hne]
    exact List.getElem?_append_left hi
  constructor
  · rintro ⟨-, hsame⟩
    refine ⟨List.ext_getElem? fun i => ?_, fun hour hhour hunchanged =>
      (hhours hhour hunchanged).1 (hsame _ fun hour' hour'_changed heq => ?_)⟩
    · rcases lt_or_ge i siteLinkScheduleHeaderSize with hi | hi
      · rw [List.getElem?_take_of_lt hi, ← hsame i fun hour _ => by omega, hheader i hi]
      · rw [List.getElem?_eq_none (by rw [List.length_take]; omega), List.getElem?_eq_none hi]
    · rcases hour'_changed with ⟨index, hindex, rfl⟩
      exact hunchanged index hindex (Nat.add_left_cancel heq.symm)
  · rintro ⟨htake, hbytes⟩
    have hlength : ((d.editCells changed).get utcOffset).length = value.length := by
      rw [hd.get_editCells hcells hne, List.length_append, boolsToSiteScheduleBytes,
        List.length_map, length_shiftList, (selectedGrid_spec _).1.length_flatten, hsize]
      rfl
    refine ⟨hlength, fun i hi => ?_⟩
    rcases lt_or_ge i siteLinkScheduleHeaderSize with hlow | hhigh
    · rw [hheader i hlow, ← htake, List.getElem?_take_of_lt hlow]
    obtain ⟨hour, rfl⟩ := Nat.exists_eq_add_of_le hhigh
    rcases lt_or_ge hour siteLinkScheduleDataSize with hhour | hhour
    · have hunchanged (index : ℕ × ℕ) (hindex : index ∈ changed) :
          cellHour (d.getOffset utcOffset) index ≠ hour :=
        fun heq => hi hour ⟨index, hindex, heq⟩ rfl
      exact (hhours hhour hunchanged).2 (hbytes hour hhour hunchanged)
    · rw [List.getElem?_eq_none (by omega), List.getElem?_eq_none (by omega)]

end ShowsSchedule

/-- After any toggles, an edit of some cells changes only the payload bytes of their hours just if
    there are none, or the header is that of the dialog and the other hours are all allowed or
    denied. -/
theorem changesOnly_get_iff (utcOffset : ℤ) (toggles : List Bool) (value : List UInt8)
    (changed : List (ℕ × ℕ)) (hlength : value.length = siteLinkScheduleTotalSize)
    (hcells : ∀ index ∈ changed, index.1 < daysInWeek ∧ index.2 < hoursInDay) :
    let d := toggles.foldl (onLocalTimeButtonToggled utcOffset) (opened utcOffset .siteLink value)
    let hours := fun hour => ∃ index ∈ changed, cellHour (d.getOffset utcOffset) index = hour
    ChangesOnly hours value ((d.editCells changed).get utcOffset) ↔
      changed = [] ∨
      value.take siteLinkScheduleHeaderSize = sitelinkScheduleHeaderBytes ∧
      ∀ hour < siteLinkScheduleDataSize, ¬ hours hour →
        value[siteLinkScheduleHeaderSize + hour]? = some siteLinkScheduleAllowed ∨
          value[siteLinkScheduleHeaderSize + hour]? = some siteLinkScheduleDenied := by
  intro d hours
  have hd : ShowsSchedule utcOffset value d := showsSchedule_toggles hlength toggles
  rcases changed with _ | ⟨index, changed⟩
  · rw [hd.get_editCells_nil]
    exact iff_of_true ⟨rfl, fun i _ => rfl⟩ (.inl rfl)
  · rw [hd.changesOnly_editCells_iff hcells (List.cons_ne_nil _ _),
      or_iff_right (List.cons_ne_nil _ _)]
    simp only [hours, not_exists, not_and, ne_eq]

/-- Denying the first hour of a week that is allowed changes the byte of that hour only. -/
theorem changesOnly_get_firstHour :
    let value := sitelinkScheduleHeaderBytes ++
      List.replicate siteLinkScheduleDataSize siteLinkScheduleAllowed
    let d := opened 0 .siteLink value
    ChangesOnly (fun hour => ∃ index ∈ [(0, 0)], cellHour (d.getOffset 0) index = hour) value
      ((d.editCells [(0, 0)]).get 0) := by
  refine (changesOnly_get_iff 0 [] _ [(0, 0)] rfl ?_).2 (.inr ⟨rfl, fun hour hhour _ => .inl ?_⟩)
  · decide
  · have hheader : siteLinkScheduleHeaderSize = sitelinkScheduleHeaderBytes.length := rfl
    rw [hheader, List.getElem?_append_right (Nat.le_add_right _ _), Nat.add_sub_cancel_left,
      List.getElem?_replicate_of_lt hhour]

/-- But if only some quarters of the hour before are allowed, changing an hour denies them. -/
theorem not_changesOnly_get_quarters :
    let value := sitelinkScheduleHeaderBytes ++
      0xf1 :: List.replicate 167 siteLinkScheduleAllowed
    let d := opened 0 .siteLink value
    ¬ ChangesOnly (fun hour => ∃ index ∈ [(0, 1)], cellHour (d.getOffset 0) index = hour) value
      ((d.editCells [(0, 1)]).get 0) := by
  intro value d hchanges
  have hd : ShowsSchedule 0 value d := showsSchedule_toggles rfl []
  obtain ⟨-, hhours⟩ := (hd.changesOnly_editCells_iff (by decide) (by decide)).1 hchanges
  -- the hour before is the first one of the payload
  rcases hhours 0 (by decide) (by decide) with hallowed | hdenied
  · exact absurd (Option.some.inj hallowed) (by decide)
  · exact absurd (Option.some.inj hdenied) (by decide)

end

end ScheduleHoursDialog

end Admc
