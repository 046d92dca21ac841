import Admc.Schedule

/-!
# The dialog for hours

The dialog shows the grid for a value by the cells that are selected, in local time or in UTC.
When the button between the two is toggled, the value is read back from the grid and loaded
again at the other offset.

A value is read back as it was loaded if the grid has not changed. But of the schedule of a
site link that is too short, the one that allows all hours is loaded instead.

`get_eq_iff`: after any toggles, what was loaded is read back unless it was such a schedule.
-/

namespace Admc

/-- `SITE_LINK_SCHEDULE_TOTAL_SIZE`. -/
def siteLinkScheduleTotalSize : ℕ := 188

/-- `SITE_LINK_SCHEDULE_HEADER_SIZE`. -/
def siteLinkScheduleHeaderSize : ℕ := 20

/-- `sitelink_schedule_header_bytes`. -/
def sitelinkScheduleHeaderBytes : List UInt8 :=
  [0xbc, 0, 0, 0, 0, 0, 0, 0, 0x01, 0, 0, 0, 0, 0, 0, 0, 0x14, 0, 0, 0]

/-- `ScheduleHoursDialog::ScheduleType`. -/
inductive ScheduleType
  | siteLink
  | userLogon
  deriving DecidableEq

/-- `ScheduleHoursDialog`, with the rows and columns of the cells that are selected. -/
structure ScheduleHoursDialog where
  type : ScheduleType
  originalValue : List UInt8
  selected : List (ℕ × ℕ)
  isLocalTime : Bool

namespace ScheduleHoursDialog

/-- The grid for a value. -/
def toBools (type : ScheduleType) (value : List UInt8) (timeOffset : ℤ) : List (List Bool) :=
  match type with
  | .siteLink =>
    let payload := (value.drop siteLinkScheduleHeaderSize).take siteLinkScheduleDataSize
    siteScheduleBytesToBools payload timeOffset
  | .userLogon => logonHoursToBools value timeOffset

/-- The value that `load` takes for the original one. -/
def loadedValue (type : ScheduleType) (value : List UInt8) : List UInt8 :=
  match type with
  | .siteLink =>
    if value.isEmpty || value.length < siteLinkScheduleTotalSize then
      -- create default schedule structure
      sitelinkScheduleHeaderBytes ++
        List.replicate siteLinkScheduleDataSize siteLinkScheduleAllowed
    else value
  | .userLogon => value

/-- The cells that `load` selects. -/
def selectedOf (bools : List (List Bool)) : List (ℕ × ℕ) :=
  (List.range daysInWeek).flatMap fun day =>
    ((List.range hoursInDay).filter fun h => (bools.getD day []).getD h false).map (day, ·)

/-- The grid with the cells that are selected. -/
def gridOf (bools : List (List Bool)) (selected : List (ℕ × ℕ)) : List (List Bool) :=
  selected.foldl (fun bools index => bools.modify index.1 (·.set index.2 true)) bools

section
variable (utcOffset : ℤ) (d : ScheduleHoursDialog)

/-- `ScheduleHoursDialog::get_offset`, for the offset of the local time. -/
def getOffset : ℤ := if d.isLocalTime then utcOffset else 0

/-- `ScheduleHoursDialog::load`. -/
def load (value : List UInt8) : ScheduleHoursDialog :=
  let originalValue := loadedValue d.type value
  { d with
    originalValue := originalValue
    selected := selectedOf (toBools d.type originalValue (d.getOffset utcOffset)) }

/-- `ScheduleHoursDialog::get`. -/
def get : List UInt8 :=
  let bools :=
    match d.type with
    | .siteLink => siteScheduleBytesToBools (List.replicate siteLinkScheduleDataSize 0) 0
    | .userLogon => logonHoursToBools (List.replicate logonHoursSize 0) 0
  let bools := gridOf bools d.selected
  let originalBools := toBools d.type d.originalValue (d.getOffset utcOffset)
  if bools = originalBools then d.originalValue
  else
    match d.type with
    | .siteLink =>
      let scheduleData := boolsToSiteScheduleBytes bools (d.getOffset utcOffset)
      sitelinkScheduleHeaderBytes ++ scheduleData
    | .userLogon => logonHoursToBytes bools (d.getOffset utcOffset)

/-- `ScheduleHoursDialog::on_local_time_button_toggled`. -/
def onLocalTimeButtonToggled (checked : Bool) : ScheduleHoursDialog :=
  let currentValue := d.get utcOffset
  -- the value is taken at the offset from before
  { d with isLocalTime := checked }.load utcOffset currentValue

end

/-- `ScheduleHoursDialog::ScheduleHoursDialog`. -/
def opened (utcOffset : ℤ) (type : ScheduleType) (value : List UInt8) : ScheduleHoursDialog :=
  load utcOffset ⟨type, [], [], true⟩ value

/-! ## Grids and cells -/

/-- A cell of a grid. -/
def cell (bools : List (List Bool)) (day h : ℕ) : Bool := (bools.getD day []).getD h false

section
variable {bools bools' : List (List Bool)} {day h : ℕ}

/-- A grid of a week is given by its cells. -/
theorem isWeek_ext (hbools : IsWeek bools) (hbools' : IsWeek bools')
    (hcell : ∀ day h, day < daysInWeek → h < hoursInDay → cell bools day h = cell bools' day h) :
    bools = bools' := by
  refine List.ext_getElem (hbools.1.trans hbools'.1.symm) fun day hday hday' => ?_
  have hlength := hbools.2 _ (List.getElem_mem hday)
  have hlength' := hbools'.2 _ (List.getElem_mem hday')
  refine List.ext_getElem (hlength.trans hlength'.symm) fun h hh hh' => ?_
  have hsame := hcell day h (hbools.1 ▸ hday) (hlength ▸ hh)
  unfold cell at hsame
  rwa [List.getD_eq_getElem _ _ hday, List.getD_eq_getElem _ _ hday',
    List.getD_eq_getElem _ _ hh, List.getD_eq_getElem _ _ hh'] at hsame

theorem isWeek_select (hbools : IsWeek bools) (index : ℕ × ℕ) :
    IsWeek (bools.modify index.1 (·.set index.2 true)) := by
  refine ⟨by rw [List.length_modify, hbools.1], fun row hrow => ?_⟩
  obtain ⟨i, hi, rfl⟩ := List.mem_iff_getElem.1 hrow
  rw [List.getElem_modify]
  have hlength := hbools.2 _ (List.getElem_mem (by simpa using hi))
  split_ifs
  · rw [List.length_set, hlength]
  · exact hlength

theorem cell_select (hbools : IsWeek bools) (index : ℕ × ℕ) (hday : day < daysInWeek)
    (hh : h < hoursInDay) :
    cell (bools.modify index.1 (·.set index.2 true)) day h =
      (cell bools day h || decide ((day, h) = index)) := by
  obtain ⟨i, j⟩ := index
  have hday' : day < bools.length := hbools.1.symm ▸ hday
  have hh' : h < bools[day].length := (hbools.2 _ (List.getElem_mem hday')).symm ▸ hh
  unfold cell
  rw [List.getD_eq_getElem (bools.modify i _) _ (by rwa [List.length_modify]),
    List.getElem_modify, List.getD_eq_getElem bools _ hday', List.getD_eq_getElem _ _ hh']
  split_ifs with hi
  · rw [List.getD_eq_getElem _ _ (by rwa [List.length_set]), List.getElem_set]
    subst hi
    split_ifs with hj
    · have heq : (i, h) = (i, j) := Prod.ext rfl hj.symm
      rw [decide_eq_true heq, Bool.or_true]
    · have hne : ¬(i, h) = (i, j) := fun heq => hj (Prod.mk.inj heq).2.symm
      rw [decide_eq_false hne, Bool.or_false]
  · have hne : ¬(day, h) = (i, j) := fun heq => hi (Prod.mk.inj heq).1.symm
    rw [List.getD_eq_getElem _ _ hh', decide_eq_false hne, Bool.or_false]

/-- The grid has the cells from before and those that are selected. -/
theorem cell_gridOf (hbools : IsWeek bools) (selected : List (ℕ × ℕ)) :
    IsWeek (gridOf bools selected) ∧ ∀ day h, day < daysInWeek → h < hoursInDay →
      cell (gridOf bools selected) day h = (cell bools day h || decide ((day, h) ∈ selected)) := by
  induction selected generalizing bools with
  | nil => exact ⟨hbools, fun _ _ _ _ => by simp [gridOf]⟩
  | cons index selected ih =>
    obtain ⟨hweek, hcells⟩ := ih (isWeek_select hbools index)
    refine ⟨hweek, fun day h hday hh => ?_⟩
    refine (hcells day h hday hh).trans ?_
    rw [cell_select hbools index hday hh, Bool.or_assoc]
    simp only [List.mem_cons, Bool.decide_or]

theorem mem_selectedOf : (day, h) ∈ selectedOf bools ↔
    day < daysInWeek ∧ h < hoursInDay ∧ cell bools day h = true := by
  simp only [selectedOf, List.mem_flatMap, List.mem_range, List.mem_map, List.mem_filter,
    Prod.mk.injEq]
  constructor
  · rintro ⟨_, hday, _, ⟨hh, hcell⟩, rfl, rfl⟩
    exact ⟨hday, hh, hcell⟩
  · rintro ⟨hday, hh, hcell⟩
    exact ⟨day, hday, h, ⟨hh, hcell⟩, rfl, rfl⟩

/-- The cells of a grid that are selected make up the grid again. -/
theorem gridOf_selectedOf (hbools : IsWeek bools) :
    gridOf (List.replicate daysInWeek (List.replicate hoursInDay false)) (selectedOf bools) =
      bools := by
  have hempty : IsWeek (List.replicate daysInWeek (List.replicate hoursInDay false)) :=
    ⟨List.length_replicate, fun row hrow =>
      (List.eq_of_mem_replicate hrow) ▸ List.length_replicate⟩
  obtain ⟨hweek, hcells⟩ := cell_gridOf hempty (selectedOf bools)
  refine isWeek_ext hweek hbools fun day h hday hh => ?_
  have hfalse : cell (List.replicate daysInWeek (List.replicate hoursInDay false)) day h =
      false := by
    rw [cell]
    rw [List.getD_replicate _ hday, List.getD_replicate _ hh]
  rw [hcells day h hday hh, hfalse, Bool.false_or, Bool.eq_iff_iff, decide_eq_true_iff,
    mem_selectedOf, and_iff_right hday, and_iff_right hh]

end

section
variable {utcOffset : ℤ} {type : ScheduleType} {value : List UInt8} {timeOffset : ℤ}
  {d : ScheduleHoursDialog}

/-- What is shown for a value is a grid of a week. -/
theorem isWeek_toBools : IsWeek (toBools type value timeOffset) := by
  have hchunks : ∀ joined : List Bool, joined.length = daysInWeek * hoursInDay →
      IsWeek (chunks hoursInDay joined) := fun joined hlength =>
    length_chunks (by decide) hlength
  cases type with
  | siteLink =>
    refine hchunks _ ?_
    rw [length_shiftList, List.length_map]
    split_ifs with hlength
    · exact hlength
    · exact List.length_replicate
  | userLogon =>
    refine hchunks _ ?_
    rw [length_shiftList, length_flatMap_byteToBools]
    split_ifs with hlength
    · rw [hlength]
      rfl
    · rfl

/-- The dialog shows the grid for a value that has been loaded. -/
structure Shows (utcOffset : ℤ) (value : List UInt8) (d : ScheduleHoursDialog) : Prop where
  originalValue : d.originalValue = loadedValue d.type value
  selected : d.selected = selectedOf (toBools d.type d.originalValue (d.getOffset utcOffset))

/-- The schedule of a site link that is too short is replaced. -/
theorem loadedValue_siteLink :
    loadedValue .siteLink value = if value.length < siteLinkScheduleTotalSize then
        sitelinkScheduleHeaderBytes ++
          List.replicate siteLinkScheduleDataSize siteLinkScheduleAllowed
      else value := by
  have hshort : (value.isEmpty || decide (value.length < siteLinkScheduleTotalSize)) = true ↔
      value.length < siteLinkScheduleTotalSize := by
    rw [Bool.or_eq_true, decide_eq_true_iff, List.isEmpty_iff]
    refine or_iff_right_of_imp ?_
    rintro rfl
    decide
  rw [loadedValue]
  simp only [hshort]

theorem length_loadedValue_siteLink :
    siteLinkScheduleTotalSize ≤ (loadedValue .siteLink value).length := by
  rw [loadedValue_siteLink]
  split_ifs with hshort
  · rw [List.length_append, List.length_replicate]
    exact le_rfl
  · exact not_lt.1 hshort

theorem loadedValue_eq_iff : loadedValue type value = value ↔
    type = .userLogon ∨ siteLinkScheduleTotalSize ≤ value.length := by
  cases type with
  | userLogon => exact iff_of_true rfl (.inl rfl)
  | siteLink =>
    rw [or_iff_right nofun]
    constructor
    · exact fun heq => heq ▸ length_loadedValue_siteLink
    · intro hlength
      rw [loadedValue_siteLink, if_neg (not_lt.2 hlength)]

theorem loadedValue_loadedValue :
    loadedValue type (loadedValue type value) = loadedValue type value := by
  rw [loadedValue_eq_iff]
  cases type with
  | userLogon => exact .inl rfl
  | siteLink => exact .inr length_loadedValue_siteLink

theorem shows_load : Shows utcOffset value (d.load utcOffset value) := ⟨rfl, rfl⟩

/-- The grid without any cells that are selected. -/
theorem emptyGrid (type : ScheduleType) : (match type with
    | .siteLink => siteScheduleBytesToBools (List.replicate siteLinkScheduleDataSize 0) 0
    | .userLogon => logonHoursToBools (List.replicate logonHoursSize 0) 0) =
    List.replicate daysInWeek (List.replicate hoursInDay false) := by
  cases type <;> decide +kernel

/-- What is shown is read back as it was loaded. -/
theorem Shows.get (h : Shows utcOffset value d) : d.get utcOffset = loadedValue d.type value := by
  rw [ScheduleHoursDialog.get, emptyGrid, h.selected]
  dsimp only
  rw [gridOf_selectedOf isWeek_toBools, if_pos rfl, h.originalValue]

theorem Shows.toggled (h : Shows utcOffset value d) (checked : Bool) :
    Shows utcOffset value (d.onLocalTimeButtonToggled utcOffset checked) := by
  refine ⟨?_, rfl⟩
  rw [ScheduleHoursDialog.onLocalTimeButtonToggled, h.get]
  exact loadedValue_loadedValue

/-- Toggling between local time and UTC leaves a dialog showing what it shows. -/
theorem Shows.toggles (h : Shows utcOffset value d) (toggles : List Bool) :
    Shows utcOffset value (toggles.foldl (ScheduleHoursDialog.onLocalTimeButtonToggled utcOffset)
        d) ∧
      (toggles.foldl (ScheduleHoursDialog.onLocalTimeButtonToggled utcOffset) d).type =
        d.type := by
  induction toggles generalizing d with
  | nil => exact ⟨h, rfl⟩
  | cons checked toggles ih => exact ih (h.toggled checked)

end

/-- After any toggles between local time and UTC, the value that was loaded is read back
    exactly if it is for the hours of a user or long enough for a site link. -/
theorem get_eq_iff (utcOffset : ℤ) (type : ScheduleType) (value : List UInt8)
    (toggles : List Bool) :
    (toggles.foldl (onLocalTimeButtonToggled utcOffset) (opened utcOffset type value)).get
        utcOffset = value ↔
      type = .userLogon ∨ siteLinkScheduleTotalSize ≤ value.length := by
  obtain ⟨hshows, htype⟩ := (shows_load (d := ⟨type, [], [], true⟩)).toggles toggles
  rw [opened, hshows.get, htype]
  exact loadedValue_eq_iff

/-- A schedule of a site link that is not set. -/
theorem get_ne_unset : (opened 0 .siteLink []).get 0 ≠ [] := by
  decide +kernel

end ScheduleHoursDialog

end Admc
