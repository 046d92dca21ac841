import Admc.Lib.Chunks
import Admc.Security.Match
import Mathlib.Data.List.GetD
import Mathlib.Data.List.Rotate

/-!
# Hours of a week

The dialog for the hours at which a user may log on, or a site link replicates, shows a week as
a grid of seven days with 24 hours each. The value of an attribute has a bit or a byte for each
hour, in UTC; the grid is shifted by the offset of the local time.

`schedule_inverse`: the conversions to the grid and back are inverse, for every offset up to a
week.
-/

namespace Admc

/-- `DAYS_IN_WEEK`. -/
def daysInWeek : ℕ := 7

/-- `HOURS_IN_DAY`. -/
def hoursInDay : ℕ := 24

/-- `LOGON_HOURS_SIZE`. -/
def logonHoursSize : ℕ := 21

/-- `SITE_LINK_SCHEDULE_DATA_SIZE`. -/
def siteLinkScheduleDataSize : ℕ := 168

/-- `SITE_LINK_SCHEDULE_ALLOWED`. -/
def siteLinkScheduleAllowed : UInt8 := 0xff

/-- `SITE_LINK_SCHEDULE_DENIED`. -/
def siteLinkScheduleDenied : UInt8 := 0xf0

/-- `shift_list`: a shift by more than the length is none. -/
def shiftList (list : List Bool) (shiftAmount : ℤ) : List Bool :=
  if shiftAmount.natAbs > list.length then list
  else
    (List.range list.length).map fun i : ℕ =>
      let shiftedI := (i : ℤ) - shiftAmount
      let shiftedI :=
        if shiftedI < 0 then shiftedI + list.length
        else if shiftedI ≥ list.length then shiftedI - list.length
        else shiftedI
      list.getD shiftedI.toNat false

/-! ## Logon hours -/

/-- The bits of a byte, as the loop of `logon_hours_to_bools` reads them. The byte is a signed
    number, and becomes one of 32 bits. -/
def byteToBools (byte : UInt8) : List Bool :=
  (List.range 8).map fun bitI => bitmaskIsSet (byte.toBitVec.signExtend 32) (1#32 <<< bitI)

/-- A byte with these bits, as the loop of `logon_hours_to_bytes` makes it. -/
def boolsToByte (byteList : List Bool) : UInt8 :=
  let byte := (List.range 8).foldl (fun byte bitI =>
    bitmaskSet byte (1#32 <<< bitI) (byteList.getD bitI false)) 0#32
  .ofBitVec (byte.setWidth 8)

/-- `logon_hours_to_bools`: a value of another size allows all hours. -/
def logonHoursToBools (byteListArg : List UInt8) (timeOffset : ℤ) : List (List Bool) :=
  let byteList :=
    if byteListArg.length = logonHoursSize then byteListArg
    else List.replicate logonHoursSize 0xff
  let joined := byteList.flatMap byteToBools
  let joined := shiftList joined timeOffset
  chunks hoursInDay joined

/-- `logon_hours_to_bytes`. -/
def logonHoursToBytes (boolList : List (List Bool)) (timeOffset : ℤ) : List UInt8 :=
  let joined := boolList.flatten
  let joined := shiftList joined (-timeOffset)
  (chunks 8 joined).map boolsToByte

/-! ## Schedules of sites -/

/-- `site_schedule_bytes_to_bools`: a value of another size allows all hours. -/
def siteScheduleBytesToBools (byteListArg : List UInt8) (timeOffset : ℤ) : List (List Bool) :=
  let byteList :=
    if byteListArg.length = siteLinkScheduleDataSize then byteListArg
    else List.replicate siteLinkScheduleDataSize siteLinkScheduleAllowed
  let joined := byteList.map fun byte => decide (byte = siteLinkScheduleAllowed)
  let joined := shiftList joined timeOffset
  chunks hoursInDay joined

/-- `bools_to_site_schedule_bytes`. -/
def boolsToSiteScheduleBytes (boolList : List (List Bool)) (timeOffset : ℤ) : List UInt8 :=
  let joined := boolList.flatten
  let joined := shiftList joined (-timeOffset)
  joined.map fun isAllowed => if isAllowed then siteLinkScheduleAllowed else siteLinkScheduleDenied

/-- A grid of a week. -/
def IsWeek (bools : List (List Bool)) : Prop :=
  bools.length = daysInWeek ∧ ∀ day ∈ bools, day.length = hoursInDay

/-! ## Shifts -/

section
variable {list : List Bool} {t : ℤ}

@[simp] theorem length_shiftList : (shiftList list t).length = list.length := by
  rw [shiftList]
  split_ifs
  · rfl
  · rw [List.length_map, List.length_range]

/-- A shift takes the elements from the end to the start. -/
theorem shiftList_eq_rotate (ht : t.natAbs ≤ list.length) :
    shiftList list t = list.rotate (list.length - t).toNat := by
  rw [shiftList, if_neg (not_lt.2 ht)]
  refine List.ext_getElem (by simp) fun i hi _ => ?_
  rw [List.length_map, List.length_range] at hi
  rw [List.getElem_map, List.getElem_range, List.getElem_rotate]
  dsimp only
  -- the index is that of the rotation: it is less than twice or three times the length
  have hindex : (if (i : ℤ) - t < 0 then (i : ℤ) - t + list.length
      else if (i : ℤ) - t ≥ list.length then (i : ℤ) - t - list.length
      else (i : ℤ) - t).toNat = (i + (list.length - t).toNat) % list.length := by
    split_ifs with hneg hlong
    · rw [Nat.mod_eq_of_lt (by omega)]
      omega
    · rw [Nat.mod_eq_sub_mod (by omega), Nat.mod_eq_sub_mod (by omega),
        Nat.mod_eq_of_lt (by omega)]
      omega
    · rw [Nat.mod_eq_sub_mod (by omega), Nat.mod_eq_of_lt (by omega)]
      omega
  have hlt : (i + (list.length - t).toNat) % list.length < list.length :=
    Nat.mod_lt _ (Nat.zero_lt_of_lt hi)
  rw [hindex, List.getD_eq_getElem _ _ hlt]

/-- A shift is undone by the one in the other direction. -/
theorem shiftList_neg_shiftList (ht : t.natAbs ≤ list.length) :
    shiftList (shiftList list t) (-t) = list := by
  have hneg : (-t).natAbs ≤ (shiftList list t).length := by rwa [Int.natAbs_neg, length_shiftList]
  have htwice : (list.length - t).toNat + (list.length - -t).toNat = list.length * 2 := by omega
  rw [shiftList_eq_rotate hneg, length_shiftList, shiftList_eq_rotate ht, List.rotate_rotate,
    htwice, List.rotate_length_mul]

theorem shiftList_shiftList_neg (ht : t.natAbs ≤ list.length) :
    shiftList (shiftList list (-t)) t = list := by
  have hback := @shiftList_neg_shiftList list (-t) (by rwa [Int.natAbs_neg])
  rwa [Int.neg_neg] at hback

end

/-! ## Bits of a byte -/

theorem length_byteToBools (byte : UInt8) : (byteToBools byte).length = 8 := rfl

theorem boolsToByte_byteToBools (byte : UInt8) : boolsToByte (byteToBools byte) = byte := by
  have hall : ∀ bits : BitVec 8, boolsToByte (byteToBools (.ofBitVec bits)) = .ofBitVec bits := by
    decide +kernel
  exact hall byte.toBitVec

theorem byteToBools_boolsToByte {bools : List Bool} (h : bools.length = 8) :
    byteToBools (boolsToByte bools) = bools := by
  match bools, h with
  | [b₀, b₁, b₂, b₃, b₄, b₅, b₆, b₇], _ => decide +revert +kernel

/-! ## The conversions -/

section
variable {bytes : List UInt8} {bools : List (List Bool)} {t : ℤ}

theorem forall_length_byteToBools :
    ∀ part ∈ bytes.map byteToBools, part.length = 8 :=
  List.forall_mem_map.2 fun byte _ => length_byteToBools byte

theorem length_flatMap_byteToBools (bytes : List UInt8) :
    (bytes.flatMap byteToBools).length = bytes.length * 8 := by
  rw [List.flatMap, length_flatten_of_length forall_length_byteToBools, List.length_map]

/-- The bits of bytes are cut into those of each byte again. -/
theorem map_chunks_flatMap_byteToBools :
    (chunks 8 (bytes.flatMap byteToBools)).map boolsToByte = bytes := by
  rw [List.flatMap, chunks_flatten (by decide) forall_length_byteToBools, List.map_map]
  exact List.map_id'' boolsToByte_byteToBools bytes

/-- Bits that are cut into bytes are the bits of these. -/
theorem flatMap_byteToBools_map_chunks {joined : List Bool} {k : ℕ}
    (h : joined.length = k * 8) :
    ((chunks 8 joined).map boolsToByte).flatMap byteToBools = joined := by
  obtain ⟨parts, -, hparts, rfl⟩ := exists_chunks h
  rw [chunks_flatten (by decide) hparts, List.flatMap, List.map_map]
  have hsame : ∀ part ∈ parts, (byteToBools ∘ boolsToByte) part = part := fun part hpart =>
    byteToBools_boolsToByte (hparts part hpart)
  rw [List.map_congr_left hsame, List.map_id']

/-- A grid has the hours of a week. -/
theorem IsWeek.length_flatten (h : IsWeek bools) : bools.flatten.length = 168 := by
  rw [length_flatten_of_length h.2, h.1]
  rfl

theorem logonHours_bytes (hbytes : bytes.length = logonHoursSize) (ht : t.natAbs ≤ 168) :
    logonHoursToBytes (logonHoursToBools bytes t) t = bytes := by
  have hjoined : (bytes.flatMap byteToBools).length = 168 := by
    rw [length_flatMap_byteToBools, hbytes]
    rfl
  have hshifted : (shiftList (bytes.flatMap byteToBools) t).length = daysInWeek * hoursInDay := by
    rw [length_shiftList, hjoined]
    rfl
  rw [logonHoursToBytes, logonHoursToBools, if_pos hbytes, flatten_chunks (by decide),
    shiftList_neg_shiftList (hjoined.symm ▸ ht), map_chunks_flatMap_byteToBools]

theorem logonHours_bools (hbools : IsWeek bools) (ht : t.natAbs ≤ 168) :
    logonHoursToBools (logonHoursToBytes bools t) t = bools := by
  have hjoined := hbools.length_flatten
  have hshifted : (shiftList bools.flatten (-t)).length = logonHoursSize * 8 := by
    rw [length_shiftList, hjoined]
    rfl
  have hbytes : (logonHoursToBytes bools t).length = logonHoursSize := by
    rw [logonHoursToBytes, List.length_map, (length_chunks (by decide) hshifted).1]
  rw [logonHoursToBools, if_pos hbytes, logonHoursToBytes,
    flatMap_byteToBools_map_chunks hshifted, shiftList_shiftList_neg (hjoined.symm ▸ ht),
    chunks_flatten (by decide) hbools.2]

/-- The bytes of a schedule that are allowed or denied, and no other. -/
theorem map_allowed (hbytes : ∀ byte ∈ bytes,
      byte = siteLinkScheduleAllowed ∨ byte = siteLinkScheduleDenied) :
    (bytes.map fun byte => decide (byte = siteLinkScheduleAllowed)).map
      (fun isAllowed => if isAllowed then siteLinkScheduleAllowed else siteLinkScheduleDenied) =
      bytes := by
  rw [List.map_map]
  refine (List.map_congr_left fun byte hbyte => ?_).trans (List.map_id' bytes)
  rcases hbytes byte hbyte with rfl | rfl
  · rfl
  · rfl

theorem map_isAllowed (joined : List Bool) :
    (joined.map fun isAllowed =>
      if isAllowed then siteLinkScheduleAllowed else siteLinkScheduleDenied).map
      (fun byte => decide (byte = siteLinkScheduleAllowed)) = joined := by
  rw [List.map_map]
  refine (List.map_congr_left fun isAllowed _ => ?_).trans (List.map_id' joined)
  cases isAllowed with
  | true => rfl
  | false => rfl

theorem siteSchedule_bytes (hsize : bytes.length = siteLinkScheduleDataSize)
    (hbytes : ∀ byte ∈ bytes, byte = siteLinkScheduleAllowed ∨ byte = siteLinkScheduleDenied)
    (ht : t.natAbs ≤ 168) :
    boolsToSiteScheduleBytes (siteScheduleBytesToBools bytes t) t = bytes := by
  have hjoined : (bytes.map fun byte => decide (byte = siteLinkScheduleAllowed)).length = 168 := by
    rw [List.length_map, hsize]
    rfl
  have hshifted : (shiftList (bytes.map fun byte => decide (byte = siteLinkScheduleAllowed))
      t).length = daysInWeek * hoursInDay := by
    rw [length_shiftList, hjoined]
    rfl
  rw [boolsToSiteScheduleBytes, siteScheduleBytesToBools, if_pos hsize,
    flatten_chunks (by decide), shiftList_neg_shiftList (hjoined.symm ▸ ht),
    map_allowed hbytes]

theorem siteSchedule_bools (hbools : IsWeek bools) (ht : t.natAbs ≤ 168) :
    siteScheduleBytesToBools (boolsToSiteScheduleBytes bools t) t = bools := by
  have hjoined := hbools.length_flatten
  have hsize : (boolsToSiteScheduleBytes bools t).length = siteLinkScheduleDataSize := by
    rw [boolsToSiteScheduleBytes, List.length_map, length_shiftList, hjoined]
    rfl
  rw [siteScheduleBytesToBools, if_pos hsize, boolsToSiteScheduleBytes, map_isAllowed,
    shiftList_shiftList_neg (hjoined.symm ▸ ht), chunks_flatten (by decide) hbools.2]

end

/-- For every offset up to a week, the conversions of logon hours to a grid and back are inverse,
    and so are those of the schedules of sites, for values with no other bytes than those for
    hours that are allowed or denied. -/
theorem schedule_inverse (t : ℤ) (ht : t.natAbs ≤ 168) :
    (∀ bytes : List UInt8, bytes.length = logonHoursSize →
      logonHoursToBytes (logonHoursToBools bytes t) t = bytes) ∧
    (∀ bools, IsWeek bools → logonHoursToBools (logonHoursToBytes bools t) t = bools) ∧
    (∀ bytes : List UInt8, bytes.length = siteLinkScheduleDataSize →
      (∀ byte ∈ bytes, byte = siteLinkScheduleAllowed ∨ byte = siteLinkScheduleDenied) →
      boolsToSiteScheduleBytes (siteScheduleBytesToBools bytes t) t = bytes) ∧
    ∀ bools, IsWeek bools →
      siteScheduleBytesToBools (boolsToSiteScheduleBytes bools t) t = bools :=
  ⟨fun _ hbytes => logonHours_bytes hbytes ht, fun _ hbools => logonHours_bools hbools ht,
    fun _ hsize hbytes => siteSchedule_bytes hsize hbytes ht,
    fun _ hbools => siteSchedule_bools hbools ht⟩

/-- The first hour of a week in UTC, shown at an offset of three hours to the west. -/
theorem schedule_inverse_west :
    logonHoursToBytes (logonHoursToBools (1 :: List.replicate 20 0) (-3)) (-3) =
      1 :: List.replicate 20 0 :=
  (schedule_inverse (-3) (by decide)).1 (1 :: List.replicate 20 0) rfl

/-- That hour is the last but two of Saturday. -/
example : logonHoursToBools (1 :: List.replicate 20 0) (-3) =
    List.replicate 6 (List.replicate 24 false) ++
      [List.replicate 21 false ++ [true, false, false]] := by
  decide +kernel

end Admc
