import Admc.Properties.PasswordSettings

/-!
# Intervals of password settings

The ages and the lockout times of passwords are kept as time spans, and shown as a number of days
or minutes by spin boxes that end at 99. All that is not a whole number of these units, or is
longer, is lost, among it the time span that never ends.

* `value_update_iff`: without an edit, an interval is written as it was just if it is a whole
  number of units, and at most 99 of them.
-/

namespace Admc

namespace PSOEditWidget

/-- An attribute with an interval, the milliseconds of its unit, and its spin box. -/
structure IntervalBox where
  attr : String
  millis : ℤ
  box : PSOEditWidget → ℤ

/-- The spin boxes for intervals. -/
def intervalBoxes : List IntervalBox :=
  [⟨"msDS-LockoutDuration", 60000, lockoutDuration⟩,
    ⟨"msDS-LockoutObservationWindow", 60000, resetLockout⟩,
    ⟨"msDS-MinimumPasswordAge", 86400000, minAge⟩,
    ⟨"msDS-MaximumPasswordAge", 86400000, maxAge⟩]

section
variable {rt : Runtime} {w : PSOEditWidget} {object : AdObject} {box : IntervalBox} {v k : ℤ}

/-! ## The spin boxes -/

theorem spinBoxValue_mem (value : ℤ) :
    0 ≤ spinBoxValue 0 value 99 ∧ spinBoxValue 0 value 99 ≤ 99 := by
  rw [spinBoxValue]
  omega

/-- Hours are rounded towards zero, and then days. -/
theorem tdiv_hours_days (millis : ℤ) :
    (millis.tdiv 3600000).tdiv 24 = millis.tdiv 86400000 := by
  have hnonneg {m : ℤ} (hm : 0 ≤ m) : (m.tdiv 3600000).tdiv 24 = m.tdiv 86400000 := by
    have hhours : 0 ≤ m / 3600000 := by omega
    rw [Int.tdiv_eq_ediv_of_nonneg hm, Int.tdiv_eq_ediv_of_nonneg hhours,
      Int.tdiv_eq_ediv_of_nonneg hm]
    omega
  rcases le_total 0 millis with hmillis | hmillis
  · exact hnonneg hmillis
  · have hneg := hnonneg (Int.neg_nonneg_of_nonpos hmillis)
    rw [Int.neg_tdiv, Int.neg_tdiv, Int.neg_tdiv] at hneg
    exact Int.neg_inj.1 hneg

/-- The unit of an interval is a minute or a day. -/
theorem millis_of_mem (hbox : box ∈ intervalBoxes) :
    box.millis = 60000 ∨ box.millis = 86400000 := by
  simp only [intervalBoxes, List.mem_cons, List.not_mem_nil, or_false] at hbox
  rcases hbox with rfl | rfl | rfl | rfl
  · exact .inl rfl
  · exact .inl rfl
  · exact .inr rfl
  · exact .inr rfl

/-- What a spin box shows of an object. -/
theorem box_update (hbox : box ∈ intervalBoxes) : box.box (w.update rt object) =
    spinBoxValue 0 (Int.bmod ((adTimeUnitsToMiliseconds rt (object.getValue
      (replaceAttribute box.attr (object.attributesData.contains attributePwdProperties)))).tdiv
        box.millis) (2 ^ 32)) 99 := by
  have hdays (value : QByteArray) : adTimeUnitsToDays rt value =
      Int.bmod ((adTimeUnitsToMiliseconds rt value).tdiv 86400000) (2 ^ 32) := by
    rw [adTimeUnitsToDays, tdiv_hours_days]
  simp only [intervalBoxes, List.mem_cons, List.not_mem_nil, or_false] at hbox
  rcases hbox with rfl | rfl | rfl | rfl
  · rfl
  · rfl
  · exact congrArg (spinBoxValue 0 · 99) (hdays _)
  · exact congrArg (spinBoxValue 0 · 99) (hdays _)

/-- What is written for a spin box. -/
theorem value_box (hbox : box ∈ intervalBoxes) :
    w.psoSettingsValues.value (replaceAttribute box.attr w.isGlobal) [] =
      [numberBytes (-(box.box w * box.millis) * millisTo100Nanos)] := by
  simp only [intervalBoxes, List.mem_cons, List.not_mem_nil, or_false] at hbox
  rw [psoSettingsValues]
  cases hglobal : w.isGlobal with
  | false =>
    rcases hbox with rfl | rfl | rfl | rfl <;>
    · simp +decide only [if_false, QHash.value_insert]
      rfl
  | true =>
    rcases hbox with rfl | rfl | rfl | rfl <;>
    · simp +decide only [if_true, QHash.value_insert]
      rfl

/-- Whatever is stored, a number of units is written, -/
theorem value_update (hbox : box ∈ intervalBoxes) :
    (w.update rt object).psoSettingsValues.value
        (replaceAttribute box.attr (object.attributesData.contains attributePwdProperties)) [] =
      [numberBytes (-(box.box (w.update rt object) * (box.millis * millisTo100Nanos)))] := by
  rw [← Int.mul_assoc, ← Int.neg_mul]
  exact value_box hbox

/-- and it is at most 99. -/
theorem box_update_mem (hbox : box ∈ intervalBoxes) :
    0 ≤ box.box (w.update rt object) ∧ box.box (w.update rt object) ≤ 99 := by
  rw [box_update hbox]
  exact spinBoxValue_mem _

/-! ## Whole numbers of units -/

/-- A number that is written is read again. -/
theorem toLongLong_numberBytes (hrt : rt.DecodesUtf8) (hmin : -2 ^ 63 ≤ v) (hmax : v < 2 ^ 63) :
    toLongLong (rt.fromUtf8 (numberBytes v)).toList = v := by
  rw [numberBytes, hrt, String.toList_ofList]
  exact toLongLong_number hmin hmax

theorem numberBytes_inj (hrt : rt.DecodesUtf8) (hv : -2 ^ 63 ≤ v ∧ v < 2 ^ 63)
    (hk : -2 ^ 63 ≤ k ∧ k < 2 ^ 63) : numberBytes v = numberBytes k ↔ v = k := by
  refine ⟨fun hsame => ?_, congrArg numberBytes⟩
  rw [← toLongLong_numberBytes hrt hv.1 hv.2, hsame, toLongLong_numberBytes hrt hk.1 hk.2]

/-- A spin box shows so many units as it should. -/
theorem spinBoxValue_units (hmillis : box.millis = 60000 ∨ box.millis = 86400000) (hk : 0 ≤ k)
    (hk' : k ≤ 99) : spinBoxValue 0 (Int.bmod (((Int.bmod (k * (box.millis * millisTo100Nanos))
      (2 ^ 64)).tdiv millisTo100Nanos).tdiv box.millis) (2 ^ 32)) 99 = k := by
  have hunits : k * (box.millis * millisTo100Nanos) = k * box.millis * millisTo100Nanos :=
    (Int.mul_assoc _ _ _).symm
  have hbound : 0 ≤ k * box.millis ∧ k * box.millis ≤ 99 * 86400000 := by
    rcases hmillis with hmillis | hmillis
    · rw [hmillis]
      omega
    · rw [hmillis]
      omega
  have hwrap : Int.bmod (k * box.millis * millisTo100Nanos) (2 ^ 64) =
      k * box.millis * millisTo100Nanos := by
    rw [millisTo100Nanos]
    exact Int.bmod_eq_of_le (by omega) (by omega)
  have hnarrow : Int.bmod k (2 ^ 32) = k := Int.bmod_eq_of_le (by omega) (by omega)
  rw [hunits, hwrap, Int.mul_tdiv_cancel _ (by decide), Int.mul_tdiv_cancel _ (by omega), hnarrow,
    spinBoxValue]
  omega

theorem unit_of_mem (hbox : box ∈ intervalBoxes) :
    box.millis * millisTo100Nanos = 600000000 ∨ box.millis * millisTo100Nanos = 864000000000 :=
  (millis_of_mem hbox).imp (congrArg (· * millisTo100Nanos)) (congrArg (· * millisTo100Nanos))

/-- What is written is the number of units that is shown. -/
theorem value_update_eq_iff (hrt : rt.DecodesUtf8) (hbox : box ∈ intervalBoxes)
    (hv : -2 ^ 63 ≤ v ∧ v < 2 ^ 63) : (w.update rt object).psoSettingsValues.value
        (replaceAttribute box.attr (object.attributesData.contains attributePwdProperties)) [] =
      [numberBytes v] ↔
        -(box.box (w.update rt object) * (box.millis * millisTo100Nanos)) = v := by
  obtain ⟨hnonneg, hle⟩ := @box_update_mem rt w object _ hbox
  rw [value_update hbox, List.cons_eq_cons, and_iff_left rfl]
  refine numberBytes_inj hrt ?_ hv
  rcases unit_of_mem hbox with hunit | hunit <;> rw [hunit] <;> omega

/-- Longer intervals are not written, whatever was stored. -/
theorem value_update_ne (hrt : rt.DecodesUtf8) (hbox : box ∈ intervalBoxes) (hmin : -2 ^ 63 ≤ v)
    (hv : v < -(99 * (box.millis * millisTo100Nanos))) :
    (w.update rt object).psoSettingsValues.value
        (replaceAttribute box.attr (object.attributesData.contains attributePwdProperties)) [] ≠
      [numberBytes v] := by
  have hunit := unit_of_mem hbox
  obtain ⟨-, hle⟩ := @box_update_mem rt w object _ hbox
  rw [ne_eq, value_update_eq_iff hrt hbox ⟨hmin, by omega⟩]
  refine ne_of_gt (lt_of_lt_of_le hv (Int.neg_le_neg ?_))
  exact Int.mul_le_mul_of_nonneg_right hle (by omega)

end

/-- Without an edit, an interval is written as it was just if it is a whole number of days or
    minutes, and at most 99 of them. -/
theorem value_update_iff (rt : Runtime) (hrt : rt.DecodesUtf8) (w : PSOEditWidget)
    (object : AdObject) (box : IntervalBox) (hbox : box ∈ intervalBoxes) (v : ℤ)
    (hmin : -2 ^ 63 ≤ v) (hmax : v ≤ 0) :
    let attr := replaceAttribute box.attr (object.attributesData.contains attributePwdProperties)
    let unit := box.millis * millisTo100Nanos
    object.getValue attr = numberBytes v →
    ((w.update rt object).psoSettingsValues.value attr [] = [numberBytes v] ↔
      unit ∣ v ∧ -(99 * unit) ≤ v) := by
  intro attr unit hvalue
  have hshown : box.box (w.update rt object) = spinBoxValue 0 (Int.bmod (((Int.bmod (-v)
      (2 ^ 64)).tdiv millisTo100Nanos).tdiv box.millis) (2 ^ 32)) 99 := by
    rw [box_update hbox, adTimeUnitsToMiliseconds, hvalue,
      toLongLong_numberBytes hrt hmin (by omega)]
  have hunit : unit = 600000000 ∨ unit = 864000000000 := unit_of_mem hbox
  have hwritten := @value_update_eq_iff rt w object box v hrt hbox ⟨hmin, by omega⟩
  constructor
  · intro hsame
    refine ⟨⟨-box.box (w.update rt object), ?_⟩,
      not_lt.1 fun hlong => value_update_ne hrt hbox hmin hlong hsame⟩
    rw [← hwritten.1 hsame, Int.mul_neg, Int.mul_comm]
  · rintro ⟨⟨m, hm⟩, hfits⟩
    have hcount : 0 ≤ -m ∧ -m ≤ 99 := by
      rw [hm] at hmax hfits
      rcases hunit with hunit | hunit <;> rw [hunit] at hmax hfits <;> omega
    have hv : -v = -m * unit := by rw [hm, Int.neg_mul, Int.mul_comm]
    have hshows : box.box (w.update rt object) = -m := by
      rw [hshown, hv]
      exact spinBoxValue_units (millis_of_mem hbox) hcount.1 hcount.2
    rw [hwritten, hshows, ← Int.neg_neg v, hv]

/-- Passwords that are to be changed after 42 days. -/
theorem value_update_fortyTwoDays :
    (empty.update zeroRuntime ⟨"CN=settings", [("msDS-MaximumPasswordAge",
      [numberBytes (-(42 * 864000000000))])]⟩).psoSettingsValues.value
        "msDS-MaximumPasswordAge" [] = [numberBytes (-(42 * 864000000000))] :=
  (value_update_iff zeroRuntime decodesUtf8_zeroRuntime empty
    ⟨"CN=settings", [("msDS-MaximumPasswordAge", [numberBytes (-(42 * 864000000000))])]⟩
    ⟨"msDS-MaximumPasswordAge", 86400000, maxAge⟩ (by simp [intervalBoxes]) _ (by decide)
    (by decide) rfl).2 (by decide)

/-- Passwords that never have to be changed. -/
theorem not_value_update_never :
    (empty.update zeroRuntime ⟨"CN=settings", [("msDS-MaximumPasswordAge",
      [numberBytes (-2 ^ 63)])]⟩).psoSettingsValues.value "msDS-MaximumPasswordAge" [] ≠
        [numberBytes (-2 ^ 63)] :=
  value_update_ne decodesUtf8_zeroRuntime
    (show ⟨"msDS-MaximumPasswordAge", 86400000, maxAge⟩ ∈ intervalBoxes by simp [intervalBoxes])
    (by decide) (by decide)

end PSOEditWidget

end Admc
