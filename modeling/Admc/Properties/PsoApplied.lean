import Admc.Interface.Flags

/-!
# The password policy of a user

A user can have several password settings objects, of which the one with the lowest number applies.
The label of the account tab tells which one it is. It starts to look for it from the number 0, and
prefers higher numbers.

* `load_cases`: the label shows the first of those with the highest number, if it is positive;
* `showsPolicy_iff`: so it is the right one only if no two numbers are different.
-/

namespace Admc

/-- What the label shows. -/
inductive PsoLabel
  | default
  | notFound
  | applied (pso : AdObject) (directly : Bool)

/-- The text of the label. -/
def PsoLabel.text (tr : String → String) (rt : Runtime) : PsoLabel → String
  | default => tr "Default"
  | notFound => tr "Not found"
  | applied pso directly =>
    pso.getString rt "name" ++ if directly then tr " (directly)" else tr " (via group membership)"

namespace PSOAppliedEdit

variable {σ : Type} (ldap : Ldap σ) (rt : Runtime)

/-- `ATTRIBUTE_MS_DS_PASSWORD_SETTINGS_PRECEDENCE`. -/
def attributePrecedence : String := "msDS-PasswordSettingsPrecedence"

/-- `ATTRIBUTE_PSO_APPLIES_TO`. -/
def attributePsoAppliesTo : String := "msDS-PSOAppliesTo"

/-- The search for an object in the loop of `PSOAppliedEdit::load`. -/
def searchPso (s : σ) (psoDn : String) : σ × AdObject :=
  adSearchObject ldap s psoDn ["name", attributePrecedence, attributePsoAppliesTo] false

/-- `obj_precedence`. -/
def objPrecedence (psoObj : AdObject) : ℤ := (psoObj.getInt rt attributePrecedence).toInt

/-- The comparison in the loop of `PSOAppliedEdit::load`. -/
def pick (best : AdObject × ℤ) (psoObj : AdObject) : AdObject × ℤ :=
  if psoObj.isEmpty then best
  else if objPrecedence rt psoObj > best.2 then (psoObj, objPrecedence rt psoObj)
  else best

/-- The loop of `PSOAppliedEdit::load`. -/
def loadLoop : List String → σ → AdObject × ℤ → σ × AdObject × ℤ
  | [], s, best => (s, best)
  | psoDn :: psoDnList, s, best =>
    let (s, psoObj) := searchPso ldap s psoDn
    loadLoop psoDnList s (pick rt best psoObj)

/-- `PSOAppliedEdit::load`. -/
def load (s : σ) (object : AdObject) : σ × PsoLabel :=
  let psoDnList := object.getStrings rt "msDS-PSOApplied"
  if psoDnList.isEmpty then (s, .default)
  else
    let (s, appliedPsoObj, _) := loadLoop ldap rt psoDnList s (.empty, 0)
    if appliedPsoObj.isEmpty then (s, .notFound)
    else
      let dnAppliedList := appliedPsoObj.getStrings rt attributePsoAppliesTo
      (s, .applied appliedPsoObj (dnAppliedList.contains object.dn))

/-! ## The rule -/

/-- The objects as they are read one after the other. -/
def psoObjects : List String → σ → List AdObject
  | [], _ => []
  | psoDn :: psoDnList, s =>
    (searchPso ldap s psoDn).2 :: psoObjects psoDnList (searchPso ldap s psoDn).1

/-- The objects that can be read. -/
def readable (s : σ) (object : AdObject) : List AdObject :=
  (psoObjects ldap (object.getStrings rt "msDS-PSOApplied") s).filter fun pso => !pso.isEmpty

/-- The number of an object, if it has one. -/
def numberOf (pso : AdObject) : Option ℤ :=
  (pso.getInts rt attributePrecedence).head?.map BitVec.toInt

/-- An object with the lowest number of some; any of them if there are no numbers. -/
structure IsLowest (psos : List AdObject) (pso : AdObject) : Prop where
  mem : pso ∈ psos
  le : ∀ other ∈ psos, ∀ m, numberOf rt other = some m → ∃ n, numberOf rt pso = some n ∧ n ≤ m

/-- The label shows the policy that applies. -/
structure ShowsPolicy (s : σ) (object : AdObject) : Prop where
  default : (load ldap rt s object).2 = .default → object.getStrings rt "msDS-PSOApplied" = []
  notFound : (load ldap rt s object).2 = .notFound → readable ldap rt s object = []
  applied : readable ldap rt s object ≠ [] → ∃ pso, IsLowest rt (readable ldap rt s object) pso ∧
    (load ldap rt s object).2 =
      .applied pso (decide (object.dn ∈ pso.getStrings rt attributePsoAppliesTo))

/-! ## What is picked -/

section
variable {ldap rt} {s : σ} {object pso : AdObject} {psos : List AdObject} {best : AdObject × ℤ}

theorem objPrecedence_eq (pso : AdObject) : objPrecedence rt pso = (numberOf rt pso).getD 0 := by
  rw [objPrecedence, numberOf, AdObject.getInt]
  cases pso.getInts rt attributePrecedence <;> rfl

/-- The loop is one over the objects that can be read. -/
theorem loadLoop_eq (psoDnList : List String) : (loadLoop ldap rt psoDnList s best).2 =
    ((psoObjects ldap psoDnList s).filter fun pso => !pso.isEmpty).foldl (pick rt) best := by
  induction psoDnList generalizing s best with
  | nil => rfl
  | cons psoDn psoDnList ih =>
    rw [loadLoop, psoObjects, ih, List.filter_cons]
    cases hempty : (searchPso ldap s psoDn).2.isEmpty with
    | true => rw [pick, if_pos hempty, if_neg (by simp)]
    | false => rw [if_pos (by rfl), List.foldl_cons]

/-- What a loop over objects keeps: it is as it was, or one of the objects with a higher number, and
    no number is higher. -/
theorem foldl_pick (rt : Runtime) (hreadable : ∀ pso ∈ psos, pso.isEmpty = false)
    (best : AdObject × ℤ) :
    best.2 ≤ (psos.foldl (pick rt) best).2 ∧
      (∀ pso ∈ psos, objPrecedence rt pso ≤ (psos.foldl (pick rt) best).2) ∧
      (psos.foldl (pick rt) best = best ∨ ∃ pso ∈ psos, best.2 < objPrecedence rt pso ∧
        psos.foldl (pick rt) best = (pso, objPrecedence rt pso)) := by
  induction psos generalizing best with
  | nil => exact ⟨le_rfl, nofun, .inl rfl⟩
  | cons pso psos ih =>
    rw [List.forall_mem_cons] at hreadable
    obtain ⟨hle, hall, hpicked⟩ := ih hreadable.2 (pick rt best pso)
    rw [List.foldl_cons, List.forall_mem_cons]
    have hpick : pick rt best pso = if objPrecedence rt pso > best.2 then
        (pso, objPrecedence rt pso) else best :=
      if_neg (by rw [hreadable.1]; exact Bool.false_ne_true)
    rw [hpick] at hle hall hpicked ⊢
    split_ifs at hle hall hpicked ⊢ with hmore
    · refine ⟨hmore.le.trans hle, ⟨hle, hall⟩, .inr ?_⟩
      obtain hsame | ⟨pso', hmem, hlt, heq⟩ := hpicked
      · exact ⟨pso, List.mem_cons_self, hmore, hsame⟩
      · exact ⟨pso', List.mem_cons_of_mem _ hmem, hmore.trans hlt, heq⟩
    · refine ⟨hle, ⟨(not_lt.1 hmore).trans hle, hall⟩, hpicked.imp_right ?_⟩
      rintro ⟨pso', hmem, hlt, heq⟩
      exact ⟨pso', List.mem_cons_of_mem _ hmem, hlt, heq⟩

theorem load_eq (ldap : Ldap σ) (rt : Runtime) (s : σ) (object : AdObject) :
    (load ldap rt s object).2 =
      if (object.getStrings rt "msDS-PSOApplied").isEmpty then .default
      else
        let best := (loadLoop ldap rt (object.getStrings rt "msDS-PSOApplied") s (.empty, 0)).2
        if best.1.isEmpty then .notFound
        else .applied best.1 ((best.1.getStrings rt attributePsoAppliesTo).contains object.dn) := by
  rw [load]
  dsimp only
  split_ifs <;> rfl

/-- The label shows the first of the objects with the highest number, if this is positive. -/
theorem load_cases (ldap : Ldap σ) (rt : Runtime) (s : σ) (object : AdObject) :
    (object.getStrings rt "msDS-PSOApplied" = [] ∧ (load ldap rt s object).2 = .default) ∨
    ((∀ pso ∈ readable ldap rt s object, objPrecedence rt pso ≤ 0) ∧
      (load ldap rt s object).2 = .notFound) ∨
    ∃ pso ∈ readable ldap rt s object, 0 < objPrecedence rt pso ∧
      (∀ other ∈ readable ldap rt s object, objPrecedence rt other ≤ objPrecedence rt pso) ∧
      (load ldap rt s object).2 =
        .applied pso (decide (object.dn ∈ pso.getStrings rt attributePsoAppliesTo)) := by
  have hreadable : ∀ pso ∈ readable ldap rt s object, pso.isEmpty = false := by
    intro pso hpso
    simpa using (List.mem_filter.1 hpso).2
  obtain ⟨-, hall, hpicked⟩ := foldl_pick rt hreadable (.empty, 0)
  rw [readable, ← loadLoop_eq] at hall hpicked
  rw [load_eq]
  dsimp only
  split_ifs with hnone hfound
  · exact .inl ⟨List.isEmpty_iff.1 hnone, rfl⟩
  · obtain hsame | ⟨pso, hpso, -, heq⟩ := hpicked
    · rw [hsame] at hall
      exact .inr (.inl ⟨hall, rfl⟩)
    · rw [heq, hreadable pso hpso] at hfound
      exact absurd hfound Bool.false_ne_true
  · obtain hsame | ⟨pso, hpso, hpos, heq⟩ := hpicked
    · rw [hsame] at hfound
      exact absurd rfl hfound
    · rw [heq] at hall ⊢
      rw [List.contains_eq_mem]
      exact .inr (.inr ⟨pso, hpso, hpos, hall, rfl⟩)

/-- The label shows the policy that applies just if there is none that can be read, or some number,
    which is positive, and the same for all that have one. -/
theorem showsPolicy_iff : ShowsPolicy ldap rt s object ↔
    readable ldap rt s object = [] ∨ ∃ n > 0,
      (∃ pso ∈ readable ldap rt s object, numberOf rt pso = some n) ∧
        ∀ pso ∈ readable ldap rt s object, ∀ m, numberOf rt pso = some m → m = n := by
  have hnumber : ∀ {pso n}, numberOf rt pso = some n → objPrecedence rt pso = n := by
    intro pso n h
    rw [objPrecedence_eq, h]
    rfl
  obtain ⟨hnil, hlabel⟩ | ⟨hall, hlabel⟩ | ⟨pso, hpso, hpos, hmax, hlabel⟩ :=
    load_cases ldap rt s object
  · have hreadable : readable ldap rt s object = [] := by
      rw [readable, hnil]
      rfl
    exact iff_of_true ⟨fun _ => hnil, fun _ => hreadable, fun h => absurd hreadable h⟩
      (.inl hreadable)
  · constructor
    · intro hshows
      exact .inl (hshows.notFound hlabel)
    · rintro (hreadable | ⟨n, hn, ⟨pso, hpso, hsome⟩, -⟩)
      · refine ⟨fun h => ?_, fun _ => hreadable, fun h => absurd hreadable h⟩
        rw [hlabel] at h
        exact nomatch h
      · exact absurd ((hnumber hsome).ge.trans (hall pso hpso)) (not_le.2 hn)
  · have hsome : numberOf rt pso = some (objPrecedence rt pso) := by
      rw [objPrecedence_eq] at hpos ⊢
      cases hnone : numberOf rt pso with
      | none => exact absurd (hnone ▸ hpos) (lt_irrefl _)
      | some n => rfl
    constructor
    · intro hshows
      obtain ⟨pso', hlowest, hlabel'⟩ := hshows.applied (List.ne_nil_of_mem hpso)
      rw [hlabel] at hlabel'
      obtain ⟨rfl, -⟩ := PsoLabel.applied.inj hlabel'
      refine .inr ⟨_, hpos, ⟨pso, hpso, hsome⟩, fun other hother m hm => ?_⟩
      obtain ⟨n, hn, hle⟩ := hlowest.le other hother m hm
      rw [hsome, Option.some_inj] at hn
      exact le_antisymm ((hnumber hm).ge.trans (hmax other hother)) (hn.le.trans hle)
    · rintro (hreadable | ⟨n, hn, -, hsame⟩)
      · exact absurd hreadable (List.ne_nil_of_mem hpso)
      · refine ⟨fun h => ?_, fun h => ?_,
          fun _ => ⟨pso, ⟨hpso, fun other hother m hm => ?_⟩, hlabel⟩⟩
        · rw [hlabel] at h
          exact nomatch h
        · rw [hlabel] at h
          exact nomatch h
        · refine ⟨_, hsome, ?_⟩
          rw [hsame other hother m hm, hsame pso hpso _ hsome]

end

/-- When the label shows the policy that applies. -/
theorem psoApplied_iff {σ : Type} (ldap : Ldap σ) (rt : Runtime) (s : σ) (object : AdObject) :
    ShowsPolicy ldap rt s object ↔
      readable ldap rt s object = [] ∨ ∃ n > 0,
        (∃ pso ∈ readable ldap rt s object, numberOf rt pso = some n) ∧
          ∀ pso ∈ readable ldap rt s object, ∀ m, numberOf rt pso = some m → m = n :=
  showsPolicy_iff

/-! ## Two policies -/

/-- A user, whom two policies apply to. -/
def psoUser : AdObject :=
  ⟨"CN=Anna", [("msDS-PSOApplied", [toUtf8 "CN=Strict", toUtf8 "CN=Lax"])]⟩

/-- A policy with a number. -/
def psoOf (dn : String) (number : BitVec 32) : AdObject :=
  ⟨dn, [(attributePrecedence, numberValues number)]⟩

/-- A server with a policy with the number 10, and one with the number 20. -/
def psoLdap : Ldap Unit where
  search _ request := ((), [.page [(request.base,
    (psoOf request.base (if request.base = "CN=Strict" then 10 else 20)).attributesData)] false])
  createSdControl _ := .success
  createTreeDeleteControl _ := .success
  modifyReplace _ _ _ _ _ := ((), .failure)
  delete _ _ _ := ((), .failure)

theorem numberOf_psoOf (dn : String) (number : BitVec 32) :
    numberOf zeroRuntime (psoOf dn number) = some number.toInt := by
  have hnumber : numberOf zeroRuntime (psoOf dn number) =
      some (valuesNumber zeroRuntime (numberValues number)).toInt := rfl
  rw [hnumber, valuesNumber_numberValues decodesUtf8_zeroRuntime]

/-- The one with the number 20 is shown. -/
theorem not_showsPolicy : ¬ ShowsPolicy psoLdap zeroRuntime () psoUser := by
  have hstrings : psoUser.getStrings zeroRuntime "msDS-PSOApplied" = ["CN=Strict", "CN=Lax"] := by
    simp [AdObject.getStrings, AdObject.getValues, psoUser, decodesUtf8_zeroRuntime _]
  have hreadable : readable psoLdap zeroRuntime () psoUser =
      [psoOf "CN=Strict" 10, psoOf "CN=Lax" 20] := by
    rw [readable, hstrings]
    rfl
  rw [showsPolicy_iff, hreadable]
  rintro (hnil | ⟨n, -, -, hsame⟩)
  · exact absurd hnil (List.cons_ne_nil _ _)
  · have hstrict := hsame _ List.mem_cons_self 10 (numberOf_psoOf _ _)
    have hlax := hsame _ (List.mem_cons_of_mem _ (List.mem_singleton_self _)) 20
      (numberOf_psoOf _ _)
    omega

end PSOAppliedEdit

end Admc
