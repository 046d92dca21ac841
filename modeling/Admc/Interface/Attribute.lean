import Admc.Interface.Server

/-!
# Replacing the values of an attribute

`AdInterface::attribute_replace_values` reads the old values first, and sends no
request if both they and the new values are empty. But the old values are also
empty when the read fails, when it does not return the attribute, and when the
server spells the DN of the object in another way than the caller: then the
function reports a success, and what is stored stays.

`reportsTruth_iff`: what it reports is true unless the new values are empty, there
are stored ones, and the read gives none of them under the DN of the caller.
-/

namespace Admc

variable {σ : Type}

section
variable (ldap : Ldap σ)

/-- `AdInterface::attribute_replace_values`: whether it has succeeded. -/
def attributeReplaceValues (s : σ) (dn attr : String) (values : List QByteArray)
    (setDacl : Bool) : σ × Bool :=
  let (s, object) := adSearchObject ldap s dn [attr] false
  let oldValues := object.getValues attr
  -- do nothing if both new and old values are empty
  if oldValues.isEmpty && values.isEmpty then (s, true)
  else if setDacl && ldap.createSdControl s ≠ .success then (s, false)
  else
    let (s, result) := ldap.modifyReplace s dn attr values setDacl
    (s, result = .success)

/-- `value_to_list`. -/
def valueToList (value : QByteArray) : List QByteArray := if value.isEmpty then [] else [value]

/-- `AdInterface::attribute_replace_value`. -/
def attributeReplaceValue (s : σ) (dn attr : String) (value : QByteArray) (setDacl : Bool) :
    σ × Bool :=
  attributeReplaceValues ldap s dn attr (valueToList value) setDacl

/-- `AdInterface::attribute_replace_string`. -/
def attributeReplaceString (s : σ) (dn attr value : String) : σ × Bool :=
  attributeReplaceValue ldap s dn attr (toUtf8 value) false

end

/-! ## Directories -/

/-- A server with what it stores: the values of the attributes of the object that a DN
    denotes, and how it spells the DN of this object. Searches change neither, and name
    the object they are for in this spelling; replacing values with success stores them. -/
structure Directory (σ : Type) extends Ldap σ where
  values : σ → (dn attr : String) → List QByteArray
  spelling : σ → String → String
  values_search : ∀ s request, values (search s request).1 = values s
  search_spelling : ∀ s request, request.scope = .object → ∀ entries morePages,
    .page entries morePages ∈ (search s request).2 →
      ∀ entry ∈ entries, entry.1 = spelling s request.base
  values_modifyReplace : ∀ s dn attr new sdControl,
    (modifyReplace s dn attr new sdControl).2 = .success →
      values (modifyReplace s dn attr new sdControl).1 dn attr = new

namespace Directory

variable (dir : Directory σ)

/-- A report is true if, when it says success, the attribute has the values. -/
def ReportsTruth (dn attr : String) (values : List QByteArray) (report : σ × Bool) : Prop :=
  report.2 = true → dir.values report.1 dn attr = values

/-- The read of an attribute gives some value of it. -/
def ReadsValue (s : σ) (dn attr : String) : Prop :=
  ((searchResults (dir.search s ⟨dn, .object, "", [attr], false⟩).2).value (dir.spelling s dn)
    .empty).getValues attr ≠ []

/-- Something is written or there is nothing to clear; or the read gives a value, and the
    DN is spelled as the server spells it. -/
def WritesOrReads (s : σ) (dn attr : String) (values : List QByteArray) : Prop :=
  values ≠ [] ∨ dir.values s dn attr = [] ∨
    dn = dir.spelling s dn ∧ dir.ReadsValue s dn attr

variable {dir} {s : σ} {dn attr : String} {values : List QByteArray} {setDacl : Bool}

/-- The old values that are read are those of the object, if its DN is spelled as the
    server spells it. -/
theorem getValues_searchObject_ne_nil :
    (adSearchObject dir.toLdap s dn [attr] false).2.getValues attr ≠ [] ↔
      dn = dir.spelling s dn ∧ dir.ReadsValue s dn attr := by
  rw [adSearchObject, adSearch, ReadsValue]
  refine ⟨fun h => ?_, fun ⟨hdn, h⟩ => by rwa [← hdn] at h⟩
  have hkey : dn ∈ (searchResults (dir.search s ⟨dn, .object, "", [attr], false⟩).2).keys := by
    by_contra hkey
    exact h (by simp only [QHash.value_of_not_mem_keys hkey]; rfl)
  have hdn : dn = dir.spelling s dn :=
    mem_keys_searchResults (P := (· = dir.spelling s dn)) (dir.search_spelling s _ rfl) dn hkey
  exact ⟨hdn, by rwa [← hdn]⟩

theorem attributeReplaceValues_truth :
    dir.ReportsTruth dn attr values
        (attributeReplaceValues dir.toLdap s dn attr values setDacl) ↔
      dir.WritesOrReads s dn attr values := by
  rw [WritesOrReads, ← getValues_searchObject_ne_nil]
  have hstored : dir.values (adSearchObject dir.toLdap s dn [attr] false).1 = dir.values s :=
    dir.values_search s _
  rw [ReportsTruth, attributeReplaceValues]
  simp only [Bool.and_eq_true, List.isEmpty_iff]
  split_ifs with hempty hcontrol
  · -- no request: the report is true if there was nothing to clear
    simp only [hempty, hstored, ne_eq, not_true_eq_false, false_or, or_false, true_implies]
  · refine iff_of_true (fun h => absurd h (by simp)) ?_
    tauto
  · refine iff_of_true (fun h => dir.values_modifyReplace _ _ _ _ _ (of_decide_eq_true h)) ?_
    tauto

/-- Replacing the values of an attribute, or its single value, or clearing it through an
    empty value, reports the truth exactly when something is written, or there is nothing
    to clear, or the read gives a value under the DN of the caller. -/
theorem reportsTruth_iff (dir : Directory σ) (s : σ) (dn attr : String) :
    (∀ values setDacl, dir.ReportsTruth dn attr values
        (attributeReplaceValues dir.toLdap s dn attr values setDacl) ↔
      dir.WritesOrReads s dn attr values) ∧
    (∀ value setDacl, dir.ReportsTruth dn attr (valueToList value)
        (attributeReplaceValue dir.toLdap s dn attr value setDacl) ↔
      dir.WritesOrReads s dn attr (valueToList value)) ∧
    (∀ value, dir.ReportsTruth dn attr (valueToList (toUtf8 value))
        (attributeReplaceString dir.toLdap s dn attr value) ↔
      dir.WritesOrReads s dn attr (valueToList (toUtf8 value))) :=
  ⟨fun _ _ => attributeReplaceValues_truth, fun _ _ => attributeReplaceValues_truth,
    fun _ => attributeReplaceValues_truth⟩

/-- A directory of one object with one attribute, which may not be readable. -/
def single (isReadable : Bool) : Directory (List QByteArray) where
  search s _ :=
    (s, if isReadable then [.page [("CN=user,DC=domain", [("description", s)])] false]
      else [.failure])
  createSdControl _ := .success
  createTreeDeleteControl _ := .success
  modifyReplace _ _ _ new _ := (new, .success)
  delete s _ _ := (s, .failure)
  values s _ _ := s
  spelling _ _ := "CN=user,DC=domain"
  values_search _ _ := rfl
  search_spelling _ _ _ entries morePages h entry hentry := by
    cases isReadable with
    | true =>
      simp only [if_true, List.mem_singleton, PageAnswer.page.injEq] at h
      rw [h.1, List.mem_singleton] at hentry
      rw [hentry]
    | false => exact absurd (List.mem_singleton.1 h) nofun
  values_modifyReplace _ _ _ _ _ _ := rfl

/-- Clearing an attribute that cannot be read, and one of an object whose DN is spelled in
    another letter case: a success is reported, and the value stays. -/
theorem not_reportsTruth_clear :
    attributeReplaceString (single false).toLdap [[1]] "CN=user,DC=domain" "description" "" =
        ([[1]], true) ∧
      (single false).values [[1]] "CN=user,DC=domain" "description" ≠ [] ∧
      attributeReplaceString (single true).toLdap [[1]] "cn=user,dc=domain" "description" "" =
        ([[1]], true) ∧
      (single true).values [[1]] "cn=user,dc=domain" "description" ≠ [] := by
  decide

end Directory

end Admc
