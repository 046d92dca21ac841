import Admc.Interface.Attribute

/-!
# Recorded writes

What is written to a server, whether it accepts it or not, is told from a server that keeps a
record of the values that it has been asked to store.

`attributeReplaceString_recorded`: a text that is not empty is written just once.
-/

namespace Admc

variable {σ : Type}

/-- A request to replace the values of an attribute. -/
structure WriteRequest where
  dn : String
  attr : String
  values : List QByteArray
  deriving DecidableEq

/-- The server, with a record of the values that it has been asked to store. -/
def Ldap.recorded (ldap : Ldap σ) : Ldap (σ × List WriteRequest) where
  search s request := (((ldap.search s.1 request).1, s.2), (ldap.search s.1 request).2)
  createSdControl s := ldap.createSdControl s.1
  createTreeDeleteControl s := ldap.createTreeDeleteControl s.1
  modifyReplace s dn attr values sdControl :=
    (((ldap.modifyReplace s.1 dn attr values sdControl).1, s.2 ++ [⟨dn, attr, values⟩]),
      (ldap.modifyReplace s.1 dn attr values sdControl).2)
  delete s dn treeDelete :=
    (((ldap.delete s.1 dn treeDelete).1, s.2), (ldap.delete s.1 dn treeDelete).2)

section
variable {ldap : Ldap σ} {s : σ} {writes : List WriteRequest} {dn attr value : String}
  {attributes : List String} {values : List QByteArray} {getSacl : Bool}

/-- A search writes nothing. -/
theorem adSearchObject_recorded :
    adSearchObject ldap.recorded (s, writes) dn attributes getSacl =
      (((adSearchObject ldap s dn attributes getSacl).1, writes),
        (adSearchObject ldap s dn attributes getSacl).2) := rfl

/-- Values that are not empty are written once, whether the write is accepted or not. -/
theorem attributeReplaceValues_recorded (hne : values ≠ []) :
    attributeReplaceValues ldap.recorded (s, writes) dn attr values false =
      (((attributeReplaceValues ldap s dn attr values false).1, writes ++ [⟨dn, attr, values⟩]),
        (attributeReplaceValues ldap s dn attr values false).2) := by
  have hempty : values.isEmpty = false := by simpa using hne
  simp only [attributeReplaceValues, hempty, Bool.and_false, Bool.false_and, Bool.false_eq_true,
    if_false]
  rfl

/-- A text is told by its bytes. -/
theorem toUtf8_ofList_inj {rt : Runtime} (hrt : rt.DecodesUtf8) {text text' : List Char}
    (h : toUtf8 (.ofList text) = toUtf8 (.ofList text')) : text = text' := by
  have hdecoded := congrArg rt.fromUtf8 h
  rw [hrt, hrt] at hdecoded
  rw [← String.toList_ofList (l := text), hdecoded, String.toList_ofList]

theorem attributeReplaceString_recorded {rt : Runtime} (hrt : rt.DecodesUtf8) (hne : value ≠ "") :
    attributeReplaceString ldap.recorded (s, writes) dn attr value =
      (((attributeReplaceString ldap s dn attr value).1, writes ++ [⟨dn, attr, [toUtf8 value]⟩]),
        (attributeReplaceString ldap s dn attr value).2) := by
  have hlist : valueToList (toUtf8 value) = [toUtf8 value] :=
    if_neg (mt List.isEmpty_iff.1 (toUtf8_ne_nil hrt hne))
  rw [attributeReplaceString, attributeReplaceString, attributeReplaceValue, attributeReplaceValue,
    hlist]
  exact attributeReplaceValues_recorded (List.cons_ne_nil _ _)

end

end Admc
