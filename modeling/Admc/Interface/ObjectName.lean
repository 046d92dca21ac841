import Admc.CreateObject

/-!
# Names that are accepted

The DN of a new object is put together from its name, and taken apart again by functions that
cut at the first equals sign and comma.

* `dnGetName_dnFromNameAndParent_iff`: a name is read back just if it has no comma;
* `takenApart_of_valid`: so names that are accepted are, also after a rename.
-/

namespace Admc

/-! ## Question marks -/

/-- What escaping takes away again, for any name. -/
theorem unescapeName_escapeNameForDn (name : QString) :
    unescapeName (escapeNameForDn name) = name := by
  induction name with
  | nil => rfl
  | cons c name ih =>
    by_cases hquestion : c = '?'
    · subst hquestion
      have hhead : ('?' :: escapeNameForDn name).head? = some '?' := rfl
      rw [escapeNameForDn_question, unescapeName_backslash, if_pos hhead,
        unescapeName_cons (by decide), ih]
    rw [escapeNameForDn_cons hquestion]
    by_cases hback : c = '\\'
    · subst hback
      -- a question mark that follows is escaped itself
      have hhead : (escapeNameForDn name).head? ≠ some '?' := by
        cases name with
        | nil => exact nofun
        | cons d name =>
          by_cases hd : d = '?'
          · rw [hd, escapeNameForDn_question]
            exact fun h => absurd (Option.some.inj h) (by decide)
          · rw [escapeNameForDn_cons hd]
            exact fun h => hd (Option.some.inj h)
      rw [unescapeName_backslash, if_neg hhead, ih]
    · rw [unescapeName_cons hback, ih]

theorem escapeNameForDn_append (name name' : QString) :
    escapeNameForDn (name ++ name') = escapeNameForDn name ++ escapeNameForDn name' := by
  induction name with
  | nil => rfl
  | cons c name ih =>
    rw [List.cons_append]
    by_cases hquestion : c = '?'
    · rw [hquestion, escapeNameForDn_question, escapeNameForDn_question, ih]
      rfl
    · rw [escapeNameForDn_cons hquestion, escapeNameForDn_cons hquestion, ih]
      rfl

theorem comma_mem_escapeNameForDn {name : QString} : ',' ∈ escapeNameForDn name ↔ ',' ∈ name := by
  induction name with
  | nil => rfl
  | cons c name ih =>
    by_cases hquestion : c = '?'
    · subst hquestion
      rw [escapeNameForDn_question, List.mem_cons, List.mem_cons, List.mem_cons, ih]
      simp
    · rw [escapeNameForDn_cons hquestion, List.mem_cons, List.mem_cons, ih]

/-! ## The DN of a new object -/

/-- The attribute of the first RDN of a DN. -/
def rdnAttribute (dn : QString) : QString := dn.takeWhile (· ≠ '=')

/-- What the functions for DNs say of one. -/
structure TakenApart (dn name parent attr : QString) : Prop where
  name : dnGetName dn = name
  parent : dnGetParent dn = parent
  attr : rdnAttribute dn = attr

variable {name newName parent : QString} {objectClass : String}

theorem toList_dnFromNameAndParent : (dnFromNameAndParent name parent objectClass).toList =
    objectClassToSuffix objectClass ++ '=' :: escapeNameForDn name ++ commaTail (some parent) :=
  String.toList_ofList

theorem suffix_plain (objectClass : String) :
    '=' ∉ objectClassToSuffix objectClass ∧ ',' ∉ objectClassToSuffix objectClass := by
  rw [objectClassToSuffix]
  split_ifs <;> decide

theorem comma_not_mem_rdn (h : ',' ∉ name) :
    ',' ∉ objectClassToSuffix objectClass ++ '=' :: escapeNameForDn name := by
  rw [List.mem_append, List.mem_cons, comma_mem_escapeNameForDn]
  simp [h, (suffix_plain objectClass).2]

/-- A name is read back just if it has no comma. -/
theorem dnGetName_dnFromNameAndParent_iff :
    dnGetName (dnFromNameAndParent name parent objectClass).toList = name ↔ ',' ∉ name := by
  rcases exists_commaTail name with ⟨p, t, hp, rfl, ht⟩
  rw [toList_dnFromNameAndParent, escapeNameForDn_append]
  have hrdn := @comma_not_mem_rdn p objectClass hp
  cases t with
  | none =>
    have hnil : escapeNameForDn (commaTail none) = [] := rfl
    rw [hnil, commaTail, List.append_nil, List.append_nil,
      dnGetName_commaTail (suffix_plain objectClass).1 hrdn, unescapeName_escapeNameForDn]
    exact iff_of_true rfl hp
  | some q =>
    -- the name ends at its own comma
    have htail : escapeNameForDn (commaTail (some q)) = ',' :: escapeNameForDn q :=
      escapeNameForDn_cons (by decide) q
    have hdn : objectClassToSuffix objectClass ++
        '=' :: (escapeNameForDn p ++ escapeNameForDn (commaTail (some q))) ++
          commaTail (some parent) =
        objectClassToSuffix objectClass ++ '=' :: escapeNameForDn p ++
          commaTail (some (escapeNameForDn q ++ ',' :: parent)) := by
      rw [htail, commaTail, commaTail]
      simp
    rw [hdn, dnGetName_commaTail (suffix_plain objectClass).1 hrdn,
      unescapeName_escapeNameForDn]
    refine iff_of_false (fun h => ?_) (not_not.2 (List.mem_append_right _ List.mem_cons_self))
    exact absurd (List.self_eq_append_right.1 h) (List.cons_ne_nil _ _)

theorem takenApart_dnFromNameAndParent (h : ',' ∉ name) :
    TakenApart (dnFromNameAndParent name parent objectClass).toList name parent
      (objectClassToSuffix objectClass) where
  name := dnGetName_dnFromNameAndParent_iff.2 h
  parent := by
    rw [toList_dnFromNameAndParent, dnGetParent_commaTail (comma_not_mem_rdn h)]
    rfl
  attr := by
    have hattr : ∀ c ∈ objectClassToSuffix objectClass, decide (c ≠ '=') = true := fun c hc =>
      decide_eq_true fun h => (suffix_plain objectClass).1 (h ▸ hc)
    rw [toList_dnFromNameAndParent, rdnAttribute, List.append_assoc, List.cons_append,
      List.takeWhile_append_of_pos hattr, List.takeWhile_cons_of_neg (by decide),
      List.append_nil]

/-- A rename gives the DN of an object with the new name. -/
theorem dnRename_dnFromNameAndParent (h : ',' ∉ name) :
    dnRename (dnFromNameAndParent name parent objectClass).toList newName =
      (dnFromNameAndParent newName parent objectClass).toList := by
  rw [toList_dnFromNameAndParent, dnRename_commaTail (suffix_plain objectClass).1
    (comma_not_mem_rdn h), toList_dnFromNameAndParent]

theorem comma_not_mem_of_valid (h : isObjectNameValid name = true) : ',' ∉ name := by
  intro hcomma
  have hbad : (name.any (nameBadChars.contains ·)) = true :=
    List.any_eq_true.2 ⟨',', hcomma, by decide⟩
  rw [isObjectNameValid, hbad] at h
  exact absurd h (by simp)

/-- A name that is accepted is read back, with the parent, before a rename and after it. -/
theorem takenApart_of_valid (name newName parent : QString) (objectClass : String)
    (hname : isObjectNameValid name = true) (hnewName : isObjectNameValid newName = true) :
    TakenApart (dnFromNameAndParent name parent objectClass).toList name parent
        (objectClassToSuffix objectClass) ∧
      TakenApart (dnRename (dnFromNameAndParent name parent objectClass).toList newName) newName
        parent (objectClassToSuffix objectClass) := by
  rw [dnRename_dnFromNameAndParent (comma_not_mem_of_valid hname)]
  exact ⟨takenApart_dnFromNameAndParent (comma_not_mem_of_valid hname),
    takenApart_dnFromNameAndParent (comma_not_mem_of_valid hnewName)⟩

/-- A question mark in a name, and an empty one. -/
theorem takenApart_of_valid_question :
    TakenApart (dnFromNameAndParent "a?".toList "DC=x".toList "user").toList "a?".toList
        "DC=x".toList "CN".toList ∧
      TakenApart (dnRename (dnFromNameAndParent "a?".toList "DC=x".toList "user").toList [])
        [] "DC=x".toList "CN".toList :=
  takenApart_of_valid "a?".toList [] "DC=x".toList "user" (by decide) (by decide)

end Admc
