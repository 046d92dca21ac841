import Admc.Security.Edit

/-!
# What an edit of a right leaves alone

The edits of a right match the entries to edit by trustee, flags and inherited
object type. The others (`Outside`) go through them as they are, up to their order,
along with the rest of the descriptor: its owner, group and SACL, and its control
bits but the one that says that there is a DACL, which replacing the DACL sets
(`edit_frame`).

An inherited entry is outside as long as the right does not have the flag of
inherited entries itself; and flags that are those of an inherited and inheritable
entry make the edits match any inherited object type.
-/

namespace Admc

/-- The entry is outside the reach of the edits of the right for the trustee. -/
def Outside (trustee : DomSid) (right : SecurityRight) (ace : SecurityAce) : Prop :=
  ace.trustee ≠ trustee ∨ ace.flags ≠ right.flags ∨
    (bitmaskIsSet ace.flags secAceFlagInheritedAce = true ∧
      bitmaskIsSet right.flags secAceFlagInheritedAce = false) ∨
    (ace.inheritedObjectType ≠ right.inheritedObjectType ∧
      ¬SecurityAce.IsInheritedInheritable right.flags)

instance (trustee : DomSid) (right : SecurityRight) (ace : SecurityAce) :
    Decidable (Outside trustee right ace) := inferInstanceAs (Decidable (_ ∨ _ ∨ _ ∨ _))

/-- The descriptor `sd'` has what `sd` has outside the reach of the edits of the
    right. -/
structure SameOutside (trustee : DomSid) (right : SecurityRight)
    (sd sd' : SecurityDescriptor) : Prop where
  aces : (sd'.aces.filter fun ace => Outside trustee right ace).Perm
    (sd.aces.filter fun ace => Outside trustee right ace)
  revision : sd'.revision = sd.revision
  ownerSid : sd'.ownerSid = sd.ownerSid
  groupSid : sd'.groupSid = sd.groupSid
  sacl : sd'.sacl = sd.sacl
  type : sd'.type = sd.type ∨ sd'.type = sd.type ||| secDescDaclPresent

namespace SameOutside

variable {trustee : DomSid} {right right' : SecurityRight} {sd sd₁ sd₂ : SecurityDescriptor}

theorem refl (sd : SecurityDescriptor) : SameOutside trustee right sd sd :=
  ⟨.refl _, rfl, rfl, rfl, rfl, .inl rfl⟩

theorem trans (h₁ : SameOutside trustee right sd sd₁) (h₂ : SameOutside trustee right sd₁ sd₂) :
    SameOutside trustee right sd sd₂ where
  aces := h₂.aces.trans h₁.aces
  revision := h₂.revision.trans h₁.revision
  ownerSid := h₂.ownerSid.trans h₁.ownerSid
  groupSid := h₂.groupSid.trans h₁.groupSid
  sacl := h₂.sacl.trans h₁.sacl
  type := by
    rcases h₁.type with h₁ | h₁ <;> rcases h₂.type with h₂ | h₂ <;> rw [h₁] at h₂
    · exact .inl h₂
    · exact .inr h₂
    · exact .inr h₂
    · exact .inr (h₂.trans (by rw [BitVec.or_assoc, BitVec.or_self]))

/-- Replacing the entries of the DACL, but for those outside. -/
theorem replaceDacl {newDacl : List SecurityAce}
    (h : (newDacl.filter fun ace => Outside trustee right ace).Perm
      (sd.aces.filter fun ace => Outside trustee right ace)) :
    SameOutside trustee right sd (adSecurityReplaceDacl sd newDacl) := by
  have hfold : ∀ (l : List SecurityAce) (sd : SecurityDescriptor),
      let sd' := l.foldl securityDescriptorDaclAdd sd
      sd'.revision = sd.revision ∧ sd'.ownerSid = sd.ownerSid ∧ sd'.groupSid = sd.groupSid ∧
        sd'.sacl = sd.sacl ∧ (sd'.type = sd.type ∨ sd'.type = sd.type ||| secDescDaclPresent) := by
    intro l
    induction l with
    | nil => exact fun sd => ⟨rfl, rfl, rfl, rfl, .inl rfl⟩
    | cons ace l ih =>
      intro sd
      obtain ⟨hr, ho, hg, hs, ht⟩ := ih (securityDescriptorDaclAdd sd ace)
      refine ⟨hr, ho, hg, hs, .inr ?_⟩
      rcases ht with ht | ht
      · exact ht
      · exact ht.trans (by
          rw [securityDescriptorDaclAdd, BitVec.or_assoc, BitVec.or_self])
  obtain ⟨hr, ho, hg, hs, ht⟩ := hfold newDacl { sd with dacl := none }
  exact ⟨by rwa [aces_replaceDacl], hr, ho, hg, hs, ht⟩

end SameOutside

variable {trustee : DomSid} {right right' : SecurityRight} {allow : Bool}

/-- Entries outside are not matched. -/
theorem not_editMatch_of_outside (hsame : right.SameEntries right') {ace : SecurityAce}
    (h : Outside trustee right ace) :
    aceMatchWithoutAccessMask ace trustee right' allow editMatchFlags = false := by
  rw [Bool.eq_false_iff, Ne, editMatch_iff, hsame.1, hsame.2]
  rintro ⟨-, hf, ht, hi, -⟩
  rcases h with h | h | ⟨ha, hr⟩ | ⟨h, hni⟩
  · exact h ht
  · exact h hf
  · rw [hf, hr] at ha
    exact Bool.false_ne_true ha
  · exact hi.elim h (hf ▸ hni)

theorem outside_setMask (ace : SecurityAce) (m : AccessMask) :
    Outside trustee right { ace with accessMask := m } ↔ Outside trustee right ace := Iff.rfl

/-- Removing a base right keeps the entries outside. -/
theorem filter_outside_remove (hsame : right.SameEntries right') (aces : List SecurityAce) :
    (aces.filterMap (removeAccessRightsStep trustee right' allow)).filter
      (fun ace => Outside trustee right ace) = aces.filter fun ace => Outside trustee right ace := by
  induction aces with
  | nil => rfl
  | cons ace aces ih =>
    by_cases ho : Outside trustee right ace
    · have hstep : removeAccessRightsStep trustee right' allow ace = some ace := by
        rw [removeAccessRightsStep, not_editMatch_of_outside hsame ho]
        rfl
      rw [List.filterMap_cons_some hstep, List.filter_cons_of_pos (by simpa using ho),
        List.filter_cons_of_pos (by simpa using ho), ih]
    · rw [List.filter_cons_of_neg (by simpa using ho), ← ih]
      -- what is left of the entry, if anything, is not outside either
      cases hstep : removeAccessRightsStep trustee right' allow ace with
      | none => rw [List.filterMap_cons_none hstep]
      | some ace' =>
        rw [List.filterMap_cons_some hstep, List.filter_cons_of_neg]
        obtain ⟨m, rfl⟩ := eq_setMask_of_removeAccessRightsStep hstep
        simpa [outside_setMask] using ho

theorem not_outside_makeSecurityAce (hsame : right.SameEntries right') (rt : Runtime)
    (m : AccessMask) : ¬Outside trustee right (makeSecurityAce rt trustee right' m allow) := by
  obtain ⟨-, hf, ht, hi, -⟩ := makeSecurityAce_parts rt trustee right' m allow
  rw [hsame.1] at hf
  rw [hsame.2] at hi
  rintro (h | h | ⟨ha, hr⟩ | ⟨h, -⟩)
  · exact h ht
  · exact h hf
  · rw [hf, hr] at ha
    exact Bool.false_ne_true ha
  · exact h hi

/-- Adding a base right keeps the entries outside. -/
theorem filter_outside_add (hsame : right.SameEntries right') (rt : Runtime)
    (aces : List SecurityAce) :
    (addRightAces rt trustee right' allow aces).filter (fun ace => Outside trustee right ace) =
      aces.filter fun ace => Outside trustee right ace := by
  induction aces with
  | nil =>
    have := @not_outside_makeSecurityAce trustee _ _ allow hsame rt
      (adSecurityMapAccessMask right'.accessMask)
    simp [addRightAces, this]
  | cons ace aces ih =>
    rw [addRightAces]
    split_ifs with hm
    · have ho : ¬Outside trustee right ace := fun ho => by
        rw [not_editMatch_of_outside hsame ho] at hm
        exact Bool.false_ne_true hm
      have ho' := mt (outside_setMask ace
        (ace.accessMask ||| adSecurityMapAccessMask right'.accessMask)).1 ho
      simp only [List.filter_cons, ho, ho', decide_false, Bool.false_eq_true, if_false]
    · rw [List.filter_cons, List.filter_cons, ih]

/-- The base functions leave what is outside alone. -/
theorem baseInvariant_sameOutside (rt : Runtime) (trustee : DomSid) (right : SecurityRight)
    (sd : SecurityDescriptor) :
    BaseInvariant rt trustee right (SameOutside trustee right sd) where
  remove hsame hsd h := by
    obtain ⟨-, rfl⟩ := removeRightBase_eq_ok.1 h
    exact hsd.trans (.replaceDacl (.of_eq (filter_outside_remove hsame _)))
  add {sd₁ _ right' allow} hsame hsd h := by
    refine hsd.trans ?_
    have haces := @filter_outside_add trustee right right' allow hsame rt sd₁.aces
    rw [← aces_addRightBase h] at haces
    obtain ⟨dacl, hd, rfl | ⟨ace, rfl, -⟩⟩ := addRightBase_eq_ok h
    · exact ⟨.of_eq haces, rfl, rfl, rfl, rfl, .inl rfl⟩
    · exact ⟨.of_eq haces, rfl, rfl, rfl, rfl, .inr rfl⟩
  sort {sd₁ _} hsd h := by
    obtain ⟨dacl, hd, rfl⟩ := sortDacl_eq_ok.1 h
    refine hsd.trans ⟨?_, rfl, rfl, rfl, rfl, .inl rfl⟩
    have hperm := (sortAces_perm rt dacl.aces).filter fun ace => decide (Outside trustee right ace)
    simpa [SecurityDescriptor.aces, hd] using hperm

/-- Adding or removing a right leaves alone what is outside its reach. -/
theorem edit_frame {g : Globals} {classList : List String} {sd sd' : SecurityDescriptor}
    (h : securityDescriptorAddRight g sd classList trustee right allow = .ok sd' ∨
      securityDescriptorRemoveRight g sd classList trustee right allow = .ok sd') :
    SameOutside trustee right sd sd' := by
  have hP := baseInvariant_sameOutside g.rt trustee right sd
  exact h.elim (hP.addRight (.refl sd)) (hP.removeRight (.refl sd))

/-- Denying "list contents" to "Everyone" leaves the entries for others alone. -/
theorem edit_frame_sample :
    ∃ sd', securityDescriptorAddRight .empty sampleDescriptor ["user"] sidWorld
        (.ofMask secAdsList) false = .ok sd' ∧
      SameOutside sidWorld (.ofMask secAdsList) sampleDescriptor sd' := by
  have hrun : ∃ sd', securityDescriptorAddRight .empty sampleDescriptor ["user"] sidWorld
      (.ofMask secAdsList) false = .ok sd' ∧ True := by
    decide
  obtain ⟨sd', hsd', -⟩ := hrun
  exact ⟨sd', hsd', edit_frame (.inl hsd')⟩

/-- A right that has the flag of inherited entries is removed from these. -/
theorem not_edit_frame_inherited :
    let sd : SecurityDescriptor := .ofAces [{ zeroAce with
      accessMask := secAdsList ||| secStdDelete, trustee := sidWorld
      flags := secAceFlagInheritedAce }]
    ∃ sd', securityDescriptorRemoveRight .empty sd ["user"] sidWorld
        ⟨secAdsList, none, none, secAceFlagInheritedAce⟩ true = .ok sd' ∧
      ¬(sd'.aces.filter aceIsInherited).Perm (sd.aces.filter aceIsInherited) := by
  decide

end Admc
