import Admc.Interface.Descriptor
import Admc.Security.Permissions

/-!
# Check boxes that stand for entries

The check boxes for the protection against deletion and for "cannot change password" are
not attributes: they stand for entries of the descriptor of the object, which setting them
adds or removes.

* `setProtectedEdit_spec`: setting the protection leaves the other bits as they were, and
  the object is protected thereafter, or not, as it should be.
* `setUserCantChangePass_spec`: so does setting "cannot change password"; but clearing it
  has no effect where the right to change the password is denied otherwise, as by an entry
  that denies all extended rights.
-/

namespace Admc

/-! ## Reading -/

section
variable {sd sd' : SecurityDescriptor} {trustee : DomSid} {enabled : Bool}

theorem ofMask_isBit_delete : (SecurityRight.ofMask secStdDelete).IsBit 16 := ⟨by decide, rfl⟩

theorem ofMask_isBit_deleteTree : (SecurityRight.ofMask secAdsDeleteTree).IsBit 6 :=
  ⟨by decide, rfl⟩

theorem ofMask_isBit :
    ∀ mask ∈ protectDeletionMaskList, ∃ i, (SecurityRight.ofMask mask).IsBit i := by
  rw [protectDeletionMaskList, List.forall_mem_cons, List.forall_mem_singleton]
  exact ⟨⟨16, ofMask_isBit_delete⟩, ⟨6, ofMask_isBit_deleteTree⟩⟩

theorem changePassRight_isBit (conf : AdConfig) : (changePassRight conf).IsBit 8 :=
  ⟨by decide, rfl⟩

theorem isDeleteProtectedFrom_iff (hd : sd.dacl ≠ none) {masks : List AccessMask}
    (hmasks : ∀ mask ∈ masks, ∃ i, (SecurityRight.ofMask mask).IsBit i) :
    isDeleteProtectedFrom sd trustee masks = .ok enabled ↔
      ((∀ mask ∈ masks, Denied sd.aces trustee (.ofMask mask)) ↔ enabled = true) := by
  induction masks with
  | nil => cases enabled <;> simp [isDeleteProtectedFrom]
  | cons mask masks ih =>
    obtain ⟨i, hbit⟩ := hmasks mask List.mem_cons_self
    obtain ⟨state, hstate⟩ := getRightState_isOk hd trustee (.ofMask mask)
    have hdeny := get_no_deny_iff hbit hstate
    rw [isDeleteProtectedFrom, hstate, Except.ok_bind, List.forall_mem_cons, ← hdeny]
    cases state.get .no .deny with
    | false =>
      dsimp only
      rw [Bool.not_false, if_pos rfl, Except.pure_eq_ok]
      cases enabled <;> simp
    | true =>
      dsimp only
      rw [Bool.not_true, if_neg Bool.false_ne_true,
        ih fun mask hmask => hmasks mask (List.mem_cons_of_mem _ hmask), and_iff_right rfl]

/-- What the check box for the protection shows. -/
theorem isDeleteProtected_eq_ok_iff :
    isDeleteProtectedForTrustee sd sidWorld = .ok enabled ↔ sd.dacl ≠ none ∧
      ((∀ mask ∈ protectDeletionMaskList, Denied sd.aces sidWorld (.ofMask mask)) ↔
        enabled = true) := by
  by_cases hd : sd.dacl = none
  · refine iff_of_false (fun h => ?_) fun h => h.1 hd
    rw [isDeleteProtectedForTrustee, protectDeletionMaskList, isDeleteProtectedFrom,
      securityDescriptorGetRightState, securityDescriptorGetDacl, hd] at h
    cases h
  · rw [isDeleteProtectedForTrustee, isDeleteProtectedFrom_iff hd ofMask_isBit, and_iff_right hd]

variable {g : Globals}

theorem isPasswordChangeDeniedFor_iff (hd : sd.dacl ≠ none) {trustees : List DomSid} :
    isPasswordChangeDeniedFor g sd trustees = .ok enabled ↔
      ((∃ trustee ∈ trustees, Denied sd.aces trustee (changePassRight g.adconfig)) ↔
        enabled = true) := by
  induction trustees with
  | nil => cases enabled <;> simp [isPasswordChangeDeniedFor]
  | cons trustee trustees ih =>
    obtain ⟨state, hstate⟩ := getRightState_isOk hd trustee (changePassRight g.adconfig)
    have hdeny := get_no_deny_iff (changePassRight_isBit g.adconfig) hstate
    rw [isPasswordChangeDeniedFor, isPasswordChangeDeniedForTrustee, hstate, Except.ok_bind,
      List.exists_mem_cons_iff, ← hdeny]
    cases hget : state.get .no .deny with
    | false => simpa [hget] using ih
    | true => cases enabled <;> simp

/-- What the check box for "cannot change password" shows. -/
theorem isPasswordChangeDenied_eq_ok_iff :
    isPasswordChangeDenied g sd = .ok enabled ↔ sd.dacl ≠ none ∧
      ((∃ trustee ∈ cantChangePassTrusteeCnList,
        Denied sd.aces trustee (changePassRight g.adconfig)) ↔ enabled = true) := by
  by_cases hd : sd.dacl = none
  · refine iff_of_false (fun h => ?_) fun h => h.1 hd
    rw [isPasswordChangeDenied, cantChangePassTrusteeCnList, isPasswordChangeDeniedFor,
      isPasswordChangeDeniedForTrustee, securityDescriptorGetRightState,
      securityDescriptorGetDacl, hd] at h
    cases h
  · rw [isPasswordChangeDenied, isPasswordChangeDeniedFor_iff hd, and_iff_right hd]

end

/-! ## The bits of the check boxes -/

/-- The bits that the check box for the protection against deletion stands for. -/
def ProtectionBit (kind : AceKind) (bit : ℕ) : Prop :=
  ∃ mask ∈ protectDeletionMaskList, kind.StandsFor bit sidWorld (.ofMask mask) false

/-- The bits that the check box for "cannot change password" stands for. -/
def PasswordBit (conf : AdConfig) (kind : AceKind) (bit : ℕ) : Prop :=
  ∃ trustee ∈ cantChangePassTrusteeCnList, ∃ allow,
    kind.StandsFor bit trustee (changePassRight conf) allow

section
variable {kind : AceKind} {bit : ℕ} {conf : AdConfig}

theorem ProtectionBit.eq (h : ProtectionBit kind bit) : bit = 16 ∨ bit = 6 := by
  obtain ⟨mask, hmask, hbit, -⟩ := h
  rcases List.mem_pair.1 hmask with rfl | rfl
  · exact .inl (ofMask_isBit_delete.getLsbD_iff.1 hbit)
  · exact .inr (ofMask_isBit_deleteTree.getLsbD_iff.1 hbit)

theorem PasswordBit.eq (h : PasswordBit conf kind bit) : bit = 8 := by
  obtain ⟨trustee, -, allow, hbit, -⟩ := h
  exact (changePassRight_isBit conf).getLsbD_iff.1 hbit

variable {aces aces' : List SecurityAce} {trustee : DomSid}

/-- The two check boxes have no bits in common. -/
theorem AgreeOff.denied_ofMask_iff (h : AgreeOff (PasswordBit conf) aces aces')
    {mask : AccessMask} (hmask : mask ∈ protectDeletionMaskList) :
    Denied aces' trustee (.ofMask mask) ↔ Denied aces trustee (.ofMask mask) := by
  refine h.denied_iff fun kind bit hbit hother => ?_
  rw [hother.eq] at hbit
  rcases List.mem_pair.1 hmask with rfl | rfl
  · exact absurd hbit (by decide)
  · exact absurd hbit (by decide)

theorem AgreeOff.denied_changePassRight_iff (h : AgreeOff ProtectionBit aces aces') :
    Denied aces' trustee (changePassRight conf) ↔ Denied aces trustee (changePassRight conf) := by
  refine h.denied_iff fun kind bit hbit hother => ?_
  rw [(changePassRight_isBit conf).getLsbD_iff.1 hbit] at hother
  rcases hother.eq with heq | heq
  · exact absurd heq (by decide)
  · exact absurd heq (by decide)

end

/-! ## Setting -/

theorem not_inherited_zero : ¬bitmaskIsSet (0 : AceFlags) secAceFlagInheritedAce = true := by decide

section
variable {rt : Runtime} {sd sd' : SecurityDescriptor} {enabled : Bool}

/-- Setting the protection leaves the other bits alone. -/
theorem agreeOff_protectAgainstDeletion (h : protectAgainstDeletion rt sd enabled = .ok sd') :
    AgreeOff ProtectionBit sd.aces sd'.aces := by
  refine List.foldlM_invariant (P := fun s => AgreeOff ProtectionBit sd.aces s.aces)
    (fun s s' mask hmask h hs => hs.trans ?_) (agreeOff_refl _ _) h
  obtain ⟨i, hbit⟩ := ofMask_isBit mask hmask
  have hstands : ∀ kind bit, kind.StandsFor bit sidWorld (.ofMask mask) false →
      ProtectionBit kind bit := fun kind bit hkind => ⟨mask, hmask, hkind⟩
  split_ifs at h
  · exact agreeOff_addRightBase hbit hstands h
  · exact agreeOff_removeRightBase hbit hstands h

theorem denied_protectAgainstDeletion (h : protectAgainstDeletion rt sd enabled = .ok sd') :
    (∀ mask ∈ protectDeletionMaskList, Denied sd'.aces sidWorld (.ofMask mask)) ↔
      enabled = true := by
  simp only [protectAgainstDeletion, protectDeletionMaskList, List.foldlM_cons, List.foldlM_nil,
    Except.bind_eq_ok, Except.pure_eq_ok] at h
  obtain ⟨sd₁, h₁, sd₂, h₂, rfl⟩ := h
  rw [protectDeletionMaskList, List.forall_mem_cons, List.forall_mem_singleton]
  cases enabled with
  | true =>
    rw [if_pos rfl] at h₁ h₂
    have hdelete := denied_addRightBase ofMask_isBit_delete not_inherited_zero h₁
    exact iff_of_true ⟨hdelete.addRightBase ofMask_isBit_deleteTree h₂,
      denied_addRightBase ofMask_isBit_deleteTree not_inherited_zero h₂⟩ rfl
  | false =>
    rw [if_neg Bool.false_ne_true] at h₁ h₂
    have htree := denied_removeRightBase ofMask_isBit_deleteTree h₂
    exact iff_of_false (fun hboth => not_deniedOtherwise rfl (htree.1 hboth.2))
      Bool.false_ne_true

/-- Setting the protection leaves the other bits as they were, and does what it should. -/
theorem setProtectedEdit_spec {out : Option SecurityDescriptor}
    (h : setProtectedEdit rt sd enabled = .ok out) :
    AgreeOff ProtectionBit sd.aces (out.getD sd).aces ∧ sd.dacl ≠ none ∧
      isDeleteProtectedForTrustee (out.getD sd) sidWorld = .ok enabled := by
  simp only [setProtectedEdit, Except.bind_eq_ok] at h
  obtain ⟨isEnabled, hisEnabled, h⟩ := h
  have hd := (isDeleteProtected_eq_ok_iff.1 hisEnabled).1
  split_ifs at h with heq
  · obtain rfl := Except.pure_eq_ok.1 h
    exact ⟨agreeOff_refl _ _, hd, heq ▸ hisEnabled⟩
  · simp only [Except.bind_eq_ok, Except.pure_eq_ok] at h
    obtain ⟨sd₁, h₁, sd₂, h₂, rfl⟩ := h
    have hsort : AgreeOff (fun _ _ => False) sd₁.aces sd₂.aces := agreeOff_sortDacl h₂
    refine ⟨(agreeOff_protectAgainstDeletion h₁).trans (agreeOff_sortDacl h₂), hd,
      isDeleteProtected_eq_ok_iff.2 ⟨dacl_sortDacl_ne_none h₂, ?_⟩⟩
    rw [← denied_protectAgainstDeletion h₁]
    exact forall_congr' fun mask => forall_congr' fun _ => hsort.denied_iff fun _ _ _ => id

variable {g : Globals}

theorem agreeOff_setUserCantChangePass (h : setUserCantChangePass g sd enabled = .ok sd') :
    AgreeOff (PasswordBit g.adconfig) sd.aces sd'.aces := by
  refine List.foldlM_invariant (P := fun s => AgreeOff (PasswordBit g.adconfig) sd.aces s.aces)
    (fun s s' trustee htrustee h hs => hs.trans ?_) (agreeOff_refl _ _) h
  have hbit := changePassRight_isBit g.adconfig
  simp only [Except.bind_eq_ok] at h
  obtain ⟨s₁, h₁, h₂⟩ := h
  have hstands : ∀ allow kind bit,
      kind.StandsFor bit trustee (changePassRight g.adconfig) allow →
        PasswordBit g.adconfig kind bit := fun allow kind bit hkind =>
    ⟨trustee, htrustee, allow, hkind⟩
  exact (agreeOff_removeRightBase hbit (hstands _) h₁).trans
    (agreeOff_addRightBase hbit (hstands _) h₂)

/-- Clearing the check box takes the bit, from the denying kinds that match, and from no other
    denying ones. -/
theorem bitSet_clearPassword {trustee : DomSid} {right : SecurityRight} {i : ℕ}
    (hbit : right.IsBit i) {sd₁ : SecurityDescriptor}
    (hremove : securityDescriptorRemoveRightBase sd trustee right false = .ok sd₁)
    (hadd : securityDescriptorAddRightBase rt sd₁ trustee right true = .ok sd') {kind : AceKind}
    {bit : ℕ} (hmask : right.accessMask.getLsbD bit = true) (hside : kind.side = some false) :
    BitSet sd'.aces kind bit ↔
      BitSet sd.aces kind bit ∧ ¬kind.MatchesEdit trustee right false := by
  obtain ⟨given, hgiven, hbits⟩ := bitSet_addRightBase hbit hadd
  have hother : ¬(kind = given ∧ bit = i) := by
    rintro ⟨rfl, -⟩
    exact nomatch hside.symm.trans hgiven.1
  rw [hbits, or_iff_left hother, bitSet_removeRightBase hbit hremove,
    and_iff_left (hbit.getLsbD_iff.1 hmask)]

/-- Setting "cannot change password" denies the right; clearing it leaves what is denied
    otherwise. -/
theorem denied_setUserCantChangePass (h : setUserCantChangePass g sd enabled = .ok sd') :
    (∃ trustee ∈ cantChangePassTrusteeCnList,
        Denied sd'.aces trustee (changePassRight g.adconfig)) ↔
      enabled = true ∨ ∃ trustee ∈ cantChangePassTrusteeCnList,
        DeniedOtherwise sd.aces trustee (changePassRight g.adconfig) := by
  have hbit := changePassRight_isBit g.adconfig
  simp only [setUserCantChangePass, cantChangePassTrusteeCnList, List.foldlM_cons,
    List.foldlM_nil, Except.bind_eq_ok, Except.pure_eq_ok] at h
  obtain ⟨sd₂, ⟨sd₁, h₁, h₂⟩, sd₄, ⟨sd₃, h₃, h₄⟩, rfl⟩ := h
  cases enabled with
  | true =>
    have hself : Denied sd₂.aces sidNtSelf (changePassRight g.adconfig) :=
      denied_addRightBase hbit not_inherited_zero h₂
    exact iff_of_true ⟨sidNtSelf, List.mem_cons_self,
      (hself.removeRightBase hbit h₃).addRightBase hbit h₄⟩ (.inl rfl)
  | false =>
    rw [or_iff_right Bool.false_ne_true]
    refine exists_congr fun trustee => and_congr_right fun htrustee => exists_congr fun kind =>
      exists_congr fun bit => and_congr_right fun hmask => ?_
    constructor
    · rintro ⟨hset, hmatch, hinherited⟩
      rw [bitSet_clearPassword hbit h₃ h₄ hmask hmatch.1,
        bitSet_clearPassword hbit h₁ h₂ hmask hmatch.1] at hset
      refine ⟨hset.1.1, hmatch, hinherited, fun hedit => ?_⟩
      rcases List.mem_pair.1 htrustee with rfl | rfl
      · exact hset.1.2 hedit
      · exact hset.2 hedit
    · rintro ⟨hset, hmatch, hinherited, hother⟩
      -- a kind has one trustee only
      have hothers : ∀ trustee', ¬kind.MatchesEdit trustee' (changePassRight g.adconfig) false := by
        rintro trustee' ⟨hside, hflags, rfl, hedit⟩
        exact hother ⟨hside, hflags, hmatch.2.2.1, hedit⟩
      rw [bitSet_clearPassword hbit h₃ h₄ hmask hmatch.1,
        bitSet_clearPassword hbit h₁ h₂ hmask hmatch.1]
      exact ⟨⟨⟨hset, hothers _⟩, hothers _⟩, hmatch, hinherited⟩

/-- "Cannot change password" is denied otherwise. -/
def PasswordDeniedOtherwise (conf : AdConfig) (aces : List SecurityAce) : Prop :=
  ∃ trustee ∈ cantChangePassTrusteeCnList, DeniedOtherwise aces trustee (changePassRight conf)

/-- Setting "cannot change password" leaves the other bits as they were, and does what it
    should, unless it is cleared where the right is denied otherwise. -/
theorem setUserCantChangePass_spec {sd₁ : SecurityDescriptor}
    (h : setUserCantChangePass g sd enabled = .ok sd₁)
    (hsort : securityDescriptorSortDacl g.rt sd₁ = .ok sd') :
    AgreeOff (PasswordBit g.adconfig) sd.aces sd'.aces ∧ sd.dacl ≠ none ∧ sd'.dacl ≠ none ∧
      (isPasswordChangeDenied g sd' = .ok enabled ↔
        (enabled = false → ¬PasswordDeniedOtherwise g.adconfig sd.aces)) := by
  have hd : sd.dacl ≠ none := by
    simp only [setUserCantChangePass, cantChangePassTrusteeCnList, List.foldlM_cons,
      Except.bind_eq_ok] at h
    obtain ⟨_, ⟨_, hremove, -⟩, -⟩ := h
    exact (removeRightBase_eq_ok.1 hremove).1
  have hd' := dacl_sortDacl_ne_none hsort
  have hagree : AgreeOff (fun _ _ => False) sd₁.aces sd'.aces := agreeOff_sortDacl hsort
  have hdenied := denied_setUserCantChangePass h
  refine ⟨(agreeOff_setUserCantChangePass h).trans (agreeOff_sortDacl hsort), hd, hd', ?_⟩
  rw [isPasswordChangeDenied_eq_ok_iff, and_iff_right hd']
  simp only [hagree.denied_iff fun _ _ _ => id, hdenied]
  cases enabled with
  | true => exact iff_of_true (iff_of_true (.inl rfl) rfl) (by simp)
  | false => simp [PasswordDeniedOtherwise]

end

end Admc
