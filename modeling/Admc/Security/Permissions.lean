import Admc.Security.Edit

/-!
# Permissions bit by bit

A descriptor grants and denies bits to kinds of entries: what an entry is about, but for
its mask. The order of the entries, and how the bits of a kind are spread over them, make
no difference to this, and neither does what the encoding of an entry does not keep.

The base functions on a right of a single bit are exact in these terms. Removing the right
takes the bit away from the kinds that match it (`bitSet_removeRightBase`), and adding the
right gives it to one of them (`bitSet_addRightBase`). The check boxes that stand for
entries of a descriptor set such rights, and leave every other bit as it was:
`sparing_protectAgainstDeletion`, for the protection against deletion.
-/

namespace Admc

/-! ## Kinds of entries -/

/-- What an entry is about, but for its mask. -/
structure AceKind where
  type : SecurityAceType
  flags : AceFlags
  trustee : DomSid
  objectType : Option Guid
  inheritedObjectType : Option Guid
  conditions : Option (List (BitVec 8))
  claim : Option Claim
  deriving DecidableEq

/-- The kind of an entry: of the unions, the members that its type calls for. -/
def SecurityAce.kind (ace : SecurityAce) : AceKind where
  type := ace.type
  flags := ace.flags
  trustee := ace.trustee
  objectType := ace.objectType
  inheritedObjectType := ace.inheritedObjectType
  conditions := if secAceCallback ace.type then some ace.coda.conditions else none
  claim := if secAceResource ace.type then some ace.coda.claim else none

namespace AceKind

variable (kind : AceKind) (trustee : DomSid) (right : SecurityRight) (allow : Bool)

/-- The side that entries of the kind are on, if they allow or deny. -/
def side : Option Bool := { zeroAce with type := kind.type }.side

/-- Entries of the kind match for an edit. -/
def MatchesEdit : Prop :=
  kind.side = some allow ∧ kind.flags = right.flags ∧ kind.trustee = trustee ∧
    (kind.inheritedObjectType = right.inheritedObjectType ∨
      SecurityAce.IsInheritedInheritable kind.flags) ∧
    kind.objectType = right.objectType

/-- Entries of the kind match for the state of a right, if their mask does. -/
def MatchesState : Prop :=
  kind.side = some allow ∧
    (SecurityAce.IsInheritedInheritable kind.flags ∨ kind.flags = right.flags) ∧
    kind.trustee = trustee ∧
    (kind.inheritedObjectType = right.inheritedObjectType ∨
      SecurityAce.IsInheritedInheritable kind.flags) ∧
    (kind.objectType = none ∨ kind.objectType = right.objectType)

/-- Entries of the kind are inherited. -/
def IsInherited : Prop := bitmaskIsSet kind.flags secAceFlagInheritedAce = true

instance : Decidable (kind.MatchesEdit trustee right allow) :=
  inferInstanceAs (Decidable (_ ∧ _ ∧ _ ∧ _ ∧ _))

instance : Decidable (kind.MatchesState trustee right allow) :=
  inferInstanceAs (Decidable (_ ∧ _ ∧ _ ∧ _ ∧ _))

instance : Decidable kind.IsInherited := inferInstanceAs (Decidable (_ = _))

variable {kind trustee right allow}

/-- What matches for an edit matches for the state. -/
theorem MatchesEdit.matchesState (h : kind.MatchesEdit trustee right allow) :
    kind.MatchesState trustee right allow :=
  ⟨h.1, .inr h.2.1, h.2.2.1, h.2.2.2.1, .inr h.2.2.2.2⟩

/-- The two sides have no kinds in common. -/
theorem MatchesState.not_other (h : kind.MatchesState trustee right allow) {trustee' : DomSid}
    {right' : SecurityRight} : ¬kind.MatchesEdit trustee' right' (!allow) := fun h' => by
  have hside := Option.some.inj (h.1.symm.trans h'.1)
  cases allow <;> exact nomatch hside

/-- Of a right without object types, the entries that are not inherited match for the state
    only if they match for an edit. -/
theorem MatchesState.matchesEdit (h : kind.MatchesState trustee right allow)
    (hright : right.objectType = none) (hinherited : ¬kind.IsInherited) :
    kind.MatchesEdit trustee right allow := by
  have hnot : ¬SecurityAce.IsInheritedInheritable kind.flags := fun hboth =>
    hinherited (bitmaskIsSet_iff.2 ((bitmaskIsSet_iff.1 hboth).trans (by decide)))
  obtain ⟨hside, hflags, htrustee, hinheritedType, htype⟩ := h
  refine ⟨hside, hflags.resolve_left hnot, htrustee, hinheritedType, ?_⟩
  rcases htype with htype | htype
  · rw [htype, hright]
  · exact htype

end AceKind

section
variable {ace : SecurityAce} {trustee : DomSid} {right : SecurityRight} {allow : Bool}

theorem editMatch_kind : aceMatchWithoutAccessMask ace trustee right allow editMatchFlags = true ↔
    ace.kind.MatchesEdit trustee right allow := editMatch_iff

theorem aceMatch_kind : aceMatch ace trustee right allow = true ↔
    bitmaskIsSet ace.accessMask (adSecurityMapAccessMask right.accessMask) = true ∧
      ace.kind.MatchesState trustee right allow := aceMatch_iff

theorem bitmaskToInheritedState_kind :
    bitmaskToInheritedState ace = .no ↔ ¬ace.kind.IsInherited := by
  have hkind : ace.kind.IsInherited ↔ bitmaskIsSet ace.flags secAceFlagInheritedAce = true :=
    Iff.rfl
  rw [hkind, bitmaskToInheritedState]
  split_ifs with h
  · exact iff_of_false nofun (not_not.2 h)
  · exact iff_of_true rfl h

end

/-! ## Bits -/

/-- A bit is set in an entry of that kind. -/
def BitSet (aces : List SecurityAce) (kind : AceKind) (bit : ℕ) : Prop :=
  ∃ ace ∈ aces, ace.kind = kind ∧ ace.accessMask.getLsbD bit = true

section
variable {aces aces' : List SecurityAce} {ace : SecurityAce} {kind : AceKind} {bit i : ℕ}

theorem not_bitSet_nil : ¬BitSet [] kind bit := fun ⟨_, hmem, _⟩ => List.not_mem_nil hmem

theorem bitSet_cons : BitSet (ace :: aces) kind bit ↔
    ace.kind = kind ∧ ace.accessMask.getLsbD bit = true ∨ BitSet aces kind bit := by
  simp only [BitSet, List.exists_mem_cons_iff]

theorem bitSet_perm (h : aces.Perm aces') : BitSet aces kind bit ↔ BitSet aces' kind bit := by
  simp only [BitSet, h.mem_iff]

/-- The bits are those of the kinds and the masks of the entries. -/
theorem bitSet_congr (h : (aces.map fun ace => (ace.kind, ace.accessMask)) =
    aces'.map fun ace => (ace.kind, ace.accessMask)) :
    BitSet aces kind bit ↔ BitSet aces' kind bit := by
  have hmap : ∀ aces : List SecurityAce, BitSet aces kind bit ↔
      ∃ entry ∈ aces.map fun ace => (ace.kind, ace.accessMask),
        entry.1 = kind ∧ entry.2.getLsbD bit = true := fun aces => by
    simp only [BitSet, List.mem_map, exists_exists_and_eq_and]
  rw [hmap, hmap, h]

/-- A right whose mask is one bit. -/
def SecurityRight.IsBit (right : SecurityRight) (i : ℕ) : Prop :=
  i < 32 ∧ right.accessMask = BitVec.twoPow 32 i

variable {right : SecurityRight} {trustee : DomSid} {allow : Bool}

theorem SecurityRight.IsBit.getLsbD_iff (h : right.IsBit i) :
    right.accessMask.getLsbD bit = true ↔ bit = i := by
  rw [h.2, BitVec.getLsbD_twoPow, Bool.and_eq_true, decide_eq_true_iff, decide_eq_true_iff]
  exact ⟨fun hbit => hbit.2.symm, fun hbit => ⟨h.1, hbit.symm⟩⟩

/-- A mask of one bit is none of the generic ones. -/
theorem twoPow_not_generic : ∀ i < 32, BitVec.twoPow 32 i ≠ secAdsGenericRead ∧
    BitVec.twoPow 32 i ≠ genericReadFixed ∧ BitVec.twoPow 32 i ≠ secAdsGenericWrite := by
  decide

theorem SecurityRight.IsBit.map_eq (h : right.IsBit i) :
    adSecurityMapAccessMask right.accessMask = right.accessMask := by
  rw [adSecurityMapAccessMask, if_neg]
  rw [h.2]
  exact (twoPow_not_generic i h.1).1

theorem SecurityRight.IsBit.unset_eq (h : right.IsBit i) (aceMask : AccessMask) :
    getMaskToUnset aceMask right.accessMask = right.accessMask := by
  obtain ⟨-, hread, hwrite⟩ := twoPow_not_generic i h.1
  rw [getMaskToUnset, if_neg (h.2 ▸ hread), if_neg (h.2 ▸ hwrite)]

theorem SecurityRight.IsBit.isSet_iff (h : right.IsBit i) {aceMask : AccessMask} :
    bitmaskIsSet aceMask right.accessMask = true ↔ aceMask.getLsbD i = true := by
  rw [bitmaskIsSet_iff, h.2, Mask.includes_twoPow h.1]

/-! ## Removing and adding a bit -/

/-- What becomes of the bits of one entry. -/
theorem removeAccessRightsStep_bit (h : right.IsBit i) :
    (∃ ace', removeAccessRightsStep trustee right allow ace = some ace' ∧ ace'.kind = kind ∧
        ace'.accessMask.getLsbD bit = true) ↔
      (ace.kind = kind ∧ ace.accessMask.getLsbD bit = true) ∧
        ¬(kind.MatchesEdit trustee right allow ∧ bit = i) := by
  rw [removeAccessRightsStep]
  simp only [Bool.and_eq_true, editMatch_kind, h.map_eq, h.isSet_iff, aceUnsetMask, h.unset_eq]
  have hunset : (bitmaskSet ace.accessMask right.accessMask false).getLsbD bit = true ↔
      ace.accessMask.getLsbD bit = true ∧ bit ≠ i := by
    rw [bitmaskSet, if_neg Bool.false_ne_true, BitVec.getLsbD_and, BitVec.getLsbD_not, Ne,
      ← h.getLsbD_iff]
    cases hbit : ace.accessMask.getLsbD bit with
    | false => simp
    | true => simp [BitVec.lt_of_getLsbD hbit]
  split_ifs with hmatch hzero
  · -- the entry goes, as it has no other bit
    refine iff_of_false (by simp) ?_
    rintro ⟨⟨rfl, hbit⟩, hkeep⟩
    have hset := hunset.2 ⟨hbit, fun hi => hkeep ⟨hmatch.1, hi⟩⟩
    exact absurd (hzero ▸ hset) (by simp)
  · constructor
    · rintro ⟨_, ⟨rfl⟩, rfl, hbit⟩
      obtain ⟨hbit, hne⟩ := hunset.1 hbit
      exact ⟨⟨rfl, hbit⟩, fun hmatch => hne hmatch.2⟩
    · rintro ⟨⟨rfl, hbit⟩, hkeep⟩
      exact ⟨_, rfl, rfl, hunset.2 ⟨hbit, fun hi => hkeep ⟨hmatch.1, hi⟩⟩⟩
  · constructor
    · rintro ⟨_, ⟨rfl⟩, rfl, hbit⟩
      exact ⟨⟨rfl, hbit⟩, fun hkind => hmatch ⟨hkind.1, hkind.2 ▸ hbit⟩⟩
    · rintro ⟨hkind, -⟩
      exact ⟨ace, rfl, hkind⟩

variable {rt : Runtime} {sd sd' : SecurityDescriptor}

/-- Removing a right of one bit takes the bit from the kinds that match. -/
theorem bitSet_removeRightBase (hbit : right.IsBit i)
    (h : securityDescriptorRemoveRightBase sd trustee right allow = .ok sd') :
    BitSet sd'.aces kind bit ↔
      BitSet sd.aces kind bit ∧ ¬(kind.MatchesEdit trustee right allow ∧ bit = i) := by
  obtain ⟨-, rfl⟩ := removeRightBase_eq_ok.1 h
  rw [aces_replaceDacl]
  simp only [BitSet, List.mem_filterMap]
  constructor
  · rintro ⟨ace', ⟨ace, hmem, hstep⟩, hset⟩
    obtain ⟨hset, hkeep⟩ := (removeAccessRightsStep_bit hbit).1 ⟨ace', hstep, hset⟩
    exact ⟨⟨ace, hmem, hset⟩, hkeep⟩
  · rintro ⟨⟨ace, hmem, hset⟩, hkeep⟩
    obtain ⟨ace', hstep, hset⟩ := (removeAccessRightsStep_bit hbit).2 ⟨hset, hkeep⟩
    exact ⟨ace', ⟨ace, hmem, hstep⟩, hset⟩

theorem bitSet_addRightAces (hbit : right.IsBit i) : ∃ given : AceKind,
    given.MatchesEdit trustee right allow ∧ ∀ kind bit,
      BitSet (addRightAces rt trustee right allow aces) kind bit ↔
        BitSet aces kind bit ∨ kind = given ∧ bit = i := by
  induction aces with
  | nil =>
    have hparts := makeSecurityAce_parts rt trustee right right.accessMask allow
    refine ⟨(makeSecurityAce rt trustee right right.accessMask allow).kind, ?_, fun kind bit => ?_⟩
    · obtain ⟨hside, hflags, htrustee, hinherited, htype⟩ := hparts
      exact ⟨hside, hflags, htrustee, .inl hinherited, htype⟩
    · rw [addRightAces, hbit.map_eq, bitSet_cons, or_iff_left not_bitSet_nil,
        or_iff_right not_bitSet_nil, eq_comm]
      exact and_congr_right fun _ => hbit.getLsbD_iff
  | cons ace aces ih =>
    rw [addRightAces]
    split_ifs with hmatch
    · refine ⟨ace.kind, editMatch_kind.1 hmatch, fun kind bit => ?_⟩
      rw [bitSet_cons, bitSet_cons, hbit.map_eq, BitVec.getLsbD_or, Bool.or_eq_true,
        hbit.getLsbD_iff]
      have hkind : SecurityAce.kind { ace with
          accessMask := ace.accessMask ||| right.accessMask } = ace.kind := rfl
      rw [hkind, eq_comm (a := kind)]
      tauto
    · obtain ⟨given, hgiven, hadd⟩ := ih
      refine ⟨given, hgiven, fun kind bit => ?_⟩
      rw [bitSet_cons, bitSet_cons, hadd, or_assoc]

/-- Adding a right of one bit gives the bit to a kind that matches. -/
theorem bitSet_addRightBase (hbit : right.IsBit i)
    (h : securityDescriptorAddRightBase rt sd trustee right allow = .ok sd') :
    ∃ given : AceKind, given.MatchesEdit trustee right allow ∧ ∀ kind bit,
      BitSet sd'.aces kind bit ↔ BitSet sd.aces kind bit ∨ kind = given ∧ bit = i := by
  rw [aces_addRightBase h]
  exact bitSet_addRightAces hbit

theorem bitSet_sortDacl (h : securityDescriptorSortDacl rt sd = .ok sd') :
    BitSet sd'.aces kind bit ↔ BitSet sd.aces kind bit := by
  obtain ⟨dacl, hd, rfl⟩ := sortDacl_eq_ok.1 h
  refine bitSet_perm ?_
  simp only [SecurityDescriptor.aces, hd, Option.map_some, Option.getD_some]
  exact sortAces_perm rt dacl.aces

end


/-! ## Agreeing on the other bits -/

/-- The same bits are set, but for some. -/
def AgreeOff (C : AceKind → ℕ → Prop) (aces aces' : List SecurityAce) : Prop :=
  ∀ kind bit, ¬C kind bit → (BitSet aces' kind bit ↔ BitSet aces kind bit)

/-- The bits that a right stands for, in the entries that an edit of it changes. -/
def AceKind.StandsFor (kind : AceKind) (bit : ℕ) (trustee : DomSid) (right : SecurityRight)
    (allow : Bool) : Prop :=
  right.accessMask.getLsbD bit = true ∧ kind.MatchesEdit trustee right allow

section
variable {C C' : AceKind → ℕ → Prop} {aces aces₁ aces₂ : List SecurityAce}

theorem agreeOff_refl (C : AceKind → ℕ → Prop) (aces : List SecurityAce) : AgreeOff C aces aces :=
  fun _ _ _ => Iff.rfl

theorem AgreeOff.symm (h : AgreeOff C aces aces₁) : AgreeOff C aces₁ aces :=
  fun kind bit hC => (h kind bit hC).symm

theorem AgreeOff.trans (h : AgreeOff C aces aces₁) (h' : AgreeOff C aces₁ aces₂) :
    AgreeOff C aces aces₂ :=
  fun kind bit hC => (h' kind bit hC).trans (h kind bit hC)

theorem AgreeOff.mono (h : AgreeOff C aces aces₁) (hC : ∀ kind bit, C kind bit → C' kind bit) :
    AgreeOff C' aces aces₁ :=
  fun kind bit hbit => h kind bit (mt (hC kind bit) hbit)

variable {rt : Runtime} {sd sd' : SecurityDescriptor} {trustee : DomSid} {right : SecurityRight}
  {allow : Bool} {i : ℕ}

theorem agreeOff_removeRightBase (hbit : right.IsBit i)
    (hC : ∀ kind bit, kind.StandsFor bit trustee right allow → C kind bit)
    (h : securityDescriptorRemoveRightBase sd trustee right allow = .ok sd') :
    AgreeOff C sd.aces sd'.aces := fun kind bit hnot => by
  rw [bitSet_removeRightBase hbit h]
  exact and_iff_left fun ⟨hmatch, hi⟩ => hnot (hC kind bit ⟨hbit.getLsbD_iff.2 hi, hmatch⟩)

theorem agreeOff_addRightBase (hbit : right.IsBit i)
    (hC : ∀ kind bit, kind.StandsFor bit trustee right allow → C kind bit)
    (h : securityDescriptorAddRightBase rt sd trustee right allow = .ok sd') :
    AgreeOff C sd.aces sd'.aces := fun kind bit hnot => by
  obtain ⟨given, hgiven, hadd⟩ := bitSet_addRightBase hbit h
  rw [hadd]
  refine or_iff_left ?_
  rintro ⟨rfl, hi⟩
  exact hnot (hC kind bit ⟨hbit.getLsbD_iff.2 hi, hgiven⟩)

theorem agreeOff_sortDacl (h : securityDescriptorSortDacl rt sd = .ok sd') :
    AgreeOff C sd.aces sd'.aces := fun _ _ _ => bitSet_sortDacl h

end

/-! ## Rights that are denied -/

/-- The right is denied to the trustee by an entry that is not inherited. -/
def Denied (aces : List SecurityAce) (trustee : DomSid) (right : SecurityRight) : Prop :=
  ∃ kind bit, right.accessMask.getLsbD bit = true ∧ BitSet aces kind bit ∧
    kind.MatchesState trustee right false ∧ ¬kind.IsInherited

section
variable {C : AceKind → ℕ → Prop} {aces aces' : List SecurityAce} {rt : Runtime}
  {sd sd' : SecurityDescriptor} {trustee : DomSid} {right : SecurityRight} {i : ℕ}

/-- The state of a right of one bit. -/
theorem get_no_deny_iff (hbit : right.IsBit i) {state : SecurityRightState}
    (h : securityDescriptorGetRightState sd trustee right = .ok state) :
    state.get .no .deny = true ↔ Denied sd.aces trustee right := by
  have hstate := @getRightState_get_iff sd trustee right state h .no false
  rw [SecurityRightStateType.ofAllow, if_neg Bool.false_ne_true] at hstate
  rw [hstate]
  simp only [aceMatch_kind, bitmaskToInheritedState_kind, hbit.map_eq, hbit.isSet_iff]
  constructor
  · rintro ⟨ace, hmem, hinherited, hset, hmatch⟩
    exact ⟨ace.kind, i, hbit.getLsbD_iff.2 rfl, ⟨ace, hmem, rfl, hset⟩, hmatch, hinherited⟩
  · rintro ⟨_, bit, hmask, ⟨ace, hmem, rfl, hset⟩, hmatch, hinherited⟩
    exact ⟨ace, hmem, hinherited, hbit.getLsbD_iff.1 hmask ▸ hset, hmatch⟩

/-- Whether a right is denied depends on its own bits only. -/
theorem AgreeOff.denied_iff (h : AgreeOff C aces aces')
    (hC : ∀ kind bit, right.accessMask.getLsbD bit = true → ¬C kind bit) :
    Denied aces' trustee right ↔ Denied aces trustee right :=
  exists_congr fun kind => exists_congr fun bit => and_congr_right fun hmask =>
    and_congr_left fun _ => h kind bit (hC kind bit hmask)

/-- A right that is added on the denying side is denied. -/
theorem denied_addRightBase (hbit : right.IsBit i)
    (hflags : ¬bitmaskIsSet right.flags secAceFlagInheritedAce = true)
    (h : securityDescriptorAddRightBase rt sd trustee right false = .ok sd') :
    Denied sd'.aces trustee right := by
  obtain ⟨given, hgiven, hadd⟩ := bitSet_addRightBase hbit h
  refine ⟨given, i, hbit.getLsbD_iff.2 rfl, (hadd given i).2 (.inr ⟨rfl, rfl⟩),
    hgiven.matchesState, ?_⟩
  rw [AceKind.IsInherited, hgiven.2.1]
  exact hflags

/-- What is denied stays so when a right is added, -/
theorem Denied.addRightBase (h : Denied sd.aces trustee right) {trustee' : DomSid}
    {right' : SecurityRight} {allow : Bool} (hbit : right'.IsBit i)
    (hadd : securityDescriptorAddRightBase rt sd trustee' right' allow = .ok sd') :
    Denied sd'.aces trustee right := by
  obtain ⟨_, -, hbits⟩ := bitSet_addRightBase hbit hadd
  obtain ⟨kind, bit, hmask, hset, hmatch⟩ := h
  exact ⟨kind, bit, hmask, (hbits kind bit).2 (.inl hset), hmatch⟩

/-- and when one is removed on the allowing side. -/
theorem Denied.removeRightBase (h : Denied sd.aces trustee right) {trustee' : DomSid}
    {right' : SecurityRight} (hbit : right'.IsBit i)
    (hremove : securityDescriptorRemoveRightBase sd trustee' right' true = .ok sd') :
    Denied sd'.aces trustee right := by
  obtain ⟨kind, bit, hmask, hset, hmatch, hinherited⟩ := h
  refine ⟨kind, bit, hmask, (bitSet_removeRightBase hbit hremove).2 ⟨hset, fun hother => ?_⟩,
    hmatch, hinherited⟩
  exact hmatch.not_other hother.1

/-- A right is denied by other entries than those that an edit of it changes. -/
def DeniedOtherwise (aces : List SecurityAce) (trustee : DomSid) (right : SecurityRight) : Prop :=
  ∃ kind bit, right.accessMask.getLsbD bit = true ∧ BitSet aces kind bit ∧
    kind.MatchesState trustee right false ∧ ¬kind.IsInherited ∧
    ¬kind.MatchesEdit trustee right false

/-- A right without object types is not denied otherwise. -/
theorem not_deniedOtherwise (hright : right.objectType = none) :
    ¬DeniedOtherwise aces trustee right := by
  rintro ⟨kind, bit, -, -, hmatch, hinherited, hother⟩
  exact hother (hmatch.matchesEdit hright hinherited)

/-- A right that is removed on the denying side is denied otherwise only. -/
theorem denied_removeRightBase (hbit : right.IsBit i)
    (h : securityDescriptorRemoveRightBase sd trustee right false = .ok sd') :
    Denied sd'.aces trustee right ↔ DeniedOtherwise sd.aces trustee right := by
  refine exists_congr fun kind => exists_congr fun bit => and_congr_right fun hmask => ?_
  rw [bitSet_removeRightBase hbit h, and_iff_left (hbit.getLsbD_iff.1 hmask)]
  tauto

end

end Admc
