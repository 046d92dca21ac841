import Admc.Lib.Sort
import Admc.Security.Descriptor

/-!
# The order of a DACL

Two comparators order the entries of a DACL: `ace_compare`, by which
`security_descriptor_sort_dacl` sorts them, and `ace_compare_simplified`, by
which `security_descriptor_verify_acl_order` checks their order. Both put
inherited entries last, and allowing entries after denying ones. They part on
the entries that neither allow nor deny (audits, alarms, callbacks), which the
sort puts after the allowing ones, while to the check they are like the denying
ones.

* Each comparator respects an order on keys: `AceKey` for the sort (`aceKey`),
  inheritance and allowing for the check (`simplifiedKey`).
* `verify_sort_iff`: sorting a DACL makes the check succeed exactly when it
  does not hold both kinds of entries with the same inheritance.
-/

namespace Admc

/-- What the code takes from its libraries and from uninitialised memory: `memcmp` on
    two entries, the case-insensitive `strcasecmp_m`, the contents of a fresh local
    `security_ace`, and the decoding of UTF-8 (`QString::fromUtf8`), valid or not. -/
structure Runtime where
  memcmp : SecurityAce → SecurityAce → ℤ
  strcasecmpM : String → String → ℤ
  uninit : SecurityAce
  fromUtf8 : List UInt8 → String

/-- A runtime to evaluate the model in: entries that differ in nothing else are the
    same in memory, fresh memory is zeroed, and texts are valid. -/
def zeroRuntime : Runtime where
  memcmp _ _ := 0
  strcasecmpM s t := if s = t then 0 else 1
  uninit := zeroAce
  fromUtf8 bytes := (String.fromUTF8? ⟨bytes.toArray⟩).getD ""

variable (rt : Runtime)

/-! ## The comparators -/

/-- `security_ace_object_equal`. -/
def securityAceObjectEqual (object1 object2 : AceObject) : Bool :=
  if object1.flags ≠ object2.flags then false
  else if object1.flags &&& secAceObjectTypePresent ≠ 0 ∧ object1.type ≠ object2.type then false
  else if object1.flags &&& secAceInheritedObjectTypePresent ≠ 0 ∧
      object1.inheritedType ≠ object2.inheritedType then false
  else true

/-- Equal through two pointers that may be null. -/
def nullableEqual {α : Type*} (eq : α → α → Bool) : Option α → Option α → Bool
  | some a, some b => eq a b
  | none, none => true
  | _, _ => false

/-- The value loop of `security_ace_claim_equal`, the counts being equal. -/
def claimValuesEqual : ClaimValues → ClaimValues → Bool
  | .int64 l, .int64 m | .uint64 l, .uint64 m | .boolean l, .boolean m =>
    l.length = m.length ∧ (l.zip m).all fun v => nullableEqual (· == ·) v.1 v.2
  | .string l, .string m =>
    l.length = m.length ∧
      (l.zip m).all fun v => nullableEqual (fun s t => rt.strcasecmpM s t = 0) v.1 v.2
  | .sid l, .sid m | .octetString l, .octetString m =>
    l.length = m.length ∧ (l.zip m).all fun v => nullableEqual (· == ·) v.1 v.2
  | .other t c, .other t' c' => t = t' ∧ c = c'
  | _, _ => false

/-- `security_ace_claim_equal`. -/
def securityAceClaimEqual (claim1 claim2 : Claim) : Bool :=
  nullableEqual (fun s t => rt.strcasecmpM s t = 0) claim1.name claim2.name &&
    claim1.flags == claim2.flags && claimValuesEqual rt claim1.values claim2.values

/-- `security_ace_equal`. -/
def securityAceEqual (ace1 ace2 : SecurityAce) : Bool :=
  if ace1.type ≠ ace2.type then false
  else if ace1.flags ≠ ace2.flags then false
  else if ace1.accessMask ≠ ace2.accessMask then false
  else if secAceObject ace1.type && !securityAceObjectEqual ace1.object ace2.object then false
  else if domSidCompare ace1.trustee ace2.trustee ≠ 0 then false
  else if secAceCallback ace1.type then ace1.coda.conditions == ace2.coda.conditions
  else if secAceResource ace1.type then securityAceClaimEqual rt ace1.coda.claim ace2.coda.claim
  else true

/-- `ace_is_inherited`. -/
def aceIsInherited (ace : SecurityAce) : Bool := ace.flags &&& secAceFlagInheritedAce ≠ 0

/-- `ace_is_access_allowed`. -/
def aceIsAccessAllowed (ace : SecurityAce) : Bool :=
  ace.type = .accessAllowed ∨ ace.type = .accessAllowedObject

/-- The entry is neither allowing nor denying, as tested in `ace_compare`: "AUDITs
    and ALARMs", which are sorted after DENY and ALLOW. -/
def aceIsUnordered (ace : SecurityAce) : Bool :=
  ace.type ≠ .accessAllowed ∧ ace.type ≠ .accessAllowedObject ∧
    ace.type ≠ .accessDenied ∧ ace.type ≠ .accessDeniedObject

/-- The entry allows or denies on an object, as tested in `ace_compare`. -/
def aceIsForObject (ace : SecurityAce) : Bool :=
  ace.type = .accessAllowedObject ∨ ace.type = .accessDeniedObject

/-- `b1 ? 1 : -1`. -/
def after (b : Bool) : ℤ := if b then 1 else -1

/-- `ace_compare`. -/
def aceCompare (ace1 ace2 : SecurityAce) : ℤ :=
  if securityAceEqual rt ace1 ace2 then 0
  else if aceIsInherited ace1 ≠ aceIsInherited ace2 then after (aceIsInherited ace1)
  else if aceIsUnordered ace1 ≠ aceIsUnordered ace2 then after (aceIsUnordered ace1)
  else if aceIsAccessAllowed ace1 ≠ aceIsAccessAllowed ace2 then after (aceIsAccessAllowed ace1)
  else if aceIsForObject ace1 ≠ aceIsForObject ace2 then after (aceIsForObject ace1)
  else if ace1.type ≠ ace2.type then
    -- the other way round, so that denying entries (1) come before allowing ones (0)
    numericCmp ace2.type.code ace1.type.code
  else if domSidCompare ace1.trustee ace2.trustee ≠ 0 then domSidCompare ace1.trustee ace2.trustee
  else if ace1.flags ≠ ace2.flags then numericCmp ace1.flags ace2.flags
  else if ace1.accessMask ≠ ace2.accessMask then numericCmp ace1.accessMask ace2.accessMask
  else if ace1.size ≠ ace2.size then numericCmp ace1.size ace2.size
  else rt.memcmp ace1 ace2

/-- `ace_compare_simplified`. -/
def aceCompareSimplified (ace1 ace2 : SecurityAce) : ℤ :=
  if securityAceEqual rt ace1 ace2 then 0
  else if aceIsInherited ace1 ≠ aceIsInherited ace2 then after (aceIsInherited ace1)
  else if aceIsAccessAllowed ace1 ≠ aceIsAccessAllowed ace2 then after (aceIsAccessAllowed ace1)
  else 0

/-! ## Sorting and checking -/

/-- `qsort` with `ace_compare`. -/
def sortAces (aces : List SecurityAce) : List SecurityAce :=
  aces.insertionSort fun ace1 ace2 => aceCompare rt ace1 ace2 ≤ 0

/-- `security_descriptor_sort_dacl`. -/
def securityDescriptorSortDacl (sd : SecurityDescriptor) : Except Fault SecurityDescriptor :=
  match sd.dacl with
  | none => .error .nullDacl
  | some dacl => .ok { sd with dacl := some { dacl with aces := sortAces rt dacl.aces } }

/-- The loop of `is_order_correct`, from the entry `curr` and the verdict `out` so
    far. -/
def isOrderCorrectFrom : SecurityAce → Bool → List SecurityAce → Bool
  | _, out, [] => out
  | curr, out, next :: dacl =>
    let orderIsGood := aceCompareSimplified rt curr next ≤ 0
    isOrderCorrectFrom next (if ¬orderIsGood then false else out) dacl

/-- `is_order_correct`: the first entry is taken before any test for emptiness. -/
def isOrderCorrect (copy : SecurityDescriptor) : Except Fault Bool := do
  match ← securityDescriptorGetDacl copy with
  | [] => .error .emptyList
  | curr :: dacl => .ok (isOrderCorrectFrom rt curr true dacl)

/-- `security_descriptor_verify_acl_order` (the copy holds the same entries). -/
def securityDescriptorVerifyAclOrder (sd : SecurityDescriptor) : Except Fault Bool :=
  isOrderCorrect rt sd

theorem sortAces_perm (aces : List SecurityAce) : (sortAces rt aces).Perm aces :=
  List.perm_insertionSort _ aces

variable {rt}

/-- Sorting is defined on a non-null DACL, whose entries it permutes. -/
theorem sortDacl_eq_ok {sd sd' : SecurityDescriptor} :
    securityDescriptorSortDacl rt sd = .ok sd' ↔ ∃ dacl, sd.dacl = some dacl ∧
      sd' = { sd with dacl := some { dacl with aces := sortAces rt dacl.aces } } := by
  rw [securityDescriptorSortDacl]
  cases sd.dacl with
  | none => simp
  | some dacl => simp [eq_comm]

theorem isOrderCorrectFrom_iff {curr : SecurityAce} {out : Bool} {dacl : List SecurityAce} :
    isOrderCorrectFrom rt curr out dacl = true ↔
      out = true ∧ (curr :: dacl).IsChain (aceCompareSimplified rt · · ≤ 0) := by
  induction dacl generalizing curr out with
  | nil => simp [isOrderCorrectFrom]
  | cons next dacl ih =>
    simp only [isOrderCorrectFrom, ih, List.isChain_cons_cons]
    by_cases h : aceCompareSimplified rt curr next ≤ 0 <;> simp [h]

theorem verifyAclOrder_eq_true {sd : SecurityDescriptor} :
    securityDescriptorVerifyAclOrder rt sd = .ok true ↔
      sd.aces ≠ [] ∧ sd.aces.IsChain (aceCompareSimplified rt · · ≤ 0) := by
  unfold securityDescriptorVerifyAclOrder isOrderCorrect securityDescriptorGetDacl
    SecurityDescriptor.aces
  obtain _ | ⟨rev, size, _ | ⟨curr, dacl⟩⟩ := sd.dacl
  · simp [bind, Except.bind]
  · simp [bind, Except.bind]
  · simp [bind, Except.bind, isOrderCorrectFrom_iff]

/-! ## Keys -/

/-- The key the sort puts entries in order of: whether they are inherited, then
    deny, allow and anything else. -/
def aceKey (ace : SecurityAce) : ℕ :=
  (if aceIsInherited ace then 3 else 0) +
    if aceIsUnordered ace then 2 else if aceIsAccessAllowed ace then 1 else 0

/-- The key the check looks at. -/
def simplifiedKey (ace : SecurityAce) : ℕ :=
  (if aceIsInherited ace then 2 else 0) + if aceIsAccessAllowed ace then 1 else 0

theorem securityAceEqual_type_flags {ace1 ace2 : SecurityAce}
    (h : securityAceEqual rt ace1 ace2 = true) :
    ace1.type = ace2.type ∧ ace1.flags = ace2.flags := by
  rw [securityAceEqual] at h
  split_ifs at h with ht hf <;> exact ⟨not_not.1 ht, not_not.1 hf⟩

theorem keys_eq_of_securityAceEqual {ace1 ace2 : SecurityAce}
    (h : securityAceEqual rt ace1 ace2 = true) :
    aceKey ace1 = aceKey ace2 ∧ simplifiedKey ace1 = simplifiedKey ace2 := by
  obtain ⟨ht, hf⟩ := securityAceEqual_type_flags h
  have hi : aceIsInherited ace1 = aceIsInherited ace2 := by rw [aceIsInherited, hf, aceIsInherited]
  have hu : aceIsUnordered ace1 = aceIsUnordered ace2 := by rw [aceIsUnordered, ht, aceIsUnordered]
  have ha : aceIsAccessAllowed ace1 = aceIsAccessAllowed ace2 := by
    rw [aceIsAccessAllowed, ht, aceIsAccessAllowed]
  exact ⟨by rw [aceKey, hi, hu, ha, aceKey], by rw [simplifiedKey, hi, ha, simplifiedKey]⟩

theorem not_unordered_of_allowed {ace : SecurityAce} (h : aceIsAccessAllowed ace = true) :
    aceIsUnordered ace = false := by
  simp only [aceIsAccessAllowed, decide_eq_true_eq] at h
  rcases h with h | h <;> simp [aceIsUnordered, h]

/-- The comparator of the sort tells apart entries of different keys, by their
    keys. -/
theorem aceCompare_of_key_ne {ace1 ace2 : SecurityAce} (h : aceKey ace1 ≠ aceKey ace2) :
    aceCompare rt ace1 ace2 = if aceKey ace1 < aceKey ace2 then -1 else 1 := by
  have hne : ¬securityAceEqual rt ace1 ace2 = true := fun he =>
    h (keys_eq_of_securityAceEqual he).1
  have h1 := @not_unordered_of_allowed ace1
  have h2 := @not_unordered_of_allowed ace2
  grind [aceCompare, aceKey, after]

/-- The comparator of the check fails on two entries exactly when their keys
    decrease. -/
theorem aceCompareSimplified_le_zero {ace1 ace2 : SecurityAce} :
    aceCompareSimplified rt ace1 ace2 ≤ 0 ↔ simplifiedKey ace1 ≤ simplifiedKey ace2 := by
  by_cases he : securityAceEqual rt ace1 ace2 = true
  · rw [aceCompareSimplified, if_pos he, (keys_eq_of_securityAceEqual he).2]
    simp
  · grind [aceCompareSimplified, simplifiedKey, after]

/-- The sort sorts by the keys, whatever the tie-breaks of its comparator. -/
theorem pairwise_aceKey_sortAces (aces : List SecurityAce) :
    (sortAces rt aces).Pairwise (aceKey · ≤ aceKey ·) := by
  refine List.pairwise_key_insertionSort (fun a b hab => ?_) (fun a b hab => ?_) aces
  · by_contra hlt
    rw [aceCompare_of_key_ne (by omega), if_neg (by omega)] at hab
    exact absurd hab (by decide)
  · by_contra hlt
    rw [aceCompare_of_key_ne (by omega), if_pos (by omega)] at hab
    exact hab (by decide)

theorem isChain_simplified_iff {aces : List SecurityAce} :
    aces.IsChain (aceCompareSimplified rt · · ≤ 0) ↔
      aces.Pairwise (simplifiedKey · ≤ simplifiedKey ·) := by
  simp only [aceCompareSimplified_le_zero]
  have : IsTrans SecurityAce (simplifiedKey · ≤ simplifiedKey ·) := ⟨fun _ _ _ => le_trans⟩
  exact List.isChain_iff_pairwise

/-- An allowing entry and one that neither allows nor denies, with the same
    inheritance: the pair on which the two orders disagree. -/
def OrdersDisagree (ace1 ace2 : SecurityAce) : Prop :=
  aceIsInherited ace1 = aceIsInherited ace2 ∧ aceIsAccessAllowed ace1 ∧ aceIsUnordered ace2

theorem OrdersDisagree.keys {ace1 ace2 : SecurityAce} (h : OrdersDisagree ace1 ace2) :
    aceKey ace1 < aceKey ace2 ∧ simplifiedKey ace2 < simplifiedKey ace1 := by
  obtain ⟨hi, ha, hu⟩ := h
  have hu1 := not_unordered_of_allowed ha
  have ha2 : aceIsAccessAllowed ace2 = false := by
    by_contra hne
    rw [not_unordered_of_allowed (Bool.eq_true_of_not_eq_false hne)] at hu
    exact Bool.false_ne_true hu
  simp [aceKey, simplifiedKey, hi, ha, hu, hu1, ha2]

theorem OrdersDisagree.of_keys {ace1 ace2 : SecurityAce} (hk : aceKey ace1 ≤ aceKey ace2)
    (hs : ¬simplifiedKey ace1 ≤ simplifiedKey ace2) : OrdersDisagree ace1 ace2 := by
  have h1 := @not_unordered_of_allowed ace1
  grind [OrdersDisagree, aceKey, simplifiedKey]

/-- Sorted, the entries pass the check exactly when the two orders disagree on no
    two of them. -/
theorem isChain_sortAces_iff {aces : List SecurityAce} :
    (sortAces rt aces).IsChain (aceCompareSimplified rt · · ≤ 0) ↔
      ∀ ace1 ∈ aces, ∀ ace2 ∈ aces, ¬OrdersDisagree ace1 ace2 := by
  have hmem : ∀ a, a ∈ sortAces rt aces ↔ a ∈ aces := fun a => (sortAces_perm rt aces).mem_iff
  have hkey := @pairwise_aceKey_sortAces rt aces
  rw [isChain_simplified_iff]
  constructor
  · intro h a ha b hb hd
    exact not_lt.2 (hkey.le_of_lt h ((hmem a).2 ha) ((hmem b).2 hb) hd.keys.1) hd.keys.2
  · intro h
    refine hkey.imp_of_mem fun {a b} ha hb hab => ?_
    by_contra hs
    exact h a ((hmem a).1 ha) b ((hmem b).1 hb) (.of_keys hab hs)

/-- Sorting a non-empty DACL permutes it, and makes the check of its order succeed
    exactly when it holds no allowing entry along with one, of the same
    inheritance, that neither allows nor denies. -/
theorem verify_sort_iff (sd : SecurityDescriptor) (hne : sd.aces ≠ []) :
    (∃ sd', securityDescriptorSortDacl rt sd = .ok sd' ∧ sd'.aces.Perm sd.aces ∧
      securityDescriptorVerifyAclOrder rt sd' = .ok true) ↔
      ∀ ace1 ∈ sd.aces, ∀ ace2 ∈ sd.aces, ¬OrdersDisagree ace1 ace2 := by
  obtain ⟨rev, ty, owner, group, sacl, _ | dacl⟩ := sd
  · exact absurd rfl hne
  · have hperm := sortAces_perm rt dacl.aces
    rw [← @isChain_sortAces_iff rt]
    simp only [sortDacl_eq_ok, verifyAclOrder_eq_true]
    constructor
    · rintro ⟨_, ⟨_, hd, rfl⟩, _, _, h⟩
      obtain rfl := Option.some.inj hd
      exact h
    · refine fun h => ⟨_, ⟨_, rfl, rfl⟩, hperm, fun h0 => hne ?_, h⟩
      exact (hperm.symm.trans (.of_eq h0)).eq_nil

/-- A DACL of a denying and an allowing entry, which sorting puts in order. -/
theorem verify_sort_allow_deny :
    (∃ sd', securityDescriptorSortDacl zeroRuntime
        (.ofAces [zeroAce, { zeroAce with type := .accessDenied }]) = .ok sd' ∧
      sd'.aces.Perm [zeroAce, { zeroAce with type := .accessDenied }] ∧
      securityDescriptorVerifyAclOrder zeroRuntime sd' = .ok true) ↔
      ∀ ace1 ∈ [zeroAce, { zeroAce with type := .accessDenied }],
        ∀ ace2 ∈ [zeroAce, { zeroAce with type := .accessDenied }], ¬OrdersDisagree ace1 ace2 :=
  verify_sort_iff (.ofAces [zeroAce, { zeroAce with type := .accessDenied }]) (by decide)

/-- A DACL of an allowing and a conditional (callback) entry fails the check also
    once it is sorted. -/
theorem not_verify_sort_callback :
    ∃ sd' : SecurityDescriptor,
      securityDescriptorSortDacl zeroRuntime
        (.ofAces [zeroAce, { zeroAce with type := .accessAllowedCallback }]) = .ok sd' ∧
      securityDescriptorVerifyAclOrder zeroRuntime sd' = .ok false :=
  ⟨_, rfl, by decide⟩

end Admc
