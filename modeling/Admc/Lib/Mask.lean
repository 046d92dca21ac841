import Mathlib.Data.List.Basic
import Mathlib.Data.List.Perm.Basic
import Mathlib.Tactic.Common

/-!
# Tables of masks

The entries of an access control list that concern one principal, reduced to
what they grant: for each side (`true` to allow, `false` to deny) and each
object type (`none` for entries about the object as a whole), the masks of the
entries, in order. A right is a mask of one object type; it is set by an entry
whose mask includes its own, of its object type or of none (`Table.IsSet`).

Two operations edit a table:

* `Table.remove` takes a right out of every entry that includes its mask,
  dropping the entries that become empty. What is taken out of an entry is left
  open (`unset`): it may depend on the rest of the entry;
* `Table.add` adds a right to the first entry of its object type, or to a new
  one.

The lemmas say which rights an operation sets, keeps and takes away. The masks
of single bits (`Atom`) are exact: they are set only where they are added, and
gone wherever they are removed.
-/

namespace Mask

variable {w : ℕ}

/-- The mask `M` includes `m`. -/
def Includes (M m : BitVec w) : Prop := M &&& m = m

instance (M m : BitVec w) : Decidable (Includes M m) := inferInstanceAs (Decidable (_ = _))

theorem includes_iff {M m : BitVec w} :
    Includes M m ↔ ∀ i, m.getLsbD i = true → M.getLsbD i = true := by
  refine ⟨fun h i hi => ?_, fun h => BitVec.eq_of_getLsbD_eq fun i _ => ?_⟩
  · have := congrArg (BitVec.getLsbD · i) h
    simp only [BitVec.getLsbD_and, hi, Bool.and_true] at this
    exact this
  · rw [BitVec.getLsbD_and]
    cases hm : m.getLsbD i
    · exact Bool.and_false _
    · rw [h i hm, Bool.and_true]

@[simp] theorem includes_refl (m : BitVec w) : Includes m m := BitVec.and_self

theorem Includes.trans {M N m : BitVec w} (h : Includes M N) (h' : Includes N m) :
    Includes M m :=
  includes_iff.2 fun i hi => includes_iff.1 h i (includes_iff.1 h' i hi)

theorem Includes.or_left {M m : BitVec w} (h : Includes M m) (n : BitVec w) :
    Includes (M ||| n) m :=
  includes_iff.2 fun i hi => by rw [BitVec.getLsbD_or, includes_iff.1 h i hi, Bool.true_or]

theorem includes_or_right (M m : BitVec w) : Includes (M ||| m) m :=
  includes_iff.2 fun i hi => by rw [BitVec.getLsbD_or, hi, Bool.or_true]

theorem Includes.of_andNot {M n m : BitVec w} (h : Includes (M &&& ~~~n) m) : Includes M m :=
  includes_iff.2 fun i hi => by
    have := includes_iff.1 h i hi
    rw [BitVec.getLsbD_and, Bool.and_eq_true] at this
    exact this.1

theorem or_eq_left {M m : BitVec w} (h : Includes M m) : M ||| m = M :=
  BitVec.eq_of_getLsbD_eq fun i _ => by
    rw [BitVec.getLsbD_or]
    cases hm : m.getLsbD i
    · exact Bool.or_false _
    · rw [includes_iff.1 h i hm, Bool.or_true]

theorem getLsbD_of_disjoint {n m : BitVec w} (h : n &&& m = 0) {i : ℕ} (hi : m.getLsbD i = true) :
    n.getLsbD i = false := by
  have := congrArg (BitVec.getLsbD · i) h
  simpa [hi] using this

theorem Includes.andNot {M n m : BitVec w} (h : Includes M m) (hd : n &&& m = 0) :
    Includes (M &&& ~~~n) m :=
  includes_iff.2 fun i hi => by
    rw [BitVec.getLsbD_and, includes_iff.1 h i hi, BitVec.getLsbD_not,
      getLsbD_of_disjoint hd hi]
    simpa using BitVec.lt_of_getLsbD hi

theorem Includes.of_or {M n m : BitVec w} (h : Includes (M ||| n) m) (hd : n &&& m = 0) :
    Includes M m :=
  includes_iff.2 fun i hi => by
    have := includes_iff.1 h i hi
    rwa [BitVec.getLsbD_or, getLsbD_of_disjoint hd hi, Bool.or_false] at this

theorem andNot_and_self (M m : BitVec w) : M &&& ~~~m &&& m = 0 :=
  BitVec.eq_of_getLsbD_eq fun i _ => by
    rw [BitVec.getLsbD_and, BitVec.getLsbD_and, BitVec.getLsbD_not]
    cases m.getLsbD i <;> simp

theorem andNot_eq_left {M m : BitVec w} (h : M &&& m = 0) : M &&& ~~~m = M :=
  BitVec.eq_of_getLsbD_eq fun i hi => by
    rw [BitVec.getLsbD_and, BitVec.getLsbD_not]
    cases hm : m.getLsbD i with
    | true => rw [getLsbD_of_disjoint h hm, Bool.false_and]
    | false => rw [Bool.not_false, decide_eq_true hi, Bool.and_true, Bool.and_true]

theorem Includes.ne_zero {M m : BitVec w} (h : Includes M m) (hm : m ≠ 0) : M ≠ 0 := by
  rintro rfl
  exact hm (h.symm.trans (BitVec.zero_and))

theorem eq_zero_of_includes_of_disjoint {n m : BitVec w} (hd : n &&& m = 0)
    (h : Includes n m) : m = 0 := h.symm.trans hd

/-! ## Atoms -/

/-- A mask of a single bit. -/
def Atom (m : BitVec w) : Prop := ∃ i < w, m = BitVec.twoPow w i

theorem includes_twoPow {M : BitVec w} {i : ℕ} (hi : i < w) :
    Includes M (BitVec.twoPow w i) ↔ M.getLsbD i = true := by
  rw [includes_iff]
  refine ⟨fun h => h i (by simp [hi]), fun h j hj => ?_⟩
  rw [BitVec.getLsbD_twoPow, Bool.and_eq_true, decide_eq_true_eq, decide_eq_true_eq] at hj
  exact hj.2 ▸ h

theorem Atom.ne_zero {m : BitVec w} (hm : Atom m) : m ≠ 0 := by
  obtain ⟨i, hi, rfl⟩ := hm
  intro h
  simpa [hi] using congrArg (BitVec.getLsbD · i) h

theorem Atom.of_or {m : BitVec w} (hm : Atom m) {M N : BitVec w} (h : Includes (M ||| N) m) :
    Includes M m ∨ Includes N m := by
  obtain ⟨i, hi, rfl⟩ := hm
  simpa [includes_twoPow hi, BitVec.getLsbD_or] using h

theorem Atom.disjoint {m n : BitVec w} (hm : Atom m) (h : ¬Includes n m) : n &&& m = 0 := by
  obtain ⟨i, hi, rfl⟩ := hm
  rw [includes_twoPow hi] at h
  refine BitVec.eq_of_getLsbD_eq fun j _ => ?_
  rw [BitVec.getLsbD_and, BitVec.getLsbD_twoPow]
  by_cases hij : i = j
  · simp [← hij, h]
  · simp [hij]

theorem Atom.not_includes_andNot {m n : BitVec w} (hm : Atom m) (h : Includes n m)
    (M : BitVec w) : ¬Includes (M &&& ~~~n) m := by
  obtain ⟨i, hi, rfl⟩ := hm
  rw [includes_twoPow hi] at h ⊢
  simp [h]

/-! ## Tables -/

/-- The masks of the entries, by side and object type. -/
abbrev Table (κ : Type*) (w : ℕ) := Bool → Option κ → List (BitVec w)

/-- What is left of the entry `M` once `m` is removed from it: if it includes
    `m`, then without the mask `unset m M`. -/
def strip (unset : BitVec w → BitVec w → BitVec w) (m M : BitVec w) : Option (BitVec w) :=
  if Includes M m then
    if M &&& ~~~unset m M = 0 then none else some (M &&& ~~~unset m M)
  else some M

theorem strip_of_includes {unset : BitVec w → BitVec w → BitVec w} {m M : BitVec w}
    (h : Includes M m) : strip unset m M =
      if M &&& ~~~unset m M = 0 then none else some (M &&& ~~~unset m M) := if_pos h

theorem strip_of_not_includes {unset : BitVec w → BitVec w → BitVec w} {m M : BitVec w}
    (h : ¬Includes M m) : strip unset m M = some M := if_neg h

/-- Adding `m` to the first entry, or to a new one. -/
def grant (m : BitVec w) : List (BitVec w) → List (BitVec w)
  | [] => [m]
  | M :: l => (M ||| m) :: l

namespace Table

variable {κ : Type*} [DecidableEq κ] (unset : BitVec w → BitVec w → BitVec w) (T : Table κ w)

/-- Editing the entries of one side and object type. -/
def modify (s : Bool) (o : Option κ) (f : List (BitVec w) → List (BitVec w)) : Table κ w :=
  fun s' o' => if s' = s ∧ o' = o then f (T s' o') else T s' o'

/-- Removing the right of mask `m` and object type `o` from the side `s`. -/
def remove (s : Bool) (o : Option κ) (m : BitVec w) : Table κ w :=
  T.modify s o (List.filterMap (strip unset m))

/-- Adding the right of mask `m` and object type `o` to the side `s`. -/
def add (s : Bool) (o : Option κ) (m : BitVec w) : Table κ w := T.modify s o (grant m)

/-- The right of mask `m` and object type `o` is set on the side `s`: some entry of
    this object type, or of none, includes it. -/
def IsSet (s : Bool) (o : Option κ) (m : BitVec w) : Prop :=
  ∃ M, (M ∈ T s none ∨ M ∈ T s o) ∧ Includes M m

instance (s : Bool) (o : Option κ) (m : BitVec w) : Decidable (T.IsSet s o m) :=
  decidable_of_iff (∃ M ∈ T s none ++ T s o, Includes M m) (by simp [IsSet])

/-- The same entries, up to their order. -/
def Equiv (T' : Table κ w) : Prop := ∀ s o, (T s o).Perm (T' s o)

variable {unset T}

omit [DecidableEq κ] in
theorem Equiv.isSet_iff {T' : Table κ w} (h : T.Equiv T') {s : Bool} {o : Option κ}
    {m : BitVec w} : T.IsSet s o m ↔ T'.IsSet s o m :=
  exists_congr fun _ => and_congr_left' (or_congr (h s none).mem_iff (h s o).mem_iff)

@[simp] theorem remove_other {s s' : Bool} (h : s' ≠ s) (o : Option κ) (m : BitVec w) :
    T.remove unset s o m s' = T s' := by
  funext o'
  simp [remove, modify, h]

@[simp] theorem add_other {s s' : Bool} (h : s' ≠ s) (o : Option κ) (m : BitVec w) :
    T.add s o m s' = T s' := by
  funext o'
  simp [add, modify, h]

omit [DecidableEq κ] in
theorem isSet_congr {T' : Table κ w} {s : Bool} (h : T s = T' s) {o : Option κ} {m : BitVec w} :
    T.IsSet s o m ↔ T'.IsSet s o m := by
  simp only [IsSet, h]

/-! ### Removing -/

theorem mem_strip {m M M' : BitVec w} (h : strip unset m M = some M') :
    ¬Includes M m ∧ M' = M ∨ Includes M m ∧ M' = M &&& ~~~unset m M := by
  rw [strip] at h
  split_ifs at h with hi h0
  · exact .inr ⟨hi, (Option.some.inj h).symm⟩
  · exact .inl ⟨hi, (Option.some.inj h).symm⟩

/-- Entries only shrink. -/
theorem exists_of_mem_remove {s s' : Bool} {o o' : Option κ} {m M' : BitVec w}
    (h : M' ∈ T.remove unset s o m s' o') : ∃ M ∈ T s' o', ∀ m', Includes M' m' → Includes M m' := by
  rw [remove, modify] at h
  split_ifs at h
  · obtain ⟨M, hM, hs⟩ := List.mem_filterMap.1 h
    rcases mem_strip hs with ⟨_, rfl⟩ | ⟨_, rfl⟩
    · exact ⟨_, hM, fun _ => id⟩
    · exact ⟨M, hM, fun _ => Includes.of_andNot⟩
  · exact ⟨M', h, fun _ => id⟩

/-- Removing a right sets none. -/
theorem IsSet.of_remove {s s' : Bool} {o o' : Option κ} {m m' : BitVec w}
    (h : (T.remove unset s o m).IsSet s' o' m') : T.IsSet s' o' m' := by
  obtain ⟨M', hM' | hM', hm'⟩ := h
  · obtain ⟨M, hM, hi⟩ := exists_of_mem_remove hM'
    exact ⟨M, .inl hM, hi m' hm'⟩
  · obtain ⟨M, hM, hi⟩ := exists_of_mem_remove hM'
    exact ⟨M, .inr hM, hi m' hm'⟩

/-- An entry keeps the bits that are not taken out of it. -/
theorem exists_mem_remove {s s' : Bool} {o o' : Option κ} {m m' M : BitVec w} (hm' : m' ≠ 0)
    (hd : o' = o → Includes M m → unset m M &&& m' = 0) (hM : M ∈ T s' o') (hi : Includes M m') :
    ∃ M' ∈ T.remove unset s o m s' o', Includes M' m' := by
  rw [remove, modify]
  split_ifs with hso
  · by_cases hm : Includes M m
    · have hM' := hi.andNot (hd hso.2 hm)
      refine ⟨M &&& ~~~unset m M, List.mem_filterMap.2 ⟨M, hM, ?_⟩, hM'⟩
      rw [strip, if_pos hm, if_neg (hM'.ne_zero hm')]
    · exact ⟨M, List.mem_filterMap.2 ⟨M, hM, if_neg hm⟩, hi⟩
  · exact ⟨M, hM, hi⟩

/-- Removing a right keeps those whose bits are not taken out of the entries that
    include both. -/
theorem IsSet.remove {s s' : Bool} {o o' : Option κ} {m m' : BitVec w} (hm' : m' ≠ 0)
    (hd : o = none ∨ o = o' → ∀ M, Includes M m → Includes M m' → unset m M &&& m' = 0)
    (h : T.IsSet s' o' m') : (T.remove unset s o m).IsSet s' o' m' := by
  obtain ⟨M, hM | hM, hi⟩ := h
  · obtain ⟨M', hM', hi'⟩ :=
      exists_mem_remove hm' (fun ho hm => hd (.inl ho.symm) M hm hi) hM hi
    exact ⟨M', .inl hM', hi'⟩
  · obtain ⟨M', hM', hi'⟩ :=
      exists_mem_remove hm' (fun ho hm => hd (.inr ho.symm) M hm hi) hM hi
    exact ⟨M', .inr hM', hi'⟩

/-- After it is removed, a right is in no entry of its object type (if any of its
    bits is taken out). -/
theorem not_includes_of_mem_remove {s : Bool} {o : Option κ} {m m' M' : BitVec w}
    (hm' : ∀ M, Includes M m' → Includes M m ∧ ¬Includes (M &&& ~~~unset m M) m')
    (h : M' ∈ T.remove unset s o m s o) : ¬Includes M' m' := by
  rw [Table.remove, modify, if_pos ⟨rfl, rfl⟩] at h
  obtain ⟨M, hM, hs⟩ := List.mem_filterMap.1 h
  intro hi
  rw [strip] at hs
  split_ifs at hs with hm h0
  · have hi' : Includes M m' := Includes.of_andNot (Option.some.inj hs ▸ hi)
    exact (hm' M hi').2 (Option.some.inj hs ▸ hi)
  · exact hm (hm' M (Option.some.inj hs ▸ hi)).1

/-! ### Adding -/

theorem mem_grant {m M' : BitVec w} {l : List (BitVec w)} (h : M' ∈ grant m l) :
    M' ∈ l ∨ M' = m ∨ ∃ M ∈ l, M' = M ||| m := by
  cases l with
  | nil => exact .inr (.inl (List.mem_singleton.1 h))
  | cons M l =>
    rcases List.mem_cons.1 h with rfl | h
    · exact .inr (.inr ⟨M, List.mem_cons_self, rfl⟩)
    · exact .inl (List.mem_cons_of_mem _ h)

theorem exists_mem_grant {M : BitVec w} {l : List (BitVec w)} (h : M ∈ l) (m : BitVec w) :
    ∃ M' ∈ grant m l, ∀ m', Includes M m' → Includes M' m' := by
  cases l with
  | nil => exact absurd h List.not_mem_nil
  | cons N l =>
    rcases List.mem_cons.1 h with rfl | h
    · exact ⟨M ||| m, List.mem_cons_self, fun _ hi => hi.or_left m⟩
    · exact ⟨M, List.mem_cons_of_mem _ h, fun _ => id⟩

theorem exists_mem_add {s s' : Bool} {o o' : Option κ} {M : BitVec w} (hM : M ∈ T s' o')
    (m : BitVec w) : ∃ M' ∈ T.add s o m s' o', ∀ m', Includes M m' → Includes M' m' := by
  rw [add, modify]
  split_ifs
  · exact exists_mem_grant hM m
  · exact ⟨M, hM, fun _ => id⟩

/-- Adding a right unsets none. -/
theorem IsSet.add {s' : Bool} {o' : Option κ} {m' : BitVec w} (h : T.IsSet s' o' m') (s : Bool)
    (o : Option κ) (m : BitVec w) : (T.add s o m).IsSet s' o' m' := by
  obtain ⟨M, hM | hM, hi⟩ := h
  · obtain ⟨M', hM', h'⟩ := exists_mem_add hM m
    exact ⟨M', .inl hM', h' m' hi⟩
  · obtain ⟨M', hM', h'⟩ := exists_mem_add hM m
    exact ⟨M', .inr hM', h' m' hi⟩

theorem exists_mem_add_self (s : Bool) (o : Option κ) (m : BitVec w) :
    ∃ M ∈ T.add s o m s o, Includes M m := by
  rw [Table.add, modify, if_pos ⟨rfl, rfl⟩]
  cases T s o with
  | nil => exact ⟨m, List.mem_singleton_self m, includes_refl m⟩
  | cons M l => exact ⟨M ||| m, List.mem_cons_self, includes_or_right M m⟩

/-- An added right is set, with the rights it includes. -/
theorem isSet_add_self {s : Bool} {o o' : Option κ} {m m' : BitVec w} (ho : o = none ∨ o = o')
    (hi : Includes m m') : (T.add s o m).IsSet s o' m' := by
  obtain ⟨M, hM, hm⟩ := exists_mem_add_self (T := T) s o m
  rcases ho with rfl | rfl
  · exact ⟨M, .inl hM, hm.trans hi⟩
  · exact ⟨M, .inr hM, hm.trans hi⟩

theorem mem_add {s s' : Bool} {o o' : Option κ} {m M' : BitVec w} (h : M' ∈ T.add s o m s' o') :
    M' ∈ T s' o' ∨ (s' = s ∧ o' = o) ∧ (M' = m ∨ ∃ M ∈ T s' o', M' = M ||| m) := by
  rw [add, modify] at h
  split_ifs at h with hso
  · exact (mem_grant h).imp_right fun h => ⟨hso, h⟩
  · exact .inl h

/-- Adding a right does not set those it is disjoint from. -/
theorem IsSet.of_add {s s' : Bool} {o o' : Option κ} {m m' : BitVec w} (hm' : m' ≠ 0)
    (hd : o = none ∨ o = o' → m &&& m' = 0) (h : (T.add s o m).IsSet s' o' m') :
    T.IsSet s' o' m' := by
  have key : ∀ o'' M', (o'' = none ∨ o'' = o') → M' ∈ T.add s o m s' o'' → Includes M' m' →
      ∃ M ∈ T s' o'', Includes M m' := by
    intro o'' M' ho'' hM' hi
    rcases mem_add hM' with hM | ⟨⟨_, rfl⟩, rfl | ⟨M, hM, rfl⟩⟩
    · exact ⟨M', hM, hi⟩
    · exact absurd (eq_zero_of_includes_of_disjoint (hd ho'') hi) hm'
    · exact ⟨M, hM, hi.of_or (hd ho'')⟩
  obtain ⟨M', hM' | hM', hi⟩ := h
  · obtain ⟨M, hM, hi⟩ := key none M' (.inl rfl) hM' hi
    exact ⟨M, .inl hM, hi⟩
  · obtain ⟨M, hM, hi⟩ := key o' M' (.inr rfl) hM' hi
    exact ⟨M, .inr hM, hi⟩

/-- An atom becomes set only by adding a right that includes it. -/
theorem IsSet.of_add_atom {s s' : Bool} {o o' : Option κ} {m m' : BitVec w} (hm' : Atom m')
    (h : (T.add s o m).IsSet s' o' m') :
    T.IsSet s' o' m' ∨ s' = s ∧ (o = none ∨ o = o') ∧ Includes m m' := by
  by_cases hs : s' = s
  · by_cases hi : (o = none ∨ o = o') ∧ Includes m m'
    · exact .inr ⟨hs, hi⟩
    · exact .inl (h.of_add hm'.ne_zero fun ho => hm'.disjoint fun hm => hi ⟨ho, hm⟩)
  · exact .inl ((isSet_congr (add_other hs o m)).1 h)

/-- Keeping what is not taken out, exactly. -/
theorem isSet_remove_iff {s s' : Bool} {o o' : Option κ} {m m' : BitVec w} (hm' : m' ≠ 0)
    (hd : o = none ∨ o = o' → ∀ M, Includes M m → Includes M m' → unset m M &&& m' = 0) :
    (T.remove unset s o m).IsSet s' o' m' ↔ T.IsSet s' o' m' :=
  ⟨IsSet.of_remove, IsSet.remove hm' hd⟩

/-! ### Lists of rights -/

/-- A right, as an object type and a mask. -/
abbrev Right (κ : Type*) (w : ℕ) := Option κ × BitVec w

variable (unset T) in
/-- Removing the rights of a list. -/
def removeAll (s : Bool) (rs : List (Right κ w)) : Table κ w :=
  rs.foldl (fun T r => T.remove unset s r.1 r.2) T

variable (T) in
/-- Adding the rights of a list. -/
def addAll (s : Bool) (rs : List (Right κ w)) : Table κ w :=
  rs.foldl (fun T r => T.add s r.1 r.2) T

variable (unset T) in
/-- Breaking up the right of mask `m` and no object type, if it is set, into the
    rights `subs`. -/
def breakUp (s : Bool) (m : BitVec w) (subs : List (Right κ w)) : Table κ w :=
  if T.IsSet s none m then (T.remove unset s none m).addAll s subs else T

variable {rs subs : List (Right κ w)}

theorem removeAll_other {s s' : Bool} (h : s' ≠ s) : T.removeAll unset s rs s' = T s' := by
  induction rs generalizing T with
  | nil => rfl
  | cons r rs ih => exact ih.trans (remove_other h r.1 r.2)

theorem addAll_other {s s' : Bool} (h : s' ≠ s) : T.addAll s rs s' = T s' := by
  induction rs generalizing T with
  | nil => rfl
  | cons r rs ih => exact ih.trans (add_other h r.1 r.2)

theorem breakUp_other {s s' : Bool} (h : s' ≠ s) (m : BitVec w) :
    T.breakUp unset s m subs s' = T s' := by
  rw [breakUp]
  split_ifs
  · rw [addAll_other h, remove_other h]
  · rfl

theorem exists_of_mem_removeAll {s s' : Bool} {o' : Option κ} {M' : BitVec w}
    (h : M' ∈ T.removeAll unset s rs s' o') : ∃ M ∈ T s' o', ∀ m', Includes M' m' → Includes M m' := by
  induction rs generalizing T with
  | nil => exact ⟨M', h, fun _ => id⟩
  | cons r rs ih =>
    obtain ⟨M, hM, hi⟩ := ih h
    obtain ⟨N, hN, hi'⟩ := exists_of_mem_remove hM
    exact ⟨N, hN, fun m' h => hi' m' (hi m' h)⟩

theorem IsSet.of_removeAll {s s' : Bool} {o' : Option κ} {m' : BitVec w}
    (h : (T.removeAll unset s rs).IsSet s' o' m') : T.IsSet s' o' m' := by
  induction rs generalizing T with
  | nil => exact h
  | cons r rs ih => exact (ih h).of_remove

theorem isSet_removeAll_iff {s s' : Bool} {o' : Option κ} {m' : BitVec w} (hm' : m' ≠ 0)
    (hd : ∀ r ∈ rs, r.1 = none ∨ r.1 = o' →
      ∀ M, Includes M r.2 → Includes M m' → unset r.2 M &&& m' = 0) :
    (T.removeAll unset s rs).IsSet s' o' m' ↔ T.IsSet s' o' m' := by
  induction rs generalizing T with
  | nil => rfl
  | cons r rs ih =>
    exact (ih fun r' hr' => hd r' (List.mem_cons_of_mem r hr')).trans
      (isSet_remove_iff hm' (hd r List.mem_cons_self))

/-- No entry of the object type includes the mask. -/
def Free (T : Table κ w) (s : Bool) (o : Option κ) (m : BitVec w) : Prop :=
  ∀ M ∈ T s o, ¬Includes M m

omit [DecidableEq κ] in
theorem not_isSet_iff {s : Bool} {o : Option κ} {m : BitVec w} :
    ¬T.IsSet s o m ↔ T.Free s none m ∧ T.Free s o m := by
  constructor
  · exact fun h => ⟨fun M hM hi => h ⟨M, .inl hM, hi⟩, fun M hM hi => h ⟨M, .inr hM, hi⟩⟩
  · rintro ⟨hn, ho⟩ ⟨M, hM | hM, hi⟩
    · exact hn M hM hi
    · exact ho M hM hi

theorem Free.remove {s s' : Bool} {o o' : Option κ} {m m' : BitVec w} (h : T.Free s' o' m') :
    (T.remove unset s o m).Free s' o' m' := fun _ hM hi =>
  let ⟨N, hN, hi'⟩ := exists_of_mem_remove hM; h N hN (hi' m' hi)

theorem Free.removeAll {s s' : Bool} {o' : Option κ} {m' : BitVec w} (h : T.Free s' o' m') :
    (T.removeAll unset s rs).Free s' o' m' := fun _ hM hi =>
  let ⟨N, hN, hi'⟩ := exists_of_mem_removeAll hM; h N hN (hi' m' hi)

/-- Once the rights of a list are removed, each whose mask is an atom that is taken out
    whole is gone. -/
theorem free_removeAll {s : Bool} {o : Option κ} {m : BitVec w}
    (hm : ∀ M, ¬Includes (M &&& ~~~unset m M) m) (hmem : (o, m) ∈ rs) :
    (T.removeAll unset s rs).Free s o m := by
  induction rs generalizing T with
  | nil => exact absurd hmem List.not_mem_nil
  | cons r rs ih =>
    rcases List.mem_cons.1 hmem with rfl | hmem
    · have hfree : (T.remove unset s o m).Free s o m := fun M hM =>
        not_includes_of_mem_remove (fun N hN => ⟨hN, hm N⟩) hM
      exact hfree.removeAll
    · exact ih hmem

theorem IsSet.addAll {s s' : Bool} {o' : Option κ} {m' : BitVec w} (h : T.IsSet s' o' m') :
    (T.addAll s rs).IsSet s' o' m' := by
  induction rs generalizing T with
  | nil => exact h
  | cons r rs ih => exact ih (h.add s r.1 r.2)

theorem isSet_addAll_of_mem {s : Bool} {o' : Option κ} {m' : BitVec w} (h : (o', m') ∈ rs) :
    (T.addAll s rs).IsSet s o' m' := by
  induction rs generalizing T with
  | nil => exact absurd h List.not_mem_nil
  | cons r rs ih =>
    rcases List.mem_cons.1 h with rfl | h
    · exact (isSet_add_self (.inr rfl) (includes_refl m')).addAll
    · exact ih h

theorem isSet_addAll_iff {s s' : Bool} {o' : Option κ} {m' : BitVec w} (hm' : m' ≠ 0)
    (hd : ∀ r ∈ rs, r.1 = none ∨ r.1 = o' → r.2 &&& m' = 0) :
    (T.addAll s rs).IsSet s' o' m' ↔ T.IsSet s' o' m' := by
  refine ⟨fun h => ?_, IsSet.addAll⟩
  induction rs generalizing T with
  | nil => exact h
  | cons r rs ih =>
    exact IsSet.of_add hm' (hd r List.mem_cons_self)
      (ih (fun r' hr' => hd r' (List.mem_cons_of_mem r hr')) h)

/-- An atom becomes set only by one of the rights added. -/
theorem IsSet.of_addAll_atom {s s' : Bool} {o' : Option κ} {m' : BitVec w} (hm' : Atom m')
    (h : (T.addAll s rs).IsSet s' o' m') :
    T.IsSet s' o' m' ∨ s' = s ∧ ∃ r ∈ rs, (r.1 = none ∨ r.1 = o') ∧ Includes r.2 m' := by
  induction rs generalizing T with
  | nil => exact .inl h
  | cons r rs ih =>
    rcases ih h with h | ⟨hs, r', hr', h⟩
    · exact (h.of_add_atom hm').imp_right fun ⟨hs, h⟩ => ⟨hs, r, List.mem_cons_self, h⟩
    · exact .inr ⟨hs, r', List.mem_cons_of_mem r hr', h⟩

/-- Adding rights of other object types leaves an object type free. -/
theorem Free.addAll {s s' : Bool} {o' : Option κ} {m' : BitVec w} (h : T.Free s' o' m')
    (hrs : ∀ r ∈ rs, r.1 ≠ o') : (T.addAll s rs).Free s' o' m' := by
  induction rs generalizing T with
  | nil => exact h
  | cons r rs ih =>
    refine ih (fun M hM hi => ?_) fun r' hr' => hrs r' (List.mem_cons_of_mem r hr')
    rcases mem_add hM with hM | ⟨⟨_, ho⟩, _⟩
    · exact h M hM hi
    · exact hrs r List.mem_cons_self ho.symm

/-- The first entry of an object type takes in the rights added that have this type. -/
theorem head_addAll {s : Bool} {o : Option κ} {N : BitVec w} (hN : (T s o).head? = some N) :
    ∃ M, (T.addAll s rs s o).head? = some M ∧ (∀ m, Includes N m → Includes M m) ∧
      ∀ m, (o, m) ∈ rs → Includes M m := by
  induction rs generalizing T N with
  | nil => exact ⟨N, hN, fun _ => id, fun _ h => absurd h List.not_mem_nil⟩
  | cons r rs ih =>
    obtain ⟨l, hl⟩ : ∃ l, T s o = N :: l := List.head?_eq_some_iff.1 hN
    by_cases hr : o = r.1
    · have hadd : (T.add s r.1 r.2 s o).head? = some (N ||| r.2) := by
        simp [add, modify, hr ▸ hl, hr, grant]
      obtain ⟨M, hM, hi, hrs⟩ := ih hadd
      refine ⟨M, hM, fun m h => hi m (h.or_left r.2), fun m h => ?_⟩
      rcases List.mem_cons.1 h with rfl | h
      · exact hi m (includes_or_right N m)
      · exact hrs m h
    · have hadd : (T.add s r.1 r.2 s o).head? = some N := by simp [add, modify, hr, hl]
      obtain ⟨M, hM, hi, hrs⟩ := ih hadd
      refine ⟨M, hM, hi, fun m h => ?_⟩
      rcases List.mem_cons.1 h with rfl | h
      · exact absurd rfl hr
      · exact hrs m h

/-- The rights added that have the same object type end up in one entry. -/
theorem exists_mem_addAll_all {s : Bool} {o : Option κ} {m : BitVec w} (hm : (o, m) ∈ rs) :
    ∃ M ∈ T.addAll s rs s o, ∀ m, (o, m) ∈ rs → Includes M m := by
  induction rs generalizing T with
  | nil => exact absurd hm List.not_mem_nil
  | cons r rs ih =>
    cases hl : T.add s r.1 r.2 s o with
    | cons N l =>
      obtain ⟨M, hM, hi, hrs⟩ := @head_addAll _ _ _ _ rs _ _ _ (congrArg List.head? hl)
      refine ⟨M, List.mem_of_mem_head? hM, fun m h => ?_⟩
      rcases List.mem_cons.1 h with rfl | h
      · -- the right just added is in the entry at the head
        refine hi m ?_
        rw [add, modify, if_pos ⟨rfl, rfl⟩] at hl
        cases hT : T s o with
        | nil => rw [hT] at hl; exact (List.cons.inj hl).1 ▸ includes_refl m
        | cons N' l' => rw [hT] at hl; exact (List.cons.inj hl).1 ▸ includes_or_right N' m
      · exact hrs m h
    | nil =>
      have hr : (o, m) ≠ r := by
        rintro rfl
        obtain ⟨M, hM, -⟩ := exists_mem_add_self (T := T) s o m
        exact absurd (hl ▸ hM) List.not_mem_nil
      obtain ⟨M, hM, hrs⟩ := ih (T := T.add s r.1 r.2) ((List.mem_cons.1 hm).resolve_left hr)
      refine ⟨M, hM, fun m' h => ?_⟩
      rcases List.mem_cons.1 h with rfl | h
      · obtain ⟨M', hM', -⟩ := exists_mem_add_self (T := T) s o m'
        exact absurd (hl ▸ hM') List.not_mem_nil
      · exact hrs m' h

/-! ### Breaking up -/

omit [DecidableEq κ] in
/-- A superior right sets the rights its mask includes. -/
theorem IsSet.of_none {s : Bool} {o : Option κ} {m m' : BitVec w} (h : T.IsSet s none m)
    (hi : Includes m m') : T.IsSet s o m' := by
  obtain ⟨M, hM, hm⟩ := h
  exact ⟨M, .inl (or_self_iff.1 hM), hm.trans hi⟩

/-- Breaking up a right into ones that it includes sets no atom. -/
theorem IsSet.of_breakUp_atom {s s' : Bool} {m m' : BitVec w} {o' : Option κ} (hm' : Atom m')
    (hsubs : ∀ r ∈ subs, Includes m r.2) (h : (T.breakUp unset s m subs).IsSet s' o' m') :
    T.IsSet s' o' m' := by
  rw [breakUp] at h
  split_ifs at h with hset
  · rcases h.of_addAll_atom hm' with h | ⟨rfl, r, hr, -, hi⟩
    · exact h.of_remove
    · exact hset.of_none ((hsubs r hr).trans hi)
  · exact h

/-- Breaking up a right does not change whether one it is broken up into is set. -/
theorem isSet_breakUp_iff_of_mem {s s' : Bool} {m m' : BitVec w} {o' : Option κ}
    (hmem : (o', m') ∈ subs) (hi : Includes m m') :
    (T.breakUp unset s m subs).IsSet s' o' m' ↔ T.IsSet s' o' m' := by
  by_cases hs : s' = s
  · subst hs
    rw [breakUp]
    split_ifs with hset
    · exact iff_of_true (isSet_addAll_of_mem hmem) (hset.of_none hi)
    · rfl
  · exact isSet_congr (breakUp_other hs m)

/-- Nor whether one with nothing in common with it, or with what is added, is set. -/
theorem isSet_breakUp_iff_of_disjoint {s s' : Bool} {m m' : BitVec w} {o' : Option κ}
    (hm' : m' ≠ 0) (hd : ∀ M, Includes M m → Includes M m' → unset m M &&& m' = 0)
    (hadd : ∀ r ∈ subs, r.1 = none ∨ r.1 = o' → r.2 &&& m' = 0) :
    (T.breakUp unset s m subs).IsSet s' o' m' ↔ T.IsSet s' o' m' := by
  rw [breakUp]
  split_ifs
  · exact (isSet_addAll_iff hm' hadd).trans (isSet_remove_iff hm' fun _ => hd)
  · rfl

/-- Once an atom is broken up into rights with object types, no entry without one
    includes it. -/
theorem free_breakUp {s : Bool} {m : BitVec w}
    (hm : ∀ M, ¬Includes (M &&& ~~~unset m M) m) (hsubs : ∀ r ∈ subs, r.1 ≠ none) :
    (T.breakUp unset s m subs).Free s none m := by
  rw [breakUp]
  split_ifs with hset
  · refine Free.addAll (fun M hM => ?_) hsubs
    exact not_includes_of_mem_remove (fun N hN => ⟨hN, hm N⟩) hM
  · exact (not_isSet_iff.1 hset).1

/-! ### Editing a right -/

variable (unset T) in
/-- Breaking up the superiors of a right, each given by its mask and the rights it is
    broken up into. -/
def breakUpAll (s : Bool) (sups : List (BitVec w × List (Right κ w))) : Table κ w :=
  sups.foldl (fun T sup => T.breakUp unset s sup.1 sup.2) T

variable (unset T) in
/-- Adding a right with superiors `sups` and subordinates `subs` to the side `s`, the
    other side giving way. -/
def addRight (s : Bool) (sups : List (BitVec w × List (Right κ w))) (r : Right κ w)
    (subs : List (Right κ w)) : Table κ w :=
  ((((T.breakUpAll unset (!s) sups).removeAll unset s subs).remove unset (!s) r.1 r.2).removeAll
    unset (!s) subs).add s r.1 r.2

variable (unset T) in
/-- Removing a right with superiors `sups` and subordinates `subs` from the side `s`. -/
def removeRight (s : Bool) (sups : List (BitVec w × List (Right κ w))) (r : Right κ w)
    (subs : List (Right κ w)) : Table κ w :=
  ((T.breakUpAll unset s sups).remove unset s r.1 r.2).removeAll unset s subs

variable {sups : List (BitVec w × List (Right κ w))} {r : Right κ w}

theorem IsSet.of_breakUpAll_atom {s s' : Bool} {m' : BitVec w} {o' : Option κ} (hm' : Atom m')
    (hsups : ∀ sup ∈ sups, ∀ r ∈ sup.2, Includes sup.1 r.2)
    (h : (T.breakUpAll unset s sups).IsSet s' o' m') : T.IsSet s' o' m' := by
  induction sups generalizing T with
  | nil => exact h
  | cons sup sups ih =>
    exact IsSet.of_breakUp_atom hm' (hsups sup List.mem_cons_self)
      (ih (fun sup' hsup' => hsups sup' (List.mem_cons_of_mem sup hsup')) h)

theorem isSet_breakUpAll_iff {s s' : Bool} {m' : BitVec w} {o' : Option κ}
    (hsups : ∀ sup ∈ sups, ∀ T : Table κ w,
      (T.breakUp unset s sup.1 sup.2).IsSet s' o' m' ↔ T.IsSet s' o' m') :
    (T.breakUpAll unset s sups).IsSet s' o' m' ↔ T.IsSet s' o' m' := by
  induction sups generalizing T with
  | nil => rfl
  | cons sup sups ih =>
    exact (ih fun sup' hsup' => hsups sup' (List.mem_cons_of_mem sup hsup')).trans
      (hsups sup List.mem_cons_self T)

/-- Removing a right sets no atom. -/
theorem IsSet.of_removeRight_atom {s s' : Bool} {m' : BitVec w} {o' : Option κ} (hm' : Atom m')
    (hsups : ∀ sup ∈ sups, ∀ r ∈ sup.2, Includes sup.1 r.2)
    (h : (T.removeRight unset s sups r subs).IsSet s' o' m') : T.IsSet s' o' m' :=
  h.of_removeAll.of_remove.of_breakUpAll_atom hm' hsups

/-- An atom set once a right is added was so before, or is set by the right. -/
theorem IsSet.of_addRight_atom {s s' : Bool} {m' : BitVec w} {o' : Option κ} (hm' : Atom m')
    (hsups : ∀ sup ∈ sups, ∀ r ∈ sup.2, Includes sup.1 r.2)
    (h : (T.addRight unset s sups r subs).IsSet s' o' m') :
    T.IsSet s' o' m' ∨ s' = s ∧ (r.1 = none ∨ r.1 = o') ∧ Includes r.2 m' :=
  (h.of_add_atom hm').imp_left fun h =>
    h.of_removeAll.of_remove.of_removeAll.of_breakUpAll_atom hm' hsups

/-- Once the superiors are broken up, no entry without an object type includes the atom
    of the last, if it is broken up into rights with object types. -/
theorem free_breakUpAll {s : Bool} {m : BitVec w} (hm : ∀ M, ¬Includes (M &&& ~~~unset m M) m)
    (hsubs : ∀ r ∈ subs, r.1 ≠ none) :
    (T.breakUpAll unset s (sups ++ [(m, subs)])).Free s none m := by
  rw [breakUpAll, List.foldl_append]
  exact free_breakUp hm hsubs

/-- What removing a right leaves free: what breaking up the superiors does, -/
theorem Free.removeRight {s : Bool} {o' : Option κ} {m' : BitVec w}
    (h : (T.breakUpAll unset s sups).Free s o' m') :
    (T.removeRight unset s sups r subs).Free s o' m' := h.remove.removeAll

/-- the atom of the right itself, -/
theorem free_removeRight_self {s : Bool} (hm : ∀ M, ¬Includes (M &&& ~~~unset r.2 M) r.2) :
    (T.removeRight unset s sups r subs).Free s r.1 r.2 :=
  Free.removeAll fun _ hM => not_includes_of_mem_remove (fun N hN => ⟨hN, hm N⟩) hM

/-- and those of its subordinates. -/
theorem free_removeRight_of_mem {s : Bool} {o : Option κ} {m : BitVec w}
    (hm : ∀ M, ¬Includes (M &&& ~~~unset m M) m) (hmem : (o, m) ∈ subs) :
    (T.removeRight unset s sups r subs).Free s o m := free_removeAll hm hmem

theorem remove_congr {T' : Table κ w} {s : Bool} (h : T s = T' s) (o : Option κ) (m : BitVec w) :
    T.remove unset s o m s = T'.remove unset s o m s := by
  funext o'
  simp only [Table.remove, modify, h]

theorem removeAll_congr {T' : Table κ w} {s : Bool} (h : T s = T' s) :
    T.removeAll unset s rs s = T'.removeAll unset s rs s := by
  induction rs generalizing T T' with
  | nil => exact h
  | cons r rs ih => exact ih (remove_congr h r.1 r.2)

theorem breakUpAll_other {s s' : Bool} (h : s' ≠ s) : T.breakUpAll unset s sups s' = T s' := by
  induction sups generalizing T with
  | nil => rfl
  | cons sup sups ih => exact ih.trans (breakUp_other h sup.1)

/-- On its side, adding a right unsets no other than its subordinates. -/
theorem IsSet.addRight {s : Bool} {o' : Option κ} {m' : BitVec w}
    (h : (T.removeAll unset s subs).IsSet s o' m') :
    (T.addRight unset s sups r subs).IsSet s o' m' := by
  have hne : s ≠ !s := by cases s <;> decide
  refine IsSet.add ?_ s r.1 r.2
  rw [isSet_congr (removeAll_other hne), isSet_congr (remove_other hne r.1 r.2),
    isSet_congr (removeAll_congr (breakUpAll_other hne))]
  exact h

/-- On the other side, adding a right is removing it there. -/
theorem addRight_opposite (s : Bool) : T.addRight unset s sups r subs (!s) =
    T.removeRight unset (!s) sups r subs (!s) := by
  have hne : (!s) ≠ s := by cases s <;> decide
  rw [Table.addRight, add_other hne]
  exact removeAll_congr (remove_congr (removeAll_other hne) r.1 r.2)

end Table

end Mask
