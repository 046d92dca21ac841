import Mathlib.Data.List.Nodup
import Mathlib.Data.List.Pairwise
import Mathlib.Data.List.Perm.Basic
import Mathlib.Data.Nat.Basic
import Mathlib.Order.Basic
import Mathlib.Tactic.Common

/-!
# Forests

A forest is kept as a list of rows, each with an identifier of its own and that of
its parent, the newest row first. A row is added as the last child of its parent,
and has a greater identifier than all before it. The identifier 0 is that of the
ground, in which the roots of the forest stand.

* `Forest.chain`: what is above a row, from the row itself down to the ground. It
  is found in the rows by one pass, as the parent of a row is older than the row.
* `Forest.subtree`: a row and all below it; `Forest.subtree_perm` takes it apart
  into the subtrees of the children.
* Adding a row, changing the data of one, and removing a subtree keep what is above
  the other rows.
-/

universe u

/-- A row of a forest. -/
structure Row (α : Type u) where
  id : ℕ
  parent : ℕ
  data : α
  deriving DecidableEq, Repr

/-- What is above a row, from the row itself down to the ground, in rows that come newest
    first. -/
def chainIn {α : Type u} : List (Row α) → ℕ → List ℕ
  | [], i => if i = 0 then [0] else []
  | row :: rows, i => if row.id = i then i :: chainIn rows row.parent else chainIn rows i

/-- Rows, newest first, each of which has an older row or the ground as its parent. -/
structure Forest (α : Type u) where
  rows : List (Row α)
  /-- The identifier of the next row. -/
  next : ℕ
  next_pos : 0 < next
  lt_next : ∀ row ∈ rows, row.id < next
  sorted : rows.Pairwise fun row older => older.id < row.id
  parent_lt : ∀ row ∈ rows, row.parent < row.id
  parent_mem : ∀ row ∈ rows, row.parent = 0 ∨ ∃ older ∈ rows, older.id = row.parent

namespace Forest

variable {α : Type u}

/-- The forest without rows. -/
def empty : Forest α where
  rows := []
  next := 1
  next_pos := Nat.one_pos
  lt_next := nofun
  sorted := .nil
  parent_lt := nofun
  parent_mem := nofun

variable (f : Forest α)

/-- The ground, or the identifier of a row. -/
def Valid (i : ℕ) : Prop := i = 0 ∨ ∃ row ∈ f.rows, row.id = i

instance decidableValid (i : ℕ) : Decidable (f.Valid i) :=
  inferInstanceAs (Decidable (i = 0 ∨ ∃ row ∈ f.rows, row.id = i))

/-- The row with an identifier. -/
def row? (i : ℕ) : Option (Row α) := f.rows.find? fun row => row.id = i

/-- The parent of a row. -/
def parent (i : ℕ) : ℕ := (f.row? i).elim 0 Row.parent

/-- The children of a row, in the order in which they have been added. -/
def children (i : ℕ) : List ℕ := ((f.rows.filter fun row => row.parent = i).map Row.id).reverse

/-- What is above a row, from the row itself down to the ground. -/
def chain (i : ℕ) : List ℕ := chainIn f.rows i

/-- The rows at and below a row. -/
def branch (i : ℕ) : List (Row α) := f.rows.filter fun row => i ∈ f.chain row.id

/-- A row, or the ground, with all below it. -/
def subtree (i : ℕ) : List ℕ := i :: (f.rows.filter fun row => i ∈ f.chain row.parent).map Row.id

/-! ## Rows and their identifiers -/

section
variable {f} {row row' : Row α} {i j k : ℕ}

theorem ext {g : Forest α} (hrows : f.rows = g.rows) (hnext : f.next = g.next) : f = g := by
  cases f
  cases g
  cases hrows
  cases hnext
  rfl

theorem id_pos (h : row ∈ f.rows) : 0 < row.id := (Nat.zero_le _).trans_lt (f.parent_lt row h)

theorem nodup_ids : (f.rows.map Row.id).Nodup :=
  List.pairwise_map.2 (f.sorted.imp ne_of_gt)

theorem row_eq_of_id (h : row ∈ f.rows) (h' : row' ∈ f.rows) (hid : row.id = row'.id) :
    row = row' := List.inj_on_of_nodup_map f.nodup_ids h h' hid

theorem nodup_rows : f.rows.Nodup := f.nodup_ids.of_map

theorem row?_eq_some : f.row? i = some row ↔ row ∈ f.rows ∧ row.id = i := by
  constructor
  · intro h
    exact ⟨List.mem_of_find?_eq_some h, by simpa using List.find?_some h⟩
  · rintro ⟨hrow, rfl⟩
    cases h : f.row? row.id with
    | none => exact absurd (List.find?_eq_none.1 h row hrow) (by simp)
    | some row' =>
      have hid : row'.id = row.id := by simpa using List.find?_some h
      rw [row_eq_of_id (List.mem_of_find?_eq_some h) hrow hid]

theorem row?_of_mem (h : row ∈ f.rows) : f.row? row.id = some row := row?_eq_some.2 ⟨h, rfl⟩

theorem row?_eq_none : f.row? i = none ↔ ∀ row ∈ f.rows, row.id ≠ i := by
  rw [row?, List.find?_eq_none]
  simp

theorem parent_of_mem (h : row ∈ f.rows) : f.parent row.id = row.parent := by
  rw [parent, row?_of_mem h]
  rfl

theorem valid_zero : f.Valid 0 := .inl rfl

theorem valid_of_mem (h : row ∈ f.rows) : f.Valid row.id := .inr ⟨row, h, rfl⟩

theorem valid_parent (h : row ∈ f.rows) : f.Valid row.parent := f.parent_mem row h

theorem Valid.lt_next (h : f.Valid i) : i < f.next := by
  obtain rfl | ⟨row, hrow, rfl⟩ := h
  exacts [f.next_pos, f.lt_next row hrow]

theorem mem_children : j ∈ f.children i ↔ ∃ row ∈ f.rows, row.id = j ∧ row.parent = i := by
  simp only [children, List.mem_reverse, List.mem_map, List.mem_filter, decide_eq_true_eq]
  exact ⟨fun ⟨row, ⟨hrow, hp⟩, hid⟩ => ⟨row, hrow, hid, hp⟩,
    fun ⟨row, hrow, hid, hp⟩ => ⟨row, ⟨hrow, hp⟩, hid⟩⟩

theorem nodup_children : (f.children i).Nodup :=
  List.nodup_reverse.2 (f.nodup_ids.sublist (List.filter_sublist.map _))

/-! ## What is above a row -/

theorem chainIn_cons_of_ne {rows : List (Row α)} (h : row.id ≠ i) :
    chainIn (row :: rows) i = chainIn rows i := if_neg h

/-- Newer rows do not matter. -/
theorem chainIn_append {rows new : List (Row α)} (h : ∀ row ∈ new, row.id ≠ i) :
    chainIn (new ++ rows) i = chainIn rows i := by
  induction new with
  | nil => rfl
  | cons row new ih =>
    rw [List.cons_append, chainIn_cons_of_ne (h row List.mem_cons_self)]
    exact ih fun row hrow => h row (List.mem_cons_of_mem _ hrow)

theorem chain_zero : f.chain 0 = [0] := by
  rw [chain, ← List.append_nil f.rows, chainIn_append fun row hrow => (id_pos hrow).ne']
  rfl

theorem chain_of_mem (h : row ∈ f.rows) : f.chain row.id = row.id :: f.chain row.parent := by
  obtain ⟨new, old, hrows⟩ := List.append_of_mem h
  have hsorted := f.sorted
  rw [hrows, List.pairwise_append, List.pairwise_cons] at hsorted
  have hnew : ∀ newer ∈ new, row.id < newer.id := fun newer hn =>
    hsorted.2.2 newer hn row List.mem_cons_self
  have hparent := f.parent_lt row h
  rw [chain, chain, hrows, chainIn_append fun newer hn => (hnew newer hn).ne',
    chainIn_append fun newer hn => (hparent.trans (hnew newer hn)).ne',
    chainIn_cons_of_ne hparent.ne']
  exact if_pos rfl

theorem chain_of_not_valid (h : ¬f.Valid i) : f.chain i = [] := by
  rw [chain, ← List.append_nil f.rows,
    chainIn_append fun row hrow hid => h (.inr ⟨row, hrow, hid⟩)]
  exact if_neg fun h0 => h (.inl h0)

/-- Induction from the ground upwards. -/
theorem valid_induction {P : ∀ i, f.Valid i → Prop} (ground : P 0 valid_zero)
    (step : ∀ row (h : row ∈ f.rows), P row.parent (valid_parent h) → P row.id (valid_of_mem h))
    (i : ℕ) (hi : f.Valid i) : P i hi := by
  induction i using Nat.strongRecOn with
  | _ i ih =>
    obtain rfl | ⟨row, hrow, rfl⟩ := hi
    · exact ground
    · exact step row hrow (ih row.parent (f.parent_lt row hrow) (valid_parent hrow))

theorem valid_of_mem_chain (h : i ∈ f.chain j) : f.Valid i ∧ f.Valid j := by
  by_cases hj : f.Valid j
  · refine ⟨?_, hj⟩
    induction j, hj using valid_induction with
    | ground =>
      rw [chain_zero, List.mem_singleton] at h
      exact .inl h
    | step row hrow ih =>
      rw [chain_of_mem hrow] at h
      obtain rfl | h := List.mem_cons.1 h
      exacts [valid_of_mem hrow, ih h]
  · rw [chain_of_not_valid hj] at h
    exact absurd h List.not_mem_nil

theorem mem_chain_self (h : f.Valid i) : i ∈ f.chain i := by
  obtain rfl | ⟨row, hrow, rfl⟩ := h
  · rw [chain_zero]
    exact List.mem_cons_self
  · rw [chain_of_mem hrow]
    exact List.mem_cons_self

theorem le_of_mem_chain (h : i ∈ f.chain j) : i ≤ j := by
  have hj := (valid_of_mem_chain h).2
  induction j, hj using valid_induction with
  | ground =>
    rw [chain_zero, List.mem_singleton] at h
    exact h.le
  | step row hrow ih =>
    rw [chain_of_mem hrow] at h
    obtain rfl | h := List.mem_cons.1 h
    exacts [le_rfl, (ih h).trans (f.parent_lt row hrow).le]

/-- What is above something above a row is above the row. -/
theorem chain_trans (h : i ∈ f.chain j) (h' : j ∈ f.chain k) : i ∈ f.chain k := by
  have hk := (valid_of_mem_chain h').2
  induction k, hk using valid_induction with
  | ground =>
    rw [chain_zero, List.mem_singleton] at h'
    rwa [h'] at h
  | step row hrow ih =>
    rw [chain_of_mem hrow] at h' ⊢
    obtain rfl | h' := List.mem_cons.1 h'
    · rwa [chain_of_mem hrow] at h
    · exact List.mem_cons_of_mem _ (ih h')

/-- Of two above a row, the lesser is above the greater. -/
theorem mem_chain_of_le (hi : i ∈ f.chain k) (hj : j ∈ f.chain k) (h : i ≤ j) :
    i ∈ f.chain j := by
  have hk := (valid_of_mem_chain hi).2
  induction k, hk using valid_induction with
  | ground =>
    rw [chain_zero, List.mem_singleton] at hj
    rwa [hj]
  | step row hrow ih =>
    obtain rfl | hj' := List.mem_cons.1 (chain_of_mem hrow ▸ hj)
    · exact hi
    · obtain rfl | hi' := List.mem_cons.1 (chain_of_mem hrow ▸ hi)
      · exact absurd ((le_of_mem_chain hj').trans_lt (f.parent_lt row hrow)) (not_lt.2 h)
      · exact ih hi' hj'

theorem zero_mem_chain (h : f.Valid i) : 0 ∈ f.chain i := by
  induction i, h using valid_induction with
  | ground =>
    rw [chain_zero]
    exact List.mem_cons_self
  | step row hrow ih =>
    rw [chain_of_mem hrow]
    exact List.mem_cons_of_mem _ ih

/-- The parent of a row is not below it. -/
theorem not_mem_chain_parent (h : row ∈ f.rows) : row.id ∉ f.chain row.parent :=
  fun hmem => absurd (le_of_mem_chain hmem) (not_le.2 (f.parent_lt row h))

/-! ## Subtrees -/

theorem mem_branch : row ∈ f.branch i ↔ row ∈ f.rows ∧ i ∈ f.chain row.id := by
  rw [branch, List.mem_filter, decide_eq_true_iff]

theorem mem_subtree :
    j ∈ f.subtree i ↔ j = i ∨ ∃ row ∈ f.rows, row.id = j ∧ i ∈ f.chain row.parent := by
  simp only [subtree, List.mem_cons, List.mem_map, List.mem_filter, decide_eq_true_eq]
  refine or_congr_right ?_
  exact ⟨fun ⟨row, ⟨hrow, hc⟩, hid⟩ => ⟨row, hrow, hid, hc⟩,
    fun ⟨row, hrow, hid, hc⟩ => ⟨row, ⟨hrow, hc⟩, hid⟩⟩

/-- A row in a subtree is below it, or it is its root. -/
theorem mem_subtree_iff (hj : f.Valid j) : j ∈ f.subtree i ↔ i ∈ f.chain j := by
  rw [mem_subtree]
  obtain rfl | ⟨row, hrow, rfl⟩ := hj
  · rw [chain_zero, List.mem_singleton, eq_comm]
    exact or_iff_left fun ⟨row, hrow, hid, _⟩ => (id_pos hrow).ne' hid
  · rw [chain_of_mem hrow, List.mem_cons, eq_comm]
    refine or_congr_right ⟨?_, fun h => ⟨row, hrow, rfl, h⟩⟩
    rintro ⟨row', hrow', hid, h⟩
    rwa [row_eq_of_id hrow' hrow hid] at h

theorem valid_of_mem_subtree (hi : f.Valid i) (h : j ∈ f.subtree i) : f.Valid j := by
  obtain rfl | ⟨row, hrow, rfl, -⟩ := mem_subtree.1 h
  exacts [hi, valid_of_mem hrow]

theorem nodup_subtree : (f.subtree i).Nodup := by
  refine List.nodup_cons.2 ⟨fun h => ?_, f.nodup_ids.sublist (List.filter_sublist.map _)⟩
  obtain ⟨row, hrow, rfl⟩ := List.mem_map.1 h
  rw [List.mem_filter, decide_eq_true_iff] at hrow
  exact not_mem_chain_parent hrow.1 hrow.2

/-- What is strictly below a row is in the subtree of one of its children. -/
theorem exists_child_of_mem_chain (h : row ∈ f.rows) (hi : i ∈ f.chain row.parent) :
    ∃ j ∈ f.children i, j ∈ f.chain row.id := by
  suffices hchild : ∀ k, f.Valid k → i ∈ f.chain k → k = i ∨ ∃ j ∈ f.children i, j ∈ f.chain k by
    obtain hparent | ⟨j, hj, hchain⟩ := hchild row.parent (valid_parent h) hi
    · exact ⟨row.id, mem_children.2 ⟨row, h, rfl, hparent⟩, mem_chain_self (valid_of_mem h)⟩
    · refine ⟨j, hj, ?_⟩
      rw [chain_of_mem h]
      exact List.mem_cons_of_mem _ hchain
  intro k hk hik
  induction k, hk using valid_induction with
  | ground =>
    rw [chain_zero, List.mem_singleton] at hik
    exact .inl hik.symm
  | step row hrow ih =>
    rw [chain_of_mem hrow] at hik ⊢
    obtain rfl | hik := List.mem_cons.1 hik
    · exact .inl rfl
    · obtain hparent | ⟨j, hj, hchain⟩ := ih hik
      · exact .inr ⟨row.id, mem_children.2 ⟨row, hrow, rfl, hparent⟩, List.mem_cons_self⟩
      · exact .inr ⟨j, hj, List.mem_cons_of_mem _ hchain⟩

theorem mem_chain_of_mem_children (h : j ∈ f.children i) : i ∈ f.chain j ∧ i < j := by
  obtain ⟨row, hrow, rfl, rfl⟩ := mem_children.1 h
  refine ⟨?_, f.parent_lt row hrow⟩
  rw [chain_of_mem hrow]
  exact List.mem_cons_of_mem _ (mem_chain_self (valid_parent hrow))

/-- The subtrees of different children have nothing in common. -/
theorem eq_of_mem_chain {j' : ℕ} (hj : j ∈ f.children i) (hj' : j' ∈ f.children i)
    (h : j ∈ f.chain k) (h' : j' ∈ f.chain k) : j = j' := by
  wlog hle : j ≤ j' generalizing j j'
  · exact (this hj' hj h' h (Nat.le_of_not_le hle)).symm
  have hchain := mem_chain_of_le h h' hle
  obtain ⟨row, hrow, rfl, hparent⟩ := mem_children.1 hj'
  rw [chain_of_mem hrow, hparent] at hchain
  obtain rfl | hchain := List.mem_cons.1 hchain
  · rfl
  · exact absurd (le_of_mem_chain hchain) (not_le.2 (mem_chain_of_mem_children hj).2)

/-- A subtree is its root with the subtrees of its children. -/
theorem subtree_perm (i : ℕ) :
    (f.subtree i).Perm (i :: (f.children i).flatMap f.subtree) := by
  refine List.Perm.cons i ((List.perm_ext_iff_of_nodup ?_ ?_).2 fun k => ?_)
  · exact (List.nodup_cons.1 (f.nodup_subtree)).2
  · refine List.nodup_flatMap.2 ⟨fun j _ => nodup_subtree, ?_⟩
    refine f.nodup_children.imp_of_mem fun {j j'} hj hj' hne k hk hk' => hne ?_
    have hvalid := (valid_of_mem_chain (mem_chain_of_mem_children hj).1).2
    have hkvalid := valid_of_mem_subtree hvalid hk
    exact eq_of_mem_chain hj hj' ((mem_subtree_iff hkvalid).1 hk) ((mem_subtree_iff hkvalid).1 hk')
  · rw [List.mem_flatMap, List.mem_map]
    constructor
    · rintro ⟨row, hrow, rfl⟩
      rw [List.mem_filter, decide_eq_true_iff] at hrow
      obtain ⟨j, hj, hchain⟩ := exists_child_of_mem_chain hrow.1 hrow.2
      exact ⟨j, hj, (mem_subtree_iff (valid_of_mem hrow.1)).2 hchain⟩
    · rintro ⟨j, hj, hk⟩
      have hij := mem_chain_of_mem_children hj
      have hvalid := (valid_of_mem_chain hij.1).2
      have hchain := (mem_subtree_iff (valid_of_mem_subtree hvalid hk)).1 hk
      obtain rfl | ⟨row, hrow, rfl⟩ := valid_of_mem_subtree hvalid hk
      · exact absurd (le_of_mem_chain hchain) (not_le.2 (Nat.zero_le i |>.trans_lt hij.2))
      · refine ⟨row, List.mem_filter.2 ⟨hrow, decide_eq_true ?_⟩, rfl⟩
        have hmem := chain_trans hij.1 hchain
        rw [chain_of_mem hrow] at hmem
        obtain rfl | hmem := List.mem_cons.1 hmem
        · exact absurd (le_of_mem_chain hchain) (not_le.2 hij.2)
        · exact hmem

theorem length_subtree_le : (f.subtree i).length ≤ f.rows.length + 1 := by
  rw [subtree, List.length_cons, List.length_map]
  exact Nat.succ_le_succ (List.length_filter_le _ _)

end

/-! ## Changes -/

/-- Adds a row as the last child of another, or on the ground. -/
def add (data : α) (parent : ℕ) (h : f.Valid parent) : Forest α where
  rows := ⟨f.next, parent, data⟩ :: f.rows
  next := f.next + 1
  next_pos := Nat.succ_pos _
  lt_next := List.forall_mem_cons.2 ⟨Nat.lt_succ_self _, fun row hrow =>
    (f.lt_next row hrow).trans (Nat.lt_succ_self _)⟩
  sorted := List.pairwise_cons.2 ⟨f.lt_next, f.sorted⟩
  parent_lt := List.forall_mem_cons.2 ⟨h.lt_next, f.parent_lt⟩
  parent_mem := List.forall_mem_cons.2 ⟨h.imp_right fun ⟨row, hrow, hid⟩ =>
    ⟨row, List.mem_cons_of_mem _ hrow, hid⟩, fun row hrow =>
    (f.parent_mem row hrow).imp_right fun ⟨older, holder, hid⟩ =>
      ⟨older, List.mem_cons_of_mem _ holder, hid⟩⟩

/-- Adds a row as the last one on the ground. -/
def addGround (data : α) : Forest α := f.add data 0 valid_zero

/-- Removes a row with all below it. -/
def remove (i : ℕ) : Forest α where
  rows := f.rows.filter fun row => i ∉ f.chain row.id
  next := f.next
  next_pos := f.next_pos
  lt_next row hrow := f.lt_next row (List.mem_of_mem_filter hrow)
  sorted := f.sorted.filter _
  parent_lt row hrow := f.parent_lt row (List.mem_of_mem_filter hrow)
  parent_mem row hrow := by
    rw [List.mem_filter, decide_eq_true_iff] at hrow
    refine (f.parent_mem row hrow.1).imp_right ?_
    rintro ⟨older, holder, hid⟩
    refine ⟨older, List.mem_filter.2 ⟨holder, decide_eq_true fun hmem => hrow.2 ?_⟩, hid⟩
    rw [chain_of_mem hrow.1, ← hid]
    exact List.mem_cons_of_mem _ hmem

/-- Changes the data of a row. -/
def setData (i : ℕ) (data : α) : Forest α where
  rows := f.rows.map fun row => if row.id = i then { row with data := data } else row
  next := f.next
  next_pos := f.next_pos
  lt_next := List.forall_mem_map.2 fun row hrow => by
    split_ifs <;> exact f.lt_next row hrow
  sorted := List.pairwise_map.2 (f.sorted.imp fun h => by split_ifs <;> exact h)
  parent_lt := List.forall_mem_map.2 fun row hrow => by
    split_ifs <;> exact f.parent_lt row hrow
  parent_mem := List.forall_mem_map.2 fun row hrow => by
    have hparent : (if row.id = i then { row with data := data } else row).parent = row.parent := by
      split_ifs <;> rfl
    rw [hparent]
    refine (f.parent_mem row hrow).imp_right ?_
    rintro ⟨older, holder, hid⟩
    refine ⟨_, List.mem_map_of_mem holder, ?_⟩
    rw [← hid]
    split_ifs <;> rfl

/-- Rows with other data. -/
def map {β : Type u} (g : α → β) : Forest β where
  rows := f.rows.map fun row => ⟨row.id, row.parent, g row.data⟩
  next := f.next
  next_pos := f.next_pos
  lt_next := List.forall_mem_map.2 f.lt_next
  sorted := List.pairwise_map.2 f.sorted
  parent_lt := List.forall_mem_map.2 f.parent_lt
  parent_mem := List.forall_mem_map.2 fun row hrow => (f.parent_mem row hrow).imp_right
    fun ⟨_, holder, hid⟩ => ⟨_, List.mem_map_of_mem holder, hid⟩

section
variable {f} {g : Forest α} {row : Row α} {i j : ℕ}

/-- Newer rows keep what is above the others. -/
theorem chain_of_append {new : List (Row α)} (hrows : g.rows = new ++ f.rows)
    (hnew : ∀ row ∈ new, f.next ≤ row.id) (hi : i < f.next) : g.chain i = f.chain i := by
  rw [chain, hrows, chainIn_append fun row hrow => (hi.trans_le (hnew row hrow)).ne']
  rfl

theorem rows_map {β : Type u} (g : α → β) :
    (f.map g).rows = f.rows.map fun row => ⟨row.id, row.parent, g row.data⟩ := rfl

theorem rows_remove : (f.remove i).rows = f.rows.filter fun row => i ∉ f.chain row.id := rfl

theorem mem_rows_remove : row ∈ (f.remove i).rows ↔ row ∈ f.rows ∧ i ∉ f.chain row.id := by
  rw [rows_remove, List.mem_filter, decide_eq_true_iff]

/-- What is left has the same above it. -/
theorem chain_remove (hj : f.Valid j) (h : i ∉ f.chain j) : (f.remove i).chain j = f.chain j := by
  induction j, hj using valid_induction with
  | ground => rw [chain_zero, chain_zero]
  | step row hrow ih =>
    have hmem : row ∈ (f.remove i).rows := mem_rows_remove.2 ⟨hrow, h⟩
    rw [chain_of_mem hrow, List.mem_cons, not_or] at h
    rw [chain_of_mem hmem, chain_of_mem hrow, ih h.2]

/-- What is left when several rows are removed with all below them. -/
theorem mem_rows_foldl_remove {l : List ℕ} :
    row ∈ (l.foldl remove f).rows ↔ row ∈ f.rows ∧ ∀ i ∈ l, i ∉ f.chain row.id := by
  induction l generalizing f with
  | nil => exact ⟨fun h => ⟨h, nofun⟩, And.left⟩
  | cons i l ih =>
    rw [List.foldl_cons, ih, mem_rows_remove, and_assoc, List.forall_mem_cons]
    refine and_congr_right fun hrow => and_congr_right fun hchain => ?_
    rw [chain_remove (valid_of_mem hrow) hchain]

/-- What is left has the same above it. -/
theorem chain_foldl_remove {l : List ℕ} (h : row ∈ (l.foldl remove f).rows) :
    (l.foldl remove f).chain row.id = f.chain row.id := by
  induction l generalizing f with
  | nil => rfl
  | cons i l ih =>
    have hrest : row ∈ (l.foldl remove (f.remove i)).rows := h
    have hmem := mem_rows_remove.1 (mem_rows_foldl_remove.1 hrest).1
    rw [List.foldl_cons, ih hrest, chain_remove (valid_of_mem hmem.1) hmem.2]

theorem children_remove :
    (f.remove i).children j = (f.children j).filter fun k => i ∉ f.chain k := by
  simp only [children, remove, List.filter_reverse, List.filter_map, List.filter_filter]
  refine congrArg List.reverse (congrArg _ (List.filter_congr fun row _ => ?_))
  rw [Bool.and_comm]
  rfl

/-- The rows of a forest are those of a branch, and those that are left when it is removed. -/
theorem branch_append_perm : (f.branch i ++ (f.remove i).rows).Perm f.rows := by
  have hrest : (f.remove i).rows = f.rows.filter fun row => !decide (i ∈ f.chain row.id) :=
    List.filter_congr fun row _ => decide_not
  rw [hrest]
  exact List.filter_append_perm _ _

/-- The data of one row are changed, and the others are left as they are. -/
theorem exists_rows_setData (h : row ∈ f.rows) (data : α) : ∃ newer older,
    f.rows = newer ++ row :: older ∧
      (f.setData row.id data).rows = newer ++ { row with data := data } :: older := by
  obtain ⟨newer, older, hrows⟩ := List.append_of_mem h
  have hnodup := f.nodup_ids
  rw [hrows, List.map_append, List.map_cons, List.nodup_append, List.nodup_cons] at hnodup
  obtain ⟨-, ⟨holder, -⟩, hnewer⟩ := hnodup
  refine ⟨newer, older, hrows, ?_⟩
  have hother : ∀ row' : Row α, row'.id ≠ row.id →
      (if row'.id = row.id then { row' with data := data } else row') = row' :=
    fun row' hne => if_neg hne
  have hset : (f.setData row.id data).rows = f.rows.map fun row' =>
      if row'.id = row.id then { row' with data := data } else row' := rfl
  rw [hset, hrows, List.map_append, List.map_cons, if_pos rfl,
    List.map_congr_left fun row' hmem => hother row' fun heq =>
      hnewer _ (List.mem_map_of_mem hmem) _ List.mem_cons_self heq,
    List.map_congr_left fun row' hmem => hother row' fun heq =>
      holder (heq ▸ List.mem_map_of_mem hmem), List.map_id', List.map_id']

/-- Newer rows in other places keep the children. -/
theorem children_of_append {new : List (Row α)} (hrows : g.rows = new ++ f.rows)
    (hnew : ∀ row ∈ new, row.parent ≠ i) : g.children i = f.children i := by
  have hnil : (new.filter fun row => row.parent = i) = [] :=
    List.filter_eq_nil_iff.2 fun row hrow => by simpa using hnew row hrow
  rw [children, hrows, List.filter_append, hnil]
  rfl

end

end Forest
