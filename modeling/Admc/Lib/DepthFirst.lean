import Mathlib.Data.List.Basic
import Mathlib.Logic.Relation
import Mathlib.Tactic.Common

/-!
# Depth-first walks

A recursive function that walks over a graph and keeps, in a state, which nodes it has
entered (`walk`). The nodes that a node leads to are gone through one after the other,
and those that are entered by then are passed over. Some nodes cannot be entered at all.

A walk enters just the nodes that can be reached from its start past no node that was
entered before it (`walk_spec`): that others are entered meanwhile makes no difference.
With enough turns it comes to an end (`exists_walk`).
-/

namespace DepthFirst

universe u v

variable {σ : Type u} {α : Type v} {seen : σ → α → Bool} {enter : α → Option (σ → σ)}
  {next : α → List α}

/-- A walk from a node, in so many levels. -/
def walk (seen : σ → α → Bool) (enter : α → Option (σ → σ)) (next : α → List α) :
    ℕ → σ → α → Option σ
  | 0, _, _ => none
  | n + 1, s, a =>
    match enter a with
    | none => some s
    | some f =>
      (next a).foldlM (fun s b => if seen s b then some s else walk seen enter next n s b) (f s)

/-- The state after nodes have been entered. -/
def enterAll (enter : α → Option (σ → σ)) (order : List α) (s : σ) : σ :=
  order.foldl (fun s a => (enter a).elim s fun f => f s) s

/-- A step to a node that can be entered, and has not been. -/
def Step (seen : σ → α → Bool) (enter : α → Option (σ → σ)) (next : α → List α) (s : σ)
    (a b : α) : Prop :=
  b ∈ next a ∧ (enter b).isSome = true ∧ seen s b = false

/-- A node is reached by steps from one that can be entered. -/
def Reaches (seen : σ → α → Bool) (enter : α → Option (σ → σ)) (next : α → List α) (s : σ)
    (a b : α) : Prop :=
  (enter a).isSome = true ∧ Relation.ReflTransGen (Step seen enter next s) a b

/-- Entering a node is seen of this node, and of no other. -/
def Marks [DecidableEq α] (seen : σ → α → Bool) (enter : α → Option (σ → σ)) : Prop :=
  ∀ a f, enter a = some f → ∀ s b, seen (f s) b = (decide (b = a) || seen s b)

variable {s s' : σ} {a b : α} {order order' : List α}

theorem enterAll_append :
    enterAll enter (order ++ order') s = enterAll enter order' (enterAll enter order s) :=
  List.foldl_append

section
variable [DecidableEq α]

/-- What is seen after nodes have been entered. -/
theorem seen_enterAll (hmarks : Marks seen enter) (henter : ∀ a ∈ order, (enter a).isSome = true) :
    seen (enterAll enter order s) b = (decide (b ∈ order) || seen s b) := by
  induction order generalizing s with
  | nil => rfl
  | cons a order ih =>
    obtain ⟨f, hf⟩ := Option.isSome_iff_exists.1 (henter a List.mem_cons_self)
    have hfirst : enterAll enter (a :: order) s = enterAll enter order (f s) := by
      rw [enterAll, List.foldl_cons, hf]
      rfl
    rw [hfirst, ih fun a ha => henter a (List.mem_cons_of_mem _ ha), hmarks a f hf]
    simp only [List.mem_cons, Bool.decide_or]
    cases decide (b = a) <;> cases decide (b ∈ order) <;> rfl

/-- Steps after nodes have been entered are steps before. -/
theorem Reaches.of_enterAll (hmarks : Marks seen enter)
    (henter : ∀ a ∈ order, (enter a).isSome = true)
    (h : Reaches seen enter next (enterAll enter order s) a b) : Reaches seen enter next s a b := by
  refine ⟨h.1, Relation.ReflTransGen.mono (fun c d hstep => ?_) _ _ h.2⟩
  refine ⟨hstep.1, hstep.2.1, ?_⟩
  have hseen := hstep.2.2
  rw [seen_enterAll hmarks henter, Bool.or_eq_false_iff] at hseen
  exact hseen.2

end

/-- The nodes that a walk enters. -/
structure Explored (seen : σ → α → Bool) (enter : α → Option (σ → σ)) (next : α → List α) (s : σ)
    (a : α) (order : List α) : Prop where
  start : (enter a).isSome = true → a ∈ order
  reached : ∀ b ∈ order, Reaches seen enter next s a b
  closed : ∀ b ∈ order, ∀ c ∈ next b, (enter c).isSome = true → seen s c = true ∨ c ∈ order

/-- They are just those that are reached. -/
theorem Explored.mem_iff (h : Explored seen enter next s a order) :
    b ∈ order ↔ Reaches seen enter next s a b := by
  constructor
  · exact h.reached b
  · rintro ⟨ha, hab⟩
    induction hab with
    | refl => exact h.start ha
    | tail _ hstep ih =>
      rcases h.closed _ ih _ hstep.1 hstep.2.1 with hseen | hmem
      · exact absurd hseen (by rw [hstep.2.2]; exact Bool.false_ne_true)
      · exact hmem

theorem Reaches.isSome (h : Reaches seen enter next s a b) : (enter b).isSome = true := by
  rcases h.2.cases_tail with rfl | ⟨_, -, hstep⟩
  · exact h.1
  · exact hstep.2.1

/-- The nodes that are entered from some starts, one after the other. -/
structure ExploredAll (seen : σ → α → Bool) (enter : α → Option (σ → σ)) (next : α → List α)
    (s : σ) (starts order : List α) : Prop where
  start : ∀ a ∈ starts, (enter a).isSome = true → seen s a = true ∨ a ∈ order
  reached : ∀ b ∈ order, ∃ a ∈ starts, seen s a = false ∧ Reaches seen enter next s a b
  closed : ∀ b ∈ order, ∀ c ∈ next b, (enter c).isSome = true → seen s c = true ∨ c ∈ order

theorem ExploredAll.nil : ExploredAll seen enter next s [] [] :=
  ⟨fun _ h => absurd h List.not_mem_nil, fun _ h => absurd h List.not_mem_nil,
    fun _ h => absurd h List.not_mem_nil⟩

/-- A start that has been entered is passed over. -/
theorem ExploredAll.pass {starts : List α} (ha : seen s a = true)
    (h : ExploredAll seen enter next s starts order) :
    ExploredAll seen enter next s (a :: starts) order where
  start b hb henter := by
    rcases List.mem_cons.1 hb with rfl | hb
    · exact .inl ha
    · exact h.start b hb henter
  reached b hb := by
    obtain ⟨c, hc, hreach⟩ := h.reached b hb
    exact ⟨c, List.mem_cons_of_mem _ hc, hreach⟩
  closed := h.closed

/-- More levels do not change a walk that comes to an end. -/
theorem walk_mono {n m : ℕ} (hnm : n ≤ m) (h : walk seen enter next n s a = some s') :
    walk seen enter next m s a = some s' := by
  induction n generalizing m s s' a with
  | zero => exact nomatch h
  | succ n ih =>
    obtain ⟨m, rfl⟩ := Nat.exists_eq_add_of_le' (Nat.one_le_of_lt hnm)
    have hle : n ≤ m := Nat.le_of_succ_le_succ hnm
    rw [walk] at h ⊢
    split at h
    · exact h
    · next f hf =>
      have hfold : ∀ (starts : List α) (s : σ), starts.foldlM (fun s b =>
          if seen s b then some s else walk seen enter next n s b) s = some s' →
            starts.foldlM (fun s b =>
              if seen s b then some s else walk seen enter next m s b) s = some s' := by
        intro starts
        induction starts with
        | nil => exact fun _ h => h
        | cons b starts ih' =>
          intro s h
          rw [List.foldlM_cons, Option.bind_eq_bind, Option.bind_eq_some_iff] at h ⊢
          obtain ⟨s₁, hs₁, h⟩ := h
          refine ⟨s₁, ?_, ih' s₁ h⟩
          split_ifs at hs₁ ⊢ with hb
          · exact hs₁
          · exact ih hle hs₁
      exact hfold _ _ h

/-- What entering a node that is not seen preserves, a walk preserves. -/
theorem walk_invariant {I : σ → Prop} {P : σ → α → Prop}
    (hP : ∀ s b, I s → seen s b = false → P s b)
    (henter : ∀ s b f, enter b = some f → I s → P s b → I (f s)) {n : ℕ}
    (h : walk seen enter next n s a = some s') (hs : I s) (ha : P s a) : I s' := by
  induction n generalizing s s' a with
  | zero => exact nomatch h
  | succ n ih =>
    rw [walk] at h
    split at h
    · exact Option.some.inj h ▸ hs
    · next f hf =>
      have hfold : ∀ (starts : List α) (s : σ), starts.foldlM (fun s b =>
          if seen s b then some s else walk seen enter next n s b) s = some s' → I s → I s' := by
        intro starts
        induction starts with
        | nil => exact fun s h hs => Option.some.inj h ▸ hs
        | cons b starts ih' =>
          intro s h hs
          rw [List.foldlM_cons, Option.bind_eq_bind, Option.bind_eq_some_iff] at h
          obtain ⟨s₁, hs₁, h⟩ := h
          split_ifs at hs₁ with hb
          · exact ih' s₁ h (Option.some.inj hs₁ ▸ hs)
          · exact ih' s₁ h (ih hs₁ hs (hP s b hs (Bool.eq_false_iff.2 hb)))
      exact hfold _ _ h (henter s a f hf hs ha)

variable [DecidableEq α]

/-- The walk from a start goes before those from the others. -/
theorem Explored.all {starts : List α} (hmarks : Marks seen enter) (ha : seen s a = false)
    (h : Explored seen enter next s a order)
    (hrest : ExploredAll seen enter next (enterAll enter order s) starts order') :
    ExploredAll seen enter next s (a :: starts) (order ++ order') := by
  have henter : ∀ b ∈ order, (enter b).isSome = true := fun b hb => (h.reached b hb).isSome
  have hseen : ∀ b, seen (enterAll enter order s) b = (decide (b ∈ order) || seen s b) :=
    fun b => seen_enterAll hmarks henter
  have hafter : ∀ b, seen (enterAll enter order s) b = true ∨ b ∈ order' →
      seen s b = true ∨ b ∈ order ++ order' := by
    intro b hb
    rw [hseen, Bool.or_eq_true, decide_eq_true_iff] at hb
    rw [List.mem_append]
    tauto
  constructor
  · intro b hb hb'
    rcases List.mem_cons.1 hb with rfl | hb
    · exact .inr (List.mem_append_left _ (h.start hb'))
    · exact hafter b (hrest.start b hb hb')
  · intro b hb
    rcases List.mem_append.1 hb with hb | hb
    · exact ⟨a, List.mem_cons_self, ha, h.reached b hb⟩
    · obtain ⟨c, hc, hnot, hreach⟩ := hrest.reached b hb
      rw [hseen, Bool.or_eq_false_iff] at hnot
      exact ⟨c, List.mem_cons_of_mem _ hc, hnot.2, hreach.of_enterAll hmarks henter⟩
  · intro b hb c hc hc'
    rcases List.mem_append.1 hb with hb | hb
    · exact (h.closed b hb c hc hc').imp_right (List.mem_append_left _)
    · exact hafter c (hrest.closed b hb c hc hc')

/-- A node is entered before those it leads to. -/
theorem ExploredAll.ofStart {f : σ → σ} (hmarks : Marks seen enter) (hf : enter a = some f)
    (h : ExploredAll seen enter next (f s) (next a) order) :
    Explored seen enter next s a (a :: order) := by
  have hself : f s = enterAll enter [a] s := by
    rw [enterAll, List.foldl_cons, hf]
    rfl
  have hisSome : (enter a).isSome = true := hf ▸ rfl
  have hseen : ∀ b, seen (f s) b = (decide (b = a) || seen s b) := fun b => hmarks a f hf s b
  have hafter : ∀ b, seen (f s) b = true ∨ b ∈ order → seen s b = true ∨ b ∈ a :: order := by
    intro b hb
    rw [hseen, Bool.or_eq_true, decide_eq_true_iff] at hb
    rw [List.mem_cons]
    tauto
  constructor
  · exact fun _ => List.mem_cons_self
  · intro b hb
    rcases List.mem_cons.1 hb with rfl | hb
    · exact ⟨hisSome, .refl⟩
    · obtain ⟨c, hc, hnot, hreach⟩ := h.reached b hb
      rw [hseen, Bool.or_eq_false_iff] at hnot
      rw [hself] at hreach
      have hreach := hreach.of_enterAll hmarks (by simpa using hisSome)
      exact ⟨hisSome, .head ⟨hc, hreach.1, hnot.2⟩ hreach.2⟩
  · intro b hb c hc hc'
    rcases List.mem_cons.1 hb with rfl | hb
    · exact hafter c (h.start c hc hc')
    · exact hafter c (h.closed b hb c hc hc')

/-- A walk enters just the nodes that are reached from its start. -/
theorem walk_spec (hmarks : Marks seen enter) {n : ℕ} (h : walk seen enter next n s a = some s') :
    ∃ order, s' = enterAll enter order s ∧ Explored seen enter next s a order := by
  induction n generalizing s s' a with
  | zero => exact nomatch h
  | succ n ih =>
    rw [walk] at h
    split at h
    · next hnone =>
      rw [Option.some.injEq] at h
      exact ⟨[], h.symm, fun ha => absurd ha (by rw [hnone]; exact Bool.false_ne_true),
        fun _ hb => absurd hb List.not_mem_nil, fun _ hb => absurd hb List.not_mem_nil⟩
    · next f hf =>
      have hfold : ∀ (starts : List α) (s : σ), starts.foldlM (fun s b =>
          if seen s b then some s else walk seen enter next n s b) s = some s' →
            ∃ order, s' = enterAll enter order s ∧
              ExploredAll seen enter next s starts order := by
        intro starts
        induction starts with
        | nil => exact fun s h => ⟨[], (Option.some.inj h).symm, .nil⟩
        | cons b starts ih' =>
          intro s h
          rw [List.foldlM_cons, Option.bind_eq_bind, Option.bind_eq_some_iff] at h
          obtain ⟨s₁, hs₁, h⟩ := h
          obtain ⟨order', hs', hrest⟩ := ih' s₁ h
          split_ifs at hs₁ with hb
          · rw [Option.some.injEq] at hs₁
            exact ⟨order', hs₁ ▸ hs', (hs₁ ▸ hrest).pass hb⟩
          · obtain ⟨order, rfl, horder⟩ := ih hs₁
            exact ⟨order ++ order', by rw [enterAll_append]; exact hs',
              horder.all hmarks (Bool.eq_false_iff.2 hb) hrest⟩
      obtain ⟨order, hs', horder⟩ := hfold _ _ h
      refine ⟨a :: order, ?_, horder.ofStart hmarks hf⟩
      rw [hs', enterAll, enterAll, List.foldl_cons, hf]
      rfl

/-- What is seen before a walk is seen after it. -/
theorem seen_walk (hmarks : Marks seen enter) {n : ℕ} (h : walk seen enter next n s a = some s')
    (hb : seen s b = true) : seen s' b = true := by
  obtain ⟨order, rfl, horder⟩ := walk_spec hmarks h
  rw [seen_enterAll hmarks fun c hc => (horder.reached c hc).isSome, hb, Bool.or_true]

/-- A walk ends if it has more turns than there are nodes that it has not seen. -/
theorem exists_walk (hmarks : Marks seen enter) {nodes : List α}
    (hnext : ∀ a, ∀ b ∈ next a, b ∈ nodes) {n : ℕ}
    (hn : (nodes.filter fun b => !seen s b && b ≠ a).length < n) :
    ∃ s', walk seen enter next n s a = some s' := by
  induction n generalizing s a with
  | zero => exact absurd hn (Nat.not_lt_zero _)
  | succ n ih =>
    have hfold : ∀ (starts : List α) (s : σ), (∀ b ∈ starts, b ∈ nodes) →
        (nodes.filter fun b => !seen s b).length ≤ n →
          ∃ s', starts.foldlM (fun s b =>
            if seen s b then some s else walk seen enter next n s b) s = some s' := by
      intro starts
      induction starts with
      | nil => exact fun s _ _ => ⟨s, rfl⟩
      | cons b starts ih' =>
        intro s hstarts hunseen
        rw [List.foldlM_cons]
        split_ifs with hb
        · exact ih' s (fun c hc => hstarts c (List.mem_cons_of_mem _ hc)) hunseen
        · -- the start itself is not seen yet
          have hlt : (nodes.filter fun c => !seen s c && c ≠ b).length < n := by
            refine Nat.lt_of_lt_of_le ?_ hunseen
            have hsplit : (nodes.filter fun c => !seen s c && c ≠ b) =
                (nodes.filter fun c => !seen s c).filter (· ≠ b) := by
              rw [List.filter_filter]
              exact List.filter_congr fun c _ => Bool.and_comm _ _
            rw [hsplit, List.length_filter_lt_length_iff_exists]
            refine ⟨b, List.mem_filter.2 ⟨hstarts b List.mem_cons_self, ?_⟩, ?_⟩
            · rw [Bool.eq_false_iff.2 hb]
              rfl
            · rw [decide_eq_true_iff]
              exact fun hne => hne rfl
          obtain ⟨s₁, hs₁⟩ := ih hlt
          rw [hs₁]
          refine ih' s₁ (fun c hc => hstarts c (List.mem_cons_of_mem _ hc))
            (Nat.le_trans (List.Sublist.length_le ?_) hunseen)
          refine List.monotone_filter_right nodes fun c hc => ?_
          rw [Bool.not_eq_true'] at hc ⊢
          exact Bool.eq_false_iff.2 fun hseen =>
            absurd hc (by rw [seen_walk hmarks hs₁ hseen]; exact Bool.false_ne_true.symm)
    rw [walk]
    split
    · exact ⟨s, rfl⟩
    · next f hf =>
      have hsame : (nodes.filter fun b => !seen (f s) b) =
          nodes.filter fun b => !seen s b && b ≠ a := by
        refine List.filter_congr fun b _ => ?_
        rw [hmarks a f hf]
        by_cases hb : b = a <;> simp [hb]
      exact hfold _ _ (hnext a) (Nat.le_of_lt_succ (hsame ▸ hn))

end DepthFirst
