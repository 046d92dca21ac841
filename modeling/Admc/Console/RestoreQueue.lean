import Admc.Console.TreeState
import Admc.Lib.Ancestry

/-!
# The queue of a restored tree

Before the saved DNs of a subtree are expanded again, the ones between them and the root of the
subtree are put in between, so that parents are expanded before their children.

* `prepareRestoreDnQueue_restores`: each of these DNs comes once, after its ancestors.
-/

namespace Admc

/-! ## DNs without escaped commas -/

/-- A component of a DN without commas. -/
structure PlainRdn where
  text : QString
  ne_nil : text ≠ []
  plain : ',' ∉ text
  deriving DecidableEq

/-- The text of a DN, and of the place that is above all. -/
def plainDn (dn : List PlainRdn) : QString := [','].intercalate (dn.map PlainRdn.text)

variable {base dn p : List PlainRdn} {rdn : PlainRdn}

theorem plainDn_singleton (rdn : PlainRdn) : plainDn [rdn] = rdn.text :=
  List.intercalate_singleton

theorem plainDn_eq_nil : plainDn dn = [] ↔ dn = [] := by
  match dn with
  | [] => exact iff_of_true rfl rfl
  | [rdn] =>
    rw [plainDn_singleton]
    exact iff_of_false rdn.ne_nil (List.cons_ne_nil _ _)
  | rdn :: rdn' :: dn =>
    refine iff_of_false (fun h => ?_) (List.cons_ne_nil _ _)
    rw [plainDn, List.map_cons, List.map_cons, Path.intercalate_cons_cons] at h
    exact rdn.ne_nil (List.append_eq_nil_iff.1 h).1

theorem plainDn_cons (rdn : PlainRdn) (dn : List PlainRdn) : plainDn (rdn :: dn) =
    if plainDn dn = [] then rdn.text else rdn.text ++ ',' :: plainDn dn := by
  cases dn with
  | nil => exact plainDn_singleton rdn
  | cons rdn' dn =>
    rw [if_neg (mt plainDn_eq_nil.1 (List.cons_ne_nil _ _)), plainDn, List.map_cons,
      List.map_cons, Path.intercalate_cons_cons]
    rfl

theorem splitOn_plainDn (h : dn ≠ []) : (plainDn dn).splitOn ',' = dn.map PlainRdn.text := by
  refine List.splitOn_intercalate ',' (fun rdn hrdn => ?_) (mt List.map_eq_nil_iff.1 h)
  rcases List.mem_map.1 hrdn with ⟨rdn', -, rfl⟩
  exact rdn'.plain

theorem PlainRdn.text_injective : Function.Injective PlainRdn.text := fun rdn rdn' h => by
  cases rdn
  cases rdn'
  exact (PlainRdn.mk.injEq ..).mpr h

theorem plainDn_injective : Function.Injective plainDn := by
  intro dn dn' h
  by_cases hdn : dn = []
  · subst hdn
    exact (plainDn_eq_nil.1 h.symm).symm
  · have hdn' : dn' ≠ [] := fun hdn' => hdn (plainDn_eq_nil.1 (h.trans (plainDn_eq_nil.2 hdn')))
    have hsplit := congrArg (List.splitOn ',') h
    rw [splitOn_plainDn hdn, splitOn_plainDn hdn'] at hsplit
    exact List.map_injective_iff.2 PlainRdn.text_injective hsplit

theorem plainDn_suffix (p base : List PlainRdn) : plainDn base <:+ plainDn (p ++ base) := by
  induction p with
  | nil => exact List.suffix_rfl
  | cons rdn p ih =>
    rw [List.cons_append, plainDn_cons]
    split_ifs with hnil
    · rw [hnil] at ih
      rw [List.suffix_nil.1 ih]
      exact List.nil_suffix
    · exact ih.trans ((List.suffix_cons ',' _).trans (List.suffix_append rdn.text _))

/-! ## The loops -/

namespace PreparedDns

variable {prepared : PreparedDns} {dns dns' : List QString}

/-- What is prepared once some DNs are added that are not there yet. -/
def extend (prepared : PreparedDns) (dns : List QString) : PreparedDns where
  queue := prepared.queue ++ List.keepFirstFrom id prepared.dnSet dns
  dnSet := (List.keepFirstFrom id prepared.dnSet dns).reverse ++ prepared.dnSet

theorem extend_append : prepared.extend (dns ++ dns') = (prepared.extend dns).extend dns' := by
  have hseen : List.keepFirstFrom id
      (prepared.dnSet ++ (List.keepFirstFrom id prepared.dnSet dns).map id) dns' =
        List.keepFirstFrom id ((List.keepFirstFrom id prepared.dnSet dns).reverse ++
          prepared.dnSet) dns' := List.keepFirstFrom_congr (by simp [or_comm]) dns'
  rw [extend, extend, extend, List.keepFirstFrom_append, hseen, List.append_assoc,
    List.reverse_append, List.append_assoc]

theorem extend_of_mem (h : ∀ dn ∈ dns, dn ∈ prepared.dnSet) : prepared.extend dns = prepared := by
  have hnil := @List.keepFirstFrom_eq_nil _ _ _ id prepared.dnSet dns h
  rw [extend, hnil, List.append_nil]
  rfl

theorem extend_nil (prepared : PreparedDns) : prepared.extend [] = prepared :=
  extend_of_mem fun _ h => absurd h List.not_mem_nil

theorem mem_extend {dn : QString} :
    dn ∈ (prepared.extend dns).dnSet ↔ dn ∈ prepared.dnSet ∨ dn ∈ dns := by
  rw [extend, List.mem_append, List.mem_reverse, List.mem_keepFirstFrom, or_comm]
  by_cases h : dn ∈ prepared.dnSet
  · exact iff_of_true (.inl h) (.inl h)
  · rw [and_iff_left h]

theorem enqueue_eq (prepared : PreparedDns) (dn : QString) :
    prepared.enqueue dn = prepared.extend [dn] := by
  rw [enqueue, extend, List.keepFirstFrom, List.keepFirstFrom, List.keepFirstFrom, id]
  split_ifs
  · rw [List.append_nil]
    rfl
  · rfl

/-- The inner loop adds the DNs from below the base to the one that it ends with. -/
theorem enqueueParts_eq (prepared : PreparedDns) (base p : List PlainRdn) :
    prepared.enqueueParts (plainDn base) (p.map PlainRdn.text).reverse =
      prepared.extend ((Ancestry.chain base p).map plainDn) := by
  induction p using List.reverseRecOn generalizing prepared base with
  | nil => exact prepared.extend_nil.symm
  | append_singleton p rdn ih =>
    have hrdn : (if (plainDn base).isEmpty then rdn.text else rdn.text ++ ',' :: plainDn base) =
        plainDn (rdn :: base) := by
      simp only [plainDn_cons, List.isEmpty_iff]
    rw [List.map_append, List.reverse_append, List.map_singleton, List.reverse_singleton,
      List.singleton_append, enqueueParts, hrdn, ih, Ancestry.chain_concat, List.map_cons,
      enqueue_eq, ← extend_append, List.singleton_append]

end PreparedDns

variable {prepared : PreparedDns}

/-- How many components of a DN are those of the base. -/
theorem partsCount_eq (base : List PlainRdn) :
    (if (plainDn base).isEmpty then 0 else ((plainDn base).splitOn ',').length) =
      base.length := by
  simp only [List.isEmpty_iff, plainDn_eq_nil]
  split_ifs with h
  · rw [h, List.length_nil]
  · rw [splitOn_plainDn h, List.length_map]

/-- A DN below the base adds the path to it. -/
theorem prepare_of_below (hne : p ++ base ≠ [])
    (hclosed : plainDn (p ++ base) ∈ prepared.dnSet →
      ∀ dn ∈ Ancestry.chain base p, plainDn dn ∈ prepared.dnSet) :
    prepared.prepare (plainDn base) (plainDn (p ++ base)) =
      prepared.extend ((Ancestry.chain base p).map plainDn) := by
  rw [PreparedDns.prepare, partsCount_eq, splitOn_plainDn hne]
  have hinfix : plainDn base <:+: plainDn (p ++ base) := (plainDn_suffix p base).isInfix
  by_cases hmem : plainDn (p ++ base) ∈ prepared.dnSet
  · rw [if_pos (.inl hmem), PreparedDns.extend_of_mem]
    exact List.forall_mem_map.2 (hclosed hmem)
  rw [if_neg (not_or.2 ⟨hmem, fun h => h.2 hinfix⟩)]
  dsimp only
  rw [List.length_map, List.length_append, Nat.add_sub_cancel, List.map_append]
  split_ifs with hle
  · have hp : p = [] := List.length_eq_zero_iff.1 (by omega)
    rw [hp, Ancestry.chain, List.map_nil, prepared.extend_nil]
  · have htake : (p.map PlainRdn.text ++ base.map PlainRdn.text).take p.length =
        p.map PlainRdn.text := List.take_left' (List.length_map _)
    rw [htake, prepared.enqueueParts_eq]

/-- A DN that the text of the base is not in is left out. -/
theorem prepare_of_unrelated (h : ¬plainDn base <:+: plainDn dn) :
    prepared.prepare (plainDn base) (plainDn dn) = prepared := by
  have hne : plainDn base ≠ [] := fun hnil => h (hnil ▸ List.nil_infix)
  rw [PreparedDns.prepare, if_pos (.inr ⟨hne, h⟩)]

/-! ## The queue -/

/-- A saved DN is in the subtree of a base, or has nothing to do with it: its text does not
    have that of the base in it. -/
def InSubtreeOrUnrelated (base dn : List PlainRdn) : Prop :=
  base <:+ dn ∨ ¬plainDn base <:+: plainDn dn

/-- The paths to DNs are added one after the other. -/
theorem foldl_prepare {dns done : List (List PlainRdn)} (hne : ∀ dn ∈ dns, dn ≠ [])
    (hdns : ∀ dn ∈ dns, InSubtreeOrUnrelated base dn)
    (hclosed : ∀ dn, plainDn dn ∈ prepared.dnSet ↔
      dn = base ∧ base ≠ [] ∨ dn ∈ done.flatMap (Ancestry.pathTo base)) :
    (dns.map plainDn).foldl (PreparedDns.prepare (plainDn base)) prepared =
      prepared.extend ((dns.flatMap (Ancestry.pathTo base)).map plainDn) := by
  induction dns generalizing prepared done with
  | nil => exact prepared.extend_nil.symm
  | cons dn dns ih =>
    have hstep : prepared.prepare (plainDn base) (plainDn dn) =
        prepared.extend ((Ancestry.pathTo base dn).map plainDn) := by
      rcases hdns dn List.mem_cons_self with ⟨p, rfl⟩ | hunrelated
      · rw [Ancestry.pathTo_append]
        refine prepare_of_below (hne _ List.mem_cons_self) fun hmem dn hdn => ?_
        -- a path to the DN was added before, and this one is a part of it
        rw [Ancestry.mem_chain] at hdn
        rcases (hclosed _).1 hmem with ⟨hbase, -⟩ | hpath
        · rw [hbase] at hdn
          refine absurd (hdn.1.eq_of_length ?_) hdn.2.2
          exact Nat.le_antisymm hdn.1.length_le hdn.2.1.length_le
        · rcases List.mem_flatMap.1 hpath with ⟨dn', hdn', hmem'⟩
          refine (hclosed _).2 (.inr (List.mem_flatMap.2 ⟨dn', hdn', Ancestry.mem_pathTo.2 ?_⟩))
          exact ⟨hdn.1.trans (Ancestry.mem_pathTo.1 hmem').1, hdn.2⟩
      · have hbase : ¬base <:+ dn := by
          rintro ⟨p, rfl⟩
          exact hunrelated (plainDn_suffix p base).isInfix
        rw [prepare_of_unrelated hunrelated, Ancestry.pathTo, if_neg hbase, List.map_nil,
          prepared.extend_nil]
    rw [List.map_cons, List.foldl_cons, hstep, List.flatMap_cons, List.map_append,
      PreparedDns.extend_append]
    refine @ih _ (done ++ [dn]) (fun dn' h => hne dn' (List.mem_cons_of_mem _ h))
      (fun dn' h => hdns dn' (List.mem_cons_of_mem _ h)) fun dn' => ?_
    rw [PreparedDns.mem_extend, hclosed, List.mem_map_of_injective plainDn_injective,
      List.flatMap_append, List.mem_append, List.flatMap_singleton, or_assoc]

/-- What a queue is to restore of a subtree. -/
structure RestoresSubtree (base : List PlainRdn) (dns queue : List (List PlainRdn)) : Prop where
  /-- Each DN comes once, -/
  nodup : queue.Nodup
  /-- and before the DNs below it. -/
  pairwise : queue.Pairwise fun dn dn' => ¬dn' <:+ dn
  mem_iff : ∀ dn, dn ∈ queue ↔
    dn = base ∧ base ∈ dns ∨ dn ≠ base ∧ base <:+ dn ∧ ∃ dn' ∈ dns, dn <:+ dn'

/-- The base, if it was saved, and what is on the paths to the saved DNs. -/
def restoredDns (base : List PlainRdn) (dns : List (List PlainRdn)) : List (List PlainRdn) :=
  (if base ∈ dns then [base] else []) ++
    List.keepFirstFrom id (if base = [] then [] else [base]) (dns.flatMap (Ancestry.pathTo base))

theorem mem_below {dns seen : List (List PlainRdn)}
    (h : dn ∈ List.keepFirstFrom id seen (dns.flatMap (Ancestry.pathTo base))) :
    base <:+ dn ∧ dn ≠ base := by
  rcases List.mem_flatMap.1 (List.mem_keepFirstFrom.1 h).1 with ⟨dn', -, hdn⟩
  exact (Ancestry.mem_pathTo.1 hdn).2

theorem restoresSubtree_restoredDns (base : List PlainRdn) (dns : List (List PlainRdn)) :
    RestoresSubtree base dns (restoredDns base dns) where
  nodup := by
    refine List.nodup_append.2 ⟨by split_ifs <;> simp, List.nodup_keepFirstFrom _ _, ?_⟩
    intro dn hdn dn' hdn' heq
    split_ifs at hdn
    · exact (mem_below hdn').2 (heq ▸ List.mem_singleton.1 hdn)
    · exact absurd hdn List.not_mem_nil
  pairwise := by
    refine List.pairwise_append.2 ⟨by split_ifs <;> simp, ?_, ?_⟩
    · have hgrounded := (Ancestry.grounded_flatMap_pathTo base dns
        (if base = [] then [] else [base])).pairwise_keepFirstFrom
      refine (hgrounded.and (List.nodup_keepFirstFrom _ _)).imp_of_mem ?_
      rintro dn dn' - hdn' ⟨hbetween, hne⟩ habove
      exact hbetween ⟨(mem_below hdn').1, (mem_below hdn').2, habove, Ne.symm hne⟩
    · intro dn hdn dn' hdn' habove
      split_ifs at hdn
      · rw [List.mem_singleton.1 hdn] at habove
        have hbelow := mem_below hdn'
        exact hbelow.2 (habove.eq_of_length (habove.length_le.antisymm hbelow.1.length_le))
      · exact absurd hdn List.not_mem_nil
  mem_iff dn := by
    rw [restoredDns, List.mem_append, List.mem_keepFirstFrom, List.mem_flatMap]
    simp only [Ancestry.mem_pathTo]
    constructor
    · rintro (h | ⟨⟨dn', hdn', habove, hbelow, hne⟩, -⟩)
      · split_ifs at h with hbase
        · exact .inl ⟨List.mem_singleton.1 h, hbase⟩
        · exact absurd h List.not_mem_nil
      · exact .inr ⟨hne, hbelow, dn', hdn', habove⟩
    · rintro (⟨rfl, hbase⟩ | ⟨hne, hbelow, dn', hdn', habove⟩)
      · rw [if_pos hbase]
        exact .inl (List.mem_singleton_self _)
      · refine .inr ⟨⟨dn', hdn', habove, hbelow, hne⟩, ?_⟩
        split_ifs
        · exact List.not_mem_nil
        · exact mt List.mem_singleton.1 hne

/-- The queue has the saved DNs in the subtree of the base, and those between them and the
    base, each of them once and after its ancestors. -/
theorem prepareRestoreDnQueue_restores (base : List PlainRdn) (dns : List (List PlainRdn))
    (hne : ∀ dn ∈ dns, dn ≠ []) (hdns : ∀ dn ∈ dns, InSubtreeOrUnrelated base dn) :
    ∃ queue, prepareRestoreDnQueue (plainDn base) (dns.map plainDn) = queue.map plainDn ∧
      RestoresSubtree base dns queue := by
  have hset : (if (plainDn base).isEmpty then [] else [plainDn base]) =
      (if base = [] then [] else [base]).map plainDn := by
    simp only [List.isEmpty_iff, plainDn_eq_nil]
    split_ifs <;> rfl
  have hqueue : (if plainDn base ≠ [] ∧ plainDn base ∈ dns.map plainDn then [plainDn base] else [])
      = (if base ∈ dns then [base] else []).map plainDn := by
    simp only [List.mem_map_of_injective plainDn_injective, ne_eq, plainDn_eq_nil]
    split_ifs with h h' h'
    · rfl
    · exact absurd h.2 h'
    · exact absurd ⟨hne base h', h'⟩ h
    · rfl
  refine ⟨restoredDns base dns, ?_, restoresSubtree_restoredDns base dns⟩
  rw [prepareRestoreDnQueue, @foldl_prepare _ _ _ [] hne hdns]
  · rw [PreparedDns.extend, hset, List.keepFirstFrom_map plainDn_injective, hqueue, restoredDns,
      List.map_append]
  · intro dn
    rw [hset, List.mem_map_of_injective plainDn_injective, List.flatMap_nil]
    split_ifs with hbase
    · simp [hbase]
    · simp [hbase]

/-- A domain, a unit of it, and a part of this unit. -/
def domainRdn : PlainRdn := ⟨"DC=x".toList, by decide, by decide⟩
def unitRdn : PlainRdn := ⟨"OU=a".toList, by decide, by decide⟩
def partRdn : PlainRdn := ⟨"OU=b".toList, by decide, by decide⟩

/-- The part is saved before the unit, and there is a DN of another domain. -/
theorem prepareRestoreDnQueue_restores_part :
    ∃ queue, prepareRestoreDnQueue (plainDn [domainRdn])
        ([[partRdn, unitRdn, domainRdn], [unitRdn, domainRdn], [unitRdn]].map plainDn) =
        queue.map plainDn ∧
      RestoresSubtree [domainRdn] [[partRdn, unitRdn, domainRdn], [unitRdn, domainRdn], [unitRdn]]
        queue :=
  prepareRestoreDnQueue_restores _ _ (by decide) <| by
    rintro dn hdn
    simp only [List.mem_cons, List.not_mem_nil, or_false] at hdn
    rcases hdn with rfl | rfl | rfl
    · exact .inl (by decide)
    · exact .inl (by decide)
    · exact .inr (by decide)

example : prepareRestoreDnQueue "DC=x".toList
    ["OU=b,OU=a,DC=x".toList, "OU=a,DC=x".toList, "OU=c,DC=y".toList] =
    ["OU=a,DC=x".toList, "OU=b,OU=a,DC=x".toList] := by decide

end Admc
