import Mathlib.Data.List.Nodup
import Mathlib.Logic.Relation
import Admc.Text

/-!
# The state of the console tree

What is expanded in a tree of objects is saved as a list of DNs: that of the root, and those of
the deepest nodes only. When it is restored, the DNs of the nodes above these are made from
their parts.

`mem_restoreQueue_iff`: the DNs that are restored are exactly those of the root and of the
expanded nodes with children that have been fetched, as far as they are reached from the root
through such nodes.
-/

namespace Admc

/-- A row of a tree of objects, with those below it. -/
inductive ObjectNode
  | mk (dn : QString) (isExpanded wasFetched : Bool) (children : List ObjectNode)

namespace ObjectNode

/-- `ObjectRole_DN`. -/
def dn : ObjectNode → QString
  | mk dn _ _ _ => dn

/-- `QTreeView::isExpanded`. -/
def isExpanded : ObjectNode → Bool
  | mk _ isExpanded _ _ => isExpanded

/-- `ConsoleRole_WasFetched`. -/
def wasFetched : ObjectNode → Bool
  | mk _ _ wasFetched _ => wasFetched

/-- The rows below. -/
def children : ObjectNode → List ObjectNode
  | mk _ _ _ children => children

/-- A node that has been fetched, is expanded and has children. -/
def isOpen (idx : ObjectNode) : Bool := idx.wasFetched && idx.isExpanded && !idx.children.isEmpty

mutual

/-- `TreeStateManager::expanded_index_list`. -/
def expandedIndexList : ObjectNode → List ObjectNode
  | mk _ isExpanded _ children => if !isExpanded then [] else expandedRows children

/-- The loop of `TreeStateManager::expanded_index_list` over the rows. -/
def expandedRows : List ObjectNode → List ObjectNode
  | [] => []
  | idx :: rows =>
    if !idx.isOpen then expandedRows rows
    else
      let childExpandedIdxList := expandedIndexList idx
      (if !childExpandedIdxList.isEmpty then childExpandedIdxList else [idx]) ++ expandedRows rows

end

/-- What `TreeStateManager::save_object_subtree` writes. -/
def saveObjectSubtree (parent : ObjectNode) : List QString :=
  if parent.isExpanded then parent.dn :: parent.expandedIndexList.map dn else []

end ObjectNode

/-! ## Preparing the restoration -/

/-- The DNs that are prepared, as a queue and as a set. -/
structure PreparedDns where
  queue : List QString
  dnSet : List QString

/-- A DN is put into the queue once. -/
def PreparedDns.enqueue (prepared : PreparedDns) (dn : QString) : PreparedDns :=
  if dn ∈ prepared.dnSet then prepared else ⟨prepared.queue ++ [dn], dn :: prepared.dnSet⟩

/-- The inner loop of `TreeStateManager::prepare_restore_dn_queue`, from the last part on. -/
def PreparedDns.enqueueParts (currentDn : QString) :
    List QString → PreparedDns → PreparedDns
  | [], prepared => prepared
  | part :: parts, prepared =>
    let currentDn := if currentDn.isEmpty then part else part ++ ',' :: currentDn
    enqueueParts currentDn parts (prepared.enqueue currentDn)

/-- The body of the outer loop of `TreeStateManager::prepare_restore_dn_queue`. -/
def PreparedDns.prepare (baseDn : QString) (prepared : PreparedDns) (dn : QString) :
    PreparedDns :=
  if dn ∈ prepared.dnSet ∨ baseDn ≠ [] ∧ ¬baseDn <:+: dn then prepared
  else
    let dnSplitted := dn.splitOn ','
    let baseDnPartsCount := if baseDn.isEmpty then 0 else (baseDn.splitOn ',').length
    if dnSplitted.length ≤ baseDnPartsCount then prepared
    else
      let parts := dnSplitted.take (dnSplitted.length - baseDnPartsCount)
      prepared.enqueueParts baseDn parts.reverse

/-- `TreeStateManager::prepare_restore_dn_queue`. -/
def prepareRestoreDnQueue (baseDn : QString) (dnList : List QString) : List QString :=
  let prepared : PreparedDns :=
    ⟨if baseDn ≠ [] ∧ baseDn ∈ dnList then [baseDn] else [],
      if baseDn.isEmpty then [] else [baseDn]⟩
  (dnList.foldl (PreparedDns.prepare baseDn) prepared).queue

/-! ## Preparing from parts -/

/-- The DN below a base that the parts lead to. -/
def dnBelow (baseDn : QString) (parts : List QString) : QString :=
  parts.foldl (fun dn part => part ++ ',' :: dn) baseDn

theorem dnBelow_append_singleton (baseDn : QString) (parts : List QString) (part : QString) :
    dnBelow baseDn (parts ++ [part]) = part ++ ',' :: dnBelow baseDn parts := by
  rw [dnBelow, List.foldl_append]
  rfl

theorem infix_dnBelow (baseDn : QString) (parts : List QString) :
    baseDn <:+: dnBelow baseDn parts := by
  induction parts using List.reverseRecOn with
  | nil => exact List.infix_rfl
  | append_singleton parts part ih =>
    rw [dnBelow_append_singleton]
    exact ih.trans ((List.suffix_cons ',' _).trans (List.suffix_append part _)).isInfix

theorem splitOn_dnBelow {baseDn : QString} {parts : List QString}
    (hparts : ∀ part ∈ parts, ',' ∉ part) :
    (dnBelow baseDn parts).splitOn ',' = parts.reverse ++ baseDn.splitOn ',' := by
  induction parts using List.reverseRecOn with
  | nil => rfl
  | append_singleton parts part ih =>
    rw [List.forall_mem_append, List.forall_mem_singleton] at hparts
    rw [dnBelow_append_singleton, List.splitOn_append_cons_self_of_not_mem hparts.2, ih hparts.1,
      List.reverse_append]
    rfl

theorem dnBelow_inj {baseDn : QString} {parts parts' : List QString}
    (hparts : ∀ part ∈ parts, ',' ∉ part) (hparts' : ∀ part ∈ parts', ',' ∉ part)
    (h : dnBelow baseDn parts = dnBelow baseDn parts') : parts = parts' := by
  have hsplit := @splitOn_dnBelow baseDn _ hparts
  rw [h, splitOn_dnBelow hparts'] at hsplit
  exact List.reverse_injective (List.append_cancel_right hsplit).symm

namespace PreparedDns

/-- The queue has the DNs that are in the set, each once, and that of the base only if it was
    asked for. -/
structure Agrees (baseDn : QString) (withBase : Prop) (prepared : PreparedDns) : Prop where
  base_mem : baseDn ∈ prepared.dnSet
  mem_queue : ∀ dn, dn ∈ prepared.queue ↔ dn ∈ prepared.dnSet ∧ (dn ≠ baseDn ∨ withBase)
  nodup : prepared.queue.Nodup

variable {baseDn : QString} {withBase : Prop} {prepared : PreparedDns}

theorem mem_dnSet_enqueue {dn dn' : QString} :
    dn' ∈ (prepared.enqueue dn).dnSet ↔ dn' ∈ prepared.dnSet ∨ dn' = dn := by
  rw [enqueue]
  split_ifs with hdn
  · exact ⟨Or.inl, fun h => h.elim id fun h => h ▸ hdn⟩
  · rw [List.mem_cons, or_comm]

theorem Agrees.enqueue (h : prepared.Agrees baseDn withBase) (dn : QString) :
    (prepared.enqueue dn).Agrees baseDn withBase := by
  rw [PreparedDns.enqueue]
  split_ifs with hdn
  · exact h
  · -- A DN that is not in the set is neither in the queue nor that of the base.
    have hne : dn ≠ baseDn := fun heq => hdn (heq ▸ h.base_mem)
    have hqueue : dn ∉ prepared.queue := fun hmem => hdn ((h.mem_queue dn).1 hmem).1
    refine ⟨List.mem_cons_of_mem dn h.base_mem, fun dn' => ?_, ?_⟩
    · rw [List.mem_append, List.mem_singleton, h.mem_queue, List.mem_cons]
      constructor
      · rintro (⟨hmem, hbase⟩ | rfl)
        · exact ⟨.inr hmem, hbase⟩
        · exact ⟨.inl rfl, .inl hne⟩
      · rintro ⟨rfl | hmem, hbase⟩
        · exact .inr rfl
        · exact .inl ⟨hmem, hbase⟩
    · exact h.nodup.append (List.nodup_singleton dn) (List.disjoint_singleton.2 hqueue)

theorem Agrees.enqueueParts (h : prepared.Agrees baseDn withBase) (currentDn : QString)
    (parts : List QString) : (prepared.enqueueParts currentDn parts).Agrees baseDn withBase := by
  induction parts generalizing currentDn prepared with
  | nil => exact h
  | cons part parts ih => exact ih (h.enqueue _) _

/-- The DNs on a way are put into the set. -/
theorem mem_dnSet_enqueueParts {currentDn : QString} (hcurrent : currentDn ≠ [])
    {parts : List QString} {dn : QString} :
    dn ∈ (prepared.enqueueParts currentDn parts).dnSet ↔
      dn ∈ prepared.dnSet ∨ ∃ way, way <+: parts ∧ way ≠ [] ∧ dn = dnBelow currentDn way := by
  induction parts generalizing currentDn prepared with
  | nil =>
    refine ⟨Or.inl, fun h => h.elim id ?_⟩
    rintro ⟨way, hway, hne, -⟩
    exact absurd (List.prefix_nil.1 hway) hne
  | cons part parts ih =>
    rw [PreparedDns.enqueueParts, if_neg (by simpa using hcurrent), ih (by simp),
      mem_dnSet_enqueue, or_assoc]
    refine or_congr_right ⟨?_, ?_⟩
    · rintro (rfl | ⟨way, hway, -, rfl⟩)
      · exact ⟨[part], by simp, List.cons_ne_nil _ _, rfl⟩
      · exact ⟨part :: way, List.cons_prefix_cons.2 ⟨rfl, hway⟩, List.cons_ne_nil _ _, rfl⟩
    · rintro ⟨way, hway, hne, rfl⟩
      obtain ⟨part', way, rfl⟩ := List.exists_cons_of_ne_nil hne
      obtain ⟨rfl, htail⟩ := List.cons_prefix_cons.1 hway
      rcases eq_or_ne way [] with rfl | hne
      · exact .inl rfl
      · exact .inr ⟨way, htail, hne, rfl⟩

/-- What is in the set once the ways to some nodes have been gone through. -/
def Covers (baseDn : QString) (ways : List (List QString)) (prepared : PreparedDns) : Prop :=
  ∀ dn, dn ∈ prepared.dnSet ↔ ∃ parts, (parts = [] ∨ parts ∈ ways) ∧
    ∃ way, way <+: parts ∧ dn = dnBelow baseDn way

theorem prepare_dnBelow (hbase : baseDn ≠ []) {parts : List QString}
    (hparts : ∀ part ∈ parts, ',' ∉ part) :
    prepared.prepare baseDn (dnBelow baseDn parts) =
      if dnBelow baseDn parts ∈ prepared.dnSet ∨ parts = [] then prepared
      else prepared.enqueueParts baseDn parts := by
  have hempty : baseDn.isEmpty = false := by simpa using hbase
  have hsplit := @splitOn_dnBelow baseDn _ hparts
  rw [prepare]
  have hinfix : ¬(baseDn ≠ [] ∧ ¬baseDn <:+: dnBelow baseDn parts) :=
    fun h => h.2 (infix_dnBelow baseDn parts)
  rw [hsplit, hempty]
  by_cases hmem : dnBelow baseDn parts ∈ prepared.dnSet
  · rw [if_pos (.inl hmem), if_pos (.inl hmem)]
  · rw [if_neg (not_or_intro hmem hinfix)]
    rcases eq_or_ne parts [] with rfl | hnil
    · simp
    · have hlength : 0 < parts.length := List.length_pos_of_ne_nil hnil
      simp only [List.length_append, List.length_reverse, Bool.false_eq_true, if_false]
      rw [if_neg (by omega), if_neg (not_or_intro hmem hnil), Nat.add_sub_cancel,
        List.take_left' List.length_reverse, List.reverse_reverse]

/-- One more DN is prepared. -/
theorem Covers.prepare (hbase : baseDn ≠ []) {ways : List (List QString)}
    (hways : ∀ parts ∈ ways, ∀ part ∈ parts, ',' ∉ part) {parts : List QString}
    (hparts : ∀ part ∈ parts, ',' ∉ part) (h : prepared.Covers baseDn ways) :
    (prepared.prepare baseDn (dnBelow baseDn parts)).Covers baseDn (parts :: ways) := by
  -- What is covered grows by the DNs on the way to the node.
  have hcons : ∀ dn, (∃ parts', (parts' = [] ∨ parts' ∈ parts :: ways) ∧
      ∃ way, way <+: parts' ∧ dn = dnBelow baseDn way) ↔
      dn ∈ prepared.dnSet ∨ ∃ way, way <+: parts ∧ dn = dnBelow baseDn way := by
    intro dn
    rw [h dn]
    constructor
    · rintro ⟨parts', hmem, hway⟩
      rcases hmem with hnil | hmem
      · exact .inl ⟨parts', .inl hnil, hway⟩
      · rcases List.mem_cons.1 hmem with rfl | hmem
        · exact .inr hway
        · exact .inl ⟨parts', .inr hmem, hway⟩
    · rintro (⟨parts', hmem, hway⟩ | hway)
      · exact ⟨parts', hmem.imp_right (List.mem_cons_of_mem _), hway⟩
      · exact ⟨parts, .inr List.mem_cons_self, hway⟩
  intro dn
  rw [hcons, prepare_dnBelow hbase hparts]
  split_ifs with hskip
  · -- The DN is known, and with it those on the way to it.
    refine ⟨Or.inl, fun hdn => hdn.elim id ?_⟩
    rintro ⟨way, hway, rfl⟩
    rw [h]
    rcases hskip with hmem | rfl
    · obtain ⟨parts', hparts', way', hway', heq⟩ := (h _).1 hmem
      have hcomma : ∀ part ∈ way', ',' ∉ part := by
        intro part hpart
        rcases hparts' with rfl | hparts'
        · exact absurd (hway'.subset hpart) List.not_mem_nil
        · exact hways parts' hparts' part (hway'.subset hpart)
      obtain rfl := dnBelow_inj hparts hcomma heq
      exact ⟨parts', hparts', way, hway.trans hway', rfl⟩
    · exact ⟨[], .inl rfl, way, hway, rfl⟩
  · rw [mem_dnSet_enqueueParts hbase]
    constructor
    · exact Or.imp_right fun ⟨way, hway, _, heq⟩ => ⟨way, hway, heq⟩
    · rintro (hmem | ⟨way, hway, rfl⟩)
      · exact .inl hmem
      · rcases eq_or_ne way [] with rfl | hne
        · exact .inl ((h baseDn).2 ⟨[], .inl rfl, [], List.prefix_rfl, rfl⟩)
        · exact .inr ⟨way, hway, hne, rfl⟩

theorem Agrees.prepare (hbase : baseDn ≠ []) {parts : List QString}
    (hparts : ∀ part ∈ parts, ',' ∉ part) (h : prepared.Agrees baseDn withBase) :
    (prepared.prepare baseDn (dnBelow baseDn parts)).Agrees baseDn withBase := by
  rw [prepare_dnBelow hbase hparts]
  split_ifs
  · exact h
  · exact h.enqueueParts baseDn parts

/-- The loop over the DNs. -/
theorem foldl_prepare (hbase : baseDn ≠ []) {ways done : List (List QString)}
    (hways : ∀ parts ∈ ways, ∀ part ∈ parts, ',' ∉ part)
    (hdone : ∀ parts ∈ done, ∀ part ∈ parts, ',' ∉ part)
    (h : prepared.Agrees baseDn withBase) (hcovers : prepared.Covers baseDn done) :
    ((ways.map (dnBelow baseDn)).foldl (prepare baseDn) prepared).Agrees baseDn withBase ∧
      ((ways.map (dnBelow baseDn)).foldl (prepare baseDn) prepared).Covers baseDn
        (ways.reverse ++ done) := by
  induction ways generalizing prepared done with
  | nil => exact ⟨h, hcovers⟩
  | cons parts ways ih =>
    rw [List.forall_mem_cons] at hways
    have hrest := ih hways.2 (List.forall_mem_cons.2 ⟨hways.1, hdone⟩)
      (h.prepare hbase hways.1) (hcovers.prepare hbase hdone hways.1)
    simpa using hrest

end PreparedDns

/-- From DNs that lead to nodes below the base, with that of the base itself, the DNs of all
    nodes on the ways are prepared, each once. -/
theorem mem_prepareRestoreDnQueue {baseDn : QString} (hbase : baseDn ≠ [])
    {ways : List (List QString)} (hways : ∀ parts ∈ ways, ∀ part ∈ parts, ',' ∉ part)
    (hnil : [] ∈ ways) :
    (prepareRestoreDnQueue baseDn (ways.map (dnBelow baseDn))).Nodup ∧
      ∀ dn, dn ∈ prepareRestoreDnQueue baseDn (ways.map (dnBelow baseDn)) ↔
        ∃ parts ∈ ways, ∃ way, way <+: parts ∧ dn = dnBelow baseDn way := by
  have hmem : baseDn ∈ ways.map (dnBelow baseDn) := List.mem_map.2 ⟨[], hnil, rfl⟩
  have hempty : baseDn.isEmpty = false := by simpa using hbase
  have hagrees : (⟨[baseDn], [baseDn]⟩ : PreparedDns).Agrees baseDn True :=
    ⟨List.mem_singleton_self _, fun dn => by simp, List.nodup_singleton _⟩
  have hcovers : (⟨[baseDn], [baseDn]⟩ : PreparedDns).Covers baseDn [] := by
    intro dn
    rw [List.mem_singleton]
    constructor
    · rintro rfl
      exact ⟨[], .inl rfl, [], List.prefix_rfl, rfl⟩
    · rintro ⟨parts, hparts, way, hway, rfl⟩
      obtain rfl := hparts.resolve_right List.not_mem_nil
      rw [List.prefix_nil.1 hway]
      rfl
  obtain ⟨hqueue, hset⟩ := PreparedDns.foldl_prepare hbase hways
    (fun parts h => absurd h List.not_mem_nil) hagrees hcovers
  rw [prepareRestoreDnQueue]
  rw [if_pos ⟨hbase, hmem⟩, hempty, if_neg Bool.false_ne_true]
  refine ⟨hqueue.nodup, fun dn => ?_⟩
  rw [hqueue.mem_queue, and_iff_left (.inr trivial), hset]
  simp only [List.append_nil, List.mem_reverse]
  constructor
  · rintro ⟨parts, rfl | hparts, hway⟩
    · exact ⟨[], hnil, hway⟩
    · exact ⟨parts, hparts, hway⟩
  · rintro ⟨parts, hparts, hway⟩
    exact ⟨parts, .inr hparts, hway⟩

/-- The DN of the parent: what is after the first comma. -/
def parentDn (dn : QString) : QString := (dn.dropWhile (· ≠ ',')).tail

theorem parentDn_append {part dn : QString} (h : ',' ∉ part) :
    parentDn (part ++ ',' :: dn) = dn := by
  have hpart : ∀ c ∈ part, decide (c ≠ ',') = true := fun c hc =>
    decide_eq_true fun heq => h (heq ▸ hc)
  rw [parentDn, List.dropWhile_append_of_pos hpart]
  rfl

/-- Each DN in a queue, other than that of the base, comes after that of its parent. -/
def ParentsFirst (baseDn : QString) (queue : List QString) : Prop :=
  ∀ before dn after, queue = before ++ dn :: after → dn = baseDn ∨ parentDn dn ∈ before

theorem ParentsFirst.concat {baseDn dn : QString} {queue : List QString}
    (h : ParentsFirst baseDn queue) (hdn : parentDn dn ∈ queue) :
    ParentsFirst baseDn (queue ++ [dn]) := by
  intro before dn' after hqueue
  obtain rfl | ⟨after, last, rfl⟩ := List.eq_nil_or_concat' after
  · obtain ⟨rfl, hlast⟩ := List.append_inj' hqueue rfl
    obtain rfl := List.singleton_inj.1 hlast
    exact .inr hdn
  · rw [← List.cons_append, ← List.append_assoc] at hqueue
    exact h before dn' after (List.append_inj' hqueue rfl).1

namespace PreparedDns

variable {baseDn : QString} {prepared : PreparedDns}

/-- The DNs on a way are put into the queue from the base on. -/
theorem parentsFirst_enqueueParts (hagrees : prepared.Agrees baseDn True)
    (h : ParentsFirst baseDn prepared.queue) {currentDn : QString}
    (hcurrent : currentDn ∈ prepared.dnSet) (hne : currentDn ≠ []) {parts : List QString}
    (hparts : ∀ part ∈ parts, ',' ∉ part) :
    ParentsFirst baseDn (prepared.enqueueParts currentDn parts).queue := by
  induction parts generalizing currentDn prepared with
  | nil => exact h
  | cons part parts ih =>
    rw [List.forall_mem_cons] at hparts
    rw [enqueueParts, if_neg (by simpa using hne)]
    have hnext : ParentsFirst baseDn (prepared.enqueue (part ++ ',' :: currentDn)).queue := by
      rw [enqueue]
      split_ifs
      · exact h
      · refine h.concat ?_
        rw [parentDn_append hparts.1]
        exact (hagrees.mem_queue currentDn).2 ⟨hcurrent, .inr trivial⟩
    exact ih (hagrees.enqueue _) hnext (mem_dnSet_enqueue.2 (.inr rfl)) (by simp) hparts.2

theorem parentsFirst_prepare (hbase : baseDn ≠ []) (hagrees : prepared.Agrees baseDn True)
    (h : ParentsFirst baseDn prepared.queue) (dn : QString) :
    (prepared.prepare baseDn dn).Agrees baseDn True ∧
      ParentsFirst baseDn (prepared.prepare baseDn dn).queue := by
  have hempty : baseDn.isEmpty = false := by simpa using hbase
  rw [prepare]
  rw [hempty]
  dsimp only
  rw [if_neg Bool.false_ne_true]
  split_ifs
  · exact ⟨hagrees, h⟩
  · exact ⟨hagrees, h⟩
  · refine ⟨hagrees.enqueueParts _ _,
      parentsFirst_enqueueParts hagrees h hagrees.base_mem hbase fun part hpart => ?_⟩
    exact Path.not_mem_of_mem_splitOn (List.mem_of_mem_take (List.mem_reverse.1 hpart))

end PreparedDns

/-- From any DNs, with that of the base among them, a queue is prepared in which the DN of each
    node comes after that of its parent. -/
theorem parentsFirst_prepareRestoreDnQueue {baseDn : QString} (hbase : baseDn ≠ [])
    {dnList : List QString} (hmem : baseDn ∈ dnList) :
    ParentsFirst baseDn (prepareRestoreDnQueue baseDn dnList) := by
  have hagrees : (⟨[baseDn], [baseDn]⟩ : PreparedDns).Agrees baseDn True :=
    ⟨List.mem_singleton_self _, fun dn => by simp, List.nodup_singleton _⟩
  have hfirst : ParentsFirst baseDn [baseDn] := by
    intro before dn after hqueue
    have hdn : dn ∈ [baseDn] := hqueue ▸ List.mem_append_right _ List.mem_cons_self
    exact .inl (List.mem_singleton.1 hdn)
  have hstart : (⟨[baseDn], [baseDn]⟩ : PreparedDns).Agrees baseDn True ∧
      ParentsFirst baseDn (⟨[baseDn], [baseDn]⟩ : PreparedDns).queue := ⟨hagrees, hfirst⟩
  have hfold := List.foldlRecOn (motive := fun prepared =>
      prepared.Agrees baseDn True ∧ ParentsFirst baseDn prepared.queue)
    dnList (PreparedDns.prepare baseDn) hstart
    fun prepared h dn _ => PreparedDns.parentsFirst_prepare hbase h.1 h.2 dn
  rw [prepareRestoreDnQueue]
  have hempty : baseDn.isEmpty = false := by simpa using hbase
  rw [if_pos ⟨hbase, hmem⟩, hempty, if_neg Bool.false_ne_true]
  exact hfold.2

/-- The parts of a name that ends in that of the base lead to it. -/
theorem exists_parts (baseDn rdns : QString) :
    ∃ parts, (∀ part ∈ parts, ',' ∉ part) ∧ dnBelow baseDn parts = rdns ++ ',' :: baseDn := by
  induction hcs : rdns.splitOn ',' generalizing rdns with
  | nil => exact absurd hcs (List.splitOn_ne_nil ',' rdns)
  | cons part parts ih =>
    obtain ⟨hpart, ⟨-, rfl⟩ | ⟨rest, rfl, hrest⟩⟩ := Path.exists_of_splitOn_eq_cons hcs
    · exact ⟨[rdns], List.forall_mem_singleton.2 hpart, rfl⟩
    · obtain ⟨parts', hparts', hdn⟩ := ih rest hrest
      refine ⟨parts' ++ [part],
        List.forall_mem_append.2 ⟨hparts', List.forall_mem_singleton.2 hpart⟩, ?_⟩
      rw [dnBelow_append_singleton, hdn, List.append_assoc]
      rfl

/-- DNs that end in that of the base are in the queue that is prepared from them. -/
theorem mem_prepareRestoreDnQueue_of_below {baseDn : QString} (hbase : baseDn ≠ [])
    {dnList : List QString} (hmem : baseDn ∈ dnList)
    (hbelow : ∀ dn ∈ dnList, dn = baseDn ∨ ∃ rdns, dn = rdns ++ ',' :: baseDn) {dn : QString}
    (hdn : dn ∈ dnList) : dn ∈ prepareRestoreDnQueue baseDn dnList := by
  -- each DN is made from parts
  have hways : ∀ dnList : List QString,
      (∀ dn ∈ dnList, dn = baseDn ∨ ∃ rdns, dn = rdns ++ ',' :: baseDn) →
      ∃ ways : List (List QString), dnList = ways.map (dnBelow baseDn) ∧
        ∀ parts ∈ ways, ∀ part ∈ parts, ',' ∉ part := by
    intro dnList hbelow
    induction dnList with
    | nil => exact ⟨[], rfl, nofun⟩
    | cons dn dnList ih =>
      rw [List.forall_mem_cons] at hbelow
      obtain ⟨ways, rfl, hcomma⟩ := ih hbelow.2
      obtain rfl | ⟨rdns, rfl⟩ := hbelow.1
      · exact ⟨[] :: ways, rfl, List.forall_mem_cons.2 ⟨nofun, hcomma⟩⟩
      · obtain ⟨parts, hparts, hparts'⟩ := exists_parts baseDn rdns
        refine ⟨parts :: ways, ?_, List.forall_mem_cons.2 ⟨hparts, hcomma⟩⟩
        rw [List.map_cons, hparts']
  obtain ⟨ways, rfl, hcomma⟩ := hways dnList hbelow
  have hnil : [] ∈ ways := by
    obtain ⟨parts, hparts, heq⟩ := List.mem_map.1 hmem
    have hparts' : parts = [] := dnBelow_inj (hcomma parts hparts) nofun heq
    exact hparts' ▸ hparts
  obtain ⟨parts, hparts, rfl⟩ := List.mem_map.1 hdn
  exact ((mem_prepareRestoreDnQueue hbase hcomma hnil).2 _).2 ⟨parts, hparts, parts,
    List.prefix_rfl, rfl⟩

/-! ## Names and ways -/

namespace ObjectNode

/-- The DN of each node below is its RDN, a comma and the DN of its parent. -/
inductive WellNamed : ObjectNode → Prop
  | mk {dn : QString} {isExpanded wasFetched : Bool} {children : List ObjectNode}
    (names : ∀ child ∈ children, ∃ rdn, rdn ≠ [] ∧ ',' ∉ rdn ∧ child.dn = rdn ++ ',' :: dn)
    (subtrees : ∀ child ∈ children, WellNamed child) :
    WellNamed (.mk dn isExpanded wasFetched children)

/-- A node has been fetched, is expanded and has children, and is a child of another. -/
def Opens (parent idx : ObjectNode) : Prop := idx ∈ parent.children ∧ idx.isOpen = true

/-- A node is reached from the root through such nodes. The root itself is reached. -/
def Reaches (root idx : ObjectNode) : Prop := Relation.ReflTransGen Opens root idx

/-- The RDNs on the way from the root to a node. -/
inductive Way (root : ObjectNode) : List QString → ObjectNode → Prop
  | root : Way root [] root
  | child {rdns : List QString} {parent idx : ObjectNode} {rdn : QString}
    (h : Way root rdns parent) (hopens : Opens parent idx) (hrdn : ',' ∉ rdn)
    (hdn : idx.dn = rdn ++ ',' :: parent.dn) : Way root (rdns ++ [rdn]) idx

variable {root idx : ObjectNode}

theorem Opens.isExpanded {parent : ObjectNode} (h : Opens parent idx) : idx.isExpanded = true := by
  have hopen := h.2
  rw [isOpen] at hopen
  simp only [Bool.and_eq_true] at hopen
  exact hopen.1.2

theorem WellNamed.of_mem_children (h : root.WellNamed) (hmem : idx ∈ root.children) :
    idx.WellNamed ∧ ∃ rdn, rdn ≠ [] ∧ ',' ∉ rdn ∧ idx.dn = rdn ++ ',' :: root.dn := by
  cases h with
  | mk names subtrees => exact ⟨subtrees idx hmem, names idx hmem⟩

theorem Way.dn_eq {rdns : List QString} (h : Way root rdns idx) :
    idx.dn = dnBelow root.dn rdns := by
  induction h with
  | root => rfl
  | child h hopens hrdn hdn ih => rw [dnBelow_append_singleton, hdn, ih]

theorem Way.not_mem {rdns : List QString} (h : Way root rdns idx) : ∀ rdn ∈ rdns, ',' ∉ rdn := by
  induction h with
  | root => exact fun rdn hrdn => absurd hrdn List.not_mem_nil
  | child h hopens hrdn hdn ih =>
    exact List.forall_mem_append.2 ⟨ih, List.forall_mem_singleton.2 hrdn⟩

theorem Way.reaches {rdns : List QString} (h : Way root rdns idx) : Reaches root idx := by
  induction h with
  | root => exact .refl
  | child h hopens hrdn hdn ih => exact ih.tail hopens

/-- A part of a way leads to a node on it. -/
theorem Way.of_prefix {rdns way : List QString} (h : Way root rdns idx) (hway : way <+: rdns) :
    ∃ idx', Way root way idx' := by
  induction h with
  | root => exact ⟨root, List.prefix_nil.1 hway ▸ .root⟩
  | child h hopens hrdn hdn ih =>
    rcases List.prefix_concat_iff.1 hway with rfl | hway
    · exact ⟨_, .child h hopens hrdn hdn⟩
    · exact ih hway

theorem WellNamed.of_reaches (h : root.WellNamed) (hreaches : Reaches root idx) :
    idx.WellNamed := by
  induction hreaches with
  | refl => exact h
  | tail hreaches hopens ih => exact (ih.of_mem_children hopens.1).1

/-- A way is continued to the nodes that are reached from its end. -/
theorem Way.extend (h : root.WellNamed) {way : List QString} {parent : ObjectNode}
    (hway : Way root way parent) (hreaches : Reaches parent idx) :
    ∃ rdns, way <+: rdns ∧ Way root rdns idx := by
  induction hreaches with
  | refl => exact ⟨way, List.prefix_rfl, hway⟩
  | tail hreaches hopens ih =>
    obtain ⟨rdns, hprefix, hrdns⟩ := ih
    have hnamed := (h.of_reaches hway.reaches).of_reaches hreaches
    obtain ⟨-, rdn, -, hrdn, hdn⟩ := hnamed.of_mem_children hopens.1
    exact ⟨rdns ++ [rdn], hprefix.trans (List.prefix_append _ _), .child hrdns hopens hrdn hdn⟩

/-! ## The deepest nodes -/

theorem mem_expandedRows {rows : List ObjectNode} :
    idx ∈ expandedRows rows ↔ ∃ row ∈ rows, row.isOpen = true ∧
      (idx ∈ row.expandedIndexList ∨ row.expandedIndexList = [] ∧ idx = row) := by
  induction rows with
  | nil => simp [expandedRows]
  | cons row rows ih =>
    rw [expandedRows]
    cases hopen : row.isOpen with
    | false => simp [hopen, ih]
    | true =>
      cases hlist : row.expandedIndexList with
      | nil => simp [hopen, hlist, ih]
      | cons idx' idxs => simp [hopen, hlist, ih, or_assoc]

theorem mem_expandedIndexList :
    idx ∈ root.expandedIndexList ↔ root.isExpanded = true ∧ ∃ row, Opens root row ∧
      (idx ∈ row.expandedIndexList ∨ row.expandedIndexList = [] ∧ idx = row) := by
  cases root with
  | mk dn isExpanded wasFetched children =>
    cases isExpanded with
    | false => simp [expandedIndexList, ObjectNode.isExpanded]
    | true =>
      simp [expandedIndexList, ObjectNode.isExpanded, mem_expandedRows, Opens,
        ObjectNode.children, and_assoc]

/-- Nodes that are saved are reached. -/
theorem reaches_of_mem : ∀ {root : ObjectNode}, idx ∈ root.expandedIndexList → Reaches root idx
  | mk dn isExpanded wasFetched children, h => by
    obtain ⟨-, row, hopens, hmem | ⟨-, rfl⟩⟩ := mem_expandedIndexList.1 h
    · have hrow : row ∈ children := hopens.1
      exact (reaches_of_mem hmem).head hopens
    · exact .single hopens

/-- At or below each node that is reached, other than the root, one is saved. -/
theorem exists_mem_of_reaches (hexpanded : root.isExpanded = true)
    (h : Relation.TransGen Opens root idx) :
    ∃ saved ∈ root.expandedIndexList, Reaches idx saved := by
  induction h using Relation.TransGen.head_induction_on with
  | single hopens =>
    rcases List.eq_nil_or_concat idx.expandedIndexList with hnil | ⟨saveds, saved, hlist⟩
    · exact ⟨idx, mem_expandedIndexList.2 ⟨hexpanded, idx, hopens, .inr ⟨hnil, rfl⟩⟩, .refl⟩
    · have hmem : saved ∈ idx.expandedIndexList := by simp [hlist]
      exact ⟨saved, mem_expandedIndexList.2 ⟨hexpanded, idx, hopens, .inl hmem⟩,
        reaches_of_mem hmem⟩
  | head hopens h ih =>
    obtain ⟨saved, hmem, hreaches⟩ := ih hopens.isExpanded
    exact ⟨saved, mem_expandedIndexList.2 ⟨hexpanded, _, hopens, .inl hmem⟩, hreaches⟩

/-- The DNs of nodes at the ends of ways are made from the ways. -/
theorem exists_ways {saved : List ObjectNode} (h : ∀ idx ∈ saved, ∃ rdns, Way root rdns idx) :
    ∃ ways : List (List QString), saved.map dn = ways.map (dnBelow root.dn) ∧
      (∀ rdns ∈ ways, ∃ idx, Way root rdns idx) ∧
      ∀ idx ∈ saved, ∀ rdns, Way root rdns idx → rdns ∈ ways := by
  induction saved with
  | nil => exact ⟨[], rfl, fun _ h => absurd h List.not_mem_nil,
      fun _ h => absurd h List.not_mem_nil⟩
  | cons idx saved ih =>
    rw [List.forall_mem_cons] at h
    obtain ⟨rdns, hrdns⟩ := h.1
    obtain ⟨ways, hdns, hways, hmem⟩ := ih h.2
    refine ⟨rdns :: ways, ?_, List.forall_mem_cons.2 ⟨⟨idx, hrdns⟩, hways⟩, ?_⟩
    · rw [List.map_cons, List.map_cons, hdns, hrdns.dn_eq]
    · rw [List.forall_mem_cons]
      refine ⟨fun rdns' hrdns' => ?_, fun idx' hidx' rdns' hrdns' => ?_⟩
      · have heq := hrdns'.dn_eq.symm.trans hrdns.dn_eq
        rw [dnBelow_inj hrdns'.not_mem hrdns.not_mem heq]
        exact List.mem_cons_self
      · exact List.mem_cons_of_mem _ (hmem idx' hidx' rdns' hrdns')

/-- Saving what is expanded and restoring it: the DNs in the queue are those of the root and of
    the nodes that are reached from it through nodes that have been fetched, are expanded and
    have children; there are none if the root is not expanded. Each is in it once. -/
theorem mem_restoreQueue_iff (h : root.WellNamed) (hdn : root.dn ≠ []) :
    (prepareRestoreDnQueue root.dn root.saveObjectSubtree).Nodup ∧
      ∀ dn, dn ∈ prepareRestoreDnQueue root.dn root.saveObjectSubtree ↔
        root.isExpanded = true ∧ ∃ idx, Reaches root idx ∧ idx.dn = dn := by
  rw [saveObjectSubtree]
  split_ifs with hexpanded
  · have hends : ∀ idx ∈ root :: root.expandedIndexList, ∃ rdns, Way root rdns idx := by
      intro idx hidx
      have hreaches : Reaches root idx := by
        rcases List.mem_cons.1 hidx with rfl | hidx
        · exact .refl
        · exact reaches_of_mem hidx
      obtain ⟨rdns, -, hrdns⟩ := Way.extend h .root hreaches
      exact ⟨rdns, hrdns⟩
    obtain ⟨ways, hdns, hways, hmem⟩ := exists_ways hends
    have hcomma : ∀ rdns ∈ ways, ∀ rdn ∈ rdns, ',' ∉ rdn := by
      intro rdns hrdns
      obtain ⟨idx, hidx⟩ := hways rdns hrdns
      exact hidx.not_mem
    have hqueue := mem_prepareRestoreDnQueue hdn hcomma (hmem root List.mem_cons_self [] .root)
    rw [← List.map_cons, hdns]
    refine ⟨hqueue.1, fun dn => (hqueue.2 dn).trans ?_⟩
    rw [and_iff_right hexpanded]
    constructor
    · -- A part of the way to a node leads to a node that is reached.
      rintro ⟨rdns, hrdns, way, hway, rfl⟩
      obtain ⟨idx, hidx⟩ := hways rdns hrdns
      obtain ⟨idx', hidx'⟩ := hidx.of_prefix hway
      exact ⟨idx', hidx'.reaches, hidx'.dn_eq⟩
    · -- A node that is reached is on the way to one that is saved.
      rintro ⟨idx, hreaches, rfl⟩
      obtain ⟨way, -, hway⟩ := Way.extend h .root hreaches
      have hsaved : ∃ saved ∈ root :: root.expandedIndexList, Reaches idx saved := by
        rcases Relation.reflTransGen_iff_eq_or_transGen.1 hreaches with rfl | hreaches
        · exact ⟨idx, List.mem_cons_self, .refl⟩
        · obtain ⟨saved, hsaved, hbelow⟩ := exists_mem_of_reaches hexpanded hreaches
          exact ⟨saved, List.mem_cons_of_mem _ hsaved, hbelow⟩
      obtain ⟨saved, hsaved, hbelow⟩ := hsaved
      obtain ⟨rdns, hprefix, hrdns⟩ := hway.extend h hbelow
      exact ⟨rdns, hmem saved hsaved rdns hrdns, way, hprefix, hway.dn_eq⟩
  · simp [prepareRestoreDnQueue, hexpanded]

/-- A domain with a unit that is expanded, and has a user. -/
def unitsTree : ObjectNode :=
  .mk "DC=alt".toList true true [.mk "OU=a,DC=alt".toList true true
    [.mk "CN=u,OU=a,DC=alt".toList false false []]]

theorem wellNamed_unitsTree : unitsTree.WellNamed := by
  have huser : WellNamed (.mk "CN=u,OU=a,DC=alt".toList false false []) := ⟨nofun, nofun⟩
  refine ⟨?_, ?_⟩
  · rw [List.forall_mem_singleton]
    exact ⟨"OU=a".toList, by decide⟩
  · rw [List.forall_mem_singleton]
    refine ⟨?_, List.forall_mem_singleton.2 huser⟩
    rw [List.forall_mem_singleton]
    exact ⟨"CN=u".toList, by decide⟩

theorem mem_restoreQueue_iff_units :
    (prepareRestoreDnQueue unitsTree.dn unitsTree.saveObjectSubtree).Nodup ∧
      ∀ dn, dn ∈ prepareRestoreDnQueue unitsTree.dn unitsTree.saveObjectSubtree ↔
        unitsTree.isExpanded = true ∧ ∃ idx, Reaches unitsTree idx ∧ idx.dn = dn :=
  mem_restoreQueue_iff wellNamed_unitsTree (by decide)

example : prepareRestoreDnQueue unitsTree.dn unitsTree.saveObjectSubtree =
    ["DC=alt".toList, "OU=a,DC=alt".toList] := by decide

end ObjectNode

end Admc
