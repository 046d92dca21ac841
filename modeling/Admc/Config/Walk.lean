import Admc.Config.Kept

/-!
# The classes that permissions can be given for

The walk of `AdConfig::load_permissionable_attributes` over the classes, with the classes that it
loads one after the other. It comes to an end whatever the possible inferiors are, and loads no
class twice (`exists_loadPermissionableAttributesLog`).

The table is not cleared before. So classes in it are not walked past, and those that are not
reachable any more stay: `loadsReachable_iff` says when the table has the reachable classes.
-/

namespace Admc

namespace AdConfigPrivate

section
variable (rt : Runtime) (ad : AdConnection)

/-- `AdConfig::load_permissionable_attributes`, in so many levels of the recursion, with the
    classes whose attributes are put into the table. -/
def loadPermissionableAttributesLog :
    ℕ → String → AdConfigPrivate × List String → Option (AdConfigPrivate × List String)
  | 0, _, _ => none
  | n + 1, objClass, (d, loaded) =>
    match permissionableObjects ad d.schemaDn objClass with
    | [] => some (d, loaded)
    | classSchemaObject :: _ =>
      let attrs := permissionableAttrs rt d.attributeSchemas classSchemaObject
      let d := { d with
        classPermissionableAttributesMap :=
          d.classPermissionableAttributesMap.insert objClass attrs }
      (d.getClassPossibleInferiors objClass).foldlM (fun s inferior =>
        if inferior = objClass || s.1.isPermissionable inferior then some s
        else loadPermissionableAttributesLog n inferior s) (d, loaded ++ [objClass])

variable (d : AdConfigPrivate)

/-- A class has an object in the schema. -/
def HasSchemaObject (objClass : String) : Prop :=
  permissionableObjects ad d.schemaDn objClass ≠ []

/-- A class is a possible inferior with an object in the schema. -/
def Leads (objClass inferior : String) : Prop :=
  inferior ∈ d.getClassPossibleInferiors objClass ∧ HasSchemaObject ad d inferior

/-- A class is reachable from another through classes that have objects in the schema. -/
def Reachable (objClass inferior : String) : Prop :=
  HasSchemaObject ad d objClass ∧ Relation.ReflTransGen (Leads ad d) objClass inferior

/-- A class is reachable through classes that are not in the table. -/
def ReachablePast (objClass inferior : String) : Prop :=
  HasSchemaObject ad d objClass ∧ Relation.ReflTransGen (fun objClass inferior =>
    Leads ad d objClass inferior ∧ d.isPermissionable inferior = false) objClass inferior

/-- Entering a class: its attributes are put into the table, and it is listed. -/
def enterLog (objClass : String) :
    Option (QHash String (List String) × List String →
      QHash String (List String) × List String) :=
  (permissionableObjects ad d.schemaDn objClass).head?.map fun object s =>
    (s.1.insert objClass (permissionableAttrs rt d.attributeSchemas object), s.2 ++ [objClass])

/-- A class in the table. -/
def seenLog (s : QHash String (List String) × List String) (objClass : String) : Bool :=
  s.1.contains objClass

/-- A configuration whose table is that of a state of the walk. -/
def atLog (s : QHash String (List String) × List String) : AdConfigPrivate × List String :=
  (d.withAttributes s.1, s.2)

end

variable {rt : Runtime} {ad : AdConnection} {d : AdConfigPrivate}

/-- The list makes no difference to what is loaded. -/
theorem map_fst_loadPermissionableAttributesLog (n : ℕ) (objClass : String)
    (s : AdConfigPrivate × List String) :
    (loadPermissionableAttributesLog rt ad n objClass s).map Prod.fst =
      loadPermissionableAttributes rt ad n objClass s.1 := by
  induction n generalizing objClass s with
  | zero => rfl
  | succ n ih =>
    obtain ⟨d, loaded⟩ := s
    rw [loadPermissionableAttributesLog, loadPermissionableAttributes]
    rcases permissionableObjects ad d.schemaDn objClass with - | ⟨object, objects⟩
    · rfl
    · have hfold : ∀ (inferiors : List String) (s : AdConfigPrivate × List String),
          (inferiors.foldlM (fun s inferior =>
            if inferior = objClass || s.1.isPermissionable inferior then some s
            else loadPermissionableAttributesLog rt ad n inferior s) s).map Prod.fst =
          inferiors.foldlM (fun d inferior =>
            if inferior = objClass || d.isPermissionable inferior then some d
            else loadPermissionableAttributes rt ad n inferior d) s.1 := by
        intro inferiors
        induction inferiors with
        | nil => exact fun _ => rfl
        | cons inferior inferiors ih' =>
          intro s
          rw [List.foldlM_cons, List.foldlM_cons]
          split_ifs
          · exact ih' s
          · rw [← ih]
            rcases loadPermissionableAttributesLog rt ad n inferior s with - | s'
            · rfl
            · exact ih' s'
      exact hfold _ _

theorem marks_enterLog : DepthFirst.Marks seenLog (enterLog rt ad d) := by
  intro objClass f hf s inferior
  obtain ⟨object, -, rfl⟩ := Option.map_eq_some_iff.1 hf
  rw [seenLog, seenLog, Bool.eq_iff_iff, QHash.contains_iff, QHash.mem_keys_insert,
    Bool.or_eq_true, decide_eq_true_iff, QHash.contains_iff]

/-- The recursion is a depth-first walk. -/
theorem loadPermissionableAttributesLog_eq (n : ℕ) (objClass : String)
    (s : QHash String (List String) × List String) :
    loadPermissionableAttributesLog rt ad n objClass (d.atLog s) =
      (DepthFirst.walk seenLog (enterLog rt ad d) d.getClassPossibleInferiors n s objClass).map
        d.atLog := by
  induction n generalizing objClass s with
  | zero => rfl
  | succ n ih =>
    have hobjects : permissionableObjects ad (d.withAttributes s.1).schemaDn objClass =
        permissionableObjects ad d.schemaDn objClass := rfl
    rw [atLog, loadPermissionableAttributesLog, DepthFirst.walk, hobjects, enterLog]
    rcases permissionableObjects ad d.schemaDn objClass with - | ⟨object, objects⟩
    · rfl
    · have hfold : ∀ (inferiors : List String) (s : QHash String (List String) × List String),
          s.1.contains objClass = true → inferiors.foldlM (fun s inferior =>
            if inferior = objClass || s.1.isPermissionable inferior then some s
            else loadPermissionableAttributesLog rt ad n inferior s) (d.atLog s) =
          (inferiors.foldlM (fun s inferior =>
            if seenLog s inferior then some s
            else DepthFirst.walk seenLog (enterLog rt ad d) d.getClassPossibleInferiors n s
              inferior) s).map d.atLog := by
        intro inferiors
        induction inferiors with
        | nil => exact fun _ _ => rfl
        | cons inferior inferiors ih' =>
          intro s hs
          have hseen : (decide (inferior = objClass) ||
              isPermissionable (d.atLog s).1 inferior) = seenLog s inferior := by
            by_cases hinferior : inferior = objClass
            · rw [hinferior, seenLog, hs]
              simp
            · simp [hinferior, isPermissionable, atLog, withAttributes, seenLog]
          rw [List.foldlM_cons, List.foldlM_cons, hseen]
          split_ifs with hcontains
          · exact ih' s hs
          · rw [ih]
            rcases hwalk : DepthFirst.walk seenLog (enterLog rt ad d)
              d.getClassPossibleInferiors n s inferior with - | s'
            · rfl
            · have hs' : seenLog s' objClass = true :=
                DepthFirst.seen_walk marks_enterLog hwalk hs
              exact ih' s' hs'
      refine hfold (d.getClassPossibleInferiors objClass) (s.1.insert objClass
        (permissionableAttrs rt d.attributeSchemas object), s.2 ++ [objClass]) ?_
      rw [QHash.contains_iff, QHash.mem_keys_insert]
      exact .inl rfl

/-- The classes that a walk lists are those that it enters. -/
theorem enterAll_enterLog {order : List String} {s : QHash String (List String) × List String}
    (horder : ∀ c ∈ order, (enterLog rt ad d c).isSome = true) :
    (DepthFirst.enterAll (enterLog rt ad d) order s).2 = s.2 ++ order := by
  induction order generalizing s with
  | nil => exact (List.append_nil _).symm
  | cons c order ih =>
    obtain ⟨f, hf⟩ := Option.isSome_iff_exists.1 (horder c List.mem_cons_self)
    obtain ⟨object, -, rfl⟩ := Option.map_eq_some_iff.1 hf
    have hrest := @ih (s.1.insert c (permissionableAttrs rt d.attributeSchemas object), s.2 ++ [c])
      fun c hc => horder c (List.mem_cons_of_mem _ hc)
    rw [DepthFirst.enterAll, List.foldl_cons, hf]
    exact hrest.trans (List.append_assoc _ _ _)

/-- A class is entered if it has an object in the schema. -/
theorem isSome_enterLog {objClass : String} :
    (enterLog rt ad d objClass).isSome = true ↔ HasSchemaObject ad d objClass := by
  rw [enterLog, Option.isSome_map, HasSchemaObject]
  cases permissionableObjects ad d.schemaDn objClass with
  | nil => exact iff_of_false Bool.false_ne_true (fun h => h rfl)
  | cons object objects => exact iff_of_true rfl (List.cons_ne_nil _ _)

theorem reaches_iff {loaded : List String} {objClass inferior : String} :
    DepthFirst.Reaches seenLog (enterLog rt ad d) d.getClassPossibleInferiors
      (d.classPermissionableAttributesMap, loaded) objClass inferior ↔
      ReachablePast ad d objClass inferior := by
  have hstep : DepthFirst.Step seenLog (enterLog rt ad d) d.getClassPossibleInferiors
      (d.classPermissionableAttributesMap, loaded) = fun objClass inferior =>
        Leads ad d objClass inferior ∧ d.isPermissionable inferior = false := by
    funext objClass inferior
    rw [DepthFirst.Step, isSome_enterLog, Leads, and_assoc]
    rfl
  rw [DepthFirst.Reaches, isSome_enterLog, hstep, ReachablePast]

/-- What is listed is in the table, so that it is not entered again. -/
structure ListsSeen (s : QHash String (List String) × List String) : Prop where
  nodup : s.2.Nodup
  seen : ∀ c ∈ s.2, seenLog s c = true

theorem ListsSeen.enter {s : QHash String (List String) × List String} {objClass : String}
    {f : QHash String (List String) × List String → QHash String (List String) × List String}
    (hs : ListsSeen s) (hf : enterLog rt ad d objClass = some f) (hc : objClass ∉ s.2) :
    ListsSeen (f s) := by
  have hseen := marks_enterLog objClass f hf s
  obtain ⟨object, -, rfl⟩ := Option.map_eq_some_iff.1 hf
  constructor
  · refine List.nodup_append.2 ⟨hs.nodup, List.nodup_singleton objClass, ?_⟩
    rintro a ha b hb rfl
    exact hc (List.mem_singleton.1 hb ▸ ha)
  · intro c hmem
    rw [hseen, Bool.or_eq_true, decide_eq_true_iff]
    exact (List.mem_append.1 hmem).elim (fun h => .inr (hs.seen c h))
      fun h => .inl (List.mem_singleton.1 h)

/-- Loading comes to an end. It loads the classes that are reachable past none in the table, each
    of them once, and adds them to the table. -/
theorem exists_loadPermissionableAttributesLog (rt : Runtime) (ad : AdConnection)
    (d : AdConfigPrivate) (objClass : String) :
    ∃ (n₀ : ℕ) (d' : AdConfigPrivate) (loaded : List String),
      (∀ n ≥ n₀, loadPermissionableAttributesLog rt ad n objClass (d, []) = some (d', loaded)) ∧
      loaded.Nodup ∧ (∀ c, c ∈ loaded ↔ ReachablePast ad d objClass c) ∧
      ∀ c, d'.isPermissionable c = true ↔ d.isPermissionable c = true ∨ c ∈ loaded := by
  let s := (d.classPermissionableAttributesMap, ([] : List String))
  let n₀ := d.classPossibleInferiorsMap.values.flatten.length + 1
  have hnodes : ∀ c, ∀ c' ∈ d.getClassPossibleInferiors c,
      c' ∈ d.classPossibleInferiorsMap.values.flatten := by
    intro c c' hc'
    rcases d.classPossibleInferiorsMap.value_mem c [] with hnil | hmem
    · rw [getClassPossibleInferiors, hnil] at hc'
      exact absurd hc' List.not_mem_nil
    · exact List.mem_flatten.2 ⟨_, hmem, hc'⟩
  obtain ⟨s', hwalk⟩ := DepthFirst.exists_walk (s := s) (a := objClass) (n := n₀)
    (@marks_enterLog rt ad d) hnodes (Nat.lt_succ_of_le (List.length_filter_le _ _))
  obtain ⟨order, hs', horder⟩ := DepthFirst.walk_spec marks_enterLog hwalk
  have henter : ∀ c ∈ order, (enterLog rt ad d c).isSome = true := fun c hc =>
    (horder.reached c hc).isSome
  have hlist : s'.2 = order := by rw [hs', enterAll_enterLog henter]; rfl
  have hlists : ListsSeen s' := DepthFirst.walk_invariant (I := ListsSeen) (P := fun s c => c ∉ s.2)
    (fun s c hs hc hmem => absurd (hs.seen c hmem) (by rw [hc]; exact Bool.false_ne_true))
    (fun s c f hf hs hc => hs.enter hf hc) hwalk
    ⟨List.nodup_nil, fun c hc => absurd hc List.not_mem_nil⟩ List.not_mem_nil
  refine ⟨n₀, (d.atLog s').1, order, fun n hn => ?_, hlist ▸ hlists.nodup, fun c => ?_, fun c => ?_⟩
  · have heq := @loadPermissionableAttributesLog_eq rt ad d n objClass s
    rw [DepthFirst.walk_mono hn hwalk] at heq
    exact heq.trans (by rw [Option.map_some, atLog, hlist])
  · rw [horder.mem_iff]
    exact reaches_iff
  · have hseen := DepthFirst.seen_enterAll (s := s) (b := c) marks_enterLog henter
    rw [← hs', Bool.eq_iff_iff, Bool.or_eq_true, decide_eq_true_iff] at hseen
    exact hseen.trans or_comm

/-! ## The reachable classes -/

/-- The table has the reachable classes, and each of them that it has not had before is loaded
    once. -/
structure LoadsReachable (ad : AdConnection) (d : AdConfigPrivate) (objClass : String)
    (d' : AdConfigPrivate) (loaded : List String) : Prop where
  isPermissionable : ∀ c, d'.isPermissionable c = true ↔ Reachable ad d objClass c
  nodup : loaded.Nodup
  count : ∀ c, Reachable ad d objClass c → d.isPermissionable c = false → loaded.count c = 1

/-- The classes that the table has before are reachable, and do not hide others. -/
def KeepsReachable (ad : AdConnection) (d : AdConfigPrivate) (objClass : String) : Prop :=
  (∀ c, d.isPermissionable c = true → Reachable ad d objClass c) ∧
    ∀ c, Reachable ad d objClass c → d.isPermissionable c = true ∨ ReachablePast ad d objClass c

/-- A table without classes keeps none. -/
theorem keepsReachable_of_empty {objClass : String}
    (h : d.classPermissionableAttributesMap = []) : KeepsReachable ad d objClass := by
  have hnone : ∀ c, d.isPermissionable c = false := fun c => by
    rw [AdConfigPrivate.isPermissionable, h]
    rfl
  refine ⟨fun c hc => absurd hc (by rw [hnone]; exact Bool.false_ne_true), fun c hc => .inr ?_⟩
  exact ⟨hc.1, Relation.ReflTransGen.mono (fun a b hab => ⟨hab, hnone b⟩) _ _ hc.2⟩

theorem ReachablePast.reachable {objClass inferior : String}
    (h : ReachablePast ad d objClass inferior) : Reachable ad d objClass inferior :=
  ⟨h.1, Relation.ReflTransGen.mono (fun _ _ hab => hab.1) _ _ h.2⟩

/-- Loading comes to an end, and the table has then the reachable classes just when the classes
    it had before are among them and hide none of them. -/
theorem loadsReachable_iff (rt : Runtime) (ad : AdConnection) (d : AdConfigPrivate)
    (objClass : String) :
    ∃ (n₀ : ℕ) (d' : AdConfigPrivate) (loaded : List String),
      (∀ n ≥ n₀, loadPermissionableAttributesLog rt ad n objClass (d, []) = some (d', loaded)) ∧
      (LoadsReachable ad d objClass d' loaded ↔ KeepsReachable ad d objClass) := by
  obtain ⟨n₀, d', loaded, hload, hnodup, hloaded, htable⟩ :=
    exists_loadPermissionableAttributesLog rt ad d objClass
  refine ⟨n₀, d', loaded, hload, fun h => ⟨fun c hc => ?_, fun c hc => ?_⟩, fun h => ?_⟩
  · exact (h.isPermissionable c).1 ((htable c).2 (.inl hc))
  · rw [← hloaded, ← htable]
    exact (h.isPermissionable c).2 hc
  · constructor
    · intro c
      rw [htable, hloaded]
      exact ⟨fun hc => hc.elim (h.1 c) ReachablePast.reachable, h.2 c⟩
    · exact hnodup
    · intro c hc hnot
      refine List.count_eq_one_of_mem hnodup ((hloaded c).2 ((h.2 c hc).resolve_left ?_))
      rw [hnot]
      exact Bool.false_ne_true

/-- A directory in which every class has an object. -/
def schemaDirectory : AdConnection where
  domain := "alt"
  clientUser := "user"
  results _ := [("CN=Class,CN=Schema", ⟨"CN=Class,CN=Schema", []⟩)]

/-- A configuration that was loaded before organizational units could have printers. -/
def extendedConfiguration : AdConfigPrivate :=
  { new with
    classPossibleInferiorsMap :=
      [("domainDNS", ["organizationalUnit"]), ("organizationalUnit", ["printQueue"])]
    classPermissionableAttributesMap := [("domainDNS", []), ("organizationalUnit", [])] }

/-- A class that was loaded before hides one that is reachable only now. -/
theorem not_loadsReachable_extendedConfiguration :
    ¬∀ (rt : Runtime) (ad : AdConnection) (d : AdConfigPrivate) (objClass : String),
      ∃ (n₀ : ℕ) (d' : AdConfigPrivate) (loaded : List String),
        (∀ n ≥ n₀, loadPermissionableAttributesLog rt ad n objClass (d, []) = some (d', loaded)) ∧
        LoadsReachable ad d objClass d' loaded := by
  intro h
  obtain ⟨n₀, d', loaded, hload, hreachable⟩ :=
    h zeroRuntime schemaDirectory extendedConfiguration "domainDNS"
  -- No other class is entered, so that a single level is enough.
  have hwalk : ∀ n, loadPermissionableAttributesLog zeroRuntime schemaDirectory (n + 1) "domainDNS"
      (extendedConfiguration, []) = some ({ extendedConfiguration with
        classPermissionableAttributesMap :=
          [("domainDNS", []), ("organizationalUnit", [])] }, ["domainDNS"]) := fun n => rfl
  have hd' := (hwalk n₀).symm.trans (hload (n₀ + 1) (Nat.le_succ n₀))
  rw [Option.some.injEq, Prod.mk.injEq] at hd'
  have hleads : Relation.ReflTransGen (Leads schemaDirectory extendedConfiguration) "domainDNS"
      "printQueue" :=
    .tail (.single ⟨by decide, List.cons_ne_nil _ _⟩) (b := "organizationalUnit")
      ⟨by decide, List.cons_ne_nil _ _⟩
  have hprinter := (hreachable.isPermissionable "printQueue").2 ⟨List.cons_ne_nil _ _, hleads⟩
  rw [← hd'.1] at hprinter
  exact absurd hprinter (by decide)

end AdConfigPrivate

end Admc
