import Admc.Interface.Writes
import Admc.Properties.LoadedEdits
import Admc.Properties.MultiAccountOptions

/-!
# Changing the suffix of user names

When several users are selected, their user names get the suffix that is chosen: for each user the
object is read, and the part of the name that was read before its last at sign is written with the
new suffix. What could not be read, and a name that is not set, count as an empty name, with which
the suffix alone is written.

* `UpnMultiEdit.keepsLogonName_iff`: a user keeps the part before the suffix exactly if the name is
  read;
* `UpnEdit.writesBack_iff`: the names that the edit of a single user writes back as they are;
* `upnMultiEdit_iff`: both, with all users of a selection, one after the other.
-/

namespace Admc

/-! ## The parts of a name -/

/-- The part of a name before its last at sign, or all of it if there is none. -/
def beforeLastAt (upn : QString) : QString :=
  if '@' ∈ upn then (upn.reverse.dropWhile (· ≠ '@')).tail.reverse else upn

section
variable {upn before after : QString}

/-- A name with an at sign is cut at the last one. -/
theorem exists_lastAt (h : '@' ∈ upn) :
    ∃ before after, upn = before ++ '@' :: after ∧ '@' ∉ after := by
  obtain ⟨after, before, hreverse, hafter⟩ := List.eq_append_cons_of_mem (List.mem_reverse.2 h)
  refine ⟨before.reverse, after.reverse, ?_, fun hmem => hafter (List.mem_reverse.1 hmem)⟩
  rw [← List.reverse_reverse upn, hreverse, List.reverse_append, List.reverse_cons,
    List.append_assoc, List.singleton_append]

theorem beforeLastAt_append (h : '@' ∉ after) : beforeLastAt (before ++ '@' :: after) = before := by
  have hall : ∀ c ∈ after.reverse, decide (c ≠ '@') = true :=
    fun c hc => decide_eq_true fun heq => h (heq ▸ List.mem_reverse.1 hc)
  rw [beforeLastAt, if_pos (List.mem_append_right _ List.mem_cons_self), List.reverse_append,
    List.reverse_cons, List.append_assoc, List.dropWhile_append_of_pos hall]
  exact List.reverse_reverse before

theorem lastIndexOf_append (h : '@' ∉ after) :
    lastIndexOf (before ++ '@' :: after) '@' = before.length := by
  have hreverse : '@' ∉ after.reverse := fun hmem => h (List.mem_reverse.1 hmem)
  rw [lastIndexOf, if_pos (List.mem_append_right _ List.mem_cons_self), List.reverse_append,
    List.reverse_cons, List.append_assoc, List.singleton_append,
    List.idxOf_append_of_notMem hreverse, List.idxOf_cons_self, List.length_reverse,
    List.length_append, List.length_cons]
  omega

variable {object : AdObject} {rt : Runtime}

theorem getUpnPrefix_eq :
    object.getUpnPrefix rt = beforeLastAt (object.getString rt "userPrincipalName").toList := by
  rw [AdObject.getUpnPrefix, AdObject.getSplitUpn]
  generalize (object.getString rt "userPrincipalName").toList = upn
  by_cases hat : '@' ∈ upn
  · obtain ⟨before, after, rfl, hafter⟩ := exists_lastAt hat
    dsimp only
    rw [beforeLastAt_append hafter, lastIndexOf_append hafter, mid,
      if_neg (Int.not_lt.2 (Int.natCast_nonneg _)), Int.zero_add, Int.toNat_natCast]
    exact List.take_left
  · -- the index is negative, which stands for the whole text
    dsimp only
    rw [beforeLastAt, if_neg hat, lastIndexOf, if_neg hat, mid, if_pos (by decide)]
    rfl

/-- A name with an at sign is put together again. -/
theorem getUpnPrefix_append_suffix (h : '@' ∈ (object.getString rt "userPrincipalName").toList) :
    object.getUpnPrefix rt ++ '@' :: object.getUpnSuffix rt =
      (object.getString rt "userPrincipalName").toList := by
  rw [getUpnPrefix_eq, AdObject.getUpnSuffix, AdObject.getSplitUpn]
  obtain ⟨before, after, hupn, hafter⟩ := exists_lastAt h
  rw [hupn]
  dsimp only
  rw [beforeLastAt_append hafter, lastIndexOf_append hafter, mid, if_pos (by decide)]
  have hdrop : (before ++ '@' :: after).drop ((before.length : ℤ) + 1).toNat = after := by
    have hlength : ((before.length : ℤ) + 1).toNat = (before ++ ['@']).length := by
      rw [List.length_append]
      rfl
    rw [hlength, List.append_cons before '@' after, List.drop_left]
  rw [hdrop]

/-- One without is taken for the first part and for the suffix. -/
theorem getUpnSuffix_of_not_mem (h : '@' ∉ (object.getString rt "userPrincipalName").toList) :
    object.getUpnSuffix rt = (object.getString rt "userPrincipalName").toList := by
  rw [AdObject.getUpnSuffix, AdObject.getSplitUpn]
  dsimp only
  rw [lastIndexOf, if_neg h, mid, if_pos (by decide)]
  rfl

end

/-! ## Several users -/

/-- The states in which a selection is gone through, each with its user. -/
def targetStates {σ : Type} (apply : Applies σ) : σ → List String → List (σ × String)
  | _, [] => []
  | s, target :: targetList => (s, target) :: targetStates apply (apply s target).1 targetList

/-- `UpnMultiEdit`. -/
structure UpnMultiEdit where
  upnSuffixCombo : QComboBox Unit

namespace UpnMultiEdit

section
variable {σ : Type} (rt : Runtime) (d : UpnMultiEdit)

/-- `UpnMultiEdit::apply`. -/
def apply (ldap : Ldap σ) : Applies σ := fun s target =>
  let (s, currentObject) := adSearchObject ldap s target [] false
  let currentPrefix := currentObject.getUpnPrefix rt
  let newSuffix := d.upnSuffixCombo.currentText
  let newValue := currentPrefix ++ '@' :: newSuffix
  attributeReplaceString ldap s target "userPrincipalName" (.ofList newValue)

variable (dir : OwnDirectory σ)

/-- The name that is stored for a user, if there is one. -/
def storedUpn (s : σ) (target : String) : QString :=
  (rt.fromUtf8 ((dir.values s target "userPrincipalName").headD [])).toList

/-- A name is stored for the user, and the search gives it. -/
def ReadsUpn (s : σ) (target : String) : Prop :=
  (adSearchObject dir.toLdap s target [] false).2.getValues "userPrincipalName" ≠ []

/-- What is written for a user. -/
def writes (s : σ) (target : String) : List WriteRequest :=
  (d.apply rt dir.toLdap.recorded (s, []) target).1.2

/-- The user keeps the part of the name before its last at sign, and nothing is written if no name
    is stored or read. -/
structure KeepsLogonName (s : σ) (target : String) : Prop where
  written : ∀ write ∈ d.writes rt dir s target, write =
    ⟨target, "userPrincipalName", [toUtf8 (.ofList
      (beforeLastAt (storedUpn rt dir s target) ++ '@' :: d.upnSuffixCombo.currentText))]⟩
  unread : dir.values s target "userPrincipalName" = [] ∨ ¬ReadsUpn dir s target →
    d.writes rt dir s target = []

/-- What is written by `PropertiesMultiDialog::apply` to the users of a selection. -/
def selectionWrites (s : σ) (targetList : List String) : List WriteRequest :=
  let apply := fun s target => Except.ok (d.apply rt dir.toLdap.recorded s target)
  match applyTargets apply (s, []) targetList with
  | .ok (s, _) => s.2
  | .error _ => []

/-- All users keep the first part of their names, and no two of them get the suffix alone. -/
structure SelectionKeepsNames (s : σ) (targetList : List String) : Prop where
  keeps : ∀ user ∈ targetStates (d.apply rt dir.toLdap) s targetList,
    d.KeepsLogonName rt dir user.1 user.2
  suffix : ((d.selectionWrites rt dir s targetList).countP fun write =>
    write.values = [toUtf8 (.ofList ('@' :: d.upnSuffixCombo.currentText))]) ≤ 1

end

section
variable {σ : Type} {rt : Runtime} {d : UpnMultiEdit} {ldap : Ldap σ} {dir : OwnDirectory σ} {s : σ}
  {target : String} {targetList : List String}

/-- What is written for a user: the part that was read, with the suffix. -/
def writeRequest (rt : Runtime) (d : UpnMultiEdit) (ldap : Ldap σ) (s : σ) (target : String) :
    WriteRequest :=
  ⟨target, "userPrincipalName", [toUtf8 (.ofList
    (((adSearchObject ldap s target [] false).2).getUpnPrefix rt ++
      '@' :: d.upnSuffixCombo.currentText))]⟩

/-- Something is written in any case. -/
theorem apply_recorded (hrt : rt.DecodesUtf8) {requests : List WriteRequest} :
    d.apply rt ldap.recorded (s, requests) target =
      (((d.apply rt ldap s target).1, requests ++ [d.writeRequest rt ldap s target]),
        (d.apply rt ldap s target).2) := by
  have hne : ∀ text : QString, String.ofList (text ++ '@' :: d.upnSuffixCombo.currentText) ≠ "" := by
    intro text h
    have hlist := congrArg String.toList h
    rw [String.toList_ofList] at hlist
    exact absurd (List.append_eq_nil_iff.1 hlist).2 (List.cons_ne_nil _ _)
  rw [apply, adSearchObject_recorded]
  exact attributeReplaceString_recorded hrt (hne _)

theorem writes_eq (hrt : rt.DecodesUtf8) :
    d.writes rt dir s target = [d.writeRequest rt dir.toLdap s target] := by
  rw [writes, apply_recorded hrt]
  rfl

/-- A name that is read is the one that is stored. -/
theorem ReadsUpn.getUpnPrefix_eq (h : ReadsUpn dir s target) :
    ((adSearchObject dir.toLdap s target [] false).2).getUpnPrefix rt =
      beforeLastAt (storedUpn rt dir s target) := by
  have hstored := dir.getValues_read.resolve_right h
  have hstring : ((adSearchObject dir.toLdap s target [] false).2).getString rt
      "userPrincipalName" =
        rt.fromUtf8 ((dir.values s target "userPrincipalName").headD []) := by
    rw [AdObject.getString, if_neg (by decide), AdObject.getStrings, hstored]
    obtain ⟨value, values, hvalues⟩ :=
      List.exists_cons_of_ne_nil (fun hnil => h (hstored.trans hnil))
    rw [hvalues]
    rfl
  rw [Admc.getUpnPrefix_eq, hstring]
  rfl

/-- A user keeps the first part of the name exactly if the name is read. -/
theorem keepsLogonName_iff (hrt : rt.DecodesUtf8) :
    d.KeepsLogonName rt dir s target ↔ ReadsUpn dir s target := by
  constructor
  · intro h
    by_contra hunread
    have hnothing := h.unread (.inr hunread)
    rw [writes_eq hrt] at hnothing
    exact absurd hnothing (List.cons_ne_nil _ _)
  · intro hread
    constructor
    · intro write hwrite
      rw [writes_eq hrt, List.mem_singleton] at hwrite
      rw [hwrite, writeRequest, hread.getUpnPrefix_eq]
    · rintro (habsent | hunread)
      · -- nothing is read of a name that is not stored
        have hvalues := dir.getValues_read.resolve_right hread
        exact absurd (hvalues.trans habsent) hread
      · exact absurd hread hunread

/-- The writes of a selection are those of its users, in the states that the users before
    leave. -/
theorem selectionWrites_eq (hrt : rt.DecodesUtf8) :
    d.selectionWrites rt dir s targetList =
      (targetStates (d.apply rt dir.toLdap) s targetList).map fun (s, target) =>
        d.writeRequest rt dir.toLdap s target := by
  have hrun : ∀ s requests, ∃ s' success,
      applyTargets (fun s target => Except.ok (d.apply rt dir.toLdap.recorded s target))
        (s, requests) targetList =
        .ok ((s', requests ++ (targetStates (d.apply rt dir.toLdap) s targetList).map
          fun (s, target) => d.writeRequest rt dir.toLdap s target), success) := by
    induction targetList with
    | nil =>
      intro s requests
      refine ⟨s, true, ?_⟩
      rw [applyTargets, targetStates, List.map_nil, List.append_nil]
      rfl
    | cons target targetList ih =>
      intro s requests
      obtain ⟨s', success, hrest⟩ :=
        ih (d.apply rt dir.toLdap s target).1 (requests ++ [d.writeRequest rt dir.toLdap s target])
      refine ⟨s', (d.apply rt dir.toLdap s target).2 && success, ?_⟩
      rw [applyTargets, apply_recorded hrt, Except.ok_bind]
      dsimp only
      rw [hrest, Except.ok_bind, targetStates, List.map_cons, List.append_assoc]
      rfl
  obtain ⟨s', success, h⟩ := hrun s []
  rw [selectionWrites]
  dsimp only
  rw [h]
  rfl

/-- All users of a selection keep the first parts of their names exactly if all names are read, and
    at most one of these has no first part. -/
theorem selectionKeepsNames_iff (hrt : rt.DecodesUtf8) :
    d.SelectionKeepsNames rt dir s targetList ↔
      (∀ user ∈ targetStates (d.apply rt dir.toLdap) s targetList,
        ReadsUpn dir user.1 user.2) ∧
      (targetStates (d.apply rt dir.toLdap) s targetList).countP (fun user =>
        beforeLastAt (storedUpn rt dir user.1 user.2) = []) ≤ 1 := by
  have hkeeps : (∀ user ∈ targetStates (d.apply rt dir.toLdap) s targetList,
      d.KeepsLogonName rt dir user.1 user.2) ↔
        ∀ user ∈ targetStates (d.apply rt dir.toLdap) s targetList, ReadsUpn dir user.1 user.2 :=
    forall₂_congr fun _ _ => keepsLogonName_iff hrt
  have hcount (hread : ∀ user ∈ targetStates (d.apply rt dir.toLdap) s targetList,
      ReadsUpn dir user.1 user.2) : (d.selectionWrites rt dir s targetList).countP (fun write =>
        write.values = [toUtf8 (.ofList ('@' :: d.upnSuffixCombo.currentText))]) =
      (targetStates (d.apply rt dir.toLdap) s targetList).countP (fun user =>
        beforeLastAt (storedUpn rt dir user.1 user.2) = []) := by
    rw [selectionWrites_eq hrt, List.countP_map]
    refine List.countP_congr fun user huser => ?_
    simp only [Function.comp_apply, decide_eq_true_eq, writeRequest,
      (hread user huser).getUpnPrefix_eq]
    constructor
    · intro h
      have htext := toUtf8_ofList_inj hrt (List.singleton_inj.1 h)
      exact List.append_left_eq_self.1 htext
    · intro h
      rw [h]
      rfl
  constructor
  · rintro ⟨hall, hsuffix⟩
    have hread := hkeeps.1 hall
    exact ⟨hread, hcount hread ▸ hsuffix⟩
  · rintro ⟨hread, hsuffix⟩
    exact ⟨hkeeps.2 hread, hcount hread ▸ hsuffix⟩

end

end UpnMultiEdit

/-! ## One user -/

/-- The program, with a record of what is written. -/
def EditContext.recorded {σ : Type} (ctx : EditContext σ) : EditContext (σ × List WriteRequest) :=
  { ctx with ldap := ctx.ldap.recorded }

namespace UpnEdit

section
variable {σ : Type} (ctx : EditContext σ)

/-- What is written when an edit is loaded with an object, and applied without edits. -/
def loadedWrites (d : UpnEdit) (loading : Loading) (s : σ) (dn : String) : List WriteRequest :=
  ((d.load ctx.recorded loading).apply ctx.recorded (s, []) dn).1.2

/-- The name of the object is written back as it is. -/
def WritesBack (d : UpnEdit) (loading : Loading) (s : σ) (dn : String) : Prop :=
  d.loadedWrites ctx loading s dn =
    [⟨dn, "userPrincipalName", [toUtf8 (loading.object.getString ctx.g.rt "userPrincipalName")]⟩]

variable {ctx} {ad : AdConnection} {d : UpnEdit}

/-- After any history, what is written is the first part of the name, cut and trimmed, with the
    suffix. -/
theorem loadedWrites_eq (hrt : ctx.g.rt.DecodesUtf8) (hd : (form ctx.recorded ad).Reached d)
    (loading : Loading) (s : σ) (dn : String) :
    d.loadedWrites ctx loading s dn = [⟨dn, "userPrincipalName", [toUtf8 (.ofList
      (trimmed (cutText (prefixRangeUpper ctx (loading.object.getUpnSuffix ctx.g.rt))
        (loading.object.getUpnPrefix ctx.g.rt)) ++
          '@' :: loading.object.getUpnSuffix ctx.g.rt))]⟩] := by
  obtain ⟨added, hadded⟩ := hd.invariant
    (fun d : UpnEdit => ∃ added, HasAdded ctx.recorded (initialSuffixes ctx.recorded ad) d added)
    ⟨[], hasAdded_new⟩ (fun loading _ ⟨_, h⟩ => h.load loading) fun e _ ⟨_, h⟩ => ⟨_, h.edit e⟩
  obtain ⟨hsuffix, hprefix⟩ := hadded.shown_load loading
  have hne : String.ofList (d.load ctx.recorded loading).getNewValue ≠ "" := by
    intro h
    have hlist := congrArg String.toList h
    rw [String.toList_ofList, getNewValue] at hlist
    exact absurd (List.append_eq_nil_iff.1 hlist).2 (List.cons_ne_nil _ _)
  rw [loadedWrites, apply]
  have hwrite := @attributeReplaceString_recorded _ ctx.ldap s [] dn "userPrincipalName" _ _ hrt hne
  refine (congrArg (fun out : (σ × List WriteRequest) × Bool => out.1.2) hwrite).trans ?_
  rw [List.nil_append, getNewValue, hsuffix, hprefix]
  rfl

/-- A name is written back exactly if it has an at sign, with no blanks at the ends of what comes
    before the last one, and this is not too long. -/
theorem writesBack_iff (hrt : ctx.g.rt.DecodesUtf8) (hd : (form ctx.recorded ad).Reached d)
    (loading : Loading) (s : σ) (dn : String) :
    d.WritesBack ctx loading s dn ↔
      '@' ∈ (loading.object.getString ctx.g.rt "userPrincipalName").toList ∧
      trimmed (loading.object.getUpnPrefix ctx.g.rt) = loading.object.getUpnPrefix ctx.g.rt ∧
      (prefixRangeUpper ctx (loading.object.getUpnSuffix ctx.g.rt) < 0 ∨
        utf16Length (loading.object.getUpnPrefix ctx.g.rt) ≤
          prefixRangeUpper ctx (loading.object.getUpnSuffix ctx.g.rt)) := by
  rw [WritesBack, loadedWrites_eq hrt hd, ← cutText_eq_iff, ← trimmed_cutText_eq_iff,
    ← String.ofList_toList (s := loading.object.getString ctx.g.rt "userPrincipalName")]
  have htext : ∀ text text' : QString,
      [(⟨dn, "userPrincipalName", [toUtf8 (.ofList text)]⟩ : WriteRequest)] =
        [⟨dn, "userPrincipalName", [toUtf8 (.ofList text')]⟩] ↔ text = text' := by
    intro text text'
    constructor
    · intro h
      have hvalues := congrArg WriteRequest.values (List.singleton_inj.1 h)
      exact toUtf8_ofList_inj hrt (List.singleton_inj.1 hvalues)
    · rintro rfl
      rfl
  rw [htext, String.toList_ofList]
  by_cases hat : '@' ∈ (loading.object.getString ctx.g.rt "userPrincipalName").toList
  · rw [and_iff_right hat, ← getUpnPrefix_append_suffix hat, List.append_cancel_right_eq]
  · -- the whole name is the suffix, and what is written is longer
    refine iff_of_false (fun h => ?_) fun h => hat h.1
    rw [getUpnSuffix_of_not_mem hat] at h
    have hlength := congrArg List.length h
    rw [List.length_append, List.length_cons] at hlength
    omega

end

end UpnEdit

/-- The names of users, in a selection or alone: when a user keeps the part before the suffix, when
    all users of a selection do and no two of them get the suffix alone, and when a name is written
    back as it is. -/
theorem upnMultiEdit_iff {σ : Type} (ctx : EditContext σ) (dir : OwnDirectory σ) (d : UpnMultiEdit)
    (hrt : ctx.g.rt.DecodesUtf8) :
    (∀ s target, d.KeepsLogonName ctx.g.rt dir s target ↔ UpnMultiEdit.ReadsUpn dir s target) ∧
    (∀ s targetList, d.SelectionKeepsNames ctx.g.rt dir s targetList ↔
      (∀ user ∈ targetStates (d.apply ctx.g.rt dir.toLdap) s targetList,
        UpnMultiEdit.ReadsUpn dir user.1 user.2) ∧
      (targetStates (d.apply ctx.g.rt dir.toLdap) s targetList).countP (fun user =>
        beforeLastAt (UpnMultiEdit.storedUpn ctx.g.rt dir user.1 user.2) = []) ≤ 1) ∧
    ∀ ad (edit : UpnEdit), (UpnEdit.form ctx.recorded ad).Reached edit → ∀ loading s dn,
      (edit.WritesBack ctx loading s dn ↔
        '@' ∈ (loading.object.getString ctx.g.rt "userPrincipalName").toList ∧
        trimmed (loading.object.getUpnPrefix ctx.g.rt) = loading.object.getUpnPrefix ctx.g.rt ∧
        (UpnEdit.prefixRangeUpper ctx (loading.object.getUpnSuffix ctx.g.rt) < 0 ∨
          utf16Length (loading.object.getUpnPrefix ctx.g.rt) ≤
            UpnEdit.prefixRangeUpper ctx (loading.object.getUpnSuffix ctx.g.rt))) :=
  ⟨fun _ _ => UpnMultiEdit.keepsLogonName_iff hrt,
    fun _ _ => UpnMultiEdit.selectionKeepsNames_iff hrt,
    fun _ _ hedit loading s dn => UpnEdit.writesBack_iff hrt hedit loading s dn⟩

/-- The edit for several users, with a suffix that is chosen. -/
def sampleUpnMultiEdit : UpnMultiEdit := ⟨⟨[("b.org".toList, ())], 0⟩⟩

/-- The name of a user, as it is stored. -/
def sampleUpn : QHash String (List QByteArray) :=
  [("userPrincipalName", [toUtf8 "ivan@a.org"])]

/-- A name that is read gets another suffix. -/
theorem upnMultiEdit_iff_read :
    sampleUpnMultiEdit.KeepsLogonName zeroRuntime objectDirectory sampleUpn "CN=ivan" :=
  ((upnMultiEdit_iff { sampleEditContext with ldap := objectDirectory.toLdap } objectDirectory
    sampleUpnMultiEdit decodesUtf8_zeroRuntime).1 sampleUpn "CN=ivan").2 (by
      rw [UpnMultiEdit.ReadsUpn, searchObject_objectDirectory]
      exact List.cons_ne_nil _ _)

/-- Two users whose objects cannot be read get the suffix for a name. -/
theorem not_upnMultiEdit :
    sampleUpnMultiEdit.selectionWrites zeroRuntime unreadableDirectory sampleUpn
        ["CN=ivan", "CN=olga"] =
      [⟨"CN=ivan", "userPrincipalName", [toUtf8 "@b.org"]⟩,
        ⟨"CN=olga", "userPrincipalName", [toUtf8 "@b.org"]⟩] ∧
    ¬∀ (dir : OwnDirectory (QHash String (List QByteArray))) (d : UpnMultiEdit)
      (s : QHash String (List QByteArray)) (target : String),
        d.KeepsLogonName zeroRuntime dir s target := by
  constructor
  · rw [UpnMultiEdit.selectionWrites_eq decodesUtf8_zeroRuntime]
    rfl
  · intro hall
    have hread := (UpnMultiEdit.keepsLogonName_iff decodesUtf8_zeroRuntime).1
      (hall unreadableDirectory sampleUpnMultiEdit sampleUpn "CN=ivan")
    exact hread rfl

end Admc
