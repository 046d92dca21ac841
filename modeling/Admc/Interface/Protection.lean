import Admc.Interface.Deletion
import Mathlib.Data.List.Induction

/-!
# Deletion of protected objects

A delete request without the tree delete control does not check on the server whether
an object is protected against deletion, so the client has to check it before.
`AdInterface::object_delete` checks one object, the target, after its first request,
which goes without the control if the server does not support it, and before it
deletes the objects of the subtree one by one.

`objectDelete_spares_iff`: it spares the protected objects, whatever the server does,
exactly when the first request is not such a request for a protected object, and the
check stops it if anything in the subtree is protected or has no readable descriptor.
-/

namespace Admc

/-! ## Requests of a deletion -/

/-- What a deletion asks the server for. -/
inductive DeletionRequest
  | search
  | delete (dn : String) (treeDelete : Bool)
  deriving DecidableEq

section
variable {σ : Type}

/-- The server, with the searches and deletions that it has been asked for. -/
def Ldap.tracked (ldap : Ldap σ) : Ldap (σ × List DeletionRequest) where
  search s request :=
    let answer := ldap.search s.1 request
    ((answer.1, s.2 ++ [.search]), answer.2)
  createSdControl s := ldap.createSdControl s.1
  createTreeDeleteControl s := ldap.createTreeDeleteControl s.1
  modifyReplace s dn attr values sdControl :=
    let answer := ldap.modifyReplace s.1 dn attr values sdControl
    ((answer.1, s.2), answer.2)
  delete s dn treeDelete :=
    let answer := ldap.delete s.1 dn treeDelete
    ((answer.1, s.2 ++ [.delete dn treeDelete]), answer.2)

variable {ldap : Ldap σ} {s : σ} {names : List String} {log : List DeletionRequest}

/-- The loop over the subtree asks for the deletion of some of its objects, without the
    control. -/
theorem deleteSubtree_tracked : ∃ s' sent b, sent <+: names ∧
    deleteSubtree ldap.tracked (s, log) names =
      ((s', log ++ sent.map fun dn => .delete dn false), b) := by
  induction names generalizing s log with
  | nil => exact ⟨s, [], true, List.prefix_rfl, by rw [List.map_nil, List.append_nil]; rfl⟩
  | cons name names ih =>
    rw [deleteSubtree]
    by_cases hresult : (ldap.delete s name false).2 = .success
    · obtain ⟨s', sent, b, hsent, hrun⟩ := @ih (ldap.delete s name false).1
        (log ++ [.delete name false])
      refine ⟨s', name :: sent, b, (List.prefix_cons_inj name).2 hsent, ?_⟩
      rw [List.map_cons, List.append_cons, ← hrun]
      exact if_neg (not_not.2 hresult)
    · refine ⟨_, [name], false, ?_, if_pos hresult⟩
      exact (List.prefix_cons_inj name).2 List.nil_prefix

/-- It asks for all of them, if each deletion succeeds. -/
theorem deleteSubtree_tracked_success {Q : σ → Prop}
    (hsuccess : ∀ s dn, Q s → (ldap.delete s dn false).2 = .success ∧ Q (ldap.delete s dn false).1)
    (hs : Q s) : ∃ s', deleteSubtree ldap.tracked (s, log) names =
      ((s', log ++ names.map fun dn => .delete dn false), true) := by
  induction names generalizing s log with
  | nil => exact ⟨s, by rw [List.map_nil, List.append_nil]; rfl⟩
  | cons name names ih =>
    obtain ⟨hresult, hnext⟩ := hsuccess s name hs
    obtain ⟨s', hrun⟩ := @ih _ (log ++ [.delete name false]) hnext
    refine ⟨s', ?_⟩
    rw [deleteSubtree, List.map_cons, List.append_cons, ← hrun]
    exact if_neg (not_not.2 hresult)

end

/-! ## Sparing protected objects -/

/-- A descriptor that protects its object against deletion. -/
def Protects (sd : SecurityDescriptor) : Prop :=
  isDeleteProtectedForTrustee sd sidWorld = .ok true

instance (sd : SecurityDescriptor) : Decidable (Protects sd) :=
  inferInstanceAs (Decidable (_ = _))

/-- The descriptor of an object in the results of a search, unless it could not be read. -/
def readDescriptor (ndr : Ndr) (results : QHash String AdObject) (dn : String) :
    Option SecurityDescriptor :=
  (results.value dn .empty).getSecurityDescriptor ndr

/-- The descriptors that have been read are those of the objects. -/
def ReadsTruly (ndr : Ndr) (descriptors : String → SecurityDescriptor)
    (results : QHash String AdObject) : Prop :=
  ∀ dn sd, readDescriptor ndr results dn = some sd → sd = descriptors dn

/-- Among the requests, one for the deletion of an object without the control is for an
    object that is not protected and, after the search, for one whose descriptor the search
    has given. -/
def SparesProtected (ndr : Ndr) (descriptors : String → SecurityDescriptor)
    (results : QHash String AdObject) (log : List DeletionRequest) : Prop :=
  ∀ before dn after, log = before ++ .delete dn false :: after →
    ¬Protects (descriptors dn) ∧
      (.search ∈ before → readDescriptor ndr results dn ≠ none)

/-- The search for the subtree in `object_delete`. -/
def subtreeRequest (dn : String) : SearchRequest :=
  ⟨dn, .all, "", ["distinguishedName", attributeSecurityDescriptor], false⟩

/-- The deletion of an object spares the protected ones, on every server that answers the
    search for the subtree in the given way. A request that is sent before a fault is also
    sent to a server that answers it with success, where the deletion returns. -/
def DeletionSpares (g : Globals) (ndr : Ndr) (descriptors : String → SecurityDescriptor)
    (dn : String) (answers : List PageAnswer) : Prop :=
  ∀ (σ : Type) (ldap : Ldap σ) (s : σ),
    (∀ s, (ldap.search s (subtreeRequest dn)).2 = answers) →
      ∀ s' log result, objectDelete g ldap.tracked ndr (s, []) dn = .ok ((s', log), result) →
        SparesProtected ndr descriptors (searchResults answers) log

section
variable {ndr : Ndr} {descriptors : String → SecurityDescriptor} {results : QHash String AdObject}
  {log requests : List DeletionRequest} {dn name : String} {treeDelete : Bool}

theorem sparesProtected_nil : SparesProtected ndr descriptors results [] :=
  fun before _ _ h => absurd h.symm (List.append_ne_nil_of_right_ne_nil before nofun)

/-- The requests are looked at one by one. -/
theorem sparesProtected_snoc {request : DeletionRequest} :
    SparesProtected ndr descriptors results (log ++ [request]) ↔
      SparesProtected ndr descriptors results log ∧
        ∀ dn, request = .delete dn false → ¬Protects (descriptors dn) ∧
          (.search ∈ log → readDescriptor ndr results dn ≠ none) := by
  constructor
  · intro h
    refine ⟨fun before dn after hlog => h before dn (after ++ [request]) ?_, fun dn hrequest => ?_⟩
    · rw [hlog, List.append_assoc]
      rfl
    · exact h log dn [] (hrequest ▸ rfl)
  · rintro ⟨hlog, hrequest⟩ before dn after heq
    obtain rfl | ⟨after, last, rfl⟩ := List.eq_nil_or_concat after
    · obtain ⟨rfl, hlast⟩ := List.append_inj' heq rfl
      exact hrequest dn (List.cons.inj hlast).1
    · rw [List.concat_eq_append, ← List.cons_append, ← List.append_assoc] at heq
      exact hlog before dn after (List.append_inj' heq rfl).1

theorem sparesProtected_search (h : SparesProtected ndr descriptors results log) :
    SparesProtected ndr descriptors results (log ++ [.search]) :=
  sparesProtected_snoc.2 ⟨h, nofun⟩

/-- Requests after the search. -/
theorem sparesProtected_append_delete {names : List String}
    (h : SparesProtected ndr descriptors results log)
    (hnames : ∀ name ∈ names, ¬Protects (descriptors name) ∧
      readDescriptor ndr results name ≠ none) :
    SparesProtected ndr descriptors results (log ++ names.map fun dn => .delete dn false) := by
  induction names using List.reverseRecOn with
  | nil => rwa [List.map_nil, List.append_nil]
  | append_singleton names name ih =>
    rw [List.map_append, ← List.append_assoc]
    refine sparesProtected_snoc.2 ⟨ih fun name hname => hnames name
      (List.mem_append_left _ hname), ?_⟩
    rintro dn ⟨rfl⟩
    obtain ⟨hunprotected, hread⟩ := hnames name (List.mem_append_right _ List.mem_cons_self)
    exact ⟨hunprotected, fun _ => hread⟩

end

/-! ## The deletion -/

/-- A server that answers the search for a subtree in one way. Of the deletions it rejects
    the first one, it says of the second one that there is something below the object, and
    all others succeed. -/
def stubbornLdap (answers : List PageAnswer) : Ldap ℕ where
  search s _ := (s, answers)
  createSdControl _ := .success
  createTreeDeleteControl _ := .success
  modifyReplace s _ _ _ _ := (s, .success)
  delete s _ _ :=
    (s + 1, if s = 0 then .failure else if s = 1 then .notAllowedOnNonleaf else .success)

section
variable {σ : Type} {g : Globals} {ndr : Ndr} {descriptors : String → SecurityDescriptor}
  {dn : String} {answers : List PageAnswer} {ldap : Ldap σ} {s : σ}

/-- The object that is checked is the one that the search has found, by the name as given. -/
theorem checkedObject_eq (hanswers : ∀ s, (ldap.search s (subtreeRequest dn)).2 = answers) :
    checkedObject g ldap s dn = (searchResults answers).value dn .empty := by
  have hresults : (adSearch ldap (ldap.delete s dn (g.adconfig.controlIsSupported
      ldapControlXTreeDelete)).1 dn .all "" ["distinguishedName", attributeSecurityDescriptor]
      false).2 = searchResults answers := congrArg searchResults (hanswers _)
  rw [checkedObject, hresults, QHash.touch]
  split_ifs with hkey
  · rfl
  · rw [QHash.value_insert, if_pos rfl, QHash.value_of_not_mem_keys (by simpa using hkey)]

/-- The protection of an object whose descriptor has been read. -/
theorem isProtected_eq_ok {object : AdObject} {isProtected : Bool}
    (h : adSecurityGetProtectedAgainstDeletion ndr object = .ok isProtected) :
    ∃ sd, object.getSecurityDescriptor ndr = some sd ∧ (Protects sd ↔ isProtected = true) := by
  rw [adSecurityGetProtectedAgainstDeletion] at h
  cases hsd : object.getSecurityDescriptor ndr with
  | none =>
    rw [hsd] at h
    cases h
  | some sd =>
    rw [hsd, deref_some, Except.ok_bind] at h
    refine ⟨sd, rfl, ?_⟩
    rw [Protects, h, Except.ok.injEq]

/-- The objects that are deleted are those that the search has found, if it has found the
    target. -/
theorem mem_deletionOrder_touch (hpull : ndr.pull [] = none) {results : QHash String AdObject}
    (hread : readDescriptor ndr results dn ≠ none) {name : String} :
    name ∈ deletionOrder (results.touch dn) ↔ name ∈ results.keys := by
  have hkey : dn ∈ results.keys := by
    by_contra hnot
    refine hread ?_
    rw [readDescriptor, QHash.value_of_not_mem_keys hnot]
    exact hpull
  have htouch : results.touch dn = results := if_pos (by simpa using hkey)
  rw [htouch]
  exact (List.perm_insertionSort _ _).mem_iff

/-- The requests up to the check are those for the target and for the search. -/
theorem spares_before_check (hfirst : g.adconfig.controlIsSupported ldapControlXTreeDelete = true ∨
    ¬Protects (descriptors dn)) {results : QHash String AdObject} :
    SparesProtected ndr descriptors results
      [.delete dn (g.adconfig.controlIsSupported ldapControlXTreeDelete)] := by
  refine (@sparesProtected_snoc _ _ _ [] _).2 ⟨sparesProtected_nil, fun name hname => ?_⟩
  obtain ⟨rfl, hcontrol⟩ := DeletionRequest.delete.inj hname
  refine ⟨hfirst.resolve_left ?_, nofun⟩
  rw [hcontrol]
  exact Bool.false_ne_true

/-- On every server, if the first request may be sent and the check stops the others. -/
theorem spares_of_condition (hpull : ndr.pull [] = none)
    (hreads : ReadsTruly ndr descriptors (searchResults answers))
    (hfirst : g.adconfig.controlIsSupported ldapControlXTreeDelete = true ∨
      ¬Protects (descriptors dn))
    (hrest : adSecurityGetProtectedAgainstDeletion ndr ((searchResults answers).value dn .empty) =
      .ok false → ∀ name ∈ (searchResults answers).keys, ¬Protects (descriptors name) ∧
        readDescriptor ndr (searchResults answers) name ≠ none) :
    DeletionSpares g ndr descriptors dn answers := by
  intro σ ldap s hanswers s' log result hrun
  by_cases hcontrol : ldap.createTreeDeleteControl s = .success
  swap
  · rw [@objectDelete_of_no_control _ ldap.tracked g ndr (s, []) dn hcontrol] at hrun
    obtain ⟨⟨rfl, rfl⟩, rfl⟩ := hrun
    exact sparesProtected_nil
  by_cases hdelete : (ldap.delete s dn (g.adconfig.controlIsSupported
      ldapControlXTreeDelete)).2 = .success
  · rw [@objectDelete_of_first _ ldap.tracked g ndr (s, []) dn hcontrol hdelete] at hrun
    obtain ⟨⟨rfl, rfl⟩, rfl⟩ := hrun
    exact spares_before_check hfirst
  have hreaches : ReachesProtectionCheck g ldap.tracked (s, []) dn := ⟨hcontrol, hdelete⟩
  have hchecked : checkedObject g ldap.tracked (s, []) dn =
      (searchResults answers).value dn .empty := checkedObject_eq fun s => hanswers s.1
  have hsearched : SparesProtected ndr descriptors (searchResults answers)
      ([.delete dn (g.adconfig.controlIsSupported ldapControlXTreeDelete)] ++ [.search]) :=
    sparesProtected_search (spares_before_check hfirst)
  cases hprotected : adSecurityGetProtectedAgainstDeletion ndr
      ((searchResults answers).value dn .empty) with
  | error fault =>
    rw [objectDelete_of_fault hreaches (hchecked ▸ hprotected)] at hrun
    exact nomatch hrun
  | ok isProtected =>
    cases isProtected with
    | true =>
      rw [objectDelete_of_protected hreaches (hchecked ▸ hprotected)] at hrun
      obtain ⟨⟨rfl, rfl⟩, rfl⟩ := hrun
      exact hsearched
    | false =>
      have hprotected' := hchecked ▸ hprotected
      obtain ⟨sd, hsd, hprotects⟩ := isProtected_eq_ok hprotected
      have hread : readDescriptor ndr (searchResults answers) dn ≠ none := fun hnone =>
        nomatch hsd.symm.trans hnone
      have hunprotected : ¬Protects (descriptors dn) := fun h =>
        Bool.false_ne_true (hprotects.1 (hreads dn sd hsd ▸ h))
      have hplain := @sparesProtected_append_delete _ _ _ _ [dn] hsearched
        (List.forall_mem_singleton.2 ⟨hunprotected, hread⟩)
      by_cases hresult : (ldap.delete (checkedState g ldap s dn) dn false).2 = .failure
      · rw [objectDelete_of_refused hreaches hprotected' hresult] at hrun
        obtain ⟨⟨rfl, rfl⟩, rfl⟩ := hrun
        exact hplain
      · rw [objectDelete_of_ne_failure hreaches hprotected' hresult] at hrun
        obtain ⟨t, sent, b, hsent, hloop⟩ := @deleteSubtree_tracked _ ldap
          (ldap.delete (checkedState g ldap s dn) dn false).1
          (deletionOrder ((searchResults answers).touch dn))
          ([.delete dn (g.adconfig.controlIsSupported ldapControlXTreeDelete), .search] ++
            [dn].map fun dn => .delete dn false)
        have hresults : subtreeResults g ldap.tracked (s, []) dn = searchResults answers :=
          congrArg searchResults (hanswers _)
        rw [hresults] at hrun
        obtain ⟨⟨rfl, rfl⟩, rfl⟩ := hloop.symm.trans (Except.ok.inj hrun)
        refine sparesProtected_append_delete hplain fun name hname => ?_
        exact hrest hprotected name ((mem_deletionOrder_touch hpull hread).1 (hsent.subset hname))

/-- The first request is sent to a server that carries it out. -/
theorem first_of_spares (h : DeletionSpares g ndr descriptors dn answers) :
    g.adconfig.controlIsSupported ldapControlXTreeDelete = true ∨ ¬Protects (descriptors dn) := by
  rw [or_iff_not_imp_left, Bool.not_eq_true]
  intro hcontrol
  have hrun := @objectDelete_of_first _ (stubbornLdap answers).tracked g ndr (2, []) dn rfl rfl
  have hspares := h ℕ (stubbornLdap answers) 2 (fun _ => rfl) _ _ _ hrun
  exact (hspares [] dn [] (by rw [← hcontrol])).1

/-- What the search finds is deleted on a server that carries out all but the first two
    requests. -/
theorem rest_of_spares (hpull : ndr.pull [] = none)
    (h : DeletionSpares g ndr descriptors dn answers)
    (hprotected : adSecurityGetProtectedAgainstDeletion ndr
      ((searchResults answers).value dn .empty) = .ok false) :
    ∀ name ∈ (searchResults answers).keys, ¬Protects (descriptors name) ∧
      readDescriptor ndr (searchResults answers) name ≠ none := by
  intro name hname
  obtain ⟨sd, hsd, -⟩ := isProtected_eq_ok hprotected
  have hread : readDescriptor ndr (searchResults answers) dn ≠ none := fun hnone =>
    nomatch hsd.symm.trans hnone
  have hreaches : ReachesProtectionCheck g (stubbornLdap answers).tracked (0, []) dn :=
    ⟨rfl, nofun⟩
  have hchecked : checkedObject g (stubbornLdap answers).tracked (0, []) dn =
      (searchResults answers).value dn .empty := checkedObject_eq fun _ => rfl
  have hrun := objectDelete_of_ne_failure hreaches (hchecked ▸ hprotected) nofun
  obtain ⟨s', hloop⟩ := @deleteSubtree_tracked_success _ (stubbornLdap answers) 2
    (deletionOrder ((searchResults answers).touch dn))
    [.delete dn (g.adconfig.controlIsSupported ldapControlXTreeDelete), .search, .delete dn false]
    (fun s => 2 ≤ s) (fun s dn hs => by
      have hfirst : s ≠ 0 := (Nat.zero_lt_two.trans_le hs).ne'
      have hsecond : s ≠ 1 := (Nat.one_lt_two.trans_le hs).ne'
      exact ⟨(if_neg hfirst).trans (if_neg hsecond), hs.trans (Nat.le_succ s)⟩) le_rfl
  have hspares := h ℕ (stubbornLdap answers) 0 (fun _ => rfl) _ _ _
    (hrun.trans (congrArg Except.ok hloop))
  have hmem := (mem_deletionOrder_touch hpull hread).2 hname
  obtain ⟨before, after, hsplit⟩ := List.append_of_mem hmem
  obtain ⟨hunprotected, hreadName⟩ := hspares
    ([.delete dn (g.adconfig.controlIsSupported ldapControlXTreeDelete), .search,
      .delete dn false] ++ before.map fun dn => .delete dn false) name
    (after.map fun dn => .delete dn false) (by
      rw [hsplit, List.map_append, List.map_cons, List.append_assoc])
  exact ⟨hunprotected, hreadName (List.mem_append_left _ (List.mem_cons_of_mem _
    List.mem_cons_self))⟩

end

/-- The deletion of an object spares the protected ones, on every server, exactly when the
    server supports the control or the target is not protected, and if the search finds
    the target unprotected, it finds all of the subtree unprotected, with descriptors that
    can be read. -/
theorem objectDelete_spares_iff (g : Globals) (ndr : Ndr)
    (descriptors : String → SecurityDescriptor) (dn : String) (answers : List PageAnswer)
    (hpull : ndr.pull [] = none) (hreads : ReadsTruly ndr descriptors (searchResults answers)) :
    DeletionSpares g ndr descriptors dn answers ↔
      (g.adconfig.controlIsSupported ldapControlXTreeDelete = true ∨
        ¬Protects (descriptors dn)) ∧
      (adSecurityGetProtectedAgainstDeletion ndr
          ((searchResults answers).value dn .empty) = .ok false →
        ∀ name ∈ (searchResults answers).keys, ¬Protects (descriptors name) ∧
          readDescriptor ndr (searchResults answers) name ≠ none) :=
  ⟨fun h => ⟨first_of_spares h, rest_of_spares hpull h⟩,
    fun h => spares_of_condition hpull hreads h.1 h.2⟩

/-! ## A protected user in a unit -/

/-- A descriptor that denies the deletion to everyone. -/
def protectedDescriptor : SecurityDescriptor :=
  .ofAces [{ zeroAce with
    type := .accessDenied, accessMask := secStdDelete ||| secAdsDeleteTree, trustee := sidWorld }]

/-- Bytes of the protected descriptor, and of another one. -/
def protectedNdr : Ndr where
  pull bytes := if bytes = [1] then some protectedDescriptor
    else if bytes = [0] then some sampleDescriptor else none
  push sd := if sd = protectedDescriptor then some [1] else some [0]

/-- The user is protected, and the unit is not. -/
def userProtected (dn : String) : SecurityDescriptor :=
  if dn = "CN=user,OU=unit" then protectedDescriptor else sampleDescriptor

/-- The answer to the search for the subtree of the unit. -/
def unitAnswers : List PageAnswer :=
  [.page [("OU=unit", [(attributeSecurityDescriptor, [[0]])]),
    ("CN=user,OU=unit", [(attributeSecurityDescriptor, [[1]])])] false]

theorem userProtected_readsTruly :
    ReadsTruly protectedNdr userProtected (searchResults unitAnswers) := by
  have hresults : searchResults unitAnswers =
      [("OU=unit", ⟨"OU=unit", [(attributeSecurityDescriptor, [[0]])]⟩),
        ("CN=user,OU=unit", ⟨"CN=user,OU=unit", [(attributeSecurityDescriptor, [[1]])]⟩)] := by
    decide
  intro dn sd hsd
  rw [hresults, readDescriptor, QHash.value_cons, QHash.value_cons] at hsd
  split_ifs at hsd with hunit huser
  · rw [userProtected, if_neg (hunit ▸ by decide)]
    exact (Option.some_inj.1 hsd).symm
  · rw [userProtected, if_pos huser]
    exact (Option.some_inj.1 hsd).symm
  · exact nomatch hsd

theorem objectDelete_spares_iff_user :
    protectedNdr.pull [] = none ∧
      ReadsTruly protectedNdr userProtected (searchResults unitAnswers) ∧
      (DeletionSpares .empty protectedNdr userProtected "OU=unit" unitAnswers ↔
        (Globals.empty.adconfig.controlIsSupported ldapControlXTreeDelete = true ∨
          ¬Protects (userProtected "OU=unit")) ∧
        (adSecurityGetProtectedAgainstDeletion protectedNdr
            ((searchResults unitAnswers).value "OU=unit" .empty) = .ok false →
          ∀ name ∈ (searchResults unitAnswers).keys, ¬Protects (userProtected name) ∧
            readDescriptor protectedNdr (searchResults unitAnswers) name ≠ none)) :=
  ⟨rfl, userProtected_readsTruly, objectDelete_spares_iff .empty protectedNdr userProtected
    "OU=unit" unitAnswers rfl userProtected_readsTruly⟩

/-- A server without the control is asked to delete the protected user at once; and one
    with it, that rejects the deletion of the subtree of the unit, is asked to delete the
    user in it. -/
theorem not_objectDelete_spares :
    ¬DeletionSpares .empty protectedNdr userProtected "CN=user,OU=unit" [.failure] ∧
      ¬DeletionSpares unitGlobals protectedNdr userProtected "OU=unit" unitAnswers ∧
      objectDelete unitGlobals (stubbornLdap unitAnswers).tracked protectedNdr (0, []) "OU=unit" =
        .ok ((4, [.delete "OU=unit" true, .search, .delete "OU=unit" false,
          .delete "CN=user,OU=unit" false, .delete "OU=unit" false]), true) := by
  refine ⟨fun h => ?_, fun h => ?_, by decide⟩
  · exact absurd (first_of_spares h) (by decide)
  · have hrest := rest_of_spares rfl h (by decide) "CN=user,OU=unit" (by decide)
    exact absurd hrest.1 (by decide)

end Admc
