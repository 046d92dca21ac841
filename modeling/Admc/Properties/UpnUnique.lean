import Admc.Properties.UpnEdit
import Admc.RenameObject

/-!
# Unique logon names

Before a logon name is written, the edit searches the domain for other objects that have it. The
name and the DN are put into the text of the filter as they are, and a search that fails is taken
for one that finds nothing.

* `tellsUnique_iff`: when the edit accepts a name just if no other object has it;
* `tellsUnique_of_plain`: it does when the search succeeds and neither the name nor the DN have a
  character of the syntax of filters.
-/

namespace Admc

open SearchFilter

/-! ## The server -/

/-- A search succeeds if it gets to a last page. -/
def Succeeds : List PageAnswer → Prop
  | .page _ morePages :: answers => morePages = true → Succeeds answers
  | _ => False

theorem searchResultsFrom_of_fails {answers : List PageAnswer} (h : ¬ Succeeds answers)
    (results : QHash String AdObject) : searchResultsFrom results answers = [] := by
  induction answers generalizing results with
  | nil => rfl
  | cons answer answers ih =>
    cases answer with
    | failure => rfl
    | page entries morePages =>
      rw [Succeeds, Classical.not_imp] at h
      rw [searchResultsFrom, if_pos h.1]
      exact ih h.2 _

/-- A server with the objects of a domain. A search of the domain that succeeds was for a filter,
    and finds the objects that match it. -/
structure DomainServer (σ : Type) extends Ldap σ where
  rules : MatchingRules
  domainDn : String
  objects : σ → List (String × Entry)
  search_domain : ∀ s filter, Succeeds (search s ⟨domainDn, .all, filter, [], false⟩).2 →
    ∃ f : SearchFilter, f.Spells filter.toList ∧ ∀ dn,
      dn ∈ (searchResults (search s ⟨domainDn, .all, filter, [], false⟩).2).keys ↔
        ∃ entry, (dn, entry) ∈ objects s ∧ f.Matches rules entry

/-! ## Verifying -/

namespace UpnEdit

variable {σ : Type} (server : DomainServer σ) (d : UpnEdit) (s : σ) (dn : QString)

/-- The answers to the search of `UpnEdit::verify`. -/
def verifyAnswers : List PageAnswer :=
  (server.search s ⟨server.domainDn, .all,
    String.ofList (RenameEdit.sameUpnFilter d.getNewValue dn), [], false⟩).2

/-- `UpnEdit::verify`. -/
def verify : Bool :=
  let newPrefix := d.prefixEdit.text
  let someBadChars := stringContainsBadChars newPrefix upnBadChars
  let startsWithSpace : Bool := newPrefix.head? = some ' '
  let endsWithSpace : Bool := newPrefix.getLast? = some ' '
  if someBadChars || startsWithSpace || endsWithSpace then false
  else
    let results := (adSearch server.toLdap s server.domainDn .all
      (String.ofList (RenameEdit.sameUpnFilter d.getNewValue dn)) [] false).2
    results.isEmpty

/-- The first part has no forbidden characters, nor blanks at its ends. -/
structure PrefixAllowed : Prop where
  chars : stringContainsBadChars d.prefixEdit.text upnBadChars = false
  head : d.prefixEdit.text.head? ≠ some ' '
  last : d.prefixEdit.text.getLast? ≠ some ' '

/-- Another object has the name. -/
def NameIsTaken : Prop := ∃ object ∈ server.objects s,
  Condition.equals.Compares server.rules object.2 "userPrincipalName".toList d.getNewValue ∧
    Condition.notEquals.Compares server.rules object.2 "distinguishedName".toList dn

/-- The edit accepts a name only if it is unique, and accepts a unique name unless the search
    fails. -/
structure TellsUnique : Prop where
  unique : d.verify server s dn = true → ¬ NameIsTaken server d s dn
  accepted : Succeeds (d.verifyAnswers server s dn) → ¬ NameIsTaken server d s dn →
    d.verify server s dn = true

/-- The name of another object fits the name, with its asterisks for anything. -/
def NameFits : Prop := ∃ object ∈ server.objects s,
  (∃ value ∈ object.2 "userPrincipalName".toList,
    Glob ((d.getNewValue.splitOn '*').map fun piece =>
        server.rules.prepare "userPrincipalName".toList (textBytes piece))
      (server.rules.prepare "userPrincipalName".toList value)) ∧
    Condition.notEquals.Compares server.rules object.2 "distinguishedName".toList dn

/-- Of the syntax of filters, there are only asterisks in the name, and nothing in the DN. -/
def OnlyAsterisks : Prop :=
  (∀ c ∈ d.getNewValue, c ≠ '*' → ¬ IsSyntax c) ∧ ∀ c ∈ dn, ¬ IsSyntax c

instance decidableOnlyAsterisks : Decidable (d.OnlyAsterisks dn) :=
  -- the characters of the texts are tried, not all characters
  @instDecidableAnd _ _ (List.decidableBAll _ _) (List.decidableBAll _ _)

/-- When the edit tells what is unique: a search that fails must not have had anything to find;
    with asterisks, there must be names that fit just if the name is taken; and with other syntax,
    there must be something that matches the resulting filter just if the name is taken. -/
def VerifyCondition : Prop :=
  (¬ Succeeds (d.verifyAnswers server s dn) → ¬ NameIsTaken server d s dn) ∧
  (Succeeds (d.verifyAnswers server s dn) → d.OnlyAsterisks dn →
    (NameFits server d s dn ↔ NameIsTaken server d s dn)) ∧
  (Succeeds (d.verifyAnswers server s dn) → ¬ d.OnlyAsterisks dn →
    ∀ filter : SearchFilter, filter.Spells (RenameEdit.sameUpnFilter d.getNewValue dn) →
      ((∃ object ∈ server.objects s, filter.Matches server.rules object.2) ↔
        NameIsTaken server d s dn))

/-! ## The filter -/

/-- The attribute of logon names. -/
def userPrincipalName : AttributeDescription where
  text := "userPrincipalName".toList
  valid := by
    have hkeys : ∀ c ∈ "serPrincipalName".toList, IsKeyChar c :=
      List.all_iff_forall_prop.1 (by decide)
    exact ⟨⟨"userPrincipalName".toList, .inl ⟨'u', "serPrincipalName".toList, rfl, rfl, hkeys⟩⟩,
      [], nofun, rfl⟩

section
variable {server d s dn}

/-- The pieces of a text between asterisks. -/
theorem encodes_splitOn {text : QString} (h : ∀ c ∈ text, c ≠ '*' → ¬ IsSyntax c) :
    (text.splitOn '*').Forall₂ Encodes ((text.splitOn '*').map textBytes) := by
  rw [List.forall₂_map_right_iff, List.forall₂_same]
  intro piece hpiece
  refine .of_plain fun c hc => h c ?_ ?_
  · exact List.count_pos_iff.1 ((List.count_pos_iff.2 hc).trans_le
      (Path.count_le_of_mem_splitOn hpiece c))
  · rintro rfl
    exact Path.not_mem_of_mem_splitOn hpiece hc

/-- What the filter means, if it has no syntax but asterisks in the name. -/
theorem spells_sameUpnFilter (h : d.OnlyAsterisks dn) : ∃ filter : SearchFilter,
    filter.Spells (RenameEdit.sameUpnFilter d.getNewValue dn) ∧ ∀ rules entry,
      filter.Matches rules entry ↔
        (∃ value ∈ entry "userPrincipalName".toList,
          Glob ((d.getNewValue.splitOn '*').map fun piece =>
              rules.prepare "userPrincipalName".toList (textBytes piece))
            (rules.prepare "userPrincipalName".toList value)) ∧
          Condition.notEquals.Compares rules entry "distinguishedName".toList dn := by
  have hname : Spells (item (.equal userPrincipalName ((d.getNewValue.splitOn '*').map textBytes)))
      (filterCondition .equals "userPrincipalName".toList d.getNewValue) :=
    spells_equal_iff.2 ⟨_, encodes_splitOn h.1, rfl⟩
  have hown := (matchesLiteral_iff .notEquals distinguishedName dn (by decide)).2 h.2
  obtain ⟨own, hspells⟩ := hown.wellFormed
  obtain ⟨filter, hfilter, hmatches⟩ :=
    spells_filterAnd (.cons hname (.cons hspells .nil)) (List.cons_ne_nil _ _)
  refine ⟨filter, hfilter, fun rules entry => (hmatches rules entry).trans ?_⟩
  rw [List.forall_mem_cons, List.forall_mem_singleton, hown.meaning own hspells]
  refine and_congr_left' (exists_congr fun value => and_congr_right fun _ => ?_)
  rw [List.map_map]
  rfl

/-! ## What is accepted -/

theorem verify_iff (h : d.PrefixAllowed) :
    d.verify server s dn = true ↔ (searchResults (d.verifyAnswers server s dn)).keys = [] := by
  have hallowed : (stringContainsBadChars d.prefixEdit.text upnBadChars ||
      decide (d.prefixEdit.text.head? = some ' ') ||
        decide (d.prefixEdit.text.getLast? = some ' ')) = false := by
    rw [h.chars, decide_eq_false h.head, decide_eq_false h.last]
    rfl
  rw [verify, hallowed, QHash.keys, List.map_eq_nil_iff]
  exact List.isEmpty_iff

theorem verify_of_fails (h : d.PrefixAllowed) (hfails : ¬ Succeeds (d.verifyAnswers server s dn)) :
    d.verify server s dn = true := by
  rw [verify_iff h, searchResults, searchResultsFrom_of_fails hfails]
  rfl

/-- A search that succeeds finds what matches the filter. -/
theorem verify_iff_of_spells (h : d.PrefixAllowed)
    (hsucceeds : Succeeds (d.verifyAnswers server s dn)) {filter : SearchFilter}
    (hfilter : filter.Spells (RenameEdit.sameUpnFilter d.getNewValue dn)) :
    d.verify server s dn = true ↔
      ¬ ∃ object ∈ server.objects s, filter.Matches server.rules object.2 := by
  obtain ⟨f, hf, hfound⟩ := server.search_domain s _ hsucceeds
  rw [String.toList_ofList] at hf
  obtain rfl := spells_inj hf hfilter
  rw [verify_iff h, List.eq_nil_iff_forall_not_mem, not_exists]
  constructor
  · rintro hnone ⟨dn', entry⟩ ⟨hmem, hmatches⟩
    exact hnone dn' ((hfound dn').2 ⟨entry, hmem, hmatches⟩)
  · intro hnone dn' hkey
    obtain ⟨entry, hmem, hmatches⟩ := (hfound dn').1 hkey
    exact hnone (dn', entry) ⟨hmem, hmatches⟩

/-- When the edit tells what is unique. -/
theorem tellsUnique_iff (h : d.PrefixAllowed) :
    TellsUnique server d s dn ↔ VerifyCondition server d s dn := by
  by_cases hsucceeds : Succeeds (d.verifyAnswers server s dn)
  · obtain ⟨filter, hfilter, -⟩ := server.search_domain s _ hsucceeds
    rw [String.toList_ofList] at hfilter
    have hverify := verify_iff_of_spells h hsucceeds hfilter
    have htells : TellsUnique server d s dn ↔
        ((∃ object ∈ server.objects s, filter.Matches server.rules object.2) ↔
          NameIsTaken server d s dn) := by
      constructor
      · rintro ⟨hunique, haccepted⟩
        exact ⟨fun hfound => by_contra fun hfree => hverify.1 (haccepted hsucceeds hfree) hfound,
          fun htaken => by_contra fun hnone => hunique (hverify.2 hnone) htaken⟩
      · intro hiff
        exact ⟨fun haccepts htaken => hverify.1 haccepts (hiff.2 htaken),
          fun _ hfree => hverify.2 fun hfound => hfree (hiff.1 hfound)⟩
    rw [htells]
    by_cases honly : d.OnlyAsterisks dn
    · obtain ⟨filter', hfilter', hmatches⟩ := spells_sameUpnFilter honly
      obtain rfl := spells_inj hfilter' hfilter
      have hfits : (∃ object ∈ server.objects s, filter'.Matches server.rules object.2) ↔
          NameFits server d s dn :=
        exists_congr fun object => and_congr_right fun _ => hmatches server.rules object.2
      rw [hfits]
      exact ⟨fun hiff => ⟨fun hfails => absurd hsucceeds hfails, fun _ _ => hiff,
        fun _ hnot => absurd honly hnot⟩, fun hcondition => hcondition.2.1 hsucceeds honly⟩
    · constructor
      · intro hiff
        refine ⟨fun hfails => absurd hsucceeds hfails, fun _ hall => absurd hall honly,
          fun _ _ filter' hfilter' => ?_⟩
        rwa [spells_inj hfilter' hfilter]
      · intro hcondition
        exact hcondition.2.2 hsucceeds honly filter hfilter
  · have haccepts := verify_of_fails h hsucceeds
    constructor
    · intro htells
      exact ⟨fun _ => htells.unique haccepts, fun h => absurd h hsucceeds,
        fun h => absurd h hsucceeds⟩
    · intro hcondition
      exact ⟨fun _ => hcondition.1 hsucceeds, fun h => absurd h hsucceeds⟩

/-- What fits a name without asterisks has it. -/
theorem nameFits_iff (h : '*' ∉ d.getNewValue) :
    NameFits server d s dn ↔ NameIsTaken server d s dn := by
  rw [NameFits, NameIsTaken, List.splitOn_eq_singleton h]
  rfl

/-- The edit tells what is unique if the search succeeds, and there is no syntax of filters in the
    name and the DN. -/
theorem tellsUnique_of_plain (h : d.PrefixAllowed)
    (hsucceeds : Succeeds (d.verifyAnswers server s dn)) (hname : ∀ c ∈ d.getNewValue, ¬ IsSyntax c)
    (hdn : ∀ c ∈ dn, ¬ IsSyntax c) : TellsUnique server d s dn := by
  have honly : d.OnlyAsterisks dn := ⟨fun c hc _ => hname c hc, hdn⟩
  rw [tellsUnique_iff h]
  exact ⟨fun hfails => absurd hsucceeds hfails,
    fun _ _ => nameFits_iff fun hmem => hname '*' hmem (by decide),
    fun _ hnot => absurd honly hnot⟩

end

/-! ## The result -/

/-- When the edit tells what is unique; without syntax of filters, when the search succeeds. -/
theorem upnVerify_iff {σ : Type} (server : DomainServer σ) (d : UpnEdit) (s : σ) (dn : QString)
    (h : d.PrefixAllowed) :
    (TellsUnique server d s dn ↔ VerifyCondition server d s dn) ∧
      (Succeeds (d.verifyAnswers server s dn) → (∀ c ∈ d.getNewValue, ¬ IsSyntax c) →
        (∀ c ∈ dn, ¬ IsSyntax c) → TellsUnique server d s dn) :=
  ⟨tellsUnique_iff h, tellsUnique_of_plain h⟩

end UpnEdit

/-! ## A server -/

theorem mem_keys_foldl_insert {entries : List (String × QHash String (List QByteArray))}
    {hash : QHash String AdObject} {key : String} :
    key ∈ QHash.keys (entries.foldl (fun results entry =>
      QHash.insert results entry.1 (AdObject.mk entry.1 entry.2)) hash) ↔
        key ∈ entries.map Prod.fst ∨ key ∈ hash.keys := by
  induction entries generalizing hash with
  | nil => simp
  | cons entry entries ih =>
    rw [List.foldl_cons, ih, QHash.mem_keys_insert, List.map_cons, List.mem_cons]
    tauto

open Classical in
/-- A server with some objects, which compares octets, and answers while it is available. -/
noncomputable def octetServer (objects : List (String × Entry)) : DomainServer Bool where
  search available request :=
    (available, if h : available = true ∧ ∃ f : SearchFilter, f.Spells request.filter.toList then
      [.page ((objects.filter fun object => h.2.choose.Matches octetRules object.2).map
        fun object => (object.1, [])) false]
      else [.failure])
  createSdControl _ := .success
  createTreeDeleteControl _ := .success
  modifyReplace available _ _ _ _ := (available, .failure)
  delete available _ _ := (available, .failure)
  rules := octetRules
  domainDn := "DC=b,DC=org"
  objects _ := objects
  search_domain available filter hsucceeds := by
    split_ifs at hsucceeds ⊢ with h
    · refine ⟨h.2.choose, h.2.choose_spec, fun dn => ?_⟩
      rw [searchResults, searchResultsFrom, if_neg Bool.false_ne_true, mem_keys_foldl_insert,
        or_iff_left (b := dn ∈ QHash.keys []) List.not_mem_nil]
      simp only [List.map_map, List.mem_map, List.mem_filter, decide_eq_true_iff,
        Function.comp_apply]
      constructor
      · rintro ⟨⟨_, entry⟩, ⟨hmem, hmatches⟩, rfl⟩
        exact ⟨entry, hmem, hmatches⟩
      · rintro ⟨entry, hmem, hmatches⟩
        exact ⟨(dn, entry), ⟨hmem, hmatches⟩, rfl⟩
    · exact hsucceeds.elim

theorem succeeds_octetServer {objects : List (String × Entry)} {d : UpnEdit} {dn : QString}
    (h : d.OnlyAsterisks dn) : Succeeds (d.verifyAnswers (octetServer objects) true dn) := by
  obtain ⟨filter, hfilter, -⟩ := UpnEdit.spells_sameUpnFilter h
  have hanswers : ∃ f : SearchFilter,
      f.Spells (String.ofList (RenameEdit.sameUpnFilter d.getNewValue dn)).toList := by
    rw [String.toList_ofList]
    exact ⟨filter, hfilter⟩
  rw [UpnEdit.verifyAnswers, octetServer]
  dsimp only
  rw [dif_pos ⟨rfl, hanswers⟩]
  exact fun h => absurd h Bool.false_ne_true

theorem fails_octetServer {objects : List (String × Entry)} {d : UpnEdit} {dn : QString} :
    ¬ Succeeds (d.verifyAnswers (octetServer objects) false dn) := by
  rw [UpnEdit.verifyAnswers, octetServer]
  dsimp only
  rw [dif_neg fun h => Bool.false_ne_true h.1]
  exact id

/-- A user of the domain. -/
def annaObject : String × Entry := ("CN=Anna,DC=b,DC=org", fun attr =>
  if attr = "userPrincipalName".toList then [utf8 "anna@b.org".toList]
  else if attr = "distinguishedName".toList then [utf8 "CN=Anna,DC=b,DC=org".toList]
  else [])

/-- The edit with some first part of a name. -/
def upnEditOf (upnPrefix : QString) : UpnEdit where
  prefixEdit := ⟨upnPrefix, -1⟩
  upnSuffixCombo := ⟨[("b.org".toList, ())], 0⟩

/-- The DN of another user. -/
def borisDn : QString := "CN=Boris,DC=b,DC=org".toList

theorem notEquals_annaObject : Condition.notEquals.Compares octetRules annaObject.2
    "distinguishedName".toList borisDn := by
  rintro ⟨v, hv, hequal⟩
  obtain rfl := List.mem_singleton.1 hv
  exact absurd hequal (by decide)

theorem nameIsTaken_annaObject (available : Bool) : UpnEdit.NameIsTaken (octetServer [annaObject])
    (upnEditOf "anna".toList) available borisDn :=
  ⟨annaObject, List.mem_singleton_self _, ⟨_, List.mem_singleton_self _, rfl⟩, notEquals_annaObject⟩

namespace UpnEdit

/-- A name that is taken is not accepted while the server is available. -/
theorem upnVerify_iff_available : (upnEditOf "anna".toList).verify (octetServer [annaObject]) true
    borisDn ≠ true := by
  have hvalue : ∀ c ∈ (upnEditOf "anna".toList).getNewValue, ¬ IsSyntax c :=
    List.all_iff_forall_prop.1 (by decide)
  have hdn : ∀ c ∈ borisDn, ¬ IsSyntax c := List.all_iff_forall_prop.1 (by decide)
  have hunique := (upnVerify_iff (octetServer [annaObject]) (upnEditOf "anna".toList) true borisDn
    ⟨by decide, by decide, by decide⟩).2 (succeeds_octetServer (by decide)) hvalue hdn
  exact fun haccepts => hunique.unique haccepts (nameIsTaken_annaObject true)

/-- It is accepted if the search fails; and an asterisk is not accepted although nobody has it. -/
theorem not_upnVerify :
    ((upnEditOf "anna".toList).PrefixAllowed ∧
      NameIsTaken (octetServer [annaObject]) (upnEditOf "anna".toList) false borisDn ∧
      (upnEditOf "anna".toList).verify (octetServer [annaObject]) false borisDn = true) ∧
    (upnEditOf ['*']).PrefixAllowed ∧
      Succeeds ((upnEditOf ['*']).verifyAnswers (octetServer [annaObject]) true borisDn) ∧
      ¬ NameIsTaken (octetServer [annaObject]) (upnEditOf ['*']) true borisDn ∧
      (upnEditOf ['*']).verify (octetServer [annaObject]) true borisDn ≠ true := by
  have hallowed : (upnEditOf "anna".toList).PrefixAllowed := ⟨by decide, by decide, by decide⟩
  have hallowed' : (upnEditOf ['*']).PrefixAllowed := ⟨by decide, by decide, by decide⟩
  have honly : (upnEditOf ['*']).OnlyAsterisks borisDn := by decide
  refine ⟨⟨hallowed, nameIsTaken_annaObject false, verify_of_fails hallowed fails_octetServer⟩,
    hallowed', succeeds_octetServer honly, ?_, ?_⟩
  · rintro ⟨object, hobject, ⟨v, hv, hequal⟩, -⟩
    obtain rfl := List.mem_singleton.1 hobject
    obtain rfl := List.mem_singleton.1 hv
    exact absurd hequal (by decide)
  · obtain ⟨filter, hfilter, hmatches⟩ := spells_sameUpnFilter honly
    rw [Ne, verify_iff_of_spells hallowed' (succeeds_octetServer honly) hfilter, not_not]
    refine ⟨annaObject, List.mem_singleton_self _, (hmatches octetRules annaObject.2).2
      ⟨⟨_, List.mem_singleton_self _, ?_⟩, notEquals_annaObject⟩⟩
    exact glob_suffix.2 (by decide)

end UpnEdit

end Admc
