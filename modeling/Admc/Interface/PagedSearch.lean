import Admc.Interface.Server
import Admc.Lib.AnswerLoop
import Admc.Lib.Ownership

/-!
# Searches, page by page

A search asks for page after page, with the cookie of the page before, up to the first page
that fails or comes without a cookie.

* `search_cases`: the results are the entries of all pages together, or none if a page fails,
  and no page is asked for after the last one;
* `searchResults_answers`: they are those of the outcomes of the pages.
-/

namespace Admc

open TokenEvent

/-! ## Cookies -/

/-- A `berval` on the heap. -/
structure Cookie where
  token : ℕ
  value : QByteArray
  deriving DecidableEq

/-- What a search changes: `next` is the next token of the heap. -/
structure PagedState where
  next : ℕ
  events : List (TokenEvent ℕ)
  /-- The values that page controls have been made with. -/
  pageControls : List (Option QByteArray)
  /-- `AdCookie::cookie`. -/
  cookie : Option Cookie
  results : QHash String AdObject

namespace PagedState

/-- `AdCookie::AdCookie`, with no results. -/
def new : PagedState := ⟨0, [], [], none, []⟩

variable (s : PagedState)

/-- `AdCookie::more_pages`. -/
def morePages : Bool := s.cookie.isSome

/-- `ber_bvfree`, which does nothing with `NULL`. -/
def berBvfree (cookie : Option Cookie) : PagedState :=
  match cookie with
  | none => s
  | some cookie => { s with events := s.events ++ [.release cookie.token] }

/-- The token that is next, for a value. -/
def nextCookie (value : QByteArray) : Cookie := ⟨s.next, value⟩

/-- `malloc` of a cookie, and `ber_bvdup`. -/
def allocate : PagedState :=
  { s with next := s.next + 1, events := s.events ++ [.allocate s.next] }

/-- `ldap_create_page_control`, with a cookie that may be `NULL`. -/
def createPageControl (cookie : Option Cookie) : PagedState :=
  { s with
    pageControls := s.pageControls ++ [cookie.map Cookie.value]
    events := s.events ++ (cookie.map fun cookie => .use cookie.token).toList }

/-- Collects the results of a page. -/
def insertEntries (entries : List (String × QHash String (List QByteArray))) : PagedState :=
  { s with
    results := entries.foldl (fun results entry =>
      results.insert entry.1 ⟨entry.1, entry.2⟩) s.results }

/-- Assigns `AdCookie::cookie`. -/
def setCookie (cookie : Option Cookie) : PagedState := { s with cookie := cookie }

/-- `AdCookie::~AdCookie`. -/
def destroyCookie : PagedState := s.berBvfree s.cookie

end PagedState

/-! ## Pages -/

/-- `LDAP_SUCCESS`. -/
def ldapSuccess : ℤ := 0

/-- `LDAP_PARTIAL_RESULTS`. -/
def ldapPartialResults : ℤ := 9

/-- What the steps for one page come to: the results of the library's functions, the entries
    of the page, and the page response control with its cookie, if there is one. -/
structure PageResult where
  createSdControl : ℤ
  createPageControl : ℤ
  searchExt : ℤ
  entries : List (String × QHash String (List QByteArray))
  parseResult : ℤ
  pageResponse : Option (ℤ × QByteArray)

namespace PageResult

variable (page : PageResult)

/-- All steps for a page succeed. -/
def Succeeds : Prop :=
  page.createSdControl = ldapSuccess ∧ page.createPageControl = ldapSuccess ∧
    (page.searchExt = ldapSuccess ∨ page.searchExt = ldapPartialResults) ∧
    page.parseResult = ldapSuccess ∧ ∀ response ∈ page.pageResponse, response.1 = ldapSuccess

instance : Decidable page.Succeeds := inferInstanceAs (Decidable (_ ∧ _ ∧ _ ∧ _ ∧ _))

/-- The cookie that the server gives. -/
def cookieValue : QByteArray := (page.pageResponse.map Prod.snd).getD []

/-- A page succeeds, and there are more. -/
def HasMore : Prop := page.Succeeds ∧ page.cookieValue ≠ []

instance : Decidable page.HasMore := inferInstanceAs (Decidable (_ ∧ _))

/-- The outcome of a page. -/
def answer : PageAnswer :=
  if page.Succeeds then .page page.entries (page.cookieValue ≠ []) else .failure

end PageResult

/-! ## The search of one page -/

/-- `AdInterfacePrivate::search_paged_internal`. -/
def searchPagedInternal (page : PageResult) (s : PagedState) : Bool × PagedState :=
  let prevCookie := s.cookie
  let cleanup (newCookie : Option Cookie) (s : PagedState) :=
    (s.berBvfree prevCookie).berBvfree newCookie
  if page.createSdControl ≠ ldapSuccess then (false, cleanup none s)
  else
    let s := s.createPageControl prevCookie
    if page.createPageControl ≠ ldapSuccess then (false, cleanup none s)
    else if page.searchExt ≠ ldapSuccess ∧ page.searchExt ≠ ldapPartialResults then
      (false, cleanup none s)
    else
      let s := s.insertEntries page.entries
      if page.parseResult ≠ ldapSuccess then (false, cleanup none s)
      else
        match page.pageResponse with
        | some (result, value) =>
          let newCookie := s.nextCookie value
          let s := s.allocate
          if result ≠ ldapSuccess then (false, cleanup (some newCookie) s)
          else if 0 < value.length then
            let cookie := s.nextCookie value
            let s := s.allocate
            (true, cleanup (some newCookie) (s.setCookie (some cookie)))
          else (true, cleanup (some newCookie) (s.setCookie none))
        | none => (true, cleanup none (s.setCookie none))

section
variable {page : PageResult} {s : PagedState}

@[simp] theorem PagedState.berBvfree_none (s : PagedState) : s.berBvfree none = s := rfl

/-- What a state has before the page response control is parsed. -/
def PagedState.found (s : PagedState) (page : PageResult) : PagedState :=
  (s.createPageControl s.cookie).insertEntries page.entries

/-- The exits of the search of one page: those before the page response control, that where it
    is not parsed, and those where the page succeeds. -/
inductive PageExit (page : PageResult) (s : PagedState) : Bool × PagedState → Prop
  | noControl (h : ¬page.Succeeds) : PageExit page s (false, s.berBvfree s.cookie)
  | noSearch (h : ¬page.Succeeds) :
    PageExit page s (false, (s.createPageControl s.cookie).berBvfree s.cookie)
  | noResult (h : ¬page.Succeeds) : PageExit page s (false, (s.found page).berBvfree s.cookie)
  | noResponse (h : ¬page.Succeeds) (value : QByteArray) :
    PageExit page s (false, ((s.found page).allocate.berBvfree s.cookie).berBvfree
      (some ((s.found page).nextCookie value)))
  | missing (h : page.Succeeds) (hvalue : page.cookieValue = []) :
    PageExit page s (true, ((s.found page).setCookie none).berBvfree s.cookie)
  | last (h : page.Succeeds) (hvalue : page.cookieValue = []) :
    PageExit page s (true, (((s.found page).allocate.setCookie none).berBvfree s.cookie).berBvfree
      (some ((s.found page).nextCookie [])))
  | more (h : page.Succeeds) (hvalue : page.cookieValue ≠ []) :
    PageExit page s (true, (((s.found page).allocate.allocate.setCookie
      (some ((s.found page).allocate.nextCookie page.cookieValue))).berBvfree s.cookie).berBvfree
        (some ((s.found page).nextCookie page.cookieValue)))

theorem searchPagedInternal_exit (page : PageResult) (s : PagedState) :
    PageExit page s (searchPagedInternal page s) := by
  rw [searchPagedInternal]
  split_ifs with hsd hcontrol hsearch hparse
  · exact .noControl fun h => hsd h.1
  · exact .noSearch fun h => hcontrol h.2.1
  · exact .noSearch fun h => h.2.2.1.elim hsearch.1 hsearch.2
  · exact .noResult fun h => hparse h.2.2.2.1
  · have hsearch' := (not_and_or.1 hsearch).imp not_not.1 not_not.1
    have hsucceeds : (∀ response ∈ page.pageResponse, response.1 = ldapSuccess) → page.Succeeds :=
      fun h => ⟨not_not.1 hsd, not_not.1 hcontrol, hsearch', not_not.1 hparse, h⟩
    rcases hresponse : page.pageResponse with _ | ⟨result, value⟩
    · rw [hresponse] at hsucceeds
      exact .missing (hsucceeds nofun) (by rw [PageResult.cookieValue, hresponse]; rfl)
    · have hvalue : page.cookieValue = value := by rw [PageResult.cookieValue, hresponse]; rfl
      simp only
      split_ifs with hresult hlength
      · exact .noResponse (fun h => hresult (h.2.2.2.2 (result, value) hresponse)) value
      all_goals
        have hpage := hsucceeds fun response hmem => by
          rw [hresponse] at hmem
          rw [← Option.mem_some.1 hmem]
          exact not_not.1 hresult
      · have hne : page.cookieValue ≠ [] := by rwa [hvalue, ← List.length_pos_iff]
        rw [← hvalue]
        exact .more hpage hne
      · have hnil : value = [] := List.length_eq_zero_iff.1 (Nat.eq_zero_of_not_pos hlength)
        subst hnil
        exact .last hpage hvalue

end

/-- `AdInterface::search_paged`. -/
def searchPaged (page : PageResult) (s : PagedState) : Bool × PagedState :=
  let (searchSuccess, s) := searchPagedInternal page s
  if !searchSuccess then (false, { s with results := [] }) else (true, s)

/-- The loop of `AdInterface::search`, for one page. -/
def searchBody (page : PageResult) (s : PagedState) : Bool × PagedState :=
  let (success, s) := searchPaged page s
  if !success then (false, s) else (s.morePages, s)

/-- `AdInterface::search`, with the pages that have not been asked for. -/
def search (pages : List PageResult) : Option (PagedState × List PageResult) :=
  (answerLoop searchBody pages .new).map fun (s, rest) => (s.destroyCookie, rest)

/-! ## The results -/

section
variable {page : PageResult} {pages rest : List PageResult} {s s' : PagedState}

@[simp] theorem PagedState.results_berBvfree (cookie : Option Cookie) :
    (s.berBvfree cookie).results = s.results := by cases cookie <;> rfl

@[simp] theorem PagedState.cookie_berBvfree (cookie : Option Cookie) :
    (s.berBvfree cookie).cookie = s.cookie := by cases cookie <;> rfl

@[simp] theorem PagedState.pageControls_berBvfree (cookie : Option Cookie) :
    (s.berBvfree cookie).pageControls = s.pageControls := by cases cookie <;> rfl

variable {out : Bool × PagedState}

theorem PageExit.fst_eq (h : PageExit page s out) : out.1 = decide page.Succeeds := by
  cases h with
  | noControl h | noSearch h | noResult h | noResponse h => exact (decide_eq_false h).symm
  | missing h | last h | more h => exact (decide_eq_true h).symm

/-- A page that succeeds adds its entries, and changes the cookie to the next one. -/
theorem PageExit.of_succeeds (h : PageExit page s out) (hpage : page.Succeeds) :
    out.2.results = (s.insertEntries page.entries).results ∧
    out.2.pageControls = s.pageControls ++ [s.cookie.map Cookie.value] ∧
    out.2.cookie.map Cookie.value =
      if page.cookieValue = [] then none else some page.cookieValue := by
  cases h with
  | noControl h | noSearch h | noResult h | noResponse h => exact absurd hpage h
  | missing _ hvalue | last _ hvalue =>
    simp [hvalue, PagedState.found, PagedState.insertEntries, PagedState.createPageControl,
      PagedState.allocate, PagedState.setCookie]
  | more _ hvalue =>
    simp [hvalue, PagedState.found, PagedState.insertEntries, PagedState.createPageControl,
      PagedState.allocate, PagedState.setCookie, PagedState.nextCookie]

theorem PageExit.pageControls (h : PageExit page s out) :
    out.2.pageControls <+: s.pageControls ++ [s.cookie.map Cookie.value] := by
  cases h with
  | noControl h =>
    rw [PagedState.pageControls_berBvfree]
    exact List.prefix_append _ _
  | _ => simp [PagedState.found, PagedState.insertEntries, PagedState.createPageControl,
      PagedState.allocate, PagedState.setCookie]

theorem searchPaged_of_succeeds (h : page.Succeeds) :
    searchPaged page s = (true, (searchPagedInternal page s).2) := by
  have hfst := (searchPagedInternal_exit page s).fst_eq
  rw [decide_eq_true h] at hfst
  simp [searchPaged, hfst]

/-- The results of all pages so far are cleared when one fails. -/
theorem searchPaged_of_not_succeeds (h : ¬page.Succeeds) :
    searchPaged page s = (false, { (searchPagedInternal page s).2 with results := [] }) := by
  have hfst := (searchPagedInternal_exit page s).fst_eq
  rw [decide_eq_false h] at hfst
  simp [searchPaged, hfst]

theorem pageControls_searchPaged (page : PageResult) (s : PagedState) :
    (searchPaged page s).2.pageControls = (searchPagedInternal page s).2.pageControls := by
  by_cases h : page.Succeeds
  · rw [searchPaged_of_succeeds h]
  · rw [searchPaged_of_not_succeeds h]

theorem morePages_searchPaged (h : page.Succeeds) :
    (searchPaged page s).2.morePages = decide (page.cookieValue ≠ []) := by
  have hcookie := ((searchPagedInternal_exit page s).of_succeeds h).2.2
  rw [searchPaged_of_succeeds h, PagedState.morePages, ← Option.isSome_map, hcookie]
  by_cases hvalue : page.cookieValue = [] <;> simp [hvalue]

/-- The search goes on after a page that has more pages behind it. -/
theorem searchBody_eq (page : PageResult) (s : PagedState) :
    searchBody page s = (decide page.HasMore, (searchPaged page s).2) := by
  by_cases h : page.Succeeds
  · have hmore : page.HasMore ↔ page.cookieValue ≠ [] := and_iff_right h
    have hfst : (searchPaged page s).1 = true := by rw [searchPaged_of_succeeds h]
    simp [searchBody, hfst, morePages_searchPaged h, hmore]
  · have hmore : ¬page.HasMore := fun hmore => h hmore.1
    simp [searchBody, searchPaged_of_not_succeeds h, hmore]

theorem goesOn_searchBody_iff : GoesOn searchBody pages s ↔ ∀ page ∈ pages, page.HasMore := by
  induction pages generalizing s with
  | nil => exact iff_of_true trivial nofun
  | cons page pages ih =>
    rw [GoesOn, ih, List.forall_mem_cons, searchBody_eq, decide_eq_true_iff]

/-- Each page control has the cookie of the page before. -/
theorem pageControls_afterAnswers (h : ∀ page ∈ pages, page.HasMore) :
    (afterAnswers searchBody pages s).pageControls ++
        [(afterAnswers searchBody pages s).cookie.map Cookie.value] =
      s.pageControls ++ s.cookie.map Cookie.value ::
        pages.map fun page => some page.cookieValue := by
  induction pages generalizing s with
  | nil => rfl
  | cons page pages ih =>
    obtain ⟨hpage, hpages⟩ := List.forall_mem_cons.1 h
    obtain ⟨-, hcontrols, hcookie⟩ := (searchPagedInternal_exit page s).of_succeeds hpage.1
    rw [if_neg hpage.2] at hcookie
    rw [afterAnswers_cons, ih hpages, searchBody_eq, searchPaged_of_succeeds hpage.1, hcontrols,
      hcookie, List.append_assoc]
    rfl

end

/-! ## All or nothing -/

/-- The entries of some pages together, by their DNs. -/
def unionOfEntries (pages : List PageResult) : QHash String AdObject :=
  (pages.flatMap PageResult.entries).foldl (fun results entry =>
    results.insert entry.1 ⟨entry.1, entry.2⟩) []

section
variable {page : PageResult} {pages rest : List PageResult} {s s' : PagedState}

theorem lookup_foldl_insert (entries : List (String × QHash String (List QByteArray)))
    (hash : QHash String AdObject) (dn : String) :
    (entries.foldl (fun (results : QHash String AdObject) entry =>
      results.insert entry.1 ⟨entry.1, entry.2⟩) hash).lookup dn =
        ((entries.reverse.lookup dn).map (AdObject.mk dn)).or (hash.lookup dn) := by
  induction entries generalizing hash with
  | nil => rfl
  | cons entry entries ih =>
    rw [List.foldl_cons, ih, QHash.lookup_insert, List.reverse_cons, List.lookup_append,
      List.lookup_cons, List.lookup_nil]
    cases List.lookup dn entries.reverse with
    | some attributes => rfl
    | none =>
      by_cases hdn : dn = entry.1
      · simp [hdn]
      · simp [hdn, beq_eq_false_iff_ne.2 hdn]

/-- Of entries with the same DN, the last one is in the results. -/
theorem lookup_unionOfEntries (pages : List PageResult) (dn : String) :
    (unionOfEntries pages).lookup dn =
      ((pages.flatMap PageResult.entries).reverse.lookup dn).map (AdObject.mk dn) := by
  rw [unionOfEntries, lookup_foldl_insert, List.lookup_nil, Option.or_none]

theorem results_searchBody (page : PageResult) (s : PagedState) :
    (searchBody page s).2.results =
      if page.Succeeds then (s.insertEntries page.entries).results else [] := by
  rw [searchBody_eq]
  split_ifs with h
  · rw [searchPaged_of_succeeds h, ((searchPagedInternal_exit page s).of_succeeds h).1]
  · rw [searchPaged_of_not_succeeds h]

theorem answerLoop_searchBody (h : answerLoop searchBody pages s = some (s', rest)) :
    s'.results = searchResultsFrom s.results (pages.map PageResult.answer) := by
  induction pages generalizing s with
  | nil => cases h
  | cons page pages ih =>
    have hresults := results_searchBody page s
    by_cases hmore : page.HasMore
    · rw [if_pos hmore.1] at hresults
      have hgo : (searchBody page s).1 = true := by rw [searchBody_eq, decide_eq_true hmore]
      rw [answerLoop_cons_of_goesOn hgo] at h
      rw [ih h, hresults, List.map_cons, PageResult.answer, if_pos hmore.1, searchResultsFrom]
      simp [hmore.2, PagedState.insertEntries]
    · have hbreak : (searchBody page s).1 = false := by rw [searchBody_eq, decide_eq_false hmore]
      rw [answerLoop_cons_of_break hbreak] at h
      cases h
      rw [hresults, List.map_cons, PageResult.answer]
      split_ifs with hpage
      · have hvalue : page.cookieValue = [] := not_not.1 fun hne => hmore ⟨hpage, hne⟩
        simp [searchResultsFrom, hvalue, PagedState.insertEntries]
      · rfl

/-- The results are those of the outcomes of the pages. -/
theorem searchResults_answers (h : search pages = some (s, rest)) :
    s.results = searchResults (pages.map PageResult.answer) := by
  obtain ⟨⟨s', rest'⟩, hloop, heq⟩ := Option.map_eq_some_iff.1 h
  cases heq
  rw [PagedState.destroyCookie, PagedState.results_berBvfree, answerLoop_searchBody hloop]
  rfl

/-- Each page is asked for with the cookie of the page before. -/
theorem pageControls_search (h : search pages = some (s, rest)) :
    ∃ front last, pages = front ++ last :: rest ∧
      s.pageControls <+: none :: front.map fun page => some page.cookieValue := by
  obtain ⟨⟨s', rest'⟩, hloop, heq⟩ := Option.map_eq_some_iff.1 h
  cases heq
  obtain ⟨front, last, rfl, hgo, hlast⟩ := answerLoop_eq_some_iff.1 hloop
  have hcontrols := pageControls_afterAnswers (s := .new) (goesOn_searchBody_iff.1 hgo)
  refine ⟨front, last, rfl, ?_⟩
  rw [PagedState.destroyCookie, PagedState.pageControls_berBvfree]
  have hs : s' = (searchPaged last (afterAnswers searchBody front .new)).2 := by
    rw [searchBody_eq] at hlast
    exact (congrArg Prod.snd hlast).symm
  rw [hs, pageControls_searchPaged]
  exact (searchPagedInternal_exit _ _).pageControls.trans
    ⟨[], (List.append_nil _).trans hcontrols⟩

end

end Admc
