import Admc.Interface.PagedSearch
import Admc.Policy.Refresh
import Mathlib.Algebra.GroupWithZero.Nat

/-!
# The cookies of a search

The cookie of a page is released by the search of the page that follows. If this page fails,
`AdCookie` has the cookie still, and releases it again.

* `cookies_clean_iff`: what is allocated is released once, and not used afterwards, just if no
  page fails that is asked for after another one, in `AdInterface::search` and in a thread;
* `searchThread_emitted`: the results that the thread emits.
-/

namespace Admc

open TokenEvent

/-! ## The thread -/

/-- What the loop of `SearchThread::run` changes. -/
structure SearchThreadState where
  paged : PagedState
  totalResultsCount : ℤ
  hitObjectDisplayLimit : Bool
  emitted : List (QHash String AdObject)

/-- The state before the loop. -/
def SearchThreadState.new : SearchThreadState := ⟨.new, 0, false, []⟩

/-- What comes to the thread with a page: its results, and whether the thread is stopped then. -/
structure ThreadPage where
  result : PageResult
  stopFlag : Bool

section
variable (objectDisplayLimit : ℤ)

/-- The loop of `SearchThread::run`, for one page. -/
def searchThreadBody (page : ThreadPage) (s : SearchThreadState) : Bool × SearchThreadState :=
  let (success, paged) := searchPaged page.result { s.paged with results := [] }
  let totalResultsCount := s.totalResultsCount + paged.results.length
  let s := { s with paged := paged, totalResultsCount := totalResultsCount }
  if totalResultsCount > objectDisplayLimit then (false, { s with hitObjectDisplayLimit := true })
  else
    let s := { s with emitted := s.emitted ++ [paged.results] }
    let searchInterrupted := !success || page.stopFlag
    if searchInterrupted then (false, s) else (paged.morePages, s)

/-- `SearchThread::run`, once it is connected, with the pages that have not been asked for. -/
def searchThread (pages : List ThreadPage) : Option (SearchThreadState × List ThreadPage) :=
  (answerLoop (searchThreadBody objectDisplayLimit) pages .new).map fun (s, rest) =>
    ({ s with paged := s.paged.destroyCookie }, rest)

end

/-! ## Ownership -/

namespace PagedState

/-- The token of a cookie, if there is one. -/
def tokens (cookie : Option Cookie) : Set ℕ := { t | ∃ c ∈ cookie, c.token = t }

@[simp] theorem tokens_none : tokens none = ∅ := by ext; simp [tokens]

@[simp] theorem tokens_some (c : Cookie) : tokens (some c) = {c.token} := by
  ext
  simp [tokens, eq_comm]

/-- The tokens that are live are those given, and those to come are new. -/
structure Owns (s : PagedState) (live : Set ℕ) : Prop where
  owned : Owned s.events live
  lt_next : ∀ e ∈ s.events, e.token < s.next

variable {s : PagedState} {live : Set ℕ} {cookie : Option Cookie}

theorem Owns.token_lt (h : s.Owns live) {t : ℕ} (ht : t ∈ live) : t < s.next :=
  h.lt_next _ (h.owned.of_mem_live ht).1

theorem owns_new : new.Owns ∅ := ⟨.nil, nofun⟩

theorem Owns.allocate (h : s.Owns live) : s.allocate.Owns (insert s.next live) := by
  refine ⟨h.owned.allocate fun e he => (h.lt_next e he).ne, fun e he => ?_⟩
  rcases List.mem_append.1 he with he | he
  · exact (h.lt_next e he).trans s.next.lt_succ_self
  · rw [List.mem_singleton.1 he]
    exact s.next.lt_succ_self

theorem Owns.createPageControl (h : s.Owns live) (hcookie : tokens cookie ⊆ live) :
    (s.createPageControl cookie).Owns live := by
  cases cookie with
  | none => exact ⟨by simpa [PagedState.createPageControl] using h.owned,
      by simpa [PagedState.createPageControl] using h.lt_next⟩
  | some c =>
    have hc : c.token ∈ live := hcookie (by simp)
    refine ⟨h.owned.use hc, fun e he => ?_⟩
    rcases List.mem_append.1 he with he | he
    · exact h.lt_next e he
    · rw [List.mem_singleton.1 he]
      exact h.token_lt hc

theorem Owns.insertEntries (h : s.Owns live)
    (entries : List (String × QHash String (List QByteArray))) :
    (s.insertEntries entries).Owns live := ⟨h.owned, h.lt_next⟩

theorem Owns.berBvfree {c : Option Cookie} (h : s.Owns live) (hcookie : tokens c ⊆ live) :
    (s.berBvfree c).Owns (live \ tokens c) := by
  cases c with
  | none => simpa using h
  | some c =>
    have hc : c.token ∈ live := hcookie (by simp)
    rw [tokens_some]
    refine ⟨h.owned.release hc, fun e he => ?_⟩
    rcases List.mem_append.1 he with he | he
    · exact h.lt_next e he
    · rw [List.mem_singleton.1 he]
      exact h.token_lt hc

theorem events_berBvfree : (s.berBvfree cookie).events =
    s.events ++ (cookie.map fun c => TokenEvent.release c.token).toList := by
  cases cookie with
  | none => exact (List.append_nil _).symm
  | some c => rfl

@[simp] theorem berBvfree_setCookie (c : Option Cookie) :
    (s.setCookie c).berBvfree cookie = (s.berBvfree cookie).setCookie c := by
  cases cookie <;> rfl

@[simp] theorem cookie_setCookie (c : Option Cookie) : (s.setCookie c).cookie = c := rfl

@[simp] theorem next_allocate : s.allocate.next = s.next + 1 := rfl

theorem Owns.setCookie (h : s.Owns live) (c : Option Cookie) : (s.setCookie c).Owns live :=
  ⟨h.owned, h.lt_next⟩

end PagedState

section
open PagedState
variable {page : PageResult} {s : PagedState} {out : Bool × PagedState} {cookie : Option Cookie}

/-- Of the cookie before and the new one, the new one is left. -/
theorem PagedState.Owns.allocate_berBvfree (h : s.Owns (tokens cookie)) :
    (s.allocate.berBvfree cookie).Owns {s.next} := by
  have hnew : s.next ∉ tokens cookie := fun hmem => lt_irrefl _ (h.token_lt hmem)
  have howns := h.allocate.berBvfree (Set.subset_insert s.next (tokens cookie))
  rwa [Set.insert_sdiff_of_notMem _ hnew, Set.sdiff_self, insert_empty_eq] at howns

theorem PagedState.Owns.allocate_allocate_berBvfree (h : s.Owns (tokens cookie)) :
    (s.allocate.allocate.berBvfree cookie).Owns {s.next + 1, s.next} := by
  have hnew : s.next ∉ tokens cookie := fun hmem => lt_irrefl _ (h.token_lt hmem)
  have hnew' : s.next + 1 ∉ tokens cookie := fun hmem =>
    absurd (h.token_lt hmem) (Nat.not_lt.2 s.next.le_succ)
  have howns := h.allocate.allocate.berBvfree
    ((Set.subset_insert s.next (tokens cookie)).trans (Set.subset_insert (s.next + 1) _))
  rwa [next_allocate, Set.insert_sdiff_of_notMem _ hnew',
    Set.insert_sdiff_of_notMem _ hnew, Set.sdiff_self, insert_empty_eq] at howns

/-- A page that succeeds leaves the next cookie live, and one that fails none. -/
theorem PageExit.owns (h : PageExit page s out) (howns : s.Owns (tokens s.cookie)) :
    out.2.Owns (if page.Succeeds then tokens out.2.cookie else ∅) := by
  have hfound : (s.found page).Owns (tokens s.cookie) :=
    (howns.createPageControl subset_rfl).insertEntries page.entries
  cases h with
  | noControl h => simpa [h] using howns.berBvfree subset_rfl
  | noSearch h => simpa [h] using (howns.createPageControl subset_rfl).berBvfree subset_rfl
  | noResult h => simpa [h] using hfound.berBvfree subset_rfl
  | noResponse h value =>
    have hfree := hfound.allocate_berBvfree.berBvfree (c := some ((s.found page).nextCookie value))
      (by simp [nextCookie])
    simpa [h, nextCookie] using hfree
  | missing h hvalue =>
    have hfree := (hfound.berBvfree subset_rfl).setCookie none
    simpa [h] using hfree
  | last h hvalue =>
    have hfree := (hfound.allocate_berBvfree.berBvfree
      (c := some ((s.found page).nextCookie [])) (by simp [nextCookie])).setCookie none
    simpa [h, nextCookie] using hfree
  | more h hvalue =>
    -- the value is copied to a cookie of its own before the one that was read is freed
    have hne : (s.found page).next + 1 ∉ ({(s.found page).next} : Set ℕ) :=
      fun h => absurd h (Nat.succ_ne_self _)
    have hfree := (hfound.allocate_allocate_berBvfree.berBvfree
      (c := some ((s.found page).nextCookie page.cookieValue))
      (by simp [nextCookie])).setCookie (some ((s.found page).allocate.nextCookie page.cookieValue))
    rw [tokens_some, nextCookie, Set.insert_sdiff_of_notMem _ hne, Set.sdiff_self,
      insert_empty_eq] at hfree
    simpa [h, nextCookie] using hfree

/-- The events of the search of a page come after those before. -/
theorem PageExit.events (h : PageExit page s out) : s.events <+: out.2.events := by
  cases h with
  | _ => simp [events_berBvfree, PagedState.found, PagedState.insertEntries,
      PagedState.createPageControl, PagedState.allocate, PagedState.setCookie]

theorem PageExit.cookie_of_not_succeeds (h : PageExit page s out) (hpage : ¬page.Succeeds) :
    out.2.cookie = s.cookie := by
  cases h with
  | noControl | noSearch | noResult | noResponse =>
    simp [PagedState.found, PagedState.insertEntries, PagedState.createPageControl,
      PagedState.allocate]
  | missing h | last h | more h => exact absurd h hpage

/-- After the search of a page, the cookie is released as it should if the page has succeeded,
    or if there has been none before. -/
theorem clean_destroyCookie_iff (howns : s.Owns (tokens s.cookie)) :
    Clean (searchPaged page s).2.destroyCookie.events ↔ page.Succeeds ∨ s.cookie = none := by
  have hexit := searchPagedInternal_exit page s
  have hout := hexit.owns howns
  by_cases hpage : page.Succeeds
  · rw [if_pos hpage] at hout
    have hfree := hout.berBvfree subset_rfl
    rw [Set.sdiff_self] at hfree
    rw [searchPaged_of_succeeds hpage]
    exact iff_of_true hfree.owned.clean (.inl hpage)
  · rw [if_neg hpage] at hout
    have hcookie := hexit.cookie_of_not_succeeds hpage
    rw [searchPaged_of_not_succeeds hpage, destroyCookie, events_berBvfree, hcookie]
    rcases hprev : s.cookie with _ | c
    · refine iff_of_true ?_ (.inr rfl)
      simpa using hout.owned.clean
    · refine iff_of_false (fun hclean => ?_) (by simp [hpage])
      have hall : TokenEvent.allocate c.token ∈ (searchPagedInternal page s).2.events :=
        hexit.events.subset (howns.owned.of_mem_live (by simp [hprev])).1
      -- the cookie has been released by the search of the page already
      have hone := hout.owned.count_release hall (Set.notMem_empty _)
      have htwo := hclean.releasedOnce c.token (List.mem_append_left _ hall)
      simp [hone] at htwo

end

/-! ## The loops -/

section
open PagedState
variable {π σ : Type} {body : π → σ → Bool × σ} {paged : σ → PagedState} {result : π → PageResult}
  {start : σ} {pages front : List π}

/-- Each turn of a loop is the search of one page, and the loop goes on only if there is another
    page. -/
structure SearchesPages (body : π → σ → Bool × σ) (paged : σ → PagedState)
    (result : π → PageResult) : Prop where
  paged_body : ∀ page s, ∃ results,
    paged (body page s).2 = (searchPaged (result page) { paged s with results := results }).2
  hasMore : ∀ page s, (body page s).1 = true → (result page).HasMore

/-- Just one cookie is live between two pages, that of `AdCookie`. -/
theorem SearchesPages.owns (h : SearchesPages body paged result) (hgo : GoesOn body front start)
    (hstart : (paged start).Owns (tokens (paged start).cookie)) :
    (paged (afterAnswers body front start)).Owns
      (tokens (paged (afterAnswers body front start)).cookie) := by
  refine hgo.invariant (P := fun s => (paged s).Owns (tokens (paged s).cookie)) ?_ hstart
  intro page s hs hpage
  obtain ⟨results, hbody⟩ := h.paged_body page s
  have hsucceeds := (h.hasMore page s hpage).1
  have hout := (searchPagedInternal_exit (result page) { paged s with results := results }).owns
    ⟨hs.owned, hs.lt_next⟩
  rw [if_pos hsucceeds] at hout
  rwa [hbody, searchPaged_of_succeeds hsucceeds]

/-- After a page that the loop goes on with, there is a cookie. -/
theorem SearchesPages.cookie_ne_none (h : SearchesPages body paged result)
    (hgo : GoesOn body front start) (hfront : front ≠ []) :
    (paged (afterAnswers body front start)).cookie ≠ none := by
  have hcookie : ∀ page s, (body page s).1 = true → (paged (body page s).2).cookie ≠ none := by
    intro page s hpage hnone
    obtain ⟨results, hbody⟩ := h.paged_body page s
    obtain ⟨hsucceeds, hvalue⟩ := h.hasMore page s hpage
    have hmore := morePages_searchPaged (s := { paged s with results := results }) hsucceeds
    rw [← hbody, PagedState.morePages, hnone, decide_eq_true hvalue] at hmore
    exact Bool.false_ne_true hmore
  cases front with
  | nil => exact absurd rfl hfront
  | cons page front =>
    rw [afterAnswers_cons]
    refine GoesOn.invariant (P := fun s => (paged s).cookie ≠ none) ?_ hgo.2
      (hcookie page start hgo.1)
    exact fun page s _ hpage => hcookie page s hpage

/-- All cookies are released as they should just if no page fails that comes after others. -/
theorem SearchesPages.clean_iff (h : SearchesPages body paged result)
    (hstart : paged start = .new) :
    (∀ out, answerLoop body pages start = some out → Clean (paged out.1).destroyCookie.events) ↔
      ∀ front page rest, pages = front ++ page :: rest → front ≠ [] → GoesOn body front start →
        (result page).Succeeds := by
  have howns : (paged start).Owns (tokens (paged start).cookie) := by
    rw [hstart]
    simpa [PagedState.new] using owns_new
  have hclean : ∀ front page s, GoesOn body front start →
      (body page (afterAnswers body front start)).2 = s →
      (Clean (paged s).destroyCookie.events ↔ (result page).Succeeds ∨
        (paged (afterAnswers body front start)).cookie = none) := by
    rintro front page _ hgo rfl
    obtain ⟨results, hbody⟩ := h.paged_body page (afterAnswers body front start)
    have hfront := h.owns hgo howns
    rw [hbody]
    exact clean_destroyCookie_iff ⟨hfront.owned, hfront.lt_next⟩
  constructor
  · -- a page that fails stops the loop, and the cookie that is left has been freed
    rintro hall front page rest rfl hne hgo
    by_contra hfail
    have hbreak : (body page (afterAnswers body front start)).1 = false := by
      rw [← Bool.not_eq_true]
      exact fun hmore => hfail (h.hasMore page _ hmore).1
    have hloop : answerLoop body (front ++ page :: rest) start = some (_, rest) :=
      answerLoop_eq_some_iff.2 ⟨front, page, rfl, hgo, Prod.ext hbreak rfl⟩
    have hend := (hclean front page _ hgo rfl).1 (hall _ hloop)
    exact hend.elim hfail (h.cookie_ne_none hgo hne)
  · -- the last page succeeds, unless it is the first one, which has no cookie
    rintro hall ⟨s, rest⟩ hloop
    obtain ⟨front, last, rfl, hgo, hlast⟩ := answerLoop_eq_some_iff.1 hloop
    refine (hclean front last s hgo (congrArg Prod.snd hlast)).2 ?_
    cases front with
    | nil => exact .inr (by rw [show afterAnswers body [] start = start from rfl, hstart]; rfl)
    | cons page front => exact .inl (hall _ last rest rfl (List.cons_ne_nil _ _) hgo)

end

/-! ## Each of the searches -/

theorem forall_map_eq_some {α β : Type} {x : Option α} {f : α → β} {p : β → Prop} :
    (∀ b, x.map f = some b → p b) ↔ ∀ a, x = some a → p (f a) := by
  cases x <;> simp

section
variable {front pages : List PageResult} {objectDisplayLimit : ℤ} {threadFront : List ThreadPage}
  {s : SearchThreadState}

theorem searchesPages_searchBody : SearchesPages searchBody id id where
  paged_body page s := ⟨s.results, by rw [searchBody_eq]; rfl⟩
  hasMore page s h := by rwa [searchBody_eq, decide_eq_true_iff] at h

/-- The number of results of a page. -/
def PageResult.resultsCount (page : PageResult) : ℕ := (unionOfEntries [page]).length

theorem results_searchPaged_nil (page : PageResult) (s : PagedState) :
    (searchPaged page { s with results := [] }).2.results =
      if page.Succeeds then unionOfEntries [page] else [] := by
  split_ifs with h
  · rw [searchPaged_of_succeeds h, ((searchPagedInternal_exit page _).of_succeeds h).1,
      unionOfEntries, List.flatMap_singleton]
    rfl
  · rw [searchPaged_of_not_succeeds h]

theorem paged_searchThreadBody (page : ThreadPage) (s : SearchThreadState) :
    (searchThreadBody objectDisplayLimit page s).2.paged =
      (searchPaged page.result { s.paged with results := [] }).2 := by
  simp only [searchThreadBody]
  split_ifs <;> rfl

/-- The thread goes on after a page that has more pages behind it, unless it is stopped, or
    there are too many results. -/
theorem searchThreadBody_fst_iff (page : ThreadPage) (s : SearchThreadState) :
    (searchThreadBody objectDisplayLimit page s).1 = true ↔
      page.result.HasMore ∧ page.stopFlag = false ∧
        s.totalResultsCount + page.result.resultsCount ≤ objectDisplayLimit := by
  have hresults := results_searchPaged_nil page.result s.paged
  by_cases hpage : page.result.Succeeds
  · have hmore : page.result.HasMore ↔ page.result.cookieValue ≠ [] := and_iff_right hpage
    have hpaged := morePages_searchPaged (s := { s.paged with results := [] }) hpage
    have hfst : (searchPaged page.result { s.paged with results := [] }).1 = true := by
      rw [searchPaged_of_succeeds hpage]
    rw [if_pos hpage] at hresults
    simp only [searchThreadBody, hresults, hfst, hpaged, hmore, PageResult.resultsCount]
    split_ifs with hlimit hstop
    · simp [Int.not_le.2 hlimit]
    · simp_all
    · simp_all
  · have hfst : (searchPaged page.result { s.paged with results := [] }).1 = false := by
      rw [searchPaged_of_not_succeeds hpage]
    refine iff_of_false (fun h => ?_) fun h => hpage h.1.1
    simp only [searchThreadBody, hfst, Bool.not_false, Bool.true_or, if_true] at h
    split_ifs at h

theorem searchesPages_searchThreadBody :
    SearchesPages (searchThreadBody objectDisplayLimit) SearchThreadState.paged
      ThreadPage.result where
  paged_body page s := ⟨[], paged_searchThreadBody page s⟩
  hasMore page s h := ((searchThreadBody_fst_iff page s).1 h).1

theorem totalResultsCount_searchThreadBody {page : ThreadPage} (h : page.result.Succeeds) :
    (searchThreadBody objectDisplayLimit page s).2.totalResultsCount =
      s.totalResultsCount + page.result.resultsCount := by
  have hresults := results_searchPaged_nil page.result s.paged
  rw [if_pos h] at hresults
  simp only [searchThreadBody, hresults, PageResult.resultsCount]
  split_ifs <;> rfl

/-- The results of some pages, page by page. -/
def threadResultsCount (pages : List ThreadPage) : ℕ :=
  (pages.map fun page => page.result.resultsCount).sum

theorem goesOn_searchThreadBody_iff (hfront : threadFront ≠ []) :
    GoesOn (searchThreadBody objectDisplayLimit) threadFront s ↔
      (∀ page ∈ threadFront, page.result.HasMore ∧ page.stopFlag = false) ∧
        s.totalResultsCount + threadResultsCount threadFront ≤ objectDisplayLimit := by
  induction threadFront generalizing s with
  | nil => exact absurd rfl hfront
  | cons page front ih =>
    rw [GoesOn, searchThreadBody_fst_iff, List.forall_mem_cons, threadResultsCount, List.map_cons,
      List.sum_cons]
    cases front with
    | nil => simp [GoesOn, and_assoc]
    | cons page' front =>
      constructor
      · rintro ⟨⟨hmore, hstop, hcount⟩, hgo⟩
        obtain ⟨hrest, htotal⟩ := (ih (List.cons_ne_nil _ _)).1 hgo
        rw [totalResultsCount_searchThreadBody hmore.1, threadResultsCount] at htotal
        exact ⟨⟨⟨hmore, hstop⟩, hrest⟩, by omega⟩
      · rintro ⟨⟨⟨hmore, hstop⟩, hrest⟩, htotal⟩
        refine ⟨⟨hmore, hstop, by omega⟩, (ih (List.cons_ne_nil _ _)).2 ⟨hrest, ?_⟩⟩
        rw [totalResultsCount_searchThreadBody hmore.1, threadResultsCount]
        omega

/-- The results of a page are emitted, unless there are too many. -/
theorem emitted_searchThreadBody (page : ThreadPage) (s : SearchThreadState) :
    let results := if page.result.Succeeds then unionOfEntries [page.result] else []
    (searchThreadBody objectDisplayLimit page s).2.emitted = s.emitted ++
      if s.totalResultsCount + results.length > objectDisplayLimit then [] else [results] := by
  simp only [searchThreadBody, results_searchPaged_nil]
  split_ifs <;> simp

theorem unionOfEntries_singleton (page : PageResult) : unionOfEntries [page] =
    page.entries.foldl (fun (results : QHash String AdObject) entry =>
      results.insert entry.1 ⟨entry.1, entry.2⟩) [] := by
  rw [unionOfEntries, List.flatMap_singleton]

/-- What is emitted if the thread is not stopped. -/
theorem emitted_answerLoop {pages rest : List ThreadPage} {s' : SearchThreadState}
    (hstop : ∀ page ∈ pages, page.stopFlag = false)
    (h : answerLoop (searchThreadBody objectDisplayLimit) pages s = some (s', rest)) :
    s'.emitted = s.emitted ++ searchThreadRun objectDisplayLimit s.totalResultsCount
      (pages.map fun page => page.result.answer) := by
  induction pages generalizing s with
  | nil => cases h
  | cons page pages ih =>
    obtain ⟨hpage, hpages⟩ := List.forall_mem_cons.1 hstop
    have hemitted : (searchThreadBody objectDisplayLimit page s).2.emitted = _ :=
      emitted_searchThreadBody page s
    have hgo : (searchThreadBody objectDisplayLimit page s).1 = true ↔ _ :=
      searchThreadBody_fst_iff page s
    rw [hpage, PageResult.resultsCount] at hgo
    cases hbody : (searchThreadBody objectDisplayLimit page s).1
    · -- the page failed, or reached the limit, or was the last one
      rw [answerLoop_cons_of_break hbody] at h
      cases h
      rw [hbody] at hgo
      rw [hemitted, List.map_cons, PageResult.answer]
      split_ifs with hsucceeds hlimit hlimit
      · simp [searchThreadRun, ← unionOfEntries_singleton, hlimit]
      · have hnone : page.result.cookieValue = [] := by
          by_contra hvalue
          exact Bool.false_ne_true (hgo.2 ⟨⟨hsucceeds, hvalue⟩, rfl, Int.not_lt.1 hlimit⟩)
        simp [searchThreadRun, ← unionOfEntries_singleton, hlimit, hnone]
      · simp_all [searchThreadRun]
      · simp_all [searchThreadRun]
    · obtain ⟨hmore, -, hlimit⟩ := hgo.1 hbody
      rw [answerLoop_cons_of_goesOn hbody] at h
      rw [ih hpages h, hemitted, if_pos hmore.1, if_neg (Int.not_lt.2 hlimit),
        totalResultsCount_searchThreadBody hmore.1, List.map_cons, PageResult.answer,
        if_pos hmore.1]
      simp [searchThreadRun, ← unionOfEntries_singleton, Int.not_lt.2 hlimit, hmore.2,
        PageResult.resultsCount]

/-- What is allocated for cookies is released once, and not used after that, just if no page
    fails that is asked for after another one. -/
theorem cookies_clean_iff (pages : List PageResult) (objectDisplayLimit : ℤ)
    (threadPages : List ThreadPage) :
    ((∀ out, search pages = some out → Clean out.1.events) ↔
      ∀ front page rest, pages = front ++ page :: rest → front ≠ [] →
        (∀ page ∈ front, page.HasMore) → page.Succeeds) ∧
    ((∀ out, searchThread objectDisplayLimit threadPages = some out → Clean out.1.paged.events) ↔
      ∀ front page rest, threadPages = front ++ page :: rest → front ≠ [] →
        (∀ page ∈ front, page.result.HasMore ∧ page.stopFlag = false) →
        threadResultsCount front ≤ objectDisplayLimit → page.result.Succeeds) := by
  constructor
  · rw [search, forall_map_eq_some]
    refine (searchesPages_searchBody.clean_iff rfl).trans ?_
    simp only [goesOn_searchBody_iff, id]
  · rw [searchThread, forall_map_eq_some]
    refine (searchesPages_searchThreadBody.clean_iff rfl).trans ?_
    refine forall₅_congr fun front page rest _ hne => ?_
    rw [goesOn_searchThreadBody_iff hne, and_imp, SearchThreadState.new, Int.zero_add]

/-- What a thread emits that is not stopped. -/
theorem searchThread_emitted {pages rest : List ThreadPage}
    (hstop : ∀ page ∈ pages, page.stopFlag = false)
    (h : searchThread objectDisplayLimit pages = some (s, rest)) :
    s.emitted =
      searchThreadRun objectDisplayLimit 0 (pages.map fun page => page.result.answer) := by
  obtain ⟨⟨s', rest'⟩, hloop, heq⟩ := Option.map_eq_some_iff.1 h
  cases heq
  exact emitted_answerLoop hstop hloop

end

/-! ## A server that is lost after the first page -/

/-- A page with another one behind it. -/
def firstPage : PageResult := ⟨0, 0, 0, [], 0, some (0, [1])⟩

/-- A page for which the server does not answer any more. -/
def lostPage : PageResult := ⟨0, 0, -1, [], 0, none⟩

/-- The cookie of the first page is released by the search of the second one, and again with
    `AdCookie`. -/
theorem not_clean_lostPage :
    (∃ out, search [firstPage, lostPage] = some out ∧ ¬Clean out.1.events) ∧
    ∃ out, searchThread 1000 [⟨firstPage, false⟩, ⟨lostPage, false⟩] = some out ∧
      ¬Clean out.1.paged.events :=
  ⟨⟨_, rfl, fun h => absurd (h.releasedOnce 1 (by decide)) (by decide)⟩,
    ⟨_, rfl, fun h => absurd (h.releasedOnce 1 (by decide)) (by decide)⟩⟩

end Admc
