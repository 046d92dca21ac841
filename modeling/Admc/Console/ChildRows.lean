import Mathlib.Data.Int.Notation
import Mathlib.Data.List.Nodup
import Mathlib.Logic.Function.Basic
import Admc.Lib.Run

/-!
# The child rows of a container

The rows below a container are added by searches, which run in threads of their own, and when
objects are created. The results of a search come in pages, whose signals are queued. The item
has the number of the search that has been started last, and the signals of the others are
passed over.

What has a row and what is queued is what the search has returned, and what has been created
since it was started (`Accounts`). So there is one row for each object once the search has
finished, unless the search has returned an object that has been created meanwhile
(`oneRowEach_iff`).
-/

namespace Admc

/-! ## Searches -/

/-- A signal of a search. -/
inductive SearchSignal
  | resultsReady (results : List String)
  | finished

/-- The results that come with a signal. -/
def SearchSignal.results : SearchSignal → List String
  | resultsReady results => results
  | finished => []

/-- `SearchThread`, with its signals that are queued. The DNs of the objects that were in the
    container when it was started, and of those in the results that have been ready, are
    recorded. -/
structure SearchThread where
  objectDisplayLimit : ℤ
  totalResultsCount : ℕ
  stopFlag : Bool
  failedToConnect : Bool
  hitObjectDisplayLimit : Bool
  searchFailed : Bool
  isRunning : Bool
  queued : List SearchSignal
  existing : List String
  returned : List String

namespace SearchThread

/-- A search that has been started. -/
def started (objectDisplayLimit : ℤ) (objects : List String) : SearchThread where
  objectDisplayLimit := objectDisplayLimit
  totalResultsCount := 0
  stopFlag := false
  failedToConnect := false
  hitObjectDisplayLimit := false
  searchFailed := false
  isRunning := true
  queued := []
  existing := objects
  returned := []

variable (thread : SearchThread)

/-- `SearchThread::run` is left. -/
def finish : SearchThread :=
  { thread with isRunning := false, queued := thread.queued ++ [.finished] }

/-- A turn of the loop of `SearchThread::run`, with what `AdInterface::search_paged` returns. -/
def turn (success morePages : Bool) (results : List String) : SearchThread :=
  let thread :=
    { thread with totalResultsCount := thread.totalResultsCount + results.length }
  if thread.objectDisplayLimit < thread.totalResultsCount then
    -- the results of this turn are dropped
    finish { thread with hitObjectDisplayLimit := true }
  else
    let thread :=
      { thread with
        queued := thread.queued ++ [.resultsReady results]
        returned := thread.returned ++ results
        searchFailed := !success }
    if !success || thread.stopFlag || !morePages then thread.finish else thread

/-- The results that are queued. -/
def pending : List String := thread.queued.flatMap SearchSignal.results

/-- The search has been left, and no error will be displayed. -/
structure HasSucceeded : Prop where
  isRunning : thread.isRunning = false
  failedToConnect : thread.failedToConnect = false
  hitObjectDisplayLimit : thread.hitObjectDisplayLimit = false
  searchFailed : thread.searchFailed = false

end SearchThread

/-! ## The item of a container -/

/-- The item of a container, the DNs of its child rows and of the objects that are in the
    container, and the searches that have been started on it. -/
structure SearchedItem where
  objects : List String
  rows : List String
  wasFetched : Bool
  isFetching : Bool
  searchThreadId : ℕ
  idMax : ℕ
  threads : ℕ → Option SearchThread

namespace SearchedItem

section
variable (s : SearchedItem)

/-- A search has changed. -/
def setThread (id : ℕ) (thread : SearchThread) : SearchedItem :=
  { s with threads := Function.update s.threads id (some thread) }

/-- `ConsoleObjectTreeOperations::console_object_search`. -/
def consoleObjectSearch (objectDisplayLimit : ℤ) : SearchedItem :=
  { s.setThread s.idMax (.started objectDisplayLimit s.objects) with
    isFetching := true
    searchThreadId := s.idMax
    idMax := s.idMax + 1 }

/-- `ConsoleWidgetPrivate::fetch_scope`. -/
def fetchScope (objectDisplayLimit : ℤ) : SearchedItem :=
  if s.wasFetched then s else consoleObjectSearch { s with wasFetched := true } objectDisplayLimit

/-- `ObjectImpl::refresh`. -/
def refresh (objectDisplayLimit : ℤ) : SearchedItem :=
  consoleObjectSearch { s with rows := [] } objectDisplayLimit

/-- `ConsoleObjectTreeOperations::add_objects_to_console`. -/
def addObjectsToConsole (objectList : List String) : SearchedItem :=
  if !s.wasFetched then s else { s with rows := s.rows ++ objectList }

/-- The first signal of a search that is queued is delivered: the slots in
    `ConsoleObjectTreeOperations::console_object_search`. -/
def deliver (id : ℕ) : SearchedItem :=
  match s.threads id with
  | none => s
  | some thread =>
    match thread.queued with
    | [] => s
    | .resultsReady results :: queued =>
      -- another search was started for this item
      if s.searchThreadId ≠ id then
        s.setThread id { thread with queued := queued, stopFlag := true }
      else
        (s.setThread id { thread with queued := queued }).addObjectsToConsole results
    | .finished :: queued =>
      let s := s.setThread id { thread with queued := queued }
      if s.searchThreadId ≠ id then s else { s with isFetching := false }

/-- An object is created in the container, with
    `ConsoleObjectTreeOperations::add_objects_to_console_from_dn_list`. An object that is not
    found is empty, and left out. -/
def create (dn : String) (found : Bool) : SearchedItem :=
  addObjectsToConsole { s with objects := s.objects ++ [dn] } (if found then [dn] else [])

end

/-- What happens: the item is fetched or refreshed, a search cannot connect or gets an answer, a
    signal is delivered, or an object is created. -/
inductive Event
  | fetchScope (objectDisplayLimit : ℤ)
  | refresh (objectDisplayLimit : ℤ)
  | failToConnect (id : ℕ)
  | answer (id : ℕ) (success morePages : Bool) (results : List String)
  | deliver (id : ℕ)
  | create (dn : String) (found : Bool)

/-- What an event does. -/
def handle (s : SearchedItem) : Event → SearchedItem
  | .fetchScope objectDisplayLimit => s.fetchScope objectDisplayLimit
  | .refresh objectDisplayLimit => s.refresh objectDisplayLimit
  | .failToConnect id =>
    match s.threads id with
    | none => s
    | some thread => s.setThread id (SearchThread.finish { thread with failedToConnect := true })
  | .answer id success morePages results =>
    match s.threads id with
    | none => s
    | some thread => s.setThread id (thread.turn success morePages results)
  | .deliver id => s.deliver id
  | .create dn found => s.create dn found

/-- What the server answers to a search: objects of the container that have not been returned,
    each once, and all that were there when it was started once there are no more pages. -/
structure Answers (s : SearchedItem) (thread : SearchThread) (success morePages : Bool)
    (results : List String) : Prop where
  nodup : results.Nodup
  mem_objects : ∀ dn ∈ results, dn ∈ s.objects
  not_returned : ∀ dn ∈ results, dn ∉ thread.returned
  all_returned : success = true → morePages = false →
    ∀ dn ∈ thread.existing, dn ∈ thread.returned ∨ dn ∈ results

/-- A search goes on while it is running, as the server answers; a signal that is delivered has
    been queued; and what is created has not been there. -/
def Possible (s : SearchedItem) : Event → Prop
  | .fetchScope _ => True
  | .refresh _ => True
  | .failToConnect id => ∃ thread, s.threads id = some thread ∧ thread.isRunning = true ∧
    thread.totalResultsCount = 0
  | .answer id success morePages results => ∃ thread, s.threads id = some thread ∧
    thread.isRunning = true ∧ s.Answers thread success morePages results
  | .deliver id => ∃ thread, s.threads id = some thread ∧ thread.queued ≠ []
  | .create dn _ => dn ∉ s.objects

/-- Only an item that has been fetched is refreshed, and what is created is found. -/
def IsRegular (s : SearchedItem) : Event → Prop
  | .refresh _ => s.wasFetched = true
  | .create _ found => s.wasFetched = true → found = true
  | _ => True

/-- The search of the item returns no object that has been created since it was started. -/
def SparesCreated (s : SearchedItem) : Event → Prop
  | .answer id _ _ results => id = s.searchThreadId → ∀ thread, s.threads id = some thread →
    ∀ dn ∈ results, dn ∈ thread.existing
  | _ => True

section
variable (s : SearchedItem)

/-- Nothing has been searched yet. -/
structure IsUnfetched : Prop where
  nodup : s.objects.Nodup
  rows : s.rows = []
  wasFetched : s.wasFetched = false
  threads : ∀ id, s.threads id = none

/-- The last search has finished without error. -/
def HasFinished : Prop := ∃ thread, s.threads s.searchThreadId = some thread ∧
  thread.queued = [] ∧ thread.HasSucceeded

/-- Each object of the container has one child row. -/
def OneRowEach : Prop := ∀ dn ∈ s.objects, s.rows.count dn = 1

/-- The objects that have been created since a search was started. -/
def created (thread : SearchThread) : List String :=
  s.objects.filter fun dn => dn ∉ thread.existing

/-! ## What rows there are -/

/-- What is known of the search that has been started last. What has a row, with what is queued,
    is what the search has returned, with what has been created since it was started. -/
structure Accounts (thread : SearchThread) : Prop where
  wasFetched : s.wasFetched = true
  stopFlag : thread.stopFlag = false
  existing : ∀ dn ∈ thread.existing, dn ∈ s.objects
  nodup : thread.returned.Nodup
  returned : ∀ dn ∈ thread.returned, dn ∈ s.objects
  all_returned : thread.HasSucceeded → ∀ dn ∈ thread.existing, dn ∈ thread.returned
  rows : (s.rows ++ thread.pending).Perm (thread.returned ++ s.created thread)

/-- No rows are there before the first search, and afterwards those that are accounted for. -/
structure Invariant : Prop where
  nodup : s.objects.Nodup
  rows : s.wasFetched = false → s.rows = []
  accounts : ∀ thread, s.threads s.searchThreadId = some thread → s.Accounts thread

end

section
variable {s s' : SearchedItem} {thread : SearchThread} {id : ℕ} {results : List String}
  {event : Event}

/-- What a turn of a search does: either the results are dropped, which is an error, or they are
    queued. -/
theorem turn_cases {success morePages : Bool} (hrunning : thread.isRunning = true) :
    (thread.turn success morePages results).existing = thread.existing ∧
      (thread.turn success morePages results).stopFlag = thread.stopFlag ∧
      ((thread.turn success morePages results).pending = thread.pending ∧
          (thread.turn success morePages results).returned = thread.returned ∧
          ¬(thread.turn success morePages results).HasSucceeded ∨
        (thread.turn success morePages results).pending = thread.pending ++ results ∧
          (thread.turn success morePages results).returned = thread.returned ++ results ∧
          ((thread.turn success morePages results).HasSucceeded → thread.stopFlag = false →
            success = true ∧ morePages = false)) := by
  unfold SearchThread.turn SearchThread.finish SearchThread.pending
  dsimp only
  split_ifs with hlimit hends
  · refine ⟨rfl, rfl, .inl ⟨?_, rfl, fun h => ?_⟩⟩
    · simp [SearchSignal.results]
    · exact absurd h.hitObjectDisplayLimit (by simp)
  · refine ⟨rfl, rfl, .inr ⟨?_, rfl, fun h hstop => ?_⟩⟩
    · simp [SearchSignal.results]
    · have hsuccess : success = true := by simpa using h.searchFailed
      refine ⟨hsuccess, ?_⟩
      simpa [hsuccess, hstop] using hends
  · refine ⟨rfl, rfl, .inr ⟨?_, rfl, fun h => ?_⟩⟩
    · simp [SearchSignal.results]
    · exact absurd (h.isRunning.symm.trans hrunning) (by decide)

/-- The rows and the objects are as they were. -/
theorem Accounts.of_same (h : s.Accounts thread) (hobjects : s'.objects = s.objects)
    (hrows : s'.rows = s.rows) (hfetched : s'.wasFetched = s.wasFetched) : s'.Accounts thread := by
  obtain ⟨hfetched', hstop, hexisting, hnodup, hreturned, hall, hrows'⟩ := h
  rw [← hfetched] at hfetched'
  rw [← hobjects] at hexisting hreturned
  rw [← hrows, created, ← hobjects] at hrows'
  exact ⟨hfetched', hstop, hexisting, hnodup, hreturned, hall, hrows'⟩

theorem Accounts.invariant (h : s.Accounts thread) (hnodup : s.objects.Nodup)
    (hthread : s.threads s.searchThreadId = some thread) : s.Invariant := by
  refine ⟨hnodup, fun hnot => absurd (hnot.symm.trans h.wasFetched) (by decide), ?_⟩
  intro thread' hthread'
  obtain rfl := Option.some.inj (hthread.symm.trans hthread')
  exact h

/-- A new search starts with no rows. -/
theorem invariant_consoleObjectSearch {objectDisplayLimit : ℤ} (hnodup : s.objects.Nodup)
    (hfetched : s.wasFetched = true) (hrows : s.rows = []) :
    (s.consoleObjectSearch objectDisplayLimit).Invariant := by
  have hcreated : s.objects.filter (fun dn => dn ∉ s.objects) = [] :=
    List.filter_eq_nil_iff.2 fun dn hdn => by simpa using hdn
  refine @Accounts.invariant _ (.started objectDisplayLimit s.objects) ?_ hnodup
    (Function.update_self ..)
  refine ⟨hfetched, rfl, fun _ h => h, .nil, nofun, fun h => ?_, ?_⟩
  · exact absurd h.isRunning.symm Bool.false_ne_true
  · show (s.rows ++ []).Perm ([] ++ s.objects.filter fun dn => dn ∉ s.objects)
    rw [hrows, hcreated]

/-- A search that is not the last one. -/
theorem Invariant.setThread_of_ne (h : s.Invariant) (hne : s.searchThreadId ≠ id) :
    (s.setThread id thread).Invariant := by
  refine ⟨h.nodup, h.rows, fun thread' hthread' => ?_⟩
  have hsame : Function.update s.threads id (some thread) s.searchThreadId = some thread' :=
    hthread'
  rw [Function.update_of_ne hne] at hsame
  exact (h.accounts thread' hsame).of_same rfl rfl rfl

theorem Invariant.setThread (h : s.Invariant)
    (haccounts : s.searchThreadId = id → s.Accounts thread) :
    (s.setThread id thread).Invariant := by
  by_cases hid : s.searchThreadId = id
  · have hlast : (s.setThread id thread).Accounts thread := (haccounts hid).of_same rfl rfl rfl
    refine hlast.invariant h.nodup ?_
    show Function.update s.threads id (some thread) s.searchThreadId = some thread
    rw [hid, Function.update_self]
  · exact h.setThread_of_ne hid

theorem Invariant.answer {success morePages : Bool} (h : s.Invariant)
    (hthread : s.threads id = some thread) (hrunning : thread.isRunning = true)
    (hanswers : s.Answers thread success morePages results) :
    (s.setThread id (thread.turn success morePages results)).Invariant := by
  refine h.setThread fun heq => ?_
  have haccounts := h.accounts thread (heq ▸ hthread)
  obtain ⟨hexisting, hstop, ⟨hpending, hreturned, herror⟩ | ⟨hpending, hreturned, hsucceeded⟩⟩ :=
    @turn_cases thread results success morePages hrunning
  · refine ⟨haccounts.wasFetched, hstop.trans haccounts.stopFlag, ?_, ?_, ?_,
      fun hsuccess => absurd hsuccess herror, ?_⟩
    · exact hexisting ▸ haccounts.existing
    · exact hreturned ▸ haccounts.nodup
    · exact hreturned ▸ haccounts.returned
    · rw [hpending, hreturned, created, hexisting]
      exact haccounts.rows
  · refine ⟨haccounts.wasFetched, hstop.trans haccounts.stopFlag, hexisting ▸ haccounts.existing,
      ?_, ?_, fun hsuccess dn hdn => ?_, ?_⟩
    · rw [hreturned]
      exact haccounts.nodup.append hanswers.nodup fun dn hold hnew =>
        hanswers.not_returned dn hnew hold
    · rw [hreturned]
      exact List.forall_mem_append.2 ⟨haccounts.returned, hanswers.mem_objects⟩
    · obtain ⟨hsuccess, hpages⟩ := hsucceeded hsuccess haccounts.stopFlag
      rw [hreturned, List.mem_append]
      exact hanswers.all_returned hsuccess hpages dn (hexisting ▸ hdn)
    · -- the results are returned, and queued
      rw [hpending, hreturned, created, hexisting, ← List.append_assoc]
      have hlast : (thread.returned ++ s.created thread ++ results).Perm
          (thread.returned ++ results ++ s.created thread) := by
        rw [List.append_assoc, List.append_assoc]
        exact List.perm_append_comm.append_left _
      exact (haccounts.rows.append_right results).trans hlast

theorem Invariant.failToConnect (h : s.Invariant) (hthread : s.threads id = some thread) :
    (s.setThread id (SearchThread.finish { thread with failedToConnect := true })).Invariant := by
  refine h.setThread fun heq => ?_
  have haccounts := h.accounts thread (heq ▸ hthread)
  have hpending :
      (SearchThread.finish { thread with failedToConnect := true }).pending = thread.pending := by
    simp [SearchThread.finish, SearchThread.pending, SearchSignal.results]
  refine ⟨haccounts.wasFetched, haccounts.stopFlag, haccounts.existing, haccounts.nodup,
    haccounts.returned, fun hsuccess => ?_, ?_⟩
  · exact absurd hsuccess.failedToConnect.symm Bool.false_ne_true
  · rw [hpending]
    exact haccounts.rows

/-- A signal of the last search, without what is done on it. -/
theorem Accounts.dequeue {signal : SearchSignal} {queued : List SearchSignal}
    (h : s.Accounts thread) (hqueued : thread.queued = signal :: queued) :
    (∀ {dn}, dn ∈ thread.existing → SearchThread.HasSucceeded { thread with queued := queued } →
      dn ∈ thread.returned) ∧
    (s.rows ++ signal.results ++ SearchThread.pending { thread with queued := queued }).Perm
      (thread.returned ++ s.created thread) := by
  refine ⟨fun hdn hsuccess => ?_, ?_⟩
  · exact h.all_returned ⟨hsuccess.isRunning, hsuccess.failedToConnect,
      hsuccess.hitObjectDisplayLimit, hsuccess.searchFailed⟩ _ hdn
  · have hpending : thread.pending = signal.results ++ queued.flatMap SearchSignal.results := by
      rw [SearchThread.pending, hqueued, List.flatMap_cons]
    have hrows := h.rows
    rwa [hpending, ← List.append_assoc] at hrows

/-- The results of the last search are added. -/
theorem Invariant.addObjectsToConsole {queued : List SearchSignal} (h : s.Invariant)
    (hthread : s.threads s.searchThreadId = some thread)
    (hqueued : thread.queued = .resultsReady results :: queued) :
    ((s.setThread s.searchThreadId { thread with queued := queued }).addObjectsToConsole
      results).Invariant := by
  have haccounts := h.accounts thread hthread
  obtain ⟨hreturned, hrows⟩ := haccounts.dequeue hqueued
  set delivered : SearchThread := { thread with queued := queued }
  have hadd : (s.setThread s.searchThreadId delivered).addObjectsToConsole results =
      { s.setThread s.searchThreadId delivered with rows := s.rows ++ results } := by
    have hfetched : ¬(!(s.setThread s.searchThreadId delivered).wasFetched) = true := by
      simp [SearchedItem.setThread, haccounts.wasFetched]
    rw [SearchedItem.addObjectsToConsole, if_neg hfetched]
    rfl
  rw [hadd]
  exact @Accounts.invariant _ delivered ⟨haccounts.wasFetched, haccounts.stopFlag,
    haccounts.existing, haccounts.nodup, haccounts.returned,
    fun hsuccess dn hdn => hreturned hdn hsuccess, hrows⟩ h.nodup (Function.update_self ..)

theorem Invariant.deliver (h : s.Invariant) : (s.deliver id).Invariant := by
  rw [SearchedItem.deliver]
  cases hthread : s.threads id with
  | none => exact h
  | some thread =>
    dsimp only
    cases hqueued : thread.queued with
    | nil => exact h
    | cons signal queued =>
      cases signal with
      | resultsReady results =>
        dsimp only
        split_ifs with hne
        · exact h.setThread_of_ne hne
        · obtain rfl := not_not.1 hne
          exact h.addObjectsToConsole hthread hqueued
      | finished =>
        dsimp only
        have hfinished : (s.setThread id { thread with queued := queued }).Invariant := by
          refine h.setThread fun hid => ?_
          have haccounts := h.accounts thread (hid ▸ hthread)
          obtain ⟨hreturned, hrows⟩ := haccounts.dequeue hqueued
          rw [SearchSignal.results, List.append_nil] at hrows
          exact ⟨haccounts.wasFetched, haccounts.stopFlag, haccounts.existing, haccounts.nodup,
            haccounts.returned, fun hsuccess dn hdn => hreturned hdn hsuccess, hrows⟩
        split_ifs
        · exact hfinished
        · exact ⟨hfinished.nodup, hfinished.rows, fun thread' hthread' =>
            (hfinished.accounts thread' hthread').of_same rfl rfl rfl⟩

/-- A row is added for an object that is created once the item has been fetched. -/
theorem Invariant.create {dn : String} {found : Bool} (h : s.Invariant) (hnew : dn ∉ s.objects)
    (hfound : s.wasFetched = true → found = true) : (s.create dn found).Invariant := by
  have hnodup : (s.objects ++ [dn]).Nodup :=
    h.nodup.append (List.nodup_singleton dn) (List.disjoint_singleton.2 hnew)
  rw [SearchedItem.create, SearchedItem.addObjectsToConsole]
  by_cases hfetched : s.wasFetched = true
  · rw [if_neg (by simp [hfetched]), hfound hfetched, if_pos rfl]
    refine ⟨hnodup, fun hnot => absurd (hnot.symm.trans hfetched) Bool.false_ne_true,
      fun thread hthread => ?_⟩
    have haccounts := h.accounts thread hthread
    have hcreated : (s.objects ++ [dn]).filter (fun dn' => dn' ∉ thread.existing) =
        s.created thread ++ [dn] := by
      have hnot : dn ∉ thread.existing := fun hmem => hnew (haccounts.existing dn hmem)
      simp [created, hnot]
    refine ⟨hfetched, haccounts.stopFlag,
      fun dn' hdn' => List.mem_append_left _ (haccounts.existing dn' hdn'), haccounts.nodup,
      fun dn' hdn' => List.mem_append_left _ (haccounts.returned dn' hdn'),
      haccounts.all_returned, ?_⟩
    show (s.rows ++ [dn] ++ thread.pending).Perm (thread.returned ++
      (s.objects ++ [dn]).filter fun dn' => dn' ∉ thread.existing)
    have hlast : (s.rows ++ [dn] ++ thread.pending).Perm (s.rows ++ thread.pending ++ [dn]) := by
      rw [List.append_assoc, List.append_assoc]
      exact List.perm_append_comm.append_left _
    rw [hcreated, ← List.append_assoc]
    exact hlast.trans (haccounts.rows.append_right [dn])
  · rw [if_pos (by simp [hfetched])]
    refine ⟨hnodup, h.rows, fun thread hthread => ?_⟩
    -- no search has been started
    exact absurd (h.accounts thread hthread).wasFetched hfetched

theorem Invariant.handle (h : s.Invariant) (hpossible : s.Possible event)
    (hregular : s.IsRegular event) : (s.handle event).Invariant := by
  cases event with
  | fetchScope objectDisplayLimit =>
    unfold SearchedItem.handle SearchedItem.fetchScope
    dsimp only
    split_ifs with hfetched
    · exact h
    · exact invariant_consoleObjectSearch h.nodup rfl (h.rows (eq_false_of_ne_true hfetched))
  | refresh objectDisplayLimit => exact invariant_consoleObjectSearch h.nodup hregular rfl
  | failToConnect id =>
    obtain ⟨thread, hthread, -, -⟩ := hpossible
    simp only [SearchedItem.handle, hthread]
    exact h.failToConnect hthread
  | answer id success morePages results =>
    obtain ⟨thread, hthread, hrunning, hanswers⟩ := hpossible
    simp only [SearchedItem.handle, hthread]
    exact h.answer hthread hrunning hanswers
  | deliver id => exact h.deliver
  | create dn found => exact h.create hpossible hregular

/-! ## One row each -/

theorem IsUnfetched.invariant (h : s.IsUnfetched) : s.Invariant :=
  ⟨h.nodup, fun _ => h.rows, fun _ hthread => nomatch (h.threads _).symm.trans hthread⟩

theorem invariant_of_run
    (h : Run IsUnfetched (fun s event => s.Possible event ∧ s.IsRegular event) handle s) :
    s.Invariant :=
  h.invariant (fun _ h => h.invariant) fun _ _ h hevent => h.handle hevent.1 hevent.2

/-- Once the last search has finished without error, there is one row for each object exactly if
    the search has returned no object that has been created since it was started. -/
theorem oneRowEach_iff
    (h : Run IsUnfetched (fun s event => s.Possible event ∧ s.IsRegular event) handle s)
    (hthread : s.threads s.searchThreadId = some thread) (hqueued : thread.queued = [])
    (hsuccess : thread.HasSucceeded) :
    s.OneRowEach ↔ ∀ dn ∈ thread.returned, dn ∈ thread.existing := by
  have hinvariant := invariant_of_run h
  have haccounts := hinvariant.accounts thread hthread
  have hcount : ∀ dn, s.rows.count dn = thread.returned.count dn + (s.created thread).count dn := by
    intro dn
    have hrows := haccounts.rows.count_eq dn
    rw [SearchThread.pending, hqueued, List.flatMap_nil, List.append_nil, List.count_append]
      at hrows
    exact hrows
  have hnodup : (s.created thread).Nodup := hinvariant.nodup.filter _
  constructor
  · intro hrows dn hdn
    by_contra hnot
    -- an object that has been created since, and returned, has two rows
    have hmem : dn ∈ s.created thread :=
      List.mem_filter.2 ⟨haccounts.returned dn hdn, decide_eq_true hnot⟩
    have htwo := hcount dn
    rw [hrows dn (haccounts.returned dn hdn),
      List.count_eq_one_of_mem haccounts.nodup hdn, List.count_eq_one_of_mem hnodup hmem] at htwo
    exact absurd htwo (by decide)
  · intro hreturned dn hdn
    rw [hcount]
    by_cases hexisting : dn ∈ thread.existing
    · have hmem := haccounts.all_returned hsuccess dn hexisting
      have hnot : dn ∉ s.created thread := fun hmem =>
        of_decide_eq_true (List.mem_filter.1 hmem).2 hexisting
      rw [List.count_eq_one_of_mem haccounts.nodup hmem, List.count_eq_zero_of_not_mem hnot]
    · have hmem : dn ∈ s.created thread := List.mem_filter.2 ⟨hdn, decide_eq_true hexisting⟩
      have hnot : dn ∉ thread.returned := fun hmem => hexisting (hreturned dn hmem)
      rw [List.count_eq_one_of_mem hnodup hmem, List.count_eq_zero_of_not_mem hnot]

/-- The last search has returned only objects that were there when it was started. -/
def HasSpared (s : SearchedItem) : Prop :=
  ∀ thread, s.threads s.searchThreadId = some thread → ∀ dn ∈ thread.returned, dn ∈ thread.existing

theorem HasSpared.setThread (h : s.HasSpared)
    (hthread : s.searchThreadId = id → ∀ dn ∈ thread.returned, dn ∈ thread.existing) :
    (s.setThread id thread).HasSpared := by
  intro thread' hthread'
  have hsame : Function.update s.threads id (some thread) s.searchThreadId = some thread' :=
    hthread'
  by_cases hid : s.searchThreadId = id
  · rw [hid, Function.update_self] at hsame
    obtain rfl := Option.some.inj hsame
    exact hthread hid
  · rw [Function.update_of_ne hid] at hsame
    exact h thread' hsame

theorem hasSpared_consoleObjectSearch {objectDisplayLimit : ℤ} :
    (s.consoleObjectSearch objectDisplayLimit).HasSpared := by
  intro thread hthread
  have hstarted : Function.update s.threads s.idMax
      (some (.started objectDisplayLimit s.objects)) s.idMax = some thread := hthread
  rw [Function.update_self] at hstarted
  obtain rfl := Option.some.inj hstarted
  exact nofun

theorem addObjectsToConsole_threads :
    (s.addObjectsToConsole results).threads = s.threads ∧
      (s.addObjectsToConsole results).searchThreadId = s.searchThreadId := by
  rw [addObjectsToConsole]
  split_ifs <;> exact ⟨rfl, rfl⟩

theorem HasSpared.handle (h : s.HasSpared) (hpossible : s.Possible event)
    (hspares : s.SparesCreated event) : (s.handle event).HasSpared := by
  have hsame : ∀ {id thread}, s.threads id = some thread → s.searchThreadId = id →
      ∀ dn ∈ thread.returned, dn ∈ thread.existing :=
    fun hthread hid => h _ (hid ▸ hthread)
  have hadd : ∀ {s : SearchedItem} {objectList}, s.HasSpared →
      (s.addObjectsToConsole objectList).HasSpared := by
    intro s objectList h thread
    rw [addObjectsToConsole_threads.1, addObjectsToConsole_threads.2]
    exact h thread
  cases event with
  | fetchScope objectDisplayLimit =>
    unfold SearchedItem.handle SearchedItem.fetchScope
    dsimp only
    split_ifs
    · exact h
    · exact hasSpared_consoleObjectSearch
  | refresh objectDisplayLimit => exact hasSpared_consoleObjectSearch
  | failToConnect id =>
    obtain ⟨thread, hthread, -, -⟩ := hpossible
    have hspared := hsame hthread
    simp only [SearchedItem.handle, hthread]
    exact h.setThread hspared
  | answer id success morePages results =>
    obtain ⟨thread, hthread, hrunning, -⟩ := hpossible
    simp only [SearchedItem.handle, hthread]
    refine h.setThread fun hid => ?_
    obtain ⟨hexisting, -, ⟨-, hreturned, -⟩ | ⟨-, hreturned, -⟩⟩ :=
      @turn_cases thread results success morePages hrunning
    · rw [hexisting, hreturned]
      exact hsame hthread hid
    · rw [hexisting, hreturned]
      exact List.forall_mem_append.2 ⟨hsame hthread hid, hspares hid.symm thread hthread⟩
  | deliver id =>
    simp only [SearchedItem.handle, SearchedItem.deliver]
    cases hthread : s.threads id with
    | none => exact h
    | some thread =>
      have hspared := hsame hthread
      dsimp only
      split
      · exact h
      · split_ifs
        · exact h.setThread hspared
        · exact hadd (h.setThread hspared)
      · split_ifs <;> exact h.setThread hspared
  | create dn found => exact hadd h

/-- Once the last search has finished without error, there is one row for each object of the
    container. -/
theorem oneRowEach_of_run (s : SearchedItem)
    (h : Run IsUnfetched
      (fun s event => s.Possible event ∧ s.IsRegular event ∧ s.SparesCreated event) handle s)
    (hfinished : s.HasFinished) : s.OneRowEach := by
  obtain ⟨thread, hthread, hqueued, hsuccess⟩ := hfinished
  have hregular : Run IsUnfetched (fun s event => s.Possible event ∧ s.IsRegular event) handle s :=
    h.mono fun s event hevent => ⟨hevent.1, hevent.2.1⟩
  have hspared : s.HasSpared := by
    refine h.invariant (fun s hs thread hthread => ?_) fun s event h hevent =>
      h.handle hevent.1 hevent.2.2
    exact nomatch (hs.threads _).symm.trans hthread
  exact (oneRowEach_iff hregular hthread hqueued hsuccess).2 (hspared thread hthread)

end

/-! ## A user is created -/

/-- A unit with a user, which has not been fetched. -/
def unfetchedUnit : SearchedItem where
  objects := ["CN=a,OU=u"]
  rows := []
  wasFetched := false
  isFetching := false
  searchThreadId := 0
  idMax := 0
  threads _ := none

/-- The unit is fetched. -/
def fetchingUnit : SearchedItem := unfetchedUnit.handle (.fetchScope 1000)

theorem isUnfetched_unfetchedUnit : unfetchedUnit.IsUnfetched :=
  ⟨List.nodup_singleton _, rfl, rfl, fun _ => rfl⟩

/-- The search returns the user, and another one is created before the results are added. -/
theorem oneRowEach_of_run_created :
    ((((fetchingUnit.handle (.answer 0 true false ["CN=a,OU=u"])).handle
      (.create "CN=b,OU=u" true)).handle (.deliver 0)).handle (.deliver 0)).OneRowEach := by
  have hanswer : fetchingUnit.Possible (.answer 0 true false ["CN=a,OU=u"]) :=
    ⟨_, rfl, rfl, List.nodup_singleton _, fun _ h => h, fun _ _ => List.not_mem_nil,
      fun _ _ _ h => .inr h⟩
  have hspares : fetchingUnit.SparesCreated (.answer 0 true false ["CN=a,OU=u"]) := by
    intro _ thread hthread dn hdn
    obtain rfl := Option.some.inj hthread
    exact hdn
  set answered := fetchingUnit.handle (.answer 0 true false ["CN=a,OU=u"])
  have hcreate : answered.Possible (.create "CN=b,OU=u" true) :=
    show "CN=b,OU=u" ∉ ["CN=a,OU=u"] by decide
  set created := answered.handle (.create "CN=b,OU=u" true)
  have hdeliver : created.Possible (.deliver 0) := ⟨_, rfl, List.cons_ne_nil _ _⟩
  have hdeliver' : (created.handle (.deliver 0)).Possible (.deliver 0) :=
    ⟨_, rfl, List.cons_ne_nil _ _⟩
  refine oneRowEach_of_run _ (.next (.next (.next (.next (.next (.start isUnfetched_unfetchedUnit)
    ⟨trivial, trivial, trivial⟩) ⟨hanswer, trivial, hspares⟩) ⟨hcreate, fun _ => rfl, trivial⟩)
    ⟨hdeliver, trivial, trivial⟩) ⟨hdeliver', trivial, trivial⟩) ?_
  exact ⟨_, rfl, rfl, rfl, rfl, rfl, rfl⟩

/-- The other user is created before the search returns both. -/
theorem not_oneRowEach : ¬∀ s : SearchedItem,
    Run IsUnfetched Possible handle s → s.HasFinished → s.OneRowEach := by
  intro h
  have hcreate : fetchingUnit.Possible (.create "CN=b,OU=u" true) :=
    show "CN=b,OU=u" ∉ ["CN=a,OU=u"] by decide
  set created := fetchingUnit.handle (.create "CN=b,OU=u" true)
  have hanswer : created.Possible (.answer 0 true false ["CN=a,OU=u", "CN=b,OU=u"]) := by
    refine ⟨_, rfl, rfl, by decide, fun _ h => h, fun _ _ => List.not_mem_nil, ?_⟩
    exact fun _ _ _ hdn => .inr (List.mem_cons.2 (.inl (List.mem_singleton.1 hdn)))
  set answered := created.handle (.answer 0 true false ["CN=a,OU=u", "CN=b,OU=u"])
  have hdeliver : answered.Possible (.deliver 0) := ⟨_, rfl, List.cons_ne_nil _ _⟩
  have hdeliver' : (answered.handle (.deliver 0)).Possible (.deliver 0) :=
    ⟨_, rfl, List.cons_ne_nil _ _⟩
  have hrows := h ((answered.handle (.deliver 0)).handle (.deliver 0))
    (.next (.next (.next (.next (.next (.start isUnfetched_unfetchedUnit) trivial) hcreate)
      hanswer) hdeliver) hdeliver')
    ⟨_, rfl, rfl, rfl, rfl, rfl, rfl⟩ "CN=b,OU=u" (List.mem_cons_of_mem _ List.mem_cons_self)
  -- there are two rows
  have htwo : ["CN=b,OU=u", "CN=a,OU=u", "CN=b,OU=u"].count "CN=b,OU=u" = 1 := hrows
  exact absurd htwo (by decide)

end SearchedItem

end Admc
