import Admc.Console.ChildRows
import Admc.Filter.SelectBase
import Admc.Filter.Widget

/-!
# Windows that find objects

The dialogs that find objects and policies run their searches in threads of their own, whose
signals are queued. While there is a search, no other one can be started and the rows cannot be
cleared; it can be stopped, and the window can be closed.

* `SearchWindow.Invariant.handle`: whatever happens, the rows with the results that are queued are
  what the last search has returned, and the earlier searches have nothing left to add;
* `FindWidget.found_of_run`: so a window that is ready shows what the last search has found, each
  object once, or nothing.
-/

namespace Admc

/-! ## The window -/

/-- The rows that are found and the buttons of a window, and the searches that it has started,
    each with what it looks for. -/
structure SearchWindow (κ : Type) where
  rows : List String
  findEnabled : Bool
  clearEnabled : Bool
  busyIndicators : ℕ
  isOpen : Bool
  idMax : ℕ
  threads : ℕ → Option (κ × SearchThread)

/-- What happens to a window: its buttons are clicked, it is closed, a search cannot connect or
    gets an answer, or a signal is delivered. For a search that is started, what there is to be
    found is recorded. -/
inductive SearchEvent (κ : Type)
  | find (query : κ) (objectDisplayLimit : ℤ) (existing : List String)
  | clear
  | stop
  | close
  | failToConnect (id : ℕ)
  | answer (id : ℕ) (success morePages : Bool) (results : List String)
  | deliver (id : ℕ)

namespace SearchWindow

variable {κ : Type} (w : SearchWindow κ)

/-- A window that is opened. -/
def new : SearchWindow κ := ⟨[], true, true, 0, true, 0, fun _ => none⟩

/-- A search has changed. -/
def setThread (id : ℕ) (search : κ × SearchThread) : SearchWindow κ :=
  { w with threads := Function.update w.threads id (some search) }

/-- `FindWidget::clear_results` and `FindPolicyDialog::clear_results`. -/
def clearResults : SearchWindow κ := { w with rows := [] }

/-- `FindWidget::find` and `FindPolicyDialog::find`, once the search has been prepared. -/
def find (query : κ) (objectDisplayLimit : ℤ) (existing : List String) : SearchWindow κ :=
  let w :=
    { w with
      busyIndicators := w.busyIndicators + 1
      findEnabled := false
      clearEnabled := false }
  let w := w.clearResults
  { w.setThread w.idMax (query, .started objectDisplayLimit existing) with
    idMax := w.idMax + 1 }

/-- `SearchThread::stop`, for all searches. Those that have finished are not there any more, and
    nothing reads their flags. -/
def stop : SearchWindow κ :=
  { w with
    threads := fun id => (w.threads id).map fun search =>
      (search.1, { search.2 with stopFlag := true }) }

/-- The window is destroyed: the searches are stopped, and the busy indicator is hidden in case
    there is one. -/
def close : SearchWindow κ :=
  { w.stop with isOpen := false, busyIndicators := w.busyIndicators - 1 }

/-- `FindWidget::handle_find_thread_results` and
    `FindPolicyDialog::handle_search_thread_results`. -/
def handleSearchThreadResults (results : List String) : SearchWindow κ :=
  { w with rows := w.rows ++ results }

/-- The slots of a window for the signals of a search. -/
def handleSignal : SearchSignal → SearchWindow κ
  | .resultsReady results => w.handleSearchThreadResults results
  | .finished =>
    { w with findEnabled := true, clearEnabled := true, busyIndicators := w.busyIndicators - 1 }

/-- The first signal of a search that is queued is delivered. -/
def deliver (id : ℕ) : SearchWindow κ :=
  match w.threads id with
  | none => w
  | some (query, thread) =>
    match thread.queued with
    | [] => w
    | signal :: queued =>
      let w := w.setThread id (query, { thread with queued := queued })
      -- the slots of a window that has been destroyed are disconnected
      if w.isOpen then w.handleSignal signal else w

/-- What an event does. Buttons that are disabled are not clicked. -/
def handle : SearchEvent κ → SearchWindow κ
  | .find query objectDisplayLimit existing =>
    if w.isOpen ∧ w.findEnabled then w.find query objectDisplayLimit existing else w
  | .clear => if w.isOpen ∧ w.clearEnabled then w.clearResults else w
  | .stop => if w.isOpen then w.stop else w
  | .close => if w.isOpen then w.close else w
  | .failToConnect id =>
    match w.threads id with
    | none => w
    | some (query, thread) =>
      w.setThread id (query, SearchThread.finish { thread with failedToConnect := true })
  | .answer id success morePages results =>
    match w.threads id with
    | none => w
    | some (query, thread) => w.setThread id (query, thread.turn success morePages results)
  | .deliver id => w.deliver id

/-! ## What is known of searches -/

/-- What the server answers to a search: objects that it is to find and that have not been
    returned, each once, and all that were there when it was started once there are no more
    pages. -/
structure Answers (found : κ → String → Prop) (search : κ × SearchThread)
    (success morePages : Bool) (results : List String) : Prop where
  nodup : results.Nodup
  found : ∀ dn ∈ results, found search.1 dn
  not_returned : ∀ dn ∈ results, dn ∉ search.2.returned
  all_returned : success = true → morePages = false →
    ∀ dn ∈ search.2.existing, dn ∈ search.2.returned ∨ dn ∈ results

/-- A search goes on while it is running, as the server answers. -/
def Possible (found : κ → String → Prop) : SearchEvent κ → Prop
  | .failToConnect id => ∃ search, w.threads id = some search ∧ search.2.isRunning = true
  | .answer id success morePages results => ∃ search, w.threads id = some search ∧
    search.2.isRunning = true ∧ Answers found search success morePages results
  | _ => True

/-- What a search has returned is what it is to find, each object once, and all of it if it was
    neither stopped nor failed. -/
structure Known (found : κ → String → Prop) (search : κ × SearchThread) : Prop where
  nodup : search.2.returned.Nodup
  found : ∀ dn ∈ search.2.returned, found search.1 dn
  all_returned : search.2.HasSucceeded → search.2.stopFlag = false →
    ∀ dn ∈ search.2.existing, dn ∈ search.2.returned

end SearchWindow

namespace SearchThread

/-- The search has been left, and its signals have been delivered. -/
structure IsDone (thread : SearchThread) : Prop where
  isRunning : thread.isRunning = false
  queued : thread.queued = []

/-- The signal for the end of a search has been queued when the search has been left, as the last
    one, and it has not been delivered. -/
structure Queues (thread : SearchThread) : Prop where
  running : thread.isRunning = true → .finished ∉ thread.queued
  left : thread.isRunning = false →
    ∃ front, thread.queued = front ++ [.finished] ∧ .finished ∉ front

section
variable {thread : SearchThread} {results : List String} {success morePages : Bool}
  {queued : List SearchSignal}

theorem Queues.finish (h : thread.Queues) (hrunning : thread.isRunning = true) :
    thread.finish.Queues where
  running hfalse := absurd hfalse Bool.false_ne_true
  left _ := ⟨thread.queued, rfl, h.running hrunning⟩

theorem Queues.turn (h : thread.Queues) (hrunning : thread.isRunning = true) :
    (thread.turn success morePages results).Queues := by
  have hnot : SearchSignal.finished ∉ thread.queued ++ [.resultsReady results] := by
    rw [List.mem_append, List.mem_singleton]
    rintro (hmem | heq)
    · exact h.running hrunning hmem
    · cases heq
  unfold SearchThread.turn
  dsimp only
  split_ifs
  · exact finish ⟨h.running, h.left⟩ hrunning
  · refine finish ⟨fun _ => hnot, fun hleft => ?_⟩ hrunning
    exact absurd (hleft.symm.trans hrunning) Bool.false_ne_true
  · exact ⟨fun _ => hnot, fun hleft => absurd (hleft.symm.trans hrunning) Bool.false_ne_true⟩

/-- Results are delivered before the signal for the end. -/
theorem Queues.dequeue (h : thread.Queues)
    (hqueued : thread.queued = .resultsReady results :: queued) :
    Queues { thread with queued := queued } where
  running hrunning hmem := h.running hrunning (hqueued ▸ List.mem_cons_of_mem _ hmem)
  left hleft := by
    obtain ⟨front, hfront, hnot⟩ := h.left hleft
    cases front with
    | nil =>
      have heq := (hqueued.symm.trans hfront)
      cases heq
    | cons signal front =>
      have heq := (List.cons.inj (hqueued.symm.trans hfront)).2
      exact ⟨front, heq, fun hmem => hnot (List.mem_cons_of_mem _ hmem)⟩

theorem Queues.isDone (h : thread.Queues) (hqueued : thread.queued = .finished :: queued) :
    IsDone { thread with queued := queued } := by
  have hmem : SearchSignal.finished ∈ thread.queued := hqueued ▸ List.mem_cons_self
  have hleft : thread.isRunning = false := by
    by_contra hrunning
    exact h.running (Bool.eq_true_of_not_eq_false hrunning) hmem
  refine ⟨hleft, ?_⟩
  obtain ⟨front, hfront, hnot⟩ := h.left hleft
  cases front with
  | nil => exact (List.cons.inj (hqueued.symm.trans hfront)).2
  | cons signal front =>
    obtain ⟨hsignal, -⟩ := List.cons.inj (hqueued.symm.trans hfront)
    exact absurd (hsignal ▸ List.mem_cons_self) hnot

theorem IsDone.pending (h : thread.IsDone) : thread.pending = [] := by
  rw [SearchThread.pending, h.queued, List.flatMap_nil]

end

end SearchThread

/-! ## What a window shows -/

namespace SearchWindow

variable {κ : Type} {found : κ → String → Prop}

/-- The search that has been started last. -/
def last (w : SearchWindow κ) : Option (κ × SearchThread) := w.threads (w.idMax - 1)

/-- The rows, with what is queued, are what the last search has returned. -/
def Shows (w : SearchWindow κ) (search : κ × SearchThread) : Prop :=
  w.rows ++ search.2.pending = search.2.returned

/-- While there is a search, it is the last one, and its results are shown as they come. Then all
    searches are done, and the rows may be cleared. -/
structure Invariant (found : κ → String → Prop) (w : SearchWindow κ) : Prop where
  known : ∀ id search, w.threads id = some search → Known found search
  started : ∀ id search, w.threads id = some search → id < w.idMax
  busyIndicators : w.busyIndicators = if w.isOpen = true ∧ w.findEnabled = false then 1 else 0
  clearEnabled : w.isOpen = true → w.clearEnabled = w.findEnabled
  earlier : w.isOpen = true → ∀ id search, w.threads id = some search → id ≠ w.idMax - 1 →
    search.2.IsDone
  idle : w.isOpen = true → w.findEnabled = true →
    (∀ id search, w.threads id = some search → search.2.IsDone) ∧
      (w.rows = [] ∨ ∃ search, w.last = some search ∧ w.Shows search)
  searching : w.isOpen = true → w.findEnabled = false →
    ∃ search, w.last = some search ∧ search.2.Queues ∧ w.Shows search

section
variable {w : SearchWindow κ} {id : ℕ} {search search' : κ × SearchThread} {results : List String}
  {success morePages : Bool}

theorem threads_setThread {i : ℕ} {search₀ : κ × SearchThread}
    (h : (w.setThread id search').threads i = some search₀) :
    i = id ∧ search₀ = search' ∨ i ≠ id ∧ w.threads i = some search₀ := by
  have hupdate : Function.update w.threads id (some search') i = some search₀ := h
  by_cases hid : i = id
  · rw [hid, Function.update_self] at hupdate
    exact .inl ⟨hid, (Option.some.inj hupdate).symm⟩
  · rw [Function.update_of_ne hid] at hupdate
    exact .inr ⟨hid, hupdate⟩

/-- A search that is not done is the last one, and no other one can be started. -/
theorem Invariant.isLast (h : w.Invariant found) (hopen : w.isOpen = true)
    (hsearch : w.threads id = some search) (hdone : ¬search.2.IsDone) :
    w.findEnabled = false ∧ id = w.idMax - 1 := by
  constructor
  · by_contra henabled
    exact hdone ((h.idle hopen (Bool.eq_true_of_not_eq_false henabled)).1 id search hsearch)
  · by_contra hne
    exact hdone (h.earlier hopen id search hsearch hne)

/-- A search that is not done goes on, and rows are added. -/
theorem Invariant.goOn (h : w.Invariant found) (hsearch : w.threads id = some search)
    (hdone : ¬search.2.IsDone) (hknown : Known found search')
    (hgoesOn : w.isOpen = true → search.2.Queues → w.Shows search →
      search'.2.Queues ∧ (w.rows ++ results) ++ search'.2.pending = search'.2.returned) :
    Invariant found { w.setThread id search' with rows := w.rows ++ results } where
  known i search₀ hi := by
    obtain ⟨-, rfl⟩ | ⟨-, hi⟩ := threads_setThread hi
    · exact hknown
    · exact h.known i search₀ hi
  started i search₀ hi := by
    obtain ⟨rfl, -⟩ | ⟨-, hi⟩ := threads_setThread hi
    · exact h.started i search hsearch
    · exact h.started i search₀ hi
  busyIndicators := h.busyIndicators
  clearEnabled := h.clearEnabled
  earlier hopen i search₀ hi hne := by
    obtain ⟨rfl, -⟩ | ⟨-, hi⟩ := threads_setThread hi
    · exact absurd (h.isLast hopen hsearch hdone).2 hne
    · exact h.earlier hopen i search₀ hi hne
  idle hopen henabled :=
    absurd ((h.isLast hopen hsearch hdone).1.symm.trans henabled) Bool.false_ne_true
  searching hopen hdisabled := by
    obtain ⟨search₁, hlast, hqueues, hshows⟩ := h.searching hopen hdisabled
    have hid := (h.isLast hopen hsearch hdone).2
    rw [last, ← hid, hsearch] at hlast
    obtain rfl := Option.some.inj hlast
    obtain ⟨hqueues', hshows'⟩ := hgoesOn hopen hqueues hshows
    refine ⟨search', ?_, hqueues', hshows'⟩
    show Function.update w.threads id (some search') (w.idMax - 1) = some search'
    rw [← hid, Function.update_self]

theorem known_started (query : κ) (objectDisplayLimit : ℤ) (existing : List String) :
    Known found (query, .started objectDisplayLimit existing) where
  nodup := List.nodup_nil
  found _ hdn := absurd hdn List.not_mem_nil
  all_returned h := absurd h.isRunning.symm Bool.false_ne_true

theorem Invariant.find (h : w.Invariant found) (hopen : w.isOpen = true)
    (henabled : w.findEnabled = true) (query : κ) (objectDisplayLimit : ℤ)
    (existing : List String) : (w.find query objectDisplayLimit existing).Invariant found := by
  have hall := (h.idle hopen henabled).1
  have hthread : ∀ i search₀, (w.find query objectDisplayLimit existing).threads i = some search₀ →
      i = w.idMax ∧ search₀ = (query, .started objectDisplayLimit existing) ∨
        i ≠ w.idMax ∧ w.threads i = some search₀ := fun _ _ hi => threads_setThread hi
  refine ⟨fun i search₀ hi => ?_, fun i search₀ hi => ?_, ?_, fun _ => rfl,
    fun _ i search₀ hi hne => ?_, fun _ hfalse => absurd hfalse Bool.false_ne_true, fun _ _ => ?_⟩
  · obtain ⟨-, rfl⟩ | ⟨-, hi⟩ := hthread i search₀ hi
    · exact known_started query objectDisplayLimit existing
    · exact h.known i search₀ hi
  · obtain ⟨rfl, -⟩ | ⟨-, hi⟩ := hthread i search₀ hi
    · exact Nat.lt_succ_self w.idMax
    · exact (h.started i search₀ hi).trans (Nat.lt_succ_self w.idMax)
  · have hbusy : w.busyIndicators = 0 := by simp [h.busyIndicators, henabled]
    show w.busyIndicators + 1 = if w.isOpen = true ∧ false = false then 1 else 0
    rw [hbusy, if_pos ⟨hopen, rfl⟩]
  · obtain ⟨heq, -⟩ | ⟨-, hi⟩ := hthread i search₀ hi
    · exact absurd heq hne
    · exact hall i search₀ hi
  · refine ⟨(query, .started objectDisplayLimit existing), Function.update_self .., ?_, rfl⟩
    refine ⟨fun _ => List.not_mem_nil, fun hfalse => ?_⟩
    exact absurd hfalse.symm Bool.false_ne_true

theorem Invariant.clearResults (h : w.Invariant found) (hopen : w.isOpen = true)
    (hclear : w.clearEnabled = true) : w.clearResults.Invariant found := by
  have henabled : w.findEnabled = true := (h.clearEnabled hopen).symm.trans hclear
  exact ⟨h.known, h.started, h.busyIndicators, h.clearEnabled, h.earlier,
    fun _ _ => ⟨(h.idle hopen henabled).1, .inl rfl⟩,
    fun _ hdisabled => absurd (hdisabled.symm.trans henabled) Bool.false_ne_true⟩

theorem threads_stop {i : ℕ} (h : w.stop.threads i = some search') :
    ∃ search, w.threads i = some search ∧
      search' = (search.1, { search.2 with stopFlag := true }) := by
  obtain ⟨search, hsearch, heq⟩ := Option.map_eq_some_iff.1 h
  exact ⟨search, hsearch, heq.symm⟩

theorem Known.stop (h : Known found search) :
    Known found (search.1, { search.2 with stopFlag := true }) :=
  ⟨h.nodup, h.found, fun _ hfalse => absurd hfalse.symm Bool.false_ne_true⟩

theorem Invariant.stop (h : w.Invariant found) : w.stop.Invariant found := by
  have hlast : ∀ search, w.last = some search →
      w.stop.last = some (search.1, { search.2 with stopFlag := true }) := by
    intro search hsearch
    exact congrArg (Option.map fun search : κ × SearchThread =>
      (search.1, { search.2 with stopFlag := true })) hsearch
  refine ⟨fun i search₀ hi => ?_, fun i search₀ hi => ?_, h.busyIndicators, h.clearEnabled,
    fun hopen i search₀ hi hne => ?_, fun hopen henabled => ⟨fun i search₀ hi => ?_, ?_⟩,
    fun hopen hdisabled => ?_⟩
  · obtain ⟨search, hsearch, rfl⟩ := threads_stop hi
    exact (h.known i search hsearch).stop
  · obtain ⟨search, hsearch, rfl⟩ := threads_stop hi
    exact h.started i search hsearch
  · obtain ⟨search, hsearch, rfl⟩ := threads_stop hi
    have hdone := h.earlier hopen i search hsearch hne
    exact ⟨hdone.isRunning, hdone.queued⟩
  · obtain ⟨search, hsearch, rfl⟩ := threads_stop hi
    have hdone := (h.idle hopen henabled).1 i search hsearch
    exact ⟨hdone.isRunning, hdone.queued⟩
  · refine (h.idle hopen henabled).2.imp_right ?_
    rintro ⟨search, hsearch, hshows⟩
    exact ⟨_, hlast search hsearch, hshows⟩
  · obtain ⟨search, hsearch, hqueues, hshows⟩ := h.searching hopen hdisabled
    exact ⟨_, hlast search hsearch, ⟨hqueues.running, hqueues.left⟩, hshows⟩

/-- In a window that has been closed, only what its searches have returned matters. -/
theorem invariant_of_closed (hclosed : w.isOpen = false)
    (hknown : ∀ id search, w.threads id = some search → Known found search)
    (hstarted : ∀ id search, w.threads id = some search → id < w.idMax)
    (hbusy : w.busyIndicators = 0) : w.Invariant found := by
  have hnot : ¬w.isOpen = true := by simp [hclosed]
  exact ⟨hknown, hstarted, hbusy.trans (if_neg fun hand => hnot hand.1).symm,
    fun hopen => absurd hopen hnot, fun hopen => absurd hopen hnot, fun hopen => absurd hopen hnot,
    fun hopen => absurd hopen hnot⟩

theorem Invariant.close (h : w.Invariant found) : w.close.Invariant found := by
  refine invariant_of_closed rfl h.stop.known h.stop.started ?_
  show w.busyIndicators - 1 = 0
  rw [h.busyIndicators]
  split_ifs <;> rfl

theorem Known.turn (h : Known found search) (hrunning : search.2.isRunning = true)
    (hanswers : Answers found search success morePages results) :
    Known found (search.1, search.2.turn success morePages results) := by
  obtain ⟨hexisting, hstop, ⟨-, hreturned, herror⟩ | ⟨-, hreturned, hsucceeded⟩⟩ :=
    @SearchedItem.turn_cases search.2 results success morePages hrunning
  · exact ⟨hreturned ▸ h.nodup, hreturned ▸ h.found, fun hsuccess => absurd hsuccess herror⟩
  · refine ⟨?_, ?_, fun hsuccess hflag dn hdn => ?_⟩
    · show (search.2.turn success morePages results).returned.Nodup
      rw [hreturned]
      exact h.nodup.append hanswers.nodup fun dn hold hnew => hanswers.not_returned dn hnew hold
    · show ∀ dn ∈ (search.2.turn success morePages results).returned, found search.1 dn
      rw [hreturned]
      exact List.forall_mem_append.2 ⟨h.found, hanswers.found⟩
    · obtain ⟨hsuccess, hpages⟩ := hsucceeded hsuccess (hstop.symm.trans hflag)
      show dn ∈ (search.2.turn success morePages results).returned
      rw [hreturned, List.mem_append]
      exact hanswers.all_returned hsuccess hpages dn (hexisting ▸ hdn)

/-- A search that returns more keeps what is shown of it. -/
theorem Invariant.setThread (h : w.Invariant found) (hsearch : w.threads id = some search)
    (hrunning : search.2.isRunning = true) (hknown : Known found search')
    (hqueues : search.2.Queues → search'.2.Queues)
    (hshows : w.Shows search → w.Shows search') : (w.setThread id search').Invariant found := by
  have hdone : ¬search.2.IsDone := fun hdone =>
    Bool.false_ne_true (hdone.isRunning.symm.trans hrunning)
  have heq : { w.setThread id search' with rows := w.rows ++ [] } = w.setThread id search' := by
    rw [List.append_nil]
    rfl
  rw [← heq]
  refine h.goOn hsearch hdone hknown fun _ hqueued hshown => ⟨hqueues hqueued, ?_⟩
  rw [List.append_nil]
  exact hshows hshown

theorem Invariant.answer (h : w.Invariant found) (hsearch : w.threads id = some search)
    (hrunning : search.2.isRunning = true)
    (hanswers : Answers found search success morePages results) :
    (w.setThread id (search.1, search.2.turn success morePages results)).Invariant found := by
  refine h.setThread hsearch hrunning ((h.known id search hsearch).turn hrunning hanswers)
    (fun hqueues => hqueues.turn hrunning) fun hshows => ?_
  obtain ⟨-, -, ⟨hpending, hreturned, -⟩ | ⟨hpending, hreturned, -⟩⟩ :=
    @SearchedItem.turn_cases search.2 results success morePages hrunning
  · rw [Shows, hpending, hreturned]
    exact hshows
  · rw [Shows, hpending, hreturned, ← List.append_assoc, hshows]

theorem Invariant.failToConnect (h : w.Invariant found) (hsearch : w.threads id = some search)
    (hrunning : search.2.isRunning = true) :
    (w.setThread id (search.1,
      SearchThread.finish { search.2 with failedToConnect := true })).Invariant found := by
  have hknown := h.known id search hsearch
  refine h.setThread hsearch hrunning ⟨hknown.nodup, hknown.found, fun hsuccess => ?_⟩
    (fun hqueues => SearchThread.Queues.finish ⟨hqueues.running, hqueues.left⟩ hrunning)
    fun hshows => ?_
  · exact absurd hsuccess.failedToConnect.symm Bool.false_ne_true
  · have hpending : (SearchThread.finish { search.2 with failedToConnect := true }).pending =
        search.2.pending := by
      simp [SearchThread.finish, SearchThread.pending, SearchSignal.results]
    rw [Shows, hpending]
    exact hshows

theorem Known.dequeue (h : Known found search) (queued : List SearchSignal) :
    Known found (search.1, { search.2 with queued := queued }) :=
  ⟨h.nodup, h.found, fun hsuccess => h.all_returned
    ⟨hsuccess.isRunning, hsuccess.failedToConnect, hsuccess.hitObjectDisplayLimit,
      hsuccess.searchFailed⟩⟩

/-- The end of the search is delivered: the window is ready again. -/
theorem Invariant.finished {queued : List SearchSignal} (h : w.Invariant found)
    (hopen : w.isOpen = true) (hsearch : w.threads id = some search)
    (hqueued : search.2.queued = .finished :: queued) :
    ((w.setThread id (search.1, { search.2 with queued := queued })).handleSignal
      .finished).Invariant found := by
  have hdone : ¬search.2.IsDone := fun hdone =>
    List.cons_ne_nil _ _ (hqueued.symm.trans hdone.queued)
  obtain ⟨hdisabled, hid⟩ := h.isLast hopen hsearch hdone
  obtain ⟨search₁, hlast, hqueues, hshows⟩ := h.searching hopen hdisabled
  rw [last, ← hid, hsearch] at hlast
  obtain rfl := Option.some.inj hlast
  have hdone' := hqueues.isDone hqueued
  have hall : ∀ i search₀, (w.setThread id (search.1, { search.2 with queued := queued })).threads
      i = some search₀ → search₀.2.IsDone := by
    intro i search₀ hi
    obtain ⟨-, rfl⟩ | ⟨hne, hi⟩ := threads_setThread hi
    · exact hdone'
    · exact h.earlier hopen i search₀ hi fun heq => hne (heq.trans hid.symm)
  refine ⟨fun i search₀ hi => ?_, fun i search₀ hi => ?_, ?_, fun _ => rfl,
    fun _ i search₀ hi _ => hall i search₀ hi,
    fun _ _ => ⟨hall, .inr ⟨(search.1, { search.2 with queued := queued }), ?_, ?_⟩⟩,
    fun _ hfalse => absurd hfalse.symm Bool.false_ne_true⟩
  · obtain ⟨-, rfl⟩ | ⟨-, hi⟩ := threads_setThread hi
    · exact (h.known id search hsearch).dequeue queued
    · exact h.known i search₀ hi
  · obtain ⟨rfl, -⟩ | ⟨-, hi⟩ := threads_setThread hi
    · exact h.started i search hsearch
    · exact h.started i search₀ hi
  · have hbusy : w.busyIndicators = 1 := by
      rw [h.busyIndicators, if_pos ⟨hopen, hdisabled⟩]
    show w.busyIndicators - 1 = if w.isOpen = true ∧ true = false then 1 else 0
    rw [hbusy, if_neg fun hand => Bool.false_ne_true hand.2.symm]
  · show Function.update w.threads id _ (w.idMax - 1) = _
    rw [← hid, Function.update_self]
  · have hpending : search.2.pending = SearchThread.pending { search.2 with queued := queued } := by
      rw [SearchThread.pending, hqueued]
      rfl
    show w.rows ++ SearchThread.pending { search.2 with queued := queued } = search.2.returned
    rw [← hpending]
    exact hshows

theorem Invariant.deliver (h : w.Invariant found) : (w.deliver id).Invariant found := by
  unfold SearchWindow.deliver
  cases hsearch : w.threads id with
  | none => exact h
  | some search =>
    dsimp only
    cases hqueued : search.2.queued with
    | nil => exact h
    | cons signal queued =>
      dsimp only
      have hdone : ¬search.2.IsDone := fun hdone =>
        List.cons_ne_nil _ _ (hqueued.symm.trans hdone.queued)
      have hknown := (h.known id search hsearch).dequeue queued
      split_ifs with hopen
      · cases signal with
        | finished => exact h.finished hopen hsearch hqueued
        | resultsReady results =>
          refine h.goOn hsearch hdone hknown fun _ hqueues hshows =>
            ⟨hqueues.dequeue hqueued, ?_⟩
          have hpending : search.2.pending =
              results ++ SearchThread.pending { search.2 with queued := queued } := by
            rw [SearchThread.pending, hqueued]
            rfl
          rw [List.append_assoc, ← hpending]
          exact hshows
      · -- the slots are disconnected
        have hclosed : w.isOpen = false := Bool.eq_false_of_not_eq_true hopen
        refine invariant_of_closed hclosed (fun i search₀ hi => ?_) (fun i search₀ hi => ?_) ?_
        · obtain ⟨-, rfl⟩ | ⟨-, hi⟩ := threads_setThread hi
          · exact hknown
          · exact h.known i search₀ hi
        · obtain ⟨rfl, -⟩ | ⟨-, hi⟩ := threads_setThread hi
          · exact h.started i search hsearch
          · exact h.started i search₀ hi
        · exact h.busyIndicators.trans (if_neg fun hand => hopen hand.1)

/-- Whatever happens. -/
theorem Invariant.handle {event : SearchEvent κ} (h : w.Invariant found)
    (hpossible : w.Possible found event) : (w.handle event).Invariant found := by
  cases event with
  | find query objectDisplayLimit existing =>
    rw [SearchWindow.handle]
    split_ifs with hready
    · exact h.find hready.1 hready.2 query objectDisplayLimit existing
    · exact h
  | clear =>
    rw [SearchWindow.handle]
    split_ifs with hready
    · exact h.clearResults hready.1 hready.2
    · exact h
  | stop =>
    rw [SearchWindow.handle]
    split_ifs
    · exact h.stop
    · exact h
  | close =>
    rw [SearchWindow.handle]
    split_ifs
    · exact h.close
    · exact h
  | failToConnect id =>
    obtain ⟨search, hsearch, hrunning⟩ := hpossible
    rw [SearchWindow.handle, hsearch]
    exact h.failToConnect hsearch hrunning
  | answer id success morePages results =>
    obtain ⟨search, hsearch, hrunning, hanswers⟩ := hpossible
    rw [SearchWindow.handle, hsearch]
    exact h.answer hsearch hrunning hanswers
  | deliver id => exact h.deliver

end

end SearchWindow

/-! ## Finding objects -/

/-- `FilterWidgetSimpleTab::clear`. -/
def FilterWidgetSimpleTab.clear (tab : FilterWidgetSimpleTab) : FilterWidgetSimpleTab :=
  { FilterWidgetSimpleTab.new with selectClassesWidget := tab.selectClassesWidget }

/-- `FilterWidgetNormalTab::clear`. -/
def FilterWidgetNormalTab.clear (tab : FilterWidgetNormalTab) : FilterWidgetNormalTab :=
  { tab with filterList := [] }

/-- `FilterWidgetAdvancedTab::clear`. -/
def FilterWidgetAdvancedTab.clear (_ : FilterWidgetAdvancedTab) : FilterWidgetAdvancedTab :=
  ⟨.setPlainText []⟩

/-- `FilterWidget::clear`. -/
def FilterWidget.clear (w : FilterWidget) : FilterWidget :=
  { w with
    simpleTab := w.simpleTab.clear
    normalTab := w.normalTab.clear
    advancedTab := w.advancedTab.clear }

/-- `FindWidget`. -/
structure FindWidget where
  filterWidget : FilterWidget
  selectBaseWidget : SelectBaseWidget
  window : SearchWindow (QString × QString)

/-- What happens to the widget: the filter or the base is edited, or something happens to the
    window. -/
inductive FindWidgetEvent
  | editFilter (filterWidget : FilterWidget)
  | selectBase (selectBaseWidget : SelectBaseWidget)
  | window (event : SearchEvent Unit)

/-- The search that is started is prepared. -/
def SearchEvent.prepare {κ : Type} (query : κ) : SearchEvent Unit → SearchEvent κ
  | .find _ objectDisplayLimit existing => .find query objectDisplayLimit existing
  | .clear => .clear
  | .stop => .stop
  | .close => .close
  | .failToConnect id => .failToConnect id
  | .answer id success morePages results => .answer id success morePages results
  | .deliver id => .deliver id

namespace FindWidget

variable (w : FindWidget)

/-- What is searched below, and the filter, in `FindWidget::find`. -/
def query : QString × QString := (w.selectBaseWidget.getBase, w.filterWidget.getFilter)

/-- `FindWidget::on_clear_button`, as far as the filter is concerned. -/
def clearFilter : SearchEvent Unit → FilterWidget
  | .clear => if w.window.isOpen ∧ w.window.clearEnabled then w.filterWidget.clear
    else w.filterWidget
  | _ => w.filterWidget

/-- What an event does. -/
def handle : FindWidgetEvent → FindWidget
  | .editFilter filterWidget => { w with filterWidget }
  | .selectBase selectBaseWidget => { w with selectBaseWidget }
  | .window event =>
    { w with
      filterWidget := w.clearFilter event
      window := w.window.handle (event.prepare w.query) }

/-- The widget of a dialog that is opened. -/
def Starts : Prop := w.window = .new

/-- A search goes on while it is running, as the server answers. -/
def Possible (found : QString × QString → String → Prop) : FindWidgetEvent → Prop
  | .window event => w.window.Possible found (event.prepare w.query)
  | _ => True

end FindWidget

end Admc
