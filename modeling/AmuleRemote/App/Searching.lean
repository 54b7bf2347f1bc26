import AmuleRemote.Lib.Run
import AmuleRemote.App.System
import AmuleRemote.Ec.SlotCourse

/-!
# Whose results a tab shows

The results that arrive are stored into the live tab, whatever search they are
from. A tab is live as soon as its search is asked for, so results of the search
before may still be on their way, or yet to be fetched by a worker that has not
come to the new search.
-/

namespace Amule

open Ec

/-- A message with search results. -/
def Message.hasResults (m : Message) : Bool :=
  match m.signal with
  | .searchResultsUpdated _ => true
  | _ => false

/-! ## When results are reported -/

/-- A call may report results if it starts a search, or if it refreshes while one is on. -/
def Slot.mayReport (slot : Slot) (worker : EcWorker) : Bool :=
  match slot with
  | .startSearch _ => worker.client.isSome
  | .connectToDaemon _ _ _ => worker.searching
  -- they stop the search, or do not refresh
  | .stopSearch | .disconnectFromDaemon | .shutdown | .fetchPrefs | .applyPrefs _ => false
  | _ => worker.searching && worker.client.isSome

/-- The event is a report of search results. -/
def Event.hasResults : Event → Bool
  | .emit _ (.searchResultsUpdated _) => true
  | _ => false

section reports

variable {client : EcClient} {worker worker' : EcWorker} {events : List Event}

theorem any_hasResults_rounds (client : EcClient) (rounds : List Round) :
    (client.rounds rounds).any Event.hasResults = false := by
  simp [EcClient.rounds, Event.hasResults]

theorem any_hasResults_farewell (worker : EcWorker) (reason : QString) (status : ConnStatus) :
    (worker.farewell reason status).any Event.hasResults = false := by
  cases hsearching : worker.searching <;> simp [EcWorker.farewell, hsearching, Event.hasResults]

theorem any_hasResults_snapshot (s : Snapshot) (client : EcClient) (worker : EcWorker) :
    (s.events client worker).any Event.hasResults = false := by
  rw [Snapshot.events, List.any_append, any_hasResults_rounds]
  rfl

theorem any_hasResults_failure (client : EcClient) (worker : EcWorker) (request : Packet)
    (e : EcError) : (failure client worker request e).any Event.hasResults = false := by
  simp [failure, any_hasResults_farewell, Event.hasResults]

/-- A refresh reports results only while a search is on. -/
theorem Refreshing.searching (h : Refreshing client worker events worker')
    (hresults : events.any Event.hasResults = true) : worker.searching = true := by
  cases h with
  | lost cut =>
    rw [List.any_append, any_hasResults_rounds, any_hasResults_failure] at hresults
    cases hresults
  | told s idle =>
    rw [any_hasResults_snapshot] at hresults
    cases hresults
  | lostPolling s on cut => exact on
  | polled s on progress results searching at100 at100Timer => exact on

/-- Only a new search reports results before it is sent. -/
theorem any_hasResults_prelude {slot : Slot} (hother : slot.startsSearch = false)
    (worker : EcWorker) (held : Option EcClient) :
    ((slot.prelude worker).map (Event.emit held)).any Event.hasResults = false := by
  cases slot with
  | startSearch params => cases hother
  | stopSearch =>
    cases hsearching : worker.searching <;> simp [Slot.prelude, hsearching, Event.hasResults]
  | _ => rfl

theorem any_hasResults_complaint (slot : Slot) (message : QString) (held : Option EcClient) :
    ((slot.complaint message).map (Event.emit held)).any Event.hasResults = false := by
  cases slot <;> rfl

theorem any_hasResults_answer (worker : EcWorker) (e : EcError) :
    (worker.answer e).any Event.hasResults = false := by
  rw [EcWorker.answer]
  split
  · exact any_hasResults_farewell _ _ _
  · rfl

theorem any_hasResults_fetchTells (fetched : Except EcError Packet) (held : Option EcClient) :
    ((fetchTells fetched).map (Event.emit held)).any Event.hasResults = false := by
  cases fetched <;> rfl

theorem any_hasResults_handshake [Qt] {id : ℕ} {md5 : QString}
    {result : Except EcError EcClient} (h : Handshake id md5 events result) :
    events.any Event.hasResults = false := by
  cases h <;> rfl

/-- A call that reports results is one that may. -/
theorem Slot.Course.mayReport [Qt] {slot : Slot} {next next' : ℕ}
    (h : slot.Course worker next events worker' next')
    (hresults : events.any Event.hasResults = true) : slot.mayReport worker = true := by
  have hnothing {P : Prop} (hnone : events.any Event.hasResults = false) : P :=
    absurd (hnone.symm.trans hresults) (by decide)
  cases h with
  | ignored unheld needs other =>
    refine hnothing ?_
    rw [List.any_append, any_hasResults_prelude other]
    rfl
  | ignoredSearch unheld => exact hnothing rfl
  | @failed _ client request result e held sends fails =>
    cases hstarts : slot.startsSearch with
    | false =>
      refine hnothing ?_
      simp only [EcClient.tells, List.any_append, List.any_cons, any_hasResults_complaint,
        any_hasResults_answer, any_hasResults_prelude hstarts, Event.hasResults, Bool.or_false]
    | true =>
      cases slot with
      | startSearch params => exact Option.isSome_iff_exists.mpr ⟨client, held⟩
      | _ => cases hstarts
  | @done _ client request reply events _ held order other accepts refresh =>
    cases hstarts : slot.startsSearch with
    | false =>
      have hrefresh : events.any Event.hasResults = true := by
        simpa only [EcClient.tells, List.any_append, List.any_cons,
          any_hasResults_prelude hstarts, Event.hasResults, Bool.false_or] using hresults
      have hon : (slot.begun worker).searching = true := refresh.searching hrefresh
      cases slot with
      | startSearch params => cases hstarts
      | stopSearch => cases hon
      | applyPrefs prefs => exact absurd rfl (other prefs)
      | connectToDaemon | disconnectFromDaemon | fetchPrefs | shutdown | timeout => cases order
      | _ => exact Bool.and_eq_true_iff.mpr ⟨hon, Option.isSome_iff_exists.mpr ⟨client, held⟩⟩
    | true =>
      cases slot with
      | startSearch params => exact Option.isSome_iff_exists.mpr ⟨client, held⟩
      | _ => cases hstarts
  | applied held reply fetched =>
    refine hnothing ?_
    simp only [EcClient.tells, List.any_cons, any_hasResults_fetchTells, Event.hasResults,
      Bool.or_false]
  | fetched held reply => exact hnothing rfl
  | @refreshed client _ _ held active refresh =>
    exact Bool.and_eq_true_iff.mpr
      ⟨refresh.searching hresults, Option.isSome_iff_exists.mpr ⟨client, held⟩⟩
  | idle idle => exact hnothing rfl
  | disconnected =>
    refine hnothing ?_
    rw [List.any_append, any_hasResults_farewell]
    rfl
  | shutdown => exact hnothing rfl
  | refused handshake =>
    refine hnothing ?_
    rw [List.any_append, List.any_append, any_hasResults_handshake handshake]
    rfl
  | @connected _ _ _ _ events _ _ fetched handshake refresh =>
    have hrefresh : events.any Event.hasResults = true := by
      simpa only [EcClient.tells, List.any_append, List.any_cons, announcement, welcome,
        List.map_cons, List.map_nil, List.any_nil, any_hasResults_handshake handshake,
        any_hasResults_fetchTells, Event.hasResults, Bool.false_or, Bool.or_false] using hresults
    have hon := refresh.searching hrefresh
    exact hon

end reports

namespace System

/-- Every tab has results of its own search, if any. -/
def Attributed (s : System) : Prop :=
  ∀ tab ∈ s.window.search.tabs, tab.source = none ∨ tab.source = some tab.number

instance (s : System) : Decidable s.Attributed := by
  unfold Attributed
  infer_instance

/-- The searches that wait for the worker. -/
def pending (commands : List Command) : ℕ := commands.countP fun c => c.slot.startsSearch

/-- A search is asked for only when no results are on their way to the window, and while a tab
    is live the worker only takes a call that may report results when no further search waits. -/
def SearchesInTurn (s : System) : Action → Prop
  | .searchClicked query _ _ => query.trimmed ≠ [] → ∀ m ∈ s.signals, m.hasResults = false
  | .run _ => ∀ c ∈ s.commands.head?, s.window.search.live ≠ none →
    c.slot.mayReport s.session.worker = true → pending s.commands.tail = 0
  | .timerFired _ => s.window.search.live ≠ none →
    Slot.timeout.mayReport s.session.worker = true → pending s.commands = 0
  | _ => True

instance : (s : System) → (act : Action) → Decidable (s.SearchesInTurn act)
  | s, .searchClicked query _ _ =>
    inferInstanceAs (Decidable (query.trimmed ≠ [] → ∀ m ∈ s.signals, m.hasResults = false))
  | s, .run _ => inferInstanceAs (Decidable (∀ c ∈ s.commands.head?, s.window.search.live ≠ none →
      c.slot.mayReport s.session.worker = true → pending s.commands.tail = 0))
  | s, .timerFired _ => inferInstanceAs (Decidable (s.window.search.live ≠ none →
      Slot.timeout.mayReport s.session.worker = true → pending s.commands = 0))
  | _, .connectClicked _ _ _ | _, .disconnectClicked | _, .edited _ | _, .applyClicked
  | _, .reloadClicked | _, .tabClosed _ | _, .commanded _ _ | _, .delivered => isTrue trivial

/-- The live tab is the last one opened, and results on their way are of its search. -/
structure InTurn (s : System) : Prop where
  attributed : s.Attributed
  count : s.begun + pending s.commands = s.window.search.opened
  live : ∀ number, s.window.search.live = some number → number = s.window.search.opened
  signals : ∀ m ∈ s.signals, m.hasResults = true → ∀ number,
    s.window.search.live = some number → m.search = number

variable {s : System}

theorem pending_append (commands : List Command) (c : Command) :
    pending (commands ++ [c]) = pending commands + if c.slot.startsSearch then 1 else 0 := by
  rw [pending, List.countP_append, List.countP_singleton]
  rfl

theorem pending_cons (c : Command) (commands : List Command) :
    pending (c :: commands) = pending commands + if c.slot.startsSearch then 1 else 0 :=
  List.countP_cons

theorem InTurn.enqueue (h : s.InTurn) {command : Command}
    (hcommand : command.slot.startsSearch = false) : (s.enqueue command).InTurn where
  attributed := h.attributed
  count := by
    show s.begun + pending (s.commands ++ [command]) = s.window.search.opened
    rw [pending_append, hcommand]
    exact h.count
  live := h.live
  signals := h.signals

/-- A new tab is opened while no results are on their way. -/
theorem InTurn.searched (h : s.InTurn) {query fileType : QString} {kind : SearchKind}
    {search : SearchPanel} {params : SearchParams}
    (hsearch : s.window.search.onSearch query kind fileType = (search, some params))
    (hquiet : query.trimmed ≠ [] → ∀ m ∈ s.signals, m.hasResults = false) :
    ({ s with window := { s.window with search } }.enqueue
      { slot := .startSearch params }).InTurn := by
  by_cases hquery : query.trimmed = []
  · rw [SearchPanel.onSearch, if_pos hquery] at hsearch
    exact absurd (congrArg Prod.snd hsearch) nofun
  rw [SearchPanel.onSearch, if_neg hquery] at hsearch
  obtain ⟨rfl, -⟩ := Prod.mk.inj hsearch
  refine ⟨?_, ?_, ?_, ?_⟩
  · intro tab htab
    cases List.mem_append.mp htab with
    | inl htab => exact h.attributed tab htab
    | inr htab =>
      rw [List.mem_singleton.mp htab]
      exact .inl rfl
  · show s.begun + pending (s.commands ++ [_]) = s.window.search.opened + 1
    rw [pending_append, ← h.count]
    rfl
  · intro number hlive
    exact (Option.some.inj hlive).symm
  · intro m hm hresults
    rw [hquiet hquery m hm] at hresults
    exact absurd hresults nofun

/-- Closing a tab leaves the others as they are, and no other becomes live. -/
theorem InTurn.closed (h : s.InTurn) {index : ℕ} {search : SearchPanel} {stops : Bool}
    (hclose : s.window.search.onTabClose index = (search, stops)) :
    InTurn { s with window := { s.window with search } } := by
  have hpanel : search.tabs ⊆ s.window.search.tabs ∧ search.opened = s.window.search.opened ∧
      ∀ number, search.live = some number → s.window.search.live = some number := by
    rw [SearchPanel.onTabClose] at hclose
    split at hclose
    · obtain ⟨rfl, -⟩ := Prod.mk.inj hclose
      exact ⟨List.eraseIdx_subset, rfl, nofun⟩
    · obtain ⟨rfl, -⟩ := Prod.mk.inj hclose
      exact ⟨List.eraseIdx_subset, rfl, fun _ => id⟩
  obtain ⟨htabs, hopened, hlive⟩ := hpanel
  refine ⟨?_, ?_, ?_, ?_⟩
  · exact fun tab htab => h.attributed tab (htabs htab)
  · exact h.count.trans hopened.symm
  · exact fun number hnumber => (h.live number (hlive number hnumber)).trans hopened.symm
  · exact fun m hm hresults number hnumber => h.signals m hm hresults number (hlive number hnumber)

/-- Results of the live tab's search are stored into it. -/
theorem Attributed.setResults (h : s.Attributed) {results : List SearchResult} {search : ℕ}
    (hlive : ∀ number, s.window.search.live = some number → search = number) :
    ∀ tab ∈ (s.window.search.setResults results search).tabs,
      tab.source = none ∨ tab.source = some tab.number := by
  intro tab htab
  cases hpanel : s.window.search.live with
  | none =>
    rw [SearchPanel.setResults, hpanel] at htab
    exact h tab htab
  | some live =>
    rw [SearchPanel.setResults, hpanel] at htab
    obtain ⟨old, hold, rfl⟩ := List.mem_map.mp htab
    by_cases hnumber : old.number = live
    · rw [if_pos hnumber]
      exact .inr (congrArg some ((hlive live hpanel).trans hnumber.symm))
    · rw [if_neg hnumber]
      exact h old hold

theorem InTurn.delivered (h : s.InTurn) {m : Message} {signals : List Message}
    (hsignals : s.signals = m :: signals) :
    InTurn { s with window := s.window.receive m, signals } := by
  have hrest {m'} (hm' : m' ∈ signals) : m' ∈ s.signals := hsignals ▸ List.mem_cons_of_mem m hm'
  have hm := h.signals m (hsignals ▸ List.mem_cons_self)
  obtain ⟨signal, held, search⟩ := m
  cases signal with
  | searchResultsUpdated results =>
    have hpanel : (s.window.search.setResults results search).live = s.window.search.live ∧
        (s.window.search.setResults results search).opened = s.window.search.opened := by
      rw [SearchPanel.setResults]
      split
      · exact ⟨rfl, rfl⟩
      · exact ⟨rfl, rfl⟩
    obtain ⟨hlive, hopened⟩ := hpanel
    refine ⟨h.attributed.setResults (hm rfl), h.count.trans hopened.symm, ?_, ?_⟩
    · intro number hnumber
      exact (h.live number (hlive ▸ hnumber)).trans hopened.symm
    · intro m' hm' hresults number hnumber
      exact h.signals m' (hrest hm') hresults number (hlive ▸ hnumber)
  | _ =>
    exact ⟨h.attributed, h.count, h.live, fun m' hm' => h.signals m' (hrest hm')⟩

/-- A call of the worker, with `commands` left to come: results are of the last search begun. -/
theorem InTurn.call [Qt] {c : Call} (hattributed : s.Attributed)
    (hcount : (s.begun + if c.slot.startsSearch then 1 else 0) + pending s.commands =
      s.window.search.opened)
    (hlive : ∀ number, s.window.search.live = some number → number = s.window.search.opened)
    (hsignals : ∀ m ∈ s.signals, m.hasResults = true → ∀ number,
      s.window.search.live = some number → m.search = number)
    (hturn : s.window.search.live ≠ none → c.slot.mayReport s.session.worker = true →
      pending s.commands = 0) :
    (s.call c).InTurn := by
  obtain ⟨events, heffect⟩ := s.call_spec c
  obtain ⟨events', htrace, hcourse⟩ := s.session.step_course c
  -- the effect knows of the queues and the course of the results: they are of one trace
  obtain rfl : events' = events := List.append_cancel_left (htrace.symm.trans heffect.trace)
  have hbegun : (s.call c).begun = s.begun + if c.slot.startsSearch then 1 else 0 := by
    rw [heffect.begun]
    split
    · rfl
    · rfl
  refine ⟨hattributed, ?_, hlive, ?_⟩
  · rw [hbegun]
    exact hcount
  · intro m hm hresults number hnumber
    rcases heffect.mem_signals hm with hold | ⟨hsearch, hnew⟩
    · exact hsignals m hold hresults number hnumber
    · have hreported : events'.any Event.hasResults = true := by
        refine List.any_eq_true.mpr ⟨_, hnew, ?_⟩
        cases hsignal : m.signal with
        | searchResultsUpdated results => rfl
        | _ =>
          rw [Message.hasResults, hsignal] at hresults
          exact absurd hresults nofun
      -- so no search waits, and the last one begun is the last one asked for
      have hnone : pending s.commands = 0 := by
        refine hturn ?_ (hcourse.mayReport hreported)
        rw [show s.window.search.live = some number from hnumber]
        exact Option.some_ne_none number
      rw [hsearch, hbegun, hlive number hnumber]
      omega

theorem inTurn_step [Qt] (s : System) (act : Action) (h : s.InTurn)
    (hturn : s.SearchesInTurn act) : (s.step act).InTurn := by
  have hstep := s.steps act
  generalize s.step act = s' at hstep
  cases hstep with
  | idle => exact h
  | command hslot => exact h.enqueue hslot.search
  | edited panel => exact ⟨h.attributed, h.count, h.live, h.signals⟩
  | applied hconnected => exact h.enqueue rfl
  | searched hsearch => exact h.searched hsearch hturn
  | @closed index search stops hclose _ hs' =>
    cases stops with
    | true =>
      subst hs'
      exact (h.closed hclose).enqueue rfl
    | false =>
      subst hs'
      exact h.closed hclose
  | delivered hsignals => exact h.delivered hsignals
  | @ran c commands network hcommands =>
    -- the command taken moves from those pending to those begun
    rw [SearchesInTurn, hcommands] at hturn
    refine InTurn.call h.attributed ?_ h.live h.signals (hturn c rfl)
    have hcount := h.count
    rw [hcommands, pending_cons] at hcount
    show (s.begun + if c.slot.startsSearch then 1 else 0) + pending commands =
      s.window.search.opened
    omega
  | fired network => exact InTurn.call h.attributed h.count h.live h.signals hturn

/-- In every run in which searches are asked for and started in turn, a tab only ever shows
    results of its own search. -/
theorem attributed_of_inTurn [Qt] (acts : List Action)
    (h : Run.Along step SearchesInTurn {} acts) : Run.Always step Attributed {} acts := by
  have hstart : InTurn {} := ⟨by simp [Attributed], rfl, nofun, by simp⟩
  exact (Run.always_of_invariant inTurn_step hstart h).mono fun s hs => hs.attributed

/-- A daemon that has one result for any search. -/
def findsOne : Network where
  replies n := .ok ⟨Op.authOk, if n = 8 then [Tag.empty TagName.searchfile] else []⟩

/-- Two searches one after the other; the second is asked for once `early` of the 23 signals up
    to the first one's results have arrived. -/
def twoSearches (early : ℕ) : List Action :=
  [.connectClicked (.lit "localhost") 4712 [], .run .friendly,
    .searchClicked (.lit "first") .global [], .run findsOne] ++
  List.replicate early .delivered ++ [.searchClicked (.lit "second") .global []] ++
  List.replicate (23 - early) .delivered ++ [.run findsOne]

/-- The first search's results arrive once the second tab is live. -/
theorem misattributed_twoSearches :
    ¬Run.Always (@step sampleQt) Attributed {} (twoSearches 13) := by
  decide +kernel

theorem attributed_twoSearches : Run.Always (@step sampleQt) Attributed {} (twoSearches 23) := by
  refine @attributed_of_inTurn sampleQt _ ?_
  decide +kernel

end System

end Amule
