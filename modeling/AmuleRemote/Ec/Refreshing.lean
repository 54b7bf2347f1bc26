import AmuleRemote.Ec.Outcome
import AmuleRemote.Ec.SlotEffect

/-!
# Slots and the refresh they end with

Most slots end with a refresh, once their command is accepted. A call is taken
apart at this point: what the slot does before leaves the grace period of a search
alone, or starts a new search, and reads no progress.

## Main results

- `Slot.call_ends` — a call is a refresh of the world that the slot has led to, or
  it does not get to its refresh
-/

namespace Amule

open Ec Std.Do

set_option mvcgen.warning false

/-! ## What a call shows -/

/-- What a call adds to the trace. -/
def Session.events [Qt] (s : Session) (c : Call) : List Event :=
  (s.step c).trace.drop s.trace.length

theorem Session.events_eq [Qt] {s : Session} {c : Call} {events : List Event}
    (h : (s.step c).trace = s.trace ++ events) : s.events c = events := by
  rw [Session.events, h, List.drop_left]

/-- When the grace period that the worker times began. -/
def EcWorker.graceStart (worker : EcWorker) : Option ℕ :=
  if worker.at100 then some worker.at100Timer else none

/-! ## The refresh of a slot -/

/-- The reply to a command may refuse it. -/
def Slot.refuses : Slot → Packet → Bool
  | .startSearch _, reply | .serverAdd _ _, reply => reply.opcode = Op.failed
  | _, _ => false

/-- What the network still has to answer once the command of a slot is accepted. -/
def Slot.accepted (slot : Slot) (worker : EcWorker) (n : Network) : Option Network :=
  match worker.client, n.replies 0 with
  | some _, .ok reply => if slot.refuses reply then none else some n.next
  | _, _ => none

/-- What a slot refreshes with, if it gets to its refresh: whether a search is on, and what
    the network still has to answer. -/
def Slot.refreshes (slot : Slot) (worker : EcWorker) (n : Network) : Option (Bool × Network) :=
  match slot with
  | .connectToDaemon _ _ _ => n.login.map fun n => (worker.searching, n.next)
  | .timeout =>
    if worker.timerActive && worker.client.isSome then some (worker.searching, n) else none
  | .disconnectFromDaemon | .shutdown | .fetchPrefs | .applyPrefs _ => none
  | .startSearch _ => (slot.accepted worker n).map fun n => (true, n)
  | .stopSearch => (slot.accepted worker n).map fun n => (false, n)
  | _ => (slot.accepted worker n).map fun n => (worker.searching, n)

/-- The slots that are neither to open a connection nor to drop it. -/
def Slot.Stays : Slot → Prop
  | .connectToDaemon _ _ _ | .disconnectFromDaemon | .shutdown => False
  | _ => True

/-- The slot starts a search: it is not ignored. -/
def Slot.Begins (slot : Slot) (worker : EcWorker) : Prop :=
  slot.startsSearch = true ∧ worker.client ≠ none

/-- `w'` is `w` after a part of `slot` that reads no progress. A search that is on was just
    started, or is timed as before. -/
structure LedTo (slot : Slot) (w w' : World) : Prop where
  trace : Trace.Adds (fun ev => ev.progress = none) w.trace w'.trace
  begun : slot.Begins w.worker → w'.worker.searching = true → w'.worker.at100 = false
  kept : ¬slot.Begins w.worker → w'.worker.searching = true →
    w.worker.searching = true ∧ w'.worker.graceStart = w.worker.graceStart

/-- `w'` is `w` with its connection, and no transport error has happened. -/
structure Clean (w w' : World) : Prop where
  client : w'.worker.client = w.worker.client
  trace : Trace.Adds (fun ev => ¬ev.Io) w.trace w'.trace

/-- `w'` is `w` after a transport error. -/
def Broken (w w' : World) : Prop :=
  ∃ events, w'.trace = w.trace ++ events ∧ ∃ ev ∈ events, ev.Io

/-- What a call of a slot makes of `w`. -/
inductive Slot.Ends (slot : Slot) (w : World) : World → Prop
  | refreshed {v : World} (led : LedTo slot w v) (held : v.worker.client ≠ none)
      (now : v.network.now = w.network.now)
      (refreshes : slot.refreshes w.worker w.network = some (v.worker.searching, v.network))
      (clean : slot.Stays → Clean w v) : Ends slot w (EcWorker.onRefresh.run v).2
  | ended {w' : World} (refreshes : slot.refreshes w.worker w.network = none)
      (led : LedTo slot w w') (clean : slot.Stays → Clean w w' ∨ Broken w w') : Ends slot w w'

section

variable {slot : Slot} {w v v' : World}

theorem LedTo.refl (h : ¬slot.Begins w.worker) : LedTo slot w w where
  trace := .refl _
  begun hbegins := absurd hbegins h
  kept _ hon := ⟨hon, rfl⟩

theorem LedTo.trans (h : LedTo slot w v)
    (htrace : Trace.Adds (fun ev => ev.progress = none) v.trace v'.trace)
    (hsearch : v'.worker.searching = true → v.worker.searching = true ∧
      v'.worker.at100 = v.worker.at100 ∧ v'.worker.at100Timer = v.worker.at100Timer) :
    LedTo slot w v' where
  trace := h.trace.trans htrace
  begun hbegins hon := by
    obtain ⟨hwas, hat, -⟩ := hsearch hon
    exact hat.trans (h.begun hbegins hwas)
  kept hbegins hon := by
    obtain ⟨hwas, hat, htimer⟩ := hsearch hon
    obtain ⟨hsearching, hgrace⟩ := h.kept hbegins hwas
    refine ⟨hsearching, Eq.trans ?_ hgrace⟩
    rw [EcWorker.graceStart, EcWorker.graceStart, hat, htimer]

theorem LedTo.emitted (h : LedTo slot w v) (s : Signal) : LedTo slot w (v.emitted s) :=
  h.trans (.one rfl) fun hon => ⟨hon, rfl, rfl⟩

theorem LedTo.exchanged (h : LedTo slot w v) (client : EcClient) {request : Packet}
    (hop : request.opcode ≠ Op.searchProgress) : LedTo slot w (v.exchanged client request) := by
  refine h.trans (.one ?_) fun hon => ⟨hon, rfl, rfl⟩
  cases v.network.replies 0 with
  | ok reply => exact if_neg hop
  | error e => rfl

theorem LedTo.setWorker (h : LedTo slot w v) {worker : EcWorker}
    (hsearch : worker.searching = true → v.worker.searching = true ∧
      worker.at100 = v.worker.at100 ∧ worker.at100Timer = v.worker.at100Timer) :
    LedTo slot w (v.setWorker worker) :=
  h.trans (.refl _) hsearch

theorem LedTo.tornDown (h : LedTo slot w v) (reason : QString) (status : ConnStatus) :
    LedTo slot w (v.tornDown reason status) := by
  apply World.tornDown_keeps
  · exact fun hv => hv.emitted _
  · exact fun _ hv => hv.setWorker nofun
  · exact h.setWorker fun hon => ⟨hon, rfl, rfl⟩

theorem Clean.refl : Clean w w := ⟨rfl, .refl _⟩

theorem Clean.emitted (h : Clean w v) (s : Signal) : Clean w (v.emitted s) :=
  ⟨h.client, h.trace.trans (.one id)⟩

theorem Clean.setWorker (h : Clean w v) {worker : EcWorker}
    (hclient : worker.client = v.worker.client) : Clean w (v.setWorker worker) :=
  ⟨hclient.trans h.client, h.trace⟩

theorem Clean.exchanged (h : Clean w v) (client : EcClient) (request : Packet)
    (hkind : ∀ e, v.network.replies 0 = .error e → e.kind ≠ .io) :
    Clean w (v.exchanged client request) := by
  refine ⟨h.client, h.trace.trans (.one ?_)⟩
  cases hreply : v.network.replies 0 with
  | ok reply => exact id
  | error e => exact hkind e hreply

theorem Clean.replied (h : Clean w v) (client : EcClient) (request : Packet) {reply : Packet}
    (hreply : v.network.replies 0 = .ok reply) : Clean w (v.exchanged client request) :=
  h.exchanged client request fun _ he => absurd (he.symm.trans hreply) nofun

/-- A transport error is not forgotten. -/
theorem Broken.append (h : Broken w v) (events : List Event)
    (htrace : v'.trace = v.trace ++ events) : Broken w v' := by
  obtain ⟨old, hold, ev, hev, hio⟩ := h
  exact ⟨old ++ events, by rw [htrace, hold, List.append_assoc], ev,
    List.mem_append_left _ hev, hio⟩

theorem Clean.broken (h : Clean w v) (client : EcClient) (request : Packet) {e : EcError}
    (hfail : v.network.replies 0 = .error e) (hkind : e.kind = .io) :
    Broken w (v.exchanged client request) := by
  obtain ⟨old, hold, -⟩ := h.trace
  refine ⟨old ++ [.exchange client request (v.network.replies 0)],
    by rw [World.trace_exchanged, hold, List.append_assoc], _,
    List.mem_append_right _ List.mem_cons_self, ?_⟩
  rw [hfail]
  exact hkind

end

/-! ## Commands -/

/-- `w` is `w₀` after one exchange. -/
def Sent (client : EcClient) (w₀ w : World) : Prop :=
  ∃ request : Packet, request.opcode ≠ Op.searchProgress ∧ w = w₀.exchanged client request

/-- A command on `w` fails with its exchange, or because the reply refuses it. -/
def Fails (refuses : Packet → Bool) (w : World) (e : EcError) : Prop :=
  w.network.replies 0 = .error e ∨
    e.kind = .remote ∧ ∃ reply, w.network.replies 0 = .ok reply ∧ refuses reply = true

/-- A command is one exchange. -/
def OneExchange (refuses : Packet → Bool) (fn : EcClient → EcM Unit) : Prop :=
  ∀ client w₀, ⦃fun w => ⌜w = w₀⌝⦄ fn client
    ⦃post⟨fun _ w => ⌜Sent client w₀ w ∧
        ∃ reply, w₀.network.replies 0 = .ok reply ∧ refuses reply = false⌝,
      fun e w => ⌜Sent client w₀ w ∧ Fails refuses w₀ e⌝⟩⦄

theorem sendDiscard_one (opcode : UInt8) (tags : List Tag) (hop : opcode ≠ Op.searchProgress) :
    OneExchange (fun _ => false) fun client => sendDiscard client ⟨opcode, tags⟩ := by
  intro client w₀
  mvcgen [sendDiscard, EcClient.exchange]
  next w hw reply hreply =>
    subst hw
    exact ⟨⟨_, hop, rfl⟩, reply, hreply⟩
  next w hw e hfail =>
    subst hw
    exact ⟨⟨_, hop, rfl⟩, .inl hfail⟩

theorem requestDiscard_one (opcode : UInt8) (hop : opcode ≠ Op.searchProgress) :
    OneExchange (fun _ => false) fun client => requestDiscard client opcode :=
  sendDiscard_one opcode [] hop

/-- A command whose reply may be a refusal, with its reason. -/
theorem refusable_one (request : Packet) (hop : request.opcode ≠ Op.searchProgress)
    (reason : Packet → QString) :
    OneExchange (fun reply => reply.opcode = Op.failed) (fun client => do
      let resp ← client.exchange request
      if resp.opcode = Op.failed then throw ⟨.remote, reason resp⟩) := by
  intro client w₀
  mvcgen [EcClient.exchange]
  next w hw reply hreply hfailed =>
    subst hw
    exact ⟨⟨request, hop, rfl⟩, .inr ⟨rfl, reply, hreply, decide_eq_true hfailed⟩⟩
  next w hw reply hreply hfailed =>
    subst hw
    exact ⟨⟨request, hop, rfl⟩, reply, hreply, decide_eq_false hfailed⟩
  next w hw e hfail =>
    subst hw
    exact ⟨⟨request, hop, rfl⟩, .inl hfail⟩

theorem serverAdd_one (name address : QString) :
    OneExchange (Slot.serverAdd name address).refuses fun client =>
      serverAdd client name address :=
  refusable_one ⟨Op.serverAdd, _⟩ (show Op.serverAdd ≠ Op.searchProgress by decide) _

theorem startSearch_one (params : SearchParams) :
    OneExchange (Slot.startSearch params).refuses fun client => startSearch client params :=
  refusable_one (searchRequest params) (show Op.searchStart ≠ Op.searchProgress by decide) _

/-! ## Failures -/

/-- `v` is `w` after a failure `e`. -/
structure Failed (slot : Slot) (w : World) (e : EcError) (v : World) : Prop where
  led : LedTo slot w v
  broken : e.kind = .io → Broken w v
  clean : e.kind ≠ .io → Clean w v

section

variable {slot : Slot} {w w₀ v : World} {client : EcClient} {e : EcError}

theorem Failed.sent (hled : LedTo slot w₀ w) (hclean : Clean w₀ w) (hsent : Sent client w v)
    {refuses : Packet → Bool} (hfails : Fails refuses w e) : Failed slot w₀ e v := by
  obtain ⟨request, hop, rfl⟩ := hsent
  refine ⟨hled.exchanged client hop, fun hio => ?_, fun hkept => ?_⟩
  · rcases hfails with hfail | ⟨hremote, -⟩
    · exact hclean.broken client request hfail hio
    · exact absurd (hio.symm.trans hremote) nofun
  · refine hclean.exchanged client request fun e' he' => ?_
    rcases hfails with hfail | ⟨-, reply, hreply, -⟩
    · rwa [Except.error.inj (he'.symm.trans hfail)]
    · exact absurd (he'.symm.trans hreply) nofun

theorem Failed.exchanged (hled : LedTo slot w₀ w) (hclean : Clean w₀ w) (client : EcClient)
    {request : Packet} (hop : request.opcode ≠ Op.searchProgress)
    (hfail : w.network.replies 0 = .error e) :
    Failed slot w₀ e (w.exchanged client request) :=
  have hfails : Fails (fun _ => false) w e := .inl hfail
  .sent hled hclean ⟨request, hop, rfl⟩ hfails

theorem Failed.emitted (h : Failed slot w e v) (s : Signal) : Failed slot w e (v.emitted s) where
  led := h.led.emitted s
  broken hio := (h.broken hio).append [_] rfl
  clean hkept := (h.clean hkept).emitted s

theorem Failed.stopped (h : Failed slot w e v) : Failed slot w e v.stopped := by
  have hoff : Failed slot w e (v.setWorker { v.worker with searching := false }) :=
    { led := h.led.setWorker nofun
      broken := fun hio => (h.broken hio).append [] (List.append_nil _).symm
      clean := fun hkept => (h.clean hkept).setWorker rfl }
  exact hoff.emitted _

/-- A transport error tears the connection down. -/
theorem Failed.ends_lost (h : Failed slot w e v) (hio : e.kind = .io)
    (hrefreshes : slot.refreshes w.worker w.network = none) (reason : QString)
    (status : ConnStatus) : slot.Ends w (v.tornDown reason status) := by
  refine .ended hrefreshes (h.led.tornDown reason status) fun _ => .inr ?_
  refine (h.broken hio).append _ ((v.trace_tornDown reason status).trans (List.append_assoc ..))

/-- An error that nobody acts on leaves the connection. -/
theorem Failed.ends (h : Failed slot w e v)
    (hrefreshes : slot.refreshes w.worker w.network = none) : slot.Ends w v := by
  refine .ended hrefreshes h.led fun _ => ?_
  by_cases hio : e.kind = .io
  · exact .inr (h.broken hio)
  · exact .inl (h.clean hio)

theorem Slot.accepted_eq {worker : EcWorker} {n : Network} {reply : Packet}
    (hclient : worker.client = some client) (hreply : n.replies 0 = .ok reply)
    (haccepted : slot.refuses reply = false) : slot.accepted worker n = some n.next := by
  simp [Slot.accepted, hclient, hreply, haccepted]

theorem Fails.accepted {worker : EcWorker} (h : Fails slot.refuses w e) :
    slot.accepted worker w.network = none := by
  cases hclient : worker.client with
  | none => simp [Slot.accepted, hclient]
  | some client =>
    rcases h with hfail | ⟨-, reply, hreply, hrefused⟩
    · simp [Slot.accepted, hclient, hfail]
    · simp [Slot.accepted, hclient, hreply, hrefused]

theorem Slot.accepted_notConnected {worker : EcWorker} {n : Network}
    (h : worker.client = none) : slot.accepted worker n = none := by
  simp [Slot.accepted, h]

end

/-! ## Slots -/

namespace EcWorker

theorem onRefresh_run (w₁ : World) :
    ⦃fun w => ⌜w = w₁⌝⦄ onRefresh ⦃⇓ _ w => ⌜w = (onRefresh.run w₁).2⌝⦄ :=
  fun _ hw => congrArg (fun w => (onRefresh.run w).2) hw

/-- A command slot, from where its search flag is settled. -/
theorem runConnected_ends {slot : Slot} {fn : EcClient → EcM Unit}
    (hfn : OneExchange slot.refuses fn) {w₀ w : World} (hled : LedTo slot w₀ w)
    (hclean : Clean w₀ w) (hnow : w.network.now = w₀.network.now)
    (hrefreshes : slot.refreshes w₀.worker w₀.network =
      (slot.accepted w.worker w.network).map fun n => (w.worker.searching, n)) :
    slot.Ends w₀ ((runConnected fn).run w).2 := by
  have hrun : ⦃fun v => ⌜v = w⌝⦄ runConnected fn ⦃⇓ _ v => ⌜slot.Ends w₀ v⌝⦄ := by
    have hrefresh := onRefresh_run
    have hcommand := fun client => hfn client w
    mvcgen [runConnected, getClient, notConnected, emit, teardown_eq, hcommand, hrefresh]
    all_goals subst_vars
    next w hclient _ =>
      rw [Slot.accepted_notConnected hclient] at hrefreshes
      exact .ended hrefreshes (hled.emitted _) fun _ => .inl (hclean.emitted _)
    next w client hclient _ v _ v' hsent =>
      rintro rfl
      obtain ⟨⟨request, hop, rfl⟩, reply, hreply, haccepted⟩ := hsent
      rw [Slot.accepted_eq hclient hreply haccepted] at hrefreshes
      refine .refreshed (hled.exchanged client hop) ?_ hnow hrefreshes fun _ => ?_
      · exact hclient ▸ Option.some_ne_none client
      · exact hclean.replied client request hreply
    next w client hclient e v _ hio _ hsent =>
      rw [hsent.2.accepted] at hrefreshes
      exact ((Failed.sent hled hclean hsent.1 hsent.2).emitted _).ends_lost hio hrefreshes _ _
    next w client hclient e v _ hkept hsent =>
      rw [hsent.2.accepted] at hrefreshes
      exact ((Failed.sent hled hclean hsent.1 hsent.2).emitted _).ends hrefreshes
  exact hrun w rfl

/-- A search that is sent is a search just started. -/
theorem led_searches {params : SearchParams} {w : World} (hclient : w.worker.client ≠ none) :
    LedTo (.startSearch params) w (w.searches params) where
  trace := by
    refine ⟨[.emit w.worker.client (.searchingChanged true),
      .emit w.worker.client (.searchResultsUpdated []),
      .emit w.worker.client (.searchProgressChanged 0), .emit w.worker.client
        (.logMessage ((QString.lit "searching for \"%1\"…").arg params.text))], ?_, ?_⟩
    · simp [World.searches]
    · simp [Event.progress]
  begun _ _ := rfl
  kept hbegins := absurd ⟨rfl, hclient⟩ hbegins

theorem clean_searches (params : SearchParams) (w : World) : Clean w (w.searches params) := by
  have hon : Clean w (w.setWorker { w.worker with searching := true, at100 := false }) :=
    Clean.refl.setWorker rfl
  exact (((hon.emitted _).emitted _).emitted _).emitted _

theorem startSearch_ends (params : SearchParams) (w : World) :
    Slot.Ends (.startSearch params) w ((startSearch params).run w).2 := by
  have hrun : ⦃fun v => ⌜v = w⌝⦄ startSearch params
      ⦃⇓ _ v => ⌜Slot.Ends (.startSearch params) w v⌝⦄ := by
    have hrefresh := onRefresh_run
    have hcommand := fun client => startSearch_one params client (w.searches params)
    mvcgen [startSearch, getClient, notConnected, emit, modifyWorker, stopSearching_eq,
      teardown_eq, hcommand, hrefresh]
    all_goals subst_vars
    next w hclient _ =>
      have hnone : (Slot.startSearch params).refreshes w.worker w.network = none := by
        rw [Slot.refreshes, Slot.accepted_notConnected hclient, Option.map_none]
      have hidle : ¬(Slot.startSearch params).Begins w.worker := fun h => h.2 hclient
      exact .ended hnone ((LedTo.refl hidle).emitted _) fun _ => .inl (Clean.refl.emitted _)
    next => rfl
    next w client hclient _ _ _ _ _ _ v _ v' hsent =>
      rintro rfl
      obtain ⟨⟨request, hop, rfl⟩, reply, hreply, haccepted⟩ := hsent
      have hheld : w.worker.client ≠ none := hclient ▸ Option.some_ne_none client
      refine .refreshed ((led_searches hheld).exchanged client hop) hheld rfl ?_ fun _ => ?_
      · rw [Slot.refreshes, Slot.accepted_eq (n := w.network) hclient hreply haccepted]
        rfl
      · exact (clean_searches params w).replied client request hreply
    next w client hclient _ _ _ _ _ e v _ _ hio _ hsent =>
      have hheld : w.worker.client ≠ none := hclient ▸ Option.some_ne_none client
      have hfailed := Failed.sent (led_searches hheld) (clean_searches params w) hsent.1 hsent.2
      refine (hfailed.stopped.emitted _).ends_lost hio ?_ _ _
      rw [Slot.refreshes, Fails.accepted (w := w) hsent.2, Option.map_none]
    next w client hclient _ _ _ _ _ e v _ _ hkept hsent =>
      have hheld : w.worker.client ≠ none := hclient ▸ Option.some_ne_none client
      have hfailed := Failed.sent (led_searches hheld) (clean_searches params w) hsent.1 hsent.2
      refine (hfailed.stopped.emitted _).ends ?_
      rw [Slot.refreshes, Fails.accepted (w := w) hsent.2, Option.map_none]
  exact hrun w rfl

/-- Stopping a search is a command, once the search is announced as stopped. -/
theorem stopSearch_run (w : World) : (stopSearch.run w).2 =
    ((runConnected fun c => Amule.stopSearch c).run
      (if w.worker.searching then w.stopped else w)).2 := by
  cases h : w.worker.searching with
  | false => simp [stopSearch, h]
  | true => simp [stopSearch, h, stopSearching_eq]

theorem stopSearch_ends (w : World) : Slot.stopSearch.Ends w (stopSearch.run w).2 := by
  have hidle : ¬Slot.stopSearch.Begins w.worker := fun h => absurd h.1 Bool.false_ne_true
  have hcommand : OneExchange Slot.stopSearch.refuses fun c => Amule.stopSearch c :=
    requestDiscard_one Op.searchStop (by decide)
  rw [stopSearch_run]
  cases hsearching : w.worker.searching with
  | false =>
    refine runConnected_ends hcommand (LedTo.refl hidle) Clean.refl rfl ?_
    simp only [Slot.refreshes, hsearching, Bool.false_eq_true, if_false]
  | true =>
    have hled : LedTo .stopSearch w (w.setWorker { w.worker with searching := false }) :=
      (LedTo.refl hidle).setWorker nofun
    have hclean : Clean w (w.setWorker { w.worker with searching := false }) :=
      Clean.refl.setWorker rfl
    exact runConnected_ends hcommand (hled.emitted _) (hclean.emitted _) rfl rfl

theorem fetchPrefs_ends (w : World) : Slot.fetchPrefs.Ends w (EcWorker.fetchPrefs.run w).2 := by
  have hidle : ¬Slot.fetchPrefs.Begins w.worker := fun h => absurd h.1 Bool.false_ne_true
  have hop : prefsRequest.opcode ≠ Op.searchProgress := by decide
  have hrun : ⦃fun v => ⌜v = w⌝⦄ EcWorker.fetchPrefs ⦃⇓ _ v => ⌜Slot.fetchPrefs.Ends w v⌝⦄ := by
    mvcgen [EcWorker.fetchPrefs, Amule.fetchPrefs, EcClient.exchange, getClient, notConnected,
      emit, teardown_eq]
    all_goals subst_vars
    next w hclient _ =>
      exact .ended rfl ((LedTo.refl hidle).emitted _) fun _ => .inl (Clean.refl.emitted _)
    next w client hclient reply hreply _ =>
      refine .ended rfl (((LedTo.refl hidle).exchanged client hop).emitted _) fun _ => .inl ?_
      exact (Clean.refl.replied client _ hreply).emitted _
    next w client hclient e hfail _ hio _ =>
      have hfailed := Failed.exchanged (LedTo.refl hidle) Clean.refl client hop hfail
      exact (hfailed.emitted _).ends_lost hio rfl _ _
    next w client hclient e hfail _ hkept =>
      have hfailed := Failed.exchanged (LedTo.refl hidle) Clean.refl client hop hfail
      exact (hfailed.emitted _).ends rfl
  exact hrun w rfl

theorem applyPrefs_ends (prefs : DaemonPrefs) (w : World) :
    Slot.Ends (.applyPrefs prefs) w ((applyPrefs prefs).run w).2 := by
  have hidle : ¬(Slot.applyPrefs prefs).Begins w.worker := fun h => absurd h.1 Bool.false_ne_true
  have hwrite : (setPrefsRequest prefs).opcode ≠ Op.searchProgress :=
    show Op.setPreferences ≠ Op.searchProgress by decide
  have hread : prefsRequest.opcode ≠ Op.searchProgress := by decide
  have hstart : LedTo (.applyPrefs prefs) w w := LedTo.refl hidle
  have hrun : ⦃fun v => ⌜v = w⌝⦄ applyPrefs prefs
      ⦃⇓ _ v => ⌜Slot.Ends (.applyPrefs prefs) w v⌝⦄ := by
    mvcgen [applyPrefs, setPrefs, sendDiscard, Amule.fetchPrefs, EcClient.exchange, getClient,
      notConnected, emit, teardown_eq]
    all_goals subst_vars
    next w hclient _ => exact .ended rfl (hstart.emitted _) fun _ => .inl (Clean.refl.emitted _)
    next w client hclient _ hok _ reply hreply _ =>
      refine .ended rfl ?_ fun _ => .inl ?_
      · exact (((hstart.exchanged client hwrite).emitted _).exchanged client hread).emitted _
      · exact (((Clean.refl.replied client _ hok).emitted _).replied client _ hreply).emitted _
    next w client hclient _ hok _ e hfail =>
      refine (Failed.exchanged ?_ ?_ client hread hfail).ends rfl
      · exact (hstart.exchanged client hwrite).emitted _
      · exact (Clean.refl.replied client _ hok).emitted _
    next w client hclient e hfail _ hio _ =>
      have hfailed := Failed.exchanged hstart Clean.refl client hwrite hfail
      exact (hfailed.emitted _).ends_lost hio rfl _ _
    next w client hclient e hfail _ hkept =>
      have hfailed := Failed.exchanged hstart Clean.refl client hwrite hfail
      exact (hfailed.emitted _).ends rfl
  exact hrun w rfl

theorem disconnectFromDaemon_ends (w : World) :
    Slot.disconnectFromDaemon.Ends w (disconnectFromDaemon.run w).2 := by
  have hidle : ¬Slot.disconnectFromDaemon.Begins w.worker :=
    fun h => absurd h.1 Bool.false_ne_true
  have hrun : (disconnectFromDaemon.run w).2 =
      (w.tornDown (.lit "disconnected") .disconnected).emitted
        (.logMessage (.lit "disconnected")) := by
    rw [disconnectFromDaemon, teardown_eq]
    rfl
  rw [hrun]
  exact .ended rfl (((LedTo.refl hidle).tornDown _ _).emitted _) False.elim

theorem shutdown_ends (w : World) : Slot.shutdown.Ends w (shutdown.run w).2 := by
  have hidle : ¬Slot.shutdown.Begins w.worker := fun h => absurd h.1 Bool.false_ne_true
  have hled : LedTo .shutdown w (w.setWorker
      { w.worker with timerActive := false, client := none, sourceClients := ∅ }) :=
    (LedTo.refl hidle).setWorker fun hon => ⟨hon, rfl, rfl⟩
  exact .ended rfl hled False.elim

theorem timeout_ends [Qt] (w : World) : Slot.timeout.Ends w (Slot.timeout.call.run w).2 := by
  have hidle : ¬Slot.timeout.Begins w.worker := fun h => absurd h.1 Bool.false_ne_true
  have hrun : (Slot.timeout.call.run w).2 =
      if w.worker.timerActive then (onRefresh.run w).2 else w := by
    cases hactive : w.worker.timerActive with
    | false =>
      simp only [Slot.call, StateT.run_bind, StateT.run_get, pure_bind, hactive]
      rfl
    | true => simp [Slot.call, hactive]
  rw [hrun]
  cases hactive : w.worker.timerActive with
  | false =>
    refine .ended ?_ (LedTo.refl hidle) fun _ => .inl Clean.refl
    simp [Slot.refreshes, hactive]
  | true =>
    cases hclient : w.worker.client with
    | none =>
      have hskip : (onRefresh.run w).2 = w := by
        simp only [onRefresh, getClient, StateT.run_bind, StateT.run_get, pure_bind, hclient]
        rfl
      rw [if_pos rfl, hskip]
      refine .ended ?_ (LedTo.refl hidle) fun _ => .inl Clean.refl
      simp [Slot.refreshes, hclient]
    | some client =>
      refine .refreshed (LedTo.refl hidle) (hclient ▸ Option.some_ne_none client) rfl ?_
        fun _ => Clean.refl
      simp [Slot.refreshes, hactive, hclient]

end EcWorker

/-! ## Connecting -/

theorem Network.now_login {n n' : Network} (h : n.login = some n') : n'.now = n.now := by
  unfold Network.login at h
  split at h
  · split at h
    · split at h
      · split at h
        · rw [← Option.some.inj h]
          rfl
        · exact absurd h nofun
      · exact absurd h nofun
    · split at h
      · rw [← Option.some.inj h]
        rfl
      · exact absurd h nofun
  · exact absurd h nofun

/-- A handshake reads no progress. -/
theorem Event.Handshake.progress {id : ℕ} {ev : Event} (h : ev.Handshake id) :
    ev.progress = none := by
  cases ev with
  | emit client signal => rfl
  | exchange client request reply =>
    cases reply with
    | ok reply => exact if_neg (h.ne (by decide) (by decide))
    | error e => rfl

section connect

variable {slot : Slot} {w₀ w w' : World}

theorem LedTo.connecting (h : LedTo slot w₀ w) (host : QString) (port : UInt16) :
    LedTo slot w₀ (w.connecting host port) := by
  refine LedTo.emitted (LedTo.emitted ?_ _) _
  exact h.setWorker fun hon => ⟨hon, rfl, rfl⟩

theorem LedTo.shaken (h : LedTo slot w₀ w) (hshaken : Shaken w w')
    (hworker : w'.worker = w.worker) : LedTo slot w₀ w' := by
  obtain ⟨events, htrace, hevents⟩ := hshaken
  refine h.trans ⟨events, htrace, fun ev hev => (hevents ev hev).progress⟩ fun hon => ?_
  rw [hworker] at hon ⊢
  exact ⟨hon, rfl, rfl⟩

theorem LedTo.settled (h : LedTo slot w₀ w) (client : EcClient) :
    LedTo slot w₀ ((w.adopted client).settled client) := by
  have hop : prefsRequest.opcode ≠ Op.searchProgress := by decide
  have hadopted : LedTo slot w₀ (w.adopted client) := by
    refine LedTo.emitted (LedTo.emitted ?_ _) _
    exact h.setWorker fun hon => ⟨hon, rfl, rfl⟩
  have hasked := hadopted.exchanged client hop
  cases hreply : (w.adopted client).network.replies 0 with
  | ok reply =>
    rw [World.settled_ok hreply]
    exact (hasked.emitted _).setWorker fun hon => ⟨hon, rfl, rfl⟩
  | error e =>
    rw [World.settled_error hreply]
    exact hasked.setWorker fun hon => ⟨hon, rfl, rfl⟩

end connect

theorem EcWorker.connectToDaemon_ends [Qt] (host : QString) (port : UInt16) (password : QString)
    (w₀ : World) : Slot.Ends (.connectToDaemon host port password) w₀
      ((connectToDaemon host port password).run w₀).2 := by
  have hidle : ¬(Slot.connectToDaemon host port password).Begins w₀.worker :=
    fun h => absurd h.1 Bool.false_ne_true
  have hled := (LedTo.refl hidle).connecting host port
  rcases connectToDaemon_run host port password w₀ with
    ⟨client, w, haccepted, hshaken, heq⟩ | ⟨w, message, hrefused, hshaken, heq⟩
  · have hlogin : w₀.network.login = some w.network := haccepted.network
    rw [heq]
    refine .refreshed ((hled.shaken hshaken haccepted.worker).settled client) ?_ ?_ ?_ False.elim
    · rw [haccepted.worker_settled]
      exact Option.some_ne_none client
    · rw [World.network_settled]
      exact (Network.now_login hlogin :)
    · rw [haccepted.worker_settled, World.network_settled, Slot.refreshes, hlogin]
      rfl
  · have hlogin : w₀.network.login = none := hrefused.network
    rw [heq]
    refine .ended ?_ (((hled.shaken hshaken hrefused.worker).emitted _).emitted _) False.elim
    rw [Slot.refreshes, hlogin, Option.map_none]

/-- Every call is a refresh of the world that its slot has led to, or does not get there. -/
theorem Slot.call_ends [Qt] (slot : Slot) (w : World) : slot.Ends w (slot.call.run w).2 := by
  have hrun {slot : Slot} {fn : EcClient → EcM Unit} (hslot : slot.startsSearch = false)
      (hrefreshes : slot.refreshes w.worker w.network =
        (slot.accepted w.worker w.network).map fun n => (w.worker.searching, n))
      (hfn : OneExchange slot.refuses fn) :
      slot.Ends w ((EcWorker.runConnected fn).run w).2 := by
    have hidle : ¬slot.Begins w.worker := fun h => Bool.false_ne_true (hslot.symm.trans h.1)
    exact EcWorker.runConnected_ends hfn (LedTo.refl hidle) Clean.refl rfl hrefreshes
  cases slot with
  | connectToDaemon host port password => exact EcWorker.connectToDaemon_ends host port password w
  | disconnectFromDaemon => exact EcWorker.disconnectFromDaemon_ends w
  | startSearch params => exact EcWorker.startSearch_ends params w
  | stopSearch => exact EcWorker.stopSearch_ends w
  | fetchPrefs => exact EcWorker.fetchPrefs_ends w
  | applyPrefs prefs => exact EcWorker.applyPrefs_ends prefs w
  | shutdown => exact EcWorker.shutdown_ends w
  | timeout => exact EcWorker.timeout_ends w
  | serverAdd name address => exact hrun rfl rfl (serverAdd_one name address)
  | clearCompleted | connectNetworks | disconnectNetworks | startKad | stopKad | serverConnectAny
  | serverDisconnect | reloadShared =>
    refine hrun rfl rfl ?_
    exact requestDiscard_one _ (by decide)
  | _ =>
    refine hrun rfl rfl ?_
    exact sendDiscard_one _ _ (by decide)

/-- A step of a session is a call, which is taken apart so. -/
theorem Session.step_ends [Qt] (s : Session) (c : Call) :
    ∃ w, s.step c = w.session ∧ c.slot.Ends (s.world c.network) w :=
  ⟨_, rfl, Slot.call_ends c.slot (s.world c.network)⟩

end Amule
