import Mathlib
import AmuleRemote.Ec.Worker

/-!
# Proof rules for the worker's slots

Every slot is made of exchanges, emissions, changes to the worker and teardowns.
`Rules` say that an assertion `K` survives each of these, with `L e` for the time
between a failure `e` and the teardown that answers it. From the rules follows,
slot by slot, that a call keeps `K`; what is left to each assertion is what it
makes of a new connection, of a search that starts and of the preferences.

A `Contract` is what an assertion that looks at little of the worker can give:
the rules follow from it.

## Main results

- `Slot.call_keeps` — the slots that only run a command and refresh
- `EcWorker.startSearch_keeps`, `EcWorker.applyPrefs_keeps`,
  `EcWorker.disconnectFromDaemon_keeps`, `EcWorker.shutdown_keeps` — the others but
  for the connect
- `Whole.keeps` — all of them for an assertion that survives any failure
-/

namespace Amule

open Ec Std.Do

set_option mvcgen.warning false

/-- The request of an incremental update. -/
def updateRequest : Packet := ⟨Op.getUpdate, [.integer TagName.detailLevel Detail.incUpdate]⟩

namespace World

/-- The world after a teardown. -/
def tornDown (w : World) (reason : QString) (status : ConnStatus) : World :=
  let w := w.setWorker
    { w.worker with timerActive := false, client := none, sourceClients := ∅ }
  let w :=
    if w.worker.searching then
      (w.setWorker { w.worker with searching := false }).emitted (.searchingChanged false)
    else w
  w.emitted (.statusChanged status reason)

/-- The world with its search announced as stopped. -/
def stopped (w : World) : World :=
  (w.setWorker { w.worker with searching := false }).emitted (.searchingChanged false)

/-- The world whose search is announced but not yet sent. -/
def searches (w : World) (params : SearchParams) : World :=
  ((((w.setWorker { w.worker with searching := true, at100 := false }).emitted
    (.searchingChanged true)).emitted (.searchResultsUpdated [])).emitted
    (.searchProgressChanged 0)).emitted
    (.logMessage ((QString.lit "searching for \"%1\"…").arg params.text))

/-- The world once `reply` has updated the source clients. -/
def updated (w : World) (client : EcClient) (reply : Packet) : World :=
  (w.exchanged client updateRequest).setWorker
    { w.worker with sourceClients := updateClients w.worker.sourceClients reply }

section

variable (w : World) (reason : QString) (status : ConnStatus)

@[simp] theorem client_tornDown : (w.tornDown reason status).worker.client = none := by
  simp only [tornDown]
  split <;> rfl

@[simp] theorem searching_tornDown : (w.tornDown reason status).worker.searching = false := by
  by_cases h : w.worker.searching = true
  · simp [tornDown, h]
  · simp [tornDown, h]

@[simp] theorem timerActive_tornDown : (w.tornDown reason status).worker.timerActive = false := by
  simp only [tornDown]
  split <;> rfl

@[simp] theorem sourceClients_tornDown : (w.tornDown reason status).worker.sourceClients = ∅ := by
  simp only [tornDown]
  split <;> rfl

@[simp] theorem nextId_tornDown : (w.tornDown reason status).nextId = w.nextId := by
  simp only [tornDown]
  split <;> rfl

/-- A teardown only emits, and with no connection held. -/
theorem trace_tornDown : (w.tornDown reason status).trace =
    w.trace ++ (if w.worker.searching then [.emit none (.searchingChanged false)] else []) ++
      [.emit none (.statusChanged status reason)] := by
  by_cases h : w.worker.searching = true
  · simp [tornDown, h]
  · simp [tornDown, h]

/-- What is kept by any emission, and without a connection by any change of the flag,
    survives a teardown. -/
theorem tornDown_keeps {K : World → Prop} (hemit : ∀ {w s}, K w → K (w.emitted s))
    (hstop : ∀ {w : World}, w.worker.client = none → K w →
      K (w.setWorker { w.worker with searching := false }))
    (hw : K (w.setWorker
      { w.worker with timerActive := false, client := none, sourceClients := ∅ })) :
    K (w.tornDown reason status) := by
  apply hemit
  split
  · exact hemit (hstop rfl hw)
  · exact hw

end

end World

/-- What a slot may emit besides a status and fetched preferences: search results
    only while it is searching. -/
def Ordinary (w : World) : Signal → Prop
  | .statusChanged _ _ => False
  | .prefsUpdated _ => False
  | .searchResultsUpdated _ => w.worker.searching = true
  | _ => True

/-- `prefs` is what a reply on `client` says. -/
def Fetched (client : EcClient) (prefs : DaemonPrefs) (trace : List Event) : Prop :=
  ∃ reply, .exchange client prefsRequest (.ok reply) ∈ trace ∧ prefs = prefsOf reply

/-- `K` holds while the worker holds `client`. -/
def Held (client : EcClient) (K : World → Prop) (w : World) : Prop :=
  K w ∧ w.worker.client = some client

/-- `K` survives a query, and `L e` is what is left of it after a failure `e`. The
    request that writes the preferences is not covered. -/
structure Queries (K : World → Prop) (L : EcError → World → Prop) : Prop where
  reply : ∀ {w client request reply}, request.opcode ≠ Op.setPreferences →
    w.network.replies 0 = .ok reply → Held client K w → K (w.exchanged client request)
  fail : ∀ {w client request e}, request.opcode ≠ Op.setPreferences →
    w.network.replies 0 = .error e → Held client K w → L e (w.exchanged client request)
  refuse : ∀ {w message}, K w → L ⟨.remote, message⟩ w

/-- `K` survives what slots are made of. -/
structure Contract (K : World → Prop) (L : EcError → World → Prop) : Prop extends Queries K L where
  recover : ∀ {w e}, e.kind ≠ .io → L e w → K w
  work : ∀ {w worker}, worker.client = w.worker.client →
    (worker.searching = true → w.worker.searching = true) → K w → K (w.setWorker worker)
  emit : ∀ {w s}, Ordinary w s → K w → K (w.emitted s)
  prefs : ∀ {w client prefs}, Held client K w → Fetched client prefs w.trace →
    K (w.emitted (.prefsUpdated prefs))
  /-- the failure of a command is logged, with the search stopped if it was one -/
  log : ∀ {w e message}, L e w → L e (w.emitted (.logMessage message))
  halt : ∀ {w : World} {e}, L e w →
    L e ((w.setWorker { w.worker with searching := false }).emitted (.searchingChanged false))
  teardown : ∀ {w e reason}, L e w → K (w.tornDown reason .error)

/-- A request that only asks or orders: it starts and stops no search, writes no
    preferences and is no incremental update. -/
def Plain (opcode : UInt8) : Prop :=
  opcode ∉ [Op.setPreferences, Op.getUpdate, Op.searchStart, Op.searchStop]

instance (opcode : UInt8) : Decidable (Plain opcode) := inferInstanceAs (Decidable (_ ∉ _))

theorem Plain.ne {opcode op : UInt8} (h : Plain opcode) (hop : ¬Plain op) : opcode ≠ op :=
  fun heq => hop (heq ▸ h)

/-- What a refresh reports: the sources are those of the map, and search results are
    reported by a search. -/
def Refreshes (w : World) : Signal → Prop
  | .statsUpdated _ | .downloadsUpdated _ | .connStateUpdated _ | .serversUpdated _ => True
  | .sharedFilesUpdated _ | .searchProgressChanged _ => True
  | .sourcesUpdated sources => sources = EcWorker.sortedSources w.worker.sourceClients
  | .searchResultsUpdated _ => w.worker.searching = true
  | _ => False

/-- `K` survives a plain request, and `L e` is what is left of it after a failure `e`. -/
structure Answers (K : World → Prop) (L : EcError → World → Prop) : Prop where
  reply : ∀ {w client request reply}, Plain request.opcode →
    w.network.replies 0 = .ok reply → Held client K w → K (w.exchanged client request)
  fail : ∀ {w client request e}, Plain request.opcode →
    w.network.replies 0 = .error e → Held client K w → L e (w.exchanged client request)
  refuse : ∀ {w message}, K w → L ⟨.remote, message⟩ w

/-- `K` survives the parts of a slot, one by one. -/
structure Rules (K : World → Prop) (L : EcError → World → Prop) : Prop extends Answers K L where
  recover : ∀ {w e}, e.kind ≠ .io → L e w → K w
  log : ∀ {w e message}, L e w → L e (w.emitted (.logMessage message))
  teardown : ∀ {w e reason}, L e w → K (w.tornDown reason .error)
  notice : ∀ {w message}, K w → K (w.emitted (.logMessage message))
  report : ∀ {w client s}, Refreshes w s → Held client K w → K (w.emitted s)
  prefs : ∀ {w client prefs}, Held client K w → Fetched client prefs w.trace →
    K (w.emitted (.prefsUpdated prefs))
  update : ∀ {w client reply}, w.network.replies 0 = .ok reply → Held client K w →
    K (w.updated client reply)
  updateFail : ∀ {w client e}, w.network.replies 0 = .error e → Held client K w →
    L e (w.exchanged client updateRequest)
  /-- the grace period of a search is started or ended -/
  pace : ∀ {w : World} {client at100 at100Timer}, Held client K w →
    K (w.setWorker { w.worker with at100 := at100, at100Timer := at100Timer })
  stop : ∀ {w}, w.worker.searching = true → K w → K w.stopped
  stopReply : ∀ {w client reply}, w.worker.searching = false →
    w.network.replies 0 = .ok reply → Held client K w → K (w.exchanged client ⟨Op.searchStop, []⟩)
  stopFail : ∀ {w client e}, w.worker.searching = false →
    w.network.replies 0 = .error e → Held client K w →
    L e (w.exchanged client ⟨Op.searchStop, []⟩)

/-- `K` holds again once a search has been sent and accepted, or stopped after a failure. -/
structure Starts (K : World → Prop) (L : EcError → World → Prop) (params : SearchParams) :
    Prop where
  reply : ∀ {w client reply}, w.network.replies 0 = .ok reply → reply.opcode ≠ Op.failed →
    Held client K w → K ((w.searches params).exchanged client (searchRequest params))
  fail : ∀ {w client e}, w.network.replies 0 = .error e → Held client K w →
    L e ((w.searches params).exchanged client (searchRequest params)).stopped
  refuse : ∀ {w client reply message}, w.network.replies 0 = .ok reply → Held client K w →
    L ⟨.remote, message⟩ ((w.searches params).exchanged client (searchRequest params)).stopped

/-- It is enough that `K` holds of a search that was sent, whatever the reply, and that it
    survives the search being stopped. -/
theorem Starts.of_sent {K : World → Prop} {params : SearchParams}
    (hsent : ∀ {w client}, Held client K w →
      K ((w.searches params).exchanged client (searchRequest params)))
    (hstopped : ∀ {w}, K w → K w.stopped) : Starts K (fun _ => K) params where
  reply _ _ hheld := hsent hheld
  fail _ hheld := hstopped (hsent hheld)
  refuse _ hheld := hstopped (hsent hheld)

/-- `K` survives every failure, and whatever a slot does but to connect or to shut down. -/
structure Whole (K : World → Prop) : Prop extends Rules K fun _ => K where
  starts : ∀ params, Starts K (fun _ => K) params
  write : ∀ {w client} prefs, Held client K w → K (w.exchanged client (setPrefsRequest prefs))
  disconnect : ∀ {w}, K w → K (w.tornDown (.lit "disconnected") .disconnected)

section contract

variable {K : World → Prop} {L : EcError → World → Prop} (h : Contract K L)
include h

theorem Contract.rules : Rules K L where
  reply hplain hreply hheld := h.reply (hplain.ne (by decide)) hreply hheld
  fail hplain hfail hheld := h.fail (hplain.ne (by decide)) hfail hheld
  refuse hw := h.refuse hw
  recover hkind hw := h.recover hkind hw
  log hw := h.log hw
  teardown hw := h.teardown hw
  notice hw := h.emit trivial hw
  report {w client s} hs hheld := by
    refine h.emit ?_ hheld.1
    cases s with
    | searchResultsUpdated results => exact hs
    | statusChanged | prefsUpdated => exact hs.elim
    | _ => exact trivial
  prefs hheld hfetched := h.prefs hheld hfetched
  update hreply hheld := h.work rfl id (h.reply (show Op.getUpdate ≠ _ by decide) hreply hheld)
  updateFail hfail hheld := h.fail (show Op.getUpdate ≠ _ by decide) hfail hheld
  pace hheld := h.work rfl id hheld.1
  stop _ hw := by
    refine h.emit trivial (h.work rfl ?_ hw)
    exact fun hon => absurd hon nofun
  stopReply _ hreply hheld := h.reply (show Op.searchStop ≠ _ by decide) hreply hheld
  stopFail _ hfail hheld := h.fail (show Op.searchStop ≠ _ by decide) hfail hheld

/-- A contract that also survives the start of a search. -/
theorem Contract.starts (params : SearchParams)
    (hsearch : ∀ w, K w → K (w.setWorker { w.worker with searching := true, at100 := false })) :
    Starts K L params := by
  have hstarted {w client} (hheld : Held client K w) : Held client K (w.searches params) := by
    have hon := h.emit (s := .searchingChanged true) trivial (hsearch w hheld.1)
    exact ⟨h.emit trivial (h.emit trivial (h.emit rfl hon)), hheld.2⟩
  have hop : (searchRequest params).opcode ≠ Op.setPreferences :=
    show Op.searchStart ≠ Op.setPreferences by decide
  constructor
  · intro w client reply hreply _ hheld
    exact h.reply hop hreply (hstarted hheld)
  · intro w client e hfail hheld
    exact h.halt (h.fail hop hfail (hstarted hheld))
  · intro w client reply message hreply hheld
    exact h.halt (h.refuse (h.reply hop hreply (hstarted hheld)))

end contract

/-- A query keeps `K`, or fails with `L`. -/
abbrev Asks (K : World → Prop) (L : EcError → World → Prop) (client : EcClient) {α : Type}
    (query : EcM α) : Prop :=
  ⦃fun w => ⌜Held client K w⌝⦄ query ⦃post⟨fun _ w => ⌜Held client K w⌝, fun e w => ⌜L e w⌝⟩⦄

abbrev Keeps (K : World → Prop) {α : Type} (slot : SlotM α) : Prop :=
  ⦃fun w => ⌜K w⌝⦄ slot ⦃⇓ _ w => ⌜K w⌝⦄

theorem Keeps.run {K : World → Prop} {slot : SlotM Unit} (h : Keeps K slot) {w : World}
    (hw : K w) : K (slot.run w).2 := h w hw

section queries

variable {K : World → Prop} {L : EcError → World → Prop}

theorem exchange_asks (h : Answers K L) (client : EcClient) (request : Packet)
    (hop : Plain request.opcode) : Asks K L client (client.exchange request) := by
  mvcgen [EcClient.exchange]
  next w hheld reply hreply => exact ⟨h.reply hop hreply hheld, hheld.2⟩
  next w hheld e hfail => exact h.fail hop hfail hheld

/-- A query that only reads the reply. -/
theorem read_asks (h : Answers K L) (client : EcClient) (request : Packet)
    (hop : Plain request.opcode) {α : Type} (read : Packet → α) :
    Asks K L client (do let resp ← client.exchange request; pure (read resp)) := by
  have hexchange := exchange_asks h
  mvcgen [hexchange]

variable (h : Answers K L) (client : EcClient)
include h

theorem fetchStats_asks : Asks K L client (fetchStats client) :=
  read_asks h client _ (by decide) _

theorem fetchDownloads_asks : Asks K L client (fetchDownloads client) :=
  read_asks h client _ (by decide) _

theorem fetchConnState_asks : Asks K L client (fetchConnState client) :=
  read_asks h client _ (by decide) _

theorem fetchServers_asks : Asks K L client (fetchServers client) :=
  read_asks h client _ (by decide) _

theorem fetchSharedFiles_asks : Asks K L client (fetchSharedFiles client) :=
  read_asks h client _ (by decide) _

theorem fetchSearchResults_asks : Asks K L client (fetchSearchResults client) :=
  read_asks h client _ (by decide) _

theorem fetchSearchProgress_asks : Asks K L client (fetchSearchProgress client) :=
  read_asks h client _ (by decide) _

theorem sendDiscard_asks (opcode : UInt8) (tags : List Tag) (hop : Plain opcode) :
    Asks K L client (sendDiscard client ⟨opcode, tags⟩) :=
  read_asks h client ⟨opcode, tags⟩ hop fun _ => ()

theorem requestDiscard_asks (opcode : UInt8) (hop : Plain opcode) :
    Asks K L client (requestDiscard client opcode) :=
  read_asks h client ⟨opcode, []⟩ hop fun _ => ()

/-- A command the daemon may refuse. -/
theorem serverAdd_asks (name address : QString) :
    Asks K L client (serverAdd client name address) := by
  have hexchange := exchange_asks h
  mvcgen [serverAdd, hexchange]
  · decide
  next w hheld => exact h.refuse hheld.1

/-- The preferences fetched are those of a reply, and a failure is the network's. -/
theorem fetchPrefs_asks (P : EcError → Prop) :
    ⦃fun w => ⌜Held client K w ∧ ∀ e, w.network.replies 0 = .error e → P e⌝⦄ fetchPrefs client
    ⦃post⟨fun prefs w => ⌜Held client K w ∧ Fetched client prefs w.trace⌝,
      fun e w => ⌜L e w ∧ P e⌝⟩⦄ := by
  mvcgen [fetchPrefs, EcClient.exchange]
  next w hw reply hreply =>
    refine ⟨⟨h.reply (by decide) hreply hw.1, hw.1.2⟩, reply, ?_, rfl⟩
    rw [World.trace_exchanged, hreply]
    exact List.mem_append_right _ List.mem_cons_self
  next w hw e hfail => exact ⟨h.fail (by decide) hfail hw.1, hw.2 e hfail⟩

/-- The worker is not touched by a query, and stays searching. -/
theorem Answers.searching : Answers (fun w => K w ∧ w.worker.searching = true) L where
  reply hop hreply hheld := ⟨h.reply hop hreply ⟨hheld.1.1, hheld.2⟩, hheld.1.2⟩
  fail hop hfail hheld := h.fail hop hfail ⟨hheld.1.1, hheld.2⟩
  refuse hw := h.refuse hw.1

end queries

section

variable {K : World → Prop} {L : EcError → World → Prop} (h : Rules K L) (client : EcClient)
include h

omit client in
theorem Rules.refreshes {client : EcClient} {w : World} {s : Signal} (hs : Refreshes w s)
    (hw : Held client K w) : Held client K (w.emitted s) := ⟨h.report hs hw, hw.2⟩

theorem fetchClientUpdate_asks : Asks K L client (fetchClientUpdate client) := by
  mvcgen [fetchClientUpdate, EcClient.exchange, modifyWorker]
  next w hheld reply hreply _ => exact ⟨h.update hreply hheld, hheld.2⟩
  next w hheld e hfail => exact h.updateFail hfail hheld

theorem stopSearch_asks :
    ⦃fun w => ⌜Held client (fun w => K w ∧ w.worker.searching = false) w⌝⦄ stopSearch client
    ⦃post⟨fun _ w => ⌜Held client K w⌝, fun e w => ⌜L e w⌝⟩⦄ := by
  mvcgen [stopSearch, requestDiscard, EcClient.request, EcClient.exchange]
  next w hw reply hreply =>
    obtain ⟨⟨hK, hoff⟩, hheld⟩ := hw
    exact ⟨h.stopReply hoff hreply ⟨hK, hheld⟩, hheld⟩
  next w hw e hfail =>
    obtain ⟨⟨hK, hoff⟩, hheld⟩ := hw
    exact h.stopFail hoff hfail ⟨hK, hheld⟩

end

/-- A search that is sent: the daemon accepts it, or it is announced as stopped. -/
theorem startSearch_spec {K : World → Prop} {L : EcError → World → Prop} {params : SearchParams}
    (h : Starts K L params) (client : EcClient) :
    ⦃fun w => ⌜∃ w₀, Held client K w₀ ∧ w = w₀.searches params⌝⦄ startSearch client params
    ⦃post⟨fun _ w => ⌜Held client K w⌝, fun e w => ⌜L e w.stopped⌝⟩⦄ := by
  mvcgen [startSearch, EcClient.exchange]
  next w hw reply hreply hfailed =>
    obtain ⟨w₀, hheld, rfl⟩ := hw
    exact h.refuse hreply hheld
  next w hw reply hreply hfailed =>
    obtain ⟨w₀, hheld, rfl⟩ := hw
    exact ⟨h.reply hreply hfailed hheld, hheld.2⟩
  next w hw e hfail =>
    obtain ⟨w₀, hheld, rfl⟩ := hw
    exact h.fail hfail hheld

namespace EcWorker

section

variable {K : World → Prop} {L : EcError → World → Prop}

theorem teardown_eq (reason : QString) (status : ConnStatus) :
    teardown reason status = modify (·.tornDown reason status) := by
  funext w
  by_cases h : w.worker.searching = true
  · simp [teardown, stopSearching, World.tornDown, modifyWorker, emit, modify, modifyGet,
      MonadStateOf.modifyGet, StateT.modifyGet, bind, StateT.bind, get, getThe, MonadStateOf.get,
      StateT.get, pure, h]
  · simp [teardown, World.tornDown, modifyWorker, emit, modify, modifyGet,
      MonadStateOf.modifyGet, StateT.modifyGet, bind, StateT.bind, get, getThe, MonadStateOf.get,
      StateT.get, pure, h]

theorem stopSearching_eq : stopSearching = modify World.stopped := rfl

variable (h : Rules K L) (client : EcClient)
include h

theorem noteProgress_keeps (progress : UInt32) :
    ⦃fun w => ⌜Held client K w ∧ w.worker.searching = true⌝⦄ noteProgress progress
    ⦃⇓ _ w => ⌜Held client K w⌝⦄ := by
  mvcgen [noteProgress, modifyWorker, emit]
  next w hw _ _ _ => exact ⟨h.pace hw.1, hw.1.2⟩
  next w hw _ _ _ _ _ =>
    -- the grace period is over: it is forgotten, and the search stopped
    have hforgotten : K (w.setWorker { w.worker with at100 := false }) := h.pace hw.1
    exact ⟨h.stop (w := w.setWorker { w.worker with at100 := false }) hw.2 hforgotten, hw.1.2⟩
  next w hw _ _ _ => exact hw.1
  next w hw _ _ => exact ⟨h.pace hw.1, hw.1.2⟩

theorem refreshSearch_asks :
    ⦃fun w => ⌜Held client K w ∧ w.worker.searching = true⌝⦄ refreshSearch client
    ⦃post⟨fun _ w => ⌜Held client K w⌝, fun e w => ⌜L e w⌝⟩⦄ := by
  have hprogress := fetchSearchProgress_asks h.searching
  have hresults := fetchSearchResults_asks h.searching
  have hnote := noteProgress_keeps h
  mvcgen [refreshSearch, emit, hprogress, hresults, hnote]
  next w hw => exact ⟨⟨hw.1.1, hw.2⟩, hw.1.2⟩
  next w hw _ _ =>
    obtain ⟨⟨hK, hsearching⟩, hheld⟩ := hw
    exact ⟨h.refreshes hsearching (h.refreshes trivial ⟨hK, hheld⟩), hsearching⟩

theorem refresh_asks : Asks K L client (refresh client) := by
  have hstats := fetchStats_asks h.toAnswers
  have hdownloads := fetchDownloads_asks h.toAnswers
  have hconn := fetchConnState_asks h.toAnswers
  have hservers := fetchServers_asks h.toAnswers
  have hshared := fetchSharedFiles_asks h.toAnswers
  have hupdate := fetchClientUpdate_asks h
  have hsearch := refreshSearch_asks h
  have hsnapshot {w : World} {stats downloads conn servers files}
      (hw : Held client K w) : Held client K
        ((((((w.emitted (.statsUpdated stats)).emitted (.downloadsUpdated downloads)).emitted
          (.connStateUpdated conn)).emitted (.serversUpdated servers)).emitted
          (.sharedFilesUpdated files)).emitted
          (.sourcesUpdated (sortedSources w.worker.sourceClients))) :=
    h.refreshes rfl (h.refreshes trivial (h.refreshes trivial (h.refreshes trivial
      (h.refreshes trivial (h.refreshes trivial hw)))))
  mvcgen [refresh, emit, hstats, hdownloads, hconn, hservers, hshared, hupdate, hsearch]
  next w hw _ _ _ _ _ _ hsearching => exact ⟨hsnapshot hw, hsearching⟩
  next w hw _ _ _ _ _ _ _ => exact hsnapshot hw

omit client in
theorem onRefresh_keeps : Keeps K onRefresh := by
  have hrefresh := refresh_asks h
  mvcgen [onRefresh, getClient, emit, teardown_eq, hrefresh]
  next w hw => exact hw.1
  next w hw _ _ => exact h.teardown (h.log hw)

omit client in
/-- A command may rely on more than `K`, as long as this is known when the slot is called. -/
theorem runConnected_keeps {J : World → Prop} (hJ : ∀ w, J w → K w) {fn : EcClient → EcM Unit}
    (hfn : ∀ client, ⦃fun w => ⌜Held client J w⌝⦄ fn client
      ⦃post⟨fun _ w => ⌜Held client K w⌝, fun e w => ⌜L e w⌝⟩⦄) :
    ⦃fun w => ⌜J w⌝⦄ runConnected fn ⦃⇓ _ w => ⌜K w⌝⦄ := by
  have hrefresh := onRefresh_keeps h
  mvcgen [runConnected, getClient, notConnected, emit, teardown_eq, hfn, hrefresh]
  next w hw _ _ => exact h.notice (hJ w hw)
  next w hw => exact hw.1
  next w hw _ _ _ => exact h.teardown (h.log hw)
  next w hw _ hkind => exact h.recover hkind (h.log hw)

omit client in
theorem startSearch_keeps {params : SearchParams} (hstarts : Starts K L params) :
    Keeps K (startSearch params) := by
  have hrefresh := onRefresh_keeps h
  have hstart := startSearch_spec hstarts
  mvcgen [startSearch, getClient, notConnected, emit, modifyWorker, stopSearching_eq, teardown_eq,
    hstart, hrefresh]
  next w hw _ _ => exact h.notice hw
  next w hw _ hclient _ _ _ _ _ => exact ⟨w, ⟨hw, hclient⟩, rfl⟩
  next w hw => exact hw.1
  next w hw _ _ _ _ => exact h.teardown (h.log hw)
  next w hw _ _ hkind => exact h.recover hkind (h.log hw)

omit client in
theorem stopSearch_keeps : Keeps K stopSearch := by
  have hrun := runConnected_keeps h (J := fun w => K w ∧ w.worker.searching = false)
    (fun w hw => hw.1) fun client => stopSearch_asks h client
  mvcgen [stopSearch, stopSearching_eq, hrun]
  next w hw _ hsearching _ => exact ⟨h.stop hsearching hw, rfl⟩
  next w hw _ hsearching => exact ⟨hw, Bool.eq_false_iff.mpr hsearching⟩

omit client in
theorem fetchPrefs_keeps : Keeps K EcWorker.fetchPrefs := by
  have hfetch (client : EcClient) : ⦃fun w => ⌜Held client K w⌝⦄ Amule.fetchPrefs client
      ⦃post⟨fun prefs w => ⌜Held client K w ∧ Fetched client prefs w.trace⌝,
        fun e w => ⌜L e w⌝⟩⦄ := by
    simpa using fetchPrefs_asks h.toAnswers client fun _ => True
  mvcgen [EcWorker.fetchPrefs, getClient, notConnected, emit, teardown_eq, hfetch]
  next w hw _ _ => exact h.notice hw
  next w hw _ => exact h.prefs hw.1 hw.2
  next w hw _ _ _ => exact h.teardown (h.log hw)
  next w hw _ hkind => exact h.recover hkind (h.log hw)

omit client in
/-- The preferences are written, then fetched: the fetch may not fail in a way
    that `K` does not survive. -/
theorem applyPrefs_keeps (prefs : DaemonPrefs) {w₀ : World}
    (hreply : ∀ {client reply}, w₀.network.replies 0 = .ok reply → Held client K w₀ →
      K (w₀.exchanged client (setPrefsRequest prefs)))
    (hfail : ∀ {client e}, w₀.network.replies 0 = .error e → Held client K w₀ →
      L e (w₀.exchanged client (setPrefsRequest prefs)))
    (hdrop : ∀ {client reply e w}, w₀.worker.client = some client →
      w₀.network.replies 0 = .ok reply → w₀.network.replies 1 = .error e → L e w → K w) :
    ⦃fun w => ⌜K w ∧ w = w₀⌝⦄ applyPrefs prefs ⦃⇓ _ w => ⌜K w⌝⦄ := by
  have hfetch client := fetchPrefs_asks h.toAnswers client fun e => ∃ client reply,
    w₀.worker.client = some client ∧ w₀.network.replies 0 = .ok reply ∧
      w₀.network.replies 1 = .error e
  mvcgen [applyPrefs, setPrefs, sendDiscard, EcClient.exchange, getClient, notConnected, emit,
    teardown_eq, hfetch]
  next w hw _ _ => exact h.notice hw.1
  next w hw client hclient reply hok _ =>
    obtain ⟨hK, rfl⟩ := hw
    exact ⟨⟨h.notice (hreply hok ⟨hK, hclient⟩), hclient⟩,
      fun e he => ⟨client, reply, hclient, hok, he⟩⟩
  next w hw _ => exact h.prefs hw.1 hw.2
  next w hw =>
    obtain ⟨hL, client, reply, hclient, hok, herror⟩ := hw
    exact hdrop hclient hok herror hL
  next w hw client hclient e herror _ _ _ =>
    obtain ⟨hK, rfl⟩ := hw
    exact h.teardown (h.log (hfail herror ⟨hK, hclient⟩))
  next w hw client hclient e herror _ hkind =>
    obtain ⟨hK, rfl⟩ := hw
    exact h.recover hkind (h.log (hfail herror ⟨hK, hclient⟩))

end

theorem disconnectFromDaemon_keeps {K : World → Prop}
    (hdown : ∀ w, K w → K ((w.tornDown (.lit "disconnected") .disconnected).emitted
      (.logMessage (.lit "disconnected")))) : Keeps K disconnectFromDaemon := by
  mvcgen [disconnectFromDaemon, teardown_eq, emit]
  next w hw _ _ => exact hdown w hw

theorem shutdown_keeps {K : World → Prop}
    (hdown : ∀ w, K w → K (w.setWorker
      { w.worker with timerActive := false, client := none, sourceClients := ∅ })) :
    Keeps K shutdown := by
  mvcgen [shutdown, modifyWorker]
  next w hw _ => exact hdown w hw

end EcWorker

/-! ## Slots -/

/-- The slots that run a command, or only refresh. -/
def Slot.Routine : Slot → Prop
  | .connectToDaemon _ _ _ | .disconnectFromDaemon | .shutdown => False
  | .startSearch _ | .applyPrefs _ => False
  | _ => True

/-- A routine slot keeps whatever its parts keep. -/
theorem Slot.call_keeps [Qt] {K : World → Prop} {L : EcError → World → Prop} (h : Rules K L)
    {slot : Slot} (hslot : slot.Routine) : Keeps K slot.call := by
  have hrefresh := EcWorker.onRefresh_keeps h
  have hrun := @EcWorker.runConnected_keeps K L h K fun _ => id
  have hdiscard := requestDiscard_asks h.toAnswers
  have hsend := sendDiscard_asks h.toAnswers
  cases slot with
  | connectToDaemon | disconnectFromDaemon | shutdown | startSearch | applyPrefs =>
    exact absurd hslot id
  | pause hash => exact hrun fun c => hsend c _ _ (by decide)
  | resume hash => exact hrun fun c => hsend c _ _ (by decide)
  | stop hash => exact hrun fun c => hsend c _ _ (by decide)
  | remove hash => exact hrun fun c => hsend c _ _ (by decide)
  | setPriority hash prio => exact hrun fun c => hsend c _ _ (by decide)
  | clearCompleted => exact hrun fun c => hdiscard c _ (by decide)
  | addLink link => exact hrun fun c => hsend c _ _ (by decide)
  | connectNetworks => exact hrun fun c => hdiscard c _ (by decide)
  | disconnectNetworks => exact hrun fun c => hdiscard c _ (by decide)
  | startKad => exact hrun fun c => hdiscard c _ (by decide)
  | stopKad => exact hrun fun c => hdiscard c _ (by decide)
  | stopSearch => exact EcWorker.stopSearch_keeps h
  | downloadResult hash => exact hrun fun c => hsend c _ _ (by decide)
  | serverConnect ip port => exact hrun fun c => hsend c _ _ (by decide)
  | serverConnectAny => exact hrun fun c => hdiscard c _ (by decide)
  | serverDisconnect => exact hrun fun c => hdiscard c _ (by decide)
  | serverRemove ip port => exact hrun fun c => hsend c _ _ (by decide)
  | serverAdd name address => exact hrun fun c => serverAdd_asks h.toAnswers c name address
  | serverUpdateFromUrl url => exact hrun fun c => hsend c _ _ (by decide)
  | reloadShared => exact hrun fun c => hdiscard c _ (by decide)
  | fetchPrefs => exact EcWorker.fetchPrefs_keeps h
  | timeout => mvcgen [Slot.call, hrefresh]

/-- The slots but for those that open a connection or drop it without a word. -/
def Slot.InSession : Slot → Prop
  | .connectToDaemon _ _ _ | .shutdown => False
  | _ => True

theorem Whole.keeps [Qt] {K : World → Prop} (h : Whole K) {slot : Slot} (hslot : slot.InSession) :
    Keeps K slot.call := by
  cases slot with
  | connectToDaemon | shutdown => exact absurd hslot id
  | disconnectFromDaemon =>
    exact EcWorker.disconnectFromDaemon_keeps fun w hw => h.notice (h.disconnect hw)
  | startSearch params => exact EcWorker.startSearch_keeps h.toRules (h.starts params)
  | applyPrefs prefs =>
    intro w hw
    exact EcWorker.applyPrefs_keeps h.toRules prefs (fun _ hheld => h.write prefs hheld)
      (fun _ hheld => h.write prefs hheld) (fun _ _ _ => id) w ⟨hw, rfl⟩
  | _ => exact Slot.call_keeps h.toRules trivial

end Amule
