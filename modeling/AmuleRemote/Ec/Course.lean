import AmuleRemote.Ec.Refreshing

/-!
# The course of a slot call

What the worker does in one call, said outright: the requests it sends, the signals
it emits, in their order, and the worker it leaves. `Slot.Course` is the transition
relation of the worker as others see it, with one rule for every way a call can go,
and the slots are shown to follow it elsewhere.

A refresh sends its requests first and tells what it read afterwards, all at once:
its course is a block of answered requests and the signals read from them.

## Main results

- `onRefresh_course` — a refresh takes one of its courses
-/

namespace Amule

open Ec Std.Do

set_option mvcgen.warning false

/-! ## Requests -/

/-- The requests of a refresh. -/
def snapshotRequests : List Packet := [
  ⟨Op.statReq, []⟩,
  ⟨Op.getDloadQueue, [.integer TagName.detailLevel Detail.full]⟩,
  ⟨Op.getConnstate, [.integer TagName.detailLevel Detail.cmd]⟩,
  ⟨Op.getServerList, [.integer TagName.detailLevel Detail.full]⟩,
  ⟨Op.getSharedFiles, [.integer TagName.detailLevel Detail.full]⟩,
  updateRequest]

/-- The requests that a refresh goes on with while a search is on. -/
def pollRequests : List Packet := [
  ⟨Op.searchProgress, []⟩,
  ⟨Op.searchResults, [.integer TagName.detailLevel Detail.full]⟩]

/-- The request by which a slot has the daemon do something. -/
def Slot.order : Slot → Option Packet
  | .pause hash => some ⟨Op.partfilePause, [.hash TagName.partfile hash]⟩
  | .resume hash => some ⟨Op.partfileResume, [.hash TagName.partfile hash]⟩
  | .stop hash => some ⟨Op.partfileStop, [.hash TagName.partfile hash]⟩
  | .remove hash => some ⟨Op.partfileDelete, [.hash TagName.partfile hash]⟩
  | .setPriority hash prio => some ⟨Op.partfilePrioSet,
      [(Tag.hash TagName.partfile hash).withChildren
        [.integer TagName.partfilePrio prio.toUInt64]]⟩
  | .clearCompleted => some ⟨Op.clearCompleted, []⟩
  | .addLink link => some ⟨Op.addLink, [.string TagName.string link]⟩
  | .connectNetworks => some ⟨Op.connect, []⟩
  | .disconnectNetworks => some ⟨Op.disconnect, []⟩
  | .startKad => some ⟨Op.kadStart, []⟩
  | .stopKad => some ⟨Op.kadStop, []⟩
  | .startSearch params => some (searchRequest params)
  | .stopSearch => some ⟨Op.searchStop, []⟩
  | .downloadResult hash => some ⟨Op.downloadSearchResult,
      [(Tag.hash TagName.searchfile hash).withChildren [.integer TagName.partfileCat 0]]⟩
  | .serverConnect ip port => some ⟨Op.serverConnect, [⟨TagName.server, .ipv4 ⟨ip, port⟩, []⟩]⟩
  | .serverConnectAny => some ⟨Op.serverConnect, []⟩
  | .serverDisconnect => some ⟨Op.serverDisconnect, []⟩
  | .serverRemove ip port => some ⟨Op.serverRemove, [⟨TagName.server, .ipv4 ⟨ip, port⟩, []⟩]⟩
  | .serverAdd name address => some ⟨Op.serverAdd,
      [.string TagName.serverName name, .string TagName.serverAddress address]⟩
  | .serverUpdateFromUrl url => some ⟨Op.serverUpdateFromUrl, [.string TagName.string url]⟩
  | .reloadShared => some ⟨Op.sharedfilesReload, []⟩
  | .applyPrefs prefs => some (setPrefsRequest prefs)
  | .connectToDaemon _ _ _ | .disconnectFromDaemon | .fetchPrefs | .shutdown | .timeout => none

/-- The request that a slot is for. -/
def Slot.request : Slot → Option Packet
  | .fetchPrefs => some prefsRequest
  | slot => slot.order

/-! ## Stretches of a course -/

/-- A request and the reply to it. -/
abbrev Round := Packet × Packet

namespace Ec.EcClient

/-- Rounds on a connection. -/
def rounds (client : EcClient) (rounds : List Round) : List Event :=
  rounds.map fun round => .exchange client round.1 (.ok round.2)

/-- Signals emitted while the connection is held. -/
def tells (client : EcClient) (signals : List Signal) : List Event :=
  signals.map (.emit (some client))

end Ec.EcClient

/-- Some rounds of a script, and the request that ends it early. -/
def CutShort (script : List Packet) (rounds : List Round) (request : Packet) : Prop :=
  rounds.map Prod.fst ++ [request] <+: script

namespace EcWorker

/-- The worker once its connection is gone. -/
def dropped (worker : EcWorker) : EcWorker :=
  { worker with client := none, sourceClients := ∅, timerActive := false, searching := false }

/-- What a teardown emits. -/
def farewell (worker : EcWorker) (reason : QString) (status : ConnStatus) : List Event :=
  (if worker.searching then [.emit none (.searchingChanged false)] else []) ++
    [.emit none (.statusChanged status reason)]

end EcWorker

/-- The replies of one refresh. -/
structure Snapshot where
  stats : Packet
  downloads : Packet
  connState : Packet
  servers : Packet
  sharedFiles : Packet
  update : Packet

namespace Snapshot

variable (s : Snapshot)

def replies : List Packet :=
  [s.stats, s.downloads, s.connState, s.servers, s.sharedFiles, s.update]

def rounds : List Round := snapshotRequests.zip s.replies

/-- The source clients after the refresh. -/
def sources (worker : EcWorker) : SourceMap := updateClients worker.sourceClients s.update

/-- What the refresh tells. -/
def signals (worker : EcWorker) : List Signal := [
  .statsUpdated (statsOf s.stats),
  .downloadsUpdated (downloadsOf s.downloads),
  .connStateUpdated (connStateOf s.connState),
  .serversUpdated (serversOf s.servers),
  .sharedFilesUpdated (sharedFilesOf s.sharedFiles),
  .sourcesUpdated (EcWorker.sortedSources (s.sources worker))]

def events (client : EcClient) (worker : EcWorker) : List Event :=
  client.rounds s.rounds ++ client.tells (s.signals worker)

/-- The worker after the refresh. -/
def merged (worker : EcWorker) : EcWorker := { worker with sourceClients := s.sources worker }

end Snapshot

/-! ## Refreshes -/

/-- What follows a request that failed. -/
def failure (client : EcClient) (worker : EcWorker) (request : Packet) (e : EcError) :
    List Event :=
  .exchange client request (.error e) ::
    .emit (some client) (.logMessage ((QString.lit "connection lost: %1").arg e.message)) ::
    worker.farewell e.message .error

/-- The course of a refresh on `client`, from the worker as it is to the worker it leaves. -/
inductive Refreshing (client : EcClient) (worker : EcWorker) : List Event → EcWorker → Prop
  /-- a request fails, and nothing is told -/
  | lost {rounds : List Round} {request : Packet} {e : EcError}
      (cut : CutShort snapshotRequests rounds request) :
      Refreshing client worker (client.rounds rounds ++ failure client worker request e)
        worker.dropped
  | told (s : Snapshot) (idle : worker.searching = false) :
      Refreshing client worker (s.events client worker) (s.merged worker)
  /-- the search cannot be followed -/
  | lostPolling (s : Snapshot) (on : worker.searching = true) {rounds : List Round}
      {request : Packet} {e : EcError} (cut : CutShort pollRequests rounds request) :
      Refreshing client worker
        (s.events client worker ++ (client.rounds rounds ++ failure client worker request e))
        worker.dropped
  /-- the search may end -/
  | polled (s : Snapshot) (on : worker.searching = true) (progress results : Packet)
      (searching at100 : Bool) (at100Timer : ℕ) :
      Refreshing client worker
        (s.events client worker ++ (client.rounds (pollRequests.zip [progress, results]) ++
          client.tells ([.searchProgressChanged (progressOf progress),
            .searchResultsUpdated (searchResultsOf results)] ++
            if searching then [] else [.searchingChanged false])))
        { s.merged worker with searching, at100, at100Timer }

/-! ## Orders -/

/-- What a slot emits before its order goes out. -/
def Slot.prelude (slot : Slot) (worker : EcWorker) : List Signal :=
  match slot with
  | .startSearch params => [
      .searchingChanged true, .searchResultsUpdated [], .searchProgressChanged 0,
      .logMessage ((QString.lit "searching for \"%1\"…").arg params.text)]
  | .stopSearch => if worker.searching then [.searchingChanged false] else []
  | _ => []

/-- The worker as its order goes out. -/
def Slot.begun (slot : Slot) (worker : EcWorker) : EcWorker :=
  match slot with
  | .startSearch _ => { worker with searching := true, at100 := false }
  | .stopSearch => { worker with searching := false }
  | _ => worker

/-- The worker once its request has failed. -/
def Slot.halted (slot : Slot) (worker : EcWorker) : EcWorker :=
  match slot with
  | .startSearch _ => { worker with searching := false, at100 := false }
  | _ => slot.begun worker

/-- What it emits then. -/
def Slot.complaint (slot : Slot) (message : QString) : List Signal :=
  match slot with
  | .startSearch _ =>
    [.searchingChanged false, .logMessage ((QString.lit "search failed: %1").arg message)]
  | .applyPrefs _ => [.logMessage ((QString.lit "apply prefs failed: %1").arg message)]
  | .fetchPrefs => [.logMessage ((QString.lit "fetch prefs failed: %1").arg message)]
  | _ => [.logMessage ((QString.lit "command failed: %1").arg message)]

/-- The worker once a failure of a command is answered: a transport error loses the
    connection. -/
def EcWorker.after (worker : EcWorker) (e : EcError) : EcWorker :=
  if e.kind = .io then worker.dropped else worker

def EcWorker.answer (worker : EcWorker) (e : EcError) : List Event :=
  if e.kind = .io then worker.farewell e.message .error else []

/-- The request of a slot fails with `e`: the exchange fails, or the reply refuses it. -/
inductive Slot.Fails (slot : Slot) : Except EcError Packet → EcError → Prop
  | lost (e : EcError) : slot.Fails (.error e) e
  | refused {reply : Packet} (hrefuses : slot.refuses reply = true) (message : QString) :
      slot.Fails (.ok reply) ⟨.remote, message⟩

/-! ## Logins -/

/-- What the last reply of a handshake makes of it. -/
def verdict (client : EcClient) : Except EcError Packet → Except EcError EcClient
  | .error e => .error e
  | .ok resp =>
    if resp.opcode = Op.authOk then
      .ok { client with
        serverVersion := (resp.tagString TagName.serverVersion).getD (.lit "unknown") }
    else if resp.opcode = Op.authFail then
      .error ⟨.authFailed,
        (resp.tagString TagName.string).getD (.lit "daemon rejected the connection")⟩
    else
      .error ⟨.unexpected, (QString.lit "unexpected response: opcode 0x%1").arg
        (QString.padded 2 (QString.number resp.opcode.toNat 16))⟩

/-- The handshake on connection `id`: the password goes out in answer to a salt. -/
inductive Handshake [Qt] (id : ℕ) (md5 : QString) : List Event → Except EcError EcClient → Prop
  | unreachable (e : EcError) : Handshake id md5 [] (.error e)
  | plain {result : Except EcError Packet}
      (hplain : ∀ reply, result = .ok reply → reply.opcode ≠ Op.authSalt) :
      Handshake id md5 [.exchange ⟨id, []⟩ EcClient.authRequest result] (verdict ⟨id, []⟩ result)
  | unsalted {reply : Packet} (hop : reply.opcode = Op.authSalt)
      (hsalt : reply.tagInt TagName.passwdSalt = none) (e : EcError) :
      Handshake id md5 [.exchange ⟨id, []⟩ EcClient.authRequest (.ok reply)] (.error e)
  | salted {reply : Packet} {salt : UInt64} (hop : reply.opcode = Op.authSalt)
      (hsalt : reply.tagInt TagName.passwdSalt = some salt) (result : Except EcError Packet) :
      Handshake id md5 [
        .exchange ⟨id, []⟩ EcClient.authRequest (.ok reply),
        .exchange ⟨id, []⟩ (EcClient.passwdRequest md5 salt) result] (verdict ⟨id, []⟩ result)

/-- What announces an attempt to connect. -/
def announcement (held : Option EcClient) (host : QString) (port : UInt16) : List Event :=
  let address := QString.number port.toNat
  [.emit held (.statusChanged .connecting (((QString.lit "%1:%2").arg host).arg address)),
    .emit held (.logMessage (((QString.lit "connecting to %1:%2…").arg host).arg address))]

/-- What tells that it failed. -/
def refusal (held : Option EcClient) (message : QString) : List Event :=
  [.emit held (.logMessage ((QString.lit "connection failed: %1").arg message)),
    .emit held (.statusChanged .error message)]

/-- What tells that it succeeded. -/
def welcome (client : EcClient) : List Signal :=
  [.logMessage ((QString.lit "connected — daemon %1").arg client.serverVersion),
    .statusChanged .connected client.serverVersion]

/-- What a fetch of the preferences tells. An error is not told. -/
def fetchTells : Except EcError Packet → List Signal
  | .ok reply => [.prefsUpdated (prefsOf reply)]
  | .error _ => []

/-! ## Calls -/

/-- The course of a call: what it does, the worker it leaves and the number of the next
    connection. -/
inductive Slot.Course [Qt] (worker : EcWorker) (next : ℕ) :
    Slot → List Event → EcWorker → ℕ → Prop
  /-- there is no connection, and the call is ignored; a search that is on is stopped -/
  | ignored {slot : Slot} (unheld : worker.client = none) (needs : slot.request ≠ none)
      (other : slot.startsSearch = false) :
      Course worker next slot
        ((slot.prelude worker).map (.emit none) ++
          [.emit none (.logMessage (.lit "not connected — command ignored"))])
        (slot.begun worker) next
  | ignoredSearch {params : SearchParams} (unheld : worker.client = none) :
      Course worker next (.startSearch params)
        [.emit none (.logMessage (.lit "not connected — command ignored"))] worker next
  | failed {slot : Slot} {client : EcClient} {request : Packet} {result : Except EcError Packet}
      {e : EcError} (held : worker.client = some client) (sends : slot.request = some request)
      (fails : slot.Fails result e) :
      Course worker next slot
        (client.tells (slot.prelude worker) ++ .exchange client request result ::
          client.tells (slot.complaint e.message) ++ (slot.halted worker).answer e)
        ((slot.halted worker).after e) next
  | done {slot : Slot} {client : EcClient} {request reply : Packet} {events : List Event}
      {worker' : EcWorker} (held : worker.client = some client)
      (order : slot.order = some request) (other : ∀ prefs, slot ≠ .applyPrefs prefs)
      (accepts : slot.refuses reply = false)
      (refresh : Refreshing client (slot.begun worker) events worker') :
      Course worker next slot
        (client.tells (slot.prelude worker) ++ .exchange client request (.ok reply) :: events)
        worker' next
  | applied {client : EcClient} {prefs : DaemonPrefs} (held : worker.client = some client)
      (reply : Packet) (fetched : Except EcError Packet) :
      Course worker next (.applyPrefs prefs)
        (.exchange client (setPrefsRequest prefs) (.ok reply) ::
          .emit (some client) (.logMessage (.lit "preferences applied")) ::
          .exchange client prefsRequest fetched :: client.tells (fetchTells fetched))
        worker next
  | fetched {client : EcClient} (held : worker.client = some client) (reply : Packet) :
      Course worker next .fetchPrefs
        [.exchange client prefsRequest (.ok reply),
          .emit (some client) (.prefsUpdated (prefsOf reply))]
        worker next
  | refreshed {client : EcClient} {events : List Event} {worker' : EcWorker}
      (held : worker.client = some client) (active : worker.timerActive = true)
      (refresh : Refreshing client worker events worker') :
      Course worker next .timeout events worker' next
  | idle (idle : worker.timerActive = false ∨ worker.client = none) :
      Course worker next .timeout [] worker next
  | disconnected :
      Course worker next .disconnectFromDaemon
        (worker.farewell (.lit "disconnected") .disconnected ++
          [.emit none (.logMessage (.lit "disconnected"))])
        worker.dropped next
  | shutdown :
      Course worker next .shutdown []
        { worker with timerActive := false, client := none, sourceClients := ∅ } next
  | refused {host : QString} {port : UInt16} {password : QString} {shake : List Event}
      {e : EcError}
      (handshake : Handshake next (Qt.toLower (normalizePasswordMd5 password)) shake (.error e)) :
      Course worker next (.connectToDaemon host port password)
        (announcement worker.client host port ++ shake ++ refusal worker.client e.message)
        { worker with sourceClients := ∅ } (next + 1)
  | connected {host : QString} {port : UInt16} {password : QString} {shake events : List Event}
      {client : EcClient} {worker' : EcWorker} (fetched : Except EcError Packet)
      (handshake : Handshake next (Qt.toLower (normalizePasswordMd5 password)) shake (.ok client))
      (refresh : Refreshing client
        { worker with client := some client, sourceClients := ∅, timerActive := true } events
        worker') :
      Course worker next (.connectToDaemon host port password)
        (announcement worker.client host port ++ shake ++ (client.tells (welcome client) ++
          (.exchange client prefsRequest fetched :: client.tells (fetchTells fetched) ++ events)))
        worker' (next + 1)

/-! ## The refresh follows its course -/

theorem World.worker_tornDown (w : World) (reason : QString) (status : ConnStatus) :
    (w.tornDown reason status).worker = w.worker.dropped := by
  by_cases h : w.worker.searching = true
  · simp [World.tornDown, h, EcWorker.dropped]
  · simp [World.tornDown, h, EcWorker.dropped]

theorem World.farewell_tornDown (w : World) (reason : QString) (status : ConnStatus) :
    (w.tornDown reason status).trace = w.trace ++ w.worker.farewell reason status := by
  rw [w.trace_tornDown, List.append_assoc, EcWorker.farewell]

/-- `w` is `w₀` after these rounds. -/
structure Answered (client : EcClient) (w₀ : World) (rounds : List Round) (w : World) : Prop where
  worker : w.worker = w₀.worker
  nextId : w.nextId = w₀.nextId
  trace : w.trace = w₀.trace ++ client.rounds rounds

/-- `w` is `w₀` after these rounds and a request that failed. -/
structure Failing (client : EcClient) (w₀ : World) (rounds : List Round) (request : Packet)
    (e : EcError) (w : World) : Prop where
  worker : w.worker = w₀.worker
  nextId : w.nextId = w₀.nextId
  trace : w.trace = w₀.trace ++ (client.rounds rounds ++ [.exchange client request (.error e)])

/-- `w` is `w₀` after a refresh has told what it read. -/
structure Told (client : EcClient) (w₀ : World) (s : Snapshot) (w : World) : Prop where
  worker : w.worker = s.merged w₀.worker
  nextId : w.nextId = w₀.nextId
  trace : w.trace = w₀.trace ++ s.events client w₀.worker

/-- `w` is `w₀` after a refresh on `client`. -/
structure Refreshed (client : EcClient) (w₀ w : World) : Prop where
  nextId : w.nextId = w₀.nextId
  course : ∃ events, w.trace = w₀.trace ++ events ∧ Refreshing client w₀.worker events w.worker

/-- The world after these requests, whatever came back. -/
def World.asked (w : World) (client : EcClient) (requests : List Packet) : World :=
  requests.foldl (·.exchanged client ·) w

/-- The world once a refresh has asked for a snapshot and told it. -/
def World.told (w : World) (client : EcClient) (s : Snapshot) : World :=
  let w := (w.asked client snapshotRequests).setWorker (s.merged w.worker)
  (((((w.emitted (.statsUpdated (statsOf s.stats))).emitted
    (.downloadsUpdated (downloadsOf s.downloads))).emitted
    (.connStateUpdated (connStateOf s.connState))).emitted
    (.serversUpdated (serversOf s.servers))).emitted
    (.sharedFilesUpdated (sharedFilesOf s.sharedFiles))).emitted
    (.sourcesUpdated (EcWorker.sortedSources w.worker.sourceClients))

/-- The world once the failure of a refresh is logged and answered. -/
def World.lost (w : World) (e : EcError) : World :=
  (w.emitted (.logMessage ((QString.lit "connection lost: %1").arg e.message))).tornDown e.message
    .error

section

variable {client : EcClient} {w w₀ w₁ : World} {rounds : List Round} {request : Packet}
  {e : EcError} {s : Snapshot}

theorem Answered.start (client : EcClient) (w : World) : Answered client w [] w :=
  ⟨rfl, rfl, (List.append_nil _).symm⟩

theorem Answered.exchanged (h : Answered client w₀ rounds w) (request : Packet) {reply : Packet}
    (hreply : w.network.replies 0 = .ok reply) :
    Answered client w₀ (rounds ++ [(request, reply)]) (w.exchanged client request) where
  worker := h.worker
  nextId := h.nextId
  trace := by
    rw [World.trace_exchanged, h.trace, hreply, List.append_assoc, EcClient.rounds,
      EcClient.rounds, List.map_append]
    rfl

theorem Answered.fails (h : Answered client w₀ rounds w) (request : Packet)
    (hfail : w.network.replies 0 = .error e) :
    Failing client w₀ rounds request e (w.exchanged client request) where
  worker := h.worker
  nextId := h.nextId
  trace := by rw [World.trace_exchanged, h.trace, hfail, List.append_assoc]

@[simp] theorem nextId_lost : (w.lost e).nextId = w.nextId := World.nextId_tornDown ..

theorem trace_lost (hheld : w.worker.client = some client) :
    (w.lost e).trace = w.trace ++
      (.emit (some client) (.logMessage ((QString.lit "connection lost: %1").arg e.message)) ::
        w.worker.farewell e.message .error) := by
  rw [World.lost, World.farewell_tornDown, World.trace_emitted, hheld, List.append_assoc]
  rfl

theorem Failing.trace_lost (h : Failing client w₀ rounds request e w)
    (hheld : w₀.worker.client = some client) :
    (w.lost e).trace = w₀.trace ++
      (client.rounds rounds ++ failure client w₀.worker request e) := by
  rw [Amule.trace_lost (h.worker ▸ hheld), h.trace, h.worker, failure]
  simp only [List.append_assoc, List.singleton_append]

theorem Failing.worker_lost (h : Failing client w₀ rounds request e w) :
    (w.lost e).worker = w₀.worker.dropped :=
  (World.worker_tornDown ..).trans (congrArg EcWorker.dropped h.worker)

/-- A request of the snapshot fails. -/
theorem Failing.lost (h : Failing client w₀ rounds request e w)
    (hcut : CutShort snapshotRequests rounds request) (hheld : w₀.worker.client = some client) :
    Refreshed client w₀ (w.lost e) where
  nextId := nextId_lost.trans h.nextId
  course := by
    refine ⟨_, h.trace_lost hheld, ?_⟩
    rw [h.worker_lost]
    exact .lost hcut

/-- A request of the search fails, the snapshot having been told. -/
theorem Failing.lostPolling (h : Failing client w₁ rounds request e w) (htold : Told client w₀ s w₁)
    (hcut : CutShort pollRequests rounds request) (hon : w₀.worker.searching = true)
    (hheld : w₀.worker.client = some client) : Refreshed client w₀ (w.lost e) where
  nextId := (nextId_lost.trans h.nextId).trans htold.nextId
  course := by
    have hheld₁ : w₁.worker.client = some client := htold.worker ▸ hheld
    refine ⟨s.events client w₀.worker ++
      (client.rounds rounds ++ failure client w₀.worker request e), ?_, ?_⟩
    · rw [h.trace_lost hheld₁, htold.trace, htold.worker, List.append_assoc]
      rfl
    · rw [h.worker_lost, htold.worker]
      exact .lostPolling s hon hcut

theorem told_of_answers (s : Snapshot) (hheld : w.worker.client = some client)
    (h₀ : w.network.replies 0 = .ok s.stats) (h₁ : w.network.replies 1 = .ok s.downloads)
    (h₂ : w.network.replies 2 = .ok s.connState) (h₃ : w.network.replies 3 = .ok s.servers)
    (h₄ : w.network.replies 4 = .ok s.sharedFiles) (h₅ : w.network.replies 5 = .ok s.update) :
    Told client w s (w.told client s) := by
  have hanswered : Answered client w s.rounds (w.asked client snapshotRequests) :=
    ((((((Answered.start client w).exchanged _ h₀).exchanged _ h₁).exchanged _ h₂).exchanged _
      h₃).exchanged _ h₄).exchanged _ h₅
  refine ⟨rfl, rfl, ?_⟩
  simp [World.told, hanswered.trace, hheld, Snapshot.events, Snapshot.signals, Snapshot.merged,
    EcClient.tells]

theorem Told.idle (h : Told client w₀ s w) (hidle : w₀.worker.searching = false) :
    Refreshed client w₀ w where
  nextId := h.nextId
  course := by
    refine ⟨_, h.trace, ?_⟩
    rw [h.worker]
    exact .told s hidle

/-- The search is told of its progress, and may end. -/
theorem noted_course (w : World) (progress : UInt32) (hon : w.worker.searching = true)
    (hheld : w.worker.client = some client) :
    ∃ searching at100 at100Timer,
      (w.noted progress).worker = { w.worker with searching, at100, at100Timer } ∧
      (w.noted progress).nextId = w.nextId ∧
      (w.noted progress).trace =
        w.trace ++ client.tells (if searching then [] else [.searchingChanged false]) := by
  rw [World.noted]
  -- the search has come to 100, has been there for long enough, waits, or goes on
  split_ifs
  · exact ⟨true, true, w.network.now, by simp [hon], rfl, by simp [EcClient.tells]⟩
  · exact ⟨false, false, w.worker.at100Timer, rfl, rfl, by simp [EcClient.tells, hheld]⟩
  · exact ⟨true, w.worker.at100, w.worker.at100Timer, by simp [← hon], rfl,
      by simp [EcClient.tells]⟩
  · exact ⟨true, false, w.worker.at100Timer, by simp [hon], rfl, by simp [EcClient.tells]⟩

theorem Told.polled (h : Told client w₀ s w₁) {progress results : Packet}
    (hw : Answered client w₁ (pollRequests.zip [progress, results]) w)
    (hon : w₀.worker.searching = true) (hheld : w₀.worker.client = some client) :
    Refreshed client w₀ (((w.emitted (.searchProgressChanged (progressOf progress))).emitted
      (.searchResultsUpdated (searchResultsOf results))).noted (progressOf progress)) := by
  have hworker : w.worker = s.merged w₀.worker := hw.worker.trans h.worker
  have hclient : w.worker.client = some client := hworker ▸ hheld
  obtain ⟨searching, at100, at100Timer, hnoted, hid, htrace⟩ := noted_course
    ((w.emitted (.searchProgressChanged (progressOf progress))).emitted
      (.searchResultsUpdated (searchResultsOf results))) (progressOf progress)
    (hworker ▸ hon) hclient
  have hcourse : Refreshing client w₀.worker _ _ :=
    .polled s hon progress results searching at100 at100Timer
  -- the two signals of the search leave the worker as it is
  rw [World.worker_emitted, World.worker_emitted, hworker] at hnoted
  refine ⟨hid.trans (hw.nextId.trans h.nextId), _, ?_, hnoted ▸ hcourse⟩
  rw [htrace]
  simp [hw.trace, h.trace, hclient, EcClient.tells]

end

theorem refresh_course (client : EcClient) (w₀ : World) (hheld : w₀.worker.client = some client) :
    ⦃fun w => ⌜w = w₀⌝⦄ EcWorker.refresh client
    ⦃post⟨fun _ w => ⌜Refreshed client w₀ w⌝, fun e w => ⌜Refreshed client w₀ (w.lost e)⌝⟩⦄ := by
  have hnote := EcWorker.noteProgress_run
  mvcgen [EcWorker.refresh, emit, fetchStats, fetchDownloads, fetchConnState, fetchServers,
    fetchSharedFiles, fetchClientUpdate, EcClient.request, EcClient.exchange, modifyWorker,
    EcWorker.refreshSearch, fetchSearchProgress, fetchSearchResults, hnote]
  all_goals subst_vars
  -- one goal for each request that can fail, the last of all first, and the two good ends
  next w stats h₀ downloads h₁ conn h₂ servers h₃ files h₄ update h₅ _ _ _ _ _ _ _ hon progress h₆
      results h₇ _ _ _ _ =>
    rintro rfl
    have htold := told_of_answers ⟨stats, downloads, conn, servers, files, update⟩ hheld
      h₀ h₁ h₂ h₃ h₄ h₅
    exact htold.polled (((Answered.start client _).exchanged _ h₆).exchanged _ h₇) hon hheld
  next w stats h₀ downloads h₁ conn h₂ servers h₃ files h₄ update h₅ _ _ _ _ _ _ _ hon progress h₆
      e h₇ =>
    have htold := told_of_answers ⟨stats, downloads, conn, servers, files, update⟩ hheld
      h₀ h₁ h₂ h₃ h₄ h₅
    exact (((Answered.start client _).exchanged _ h₆).fails _ h₇).lostPolling htold ⟨_, rfl⟩ hon
      hheld
  next w stats h₀ downloads h₁ conn h₂ servers h₃ files h₄ update h₅ _ _ _ _ _ _ _ hon e h₆ =>
    have htold := told_of_answers ⟨stats, downloads, conn, servers, files, update⟩ hheld
      h₀ h₁ h₂ h₃ h₄ h₅
    exact ((Answered.start client _).fails _ h₆).lostPolling htold ⟨_, rfl⟩ hon hheld
  next w stats h₀ downloads h₁ conn h₂ servers h₃ files h₄ update h₅ _ _ _ _ _ _ _ hidle =>
    have htold := told_of_answers ⟨stats, downloads, conn, servers, files, update⟩ hheld
      h₀ h₁ h₂ h₃ h₄ h₅
    exact htold.idle (Bool.eq_false_iff.mpr hidle)
  next w stats h₀ downloads h₁ conn h₂ servers h₃ files h₄ e h₅ =>
    exact ((((((Answered.start client w).exchanged _ h₀).exchanged _ h₁).exchanged _ h₂).exchanged
      _ h₃).exchanged _ h₄ |>.fails _ h₅).lost ⟨_, rfl⟩ hheld
  next w stats h₀ downloads h₁ conn h₂ servers h₃ e h₄ =>
    exact (((((Answered.start client w).exchanged _ h₀).exchanged _ h₁).exchanged _ h₂).exchanged
      _ h₃ |>.fails _ h₄).lost ⟨_, rfl⟩ hheld
  next w stats h₀ downloads h₁ conn h₂ e h₃ =>
    exact ((((Answered.start client w).exchanged _ h₀).exchanged _ h₁).exchanged _ h₂ |>.fails _
      h₃).lost ⟨_, rfl⟩ hheld
  next w stats h₀ downloads h₁ e h₂ =>
    exact (((Answered.start client w).exchanged _ h₀).exchanged _ h₁ |>.fails _ h₂).lost ⟨_, rfl⟩
      hheld
  next w stats h₀ e h₁ =>
    exact ((Answered.start client w).exchanged _ h₀ |>.fails _ h₁).lost ⟨_, rfl⟩ hheld
  next w e h₀ => exact ((Answered.start client w).fails _ h₀).lost ⟨_, rfl⟩ hheld

theorem onRefresh_course {client : EcClient} {w₀ : World}
    (hclient : w₀.worker.client = some client) :
    Refreshed client w₀ (EcWorker.onRefresh.run w₀).2 := by
  -- the connection is only known from the state when the refresh starts
  have hrefresh (held : EcClient) :
      ⦃fun w => ⌜w = w₀ ∧ w.worker.client = some held⌝⦄ EcWorker.refresh held
      ⦃post⟨fun _ w => ⌜Refreshed held w₀ w⌝, fun e w => ⌜Refreshed held w₀ (w.lost e)⌝⟩⦄ := by
    rintro w ⟨rfl, hheld⟩
    exact refresh_course held w hheld w rfl
  have hrun : ⦃fun w => ⌜w = w₀⌝⦄ EcWorker.onRefresh ⦃⇓ _ w => ⌜Refreshed client w₀ w⌝⦄ := by
    mvcgen [EcWorker.onRefresh, EcWorker.getClient, emit, EcWorker.teardown_eq, hrefresh]
    all_goals subst_vars
    next hnone => cases hnone.symm.trans hclient
    next hheld _ _ hrefreshed =>
      rw [← Option.some.inj (hheld.symm.trans hclient)]
      exact hrefreshed
    next hheld _ _ _ _ hrefreshed =>
      rw [← Option.some.inj (hheld.symm.trans hclient)]
      exact hrefreshed
  exact hrun w₀ rfl

end Amule
