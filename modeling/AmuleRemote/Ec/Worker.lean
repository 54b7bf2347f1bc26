import AmuleRemote.Ec.Queries

/-!
# The EC worker's slots

The slots of `ec/worker.cpp`. `Slot` lists them all, the refresh timer's
`timeout` among them, and `Session.step` is one call against a network.
-/

namespace Amule

open Ec

namespace EcWorker

def searchGraceMs : ℕ := 12000

def getClient : SlotM (Option EcClient) := do
  let w ← get
  pure w.worker.client

def stopSearching : SlotM Unit := do
  modifyWorker fun w => { w with searching := false }
  emit (.searchingChanged false)

/-- Drop the connection and tell why. -/
def teardown (reason : QString) (status : ConnStatus) : SlotM Unit := do
  modifyWorker fun w => { w with timerActive := false, client := none, sourceClients := ∅ }
  let w ← get
  if w.worker.searching then stopSearching
  emit (.statusChanged status reason)

/-! ## Periodic refresh -/

/-- What follows a search whose progress and results have just been fetched. -/
def noteProgress (progress : UInt32) : SlotM Unit := do
  let w ← get
  if 100 ≤ progress then
    if !w.worker.at100 then
      modifyWorker fun worker => { worker with at100 := true, at100Timer := w.network.now }
    else if searchGraceMs ≤ w.network.now - w.worker.at100Timer then
      modifyWorker fun worker => { worker with searching := false, at100 := false }
      emit (.searchingChanged false)
  else
    modifyWorker fun worker => { worker with at100 := false }

/-- The search part of a refresh. -/
def refreshSearch (client : EcClient) : EcM Unit := do
  let progress ← fetchSearchProgress client
  let results ← fetchSearchResults client
  emit (.searchProgressChanged progress)
  emit (.searchResultsUpdated results)
  noteProgress progress

/-- The source clients, the most active first. -/
def sortedSources (clients : SourceMap) : List SourceClient :=
  (clients.entries.map (·.2)).insertionSort fun a b => b.downSpeed.gt a.downSpeed = false

def refresh (client : EcClient) : EcM Unit := do
  let stats ← fetchStats client
  let downloads ← fetchDownloads client
  let conn ← fetchConnState client
  let servers ← fetchServers client
  let sharedFiles ← fetchSharedFiles client
  fetchClientUpdate client
  let w ← getThe World
  emit (.statsUpdated stats)
  emit (.downloadsUpdated downloads)
  emit (.connStateUpdated conn)
  emit (.serversUpdated servers)
  emit (.sharedFilesUpdated sharedFiles)
  emit (.sourcesUpdated (sortedSources w.worker.sourceClients))
  if w.worker.searching then refreshSearch client

/-- Any error of a refresh, of whatever kind, loses the connection. -/
def onRefresh : SlotM Unit := do
  match ← getClient with
  | none => pure ()
  | some client =>
    match ← (refresh client).run with
    | .ok () => pure ()
    | .error e =>
      emit (.logMessage ((QString.lit "connection lost: %1").arg e.message))
      teardown e.message .error

/-! ## Connecting -/

def connectToDaemon [Qt] (host : QString) (port : UInt16) (password : QString) : SlotM Unit := do
  let address := QString.number port.toNat
  modifyWorker fun w => { w with sourceClients := ∅ }
  emit (.statusChanged .connecting (((QString.lit "%1:%2").arg host).arg address))
  emit (.logMessage (((QString.lit "connecting to %1:%2…").arg host).arg address))
  let md5 := normalizePasswordMd5 password
  match ← (EcClient.connectWithMd5 host port md5).run with
  | .error e =>
    emit (.logMessage ((QString.lit "connection failed: %1").arg e.message))
    emit (.statusChanged .error e.message)
  | .ok client =>
    modifyWorker fun w => { w with client := some client }
    emit (.logMessage ((QString.lit "connected — daemon %1").arg client.serverVersion))
    emit (.statusChanged .connected client.serverVersion)
    -- an error of this fetch is dropped, whatever its kind
    match ← (Amule.fetchPrefs client).run with
    | .ok prefs => emit (.prefsUpdated prefs)
    | .error _ => pure ()
    modifyWorker fun w => { w with timerActive := true }
    onRefresh

def disconnectFromDaemon : SlotM Unit := do
  teardown (.lit "disconnected") .disconnected
  emit (.logMessage (.lit "disconnected"))

def shutdown : SlotM Unit :=
  modifyWorker fun w => { w with timerActive := false, client := none, sourceClients := ∅ }

/-! ## Commands -/

def notConnected : SlotM Unit := emit (.logMessage (.lit "not connected — command ignored"))

/-- Run a command that requires a live connection. Only a transport error tears
    it down. -/
def runConnected (fn : EcClient → EcM Unit) : SlotM Unit := do
  match ← getClient with
  | none => notConnected
  | some client =>
    match ← (fn client).run with
    | .ok () => onRefresh
    | .error e =>
      emit (.logMessage ((QString.lit "command failed: %1").arg e.message))
      if e.kind = .io then teardown e.message .error

def pause (hash : Hash16) : SlotM Unit := runConnected fun c => pauseDownload c hash
def resume (hash : Hash16) : SlotM Unit := runConnected fun c => resumeDownload c hash
def stop (hash : Hash16) : SlotM Unit := runConnected fun c => stopDownload c hash
def remove (hash : Hash16) : SlotM Unit := runConnected fun c => deleteDownload c hash
def setPriority (hash : Hash16) (prio : UInt8) : SlotM Unit :=
  runConnected fun c => Amule.setPriority c hash prio
def clearCompleted : SlotM Unit := runConnected fun c => Amule.clearCompleted c
def addLink (link : QString) : SlotM Unit := runConnected fun c => addEd2kLink c link

def connectNetworks : SlotM Unit := runConnected fun c => Amule.connectNetworks c
def disconnectNetworks : SlotM Unit := runConnected fun c => Amule.disconnectNetworks c
def startKad : SlotM Unit := runConnected fun c => Amule.startKad c
def stopKad : SlotM Unit := runConnected fun c => Amule.stopKad c

def startSearch (params : SearchParams) : SlotM Unit := do
  match ← getClient with
  | none => notConnected
  | some client =>
    modifyWorker fun w => { w with searching := true, at100 := false }
    emit (.searchingChanged true)
    emit (.searchResultsUpdated [])
    emit (.searchProgressChanged 0)
    emit (.logMessage ((QString.lit "searching for \"%1\"…").arg params.text))
    match ← (Amule.startSearch client params).run with
    | .ok () => onRefresh
    | .error e =>
      stopSearching
      emit (.logMessage ((QString.lit "search failed: %1").arg e.message))
      if e.kind = .io then teardown e.message .error

def stopSearch : SlotM Unit := do
  let w ← get
  if w.worker.searching then stopSearching
  runConnected fun c => Amule.stopSearch c

def downloadResult (hash : Hash16) : SlotM Unit := runConnected fun c => downloadSearchResult c hash

def serverConnect (ip : ServerIp) (port : UInt16) : SlotM Unit :=
  runConnected fun c => Amule.serverConnect c ip port
def serverConnectAny : SlotM Unit := runConnected fun c => Amule.serverConnectAny c
def serverDisconnect : SlotM Unit := runConnected fun c => Amule.serverDisconnect c
def serverRemove (ip : ServerIp) (port : UInt16) : SlotM Unit :=
  runConnected fun c => Amule.serverRemove c ip port
def serverAdd (name address : QString) : SlotM Unit :=
  runConnected fun c => Amule.serverAdd c name address
def serverUpdateFromUrl (url : QString) : SlotM Unit :=
  runConnected fun c => Amule.serverUpdateFromUrl c url

def reloadShared : SlotM Unit := runConnected fun c => reloadSharedFiles c

def fetchPrefs : SlotM Unit := do
  match ← getClient with
  | none => notConnected
  | some client =>
    match ← (Amule.fetchPrefs client).run with
    | .ok prefs => emit (.prefsUpdated prefs)
    | .error e =>
      emit (.logMessage ((QString.lit "fetch prefs failed: %1").arg e.message))
      if e.kind = .io then teardown e.message .error

def applyPrefs (prefs : DaemonPrefs) : SlotM Unit := do
  match ← getClient with
  | none => notConnected
  | some client =>
    match ← (setPrefs client prefs).run with
    | .error e =>
      emit (.logMessage ((QString.lit "apply prefs failed: %1").arg e.message))
      if e.kind = .io then teardown e.message .error
    | .ok () =>
      emit (.logMessage (.lit "preferences applied"))
      -- an error of this fetch is dropped, whatever its kind
      match ← (Amule.fetchPrefs client).run with
      | .ok updated => emit (.prefsUpdated updated)
      | .error _ => pure ()

end EcWorker

/-! ## Slots -/

inductive Slot
  | connectToDaemon (host : QString) (port : UInt16) (password : QString)
  | disconnectFromDaemon
  | pause (hash : Hash16)
  | resume (hash : Hash16)
  | stop (hash : Hash16)
  | remove (hash : Hash16)
  | setPriority (hash : Hash16) (prio : UInt8)
  | clearCompleted
  | addLink (link : QString)
  | connectNetworks
  | disconnectNetworks
  | startKad
  | stopKad
  | startSearch (params : SearchParams)
  | stopSearch
  | downloadResult (hash : Hash16)
  | serverConnect (ip : ServerIp) (port : UInt16)
  | serverConnectAny
  | serverDisconnect
  | serverRemove (ip : ServerIp) (port : UInt16)
  | serverAdd (name address : QString)
  | serverUpdateFromUrl (url : QString)
  | reloadShared
  | fetchPrefs
  | applyPrefs (prefs : DaemonPrefs)
  | shutdown
  /-- the refresh timer fires; a stopped timer does not -/
  | timeout

def Slot.call [Qt] : Slot → SlotM Unit
  | .connectToDaemon host port password => EcWorker.connectToDaemon host port password
  | .disconnectFromDaemon => EcWorker.disconnectFromDaemon
  | .pause hash => EcWorker.pause hash
  | .resume hash => EcWorker.resume hash
  | .stop hash => EcWorker.stop hash
  | .remove hash => EcWorker.remove hash
  | .setPriority hash prio => EcWorker.setPriority hash prio
  | .clearCompleted => EcWorker.clearCompleted
  | .addLink link => EcWorker.addLink link
  | .connectNetworks => EcWorker.connectNetworks
  | .disconnectNetworks => EcWorker.disconnectNetworks
  | .startKad => EcWorker.startKad
  | .stopKad => EcWorker.stopKad
  | .startSearch params => EcWorker.startSearch params
  | .stopSearch => EcWorker.stopSearch
  | .downloadResult hash => EcWorker.downloadResult hash
  | .serverConnect ip port => EcWorker.serverConnect ip port
  | .serverConnectAny => EcWorker.serverConnectAny
  | .serverDisconnect => EcWorker.serverDisconnect
  | .serverRemove ip port => EcWorker.serverRemove ip port
  | .serverAdd name address => EcWorker.serverAdd name address
  | .serverUpdateFromUrl url => EcWorker.serverUpdateFromUrl url
  | .reloadShared => EcWorker.reloadShared
  | .fetchPrefs => EcWorker.fetchPrefs
  | .applyPrefs prefs => EcWorker.applyPrefs prefs
  | .shutdown => EcWorker.shutdown
  | .timeout => do
    let w ← get
    if w.worker.timerActive then EcWorker.onRefresh

/-- What is left of a world between two slot calls. -/
structure Session where
  worker : EcWorker := {}
  nextId : ℕ := 0
  trace : List Event := []

/-- One slot call, against a network. -/
structure Call where
  slot : Slot
  network : Network

def Session.world (s : Session) (network : Network) : World :=
  { worker := s.worker, nextId := s.nextId, trace := s.trace, network := network }

def World.session (w : World) : Session :=
  { worker := w.worker, nextId := w.nextId, trace := w.trace }

def Session.step [Qt] (s : Session) (c : Call) : Session :=
  (c.slot.call.run (s.world c.network)).2.session

end Amule
