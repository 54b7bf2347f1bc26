import AmuleRemote.Ec.Client
import Mathlib.Data.List.Sort

/-!
# Queries and commands of the daemon

The functions of `ec/queries.cpp`: each is one exchange and a pure reading of
the reply, which is a definition of its own here.

`std::stable_sort` by a comparison `comp` is `List.insertionSort` by its negated
converse, which is stable as well.
-/

namespace Amule

open Ec

/-- Send a request and drop the reply. -/
def sendDiscard (client : EcClient) (req : Packet) : EcM Unit := do
  let _ ← client.exchange req

def requestDiscard (client : EcClient) (opcode : UInt8) : EcM Unit := do
  let _ ← client.request opcode

def partfileCommand (client : EcClient) (opcode : UInt8) (hash : Hash16) : EcM Unit :=
  sendDiscard client ⟨opcode, [.hash TagName.partfile hash]⟩

/-! ## Reads -/

def addStat (s : Stats) (tag : Tag) : Stats :=
  let v := tag.asInt.getD 0
  if tag.name = TagName.statsUlSpeed then { s with ulSpeed := v }
  else if tag.name = TagName.statsDlSpeed then { s with dlSpeed := v }
  else if tag.name = TagName.statsUlSpeedLimit then { s with ulSpeedLimit := v }
  else if tag.name = TagName.statsDlSpeedLimit then { s with dlSpeedLimit := v }
  else if tag.name = TagName.statsTotalSrcCount then { s with totalSourceCount := v }
  else if tag.name = TagName.statsEd2kUsers then { s with ed2kUsers := v }
  else if tag.name = TagName.statsKadUsers then { s with kadUsers := v }
  else if tag.name = TagName.statsEd2kFiles then { s with ed2kFiles := v }
  else if tag.name = TagName.statsKadFiles then { s with kadFiles := v }
  else if tag.name = TagName.statsEd2kId then { s with ed2kId := v.toUInt32 }
  else s

def statsOf (resp : Packet) : Stats := resp.tags.foldl addStat {}

def fetchStats (client : EcClient) : EcM Stats := do
  let resp ← client.request Op.statReq
  pure (statsOf resp)

/-- The hash of an entry: that of its hash child, if any. -/
def childHash (tag : Tag) : Option Hash16 := (tag.child TagName.partfileHash).bind Tag.asHash

/-- The file names sources report, the most reported first. -/
def sourceNamesOf (tag : Tag) : List (QString × UInt64) :=
  match tag.child TagName.partfileSourceNames with
  | none => []
  | some names =>
    let entries := names.children.filterMap fun entry =>
      let name := (entry.childString TagName.partfileSourceNames).getD []
      if name.isEmpty then none
      else some (name, (entry.childInt TagName.partfileSourceNamesCounts).getD 0)
    entries.insertionSort fun a b => b.2 ≤ a.2

def downloadOf (tag : Tag) : Download where
  ecid := (tag.asInt.getD 0).toUInt32
  partMetId := ((tag.childInt TagName.partfilePartmetid).getD 0).toUInt32
  hash := ((childHash tag).or tag.asHash).getD (Octets.zero 16)
  name := (tag.childString TagName.partfileName).getD []
  sizeFull := (tag.childInt TagName.partfileSizeFull).getD 0
  sizeDone := (tag.childInt TagName.partfileSizeDone).getD 0
  speed := (tag.childInt TagName.partfileSpeed).getD 0
  status := ((tag.childInt TagName.partfileStatus).getD 0).toUInt8
  priority := (tag.childInt TagName.partfilePrio).getD 0
  sourceCount := (tag.childInt TagName.partfileSourceCount).getD 0
  sourceCountXfer := (tag.childInt TagName.partfileSourceCountXfer).getD 0
  ed2kLink := (tag.childString TagName.partfileEd2kLink).getD []
  sourceNames := sourceNamesOf tag

def downloadsOf (resp : Packet) : List Download :=
  (resp.tags.filter (·.name = TagName.partfile)).map downloadOf

def fetchDownloads (client : EcClient) : EcM (List Download) := do
  let resp ← client.exchange ⟨Op.getDloadQueue, [.integer TagName.detailLevel Detail.full]⟩
  pure (downloadsOf resp)

def connStateOf (resp : Packet) : ConnState :=
  match resp.tag TagName.connstate with
  | none => {}
  | some conn =>
    let flags := conn.asInt.getD 0
    { ed2kConnected := flags &&& 0x01 ≠ 0
      kadConnected := flags &&& 0x04 ≠ 0
      ed2kServer :=
        ((conn.child TagName.server).bind (·.childString TagName.serverName)).getD [] }

def fetchConnState (client : EcClient) : EcM ConnState := do
  let resp ← client.exchange ⟨Op.getConnstate, [.integer TagName.detailLevel Detail.cmd]⟩
  pure (connStateOf resp)

def serverOf (tag : Tag) : Server :=
  let (ip, port) :=
    match tag.value with
    | .ipv4 addr => (addr.ip, addr.port)
    | _ => (Octets.zero 4, 0)
  { ip := ip
    port := port
    name := (tag.childString TagName.serverName).getD []
    description := (tag.childString TagName.serverDesc).getD []
    users := (tag.childInt TagName.serverUsers).getD 0
    maxUsers := (tag.childInt TagName.serverUsersMax).getD 0
    files := (tag.childInt TagName.serverFiles).getD 0
    ping := (tag.childInt TagName.serverPing).getD 0
    priority := ((tag.childInt TagName.serverPrio).getD 0).toUInt8
    failed := ((tag.childInt TagName.serverFailed).getD 0).toUInt8
    isStatic := (tag.childInt TagName.serverStatic).getD 0 ≠ 0
    version := (tag.childString TagName.serverVersion).getD [] }

def serversOf (resp : Packet) : List Server :=
  (resp.tags.filter (·.name = TagName.server)).map serverOf

def fetchServers (client : EcClient) : EcM (List Server) := do
  let resp ← client.exchange ⟨Op.getServerList, [.integer TagName.detailLevel Detail.full]⟩
  pure (serversOf resp)

def sharedFileOf (tag : Tag) : SharedFile where
  name := (tag.childString TagName.partfileName).getD []
  size := (tag.childInt TagName.partfileSizeFull).getD 0
  requestCount := (tag.childInt TagName.knownfileReqCountAll).getD 0
  acceptCount := (tag.childInt TagName.knownfileAcceptCount).getD 0
  transferred := (tag.childInt TagName.knownfileXferredAll).getD 0
  completeSources := (tag.childInt TagName.knownfileCompleteSources).getD 0
  ed2kLink := (tag.childString TagName.partfileEd2kLink).getD []
  hash := (childHash tag).getD (Octets.zero 16)

def sharedFilesOf (resp : Packet) : List SharedFile :=
  (resp.tags.filter (·.name = TagName.knownfile)).map sharedFileOf

def fetchSharedFiles (client : EcClient) : EcM (List SharedFile) := do
  let resp ← client.exchange ⟨Op.getSharedFiles, [.integer TagName.detailLevel Detail.full]⟩
  pure (sharedFilesOf resp)

def searchResultOf (tag : Tag) : SearchResult where
  ecid := (tag.asInt.getD 0).toUInt32
  hash := (childHash tag).getD (Octets.zero 16)
  name := (tag.childString TagName.partfileName).getD []
  size := (tag.childInt TagName.partfileSizeFull).getD 0
  sourceCount := (tag.childInt TagName.partfileSourceCount).getD 0
  completeSourceCount := (tag.childInt TagName.partfileSourceCountXfer).getD 0

def searchResultsOf (resp : Packet) : List SearchResult :=
  (resp.tags.filter (·.name = TagName.searchfile)).map searchResultOf

def fetchSearchResults (client : EcClient) : EcM (List SearchResult) := do
  let resp ← client.exchange ⟨Op.searchResults, [.integer TagName.detailLevel Detail.full]⟩
  pure (searchResultsOf resp)

def fetchSearchProgress (client : EcClient) : EcM UInt32 := do
  let resp ← client.request Op.searchProgress
  pure ((resp.tagInt TagName.searchStatus).getD 0).toUInt32

/-! ## Source clients -/

/-- Merge the fields present in an update entry; absent ones keep their value. -/
def mergeClient (c : SourceClient) (entry : Tag) : SourceClient where
  id := c.id
  name := (entry.childString TagName.clientName).getD c.name
  softVer := (entry.childString TagName.clientSoftVerStr).getD c.softVer
  remoteName := (entry.childString TagName.clientRemoteFilename).getD c.remoteName
  fileEcid := ((entry.childInt TagName.clientRequestFile).map (·.toUInt32)).getD c.fileEcid
  userIp := ((entry.childInt TagName.clientUserIp).map (·.toUInt32)).getD c.userIp
  userPort := ((entry.childInt TagName.clientUserPort).map (·.toUInt16)).getD c.userPort
  downloaded := (entry.childInt TagName.clientDownloadTotal).getD c.downloaded
  downState := (entry.childInt TagName.clientDownloadState).getD c.downState
  origin := (entry.childInt TagName.clientFrom).getD c.origin
  availParts := (entry.childInt TagName.clientAvailableParts).getD c.availParts
  downSpeed :=
    match entry.child TagName.clientDownSpeed with
    | none => c.downSpeed
    | some t =>
      match t.value with
      | .double d => d
      | .int v => Double.ofUInt64 v
      | _ => c.downSpeed

/-- Merge one entry of a client container; an entry without an id is skipped. -/
def addClient (clients : SourceMap) (entry : Tag) : SourceMap :=
  match entry.asInt with
  | none => clients
  | some v =>
    let c := (clients.lookup v.toUInt32).getD {}
    clients.insert v.toUInt32 (mergeClient { c with id := v.toUInt32 } entry)

/-- The clients whose id is in `alive`. -/
def keepAlive (clients : SourceMap) (alive : List UInt32) : SourceMap :=
  ⟨clients.entries.filter (·.1 ∈ alive), clients.nodupKeys.sublist List.filter_sublist⟩

/-- The first client container of a reply updates the map and drops the clients
    it does not list; a reply without one leaves the map as it is. -/
def updateClients (clients : SourceMap) (resp : Packet) : SourceMap :=
  match resp.tags.find? (·.name = TagName.client) with
  | none => clients
  | some container =>
    let alive := container.children.filterMap fun entry => entry.asInt.map (·.toUInt32)
    keepAlive (container.children.foldl addClient clients) alive

def fetchClientUpdate (client : EcClient) : EcM Unit := do
  let resp ← client.exchange ⟨Op.getUpdate, [.integer TagName.detailLevel Detail.incUpdate]⟩
  modifyWorker fun w => { w with sourceClients := updateClients w.sourceClients resp }

/-! ## Download commands -/

def pauseDownload (client : EcClient) (hash : Hash16) : EcM Unit :=
  partfileCommand client Op.partfilePause hash

def resumeDownload (client : EcClient) (hash : Hash16) : EcM Unit :=
  partfileCommand client Op.partfileResume hash

def stopDownload (client : EcClient) (hash : Hash16) : EcM Unit :=
  partfileCommand client Op.partfileStop hash

def deleteDownload (client : EcClient) (hash : Hash16) : EcM Unit :=
  partfileCommand client Op.partfileDelete hash

def setPriority (client : EcClient) (hash : Hash16) (prio : UInt8) : EcM Unit :=
  let partfile := (Tag.hash TagName.partfile hash).withChildren
    [.integer TagName.partfilePrio prio.toUInt64]
  sendDiscard client ⟨Op.partfilePrioSet, [partfile]⟩

def clearCompleted (client : EcClient) : EcM Unit := requestDiscard client Op.clearCompleted

def addEd2kLink (client : EcClient) (link : QString) : EcM Unit :=
  sendDiscard client ⟨Op.addLink, [.string TagName.string link]⟩

/-! ## Search -/

def searchRequest (params : SearchParams) : Packet :=
  let children :=
    [.string TagName.searchName params.text, .string TagName.searchFileType params.fileType] ++
    (if 0 < params.minSize then [.integer TagName.searchMinSize params.minSize] else []) ++
    (if 0 < params.maxSize then [.integer TagName.searchMaxSize params.maxSize] else [])
  ⟨Op.searchStart,
    [(Tag.integer TagName.searchType (searchKindValue params.kind)).withChildren children]⟩

def startSearch (client : EcClient) (params : SearchParams) : EcM Unit := do
  let resp ← client.exchange (searchRequest params)
  if resp.opcode = Op.failed then
    throw ⟨.remote, (resp.tagString TagName.string).getD (.lit "search failed")⟩

def stopSearch (client : EcClient) : EcM Unit := requestDiscard client Op.searchStop

def downloadSearchResult (client : EcClient) (hash : Hash16) : EcM Unit :=
  let item := (Tag.hash TagName.searchfile hash).withChildren [.integer TagName.partfileCat 0]
  sendDiscard client ⟨Op.downloadSearchResult, [item]⟩

/-! ## Networks and servers -/

def connectNetworks (client : EcClient) : EcM Unit := requestDiscard client Op.connect

def disconnectNetworks (client : EcClient) : EcM Unit := requestDiscard client Op.disconnect

def startKad (client : EcClient) : EcM Unit := requestDiscard client Op.kadStart

def stopKad (client : EcClient) : EcM Unit := requestDiscard client Op.kadStop

def serverConnect (client : EcClient) (ip : ServerIp) (port : UInt16) : EcM Unit :=
  sendDiscard client ⟨Op.serverConnect, [⟨TagName.server, .ipv4 ⟨ip, port⟩, []⟩]⟩

def serverConnectAny (client : EcClient) : EcM Unit := requestDiscard client Op.serverConnect

def serverDisconnect (client : EcClient) : EcM Unit := requestDiscard client Op.serverDisconnect

def serverRemove (client : EcClient) (ip : ServerIp) (port : UInt16) : EcM Unit :=
  sendDiscard client ⟨Op.serverRemove, [⟨TagName.server, .ipv4 ⟨ip, port⟩, []⟩]⟩

def serverAdd (client : EcClient) (name address : QString) : EcM Unit := do
  let resp ← client.exchange
    ⟨Op.serverAdd, [.string TagName.serverName name, .string TagName.serverAddress address]⟩
  if resp.opcode = Op.failed then
    throw ⟨.remote, (resp.tagString TagName.string).getD (.lit "server not added")⟩

def serverUpdateFromUrl (client : EcClient) (url : QString) : EcM Unit :=
  sendDiscard client ⟨Op.serverUpdateFromUrl, [.string TagName.string url]⟩

def reloadSharedFiles (client : EcClient) : EcM Unit := requestDiscard client Op.sharedfilesReload

/-! ## Preferences -/

namespace DaemonPrefs

/-- Read a boolean reported as the presence of a tag. -/
def readFlag (p : DaemonPrefs) (parent : Tag) (field : BoolField) (name : UInt16) : DaemonPrefs :=
  p.setBool field (parent.child name).isSome

/-- Read a boolean reported as a number. -/
def readIntFlag (p : DaemonPrefs) (parent : Tag) (field : BoolField) (name : UInt16) :
    DaemonPrefs :=
  p.setBool field ((parent.childInt name).getD 0 ≠ 0)

def readInt (p : DaemonPrefs) (parent : Tag) (field : IntField) (name : UInt16) : DaemonPrefs :=
  p.setInt field ((parent.childInt name).getD 0)

def readStr (p : DaemonPrefs) (parent : Tag) (field : StrField) (name : UInt16) : DaemonPrefs :=
  p.setStr field ((parent.childString name).getD [])

/-- Read a category, if the reply has it. -/
def readCategory (p : DaemonPrefs) (resp : Packet) (name : UInt16)
    (read : DaemonPrefs → Tag → DaemonPrefs) : DaemonPrefs :=
  match resp.tag name with
  | none => p
  | some category => read p category

end DaemonPrefs

def readGeneral (p : DaemonPrefs) (g : Tag) : DaemonPrefs := p
  |>.readStr g .nick TagName.userNick
  |>.readIntFlag g .checkNewVersion TagName.generalCheckNewVersion

def readConnections (p : DaemonPrefs) (c : Tag) : DaemonPrefs := p
  |>.readInt c .downloadCapacity TagName.connDlCap
  |>.readInt c .uploadCapacity TagName.connUlCap
  |>.readInt c .maxDownload TagName.connMaxDl
  |>.readInt c .maxUpload TagName.connMaxUl
  |>.readInt c .slotAllocation TagName.connSlotAllocation
  |>.readInt c .tcpPort TagName.connTcpPort
  |>.readInt c .udpPort TagName.connUdpPort
  |>.readFlag c .udpDisable TagName.connUdpDisable
  |>.readInt c .maxSources TagName.connMaxFileSources
  |>.readInt c .maxConnections TagName.connMaxConn
  |>.readFlag c .networkEd2k TagName.networkEd2k
  |>.readFlag c .networkKad TagName.networkKademlia
  |>.readFlag c .autoconnect TagName.connAutoconnect
  |>.readFlag c .reconnect TagName.connReconnect

def readFiles (p : DaemonPrefs) (f : Tag) : DaemonPrefs := p
  |>.readFlag f .ichEnabled TagName.filesIchEnabled
  |>.readFlag f .aichTrust TagName.filesAichTrust
  |>.readFlag f .addNewPaused TagName.filesNewPaused
  |>.readFlag f .addNewAutoDlPrio TagName.filesNewAutoDlPrio
  |>.readFlag f .previewPrio TagName.filesPreviewPrio
  |>.readFlag f .addNewAutoUlPrio TagName.filesNewAutoUlPrio
  |>.readFlag f .ulFullChunks TagName.filesUlFullChunks
  |>.readFlag f .startNextPaused TagName.filesStartNextPaused
  |>.readFlag f .resumeSameCategory TagName.filesResumeSameCat
  |>.readFlag f .saveSources TagName.filesSaveSources
  |>.readFlag f .extractMetadata TagName.filesExtractMetadata
  |>.readFlag f .allocFullSize TagName.filesAllocFullSize
  |>.readFlag f .checkFreeSpace TagName.filesCheckFreeSpace
  |>.readInt f .minFreeSpaceMB TagName.filesMinFreeSpace

def readDirectories (p : DaemonPrefs) (d : Tag) : DaemonPrefs := p
  |>.readStr d .incomingDir TagName.directoriesIncoming
  |>.readStr d .tempDir TagName.directoriesTemp
  |>.readIntFlag d .shareHidden TagName.directoriesShareHidden
  |>.readIntFlag d .autoRescan TagName.directoriesAutoRescan

def readServers (p : DaemonPrefs) (s : Tag) : DaemonPrefs := p
  |>.readFlag s .removeDeadServers TagName.serversRemoveDead
  |>.readInt s .deadServerRetries TagName.serversDeadServerRetries
  |>.readFlag s .serverAutoUpdate TagName.serversAutoUpdate
  |>.readFlag s .updateFromServer TagName.serversAddFromServer
  |>.readFlag s .updateFromClient TagName.serversAddFromClient
  |>.readFlag s .useScoreSystem TagName.serversUseScoreSystem
  |>.readFlag s .smartIdCheck TagName.serversSmartIdCheck
  |>.readFlag s .safeServerConnect TagName.serversSafeServerConnect
  |>.readFlag s .autoConnectStaticOnly TagName.serversAutoconnStaticOnly
  |>.readFlag s .manualHighPrio TagName.serversManualHighPrio
  |>.readStr s .serverListUrl TagName.serversUpdateUrl

def readSecurity (p : DaemonPrefs) (sec : Tag) : DaemonPrefs := p
  |>.readInt sec .canSeeShares TagName.securityCanSeeShares
  |>.readFlag sec .filterClients TagName.ipfilterClients
  |>.readFlag sec .filterServers TagName.ipfilterServers
  |>.readFlag sec .ipfilterAutoUpdate TagName.ipfilterAutoUpdate
  |>.readStr sec .ipfilterUrl TagName.ipfilterUpdateUrl
  |>.readInt sec .ipfilterLevel TagName.ipfilterLevel
  |>.readFlag sec .filterLan TagName.ipfilterFilterLan
  |>.readFlag sec .useSecIdent TagName.securityUseSecident
  |>.readFlag sec .obfuscationSupported TagName.securityObfuscationSupported
  |>.readFlag sec .obfuscationRequested TagName.securityObfuscationRequested
  |>.readFlag sec .obfuscationRequired TagName.securityObfuscationRequired

def readMessagefilter (p : DaemonPrefs) (m : Tag) : DaemonPrefs := p
  |>.readFlag m .msgFilterEnabled TagName.msgfilterEnabled
  |>.readFlag m .msgFilterAll TagName.msgfilterAll
  |>.readFlag m .msgFilterFriends TagName.msgfilterFriends
  |>.readFlag m .msgFilterSecure TagName.msgfilterSecure
  |>.readFlag m .msgFilterByKeyword TagName.msgfilterByKeyword
  |>.readStr m .msgKeywords TagName.msgfilterKeywords

def readRemotectrl (p : DaemonPrefs) (w : Tag) : DaemonPrefs := p
  |>.readFlag w .webserverAutorun TagName.webserverAutorun
  |>.readInt w .webserverPort TagName.webserverPort
  |>.readFlag w .webserverGuest TagName.webserverGuest
  |>.readFlag w .webserverGzip TagName.webserverUsegzip
  |>.readInt w .webserverRefresh TagName.webserverRefresh
  |>.readStr w .webserverTemplate TagName.webserverTemplate

def readOnlinesig (p : DaemonPrefs) (o : Tag) : DaemonPrefs :=
  p.readFlag o .onlineSignatureEnabled TagName.onlinesigEnabled

def readCoretweaks (p : DaemonPrefs) (t : Tag) : DaemonPrefs := p
  |>.readInt t .maxConnPer5Sec TagName.coretwMaxConnPerFive
  |>.readFlag t .verbose TagName.coretwVerbose
  |>.readInt t .fileBufferSize TagName.coretwFilebuffer
  |>.readInt t .uploadQueueSize TagName.coretwUlQueue
  |>.readInt t .serverKeepaliveTimeout TagName.coretwSrvKeepaliveTimeout

def readKademlia (p : DaemonPrefs) (k : Tag) : DaemonPrefs :=
  p.readStr k .kadNodesUrl TagName.kademliaUpdateUrl

/-- Whatever its opcode, a reply that decodes counts as loaded preferences. -/
def prefsOf (resp : Packet) : DaemonPrefs := { loaded := true : DaemonPrefs }
  |>.readCategory resp TagName.prefsGeneral readGeneral
  |>.readCategory resp TagName.prefsConnections readConnections
  |>.readCategory resp TagName.prefsFiles readFiles
  |>.readCategory resp TagName.prefsDirectories readDirectories
  |>.readCategory resp TagName.prefsServers readServers
  |>.readCategory resp TagName.prefsSecurity readSecurity
  |>.readCategory resp TagName.prefsMessagefilter readMessagefilter
  |>.readCategory resp TagName.prefsRemotectrl readRemotectrl
  |>.readCategory resp TagName.prefsOnlinesig readOnlinesig
  |>.readCategory resp TagName.prefsCoretweaks readCoretweaks
  |>.readCategory resp TagName.prefsKademlia readKademlia

def selectAll : UInt64 :=
  Prefs.general ||| Prefs.connections ||| Prefs.messagefilter ||| Prefs.remotecontrols |||
    Prefs.onlinesig ||| Prefs.servers ||| Prefs.files ||| Prefs.directories ||| Prefs.security |||
    Prefs.coretweaks ||| Prefs.kademlia

def prefsRequest : Packet := ⟨Op.getPreferences, [.integer TagName.selectPrefs selectAll]⟩

def fetchPrefs (client : EcClient) : EcM DaemonPrefs := do
  let resp ← client.exchange prefsRequest
  pure (prefsOf resp)

section

variable (p : DaemonPrefs)

/-- A flag, written as 0 or 1. -/
def flagTag (name : UInt16) (field : BoolField) : Tag :=
  .integer name (if p.bool field then 1 else 0)

def intTag (name : UInt16) (field : IntField) : Tag := .integer name (p.int field)

def strTag (name : UInt16) (field : StrField) : Tag := .string name (p.str field)

def generalTags : List Tag := [
  strTag p TagName.userNick .nick,
  flagTag p TagName.generalCheckNewVersion .checkNewVersion]

def connectionTags : List Tag := [
  intTag p TagName.connMaxDl .maxDownload,
  intTag p TagName.connMaxUl .maxUpload,
  intTag p TagName.connSlotAllocation .slotAllocation,
  intTag p TagName.connTcpPort .tcpPort,
  intTag p TagName.connUdpPort .udpPort,
  flagTag p TagName.connUdpDisable .udpDisable,
  intTag p TagName.connMaxFileSources .maxSources,
  intTag p TagName.connMaxConn .maxConnections,
  flagTag p TagName.connAutoconnect .autoconnect,
  flagTag p TagName.connReconnect .reconnect,
  flagTag p TagName.networkEd2k .networkEd2k,
  flagTag p TagName.networkKademlia .networkKad]

def fileTags : List Tag := [
  flagTag p TagName.filesIchEnabled .ichEnabled,
  flagTag p TagName.filesAichTrust .aichTrust,
  flagTag p TagName.filesNewPaused .addNewPaused,
  flagTag p TagName.filesNewAutoDlPrio .addNewAutoDlPrio,
  flagTag p TagName.filesPreviewPrio .previewPrio,
  flagTag p TagName.filesNewAutoUlPrio .addNewAutoUlPrio,
  flagTag p TagName.filesUlFullChunks .ulFullChunks,
  flagTag p TagName.filesStartNextPaused .startNextPaused,
  flagTag p TagName.filesResumeSameCat .resumeSameCategory,
  flagTag p TagName.filesSaveSources .saveSources,
  flagTag p TagName.filesExtractMetadata .extractMetadata,
  flagTag p TagName.filesAllocFullSize .allocFullSize,
  flagTag p TagName.filesCheckFreeSpace .checkFreeSpace,
  intTag p TagName.filesMinFreeSpace .minFreeSpaceMB]

def directoryTags : List Tag := [
  strTag p TagName.directoriesIncoming .incomingDir,
  strTag p TagName.directoriesTemp .tempDir,
  flagTag p TagName.directoriesShareHidden .shareHidden,
  flagTag p TagName.directoriesAutoRescan .autoRescan]

def serverTags : List Tag := [
  flagTag p TagName.serversRemoveDead .removeDeadServers,
  intTag p TagName.serversDeadServerRetries .deadServerRetries,
  flagTag p TagName.serversAutoUpdate .serverAutoUpdate,
  flagTag p TagName.serversAddFromServer .updateFromServer,
  flagTag p TagName.serversAddFromClient .updateFromClient,
  flagTag p TagName.serversUseScoreSystem .useScoreSystem,
  flagTag p TagName.serversSmartIdCheck .smartIdCheck,
  flagTag p TagName.serversSafeServerConnect .safeServerConnect,
  flagTag p TagName.serversAutoconnStaticOnly .autoConnectStaticOnly,
  flagTag p TagName.serversManualHighPrio .manualHighPrio]

def securityTags : List Tag := [
  intTag p TagName.securityCanSeeShares .canSeeShares,
  flagTag p TagName.ipfilterClients .filterClients,
  flagTag p TagName.ipfilterServers .filterServers,
  flagTag p TagName.ipfilterAutoUpdate .ipfilterAutoUpdate,
  strTag p TagName.ipfilterUpdateUrl .ipfilterUrl,
  intTag p TagName.ipfilterLevel .ipfilterLevel,
  flagTag p TagName.ipfilterFilterLan .filterLan,
  flagTag p TagName.securityUseSecident .useSecIdent,
  flagTag p TagName.securityObfuscationRequested .obfuscationRequested,
  flagTag p TagName.securityObfuscationRequired .obfuscationRequired]

def messageTags : List Tag := [
  flagTag p TagName.msgfilterEnabled .msgFilterEnabled,
  flagTag p TagName.msgfilterAll .msgFilterAll,
  flagTag p TagName.msgfilterFriends .msgFilterFriends,
  flagTag p TagName.msgfilterSecure .msgFilterSecure,
  flagTag p TagName.msgfilterByKeyword .msgFilterByKeyword,
  strTag p TagName.msgfilterKeywords .msgKeywords]

def webserverTags : List Tag := [
  flagTag p TagName.webserverAutorun .webserverAutorun,
  intTag p TagName.webserverPort .webserverPort,
  flagTag p TagName.webserverGuest .webserverGuest,
  flagTag p TagName.webserverUsegzip .webserverGzip,
  intTag p TagName.webserverRefresh .webserverRefresh,
  strTag p TagName.webserverTemplate .webserverTemplate]

def onlinesigTags : List Tag := [flagTag p TagName.onlinesigEnabled .onlineSignatureEnabled]

def tweakTags : List Tag := [
  intTag p TagName.coretwMaxConnPerFive .maxConnPer5Sec,
  flagTag p TagName.coretwVerbose .verbose,
  intTag p TagName.coretwFilebuffer .fileBufferSize,
  intTag p TagName.coretwUlQueue .uploadQueueSize,
  intTag p TagName.coretwSrvKeepaliveTimeout .serverKeepaliveTimeout]

def kadTags : List Tag := [strTag p TagName.kademliaUpdateUrl .kadNodesUrl]

def setPrefsRequest : Packet :=
  ⟨Op.setPreferences, [
    (Tag.empty TagName.prefsGeneral).withChildren (generalTags p),
    (Tag.empty TagName.prefsConnections).withChildren (connectionTags p),
    (Tag.empty TagName.prefsFiles).withChildren (fileTags p),
    (Tag.empty TagName.prefsDirectories).withChildren (directoryTags p),
    (Tag.empty TagName.prefsServers).withChildren (serverTags p),
    (Tag.empty TagName.prefsSecurity).withChildren (securityTags p),
    (Tag.empty TagName.prefsMessagefilter).withChildren (messageTags p),
    (Tag.empty TagName.prefsRemotectrl).withChildren (webserverTags p),
    (Tag.empty TagName.prefsOnlinesig).withChildren (onlinesigTags p),
    (Tag.empty TagName.prefsCoretweaks).withChildren (tweakTags p),
    (Tag.empty TagName.prefsKademlia).withChildren (kadTags p)]⟩

end

def setPrefs (client : EcClient) (p : DaemonPrefs) : EcM Unit :=
  sendDiscard client (setPrefsRequest p)

end Amule
