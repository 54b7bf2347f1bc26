import AmuleRemote.Ec.Tag
import Mathlib.Logic.Function.Basic

/-!
# What the worker shows the user interface

The plain structs of `model/model.h`. `DaemonPrefs` has some seventy fields of
three types that the preferences panel binds through pointers to members; here
each type of field is an enumeration of the members of that type, and a
`DaemonPrefs` gives every member its value.
-/

namespace Amule

/-- `std::array<quint8, 4>`. -/
abbrev ServerIp := Octets 4

structure Stats where
  ulSpeed : UInt64 := 0
  dlSpeed : UInt64 := 0
  ulSpeedLimit : UInt64 := 0
  dlSpeedLimit : UInt64 := 0
  totalSourceCount : UInt64 := 0
  ed2kUsers : UInt64 := 0
  kadUsers : UInt64 := 0
  ed2kFiles : UInt64 := 0
  kadFiles : UInt64 := 0
  ed2kId : UInt32 := 0
deriving DecidableEq

/-- One entry in the download queue. -/
structure Download where
  ecid : UInt32 := 0
  partMetId : UInt32 := 0
  hash : Hash16 := Octets.zero 16
  name : QString := []
  sizeFull : UInt64 := 0
  sizeDone : UInt64 := 0
  speed : UInt64 := 0
  status : UInt8 := 0
  priority : UInt64 := 0
  sourceCount : UInt64 := 0
  sourceCountXfer : UInt64 := 0
  ed2kLink : QString := []
  /-- alternate file names with the number of sources that report them -/
  sourceNames : List (QString × UInt64) := []
deriving DecidableEq

/-- A peer that is a source for one of our downloads. -/
structure SourceClient where
  id : UInt32 := 0
  fileEcid : UInt32 := 0
  name : QString := []
  softVer : QString := []
  userIp : UInt32 := 0
  userPort : UInt16 := 0
  downSpeed : Double := {}
  downloaded : UInt64 := 0
  downState : UInt64 := 0
  origin : UInt64 := 0
  availParts : UInt64 := 0
  remoteName : QString := []
deriving DecidableEq

inductive SearchKind
  | global
  | kad
  | «local»
deriving DecidableEq

def searchKindValue : SearchKind → UInt64
  | .global => Ec.Search.ecGlobal
  | .kad => Ec.Search.ecKad
  | .local => Ec.Search.ecLocal

structure SearchParams where
  text : QString := []
  kind : SearchKind := .global
  fileType : QString := []
  minSize : UInt64 := 0
  maxSize : UInt64 := 0
deriving DecidableEq

structure SearchResult where
  ecid : UInt32 := 0
  hash : Hash16 := Octets.zero 16
  name : QString := []
  size : UInt64 := 0
  sourceCount : UInt64 := 0
  completeSourceCount : UInt64 := 0
deriving DecidableEq

structure Server where
  ip : ServerIp := Octets.zero 4
  port : UInt16 := 0
  name : QString := []
  description : QString := []
  users : UInt64 := 0
  maxUsers : UInt64 := 0
  files : UInt64 := 0
  ping : UInt64 := 0
  priority : UInt8 := 0
  failed : UInt8 := 0
  isStatic : Bool := false
  version : QString := []
deriving DecidableEq

structure SharedFile where
  hash : Hash16 := Octets.zero 16
  name : QString := []
  size : UInt64 := 0
  requestCount : UInt64 := 0
  acceptCount : UInt64 := 0
  transferred : UInt64 := 0
  completeSources : UInt64 := 0
  ed2kLink : QString := []
deriving DecidableEq

structure ConnState where
  ed2kConnected : Bool := false
  ed2kServer : QString := []
  kadConnected : Bool := false
deriving DecidableEq

/-- The `bool` members of `DaemonPrefs`, but for `loaded`. -/
inductive BoolField
  | checkNewVersion
  | udpDisable | networkEd2k | networkKad | autoconnect | reconnect
  | ichEnabled | aichTrust | addNewPaused | addNewAutoDlPrio | previewPrio | addNewAutoUlPrio
  | ulFullChunks | startNextPaused | resumeSameCategory | saveSources | extractMetadata
  | allocFullSize | checkFreeSpace
  | shareHidden | autoRescan
  | removeDeadServers | serverAutoUpdate | updateFromServer | updateFromClient | useScoreSystem
  | smartIdCheck | safeServerConnect | autoConnectStaticOnly | manualHighPrio
  | filterClients | filterServers | ipfilterAutoUpdate | filterLan | useSecIdent
  | obfuscationSupported | obfuscationRequested | obfuscationRequired
  | msgFilterEnabled | msgFilterAll | msgFilterFriends | msgFilterSecure | msgFilterByKeyword
  | webserverAutorun | webserverGuest | webserverGzip
  | onlineSignatureEnabled
  | verbose
deriving DecidableEq

/-- The `quint64` members of `DaemonPrefs`. -/
inductive IntField
  | downloadCapacity | uploadCapacity | maxDownload | maxUpload | slotAllocation
  | tcpPort | udpPort | maxSources | maxConnections
  | minFreeSpaceMB
  | deadServerRetries
  | canSeeShares | ipfilterLevel
  | webserverPort | webserverRefresh
  | maxConnPer5Sec | fileBufferSize | uploadQueueSize | serverKeepaliveTimeout
deriving DecidableEq

/-- The `QString` members of `DaemonPrefs`. -/
inductive StrField
  | nick
  | incomingDir | tempDir
  | serverListUrl
  | ipfilterUrl
  | msgKeywords
  | webserverTemplate
  | kadNodesUrl
deriving DecidableEq

@[ext]
structure DaemonPrefs where
  loaded : Bool := false
  bool : BoolField → Bool := fun _ => false
  int : IntField → UInt64 := fun _ => 0
  str : StrField → QString := fun _ => []

namespace DaemonPrefs

def setBool (p : DaemonPrefs) (field : BoolField) (v : Bool) : DaemonPrefs :=
  { p with bool := Function.update p.bool field v }

def setInt (p : DaemonPrefs) (field : IntField) (v : UInt64) : DaemonPrefs :=
  { p with int := Function.update p.int field v }

def setStr (p : DaemonPrefs) (field : StrField) (v : QString) : DaemonPrefs :=
  { p with str := Function.update p.str field v }

end DaemonPrefs

end Amule
