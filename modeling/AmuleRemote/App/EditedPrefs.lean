import AmuleRemote.App.PreferencesPanel

/-!
# The edits that reach the daemon

Applying the preferences sends every member as a tag of its category. A member
that the panel lets the user edit, but that no tag carries, is dropped without a
trace: so are the two line capacities and the URL of the server list.
-/

namespace Amule

open Ec

/-- A member of `DaemonPrefs`, but for `loaded`. -/
inductive PrefField
  | bool (field : BoolField)
  | int (field : IntField)
  | str (field : StrField)
deriving DecidableEq

/-- Two sets of preferences have the same value of a member. -/
def DaemonPrefs.SameAt (p q : DaemonPrefs) : PrefField → Prop
  | .bool field => p.bool field = q.bool field
  | .int field => p.int field = q.int field
  | .str field => p.str field = q.str field

/-- The members bound to a widget. -/
def editable : List PrefField :=
  builtBindings.bools.map (fun b => .bool b.field) ++
    builtBindings.ints.map (fun i => .int i.field) ++
    builtBindings.strings.map (fun s => .str s.field) ++ [.int .canSeeShares]

/-- The editable members that are read from the daemon but not sent back. -/
def unsent : List PrefField := [.int .downloadCapacity, .int .uploadCapacity, .str .serverListUrl]

/-- The tag that carries a member. -/
def fieldTag (p : DaemonPrefs) (name : UInt16) : PrefField → Tag
  | .bool field => flagTag p name field
  | .int field => intTag p name field
  | .str field => strTag p name field

theorem fieldTag_inj {p q : DaemonPrefs} {name : UInt16} {field : PrefField} :
    fieldTag p name field = fieldTag q name field ↔ p.SameAt q field := by
  cases field with
  | bool field =>
    show Tag.integer name (if p.bool field then 1 else 0) =
      Tag.integer name (if q.bool field then 1 else 0) ↔ p.bool field = q.bool field
    cases p.bool field <;> cases q.bool field <;> simp [Tag.integer]
  | int field => simp [fieldTag, intTag, Tag.integer, DaemonPrefs.SameAt]
  | str field => simp [fieldTag, strTag, Tag.string, DaemonPrefs.SameAt]

/-- The members the categories carry, under their tag names. -/
def sentCategories : List (UInt16 × List (UInt16 × PrefField)) := [
  (TagName.prefsGeneral, [
    (TagName.userNick, .str .nick),
    (TagName.generalCheckNewVersion, .bool .checkNewVersion)]),
  (TagName.prefsConnections, [
    (TagName.connMaxDl, .int .maxDownload),
    (TagName.connMaxUl, .int .maxUpload),
    (TagName.connSlotAllocation, .int .slotAllocation),
    (TagName.connTcpPort, .int .tcpPort),
    (TagName.connUdpPort, .int .udpPort),
    (TagName.connUdpDisable, .bool .udpDisable),
    (TagName.connMaxFileSources, .int .maxSources),
    (TagName.connMaxConn, .int .maxConnections),
    (TagName.connAutoconnect, .bool .autoconnect),
    (TagName.connReconnect, .bool .reconnect),
    (TagName.networkEd2k, .bool .networkEd2k),
    (TagName.networkKademlia, .bool .networkKad)]),
  (TagName.prefsFiles, [
    (TagName.filesIchEnabled, .bool .ichEnabled),
    (TagName.filesAichTrust, .bool .aichTrust),
    (TagName.filesNewPaused, .bool .addNewPaused),
    (TagName.filesNewAutoDlPrio, .bool .addNewAutoDlPrio),
    (TagName.filesPreviewPrio, .bool .previewPrio),
    (TagName.filesNewAutoUlPrio, .bool .addNewAutoUlPrio),
    (TagName.filesUlFullChunks, .bool .ulFullChunks),
    (TagName.filesStartNextPaused, .bool .startNextPaused),
    (TagName.filesResumeSameCat, .bool .resumeSameCategory),
    (TagName.filesSaveSources, .bool .saveSources),
    (TagName.filesExtractMetadata, .bool .extractMetadata),
    (TagName.filesAllocFullSize, .bool .allocFullSize),
    (TagName.filesCheckFreeSpace, .bool .checkFreeSpace),
    (TagName.filesMinFreeSpace, .int .minFreeSpaceMB)]),
  (TagName.prefsDirectories, [
    (TagName.directoriesIncoming, .str .incomingDir),
    (TagName.directoriesTemp, .str .tempDir),
    (TagName.directoriesShareHidden, .bool .shareHidden),
    (TagName.directoriesAutoRescan, .bool .autoRescan)]),
  (TagName.prefsServers, [
    (TagName.serversRemoveDead, .bool .removeDeadServers),
    (TagName.serversDeadServerRetries, .int .deadServerRetries),
    (TagName.serversAutoUpdate, .bool .serverAutoUpdate),
    (TagName.serversAddFromServer, .bool .updateFromServer),
    (TagName.serversAddFromClient, .bool .updateFromClient),
    (TagName.serversUseScoreSystem, .bool .useScoreSystem),
    (TagName.serversSmartIdCheck, .bool .smartIdCheck),
    (TagName.serversSafeServerConnect, .bool .safeServerConnect),
    (TagName.serversAutoconnStaticOnly, .bool .autoConnectStaticOnly),
    (TagName.serversManualHighPrio, .bool .manualHighPrio)]),
  (TagName.prefsSecurity, [
    (TagName.securityCanSeeShares, .int .canSeeShares),
    (TagName.ipfilterClients, .bool .filterClients),
    (TagName.ipfilterServers, .bool .filterServers),
    (TagName.ipfilterAutoUpdate, .bool .ipfilterAutoUpdate),
    (TagName.ipfilterUpdateUrl, .str .ipfilterUrl),
    (TagName.ipfilterLevel, .int .ipfilterLevel),
    (TagName.ipfilterFilterLan, .bool .filterLan),
    (TagName.securityUseSecident, .bool .useSecIdent),
    (TagName.securityObfuscationRequested, .bool .obfuscationRequested),
    (TagName.securityObfuscationRequired, .bool .obfuscationRequired)]),
  (TagName.prefsMessagefilter, [
    (TagName.msgfilterEnabled, .bool .msgFilterEnabled),
    (TagName.msgfilterAll, .bool .msgFilterAll),
    (TagName.msgfilterFriends, .bool .msgFilterFriends),
    (TagName.msgfilterSecure, .bool .msgFilterSecure),
    (TagName.msgfilterByKeyword, .bool .msgFilterByKeyword),
    (TagName.msgfilterKeywords, .str .msgKeywords)]),
  (TagName.prefsRemotectrl, [
    (TagName.webserverAutorun, .bool .webserverAutorun),
    (TagName.webserverPort, .int .webserverPort),
    (TagName.webserverGuest, .bool .webserverGuest),
    (TagName.webserverUsegzip, .bool .webserverGzip),
    (TagName.webserverRefresh, .int .webserverRefresh),
    (TagName.webserverTemplate, .str .webserverTemplate)]),
  (TagName.prefsOnlinesig, [(TagName.onlinesigEnabled, .bool .onlineSignatureEnabled)]),
  (TagName.prefsCoretweaks, [
    (TagName.coretwMaxConnPerFive, .int .maxConnPer5Sec),
    (TagName.coretwVerbose, .bool .verbose),
    (TagName.coretwFilebuffer, .int .fileBufferSize),
    (TagName.coretwUlQueue, .int .uploadQueueSize),
    (TagName.coretwSrvKeepaliveTimeout, .int .serverKeepaliveTimeout)]),
  (TagName.prefsKademlia, [(TagName.kademliaUpdateUrl, .str .kadNodesUrl)])]

/-- The request carries what the table says. -/
theorem setPrefsRequest_eq (p : DaemonPrefs) : setPrefsRequest p =
    ⟨Op.setPreferences, sentCategories.map fun category =>
      (Tag.empty category.1).withChildren (category.2.map fun sent => fieldTag p sent.1 sent.2)⟩ :=
  rfl

/-- The members that are sent. -/
def sent : List PrefField := sentCategories.flatMap fun category => category.2.map Prod.snd

/-- What is sent is what can be edited, but for the unsent members. -/
theorem mem_sent {field : PrefField} : field ∈ sent ↔ field ∈ editable ∧ field ∉ unsent := by
  have hsent : ∀ field ∈ sent, field ∈ editable ∧ field ∉ unsent := by decide +kernel
  have heditable : ∀ field ∈ editable, field ∉ unsent → field ∈ sent := by decide +kernel
  exact ⟨hsent field, fun h => heditable field h.1 h.2⟩

/-- Two requests are equal if and only if the members sent are. -/
theorem setPrefsRequest_inj {p q : DaemonPrefs} :
    setPrefsRequest p = setPrefsRequest q ↔ ∀ field ∈ sent, p.SameAt q field := by
  rw [setPrefsRequest_eq, setPrefsRequest_eq, Packet.mk.injEq, and_iff_right rfl,
    List.map_inj_left]
  simp only [sent, List.forall_mem_flatMap, List.forall_mem_map]
  refine forall₂_congr fun category _ => ?_
  rw [Tag.withChildren, Tag.withChildren, Tag.mk.injEq, and_iff_right rfl, and_iff_right rfl,
    List.map_inj_left]
  exact forall₂_congr fun entry _ => fieldTag_inj

/-- An edit changes the request if and only if it changes a member that is sent. -/
theorem setPrefsRequest_ne_iff (p q : DaemonPrefs) :
    setPrefsRequest p ≠ setPrefsRequest q ↔
      ∃ field ∈ editable, field ∉ unsent ∧ ¬p.SameAt q field := by
  rw [ne_eq, setPrefsRequest_inj]
  simp only [not_forall, exists_prop]
  constructor
  · rintro ⟨field, hsent, hdiff⟩
    obtain ⟨heditable, hunsent⟩ := mem_sent.mp hsent
    exact ⟨field, heditable, hunsent, hdiff⟩
  · rintro ⟨field, heditable, hunsent, hdiff⟩
    exact ⟨field, mem_sent.mpr ⟨heditable, hunsent⟩, hdiff⟩

/-- The download capacity is edited and nothing of it is sent. -/
theorem setPrefsRequest_downloadCapacity :
    (∃ field ∈ editable,
      ¬DaemonPrefs.SameAt {} (DaemonPrefs.setInt {} .downloadCapacity 512) field) ∧
    setPrefsRequest {} = setPrefsRequest (DaemonPrefs.setInt {} .downloadCapacity 512) := by
  refine ⟨⟨.int .downloadCapacity, by decide, ?_⟩, rfl⟩
  show ¬(_ : UInt64) = _
  decide

end Amule
