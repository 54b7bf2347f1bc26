import AmuleRemote.Qt

/-!
# EC protocol constants

The values of `ec/codes.h` that the modelled functions use, grouped by the
prefix they carry there: `EC_FLAG_ZLIB` is `Flag.zlib`, `EC_TAGTYPE_UINT8` is
`TagType.uint8`, `EC_OP_NOOP` is `Op.noop`, `EC_TAG_CONN_MAX_DL` is
`TagName.connMaxDl`, and so on.
-/

namespace Amule.Ec

abbrev currentProtocolVersion : UInt16 := 0x0204
abbrev headerSize : ℕ := 8

namespace Flag
abbrev zlib : UInt32 := 0x00000001
abbrev largeTagCount : UInt32 := 0x00000010
abbrev base : UInt32 := 0x00000020
end Flag

namespace TagType
abbrev custom : UInt8 := 1
abbrev uint8 : UInt8 := 2
abbrev uint16 : UInt8 := 3
abbrev uint32 : UInt8 := 4
abbrev uint64 : UInt8 := 5
abbrev string : UInt8 := 6
abbrev double : UInt8 := 7
abbrev ipv4 : UInt8 := 8
abbrev hash16 : UInt8 := 9
end TagType

namespace Op
abbrev noop : UInt8 := 0x01
abbrev authReq : UInt8 := 0x02
abbrev authFail : UInt8 := 0x03
abbrev authOk : UInt8 := 0x04
abbrev failed : UInt8 := 0x05
abbrev addLink : UInt8 := 0x09
abbrev statReq : UInt8 := 0x0A
abbrev getConnstate : UInt8 := 0x0B
abbrev stats : UInt8 := 0x0C
abbrev getDloadQueue : UInt8 := 0x0D
abbrev getSharedFiles : UInt8 := 0x10
abbrev partfilePause : UInt8 := 0x19
abbrev partfileResume : UInt8 := 0x1A
abbrev partfileStop : UInt8 := 0x1B
abbrev partfilePrioSet : UInt8 := 0x1C
abbrev partfileDelete : UInt8 := 0x1D
abbrev dloadQueue : UInt8 := 0x1F
abbrev sharedFiles : UInt8 := 0x22
abbrev sharedfilesReload : UInt8 := 0x23
abbrev searchStart : UInt8 := 0x26
abbrev searchStop : UInt8 := 0x27
abbrev searchResults : UInt8 := 0x28
abbrev searchProgress : UInt8 := 0x29
abbrev downloadSearchResult : UInt8 := 0x2A
abbrev getServerList : UInt8 := 0x2C
abbrev serverDisconnect : UInt8 := 0x2E
abbrev serverConnect : UInt8 := 0x2F
abbrev serverRemove : UInt8 := 0x30
abbrev serverAdd : UInt8 := 0x31
abbrev serverUpdateFromUrl : UInt8 := 0x32
abbrev getPreferences : UInt8 := 0x3F
abbrev setPreferences : UInt8 := 0x40
abbrev kadStart : UInt8 := 0x48
abbrev kadStop : UInt8 := 0x49
abbrev connect : UInt8 := 0x4A
abbrev disconnect : UInt8 := 0x4B
abbrev authSalt : UInt8 := 0x4F
abbrev authPasswd : UInt8 := 0x50
abbrev getUpdate : UInt8 := 0x52
abbrev clearCompleted : UInt8 := 0x53
end Op

namespace TagName
abbrev string : UInt16 := 0x0000
abbrev passwdHash : UInt16 := 0x0001
abbrev protocolVersion : UInt16 := 0x0002
abbrev detailLevel : UInt16 := 0x0004
abbrev connstate : UInt16 := 0x0005
abbrev passwdSalt : UInt16 := 0x000B
abbrev canLargeTagCount : UInt16 := 0x0011
abbrev canPartialUpdate : UInt16 := 0x0012
abbrev clientName : UInt16 := 0x0100
abbrev clientVersion : UInt16 := 0x0101

abbrev client : UInt16 := 0x0600
abbrev clientDownloadTotal : UInt16 := 0x060B
abbrev clientDownloadState : UInt16 := 0x060C
abbrev clientDownSpeed : UInt16 := 0x060E
abbrev clientFrom : UInt16 := 0x060F
abbrev clientUserIp : UInt16 := 0x0610
abbrev clientUserPort : UInt16 := 0x0611
abbrev clientSoftVerStr : UInt16 := 0x0615
abbrev clientRequestFile : UInt16 := 0x0620
abbrev clientRemoteFilename : UInt16 := 0x0627
abbrev clientAvailableParts : UInt16 := 0x062A

abbrev server : UInt16 := 0x0500
abbrev serverName : UInt16 := 0x0501
abbrev serverDesc : UInt16 := 0x0502
abbrev serverAddress : UInt16 := 0x0503
abbrev serverPing : UInt16 := 0x0504
abbrev serverUsers : UInt16 := 0x0505
abbrev serverUsersMax : UInt16 := 0x0506
abbrev serverFiles : UInt16 := 0x0507
abbrev serverPrio : UInt16 := 0x0508
abbrev serverFailed : UInt16 := 0x0509
abbrev serverStatic : UInt16 := 0x050A
abbrev serverVersion : UInt16 := 0x050B

abbrev statsUlSpeed : UInt16 := 0x0200
abbrev statsDlSpeed : UInt16 := 0x0201
abbrev statsUlSpeedLimit : UInt16 := 0x0202
abbrev statsDlSpeedLimit : UInt16 := 0x0203
abbrev statsTotalSrcCount : UInt16 := 0x0206
abbrev statsEd2kUsers : UInt16 := 0x0209
abbrev statsKadUsers : UInt16 := 0x020A
abbrev statsEd2kFiles : UInt16 := 0x020B
abbrev statsKadFiles : UInt16 := 0x020C
abbrev statsEd2kId : UInt16 := 0x0213

abbrev partfile : UInt16 := 0x0300
abbrev partfileName : UInt16 := 0x0301
abbrev partfilePartmetid : UInt16 := 0x0302
abbrev partfileSizeFull : UInt16 := 0x0303
abbrev partfileSizeDone : UInt16 := 0x0306
abbrev partfileSpeed : UInt16 := 0x0307
abbrev partfileStatus : UInt16 := 0x0308
abbrev partfilePrio : UInt16 := 0x0309
abbrev partfileSourceCount : UInt16 := 0x030A
abbrev partfileSourceCountXfer : UInt16 := 0x030D
abbrev partfileEd2kLink : UInt16 := 0x030E
abbrev partfileCat : UInt16 := 0x030F
abbrev partfileSourceNames : UInt16 := 0x0315
abbrev partfileSourceNamesCounts : UInt16 := 0x031C
abbrev partfileHash : UInt16 := 0x031E

abbrev knownfile : UInt16 := 0x0400
abbrev knownfileXferredAll : UInt16 := 0x0402
abbrev knownfileReqCountAll : UInt16 := 0x0404
abbrev knownfileAcceptCount : UInt16 := 0x0405
abbrev knownfileCompleteSources : UInt16 := 0x040D

abbrev searchfile : UInt16 := 0x0700
abbrev searchType : UInt16 := 0x0701
abbrev searchName : UInt16 := 0x0702
abbrev searchMinSize : UInt16 := 0x0703
abbrev searchMaxSize : UInt16 := 0x0704
abbrev searchFileType : UInt16 := 0x0705
abbrev searchStatus : UInt16 := 0x0708

abbrev selectPrefs : UInt16 := 0x1000

abbrev prefsGeneral : UInt16 := 0x1200
abbrev userNick : UInt16 := 0x1201
abbrev generalCheckNewVersion : UInt16 := 0x1204

abbrev prefsConnections : UInt16 := 0x1300
abbrev connDlCap : UInt16 := 0x1301
abbrev connUlCap : UInt16 := 0x1302
abbrev connMaxDl : UInt16 := 0x1303
abbrev connMaxUl : UInt16 := 0x1304
abbrev connSlotAllocation : UInt16 := 0x1305
abbrev connTcpPort : UInt16 := 0x1306
abbrev connUdpPort : UInt16 := 0x1307
abbrev connUdpDisable : UInt16 := 0x1308
abbrev connMaxFileSources : UInt16 := 0x1309
abbrev connMaxConn : UInt16 := 0x130A
abbrev connAutoconnect : UInt16 := 0x130B
abbrev connReconnect : UInt16 := 0x130C
abbrev networkEd2k : UInt16 := 0x130D
abbrev networkKademlia : UInt16 := 0x130E

abbrev prefsMessagefilter : UInt16 := 0x1400
abbrev msgfilterEnabled : UInt16 := 0x1401
abbrev msgfilterAll : UInt16 := 0x1402
abbrev msgfilterFriends : UInt16 := 0x1403
abbrev msgfilterSecure : UInt16 := 0x1404
abbrev msgfilterByKeyword : UInt16 := 0x1405
abbrev msgfilterKeywords : UInt16 := 0x1406

abbrev prefsRemotectrl : UInt16 := 0x1500
abbrev webserverAutorun : UInt16 := 0x1501
abbrev webserverPort : UInt16 := 0x1502
abbrev webserverGuest : UInt16 := 0x1503
abbrev webserverUsegzip : UInt16 := 0x1504
abbrev webserverRefresh : UInt16 := 0x1505
abbrev webserverTemplate : UInt16 := 0x1506

abbrev prefsOnlinesig : UInt16 := 0x1600
abbrev onlinesigEnabled : UInt16 := 0x1601

abbrev prefsServers : UInt16 := 0x1700
abbrev serversRemoveDead : UInt16 := 0x1701
abbrev serversDeadServerRetries : UInt16 := 0x1702
abbrev serversAutoUpdate : UInt16 := 0x1703
abbrev serversAddFromServer : UInt16 := 0x1705
abbrev serversAddFromClient : UInt16 := 0x1706
abbrev serversUseScoreSystem : UInt16 := 0x1707
abbrev serversSmartIdCheck : UInt16 := 0x1708
abbrev serversSafeServerConnect : UInt16 := 0x1709
abbrev serversAutoconnStaticOnly : UInt16 := 0x170A
abbrev serversManualHighPrio : UInt16 := 0x170B
abbrev serversUpdateUrl : UInt16 := 0x170C

abbrev prefsFiles : UInt16 := 0x1800
abbrev filesIchEnabled : UInt16 := 0x1801
abbrev filesAichTrust : UInt16 := 0x1802
abbrev filesNewPaused : UInt16 := 0x1803
abbrev filesNewAutoDlPrio : UInt16 := 0x1804
abbrev filesPreviewPrio : UInt16 := 0x1805
abbrev filesNewAutoUlPrio : UInt16 := 0x1806
abbrev filesUlFullChunks : UInt16 := 0x1807
abbrev filesStartNextPaused : UInt16 := 0x1808
abbrev filesResumeSameCat : UInt16 := 0x1809
abbrev filesSaveSources : UInt16 := 0x180A
abbrev filesExtractMetadata : UInt16 := 0x180B
abbrev filesAllocFullSize : UInt16 := 0x180C
abbrev filesCheckFreeSpace : UInt16 := 0x180D
abbrev filesMinFreeSpace : UInt16 := 0x180E

abbrev prefsDirectories : UInt16 := 0x1A00
abbrev directoriesIncoming : UInt16 := 0x1A01
abbrev directoriesTemp : UInt16 := 0x1A02
abbrev directoriesShareHidden : UInt16 := 0x1A04
abbrev directoriesAutoRescan : UInt16 := 0x1A05

abbrev prefsSecurity : UInt16 := 0x1C00
abbrev securityCanSeeShares : UInt16 := 0x1C01
abbrev ipfilterClients : UInt16 := 0x1C02
abbrev ipfilterServers : UInt16 := 0x1C03
abbrev ipfilterAutoUpdate : UInt16 := 0x1C04
abbrev ipfilterUpdateUrl : UInt16 := 0x1C05
abbrev ipfilterLevel : UInt16 := 0x1C06
abbrev ipfilterFilterLan : UInt16 := 0x1C07
abbrev securityUseSecident : UInt16 := 0x1C08
abbrev securityObfuscationSupported : UInt16 := 0x1C09
abbrev securityObfuscationRequested : UInt16 := 0x1C0A
abbrev securityObfuscationRequired : UInt16 := 0x1C0B

abbrev prefsCoretweaks : UInt16 := 0x1D00
abbrev coretwMaxConnPerFive : UInt16 := 0x1D01
abbrev coretwVerbose : UInt16 := 0x1D02
abbrev coretwFilebuffer : UInt16 := 0x1D03
abbrev coretwUlQueue : UInt16 := 0x1D04
abbrev coretwSrvKeepaliveTimeout : UInt16 := 0x1D05

abbrev prefsKademlia : UInt16 := 0x1E00
abbrev kademliaUpdateUrl : UInt16 := 0x1E01
end TagName

namespace Search
abbrev ecLocal : UInt64 := 0x00
abbrev ecGlobal : UInt64 := 0x01
abbrev ecKad : UInt64 := 0x02
end Search

namespace Prefs
abbrev general : UInt64 := 0x00000002
abbrev connections : UInt64 := 0x00000004
abbrev messagefilter : UInt64 := 0x00000008
abbrev remotecontrols : UInt64 := 0x00000010
abbrev onlinesig : UInt64 := 0x00000020
abbrev servers : UInt64 := 0x00000040
abbrev files : UInt64 := 0x00000080
abbrev directories : UInt64 := 0x00000200
abbrev security : UInt64 := 0x00000800
abbrev coretweaks : UInt64 := 0x00001000
abbrev kademlia : UInt64 := 0x00002000
end Prefs

namespace Detail
abbrev cmd : UInt64 := 0x00
abbrev full : UInt64 := 0x02
abbrev incUpdate : UInt64 := 0x04
end Detail

namespace Status
abbrev ready : UInt8 := 0
abbrev empty : UInt8 := 1
abbrev waitingForHash : UInt8 := 2
abbrev hashing : UInt8 := 3
abbrev error : UInt8 := 4
abbrev insufficient : UInt8 := 5
abbrev paused : UInt8 := 7
abbrev completing : UInt8 := 8
abbrev complete : UInt8 := 9
abbrev alloc : UInt8 := 10
end Status

end Amule.Ec
