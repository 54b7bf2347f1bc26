import AmuleRemote.Lib.TwoRuns
import AmuleRemote.Ec.Outcome

/-!
# Two runs of the worker

Two runs of the same slots may be given different passwords, read different replies
or keep their sources in different orders. A `Difference` says which of these, and
what of it may show in the requests and in the signals. It is `Unseen` if everything
the worker reads off a reply, a password or its map agrees so far; then the runs go
on in step, slot by slot, and differ in nothing else.

## Main results

- `Unseen.steps` — an unseen difference is unseen throughout every run
-/

namespace Amule

open Ec TwoRuns

/-- What two runs may differ in, and how that shows. -/
structure Difference where
  password : QString → QString → Prop := Eq
  reply : Packet → Packet → Prop := Eq
  sources : SourceMap → SourceMap → Prop := Eq
  request : Packet → Packet → Prop := Eq
  signal : Signal → Signal → Prop := Eq

namespace Difference

variable (d : Difference)

inductive Events : Event → Event → Prop
  | exchange {client : EcClient} {request request' : Packet} {reply reply' : Except EcError Packet}
      (hrequest : d.request request request') (hreply : Results d.reply reply reply') :
      Events (.exchange client request reply) (.exchange client request' reply')
  | emit {held : Option EcClient} {signal signal' : Signal} (hsignal : d.signal signal signal') :
      Events (.emit held signal) (.emit held signal')

structure Workers (w w' : EcWorker) : Prop where
  client : w.client = w'.client
  sourceClients : d.sources w.sourceClients w'.sourceClients
  timerActive : w.timerActive = w'.timerActive
  searching : w.searching = w'.searching
  at100 : w.at100 = w'.at100
  at100Timer : w.at100Timer = w'.at100Timer

structure Networks (n n' : Network) : Prop where
  connected : n.connected = n'.connected
  replies : ∀ k, Results d.reply (n.replies k) (n'.replies k)
  now : n.now = n'.now

structure Worlds (w w' : World) : Prop where
  worker : d.Workers w.worker w'.worker
  nextId : w.nextId = w'.nextId
  trace : List.Forall₂ d.Events w.trace w'.trace
  network : d.Networks w.network w'.network

structure Sessions (s s' : Session) : Prop where
  worker : d.Workers s.worker s'.worker
  nextId : s.nextId = s'.nextId
  trace : List.Forall₂ d.Events s.trace s'.trace

/-- The same slot, but for the password of a connect. -/
inductive Slots : Slot → Slot → Prop
  | connectToDaemon (host : QString) (port : UInt16) {password password' : QString}
      (h : d.password password password') :
      Slots (.connectToDaemon host port password) (.connectToDaemon host port password')
  | same (slot : Slot) : Slots slot slot

structure Calls (c c' : Call) : Prop where
  slot : d.Slots c.slot c'.slot
  network : d.Networks c.network c'.network

end Difference

/-- All that the worker reads off a reply. -/
structure ReadAlike (r r' : Packet) : Prop where
  opcode : r.opcode = r'.opcode
  salt : r.tagInt TagName.passwdSalt = r'.tagInt TagName.passwdSalt
  version : r.tagString TagName.serverVersion = r'.tagString TagName.serverVersion
  message : r.tagString TagName.string = r'.tagString TagName.string
  stats : statsOf r = statsOf r'
  downloads : downloadsOf r = downloadsOf r'
  connState : connStateOf r = connStateOf r'
  servers : serversOf r = serversOf r'
  sharedFiles : sharedFilesOf r = sharedFilesOf r'
  searchResults : searchResultsOf r = searchResultsOf r'
  progress : progressOf r = progressOf r'
  prefs : prefsOf r = prefsOf r'

namespace ReadAlike

variable {r r' r'' : Packet}

protected theorem refl (r : Packet) : ReadAlike r r :=
  ⟨rfl, rfl, rfl, rfl, rfl, rfl, rfl, rfl, rfl, rfl, rfl, rfl⟩

protected theorem symm (h : ReadAlike r r') : ReadAlike r' r :=
  ⟨h.opcode.symm, h.salt.symm, h.version.symm, h.message.symm, h.stats.symm, h.downloads.symm,
    h.connState.symm, h.servers.symm, h.sharedFiles.symm, h.searchResults.symm, h.progress.symm,
    h.prefs.symm⟩

protected theorem trans (h : ReadAlike r r') (h' : ReadAlike r' r'') : ReadAlike r r'' where
  opcode := h.opcode.trans h'.opcode
  salt := h.salt.trans h'.salt
  version := h.version.trans h'.version
  message := h.message.trans h'.message
  stats := h.stats.trans h'.stats
  downloads := h.downloads.trans h'.downloads
  connState := h.connState.trans h'.connState
  servers := h.servers.trans h'.servers
  sharedFiles := h.sharedFiles.trans h'.sharedFiles
  searchResults := h.searchResults.trans h'.searchResults
  progress := h.progress.trans h'.progress
  prefs := h.prefs.trans h'.prefs

end ReadAlike

/-- The difference shows only where it says so. -/
structure Unseen [Qt] (d : Difference) : Prop where
  request : ∀ q, d.request q q
  signal : ∀ s, d.signal s s
  empty : d.sources ∅ ∅
  password : ∀ {p p'}, d.password p p' → ∀ salt,
    d.request (EcClient.passwdRequest (Qt.toLower (normalizePasswordMd5 p)) salt)
      (EcClient.passwdRequest (Qt.toLower (normalizePasswordMd5 p')) salt)
  reads : ∀ {r r'}, d.reply r r' → ReadAlike r r'
  update : ∀ {m m' r r'}, d.sources m m' → d.reply r r' →
    d.sources (updateClients m r) (updateClients m' r')
  sorted : ∀ {m m'}, d.sources m m' →
    d.signal (.sourcesUpdated (EcWorker.sortedSources m))
      (.sourcesUpdated (EcWorker.sortedSources m'))

namespace Difference

variable {d : Difference}

/-! ## Worlds -/

theorem Networks.next {n n' : Network} (h : d.Networks n n') : d.Networks n.next n'.next :=
  ⟨h.connected, fun k => h.replies (k + 1), h.now⟩

section worlds

variable {w w' : World} (h : d.Worlds w w')
include h

theorem Worlds.emitted {s s' : Signal} (hs : d.signal s s') :
    d.Worlds (w.emitted s) (w'.emitted s') where
  worker := h.worker
  nextId := h.nextId
  trace := by
    refine List.rel_append h.trace (.cons ?_ .nil)
    rw [h.worker.client]
    exact .emit hs
  network := h.network

theorem Worlds.exchanged (client : EcClient) {q q' : Packet} (hq : d.request q q') :
    d.Worlds (w.exchanged client q) (w'.exchanged client q') where
  worker := h.worker
  nextId := h.nextId
  trace := List.rel_append h.trace (.cons (.exchange hq (h.network.replies 0)) .nil)
  network := h.network.next

theorem Worlds.setWorker {worker worker' : EcWorker} (hworker : d.Workers worker worker') :
    d.Worlds (w.setWorker worker) (w'.setWorker worker') :=
  ⟨hworker, h.nextId, h.trace, h.network⟩

theorem Worlds.opened : d.Worlds w.opened w'.opened :=
  ⟨h.worker, congrArg (· + 1) h.nextId, h.trace, h.network⟩

end worlds

end Difference

/-! ## Parts of a slot -/

section

variable [Qt] {d : Difference} (h : Unseen d)
include h

theorem Unseen.emit (s : Signal) : Alike d.Worlds Eq (emit s) (emit s) :=
  .modify fun _ _ hw => hw.emitted (h.signal s)

omit [Qt] h in
theorem Difference.modifyWorker {f g : EcWorker → EcWorker}
    (hfg : ∀ w w', d.Workers w w' → d.Workers (f w) (g w')) :
    Alike d.Worlds Eq (modifyWorker f) (modifyWorker g) :=
  .modify fun _ _ hw => hw.setWorker (hfg _ _ hw.worker)

omit [Qt] h in
theorem Difference.exchange (client : EcClient) {q q' : Packet} (hq : d.request q q') :
    AlikeExcept d.Worlds d.reply (client.exchange q) (client.exchange q') := by
  intro w w' hw
  rw [EcClient.run_exchange, EcClient.run_exchange]
  exact ⟨hw.network.replies 0, hw.exchanged client hq⟩

theorem Unseen.read (client : EcClient) (q : Packet) {α : Type} {read : Packet → α}
    (hread : ∀ {r r'}, ReadAlike r r' → read r = read r') :
    AlikeExcept d.Worlds Eq (do let resp ← client.exchange q; pure (read resp))
      (do let resp ← client.exchange q; pure (read resp)) :=
  (d.exchange client (h.request q)).bind fun _ _ hr => .pure (hread (h.reads hr))

theorem Unseen.sendDiscard (client : EcClient) (q : Packet) :
    AlikeExcept d.Worlds Eq (sendDiscard client q) (sendDiscard client q) :=
  @Unseen.read _ _ h client q Unit (fun _ => ()) fun _ => rfl

theorem Unseen.refusable (client : EcClient) (q : Packet) (default : QString) :
    AlikeExcept d.Worlds Eq (α := Unit) (do
        let resp ← client.exchange q
        if resp.opcode = Op.failed then
          throw ⟨.remote, (resp.tagString TagName.string).getD default⟩)
      (do
        let resp ← client.exchange q
        if resp.opcode = Op.failed then
          throw ⟨.remote, (resp.tagString TagName.string).getD default⟩) := by
  refine (d.exchange client (h.request q)).bind fun r r' hr => ?_
  rw [(h.reads hr).opcode, (h.reads hr).message]
  split
  · exact .throw _
  · exact .pure rfl

theorem Unseen.fetchPrefs (client : EcClient) :
    AlikeExcept d.Worlds Eq (Amule.fetchPrefs client) (Amule.fetchPrefs client) :=
  h.read client _ (·.prefs)

theorem Unseen.fetchClientUpdate (client : EcClient) :
    AlikeExcept d.Worlds Eq (fetchClientUpdate client) (fetchClientUpdate client) := by
  refine (d.exchange client (h.request _)).bind fun r r' hr => ?_
  refine .lift (d.modifyWorker fun w w' hw => ?_)
  exact ⟨hw.client, h.update hw.sourceClients hr, hw.timerActive, hw.searching, hw.at100,
    hw.at100Timer⟩

/-! ## Slots -/

namespace EcWorker

omit [Qt] h in
theorem getClient_alike : Alike d.Worlds Eq getClient getClient :=
  Alike.get.bind fun _ _ hw => .pure hw.worker.client

theorem stopSearching_alike : Alike d.Worlds Eq stopSearching stopSearching := by
  refine .modify fun w w' hw => ?_
  refine Difference.Worlds.emitted ?_ (h.signal _)
  exact hw.setWorker { hw.worker with searching := rfl }

theorem teardown_alike (reason : QString) (status : ConnStatus) :
    Alike d.Worlds Eq (teardown reason status) (teardown reason status) := by
  refine (d.modifyWorker fun w w' hw => ?_).bind fun _ _ _ => ?_
  · exact ⟨rfl, h.empty, rfl, hw.searching, hw.at100, hw.at100Timer⟩
  refine Alike.get.bind fun w w' hw => ?_
  -- both runs have a search on, or neither
  rw [hw.worker.searching]
  split
  · exact (stopSearching_alike h).bind fun _ _ _ => h.emit _
  · exact h.emit _

/-- A failure is told, and an error of kind `Io` ends the connection. -/
theorem failed_alike (signal : Signal) (e : EcError) :
    Alike d.Worlds Eq (do Amule.emit signal; if e.kind = .io then teardown e.message .error)
      (do Amule.emit signal; if e.kind = .io then teardown e.message .error) := by
  refine (h.emit signal).bind fun _ _ _ => ?_
  split
  · exact teardown_alike h _ _
  · exact .pure rfl

theorem noteProgress_alike (progress : UInt32) :
    Alike d.Worlds Eq (noteProgress progress) (noteProgress progress) := by
  refine Alike.get.bind fun w w' hw => ?_
  rw [hw.worker.at100, hw.worker.at100Timer, hw.network.now]
  split
  · split
    · exact d.modifyWorker fun _ _ hw => { hw with at100 := rfl, at100Timer := rfl }
    · split
      · refine (d.modifyWorker fun _ _ hw => ?_).bind fun _ _ _ => h.emit _
        exact { hw with searching := rfl, at100 := rfl }
      · exact .pure rfl
  · exact d.modifyWorker fun _ _ hw => { hw with at100 := rfl }

theorem refreshSearch_alike (client : EcClient) :
    AlikeExcept d.Worlds Eq (refreshSearch client) (refreshSearch client) := by
  refine (h.read client _ (·.progress)).bind fun progress _ hprogress => ?_
  subst hprogress
  refine (h.read client _ (·.searchResults)).bind fun results _ hresults => ?_
  subst hresults
  refine (AlikeExcept.lift (h.emit _)).bind fun _ _ _ => ?_
  refine (AlikeExcept.lift (h.emit _)).bind fun _ _ _ => ?_
  exact .lift (noteProgress_alike h progress)

/-- The replies are read alike, and the sources are sorted into what may show. -/
theorem refresh_alike (client : EcClient) :
    AlikeExcept d.Worlds Eq (refresh client) (refresh client) := by
  refine (h.read client _ (·.stats)).bind fun stats _ hstats => ?_
  refine (h.read client _ (·.downloads)).bind fun downloads _ hdownloads => ?_
  refine (h.read client _ (·.connState)).bind fun conn _ hconn => ?_
  refine (h.read client _ (·.servers)).bind fun servers _ hservers => ?_
  refine (h.read client _ (·.sharedFiles)).bind fun files _ hfiles => ?_
  subst hstats hdownloads hconn hservers hfiles
  refine (h.fetchClientUpdate client).bind fun _ _ _ => ?_
  refine (AlikeExcept.lift Alike.get).bind fun w w' hw => ?_
  refine (AlikeExcept.lift (h.emit _)).bind fun _ _ _ => ?_
  refine (AlikeExcept.lift (h.emit _)).bind fun _ _ _ => ?_
  refine (AlikeExcept.lift (h.emit _)).bind fun _ _ _ => ?_
  refine (AlikeExcept.lift (h.emit _)).bind fun _ _ _ => ?_
  refine (AlikeExcept.lift (h.emit _)).bind fun _ _ _ => ?_
  -- the one signal that is not read off a reply
  have hsources : Alike d.Worlds Eq
      (Amule.emit (.sourcesUpdated (sortedSources w.worker.sourceClients)))
      (Amule.emit (.sourcesUpdated (sortedSources w'.worker.sourceClients))) :=
    .modify fun _ _ hv => hv.emitted (h.sorted hw.worker.sourceClients)
  refine (AlikeExcept.lift hsources).bind fun _ _ _ => ?_
  rw [hw.worker.searching]
  split
  · exact refreshSearch_alike h client
  · exact .pure rfl

theorem onRefresh_alike : Alike d.Worlds Eq onRefresh onRefresh := by
  refine getClient_alike.bind fun client _ hclient => ?_
  subst hclient
  cases client with
  | none => exact .pure rfl
  | some client =>
    refine Alike.bind (refresh_alike h client) fun r r' hr => ?_
    cases hr with
    | ok _ => exact .pure rfl
    | error e => exact (h.emit _).bind fun _ _ _ => teardown_alike h _ _

theorem runConnected_alike {fn : EcClient → EcM Unit}
    (hfn : ∀ client, AlikeExcept d.Worlds Eq (fn client) (fn client)) :
    Alike d.Worlds Eq (runConnected fn) (runConnected fn) := by
  refine getClient_alike.bind fun client _ hclient => ?_
  subst hclient
  cases client with
  | none => exact h.emit _
  | some client =>
    refine Alike.bind (hfn client) fun r r' hr => ?_
    cases hr with
    | ok _ => exact onRefresh_alike h
    | error e => exact failed_alike h _ e

theorem startSearch_alike (params : SearchParams) :
    Alike d.Worlds Eq (startSearch params) (startSearch params) := by
  refine getClient_alike.bind fun client _ hclient => ?_
  subst hclient
  cases client with
  | none => exact h.emit _
  | some client =>
    refine (d.modifyWorker fun w w' hw => ?_).bind fun _ _ _ => ?_
    · exact { hw with searching := rfl, at100 := rfl }
    refine (h.emit _).bind fun _ _ _ => ?_
    refine (h.emit _).bind fun _ _ _ => ?_
    refine (h.emit _).bind fun _ _ _ => ?_
    refine (h.emit _).bind fun _ _ _ => ?_
    refine Alike.bind (h.refusable client _ _) fun r r' hr => ?_
    cases hr with
    | ok _ => exact onRefresh_alike h
    | error e => exact (stopSearching_alike h).bind fun _ _ _ => failed_alike h _ e

theorem stopSearch_alike : Alike d.Worlds Eq stopSearch stopSearch := by
  have hrun : Alike d.Worlds Eq (runConnected fun c => Amule.stopSearch c)
      (runConnected fun c => Amule.stopSearch c) :=
    runConnected_alike h fun c => h.sendDiscard c _
  refine Alike.get.bind fun w w' hw => ?_
  rw [hw.worker.searching]
  split
  · exact (stopSearching_alike h).bind fun _ _ _ => hrun
  · exact hrun

theorem fetchPrefs_alike : Alike d.Worlds Eq EcWorker.fetchPrefs EcWorker.fetchPrefs := by
  refine getClient_alike.bind fun client _ hclient => ?_
  subst hclient
  cases client with
  | none => exact h.emit _
  | some client =>
    refine Alike.bind (h.fetchPrefs client) fun r r' hr => ?_
    cases hr with
    | ok hprefs =>
      subst hprefs
      exact h.emit _
    | error e => exact failed_alike h _ e

theorem applyPrefs_alike (prefs : DaemonPrefs) :
    Alike d.Worlds Eq (applyPrefs prefs) (applyPrefs prefs) := by
  refine getClient_alike.bind fun client _ hclient => ?_
  subst hclient
  cases client with
  | none => exact h.emit _
  | some client =>
    refine Alike.bind (h.sendDiscard client _) fun r r' hr => ?_
    cases hr with
    | error e => exact failed_alike h _ e
    | ok _ =>
      refine (h.emit _).bind fun _ _ _ => ?_
      refine Alike.bind (h.fetchPrefs client) fun r r' hr => ?_
      cases hr with
      | ok hprefs =>
        subst hprefs
        exact h.emit _
      -- the error of this fetch is dropped
      | error e => exact .pure rfl

theorem disconnectFromDaemon_alike :
    Alike d.Worlds Eq disconnectFromDaemon disconnectFromDaemon :=
  (teardown_alike h _ _).bind fun _ _ _ => h.emit _

theorem shutdown_alike : Alike d.Worlds Eq shutdown shutdown :=
  d.modifyWorker fun _ _ hw => ⟨rfl, h.empty, rfl, hw.searching, hw.at100, hw.at100Timer⟩

/-- The two logins may use different passwords. -/
theorem login_alike (client : EcClient) {md5 md5' : QString}
    (hmd5 : ∀ salt,
      d.request (EcClient.passwdRequest md5 salt) (EcClient.passwdRequest md5' salt)) :
    AlikeExcept d.Worlds d.reply (client.login md5) (client.login md5') := by
  refine (d.exchange client (h.request _)).bind fun r r' hr => ?_
  rw [(h.reads hr).opcode, (h.reads hr).salt]
  split
  -- the salt is the same, and only the hash made with it may differ
  · cases r'.tagInt TagName.passwdSalt with
    | none => exact .throw _
    | some salt => exact d.exchange client (hmd5 salt)
  · exact .pure hr

theorem authenticate_alike (client : EcClient) {md5 md5' : QString}
    (hmd5 : ∀ salt,
      d.request (EcClient.passwdRequest md5 salt) (EcClient.passwdRequest md5' salt)) :
    AlikeExcept d.Worlds Eq (client.authenticate md5) (client.authenticate md5') := by
  refine (login_alike h client hmd5).bind fun r r' hr => ?_
  rw [(h.reads hr).opcode, (h.reads hr).version, (h.reads hr).message]
  split
  · exact .pure rfl
  · split
    · exact .throw _
    · exact .throw _

theorem connectWithMd5_alike (host : QString) (port : UInt16) {md5 md5' : QString}
    (hmd5 : ∀ salt, d.request (EcClient.passwdRequest (Qt.toLower md5) salt)
      (EcClient.passwdRequest (Qt.toLower md5') salt)) :
    AlikeExcept d.Worlds Eq (EcClient.connectWithMd5 host port md5)
      (EcClient.connectWithMd5 host port md5') := by
  refine (AlikeExcept.lift Alike.get).bind fun w w' hw => ?_
  have hopened : Alike d.Worlds Eq (set w.opened : SlotM PUnit) (set w'.opened) :=
    fun _ _ _ => ⟨rfl, hw.opened⟩
  refine (AlikeExcept.lift hopened).bind fun _ _ _ => ?_
  rw [hw.network.connected, hw.nextId]
  cases w'.network.connected with
  | error message => exact .throw _
  | ok _ => exact authenticate_alike h _ hmd5

theorem connectToDaemon_alike (host : QString) (port : UInt16) {password password' : QString}
    (hpassword : ∀ salt,
      d.request (EcClient.passwdRequest (Qt.toLower (normalizePasswordMd5 password)) salt)
        (EcClient.passwdRequest (Qt.toLower (normalizePasswordMd5 password')) salt)) :
    Alike d.Worlds Eq (connectToDaemon host port password)
      (connectToDaemon host port password') := by
  refine (d.modifyWorker fun w w' hw => ?_).bind fun _ _ _ => ?_
  · exact { hw with sourceClients := h.empty }
  refine (h.emit _).bind fun _ _ _ => ?_
  refine (h.emit _).bind fun _ _ _ => ?_
  refine Alike.bind (connectWithMd5_alike h host port hpassword) fun r r' hr => ?_
  cases hr with
  | error e => exact (h.emit _).bind fun _ _ _ => h.emit _
  | @ok client _ hclient =>
    subst hclient
    -- the first refresh comes next, whatever became of the preferences
    have hrefresh : Alike d.Worlds Eq (do
        modifyWorker fun w => { w with timerActive := true }
        onRefresh) (do
        modifyWorker fun w => { w with timerActive := true }
        onRefresh) := by
      refine (d.modifyWorker fun w w' hw => ?_).bind fun _ _ _ => onRefresh_alike h
      exact { hw with timerActive := rfl }
    refine (d.modifyWorker fun w w' hw => ?_).bind fun _ _ _ => ?_
    · exact { hw with client := rfl }
    refine (h.emit _).bind fun _ _ _ => ?_
    refine (h.emit _).bind fun _ _ _ => ?_
    refine Alike.bind (h.fetchPrefs client) fun r r' hr => ?_
    cases hr with
    | ok hprefs =>
      subst hprefs
      exact (h.emit _).bind fun _ _ _ => hrefresh
    | error e => exact hrefresh

end EcWorker

theorem Unseen.call {slot slot' : Slot} (hslot : d.Slots slot slot') :
    Alike d.Worlds Eq slot.call slot'.call := by
  have hsend {q : Packet} := EcWorker.runConnected_alike h fun c => h.sendDiscard c q
  cases hslot with
  | connectToDaemon host port hpassword =>
    exact EcWorker.connectToDaemon_alike h host port (h.password hpassword)
  | same =>
    cases slot with
    | connectToDaemon host port password =>
      exact EcWorker.connectToDaemon_alike h host port fun _ => h.request _
    | disconnectFromDaemon => exact EcWorker.disconnectFromDaemon_alike h
    | startSearch params => exact EcWorker.startSearch_alike h params
    | stopSearch => exact EcWorker.stopSearch_alike h
    | serverAdd name address =>
      exact EcWorker.runConnected_alike h fun c => h.refusable c _ _
    | fetchPrefs => exact EcWorker.fetchPrefs_alike h
    | applyPrefs prefs => exact EcWorker.applyPrefs_alike h prefs
    | shutdown => exact EcWorker.shutdown_alike h
    | timeout =>
      refine Alike.get.bind fun w w' hw => ?_
      rw [hw.worker.timerActive]
      split
      · exact EcWorker.onRefresh_alike h
      · exact .pure rfl
    | _ => exact hsend

theorem Unseen.step {s s' : Session} {c c' : Call} (hs : d.Sessions s s') (hc : d.Calls c c') :
    d.Sessions (s.step c) (s'.step c') := by
  have hworld : d.Worlds (s.world c.network) (s'.world c'.network) :=
    ⟨hs.worker, hs.nextId, hs.trace, hc.network⟩
  obtain ⟨-, hnext⟩ := h.call hc.slot _ _ hworld
  exact ⟨hnext.worker, hnext.nextId, hnext.trace⟩

/-- The runs go on in step. -/
theorem Unseen.steps {s s' : Session} {cs cs' : List Call} (hs : d.Sessions s s')
    (hcs : List.Forall₂ d.Calls cs cs') :
    d.Sessions (cs.foldl Session.step s) (cs'.foldl Session.step s') := by
  induction hcs generalizing s s' with
  | nil => exact hs
  | cons hc _ ih => exact ih (h.step hs hc)

theorem Unseen.start : d.Sessions {} {} :=
  ⟨⟨rfl, h.empty, rfl, rfl, rfl, rfl⟩, rfl, .nil⟩

end

end Amule
