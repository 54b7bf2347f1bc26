import AmuleRemote.Lib.Trace
import AmuleRemote.Ec.Numbering
import AmuleRemote.Ec.Status

/-!
# The source clients as a replica

The daemon sends what has changed about its sources, so the map of the worker is
right as long as it is the merge of all updates of the connection it mirrors.

It is cleared when a connect is attempted, before it is known whether there will
be another connection. An attempt that fails leaves the old connection with an
empty map, and what the daemon has sent is not sent again.

## Main results

- `replica_iff_reconnects_without_sources` — the map is the merge of the updates
  throughout a run if and only if no attempt fails over sources
-/

namespace Amule

open Ec Std.Do

/-- The reply to an incremental update on connection `id`, if that is the event. -/
def Event.update (id : ℕ) : Event → Option Packet
  | .exchange client request (.ok reply) =>
    if client.id = id ∧ request.opcode = Op.getUpdate then some reply else none
  | _ => none

/-- The updates received on connection `id`, merged from the empty map. -/
def cumulative (id : ℕ) (trace : List Event) : SourceMap :=
  (trace.filterMap (Event.update id)).foldl updateClients ∅

/-- The sources of a refresh are read off the map once the update has been merged:
    they are those of the connection held. -/
def Event.Mirrored (before : List Event) : Event → Prop
  | .emit held (.sourcesUpdated sources) => ∃ client, held = some client ∧
    sources = EcWorker.sortedSources (cumulative client.id before)
  | _ => True

/-- The map mirrors the connection held, and did whenever a refresh had updated it. -/
structure Replica (worker : EcWorker) (trace : List Event) : Prop where
  held : ∀ client, worker.client = some client →
    worker.sourceClients = cumulative client.id trace
  cleared : worker.client = none → worker.sourceClients = ∅
  told : Trace.Throughout Event.Mirrored trace

theorem cumulative_concat (id : ℕ) (trace : List Event) (ev : Event) :
    cumulative id (trace ++ [ev]) =
      ((ev.update id).map (updateClients (cumulative id trace))).getD (cumulative id trace) := by
  cases hupdate : ev.update id with
  | none => simp [cumulative, hupdate]
  | some reply => simp [cumulative, hupdate]

/-- An event that is no update and tells nothing about sources. -/
structure Event.Silent (ev : Event) : Prop where
  update : ∀ id, ev.update id = none
  mirrored : ∀ before, ev.Mirrored before

theorem Event.silent_exchange {client : EcClient} {request : Packet}
    (hop : request.opcode ≠ Op.getUpdate) (reply : Except EcError Packet) :
    (Event.exchange client request reply).Silent := by
  constructor
  · intro id
    cases reply with
    | ok reply => exact if_neg fun h => hop h.2
    | error e => rfl
  · intro before
    trivial

theorem Event.silent_failure (client : EcClient) (request : Packet) (e : EcError) :
    (Event.exchange client request (.error e)).Silent := ⟨fun _ => rfl, fun _ => trivial⟩

theorem Event.silent_emit (held : Option EcClient) {s : Signal}
    (hs : ∀ sources, s ≠ .sourcesUpdated sources) : (Event.emit held s).Silent := by
  constructor
  · intro id
    rfl
  · intro before
    cases s with
    | sourcesUpdated sources => exact absurd rfl (hs sources)
    | _ => trivial

theorem Event.Handshake.silent {id : ℕ} {ev : Event} (h : ev.Handshake id) : ev.Silent := by
  cases ev with
  | exchange client request reply =>
    exact Event.silent_exchange (h.ne (by decide) (by decide)) reply
  | emit client signal => exact h.elim

theorem cumulative_append {trace events : List Event} (h : ∀ ev ∈ events, ev.Silent) (id : ℕ) :
    cumulative id (trace ++ events) = cumulative id trace := by
  have hupdates : events.filterMap (Event.update id) = [] :=
    List.filterMap_eq_nil_iff.mpr fun ev hev => (h ev hev).update id
  simp [cumulative, hupdates]

/-- Nothing has been merged on a connection that no event used. -/
theorem cumulative_unused {trace : List Event} {id : ℕ} (h : ∀ ev ∈ trace, ¬ev.Uses id) :
    cumulative id trace = ∅ := by
  have hupdates : trace.filterMap (Event.update id) = [] := by
    rw [List.filterMap_eq_nil_iff]
    intro ev hev
    cases ev with
    | emit held signal => rfl
    | exchange client request reply =>
      cases reply with
      | error e => rfl
      | ok reply => exact if_neg fun hupdate => h _ hev hupdate.1
  rw [cumulative, hupdates, List.foldl_nil]

/-- The trace goes on with silent events. -/
def Quietly (trace trace' : List Event) : Prop :=
  ∃ events, trace' = trace ++ events ∧ ∀ ev ∈ events, ev.Silent

section quietly

variable {trace trace' trace'' : List Event}

theorem Quietly.trans (h : Quietly trace trace') (h' : Quietly trace' trace'') :
    Quietly trace trace'' :=
  Trace.Adds.trans (Q := Event.Silent) h h'

theorem Quietly.one {ev : Event} (h : ev.Silent) : Quietly trace (trace ++ [ev]) :=
  Trace.Adds.one (Q := Event.Silent) h

theorem Quietly.cumulative (h : Quietly trace trace') (id : ℕ) :
    cumulative id trace' = cumulative id trace := by
  obtain ⟨events, rfl, hevents⟩ := h
  exact cumulative_append hevents id

theorem Quietly.told (h : Quietly trace trace') (htold : Trace.Throughout Event.Mirrored trace) :
    Trace.Throughout Event.Mirrored trace' := by
  obtain ⟨events, rfl, hevents⟩ := h
  exact htold.append fun ev hev => (hevents ev hev).mirrored

theorem Quietly.replica (h : Quietly trace trace') {worker worker' : EcWorker}
    (hreplica : Replica worker trace) (hclient : worker'.client = worker.client)
    (hsources : worker'.sourceClients = worker.sourceClients) : Replica worker' trace' where
  held client hheld := by
    rw [hsources, h.cumulative]
    exact hreplica.held client (hclient.symm.trans hheld)
  cleared hnone := hsources.trans (hreplica.cleared (hclient.symm.trans hnone))
  told := h.told hreplica.told

end quietly

def World.Replica (w : World) : Prop := Amule.Replica w.worker w.trace

namespace World

variable {w : World}

theorem Replica.exchanged (h : w.Replica) (client : EcClient) {request : Packet}
    (hop : request.opcode ≠ Op.getUpdate) : (w.exchanged client request).Replica :=
  (Quietly.one (Event.silent_exchange hop _)).replica h rfl rfl

theorem Replica.failed (h : w.Replica) (client : EcClient) {request : Packet} {e : EcError}
    (hfail : w.network.replies 0 = .error e) : (w.exchanged client request).Replica := by
  refine Quietly.replica (Quietly.one ?_) h rfl rfl
  rw [hfail]
  exact Event.silent_failure client request e

theorem Replica.emitted (h : w.Replica) {s : Signal}
    (hs : ∀ sources, s ≠ .sourcesUpdated sources) : (w.emitted s).Replica :=
  (Quietly.one (Event.silent_emit _ hs)).replica h rfl rfl

theorem Replica.setWorker (h : w.Replica) {worker : EcWorker}
    (hclient : worker.client = w.worker.client)
    (hsources : worker.sourceClients = w.worker.sourceClients) : (w.setWorker worker).Replica :=
  Quietly.replica ⟨[], (List.append_nil _).symm, by simp⟩ h hclient hsources

/-- The sources told are read off the map, which is the merge. -/
theorem Replica.sourcesTold (h : w.Replica) {client : EcClient}
    (hheld : w.worker.client = some client) :
    (w.emitted (.sourcesUpdated (EcWorker.sortedSources w.worker.sourceClients))).Replica where
  held c hc := by
    rw [trace_emitted, cumulative_concat]
    exact h.held c hc
  cleared := h.cleared
  told := by
    rw [trace_emitted, Trace.throughout_concat]
    exact ⟨h.told, client, hheld, congrArg _ (h.held client hheld)⟩

/-- One more update is merged, by the worker and by the definition. -/
theorem Replica.updated (h : w.Replica) {client : EcClient}
    (hheld : w.worker.client = some client) {reply : Packet}
    (hreply : w.network.replies 0 = .ok reply) : (w.updated client reply).Replica where
  held c hc := by
    obtain rfl : client = c := Option.some.inj (hheld.symm.trans hc)
    have hupdate : (Event.exchange client updateRequest (.ok reply)).update client.id =
        some reply := if_pos ⟨rfl, rfl⟩
    show updateClients w.worker.sourceClients reply =
      cumulative client.id (w.exchanged client updateRequest).trace
    rw [trace_exchanged, hreply, cumulative_concat, hupdate, h.held client hheld]
    rfl
  cleared hnone := absurd (hheld.symm.trans hnone) nofun
  told := by
    show Trace.Throughout _ (w.exchanged client updateRequest).trace
    rw [trace_exchanged, Trace.throughout_concat]
    exact ⟨h.told, trivial⟩

theorem Replica.stopped (h : w.Replica) : w.stopped.Replica := by
  refine Replica.emitted ?_ (by simp)
  exact h.setWorker rfl rfl

theorem Replica.searches (h : w.Replica) (params : SearchParams) : (w.searches params).Replica := by
  refine Replica.emitted (Replica.emitted (Replica.emitted (Replica.emitted ?_ ?_) ?_) ?_) ?_
  · exact h.setWorker rfl rfl
  all_goals simp

theorem Replica.tornDown (h : w.Replica) (reason : QString) (status : ConnStatus) :
    (w.tornDown reason status).Replica where
  held client hheld := by
    rw [client_tornDown] at hheld
    exact absurd hheld nofun
  cleared _ := sourceClients_tornDown w reason status
  told := by
    rw [trace_tornDown, Trace.throughout_concat]
    refine ⟨?_, trivial⟩
    by_cases hsearching : w.worker.searching = true
    · rw [if_pos hsearching, Trace.throughout_concat]
      exact ⟨h.told, trivial⟩
    · rw [if_neg hsearching, List.append_nil]
      exact h.told

end World

theorem replica_rules : Rules World.Replica fun _ => World.Replica where
  reply hplain _ hheld := hheld.1.exchanged _ (hplain.ne (by decide))
  fail _ hfail hheld := hheld.1.failed _ hfail
  refuse hw := hw
  recover _ hw := hw
  log hw := hw.emitted (by simp)
  teardown hw := hw.tornDown _ _
  notice hw := hw.emitted (by simp)
  report {w client s} hs hheld := by
    cases s with
    | sourcesUpdated sources =>
      have hsources : sources = EcWorker.sortedSources w.worker.sourceClients := hs
      rw [hsources]
      exact hheld.1.sourcesTold hheld.2
    | _ => exact hheld.1.emitted (by simp)
  prefs hheld _ := hheld.1.emitted (by simp)
  update hreply hheld := hheld.1.updated hheld.2 hreply
  updateFail hfail hheld := hheld.1.failed _ hfail
  pace hheld := hheld.1.setWorker rfl rfl
  stop _ hw := hw.stopped
  stopReply _ _ hheld := hheld.1.exchanged _ (show Op.searchStop ≠ _ by decide)
  stopFail _ hfail hheld := hheld.1.failed _ hfail

theorem replica_starts (params : SearchParams) :
    Starts World.Replica (fun _ => World.Replica) params := by
  refine .of_sent (fun hheld => ?_) fun hw => hw.stopped
  exact (hheld.1.searches params).exchanged _ (show Op.searchStart ≠ _ by decide)

theorem replica_whole : Whole World.Replica where
  toRules := replica_rules
  starts := replica_starts
  write _ hheld := hheld.1.exchanged _ (show Op.setPreferences ≠ _ by decide)
  disconnect hw := hw.tornDown _ _

/-! ## Connecting -/

namespace World

variable (w : World)

theorem quietly_emitted {s s' : Signal} (hs : ∀ sources, s ≠ .sourcesUpdated sources)
    (hs' : ∀ sources, s' ≠ .sourcesUpdated sources) :
    Quietly w.trace ((w.emitted s).emitted s').trace := by
  have hfirst : Quietly w.trace (w.emitted s).trace := Quietly.one (Event.silent_emit _ hs)
  exact hfirst.trans (Quietly.one (Event.silent_emit _ hs'))

theorem quietly_connecting (host : QString) (port : UInt16) :
    Quietly w.trace (w.connecting host port).trace :=
  quietly_emitted (w.setWorker _) (by simp) (by simp)

theorem quietly_refused (message : QString) : Quietly w.trace (w.refused message).trace :=
  quietly_emitted w (by simp) (by simp)

theorem quietly_adopted (client : EcClient) : Quietly w.trace (w.adopted client).trace :=
  quietly_emitted (w.setWorker _) (by simp) (by simp)

end World

theorem Shaken.quietly {w₀ w : World} (h : Shaken w₀ w) : Quietly w₀.trace w.trace := by
  obtain ⟨events, htrace, hevents⟩ := h
  exact ⟨events, htrace, fun ev hev => (hevents ev hev).silent⟩

section connect

variable {w₀ w : World} {host : QString} {port : UInt16}

/-- The map is empty and nothing has been merged on the new connection. -/
theorem World.Replica.adopted (h : w₀.Replica) (hnumbered : w₀.Numbered) {client : EcClient}
    (hw : Accepted (w₀.connecting host port) client w)
    (hshaken : Shaken (w₀.connecting host port) w) : (w.adopted client).Replica := by
  have hquiet : Quietly w₀.trace (w.adopted client).trace :=
    ((w₀.quietly_connecting host port).trans hshaken.quietly).trans (w.quietly_adopted client)
  constructor
  · intro c hheld
    obtain rfl : client = c := Option.some.inj hheld
    rw [hquiet.cumulative, hw.id]
    have hunused : cumulative w₀.nextId w₀.trace = ∅ :=
      cumulative_unused fun ev hev hused => (hnumbered.used ev hev _ hused).false
    have hcleared : w.worker.sourceClients = ∅ := by
      rw [hw.worker]
      rfl
    exact hcleared.trans hunused.symm
  · intro hnone
    exact absurd hnone (Option.some_ne_none client)
  · exact hquiet.told h.told

/-- The old connection, if any, is left with an empty map. -/
theorem World.Replica.refused (h : w₀.Replica) (hw : Refused (w₀.connecting host port) w)
    (hshaken : Shaken (w₀.connecting host port) w) (message : QString) :
    (w.refused message).Replica ↔ w₀.worker.sourceClients = ∅ := by
  have hquiet : Quietly w₀.trace (w.refused message).trace :=
    ((w₀.quietly_connecting host port).trans hshaken.quietly).trans (w.quietly_refused message)
  have hworker : (w.refused message).worker = { w₀.worker with sourceClients := ∅ } := hw.worker
  constructor
  · intro hafter
    cases hclient : w₀.worker.client with
    | none => exact h.cleared hclient
    | some client =>
      have hheld : (w.refused message).worker.client = some client := by rw [hworker, hclient]
      have hempty := hafter.held client hheld
      rw [hworker, hquiet.cumulative, ← h.held client hclient] at hempty
      exact hempty.symm
  · intro hempty
    refine hquiet.replica h ?_ ?_
    · rw [hworker]
    · rw [hworker, hempty]

end connect

theorem replica_connectToDaemon [Qt] (host : QString) (port : UInt16) (password : QString)
    {w : World} (hw : w.Replica) (hnumbered : w.Numbered) :
    (((EcWorker.connectToDaemon host port password).run w).2.Replica ↔
      (w.network.login = none → w.worker.sourceClients = ∅)) := by
  by_cases hlogin : w.network.login = none
  · obtain ⟨w', message, hrefused, hshaken, heq⟩ :=
      EcWorker.connectToDaemon_refused host port password hlogin
    rw [heq, hw.refused hrefused hshaken message]
    simp [hlogin]
  · refine iff_of_true ?_ fun h => absurd h hlogin
    have haccept {client w'} (haccepted : Accepted (w.connecting host port) client w')
        (hshaken : Shaken (w.connecting host port) w') :
        ((w'.adopted client).settled client).Replica :=
      replica_rules.settled ⟨hw.adopted hnumbered haccepted hshaken, rfl⟩ (fun _ => id)
        fun hw => hw.setWorker rfl rfl
    have hcall := EcWorker.connectToDaemon_spec replica_rules host port password haccept
    rcases hcall with hreplica | ⟨w', message, hrefused, -, -⟩
    · exact hreplica
    · exact absurd hrefused.network hlogin

/-- A slot call keeps the replica unless it is an attempt that fails over sources. -/
theorem replica_call [Qt] {w : World} (slot : Slot) (hw : w.Replica) (hnumbered : w.Numbered) :
    (slot.call.run w).2.Replica ↔
      (Call.ConnectFails ⟨slot, w.network⟩ → w.worker.sourceClients = ∅) := by
  have hshut (w : World) (hw : w.Replica) : (w.setWorker
      { w.worker with timerActive := false, client := none, sourceClients := ∅ }).Replica :=
    ⟨nofun, fun _ => rfl, hw.told⟩
  cases slot with
  | connectToDaemon host port password =>
    exact replica_connectToDaemon host port password hw hnumbered
  | shutdown => exact iff_of_true ((EcWorker.shutdown_keeps hshut).run hw) False.elim
  | _ =>
    refine iff_of_true (Keeps.run ?_ hw) False.elim
    exact replica_whole.keeps trivial

/-! ## Runs -/

/-- The map mirrors the connection throughout a run if and only if every connect attempt
    that fails finds no sources. -/
theorem replica_iff_reconnects_without_sources [Qt] (calls : List Call) :
    Run.Always Session.step (fun s => Replica s.worker s.trace) {} calls ↔
      Run.Along Session.step (fun s c => c.ConnectFails → s.worker.sourceClients = ∅) {}
        calls := by
  have hstep (s : Session) (c : Call) (_ : True) (hnumbered : s.Numbered)
      (hs : Replica s.worker s.trace) : (Replica (s.step c).worker (s.step c).trace ↔
        (c.ConnectFails → s.worker.sourceClients = ∅)) :=
    replica_call c.slot (w := s.world c.network) hs (hnumbered c.network)
  have hkeeps (s : Session) (c : Call) (hs : s.Numbered) : (s.step c).Numbered := hs.step c
  refine Run.always_iff_along_within (V := fun _ => True) hkeeps hstep (fun _ _ => trivial)
    Session.numbered_start ?_
  exact ⟨nofun, fun _ => rfl, Trace.throughout_nil⟩

/-- A daemon that has one source, which it updates in its reply number `n`. -/
def oneSource (n : ℕ) (fields : List Tag) : Network where
  replies k := .ok (if k = n then
    ⟨Op.sharedFiles, [(Tag.empty TagName.client).withChildren
      [(Tag.integer TagName.client 5).withChildren fields]]⟩
    else ⟨Op.authOk, []⟩)

/-- The daemon names the source, a second attempt is refused, and the next update says
    only what has changed. -/
def refusedReconnect : List Call := [
  ⟨.connectToDaemon (.lit "localhost") 4712 [],
    oneSource 7 [.string TagName.clientName (.lit "peer")]⟩,
  ⟨.connectToDaemon (.lit "localhost") 4712 [], { Network.friendly with
    connected := .error (.lit "Connection refused") }⟩,
  ⟨.timeout, oneSource 5 [.integer TagName.clientDownloadTotal 9728]⟩]

/-- The name is gone for as long as the connection lasts. -/
theorem name_lost_after_refusedReconnect :
    ¬Run.Always (@Session.step sampleQt) (fun s => Replica s.worker s.trace) {}
      refusedReconnect := by
  let _ : Qt := sampleQt
  rintro ⟨-, -, -, hlast⟩
  -- the first connection is still held, and its map has the source without the name
  have hheld := hlast.held ⟨0, .lit "unknown"⟩ (by decide +kernel)
  have hnames := congrArg (fun clients => (clients.lookup 5).map SourceClient.name) hheld
  exact absurd hnames (by decide +kernel)

end Amule
