import AmuleRemote.Ec.Blocks
import AmuleRemote.Ec.Sent
import AmuleRemote.Lib.Provenance

/-!
# What the daemon has listed

The daemon's downloads, search results and servers are known by a hash or an address.
The program learns them from the replies that list them, passes them on in its signals,
and names them in the requests that are about one of them.

## Main results

- `Slot.targets_request` — a request names the target of its slot or nothing
- `Slot.Course.names_target` — and so do all the requests of a call
- `Slot.Course.shown_listed` — a call tells of nothing that its replies do not list
-/

namespace Amule

open Ec

/-- Something of the daemon's that a request may be about. -/
inductive Target
  | download (hash : Hash16)
  | result (hash : Hash16)
  | server (ip : ServerIp) (port : UInt16)
deriving DecidableEq

/-! ## Requests -/

/-- What a tag of a request names. -/
def Ec.Tag.target : Tag → Option Target
  | ⟨name, .hash hash, _⟩ =>
    if name = TagName.partfile then some (.download hash)
    else if name = TagName.searchfile then some (.result hash)
    else none
  | ⟨name, .ipv4 addr, _⟩ =>
    if name = TagName.server then some (.server addr.ip addr.port) else none
  | _ => none

def Ec.Packet.targets (request : Packet) : List Target := request.tags.filterMap Tag.target

/-- What a slot is about. -/
def Slot.target : Slot → Option Target
  | .pause hash | .resume hash | .stop hash | .remove hash | .setPriority hash _ =>
    some (.download hash)
  | .downloadResult hash => some (.result hash)
  | .serverConnect ip port | .serverRemove ip port => some (.server ip port)
  | _ => none

theorem Slot.targets_request {slot : Slot} {request : Packet} (h : slot.request = some request) :
    request.targets = slot.target.toList := by
  cases slot with
  | connectToDaemon | disconnectFromDaemon | shutdown | timeout => cases h
  | startSearch params =>
    obtain rfl := Option.some.inj h
    rw [searchRequest]
    split_ifs <;> rfl
  | _ =>
    obtain rfl := Option.some.inj h
    rfl

/-- On its own the worker asks for nothing in particular. -/
theorem ownRequests_targets (targets : List Target) :
    OwnRequests fun request => request.targets ⊆ targets where
  snapshot := by
    have hnone : ∀ q ∈ snapshotRequests, q.targets = [] := by decide
    exact fun q hq => hnone q hq ▸ List.nil_subset targets
  poll := by
    have hnone : ∀ q ∈ pollRequests, q.targets = [] := by decide
    exact fun q hq => hnone q hq ▸ List.nil_subset targets
  prefs := List.nil_subset targets
  auth := List.nil_subset targets
  passwd md5 salt := List.nil_subset targets

/-! ## Replies and signals -/

def Signal.targets : Signal → List Target
  | .downloadsUpdated downloads => downloads.map fun d => .download d.hash
  | .serversUpdated servers => servers.map fun s => .server s.ip s.port
  | .searchResultsUpdated results => results.map fun r => .result r.hash
  | _ => []

/-- What the reply to a request lists. -/
def replyTargets (request reply : Packet) : List Target :=
  if request.opcode = Op.getDloadQueue then
    (Signal.downloadsUpdated (downloadsOf reply)).targets
  else if request.opcode = Op.getServerList then
    (Signal.serversUpdated (serversOf reply)).targets
  else if request.opcode = Op.searchResults then
    (Signal.searchResultsUpdated (searchResultsOf reply)).targets
  else []

def Event.listed : Event → List Target
  | .exchange _ request (.ok reply) => replyTargets request reply
  | _ => []

/-- What the request of an event names. -/
def Event.targets : Event → List Target
  | .exchange _ request _ => request.targets
  | .emit _ _ => []

/-- What events list. -/
def listed (events : List Event) : List Target := events.flatMap Event.listed

/-- What they tell of. -/
def shown (events : List Event) : List Target := (emitted events).flatMap Signal.targets

theorem listed_append (a b : List Event) : listed (a ++ b) = listed a ++ listed b :=
  List.flatMap_append

@[simp] theorem shown_nil : shown [] = [] := rfl

@[simp] theorem shown_append (a b : List Event) : shown (a ++ b) = shown a ++ shown b := by
  rw [shown, emitted_append, List.flatMap_append]
  rfl

@[simp] theorem shown_cons_exchange (client : EcClient) (request : Packet)
    (result : Except EcError Packet) (events : List Event) :
    shown (.exchange client request result :: events) = shown events := rfl

@[simp] theorem shown_cons_emit (held : Option EcClient) (signal : Signal) (events : List Event) :
    shown (.emit held signal :: events) = signal.targets ++ shown events := rfl

theorem shown_emits (held : Option EcClient) (signals : List Signal) :
    shown (signals.map (.emit held)) = signals.flatMap Signal.targets := by
  induction signals with
  | nil => rfl
  | cons signal signals ih => rw [List.map_cons, shown_cons_emit, ih, List.flatMap_cons]

@[simp] theorem shown_tells (client : EcClient) (signals : List Signal) :
    shown (client.tells signals) = signals.flatMap Signal.targets :=
  shown_emits (some client) signals

@[simp] theorem shown_rounds (client : EcClient) (rounds : List Round) :
    shown (client.rounds rounds) = [] := by
  simp [shown, emitted, EcClient.rounds, Event.signal]

theorem listed_rounds (client : EcClient) (rounds : List Round) :
    listed (client.rounds rounds) = rounds.flatMap fun round => replyTargets round.1 round.2 :=
  List.flatMap_map ..

@[simp] theorem shown_farewell (worker : EcWorker) (reason : QString) (status : ConnStatus) :
    shown (worker.farewell reason status) = [] := by
  rw [EcWorker.farewell]
  split <;> rfl

@[simp] theorem shown_answer (worker : EcWorker) (e : EcError) : shown (worker.answer e) = [] := by
  rw [EcWorker.answer]
  split
  · exact shown_farewell worker e.message .error
  · rfl

@[simp] theorem shown_failure (client : EcClient) (worker : EcWorker) (request : Packet)
    (e : EcError) : shown (failure client worker request e) = [] :=
  shown_farewell worker e.message .error

@[simp] theorem targets_prelude (slot : Slot) (worker : EcWorker) :
    (slot.prelude worker).flatMap Signal.targets = [] := by
  cases slot with
  | stopSearch =>
    rw [Slot.prelude]
    split <;> rfl
  | _ => rfl

@[simp] theorem targets_complaint (slot : Slot) (message : QString) :
    (slot.complaint message).flatMap Signal.targets = [] := by
  cases slot <;> rfl

@[simp] theorem targets_fetchTells (fetched : Except EcError Packet) :
    (fetchTells fetched).flatMap Signal.targets = [] := by
  cases fetched <;> rfl

theorem Handshake.shown [Qt] {id : ℕ} {md5 : QString} {result : Except EcError EcClient}
    (h : Handshake id md5 events result) : Amule.shown events = [] := by
  cases h <;> rfl

/-! ## Calls -/

section

variable {client : EcClient} {worker worker' : EcWorker} {events : List Event}

/-- What stands before events and tells of nothing takes nothing from what they list. -/
theorem shown_after {before : List Event} (h : shown events ⊆ listed events)
    (hbefore : shown before = []) : shown (before ++ events) ⊆ listed (before ++ events) := by
  rw [shown_append, hbefore, List.nil_append, listed_append]
  exact List.subset_append_of_subset_right _ h

theorem shown_before {after : List Event} (h : shown events ⊆ listed events)
    (hafter : shown after = []) : shown (events ++ after) ⊆ listed (events ++ after) := by
  rw [shown_append, hafter, List.append_nil, listed_append]
  exact List.subset_append_of_subset_left _ h

/-- A snapshot tells of the downloads and the servers that it has read. -/
theorem Snapshot.shown_listed (s : Snapshot) (client : EcClient) (worker : EcWorker) :
    shown (s.events client worker) ⊆ listed (s.events client worker) := by
  have hshown : shown (s.events client worker) =
      (Signal.downloadsUpdated (downloadsOf s.downloads)).targets ++
        (Signal.serversUpdated (serversOf s.servers)).targets := by
    simp [Snapshot.events, Snapshot.signals, Signal.targets]
  -- of the six replies two list something
  have hlisted : listed (client.rounds s.rounds) =
      (Signal.downloadsUpdated (downloadsOf s.downloads)).targets ++
        (Signal.serversUpdated (serversOf s.servers)).targets := by
    rw [listed_rounds]
    exact congrArg _ (List.append_nil _)
  rw [hshown, Snapshot.events, listed_append, hlisted]
  exact List.subset_append_left _ _

/-- A refresh tells of what the daemon has listed in reply to it. -/
theorem Refreshing.shown_listed (h : Refreshing client worker events worker') :
    shown events ⊆ listed events := by
  cases h with
  | lost cut =>
    rw [shown_append, shown_rounds, shown_failure]
    exact List.nil_subset _
  | told s idle => exact s.shown_listed client worker
  | lostPolling s on cut =>
    refine shown_before (s.shown_listed client worker) ?_
    rw [shown_append, shown_rounds, shown_failure]
    rfl
  | polled s on progress results searching at100 at100Timer =>
    have hpolled : shown (client.rounds (pollRequests.zip [progress, results]) ++
        client.tells ([.searchProgressChanged (progressOf progress),
          .searchResultsUpdated (searchResultsOf results)] ++
          if searching then [] else [.searchingChanged false])) =
        listed (client.rounds (pollRequests.zip [progress, results])) := by
      rw [shown_append, shown_rounds, shown_tells, listed_rounds]
      cases searching <;> rfl
    rw [shown_append, listed_append, hpolled, listed_append]
    exact List.append_subset.mpr
      ⟨List.subset_append_of_subset_left _ (s.shown_listed client worker),
        List.subset_append_of_subset_right _ (List.subset_append_left _ _)⟩

/-- A call asks about what its slot is about, or about nothing in particular. -/
theorem Slot.Course.names_target [Qt] {slot : Slot} {next next' : ℕ}
    (h : slot.Course worker next events worker' next') :
    ∀ ev ∈ events, ∀ t ∈ ev.targets, slot.target = some t := by
  intro ev hev t ht
  cases ev with
  | emit held signal => exact absurd ht List.not_mem_nil
  | exchange client request result =>
    have hrequest : request ∈ Amule.requests events := List.mem_filterMap.mpr ⟨_, hev, rfl⟩
    have hown := h.requests (ownRequests_targets slot.target.toList)
      (fun request hslot => Slot.targets_request hslot ▸ List.Subset.refl _) request hrequest
    exact Option.mem_toList.mp (hown ht)

theorem Slot.Course.shown_listed [Qt] {slot : Slot} {next next' : ℕ}
    (h : slot.Course worker next events worker' next') : shown events ⊆ listed events := by
  have hnothing {events : List Event} (hshown : shown events = []) :
      shown events ⊆ listed events := hshown ▸ List.nil_subset _
  cases h with
  | ignored unheld needs other =>
    refine hnothing ?_
    rw [shown_append, shown_emits, targets_prelude]
    rfl
  | ignoredSearch unheld => exact hnothing rfl
  | failed held sends fails => exact hnothing (by simp)
  | @done _ client request reply events _ held order other accepts refresh =>
    have hanswered : shown ([.exchange client request (.ok reply)] ++ events) ⊆
        listed ([.exchange client request (.ok reply)] ++ events) :=
      shown_after refresh.shown_listed rfl
    exact shown_after hanswered (by simp)
  | applied held reply fetched => exact hnothing (by simp [Signal.targets])
  | fetched held reply => exact hnothing rfl
  | refreshed held active refresh => exact refresh.shown_listed
  | idle | shutdown => exact hnothing rfl
  | disconnected => exact hnothing (by simp [Signal.targets])
  | refused handshake =>
    refine hnothing ?_
    rw [shown_append, shown_append, handshake.shown]
    rfl
  | connected fetched handshake refresh =>
    refine shown_after (shown_after (shown_after refresh.shown_listed ?_) ?_) ?_
    · rw [shown_cons_exchange, shown_tells, targets_fetchTells]
    · rfl
    · rw [shown_append, handshake.shown]
      rfl

end

end Amule
