import AmuleRemote.Ec.SlotCourse

/-!
# The orders sent to the daemon

An order is a request by which the daemon changes something; the other requests log
in or ask. A refresh only asks, and so does a connect. A call sends the order of its
slot once if there is a connection, whatever comes of it, and sends no other.

## Main results

- `ordersSent_run` — the orders of a run are those of its calls, each sent once and
  in their order
-/

namespace Amule

open Ec

/-- The opcodes of the requests that log in or ask. -/
def askingOpcodes : List UInt8 := [
  Op.authReq, Op.authPasswd, Op.statReq, Op.getDloadQueue, Op.getConnstate, Op.getServerList,
  Op.getSharedFiles, Op.getUpdate, Op.searchProgress, Op.searchResults, Op.getPreferences]

/-- The order that an event sends, with the connection it is sent on. -/
def Event.order : Event → Option (EcClient × Packet)
  | .exchange client request _ =>
    if request.opcode ∈ askingOpcodes then none else some (client, request)
  | .emit _ _ => none

def ordersSent (trace : List Event) : List (EcClient × Packet) := trace.filterMap Event.order

/-- The order of a slot, on the connection that is held. -/
def Slot.orderOn (slot : Slot) (worker : EcWorker) : Option (EcClient × Packet) :=
  worker.client.bind fun client => slot.order.map fun request => (client, request)

/-- The orders of the calls of a run. -/
def Session.orders [Qt] : Session → List Call → List (EcClient × Packet)
  | _, [] => []
  | s, c :: calls => (c.slot.orderOn s.worker).toList ++ (s.step c).orders calls

section

variable {client : EcClient} {worker worker' : EcWorker} {events : List Event}

@[simp] theorem ordersSent_append (a b : List Event) :
    ordersSent (a ++ b) = ordersSent a ++ ordersSent b := List.filterMap_append

theorem ordersSent_asking {request : Packet} (h : request.opcode ∈ askingOpcodes)
    (reply : Except EcError Packet) (events : List Event) :
    ordersSent (.exchange client request reply :: events) = ordersSent events := by
  simp [ordersSent, Event.order, h]

theorem ordersSent_order {request : Packet} (h : request.opcode ∉ askingOpcodes)
    (reply : Except EcError Packet) (events : List Event) :
    ordersSent (.exchange client request reply :: events) =
      (client, request) :: ordersSent events := by
  simp [ordersSent, Event.order, h]

@[simp] theorem ordersSent_emits (held : Option EcClient) (signals : List Signal) :
    ordersSent (signals.map (.emit held)) = [] := by
  simp [ordersSent, Event.order]

@[simp] theorem ordersSent_tells (signals : List Signal) :
    ordersSent (client.tells signals) = [] := ordersSent_emits (some client) signals

@[simp] theorem ordersSent_farewell (reason : QString) (status : ConnStatus) :
    ordersSent (worker.farewell reason status) = [] := by
  rw [EcWorker.farewell]
  split <;> rfl

@[simp] theorem ordersSent_answer (e : EcError) : ordersSent (worker.answer e) = [] := by
  rw [EcWorker.answer]
  split
  · exact ordersSent_farewell e.message .error
  · rfl

theorem snapshotRequests_asking : ∀ q ∈ snapshotRequests, q.opcode ∈ askingOpcodes := by decide

theorem pollRequests_asking : ∀ q ∈ pollRequests, q.opcode ∈ askingOpcodes := by decide

theorem ordersSent_rounds {rounds : List Round}
    (h : ∀ round ∈ rounds, round.1.opcode ∈ askingOpcodes) :
    ordersSent (client.rounds rounds) = [] := by
  rw [ordersSent, EcClient.rounds, List.filterMap_eq_nil_iff]
  intro ev hev
  obtain ⟨round, hround, rfl⟩ := List.mem_map.mp hev
  exact if_pos (h round hround)

theorem ordersSent_snapshot (s : Snapshot) : ordersSent (s.events client worker) = [] := by
  rw [Snapshot.events, ordersSent_append, ordersSent_tells, List.append_nil]
  exact ordersSent_rounds fun round hround =>
    snapshotRequests_asking _ (List.of_mem_zip hround).1

theorem ordersSent_failure {request : Packet} (h : request.opcode ∈ askingOpcodes) (e : EcError) :
    ordersSent (failure client worker request e) = [] := by
  rw [failure, ordersSent_asking h]
  exact ordersSent_farewell e.message .error

theorem CutShort.asking {script : List Packet} {rounds : List Round} {request : Packet}
    (h : CutShort script rounds request) (hscript : ∀ q ∈ script, q.opcode ∈ askingOpcodes)
    (e : EcError) :
    ordersSent (client.rounds rounds ++ failure client worker request e) = [] := by
  have hrounds : ∀ round ∈ rounds, round.1.opcode ∈ askingOpcodes := fun round hround =>
    hscript _ (h.subset (List.mem_append_left _ (List.mem_map_of_mem hround)))
  have hrequest : request.opcode ∈ askingOpcodes :=
    hscript _ (h.subset (List.mem_append_right _ List.mem_cons_self))
  rw [ordersSent_append, ordersSent_rounds hrounds, ordersSent_failure hrequest]
  rfl

/-- A refresh sends no order. -/
theorem Refreshing.ordersSent (h : Refreshing client worker events worker') :
    Amule.ordersSent events = [] := by
  cases h with
  | lost cut => exact cut.asking snapshotRequests_asking _
  | told s idle => exact ordersSent_snapshot s
  | lostPolling s on cut =>
    rw [ordersSent_append, ordersSent_snapshot, cut.asking pollRequests_asking]
    rfl
  | polled s on progress results searching at100 at100Timer =>
    rw [ordersSent_append, ordersSent_snapshot, ordersSent_append, ordersSent_tells,
      ordersSent_rounds fun round hround => pollRequests_asking _ (List.of_mem_zip hround).1]
    rfl

theorem Handshake.ordersSent [Qt] {id : ℕ} {md5 : QString} {result : Except EcError EcClient}
    (h : Handshake id md5 events result) : Amule.ordersSent events = [] := by
  cases h <;> rfl

theorem Slot.order_orders (slot : Slot) {request : Packet} (h : slot.order = some request) :
    request.opcode ∉ askingOpcodes := by
  cases slot with
  | connectToDaemon | disconnectFromDaemon | fetchPrefs | shutdown | timeout => cases h
  | _ =>
    obtain rfl := Option.some.inj h
    dsimp only [searchRequest, setPrefsRequest]
    decide

theorem Slot.orderOn_unheld (slot : Slot) (h : worker.client = none) :
    slot.orderOn worker = none := by
  rw [orderOn, h]
  rfl

theorem Slot.orderOn_held {slot : Slot} {request : Packet} (hheld : worker.client = some client)
    (horder : slot.order = some request) : slot.orderOn worker = some (client, request) := by
  rw [orderOn, hheld, horder]
  rfl

theorem Slot.orderOn_none {slot : Slot} (h : slot.order = none) : slot.orderOn worker = none := by
  rw [orderOn, h]
  cases worker.client <;> rfl

/-- A call sends its order and no other. -/
theorem Slot.Course.ordersSent [Qt] {slot : Slot} {next next' : ℕ}
    (h : slot.Course worker next events worker' next') :
    Amule.ordersSent events = (slot.orderOn worker).toList := by
  have hprefs : prefsRequest.opcode ∈ askingOpcodes := by decide
  cases h with
  | ignored unheld needs other =>
    rw [slot.orderOn_unheld unheld, ordersSent_append, ordersSent_emits]
    rfl
  | @ignoredSearch params unheld =>
    rw [Slot.orderOn_unheld _ unheld]
    rfl
  | @failed slot client request result e held sends fails =>
    have hrest : Amule.ordersSent (client.tells (slot.complaint e.message) ++
        (slot.halted worker).answer e) = [] := by
      rw [ordersSent_append, ordersSent_tells, ordersSent_answer]
      rfl
    rw [List.append_assoc, ordersSent_append, ordersSent_tells, List.cons_append,
      List.nil_append]
    cases horder : slot.order with
    | none =>
      -- only the fetch of the preferences sends a request that is no order
      have hasks : request.opcode ∈ askingOpcodes := by
        cases slot with
        | fetchPrefs => exact Option.some.inj sends ▸ hprefs
        | _ => exact absurd (sends.symm.trans horder) (by simp)
      rw [ordersSent_asking hasks, hrest, orderOn_none horder]
      rfl
    | some order =>
      have heq : request = order := by
        cases slot with
        | fetchPrefs => cases horder
        | _ => exact Option.some.inj (sends.symm.trans horder)
      subst heq
      rw [ordersSent_order (slot.order_orders horder), hrest, orderOn_held held horder]
      rfl
  | @done slot client request reply events _ held order other accepts refresh =>
    rw [ordersSent_append, ordersSent_tells, ordersSent_order (slot.order_orders order),
      refresh.ordersSent, orderOn_held held order]
    rfl
  | @applied client prefs held reply fetched =>
    have horder : (Slot.applyPrefs prefs).order = some (setPrefsRequest prefs) := rfl
    rw [ordersSent_order (Slot.order_orders _ horder), orderOn_held held horder]
    have hrest : Amule.ordersSent (.exchange client prefsRequest fetched ::
        client.tells (fetchTells fetched)) = [] := by
      rw [ordersSent_asking hprefs, ordersSent_tells]
    exact congrArg _ hrest
  | @fetched client held reply =>
    rw [ordersSent_asking hprefs, orderOn_none rfl]
    rfl
  | refreshed held active refresh =>
    rw [refresh.ordersSent, orderOn_none rfl]
    rfl
  | idle | shutdown =>
    rw [orderOn_none rfl]
    rfl
  | disconnected =>
    rw [ordersSent_append, ordersSent_farewell, orderOn_none rfl]
    rfl
  | refused handshake =>
    rw [ordersSent_append, ordersSent_append, handshake.ordersSent, orderOn_none rfl]
    rfl
  | connected fetched handshake refresh =>
    rw [ordersSent_append, ordersSent_append, ordersSent_append, ordersSent_append,
      handshake.ordersSent, ordersSent_asking hprefs, ordersSent_tells, ordersSent_tells,
      refresh.ordersSent, orderOn_none rfl]
    rfl

end

/-- The orders of a run are those of its calls. -/
theorem ordersSent_run [Qt] (s : Session) (calls : List Call) :
    ordersSent (calls.foldl Session.step s).trace = ordersSent s.trace ++ s.orders calls := by
  induction calls generalizing s with
  | nil => exact (List.append_nil _).symm
  | cons c calls ih =>
    obtain ⟨events, htrace, hcourse⟩ := s.step_course c
    rw [List.foldl_cons, ih, htrace, ordersSent_append, hcourse.ordersSent, List.append_assoc,
      Session.orders]

end Amule
