import AmuleRemote.Lib.Trace
import AmuleRemote.Ec.WorkerRules

/-!
# Proof rules for the connect

A connect attempt is refused, or it adopts a new client, asks for the preferences
and ends in a refresh. The worlds in between have names here, and what an attempt
has done to the trace by then is said in terms of its handshake.

## Main results

- `EcWorker.connectToDaemon_run` — the two outcomes of an attempt
- `EcWorker.connectToDaemon_spec` — what an attempt that is not refused establishes
-/

namespace Amule

open Ec Std.Do

set_option mvcgen.warning false

namespace World

/-- The world of an attempt that is under way. -/
def connecting (w : World) (host : QString) (port : UInt16) : World :=
  let address := QString.number port.toNat
  ((w.setWorker { w.worker with sourceClients := ∅ }).emitted
    (.statusChanged .connecting (((QString.lit "%1:%2").arg host).arg address))).emitted
    (.logMessage (((QString.lit "connecting to %1:%2…").arg host).arg address))

/-- The world once an attempt has failed. -/
def refused (w : World) (message : QString) : World :=
  (w.emitted (.logMessage ((QString.lit "connection failed: %1").arg message))).emitted
    (.statusChanged .error message)

/-- The world once `client` is connected and announced. -/
def adopted (w : World) (client : EcClient) : World :=
  ((w.setWorker { w.worker with client := some client }).emitted
    (.logMessage ((QString.lit "connected — daemon %1").arg client.serverVersion))).emitted
    (.statusChanged .connected client.serverVersion)

/-- The world once the preferences of a new connection have been asked for, with the
    timer started. An answer that is an error is dropped. -/
def settled (w : World) (client : EcClient) : World :=
  let fetched := w.exchanged client prefsRequest
  let told :=
    match w.network.replies 0 with
    | .ok reply => fetched.emitted (.prefsUpdated (prefsOf reply))
    | .error _ => fetched
  told.setWorker { told.worker with timerActive := true }

theorem settled_ok {w : World} {client : EcClient} {reply : Packet}
    (h : w.network.replies 0 = .ok reply) : w.settled client =
      ((w.exchanged client prefsRequest).emitted (.prefsUpdated (prefsOf reply))).setWorker
        { w.worker with timerActive := true } := by
  rw [settled, h]
  rfl

theorem settled_error {w : World} {client : EcClient} {e : EcError}
    (h : w.network.replies 0 = .error e) : w.settled client =
      (w.exchanged client prefsRequest).setWorker { w.worker with timerActive := true } := by
  rw [settled, h]
  rfl

theorem worker_settled (w : World) (client : EcClient) :
    (w.settled client).worker = { w.worker with timerActive := true } := by
  cases hreply : w.network.replies 0 with
  | ok reply =>
    rw [settled_ok hreply]
    rfl
  | error e =>
    rw [settled_error hreply]
    rfl

theorem network_settled (w : World) (client : EcClient) :
    (w.settled client).network = w.network.next := by
  cases hreply : w.network.replies 0 with
  | ok reply =>
    rw [settled_ok hreply]
    rfl
  | error e =>
    rw [settled_error hreply]
    rfl

/-- A fetch that ends in an error is not told. -/
theorem trace_settled (w : World) (client : EcClient) : ∃ events : List Event,
    (w.settled client).trace =
      w.trace ++ .exchange client prefsRequest (w.network.replies 0) :: events ∧
    ∀ ev ∈ events, ∃ prefs, ev = .emit w.worker.client (.prefsUpdated prefs) := by
  cases hreply : w.network.replies 0 with
  | ok reply =>
    refine ⟨[.emit w.worker.client (.prefsUpdated (prefsOf reply))], ?_, by simp⟩
    rw [settled_ok hreply]
    simp [hreply]
  | error e =>
    refine ⟨[], ?_, by simp⟩
    rw [settled_error hreply]
    simp [hreply]

end World

/-- An exchange of the handshake of connection `id`. -/
def Event.Login (id : ℕ) : Event → Prop
  | .exchange client request _ => client.id = id ∧ request.opcode ≠ Op.setPreferences
  | .emit _ _ => False

/-- An exchange that did not fail. -/
def Event.Replied : Event → Prop
  | .exchange _ _ (.ok _) => True
  | _ => False

/-- `w` is `w₀` after an accepted login on a new connection. -/
structure Accepted (w₀ : World) (client : EcClient) (w : World) : Prop where
  id : client.id = w₀.nextId
  worker : w.worker = w₀.worker
  nextId : w.nextId = w₀.nextId + 1
  network : w₀.network.login = some w.network
  trace : ∃ events, w.trace = w₀.trace ++ events ∧
    ∀ ev ∈ events, ev.Login w₀.nextId ∧ ev.Replied

/-- `w` is `w₀` after a failed attempt: no exchange follows one that failed. -/
structure Refused (w₀ w : World) : Prop where
  worker : w.worker = w₀.worker
  nextId : w.nextId = w₀.nextId + 1
  network : w₀.network.login = none
  trace : ∃ events, w.trace = w₀.trace ++ events ∧ (∀ ev ∈ events, ev.Login w₀.nextId) ∧
    events.Pairwise fun ev _ => ev.Replied

section

variable {w : World} {v v' : QString} {request request' : Packet}

theorem Refused.opened (h : w.network.login = none) : Refused w w.opened :=
  ⟨rfl, rfl, h, [], (List.append_nil _).symm, by simp, .nil⟩

theorem Refused.exchanged (h : w.network.login = none) (hop : request.opcode ≠ Op.setPreferences) :
    Refused w (w.opened.exchanged ⟨w.nextId, v⟩ request) :=
  ⟨rfl, rfl, h, [_], rfl, by simpa [Event.Login] using hop, List.pairwise_singleton _ _⟩

theorem Refused.exchanged₂ {reply : Packet} (h : w.network.login = none)
    (hreply : w.network.replies 0 = .ok reply) (hop : request.opcode ≠ Op.setPreferences)
    (hop' : request'.opcode ≠ Op.setPreferences) :
    Refused w ((w.opened.exchanged ⟨w.nextId, v⟩ request).exchanged ⟨w.nextId, v'⟩ request') :=
  ⟨rfl, rfl, h, [_, _], List.append_assoc .., by simpa [Event.Login] using ⟨hop, hop'⟩,
    by simp [Event.Replied, hreply]⟩

theorem Accepted.exchanged {reply : Packet} (h : w.network.login = some w.network.next)
    (hreply : w.network.replies 0 = .ok reply) (hop : request.opcode ≠ Op.setPreferences) :
    Accepted w ⟨w.nextId, v'⟩ (w.opened.exchanged ⟨w.nextId, v⟩ request) :=
  ⟨rfl, rfl, rfl, h, [_], rfl, by simpa [Event.Login, Event.Replied, hreply] using hop⟩

theorem Accepted.exchanged₂ {reply reply' : Packet} {v'' : QString}
    (h : w.network.login = some w.network.next.next)
    (hreply : w.network.replies 0 = .ok reply) (hreply' : w.network.replies 1 = .ok reply')
    (hop : request.opcode ≠ Op.setPreferences) (hop' : request'.opcode ≠ Op.setPreferences) :
    Accepted w ⟨w.nextId, v''⟩
      ((w.opened.exchanged ⟨w.nextId, v⟩ request).exchanged ⟨w.nextId, v'⟩ request') :=
  ⟨rfl, rfl, rfl, h, [_, _], List.append_assoc .., by
    simpa [Event.Login, Event.Replied, hreply, hreply'] using ⟨hop, hop'⟩⟩

end

/-- A request of the handshake of connection `id`. -/
def Event.Handshake (id : ℕ) : Event → Prop
  | .exchange client request _ =>
    client.id = id ∧ (request.opcode = Op.authReq ∨ request.opcode = Op.authPasswd)
  | .emit _ _ => False

theorem Event.Handshake.ne {id : ℕ} {client : EcClient} {request : Packet}
    {reply : Except EcError Packet} (h : (Event.exchange client request reply).Handshake id)
    {op : UInt8} (hreq : Op.authReq ≠ op) (hpasswd : Op.authPasswd ≠ op) :
    request.opcode ≠ op := by
  rcases h.2 with hop | hop
  · exact hop ▸ hreq
  · exact hop ▸ hpasswd

/-- `w` is `w₀` after a handshake, or a part of one. -/
def Shaken (w₀ w : World) : Prop :=
  ∃ events, w.trace = w₀.trace ++ events ∧ ∀ ev ∈ events, ev.Handshake w₀.nextId

theorem Shaken.exchanged {w₀ w : World} (h : Shaken w₀ w) {client : EcClient}
    (hid : client.id = w₀.nextId) {request : Packet}
    (hop : request.opcode = Op.authReq ∨ request.opcode = Op.authPasswd) :
    Shaken w₀ (w.exchanged client request) :=
  Trace.Adds.trans (Q := Event.Handshake w₀.nextId) h (.one ⟨hid, hop⟩)

/-- The client's requests are those of the handshake, whatever the outcome. -/
theorem connectWithMd5_shaken [Qt] (host : QString) (port : UInt16) (md5 : QString) (w₀ : World) :
    ⦃fun w => ⌜w = w₀⌝⦄ EcClient.connectWithMd5 host port md5
    ⦃post⟨fun _ w => ⌜Shaken w₀ w⌝, fun _ w => ⌜Shaken w₀ w⌝⟩⦄ := by
  have hexchange (client : EcClient) (request : Packet) :
      ⦃fun w => ⌜Shaken w₀ w ∧ client.id = w₀.nextId ∧
        (request.opcode = Op.authReq ∨ request.opcode = Op.authPasswd)⌝⦄ client.exchange request
      ⦃post⟨fun _ w => ⌜Shaken w₀ w⌝, fun _ w => ⌜Shaken w₀ w⌝⟩⦄ := by
    mvcgen [EcClient.exchange]
    next w hw reply hreply => exact hw.1.exchanged hw.2.1 hw.2.2
    next w hw e hfail => exact hw.1.exchanged hw.2.1 hw.2.2
  have hopened : Shaken w₀ w₀.opened := ⟨[], (List.append_nil _).symm, by simp⟩
  mvcgen [EcClient.connectWithMd5, EcClient.authenticate, EcClient.login, hexchange]
  all_goals subst_vars
  · exact hopened
  · exact ⟨hopened, rfl, .inl rfl⟩
  next w hw => exact ⟨hw, rfl, .inr trivial⟩

theorem connectWithMd5_spec [Qt] (host : QString) (port : UInt16) (md5 : QString) (w₀ : World) :
    ⦃fun w => ⌜w = w₀⌝⦄ EcClient.connectWithMd5 host port md5
    ⦃post⟨fun client w => ⌜Accepted w₀ client w⌝, fun _ w => ⌜Refused w₀ w⌝⟩⦄ := by
  have hpasswd : Op.authPasswd ≠ Op.setPreferences := by decide
  mvcgen [EcClient.connectWithMd5, EcClient.authenticate, EcClient.login, EcClient.exchange]
  all_goals subst_vars
  next w _ herror => exact .opened (by simp [Network.login, herror])
  next w hok resp hresp hsalt hnone =>
    exact .exchanged (by simp_all [Network.login]) (by decide)
  next w hok resp hresp hsalt salt hsome resp' hresp' hop =>
    exact .exchanged₂ (by simp_all [Network.login]) hresp hresp' (by decide) hpasswd
  next w hok resp hresp hsalt salt hsome resp' hresp' hop _ =>
    exact .exchanged₂ (by simp_all [Network.login]) hresp (by decide) hpasswd
  next w hok resp hresp hsalt salt hsome resp' hresp' hop _ =>
    exact .exchanged₂ (by simp_all [Network.login]) hresp (by decide) hpasswd
  next w hok resp hresp hsalt salt hsome e herror =>
    exact .exchanged₂ (by simp_all [Network.login]) hresp (by decide) hpasswd
  next w hok resp hresp hsalt hop =>
    exact .exchanged (by simp_all [Network.login]) hresp (by decide)
  next w hok resp hresp hsalt hop _ => exact .exchanged (by simp_all [Network.login]) (by decide)
  next w hok resp hresp hsalt hop _ => exact .exchanged (by simp_all [Network.login]) (by decide)
  next w hok e herror => exact .exchanged (by simp_all [Network.login]) (by decide)

/-- A connect is refused, or it is a refresh of the world that its new connection has
    settled in. -/
theorem EcWorker.connectToDaemon_run [Qt] (host : QString) (port : UInt16) (password : QString)
    (w₀ : World) :
    (∃ client w, Accepted (w₀.connecting host port) client w ∧
      Shaken (w₀.connecting host port) w ∧ ((connectToDaemon host port password).run w₀).2 =
        (onRefresh.run ((w.adopted client).settled client)).2) ∨
    ∃ w message, Refused (w₀.connecting host port) w ∧ Shaken (w₀.connecting host port) w ∧
      ((connectToDaemon host port password).run w₀).2 = w.refused message := by
  have hconnect md5 := Triple.and _ (connectWithMd5_spec host port md5 (w₀.connecting host port))
    (connectWithMd5_shaken host port md5 (w₀.connecting host port))
  have hrefresh (w₁ : World) :
      ⦃fun w => ⌜w = w₁⌝⦄ onRefresh ⦃⇓ _ w => ⌜w = (onRefresh.run w₁).2⌝⦄ :=
    fun w hw => congrArg (fun w => (onRefresh.run w).2) hw
  have hrun : ⦃fun w => ⌜w = w₀⌝⦄ connectToDaemon host port password ⦃⇓ _ w' => ⌜
      (∃ client w, Accepted (w₀.connecting host port) client w ∧
        Shaken (w₀.connecting host port) w ∧
        w' = (onRefresh.run ((w.adopted client).settled client)).2) ∨
      ∃ w message, Refused (w₀.connecting host port) w ∧ Shaken (w₀.connecting host port) w ∧
        w' = w.refused message⌝⦄ := by
    mvcgen [connectToDaemon, emit, modifyWorker, hconnect, Amule.fetchPrefs, EcClient.exchange,
      hrefresh]
    next hw _ _ _ _ => exact ⟨hw ▸ rfl, hw ▸ rfl⟩
    next client w hw _ _ _ reply hreply _ _ _ _ w' =>
      intro heq
      refine .inl ⟨client, w, hw.1, hw.2, ?_⟩
      rw [World.settled_ok (w := w.adopted client) hreply]
      exact heq
    next client w hw _ _ _ e hfail _ _ _ w' =>
      intro heq
      refine .inl ⟨client, w, hw.1, hw.2, ?_⟩
      rw [World.settled_error (w := w.adopted client) hfail]
      exact heq
    next w hw _ _ => exact .inr ⟨w, _, hw.1, hw.2, rfl⟩
  exact hrun w₀ rfl

/-- A connect that is not refused establishes `K` if `K` holds once the preferences of
    the new connection have been asked for. -/
theorem EcWorker.connectToDaemon_spec [Qt] {K : World → Prop} {L : EcError → World → Prop}
    (h : Rules K L) (host : QString) (port : UInt16) (password : QString) {w₀ : World}
    (haccept : ∀ {client w}, Accepted (w₀.connecting host port) client w →
      Shaken (w₀.connecting host port) w → K ((w.adopted client).settled client)) :
    K ((connectToDaemon host port password).run w₀).2 ∨
      ∃ w message, Refused (w₀.connecting host port) w ∧ Shaken (w₀.connecting host port) w ∧
        ((connectToDaemon host port password).run w₀).2 = w.refused message := by
  rcases connectToDaemon_run host port password w₀ with
    ⟨client, w, haccepted, hshaken, heq⟩ | hrefused
  · left
    rw [heq]
    exact (onRefresh_keeps h).run (haccept haccepted hshaken)
  · exact .inr hrefused

/-- All that a connect which is accepted has done to the worker before its refresh. -/
theorem Accepted.worker_settled {w₀ w : World} {host : QString} {port : UInt16}
    {client : EcClient} (h : Accepted (w₀.connecting host port) client w) :
    ((w.adopted client).settled client).worker =
      { w₀.worker with sourceClients := ∅, client := some client, timerActive := true } := by
  rw [World.worker_settled, World.adopted, World.worker_emitted, World.worker_emitted,
    World.worker_setWorker, h.worker]
  rfl

/-- An assertion that survives the failure of the fetch, and does not look at the timer,
    holds once the fetch is over. -/
theorem Rules.settled {K : World → Prop} {L : EcError → World → Prop} (h : Rules K L)
    {client : EcClient} {w : World} (hw : Held client K w)
    (hdrop : ∀ {e w'}, w.network.replies 0 = .error e → L e w' → K w')
    (htimer : ∀ {w}, K w → K (w.setWorker { w.worker with timerActive := true })) :
    K (w.settled client) := by
  have hplain : Plain prefsRequest.opcode := by decide
  cases hreply : w.network.replies 0 with
  | ok reply =>
    rw [World.settled_ok hreply]
    have hheld : Held client K (w.exchanged client prefsRequest) :=
      ⟨h.reply hplain hreply hw, hw.2⟩
    refine htimer (h.prefs hheld ⟨reply, ?_, rfl⟩)
    rw [World.trace_exchanged, hreply]
    exact List.mem_append_right _ List.mem_cons_self
  | error e =>
    rw [World.settled_error hreply]
    exact htimer (hdrop hreply (h.fail hplain hreply hw))

theorem Contract.settled {K : World → Prop} {L : EcError → World → Prop} (h : Contract K L)
    {client : EcClient} {w : World} (hw : Held client K w)
    (hdrop : ∀ {e w'}, w.network.replies 0 = .error e → L e w' → K w') : K (w.settled client) :=
  h.rules.settled hw hdrop fun hw => h.work rfl id hw

/-- A connect whose login fails is refused, and does no more. -/
theorem EcWorker.connectToDaemon_refused [Qt] (host : QString) (port : UInt16)
    (password : QString) {w₀ : World} (hlogin : w₀.network.login = none) :
    ∃ w message, Refused (w₀.connecting host port) w ∧
      Shaken (w₀.connecting host port) w ∧
      ((connectToDaemon host port password).run w₀).2 = w.refused message := by
  rcases connectToDaemon_run host port password w₀ with ⟨client, w, haccepted, -, -⟩ | hrefused
  · exact absurd (haccepted.network.symm.trans hlogin) (Option.some_ne_none _)
  · exact hrefused

end Amule
