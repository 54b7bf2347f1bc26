import AmuleRemote.Lib.Run
import AmuleRemote.Ec.Connecting

/-!
# A connection that failed in transport is not used again

Requests carry no number and replies are not checked against them, so a reply
that comes late would be taken for the answer to another request. What keeps
them paired is that the worker drops a connection once an exchange on it has
failed in transport.

The fetch of the preferences after a connect and after an apply is the one place
where such a failure is dropped and the connection kept.
-/

namespace Amule

open Ec Std.Do

set_option mvcgen.warning false

/-- A transport failure on connection `id`. -/
def Event.Broke (id : ℕ) : Event → Prop
  | .exchange client _ (.error e) => client.id = id ∧ e.kind = .io
  | _ => False

/-- An exchange on connection `id`. -/
def Event.Uses (id : ℕ) : Event → Prop
  | .exchange client _ _ => client.id = id
  | .emit _ _ => False

/-- No exchange follows a transport failure on its connection. -/
def NoReuse (trace : List Event) : Prop :=
  trace.Pairwise fun a b => ∀ id, a.Broke id → ¬b.Uses id

instance (a b : Event) : Decidable (∀ id, a.Broke id → ¬b.Uses id) :=
  match a, b with
  | .exchange c _ (.error e), .exchange c' _ _ =>
    decidable_of_iff (¬(e.kind = .io ∧ c'.id = c.id))
      ⟨fun h _ hbroke hused => h ⟨hbroke.2, hused.trans hbroke.1.symm⟩,
        fun h hboth => h c.id ⟨rfl, hboth.1⟩ hboth.2⟩
  | .exchange _ _ (.ok _), _ => isTrue fun _ h => h.elim
  | .emit _ _, _ => isTrue fun _ h => h.elim
  | _, .emit _ _ => isTrue fun _ _ h => h

instance (trace : List Event) : Decidable (NoReuse trace) :=
  inferInstanceAs (Decidable (trace.Pairwise _))

theorem Event.Broke.uses {id : ℕ} {ev : Event} (h : ev.Broke id) : ev.Uses id := by
  cases ev with
  | exchange client request reply =>
    cases reply with
    | ok reply => exact h.elim
    | error e => exact h.1
  | emit client signal => exact h.elim

theorem Event.Replied.not_broke {id : ℕ} {ev : Event} (h : ev.Replied) : ¬ev.Broke id := by
  intro hbroke
  cases ev with
  | exchange client request reply =>
    cases reply with
    | ok reply => exact hbroke
    | error e => exact h
  | emit client signal => exact h

/-- What survives a transport failure: connections have numbers below `nextId`. -/
structure World.Sound (w : World) : Prop where
  noReuse : NoReuse w.trace
  known : ∀ ev ∈ w.trace, ∀ id, ev.Uses id → id < w.nextId

/-- Moreover the connection held, if any, has not failed. -/
structure World.Paired (w : World) : Prop extends w.Sound where
  fresh : ∀ client, w.worker.client = some client →
    client.id < w.nextId ∧ ∀ ev ∈ w.trace, ¬ev.Broke client.id

/-- Events that use no failed connection may follow. -/
theorem World.Sound.append {w w' : World} (h : w.Sound) (events : List Event)
    (htrace : w'.trace = w.trace ++ events) (hid : w.nextId ≤ w'.nextId)
    (hevents : NoReuse events)
    (huses : ∀ ev ∈ events, ∀ id, ev.Uses id → id < w'.nextId ∧ ∀ a ∈ w.trace, ¬a.Broke id) :
    w'.Sound where
  noReuse := by
    rw [htrace]
    refine List.pairwise_append.mpr ⟨h.noReuse, hevents, ?_⟩
    intro a ha b hb id hbroke hused
    exact (huses b hb id hused).2 a ha hbroke
  known := by
    rw [htrace]
    intro ev hev id hused
    cases List.mem_append.mp hev with
    | inl hev => exact (h.known ev hev id hused).trans_le hid
    | inr hev => exact (huses ev hev id hused).1

/-- The connection stays good if nothing that follows breaks it. -/
theorem World.Paired.append {w w' : World} (h : w.Paired) (events : List Event)
    (hsound : w'.Sound) (htrace : w'.trace = w.trace ++ events) (hid : w.nextId ≤ w'.nextId)
    (hclient : w'.worker.client = w.worker.client)
    (hbroke : ∀ ev ∈ events, ∀ id, ¬ev.Broke id) : w'.Paired where
  toSound := hsound
  fresh := by
    rw [hclient, htrace]
    intro client hheld
    obtain ⟨hlt, hfresh⟩ := h.fresh client hheld
    refine ⟨hlt.trans_le hid, ?_⟩
    intro ev hev
    cases List.mem_append.mp hev with
    | inl hev => exact hfresh ev hev
    | inr hev => exact hbroke ev hev _

theorem World.Sound.emitted {w : World} (h : w.Sound) (s : Signal) : (w.emitted s).Sound :=
  h.append [_] rfl le_rfl (List.pairwise_singleton _ _) (by simp [Event.Uses])

theorem World.Paired.emitted {w : World} (h : w.Paired) (s : Signal) : (w.emitted s).Paired :=
  h.append [_] (h.toSound.emitted s) rfl le_rfl rfl (by simp [Event.Broke])

theorem World.Sound.setWorker {w : World} (h : w.Sound) (worker : EcWorker) :
    (w.setWorker worker).Sound :=
  ⟨h.noReuse, h.known⟩

theorem World.Paired.setWorker {w : World} (h : w.Paired) {worker : EcWorker}
    (hclient : worker.client = w.worker.client) : (w.setWorker worker).Paired :=
  ⟨h.toSound.setWorker worker, fun client hheld => h.fresh client (hclient ▸ hheld)⟩

/-- A world without a connection only has to be sound. -/
theorem World.Sound.paired {w : World} (h : w.Sound) (hnone : w.worker.client = none) :
    w.Paired :=
  ⟨h, by simp [hnone]⟩

theorem World.Sound.tornDown {w : World} (h : w.Sound) (reason : QString) (status : ConnStatus) :
    (w.tornDown reason status).Paired := by
  refine World.Sound.paired ?_ (World.client_tornDown w reason status)
  apply World.tornDown_keeps
  · exact fun hw => hw.emitted _
  · exact fun _ hw => hw.setWorker _
  · exact h.setWorker _

theorem World.Paired.exchanged {w : World} (h : w.Paired) {client : EcClient}
    (hheld : w.worker.client = some client) (request : Packet) :
    (w.exchanged client request).Sound := by
  obtain ⟨hlt, hfresh⟩ := h.fresh client hheld
  refine h.toSound.append [_] rfl le_rfl (List.pairwise_singleton _ _) ?_
  intro ev hev id hused
  rw [List.mem_singleton.mp hev] at hused
  have hid : client.id = id := hused
  exact hid ▸ ⟨hlt, hfresh⟩

/-- An exchange that is no transport failure leaves the connection good. -/
theorem World.Paired.exchanged_paired {w : World} (h : w.Paired) {client : EcClient}
    (hheld : w.worker.client = some client) {request : Packet}
    (hbroke : ∀ e, w.network.replies 0 = .error e → e.kind ≠ .io) :
    (w.exchanged client request).Paired := by
  refine h.append [_] (h.exchanged hheld request) rfl le_rfl rfl ?_
  intro ev hev id
  rw [List.mem_singleton.mp hev]
  cases hreply : w.network.replies 0 with
  | ok reply => exact False.elim
  | error e => exact fun hev => hbroke e hreply hev.2

/-- What a failure leaves: a good connection unless it was a transport failure. -/
def AfterFailure (e : EcError) (w : World) : Prop := w.Sound ∧ (e.kind ≠ .io → w.Paired)

/-- Every slot is made of steps that keep the pairing. -/
theorem paired_contract : Contract World.Paired AfterFailure where
  reply _ hreply hheld := hheld.1.exchanged_paired hheld.2 (by simp [hreply])
  fail _ hfail hheld :=
    ⟨hheld.1.exchanged hheld.2 _, fun hkind => hheld.1.exchanged_paired hheld.2 (by simpa [hfail])⟩
  refuse hw := ⟨hw.toSound, fun _ => hw⟩
  recover hkind hw := hw.2 hkind
  work hclient _ hw := hw.setWorker hclient
  emit _ hw := hw.emitted _
  prefs hheld _ := hheld.1.emitted _
  log hw := ⟨hw.1.emitted _, fun hkind => (hw.2 hkind).emitted _⟩
  halt hw := by
    refine ⟨(hw.1.setWorker _).emitted _, fun hkind => World.Paired.emitted ?_ _⟩
    exact (hw.2 hkind).setWorker rfl
  teardown hw := hw.1.tornDown _ _

/-! ## A new connection -/

theorem World.Paired.connecting {w : World} (h : w.Paired) (host : QString) (port : UInt16) :
    (w.connecting host port).Paired := by
  refine World.Paired.emitted (World.Paired.emitted ?_ _) _
  exact h.setWorker rfl

/-- Nothing in the trace used the number of the next connection. -/
theorem World.Sound.not_broke_next {w : World} (h : w.Sound) {ev : Event} (hev : ev ∈ w.trace) :
    ¬ev.Broke w.nextId := fun hbroke => (h.known ev hev _ hbroke.uses).false

theorem Event.Login.uses {number id : ℕ} {ev : Event} (h : ev.Login number) (hused : ev.Uses id) :
    id = number := by
  cases ev with
  | exchange client request reply => exact hused.symm.trans h.1
  | emit client signal => exact h.elim

theorem noReuse_of_replied {events : List Event}
    (h : events.Pairwise fun ev _ => ev.Replied) : NoReuse events :=
  h.imp fun hreplied _ hbroke => absurd hbroke hreplied.not_broke

theorem World.Paired.accepted {w₀ w : World} {client : EcClient} (h : w₀.Paired)
    (hw : Accepted w₀ client w) : (w.adopted client).Paired := by
  obtain ⟨events, htrace, hevents⟩ := hw.trace
  have hsound : w.Sound := by
    refine h.toSound.append events htrace (by rw [hw.nextId]; omega) ?_ ?_
    · apply noReuse_of_replied
      exact List.pairwise_of_forall_mem_list fun ev hev _ _ => (hevents ev hev).2
    · intro ev hev id hused
      rw [(hevents ev hev).1.uses hused, hw.nextId]
      exact ⟨Nat.lt_succ_self _, fun a ha => h.not_broke_next ha⟩
  refine World.Paired.emitted (World.Paired.emitted ⟨hsound.setWorker _, ?_⟩ _) _
  -- the new connection's number is unused before the handshake, which did not fail
  intro c hheld
  obtain rfl : client = c := Option.some.inj hheld
  refine ⟨by rw [World.nextId_setWorker, hw.id, hw.nextId]; omega, ?_⟩
  intro ev hev
  rw [World.trace_setWorker, htrace] at hev
  cases List.mem_append.mp hev with
  | inl hev => exact hw.id ▸ h.not_broke_next hev
  | inr hev => exact (hevents ev hev).2.not_broke

theorem World.Paired.refused {w₀ w : World} (h : w₀.Paired) (hw : Refused w₀ w)
    (message : QString) : (w.refused message).Paired := by
  obtain ⟨events, htrace, hevents, hreplied⟩ := hw.trace
  have hlogin : ∀ ev ∈ events, ∀ id, ev.Uses id → id = w₀.nextId :=
    fun ev hev id hused => (hevents ev hev).uses hused
  have hsound : w.Sound := by
    have hnext : w₀.nextId ≤ w.nextId := by rw [hw.nextId]; omega
    refine h.toSound.append events htrace hnext (noReuse_of_replied hreplied) ?_
    intro ev hev id hused
    rw [hlogin ev hev id hused, hw.nextId]
    exact ⟨Nat.lt_succ_self _, fun a ha => h.not_broke_next ha⟩
  refine World.Paired.emitted (World.Paired.emitted ⟨hsound, ?_⟩ _) _
  -- the connection held is an older one, which the attempt did not touch
  intro client hheld
  rw [hw.worker] at hheld
  obtain ⟨hlt, hfresh⟩ := h.fresh client hheld
  refine ⟨by rw [hw.nextId]; omega, ?_⟩
  intro ev hev hbroke
  rw [htrace] at hev
  cases List.mem_append.mp hev with
  | inl hev => exact hfresh ev hev hbroke
  | inr hev => exact hlt.ne (hlogin ev hev _ hbroke.uses)

/-! ## Runs -/

/-- The fetch of the preferences that follows a connect or an apply does not fail
    in transport. -/
def CarefulCall (s : Session) (c : Call) : Prop :=
  match c.slot with
  | .connectToDaemon _ _ _ =>
    ∀ n e, c.network.login = some n → n.replies 0 = .error e → e.kind ≠ .io
  | .applyPrefs _ =>
    s.worker.client ≠ none → ∀ reply e, c.network.replies 0 = .ok reply →
      c.network.replies 1 = .error e → e.kind ≠ .io
  | _ => True

/-- One slot call. -/
theorem paired_call [Qt] {s : Session} {c : Call} (hs : (s.world c.network).Paired)
    (hc : CarefulCall s c) : (c.slot.call.run (s.world c.network)).2.Paired := by
  have hsearch (w : World) (hw : w.Paired) : (w.setWorker
      { w.worker with searching := true, at100 := false }).Paired := hw.setWorker rfl
  have hdown (w : World) (hw : w.Paired) : ((w.tornDown (.lit "disconnected") .disconnected).emitted
      (.logMessage (.lit "disconnected"))).Paired := (hw.toSound.tornDown _ _).emitted _
  have hshut (w : World) (hw : w.Paired) : (w.setWorker
      { w.worker with timerActive := false, client := none, sourceClients := ∅ }).Paired :=
    (hw.toSound.setWorker _).paired rfl
  obtain ⟨slot, network⟩ := c
  cases slot with
  | connectToDaemon host port password =>
    -- careful: the fetch that follows the login does not break the new connection
    have haccept {client w} (hw : Accepted ((s.world network).connecting host port) client w)
        (_ : Shaken ((s.world network).connecting host port) w) :
        ((w.adopted client).settled client).Paired := by
      refine paired_contract.settled ⟨(hs.connecting host port).accepted hw, rfl⟩ ?_
      exact fun herror hL => hL.2 (hc _ _ hw.network herror)
    have hcall := EcWorker.connectToDaemon_spec paired_contract.rules host port password haccept
    rcases hcall with hpaired | ⟨w', message, hrefused, -, hw⟩
    · exact hpaired
    · exact hw ▸ (hs.connecting host port).refused hrefused message
  | applyPrefs prefs =>
    refine EcWorker.applyPrefs_keeps paired_contract.rules prefs ?_ ?_ ?_ _ ⟨hs, rfl⟩
    · intro client reply hreply hheld
      exact hheld.1.exchanged_paired hheld.2 (by simp [hreply])
    · intro client e hfail hheld
      exact ⟨hheld.1.exchanged hheld.2 _,
        fun hkind => hheld.1.exchanged_paired hheld.2 (by simpa [hfail])⟩
    · intro client reply e w hclient hreply herror hL
      exact hL.2 (hc (hclient ▸ Option.some_ne_none client) reply e hreply herror)
  | startSearch params =>
    have hstarts := paired_contract.starts params hsearch
    exact EcWorker.startSearch_keeps paired_contract.rules hstarts _ hs
  | disconnectFromDaemon => exact EcWorker.disconnectFromDaemon_keeps hdown _ hs
  | shutdown => exact EcWorker.shutdown_keeps hshut _ hs
  | _ =>
    refine Keeps.run ?_ hs
    exact Slot.call_keeps paired_contract.rules trivial

theorem Session.paired_step [Qt] (s : Session) (c : Call)
    (hs : ∀ network, (s.world network).Paired) (hc : CarefulCall s c) :
    ∀ network, ((s.step c).world network).Paired := by
  intro network
  have hcall := paired_call (hs c.network) hc
  exact ⟨⟨hcall.noReuse, hcall.known⟩, hcall.fresh⟩

/-- In a run whose calls are all careful no exchange ever follows a transport failure
    on its connection. -/
theorem noReuse_of_careful [Qt] (calls : List Call)
    (h : Run.Along Session.step CarefulCall {} calls) :
    Run.Always Session.step (fun s => NoReuse s.trace) {} calls := by
  have hstart (network : Network) : (Session.world {} network).Paired :=
    ⟨⟨.nil, by simp [Session.world]⟩, by simp [Session.world]⟩
  exact (Run.always_of_invariant Session.paired_step hstart h).mono
    fun s hs => (hs .friendly).noReuse

/-- Connect, apply, and a refresh once the timer fires. -/
def applyAndRefresh (fetch : Except EcError Packet) : List Call := [
  ⟨.connectToDaemon (.lit "localhost") 4712 [], .friendly⟩,
  ⟨.applyPrefs {}, { replies := fun n => if n = 1 then fetch else .ok ⟨Op.noop, []⟩ }⟩,
  ⟨.timeout, .friendly⟩]

/-- The fetch after an apply times out, and the refresh goes on with the connection. -/
theorem reuse_after_timeout :
    ¬Run.Always (@Session.step sampleQt) (fun s => NoReuse s.trace) {}
      (applyAndRefresh (.error ⟨.io, .lit "timed out waiting for the daemon"⟩)) := by
  decide +kernel

theorem noReuse_applyAndRefresh :
    Run.Always (@Session.step sampleQt) (fun s => NoReuse s.trace) {}
      (applyAndRefresh (.ok ⟨Op.noop, []⟩)) := by
  refine @noReuse_of_careful sampleQt _ ⟨?_, ?_, trivial, trivial⟩
  · intro n e hlogin herror
    have hn : Network.friendly.next = n := Option.some.inj hlogin
    rw [← hn] at herror
    exact absurd herror nofun
  · intro _ reply e _ herror
    exact absurd herror nofun

end Amule
