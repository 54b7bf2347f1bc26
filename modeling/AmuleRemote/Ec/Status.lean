import AmuleRemote.Lib.Run
import AmuleRemote.Ec.Connecting

/-!
# The status shown and the connection held

The user interface learns from `statusChanged` whether there is a connection. A
session agrees with what it last announced if it holds a connection exactly when
that was `connected`.

An attempt that fails announces an error and leaves a connection that was held
before in place, so the agreement is lost by a failed second attempt and by
nothing else.
-/

namespace Amule

open Ec Std.Do

set_option mvcgen.warning false

/-- The status an event announces, if any. -/
def Event.status : Event → Option ConnStatus
  | .emit _ (.statusChanged status _) => some status
  | _ => none

/-- The last status announced; the user interface starts out disconnected. -/
def lastStatus (trace : List Event) : ConnStatus :=
  (trace.filterMap Event.status).getLast?.getD .disconnected

theorem lastStatus_append (trace : List Event) (ev : Event) :
    lastStatus (trace ++ [ev]) = ev.status.getD (lastStatus trace) := by
  cases hstatus : ev.status with
  | none => simp [lastStatus, hstatus]
  | some status => simp [lastStatus, hstatus]

/-- The worker holds a connection if and only if it last announced one. -/
def World.Agrees (w : World) : Prop :=
  w.worker.client.isSome ↔ lastStatus w.trace = .connected

namespace World

variable {w : World}

theorem Agrees.exchanged (h : w.Agrees) (client : EcClient) (request : Packet) :
    (w.exchanged client request).Agrees := by
  rw [Agrees, trace_exchanged, lastStatus_append]
  exact h

theorem Agrees.emitted (h : w.Agrees) {s : Signal} (hs : ∀ status detail,
    s ≠ .statusChanged status detail) : (w.emitted s).Agrees := by
  rw [Agrees, trace_emitted, lastStatus_append]
  cases s with
  | statusChanged status detail => exact absurd rfl (hs status detail)
  | _ => exact h

theorem agrees_announced (w : World) (status : ConnStatus) (detail : QString) :
    (w.emitted (.statusChanged status detail)).Agrees ↔
      (w.worker.client.isSome ↔ status = .connected) := by
  rw [Agrees, trace_emitted, lastStatus_append]
  rfl

theorem agrees_tornDown (w : World) (reason : QString) {status : ConnStatus}
    (hstatus : status ≠ .connected) : (w.tornDown reason status).Agrees := by
  refine (agrees_announced _ _ _).mpr (iff_of_false ?_ hstatus)
  by_cases hsearching : w.worker.searching = true
  · simp [hsearching]
  · simp [hsearching]

end World

/-- Every slot is made of steps that keep the agreement. -/
theorem agrees_contract : Contract World.Agrees fun _ => World.Agrees where
  reply _ _ hheld := hheld.1.exchanged _ _
  fail _ _ hheld := hheld.1.exchanged _ _
  refuse hw := hw
  recover _ hw := hw
  work hclient _ hw := by
    rw [World.Agrees, World.worker_setWorker, hclient]
    exact hw
  emit hs hw := hw.emitted fun _ _ heq => by rw [heq] at hs; exact hs
  prefs hheld _ := hheld.1.emitted nofun
  log hw := hw.emitted nofun
  halt hw := World.Agrees.emitted hw nofun
  teardown _ := World.agrees_tornDown _ _ nofun

theorem agrees_whole : Whole World.Agrees where
  toRules := agrees_contract.rules
  starts params := agrees_contract.starts params fun _ hw => hw
  write _ hheld := hheld.1.exchanged _ _
  disconnect _ := World.agrees_tornDown _ _ nofun

/-- A connect attempt that does not end in an accepted login. -/
def Call.ConnectFails (c : Call) : Prop :=
  match c.slot with
  | .connectToDaemon _ _ _ => c.network.login = none
  | _ => False

theorem agrees_connectToDaemon [Qt] (host : QString) (port : UInt16) (password : QString)
    (w : World) : (((EcWorker.connectToDaemon host port password).run w).2.Agrees ↔
      (w.network.login = none → w.worker.client = none)) := by
  by_cases hlogin : w.network.login = none
  · -- an error is announced, whether a connection is held or not
    obtain ⟨w', message, hrefused, -, hw⟩ :=
      EcWorker.connectToDaemon_refused host port password hlogin
    have hclient : w'.worker.client = w.worker.client := by rw [hrefused.worker]; rfl
    rw [hw, World.refused, World.agrees_announced, World.worker_emitted, hclient]
    simp [hlogin]
  · -- the connection is adopted and announced, and the fetch and refresh keep the agreement
    refine iff_of_true ?_ fun h => absurd h hlogin
    have haccept {client w'} (_ : Accepted (w.connecting host port) client w')
        (_ : Shaken (w.connecting host port) w') : ((w'.adopted client).settled client).Agrees := by
      refine agrees_contract.settled ⟨?_, rfl⟩ fun _ => id
      exact (World.agrees_announced _ _ _).mpr (iff_of_true rfl rfl)
    have hcall := EcWorker.connectToDaemon_spec agrees_contract.rules host port password haccept
    rcases hcall with hagrees | ⟨w', message, hrefused, -, hw⟩
    · exact hagrees
    · exact absurd hrefused.network hlogin

/-- A slot call keeps the agreement unless it is a failed attempt over a connection. -/
theorem agrees_call [Qt] {w : World} (slot : Slot) (hw : w.Agrees) (hslot : slot ≠ .shutdown) :
    (slot.call.run w).2.Agrees ↔
      (Call.ConnectFails ⟨slot, w.network⟩ → w.worker.client = none) := by
  cases slot with
  | connectToDaemon host port password => exact agrees_connectToDaemon host port password w
  | shutdown => exact absurd rfl hslot
  | _ =>
    refine iff_of_true (Keeps.run ?_ hw) False.elim
    exact agrees_whole.keeps trivial

/-- The agreement at a session between two calls. -/
def Session.Agrees (s : Session) : Prop :=
  s.worker.client.isSome ↔ lastStatus s.trace = .connected

/-- A run without a shutdown agrees throughout if and only if no connect attempt fails
    while a connection is held. -/
theorem agrees_iff_no_failed_reconnect [Qt] (calls : List Call)
    (h : ∀ c ∈ calls, c.slot ≠ .shutdown) :
    Run.Always Session.step Session.Agrees {} calls ↔
      Run.Along Session.step (fun s c => c.ConnectFails → s.worker.client = none) {} calls := by
  refine Run.always_iff_along ?_ h (iff_of_false nofun nofun)
  intro s c hc hs
  exact agrees_call c.slot (w := s.world c.network) hs hc

/-- The password field's return key reaches the worker while it is connected, and the
    daemon is gone. -/
def reconnect (connected : Except QString Unit) : List Call := [
  ⟨.connectToDaemon (.lit "localhost") 4712 [], .friendly⟩,
  ⟨.connectToDaemon (.lit "localhost") 4712 [], { Network.friendly with connected := connected }⟩]

instance (s : Session) : Decidable s.Agrees := inferInstanceAs (Decidable (_ ↔ _))

/-- The status is an error over a session that goes on. -/
theorem disagrees_after_reconnect : ¬Run.Always (@Session.step sampleQt) Session.Agrees {}
    (reconnect (.error (.lit "Connection refused"))) := by
  decide +kernel

theorem agrees_reconnect :
    Run.Always (@Session.step sampleQt) Session.Agrees {} (reconnect (.ok ())) := by
  refine (@agrees_iff_no_failed_reconnect sampleQt _ ?_).mpr ⟨?_, ?_, trivial⟩
  · simp [reconnect]
  · exact fun hfails => absurd hfails nofun
  · exact fun hfails => absurd hfails nofun

end Amule
