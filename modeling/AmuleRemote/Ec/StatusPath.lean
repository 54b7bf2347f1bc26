import AmuleRemote.Ec.SlotCourse
import AmuleRemote.Ec.Status

/-!
# The path of the connection status

The statuses announced in a run follow one another as in a state machine. An
attempt to connect is announced as such and always ends, connected or in an error,
before anything else is announced; only an attempt leads to a connection; and a
connection is never lost out of a state in which there is none.

## Main results

- `status_path` — the statuses of a run are a path, which does not end in an attempt
-/

namespace Amule

open Ec

/-- What the status may change to. -/
def ConnStatus.Next : ConnStatus → ConnStatus → Prop
  | .disconnected, status => status = .connecting ∨ status = .disconnected
  | .connecting, status => status = .connected ∨ status = .error
  | .connected, status => status ≠ .connected
  | .error, status => status ≠ .connected

/-- The statuses announced. -/
def statuses (trace : List Event) : List ConnStatus := trace.filterMap Event.status

/-- The statuses form a path that begins disconnected and does not end in an attempt; while a
    connection is held, they do not end disconnected either. -/
structure Session.OnPath (s : Session) : Prop where
  path : (ConnStatus.disconnected :: statuses s.trace).IsChain ConnStatus.Next
  settled : lastStatus s.trace ≠ .connecting
  held : s.worker.client ≠ none → lastStatus s.trace ≠ .disconnected

/-! ## What a call announces -/

section

variable {client : EcClient} {worker worker' : EcWorker} {events : List Event}

@[simp] theorem statuses_append (a b : List Event) :
    statuses (a ++ b) = statuses a ++ statuses b := List.filterMap_append

@[simp] theorem statuses_rounds (client : EcClient) (rounds : List Round) :
    statuses (client.rounds rounds) = [] := by
  simp [statuses, EcClient.rounds, Event.status]

@[simp] theorem statuses_cons_exchange (client : EcClient) (request : Packet)
    (reply : Except EcError Packet) (events : List Event) :
    statuses (.exchange client request reply :: events) = statuses events := rfl

@[simp] theorem statuses_farewell (worker : EcWorker) (reason : QString) (status : ConnStatus) :
    statuses (worker.farewell reason status) = [status] := by
  rw [EcWorker.farewell]
  split <;> rfl

@[simp] theorem statuses_snapshot (s : Snapshot) (client : EcClient) (worker : EcWorker) :
    statuses (s.events client worker) = [] := by
  rw [Snapshot.events, statuses_append, statuses_rounds]
  rfl

@[simp] theorem statuses_failure (client : EcClient) (worker : EcWorker) (request : Packet)
    (e : EcError) : statuses (failure client worker request e) = [.error] :=
  statuses_farewell worker e.message .error

/-- The connection is kept and nothing announced, or it is lost with an error. -/
inductive KeptOrLost (worker' : EcWorker) : List ConnStatus → Prop
  | kept (h : worker'.client ≠ none) : KeptOrLost worker' []
  | lost (h : worker'.client = none) : KeptOrLost worker' [.error]

theorem Refreshing.announces (h : Refreshing client worker events worker')
    (hheld : worker.client = some client) : KeptOrLost worker' (statuses events) := by
  have hkept : worker.client ≠ none := hheld ▸ Option.some_ne_none client
  cases h with
  | lost cut =>
    rw [statuses_append, statuses_rounds, statuses_failure]
    exact .lost rfl
  | told s idle =>
    rw [statuses_snapshot]
    exact .kept hkept
  | lostPolling s on cut =>
    rw [statuses_append, statuses_append, statuses_snapshot, statuses_rounds, statuses_failure]
    exact .lost rfl
  | polled s on progress results searching at100 at100Timer =>
    rw [statuses_append, statuses_append, statuses_snapshot, statuses_rounds]
    cases searching <;> exact .kept hkept

/-- What a call announces, with the worker it began with and the one it leaves. -/
inductive Announces (worker worker' : EcWorker) : List ConnStatus → Prop
  | silent (h : worker'.client ≠ none → worker.client ≠ none) : Announces worker worker' []
  | lost (held : worker.client ≠ none) (h : worker'.client = none) :
      Announces worker worker' [.error]
  | dropped (h : worker'.client = none) : Announces worker worker' [.disconnected]
  | refused : Announces worker worker' [.connecting, .error]
  | connected : Announces worker worker' [.connecting, .connected]
  | connectedAndLost : Announces worker worker' [.connecting, .connected, .error]

theorem KeptOrLost.announces {l : List ConnStatus} (h : KeptOrLost worker' l)
    (hheld : worker.client ≠ none) : Announces worker worker' l := by
  cases h with
  | kept h => exact .silent fun _ => hheld
  | lost h => exact .lost hheld h

@[simp] theorem statuses_prelude (slot : Slot) (client : Option EcClient) (worker : EcWorker) :
    statuses ((slot.prelude worker).map (.emit client)) = [] := by
  cases slot with
  | stopSearch =>
    rw [Slot.prelude]
    split <;> rfl
  | _ => rfl

@[simp] theorem statuses_complaint (slot : Slot) (client : EcClient) (message : QString) :
    statuses (client.tells (slot.complaint message)) = [] := by
  cases slot <;> rfl

@[simp] theorem statuses_fetchTells (client : EcClient) (fetched : Except EcError Packet) :
    statuses (client.tells (fetchTells fetched)) = [] := by
  cases fetched <;> rfl

theorem Handshake.statuses [Qt] {id : ℕ} {md5 : QString} {result : Except EcError EcClient}
    (h : Handshake id md5 events result) : Amule.statuses events = [] := by
  cases h <;> rfl

theorem keptOrLost_answer (hheld : worker.client ≠ none) (e : EcError) :
    KeptOrLost (worker.after e) (statuses (worker.answer e)) := by
  rw [EcWorker.after, EcWorker.answer]
  split
  · rw [statuses_farewell]
    exact .lost rfl
  · exact .kept hheld

theorem Slot.Course.announces [Qt] {slot : Slot} {next next' : ℕ}
    (h : slot.Course worker next events worker' next') :
    Announces worker worker' (statuses events) := by
  cases h with
  | ignored unheld needs other =>
    rw [statuses_append, statuses_prelude]
    refine .silent fun h => absurd unheld ?_
    cases slot <;> exact h
  | ignoredSearch unheld => exact .silent id
  | @failed _ client request result e held sends fails =>
    have hheld : worker.client ≠ none := held ▸ Option.some_ne_none client
    have hhalted : (slot.halted worker).client ≠ none := by
      cases slot <;> exact hheld
    rw [statuses_append, statuses_append, EcClient.tells, statuses_prelude,
      statuses_cons_exchange, statuses_complaint]
    exact (keptOrLost_answer hhalted e).announces hheld
  | @done _ client request reply events _ held order other accepts refresh =>
    have hheld : worker.client ≠ none := held ▸ Option.some_ne_none client
    have hbegun : (slot.begun worker).client = some client := by
      cases slot <;> exact held
    rw [statuses_append, EcClient.tells, statuses_prelude, statuses_cons_exchange]
    exact (refresh.announces hbegun).announces hheld
  | applied held reply fetched => cases fetched <;> exact .silent id
  | fetched held reply => exact .silent id
  | refreshed held active refresh =>
    exact (refresh.announces held).announces (held ▸ Option.some_ne_none _)
  | idle => exact .silent id
  | disconnected =>
    rw [statuses_append, statuses_farewell]
    exact .dropped rfl
  | shutdown => exact .silent fun h => absurd rfl h
  | refused handshake =>
    rw [statuses_append, statuses_append, handshake.statuses]
    exact .refused
  | @connected host port password shake talk client worker' fetched handshake refresh =>
    have hpath : statuses (announcement worker.client host port ++ shake ++
        (client.tells (welcome client) ++
          (.exchange client prefsRequest fetched :: client.tells (fetchTells fetched) ++ talk))) =
        [.connecting, .connected] ++ statuses talk := by
      rw [statuses_append, statuses_append, statuses_append, statuses_append, handshake.statuses,
        statuses_cons_exchange, statuses_fetchTells]
      rfl
    -- the first refresh may lose the connection at once
    have hrefresh := refresh.announces rfl
    rw [hpath]
    generalize statuses talk = l at hrefresh
    cases hrefresh with
    | kept h => exact .connected
    | lost h => exact .connectedAndLost

end

/-! ## The path -/

instance decidableNext : (status status' : ConnStatus) → Decidable (status.Next status')
  | .disconnected, _ => inferInstanceAs (Decidable (_ ∨ _))
  | .connecting, _ => inferInstanceAs (Decidable (_ ∨ _))
  | .connected, _ => inferInstanceAs (Decidable (_ ≠ _))
  | .error, _ => inferInstanceAs (Decidable (_ ≠ _))

/-- The path that a call takes from the status it finds. -/
structure Leads (last : ConnStatus) (worker' : EcWorker) (l : List ConnStatus) : Prop where
  path : (last :: l).IsChain ConnStatus.Next
  settled : l.getLast?.getD last ≠ .connecting
  held : worker'.client ≠ none → l.getLast?.getD last ≠ .disconnected

theorem Announces.leads {worker worker' : EcWorker} {l : List ConnStatus}
    (h : Announces worker worker' l) {last : ConnStatus} (hsettled : last ≠ .connecting)
    (hheld : worker.client ≠ none → last ≠ .disconnected) : Leads last worker' l := by
  cases h with
  | silent h => exact ⟨.singleton last, hsettled, fun h' => hheld (h h')⟩
  | lost held h =>
    have hlast := hheld held
    refine ⟨?_, by simp, fun _ => by simp⟩
    cases last with
    | disconnected => exact absurd rfl hlast
    | _ => decide
  | dropped h =>
    refine ⟨?_, by simp, fun h' => absurd h h'⟩
    cases last with
    | connecting => exact absurd rfl hsettled
    | _ => decide
  | _ =>
    refine ⟨?_, by simp, fun _ => by simp⟩
    cases last with
    | connecting => exact absurd rfl hsettled
    | _ => decide

/-- A call continues the path. -/
theorem Session.OnPath.step [Qt] {s : Session} (h : s.OnPath) (c : Call) : (s.step c).OnPath := by
  obtain ⟨events, htrace, hcourse⟩ := s.step_course c
  have hstatuses : statuses (s.step c).trace = statuses s.trace ++ statuses events := by
    rw [htrace, statuses_append]
  have hlast : lastStatus (s.step c).trace =
      (statuses events).getLast?.getD (lastStatus s.trace) := by
    show (statuses (s.step c).trace).getLast?.getD .disconnected = _
    rw [hstatuses, List.getLast?_append]
    cases (statuses events).getLast? <;> rfl
  obtain ⟨hpath, hsettled, hheld⟩ := hcourse.announces.leads h.settled h.held
  refine ⟨?_, hlast ▸ hsettled, hlast ▸ hheld⟩
  -- where the two paths meet: what the trace ends in is what the call begins from
  rw [hstatuses, ← List.cons_append]
  refine h.path.append hpath.tail fun status hstatus next hnext => ?_
  have hfirst : lastStatus s.trace = status := by
    rw [List.getLast?_cons] at hstatus
    exact Option.some.inj hstatus
  exact hfirst ▸ (List.isChain_cons.mp hpath).1 next hnext

/-- The statuses of a run. -/
theorem status_path [Qt] (calls : List Call) : (calls.foldl Session.step {}).OnPath := by
  refine List.foldlRecOn calls Session.step ?_ fun s hs c _ => hs.step c
  exact ⟨.singleton _, by decide, fun h => absurd rfl h⟩

end Amule
