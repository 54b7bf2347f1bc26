import AmuleRemote.Ec.Numbering
import AmuleRemote.Ec.SlotCourse

/-!
# The dialogue with the daemons

The rules of an EC session, as they show in the trace of a run. A connection begins
with the client's greeting. The password goes out right after a greeting that the
daemon has answered with a salt, on the same connection and hashed with that salt.
Any other request needs a connection that is logged in and has been in use ever
since: no status has been announced meanwhile without it.

## Main results

- `proper_steps` — every run keeps to these rules
-/

namespace Amule

open Ec

/-- A request of a login. -/
def Ec.Packet.LogsIn (request : Packet) : Prop :=
  request.opcode = Op.authReq ∨ request.opcode = Op.authPasswd

instance decidableLogsIn (request : Packet) : Decidable request.LogsIn :=
  inferInstanceAs (Decidable (_ ∨ _))

/-- A status is announced only with `client` in use. -/
def Event.Retains (client : EcClient) : Event → Prop
  | .emit held (.statusChanged _ _) => held = some client
  | _ => True

/-- A login was accepted as `client`, which has been in use since. -/
def InUse (client : EcClient) (before : List Event) : Prop :=
  ∃ earlier request reply later,
    before = earlier ++ .exchange ⟨client.id, []⟩ request (.ok reply) :: later ∧
    request.LogsIn ∧ verdict ⟨client.id, []⟩ (.ok reply) = .ok client ∧
    ∀ ev ∈ later, ev.Retains client

/-- The event keeps to the rules of a session, for a user with these passwords. -/
inductive Event.Proper [Qt] (passwords : QString → Prop) (before : List Event) : Event → Prop
  | emit (held : Option EcClient) (signal : Signal) : Proper passwords before (.emit held signal)
  | greeting {id : ℕ} (fresh : ∀ ev ∈ before, ¬ev.Uses id) (reply : Except EcError Packet) :
      Proper passwords before (.exchange ⟨id, []⟩ EcClient.authRequest reply)
  | password {earlier : List Event} {id : ℕ} {greeted : Packet} {salt : UInt64}
      {password : QString}
      (follows : before = earlier ++ [.exchange ⟨id, []⟩ EcClient.authRequest (.ok greeted)])
      (salts : greeted.opcode = Op.authSalt)
      (asks : greeted.tagInt TagName.passwdSalt = some salt) (typed : passwords password)
      (reply : Except EcError Packet) :
      Proper passwords before (.exchange ⟨id, []⟩
        (EcClient.passwdRequest (Qt.toLower (normalizePasswordMd5 password)) salt) reply)
  | request {client : EcClient} {request : Packet} (inUse : InUse client before)
      (other : ¬request.LogsIn) (reply : Except EcError Packet) :
      Proper passwords before (.exchange client request reply)

/-- The passwords of these calls. -/
def Typed (calls : List Call) (password : QString) : Prop :=
  ∃ host port network, ⟨.connectToDaemon host port password, network⟩ ∈ calls

/-! ## Talking on a connection -/

/-- An event of a conversation on a connection that is in use. -/
def Event.Under (client : EcClient) : Event → Prop
  | .exchange c request _ => c = client ∧ ¬request.LogsIn
  | .emit held _ => held = some client

def Event.Emits : Event → Prop
  | .exchange _ _ _ => False
  | .emit _ _ => True

theorem Event.Under.retains {client : EcClient} {ev : Event} (h : ev.Under client) :
    ev.Retains client := by
  cases ev with
  | exchange c request reply => trivial
  | emit held signal =>
    cases signal with
    | statusChanged status detail => exact h
    | _ => trivial

theorem InUse.append {client : EcClient} {before events : List Event} (h : InUse client before)
    (hevents : ∀ ev ∈ events, ev.Retains client) : InUse client (before ++ events) := by
  obtain ⟨earlier, request, reply, later, rfl, hlogin, hverdict, hlater⟩ := h
  exact ⟨earlier, request, reply, later ++ events, by simp, hlogin, hverdict,
    List.forall_mem_append.mpr ⟨hlater, hevents⟩⟩

/-- Events on a connection, and what is emitted once it is dropped. -/
inductive Conversation (client : EcClient) (worker' : EcWorker) : List Event → Prop
  | goesOn {talk : List Event} (held : worker'.client = some client)
      (under : ∀ ev ∈ talk, ev.Under client) : Conversation client worker' talk
  | ends (talk : List Event) {parting : List Event} (dropped : worker'.client = none)
      (under : ∀ ev ∈ talk, ev.Under client) (emits : ∀ ev ∈ parting, ev.Emits) :
      Conversation client worker' (talk ++ parting)

section

variable {client : EcClient} {worker worker' : EcWorker} {events : List Event}

theorem under_rounds {rounds : List Round} (h : ∀ round ∈ rounds, ¬round.1.LogsIn) :
    ∀ ev ∈ client.rounds rounds, ev.Under client := by
  intro ev hev
  obtain ⟨round, hround, rfl⟩ := List.mem_map.mp hev
  exact ⟨rfl, h round hround⟩

theorem under_tells (signals : List Signal) : ∀ ev ∈ client.tells signals, ev.Under client := by
  intro ev hev
  obtain ⟨signal, -, rfl⟩ := List.mem_map.mp hev
  exact rfl

theorem emits_farewell (worker : EcWorker) (reason : QString) (status : ConnStatus) :
    ∀ ev ∈ worker.farewell reason status, ev.Emits := by
  rw [EcWorker.farewell]
  refine List.forall_mem_append.mpr ⟨?_, List.forall_mem_singleton.mpr trivial⟩
  split
  · exact List.forall_mem_singleton.mpr trivial
  · exact List.forall_mem_nil _

/-- The rounds that a script is cut short after, and the request itself. -/
theorem CutShort.others {script : List Packet} {rounds : List Round} {request : Packet}
    (h : CutShort script rounds request) (hscript : ∀ q ∈ script, ¬q.LogsIn) :
    (∀ round ∈ rounds, ¬round.1.LogsIn) ∧ ¬request.LogsIn := by
  have hsub := h.subset
  constructor
  · exact fun round hround =>
      hscript _ (hsub (List.mem_append_left _ (List.mem_map_of_mem hround)))
  · exact hscript _ (hsub (List.mem_append_right _ List.mem_cons_self))

theorem snapshotRequests_others : ∀ q ∈ snapshotRequests, ¬q.LogsIn := by decide

theorem pollRequests_others : ∀ q ∈ pollRequests, ¬q.LogsIn := by decide

theorem Conversation.append {talk : List Event} (hunder : ∀ ev ∈ talk, ev.Under client)
    (h : Conversation client worker' events) : Conversation client worker' (talk ++ events) := by
  cases h with
  | goesOn hheld hevents => exact .goesOn hheld (List.forall_mem_append.mpr ⟨hunder, hevents⟩)
  | ends _ hdropped hevents hparting =>
    rw [← List.append_assoc]
    exact .ends _ hdropped (List.forall_mem_append.mpr ⟨hunder, hevents⟩) hparting

theorem conversation_failure {request : Packet} (hrequest : ¬request.LogsIn) (e : EcError) :
    Conversation client worker.dropped (failure client worker request e) := by
  refine .ends [_, _] rfl ?_ (emits_farewell worker _ _)
  exact List.forall_mem_cons.mpr ⟨⟨rfl, hrequest⟩, List.forall_mem_singleton.mpr rfl⟩

theorem under_snapshot (s : Snapshot) (worker : EcWorker) :
    ∀ ev ∈ s.events client worker, ev.Under client := by
  refine List.forall_mem_append.mpr ⟨under_rounds fun round hround => ?_, under_tells _⟩
  exact snapshotRequests_others _ (List.of_mem_zip hround).1

theorem Refreshing.conversation (h : Refreshing client worker events worker')
    (hheld : worker.client = some client) : Conversation client worker' events := by
  cases h with
  | lost cut =>
    obtain ⟨hrounds, hrequest⟩ := cut.others snapshotRequests_others
    exact .append (under_rounds hrounds) (conversation_failure hrequest _)
  | told s idle => exact .goesOn hheld (under_snapshot s worker)
  | lostPolling s on cut =>
    obtain ⟨hrounds, hrequest⟩ := cut.others pollRequests_others
    exact .append (under_snapshot s worker)
      (.append (under_rounds hrounds) (conversation_failure hrequest _))
  | polled s on progress results searching at100 at100Timer =>
    refine .goesOn hheld (List.forall_mem_append.mpr ⟨under_snapshot s worker, ?_⟩)
    refine List.forall_mem_append.mpr ⟨under_rounds fun round hround => ?_, under_tells _⟩
    exact pollRequests_others _ (List.of_mem_zip hround).1

theorem Slot.request_other (slot : Slot) {request : Packet} (h : slot.request = some request) :
    ¬request.LogsIn := by
  cases slot with
  | connectToDaemon | disconnectFromDaemon | shutdown | timeout => cases h
  | _ =>
    obtain rfl := Option.some.inj h
    dsimp only [Packet.LogsIn, searchRequest, setPrefsRequest, prefsRequest]
    decide

theorem Slot.order_other (slot : Slot) {request : Packet} (h : slot.order = some request) :
    ¬request.LogsIn := by
  refine slot.request_other ?_
  cases slot with
  | fetchPrefs => cases h
  | _ => exact h

theorem Slot.client_begun (slot : Slot) (worker : EcWorker) :
    (slot.begun worker).client = worker.client := by
  cases slot <;> rfl

theorem Slot.client_halted (slot : Slot) (worker : EcWorker) :
    (slot.halted worker).client = worker.client := by
  cases slot <;> rfl

theorem conversation_answer (hheld : worker.client = some client) (e : EcError) :
    Conversation client (worker.after e) (worker.answer e) := by
  rw [EcWorker.after, EcWorker.answer]
  split
  · exact .ends [] rfl (List.forall_mem_nil _)
      (emits_farewell worker _ _)
  · exact .goesOn hheld (List.forall_mem_nil _)

/-- What a slot does with a connection, other than to replace it. -/
theorem Slot.Course.conversation [Qt] {slot : Slot} {next next' : ℕ}
    (h : slot.Course worker next events worker' next') (hheld : worker.client = some client)
    (hslot : ∀ host port password, slot ≠ .connectToDaemon host port password) :
    Conversation client worker' events := by
  have hsame {held : EcClient} (hclient : worker.client = some held) : held = client :=
    Option.some.inj (hclient.symm.trans hheld)
  have hprefs : ¬prefsRequest.LogsIn := by decide
  have hwrite {prefs : DaemonPrefs} : ¬(setPrefsRequest prefs).LogsIn :=
    (Slot.applyPrefs prefs).order_other rfl
  cases h with
  | ignored unheld | ignoredSearch unheld => exact absurd (unheld.symm.trans hheld) nofun
  | @failed _ _ _ _ e held sends fails =>
    -- prelude, request, complaint and answer, one after the other
    obtain rfl := hsame held
    have hhalted := conversation_answer ((slot.client_halted worker).trans held) e
    rw [List.append_assoc]
    refine .append (under_tells _) ?_
    rw [List.cons_append, ← List.singleton_append]
    refine .append (List.forall_mem_singleton.mpr ⟨rfl, slot.request_other sends⟩) ?_
    exact .append (under_tells _) hhalted
  | done held order other accepts refresh =>
    obtain rfl := hsame held
    refine .append (under_tells _) ?_
    rw [← List.singleton_append]
    refine .append (List.forall_mem_singleton.mpr ⟨rfl, slot.order_other order⟩) ?_
    exact refresh.conversation ((slot.client_begun worker).trans hheld)
  | applied held reply fetched =>
    obtain rfl := hsame held
    refine .goesOn hheld (List.forall_mem_cons.mpr ⟨⟨rfl, hwrite⟩, ?_⟩)
    refine List.forall_mem_cons.mpr ⟨rfl, List.forall_mem_cons.mpr ⟨⟨rfl, hprefs⟩, ?_⟩⟩
    exact under_tells _
  | fetched held reply =>
    obtain rfl := hsame held
    refine .goesOn hheld ?_
    exact List.forall_mem_cons.mpr ⟨⟨rfl, hprefs⟩, List.forall_mem_singleton.mpr rfl⟩
  | refreshed held active refresh => exact hsame held ▸ refresh.conversation held
  | idle idle => exact .goesOn hheld (List.forall_mem_nil _)
  | disconnected =>
    refine .ends [] rfl (List.forall_mem_nil _) ?_
    exact List.forall_mem_append.mpr
      ⟨emits_farewell worker _ _, List.forall_mem_singleton.mpr trivial⟩
  | shutdown =>
    exact .ends [] rfl (List.forall_mem_nil _)
      (List.forall_mem_nil _)
  | refused handshake => exact absurd rfl (hslot _ _ _)
  | connected fetched handshake refresh => exact absurd rfl (hslot _ _ _)

/-- Without a connection, a slot other than a connect only emits. -/
theorem Slot.Course.silent [Qt] {slot : Slot} {next next' : ℕ}
    (h : slot.Course worker next events worker' next') (hunheld : worker.client = none)
    (hslot : ∀ host port password, slot ≠ .connectToDaemon host port password) :
    (∀ ev ∈ events, ev.Emits) ∧ worker'.client = none := by
  have hnil : ∀ ev ∈ ([] : List Event), ev.Emits := List.forall_mem_nil _
  cases h with
  | ignored unheld needs other =>
    refine ⟨List.forall_mem_append.mpr ⟨?_, List.forall_mem_singleton.mpr trivial⟩,
      (slot.client_begun worker).trans unheld⟩
    exact fun ev hev => by
      obtain ⟨signal, -, rfl⟩ := List.mem_map.mp hev
      trivial
  | ignoredSearch => exact ⟨List.forall_mem_singleton.mpr trivial, hunheld⟩
  | failed held | done held | applied held | fetched held | refreshed held =>
    exact absurd (held.symm.trans hunheld) (by simp)
  | idle => exact ⟨hnil, hunheld⟩
  | disconnected =>
    exact ⟨List.forall_mem_append.mpr
      ⟨emits_farewell worker _ _, List.forall_mem_singleton.mpr trivial⟩, rfl⟩
  | shutdown => exact ⟨hnil, rfl⟩
  | refused handshake => exact absurd rfl (hslot _ _ _)
  | connected fetched handshake refresh => exact absurd rfl (hslot _ _ _)

end

/-! ## Keeping to the rules -/

section

variable [Qt] {passwords : QString → Prop} {before events : List Event} {client : EcClient}
  {worker worker' : EcWorker}

theorem proper_of_emits (hevents : ∀ ev ∈ events, ev.Emits) :
    Trace.Continues (Event.Proper passwords) before events := by
  refine Trace.continues_of_forall fun ev hev earlier => ?_
  cases ev with
  | emit held signal => exact .emit held signal
  | exchange c request reply => exact (hevents _ hev).elim

theorem InUse.proper (h : InUse client before) (hevents : ∀ ev ∈ events, ev.Under client) :
    Trace.Continues (Event.Proper passwords) before events := by
  rintro earlier ev later rfl
  cases ev with
  | emit held signal => exact .emit held signal
  | exchange c request reply =>
    obtain ⟨rfl, hother⟩ := hevents _ (List.mem_append_right _ List.mem_cons_self)
    refine .request (h.append fun ev hev => ?_) hother reply
    exact (hevents ev (List.mem_append_left _ hev)).retains

/-- A conversation keeps to the rules, and the connection stays in use while it is held. -/
theorem Conversation.proper (h : Conversation client worker' events)
    (hinUse : InUse client before) :
    Trace.Continues (Event.Proper passwords) before events ∧
      ∀ c, worker'.client = some c → InUse c (before ++ events) := by
  cases h with
  | goesOn hheld hunder =>
    refine ⟨hinUse.proper hunder, fun c hc => ?_⟩
    rw [← Option.some.inj (hheld.symm.trans hc)]
    exact hinUse.append fun ev hev => (hunder ev hev).retains
  | ends talk hdropped hunder hemits =>
    refine ⟨?_, fun c hc => absurd (hdropped.symm.trans hc) (by simp)⟩
    exact Trace.continues_append.mpr ⟨hinUse.proper hunder, proper_of_emits hemits⟩

omit [Qt] in
theorem verdict_ok {id : ℕ} {result : Except EcError Packet}
    (h : verdict ⟨id, []⟩ result = .ok client) : client.id = id ∧ ∃ reply, result = .ok reply := by
  cases result with
  | error e => cases h
  | ok reply =>
    rw [verdict] at h
    split at h
    · exact ⟨Except.ok.inj h ▸ rfl, reply, rfl⟩
    · split at h
      · cases h
      · cases h

section handshake

variable {id : ℕ} {password : QString} {result : Except EcError EcClient}
  (h : Handshake id (Qt.toLower (normalizePasswordMd5 password)) events result)
include h

theorem Handshake.proper (hfresh : ∀ ev ∈ before, ¬ev.Uses id) (htyped : passwords password) :
    Trace.Continues (Event.Proper passwords) before events := by
  have hgreeting (reply : Except EcError Packet) :
      Trace.Continues (Event.Proper passwords) before
        [.exchange ⟨id, []⟩ EcClient.authRequest reply] := by
    exact Trace.continues_singleton.mpr (.greeting hfresh reply)
  cases h with
  | unreachable e => exact Trace.continues_nil
  | plain hplain => exact hgreeting _
  | unsalted hop hsalt e => exact hgreeting _
  | salted hop hsalt result =>
    -- the greeting is the event right before the password
    show Trace.Continues _ _ ([_] ++ [_])
    refine Trace.continues_append.mpr ⟨hgreeting _, Trace.continues_singleton.mpr ?_⟩
    exact .password rfl hop hsalt htyped result

/-- A handshake only exchanges. -/
theorem Handshake.retains (held : EcClient) : ∀ ev ∈ events, ev.Retains held := by
  cases h with
  | unreachable e => exact List.forall_mem_nil _
  | plain | unsalted => exact List.forall_mem_singleton.mpr trivial
  | salted =>
    exact List.forall_mem_cons.mpr ⟨trivial, List.forall_mem_singleton.mpr trivial⟩

/-- An accepted handshake puts its connection to use. -/
theorem Handshake.inUse (hresult : result = .ok client) : InUse client (before ++ events) := by
  cases h with
  | unreachable e => exact absurd hresult nofun
  | unsalted hop hsalt e => exact absurd hresult nofun
  | plain hplain =>
    obtain ⟨rfl, reply, rfl⟩ := verdict_ok hresult
    exact ⟨before, _, reply, [], rfl, .inl rfl, hresult, List.forall_mem_nil _⟩
  | salted hop hsalt result =>
    obtain ⟨rfl, reply, rfl⟩ := verdict_ok hresult
    refine ⟨before ++ [_], _, reply, [], (List.append_assoc _ [_] [_]).symm, .inr rfl, hresult, ?_⟩
    exact List.forall_mem_nil _

end handshake

/-- A connect that announces itself and shakes hands. -/
theorem Handshake.announced {id : ℕ} {password : QString} {shake : List Event}
    {result : Except EcError EcClient}
    (h : Handshake id (Qt.toLower (normalizePasswordMd5 password)) shake result)
    (hfresh : ∀ ev ∈ before, ¬ev.Uses id) (htyped : passwords password)
    (held : Option EcClient) (host : QString) (port : UInt16) :
    Trace.Continues (Event.Proper passwords) before
      (announcement held host port ++ shake) := by
  have hemits : ∀ ev ∈ announcement held host port, ev.Emits :=
    List.forall_mem_cons.mpr ⟨trivial, List.forall_mem_singleton.mpr trivial⟩
  have hstill : ∀ ev ∈ before ++ announcement held host port, ¬ev.Uses id :=
    List.forall_mem_append.mpr ⟨hfresh,
      List.forall_mem_cons.mpr ⟨not_false, List.forall_mem_singleton.mpr not_false⟩⟩
  exact Trace.continues_append.mpr ⟨proper_of_emits hemits, h.proper hstill htyped⟩

/-- A call keeps to the rules, whatever course it takes. -/
theorem Slot.Course.proper {slot : Slot} {next next' : ℕ}
    (h : slot.Course worker next events worker' next')
    (hinUse : ∀ client, worker.client = some client → InUse client before)
    (hfresh : ∀ ev ∈ before, ¬ev.Uses next)
    (htyped : ∀ host port password,
      slot = .connectToDaemon host port password → passwords password) :
    Trace.Continues (Event.Proper passwords) before events ∧
      ∀ client, worker'.client = some client → InUse client (before ++ events) := by
  by_cases hslot : ∃ host port password, slot = .connectToDaemon host port password
  · obtain ⟨host, port, password, rfl⟩ := hslot
    have hpassword := htyped host port password rfl
    cases h with
    | @refused _ _ _ shake e handshake =>
      -- the old connection is still held, and was in use all along
      refine ⟨?_, fun client hclient => ?_⟩
      · refine Trace.continues_append.mpr
          ⟨handshake.announced hfresh hpassword worker.client host port, proper_of_emits ?_⟩
        exact List.forall_mem_cons.mpr ⟨trivial, List.forall_mem_singleton.mpr trivial⟩
      · have hheld : worker.client = some client := hclient
        refine (hinUse client hheld).append ?_
        refine List.forall_mem_append.mpr ⟨List.forall_mem_append.mpr ⟨?_, ?_⟩, ?_⟩
        · exact List.forall_mem_cons.mpr ⟨hheld, List.forall_mem_singleton.mpr trivial⟩
        · exact handshake.retains client
        · exact List.forall_mem_cons.mpr ⟨trivial, List.forall_mem_singleton.mpr hheld⟩
    | @connected _ _ _ shake talk client _ fetched handshake refresh =>
      -- from here on it is the new one
      have hnew : InUse client (before ++ (announcement worker.client host port ++ shake)) := by
        rw [← List.append_assoc]
        exact handshake.inUse rfl
      have htalk : Conversation client worker' (client.tells (welcome client) ++
          (.exchange client prefsRequest fetched ::
            client.tells (fetchTells fetched) ++ talk)) := by
        refine .append (under_tells _) (.append ?_ (refresh.conversation rfl))
        exact List.forall_mem_cons.mpr ⟨⟨rfl, by decide⟩, under_tells _⟩
      obtain ⟨hproper, hstays⟩ := htalk.proper hnew
      refine ⟨Trace.continues_append.mpr ⟨?_, hproper⟩, fun c hc => ?_⟩
      · exact handshake.announced hfresh hpassword worker.client host port
      · rw [← List.append_assoc]
        exact hstays c hc
    | ignored unheld needs => exact absurd rfl needs
    | failed held sends => cases sends
    | done held order => cases order
  · have hother : ∀ host port password, slot ≠ .connectToDaemon host port password :=
      fun host port password heq => hslot ⟨host, port, password, heq⟩
    cases hheld : worker.client with
    | none =>
      obtain ⟨hemits, hnone⟩ := h.silent hheld hother
      exact ⟨proper_of_emits hemits, fun c hc => absurd (hnone.symm.trans hc) (by simp)⟩
    | some client => exact (h.conversation hheld hother).proper (hinUse client hheld)

/-- What is kept between the calls of a run. -/
structure Session.Proper (passwords : QString → Prop) (s : Session) : Prop where
  trace : Trace.Throughout (Event.Proper passwords) s.trace
  inUse : ∀ client, s.worker.client = some client → InUse client s.trace

theorem Session.Proper.step {s : Session} (h : s.Proper passwords) (hnumbered : s.Numbered)
    {c : Call} (htyped : ∀ host port password,
      c.slot = .connectToDaemon host port password → passwords password) :
    (s.step c).Proper passwords := by
  obtain ⟨events, htrace, hcourse⟩ := s.step_course c
  have hfresh : ∀ ev ∈ s.trace, ¬ev.Uses s.nextId := fun ev hev hused =>
    absurd ((hnumbered c.network).used ev hev s.nextId hused) (lt_irrefl _)
  obtain ⟨hevents, hinUse⟩ := hcourse.proper h.inUse hfresh htyped
  refine ⟨?_, ?_⟩
  · rw [htrace]
    exact Trace.throughout_append.mpr ⟨h.trace, hevents⟩
  · rw [htrace]
    exact hinUse

theorem proper_run {s : Session} {calls : List Call} (h : s.Proper passwords)
    (hnumbered : s.Numbered) (htyped : ∀ password, Typed calls password → passwords password) :
    (calls.foldl Session.step s).Proper passwords := by
  induction calls generalizing s with
  | nil => exact h
  | cons c calls ih =>
    refine ih (h.step hnumbered fun host port password heq => ?_) (hnumbered.step c) ?_
    · exact htyped password ⟨host, port, c.network, heq ▸ List.mem_cons_self⟩
    · rintro password ⟨host, port, network, hmem⟩
      exact htyped password ⟨host, port, network, List.mem_cons_of_mem c hmem⟩

/-- Every run keeps to the rules of a session. -/
theorem proper_steps (calls : List Call) :
    Trace.Throughout (Event.Proper (Typed calls)) (calls.foldl Session.step {}).trace :=
  (proper_run ⟨Trace.throughout_nil, fun _ hheld => absurd hheld (by simp)⟩
    Session.numbered_start fun _ => id).trace

end

end Amule
