import AmuleRemote.Ec.Course

/-!
# The slots follow their courses

Slot by slot, a call takes one of the courses of `Slot.Course`.

## Main results

- `Slot.call_course` — every call takes a course
- `Session.step_course` — and so does every step of a run
-/

namespace Amule

open Ec Std.Do

set_option mvcgen.warning false

/-- `w` is `w₀` after a call of `slot`. -/
def Follows [Qt] (slot : Slot) (w₀ w : World) : Prop :=
  ∃ events, w.trace = w₀.trace ++ events ∧
    slot.Course w₀.worker w₀.nextId events w.worker w.nextId

/-- `w` is `w₀` as the order of `slot` goes out. -/
structure Begun (slot : Slot) (w₀ w : World) : Prop where
  worker : w.worker = slot.begun w₀.worker
  nextId : w.nextId = w₀.nextId
  trace : w.trace = w₀.trace ++ (slot.prelude w₀.worker).map (.emit w₀.worker.client)

/-- `fn` sends one request and fails as the order of `slot` does. -/
def Sends (slot : Slot) (request : Packet) (fn : EcClient → EcM Unit) : Prop :=
  ∀ client w₀, ⦃fun w => ⌜w = w₀⌝⦄ fn client
    ⦃post⟨fun _ w => ⌜w = w₀.exchanged client request ∧
        ∃ reply, w₀.network.replies 0 = .ok reply ∧ slot.refuses reply = false⌝,
      fun e w => ⌜w = w₀.exchanged client request ∧ slot.Fails (w₀.network.replies 0) e⌝⟩⦄

/-- The slots that only run a command. -/
structure Slot.Commands (slot : Slot) (request : Packet) : Prop where
  order : slot.order = some request
  other : ∀ prefs, slot ≠ .applyPrefs prefs
  search : slot.startsSearch = false

theorem sendDiscard_sends {slot : Slot} (hslot : ∀ reply, slot.refuses reply = false)
    (request : Packet) : Sends slot request fun client => sendDiscard client request := by
  intro client w₀
  mvcgen [sendDiscard, EcClient.exchange]
  next w hw reply hreply =>
    subst hw
    exact ⟨rfl, reply, hreply, hslot reply⟩
  next w hw e hfail =>
    subst hw
    exact ⟨rfl, hfail ▸ .lost e⟩

theorem refusable_sends {slot : Slot} (hslot : ∀ reply : Packet,
      slot.refuses reply = decide (reply.opcode = Op.failed)) (request : Packet)
    (reason : Packet → QString) :
    Sends slot request (fun client => do
      let resp ← client.exchange request
      if resp.opcode = Op.failed then throw ⟨.remote, reason resp⟩) := by
  intro client w₀
  mvcgen [EcClient.exchange]
  next w hw reply hreply hfailed =>
    subst hw
    refine ⟨rfl, hreply ▸ .refused ?_ _⟩
    rw [hslot]
    exact decide_eq_true hfailed
  next w hw reply hreply hfailed =>
    subst hw
    refine ⟨rfl, reply, hreply, ?_⟩
    rw [hslot]
    exact decide_eq_false hfailed
  next w hw e hfail =>
    subst hw
    exact ⟨rfl, hfail ▸ .lost e⟩

section

variable [Qt] {slot : Slot} {w₀ w : World} {client : EcClient} {request : Packet} {e : EcError}

theorem follows_of_eq {events : List Event} {worker : EcWorker} {next : ℕ}
    (hcourse : slot.Course w₀.worker w₀.nextId events worker next)
    (hworker : w.worker = worker) (hid : w.nextId = next)
    (htrace : w.trace = w₀.trace ++ events) : Follows slot w₀ w :=
  ⟨events, htrace, by rwa [hworker, hid]⟩

/-- The order is accepted, and a refresh follows. -/
theorem Begun.done (h : Begun slot w₀ w) (hheld : w₀.worker.client = some client)
    (hclient : w.worker.client = some client)
    (horder : slot.order = some request) (hother : ∀ prefs, slot ≠ .applyPrefs prefs)
    {reply : Packet} (hreply : w.network.replies 0 = .ok reply)
    (haccepts : slot.refuses reply = false) :
    Follows slot w₀ (EcWorker.onRefresh.run (w.exchanged client request)).2 := by
  have hexchanged : (w.exchanged client request).worker.client = some client := hclient
  obtain ⟨hid, events, htrace, hrefresh⟩ := onRefresh_course hexchanged
  rw [World.worker_exchanged, h.worker] at hrefresh
  refine follows_of_eq (.done hheld horder hother haccepts hrefresh) rfl (hid.trans h.nextId) ?_
  rw [htrace, World.trace_exchanged, hreply, h.trace, hheld]
  simp [EcClient.tells]

omit [Qt] in
theorem Begun.client_eq (h : Begun slot w₀ w) : w.worker.client = w₀.worker.client := by
  rw [h.worker]
  cases slot <;> rfl

/-- The request fails, and the failure is answered. -/
theorem Begun.failed (h : Begun slot w₀ w) (hheld : w₀.worker.client = some client)
    (hsends : slot.request = some request) (hfails : slot.Fails (w.network.replies 0) e)
    (w₁ : World) (hworker : w₁.worker = slot.halted w₀.worker) (hid : w₁.nextId = w₀.nextId)
    (htrace : w₁.trace =
      (w.exchanged client request).trace ++ client.tells (slot.complaint e.message)) :
    Follows slot w₀ (if e.kind = .io then w₁.tornDown e.message .error else w₁) := by
  have htold : w₁.trace = w₀.trace ++ (client.tells (slot.prelude w₀.worker) ++
      .exchange client request (w.network.replies 0) ::
        client.tells (slot.complaint e.message)) := by
    rw [htrace, World.trace_exchanged, h.trace, hheld]
    simp [EcClient.tells]
  refine follows_of_eq (.failed hheld hsends hfails) ?_ ?_ ?_
  · rw [EcWorker.after, ← hworker]
    split
    · exact w₁.worker_tornDown e.message .error
    · rfl
  · split
    · rw [World.nextId_tornDown, hid]
    · exact hid
  · rw [EcWorker.answer, ← hworker]
    split
    · rw [World.farewell_tornDown, htold]
      simp only [List.append_assoc, List.cons_append]
    · rw [htold, List.append_nil]

omit [Qt] in
theorem Slot.Commands.halted (h : slot.Commands request) (worker : EcWorker) :
    slot.halted worker = slot.begun worker := by
  cases slot with
  | startSearch params => exact absurd h.search nofun
  | _ => rfl

omit [Qt] in
theorem Slot.Commands.request_eq (h : slot.Commands request) : slot.request = some request := by
  cases slot with
  | fetchPrefs => exact absurd h.order nofun
  | _ => exact h.order

omit [Qt] in
theorem Slot.Commands.complaint (h : slot.Commands request) (message : QString) :
    slot.complaint message = [.logMessage ((QString.lit "command failed: %1").arg message)] := by
  cases slot with
  | startSearch params => exact absurd h.search nofun
  | applyPrefs prefs => exact absurd rfl (h.other prefs)
  | fetchPrefs => exact absurd h.order nofun
  | _ => rfl

theorem runConnected_course (hslot : slot.Commands request) {fn : EcClient → EcM Unit}
    (hfn : Sends slot request fn) (h : Begun slot w₀ w) :
    Follows slot w₀ ((EcWorker.runConnected fn).run w).2 := by
  have hrun : ⦃fun v => ⌜v = w⌝⦄ EcWorker.runConnected fn ⦃⇓ _ v => ⌜Follows slot w₀ v⌝⦄ := by
    have hrefresh := EcWorker.onRefresh_run
    have hcommand := fun client => hfn client w
    -- both ways to answer a failure, as one fact
    have hfailed {client e} (hclient : w.worker.client = some client)
        (hfails : slot.Fails (w.network.replies 0) e) :=
      h.failed (h.client_eq ▸ hclient) hslot.request_eq hfails
        ((w.exchanged client request).emitted
          (.logMessage ((QString.lit "command failed: %1").arg e.message)))
        (h.worker.trans (hslot.halted _).symm) h.nextId
        (by simp [hslot.complaint, hclient, EcClient.tells])
    mvcgen [EcWorker.runConnected, EcWorker.getClient, EcWorker.notConnected, emit,
      EcWorker.teardown_eq, hcommand, hrefresh]
    all_goals subst_vars
    next w hclient _ =>
      have hnone : w₀.worker.client = none := h.client_eq ▸ hclient
      have hneeds : slot.request ≠ none := hslot.request_eq ▸ Option.some_ne_none request
      refine follows_of_eq (.ignored hnone hneeds hslot.search) h.worker h.nextId ?_
      rw [World.trace_emitted, h.trace, hclient, hnone, List.append_assoc]
    next w client hclient _ v _ v' hsent =>
      rintro rfl
      obtain ⟨rfl, reply, hreply, haccepts⟩ := hsent
      exact h.done (h.client_eq ▸ hclient) hclient hslot.order hslot.other hreply haccepts
    next w client hclient e v _ hio _ hsent =>
      obtain ⟨rfl, hfails⟩ := hsent
      have hanswered := hfailed hclient hfails
      rwa [if_pos hio] at hanswered
    next w client hclient e v _ hio hsent =>
      obtain ⟨rfl, hfails⟩ := hsent
      have hanswered := hfailed hclient hfails
      rwa [if_neg hio] at hanswered
  exact hrun w rfl

omit [Qt] in
theorem Begun.start {slot : Slot} {w : World} (hprelude : slot.prelude w.worker = [])
    (hbegun : slot.begun w.worker = w.worker) : Begun slot w w :=
  ⟨hbegun.symm, rfl, by simp [hprelude]⟩

/-- A command with nothing before its order. -/
theorem command_course (hslot : slot.Commands request) (hstop : slot ≠ .stopSearch)
    {fn : EcClient → EcM Unit} (hfn : Sends slot request fn) (w : World) :
    Follows slot w ((EcWorker.runConnected fn).run w).2 := by
  refine runConnected_course hslot hfn (.start ?_ ?_)
  · cases slot with
    | startSearch params => exact absurd hslot.search nofun
    | stopSearch => exact absurd rfl hstop
    | _ => rfl
  · cases slot with
    | startSearch params => exact absurd hslot.search nofun
    | stopSearch => exact absurd rfl hstop
    | _ => rfl

theorem stopSearch_course (w : World) :
    Follows .stopSearch w (EcWorker.stopSearch.run w).2 := by
  -- the search ends before the connection is looked for, so a prelude may stand alone
  have hslot : Slot.stopSearch.Commands ⟨Op.searchStop, []⟩ := ⟨rfl, nofun, rfl⟩
  have hsends : Sends .stopSearch ⟨Op.searchStop, []⟩ fun c => Amule.stopSearch c :=
    sendDiscard_sends (fun _ => rfl) _
  have hcommand {v : World} (h : Begun .stopSearch w v) :
      Follows .stopSearch w ((EcWorker.runConnected fun c => Amule.stopSearch c).run v).2 :=
    runConnected_course hslot hsends h
  cases hon : w.worker.searching with
  | true =>
    have hrun : (EcWorker.stopSearch.run w).2 =
        ((EcWorker.runConnected fun c => Amule.stopSearch c).run w.stopped).2 := by
      simp [EcWorker.stopSearch, hon, EcWorker.stopSearching_eq]
    rw [hrun]
    refine hcommand ⟨rfl, rfl, ?_⟩
    simp [World.stopped, Slot.prelude, hon]
  | false =>
    have hrun : (EcWorker.stopSearch.run w).2 =
        ((EcWorker.runConnected fun c => Amule.stopSearch c).run w).2 := by
      simp [EcWorker.stopSearch, hon]
    rw [hrun]
    refine hcommand (.start ?_ ?_)
    · simp [Slot.prelude, hon]
    · rw [Slot.begun, ← hon]

theorem startSearch_course (params : SearchParams) (w₀ : World) :
    Follows (.startSearch params) w₀ ((EcWorker.startSearch params).run w₀).2 := by
  have hsends : Sends (.startSearch params) (searchRequest params) fun c =>
      Amule.startSearch c params := refusable_sends (fun _ => rfl) _ _
  have hbegun : Begun (.startSearch params) w₀ (w₀.searches params) :=
    ⟨rfl, rfl, by simp [World.searches, Slot.prelude]⟩
  have hrun : ⦃fun w => ⌜w = w₀⌝⦄ EcWorker.startSearch params
      ⦃⇓ _ w => ⌜Follows (.startSearch params) w₀ w⌝⦄ := by
    have hrefresh := EcWorker.onRefresh_run
    have hcommand := fun client => hsends client (w₀.searches params)
    have hfailed {client e} (hclient : w₀.worker.client = some client)
        (hfails : (Slot.startSearch params).Fails ((w₀.searches params).network.replies 0) e) :=
      hbegun.failed hclient rfl hfails
        (((w₀.searches params).exchanged client (searchRequest params)).stopped.emitted
          (.logMessage ((QString.lit "search failed: %1").arg e.message)))
        rfl rfl (by simp [World.stopped, World.searches, hclient, EcClient.tells, Slot.complaint])
    mvcgen [EcWorker.startSearch, EcWorker.getClient, EcWorker.notConnected, emit, modifyWorker,
      EcWorker.stopSearching_eq, EcWorker.teardown_eq, hcommand, hrefresh]
    all_goals subst_vars
    next w hclient _ =>
      refine follows_of_eq (.ignoredSearch hclient) rfl rfl ?_
      rw [World.trace_emitted, hclient]
    next => rfl
    next w client hclient _ _ _ _ _ _ v _ v' hsent =>
      rintro rfl
      obtain ⟨rfl, reply, hreply, haccepts⟩ := hsent
      exact hbegun.done hclient hclient rfl (by simp) hreply haccepts
    next w client hclient _ _ _ _ _ e v _ _ hio _ hsent =>
      obtain ⟨rfl, hfails⟩ := hsent
      have hanswered := hfailed hclient hfails
      rwa [if_pos hio] at hanswered
    next w client hclient _ _ _ _ _ e v _ _ hio hsent =>
      obtain ⟨rfl, hfails⟩ := hsent
      have hanswered := hfailed hclient hfails
      rwa [if_neg hio] at hanswered
  exact hrun w₀ rfl

theorem fetchPrefs_course (w₀ : World) :
    Follows .fetchPrefs w₀ (EcWorker.fetchPrefs.run w₀).2 := by
  have hrun : ⦃fun w => ⌜w = w₀⌝⦄ EcWorker.fetchPrefs ⦃⇓ _ w => ⌜Follows .fetchPrefs w₀ w⌝⦄ := by
    have hfailed {client e} (hclient : w₀.worker.client = some client)
        (hfail : w₀.network.replies 0 = .error e) : Follows .fetchPrefs w₀ (if e.kind = .io then
          ((w₀.exchanged client prefsRequest).emitted
            (.logMessage ((QString.lit "fetch prefs failed: %1").arg e.message))).tornDown
              e.message .error
          else (w₀.exchanged client prefsRequest).emitted
            (.logMessage ((QString.lit "fetch prefs failed: %1").arg e.message))) :=
      (Begun.start rfl rfl).failed hclient rfl (hfail ▸ .lost e) _ rfl rfl
        (by simp [hclient, EcClient.tells, Slot.complaint])
    mvcgen [EcWorker.fetchPrefs, Amule.fetchPrefs, EcClient.exchange, EcWorker.getClient,
      EcWorker.notConnected, emit, EcWorker.teardown_eq]
    all_goals subst_vars
    next w hclient _ =>
      refine follows_of_eq (.ignored hclient (Option.some_ne_none _) rfl) rfl rfl ?_
      rw [World.trace_emitted, hclient]
      rfl
    next w client hclient reply hreply _ =>
      refine follows_of_eq (.fetched hclient reply) rfl rfl ?_
      rw [World.trace_emitted, World.trace_exchanged, World.worker_exchanged, hclient, hreply,
        List.append_assoc]
      rfl
    next w client hclient e hfail _ hio _ =>
      have hanswered := hfailed hclient hfail
      rwa [if_pos hio] at hanswered
    next w client hclient e hfail _ hio =>
      have hanswered := hfailed hclient hfail
      rwa [if_neg hio] at hanswered
  exact hrun w₀ rfl

theorem applyPrefs_course (prefs : DaemonPrefs) (w₀ : World) :
    Follows (.applyPrefs prefs) w₀ ((EcWorker.applyPrefs prefs).run w₀).2 := by
  have hrun : ⦃fun w => ⌜w = w₀⌝⦄ EcWorker.applyPrefs prefs
      ⦃⇓ _ w => ⌜Follows (.applyPrefs prefs) w₀ w⌝⦄ := by
    have hfailed {client e} (hclient : w₀.worker.client = some client)
        (hfail : w₀.network.replies 0 = .error e) :
        Follows (.applyPrefs prefs) w₀ (if e.kind = .io then
          ((w₀.exchanged client (setPrefsRequest prefs)).emitted
            (.logMessage ((QString.lit "apply prefs failed: %1").arg e.message))).tornDown
              e.message .error
          else (w₀.exchanged client (setPrefsRequest prefs)).emitted
            (.logMessage ((QString.lit "apply prefs failed: %1").arg e.message))) :=
      (Begun.start rfl rfl).failed hclient rfl (hfail ▸ .lost e) _ rfl rfl
        (by simp [hclient, EcClient.tells, Slot.complaint])
    mvcgen [EcWorker.applyPrefs, setPrefs, sendDiscard, Amule.fetchPrefs, EcClient.exchange,
      EcWorker.getClient, EcWorker.notConnected, emit, EcWorker.teardown_eq]
    all_goals subst_vars
    next w hclient _ =>
      refine follows_of_eq (.ignored hclient (Option.some_ne_none _) rfl) rfl rfl ?_
      rw [World.trace_emitted, hclient]
      rfl
    -- the preferences are fetched again, and that may fail without a word
    next w client hclient reply hreply _ updated hupdated _ =>
      refine follows_of_eq (.applied hclient reply (.ok updated)) rfl rfl ?_
      have hnext : w.network.replies 1 = .ok updated := hupdated
      show ((((w.exchanged client (setPrefsRequest prefs)).emitted _).exchanged client
        prefsRequest).emitted _).trace = _
      simp [hclient, hreply, hnext, EcClient.tells, fetchTells]
    next w client hclient reply hreply _ e hfail =>
      refine follows_of_eq (.applied hclient reply (.error e)) rfl rfl ?_
      have hnext : w.network.replies 1 = .error e := hfail
      show (((w.exchanged client (setPrefsRequest prefs)).emitted _).exchanged client
        prefsRequest).trace = _
      simp [hclient, hreply, hnext, EcClient.tells, fetchTells]
    next w client hclient e hfail _ hio _ =>
      have hanswered := hfailed hclient hfail
      rwa [if_pos hio] at hanswered
    next w client hclient e hfail _ hio =>
      have hanswered := hfailed hclient hfail
      rwa [if_neg hio] at hanswered
  exact hrun w₀ rfl

/-- `w` is `w₀` after a handshake with this result. -/
structure Shook (md5 : QString) (w₀ : World) (result : Except EcError EcClient) (w : World) :
    Prop where
  worker : w.worker = w₀.worker
  nextId : w.nextId = w₀.nextId + 1
  course : ∃ events, w.trace = w₀.trace ++ events ∧ Handshake w₀.nextId md5 events result

theorem Shook.plain {md5 : QString} {result : Except EcError Packet} {r : Except EcError EcClient}
    (hresult : w.network.replies 0 = result)
    (hplain : ∀ reply, result = .ok reply → reply.opcode ≠ Op.authSalt)
    (hverdict : verdict ⟨w.nextId, []⟩ result = r) :
    Shook md5 w r (w.opened.exchanged ⟨w.nextId, []⟩ EcClient.authRequest) := by
  subst hresult hverdict
  exact ⟨rfl, rfl, _, rfl, .plain hplain⟩

theorem Shook.salted {md5 : QString} {reply : Packet} {salt : UInt64}
    {result : Except EcError Packet} {r : Except EcError EcClient}
    (hreply : w.network.replies 0 = .ok reply) (hop : reply.opcode = Op.authSalt)
    (hsalt : reply.tagInt TagName.passwdSalt = some salt)
    (hresult : w.network.replies 1 = result) (hverdict : verdict ⟨w.nextId, []⟩ result = r) :
    Shook md5 w r ((w.opened.exchanged ⟨w.nextId, []⟩ EcClient.authRequest).exchanged
      ⟨w.nextId, []⟩ (EcClient.passwdRequest md5 salt)) := by
  subst hresult hverdict
  refine ⟨rfl, rfl, _, ?_, .salted hop hsalt _⟩
  simp [hreply]

/-- The rules of a handshake are those of the login. -/
theorem connectWithMd5_course (host : QString) (port : UInt16) (md5 : QString) (w₀ : World) :
    ⦃fun w => ⌜w = w₀⌝⦄ EcClient.connectWithMd5 host port md5
    ⦃post⟨fun client w => ⌜Shook (Qt.toLower md5) w₀ (.ok client) w⌝,
      fun e w => ⌜Shook (Qt.toLower md5) w₀ (.error e) w⌝⟩⦄ := by
  mvcgen [EcClient.connectWithMd5, EcClient.authenticate, EcClient.login, EcClient.exchange]
  all_goals subst_vars
  next w _ herror => exact ⟨rfl, rfl, [], (List.append_nil _).symm, .unreachable _⟩
  next w _ reply hreply hop hnone =>
    refine ⟨rfl, rfl, _, ?_, .unsalted hop hnone _⟩
    rw [World.trace_exchanged, hreply]
    rfl
  next w _ reply hreply hop salt hsalt resp hresp hok =>
    exact .salted hreply hop hsalt hresp (by simp [verdict, hok])
  next w _ reply hreply hop salt hsalt resp hresp hok hfail =>
    exact .salted hreply hop hsalt hresp (by simp only [verdict, if_neg hok, if_pos hfail])
  next w _ reply hreply hop salt hsalt resp hresp hok hfail =>
    exact .salted hreply hop hsalt hresp (by simp [verdict, hok, hfail])
  next w _ reply hreply hop salt hsalt e hfail => exact .salted hreply hop hsalt hfail rfl
  next w _ reply hreply hop hok =>
    exact .plain hreply (fun _ heq => Except.ok.inj heq ▸ hop) (by simp [verdict, hok])
  next w _ reply hreply hop hok hfail =>
    exact .plain hreply (fun _ heq => Except.ok.inj heq ▸ hop)
      (by simp only [verdict, if_neg hok, if_pos hfail])
  next w _ reply hreply hop hok hfail =>
    exact .plain hreply (fun _ heq => Except.ok.inj heq ▸ hop) (by simp [verdict, hok, hfail])
  next w _ e hfail => exact .plain hfail (by simp) rfl

omit [Qt] in
theorem World.asks_settled (w : World) (hheld : w.worker.client = some client) :
    (w.settled client).trace = w.trace ++
        .exchange client prefsRequest (w.network.replies 0) ::
          client.tells (fetchTells (w.network.replies 0)) ∧
      (w.settled client).nextId = w.nextId := by
  cases hreply : w.network.replies 0 with
  | ok reply =>
    rw [World.settled_ok hreply]
    simp [hreply, hheld, fetchTells, EcClient.tells]
  | error e =>
    rw [World.settled_error hreply]
    simp [hreply, fetchTells, EcClient.tells]

/-- The new connection is adopted, and its preferences are asked for. -/
theorem Shook.connected {host : QString} {port : UInt16} {password : QString}
    (h : Shook (Qt.toLower (normalizePasswordMd5 password)) (w₀.connecting host port)
      (.ok client) w) :
    Follows (.connectToDaemon host port password) w₀
      (EcWorker.onRefresh.run ((w.adopted client).settled client)).2 := by
  obtain ⟨hworker, hid, shake, hshake, hcourse⟩ := h
  -- the worker that the first refresh finds
  have hsettled : ((w.adopted client).settled client).worker =
      { w₀.worker with client := some client, sourceClients := ∅, timerActive := true } := by
    rw [World.worker_settled, World.adopted, World.worker_emitted, World.worker_emitted,
      World.worker_setWorker, hworker]
    rfl
  have hheld : ((w.adopted client).settled client).worker.client = some client := by rw [hsettled]
  obtain ⟨hnext, events, htrace, hrefresh⟩ := onRefresh_course hheld
  rw [hsettled] at hrefresh
  have hopen : (w.adopted client).worker.client = some client := rfl
  obtain ⟨hasks, hasksId⟩ := (w.adopted client).asks_settled hopen
  have hnextId : (EcWorker.onRefresh.run ((w.adopted client).settled client)).2.nextId =
      w₀.nextId + 1 := by
    rw [hnext, hasksId]
    exact hid
  refine follows_of_eq (.connected (w.network.replies 0) hcourse hrefresh) rfl hnextId ?_
  have hadopted : (w.adopted client).trace = w₀.trace ++
      (announcement w₀.worker.client host port ++ shake ++ client.tells (welcome client)) := by
    simp [World.adopted, World.connecting, hshake, announcement, welcome, EcClient.tells]
  rw [htrace, hasks, hadopted]
  simp [World.adopted]

theorem Shook.refused {host : QString} {port : UInt16} {password : QString}
    (h : Shook (Qt.toLower (normalizePasswordMd5 password)) (w₀.connecting host port)
      (.error e) w) :
    Follows (.connectToDaemon host port password) w₀ (w.refused e.message) := by
  obtain ⟨hworker, hid, shake, hshake, hcourse⟩ := h
  refine follows_of_eq (.refused hcourse) hworker hid ?_
  simp [World.refused, World.connecting, hshake, hworker, announcement, refusal]

theorem connectToDaemon_course (host : QString) (port : UInt16) (password : QString)
    (w₀ : World) :
    Follows (.connectToDaemon host port password) w₀
      ((EcWorker.connectToDaemon host port password).run w₀).2 := by
  have hconnect := connectWithMd5_course host port (normalizePasswordMd5 password)
    (w₀.connecting host port)
  have hrun : ⦃fun w => ⌜w = w₀⌝⦄ EcWorker.connectToDaemon host port password
      ⦃⇓ _ w => ⌜Follows (.connectToDaemon host port password) w₀ w⌝⦄ := by
    have hrefresh := EcWorker.onRefresh_run
    mvcgen [EcWorker.connectToDaemon, emit, modifyWorker, hconnect, Amule.fetchPrefs,
      EcClient.exchange, hrefresh]
    all_goals subst_vars
    next => rfl
    next w _ _ _ client v _ _ _ reply hreply _ _ _ _ w' hshook =>
      rintro rfl
      have hconnected := hshook.connected
      rw [World.settled_ok (w := v.adopted client) hreply] at hconnected
      exact hconnected
    next w _ _ _ client v _ _ _ e hfail _ _ _ w' hshook =>
      rintro rfl
      have hconnected := hshook.connected
      rw [World.settled_error (w := v.adopted client) hfail] at hconnected
      exact hconnected
    next w _ _ _ e v _ _ hshook => exact hshook.refused
  exact hrun w₀ rfl

theorem timeout_course (w : World) : Follows .timeout w (Slot.timeout.call.run w).2 := by
  have hrun : (Slot.timeout.call.run w).2 =
      if w.worker.timerActive then (EcWorker.onRefresh.run w).2 else w := by
    cases hactive : w.worker.timerActive with
    | false =>
      simp only [Slot.call, StateT.run_bind, StateT.run_get, pure_bind, hactive]
      rfl
    | true => simp [Slot.call, hactive]
  rw [hrun]
  cases hactive : w.worker.timerActive with
  | false => exact follows_of_eq (.idle (.inl hactive)) rfl rfl (List.append_nil _).symm
  | true =>
    -- a refresh looks for the connection itself
    cases hclient : w.worker.client with
    | none =>
      have hskip : (EcWorker.onRefresh.run w).2 = w := by
        simp only [EcWorker.onRefresh, EcWorker.getClient, StateT.run_bind, StateT.run_get,
          pure_bind, hclient]
        rfl
      rw [if_pos rfl, hskip]
      exact follows_of_eq (.idle (.inr hclient)) rfl rfl (List.append_nil _).symm
    | some client =>
      obtain ⟨hid, events, htrace, hrefresh⟩ := onRefresh_course hclient
      exact follows_of_eq (.refreshed hclient hactive hrefresh) rfl hid htrace

theorem disconnectFromDaemon_course (w : World) :
    Follows .disconnectFromDaemon w (EcWorker.disconnectFromDaemon.run w).2 := by
  have hrun : (EcWorker.disconnectFromDaemon.run w).2 =
      (w.tornDown (.lit "disconnected") .disconnected).emitted
        (.logMessage (.lit "disconnected")) := by
    rw [EcWorker.disconnectFromDaemon, EcWorker.teardown_eq]
    rfl
  rw [hrun]
  refine follows_of_eq .disconnected ?_ ?_ ?_
  · rw [World.worker_emitted, World.worker_tornDown]
  · rw [World.nextId_emitted, World.nextId_tornDown]
  · rw [World.trace_emitted, World.farewell_tornDown, World.client_tornDown, List.append_assoc]

/-- Every call takes a course. -/
theorem Slot.call_course (slot : Slot) (w : World) : Follows slot w (slot.call.run w).2 := by
  have hdiscard {slot : Slot} {request : Packet} (hslot : slot.Commands request)
      (hstop : slot ≠ .stopSearch) (hrefuses : ∀ reply, slot.refuses reply = false) :
      Follows slot w ((EcWorker.runConnected fun c => sendDiscard c request).run w).2 :=
    command_course hslot hstop (sendDiscard_sends hrefuses request) w
  cases slot with
  | connectToDaemon host port password => exact connectToDaemon_course host port password w
  | disconnectFromDaemon => exact disconnectFromDaemon_course w
  | startSearch params => exact startSearch_course params w
  | stopSearch => exact stopSearch_course w
  | fetchPrefs => exact fetchPrefs_course w
  | applyPrefs prefs => exact applyPrefs_course prefs w
  | shutdown => exact follows_of_eq .shutdown rfl rfl (List.append_nil _).symm
  | timeout => exact timeout_course w
  | serverAdd name address =>
    have hsends : Sends (.serverAdd name address) _ fun c => Amule.serverAdd c name address :=
      refusable_sends (fun _ => rfl) _ _
    exact command_course ⟨rfl, (by intro _ h; cases h), rfl⟩ (by intro h; cases h) hsends w
  -- the others send one request and discard what comes back
  | _ =>
    refine hdiscard ⟨rfl, ?_, rfl⟩ ?_ fun _ => rfl
    · intro prefs h
      cases h
    · intro h
      cases h

end

/-- A step of a session takes the course of its call. -/
theorem Session.step_course [Qt] (s : Session) (c : Call) :
    ∃ events, (s.step c).trace = s.trace ++ events ∧
      c.slot.Course s.worker s.nextId events (s.step c).worker (s.step c).nextId :=
  Slot.call_course c.slot (s.world c.network)

end Amule
