import AmuleRemote.Ec.Numbering
import AmuleRemote.Ec.Outcome
import AmuleRemote.Ec.SlotEffect

/-!
# A session polls for the search it has started

The worker asks for progress and results while its search flag is set. The flag
belongs to the connection the search was started on, but it is a field of the
worker: a connect that is accepted over an old connection replaces the client
and leaves the flag, and a shutdown drops the client and leaves it as well.

## Main results

- `EcWorker.searching_onRefresh` — when a refresh ends the search
- `polls_iff_not_orphaned` — the flag means a search on the connection held
  throughout a run if and only if no call orphans a search
-/

namespace Amule

open Ec Std.Do

set_option mvcgen.warning false

/-! ## The outcome of a refresh -/

/-- The grace period of a search that is done is over. -/
def EcWorker.GraceOver (worker : EcWorker) (now : ℕ) (progress : UInt32) : Prop :=
  worker.at100 = true ∧ 100 ≤ progress ∧ EcWorker.searchGraceMs ≤ now - worker.at100Timer

/-- The answers to a refresh that end the search: one of its eight exchanges fails, or the
    seventh says that the search is done and its grace period is over. -/
def Network.EndsSearch (n : Network) (worker : EcWorker) : Prop :=
  (∃ k < 8, ∃ e, n.replies k = .error e) ∨
    ∃ reply, n.replies 6 = .ok reply ∧ worker.GraceOver n.now (progressOf reply)

theorem Network.endsSearch_iff {n : Network} {worker : EcWorker} {reply : Packet}
    (hanswered : ∀ k < 8, ∃ reply, n.replies k = .ok reply) (hreply : n.replies 6 = .ok reply) :
    n.EndsSearch worker ↔ worker.GraceOver n.now (progressOf reply) := by
  constructor
  · rintro (⟨k, hk, e, he⟩ | ⟨reply', hreply', hover⟩)
    · obtain ⟨answer, hanswer⟩ := hanswered k hk
      exact absurd (he.symm.trans hanswer) nofun
    · rw [Except.ok.inj (hreply.symm.trans hreply')]
      exact hover
  · exact fun hover => .inr ⟨reply, hreply, hover⟩

/-- A report of progress leaves the search on until its grace period is over. -/
theorem World.searching_noted {w : World} (progress : UInt32)
    (hsearching : w.worker.searching = true) :
    (w.noted progress).worker.searching = true ↔
      ¬w.worker.GraceOver w.network.now progress := by
  rw [World.noted]
  split_ifs with hdone hat hgrace
  · refine iff_of_true hsearching fun hover => ?_
    simp [hover.1] at hat
  · have hat : w.worker.at100 = true := by simpa using hat
    exact iff_of_false Bool.false_ne_true fun h => h ⟨hat, hdone, hgrace⟩
  · exact iff_of_true hsearching fun hover => hgrace hover.2.2
  · exact iff_of_true hsearching fun hover => hdone hover.2.1

namespace EcWorker

/-- A refresh that fails tears the connection down, and the search with it. -/
theorem searching_onRefresh {w : World} {client : EcClient}
    (hclient : w.worker.client = some client) (hsearching : w.worker.searching = true) :
    (onRefresh.run w).2.worker.searching = true ↔ ¬w.network.EndsSearch w.worker := by
  have houtcome := onRefresh_outcome (v := w) (hclient ▸ Option.some_ne_none client)
  generalize (onRefresh.run w).2 = after at houtcome ⊢
  cases houtcome with
  | idle off _ => exact absurd (off.symm.trans hsearching) Bool.false_ne_true
  | polled on reported midway =>
    rename_i v reply
    obtain ⟨sources, hworker⟩ := midway.worker
    rw [World.searching_noted _ (midway.searching.trans on), midway.now, hworker,
      Network.endsSearch_iff midway.answered reported]
    rfl
  | lost interrupted =>
    rename_i v e
    have hends : w.network.EndsSearch w.worker := by
      obtain ⟨k, hk, hfail, -⟩ := interrupted.first
      rw [hsearching] at hk
      exact .inl ⟨k, hk, e, hfail⟩
    rw [World.searching_tornDown]
    exact iff_of_false Bool.false_ne_true fun h => h hends

end EcWorker

/-! ## The search and its connection -/

/-- What ends a search: the daemon is told to stop it, the worker announces its end, or the
    worker holds no connection any more. -/
def Event.Stops : Event → Prop
  | .exchange _ request _ => request.opcode = Op.searchStop
  | .emit none _ => True
  | .emit (some _) (.searchingChanged searching) => searching = false
  | .emit (some _) _ => False

/-- A search was accepted on `client`, and nothing has ended it since. -/
def Searched (client : EcClient) (trace : List Event) : Prop :=
  ∃ before params reply after,
    trace = before ++ .exchange client (searchRequest params) (.ok reply) :: after ∧
    reply.opcode ≠ Op.failed ∧ ∀ ev ∈ after, ¬ev.Stops

/-- The worker polls only for a search of the connection it holds. -/
def Polls (worker : EcWorker) (trace : List Event) : Prop :=
  worker.searching = true → ∃ client, worker.client = some client ∧ Searched client trace

def World.Polls (w : World) : Prop := Amule.Polls w.worker w.trace

theorem Searched.append {client : EcClient} {trace events : List Event}
    (h : Searched client trace) (hevents : ∀ ev ∈ events, ¬ev.Stops) :
    Searched client (trace ++ events) := by
  obtain ⟨before, params, reply, after, rfl, hreply, hafter⟩ := h
  refine ⟨before, params, reply, after ++ events, by simp, hreply, ?_⟩
  exact List.forall_mem_append.mpr ⟨hafter, hevents⟩

namespace World

variable {w w' : World}

theorem polls_of_idle (h : w.worker.searching = false) : w.Polls :=
  fun hsearching => absurd (h.symm.trans hsearching) nofun

/-- Events that end no search may follow while the connection is held. -/
theorem Polls.append (h : w.Polls) (events : List Event) (htrace : w'.trace = w.trace ++ events)
    (hclient : w'.worker.client = w.worker.client)
    (hsearching : w'.worker.searching = w.worker.searching)
    (hevents : ∀ client, w.worker.client = some client → ∀ ev ∈ events, ¬ev.Stops) :
    w'.Polls := by
  intro hon
  obtain ⟨client, hheld, hsearched⟩ := h (hsearching.symm.trans hon)
  rw [htrace]
  exact ⟨client, hclient.trans hheld, hsearched.append (hevents client hheld)⟩

theorem Polls.exchanged (h : w.Polls) (client : EcClient) {request : Packet}
    (hop : request.opcode ≠ Op.searchStop) : (w.exchanged client request).Polls := by
  refine h.append [_] rfl rfl rfl fun _ _ ev hev => ?_
  rw [List.mem_singleton.mp hev]
  exact hop

theorem Polls.emitted (h : w.Polls) {s : Signal} (hs : s ≠ .searchingChanged false) :
    (w.emitted s).Polls := by
  refine h.append [_] rfl rfl rfl fun client hheld ev hev => ?_
  rw [List.mem_singleton.mp hev, hheld]
  cases s with
  | searchingChanged searching =>
    intro hstops
    exact hs (congrArg Signal.searchingChanged hstops)
  | _ => exact id

theorem Polls.setWorker (h : w.Polls) {worker : EcWorker}
    (hclient : worker.client = w.worker.client)
    (hsearching : worker.searching = w.worker.searching) : (w.setWorker worker).Polls :=
  h.append [] (List.append_nil _).symm hclient hsearching (by simp)

/-- A search that was sent and not refused is one of the connection held. -/
theorem polls_searches {client : EcClient} {params : SearchParams} {reply : Packet}
    (hheld : w.worker.client = some client) (hreply : w.network.replies 0 = .ok reply)
    (haccepted : reply.opcode ≠ Op.failed) :
    ((w.searches params).exchanged client (searchRequest params)).Polls := by
  intro _
  refine ⟨client, hheld, (w.searches params).trace, params, reply, [], ?_, haccepted, by simp⟩
  show _ ++ [Event.exchange client (searchRequest params) (w.network.replies 0)] = _
  rw [hreply]

end World

theorem polls_rules : Rules World.Polls fun _ => World.Polls where
  reply hplain _ hheld := hheld.1.exchanged _ (hplain.ne (by decide))
  fail hplain _ hheld := hheld.1.exchanged _ (hplain.ne (by decide))
  refuse hw := hw
  recover _ hw := hw
  log hw := hw.emitted (by simp)
  teardown {w e reason} _ := World.polls_of_idle (World.searching_tornDown w reason _)
  notice hw := hw.emitted (by simp)
  report hs hheld := hheld.1.emitted fun heq => by
    rw [heq] at hs
    exact hs
  prefs hheld _ := hheld.1.emitted (by simp)
  update {w client reply} _ hheld := by
    have hsent : (w.exchanged client updateRequest).Polls :=
      hheld.1.exchanged client (show Op.getUpdate ≠ _ by decide)
    exact hsent.setWorker rfl rfl
  updateFail _ hheld := hheld.1.exchanged _ (show Op.getUpdate ≠ _ by decide)
  pace hheld := hheld.1.setWorker rfl rfl
  stop _ _ := World.polls_of_idle rfl
  stopReply hoff _ _ := World.polls_of_idle hoff
  stopFail hoff _ _ := World.polls_of_idle hoff

theorem polls_starts (params : SearchParams) :
    Starts World.Polls (fun _ => World.Polls) params where
  reply hreply haccepted hheld := World.polls_searches hheld.2 hreply haccepted
  fail _ _ := World.polls_of_idle rfl
  refuse _ _ := World.polls_of_idle rfl

theorem polls_whole : Whole World.Polls where
  toRules := polls_rules
  starts := polls_starts
  write _ hheld := hheld.1.exchanged _ (show Op.setPreferences ≠ _ by decide)
  disconnect {w} _ := World.polls_of_idle (World.searching_tornDown w _ _)

/-! ## A connection without a search -/

/-- A search asked for on connection `id`. -/
def Event.Starts (id : ℕ) : Event → Prop
  | .exchange client request _ => client.id = id ∧ request.opcode = Op.searchStart
  | .emit _ _ => False

instance (id : ℕ) : DecidablePred (Event.Starts id)
  | .exchange client request _ =>
    inferInstanceAs (Decidable (client.id = id ∧ request.opcode = Op.searchStart))
  | .emit _ _ => isFalse not_false

/-- If a connection is held it is `id`, on which no search was asked for. -/
structure World.Unsearched (id : ℕ) (w : World) : Prop where
  client : ∀ client, w.worker.client = some client → client.id = id
  trace : ∀ ev ∈ w.trace, ¬ev.Starts id

namespace World

variable {w w' : World} {id : ℕ}

theorem Unsearched.append (h : w.Unsearched id) (events : List Event)
    (htrace : w'.trace = w.trace ++ events)
    (hclient : w'.worker.client = w.worker.client ∨ w'.worker.client = none)
    (hevents : ∀ ev ∈ events, ¬ev.Starts id) : w'.Unsearched id where
  client c hheld := by
    rcases hclient with hsame | hnone
    · exact h.client c (hsame.symm.trans hheld)
    · exact absurd (hnone.symm.trans hheld) nofun
  trace := by
    rw [htrace]
    exact List.forall_mem_append.mpr ⟨h.trace, hevents⟩

theorem Unsearched.exchanged (h : w.Unsearched id) (client : EcClient) {request : Packet}
    (hop : request.opcode ≠ Op.searchStart) : (w.exchanged client request).Unsearched id := by
  refine h.append [_] rfl (.inl rfl) fun ev hev => ?_
  rw [List.mem_singleton.mp hev]
  exact fun hstarts => hop hstarts.2

theorem Unsearched.emitted (h : w.Unsearched id) (s : Signal) : (w.emitted s).Unsearched id :=
  h.append [_] rfl (.inl rfl) (by simp [Event.Starts])

theorem Unsearched.setWorker (h : w.Unsearched id) {worker : EcWorker}
    (hclient : worker.client = w.worker.client ∨ worker.client = none) :
    (w.setWorker worker).Unsearched id :=
  h.append [] (List.append_nil _).symm hclient (by simp)

theorem Unsearched.tornDown (h : w.Unsearched id) (reason : QString) (status : ConnStatus) :
    (w.tornDown reason status).Unsearched id := by
  apply tornDown_keeps
  · exact fun hw => hw.emitted _
  · exact fun _ hw => hw.setWorker (.inl rfl)
  · exact h.setWorker (.inr rfl)

end World

theorem unsearched_rules (id : ℕ) : Rules (World.Unsearched id) fun _ => World.Unsearched id where
  reply hplain _ hheld := hheld.1.exchanged _ (hplain.ne (by decide))
  fail hplain _ hheld := hheld.1.exchanged _ (hplain.ne (by decide))
  refuse hw := hw
  recover _ hw := hw
  log hw := hw.emitted _
  teardown hw := hw.tornDown _ _
  notice hw := hw.emitted _
  report _ hheld := hheld.1.emitted _
  prefs hheld _ := hheld.1.emitted _
  update {w client reply} _ hheld := by
    have hsent : (w.exchanged client updateRequest).Unsearched id :=
      hheld.1.exchanged client (show Op.getUpdate ≠ _ by decide)
    exact hsent.setWorker (.inl rfl)
  updateFail _ hheld := hheld.1.exchanged _ (show Op.getUpdate ≠ _ by decide)
  pace hheld := hheld.1.setWorker (.inl rfl)
  stop _ hw := by
    refine World.Unsearched.emitted ?_ _
    exact hw.setWorker (.inl rfl)
  stopReply _ _ hheld := hheld.1.exchanged _ (show Op.searchStop ≠ _ by decide)
  stopFail _ _ hheld := hheld.1.exchanged _ (show Op.searchStop ≠ _ by decide)

/-- The worker does not poll on a connection without a search. -/
theorem World.Unsearched.polls_iff {w : World} {id : ℕ} (h : w.Unsearched id) :
    w.Polls ↔ w.worker.searching = false := by
  constructor
  · intro hpolls
    refine Bool.eq_false_iff.mpr fun hon => ?_
    obtain ⟨client, hheld, before, params, reply, after, htrace, -⟩ := hpolls hon
    refine h.trace (.exchange client (searchRequest params) (.ok reply)) ?_
      ⟨h.client client hheld, rfl⟩
    rw [htrace]
    exact List.mem_append_right _ List.mem_cons_self
  · exact World.polls_of_idle

/-! ## Connecting -/

section connect

variable {w₀ w : World} {host : QString} {port : UInt16}

theorem World.Polls.connecting (h : w₀.Polls) (host : QString) (port : UInt16) :
    (w₀.connecting host port).Polls := by
  refine World.Polls.emitted (World.Polls.emitted ?_ (by simp)) (by simp)
  exact h.setWorker rfl rfl

theorem World.Polls.refused (h : w₀.Polls) (hw : Refused w₀ w) (hshaken : Shaken w₀ w)
    (message : QString) : (w.refused message).Polls := by
  obtain ⟨events, htrace, hevents⟩ := hshaken
  refine World.Polls.emitted (World.Polls.emitted ?_ (by simp)) (by simp)
  refine h.append events htrace (by rw [hw.worker]) (by rw [hw.worker]) fun _ _ ev hev => ?_
  cases ev with
  | exchange client request reply => exact (hevents _ hev).ne (by decide) (by decide)
  | emit client signal => exact (hevents _ hev).elim

/-- No search was asked for on a connection that is new. -/
theorem World.Numbered.unsearched (h : w₀.Numbered) {client : EcClient}
    (hw : Accepted (w₀.connecting host port) client w)
    (hshaken : Shaken (w₀.connecting host port) w) :
    (w.adopted client).Unsearched w₀.nextId := by
  obtain ⟨events, htrace, hevents⟩ := hshaken
  refine World.Unsearched.emitted (World.Unsearched.emitted ⟨?_, ?_⟩ _) _
  · intro c hheld
    rw [← Option.some.inj hheld, hw.id]
    rfl
  · rw [World.trace_setWorker, htrace]
    intro ev hev hstarts
    cases ev with
    | emit client signal => exact hstarts
    | exchange client request reply =>
      cases List.mem_append.mp hev with
      | inl hev =>
        have hlt := (h.connecting host port).used _ hev _ hstarts.1
        exact hlt.false
      | inr hev => exact (hevents _ hev).ne (by decide) (by decide) hstarts.2

/-- The refresh of a connection taken over a search polls for it, unless it ends the search. -/
theorem polls_onRefresh_iff (h : w₀.Numbered) {client : EcClient}
    (hw : Accepted (w₀.connecting host port) client w)
    (hshaken : Shaken (w₀.connecting host port) w) (hsearching : w₀.worker.searching = true) :
    (EcWorker.onRefresh.run ((w.adopted client).settled client)).2.Polls ↔
      w.network.next.EndsSearch w₀.worker := by
  have hsettled : ((w.adopted client).settled client).Unsearched w₀.nextId := by
    apply (unsearched_rules _).settled ⟨h.unsearched hw hshaken, rfl⟩
    · exact fun _ => id
    · exact fun hw => hw.setWorker (.inl rfl)
  have hunsearched := (EcWorker.onRefresh_keeps (unsearched_rules _)).run hsettled
  have hclient : ((w.adopted client).settled client).worker.client = some client := by
    rw [hw.worker_settled]
  have hon : ((w.adopted client).settled client).worker.searching = true := by
    rw [hw.worker_settled]
    exact hsearching
  rw [hunsearched.polls_iff, ← Bool.not_eq_true, EcWorker.searching_onRefresh hclient hon, not_not,
    hw.worker_settled, World.network_settled]
  rfl

end connect

/-- A connect that is accepted hands the flag on to the new connection. -/
theorem polls_connectToDaemon [Qt] (host : QString) (port : UInt16) (password : QString)
    {w : World} (hw : w.Polls) (hnumbered : w.Numbered) :
    (((EcWorker.connectToDaemon host port password).run w).2.Polls ↔
      (w.worker.searching = true →
        ∀ n, w.network.login = some n → n.next.EndsSearch w.worker)) := by
  rcases EcWorker.connectToDaemon_run host port password w with
    ⟨client, w', haccepted, hshaken, heq⟩ | ⟨w', message, hrefused, hshaken, heq⟩
  · have hlogin : w.network.login = some w'.network := haccepted.network
    rw [heq]
    by_cases hsearching : w.worker.searching = true
    · rw [polls_onRefresh_iff hnumbered haccepted hshaken hsearching]
      simp only [hlogin, hsearching, Option.some.injEq, forall_eq', true_implies]
    · refine iff_of_true ?_ fun h => absurd h hsearching
      refine (EcWorker.onRefresh_keeps polls_rules).run (World.polls_of_idle ?_)
      rw [haccepted.worker_settled]
      exact Bool.eq_false_iff.mpr hsearching
  · have hlogin : w.network.login = none := hrefused.network
    refine iff_of_true ?_ fun _ n hn => absurd (hlogin.symm.trans hn) nofun
    rw [heq]
    exact (hw.connecting host port).refused hrefused hshaken message

/-! ## Runs -/

/-- A call that takes the connection away from a search that is on, and leaves it on. -/
def Call.Orphans (worker : EcWorker) (c : Call) : Prop :=
  match c.slot with
  | .shutdown => True
  | .connectToDaemon _ _ _ => ∃ n, c.network.login = some n ∧ ¬n.next.EndsSearch worker
  | _ => False

theorem polls_call [Qt] {w : World} (slot : Slot) (hw : w.Polls) (hnumbered : w.Numbered) :
    (slot.call.run w).2.Polls ↔
      (w.worker.searching = true → ¬Call.Orphans w.worker ⟨slot, w.network⟩) := by
  cases slot with
  | connectToDaemon host port password =>
    refine (polls_connectToDaemon host port password hw hnumbered).trans ?_
    simp only [Call.Orphans, not_exists, not_and, not_not]
  | shutdown =>
    -- the flag stays, and there is no connection
    have hrun : (Slot.shutdown.call.run w).2.worker =
        { w.worker with timerActive := false, client := none, sourceClients := ∅ } := rfl
    constructor
    · intro hpolls hsearching
      rw [World.Polls, hrun] at hpolls
      obtain ⟨client, hheld, -⟩ := hpolls hsearching
      exact absurd hheld nofun
    · intro hidle
      refine World.polls_of_idle ?_
      rw [hrun]
      exact Bool.eq_false_iff.mpr fun hsearching => hidle hsearching trivial
  | _ =>
    refine iff_of_true (Keeps.run ?_ hw) fun _ => id
    exact polls_whole.keeps trivial

/-- The worker polls only for searches of the connection it holds, throughout a run, if and
    only if no call orphans a search that is on. -/
theorem polls_iff_not_orphaned [Qt] (calls : List Call) :
    Run.Always Session.step (fun s => Polls s.worker s.trace) {} calls ↔
      Run.Along Session.step
        (fun s c => s.worker.searching = true → ¬c.Orphans s.worker) {} calls := by
  have hkeeps (s : Session) (c : Call) (hs : s.Numbered) : (s.step c).Numbered := hs.step c
  have hstep (s : Session) (c : Call) (_ : True) (hnumbered : s.Numbered)
      (hs : Polls s.worker s.trace) : (Polls (s.step c).worker (s.step c).trace ↔
        (s.worker.searching = true → ¬c.Orphans s.worker)) :=
    polls_call c.slot (w := s.world c.network) hs (hnumbered c.network)
  exact Run.always_iff_along_within (V := fun _ => True) hkeeps hstep (fun _ _ => trivial)
    Session.numbered_start nofun

/-- The password field's return key again, with a search on. -/
def reconnectSearching : List Call := [
  ⟨.connectToDaemon (.lit "localhost") 4712 [], .friendly⟩,
  ⟨.startSearch { text := .lit "ubuntu" }, .friendly⟩,
  ⟨.connectToDaemon (.lit "localhost") 4712 [], .friendly⟩]

/-- The new session polls for a search it did not start. -/
theorem polls_orphan : ¬Run.Always (@Session.step sampleQt) (fun s => Polls s.worker s.trace) {}
    reconnectSearching := by
  let _ : Qt := sampleQt
  rintro ⟨-, -, -, hlast⟩
  obtain ⟨client, hheld, before, params, reply, after, htrace, -⟩ := hlast (by decide +kernel)
  -- the second connection is held, and no search was asked for on it
  have hid : some client.id = some 1 := by
    rw [← Option.map_some, ← hheld]
    decide +kernel
  have hnone : ∀ ev ∈ (reconnectSearching.foldl Session.step {}).trace, ¬ev.Starts 1 := by
    decide +kernel
  refine hnone (.exchange client (searchRequest params) (.ok reply)) ?_ ⟨Option.some.inj hid, rfl⟩
  exact htrace ▸ List.mem_append_right _ List.mem_cons_self

end Amule
