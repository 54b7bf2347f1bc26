import AmuleRemote.Ec.Connecting

/-!
# What a slot call leaves behind

One statement for every slot: which events a call may add to the trace, and
whose connection the worker may hold after it. Preferences are written by the
apply slot alone, and reported as some reply on the connection held gave them.

## Main results

- `Session.step_effect` — every slot call has this effect
-/

namespace Amule

open Ec

section loaded

variable (p : DaemonPrefs) (tag : Tag) (name : UInt16)

@[simp] theorem loaded_readFlag (field : BoolField) :
    (p.readFlag tag field name).loaded = p.loaded := rfl

@[simp] theorem loaded_readIntFlag (field : BoolField) :
    (p.readIntFlag tag field name).loaded = p.loaded := rfl

@[simp] theorem loaded_readInt (field : IntField) :
    (p.readInt tag field name).loaded = p.loaded := rfl

@[simp] theorem loaded_readStr (field : StrField) :
    (p.readStr tag field name).loaded = p.loaded := rfl

variable {p name}

/-- Reading a category does not decide whether the preferences count as loaded. -/
def KeepsLoaded (read : DaemonPrefs → Tag → DaemonPrefs) : Prop :=
  ∀ p category, (read p category).loaded = p.loaded

theorem loaded_readCategory {resp : Packet} {read : DaemonPrefs → Tag → DaemonPrefs}
    (h : KeepsLoaded read) : (p.readCategory resp name read).loaded = p.loaded := by
  cases hcategory : resp.tag name with
  | none => simp [DaemonPrefs.readCategory, hcategory]
  | some category => simp [DaemonPrefs.readCategory, hcategory, h p category]

/-- Preferences read from a reply count as loaded. -/
theorem loaded_prefsOf (resp : Packet) : (prefsOf resp).loaded = true := by
  have hgeneral : KeepsLoaded readGeneral := fun p category => by simp [readGeneral]
  have hconnections : KeepsLoaded readConnections := fun p category => by simp [readConnections]
  have hfiles : KeepsLoaded readFiles := fun p category => by simp [readFiles]
  have hdirectories : KeepsLoaded readDirectories := fun p category => by simp [readDirectories]
  have hservers : KeepsLoaded readServers := fun p category => by simp [readServers]
  have hsecurity : KeepsLoaded readSecurity := fun p category => by simp [readSecurity]
  have hmessagefilter : KeepsLoaded readMessagefilter :=
    fun p category => by simp [readMessagefilter]
  have hremotectrl : KeepsLoaded readRemotectrl := fun p category => by simp [readRemotectrl]
  have honlinesig : KeepsLoaded readOnlinesig := fun p category => by simp [readOnlinesig]
  have hcoretweaks : KeepsLoaded readCoretweaks := fun p category => by simp [readCoretweaks]
  have hkademlia : KeepsLoaded readKademlia := fun p category => by simp [readKademlia]
  rw [prefsOf, loaded_readCategory hkademlia, loaded_readCategory hcoretweaks,
    loaded_readCategory honlinesig, loaded_readCategory hremotectrl, loaded_readCategory
    hmessagefilter, loaded_readCategory hsecurity, loaded_readCategory hservers,
    loaded_readCategory hdirectories, loaded_readCategory hfiles, loaded_readCategory
    hconnections, loaded_readCategory hgeneral]

end loaded

def Slot.startsSearch : Slot → Bool
  | .startSearch _ => true
  | _ => false

/-- What a call of `slot` may add to the trace. Preferences are reported by the connection
    they were fetched on. -/
def Event.Allowed (s : Session) (slot : Slot) (trace : List Event) : Event → Prop
  | .exchange client request _ => request.opcode = Op.setPreferences →
    s.worker.client = some client ∧
      ∃ prefs, slot = .applyPrefs prefs ∧ request = setPrefsRequest prefs
  | .emit held (.prefsUpdated prefs) => ∃ client, held = some client ∧ Fetched client prefs trace
  | .emit _ _ => True

theorem Fetched.mono {client : EcClient} {prefs : DaemonPrefs} {trace trace' : List Event}
    (h : Fetched client prefs trace) (hsub : trace ⊆ trace') : Fetched client prefs trace' := by
  obtain ⟨reply, hmem, heq⟩ := h
  exact ⟨reply, hsub hmem, heq⟩

theorem Fetched.loaded {client : EcClient} {prefs : DaemonPrefs} {trace : List Event}
    (h : Fetched client prefs trace) : prefs.loaded = true := by
  obtain ⟨reply, -, rfl⟩ := h
  exact loaded_prefsOf reply

theorem Event.Allowed.mono {s : Session} {slot : Slot} {trace trace' : List Event} {ev : Event}
    (h : ev.Allowed s slot trace) (hsub : trace ⊆ trace') : ev.Allowed s slot trace' := by
  cases ev with
  | exchange client request reply => exact h
  | emit held signal =>
    cases signal with
    | prefsUpdated prefs =>
      obtain ⟨client, hheld, hfetched⟩ := h
      exact ⟨client, hheld, hfetched.mono hsub⟩
    | _ => exact h

/-- The call connects: the login is accepted. -/
def Call.Connects (c : Call) : Prop :=
  match c.slot with
  | .connectToDaemon _ _ _ => c.network.login ≠ none
  | _ => False

/-- A world within a call of `slot`, with `C` for the connections it may hold. -/
structure World.Within (s : Session) (slot : Slot) (C : EcClient → Prop) (w : World) : Prop where
  trace : ∃ events, w.trace = s.trace ++ events ∧ ∀ ev ∈ events, ev.Allowed s slot w.trace
  client : ∀ client, w.worker.client = some client → C client

section within

variable {s : Session} {slot : Slot} {C : EcClient → Prop} {w w' : World}

theorem World.Within.append {C' : EcClient → Prop} (h : w.Within s slot C) (events : List Event)
    (htrace : w'.trace = w.trace ++ events) (hevents : ∀ ev ∈ events, ev.Allowed s slot w'.trace)
    (hclient : ∀ client, w'.worker.client = some client → C' client) :
    w'.Within s slot C' where
  trace := by
    obtain ⟨old, hold, hallowed⟩ := h.trace
    refine ⟨old ++ events, by rw [htrace, hold, List.append_assoc], ?_⟩
    intro ev hev
    cases List.mem_append.mp hev with
    | inl hev => exact (hallowed ev hev).mono (htrace ▸ List.subset_append_left _ _)
    | inr hev => exact hevents ev hev
  client := hclient

theorem World.Within.emitted (h : w.Within s slot C) {signal : Signal}
    (hsignal : (Event.emit w.worker.client signal).Allowed s slot (w.emitted signal).trace) :
    (w.emitted signal).Within s slot C := by
  refine h.append [_] rfl ?_ h.client
  intro ev hev
  rw [List.mem_singleton.mp hev]
  exact hsignal

theorem World.Within.exchanged (h : w.Within s slot C) {client : EcClient} {request : Packet}
    (hrequest : ∀ reply trace, (Event.exchange client request reply).Allowed s slot trace) :
    (w.exchanged client request).Within s slot C := by
  refine h.append [_] rfl ?_ h.client
  intro ev hev
  rw [List.mem_singleton.mp hev]
  exact hrequest _ _

theorem World.Within.tornDown (h : w.Within s slot C) (reason : QString) (status : ConnStatus) :
    (w.tornDown reason status).Within s slot C := by
  refine h.append _ ((w.trace_tornDown reason status).trans (List.append_assoc ..)) ?_ ?_
  · intro ev hev
    -- a search that is on is announced as stopped before the status
    by_cases hsearching : w.worker.searching = true
    · simp only [hsearching, if_true, List.cons_append, List.nil_append, List.mem_cons,
        List.not_mem_nil, or_false] at hev
      rcases hev with rfl | rfl
      · trivial
      · trivial
    · simp only [hsearching, Bool.false_eq_true, if_false, List.nil_append,
        List.mem_singleton] at hev
      rw [hev]
      trivial
  · intro client hheld
    rw [World.client_tornDown] at hheld
    exact absurd hheld nofun

/-- A signal that a slot may emit at any time. -/
theorem Ordinary.allowed {signal : Signal} (hsignal : Ordinary w signal)
    (client : Option EcClient) (trace : List Event) :
    (Event.emit client signal).Allowed s slot trace := by
  cases signal with
  | prefsUpdated prefs => exact hsignal.elim
  | _ => trivial

/-- The parts of a slot stay within the call. -/
theorem within_contract (s : Session) (slot : Slot) (C : EcClient → Prop) :
    Contract (World.Within s slot C) fun _ => World.Within s slot C where
  reply hop _ hheld := hheld.1.exchanged fun _ _ heq => absurd heq hop
  fail hop _ hheld := hheld.1.exchanged fun _ _ heq => absurd heq hop
  refuse hw := hw
  recover _ hw := hw
  work hclient _ hw := hw.append [] (List.append_nil _).symm (by simp) (hclient ▸ hw.client)
  emit hsignal hw := hw.emitted (hsignal.allowed _ _)
  prefs hheld hfetched :=
    hheld.1.emitted ⟨_, hheld.2, hfetched.mono (List.subset_append_left _ _)⟩
  log hw := hw.emitted trivial
  halt hw := by
    refine World.Within.emitted ?_ trivial
    exact hw.append [] (List.append_nil _).symm (by simp) hw.client
  teardown hw := hw.tornDown _ _

end within

/-- What a call does to the session. -/
structure SlotEffect (s : Session) (c : Call) (s' : Session) : Prop where
  trace : ∃ events, s'.trace = s.trace ++ events ∧ ∀ ev ∈ events, ev.Allowed s c.slot s'.trace
  client : ∀ client, s'.worker.client = some client →
    s.worker.client = some client ∨ c.Connects ∧ client.id = s.nextId

theorem World.Within.effect {s : Session} {c : Call} {C : EcClient → Prop} {w : World}
    (h : w.Within s c.slot C) (hC : ∀ client, C client →
      s.worker.client = some client ∨ c.Connects ∧ client.id = s.nextId) :
    SlotEffect s c w.session :=
  ⟨h.trace, fun client hheld => hC client (h.client client hheld)⟩

theorem Event.Login.allowed {s : Session} {slot : Slot} {trace : List Event} {id : ℕ} {ev : Event}
    (h : ev.Login id) : ev.Allowed s slot trace := by
  cases ev with
  | exchange client request reply => exact fun heq => absurd heq h.2
  | emit client signal => exact h.elim

section connect

variable {s : Session} {slot : Slot} {C C' : EcClient → Prop} {w₀ w : World}

theorem World.Within.connecting (h : w₀.Within s slot C) (host : QString) (port : UInt16) :
    (w₀.connecting host port).Within s slot C := by
  refine World.Within.emitted (World.Within.emitted ?_ ?_) ?_
  · exact h.append [] (List.append_nil _).symm (by simp) h.client
  · trivial
  · trivial

theorem World.Within.adopted {client : EcClient} (h : w₀.Within s slot C)
    (hw : Accepted w₀ client w) (hclient : C' client) : (w.adopted client).Within s slot C' := by
  obtain ⟨events, htrace, hevents⟩ := hw.trace
  refine World.Within.emitted (World.Within.emitted ?_ ?_) ?_
  · refine h.append events htrace (fun ev hev => (hevents ev hev).1.allowed) ?_
    intro c hheld
    rw [← Option.some.inj hheld]
    exact hclient
  · trivial
  · trivial

theorem World.Within.refused (h : w₀.Within s slot C) (hw : Refused w₀ w) (message : QString) :
    (w.refused message).Within s slot C := by
  obtain ⟨events, htrace, hevents, -⟩ := hw.trace
  refine World.Within.emitted (World.Within.emitted ?_ ?_) ?_
  · exact h.append events htrace (fun ev hev => (hevents ev hev).allowed) (hw.worker ▸ h.client)
  · trivial
  · trivial

end connect

section call

variable (s : Session) (network : Network)

theorem Session.within_start (slot : Slot) :
    (s.world network).Within s slot fun client => s.worker.client = some client :=
  ⟨⟨[], (List.append_nil _).symm, by simp⟩, fun _ => id⟩

theorem Session.connectToDaemon_effect [Qt] (host : QString) (port : UInt16)
    (password : QString) :
    SlotEffect s ⟨.connectToDaemon host port password, network⟩
      (s.step ⟨.connectToDaemon host port password, network⟩) := by
  have hconnecting :=
    (s.within_start network (.connectToDaemon host port password)).connecting host port
  have hnew := within_contract s (.connectToDaemon host port password) fun client =>
    network.login ≠ none ∧ client.id = s.nextId
  have haccept {client w} (hw : Accepted ((s.world network).connecting host port) client w)
      (_ : Shaken ((s.world network).connecting host port) w) :
      ((w.adopted client).settled client).Within s (.connectToDaemon host port password)
        fun client => network.login ≠ none ∧ client.id = s.nextId := by
    refine hnew.settled ⟨hconnecting.adopted hw ⟨?_, hw.id⟩, rfl⟩ fun _ => id
    intro hnone
    exact Option.some_ne_none _ (hw.network.symm.trans hnone)
  have hcall := EcWorker.connectToDaemon_spec hnew.rules host port password haccept
  rcases hcall with hw | ⟨w', message, hrefused, -, hw⟩
  · exact hw.effect fun client hC => .inr hC
  · -- a refused attempt leaves the connection held before in place
    refine World.Within.effect ?_ fun client => .inl
    exact hw ▸ hconnecting.refused hrefused message

theorem Session.within_startSearch (params : SearchParams) :
    ((EcWorker.startSearch params).run (s.world network)).2.Within s (.startSearch params)
      fun client => s.worker.client = some client := by
  have hstart := s.within_start network (.startSearch params)
  have hcontract := within_contract s (.startSearch params) fun client =>
    s.worker.client = some client
  have hstarts := hcontract.starts params fun w hw => ⟨hw.trace, hw.client⟩
  exact (EcWorker.startSearch_keeps hcontract.rules hstarts).run hstart

theorem Session.within_applyPrefs (prefs : DaemonPrefs) :
    ((EcWorker.applyPrefs prefs).run (s.world network)).2.Within s (.applyPrefs prefs)
      fun client => s.worker.client = some client := by
  have hstart := s.within_start network (.applyPrefs prefs)
  have hcontract := within_contract s (.applyPrefs prefs) fun client =>
    s.worker.client = some client
  have hsend {client} (hheld : s.worker.client = some client) :
      ((s.world network).exchanged client (setPrefsRequest prefs)).Within s
        (.applyPrefs prefs) fun client => s.worker.client = some client :=
    hstart.exchanged fun _ _ _ => ⟨hheld, prefs, rfl, rfl⟩
  exact EcWorker.applyPrefs_keeps hcontract.rules prefs (fun _ hheld => hsend hheld.2)
    (fun _ hheld => hsend hheld.2) (fun _ _ _ => id) _ ⟨hstart, rfl⟩

end call

/-- Every slot call, the connect as well. -/
theorem Session.step_effect [Qt] (s : Session) (c : Call) : SlotEffect s c (s.step c) := by
  have hstart := s.within_start c.network c.slot
  have hcontract := within_contract s c.slot fun client => s.worker.client = some client
  obtain ⟨slot, network⟩ := c
  cases slot with
  | connectToDaemon host port password =>
    exact s.connectToDaemon_effect network host port password
  | startSearch params => exact (s.within_startSearch network params).effect fun client => .inl
  | applyPrefs prefs => exact (s.within_applyPrefs network prefs).effect fun client => .inl
  | disconnectFromDaemon =>
    refine World.Within.effect ?_ fun client => .inl
    refine (EcWorker.disconnectFromDaemon_keeps fun w hw => ?_).run hstart
    exact (hw.tornDown _ _).emitted trivial
  | shutdown =>
    refine World.Within.effect ?_ fun client => .inl
    refine (EcWorker.shutdown_keeps fun w hw => ?_).run hstart
    exact hw.append [] (List.append_nil _).symm (by simp) nofun
  | _ =>
    refine World.Within.effect ?_ fun client => .inl
    refine Keeps.run ?_ hstart
    exact Slot.call_keeps hcontract.rules trivial

end Amule
